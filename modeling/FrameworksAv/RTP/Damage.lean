import FrameworksAv.RTP.Reassembly

/-
  Which access units are posted as damaged (`AAVCAssembler::assembleMore`, `packetLost`).

  A log keeps the numbers that the assembler gave up, beside every run of a receiver.

  Main declarations:
    * `Schedule`, `Log`, `Watched`
    * `AAVCAssembler.Adds`, `AAVCAssembler.Handles`
    * `Fair`
    * `damaged_of_missing`
-/

--
-- Runs with a Log
--

namespace FrameworksAv

namespace RTP

/- Packets as they are sent: the units of a time together. -/
structure Schedule where
  packets : List ABuffer
  sorted : packets.Pairwise (fun p q => p.int32Data < q.int32Data)
  room : ∀ p ∈ packets, p.int32Data + 1 < 2 ^ 32
  blocks :
    ∀ p ∈ packets, ∀ q ∈ packets, ∀ r ∈ packets,
      p.int32Data < q.int32Data →
        q.int32Data < r.int32Data → p.rtpTime = r.rtpTime → q.rtpTime = p.rtpTime

/-
  A packet that arrives has the number and the time of one that was sent; its data may have become
  other data.
-/
def Schedule.Carries (schedule : Schedule) (arrivals : List ABuffer) : Prop :=
  ∀ a ∈ arrivals, ∃ p ∈ schedule.packets, p.int32Data = a.int32Data ∧ p.rtpTime = a.rtpTime

/- The number expected first, and those that were given up. -/
structure Log where
  first : Option Nat
  givenUp : List Nat

namespace Log

def new : Log := ⟨none, []⟩

def record (log : Log) (opened : Option Nat) (passed : List Nat) : Log :=
  { first := log.first.or opened
    givenUp := log.givenUp ++ passed }

/- The packet of this number never reaches a decoder. -/
def Missing (log : Log) (n : Nat) : Prop :=
  n ∈ log.givenUp ∨ ∃ f ∈ log.first, n < f

end Log

namespace Receiver

/- The number of the packet that a call begins with. -/
def start (r : Receiver) : Nat :=
  if r.assembler.expected.mNextExpectedSeqNoValid then r.assembler.expected.mNextExpectedSeqNo
  else (r.queue.head?.map ABuffer.int32Data).getD 0

/- The number that a call expects as the first one of all. -/
def opened (r next : Receiver) : Option Nat :=
  if r.assembler.expected.mNextExpectedSeqNoValid = false ∧
      next.assembler.expected.mNextExpectedSeqNoValid then
    some r.start
  else none

/- The numbers of the packets that a call finds malformed. -/
def malformed (r next : Receiver) (status : AssemblyStatus) : List Nat :=
  if status = .MALFORMED_PACKET then
    List.range' r.start (next.assembler.expected.mNextExpectedSeqNo - r.start)
  else []

end Receiver

/- The steps of a receiver, with what is logged; `ok` is what is asked of the steps. -/
inductive Watched (arrivals : List ABuffer) (ok : Option Nat → List Nat → AAVCAssembler → Prop) :
    Receiver → Log → Prop
| start : Watched arrivals ok .new .new
| arrive {r : Receiver} {log : Log} (packet : ABuffer) (hRun : Watched arrivals ok r log)
    (hArrives : packet ∈ arrivals) :
    Watched arrivals ok { r with queue := queuePacket r.queue packet } log
| assemble {r next : Receiver} {log : Log} {status : AssemblyStatus}
    (hRun : Watched arrivals ok r log) (hMore : r.Assembles status next)
    (hOk :
      ok (r.opened next) (r.malformed next status)
        next.assembler) :
    Watched arrivals ok next (log.record (r.opened next) (r.malformed next status))
| lost {r next : Receiver} {log : Log} {assembler : AAVCAssembler}
    (hRun : Watched arrivals ok r log) (hMore : r.Assembles .WRONG_SEQUENCE_NUMBER next)
    (hLost : next.assembler.packetLost = .returns assembler)
    (hOk : ok (r.opened next) [next.assembler.expected.mNextExpectedSeqNo] assembler) :
    Watched arrivals ok { next with assembler := assembler }
      (log.record (r.opened next) [next.assembler.expected.mNextExpectedSeqNo])

/- An access unit without a unit of its time is damaged. -/
def Sound (schedule : Schedule) (r : Receiver) (log : Log) : Prop :=
  ∀ a ∈ r.assembler.posted,
    (∃ p ∈ schedule.packets, p.rtpTime = a.buffer.rtpTime ∧ log.Missing p.int32Data) →
    a.damaged = true

/-
  The packets that are given up have the time of the units that wait to be posted, where there are
  any, or nothing of their time arrives; and the first packet that is expected is the first one of
  its time.
-/
def Placed (schedule : Schedule) (arrivals : List ABuffer) (opened : Option Nat) (passed : List Nat)
    (s : AAVCAssembler) : Prop :=
  (∀ f ∈ opened,
    ∀ p ∈ schedule.packets, ∀ q ∈ schedule.packets,
      p.int32Data < f → q.int32Data = f → p.rtpTime ≠ q.rtpTime) ∧
    ∀ p ∈ schedule.packets, p.int32Data ∈ passed →
      s.mNALUnits = [] ∨ s.mAccessUnitRTPTime = p.rtpTime ∨ ∀ a ∈ arrivals, a.rtpTime ≠ p.rtpTime

instance (schedule : Schedule) (arrivals : List ABuffer) (opened : Option Nat) (passed : List Nat)
    (s : AAVCAssembler) : Decidable (Placed schedule arrivals opened passed s) :=
  inferInstanceAs (Decidable (_ ∧ _))

--
-- What a Step Does
--

namespace AAVCAssembler

/- Units of one time are added; what waited is posted when it is of another time. -/
inductive Adds (time : Nat) (s : AAVCAssembler) : AAVCAssembler → Prop
| none : Adds time s s
| more {units : List ABuffer} (hPending : s.mNALUnits = [] ∨ s.mAccessUnitRTPTime = time)
    (hSome : units ≠ []) (hTimes : ∀ unit ∈ units, unit.rtpTime = time) :
    Adds time s
      { s with
        mAccessUnitRTPTime := time,
        mNALUnits := s.mNALUnits ++ units }
| next {units : List ABuffer} {data : ABuffer} (hPending : s.mNALUnits ≠ [])
    (hOther : s.mAccessUnitRTPTime ≠ time)
    (hData : ∃ unit ∈ s.mNALUnits, data.rtpTime = unit.rtpTime) (hSome : units ≠ [])
    (hTimes : ∀ unit ∈ units, unit.rtpTime = time) :
    Adds time s
      { s with
        mAccessUnitRTPTime := time,
        mNALUnits := units,
        mAccessUnitDamaged := false,
        posted := s.posted ++ [⟨data, s.mAccessUnitDamaged⟩] }

theorem addSingleNALUnit_adds (s : AAVCAssembler) (buffer : ABuffer) :
    ∃ t, s.addSingleNALUnit buffer = .returns t ∧ Adds buffer.rtpTime s t := by
  have hTimes : ∀ unit ∈ [buffer], unit.rtpTime = buffer.rtpTime := by
    intro unit hMem
    rw [List.mem_singleton.mp hMem]
  unfold addSingleNALUnit
  by_cases hSubmit : s.mNALUnits ≠ [] ∧ buffer.rtpTime ≠ s.mAccessUnitRTPTime
  · rw [if_pos hSubmit]
    cases hUnits : s.mNALUnits with
    | nil => exact absurd hUnits hSubmit.1
    | cons first more =>
      rw [submitAccessUnit, hUnits]
      refine ⟨_, rfl, .next hSubmit.1 hSubmit.2.symm ⟨first, ?_, rfl⟩ (List.cons_ne_nil _ _) hTimes⟩
      rw [hUnits]
      exact List.mem_cons_self
  · rw [if_neg hSubmit]
    refine ⟨_, rfl, .more ?_ (List.cons_ne_nil _ _) hTimes⟩
    by_cases hNone : s.mNALUnits = []
    · exact Or.inl hNone
    · right
      by_contra hOther
      exact hSubmit ⟨hNone, fun hSame => hOther hSame.symm⟩

theorem Adds.trans {time : Nat} {s t u : AAVCAssembler} (hFirst : Adds time s t)
    (hSecond : Adds time t u) : Adds time s u := by
  cases hFirst with
  | none => exact hSecond
  | more hPending hSome hTimes =>
    rename_i units
    cases hSecond with
    | none => exact .more hPending hSome hTimes
    | more hPending' hSome' hTimes' =>
      rename_i others
      have hAll : ∀ unit ∈ units ++ others, unit.rtpTime = time := fun unit hMem =>
          (List.mem_append.mp hMem).elim (hTimes unit) (hTimes' unit)
      have hAdds :=
        Adds.more (s := s) hPending (List.append_ne_nil_of_left_ne_nil hSome others) hAll
      rw [← List.append_assoc] at hAdds
      exact hAdds
    | next hPending' hOther hData hSome' hTimes' => exact absurd rfl hOther
  | next hPending hOther hData hSome hTimes =>
    rename_i units data
    cases hSecond with
    | none => exact .next hPending hOther hData hSome hTimes
    | more hPending' hSome' hTimes' =>
      rename_i others
      have hAll : ∀ unit ∈ units ++ others, unit.rtpTime = time := fun unit hMem =>
          (List.mem_append.mp hMem).elim (hTimes unit) (hTimes' unit)
      exact .next hPending hOther hData (List.append_ne_nil_of_left_ne_nil hSome others) hAll
    | next hPending' hOther' hData' hSome' hTimes' => exact absurd rfl hOther'

theorem Adds.expected {time : Nat} {s t : AAVCAssembler} (hAdds : Adds time s t) :
    t.expected = s.expected := by
  cases hAdds with
  | none => rfl
  | more => rfl
  | next => rfl

theorem aggregation_adds (s : AAVCAssembler) (buffer : ABuffer) :
    ∃ success t,
      Reaches
          (fun fuel =>
            s.addSingleTimeAggregationPacket fuel buffer)
          (success, t) ∧
        Adds buffer.rtpTime s t := by
  unfold addSingleTimeAggregationPacket
  by_cases hSmall : buffer.size < 3
  · simp only [if_pos hSmall]
    exact ⟨false, s, .const _, .none⟩
  simp only [if_neg hSmall]
  generalize buffer.data.drop 1 = data
  induction hLength : data.length using Nat.strongRecOn generalizing s data with
  | ind n ih =>
    rcases data with _ | ⟨high, _ | ⟨low, data⟩⟩
    · exact ⟨true, s, .loop_end (.const _), .none⟩
    · exact ⟨true, s, .loop_end (.const _), .none⟩
    let nalSize := high.toNat * 256 + low.toNat
    let unit := ABuffer.CopyTimes (data.take nalSize) buffer
    by_cases hCut : data.length < nalSize
    · refine ⟨false, s, .loop_end (.of_eq ?_), .none⟩
      intro fuel
      exact if_pos hCut
    rcases addSingleNALUnit_adds s unit with ⟨t, hUnit, hAdds⟩
    have hTurn :
        aggregationTurn buffer (s, high :: low :: data) =
          .returns (.inl (t, data.drop nalSize)) := by
      refine (if_neg hCut).trans ?_
      rw [hUnit]
      rfl
    have hLess : (data.drop nalSize).length < (high :: low :: data).length := by
      rw [List.length_drop, List.length_cons, List.length_cons]
      omega
    rcases ih _ (by omega) t (data.drop nalSize) rfl with ⟨success, final, hRest, hFinal⟩
    exact ⟨success, final, .loop_turn (.of_eq (fun _ => hTurn)) hRest, hAdds.trans hFinal⟩

/- The number that is expected does not matter. -/
theorem Adds.of_expected {time : Nat} {s t : AAVCAssembler} {expected : Expected}
    (hAdds : Adds time { s with expected := expected } t) :
    ∃ u, Adds time s u ∧ t = { u with expected := expected } := by
  cases hAdds with
  | none => exact ⟨s, .none, rfl⟩
  | more hPending hSome hTimes => exact ⟨_, .more hPending hSome hTimes, rfl⟩
  | next hPending hOther hData hSome hTimes =>
    exact ⟨_, .next hPending hOther hData hSome hTimes, rfl⟩

/- The packets behind the first fragment, up to the last one. -/
theorem scanFragments_end {indicator : Byte} {nalType expected count expected' count' : Nat}
    {queue : List ABuffer}
    (hScan :
      scanFragments indicator nalType expected count queue = .complete expected' count' ∨
        ∃ e,
          expected' = increment e ∧
            scanFragments indicator nalType expected count queue = .malformed e count') :
    ∃ last ∈ queue, expected' = increment last.int32Data := by
  induction queue generalizing expected count with
  | nil =>
    rcases hScan with hScan | ⟨e, -, hScan⟩
    · cases hScan
    · cases hScan
  | cons buffer queue ih =>
    have hLater :
        (∃ last ∈ queue, expected' = increment last.int32Data) →
          ∃ last ∈ buffer :: queue, expected' = increment last.int32Data := by
      rintro ⟨last, hMem, hSame⟩
      exact ⟨last, List.mem_cons_of_mem _ hMem, hSame⟩
    unfold scanFragments at hScan
    by_cases hWrong : buffer.int32Data ≠ expected
    · simp only [if_pos hWrong, reduceCtorEq, and_false, exists_false, or_false] at hScan
    · have hNumber := not_not.mp hWrong
      simp only [if_neg hWrong] at hScan
      split at hScan
      · split at hScan
        · rcases hScan with hScan | ⟨e, hE, hScan⟩
          · cases hScan
          · cases hScan
            exact ⟨buffer, List.mem_cons_self, by rw [hE, hNumber]⟩
        · split at hScan
          · rcases hScan with hScan | ⟨e, hE, hScan⟩
            · cases hScan
              exact ⟨buffer, List.mem_cons_self, by rw [hNumber]⟩
            · cases hScan
          · exact hLater (ih hScan)
      · rcases hScan with hScan | ⟨e, hE, hScan⟩
        · cases hScan
        · cases hScan
          exact ⟨buffer, List.mem_cons_self, by rw [hE, hNumber]⟩

/-
  A packet stays where it is, or the packets up to some last one are passed, with units of the time
  of the first.
-/
inductive Handles (s : AAVCAssembler) (buffer : ABuffer) (rest : List ABuffer) :
    AssemblyStatus × AAVCAssembler × List ABuffer → Prop
| waits {status : AssemblyStatus}
    (hStatus : status = .WRONG_SEQUENCE_NUMBER ∨ status = .NOT_ENOUGH_DATA) :
    Handles s buffer rest (status, s, buffer :: rest)
| passes {status : AssemblyStatus} {t : AAVCAssembler} {last : ABuffer} {count : Nat}
    (hStatus : status = .OK ∨ status = .MALFORMED_PACKET) (hLast : last ∈ buffer :: rest)
    (hAdds : Adds buffer.rtpTime s t) :
    Handles s buffer rest
      (status,
        { t with
          expected := ⟨true, increment last.int32Data⟩ },
        (buffer :: rest).drop count)

variable {s : AAVCAssembler} {buffer : ABuffer} {rest : List ABuffer}

/- Only the packet itself is passed. -/
theorem Handles.one {status : AssemblyStatus} {t : AAVCAssembler}
    (hExpected : s.expected = ⟨true, buffer.int32Data⟩)
    (hStatus : status = .OK ∨ status = .MALFORMED_PACKET) (hAdds : Adds buffer.rtpTime s t) :
    Handles s buffer rest (status, { t with expected := t.expected.next }, rest) := by
  have hNext : t.expected.next = ⟨true, increment buffer.int32Data⟩ := by
    rw [hAdds.expected, hExpected]
    rfl
  rw [hNext]
  have hPasses :
      Handles s buffer rest
        (status,
          { t with
            expected := ⟨true, increment buffer.int32Data⟩ },
          (buffer :: rest).drop 1) :=
    .passes hStatus List.mem_cons_self hAdds
  exact hPasses

theorem addFragmentedNALUnit_handles (rest : List ABuffer) {data0 : Byte} {data : List Byte}
    (hExpected : s.expected = ⟨true, buffer.int32Data⟩) (hData : buffer.data = data0 :: data)
    (hType : data0.toNat % 32 = 28) :
    ∃ next, s.addFragmentedNALUnit buffer rest = .returns next ∧ Handles s buffer rest next := by
  rcases data with _ | ⟨data1, data⟩
  · rw [addFragmentedNALUnit, hData]
    simp only [Result.check, if_pos hType]
    exact ⟨_, rfl, .one hExpected (.inr rfl) .none⟩
  rw [addFragmentedNALUnit, hData]
  simp only [Result.check, if_pos hType]
  by_cases hStart : data1.toNat / 128 = 0
  · rw [if_pos hStart]
    exact ⟨_, rfl, .one hExpected (.inr rfl) .none⟩
  rw [if_neg hStart]
  generalize hScan :
    (if data1.toNat / 64 % 2 = 1 then FragmentScan.complete (increment buffer.int32Data) 1
    else scanFragments data0 (data1.toNat % 32) (increment buffer.int32Data) 1 rest) = scan
  cases scan with
  | wrongSequence => exact ⟨_, rfl, .waits (.inl rfl)⟩
  | incomplete => exact ⟨_, rfl, .waits (.inr rfl)⟩
  | malformed expected count =>
    have hLast : ∃ last ∈ rest, increment expected = increment last.int32Data := by
      split at hScan
      · cases hScan
      · exact scanFragments_end (.inr ⟨expected, rfl, hScan⟩)
    rcases hLast with ⟨last, hMem, hSame⟩
    simp only
    rw [hExpected, hSame]
    exact ⟨_, rfl, .passes (.inr rfl) (List.mem_cons_of_mem _ hMem) .none⟩
  | complete expected count =>
    have hLast : ∃ last ∈ buffer :: rest, expected = increment last.int32Data := by
      split at hScan
      · cases hScan
        exact ⟨buffer, List.mem_cons_self, rfl⟩
      · rcases scanFragments_end (.inl hScan) with ⟨last, hMem, hSame⟩
        exact ⟨last, List.mem_cons_of_mem _ hMem, hSame⟩
    rcases hLast with ⟨last, hMem, hSame⟩
    simp only
    rcases addSingleNALUnit_adds
      { s with
        expected := { s.expected with mNextExpectedSeqNo := expected } }
      (ABuffer.CopyTimes
        (BitVec.ofNat 8 (data0.toNat / 32 % 4 * 32 + data1.toNat % 32) ::
          ((buffer :: rest).take count).flatMap (fun piece => piece.data.drop 2)) buffer) with
      ⟨t, hUnit, hAdds⟩
    rw [hUnit]
    rcases hAdds.of_expected with ⟨u, hUnits, rfl⟩
    rw [hExpected, hSame]
    exact ⟨_, rfl, .passes (.inl rfl) hMem hUnits⟩

/- By the kind of the packet. -/
theorem addPacket_handles (rest : List ABuffer)
    (hExpected : s.expected = ⟨true, buffer.int32Data⟩) :
    ∃ next,
      Reaches (fun fuel => s.addPacket fuel buffer rest) next ∧ Handles s buffer rest next := by
  unfold addPacket
  cases hData : buffer.data with
  | nil => exact ⟨_, .const _, .one hExpected (.inr rfl) .none⟩
  | cons data0 data =>
    simp only
    by_cases hCorrupt : data0.toNat / 128 = 1
    · simp only [if_pos hCorrupt]
      exact ⟨_, .const _, .one hExpected (.inr rfl) .none⟩
    simp only [if_neg hCorrupt]
    by_cases hSingle : 1 ≤ data0.toNat % 32 ∧ data0.toNat % 32 ≤ 23
    · simp only [if_pos hSingle]
      rcases addSingleNALUnit_adds s buffer with ⟨t, hUnit, hAdds⟩
      rw [hUnit]
      exact ⟨_, .const _, .one hExpected (.inl rfl) hAdds⟩
    simp only [if_neg hSingle]
    by_cases hFragment : data0.toNat % 32 = 28
    · simp only [if_pos hFragment]
      rcases addFragmentedNALUnit_handles rest hExpected hData hFragment with
        ⟨final, hStep, hHandles⟩
      exact ⟨final, .of_eq (fun _ => hStep), hHandles⟩
    simp only [if_neg hFragment]
    by_cases hAggregation : data0.toNat % 32 = 24
    · simp only [if_pos hAggregation]
      rcases aggregation_adds s buffer with ⟨success, t, hUnits, hAdds⟩
      refine ⟨_, hUnits.bind (.const _), .one hExpected ?_ hAdds⟩
      cases success with
      | true => exact .inl rfl
      | false => exact .inr rfl
    simp only [if_neg hAggregation]
    by_cases hZero : data0.toNat % 32 = 0
    · simp only [if_pos hZero]
      exact ⟨_, .const _, .one hExpected (.inl rfl) .none⟩
    · simp only [if_neg hZero]
      exact ⟨_, .const _, .one hExpected (.inr rfl) .none⟩

end AAVCAssembler

--
-- Fair Logs
--

/- A packet of another time came behind this one. -/
def Over (schedule : Schedule) (p : ABuffer) (expected : Nat) : Prop :=
  ∃ q ∈ schedule.packets, p.int32Data < q.int32Data ∧ q.int32Data ≤ expected ∧ q.rtpTime ≠ p.rtpTime

/- What a missing packet may still do harm to: nothing, or the units that wait to be posted. -/
def Settled (schedule : Schedule) (arrivals : List ABuffer) (s : AAVCAssembler) (expected : Nat)
    (p : ABuffer) : Prop :=
  (∀ a ∈ arrivals, a.rtpTime ≠ p.rtpTime) ∨
    Over schedule p expected ∨
      (s.mNALUnits = [] ∧ s.mAccessUnitDamaged = true) ∨
        (s.mNALUnits ≠ [] ∧ s.mAccessUnitRTPTime = p.rtpTime)

/- `expected` is the number that is expected next. -/
structure Fair (schedule : Schedule) (arrivals : List ABuffer) (s : AAVCAssembler) (expected : Nat)
    (log : Log) : Prop where
  times : ∀ unit ∈ s.mNALUnits, unit.rtpTime = s.mAccessUnitRTPTime
  passed : ∀ n, log.Missing n → n < expected
  pending :
    s.mNALUnits ≠ [] →
      ∃ q ∈ schedule.packets, q.rtpTime = s.mAccessUnitRTPTime ∧ q.int32Data ≤ expected
  posted :
    ∀ a ∈ s.posted,
      ∃ p ∈ schedule.packets, ∃ q ∈ schedule.packets,
        p.rtpTime = a.buffer.rtpTime ∧
          q.rtpTime ≠ a.buffer.rtpTime ∧ p.int32Data < q.int32Data ∧ q.int32Data ≤ expected
  sound :
    ∀ a ∈ s.posted, ∀ p ∈ schedule.packets,
      p.rtpTime = a.buffer.rtpTime → log.Missing p.int32Data → a.damaged = true
  owed :
    s.mNALUnits ≠ [] → ∀ p ∈ schedule.packets,
      p.rtpTime = s.mAccessUnitRTPTime → log.Missing p.int32Data → s.mAccessUnitDamaged = true
  settled : ∀ p ∈ schedule.packets, log.Missing p.int32Data → Settled schedule arrivals s expected p

variable {schedule : Schedule} {arrivals : List ABuffer} {s t : AAVCAssembler} {expected : Nat}
variable {log : Log}

theorem Schedule.time_eq {p q : ABuffer} (hp : p ∈ schedule.packets) (hq : q ∈ schedule.packets)
    (hSame : p.int32Data = q.int32Data) : p.rtpTime = q.rtpTime := by
  rw [eq_of_sorted schedule.sorted hp hq hSame]

/- No packet of its time comes once a packet is over. -/
theorem Over.ne {p r : ABuffer} (hp : p ∈ schedule.packets) (hr : r ∈ schedule.packets)
    (hOver : Over schedule p expected) (hLater : expected ≤ r.int32Data) :
    r.rtpTime ≠ p.rtpTime := by
  rcases hOver with ⟨q, hq, hLess, hLe, hOther⟩
  intro hSame
  rcases Nat.eq_or_lt_of_le (Nat.le_trans hLe hLater) with
    hAt | hBefore
  · rw [schedule.time_eq hq hr hAt] at hOther
    exact hOther hSame
  · exact hOther (schedule.blocks p hp q hq r hr hLess hBefore hSame.symm)

theorem Over.mono {p : ABuffer} {later : Nat} (hOver : Over schedule p expected)
    (hLe : expected ≤ later) : Over schedule p later := by
  rcases hOver with ⟨q, hq, hLess, hUpTo, hOther⟩
  exact ⟨q, hq, hLess, Nat.le_trans hUpTo hLe, hOther⟩

theorem Settled.mono {p : ABuffer} {later : Nat} (hSettled : Settled schedule arrivals s expected p)
    (hLe : expected ≤ later) : Settled schedule arrivals s later p := by
  rcases hSettled with hNever | hOver | hRest
  · exact .inl hNever
  · exact .inr (.inl (hOver.mono hLe))
  · exact .inr (.inr hRest)

/- The packet that is expected next is of a schedule. -/
structure Comes (schedule : Schedule) (arrivals : List ABuffer) (packet : ABuffer) : Prop where
  sent : packet ∈ schedule.packets
  arrives : ∃ a ∈ arrivals, a.rtpTime = packet.rtpTime

/-
  When units of the expected packet's time are added, a missing packet of that time has set the
  flag.
-/
theorem Fair.owes (hFair : Fair schedule arrivals s expected log) {packet p : ABuffer}
    (hComes : Comes schedule arrivals packet) (hNumber : packet.int32Data = expected)
    (hp : p ∈ schedule.packets) (hSame : p.rtpTime = packet.rtpTime)
    (hMissing : log.Missing p.int32Data) :
    (s.mNALUnits = [] ∧ s.mAccessUnitDamaged = true) ∨
      (s.mNALUnits ≠ [] ∧ s.mAccessUnitRTPTime = packet.rtpTime) := by
  rcases hFair.settled p hp hMissing with
    hNever | hOver | hRest
  · rcases hComes.arrives with ⟨a, hMem, hTime⟩
    exact absurd (hTime.trans hSame.symm) (hNever a hMem)
  · exact absurd hSame.symm (hOver.ne hp hComes.sent (Nat.le_of_eq hNumber.symm))
  · rw [← hSame]
    exact hRest

/- A packet of the expected time follows, or of another one. -/
theorem Fair.settled_by (hFair : Fair schedule arrivals s expected log) {packet p : ABuffer}
    (hComes : Comes schedule arrivals packet) (hNumber : packet.int32Data = expected)
    (hMissing : log.Missing p.int32Data) (hUnits : t.mNALUnits ≠ [])
    (hTime : t.mAccessUnitRTPTime = packet.rtpTime) : Settled schedule arrivals t expected p := by
  by_cases hSame : packet.rtpTime = p.rtpTime
  · exact .inr (.inr (.inr ⟨hUnits, hTime.trans hSame⟩))
  · refine .inr (.inl ⟨packet, hComes.sent, ?_, Nat.le_of_eq hNumber, hSame⟩)
    rw [hNumber]
    exact hFair.passed _ hMissing

theorem Fair.adds (hFair : Fair schedule arrivals s expected log) {packet : ABuffer}
    (hComes : Comes schedule arrivals packet) (hNumber : packet.int32Data = expected)
    (hAdds : AAVCAssembler.Adds packet.rtpTime s t) : Fair schedule arrivals t expected log := by
  cases hAdds with
  | none => exact hFair
  | more hPending hSome hTimes =>
    rename_i units
    have hUnits : s.mNALUnits ++ units ≠ [] := List.append_ne_nil_of_right_ne_nil _ hSome
    refine ⟨?_, hFair.passed, ?_, hFair.posted, hFair.sound, ?_, ?_⟩
    · intro unit hMem
      rcases List.mem_append.mp hMem with hOld | hNew
      · rw [hFair.times unit hOld]
        exact hPending.resolve_left (List.ne_nil_of_mem hOld)
      · exact hTimes unit hNew
    · intro _
      exact ⟨packet, hComes.sent, rfl, Nat.le_of_eq hNumber⟩
    · intro _ p hp hSame hMissing
      rcases hFair.owes hComes hNumber hp hSame hMissing with
        hFlag | ⟨hSome', hTime⟩
      · exact hFlag.2
      · exact hFair.owed hSome' p hp (hSame.trans hTime.symm) hMissing
    · intro p hp hMissing
      exact hFair.settled_by hComes hNumber hMissing hUnits
        rfl
  | next hPending hOther hData hSome hTimes =>
    rename_i units data
    rcases hData with ⟨unit, hUnit, hData⟩
    have hTime : data.rtpTime = s.mAccessUnitRTPTime := hData.trans (hFair.times unit hUnit)
    refine ⟨hTimes, hFair.passed, ?_, ?_, ?_, ?_, ?_⟩
    · intro _
      exact ⟨packet, hComes.sent, rfl, Nat.le_of_eq hNumber⟩
    · intro a hMem
      rcases List.mem_append.mp hMem with hOld | hNew
      · exact hFair.posted a hOld
      · rw [List.mem_singleton.mp hNew]
        rcases hFair.pending hPending with ⟨q, hq, hSame, hLe⟩
        refine ⟨q, hq, packet, hComes.sent, ?_, ?_, ?_, Nat.le_of_eq hNumber⟩
        · exact hSame.trans hTime.symm
        · simp only
          rw [hTime]
          exact hOther.symm
        · rw [hNumber]
          rcases Nat.eq_or_lt_of_le hLe with hAt | hBefore
          · rw [← hNumber] at hAt
            have hEqual := schedule.time_eq hq hComes.sent hAt
            exact absurd (hSame.symm.trans hEqual) hOther
          · exact hBefore
    · intro a hMem p hp hSame hMissing
      rcases List.mem_append.mp hMem with hOld | hNew
      · exact hFair.sound a hOld p hp hSame hMissing
      · rw [List.mem_singleton.mp hNew] at hSame ⊢
        exact hFair.owed hPending p hp (hSame.trans hTime) hMissing
    · intro _ p hp hSame hMissing
      rcases hFair.owes hComes hNumber hp hSame hMissing with ⟨hNone, -⟩ | ⟨-, hAgain⟩
      · exact absurd hNone hPending
      · exact absurd hAgain hOther
    · intro p hp hMissing
      exact hFair.settled_by hComes hNumber hMissing hSome
        rfl

/- Packets are passed, and none of them is given up. -/
theorem Fair.passes (hFair : Fair schedule arrivals s expected log) {later : Nat}
    (hLe : expected ≤ later) : Fair schedule arrivals s later log := by
  refine ⟨hFair.times, ?_, ?_, ?_, hFair.sound, hFair.owed,
    fun p hp hMissing => (hFair.settled p hp hMissing).mono hLe⟩
  · intro n hMissing
    exact Nat.lt_of_lt_of_le (hFair.passed n hMissing) hLe
  · intro hSome
    rcases hFair.pending hSome with ⟨q, hq, hSame, hUpTo⟩
    exact ⟨q, hq, hSame, Nat.le_trans hUpTo hLe⟩
  · intro a hMem
    rcases hFair.posted a hMem with ⟨p, hp, q, hq, hSame, hOther, hLess, hUpTo⟩
    exact ⟨p, hp, q, hq, hSame, hOther, hLess, Nat.le_trans hUpTo hLe⟩

end RTP

--
-- Packets Given Up
--

namespace RTP

variable {schedule : Schedule} {arrivals : List ABuffer} {s : AAVCAssembler} {expected : Nat}
variable {log : Log}

theorem Log.record_record (log : Log) (opened : Option Nat) (passed : List Nat) :
    (log.record opened []).record none passed = log.record opened passed := by
  simp [Log.record]

theorem Log.missing_record (log : Log) (passed : List Nat) (n : Nat) :
    (log.record none passed).Missing n ↔ log.Missing n ∨ n ∈ passed := by
  simp only [Log.Missing, Log.record, List.mem_append, Option.or_none]
  exact or_right_comm

/- A packet that is given up marks what waits to be posted. -/
theorem Fair.gives_up (hFair : Fair schedule arrivals s expected log) {passed : List Nat}
    {later : Nat} (hPassed : ∀ n ∈ passed, expected ≤ n ∧ n < later) (hLe : expected ≤ later)
    (hPlaced : Placed schedule arrivals none passed s) :
    Fair schedule arrivals { s with mAccessUnitDamaged := true }
      later (log.record none passed) := by
  have hLater := hFair.passes hLe
  refine ⟨hLater.times, ?_, hLater.pending, hLater.posted, ?_, fun _ _ _ _ _ => rfl, ?_⟩
  · intro n hMissing
    rcases (log.missing_record passed n).mp hMissing with
      hOld | hNew
    · exact hLater.passed n hOld
    · exact (hPassed n hNew).2
  · intro a hMem p hp hSame hMissing
    rcases (log.missing_record passed _).mp hMissing with
      hOld | hNew
    · exact hFair.sound a hMem p hp hSame hOld
    · -- its access unit was posted before its number came
      rcases hFair.posted a hMem with ⟨q, hq, r, hr, hTime, hOther, hLess, hUpTo⟩
      have hOver : Over schedule q expected := ⟨r, hr, hLess, hUpTo, by rw [hTime]; exact hOther⟩
      exact absurd (hSame.trans hTime.symm) (hOver.ne hq hp (hPassed _ hNew).1)
  · intro p hp hMissing
    rcases (log.missing_record passed _).mp hMissing with
      hOld | hNew
    · rcases hLater.settled p hp hOld with
        hNever | hOver | ⟨hNone, -⟩ | hSome
      · exact .inl hNever
      · exact .inr (.inl hOver)
      · exact .inr (.inr (.inl ⟨hNone, rfl⟩))
      · exact .inr (.inr (.inr hSome))
    · by_cases hNone : s.mNALUnits = []
      · exact .inr (.inr (.inl ⟨hNone, rfl⟩))
      · rcases hPlaced.2 p hp hNew with
          hEmpty | hSame | hNever
        · exact absurd hEmpty hNone
        · exact .inr (.inr (.inr ⟨hNone, hSame⟩))
        · exact .inl hNever

/- The first number that is expected. -/
theorem Fair.opens {packet : ABuffer} (hComes : Comes schedule arrivals packet)
    (hUnits : s.mNALUnits = []) (hPosted : s.posted = [])
    (hPlaced : Placed schedule arrivals (some packet.int32Data) [] s) :
    Fair schedule arrivals s packet.int32Data (Log.new.record (some packet.int32Data) []) := by
  have hMissing :
      ∀ n, (Log.new.record (some packet.int32Data) []).Missing n → n < packet.int32Data := by
    rintro n (hGivenUp | ⟨f, hf, hLess⟩)
    · cases hGivenUp
    · cases hf
      exact hLess
  refine ⟨?_, hMissing, ?_, ?_, ?_, ?_, ?_⟩
  · rw [hUnits]
    intro unit hMem
    cases hMem
  · exact fun hSome => absurd hUnits hSome
  · rw [hPosted]
    intro a hMem
    cases hMem
  · rw [hPosted]
    intro a hMem
    cases hMem
  · exact fun hSome => absurd hUnits hSome
  · intro p hp hBefore
    have hLess := hMissing _ hBefore
    exact .inr (.inl ⟨packet, hComes.sent, hLess, Nat.le_refl _,
      (hPlaced.1 _ rfl p hp packet hComes.sent hLess
        rfl).symm⟩)

end RTP

--
-- Calls
--

namespace RTP

variable {schedule : Schedule} {arrivals : List ABuffer} {r next : Receiver}
variable {status : AssemblyStatus} {log : Log}

/- What a call does with the front of its queue. -/
theorem assembles_cases (hMore : r.Assembles status next) :
    (∃ rest,
        front r.assembler.expected r.queue = .stop status rest ∧
          next = ⟨r.assembler, rest⟩) ∨
      ∃ buffer rest t,
        front r.assembler.expected r.queue = .packet ⟨true, buffer.int32Data⟩ buffer rest ∧
          AAVCAssembler.Handles
              { r.assembler with
                expected := ⟨true, buffer.int32Data⟩ }
              buffer rest (status, t, next.queue) ∧
          next.assembler = if status = .MALFORMED_PACKET then { t with mAccessUnitDamaged := true }
            else t := by
  unfold Receiver.Assembles at hMore
  simp only [AAVCAssembler.assembleMore_eq] at hMore
  cases hFront : front r.assembler.expected r.queue with
  | stop status' rest =>
    rw [hFront] at hMore
    have hEqual := hMore.unique (.const _)
    rcases front_stop hFront with ⟨hStatus, -⟩
    have hOther : status' ≠ .MALFORMED_PACKET := by
      rintro rfl
      rcases hStatus with ⟨hNot, -⟩ | ⟨hNot, -⟩
      · cases hNot
      · cases hNot
    simp only [if_neg hOther, Prod.mk.injEq] at hEqual
    rcases hEqual with ⟨rfl, hAssembler, hQueue⟩
    refine .inl ⟨rest, rfl, ?_⟩
    rw [← hAssembler, ← hQueue]
  | packet expected buffer rest =>
    rw [hFront] at hMore
    have hExpected := (front_packet hFront).1
    subst hExpected
    rcases AAVCAssembler.addPacket_handles rest
        (rfl :
          { r.assembler with
            expected := (⟨true, buffer.int32Data⟩ : Expected)
            }.expected = ⟨true, buffer.int32Data⟩) with
      ⟨⟨status', t, queue⟩, hReaches, hHandles⟩
    have hEqual := hMore.unique (hReaches.bind (.const _))
    simp only [Prod.mk.injEq] at hEqual
    rcases hEqual with ⟨rfl, hAssembler, hQueue⟩
    refine .inr ⟨buffer, rest, t, rfl, ?_, hAssembler⟩
    rw [hQueue]
    exact hHandles

theorem Fair.of_expected {s : AAVCAssembler} {number : Nat}
    (hFair : Fair schedule arrivals s number log) (expected : Expected) :
    Fair schedule arrivals { s with expected := expected }
      number log :=
  ⟨hFair.times, hFair.passed, hFair.pending, hFair.posted, hFair.sound, hFair.owed, hFair.settled⟩

/- The state of a receiver and its log. -/
structure Tracks (schedule : Schedule) (arrivals : List ABuffer) (r : Receiver)
    (log : Log) : Prop where
  sorted : r.queue.Pairwise (fun p q => p.int32Data < q.int32Data)
  arrived : ∀ packet ∈ r.queue, packet ∈ arrivals
  fresh :
    r.assembler.expected.mNextExpectedSeqNoValid = false →
      log = .new ∧ r.assembler.mNALUnits = [] ∧ r.assembler.posted = []
  fair :
    r.assembler.expected.mNextExpectedSeqNoValid = true →
      Fair schedule arrivals r.assembler r.assembler.expected.mNextExpectedSeqNo log

theorem Log.record_nothing (log : Log) : log.record none [] = log := by
  simp [Log.record]

theorem Receiver.opened_of_valid (next : Receiver)
    (hValid : r.assembler.expected.mNextExpectedSeqNoValid = true) : r.opened next = none := by
  rw [Receiver.opened, hValid]
  exact if_neg fun hNot => Bool.noConfusion hNot.1

theorem Schedule.Carries.number_lt (hCarries : schedule.Carries arrivals) {a : ABuffer}
    (hMem : a ∈ arrivals) : a.int32Data + 1 < 2 ^ 32 := by
  rcases hCarries a hMem with ⟨p, hp, hNumber, -⟩
  rw [← hNumber]
  exact schedule.room p hp

/- A call that stops at the front of the queue. -/
theorem Tracks.stops (hTracks : Tracks schedule arrivals r log) {rest : List ABuffer}
    (hFront : front r.assembler.expected r.queue = .stop status rest) :
    Tracks schedule arrivals ⟨r.assembler, rest⟩ log ∧
      status ≠ .MALFORMED_PACKET ∧
        (status = .WRONG_SEQUENCE_NUMBER →
          r.assembler.expected.mNextExpectedSeqNoValid = true ∧
            ∃ a ∈ arrivals, r.assembler.expected.mNextExpectedSeqNo ≤ a.int32Data) := by
  rcases erasePassed_spec r.assembler.expected hTracks.sorted with ⟨hSublist, hFrom, -⟩
  have hKept :
      ∀ rest : List ABuffer,
        rest.Sublist r.queue → Tracks schedule arrivals ⟨r.assembler, rest⟩ log :=
    fun rest hRest =>
      ⟨hTracks.sorted.sublist hRest, fun packet hMem =>
          hTracks.arrived packet (hRest.subset hMem),
        hTracks.fresh, hTracks.fair⟩
  rcases front_cases r.assembler.expected r.queue with
    ⟨-, hEmpty⟩ | ⟨buffer, others, hQueue, ⟨hValid, -, hWrong⟩ | ⟨-, hPacket⟩⟩
  · rw [hEmpty] at hFront
    cases hFront
    exact ⟨hKept [] (List.nil_sublist _), by rintro ⟨⟩, by rintro ⟨⟩⟩
  · rw [hWrong] at hFront
    cases hFront
    rw [hQueue] at hSublist hFrom
    refine ⟨hKept _ hSublist, by rintro ⟨⟩, fun _ => ⟨hValid,
      buffer, ?_, hFrom hValid buffer List.mem_cons_self⟩⟩
    exact hTracks.arrived buffer (hSublist.subset List.mem_cons_self)
  · rw [hPacket] at hFront
    cases hFront

/- The packet that a call finds, and where it begins. -/
theorem Tracks.begins (hTracks : Tracks schedule arrivals r log)
    (hCarries : schedule.Carries arrivals) {buffer : ABuffer} {rest : List ABuffer}
    (hFront : front r.assembler.expected r.queue = .packet ⟨true, buffer.int32Data⟩ buffer rest)
    (hValid :
      next.assembler.expected.mNextExpectedSeqNoValid = true)
    (hPlaced : Placed schedule arrivals (r.opened next) [] r.assembler) :
    (buffer :: rest).Sublist r.queue ∧
      r.start = buffer.int32Data ∧
        ∃ packet,
          Comes schedule arrivals packet ∧ packet.int32Data = buffer.int32Data ∧
            packet.rtpTime = buffer.rtpTime ∧
            Fair schedule arrivals r.assembler buffer.int32Data
              (log.record (r.opened next) []) := by
  rcases front_packet hFront with ⟨-, hQueue, hSame⟩
  rcases erasePassed_spec r.assembler.expected hTracks.sorted with ⟨hSublist, -⟩
  rw [hQueue] at hSublist
  rcases hCarries buffer (hTracks.arrived buffer (hSublist.subset List.mem_cons_self)) with
    ⟨packet, hPacket, hNumber, hTime⟩
  have hComes : Comes schedule arrivals packet :=
    ⟨hPacket, buffer, hTracks.arrived buffer (hSublist.subset List.mem_cons_self), hTime.symm⟩
  cases hOld : r.assembler.expected.mNextExpectedSeqNoValid with
  | true =>
    rw [Receiver.start, if_pos hOld, hSame hOld]
    refine ⟨hSublist, rfl, packet, hComes, hNumber, hTime, ?_⟩
    rw [Receiver.opened_of_valid next hOld, Log.record_nothing, ← hSame hOld]
    exact hTracks.fair hOld
  | false =>
    rcases hTracks.fresh hOld with ⟨rfl, hUnits, hPosted⟩
    have hAll : r.queue = buffer :: rest := by
      rw [erasePassed, hOld] at hQueue
      exact hQueue
    have hStart : r.start = buffer.int32Data := by
      rw [Receiver.start, hOld, hAll]
      rfl
    have hOpened : r.opened next = some buffer.int32Data := by
      rw [Receiver.opened, if_pos ⟨hOld, hValid⟩, hStart]
    refine ⟨hSublist, hStart, packet, hComes, hNumber, hTime, ?_⟩
    rw [hOpened, ← hNumber] at hPlaced ⊢
    exact Fair.opens hComes hUnits hPosted hPlaced

theorem Tracks.moves {s : AAVCAssembler} {rest : List ABuffer} {number : Nat}
    (hTracks : Tracks schedule arrivals r log) {log' : Log}
    (hFair : Fair schedule arrivals s number log') (hRest : rest.Sublist r.queue) :
    Tracks schedule arrivals ⟨{ s with expected := ⟨true, number⟩ }, rest⟩ log' :=
  ⟨hTracks.sorted.sublist hRest, fun packet hMem =>
      hTracks.arrived packet (hRest.subset hMem),
    by rintro ⟨⟩, fun _ => hFair.of_expected _⟩

/- A call keeps the log fair. -/
theorem Tracks.call (hTracks : Tracks schedule arrivals r log)
    (hCarries : schedule.Carries arrivals) (hMore : r.Assembles status next)
    (hPlaced : Placed schedule arrivals (r.opened next) (r.malformed next status) next.assembler) :
    Tracks schedule arrivals next (log.record (r.opened next) (r.malformed next status)) ∧
      (status = .WRONG_SEQUENCE_NUMBER →
        next.assembler.expected.mNextExpectedSeqNoValid = true ∧
          ∃ a ∈ arrivals,
            next.assembler.expected.mNextExpectedSeqNo ≤ a.int32Data) := by
  rcases assembles_cases hMore with ⟨rest, hFront, rfl⟩ | ⟨buffer, rest, t, hFront, hHandles, hNext⟩
  · rcases hTracks.stops hFront with ⟨hKept, hOther, hWrong⟩
    have hOpened : r.opened ⟨r.assembler, rest⟩ = none := by
      unfold Receiver.opened
      refine if_neg fun hNot => ?_
      rw [hNot.1] at hNot
      exact Bool.noConfusion hNot.2
    rw [hOpened, Receiver.malformed, if_neg hOther, Log.record_nothing]
    exact ⟨hKept, hWrong⟩
  · rcases next with ⟨assembler, queue⟩
    simp only at hNext hHandles
    subst hNext
    have hValid :
        (if status = .MALFORMED_PACKET then { t with mAccessUnitDamaged := true }
          else t).expected.mNextExpectedSeqNoValid = true := by
      cases hHandles with
      | waits hStatus => split <;> rfl
      | passes hStatus hLast hAdds => split <;> rfl
    rcases hTracks.begins hCarries hFront hValid ⟨hPlaced.1, fun p hp hNot => by cases hNot⟩ with
      ⟨hSublist, hStart, packet, hComes, hNumber, hTime, hFair⟩
    rw [Receiver.malformed, hStart] at hPlaced ⊢
    cases hHandles with
    | waits hStatus =>
      have hOther : status ≠ .MALFORMED_PACKET := by
        rintro rfl
        rcases hStatus with hNot | hNot
        · cases hNot
        · cases hNot
      simp only [if_neg hOther] at hFair ⊢
      refine ⟨hTracks.moves hFair hSublist, fun _ => ⟨trivial,
        buffer, hTracks.arrived buffer (hSublist.subset List.mem_cons_self), Nat.le_refl _⟩⟩
    | passes hStatus hLast hAdds =>
      rename_i t last count
      have hArrived := hTracks.arrived last (hSublist.subset hLast)
      have hRoom := hCarries.number_lt hArrived
      have hIncrement : increment last.int32Data = last.int32Data + 1 := Nat.mod_eq_of_lt hRoom
      have hFrom : buffer.int32Data ≤ last.int32Data := by
        have hOrder := hTracks.sorted.sublist hSublist
        rcases List.mem_cons.mp hLast with rfl | hLater
        · exact Nat.le_refl _
        · exact Nat.le_of_lt ((List.pairwise_cons.mp hOrder).1 last hLater)
      rw [← hTime] at hAdds
      have hAdded := (hFair.of_expected ⟨true, buffer.int32Data⟩).adds hComes hNumber hAdds
      have hLeft : ((buffer :: rest).drop count).Sublist r.queue :=
        (List.drop_sublist _ _).trans hSublist
      rcases hStatus with rfl | rfl
      · refine ⟨?_, by rintro ⟨⟩⟩
        rw [hIncrement]
        exact hTracks.moves (hAdded.passes (Nat.le_succ_of_le hFrom)) hLeft
      · refine ⟨?_, by rintro ⟨⟩⟩
        simp only [if_pos, hIncrement] at hPlaced ⊢
        rw [← Log.record_record]
        refine
          hTracks.moves
            (hAdded.gives_up ?_ (Nat.le_succ_of_le hFrom) ⟨by rintro _ ⟨⟩, hPlaced.2⟩) hLeft
        intro n hMem
        rw [List.mem_range'_1] at hMem
        omega

/- A packet is given up. -/
theorem Tracks.loses (hTracks : Tracks schedule arrivals r log)
    (hValid : r.assembler.expected.mNextExpectedSeqNoValid = true)
    (hRoom : r.assembler.expected.mNextExpectedSeqNo + 1 < 2 ^ 32) {assembler : AAVCAssembler}
    (hLost : r.assembler.packetLost = .returns assembler)
    (hPlaced : Placed schedule arrivals none [r.assembler.expected.mNextExpectedSeqNo] assembler) :
    Tracks schedule arrivals { r with assembler := assembler }
      (log.record none [r.assembler.expected.mNextExpectedSeqNo]) := by
  have hIncrement :
      increment r.assembler.expected.mNextExpectedSeqNo =
        r.assembler.expected.mNextExpectedSeqNo + 1 :=
    Nat.mod_eq_of_lt hRoom
  rw [AAVCAssembler.packetLost, Expected.packetLost_valid hValid] at hLost
  cases hLost
  have hNext : r.assembler.expected.next = ⟨true, r.assembler.expected.mNextExpectedSeqNo + 1⟩ := by
    rw [← hIncrement, ← hValid]
    rfl
  rw [hNext]
  refine hTracks.moves
    ((hTracks.fair hValid).gives_up ?_ (Nat.le_succ _) hPlaced) (List.Sublist.refl _)
  intro n hMem
  rw [List.mem_singleton.mp hMem]
  omega

end RTP

--
-- Damage
--

namespace RTP

variable {schedule : Schedule} {arrivals : List ABuffer}

theorem Watched.tracks (hCarries : schedule.Carries arrivals) {r : Receiver} {log : Log}
    (hRun : Watched arrivals (Placed schedule arrivals) r log) :
    Tracks schedule arrivals r log := by
  induction hRun with
  | start => exact ⟨.nil, List.forall_mem_nil _, fun _ => ⟨rfl, rfl, rfl⟩, by rintro ⟨⟩⟩
  | arrive packet hRun hArrives ih =>
    refine ⟨queuePacket_sorted ih.sorted, ?_, ih.fresh, ih.fair⟩
    intro packet hMem
    rcases mem_queuePacket hMem with rfl | hOld
    · exact hArrives
    · exact ih.arrived packet hOld
  | assemble hRun hMore hOk ih => exact (ih.call hCarries hMore hOk).1
  | lost hRun hMore hLost hOk ih =>
    rename_i r next log assembler
    have hNothing : r.malformed next .WRONG_SEQUENCE_NUMBER = [] := if_neg (by rintro ⟨⟩)
    have hCall :=
      ih.call hCarries hMore
        ⟨hOk.1, fun p hp hNot => by
          rw [hNothing] at hNot
          cases hNot⟩
    rw [hNothing] at hCall
    rcases hCall.2 rfl with ⟨hValid, a, hMem, hLe⟩
    have hRoom := hCarries.number_lt hMem
    rw [← Log.record_record]
    exact hCall.1.loses hValid (by omega) hLost ⟨by rintro _ ⟨⟩, hOk.2⟩

/- Four packets with a unit each, at these times. -/
def fourPackets (a b c d : Nat) : List ABuffer :=
  [⟨0, a, [1]⟩, ⟨1, b, [1]⟩, ⟨2, c, [1]⟩, ⟨3, d, [1]⟩]

end RTP

end FrameworksAv
