import FrameworksAv.RTP.Sending
import FrameworksAv.RTP.Steps
import Mathlib.Data.List.Chain

/-
  What an AVC assembler does with the packets of a sender.

  The packet at the front belongs to a carrier. If it is the first one and the others are there, the
  units of the carrier are delivered; otherwise nothing is.

  Main declarations:
    * `MaximalRuns`, `AAVCAssembler.Output`
    * `AAVCAssembler.addSingleNALUnit_output`
    * `AAVCAssembler.aggregation_output`
    * `AAVCAssembler.scanFragments_sent`
-/

--
-- Output
--

namespace FrameworksAv

namespace RTP

/- Units of one time each, with another time in the next. -/
def MaximalRuns (groups : List (Nat × List ABuffer)) : Prop :=
  (∀ group ∈ groups, group.2 ≠ [] ∧ ∀ unit ∈ group.2, unit.rtpTime = group.1) ∧
    (groups.map Prod.fst).IsChain (· ≠ ·)

/- An access unit is a group, with a start code for each unit. -/
def Posted (posted : List AccessUnit) (groups : List (Nat × List ABuffer)) : Prop :=
  posted.map (fun a => (a.buffer.rtpTime, a.buffer.data)) =
    groups.map
      (fun group =>
        (group.1, AAVCAssembler.startCoded group.2))

/- A unit as it was sent. -/
def sentUnit (unit : ABuffer) : Nat × List Byte :=
  (unit.rtpTime, unit.data)

namespace AAVCAssembler

/- The group that is not posted yet. -/
def current (s : AAVCAssembler) : List (Nat × List ABuffer) :=
  if s.mNALUnits = [] then []
  else [(s.mAccessUnitRTPTime, s.mNALUnits)]

/- These units were delivered, some of them in access units. -/
structure Output (s : AAVCAssembler) (delivered : List ABuffer)
    (groups : List (Nat × List ABuffer)) : Prop where
  posted : Posted s.posted groups
  runs : MaximalRuns (groups ++ s.current)
  delivered : delivered = groups.flatMap Prod.snd ++ s.mNALUnits
  fresh : s.mNALUnits = [] → groups = []

variable {s t : AAVCAssembler} {delivered : List ABuffer} {groups : List (Nat × List ABuffer)}

theorem new_output : Output new [] [] :=
  ⟨rfl, ⟨fun _ hMember => absurd hMember List.not_mem_nil, .nil⟩, rfl, fun _ => rfl⟩

/- The other fields do not matter. -/
theorem Output.congr (hOutput : Output s delivered groups) (hPosted : t.posted = s.posted)
    (hTime : t.mAccessUnitRTPTime = s.mAccessUnitRTPTime) (hUnits : t.mNALUnits = s.mNALUnits) :
    Output t delivered groups := by
  have hCurrent : t.current = s.current := by
    rw [current, current, hTime, hUnits]
  refine ⟨?_, ?_, ?_, ?_⟩
  · rw [hPosted]
    exact hOutput.posted
  · rw [hCurrent]
    exact hOutput.runs
  · rw [hUnits]
    exact hOutput.delivered
  · rw [hUnits]
    exact hOutput.fresh

/- A unit of the time of the last group. -/
theorem maximalRuns_extend {time : Nat} {units : List ABuffer} {unit : ABuffer}
    (hRuns : MaximalRuns (groups ++ [(time, units)])) (hTime : unit.rtpTime = time) :
    MaximalRuns (groups ++ [(time, units ++ [unit])]) := by
  refine ⟨?_, ?_⟩
  · intro group hMember
    rcases List.mem_append.mp hMember with hOld | hLast
    · exact hRuns.1 group (List.mem_append_left _ hOld)
    · rw [List.mem_singleton] at hLast
      subst hLast
      have hUnits :=
        (hRuns.1 (time, units) (List.mem_append_right _ (List.mem_singleton.mpr rfl))).2
      refine ⟨by simp, ?_⟩
      intro other hOther
      rcases List.mem_append.mp hOther with hOther | hNew
      · exact hUnits other hOther
      · rw [List.mem_singleton] at hNew
        rw [hNew]
        exact hTime
  · have hChain := hRuns.2
    rw [List.map_append] at hChain ⊢
    exact hChain

/- A unit of another time is the first one of a group. -/
theorem maximalRuns_next {time : Nat} {units : List ABuffer} {unit : ABuffer}
    (hRuns : MaximalRuns (groups ++ [(time, units)])) (hTime : unit.rtpTime ≠ time) :
    MaximalRuns (groups ++ [(time, units)] ++ [(unit.rtpTime, [unit])]) := by
  refine ⟨?_, ?_⟩
  · intro group hMember
    rcases List.mem_append.mp hMember with hOld | hLast
    · exact hRuns.1 group hOld
    · rw [List.mem_singleton] at hLast
      subst hLast
      refine ⟨List.cons_ne_nil _ _, ?_⟩
      intro other hOther
      rw [List.mem_singleton.mp hOther]
  · have hChain := hRuns.2
    rw [List.map_append, List.isChain_append]
    refine ⟨hChain, .singleton _, ?_⟩
    intro x hx y hy
    simp only [List.map_append, List.map_cons, List.map_nil,
      List.getLast?_append, List.getLast?_singleton,
      Option.some_or, Option.mem_def, Option.some.injEq, List.head?_cons] at hx hy
    rw [← hx, ← hy]
    exact hTime.symm

/- A unit is delivered. -/
theorem addSingleNALUnit_output (hOutput : Output s delivered groups) (unit : ABuffer) :
    ∃ t groups,
      s.addSingleNALUnit unit = .returns t ∧ t.expected = s.expected ∧
        Output t (delivered ++ [unit]) groups := by
  unfold addSingleNALUnit
  cases hUnits : s.mNALUnits with
  | nil =>
    rw [if_neg (fun hBoth => hBoth.1 rfl)]
    have hNone := hOutput.fresh hUnits
    have hDelivered := hOutput.delivered
    rw [hNone, hUnits] at hDelivered
    have hPosted := hOutput.posted
    rw [hNone] at hPosted
    refine ⟨_, [], rfl, rfl, hPosted, ?_, ?_, fun _ => rfl⟩
    · simp only [current, hUnits, List.nil_append]
      exact ⟨by simp, .singleton _⟩
    · rw [hDelivered, hUnits]
      rfl
  | cons first more =>
    have hSome : s.mNALUnits ≠ [] := by
      rw [hUnits]
      exact List.cons_ne_nil _ _
    have hCurrent : s.current = [(s.mAccessUnitRTPTime, s.mNALUnits)] := if_neg hSome
    have hRuns := hOutput.runs
    rw [hCurrent] at hRuns
    by_cases hTime : unit.rtpTime = s.mAccessUnitRTPTime
    · rw [if_neg (fun hBoth => hBoth.2 hTime)]
      refine ⟨_, groups, rfl, rfl, hOutput.posted, ?_, ?_, ?_⟩
      · have hExtended := maximalRuns_extend hRuns hTime
        have hNext : s.mNALUnits ++ [unit] ≠ [] := by simp
        simp only [current, if_neg hNext, hTime]
        exact hExtended
      · rw [hOutput.delivered, List.append_assoc]
      · simp
    · rw [if_pos ⟨List.cons_ne_nil _ _, hTime⟩, submitAccessUnit, hUnits]
      have hFirst : first.rtpTime = s.mAccessUnitRTPTime := by
        refine (hRuns.1 (s.mAccessUnitRTPTime, s.mNALUnits)
          (List.mem_append_right _ (List.mem_singleton.mpr rfl))).2 first ?_
        rw [hUnits]
        exact List.mem_cons_self
      refine ⟨_, groups ++ [(s.mAccessUnitRTPTime, s.mNALUnits)], rfl,
        rfl, ?_, ?_, ?_, ?_⟩
      · have hPosted := hOutput.posted
        unfold Posted at hPosted ⊢
        simp only [List.map_append, hPosted, List.map_cons,
          List.map_nil, ABuffer.CopyTimes, hFirst, hUnits]
      · exact maximalRuns_next hRuns hTime
      · simp only [hOutput.delivered, hUnits, List.flatMap_append, List.flatMap_cons,
          List.flatMap_nil, List.append_nil, List.nil_append]
      · simp

end AAVCAssembler

--
-- Aggregation Packets
--

/- A length below 2^16 is read from its two bytes. -/
theorem lengthBytes_value {n : Nat} (hShort : n < 2 ^ 16) :
    (BitVec.ofNat 8 (n / 256)).toNat * 256 + (BitVec.ofNat 8 n).toNat = n := by
  simp only [BitVec.toNat_ofNat]
  omega

namespace AAVCAssembler

variable {s : AAVCAssembler} {delivered : List ABuffer} {groups : List (Nat × List ABuffer)}

theorem aggregationTurn_unit {t : AAVCAssembler} {buffer : ABuffer} (unit : AggregatedUnit)
    (rest : List Byte)
    (hUnit : s.addSingleNALUnit (ABuffer.CopyTimes unit.val.data buffer) = .returns t) :
    aggregationTurn buffer (s, Carrier.aggregated unit ++ rest) = .returns (.inl (t, rest)) := by
  have hValue := lengthBytes_value unit.property
  have hShape :
      Carrier.aggregated unit ++ rest =
        BitVec.ofNat 8 (unit.val.data.length / 256) ::
          BitVec.ofNat 8 unit.val.data.length :: (unit.val.data ++ rest) :=
    rfl
  have hRoom : ¬(unit.val.data ++ rest).length < unit.val.data.length := by
    rw [List.length_append]
    omega
  rw [hShape, aggregationTurn]
  simp only [hValue, if_neg hRoom, List.take_left, List.drop_left]
  rw [hUnit]
  rfl

/- By the units of the packet. -/
theorem aggregation_output (units : List AggregatedUnit) (buffer : ABuffer)
    (hOutput : Output s delivered groups) :
    ∃ t new groups,
      Reaches
          (fun fuel =>
            Result.loop (fun _ => aggregationTurn buffer) fuel
              (s, units.flatMap Carrier.aggregated))
          (true, t) ∧
        t.expected = s.expected ∧ Output t (delivered ++ new) groups ∧
        new.map sentUnit = units.map (fun unit => (buffer.rtpTime, unit.val.data)) := by
  induction units generalizing s delivered groups with
  | nil =>
    refine ⟨s, [], groups, .loop_end (.const _), rfl, ?_, rfl⟩
    rw [List.append_nil]
    exact hOutput
  | cons unit units ih =>
    rcases addSingleNALUnit_output hOutput (ABuffer.CopyTimes unit.val.data buffer) with
      ⟨t, groups', hUnit, hSame, hNext⟩
    rcases ih hNext with ⟨final, new, groups'', hRest, hSame', hFinal, hNew⟩
    have hTurn := aggregationTurn_unit unit (units.flatMap Carrier.aggregated) hUnit
    refine ⟨final, ABuffer.CopyTimes unit.val.data buffer :: new, groups'',
      .loop_turn (.of_eq (fun _ => hTurn)) hRest, hSame'.trans hSame, ?_, ?_⟩
    · rw [List.append_assoc] at hFinal
      exact hFinal
    · rw [List.map_cons, hNew, List.map_cons]
      rfl

end AAVCAssembler

--
-- Fragments
--

namespace NALUnit

variable (unit : NALUnit)

theorem indicator_value : (BitVec.ofNat 8 (unit.nri * 32 + 28)).toNat = unit.nri * 32 + 28 := by
  have hForbidden := unit.forbidden
  simp only [BitVec.toNat_ofNat, nri]
  omega

theorem fragmentHeader_value {bit : Nat} (hBit : bit ≤ 128) :
    (BitVec.ofNat 8 (bit + unit.nalType)).toNat = bit + unit.nalType := by
  simp only [BitVec.toNat_ofNat, nalType]
  omega

/- The header is put together again. -/
theorem header_rebuilt : BitVec.ofNat 8 (unit.nri * 32 + unit.nalType) = unit.header := by
  have hSum : unit.nri * 32 + unit.nalType = unit.header.toNat := by
    unfold nri nalType
    omega
  rw [hSum, BitVec.ofNat_toNat, BitVec.setWidth_eq]

end NALUnit

namespace AAVCAssembler

variable {unit : NALUnit} {time seqNo count : Nat} {last : List Byte}

theorem scanFragments_middle (piece : List Byte) (rest : List ABuffer) :
    scanFragments (BitVec.ofNat 8 (unit.nri * 32 + 28)) unit.nalType seqNo count
        (⟨seqNo, time, unit.fragment 0 piece⟩ :: rest) =
      scanFragments (BitVec.ofNat 8 (unit.nri * 32 + 28))
        unit.nalType (increment seqNo) (count + 1) rest := by
  have hType := unit.type
  have hValue := unit.fragmentHeader_value (Nat.zero_le 128)
  have hSame : unit.nalType = unit.header.toNat % 32 := rfl
  rw [scanFragments, if_neg (not_not.mpr rfl)]
  simp only [NALUnit.fragment, hValue]
  rw [if_neg, if_neg]
  · omega
  · rintro (hNot | hNot | hNot)
    · exact hNot rfl
    · omega
    · omega

theorem scanFragments_last (piece : List Byte) (rest : List ABuffer) :
    scanFragments (BitVec.ofNat 8 (unit.nri * 32 + 28)) unit.nalType seqNo count
        (⟨seqNo, time, unit.fragment 64 piece⟩ :: rest) =
      .complete (increment seqNo) (count + 1) := by
  have hType := unit.type
  have hValue := unit.fragmentHeader_value (by decide : 64 ≤ 128)
  have hSame : unit.nalType = unit.header.toNat % 32 := rfl
  rw [scanFragments, if_neg (not_not.mpr rfl)]
  simp only [NALUnit.fragment, hValue]
  rw [if_neg, if_pos]
  · omega
  · rintro (hNot | hNot | hNot)
    · exact hNot rfl
    · omega
    · omega

theorem increment_eq {n : Nat} (hRoom : n + 1 < 2 ^ 32) : increment n = n + 1 :=
  Nat.mod_eq_of_lt hRoom

/- A packet with another number stands where one is missing. -/
theorem scanFragments_missing {data : List Byte} {rest : List ABuffer}
    (hSorted : rest.Pairwise (fun p q => p.int32Data < q.int32Data))
    (hFrom : ∀ p ∈ rest, seqNo ≤ p.int32Data)
    (hOnly : ∀ p ∈ rest, p.int32Data = seqNo → p = ⟨seqNo, time, data⟩) :
    (∃ tail, rest = ⟨seqNo, time, data⟩ :: tail) ∨
      (⟨seqNo, time, data⟩ : ABuffer) ∉ rest ∧
        (scanFragments (BitVec.ofNat 8 (unit.nri * 32 + 28))
            unit.nalType seqNo count rest = .wrongSequence ∨
          scanFragments (BitVec.ofNat 8 (unit.nri * 32 + 28))
            unit.nalType seqNo count rest = .incomplete) := by
  cases rest with
  | nil => exact .inr ⟨List.not_mem_nil, .inr rfl⟩
  | cons p tail =>
    by_cases hSame : p.int32Data = seqNo
    · refine .inl ⟨tail, ?_⟩
      rw [hOnly p List.mem_cons_self hSame]
    · refine .inr ⟨?_, .inl ?_⟩
      · have hMore := hFrom p List.mem_cons_self
        rw [List.mem_cons]
        rintro (hHead | hTail)
        · exact hSame (congrArg ABuffer.int32Data hHead).symm
        · have hLess := (List.pairwise_cons.mp hSorted).1 _ hTail
          simp only at hLess
          omega
      · rw [scanFragments, if_pos hSame]

/- By the fragments in the middle: the fragments are all found, or one of them is not there. -/
theorem scanFragments_sent (middle : List (List Byte)) {rest : List ABuffer}
    (hRoom : seqNo + (Carrier.laterFragments unit middle last).length < 2 ^ 32)
    (hSorted : rest.Pairwise (fun p q => p.int32Data < q.int32Data))
    (hFrom : ∀ p ∈ rest, seqNo ≤ p.int32Data)
    (hOnly :
      ∀ p ∈ rest,
        ∀ q ∈ numbered time seqNo (Carrier.laterFragments unit middle last),
          p.int32Data = q.int32Data → p = q) :
    (∃ tail,
      rest = numbered time seqNo (Carrier.laterFragments unit middle last) ++ tail ∧
        scanFragments (BitVec.ofNat 8 (unit.nri * 32 + 28)) unit.nalType seqNo count rest =
          .complete (seqNo + (Carrier.laterFragments unit middle last).length)
            (count + (Carrier.laterFragments unit middle last).length)) ∨
      (∃ q ∈ numbered time seqNo (Carrier.laterFragments unit middle last), q ∉ rest) ∧
        (scanFragments (BitVec.ofNat 8 (unit.nri * 32 + 28))
            unit.nalType seqNo count rest = .wrongSequence ∨
          scanFragments (BitVec.ofNat 8 (unit.nri * 32 + 28))
            unit.nalType seqNo count rest = .incomplete) := by
  induction middle generalizing seqNo count rest with
  | nil =>
    have hFragments :
        numbered time seqNo (Carrier.laterFragments unit [] last) =
          [⟨seqNo, time, unit.fragment 64 last⟩] :=
      rfl
    rw [hFragments] at hOnly ⊢
    have hOne :=
      @scanFragments_missing unit time seqNo count (unit.fragment 64 last) rest hSorted hFrom
        (fun p hMember hSame =>
          hOnly p hMember _ List.mem_cons_self hSame)
    rcases hOne with ⟨tail, rfl⟩ | ⟨hMissing, hStops⟩
    · refine .inl ⟨tail, rfl, ?_⟩
      rw [scanFragments_last, increment_eq hRoom]
      rfl
    · exact .inr ⟨⟨_, List.mem_cons_self, hMissing⟩, hStops⟩
  | cons piece middle ih =>
    have hFragments :
        numbered time seqNo (Carrier.laterFragments unit (piece :: middle) last) =
          ⟨seqNo, time, unit.fragment 0 piece⟩ ::
            numbered time (seqNo + 1) (Carrier.laterFragments unit middle last) :=
      rfl
    have hLength :
        (Carrier.laterFragments unit (piece :: middle) last).length =
          (Carrier.laterFragments unit middle last).length + 1 :=
      rfl
    rw [hFragments] at hOnly ⊢
    rw [hLength] at hRoom ⊢
    have hOne :=
      @scanFragments_missing unit time seqNo count (unit.fragment 0 piece) rest hSorted hFrom
        (fun p hMember hSame =>
          hOnly p hMember _ List.mem_cons_self hSame)
    rcases hOne with ⟨tail, rfl⟩ | ⟨hMissing, hStops⟩
    · rcases List.pairwise_cons.mp hSorted with ⟨hLess, hTail⟩
      have hNext :=
        @ih (seqNo + 1) (count + 1) tail (by omega) hTail (fun p hMember => hLess p hMember)
          (fun p hMember q hFragment =>
            hOnly p (List.mem_cons_of_mem _ hMember) q (List.mem_cons_of_mem _ hFragment))
      rw [scanFragments_middle, increment_eq (by omega : seqNo + 1 < 2 ^ 32)]
      rcases hNext with ⟨more, rfl, hScan⟩ | ⟨⟨q, hFragment, hNot⟩, hStops⟩
      · refine .inl ⟨more, rfl, ?_⟩
        rw [hScan]
        congr 1 <;> omega
      · refine .inr ⟨⟨q, List.mem_cons_of_mem _ hFragment, ?_⟩, hStops⟩
        rw [List.mem_cons]
        rintro (rfl | hMember)
        · have hBefore := (numbered_range hFragment).1
          simp only at hBefore
          omega
        · exact hNot hMember
    · exact .inr ⟨⟨_, List.mem_cons_self, hMissing⟩, hStops⟩

end AAVCAssembler

--
-- Packets of a Carrier
--

open AAVCAssembler (Output)

/-
  What became of the packet at the front, of a carrier that begins at some number: the whole carrier
  was delivered, a later fragment was dropped, or a fragment is missing.
-/
inductive Handled (carrier : Carrier) (seqNo : Nat) (s : AAVCAssembler) (delivered : List ABuffer)
    (buffer : ABuffer) (rest : List ABuffer) : AssemblyStatus × AAVCAssembler × List ABuffer → Prop
| delivered {t : AAVCAssembler} {new left : List ABuffer} {groups : List (Nat × List ABuffer)}
    (hFirst : buffer.int32Data = seqNo) (hNext : t.expected = ⟨true, seqNo + carrier.count⟩)
    (hOutput : Output t (delivered ++ new) groups) (hNew : new.map sentUnit = carrier.sent)
    (hLeft : buffer :: rest = carrier.packets seqNo ++ left) :
    Handled carrier seqNo s delivered buffer rest (.OK, t, left)
| dropped {t : AAVCAssembler} {groups : List (Nat × List ABuffer)}
    (hLater : seqNo < buffer.int32Data) (hNext : t.expected = ⟨true, buffer.int32Data + 1⟩)
    (hOutput : Output t delivered groups) :
    Handled carrier seqNo s delivered buffer rest (.MALFORMED_PACKET, t, rest)
| missing {status : AssemblyStatus} {q : ABuffer} (hFirst : buffer.int32Data = seqNo)
    (hStatus : status = .WRONG_SEQUENCE_NUMBER ∨ status = .NOT_ENOUGH_DATA)
    (hSent : q ∈ carrier.packets seqNo) (hMissing : q ∉ buffer :: rest) :
    Handled carrier seqNo s delivered buffer rest (status, s, buffer :: rest)

namespace AAVCAssembler

variable {s : AAVCAssembler} {delivered rest : List ABuffer} {groups : List (Nat × List ABuffer)}
variable {seqNo : Nat}

/- The expected packet is counted. -/
theorem expected_next {n : Nat} (hRoom : n + 1 < 2 ^ 32) :
    Expected.next ⟨true, n⟩ = ⟨true, n + 1⟩ := by
  rw [Expected.next, increment_eq hRoom]

theorem addPacket_single (time : Nat) (unit : NALUnit) (hRoom : seqNo + 1 < 2 ^ 32)
    (hExpected : s.expected = ⟨true, seqNo⟩) (hOutput : Output s delivered groups) :
    ∃ next,
      Reaches
          (fun fuel =>
            s.addPacket fuel ⟨seqNo, time, unit.data⟩ rest)
          next ∧
        Handled (.single time unit) seqNo s delivered ⟨seqNo, time, unit.data⟩ rest next := by
  have hForbidden := unit.forbidden
  rcases addSingleNALUnit_output hOutput ⟨seqNo, time, unit.data⟩ with
    ⟨t, groups', hUnit, hSame, hNext⟩
  refine ⟨(.OK, { t with expected := t.expected.next }, rest),
    .of_eq ?_, ?_⟩
  · intro fuel
    have hNot : ¬unit.header.toNat / 128 = 1 := by omega
    unfold addPacket NALUnit.data at *
    simp only
    rw [if_neg hNot, if_pos unit.type, hUnit]
    rfl
  · refine .delivered rfl ?_ (hNext.congr rfl rfl rfl) rfl rfl
    simp only [hSame, hExpected]
    exact expected_next hRoom

theorem addPacket_aggregate (time : Nat) (nri : Fin 4) (units : List AggregatedUnit)
    (hSome : units ≠ []) (hRoom : seqNo + 1 < 2 ^ 32) (hExpected : s.expected = ⟨true, seqNo⟩)
    (hOutput : Output s delivered groups) :
    ∃ next,
      Reaches
          (fun fuel =>
            s.addPacket fuel
              ⟨seqNo, time,
                BitVec.ofNat 8 (nri.val * 32 + 24) :: units.flatMap Carrier.aggregated⟩ rest)
          next ∧
        Handled (.aggregate time nri units hSome) seqNo s delivered
          ⟨seqNo, time,
            BitVec.ofNat 8 (nri.val * 32 + 24) :: units.flatMap Carrier.aggregated⟩ rest next := by
  have hHeader : (BitVec.ofNat 8 (nri.val * 32 + 24)).toNat = nri.val * 32 + 24 := by
    have hLess := nri.isLt
    simp only [BitVec.toNat_ofNat]
    omega
  rcases aggregation_output units
    ⟨seqNo, time,
      BitVec.ofNat 8 (nri.val * 32 + 24) :: units.flatMap Carrier.aggregated⟩ hOutput with
    ⟨t, new, groups', hUnits, hSame, hNext, hNew⟩
  have hSize :
      ¬(⟨seqNo, time, BitVec.ofNat 8 (nri.val * 32 + 24) :: units.flatMap Carrier.aggregated⟩ :
        ABuffer).size < 3 := by
    cases units with
    | nil => exact absurd rfl hSome
    | cons unit units =>
      simp only [ABuffer.size, List.length_cons, List.flatMap_cons, List.length_append,
        Carrier.aggregated, NALUnit.lengthBytes, List.length_nil]
      omega
  refine ⟨(.OK, { t with expected := t.expected.next }, rest),
    ?_, ?_⟩
  · have hLoop :
        ∀ fuel,
          s.addPacket fuel
              ⟨seqNo, time,
                BitVec.ofNat 8 (nri.val * 32 + 24) :: units.flatMap Carrier.aggregated⟩ rest =
            (Result.loop
              (fun _ =>
                aggregationTurn
                  ⟨seqNo, time,
                    BitVec.ofNat 8 (nri.val * 32 + 24) :: units.flatMap Carrier.aggregated⟩) fuel
              (s, units.flatMap Carrier.aggregated)).bind fun r =>
                  .returns
                    (if r.1 then .OK else .MALFORMED_PACKET,
                      { r.2 with expected := r.2.expected.next },
                      rest) := by
      intro fuel
      unfold addPacket
      simp only [hHeader]
      rw [if_neg (by omega), if_neg (by omega), if_neg (by omega), if_pos (by omega),
        addSingleTimeAggregationPacket, if_neg hSize]
      rfl
    simp only [hLoop]
    exact hUnits.bind (.const _)
  · refine .delivered rfl ?_ (hNext.congr rfl rfl rfl) ?_ rfl
    · simp only [hSame, hExpected]
      exact expected_next hRoom
    · rw [hNew]
      simp [Carrier.sent, Carrier.units, Carrier.time]

/- Fragments come to the function for them. -/
theorem addPacket_fragment {n time : Nat} (unit : NALUnit) (bit : Nat) (piece : List Byte)
    (fuel : Nat) :
    s.addPacket fuel ⟨n, time, unit.fragment bit piece⟩ rest =
      s.addFragmentedNALUnit ⟨n, time, unit.fragment bit piece⟩ rest := by
  have hForbidden := unit.forbidden
  have hIndicator := unit.indicator_value
  have hNri : unit.nri = unit.header.toNat / 32 := rfl
  unfold addPacket
  simp only [NALUnit.fragment, hIndicator]
  rw [if_neg (by omega), if_neg (by omega), if_pos (by omega)]

/- A later fragment without the first one is dropped. -/
theorem addPacket_laterFragment {n time bit : Nat} {carrier : Carrier} (unit : NALUnit)
    (piece : List Byte) (hBit : bit ≤ 64) (hLater : seqNo < n) (hRoom : n + 1 < 2 ^ 32)
    (hExpected : s.expected = ⟨true, n⟩) (hOutput : Output s delivered groups) :
    ∃ next,
      Reaches
          (fun fuel =>
            s.addPacket fuel ⟨n, time, unit.fragment bit piece⟩ rest)
          next ∧
        Handled carrier seqNo s delivered ⟨n, time, unit.fragment bit piece⟩ rest next := by
  have hIndicator := unit.indicator_value
  have hType := unit.type
  have hSame : unit.nalType = unit.header.toNat % 32 := rfl
  have hHeader := unit.fragmentHeader_value (by omega : bit ≤ 128)
  refine ⟨(.MALFORMED_PACKET, { s with expected := s.expected.next }, rest),
    .of_eq ?_, .dropped hLater ?_ (hOutput.congr rfl rfl rfl)⟩
  · intro fuel
    rw [addPacket_fragment]
    unfold addFragmentedNALUnit
    simp only [NALUnit.fragment, hIndicator, hHeader]
    rw [Result.check, if_pos (by omega), if_pos (by omega)]
  · simp only [hExpected]
    exact expected_next hRoom

/- What the fragments of a unit hold besides their headers. -/
theorem fragments_pieces (unit : NALUnit) (time n : Nat) (middle : List (List Byte))
    (last : List Byte) :
    (numbered time n
        (Carrier.laterFragments unit middle last)).flatMap (fun piece => piece.data.drop 2) =
      middle.flatten ++ last := by
  induction middle generalizing n with
  | nil => simp [Carrier.laterFragments, numbered, NALUnit.fragment]
  | cons piece middle ih =>
    have hFragments :
        numbered time n (Carrier.laterFragments unit (piece :: middle) last) =
          ⟨n, time, unit.fragment 0 piece⟩ ::
            numbered time (n + 1) (Carrier.laterFragments unit middle last) :=
      rfl
    rw [hFragments, List.flatMap_cons, ih, List.flatten_cons, List.append_assoc]
    rfl

theorem addPacket_firstFragment {time : Nat} (unit : NALUnit) (first : List Byte)
    (middle : List (List Byte)) (last : List Byte)
    (hPieces : unit.payload = first ++ (middle.flatten ++ last))
    (hRoom : seqNo + 1 + (Carrier.laterFragments unit middle last).length < 2 ^ 32)
    (hExpected : s.expected = ⟨true, seqNo⟩) (hOutput : Output s delivered groups)
    (hSorted : rest.Pairwise (fun p q => p.int32Data < q.int32Data))
    (hFrom : ∀ p ∈ rest, seqNo + 1 ≤ p.int32Data)
    (hOnly :
      ∀ p ∈ rest,
        ∀ q ∈ numbered time (seqNo + 1) (Carrier.laterFragments unit middle last),
          p.int32Data = q.int32Data → p = q) :
    ∃ next,
      Reaches
          (fun fuel =>
            s.addPacket fuel ⟨seqNo, time, unit.fragment 128 first⟩ rest)
          next ∧
        Handled (.fragments time unit first middle last hPieces) seqNo
          s delivered ⟨seqNo, time, unit.fragment 128 first⟩ rest next := by
  have hForbidden := unit.forbidden
  have hIndicator := unit.indicator_value
  have hNri : unit.nri = unit.header.toNat / 32 := rfl
  have hType : unit.nalType = unit.header.toNat % 32 := rfl
  have hHeader := unit.fragmentHeader_value (Nat.le_refl 128)
  have hNext : increment seqNo = seqNo + 1 := increment_eq (by omega)
  have hKind : (128 + unit.nalType) % 32 = unit.nalType := by
    omega
  have hRefer : (unit.nri * 32 + 28) / 32 % 4 = unit.nri := by
    omega
  have hScan :=
    @scanFragments_sent unit time (seqNo + 1) 1 last middle rest hRoom hSorted hFrom hOnly
  have hStep :
      ∀ fuel,
        s.addPacket fuel ⟨seqNo, time, unit.fragment 128 first⟩ rest =
          s.addFragmentedNALUnit ⟨seqNo, time, unit.fragment 128 first⟩ rest :=
    addPacket_fragment unit 128 first
  simp only [hStep]
  unfold addFragmentedNALUnit
  simp only [NALUnit.fragment, hIndicator, hHeader, hKind, hRefer, hNext, Result.check]
  rw [if_pos (by omega), if_neg (by omega), if_neg (by omega)]
  rcases hScan with ⟨tail, rfl, hScan⟩ | ⟨⟨q, hSent, hNot⟩, hScan⟩
  · rw [hScan]
    simp only
    generalize hFragments :
      numbered time (seqNo + 1) (Carrier.laterFragments unit middle last) = fragments
    have hLength : fragments.length = (Carrier.laterFragments unit middle last).length := by
      rw [← hFragments, numbered_length]
    have hTake :
        ∀ (buffer : ABuffer),
          (buffer :: (fragments ++ tail)).take
              (1 + (Carrier.laterFragments unit middle last).length) =
            buffer :: fragments := by
      intro buffer
      rw [Nat.add_comm, List.take_succ_cons, ← hLength, List.take_left]
    have hDrop :
        ∀ (buffer : ABuffer),
          (buffer :: (fragments ++ tail)).drop
              (1 + (Carrier.laterFragments unit middle last).length) =
            tail := by
      intro buffer
      rw [Nat.add_comm, List.drop_succ_cons, ← hLength, List.drop_left]
    have hPayload :
        (fragments.flatMap fun piece => piece.data.drop 2) = middle.flatten ++ last := by
      rw [← hFragments]
      exact fragments_pieces unit time (seqNo + 1) middle last
    simp only [hTake, hDrop, List.flatMap_cons, hPayload]
    rcases addSingleNALUnit_output
      (hOutput.congr (t := { s with
        expected :=
          { s.expected with
            mNextExpectedSeqNo :=
              seqNo + 1 + (Carrier.laterFragments unit middle last).length } }) rfl rfl rfl)
      ⟨seqNo, time, unit.data⟩ with ⟨t, groups', hUnit, hSame, hFinal⟩
    have hData :
        unit.data =
          BitVec.ofNat 8 (unit.nri * 32 + unit.nalType) :: (first ++ (middle.flatten ++ last)) := by
      rw [NALUnit.data, unit.header_rebuilt, hPieces]
    refine ⟨(.OK, t, tail), .of_eq (fun fuel => ?_), ?_⟩
    · rw [hData] at hUnit
      exact congrArg
        (fun result =>
          Result.bind result
            (fun s =>
              .returns ((AssemblyStatus.OK, s, tail) :
                AssemblyStatus × AAVCAssembler × List ABuffer))) hUnit
    · refine .delivered rfl ?_ hFinal rfl ?_
      · have hCount :
            (Carrier.fragments time unit first middle last hPieces).count =
              (Carrier.laterFragments unit middle last).length + 1 :=
          rfl
        rw [hSame, hExpected, hCount]
        simp only [Expected.mk.injEq, true_and]
        omega
      · rw [← hFragments]
        rfl
  · have hLaterSent : q ∈ (Carrier.fragments time unit first middle last hPieces).packets seqNo :=
      List.mem_cons_of_mem _ hSent
    have hMissing : q ∉ (⟨seqNo, time, unit.fragment 128 first⟩ : ABuffer) :: rest := by
      rw [List.mem_cons]
      rintro (rfl | hMember)
      · have hBefore := (numbered_range hSent).1
        simp only at hBefore
        omega
      · exact hNot hMember
    rcases hScan with hScan | hScan
    · rw [hScan]
      exact ⟨_, .const _, .missing rfl (.inl rfl) hLaterSent hMissing⟩
    · rw [hScan]
      exact ⟨_, .const _, .missing rfl (.inr rfl) hLaterSent hMissing⟩

/- The fragments behind the first one do not begin a unit. -/
theorem laterFragment_shape {time n : Nat} {unit : NALUnit} {middle : List (List Byte)}
    {last : List Byte} {buffer : ABuffer}
    (hLater : buffer ∈ numbered time n (Carrier.laterFragments unit middle last)) :
    ∃ bit piece, bit ≤ 64 ∧ buffer = ⟨buffer.int32Data, time, unit.fragment bit piece⟩ := by
  induction middle generalizing n with
  | nil =>
    rw [List.mem_singleton.mp hLater]
    exact ⟨64, last, Nat.le_refl 64, rfl⟩
  | cons piece middle ih =>
    rcases List.mem_cons.mp hLater with rfl | hLater
    · exact ⟨0, piece, Nat.zero_le 64, rfl⟩
    · exact ih hLater

/- By the kind of the carrier. -/
theorem addPacket_sent {buffer : ABuffer} (carrier : Carrier)
    (hPacket : buffer ∈ carrier.packets seqNo) (hRoom : seqNo + carrier.count < 2 ^ 32)
    (hExpected : s.expected = ⟨true, buffer.int32Data⟩) (hOutput : Output s delivered groups)
    (hSorted : (buffer :: rest).Pairwise (fun p q => p.int32Data < q.int32Data))
    (hOnly : ∀ p ∈ rest, ∀ q ∈ carrier.packets seqNo, p.int32Data = q.int32Data → p = q) :
    ∃ next,
      Reaches (fun fuel => s.addPacket fuel buffer rest) next ∧
        Handled carrier seqNo s delivered buffer rest next := by
  rcases List.pairwise_cons.mp hSorted with ⟨hLess, hRest⟩
  cases carrier with
  | single time unit =>
    obtain rfl : buffer = ⟨seqNo, time, unit.data⟩ := List.mem_singleton.mp hPacket
    exact addPacket_single time unit hRoom hExpected hOutput
  | aggregate time nri units hSome =>
    obtain rfl :
        buffer =
          ⟨seqNo, time, BitVec.ofNat 8 (nri.val * 32 + 24) :: units.flatMap Carrier.aggregated⟩ :=
      List.mem_singleton.mp hPacket
    exact addPacket_aggregate time nri units hSome hRoom hExpected hOutput
  | fragments time unit first middle last hPieces =>
    have hCount :
        (Carrier.fragments time unit first middle last hPieces).count =
          (Carrier.laterFragments unit middle last).length + 1 :=
      rfl
    rw [hCount] at hRoom
    rcases List.mem_cons.mp hPacket with rfl | hLater
    · exact addPacket_firstFragment unit first middle last
        hPieces (by omega) hExpected hOutput hRest (fun p hMember => hLess p hMember)
        (fun p hMember q hFragment =>
          hOnly p hMember q (List.mem_cons_of_mem _ hFragment))
    · have hRange := numbered_range hLater
      have hShape :
          ∃ bit piece, bit ≤ 64 ∧ buffer = ⟨buffer.int32Data, time, unit.fragment bit piece⟩ := by
        exact laterFragment_shape hLater
      rcases hShape with ⟨bit, piece, hBit, hBuffer⟩
      rw [hBuffer]
      exact addPacket_laterFragment unit piece hBit (by omega) (by omega) hExpected hOutput

end AAVCAssembler

end RTP

end FrameworksAv
