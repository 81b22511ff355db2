import FrameworksAv.RTP.Simple
import FrameworksAv.RTP.Progress

/-
  The assemblers that get over every packet.

  Main declarations:
    * `AAVCAssembler.assembleMore_step`
    * `AAVCAssembler.returns`
    * `Assembler.TakesAll`
    * `AAMRAssembler.takesAll`, `AH263Assembler.takesAll`
-/

--
-- AVC
--

namespace FrameworksAv

namespace RTP

namespace AAVCAssembler

variable {s : AAVCAssembler} {queue : List ABuffer}

theorem addSingleNALUnit_returns (s : AAVCAssembler) (buffer : ABuffer) :
    ∃ t, s.addSingleNALUnit buffer = .returns t ∧ t.expected = s.expected := by
  unfold addSingleNALUnit
  by_cases hSubmit : s.mNALUnits ≠ [] ∧ buffer.rtpTime ≠ s.mAccessUnitRTPTime
  · rw [if_pos hSubmit]
    cases hUnits : s.mNALUnits with
    | nil => exact absurd hUnits hSubmit.1
    | cons first more =>
      rw [submitAccessUnit, hUnits]
      exact ⟨_, rfl, rfl⟩
  · rw [if_neg hSubmit]
    exact ⟨_, rfl, rfl⟩

/- Every turn takes the two bytes of a length. -/
theorem aggregation_returns (s : AAVCAssembler) (buffer : ABuffer) :
    ∃ success t,
      Reaches
          (fun fuel =>
            s.addSingleTimeAggregationPacket fuel buffer)
          (success, t) ∧
        t.expected = s.expected := by
  unfold addSingleTimeAggregationPacket
  by_cases hSmall : buffer.size < 3
  · simp only [if_pos hSmall]
    exact ⟨false, s, .const _, rfl⟩
  simp only [if_neg hSmall]
  generalize buffer.data.drop 1 = data
  induction hLength : data.length using Nat.strongRecOn generalizing s data with
  | ind n ih =>
    rcases data with _ | ⟨high, _ | ⟨low, data⟩⟩
    · exact ⟨true, s, .loop_end (.const _), rfl⟩
    · exact ⟨true, s, .loop_end (.const _), rfl⟩
    let nalSize := high.toNat * 256 + low.toNat
    let unit := ABuffer.CopyTimes (data.take nalSize) buffer
    by_cases hCut : data.length < nalSize
    · refine ⟨false, s, .loop_end (.of_eq ?_), rfl⟩
      intro fuel
      exact if_pos hCut
    rcases addSingleNALUnit_returns s unit with ⟨t, hUnit, hSame⟩
    have hTurn :
        aggregationTurn buffer (s, high :: low :: data) =
          .returns (.inl (t, data.drop nalSize)) := by
      refine (if_neg hCut).trans ?_
      rw [hUnit]
      rfl
    have hLess : (data.drop nalSize).length < (high :: low :: data).length := by
      rw [List.length_drop, List.length_cons, List.length_cons]
      omega
    rcases ih _ (by omega) t (data.drop nalSize) rfl with ⟨success, final, hRest, hFinal⟩
    exact ⟨success, final, .loop_turn (.of_eq (fun _ => hTurn)) hRest, hFinal.trans hSame⟩

theorem scanFragments_complete {indicator : Byte} {nalType expected count expected' count' : Nat}
    (hScan : scanFragments indicator nalType expected count queue = .complete expected' count') :
    count ≤ count' := by
  induction queue generalizing expected count with
  | nil => cases hScan
  | cons buffer queue ih =>
    unfold scanFragments at hScan
    split at hScan
    · cases hScan
    split at hScan
    · split at hScan
      · cases hScan
      split at hScan
      · cases hScan
        exact Nat.le_succ _
      · exact Nat.le_of_succ_le (ih hScan)
    · cases hScan

/- What a step does to the queue. -/
def Erases (queue : List ABuffer) (next : AssemblyStatus × AAVCAssembler × List ABuffer) : Prop :=
  next.2.2.length ≤ queue.length ∧
    (next.1 = .OK ∨ next.1 = .MALFORMED_PACKET →
      next.2.2.length < queue.length) ∧
    (next.1 = .WRONG_SEQUENCE_NUMBER →
      next.2.1.expected.mNextExpectedSeqNoValid = true)

theorem erases_drop {status : AssemblyStatus} {t : AAVCAssembler} {count : Nat} (hCount : 0 < count)
    (hQueue : queue ≠ []) (hStatus : status ≠ .WRONG_SEQUENCE_NUMBER) :
    Erases queue (status, t, queue.drop count) := by
  have hLength := List.length_pos_of_ne_nil hQueue
  refine ⟨?_, ?_, fun hWrong => absurd hWrong hStatus⟩
  · simp only [List.length_drop]
    omega
  · intro _
    simp only [List.length_drop]
    omega

theorem erases_stop {status : AssemblyStatus} {t : AAVCAssembler} {left : List ABuffer}
    (hLength : left.length ≤ queue.length)
    (hStatus :
      status = .NOT_ENOUGH_DATA ∨
        status = .WRONG_SEQUENCE_NUMBER ∧ t.expected.mNextExpectedSeqNoValid = true) :
    Erases queue (status, t, left) := by
  refine ⟨hLength, ?_, ?_⟩
  · rintro (hNot | hNot) <;>
      rcases hStatus with hStop | ⟨hStop, _⟩ <;>
      cases hNot.symm.trans hStop
  · intro hWrong
    rcases hStatus with hStop | ⟨_, hValid⟩
    · cases hStop.symm.trans hWrong
    · exact hValid

theorem addFragmentedNALUnit_step {buffer : ABuffer} {rest : List ABuffer} {data0 : Byte}
    {data : List Byte} (hValid : s.expected.mNextExpectedSeqNoValid = true)
    (hData : buffer.data = data0 :: data) (hType : data0.toNat % 32 = 28) :
    ∃ next, s.addFragmentedNALUnit buffer rest = .returns next ∧ Erases (buffer :: rest) next := by
  have hQueue : buffer :: rest ≠ [] := List.cons_ne_nil _ _
  rcases data with _ | ⟨data1, data⟩
  · rw [addFragmentedNALUnit, hData]
    simp only [Result.check, if_pos hType]
    exact ⟨_, rfl, erases_drop Nat.one_pos hQueue (by decide)⟩
  rw [addFragmentedNALUnit, hData]
  simp only [Result.check, if_pos hType]
  by_cases hStart : data1.toNat / 128 = 0
  · rw [if_pos hStart]
    exact ⟨_, rfl, erases_drop Nat.one_pos hQueue (by decide)⟩
  rw [if_neg hStart]
  generalize hScan :
    (if data1.toNat / 64 % 2 = 1 then FragmentScan.complete (increment buffer.int32Data) 1
    else scanFragments data0 (data1.toNat % 32) (increment buffer.int32Data) 1 rest) = scan
  cases scan with
  | wrongSequence => exact ⟨_, rfl, erases_stop (Nat.le_refl _) (.inr ⟨rfl, hValid⟩)⟩
  | incomplete => exact ⟨_, rfl, erases_stop (Nat.le_refl _) (.inl rfl)⟩
  | malformed expected count => exact ⟨_, rfl, erases_drop (Nat.succ_pos _) hQueue (by decide)⟩
  | complete expected count =>
    have hCount : 0 < count := by
      split at hScan
      · cases hScan
        exact Nat.one_pos
      · exact scanFragments_complete hScan
    simp only
    rcases addSingleNALUnit_returns
      { s with
        expected := { s.expected with mNextExpectedSeqNo := expected } }
      (ABuffer.CopyTimes
        (BitVec.ofNat 8 (data0.toNat / 32 % 4 * 32 + data1.toNat % 32) ::
          ((buffer :: rest).take count).flatMap (fun piece => piece.data.drop 2)) buffer) with
      ⟨t, hUnit, _⟩
    rw [hUnit]
    exact ⟨_, rfl, erases_drop hCount hQueue (by decide)⟩

/- The flag of the access unit does not matter. -/
theorem reaches_assembleMore {next : AssemblyStatus × AAVCAssembler × List ABuffer}
    (hReaches : Reaches (fun fuel => s.addNALUnit fuel queue) next) (hErases : Erases queue next) :
    ∃ next, Reaches (fun fuel => s.assembleMore fuel queue) next ∧ Erases queue next := by
  rcases next with ⟨status, t, left⟩
  refine ⟨_, hReaches.bind (.const _), hErases.1, hErases.2.1, ?_⟩
  intro hWrong
  have hValid := hErases.2.2 hWrong
  split
  · exact hValid
  · exact hValid

/- By the kind of the packet. -/
theorem addPacket_step (buffer : ABuffer) (rest : List ABuffer)
    (hValid : s.expected.mNextExpectedSeqNoValid = true) :
    ∃ next,
      Reaches (fun fuel => s.addPacket fuel buffer rest) next ∧ Erases (buffer :: rest) next := by
  have hQueue : buffer :: rest ≠ [] := List.cons_ne_nil _ _
  have hRest :
      ∀ {status : AssemblyStatus} {t : AAVCAssembler},
        status ≠ .WRONG_SEQUENCE_NUMBER → Erases (buffer :: rest) (status, t, rest) :=
    fun hStatus => erases_drop Nat.one_pos hQueue hStatus
  unfold addPacket
  cases hData : buffer.data with
  | nil => exact ⟨_, .const _, hRest (by decide)⟩
  | cons data0 data =>
    simp only
    by_cases hCorrupt : data0.toNat / 128 = 1
    · simp only [if_pos hCorrupt]
      exact ⟨_, .const _, hRest (by decide)⟩
    simp only [if_neg hCorrupt]
    by_cases hSingle : 1 ≤ data0.toNat % 32 ∧ data0.toNat % 32 ≤ 23
    · simp only [if_pos hSingle]
      rcases addSingleNALUnit_returns s buffer with ⟨t, hUnit, _⟩
      rw [hUnit]
      exact ⟨_, .const _, hRest (by decide)⟩
    simp only [if_neg hSingle]
    by_cases hFragment : data0.toNat % 32 = 28
    · simp only [if_pos hFragment]
      rcases addFragmentedNALUnit_step hValid hData hFragment with ⟨final, hStep, hErases⟩
      exact ⟨final, .of_eq (fun _ => hStep), hErases⟩
    simp only [if_neg hFragment]
    by_cases hAggregation : data0.toNat % 32 = 24
    · simp only [if_pos hAggregation]
      rcases aggregation_returns s buffer with ⟨success, t, hUnits, _⟩
      refine ⟨_, hUnits.bind (.const _), hRest ?_⟩
      cases success with
      | true => exact nofun
      | false => exact nofun
    simp only [if_neg hAggregation]
    by_cases hZero : data0.toNat % 32 = 0
    · simp only [if_pos hZero]
      exact ⟨_, .const _, hRest (by decide)⟩
    · simp only [if_neg hZero]
      exact ⟨_, .const _, hRest (by decide)⟩

/- A step returns, and it erases a packet or it stops. -/
theorem assembleMore_step (s : AAVCAssembler) (queue : List ABuffer) :
    ∃ next, Reaches (fun fuel => s.assembleMore fuel queue) next ∧ Erases queue next := by
  cases hFront : front s.expected queue with
  | stop status rest =>
    rcases front_stop hFront with ⟨hStatus, _, hLength⟩
    refine reaches_assembleMore (.of_eq (fun fuel => by rw [addNALUnit, hFront])) ?_
    refine erases_stop hLength ?_
    rcases hStatus with ⟨hEmpty, _⟩ | hWrong
    · exact .inl hEmpty
    · exact .inr hWrong
  | packet next buffer rest =>
    have hQueue : (buffer :: rest).length ≤ queue.length := front_packet_length hFront
    have hValid :
        next.mNextExpectedSeqNoValid = true := by
      rw [(front_packet hFront).1]
    rcases @addPacket_step { s with expected := next } buffer
      rest hValid with ⟨final, hStep, hErases⟩
    have hSame : (fun fuel => s.addNALUnit fuel queue) = fun fuel =>
            addPacket fuel { s with expected := next } buffer
              rest := by
      funext fuel
      rw [addNALUnit, hFront]
    rw [← hSame] at hStep
    exact reaches_assembleMore hStep
      ⟨Nat.le_trans hErases.1 hQueue, fun hStatus =>
          Nat.lt_of_lt_of_le (hErases.2.1 hStatus) hQueue,
        hErases.2.2⟩

theorem steps : assembler.Steps := by
  intro s queue
  rcases assembleMore_step s queue with ⟨⟨status, t, left⟩, hReaches, _, hLess, _⟩
  exact ⟨status, t, left, hReaches, hLess⟩

theorem packetLost_valid (hValid : s.expected.mNextExpectedSeqNoValid = true) :
    ∃ t, s.packetLost = .returns t := by
  rw [packetLost, Expected.packetLost_valid hValid]
  exact ⟨_, rfl⟩

theorem returns (nowUs : Nat → Int) (s : Reception AAVCAssembler) : assembler.Returns nowUs s := by
  refine Assembler.returns_of_good (fun _ => True) ?_ trivial
  intro s _
  rcases assembleMore_step s.assembler s.queue with
    ⟨⟨status, t, left⟩, hReaches, hLength, hLess, hValid⟩
  refine ⟨status, t, left, hReaches, hLength, fun hStatus => ⟨hLess hStatus, trivial⟩, ?_⟩
  intro hWrong _
  rcases packetLost_valid (hValid hWrong) with ⟨lost, hLost⟩
  exact ⟨lost, hLost, trivial⟩

end AAVCAssembler

--
-- One Packet in a Step
--

/- An assembler that erases every packet that it expects. -/
structure Assembler.TakesAll {σ : Type} (A : Assembler σ) (expected : σ → Expected) : Prop where
  stop :
    ∀ fuel s queue status rest,
      front (expected s) queue = .stop status rest →
        A.assembleMore fuel s queue = .returns (status, s, rest)
  take :
    ∀ s queue next buffer rest,
      front (expected s) queue = .packet next buffer rest →
        ∃ status t,
          (status = .OK ∨ status = .MALFORMED_PACKET) ∧
            ∀ fuel, A.assembleMore fuel s queue = .returns (status, t, rest)
  lost : ∀ s, (expected s).mNextExpectedSeqNoValid = true → ∃ t, A.packetLost s = .returns t

theorem Assembler.TakesAll.returns {σ : Type} {A : Assembler σ} {expected : σ → Expected}
    (hTakes : A.TakesAll expected) (nowUs : Nat → Int) (s : Reception σ) : A.Returns nowUs s := by
  refine Assembler.returns_of_good (fun _ => True) ?_ trivial
  intro s _
  cases hFront : front (expected s.assembler) s.queue with
  | stop status rest =>
    rcases front_stop hFront with ⟨hStatus, _, hLength⟩
    refine ⟨status, s.assembler, rest, .of_eq (fun fuel => hTakes.stop fuel _ _ _ _ hFront),
      hLength, ?_, ?_⟩
    · rintro (rfl | rfl) <;>
        rcases hStatus with ⟨hNot, _⟩ | ⟨hNot, _⟩ <;>
        cases hNot
    · rintro rfl _
      rcases hStatus with ⟨hNot, _⟩ | ⟨_, hValid⟩
      · cases hNot
      rcases hTakes.lost s.assembler hValid with ⟨t, hLost⟩
      exact ⟨t, hLost, trivial⟩
  | packet next buffer rest =>
    have hLess := front_packet_length hFront
    rcases hTakes.take s.assembler s.queue next buffer rest hFront with ⟨status, t, hStatus, hMore⟩
    refine ⟨status, t, rest, .of_eq hMore, Nat.le_of_lt hLess, fun _ => ⟨hLess, trivial⟩, ?_⟩
    rintro rfl _
    rcases hStatus with hNot | hNot <;> cases hNot

theorem Assembler.TakesAll.steps {σ : Type} {A : Assembler σ} {expected : σ → Expected}
    (hTakes : A.TakesAll expected) : A.Steps := by
  intro s queue
  cases hFront : front (expected s) queue with
  | stop status rest =>
    refine ⟨status, s, rest, .of_eq (fun fuel => hTakes.stop fuel _ _ _ _ hFront), ?_⟩
    rintro (rfl | rfl) <;>
      rcases (front_stop hFront).1 with ⟨hNot, _⟩ | ⟨hNot, _⟩ <;>
      cases hNot
  | packet next buffer rest =>
    rcases hTakes.take s queue next buffer rest hFront with ⟨status, t, _, hMore⟩
    exact ⟨status, t, rest, .of_eq hMore, fun _ => front_packet_length hFront⟩

theorem AAMRAssembler.takesAll : AAMRAssembler.assembler.TakesAll AAMRAssembler.expected := by
  refine ⟨?_, ?_, ?_⟩
  · intro fuel s queue status rest hFront
    show addPacket s queue = _
    rw [addPacket, hFront]
  · intro s queue next buffer rest hFront
    show ∃ status t, _ ∧ ∀ fuel : Nat, addPacket s queue = _
    rw [addPacket, hFront]
    simp only
    cases readPacket s.mIsWide buffer.data with
    | none => exact ⟨_, _, .inr rfl, fun _ => rfl⟩
    | some frames => exact ⟨_, _, .inl rfl, fun _ => rfl⟩
  · intro s hValid
    show ∃ t, packetLost s = _
    rw [packetLost, Expected.packetLost_valid hValid]
    exact ⟨_, rfl⟩

theorem AH263Assembler.takesAll : AH263Assembler.assembler.TakesAll AH263Assembler.expected := by
  refine ⟨?_, ?_, ?_⟩
  · intro fuel s queue status rest hFront
    show assembleMore s queue = _
    rw [assembleMore, addPacket, hFront]
    rcases front_stop hFront with ⟨⟨rfl, _⟩ | ⟨rfl, _⟩, _, _⟩ <;> rfl
  · intro s queue next buffer rest hFront
    show ∃ status t, _ ∧ ∀ fuel : Nat, assembleMore s queue = _
    have hSubmit :
        ∃ t,
          (if s.mPackets ≠ [] ∧ buffer.rtpTime ≠ s.mAccessUnitRTPTime then s.submitAccessUnit
          else .returns s) = .returns t := by
      by_cases hTime : s.mPackets ≠ [] ∧ buffer.rtpTime ≠ s.mAccessUnitRTPTime
      · rw [if_pos hTime]
        cases hPackets : s.mPackets with
        | nil => exact absurd hPackets hTime.1
        | cons first more =>
          rw [submitAccessUnit, hPackets]
          exact ⟨_, rfl⟩
      · rw [if_neg hTime]
        exact ⟨s, rfl⟩
    rcases hSubmit with ⟨t, hSubmit⟩
    rw [assembleMore, addPacket, hFront]
    simp only
    rw [hSubmit, Result.bind_returns]
    cases readPayload buffer.data with
    | none => exact ⟨_, _, .inr rfl, fun _ => rfl⟩
    | some data => exact ⟨_, _, .inl rfl, fun _ => rfl⟩
  · intro s hValid
    show ∃ t, packetLost s = _
    rw [packetLost, Expected.packetLost_valid hValid]
    exact ⟨_, rfl⟩

end RTP

end FrameworksAv
