import FrameworksAv.AudioTrackShared.Static
import FrameworksAv.AudioTrackShared.Streaming
import FrameworksAv.Base.Playback

/-
  A static track as a system: a client that pushes states and a server that plays the buffer.

  Main declarations:
    * `StaticState.playback`, `StaticServer.Inv`
    * `updateState_wf`, `advance_playback`
    * `StaticTrack`, `StaticAction`, `StaticTrack.step`
    * `PollsIdle`
-/

--
-- Playbacks
--

namespace FrameworksAv

namespace AudioTrackShared

/- The position and the loop of a state. -/
def StaticState.playback (s : StaticState) : Playback where
  position := s.mPosition.toNat
  loopStart := s.mLoopStart.toNat
  loopEnd := s.mLoopEnd.toNat
  loopCount := s.mLoopCount.toInt

/- A count is zero as a word and as a number. -/
theorem toInt_ne_zero {word : Word} : word.toInt ≠ 0 ↔ word ≠ 0 := by
  constructor
  · intro hNe hZero
    apply hNe
    rw [hZero]
    rfl
  · intro hNe hZero
    apply hNe
    exact BitVec.eq_of_toInt_eq hZero

theorem toInt_sub_one {word : Word} (hPos : 0 < word.toInt) :
    (word - 1).toInt = word.toInt - 1 := by
  have hLt := BitVec.toInt_lt (x := word)
  have hOne : (1 : Word).toInt = 1 := by decide
  rw [BitVec.toInt_sub, hOne, Int.bmod_def]
  omega

namespace StaticServer

variable {frameCount : Nat}

/- A new state that is accepted can be played. -/
theorem updateStateWithLoop_wf {s u t : StaticState} (hWf : s.playback.Wf frameCount minLoop)
    (hUpdate : updateStateWithLoop frameCount s u = some t) : t.playback.Wf frameCount minLoop := by
  unfold updateStateWithLoop at hUpdate
  by_cases hSeq : s.mLoopSequence ≠ u.mLoopSequence
  · rw [if_pos hSeq] at hUpdate
    generalize hPosition :
      (if u.mLoopCount ≠ 0 ∧ s.mPosition.toNat ≥ u.mLoopEnd.toNat then u.mLoopStart
      else s.mPosition) = position at hUpdate
    by_cases hValid : (u.mLoopCount = 0 ∨ ValidLoop frameCount u) ∧ position.toNat ≤ frameCount
    · rw [if_pos hValid] at hUpdate
      cases hUpdate
      constructor
      · exact hValid.2
      · rcases hValid.1 with hZero | hLoop
        · change -1 ≤ u.mLoopCount.toInt
          rw [hZero]
          decide
        · exact hLoop.1
      · intro hCount
        have hNe := toInt_ne_zero.mp hCount
        rcases hValid.1 with hZero | hLoop
        · exact absurd hZero hNe
        · refine ⟨hLoop.2.1, hLoop.2.2.1, hLoop.2.2.2, ?_⟩
          change position.toNat < u.mLoopEnd.toNat
          rw [← hPosition]
          split
          · exact hLoop.2.1
          · rename_i hInside
            have hBefore : ¬ s.mPosition.toNat ≥ u.mLoopEnd.toNat :=
              fun hBehind => hInside ⟨hNe, hBehind⟩
            omega
    · rw [if_neg hValid] at hUpdate
      cases hUpdate
  · rw [if_neg hSeq] at hUpdate
    cases hUpdate
    exact hWf

theorem updateStateWithPosition_wf {s u t : StaticState} (hWf : s.playback.Wf frameCount minLoop)
    (hUpdate : updateStateWithPosition frameCount s u = some t) :
    t.playback.Wf frameCount minLoop := by
  unfold updateStateWithPosition at hUpdate
  simp only at hUpdate
  split at hUpdate
  · split at hUpdate
    · cases hUpdate
    · rename_i hInside
      cases hUpdate
      constructor
      · exact Nat.le_of_not_gt hInside
      · simp only [StaticState.playback]
        split
        · decide
        · exact hWf.count_ge
      · simp only [StaticState.playback]
        split
        · intro hCount
          exact absurd rfl hCount
        · rename_i hLoops
          intro hCount
          have hLoop := hWf.loop hCount
          have hBefore : ¬ u.mPosition.toNat ≥ s.mLoopEnd.toNat := fun hBehind =>
              hLoops ⟨toInt_ne_zero.mp hCount, hBehind⟩
          exact ⟨hLoop.1, hLoop.2.1, hLoop.2.2.1, by omega⟩
  · cases hUpdate
    exact hWf

theorem updateState_wf {s u t : StaticState} (hWf : s.playback.Wf frameCount minLoop)
    (hUpdate : updateState frameCount s u = some t) : t.playback.Wf frameCount minLoop := by
  unfold updateState at hUpdate
  simp only at hUpdate
  split at hUpdate
  · rcases Option.bind_eq_some_iff.mp hUpdate with ⟨r, hFirst, hSecond⟩
    exact updateStateWithPosition_wf (updateStateWithLoop_wf hWf hFirst) hSecond
  · rcases Option.bind_eq_some_iff.mp hUpdate with ⟨r, hFirst, hSecond⟩
    exact updateStateWithLoop_wf (updateStateWithPosition_wf hWf hFirst) hSecond

theorem stop_playback (frameCount : Nat) (s : StaticState) :
    stop frameCount s = s.playback.stop frameCount := by
  unfold stop Playback.stop
  by_cases hZero : s.mLoopCount = 0
  · have hCount : s.playback.loopCount = 0 := by
      simp [StaticState.playback, hZero]
    rw [if_neg (not_not_intro hZero), if_pos hCount]
  · have hCount : s.playback.loopCount ≠ 0 := toInt_ne_zero.mpr hZero
    rw [if_pos hZero, if_neg hCount]
    rfl

/- A release plays frames in front of the next jump. -/
theorem advance_playback (hSize : frameCount < 2 ^ 32) {s : StaticState}
    (hWf : s.playback.Wf frameCount minLoop) {count : Nat}
    (hCount : count ≤ s.playback.stop frameCount - s.playback.position) :
    (advance frameCount s count).1.playback = s.playback.advance count := by
  have hStop := hWf.position_le_stop
  have hWhole := hWf.stop_le
  have hPosition : s.playback.position = s.mPosition.toNat := rfl
  have hMod : (s.mPosition.toNat + count) % 2 ^ 32 = s.mPosition.toNat + count := by
    apply Nat.mod_eq_of_lt
    omega
  unfold advance Playback.advance
  simp only [hMod]
  rw [if_neg (by omega)]
  by_cases hJump : s.playback.loopCount ≠ 0 ∧ s.playback.position + count = s.playback.loopEnd
  · have hWord : s.mLoopCount ≠ 0 := toInt_ne_zero.mp hJump.1
    have hEnd : s.mPosition.toNat + count = s.mLoopEnd.toNat := hJump.2
    have hStart : (BitVec.ofNat 32 s.mLoopStart.toNat).toNat = s.mLoopStart.toNat := by
      simp
    rw [if_pos hJump, if_pos ⟨hWord, hEnd⟩]
    by_cases hEndless : s.mLoopCount.toInt = -1
    · rw [if_pos hEndless]
      simp only [StaticState.playback, hStart, hEndless, if_true]
    · have hGe : -1 ≤ s.mLoopCount.toInt := hWf.count_ge
      have hNe : s.mLoopCount.toInt ≠ 0 := hJump.1
      have hLess := toInt_sub_one (show 0 < s.mLoopCount.toInt by omega)
      rw [if_neg hEndless]
      have hEnds : s.playback.loopCount ≠ -1 := hEndless
      rw [if_neg hEnds]
      split <;> simp only [StaticState.playback, hStart, hLess]
  · have hWord : ¬ (s.mLoopCount ≠ 0 ∧ s.mPosition.toNat + count = s.mLoopEnd.toNat) := by
      rintro ⟨hNe, hEq⟩
      exact hJump ⟨toInt_ne_zero.mpr hNe, hEq⟩
    rw [if_neg hJump, if_neg hWord]
    simp only [StaticState.playback, BitVec.toNat_ofNat, hMod]

/- The frames that are left to play, as `mFramesReady`. -/
def remaining (frameCount : Nat) (s : StaticState) : Int :=
  if s.playback.loopCount = -1 then int64Max
  else ((s.playback.frames frameCount).length : Nat)

/- A loop that ends plays fewer frames than `INT64_MAX`. -/
theorem length_frames_lt (hSize : frameCount < 2 ^ 32) {s : StaticState}
    (hWf : s.playback.Wf frameCount minLoop) (hEnds : s.playback.loopCount ≠ -1) :
    ((s.playback.frames frameCount).length : Int) < int64Max := by
  have hLength := Playback.length_frames hWf hEnds
  have hGe := hWf.count_ge
  have hCount : s.playback.loopCount ≤ 2 ^ 31 - 1 := by
    have hLt := BitVec.toInt_lt (x := s.mLoopCount)
    change s.mLoopCount.toInt ≤ _
    omega
  have hBody : ((s.playback.loopEnd - s.playback.loopStart : Nat) : Int) ≤ 2 ^ 32 - 1 := by
    have hLt := s.mLoopEnd.isLt
    change ((s.mLoopEnd.toNat - s.mLoopStart.toNat : Nat) : Int) ≤ _
    omega
  have hMul :
      s.playback.loopCount * ((s.playback.loopEnd - s.playback.loopStart : Nat) : Int) ≤
        (2 ^ 31 - 1) * (2 ^ 32 - 1) :=
    Int.mul_le_mul hCount hBody (by omega) (by decide)
  simp only [int64Max]
  omega

theorem remaining_ne_max (hSize : frameCount < 2 ^ 32) {s : StaticState}
    (hWf : s.playback.Wf frameCount minLoop) :
    remaining frameCount s = int64Max ↔ s.playback.loopCount = -1 := by
  unfold remaining
  by_cases hEndless : s.playback.loopCount = -1
  · simp [hEndless]
  · have hLt := length_frames_lt hSize hWf hEndless
    rw [if_neg hEndless]
    constructor
    · intro hEq
      omega
    · intro hEq
      exact absurd hEq hEndless

/- The count the server computes is the number of frames. -/
theorem framesReadyOf_eq {s : StaticState} (hWf : s.playback.Wf frameCount minLoop) (ready : Int) :
    framesReadyOf frameCount ready s = remaining frameCount s := by
  have hGe : -1 ≤ s.mLoopCount.toInt := hWf.count_ge
  unfold framesReadyOf remaining
  by_cases hEndless : s.mLoopCount.toInt = -1
  · have hCount : s.playback.loopCount = -1 := hEndless
    rw [if_pos hEndless, if_pos hCount]
  · have hEnds : s.playback.loopCount ≠ -1 := hEndless
    have hLength := Playback.length_frames hWf hEnds
    rw [if_neg hEndless, if_neg hEnds, hLength]
    by_cases hZero : s.mLoopCount = 0
    · have hCount : s.playback.loopCount = 0 := by
        simp [StaticState.playback, hZero]
      rw [if_pos hZero, hCount, Int.zero_mul, Int.zero_add]
      rfl
    · have hCount : s.mLoopCount.toInt ≠ 0 := toInt_ne_zero.mpr hZero
      have hLoop := hWf.loop hCount
      have hBody :
          (s.mLoopEnd - s.mLoopStart).toNat = s.playback.loopEnd - s.playback.loopStart := by
        have hLt : s.mLoopStart.toNat < s.mLoopEnd.toNat := hLoop.1
        exact BitVec.toNat_sub_of_le (BitVec.le_def.mpr (Nat.le_of_lt hLt))
      rw [if_neg hZero, if_pos (by omega), hBody]
      rfl

/- What is left covers what can be played without a jump. -/
theorem stop_le_remaining (hSize : frameCount < 2 ^ 32) {s : StaticState}
    (hWf : s.playback.Wf frameCount minLoop) {count : Nat}
    (hCount : count ≤ s.playback.stop frameCount - s.playback.position) :
    (count : Int) ≤ remaining frameCount s := by
  unfold remaining
  by_cases hEndless : s.playback.loopCount = -1
  · have hZero : s.playback.loopCount ≠ 0 := by
      omega
    have hLoop := hWf.loop hZero
    unfold Playback.stop at hCount
    rw [if_neg hZero] at hCount
    rw [if_pos hEndless, int64Max]
    omega
  · have hFrames := Playback.frames_advance hWf hEndless hCount
    rw [if_neg hEndless, hFrames, List.length_append, List.length_range']
    omega

/- A release counts down what is left. -/
theorem remaining_advance (hSize : frameCount < 2 ^ 32) {s t : StaticState}
    (hWf : s.playback.Wf frameCount minLoop) {count : Nat}
    (hCount : count ≤ s.playback.stop frameCount - s.playback.position)
    (hNext : t.playback = s.playback.advance count) :
    (if remaining frameCount s ≠ int64Max then remaining frameCount s - count
      else remaining frameCount s) = remaining frameCount t := by
  by_cases hEndless : s.playback.loopCount = -1
  · have hMax := (remaining_ne_max hSize hWf).mpr hEndless
    have hStill := (Playback.endless_advance hWf hEndless hCount).1
    rw [if_neg (not_not_intro hMax), hMax, remaining, hNext, if_pos hStill]
  · have hMax : remaining frameCount s ≠ int64Max := by
      intro hEq
      exact hEndless ((remaining_ne_max hSize hWf).mp hEq)
    have hFrames := Playback.frames_advance hWf hEndless hCount
    have hEnds := Playback.advance_loopCount hWf hEndless count
    rw [if_pos hMax, remaining, if_neg hEndless, remaining,
      hNext, if_neg hEnds, hFrames, List.length_append, List.length_range']
    omega

end StaticServer

--
-- Accepted States
--

namespace StaticServer

/- A pushed state whose new commands can be carried out. -/
def Accepts (frameCount : Nat) (s u : StaticState) : Prop :=
  (s.mLoopSequence ≠ u.mLoopSequence → u.mLoopCount = 0 ∨ ValidLoop frameCount u) ∧
  (s.mPositionSequence ≠ u.mPositionSequence → u.mPosition.toNat ≤ frameCount)

/-
  All of a pushed state has been carried out. The newer command has the last word where both set the
  position or the loop count.
-/
structure Applied (s u t : StaticState) : Prop where
  loopSequence : t.mLoopSequence = u.mLoopSequence
  positionSequence : t.mPositionSequence = u.mPositionSequence
  newLoop :
    s.mLoopSequence ≠ u.mLoopSequence → t.mLoopStart = u.mLoopStart ∧ t.mLoopEnd = u.mLoopEnd
  oldLoop :
    s.mLoopSequence = u.mLoopSequence → t.mLoopStart = s.mLoopStart ∧ t.mLoopEnd = s.mLoopEnd
  position :
    t.mPosition = (if s.mPositionSequence ≠ u.mPositionSequence then u.mPosition else s.mPosition) ∨
      s.mLoopSequence ≠ u.mLoopSequence ∧ u.mLoopCount ≠ 0 ∧ t.mPosition = u.mLoopStart
  loopCount :
    t.mLoopCount = (if s.mLoopSequence ≠ u.mLoopSequence then u.mLoopCount else s.mLoopCount) ∨
      s.mPositionSequence ≠ u.mPositionSequence ∧ t.mLoopEnd.toNat ≤ u.mPosition.toNat ∧
        t.mLoopCount = 0

variable {frameCount : Nat}

/- What a loop command does if it is new. -/
theorem updateStateWithLoop_of_ne {s u : StaticState} (hSeq : s.mLoopSequence ≠ u.mLoopSequence)
    (hPosition : s.mPosition.toNat ≤ frameCount) :
    updateStateWithLoop frameCount s u =
      if u.mLoopCount = 0 ∨ ValidLoop frameCount u then
        some
          { s with
            mPosition :=
              if u.mLoopCount ≠ 0 ∧ s.mPosition.toNat ≥ u.mLoopEnd.toNat then u.mLoopStart
              else s.mPosition
            mLoopCount := u.mLoopCount
            mLoopEnd := u.mLoopEnd
            mLoopStart := u.mLoopStart
            mLoopSequence := u.mLoopSequence }
      else none := by
  unfold updateStateWithLoop
  rw [if_pos hSeq]
  by_cases hValid : u.mLoopCount = 0 ∨ ValidLoop frameCount u
  · have hInside :
        (if u.mLoopCount ≠ 0 ∧ s.mPosition.toNat ≥ u.mLoopEnd.toNat then u.mLoopStart
        else s.mPosition).toNat ≤ frameCount := by
      by_cases hWrap : u.mLoopCount ≠ 0 ∧ s.mPosition.toNat ≥ u.mLoopEnd.toNat
      · rw [if_pos hWrap]
        rcases hValid with hZero | hLoop
        · exact absurd hZero hWrap.1
        · have hStart := hLoop.2.1
          have hEnd := hLoop.2.2.1
          omega
      · rw [if_neg hWrap]
        exact hPosition
    rw [if_pos hValid, if_pos ⟨hValid, hInside⟩]
  · rw [if_neg hValid, if_neg (fun hBoth => hValid hBoth.1)]

theorem updateStateWithLoop_of_eq {s u : StaticState} (hSeq : s.mLoopSequence = u.mLoopSequence) :
    updateStateWithLoop frameCount s u = some s := by
  unfold updateStateWithLoop
  rw [if_neg (not_not_intro hSeq)]

/- What a position command does if it is new. -/
theorem updateStateWithPosition_of_ne {s u : StaticState}
    (hSeq : s.mPositionSequence ≠ u.mPositionSequence) :
    updateStateWithPosition frameCount s u =
      if u.mPosition.toNat ≤ frameCount then
        some
          { s with
            mLoopCount := if s.mLoopCount ≠ 0 ∧ u.mPosition.toNat ≥ s.mLoopEnd.toNat then 0
              else s.mLoopCount
            mPosition := u.mPosition
            mPositionSequence := u.mPositionSequence }
      else none := by
  unfold updateStateWithPosition
  rw [if_pos hSeq]
  by_cases hInside : u.mPosition.toNat ≤ frameCount
  · rw [if_neg (Nat.not_lt.mpr hInside), if_pos hInside]
  · rw [if_pos (Nat.lt_of_not_le hInside), if_neg hInside]

theorem updateStateWithPosition_of_eq {s u : StaticState}
    (hSeq : s.mPositionSequence = u.mPositionSequence) :
    updateStateWithPosition frameCount s u = some s := by
  unfold updateStateWithPosition
  rw [if_neg (not_not_intro hSeq)]

/- A loop command is carried out, or there is none. -/
theorem updateStateWithLoop_cases {s u t : StaticState}
    (hUpdate : updateStateWithLoop frameCount s u = some t) :
    s.mLoopSequence = u.mLoopSequence ∧ t = s ∨
      s.mLoopSequence ≠ u.mLoopSequence ∧ (u.mLoopCount = 0 ∨ ValidLoop frameCount u) ∧
        ∃ position, (position = s.mPosition ∨ u.mLoopCount ≠ 0 ∧ position = u.mLoopStart) ∧
          t =
            { s with
              mPosition := position
              mLoopCount := u.mLoopCount
              mLoopEnd := u.mLoopEnd
              mLoopStart := u.mLoopStart
              mLoopSequence := u.mLoopSequence } := by
  by_cases hSeq : s.mLoopSequence = u.mLoopSequence
  · rw [updateStateWithLoop_of_eq hSeq] at hUpdate
    exact Or.inl ⟨hSeq, (Option.some.inj hUpdate).symm⟩
  · right
    unfold updateStateWithLoop at hUpdate
    rw [if_pos hSeq] at hUpdate
    simp only at hUpdate
    split at hUpdate
    · rename_i hWrap
      split at hUpdate
      · rename_i hValid
        exact ⟨hSeq, hValid.1, u.mLoopStart, Or.inr ⟨hWrap.1, rfl⟩, (Option.some.inj hUpdate).symm⟩
      · cases hUpdate
    · split at hUpdate
      · rename_i hValid
        exact ⟨hSeq, hValid.1, s.mPosition, Or.inl rfl, (Option.some.inj hUpdate).symm⟩
      · cases hUpdate

theorem updateStateWithPosition_cases {s u t : StaticState}
    (hUpdate : updateStateWithPosition frameCount s u = some t) :
    s.mPositionSequence = u.mPositionSequence ∧ t = s ∨
      s.mPositionSequence ≠ u.mPositionSequence ∧ u.mPosition.toNat ≤ frameCount ∧
        ∃ loopCount,
          (loopCount = s.mLoopCount ∨ s.mLoopEnd.toNat ≤ u.mPosition.toNat ∧ loopCount = 0) ∧
          t =
            { s with
              mLoopCount := loopCount
              mPosition := u.mPosition
              mPositionSequence := u.mPositionSequence } := by
  by_cases hSeq : s.mPositionSequence = u.mPositionSequence
  · rw [updateStateWithPosition_of_eq hSeq] at hUpdate
    exact Or.inl ⟨hSeq, (Option.some.inj hUpdate).symm⟩
  · right
    rw [updateStateWithPosition_of_ne hSeq] at hUpdate
    by_cases hInside : u.mPosition.toNat ≤ frameCount
    · rw [if_pos hInside] at hUpdate
      refine ⟨hSeq, hInside, _, ?_, (Option.some.inj hUpdate).symm⟩
      split
      · rename_i hBehind
        exact Or.inr ⟨hBehind.2, rfl⟩
      · exact Or.inl rfl
    · rw [if_neg hInside] at hUpdate
      cases hUpdate

/- A new state is carried out completely or not at all. -/
theorem updateState_applied {s u t : StaticState} (hUpdate : updateState frameCount s u = some t) :
    Applied s u t := by
  unfold updateState at hUpdate
  simp only at hUpdate
  split at hUpdate
  · rcases Option.bind_eq_some_iff.mp hUpdate with ⟨r, hFirst, hSecond⟩
    rcases updateStateWithLoop_cases hFirst with ⟨hLoop, rfl⟩ | ⟨hLoop, -, position, hPos, rfl⟩
    · rcases updateStateWithPosition_cases hSecond with ⟨hSeq, rfl⟩ | ⟨hSeq, -, count, hCount, rfl⟩
      · constructor <;> simp [hLoop, hSeq]
      · constructor <;> simp [hLoop, hSeq]
        exact hCount
    · rcases updateStateWithPosition_cases hSecond with ⟨hSeq, rfl⟩ | ⟨hSeq, -, count, hCount, rfl⟩
      · simp only at hSeq
        constructor <;> simp [hLoop, hSeq]
        exact hPos
      · simp only at hSeq
        constructor <;> simp [hLoop, hSeq]
        exact hCount
  · rcases Option.bind_eq_some_iff.mp hUpdate with ⟨r, hFirst, hSecond⟩
    rcases updateStateWithPosition_cases hFirst with ⟨hSeq, rfl⟩ | ⟨hSeq, -, count, hCount, rfl⟩
    · rcases updateStateWithLoop_cases hSecond with ⟨hLoop, rfl⟩ | ⟨hLoop, -, position, hPos, rfl⟩
      · constructor <;> simp [hLoop, hSeq]
      · constructor <;> simp [hLoop, hSeq]
        exact hPos
    · rcases updateStateWithLoop_cases hSecond with ⟨hLoop, rfl⟩ | ⟨hLoop, -, position, hPos, rfl⟩
      · simp only at hLoop
        constructor <;> simp [hLoop, hSeq]
        exact hCount
      · simp only at hLoop
        constructor <;> simp [hLoop, hSeq]
        exact hPos

theorem updateStateWithLoop_isSome {s : StaticState} (hPosition : s.mPosition.toNat ≤ frameCount)
    (u : StaticState) :
    (updateStateWithLoop frameCount s u).isSome ↔
      (s.mLoopSequence ≠ u.mLoopSequence → u.mLoopCount = 0 ∨ ValidLoop frameCount u) := by
  by_cases hSeq : s.mLoopSequence = u.mLoopSequence
  · rw [updateStateWithLoop_of_eq hSeq]
    simp [hSeq]
  · rw [updateStateWithLoop_of_ne hSeq hPosition]
    by_cases hValid : u.mLoopCount = 0 ∨ ValidLoop frameCount u
    · rw [if_pos hValid]
      simp only [Option.isSome_some, true_iff]
      exact fun _ => hValid
    · rw [if_neg hValid]
      simp only [Option.isSome_none, Bool.false_eq_true, false_iff]
      exact fun hAll => hValid (hAll hSeq)

theorem updateStateWithPosition_isSome (s u : StaticState) :
    (updateStateWithPosition frameCount s u).isSome ↔
      (s.mPositionSequence ≠ u.mPositionSequence → u.mPosition.toNat ≤ frameCount) := by
  by_cases hSeq : s.mPositionSequence = u.mPositionSequence
  · rw [updateStateWithPosition_of_eq hSeq]
    simp [hSeq]
  · rw [updateStateWithPosition_of_ne hSeq]
    by_cases hInside : u.mPosition.toNat ≤ frameCount
    · simp [hInside]
    · simp [hInside, hSeq]

/- Two commands succeed together if both succeed. -/
theorem isSome_bind_iff {α : Type} {first : Option α} {second : α → Option α} {p q : Prop}
    (hFirst : first.isSome ↔ p) (hSecond : ∀ r, first = some r → ((second r).isSome ↔ q)) :
    (first.bind second).isSome ↔ p ∧ q := by
  cases h : first with
  | none =>
    rw [h] at hFirst
    simp only [Option.isSome_none, Bool.false_eq_true, false_iff] at hFirst
    simp [hFirst]
  | some r =>
    rw [h] at hFirst
    simp only [Option.isSome_some, true_iff] at hFirst
    simp [hFirst, hSecond r h]

/- A state is refused exactly if a new command is invalid. -/
theorem updateState_isSome {s : StaticState} (hWf : s.playback.Wf frameCount minLoop)
    (u : StaticState) : (updateState frameCount s u).isSome ↔ Accepts frameCount s u := by
  have hPosition : s.mPosition.toNat ≤ frameCount := hWf.position_le
  unfold updateState Accepts
  simp only
  split
  · apply isSome_bind_iff
    · exact updateStateWithLoop_isSome hPosition u
    · intro r hr
      have hSame : r.mPositionSequence = s.mPositionSequence := by
        rcases updateStateWithLoop_cases hr with ⟨-, rfl⟩ | ⟨-, -, position, -, rfl⟩ <;> rfl
      rw [updateStateWithPosition_isSome, hSame]
  · rw [and_comm]
    apply isSome_bind_iff
    · exact updateStateWithPosition_isSome s u
    · intro r hr
      have hSame : r.mLoopSequence = s.mLoopSequence := by
        rcases updateStateWithPosition_cases hr with ⟨-, rfl⟩ | ⟨-, -, count, -, rfl⟩ <;> rfl
      have hInside : r.mPosition.toNat ≤ frameCount :=
        (updateStateWithPosition_wf hWf hr).position_le
      rw [updateStateWithLoop_isSome hInside, hSame]

end StaticServer

--
-- System State
--

open SingleStateQueue (Shared Mutator Observer)

/- What both sides did so far; the code never reads it. -/
structure StaticHistory where
  pushed : Option StaticState  -- latest push of the client
  origin : StaticState         -- after the last poll that took
  delivered : List Nat         -- frames released since then
  moved : Bool  -- a poll set the position of obtained frames

/-
  A control block, the mutator of its client, the server proxy and the frames its caller has
  obtained.
-/
structure StaticTrack where
  cblk : StaticCblk
  mMutator : Mutator
  server : StaticServer
  held : Held
  fatal : Bool
  hist : StaticHistory

namespace StaticTrack

def init (frameCount : Nat) : StaticTrack where
  cblk := StaticCblk.init
  mMutator := ⟨0⟩
  server := StaticServer.init frameCount
  held := ⟨0, 0⟩
  fatal := false
  hist :=
    { pushed := none
      origin := .init
      delivered := []
      moved := false }

/- The state that a poll would find. -/
def news (t : StaticTrack) : Option StaticState :=
  (Observer.poll t.cblk.mSingleStateQueue t.server.mObserver).2.2

/- The history after a poll. -/
def polled (frameCount : Nat) (t : StaticTrack) : StaticHistory :=
  match t.news.bind (StaticServer.updateState frameCount t.server.mState) with
  | none => t.hist
  | some s =>
    { t.hist with
      origin := s
      delivered := []
      moved :=
        t.hist.moved || s.mPositionSequence ≠ t.server.mState.mPositionSequence ||
          s.mPosition ≠ t.server.mState.mPosition }

end StaticTrack

/- The steps of the two sides. -/
inductive StaticAction where
| push (u : StaticState)
| framesReadyIsCalledByMultipleThreads
| framesReady
| obtainBuffer (ask : Nat) (ackFlush : Bool)
| releaseBuffer (count : Nat)

namespace StaticTrack

/- The client pushes any state, valid or not. -/
def push (t : StaticTrack) (u : StaticState) : StaticTrack :=
  let r := Mutator.push t.cblk.mSingleStateQueue t.mMutator u
  { t with
    cblk := { t.cblk with mSingleStateQueue := r.1 }
    mMutator := r.2.1
    hist := { t.hist with pushed := some u } }

def framesReady (frameCount : Nat) (t : StaticTrack) : StaticTrack :=
  let r := t.server.framesReady frameCount t.cblk
  { t with
    cblk := r.1
    server := r.2.1
    hist := if t.server.mFramesReadyIsCalledByMultipleThreads then t.hist
      else t.polled frameCount }

/-
  An obtained buffer replaces the one before. A call that only acknowledges a flush has no buffer to
  release; its caller may be another one (`Track::start`).
-/
def obtainBuffer (frameCount : Nat) (t : StaticTrack) (ask : Nat) (ackFlush : Bool) : StaticTrack :=
  match t.server.obtainBuffer frameCount t.cblk ask ackFlush with
  | none => { t with fatal := true }
  | some (cblk, server, _, buffer) =>
    let hist := if t.server.mIsShutdown then t.hist else t.polled frameCount
    if ackFlush then { t with cblk := cblk, server := server, hist := hist }
    else
      { t with
        cblk := cblk
        server := server
        held := Held.ofBuffer buffer
        hist := { hist with moved := false } }

def releaseBuffer (frameCount : Nat) (t : StaticTrack) (count : Nat) : StaticTrack :=
  match t.server.releaseBuffer frameCount t.cblk (t.held.toBuffer count) with
  | none => { t with fatal := true }
  | some (cblk, server, _) =>
    { t with
      cblk := cblk
      server := server
      held := t.held.drop count
      hist :=
        { t.hist with
          delivered := t.hist.delivered ++ List.range' t.held.raw count } }

/- After a `LOG_ALWAYS_FATAL_IF` the process is gone. -/
def step (frameCount : Nat) (t : StaticTrack) : StaticAction → Option StaticTrack
| .push u => if t.fatal then none else some (t.push u)
| .framesReadyIsCalledByMultipleThreads =>
  if t.fatal then none
  else
    some
      { t with
        server :=
          { t.server with
            mFramesReadyIsCalledByMultipleThreads := true } }
| .framesReady => if t.fatal then none else some (t.framesReady frameCount)
| .obtainBuffer ask ackFlush =>
  if t.fatal then none
  else some (t.obtainBuffer frameCount ask ackFlush)
| .releaseBuffer count =>
  if t.fatal ∨ t.held.count < count then none
  else some (t.releaseBuffer frameCount count)

/- The server looks for new states only while it holds no frames. -/
def PollsIdle (t : StaticTrack) : StaticAction → Prop
| .framesReady | .obtainBuffer _ false => t.held.count = 0 ∨ t.news = none
| .obtainBuffer _ true => t.held.count = 0
| .push _ | .framesReadyIsCalledByMultipleThreads
| .releaseBuffer _ => True

instance (t : StaticTrack) : (a : StaticAction) → Decidable (PollsIdle t a)
| .framesReady | .obtainBuffer _ false =>
  inferInstanceAs (Decidable (t.held.count = 0 ∨ t.news = none))
| .obtainBuffer _ true => inferInstanceAs (Decidable (t.held.count = 0))
| .push _ | .framesReadyIsCalledByMultipleThreads
| .releaseBuffer _ => inferInstanceAs (Decidable True)

end StaticTrack

end AudioTrackShared

end FrameworksAv
