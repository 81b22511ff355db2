import FrameworksAv.AudioTrackShared.StaticPlayback

/-
  Polls between the obtaining and the release of frames: the frames of the old state are released
  under the new one.

  Main declarations:
    * `StaticTrack.Safe`, `StaticTrack.Fits`
    * `StaticTrack.safe_iff_fits`
    * `StaticTrack.exec_window`
-/

--
-- Releases Under A New State
--

namespace FrameworksAv

namespace AudioTrackShared

/- In front of the end of the loop, if one is playing. -/
def StaticState.InRegion (frameCount : Nat) (s : StaticState) : Prop :=
  s.mPosition.toNat ≤ frameCount ∧ (s.mLoopCount ≠ 0 → s.mPosition.toNat < s.mLoopEnd.toNat)

theorem StaticState.inRegion_of_wf {frameCount : Nat} {s : StaticState}
    (h : s.playback.Wf frameCount minLoop) : s.InRegion frameCount := by
  constructor
  · exact h.position_le
  · intro hCount
    exact (h.loop (toInt_ne_zero.mpr hCount)).2.2.2

namespace StaticServer

variable {frameCount : Nat} {p : StaticServer}

/- A release behind the next jump leaves the region. -/
theorem advance_outside (hSize : frameCount < 2 ^ 32) {s : StaticState}
    (hWf : s.playback.Wf frameCount minLoop) (hLoops : s.mLoopCount ≠ 0) {count : Nat}
    (hLt : count < 2 ^ 32) (hOutside : s.mLoopEnd.toNat - s.mPosition.toNat < count) :
    ¬ (advance frameCount s count).1.InRegion frameCount := by
  have hLoop := hWf.loop (toInt_ne_zero.mpr hLoops)
  have hEnd : s.mLoopEnd.toNat ≤ frameCount := hLoop.2.1
  have hBefore : s.mPosition.toNat < s.mLoopEnd.toNat := hLoop.2.2.2
  intro hRegion
  have hAfter := hRegion.2
  unfold advance at hAfter
  simp only at hAfter
  by_cases hClip :
      ¬ (s.mPosition.toNat ≤ (s.mPosition.toNat + count) % 2 ^ 32 ∧
          (s.mPosition.toNat + count) % 2 ^ 32 ≤ frameCount)
  · rw [if_pos hClip] at hAfter
    have hLess := hAfter hLoops
    rw [BitVec.toNat_ofNat, Nat.mod_eq_of_lt hSize] at hLess
    omega
  · rw [if_neg hClip] at hAfter
    have hJump :
        ¬ (s.mLoopCount ≠ 0 ∧ (s.mPosition.toNat + count) % 2 ^ 32 = s.mLoopEnd.toNat) := by
      rintro ⟨-, hEq⟩
      omega
    rw [if_neg hJump] at hAfter
    have hLess := hAfter hLoops
    simp only [BitVec.toNat_ofNat, Nat.mod_mod] at hLess
    omega

/- A release is fine exactly in front of the next jump. -/
theorem releaseBuffer_inRegion_iff (hSize : frameCount < 2 ^ 32) (h : p.Inv frameCount)
    (c : StaticCblk) (buffer : Buffer) (hUnreleased : buffer.mFrameCount ≤ p.mUnreleased)
    (hLt : buffer.mFrameCount < 2 ^ 32) :
    (∃ d q null,
      releaseBuffer frameCount c p buffer = some (d, q, null) ∧ q.mState.InRegion frameCount) ↔
      buffer.mFrameCount ≤ stop frameCount p.mState - p.mState.mPosition.toNat := by
  have hStop := stop_playback frameCount p.mState
  constructor
  · rintro ⟨d, q, null, hCall, hRegion⟩
    by_contra hOutside
    unfold releaseBuffer at hCall
    simp only at hCall
    by_cases hReady : ¬ (buffer.mFrameCount : Int) ≤ p.mFramesReady
    · rw [if_pos hReady] at hCall
      cases hCall
    · rw [if_neg hReady, if_neg (not_not_intro hUnreleased), if_neg (by omega)] at hCall
      by_cases hLoops : p.mState.mLoopCount = 0
      · -- without a loop the rest of the buffer is counted
        have hCount : p.mState.playback.loopCount = 0 := by
          simp [StaticState.playback, hLoops]
        have hRest := h.ready
        unfold remaining Playback.frames at hRest
        rw [if_neg (by omega), if_pos hCount, List.length_range'] at hRest
        have hPosition : p.mState.playback.position = p.mState.mPosition.toNat := rfl
        unfold stop at hOutside
        rw [if_neg (not_not_intro hLoops)] at hOutside
        omega
      · have hOut :=
          advance_outside hSize h.wf hLoops hLt
            (by
              unfold stop at hOutside
              rw [if_pos hLoops] at hOutside
              omega)
        generalize advance frameCount p.mState buffer.mFrameCount = r at hCall hOut
        rcases r with ⟨s, flags⟩
        simp only [pushPosLoop] at hCall
        cases hCall
        exact hOut hRegion
  · intro hInside
    have hCount :
        buffer.mFrameCount ≤ p.mState.playback.stop frameCount - p.mState.playback.position := by
      rw [← hStop]
      exact hInside
    rcases releaseBuffer_inside hSize h c buffer hUnreleased hCount with
      ⟨d, q, hCall, -, -, -, -, -, hInv⟩
    exact ⟨d, q, _, hCall, StaticState.inRegion_of_wf hInv.wf⟩

end StaticServer

--
-- Windows
--

namespace StaticTrack

variable {frameCount : Nat}

/-
  A release is safe if no assertion fails, the position is in the region of the new state, and a
  position that was set since the frames were obtained stays where it is.
-/
def Safe (frameCount : Nat) (t : StaticTrack) (count : Nat) : Prop :=
  (t.releaseBuffer frameCount count).fatal = false ∧
    (t.releaseBuffer frameCount count).server.mState.InRegion frameCount ∧
    (t.hist.moved = true →
      (t.releaseBuffer frameCount count).server.mState.mPosition = t.server.mState.mPosition)

/-
  The frames end in front of the next jump of the new state; if the position was set, they are one
  whole turn of the new loop from its start.
-/
def Fits (frameCount : Nat) (t : StaticTrack) (count : Nat) : Prop :=
  if t.hist.moved = true then
    count = 0 ∨
      (t.server.mState.mLoopCount ≠ 0 ∧ t.server.mState.mPosition = t.server.mState.mLoopStart ∧
        t.server.mState.mPosition.toNat + count = t.server.mState.mLoopEnd.toNat)
  else count ≤ StaticServer.stop frameCount t.server.mState - t.server.mState.mPosition.toNat

instance (frameCount : Nat) (t : StaticTrack) (count : Nat) : Decidable (t.Fits frameCount count) :=
  if hMoved : t.hist.moved = true then
    decidable_of_iff
      (count = 0 ∨
        (t.server.mState.mLoopCount ≠ 0 ∧ t.server.mState.mPosition = t.server.mState.mLoopStart ∧
          t.server.mState.mPosition.toNat + count = t.server.mState.mLoopEnd.toNat))
      (by rw [Fits, if_pos hMoved])
  else
    decidable_of_iff
      (count ≤ StaticServer.stop frameCount t.server.mState - t.server.mState.mPosition.toNat)
      (by rw [Fits, if_neg hMoved])

/- Every state that is taken in a window is valid. -/
def NewsValid (frameCount : Nat) (t : StaticTrack) : Prop :=
  ∀ u ∈ t.news, StaticServer.Accepts frameCount t.server.mState u

instance (frameCount : Nat) (s u : StaticState) : Decidable (StaticServer.Accepts frameCount s u) :=
  inferInstanceAs (Decidable ((_ → _) ∧ (_ → _)))

instance (frameCount : Nat) (t : StaticTrack) : Decidable (t.NewsValid frameCount) :=
  inferInstanceAs (Decidable (∀ u ∈ t.news, _))

/- Valid states may be taken at any time, and every release fits. -/
def ReleasesFit (frameCount : Nat) (t : StaticTrack) : StaticAction → Prop
| .framesReady | .obtainBuffer _ true => t.held.count = 0 ∨ t.NewsValid frameCount
| .releaseBuffer count => t.Fits frameCount count
| .push _ | .framesReadyIsCalledByMultipleThreads
| .obtainBuffer _ false => True

instance (frameCount : Nat) (t : StaticTrack) :
    (a : StaticAction) → Decidable (ReleasesFit frameCount t a)
| .framesReady | .obtainBuffer _ true =>
  inferInstanceAs (Decidable (t.held.count = 0 ∨ t.NewsValid frameCount))
| .releaseBuffer count => inferInstanceAs (Decidable (t.Fits frameCount count))
| .push _ | .framesReadyIsCalledByMultipleThreads
| .obtainBuffer _ false => inferInstanceAs (Decidable True)

/- The state can be played and no frame is forgotten. -/
structure WindowInv (frameCount : Nat) (t : StaticTrack) : Prop where
  server : t.server.Inv frameCount
  unreleased : t.server.mUnreleased = t.held.count
  held_le : t.held.count ≤ frameCount
  shutdown : 0 < t.held.count → t.server.mIsShutdown = false
  fatal : t.fatal = false

theorem WindowInv.init (frameCount : Nat) : (init frameCount).WindowInv frameCount := by
  have hInit := Inv.init frameCount
  constructor
  · exact hInit.server
  · rfl
  · exact Nat.zero_le _
  · intro hPos
    cases hPos
  · rfl

/- A position stays only through a whole turn of a loop. -/
theorem advance_position_iff {b : Playback} {count : Nat} (hPos : count ≠ 0) :
    (b.advance count).position = b.position ↔
      b.loopCount ≠ 0 ∧ b.position = b.loopStart ∧ b.position + count = b.loopEnd := by
  unfold Playback.advance
  by_cases hJump : b.loopCount ≠ 0 ∧ b.position + count = b.loopEnd
  · rw [if_pos hJump]
    simp only
    constructor
    · intro hStart
      exact ⟨hJump.1, hStart.symm, hJump.2⟩
    · rintro ⟨-, hStart, -⟩
      exact hStart.symm
  · rw [if_neg hJump]
    simp only
    constructor
    · intro hStay
      omega
    · rintro ⟨hLoops, -, hEnd⟩
      exact absurd ⟨hLoops, hEnd⟩ hJump

/- What a release in front of the next jump does. -/
theorem WindowInv.release_inside (hSize : frameCount < 2 ^ 32) {t : StaticTrack}
    (h : t.WindowInv frameCount) {count : Nat} (hCount : count ≤ t.held.count)
    (hInside :
      count ≤ StaticServer.stop frameCount t.server.mState - t.server.mState.mPosition.toNat) :
    (t.releaseBuffer frameCount count).WindowInv frameCount ∧
      (t.releaseBuffer frameCount count).server.mState.playback =
        t.server.mState.playback.advance count := by
  have hHeld := h.held_le
  have hUnreleased : count ≤ t.server.mUnreleased := by
    rw [h.unreleased]
    exact hCount
  have hStop := StaticServer.stop_playback frameCount t.server.mState
  have hFits :
      count ≤ t.server.mState.playback.stop frameCount - t.server.mState.playback.position := by
    rw [← hStop]
    exact hInside
  rcases StaticServer.releaseBuffer_inside hSize h.server t.cblk
      (t.held.toBuffer count) hUnreleased hFits with
    ⟨d, q, hCall, -, -, hShutdown, hLeft, hNext, hServer⟩
  unfold StaticTrack.releaseBuffer
  rw [hCall]
  refine ⟨?_, hNext⟩
  constructor
  · exact hServer
  · simp only [hLeft, h.unreleased, Held.drop, Held.toBuffer]
  · simp only [Held.drop]
    omega
  · simp only [Held.drop]
    intro hPos
    rw [hShutdown]
    exact h.shutdown (by omega)
  · exact h.fatal

/- A release is in the region if it ends before the jump. -/
theorem WindowInv.inside_iff (hSize : frameCount < 2 ^ 32) {t : StaticTrack}
    (h : t.WindowInv frameCount) {count : Nat} (hCount : count ≤ t.held.count) :
    ((t.releaseBuffer frameCount count).fatal = false ∧
        (t.releaseBuffer frameCount count).server.mState.InRegion frameCount) ↔
      count ≤ StaticServer.stop frameCount t.server.mState - t.server.mState.mPosition.toNat := by
  have hUnreleased : count ≤ t.server.mUnreleased := by
    rw [h.unreleased]
    exact hCount
  have hHeld := h.held_le
  have hLt : count < 2 ^ 32 := by
    omega
  refine Iff.trans ?_
    (StaticServer.releaseBuffer_inRegion_iff hSize h.server
      t.cblk (t.held.toBuffer count) hUnreleased hLt)
  unfold StaticTrack.releaseBuffer
  cases hCall : t.server.releaseBuffer frameCount t.cblk (t.held.toBuffer count) with
  | none => simp
  | some r =>
    rcases r with ⟨d, q, null⟩
    simp [h.fatal]

/- Exactly the releases that fit are safe. -/
theorem safe_iff_fits (hSize : frameCount < 2 ^ 32) {t : StaticTrack} (h : t.WindowInv frameCount)
    {count : Nat} (hCount : count ≤ t.held.count) :
    t.Safe frameCount count ↔ t.Fits frameCount count := by
  have hWf := h.server.wf
  have hRegion := h.inside_iff hSize hCount
  -- and then the position is that of the unrolled loop
  have hStays :
      count ≠ 0 →
        count ≤ StaticServer.stop frameCount t.server.mState - t.server.mState.mPosition.toNat →
          ((t.releaseBuffer frameCount count).server.mState.mPosition = t.server.mState.mPosition ↔
            t.server.mState.mLoopCount ≠ 0 ∧
              t.server.mState.mPosition = t.server.mState.mLoopStart ∧
              t.server.mState.mPosition.toNat + count = t.server.mState.mLoopEnd.toNat) := by
    intro hPos hInside
    have hNext := (h.release_inside hSize hCount hInside).2
    have hIff := advance_position_iff (b := t.server.mState.playback) hPos
    rw [← hNext] at hIff
    simp only [StaticState.playback, BitVec.toNat_inj] at hIff
    rw [hIff]
    exact and_congr_left' toInt_ne_zero
  unfold Safe Fits
  rw [← and_assoc, hRegion]
  by_cases hMoved : t.hist.moved = true
  · simp only [hMoved, if_true, forall_const]
    constructor
    · rintro ⟨hInside, hSame⟩
      by_cases hZero : count = 0
      · exact Or.inl hZero
      · exact Or.inr ((hStays hZero hInside).mp hSame)
    · rintro (hZero | hTurn)
      · have hInside :
            count ≤
              StaticServer.stop frameCount t.server.mState - t.server.mState.mPosition.toNat := by
          omega
        refine ⟨hInside, ?_⟩
        have hNext := (h.release_inside hSize hCount hInside).2
        apply BitVec.eq_of_toNat_eq
        change
          (t.releaseBuffer frameCount count).server.mState.playback.position =
            t.server.mState.playback.position
        rw [hNext, hZero]
        unfold Playback.advance
        rw [if_neg]
        · rfl
        · rintro ⟨hLoops, hEnd⟩
          have hBefore := (hWf.loop hLoops).2.2.2
          omega
      · have hLoop := hWf.loop (toInt_ne_zero.mpr hTurn.1)
        have hInside :
            count ≤
              StaticServer.stop frameCount t.server.mState - t.server.mState.mPosition.toNat := by
          unfold StaticServer.stop
          rw [if_pos hTurn.1]
          omega
        have hBefore : t.server.mState.mPosition.toNat < t.server.mState.mLoopEnd.toNat :=
          hLoop.2.2.2
        exact ⟨hInside, (hStays (by omega) hInside).mpr hTurn⟩
  · simp only [hMoved, if_false, Bool.false_eq_true, false_implies, and_true]

/- A poll in a window. -/
theorem WindowInv.pollPosition {t : StaticTrack} (h : t.WindowInv frameCount)
    (hValid : t.held.count = 0 ∨ t.NewsValid frameCount) :
    let r := t.server.pollPosition frameCount t.cblk
    r.2.1.Inv frameCount ∧ r.2.1.mUnreleased = t.held.count ∧
      (0 < t.held.count → r.2.1.mIsShutdown = false ∧ r.2.2 = true) := by
  have hServer := h.server.pollPosition t.cblk
  refine ⟨hServer, ?_⟩
  rcases StaticServer.pollPosition_cases frameCount t.cblk t.server with
    ⟨-, hSame⟩ | ⟨u, hNews, -, -, -, hUnreleased, -, hTaken⟩
  · rw [hSame]
    exact ⟨h.unreleased, fun hPos => ⟨h.shutdown hPos, rfl⟩⟩
  · refine ⟨by rw [hUnreleased, h.unreleased], ?_⟩
    intro hPos
    rcases hTaken with ⟨hUpdate, -⟩ | ⟨s, -, -, -, hShutdown, hFlag⟩
    · rcases hValid with hEmpty | hValid
      · omega
      · have hSome : t.news = some u := hNews
        have hAccepts := hValid u hSome
        rw [← StaticServer.updateState_isSome h.server.wf u, hUpdate] at hAccepts
        cases hAccepts
    · rw [hShutdown]
      exact ⟨h.shutdown hPos, hFlag⟩

theorem WindowInv.framesReady {t : StaticTrack} (h : t.WindowInv frameCount)
    (hValid : t.held.count = 0 ∨ t.NewsValid frameCount) :
    (t.framesReady frameCount).WindowInv frameCount := by
  have hPolled := h.pollPosition hValid
  unfold StaticTrack.framesReady StaticServer.framesReady
  by_cases hThreads : t.server.mFramesReadyIsCalledByMultipleThreads = true
  · simp only [hThreads, if_true]
    exact ⟨h.server, h.unreleased, h.held_le, h.shutdown, h.fatal⟩
  · simp only [hThreads, if_false, Bool.false_eq_true]
    exact ⟨hPolled.1, hPolled.2.1, h.held_le, fun hPos => (hPolled.2.2 hPos).1, h.fatal⟩

theorem WindowInv.obtainBuffer_ackFlush (hSize : frameCount < 2 ^ 31) {t : StaticTrack}
    (h : t.WindowInv frameCount) (ask : Nat) (hValid : t.held.count = 0 ∨ t.NewsValid frameCount) :
    (t.obtainBuffer frameCount ask true).WindowInv frameCount := by
  have hPolled := h.pollPosition hValid
  unfold StaticTrack.obtainBuffer
  rcases StaticServer.obtainBuffer_cases (by omega) h.server t.cblk ask true with
    ⟨hShutdown, hCall⟩ | ⟨hShutdown, ⟨hCall, hFailed⟩ | ⟨buffer, hCall, -⟩⟩
  · have hEmpty : t.held.count = 0 := by
      by_contra hHeld
      rw [h.shutdown (by omega)] at hShutdown
      cases hShutdown
    rw [hCall]
    simp only [if_true]
    constructor
    · exact ⟨h.server.wf, h.server.ready⟩
    · exact hEmpty.symm
    · exact h.held_le
    · intro hPos
      simp only at hPos
      omega
    · exact h.fatal
  · have hEmpty : t.held.count = 0 := by
      by_contra hHeld
      have hLive := hPolled.2.2 (by omega)
      have hPosition := hPolled.1.wf.position_le
      rcases hFailed with hFlag | hNegative
      · rw [hLive.2] at hFlag
        cases hFlag
      · rw [BitVec.toInt_neg_iff] at hNegative
        simp only [StaticState.playback] at hPosition
        omega
    rw [hCall]
    simp only [if_true]
    constructor
    · exact ⟨hPolled.1.wf, hPolled.1.ready⟩
    · exact hEmpty.symm
    · exact h.held_le
    · intro hPos
      simp only at hPos
      omega
    · exact h.fatal
  · rw [hCall]
    simp only [if_true]
    exact ⟨hPolled.1, hPolled.2.1, h.held_le, fun hPos => (hPolled.2.2 hPos).1, h.fatal⟩

theorem WindowInv.obtainBuffer (hSize : frameCount < 2 ^ 32) {t : StaticTrack}
    (h : t.WindowInv frameCount) (ask : Nat) :
    (t.obtainBuffer frameCount ask false).WindowInv frameCount := by
  have hServer := h.server.pollPosition t.cblk
  unfold StaticTrack.obtainBuffer
  rcases StaticServer.obtainBuffer_cases hSize h.server t.cblk ask false with
    ⟨hShutdown, hCall⟩ | ⟨hShutdown, ⟨hCall, hFailed⟩ | ⟨buffer, hCall, hCount, -, hFlag⟩⟩
  · rw [hCall]
    simp only [if_false, Bool.false_eq_true]
    constructor
    · exact ⟨h.server.wf, h.server.ready⟩
    · rfl
    · exact Nat.zero_le _
    · intro hPos
      cases hPos
    · exact h.fatal
  · rw [hCall]
    simp only [if_false, Bool.false_eq_true]
    constructor
    · exact ⟨hServer.wf, hServer.ready⟩
    · rfl
    · exact Nat.zero_le _
    · intro hPos
      cases hPos
    · exact h.fatal
  · have hWhole :
        (t.server.pollPosition frameCount t.cblk).2.1.mState.playback.stop frameCount ≤
          frameCount :=
      hServer.wf.stop_le
    rw [hCall]
    simp only [if_false, Bool.false_eq_true]
    constructor
    · exact ⟨hServer.wf, hServer.ready⟩
    · rfl
    · simp only [Held.ofBuffer]
      omega
    · intro _
      rcases StaticServer.pollPosition_cases frameCount t.cblk t.server with
        ⟨-, hSame⟩ | ⟨u, -, -, -, -, -, -, ⟨-, -, -, -, hFail⟩ | ⟨s, -, -, -, hSame, -⟩⟩
      · simp only [hSame, hShutdown]
      · rw [hFail] at hFlag
        cases hFlag
      · simp only [hSame, hShutdown]
    · exact h.fatal

theorem WindowInv.step (hSize : frameCount < 2 ^ 31) {t t' : StaticTrack} {a : StaticAction}
    (h : t.WindowInv frameCount)
    (hStep : Run.guarded (ReleasesFit frameCount) (StaticTrack.step frameCount) t a = some t') :
    t'.WindowInv frameCount := by
  rcases Run.guarded_eq_some.mp hStep with ⟨hOk, hNext⟩
  cases a with
  | push u =>
    simp only [StaticTrack.step, h.fatal, Bool.false_eq_true, if_false, Option.some.injEq] at hNext
    rw [← hNext]
    exact ⟨h.server, h.unreleased, h.held_le, h.shutdown, h.fatal⟩
  | framesReadyIsCalledByMultipleThreads =>
    simp only [StaticTrack.step, h.fatal, Bool.false_eq_true, if_false, Option.some.injEq] at hNext
    rw [← hNext]
    exact ⟨⟨h.server.wf, h.server.ready⟩, h.unreleased, h.held_le, h.shutdown, rfl⟩
  | framesReady =>
    simp only [StaticTrack.step, h.fatal, Bool.false_eq_true, if_false, Option.some.injEq] at hNext
    rw [← hNext]
    exact h.framesReady hOk
  | obtainBuffer ask ackFlush =>
    simp only [StaticTrack.step, h.fatal, Bool.false_eq_true, if_false, Option.some.injEq] at hNext
    rw [← hNext]
    cases ackFlush with
    | true => exact h.obtainBuffer_ackFlush hSize ask hOk
    | false => exact h.obtainBuffer (by omega) ask
  | releaseBuffer count =>
    simp only [StaticTrack.step, h.fatal, Bool.false_eq_true, false_or] at hNext
    by_cases hCount : t.held.count < count
    · rw [if_pos hCount] at hNext
      cases hNext
    · rw [if_neg hCount] at hNext
      cases hNext
      have hLe := Nat.le_of_not_lt hCount
      have hSafe := (safe_iff_fits (by omega) h hLe).mpr hOk
      exact
        (h.release_inside (by omega) hLe ((h.inside_iff (by omega) hLe).mp ⟨hSafe.1, hSafe.2.1⟩)).1

/-
  In every run whose releases all fit, whatever valid states are taken in between, no assertion
  fails and the position is in its region; and exactly the releases that fit are safe.
-/
theorem exec_window {frameCount : Nat} (hSize : frameCount < 2 ^ 31) {as : List StaticAction}
    {t : StaticTrack}
    (hRun :
      Run.exec (Run.guarded (ReleasesFit frameCount) (step frameCount))
          (init frameCount) as = some t) :
    t.fatal = false ∧ t.server.mState.InRegion frameCount ∧
      ∀ count, count ≤ t.held.count → (t.Safe frameCount count ↔ t.Fits frameCount count) := by
  have hInv : t.WindowInv frameCount :=
    Run.exec_invariant (fun _ _ _ h hStep => h.step hSize hStep) hRun (WindowInv.init frameCount)
  exact ⟨hInv.fatal, StaticState.inRegion_of_wf hInv.server.wf,
    fun _ hCount => safe_iff_fits (by omega) hInv hCount⟩

/- A loop is set while frames from before it are held. -/
def fittingRun : List StaticAction :=
  [.obtainBuffer 16 false, .push ⟨0, 32, -1, 1, 0, 0⟩,
    .framesReady, .releaseBuffer 16, .obtainBuffer 8 false]

theorem exec_window_fitting :
    ∃ t,
      Run.exec (Run.guarded (ReleasesFit 64) (step 64)) (init 64) fittingRun = some t ∧
        t.fatal = false ∧ t.server.mState.InRegion 64 ∧
        ∀ count, count ≤ t.held.count → (t.Safe 64 count ↔ t.Fits 64 count) := by
  have hSome :
      (Run.exec (Run.guarded (ReleasesFit 64) (step 64)) (init 64) fittingRun).isSome = true := by
    decide
  rcases Option.isSome_iff_exists.mp hSome with ⟨t, hRun⟩
  exact ⟨t, hRun, exec_window (by decide) hRun⟩

/-
  All frames are held when the client moves the position to the end; the next poll leaves no frames,
  and the release of the frames fails its assertion. With a position in the middle it moves the
  position on.
-/
def movedRun (position : Word) : List StaticAction :=
  [.obtainBuffer 32 false, .push ⟨0, 0, 0, 0, position, 1⟩, .framesReady, .releaseBuffer 16]

theorem exec_window_moved :
    (∃ t, Run.exec (step 32) (init 32) (movedRun 32) = some t ∧ t.fatal = true) ∧
      ∃ t, Run.exec (step 32) (init 32) (movedRun 4) = some t ∧ t.server.mState.mPosition = 20 := by
  constructor
  · have hSome :
        (Run.exec (step 32) (init 32) (movedRun 32)).map (fun t => t.fatal) = some true := by
      decide
    exact Option.map_eq_some_iff.mp hSome
  · have hSome :
        (Run.exec (step 32) (init 32) (movedRun 4)).map (fun t => t.server.mState.mPosition) =
          some 20 := by
      decide
    exact Option.map_eq_some_iff.mp hSome

end StaticTrack

end AudioTrackShared

end FrameworksAv
