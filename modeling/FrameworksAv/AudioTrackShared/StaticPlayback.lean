import FrameworksAv.AudioTrackShared.StaticTrack

/-
  Playback of a static track: while new states are looked for only between buffers, the server
  delivers exactly the frames of the unrolled loop.

  Main declarations:
    * `pollPosition_cases`
    * `StaticTrack.Inv`, `StaticTrack.Inv.step`
    * `StaticTrack.exec_playback`
-/

--
-- Polls
--

namespace FrameworksAv

namespace AudioTrackShared

open SingleStateQueue (Shared Mutator Observer)

/- A poll changes neither the sequence nor the value. -/
theorem poll_shared {T : Type} (shared : Shared T) (o : Observer) :
    (Observer.poll shared o).1.mSequence = shared.mSequence ∧
      (Observer.poll shared o).1.mValue = shared.mValue := by
  unfold Observer.poll
  simp only
  split
  · exact ⟨rfl, rfl⟩
  · split <;> exact ⟨rfl, rfl⟩

theorem poll_eq_none {T : Type} {shared : Shared T} {o : Observer}
    (hNone : (Observer.poll shared o).2.2 = none) : Observer.poll shared o = (shared, o, none) := by
  unfold Observer.poll at *
  simp only at *
  split
  · rfl
  · split
    · rfl
    · rename_i hNew hEven
      rw [if_neg hNew, if_neg hEven] at hNone
      cases hNone

theorem poll_eq_some {T : Type} {shared : Shared T} {o : Observer} {value : T}
    (hSome : (Observer.poll shared o).2.2 = some value) :
    shared.mSequence ≠ o.mSequence ∧ shared.mValue = value ∧
      (Observer.poll shared o).2.1.mSequence = shared.mSequence := by
  unfold Observer.poll at *
  simp only at *
  by_cases hSame : shared.mSequence = o.mSequence
  · rw [if_pos hSame] at hSome
    cases hSome
  · rw [if_neg hSame] at hSome ⊢
    by_cases hOdd : shared.mSequence &&& 1 ≠ 0
    · rw [if_pos hOdd] at hSome
      cases hSome
    · rw [if_neg hOdd] at hSome ⊢
      exact ⟨hSame, Option.some.inj hSome, rfl⟩

namespace StaticServer

variable {frameCount : Nat}

/- What `pollPosition` does to the server. -/
theorem pollPosition_cases (frameCount : Nat) (c : StaticCblk) (p : StaticServer) :
    ((Observer.poll c.mSingleStateQueue p.mObserver).2.2 = none ∧
      pollPosition frameCount c p = (c, p, true)) ∨
    ∃ u, (Observer.poll c.mSingleStateQueue p.mObserver).2.2 = some u ∧
      let r := pollPosition frameCount c p
      r.1.mSingleStateQueue.mSequence = c.mSingleStateQueue.mSequence ∧
        r.1.mSingleStateQueue.mValue = c.mSingleStateQueue.mValue ∧
        r.2.1.mObserver.mSequence = c.mSingleStateQueue.mSequence ∧
        r.2.1.mUnreleased = p.mUnreleased ∧
        r.2.1.mFramesReadyIsCalledByMultipleThreads = p.mFramesReadyIsCalledByMultipleThreads ∧
        ((updateState frameCount p.mState u = none ∧ r.2.1.mState = p.mState ∧
            r.2.1.mFramesReady = p.mFramesReady ∧ r.2.1.mIsShutdown = true ∧ r.2.2 = false) ∨
          ∃ s,
            updateState frameCount p.mState u = some s ∧ r.2.1.mState = s ∧
              r.2.1.mFramesReady = framesReadyOf frameCount p.mFramesReady s ∧
              r.2.1.mIsShutdown = p.mIsShutdown ∧ r.2.2 = true) := by
  cases hPoll : (Observer.poll c.mSingleStateQueue p.mObserver).2.2 with
  | none =>
    left
    refine ⟨rfl, ?_⟩
    unfold pollPosition
    rw [poll_eq_none hPoll]
  | some u =>
    right
    have hShared := poll_shared c.mSingleStateQueue p.mObserver
    have hSome := poll_eq_some hPoll
    refine ⟨u, rfl, ?_⟩
    unfold pollPosition
    generalize Observer.poll c.mSingleStateQueue p.mObserver = poll at hPoll hShared hSome
    rcases poll with ⟨queue, observer, news⟩
    simp only at hPoll hShared hSome
    subst hPoll
    simp only
    cases hUpdate : updateState frameCount p.mState u with
    | none => exact ⟨hShared.1, hShared.2, hSome.2.2, rfl, rfl, Or.inl ⟨rfl, rfl, rfl, rfl, rfl⟩⟩
    | some s =>
      exact ⟨hShared.1, hShared.2, hSome.2.2, rfl, rfl, Or.inr ⟨s, rfl, rfl, rfl, rfl, rfl⟩⟩

end StaticServer

--
-- Calls Of The Server
--

/- The state can be played and what is left is counted. -/
structure StaticServer.Inv (frameCount : Nat) (p : StaticServer) : Prop where
  wf : p.mState.playback.Wf frameCount minLoop
  ready : p.mFramesReady = StaticServer.remaining frameCount p.mState

namespace StaticServer

variable {frameCount : Nat} {p : StaticServer}

theorem Inv.pollPosition (h : p.Inv frameCount) (c : StaticCblk) :
    (pollPosition frameCount c p).2.1.Inv frameCount := by
  rcases pollPosition_cases frameCount c p with
    ⟨-, hSame⟩ | ⟨u, -, -, -, -, -, -, hRefused | hTaken⟩
  · rw [hSame]
    exact h
  · rcases hRefused with ⟨-, hState, hReady, -, -⟩
    constructor
    · rw [hState]
      exact h.wf
    · rw [hReady, hState]
      exact h.ready
  · rcases hTaken with ⟨s, hUpdate, hState, hReady, -, -⟩
    have hWf := updateState_wf h.wf hUpdate
    constructor
    · rw [hState]
      exact hWf
    · rw [hReady, hState]
      exact framesReadyOf_eq hWf p.mFramesReady

/- `obtainBuffer` never fails its assertion. -/
theorem obtainBuffer_cases (hSize : frameCount < 2 ^ 32) (h : p.Inv frameCount) (c : StaticCblk)
    (ask : Nat) (ackFlush : Bool) :
    (p.mIsShutdown = true ∧
      obtainBuffer frameCount c p ask ackFlush =
        some
          (c, { p with mUnreleased := 0 }, .noInit,
            Buffer.null)) ∨
    (p.mIsShutdown = false ∧
      let r := StaticServer.pollPosition frameCount c p
      (obtainBuffer frameCount c p ask ackFlush =
            some
              (r.1, { r.2.1 with mUnreleased := 0 }, .noInit,
                Buffer.null) ∧
          (r.2.2 = false ∨ r.2.1.mState.mPosition.toInt < 0)) ∨
        ∃ buffer : Buffer,
          obtainBuffer frameCount c p ask ackFlush =
              some
                (r.1, if ackFlush then r.2.1
                  else
                    { r.2.1 with
                      mUnreleased := buffer.mFrameCount },
                  .noError, buffer) ∧
            buffer.mFrameCount ≤
              r.2.1.mState.playback.stop frameCount - r.2.1.mState.playback.position ∧
            (0 < buffer.mFrameCount → buffer.mRaw = some r.2.1.mState.playback.position) ∧
            r.2.2 = true) := by
  have hPolled := h.pollPosition c
  unfold obtainBuffer
  by_cases hShutdown : p.mIsShutdown = true
  · left
    rw [if_pos hShutdown]
    exact ⟨hShutdown, rfl⟩
  · right
    rw [if_neg hShutdown]
    refine ⟨by simpa using hShutdown, ?_⟩
    generalize StaticServer.pollPosition frameCount c p = r at hPolled
    rcases r with ⟨d, q, polled⟩
    simp only at hPolled ⊢
    split
    · rename_i hFailed
      exact Or.inl ⟨rfl, by simpa using hFailed⟩
    · rename_i hFine
      have hPolledTrue : polled = true := by
        by_contra hFalse
        exact hFine (Or.inl hFalse)
      right
      have hStop := stop_playback frameCount q.mState
      have hPosition : q.mState.playback.position = q.mState.mPosition.toNat :=
        rfl
      generalize hAvail :
        (if q.mState.mPosition.toNat < StaticServer.stop frameCount q.mState then
          min (StaticServer.stop frameCount q.mState - q.mState.mPosition.toNat) ask
        else 0) = avail
      have hLe : avail ≤ q.mState.playback.stop frameCount - q.mState.playback.position := by
        rw [← hAvail, hStop, hPosition]
        split <;> omega
      have hReady := stop_le_remaining hSize hPolled.wf hLe
      rw [← hPolled.ready] at hReady
      rw [if_neg (by omega)]
      refine
        ⟨{ mFrameCount := avail
           mRaw := _
           mNonContig := _ }, rfl, ?_, ?_, hPolledTrue⟩
      · exact hLe
      · intro hPos
        simp only at hPos ⊢
        by_cases hInside : q.mState.mPosition.toNat < StaticServer.stop frameCount q.mState
        · rw [if_pos hInside]
          rfl
        · rw [if_neg hInside] at hAvail
          omega

/- Frames in front of the next jump are released. -/
theorem releaseBuffer_inside (hSize : frameCount < 2 ^ 32) (h : p.Inv frameCount) (c : StaticCblk)
    (buffer : Buffer) (hUnreleased : buffer.mFrameCount ≤ p.mUnreleased)
    (hCount : buffer.mFrameCount ≤ p.mState.playback.stop frameCount - p.mState.playback.position) :
    ∃ d q,
      releaseBuffer frameCount c p buffer = some (d, q, Buffer.null) ∧
        d.mSingleStateQueue = c.mSingleStateQueue ∧ q.mObserver = p.mObserver ∧
        q.mIsShutdown = p.mIsShutdown ∧ q.mUnreleased = p.mUnreleased - buffer.mFrameCount ∧
        q.mState.playback = p.mState.playback.advance buffer.mFrameCount ∧ q.Inv frameCount := by
  have hReady := stop_le_remaining hSize h.wf hCount
  rw [← h.ready] at hReady
  unfold releaseBuffer
  simp only
  rw [if_neg (not_not_intro hReady), if_neg (not_not_intro hUnreleased)]
  by_cases hZero : buffer.mFrameCount = 0
  · have hSame : p.mState.playback.advance 0 = p.mState.playback := by
      unfold Playback.advance
      rw [if_neg]
      · rfl
      · rintro ⟨hLoops, hEnd⟩
        have hBefore := (h.wf.loop hLoops).2.2.2
        omega
    rw [if_pos hZero, hZero, hSame]
    exact ⟨c, p, rfl, rfl, rfl, rfl, rfl, rfl, h⟩
  · have hNext := advance_playback hSize h.wf hCount
    have hWf := h.wf.advance hCount
    rw [if_neg hZero]
    generalize advance frameCount p.mState buffer.mFrameCount = r at hNext
    rcases r with ⟨s, flags⟩
    simp only at hNext
    refine ⟨_, _, rfl, rfl, rfl, rfl, rfl, hNext, ?_⟩
    constructor
    · simp only [pushPosLoop]
      rw [hNext]
      exact hWf
    · simp only [pushPosLoop]
      rw [h.ready]
      exact remaining_advance hSize h.wf hCount hNext

end StaticServer

--
-- The Invariant
--

namespace StaticTrack

variable {frameCount : Nat}

/- The queue holds the latest push. -/
structure QueueInv (t : StaticTrack) : Prop where
  sequence : t.mMutator.mSequence = t.cblk.mSingleStateQueue.mSequence
  unpushed :
    t.hist.pushed = none → t.cblk.mSingleStateQueue.mSequence = t.server.mObserver.mSequence
  value : ∀ u, t.hist.pushed = some u → t.cblk.mSingleStateQueue.mValue = u

/- What a poll finds is the latest push. -/
theorem QueueInv.news {t : StaticTrack} (h : t.QueueInv) {u : StaticState}
    (hNews : t.news = some u) : t.hist.pushed = some u := by
  have hSome := poll_eq_some hNews
  cases hPushed : t.hist.pushed with
  | none => exact absurd (h.unpushed hPushed) hSome.1
  | some v => rw [← hSome.2.1, h.value v hPushed]

/-
  The state can be played, what is left is counted, what was delivered is what the last accepted
  state plays, and the frames of the caller come next.
-/
structure Inv (frameCount : Nat) (t : StaticTrack) : Prop where
  queue : t.QueueInv
  server : t.server.Inv frameCount
  unreleased : t.server.mUnreleased = t.held.count
  held : 0 < t.held.count → t.held.raw = t.server.mState.playback.position
  inside :
    t.held.count ≤ t.server.mState.playback.stop frameCount - t.server.mState.playback.position
  fatal : t.fatal = false
  follows :
    Playback.Follows frameCount t.hist.origin.playback t.server.mState.playback t.hist.delivered

theorem Inv.init (frameCount : Nat) : (init frameCount).Inv frameCount := by
  have hWf : (StaticState.init).playback.Wf frameCount minLoop := by
    constructor
    · exact Nat.zero_le _
    · decide
    · intro hCount
      exact absurd rfl hCount
  constructor
  · constructor
    · rfl
    · intro _
      rfl
    · intro u hPushed
      cases hPushed
  · constructor
    · exact hWf
    · have hReady := StaticServer.framesReadyOf_eq hWf 0
      refine Eq.trans ?_ hReady
      simp [StaticServer.framesReadyOf, StaticTrack.init, StaticServer.init, StaticState.init]
  · rfl
  · intro hPos
    cases hPos
  · exact Nat.zero_le _
  · rfl
  · exact Playback.Follows.refl _ _

theorem Inv.push {t : StaticTrack} (h : t.Inv frameCount) (u : StaticState) :
    (t.push u).Inv frameCount := by
  constructor
  · constructor
    · rfl
    · intro hPushed
      cases hPushed
    · intro v hPushed
      exact Option.some.inj hPushed
  · exact h.server
  · exact h.unreleased
  · exact h.held
  · exact h.inside
  · exact h.fatal
  · exact h.follows

/- A poll keeps the queue. -/
theorem QueueInv.pollPosition (frameCount : Nat) {t t' : StaticTrack} (h : t.QueueInv)
    (hCblk : t'.cblk = (t.server.pollPosition frameCount t.cblk).1)
    (hObserver : t'.server.mObserver = (t.server.pollPosition frameCount t.cblk).2.1.mObserver)
    (hMutator : t'.mMutator = t.mMutator) (hPushed : t'.hist.pushed = t.hist.pushed) :
    t'.QueueInv := by
  rcases StaticServer.pollPosition_cases frameCount t.cblk t.server with
    ⟨-, hSame⟩ | ⟨u, hNews, hSequence, hValue, hTaken, -⟩
  · rw [hSame] at hCblk hObserver
    constructor
    · rw [hMutator, hCblk]
      exact h.sequence
    · rw [hPushed, hCblk, hObserver]
      exact h.unpushed
    · rw [hPushed, hCblk]
      exact h.value
  · constructor
    · rw [hMutator, hCblk, hSequence]
      exact h.sequence
    · intro _
      rw [hCblk, hObserver, hSequence, hTaken]
    · rw [hPushed, hCblk, hValue]
      exact h.value

/- What was delivered still follows after a poll. -/
theorem Inv.polled {t : StaticTrack} (h : t.Inv frameCount) :
    let p := (t.server.pollPosition frameCount t.cblk).2.1
    Playback.Follows frameCount (t.polled frameCount).origin.playback
        p.mState.playback (t.polled frameCount).delivered ∧
      (t.polled frameCount).pushed = t.hist.pushed := by
  rcases StaticServer.pollPosition_cases frameCount t.cblk t.server with
    ⟨hNews, hSame⟩ | ⟨u, hNews, -, -, -, -, -, hRefused | hTaken⟩
  · have hNone : t.news = none := hNews
    have hHist : t.polled frameCount = t.hist := by
      simp [StaticTrack.polled, hNone]
    rw [hHist, hSame]
    exact ⟨h.follows, rfl⟩
  · rcases hRefused with ⟨hUpdate, hKept, -, -, -⟩
    have hSome : t.news = some u := hNews
    have hHist : t.polled frameCount = t.hist := by
      simp [StaticTrack.polled, hSome, hUpdate]
    simp only
    rw [hHist, hKept]
    exact ⟨h.follows, rfl⟩
  · rcases hTaken with ⟨s, hUpdate, hState, -, -, -⟩
    have hSome : t.news = some u := hNews
    simp only
    rw [hState]
    unfold StaticTrack.polled
    rw [hSome, Option.bind_some, hUpdate]
    exact ⟨Playback.Follows.refl _ _, rfl⟩

/- A poll between buffers leaves the obtained frames alone. -/
theorem Inv.held_pollPosition {t : StaticTrack} (h : t.Inv frameCount)
    (hIdle : t.held.count = 0 ∨ t.news = none) :
    let p := (t.server.pollPosition frameCount t.cblk).2.1
    p.mUnreleased = t.held.count ∧ (0 < t.held.count → t.held.raw = p.mState.playback.position) ∧
      t.held.count ≤ p.mState.playback.stop frameCount - p.mState.playback.position := by
  rcases StaticServer.pollPosition_cases frameCount t.cblk t.server with
    ⟨-, hSame⟩ | ⟨u, hNews, -, -, -, hUnreleased, -⟩
  · rw [hSame]
    exact ⟨h.unreleased, h.held, h.inside⟩
  · have hSome : t.news = some u := hNews
    have hEmpty : t.held.count = 0 := by
      rcases hIdle with hEmpty | hNone
      · exact hEmpty
      · rw [hNone] at hSome
        cases hSome
    refine ⟨by rw [hUnreleased, h.unreleased], ?_, ?_⟩
    · intro hPos
      omega
    · omega

theorem Inv.framesReady {t : StaticTrack} (h : t.Inv frameCount)
    (hIdle : t.held.count = 0 ∨ t.news = none) : (t.framesReady frameCount).Inv frameCount := by
  unfold StaticTrack.framesReady StaticServer.framesReady
  by_cases hThreads : t.server.mFramesReadyIsCalledByMultipleThreads = true
  · simp only [hThreads, if_true]
    constructor
    · exact ⟨h.queue.sequence, h.queue.unpushed, h.queue.value⟩
    · exact h.server
    · exact h.unreleased
    · exact h.held
    · exact h.inside
    · exact h.fatal
    · exact h.follows
  · have hPolled := h.polled
    have hHeld := h.held_pollPosition hIdle
    simp only [hThreads, if_false, Bool.false_eq_true]
    constructor
    · exact h.queue.pollPosition frameCount
        rfl rfl rfl hPolled.2
    · exact h.server.pollPosition t.cblk
    · exact hHeld.1
    · exact hHeld.2.1
    · exact hHeld.2.2
    · exact h.fatal
    · exact hPolled.1

/- A call that only acknowledges a flush. -/
theorem Inv.obtainBuffer_ackFlush (hSize : frameCount < 2 ^ 32) {t : StaticTrack}
    (h : t.Inv frameCount) (ask : Nat) (hEmpty : t.held.count = 0) :
    (t.obtainBuffer frameCount ask true).Inv frameCount := by
  have hServer := h.server.pollPosition t.cblk
  have hPolled := h.polled
  unfold StaticTrack.obtainBuffer
  rcases StaticServer.obtainBuffer_cases hSize h.server t.cblk ask true with
    ⟨hShutdown, hCall⟩ | ⟨hShutdown, ⟨hCall, -⟩ | ⟨buffer, hCall, -⟩⟩
  · rw [hCall]
    simp only [hShutdown, if_true]
    constructor
    · exact ⟨h.queue.sequence, h.queue.unpushed, h.queue.value⟩
    · exact ⟨h.server.wf, h.server.ready⟩
    · exact hEmpty.symm
    · exact h.held
    · exact h.inside
    · exact h.fatal
    · exact h.follows
  · have hHeld := h.held_pollPosition (Or.inl hEmpty)
    rw [hCall]
    simp only [hShutdown, if_false, Bool.false_eq_true, if_true]
    constructor
    · exact h.queue.pollPosition frameCount
        rfl rfl rfl hPolled.2
    · exact ⟨hServer.wf, hServer.ready⟩
    · exact hEmpty.symm
    · exact hHeld.2.1
    · exact hHeld.2.2
    · exact h.fatal
    · exact hPolled.1
  · have hHeld := h.held_pollPosition (Or.inl hEmpty)
    rw [hCall]
    simp only [hShutdown, if_false, Bool.false_eq_true, if_true]
    constructor
    · exact h.queue.pollPosition frameCount
        rfl rfl rfl hPolled.2
    · exact hServer
    · exact hHeld.1
    · exact hHeld.2.1
    · exact hHeld.2.2
    · exact h.fatal
    · exact hPolled.1

theorem Inv.obtainBuffer (hSize : frameCount < 2 ^ 32) {t : StaticTrack} (h : t.Inv frameCount)
    (ask : Nat) : (t.obtainBuffer frameCount ask false).Inv frameCount := by
  have hServer := h.server.pollPosition t.cblk
  have hPolled := h.polled
  unfold StaticTrack.obtainBuffer
  rcases StaticServer.obtainBuffer_cases hSize h.server t.cblk ask false with
    ⟨hShutdown, hCall⟩ | ⟨hShutdown, ⟨hCall, -⟩ | ⟨buffer, hCall, hCount, hRaw, -⟩⟩
  · rw [hCall]
    simp only [hShutdown, if_true, if_false, Bool.false_eq_true]
    constructor
    · exact ⟨h.queue.sequence, h.queue.unpushed, h.queue.value⟩
    · exact ⟨h.server.wf, h.server.ready⟩
    · rfl
    · intro hPos
      cases hPos
    · exact Nat.zero_le _
    · exact h.fatal
    · exact h.follows
  · rw [hCall]
    simp only [hShutdown, if_false, Bool.false_eq_true]
    constructor
    · exact h.queue.pollPosition frameCount
        rfl rfl rfl hPolled.2
    · exact ⟨hServer.wf, hServer.ready⟩
    · rfl
    · intro hPos
      cases hPos
    · exact Nat.zero_le _
    · exact h.fatal
    · exact hPolled.1
  · rw [hCall]
    simp only [hShutdown, if_false, Bool.false_eq_true]
    constructor
    · exact h.queue.pollPosition frameCount
        rfl rfl rfl hPolled.2
    · exact ⟨hServer.wf, hServer.ready⟩
    · rfl
    · intro hPos
      simp only [Held.ofBuffer] at hPos ⊢
      rw [hRaw hPos]
      rfl
    · exact hCount
    · exact h.fatal
    · exact hPolled.1

theorem Inv.releaseBuffer (hSize : frameCount < 2 ^ 32) {t : StaticTrack} (h : t.Inv frameCount)
    {count : Nat} (hCount : count ≤ t.held.count) :
    (t.releaseBuffer frameCount count).Inv frameCount := by
  have hInside := h.inside
  have hWf := h.server.wf
  have hFits :
      count ≤ t.server.mState.playback.stop frameCount - t.server.mState.playback.position := by
    omega
  unfold StaticTrack.releaseBuffer
  rcases StaticServer.releaseBuffer_inside hSize h.server t.cblk (t.held.toBuffer count)
      (by rw [h.unreleased]; exact hCount) hFits with
    ⟨d, q, hCall, hQueue, hObserver, -, hUnreleased, hNext, hServer⟩
  have hNext' : q.mState.playback = t.server.mState.playback.advance count := hNext
  rw [hCall]
  constructor
  · constructor
    · simp only [hQueue]
      exact h.queue.sequence
    · simp only [hQueue, hObserver]
      exact h.queue.unpushed
    · simp only [hQueue]
      exact h.queue.value
  · exact hServer
  · simp only [hUnreleased, h.unreleased, Held.drop, Held.toBuffer]
  · simp only [Held.drop]
    intro hPos
    have hRaw := h.held (by omega)
    rw [hNext', hRaw]
    unfold Playback.advance
    rw [if_neg]
    rintro ⟨hLoops, hEnd⟩
    unfold Playback.stop at hInside
    rw [if_neg hLoops] at hInside
    omega
  · simp only [Held.drop]
    rw [hNext']
    by_cases hAll : count = t.held.count
    · omega
    · unfold Playback.advance
      rw [if_neg]
      · unfold Playback.stop at hInside ⊢
        simp only
        omega
      · rintro ⟨hLoops, hEnd⟩
        unfold Playback.stop at hInside
        rw [if_neg hLoops] at hInside
        omega
  · exact h.fatal
  · have hFollows := h.follows.advance hWf hFits
    by_cases hZero : count = 0
    · subst hZero
      simp only [List.range'_zero, List.append_nil] at hFollows ⊢
      rw [hNext']
      exact hFollows
    · rw [← h.held (by omega)] at hFollows
      simp only
      rw [hNext']
      exact hFollows

theorem Inv.step (hSize : frameCount < 2 ^ 32) {t t' : StaticTrack} {a : StaticAction}
    (h : t.Inv frameCount) (hStep : Run.guarded PollsIdle (step frameCount) t a = some t') :
    t'.Inv frameCount := by
  rcases Run.guarded_eq_some.mp hStep with ⟨hOk, hNext⟩
  cases a with
  | push u =>
    simp only [StaticTrack.step, h.fatal, Bool.false_eq_true, if_false, Option.some.injEq] at hNext
    rw [← hNext]
    exact h.push u
  | framesReadyIsCalledByMultipleThreads =>
    simp only [StaticTrack.step, h.fatal, Bool.false_eq_true, if_false, Option.some.injEq] at hNext
    rw [← hNext]
    constructor
    · exact ⟨h.queue.sequence, h.queue.unpushed, h.queue.value⟩
    · exact ⟨h.server.wf, h.server.ready⟩
    · exact h.unreleased
    · exact h.held
    · exact h.inside
    · rfl
    · exact h.follows
  | framesReady =>
    simp only [StaticTrack.step, h.fatal, Bool.false_eq_true, if_false, Option.some.injEq] at hNext
    rw [← hNext]
    exact h.framesReady hOk
  | obtainBuffer ask ackFlush =>
    simp only [StaticTrack.step, h.fatal, Bool.false_eq_true, if_false, Option.some.injEq] at hNext
    rw [← hNext]
    cases ackFlush with
    | true => exact h.obtainBuffer_ackFlush hSize ask hOk
    | false => exact h.obtainBuffer hSize ask
  | releaseBuffer count =>
    simp only [StaticTrack.step, h.fatal, Bool.false_eq_true, false_or] at hNext
    by_cases hCount : t.held.count < count
    · rw [if_pos hCount] at hNext
      cases hNext
    · rw [if_neg hCount] at hNext
      cases hNext
      exact h.releaseBuffer hSize (Nat.le_of_not_lt hCount)

end StaticTrack

end AudioTrackShared

--
-- Guarantees
--

namespace AudioTrackShared

namespace StaticTrack

variable {frameCount : Nat}

/- What holds of a static track at any time. -/
structure Plays (frameCount : Nat) (t : StaticTrack) : Prop where
  position_le : t.server.mState.mPosition.toNat ≤ frameCount
  loop :
    t.server.mState.mLoopCount ≠ 0 →
      t.server.mState.mLoopStart.toNat < t.server.mState.mLoopEnd.toNat ∧
        t.server.mState.mLoopEnd.toNat ≤ frameCount ∧
        minLoop ≤ t.server.mState.mLoopEnd.toNat - t.server.mState.mLoopStart.toNat ∧
        t.server.mState.mPosition.toNat < t.server.mState.mLoopEnd.toNat
  infinite : t.server.mFramesReady = int64Max ↔ t.server.mState.mLoopCount.toInt = -1
  finite :
    t.server.mState.mLoopCount.toInt ≠ -1 →
      t.server.mFramesReady = ((t.server.mState.playback.frames frameCount).length : Nat)
  fatal : t.fatal = false
  follows :
    Playback.Follows frameCount t.hist.origin.playback t.server.mState.playback t.hist.delivered

theorem Inv.plays (hSize : frameCount < 2 ^ 32) {t : StaticTrack} (h : t.Inv frameCount) :
    t.Plays frameCount := by
  constructor
  · exact h.server.wf.position_le
  · intro hCount
    exact h.server.wf.loop (toInt_ne_zero.mpr hCount)
  · rw [h.server.ready]
    exact StaticServer.remaining_ne_max hSize h.server.wf
  · intro hEnds
    have hCount : t.server.mState.playback.loopCount ≠ -1 := hEnds
    rw [h.server.ready, StaticServer.remaining, if_neg hCount]
  · exact h.fatal
  · exact h.follows

/- Does an action look for a new state? -/
def polls (t : StaticTrack) : StaticAction → Bool
| .framesReady => !t.server.mFramesReadyIsCalledByMultipleThreads
| .obtainBuffer _ _ => !t.server.mIsShutdown
| .push _ | .framesReadyIsCalledByMultipleThreads
| .releaseBuffer _ => false

/-
  What a step does with the state of the client: a poll takes the latest push, carries it out
  completely or, if it is invalid, keeps the state and shuts down for good.
-/
structure Takes (frameCount : Nat) (t : StaticTrack) (a : StaticAction)
    (t' : StaticTrack) : Prop where
  taken :
    t.polls a = true →
      ∀ u, t.news = some u →
        t.hist.pushed = some u ∧
          ((StaticServer.Accepts frameCount t.server.mState u ∧
              StaticServer.Applied t.server.mState u t'.server.mState ∧
              t'.server.mIsShutdown = t.server.mIsShutdown) ∨
            (¬ StaticServer.Accepts frameCount t.server.mState u ∧
              t'.server.mState = t.server.mState ∧ t'.server.mIsShutdown = true))
  kept :
    t.polls a = false ∨ t.news = none →
      (∀ count, a ≠ .releaseBuffer count) → t'.server.mState = t.server.mState
  latched : t.server.mIsShutdown = true → t'.server.mIsShutdown = true

/- A step that takes no state. -/
theorem Takes.of_kept {t t' : StaticTrack} {a : StaticAction} (hPolls : t.polls a = false)
    (hState : (∀ count, a ≠ .releaseBuffer count) → t'.server.mState = t.server.mState)
    (hShutdown : t'.server.mIsShutdown = t.server.mIsShutdown) : Takes frameCount t a t' := by
  constructor
  · intro hTrue
    rw [hPolls] at hTrue
    cases hTrue
  · intro _
    exact hState
  · intro hLatched
    rw [hShutdown, hLatched]

/- A step that polls. -/
theorem Inv.takes_pollPosition {t t' : StaticTrack} {a : StaticAction} (h : t.Inv frameCount)
    (hState : t'.server.mState = (t.server.pollPosition frameCount t.cblk).2.1.mState)
    (hShutdown : t'.server.mIsShutdown = (t.server.pollPosition frameCount t.cblk).2.1.mIsShutdown)
    (hPolls : t.polls a = true) : Takes frameCount t a t' := by
  rcases StaticServer.pollPosition_cases frameCount t.cblk t.server with
    ⟨hNews, hSame⟩ | ⟨u, hNews, -, -, -, -, -, hTaken⟩
  · have hNone : t.news = none := hNews
    rw [hSame] at hState hShutdown
    constructor
    · intro _ u hSome
      rw [hNone] at hSome
      cases hSome
    · intro _ _
      exact hState
    · intro hLatched
      rw [hShutdown, hLatched]
  · have hSome : t.news = some u := hNews
    have hAccepts := StaticServer.updateState_isSome h.server.wf u
    constructor
    · intro _ v hNew
      rw [hSome] at hNew
      cases hNew
      refine ⟨h.queue.news hSome, ?_⟩
      rcases hTaken with ⟨hUpdate, hKept, -, hShut, -⟩ | ⟨s, hUpdate, hNext, -, hShut, -⟩
      · right
        rw [hUpdate] at hAccepts
        refine ⟨?_, by rw [hState, hKept], by rw [hShutdown, hShut]⟩
        simpa using hAccepts
      · left
        rw [hUpdate] at hAccepts
        refine ⟨hAccepts.mp rfl, ?_, by rw [hShutdown, hShut]⟩
        rw [hState, hNext]
        exact StaticServer.updateState_applied hUpdate
    · rintro (hFalse | hNone)
      · rw [hPolls] at hFalse
        cases hFalse
      · rw [hNone] at hSome
        cases hSome
    · intro hLatched
      rw [hShutdown]
      rcases hTaken with ⟨-, -, -, hShut, -⟩ | ⟨s, -, -, -, hShut, -⟩
      · exact hShut
      · rw [hShut, hLatched]

theorem Inv.takes (hSize : frameCount < 2 ^ 32) {t t' : StaticTrack} {a : StaticAction}
    (h : t.Inv frameCount)
    (hStep : Run.guarded PollsIdle (StaticTrack.step frameCount) t a = some t') :
    Takes frameCount t a t' := by
  have hNext := (Run.guarded_eq_some.mp hStep).2
  cases a with
  | push u =>
    simp only [StaticTrack.step, h.fatal, Bool.false_eq_true, if_false, Option.some.injEq] at hNext
    rw [← hNext]
    exact Takes.of_kept rfl (fun _ => rfl) rfl
  | framesReadyIsCalledByMultipleThreads =>
    simp only [StaticTrack.step, h.fatal, Bool.false_eq_true, if_false, Option.some.injEq] at hNext
    rw [← hNext]
    exact Takes.of_kept rfl (fun _ => rfl) rfl
  | framesReady =>
    simp only [StaticTrack.step, h.fatal, Bool.false_eq_true, if_false, Option.some.injEq] at hNext
    rw [← hNext]
    unfold StaticTrack.framesReady StaticServer.framesReady
    by_cases hThreads : t.server.mFramesReadyIsCalledByMultipleThreads = true
    · simp only [hThreads, if_true]
      apply Takes.of_kept
      · simp [StaticTrack.polls, hThreads]
      · exact fun _ => rfl
      · rfl
    · simp only [hThreads, if_false, Bool.false_eq_true]
      apply h.takes_pollPosition rfl rfl
      simpa [StaticTrack.polls] using hThreads
  | obtainBuffer ask ackFlush =>
    simp only [StaticTrack.step, h.fatal, Bool.false_eq_true, if_false, Option.some.injEq] at hNext
    rw [← hNext]
    unfold StaticTrack.obtainBuffer
    rcases StaticServer.obtainBuffer_cases hSize h.server t.cblk ask ackFlush with
      ⟨hShutdown, hCall⟩ | ⟨hShutdown, ⟨hCall, -⟩ | ⟨buffer, hCall, -⟩⟩
    · have hPolls : t.polls (.obtainBuffer ask ackFlush) = false := by
        simp [StaticTrack.polls, hShutdown]
      rw [hCall]
      cases ackFlush with
      | true => exact Takes.of_kept hPolls (fun _ => rfl) rfl
      | false => exact Takes.of_kept hPolls (fun _ => rfl) rfl
    · have hPolls : t.polls (.obtainBuffer ask ackFlush) = true := by
        simp [StaticTrack.polls, hShutdown]
      rw [hCall]
      cases ackFlush with
      | true => exact h.takes_pollPosition rfl rfl hPolls
      | false => exact h.takes_pollPosition rfl rfl hPolls
    · have hPolls : t.polls (.obtainBuffer ask ackFlush) = true := by
        simp [StaticTrack.polls, hShutdown]
      rw [hCall]
      cases ackFlush with
      | true => exact h.takes_pollPosition rfl rfl hPolls
      | false => exact h.takes_pollPosition rfl rfl hPolls
  | releaseBuffer count =>
    simp only [StaticTrack.step, h.fatal, Bool.false_eq_true, false_or] at hNext
    by_cases hCount : t.held.count < count
    · rw [if_pos hCount] at hNext
      cases hNext
    · rw [if_neg hCount] at hNext
      cases hNext
      have hInside := h.inside
      unfold StaticTrack.releaseBuffer
      rcases StaticServer.releaseBuffer_inside hSize h.server t.cblk (t.held.toBuffer count)
          (by
            rw [h.unreleased]
            exact Nat.le_of_not_lt hCount)
          (by
            change count ≤ _
            omega) with
        ⟨d, q, hCall, -, -, hShutdown, -⟩
      rw [hCall]
      apply Takes.of_kept rfl
      · intro hOther
        exact absurd rfl (hOther count)
      · exact hShutdown

/-
  While the server polls between buffers, the state can always be played, no assertion fails, the
  delivered frames are those of the unrolled loop, and every poll takes the latest push as a whole
  or not at all.
-/
theorem exec_playback {frameCount : Nat} (hSize : frameCount < 2 ^ 32) {as : List StaticAction}
    {t : StaticTrack}
    (hRun : Run.exec (Run.guarded PollsIdle (step frameCount)) (init frameCount) as = some t) :
    t.Plays frameCount ∧
      ∀ a t', Run.guarded PollsIdle (step frameCount) t a = some t' → Takes frameCount t a t' := by
  have hInv : t.Inv frameCount :=
    Run.exec_invariant (fun _ _ _ h hStep => h.step hSize hStep) hRun (Inv.init frameCount)
  exact ⟨hInv.plays hSize, fun _ _ hStep => hInv.takes hSize hStep⟩

/- A loop played twice and once to its end, then the position is moved behind it. -/
def loopRun : List StaticAction :=
  [.push ⟨8, 24, 1, 1, 0, 0⟩, .obtainBuffer 100 false,
    .releaseBuffer 10, .releaseBuffer 14, .framesReady, .obtainBuffer 100 false, .releaseBuffer 16,
    .obtainBuffer 4 false, .releaseBuffer 4, .push ⟨8, 24, 1, 1, 30, 2⟩, .framesReady,
    .obtainBuffer 100 false, .releaseBuffer 2]

theorem exec_playback_loop :
    ∃ t,
      Run.exec (Run.guarded PollsIdle (step 32)) (init 32) loopRun = some t ∧
        t.hist.delivered = [30, 31] ∧ t.Plays 32 ∧
        ∀ a t', Run.guarded PollsIdle (step 32) t a = some t' → Takes 32 t a t' := by
  have hSome :
      (Run.exec (Run.guarded PollsIdle (step 32)) (init 32)
          loopRun).map (fun t => t.hist.delivered) =
        some [30, 31] := by
    decide
  rcases Option.map_eq_some_iff.mp hSome with ⟨t, hRun, hDelivered⟩
  have hAll := exec_playback (by decide) hRun
  exact ⟨t, hRun, hDelivered, hAll.1, hAll.2⟩

end StaticTrack

end AudioTrackShared

end FrameworksAv
