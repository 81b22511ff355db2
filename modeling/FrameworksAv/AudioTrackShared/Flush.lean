import FrameworksAv.AudioTrackShared.StreamingFifo

/-
  What a flush of an output track achieves.

  A call of the server that acts on a changed flush moves `mFront` to where `mRear` was at the
  latest flush it has loaded: earlier frames are never delivered again and later ones are delivered
  once and in order.

  This needs the client not to overtake the call between its loads of `mFlush` and `mRear`;
  `overtakenActions` is a run that delivers frames twice.

  Main declarations:
    * `Stream.FlushExact`, `Stream.ActsExactly`
    * `exec_flush`
    * `exec_flush_overtaken`
-/

--
-- Exact Flushes
--

namespace FrameworksAv

namespace AudioTrackShared

variable {F : Type}

/-
  Delivery is split at the latest flush the server acted on: what it delivered before lies before
  that flush, and what it delivered since is a prefix of what was released after.
-/
structure Stream.FlushExact (g : Geometry) (s : Stream F) : Prop where
  filled_nonneg : 0 ≤ s.cblk.filled
  filled_le : s.cblk.filled ≤ g.mFrameCount
  clientUp : s.client.mIsShutdown = false
  serverUp : s.server.mIsShutdown = false
  notFatal : s.fatal = false
  before :
    (s.hist.consumed.take s.hist.takenAt).Sublist (s.hist.released.take s.hist.taken.position)
  after : s.hist.consumed.drop s.hist.takenAt <+: s.hist.released.drop s.hist.taken.position

/- A call in `s` acts on the latest flush it has loaded. -/
structure Stream.ActsExactly (g : Geometry) (s t : Stream F) : Prop where
  mFront : t.cblk.mFront = s.hist.observed.rear
  taken : t.hist.taken = s.hist.observed
  takenAt : t.hist.takenAt = s.hist.consumed.length
  notCorrupt :
    g.Plausible (ServerProxy.rebase g s.cblk.mFront (s.loadedFlush.getD 0) s.cblk.mRear).2.toInt

namespace Stream

variable {g : Geometry} {s : Stream F}

theorem Inv.flushExact (h : s.Inv g) (hBits : g.logFrameCountP2 ≤ 29) : s.FlushExact g := by
  have hPlausible := h.inBounds
  have hExact := h.flush.exact hBits
  refine
    { filled_nonneg := hPlausible.1
      filled_le := hPlausible.2
      clientUp := h.clientUp
      serverUp := h.serverUp
      notFatal := h.alive
      before := ?_
      after := ?_ }
  · rw [← hExact]
    exact h.fifo.past
  · rw [← hExact]
    exact h.fifo.delivered_prefix

/- A call that acts on a changed flush is exact. -/
theorem Inv.actsExactly (h : s.Inv g) (hOut : g.mIsOut = true) (hBits : g.logFrameCountP2 ≤ 29)
    {flush : Word} (hLoaded : s.loadedFlush = some flush) (hNew : flush ≠ s.server.mFlush)
    (ask : Nat) (ackFlush : Bool) (hAfter : (s.afterFlush g flush).Inv g) :
    ActsExactly g s (s.serverObtain g flush ask ackFlush) := by
  have hFlush := h.flush
  have hWord := hFlush.loadedWord flush hLoaded
  have hReach := hFlush.observed_pending (h.taken_ne hLoaded hNew)
  have hFront : (s.fifo g).front ≤ s.hist.observed.position :=
    Nat.le_trans (Nat.le_add_right _ _) hReach
  have hRear : s.hist.observed.position ≤ (s.fifo g).rear :=
    Nat.le_trans hFlush.observed_position_le hFlush.last_position_le
  have hRoom := h.fifo.filled_le
  have hNewFront :
      ServerProxy.newFront g s.cblk.mFront flush s.cblk.mRear =
        BitVec.ofNat 32 s.hist.observed.position := by
    rw [hWord, h.front, h.rear]
    exact ServerProxy.newFront_exact g hBits hFront hRear hRoom
  have hEq := h.afterFlush_eq ⟨hOut, hNew⟩ hNewFront hFront hRear
  rcases serverObtain_eq h.serverUp hAfter ask ackFlush with ⟨held, availToClient, hObtain, -, -⟩
  rw [hObtain, hEq]
  refine
    { mFront := hFlush.observedRear.symm
      taken := rfl
      takenAt := rfl
      notCorrupt := ?_ }
  rw [hLoaded, Option.getD_some, hWord, h.front, h.rear]
  exact ServerProxy.rebase_inBounds g hBits hFront hRear hRoom

end Stream

/-
  In every disciplined run the flush is exact: the state is always split at the latest flush the
  server acted on, and every call that observes a changed flush acts on it.
-/
theorem exec_flush (g : Geometry) (hOut : g.mIsOut = true) (hBits : g.logFrameCountP2 ≤ 29)
    (mBuffers : Nat → F) {as : List (Action F)} {s : Stream F}
    (hRun :
      Run.exec (Run.guarded (FlushDiscipline g) (step g)) (Stream.init mBuffers) as = some s) :
    s.FlushExact g ∧
      ∀ ask ackFlush t,
        Run.guarded (FlushDiscipline g) (step g) s (.serverObtain ask ackFlush) = some t →
          s.loadedFlush ≠ some s.server.mFlush → s.ActsExactly g t := by
  have h := (Stream.inv_init g mBuffers).run hRun
  refine ⟨h.flushExact hBits, ?_⟩
  intro ask ackFlush t hGuarded hChanged
  rcases Run.guarded_eq_some.mp hGuarded with ⟨hOk, hStep⟩
  rcases Stream.step_eq_some.mp hStep with ⟨⟨_, hEnabled⟩, hNext⟩
  rcases Option.isSome_iff_exists.mp hEnabled.2 with ⟨flush, hLoaded⟩
  have hNew : flush ≠ s.server.mFlush := by
    intro hSame
    apply hChanged
    rw [hLoaded, hSame]
  have hAfter : (s.afterFlush g flush).Inv g :=
    h.afterFlush hLoaded (fun _ => hOk.1.2 hOut hChanged) (fun _ => .inr hBits)
  rw [← hNext]
  simp only [next, hLoaded, Option.getD_some]
  exact h.actsExactly hOut hBits hLoaded hNew ask ackFlush hAfter

/- A full output track of four frames. -/
def fourFrames : Geometry where
  mFrameCount := 4
  logFrameCountP2 := 2
  mIsOut := true
  mFrameCount_pos := by decide
  mFrameCount_le := by decide
  logFrameCountP2_le := shortTrack.logFrameCountP2_le

/- Two frames are flushed and two more delivered. -/
def flushActions : List (Action Nat) :=
  [.clientObtain 4 .zero false false, .write 0 10, .write 1 11, .clientRelease 2, .serverBegin,
    .serverObtain 1 false, .serverRelease 1, .clientFlush,
    .clientObtain 4 .zero false false, .write 0 12, .write 1 13, .clientRelease 2, .serverBegin]

theorem exec_flush_fourFrames :
    ∃ s t,
      Run.exec (Run.guarded (FlushDiscipline fourFrames) (step fourFrames))
          (Stream.init fun _ => 0) flushActions = some s ∧
        s.FlushExact fourFrames ∧ s.ActsExactly fourFrames t := by
  have hSome :
      ((Run.exec (Run.guarded (FlushDiscipline fourFrames) (step fourFrames))
          (Stream.init fun _ => 0) flushActions).bind fun s =>
        if s.loadedFlush ≠ some s.server.mFlush then
          (Run.guarded (FlushDiscipline fourFrames) (step fourFrames) s
            (.serverObtain 4 false)).map fun t => (s, t)
        else none).isSome = true := by
    decide
  rcases Option.isSome_iff_exists.mp hSome with ⟨⟨s, t⟩, hBind⟩
  rcases Option.bind_eq_some_iff.mp hBind with ⟨s', hRun, hObtain⟩
  split at hObtain
  · rename_i hChanged
    rcases Option.map_eq_some_iff.mp hObtain with ⟨t', hStep, hPair⟩
    cases hPair
    have h := exec_flush fourFrames rfl (by decide) _ hRun
    exact ⟨s, t, hRun, h.1, h.2 4 false t hStep hChanged⟩
  · cases hObtain

end AudioTrackShared

--
-- An Overtaken Flush
--

namespace AudioTrackShared

/-
  The client flushes and releases two frames between the two loads of one call. The call delivers
  them from behind the flush; the next call moves `mFront` back to the flush and delivers them
  again.
-/
def overtakenActions : List (Action Nat) :=
  [.clientObtain 4 .zero false false, .write 0 10, .write 1 11, .clientRelease 2, .serverBegin,
    .clientFlush, .clientObtain 2 .zero false false, .write 0 12, .write 1 13, .clientRelease 2,
    .serverObtain 4 false, .serverRelease 4, .serverBegin, .serverObtain 4 false, .serverRelease 2]

theorem exec_flush_overtaken :
    ∃ t,
      Run.exec (Run.guarded (FlushContract fourFrames) (step fourFrames))
          (Stream.init fun _ => 0) overtakenActions =
        some t ∧
      t.hist.released = [10, 11, 12, 13] ∧ t.hist.consumed = [10, 11, 12, 13, 12, 13] ∧
      ¬ t.FlushExact fourFrames := by
  have hValue :
      (Run.exec (Run.guarded (FlushContract fourFrames) (step fourFrames))
          (Stream.init fun _ => 0) overtakenActions).map
        (fun t => (t.hist.released, t.hist.consumed, t.hist.takenAt, t.hist.taken.position)) =
      some ([10, 11, 12, 13], [10, 11, 12, 13, 12, 13], 4, 2) := by
    decide
  rcases Option.map_eq_some_iff.mp hValue with ⟨t, hRun, hHist⟩
  simp only [Prod.mk.injEq] at hHist
  rcases hHist with ⟨hReleased, hConsumed, hTakenAt, hPosition⟩
  refine ⟨t, hRun, hReleased, hConsumed, ?_⟩
  intro hExact
  have hLength := hExact.before.length_le
  rw [hReleased, hConsumed, hTakenAt, hPosition] at hLength
  exact absurd hLength (by decide)

end AudioTrackShared

end FrameworksAv
