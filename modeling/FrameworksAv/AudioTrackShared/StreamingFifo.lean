import FrameworksAv.AudioTrackShared.StreamingServerSteps

/-
  A track that is never flushed is a FIFO.

  Without a flush the conditions on flushes hold at every step, and the first epoch never ends: what
  the consumer released is a prefix of what the producer released.

  Main declarations:
    * `Stream.Fifo`
    * `Stream.Unflushed.step`
    * `exec_fifo`
-/

--
-- What A FIFO Promises
--

namespace FrameworksAv

namespace AudioTrackShared

variable {F : Type}

/- The region lies inside the ring. -/
def Held.Inside (held : Held) (cap : Nat) : Prop :=
  ∀ i, i < held.count → held.raw + i < cap

/- The regions share no cell. -/
def Held.Disjoint (a b : Held) : Prop :=
  ∀ i j, i < a.count → j < b.count → a.raw + i ≠ b.raw + j

/- What both sides may rely on at any moment. -/
structure Stream.Fifo (g : Geometry) (s : Stream F) : Prop where
  filled_nonneg : 0 ≤ s.cblk.filled
  filled_le : s.cblk.filled ≤ g.mFrameCount
  clientUp : s.client.mIsShutdown = false
  serverUp : s.server.mIsShutdown = false
  noOverrun : s.cblk.mFlags &&& cblkOverrun = 0
  notFatal : s.fatal = false
  producerInside : (s.producerHeld g).Inside g.mFrameCountP2
  consumerInside : (s.consumerHeld g).Inside g.mFrameCountP2
  disjoint : (s.producerHeld g).Disjoint (s.consumerHeld g)
  delivered : s.hist.consumed <+: s.hist.released
  readable :
    ∀ j, j < (s.consumerHeld g).count →
      s.hist.released[s.hist.consumed.length + j]? = some (s.mBuffers ((s.consumerHeld g).raw + j))

/- An aligned region lies inside the ring. -/
theorem Aligned.inside {cap pos : Nat} {held : Held} (h : Aligned cap pos held) :
    held.Inside cap := by
  intro i hi
  rcases h (by omega) with ⟨hRaw, hFit⟩
  omega

/- The cells of an aligned region, by position. -/
theorem Aligned.cell {cap pos : Nat} {held : Held} (h : Aligned cap pos held) {i : Nat}
    (hi : i < held.count) : held.raw + i = (pos + i) % cap := by
  rcases h (by omega) with ⟨hRaw, hFit⟩
  rw [hRaw, Ring.add_mod_of_lt (by omega)]

/- The regions of an invariant state share no cell. -/
theorem Stream.Inv.disjoint {g : Geometry} {s : Stream F} (h : s.Inv g) :
    (s.producerHeld g).Disjoint (s.consumerHeld g) := by
  intro i j hi hj
  rw [h.producerAligned.cell hi, h.consumerAligned.cell hj]
  exact h.fifo.disjoint g.mFrameCount_le hi hj

end AudioTrackShared

--
-- Tracks Without Flushes
--

namespace AudioTrackShared

namespace Stream

variable {F : Type} {g : Geometry} {s t : Stream F}

/- No flush was requested and none was acted on. -/
structure Unflushed (s : Stream F) : Prop where
  number : s.hist.lastFlush.number = 0
  takenFront : s.hist.takenFront = 0
  takenAt : s.hist.takenAt = 0

/- All flush marks of an unflushed track agree. -/
theorem Inv.taken_eq_observed (h : s.Inv g) (hUnflushed : s.Unflushed) :
    s.hist.taken = s.hist.observed ∧ s.hist.observed.number = s.hist.lastFlush.number := by
  have hFlush := h.flush
  have hNumber := hUnflushed.number
  have hTaken := hFlush.taken_le
  have hObserved := hFlush.observed_le
  exact ⟨hFlush.taken_eq (by omega), by omega⟩

/- The server of an unflushed track sees no new flush. -/
theorem Inv.loaded_eq (h : s.Inv g) (hUnflushed : s.Unflushed) {flush : Word}
    (hLoaded : s.loadedFlush = some flush) : flush = s.server.mFlush := by
  rw [h.flush.loadedWord flush hLoaded, h.flush.serverWord, (h.taken_eq_observed hUnflushed).1]

/- Without flushes every action is disciplined. -/
theorem Inv.disciplined (h : s.Inv g) (hUnflushed : s.Unflushed) {a : Action F}
    (hEnabled : Enabled g s a) (hNoFlush : NoFlush s a) : FlushDiscipline g s a := by
  cases a with
  | clientFlush => exact absurd hNoFlush id
  | serverObtain ask ackFlush =>
    rcases Option.isSome_iff_exists.mp hEnabled.2 with ⟨flush, hLoaded⟩
    have hSame := h.loaded_eq hUnflushed hLoaded
    have hMarks := h.taken_eq_observed hUnflushed
    refine ⟨⟨trivial, ?_⟩, fun _ => .inl (.inl hMarks.2)⟩
    intro _ hNe
    rw [hLoaded, hSame] at hNe
    exact absurd rfl hNe
  | clientObtain | clientRelease | interrupt | binderDied
  | serverBegin | serverRelease | framesReady | write => exact ⟨⟨trivial, trivial⟩, trivial⟩

/- Without flushes no epoch ends. -/
theorem Unflushed.next (hUnflushed : s.Unflushed) (h : s.Inv g) {a : Action F}
    (hEnabled : Enabled g s a) (hNoFlush : NoFlush s a) : (next g s a).Unflushed := by
  cases a with
  | clientFlush => exact absurd hNoFlush id
  | clientRelease count =>
    simp only [AudioTrackShared.next, clientRelease]
    split
    · exact { hUnflushed with }
    · split
      · exact hUnflushed
      · cases hOut : g.mIsOut <;>
          exact { hUnflushed with }
  | serverRelease count =>
    simp only [AudioTrackShared.next, serverRelease]
    split
    · exact { hUnflushed with }
    · split
      · exact hUnflushed
      · cases hOut : g.mIsOut <;>
          exact { hUnflushed with }
  | serverObtain ask ackFlush =>
    rcases Option.isSome_iff_exists.mp hEnabled.2 with ⟨flush, hLoaded⟩
    have hSame := h.loaded_eq hUnflushed hLoaded
    simp only [AudioTrackShared.next, serverObtain,
      recordTaken, hLoaded, Option.getD_some, hSame, ne_eq, not_true_eq_false, and_false, if_false]
    exact { hUnflushed with }
  | clientObtain | interrupt | binderDied | serverBegin
  | framesReady | write => exact { hUnflushed with }

/- Both invariants hold after every run without flushes. -/
theorem Unflushed.run {mBuffers : Nat → F} {as : List (Action F)}
    (hRun : Run.exec (Run.guarded NoFlush (step g)) (init mBuffers) as = some t) :
    t.Inv g ∧ t.Unflushed := by
  have hInit : (init mBuffers).Inv g ∧ (init mBuffers).Unflushed :=
    ⟨inv_init g mBuffers, rfl, rfl, rfl⟩
  have hStep :
      ∀ (s : Stream F) a t, s.Inv g ∧ s.Unflushed → Run.guarded NoFlush (step g) s a = some t →
        t.Inv g ∧ t.Unflushed := by
    rintro s a t ⟨h, hUnflushed⟩ hStep
    rcases Run.guarded_eq_some.mp hStep with ⟨hOk, hStep⟩
    rcases step_eq_some.mp hStep with ⟨⟨_, hEnabled⟩, hNext⟩
    have hDisciplined := h.disciplined hUnflushed hEnabled hOk
    rw [← hNext]
    exact ⟨h.next hEnabled hDisciplined, hUnflushed.next h hEnabled hOk⟩
  exact Run.exec_invariant hStep hRun hInit

/- An unflushed track is in its first epoch. -/
theorem Unflushed.front_eq (hUnflushed : s.Unflushed) :
    (s.fifo g).front = s.hist.consumed.length := by
  simp [fifo, Fifo.front, hUnflushed.takenFront, hUnflushed.takenAt]

end Stream

/-
  Every interleaving of the two sides, with any requested counts and partial releases and any number
  of counter wraps, keeps the pipe a FIFO.
-/
theorem exec_fifo {F : Type} (g : Geometry) (mBuffers : Nat → F) {as : List (Action F)}
    {t : Stream F}
    (hRun : Run.exec (Run.guarded NoFlush (step g)) (Stream.init mBuffers) as = some t) :
    t.Fifo g := by
  rcases Stream.Unflushed.run hRun with ⟨h, hUnflushed⟩
  have hFront := hUnflushed.front_eq (g := g)
  have hDelivered := h.fifo.delivered_prefix
  have hPlausible := h.inBounds
  simp only [Stream.fifo, hUnflushed.takenFront, hUnflushed.takenAt, List.drop_zero] at hDelivered
  refine
    { filled_nonneg := hPlausible.1
      filled_le := hPlausible.2
      clientUp := h.clientUp
      serverUp := h.serverUp
      noOverrun := h.noOverrun
      notFatal := h.alive
      producerInside := h.producerAligned.inside
      consumerInside := h.consumerAligned.inside
      disjoint := h.disjoint
      delivered := hDelivered
      readable := ?_ }
  intro j hj
  rw [h.consumerAligned.cell hj, ← hFront]
  exact h.fifo.borrowed_eq hj

/- A short output track whose producer laps the ring. -/
def shortTrack : Geometry where
  mFrameCount := 3
  logFrameCountP2 := 2
  mIsOut := true
  mFrameCount_pos := by decide
  mFrameCount_le := by decide
  logFrameCountP2_le := by decide

/- Both sides move frames through the short track. -/
def shortTrackActions : List (Action Nat) :=
  [.clientObtain 3 .zero false false, .write 0 10, .write 1 11, .clientRelease 2, .serverBegin,
    .write 0 12, .serverObtain 8 false, .clientRelease 1, .serverRelease 1, .serverRelease 1,
    .clientObtain 4 .infinite false false, .write 0 13, .framesReady, .clientRelease 1,
    .clientObtain 4 .continue true false, .serverBegin,
    .serverObtain 2 false, .write 0 14, .clientRelease 1, .serverRelease 2]

theorem exec_fifo_shortTrack :
    ∃ t,
      Run.exec (Run.guarded NoFlush (step shortTrack))
        (Stream.init fun _ => 0) shortTrackActions = some t ∧
      t.Fifo shortTrack := by
  have hSome :
      (Run.exec (Run.guarded NoFlush (step shortTrack)) (Stream.init fun _ => 0)
        shortTrackActions).isSome = true := by
    decide
  rcases Option.isSome_iff_exists.mp hSome with ⟨t, hRun⟩
  exact ⟨t, hRun, exec_fifo shortTrack _ hRun⟩

end AudioTrackShared

end FrameworksAv
