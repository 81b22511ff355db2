import FrameworksAv.AudioTrackShared.StreamingSteps

/-
  The steps of the server keep the invariant of a track.

  Acting on a flush skips ahead to the position of the flush; that is where the conditions on
  flushes are needed.

  Main declarations:
    * `Stream.Inv.serverBegin`
    * `Stream.Inv.serverRelease`
    * `Stream.Inv.serverObtain`
    * `Stream.Inv.next`, `Stream.Inv.run`
-/

--
-- Server Steps
--

namespace FrameworksAv

namespace AudioTrackShared

namespace Stream

variable {F : Type} {g : Geometry} {s : Stream F}

namespace Inv

/- The server now knows the latest flush. -/
theorem serverBegin (h : s.Inv g) (hIdle : s.loadedFlush = none) : s.serverBegin.Inv g := by
  have hFlush := h.flush
  have hTaken := hFlush.idle hIdle
  have hLe := hFlush.observed_le
  have hNear := hFlush.observed_near
  have hEq := hFlush.observed_eq
  rw [hTaken] at hLe hNear hEq
  exact h.quiet rfl rfl rfl rfl rfl h.noOverrun
    ⟨h.alive, h.clientUp, h.serverUp, h.clientUnreleased, h.serverUnreleased⟩
    { hFlush with
      loadedWord := by
        intro w hLoaded
        cases hLoaded
        exact hFlush.word
      idle := by
        intro hNone
        cases hNone
      taken_le := hLe
      taken_near := hNear
      taken_eq := hEq
      observed_le := Nat.le_refl _
      observed_near := Nat.lt_add_of_pos_right (Nat.two_pow_pos _)
      observed_eq := fun _ => rfl
      observed_position_le := Nat.le_refl _
      observed_pending := hFlush.last_pending
      observedRear := hFlush.lastRear }

/- `framesReady` has no effect on a plausible pipe. -/
theorem framesReady (h : s.Inv g) :
    Inv g
      { s with
        server := (s.server.framesReady g s.cblk).1 } := by
  have hUp := h.serverUp
  have hPlausible := h.inBounds
  have hSame : (s.server.framesReady g s.cblk).1 = s.server := by
    simp only [ServerProxy.framesReady, hUp, Bool.false_eq_true, if_false, hPlausible,
      not_true_eq_false]
    split <;> rfl
  rw [hSame]
  exact h

/- Releasing consumes or publishes the server's frames. -/
theorem serverRelease (h : s.Inv g) {count : Nat} (hCount : count ≤ s.serverHeld.count) :
    (s.serverRelease g count).Inv g := by
  have hUnreleased : count ≤ s.server.mUnreleased := by
    rw [h.serverUnreleased]
    exact hCount
  rcases ServerProxy.releaseBuffer_spec s.cblk (s.serverHeld.toBuffer count) h.serverUp hUnreleased
      (by rw [h.serverUnreleased]; exact h.serverHeld_le) with
    ⟨cblk, buffer, hCall, hAdvance⟩
  have hUp := h.serverUp
  simp only [Held.toBuffer] at hCall hAdvance
  simp only [Stream.serverRelease, Held.toBuffer, hCall, hUp, Bool.false_eq_true, if_false]
  cases hOut : g.mIsOut with
  | true =>
    rw [hOut] at hAdvance
    have hStart := h.fifo.start_le
    have hAligned := h.consumerAligned
    simp only [consumerHeld, hOut, if_true] at hAligned
    refine h.consumed count ?_ ?_ ?_ ?_ hAdvance ⟨h.alive, h.clientUp, rfl, h.clientUnreleased, ?_⟩
      ?_
    · simpa [consumerHeld, hOut] using hCount
    · rw [hAligned.slice_eq hCount]
      simp [Stream.fifo, Stream.record, producerHeld, consumerHeld, hOut, Fifo.consume, Held.drop]
    · simp [consumerHeld, hOut]
    · simp [producerHeld, hOut, Stream.record]
    · simp [Held.drop, h.serverUnreleased]
    · refine h.flush.frame hAdvance.mFlush rfl rfl rfl rfl
        rfl rfl (Nat.le_refl _) ?_
      -- the front moves by what is no longer borrowed
      intro _
      simp only [Stream.fifo] at hStart
      simp [reach, Stream.fifo, Fifo.front, consumerHeld,
        Stream.record, hOut, Held.drop, Ring.slice]
      omega
  | false =>
    rw [hOut] at hAdvance
    have hAligned := h.producerAligned
    simp only [producerHeld, hOut, Bool.false_eq_true, if_false] at hAligned
    refine h.produced count ?_ ?_ ?_ ?_ hAdvance ⟨h.alive, h.clientUp, rfl, h.clientUnreleased, ?_⟩
      ?_
    · simpa [producerHeld, hOut] using hCount
    · rw [hAligned.slice_eq hCount]
      simp [Stream.fifo, Stream.record, producerHeld, consumerHeld, hOut, Fifo.produce, Held.drop,
        Fifo.rear]
    · simp [producerHeld, hOut]
    · simp [consumerHeld, hOut, Stream.record]
    · simp [Held.drop, h.serverUnreleased]
    · refine h.flush.frame hAdvance.mFlush rfl rfl rfl rfl
        rfl rfl ?_ ?_
      · simp [Stream.record]
      · intro hIn
        rw [hOut] at hIn
        cases hIn

end Inv

/- The track once the flush part of a call is done. -/
def afterFlush (g : Geometry) (s : Stream F) (flush : Word) : Stream F :=
  let r := s.server.takeFlush g flush s.cblk
  { s with
    cblk := r.1
    server := r.2
    loadedFlush := none
    hist := s.recordTaken g flush r.1 }

namespace Inv

/- A call that finds no new flush skips nothing. -/
theorem keepFlush (h : s.Inv g) {flush : Word} (hLoaded : s.loadedFlush = some flush)
    (hKeep : ¬ (g.mIsOut = true ∧ flush ≠ s.server.mFlush)) :
    (s.afterFlush g flush).Inv g ∧ (s.afterFlush g flush).fifo g = s.fifo g := by
  have hFlush := h.flush
  have hEq : s.afterFlush g flush = { s with loadedFlush := none } := by
    simp only [afterFlush, ServerProxy.takeFlush, recordTaken, if_neg hKeep]
  have hTaken : s.hist.taken = s.hist.observed := by
    apply hFlush.taken_eq
    cases hOut : g.mIsOut with
    | true =>
      have hSame : flush = s.server.mFlush := by
        by_contra hNe
        exact hKeep ⟨hOut, hNe⟩
      apply g.flushWord_inj hFlush.taken_le hFlush.taken_near
      rw [← hFlush.serverWord, ← hFlush.loadedWord flush hLoaded, hSame]
    | false =>
      have hInput := hFlush.input hOut
      have hTakenLe := hFlush.taken_le
      have hObservedLe := hFlush.observed_le
      omega
  rw [hEq]
  refine ⟨?_, rfl⟩
  exact h.quiet rfl rfl rfl rfl rfl h.noOverrun
    ⟨h.alive, h.clientUp, h.serverUp, h.clientUnreleased, h.serverUnreleased⟩
    { hFlush with
      loadedWord := by
        intro w hNone
        cases hNone
      idle := fun _ => hTaken.symm }

/- A changed word is a flush the server has not acted on. -/
theorem taken_ne (h : s.Inv g) {flush : Word} (hLoaded : s.loadedFlush = some flush)
    (hNe : flush ≠ s.server.mFlush) : s.hist.taken.number ≠ s.hist.observed.number := by
  intro hEq
  apply hNe
  rw [h.flush.loadedWord flush hLoaded, h.flush.serverWord, h.flush.taken_eq hEq]

/- The front a changed flush takes the server to. -/
theorem newFront_position (h : s.Inv g) (hNe : s.hist.taken.number ≠ s.hist.observed.number) :
    ∃ position,
      ServerProxy.newFront g s.cblk.mFront (g.flushWord s.hist.observed) s.cblk.mRear =
        BitVec.ofNat 32 position ∧
      s.reach g ≤ s.hist.observed.position ∧ s.hist.observed.position ≤ position ∧
      position ≤ (s.fifo g).rear ∧
      (g.logFrameCountP2 ≤ 29 → position = s.hist.observed.position) := by
  have hFlush := h.flush
  have hReach := hFlush.observed_pending hNe
  have hFront : (s.fifo g).front ≤ s.hist.observed.position :=
    Nat.le_trans (Nat.le_add_right _ _) hReach
  have hRear : s.hist.observed.position ≤ (s.fifo g).rear :=
    Nat.le_trans hFlush.observed_position_le hFlush.last_position_le
  have hRoom := h.fifo.filled_le
  rw [h.front, h.rear]
  rcases Nat.lt_or_ge 29 g.logFrameCountP2 with hTop | hBits
  · rcases ServerProxy.newFront_eq g hFront hRear hRoom with
      hExact | hFull
    · exact ⟨_, hExact, hReach, Nat.le_refl _, hRear, fun _ => rfl⟩
    · exact ⟨_, hFull, hReach, hRear, Nat.le_refl _, by omega⟩
  · exact
      ⟨_, ServerProxy.newFront_exact g hBits hFront hRear
        hRoom, hReach, Nat.le_refl _, hRear, fun _ => rfl⟩

/- The track a changed flush leaves, at a position. -/
theorem afterFlush_eq (h : s.Inv g) {flush : Word} {position : Nat}
    (hTake : g.mIsOut = true ∧ flush ≠ s.server.mFlush)
    (hNew : ServerProxy.newFront g s.cblk.mFront flush s.cblk.mRear = BitVec.ofNat 32 position)
    (hFront : (s.fifo g).front ≤ position) (hRear : position ≤ (s.fifo g).rear) :
    s.afterFlush g flush =
      { s with
        cblk :=
          { s.cblk with
            mFront := BitVec.ofNat 32 position }.wake
        server := { s.server with mFlush := flush }
        loadedFlush := none
        hist :=
          { s.hist with
            taken := s.hist.observed
            takenFront := position
            takenAt := s.hist.consumed.length } } := by
  have hRoom := h.fifo.filled_le
  have hCount := g.mFrameCount_le
  have hPow : 2 ^ g.logFrameCountP2 ≤ 2 ^ 30 := Nat.pow_le_pow_right (by omega) g.logFrameCountP2_le
  have hFilled :
      (s.cblk.mRear - BitVec.ofNat 32 position).toInt = ((s.fifo g).rear - position : Nat) := by
    rw [h.rear]
    exact Counter.toInt_sub_ofNat hRear (by omega)
  have hBack : s.hist.released.length - ((s.fifo g).rear - position) = position := by
    have hLength : (s.fifo g).rear = s.hist.released.length :=
      rfl
    omega
  simp only [Stream.afterFlush, ServerProxy.takeFlush,
    recordTaken, if_pos hTake, hNew, Cblk.wake, Cblk.filled, hFilled, Int.toNat_natCast, hBack]

/- Acting on a changed flush skips to its position. -/
theorem takeFlush (h : s.Inv g) {flush : Word} (hLoaded : s.loadedFlush = some flush)
    (hTake : g.mIsOut = true ∧ flush ≠ s.server.mFlush) (hHeld : s.serverHeld.count = 0)
    (hStill : s.Still ∨ g.logFrameCountP2 ≤ 29) : (s.afterFlush g flush).Inv g := by
  have hFlush := h.flush
  have hWord := hFlush.loadedWord flush hLoaded
  rcases h.newFront_position (h.taken_ne hLoaded hTake.2) with
    ⟨position, hNew, hReach, hPosition, hRear, hExact⟩
  have hFront : (s.fifo g).front ≤ position :=
    Nat.le_trans (Nat.le_add_right _ _) (Nat.le_trans hReach hPosition)
  rw [← hWord] at hNew
  rw [h.afterFlush_eq hTake hNew hFront hRear]
  have hIdle : (s.fifo g).borrowed = 0 := by
    simp [Stream.fifo, consumerHeld, hTake.1, hHeld]
  have hConsumer : (s.consumerHeld g).count = 0 := hIdle
  refine
    { alive := h.alive
      clientUp := h.clientUp
      serverUp := h.serverUp
      clientUnreleased := h.clientUnreleased
      serverUnreleased := h.serverUnreleased
      noOverrun := h.noOverrun
      front := ?_
      rear := h.rear
      fifo := h.fifo.skip hIdle hFront hRear
      producerAligned := h.producerAligned
      consumerAligned := ?_
      flush :=
        { hFlush with
          serverWord := hWord
          loadedWord := ?_
          idle := fun _ => rfl
          taken_le := Nat.le_refl _
          taken_near := Nat.lt_add_of_pos_right (Nat.two_pow_pos _)
          taken_eq := fun _ => rfl
          observed_pending := fun hSame => absurd rfl hSame
          last_pending := ?_
          exact := hExact
          input := ?_ } }
  · simp [Stream.fifo, Fifo.front, Cblk.wake]
  · intro hPos
    exact absurd hConsumer (Nat.ne_of_gt hPos)
  · intro w hNone
    cases hNone
  · intro hPending
    simp only [reach, Stream.fifo, Fifo.front, consumerHeld,
      hTake.1, if_true, hHeld, Nat.sub_self, Nat.add_zero]
    rcases hStill with (hSame | hLast) | hBits
    · exact absurd hSame hPending
    · rw [hLast]
      exact hRear
    · rw [hExact hBits]
      exact hFlush.observed_position_le
  · intro hIn
    rw [hTake.1] at hIn
    cases hIn

/- The flush part of a call, whether or not the flush is new. -/
theorem afterFlush (h : s.Inv g) {flush : Word} (hLoaded : s.loadedFlush = some flush)
    (hHeld : g.mIsOut = true ∧ flush ≠ s.server.mFlush → s.serverHeld.count = 0)
    (hStill : g.mIsOut = true → s.Still ∨ g.logFrameCountP2 ≤ 29) :
    (s.afterFlush g flush).Inv g := by
  by_cases hTake : g.mIsOut = true ∧ flush ≠ s.server.mFlush
  · exact h.takeFlush hLoaded hTake (hHeld hTake) (hStill hTake.1)
  · exact (h.keepFlush hLoaded hTake).1

/- The server's counter follows its position. -/
theorem serverOwn (h : s.Inv g) :
    ServerProxy.own g s.cblk =
      BitVec.ofNat 32 (if g.mIsOut then (s.fifo g).front else (s.fifo g).rear) := by
  unfold ServerProxy.own
  split
  · exact h.front
  · exact h.rear

/- The track after the server's `obtainBuffer`. -/
theorem serverObtain_eq {flush : Word} (hUp : s.server.mIsShutdown = false)
    (h : (s.afterFlush g flush).Inv g) (ask : Nat) (ackFlush : Bool) :
    ∃ held availToClient,
      s.serverObtain g flush ask ackFlush =
        { s.afterFlush g flush with
          server :=
            { (s.afterFlush g flush).server with
              mAvailToClient := availToClient
              mUnreleased := held.count }
          serverHeld := held } ∧
      (ackFlush = true ∧ held = s.serverHeld ∨ ackFlush = false ∧ held.count ≤ ask) ∧
      Chunk g.mFrameCountP2
        (if g.mIsOut then ((s.afterFlush g flush).fifo g).front
        else ((s.afterFlush g flush).fifo g).rear)
        (ServerProxy.avail g (s.afterFlush g flush).cblk.filled.toNat) held := by
  have hTake :
      s.server.takeFlush g flush s.cblk =
        ((s.afterFlush g flush).cblk, (s.afterFlush g flush).server) :=
    rfl
  have hUnreleased : (s.afterFlush g flush).server.mUnreleased = s.serverHeld.count :=
    h.serverUnreleased
  rcases ServerProxy.obtainBuffer_spec hUp hTake h.inBounds h.serverOwn ask ackFlush with
    ⟨status, buffer, availToClient, hCall, hChunk, hAsk⟩
  cases ackFlush with
  | true =>
    refine ⟨s.serverHeld, availToClient, ?_, .inl ⟨rfl, rfl⟩, h.serverHeld_chunk⟩
    rw [if_pos rfl, hUnreleased] at hCall
    simp only [Stream.serverObtain, hCall, if_true]
    rfl
  | false =>
    refine ⟨Held.ofBuffer buffer, availToClient, ?_, .inr ⟨rfl, hAsk⟩, hChunk⟩
    rw [if_neg Bool.false_ne_true] at hCall
    simp only [Stream.serverObtain, hCall, Bool.false_eq_true, if_false]
    rfl

/- The flush part of a call requests and loads no flush. -/
theorem afterFlush_marks (g : Geometry) (s : Stream F) (flush : Word) :
    (s.afterFlush g flush).hist.observed = s.hist.observed ∧
      (s.afterFlush g flush).hist.lastFlush = s.hist.lastFlush ∧
      (s.afterFlush g flush).hist.released = s.hist.released := by
  simp only [Stream.afterFlush, recordTaken]
  split <;> exact ⟨rfl, rfl, rfl⟩

/- Where the flush part of a call leaves the front. -/
theorem afterFlush_front (h : s.Inv g) (hBits : g.logFrameCountP2 ≤ 29) (hOut : g.mIsOut = true)
    {flush : Word} (hLoaded : s.loadedFlush = some flush) :
    ((s.afterFlush g flush).fifo g).front = s.obtainFront := by
  unfold obtainFront
  by_cases hSame : flush = s.server.mFlush
  · have hKeep : ¬ (g.mIsOut = true ∧ flush ≠ s.server.mFlush) := fun hTake => hTake.2 hSame
    rw [(h.keepFlush hLoaded hKeep).2, hLoaded, hSame, if_pos rfl]
    rfl
  · have hTake : g.mIsOut = true ∧ flush ≠ s.server.mFlush := ⟨hOut, hSame⟩
    have hNe : s.loadedFlush ≠ some s.server.mFlush := by
      rw [hLoaded]
      exact fun hEq => hSame (Option.some.inj hEq)
    rcases h.newFront_position (h.taken_ne hLoaded hSame) with
      ⟨position, hNew, hReach, hPosition, hRear, hExact⟩
    have hFront : (s.fifo g).front ≤ position :=
      Nat.le_trans (Nat.le_add_right _ _) (Nat.le_trans hReach hPosition)
    rw [← h.flush.loadedWord flush hLoaded] at hNew
    rw [h.afterFlush_eq hTake hNew hFront hRear, if_neg hNe, hExact hBits]
    simp [Stream.fifo, Fifo.front]

/-
  Once the flush part is done, the frames a call hands out end before a flush the call has not
  loaded.
-/
theorem reach_le_last (h : s.Inv g) (hOut : g.mIsOut = true) {flush : Word}
    (hLoaded : s.loadedFlush = some flush) (hAfter : (s.afterFlush g flush).Inv g) {ask : Nat}
    {ackFlush : Bool} (hOver : NoOvertaking g s (.serverObtain ask ackFlush)) {held : Held}
    (hAsk : ackFlush = true ∧ held = s.serverHeld ∨ ackFlush = false ∧ held.count ≤ ask)
    (hChunk :
      Chunk g.mFrameCountP2 ((s.afterFlush g flush).fifo g).front
        (((s.afterFlush g flush).fifo g).rear - ((s.afterFlush g flush).fifo g).front) held)
    (hPending : s.hist.observed.number ≠ s.hist.lastFlush.number) :
    ((s.afterFlush g flush).fifo g).front + held.count ≤ s.hist.lastFlush.position := by
  rcases hOver hOut with (hSame | hLast) | ⟨hBits, hShort⟩
  · exact absurd hSame hPending
  · rw [hLast]
    have hCount := hChunk.count_le
    have hOrder := hAfter.fifo.order
    have hRear : ((s.afterFlush g flush).fifo g).rear = s.hist.released.length :=
      congrArg List.length (afterFlush_marks g s flush).2.2
    omega
  · have hTaken := hAfter.flush.idle rfl
    have hMarks := afterFlush_marks g s flush
    have hReach := hAfter.flush.last_pending
    rw [← hTaken, hMarks.1, hMarks.2.1] at hReach
    rcases hAsk with ⟨-, hHeld⟩ | ⟨hAck, hCount⟩
    · -- the region is the one held before
      have hBorrowed : ((s.afterFlush g flush).fifo g).borrowed = held.count := by
        simp [Stream.fifo, consumerHeld, hOut, hHeld, Stream.afterFlush]
      have hBound := hReach hPending
      rw [reach, hBorrowed] at hBound
      exact hBound
    · rcases hShort with hTrue | hShort
      · rw [hAck] at hTrue
        cases hTrue
      · have hFront := h.afterFlush_front hBits hOut hLoaded
        have hRing := hChunk.count_le_ring
        rw [hFront] at hRing ⊢
        omega

/- Obtaining borrows or claims the region of the server. -/
theorem serverObtain (h : s.Inv g) {flush : Word} (hLoaded : s.loadedFlush = some flush)
    (hHeld : g.mIsOut = true ∧ flush ≠ s.server.mFlush → s.serverHeld.count = 0) {ask : Nat}
    {ackFlush : Bool} (hOver : NoOvertaking g s (.serverObtain ask ackFlush)) :
    (s.serverObtain g flush ask ackFlush).Inv g := by
  have hStill : g.mIsOut = true → s.Still ∨ g.logFrameCountP2 ≤ 29 :=
    fun hOut => (hOver hOut).imp id And.left
  have hAfter := h.afterFlush hLoaded hHeld hStill
  rcases serverObtain_eq h.serverUp hAfter ask ackFlush with
    ⟨held, availToClient, hEq, hAsk, hChunk⟩
  rw [hAfter.filled_eq, Int.toNat_natCast, ServerProxy.avail] at hChunk
  rw [hEq]
  have hProxies :
      ProxiesInv
        { s.afterFlush g flush with
          server :=
            { (s.afterFlush g flush).server with
              mAvailToClient := availToClient
              mUnreleased := held.count }
          serverHeld := held } :=
    ⟨hAfter.alive, hAfter.clientUp, hAfter.serverUp, hAfter.clientUnreleased, rfl⟩
  have hSame : SameCounters (s.afterFlush g flush).cblk (s.afterFlush g flush).cblk :=
    ⟨rfl, rfl, rfl, id⟩
  cases hOut : g.mIsOut with
  | true =>
    rw [hOut, if_pos rfl, if_pos rfl] at hChunk
    have hReach := h.reach_le_last hOut hLoaded hAfter hOver hAsk hChunk
    have hTaken := hAfter.flush.idle rfl
    have hMarks := afterFlush_marks g s flush
    rw [← hMarks.1, ← hMarks.2.1, hTaken] at hReach
    refine hAfter.borrowed held ?_ ?_ ?_ hChunk hSame hProxies ?_
    · simp [Stream.fifo, producerHeld, consumerHeld, hOut, Fifo.borrow]
    · simp [consumerHeld, hOut]
    · simp [producerHeld, hOut]
    · exact
        { hAfter.flush with
          observed_pending := fun hNe =>
            absurd (congrArg FlushMark.number hTaken.symm)
              hNe
          last_pending := by
            intro hNe
            have hBound := hReach hNe
            simpa [reach, Stream.fifo, Fifo.front, consumerHeld, hOut] using hBound }
  | false =>
    rw [hOut, if_neg Bool.false_ne_true, if_neg Bool.false_ne_true] at hChunk
    refine hAfter.claimed held ?_ ?_ ?_ hChunk hSame hProxies ?_
    · simp [Stream.fifo, producerHeld, consumerHeld, hOut, Fifo.claim]
    · simp [producerHeld, hOut]
    · simp [consumerHeld, hOut]
    · refine hAfter.flush.frame rfl rfl rfl rfl rfl rfl rfl (Nat.le_refl _) ?_
      intro hIn
      rw [hOut] at hIn
      cases hIn

end Inv

end Stream

--
-- Runs
--

namespace Stream

variable {F : Type} {g : Geometry} {s t : Stream F}

/- Every disciplined action keeps the invariant. -/
theorem Inv.next (h : s.Inv g) {a : Action F} (hEnabled : Enabled g s a)
    (hOk : FlushDiscipline g s a) : (next g s a).Inv g := by
  cases a with
  | clientObtain ask timeout ignoreInterrupt expired =>
    exact h.clientObtain ask timeout ignoreInterrupt expired
  | clientRelease count => exact h.clientRelease hEnabled
  | clientFlush => exact h.clientFlush hEnabled hOk.1.1
  | interrupt => exact h.interrupt
  | binderDied => exact h.binderDied
  | serverBegin => exact h.serverBegin hEnabled
  | serverObtain ask ackFlush =>
    rcases Option.isSome_iff_exists.mp hEnabled.2 with ⟨flush, hLoaded⟩
    simp only [AudioTrackShared.next, hLoaded, Option.getD_some]
    refine h.serverObtain hLoaded ?_ hOk.2
    rintro ⟨hOut, hNe⟩
    apply hOk.1.2 hOut
    rw [hLoaded]
    exact fun hSame => hNe (Option.some.inj hSame)
  | serverRelease count => exact h.serverRelease hEnabled.1
  | framesReady => exact h.framesReady
  | write offset frame => exact h.write hEnabled frame

/- A step is an enabled action of a live track. -/
theorem step_eq_some {a : Action F} :
    step g s a = some t ↔ (s.fatal = false ∧ Enabled g s a) ∧ AudioTrackShared.next g s a = t := by
  unfold step
  split <;> simp_all

/- The invariant holds after every disciplined run. -/
theorem Inv.run (h : s.Inv g) {as : List (Action F)}
    (hRun : Run.exec (Run.guarded (FlushDiscipline g) (step g)) s as = some t) : t.Inv g := by
  refine Run.exec_invariant ?_ hRun h
  intro s a t h hStep
  rcases Run.guarded_eq_some.mp hStep with ⟨hOk, hStep⟩
  rcases step_eq_some.mp hStep with ⟨⟨_, hEnabled⟩, hNext⟩
  rw [← hNext]
  exact h.next hEnabled hOk

end Stream

end AudioTrackShared

end FrameworksAv
