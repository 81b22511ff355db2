import FrameworksAv.AudioTrackShared.StreamingInvariant

/-
  The steps of the client keep the invariant of a track.

  Obtaining claims or borrows cells of the abstract FIFO and releasing publishes or consumes them.
  The rules for the two roles are stated once and serve both sides.

  Main declarations:
    * `Stream.FlushInv.frame`
    * `Stream.Inv.claimed`, `Stream.Inv.borrowed`
    * `Stream.Inv.clientFlush`
    * `Stream.Inv.write`
-/

--
-- Frame Rule For Flushes
--

namespace FrameworksAv

namespace AudioTrackShared

namespace Stream

variable {F : Type} {g : Geometry} {s t : Stream F}

/-
  A step that neither flushes nor looks at a flush keeps the flush words, as long as the consumer of
  an output track does not reach further.
-/
theorem FlushInv.frame (h : s.FlushInv g) (hWord : t.cblk.mFlush = s.cblk.mFlush)
    (hServer : t.server.mFlush = s.server.mFlush) (hLoaded : t.loadedFlush = s.loadedFlush)
    (hLast : t.hist.lastFlush = s.hist.lastFlush) (hObserved : t.hist.observed = s.hist.observed)
    (hTaken : t.hist.taken = s.hist.taken) (hFront : t.hist.takenFront = s.hist.takenFront)
    (hReleased : s.hist.released.length ≤ t.hist.released.length)
    (hReach : g.mIsOut = true → t.reach g ≤ s.reach g) : t.FlushInv g := by
  -- an input track never has a pending flush
  have hOut : s.hist.taken.number ≠ s.hist.lastFlush.number → g.mIsOut = true := by
    intro hNe
    by_contra hIn
    exact hNe (h.input (Bool.eq_false_iff.mpr hIn))
  refine
    { word := by rw [hWord, hLast, h.word]
      serverWord := by rw [hServer, hTaken, h.serverWord]
      loadedWord := ?_
      idle := ?_
      taken_le := by rw [hTaken, hObserved]; exact h.taken_le
      taken_near := by
        rw [hTaken, hObserved]
        exact h.taken_near
      taken_eq := by rw [hTaken, hObserved]; exact h.taken_eq
      observed_le := by
        rw [hObserved, hLast]
        exact h.observed_le
      observed_near := by
        rw [hObserved, hLast]
        exact h.observed_near
      observed_eq := by
        rw [hObserved, hLast]
        exact h.observed_eq
      observed_position_le := by
        rw [hObserved, hLast]
        exact h.observed_position_le
      last_position_le := by
        rw [hLast]
        exact Nat.le_trans h.last_position_le hReleased
      observed_pending := ?_
      last_pending := ?_
      exact := by rw [hFront, hTaken]; exact h.exact
      lastRear := by rw [hLast]; exact h.lastRear
      observedRear := by rw [hObserved]; exact h.observedRear
      input := by rw [hTaken, hLast]; exact h.input }
  · rw [hLoaded, hObserved]
    exact h.loadedWord
  · rw [hLoaded, hObserved, hTaken]
    exact h.idle
  · rw [hTaken, hObserved]
    intro hNe
    have hNumbers := h.observed_le
    have hTakenLe := h.taken_le
    exact Nat.le_trans (hReach (hOut (by omega))) (h.observed_pending hNe)
  · rw [hTaken, hLast]
    intro hNe
    exact Nat.le_trans (hReach (hOut hNe)) (h.last_pending hNe)

end Stream

--
-- Client Steps
--

/- The rest of an aligned region is aligned. -/
theorem Aligned.drop {cap pos : Nat} {held : Held} (h : Aligned cap pos held) (count : Nat) :
    Aligned cap (pos + count) (held.drop count) := by
  intro hPos
  simp only [Held.drop] at hPos ⊢
  rcases h (by omega) with ⟨hRaw, hFit⟩
  have hMod : (pos + count) % cap = pos % cap + count := Ring.add_mod_of_lt (by omega)
  rw [hMod, hRaw]
  exact ⟨rfl, by omega⟩

/- The frames of an aligned region are the next window. -/
theorem Aligned.slice_eq {F : Type} {cap pos count : Nat} {held : Held} (h : Aligned cap pos held)
    (hCount : count ≤ held.count) (cells : Nat → F) :
    Ring.slice cells held.raw count = Ring.window cells cap pos count := by
  rcases Nat.eq_zero_or_pos count with hZero | hPos
  · subst hZero
    rfl
  · rcases h (by omega) with ⟨hRaw, hFit⟩
    rw [hRaw, Ring.window_eq_slice cells (by omega)]

namespace Stream

namespace Inv

variable {F : Type} {g : Geometry} {s : Stream F}

/- The client's counter follows its position. -/
theorem clientOwn (h : s.Inv g) :
    ClientProxy.own g s.cblk =
      BitVec.ofNat 32 (if g.mIsOut then (s.fifo g).rear else (s.fifo g).front) := by
  unfold ClientProxy.own
  split
  · exact h.rear
  · exact h.front

/- A region that was just obtained by the producer. -/
theorem claimed (h : s.Inv g) {t : Stream F} (held : Held)
    (hFifo : t.fifo g = (s.fifo g).claim held.count) (hHeld : t.producerHeld g = held)
    (hOther : t.consumerHeld g = s.consumerHeld g)
    (hChunk :
      Chunk g.mFrameCountP2 (s.fifo g).rear
        (g.mFrameCount - ((s.fifo g).rear - (s.fifo g).front)) held)
    (hCounters : SameCounters s.cblk t.cblk) (hProxies : t.ProxiesInv) (hFlush : t.FlushInv g) :
    t.Inv g := by
  have hCount := hChunk.count_le
  have hRoom := h.fifo.filled_le
  have hOrder := h.fifo.order
  exact
    { hProxies with
      noOverrun := hCounters.overrun h.noOverrun
      front := by
        rw [hCounters.mFront, h.front, hFifo]
        rfl
      rear := by
        rw [hCounters.mRear, h.rear, hFifo]
        rfl
      fifo := by
        rw [hFifo]
        exact h.fifo.claim (by omega)
      producerAligned := by
        rw [hFifo, hHeld]
        exact hChunk.aligned
      consumerAligned := by
        rw [hFifo, hOther]
        exact h.consumerAligned
      flush := hFlush }

/- A region that was just obtained by the consumer. -/
theorem borrowed (h : s.Inv g) {t : Stream F} (held : Held)
    (hFifo : t.fifo g = (s.fifo g).borrow held.count) (hHeld : t.consumerHeld g = held)
    (hOther : t.producerHeld g = s.producerHeld g)
    (hChunk : Chunk g.mFrameCountP2 (s.fifo g).front ((s.fifo g).rear - (s.fifo g).front) held)
    (hCounters : SameCounters s.cblk t.cblk) (hProxies : t.ProxiesInv) (hFlush : t.FlushInv g) :
    t.Inv g := by
  have hCount := hChunk.count_le
  have hOrder := h.fifo.order
  exact
    { hProxies with
      noOverrun := hCounters.overrun h.noOverrun
      front := by
        rw [hCounters.mFront, h.front, hFifo]
        rfl
      rear := by
        rw [hCounters.mRear, h.rear, hFifo]
        rfl
      fifo := by
        rw [hFifo]
        exact h.fifo.borrow (by omega)
      producerAligned := by
        rw [hFifo, hOther]
        exact h.producerAligned
      consumerAligned := by
        rw [hFifo, hHeld]
        exact hChunk.aligned
      flush := hFlush }

/- Frames the producer just published. -/
theorem produced (h : s.Inv g) {t : Stream F} (count : Nat)
    (hCount : count ≤ (s.producerHeld g).count)
    (hFifo : t.fifo g = (s.fifo g).produce g.mFrameCountP2 count)
    (hHeld : t.producerHeld g = (s.producerHeld g).drop count)
    (hOther : t.consumerHeld g = s.consumerHeld g) (hAdvance : Advance 0 count s.cblk t.cblk)
    (hProxies : t.ProxiesInv) (hFlush : t.FlushInv g) : t.Inv g := by
  have hFront : (t.fifo g).front = (s.fifo g).front := by
    rw [hFifo]
    rfl
  have hRear : (t.fifo g).rear = (s.fifo g).rear + count := by
    rw [hFifo]
    simp [Fifo.produce, Fifo.rear]
  exact
    { hProxies with
      noOverrun := by
        rw [hAdvance.mFlags]
        exact h.noOverrun
      front := by
        rw [hAdvance.mFront, h.front, hFront]
        exact BitVec.zero_add _
      rear := by
        rw [hAdvance.mRear, h.rear, hRear, Nat.add_comm, Counter.ofNat_add]
      fifo := by
        rw [hFifo]
        exact h.fifo.produce hCount
      producerAligned := by
        rw [hRear, hHeld]
        exact h.producerAligned.drop count
      consumerAligned := by
        rw [hFront, hOther]
        exact h.consumerAligned
      flush := hFlush }

/- Frames the consumer is just done with. -/
theorem consumed (h : s.Inv g) {t : Stream F} (count : Nat)
    (hCount : count ≤ (s.consumerHeld g).count)
    (hFifo : t.fifo g = (s.fifo g).consume g.mFrameCountP2 count)
    (hHeld : t.consumerHeld g = (s.consumerHeld g).drop count)
    (hOther : t.producerHeld g = s.producerHeld g) (hAdvance : Advance count 0 s.cblk t.cblk)
    (hProxies : t.ProxiesInv) (hFlush : t.FlushInv g) : t.Inv g := by
  have hRear : (t.fifo g).rear = (s.fifo g).rear := by
    rw [hFifo]
    rfl
  have hStart := h.fifo.start_le
  have hFront : (t.fifo g).front = (s.fifo g).front + count := by
    rw [hFifo]
    exact Fifo.consume_front hStart
  exact
    { hProxies with
      noOverrun := by
        rw [hAdvance.mFlags]
        exact h.noOverrun
      front := by
        rw [hAdvance.mFront, h.front, hFront, Nat.add_comm, Counter.ofNat_add]
      rear := by
        rw [hAdvance.mRear, h.rear, hRear]
        exact BitVec.zero_add _
      fifo := by
        rw [hFifo]
        exact h.fifo.consume hCount
      producerAligned := by
        rw [hRear, hOther]
        exact h.producerAligned
      consumerAligned := by
        rw [hFront, hHeld]
        exact h.consumerAligned.drop count
      flush := hFlush }

/- What the producer holds is a chunk of the free cells. -/
theorem producer_chunk (h : s.Inv g) :
    Chunk g.mFrameCountP2 (s.fifo g).rear (g.mFrameCount - ((s.fifo g).rear - (s.fifo g).front))
      (s.producerHeld g) := by
  have hRoom := h.fifo.room
  have hOrder := h.fifo.order
  have hClaimed : (s.fifo g).claimed = (s.producerHeld g).count :=
    rfl
  exact ⟨by omega, h.producerAligned⟩

/- What the consumer holds is a chunk of the filled cells. -/
theorem consumer_chunk (h : s.Inv g) :
    Chunk g.mFrameCountP2 (s.fifo g).front ((s.fifo g).rear - (s.fifo g).front)
      (s.consumerHeld g) := by
  have hAvail := h.fifo.avail
  have hBorrowed : (s.fifo g).borrowed = (s.consumerHeld g).count :=
    rfl
  exact ⟨by omega, h.consumerAligned⟩

/- What the client holds is a chunk it could obtain now. -/
theorem clientHeld_chunk (h : s.Inv g) :
    Chunk g.mFrameCountP2 (if g.mIsOut then (s.fifo g).rear else (s.fifo g).front)
      (ClientProxy.avail g s.cblk.filled.toNat) s.clientHeld := by
  have hProducer := h.producer_chunk
  have hConsumer := h.consumer_chunk
  rw [h.filled_eq, Int.toNat_natCast, ClientProxy.avail]
  cases hOut : g.mIsOut with
  | true => simpa [producerHeld, hOut] using hProducer
  | false => simpa [consumerHeld, hOut] using hConsumer

/- What the server holds is a chunk it could obtain now. -/
theorem serverHeld_chunk (h : s.Inv g) :
    Chunk g.mFrameCountP2 (if g.mIsOut then (s.fifo g).front else (s.fifo g).rear)
      (ServerProxy.avail g s.cblk.filled.toNat) s.serverHeld := by
  have hProducer := h.producer_chunk
  have hConsumer := h.consumer_chunk
  rw [h.filled_eq, Int.toNat_natCast, ServerProxy.avail]
  cases hOut : g.mIsOut with
  | true => simpa [consumerHeld, hOut] using hConsumer
  | false => simpa [producerHeld, hOut] using hProducer

theorem clientHeld_le (h : s.Inv g) : s.clientHeld.count ≤ g.mFrameCount := by
  have hChunk := h.clientHeld_chunk.count_le
  have hPlausible := h.inBounds.2
  unfold ClientProxy.avail at hChunk
  split at hChunk <;> omega

theorem serverHeld_le (h : s.Inv g) : s.serverHeld.count ≤ g.mFrameCount := by
  have hChunk := h.serverHeld_chunk.count_le
  have hPlausible := h.inBounds.2
  unfold ServerProxy.avail at hChunk
  split at hChunk <;> omega

/- The track after a pass of the client's `obtainBuffer`. -/
theorem clientObtain_eq (h : s.Inv g) (ask : Nat) (timeout : Timeout)
    (ignoreInterrupt expired : Bool) :
    ∃ cblk held,
      s.clientObtain g ask timeout ignoreInterrupt expired =
        { s with
          cblk := cblk
          client := ⟨false, held.count⟩
          clientHeld := held } ∧
      SameCounters s.cblk cblk ∧
      Chunk g.mFrameCountP2 (if g.mIsOut then (s.fifo g).rear else (s.fifo g).front)
        (ClientProxy.avail g s.cblk.filled.toNat) held := by
  unfold Stream.clientObtain
  generalize hCall : s.client.obtainBuffer g timeout ignoreInterrupt expired s.cblk ask = r
  rcases ClientProxy.obtainBuffer_spec h.clientUp h.inBounds h.clientOwn hCall with
    ⟨hCounters, hWait | ⟨status, buffer, hReturn, hChunk⟩⟩
  · refine ⟨r.1, s.clientHeld, ?_, hCounters, h.clientHeld_chunk⟩
    have hClient : s.client = ⟨false, s.clientHeld.count⟩ := by
      rw [← h.clientUp, ← h.clientUnreleased]
    simp only [hWait, hClient]
  · refine ⟨r.1, Held.ofBuffer buffer, ?_, hCounters, hChunk⟩
    simp only [hReturn, Held.ofBuffer]

/- Obtaining claims the region of the client. -/
theorem clientObtain (h : s.Inv g) (ask : Nat) (timeout : Timeout)
    (ignoreInterrupt expired : Bool) :
    (s.clientObtain g ask timeout ignoreInterrupt expired).Inv g := by
  rcases h.clientObtain_eq ask timeout ignoreInterrupt expired with
    ⟨cblk, held, hEq, hCounters, hChunk⟩
  rw [h.filled_eq, Int.toNat_natCast, ClientProxy.avail] at hChunk
  rw [hEq]
  have hProxies :
      ProxiesInv
        { s with
          cblk := cblk
          client := ⟨false, held.count⟩
          clientHeld := held } :=
    ⟨h.alive, rfl, h.serverUp, rfl, h.serverUnreleased⟩
  have hFlush :
      FlushInv g
        { s with
          cblk := cblk
          client := ⟨false, held.count⟩
          clientHeld := held } := by
    refine h.flush.frame hCounters.mFlush rfl rfl rfl rfl rfl
      rfl (Nat.le_refl _) ?_
    intro hOut
    simp [reach, Stream.fifo, Fifo.front, consumerHeld, hOut]
  cases hOut : g.mIsOut with
  | true =>
    rw [hOut, if_pos rfl] at hChunk
    refine h.claimed held ?_ ?_ ?_ hChunk hCounters hProxies hFlush <;>
      simp [Stream.fifo, producerHeld, consumerHeld, hOut, Fifo.claim]
  | false =>
    rw [hOut, if_neg Bool.false_ne_true] at hChunk
    refine h.borrowed held ?_ ?_ ?_ hChunk hCounters hProxies hFlush <;>
      simp [Stream.fifo, producerHeld, consumerHeld, hOut, Fifo.borrow]

/- A step that moves no frame and no counter. -/
theorem quiet (h : s.Inv g) {t : Stream F} (hFifo : t.fifo g = s.fifo g)
    (hProducer : t.producerHeld g = s.producerHeld g)
    (hConsumer : t.consumerHeld g = s.consumerHeld g) (hFront : t.cblk.mFront = s.cblk.mFront)
    (hRear : t.cblk.mRear = s.cblk.mRear) (hOverrun : t.cblk.mFlags &&& cblkOverrun = 0)
    (hProxies : t.ProxiesInv) (hFlush : t.FlushInv g) : t.Inv g :=
  { hProxies with
    noOverrun := hOverrun
    front := by rw [hFront, h.front, hFifo]
    rear := by rw [hRear, h.rear, hFifo]
    fifo := by rw [hFifo]; exact h.fifo
    producerAligned := by
      rw [hFifo, hProducer]
      exact h.producerAligned
    consumerAligned := by
      rw [hFifo, hConsumer]
      exact h.consumerAligned
    flush := hFlush }

/- Releasing publishes or consumes the client's frames. -/
theorem clientRelease (h : s.Inv g) {count : Nat} (hCount : count ≤ s.clientHeld.count) :
    (s.clientRelease g count).Inv g := by
  have hUnreleased : count ≤ s.client.mUnreleased := by
    rw [h.clientUnreleased]
    exact hCount
  rcases ClientProxy.releaseBuffer_spec s.cblk (s.clientHeld.toBuffer count) h.clientUp hUnreleased
      (by rw [h.clientUnreleased]; exact h.clientHeld_le) with
    ⟨cblk, buffer, hCall, hAdvance⟩
  have hUp := h.clientUp
  simp only [Held.toBuffer] at hCall hAdvance
  simp only [Stream.clientRelease, Held.toBuffer, hCall, hUp, Bool.false_eq_true, if_false]
  cases hOut : g.mIsOut with
  | true =>
    rw [hOut] at hAdvance
    have hAligned := h.producerAligned
    simp only [producerHeld, hOut, if_true] at hAligned
    refine h.produced count ?_ ?_ ?_ ?_ hAdvance ⟨h.alive, rfl, h.serverUp, ?_, h.serverUnreleased⟩
      ?_
    · simpa [producerHeld, hOut] using hCount
    · rw [hAligned.slice_eq hCount]
      simp [Stream.fifo, Stream.record, producerHeld, consumerHeld, hOut, Fifo.produce, Held.drop,
        Fifo.rear]
    · simp [producerHeld, hOut]
    · simp [consumerHeld, hOut, Stream.record]
    · simp [Held.drop, h.clientUnreleased]
    · refine h.flush.frame hAdvance.mFlush rfl rfl rfl rfl
        rfl rfl ?_ ?_
      · simp [Stream.record]
      · intro _
        simp [reach, Stream.fifo, Fifo.front, consumerHeld, Stream.record, hOut]
  | false =>
    rw [hOut] at hAdvance
    have hAligned := h.consumerAligned
    simp only [consumerHeld, hOut, Bool.false_eq_true, if_false] at hAligned
    refine h.consumed count ?_ ?_ ?_ ?_ hAdvance ⟨h.alive, rfl, h.serverUp, ?_, h.serverUnreleased⟩
      ?_
    · simpa [consumerHeld, hOut] using hCount
    · rw [hAligned.slice_eq hCount]
      simp [Stream.fifo, Stream.record, producerHeld, consumerHeld, hOut, Fifo.consume, Held.drop]
    · simp [consumerHeld, hOut]
    · simp [producerHeld, hOut, Stream.record]
    · simp [Held.drop, h.clientUnreleased]
    · refine h.flush.frame hAdvance.mFlush rfl rfl rfl rfl
        rfl rfl ?_ ?_
      · simp [Stream.record]
      · intro hIn
        rw [hOut] at hIn
        cases hIn

/- A flush changes only the flush word. -/
theorem clientFlush (h : s.Inv g) (hOut : g.mIsOut = true)
    (hPeriod : s.hist.lastFlush.number + 1 < s.hist.observed.number + g.flushPeriod) :
    (s.clientFlush g).Inv g := by
  have hFlush := h.flush
  have hObservedLe := hFlush.observed_le
  exact h.quiet rfl rfl rfl rfl rfl h.noOverrun
    ⟨h.alive, h.clientUp, h.serverUp, h.clientUnreleased, h.serverUnreleased⟩
    { hFlush with
      word := ClientProxy.flush_mFlush g s.cblk hFlush.word h.rear _
      observed_le := Nat.le_succ_of_le hObservedLe
      observed_near := hPeriod
      observed_eq := by
        intro hEq
        simp only [Stream.clientFlush] at hEq
        omega
      observed_position_le := Nat.le_trans hFlush.observed_position_le hFlush.last_position_le
      last_position_le := Nat.le_refl _
      last_pending := fun _ => h.fifo.avail
      lastRear := h.rear
      input := by
        intro hIn
        rw [hOut] at hIn
        cases hIn }

/- Raising a flag other than the overrun flag. -/
theorem raiseFlag (h : s.Inv g) {cblk : Cblk} (bit : Word) (hBit : bit &&& cblkOverrun = 0)
    (hFront : cblk.mFront = s.cblk.mFront) (hRear : cblk.mRear = s.cblk.mRear)
    (hWord : cblk.mFlush = s.cblk.mFlush) (hFlags : cblk.mFlags = s.cblk.mFlags ||| bit) :
    Inv g { s with cblk := cblk } :=
  h.quiet rfl rfl rfl hFront hRear (by rw [hFlags]; exact or_overrun hBit h.noOverrun)
    ⟨h.alive, h.clientUp, h.serverUp, h.clientUnreleased, h.serverUnreleased⟩
    (h.flush.frame hWord rfl rfl rfl rfl rfl rfl (Nat.le_refl _) (fun _ => Nat.le_refl _))

theorem interrupt (h : s.Inv g) : Inv g { s with cblk := ClientProxy.interrupt s.cblk } := by
  simp only [ClientProxy.interrupt]
  split <;>
    exact h.raiseFlag cblkInterrupt rfl rfl rfl rfl rfl

theorem binderDied (h : s.Inv g) : Inv g { s with cblk := ClientProxy.binderDied s.cblk } := by
  simp only [ClientProxy.binderDied]
  split <;>
    exact h.raiseFlag cblkInvalid rfl rfl rfl rfl rfl

/- A write inside the producer's region. -/
theorem write (h : s.Inv g) {offset : Nat} (hOffset : offset < (s.producerHeld g).count)
    (frame : F) : (s.write g offset frame).Inv g := by
  rcases h.producerAligned (by omega) with ⟨hRaw, hFit⟩
  have hCell : (s.producerHeld g).raw + offset = ((s.fifo g).rear + offset) % g.mFrameCountP2 := by
    rw [hRaw, Ring.add_mod_of_lt (by omega)]
  have hFifo : (s.write g offset frame).fifo g = (s.fifo g).write g.mFrameCountP2 offset frame := by
    simp only [Stream.fifo, Stream.write, Fifo.write, hCell]
    rfl
  exact
    { alive := h.alive
      clientUp := h.clientUp
      serverUp := h.serverUp
      clientUnreleased := h.clientUnreleased
      serverUnreleased := h.serverUnreleased
      noOverrun := h.noOverrun
      front := h.front
      rear := h.rear
      fifo := by
        rw [hFifo]
        exact h.fifo.write g.mFrameCount_le hOffset frame
      producerAligned := h.producerAligned
      consumerAligned := h.consumerAligned
      flush := h.flush.frame rfl rfl rfl rfl rfl rfl rfl (Nat.le_refl _) (fun _ => Nat.le_refl _) }

end Inv

end Stream

end AudioTrackShared

end FrameworksAv
