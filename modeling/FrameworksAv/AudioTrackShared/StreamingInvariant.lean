import FrameworksAv.AudioTrackShared.FlushWord

/-
  The invariant of a streaming track.

  `Stream.fifo` reads a track as the abstract FIFO of `Base.Fifo`: the wrapped counters follow its
  unbounded positions and every call of a proxy is one of its operations.

  Main declarations:
    * `Stream.fifo`
    * `Stream.Inv`
    * `Stream.inv_init`
    * `Stream.Inv.step`
-/

--
-- Invariant
--

namespace FrameworksAv

namespace AudioTrackShared

variable {F : Type}

/- A held region starts at its position and does not wrap. -/
def Aligned (cap pos : Nat) (held : Held) : Prop :=
  0 < held.count → held.raw = pos % cap ∧ pos % cap + held.count ≤ cap

namespace Stream

/- The track as an abstract FIFO. -/
def fifo (g : Geometry) (s : Stream F) : Fifo F where
  cells := s.mBuffers
  released := s.hist.released
  consumed := s.hist.consumed
  epochFront := s.hist.takenFront
  epochStart := s.hist.takenAt
  claimed := (s.producerHeld g).count
  borrowed := (s.consumerHeld g).count

/- The consumer may still release frames below this. -/
def reach (g : Geometry) (s : Stream F) : Nat :=
  (s.fifo g).front + (s.fifo g).borrowed

/- The flush words and the marks they encode. -/
structure FlushInv (g : Geometry) (s : Stream F) : Prop where
  word : s.cblk.mFlush = g.flushWord s.hist.lastFlush
  serverWord : s.server.mFlush = g.flushWord s.hist.taken
  loadedWord : ∀ w, s.loadedFlush = some w → w = g.flushWord s.hist.observed
  idle : s.loadedFlush = none → s.hist.observed = s.hist.taken
  taken_le : s.hist.taken.number ≤ s.hist.observed.number
  taken_near : s.hist.observed.number < s.hist.taken.number + g.flushPeriod
  taken_eq : s.hist.taken.number = s.hist.observed.number → s.hist.taken = s.hist.observed
  observed_le : s.hist.observed.number ≤ s.hist.lastFlush.number
  observed_near : s.hist.lastFlush.number < s.hist.observed.number + g.flushPeriod
  observed_eq :
    s.hist.observed.number = s.hist.lastFlush.number → s.hist.observed = s.hist.lastFlush
  observed_position_le : s.hist.observed.position ≤ s.hist.lastFlush.position
  last_position_le : s.hist.lastFlush.position ≤ s.hist.released.length
  observed_pending :
    s.hist.taken.number ≠ s.hist.observed.number → s.reach g ≤ s.hist.observed.position
  last_pending :
    s.hist.taken.number ≠ s.hist.lastFlush.number → s.reach g ≤ s.hist.lastFlush.position
  exact : g.logFrameCountP2 ≤ 29 → s.hist.takenFront = s.hist.taken.position
  lastRear : s.hist.lastFlush.rear = BitVec.ofNat 32 s.hist.lastFlush.position
  observedRear : s.hist.observed.rear = BitVec.ofNat 32 s.hist.observed.position
  input : g.mIsOut = false → s.hist.taken.number = s.hist.lastFlush.number

/- No proxy failed and both know what their caller holds. -/
structure ProxiesInv (s : Stream F) : Prop where
  alive : s.fatal = false
  clientUp : s.client.mIsShutdown = false
  serverUp : s.server.mIsShutdown = false
  clientUnreleased : s.client.mUnreleased = s.clientHeld.count
  serverUnreleased : s.server.mUnreleased = s.serverHeld.count

/- Everything the two sides rely on. -/
structure Inv (g : Geometry) (s : Stream F) : Prop extends ProxiesInv s where
  noOverrun : s.cblk.mFlags &&& cblkOverrun = 0
  front : s.cblk.mFront = BitVec.ofNat 32 (s.fifo g).front
  rear : s.cblk.mRear = BitVec.ofNat 32 (s.fifo g).rear
  fifo : (s.fifo g).Inv g.mFrameCountP2 g.mFrameCount
  producerAligned : Aligned g.mFrameCountP2 (s.fifo g).rear (s.producerHeld g)
  consumerAligned : Aligned g.mFrameCountP2 (s.fifo g).front (s.consumerHeld g)
  flush : s.FlushInv g

theorem inv_init (g : Geometry) (mBuffers : Nat → F) : (init mBuffers).Inv g where
  alive := rfl
  clientUp := rfl
  serverUp := rfl
  noOverrun := BitVec.zero_and
  front := rfl
  rear := rfl
  fifo := by
    have hFifo : (init mBuffers).fifo g = Fifo.empty mBuffers := by
      cases hOut : g.mIsOut <;>
        simp [fifo, init, producerHeld, consumerHeld, Fifo.empty, hOut]
    rw [hFifo]
    exact Fifo.inv_empty _ _ _
  producerAligned := by
    intro hPos
    exfalso
    unfold producerHeld at hPos
    split at hPos <;> exact Nat.lt_irrefl 0 hPos
  consumerAligned := by
    intro hPos
    exfalso
    unfold consumerHeld at hPos
    split at hPos <;> exact Nat.lt_irrefl 0 hPos
  clientUnreleased := rfl
  serverUnreleased := rfl
  flush :=
    { word := by simp [init, Cblk.init, Geometry.flushWord]
      serverWord := by simp [init, Geometry.flushWord]
      loadedWord := by
        intro w hLoaded
        cases hLoaded
      idle := fun _ => rfl
      taken_le := Nat.le_refl 0
      taken_near := Nat.lt_add_of_pos_right (Nat.two_pow_pos _)
      taken_eq := fun _ => rfl
      observed_le := Nat.le_refl 0
      observed_near := Nat.lt_add_of_pos_right (Nat.two_pow_pos _)
      observed_eq := fun _ => rfl
      observed_position_le := Nat.le_refl 0
      last_position_le := Nat.le_refl 0
      observed_pending := fun hNe => absurd rfl hNe
      last_pending := fun hNe => absurd rfl hNe
      exact := fun _ => rfl
      lastRear := rfl
      observedRear := rfl
      input := fun _ => rfl }

namespace Inv

variable {g : Geometry} {s : Stream F}

/- The wrapped distance is the number of filled frames. -/
theorem filled_eq (h : s.Inv g) : s.cblk.filled = ((s.fifo g).rear - (s.fifo g).front : Nat) := by
  have hRoom := h.fifo.filled_le
  have hCount := g.mFrameCount_le
  have hPow : 2 ^ g.logFrameCountP2 ≤ 2 ^ 30 := Nat.pow_le_pow_right (by omega) g.logFrameCountP2_le
  rw [Cblk.filled, h.front, h.rear]
  exact Counter.toInt_sub_ofNat h.fifo.order (by omega)

theorem inBounds (h : s.Inv g) : g.Plausible s.cblk.filled := by
  have hRoom := h.fifo.filled_le
  rw [h.filled_eq, Geometry.Plausible]
  omega

end Inv

end Stream

end AudioTrackShared

--
-- Obtained Chunks
--

namespace AudioTrackShared

/- A chunk of the available frames, aligned in the ring. -/
structure Chunk (cap pos avail : Nat) (held : Held) : Prop where
  count_le : held.count ≤ avail
  aligned : Aligned cap pos held

/- A chunk ends at the end of the ring at the latest. -/
theorem Chunk.count_le_ring {cap pos avail : Nat} {held : Held} (h : Chunk cap pos avail held) :
    held.count ≤ cap - pos % cap := by
  rcases Nat.eq_zero_or_pos held.count with hZero | hPos
  · omega
  · have hFit := (h.aligned hPos).2
    omega

/- An empty region is a chunk of anything. -/
theorem Chunk.null (cap pos avail : Nat) : Chunk cap pos avail (Held.ofBuffer Buffer.null) where
  count_le := Nat.zero_le _
  aligned := fun hPos => absurd hPos (Nat.lt_irrefl 0)

/- The region after `firstChunk` at a position. -/
theorem firstChunk_chunk (g : Geometry) {own : Word} {pos : Nat} (hOwn : own = BitVec.ofNat 32 pos)
    (avail ask : Nat) :
    Chunk g.mFrameCountP2 pos avail (Held.ofBuffer (firstChunk g own avail ask)) := by
  have hLog := g.logFrameCountP2_le
  have hIndex : Counter.index own g.mFrameCountP2 = pos % g.mFrameCountP2 := by
    rw [hOwn, Geometry.mFrameCountP2]
    exact Counter.index_ofNat pos (by omega)
  have hLt : pos % g.mFrameCountP2 < g.mFrameCountP2 := Nat.mod_lt _ (Nat.two_pow_pos _)
  refine ⟨?_, ?_⟩
  · simp only [Held.ofBuffer, firstChunk]
    split <;> split <;> omega
  · intro hPos
    simp only [Held.ofBuffer, firstChunk, hIndex] at hPos ⊢
    rw [if_pos hPos]
    refine ⟨rfl, ?_⟩
    split <;> split <;> omega

/- No more frames are handed out than the caller asks for. -/
theorem firstChunk_le (g : Geometry) (own : Word) (avail ask : Nat) :
    (firstChunk g own avail ask).mFrameCount ≤ ask := by
  simp only [firstChunk]
  split <;> split <;> omega

/- The counters and the overrun flag are as before. -/
structure SameCounters (c c' : Cblk) : Prop where
  mFront : c'.mFront = c.mFront
  mRear : c'.mRear = c.mRear
  mFlush : c'.mFlush = c.mFlush
  overrun : c.mFlags &&& cblkOverrun = 0 → c'.mFlags &&& cblkOverrun = 0

/- Masking flag bits cannot raise an overrun. -/
theorem and_overrun {flags : Word} (mask : Word) (hFlags : flags &&& cblkOverrun = 0) :
    flags &&& mask &&& cblkOverrun = 0 := by
  rw [BitVec.and_assoc, BitVec.and_comm mask, ← BitVec.and_assoc, hFlags]
  exact BitVec.zero_and

/- Setting another flag cannot raise an overrun. -/
theorem or_overrun {flags bit : Word} (hBit : bit &&& cblkOverrun = 0)
    (hFlags : flags &&& cblkOverrun = 0) : (flags ||| bit) &&& cblkOverrun = 0 := by
  rw [BitVec.and_comm, BitVec.and_or_distrib_left,
    BitVec.and_comm _ flags, BitVec.and_comm _ bit, hBit, hFlags, BitVec.or_self]

namespace ClientProxy

/-
  A pass of `obtainBuffer` over a plausible pipe leaves the counters alone and either waits, or
  returns a chunk of the available frames, or returns nothing.
-/
theorem obtainBuffer_spec {g : Geometry} {c : Cblk} {p : ClientProxy} {pos : Nat}
    (hUp : p.mIsShutdown = false) (hPlausible : g.Plausible c.filled)
    (hOwn : own g c = BitVec.ofNat 32 pos) {timeout : Timeout} {ignoreInterrupt expired : Bool}
    {ask : Nat} {r : Cblk × ClientProxy × Pass}
    (hCall : obtainBuffer g timeout ignoreInterrupt expired c p ask = r) :
    SameCounters c r.1 ∧
      (r.2 = (p, .waiting) ∨
        ∃ status buffer, r.2 = (⟨false, buffer.mFrameCount⟩, .returned status buffer) ∧
          Chunk g.mFrameCountP2 pos (avail g c.filled.toNat) (Held.ofBuffer buffer)) := by
  have hFail :
      ∀ status,
        (fail c p status).2 = (⟨false, Buffer.null.mFrameCount⟩, .returned status Buffer.null) := by
    intro status
    simp [fail, hUp, Buffer.null]
  have hFlags : SameCounters c { c with mFlags := c.mFlags &&& ~~~cblkInterrupt } :=
    ⟨rfl, rfl, rfl, and_overrun _⟩
  have hWait :
      SameCounters c
        { c with
          mFlags := c.mFlags &&& ~~~cblkInterrupt
          mFutex := c.mFutex &&& ~~~cblkFutexWake } :=
    ⟨rfl, rfl, rfl, and_overrun _⟩
  have hFilled :
      Cblk.filled
          { c with
            mFlags := c.mFlags &&& ~~~cblkInterrupt } =
        c.filled :=
    rfl
  have hCounter :
      own g
          { c with
            mFlags := c.mFlags &&& ~~~cblkInterrupt } =
        BitVec.ofNat 32 pos :=
    hOwn
  have hNothing :
      ∀ status,
        SameCounters c
            { c with
              mFlags := c.mFlags &&& ~~~cblkInterrupt } ∧
          ((fail c p status).2 = (p, .waiting) ∨
            ∃ status' buffer,
              (fail c p status).2 = (⟨false, buffer.mFrameCount⟩, .returned status' buffer) ∧
              Chunk g.mFrameCountP2 pos (avail g c.filled.toNat) (Held.ofBuffer buffer)) :=
    fun status =>
      ⟨hFlags, .inr ⟨status, _, hFail status, Chunk.null _ _ _⟩⟩
  simp only [obtainBuffer, hUp, Bool.false_eq_true, if_false,
    hFilled, hPlausible, not_true_eq_false, false_and] at hCall
  split at hCall
  · subst hCall
    exact hNothing .deadObject
  split at hCall
  · subst hCall
    exact hNothing .eintr
  split at hCall
  · subst hCall
    exact ⟨hFlags, .inr ⟨_, _, rfl, firstChunk_chunk g hCounter _ ask⟩⟩
  cases timeout with
  | zero =>
    subst hCall
    exact hNothing .wouldBlock
  | infinite =>
    subst hCall
    exact ⟨hWait, .inl rfl⟩
  | finite | «continue» =>
    cases expired with
    | true =>
      subst hCall
      exact hNothing .timedOut
    | false =>
      subst hCall
      exact ⟨hWait, .inl rfl⟩

end ClientProxy

namespace ServerProxy

/-
  Once the flush part is done, `obtainBuffer` on a plausible pipe returns a chunk of the available
  frames.
-/
theorem obtainBuffer_spec {g : Geometry} {flush : Word} {c c' : Cblk} {p p' : ServerProxy}
    {pos : Nat} (hUp : p.mIsShutdown = false) (hTake : takeFlush g flush c p = (c', p'))
    (hPlausible : g.Plausible c'.filled) (hOwn : own g c' = BitVec.ofNat 32 pos) (ask : Nat)
    (ackFlush : Bool) :
    ∃ status buffer availToClient,
      obtainBuffer g flush ackFlush c p ask =
        (c',
          { p' with
            mAvailToClient := availToClient
            mUnreleased := if ackFlush then p'.mUnreleased
              else buffer.mFrameCount },
          status, buffer) ∧
      Chunk g.mFrameCountP2 pos (avail g c'.filled.toNat) (Held.ofBuffer buffer) ∧
      buffer.mFrameCount ≤ ask := by
  simp only [obtainBuffer, hUp, Bool.false_eq_true, if_false, hTake, hPlausible, not_true_eq_false]
  exact ⟨_, _, _, rfl, firstChunk_chunk g hOwn _ ask, firstChunk_le g _ _ ask⟩

end ServerProxy

/- A release moved the counters on and nothing else. -/
structure Advance (front rear : Nat) (c c' : Cblk) : Prop where
  mFront : c'.mFront = BitVec.ofNat 32 front + c.mFront
  mRear : c'.mRear = BitVec.ofNat 32 rear + c.mRear
  mFlush : c'.mFlush = c.mFlush
  mFlags : c'.mFlags = c.mFlags

theorem Advance.refl (c : Cblk) : Advance 0 0 c c where
  mFront := (BitVec.zero_add _).symm
  mRear := (BitVec.zero_add _).symm
  mFlush := rfl
  mFlags := rfl

/- A client release within the obtained frames succeeds. -/
theorem ClientProxy.releaseBuffer_spec {g : Geometry} {p : ClientProxy} (c : Cblk) (buffer : Buffer)
    (hUp : p.mIsShutdown = false) (hCount : buffer.mFrameCount ≤ p.mUnreleased)
    (hUnreleased : p.mUnreleased ≤ g.mFrameCount) :
    ∃ c' buffer',
      releaseBuffer g c p buffer = some (c', ⟨false, p.mUnreleased - buffer.mFrameCount⟩, buffer') ∧
      Advance (if g.mIsOut then 0 else buffer.mFrameCount)
        (if g.mIsOut then buffer.mFrameCount else 0) c c' := by
  by_cases hZero : buffer.mFrameCount = 0
  · refine ⟨c, Buffer.null, ?_, ?_⟩
    · cases p
      cases hUp
      simp [releaseBuffer, hZero]
    · simpa [hZero] using Advance.refl c
  · simp only [releaseBuffer, hZero, hUp, hCount,
      hUnreleased, Bool.false_eq_true, or_self, and_self, not_true_eq_false, if_false]
    cases g.mIsOut with
    | true => exact ⟨_, _, rfl, ⟨(BitVec.zero_add _).symm, rfl, rfl, rfl⟩⟩
    | false => exact ⟨_, _, rfl, ⟨rfl, (BitVec.zero_add _).symm, rfl, rfl⟩⟩

/- A server release within the obtained frames succeeds. -/
theorem ServerProxy.releaseBuffer_spec {g : Geometry} {p : ServerProxy} (c : Cblk) (buffer : Buffer)
    (hUp : p.mIsShutdown = false) (hCount : buffer.mFrameCount ≤ p.mUnreleased)
    (hUnreleased : p.mUnreleased ≤ g.mFrameCount) :
    ∃ c' buffer',
      releaseBuffer g c p buffer =
        some (c',
          { p with
            mUnreleased := p.mUnreleased - buffer.mFrameCount },
          buffer') ∧
      Advance (if g.mIsOut then buffer.mFrameCount else 0)
        (if g.mIsOut then 0 else buffer.mFrameCount) c c' := by
  by_cases hZero : buffer.mFrameCount = 0
  · refine ⟨c, Buffer.null, ?_, ?_⟩
    · simp [releaseBuffer, hZero]
    · simpa [hZero] using Advance.refl c
  · simp only [releaseBuffer, hZero, hUp, hCount,
      hUnreleased, Bool.false_eq_true, or_self, and_self, not_true_eq_false, if_false]
    refine ⟨_, _, rfl, ?_⟩
    cases g.mIsOut with
    | true =>
      simp only [if_true]
      split <;>
        exact ⟨rfl, (BitVec.zero_add _).symm, rfl, rfl⟩
    | false =>
      simp only [Bool.false_eq_true, if_false]
      split <;>
        exact ⟨(BitVec.zero_add _).symm, rfl, rfl, rfl⟩

end AudioTrackShared

end FrameworksAv
