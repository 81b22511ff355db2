import FrameworksAv.MonoPipe.Pipe

/-
  The pipe refines the FIFO over a ring.

  The wrapping indices follow the numbers of frames written and read. The writer owns the cells it
  copies to and the reader those it copies from; neither index that the other side saw can make them
  overlap.

  Main declarations:
    * `Pipe.toFifo`, `Pipe.Inv`
    * `Pipe.Inv.writeStore`, `Pipe.Inv.readStore`
    * `Pipe.Inv.step`, `Pipe.Inv.run`
-/

--
-- The Invariant
--

namespace FrameworksAv

namespace MonoPipe

variable {α : Type}

@[simp] theorem frames_length (buffer : Nat → α) (count : Nat) :
    (frames buffer count).length = count := by
  simp [frames]

/- The frames of a buffer continue behind the first ones. -/
theorem frames_add (buffer : Nat → α) (m n : Nat) :
    frames buffer (m + n) = frames buffer m ++ frames (fun k => buffer (m + k)) n := by
  simp [frames, List.range_add]

def Write.frames (w : Write α) : List α :=
  MonoPipe.frames w.buffer w.returned.toNat

def Read.frames (r : Read α) : List α :=
  MonoPipe.frames r.buffer r.returned.toNat

/- A call that cannot block takes what fits. -/
structure Write.Correct (w : Write α) (writeCanBlock : Bool) : Prop where
  nonneg : 0 ≤ w.returned
  le_count : w.returned ≤ w.count
  short : writeCanBlock = false → w.returned = (min w.count w.avail : Nat)

structure Read.Correct (r : Read α) : Prop where
  nonneg : 0 ≤ r.returned
  le_count : r.returned ≤ r.count

/- A call of `write` that is left with `count` frames. -/
structure Underway (whole : Nat → α) (writeCount : Nat) (buffer : Nat → α)
    (count total : Nat) : Prop where
  count : total + count = writeCount
  buffer : ∀ k, buffer k = whole (total + k)

namespace Pipe

/- The cells that the writer copies to. -/
def claimed (p : Pipe α) : Nat :=
  match p.writing with
  | .copying _ _ _ written _ => written
  | _ => 0

/- The cells that the reader copies from. -/
def borrowed (p : Pipe α) : Nat :=
  match p.reading with
  | .copying _ red _ _ => red
  | .idle => 0

/- The pipe as a FIFO with unbounded positions. -/
def toFifo (p : Pipe α) : Fifo α where
  cells := p.mBuffer
  released := p.hist.accepted
  consumed := p.hist.delivered
  epochFront := 0
  epochStart := 0
  claimed := p.claimed
  borrowed := p.borrowed

/- The frames that the call in progress has written. -/
def total (p : Pipe α) : Nat :=
  match p.writing with
  | .idle => 0
  | .looping _ _ total => total
  | .copying _ _ total _ _ => total
  | .stored _ _ total _ => total

def WriterInv (p : Pipe α) : Prop :=
  match p.writing with
  | .idle => True
  | .looping buffer count total =>
    Underway p.hist.buffer p.hist.writeCount buffer count total ∧
      (p.mWriteCanBlock = false → total = 0 ∧ p.hist.avail = 0)
  | .copying buffer count total written remaining =>
    Underway p.hist.buffer p.hist.writeCount buffer count total ∧ written = min count p.hist.avail ∧
      (p.mWriteCanBlock = false → total = 0) ∧ (∀ k ∈ remaining, k < written) ∧
      ∀ k, k < written → k ∉ remaining →
        p.mBuffer ((p.hist.accepted.length + k) % p.mMaxFrames) = buffer k
  | .stored buffer count total written =>
    written ≤ count ∧ total + (count - written) = p.hist.writeCount ∧
      (∀ k, buffer (written + k) = p.hist.buffer (total + k)) ∧
      (p.mWriteCanBlock = false → total = min p.hist.writeCount p.hist.avail)

def ReaderInv (p : Pipe α) : Prop :=
  match p.reading with
  | .idle => True
  | .copying buffer red _ remaining =>
    red ≤ p.hist.readCount ∧ (∀ j ∈ remaining, j < red) ∧
      ∀ j, j < red → j ∉ remaining → p.hist.accepted[p.hist.delivered.length + j]? = some (buffer j)

structure Inv (p : Pipe α) : Prop where
  powerOfTwo : ∃ n, n ≤ 30 ∧ p.mMaxFrames = 2 ^ n
  negotiated : p.mNegotiated = true
  readerNegotiated : p.readerNegotiated = true
  mRear : p.mRear = BitVec.ofNat 32 p.hist.accepted.length
  mFront : p.mFront = BitVec.ofNat 32 p.hist.delivered.length
  fifo : p.toFifo.Inv p.mMaxFrames p.mMaxFrames
  writer : p.WriterInv
  reader : p.ReaderInv
  writes : ∀ w ∈ p.hist.writes, w.Correct p.mWriteCanBlock
  accepted : p.hist.accepted = p.hist.writes.flatMap Write.frames ++ frames p.hist.buffer p.total
  reads : ∀ r ∈ p.hist.reads, r.Correct
  delivered : p.hist.delivered = p.hist.reads.flatMap Read.frames

variable {p : Pipe α}

@[simp] theorem toFifo_front : p.toFifo.front = p.hist.delivered.length := by
  simp [toFifo, Fifo.front]

@[simp] theorem toFifo_rear : p.toFifo.rear = p.hist.accepted.length :=
  rfl

namespace Inv

theorem maxFrames_pos (h : p.Inv) : 0 < p.mMaxFrames := by
  rcases h.powerOfTwo with ⟨n, _, hPow⟩
  rw [hPow]
  exact Nat.two_pow_pos n

theorem maxFrames_le (h : p.Inv) : p.mMaxFrames ≤ 2 ^ 30 := by
  rcases h.powerOfTwo with ⟨n, hLe, hPow⟩
  rw [hPow]
  exact Nat.pow_le_pow_right (by decide) hLe

/- The low bits of an index are its place in the buffer. -/
theorem index (h : p.Inv) (n : Nat) :
    Counter.index (BitVec.ofNat 32 n) p.mMaxFrames = n % p.mMaxFrames := by
  rcases h.powerOfTwo with ⟨k, hLe, hPow⟩
  rw [hPow]
  exact Counter.index_ofNat n (Nat.le_trans hLe (by decide))

theorem index_lt_rear (h : p.Inv) : Counter.index p.mRear p.mMaxFrames < p.mMaxFrames := by
  rw [h.mRear, h.index]
  exact Nat.mod_lt _ h.maxFrames_pos

theorem index_lt_front (h : p.Inv) : Counter.index p.mFront p.mMaxFrames < p.mMaxFrames := by
  rw [h.mFront, h.index]
  exact Nat.mod_lt _ h.maxFrames_pos

/- What was read is a prefix of what was written. -/
theorem order (h : p.Inv) : p.hist.delivered.length ≤ p.hist.accepted.length := by
  have hOrder := h.fifo.order
  rw [toFifo_front, toFifo_rear] at hOrder
  exact hOrder

theorem filled_le (h : p.Inv) :
    p.hist.accepted.length ≤ p.hist.delivered.length + p.mMaxFrames := by
  have hFilled := h.fifo.filled_le
  rw [toFifo_front, toFifo_rear] at hFilled
  exact hFilled

theorem filled (h : p.Inv) :
    (p.mRear - p.mFront).toInt = (p.hist.accepted.length - p.hist.delivered.length : Nat) := by
  have hFilled := h.filled_le
  have hMax := h.maxFrames_le
  rw [h.mRear, h.mFront, Counter.toInt_sub_ofNat h.order (by omega)]

theorem availableToRead (h : p.Inv) :
    p.availableToRead = (p.hist.accepted.length - p.hist.delivered.length : Nat) := by
  rw [Pipe.availableToRead, h.readerNegotiated, if_pos rfl, h.filled]

theorem availableToWrite (h : p.Inv) :
    sizeT p.availableToWrite =
      p.mMaxFrames - (p.hist.accepted.length - p.hist.delivered.length) := by
  have hFilled := h.filled_le
  have hMax := h.maxFrames_le
  rw [Pipe.availableToWrite, h.negotiated, if_pos rfl, h.filled, sizeT]
  omega

end Inv

end Pipe

end MonoPipe

--
-- The Writer
--

namespace MonoPipe

namespace Pipe

namespace Inv

variable {α : Type} {p : Pipe α}

theorem init (mBuffer : Nat → α) {n : Nat} (hSize : n ≤ 30) (writeCanBlock : Bool) :
    (Pipe.init mBuffer (2 ^ n) writeCanBlock true true).Inv
      where
  powerOfTwo := ⟨n, hSize, rfl⟩
  negotiated := rfl
  readerNegotiated := rfl
  mRear := rfl
  mFront := rfl
  fifo := Fifo.inv_empty _ _ mBuffer
  writer := trivial
  reader := trivial
  writes := by simp [Pipe.init]
  accepted := rfl
  reads := by simp [Pipe.init]
  delivered := rfl

/- `write` returns what it has written. -/
theorem writeReturn (h : p.Inv) {total : Nat} (hClaimed : p.claimed = 0) (hTotal : p.total = total)
    (hCount : total ≤ p.hist.writeCount)
    (hShort : p.mWriteCanBlock = false → total = min p.hist.writeCount p.hist.avail) :
    (p.writeReturn total).Inv := by
  have hFifo : (p.writeReturn total).toFifo = p.toFifo := by
    rw [toFifo, toFifo, hClaimed]
    rfl
  exact
    { h with
      fifo := by
        rw [hFifo]
        exact h.fifo
      writer := trivial
      writes := by
        intro w hMem
        rcases List.mem_append.mp hMem with hOld | hNew
        · exact h.writes w hOld
        · rw [List.mem_singleton.mp hNew]
          constructor
          · exact Int.natCast_nonneg total
          · exact Int.ofNat_le.mpr hCount
          · intro hBlock
            exact congrArg Nat.cast (hShort hBlock)
      accepted := by
        have hFrames := h.accepted
        rw [hTotal] at hFrames
        simp only [Pipe.writeReturn, Pipe.total, List.flatMap_append, List.flatMap_singleton]
        rw [hFrames]
        simp [Write.frames, frames] }

theorem writeBegin (h : p.Inv) (hPlace : p.writing = .idle) (buffer : Nat → α) (count : Nat) :
    (p.writeBegin buffer count).Inv := by
  have hBegin :
      p.writeBegin buffer count =
        { p with
          writing := .looping buffer count 0
          hist :=
            { p.hist with
              buffer := buffer
              writeCount := count
              avail := 0 } } := by
    simp only [Pipe.writeBegin, h.negotiated, if_true]
  have hFifo : (p.writeBegin buffer count).toFifo = p.toFifo := by
    rw [hBegin]
    simp [toFifo, claimed, hPlace, borrowed]
  rw [hBegin] at hFifo ⊢
  exact
    { h with
      fifo := by
        rw [hFifo]
        exact h.fifo
      writer := by
        refine ⟨⟨Nat.zero_add count, ?_⟩, ?_⟩
        · intro k
          rw [Nat.zero_add]
        · intro _
          exact ⟨rfl, rfl⟩
      accepted := by
        have hFrames := h.accepted
        simp only [Pipe.total, hPlace] at hFrames
        exact hFrames }

/-
  The room that the writer sees is there, whatever the reader does until the frames are published.
-/
theorem writeLoad (h : p.Inv) {buffer : Nat → α} {count total : Nat}
    (hPlace : p.writing = .looping buffer count total) : (p.writeLoad buffer count total).Inv := by
  have hWriter := h.writer
  rw [WriterInv, hPlace] at hWriter
  rcases hWriter with ⟨hUnderway, hFirst⟩
  have hTotal : p.total = total := by
    rw [Pipe.total, hPlace]
  have hClaimed : p.claimed = 0 := by
    rw [claimed, hPlace]
  unfold Pipe.writeLoad
  simp only
  split
  · rename_i hMore
    let written := if sizeT p.availableToWrite > count then count else sizeT p.availableToWrite
    have hWritten : written = min count (sizeT p.availableToWrite) := by
      simp only [written]
      split <;> omega
    have hRoom : p.toFifo.rear + written ≤ p.toFifo.front + p.mMaxFrames := by
      have hLe := h.filled_le
      have hOrder := h.order
      have hAvail := h.availableToWrite
      rw [toFifo_front, toFifo_rear]
      omega
    exact
      { h with
        fifo := h.fifo.claim hRoom
        writer := by
          refine ⟨hUnderway, hWritten, ?_, ?_, ?_⟩
          · intro hBlock
            exact (hFirst hBlock).1
          · intro k hMem
            exact (mem_copies h.index_lt_rear).mp hMem
          · intro k hk hCopied
            exact absurd ((mem_copies h.index_lt_rear).mpr hk) hCopied
        accepted := by
          have hFrames := h.accepted
          rw [hTotal] at hFrames
          exact hFrames }
  · rename_i hNone
    have hZero : count = 0 := Nat.eq_zero_of_not_pos hNone
    have hCount := hUnderway.count
    have hFrames : Inv { p with
        mFramesWritten := p.mFramesWritten + total } :=
      { h with }
    apply hFrames.writeReturn hClaimed hTotal
    · simp only
      omega
    · intro hBlock
      have hStart := hFirst hBlock
      simp only
      omega

/- A copied frame goes to a cell that the writer owns. -/
theorem writeCopy (h : p.Inv) {buffer : Nat → α} {count total written : Nat}
    {remaining : Finset Nat} (hPlace : p.writing = .copying buffer count total written remaining)
    {k : Nat} (hMem : k ∈ remaining) : (p.writeCopy buffer count total written remaining k).Inv :=
    by
  have hWriter := h.writer
  rw [WriterInv, hPlace] at hWriter
  rcases hWriter with ⟨hUnderway, hWritten, hFirst, hMore, hCopied⟩
  have hk : k < written := hMore k hMem
  have hClaimed : p.claimed = written := by
    rw [claimed, hPlace]
  have hRoom := h.fifo.room
  have hOrder := h.order
  simp only [toFifo_front, toFifo_rear] at hRoom
  change _ + p.claimed ≤ _ at hRoom
  have hCell :
      cell p.mMaxFrames (Counter.index p.mRear p.mMaxFrames) written k =
        (p.hist.accepted.length + k) % p.mMaxFrames := by
    rw [h.mRear, h.index]
    exact cell_eq_mod h.maxFrames_pos (by omega) hk
  have hFifo :
      (p.writeCopy buffer count total written remaining k).toFifo =
        p.toFifo.write p.mMaxFrames k (buffer k) := by
    simp [toFifo, Pipe.writeCopy, Fifo.write, Fifo.rear, hCell, claimed, hPlace, borrowed]
  exact
    { h with
      fifo := by
        rw [hFifo]
        apply h.fifo.write (Nat.le_refl _)
        change k < p.claimed
        rw [hClaimed]
        exact hk
      writer := by
        refine ⟨hUnderway, hWritten, hFirst, ?_, ?_⟩
        · intro j hLeft
          exact hMore j (Finset.mem_of_mem_erase hLeft)
        intro j hj hNotMem
        simp only [Pipe.writeCopy, hCell]
        by_cases hEq : j = k
        · rw [hEq, Function.update_self]
        · have hOther :
              (p.hist.accepted.length + j) % p.mMaxFrames ≠
                (p.hist.accepted.length + k) % p.mMaxFrames := by
            rcases Nat.lt_or_gt_of_ne hEq with hLt | hGt
            · exact Ring.mod_ne_of_lt (by omega) (by omega)
            · exact (Ring.mod_ne_of_lt (by omega) (by omega)).symm
          rw [Function.update_of_ne hOther]
          apply hCopied j hj
          intro hLeft
          exact hNotMem (Finset.mem_erase.mpr ⟨hEq, hLeft⟩)
      accepted := by
        have hFrames := h.accepted
        simp only [Pipe.total, hPlace] at hFrames
        exact hFrames }

/- The cells that were copied to hold the caller's frames. -/
theorem window_eq_frames {buffer : Nat → α} {written : Nat}
    (hCopied :
      ∀ k, k < written → p.mBuffer ((p.hist.accepted.length + k) % p.mMaxFrames) = buffer k) :
    Ring.window p.mBuffer p.mMaxFrames p.hist.accepted.length written = frames buffer written := by
  apply List.map_congr_left
  intro k hk
  exact hCopied k (List.mem_range.mp hk)

/- Publishing appends the frames that were copied. -/
theorem writeStore (h : p.Inv) {buffer : Nat → α} {count total written : Nat}
    (hPlace : p.writing = .copying buffer count total written ∅) :
    (p.writeStore buffer count total written).Inv := by
  have hWriter := h.writer
  rw [WriterInv, hPlace] at hWriter
  rcases hWriter with ⟨hUnderway, hWritten, hFirst, _, hCopied⟩
  have hClaimed : p.claimed = written := by
    rw [claimed, hPlace]
  have hTotal : p.total = total := by
    rw [Pipe.total, hPlace]
  have hLe : written ≤ count := by
    omega
  have hCount : total + written + (count - written) = p.hist.writeCount := by
    have hWhole := hUnderway.count
    omega
  have hRest : ∀ k, buffer (written + k) = p.hist.buffer (total + written + k) := by
    intro k
    rw [hUnderway.buffer, Nat.add_assoc]
  have hShort :
      p.mWriteCanBlock = false → total + written = min p.hist.writeCount p.hist.avail := by
    intro hBlock
    have hZero := hFirst hBlock
    have hWhole := hUnderway.count
    omega
  have hFrames := h.accepted
  rw [hTotal] at hFrames
  unfold Pipe.writeStore
  simp only
  split
  · have hWindow := window_eq_frames (fun k hk => hCopied k hk (Finset.notMem_empty k))
    have hNew : frames buffer written = frames (fun k => p.hist.buffer (total + k)) written := by
      congr 1
      funext k
      exact hUnderway.buffer k
    have hLength :
        (p.hist.accepted ++ frames buffer written).length = p.hist.accepted.length + written := by
      simp
    exact
      { h with
        mRear := by
          simp only [hLength]
          rw [h.mRear, ← Counter.ofNat_add, Nat.add_comm]
        fifo := by
          have hOwned : written ≤ p.toFifo.claimed := Nat.le_of_eq hClaimed.symm
          have hProduce := h.fifo.produce hOwned
          simp only [Fifo.produce, toFifo_rear] at hProduce
          simp only [toFifo, hWindow, hClaimed, Nat.sub_self] at hProduce
          exact hProduce
        writer := ⟨hLe, hCount, hRest, hShort⟩
        reader := by
          have hReader := h.reader
          unfold ReaderInv at hReader ⊢
          cases hReading : p.reading with
          | idle => trivial
          | copying dest red pts remaining =>
            rw [hReading] at hReader
            refine ⟨hReader.1, hReader.2.1, ?_⟩
            intro j hj hNotMem
            have hGet := hReader.2.2 j hj hNotMem
            rcases List.getElem?_eq_some_iff.mp hGet with ⟨hLt, _⟩
            simp only
            rw [List.getElem?_append_left hLt]
            exact hGet
        accepted := by
          simp only [Pipe.total]
          rw [frames_add, ← hNew, hFrames, List.append_assoc] }
  · rename_i hNone
    have hIndex := h.index_lt_rear
    have hZero : written = 0 := by
      by_contra hSome
      exact hNone (part1_pos hIndex (Nat.pos_of_ne_zero hSome))
    subst hZero
    exact
      { h with
        fifo := by
          have hFifo := h.fifo
          rw [toFifo, hClaimed] at hFifo
          exact hFifo
        writer := ⟨hLe, hCount, hRest, hShort⟩
        accepted := hFrames }

/- The loop goes on behind the frames that were written. -/
theorem writeNext (h : p.Inv) {buffer : Nat → α} {count total written : Nat}
    (hPlace : p.writing = .stored buffer count total written) :
    (p.writeNext buffer count total written).Inv := by
  have hWriter := h.writer
  rw [WriterInv, hPlace] at hWriter
  rcases hWriter with ⟨_, hCount, hRest, hShort⟩
  have hClaimed : p.claimed = 0 := by
    rw [claimed, hPlace]
  have hTotal : p.total = total := by
    rw [Pipe.total, hPlace]
  unfold Pipe.writeNext
  split
  · have hFrames : Inv { p with
        mFramesWritten := p.mFramesWritten + total } :=
      { h with }
    exact hFrames.writeReturn hClaimed hTotal (by simp only; omega) hShort
  · rename_i hGoOn
    exact
      { h with
        fifo := by
          have hFifo := h.fifo
          rw [toFifo, hClaimed] at hFifo
          exact hFifo
        writer := by
          refine ⟨⟨hCount, hRest⟩, ?_⟩
          intro hBlock
          simp only at hBlock
          rw [hBlock] at hGoOn
          exact absurd rfl hGoOn
        accepted := by
          have hFrames := h.accepted
          rw [hTotal] at hFrames
          exact hFrames }

theorem shutdown (h : p.Inv) (newState : Bool) : (p.shutdown newState).Inv :=
  { h with }

--
-- The Reader
--

/- The frames that the reader sees are there, whatever the writer does until they are given back. -/
theorem readLoad (h : p.Inv) (hPlace : p.reading = .idle) (buffer : Nat → α) (count : Nat)
    (nextReadPTS : Int) : (p.readLoad buffer count nextReadPTS).Inv := by
  have hOrder := h.order
  have hBorrowed : p.borrowed = 0 := by
    rw [borrowed, hPlace]
  unfold Pipe.readLoad
  simp only
  rw [h.availableToRead]
  split
  · rename_i hEmpty
    exact
      { h with
        fifo := by
          have hFifo := h.fifo
          rw [toFifo, hBorrowed] at hFifo
          exact hFifo
        reader := trivial
        reads := by
          intro r hMem
          rcases List.mem_append.mp hMem with hOld | hNew
          · exact h.reads r hOld
          · rw [List.mem_singleton.mp hNew]
            constructor
            · exact Int.natCast_nonneg _
            · exact Int.le_trans hEmpty (Int.natCast_nonneg _)
        delivered := by
          have hDelivered := h.delivered
          have hNone : p.hist.accepted.length - p.hist.delivered.length = 0 := by
            omega
          simp only [Pipe.readReturn, Pipe.updateFrontAndNRPTS,
            List.flatMap_append, List.flatMap_singleton, hNone]
          rw [← hDelivered]
          simp [Read.frames, frames] }
  · let avail : Int := (p.hist.accepted.length - p.hist.delivered.length : Nat)
    let red := if avail > count then count else avail.toNat
    have hRed : red ≤ count := by
      simp only [red]
      split <;> omega
    have hAvail : p.toFifo.front + red ≤ p.toFifo.rear := by
      rw [toFifo_front, toFifo_rear]
      simp only [red, avail]
      split <;> omega
    exact
      { h with
        fifo := h.fifo.borrow hAvail
        reader := by
          refine ⟨hRed, ?_, ?_⟩
          · intro j hMem
            exact (mem_copies h.index_lt_front).mp hMem
          · intro j hj hNotMem
            exact absurd ((mem_copies h.index_lt_front).mpr hj)
              hNotMem }

/- A copied frame is the one that was written there. -/
theorem readCopy (h : p.Inv) {buffer : Nat → α} {red : Nat} {nextReadPTS : Int}
    {remaining : Finset Nat} (hPlace : p.reading = .copying buffer red nextReadPTS remaining)
    {k : Nat} (hMem : k ∈ remaining) : (p.readCopy buffer red nextReadPTS remaining k).Inv := by
  have hReader := h.reader
  rw [ReaderInv, hPlace] at hReader
  rcases hReader with ⟨hCount, hMore, hCopied⟩
  have hk : k < red := hMore k hMem
  have hBorrowed : p.borrowed = red := by
    rw [borrowed, hPlace]
  have hAvail := h.fifo.avail
  have hFilled := h.filled_le
  rw [toFifo_front, toFifo_rear] at hAvail
  change _ + p.borrowed ≤ _ at hAvail
  have hCell :
      cell p.mMaxFrames (Counter.index p.mFront p.mMaxFrames) red k =
        (p.hist.delivered.length + k) % p.mMaxFrames := by
    rw [h.mFront, h.index]
    exact cell_eq_mod h.maxFrames_pos (by omega) hk
  have hFrame :
      p.hist.accepted[p.hist.delivered.length + k]? =
        some (p.mBuffer (cell p.mMaxFrames (Counter.index p.mFront p.mMaxFrames) red k)) := by
    have hOwned : k < p.toFifo.borrowed := by
      change k < p.borrowed
      rw [hBorrowed]
      exact hk
    have hEq := h.fifo.borrowed_eq hOwned
    rw [toFifo_front] at hEq
    rw [hCell]
    exact hEq
  exact
    { h with
      fifo := by
        have hFifo := h.fifo
        rw [toFifo, hBorrowed] at hFifo
        exact hFifo
      reader := by
        refine ⟨hCount, ?_, ?_⟩
        · intro j hLeft
          exact hMore j (Finset.mem_of_mem_erase hLeft)
        intro j hj hNotMem
        by_cases hEq : j = k
        · rw [hEq, Function.update_self]
          exact hFrame
        · rw [Function.update_of_ne hEq]
          apply hCopied j hj
          intro hLeft
          exact hNotMem (Finset.mem_erase.mpr ⟨hEq, hLeft⟩) }

/- Giving frames back appends what was copied. -/
theorem readStore (h : p.Inv) {buffer : Nat → α} {red : Nat} {nextReadPTS : Int}
    (hPlace : p.reading = .copying buffer red nextReadPTS ∅) :
    (p.readStore buffer red nextReadPTS).Inv := by
  have hReader := h.reader
  rw [ReaderInv, hPlace] at hReader
  rcases hReader with ⟨hCount, _, hCopied⟩
  have hBorrowed : p.borrowed = red := by
    rw [borrowed, hPlace]
  have hReads :
      ∀ r ∈ p.hist.reads ++
          [{ buffer := buffer
             count := p.hist.readCount
             returned := (red : Int) }],
        r.Correct := by
    intro r hMem
    rcases List.mem_append.mp hMem with hOld | hNew
    · exact h.reads r hOld
    · rw [List.mem_singleton.mp hNew]
      constructor
      · exact Int.natCast_nonneg red
      · exact Int.ofNat_le.mpr hCount
  unfold Pipe.readStore
  simp only
  split
  · have hAvail := h.fifo.avail
    rw [toFifo_front, toFifo_rear] at hAvail
    change _ + p.borrowed ≤ _ at hAvail
    have hWindow :
        Ring.window p.mBuffer p.mMaxFrames p.hist.delivered.length red = frames buffer red := by
      apply List.map_congr_left
      intro j hj
      have hLt : j < red := List.mem_range.mp hj
      have hOwned : j < p.toFifo.borrowed := by
        change j < p.borrowed
        rw [hBorrowed]
        exact hLt
      have hEq := h.fifo.borrowed_eq hOwned
      rw [toFifo_front] at hEq
      change p.hist.accepted[_]? = some (p.mBuffer _) at hEq
      rw [hCopied j hLt (Finset.notMem_empty j)] at hEq
      exact (Option.some.inj hEq).symm
    have hLength :
        (p.hist.delivered ++ frames buffer red).length = p.hist.delivered.length + red := by
      simp
    exact
      { h with
        mFront := by
          simp only [Pipe.readReturn, Pipe.updateFrontAndNRPTS, hLength]
          rw [h.mFront, ← Counter.ofNat_add, Nat.add_comm]
        fifo := by
          have hOwned : red ≤ p.toFifo.borrowed := Nat.le_of_eq hBorrowed.symm
          have hConsume := h.fifo.consume hOwned
          simp only [Fifo.consume, toFifo_front] at hConsume
          simp only [toFifo, hWindow, hBorrowed, Nat.sub_self] at hConsume
          exact hConsume
        reader := trivial
        reads := hReads
        delivered := by
          simp only [Pipe.readReturn, Pipe.updateFrontAndNRPTS,
            List.flatMap_append, List.flatMap_singleton]
          rw [← h.delivered]
          rfl }
  · rename_i hNone
    have hIndex := h.index_lt_front
    have hZero : red = 0 := by
      by_contra hSome
      exact hNone (part1_pos hIndex (Nat.pos_of_ne_zero hSome))
    subst hZero
    exact
      { h with
        fifo := by
          have hFifo := h.fifo
          rw [toFifo, hBorrowed] at hFifo
          exact hFifo
        reader := trivial
        reads := hReads
        delivered := by
          simp only [Pipe.readReturn, List.flatMap_append, List.flatMap_singleton]
          rw [← h.delivered]
          simp [Read.frames, frames] }

end Inv

--
-- Runs
--

namespace Inv

variable {α : Type} {p q : Pipe α}

theorem step (h : p.Inv) {a : Action α} (hStep : p.step a = some q) : q.Inv := by
  unfold Pipe.step at hStep
  split at hStep
  · rename_i hPlace
    cases hStep
    exact h.writeBegin hPlace _ _
  · rename_i hPlace
    cases hStep
    exact h.writeLoad hPlace
  · rename_i hPlace
    split at hStep
    · rename_i hMem
      cases hStep
      exact h.writeCopy hPlace hMem
    · cases hStep
  · rename_i hPlace
    split at hStep
    · rename_i hEmpty
      subst hEmpty
      cases hStep
      exact h.writeStore hPlace
    · cases hStep
  · rename_i hPlace
    cases hStep
    exact h.writeNext hPlace
  · rename_i hPlace
    cases hStep
    exact h.readLoad hPlace _ _ _
  · rename_i hPlace
    split at hStep
    · rename_i hMem
      cases hStep
      exact h.readCopy hPlace hMem
    · cases hStep
  · rename_i hPlace
    split at hStep
    · rename_i hEmpty
      subst hEmpty
      cases hStep
      exact h.readStore hPlace
    · cases hStep
  · cases hStep
    exact h.shutdown _
  · cases hStep

theorem run (h : p.Inv) {as : List (Action α)} (hRun : Run.exec Pipe.step p as = some q) :
    q.Inv := by
  refine Run.exec_invariant ?_ hRun h
  intro s a s' hInv hStep
  exact hInv.step hStep

end Inv

end Pipe

end MonoPipe

end FrameworksAv
