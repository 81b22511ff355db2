import FrameworksAv.MonoPipe.Transfer

/-
  `Pipe` and `PipeReader` (`media/libnbaio`): a pipe whose writer overwrites what a reader has not
  read yet.

  As in `MonoPipe` the calls are split at their accesses to the rear index and to the buffer, which
  is copied one frame at a time. `sizeT` is the number of bytes of a `size_t`.

  Main declarations:
    * `NBAIO.Pipe`, `NBAIO.PipeReader`
    * `PipeReader.availableToRead`
    * `PipeReader.Fits`
    * `Pipe.Inv`, `Pipe.accounting`
-/

--
-- States
--

namespace FrameworksAv

namespace NBAIO

open MonoPipe (part1 cell)

/- The values of an enumeration of `unsigned int`. -/
def NEGOTIATE : Nat := 0x80000010
def OVERRUN : Nat := 0x80000011

/- A number that is converted to `ssize_t`. -/
def ssize (sizeT n : Nat) : Int :=
  if n < 2 ^ (8 * sizeT - 1) then n
  else (n : Int) - 2 ^ (8 * sizeT)

/- A number that is converted to `size_t`. -/
def size (sizeT : Nat) (n : Int) : Nat :=
  (n % 2 ^ (8 * sizeT)).toNat

/- The frames of the second copy, from the start of the buffer. -/
def second (maxFrames index count : Nat) : Nat :=
  if index + part1 maxFrames index count = maxFrames then
    if count - part1 maxFrames index count > index then index
    else count - part1 maxFrames index count
  else 0

/- The frames that both copies transfer. -/
def transferred (maxFrames index count : Nat) : Nat :=
  part1 maxFrames index count + second maxFrames index count

/- Where the writer is inside `write`. -/
inductive Writing (α : Type) where
| idle
| copying (buffer : Nat → α) (count : Nat) (remaining : Finset Nat)

/-
  Where the reader is inside `read`. `undisturbed` says that no call of `write` has been running
  since `mRear` was read; the code never looks at it.
-/
inductive Reading (α : Type) where
| idle
| copying (buffer : Nat → α) (count : Nat) (remaining : Finset Nat) (undisturbed : Bool)

/- The frames that a `read` has returned, and from where. -/
structure Delivery (α : Type) where
  position : Int
  frames : List α
  undisturbed : Bool

/- What a reader did so far; the code never reads it. -/
structure History (α : Type) where
  created : Nat                      -- frames written before
  front : Int                        -- position of `mFront`
  overrun : Int                      -- frames jumped over
  reads : List (Delivery α)

structure PipeReader (α : Type) where
  mNegotiated : Bool
  mFront : Word
  mFramesOverrun : Nat
  mOverruns : Nat
  mFramesRead : Nat
  reading : Reading α
  hist : History α

structure Pipe (α : Type) where
  mMaxFrames : Nat
  mBuffer : Nat → α
  mRear : Word
  mNegotiated : Bool
  mFramesWritten : Nat
  writing : Writing α
  reader : Option (PipeReader α)
  written : List α                   -- frames published so far

end NBAIO

--
-- Calls
--

namespace NBAIO

open MonoPipe (part1 cell frames)

variable {α : Type}

namespace PipeReader

/- A reader sees nothing of what is in the pipe already. -/
def new (p : Pipe α) (negotiated : Bool) : PipeReader α where
  mNegotiated := negotiated
  mFront := p.mRear
  mFramesOverrun := 0
  mOverruns := 0
  mFramesRead := 0
  reading := .idle
  hist :=
    { created := p.written.length
      front := p.written.length
      overrun := 0
      reads := [] }

/- The reader jumps to a place near the oldest frames. -/
def resynchronize (sizeT : Nat) (p : Pipe α) (r : PipeReader α) : PipeReader α :=
  let oldFront := r.mFront
  let mFront := p.mRear - BitVec.ofNat 32 p.mMaxFrames + BitVec.ofNat 32 (p.mMaxFrames >>> 4)
  let jump := (mFront - oldFront).toInt
  { r with
    mFront := mFront
    mFramesOverrun := (r.mFramesOverrun + size sizeT jump) % 2 ^ (8 * sizeT)
    mOverruns := (r.mOverruns + 1) % 2 ^ (8 * sizeT)
    hist :=
      { r.hist with
        front := r.hist.front + jump
        overrun := r.hist.overrun + jump } }

def availableToRead (sizeT : Nat) (p : Pipe α) (r : PipeReader α) : Int × PipeReader α :=
  if r.mNegotiated then
    let avail := size sizeT (p.mRear - r.mFront).toInt
    if avail > p.mMaxFrames then (ssize sizeT OVERRUN, r.resynchronize sizeT p)
    else (ssize sizeT avail, r)
  else (ssize sizeT NEGOTIATE, r)

def copies (p : Pipe α) (r : PipeReader α) (count : Nat) : Nat :=
  transferred p.mMaxFrames (Counter.index r.mFront p.mMaxFrames) count

/- Nothing is read, or `read` starts to copy. -/
def read (sizeT : Nat) (p : Pipe α) (r : PipeReader α) (buffer : Nat → α)
    (count : Nat) : PipeReader α :=
  let a := r.availableToRead sizeT p
  let avail := a.1
  let r := a.2
  if avail ≤ 0 then r
  else
    let count := if count > size sizeT avail then size sizeT avail
      else count
    let quiet :=
      match p.writing with
      | .idle => true
      | .copying _ _ _ => false
    { r with
      reading :=
        .copying buffer count (Finset.range (r.copies p count))
          quiet }

/- One frame of the copies out of the pipe. -/
def readCopy (p : Pipe α) (r : PipeReader α) (buffer : Nat → α) (count : Nat)
    (remaining : Finset Nat) (undisturbed : Bool) (k : Nat) : PipeReader α :=
  let front := Counter.index r.mFront p.mMaxFrames
  { r with
    reading :=
      .copying (Function.update buffer k (p.mBuffer (cell p.mMaxFrames front count k)))
        count (remaining.erase k) undisturbed }

/- `read` returns the frames that it has copied. -/
def readReturn (sizeT : Nat) (p : Pipe α) (r : PipeReader α) (buffer : Nat → α) (count : Nat)
    (undisturbed : Bool) : PipeReader α :=
  let red := r.copies p count
  { r with
    mFront := r.mFront + BitVec.ofNat 32 red
    mFramesRead := (r.mFramesRead + red) % 2 ^ (8 * sizeT)
    reading := .idle
    hist :=
      { r.hist with
        front := r.hist.front + red
        reads :=
          r.hist.reads ++
            [{ position := r.hist.front
               frames := frames buffer red
               undisturbed := undisturbed }] } }

/- A call of `write` runs while the reader copies. -/
def disturb (r : PipeReader α) : PipeReader α :=
  { r with
    reading :=
      match r.reading with
      | .idle => .idle
      | .copying buffer count remaining _ =>
        .copying buffer count remaining false }

end PipeReader

namespace Pipe

def init (mBuffer : Nat → α) (mMaxFrames : Nat) (negotiated : Bool) : Pipe α where
  mMaxFrames := mMaxFrames
  mBuffer := mBuffer
  mRear := 0
  mNegotiated := negotiated
  mFramesWritten := 0
  writing := .idle
  reader := none
  written := []

def copies (p : Pipe α) (count : Nat) : Nat :=
  transferred p.mMaxFrames (Counter.index p.mRear p.mMaxFrames) count

def disturb (p : Pipe α) : Pipe α :=
  { p with reader := p.reader.map PipeReader.disturb }

def write (p : Pipe α) (buffer : Nat → α) (count : Nat) : Pipe α :=
  if p.mNegotiated then
    { p.disturb with
      writing := .copying buffer count (Finset.range (p.copies count)) }
  else p

/- One frame of the copies into the pipe. -/
def writeCopy (p : Pipe α) (buffer : Nat → α) (count : Nat) (remaining : Finset Nat)
    (k : Nat) : Pipe α :=
  let rear := Counter.index p.mRear p.mMaxFrames
  { p.disturb with
    mBuffer := Function.update p.mBuffer (cell p.mMaxFrames rear count k) (buffer k)
    writing := .copying buffer count (remaining.erase k) }

/- The frames are published, and `write` returns. -/
def writeStore (sizeT : Nat) (p : Pipe α) (buffer : Nat → α) (count : Nat) : Pipe α :=
  let written := p.copies count
  { p.disturb with
    mRear := BitVec.ofNat 32 written + p.mRear
    mFramesWritten := (p.mFramesWritten + written) % 2 ^ (8 * sizeT)
    writing := .idle
    written := p.written ++ frames buffer written }

end Pipe

/- The accesses of the writer and of one reader. -/
inductive Action (α : Type) where
| write (buffer : Nat → α) (count : Nat)
| writeCopy (k : Nat)
| writeStore
| attach (negotiated : Bool)
| availableToRead
| read (buffer : Nat → α) (count : Nat)
| readCopy (k : Nat)
| readReturn

/- A step of the reader. -/
def PipeReader.step (sizeT : Nat) (p : Pipe α) (r : PipeReader α)
    (a : Action α) : Option (PipeReader α) :=
  match a, r.reading with
  | .availableToRead, .idle => some (r.availableToRead sizeT p).2
  | .read buffer count, .idle => some (r.read sizeT p buffer count)
  | .readCopy k, .copying buffer count remaining undisturbed =>
    if k ∈ remaining then some (r.readCopy p buffer count remaining undisturbed k)
    else none
  | .readReturn, .copying buffer count remaining undisturbed =>
    if remaining = ∅ then some (r.readReturn sizeT p buffer count undisturbed)
    else none
  | _, _ => none

def Pipe.step (sizeT : Nat) (p : Pipe α) (a : Action α) : Option (Pipe α) :=
  match a, p.writing, p.reader with
  | .write buffer count, .idle, _ => some (p.write buffer count)
  | .writeCopy k, .copying buffer count remaining, _ =>
    if k ∈ remaining then some (p.writeCopy buffer count remaining k)
    else none
  | .writeStore, .copying buffer count remaining, _ =>
    if remaining = ∅ then some (p.writeStore sizeT buffer count)
    else none
  | .attach negotiated, _, none => some { p with reader := some (.new p negotiated) }
  | a, _, some r => (r.step sizeT p a).map (fun r => { p with reader := some r })
  | _, _, _ => none

/-
  What `read` takes for a number of frames is one: if it is a status code it asks for no more than
  there is.
-/
def PipeReader.Fits (sizeT : Nat) (p : Pipe α) (r : PipeReader α) (count : Nat) : Prop :=
  let a := r.availableToRead sizeT p
  a.1 ≤ p.mMaxFrames ∨
    (count : Int) ≤ (p.mRear - a.2.mFront).toInt ∧ (p.mRear - a.2.mFront).toInt ≤ p.mMaxFrames

instance (sizeT : Nat) (p : Pipe α) (r : PipeReader α) (count : Nat) :
    Decidable (r.Fits sizeT p count) :=
  inferInstanceAs (Decidable (_ ∨ _ ∧ _))

/- The reader is less than 2^31 frames behind. -/
def PipeReader.Near (p : Pipe α) (r : PipeReader α) : Prop :=
  (p.written.length : Int) < r.hist.front + 2 ^ 31

instance (p : Pipe α) (r : PipeReader α) : Decidable (r.Near p) :=
  inferInstanceAs (Decidable (_ < _))

/- The number of frames that is asked for. -/
def Action.asked : Action α → Option Nat
| .read _ count => some count
| _ => none

/- The steps on which `read` is not misled. -/
def Pipe.Ok (sizeT : Nat) (p : Pipe α) (a : Action α) : Prop :=
  ∀ r ∈ p.reader, r.Near p ∧ ∀ count ∈ a.asked, r.Fits sizeT p count

instance (sizeT : Nat) (p : Pipe α) (a : Action α) : Decidable (p.Ok sizeT a) :=
  inferInstanceAs (Decidable (∀ r ∈ p.reader, _ ∧ ∀ _ ∈ _, _))

end NBAIO

--
-- Copies
--

namespace NBAIO

open MonoPipe (part1 cell part1_le_count part1_le_room part1_eq_room cell_eq_mod)

variable {maxFrames index count : Nat}

/- Both copies together take what fits into the pipe. -/
theorem transferred_eq_min (hIndex : index < maxFrames) :
    transferred maxFrames index count = min count maxFrames := by
  have hCount := part1_le_count maxFrames index count
  have hRoom := part1_le_room maxFrames index count
  unfold transferred second
  by_cases hLess : part1 maxFrames index count < count
  · have hAll := part1_eq_room hLess
    rw [if_pos (by omega)]
    split
    · omega
    · omega
  · split
    · split
      · omega
      · omega
    · omega

/- What does not fit does not change where the rest goes. -/
theorem part1_min (hIndex : index < maxFrames) :
    part1 maxFrames index (min count maxFrames) = part1 maxFrames index count := by
  unfold part1
  split
  · split
    · omega
    · omega
  · split
    · omega
    · omega

/- A frame is copied to or from its place in the ring. -/
theorem cell_transferred {pos k : Nat} (hMax : 0 < maxFrames) (hk : k < min count maxFrames) :
    cell maxFrames (pos % maxFrames) count k = (pos + k) % maxFrames := by
  have hIndex : pos % maxFrames < maxFrames := Nat.mod_lt pos hMax
  rw [← cell_eq_mod hMax (Nat.min_le_right count maxFrames) hk]
  unfold cell
  rw [part1_min hIndex]

end NBAIO

--
-- The Invariant
--

namespace NBAIO

variable {α : Type}

/- The frames are those of the stream from the position on. -/
def Delivery.Correct (written : List α) (d : Delivery α) : Prop :=
  ∃ pos : Nat, d.position = pos ∧ d.frames = (written.drop pos).take d.frames.length

/- Frames that are written later change nothing. -/
theorem Delivery.Correct.append {written : List α} {d : Delivery α} (h : d.Correct written)
    (more : List α) : d.Correct (written ++ more) := by
  rcases h with ⟨pos, hPos, hFrames⟩
  refine ⟨pos, hPos, ?_⟩
  have hLength := congrArg List.length hFrames
  rw [List.length_take, List.length_drop] at hLength
  by_cases hNone : d.frames.length = 0
  · rw [List.length_eq_zero_iff.mp hNone]
    rfl
  · rw [List.drop_append_of_le_length (by omega),
      List.take_append_of_le_length (by rw [List.length_drop]; omega)]
    exact hFrames

/- What the writer has stored, and what it has not overwritten. -/
def Pipe.WriterInv (p : Pipe α) : Prop :=
  match p.writing with
  | .idle =>
    Ring.Holds p.mBuffer p.mMaxFrames p.written (p.written.length - p.mMaxFrames)
  | .copying buffer count remaining =>
    Ring.Holds p.mBuffer p.mMaxFrames p.written
        (p.written.length + min count p.mMaxFrames - p.mMaxFrames) ∧
      (∀ k ∈ remaining, k < min count p.mMaxFrames) ∧
      ∀ k, k < min count p.mMaxFrames → k ∉ remaining →
        p.mBuffer ((p.written.length + k) % p.mMaxFrames) = buffer k

/- What a read in progress has copied, unless it is disturbed. -/
def PipeReader.ReadingInv (p : Pipe α) (r : PipeReader α) (front : Nat) : Prop :=
  match r.reading with
  | .idle => True
  | .copying buffer count remaining undisturbed =>
    count ≤ p.mMaxFrames ∧ front + count ≤ p.written.length ∧ (∀ k ∈ remaining, k < count) ∧
      (undisturbed = true →
        p.writing = .idle ∧ p.written.length ≤ front + p.mMaxFrames ∧
          ∀ k, k < count → k ∉ remaining → p.written[front + k]? = some (buffer k))

/- The reader is at a position, having lost so many frames. -/
structure PipeReader.Follows (sizeT : Nat) (p : Pipe α) (r : PipeReader α)
    (front lost : Nat) : Prop where
  position : r.hist.front = front
  mFront : r.mFront = BitVec.ofNat 32 front
  overrun : r.hist.overrun = lost
  mFramesOverrun : r.mFramesOverrun = lost % 2 ^ (8 * sizeT)
  order : front ≤ p.written.length
  account :
    r.hist.created + (r.hist.reads.map (fun d => d.frames.length)).sum + lost =
      front
  reads : ∀ d ∈ r.hist.reads, d.undisturbed = true → d.Correct p.written
  reading : r.ReadingInv p front

structure Pipe.Inv (sizeT : Nat) (p : Pipe α) : Prop where
  powerOfTwo : ∃ n, n ≤ 31 ∧ p.mMaxFrames = 2 ^ n
  mRear : p.mRear = BitVec.ofNat 32 p.written.length
  writer : p.WriterInv
  reader : ∀ r, p.reader = some r → ∃ front lost, r.Follows sizeT p front lost

namespace Pipe.Inv

variable {sizeT : Nat}
variable {p : Pipe α}

theorem maxFrames_pos (h : p.Inv sizeT) : 0 < p.mMaxFrames := by
  rcases h.powerOfTwo with ⟨n, _, hPow⟩
  rw [hPow]
  exact Nat.two_pow_pos n

theorem maxFrames_le (h : p.Inv sizeT) : p.mMaxFrames ≤ 2 ^ 31 := by
  rcases h.powerOfTwo with ⟨n, hLe, hPow⟩
  rw [hPow]
  exact Nat.pow_le_pow_right (by decide) hLe

/- The low bits of an index are its place in the buffer. -/
theorem index (h : p.Inv sizeT) (n : Nat) :
    Counter.index (BitVec.ofNat 32 n) p.mMaxFrames = n % p.mMaxFrames := by
  rcases h.powerOfTwo with ⟨k, hLe, hPow⟩
  rw [hPow]
  exact Counter.index_ofNat n (Nat.le_trans hLe (by decide))

theorem copies (h : p.Inv sizeT) (count : Nat) : p.copies count = min count p.mMaxFrames := by
  unfold Pipe.copies
  rw [h.mRear, h.index]
  exact transferred_eq_min (Nat.mod_lt _ h.maxFrames_pos)

theorem reader_copies (h : p.Inv sizeT) {r : PipeReader α} {front : Nat}
    (hFront : r.mFront = BitVec.ofNat 32 front) (count : Nat) :
    r.copies p count = min count p.mMaxFrames := by
  unfold PipeReader.copies
  rw [hFront, h.index]
  exact transferred_eq_min (Nat.mod_lt _ h.maxFrames_pos)

theorem init (mBuffer : Nat → α) {n : Nat} (hSize : n ≤ 31) (negotiated : Bool) (sizeT : Nat) :
    (Pipe.init mBuffer (2 ^ n) negotiated).Inv sizeT where
  powerOfTwo := ⟨n, hSize, rfl⟩
  mRear := rfl
  writer := fun _ hi => absurd hi (Nat.not_lt_zero _)
  reader := nofun

end Pipe.Inv

/- A reader that is disturbed is where it was. -/
theorem PipeReader.Follows.disturb {sizeT : Nat} {p q : Pipe α} {r : PipeReader α}
    {front lost : Nat} (h : r.Follows sizeT p front lost) (hMax : q.mMaxFrames = p.mMaxFrames)
    {more : List α} (hWritten : q.written = p.written ++ more) :
    r.disturb.Follows sizeT q front lost := by
  have hLength : p.written.length ≤ q.written.length := by
    rw [hWritten, List.length_append]
    omega
  exact
    { position := h.position
      mFront := h.mFront
      overrun := h.overrun
      mFramesOverrun := h.mFramesOverrun
      order := Nat.le_trans h.order hLength
      account := h.account
      reads := by
        intro d hd hQuiet
        rw [hWritten]
        exact (h.reads d hd hQuiet).append more
      reading := by
        have hReading := h.reading
        unfold PipeReader.ReadingInv at hReading ⊢
        unfold PipeReader.disturb
        cases hPlace : r.reading with
        | idle => trivial
        | copying buffer count remaining undisturbed =>
          rw [hPlace] at hReading
          rcases hReading with ⟨hCount, hInside, hMore, _⟩
          refine ⟨?_, Nat.le_trans hInside hLength, hMore, nofun⟩
          rw [hMax]
          exact hCount }

end NBAIO

--
-- The Writer
--

namespace NBAIO

open MonoPipe (cell frames)

namespace Pipe.Inv

variable {α : Type}
variable {sizeT : Nat}
variable {p : Pipe α}

/- The reader after a step of the writer. -/
theorem disturbed (h : p.Inv sizeT) (q : Pipe α) (more : List α)
    (hMax : q.mMaxFrames = p.mMaxFrames) (hWritten : q.written = p.written ++ more)
    {r : PipeReader α} (hReader : p.reader.map PipeReader.disturb = some r) :
    ∃ front lost, r.Follows sizeT q front lost := by
  rcases Option.map_eq_some_iff.mp hReader with ⟨s, hs, rfl⟩
  rcases h.reader s hs with ⟨front, lost, hFollows⟩
  exact ⟨front, lost, hFollows.disturb hMax hWritten⟩

theorem write (h : p.Inv sizeT) (hPlace : p.writing = .idle) (buffer : Nat → α) (count : Nat) :
    (p.write buffer count).Inv sizeT := by
  unfold Pipe.write
  split
  · have hWriter := h.writer
    rw [WriterInv, hPlace] at hWriter
    exact
      { powerOfTwo := h.powerOfTwo
        mRear := h.mRear
        writer := by
          refine ⟨hWriter.mono ?_, ?_, ?_⟩
          · simp only [Pipe.disturb]
            omega
          · intro k hk
            rw [h.copies] at hk
            exact Finset.mem_range.mp hk
          · intro k hk hNot
            rw [h.copies] at hNot
            exact absurd (Finset.mem_range.mpr hk) hNot
        reader := by
          intro r hr
          exact h.disturbed _ [] (by rfl) (by exact (List.append_nil _).symm) hr }
  · exact h

/- A copied frame goes to a place whose frame is given up. -/
theorem writeCopy (h : p.Inv sizeT) {buffer : Nat → α} {count : Nat} {remaining : Finset Nat}
    (hPlace : p.writing = .copying buffer count remaining) {k : Nat} (hMem : k ∈ remaining) :
    (p.writeCopy buffer count remaining k).Inv sizeT := by
  have hWriter := h.writer
  rw [WriterInv, hPlace] at hWriter
  rcases hWriter with ⟨hHolds, hMore, hCopied⟩
  have hk := hMore k hMem
  have hMax := h.maxFrames_pos
  have hCell :
      cell p.mMaxFrames (Counter.index p.mRear p.mMaxFrames) count k =
        (p.written.length + k) % p.mMaxFrames := by
    rw [h.mRear, h.index]
    exact cell_transferred hMax hk
  exact
    { powerOfTwo := h.powerOfTwo
      mRear := h.mRear
      writer := by
        simp only [WriterInv, Pipe.writeCopy, Pipe.disturb, hCell]
        refine ⟨hHolds.update (by omega) (by omega) _, ?_, ?_⟩
        · intro j hj
          exact hMore j (Finset.mem_of_mem_erase hj)
        intro j hj hNot
        by_cases hEq : j = k
        · rw [hEq, Function.update_self]
        · have hOther :
              (p.written.length + j) % p.mMaxFrames ≠ (p.written.length + k) % p.mMaxFrames := by
            rcases Nat.lt_or_gt_of_ne hEq with hLt | hGt
            · exact Ring.mod_ne_of_lt (by omega) (by omega)
            · exact (Ring.mod_ne_of_lt (by omega) (by omega)).symm
          rw [Function.update_of_ne hOther]
          apply hCopied j hj
          intro hLeft
          exact hNot (Finset.mem_erase.mpr ⟨hEq, hLeft⟩)
      reader := fun r hr =>
        h.disturbed (p.writeCopy buffer count remaining k) [] rfl (List.append_nil _).symm hr }

/- Publishing appends the frames that were copied. -/
theorem writeStore (h : p.Inv sizeT) {buffer : Nat → α} {count : Nat}
    (hPlace : p.writing = .copying buffer count ∅) :
    (p.writeStore sizeT buffer count).Inv sizeT := by
  have hWriter := h.writer
  rw [WriterInv, hPlace] at hWriter
  rcases hWriter with ⟨hHolds, _, hCopied⟩
  have hWindow :
      Ring.window p.mBuffer p.mMaxFrames p.written.length (min count p.mMaxFrames) =
        frames buffer (min count p.mMaxFrames) := by
    apply List.map_congr_left
    intro k hk
    exact hCopied k (List.mem_range.mp hk) (Finset.notMem_empty k)
  have hPublished := hHolds.publish (min count p.mMaxFrames)
  rw [hWindow] at hPublished
  have hLength :
      (p.written ++ frames buffer (min count p.mMaxFrames)).length =
        p.written.length + min count p.mMaxFrames := by
    simp [frames]
  exact
    { powerOfTwo := h.powerOfTwo
      mRear := by
        simp only [Pipe.writeStore]
        rw [h.copies, hLength, h.mRear, ← Counter.ofNat_add, Nat.add_comm]
      writer := by
        simp only [WriterInv, Pipe.writeStore, Pipe.disturb]
        rw [h.copies, hLength]
        exact hPublished
      reader := fun r hr =>
        h.disturbed (p.writeStore sizeT buffer count) (frames buffer (p.copies count)) rfl rfl hr }

end Pipe.Inv

--
-- The Reader
--

variable {α : Type}
variable {sizeT : Nat}
variable {p : Pipe α}
variable {r : PipeReader α}
variable {front lost : Nat}

theorem size_ofNat (hSizeT : 4 ≤ sizeT) {n : Nat} (hSmall : n < 2 ^ 31) : size sizeT n = n := by
  have hWide : 2 ^ 32 ≤ 2 ^ (8 * sizeT) := Nat.pow_le_pow_right (by decide) (by omega)
  unfold size
  have hMod : (n : Int) % 2 ^ (8 * sizeT) = n := by
    apply Int.emod_eq_of_lt (Int.natCast_nonneg n)
    exact_mod_cast (by omega : n < 2 ^ (8 * sizeT))
  rw [hMod, Int.toNat_natCast]

theorem ssize_ofNat (hSizeT : 4 ≤ sizeT) {n : Nat} (hSmall : n < 2 ^ 31) : ssize sizeT n = n := by
  have hWide : 2 ^ 31 ≤ 2 ^ (8 * sizeT - 1) := Nat.pow_le_pow_right (by decide) (by omega)
  unfold ssize
  rw [if_pos (by omega)]

/- A status code is negative, or larger than any pipe. -/
theorem ssize_code (hSizeT : 4 ≤ sizeT) {code : Nat} (hLarge : 2 ^ 31 < code)
    (hCode : code < 2 ^ 32) : ssize sizeT code ≤ 0 ∨ (2 : Int) ^ 31 < ssize sizeT code := by
  have hWide : 2 ^ 32 ≤ 2 ^ (8 * sizeT) := Nat.pow_le_pow_right (by decide) (by omega)
  have hWide' : (2 : Int) ^ 32 ≤ 2 ^ (8 * sizeT) := by
    exact_mod_cast hWide
  unfold ssize
  split
  · right
    exact_mod_cast hLarge
  · left
    have hCode' : (code : Int) < 2 ^ 32 := by
      exact_mod_cast hCode
    omega

namespace PipeReader

/- The frames that are there, in the wrapping indices. -/
theorem Follows.behind (h : r.Follows sizeT p front lost)
    (hRear : p.mRear = BitVec.ofNat 32 p.written.length) (hNear : r.Near p) :
    (p.mRear - r.mFront).toInt = (p.written.length - front : Nat) := by
  have hOrder := h.order
  unfold Near at hNear
  rw [h.position] at hNear
  rw [hRear, h.mFront, Counter.toInt_sub_ofNat h.order (by omega)]

/- The jump ends a sixteenth of the pipe behind its end. -/
theorem Follows.resynchronize (h : r.Follows sizeT p front lost) (hSizeT : 4 ≤ sizeT)
    (hRear : p.mRear = BitVec.ofNat 32 p.written.length) (hNear : r.Near p)
    (hIdle : r.reading = .idle) (hOverrun : front + p.mMaxFrames < p.written.length) :
    (r.resynchronize sizeT p).Follows sizeT p (p.written.length - p.mMaxFrames + p.mMaxFrames / 16)
      (lost + (p.written.length - p.mMaxFrames + p.mMaxFrames / 16 - front)) := by
  unfold Near at hNear
  rw [h.position] at hNear
  have hFront :
      p.mRear - BitVec.ofNat 32 p.mMaxFrames + BitVec.ofNat 32 (p.mMaxFrames >>> 4) =
        BitVec.ofNat 32 (p.written.length - p.mMaxFrames + p.mMaxFrames / 16) := by
    rw [hRear, Counter.ofNat_sub_ofNat (by omega), ← Counter.ofNat_add, Nat.shiftRight_eq_div_pow]
  generalize hTarget : p.written.length - p.mMaxFrames + p.mMaxFrames / 16 = target at *
  have hJump : (BitVec.ofNat 32 target - r.mFront).toInt = (target - front : Nat) := by
    rw [h.mFront, Counter.toInt_sub_ofNat (by omega) (by omega)]
  have hAccount := h.account
  unfold PipeReader.resynchronize
  simp only
  rw [hFront, hJump]
  exact
    { position := by
        simp only
        rw [h.position]
        omega
      mFront := rfl
      overrun := by
        simp only
        rw [h.overrun]
        omega
      mFramesOverrun := by
        simp only
        rw [size_ofNat hSizeT (by omega), h.mFramesOverrun, Nat.mod_add_mod]
      order := by omega
      account := by
        simp only
        omega
      reads := h.reads
      reading := by
        unfold ReadingInv
        simp only
        rw [hIdle]
        trivial }

/-
  What the reader sees: the frames that are there, or a status code, with a jump if they were too
  many.
-/
theorem Follows.availableToRead (h : r.Follows sizeT p front lost) (hInv : p.Inv sizeT)
    (hSizeT : 4 ≤ sizeT) (hNear : r.Near p) (hIdle : r.reading = .idle) :
    ∃ front' lost',
      (r.availableToRead sizeT p).2.Follows sizeT p front' lost' ∧
        (r.availableToRead sizeT p).2.reading = .idle ∧
        ((r.availableToRead sizeT p).2 = r ∧ front' = front ∨
          front < front' ∧ p.written.length ≤ front' + p.mMaxFrames) ∧
        (((r.availableToRead sizeT p).1 = (p.written.length - front' : Nat) ∧
            p.written.length ≤ front' + p.mMaxFrames) ∨
          (r.availableToRead sizeT p).1 ≤ 0 ∨ (2 : Int) ^ 31 < (r.availableToRead sizeT p).1) := by
  have hBehind := h.behind hInv.mRear hNear
  have hOrder := h.order
  have hSmall : p.written.length - front < 2 ^ 31 := by
    unfold Near at hNear
    rw [h.position] at hNear
    omega
  unfold PipeReader.availableToRead
  split
  · simp only
    rw [hBehind, size_ofNat hSizeT hSmall]
    split
    · rename_i hOverrun
      have hJump := h.resynchronize hSizeT hInv.mRear hNear hIdle (by omega)
      refine ⟨_, _, hJump, hIdle, Or.inr ?_, Or.inr ?_⟩
      · constructor
        · omega
        · omega
      · exact ssize_code hSizeT (by decide) (by decide)
    · rename_i hInside
      refine ⟨front, lost, h, hIdle, Or.inl ⟨rfl, rfl⟩, Or.inl ⟨?_, ?_⟩⟩
      · exact ssize_ofNat hSizeT hSmall
      · omega
  · refine ⟨front, lost, h, hIdle, Or.inl ⟨rfl, rfl⟩, Or.inr ?_⟩
    exact ssize_code hSizeT (by decide) (by decide)

/- A reader that does not copy can start to. -/
theorem Follows.copying (h : r.Follows sizeT p front lost) {buffer : Nat → α} {count : Nat}
    {quiet : Bool} (hCount : count ≤ p.mMaxFrames) (hInside : front + count ≤ p.written.length)
    (hQuiet : quiet = true → p.writing = .idle ∧ p.written.length ≤ front + p.mMaxFrames) :
    ({ r with
        reading := .copying buffer count (Finset.range count) quiet } :
      PipeReader α).Follows sizeT p front lost :=
  { h with
    reading := by
      refine ⟨hCount, hInside, ?_, ?_⟩
      · intro k hk
        exact Finset.mem_range.mp hk
      · intro hTrue
        refine ⟨(hQuiet hTrue).1, (hQuiet hTrue).2, ?_⟩
        intro k hk hNot
        exact absurd (Finset.mem_range.mpr hk) hNot }

/- A `read` that is not misled stays inside what is there. -/
theorem Follows.read (h : r.Follows sizeT p front lost) (hInv : p.Inv sizeT) (hSizeT : 4 ≤ sizeT)
    (hNear : r.Near p) (hIdle : r.reading = .idle) (buffer : Nat → α) {count : Nat}
    (hFits : r.Fits sizeT p count) :
    ∃ front' lost',
      (r.read sizeT p buffer count).Follows sizeT p front' lost' ∧
        ((r.read sizeT p buffer count).hist.front = r.hist.front ∧
            (r.read sizeT p buffer count).mOverruns = r.mOverruns ∨
          front < front' ∧ p.written.length ≤ front' + p.mMaxFrames) := by
  have hMax := hInv.maxFrames_le
  have hLess : p.written.length - front < 2 ^ 31 := by
    unfold Near at hNear
    rw [h.position] at hNear
    omega
  rcases h.availableToRead hInv hSizeT hNear hIdle with
    ⟨front', lost', hFollows, hStill, hMoved, hAvail⟩
  have hOrder := hFollows.order
  unfold Fits at hFits
  unfold PipeReader.read
  simp only at hFits ⊢
  generalize hCall : r.availableToRead sizeT p = a at *
  rcases a with ⟨avail, r'⟩
  simp only at hFollows hStill hMoved hAvail hFits ⊢
  have hPlace :
      r'.hist.front = r.hist.front ∧ r'.mOverruns = r.mOverruns ∨
        front < front' ∧ p.written.length ≤ front' + p.mMaxFrames := by
    rcases hMoved with ⟨hSame, _⟩ | hJump
    · rw [hSame]
      exact Or.inl ⟨rfl, rfl⟩
    · exact Or.inr hJump
  have hForward : front ≤ front' := by
    rcases hMoved with ⟨_, hSame⟩ | hJump
    · omega
    · omega
  have hNearer : r'.Near p := by
    unfold Near at hNear ⊢
    rw [h.position] at hNear
    rw [hFollows.position]
    omega
  rw [hFollows.behind hInv.mRear hNearer] at hFits
  -- the frames that are asked for are there
  have hThere :
      ¬avail ≤ 0 →
        (if count > size sizeT avail then size sizeT avail else count) ≤ p.written.length - front' ∧
          p.written.length - front' ≤ p.mMaxFrames := by
    intro hPositive
    rcases hAvail with ⟨hTrue, hInside⟩ | hNone | hCode
    · rw [hTrue, size_ofNat hSizeT (by omega)]
      split
      · omega
      · omega
    · exact absurd hNone hPositive
    · rcases hFits with hSmall | ⟨hAsked, hInside⟩
      · omega
      · split
        · omega
        · omega
  by_cases hNone : avail ≤ 0
  · rw [if_pos hNone]
    exact ⟨front', lost', hFollows, hPlace⟩
  · rw [if_neg hNone]
    rcases hThere hNone with ⟨hCount, hInside⟩
    generalize (if count > size sizeT avail then size sizeT avail else count) = red at *
    rw [hInv.reader_copies hFollows.mFront, Nat.min_eq_left (by omega)]
    refine ⟨front', lost', hFollows.copying (by omega) (by omega) ?_, hPlace⟩
    intro hQuiet
    refine ⟨?_, by omega⟩
    cases hWriting : p.writing with
    | idle => rfl
    | copying b c k =>
      rw [hWriting] at hQuiet
      cases hQuiet

/- A frame that is copied undisturbed is the right one. -/
theorem Follows.readCopy (h : r.Follows sizeT p front lost) (hInv : p.Inv sizeT) {buffer : Nat → α}
    {count : Nat} {remaining : Finset Nat} {undisturbed : Bool}
    (hPlace : r.reading = .copying buffer count remaining undisturbed) {k : Nat}
    (hMem : k ∈ remaining) :
    (r.readCopy p buffer count remaining undisturbed k).Follows sizeT p front lost := by
  have hReading := h.reading
  unfold ReadingInv at hReading
  rw [hPlace] at hReading
  rcases hReading with ⟨hCount, hInside, hMore, hQuiet⟩
  have hk := hMore k hMem
  have hCell :
      cell p.mMaxFrames (Counter.index r.mFront p.mMaxFrames) count k =
        (front + k) % p.mMaxFrames := by
    rw [h.mFront, hInv.index]
    exact cell_transferred hInv.maxFrames_pos (by omega)
  exact
    { h with
      reading := by
        refine ⟨hCount, hInside, ?_, ?_⟩
        · intro j hj
          exact hMore j (Finset.mem_of_mem_erase hj)
        intro hTrue
        rcases hQuiet hTrue with ⟨hIdle, hWindow, hCopied⟩
        refine ⟨hIdle, hWindow, ?_⟩
        intro j hj hNot
        by_cases hEq : j = k
        · have hWriter := hInv.writer
          rw [Pipe.WriterInv, hIdle] at hWriter
          have hHeld := hWriter (front + k) (by omega) (by omega)
          rw [hEq, Function.update_self, hCell, hHeld]
          exact List.getElem?_eq_getElem (by omega)
        · rw [Function.update_of_ne hEq]
          apply hCopied j hj
          intro hLeft
          exact hNot (Finset.mem_erase.mpr ⟨hEq, hLeft⟩) }

/- The frames that `read` returns are counted. -/
theorem Follows.readReturn (h : r.Follows sizeT p front lost) (hInv : p.Inv sizeT)
    {buffer : Nat → α} {count : Nat} {undisturbed : Bool}
    (hPlace : r.reading = .copying buffer count ∅ undisturbed) :
    (r.readReturn sizeT p buffer count undisturbed).Follows sizeT p (front + count) lost := by
  have hReading := h.reading
  unfold ReadingInv at hReading
  rw [hPlace] at hReading
  rcases hReading with ⟨hCount, hInside, _, hQuiet⟩
  have hRed : r.copies p count = count := by
    rw [hInv.reader_copies h.mFront, Nat.min_eq_left hCount]
  have hAccount := h.account
  unfold PipeReader.readReturn
  simp only
  rw [hRed]
  exact
    { position := by
        simp only
        rw [h.position]
        omega
      mFront := by
        simp only
        rw [h.mFront, Counter.ofNat_add]
      overrun := h.overrun
      mFramesOverrun := h.mFramesOverrun
      order := hInside
      account := by
        simp only [List.map_append, List.map_cons, List.map_nil,
          List.sum_append, List.sum_singleton, MonoPipe.frames_length]
        omega
      reads := by
        intro d hd hTrue
        rcases List.mem_append.mp hd with hOld | hNew
        · exact h.reads d hOld hTrue
        · rw [List.mem_singleton.mp hNew] at hTrue ⊢
          refine ⟨front, h.position, ?_⟩
          simp only [MonoPipe.frames_length]
          rcases hQuiet hTrue with ⟨_, _, hCopied⟩
          apply List.ext_getElem?
          intro k
          by_cases hk : k < count
          · have hGet := hCopied k hk (Finset.notMem_empty k)
            rw [List.getElem?_take_of_lt hk, List.getElem?_drop, hGet]
            simp [frames, hk]
          · rw [List.getElem?_eq_none (by simp [frames]; omega),
              List.getElem?_eq_none (by simp; omega)]
      reading := trivial }

end PipeReader

end NBAIO

--
-- Runs
--

namespace NBAIO

variable {α : Type}
variable {sizeT : Nat}
variable {p q : Pipe α}

/- A step of the reader goes forward, and jumps inside. -/
theorem PipeReader.Follows.step {r r' : PipeReader α} {front lost : Nat}
    (h : r.Follows sizeT p front lost) (hInv : p.Inv sizeT) (hSizeT : 4 ≤ sizeT) {a : Action α}
    (hNear : r.Near p) (hFits : ∀ count ∈ a.asked, r.Fits sizeT p count)
    (hStep : r.step sizeT p a = some r') :
    ∃ front' lost',
      r'.Follows sizeT p front' lost' ∧ front ≤ front' ∧
        (r'.mOverruns ≠ r.mOverruns →
          front < front' ∧ p.written.length ≤ front' + p.mMaxFrames) := by
  unfold PipeReader.step at hStep
  split at hStep
  · rename_i hIdle
    cases hStep
    rcases h.availableToRead hInv hSizeT hNear hIdle with ⟨front', lost', hFollows, _, hMoved, _⟩
    refine ⟨front', lost', hFollows, ?_⟩
    rcases hMoved with ⟨hSame, hPlace⟩ | ⟨hJump, hInside⟩
    · rw [hSame]
      exact ⟨by omega, fun hNe => absurd rfl hNe⟩
    · exact ⟨by omega, fun _ => ⟨hJump, hInside⟩⟩
  · rename_i buffer count hIdle
    cases hStep
    rcases h.read hInv hSizeT hNear hIdle buffer (hFits count rfl) with
      ⟨front', lost', hFollows, hMoved⟩
    refine ⟨front', lost', hFollows, ?_⟩
    rcases hMoved with ⟨hSame, hCount⟩ | ⟨hJump, hInside⟩
    · rw [hFollows.position, h.position] at hSame
      exact ⟨by omega, fun hNe => absurd hCount hNe⟩
    · exact ⟨by omega, fun _ => ⟨hJump, hInside⟩⟩
  · rename_i k buffer count remaining undisturbed hPlace
    split at hStep
    · rename_i hMem
      cases hStep
      exact ⟨front, lost, h.readCopy hInv hPlace hMem, Nat.le_refl front, fun hNe => absurd rfl hNe⟩
    · cases hStep
  · rename_i buffer count remaining undisturbed hPlace
    split at hStep
    · rename_i hEmpty
      subst hEmpty
      cases hStep
      exact
        ⟨front + count, lost, h.readReturn hInv hPlace, Nat.le_add_right front count,
          fun hNe => absurd rfl hNe⟩
    · cases hStep
  · cases hStep

/-
  The position of the reader does not go back, and after an overrun it is further on and inside the
  pipe.
-/
def Pipe.Moves (p q : Pipe α) : Prop :=
  ∀ r r', p.reader = some r → q.reader = some r' →
    r.hist.front ≤ r'.hist.front ∧
      (r'.mOverruns ≠ r.mOverruns →
        r.hist.front < r'.hist.front ∧ r'.hist.front ≤ q.written.length ∧
          (q.written.length : Int) ≤ r'.hist.front + q.mMaxFrames)

namespace Pipe

/- A step of the writer leaves the reader where it is. -/
theorem Moves.disturb (hReader : q.reader = p.reader.map PipeReader.disturb) : p.Moves q := by
  intro r r' hr hr'
  rw [hReader, hr] at hr'
  cases hr'
  exact ⟨Int.le_refl _, fun hNe => absurd rfl hNe⟩

theorem Moves.refl (p : Pipe α) : p.Moves p := by
  intro r r' hr hr'
  rw [hr] at hr'
  cases hr'
  exact ⟨Int.le_refl _, fun hNe => absurd rfl hNe⟩

theorem Inv.attach (h : p.Inv sizeT) (negotiated : Bool) :
    ({ p with reader := some (.new p negotiated) } :
      Pipe α).Inv sizeT where
  powerOfTwo := h.powerOfTwo
  mRear := h.mRear
  writer := h.writer
  reader := by
    intro r hr
    cases hr
    exact
      ⟨p.written.length, 0,
        { position := rfl
          mFront := h.mRear
          overrun := rfl
          mFramesOverrun := (Nat.zero_mod _).symm
          order := Nat.le_refl _
          account := rfl
          reads := nofun
          reading := trivial }⟩

/- A step that does not mislead the reader. -/
theorem Inv.step (h : p.Inv sizeT) (hSizeT : 4 ≤ sizeT) {a : Action α} (hOk : p.Ok sizeT a)
    (hStep : p.step sizeT a = some q) : q.Inv sizeT ∧ p.Moves q := by
  unfold Pipe.step at hStep
  split at hStep
  · rename_i buffer count hPlace
    cases hStep
    refine ⟨h.write hPlace buffer count, ?_⟩
    unfold Pipe.write
    split
    · exact Moves.disturb rfl
    · exact Moves.refl p
  · rename_i hPlace
    split at hStep
    · rename_i hMem
      cases hStep
      exact ⟨h.writeCopy hPlace hMem, Moves.disturb rfl⟩
    · cases hStep
  · rename_i hPlace
    split at hStep
    · rename_i hEmpty
      subst hEmpty
      cases hStep
      exact ⟨h.writeStore hPlace, Moves.disturb rfl⟩
    · cases hStep
  · rename_i negotiated hNone
    cases hStep
    refine ⟨h.attach negotiated, ?_⟩
    intro r r' hr
    rw [hNone] at hr
    cases hr
  · rename_i r hReader _ _ _
    rcases Option.map_eq_some_iff.mp hStep with ⟨r', hOne, rfl⟩
    rcases h.reader r hReader with ⟨front, lost, hFollows⟩
    rcases hOk r hReader with ⟨hNear, hFits⟩
    rcases hFollows.step h hSizeT hNear hFits hOne with ⟨front', lost', hNext, hForward, hJump⟩
    constructor
    · exact
        { powerOfTwo := h.powerOfTwo
          mRear := h.mRear
          writer := h.writer
          reader := by
            intro s hs
            cases hs
            exact ⟨front', lost', { hNext with reading := hNext.reading }⟩ }
    · intro s s' hs hs'
      rw [hReader] at hs
      cases hs
      cases hs'
      have hOrder := hNext.order
      rw [hFollows.position, hNext.position]
      refine ⟨by omega, ?_⟩
      intro hNe
      have hFar := hJump hNe
      simp only
      omega
  · cases hStep

/-
  In a run in which the reader stays near and `read` is not misled, the frames that were read, those
  that were jumped over and those that are left are the frames written since the reader was made; a
  read that no write disturbs gets the frames at its position; the reader goes forward.
-/
theorem accounting (hSizeT : 4 ≤ sizeT) {n : Nat} (hSize : n ≤ 31) (mBuffer : Nat → α)
    (negotiated : Bool) {as : List (Action α)}
    (hRun :
      Run.exec (Run.guarded (Pipe.Ok sizeT) (Pipe.step sizeT))
          (Pipe.init mBuffer (2 ^ n) negotiated) as =
        some p) :
    (∀ r, p.reader = some r →
      ∃ front lost : Nat,
        r.hist.front = front ∧ r.mFront = BitVec.ofNat 32 front ∧
          p.mRear = BitVec.ofNat 32 p.written.length ∧ r.mFramesOverrun = lost % 2 ^ (8 * sizeT) ∧
          (r.hist.reads.map (fun d => d.frames.length)).sum + lost + (p.written.length - front) =
            p.written.length - r.hist.created ∧
          ∀ d ∈ r.hist.reads, d.undisturbed = true → d.Correct p.written) ∧
      ∀ a q, p.Ok sizeT a → p.step sizeT a = some q → p.Moves q := by
  have hInv : p.Inv sizeT := by
    refine Run.exec_invariant ?_ hRun (Inv.init mBuffer hSize negotiated sizeT)
    intro s a t h hStep
    rcases Run.guarded_eq_some.mp hStep with ⟨hOk, hOne⟩
    exact (h.step hSizeT hOk hOne).1
  constructor
  · intro r hr
    rcases hInv.reader r hr with ⟨front, lost, h⟩
    have hAccount := h.account
    have hOrder := h.order
    exact ⟨front, lost, h.position, h.mFront, hInv.mRear, h.mFramesOverrun, by omega, h.reads⟩
  · intro a q hOk hStep
    exact (hInv.step hSizeT hOk hStep).2

/- A call of `write` as a whole, of consecutive numbers. -/
def writeAll (first count : Nat) : List (Action Nat) :=
  .write (fun k => first + k) count :: ((List.range count).map .writeCopy ++ [.writeStore])

def readAll (asked count : Nat) : List (Action Nat) :=
  .read (fun _ => 0) asked :: ((List.range count).map .readCopy ++ [.readReturn])

/- A frame is written and read. -/
theorem accounting_one :
    ∃ p,
      Run.exec (Run.guarded (Pipe.Ok 8) (Pipe.step 8)) (Pipe.init (fun _ => 0) (2 ^ 1) true)
            (.attach true :: (writeAll 7 1 ++ readAll 2 1)) =
          some p ∧
        ∀ a q, p.Ok 8 a → p.step 8 a = some q → p.Moves q := by
  have hSome :
      (Run.exec (Run.guarded (Pipe.Ok 8) (Pipe.step 8)) (Pipe.init (fun _ => 0) (2 ^ 1) true)
          (.attach true :: (writeAll 7 1 ++ readAll 2 1))).isSome =
        true := by
    decide
  rcases Option.isSome_iff_exists.mp hSome with ⟨p, hRun⟩
  exact ⟨p, hRun, (accounting (by decide) (by decide) (fun _ => 0) true hRun).2⟩

/-
  With 64 bits the reader takes the code of the overrun for a number of frames: it reads 16 frames
  behind a jump over 2, although only 17 were written.
-/
theorem accounting_misled :
    ((Run.exec (Run.guarded (fun p _ => ∀ r ∈ p.reader, r.Near p) (Pipe.step 8))
          (Pipe.init (fun _ => 0) (2 ^ 4) true)
          (.attach true :: (writeAll 0 16 ++ writeAll 16 1 ++ readAll 16 16))).any
        (fun p =>
          p.reader.any
            (fun r =>
              p.written.length - r.hist.created <
                (r.hist.reads.map (fun d => d.frames.length)).sum + r.mFramesOverrun))) =
      true := by
  decide +kernel

end Pipe

end NBAIO

end FrameworksAv
