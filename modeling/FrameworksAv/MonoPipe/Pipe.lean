import FrameworksAv.Base.Counter
import FrameworksAv.Base.Fifo
import FrameworksAv.Base.Run
import Mathlib.Data.Finset.Basic

/-
  `MonoPipe` and `MonoPipeReader` (`media/libnbaio`): a pipe of frames from one writer to one
  reader.

  The calls are split at their accesses to the two shared indices and to the buffer, which is copied
  one frame at a time. The time that a blocking `write` sleeps is left out; the timestamp of the
  next read is an argument.

  Main declarations:
    * `Pipe`, `Writing`, `Reading`
    * `Pipe.availableToWrite`, `Pipe.availableToRead`
    * `Pipe.updateFrontAndNRPTS`
    * `Action`, `Pipe.step`
-/

--
-- States
--

namespace FrameworksAv

namespace MonoPipe

/- The negotiation code of a 64-bit `ssize_t`. -/
def NEGOTIATE : Int := 0x80000010

/- `AudioBufferProvider::kInvalidPTS` -/
def kInvalidPTS : Int := 0x7FFFFFFFFFFFFFFF

/- An `ssize_t` that is converted to a 64-bit `size_t`. -/
def sizeT (n : Int) : Nat :=
  (n % 2 ^ 64).toNat

/- Where the writer is inside `write`. -/
inductive Writing (α : Type) where
| idle
| looping (buffer : Nat → α) (count total : Nat)
| copying (buffer : Nat → α) (count total written : Nat) (remaining : Finset Nat)
| stored (buffer : Nat → α) (count total written : Nat)

/- Where the reader is inside `read`. -/
inductive Reading (α : Type) where
| idle
| copying (buffer : Nat → α) (red : Nat) (nextReadPTS : Int) (remaining : Finset Nat)

/- A call of `write`, the room it saw and its result. -/
structure Write (α : Type) where
  buffer : Nat → α
  count : Nat
  avail : Nat
  returned : Int

/- A call of `read`, its buffer afterwards and its result. -/
structure Read (α : Type) where
  buffer : Nat → α
  count : Nat
  returned : Int

/- The first frames of a buffer. -/
def frames {α : Type} (buffer : Nat → α) (count : Nat) : List α :=
  (List.range count).map buffer

/- What both sides did so far; the code never reads it. -/
structure History (α : Type) where
  accepted : List α                  -- frames written
  delivered : List α                 -- frames read
  buffer : Nat → α                   -- of the last `write`
  writeCount : Nat
  avail : Nat                        -- room last seen
  readCount : Nat
  writes : List (Write α)
  reads : List (Read α)

structure Pipe (α : Type) where
  mMaxFrames : Nat
  mBuffer : Nat → α
  mFront : Word
  mRear : Word
  mUpdateSeq : Word
  mNextRdPTS : Int
  mWriteCanBlock : Bool
  mIsShutdown : Bool
  mNegotiated : Bool
  readerNegotiated : Bool            -- `mNegotiated` of the reader
  mFramesWritten : Nat
  mFramesRead : Nat
  writing : Writing α
  reading : Reading α
  hist : History α

--
-- Copies
--

/- The frames up to the end of the buffer. -/
def part1 (maxFrames index count : Nat) : Nat :=
  if maxFrames - index > count then count
  else maxFrames - index

/- The frames after the end of the buffer was reached. -/
def part2 (maxFrames index count : Nat) : Nat :=
  if index + part1 maxFrames index count = maxFrames then count - part1 maxFrames index count
  else 0

/- The frames both copies transfer. -/
def copies (maxFrames index count : Nat) : Finset Nat :=
  Finset.range (part1 maxFrames index count + part2 maxFrames index count)

/- The place of a frame in the buffer of the pipe. -/
def cell (maxFrames index count k : Nat) : Nat :=
  if k < part1 maxFrames index count then index + k
  else k - part1 maxFrames index count

theorem part1_le_count (maxFrames index count : Nat) : part1 maxFrames index count ≤ count := by
  unfold part1
  split <;> omega

theorem part1_le_room (maxFrames index count : Nat) :
    part1 maxFrames index count ≤ maxFrames - index := by
  unfold part1
  split <;> omega

/- The first copy stops at the end of the buffer only. -/
theorem part1_eq_room {maxFrames index count : Nat} (hLt : part1 maxFrames index count < count) :
    part1 maxFrames index count = maxFrames - index := by
  unfold part1 at hLt ⊢
  split at hLt
  · exact absurd hLt (Nat.lt_irrefl count)
  · rename_i hMore
    rw [if_neg hMore]

theorem part1_pos {maxFrames index count : Nat} (hIndex : index < maxFrames) (hCount : 0 < count) :
    0 < part1 maxFrames index count := by
  by_contra hZero
  have hRoom := part1_eq_room (show part1 maxFrames index count < count by omega)
  omega

/- Both copies together transfer every frame. -/
theorem part1_add_part2 {maxFrames index : Nat} (hIndex : index < maxFrames) (count : Nat) :
    part1 maxFrames index count + part2 maxFrames index count = count := by
  have hLe := part1_le_count maxFrames index count
  unfold part2
  by_cases hLt : part1 maxFrames index count < count
  · have hRoom := part1_eq_room hLt
    rw [if_pos (by omega)]
    omega
  · split <;> omega

theorem mem_copies {maxFrames index : Nat} (hIndex : index < maxFrames) {count k : Nat} :
    k ∈ copies maxFrames index count ↔ k < count := by
  rw [copies, part1_add_part2 hIndex, Finset.mem_range]

/- A frame is copied to or from its cell of the ring. -/
theorem cell_eq_mod {maxFrames pos count k : Nat} (hMax : 0 < maxFrames)
    (hCount : count ≤ maxFrames) (hk : k < count) :
    cell maxFrames (pos % maxFrames) count k = (pos + k) % maxFrames := by
  have hIndex : pos % maxFrames < maxFrames := Nat.mod_lt pos hMax
  have hRoom := part1_le_room maxFrames (pos % maxFrames) count
  unfold cell
  by_cases hFirst : k < part1 maxFrames (pos % maxFrames) count
  · rw [if_pos hFirst, Ring.add_mod_of_lt (by omega)]
  · have hPart := part1_eq_room
      (show part1 maxFrames (pos % maxFrames) count < count by
        omega)
    have hTurn : pos % maxFrames + k = (pos % maxFrames + k - maxFrames) + maxFrames := by
      omega
    have hSmall : pos % maxFrames + k - maxFrames < maxFrames := by
      omega
    rw [if_neg hFirst, hPart, Nat.add_mod, Nat.mod_eq_of_lt (show k < maxFrames by omega), hTurn,
      Nat.add_mod_right, Nat.mod_eq_of_lt hSmall]
    omega

--
-- Calls
--

variable {α : Type}

namespace Pipe

def init (mBuffer : Nat → α) (mMaxFrames : Nat) (writeCanBlock negotiated readerNegotiated : Bool) :
    Pipe α where
  mMaxFrames := mMaxFrames
  mBuffer := mBuffer
  mFront := 0
  mRear := 0
  mUpdateSeq := 0
  mNextRdPTS := kInvalidPTS
  mWriteCanBlock := writeCanBlock
  mIsShutdown := false
  mNegotiated := negotiated
  readerNegotiated := readerNegotiated
  mFramesWritten := 0
  mFramesRead := 0
  writing := .idle
  reading := .idle
  hist :=
    { accepted := []
      delivered := []
      buffer := mBuffer
      writeCount := 0
      avail := 0
      readCount := 0
      writes := []
      reads := [] }

def availableToWrite (p : Pipe α) : Int :=
  if p.mNegotiated then p.mMaxFrames - (p.mRear - p.mFront).toInt
  else NEGOTIATE

def availableToRead (p : Pipe α) : Int :=
  if p.readerNegotiated then (p.mRear - p.mFront).toInt
  else NEGOTIATE

/- `write` returns. -/
def writeReturn (p : Pipe α) (returned : Int) : Pipe α :=
  { p with
    writing := .idle
    hist :=
      { p.hist with
        writes :=
          p.hist.writes ++
            [{ buffer := p.hist.buffer
               count := p.hist.writeCount
               avail := p.hist.avail
               returned := returned }] } }

def writeBegin (p : Pipe α) (buffer : Nat → α) (count : Nat) : Pipe α :=
  let q :=
    { p with
      hist :=
        { p.hist with
          buffer := buffer
          writeCount := count
          avail := 0 } }
  if p.mNegotiated then { q with writing := .looping buffer count 0 }
  else q.writeReturn NEGOTIATE

/- The loop ends, or sees how much room there is. -/
def writeLoad (p : Pipe α) (buffer : Nat → α) (count total : Nat) : Pipe α :=
  if count > 0 then
    let avail := sizeT p.availableToWrite
    let written := if avail > count then count else avail
    let rear := Counter.index p.mRear p.mMaxFrames
    { p with
      writing := .copying buffer count total written (copies p.mMaxFrames rear written)
      hist := { p.hist with avail := avail } }
  else
    { p with mFramesWritten := p.mFramesWritten + total }
      |>.writeReturn total

/- One frame of the copies into the pipe. -/
def writeCopy (p : Pipe α) (buffer : Nat → α) (count total written : Nat) (remaining : Finset Nat)
    (k : Nat) : Pipe α :=
  let rear := Counter.index p.mRear p.mMaxFrames
  { p with
    mBuffer := Function.update p.mBuffer (cell p.mMaxFrames rear written k) (buffer k)
    writing := .copying buffer count total written (remaining.erase k) }

/- Publish the frames, if there are any. -/
def writeStore (p : Pipe α) (buffer : Nat → α) (count total written : Nat) : Pipe α :=
  let rear := Counter.index p.mRear p.mMaxFrames
  if part1 p.mMaxFrames rear written > 0 then
    { p with
      mRear := BitVec.ofNat 32 written + p.mRear
      writing := .stored buffer count (total + written) written
      hist :=
        { p.hist with
          accepted := p.hist.accepted ++ frames buffer written } }
  else { p with writing := .stored buffer count total written }

/- A call that cannot block stops after one turn. -/
def writeNext (p : Pipe α) (buffer : Nat → α) (count total written : Nat) : Pipe α :=
  if !p.mWriteCanBlock || p.mIsShutdown then
    { p with mFramesWritten := p.mFramesWritten + total }
      |>.writeReturn total
  else
    { p with
      writing := .looping (fun k => buffer (written + k)) (count - written) total }

def updateFrontAndNRPTS (p : Pipe α) (newFront : Word) (newNextRdPTS : Int) : Pipe α :=
  let tmp := p.mUpdateSeq ||| 0x80000000
  { p with
    mFront := newFront
    mNextRdPTS := newNextRdPTS
    mUpdateSeq := (tmp + 1) &&& 0x7FFFFFFF }

/- `read` returns. -/
def readReturn (p : Pipe α) (buffer : Nat → α) (returned : Int) : Pipe α :=
  { p with
    reading := .idle
    hist :=
      { p.hist with
        reads :=
          p.hist.reads ++
            [{ buffer := buffer
               count := p.hist.readCount
               returned := returned }] } }

/- `read` sees how many frames there are. -/
def readLoad (p : Pipe α) (buffer : Nat → α) (count : Nat) (nextReadPTS : Int) : Pipe α :=
  let q := { p with hist := { p.hist with readCount := count } }
  let avail := p.availableToRead
  if avail ≤ 0 then (q.updateFrontAndNRPTS p.mFront nextReadPTS).readReturn buffer avail
  else
    let red := if avail > count then count else avail.toNat
    let front := Counter.index p.mFront p.mMaxFrames
    { q with
      reading := .copying buffer red nextReadPTS (copies p.mMaxFrames front red) }

/- One frame of the copies out of the pipe. -/
def readCopy (p : Pipe α) (buffer : Nat → α) (red : Nat) (nextReadPTS : Int)
    (remaining : Finset Nat) (k : Nat) : Pipe α :=
  let front := Counter.index p.mFront p.mMaxFrames
  { p with
    reading :=
      .copying (Function.update buffer k (p.mBuffer (cell p.mMaxFrames front red k)))
        red nextReadPTS (remaining.erase k) }

/- Give the frames back to the writer, if there are any. -/
def readStore (p : Pipe α) (buffer : Nat → α) (red : Nat) (nextReadPTS : Int) : Pipe α :=
  let front := Counter.index p.mFront p.mMaxFrames
  if part1 p.mMaxFrames front red > 0 then
    { p with
      mFramesRead := p.mFramesRead + red
      hist :=
        { p.hist with
          delivered := p.hist.delivered ++ frames buffer red } }
      |>.updateFrontAndNRPTS (BitVec.ofNat 32 red + p.mFront) nextReadPTS
      |>.readReturn buffer red
  else p.readReturn buffer red

def shutdown (p : Pipe α) (newState : Bool) : Pipe α :=
  { p with mIsShutdown := newState }

end Pipe

/- The accesses of both sides, and of a third thread. -/
inductive Action (α : Type) where
| writeBegin (buffer : Nat → α) (count : Nat)
| writeLoad
| writeCopy (k : Nat)
| writeStore
| writeNext
| readLoad (buffer : Nat → α) (count : Nat) (nextReadPTS : Int)
| readCopy (k : Nat)
| readStore
| shutdown (newState : Bool)

def Pipe.step (p : Pipe α) (a : Action α) : Option (Pipe α) :=
  match a, p.writing, p.reading with
  | .writeBegin buffer count, .idle, _ => some (p.writeBegin buffer count)
  | .writeLoad, .looping buffer count total, _ => some (p.writeLoad buffer count total)
  | .writeCopy k, .copying buffer count total written remaining, _ =>
    if k ∈ remaining then some (p.writeCopy buffer count total written remaining k)
    else none
  | .writeStore, .copying buffer count total written remaining, _ =>
    if remaining = ∅ then some (p.writeStore buffer count total written)
    else none
  | .writeNext, .stored buffer count total written, _ =>
    some (p.writeNext buffer count total written)
  | .readLoad buffer count nextReadPTS, _, .idle => some (p.readLoad buffer count nextReadPTS)
  | .readCopy k, _, .copying buffer red nextReadPTS remaining =>
    if k ∈ remaining then some (p.readCopy buffer red nextReadPTS remaining k)
    else none
  | .readStore, _, .copying buffer red nextReadPTS remaining =>
    if remaining = ∅ then some (p.readStore buffer red nextReadPTS)
    else none
  | .shutdown newState, _, _ => some (p.shutdown newState)
  | _, _, _ => none

end MonoPipe

end FrameworksAv
