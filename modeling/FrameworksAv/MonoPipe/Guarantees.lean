import FrameworksAv.Base.SeqLock
import FrameworksAv.MonoPipe.Transfer

/-
  What the pipe guarantees in every run.

  The distance of the indices has to fit a signed word, so a pipe of 2^31 frames cannot be filled;
  and the negotiation code of a 64-bit reader is a positive number of frames.

  Main declarations:
    * `Pipe.Guarantees`
    * `exec_transfer`
    * `Pipe.getNextWriteTimestamp`
    * `nextWriteTimestamp_iff`
-/

--
-- Guarantees
--

namespace FrameworksAv

namespace MonoPipe

variable {α : Type}

/- What holds in every reachable state. -/
structure Pipe.Guarantees (p : Pipe α) : Prop where
  nonneg : 0 ≤ (p.mRear - p.mFront).toInt
  le_maxFrames : (p.mRear - p.mFront).toInt ≤ p.mMaxFrames
  -- a call of `write` returns the frames it accepted
  writes : ∀ w ∈ p.hist.writes, 0 ≤ w.returned ∧ w.returned ≤ w.count
  short : p.mWriteCanBlock = false → ∀ w ∈ p.hist.writes, w.returned = (min w.count w.avail : Nat)
  accepted : p.hist.accepted = p.hist.writes.flatMap Write.frames ++ frames p.hist.buffer p.total
  -- a call of `read` returns the frames it delivered
  reads : ∀ r ∈ p.hist.reads, 0 ≤ r.returned ∧ r.returned ≤ r.count
  delivered : p.hist.delivered = p.hist.reads.flatMap Read.frames
  fifo : p.hist.delivered <+: p.hist.accepted

namespace Pipe

variable {p : Pipe α}

theorem Inv.guarantees (h : p.Inv) : p.Guarantees where
  nonneg := by
    rw [h.filled]
    exact Int.natCast_nonneg _
  le_maxFrames := by
    have hFilled := h.filled_le
    rw [h.filled]
    omega
  writes := by
    intro w hMem
    have hCorrect := h.writes w hMem
    exact ⟨hCorrect.nonneg, hCorrect.le_count⟩
  short := by
    intro hBlock w hMem
    exact (h.writes w hMem).short hBlock
  accepted := h.accepted
  reads := by
    intro r hMem
    have hCorrect := h.reads r hMem
    exact ⟨hCorrect.nonneg, hCorrect.le_count⟩
  delivered := h.delivered
  fifo := by
    have hPrefix := h.fifo.delivered_prefix
    exact hPrefix

end Pipe

/- Every run between negotiated ports of a pipe of at most 2^30 frames. -/
theorem exec_transfer (mBuffer : Nat → α) {n : Nat} (hSize : n ≤ 30) (writeCanBlock : Bool)
    {as : List (Action α)} {p : Pipe α}
    (hRun : Run.exec Pipe.step (Pipe.init mBuffer (2 ^ n) writeCanBlock true true) as = some p) :
    p.Guarantees := by
  have hInit := Pipe.Inv.init mBuffer hSize writeCanBlock
  exact (hInit.run hRun).guarantees

/-
  A pipe of four frames: a write of three, a read of two that the next write of five does not see,
  and a read that wraps around.
-/
def wrappingAccesses : List (Action Nat) :=
  [.writeBegin (fun k => 10 + k) 3, .writeLoad, .writeCopy 1,
    .writeCopy 0, .writeCopy 2, .writeStore, .writeNext, .readLoad (fun _ => 0) 2 0, .readCopy 0,
    .writeBegin (fun k => 20 + k) 5, .writeLoad, .writeCopy 0,
    .readCopy 1, .readStore, .writeStore, .writeNext,
    .writeBegin (fun k => 30 + k) 5, .writeLoad, .writeCopy 0,
    .writeCopy 1, .writeStore, .writeNext, .readLoad (fun _ => 0) 9 0, .readCopy 3, .readCopy 2,
    .readCopy 1, .readCopy 0, .readStore]

theorem exec_transfer_wrapping :
    ∃ p,
      Run.exec Pipe.step (Pipe.init (fun _ => 0) (2 ^ 2) false true true)
          wrappingAccesses = some p ∧
        p.Guarantees := by
  have hSome :
      (Run.exec Pipe.step (Pipe.init (fun _ => 0) (2 ^ 2) false true true)
        wrappingAccesses).isSome = true := by
    decide
  rcases Option.isSome_iff_exists.mp hSome with ⟨p, hRun⟩
  exact ⟨p, hRun, exec_transfer _ (by decide) _ hRun⟩

--
-- Beyond The Guarantees
--

/- The writer can copy all frames of one turn. -/
theorem exec_copies {p : Pipe α} {buffer : Nat → α} {count total written : Nat}
    (remaining : Finset Nat) (hPlace : p.writing = .copying buffer count total written remaining) :
    ∃ as mBuffer,
      Run.exec Pipe.step p as =
        some
          { p with
            mBuffer := mBuffer
            writing := .copying buffer count total written ∅ } := by
  induction remaining using Finset.induction_on generalizing p with
  | empty =>
    refine ⟨[], p.mBuffer, ?_⟩
    rw [← hPlace]
    rfl
  | insert k remaining hNotMem ih =>
    let q := p.writeCopy buffer count total written (insert k remaining) k
    have hNext : q.writing = .copying buffer count total written remaining := by
      simp only [q, Pipe.writeCopy, Finset.erase_insert hNotMem]
    rcases ih hNext with ⟨as, mBuffer, hRun⟩
    refine ⟨.writeCopy k :: as, mBuffer, ?_⟩
    refine Run.exec_cons_eq_some.mpr ⟨q, ?_, hRun⟩
    simp only [Pipe.step, hPlace, Finset.mem_insert_self, if_true, q]

/- One write fills an empty pipe of any power of two. -/
theorem exec_fill (mBuffer buffer : Nat → α) {n : Nat} (hSize : n ≤ 31) :
    ∃ as p,
      Run.exec Pipe.step (Pipe.init mBuffer (2 ^ n) false true true) as = some p ∧
        p.mMaxFrames = 2 ^ n ∧ p.mFront = 0 ∧ p.mRear = BitVec.ofNat 32 (2 ^ n) ∧
        p.readerNegotiated = true ∧ p.reading = .idle ∧ p.hist.accepted.length = 2 ^ n ∧
        p.hist.delivered = [] := by
  have hPos : 0 < 2 ^ n := Nat.two_pow_pos n
  have hLt : 2 ^ n < 2 ^ 64 := Nat.pow_lt_pow_right (by decide) (by omega)
  have hAvail : sizeT (((2 ^ n : Nat) : Int) - (0 - 0 : Word).toInt) = 2 ^ n := by
    have hZero : (0 - 0 : Word).toInt = 0 := by decide
    rw [hZero, Int.sub_zero, sizeT]
    omega
  have hIndex : Counter.index 0 (2 ^ n) = 0 := by
    simp [Counter.index]
  let p₀ := Pipe.init mBuffer (2 ^ n) false true true
  let p₁ := p₀.writeBegin buffer (2 ^ n)
  let p₂ := p₁.writeLoad buffer (2 ^ n) 0
  have hPlace : p₂.writing = .copying buffer (2 ^ n) 0 (2 ^ n) (copies (2 ^ n) 0 (2 ^ n)) := by
    simp only [p₂, p₁, p₀, Pipe.writeLoad, Pipe.writeBegin,
      Pipe.init, Pipe.availableToWrite, if_true, gt_iff_lt,
      hPos, hAvail, Nat.lt_irrefl, if_false, hIndex]
  rcases exec_copies _ hPlace with ⟨as, mBuffer', hCopies⟩
  let p₃ : Pipe α :=
    { p₂ with
      mBuffer := mBuffer'
      writing := .copying buffer (2 ^ n) 0 (2 ^ n) ∅ }
  have hPart : part1 p₃.mMaxFrames (Counter.index p₃.mRear p₃.mMaxFrames) (2 ^ n) > 0 := by
    have hPart : 0 < part1 (2 ^ n) 0 (2 ^ n) := part1_pos hPos hPos
    simp only [p₃, p₂, p₁, p₀, Pipe.writeLoad, Pipe.writeBegin, Pipe.init, if_true, gt_iff_lt, hPos,
      hIndex]
    exact hPart
  let p₄ := p₃.writeStore buffer (2 ^ n) 0 (2 ^ n)
  have hStore : Run.exec Pipe.step p₃ [.writeStore] = some p₄ := by
    refine Run.exec_cons_eq_some.mpr ⟨p₄, ?_, rfl⟩
    rfl
  have hCopied : Run.exec Pipe.step p₂ (as ++ [.writeStore]) = some p₄ :=
    Run.exec_append_eq_some.mpr ⟨p₃, hCopies, hStore⟩
  have hLoad : p₁.step .writeLoad = some p₂ := rfl
  have hBegin : p₀.step (.writeBegin buffer (2 ^ n)) = some p₁ :=
    rfl
  refine ⟨.writeBegin buffer (2 ^ n) :: .writeLoad :: (as ++ [.writeStore]), p₄, ?_, ?_⟩
  · refine Run.exec_cons_eq_some.mpr ⟨p₁, hBegin, ?_⟩
    exact Run.exec_cons_eq_some.mpr ⟨p₂, hLoad, hCopied⟩
  · simp only [p₄, Pipe.writeStore, hPart, if_true]
    simp [p₃, p₂, p₁, p₀, Pipe.writeLoad, Pipe.writeBegin, Pipe.init, hPos]

/-
  A full pipe of 2^31 frames looks like less than an empty one; and a reader that is not negotiated
  reads frames that nobody wrote.
-/
theorem exec_beyondPipe :
    (∃ as p,
      Run.exec Pipe.step (Pipe.init (fun _ => 0) (2 ^ 31) false true true) as = some p ∧
        p.hist.accepted.length = 2 ^ 31 ∧ (p.mRear - p.mFront).toInt < 0 ∧
        ∃ r ∈ p.hist.reads, r.returned < 0) ∧
      ∃ as p,
        Run.exec Pipe.step (Pipe.init (fun _ => 0) (2 ^ 2) false true false) as = some p ∧
          p.hist.accepted = [] ∧ p.hist.delivered = [0] := by
  constructor
  · rcases exec_fill (fun _ => 0) (fun k => k) (Nat.le_refl 31) with
      ⟨as, p, hRun, hMax, hFront, hRear, hReader, hPlace, hAccepted, _⟩
    have hFilled : (p.mRear - p.mFront).toInt < 0 := by
      rw [hRear, hFront]
      decide
    let q := p.readLoad (fun _ => 0) 1 0
    have hAvail : p.availableToRead ≤ 0 := by
      rw [Pipe.availableToRead, hReader, if_pos rfl]
      exact Int.le_of_lt hFilled
    have hRead : Run.exec Pipe.step p [.readLoad (fun _ => 0) 1 0] = some q := by
      refine Run.exec_cons_eq_some.mpr ⟨q, ?_, rfl⟩
      simp only [Pipe.step, hPlace, q]
    refine ⟨as ++ [.readLoad (fun _ => 0) 1 0], q, Run.exec_append_eq_some.mpr ⟨p, hRun, hRead⟩, ?_⟩
    simp only [q, Pipe.readLoad, hAvail, if_true, Pipe.readReturn, Pipe.updateFrontAndNRPTS]
    refine ⟨hAccepted, hFilled, _, List.mem_append_right _ (List.mem_singleton_self _), ?_⟩
    rw [Pipe.availableToRead, hReader, if_pos rfl]
    exact hFilled
  · have hValue :
        (Run.exec Pipe.step (Pipe.init (fun _ => 0) (2 ^ 2) false true false)
            [.readLoad (fun _ => 0) 1 0, .readCopy 0, .readStore]).map (fun p =>
          (p.hist.accepted, p.hist.delivered)) =
          some ([], [0]) := by
      decide
    rcases Option.map_eq_some_iff.mp hValue with ⟨p, hRun, hFacts⟩
    simp only [Prod.mk.injEq] at hFacts
    exact ⟨_, p, hRun, hFacts⟩

--
-- Timestamps
--

inductive Status where
| OK
| UNKNOWN_ERROR
deriving DecidableEq

/-
  `mSamplesToLocalTime`. The class is not in the repository: `none` is a conversion that overflows.
-/
structure LinearTransform where
  a_to_b_denom : Nat
  doForwardTransform : Nat → Option Int

namespace LinearTransform

/- The ratio is zeroed when a conversion fails. -/
def offsetTimestampByAudioFrames (ratio : LinearTransform) (ts : Int)
    (audFrames : Nat) : Int × LinearTransform :=
  if ratio.a_to_b_denom = 0 then (kInvalidPTS, ratio)
  else if ts = kInvalidPTS then (kInvalidPTS, ratio)
  else
    match ratio.doForwardTransform audFrames with
    | none => (kInvalidPTS, { ratio with a_to_b_denom := 0 })
    | some frame_lt_duration => (ts + frame_lt_duration, ratio)

/- No number of frames in 32 bits overflows. -/
structure Usable (ratio : LinearTransform) : Prop where
  denom : ratio.a_to_b_denom ≠ 0
  converts : ∀ frames < 2 ^ 32, (ratio.doForwardTransform frames).isSome

/- The duration of some frames in local time. -/
def duration (ratio : LinearTransform) (frames : Nat) : Int :=
  (ratio.doForwardTransform frames).getD 0

variable {ratio : LinearTransform}

theorem Usable.offsetTimestamp (h : ratio.Usable) {ts : Int} (hValid : ts ≠ kInvalidPTS)
    {frames : Nat} (hFrames : frames < 2 ^ 32) :
    ratio.offsetTimestampByAudioFrames ts frames = (ts + ratio.duration frames, ratio) := by
  rcases Option.isSome_iff_exists.mp (h.converts frames hFrames) with ⟨length, hLength⟩
  unfold offsetTimestampByAudioFrames duration
  rw [if_neg h.denom, if_neg hValid, hLength]
  rfl

end LinearTransform

namespace Pipe

/- The front and the timestamp are observed together, as in `nextWriteTimestamp_iff`. -/
def getNextWriteTimestamp (p : Pipe α) (ratio : LinearTransform) :
    Status × Option Int × LinearTransform :=
  if ratio.a_to_b_denom = 0 then (.UNKNOWN_ERROR, none, ratio)
  else if p.mNextRdPTS ≠ kInvalidPTS then
    let pendingFrames := (p.mRear - p.mFront).toNat &&& (p.mMaxFrames - 1)
    let r := ratio.offsetTimestampByAudioFrames p.mNextRdPTS pendingFrames
    (.OK, some r.1, r.2)
  else (.OK, some p.mNextRdPTS, ratio)

/- The frames in the pipe. -/
def held (p : Pipe α) : Nat := (p.mRear - p.mFront).toNat

variable {p : Pipe α}

/- A full pipe counts as an empty one. -/
theorem getNextWriteTimestamp_eq {ratio : LinearTransform} (hUsable : ratio.Usable) {n : Nat}
    (hMax : p.mMaxFrames = 2 ^ n) (hValid : p.mNextRdPTS ≠ kInvalidPTS) :
    p.getNextWriteTimestamp ratio =
      (.OK, some (p.mNextRdPTS + ratio.duration (p.held % p.mMaxFrames)), ratio) := by
  have hPending : (p.mRear - p.mFront).toNat &&& (p.mMaxFrames - 1) = p.held % p.mMaxFrames := by
    rw [hMax, Nat.and_two_pow_sub_one_eq_mod]
    rfl
  have hSmall : p.held % p.mMaxFrames < 2 ^ 32 :=
    Nat.lt_of_le_of_lt (Nat.mod_le _ _) (p.mRear - p.mFront).isLt
  unfold getNextWriteTimestamp
  rw [if_neg hUsable.denom, if_pos hValid, hPending]
  simp only
  rw [hUsable.offsetTimestamp hValid hSmall]

end Pipe

/- What `updateFrontAndNRPTS` stores, a word at a time. -/
inductive Field where
| front
| low
| high
deriving DecidableEq

instance : Fintype Field where
  elems := {.front, .low, .high}
  complete := by
    intro field
    cases field with
    | front => decide
    | low => decide
    | high => decide

/- The timestamp takes two words. -/
def encode (front : Word) (nextRdPTS : BitVec 64) : Field → Word
| .front => front
| .low => nextRdPTS.extractLsb' 0 32
| .high => nextRdPTS.extractLsb' 32 32

def decode (cells : Field → Word) : Word × BitVec 64 :=
  (cells .front, cells .high ++ cells .low)

theorem decode_encode (front : Word) (nextRdPTS : BitVec 64) :
    decode (encode front nextRdPTS) = (front, nextRdPTS) := by
  unfold decode encode
  congr 1
  apply BitVec.eq_of_getLsbD_eq
  intro i hi
  rw [BitVec.getLsbD_append]
  split
  · rename_i hLow
    rw [BitVec.getLsbD_extractLsb']
    simp [hLow]
  · rename_i hHigh
    rw [BitVec.getLsbD_extractLsb']
    have hSum : 32 + (i - 32) = i := by omega
    simp [hSum]
    omega

namespace Pipe

/- The part of the pipe that the sequence number protects. -/
def seqLock (p : Pipe α) : SeqLock Field Word :=
  { SeqLock.init (encode p.mFront (BitVec.ofInt 64 p.mNextRdPTS)) with
    sequence := p.mUpdateSeq }

/- The steps of an update make what the call makes. -/
theorem updateFrontAndNRPTS_steps (p : Pipe α) (newFront : Word) (newNextRdPTS : Int) :
    ∃ s,
      Run.exec SeqLock.step p.seqLock
            [.beginUpdate (encode newFront (BitVec.ofInt 64 newNextRdPTS)),
              .store .front, .store .low, .store .high, .endUpdate] =
          some s ∧
        let q := p.updateFrontAndNRPTS newFront newNextRdPTS
        s.sequence = q.mUpdateSeq ∧ decode s.cells = (q.mFront, BitVec.ofInt 64 q.mNextRdPTS) := by
  refine ⟨_, rfl, rfl, ?_⟩
  exact decode_encode newFront (BitVec.ofInt 64 newNextRdPTS)

end Pipe

/-
  The timestamp of the next write is that of the next read and the duration of the frames in the
  pipe if and only if the pipe is not full, or that makes no difference; and the front and the
  timestamp that are observed, in any order of the accesses, are of one update, unless 2^31 of them
  overtake the observer.
-/
theorem nextWriteTimestamp_iff :
    (∀ (p : Pipe α) (ratio : LinearTransform) (n : Nat),
      p.mMaxFrames = 2 ^ n → p.mNextRdPTS ≠ kInvalidPTS →
        ratio.Usable →
          (p.getNextWriteTimestamp ratio =
              (.OK, some (p.mNextRdPTS + ratio.duration p.held), ratio) ↔
            p.held < p.mMaxFrames ∨
              ratio.duration (p.held % p.mMaxFrames) = ratio.duration p.held)) ∧
      ∀ (front : Word) (nextRdPTS : BitVec 64) (as : List (SeqLock.Action Field Word))
        (s : SeqLock Field Word),
        Run.exec (Run.guarded (fun s _ => s.NotOvertaken) SeqLock.step)
              (SeqLock.init (encode front nextRdPTS)) as =
            some s →
          ∀ cells ∈ s.observed,
            decode cells = decode s.initial ∨
              ∃ update ∈ s.updates, decode cells = decode update := by
  constructor
  · intro p ratio n hMax hValid hUsable
    rw [Pipe.getNextWriteTimestamp_eq hUsable hMax hValid]
    simp only [Prod.mk.injEq, Option.some.injEq, true_and, and_true, Int.add_right_inj]
    constructor
    · exact Or.inr
    · rintro (hLess | hSame)
      · rw [Nat.mod_eq_of_lt hLess]
      · exact hSame
  · intro front nextRdPTS as s hRun cells hCells
    rcases SeqLock.exec_seen _ hRun cells hCells with
      hFirst | hLater
    · exact Or.inl (congrArg decode hFirst)
    · exact Or.inr ⟨cells, hLater, rfl⟩

/- A clock that is as fast as the samples. -/
def sampleClock : LinearTransform where
  a_to_b_denom := 1
  doForwardTransform := fun frames => some frames

theorem sampleClock_usable : sampleClock.Usable where
  denom := by decide
  converts := fun _ _ => rfl

/- A read of the empty pipe, and a write of some frames. -/
def filling (count : Nat) : List (Action Nat) :=
  [.readLoad (fun _ => 0) 1 100, .writeBegin (fun k => k) count, .writeLoad] ++
    (List.range count).map .writeCopy ++ [.writeStore, .writeNext]

/- A pass that no update meets. -/
def quietPass : List (SeqLock.Action Field Word) :=
  [.beginPass, .load .front, .load .low, .load .high, .endPass]

/- Two frames in a pipe of four, and a pass. -/
theorem nextWriteTimestamp_two :
    (∃ p,
      Run.exec Pipe.step (Pipe.init (fun _ => 0) (2 ^ 2) false true true) (filling 2) = some p ∧
        (p.getNextWriteTimestamp sampleClock =
              (.OK, some (p.mNextRdPTS + sampleClock.duration p.held), sampleClock) ↔
            p.held < p.mMaxFrames ∨
              sampleClock.duration (p.held % p.mMaxFrames) = sampleClock.duration p.held)) ∧
      ∃ s,
        Run.exec (Run.guarded (fun s _ => s.NotOvertaken) SeqLock.step)
              (SeqLock.init (encode 7 100)) quietPass =
            some s ∧
          s.observed.length = 1 ∧
          ∀ cells ∈ s.observed,
            decode cells = decode s.initial ∨
              ∃ update ∈ s.updates, decode cells = decode update := by
  constructor
  · have hValue :
        ((Run.exec Pipe.step (Pipe.init (fun _ => 0) (2 ^ 2) false true true) (filling 2)).map
            (fun p => (p.mMaxFrames, p.mNextRdPTS))) =
          some (4, 100) := by
      decide
    rcases Option.map_eq_some_iff.mp hValue with ⟨p, hRun, hFacts⟩
    simp only [Prod.mk.injEq] at hFacts
    refine ⟨p, hRun, ?_⟩
    exact
      nextWriteTimestamp_iff.1 p sampleClock 2 hFacts.1
        (by rw [hFacts.2]; decide) sampleClock_usable
  · have hValue :
        ((Run.exec (Run.guarded (fun s _ => s.NotOvertaken) SeqLock.step)
              (SeqLock.init (encode 7 100)) quietPass).map
            (fun s => s.observed.length)) =
          some 1 := by
      decide
    rcases Option.map_eq_some_iff.mp hValue with ⟨s, hRun, hFacts⟩
    exact ⟨s, hRun, hFacts, (nextWriteTimestamp_iff (α := Nat)).2 7 100 quietPass s hRun⟩

/- The four frames of a full pipe are not counted. -/
theorem nextWriteTimestamp_full :
    ∃ p,
      Run.exec Pipe.step (Pipe.init (fun _ => 0) (2 ^ 2) false true true) (filling 4) = some p ∧
        p.held = 4 ∧ (p.getNextWriteTimestamp sampleClock).2.1 = some p.mNextRdPTS ∧
        p.mNextRdPTS ≠ p.mNextRdPTS + sampleClock.duration p.held := by
  have hValue :
      ((Run.exec Pipe.step (Pipe.init (fun _ => 0) (2 ^ 2) false true true) (filling 4)).map
          (fun p =>
            (p.held, p.mNextRdPTS, (p.getNextWriteTimestamp sampleClock).2.1))) =
        some (4, 100, some 100) := by
    decide
  rcases Option.map_eq_some_iff.mp hValue with ⟨p, hRun, hFacts⟩
  simp only [Prod.mk.injEq] at hFacts
  rcases hFacts with ⟨hHeld, hValid, hResult⟩
  refine ⟨p, hRun, hHeld, ?_, ?_⟩
  · rw [hResult, hValid]
  · rw [hHeld, hValid]
    decide

end MonoPipe

end FrameworksAv
