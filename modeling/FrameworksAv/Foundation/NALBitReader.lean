import FrameworksAv.Foundation.ABitReader

/-
  `NALBitReader` reads the bits of a NAL unit without its emulation prevention bytes.

  The zeros before a byte are counted in an `int32_t`; the reader and its look-ahead count them with
  a loop of their own each.

  Main declarations:
    * `unescape`
    * `NALBitReader.fillReservoir`
    * `NALBitReader.atLeastNumBitsLeft_iff`
    * `NALBitReader.reads_plain`
-/

--
-- Emulation Prevention Bytes
--

namespace FrameworksAv

namespace Foundation

open ATSParser (bitsOf ofBits)

/- The count after a byte; an `int32_t` wraps. -/
def countZeros (numZeros : Int) (b : Byte) : Int :=
  if b = 0 then (numZeros + 1).bmod (2 ^ 32) else 0

def isEmulationPreventionByte (numZeros : Int) (b : Byte) : Bool :=
  2 ≤ numZeros ∧ b = 3

/- What is left of bytes that follow some zeros. -/
def unescape : Int → List Byte → List Byte
| _, [] => []
| numZeros, b :: bytes =>
  if isEmulationPreventionByte numZeros b then unescape (countZeros numZeros b) bytes
  else b :: unescape (countZeros numZeros b) bytes

/- The bits that bytes stand for after some zeros. -/
def unescapedBits (numZeros : Int) (bytes : List Byte) : List Bool :=
  bitsOf (unescape numZeros bytes)

theorem unescapedBits_cons (numZeros : Int) (b : Byte) (bytes : List Byte) :
    unescapedBits numZeros (b :: bytes) =
      (if isEmulationPreventionByte numZeros b then [] else bitsOf [b]) ++
        unescapedBits (countZeros numZeros b) bytes := by
  unfold unescapedBits
  rw [unescape]
  split
  · rfl
  · exact ATSParser.bitsOf_append [b] _

example : unescape 0 [0, 0, 3, 0, 0, 3] = [0, 0, 0, 0] := by
  decide

--
-- The Reader
--

namespace NALBitReader

open ABitReader (mSize byte numBitsLeft align Shows Fills)

/- A turn for each byte, while `i < 4`. -/
def fillLoop : Nat → Nat → ABitReader → ABitReader × Nat
| 0, i, r => (r, i)
| turns + 1, i, r =>
  if r.mSize ≠ 0 ∧ i < 4 then
    let next :=
      { r with
        mNumZeros := countZeros r.mNumZeros r.byte
        mData := r.mData + 1 }
    if isEmulationPreventionByte r.mNumZeros r.byte then fillLoop turns i next
    else
      fillLoop turns (i + 1)
        { next with
          mReservoir := (r.mReservoir <<< 8) ||| r.byte.setWidth 32 }
  else (r, i)

def fillReservoir (masked : Bool) (r : ABitReader) : Option ABitReader :=
  if r.mSize = 0 then none
  else
    let filled := fillLoop r.mSize 0 { r with mReservoir := 0 }
    some (align masked filled.1 filled.2)

/- The look-ahead over bytes; it yields `numBitsRemaining`. -/
def lookAhead : Int → Int → List Byte → Int
| numBitsRemaining, _, [] => numBitsRemaining
| numBitsRemaining, numZeros, b :: bytes =>
  if 0 < numBitsRemaining then
    lookAhead
      (if isEmulationPreventionByte numZeros b then numBitsRemaining else numBitsRemaining - 8)
      (countZeros numZeros b) bytes
  else numBitsRemaining

def atLeastNumBitsLeft (r : ABitReader) (n : Nat) : Bool :=
  if r.numBitsLeft < n then false
  else lookAhead ((n : Int) - r.mNumBitsLeft) r.mNumZeros (r.bytes.drop r.mData) ≤ 0

/- The look-ahead finds the bits that the reader will get. -/
theorem lookAhead_le_zero (numBitsRemaining numZeros : Int) (bytes : List Byte) :
    lookAhead numBitsRemaining numZeros bytes ≤ 0 ↔
      numBitsRemaining ≤ (unescapedBits numZeros bytes).length := by
  induction bytes generalizing numBitsRemaining numZeros with
  | nil =>
    rw [lookAhead]
    rfl
  | cons b bytes ih =>
    rw [lookAhead, unescapedBits_cons]
    split
    next hMore =>
      rw [ih, List.length_append]
      split
      · simp
      · rw [ATSParser.bitsOf_length, List.length_singleton]
        omega
    next hDone =>
      constructor
      · intro _
        omega
      · intro _
        omega

variable {r : ABitReader} {bytes : List Byte} {bits : List Bool}

/- There are no more bits than those of the bytes. -/
theorem unescapedBits_length_le (numZeros : Int) (bytes : List Byte) :
    (unescapedBits numZeros bytes).length ≤ 8 * bytes.length := by
  induction bytes generalizing numZeros with
  | nil => exact Nat.le_refl 0
  | cons b bytes ih =>
    have hRest := ih (countZeros numZeros b)
    rw [unescapedBits_cons, List.length_append, List.length_cons]
    split
    · simp only [List.length_nil]
      omega
    · rw [ATSParser.bitsOf_length, List.length_singleton]
      omega

/- The test is that so many bits are unread. -/
theorem atLeastNumBitsLeft_iff (h : r.Shows unescapedBits bytes bits) (n : Nat) :
    atLeastNumBitsLeft r n = true ↔ n ≤ bits.length := by
  have hMost := unescapedBits_length_le r.mNumZeros (bytes.drop r.mData)
  have hAhead := lookAhead_le_zero ((n : Int) - r.mNumBitsLeft) r.mNumZeros (bytes.drop r.mData)
  have hLength : bits.length =
      r.mNumBitsLeft + (unescapedBits r.mNumZeros (bytes.drop r.mData)).length := by
    rw [← h.view, List.length_append, topBits_length]
  rw [List.length_drop] at hMost
  unfold atLeastNumBitsLeft numBitsLeft mSize
  rw [h.bytes_eq]
  split
  next hFew =>
    simp only [Bool.false_eq_true, false_iff, not_le]
    omega
  next hEnough =>
    rw [decide_eq_true_eq, hAhead, hLength]
    omega

/- The loop stops with four bytes or at the end. -/
theorem fillLoop_shows {turns i : Nat} (hTurns : r.mSize ≤ turns) (hI : i ≤ 4)
    (hBytes : r.bytes = bytes) (hInside : r.mData ≤ bytes.length) :
    let filled := fillLoop turns i r
    filled.1.bytes = bytes ∧ filled.1.mData ≤ bytes.length ∧ filled.2 ≤ 4 ∧
      (filled.2 = 4 ∨ bytes.drop filled.1.mData = []) ∧
      lowBits filled.1.mReservoir (8 * filled.2) ++
          unescapedBits filled.1.mNumZeros (bytes.drop filled.1.mData) =
        lowBits r.mReservoir (8 * i) ++ unescapedBits r.mNumZeros (bytes.drop r.mData) := by
  induction turns generalizing i r with
  | zero =>
    have hEnd : bytes.drop r.mData = [] := by
      unfold mSize at hTurns
      rw [hBytes] at hTurns
      exact List.drop_of_length_le (by omega)
    exact ⟨hBytes, hInside, hI, Or.inr hEnd, rfl⟩
  | succ turns ih =>
    rw [fillLoop]
    by_cases hMore : r.mSize ≠ 0 ∧ i < 4
    · rcases ABitReader.drop_mData hBytes hMore.1 with ⟨hNext, hDrop⟩
      have hFewer : r.bytes.length - (r.mData + 1) ≤ turns := by
        unfold mSize at hTurns
        omega
      rw [if_pos hMore]
      by_cases hEscape : isEmulationPreventionByte r.mNumZeros r.byte
      · simp only [hEscape, if_true]
        rcases ih (r := { r with
            mNumZeros := countZeros r.mNumZeros r.byte
            mData := r.mData + 1 }) hFewer hI hBytes hNext with
          ⟨hSame, hIn, hFour, hEnd, hView⟩
        refine ⟨hSame, hIn, hFour, hEnd, ?_⟩
        rw [hView, hDrop, unescapedBits_cons, if_pos hEscape, List.nil_append]
      · simp only [hEscape]
        rcases ih (r := { r with
            mNumZeros := countZeros r.mNumZeros r.byte
            mData := r.mData + 1
            mReservoir := (r.mReservoir <<< 8) ||| r.byte.setWidth 32 }) hFewer
            (Nat.succ_le_of_lt hMore.2) hBytes hNext with
          ⟨hSame, hIn, hFour, hEnd, hView⟩
        have hFits : 8 * i + 8 ≤ 32 := by omega
        refine ⟨hSame, hIn, hFour, hEnd, ?_⟩
        refine hView.trans ?_
        rw [hDrop, unescapedBits_cons, if_neg hEscape, ← List.append_assoc,
          ← lowBits_push r.mReservoir r.byte hFits]
        rfl
    · rw [if_neg hMore]
      refine ⟨hBytes, hInside, hI, ?_, rfl⟩
      by_cases hSize : r.mSize = 0
      · unfold mSize at hSize
        rw [hBytes] at hSize
        exact Or.inr (List.drop_of_length_le (by omega : bytes.length ≤ r.mData))
      · left
        simp only
        omega

/- An empty reservoir gets bits while there are any. -/
theorem fillReservoir_fills (masked : Bool) : Fills unescapedBits (fillReservoir masked) := by
  intro r bytes bits h hNone hSome
  have hView := h.view
  rw [hNone, topBits_nil, List.nil_append] at hView
  have hSize : r.mSize ≠ 0 := by
    intro hZero
    unfold mSize at hZero
    rw [h.bytes_eq] at hZero
    rw [List.drop_of_length_le (by omega)] at hView
    exact hSome hView.symm
  rcases fillLoop_shows (r := { r with mReservoir := 0 })
      (Nat.le_refl r.mSize) (Nat.zero_le 4) h.bytes_eq h.inside with
    ⟨hBytes, hInside, hFour, hEnd, hLow⟩
  have hBits := hLow.trans hView
  have hPos : 0 < (fillLoop r.mSize 0 { r with mReservoir := 0 }).2 := by
    rcases hEnd with hFull | hOut
    · omega
    · refine Nat.pos_of_ne_zero (fun hZero => ?_)
      rw [hOut, hZero] at hBits
      exact hSome hBits.symm
  unfold fillReservoir
  rw [if_neg hSize]
  refine ⟨_, rfl, ⟨hBytes, ?_, hInside, ?_⟩, ?_⟩
  · simp only [align]
    omega
  · simp only [align]
    rw [shl_of_lt masked _ (by omega), topBits_align _ (by omega)]
    exact hBits
  · simp only [align]
    omega

end NALBitReader

--
-- Runs
--

/- A call that is made if `atLeastNumBitsLeft` allows it. -/
inductive GuardedOp where
| getBits (n : Nat)
| skipBits (n : Nat)
deriving DecidableEq

/- A plain reader of bits, and the results so far. -/
def plainStep (s : List Bool × List Nat) : GuardedOp → List Bool × List Nat
| .getBits n =>
  if n ≤ s.1.length then (s.1.drop n, s.2 ++ [ofBits (s.1.take n)])
  else s
| .skipBits n => if n ≤ s.1.length then (s.1.drop n, s.2) else s

namespace NALBitReader

open ABitReader (create Shows getBits skipBits)

def step (masked : Bool) (s : ABitReader × List Nat) : GuardedOp → Option (ABitReader × List Nat)
| .getBits n =>
  if atLeastNumBitsLeft s.1 n then
    (getBits masked (fillReservoir masked) n s.1).map (fun got => (got.2, s.2 ++ [got.1.toNat]))
  else some s
| .skipBits n =>
  if atLeastNumBitsLeft s.1 n then
    (skipBits masked (fillReservoir masked) n s.1).map (fun r => (r, s.2))
  else some s

/- `getBits` reads at most 32 bits. -/
def Narrow : GuardedOp → Prop
| .getBits n => n ≤ 32
| .skipBits _ => True

instance : (op : GuardedOp) → Decidable (Narrow op)
| .getBits n => inferInstanceAs (Decidable (n ≤ 32))
| .skipBits _ => instDecidableTrue

variable {r : ABitReader} {bytes : List Byte} {bits : List Bool}

theorem create_shows (bytes : List Byte) :
    (create bytes).Shows unescapedBits bytes (unescapedBits 0 bytes) :=
  ⟨rfl, Nat.zero_le 32, Nat.zero_le _, rfl⟩

/- A step of the reader is a step of the plain reader. -/
theorem step_shows (masked : Bool) (h : r.Shows unescapedBits bytes bits) (outs : List Nat)
    {op : GuardedOp} (hNarrow : Narrow op) :
    ∃ r',
      step masked (r, outs) op = some (r', (plainStep (bits, outs) op).2) ∧
        r'.Shows unescapedBits bytes (plainStep (bits, outs) op).1 := by
  have hFills := fillReservoir_fills masked
  cases op with
  | getBits n =>
    have hLeft := atLeastNumBitsLeft_iff h n
    simp only [step, plainStep, hLeft]
    by_cases hLe : n ≤ bits.length
    · rw [if_pos hLe, if_pos hLe]
      rcases ABitReader.getBits_shows masked hFills h hNarrow hLe with ⟨v, r', hGet, hV, hShows⟩
      refine ⟨r', ?_, hShows⟩
      rw [hGet, Option.map_some, hV]
    · rw [if_neg hLe, if_neg hLe]
      exact ⟨r, rfl, h⟩
  | skipBits n =>
    have hLeft := atLeastNumBitsLeft_iff h n
    simp only [step, plainStep, hLeft]
    by_cases hLe : n ≤ bits.length
    · rw [if_pos hLe, if_pos hLe]
      rcases ABitReader.skipBits_shows masked hFills h hLe with ⟨r', hSkip, hShows⟩
      refine ⟨r', ?_, hShows⟩
      rw [hSkip, Option.map_some]
    · rw [if_neg hLe, if_neg hLe]
      exact ⟨r, rfl, h⟩

theorem exec_shows (masked : Bool) (h : r.Shows unescapedBits bytes bits) (outs : List Nat)
    {ops : List GuardedOp} (hNarrow : ∀ op ∈ ops, Narrow op) :
    ∃ r',
      Run.exec (step masked) (r, outs) ops = some (r', (ops.foldl plainStep (bits, outs)).2) ∧
        r'.Shows unescapedBits bytes (ops.foldl plainStep (bits, outs)).1 := by
  induction ops generalizing r bits outs with
  | nil => exact ⟨r, rfl, h⟩
  | cons op ops ih =>
    rw [List.forall_mem_cons] at hNarrow
    rcases step_shows masked h outs hNarrow.1 with ⟨r₁, hStep, hShows⟩
    rcases ih hShows (plainStep (bits, outs) op).2 hNarrow.2 with ⟨r', hExec, hLast⟩
    exact ⟨r', Run.exec_cons_eq_some.mpr ⟨_, hStep, hExec⟩, hLast⟩

/-
  In every run no `CHECK` fails, the results are those of a plain reader of the bytes without
  emulation prevention bytes, and `atLeastNumBitsLeft` allows exactly what that reader has left.
-/
theorem reads_plain (masked : Bool) (bytes : List Byte) (ops : List GuardedOp)
    (hNarrow : ∀ op ∈ ops, Narrow op) :
    let last := ops.foldl plainStep (unescapedBits 0 bytes, [])
    ∃ r,
      Run.exec (step masked) (create bytes, []) ops = some (r, last.2) ∧
        ∀ n, atLeastNumBitsLeft r n = true ↔ n ≤ last.1.length := by
  rcases exec_shows masked (create_shows bytes) [] hNarrow with ⟨r, hExec, hShows⟩
  exact ⟨r, hExec, atLeastNumBitsLeft_iff hShows⟩

/- A byte 3 at the end, behind two zeros, has no bits. -/
theorem reads_plain_end :
    ∃ r,
      Run.exec (step true) (create [5, 0, 0, 3, 1, 0, 0, 3], [])
          [.getBits 32, .getBits 16, .getBits 1] =
        some (r, [0x05000001, 0]) ∧
      atLeastNumBitsLeft r 1 = false := by
  rcases reads_plain true [5, 0, 0, 3, 1, 0, 0, 3]
      [.getBits 32, .getBits 16, .getBits 1] (by decide) with
    ⟨r, hExec, hLeft⟩
  have hOuts :
      ([.getBits 32, .getBits 16, .getBits 1] : List GuardedOp).foldl plainStep
          (unescapedBits 0 [5, 0, 0, 3, 1, 0, 0, 3], []) =
        ([], [0x05000001, 0]) := by
    decide +kernel
  rw [hOuts] at hExec hLeft
  refine ⟨r, hExec, ?_⟩
  rw [← Bool.not_eq_true, hLeft]
  decide

end NALBitReader

end Foundation

end FrameworksAv
