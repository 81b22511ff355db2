import FrameworksAv.Base.Buffer
import FrameworksAv.Base.Run
import FrameworksAv.ATSParser.BitReader
import Mathlib.Data.List.GetD

/-
  `ABitReader` (media/libstagefright/foundation/ABitReader.cpp) with its words.

  The reservoir is a word whose first bits are the next bits; what follows them is left over. A
  shift of a word by its width has no defined result: some machines give 0, others take the count
  modulo the width (`masked`). `none` stands for a failed `CHECK`, a pointer before the buffer, or a
  loop that does not end.

  Main declarations:
    * `ABitReader.getBits`, `ABitReader.skipBits`
    * `ABitReader.putBits`, `ABitReader.data`
    * `ABitReader.putBits_reads_iff`
    * `ABitReader.reads_run`
-/

--
-- Words
--

namespace FrameworksAv

namespace Foundation

abbrev Word := BitVec 32

def shl (masked : Bool) (v : Word) (n : Nat) : Word :=
  if masked then v <<< (n % 32) else v <<< n

def shr (masked : Bool) (v : Word) (n : Nat) : Word :=
  if masked then v >>> (n % 32) else v >>> n

variable (masked : Bool)

theorem shl_of_lt (v : Word) {n : Nat} (hLt : n < 32) : shl masked v n = v <<< n := by
  unfold shl
  rw [Nat.mod_eq_of_lt hLt, ite_self]

theorem shr_of_lt (v : Word) {n : Nat} (hLt : n < 32) : shr masked v n = v >>> n := by
  unfold shr
  rw [Nat.mod_eq_of_lt hLt, ite_self]

@[simp] theorem shl_zero (n : Nat) : shl masked 0 n = 0 := by
  unfold shl
  split <;> exact BitVec.zero_shiftLeft _

@[simp] theorem shr_zero (n : Nat) : shr masked 0 n = 0 := by
  unfold shr
  split <;> exact BitVec.zero_ushiftRight

/- The last bits of a word. -/
def lowBits (v : Word) (k : Nat) : List Bool :=
  (List.range k).map (fun j => v.getLsbD (k - 1 - j))

/- The first bits of a word. -/
def topBits (v : Word) (k : Nat) : List Bool :=
  (List.range k).map (fun j => v.getLsbD (31 - j))

@[simp] theorem lowBits_length (v : Word) (k : Nat) : (lowBits v k).length = k := by
  simp [lowBits]

@[simp] theorem topBits_length (v : Word) (k : Nat) : (topBits v k).length = k := by
  simp [topBits]

@[simp] theorem topBits_nil (v : Word) : topBits v 0 = [] :=
  rfl

open ATSParser (bitsOf ofBits)

theorem lowBits_succ (v : Word) (k : Nat) : lowBits v (k + 1) = v.getLsbD k :: lowBits v k := by
  unfold lowBits
  rw [List.range_succ_eq_map, List.map_cons, List.map_map]
  congr 1
  apply List.map_congr_left
  intro j hj
  simp only [Function.comp_apply]
  congr 1
  omega

/- The last bits stand for the word modulo a power of two. -/
theorem ofBits_lowBits (v : Word) (k : Nat) : ofBits (lowBits v k) = v.toNat % 2 ^ k := by
  induction k with
  | zero => simp [lowBits, ofBits, Nat.mod_one]
  | succ k ih =>
    rw [lowBits_succ, ofBits, List.foldl_cons, ATSParser.foldl_ofBits, ih, lowBits_length,
      BitVec.getLsbD, Nat.testBit_eq_decide_div_mod_eq, Nat.mod_pow_succ]
    rcases Nat.mod_two_eq_zero_or_one (v.toNat / 2 ^ k) with
      hZero | hOne
    · simp [hZero]
    · simp [hOne, Nat.add_comm]

theorem lowBits_shr (v : Word) {m : Nat} (hLe : m ≤ 32) :
    lowBits (v >>> (32 - m)) m = topBits v m := by
  apply List.map_congr_left
  intro j hj
  have hLt := List.mem_range.mp hj
  rw [BitVec.getLsbD_ushiftRight]
  congr 1
  omega

/- The number that the first bits stand for. -/
theorem ofBits_topBits (v : Word) {m : Nat} (hLe : m ≤ 32) :
    ofBits (topBits v m) = (v >>> (32 - m)).toNat := by
  have hLt : (v >>> (32 - m)).toNat < 2 ^ m := by
    have hWord := v.isLt
    rw [BitVec.toNat_ushiftRight, Nat.shiftRight_eq_div_pow]
    rw [Nat.div_lt_iff_lt_mul (Nat.two_pow_pos _), ← Nat.pow_add]
    rwa [Nat.add_sub_of_le hLe]
  rw [← lowBits_shr v hLe, ofBits_lowBits, Nat.mod_eq_of_lt hLt]

theorem ofBits_topBits_lt (v : Word) {m : Nat} (hLe : m ≤ 32) : ofBits (topBits v m) < 2 ^ m := by
  rw [← lowBits_shr v hLe, ofBits_lowBits]
  exact Nat.mod_lt _ (Nat.two_pow_pos m)

/- A shift to the left drops the first bits. -/
theorem topBits_shl (v : Word) {m k : Nat} (hLe : m + k ≤ 32) :
    topBits (v <<< m) k = (topBits v (m + k)).drop m := by
  apply List.ext_getElem
  · simp
  · intro j hj _
    have hLt : j < k := by simpa using hj
    simp only [topBits, List.getElem_map, List.getElem_range,
      List.getElem_drop, BitVec.getLsbD_shiftLeft]
    rw [decide_eq_true (by omega : 31 - j < 32), decide_eq_false (by omega : ¬31 - j < m)]
    simp only [Bool.not_false, Bool.true_and]
    congr 1
    omega

theorem topBits_align (v : Word) {k : Nat} (hLe : k ≤ 32) :
    topBits (v <<< (32 - k)) k = lowBits v k := by
  apply List.map_congr_left
  intro j hj
  have hLt := List.mem_range.mp hj
  rw [BitVec.getLsbD_shiftLeft, decide_eq_true (by omega : 31 - j < 32),
    decide_eq_false (by omega : ¬31 - j < 32 - k)]
  simp only [Bool.not_false, Bool.true_and]
  congr 1
  omega

/- A byte behind the last bits. -/
theorem lowBits_push (v : Word) (b : Byte) {k : Nat} (hLe : k + 8 ≤ 32) :
    lowBits ((v <<< 8) ||| b.setWidth 32) (k + 8) = lowBits v k ++ bitsOf [b] := by
  apply List.ext_getElem
  · simp
  · intro j hj _
    have hLt : j < k + 8 := by simpa using hj
    rw [List.getElem_append]
    split
    next hFirst =>
      rw [lowBits_length] at hFirst
      simp only [lowBits, List.getElem_map, List.getElem_range, BitVec.getLsbD_or,
        BitVec.getLsbD_shiftLeft, BitVec.getLsbD_setWidth]
      rw [decide_eq_true (by omega : k + 8 - 1 - j < 32),
        decide_eq_false (by omega : ¬k + 8 - 1 - j < 8), BitVec.getLsbD_of_ge b _ (by omega)]
      simp only [Bool.not_false, Bool.true_and, Bool.and_false, Bool.or_false]
      congr 1
      omega
    next hLast =>
      rw [lowBits_length] at hLast
      simp only [lowBits, bitsOf, List.getElem_map,
        List.getElem_range, BitVec.getLsbD_or, List.flatMap_cons, List.flatMap_nil, List.append_nil,
        BitVec.getLsbD_shiftLeft, BitVec.getLsbD_setWidth,
        BitVec.getMsbD, List.length_map, List.length_range]
      rw [decide_eq_true (by omega : k + 8 - 1 - j < 32),
        decide_eq_true (by omega : k + 8 - 1 - j < 8), decide_eq_true (by omega : j - k < 8)]
      simp only [Bool.not_true, Bool.and_false, Bool.true_and, Bool.false_and, Bool.false_or]
      congr 1
      omega

/- Bits pushed back before the first ones. -/
theorem topBits_put (v x : Word) {n k : Nat} (hLe : n + k ≤ 32) :
    topBits ((v >>> n) ||| (x <<< (32 - n))) (n + k) = lowBits x n ++ topBits v k := by
  apply List.ext_getElem
  · simp
  · intro j hj _
    have hLt : j < n + k := by simpa using hj
    rw [List.getElem_append]
    split
    next hFirst =>
      rw [lowBits_length] at hFirst
      simp only [lowBits, topBits, List.getElem_map, List.getElem_range, BitVec.getLsbD_or,
        BitVec.getLsbD_shiftLeft, BitVec.getLsbD_ushiftRight]
      rw [decide_eq_true (by omega : 31 - j < 32), decide_eq_false (by omega : ¬31 - j < 32 - n),
        BitVec.getLsbD_of_ge v _ (by omega)]
      simp only [Bool.not_false, Bool.true_and, Bool.false_or]
      congr 1
      omega
    next hLast =>
      rw [lowBits_length] at hLast
      simp only [topBits, List.getElem_map, List.getElem_range,
        BitVec.getLsbD_or, BitVec.getLsbD_shiftLeft, BitVec.getLsbD_ushiftRight, lowBits_length]
      rw [decide_eq_true (by omega : 31 - j < 32), decide_eq_true (by omega : 31 - j < 32 - n)]
      simp only [Bool.not_true, Bool.and_false, Bool.false_and, Bool.or_false]
      congr 1
      omega

end Foundation

--
-- The Reader
--

namespace Foundation

open ATSParser (bitsOf ofBits)

/-
  The fields of `ABitReader` and of `NALBitReader`, which is derived from it and has `mNumZeros`.
  `mData` is where the pointer is in the bytes.
-/
structure ABitReader where
  bytes : List Byte
  mData : Nat
  mReservoir : Word
  mNumBitsLeft : Nat
  mNumZeros : Int

namespace ABitReader

def create (bytes : List Byte) : ABitReader :=
  ⟨bytes, 0, 0, 0, 0⟩

def mSize (r : ABitReader) : Nat := r.bytes.length - r.mData

/- `*mData` -/
def byte (r : ABitReader) : Byte := r.bytes.getD r.mData 0

def numBitsLeft (r : ABitReader) : Nat :=
  r.mSize * 8 + r.mNumBitsLeft

/- Where `data()` points. -/
def data (r : ABitReader) : Nat :=
  r.mData - (r.mNumBitsLeft + 7) / 8

variable (masked : Bool)

/- The turns that are left while `i < 4`. -/
def fillLoop : Nat → Nat → ABitReader → ABitReader × Nat
| 0, i, r => (r, i)
| turns + 1, i, r =>
  if r.mSize ≠ 0 then
    fillLoop turns (i + 1)
      { r with
        mReservoir := (r.mReservoir <<< 8) ||| r.byte.setWidth 32
        mData := r.mData + 1 }
  else (r, i)

/- The end of `fillReservoir`. -/
def align (r : ABitReader) (i : Nat) : ABitReader :=
  { r with
    mNumBitsLeft := 8 * i
    mReservoir := shl masked r.mReservoir (32 - 8 * i) }

def fillReservoir (r : ABitReader) : Option ABitReader :=
  if r.mSize = 0 then none
  else
    let filled := fillLoop 4 0 { r with mReservoir := 0 }
    some (align masked filled.1 filled.2)

section Virtual

/- `fillReservoir` is virtual. -/
variable (fill : ABitReader → Option ABitReader)

def getLoop : Nat → Nat → Word → ABitReader → Option (Word × ABitReader)
| 0, n, result, r => if n = 0 then some (result, r) else none
| turns + 1, n, result, r =>
  if n = 0 then some (result, r)
  else
    (if r.mNumBitsLeft = 0 then fill r else some r).bind
      (fun r =>
        let m := min n r.mNumBitsLeft
        getLoop turns (n - m) (shl masked result m ||| shr masked r.mReservoir (32 - m))
          { r with
            mReservoir := shl masked r.mReservoir m
            mNumBitsLeft := r.mNumBitsLeft - m })

/- A turn takes a bit, or the next one does. -/
def getBits (n : Nat) (r : ABitReader) : Option (Word × ABitReader) :=
  if 32 < n then none else getLoop masked fill (n + 2) n 0 r

def skipLoop : Nat → Nat → ABitReader → Option ABitReader
| 0, _, _ => none
| turns + 1, n, r =>
  if 32 < n then (getBits masked fill 32 r).bind (fun got => skipLoop turns (n - 32) got.2)
  else if 0 < n then (getBits masked fill n r).map Prod.snd
  else some r

def skipBits (n : Nat) (r : ABitReader) : Option ABitReader :=
  skipLoop masked fill (n + 1) n r

end Virtual

/- The loop of `putBits`; `mNumBitsLeft` is a `size_t`. -/
def putLoop (n : Nat) : Nat → ABitReader → Option ABitReader
| 0, _ => none
| turns + 1, r =>
  if 32 < (r.mNumBitsLeft + n) % 2 ^ 64 then if r.mData = 0 then none
    else
      putLoop n turns
        { r with
          mNumBitsLeft := sizeSub r.mNumBitsLeft 8
          mData := r.mData - 1 }
  else some r

def putBits (x : Word) (n : Nat) (r : ABitReader) : Option ABitReader :=
  if 32 < n then none
  else
    (putLoop n (r.mNumBitsLeft + n + 1) r).map (fun r =>
      { r with
        mReservoir := shr masked r.mReservoir n ||| shl masked x (32 - n)
        mNumBitsLeft := (r.mNumBitsLeft + n) % 2 ^ 64 })

end ABitReader

--
-- Reading
--

namespace ABitReader

variable {r : ABitReader}

/- Bits taken from the reservoir join the result. -/
theorem toNat_turn (masked : Bool) {result : Word} (v : Word) {m : Nat} (hPos : 0 < m)
    (hLe : m ≤ 32) (hFits : result.toNat * 2 ^ m < 2 ^ 32) :
    (shl masked result m ||| shr masked v (32 - m)).toNat =
      result.toNat * 2 ^ m + ofBits (topBits v m) := by
  have hTop := ofBits_topBits v hLe
  rw [shr_of_lt masked v (by omega : 32 - m < 32)]
  have hSmall : (v >>> (32 - m)).toNat < 2 ^ m := by
    rw [← hTop]
    exact ofBits_topBits_lt v hLe
  have hShift : (shl masked result m).toNat = result.toNat * 2 ^ m := by
    by_cases hWidth : m = 32
    · have hZero : result = 0 := by
        apply BitVec.eq_of_toNat_eq
        rw [hWidth] at hFits
        have hNone : result.toNat = 0 := by omega
        exact hNone
      rw [hZero, shl_zero]
      simp
    · rw [shl_of_lt masked result (by omega), BitVec.toNat_shiftLeft, Nat.shiftLeft_eq,
        Nat.mod_eq_of_lt hFits]
  rw [BitVec.toNat_or, hShift, hTop, Nat.mul_comm, ← Nat.two_pow_add_eq_or_of_lt hSmall]

/- What is left of the reservoir. -/
theorem topBits_turn (masked : Bool) (v : Word) {m k : Nat} (hLe : m + k ≤ 32) :
    topBits (shl masked v m) k = (topBits v (m + k)).drop m := by
  by_cases hWidth : m = 32
  · have hNone : k = 0 := by omega
    subst hNone
    rw [topBits_nil, List.drop_of_length_le]
    simp
  · rw [shl_of_lt masked v (by omega), topBits_shl v hLe]

theorem topBits_take (v : Word) {m k : Nat} (hLe : m ≤ k) : (topBits v k).take m = topBits v m := by
  unfold topBits
  rw [← List.map_take, List.take_range, Nat.min_eq_left hLe]

/-
  The reader shows these bits of these bytes; `rest` says which bits bytes stand for after some
  zeros.
-/
structure Shows (rest : Int → List Byte → List Bool) (r : ABitReader) (bytes : List Byte)
    (bits : List Bool) : Prop where
  bytes_eq : r.bytes = bytes
  word : r.mNumBitsLeft ≤ 32
  inside : r.mData ≤ bytes.length
  view :
    topBits r.mReservoir r.mNumBitsLeft ++ rest r.mNumZeros (bytes.drop r.mData) =
      bits

/- An empty reservoir gets bits while there are any. -/
def Fills (rest : Int → List Byte → List Bool) (fill : ABitReader → Option ABitReader) : Prop :=
  ∀ r bytes bits, r.Shows rest bytes bits →
    r.mNumBitsLeft = 0 → bits ≠ [] →
      ∃ r', fill r = some r' ∧ r'.Shows rest bytes bits ∧ 0 < r'.mNumBitsLeft

variable {rest : Int → List Byte → List Bool} {fill : ABitReader → Option ABitReader}
variable {bytes : List Byte} {bits : List Bool}

/- The state after a turn that takes `m` bits. -/
theorem Shows.turn (masked : Bool) (h : r.Shows rest bytes bits) {m : Nat}
    (hLe : m ≤ r.mNumBitsLeft) :
    ({ r with
        mReservoir := shl masked r.mReservoir m
        mNumBitsLeft := r.mNumBitsLeft - m } :
          ABitReader).Shows rest bytes (bits.drop m) := by
  have hWord := h.word
  refine ⟨h.bytes_eq, ?_, h.inside, ?_⟩
  · simp only
    omega
  · simp only
    rw [topBits_turn masked r.mReservoir (by omega), Nat.add_sub_of_le hLe, ← h.view,
      List.drop_append_of_le_length (by simpa using hLe)]

theorem Shows.take_eq (h : r.Shows rest bytes bits) {m : Nat} (hLe : m ≤ r.mNumBitsLeft) :
    bits.take m = topBits r.mReservoir m := by
  rw [← h.view, List.take_append_of_le_length (by simpa using hLe), topBits_take _ hLe]

/- A reader with bits has bits in its reservoir, or gets them. -/
theorem Shows.filled (hFills : Fills rest fill) (h : r.Shows rest bytes bits) (hSome : bits ≠ []) :
    ∃ r',
      (if r.mNumBitsLeft = 0 then fill r else some r) = some r' ∧
        r'.Shows rest bytes bits ∧ 0 < r'.mNumBitsLeft := by
  by_cases hZero : r.mNumBitsLeft = 0
  · rw [if_pos hZero]
    exact hFills r bytes bits h hZero hSome
  · rw [if_neg hZero]
    exact ⟨r, rfl, h, Nat.pos_of_ne_zero hZero⟩

/- A result of `32 - n` bits has room for `n` more. -/
theorem room {value t m n : Nat} (hValue : value < 2 ^ (32 - n)) (hT : t < 2 ^ m) (hLe : m ≤ n)
    (hWord : n ≤ 32) : value * 2 ^ m + t < 2 ^ (32 - (n - m)) := by
  have hExp : 32 - (n - m) = 32 - n + m := by omega
  have hStep : (value + 1) * 2 ^ m ≤ 2 ^ (32 - n) * 2 ^ m := Nat.mul_le_mul_right _ hValue
  rw [hExp, Nat.pow_add]
  rw [Nat.add_mul, Nat.one_mul] at hStep
  omega

/- The loop takes the next bits, behind the result so far. -/
theorem getLoop_shows (masked : Bool) (hFills : Fills rest fill) {turns n : Nat} {result : Word}
    (h : r.Shows rest bytes bits) (hTurns : n ≤ turns) (hBits : n ≤ bits.length) (hWord : n ≤ 32)
    (hResult : result.toNat < 2 ^ (32 - n)) :
    ∃ v r',
      getLoop masked fill turns n result r = some (v, r') ∧
        v.toNat = result.toNat * 2 ^ n + ofBits (bits.take n) ∧
        r'.Shows rest bytes (bits.drop n) := by
  induction turns generalizing n result r bits with
  | zero =>
    have hZero : n = 0 := by omega
    subst hZero
    exact ⟨result, r, rfl, by simp [ofBits], h⟩
  | succ turns ih =>
    by_cases hZero : n = 0
    · subst hZero
      exact ⟨result, r, rfl, by simp [ofBits], h⟩
    · have hSome : bits ≠ [] := by
        rintro rfl
        rw [List.length_nil] at hBits
        omega
      rcases h.filled hFills hSome with ⟨r₁, hFill, hShows, hPos⟩
      have hLeft := hShows.word
      obtain ⟨m, hm⟩ : ∃ m, m = min n r₁.mNumBitsLeft := ⟨_, rfl⟩
      have hMPos : 0 < m := by omega
      have hMN : m ≤ n := by omega
      have hML : m ≤ r₁.mNumBitsLeft := by omega
      have hMWord : m ≤ 32 := hMN.trans hWord
      have hTop := ofBits_topBits_lt r₁.mReservoir hMWord
      have hRoom := room hResult hTop hMN hWord
      have hFits : result.toNat * 2 ^ m < 2 ^ 32 := by
        have hPow : 2 ^ (32 - (n - m)) ≤ 2 ^ 32 := Nat.pow_le_pow_right (by decide) (by omega)
        omega
      have hValue := toNat_turn masked r₁.mReservoir hMPos hMWord hFits
      rw [← hValue] at hRoom
      rcases ih (Shows.turn masked hShows hML) (by omega) (by rw [List.length_drop]; omega)
          (by omega) hRoom with
        ⟨v, r', hLoop, hV, hRest⟩
      refine ⟨v, r', ?_, ?_, ?_⟩
      · rw [getLoop, if_neg hZero, hFill]
        simp only [Option.bind_some]
        rw [← hm]
        exact hLoop
      · rw [hV, hValue, ← hShows.take_eq hML, Nat.add_mul, Nat.mul_assoc, ← Nat.pow_add,
          Nat.add_sub_of_le hMN, Nat.add_assoc]
        congr 1
        have hSplit : n = m + (n - m) := by omega
        conv_rhs =>
          rw [hSplit, List.take_add, ATSParser.ofBits_append]
        rw [List.length_take, List.length_drop, Nat.min_eq_left (by omega : n - m ≤ _)]
      · rw [List.drop_drop, Nat.add_sub_of_le hMN] at hRest
        exact hRest

theorem getBits_shows (masked : Bool) (hFills : Fills rest fill) (h : r.Shows rest bytes bits)
    {n : Nat} (hWord : n ≤ 32) (hBits : n ≤ bits.length) :
    ∃ v r', getBits masked fill n r = some (v, r') ∧ v.toNat = ofBits (bits.take n) ∧
      r'.Shows rest bytes (bits.drop n) := by
  have hResult : (0 : Word).toNat < 2 ^ (32 - n) := Nat.two_pow_pos (32 - n)
  rcases getLoop_shows masked hFills h (Nat.le_add_right n 2) hBits hWord hResult with
    ⟨v, r', hLoop, hV, hRest⟩
  refine ⟨v, r', ?_, ?_, hRest⟩
  · rw [getBits, if_neg (Nat.not_lt.mpr hWord)]
    exact hLoop
  · rw [hV]
    simp

theorem skipLoop_shows (masked : Bool) (hFills : Fills rest fill) {turns n : Nat}
    (h : r.Shows rest bytes bits) (hTurns : n < turns) (hBits : n ≤ bits.length) :
    ∃ r', skipLoop masked fill turns n r = some r' ∧ r'.Shows rest bytes (bits.drop n) := by
  induction turns generalizing n r bits with
  | zero => omega
  | succ turns ih =>
    rw [skipLoop]
    split
    next hMany =>
      rcases getBits_shows masked hFills h (Nat.le_refl 32) (by omega) with ⟨v, r₁, hGet, -, hShows⟩
      have hFewer : n - 32 ≤ (bits.drop 32).length := by
        rw [List.length_drop]
        omega
      rcases ih hShows (by omega) hFewer with ⟨r', hLoop, hRest⟩
      refine ⟨r', ?_, ?_⟩
      · rw [hGet]
        exact hLoop
      · rw [List.drop_drop, Nat.add_sub_of_le (Nat.le_of_lt hMany)] at hRest
        exact hRest
    next hFew =>
      split
      next hPos =>
        rcases getBits_shows masked hFills h (Nat.not_lt.mp hFew) hBits with
          ⟨v, r₁, hGet, -, hShows⟩
        refine ⟨r₁, ?_, hShows⟩
        rw [hGet]
        rfl
      next hZero =>
        have hNone : n = 0 := by omega
        subst hNone
        exact ⟨r, rfl, h⟩

theorem skipBits_shows (masked : Bool) (hFills : Fills rest fill) (h : r.Shows rest bytes bits)
    {n : Nat} (hBits : n ≤ bits.length) :
    ∃ r', skipBits masked fill n r = some r' ∧ r'.Shows rest bytes (bits.drop n) :=
  skipLoop_shows masked hFills h (Nat.lt_succ_self n) hBits

end ABitReader

--
-- Filling
--

namespace ABitReader

variable {r : ABitReader} {bytes : List Byte}

/- The bytes from the pointer on. -/
theorem drop_mData (hBytes : r.bytes = bytes) (hMore : r.mSize ≠ 0) :
    r.mData + 1 ≤ bytes.length ∧ bytes.drop r.mData = r.byte :: bytes.drop (r.mData + 1) := by
  subst hBytes
  unfold mSize at hMore
  have hLt : r.mData < r.bytes.length := by omega
  refine ⟨hLt, ?_⟩
  rw [List.drop_eq_getElem_cons hLt, byte, List.getD_eq_getElem _ _ hLt]

theorem fillLoop_shows {turns i : Nat} (hTurns : turns + i = 4) (hBytes : r.bytes = bytes)
    (hInside : r.mData ≤ bytes.length) :
    let filled := fillLoop turns i r
    filled.1.bytes = bytes ∧ filled.1.mData ≤ bytes.length ∧ i ≤ filled.2 ∧ filled.2 ≤ 4 ∧
      (r.mSize ≠ 0 → turns ≠ 0 → i < filled.2) ∧
      lowBits filled.1.mReservoir (8 * filled.2) ++ bitsOf (bytes.drop filled.1.mData) =
        lowBits r.mReservoir (8 * i) ++ bitsOf (bytes.drop r.mData) := by
  induction turns generalizing i r with
  | zero =>
    have hFour : i ≤ 4 := by omega
    exact ⟨hBytes, hInside, Nat.le_refl i, hFour, fun _ hNone => absurd rfl hNone, rfl⟩
  | succ turns ih =>
    rw [fillLoop]
    by_cases hMore : r.mSize ≠ 0
    · rcases drop_mData hBytes hMore with ⟨hNext, hDrop⟩
      have hNow : turns + (i + 1) = 4 := by omega
      rw [if_pos hMore]
      rcases ih (r := { r with
          mReservoir := (r.mReservoir <<< 8) ||| r.byte.setWidth 32
          mData := r.mData + 1 }) hNow hBytes hNext with
        ⟨hSame, hIn, hLe, hFour, -, hView⟩
      refine ⟨hSame, hIn, by omega, hFour, fun _ _ => by omega, ?_⟩
      rw [hView, hDrop, ← List.singleton_append, ATSParser.bitsOf_append, ← List.append_assoc]
      congr 1
      exact lowBits_push r.mReservoir r.byte (by omega : 8 * i + 8 ≤ 32)
    · have hFour : i ≤ 4 := by omega
      rw [if_neg hMore]
      exact ⟨hBytes, hInside, Nat.le_refl i, hFour, fun hSize _ => absurd hSize hMore, rfl⟩

/- The bits of the bytes themselves. -/
def plain (_ : Int) (bytes : List Byte) : List Bool :=
  bitsOf bytes

theorem fillReservoir_fills (masked : Bool) : Fills plain (fillReservoir masked) := by
  intro r bytes bits h hNone hSome
  have hView := h.view
  rw [hNone, topBits_nil, List.nil_append] at hView
  have hSize : r.mSize ≠ 0 := by
    intro hZero
    unfold mSize at hZero
    rw [h.bytes_eq] at hZero
    rw [List.drop_of_length_le (by omega)] at hView
    exact hSome hView.symm
  have hStart : ({ r with mReservoir := 0 } : ABitReader).bytes =
      bytes := h.bytes_eq
  rcases fillLoop_shows (Nat.add_zero 4) hStart h.inside with
    ⟨hBytes, hInside, -, hFour, hFirst, hLow⟩
  have hPos := hFirst hSize (by decide)
  unfold fillReservoir
  rw [if_neg hSize]
  refine ⟨_, rfl, ⟨hBytes, ?_, hInside, ?_⟩, ?_⟩
  · simp only [align]
    omega
  · simp only [align]
    rw [shl_of_lt masked _ (by omega), topBits_align _ (by omega)]
    exact hLow.trans hView
  · simp only [align]
    omega

end ABitReader

--
-- Pushing Back
--

/- A cursor over bits: those pushed back come before the ones that were never taken. -/
structure Cursor where
  pushed : List Bool
  taken : Nat
deriving DecidableEq

namespace Cursor

def start : Cursor := ⟨[], 0⟩

def unread (c : Cursor) (bits : List Bool) : List Bool :=
  c.pushed ++ bits.drop c.taken

/- The bits read and not pushed back. -/
def read (c : Cursor) : Nat := c.taken - c.pushed.length

def advance (c : Cursor) (n : Nat) : Cursor where
  pushed := c.pushed.drop n
  taken := c.taken + (n - c.pushed.length)

def put (c : Cursor) (x : Word) (n : Nat) : Cursor :=
  { c with pushed := lowBits x n ++ c.pushed }

/- Pushed back are bits that were read. -/
structure Inside (c : Cursor) (bits : List Bool) : Prop where
  pushed : c.pushed.length ≤ c.taken
  taken : c.taken ≤ bits.length

variable {c : Cursor} {bits : List Bool}

theorem unread_advance (n : Nat) : (c.advance n).unread bits = (c.unread bits).drop n := by
  unfold advance unread
  rw [List.drop_append, List.drop_drop]

theorem unread_put (x : Word) (n : Nat) :
    (c.put x n).unread bits = lowBits x n ++ c.unread bits := by
  rw [put, unread, unread, List.append_assoc]

theorem Inside.unread_length (h : c.Inside bits) :
    (c.unread bits).length + c.read = bits.length := by
  have hPushed := h.pushed
  have hTaken := h.taken
  unfold unread read
  rw [List.length_append, List.length_drop]
  omega

theorem Inside.advance (h : c.Inside bits) {n : Nat} (hLe : n ≤ (c.unread bits).length) :
    (c.advance n).Inside bits := by
  have hPushed := h.pushed
  have hTaken := h.taken
  unfold unread at hLe
  rw [List.length_append, List.length_drop] at hLe
  constructor
  · simp only [Cursor.advance, List.length_drop]
    omega
  · simp only [Cursor.advance]
    omega

theorem Inside.put (h : c.Inside bits) (x : Word) {n : Nat} (hLe : n ≤ c.read) :
    (c.put x n).Inside bits := by
  unfold read at hLe
  have hPushed := h.pushed
  constructor
  · simp only [Cursor.put, List.length_append, lowBits_length]
    omega
  · exact h.taken

end Cursor

namespace ABitReader

variable {r : ABitReader} {bytes : List Byte} {c : Cursor}

/- The reader is at the cursor. -/
structure Reads (r : ABitReader) (bytes : List Byte) (c : Cursor) : Prop where
  inside : c.Inside (bitsOf bytes)
  stream : r.Shows plain bytes (c.unread (bitsOf bytes))

/- The pointer is as far as the bits read and held. -/
theorem Reads.mData_eq (h : r.Reads bytes c) : 8 * r.mData = c.read + r.mNumBitsLeft := by
  have hLength := h.inside.unread_length
  have hIn := h.stream.inside
  rw [← h.stream.view, plain, List.length_append, topBits_length, ATSParser.bitsOf_length,
    ATSParser.bitsOf_length, List.length_drop] at hLength
  omega

/- `numBitsLeft` is the number of unread bits. -/
theorem Reads.numBitsLeft_eq (h : r.Reads bytes c) :
    r.numBitsLeft = (c.unread (bitsOf bytes)).length := by
  unfold numBitsLeft mSize
  rw [← h.stream.view, plain, List.length_append,
    topBits_length, ATSParser.bitsOf_length, List.length_drop, h.stream.bytes_eq]
  omega

/- `data` points to the byte of the next bit. -/
theorem Reads.data_eq (h : r.Reads bytes c) (hAligned : 8 ∣ c.read) : r.data = c.read / 8 := by
  have hData := h.mData_eq
  unfold data
  omega

/- The bytes that `putBits` gives back. -/
def givenBack (r : ABitReader) (n : Nat) : Nat :=
  (r.mNumBitsLeft + n - 32 + 7) / 8

/- The bits that are to be held. -/
def held (r : ABitReader) (x : Word) (n : Nat) : List Bool :=
  lowBits x n ++ topBits r.mReservoir r.mNumBitsLeft

/-
  `putBits` does no harm: at most 32 bits are pushed; the last bits, for which there is no room, are
  those of the bytes that are given back; and where a shift by 32 is none, the old reservoir does
  not show through the new one.
-/
def Keeps (masked : Bool) (r : ABitReader) (x : Word) (n : Nat) : Prop :=
  let k := r.givenBack n
  let kept := r.mNumBitsLeft + n - 8 * k
  n ≤ 32 ∧ (r.held x n).drop kept = bitsOf ((r.bytes.drop (r.mData - k)).take k) ∧
    (masked = true → n = 32 → topBits (r.mReservoir ||| x) kept = topBits x kept)

instance (masked : Bool) (r : ABitReader) (x : Word) (n : Nat) : Decidable (Keeps masked r x n) :=
  inferInstanceAs
    (Decidable
      (n ≤ 32 ∧
        (r.held x n).drop (r.mNumBitsLeft + n - 8 * r.givenBack n) =
          bitsOf ((r.bytes.drop (r.mData - r.givenBack n)).take (r.givenBack n)) ∧
        (masked = true → n = 32 →
          topBits (r.mReservoir ||| x) (r.mNumBitsLeft + n - 8 * r.givenBack n) =
            topBits x (r.mNumBitsLeft + n - 8 * r.givenBack n))))

/- The loop of `putBits` gives back these bytes. -/
theorem putLoop_eq {turns n : Nat} {r : ABitReader} (hWord : r.mNumBitsLeft ≤ 32) (hLe : n ≤ 32)
    (hTurns : r.mNumBitsLeft + n < turns) (hData : r.givenBack n ≤ r.mData) :
    ∃ left,
      putLoop n turns r =
          some
            { r with
              mNumBitsLeft := left
              mData := r.mData - r.givenBack n } ∧
        (left + n) % 2 ^ 64 = r.mNumBitsLeft + n - 8 * r.givenBack n := by
  induction turns generalizing r with
  | zero => omega
  | succ turns ih =>
    unfold givenBack at *
    rw [putLoop, Nat.mod_eq_of_lt (by omega)]
    by_cases hMore : 32 < r.mNumBitsLeft + n
    · rw [if_pos hMore, if_neg (by omega : ¬r.mData = 0)]
      by_cases hByte : 8 ≤ r.mNumBitsLeft
      · rw [sizeSub_of_le hByte]
        rcases ih (r := { r with
            mNumBitsLeft := r.mNumBitsLeft - 8
            mData := r.mData - 1 })
            (by simp only; omega) (by simp only; omega) (by simp only; omega) with
          ⟨left, hLoop, hLeft⟩
        refine ⟨left, ?_, ?_⟩
        · rw [hLoop]
          simp only [Option.some.injEq, mk.injEq, true_and, and_true]
          omega
        · rw [hLeft]
          simp only
          omega
      · -- fewer bits than a byte: the count wraps once
        rw [sizeSub, if_neg hByte]
        have hOne : (r.mNumBitsLeft + n - 32 + 7) / 8 = 1 := by
          omega
        cases turns with
        | zero => omega
        | succ turns =>
          rw [putLoop]
          simp only
          rw [if_neg (by omega), hOne]
          exact ⟨r.mNumBitsLeft + 2 ^ 64 - 8, rfl, by omega⟩
    · rw [if_neg hMore]
      have hNone : (r.mNumBitsLeft + n - 32 + 7) / 8 = 0 := by
        omega
      rw [hNone]
      refine ⟨r.mNumBitsLeft, rfl, ?_⟩
      rw [Nat.mod_eq_of_lt (by omega), Nat.mul_zero, Nat.sub_zero]

/- The first bits of what is to be held. -/
theorem take_held (r : ABitReader) (x : Word) {n kept : Nat} (hKept : kept ≤ n + r.mNumBitsLeft) :
    (r.held x n).take kept = (lowBits x n).take kept ++ topBits r.mReservoir (kept - n) := by
  unfold held
  rw [List.take_append, lowBits_length, topBits_take _ (by omega)]

/- The first bits of the reservoir after `putBits`. -/
theorem topBits_putBits (masked : Bool) (v x : Word) {n kept : Nat} (hPos : 0 < n) (hLe : n ≤ 32)
    (hKept : kept ≤ 32) :
    topBits (shr masked v n ||| shl masked x (32 - n)) kept =
        (lowBits x n).take kept ++ topBits v (kept - n) ↔
      (masked = true → n = 32 → topBits (v ||| x) kept = topBits x kept) := by
  have hPlain :
      topBits ((v >>> n) ||| (x <<< (32 - n))) kept =
        (lowBits x n).take kept ++ topBits v (kept - n) := by
    have hPut := topBits_put v x (by omega : n + (32 - n) ≤ 32)
    rw [Nat.add_sub_of_le hLe] at hPut
    rw [← topBits_take _ hKept, hPut, List.take_append, lowBits_length, topBits_take _ (by omega)]
  by_cases hWidth : n = 32
  · subst hWidth
    cases masked with
    | false => exact iff_of_true hPlain (fun hMasked => nomatch hMasked)
    | true =>
      have hAll : lowBits x 32 = topBits x 32 := rfl
      have hNone : kept - 32 = 0 := Nat.sub_eq_zero_of_le hKept
      have hShift : shr true v 32 ||| shl true x (32 - 32) = v ||| x := by
        simp [shr, shl]
      rw [hShift, hAll, topBits_take _ hKept, hNone, topBits_nil, List.append_nil]
      exact ⟨fun hSame _ _ => hSame, fun h => h rfl rfl⟩
  · rw [shr_of_lt masked v (by omega), shl_of_lt masked x (by omega)]
    exact iff_of_true hPlain (fun _ hSame => absurd hSame hWidth)

/- The bytes given back are read again. -/
theorem bitsOf_givenBack (bytes : List Byte) {k m : Nat} (hLe : k ≤ m) :
    bitsOf (bytes.drop (m - k)) =
      bitsOf ((bytes.drop (m - k)).take k) ++ bitsOf (bytes.drop m) := by
  conv_lhs =>
    rw [← List.take_append_drop k (bytes.drop (m - k)), ATSParser.bitsOf_append, List.drop_drop,
      Nat.sub_add_cancel hLe]

/- Bits pushed back come next exactly when `Keeps` holds. -/
theorem putBits_reads_iff (masked : Bool) (x : Word) {n : Nat} (h : r.Reads bytes c) (hPos : 0 < n)
    (hRead : n ≤ c.read) :
    (∃ r', putBits masked x n r = some r' ∧ r'.Reads bytes (c.put x n)) ↔ Keeps masked r x n := by
  have hWord := h.stream.word
  have hData := h.mData_eq
  unfold Keeps
  by_cases hLe : n ≤ 32
  · have hBack : r.givenBack n ≤ r.mData := by
      unfold givenBack
      omega
    have hKept :
        r.mNumBitsLeft + n - 8 * r.givenBack n ≤ 32 ∧ 8 * r.givenBack n ≤ r.mNumBitsLeft + n := by
      unfold givenBack
      omega
    rcases putLoop_eq hWord hLe (Nat.lt_succ_self _) hBack with ⟨left, hLoop, hLeft⟩
    rw [putBits, if_neg (Nat.not_lt.mpr hLe), hLoop]
    simp only [Option.map_some, Option.some.injEq, exists_eq_left', hLeft]
    obtain ⟨kept, hKeptEq⟩ : ∃ kept, kept = r.mNumBitsLeft + n - 8 * r.givenBack n := ⟨_, rfl⟩
    rw [← hKeptEq]
    rw [← hKeptEq] at hKept
    have hLow := topBits_putBits masked r.mReservoir x hPos hLe hKept.1
    have hFirst := take_held r x (by omega : kept ≤ n + r.mNumBitsLeft)
    have hView : (c.put x n).unread (bitsOf bytes) = r.held x n ++ bitsOf (bytes.drop r.mData) := by
      rw [Cursor.unread_put, ← h.stream.view, held, List.append_assoc, plain]
    have hAgain := bitsOf_givenBack bytes hBack
    rw [h.stream.bytes_eq]
    constructor
    · intro hReads
      have hSame := hReads.stream.view
      simp only [plain] at hSame
      rw [hAgain, hView, ← List.append_assoc] at hSame
      have hHeld := List.append_cancel_right hSame
      conv at hHeld =>
        rhs
        rw [← List.take_append_drop kept (r.held x n)]
      have hHeldLength : (r.held x n).length = n + r.mNumBitsLeft := by
        simp [held]
      rcases List.append_inj hHeld (by
        rw [topBits_length, List.length_take, hHeldLength]
        omega) with ⟨hTop, hRest⟩
      exact ⟨hLe, hRest.symm, hLow.mp (hTop.trans hFirst)⟩
    · rintro ⟨-, hLast, hOver⟩
      have hIn := h.stream.inside
      refine ⟨h.inside.put x hRead, rfl, hKept.1, ?_, ?_⟩
      · simp only
        omega
      · simp only [plain]
        rw [hLow.mpr hOver, ← hFirst, hAgain, ← hLast, hView,
          ← List.append_assoc, List.take_append_drop]
  · rw [putBits, if_pos (Nat.not_le.mp hLe)]
    simp [hLe]

end ABitReader

--
-- Runs
--

inductive ReadOp where
| getBits (n : Nat)
| skipBits (n : Nat)
| putBits (x : Word) (n : Nat)
deriving DecidableEq

/-
  What the calls mean for a cursor; `none` is a call outside of the contract. `getBits` adds a
  number to the results.
-/
def Cursor.step (bits : List Bool) (s : Cursor × List Nat) : ReadOp → Option (Cursor × List Nat)
| .getBits n =>
  if 0 < n ∧ n ≤ 32 ∧ n ≤ (s.1.unread bits).length then
    some (s.1.advance n, s.2 ++ [ofBits ((s.1.unread bits).take n)])
  else none
| .skipBits n =>
  if n ≤ (s.1.unread bits).length then some (s.1.advance n, s.2)
  else none
| .putBits x n =>
  if 0 < n ∧ n ≤ s.1.read then some (s.1.put x n, s.2)
  else none

namespace ABitReader

variable {bytes : List Byte} {c : Cursor}

def step (masked : Bool) (s : ABitReader × List Nat) : ReadOp → Option (ABitReader × List Nat)
| .getBits n =>
  (getBits masked (fillReservoir masked) n s.1).map (fun got => (got.2, s.2 ++ [got.1.toNat]))
| .skipBits n => (skipBits masked (fillReservoir masked) n s.1).map (fun r => (r, s.2))
| .putBits x n => (putBits masked x n s.1).map (fun r => (r, s.2))

def KeepsOp (masked : Bool) (s : ABitReader × List Nat) : ReadOp → Prop
| .getBits _ => True
| .skipBits _ => True
| .putBits x n => Keeps masked s.1 x n

instance (masked : Bool) (s : ABitReader × List Nat) :
    (op : ReadOp) → Decidable (KeepsOp masked s op)
| .getBits _ => instDecidableTrue
| .skipBits _ => instDecidableTrue
| .putBits x n => inferInstanceAs (Decidable (Keeps masked s.1 x n))

theorem create_reads (bytes : List Byte) : (create bytes).Reads bytes Cursor.start := by
  constructor
  · exact ⟨Nat.le_refl 0, Nat.zero_le _⟩
  · exact ⟨rfl, Nat.zero_le 32, Nat.zero_le _, rfl⟩

/- A step of the reader is the step of the cursor. -/
theorem step_reads (masked : Bool) {r : ABitReader} (h : r.Reads bytes c) {outs : List Nat}
    {op : ReadOp} {c' : Cursor} {outs' : List Nat}
    (hStep : Cursor.step (bitsOf bytes) (c, outs) op = some (c', outs'))
    (hKeeps : KeepsOp masked (r, outs) op) :
    ∃ r', step masked (r, outs) op = some (r', outs') ∧ r'.Reads bytes c' := by
  have hFills := fillReservoir_fills masked
  cases op with
  | getBits n =>
    simp only [Cursor.step, Option.ite_none_right_eq_some,
      Option.some.injEq, Prod.mk.injEq] at hStep
    rcases hStep with ⟨⟨-, hWord, hLe⟩, rfl, rfl⟩
    rcases getBits_shows masked hFills h.stream hWord hLe with ⟨v, r', hGet, hV, hShows⟩
    refine ⟨r', ?_, h.inside.advance hLe, ?_⟩
    · simp only [step, hGet, Option.map_some, hV]
    · rw [Cursor.unread_advance]
      exact hShows
  | skipBits n =>
    simp only [Cursor.step, Option.ite_none_right_eq_some,
      Option.some.injEq, Prod.mk.injEq] at hStep
    rcases hStep with ⟨hLe, rfl, rfl⟩
    rcases skipBits_shows masked hFills h.stream hLe with ⟨r', hSkip, hShows⟩
    refine ⟨r', ?_, h.inside.advance hLe, ?_⟩
    · simp only [step, hSkip, Option.map_some]
    · rw [Cursor.unread_advance]
      exact hShows
  | putBits x n =>
    simp only [Cursor.step, Option.ite_none_right_eq_some,
      Option.some.injEq, Prod.mk.injEq] at hStep
    rcases hStep with ⟨⟨hPos, hRead⟩, rfl, rfl⟩
    rcases (putBits_reads_iff masked x h hPos hRead).mpr hKeeps with ⟨r', hPut, hReads⟩
    refine ⟨r', ?_, hReads⟩
    simp only [step, hPut, Option.map_some]

theorem exec_reads (masked : Bool) {r : ABitReader} (h : r.Reads bytes c) {outs : List Nat}
    {ops : List ReadOp} {c' : Cursor} {outs' : List Nat}
    (hRun : Run.exec (Cursor.step (bitsOf bytes)) (c, outs) ops = some (c', outs'))
    (hKeeps :
      ∀ earlier op s, earlier ++ [op] <+: ops →
        Run.exec (step masked) (r, outs) earlier = some s → KeepsOp masked s op) :
    ∃ r', Run.exec (step masked) (r, outs) ops = some (r', outs') ∧ r'.Reads bytes c' := by
  induction ops generalizing r c outs with
  | nil =>
    cases hRun
    exact ⟨r, rfl, h⟩
  | cons op ops ih =>
    rcases Run.exec_cons_eq_some.mp hRun with ⟨⟨c₁, outs₁⟩, hFirst, hRest⟩
    rcases Run.forall_steps_cons.mp hKeeps with ⟨hNow, hLater⟩
    rcases step_reads masked h hFirst hNow with ⟨r₁, hStep, hReads⟩
    rcases ih hReads hRest (hLater _ hStep) with ⟨r', hExec, hLast⟩
    exact ⟨r', Run.exec_cons_eq_some.mpr ⟨_, hStep, hExec⟩, hLast⟩

/-
  In a run whose `putBits` all do no harm, the results are those of a cursor over the bits,
  `numBitsLeft` is the number of unread bits, and on a byte boundary with nothing pushed back `data`
  points to the unread bytes.
-/
theorem reads_run (masked : Bool) (bytes : List Byte) (ops : List ReadOp) (c : Cursor)
    (outs : List Nat)
    (hRun : Run.exec (Cursor.step (bitsOf bytes)) (Cursor.start, []) ops = some (c, outs))
    (hKeeps :
      ∀ earlier op s, earlier ++ [op] <+: ops →
        Run.exec (step masked) (create bytes, []) earlier = some s → KeepsOp masked s op) :
    ∃ r,
      Run.exec (step masked) (create bytes, []) ops = some (r, outs) ∧
        r.numBitsLeft = (c.unread (bitsOf bytes)).length ∧
        (8 ∣ c.read → c.pushed = [] →
          r.data = c.read / 8 ∧ c.unread (bitsOf bytes) = bitsOf (bytes.drop r.data)) := by
  rcases exec_reads masked (create_reads bytes) hRun hKeeps with ⟨r, hExec, hReads⟩
  refine ⟨r, hExec, hReads.numBitsLeft_eq, ?_⟩
  intro hAligned hNone
  have hData := hReads.data_eq hAligned
  refine ⟨hData, ?_⟩
  rcases hAligned with ⟨k, hk⟩
  have hTaken : c.taken = 8 * k := by
    rw [← hk, Cursor.read, hNone, List.length_nil, Nat.sub_zero]
  rw [hData, Cursor.unread, hNone, List.nil_append, hTaken, hk,
    Nat.mul_div_cancel_left k (by decide), ATSParser.bitsOf_drop]

/- Bits that were read are pushed back and read again. -/
theorem reads_run_sync :
    ∃ r,
      Run.exec (step true) (create [0x12, 0x34, 0x56, 0x78, 0x9a], [])
          [.getBits 11, .putBits 0x91 11, .getBits 16] =
        some (r, [0x91, 0x1234]) ∧
      r.numBitsLeft = 24 := by
  rcases reads_run true [0x12, 0x34, 0x56, 0x78, 0x9a]
      [.getBits 11, .putBits 0x91 11, .getBits 16] ⟨[], 16⟩ [0x91, 0x1234] (by decide +kernel)
      (Run.forall_steps_of_checks (by decide +kernel)) with
    ⟨r, hExec, hLeft, -⟩
  refine ⟨r, hExec, hLeft.trans ?_⟩
  decide +kernel

/-
  28 bits are pushed back when five are left: the count wraps, and a byte is given back that is not
  theirs.
-/
theorem reads_run_wraps :
    let bytes : List Byte :=
      [0x12, 0x34, 0x56, 0x78, 0x9a, 0xbc, 0xde, 0xf0]
    let ops : List ReadOp := [.getBits 32, .getBits 27, .putBits 0 28, .getBits 28]
    (∀ masked,
        (Run.exec (step masked) (create bytes, []) ops).map Prod.snd =
          some [0x12345678, 0x4d5e6f7, 7]) ∧
      (Run.exec (Cursor.step (bitsOf bytes)) (Cursor.start, []) ops).map Prod.snd =
        some [0x12345678, 0x4d5e6f7, 0] := by
  decide +kernel

end ABitReader

end Foundation

end FrameworksAv
