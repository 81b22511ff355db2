import FrameworksAv.Base.Bytes
import Mathlib.Tactic.Ring

/-
  `ABitReader` (media/libstagefright/foundation/ABitReader.cpp).

  The reservoir is the list of its bits that are left, the most significant first. `none` stands for
  a failed `CHECK`.

  Main declarations:
    * `ABitReader`, `ABitReader.getBits`
    * `bitsOf`, `field`
    * `ABitReader.At`, `ABitReader.At.getBits`
-/

--
-- Reader
--

namespace FrameworksAv

namespace ATSParser

/- The bits of bytes, the most significant first. -/
def bitsOf (bytes : List Byte) : List Bool :=
  bytes.flatMap (fun b => (List.range 8).map b.getMsbD)

/- The number that bits stand for. -/
def ofBits (bits : List Bool) : Nat :=
  bits.foldl (fun v b => 2 * v + b.toNat) 0

/- `mNext` is where `mData` points, inside the whole buffer. -/
structure ABitReader where
  mData : List Byte
  mNext : Nat
  mReservoir : List Bool

namespace ABitReader

def create (data : List Byte) : ABitReader := ⟨data, 0, []⟩

variable (r : ABitReader)

def mSize : Nat := r.mData.length - r.mNext

def numBitsLeft : Nat := r.mSize * 8 + r.mReservoir.length

/- The bytes from the one on that the next bit is in. -/
def data : List Byte :=
  r.mData.drop (r.mNext - (r.mReservoir.length + 7) / 8)

def fillReservoir : Option ABitReader :=
  if r.mSize = 0 then none
  else
    let i := min r.mSize 4
    some
      { r with
        mNext := r.mNext + i
        mReservoir := bitsOf ((r.mData.drop r.mNext).take i) }

/- At most one turn for each bit. -/
def getLoop : Nat → Nat → Nat → ABitReader → Option (Nat × ABitReader)
| 0, _, result, r => some (result, r)
| turns + 1, n, result, r =>
  if n = 0 then some (result, r)
  else
    (if r.mReservoir = [] then r.fillReservoir else some r).bind (fun r =>
        let m := min n r.mReservoir.length
        getLoop turns (n - m) (result * 2 ^ m + ofBits (r.mReservoir.take m))
          { r with mReservoir := r.mReservoir.drop m })

def getBits (n : Nat) : Option (Nat × ABitReader) :=
  if 32 < n then none else getLoop n n 0 r

def skipLoop : Nat → Nat → ABitReader → Option ABitReader
| 0, _, r => some r
| turns + 1, n, r =>
  if 32 < n then (r.getBits 32).bind (fun p => skipLoop turns (n - 32) p.2)
  else if 0 < n then (r.getBits n).map Prod.snd
  else some r

def skipBits (n : Nat) : Option ABitReader :=
  skipLoop (n + 1) n r

end ABitReader

--
-- Bits
--

@[simp] theorem bitsOf_nil : bitsOf [] = [] := rfl

theorem bitsOf_append (xs ys : List Byte) : bitsOf (xs ++ ys) = bitsOf xs ++ bitsOf ys :=
  List.flatMap_append

@[simp] theorem bitsOf_length (bytes : List Byte) : (bitsOf bytes).length = 8 * bytes.length := by
  induction bytes with
  | nil => rfl
  | cons b bytes ih =>
    rw [← List.singleton_append, bitsOf_append, List.length_append, ih, List.length_append]
    have hOne : (bitsOf [b]).length = 8 := by simp [bitsOf]
    rw [hOne, List.length_singleton]
    omega

theorem bitsOf_drop (bytes : List Byte) (k : Nat) :
    (bitsOf bytes).drop (8 * k) = bitsOf (bytes.drop k) := by
  by_cases hk : k ≤ bytes.length
  · have hLength : (bitsOf (bytes.take k)).length = 8 * k := by
      rw [bitsOf_length, List.length_take, Nat.min_eq_left hk]
    conv_lhs =>
      rw [← List.take_append_drop k bytes, bitsOf_append]
    rw [← hLength]
    exact List.drop_left
  · rw [List.drop_of_length_le (by omega : bytes.length ≤ k), List.drop_of_length_le]
    · rfl
    · rw [bitsOf_length]
      omega

theorem foldl_ofBits (bits : List Bool) (v : Nat) :
    bits.foldl (fun v b => 2 * v + b.toNat) v = v * 2 ^ bits.length + ofBits bits := by
  unfold ofBits
  induction bits generalizing v with
  | nil => simp
  | cons b bits ih =>
    rw [List.foldl_cons, List.foldl_cons, ih (2 * v + b.toNat),
      ih (2 * 0 + b.toNat), List.length_cons]
    ring

theorem ofBits_append (xs ys : List Bool) :
    ofBits (xs ++ ys) = ofBits xs * 2 ^ ys.length + ofBits ys := by
  conv_lhs => rw [ofBits, List.foldl_append]
  exact foldl_ofBits ys _

theorem ofBits_byte (b : Byte) : ofBits (bitsOf [b]) = b.toNat := by
  have hAll : ∀ i : Fin 256, ofBits (bitsOf [BitVec.ofNat 8 i]) = (BitVec.ofNat 8 i).toNat := by
    decide +kernel
  have hOne := hAll ⟨b.toNat, b.isLt⟩
  rw [BitVec.ofNat_toNat, BitVec.setWidth_eq] at hOne
  exact hOne

/- The number in `n` bits from a place on. -/
def field (bytes : List Byte) (pos n : Nat) : Nat :=
  ofBits (((bitsOf bytes).drop pos).take n)

/- A field in two parts. -/
theorem field_add {bytes : List Byte} {pos m n : Nat} (hFit : pos + (m + n) ≤ 8 * bytes.length) :
    field bytes pos (m + n) = field bytes pos m * 2 ^ n + field bytes (pos + m) n := by
  unfold field
  rw [List.take_add, ofBits_append, List.drop_drop,
    List.length_take, List.length_drop, bitsOf_length, Nat.min_eq_left (by omega)]

/- An aligned field of eight bits is a byte. -/
theorem field_byte {bytes : List Byte} {k : Nat} {b : Byte} (hByte : bytes[k]? = some b) :
    field bytes (8 * k) 8 = b.toNat := by
  have hk : k < bytes.length := by
    by_contra hNot
    rw [List.getElem?_eq_none (by omega)] at hByte
    cases hByte
  have hDrop : bytes.drop k = b :: bytes.drop (k + 1) := by
    rw [List.drop_eq_getElem_cons hk]
    rw [List.getElem?_eq_getElem hk, Option.some.injEq] at hByte
    rw [hByte]
  unfold field
  rw [bitsOf_drop, hDrop, ← List.singleton_append, bitsOf_append, List.take_append_of_le_length,
    List.take_of_length_le, ofBits_byte]
  · simp
  · simp

--
-- Positions
--

namespace ABitReader

/- The reader has read these many bits of these bytes. -/
structure At (r : ABitReader) (bytes : List Byte) (pos : Nat) : Prop where
  data : r.mData = bytes
  next : r.mNext ≤ bytes.length
  pos_le : pos ≤ 8 * r.mNext
  reservoir : r.mReservoir = (bitsOf (bytes.take r.mNext)).drop pos

theorem create_at (bytes : List Byte) : (create bytes).At bytes 0 :=
  ⟨rfl, Nat.zero_le _, Nat.le_refl _, rfl⟩

variable {r : ABitReader} {bytes : List Byte} {pos : Nat}

theorem At.reservoir_length (h : r.At bytes pos) : r.mReservoir.length = 8 * r.mNext - pos := by
  have hNext := h.next
  rw [h.reservoir, List.length_drop, bitsOf_length, List.length_take, Nat.min_eq_left hNext]

theorem At.numBitsLeft (h : r.At bytes pos) : r.numBitsLeft + pos = 8 * bytes.length := by
  have hNext := h.next
  have hPos := h.pos_le
  unfold ABitReader.numBitsLeft mSize
  rw [h.reservoir_length, h.data]
  omega

theorem At.pos_le_length (h : r.At bytes pos) : pos ≤ 8 * bytes.length := by
  have hLeft := h.numBitsLeft
  omega

/- The data starts at the byte of the next bit. -/
theorem At.data_eq (h : r.At bytes pos) : r.data = bytes.drop (pos / 8) := by
  have hPos := h.pos_le
  unfold ABitReader.data
  rw [h.reservoir_length, h.data]
  congr 1
  omega

/- The front of the reservoir is the next field. -/
theorem At.ofBits_take (h : r.At bytes pos) {m : Nat} (hm : m ≤ r.mReservoir.length) :
    ofBits (r.mReservoir.take m) = field bytes pos m := by
  have hLength := h.reservoir_length
  unfold field
  rw [h.reservoir]
  congr 1
  conv_rhs =>
    rw [← List.take_append_drop r.mNext bytes, bitsOf_append]
  have hNext := h.next
  rw [List.drop_append, List.take_append_of_le_length]
  rw [List.length_drop, bitsOf_length, List.length_take, Nat.min_eq_left hNext]
  omega

/- Bits taken from the reservoir. -/
theorem At.drop (h : r.At bytes pos) {m : Nat} (hm : m ≤ r.mReservoir.length) :
    At { r with mReservoir := r.mReservoir.drop m } bytes
      (pos + m) := by
  have hLength := h.reservoir_length
  have hPos := h.pos_le
  refine ⟨h.data, h.next, ?_, ?_⟩
  · simp only
    omega
  · simp only
    rw [h.reservoir, List.drop_drop]

/- An empty reservoir is filled while there are bytes. -/
theorem At.fill (h : r.At bytes pos) (hEmpty : r.mReservoir = []) (hMore : pos < 8 * bytes.length) :
    ∃ r', r.fillReservoir = some r' ∧ r'.At bytes pos ∧ r'.mReservoir ≠ [] := by
  have hLength := h.reservoir_length
  have hPos := h.pos_le
  have hNext := h.next
  rw [hEmpty, List.length_nil] at hLength
  unfold fillReservoir mSize
  rw [h.data, if_neg (by omega)]
  refine ⟨_, rfl, ⟨rfl, ?_, ?_, ?_⟩, ?_⟩
  · simp only
    omega
  · simp only
    omega
  · simp only
    have hEnd : pos = 8 * r.mNext := by omega
    rw [hEnd, bitsOf_drop, List.drop_take, Nat.add_sub_cancel_left]
  · simp only
    apply List.ne_nil_of_length_pos
    rw [bitsOf_length, List.length_take, List.length_drop]
    omega

/- Without bytes left the reservoir cannot be filled. -/
theorem At.fill_none (h : r.At bytes pos) (hEnd : 8 * bytes.length ≤ pos) :
    r.fillReservoir = none := by
  have hPos := h.pos_le
  have hNext := h.next
  unfold fillReservoir mSize
  rw [h.data, if_pos (by omega)]

theorem At.getLoop (turns n result : Nat) (h : r.At bytes pos) (hTurns : n ≤ turns) :
    (pos + n ≤ 8 * bytes.length →
        ∃ r',
          getLoop turns n result r = some (result * 2 ^ n + field bytes pos n, r') ∧
            r'.At bytes (pos + n)) ∧
      (8 * bytes.length < pos + n → getLoop turns n result r = none) := by
  induction turns generalizing n result r pos with
  | zero =>
    have hZero : n = 0 := by omega
    have hInside := h.pos_le_length
    constructor
    · intro _
      refine ⟨r, ?_, ?_⟩
      · rw [hZero]
        simp [ABitReader.getLoop, field, ofBits]
      · rw [hZero]
        exact h
    · intro hOut
      omega
  | succ turns ih =>
    by_cases hZero : n = 0
    · have hInside := h.pos_le_length
      constructor
      · intro _
        refine ⟨r, ?_, ?_⟩
        · rw [hZero]
          simp [ABitReader.getLoop, field, ofBits]
        · rw [hZero]
          exact h
      · intro hOut
        omega
    unfold ABitReader.getLoop
    rw [if_neg hZero]
    by_cases hEnd : r.mReservoir = [] ∧ 8 * bytes.length ≤ pos
    · rw [if_pos hEnd.1, h.fill_none hEnd.2]
      constructor
      · intro hIn
        omega
      · intro _
        rfl
    -- the reservoir has bits for this turn
    have hFilled :
        ∃ r',
          (if r.mReservoir = [] then r.fillReservoir else some r) = some r' ∧
            r'.At bytes pos ∧ r'.mReservoir ≠ [] := by
      by_cases hEmpty : r.mReservoir = []
      · rw [if_pos hEmpty]
        apply h.fill hEmpty
        by_contra hNot
        exact hEnd ⟨hEmpty, Nat.le_of_not_lt hNot⟩
      · rw [if_neg hEmpty]
        exact ⟨r, rfl, h, hEmpty⟩
    rcases hFilled with ⟨r', hEq, hAt, hSome⟩
    have hPos := List.length_pos_iff.mpr hSome
    rw [hEq, Option.bind_some]
    have hm : min n r'.mReservoir.length ≤ r'.mReservoir.length := Nat.min_le_right _ _
    have hLess : n - min n r'.mReservoir.length ≤ turns := by
      omega
    rcases ih _
        (result * 2 ^ min n r'.mReservoir.length +
          ofBits (r'.mReservoir.take (min n r'.mReservoir.length)))
        (hAt.drop hm) hLess with
      ⟨hGo, hStop⟩
    have hSum : pos + min n r'.mReservoir.length + (n - min n r'.mReservoir.length) = pos + n := by
      omega
    rw [hSum] at hGo hStop
    constructor
    · intro hIn
      rcases hGo hIn with ⟨r'', hLoop, hAt'⟩
      refine ⟨r'', ?_, hAt'⟩
      simp only
      rw [hLoop, hAt.ofBits_take hm]
      have hParts : n = min n r'.mReservoir.length + (n - min n r'.mReservoir.length) := by
        omega
      generalize min n r'.mReservoir.length = m at *
      generalize n - m = k at *
      rw [hParts, field_add (by omega), Nat.pow_add]
      congr 2
      ring
    · exact hStop

/- A field inside the bytes is read, and no other one. -/
theorem At.getBits (h : r.At bytes pos) {n : Nat} (hn : n ≤ 32) (hIn : pos + n ≤ 8 * bytes.length) :
    ∃ r', r.getBits n = some (field bytes pos n, r') ∧ r'.At bytes (pos + n) := by
  rcases (h.getLoop n n 0 (Nat.le_refl n)).1 hIn with ⟨r', hLoop, hAt⟩
  refine ⟨r', ?_, hAt⟩
  unfold ABitReader.getBits
  rw [if_neg (by omega), hLoop, Nat.zero_mul, Nat.zero_add]

theorem At.getBits_none (h : r.At bytes pos) {n : Nat} (hOut : 8 * bytes.length < pos + n) :
    r.getBits n = none := by
  unfold ABitReader.getBits
  split
  · rfl
  · exact (h.getLoop n n 0 (Nat.le_refl n)).2 hOut

theorem At.skipLoop {turns n : Nat} (h : r.At bytes pos) (hTurns : n < turns) :
    (pos + n ≤ 8 * bytes.length → ∃ r', skipLoop turns n r = some r' ∧ r'.At bytes (pos + n)) ∧
      (8 * bytes.length < pos + n → skipLoop turns n r = none) := by
  induction turns generalizing n r pos with
  | zero => omega
  | succ turns ih =>
    unfold ABitReader.skipLoop
    by_cases hMany : 32 < n
    · rw [if_pos hMany]
      by_cases hFirst : pos + 32 ≤ 8 * bytes.length
      · rcases h.getBits (Nat.le_refl 32) hFirst with ⟨r', hGet, hAt⟩
        rw [hGet, Option.bind_some]
        have hRest := ih (n := n - 32) hAt (by omega)
        have hSum : pos + 32 + (n - 32) = pos + n := by omega
        rw [hSum] at hRest
        exact hRest
      · rw [h.getBits_none (by omega), Option.bind_none]
        constructor
        · intro hIn
          omega
        · intro _
          rfl
    · rw [if_neg hMany]
      by_cases hSome : 0 < n
      · rw [if_pos hSome]
        constructor
        · intro hIn
          rcases h.getBits (by omega) hIn with ⟨r', hGet, hAt⟩
          rw [hGet, Option.map_some]
          exact ⟨r', rfl, hAt⟩
        · intro hOut
          rw [h.getBits_none hOut, Option.map_none]
      · rw [if_neg hSome]
        have hZero : n = 0 := by omega
        have hInside := h.pos_le_length
        rw [hZero]
        constructor
        · intro _
          exact ⟨r, rfl, h⟩
        · intro hOut
          omega

theorem At.skipBits (h : r.At bytes pos) {n : Nat} (hIn : pos + n ≤ 8 * bytes.length) :
    ∃ r', r.skipBits n = some r' ∧ r'.At bytes (pos + n) :=
  (h.skipLoop (Nat.lt_succ_self n)).1 hIn

theorem At.skipBits_none (h : r.At bytes pos) {n : Nat} (hOut : 8 * bytes.length < pos + n) :
    r.skipBits n = none :=
  (h.skipLoop (Nat.lt_succ_self n)).2 hOut

end ABitReader

end ATSParser

end FrameworksAv
