import Mathlib.Algebra.Order.Ring.Int
import Mathlib.Data.List.Basic

/-
  Byte-addressed memories and little-endian 32-bit words.

  Numbers in a fixed count of bytes, in either order, and places in a file where some bytes stand.

  Main declarations:
    * `Memory`, `Memory.load`, `Memory.store`
    * `le32`, `Memory.word`
    * `ofLittleEndian_littleEndian`
-/

--
-- Memories
--

namespace FrameworksAv

abbrev Byte := BitVec 8

abbrev Memory := Nat → Byte

namespace Memory

/- The bytes from an address on. -/
def load (mem : Memory) (start count : Nat) : List Byte :=
  (List.range count).map (fun k => mem (start + k))

/- Copy bytes to an address. -/
def store (mem : Memory) (start : Nat) (bytes : List Byte) : Memory :=
  fun i =>
    if start ≤ i then (bytes[i - start]?).getD (mem i)
    else mem i

@[simp] theorem load_length (mem : Memory) (start count : Nat) :
    (mem.load start count).length = count := by
  simp [load]

/- A region continues behind its first part. -/
theorem load_add (mem : Memory) (start m n : Nat) :
    mem.load start (m + n) = mem.load start m ++ mem.load (start + m) n := by
  simp [load, List.range_add, Nat.add_assoc]

/- A region inside another one. -/
theorem load_inside (mem : Memory) (start : Nat) {count skip m : Nat} (hInside : skip + m ≤ count) :
    mem.load (start + skip) m = ((mem.load start count).drop skip).take m := by
  have hSplit : count = skip + (m + (count - (skip + m))) := by
    omega
  rw [hSplit, load_add, load_add, List.drop_left' (load_length mem start skip),
    List.take_left' (load_length mem (start + skip) m)]

/- A store behind a region leaves the region unchanged. -/
theorem load_store_before (mem : Memory) {start count behind : Nat}
    (hBefore : start + count ≤ behind) (bytes : List Byte) :
    (mem.store behind bytes).load start count = mem.load start count := by
  apply List.map_congr_left
  intro k hk
  have hLt : k < count := List.mem_range.mp hk
  rw [store, if_neg (by omega)]

/- The first bytes of a copy are those of its source. -/
theorem load_store_taken (mem : Memory) (start : Nat) {bytes : List Byte} {count : Nat}
    (hCount : count ≤ bytes.length) :
    (mem.store start bytes).load start count = bytes.take count := by
  apply List.ext_getElem
  · simp [hCount]
  · intro k hk _
    have hLt : k < count := by
      simpa using hk
    have hGet : bytes[k]? = some bytes[k] := List.getElem?_eq_getElem (by omega)
    simp [load, store, hGet]

/- A store that goes on behind another one. -/
theorem store_append (mem : Memory) (start : Nat) (front rest : List Byte) :
    (mem.store start front).store (start + front.length) rest =
      mem.store start (front ++ rest) := by
  funext i
  unfold store
  by_cases hStart : start ≤ i
  · rw [if_pos hStart, if_pos hStart]
    by_cases hFront : start + front.length ≤ i
    · rw [if_pos hFront, List.getElem?_append_right (by omega),
        List.getElem?_eq_none (by omega : front.length ≤ i - start), Nat.sub_add_eq]
      rfl
    · rw [if_neg hFront, List.getElem?_append_left (by omega)]
  · rw [if_neg hStart, if_neg hStart, if_neg (by omega)]

theorem store_nil (mem : Memory) (start : Nat) : mem.store start [] = mem := by
  funext i
  unfold store
  simp

end Memory

--
-- Words
--

/- The bytes of a word, the lowest one first. -/
def le32 (word : BitVec 32) : List Byte :=
  (List.range 4).map (fun k => BitVec.ofNat 8 (word.toNat / 256 ^ k))

@[simp] theorem le32_length (word : BitVec 32) : (le32 word).length = 4 :=
  rfl

namespace Memory

/- The word at an address. -/
def word (mem : Memory) (start : Nat) : BitVec 32 :=
  BitVec.ofNat 32
    ((mem start).toNat + 256 * (mem (start + 1)).toNat + 256 ^ 2 * (mem (start + 2)).toNat +
      256 ^ 3 * (mem (start + 3)).toNat)

/- A word is read back from its bytes. -/
theorem word_of_load {mem : Memory} {start : Nat} {value : BitVec 32}
    (hLoad : mem.load start 4 = le32 value) : mem.word start = value := by
  have hByte : ∀ k, k < 4 → mem (start + k) = BitVec.ofNat 8 (value.toNat / 256 ^ k) := by
    intro k hk
    exact List.map_inj_left.mp hLoad k (List.mem_range.mpr hk)
  have h₀ : mem start = BitVec.ofNat 8 (value.toNat / 256 ^ 0) := hByte 0 (by decide)
  have hLt := value.isLt
  apply BitVec.eq_of_toNat_eq
  rw [word, h₀, hByte 1 (by decide), hByte 2 (by decide), hByte 3 (by decide)]
  simp only [BitVec.toNat_ofNat]
  omega

end Memory

--
-- Numbers
--

/- The bytes of a number, the lowest first. -/
def littleEndian : Nat → Nat → List Byte
| 0, _ => []
| size + 1, value => BitVec.ofNat 8 value :: littleEndian size (value / 256)

def ofLittleEndian : List Byte → Nat
| [] => 0
| byte :: bytes => byte.toNat + 256 * ofLittleEndian bytes

@[simp] theorem littleEndian_length (size value : Nat) :
    (littleEndian size value).length = size := by
  induction size generalizing value with
  | zero => rfl
  | succ size ih => rw [littleEndian, List.length_cons, ih]

/- A number that fits is read back from its bytes. -/
theorem ofLittleEndian_littleEndian {size value : Nat} (hFits : value < 2 ^ (8 * size)) :
    ofLittleEndian (littleEndian size value) = value := by
  induction size generalizing value with
  | zero =>
    have hZero : value = 0 := by
      rw [Nat.mul_zero, Nat.pow_zero] at hFits
      omega
    rw [hZero]
    rfl
  | succ size ih =>
    have hPow : 2 ^ (8 * (size + 1)) = 2 ^ (8 * size) * 256 := by
      rw [Nat.mul_succ, Nat.pow_add]
    have hRest : value / 256 < 2 ^ (8 * size) := by
      rw [hPow] at hFits
      exact Nat.div_lt_of_lt_mul (by omega)
    rw [littleEndian, ofLittleEndian, ih hRest, BitVec.toNat_ofNat]
    omega

theorem ofLittleEndian_lt (bytes : List Byte) : ofLittleEndian bytes < 256 ^ bytes.length := by
  induction bytes with
  | nil => exact Nat.one_pos
  | cons byte bytes ih =>
    have hByte := byte.isLt
    rw [ofLittleEndian, List.length_cons, Nat.pow_succ]
    omega

/- Bytes of the same count with the same number are the same. -/
theorem ofLittleEndian_inj {xs ys : List Byte} (hLength : xs.length = ys.length)
    (hSame : ofLittleEndian xs = ofLittleEndian ys) : xs = ys := by
  induction xs generalizing ys with
  | nil =>
    cases ys with
    | nil => rfl
    | cons y ys => cases hLength
  | cons x xs ih =>
    cases ys with
    | nil => cases hLength
    | cons y ys =>
      unfold ofLittleEndian at hSame
      have hx := x.isLt
      have hy := y.isLt
      have hHead : x = y := by
        apply BitVec.eq_of_toNat_eq
        omega
      have hTail : ofLittleEndian xs = ofLittleEndian ys := by
        omega
      rw [hHead, ih (Nat.succ.inj hLength) hTail]

end FrameworksAv
