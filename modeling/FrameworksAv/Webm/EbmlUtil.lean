import FrameworksAv.Base.Bytes
import Mathlib.Data.Nat.Bitwise
import Mathlib.Data.Nat.Log

/-
  Coded numbers of EBML (`EbmlUtil`): a number of up to eight bytes whose highest bit tells how many
  bytes there are.

  Numbers are `uint64_t`; none of the operations carries beyond 64 bits but those that say so.

  Main declarations:
    * `highestOneBit`, `numberOfTrailingZeros`
    * `encodeUnsigned`, `sizeOf`, `serializeCodedUnsigned`
    * `highestOneBit_eq`, `sizeOf_eq`
    * `encodeUnsigned_eq`
-/

--
-- Coding
--

namespace FrameworksAv

namespace Webm

def NTZ_TABLE : List Int :=
  [32, 0, 1, 12, 2, 6, -1, 13, 3, -1, 7, -1, -1, -1, -1, 14,
    10, 4, -1, -1, 8, -1, -1, 25, -1, -1, -1, -1, -1, 21, 27,
    15, 31, 11, 5, -1, -1, -1, -1, -1, 9, -1, -1, 24, -1, -1,
    20, 26, 30, -1, -1, -1, -1, 23, -1, 19, 29, -1, 22, 18, 28, 17, 16, -1]

/- `i` is the bits of an `int32_t`; the product wraps around. -/
def numberOfTrailingZeros32 (i : Nat) : Int :=
  let u := (i &&& (2 ^ 32 - i)) * 0x0450FBAF % 2 ^ 32
  NTZ_TABLE.getD (u >>> 26) 0

def orShift (n shift : Nat) : Nat := n ||| n >>> shift

def highestOneBit (n : Nat) : Nat :=
  let n := orShift n 1
  let n := orShift n 2
  let n := orShift n 4
  let n := orShift n 8
  let n := orShift n 16
  let n := orShift n 32
  n - n >>> 1

def powerOf2 (u : Nat) : Nat :=
  let powerOf2 := highestOneBit u
  if powerOf2 ≠ 0 then powerOf2 else 1

def numberOfTrailingZeros (u : Nat) : Int :=
  let low := u % 2 ^ 32
  if low ≠ 0 then numberOfTrailingZeros32 low
  else 32 + numberOfTrailingZeros32 (u >>> 32)

/- The shift of the `int` 1 has no meaning from 32 bits on; then there is no result. -/
def encodeUnsigned (u : Nat) : Option Nat :=
  let p := powerOf2 u
  let p := if (u + 1) % 2 ^ 64 = p * 2 % 2 ^ 64 then p * 2 % 2 ^ 64 else p
  let shiftWidth := (7 + numberOfTrailingZeros p) / 7 * 7
  if shiftWidth < 32 then some (1 <<< shiftWidth.toNat ||| u)
  else none

/- `encodeUnsigned` with a width, whose shift has 64 bits. -/
def encodeUnsignedWidth (u width : Nat) : Nat :=
  let shiftWidth := 7 * width
  1 <<< shiftWidth % 2 ^ 64 ||| u

def sizeOf (u : Nat) : Nat :=
  (numberOfTrailingZeros (powerOf2 u) / 8 + 1).toNat

/- The bytes of a code, the highest first. -/
def serializeCodedUnsigned (u : Nat) : List Byte :=
  (littleEndian (sizeOf u) u).reverse

--
-- Bits
--

/- Every bit is copied to the `s` bits from it downwards. -/
def Spread (n m s : Nat) : Prop :=
  ∀ i, m.testBit i = true ↔ ∃ j, i ≤ j ∧ j < i + s ∧ n.testBit j = true

theorem spread_one (n : Nat) : Spread n n 1 := by
  intro i
  constructor
  · intro hBit
    exact ⟨i, Nat.le_refl i, Nat.lt_succ_self i, hBit⟩
  · rintro ⟨j, hFrom, hTo, hBit⟩
    have hSame : j = i := by omega
    rw [← hSame]
    exact hBit

theorem Spread.double {n m s : Nat} (hSpread : Spread n m s) : Spread n (orShift m s) (s + s) := by
  intro i
  unfold orShift
  rw [Nat.testBit_or, Nat.testBit_shiftRight, Bool.or_eq_true, hSpread i, hSpread (s + i)]
  constructor
  · rintro (⟨j, hFrom, hTo, hBit⟩ | ⟨j, hFrom, hTo, hBit⟩)
    · exact ⟨j, hFrom, by omega, hBit⟩
    · exact ⟨j, by omega, by omega, hBit⟩
  · rintro ⟨j, hFrom, hTo, hBit⟩
    by_cases hNear : j < i + s
    · exact .inl ⟨j, hFrom, hNear, hBit⟩
    · exact .inr ⟨j, by omega, by omega, hBit⟩

/- All bits up to the highest one. -/
theorem spread_all {n m : Nat} (hPos : 0 < n) (hFits : n < 2 ^ 64) (hSpread : Spread n m 64) :
    m = 2 ^ (n.log2 + 1) - 1 := by
  have hTop : n.testBit n.log2 = true := Nat.testBit_log2 (by omega)
  have hLog : n.log2 < 64 := (Nat.log2_lt (by omega)).mpr hFits
  apply Nat.eq_of_testBit_eq
  intro i
  rw [Nat.testBit_two_pow_sub_one]
  by_cases hLow : i < n.log2 + 1
  · rw [decide_eq_true hLow, hSpread i]
    exact ⟨n.log2, by omega, by omega, hTop⟩
  · rw [decide_eq_false hLow, ← Bool.not_eq_true, hSpread i]
    rintro ⟨j, hFrom, -, hBit⟩
    have hHigh : n < 2 ^ j := (Nat.log2_lt (by omega)).mp (by omega)
    rw [Nat.testBit_lt_two_pow hHigh] at hBit
    cases hBit

theorem highestOneBit_eq {n : Nat} (hPos : 0 < n) (hFits : n < 2 ^ 64) :
    highestOneBit n = 2 ^ n.log2 := by
  have hSpread :
      Spread n (orShift (orShift (orShift (orShift (orShift (orShift n 1) 2) 4) 8) 16) 32) 64 :=
    (spread_one n).double.double.double.double.double.double
  unfold highestOneBit
  dsimp only
  rw [spread_all hPos hFits hSpread, Nat.shiftRight_one]
  have hPow : 2 ^ (n.log2 + 1) = 2 ^ n.log2 * 2 := Nat.pow_succ _ _
  have hPosPow : 0 < 2 ^ n.log2 := Nat.two_pow_pos _
  omega

theorem powerOf2_eq {n : Nat} (hFits : n < 2 ^ 64) : powerOf2 n = 2 ^ n.log2 := by
  unfold powerOf2
  dsimp only
  rcases Nat.eq_zero_or_pos n with rfl | hPos
  · rfl
  · rw [highestOneBit_eq hPos hFits]
    exact if_pos (Nat.ne_of_gt (Nat.two_pow_pos _))

/- The entries of the table that are needed. -/
theorem numberOfTrailingZeros_pow {k : Nat} (hk : k < 64) : numberOfTrailingZeros (2 ^ k) = k := by
  have hAll : ∀ k : Fin 64, numberOfTrailingZeros (2 ^ k.val) = k.val := by
    decide
  exact hAll ⟨k, hk⟩

theorem sizeOf_eq {n : Nat} (hFits : n < 2 ^ 64) : sizeOf n = n.log2 / 8 + 1 := by
  have hLog : n.log2 < 64 := by
    rcases Nat.eq_zero_or_pos n with rfl | hPos
    · decide
    · exact (Nat.log2_lt (by omega)).mpr hFits
  unfold sizeOf
  rw [powerOf2_eq hFits, numberOfTrailingZeros_pow hLog]
  omega

--
-- Widths
--

/- The bytes that a number takes; all ones are not used. -/
def width (u : Nat) : Nat := (u + 1).log2 / 7 + 1

theorem width_le_iff (u w : Nat) : width u ≤ w ↔ 0 < w ∧ u + 1 < 2 ^ (7 * w) := by
  unfold width
  constructor
  · intro hWidth
    refine ⟨by omega, ?_⟩
    exact (Nat.log2_lt (by omega)).mp (by omega)
  · rintro ⟨hPos, hLess⟩
    have hLog := (Nat.log2_lt (by omega)).mpr hLess
    omega

theorem pow_or {k u : Nat} (hLess : u < 2 ^ k) : 2 ^ k ||| u = 2 ^ k + u := by
  have hOr := Nat.two_pow_add_eq_or_of_lt hLess 1
  rw [Nat.mul_one] at hOr
  exact hOr.symm

/- The power that the code is made of. -/
theorem encodedPower {u : Nat} (hFits : u + 1 < 2 ^ 64) :
    (if (u + 1) % 2 ^ 64 = powerOf2 u * 2 % 2 ^ 64 then powerOf2 u * 2 % 2 ^ 64
    else powerOf2 u) = 2 ^ (u + 1).log2 := by
  rw [powerOf2_eq (by omega), Nat.mod_eq_of_lt hFits, ← Nat.pow_succ]
  have hNext : u + 1 ≠ 0 := Nat.succ_ne_zero u
  rcases Nat.eq_zero_or_pos u with rfl | hPos
  · decide
  have hLow : 2 ^ u.log2 ≤ u := Nat.log2_self_le (by omega)
  have hHigh : u < 2 ^ (u.log2 + 1) := Nat.lt_log2_self
  by_cases hTop : u.log2 + 1 < 64
  · have hBound : 2 ^ (u.log2 + 1) < 2 ^ 64 := Nat.pow_lt_pow_right (by omega) hTop
    rw [Nat.mod_eq_of_lt hBound]
    by_cases hAll : u + 1 = 2 ^ (u.log2 + 1)
    · rw [if_pos hAll, hAll, Nat.log2_two_pow]
    · rw [if_neg hAll]
      have hLog : (u + 1).log2 = u.log2 := by
        apply (Nat.log2_eq_iff hNext).mpr
        omega
      rw [hLog]
  · have hLog : u.log2 = 63 := by
      have hLess := (Nat.log2_lt (by omega)).mpr (show u < 2 ^ 64 by omega)
      omega
    rw [hLog] at hLow hHigh ⊢
    rw [if_neg (by omega)]
    have hSame : (u + 1).log2 = 63 := by
      apply (Nat.log2_eq_iff hNext).mpr
      omega
    rw [hSame]

theorem encodeUnsigned_eq {u : Nat} (hFits : u + 1 < 2 ^ 64) :
    encodeUnsigned u = if width u ≤ 4 then some (2 ^ (7 * width u) + u) else none := by
  have hLog : (u + 1).log2 < 64 := (Nat.log2_lt (by omega)).mpr hFits
  unfold encodeUnsigned
  dsimp only
  rw [encodedPower hFits, numberOfTrailingZeros_pow hLog]
  have hShift : (7 + ((u + 1).log2 : Int)) / 7 * 7 = ((7 * width u : Nat) : Int) := by
    unfold width
    omega
  rw [hShift]
  by_cases hSmall : width u ≤ 4
  · rw [if_pos hSmall, if_pos (by omega), Int.toNat_natCast]
    have hLess := ((width_le_iff u (width u)).mp (le_refl _)).2
    rw [Nat.shiftLeft_eq, Nat.one_mul, pow_or (by omega)]
  · rw [if_neg hSmall, if_neg (by omega)]

/- A code of some width, and how many bytes it has. -/
theorem sizeOf_code {code w : Nat} (hPos : 0 < w) (hw : w ≤ 8) (hLow : 2 ^ (7 * w) ≤ code)
    (hHigh : code < 2 ^ (7 * w + 1)) : sizeOf code = w := by
  have hPow : 2 ^ (7 * w + 1) ≤ 2 ^ 64 := Nat.pow_le_pow_right (by omega) (by omega)
  have hLog : code.log2 = 7 * w := by
    have hNonzero : code ≠ 0 := by
      have hPosPow := Nat.two_pow_pos (7 * w)
      omega
    exact (Nat.log2_eq_iff hNonzero).mpr ⟨hLow, hHigh⟩
  rw [sizeOf_eq (by omega), hLog]
  omega

theorem encodeUnsignedWidth_eq {u w : Nat} (hw : w ≤ 8) (hu : u < 2 ^ (7 * w)) :
    encodeUnsignedWidth u w = 2 ^ (7 * w) + u := by
  have hPow : 2 ^ (7 * w) < 2 ^ 64 := Nat.pow_lt_pow_right (by omega) (by omega)
  unfold encodeUnsignedWidth
  dsimp only
  rw [Nat.shiftLeft_eq, Nat.one_mul, Nat.mod_eq_of_lt hPow, pow_or hu]

end Webm

end FrameworksAv
