import Mathlib.Algebra.Order.Ring.Int
import Mathlib.Data.Nat.ModEq
import Mathlib.Tactic.NthRewrite

/-
  Wrapping 32-bit counters that follow unbounded positions.

  A producer and a consumer each own a counter that is only ever advanced. The machine word is the
  position modulo `2 ^ 32`; the lemmas below recover distances, ring indices and bit fields of the
  position from the word, as long as the distances involved stay small.

  Main declarations:
    * `Word`
    * `Counter.index`
    * `Counter.index_ofNat`
    * `Counter.low_ofNat` and `Counter.high_ofNat`
-/

--
-- Words
--

namespace FrameworksAv

/- A 32-bit machine word. -/
abbrev Word := BitVec 32

namespace Counter

/- The low bits of a counter select a cell of the ring. -/
def index (counter : Word) (cap : Nat) : Nat :=
  counter.toNat &&& (cap - 1)

theorem toInt_ofNat {n : Nat} (hn : n < 2 ^ 31) : (BitVec.ofNat 32 n).toInt = n := by
  rw [BitVec.toInt_eq_toNat_cond, BitVec.toNat_ofNat]
  have hMod : n % 2 ^ 32 = n := Nat.mod_eq_of_lt (by omega)
  rw [hMod, if_pos (by omega)]

/- Subtracting counters subtracts their positions. -/
theorem ofNat_sub_ofNat {front rear : Nat} (hLe : front ≤ rear) :
    BitVec.ofNat 32 rear - BitVec.ofNat 32 front = BitVec.ofNat 32 (rear - front) := by
  apply BitVec.eq_of_toNat_eq
  simp only [BitVec.toNat_sub, BitVec.toNat_ofNat]
  omega

/- The wrapped distance is the distance of the positions. -/
theorem toInt_sub_ofNat {front rear : Nat} (hLe : front ≤ rear) (hSmall : rear - front < 2 ^ 31) :
    (BitVec.ofNat 32 rear - BitVec.ofNat 32 front).toInt = (rear - front : Nat) := by
  rw [ofNat_sub_ofNat hLe, toInt_ofNat hSmall]

/- A counter that is behind has a negative distance. -/
theorem toInt_sub_ofNat_neg {front rear : Nat} (hLt : rear < front)
    (hSmall : front - rear ≤ 2 ^ 31) :
    (BitVec.ofNat 32 rear - BitVec.ofNat 32 front).toInt = -((front - rear : Nat) : Int) := by
  rw [BitVec.toInt_eq_toNat_cond]
  simp only [BitVec.toNat_sub, BitVec.toNat_ofNat]
  rw [if_neg (by omega)]
  omega

theorem ofNat_add (m n : Nat) :
    BitVec.ofNat 32 (m + n) = BitVec.ofNat 32 m + BitVec.ofNat 32 n := by
  apply BitVec.eq_of_toNat_eq
  simp [BitVec.toNat_add]

/- Equal words name positions that agree up to wrap-around. -/
theorem ofNat_inj_of_lt {m n : Nat} (hLe : m ≤ n) (hSmall : n - m < 2 ^ 32)
    (hEq : BitVec.ofNat 32 m = BitVec.ofNat 32 n) : m = n := by
  have hNat := congrArg BitVec.toNat hEq
  simp only [BitVec.toNat_ofNat] at hNat
  omega

--
-- Bit Fields
--

/- Reducing modulo the word size keeps the low field. -/
private theorem mod_word_mod_pow (n : Nat) {k : Nat} (hk : k ≤ 32) :
    n % 2 ^ 32 % 2 ^ k = n % 2 ^ k :=
  Nat.mod_mod_of_dvd n (Nat.pow_dvd_pow 2 hk)

/- The ring index of a counter is its position in the ring. -/
theorem index_ofNat (n : Nat) {k : Nat} (hk : k ≤ 32) :
    index (BitVec.ofNat 32 n) (2 ^ k) = n % 2 ^ k := by
  rw [index, BitVec.toNat_ofNat, Nat.and_two_pow_sub_one_eq_mod, mod_word_mod_pow n hk]

/- Masking with `2 ^ k - 1` keeps the low field. -/
theorem low_ofNat (n : Nat) {k : Nat} (hk : k < 32) :
    BitVec.ofNat 32 n &&& BitVec.ofNat 32 (2 ^ k - 1) = BitVec.ofNat 32 (n % 2 ^ k) := by
  have hPow : 2 ^ k < 2 ^ 32 := Nat.pow_lt_pow_right (by omega) hk
  apply BitVec.eq_of_toNat_eq
  simp only [BitVec.toNat_and, BitVec.toNat_ofNat]
  rw [Nat.mod_eq_of_lt (show 2 ^ k - 1 < 2 ^ 32 by omega), Nat.and_two_pow_sub_one_eq_mod,
    mod_word_mod_pow n (Nat.le_of_lt hk)]
  have hLt : n % 2 ^ k < 2 ^ k := Nat.mod_lt n (Nat.two_pow_pos k)
  exact (Nat.mod_eq_of_lt (by omega)).symm

/- Masking with the complement clears the low field. -/
theorem high_ofNat (n : Nat) {k : Nat} (hk : k < 32) :
    BitVec.ofNat 32 n &&& ~~~BitVec.ofNat 32 (2 ^ k - 1) =
      BitVec.ofNat 32 (2 ^ k * (n / 2 ^ k)) := by
  have hSplit :
      (BitVec.ofNat 32 n &&& ~~~BitVec.ofNat 32 (2 ^ k - 1)) +
          (BitVec.ofNat 32 n &&& BitVec.ofNat 32 (2 ^ k - 1)) =
        BitVec.ofNat 32 n := by
    rw [BitVec.add_eq_or_of_and_eq_zero]
    · ext i hi
      simp only [BitVec.getElem_or, BitVec.getElem_and, BitVec.getElem_not]
      cases (BitVec.ofNat 32 n)[i] <;>
        cases (BitVec.ofNat 32 (2 ^ k - 1))[i] <;> rfl
    · ext i hi
      simp only [BitVec.getElem_and, BitVec.getElem_not, BitVec.getElem_zero]
      cases (BitVec.ofNat 32 n)[i] <;>
        cases (BitVec.ofNat 32 (2 ^ k - 1))[i] <;> rfl
  have hWhole :
      BitVec.ofNat 32 (2 ^ k * (n / 2 ^ k)) + BitVec.ofNat 32 (n % 2 ^ k) = BitVec.ofNat 32 n := by
    rw [← ofNat_add, Nat.div_add_mod]
  rw [low_ofNat n hk] at hSplit
  exact BitVec.add_left_inj _ |>.mp (hSplit.trans hWhole.symm)

/- Or-ing a low field into a cleared word adds it. -/
theorem or_ofNat (a : Nat) {b k : Nat} (hb : b < 2 ^ k) (hk : k < 32) :
    BitVec.ofNat 32 b ||| BitVec.ofNat 32 (2 ^ k * a) = BitVec.ofNat 32 (2 ^ k * a + b) := by
  have hLow :
      BitVec.ofNat 32 b = BitVec.ofNat 32 (2 ^ k * a + b) &&& BitVec.ofNat 32 (2 ^ k - 1) := by
    rw [low_ofNat _ hk, Nat.mul_add_mod, Nat.mod_eq_of_lt hb]
  have hHigh :
      BitVec.ofNat 32 (2 ^ k * a) =
        BitVec.ofNat 32 (2 ^ k * a + b) &&& ~~~BitVec.ofNat 32 (2 ^ k - 1) := by
    rw [high_ofNat _ hk, Nat.mul_add_div (Nat.two_pow_pos k), Nat.div_eq_of_lt hb, Nat.add_zero]
  rw [hHigh]
  nth_rewrite 1 [hLow]
  ext i hi
  simp only [BitVec.getElem_or, BitVec.getElem_and, BitVec.getElem_not]
  cases (BitVec.ofNat 32 (2 ^ k * a + b))[i] <;>
    cases (BitVec.ofNat 32 (2 ^ k - 1))[i] <;> rfl

end Counter

end FrameworksAv
