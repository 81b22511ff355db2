import FrameworksAv.Base.Bytes

/-
  Cyclic redundancy checks of 32 bits, the most significant bit first, and their computation with a
  table.

  Main declarations:
    * `Crc.shifts`, `Crc.push`, `Crc.crc`
    * `Crc.shifts_xor`
    * `Crc.push_eq_table`
-/

--
-- Registers
--

namespace FrameworksAv

namespace Crc

variable (poly : BitVec 32)

/- One bit is shifted out of the register. -/
def shift (r : BitVec 32) : BitVec 32 :=
  if r.msb then r <<< 1 ^^^ poly else r <<< 1

def shifts : Nat → BitVec 32 → BitVec 32
| 0, r => r
| n + 1, r => shifts n (shift poly r)

/- The bits of a byte are shifted in. -/
def push (r : BitVec 32) (b : Byte) : BitVec 32 :=
  shifts poly 8 (r ^^^ b.setWidth 32 <<< 24)

def crc (init : BitVec 32) (bytes : List Byte) : BitVec 32 :=
  bytes.foldl (push poly) init

end Crc

--
-- Tables
--

namespace Crc

variable {poly : BitVec 32}

theorem shift_xor (x y : BitVec 32) : shift poly (x ^^^ y) = shift poly x ^^^ shift poly y := by
  unfold shift
  rw [BitVec.msb_xor, BitVec.shiftLeft_xor_distrib]
  cases x.msb with
  | false =>
    cases y.msb with
    | false => rfl
    | true => exact BitVec.xor_assoc _ _ _
  | true =>
    cases y.msb with
    | false =>
      show x <<< 1 ^^^ y <<< 1 ^^^ poly = x <<< 1 ^^^ poly ^^^ y <<< 1
      rw [BitVec.xor_assoc, BitVec.xor_assoc, BitVec.xor_comm poly]
    | true =>
      show x <<< 1 ^^^ y <<< 1 = x <<< 1 ^^^ poly ^^^ (y <<< 1 ^^^ poly)
      rw [BitVec.xor_comm (y <<< 1) poly, BitVec.xor_assoc,
        ← BitVec.xor_assoc poly poly, BitVec.xor_self, BitVec.zero_xor]

/- The registers of a sum are the sums of the registers. -/
theorem shifts_xor (n : Nat) (x y : BitVec 32) :
    shifts poly n (x ^^^ y) = shifts poly n x ^^^ shifts poly n y := by
  induction n generalizing x y with
  | zero => rfl
  | succ n ih =>
    unfold shifts
    rw [shift_xor, ih]

/- Zeros are shifted out without the polynomial. -/
theorem shifts_of_zeros (n : Nat) {x : BitVec 32} (hZeros : ∀ i, i < n → x.getMsbD i = false) :
    shifts poly n x = x <<< n := by
  induction n generalizing x with
  | zero => simp [shifts]
  | succ n ih =>
    have hFirst : x.msb = false := hZeros 0 (Nat.succ_pos n)
    have hShift : shift poly x = x <<< 1 := by
      unfold shift
      rw [hFirst]
      rfl
    unfold shifts
    rw [hShift, ih, ← BitVec.shiftLeft_add, Nat.add_comm]
    intro i hi
    rw [BitVec.getMsbD_shiftLeft, hZeros (i + 1) (by omega)]

/- The first byte of the register apart from the others. -/
theorem split_register (r : BitVec 32) (b : Byte) :
    r ^^^ b.setWidth 32 <<< 24 =
      ((r >>> 24).setWidth 8 ^^^ b).setWidth 32 <<< 24 ^^^ (r <<< 8) >>> 8 := by
  apply BitVec.eq_of_getLsbD_eq
  intro i hi
  by_cases hLow : i < 24
  · simp [hLow, hi, show 8 + i < 32 by omega]
  · have hTop : 24 + (i - 24) = i := by omega
    simp [hLow, hi, hTop, show ¬ 8 + i < 32 by omega,
      show i - 24 < 8 by omega]

/- A byte is shifted in by one look at a table. -/
theorem push_eq_table (table : Byte → BitVec 32)
    (hTable : ∀ i, table i = shifts poly 8 (i.setWidth 32 <<< 24)) (r : BitVec 32) (b : Byte) :
    push poly r b = table ((r >>> 24).setWidth 8 ^^^ b) ^^^ r <<< 8 := by
  have hLow : ∀ i, i < 8 → ((r <<< 8) >>> 8).getMsbD i = false := by
    intro i hi
    simp [BitVec.getMsbD_ushiftRight, hi]
  have hBack : (r <<< 8) >>> 8 <<< 8 = r <<< 8 := by
    apply BitVec.eq_of_getLsbD_eq
    intro i hi
    by_cases hByte : i < 8
    · simp [hByte]
    · have hSum : 8 + (i - 8) = i := by omega
      simp [hByte, hi, hSum]
  unfold push
  rw [split_register, shifts_xor, shifts_of_zeros 8 hLow, hBack, ← hTable]

end Crc

end FrameworksAv
