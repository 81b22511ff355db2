import Mathlib.Algebra.Order.Ring.Int
import Mathlib.Data.List.Chain

/-
  `Program::recoverPTS`, which extends the 33 bits of a timestamp by those of the one before
  (media/libstagefright/mpeg2ts/ATSParser.cpp).

  The true time is a reference, and the 33 bits are read in the epoch in which it is nearest to the
  time before.

  Main declarations:
    * `recoverPTS`, `recoverAll`
    * `epoch_eq`
    * `recoverPTS_eq`
    * `recoverAll_exact`
-/

--
-- Recovery
--

namespace FrameworksAv

namespace ATSParser

/- A number of 64 bits, as the `int64_t` it is cast to. -/
def extendPTS (mLastRecoveredPTS : Int) (PTS_33bit : Nat) : Int :=
  (((BitVec.ofInt 64 mLastRecoveredPTS - BitVec.ofNat 64 PTS_33bit + 0x100000000#64) &&&
      0xfffffffe00000000#64) |||
    BitVec.ofNat 64 PTS_33bit).toInt

/- The new `mLastRecoveredPTS`, which is returned as well. -/
def recoverPTS (mLastRecoveredPTS : Int) (PTS_33bit : Nat) : Int :=
  if mLastRecoveredPTS < 0 then (BitVec.ofNat 64 PTS_33bit).toInt
  else
    let recovered := extendPTS mLastRecoveredPTS PTS_33bit
    -- recovered PTS could be slightly below 0
    if recovered < 0 then 0 else recovered

/- What the calls return in turn. -/
def recoverAll (mLastRecoveredPTS : Int) : List Nat → List Int
| [] => []
| PTS :: rest =>
  recoverPTS mLastRecoveredPTS PTS :: recoverAll (recoverPTS mLastRecoveredPTS PTS) rest

@[simp] theorem recoverAll_cons (last : Int) (p : Nat) (ps : List Nat) :
    recoverAll last (p :: ps) = recoverPTS last p :: recoverAll (recoverPTS last p) ps :=
  rfl

/- The bits of a true time that a packet carries. -/
def PTS_33bit (time : Int) : Nat :=
  (time % 2 ^ 33).toNat

--
-- Epochs
--

/-
  A time is known from its remainder and a reference that is no more than `bias` behind it and less
  than the rest of an epoch in front of it.
-/
theorem epoch_eq (reference time : Int) {bias epoch : Int} (hBehind : 0 ≤ reference - time + bias)
    (hFront : reference - time + bias < epoch) :
    reference - time % epoch + bias - (reference - time % epoch + bias) % epoch + time % epoch =
      time := by
  have hSplit :
      reference - time % epoch + bias = reference - time + bias + epoch * (time / epoch) := by
    have hDiv := Int.mul_ediv_add_emod time epoch
    omega
  have hRest : (reference - time % epoch + bias) % epoch = reference - time + bias := by
    rw [hSplit, Int.add_mul_emod_self_left]
    exact Int.emod_eq_of_lt hBehind hFront
  rw [hRest]
  omega

/- Clearing the low bits and setting them again. -/
theorem clear_or {n p : Nat} (hn : n < 2 ^ 64) (hp : p < 2 ^ 33) :
    n &&& 0xfffffffe00000000 ||| p = n - n % 2 ^ 33 + p := by
  have hClear : n &&& 0xfffffffe00000000 = (n / 2 ^ 33) <<< 33 := by
    refine Nat.eq_of_testBit_eq fun i => ?_
    have hMask : (0xfffffffe00000000 : Nat) = (2 ^ 31 - 1) <<< 33 := by
      decide
    rw [hMask, Nat.testBit_and, Nat.testBit_shiftLeft,
      Nat.testBit_shiftLeft, Nat.testBit_two_pow_sub_one, Nat.testBit_div_two_pow]
    by_cases hLow : 33 ≤ i
    · rw [Nat.sub_add_cancel hLow]
      by_cases hHigh : i - 33 < 31
      · simp [hLow, hHigh]
      · have hOut : n.testBit i = false := by
          refine Nat.testBit_lt_two_pow (Nat.lt_of_lt_of_le hn ?_)
          exact Nat.pow_le_pow_right (by omega) (by omega)
        simp [hOut]
    · simp [hLow]
  rw [hClear, ← Nat.shiftLeft_add_eq_or_of_lt hp, Nat.shiftLeft_eq]
  have hDiv := Nat.div_add_mod n (2 ^ 33)
  omega

/- The 33 bits are read in the epoch of the reference. -/
theorem extendPTS_eq {reference time : Int} (hBehind : -2 ^ 32 ≤ reference - time)
    (hFront : reference - time < 2 ^ 32) (hLow : -2 ^ 63 ≤ time) (hHigh : time < 2 ^ 63) :
    extendPTS reference (PTS_33bit time) = time := by
  have hPositive : 0 ≤ time % 2 ^ 33 := Int.emod_nonneg time (by decide)
  have hCast : ((PTS_33bit time : Nat) : Int) = time % 2 ^ 33 := Int.toNat_of_nonneg hPositive
  have hSmall : PTS_33bit time < 2 ^ 33 := by
    have hLt := Int.emod_lt_of_pos time (show (0 : Int) < 2 ^ 33 by decide)
    omega
  have hEpoch :=
    epoch_eq reference time (show 0 ≤ reference - time + 2 ^ 32 by omega)
      (show reference - time + 2 ^ 32 < 2 ^ 33 by omega)
  have hWord :
      BitVec.ofInt 64 reference - BitVec.ofNat 64 (PTS_33bit time) + 0x100000000#64 =
        BitVec.ofInt 64 (reference - time % 2 ^ 33 + 2 ^ 32) := by
    rw [BitVec.ofInt_add, Int.sub_eq_add_neg, BitVec.ofInt_add, BitVec.ofInt_neg, ← hCast,
      BitVec.ofInt_natCast, BitVec.sub_eq_add_neg]
    exact rfl
  have hNumber :
      (((BitVec.ofInt 64 reference - BitVec.ofNat 64 (PTS_33bit time) + 0x100000000#64) &&&
            0xfffffffe00000000#64) |||
          BitVec.ofNat 64 (PTS_33bit time)) =
        BitVec.ofInt 64 time := by
    refine BitVec.eq_of_toNat_eq ?_
    rw [hWord, BitVec.toNat_or, BitVec.toNat_and, BitVec.toNat_ofNat, BitVec.toNat_ofNat,
      Nat.mod_eq_of_lt (show PTS_33bit time < 2 ^ 64 by omega)]
    rw [show 0xfffffffe00000000 % 2 ^ 64 = 0xfffffffe00000000 by decide]
    rw [clear_or (BitVec.isLt _) hSmall, BitVec.toNat_ofInt, BitVec.toNat_ofInt]
    omega
  unfold extendPTS
  rw [hNumber]
  exact BitVec.toInt_ofInt_eq_self (by decide) hLow hHigh

--
-- Sequences
--

/-
  A time that is near the one before, by its distance or, if that one dips below zero, by its own
  distance from zero.
-/
def Near (t u : Int) : Prop :=
  if 0 ≤ t then -2 ^ 32 < u - t ∧ u - t ≤ 2 ^ 32
  else -2 ^ 32 < u ∧ u < 2 ^ 32

instance (t u : Int) : Decidable (Near t u) :=
  inferInstanceAs (Decidable (if 0 ≤ t then _ else _))

/- The reference that the code keeps is near as well. -/
theorem Near.reference {t u : Int} (hNear : Near t u) :
    -2 ^ 32 < u - max t 0 ∧ u - max t 0 ≤ 2 ^ 32 := by
  unfold Near at hNear
  split at hNear
  · omega
  · omega

/- The one step of the recovery. -/
theorem recoverPTS_eq {t u : Int} (hNear : Near t u) (hRange : u < 2 ^ 63) :
    recoverPTS (max t 0) (PTS_33bit u) = max u 0 := by
  rcases hNear.reference with ⟨hBelow, hAbove⟩
  have hExtend : extendPTS (max t 0) (PTS_33bit u) = u :=
    extendPTS_eq (by omega) (by omega) (by omega) hRange
  have hReference : ¬max t 0 < 0 := by omega
  unfold recoverPTS
  rw [if_neg hReference, hExtend]
  simp only
  split
  · omega
  · omega

/- The first time is in the first epoch. -/
theorem recoverPTS_first {last t : Int} (hFresh : last < 0) (hStart : 0 ≤ t) (hEpoch : t < 2 ^ 33) :
    recoverPTS last (PTS_33bit t) = max t 0 := by
  have hBits : ((PTS_33bit t : Nat) : Int) = t := by
    unfold PTS_33bit
    rw [Int.emod_eq_of_lt hStart hEpoch]
    exact Int.toNat_of_nonneg hStart
  unfold recoverPTS
  rw [if_pos hFresh, BitVec.toInt_eq_toNat_of_lt]
  · rw [BitVec.toNat_ofNat, Nat.mod_eq_of_lt (by omega)]
    omega
  · rw [BitVec.toNat_ofNat, Nat.mod_eq_of_lt (by omega)]
    omega

theorem recoverAll_near {t : Int} {ts : List Int} (hNear : (t :: ts).IsChain Near)
    (hRange : ∀ u ∈ ts, u < 2 ^ 63) :
    recoverAll (max t 0) (ts.map PTS_33bit) = ts.map fun u => max u 0 := by
  induction ts generalizing t with
  | nil => rfl
  | cons u us ih =>
    rcases List.isChain_cons_cons.mp hNear with ⟨hFirst, hRest⟩
    have hHead := recoverPTS_eq hFirst (hRange u List.mem_cons_self)
    have hTail := ih hRest fun v hv => hRange v (List.mem_cons_of_mem u hv)
    rw [List.map_cons, List.map_cons, recoverAll_cons, hHead, hTail]

theorem recoverAll_times {last t : Int} {ts : List Int} (hFresh : last < 0) (hStart : 0 ≤ t)
    (hEpoch : t < 2 ^ 33) (hNear : (t :: ts).IsChain Near) (hRange : ∀ u ∈ ts, u < 2 ^ 63) :
    recoverAll last ((t :: ts).map PTS_33bit) = (t :: ts).map fun u => max u 0 := by
  rw [List.map_cons, List.map_cons, recoverAll_cons, recoverPTS_first hFresh hStart hEpoch,
    recoverAll_near hNear hRange]

theorem recoverAll_append (last : Int) (ps qs : List Nat) :
    recoverAll last (ps ++ qs) =
      recoverAll last ps ++ recoverAll ((recoverAll last ps).getLastD last) qs := by
  induction ps generalizing last with
  | nil => rfl
  | cons p ps ih =>
    rw [List.cons_append, recoverAll_cons, recoverAll_cons,
      ih, List.getLastD_cons, List.cons_append]

/-
  The times of a program that has just started, over any number of epochs of 33 bits, up to the end
  of an `int64_t`: the first one is in the first epoch, and each other one is near the one in front
  of it.
-/
structure Timeline (t : Int) (ts : List Int) : Prop where
  start : 0 ≤ t
  epoch : t < 2 ^ 33
  near : (t :: ts).IsChain Near
  range : ∀ u ∈ ts, u < 2 ^ 63

/- Times are recovered, and a dip below zero is clamped. -/
theorem recoverAll_exact {t : Int} {ts : List Int} (hTimes : Timeline t ts) :
    recoverAll (-1) ((t :: ts).map PTS_33bit) = (t :: ts).map fun u => max u 0 :=
  recoverAll_times (by decide) hTimes.start hTimes.epoch hTimes.near hTimes.range

/- Two wraps, and a dip at the start. -/
theorem recoverAll_exact_wraps :
    recoverAll (-1) ([5, -3, 4294967295, 8589934590, 12884901886].map PTS_33bit) =
      [5, 0, 4294967295, 8589934590, 12884901886] :=
  recoverAll_exact
    { start := by decide
      epoch := by decide
      near := by decide
      range := by decide }

/- Times that are half an epoch apart. -/
def ramp (n : Nat) : List Int :=
  (List.range n).map fun (i : Nat) => (i : Int) * 2 ^ 32

theorem ramp_succ (n : Nat) : ramp (n + 1) = ramp n ++ [(n : Int) * 2 ^ 32] := by
  unfold ramp
  rw [List.range_succ, List.map_append]
  exact rfl

theorem ramp_eq (n : Nat) : ramp (n + 1) = 0 :: (List.range n).map fun i =>
        ((i + 1 : Nat) : Int) * 2 ^ 32 := by
  unfold ramp
  rw [List.range_succ_eq_map, List.map_cons, List.map_map]
  exact rfl

theorem ramp_near (n : Nat) : (ramp n).IsChain Near := by
  unfold ramp
  rw [List.isChain_map]
  refine List.isChain_iff_getElem.mpr fun i hi => ?_
  rw [List.getElem_range, List.getElem_range]
  unfold Near
  rw [if_pos (by omega)]
  omega

theorem mem_ramp_lt {n : Nat} {t : Int} (hMem : t ∈ ramp n) : t < n * 2 ^ 32 := by
  unfold ramp at hMem
  rcases List.mem_map.mp hMem with ⟨i, hi, hEq⟩
  have hLt := List.mem_range.mp hi
  omega

/- The ramp is recovered up to the end of an `int64_t`. -/
theorem recoverAll_ramp {n : Nat} (hn : n < 2 ^ 31) :
    recoverAll (-1) ((ramp (n + 1)).map PTS_33bit) = (ramp (n + 1)).map fun u => max u 0 := by
  have hNear := ramp_near (n + 1)
  have hRange : ∀ u ∈ ramp (n + 1), u < 2 ^ 63 := by
    intro u hu
    have hLt := mem_ramp_lt hu
    omega
  rw [ramp_eq] at hNear hRange ⊢
  exact recoverAll_times (by decide) (Int.le_refl 0) (by decide) hNear
    fun u hu => hRange u (List.mem_cons_of_mem _ hu)

theorem recoverAll_ramp_succ {n : Nat} (hn : n < 2 ^ 31) :
    recoverAll (-1) ((ramp (n + 1 + 1)).map PTS_33bit) =
      (ramp (n + 1)).map (fun u => max u 0) ++
        [recoverPTS (max ((n : Int) * 2 ^ 32) 0) (PTS_33bit (((n + 1 : Nat) : Int) * 2 ^ 32))] := by
  have hLast :
      ((ramp (n + 1)).map fun u => max u 0).getLastD (-1) = max ((n : Int) * 2 ^ 32) 0 := by
    rw [ramp_succ, List.map_append, List.map_cons, List.map_nil, List.getLastD_concat]
  rw [ramp_succ (n + 1), List.map_append, recoverAll_append, recoverAll_ramp hn, hLast]
  exact rfl

/- The first time behind the range is clamped to 0. -/
theorem recoverAll_ramp_end {n : Nat} (hn : n + 1 = 2 ^ 31) :
    recoverAll (-1) ((ramp (n + 1 + 1)).map PTS_33bit) ≠
      (ramp (n + 1 + 1)).map fun u => max u 0 := by
  have hBefore : (n : Int) * 2 ^ 32 = 0x7fffffff00000000 := by
    omega
  have hBehind : ((n + 1 : Nat) : Int) * 2 ^ 32 = 0x8000000000000000 := by
    omega
  rw [recoverAll_ramp_succ (by omega), ramp_succ (n + 1), List.map_append, hBefore, hBehind]
  intro hSame
  have hEnds := List.append_cancel_left hSame
  exact absurd hEnds (by decide)

/- Times that go on beyond the end of an `int64_t` in steps of half an epoch. -/
theorem recoverAll_beyond :
    (ramp (2 ^ 31 + 1)).IsChain Near ∧
      recoverAll (-1) ((ramp (2 ^ 31 + 1)).map PTS_33bit) ≠
        (ramp (2 ^ 31 + 1)).map fun u => max u 0 := by
  refine ⟨ramp_near _, ?_⟩
  have hEnd := recoverAll_ramp_end (show 2 ^ 31 - 1 + 1 = 2 ^ 31 by omega)
  have hNumber : 2 ^ 31 - 1 + 1 + 1 = 2 ^ 31 + 1 := by omega
  rw [hNumber] at hEnd
  exact hEnd

end ATSParser

end FrameworksAv
