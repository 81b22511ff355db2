import Mathlib.Algebra.Order.Ring.Int
import Mathlib.Data.List.Nodup
import Mathlib.Logic.Function.Basic

/-
  Masks of bits.

  A loop that takes the highest set bit of a mask until the mask is zero goes through its set bits
  from the highest down. A loop that takes the highest set bit and with it all bits of the same key
  goes through groups of bits.

  Main declarations:
    * `Mask.bits`, `Mask.clear`
    * `Mask.bits_eq_cons`
    * `Mask.foldl_view`, `Mask.foldl_update`
    * `Mask.forGroups`, `Mask.forGroups_view`
-/

--
-- Bits
--

namespace FrameworksAv

namespace Mask

variable {w : Nat}

/- The set bits below a position, from the highest down. -/
def bitsBelow (e : BitVec w) : Nat → List Nat
| 0 => []
| n + 1 => if e.getLsbD n then n :: bitsBelow e n else bitsBelow e n

/- The set bits, from the highest down. -/
def bits (e : BitVec w) : List Nat :=
  bitsBelow e w

/- `e &= ~(1 << i)`. -/
def clear (e : BitVec w) (i : Nat) : BitVec w :=
  e &&& ~~~(1#w <<< i)

theorem mem_bitsBelow {e : BitVec w} {n i : Nat} :
    i ∈ bitsBelow e n ↔ i < n ∧ e.getLsbD i = true := by
  induction n with
  | zero => simp [bitsBelow]
  | succ n ih =>
    unfold bitsBelow
    by_cases hBit : e.getLsbD n = true
    · rw [if_pos hBit, List.mem_cons, ih]
      constructor
      · rintro (hEq | ⟨hLt, hSet⟩)
        · rw [hEq]
          exact ⟨Nat.lt_succ_self n, hBit⟩
        · exact ⟨Nat.lt_succ_of_lt hLt, hSet⟩
      · rintro ⟨hLt, hSet⟩
        rcases Nat.lt_succ_iff_lt_or_eq.mp hLt with hIn | hEq
        · exact Or.inr ⟨hIn, hSet⟩
        · exact Or.inl hEq
    · rw [if_neg hBit, ih]
      constructor
      · rintro ⟨hLt, hSet⟩
        exact ⟨Nat.lt_succ_of_lt hLt, hSet⟩
      · rintro ⟨hLt, hSet⟩
        refine ⟨?_, hSet⟩
        rcases Nat.lt_succ_iff_lt_or_eq.mp hLt with hIn | hEq
        · exact hIn
        · rw [hEq] at hSet
          exact absurd hSet hBit

@[simp] theorem mem_bits {e : BitVec w} {i : Nat} : i ∈ bits e ↔ e.getLsbD i = true := by
  unfold bits
  rw [mem_bitsBelow]
  constructor
  · exact fun h => h.2
  · exact fun h => ⟨BitVec.lt_of_getLsbD h, h⟩

theorem bitsBelow_sorted (e : BitVec w) (n : Nat) :
    (bitsBelow e n).Pairwise (fun i j => j < i) := by
  induction n with
  | zero => exact List.Pairwise.nil
  | succ n ih =>
    unfold bitsBelow
    split
    · exact List.pairwise_cons.mpr ⟨fun i hi => (mem_bitsBelow.mp hi).1, ih⟩
    · exact ih

theorem bits_sorted (e : BitVec w) : (bits e).Pairwise (fun i j => j < i) :=
  bitsBelow_sorted e w

theorem bits_nodup (e : BitVec w) : (bits e).Nodup :=
  (bits_sorted e).imp (fun h => (Nat.ne_of_lt h).symm)

@[simp] theorem getLsbD_clear (e : BitVec w) (i j : Nat) :
    (clear e i).getLsbD j = (e.getLsbD j && ! decide (j = i)) := by
  unfold clear
  by_cases hSet : e.getLsbD j = true
  · have hLt := BitVec.lt_of_getLsbD hSet
    by_cases hEq : j = i
    · simp [hEq]
      omega
    · simp [hSet, hEq, hLt]
      omega
  · simp [hSet]

/-
  The first one is the highest set bit, and the others are the bits that are left when it is
  cleared.
-/
theorem bits_eq_cons {e : BitVec w} {i : Nat} {rest : List Nat} (hBits : bits e = i :: rest) :
    e.getLsbD i = true ∧ (∀ j, e.getLsbD j = true → j ≤ i) ∧ bits (clear e i) = rest := by
  have hSorted := bits_sorted e
  have hMem : ∀ j, j ∈ i :: rest ↔ e.getLsbD j = true := by
    intro j
    rw [← hBits, mem_bits]
  rw [hBits, List.pairwise_cons] at hSorted
  refine ⟨(hMem i).mp List.mem_cons_self, ?_, ?_⟩
  · intro j hSet
    rcases List.mem_cons.mp ((hMem j).mpr hSet) with hEq | hIn
    · exact Nat.le_of_eq hEq
    · exact Nat.le_of_lt (hSorted.1 j hIn)
  · have hAntisymm : ∀ a b : Nat, a ∈ bits (clear e i) → b ∈ rest → b < a → a < b → a = b := by
      intro a b _ _ hLt hGt
      omega
    apply List.Perm.eq_of_pairwise hAntisymm (bits_sorted _) hSorted.2
    rw [List.perm_ext_iff_of_nodup (bits_nodup _) (hSorted.2.imp (fun h => (Nat.ne_of_lt h).symm))]
    intro j
    rw [mem_bits, getLsbD_clear, Bool.and_eq_true, ← hMem j, List.mem_cons]
    constructor
    · rintro ⟨hEq | hIn, hNe⟩
      · simp [hEq] at hNe
      · exact hIn
    · intro hIn
      have hLt := hSorted.1 j hIn
      exact ⟨Or.inr hIn, by simp; omega⟩

--
-- Loops
--

variable {σ β κ : Type*}

/- A loop over different indices, each turn of which changes only what is seen at its own index. -/
theorem foldl_view (view : σ → Nat → β) (f : Nat → β → β) {turn : σ → Nat → σ}
    (hTurn : ∀ s i j, view (turn s i) j = if j = i then f j (view s j) else view s j)
    {is : List Nat} (hNodup : is.Nodup) (s : σ) (j : Nat) :
    view (is.foldl turn s) j = if j ∈ is then f j (view s j) else view s j := by
  induction is generalizing s with
  | nil => simp
  | cons i is ih =>
    rw [List.nodup_cons] at hNodup
    rw [List.foldl_cons, ih hNodup.2, hTurn]
    by_cases hEq : j = i
    · have hNot : j ∉ is := by
        rw [hEq]
        exact hNodup.1
      rw [if_neg hNot, if_pos hEq, if_pos (List.mem_cons.mpr (Or.inl hEq))]
    · simp [hEq]

/- A loop that changes the members of a mask, one by one. -/
theorem foldl_update (f : β → β) (e : BitVec w) (s : Nat → β) (j : Nat) :
    (bits e).foldl (fun s i => Function.update s i (f (s i))) s j =
      if e.getLsbD j = true then f (s j) else s j := by
  have hTurn :
      ∀ (s : Nat → β) (i k : Nat),
        Function.update s i (f (s i)) k = if k = i then f (s k) else s k := by
    intro s i k
    by_cases hEq : k = i
    · rw [hEq, Function.update_self, if_pos rfl]
    · rw [Function.update_of_ne hEq, if_neg hEq]
  have hFold := foldl_view (fun s j => s j) (fun _ => f) hTurn (bits_nodup e) s j
  simpa only [mem_bits] using hFold

/- The bits with the key of a bit `i` of the mask. -/
def group [DecidableEq κ] (key : Nat → κ) (e : BitVec w) (i : Nat) : BitVec w :=
  (bits (clear e i)).foldl (fun e1 j => if key j ≠ key i then clear e1 j else e1) e

theorem getLsbD_group [DecidableEq κ] (key : Nat → κ) (e : BitVec w) (i j : Nat) :
    (group key e i).getLsbD j = (e.getLsbD j && decide (key j = key i)) := by
  have hTurn :
      ∀ (e1 : BitVec w) (a b : Nat),
        (if key a ≠ key i then clear e1 a else e1).getLsbD b =
          if b = a then (e1.getLsbD b && decide (key b = key i))
          else e1.getLsbD b := by
    intro e1 a b
    by_cases hKey : key a = key i
    · rw [if_neg (not_not_intro hKey)]
      by_cases hEq : b = a
      · simp [hEq, hKey]
      · simp [hEq]
    · rw [if_pos hKey, getLsbD_clear]
      by_cases hEq : b = a
      · simp [hEq, hKey]
      · simp [hEq]
  have hFold :=
    foldl_view (fun (e1 : BitVec w) b => e1.getLsbD b)
      (fun b set => set && decide (key b = key i)) hTurn (bits_nodup (clear e i)) e j
  refine hFold.trans ?_
  by_cases hIn : j ∈ bits (clear e i)
  · rw [if_pos hIn]
  · rw [if_neg hIn]
    rw [mem_bits, getLsbD_clear] at hIn
    by_cases hEq : j = i
    · simp [hEq]
    · simp [hEq] at hIn
      simp [hIn]

theorem and_not_lt {e e1 : BitVec w} {i : Nat} (hSet : e.getLsbD i = true)
    (hIn : e1.getLsbD i = true) : (e &&& ~~~e1).toNat < e.toNat := by
  apply Nat.lt_of_le_of_ne
  · rw [BitVec.toNat_and]
    exact Nat.and_le_left
  · intro hEq
    have hSame : e &&& ~~~e1 = e := BitVec.eq_of_toNat_eq hEq
    have hBit := congrArg (fun e => e.getLsbD i) hSame
    simp [hSet, hIn] at hBit

/- Take the highest set bit and the bits with its key. -/
def forGroups [DecidableEq κ] (key : σ → Nat → κ) (body : σ → Nat → BitVec w → σ) (e0 : BitVec w)
    (s : σ) : σ :=
  match _hBits : bits e0 with
  | [] => s
  | i :: _ =>
    let e1 := group (key s) e0 i
    forGroups key body (e0 &&& ~~~e1) (body s i e1)
termination_by e0.toNat
decreasing_by
  have hSet := (bits_eq_cons _hBits).1
  apply and_not_lt hSet
  rw [getLsbD_group, hSet]
  simp

/- Each set bit is in exactly one group: what is seen at it changes once. -/
theorem forGroups_view [DecidableEq κ] {key : σ → Nat → κ} {body : σ → Nat → BitVec w → σ}
    (view : σ → Nat → β) (f : Nat → β → β)
    (hBody :
      ∀ s i e1 j,
        (∀ k, e1.getLsbD k = true → key s k = key s i) →
          view (body s i e1) j = if e1.getLsbD j = true then f j (view s j) else view s j)
    (e0 : BitVec w) (s : σ) (j : Nat) :
    view (forGroups key body e0 s) j = if e0.getLsbD j = true then f j (view s j)
      else view s j := by
  induction e0, s using forGroups.induct key body with
  | case1 e0 s hBits =>
    rw [forGroups]
    split
    · have hNot : ¬ e0.getLsbD j = true := by
        rw [← mem_bits, hBits]
        exact List.not_mem_nil
      rw [if_neg hNot]
    · rename_i hCons
      rw [hBits] at hCons
      cases hCons
  | case2 e0 s i rest hBits e1 ih =>
    rw [forGroups]
    split
    · rename_i hNil
      rw [hBits] at hNil
      cases hNil
    · rename_i i' rest' hCons
      rw [hBits] at hCons
      cases hCons
      rw [ih, hBody]
      · have hGroup : e1.getLsbD j = (e0.getLsbD j && decide (key s j = key s i)) :=
          getLsbD_group (key s) e0 i j
        rw [BitVec.getLsbD_and, BitVec.getLsbD_not, hGroup]
        by_cases hSet : e0.getLsbD j = true
        · have hLt := BitVec.lt_of_getLsbD hSet
          by_cases hKey : key s j = key s i
          · simp [hSet, hKey]
          · simp [hSet, hKey, hLt]
        · simp [hSet]
      · intro k hk
        rw [getLsbD_group, Bool.and_eq_true] at hk
        exact of_decide_eq_true hk.2

end Mask

end FrameworksAv
