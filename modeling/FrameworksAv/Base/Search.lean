import Mathlib.Algebra.Order.Ring.Int
import Mathlib.Order.Basic
import Mathlib.Order.Lattice

/-
  Binary search in a sorted table, and the entries next to a key that is not in it.

  Main declarations:
    * `Search.bisect`
    * `Search.Table`, `Search.IsGap`
    * `Search.IsBelow`, `Search.IsAbove`, `Search.IsLeast`
    * `Search.IsGap.isBelow`, `Search.IsGap.isAbove`
-/

--
-- Bisection
--

namespace FrameworksAv

namespace Search

/- A position with the key, or the one it would have. -/
inductive Outcome where
| found (center : Nat)
| gap (left : Nat)
deriving DecidableEq

variable {ι κ : Type*} [LinearOrder κ]

/- The positions from `left` to before `right` are searched. -/
def bisect (key : Nat → κ) (x : κ) : (turns left right : Nat) → Option Outcome
| 0, left, right => if left < right then none else some (.gap left)
| turns + 1, left, right =>
  if left < right then
    let center := left + (right - left) / 2
    if x < key center then bisect key x turns left center
    else if key center < x then bisect key x turns (center + 1) right
    else some (.found center)
  else some (.gap left)

/- Only keys before `right` are looked at. -/
theorem bisect_congr {key key' : Nat → κ} {x : κ} {turns left right : Nat}
    (hSame : ∀ i < right, key i = key' i) :
    bisect key x turns left right = bisect key' x turns left right := by
  induction turns generalizing left right with
  | zero => rfl
  | succ turns ih =>
    unfold bisect
    by_cases hLess : left < right
    · have hHigh : left + (right - left) / 2 < right := by
        omega
      simp only [if_pos hLess, hSame _ hHigh]
      have hLower : ∀ i < left + (right - left) / 2, key i = key' i :=
        fun i hi => hSame i (by omega)
      rw [ih hLower, ih hSame]
    · rw [if_neg hLess, if_neg hLess]

/- The entries of a table in the order of their keys. -/
structure Table (S : ι → Prop) (key : ι → κ) (entry : Nat → ι) (n : Nat) : Prop where
  complete : ∀ e, S e ↔ ∃ i < n, entry i = e
  sorted : ∀ i j, i ≤ j → j < n → key (entry i) ≤ key (entry j)

/- The keys before the position are smaller, the others larger. -/
structure IsGap (key : ι → κ) (entry : Nat → ι) (n : Nat) (x : κ) (left : Nat) : Prop where
  inside : left ≤ n
  below : ∀ i, i < left → key (entry i) < x
  above : ∀ i, left ≤ i → i < n → x < key (entry i)

variable {S : ι → Prop} {key : ι → κ} {entry : Nat → ι} {n : Nat} {x : κ}

/- What a search ends with. -/
def Outcome.Correct (key : ι → κ) (entry : Nat → ι) (n : Nat) (x : κ) : Outcome → Prop
| .found center => center < n ∧ key (entry center) = x
| .gap left => IsGap key entry n x left

/- An empty interval between smaller and larger keys. -/
theorem isGap_of_empty {left right : Nat} (hEmpty : ¬left < right) (hOrder : left ≤ right)
    (hInside : right ≤ n) (hBelow : ∀ i, i < left → key (entry i) < x)
    (hAbove : ∀ i, right ≤ i → i < n → x < key (entry i)) : IsGap key entry n x left := by
  have hEq : left = right := by omega
  exact
    { inside := by omega
      below := hBelow
      above := fun i hi => hAbove i (hEq ▸ hi) }

/- The keys outside the interval are on their sides of `x`. -/
theorem Table.bisect_ends (h : Table S key entry n) (turns : Nat) {left right : Nat}
    (hTurns : right ≤ left + turns) (hOrder : left ≤ right) (hInside : right ≤ n)
    (hBelow : ∀ i, i < left → key (entry i) < x)
    (hAbove : ∀ i, right ≤ i → i < n → x < key (entry i)) :
    ∃ outcome,
      bisect (fun i => key (entry i)) x turns left right = some outcome ∧
        outcome.Correct key entry n x := by
  induction turns generalizing left right with
  | zero =>
    have hEmpty : ¬left < right := by omega
    refine ⟨.gap left, ?_, isGap_of_empty hEmpty hOrder hInside hBelow hAbove⟩
    unfold bisect
    rw [if_neg hEmpty]
  | succ turns ih =>
    unfold bisect
    by_cases hLess : left < right
    · rw [if_pos hLess]
      simp only
      have hLow : left ≤ left + (right - left) / 2 := Nat.le_add_right _ _
      have hHigh : left + (right - left) / 2 < right := by
        omega
      generalize left + (right - left) / 2 = center at *
      by_cases hLeft : x < key (entry center)
      · rw [if_pos hLeft]
        apply ih (by omega) hLow (by omega) hBelow
        intro i hi hn
        exact lt_of_lt_of_le hLeft (h.sorted center i hi hn)
      · rw [if_neg hLeft]
        by_cases hRight : key (entry center) < x
        · rw [if_pos hRight]
          apply ih (by omega) (by omega) hInside _ hAbove
          intro i hi
          exact lt_of_le_of_lt (h.sorted i center (by omega) (by omega)) hRight
        · rw [if_neg hRight]
          have hEq : key (entry center) = x := le_antisymm (not_lt.mp hLeft) (not_lt.mp hRight)
          exact ⟨_, rfl, by omega, hEq⟩
    · rw [if_neg hLess]
      exact ⟨_, rfl, isGap_of_empty hLess hOrder hInside hBelow hAbove⟩

/- The search of a whole table ends with the right answer. -/
theorem Table.bisect_spec (h : Table S key entry n) (x : κ) :
    ∃ outcome,
      bisect (fun i => key (entry i)) x n 0 n = some outcome ∧ outcome.Correct key entry n x :=
  h.bisect_ends n (by omega) (Nat.zero_le n) (Nat.le_refl n)
    nofun (fun _ hi hn => absurd hn (by omega))

end Search

--
-- Neighbours
--

namespace Search

variable {ι κ : Type*} [LinearOrder κ]

/- An entry with the greatest key below `x`. -/
def IsBelow (S : ι → Prop) (key : ι → κ) (x : κ) (e : ι) : Prop :=
  S e ∧ key e < x ∧ ∀ f, S f → key f < x → key f ≤ key e

/- An entry with the least key above `x`. -/
def IsAbove (S : ι → Prop) (key : ι → κ) (x : κ) (e : ι) : Prop :=
  S e ∧ x < key e ∧ ∀ f, S f → x < key f → key e ≤ key f

/- An entry with the least key. -/
def IsLeast (S : ι → Prop) (key : ι → κ) (e : ι) : Prop :=
  S e ∧ ∀ f, S f → key e ≤ key f

variable {S : ι → Prop} {key : ι → κ} {entry : Nat → ι} {n left : Nat} {x : κ}

theorem Table.mem (h : Table S key entry n) {i : Nat} (hi : i < n) : S (entry i) :=
  (h.complete _).mpr ⟨i, hi, rfl⟩

theorem Table.isLeast (h : Table S key entry n) (hSome : 0 < n) : IsLeast S key (entry 0) := by
  refine ⟨h.mem hSome, ?_⟩
  intro f hf
  rcases (h.complete f).mp hf with ⟨i, hi, rfl⟩
  exact h.sorted 0 i (Nat.zero_le i) hi

/- No entry has the key. -/
theorem IsGap.ne (hGap : IsGap key entry n x left) (h : Table S key entry n) {f : ι} (hf : S f) :
    key f ≠ x := by
  rcases (h.complete f).mp hf with ⟨i, hi, rfl⟩
  rcases Nat.lt_or_ge i left with hLow | hHigh
  · exact ne_of_lt (hGap.below i hLow)
  · exact ne_of_gt (hGap.above i hHigh hi)

/- The entry in front of the gap is the next one below. -/
theorem IsGap.isBelow (hGap : IsGap key entry n x left) (h : Table S key entry n)
    (hPos : 0 < left) : IsBelow S key x (entry (left - 1)) := by
  have hInside := hGap.inside
  refine ⟨h.mem (by omega), hGap.below _ (by omega), ?_⟩
  intro f hf hLess
  rcases (h.complete f).mp hf with ⟨i, hi, rfl⟩
  have hLow : i < left := by
    by_contra hHigh
    exact absurd hLess (not_lt_of_gt (hGap.above i (Nat.not_lt.mp hHigh) hi))
  exact h.sorted i (left - 1) (by omega) (by omega)

/- The entry behind the gap is the next one above. -/
theorem IsGap.isAbove (hGap : IsGap key entry n x left) (h : Table S key entry n)
    (hLess : left < n) : IsAbove S key x (entry left) := by
  refine ⟨h.mem hLess, hGap.above left (Nat.le_refl left) hLess, ?_⟩
  intro f hf hAbove
  rcases (h.complete f).mp hf with ⟨i, hi, rfl⟩
  have hHigh : left ≤ i := by
    by_contra hLow
    exact absurd hAbove (not_lt_of_gt (hGap.below i (Nat.not_le.mp hLow)))
  exact h.sorted left i hHigh hi

theorem IsGap.none_below (hGap : IsGap key entry n x 0) (h : Table S key entry n) {f : ι}
    (hf : S f) : x < key f := by
  rcases (h.complete f).mp hf with ⟨i, hi, rfl⟩
  exact hGap.above i (Nat.zero_le i) hi

theorem IsGap.none_above (hGap : IsGap key entry n x n) (h : Table S key entry n) {f : ι}
    (hf : S f) : key f < x := by
  rcases (h.complete f).mp hf with ⟨i, hi, rfl⟩
  exact hGap.below i hi

end Search

end FrameworksAv
