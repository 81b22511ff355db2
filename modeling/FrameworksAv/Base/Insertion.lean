import Mathlib.Algebra.Order.Ring.Int
import Mathlib.Data.List.InsertIdx

/-
  Insertion into a list at a position: what holds between the members afterwards, and what filters
  and maps see of it and of changes and removals at a position.

  Main declarations:
    * `Insertion.insertIdx_eq`
    * `Insertion.pairwise_insertIdx`
    * `Insertion.map_modify_of_eq`
    * `Insertion.eraseIdx_eq_filter`
-/

--
-- Insertion
--

namespace FrameworksAv

namespace Insertion

variable {α : Type*}

/- The members in front of the position, and those behind. -/
theorem insertIdx_eq {l : List α} {i : Nat} (hLe : i ≤ l.length) (x : α) :
    l.insertIdx i x = l.take i ++ x :: l.drop i := by
  induction l generalizing i with
  | nil =>
    have hZero : i = 0 := Nat.le_zero.mp hLe
    rw [hZero]
    rfl
  | cons y l ih =>
    cases i with
    | zero => rfl
    | succ i =>
      rw [List.insertIdx_succ_cons, ih (Nat.le_of_succ_le_succ hLe)]
      rfl

/- A relation between all members is kept when the new one is in its place. -/
theorem pairwise_insertIdx {r : α → α → Prop} {l : List α} (hPairs : l.Pairwise r) {i : Nat}
    (hLe : i ≤ l.length) {x : α} (hBefore : ∀ y ∈ l.take i, r y x)
    (hBehind : ∀ y ∈ l.drop i, r x y) : (l.insertIdx i x).Pairwise r := by
  rw [insertIdx_eq hLe]
  rw [← List.take_append_drop i l, List.pairwise_append] at hPairs
  rcases hPairs with ⟨hFront, hBack, hAcross⟩
  apply List.pairwise_append.mpr
  refine ⟨hFront, List.pairwise_cons.mpr ⟨hBehind, hBack⟩, ?_⟩
  intro y hy z hz
  rcases List.mem_cons.mp hz with hEq | hMem
  · rw [hEq]
    exact hBefore y hy
  · exact hAcross y hy z hMem

/- A filter does not see a new member that it drops. -/
theorem filter_insertIdx_of_neg {p : α → Bool} {x : α} (hNot : p x = false) (l : List α) (i : Nat) :
    (l.insertIdx i x).filter p = l.filter p := by
  induction l generalizing i with
  | nil =>
    cases i with
    | zero => simp [hNot]
    | succ i => rfl
  | cons y l ih =>
    cases i with
    | zero => simp [hNot]
    | succ i => rw [List.insertIdx_succ_cons, List.filter_cons, List.filter_cons, ih]

/- Behind the last member that it keeps, the new one is last. -/
theorem filter_insertIdx_of_none_behind {p : α → Bool} {x : α} (hKeep : p x = true) {l : List α}
    {i : Nat} (hLe : i ≤ l.length) (hNone : ∀ y ∈ l.drop i, p y = false) :
    (l.insertIdx i x).filter p = l.filter p ++ [x] := by
  have hBack : (l.drop i).filter p = [] := by
    apply List.filter_eq_nil_iff.mpr
    intro y hy
    rw [hNone y hy]
    exact Bool.false_ne_true
  have hAll : l.filter p = (l.take i).filter p := by
    conv_lhs => rw [← List.take_append_drop i l]
    rw [List.filter_append, hBack, List.append_nil]
  rw [insertIdx_eq hLe, List.filter_append, List.filter_cons, if_pos hKeep, hBack, hAll]

/- A map does not see a change that it forgets. -/
theorem map_modify_of_eq {β : Type*} {f : α → α} {g : α → β} (hSame : ∀ x, g (f x) = g x)
    (l : List α) (i : Nat) : (l.modify i f).map g = l.map g := by
  induction l generalizing i with
  | nil => simp
  | cons x l ih =>
    cases i with
    | zero => rw [List.modify_zero_cons, List.map_cons, List.map_cons, hSame]
    | succ i => rw [List.modify_succ_cons, List.map_cons, List.map_cons, ih]

/- A change in the first part of a list. -/
theorem modify_append (f : α → α) {l : List α} {i : Nat} (hLess : i < l.length) (r : List α) :
    (l ++ r).modify i f = l.modify i f ++ r := by
  induction l generalizing i with
  | nil => cases hLess
  | cons x l ih =>
    cases i with
    | zero => rfl
    | succ i =>
      rw [List.cons_append, List.modify_succ_cons, List.modify_succ_cons,
        ih (Nat.lt_of_succ_lt_succ hLess)]
      rfl

/- Without repetitions, the member of a key is filtered out. -/
theorem eraseIdx_eq_filter {κ : Type*} [DecidableEq κ] {g : α → κ} {l : List α}
    (hNodup : (l.map g).Nodup) {k : κ} {i : Nat} (hFind : l.findIdx? (fun x => g x = k) = some i) :
    l.eraseIdx i = l.filter (fun x => g x ≠ k) := by
  induction l generalizing i with
  | nil => cases hFind
  | cons x l ih =>
    rw [List.map_cons, List.nodup_cons] at hNodup
    rcases hNodup with ⟨hNot, hRest⟩
    rw [List.findIdx?_cons] at hFind
    by_cases hKey : g x = k
    · rw [if_pos (decide_eq_true hKey)] at hFind
      cases hFind
      rw [List.filter_cons_of_neg (by simpa using hKey), List.eraseIdx_cons_zero]
      symm
      apply List.filter_eq_self.mpr
      intro y hy
      apply decide_eq_true
      intro hSame
      rw [← hKey] at hSame
      exact hNot (hSame ▸ List.mem_map_of_mem hy)
    · rw [if_neg (by simpa using hKey)] at hFind
      rcases Option.map_eq_some_iff.mp hFind with ⟨j, hRestFind, rfl⟩
      rw [List.filter_cons_of_pos (by simpa using hKey),
        List.eraseIdx_cons_succ, ih hRest hRestFind]

end Insertion

end FrameworksAv
