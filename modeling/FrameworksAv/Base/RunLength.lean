import Mathlib.Algebra.Order.Ring.Int
import Mathlib.Algebra.BigOperators.Group.List.Basic
import Mathlib.Data.List.Flatten

/-
  Run-length tables: each run is a count and a value, and a cursor walks over the runs.

  Main declarations:
    * `RunLength.expand`, `RunLength.total`
    * `RunLength.getElem?_expand`
    * `RunLength.consume`, `RunLength.expand_consume`
    * `RunLength.Cursor`
-/

--
-- Runs
--

namespace FrameworksAv

namespace RunLength

variable {α : Type*}

/- Each run stands for its value, so many times. -/
def expand (runs : List (Nat × α)) : List α :=
  runs.flatMap (fun r => List.replicate r.1 r.2)

/- How many values the runs stand for. -/
def total (runs : List (Nat × α)) : Nat :=
  (runs.map Prod.fst).sum

@[simp] theorem total_nil : total ([] : List (Nat × α)) = 0 :=
  rfl

@[simp] theorem total_cons (r : Nat × α) (runs : List (Nat × α)) :
    total (r :: runs) = r.1 + total runs := by
  simp [total]

theorem total_append (xs ys : List (Nat × α)) : total (xs ++ ys) = total xs + total ys := by
  simp [total]

@[simp] theorem length_expand (runs : List (Nat × α)) : (expand runs).length = total runs := by
  induction runs with
  | nil => rfl
  | cons r runs ih =>
    rw [total_cons, ← ih]
    simp [expand]

theorem expand_append (xs ys : List (Nat × α)) : expand (xs ++ ys) = expand xs ++ expand ys := by
  simp [expand]

/- The runs before, at and behind a run. -/
theorem split_at {runs : List (Nat × α)} {k : Nat} {r : Nat × α} (hRun : runs[k]? = some r) :
    runs = runs.take k ++ r :: runs.drop (k + 1) := by
  rcases List.getElem?_eq_some_iff.mp hRun with ⟨hLt, hEq⟩
  rw [← hEq, List.cons_getElem_drop_succ, List.take_append_drop]

theorem total_take_succ {runs : List (Nat × α)} {k : Nat} {r : Nat × α} (hRun : runs[k]? = some r) :
    total (runs.take (k + 1)) = total (runs.take k) + r.1 := by
  rw [List.take_add_one, hRun, total_append]
  simp

theorem total_take_le (runs : List (Nat × α)) (k : Nat) : total (runs.take k) ≤ total runs := by
  have hSplit := total_append (runs.take k) (runs.drop k)
  rw [List.take_append_drop] at hSplit
  omega

/- A position inside a run has the value of the run. -/
theorem getElem?_expand {runs : List (Nat × α)} {k : Nat} {r : Nat × α} (hRun : runs[k]? = some r)
    {i : Nat} (hGe : total (runs.take k) ≤ i) (hLt : i < total (runs.take k) + r.1) :
    (expand runs)[i]? = some r.2 := by
  have hSplit := split_at hRun
  have hExpand :
      expand runs =
        expand (runs.take k) ++ (List.replicate r.1 r.2 ++ expand (runs.drop (k + 1))) := by
    conv_lhs => rw [hSplit]
    rw [expand_append]
    simp [expand]
  rw [hExpand, List.getElem?_append_right (by simpa using hGe),
    length_expand, List.getElem?_append_left (by rw [List.length_replicate]; omega),
    List.getElem?_replicate, if_pos (by omega)]

/- The sum of the values in front of a position. -/
theorem sum_take_expand {runs : List (Nat × Nat)} {k : Nat} {r : Nat × Nat}
    (hRun : runs[k]? = some r) {i : Nat} (hGe : total (runs.take k) ≤ i)
    (hLe : i ≤ total (runs.take k) + r.1) :
    ((expand runs).take i).sum = (expand (runs.take k)).sum + (i - total (runs.take k)) * r.2 := by
  have hSplit := split_at hRun
  have hExpand :
      expand runs =
        expand (runs.take k) ++ (List.replicate r.1 r.2 ++ expand (runs.drop (k + 1))) := by
    conv_lhs => rw [hSplit]
    rw [expand_append]
    simp [expand]
  rw [hExpand, List.take_append, length_expand, List.take_of_length_le (by simpa using hGe),
    List.sum_append, List.take_append, List.length_replicate, List.take_replicate,
    Nat.min_eq_left (by omega)]
  have hNone : i - total (runs.take k) - r.1 = 0 := by
    omega
  rw [hNone]
  simp

theorem sum_expand_take_succ {runs : List (Nat × Nat)} {k : Nat} {r : Nat × Nat}
    (hRun : runs[k]? = some r) :
    (expand (runs.take (k + 1))).sum = (expand (runs.take k)).sum + r.1 * r.2 := by
  rw [List.take_add_one, hRun, expand_append]
  simp [expand]

--
-- Taking From the Front
--

/- Take so many values off the front. -/
def consume : Nat → List (Nat × α) → List (Nat × α)
| _, [] => []
| n, r :: runs =>
  if n = 0 then r :: runs
  else if n < r.1 then (r.1 - n, r.2) :: runs
  else consume (n - r.1) runs

theorem expand_cons (r : Nat × α) (runs : List (Nat × α)) :
    expand (r :: runs) = List.replicate r.1 r.2 ++ expand runs :=
  rfl

theorem expand_consume (n : Nat) (runs : List (Nat × α)) :
    expand (consume n runs) = (expand runs).drop n := by
  induction runs generalizing n with
  | nil => exact List.drop_nil.symm
  | cons r runs ih =>
    rw [consume]
    by_cases hZero : n = 0
    · rw [if_pos hZero, hZero, List.drop_zero]
    · rw [if_neg hZero, expand_cons, List.drop_append, List.drop_replicate, List.length_replicate]
      by_cases hInside : n < r.1
      · rw [if_pos hInside, expand_cons, (by omega : n - r.1 = 0), List.drop_zero]
      · rw [if_neg hInside, ih, (by omega : r.1 - n = 0), List.replicate_zero, List.nil_append]

@[simp] theorem consume_zero (runs : List (Nat × α)) : consume 0 runs = runs := by
  cases runs with
  | nil => rfl
  | cons r runs => rw [consume, if_pos rfl]

/- In two steps. -/
theorem consume_add (m n : Nat) (runs : List (Nat × α)) :
    consume (m + n) runs = consume n (consume m runs) := by
  induction runs generalizing m with
  | nil => rfl
  | cons r runs ih =>
    by_cases hNone : n = 0
    · rw [hNone, Nat.add_zero, consume_zero]
    by_cases hZero : m = 0
    · rw [hZero, Nat.zero_add, consume_zero]
    rw [consume, if_neg (by omega)]
    by_cases hFirst : m < r.1
    · rw [consume, if_neg hZero, if_pos hFirst, consume, if_neg hNone]
      by_cases hBoth : m + n < r.1
      · rw [if_pos hBoth, if_pos (by omega), Nat.sub_sub]
      · rw [if_neg hBoth, if_neg (by omega)]
        congr 1
        omega
    · rw [if_neg (by omega), consume.eq_def m]
      simp only [if_neg hZero, if_neg hFirst]
      rw [← ih]
      congr 1
      omega

theorem total_consume (n : Nat) (runs : List (Nat × α)) :
    total (consume n runs) = total runs - n := by
  rw [← length_expand, expand_consume, List.length_drop, length_expand]

--
-- Cursors
--

/- A cursor in front of the first run, or at run `k - 1`, which starts at position `first`. -/
inductive Cursor (runs : List (Nat × α)) : (k first : Nat) → (run : Nat × α) → Prop
| start (value : α) : Cursor runs 0 0 (0, value)
| at {k : Nat} {r : Nat × α} (hRun : runs[k]? = some r) :
    Cursor runs (k + 1) (total (runs.take k)) r

variable {runs : List (Nat × α)} {k first : Nat} {r : Nat × α}

theorem Cursor.stop (h : Cursor runs k first r) :
    first + r.1 = total (runs.take k) := by
  cases h with
  | start value => simp
  | «at» hRun => rw [total_take_succ hRun]

theorem Cursor.next (h : Cursor runs k first r) {s : Nat × α} (hRun : runs[k]? = some s) :
    Cursor runs (k + 1) (first + r.1) s := by
  rw [h.stop]
  exact Cursor.at hRun

theorem Cursor.le (h : Cursor runs k first r) : k ≤ runs.length := by
  cases h with
  | start value => exact Nat.zero_le _
  | «at» hRun => exact (List.getElem?_eq_some_iff.mp hRun).1

theorem Cursor.stop_le (h : Cursor runs k first r) :
    first + r.1 ≤ total runs := by
  rw [h.stop]
  exact total_take_le runs k

/- A position at the run of the cursor has its value. -/
theorem Cursor.getElem?_expand (h : Cursor runs k first r) {i : Nat} (hGe : first ≤ i)
    (hLt : i < first + r.1) : (expand runs)[i]? = some r.2 := by
  cases h with
  | start value => omega
  | «at» hRun => exact RunLength.getElem?_expand hRun hGe hLt

/- The sum of the runs in front of the cursor. -/
theorem Cursor.sum_next {runs : List (Nat × Nat)} {r : Nat × Nat} (h : Cursor runs k first r) :
    (expand (runs.take k)).sum = (expand (runs.take (k - 1))).sum + r.1 * r.2 := by
  cases h with
  | start value => simp [expand]
  | «at» hRun => exact sum_expand_take_succ hRun

theorem Cursor.sum_take_expand {runs : List (Nat × Nat)} {r : Nat × Nat} (h : Cursor runs k first r)
    {i : Nat} (hGe : first ≤ i) (hLt : i < first + r.1) :
    ((expand runs).take i).sum = (expand (runs.take (k - 1))).sum + (i - first) * r.2 := by
  cases h with
  | start value => omega
  | «at» hRun => exact RunLength.sum_take_expand hRun hGe (Nat.le_of_lt hLt)

end RunLength

end FrameworksAv
