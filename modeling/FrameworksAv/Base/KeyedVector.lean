import Mathlib.Algebra.Order.Ring.Int
import Mathlib.Data.List.Basic
import Mathlib.Order.Defs.LinearOrder

/-
  Vectors of keys and values in the order of the keys, each key at most once.

  Main declarations:
    * `KeyedVector`
    * `KeyedVector.lookup`, `KeyedVector.add`,
      `KeyedVector.remove`
    * `KeyedVector.lookup_add`, `KeyedVector.lookup_remove`
    * `KeyedVector.ext_lookup`
-/

--
-- Vectors
--

namespace FrameworksAv

/- Entries with strictly increasing keys. -/
structure KeyedVector (κ α : Type*) [LinearOrder κ] where
  entries : List (κ × α)
  sorted : entries.Pairwise (fun a b => a.1 < b.1)

namespace KeyedVector

variable {κ α : Type*} [LinearOrder κ]

/- Insert an entry in its place, or replace that of its key. -/
def insertEntry (k : κ) (x : α) : List (κ × α) → List (κ × α)
| [] => [(k, x)]
| e :: es =>
  if k < e.1 then (k, x) :: e :: es
  else if k = e.1 then (k, x) :: es
  else e :: insertEntry k x es

theorem mem_insertEntry {k : κ} {x : α} {es : List (κ × α)} {e : κ × α}
    (hMem : e ∈ insertEntry k x es) : e = (k, x) ∨ e ∈ es := by
  induction es with
  | nil => exact Or.inl (List.mem_singleton.mp hMem)
  | cons f es ih =>
    unfold insertEntry at hMem
    split at hMem
    · exact List.mem_cons.mp hMem
    · split at hMem
      · rcases List.mem_cons.mp hMem with hEq | hRest
        · exact Or.inl hEq
        · exact Or.inr (List.mem_cons_of_mem _ hRest)
      · rcases List.mem_cons.mp hMem with hEq | hRest
        · rw [hEq]
          exact Or.inr List.mem_cons_self
        · rcases ih hRest with hNew | hOld
          · exact Or.inl hNew
          · exact Or.inr (List.mem_cons_of_mem _ hOld)

theorem insertEntry_sorted (k : κ) (x : α) {es : List (κ × α)}
    (hSorted : es.Pairwise (fun a b => a.1 < b.1)) :
    (insertEntry k x es).Pairwise (fun a b => a.1 < b.1) := by
  induction es with
  | nil => exact List.pairwise_singleton _ _
  | cons f es ih =>
    rcases List.pairwise_cons.mp hSorted with ⟨hHead, hTail⟩
    unfold insertEntry
    split
    · rename_i hLt
      apply List.pairwise_cons.mpr
      refine ⟨?_, hSorted⟩
      intro e he
      rcases List.mem_cons.mp he with hEq | hRest
      · rw [hEq]
        exact hLt
      · exact lt_trans hLt (hHead e hRest)
    · rename_i hNotLt
      split
      · rename_i hEq
        rw [← hEq] at hHead
        exact List.pairwise_cons.mpr ⟨hHead, hTail⟩
      · rename_i hNe
        apply List.pairwise_cons.mpr
        refine ⟨?_, ih hTail⟩
        intro e he
        rcases mem_insertEntry he with hNew | hOld
        · rw [hNew]
          exact lt_of_le_of_ne (le_of_not_gt hNotLt) (Ne.symm hNe)
        · exact hHead e hOld

def empty : KeyedVector κ α where
  entries := []
  sorted := List.Pairwise.nil

def lookup (v : KeyedVector κ α) (k : κ) : Option α :=
  v.entries.lookup k

def add (v : KeyedVector κ α) (k : κ) (x : α) : KeyedVector κ α where
  entries := insertEntry k x v.entries
  sorted := insertEntry_sorted k x v.sorted

def remove (v : KeyedVector κ α) (k : κ) : KeyedVector κ α where
  entries := v.entries.filter (fun e => e.1 ≠ k)
  sorted := v.sorted.sublist List.filter_sublist

def keys (v : KeyedVector κ α) : List κ :=
  v.entries.map Prod.fst

--
-- Lookups
--

@[simp] theorem lookup_empty (k : κ) : (empty : KeyedVector κ α).lookup k = none :=
  rfl

theorem lookup_insertEntry_self (k : κ) (x : α) (es : List (κ × α)) :
    (insertEntry k x es).lookup k = some x := by
  induction es with
  | nil => simp [insertEntry]
  | cons f es ih =>
    unfold insertEntry
    split
    · simp
    · split
      · simp
      · rename_i hNe
        rw [List.lookup_cons, beq_false_of_ne hNe]
        exact ih

theorem lookup_insertEntry_ne {k l : κ} (hNe : l ≠ k) (x : α) (es : List (κ × α)) :
    (insertEntry k x es).lookup l = es.lookup l := by
  have hSkip : (l == k) = false := beq_false_of_ne hNe
  induction es with
  | nil => simp [insertEntry, List.lookup_cons, hSkip]
  | cons f es ih =>
    unfold insertEntry
    split
    · rw [List.lookup_cons, hSkip]
    · split
      · rename_i hEq
        rw [hEq] at hSkip
        rw [List.lookup_cons, List.lookup_cons, hEq, hSkip]
      · rw [List.lookup_cons, List.lookup_cons, ih]

theorem lookup_filter_ne (k l : κ) (es : List (κ × α)) :
    (es.filter (fun e => e.1 ≠ k)).lookup l = if l = k then none else es.lookup l := by
  induction es with
  | nil => simp
  | cons f es ih =>
    by_cases hKey : f.1 = k
    · rw [List.filter_cons_of_neg (by simpa using hKey), ih]
      by_cases hEq : l = k
      · rw [if_pos hEq, if_pos hEq]
      · have hSkip : (l == f.1) = false := by
          rw [hKey]
          exact beq_false_of_ne hEq
        rw [if_neg hEq, if_neg hEq, List.lookup_cons, hSkip]
    · rw [List.filter_cons_of_pos (by simpa using hKey), List.lookup_cons, List.lookup_cons, ih]
      by_cases hEq : l = k
      · have hSkip : (l == f.1) = false := by
          rw [hEq]
          exact beq_false_of_ne (Ne.symm hKey)
        rw [hSkip, if_pos hEq]
      · rw [if_neg hEq, if_neg hEq]

theorem lookup_add (v : KeyedVector κ α) (k l : κ) (x : α) :
    (v.add k x).lookup l = if l = k then some x else v.lookup l := by
  by_cases hEq : l = k
  · rw [if_pos hEq, hEq]
    exact lookup_insertEntry_self k x v.entries
  · rw [if_neg hEq]
    exact lookup_insertEntry_ne hEq x v.entries

theorem lookup_remove (v : KeyedVector κ α) (k l : κ) :
    (v.remove k).lookup l = if l = k then none else v.lookup l :=
  lookup_filter_ne k l v.entries

/- A lookup finds the entry of its key. -/
theorem lookup_eq_some_iff (v : KeyedVector κ α) {k : κ} {x : α} :
    v.lookup k = some x ↔ (k, x) ∈ v.entries := by
  rcases v with ⟨es, hSorted⟩
  unfold lookup
  simp only
  induction es with
  | nil => simp
  | cons f es ih =>
    rcases List.pairwise_cons.mp hSorted with ⟨hHead, hTail⟩
    by_cases hKey : k = f.1
    · rw [List.lookup_cons, hKey, BEq.rfl, List.mem_cons]
      constructor
      · intro hSome
        cases hSome
        exact Or.inl rfl
      · rintro (hEq | hRest)
        · rw [← hEq]
        · exact absurd (hHead _ hRest) (lt_irrefl _)
    · rw [List.lookup_cons, beq_false_of_ne hKey, List.mem_cons]
      simp only
      rw [ih hTail]
      constructor
      · exact Or.inr
      · rintro (hEq | hRest)
        · rw [← hEq] at hKey
          exact absurd rfl hKey
        · exact hRest

theorem mem_keys_iff (v : KeyedVector κ α) {k : κ} : k ∈ v.keys ↔ ∃ x, v.lookup k = some x := by
  unfold keys
  rw [List.mem_map]
  constructor
  · rintro ⟨⟨l, x⟩, hMem, rfl⟩
    exact ⟨x, v.lookup_eq_some_iff.mpr hMem⟩
  · rintro ⟨x, hSome⟩
    exact ⟨(k, x), v.lookup_eq_some_iff.mp hSome, rfl⟩

theorem keys_nodup (v : KeyedVector κ α) : v.keys.Nodup := by
  apply List.pairwise_map.mpr
  exact v.sorted.imp (fun hLt => ne_of_lt hLt)

/- Sorted lists with the same members are equal. -/
theorem eq_of_mem_iff {xs ys : List (κ × α)} (hX : xs.Pairwise (fun a b => a.1 < b.1))
    (hY : ys.Pairwise (fun a b => a.1 < b.1)) (hMem : ∀ e, e ∈ xs ↔ e ∈ ys) : xs = ys := by
  have hAntisymm : ∀ a b : κ × α, a ∈ xs → b ∈ ys → a.1 < b.1 → b.1 < a.1 → a = b := by
    intro a b _ _ hab hba
    exact absurd hab (not_lt_of_gt hba)
  apply List.Perm.eq_of_pairwise hAntisymm hX hY
  · apply (List.perm_ext_iff_of_nodup ?_ ?_).mpr hMem
    · exact hX.imp (fun hLt hEq =>
        ne_of_lt hLt (congrArg Prod.fst hEq))
    · exact hY.imp (fun hLt hEq =>
        ne_of_lt hLt (congrArg Prod.fst hEq))

/- Vectors with the same lookups are equal. -/
theorem ext_lookup {v w : KeyedVector κ α} (hSame : ∀ k, v.lookup k = w.lookup k) : v = w := by
  have hEntries : v.entries = w.entries := by
    apply eq_of_mem_iff v.sorted w.sorted
    rintro ⟨k, x⟩
    rw [← lookup_eq_some_iff, ← lookup_eq_some_iff, hSame]
  cases v
  cases w
  cases hEntries
  rfl

end KeyedVector

end FrameworksAv
