import Mathlib.Algebra.Order.Ring.Int
import Mathlib.Data.List.Basic

/-
  `PageCache` (media/libstagefright/NuCachedSource2.cpp): the pages that a cached source holds, in
  order.

  A page is the list of its `mSize` bytes. Free pages, whose contents nobody reads, are left out.

  Main declarations:
    * `PageCache.releaseFromStart`, `PageCache.copy`
    * `PageCache.Holds`
    * `PageCache.Holds.release`, `PageCache.Holds.copy`
-/

--
-- Model
--

namespace FrameworksAv

namespace NuCachedSource

variable {α : Type*}

structure PageCache (α : Type*) where
  mTotalSize : Nat
  mActivePages : List (List α)

namespace PageCache

def empty : PageCache α := ⟨0, []⟩

variable (c : PageCache α)

def appendPage (page : List α) : PageCache α :=
  { mTotalSize := c.mTotalSize + page.length
    mActivePages := c.mActivePages ++ [page] }

/- The pages that are left, and the bytes of the others. -/
def releasePages : List (List α) → Nat → List (List α) × Nat
| [], _ => ([], 0)
| page :: pages, maxBytes =>
  if 0 < maxBytes ∧ page.length ≤ maxBytes then
    let r := releasePages pages (maxBytes - page.length)
    (r.1, page.length + r.2)
  else (page :: pages, 0)

def releaseFromStart (maxBytes : Nat) : PageCache α × Nat :=
  let r := releasePages c.mActivePages maxBytes
  ({ mTotalSize := c.mTotalSize - r.2
     mActivePages := r.1 },
    r.2)

/-
  The page that byte `pos` is in, with those behind it, and the place inside it. Without such a page
  the walk leaves the list: `none`.
-/
def findPage (pos : Nat) : List (List α) → Nat → Option (List (List α) × Nat)
| [], _ => none
| page :: pages, offset =>
  if offset + page.length ≤ pos then findPage pos pages (offset + page.length)
  else some (page :: pages, pos - offset)

/- Whole pages, and the start of the last one. -/
def copyPages : List (List α) → Nat → Option (List α)
| _, 0 => some []
| [], _ + 1 => none
| page :: pages, size + 1 =>
  let count := min page.length (size + 1)
  (copyPages pages (size + 1 - count)).map (page.take count ++ ·)

/- Copy bytes out.  The sum in the `CHECK_LE` is a `size_t` of 64 bits. -/
def copy (pos size : Nat) : Option (List α) :=
  if size = 0 then some []
  else if c.mTotalSize < (pos + size) % 2 ^ 64 then none
  else
    (findPage pos c.mActivePages 0).bind (fun r =>
      match r.1 with
      | [] => none
      | page :: pages =>
        let avail := page.length - r.2
        if size ≤ avail then some ((page.drop r.2).take size)
        else (copyPages pages (size - avail)).map (page.drop r.2 ++ ·))

end PageCache

end NuCachedSource

--
-- Contents
--

namespace NuCachedSource

namespace PageCache

variable {α : Type*}

/- The pages hold these bytes, and no page is empty. -/
structure Holds (c : PageCache α) (bytes : List α) : Prop where
  pages : c.mActivePages.flatten = bytes
  size : c.mTotalSize = bytes.length
  nonempty : ∀ page ∈ c.mActivePages, page ≠ []

theorem empty_holds : (empty : PageCache α).Holds [] :=
  ⟨rfl, rfl, nofun⟩

variable {c : PageCache α} {bytes : List α}

theorem Holds.append (h : c.Holds bytes) {page : List α} (hPage : page ≠ []) :
    (c.appendPage page).Holds (bytes ++ page) := by
  constructor
  · simp [appendPage, h.pages]
  · simp [appendPage, h.size]
  · intro p hp
    rcases List.mem_append.mp hp with hOld | hNew
    · exact h.nonempty p hOld
    · rw [List.mem_singleton.mp hNew]
      exact hPage

/- Whole pages are released, from the start. -/
theorem releasePages_spec (pages : List (List α)) (maxBytes : Nat) :
    ∃ released,
      pages = released ++ (releasePages pages maxBytes).1 ∧
        (releasePages pages maxBytes).2 = released.flatten.length := by
  induction pages generalizing maxBytes with
  | nil => exact ⟨[], rfl, rfl⟩
  | cons page pages ih =>
    unfold releasePages
    by_cases hFits : 0 < maxBytes ∧ page.length ≤ maxBytes
    · rw [if_pos hFits]
      rcases ih (maxBytes - page.length) with ⟨released, hSplit, hCount⟩
      refine ⟨page :: released, ?_, ?_⟩
      · rw [List.cons_append, ← hSplit]
      · simp only [hCount, List.flatten_cons, List.length_append]
    · rw [if_neg hFits]
      exact ⟨[], rfl, rfl⟩

theorem Holds.release (h : c.Holds bytes) (maxBytes : Nat) :
    let r := c.releaseFromStart maxBytes
    r.2 ≤ bytes.length ∧ r.1.Holds (bytes.drop r.2) := by
  rcases releasePages_spec c.mActivePages maxBytes with ⟨released, hSplit, hCount⟩
  have hBytes : bytes = released.flatten ++ (releasePages c.mActivePages maxBytes).1.flatten := by
    rw [← h.pages, ← List.flatten_append, ← hSplit]
  have hLength := congrArg List.length hBytes
  rw [List.length_append] at hLength
  constructor
  · simp only [releaseFromStart]
    omega
  · constructor
    · simp only [releaseFromStart]
      conv_rhs => rw [hBytes]
      rw [hCount, List.drop_left]
    · simp only [releaseFromStart, List.length_drop, h.size]
    · intro page hPage
      apply h.nonempty
      rw [hSplit]
      exact List.mem_append_right _ hPage

/- Everything is released when everything is asked for. -/
theorem releasePages_all {pages : List (List α)} (hNonempty : ∀ page ∈ pages, page ≠ []) :
    releasePages pages pages.flatten.length = ([], pages.flatten.length) := by
  induction pages with
  | nil => rfl
  | cons page pages ih =>
    rw [List.forall_mem_cons] at hNonempty
    have hPos := List.length_pos_iff.mpr hNonempty.1
    rw [List.flatten_cons, List.length_append, releasePages,
      if_pos (by omega), Nat.add_sub_cancel_left, ih hNonempty.2]

theorem Holds.releaseAll (h : c.Holds bytes) :
    c.releaseFromStart c.mTotalSize = (empty, c.mTotalSize) := by
  have hAll := releasePages_all h.nonempty
  rw [h.pages, ← h.size] at hAll
  unfold releaseFromStart
  rw [hAll]
  simp [empty]

/- The walk ends at the page of the byte. -/
theorem findPage_spec {pos offset : Nat} {pages : List (List α)} (hGe : offset ≤ pos)
    (hLt : pos < offset + pages.flatten.length) :
    ∃ front page rest,
      pages = front ++ page :: rest ∧ offset + front.flatten.length ≤ pos ∧
        pos < offset + front.flatten.length + page.length ∧
        findPage pos pages offset = some (page :: rest, pos - (offset + front.flatten.length)) := by
  induction pages generalizing offset with
  | nil =>
    rw [List.flatten_nil, List.length_nil] at hLt
    omega
  | cons page pages ih =>
    rw [List.flatten_cons, List.length_append] at hLt
    unfold findPage
    by_cases hPast : offset + page.length ≤ pos
    · rw [if_pos hPast]
      rcases ih hPast (by omega) with ⟨front, p, rest, hSplit, hFrom, hTo, hFind⟩
      refine ⟨page :: front, p, rest, ?_, ?_, ?_, ?_⟩
      · rw [hSplit]
        rfl
      · rw [List.flatten_cons, List.length_append]
        omega
      · rw [List.flatten_cons, List.length_append]
        omega
      · rw [hFind, List.flatten_cons, List.length_append, Nat.add_assoc]
    · rw [if_neg hPast]
      exact ⟨[], page, pages, rfl, hGe, by simpa using hPast, rfl⟩

/- The pages have all the bytes that are asked for. -/
theorem copyPages_spec {pages : List (List α)} {size : Nat} (hNonempty : ∀ page ∈ pages, page ≠ [])
    (hFit : size ≤ pages.flatten.length) :
    copyPages pages size = some (pages.flatten.take size) := by
  induction pages generalizing size with
  | nil =>
    cases size with
    | zero => rfl
    | succ size =>
      rw [List.flatten_nil, List.length_nil] at hFit
      omega
  | cons page pages ih =>
    cases size with
    | zero => rfl
    | succ size =>
      rw [List.forall_mem_cons] at hNonempty
      rw [List.flatten_cons, List.length_append] at hFit
      rw [copyPages, ih hNonempty.2 (by omega),
        Option.map_some, List.flatten_cons, List.take_append]
      congr 1
      by_cases hLess : size + 1 ≤ page.length
      · rw [Nat.min_eq_right hLess, Nat.sub_self, Nat.sub_eq_zero_of_le hLess]
      · rw [Nat.min_eq_left (by omega), List.take_length,
          List.take_of_length_le (by omega : page.length ≤ size + 1)]

/- Bytes that are held are copied out. -/
theorem Holds.copy (h : c.Holds bytes) {pos size : Nat} (hFit : pos + size ≤ bytes.length)
    (hSmall : bytes.length < 2 ^ 64) : c.copy pos size = some ((bytes.drop pos).take size) := by
  unfold PageCache.copy
  by_cases hNone : size = 0
  · rw [if_pos hNone, hNone, List.take_zero]
  have hMod : (pos + size) % 2 ^ 64 = pos + size := Nat.mod_eq_of_lt (by omega)
  rw [if_neg hNone, hMod, h.size, if_neg (Nat.not_lt.mpr hFit)]
  have hLt : pos < 0 + c.mActivePages.flatten.length := by
    rw [h.pages]
    omega
  rcases findPage_spec (Nat.zero_le pos) hLt with ⟨front, page, rest, hSplit, hFrom, hTo, hFind⟩
  rw [hFind, Option.bind_some]
  simp only [Nat.zero_add] at hFrom hTo ⊢
  have hInside : pos - front.flatten.length - page.length = 0 := by
    omega
  have hBytes : bytes.drop pos = page.drop (pos - front.flatten.length) ++ rest.flatten := by
    rw [← h.pages, hSplit, List.flatten_append, List.flatten_cons, List.drop_append,
      List.drop_of_length_le hFrom, List.nil_append, List.drop_append, hInside, List.drop_zero]
  have hLength := congrArg List.length hBytes
  rw [List.length_append, List.length_drop, List.length_drop] at hLength
  rw [hBytes]
  by_cases hOne : size ≤ page.length - (pos - front.flatten.length)
  · rw [if_pos hOne, List.take_append_of_le_length]
    rw [List.length_drop]
    exact hOne
  · have hRest : ∀ p ∈ rest, p ≠ [] := by
      intro p hp
      apply h.nonempty
      rw [hSplit]
      exact List.mem_append_right _ (List.mem_cons_of_mem _ hp)
    have hAll : (page.drop (pos - front.flatten.length)).length ≤ size := by
      rw [List.length_drop]
      omega
    rw [if_neg hOne, copyPages_spec hRest (by omega), Option.map_some, List.take_append,
      List.take_of_length_le hAll, List.length_drop]

end PageCache

end NuCachedSource

end FrameworksAv
