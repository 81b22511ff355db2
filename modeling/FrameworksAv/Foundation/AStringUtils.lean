import FrameworksAv.Base.Bytes
import Mathlib.Data.List.Infix

/-
  Globs (`AStringUtils`, AStringUtils.cpp).

  A pointer into a string is the rest of the string; without a result there was a read behind it.

  Main declarations:
    * `Compare`, `MatchesGlob`
    * `Expands`
    * `search_spec`
    * `matchesGlob_iff`
-/

--
-- Code
--

namespace FrameworksAv

namespace AStringUtils

/- `'*'` -/
def STAR : Byte := 0x2A

def tolower (c : Byte) : Byte :=
  if 0x41 ≤ c.toNat ∧ c.toNat ≤ 0x5A then c + 0x20 else c

def fold (ignoreCase : Bool) (c : Byte) : Byte :=
  if ignoreCase then tolower c else c

/- Whether `strncasecmp` or `strncmp` is 0. -/
def Compare (ignoreCase : Bool) : Nat → List Byte → List Byte → Option Bool
| 0, _, _ => some true
| len + 1, a :: as, b :: bs =>
  if fold ignoreCase a ≠ fold ignoreCase b then some false
  else if a = 0 then some true
  else Compare ignoreCase len as bs
| _, _, _ => none

/- The loop that progresses after the first occurrence; it ends in front of it. -/
def search (ignoreCase : Bool) (pattern : List Byte) (len : Nat) :
    List Byte → Option (Option (List Byte))
| [] => if len ≤ 0 then some (some []) else some none
| c :: str =>
  if len ≤ (c :: str).length then
    match Compare ignoreCase len (c :: str) pattern with
    | none => none
    | some true => some (some (c :: str))
    | some false => search ignoreCase pattern len str
  else some none

/- The loop over sections; both pointers are where the one before ended. -/
def matchSections (ignoreCase : Bool) (str : List Byte) : List Byte → Option Bool
| [] => some str.isEmpty
| _ :: start =>
  let len := (start.takeWhile (· ≠ STAR)).length
  if start.length ≤ len then
    if str.length < len then some false
    else Compare ignoreCase len (str.drop (str.length - len)) start
  else
    match search ignoreCase start len str with
    | none => none
    | some none => some false
    | some (some found) => matchSections ignoreCase (found.drop len) (start.drop len)
termination_by glob => glob.length
decreasing_by
  rw [List.length_drop, List.length_cons]
  omega

def MatchesGlob (glob str : List Byte) (ignoreCase : Bool) : Option Bool :=
  let globIx := (glob.takeWhile (· ≠ STAR)).length
  if str.length < globIx then some false
  else
    match Compare ignoreCase globIx str glob with
    | none => none
    | some false => some false
    | some true => matchSections ignoreCase (str.drop globIx) (glob.drop globIx)

--
-- Meaning
--

/- The string is the glob with a string for each `'*'`. -/
def Expands (ignoreCase : Bool) : List Byte → List Byte → Prop
| [], str => str = []
| c :: glob, str =>
  if c = STAR then ∃ any rest, str = any ++ rest ∧ Expands ignoreCase glob rest
  else ∃ d rest, str = d :: rest ∧ fold ignoreCase d = fold ignoreCase c ∧ Expands ignoreCase glob rest

/- The string starts with the part, up to case. -/
def Starts (ignoreCase : Bool) (part str : List Byte) : Prop :=
  part.map (fold ignoreCase) <+: str.map (fold ignoreCase)

section Meaning

variable {ignoreCase : Bool} {part str glob : List Byte}

theorem Starts.length_le (hStarts : Starts ignoreCase part str) : part.length ≤ str.length := by
  simpa using List.IsPrefix.length_le hStarts

theorem expands_star (str : List Byte) :
    Expands ignoreCase (STAR :: glob) str ↔ ∃ rest, rest <:+ str ∧ Expands ignoreCase glob rest := by
  rw [Expands, if_pos rfl]
  constructor
  · rintro ⟨any, rest, rfl, hRest⟩
    exact ⟨rest, List.suffix_append any rest, hRest⟩
  · rintro ⟨rest, ⟨any, hStr⟩, hRest⟩
    exact ⟨any, rest, hStr.symm, hRest⟩

/- What is in front goes into the first star. -/
theorem expands_of_suffix {rest : List Byte} (hSuffix : rest <:+ str)
    (hRest : Expands ignoreCase (STAR :: glob) rest) : Expands ignoreCase (STAR :: glob) str := by
  rw [expands_star] at *
  rcases hRest with ⟨last, hLast, hExpands⟩
  exact ⟨last, hLast.trans hSuffix, hExpands⟩

theorem expands_append (hPart : STAR ∉ part) (str : List Byte) :
    Expands ignoreCase (part ++ glob) str ↔
      Starts ignoreCase part str ∧ Expands ignoreCase glob (str.drop part.length) := by
  induction part generalizing str with
  | nil => simp [Starts]
  | cons c part ih =>
    rcases not_or.mp (mt List.mem_cons.mpr hPart) with ⟨hFirst, hRest⟩
    rw [List.cons_append, Expands, if_neg (Ne.symm hFirst)]
    cases str with
    | nil => simp [Starts]
    | cons d str =>
      rw [Starts, List.map_cons, List.map_cons, List.cons_prefix_cons, List.length_cons,
        List.drop_succ_cons, and_assoc, ← Starts, ← ih hRest str]
      constructor
      · rintro ⟨_, _, hCons, hFold, hExpands⟩
        cases hCons
        exact ⟨hFold.symm, hExpands⟩
      · rintro ⟨hFold, hExpands⟩
        exact ⟨d, str, rfl, hFold.symm, hExpands⟩

end Meaning

--
-- Sections
--

section Sections

variable {ignoreCase : Bool} {str start : List Byte} {len : Nat}

theorem compare_spec (hNul : 0 ∉ str) (hStr : len ≤ str.length) (hStart : len ≤ start.length) :
    ∃ equal, Compare ignoreCase len str start = some equal ∧
      (equal = true ↔ Starts ignoreCase (start.take len) str) := by
  induction len generalizing str start with
  | zero => exact ⟨true, rfl, iff_of_true rfl (by simp [Starts])⟩
  | succ len ih =>
    cases str with
    | nil => exact absurd hStr (Nat.not_succ_le_zero len)
    | cons a str =>
      cases start with
      | nil => exact absurd hStart (Nat.not_succ_le_zero len)
      | cons b start =>
        rcases not_or.mp (mt List.mem_cons.mpr hNul) with ⟨hFirst, hRest⟩
        rw [Compare, List.take_succ_cons, Starts, List.map_cons, List.map_cons,
          List.cons_prefix_cons]
        split
        · rename_i hFold
          exact ⟨false, rfl, iff_of_false Bool.false_ne_true fun h => hFold h.1.symm⟩
        · rename_i hFold
          rw [if_neg (Ne.symm hFirst), and_iff_right (not_not.mp hFold).symm]
          exact ih hRest (Nat.le_of_succ_le_succ hStr) (Nat.le_of_succ_le_succ hStart)

/- The first occurrence: every other one is behind it. -/
theorem search_spec (hNul : 0 ∉ str) (hStart : len ≤ start.length) :
    (search ignoreCase start len str = some none ∧
        ∀ rest, rest <:+ str → ¬Starts ignoreCase (start.take len) rest) ∨
      ∃ found, search ignoreCase start len str = some (some found) ∧ found <:+ str ∧
        Starts ignoreCase (start.take len) found ∧
        ∀ rest, rest <:+ str → Starts ignoreCase (start.take len) rest → rest <:+ found := by
  have hShort : ∀ rest : List Byte, rest.length < len → ¬Starts ignoreCase (start.take len) rest := by
    intro rest hRest hStarts
    have hLength := hStarts.length_le
    rw [List.length_take] at hLength
    omega
  induction str with
  | nil =>
    unfold search
    split
    · rename_i hZero
      rw [Nat.le_zero.mp hZero]
      exact .inr ⟨[], rfl, List.suffix_refl _, by simp [Starts], fun rest hRest _ => hRest⟩
    · refine .inl ⟨rfl, fun rest hRest => hShort rest ?_⟩
      rw [List.suffix_nil.mp hRest]
      exact Nat.pos_of_ne_zero fun h => by omega
  | cons c str ih =>
    unfold search
    split
    · rename_i hFits
      rcases compare_spec hNul hFits hStart with ⟨equal, hCompare, hEqual⟩
      rw [hCompare]
      cases equal with
      | true => exact .inr ⟨_, rfl, List.suffix_refl _, hEqual.mp rfl, fun rest hRest _ => hRest⟩
      | false =>
        have hNot : ¬Starts ignoreCase (start.take len) (c :: str) := fun h =>
          Bool.false_ne_true (hEqual.mpr h)
        rcases ih (fun h => hNul (List.mem_cons_of_mem c h)) with
          ⟨hNone, hAll⟩ | ⟨found, hFound, hSuffix, hStarts, hFirst⟩
        · refine .inl ⟨hNone, fun rest hRest => ?_⟩
          rcases List.suffix_cons_iff.mp hRest with rfl | hRest
          · exact hNot
          · exact hAll rest hRest
        · refine .inr ⟨found, hFound, hSuffix.trans (List.suffix_cons c str), hStarts, ?_⟩
          intro rest hRest hRestStarts
          rcases List.suffix_cons_iff.mp hRest with rfl | hRest
          · exact absurd hRestStarts hNot
          · exact hFirst rest hRest hRestStarts
    · rename_i hFits
      refine .inl ⟨rfl, fun rest hRest => hShort rest ?_⟩
      exact Nat.lt_of_le_of_lt hRest.length_le (Nat.not_le.mp hFits)

theorem drop_suffix_drop {rest found : List Byte} (hSuffix : rest <:+ found) (len : Nat) :
    rest.drop len <:+ found.drop len := by
  rcases hSuffix with ⟨front, rfl⟩
  rw [List.drop_append]
  apply List.IsSuffix.trans _ (List.suffix_append _ _)
  have hDrop : rest.drop len = (rest.drop (len - front.length)).drop (len - (len - front.length)) := by
    rw [List.drop_drop]
    congr 1
    omega
  rw [hDrop]
  exact List.drop_suffix _ _

/- A section, and the star behind it unless it is the last one. -/
theorem exists_section (glob : List Byte) :
    ∃ part next, glob = part ++ next ∧ glob.takeWhile (· ≠ STAR) = part ∧ STAR ∉ part ∧
      (next = [] ∨ ∃ start, next = STAR :: start) := by
  induction glob with
  | nil => exact ⟨[], [], rfl, rfl, List.not_mem_nil, .inl rfl⟩
  | cons c glob ih =>
    by_cases hStar : c = STAR
    · subst hStar
      exact ⟨[], _, rfl, rfl, List.not_mem_nil, .inr ⟨glob, rfl⟩⟩
    · rcases ih with ⟨part, next, rfl, hTake, hPart, hNext⟩
      refine ⟨c :: part, next, rfl, ?_, ?_, hNext⟩
      · rw [List.takeWhile_cons_of_pos (by simpa using hStar), hTake]
      · exact List.not_mem_cons_of_ne_of_not_mem (Ne.symm hStar) hPart

/- The last section is the tail of the string. -/
theorem expands_last (hStart : STAR ∉ start) (str : List Byte) :
    Expands ignoreCase (STAR :: start) str ↔
      start.length ≤ str.length ∧
        Starts ignoreCase start (str.drop (str.length - start.length)) := by
  have hSection : ∀ rest, Expands ignoreCase start rest ↔
      Starts ignoreCase start rest ∧ rest.drop start.length = [] := by
    intro rest
    rw [← List.append_nil start, expands_append hStart rest, List.append_nil, Expands]
  rw [expands_star]
  constructor
  · rintro ⟨rest, hRest, hExpands⟩
    rcases (hSection rest).mp hExpands with ⟨hStarts, hNil⟩
    have hLength : rest.length = start.length :=
      Nat.le_antisymm (List.drop_eq_nil_iff.mp hNil) hStarts.length_le
    rw [← hLength, ← List.suffix_iff_eq_drop.mp hRest]
    exact ⟨hRest.length_le, hStarts⟩
  · rintro ⟨hLength, hStarts⟩
    refine ⟨_, List.drop_suffix _ _, (hSection _).mpr ⟨hStarts, ?_⟩⟩
    rw [List.drop_eq_nil_iff, List.length_drop]
    omega

theorem not_mem_of_suffix {rest : List Byte} (hNul : 0 ∉ str) (hSuffix : rest <:+ str) :
    0 ∉ rest := fun h => hNul (hSuffix.subset h)

theorem matchSections_spec {glob : List Byte} (hNul : 0 ∉ str)
    (hGlob : glob = [] ∨ ∃ start, glob = STAR :: start) :
    ∃ found, matchSections ignoreCase str glob = some found ∧
      (found = true ↔ Expands ignoreCase glob str) := by
  induction hLength : glob.length using Nat.strong_induction_on generalizing glob str with
  | _ size ih =>
    subst hLength
    rcases hGlob with rfl | ⟨start, rfl⟩
    · exact ⟨_, matchSections.eq_1 _ _, by simp [Expands]⟩
    · rcases exists_section start with ⟨part, next, rfl, hTake, hPart, hNext⟩
      rw [matchSections, hTake]
      rcases hNext with rfl | ⟨start, rfl⟩
      · rw [List.append_nil, if_pos (Nat.le_refl _), expands_last hPart]
        split
        · rename_i hShort
          exact ⟨false, rfl, iff_of_false Bool.false_ne_true fun h => Nat.not_le.mpr hShort h.1⟩
        · rename_i hFits
          have hLength := Nat.not_lt.mp hFits
          rw [and_iff_right hLength]
          have hTail : part.length ≤ (str.drop (str.length - part.length)).length := by
            rw [List.length_drop]
            omega
          simpa using
            compare_spec (not_mem_of_suffix hNul (List.drop_suffix _ _)) hTail (Nat.le_refl _)
      · rw [if_neg (by simp)]
        have hFits : part.length ≤ (part ++ STAR :: start).length := by simp
        rcases @search_spec ignoreCase _ _ _ hNul hFits with
          ⟨hNone, hAll⟩ | ⟨found, hFound, hSuffix, hStarts, hFirst⟩
        · rw [hNone]
          refine ⟨false, rfl, iff_of_false Bool.false_ne_true fun h => ?_⟩
          rcases (expands_star str).mp h with ⟨rest, hRest, hExpands⟩
          rw [List.take_left] at hAll
          exact hAll rest hRest ((expands_append hPart rest).mp hExpands).1
        · rw [List.take_left] at hStarts hFirst
          rw [hFound, List.drop_left]
          have hFoundNul := not_mem_of_suffix (not_mem_of_suffix hNul hSuffix)
            (List.drop_suffix part.length found)
          have hShorter : (STAR :: start).length < (STAR :: (part ++ STAR :: start)).length := by
            rw [List.length_cons, List.length_cons, List.length_append, List.length_cons]
            omega
          rcases ih _ hShorter hFoundNul (.inr ⟨start, rfl⟩) rfl with ⟨equal, hEqual, hIff⟩
          refine ⟨equal, hEqual, hIff.trans (Iff.trans ?_ (expands_star str).symm)⟩
          constructor
          · intro hExpands
            exact ⟨found, hSuffix, (expands_append hPart found).mpr ⟨hStarts, hExpands⟩⟩
          · rintro ⟨rest, hRest, hExpands⟩
            rcases (expands_append hPart rest).mp hExpands with ⟨hRestStarts, hBehind⟩
            exact
              expands_of_suffix (drop_suffix_drop (hFirst rest hRest hRestStarts) _) hBehind

end Sections

/- The code says whether the string is the glob with strings for stars, and reads nothing else. -/
theorem matchesGlob_iff (glob : List Byte) {str : List Byte} (ignoreCase : Bool)
    (hNul : 0 ∉ str) :
    ∃ found, MatchesGlob glob str ignoreCase = some found ∧
      (found = true ↔ Expands ignoreCase glob str) := by
  rcases exists_section glob with ⟨part, next, rfl, hTake, hPart, hNext⟩
  rw [MatchesGlob, hTake, List.drop_left, expands_append hPart]
  split
  · rename_i hShort
    exact
      ⟨false, rfl, iff_of_false Bool.false_ne_true fun h => Nat.not_le.mpr hShort h.1.length_le⟩
  · rename_i hFits
    have hGlob : part.length ≤ (part ++ next).length := by simp
    rcases @compare_spec ignoreCase _ _ _ hNul (Nat.not_lt.mp hFits) hGlob with
      ⟨equal, hEqual, hIff⟩
    rw [List.take_left] at hIff
    rw [hEqual]
    cases equal with
    | true =>
      rw [and_iff_right (hIff.mp rfl)]
      exact matchSections_spec (not_mem_of_suffix hNul (List.drop_suffix _ _)) hNext
    | false =>
      exact
        ⟨false, rfl, iff_of_false Bool.false_ne_true fun h => Bool.false_ne_true (hIff.mpr h.1)⟩

/- `*1` and `1` -/
theorem matchesGlob_iff_tail :
    ∃ found, MatchesGlob [STAR, 0x31] [0x31] true = some found ∧
      (found = true ↔ Expands true [STAR, 0x31] [0x31]) :=
  matchesGlob_iff [STAR, 0x31] true (by decide)

end AStringUtils

end FrameworksAv
