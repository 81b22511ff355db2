import FrameworksAv.Base.Bytes
import Mathlib.Data.List.Infix
import Mathlib.Data.List.GetD
import Mathlib.Data.Nat.Find

/-
  Splitting a buffer at its start codes (`getNextNALUnit`, media/libstagefright/avc_utils.cpp).

  `*_data` is a suffix of the buffer, and empty when it is `NULL`; offsets are from its start.

  Main declarations:
    * `getNextNALUnit`, `nalUnits`
    * `getNextNALUnit_body`
    * `nalUnits_inside`, `nalUnits_nonempty_iff`
    * `nalUnits_stream_iff`
-/

--
-- The Next Unit
--

namespace FrameworksAv

namespace AVCUtils

/- A start code: two bytes 0 and a byte 1. -/
def StartsAt (data : List Byte) (k : Nat) : Prop :=
  data[k]? = some 0 ∧ data[k + 1]? = some 0 ∧ data[k + 2]? = some 1

instance (data : List Byte) (k : Nat) : Decidable (StartsAt data k) :=
  inferInstanceAs (Decidable (data[k]? = some 0 ∧ data[k + 1]? = some 0 ∧ data[k + 2]? = some 1))

/- The first loop, at most once for each byte. -/
def findStartCode (data : List Byte) : Nat → Nat → Nat
| 0, offset => offset
| turns + 1, offset =>
  if offset + 2 < data.length then
    if data[offset + 2]? = some 1 ∧ data[offset]? = some 0 ∧ data[offset + 1]? = some 0 then offset
    else findStartCode data turns (offset + 1)
  else offset

/- The second loop with the loop inside it: the next byte 1 behind two bytes 0, or the end. -/
def findNextCode (data : List Byte) : Nat → Nat → Nat
| 0, offset => offset
| turns + 1, offset =>
  if offset < data.length then
    if data[offset]? = some 1 ∧ data[offset - 1]? = some 0 ∧ data[offset - 2]? = some 0 then offset
    else findNextCode data turns (offset + 1)
  else offset

/- The third loop takes zeros off the end. -/
def trimZeros (data : List Byte) (startOffset : Nat) : Nat → Nat
| 0 => 0
| endOffset + 1 =>
  if startOffset + 1 < endOffset + 1 ∧ data[endOffset]? = some 0 then
    trimZeros data startOffset endOffset
  else endOffset + 1

/- `*nalStart` and `*nalSize`, and `*_data` afterwards. -/
structure NALUnit where
  nalStart : Nat
  nalSize : Nat
  data : List Byte

/- `none` is `-EAGAIN`. -/
def getNextNALUnit (data : List Byte) (startCodeFollows : Bool) : Option NALUnit :=
  let size := data.length
  if size < 3 then none
  else
    let offset := findStartCode data size 0
    if size ≤ offset + 2 then none
    else
      let startOffset := offset + 3
      let found := findNextCode data size startOffset
      if found = size ∧ startCodeFollows = false then none
      else
        let offset := if found = size then size + 2 else found
        let endOffset := trimZeros data startOffset (offset - 2)
        some
          { nalStart := startOffset
            nalSize := endOffset - startOffset
            data := if offset + 2 < size then data.drop (offset - 2)
              else [] }

/-
  The units of a loop over `getNextNALUnit`: where each starts in the buffer, and its size. `base`
  is where `data` is; `none` is a loop that takes too many turns.
-/
def nalUnits : Nat → Nat → List Byte → Option (List (Nat × Nat))
| 0, _, _ => none
| turns + 1, base, data =>
  match getNextNALUnit data true with
  | none => some []
  | some nal =>
    (nalUnits turns (base + (data.length - nal.data.length))
      nal.data).map ((base + nal.nalStart, nal.nalSize) :: ·)

--
-- Searches
--

variable {data : List Byte}

theorem StartsAt.lt {k : Nat} (h : StartsAt data k) : k + 2 < data.length := by
  by_contra hNot
  have hNone := h.2.2
  rw [List.getElem?_eq_none (by omega)] at hNone
  cases hNone

/- Start codes do not overlap. -/
theorem StartsAt.apart {k j : Nat} (h : StartsAt data k) (hj : k < j) (hNear : j < k + 3) :
    ¬StartsAt data j := by
  intro h'
  have hOne := h.2.2
  rcases (by omega : j = k + 1 ∨ j = k + 2) with rfl | rfl
  · rw [h'.2.1] at hOne
    cases hOne
  · rw [h'.1] at hOne
    cases hOne

/- The first loop finds the first start code, or none. -/
theorem findStartCode_spec (data : List Byte) (turns offset : Nat)
    (hTurns : data.length ≤ turns + offset) :
    let found := findStartCode data turns offset
    (∀ k, offset ≤ k → k < found → ¬StartsAt data k) ∧
      (data.length ≤ found + 2 ∨ offset ≤ found ∧ StartsAt data found) := by
  induction turns generalizing offset with
  | zero =>
    refine ⟨fun k hk hLess => ?_, Or.inl ?_⟩
    · rw [findStartCode] at hLess
      omega
    · rw [findStartCode]
      omega
  | succ turns ih =>
    rw [findStartCode]
    by_cases hMore : offset + 2 < data.length
    · rw [if_pos hMore]
      by_cases hCode :
          data[offset + 2]? = some 1 ∧ data[offset]? = some 0 ∧ data[offset + 1]? = some 0
      · rw [if_pos hCode]
        exact
          ⟨fun k hk hLess => absurd hLess (by omega),
            Or.inr ⟨Nat.le_refl _, hCode.2.1, hCode.2.2, hCode.1⟩⟩
      · rw [if_neg hCode]
        rcases ih (offset + 1) (by omega) with ⟨hBefore, hFound⟩
        refine ⟨fun k hk hLess hStart => ?_, ?_⟩
        · rcases Nat.eq_or_lt_of_le hk with hSame | hLater
          · rw [← hSame] at hStart
            exact hCode ⟨hStart.2.2, hStart.1, hStart.2.1⟩
          · exact hBefore k hLater hLess hStart
        · rcases hFound with hEnd | ⟨hLe, hStart⟩
          · exact Or.inl hEnd
          · exact Or.inr ⟨by omega, hStart⟩
    · rw [if_neg hMore]
      exact ⟨fun k hk hLess => absurd hLess (by omega), Or.inl (by omega)⟩

/- The second loop finds the next start code behind the one that it starts after, or the end. -/
theorem findNextCode_spec (data : List Byte) (turns offset : Nat) (hTwo : 2 ≤ offset)
    (hLe : offset ≤ data.length) (hTurns : data.length ≤ turns + offset) :
    let found := findNextCode data turns offset
    (∀ k, offset ≤ k + 2 → k + 2 < found → ¬StartsAt data k) ∧
      (found = data.length ∨ offset ≤ found ∧ StartsAt data (found - 2)) := by
  induction turns generalizing offset with
  | zero =>
    rw [findNextCode]
    exact ⟨fun k hk hLess => absurd hLess (by omega), Or.inl (by omega)⟩
  | succ turns ih =>
    rw [findNextCode]
    by_cases hMore : offset < data.length
    · rw [if_pos hMore]
      by_cases hCode :
          data[offset]? = some 1 ∧ data[offset - 1]? = some 0 ∧ data[offset - 2]? = some 0
      · rw [if_pos hCode]
        have hOne : offset - 2 + 1 = offset - 1 := by omega
        have hBack : offset - 2 + 2 = offset := by omega
        refine
          ⟨fun k hk hLess => absurd hLess (by omega), Or.inr ⟨Nat.le_refl _, hCode.2.2, ?_, ?_⟩⟩
        · rw [hOne]
          exact hCode.2.1
        · rw [hBack]
          exact hCode.1
      · rw [if_neg hCode]
        rcases ih (offset + 1) (by omega) (by omega) (by omega) with ⟨hBefore, hFound⟩
        refine ⟨fun k hk hLess hStart => ?_, ?_⟩
        · rcases Nat.eq_or_lt_of_le hk with hSame | hLater
          · rw [hSame] at hCode
            exact hCode ⟨hStart.2.2, hStart.2.1, hStart.1⟩
          · exact hBefore k hLater hLess hStart
        · rcases hFound with hEnd | ⟨hLe', hStart⟩
          · exact Or.inl hEnd
          · exact Or.inr ⟨by omega, hStart⟩
    · rw [if_neg hMore]
      exact ⟨fun k hk hLess => absurd hLess (by omega), Or.inl (by omega)⟩

theorem trimZeros_spec (data : List Byte) (startOffset endOffset : Nat) :
    trimZeros data startOffset endOffset ≤ endOffset ∧
      min (startOffset + 1) endOffset ≤ trimZeros data startOffset endOffset := by
  induction endOffset with
  | zero => simp [trimZeros]
  | succ endOffset ih =>
    rw [trimZeros]
    split
    · omega
    · omega

/- Where a byte that is not zero ends the run of zeros. -/
theorem trimZeros_eq (startOffset : Nat) {endOffset : Nat} {byte : Byte}
    (hByte : data[endOffset]? = some byte) (hNot : byte ≠ 0) (zeros : Nat)
    (hStart : startOffset ≤ endOffset)
    (hZeros : ∀ k, endOffset < k → k < endOffset + 1 + zeros → data[k]? = some 0) :
    trimZeros data startOffset (endOffset + 1 + zeros) = endOffset + 1 := by
  induction zeros with
  | zero =>
    rw [Nat.add_zero, trimZeros, if_neg]
    rintro ⟨-, hZero⟩
    rw [hByte] at hZero
    exact hNot (Option.some.inj hZero)
  | succ zeros ih =>
    have hLast := hZeros (endOffset + 1 + zeros) (by omega) (by omega)
    rw [← Nat.add_assoc, trimZeros, if_pos ⟨by omega, hLast⟩]
    exact ih fun k hk hLess => hZeros k hk (by omega)

--
-- One Turn
--

/- No start code comes before this one. -/
def FirstAt (data : List Byte) (k : Nat) : Prop :=
  StartsAt data k ∧ ∀ j, j < k → ¬StartsAt data j

/- `found` is the first start code behind the one at `k`. -/
def NextAt (data : List Byte) (k found : Nat) : Prop :=
  k < found ∧ StartsAt data found ∧ ∀ j, k < j → j < found → ¬StartsAt data j

/- A buffer has no start code, one, or two and perhaps more. -/
theorem codes_cases (data : List Byte) :
    (∀ k, ¬StartsAt data k) ∨ (∃ k, FirstAt data k ∧ ∀ j, k < j → ¬StartsAt data j) ∨
      ∃ k found, FirstAt data k ∧ NextAt data k found := by
  by_cases hAny : ∃ k, StartsAt data k
  · right
    have hFirst : FirstAt data (Nat.find hAny) := ⟨Nat.find_spec hAny, fun j => Nat.find_min hAny⟩
    by_cases hMore : ∃ j, Nat.find hAny < j ∧ StartsAt data j
    · right
      refine ⟨_, Nat.find hMore, hFirst, ?_, ?_, ?_⟩
      · exact (Nat.find_spec hMore).1
      · exact (Nat.find_spec hMore).2
      · intro j hj hLess hStart
        exact Nat.find_min hMore hLess ⟨hj, hStart⟩
    · left
      exact ⟨_, hFirst, fun j hj hStart => hMore ⟨j, hj, hStart⟩⟩
  · left
    exact fun k hStart => hAny ⟨k, hStart⟩

theorem findStartCode_first {k : Nat} (hFirst : FirstAt data k) :
    findStartCode data data.length 0 = k := by
  have hLt := hFirst.1.lt
  rcases findStartCode_spec data data.length 0 (by omega) with
    ⟨hBefore, hFound⟩
  by_contra hNe
  rcases hFound with hEnd | ⟨-, hStart⟩
  · exact hBefore k (Nat.zero_le _) (by omega) hFirst.1
  · rcases Nat.lt_or_gt_of_ne hNe with hLess | hMore
    · exact hFirst.2 _ hLess hStart
    · exact hBefore k (Nat.zero_le _) hMore hFirst.1

theorem NextAt.apart {k found : Nat} (hStart : StartsAt data k) (hNext : NextAt data k found) :
    k + 3 ≤ found := by
  by_contra hNear
  exact hStart.apart hNext.1 (by omega) hNext.2.1

theorem findNextCode_next {k found : Nat} (hStart : StartsAt data k) (hNext : NextAt data k found) :
    findNextCode data data.length (k + 3) = found + 2 := by
  have hLt := hStart.lt
  have hFar := hNext.apart hStart
  have hIn := hNext.2.1.lt
  rcases findNextCode_spec data data.length (k + 3) (by omega)
      (by omega) (by omega) with
    ⟨hBefore, hFound⟩
  by_contra hNe
  rcases hFound with hEnd | ⟨hLe, hCode⟩
  · exact hBefore found (by omega) (by omega) hNext.2.1
  · rcases Nat.lt_or_gt_of_ne hNe with hLess | hMore
    · exact hNext.2.2 _ (by omega) (by omega) hCode
    · exact hBefore found (by omega) hMore hNext.2.1

theorem findNextCode_last {k : Nat} (hStart : StartsAt data k)
    (hLast : ∀ j, k < j → ¬StartsAt data j) :
    findNextCode data data.length (k + 3) = data.length := by
  have hLt := hStart.lt
  rcases findNextCode_spec data data.length (k + 3) (by omega)
      (by omega) (by omega) with
    ⟨-, hEnd | ⟨hLe, hCode⟩⟩
  · exact hEnd
  · exact absurd hCode (hLast _ (by omega))

theorem getNextNALUnit_none (hNone : ∀ k, ¬StartsAt data k) : getNextNALUnit data true = none := by
  by_cases hShort : data.length < 3
  · simp [getNextNALUnit, hShort]
  · have hEnd : data.length ≤ findStartCode data data.length 0 + 2 := by
      rcases findStartCode_spec data data.length 0 (by omega) with
        ⟨-, hEnd | ⟨-, hStart⟩⟩
      · exact hEnd
      · exact absurd hStart (hNone _)
    simp only [getNextNALUnit, if_neg hShort, if_pos hEnd]

/- The unit between two start codes. -/
theorem getNextNALUnit_next {k found : Nat} (hFirst : FirstAt data k)
    (hNext : NextAt data k found) :
    getNextNALUnit data true =
      some
        { nalStart := k + 3
          nalSize := trimZeros data (k + 3) found - (k + 3)
          data := if found + 4 < data.length then data.drop found
            else [] } := by
  have hLt := hFirst.1.lt
  have hIn := hNext.2.1.lt
  have hShort : ¬data.length < 3 := by omega
  have hSome : ¬data.length ≤ k + 2 := by omega
  have hNot : found + 2 ≠ data.length := by omega
  simp only [getNextNALUnit, if_neg hShort, findStartCode_first hFirst, if_neg hSome,
    findNextCode_next hFirst.1 hNext, hNot, false_and, if_false, Nat.add_sub_cancel]

/- The last unit. -/
theorem getNextNALUnit_last {k : Nat} (hFirst : FirstAt data k)
    (hLast : ∀ j, k < j → ¬StartsAt data j) :
    getNextNALUnit data true =
      some
        { nalStart := k + 3
          nalSize := trimZeros data (k + 3) data.length - (k + 3)
          data := [] } := by
  have hLt := hFirst.1.lt
  have hShort : ¬data.length < 3 := by omega
  have hSome : ¬data.length ≤ k + 2 := by omega
  have hEnd : ¬data.length + 2 + 2 < data.length := by omega
  simp only [getNextNALUnit, if_neg hShort, findStartCode_first hFirst, if_neg hSome,
    findNextCode_last hFirst.1 hLast, Bool.true_eq_false, and_false, if_false, if_true, if_neg hEnd,
    Nat.add_sub_cancel]

--
-- Any Buffer
--

/- The cursor moves on, and a unit is inside what it leaves. -/
theorem getNextNALUnit_inside {nal : NALUnit} (h : getNextNALUnit data true = some nal) :
    nal.data.length < data.length ∧ nal.nalStart + nal.nalSize ≤ data.length := by
  rcases codes_cases data with
    hNone | ⟨k, hFirst, hLast⟩ | ⟨k, found, hFirst, hNext⟩
  · rw [getNextNALUnit_none hNone] at h
    cases h
  · rw [getNextNALUnit_last hFirst hLast] at h
    cases h
    have hLt := hFirst.1.lt
    have hTrim := (trimZeros_spec data (k + 3) data.length).1
    exact ⟨by rw [List.length_nil]; omega, by simp only; omega⟩
  · rw [getNextNALUnit_next hFirst hNext] at h
    cases h
    have hIn := hNext.2.1.lt
    have hLt := hNext.1
    have hFar := hNext.apart hFirst.1
    have hTrim := (trimZeros_spec data (k + 3) found).1
    refine ⟨?_, by simp only; omega⟩
    split
    · rw [List.length_drop]
      omega
    · rw [List.length_nil]
      omega

/- A unit in front of a start code is found either way. -/
theorem getNextNALUnit_of_followed {nal : NALUnit} (h : getNextNALUnit data false = some nal) :
    getNextNALUnit data true = some nal := by
  unfold getNextNALUnit at h ⊢
  simp only [Bool.true_eq_false, and_false, if_false] at h ⊢
  split
  next hShort =>
    rw [if_pos hShort] at h
    cases h
  next hShort =>
    rw [if_neg hShort] at h
    split
    next hNone =>
      rw [if_pos hNone] at h
      cases h
    next hNone =>
      rw [if_neg hNone] at h
      split at h
      · cases h
      · exact h

/- The loop ends, and every unit is inside the buffer. -/
theorem nalUnits_inside (data : List Byte) {turns : Nat} (base : Nat)
    (hTurns : data.length < turns) :
    ∃ units,
      nalUnits turns base data = some units ∧
        ∀ unit ∈ units, base ≤ unit.1 ∧ unit.1 + unit.2 ≤ base + data.length := by
  induction turns generalizing base data with
  | zero => omega
  | succ turns ih =>
    rw [nalUnits]
    cases hNal : getNextNALUnit data true with
    | none => exact ⟨[], rfl, fun unit hUnit => by cases hUnit⟩
    | some nal =>
      rcases getNextNALUnit_inside hNal with ⟨hLess, hUnit⟩
      rcases ih nal.data (base + (data.length - nal.data.length)) (by omega) with
        ⟨units, hUnits, hInside⟩
      refine ⟨(base + nal.nalStart, nal.nalSize) :: units, ?_, ?_⟩
      · simp only [hUnits, Option.map_some]
      · intro unit hMem
        rcases List.mem_cons.mp hMem with rfl | hRest
        · simp only
          omega
        · rcases hInside unit hRest with ⟨hLow, hHigh⟩
          omega

/-
  A start code with nothing behind it: another one follows at once, or it is the first and the
  buffer ends.
-/
def Bare (data : List Byte) : Prop :=
  ∃ k,
    StartsAt data k ∧ (StartsAt data (k + 3) ∨ k + 3 = data.length ∧ ∀ j, j < k → ¬StartsAt data j)

theorem startsAt_drop (n k : Nat) : StartsAt (data.drop n) k ↔ StartsAt data (n + k) := by
  simp only [StartsAt, List.getElem?_drop, Nat.add_assoc]

theorem not_bare_nil : ¬Bare [] := by
  rintro ⟨k, hStart, -⟩
  cases hStart.1

/- Behind the first unit a buffer is bare as a whole is. -/
theorem bare_next {k found : Nat} (hFirst : FirstAt data k) (hNext : NextAt data k found) :
    Bare data ↔ k + 3 = found ∨ Bare (if found + 4 < data.length then data.drop found else []) := by
  have hLt := hNext.1
  have hIn := hNext.2.1.lt
  constructor
  · rintro ⟨j, hStart, hBare⟩
    have hj : k ≤ j := by
      by_contra hLess
      exact hFirst.2 j (by omega) hStart
    rcases hBare with hMore | ⟨hEnd, hOnly⟩
    · have hMoreIn := hMore.lt
      rcases Nat.eq_or_lt_of_le hj with rfl | hLater
      · left
        by_contra hNe
        have hFar := hNext.apart hFirst.1
        exact hNext.2.2 _ (by omega) (by omega) hMore
      · right
        have hFound : found ≤ j := by
          by_contra hLess
          exact hNext.2.2 j hLater (by omega) hStart
        rw [if_pos (by omega)]
        refine ⟨j - found, ?_, Or.inl ?_⟩
        · rw [startsAt_drop]
          have hBack : found + (j - found) = j := by omega
          rw [hBack]
          exact hStart
        · rw [startsAt_drop]
          have hBack : found + (j - found + 3) = j + 3 := by
            omega
          rw [hBack]
          exact hMore
    · exact absurd hFirst.1 (hOnly k (by omega))
  · rintro (hEmpty | hRest)
    · refine ⟨k, hFirst.1, Or.inl ?_⟩
      rw [hEmpty]
      exact hNext.2.1
    · by_cases hFar : found + 4 < data.length
      · rw [if_pos hFar] at hRest
        rcases hRest with ⟨j, hStart, hBare⟩
        rw [startsAt_drop] at hStart
        rcases hBare with hMore | ⟨hEnd, hOnly⟩
        · rw [startsAt_drop, ← Nat.add_assoc] at hMore
          exact ⟨_, hStart, Or.inl hMore⟩
        · rw [List.length_drop] at hEnd
          refine absurd ?_ (hOnly 0 (by omega))
          rw [startsAt_drop]
          exact hNext.2.1
      · rw [if_neg hFar] at hRest
        exact absurd hRest not_bare_nil

theorem bare_last {k : Nat} (hFirst : FirstAt data k) (hLast : ∀ j, k < j → ¬StartsAt data j) :
    Bare data ↔ k + 3 = data.length := by
  constructor
  · rintro ⟨j, hStart, hMore | ⟨hEnd, hOnly⟩⟩
    · have hj : k ≤ j := by
        by_contra hLess
        exact hFirst.2 j (by omega) hStart
      exact absurd hMore (hLast _ (by omega))
    · rcases Nat.lt_trichotomy j k with hj | hj | hj
      · exact absurd hStart (hFirst.2 j hj)
      · rw [← hj]
        exact hEnd
      · exact absurd hFirst.1 (hOnly k hj)
  · intro hEnd
    exact ⟨k, hFirst.1, Or.inr ⟨hEnd, hFirst.2⟩⟩

/- A unit is empty only where a start code is bare. -/
theorem trimZeros_size (data : List Byte) {startOffset endOffset : Nat}
    (hLe : startOffset ≤ endOffset) :
    0 < trimZeros data startOffset endOffset - startOffset ↔ startOffset ≠ endOffset := by
  have hTrim := trimZeros_spec data startOffset endOffset
  omega

theorem nalUnits_nonempty_iff {turns base : Nat} {units : List (Nat × Nat)}
    (h : nalUnits turns base data = some units) : (∀ unit ∈ units, 0 < unit.2) ↔ ¬Bare data := by
  induction turns generalizing base data units with
  | zero => cases h
  | succ turns ih =>
    rw [nalUnits] at h
    rcases codes_cases data with
      hNone | ⟨k, hFirst, hLast⟩ | ⟨k, found, hFirst, hNext⟩
    · rw [getNextNALUnit_none hNone] at h
      cases h
      constructor
      · rintro - ⟨k, hStart, -⟩
        exact hNone k hStart
      · intro hBare unit hUnit
        cases hUnit
    · rw [getNextNALUnit_last hFirst hLast] at h
      rcases Option.map_eq_some_iff.mp h with ⟨rest, hRest, rfl⟩
      have hLt := hFirst.1.lt
      have hSize :=
        trimZeros_size data (by omega : k + 3 ≤ data.length)
      have hTail := ih hRest
      simp only [not_bare_nil, not_false_eq_true, iff_true] at hTail
      rw [List.forall_mem_cons, bare_last hFirst hLast]
      exact ⟨fun hAll => hSize.mp hAll.1, fun hNe => ⟨hSize.mpr hNe, hTail⟩⟩
    · rw [getNextNALUnit_next hFirst hNext] at h
      rcases Option.map_eq_some_iff.mp h with ⟨rest, hRest, rfl⟩
      have hSize := trimZeros_size data (hNext.apart hFirst.1)
      rw [List.forall_mem_cons, bare_next hFirst hNext, ih hRest, not_or]
      simp only [hSize, ne_eq]

end AVCUtils

--
-- Streams
--

namespace AVCUtils

/- A start code of three or of four bytes. -/
def startCode (four : Bool) : List Byte :=
  if four then [0, 0, 0, 1] else [0, 0, 1]

/- Units with the start codes before them. -/
def joined : List (Bool × List Byte) → List Byte
| [] => []
| (four, unit) :: rest => startCode four ++ unit ++ joined rest

/- What a unit is to be so that start codes can divide it off. -/
structure IsUnit (unit : List Byte) : Prop where
  nonempty : unit ≠ []
  last : unit.getLast? ≠ some 0
  noCode : ∀ k, ¬StartsAt unit k

/- The bytes that were found. -/
def unitsIn (data : List Byte) (units : List (Nat × Nat)) : List (List Byte) :=
  units.map fun unit => (data.drop unit.1).take unit.2

theorem startsAt_append_left {xs : List Byte} (ys : List Byte) {k : Nat} (hIn : k + 2 < xs.length) :
    StartsAt (xs ++ ys) k ↔ StartsAt xs k := by
  unfold StartsAt
  rw [List.getElem?_append_left (by omega), List.getElem?_append_left (by omega),
    List.getElem?_append_left (by omega)]

theorem startsAt_append_right (xs ys : List Byte) (k : Nat) :
    StartsAt (xs ++ ys) (xs.length + k) ↔ StartsAt ys k := by
  have h : StartsAt ((xs ++ ys).drop xs.length) k ↔ _ := startsAt_drop xs.length k
  rw [List.drop_left] at h
  exact h.symm

/- The bytes of a stream from its first start code on. -/
def body : List (Bool × List Byte) → List Byte
| [] => []
| (_, unit) :: rest => [0, 0, 1] ++ unit ++ joined rest

/- The zero that the longer start code has more. -/
def zeros : List (Bool × List Byte) → List Byte
| [] => []
| (four, _) :: _ => if four then [0] else []

theorem joined_eq (stream : List (Bool × List Byte)) :
    joined stream = zeros stream ++ body stream := by
  cases stream with
  | nil => rfl
  | cons entry rest =>
    rcases entry with ⟨four, unit⟩
    cases four with
    | true => rfl
    | false => rfl

theorem zeros_short (stream : List (Bool × List Byte)) :
    zeros stream = [] ∨ zeros stream = [0] := by
  cases stream with
  | nil => exact Or.inl rfl
  | cons entry rest =>
    rcases entry with ⟨four, unit⟩
    cases four with
    | true => exact Or.inr rfl
    | false => exact Or.inl rfl

theorem body_starts (entry : Bool × List Byte) (rest : List (Bool × List Byte)) :
    StartsAt (body (entry :: rest)) 0 :=
  ⟨rfl, rfl, rfl⟩

/- The longer code has no start code at its first byte. -/
theorem not_startsAt_zeros (entry : Bool × List Byte) (rest : List (Bool × List Byte))
    {lead : List Byte} (hLead : lead = [] ∨ lead = [0]) {j : Nat} (hj : j < lead.length) :
    ¬StartsAt (lead ++ body (entry :: rest)) j := by
  intro hStart
  rcases hLead with rfl | rfl
  · cases hj
  · obtain rfl : j = 0 := by
      rw [List.length_singleton] at hj
      omega
    cases hStart.2.2

theorem body_firstAt (entry : Bool × List Byte) (rest : List (Bool × List Byte)) {lead : List Byte}
    (hLead : lead = [] ∨ lead = [0]) : FirstAt (lead ++ body (entry :: rest)) lead.length := by
  refine ⟨?_, fun j => not_startsAt_zeros entry rest hLead⟩
  have hBody := body_starts entry rest
  rw [← startsAt_append_right lead] at hBody
  exact hBody

/- No start code is in a unit, nor where it ends. -/
theorem IsUnit.not_startsAt {unit : List Byte} (hUnit : IsUnit unit)
    (rest : List (Bool × List Byte)) {i : Nat}
    (hi : rest ≠ [] → i < unit.length + (zeros rest).length) :
    ¬StartsAt (unit ++ joined rest) i := by
  intro hStart
  have hLength := List.length_pos_of_ne_nil hUnit.nonempty
  by_cases hIn : i + 2 < unit.length
  · rw [startsAt_append_left _ hIn] at hStart
    exact hUnit.noCode i hStart
  · by_cases hLess : i < unit.length
    · -- the last byte is one of the two zeros
      have hLast := hUnit.last
      rw [List.getLast?_eq_getElem?] at hLast
      have hByte : (unit ++ joined rest)[unit.length - 1]? = unit[unit.length - 1]? :=
        List.getElem?_append_left (by omega)
      rw [← hByte] at hLast
      rcases (by omega : unit.length - 1 = i ∨ unit.length - 1 = i + 1) with
        hAt | hAt
      · rw [hAt] at hLast
        exact hLast hStart.1
      · rw [hAt] at hLast
        exact hLast hStart.2.1
    · have hBack : i = unit.length + (i - unit.length) := by
        omega
      rw [hBack, startsAt_append_right] at hStart
      cases rest with
      | nil => cases hStart.1
      | cons entry rest =>
        have hMore := hi (List.cons_ne_nil _ _)
        rw [joined_eq] at hStart
        exact not_startsAt_zeros entry rest (zeros_short _) (by omega) hStart

section

variable (four : Bool)
variable (unit : List Byte)
variable (rest : List (Bool × List Byte))
variable (lead : List Byte)

theorem body_split :
    lead ++ body ((four, unit) :: rest) = (lead ++ [0, 0, 1]) ++ (unit ++ joined rest) := by
  simp [body]

theorem body_split_next :
    lead ++ body ((four, unit) :: rest) =
      (lead ++ [0, 0, 1] ++ unit ++ zeros rest) ++ body rest := by
  rw [body_split, joined_eq]
  simp only [List.append_assoc]

variable {four unit rest lead}

theorem body_later (hUnit : IsUnit unit) (hLead : lead = [] ∨ lead = [0]) {j : Nat}
    (hj : lead.length < j)
    (hNext : rest ≠ [] → j < lead.length + 3 + unit.length + (zeros rest).length) :
    ¬StartsAt (lead ++ body ((four, unit) :: rest)) j := by
  have hFirst := body_firstAt (four, unit) rest hLead
  by_cases hNear : j < lead.length + 3
  · exact hFirst.1.apart hj hNear
  · intro hStart
    have hBack : j = (lead ++ [0, 0, 1]).length + (j - (lead.length + 3)) := by
      simp only [List.length_append, List.length_cons, List.length_nil]
      omega
    rw [hBack, body_split, startsAt_append_right] at hStart
    refine hUnit.not_startsAt rest (fun hRest => ?_) hStart
    have hLess := hNext hRest
    omega

theorem body_nextAt (hUnit : IsUnit unit) (hLead : lead = [] ∨ lead = [0]) (hRest : rest ≠ []) :
    NextAt (lead ++ body ((four, unit) :: rest)) lead.length
      (lead.length + 3 + unit.length + (zeros rest).length) := by
  refine ⟨by omega, ?_, fun j hj hLess =>
    body_later hUnit hLead hj fun _ => hLess⟩
  have hLength :
      lead.length + 3 + unit.length + (zeros rest).length =
        (lead ++ [0, 0, 1] ++ unit ++ zeros rest).length + 0 := by
    simp only [List.length_append, List.length_cons, List.length_nil]
    omega
  rw [hLength, body_split_next, startsAt_append_right]
  cases rest with
  | nil => exact absurd rfl hRest
  | cons entry rest => exact body_starts entry rest

theorem body_zero (hZero : zeros rest = [0]) :
    (lead ++ body ((four, unit) :: rest))[lead.length + 3 + unit.length]? = some 0 := by
  have hLength : (lead ++ [0, 0, 1] ++ unit).length = lead.length + 3 + unit.length := by
    simp only [List.length_append, List.length_cons, List.length_nil]
  rw [body_split_next, hZero, List.append_assoc, ← hLength,
    List.getElem?_append_right (Nat.le_refl _), Nat.sub_self]
  rfl

/- The zero of a longer start code is taken off the unit. -/
theorem body_trim (four : Bool) (rest : List (Bool × List Byte)) (lead : List Byte)
    (hUnit : IsUnit unit) :
    trimZeros (lead ++ body ((four, unit) :: rest)) (lead.length + 3)
        (lead.length + 3 + unit.length + (zeros rest).length) =
      lead.length + 3 + unit.length := by
  have hPositive := List.length_pos_of_ne_nil hUnit.nonempty
  rcases hEnd : unit.getLast? with - | byte
  · exact absurd (List.getLast?_eq_none_iff.mp hEnd) hUnit.nonempty
  · have hNot : byte ≠ 0 := by
      rintro rfl
      exact hUnit.last hEnd
    rw [List.getLast?_eq_getElem?] at hEnd
    have hHead : (lead ++ [0, 0, 1]).length = lead.length + 3 := by
      simp
    have hByte :
        (lead ++ body ((four, unit) :: rest))[lead.length + 3 + (unit.length - 1)]? =
          some byte := by
      rw [body_split, List.getElem?_append_right (by omega), hHead, Nat.add_sub_cancel_left,
        List.getElem?_append_left (by omega)]
      exact hEnd
    have hTrim :=
      trimZeros_eq (lead.length + 3) hByte hNot (zeros rest).length (by omega)
        (fun k hk hLess => by
          rcases zeros_short rest with hZ | hZ
          · rw [hZ, List.length_nil] at hLess
            omega
          · rw [hZ, List.length_singleton] at hLess
            have hAt : k = lead.length + 3 + unit.length := by
              omega
            rw [hAt]
            exact body_zero hZ)
    have hBack : lead.length + 3 + (unit.length - 1) + 1 = lead.length + 3 + unit.length := by
      omega
    rw [hBack] at hTrim
    exact hTrim

/- One unit of a single byte is left. -/
def oneByte : List (Bool × List Byte) → Bool
| [(_, unit)] => unit.length = 1
| _ => false

theorem body_length (hUnits : ∀ entry ∈ rest, IsUnit entry.2) (hRest : rest ≠ []) :
    4 < (body rest).length ↔ oneByte rest = false := by
  match rest with
  | [] => exact absurd rfl hRest
  | [(_, [])] => exact absurd rfl (hUnits _ List.mem_cons_self).nonempty
  | [(_, [_])] => simp [body, joined, oneByte]
  | [(_, _ :: _ :: _)] => simp [body, joined, oneByte]
  | (_, []) :: _ :: _ => exact absurd rfl (hUnits _ List.mem_cons_self).nonempty
  | (_, _ :: _) :: (four, _) :: _ =>
    refine iff_of_true ?_ rfl
    cases four with
    | false =>
      simp only [body, joined, startCode, List.length_append, List.length_cons,
        List.length_nil, Bool.false_eq_true, if_false]
      omega
    | true =>
      simp only [body, joined, startCode, List.length_append, List.length_cons,
        List.length_nil, if_true]
      omega

/- What the cursor keeps of the units that follow. -/
def left (rest : List (Bool × List Byte)) : List (Bool × List Byte) :=
  if oneByte rest then [] else rest

/- A turn takes the next unit. -/
theorem getNextNALUnit_body (four : Bool) (hUnit : IsUnit unit) (hUnits : ∀ entry ∈ rest, IsUnit entry.2)
    (hLead : lead = [] ∨ lead = [0]) :
    getNextNALUnit (lead ++ body ((four, unit) :: rest)) true =
      some
        { nalStart := lead.length + 3
          nalSize := unit.length
          data := body (left rest) } := by
  have hFirst := body_firstAt (four, unit) rest hLead
  have hTrim := body_trim four rest lead hUnit
  have hFront :
      (lead ++ [0, 0, 1] ++ unit ++ zeros rest).length =
        lead.length + 3 + unit.length + (zeros rest).length := by
    simp only [List.length_append, List.length_cons, List.length_nil]
  by_cases hRest : rest = []
  · subst hRest
    have hLength : (lead ++ body [(four, unit)]).length = lead.length + 3 + unit.length := by
      rw [body_split_next, List.length_append, hFront]
      rfl
    rw [getNextNALUnit_last hFirst fun j hj =>
      body_later hUnit hLead hj fun hNot => absurd rfl hNot]
    rw [hLength]
    change trimZeros _ _ (lead.length + 3 + unit.length) = _ at hTrim
    rw [hTrim, Nat.add_sub_cancel_left]
    rfl
  · have hLength :
        (lead ++ body ((four, unit) :: rest)).length =
          lead.length + 3 + unit.length + (zeros rest).length + (body rest).length := by
      rw [body_split_next, List.length_append, hFront]
    have hDrop :
        (lead ++ body ((four, unit) :: rest)).drop
            (lead.length + 3 + unit.length + (zeros rest).length) =
          body rest := by
      rw [body_split_next, ← hFront, List.drop_left]
    have hFour := body_length hUnits hRest
    rw [getNextNALUnit_next hFirst (body_nextAt hUnit hLead hRest)]
    rw [hTrim, hLength, hDrop, Nat.add_sub_cancel_left]
    cases hOne : oneByte rest with
    | true =>
      rw [hOne] at hFour
      have hShort : ¬4 < (body rest).length := fun hLong => Bool.noConfusion (hFour.mp hLong)
      rw [if_neg (by omega), left, hOne, if_pos rfl]
      rfl
    | false =>
      have hLong := hFour.mpr hOne
      rw [if_pos (by omega), left, hOne, if_neg Bool.false_ne_true]

end

/- The units that the loop finds. -/
def kept : List (Bool × List Byte) → List (List Byte)
| [] => []
| (_, unit) :: rest => unit :: if oneByte rest then [] else kept rest

theorem kept_cons (four : Bool) (unit : List Byte) (rest : List (Bool × List Byte)) :
    kept ((four, unit) :: rest) = unit :: kept (left rest) := by
  rw [kept, left]
  split
  · rfl
  · rfl

/- What the cursor keeps is the end of what it had. -/
theorem body_left (four : Bool) (unit : List Byte) (rest : List (Bool × List Byte)) :
    ∃ passed, body ((four, unit) :: rest) = passed ++ body (left rest) := by
  rw [left]
  split
  · exact ⟨_, (List.append_nil _).symm⟩
  · have hSplit := body_split_next four unit rest []
    exact ⟨_, hSplit⟩

/- Its bytes are where the turn says that they are. -/
theorem unit_found (four : Bool) (unit : List Byte) (rest : List (Bool × List Byte))
    (lead front : List Byte) :
    ((front ++ (lead ++ body ((four, unit) :: rest))).drop (front.length + (lead.length + 3))).take
      unit.length = unit := by
  have hHead : (lead ++ [0, 0, 1] : List Byte).length = lead.length + 3 := by
    rw [List.length_append]
    rfl
  rw [← List.drop_drop, List.drop_left, body_split, ← hHead, List.drop_left, List.take_left]

theorem nalUnits_body {stream : List (Bool × List Byte)} (hUnits : ∀ entry ∈ stream, IsUnit entry.2)
    {turns : Nat} (front : List Byte) {lead : List Byte} (hLead : lead = [] ∨ lead = [0])
    (hTurns : (lead ++ body stream).length < turns) :
    ∃ units,
      nalUnits turns front.length (lead ++ body stream) = some units ∧
        unitsIn (front ++ (lead ++ body stream)) units = kept stream := by
  induction turns generalizing stream front lead with
  | zero => omega
  | succ turns ih =>
    rcases stream with - | ⟨⟨four, unit⟩, rest⟩
    · refine ⟨[], ?_, rfl⟩
      rw [body, List.append_nil, nalUnits]
      rcases hLead with rfl | rfl
      · rfl
      · rfl
    · rcases List.forall_mem_cons.mp hUnits with ⟨hUnit, hRest⟩
      have hTurn := getNextNALUnit_body four hUnit hRest hLead
      have hInside := getNextNALUnit_inside hTurn
      have hFound := unit_found four unit rest lead front
      rcases body_left four unit rest with ⟨passed, hPassed⟩
      have hLeft : ∀ entry ∈ left rest, IsUnit entry.2 := by
        rw [left]
        split
        · exact fun entry hMem => by cases hMem
        · exact hRest
      have hBack :
          front ++ (lead ++ body ((four, unit) :: rest)) =
            front ++ (lead ++ passed) ++ ([] ++ body (left rest)) := by
        rw [hPassed]
        simp only [List.append_assoc, List.nil_append]
      have hLength :
          (front ++ (lead ++ passed)).length =
            front.length +
              ((lead ++ body ((four, unit) :: rest)).length - (body (left rest)).length) := by
        rw [hPassed]
        simp only [List.length_append]
        omega
      have hLess : (([] : List Byte) ++ body (left rest)).length < turns := by
        have hMoved := hInside.1
        rw [List.nil_append]
        simp only at hMoved
        omega
      rcases ih hLeft (front ++ (lead ++ passed)) (Or.inl rfl) hLess with ⟨units, hUnits, hKept⟩
      rw [hLength, List.nil_append] at hUnits
      refine ⟨(front.length + (lead.length + 3), unit.length) :: units, ?_, ?_⟩
      · rw [nalUnits, hTurn]
        simp only [hUnits, Option.map_some]
      · rw [kept_cons, unitsIn, List.map_cons, hFound, hBack]
        rw [unitsIn] at hKept
        rw [hKept]

/- Nothing is lost but a last unit of one byte. -/
theorem kept_eq_iff (stream : List (Bool × List Byte)) :
    kept stream = stream.map Prod.snd ↔
      ¬(2 ≤ stream.length ∧ ∃ entry ∈ stream.getLast?, entry.2.length = 1) := by
  induction stream with
  | nil => simp [kept]
  | cons entry rest ih =>
    rcases entry with ⟨four, unit⟩
    rw [kept, List.map_cons, List.cons.injEq]
    match rest with
    | [] => simp [oneByte, kept]
    | [(_, [])] => simp [oneByte, kept]
    | [(_, [_])] => simp [oneByte]
    | [(_, _ :: _ :: _)] => simp [oneByte, kept]
    | next :: more :: rest =>
      have hOne : oneByte (next :: more :: rest) = false :=
        rfl
      have hTwo : 2 ≤ (next :: more :: rest).length := by
        simp only [List.length_cons]
        omega
      have hThree : 2 ≤ ((four, unit) :: next :: more :: rest).length := Nat.le_succ_of_le hTwo
      rw [if_neg (by simp [hOne]), List.getLast?_cons_cons]
      simp only [true_and, hThree]
      simp only [true_and, hTwo] at ih
      exact ih

/-
  Of a stream with start codes of three or four bytes the loop gives the units back unless it leaves
  a last one of a single byte; of any buffer it gives parts, and none empty unless a start code is
  bare.
-/
theorem nalUnits_stream_iff (stream : List (Bool × List Byte)) (data : List Byte) :
    ((∀ entry ∈ stream, IsUnit entry.2) →
      ((∃ units,
          nalUnits ((joined stream).length + 1) 0 (joined stream) = some units ∧
            unitsIn (joined stream) units = stream.map Prod.snd) ↔
        ¬(2 ≤ stream.length ∧ ∃ entry ∈ stream.getLast?, entry.2.length = 1))) ∧
      ∃ units,
        nalUnits (data.length + 1) 0 data = some units ∧
          (∀ unit ∈ units, unit.1 + unit.2 ≤ data.length) ∧
          ((∀ unit ∈ units, 0 < unit.2) ↔ ¬Bare data) := by
  constructor
  · intro hStream
    rcases nalUnits_body hStream [] (zeros_short stream)
        (by rw [← joined_eq]; omega :
          (zeros stream ++ body stream).length < (joined stream).length + 1) with
      ⟨units, hUnits, hKept⟩
    rw [List.length_nil, ← joined_eq] at hUnits
    rw [List.nil_append, ← joined_eq] at hKept
    rw [← kept_eq_iff, ← hKept]
    constructor
    · rintro ⟨found, hFound, hSame⟩
      rw [hUnits] at hFound
      cases hFound
      exact hSame
    · intro hSame
      exact ⟨units, hUnits, hSame⟩
  · rcases nalUnits_inside data 0 (Nat.lt_succ_self data.length) with
      ⟨units, hUnits, hInside⟩
    refine ⟨units, hUnits, fun unit hMem => ?_, nalUnits_nonempty_iff hUnits⟩
    have hHigh := (hInside unit hMem).2
    omega

/- Of two units of one byte the second is lost, and two start codes in a row give an empty unit. -/
theorem nalUnits_stream_not :
    (∃ stream : List (Bool × List Byte),
        (∀ entry ∈ stream, IsUnit entry.2) ∧
          stream.map Prod.snd = [[0x65], [0x0A]] ∧
            ∃ units,
              nalUnits ((joined stream).length + 1) 0 (joined stream) = some units ∧
                unitsIn (joined stream) units = [[0x65]]) ∧
      nalUnits 8 0 [0, 0, 1, 0, 0, 1, 0x65] = some [(3, 0)] := by
  refine
    ⟨⟨[(false, [0x65]), (false, [0x0A])], ?_, rfl, [(3, 1)], by decide +kernel, by decide +kernel⟩,
      by decide +kernel⟩
  have hUnit : ∀ byte : Byte, byte ≠ 0 → IsUnit [byte] := by
    intro byte hNot
    refine ⟨List.cons_ne_nil _ _, ?_, fun k hStart => ?_⟩
    · intro hLast
      exact hNot (Option.some.inj hLast)
    · have hLt := hStart.lt
      rw [List.length_singleton] at hLt
      omega
  intro entry hMem
  rcases List.mem_cons.mp hMem with rfl | hMem
  · exact hUnit _ (by decide)
  · rcases List.mem_singleton.mp hMem with rfl
    exact hUnit _ (by decide)

end AVCUtils

end FrameworksAv
