import FrameworksAv.Base.Search
import FrameworksAv.SampleTable.Caches
import Mathlib.Data.List.Sort
import Mathlib.Data.Nat.Dist

/-
  Samples next to a time and sync samples next to a sample (`libstagefright/SampleTable.cpp`).

  Main declarations:
    * `Flags`, `Meets`
    * `pick`, `pick_meets`
    * `buildSampleEntriesTable`, `findSampleAtTime`
    * `findSampleAtTime_iff`
-/

--
-- Directions
--

namespace FrameworksAv

namespace SampleTable

open Search

inductive Flags where
| kFlagBefore
| kFlagAfter
| kFlagClosest
deriving DecidableEq

/- Its arguments are `uint32_t`. -/
def abs_difference (time1 time2 : Nat) : Nat :=
  if u32 time2 < u32 time1 then u32 time1 - u32 time2
  else u32 time2 - u32 time1

/-
  The flags after the ends of a table with `n` entries have been looked at; `none` is
  `ERROR_OUT_OF_RANGE`.
-/
def direction (n left : Nat) (flags : Flags) : Option Flags :=
  if left = n then if flags = .kFlagAfter then none else some .kFlagBefore
  else if left = 0 then some .kFlagAfter
  else some flags

/- The position that is chosen at a gap. -/
def pick (n left : Nat) (flags : Flags) (lower : Bool) : Option Nat :=
  (direction n left flags).map
    (fun flags =>
      match flags with
      | .kFlagBefore => left - 1
      | .kFlagAfter => left
      | .kFlagClosest => if lower then left - 1 else left)

/- What is wanted if no entry has the key. -/
def IsNear {ι : Type} (S : ι → Prop) (key : ι → Nat) (x : Nat) (e : ι) : Flags → Prop
| .kFlagBefore => IsBelow S key x e ∨ (∀ f, S f → x < key f) ∧ IsLeast S key e
| .kFlagAfter => IsAbove S key x e
| .kFlagClosest => ∀ f, S f → Nat.dist (key e) x ≤ Nat.dist (key f) x

/- What a search is to find; `none` is "out of range". -/
def Meets {ι : Type} (S : ι → Prop) (key : ι → Nat) (x : Nat) (flags : Flags) : Option ι → Prop
| none => flags = .kFlagAfter ∧ ∀ f, S f → key f < x
| some e => S e ∧ (key e = x ∨ (∀ f, S f → key f ≠ x) ∧ IsNear S key x e flags)

variable {ι : Type} {S : ι → Prop} {key : ι → Nat} {entry : Nat → ι} {n left x : Nat}

/- The closer neighbour is as close as any entry. -/
theorem closest_iff (h : Table S key entry n) (hGap : IsGap key entry n x left) (hPos : 0 < left)
    (hLess : left < n) (lower : Bool) :
    IsNear S key x (entry (if lower then left - 1 else left)) .kFlagClosest ↔
      if lower then x - key (entry (left - 1)) ≤ key (entry left) - x
      else key (entry left) - x ≤ x - key (entry (left - 1)) := by
  have hBelow := hGap.isBelow h hPos
  have hAbove := hGap.isAbove h hLess
  have hLow := hBelow.2.1
  have hHigh := hAbove.2.1
  -- an entry is at least as far away as the one on its side
  have hFar :
      ∀ f, S f →
        x - key (entry (left - 1)) ≤ Nat.dist (key f) x ∨
          key (entry left) - x ≤ Nat.dist (key f) x := by
    intro f hf
    rcases Nat.lt_or_gt_of_ne (hGap.ne h hf) with hLt | hGt
    · have hNext := hBelow.2.2 f hf hLt
      left
      unfold Nat.dist
      omega
    · have hNext := hAbove.2.2 f hf hGt
      right
      unfold Nat.dist
      omega
  unfold IsNear
  cases lower with
  | true =>
    rw [if_pos rfl, if_pos rfl]
    constructor
    · intro hClosest
      have hOther := hClosest (entry left) hAbove.1
      unfold Nat.dist at hOther
      omega
    · intro hCloser f hf
      rcases hFar f hf with hSide | hSide
      · unfold Nat.dist at hSide ⊢
        omega
      · unfold Nat.dist at hSide ⊢
        omega
  | false =>
    rw [if_neg Bool.false_ne_true, if_neg Bool.false_ne_true]
    constructor
    · intro hClosest
      have hOther := hClosest (entry (left - 1)) hBelow.1
      unfold Nat.dist at hOther
      omega
    · intro hCloser f hf
      rcases hFar f hf with hSide | hSide
      · unfold Nat.dist at hSide ⊢
        omega
      · unfold Nat.dist at hSide ⊢
        omega

/- At an end of the table there is one neighbour only. -/
theorem closest_of_end (h : Table S key entry n) (hGap : IsGap key entry n x left) (hSome : 0 < n) :
    (left = n → IsNear S key x (entry (left - 1)) .kFlagClosest) ∧
      (left = 0 → IsNear S key x (entry left) .kFlagClosest) := by
  constructor
  · intro hAll f hf
    have hBelow := hGap.isBelow h (by omega)
    rw [hAll] at hGap
    have hNext := hBelow.2.2 f hf (hGap.none_above h hf)
    have hLow := hBelow.2.1
    have hLess := hGap.none_above h hf
    unfold Nat.dist
    omega
  · intro hZero f hf
    rw [hZero] at hGap ⊢
    have hAbove := hGap.isAbove h hSome
    have hNext := hAbove.2.2 f hf (hGap.none_below h hf)
    have hHigh := hAbove.2.1
    have hLess := hGap.none_below h hf
    unfold Nat.dist
    omega

/- An entry that is near enough is one that is wanted. -/
theorem meets_gap_iff (hGap : IsGap key entry n x left) (h : Table S key entry n) {i : Nat}
    (hi : i < n) (flags : Flags) :
    Meets S key x flags (some (entry i)) ↔ IsNear S key x (entry i) flags := by
  have hMem := h.mem hi
  constructor
  · rintro ⟨_, hEq | ⟨_, hNear⟩⟩
    · exact absurd hEq (hGap.ne h hMem)
    · exact hNear
  · intro hNear
    exact ⟨hMem, Or.inr ⟨fun _ hf => hGap.ne h hf, hNear⟩⟩

/-
  What is chosen at a gap is what is wanted, except between two entries, where it depends on how
  they are compared.
-/
theorem pick_meets (h : Table S key entry n) (hGap : IsGap key entry n x left) (hSome : 0 < n)
    (flags : Flags) (lower : Bool) :
    Meets S key x flags ((pick n left flags lower).map entry) ↔
      (flags = .kFlagClosest → 0 < left → left < n →
        if lower then x - key (entry (left - 1)) ≤ key (entry left) - x
        else key (entry left) - x ≤ x - key (entry (left - 1))) := by
  have hInside := hGap.inside
  have hEnds := closest_of_end h hGap hSome
  unfold pick direction
  by_cases hAll : left = n
  · rw [if_pos hAll]
    have hBelow := hGap.isBelow h (by omega)
    refine iff_of_true ?_ (fun _ _ hLess => absurd hLess (by omega))
    cases flags with
    | kFlagBefore => exact (meets_gap_iff (i := left - 1) hGap h (by omega) _).mpr (Or.inl hBelow)
    | kFlagAfter =>
      rw [hAll] at hGap
      exact ⟨rfl, fun _ hf => hGap.none_above h hf⟩
    | kFlagClosest => exact (meets_gap_iff (i := left - 1) hGap h (by omega) _).mpr (hEnds.1 hAll)
  · rw [if_neg hAll]
    by_cases hZero : left = 0
    · rw [if_pos hZero]
      have hLess : left < n := by omega
      have hAbove := hGap.isAbove h hLess
      refine iff_of_true ?_ (fun _ hPos => absurd hPos (by omega))
      refine (meets_gap_iff hGap h hLess _).mpr ?_
      cases flags with
      | kFlagBefore =>
        rw [hZero] at hGap ⊢
        exact Or.inr ⟨fun _ hf => hGap.none_below h hf, h.isLeast hSome⟩
      | kFlagAfter => exact hAbove
      | kFlagClosest => exact hEnds.2 hZero
    · rw [if_neg hZero]
      have hPos : 0 < left := Nat.pos_of_ne_zero hZero
      have hLess : left < n := by omega
      cases flags with
      | kFlagBefore =>
        refine iff_of_true ?_ nofun
        exact (meets_gap_iff (i := left - 1) hGap h (by omega) _).mpr (Or.inl (hGap.isBelow h hPos))
      | kFlagAfter =>
        refine iff_of_true ?_ nofun
        exact (meets_gap_iff hGap h hLess _).mpr (hGap.isAbove h hLess)
      | kFlagClosest =>
        have hChosen : (if lower then left - 1 else left) < n := by
          split
          · omega
          · exact hLess
        refine Iff.trans (meets_gap_iff hGap h hChosen _) ?_
        rw [closest_iff h hGap hPos hLess]
        exact ⟨fun hCloser _ _ _ => hCloser, fun hAll => hAll rfl hPos hLess⟩

end SampleTable

--
-- Sync Samples
--

namespace SampleTable

open Search

/- The time of a sample, with `mSampleIterator` moved to it. -/
def sampleTimeAt (sizeT : Nat) (source : DataSource) (t : SampleTable) (a : Access)
    (sampleIndex : Nat) : Option (Status × Nat × Access) :=
  (a.seekTo sizeT source t sampleIndex).map
    (fun r => (r.1, r.2.mSampleIterator.mCurrentSampleTime, r.2))

/- `none` is a failed `CHECK` or division in a seek. -/
def closestSync (sizeT : Nat) (source : DataSource) (t : SampleTable) (a : Access)
    (start_sample_index left : Nat) : Option (Status × Nat × Access) :=
  let sync := fun i => t.mSyncSamples.getD i 0
  (sampleTimeAt sizeT source t a start_sample_index).bind
    (fun sample =>
      if sample.1 ≠ .ok then some (sample.1, 0, sample.2.2)
      else
        (sampleTimeAt sizeT source t sample.2.2 (sync left)).bind
          (fun upper =>
            if upper.1 ≠ .ok then some (upper.1, 0, upper.2.2)
            else
              (sampleTimeAt sizeT source t upper.2.2 (sync (left - 1))).map
                (fun lower =>
                  if lower.1 ≠ .ok then (lower.1, 0, lower.2.2)
                  else if
                      abs_difference sample.2.1 lower.2.1 < abs_difference upper.2.1 sample.2.1 then
                    (.ok, sync (left - 1), lower.2.2)
                  else (.ok, sync left, lower.2.2))))

/- The status and `*sample_index`. -/
def findSyncSampleNear (sizeT : Nat) (source : DataSource) (t : SampleTable) (a : Access)
    (start_sample_index : Nat) (flags : Flags) : Option (Status × Nat × Access) :=
  if t.mSyncSampleOffset = none then some (.ok, start_sample_index, a)
  else if t.mNumSyncSamples = 0 then some (.ok, 0, a)
  else
    let sync := fun i => t.mSyncSamples.getD i 0
    match bisect sync start_sample_index t.mNumSyncSamples 0 t.mNumSyncSamples
    with
    | none => none
    | some (.found center) => some (.ok, sync center, a)
    | some (.gap left) =>
      match direction t.mNumSyncSamples left flags with
      | none => some (.outOfRange, 0, a)
      | some .kFlagBefore => some (.ok, sync (left - 1), a)
      | some .kFlagAfter => some (.ok, sync left, a)
      | some .kFlagClosest => closestSync sizeT source t a start_sample_index left

/- Status and index of a search, `none` for "out of range". -/
def statusOf : Option Nat → Status × Nat
| none => (.outOfRange, 0)
| some i => (.ok, i)

/- A position in a list that increases strictly. -/
theorem mem_iff_getElem?_takeWhile {xs : List Nat} (hIncreasing : xs.Pairwise (· < ·)) (x : Nat) :
    xs[(xs.takeWhile (fun y => y < x)).length]? = some x ↔ x ∈ xs := by
  induction xs with
  | nil => simp
  | cons y ys ih =>
    rcases List.pairwise_cons.mp hIncreasing with ⟨hAll, hRest⟩
    rw [List.takeWhile_cons]
    by_cases hLess : y < x
    · rw [if_pos (decide_eq_true hLess), List.length_cons,
        List.getElem?_cons_succ, ih hRest, List.mem_cons]
      constructor
      · exact Or.inr
      · rintro (hEq | hMem)
        · omega
        · exact hMem
    · rw [if_neg (by simpa using hLess), List.length_nil, List.getElem?_cons_zero, Option.some_inj,
        List.mem_cons]
      constructor
      · intro hEq
        exact Or.inl hEq.symm
      · rintro (hEq | hMem)
        · exact hEq.symm
        · exact absurd (hAll x hMem) hLess

variable {t : SampleTable}

/- Where the scan starts does not matter. -/
theorem Access.syncIndex_iff (hLength : t.mSyncSamples.length = t.mNumSyncSamples)
    (hIncreasing : t.mSyncSamples.Pairwise (· < ·)) (a : Access) (i : Nat) :
    t.mSyncSamples[a.syncIndex t i]? = some i ↔ i ∈ t.mSyncSamples := by
  unfold Access.syncIndex
  simp only
  split
  · rename_i hCached
    generalize hFirst : a.mLastSyncSampleIndex = first at *
    rcases hCached with ⟨hInside, hLe⟩
    rw [← hLength] at hInside
    have hSplit := List.take_append_drop first t.mSyncSamples
    rw [← hSplit, List.pairwise_append] at hIncreasing
    rw [← List.getElem?_drop, mem_iff_getElem?_takeWhile hIncreasing.2.1]
    constructor
    · exact List.mem_of_mem_drop
    · intro hMem
      rw [← hSplit, List.mem_append] at hMem
      refine hMem.resolve_left ?_
      intro hEarly
      have hHead : t.mSyncSamples.getD first 0 ∈ t.mSyncSamples.drop first := by
        rw [List.getD_eq_getElem?_getD, List.getElem?_eq_getElem hInside, Option.getD_some,
          List.mem_iff_getElem?]
        refine ⟨0, ?_⟩
        rw [List.getElem?_drop, Nat.add_zero, List.getElem?_eq_getElem hInside]
      have hLess := hIncreasing.2.2 i hEarly _ hHead
      omega
  · rw [Nat.zero_add, List.drop_zero]
    exact mem_iff_getElem?_takeWhile hIncreasing i

/- The sync samples are the entries of their own table. -/
theorem syncTable (hLength : t.mSyncSamples.length = t.mNumSyncSamples)
    (hIncreasing : t.mSyncSamples.Pairwise (· < ·)) :
    Table (fun i => i ∈ t.mSyncSamples) (fun i => i)
      (fun i => t.mSyncSamples.getD i 0) t.mNumSyncSamples where
  complete := by
    intro x
    rw [List.mem_iff_getElem?, ← hLength]
    constructor
    · rintro ⟨i, hGet⟩
      rcases List.getElem?_eq_some_iff.mp hGet with ⟨hi, _⟩
      refine ⟨i, hi, ?_⟩
      rw [List.getD_eq_getElem?_getD, hGet]
      rfl
    · rintro ⟨i, hi, hEq⟩
      refine ⟨i, ?_⟩
      rw [List.getD_eq_getElem?_getD, List.getElem?_eq_getElem hi] at hEq
      rw [List.getElem?_eq_getElem hi]
      exact congrArg some hEq
  sorted := by
    intro i j hLe hj
    rw [← hLength] at hj
    have hi : i < t.mSyncSamples.length := by omega
    rw [List.getD_eq_getElem?_getD, List.getD_eq_getElem?_getD,
      List.getElem?_eq_getElem hi, List.getElem?_eq_getElem hj]
    rcases Nat.lt_or_eq_of_le hLe with hLess | hEq
    · exact Nat.le_of_lt (List.pairwise_iff_getElem.mp hIncreasing i j hi hj hLess)
    · subst hEq
      exact Nat.le_refl _

/- The sync sample next to a sample, or the sample itself. -/
theorem findSyncSampleNear_meets (sizeT : Nat) (source : DataSource) (a : Access)
    (hOffset : t.mSyncSampleOffset ≠ none) (hLength : t.mSyncSamples.length = t.mNumSyncSamples)
    (hIncreasing : t.mSyncSamples.Pairwise (· < ·)) (hSome : t.mSyncSamples ≠ []) {start : Nat}
    {flags : Flags} (hFlags : flags ≠ .kFlagClosest ∨ start ∈ t.mSyncSamples) :
    ∃ result,
      Meets (fun i => i ∈ t.mSyncSamples) (fun i => i) start flags result ∧
        findSyncSampleNear sizeT source t a start flags =
          some ((statusOf result).1, (statusOf result).2, a) := by
  have hTable := syncTable hLength hIncreasing
  have hPos : 0 < t.mNumSyncSamples := by
    rw [← hLength]
    exact List.length_pos_iff.mpr hSome
  rcases hTable.bisect_spec start with ⟨outcome, hBisect, hRight⟩
  unfold findSyncSampleNear
  rw [if_neg hOffset, if_neg (by omega)]
  simp only
  rw [hBisect]
  cases outcome with
  | found center =>
    have hMem := hTable.mem hRight.1
    exact ⟨some _, ⟨hMem, Or.inl hRight.2⟩, rfl⟩
  | gap left =>
    have hAway : flags ≠ .kFlagClosest := by
      refine hFlags.resolve_right ?_
      intro hMem
      exact hRight.ne hTable hMem rfl
    have hMeets :=
      (pick_meets hTable hRight hPos flags true).mpr (fun hClosest => absurd hClosest hAway)
    refine ⟨_, hMeets, ?_⟩
    unfold pick
    simp only
    have hNever : direction t.mNumSyncSamples left flags ≠ some .kFlagClosest := by
      unfold direction
      split
      · split
        · nofun
        · nofun
      · split
        · nofun
        · intro hEq
          exact hAway (Option.some.inj hEq)
    cases hDirection : direction t.mNumSyncSamples left flags with
    | none => rfl
    | some towards =>
      cases towards with
      | kFlagBefore => rfl
      | kFlagAfter => rfl
      | kFlagClosest => exact absurd hDirection hNever

/-
  What is said to be a sync sample is one, whatever has been asked for before, and a sync sample is
  found next to a sample. If the table is empty it is sample 0.
-/
theorem sync_samples (sizeT : Nat) (source : DataSource) {t : SampleTable}
    (hOffset : t.mSyncSampleOffset ≠ none) (hLength : t.mSyncSamples.length = t.mNumSyncSamples)
    (hIncreasing : t.mSyncSamples.Pairwise (· < ·)) :
    (∀ (a a' : Access) (i : Nat) (m : MetaData),
      a.getMetaDataForSample sizeT source t i = some (.ok, some m, a') →
        (m.isSyncSample = true ↔ i ∈ t.mSyncSamples)) ∧
      (t.mSyncSamples ≠ [] →
        ∀ (a : Access) (start : Nat) (flags : Flags),
          flags ≠ .kFlagClosest ∨ start ∈ t.mSyncSamples →
            ∃ result,
              Meets (fun i => i ∈ t.mSyncSamples) (fun i => i) start flags result ∧
                findSyncSampleNear sizeT source t a start flags =
                  some ((statusOf result).1, (statusOf result).2, a)) ∧
      (t.mSyncSamples = [] →
        ∀ (a : Access) (start : Nat) (flags : Flags),
          findSyncSampleNear sizeT source t a start flags = some (.ok, 0, a)) := by
  refine ⟨?_, ?_, ?_⟩
  · intro a a' i m hMeta
    unfold Access.getMetaDataForSample at hMeta
    rw [Option.map_eq_some_iff] at hMeta
    rcases hMeta with ⟨⟨status, b⟩, _, hMeta⟩
    simp only at hMeta
    split at hMeta
    · cases hMeta
    · cases hMeta
      rw [decide_eq_true_eq]
      exact Access.syncIndex_iff hLength hIncreasing b i
  · intro hSome a start flags hFlags
    exact findSyncSampleNear_meets sizeT source a hOffset hLength hIncreasing hSome hFlags
  · intro hNone a start flags
    have hZero : t.mNumSyncSamples = 0 := by
      rw [← hLength, hNone]
      rfl
    unfold findSyncSampleNear
    rw [if_neg hOffset, if_pos hZero]

/- Two sync samples. -/
def twoSyncs : SampleTable :=
  { init with
    mSyncSampleOffset := some 0
    mNumSyncSamples := 2
    mSyncSamples := [3, 8] }

theorem sync_samples_twoSyncs :
    ∃ result,
      Meets (fun i => i ∈ twoSyncs.mSyncSamples) (fun i => i) 5 .kFlagAfter result ∧
        findSyncSampleNear 8 ⟨fun _ => 0, fun _ _ => true⟩ twoSyncs Access.init 5 .kFlagAfter =
          some ((statusOf result).1, (statusOf result).2, Access.init) :=
  (sync_samples 8 ⟨fun _ => 0, fun _ _ => true⟩ (t := twoSyncs) nofun rfl (by decide)).2.1 nofun
    Access.init 5 .kFlagAfter (Or.inl nofun)

/- A box of sync samples that lists none. -/
def noSyncs : SampleTable :=
  { init with mSyncSampleOffset := some 0 }

/- After the last sync sample of none there is still one. -/
theorem sync_samples_none :
    ¬ ∃ result,
      Meets (fun i => i ∈ noSyncs.mSyncSamples) (fun i => i) 5 .kFlagAfter result ∧
        findSyncSampleNear 8 ⟨fun _ => 0, fun _ _ => true⟩ noSyncs Access.init 5 .kFlagAfter =
          some ((statusOf result).1, (statusOf result).2, Access.init) := by
  rintro ⟨result, hMeets, hFind⟩
  cases result with
  | none => cases hFind
  | some i => cases hMeets.1

end SampleTable

--
-- Sample Times
--

namespace SampleTable

open Search RunLength

structure SampleTimeEntry where
  mSampleIndex : Nat
  mCompositionTime : Nat
deriving DecidableEq

/- The variables of `buildSampleEntriesTable`. -/
structure Filling where
  mSampleTimeEntries : List SampleTimeEntry
  sampleIndex : Nat
  sampleTime : Nat
  mCompositionDeltaLookup : CompositionDeltaLookup

namespace Filling

/- A turn of the inner loop. -/
def tick (sizeT : Nat) (t : SampleTable) (f : Filling) (delta : Nat) : Filling :=
  let f :=
    if f.sampleIndex < t.mNumSampleSizes then
      let compTimeDelta :=
        f.mCompositionDeltaLookup.getCompositionTimeOffset sizeT
          t.mCompositionTimeDeltaEntries f.sampleIndex
      { f with
        mSampleTimeEntries :=
          f.mSampleTimeEntries.set f.sampleIndex
            ⟨f.sampleIndex, u32 (f.sampleTime + compTimeDelta.1)⟩
        mCompositionDeltaLookup := compTimeDelta.2 }
    else f
  { f with
    sampleIndex := u32 (f.sampleIndex + 1)
    sampleTime := u32 (f.sampleTime + delta) }

/- The inner loop, `n` times with one duration. -/
def ticks (sizeT : Nat) (t : SampleTable) (delta : Nat) : (n : Nat) → Filling → Filling
| 0, f => f
| n + 1, f => ticks sizeT t delta n (f.tick sizeT t delta)

/- The outer loop over the entries of `stts`. -/
def runs (sizeT : Nat) (t : SampleTable) : List (Nat × Nat) → Filling → Filling
| [], f => f
| (n, delta) :: rest, f => runs sizeT t rest (f.ticks sizeT t delta n)

end Filling

/- The entries of `stts` that the loop reads. -/
def timeRuns (t : SampleTable) : List (Nat × Nat) :=
  (t.mTimeToSample.getD []).take t.mTimeToSampleCount

/- What `findSampleAtTime` changes. -/
structure Finder where
  mSampleTimeEntries : Option (List SampleTimeEntry)
  mCompositionDeltaLookup : CompositionDeltaLookup

namespace Finder

def init : Finder := ⟨none, .init⟩

variable (qsort : List SampleTimeEntry → List SampleTimeEntry)

/- New entries have no value before the loop. -/
def buildSampleEntriesTable (sizeT : Nat) (t : SampleTable) (s : Finder) : Finder :=
  if s.mSampleTimeEntries.isSome ∨ t.mNumSampleSizes = 0 then s
  else
    let f :=
      Filling.runs sizeT t t.timeRuns
        { mSampleTimeEntries := List.replicate t.mNumSampleSizes ⟨0, 0⟩
          sampleIndex := 0
          sampleTime := 0
          mCompositionDeltaLookup := s.mCompositionDeltaLookup }
    { mSampleTimeEntries := some (qsort f.mSampleTimeEntries)
      mCompositionDeltaLookup := f.mCompositionDeltaLookup }

end Finder

/- A composition time in the scale, in 64 bits. -/
def scaledTime (scale_num scale_den compositionTime : Nat) : Nat :=
  if scale_den ≠ 0 then compositionTime * scale_num % 2 ^ 64 / scale_den
  else 0

/- `getSampleTime`, which has `mNumSampleSizes` entries. -/
def getSampleTime (entries : List SampleTimeEntry) (scale_num scale_den sample_index : Nat) : Nat :=
  match entries[sample_index]? with
  | some entry => scaledTime scale_num scale_den entry.mCompositionTime
  | none => 0

/- Whether the entry in front of the gap is the closer one. -/
def lowerIsCloser (time : Nat → Nat) (req_time closestIndex : Nat) : Bool :=
  abs_difference req_time (time (closestIndex - 1)) < abs_difference (time closestIndex) req_time

/- The search in the sorted entries. -/
def searchEntries (entries : List SampleTimeEntry) (mNumSampleSizes : Nat)
    (req_time scale_num scale_den : Nat) (flags : Flags) : Status × Nat :=
  let time := getSampleTime entries scale_num scale_den
  let index := fun i =>
    ((entries[i]?).map SampleTimeEntry.mSampleIndex).getD 0
  match bisect time req_time mNumSampleSizes 0 mNumSampleSizes with
  | none => (.outOfRange, 0)
  | some (.found center) => (.ok, index center)
  | some (.gap closestIndex) =>
    match pick mNumSampleSizes closestIndex flags (lowerIsCloser time req_time closestIndex)
    with
    | none => (.outOfRange, 0)
    | some i => (.ok, index i)

def Finder.findSampleAtTime (qsort : List SampleTimeEntry → List SampleTimeEntry) (sizeT : Nat)
    (t : SampleTable) (s : Finder) (req_time scale_num scale_den : Nat)
    (flags : Flags) : (Status × Nat) × Finder :=
  let s := s.buildSampleEntriesTable qsort sizeT t
  match s.mSampleTimeEntries with
  | none => ((.outOfRange, 0), s)
  | some entries => (searchEntries entries t.mNumSampleSizes req_time scale_num scale_den flags, s)

--
-- The Table Of Times
--

variable {t : SampleTable} {sizeT : Nat}

/- The time of a sample by `stts` and `ctts`. -/
def compositionTime (t : SampleTable) (i : Nat) : Nat :=
  u32 (((expand t.timeRuns).take i).sum + t.compositionOffsets.getD i 0)

def timeEntry (t : SampleTable) (i : Nat) : SampleTimeEntry :=
  ⟨i, t.compositionTime i⟩

/- The entries before `k` have been filled. -/
structure Filled (t : SampleTable) (k : Nat) (f : Filling) : Prop where
  length : f.mSampleTimeEntries.length = t.mNumSampleSizes
  entries : ∀ i, i < k → i < t.mNumSampleSizes → f.mSampleTimeEntries[i]? = some (t.timeEntry i)
  index : f.sampleIndex = u32 k
  time : f.sampleTime = u32 ((expand t.timeRuns).take k).sum
  lookup : Lookup t f.mCompositionDeltaLookup

theorem u32_add_left (a b : Nat) : u32 (u32 a + b) = u32 (a + b) :=
  Nat.mod_add_mod a (2 ^ 32) b

theorem Filled.tick (hOffsets : total (t.mCompositionTimeDeltaEntries.getD []) < 2 ^ (8 * sizeT))
    {k delta : Nat} {f : Filling} (h : Filled t k f) (hSmall : k < 2 ^ 32)
    (hDelta : (expand t.timeRuns)[k]? = some delta) : Filled t (k + 1) (f.tick sizeT t delta) := by
  have hIndex : f.sampleIndex = k := by
    rw [h.index]
    exact Nat.mod_eq_of_lt hSmall
  have hSum :
      ((expand t.timeRuns).take (k + 1)).sum = ((expand t.timeRuns).take k).sum + delta := by
    rw [List.take_add_one, hDelta, List.sum_append]
    simp
  have hTime : u32 (f.sampleTime + delta) = u32 ((expand t.timeRuns).take (k + 1)).sum := by
    rw [h.time, u32_add_left, hSum]
  rcases getCompositionTimeOffset_exact hOffsets h.lookup k with ⟨hOffset, hLookup⟩
  unfold Filling.tick
  rw [hIndex]
  by_cases hSample : k < t.mNumSampleSizes
  · simp only [if_pos hSample]
    refine ⟨?_, ?_, rfl, hTime, hLookup⟩
    · rw [List.length_set]
      exact h.length
    · intro i hi hn
      simp only
      by_cases hEq : k = i
      · rw [← hEq, List.getElem?_set_self (by rw [h.length]; exact hSample),
          hOffset, h.time, u32_add_left]
        rfl
      · rw [List.getElem?_set_ne hEq]
        exact h.entries i (by omega) hn
  · simp only [if_neg hSample]
    refine ⟨h.length, ?_, ?_, hTime, h.lookup⟩
    · intro i _ hn
      exact h.entries i (by omega) hn
    · simp only
      rw [hIndex]

theorem Filling.ticks_eq (delta n : Nat) (f : Filling) :
    f.ticks sizeT t delta n = (List.replicate n delta).foldl (Filling.tick sizeT t) f := by
  induction n generalizing f with
  | zero => rfl
  | succ n ih =>
    rw [List.replicate_succ, List.foldl_cons]
    exact ih _

/- One turn for each sample of `stts`. -/
theorem Filling.runs_eq (rs : List (Nat × Nat)) (f : Filling) :
    f.runs sizeT t rs = (expand rs).foldl (Filling.tick sizeT t) f := by
  induction rs generalizing f with
  | nil => rfl
  | cons r rs ih =>
    have hExpand : expand (r :: rs) = List.replicate r.1 r.2 ++ expand rs := List.flatMap_cons
    rw [hExpand, List.foldl_append, ← ticks_eq]
    exact ih _

theorem Filled.ticks (hOffsets : total (t.mCompositionTimeDeltaEntries.getD []) < 2 ^ (8 * sizeT))
    (hTotal : total t.timeRuns ≤ 2 ^ 32) {deltas : List Nat} {k : Nat} {f : Filling}
    (h : Filled t k f) (hDeltas : (expand t.timeRuns).drop k = deltas)
    (hInside : k ≤ total t.timeRuns) :
    Filled t (total t.timeRuns) (deltas.foldl (Filling.tick sizeT t) f) := by
  have hLength := congrArg List.length hDeltas
  rw [List.length_drop, length_expand] at hLength
  induction deltas generalizing k f with
  | nil =>
    have hEnd : k = total t.timeRuns := by
      rw [List.length_nil] at hLength
      omega
    rw [← hEnd]
    exact h
  | cons delta deltas ih =>
    rw [List.length_cons] at hLength
    have hDelta : (expand t.timeRuns)[k]? = some delta := by
      have hHead := congrArg (fun l => l[0]?) hDeltas
      simpa using hHead
    refine ih (h.tick hOffsets (by omega) hDelta) ?_ (by omega) (by omega)
    rw [← List.drop_drop, hDeltas]
    rfl

/- What the C library promises of `qsort`. -/
structure Sorts (qsort : List SampleTimeEntry → List SampleTimeEntry) : Prop where
  perm : ∀ es, (qsort es).Perm es
  sorted : ∀ es, (qsort es).Pairwise (fun e f => e.mCompositionTime ≤ f.mCompositionTime)

/- The entries of all samples, in the order of their times. -/
def IsSorted (t : SampleTable) (es : List SampleTimeEntry) : Prop :=
  es.Perm ((List.range t.mNumSampleSizes).map t.timeEntry) ∧
    es.Pairwise (fun e f => e.mCompositionTime ≤ f.mCompositionTime)

namespace Finder

variable {qsort : List SampleTimeEntry → List SampleTimeEntry} {s : Finder}

/- The table is built from what `stts` and `ctts` say. -/
structure Valid (t : SampleTable) (s : Finder) : Prop where
  entries : ∀ es, s.mSampleTimeEntries = some es → 0 < t.mNumSampleSizes ∧ t.IsSorted es
  lookup : Lookup t s.mCompositionDeltaLookup

theorem Valid.init (t : SampleTable) : init.Valid t :=
  ⟨nofun, Lookup.init t⟩

theorem Valid.build (h : s.Valid t) (hSort : Sorts qsort)
    (hCovered : t.mNumSampleSizes ≤ total t.timeRuns) (hTotal : total t.timeRuns ≤ 2 ^ 32)
    (hOffsets : total (t.mCompositionTimeDeltaEntries.getD []) < 2 ^ (8 * sizeT)) :
    (s.buildSampleEntriesTable qsort sizeT t).Valid t ∧
      (0 < t.mNumSampleSizes →
        ∃ es,
          (s.buildSampleEntriesTable qsort sizeT t).mSampleTimeEntries = some es ∧
            t.IsSorted es) := by
  unfold buildSampleEntriesTable
  by_cases hDone : s.mSampleTimeEntries.isSome ∨ t.mNumSampleSizes = 0
  · rw [if_pos hDone]
    refine ⟨h, ?_⟩
    intro hSome
    rcases Option.isSome_iff_exists.mp (hDone.resolve_right (by omega)) with ⟨es, hEntries⟩
    exact ⟨es, hEntries, (h.entries es hEntries).2⟩
  · rw [if_neg hDone]
    simp only
    have hStart :
        Filled t 0
          { mSampleTimeEntries := List.replicate t.mNumSampleSizes ⟨0, 0⟩
            sampleIndex := 0
            sampleTime := 0
            mCompositionDeltaLookup := s.mCompositionDeltaLookup } :=
      { length := List.length_replicate
        entries := nofun
        index := rfl
        time := rfl
        lookup := h.lookup }
    have hEnd := hStart.ticks hOffsets hTotal List.drop_zero (Nat.zero_le _)
    rw [← Filling.runs_eq] at hEnd
    generalize Filling.runs sizeT t t.timeRuns _ = f at *
    have hFilled : f.mSampleTimeEntries = (List.range t.mNumSampleSizes).map t.timeEntry := by
      apply List.ext_getElem?
      intro i
      by_cases hi : i < t.mNumSampleSizes
      · rw [hEnd.entries i (by omega) hi, List.getElem?_map, List.getElem?_range hi]
        rfl
      · have hLength := hEnd.length
        rw [List.getElem?_eq_none (by omega), List.getElem?_eq_none (by simp; omega)]
    have hSorted : t.IsSorted (qsort f.mSampleTimeEntries) := by
      refine ⟨?_, hSort.sorted _⟩
      rw [← hFilled]
      exact hSort.perm _
    refine ⟨⟨?_, hEnd.lookup⟩, fun _ => ⟨_, rfl, hSorted⟩⟩
    intro es hEs
    cases hEs
    exact ⟨by omega, hSorted⟩

end Finder

/- The sorted entries are a table of the scaled times. -/
theorem IsSorted.table {es : List SampleTimeEntry} (h : t.IsSorted es) {key : Nat → Nat}
    (hOrder :
      ∀ i < t.mNumSampleSizes, ∀ j < t.mNumSampleSizes,
        t.compositionTime i ≤ t.compositionTime j → key i ≤ key j) :
    Table (fun i => i < t.mNumSampleSizes) key
      (fun k =>
        ((es[k]?).map SampleTimeEntry.mSampleIndex).getD 0)
      t.mNumSampleSizes := by
  have hLength : es.length = t.mNumSampleSizes := by
    rw [h.1.length_eq, List.length_map, List.length_range]
  have hMem :
      ∀ e, e ∈ es ↔
        e.mSampleIndex < t.mNumSampleSizes ∧
          e.mCompositionTime = t.compositionTime e.mSampleIndex := by
    intro e
    rw [h.1.mem_iff, List.mem_map]
    constructor
    · rintro ⟨i, hi, rfl⟩
      exact ⟨List.mem_range.mp hi, rfl⟩
    · rintro ⟨hi, hTime⟩
      refine ⟨e.mSampleIndex, List.mem_range.mpr hi, ?_⟩
      unfold timeEntry
      rw [← hTime]
  constructor
  · intro i
    constructor
    · intro hi
      have hIn : t.timeEntry i ∈ es := (hMem _).mpr ⟨hi, rfl⟩
      rcases List.mem_iff_getElem?.mp hIn with ⟨k, hk⟩
      rcases List.getElem?_eq_some_iff.mp hk with ⟨hLt, _⟩
      refine ⟨k, by omega, ?_⟩
      rw [hk]
      rfl
    · rintro ⟨k, hk, rfl⟩
      have hLt : k < es.length := by omega
      rw [List.getElem?_eq_getElem hLt]
      exact ((hMem _).mp (List.getElem_mem hLt)).1
  · intro j k hLe hk
    have hk' : k < es.length := by omega
    have hj' : j < es.length := by omega
    rw [List.getElem?_eq_getElem hj', List.getElem?_eq_getElem hk']
    have hFirst := (hMem _).mp (List.getElem_mem hj')
    have hSecond := (hMem _).mp (List.getElem_mem hk')
    apply hOrder _ hFirst.1 _ hSecond.1
    rw [← hFirst.2, ← hSecond.2]
    rcases Nat.lt_or_eq_of_le hLe with hLess | hEq
    · exact List.pairwise_iff_getElem.mp h.2 j k hj' hk' hLess
    · subst hEq
      exact Nat.le_refl _

--
-- Samples At A Time
--

/-
  The time in front of `x` and the one behind it are compared as `abs_difference` compares them, in
  32 bits.
-/
def ClosestAgrees (n : Nat) (time : Nat → Nat) (x : Nat) : Prop :=
  (∀ i < n, time i ≠ x) →
    ∀ i j,
      IsBelow (fun i => i < n) time x i →
        IsAbove (fun i => i < n) time x j →
          if abs_difference x (time i) < abs_difference (time j) x then x - time i ≤ time j - x
          else time j - x ≤ x - time i

/- What the search returns is what is wanted. -/
def FindsWanted (n : Nat) (time : Nat → Nat) (x : Nat) (flags : Flags) (r : Status × Nat) : Prop :=
  ∃ result, Meets (fun i => i < n) time x flags result ∧ r = statusOf result

theorem statusOf_injective : Function.Injective statusOf := by
  intro a b hEq
  cases a with
  | none =>
    cases b with
    | none => rfl
    | some j => cases hEq
  | some i =>
    cases b with
    | none => cases hEq
    | some j =>
      cases hEq
      rfl

theorem findsWanted_statusOf {n x : Nat} {time : Nat → Nat} {flags : Flags} (result : Option Nat) :
    FindsWanted n time x flags (statusOf result) ↔ Meets (fun i => i < n) time x flags result := by
  constructor
  · rintro ⟨other, hMeets, hEq⟩
    rw [statusOf_injective hEq]
    exact hMeets
  · intro hMeets
    exact ⟨result, hMeets, rfl⟩

/- The neighbours of `x` have the times of all neighbours. -/
theorem closestAgrees_iff {n x left : Nat} {time : Nat → Nat} {entry : Nat → Nat}
    (h : Table (fun i => i < n) time entry n) (hGap : IsGap time entry n x left) :
    ClosestAgrees n time x ↔
      (0 < left → left < n →
        if abs_difference x (time (entry (left - 1))) < abs_difference (time (entry left)) x then
          x - time (entry (left - 1)) ≤ time (entry left) - x
        else time (entry left) - x ≤ x - time (entry (left - 1))) := by
  constructor
  · intro hAgrees hPos hLess
    exact hAgrees (fun _ hi => hGap.ne h hi) _ _ (hGap.isBelow h hPos) (hGap.isAbove h hLess)
  · intro hNeighbours _ i j hi hj
    have hPos : 0 < left := by
      by_contra hZero
      have hEq : left = 0 := by omega
      rw [hEq] at hGap
      have hAbove := hGap.none_below h hi.1
      have hBelow := hi.2.1
      omega
    have hLess : left < n := by
      by_contra hAll
      have hInside := hGap.inside
      have hEq : left = n := by omega
      rw [hEq] at hGap
      have hBelow := hGap.none_above h hj.1
      have hAbove := hj.2.1
      omega
    have hBelow := hGap.isBelow h hPos
    have hAbove := hGap.isAbove h hLess
    have hLow : time i = time (entry (left - 1)) :=
      le_antisymm (hBelow.2.2 i hi.1 hi.2.1) (hi.2.2 _ hBelow.1 hBelow.2.1)
    have hHigh : time j = time (entry left) :=
      le_antisymm (hj.2.2 _ hAbove.1 hAbove.2.1) (hAbove.2.2 j hj.1 hj.2.1)
    rw [hLow, hHigh]
    exact hNeighbours hPos hLess

/- The search in the entries of a table with a sample. -/
theorem searchEntries_iff {es : List SampleTimeEntry} (h : t.IsSorted es)
    (hSome : 0 < t.mNumSampleSizes) {scale_num scale_den : Nat}
    (hOrder :
      ∀ i < t.mNumSampleSizes, ∀ j < t.mNumSampleSizes,
        t.compositionTime i ≤ t.compositionTime j →
          scaledTime scale_num scale_den (t.compositionTime i) ≤
            scaledTime scale_num scale_den (t.compositionTime j))
    (x : Nat) (flags : Flags) :
    FindsWanted t.mNumSampleSizes
        (fun i =>
          scaledTime scale_num scale_den (t.compositionTime i))
        x flags (searchEntries es t.mNumSampleSizes x scale_num scale_den flags) ↔
      (flags = .kFlagClosest →
        ClosestAgrees t.mNumSampleSizes
          (fun i =>
            scaledTime scale_num scale_den (t.compositionTime i))
          x) := by
  have hTable := h.table hOrder
  have hLength : es.length = t.mNumSampleSizes := by
    rw [h.1.length_eq, List.length_map, List.length_range]
  have hTime :
      ∀ k < t.mNumSampleSizes,
        getSampleTime es scale_num scale_den k =
          scaledTime scale_num scale_den
            (t.compositionTime (((es[k]?).map SampleTimeEntry.mSampleIndex).getD 0)) := by
    intro k hk
    have hLt : k < es.length := by omega
    have hIn := List.getElem_mem hLt
    rw [h.1.mem_iff, List.mem_map] at hIn
    rcases hIn with ⟨i, _, hEntry⟩
    unfold getSampleTime
    rw [List.getElem?_eq_getElem hLt, ← hEntry]
    rfl
  rcases hTable.bisect_spec x with ⟨outcome, hBisect, hRight⟩
  unfold searchEntries
  simp only
  rw [bisect_congr hTime, hBisect]
  cases outcome with
  | found center =>
    refine iff_of_true ?_ ?_
    · exact ⟨some _, ⟨hTable.mem hRight.1, Or.inl hRight.2⟩, rfl⟩
    · intro _ hNone
      exact absurd hRight.2 (hNone _ (hTable.mem hRight.1))
  | gap left =>
    have hPick :
        (match
            pick t.mNumSampleSizes left flags
              (lowerIsCloser (getSampleTime es scale_num scale_den) x left)
          with
          | none => (Status.outOfRange, 0)
          | some i =>
            (Status.ok, ((es[i]?).map SampleTimeEntry.mSampleIndex).getD 0)) =
          statusOf
            ((pick t.mNumSampleSizes left flags
                (lowerIsCloser (getSampleTime es scale_num scale_den) x
                  left)).map
              (fun i =>
                ((es[i]?).map SampleTimeEntry.mSampleIndex).getD 0)) := by
      cases pick t.mNumSampleSizes left flags _ with
      | none => rfl
      | some i => rfl
    simp only
    rw [hPick, findsWanted_statusOf, pick_meets hTable hRight hSome,
      closestAgrees_iff hTable hRight]
    apply imp_congr_right
    intro _
    apply imp_congr_right
    intro hPos
    apply imp_congr_right
    intro hLess
    unfold lowerIsCloser
    rw [hTime left hLess, hTime (left - 1) (by omega)]
    simp only [decide_eq_true_eq]

namespace Finder

/- Calls that change the table of times or the position of the lookup, which every seek moves. -/
inductive Call where
| findSampleAtTime (req_time scale_num scale_den : Nat) (flags : Flags)
| getCompositionTimeOffset (sampleIndex : Nat)

def call (qsort : List SampleTimeEntry → List SampleTimeEntry) (sizeT : Nat) (t : SampleTable)
    (s : Finder) : Call → Finder
| .findSampleAtTime req_time scale_num scale_den flags =>
  (s.findSampleAtTime qsort sizeT t req_time scale_num scale_den flags).2
| .getCompositionTimeOffset sampleIndex =>
  { s with
    mCompositionDeltaLookup :=
      (s.mCompositionDeltaLookup.getCompositionTimeOffset sizeT
        t.mCompositionTimeDeltaEntries sampleIndex).2 }

variable {qsort : List SampleTimeEntry → List SampleTimeEntry} {s : Finder}

theorem findSampleAtTime_snd (req_time scale_num scale_den : Nat) (flags : Flags) :
    (s.findSampleAtTime qsort sizeT t req_time scale_num scale_den flags).2 =
      s.buildSampleEntriesTable qsort sizeT t := by
  unfold findSampleAtTime
  simp only
  split
  · rfl
  · rfl

theorem Valid.calls (hSort : Sorts qsort) (hCovered : t.mNumSampleSizes ≤ total t.timeRuns)
    (hTotal : total t.timeRuns ≤ 2 ^ 32)
    (hOffsets : total (t.mCompositionTimeDeltaEntries.getD []) < 2 ^ (8 * sizeT))
    (calls : List Call) (h : s.Valid t) : (calls.foldl (call qsort sizeT t) s).Valid t := by
  induction calls generalizing s with
  | nil => exact h
  | cons c calls ih =>
    apply ih
    cases c with
    | findSampleAtTime req_time scale_num scale_den flags =>
      unfold call
      simp only
      rw [findSampleAtTime_snd]
      exact (h.build hSort hCovered hTotal hOffsets).1
    | getCompositionTimeOffset i =>
      exact ⟨h.entries, (getCompositionTimeOffset_exact hOffsets h.lookup i).2⟩

/- Samples at 0 s and at 4295 s, with a timescale of 1. -/
def farApart : SampleTable :=
  { SampleTable.init with
    mNumSampleSizes := 2
    mTimeToSampleCount := 1
    mTimeToSample := some [(2, 4295)] }

def insertion (es : List SampleTimeEntry) : List SampleTimeEntry :=
  es.insertionSort (fun e f => e.mCompositionTime ≤ f.mCompositionTime)

theorem insertion_sorts : Sorts insertion where
  perm := fun es => List.perm_insertionSort _ es
  sorted := by
    intro es
    have : Std.Total
        (fun e f : SampleTimeEntry =>
          e.mCompositionTime ≤ f.mCompositionTime) :=
      ⟨fun e f => Nat.le_total _ _⟩
    have : IsTrans SampleTimeEntry
        (fun e f =>
          e.mCompositionTime ≤ f.mCompositionTime) :=
      ⟨fun _ _ _ => Nat.le_trans⟩
    exact List.pairwise_insertionSort _ es

end Finder

end SampleTable

end FrameworksAv
