import Mathlib.Algebra.Order.Ring.Int
import Mathlib.Algebra.BigOperators.Group.List.Basic
import Mathlib.Data.List.GetD

/-
  The segment that a fetcher begins with (`PlaylistFetcher::adjustSeqNumberWithAnchorTime`,
  `PlaylistFetcher::getSeqNumberForTime`).

  Main declarations:
    * `goBack`, `goForward`, `adjustSeqNumberWithAnchorTime`
    * `getSeqNumberForTime`
    * `first_iff`
    * `selects_iff`
-/

--
-- Code
--

namespace FrameworksAv

namespace PlaylistFetcher

/- The segments of a playlist by their durations. -/
structure Playlist where
  firstSeqNumber : Int
  targetDurationUs : Int
  durations : List Int
  hDurations : ∀ durationUs ∈ durations, 0 < durationUs

inductive SeekMode
| kSeekModeNextSample
| kSeekModeExactPosition
| kSeekModeNextSegment
deriving DecidableEq, Repr

def minDiffUs (mSeekMode : SeekMode) (targetDurationUs : Int) : Int :=
  if mSeekMode = .kSeekModeNextSample then -targetDurationUs else (-targetDurationUs).tdiv 2

def maxDiffUs (mSeekMode : SeekMode) (targetDurationUs : Int) : Int :=
  if mSeekMode = .kSeekModeNextSample then 0 else targetDurationUs.tdiv 2

/- The loop to earlier segments. -/
def goBack (durations : List Int) (maxDiff : Int) : Nat → Int → Nat
| 0, _ => 0
| index + 1, diffUs =>
  if maxDiff < diffUs then goBack durations maxDiff index (diffUs - durations.getD index 0)
  else index + 1

/- The loop to later segments, with the number of them. -/
def goForward (durations : List Int) (minDiff : Int) : Nat → Nat → Int → Nat
| 0, index, _ => index
| left + 1, index, diffUs =>
  if diffUs < minDiff then
    goForward durations minDiff left (index + 1) (diffUs + durations.getD (index + 1) 0)
  else index

/- With the new `mSeqNumber`. -/
def adjustSeqNumberWithAnchorTime (mPlaylist : Playlist) (mSeekMode : SeekMode)
    (mStartTimeUs mSeqNumber anchorTimeUs : Int) : Bool × Int :=
  let minDiff := minDiffUs mSeekMode mPlaylist.targetDurationUs
  let maxDiff := maxDiffUs mSeekMode mPlaylist.targetDurationUs
  let index := (mSeqNumber - mPlaylist.firstSeqNumber).toNat
  let diffUs := anchorTimeUs - mStartTimeUs
  let index :=
    if maxDiff < diffUs then goBack mPlaylist.durations maxDiff index diffUs
    else if diffUs < minDiff then
      goForward mPlaylist.durations minDiff (mPlaylist.durations.length - (index + 1)) index diffUs
    else index
  (decide (mPlaylist.firstSeqNumber + index ≠ mSeqNumber), mPlaylist.firstSeqNumber + index)

def findSegment (timeUs : Int) : List Int → Nat → Int → Nat
| [], index, _ => index
| durationUs :: durations, index, segmentStartUs =>
  if timeUs < segmentStartUs + durationUs then index
  else findSegment timeUs durations (index + 1) (segmentStartUs + durationUs)

def getSeqNumberForTime (mPlaylist : Playlist) (timeUs : Int) : Int :=
  let index := findSegment timeUs mPlaylist.durations 0 0
  let index :=
    if mPlaylist.durations.length ≤ index then mPlaylist.durations.length - 1 else index
  mPlaylist.firstSeqNumber + index

--
-- Walks
--

/- The first segment below that will do, or the lowest one. -/
def Last (good : Nat → Prop) (i j : Nat) : Prop :=
  j ≤ i ∧ (∀ k, j < k → k < i → ¬good k) ∧ (j < i ∧ good j ∨ j = 0)

/- The first segment above that will do, or the highest one. -/
def First (good : Nat → Prop) (i n j : Nat) : Prop :=
  i ≤ j ∧ j < n ∧ (∀ k, i < k → k < j → ¬good k) ∧ (i < j ∧ good j ∨ j + 1 = n)

/- Two walks end at the same segment when they agree up to there, the highest one apart. -/
theorem first_iff {good found : Nat → Prop} {i n j : Nat} (hFound : First found i n j) :
    First good i n j ↔
      ∀ k, i < k → k + 1 < n → (∀ m, i < m → m < k → ¬good m) → (good k ↔ found k) := by
  rcases hFound with ⟨hLow, hHigh, hBefore, hEnd⟩
  constructor
  · rintro ⟨-, -, hBefore', hEnd'⟩ k hk hNext hNone
    rcases Nat.lt_trichotomy k j with hLess | rfl | hMore
    · exact iff_of_false (hBefore' k hk hLess) (hBefore k hk hLess)
    · exact iff_of_true (hEnd'.resolve_right (by omega)).2 (hEnd.resolve_right (by omega)).2
    · rcases hEnd' with ⟨hj, hGood⟩ | hLast
      · exact absurd hGood (hNone j hj hMore)
      · omega
  · intro hAgree
    have hNone : ∀ k, i < k → k < j → ¬good k := by
      intro k
      induction k using Nat.strong_induction_on with
      | _ k ih =>
        intro hk hLess
        rw [hAgree k hk (by omega) fun m hm hmk => ih m hmk hm (Nat.lt_trans hmk hLess)]
        exact hBefore k hk hLess
    refine ⟨hLow, hHigh, hNone, ?_⟩
    by_cases hLast : j + 1 = n
    · exact .inr hLast
    · rcases hEnd.resolve_right hLast with ⟨hj, hGood⟩
      exact .inl ⟨hj, (hAgree j hj (by omega) hNone).mpr hGood⟩

section Walks

variable {durations : List Int} {bound : Int}

/- Where a segment begins when the first one begins at 0. -/
def startUs (durations : List Int) (j : Nat) : Int := (durations.take j).sum

theorem startUs_succ {i : Nat} (hIndex : i < durations.length) :
    startUs durations (i + 1) = startUs durations i + durations.getD i 0 := by
  rw [startUs, startUs, List.sum_take_succ durations i hIndex, List.getD_eq_getElem _ _ hIndex]

theorem goBack_spec {i : Nat} (base : Int) (hIndex : i < durations.length) :
    goBack durations bound i (base + startUs durations i) ≤ i ∧
      (∀ k, goBack durations bound i (base + startUs durations i) < k → k ≤ i →
        bound < base + startUs durations k) ∧
      (base + startUs durations (goBack durations bound i (base + startUs durations i)) ≤ bound ∨
        goBack durations bound i (base + startUs durations i) = 0) := by
  induction i with
  | zero => exact ⟨Nat.le_refl 0, fun k hk hZero => absurd hk (Nat.not_lt.mpr hZero), .inr rfl⟩
  | succ i ih =>
    have hStep : base + startUs durations (i + 1) - durations.getD i 0 =
        base + startUs durations i := by
      rw [startUs_succ (Nat.lt_of_succ_lt hIndex)]
      omega
    rw [goBack, hStep]
    split
    · rename_i hLate
      rcases ih (Nat.lt_of_succ_lt hIndex) with ⟨hLow, hBefore, hEnd⟩
      refine ⟨Nat.le_succ_of_le hLow, fun k hk hHigh => ?_, hEnd⟩
      rcases Nat.le_succ_iff.mp hHigh with hLess | rfl
      · exact hBefore k hk hLess
      · exact hLate
    · rename_i hReached
      exact
        ⟨Nat.le_refl _, fun k hk hHigh => absurd hk (Nat.not_lt.mpr hHigh),
          .inl (Int.not_lt.mp hReached)⟩

/- The walk adds the duration of the segment that it comes to. -/
theorem goForward_spec {left i : Nat} (base : Int) (hLeft : i + left + 1 = durations.length) :
    i ≤ goForward durations bound left i (base + startUs durations (i + 1)) ∧
      goForward durations bound left i (base + startUs durations (i + 1)) < durations.length ∧
      (∀ k, i ≤ k → k < goForward durations bound left i (base + startUs durations (i + 1)) →
        base + startUs durations (k + 1) < bound) ∧
      (bound ≤ base + startUs durations
            (goForward durations bound left i (base + startUs durations (i + 1)) + 1) ∨
        goForward durations bound left i (base + startUs durations (i + 1)) + 1 =
          durations.length) := by
  induction left generalizing i with
  | zero =>
    exact
      ⟨Nat.le_refl i, by rw [goForward]; omega, fun k hk hLess => absurd hk (Nat.not_le.mpr hLess),
        .inr hLeft⟩
  | succ left ih =>
    have hStep : base + startUs durations (i + 1) + durations.getD (i + 1) 0 =
        base + startUs durations (i + 1 + 1) := by
      have hSucc : startUs durations (i + 1 + 1) = _ := startUs_succ (by omega)
      omega
    rw [goForward, hStep]
    split
    · rename_i hEarly
      rcases ih (show i + 1 + left + 1 = durations.length by omega) with
        ⟨hLow, hHigh, hBefore, hEnd⟩
      refine ⟨Nat.le_of_succ_le hLow, hHigh, fun k hk hLess => ?_, hEnd⟩
      rcases Nat.eq_or_lt_of_le hk with rfl | hMore
      · exact hEarly
      · exact hBefore k hMore hLess
    · rename_i hReached
      exact
        ⟨Nat.le_refl i, by omega, fun k hk hLess => absurd hk (Nat.not_le.mpr hLess),
          .inl (Int.not_lt.mp hReached)⟩

/- The segment whose end is behind the time. -/
theorem findSegment_spec (timeUs : Int) {rest : List Int} {index : Nat} (base : Int) :
    ∃ j, findSegment timeUs rest index base = index + j ∧ j ≤ rest.length ∧
      (∀ k, k < j → base + startUs rest (k + 1) ≤ timeUs) ∧
      (timeUs < base + startUs rest (j + 1) ∨ j = rest.length) := by
  induction rest generalizing index base with
  | nil => exact ⟨0, rfl, Nat.le_refl 0, nofun, .inr rfl⟩
  | cons durationUs rest ih =>
    rw [findSegment]
    split
    · rename_i hFound
      refine ⟨0, rfl, Nat.zero_le _, nofun, .inl ?_⟩
      simpa [startUs] using hFound
    · rename_i hMore
      rcases @ih (index + 1) (base + durationUs) with ⟨j, hFound, hLength, hBefore, hEnd⟩
      have hStart : ∀ k, base + startUs (durationUs :: rest) (k + 1) =
          base + durationUs + startUs rest k := by
        intro k
        rw [startUs, List.take_succ_cons, List.sum_cons, ← startUs]
        omega
      refine ⟨j + 1, by rw [hFound]; omega, Nat.succ_le_succ hLength, fun k hk => ?_, ?_⟩
      · rw [hStart]
        cases k with
        | zero =>
          rw [startUs, List.take_zero, List.sum_nil]
          omega
        | succ k => exact hBefore k (Nat.lt_of_succ_lt_succ hk)
      · rw [hStart]
        exact hEnd.imp_right (congrArg Nat.succ)

end Walks

--
-- Selection
--

/- With the differences `d` of the segments. -/
def Selects (minDiff maxDiff : Int) (d : Nat → Int) (i n j : Nat) : Prop :=
  if maxDiff < d i then Last (fun k => d k ≤ maxDiff) i j
  else if d i < minDiff then First (fun k => minDiff ≤ d k) i n j
  else j = i

/- How far behind the wanted time a segment begins. -/
def distance (durations : List Int) (offset : Int) (i k : Nat) : Int :=
  offset + (startUs durations k - startUs durations i)

section Selection

variable (mPlaylist : Playlist) (mSeekMode : SeekMode) (mStartTimeUs anchorTimeUs : Int)

/- The index that `adjustSeqNumberWithAnchorTime` comes to. -/
theorem walk_selects_iff {durations : List Int} {minDiff maxDiff offset : Int} {i : Nat}
    (hIndex : i < durations.length) :
    Selects minDiff maxDiff (distance durations offset i) i durations.length
        (if maxDiff < offset then goBack durations maxDiff i offset
        else if offset < minDiff then
          goForward durations minDiff (durations.length - (i + 1)) i offset
        else i) ↔
      (offset ≤ maxDiff → offset < minDiff →
        ∀ k, i < k → k + 1 < durations.length →
          (∀ m, i < m → m < k → ¬minDiff ≤ distance durations offset i m) →
            (minDiff ≤ distance durations offset i k ↔
              minDiff ≤ distance durations offset i k +
                (durations.getD k 0 - durations.getD i 0))) := by
  have hOwn : distance durations offset i i = offset := by
    rw [distance, Int.sub_self, Int.add_zero]
  unfold Selects
  rw [hOwn]
  by_cases hLate : maxDiff < offset
  · rw [if_pos hLate, if_pos hLate]
    have hBase : offset - startUs durations i + startUs durations i = offset := by omega
    have hSpec := @goBack_spec durations maxDiff i (offset - startUs durations i) hIndex
    rw [hBase] at hSpec
    rcases hSpec with ⟨hLow, hBefore, hEnd⟩
    refine iff_of_true ⟨hLow, fun k hk hLess => ?_, ?_⟩ fun h => absurd hLate (Int.not_lt.mpr h)
    · have hAfter := hBefore k hk (Nat.le_of_lt hLess)
      unfold distance
      omega
    · rcases hEnd with hReached | hZero
      · refine .inl ⟨Nat.lt_of_le_of_ne hLow fun hEq => ?_, ?_⟩
        · rw [hEq] at hReached
          omega
        · unfold distance
          omega
      · exact .inr hZero
  · rw [if_neg hLate, if_neg hLate]
    by_cases hEarly : offset < minDiff
    · rw [if_pos hEarly, if_pos hEarly]
      have hBase : offset - startUs durations (i + 1) + startUs durations (i + 1) = offset := by
        omega
      have hSpec :=
        @goForward_spec durations minDiff (durations.length - (i + 1)) i
          (offset - startUs durations (i + 1)) (by omega)
      rw [hBase] at hSpec
      rcases hSpec with ⟨hLow, hHigh, hBefore, hEnd⟩
      have hFound : First (fun k => minDiff ≤ offset - startUs durations (i + 1) +
          startUs durations (k + 1)) i durations.length
          (goForward durations minDiff (durations.length - (i + 1)) i offset) := by
        refine ⟨hLow, hHigh, fun k hk hLess => Int.not_le.mpr (hBefore k (Nat.le_of_lt hk) hLess), ?_⟩
        rcases hEnd with hReached | hLast
        · refine .inl ⟨Nat.lt_of_le_of_ne hLow fun hEq => ?_, hReached⟩
          rw [← hEq] at hReached
          omega
        · exact .inr hLast
      rw [first_iff hFound]
      have hCode : ∀ k, k + 1 < durations.length →
          offset - startUs durations (i + 1) + startUs durations (k + 1) =
            distance durations offset i k + (durations.getD k 0 - durations.getD i 0) := by
        intro k hk
        have hOwnStep := startUs_succ hIndex
        have hStep : startUs durations (k + 1) = _ := startUs_succ (Nat.lt_of_succ_lt hk)
        unfold distance
        omega
      constructor
      · intro hAgree _ _ k hk hNext hNone
        rw [← hCode k hNext]
        exact hAgree k hk hNext hNone
      · intro hAgree k hk hNext hNone
        rw [hCode k hNext]
        exact hAgree (Int.not_lt.mp hLate) hEarly k hk hNext hNone
    · rw [if_neg hEarly, if_neg hEarly]
      exact iff_of_true rfl fun _ h => absurd h hEarly

theorem startUs_mono {j k : Nat} (hLe : j ≤ k) (hHigh : k ≤ mPlaylist.durations.length) :
    startUs mPlaylist.durations j ≤ startUs mPlaylist.durations k := by
  induction k with
  | zero =>
    cases Nat.le_zero.mp hLe
    exact Int.le_refl _
  | succ k ih =>
    rcases Nat.le_succ_iff.mp hLe with hLess | rfl
    · have hBefore := ih hLess (Nat.le_of_succ_le hHigh)
      have hPositive := mPlaylist.hDurations _ (List.getElem_mem hHigh)
      rw [startUs_succ hHigh, List.getD_eq_getElem _ _ hHigh]
      omega
    · exact Int.le_refl _

theorem getSeqNumberForTime_spec (timeUs : Int) (hNonempty : 0 < mPlaylist.durations.length) :
    ∃ j : Nat, getSeqNumberForTime mPlaylist timeUs = mPlaylist.firstSeqNumber + j ∧
      j < mPlaylist.durations.length ∧
      (0 ≤ timeUs → timeUs < startUs mPlaylist.durations mPlaylist.durations.length →
        startUs mPlaylist.durations j ≤ timeUs ∧ timeUs < startUs mPlaylist.durations (j + 1)) ∧
      (timeUs < 0 → j = 0) ∧
      (startUs mPlaylist.durations mPlaylist.durations.length ≤ timeUs →
        j + 1 = mPlaylist.durations.length) := by
  have hMono := @startUs_mono mPlaylist
  have hZero : startUs mPlaylist.durations 0 = 0 := rfl
  rcases @findSegment_spec timeUs mPlaylist.durations 0 0 with
    ⟨j, hFound, hLength, hBefore, hEnd⟩
  rw [Nat.zero_add] at hFound
  simp only [Int.zero_add] at hBefore hEnd
  unfold getSeqNumberForTime
  rw [hFound]
  dsimp only
  split
  · rename_i hLast
    have hTotal := hBefore (mPlaylist.durations.length - 1) (by omega)
    rw [Nat.sub_add_cancel hNonempty] at hTotal
    have hPositive := hMono hNonempty (Nat.le_refl _)
    have hFirst := hBefore 0 (by omega)
    refine ⟨_, rfl, by omega, fun _ h => ?_, fun h => ?_, fun _ => by omega⟩
    · omega
    · have hStart := hMono (Nat.zero_le _) hNonempty
      omega
  · rename_i hInside
    have hHigh := hEnd.resolve_right (by omega)
    refine ⟨j, rfl, by omega, fun hLow _ => ⟨?_, hHigh⟩, fun h => ?_, fun h => ?_⟩
    · cases j with
      | zero => exact hLow
      | succ j => exact hBefore j (Nat.lt_succ_self j)
    · by_contra hNot
      have hFirst := hBefore 0 (Nat.pos_of_ne_zero hNot)
      have hStart := hMono (Nat.zero_le (0 + 1)) hNonempty
      omega
    · have hLess : startUs mPlaylist.durations (j + 1) ≤ _ := hMono (by omega) (Nat.le_refl _)
      omega

/-
  The first of the two functions selects the right segment when it has not to go to a later one, or
  when the test after each step is as good with the duration of the segment stepped to; the second
  one always does.
-/
theorem selects_iff (timeUs : Int) {i : Nat} (hIndex : i < mPlaylist.durations.length) :
    ((∃ j : Nat,
        adjustSeqNumberWithAnchorTime mPlaylist mSeekMode mStartTimeUs
            (mPlaylist.firstSeqNumber + i) anchorTimeUs =
          (decide (j ≠ i), mPlaylist.firstSeqNumber + j) ∧
        Selects (minDiffUs mSeekMode mPlaylist.targetDurationUs)
          (maxDiffUs mSeekMode mPlaylist.targetDurationUs)
          (distance mPlaylist.durations (anchorTimeUs - mStartTimeUs) i) i
          mPlaylist.durations.length j) ↔
      (anchorTimeUs - mStartTimeUs ≤ maxDiffUs mSeekMode mPlaylist.targetDurationUs →
        anchorTimeUs - mStartTimeUs < minDiffUs mSeekMode mPlaylist.targetDurationUs →
          ∀ k, i < k → k + 1 < mPlaylist.durations.length →
            (∀ m, i < m → m < k →
              ¬minDiffUs mSeekMode mPlaylist.targetDurationUs ≤
                distance mPlaylist.durations (anchorTimeUs - mStartTimeUs) i m) →
              (minDiffUs mSeekMode mPlaylist.targetDurationUs ≤
                  distance mPlaylist.durations (anchorTimeUs - mStartTimeUs) i k ↔
                minDiffUs mSeekMode mPlaylist.targetDurationUs ≤
                  distance mPlaylist.durations (anchorTimeUs - mStartTimeUs) i k +
                    (mPlaylist.durations.getD k 0 - mPlaylist.durations.getD i 0)))) ∧
      ∃ j : Nat, getSeqNumberForTime mPlaylist timeUs = mPlaylist.firstSeqNumber + j ∧
        j < mPlaylist.durations.length ∧
        (0 ≤ timeUs → timeUs < startUs mPlaylist.durations mPlaylist.durations.length →
          startUs mPlaylist.durations j ≤ timeUs ∧ timeUs < startUs mPlaylist.durations (j + 1)) ∧
        (timeUs < 0 → j = 0) ∧
        (startUs mPlaylist.durations mPlaylist.durations.length ≤ timeUs →
          j + 1 = mPlaylist.durations.length) := by
  refine ⟨?_, getSeqNumberForTime_spec mPlaylist timeUs (Nat.zero_lt_of_lt hIndex)⟩
  rw [← walk_selects_iff hIndex]
  have hOwn : (mPlaylist.firstSeqNumber + i - mPlaylist.firstSeqNumber).toNat = i := by omega
  unfold adjustSeqNumberWithAnchorTime
  rw [hOwn]
  dsimp only
  constructor
  · rintro ⟨j, hResult, hSelects⟩
    have hSame := Int.add_left_cancel (congrArg Prod.snd hResult)
    rw [Int.ofNat_inj.mp hSame]
    exact hSelects
  · intro hSelects
    refine ⟨_, Prod.ext ?_ rfl, hSelects⟩
    apply decide_eq_decide.mpr
    rw [Ne, Ne, Int.add_right_inj, Int.ofNat_inj]

end Selection

def uneven : Playlist := ⟨0, 10, [10, 2, 10, 10], by decide⟩

theorem selects_iff_uneven :
    0 < uneven.durations.length ∧
      ∃ j : Nat, getSeqNumberForTime uneven 11 = 0 + j ∧ j < 4 :=
  ⟨by decide,
    (selects_iff uneven .kSeekModeNextSample 0 0 11 (show 0 < uneven.durations.length by decide)).2.elim
      fun j h => ⟨j, h.1, h.2.1⟩⟩

/- With the anchor 19 too early: segment 1 begins 9 too early, which will do; segment 2 is taken. -/
theorem selects_wrong :
    adjustSeqNumberWithAnchorTime uneven .kSeekModeNextSample 19 0 0 = (true, 2) ∧
      Selects (minDiffUs .kSeekModeNextSample 10) (maxDiffUs .kSeekModeNextSample 10)
        (distance uneven.durations (-19) 0) 0 4 1 := by
  constructor
  · decide
  · unfold Selects
    rw [if_neg (by decide), if_pos (by decide)]
    exact ⟨by decide, by decide, fun k hk hLess => by omega, .inl ⟨by decide, by decide⟩⟩

end PlaylistFetcher

end FrameworksAv
