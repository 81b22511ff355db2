import FrameworksAv.PacketSource.Segments

/-
  Trimming an aligned source.

  What a trim leaves is stated without the segments, so that it can be said of a queue before it is
  trimmed.

  Main declarations:
    * `before`, `latestOf`, `left`
    * `trimAfterLoop_eq`, `trimBeforeLoop_left`
    * `Aligned.trimBuffersAfterMeta`
    * `Aligned.trimBuffersBeforeMeta`
-/

--
-- Trimming the End
--

namespace FrameworksAv

namespace PacketSource

/- Discontinuities, and access units before a time. -/
def stays (stopTime : HLSTime) : ABuffer → Bool
| .discontinuity _ => true
| .data unit => (HLSTime.ofMeta (some unit.info)).less stopTime

/- What is left of a queue before a time. -/
def before (stopTime : HLSTime) (mBuffers : List ABuffer) : List ABuffer :=
  mBuffers.takeWhile (stays stopTime)

/- The last access unit of a queue, or an earlier one. -/
def latestOf : List ABuffer → Option Meta → Option Meta
| [], latest => latest
| .discontinuity _ :: mBuffers, latest => latestOf mBuffers latest
| .data unit :: mBuffers, _ => latestOf mBuffers (some unit.info)

open AnotherPacketSource

theorem trimAfterLoop_eq (stopTime : HLSTime) (mBuffers : List ABuffer) (latest : Option Meta) :
    trimAfterLoop stopTime mBuffers latest =
      (before stopTime mBuffers, marks (before stopTime mBuffers),
        latestOf (before stopTime mBuffers) latest) := by
  induction mBuffers generalizing latest with
  | nil => rfl
  | cons buffer mBuffers ih =>
    cases buffer with
    | discontinuity mark =>
      have hBefore :
          before stopTime (.discontinuity mark :: mBuffers) =
            .discontinuity mark :: before stopTime mBuffers :=
        List.takeWhile_cons_of_pos rfl
      rw [trimAfterLoop, ih, hBefore]
      rfl
    | data unit =>
      by_cases hStays : (HLSTime.ofMeta (some unit.info)).less stopTime = true
      · have hBefore :
            before stopTime (.data unit :: mBuffers) = .data unit :: before stopTime mBuffers :=
          List.takeWhile_cons_of_pos hStays
        rw [trimAfterLoop, if_neg (not_not.mpr hStays), ih, hBefore]
        rfl
      · have hBefore : before stopTime (.data unit :: mBuffers) = [] :=
          List.takeWhile_cons_of_neg hStays
        rw [trimAfterLoop, if_pos hStays, hBefore]
        rfl

theorem before_append (stopTime : HLSTime) (mBuffers : List ABuffer) :
    before stopTime mBuffers ++ mBuffers.dropWhile (stays stopTime) = mBuffers :=
  List.takeWhile_append_dropWhile

theorem lastGroup_data (unit : AccessUnit) (mBuffers : List ABuffer) :
    lastGroup (.data unit :: mBuffers) = if marks mBuffers = 0 then unit :: lastGroup mBuffers
      else lastGroup mBuffers := by
  have hLength := groups_length mBuffers
  unfold lastGroup
  rw [groups]
  cases hGroups : groups mBuffers with
  | nil => exact absurd hGroups (groups_ne_nil mBuffers)
  | cons head tail =>
    rw [hGroups, List.length_cons] at hLength
    cases tail with
    | nil =>
      have hNone : marks mBuffers = 0 := by
        simpa using hLength.symm
      rw [if_pos hNone]
      rfl
    | cons next tail =>
      have hSome : marks mBuffers ≠ 0 := by
        rw [List.length_cons] at hLength
        omega
      rw [if_neg hSome]
      rfl

theorem lastGroup_discontinuity (mark : Discontinuity) (mBuffers : List ABuffer) :
    lastGroup (.discontinuity mark :: mBuffers) = lastGroup mBuffers := by
  unfold lastGroup
  rw [groups]
  cases hGroups : groups mBuffers with
  | nil => exact absurd hGroups (groups_ne_nil mBuffers)
  | cons head tail => rfl

/- Where neither is in a queue it is empty. -/
theorem eq_nil_of_marks {mBuffers : List ABuffer} (hMarks : marks mBuffers = 0)
    (hUnits : lastGroup mBuffers = []) : mBuffers = [] := by
  cases mBuffers with
  | nil => rfl
  | cons buffer mBuffers =>
    cases buffer with
    | discontinuity mark =>
      rw [marks] at hMarks
      omega
    | data unit =>
      rw [marks] at hMarks
      rw [lastGroup_data, if_pos hMarks] at hUnits
      cases hUnits

/- The last access unit is one of the last group. -/
theorem latestOf_lastGroup {mBuffers : List ABuffer} (hUnits : lastGroup mBuffers ≠ [])
    (latest : Option Meta) :
    ∃ unit ∈ lastGroup mBuffers, latestOf mBuffers latest = some unit.info := by
  induction mBuffers generalizing latest with
  | nil => exact absurd rfl hUnits
  | cons buffer mBuffers ih =>
    cases buffer with
    | discontinuity mark =>
      rw [lastGroup_discontinuity] at hUnits ⊢
      exact ih hUnits latest
    | data unit =>
      rw [lastGroup_data] at hUnits ⊢
      by_cases hMarks : marks mBuffers = 0
      · rw [if_pos hMarks]
        by_cases hRest : lastGroup mBuffers = []
        · have hNil := eq_nil_of_marks hMarks hRest
          subst hNil
          exact ⟨unit, List.mem_cons_self, rfl⟩
        · rcases ih hRest (some unit.info) with ⟨last, hMember, hLast⟩
          exact ⟨last, List.mem_cons_of_mem _ hMember, hLast⟩
      · rw [if_neg hMarks] at hUnits ⊢
        exact ih hUnits (some unit.info)

namespace Aligned

variable {R : DiscontinuitySegment → List AccessUnit → Prop} {source : AnotherPacketSource}

/- Segments and groups up to the last one of a part of the queue in front. -/
theorem split {kept dropped : List ABuffer} (hAligned : Aligned R source)
    (hBuffers : source.mBuffers = kept ++ dropped) :
    ∃ seg, source.mDiscontinuitySegments[marks kept]? = some seg ∧
      List.Forall₂ R (source.mDiscontinuitySegments.take (marks kept)) (groups kept).dropLast ∧
      R seg (lastGroup kept ++ (groups dropped).headD []) := by
  unfold Aligned at hAligned
  rw [hBuffers, groups_append] at hAligned
  have hLength : (groups kept).dropLast.length = marks kept := by
    rw [List.length_dropLast, groups_length, Nat.add_sub_cancel]
  have hFront := List.forall₂_take_append _ _ _ hAligned
  have hBack := List.forall₂_drop_append _ _ _ hAligned
  rw [hLength] at hFront hBack
  rcases List.forall₂_cons_right_iff.mp hBack with ⟨seg, rest, hSeg, -, hDrop⟩
  refine ⟨seg, ?_, hFront, hSeg⟩
  have hHead : (source.mDiscontinuitySegments.drop (marks kept))[0]? = some seg := by
    rw [hDrop]
    rfl
  simpa using hHead

theorem trimBuffersAfterMeta (hAligned : Aligned R source) (hNew : R .new []) (info : Option Meta)
    (hTrim :
      ∀ seg more latest,
        source.mDiscontinuitySegments[marks (before (.ofMeta info) source.mBuffers)]? = some seg →
        latestOf (before (.ofMeta info) source.mBuffers) none = some latest →
        R seg (lastGroup (before (.ofMeta info) source.mBuffers) ++ more) →
        R { seg with mMaxEnqueTimeUs := latest.timeUs }
          (lastGroup (before (.ofMeta info) source.mBuffers))) :
    ∃ next, source.trimBuffersAfterMeta info = some next ∧ Aligned R next := by
  unfold AnotherPacketSource.trimBuffersAfterMeta
  by_cases hInfo : info = none
  · rw [if_pos hInfo]
    exact ⟨source, rfl, hAligned⟩
  rw [if_neg hInfo]
  by_cases hEmpty : source.mBuffers = []
  · rw [if_pos hEmpty]
    exact ⟨source, rfl, hAligned⟩
  rw [if_neg hEmpty, trimAfterLoop_eq]
  generalize hKept : before (.ofMeta info) source.mBuffers = kept at hTrim ⊢
  have hBuffers : source.mBuffers = kept ++ source.mBuffers.dropWhile (stays (.ofMeta info)) := by
    rw [← hKept, before_append]
  rcases hAligned.split hBuffers with ⟨seg, hGet, hFront, hSeg⟩
  simp only [hGet]
  refine ⟨_, rfl, ?_⟩
  unfold Aligned
  simp only
  rw [groups_dropLast kept]
  refine List.rel_append hFront (List.Forall₂.cons ?_ List.Forall₂.nil)
  cases hLatest : latestOf kept none with
  | none =>
    have hNone : lastGroup kept = [] := by
      by_contra hSome
      rcases latestOf_lastGroup hSome none with ⟨unit, -, hUnit⟩
      rw [hLatest] at hUnit
      cases hUnit
    rw [hNone]
    exact hNew
  | some latest => exact hTrim seg _ latest hGet hLatest hSeg

end Aligned

--
-- Trimming the Front
--

/-
  What is left of a queue from the first access unit behind a time on; for AVC, from the first such
  IDR unit on.
-/
def left (startTime : HLSTime) : List ABuffer → Option MetaData → Bool → List ABuffer
| [], _, _ => []
| .discontinuity _ :: mBuffers, _, _ => left startTime mBuffers none false
| .data unit :: mBuffers, format, isAvc =>
  let known := knownFormat format isAvc unit
  if known.2 && !unit.isIDR then
    left startTime mBuffers known.1 known.2
  else if startTime.less (.ofMeta (some unit.info)) then .data unit :: mBuffers
  else left startTime mBuffers known.1 known.2

/- What a trim of the front leaves of the queue. -/
def behind (source : AnotherPacketSource) (info : Option Meta) : List ABuffer :=
  left (.ofMeta info) source.mBuffers none false

variable {R : DiscontinuitySegment → List AccessUnit → Prop}

/-
  The first segments go with the discontinuities, and the next one has lost some of its access
  units.
-/
theorem trimBeforeLoop_left (startTime : HLSTime) (mBuffers : List ABuffer)
    {seg : DiscontinuitySegment} {segments : List DiscontinuitySegment} {gone : List AccessUnit}
    (hSeg : R seg (gone ++ (groups mBuffers).headD []))
    (hRest : List.Forall₂ R segments (groups mBuffers).tail) (format : Option MetaData)
    (isAvc : Bool) :
    ∃ seg' segments' first timeUs gone',
      trimBeforeLoop startTime mBuffers (seg :: segments) format isAvc =
        some (left startTime mBuffers format isAvc, seg' :: segments', first, timeUs) ∧
      R seg' (gone' ++ (groups (left startTime mBuffers format isAvc)).headD []) ∧
      List.Forall₂ R segments' (groups (left startTime mBuffers format isAvc)).tail ∧
      marks (left startTime mBuffers format isAvc) ≤ marks mBuffers ∧
      (seg :: segments)[marks mBuffers - marks (left startTime mBuffers format isAvc)]? =
        some seg' ∧
      ((left startTime mBuffers format isAvc = [] ∧ timeUs = -1) ∨
        ∃ unit rest,
          left startTime mBuffers format isAvc = .data unit :: rest ∧ timeUs = unit.timeUs) := by
  induction mBuffers generalizing seg segments gone format isAvc with
  | nil =>
    exact ⟨seg, segments, none, -1, gone, rfl, hSeg, hRest, Nat.le_refl _, rfl, .inl ⟨rfl, rfl⟩⟩
  | cons buffer mBuffers ih =>
    cases buffer with
    | discontinuity mark =>
      rw [groups, List.tail_cons, groups_cons] at hRest
      rcases List.forall₂_cons_right_iff.mp hRest with ⟨next, segments, hNext, hMore, rfl⟩
      rcases @ih next segments [] hNext hMore none false with
        ⟨seg', segments', first, timeUs, gone', hLoop, hSeg', hRest', hMarks, hGet, hFirst⟩
      refine ⟨seg', segments', first, timeUs, gone', hLoop, hSeg', hRest', ?_, ?_, hFirst⟩
      · exact Nat.le_succ_of_le hMarks
      · rw [left, marks, Nat.succ_sub hMarks]
        exact hGet
    | data unit =>
      have hGone : R seg ((gone ++ [unit]) ++ (groups mBuffers).headD []) := by
        simpa [groups] using hSeg
      rw [groups, List.tail_cons] at hRest
      have hSkip :=
        ih hGone hRest (knownFormat format isAvc unit).1 (knownFormat format isAvc unit).2
      rw [trimBeforeLoop, left]
      simp only
      by_cases hAvc : ((knownFormat format isAvc unit).2 && !unit.isIDR) = true
      · rw [if_pos hAvc, if_pos hAvc]
        exact hSkip
      · rw [if_neg hAvc, if_neg hAvc]
        by_cases hLess : startTime.less (HLSTime.ofMeta (some unit.info)) = true
        · rw [if_pos hLess, if_pos hLess]
          refine ⟨seg, segments, _, _, gone, rfl, hSeg, hRest, Nat.le_refl _, ?_,
            .inr ⟨unit, mBuffers, rfl, rfl⟩⟩
          rw [Nat.sub_self]
          rfl
        · rw [if_neg hLess, if_neg hLess]
          exact hSkip

namespace Aligned

variable {source : AnotherPacketSource}

theorem trimBuffersBeforeMeta (hAligned : Aligned R source) (hNew : R .new []) (info : Option Meta)
    (hTrim :
      ∀ seg gone (unit : AccessUnit) rest, behind source info = .data unit :: rest →
        source.mDiscontinuitySegments[marks source.mBuffers - marks (behind source info)]? =
          some seg →
        R seg (gone ++ unit :: (groups rest).headD []) →
        R { seg with mMaxDequeTimeUs := unit.timeUs }
          (unit :: (groups rest).headD [])) :
    ∃ next first, source.trimBuffersBeforeMeta info = some (next, first) ∧ Aligned R next := by
  unfold AnotherPacketSource.trimBuffersBeforeMeta
  by_cases hEmpty : source.mBuffers = []
  · rw [if_pos hEmpty]
    exact ⟨source, none, rfl, hAligned⟩
  rw [if_neg hEmpty]
  have hGroups := hAligned
  unfold Aligned at hGroups
  rw [groups_cons] at hGroups
  rcases List.forall₂_cons_right_iff.mp hGroups with ⟨seg, segments, hSeg, hRest, hSegments⟩
  rcases trimBeforeLoop_left (.ofMeta info) source.mBuffers
      (by simpa using hSeg : R seg ([] ++ (groups source.mBuffers).headD [])) hRest none false with
    ⟨seg', segments', first, timeUs, gone', hLoop, hSeg', hRest', -, hGet, hFirst⟩
  rw [← hSegments] at hLoop hGet
  rw [hLoop]
  refine ⟨_, first, rfl, ?_⟩
  unfold Aligned
  simp only
  rw [groups_cons]
  refine List.Forall₂.cons ?_ hRest'
  rcases hFirst with ⟨hNone, hTime⟩ | ⟨unit, rest, hSome, hTime⟩
  · rw [hNone, hTime, if_neg (by decide)]
    exact hNew
  · have hUnits := hSeg'
    rw [hSome] at hUnits
    rw [hSome, hTime, if_pos unit.timeUs_nonneg]
    exact hTrim seg' gone' unit rest hSome hGet hUnits

end Aligned

end PacketSource

end FrameworksAv
