import Mathlib.Algebra.Order.BigOperators.Group.List
import FrameworksAv.Base.Run
import FrameworksAv.PacketSource.Trimming

/-
  The books of a source over whole runs.

  The number of segments is right after every run. Their times are right as long as no trim takes
  the largest time of a segment away without saying so, and no access unit is queued again in a
  segment that does not know it.

  Main declarations:
    * `Respects`, `Allows`, `step_aligned`
    * `SegmentHolds`
    * `fits`
    * `Bookkept`, `run_bookkept`
-/

--
-- Steps
--

namespace FrameworksAv

namespace PacketSource

/- What a relation allows of segments and groups anyway. -/
structure Respects (R : DiscontinuitySegment → List AccessUnit → Prop) : Prop where
  new : R .new []
  enqueue :
    ∀ seg units (unit : AccessUnit), R seg units → R (seg.enqueue unit.timeUs) (units ++ [unit])
  dequeue :
    ∀ seg units (unit : AccessUnit), R seg (unit :: units) → R (seg.dequeue unit.timeUs) units

/- What a trim leaves in front of a time. -/
def kept (source : AnotherPacketSource) (info : Option Meta) : List ABuffer :=
  before (.ofMeta info) source.mBuffers

/- What else a relation has to allow for an operation. -/
def Allows (R : DiscontinuitySegment → List AccessUnit → Prop) (session : Session) : Op → Prop
| .requeueAccessUnit =>
  ∀ unit seg units, session.dequeued = some unit →
    session.source.mDiscontinuitySegments[0]? = some seg → R seg units → R seg (unit :: units)
| .trimBuffersAfterMeta info =>
  ∀ seg more latest,
    session.source.mDiscontinuitySegments[marks (kept session.source info)]? = some seg →
    latestOf (kept session.source info) none = some latest →
    R seg (lastGroup (kept session.source info) ++ more) →
    R { seg with mMaxEnqueTimeUs := latest.timeUs }
      (lastGroup (kept session.source info))
| .trimBuffersBeforeMeta info =>
  ∀ seg gone (unit : AccessUnit) rest, behind session.source info = .data unit :: rest →
    session.source.mDiscontinuitySegments[
        marks session.source.mBuffers - marks (behind session.source info)]? =
      some seg →
    R seg (gone ++ unit :: (groups rest).headD []) →
    R { seg with mMaxDequeTimeUs := unit.timeUs }
      (unit :: (groups rest).headD [])
| _ => True

variable {R : DiscontinuitySegment → List AccessUnit → Prop}

theorem Aligned.requeueAccessUnit {source : AnotherPacketSource} {unit : AccessUnit}
    (hAligned : Aligned R source)
    (hRequeue :
      ∀ seg units, source.mDiscontinuitySegments[0]? = some seg →
        R seg units → R seg (unit :: units)) :
    Aligned R (source.requeueAccessUnit unit) := by
  unfold Aligned at hAligned
  rw [groups_cons] at hAligned
  rcases List.forall₂_cons_right_iff.mp hAligned with ⟨seg, segments, hSeg, hRest, hSegments⟩
  have hHead : source.mDiscontinuitySegments[0]? = some seg := by
    rw [hSegments]
    rfl
  unfold Aligned AnotherPacketSource.requeueAccessUnit
  simp only [hSegments]
  exact List.Forall₂.cons (hRequeue seg _ hHead hSeg) hRest

/- No operation uses a segment that is not there. -/
theorem step_aligned (hRespects : Respects R) {session : Session} {op : Op}
    (hAllows : Allows R session op) (hAligned : Aligned R session.source) :
    ∃ next, session.step op = some next ∧ Aligned R next.source := by
  cases op with
  | queueAccessUnit buffer =>
    rcases hAligned.queueAccessUnit hRespects.new hRespects.enqueue buffer with
      ⟨source, hQueue, hNext⟩
    refine ⟨{ session with source := source }, ?_, hNext⟩
    rw [Session.step, hQueue]
    rfl
  | queueDiscontinuity type discard =>
    exact ⟨_, rfl, hAligned.queueDiscontinuity hRespects.new type discard⟩
  | dequeueAccessUnit =>
    rcases hAligned.dequeueAccessUnit hRespects.dequeue with ⟨source, out, hDequeue, hNext⟩
    rw [Session.step, hDequeue]
    cases out with
    | ok unit => exact ⟨⟨source, some unit⟩, rfl, hNext⟩
    | discontinuity mark => exact ⟨_, rfl, hNext⟩
    | ended result => exact ⟨_, rfl, hNext⟩
    | wait => exact ⟨_, rfl, hNext⟩
  | read =>
    rcases hAligned.read hRespects.dequeue with ⟨source, out, hRead, hNext⟩
    rw [Session.step, hRead]
    cases out with
    | ok out => exact ⟨⟨source, some out.unit⟩, rfl, hNext⟩
    | discontinuity mark => exact ⟨_, rfl, hNext⟩
    | ended result => exact ⟨_, rfl, hNext⟩
    | wait => exact ⟨_, rfl, hNext⟩
  | requeueAccessUnit =>
    unfold Session.step
    cases hDequeued : session.dequeued with
    | none => exact ⟨session, rfl, hAligned⟩
    | some unit =>
      exact ⟨_, rfl,
        hAligned.requeueAccessUnit
          (fun seg units hSeg hHolds =>
            hAllows unit seg units hDequeued hSeg hHolds)⟩
  | clear => exact ⟨_, rfl, Aligned.clear hRespects.new⟩
  | trimBuffersAfterMeta info =>
    rcases hAligned.trimBuffersAfterMeta hRespects.new info hAllows with ⟨source, hTrim, hNext⟩
    refine ⟨{ session with source := source }, ?_, hNext⟩
    rw [Session.step, hTrim]
    rfl
  | trimBuffersBeforeMeta info =>
    rcases hAligned.trimBuffersBeforeMeta hRespects.new info hAllows with
      ⟨source, first, hTrim, hNext⟩
    refine ⟨{ session with source := source }, ?_, hNext⟩
    rw [Session.step, hTrim]
    rfl
  | signalEOS result hResult => exact ⟨_, rfl, hAligned.congr rfl rfl⟩

theorem start_aligned (hRespects : Respects R) (format : Option MetaData) :
    Aligned R (Session.start format).source := by
  have hKeeps :=
    AnotherPacketSource.setFormat_keeps
      { mDiscontinuitySegments := [.new],
        mIsAudio := false,
        mIsVideo := false,
        mFormat := none,
        mLastQueuedTimeUs := 0,
        mBuffers := [],
        mEOSResult := OK,
        mLatestEnqueuedMeta := none,
        mLatestDequeuedMeta := none } format
  unfold Aligned Session.start AnotherPacketSource.new
  rw [hKeeps.1, hKeeps.2]
  exact List.Forall₂.cons hRespects.new List.Forall₂.nil

end PacketSource

--
-- Segments
--

namespace PacketSource

/- What a segment says of the access units it has queued. -/
inductive SegmentHolds : DiscontinuitySegment → List AccessUnit → Prop
| unused : SegmentHolds .new []
| used {seg : DiscontinuitySegment} {units : List AccessUnit} (hDeque : 0 ≤ seg.mMaxDequeTimeUs)
    (hOrder : seg.mMaxDequeTimeUs ≤ seg.mMaxEnqueTimeUs)
    (hCovers : ∀ unit ∈ units, unit.timeUs ≤ seg.mMaxEnqueTimeUs)
    (hReached :
      seg.mMaxEnqueTimeUs = seg.mMaxDequeTimeUs ∨
        ∃ unit ∈ units, unit.timeUs = seg.mMaxEnqueTimeUs) :
    SegmentHolds seg units

namespace SegmentHolds

variable {seg : DiscontinuitySegment} {units : List AccessUnit}

theorem order (hHolds : SegmentHolds seg units) : seg.mMaxDequeTimeUs ≤ seg.mMaxEnqueTimeUs := by
  cases hHolds with
  | unused => exact Int.le_refl _
  | used hDeque hOrder hCovers hReached => exact hOrder

theorem both (hHolds : SegmentHolds seg units) :
    (seg.mMaxDequeTimeUs = -1 ∧ seg.mMaxEnqueTimeUs = -1) ∨
      (0 ≤ seg.mMaxDequeTimeUs ∧ 0 ≤ seg.mMaxEnqueTimeUs) := by
  cases hHolds with
  | unused => exact .inl ⟨rfl, rfl⟩
  | used hDeque hOrder hCovers hReached => exact .inr ⟨hDeque, by omega⟩

theorem covers (hHolds : SegmentHolds seg units) {unit : AccessUnit} (hMember : unit ∈ units) :
    unit.timeUs ≤ seg.mMaxEnqueTimeUs := by
  cases hHolds with
  | unused => cases hMember
  | used hDeque hOrder hCovers hReached => exact hCovers unit hMember

/- Nothing is buffered where nothing is queued. -/
theorem eq_of_nil (hHolds : SegmentHolds seg []) : seg.mMaxEnqueTimeUs = seg.mMaxDequeTimeUs := by
  cases hHolds with
  | unused => rfl
  | used hDeque hOrder hCovers hReached =>
    rcases hReached with hSame | ⟨unit, hMember, -⟩
    · exact hSame
    · cases hMember

theorem enqueue (unit : AccessUnit) (hHolds : SegmentHolds seg units) :
    SegmentHolds (seg.enqueue unit.timeUs) (units ++ [unit]) := by
  have hTime : 0 ≤ unit.timeUs := unit.timeUs_nonneg
  have hLast : unit ∈ units ++ [unit] := by simp
  cases hHolds with
  | unused =>
    refine .used hTime ?_ ?_ (.inl ?_)
    all_goals simp [DiscontinuitySegment.enqueue, DiscontinuitySegment.new]
    all_goals omega
  | used hDeque hOrder hCovers hReached =>
    have hSet : seg.mMaxDequeTimeUs ≠ -1 := by omega
    unfold DiscontinuitySegment.enqueue
    rw [if_neg hSet]
    by_cases hMore : unit.timeUs > seg.mMaxEnqueTimeUs
    · rw [if_pos hMore]
      refine .used hDeque (by simp only; omega) ?_ (.inr ⟨unit, hLast, rfl⟩)
      intro other hMember
      rcases List.mem_append.mp hMember with hOld | hNew
      · have hOther := hCovers other hOld
        simp only
        omega
      · have hSame := List.mem_singleton.mp hNew
        subst hSame
        exact Int.le_refl _
    · rw [if_neg hMore]
      refine .used hDeque hOrder ?_ ?_
      · intro other hMember
        rcases List.mem_append.mp hMember with hOld | hNew
        · exact hCovers other hOld
        · rw [List.mem_singleton.mp hNew]
          simp only
          omega
      · rcases hReached with hSame | ⟨other, hOld, hOther⟩
        · exact .inl hSame
        · exact .inr ⟨other, List.mem_append_left _ hOld, hOther⟩

theorem dequeue {unit : AccessUnit} (hHolds : SegmentHolds seg (unit :: units)) :
    SegmentHolds (seg.dequeue unit.timeUs) units := by
  cases hHolds with
  | used hDeque hOrder hCovers hReached =>
    have hUnit := hCovers unit List.mem_cons_self
    have hRest : ∀ other ∈ units, other.timeUs ≤ seg.mMaxEnqueTimeUs := fun other hMember =>
        hCovers other (List.mem_cons_of_mem _ hMember)
    unfold DiscontinuitySegment.dequeue
    by_cases hMore : unit.timeUs > seg.mMaxDequeTimeUs
    · rw [if_pos hMore]
      refine .used unit.timeUs_nonneg hUnit hRest ?_
      rcases hReached with hSame | ⟨other, hMember, hOther⟩
      · simp only
        omega
      · rcases List.mem_cons.mp hMember with rfl | hOld
        · exact .inl hOther.symm
        · exact .inr ⟨other, hOld, hOther⟩
    · rw [if_neg hMore]
      refine .used hDeque hOrder hRest ?_
      rcases hReached with hSame | ⟨other, hMember, hOther⟩
      · exact .inl hSame
      · rcases List.mem_cons.mp hMember with rfl | hOld
        · left
          omega
        · exact .inr ⟨other, hOld, hOther⟩

/- An access unit that the segment knows comes back. -/
theorem requeue {unit : AccessUnit} (hHolds : SegmentHolds seg units)
    (hKnown : unit.timeUs ≤ seg.mMaxEnqueTimeUs) : SegmentHolds seg (unit :: units) := by
  have hTime : 0 ≤ unit.timeUs := unit.timeUs_nonneg
  cases hHolds with
  | unused => exact absurd (Int.le_trans hTime hKnown) (by decide)
  | used hDeque hOrder hCovers hReached =>
    refine .used hDeque hOrder ?_ ?_
    · intro other hMember
      rcases List.mem_cons.mp hMember with rfl | hOld
      · exact hKnown
      · exact hCovers other hOld
    · rcases hReached with hSame | ⟨other, hOld, hOther⟩
      · exact .inl hSame
      · exact .inr ⟨other, List.mem_cons_of_mem _ hOld, hOther⟩

/- The end is trimmed to a time that nothing left exceeds. -/
theorem trimAfter {more : List AccessUnit} {timeUs : Int}
    (hHolds : SegmentHolds seg (units ++ more)) (hSet : seg.mMaxDequeTimeUs ≠ -1)
    (hOrder : seg.mMaxDequeTimeUs ≤ timeUs) (hCovers : ∀ unit ∈ units, unit.timeUs ≤ timeUs)
    (hReached : timeUs = seg.mMaxDequeTimeUs ∨ ∃ unit ∈ units, unit.timeUs = timeUs) :
    SegmentHolds { seg with mMaxEnqueTimeUs := timeUs }
      units := by
  have hDeque : 0 ≤ seg.mMaxDequeTimeUs := by
    rcases hHolds.both with ⟨hNone, -⟩ | ⟨hDeque, -⟩
    · exact absurd hNone hSet
    · exact hDeque
  exact .used hDeque hOrder hCovers hReached

/- The front is trimmed, and the largest time is left. -/
theorem trimBefore {gone : List AccessUnit} {unit : AccessUnit}
    (hHolds : SegmentHolds seg (gone ++ unit :: units))
    (hLeft : ∃ other ∈ unit :: units, other.timeUs = seg.mMaxEnqueTimeUs) :
    SegmentHolds { seg with mMaxDequeTimeUs := unit.timeUs }
      (unit :: units) := by
  have hRest : ∀ other ∈ unit :: units, other.timeUs ≤ seg.mMaxEnqueTimeUs := fun other hMember =>
      hHolds.covers (List.mem_append_right gone hMember)
  exact .used unit.timeUs_nonneg (hRest unit List.mem_cons_self) hRest (.inr hLeft)

theorem respects : Respects SegmentHolds where
  new := .unused
  enqueue _ _ unit hHolds := hHolds.enqueue unit
  dequeue _ _ _ hHolds := hHolds.dequeue

end SegmentHolds

--
-- Operations that Fit
--

/-
  The segment that a trim of the end writes to has been dequeued from up to a time that the last
  access unit left reaches, that unit is the latest of the segment, and it is one of the segment or
  the last one dequeued.
-/
def fitsAfter (source : AnotherPacketSource) (info : Option Meta) : Bool :=
  match source.mDiscontinuitySegments[marks (kept source info)]?,
    latestOf (kept source info) none with
  | some seg, some latest =>
    decide (seg.mMaxDequeTimeUs ≠ -1) &&
      decide (seg.mMaxDequeTimeUs ≤ latest.timeUs) &&
      (lastGroup (kept source info)).all (fun unit => unit.timeUs ≤ latest.timeUs) &&
      (decide (lastGroup (kept source info) ≠ []) ||
        decide (seg.mMaxDequeTimeUs = latest.timeUs))
  | _, _ => true

/-
  A trim of the front leaves an access unit with the largest time of its segment, or none at all.
-/
def fitsBefore (source : AnotherPacketSource) (info : Option Meta) : Bool :=
  match behind source info,
    source.mDiscontinuitySegments[marks source.mBuffers - marks (behind source info)]? with
  | .data unit :: rest, some seg =>
    (unit :: (groups rest).headD []).any (fun other => other.timeUs == seg.mMaxEnqueTimeUs)
  | _, _ => true

/- The first segment knows the access unit that comes back. -/
def fitsRequeue (session : Session) : Bool :=
  match session.dequeued, session.source.mDiscontinuitySegments[0]? with
  | some unit, some seg => decide (unit.timeUs ≤ seg.mMaxEnqueTimeUs)
  | _, _ => true

def fits (session : Session) : Op → Bool
| .requeueAccessUnit => fitsRequeue session
| .trimBuffersAfterMeta info => fitsAfter session.source info
| .trimBuffersBeforeMeta info => fitsBefore session.source info
| _ => true

theorem allows_of_fits {session : Session} {op : Op} (hFits : fits session op = true) :
    Allows SegmentHolds session op := by
  cases op with
  | requeueAccessUnit =>
    intro unit seg units hUnit hSeg hHolds
    rw [fits, fitsRequeue, hUnit, hSeg] at hFits
    exact hHolds.requeue (of_decide_eq_true hFits)
  | trimBuffersAfterMeta info =>
    intro seg more latest hSeg hLatest hHolds
    rw [fits, fitsAfter, hSeg, hLatest] at hFits
    simp only [Bool.and_eq_true, Bool.or_eq_true, decide_eq_true_eq, List.all_eq_true] at hFits
    rcases hFits with ⟨⟨⟨hSet, hOrder⟩, hCovers⟩, hLast⟩
    refine hHolds.trimAfter hSet hOrder hCovers ?_
    by_cases hSome : lastGroup (kept session.source info) = []
    · rcases hLast with hOther | hSame
      · exact absurd hSome hOther
      · exact .inl hSame.symm
    · rcases latestOf_lastGroup hSome none with ⟨unit, hMember, hUnit⟩
      rw [hLatest] at hUnit
      cases hUnit
      exact .inr ⟨unit, hMember, rfl⟩
  | trimBuffersBeforeMeta info =>
    intro seg gone unit rest hLeft hSeg hHolds
    rw [fits, fitsBefore, hSeg, hLeft] at hFits
    simp only [List.any_eq_true, beq_iff_eq] at hFits
    exact hHolds.trimBefore hFits
  | queueAccessUnit buffer => trivial
  | queueDiscontinuity type discard => trivial
  | dequeueAccessUnit => trivial
  | read => trivial
  | clear => trivial
  | signalEOS result hResult => trivial

--
-- Runs
--

/- The claims that the books make after a run. -/
structure Bookkept (source : AnotherPacketSource) : Prop where
  count : source.mDiscontinuitySegments.length = marks source.mBuffers + 1
  order : ∀ seg ∈ source.mDiscontinuitySegments, seg.mMaxDequeTimeUs ≤ seg.mMaxEnqueTimeUs
  both :
    ∀ seg ∈ source.mDiscontinuitySegments,
      (seg.mMaxDequeTimeUs = -1 ∧ seg.mMaxEnqueTimeUs = -1) ∨
        (0 ≤ seg.mMaxDequeTimeUs ∧ 0 ≤ seg.mMaxEnqueTimeUs)
  covers :
    ∀ (i : Nat) (seg : DiscontinuitySegment) (units : List AccessUnit),
      source.mDiscontinuitySegments[i]? = some seg → (groups source.mBuffers)[i]? = some units →
      ∀ unit ∈ units, unit.timeUs ≤ seg.mMaxEnqueTimeUs
  nonneg : source.bufferedUs < 2 ^ 63 → 0 ≤ source.getBufferedDurationUs.1
  empty : source.mBuffers = [] → source.getBufferedDurationUs.1 = 0

variable {source : AnotherPacketSource}

/- A related segment at the place of every group. -/
theorem Aligned.at {R : DiscontinuitySegment → List AccessUnit → Prop} (hAligned : Aligned R source)
    {i : Nat} {seg : DiscontinuitySegment} {units : List AccessUnit}
    (hSeg : source.mDiscontinuitySegments[i]? = some seg)
    (hUnits : (groups source.mBuffers)[i]? = some units) : R seg units := by
  rcases List.getElem?_eq_some_iff.mp hSeg with ⟨hLeft, hSeg⟩
  rcases List.getElem?_eq_some_iff.mp hUnits with ⟨hRight, hUnits⟩
  have hAt := List.Forall₂.get hAligned hLeft hRight
  rw [List.get_eq_getElem, List.get_eq_getElem] at hAt
  rw [← hSeg, ← hUnits]
  exact hAt

theorem Aligned.exists_group {R : DiscontinuitySegment → List AccessUnit → Prop}
    (hAligned : Aligned R source) {seg : DiscontinuitySegment}
    (hMember : seg ∈ source.mDiscontinuitySegments) : ∃ units, R seg units := by
  rcases List.getElem_of_mem hMember with ⟨i, hLess, hSeg⟩
  have hRight : i < (groups source.mBuffers).length := by
    rw [← List.Forall₂.length_eq hAligned]
    exact hLess
  exact ⟨_, hAligned.at (List.getElem?_eq_some_iff.mpr ⟨hLess, hSeg⟩)
    (List.getElem?_eq_getElem hRight)⟩

theorem bufferedUs_nonneg (hAligned : Aligned SegmentHolds source) : 0 ≤ source.bufferedUs := by
  refine List.sum_nonneg ?_
  intro timeUs hMember
  rcases List.mem_map.mp hMember with ⟨seg, hSeg, rfl⟩
  rcases hAligned.exists_group hSeg with ⟨units, hHolds⟩
  exact Int.sub_nonneg_of_le hHolds.order

/- The duration is exact as long as it fits 64 bits. -/
theorem getBufferedDurationUs_eq (hNonneg : 0 ≤ source.bufferedUs)
    (hSmall : source.bufferedUs < 2 ^ 63) : source.getBufferedDurationUs.1 = source.bufferedUs := by
  unfold AnotherPacketSource.getBufferedDurationUs
  refine Int.bmod_eq_of_le ?_ ?_
  · omega
  · omega

theorem Aligned.bookkept (hAligned : Aligned SegmentHolds source) : Bookkept source where
  count := hAligned.length_eq
  order seg hMember := by
    rcases hAligned.exists_group hMember with ⟨units, hHolds⟩
    exact hHolds.order
  both seg hMember := by
    rcases hAligned.exists_group hMember with ⟨units, hHolds⟩
    exact hHolds.both
  covers i seg units hSeg hUnits unit hMember := (hAligned.at hSeg hUnits).covers hMember
  nonneg hSmall := by
    have hNonneg := bufferedUs_nonneg hAligned
    rw [getBufferedDurationUs_eq hNonneg hSmall]
    exact hNonneg
  empty hEmpty := by
    have hGroups := hAligned
    unfold Aligned at hGroups
    rw [hEmpty] at hGroups
    rcases List.forall₂_cons_right_iff.mp hGroups with ⟨seg, rest, hSeg, hRest, hSegments⟩
    rw [List.forall₂_nil_right_iff] at hRest
    have hZero : source.bufferedUs = 0 := by
      rw [AnotherPacketSource.bufferedUs, hSegments, hRest]
      simp [hSeg.eq_of_nil]
    rw [getBufferedDurationUs_eq (by omega) (by omega), hZero]

/- There is a segment for each discontinuity, and one more. -/
def Counted (_seg : DiscontinuitySegment) (_units : List AccessUnit) : Prop :=
  True

theorem counted_respects : Respects Counted where
  new := trivial
  enqueue _ _ _ _ := trivial
  dequeue _ _ _ _ := trivial

theorem allows_counted (session : Session) (op : Op) : Allows Counted session op := by
  cases op with
  | requeueAccessUnit => exact fun _ _ _ _ _ _ => trivial
  | trimBuffersAfterMeta info => exact fun _ _ _ _ _ _ => trivial
  | trimBuffersBeforeMeta info => exact fun _ _ _ _ _ _ _ => trivial
  | queueAccessUnit buffer => trivial
  | queueDiscontinuity type discard => trivial
  | dequeueAccessUnit => trivial
  | read => trivial
  | clear => trivial
  | signalEOS result hResult => trivial

theorem run_counted {format : Option MetaData} {ops : List Op} {session : Session}
    (hRun : Run.exec Session.step (.start format) ops = some session) :
    Aligned Counted session.source := by
  refine
    Run.exec_invariant
      (fun before op after hBefore hStep => ?_ :
        ∀ (before : Session) op after, Aligned Counted before.source → before.step op = some after →
          Aligned Counted after.source)
      hRun (start_aligned counted_respects format)
  rcases step_aligned counted_respects (allows_counted before op) hBefore with ⟨next, hNext, hAfter⟩
  rw [hNext] at hStep
  cases hStep
  exact hAfter

theorem run_holds {format : Option MetaData} {ops : List Op} {session : Session}
    (hRun :
      Run.exec (Run.guarded (fun s op => fits s op = true) Session.step) (.start format) ops =
        some session) :
    Aligned SegmentHolds session.source := by
  refine
    Run.exec_invariant
      (fun before op after hBefore hStep => ?_ :
        ∀ (before : Session) op after, Aligned SegmentHolds before.source →
          Run.guarded (fun s op => fits s op = true) Session.step before op = some after →
          Aligned SegmentHolds after.source)
      hRun (start_aligned SegmentHolds.respects format)
  rcases Run.guarded_eq_some.mp hStep with ⟨hFits, hStep⟩
  rcases step_aligned SegmentHolds.respects (allows_of_fits hFits) hBefore with
    ⟨next, hNext, hAfter⟩
  rw [hNext] at hStep
  cases hStep
  exact hAfter

/-
  After every run there is one segment more than there are discontinuities, and every operation can
  go on; after every run of operations that fit all of the books are right.
-/
theorem run_bookkept {format : Option MetaData} {ops : List Op} {session : Session}
    (hRun : Run.exec Session.step (.start format) ops = some session) :
    session.source.mDiscontinuitySegments.length = marks session.source.mBuffers + 1 ∧
      (∀ op, ∃ next, session.step op = some next) ∧
      (Run.exec (Run.guarded (fun s op => fits s op = true) Session.step) (.start format) ops =
          some session →
        Bookkept session.source) := by
  have hCounted := run_counted hRun
  refine ⟨hCounted.length_eq, ?_, ?_⟩
  · intro op
    rcases step_aligned counted_respects (allows_counted session op) hCounted with ⟨next, hNext, -⟩
    exact ⟨next, hNext⟩
  · intro hFits
    exact (run_holds hFits).bookkept

/- An access unit of a stream without discontinuities. -/
def frame (timeUs : Nat) : AccessUnit where
  info := ⟨0, timeUs, none⟩
  timeUs_nonneg := Int.natCast_nonneg timeUs
  format := none
  isIDR := true
  damaged := false
  isSync := none
  sei := none

/- Two frames, of which one is taken and brought back. -/
def returned : List Op :=
  [.queueAccessUnit (.data (frame 40)), .queueAccessUnit (.data (frame 20)),
    .dequeueAccessUnit, .requeueAccessUnit, .queueDiscontinuity 1 false]

theorem run_bookkept_returned :
    ∃ session, Run.exec Session.step (.start none) returned = some session ∧
      session.source.mDiscontinuitySegments.length = 2 ∧ Bookkept session.source :=
  let session := (Run.exec Session.step (.start none) returned).get (by decide)
  have hRun : Run.exec Session.step (.start none) returned = some session :=
    (Option.some_get _).symm
  have hAll := run_bookkept hRun
  ⟨session, hRun, by decide, hAll.2.2 (by decide)⟩

/- A trim behind a discontinuity that ends the queue. -/
def trimmed : List Op :=
  [.queueAccessUnit (.data (frame 100)), .queueDiscontinuity 1 false,
    .trimBuffersAfterMeta (some ⟨0, 200, none⟩), .dequeueAccessUnit, .dequeueAccessUnit]

def drained : Session :=
  (Run.exec Session.step (.start none) trimmed).get (by decide)

/- The queue is empty and 101 microseconds are buffered. -/
theorem bookkept_rejected :
    ¬∀ (format : Option MetaData) (ops : List Op) (session : Session),
      Run.exec Session.step (.start format) ops = some session → Bookkept session.source := by
  intro hAll
  have hRun : Run.exec Session.step (.start none) trimmed = some drained := (Option.some_get _).symm
  have hZero := (hAll none trimmed drained hRun).empty (by decide)
  have hLeft : drained.source.getBufferedDurationUs.1 = 101 := by
    decide
  omega

end PacketSource

end FrameworksAv
