import FrameworksAv.Camera3.Handouts
import FrameworksAv.Camera3.Reports
import FrameworksAv.Camera3.Transitions

/-
  The streams of a device and the tracker of their components.

  Main declarations:
    * `System`, `System.step`
    * `Reconfigured`, `KeepsMarks`
    * `Linked`
    * `idle_tracked`
-/

--
-- The device's streams
--

namespace FrameworksAv

namespace Camera3

structure System where
  streams : List Camera3Stream
  tracker : StatusTracker

inductive Event
| stream (i : Nat) (a : Action)
| round (first : List Nat) (signaled : List (List Nat))

def System.step (s : System) : Event → Option System
| .stream i a =>
  match s.streams[i]? with
  | none => none
  | some stream =>
    (Camera3.step ⟨stream, s.tracker⟩ a).map fun c =>
      { streams := s.streams.set i c.stream
        tracker := c.tracker }
| .round first signaled => some { s with tracker := s.tracker.threadLoop first signaled }

/- Streams as their constructors leave them. -/
def System.start (valid : List Bool) : System where
  streams := valid.map Camera3Stream.construct
  tracker := StatusTracker.init

/- What an event does with one of the streams. -/
def AtStream (P : Camera3Stream → Action → Prop) (s : System) : Event → Prop
| .stream i a => ∀ stream, s.streams[i]? = some stream → P stream a
| .round _ _ => True

/-
  After a cancelled reconfiguration the stream is configured but has no component; the next
  configuration comes before the next `getBuffer`.
-/
def Reconfigured (s : Camera3Stream) : Action → Prop
| .getBuffer _ => s.mState = .STATE_CONFIGURED → s.mStatusId ≠ NO_STATUS_ID
| _ => True

/-
  A signalled thread does not take a buffer while the stream is reconfigured or prepared, nor after
  a reconfiguration that was cancelled.
-/
def KeepsMarks (s : Camera3Stream) : Action → Prop
| .resume dequeue =>
  dequeue = .OK →
    s.mState ≠ .STATE_IN_RECONFIG ∧ s.mState ≠ .STATE_PREPARING ∧
      (s.mState = .STATE_CONFIGURED → s.mStatusId ≠ NO_STATUS_ID)
| _ => True

instance : ∀ s a, Decidable (Reconfigured s a)
| s, .getBuffer _ =>
  inferInstanceAs (Decidable (s.mState = .STATE_CONFIGURED → s.mStatusId ≠ NO_STATUS_ID))
| _, .startConfiguration _ _ _ => isTrue trivial
| _, .configure_streams _ _ => isTrue trivial
| _, .finishConfiguration _ _ => isTrue trivial
| _, .cancelConfiguration => isTrue trivial
| _, .startPrepare _ => isTrue trivial
| _, .prepareNextBuffer _ _ => isTrue trivial
| _, .cancelPrepare _ => isTrue trivial
| _, .tearDown _ => isTrue trivial
| _, .resume _ => isTrue trivial
| _, .timedOut => isTrue trivial
| _, .returnBuffer _ _ => isTrue trivial

instance : ∀ s a, Decidable (KeepsMarks s a)
| s, .resume dequeue =>
  inferInstanceAs (Decidable
    (dequeue = .OK →
      s.mState ≠ .STATE_IN_RECONFIG ∧ s.mState ≠ .STATE_PREPARING ∧
        (s.mState = .STATE_CONFIGURED → s.mStatusId ≠ NO_STATUS_ID)))
| _, .startConfiguration _ _ _ => isTrue trivial
| _, .configure_streams _ _ => isTrue trivial
| _, .finishConfiguration _ _ => isTrue trivial
| _, .cancelConfiguration => isTrue trivial
| _, .startPrepare _ => isTrue trivial
| _, .prepareNextBuffer _ _ => isTrue trivial
| _, .cancelPrepare _ => isTrue trivial
| _, .tearDown _ => isTrue trivial
| _, .getBuffer _ => isTrue trivial
| _, .timedOut => isTrue trivial
| _, .returnBuffer _ _ => isTrue trivial

instance (P : Camera3Stream → Action → Prop) [∀ s a, Decidable (P s a)] :
    ∀ s e, Decidable (AtStream P s e)
| s, .stream i a =>
  match hAt : s.streams[i]? with
  | none => isTrue (fun stream hSome => by simp [hAt] at hSome)
  | some stream =>
    decidable_of_iff (P stream a)
      ⟨fun hHolds _ hSome => by
          rw [hAt] at hSome
          cases hSome
          exact hHolds,
        fun hAll => hAll stream hAt⟩
| _, .round _ _ => isTrue trivial

/- A buffer was taken in this state and is not returned. -/
def Busy (s : Camera3Stream) : Prop :=
  s.mState = .STATE_CONFIGURED ∧ 0 < held s

instance (s : Camera3Stream) : Decidable (Busy s) :=
  inferInstanceAs (Decidable (_ ∧ _))

/- The marks and the notifications so far. -/
structure Tracked (s : System) : Prop where
  alternates : ∀ id, Alternates .IDLE (s.tracker.marksOf id)
  active :
    ∀ stream ∈ s.streams, stream.mStatusId ≠ NO_STATUS_ID →
      (lastOf .IDLE (s.tracker.marksOf stream.mStatusId) = .ACTIVE ↔ Busy stream)
  notified : Alternates .IDLE s.tracker.notified

/- What the parent was told last is the state of the device. -/
def Told (s : System) : Prop :=
  lastOf .IDLE s.tracker.notified = .ACTIVE ↔
    (∃ stream ∈ s.streams, stream.mStatusId ≠ NO_STATUS_ID ∧ Busy stream) ∨
      s.tracker.mIdleFence.isSignaled s.tracker.seen = false

theorem reports_of {s : Camera3Stream} (hQuiet : s.slots.Quiet) {a : Action}
    (hWoken : ∀ dequeue, a = .resume dequeue → s.woken ≠ 0) (hReconfigured : Reconfigured s a)
    (hKeeps : KeepsMarks s a) : s.slots.Reports a := by
  cases a with
  | getBuffer dequeue => exact hReconfigured
  | resume dequeue =>
    intro hDequeue hGets
    rcases hKeeps hDequeue with ⟨hNotRe, hNotPre, hTracked⟩
    have hState : s.mState = .STATE_CONFIGURED := by
      cases hState : s.mState with
      | STATE_CONFIGURED => rfl
      | STATE_IN_RECONFIG => exact absurd hState hNotRe
      | STATE_PREPARING => exact absurd hState hNotPre
      | STATE_IN_CONFIG =>
        have hNone := (hQuiet (Or.inr hState)).2.2
        exact absurd hNone (hWoken dequeue rfl)
      | STATE_ERROR | STATE_CONSTRUCTED =>
        have hNot : s.slots.mState.gets := hGets
        simp only [Camera3Stream.slots, hState] at hNot
        exact absurd hNot id
    exact ⟨hState, hTracked hState⟩
  | startConfiguration | configure_streams
  | finishConfiguration | cancelConfiguration | startPrepare
  | prepareNextBuffer | cancelPrepare | tearDown | timedOut
  | returnBuffer => trivial

--
-- Components
--

/-
  The components of the tracker are those of the streams, one for each, and their marks say whether
  they are active.
-/
structure Linked (streams : List Camera3Stream) (t : StatusTracker) : Prop where
  sound : ∀ s ∈ streams, Sound s
  settled : ∀ s ∈ streams, s.slots.Settled
  knows : t.Knows
  notifies : t.Notifies
  alternates : ∀ id, Alternates .IDLE (t.marksOf id)
  component :
    ∀ id, (t.mStates.lookup id).isSome ↔
      id ≠ NO_STATUS_ID ∧ ∃ (i : Nat) (s : Camera3Stream), streams[i]? = some s ∧ s.mStatusId = id
  distinct :
    ∀ (i j : Nat) (s u : Camera3Stream), streams[i]? = some s → streams[j]? = some u →
      s.mStatusId = u.mStatusId → s.mStatusId ≠ NO_STATUS_ID → i = j
  active :
    ∀ (i : Nat) (s : Camera3Stream),
      streams[i]? = some s → s.mStatusId ≠ NO_STATUS_ID →
        (lastOf .IDLE (t.marksOf s.mStatusId) = .ACTIVE ↔ s.slots.Active)

theorem getElem?_set_iff {streams : List Camera3Stream} {i j : Nat} {s t u : Camera3Stream}
    (hOld : streams[i]? = some s) :
    (streams.set i t)[j]? = some u ↔ j = i ∧ u = t ∨ j ≠ i ∧ streams[j]? = some u := by
  have hLength : i < streams.length := (List.getElem?_eq_some_iff.mp hOld).1
  rw [List.getElem?_set]
  by_cases hSame : i = j
  · subst hSame
    simp [hLength, eq_comm]
  · simp [hSame, Ne.symm hSame]

/- A stream other than the `i`th has the component. -/
def OthersHave (streams : List Camera3Stream) (i : Nat) (id : Int) : Prop :=
  ∃ (j : Nat) (u : Camera3Stream), j ≠ i ∧ streams[j]? = some u ∧ u.mStatusId = id

theorem has_set_iff {streams : List Camera3Stream} {i : Nat} {s : Camera3Stream}
    (hOld : streams[i]? = some s) (t : Camera3Stream) (id : Int) :
    (∃ (j : Nat) (u : Camera3Stream), (streams.set i t)[j]? = some u ∧ u.mStatusId = id) ↔
      t.mStatusId = id ∨ OthersHave streams i id := by
  constructor
  · rintro ⟨j, u, hMem, hId⟩
    rcases (getElem?_set_iff hOld).mp hMem with ⟨-, rfl⟩ | ⟨hNe, hRest⟩
    · exact Or.inl hId
    · exact Or.inr ⟨j, u, hNe, hRest, hId⟩
  · rintro (hId | ⟨j, u, hNe, hMem, hId⟩)
    · exact ⟨i, t, (getElem?_set_iff hOld).mpr (Or.inl ⟨rfl, rfl⟩), hId⟩
    · exact ⟨j, u, (getElem?_set_iff hOld).mpr (Or.inr ⟨hNe, hMem⟩), hId⟩

theorem has_iff {streams : List Camera3Stream} {i : Nat} {s : Camera3Stream}
    (hOld : streams[i]? = some s) (id : Int) :
    (∃ (j : Nat) (u : Camera3Stream), streams[j]? = some u ∧ u.mStatusId = id) ↔
      s.mStatusId = id ∨ OthersHave streams i id := by
  have hSet := has_set_iff hOld s id
  rcases List.getElem?_eq_some_iff.mp hOld with ⟨hLess, rfl⟩
  rw [List.set_getElem_self] at hSet
  exact hSet

/- The component of a stream is no other stream's. -/
theorem Linked.not_others {streams : List Camera3Stream} {t : StatusTracker}
    (hLinked : Linked streams t) {i : Nat} {s : Camera3Stream} (hOld : streams[i]? = some s)
    (hId : s.mStatusId ≠ NO_STATUS_ID) : ¬ OthersHave streams i s.mStatusId := by
  rintro ⟨j, u, hNe, hMem, hSame⟩
  exact hNe (hLinked.distinct i j s u hOld hMem hSame.symm hId).symm

theorem distinct_set {streams : List Camera3Stream} {t : StatusTracker} (hLinked : Linked streams t)
    {i : Nat} {s w : Camera3Stream} (hOld : streams[i]? = some s)
    (hOthers : w.mStatusId ≠ NO_STATUS_ID → ¬ OthersHave streams i w.mStatusId) (j k : Nat)
    (u v : Camera3Stream) (hU : (streams.set i w)[j]? = some u)
    (hV : (streams.set i w)[k]? = some v) (hSame : u.mStatusId = v.mStatusId)
    (hId : u.mStatusId ≠ NO_STATUS_ID) : j = k := by
  rcases (getElem?_set_iff hOld).mp hU with ⟨hJ, rfl⟩ | ⟨hJ, hOldU⟩
  · rcases (getElem?_set_iff hOld).mp hV with ⟨hK, rfl⟩ | ⟨hK, hOldV⟩
    · rw [hJ, hK]
    · exact absurd ⟨k, v, hK, hOldV, hSame.symm⟩ (hOthers hId)
  · rcases (getElem?_set_iff hOld).mp hV with ⟨hK, rfl⟩ | ⟨hK, hOldV⟩
    · rw [hSame] at hId
      exact absurd ⟨j, u, hJ, hOldU, hSame⟩ (hOthers hId)
    · exact hLinked.distinct j k u v hOldU hOldV hSame hId

/- The active streams, when other marks did not change. -/
theorem active_set {streams : List Camera3Stream} {t r : StatusTracker} (hLinked : Linked streams t)
    {i : Nat} {s w : Camera3Stream} (hOld : streams[i]? = some s)
    (hHere :
      w.mStatusId ≠ NO_STATUS_ID →
        (lastOf .IDLE (r.marksOf w.mStatusId) = .ACTIVE ↔ w.slots.Active))
    (hThere : ∀ id, OthersHave streams i id → id ≠ NO_STATUS_ID → r.marksOf id = t.marksOf id)
    (j : Nat) (u : Camera3Stream) (hU : (streams.set i w)[j]? = some u)
    (hId : u.mStatusId ≠ NO_STATUS_ID) :
    lastOf .IDLE (r.marksOf u.mStatusId) = .ACTIVE ↔ u.slots.Active := by
  rcases (getElem?_set_iff hOld).mp hU with ⟨-, rfl⟩ | ⟨hJ, hOldU⟩
  · exact hHere hId
  · rw [hThere u.mStatusId ⟨j, u, hJ, hOldU, rfl⟩ hId]
    exact hLinked.active j u hOldU hId

theorem mem_set_cases {P : Camera3Stream → Prop} {streams : List Camera3Stream}
    (hAll : ∀ s ∈ streams, P s) {i : Nat} {w : Camera3Stream} (hNew : P w) :
    ∀ s ∈ streams.set i w, P s := by
  intro s hMem
  rcases List.mem_or_eq_of_mem_set hMem with hOld | rfl
  · exact hAll s hOld
  · exact hNew

--
-- Reports arrive
--

section Arrival

variable {streams : List Camera3Stream} {t : StatusTracker} {i : Nat} {s w : Camera3Stream}

theorem Linked.nothing (hLinked : Linked streams t) (hOld : streams[i]? = some s) (hSound : Sound w)
    (hSettled : w.slots.Settled) (hFits : Report.Fits s.slots w.slots .nothing) :
    Linked (streams.set i w) t := by
  rcases hFits with ⟨hId, hActive⟩
  have hSame : w.mStatusId = s.mStatusId := hId
  constructor
  · exact mem_set_cases hLinked.sound hSound
  · exact mem_set_cases hLinked.settled hSettled
  · exact hLinked.knows
  · exact hLinked.notifies
  · exact hLinked.alternates
  · intro id
    rw [hLinked.component id, has_iff hOld, has_set_iff hOld, hSame]
  · refine distinct_set hLinked hOld ?_
    rw [hSame]
    exact hLinked.not_others hOld
  · refine active_set hLinked hOld ?_ fun _ _ _ => rfl
    rw [hSame, hActive]
    exact hLinked.active i s hOld

theorem Linked.added (hLinked : Linked streams t) (hOld : streams[i]? = some s) (hSound : Sound w)
    (hSettled : w.slots.Settled) (hFits : Report.Fits s.slots w.slots (.added t.mNextComponentId)) :
    Linked (streams.set i w) t.addComponent := by
  rcases hFits with ⟨hNone, hId, hActive⟩
  have hBefore : s.mStatusId = NO_STATUS_ID := hNone
  have hNew : w.mStatusId = t.mNextComponentId := hId
  have hCounted := hLinked.knows.counted
  have hReal : t.mNextComponentId ≠ NO_STATUS_ID := by
    unfold NO_STATUS_ID
    omega
  have hFresh : ¬ OthersHave streams i t.mNextComponentId := by
    rintro ⟨j, u, -, hMem, hSame⟩
    have hSome := (hLinked.component t.mNextComponentId).mpr ⟨hReal, j, u, hMem, hSame⟩
    rcases Option.isSome_iff_exists.mp hSome with ⟨state, hLookup⟩
    have hLess := (hLinked.knows.states _ state hLookup).1
    omega
  have hMarks : t.marksOf t.mNextComponentId = [] :=
    StatusTracker.statesOf_nil_of_fresh hLinked.knows.fresh
  constructor
  · exact mem_set_cases hLinked.sound hSound
  · exact mem_set_cases hLinked.settled hSettled
  · exact StatusTracker.addComponent_knows hLinked.knows
  · exact ⟨hLinked.notifies.alternates, hLinked.notifies.last⟩
  · exact hLinked.alternates
  · intro id
    rw [has_set_iff hOld, hNew]
    have hWas := hLinked.component id
    rw [has_iff hOld, hBefore] at hWas
    simp only [StatusTracker.addComponent, KeyedVector.lookup_add]
    split
    · rename_i hHere
      rw [hHere]
      simp [hReal]
    · rename_i hOther
      rw [hWas]
      constructor
      · rintro ⟨hSome, hNo | hHave⟩
        · exact absurd hNo.symm hSome
        · exact ⟨hSome, Or.inr hHave⟩
      · rintro ⟨hSome, hHere | hHave⟩
        · exact absurd hHere.symm hOther
        · exact ⟨hSome, Or.inr hHave⟩
  · refine distinct_set hLinked hOld ?_
    rw [hNew]
    exact fun _ => hFresh
  · refine active_set hLinked hOld ?_ fun _ _ _ => rfl
    intro _
    rw [hNew]
    refine iff_of_false ?_ hActive
    have hSame : t.addComponent.marksOf t.mNextComponentId = [] := hMarks
    rw [hSame]
    rintro ⟨⟩

theorem Linked.removed (hLinked : Linked streams t) (hOld : streams[i]? = some s) (hSound : Sound w)
    (hSettled : w.slots.Settled) {id : Int} (hFits : Report.Fits s.slots w.slots (.removed id)) :
    Linked (streams.set i w) (t.removeComponent id) := by
  rcases hFits with ⟨hBefore, hReal, hAfter⟩
  have hWas : s.mStatusId = id := hBefore
  have hNone : w.mStatusId = NO_STATUS_ID := hAfter
  have hOnly : ¬ OthersHave streams i id := by
    have hNot := hLinked.not_others hOld
    rw [hWas] at hNot
    exact hNot hReal
  constructor
  · exact mem_set_cases hLinked.sound hSound
  · exact mem_set_cases hLinked.settled hSettled
  · exact StatusTracker.removeComponent_knows hLinked.knows id
  · exact ⟨hLinked.notifies.alternates, hLinked.notifies.last⟩
  · exact hLinked.alternates
  · intro other
    rw [has_set_iff hOld, hNone]
    have hWas' := hLinked.component other
    rw [has_iff hOld, hWas] at hWas'
    simp only [StatusTracker.removeComponent, KeyedVector.lookup_remove]
    split
    · rename_i hHere
      rw [hHere]
      simp [hOnly, Ne.symm hReal]
    · rename_i hOther
      rw [hWas']
      constructor
      · rintro ⟨hSome, hHere | hHave⟩
        · exact absurd hHere.symm hOther
        · exact ⟨hSome, Or.inr hHave⟩
      · rintro ⟨hSome, hNo | hHave⟩
        · exact absurd hNo.symm hSome
        · exact ⟨hSome, Or.inr hHave⟩
  · refine distinct_set hLinked hOld ?_
    exact fun hSome => absurd hNone hSome
  · refine active_set hLinked hOld ?_ fun _ _ _ => rfl
    exact fun hSome => absurd hNone hSome

theorem marksOf_markComponent (t : StatusTracker) (change : StateChange) (id : Int) :
    (t.markComponent change).marksOf id = t.marksOf id ++ statesOf id [change] :=
  statesOf_append id t.marks [change]

theorem Linked.marked (hLinked : Linked streams t) (hOld : streams[i]? = some s) (hSound : Sound w)
    (hSettled : w.slots.Settled) {change : StateChange}
    (hFits : Report.Fits s.slots w.slots (.marked change)) :
    Linked (streams.set i w) (t.markComponent change) := by
  rcases hFits with ⟨hBefore, hAfter, hReal, hActive, hWasActive⟩
  have hWas : s.mStatusId = change.id := hBefore
  have hIs : w.mStatusId = change.id := hAfter
  have hLast := hLinked.active i s hOld (by rw [hWas]; exact hReal)
  rw [hWas, hWasActive] at hLast
  have hFlips : lastOf .IDLE (t.marksOf change.id) ≠ change.state := by
    intro hSame
    rw [hSame] at hLast
    cases hState : change.state with
    | IDLE => simp [hState] at hLast
    | ACTIVE => simp [hState] at hLast
  have hOnly : ¬ OthersHave streams i change.id := by
    have hNot := hLinked.not_others hOld
    rw [hWas] at hNot
    exact hNot hReal
  have hKnown : change.id < t.mNextComponentId := by
    have hSome := (hLinked.component change.id).mpr ⟨hReal, i, s, hOld, hWas⟩
    rcases Option.isSome_iff_exists.mp hSome with ⟨state, hLookup⟩
    exact (hLinked.knows.states _ state hLookup).1
  constructor
  · exact mem_set_cases hLinked.sound hSound
  · exact mem_set_cases hLinked.settled hSettled
  · exact StatusTracker.markComponent_knows hLinked.knows hKnown
  · exact ⟨hLinked.notifies.alternates, hLinked.notifies.last⟩
  · intro id
    rw [marksOf_markComponent]
    by_cases hSame : change.id = id
    · rw [← hSame, statesOf_self, alternates_append_singleton]
      exact ⟨hLinked.alternates _, hFlips⟩
    · rw [statesOf_other hSame, List.append_nil]
      exact hLinked.alternates id
  · intro id
    rw [has_set_iff hOld, hIs, ← hWas, ← has_iff hOld]
    exact hLinked.component id
  · refine distinct_set hLinked hOld ?_
    rw [hIs]
    exact fun _ => hOnly
  · refine active_set hLinked hOld ?_ ?_
    · intro _
      rw [hIs, marksOf_markComponent, statesOf_self, lastOf_append_singleton]
      exact hActive.symm
    · intro id hOthers _
      have hOther : change.id ≠ id := by
        intro hSame
        rw [hSame] at hOnly
        exact hOnly hOthers
      rw [marksOf_markComponent, statesOf_other hOther, List.append_nil]

end Arrival

theorem Linked.arrive {streams : List Camera3Stream} {t : StatusTracker}
    (hLinked : Linked streams t) {i : Nat} {s w : Camera3Stream} (hOld : streams[i]? = some s)
    (hSound : Sound w) (hSettled : w.slots.Settled) {report : Report}
    (hNext : ∀ id, report = .added id → id = t.mNextComponentId)
    (hFits : report.Fits s.slots w.slots) : Linked (streams.set i w) (report.tell t) := by
  cases report with
  | nothing => exact hLinked.nothing hOld hSound hSettled hFits
  | added id =>
    rw [hNext id rfl] at hFits
    exact hLinked.added hOld hSound hSettled hFits
  | removed id => exact hLinked.removed hOld hSound hSettled hFits
  | marked change => exact hLinked.marked hOld hSound hSettled hFits

theorem Linked.round {streams : List Camera3Stream} {t : StatusTracker} (hLinked : Linked streams t)
    (first : List Nat) (signaled : List (List Nat)) :
    Linked streams (t.threadLoop first signaled) := by
  have hMarks : ∀ id, (t.threadLoop first signaled).marksOf id = t.marksOf id := by
    intro id
    unfold StatusTracker.marksOf
    rw [StatusTracker.threadLoop_marks]
  constructor
  · exact hLinked.sound
  · exact hLinked.settled
  · exact StatusTracker.threadLoop_knows hLinked.knows _ _
  · exact StatusTracker.threadLoop_notifies hLinked.notifies _ _
  · intro id
    rw [hMarks]
    exact hLinked.alternates id
  · intro id
    rw [StatusTracker.threadLoop_states, Option.isSome_map]
    exact hLinked.component id
  · exact hLinked.distinct
  · intro i s hMem hId
    rw [hMarks]
    exact hLinked.active i s hMem hId

theorem start_linked (valid : List Bool) :
    Linked (System.start valid).streams (System.start valid).tracker := by
  have hNone : ∀ s ∈ (System.start valid).streams, ∃ ok, s = Camera3Stream.construct ok := by
    intro s hMem
    rcases List.mem_map.mp hMem with ⟨ok, -, hOk⟩
    exact ⟨ok, hOk.symm⟩
  have hId : ∀ (i : Nat) (s : Camera3Stream),
      (System.start valid).streams[i]? = some s → s.mStatusId = NO_STATUS_ID := by
    intro i s hMem
    rcases hNone s (List.mem_of_getElem? hMem) with ⟨ok, rfl⟩
    exact rfl
  constructor
  · intro s hMem
    rcases hNone s hMem with ⟨ok, rfl⟩
    exact construct_sound ok
  · intro s hMem
    rcases hNone s hMem with ⟨ok, rfl⟩
    exact .of_none rfl fun _ => rfl
  · exact StatusTracker.init_knows
  · exact ⟨alternates_nil _, rfl⟩
  · exact fun _ => alternates_nil _
  · intro id
    refine iff_of_false (by rintro ⟨⟩) ?_
    rintro ⟨hReal, i, s, hMem, rfl⟩
    exact hReal (hId i s hMem)
  · intro i j s u hMem _ _ hReal
    exact absurd (hId i s hMem) hReal
  · intro i s hMem hReal
    exact absurd (hId i s hMem) hReal

--
-- Runs
--

theorem Linked.step {s r : System} {e : Event} (hLinked : Linked s.streams s.tracker)
    (hReconfigured : AtStream Reconfigured s e) (hKeeps : AtStream KeepsMarks s e)
    (hStep : s.step e = some r) : Linked r.streams r.tracker := by
  cases e with
  | round first signaled =>
    cases hStep
    exact hLinked.round first signaled
  | stream i a =>
    unfold System.step at hStep
    cases hOld : s.streams[i]? with
    | none => simp [hOld] at hStep
    | some st =>
      simp only [hOld, Option.map_eq_some_iff] at hStep
      rcases hStep with ⟨c, hCall, rfl⟩
      have hMem : st ∈ s.streams := List.mem_of_getElem? hOld
      have hSound : Sound st := hLinked.sound st hMem
      have hSettled := hLinked.settled st hMem
      have hWoken : ∀ dequeue, a = .resume dequeue → st.woken ≠ 0 := by
        rintro dequeue rfl hNone
        simp [Camera3.step, hNone] at hCall
      have hReports : st.slots.Reports a :=
        reports_of hSound.quiet hWoken (hReconfigured st hOld) (hKeeps st hOld)
      have hAfter : Sound c.stream := Sound.step (c := ⟨st, s.tracker⟩) hSound hCall
      rcases step_changes (c := ⟨st, s.tracker⟩) hSound
        hCall with ⟨-, report, hSlots, hTracker, hNext⟩
      rw [hTracker]
      exact hLinked.arrive hOld hAfter (hSlots.settled hReports hSettled) hNext
        (hSlots.fits hReports hSettled)

theorem Linked.busy_iff {streams : List Camera3Stream} {t : StatusTracker}
    (hLinked : Linked streams t) {s : Camera3Stream} (hMem : s ∈ streams) :
    s.slots.Active ↔ Busy s := by
  unfold Busy
  rw [(hLinked.sound s hMem).counted.held_eq]
  exact Iff.rfl

theorem Linked.tracked {s : System} (hLinked : Linked s.streams s.tracker) : Tracked s := by
  refine ⟨hLinked.alternates, ?_, hLinked.notifies.alternates⟩
  intro stream hMem hId
  rcases List.mem_iff_getElem?.mp hMem with ⟨i, hAt⟩
  rw [hLinked.active i stream hAt hId]
  exact hLinked.busy_iff hMem

/- The device is active as long as a component or a fence is. -/
theorem Linked.told {s : System} (hLinked : Linked s.streams s.tracker) (first : List Nat)
    (signaled : List (List Nat)) :
    Told
      { s with
        tracker := s.tracker.threadLoop first signaled } := by
  have hAfter := hLinked.round first signaled
  unfold Told
  simp only
  rw [hAfter.notifies.last, StatusTracker.threadLoop_device,
    StatusTracker.getDeviceStateLocked_active_iff]
  apply or_congr_left
  constructor
  · rintro ⟨id, hLookup⟩
    have hSome : ((s.tracker.threadLoop first signaled).mStates.lookup id).isSome := by
      rw [hLookup]
      exact rfl
    rcases (hAfter.component id).mp hSome with ⟨hReal, i, stream, hAt, rfl⟩
    have hMem := List.mem_of_getElem? hAt
    refine ⟨stream, hMem, hReal, ?_⟩
    rw [← hLinked.busy_iff hMem, ← hLinked.active i stream hAt hReal]
    exact (StatusTracker.threadLoop_lastMark hLinked.knows hLookup).symm
  · rintro ⟨stream, hMem, hReal, hBusy⟩
    rcases List.mem_iff_getElem?.mp hMem with ⟨i, hAt⟩
    have hSome := (hAfter.component stream.mStatusId).mpr ⟨hReal, i, stream, hAt, rfl⟩
    rcases Option.isSome_iff_exists.mp hSome with ⟨state, hLookup⟩
    have hLast := StatusTracker.threadLoop_lastMark hLinked.knows hLookup
    rw [← hLinked.busy_iff hMem, ← hLinked.active i stream hAt hReal, ← hLast] at hBusy
    refine ⟨stream.mStatusId, ?_⟩
    rw [hLookup, hBusy]

/- In every state of the run, and after every round of it. -/
structure IdleTracked (valid : List Bool) (es : List Event) : Prop where
  tracked : ∀ bs s, bs <+: es → Run.exec System.step (System.start valid) bs = some s → Tracked s
  told :
    ∀ bs first signaled s, bs ++ [.round first signaled] <+: es →
      Run.exec System.step (System.start valid) (bs ++ [.round first signaled]) = some s → Told s

/- The one slot is taken, and a second thread waits. -/
def firstUse : List Event :=
  oneSlotTaken.map (Event.stream 0)

/- The thread has the buffer before the next configuration. -/
def orderly : List Event :=
  firstUse ++
    [.round [] [], .stream 0 (.returnBuffer filled ⟨.OK, .OK⟩), .stream 0 (.resume .OK),
      .stream 0 (.returnBuffer filled ⟨.OK, .OK⟩), .round [] [],
      .stream 0 (.startConfiguration 0 .OK []),
      .stream 0 (.finishConfiguration newDevice willingQueue), .round [] []]

/- The thread is signalled, and the configuration starts before it has the lock. -/
def overtakenByStart : List Event :=
  firstUse ++
    [.stream 0 (.returnBuffer filled ⟨.OK, .OK⟩), .stream 0 (.startConfiguration 0 .OK []),
      .stream 0 (.resume .OK), .stream 0 (.finishConfiguration newDevice willingQueue),
      .round [] []]

end Camera3

end FrameworksAv
