import Mathlib.Data.List.Chain
import FrameworksAv.Camera3.Stream

/-
  What the tracker knows and tells.

  A component's state is the last of its marks once the marks that are queued are looked at, and the
  states that the parent is told are a walk from the device's state.

  Main declarations:
    * `Alternates`, `lastOf`
    * `StatusTracker.marksOf`, `StatusTracker.Knows`
    * `threadLoop_knows`, `threadLoop_notifies`
    * `threadLoop_device`
-/

--
-- Walks
--

namespace FrameworksAv

namespace Camera3

/- From `a` on every state is another than the one before. -/
def Alternates (a : ComponentState) (l : List ComponentState) : Prop :=
  (a :: l).IsChain (· ≠ ·)

/- Where the walk from `a` ends. -/
def lastOf (a : ComponentState) (l : List ComponentState) : ComponentState :=
  l.getLastD a

@[simp] theorem lastOf_nil (a : ComponentState) : lastOf a [] = a :=
  rfl

@[simp] theorem lastOf_append_singleton (a x : ComponentState) (l : List ComponentState) :
    lastOf a (l ++ [x]) = x :=
  List.getLastD_concat

theorem lastOf_cons (a b : ComponentState) (l : List ComponentState) :
    lastOf a (b :: l) = lastOf b l :=
  List.getLastD_cons

theorem lastOf_append (a : ComponentState) (l m : List ComponentState) :
    lastOf a (l ++ m) = lastOf (lastOf a l) m := by
  induction l generalizing a with
  | nil => exact rfl
  | cons b l ih =>
    rw [List.cons_append, lastOf_cons, lastOf_cons]
    exact ih b

theorem alternates_nil (a : ComponentState) : Alternates a [] :=
  List.isChain_singleton a

theorem alternates_append {a : ComponentState} {l m : List ComponentState} :
    Alternates a (l ++ m) ↔ Alternates a l ∧ Alternates (lastOf a l) m := by
  induction l generalizing a with
  | nil => simp [alternates_nil]
  | cons b l ih =>
    unfold Alternates at ih ⊢
    rw [List.cons_append, List.isChain_cons_cons,
      List.isChain_cons_cons, lastOf_cons, ih, and_assoc]

theorem alternates_append_singleton {a x : ComponentState} {l : List ComponentState} :
    Alternates a (l ++ [x]) ↔ Alternates a l ∧ lastOf a l ≠ x := by
  rw [alternates_append]
  simp [Alternates]

--
-- Marks
--

/- The states in the changes of one component. -/
def statesOf (id : Int) (changes : List StateChange) : List ComponentState :=
  (changes.filter fun change => change.id = id).map (·.state)

theorem statesOf_append (id : Int) (a b : List StateChange) :
    statesOf id (a ++ b) = statesOf id a ++ statesOf id b := by
  simp [statesOf]

theorem statesOf_self (change : StateChange) : statesOf change.id [change] = [change.state] := by
  simp [statesOf]

theorem statesOf_other {id : Int} {change : StateChange} (hNe : change.id ≠ id) :
    statesOf id [change] = [] := by
  simp [statesOf, hNe]

namespace StatusTracker

def marksOf (t : StatusTracker) (id : Int) : List ComponentState :=
  statesOf id t.marks

/-
  The states of the components are their last marks, but for the changes that are still queued.
  Numbers that are not given yet have no marks.
-/
structure Knows (t : StatusTracker) : Prop where
  counted : 0 ≤ t.mNextComponentId
  queued : t.mPendingChangeQueue <:+ t.marks
  fresh : ∀ change ∈ t.marks, change.id < t.mNextComponentId
  states :
    ∀ id state, t.mStates.lookup id = some state →
      id < t.mNextComponentId ∧
        lastOf state (statesOf id t.mPendingChangeQueue) = lastOf .IDLE (t.marksOf id)

theorem statesOf_nil_of_fresh {changes : List StateChange} {id : Int}
    (hFresh : ∀ change ∈ changes, change.id < id) : statesOf id changes = [] := by
  unfold statesOf
  rw [List.map_eq_nil_iff, List.filter_eq_nil_iff]
  intro change hMem
  have hLess := hFresh change hMem
  simp only [decide_eq_true_eq]
  omega

theorem init_knows : init.Knows :=
  ⟨Int.le_refl 0, List.suffix_refl _, nofun, nofun⟩

theorem addComponent_knows {t : StatusTracker} (hKnows : t.Knows) : t.addComponent.Knows := by
  constructor
  · have hCounted := hKnows.counted
    simp only [addComponent]
    omega
  · exact hKnows.queued
  · intro change hMem
    have hLess := hKnows.fresh change hMem
    simp only [addComponent]
    omega
  · intro id state hLookup
    simp only [addComponent, KeyedVector.lookup_add] at hLookup ⊢
    split at hLookup
    · rename_i hNew
      simp only [Option.some.injEq] at hLookup
      have hQueue : ∀ change ∈ t.mPendingChangeQueue, change.id < id := by
        intro change hMem
        rw [hNew]
        exact hKnows.fresh change (hKnows.queued.subset hMem)
      have hMarks : ∀ change ∈ t.marks, change.id < id := by
        rw [hNew]
        exact hKnows.fresh
      rw [statesOf_nil_of_fresh hQueue]
      refine ⟨by omega, ?_⟩
      unfold marksOf
      rw [statesOf_nil_of_fresh hMarks, hLookup]
    · have hOld := hKnows.states id state hLookup
      exact ⟨by omega, hOld.2⟩

theorem removeComponent_knows {t : StatusTracker} (hKnows : t.Knows) (id : Int) :
    (t.removeComponent id).Knows := by
  refine ⟨hKnows.counted, hKnows.queued, hKnows.fresh, ?_⟩
  intro other state hLookup
  simp only [removeComponent, KeyedVector.lookup_remove] at hLookup
  split at hLookup
  · contradiction
  · exact hKnows.states other state hLookup

theorem markComponent_knows {t : StatusTracker} (hKnows : t.Knows) {change : StateChange}
    (hKnown : change.id < t.mNextComponentId) : (t.markComponent change).Knows := by
  constructor
  · exact hKnows.counted
  · rcases hKnows.queued with ⟨done, hDone⟩
    exact ⟨done, by simp [markComponent, ← hDone]⟩
  · intro other hMem
    rcases List.mem_append.mp hMem with hOld | hNew
    · exact hKnows.fresh other hOld
    · rw [List.mem_singleton.mp hNew]
      exact hKnown
  · intro id state hLookup
    have hOld := hKnows.states id state hLookup
    refine ⟨hOld.1, ?_⟩
    simp only [marksOf, markComponent, statesOf_append, lastOf_append]
    by_cases hSame : change.id = id
    · rw [← hSame, statesOf_self]
      exact rfl
    · rw [statesOf_other hSame]
      exact hOld.2

--
-- Rounds
--

/-
  What a walk over changes leaves: the states of the components after them, a longer walk of the
  device that ends in the state at the last check, and all else as it was.
-/
structure Walked (t : StatusTracker) (prevState : ComponentState)
    (transitions : List ComponentState) (changes : List StateChange)
    (r : StatusTracker × ComponentState × List ComponentState) : Prop where
  marks : r.1.marks = t.marks
  next : r.1.mNextComponentId = t.mNextComponentId
  states : ∀ id, r.1.mStates.lookup id = (t.mStates.lookup id).map fun state =>
        lastOf state (statesOf id changes)
  checked : prevState = t.getDeviceStateLocked t.seen → r.2.1 = r.1.getDeviceStateLocked r.1.seen
  walk :
    ∀ a, Alternates a transitions →
      lastOf a transitions = prevState → Alternates a r.2.2 ∧ lastOf a r.2.2 = r.2.1

theorem Walked.skip {t : StatusTracker} {prevState : ComponentState}
    {transitions : List ComponentState} {change : StateChange} {changes : List StateChange}
    {r : StatusTracker × ComponentState × List ComponentState}
    (hUnknown : t.mStates.lookup change.id = none)
    (hRest : Walked t prevState transitions changes r) :
    Walked t prevState transitions (change :: changes) r := by
  refine ⟨hRest.marks, hRest.next, ?_, hRest.checked, hRest.walk⟩
  intro id
  rw [hRest.states id, ← List.singleton_append, statesOf_append]
  by_cases hSame : change.id = id
  · rw [← hSame, hUnknown]
    exact rfl
  · rw [statesOf_other hSame]
    exact rfl

/- A walk stays where it is or goes to another state. -/
theorem collect_walk {a prevState : ComponentState} {transitions : List ComponentState}
    (hWalk : Alternates a transitions) (hLast : lastOf a transitions = prevState)
    (newState : ComponentState) :
    Alternates a (collect transitions prevState newState) ∧
      lastOf a (collect transitions prevState newState) = newState := by
  unfold collect
  by_cases hNew : newState ≠ prevState
  · rw [if_pos hNew, alternates_append_singleton, hLast]
    exact ⟨⟨hWalk, hNew.symm⟩, lastOf_append_singleton _ _ _⟩
  · rw [if_neg hNew]
    rw [not_not] at hNew
    exact ⟨hWalk, hLast.trans hNew.symm⟩

theorem changesLoop_walked (t : StatusTracker) (prevState : ComponentState)
    (transitions : List ComponentState) (signaled : List (List Nat)) (changes : List StateChange) :
    Walked t prevState transitions changes
      (t.changesLoop prevState transitions signaled changes) := by
  induction changes generalizing t prevState transitions signaled with
  | nil =>
    refine ⟨rfl, rfl, ?_, id, fun a => And.intro⟩
    intro id
    unfold changesLoop statesOf
    cases t.mStates.lookup id with
    | none => rfl
    | some state => rfl
  | cons change changes ih =>
    unfold changesLoop
    cases hLookup : t.mStates.lookup change.id with
    | none => exact (ih t _ _ _).skip hLookup
    | some state =>
      have hRest :=
        ih (t.apply change (signaled.headD []))
          ((t.apply change (signaled.headD [])).getDeviceStateLocked (signaled.headD []))
          (collect transitions prevState
            ((t.apply change (signaled.headD [])).getDeviceStateLocked (signaled.headD [])))
          signaled.tail
      refine ⟨hRest.marks, hRest.next, ?_, fun _ => hRest.checked rfl, ?_⟩
      · intro id
        rw [hRest.states id, ← List.singleton_append, statesOf_append]
        simp only [apply, KeyedVector.lookup_add]
        by_cases hSame : change.id = id
        · rw [← hSame, hLookup, if_pos rfl, statesOf_self,
            Option.map_some, Option.map_some, lastOf_append]
          exact rfl
        · rw [if_neg (Ne.symm hSame), statesOf_other hSame]
          exact rfl
      · intro a hWalk hLast
        have hStep :=
          collect_walk hWalk hLast
            ((t.apply change (signaled.headD [])).getDeviceStateLocked (signaled.headD []))
        exact hRest.walk a hStep.1 hStep.2

theorem collectTransitions_walked (t : StatusTracker) (first : List Nat)
    (signaled : List (List Nat)) :
    Walked { t with seen := first }
      (t.getDeviceStateLocked first) (collect [] t.mDeviceState (t.getDeviceStateLocked first))
      t.mPendingChangeQueue (t.collectTransitions first signaled) :=
  changesLoop_walked _ _ _ _ _

@[simp] theorem threadLoop_marks (t : StatusTracker) (first : List Nat)
    (signaled : List (List Nat)) : (t.threadLoop first signaled).marks = t.marks :=
  (collectTransitions_walked t first signaled).marks

@[simp] theorem threadLoop_next (t : StatusTracker) (first : List Nat)
    (signaled : List (List Nat)) :
    (t.threadLoop first signaled).mNextComponentId = t.mNextComponentId :=
  (collectTransitions_walked t first signaled).next

/- The components have the states of their last changes. -/
theorem threadLoop_states (t : StatusTracker) (first : List Nat) (signaled : List (List Nat))
    (id : Int) :
    (t.threadLoop first signaled).mStates.lookup id = (t.mStates.lookup id).map fun state =>
        lastOf state (statesOf id t.mPendingChangeQueue) :=
  (collectTransitions_walked t first signaled).states id

theorem threadLoop_knows {t : StatusTracker} (hKnows : t.Knows) (first : List Nat)
    (signaled : List (List Nat)) : (t.threadLoop first signaled).Knows := by
  constructor
  · rw [threadLoop_next]
    exact hKnows.counted
  · exact List.nil_suffix
  · rw [threadLoop_marks, threadLoop_next]
    exact hKnows.fresh
  · intro id state hLookup
    rw [threadLoop_states, Option.map_eq_some_iff] at hLookup
    rcases hLookup with ⟨old, hOld, hLast⟩
    have hState := hKnows.states id old hOld
    rw [threadLoop_next]
    refine ⟨hState.1, ?_⟩
    unfold marksOf
    rw [threadLoop_marks]
    exact hLast.symm.trans hState.2

/- After a round a component's state is its last mark. -/
theorem threadLoop_lastMark {t : StatusTracker} (hKnows : t.Knows) {first : List Nat}
    {signaled : List (List Nat)} {id : Int} {state : ComponentState}
    (hLookup : (t.threadLoop first signaled).mStates.lookup id = some state) :
    state = lastOf .IDLE (t.marksOf id) := by
  have hAfter := (threadLoop_knows hKnows first signaled).states id state hLookup
  unfold marksOf at hAfter
  rw [threadLoop_marks] at hAfter
  exact hAfter.2

/- The parent knows the state of the device. -/
structure Notifies (t : StatusTracker) : Prop where
  alternates : Alternates .IDLE t.notified
  last : lastOf .IDLE t.notified = t.mDeviceState

theorem threadLoop_notifies {t : StatusTracker} (hNotifies : t.Notifies) (first : List Nat)
    (signaled : List (List Nat)) : (t.threadLoop first signaled).Notifies := by
  have hStep := collect_walk (alternates_nil t.mDeviceState) rfl (t.getDeviceStateLocked first)
  have hWalk := (collectTransitions_walked t first signaled).walk t.mDeviceState hStep.1 hStep.2
  constructor
  · refine alternates_append.mpr ⟨hNotifies.alternates, ?_⟩
    rw [hNotifies.last]
    exact hWalk.1
  · refine (lastOf_append _ _ _).trans ?_
    rw [hNotifies.last]
    exact hWalk.2

/- The state of the device is that at the last check. -/
theorem threadLoop_device (t : StatusTracker) (first : List Nat) (signaled : List (List Nat)) :
    (t.threadLoop first signaled).mDeviceState =
      (t.threadLoop first signaled).getDeviceStateLocked (t.threadLoop first signaled).seen :=
  (collectTransitions_walked t first signaled).checked rfl

theorem getDeviceStateLocked_active_iff (t : StatusTracker) (signaled : List Nat) :
    t.getDeviceStateLocked signaled = .ACTIVE ↔
      (∃ id, t.mStates.lookup id = some .ACTIVE) ∨ t.mIdleFence.isSignaled signaled = false := by
  have hAny :
      (t.mStates.entries.any fun e => e.2 = .ACTIVE) = true ↔
        ∃ id, t.mStates.lookup id = some .ACTIVE := by
    simp only [List.any_eq_true, decide_eq_true_eq, Prod.exists, KeyedVector.lookup_eq_some_iff]
    constructor
    · rintro ⟨id, state, hMem, hActive⟩
      rw [hActive] at hMem
      exact ⟨id, hMem⟩
    · rintro ⟨id, hMem⟩
      exact ⟨id, .ACTIVE, hMem, rfl⟩
  rw [← hAny]
  unfold getDeviceStateLocked
  cases hBusy : t.mStates.entries.any fun e => e.2 = .ACTIVE with
  | true => simp
  | false =>
    cases t.mIdleFence.isSignaled signaled with
    | true => simp
    | false => simp

end StatusTracker

end Camera3

end FrameworksAv
