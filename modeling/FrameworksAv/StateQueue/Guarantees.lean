import FrameworksAv.StateQueue.Steps
import Mathlib.Data.Fin.VecNotation

/-
  What the state queue guarantees in every run.

  Main declarations:
    * `Queue.Guarantees`, `Queue.StepGuarantees`
    * `exec_observed`
-/

--
-- The Observer
--

namespace FrameworksAv

namespace StateQueue

variable {ι W : Type} [DecidableEq ι]

namespace Queue

/- The states the observer keeps. -/
def Kept (q : Queue ι W) (s : Slot) : Prop :=
  q.mCurrent = some s ∨ q.previous = some s

/- What holds in every reachable state. -/
structure Guarantees (q : Queue ι W) : Prop where
  published : ∀ s, q.Kept s → ∃ e ∈ q.hist.published, q.mStates s = e.contents
  invisible : ¬ q.Kept q.mMutating
  polled :
    ∀ r ∈ q.hist.polls, r.pointer = pointer r.pushes ∧ r.contents = q.hist.contentsAt r.pushes
  inOrder : q.hist.polls.Pairwise (fun r s => r.pushes ≤ s.pushes)
  current : ∀ r, q.hist.polls.getLast? = some r → r.pointer = q.mCurrent
  exposes :
    q.mutation = .idle ∨ q.mutation = .mutating →
      q.mStates q.mMutating = applyStores q.hist.latest q.hist.pending
  mutated :
    ∀ e ∈ q.hist.published, e.contents = applyStores q.hist.initial (q.hist.stores.take e.stores)

/- A push that did not block and did not publish. -/
structure Refused (q t : Queue ι W) : Prop where
  never : q.mutation = .expecting .never
  unacked : q.hist.acked < q.hist.pushes
  dirty : t.mIsDirty = true
  published : t.hist.published = q.hist.published
  mMutating : t.mMutating = q.mMutating
  mStates : t.mStates = q.mStates

/- What holds of every step from a reachable state. -/
structure StepGuarantees (q t : Queue ι W) : Prop where
  keeps : ∀ s, q.Kept s → t.mStates s = q.mStates s
  arriving : ∀ s, q.observation = .acking (some s) → t.mStates s = q.mStates s
  latest : ∀ r, t.hist.polls = q.hist.polls ++ [r] → r.pushes = q.hist.pushes
  refused : q.hist.returned ≠ some false → t.hist.returned = some false → q.Refused t

variable {q : Queue ι W}

namespace Inv

/- Kept states are the last two acknowledged pushes. -/
theorem kept_recent (h : q.Inv) {s : Slot} (hKept : q.Kept s) :
    ∃ k, k ≤ q.hist.pushes ∧ q.hist.pushes + 1 < k + kN ∧ pointer k = some s := by
  have hLe := h.acked_le
  have hNear := h.pushes_le
  rcases hKept with hCurrent | hPrevious
  · rw [h.mCurrent] at hCurrent
    exact ⟨q.hist.acked, hLe, by simp only [kN]; omega, hCurrent⟩
  · rw [h.previous] at hPrevious
    exact ⟨q.hist.acked - 1, by omega, by simp only [kN]; omega, hPrevious⟩

theorem invisible (h : q.Inv) : ¬ q.Kept q.mMutating := by
  intro hKept
  rcases h.kept_recent hKept with ⟨k, hk, hNear, hPointer⟩
  exact h.mMutating_ne_pointer hk hNear hPointer

/- The slot of the last push is not the mutator's. -/
theorem arriving_ne (h : q.Inv) {s : Slot} (hPlace : q.observation = .acking (some s)) :
    s ≠ q.mMutating := by
  have hWatch := h.watch
  rw [Watch, hPlace] at hWatch
  intro hEq
  apply h.mMutating_ne_pointer (Nat.le_refl q.hist.pushes) (by simp only [kN]; omega)
  rw [← hWatch.2.1, hEq]

theorem guarantees (h : q.Inv) : q.Guarantees where
  published := by
    intro s hKept
    rcases h.kept_recent hKept with ⟨k, hk, hNear, hPointer⟩
    have hHolds := h.holds k hk hNear
    rw [hPointer] at hHolds
    cases k with
    | zero => cases hPointer
    | succ k =>
      rcases Option.map_eq_some_iff.mp hHolds.symm with ⟨e, hGet, hContents⟩
      exact ⟨e, List.mem_of_getElem? hGet, hContents.symm⟩
  invisible := h.invisible
  polled := by
    intro r hMem
    have hCorrect := h.polls r hMem
    exact ⟨hCorrect.pointer, hCorrect.contents⟩
  inOrder := h.pollsOrdered
  current := h.received
  exposes := by
    intro hPlace
    rw [History.applyStores_pending h.published]
    have hPhase := h.phase
    rcases hPlace with hIdle | hMutating
    · rw [Phase, hIdle] at hPhase
      exact hPhase
    · rw [Phase, hMutating] at hPhase
      exact hPhase
  mutated := by
    intro e hMem
    exact (h.published e hMem).contents

end Inv

end Queue

end StateQueue

--
-- Steps
--

namespace StateQueue

variable {ι W : Type} [DecidableEq ι] [Fintype ι]

namespace Queue

section Finish

variable {q t : Queue ι W} {block : Block}

omit [DecidableEq ι] [Fintype ι] in
@[simp] theorem finish_mStates : (q.finish block).mStates = q.mStates := by
  unfold finish
  split <;> rfl

omit [DecidableEq ι] [Fintype ι] in
@[simp] theorem finish_polls : (q.finish block).hist.polls = q.hist.polls := by
  unfold finish
  split <;> rfl

/- The second part of `push` never fails. -/
omit [DecidableEq ι] [Fintype ι] in
theorem finish_returned (hReturned : (q.finish block).hist.returned = some false) :
    q.hist.returned = some false := by
  unfold finish at hReturned
  split at hReturned
  · exact hReturned
  · cases hReturned

omit [DecidableEq ι] [Fintype ι] in
theorem checkAck_mStates (hCheck : q.checkAck block = some t) :
    t.mStates = q.mStates ∧ t.hist.polls = q.hist.polls := by
  unfold checkAck at hCheck
  split at hCheck
  · cases hCheck
    exact ⟨rfl, rfl⟩
  · split at hCheck
    · cases hCheck
      exact ⟨rfl, rfl⟩
    · cases hCheck

omit [DecidableEq ι] [Fintype ι] in
theorem checkAcked_mStates (hCheck : q.checkAcked = some t) :
    t.mStates = q.mStates ∧ t.hist.polls = q.hist.polls ∧ t.hist.returned = some true := by
  unfold checkAcked at hCheck
  split at hCheck
  · cases hCheck
    exact ⟨rfl, rfl, rfl⟩
  · cases hCheck

end Finish

variable {q t : Queue ι W}

/- A step stores to the slot of the mutator alone. -/
theorem Transition.frame (hStep : Transition q t) {s : Slot} (hNe : s ≠ q.mMutating) :
    t.mStates s = q.mStates s := by
  cases hStep with
  | begin | endMutation | publish | pollAck => rfl
  | modify hPlace i word => exact Function.update_of_ne hNe _ _
  | copyWord hPlace hExpecting i => exact Function.update_of_ne hNe _ _
  | push hPlace block =>
    unfold Queue.push
    split
    · rfl
    · rw [finish_mStates]
  | checkAck hPlace hCheck => rw [(checkAck_mStates hCheck).1]
  | copied hPlace => rw [Queue.copied, finish_mStates]
  | checkAcked hPlace hCheck => rw [(checkAcked_mStates hCheck).1]
  | pollLoad hPlace =>
    unfold Queue.pollLoad
    simp only
    split <;> rfl

namespace Inv

/- A poll returns the state that is the last published. -/
theorem latest (h : q.Inv) (hStep : Transition q t) {r : Polled ι W}
    (hPolls : t.hist.polls = q.hist.polls ++ [r]) : r.pushes = q.hist.pushes := by
  have hSame : t.hist.polls ≠ q.hist.polls := by
    rw [hPolls]
    simp
  cases hStep with
  | begin | modify | endMutation | publish | copyWord => exact absurd rfl hSame
  | push hPlace block =>
    unfold Queue.push at hSame
    split at hSame
    · exact absurd rfl hSame
    · exact absurd finish_polls hSame
  | checkAck hPlace hCheck => exact absurd (checkAck_mStates hCheck).2 hSame
  | copied hPlace => exact absurd finish_polls hSame
  | checkAcked hPlace hCheck => exact absurd (checkAcked_mStates hCheck).2.1 hSame
  | pollLoad hPlace =>
    unfold Queue.pollLoad at hPolls hSame
    simp only at hPolls hSame
    split at hPolls
    · rename_i hNew
      rw [if_pos hNew] at hSame
      exact absurd rfl hSame
    · have hLast := List.append_cancel_left hPolls
      cases hLast
      rfl
  | pollAck hPlace =>
    have hWatch := h.watch
    rw [Watch, hPlace] at hWatch
    have hLast := List.append_cancel_left hPolls
    cases hLast
    exact hWatch.1

/- Only an unacknowledged prior push refuses a push. -/
theorem refused (h : q.Inv) (hStep : Transition q t) (hBefore : q.hist.returned ≠ some false)
    (hAfter : t.hist.returned = some false) : q.Refused t := by
  cases hStep with
  | begin | modify | endMutation | publish | copyWord
  | pollAck => exact absurd hAfter hBefore
  | push hPlace block =>
    unfold Queue.push at hAfter
    split at hAfter
    · cases hAfter
    · exact absurd (finish_returned hAfter) hBefore
  | copied hPlace => exact absurd (finish_returned hAfter) hBefore
  | checkAcked hPlace hCheck =>
    rw [(checkAcked_mStates hCheck).2.2] at hAfter
    cases hAfter
  | pollLoad hPlace =>
    unfold Queue.pollLoad at hAfter
    simp only at hAfter
    split at hAfter
    · exact absurd hAfter hBefore
    · exact absurd hAfter hBefore
  | checkAck hPlace hCheck =>
    have hPhase := h.phase
    rw [Phase, hPlace] at hPhase
    unfold Queue.checkAck at hCheck
    split at hCheck
    · cases hCheck
      exact absurd hAfter hBefore
    · rename_i hUnacked
      split at hCheck
      · rename_i hNever
        cases hCheck
        have hExpecting : q.mExpecting ≠ none := by
          intro hNone
          exact hUnacked (Or.inl hNone)
        have hNe : q.hist.acked ≠ q.hist.pushes := by
          intro hEq
          apply hUnacked
          exact Or.inr ((h.mAck_eq_iff hExpecting).mpr hEq)
        rw [hNever] at hPlace
        constructor
        · exact hPlace
        · exact Nat.lt_of_le_of_ne h.acked_le hNe
        · exact hPhase.2
        · rfl
        · rfl
        · rfl
      · cases hCheck

theorem stepGuarantees (h : q.Inv) {a : Action ι W} (hStep : q.step a = some t) :
    q.StepGuarantees t := by
  have hTransition := Transition.of_step hStep
  constructor
  · intro s hKept
    apply hTransition.frame
    intro hEq
    rw [hEq] at hKept
    exact h.invisible hKept
  · intro s hPlace
    exact hTransition.frame (h.arriving_ne hPlace)
  · intro r hPolls
    exact h.latest hTransition hPolls
  · intro hBefore hAfter
    exact h.refused hTransition hBefore hAfter

end Inv

end Queue

/-
  Every run keeps the states of the observer, polls the last published state in order, and loses or
  repeats no mutation; a push that does not block is refused only while the prior push is
  unacknowledged.
-/
theorem exec_observed (mStates : Slot → ι → W) {as : List (Action ι W)} {q : Queue ι W}
    (hRun : Run.exec Queue.step (Queue.init mStates) as = some q) :
    q.Guarantees ∧ ∀ a t, q.step a = some t → q.StepGuarantees t := by
  have hInv : q.Inv := (Queue.Inv.init mStates).run hRun
  constructor
  · exact hInv.guarantees
  · intro a t hStep
    exact hInv.stepGuarantees hStep

local instance twoStates : NeZero 2 := ⟨by decide⟩

/-
  The first push is polled while it is copied, the second is not polled, and the third is refused.
-/
def refusedPush : List (Action (Fin 2) Nat) :=
  [.begin, .modify 0 5, .endMutation true, .push .never,
    .checkAck, .publish, .pollLoad, .copyWord 0, .pollAck, .copyWord 1, .copied,
    .begin, .modify 1 6, .endMutation true, .push .untilPushed, .checkAck, .publish, .copyWord 1,
    .copyWord 0, .copied, .begin, .modify 0 7, .endMutation true, .push .never, .checkAck]

theorem exec_observed_refused :
    ∃ q,
      Run.exec Queue.step (Queue.init fun _ => ![0, 0]) refusedPush = some q ∧
        q.Guarantees ∧ ∀ a t, q.step a = some t → q.StepGuarantees t := by
  have hSome : (Run.exec Queue.step (Queue.init fun _ => ![0, 0]) refusedPush).isSome = true := by
    decide
  rcases Option.isSome_iff_exists.mp hSome with ⟨q, hRun⟩
  exact ⟨q, hRun, exec_observed _ hRun⟩

end StateQueue

end FrameworksAv
