import FrameworksAv.StateQueue.Queue

/-
  Every access of the state queue keeps the invariant.

  Main declarations:
    * `Queue.Inv.modify`, `Queue.Inv.publish`
    * `Queue.Inv.copyWord`, `Queue.Inv.pollAck`
    * `Queue.Inv.step`
    * `Queue.Inv.run`
-/

--
-- Published Contents
--

namespace FrameworksAv

namespace StateQueue

variable {ι W : Type}

/- A store to one slot is not seen through another. -/
theorem map_update_of_ne {pointer : Option Slot} {s : Slot} (hNe : pointer ≠ some s)
    (mStates : Slot → ι → W) (contents : ι → W) :
    pointer.map (Function.update mStates s contents) = pointer.map mStates := by
  cases pointer with
  | none => rfl
  | some s' =>
    have hOther : s' ≠ s := by
      intro hEq
      exact hNe (congrArg some hEq)
    simp [Function.update_of_ne hOther]

/- A push leaves what earlier pushes published. -/
theorem History.contentsAt_append {h t : History ι W} {e : Published ι W}
    (hPublished : t.published = h.published ++ [e]) {k : Nat} (hk : k ≤ h.pushes) :
    t.contentsAt k = h.contentsAt k := by
  cases k with
  | zero => rfl
  | succ k => rw [contentsAt, contentsAt, hPublished, List.getElem?_append_left hk]

theorem History.contentsAt_last {h t : History ι W} {e : Published ι W}
    (hPublished : t.published = h.published ++ [e]) :
    t.contentsAt (h.pushes + 1) = some e.contents := by
  simp [contentsAt, hPublished, pushes]

/- What a poll returned does not depend on later pushes. -/
theorem Polled.Correct.mono {r : Polled ι W} {h t : History ι W} (hCorrect : r.Correct h)
    (hAcked : h.acked ≤ t.acked) (hContents : ∀ k, k ≤ h.acked → t.contentsAt k = h.contentsAt k) :
    r.Correct t := by
  constructor
  · exact Nat.le_trans hCorrect.pushes_le hAcked
  · exact hCorrect.pointer
  · rw [hContents _ hCorrect.pushes_le]
    exact hCorrect.contents

end StateQueue

--
-- The Mutator
--

namespace StateQueue

namespace Queue

namespace Inv

variable {ι W : Type} [DecidableEq ι] {q : Queue ι W}

theorem begin (h : q.Inv) (hPlace : q.mutation = .idle) : q.begin.Inv :=
  { h with
    phase := by
      have hPhase := h.phase
      rw [Phase, hPlace] at hPhase
      exact hPhase }

theorem endMutation (h : q.Inv) (hPlace : q.mutation = .mutating) (didModify : Bool) :
    (q.endMutation didModify).Inv :=
  { h with
    phase := by
      have hPhase := h.phase
      rw [Phase, hPlace] at hPhase
      exact hPhase }

/- A mutation is applied to the slot of the mutator alone. -/
theorem modify (h : q.Inv) (hPlace : q.mutation = .mutating) (i : ι) (word : W) :
    (q.modify i word).Inv :=
  { h with
    holds := by
      intro k hk hNear
      have hNe := h.mMutating_ne_pointer hk hNear
      rw [Queue.modify, map_update_of_ne hNe]
      exact h.holds k hk hNear
    published := by
      intro e hMem
      exact (h.published e hMem).modify rfl rfl
    phase := by
      have hPhase := h.phase
      rw [Phase, hPlace] at hPhase
      simp only at hPhase
      unfold Phase
      simp only [Queue.modify, hPlace, Function.update_self, hPhase]
      simp [History.mutated, applyStores]
    polls := by
      intro r hMem
      exact (h.polls r hMem).mono (Nat.le_refl _) (fun _ _ => rfl) }

theorem leave (h : q.Inv) (hMutated : q.mStates q.mMutating = q.hist.mutated) (returned : Bool) :
    (q.leave returned).Inv :=
  { h with
    published := by
      intro e hMem
      exact (h.published e hMem).modify rfl (List.append_nil _).symm
    phase := hMutated
    polls := by
      intro r hMem
      exact (h.polls r hMem).mono (Nat.le_refl _) (fun _ _ => rfl) }

theorem finish (h : q.Inv) (hMutated : q.mStates q.mMutating = q.hist.mutated) (block : Block) :
    (q.finish block).Inv := by
  unfold Queue.finish
  split
  · rename_i hWait
    exact { h with phase := ⟨hMutated, hWait.2⟩ }
  · exact h.leave hMutated true

theorem push (h : q.Inv) (hPlace : q.mutation = .idle) (block : Block) : (q.push block).Inv := by
  have hPhase := h.phase
  rw [Phase, hPlace] at hPhase
  unfold Queue.push
  split
  · rename_i hDirty
    exact
      { h with
        published := by
          intro e hMem
          exact (h.published e hMem).modify rfl (List.append_nil _).symm
        phase := ⟨hPhase, hDirty⟩
        polls := by
          intro r hMem
          exact (h.polls r hMem).mono (Nat.le_refl _) (fun _ _ => rfl) }
  · exact h.finish hPhase block

/- Only an acknowledged push lets the next one publish. -/
theorem checkAck (h : q.Inv) {block : Block} (hPlace : q.mutation = .expecting block)
    {t : Queue ι W} (hCheck : q.checkAck block = some t) : t.Inv := by
  have hPhase := h.phase
  rw [Phase, hPlace] at hPhase
  unfold Queue.checkAck at hCheck
  split at hCheck
  · rename_i hAck
    cases hCheck
    have hAcked : q.hist.acked = q.hist.pushes := by
      by_cases hNone : q.mExpecting = none
      · rcases h.mExpecting with hPointer | ⟨_, hEq⟩
        · have hZero : q.hist.pushes = 0 := by
            cases hPushes : q.hist.pushes with
            | zero => rfl
            | succ k =>
              rw [hNone, hPushes] at hPointer
              cases hPointer
          have hLe := h.acked_le
          omega
        · exact hEq
      · rcases hAck with hEmpty | hEq
        · exact absurd hEmpty hNone
        · exact (h.mAck_eq_iff hNone).mp hEq
    exact { h with phase := ⟨hPhase.1, hPhase.2, hAcked⟩ }
  · split at hCheck
    · cases hCheck
      exact h.leave hPhase.1 false
    · cases hCheck

/-
  The published slot is one that no observer holds, and the next slot of the mutator is the one of
  the oldest push.
-/
theorem publish [Fintype ι] (h : q.Inv) {block : Block} (hPlace : q.mutation = .publishing block) :
    (q.publish block).Inv := by
  have hPhase := h.phase
  rw [Phase, hPlace] at hPhase
  rcases hPhase with ⟨hMutated, _, hAcked⟩
  have hPushes : (q.publish block).hist.pushes = q.hist.pushes + 1 := by
    simp [Queue.publish, History.pushes]
  have hPublished :
      (q.publish block).hist.published =
        q.hist.published ++
          [{ stores := q.hist.stores.length
             contents := q.mStates q.mMutating }] :=
    rfl
  have hPointer : some q.mMutating = pointer (q.hist.pushes + 1) := by
    rw [h.mMutating]
    rfl
  have hLast : (q.publish block).hist.contentsAt (q.hist.pushes + 1) = some q.hist.mutated := by
    rw [← hMutated]
    exact History.contentsAt_last (h := q.hist) hPublished
  exact
    { acked_le := by
        rw [hPushes]
        exact Nat.le_succ_of_le h.acked_le
      pushes_le := by
        have hEq := hPushes
        rw [← hAcked] at hEq
        exact Nat.le_of_eq hEq
      mNext := by
        rw [hPushes]
        exact hPointer
      mMutating := by
        rw [hPushes, ← nextSlot_slot, ← h.mMutating]
        rfl
      mAck := h.mAck
      mCurrent := h.mCurrent
      previous := h.previous
      mExpecting := by
        rw [hPushes]
        exact Or.inl hPointer
      holds := by
        intro k hk hNear
        rw [hPushes] at hk hNear
        by_cases hOld : k ≤ q.hist.pushes
        · rw [History.contentsAt_append hPublished hOld]
          exact h.holds k hOld (by omega)
        · have hNew : k = q.hist.pushes + 1 := by omega
          subst hNew
          rw [hLast, ← hPointer, ← hMutated]
          rfl
      published := by
        intro e hMem
        rcases List.mem_append.mp hMem with hOld | hNew
        · exact (h.published e hOld).modify rfl (List.append_nil _).symm
        · rw [List.mem_singleton.mp hNew]
          constructor
          · exact Nat.le_refl _
          · rw [hMutated]
            exact congrArg (applyStores q.hist.initial) List.take_length.symm
      ordered := by
        apply List.pairwise_append.mpr
        refine ⟨h.ordered, List.pairwise_singleton _ _, ?_⟩
        intro e hMem f hNew
        rw [List.mem_singleton.mp hNew]
        exact (h.published e hMem).stores_le
      phase := by
        refine ⟨by rw [hPushes]; omega, ?_, ?_, ?_⟩
        · rw [hPushes]
          exact hPointer
        · rw [History.latest, hPushes, hLast]
          rfl
        · intro i hNotMem
          exact absurd (Finset.mem_univ i) hNotMem
      watch := by
        have hWatch := h.watch
        unfold Watch at hWatch ⊢
        cases hPoll : q.observation with
        | idle => simp only [Queue.publish, hPoll]
        | acking next =>
          rw [hPoll] at hWatch
          rcases hWatch with ⟨_, _, hOne⟩
          omega
      polls := by
        intro r hMem
        refine (h.polls r hMem).mono (Nat.le_refl q.hist.acked) ?_
        intro k hk
        exact History.contentsAt_append hPublished (Nat.le_trans hk h.acked_le)
      pollsOrdered := h.pollsOrdered
      received := h.received }

theorem copyWord (h : q.Inv) {block : Block} {remaining : Finset ι}
    (hPlace : q.mutation = .copying block remaining) {expecting : Slot}
    (hExpecting : q.mExpecting = some expecting) (i : ι) :
    (q.copyWord block remaining expecting i).Inv := by
  have hPhase := h.phase
  rw [Phase, hPlace] at hPhase
  rcases hPhase with ⟨hSome, hPointer, hLatest, hCopied⟩
  have hSource : q.mStates expecting = q.hist.mutated := by
    have hHolds := h.holds q.hist.pushes (Nat.le_refl _) (by simp only [kN]; omega)
    rw [← hPointer, hExpecting] at hHolds
    rw [← hLatest, History.latest, ← hHolds]
    rfl
  exact
    { h with
      holds := by
        intro k hk hNear
        have hNe := h.mMutating_ne_pointer hk hNear
        rw [Queue.copyWord, map_update_of_ne hNe]
        exact h.holds k hk hNear
      phase := by
        refine ⟨hSome, hPointer, hLatest, ?_⟩
        intro j hj
        simp only [Queue.copyWord, Function.update_self]
        by_cases hEq : j = i
        · rw [hEq, Function.update_self, hSource]
        · rw [Function.update_of_ne hEq]
          apply hCopied
          intro hMem
          exact hj (Finset.mem_erase.mpr ⟨hEq, hMem⟩) }

theorem copied (h : q.Inv) {block : Block} (hPlace : q.mutation = .copying block ∅) :
    (q.copied block).Inv := by
  have hPhase := h.phase
  rw [Phase, hPlace] at hPhase
  rcases hPhase with ⟨hSome, hPointer, hLatest, hCopied⟩
  have hMutated : q.mStates q.mMutating = q.hist.mutated := by
    funext i
    exact hCopied i (Finset.notMem_empty i)
  have hClean : Inv { q with mIsDirty := false } :=
    { h with
      phase := by
        unfold Phase
        simp only [hPlace]
        exact ⟨hSome, hPointer, hLatest, hCopied⟩ }
  exact hClean.finish hMutated block

theorem checkAcked (h : q.Inv) (hPlace : q.mutation = .awaiting) {t : Queue ι W}
    (hCheck : q.checkAcked = some t) : t.Inv := by
  have hPhase := h.phase
  rw [Phase, hPlace] at hPhase
  unfold Queue.checkAcked at hCheck
  split at hCheck
  · rename_i hAck
    cases hCheck
    have hAcked : q.hist.acked = q.hist.pushes := (h.mAck_eq_iff hPhase.2).mp hAck
    have hLeave := h.leave hPhase.1 true
    exact { hLeave with mExpecting := Or.inr ⟨rfl, hAcked⟩ }
  · cases hCheck

--
-- The Observer
--

/- What the last push published is in its slot. -/
theorem latest_holds (h : q.Inv) :
    (pointer q.hist.pushes).map q.mStates = q.hist.contentsAt q.hist.pushes :=
  h.holds q.hist.pushes (Nat.le_refl _) (by simp only [kN]; omega)

/- Polls return later and later pushes. -/
theorem receive_pairwise (h : q.Inv) (pointer : Option Slot) :
    (q.receive q.hist.pushes pointer).polls.Pairwise (fun r s => r.pushes ≤ s.pushes) := by
  apply List.pairwise_append.mpr
  refine ⟨h.pollsOrdered, List.pairwise_singleton _ _, ?_⟩
  intro r hMem s hNew
  rw [List.mem_singleton.mp hNew]
  exact Nat.le_trans (h.polls r hMem).pushes_le h.acked_le

/- A poll receives the last push before its load. -/
theorem receive_correct (h : q.Inv) {t : History ι W} (hAcked : t.acked = q.hist.pushes)
    (hPublished : t.published = q.hist.published) {r : Polled ι W}
    (hMem : r ∈ (q.receive q.hist.pushes (pointer q.hist.pushes)).polls) : r.Correct t := by
  have hContents : ∀ k, t.contentsAt k = q.hist.contentsAt k := by
    intro k
    cases k with
    | zero => rfl
    | succ k => rw [History.contentsAt, History.contentsAt, hPublished]
  rcases List.mem_append.mp hMem with hOld | hNew
  · apply (h.polls r hOld).mono
    · rw [hAcked]
      exact h.acked_le
    · intro k _
      exact hContents k
  · rw [List.mem_singleton.mp hNew]
    constructor
    · exact Nat.le_of_eq hAcked.symm
    · rfl
    · rw [hContents]
      exact h.latest_holds

omit [DecidableEq ι] in
theorem receive_last (pushes : Nat) (pointer : Option Slot) {r : Polled ι W}
    (hLast : (q.receive pushes pointer).polls.getLast? = some r) : r.pointer = pointer := by
  simp only [receive, List.getLast?_append, List.getLast?_singleton, Option.some_or,
    Option.some.injEq] at hLast
  rw [← hLast]

theorem pollLoad (h : q.Inv) (hPlace : q.observation = .idle) : q.pollLoad.Inv := by
  have hLe := h.acked_le
  have hNear := h.pushes_le
  unfold Queue.pollLoad
  simp only
  split
  · rename_i hNew
    rw [h.mNext, h.mCurrent] at hNew
    exact
      { h with
        published := by
          intro e hMem
          exact (h.published e hMem).modify rfl (List.append_nil _).symm
        watch := by
          refine ⟨rfl, h.mNext, ?_⟩
          by_contra hNe
          have hEq : q.hist.pushes = q.hist.acked := by
            change q.hist.pushes ≠ q.hist.acked + 1 at hNe
            omega
          exact hNew (congrArg pointer hEq)
        polls := by
          intro r hMem
          exact (h.polls r hMem).mono (Nat.le_refl q.hist.acked) (fun _ _ => rfl) }
  · rename_i hSame
    have hCurrent : q.mNext = q.mCurrent := not_not.mp hSame
    have hAcked : q.hist.acked = q.hist.pushes := by
      rw [h.mNext, h.mCurrent] at hCurrent
      by_contra hNe
      exact pointer_ne (by omega) (by simp only [kN]; omega) hCurrent.symm
    exact
      { h with
        published := by
          intro e hMem
          exact (h.published e hMem).modify rfl (List.append_nil _).symm
        watch := by
          unfold Watch
          simp only [hPlace]
        polls := by
          intro r hMem
          apply h.receive_correct (t := q.receive q.hist.pushes q.mNext) hAcked rfl
          rw [← h.mNext]
          exact hMem
        pollsOrdered := h.receive_pairwise q.mNext
        received := by
          intro r hLast
          rw [receive_last _ _ hLast]
          exact hCurrent }

/- The acknowledged push becomes the current state, and what was current is the push before it. -/
theorem pollAck (h : q.Inv) {next : Option Slot} (hPlace : q.observation = .acking next) :
    (q.pollAck next).Inv := by
  have hWatch := h.watch
  rw [Watch, hPlace] at hWatch
  rcases hWatch with ⟨hLoaded, hNext, hOne⟩
  have hAcked : (q.pollAck next).hist.acked = q.hist.pushes := hLoaded
  have hPushes : (q.pollAck next).hist.pushes = q.hist.pushes :=
    rfl
  exact
    { h with
      acked_le := by
        rw [hAcked, hPushes]
      pushes_le := by
        rw [hAcked, hPushes]
        exact Nat.le_succ _
      mAck := by
        rw [hAcked]
        exact hNext
      mCurrent := by
        rw [hAcked]
        exact hNext
      previous := by
        rw [hAcked, hOne]
        exact h.mCurrent
      mExpecting := by
        rcases h.mExpecting with hSome | ⟨hNone, _⟩
        · exact Or.inl hSome
        · exact Or.inr ⟨hNone, hAcked⟩
      published := by
        intro e hMem
        exact (h.published e hMem).modify rfl (List.append_nil _).symm
      phase := by
        have hPhase := h.phase
        unfold Phase at hPhase ⊢
        cases hMutation : q.mutation with
        | publishing block =>
          rw [hMutation] at hPhase
          have hEq := hPhase.2.2
          omega
        | idle | mutating | expecting | copying | awaiting =>
          rw [hMutation] at hPhase
          simp only [Queue.pollAck, hMutation]
          exact hPhase
      watch := trivial
      polls := by
        intro r hMem
        apply h.receive_correct hAcked rfl
        rw [← hNext, ← hLoaded]
        exact hMem
      pollsOrdered := by
        have hPairwise := h.receive_pairwise next
        rw [← hLoaded] at hPairwise
        exact hPairwise
      received := by
        intro r hLast
        exact receive_last q.hist.loaded next hLast }

end Inv

--
-- Runs
--

variable {ι W : Type} [DecidableEq ι] [Fintype ι]

/- The enabled accesses and where they lead. -/
inductive Transition (q : Queue ι W) : Queue ι W → Prop
| begin (hPlace : q.mutation = .idle) : Transition q q.begin
| modify (hPlace : q.mutation = .mutating) (i : ι) (word : W) : Transition q (q.modify i word)
| endMutation (hPlace : q.mutation = .mutating) (didModify : Bool) :
    Transition q (q.endMutation didModify)
| push (hPlace : q.mutation = .idle) (block : Block) : Transition q (q.push block)
| checkAck {block : Block} (hPlace : q.mutation = .expecting block) {t : Queue ι W}
    (hCheck : q.checkAck block = some t) : Transition q t
| publish {block : Block} (hPlace : q.mutation = .publishing block) : Transition q (q.publish block)
| copyWord {block : Block} {remaining : Finset ι} (hPlace : q.mutation = .copying block remaining)
    {expecting : Slot} (hExpecting : q.mExpecting = some expecting) (i : ι) :
    Transition q (q.copyWord block remaining expecting i)
| copied {block : Block} (hPlace : q.mutation = .copying block ∅) : Transition q (q.copied block)
| checkAcked (hPlace : q.mutation = .awaiting) {t : Queue ι W} (hCheck : q.checkAcked = some t) :
    Transition q t
| pollLoad (hPlace : q.observation = .idle) : Transition q q.pollLoad
| pollAck {next : Option Slot} (hPlace : q.observation = .acking next) :
    Transition q (q.pollAck next)

variable {q t : Queue ι W}

theorem Transition.of_step {a : Action ι W} (hStep : q.step a = some t) : Transition q t := by
  unfold Queue.step at hStep
  split at hStep
  · rename_i hPlace
    cases hStep
    exact .begin hPlace
  · rename_i hPlace
    cases hStep
    exact .modify hPlace _ _
  · rename_i hPlace
    split at hStep
    · cases hStep
      exact .endMutation hPlace _
    · cases hStep
  · rename_i hPlace
    cases hStep
    exact .push hPlace _
  · rename_i hPlace
    exact .checkAck hPlace hStep
  · rename_i hPlace
    cases hStep
    exact .publish hPlace
  · rename_i hPlace
    split at hStep
    · rename_i hExpecting
      split at hStep
      · cases hStep
        exact .copyWord hPlace hExpecting _
      · cases hStep
    · cases hStep
  · rename_i hPlace
    split at hStep
    · rename_i hEmpty
      rw [hEmpty] at hPlace
      cases hStep
      exact .copied hPlace
    · cases hStep
  · rename_i hPlace
    exact .checkAcked hPlace hStep
  · rename_i hPlace
    cases hStep
    exact .pollLoad hPlace
  · rename_i hPlace
    cases hStep
    exact .pollAck hPlace
  · cases hStep

namespace Inv

theorem step (h : q.Inv) {a : Action ι W} (hStep : q.step a = some t) : t.Inv := by
  cases Transition.of_step hStep with
  | begin hPlace => exact h.begin hPlace
  | modify hPlace i word => exact h.modify hPlace i word
  | endMutation hPlace didModify => exact h.endMutation hPlace didModify
  | push hPlace block => exact h.push hPlace block
  | checkAck hPlace hCheck => exact h.checkAck hPlace hCheck
  | publish hPlace => exact h.publish hPlace
  | copyWord hPlace hExpecting i => exact h.copyWord hPlace hExpecting i
  | copied hPlace => exact h.copied hPlace
  | checkAcked hPlace hCheck => exact h.checkAcked hPlace hCheck
  | pollLoad hPlace => exact h.pollLoad hPlace
  | pollAck hPlace => exact h.pollAck hPlace

theorem run (h : q.Inv) {as : List (Action ι W)} (hRun : Run.exec Queue.step q as = some t) :
    t.Inv := by
  refine Run.exec_invariant ?_ hRun h
  intro s a s' hInv hStep
  exact hInv.step hStep

end Inv

end Queue

end StateQueue

end FrameworksAv
