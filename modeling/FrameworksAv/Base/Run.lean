import Mathlib.Algebra.Order.Ring.Int
import Mathlib.Data.List.Basic
import Mathlib.Data.List.Induction

/-
  Runs of executable transition systems.

  A system is a partial step function `σ → α → Option σ`: `none` means that the action is not
  enabled. Runs execute a list of actions, so a concrete run can be evaluated, and every invariant
  of a system is proved once for one step.

  Main declarations:
    * `Run.exec`
    * `Run.guarded`
    * `Run.forall_steps_of_checks`
    * `Run.exec_always_iff`
-/

--
-- Executions
--

namespace FrameworksAv

namespace Run

variable {σ α : Type*}

/- Execute a list of actions from a state. -/
def exec (step : σ → α → Option σ) : σ → List α → Option σ
| s, [] => some s
| s, a :: as => (step s a).bind (fun t => exec step t as)

/- Only the actions that satisfy `ok` are enabled. -/
def guarded (ok : σ → α → Prop) [∀ s a, Decidable (ok s a)] (step : σ → α → Option σ) :
    σ → α → Option σ :=
  fun s a => if ok s a then step s a else none

@[simp] theorem exec_nil (step : σ → α → Option σ) (s : σ) : exec step s [] = some s :=
  rfl

/- The first action of a run leads to the run of the rest. -/
theorem exec_cons_eq_some {step : σ → α → Option σ} {s t : σ} {a : α} {as : List α} :
    exec step s (a :: as) = some t ↔ ∃ u, step s a = some u ∧ exec step u as = some t := by
  simp [exec, Option.bind_eq_some_iff]

/- A run of `as ++ bs` passes through the state after `as`. -/
theorem exec_append_eq_some {step : σ → α → Option σ} {s t : σ} {as bs : List α} :
    exec step s (as ++ bs) = some t ↔ ∃ u, exec step s as = some u ∧ exec step u bs = some t := by
  induction as generalizing s with
  | nil => simp
  | cons a as ih =>
    simp only [List.cons_append, exec_cons_eq_some, ih]
    constructor
    · rintro ⟨u, hStep, v, hRun, hRest⟩
      exact ⟨v, ⟨u, hStep, hRun⟩, hRest⟩
    · rintro ⟨v, ⟨u, hStep, hRun⟩, hRest⟩
      exact ⟨u, hStep, v, hRun, hRest⟩

/- A guarded step is an enabled step of the system. -/
theorem guarded_eq_some {ok : σ → α → Prop} [∀ s a, Decidable (ok s a)] {step : σ → α → Option σ}
    {s t : σ} {a : α} : guarded ok step s a = some t ↔ ok s a ∧ step s a = some t := by
  unfold guarded
  by_cases hOk : ok s a <;> simp [hOk]

--
-- Invariants
--

variable {step : σ → α → Option σ}

/- What every step preserves holds after every run. -/
theorem exec_invariant {inv : σ → Prop} (hStep : ∀ s a t, inv s → step s a = some t → inv t)
    {s t : σ} {as : List α} (hRun : exec step s as = some t) (hInit : inv s) : inv t := by
  induction as generalizing s with
  | nil =>
    cases hRun
    exact hInit
  | cons a as ih =>
    rcases exec_cons_eq_some.mp hRun with ⟨u, hFirst, hRest⟩
    exact ih hRest (hStep s a u hInit hFirst)

/- What the steps of one run preserve holds in every state of the run. -/
theorem exec_prefix_invariant {inv : σ → Prop} {s : σ} {as : List α}
    (hStep :
      ∀ bs a u v, bs ++ [a] <+: as → exec step s bs = some u → inv u → step u a = some v → inv v)
    (hInit : inv s) {bs : List α} {t : σ} (hPrefix : bs <+: as) (hRun : exec step s bs = some t) :
    inv t := by
  induction bs using List.reverseRecOn generalizing t with
  | nil =>
    cases hRun
    exact hInit
  | append_singleton bs a ih =>
    rcases exec_append_eq_some.mp hRun with ⟨u, hFirst, hLast⟩
    rcases exec_cons_eq_some.mp hLast with ⟨v, hOne, hNil⟩
    cases hNil
    have hEarlier : bs <+: as := (List.prefix_append bs [a]).trans hPrefix
    exact hStep bs a u t hPrefix hFirst (ih hEarlier hFirst) hOne

/- What every step preserves of a state and what led to it. -/
theorem exec_history_invariant {inv : List α → σ → Prop}
    (hStep : ∀ as s a t, inv as s → step s a = some t → inv (as ++ [a]) t) {s t : σ} {as : List α}
    (hRun : exec step s as = some t) (hInit : inv [] s) : inv as t := by
  induction as using List.reverseRecOn generalizing t with
  | nil =>
    cases hRun
    exact hInit
  | append_singleton as a ih =>
    rcases exec_append_eq_some.mp hRun with ⟨u, hFirst, hLast⟩
    rcases exec_cons_eq_some.mp hLast with ⟨v, hOne, hNil⟩
    cases hNil
    exact hStep as u a t (ih hFirst) hOne

/- What holds of the steps of a run: of the first and the rest. -/
theorem forall_steps_cons {P : σ → α → Prop} {s : σ} {a : α} {as : List α} :
    (∀ bs b u, bs ++ [b] <+: a :: as → exec step s bs = some u → P u b) ↔
      P s a ∧
        ∀ t, step s a = some t → ∀ bs b u, bs ++ [b] <+: as → exec step t bs = some u → P u b := by
  constructor
  · intro hAll
    constructor
    · refine hAll [] a s ?_ rfl
      exact List.cons_prefix_cons.mpr ⟨rfl, List.nil_prefix⟩
    · intro t hStep bs b u hPrefix hRun
      refine hAll (a :: bs) b u ?_ ?_
      · exact List.cons_prefix_cons.mpr ⟨rfl, hPrefix⟩
      · exact exec_cons_eq_some.mpr ⟨t, hStep, hRun⟩
  · rintro ⟨hFirst, hRest⟩ bs b u hPrefix hRun
    cases bs with
    | nil =>
      cases hRun
      rcases List.cons_prefix_cons.mp hPrefix with ⟨rfl, -⟩
      exact hFirst
    | cons c bs =>
      rcases List.cons_prefix_cons.mp hPrefix with ⟨rfl, hTail⟩
      rcases exec_cons_eq_some.mp hRun with ⟨t, hStep, hMore⟩
      exact hRest t hStep bs b u hTail hMore

/- A test of all steps of a run. -/
def checks (step : σ → α → Option σ) (P : σ → α → Prop) [∀ s a, Decidable (P s a)] :
    σ → List α → Bool
| _, [] => true
| s, a :: as =>
  decide (P s a) &&
    match step s a with
    | none => true
    | some t => checks step P t as

theorem forall_steps_of_checks {P : σ → α → Prop} [∀ s a, Decidable (P s a)] {s : σ} {as : List α}
    (hChecks : checks step P s as = true) :
    ∀ bs b u, bs ++ [b] <+: as → exec step s bs = some u → P u b := by
  induction as generalizing s with
  | nil =>
    intro bs b u hPrefix
    simp at hPrefix
  | cons a as ih =>
    simp only [checks, Bool.and_eq_true, decide_eq_true_eq] at hChecks
    refine forall_steps_cons.mpr ⟨hChecks.1, ?_⟩
    intro t hStep
    have hRest := hChecks.2
    rw [hStep] at hRest
    exact ih hRest

/- What holds of the states of a run. -/
theorem forall_states_cons {P : σ → Prop} {s t : σ} {a : α} {as : List α}
    (hStep : step s a = some t) :
    (∀ bs u, bs <+: a :: as → exec step s bs = some u → P u) ↔
      P s ∧ ∀ bs u, bs <+: as → exec step t bs = some u → P u := by
  constructor
  · intro hAll
    constructor
    · exact hAll [] s List.nil_prefix rfl
    · intro bs u hPrefix hRun
      refine hAll (a :: bs) u ?_ ?_
      · exact List.cons_prefix_cons.mpr ⟨rfl, hPrefix⟩
      · exact exec_cons_eq_some.mpr ⟨t, hStep, hRun⟩
  · rintro ⟨hFirst, hRest⟩ bs u hPrefix hRun
    cases bs with
    | nil =>
      cases hRun
      exact hFirst
    | cons c bs =>
      rcases List.cons_prefix_cons.mp hPrefix with ⟨rfl, hTail⟩
      rcases exec_cons_eq_some.mp hRun with ⟨v, hAgain, hMore⟩
      rw [hStep] at hAgain
      cases hAgain
      exact hRest bs u hTail hMore

/-
  A property holds in every state of a run exactly when every step of the run is one that keeps it.
-/
theorem exec_always_iff {inv good : σ → Prop} {keeps : σ → α → Prop}
    (hStep : ∀ s a t, inv s → good s → step s a = some t → (good t ↔ keeps s a) ∧ (good t → inv t))
    {s t : σ} {as : List α} (hRun : exec step s as = some t) (hInit : inv s) (hGood : good s) :
    (∀ bs u, bs <+: as → exec step s bs = some u → good u) ↔
      ∀ bs a u, bs ++ [a] <+: as → exec step s bs = some u → keeps u a := by
  induction as generalizing s with
  | nil =>
    constructor
    · intro _ bs a u hPrefix
      simp at hPrefix
    · intro _ bs u hPrefix hBs
      rw [List.prefix_nil.mp hPrefix] at hBs
      cases hBs
      exact hGood
  | cons a as ih =>
    rcases exec_cons_eq_some.mp hRun with ⟨v, hFirst, hRest⟩
    rcases hStep s a v hInit hGood hFirst with ⟨hKeeps, hInv⟩
    rw [forall_steps_cons, forall_states_cons hFirst]
    constructor
    · rintro ⟨-, hLater⟩
      have hNext : good v := hLater [] v List.nil_prefix rfl
      refine ⟨hKeeps.mp hNext, ?_⟩
      intro w hSame
      rw [hFirst] at hSame
      cases hSame
      exact (ih hRest (hInv hNext) hNext).mp hLater
    · rintro ⟨hNow, hLater⟩
      have hNext : good v := hKeeps.mpr hNow
      refine ⟨hGood, ?_⟩
      exact (ih hRest (hInv hNext) hNext).mpr (hLater v hFirst)

/- Guarding a system removes runs and adds none. -/
theorem exec_of_guarded {ok : σ → α → Prop} [∀ s a, Decidable (ok s a)] {s t : σ} {as : List α}
    (hRun : exec (guarded ok step) s as = some t) : exec step s as = some t := by
  induction as generalizing s with
  | nil => exact hRun
  | cons a as ih =>
    rcases exec_cons_eq_some.mp hRun with ⟨u, hFirst, hRest⟩
    exact exec_cons_eq_some.mpr ⟨u, (guarded_eq_some.mp hFirst).2, ih hRest⟩

/- A weaker guard admits every run of a stronger one. -/
theorem exec_guarded_mono {ok ok' : σ → α → Prop} [∀ s a, Decidable (ok s a)]
    [∀ s a, Decidable (ok' s a)] (hWeaker : ∀ s a, ok s a → ok' s a) {s t : σ} {as : List α}
    (hRun : exec (guarded ok step) s as = some t) : exec (guarded ok' step) s as = some t := by
  induction as generalizing s with
  | nil => exact hRun
  | cons a as ih =>
    rcases exec_cons_eq_some.mp hRun with ⟨u, hFirst, hRest⟩
    rcases guarded_eq_some.mp hFirst with ⟨hOk, hNext⟩
    exact exec_cons_eq_some.mpr ⟨u, guarded_eq_some.mpr ⟨hWeaker s a hOk, hNext⟩, ih hRest⟩

end Run

end FrameworksAv
