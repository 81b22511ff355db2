import Mathlib.Algebra.Order.Ring.Int
import Mathlib.Data.List.Basic

/-
  Loops that may not end.

  A loop is run with some fuel. It returns when it does so with every fuel from some amount on; a
  failed check ends the program, and running out of fuel is neither.

  Main declarations:
    * `Result`, `Result.bind`, `Result.loop`
    * `Reaches`, `Reaches.unique`
    * `Result.loop_never`, `Result.loop_rule`
    * `Result.Turns`, `Result.Ends`, `Result.exists_ends`
-/

--
-- Results
--

namespace FrameworksAv

/- The result of a piece of code: `aborts` is a failed check. -/
inductive Result (α : Type)
| returns (value : α)
| aborts
| runs
deriving DecidableEq, Repr

namespace Result

variable {α β σ : Type}

def bind (result : Result α) (next : α → Result β) : Result β :=
  match result with
  | .returns value => next value
  | .aborts => .aborts
  | .runs => .runs

def map (f : α → β) (result : Result α) : Result β :=
  result.bind (fun value => .returns (f value))

/- A check, with what comes after it. -/
def check (condition : Prop) [Decidable condition] (next : Result α) : Result α :=
  if condition then next else .aborts

/- `none` is a failed check. -/
def ofOption : Option α → Result α
| some value => .returns value
| none => .aborts

/- `for (;;)`, with the fuel that is left for the body. -/
def loop (body : Nat → σ → Result (σ ⊕ β)) : Nat → σ → Result β
| 0, _ => .runs
| fuel + 1, s =>
  (body fuel s).bind fun
    | .inl s => loop body fuel s
    | .inr value => .returns value

@[simp] theorem bind_returns (value : α) (next : α → Result β) :
    (returns value).bind next = next value :=
  rfl

@[simp] theorem bind_aborts (next : α → Result β) : (aborts : Result α).bind next = aborts :=
  rfl

@[simp] theorem bind_runs (next : α → Result β) : (runs : Result α).bind next = runs :=
  rfl

theorem bind_eq_returns {result : Result α} {next : α → Result β} {value : β} :
    result.bind next = .returns value ↔
      ∃ inner,
        result = .returns inner ∧
          next inner = .returns value := by
  cases result with
  | returns inner =>
    constructor
    · intro hNext
      exact ⟨inner, rfl, hNext⟩
    · rintro ⟨_, hSame, hNext⟩
      cases hSame
      exact hNext
  | aborts => exact ⟨nofun, nofun⟩
  | runs => exact ⟨nofun, nofun⟩

theorem check_eq_returns {condition : Prop} [Decidable condition] {next : Result α} {value : α} :
    check condition next = .returns value ↔ condition ∧ next = .returns value := by
  unfold check
  by_cases hCheck : condition
  · rw [if_pos hCheck]
    exact ⟨fun hNext => ⟨hCheck, hNext⟩, And.right⟩
  · rw [if_neg hCheck]
    exact ⟨nofun, fun hBoth => absurd hBoth.1 hCheck⟩

end Result

--
-- Returning
--

variable {α β σ : Type}

/- With enough fuel a piece of code returns a value. -/
def Reaches (code : Nat → Result α) (value : α) : Prop :=
  ∃ enough, ∀ fuel, enough ≤ fuel → code fuel = .returns value

/- Code without a loop of its own. -/
theorem Reaches.const (value : α) : Reaches (fun _ => .returns value) value :=
  ⟨0, fun _ _ => rfl⟩

theorem Reaches.of_eq {code : Nat → Result α} {value : α}
    (hCode : ∀ fuel, code fuel = .returns value) : Reaches code value :=
  ⟨0, fun fuel _ => hCode fuel⟩

theorem Reaches.bind {code : Nat → Result α} {next : Nat → α → Result β} {value : α} {final : β}
    (hCode : Reaches code value) (hNext : Reaches (fun fuel => next fuel value) final) :
    Reaches (fun fuel => (code fuel).bind (next fuel)) final := by
  rcases hCode with ⟨enough, hCode⟩
  rcases hNext with ⟨more, hNext⟩
  refine ⟨max enough more, ?_⟩
  intro fuel hFuel
  show (code fuel).bind (next fuel) = _
  rw [hCode fuel (by omega)]
  exact hNext fuel (by omega)

theorem Reaches.returns {code : Nat → Result α} {value : α} (hReaches : Reaches code value) :
    ∃ fuel, code fuel = .returns value := by
  rcases hReaches with ⟨enough, hCode⟩
  exact ⟨enough, hCode enough (Nat.le_refl _)⟩

/- Code reaches one value only. -/
theorem Reaches.unique {code : Nat → Result α} {a b : α} (hFirst : Reaches code a)
    (hSecond : Reaches code b) : a = b := by
  rcases hFirst with ⟨enough, hFirst⟩
  rcases hSecond with ⟨more, hSecond⟩
  have hBoth := hFirst (max enough more) (by omega)
  rw [hSecond (max enough more) (by omega)] at hBoth
  exact (Result.returns.inj hBoth).symm

/- Code that uses up some of its fuel. -/
theorem Reaches.succ {code : Nat → Result α} {value : α}
    (hCode : Reaches (fun fuel => code (fuel + 1)) value) : Reaches code value := by
  rcases hCode with ⟨enough, hCode⟩
  refine ⟨enough + 1, ?_⟩
  intro fuel hFuel
  cases fuel with
  | zero => omega
  | succ fuel => exact hCode fuel (by omega)

/- One turn of a loop that goes on. -/
theorem Reaches.loop_turn {body : Nat → σ → Result (σ ⊕ β)} {s t : σ} {value : β}
    (hTurn : Reaches (fun fuel => body fuel s) (.inl t))
    (hRest : Reaches (fun fuel => Result.loop body fuel t) value) :
    Reaches (fun fuel => Result.loop body fuel s) value := by
  rcases hTurn with ⟨enough, hTurn⟩
  rcases hRest with ⟨more, hRest⟩
  refine ⟨max enough more + 1, ?_⟩
  intro fuel hFuel
  cases fuel with
  | zero => omega
  | succ fuel =>
    simp only at hTurn hRest ⊢
    rw [Result.loop, hTurn fuel (by omega)]
    exact hRest fuel (by omega)

/- The turn in which a loop ends. -/
theorem Reaches.loop_end {body : Nat → σ → Result (σ ⊕ β)} {s : σ} {value : β}
    (hTurn : Reaches (fun fuel => body fuel s) (.inr value)) :
    Reaches (fun fuel => Result.loop body fuel s) value := by
  rcases hTurn with ⟨enough, hTurn⟩
  refine ⟨enough + 1, ?_⟩
  intro fuel hFuel
  cases fuel with
  | zero => omega
  | succ fuel =>
    simp only at hTurn ⊢
    rw [Result.loop, hTurn fuel (by omega)]
    rfl

/-
  A loop returns when every turn returns from a good state and the turns that go on make a measure
  smaller.
-/
theorem Reaches.loop {body : Nat → σ → Result (σ ⊕ β)} {good : σ → Prop} (measure : σ → Nat)
    (hTurn :
      ∀ s, good s →
        (∃ t, Reaches (fun fuel => body fuel s) (.inl t) ∧ good t ∧ measure t < measure s) ∨
        ∃ value, Reaches (fun fuel => body fuel s) (.inr value))
    {s : σ} (hGood : good s) : ∃ value, Reaches (fun fuel => Result.loop body fuel s) value := by
  induction hMeasure : measure s using Nat.strongRecOn generalizing s with
  | ind n ih =>
    rcases hTurn s hGood with ⟨t, hGoes, hNext, hLess⟩ | ⟨value, hEnds⟩
    · rcases ih (measure t) (by omega) hNext rfl with ⟨value, hRest⟩
      exact ⟨value, hGoes.loop_turn hRest⟩
    · exact ⟨value, hEnds.loop_end⟩

namespace Result

/- A loop does not return when no turn leads out of its states. -/
theorem loop_never {body : Nat → σ → Result (σ ⊕ β)} (bad : σ → Prop)
    (hTurn : ∀ fuel s next, bad s → body fuel s = .returns next → ∃ t, next = .inl t ∧ bad t)
    (fuel : Nat) {s : σ} {value : β} (hBad : bad s) : loop body fuel s ≠ .returns value := by
  induction fuel generalizing s with
  | zero => nofun
  | succ fuel ih =>
    intro hReturns
    rw [loop, bind_eq_returns] at hReturns
    rcases hReturns with ⟨next, hBody, hRest⟩
    rcases hTurn fuel s next hBad hBody with ⟨t, rfl, hNext⟩
    exact ih hNext hRest

/- What a loop returns, by an invariant of its turns. -/
theorem loop_rule {body : Nat → σ → Result (σ ⊕ β)} (inv : σ → Prop) (post : β → Prop)
    (hNext : ∀ fuel s t, inv s → body fuel s = .returns (.inl t) → inv t)
    (hLast : ∀ fuel s value, inv s → body fuel s = .returns (.inr value) → post value) (fuel : Nat)
    {s : σ} {value : β} (hInv : inv s) (hReturns : loop body fuel s = .returns value) :
    post value := by
  induction fuel generalizing s with
  | zero => cases hReturns
  | succ fuel ih =>
    rw [loop, bind_eq_returns] at hReturns
    rcases hReturns with ⟨next, hBody, hRest⟩
    cases next with
    | inl t => exact ih (hNext fuel s t hInv hBody) hRest
    | inr last =>
      cases hRest
      exact hLast fuel s _ hInv hBody

theorem map_eq_returns {result : Result α} {f : α → β} {value : β} :
    result.map f = .returns value ↔ ∃ inner, result = .returns inner ∧ f inner = value := by
  rw [map, bind_eq_returns]
  constructor
  · rintro ⟨inner, hInner, hValue⟩
    exact ⟨inner, hInner, returns.inj hValue⟩
  · rintro ⟨inner, hInner, hValue⟩
    exact ⟨inner, hInner, congrArg returns hValue⟩

end Result

end FrameworksAv

--
-- Loops Whose Turns Take No Fuel
--

namespace FrameworksAv

namespace Result

variable {β σ : Type} {body : σ → Result (σ ⊕ β)} {s t u : σ} {value : β}

/- The states that a loop comes to. -/
inductive Turns (body : σ → Result (σ ⊕ β)) (s : σ) : σ → Prop
| start : Turns body s s
| turn {t u : σ} (before : Turns body s t) (next : body t = .returns (.inl u)) : Turns body s u

/- The loop, with enough fuel. -/
def Ends (body : σ → Result (σ ⊕ β)) (s : σ) (value : β) : Prop :=
  Reaches (fun fuel => loop (fun _ => body) fuel s) value

theorem ends_turn_iff (hTurn : body s = .returns (.inl t)) :
    Ends body s value ↔ Ends body t value := by
  constructor
  · rintro ⟨enough, hReturns⟩
    refine ⟨enough, fun fuel hFuel => ?_⟩
    have hNext := hReturns (fuel + 1) (by omega)
    simp only [loop, hTurn, bind_returns] at hNext
    exact hNext
  · exact Reaches.loop_turn (Reaches.of_eq fun _ => hTurn)

/- A loop ends the way that it does from a later state. -/
theorem Turns.ends_iff (hTurns : Turns body s t) : Ends body s value ↔ Ends body t value := by
  induction hTurns with
  | start => exact Iff.rfl
  | turn before hNext ih => exact ih.trans (ends_turn_iff hNext)

theorem ends_of_last (hTurn : body s = .returns (.inr value)) : Ends body s value :=
  Reaches.loop_end (Reaches.of_eq fun _ => hTurn)

theorem not_ends_of_aborts (hTurn : body s = .aborts) : ¬Ends body s value := by
  rintro ⟨enough, hReturns⟩
  have hNext := hReturns (enough + 1) (by omega)
  simp only [loop, hTurn, bind_aborts] at hNext
  cases hNext

/- A turn that changes nothing is taken forever. -/
theorem not_ends_of_same (hTurn : body s = .returns (.inl s)) : ¬Ends body s value := by
  rintro ⟨enough, hReturns⟩
  refine loop_never (fun t => t = s) ?_ enough rfl (hReturns enough (Nat.le_refl _))
  rintro _ t next rfl hNext
  rw [hTurn] at hNext
  exact ⟨t, (returns.inj hNext).symm, rfl⟩

/- What a loop returns with some fuel it returns with more. -/
theorem ends_of_returns {fuel : Nat} (hReturns : loop (fun _ => body) fuel s = .returns value) :
    Ends body s value := by
  induction fuel generalizing s with
  | zero => cases hReturns
  | succ fuel ih =>
    rw [loop, bind_eq_returns] at hReturns
    rcases hReturns with ⟨next, hBody, hRest⟩
    cases next with
    | inl t => exact (ends_turn_iff hBody).mpr (ih hRest)
    | inr last =>
      cases hRest
      exact ends_of_last hBody

/- A loop, with what comes after it. -/
theorem reaches_bind_iff {γ : Type} {next : β → Result γ} {final : γ} :
    Reaches (fun fuel => (loop (fun _ => body) fuel s).bind next) final ↔
      ∃ value, Ends body s value ∧ next value = .returns final := by
  constructor
  · intro hReaches
    rcases hReaches.returns with ⟨fuel, hReturns⟩
    rw [bind_eq_returns] at hReturns
    rcases hReturns with ⟨value, hLoop, hNext⟩
    exact ⟨value, ends_of_returns hLoop, hNext⟩
  · rintro ⟨value, hEnds, hNext⟩
    exact Reaches.bind hEnds (Reaches.of_eq fun _ => hNext)

/-
  A loop ends when no turn from a good state fails, and those that go on lead to a good state with a
  smaller measure.
-/
theorem exists_ends (good : σ → Prop) (measure : σ → Nat)
    (hTurn :
      ∀ s, good s → (∃ t, body s = .returns (.inl t) ∧ good t ∧ measure t < measure s) ∨
        ∃ value, body s = .returns (.inr value))
    (hGood : good s) : ∃ value, Ends body s value := by
  refine Reaches.loop measure (fun s hS => ?_) hGood
  rcases hTurn s hS with ⟨t, hNext, hT, hLess⟩ | ⟨value, hLast⟩
  · exact Or.inl ⟨t, Reaches.of_eq fun _ => hNext, hT, hLess⟩
  · exact Or.inr ⟨value, Reaches.of_eq fun _ => hLast⟩

end Result

end FrameworksAv
