import FrameworksAv.Base.Playback

/-
  Commands to a playback, one by one and coalesced.

  A new loop restarts a position behind its end, and a new position behind the end of the loop ends
  the loop. Coalesced, only the last command of each kind survives, the newer one last. Lists of
  commands are newest first.

  Main declarations:
    * `Playback.Command`, `Playback.run`
    * `Playback.coalesced`
    * `Playback.Kept`
    * `Playback.coalesced_eq_iff`
-/

--
-- Commands
--

namespace FrameworksAv

namespace Playback

/- The parameters of a loop. -/
structure Loop where
  loopStart : Nat
  loopEnd : Nat
  loopCount : Int
deriving DecidableEq

inductive Command where
| loop (l : Loop)
| position (p : Nat)

/- A new loop restarts a position behind its end. -/
def Loop.restart (l : Loop) (position : Nat) : Nat :=
  if l.loopCount ≠ 0 ∧ l.loopEnd ≤ position then l.loopStart
  else position

/- Carry out one command. -/
def apply (b : Playback) : Command → Playback
| .loop l =>
  { position := l.restart b.position
    loopStart := l.loopStart
    loopEnd := l.loopEnd
    loopCount := l.loopCount }
| .position p =>
  { b with
    position := p
    loopCount := if b.loopCount ≠ 0 ∧ b.loopEnd ≤ p then 0
      else b.loopCount }

/- Carry out all commands, the oldest first. -/
def run (b : Playback) (cs : List Command) : Playback :=
  cs.foldr (fun c b => b.apply c) b

/- The newest loop and the newest position. -/
def lastLoop : List Command → Option Loop
| [] => none
| .loop l :: _ => some l
| .position _ :: cs => lastLoop cs

def lastPosition : List Command → Option Nat
| [] => none
| .loop _ :: cs => lastPosition cs
| .position p :: _ => some p

/- Carry out the newest command of each kind. -/
def coalesced (b : Playback) : List Command → Playback
| [] => b
| .loop l :: cs => (b.run ((lastPosition cs).map .position).toList).apply (.loop l)
| .position p :: cs => (b.run ((lastLoop cs).map .loop).toList).apply (.position p)

--
-- When Nothing Is Lost
--

/- The positions since the newest loop. -/
def positionsSince : List Command → List Nat
| [] => []
| .loop _ :: _ => []
| .position p :: cs => p :: positionsSince cs

/- The loops since the newest position. -/
def loopsSince : List Command → List Loop
| [] => []
| .loop l :: cs => l :: loopsSince cs
| .position _ :: _ => []

/- The loop that the newest positions meet. -/
def inForce (b : Playback) (cs : List Command) : Loop :=
  (lastLoop cs).getD ⟨b.loopStart, b.loopEnd, b.loopCount⟩

/- The position that the newest loops meet. -/
def base (b : Playback) (cs : List Command) : Nat :=
  (lastPosition cs).getD b.position

/- The position after the newest loops. -/
def restarted (b : Playback) (cs : List Command) : Nat :=
  (loopsSince cs).foldr (fun l p => l.restart p) (b.base cs)

/-
  Coalescing loses nothing. If a position is newest: no earlier one ended the loop, unless the
  newest does. If a loop is newest: no earlier one restarted the position, unless the newest hides
  it.
-/
def Kept (b : Playback) : List Command → Prop
| [] => True
| .position p :: cs =>
  (b.inForce cs).loopCount = 0 ∨ (b.inForce cs).loopEnd ≤ p ∨
    ∀ x ∈ positionsSince cs, x < (b.inForce cs).loopEnd
| .loop l :: cs =>
  b.restarted cs = b.base cs ∨
    (l.loopCount ≠ 0 ∧
      ((l.loopEnd ≤ b.restarted cs ∧ l.loopEnd ≤ b.base cs) ∨
        (l.loopEnd ≤ b.restarted cs ∧ b.base cs = l.loopStart) ∨
        (l.loopEnd ≤ b.base cs ∧ b.restarted cs = l.loopStart)))

variable (b : Playback)

theorem run_cons (c : Command) (cs : List Command) : b.run (c :: cs) = (b.run cs).apply c :=
  rfl

theorem run_append (cs ds : List Command) : b.run (cs ++ ds) = (b.run ds).run cs :=
  List.foldr_append

/- One by one, the region is that of the newest loop. -/
theorem run_region (cs : List Command) :
    (b.run cs).loopStart = (b.inForce cs).loopStart ∧
      (b.run cs).loopEnd = (b.inForce cs).loopEnd := by
  induction cs with
  | nil => exact ⟨rfl, rfl⟩
  | cons c cs ih =>
    cases c with
    | loop l => exact ⟨rfl, rfl⟩
    | position p => exact ih

/- One by one, any position behind the end ends the loop. -/
theorem run_loopCount (cs : List Command) :
    (b.run cs).loopCount = if ∃ p ∈ positionsSince cs, (b.inForce cs).loopEnd ≤ p then 0
      else (b.inForce cs).loopCount := by
  induction cs with
  | nil => simp [run, positionsSince, inForce, lastLoop]
  | cons c cs ih =>
    cases c with
    | loop l => simp [run_cons, apply, positionsSince, inForce, lastLoop]
    | position p =>
      have hForce : b.inForce (.position p :: cs) = b.inForce cs := rfl
      have hSince : positionsSince (.position p :: cs) = p :: positionsSince cs := rfl
      rw [run_cons, hForce, hSince]
      simp only [apply, (b.run_region cs).2, List.exists_mem_cons_iff]
      by_cases hEnds : (b.inForce cs).loopEnd ≤ p
      · rw [if_pos (Or.inl hEnds)]
        split
        · rfl
        · rename_i hLoops
          by_contra hNe
          exact hLoops ⟨hNe, hEnds⟩
      · rw [if_neg (fun hBoth => hEnds hBoth.2), ih]
        simp only [hEnds, false_or]

/- One by one, every new loop may restart the position. -/
theorem run_position (cs : List Command) : (b.run cs).position = b.restarted cs := by
  induction cs with
  | nil => rfl
  | cons c cs ih =>
    cases c with
    | loop l =>
      have hLoop : b.restarted (.loop l :: cs) = l.restart (b.restarted cs) := rfl
      rw [run_cons, hLoop, ← ih]
      rfl
    | position p => rfl

/- Two positions meet after a restart of both. -/
theorem Loop.restart_eq_iff (l : Loop) (p q : Nat) :
    l.restart p = l.restart q ↔
      p = q ∨
        (l.loopCount ≠ 0 ∧
          ((l.loopEnd ≤ p ∧ l.loopEnd ≤ q) ∨ (l.loopEnd ≤ p ∧ q = l.loopStart) ∨
            (l.loopEnd ≤ q ∧ p = l.loopStart))) := by
  unfold Loop.restart
  by_cases hZero : l.loopCount = 0
  · simp [hZero]
  · simp only [ne_eq, hZero, not_false_eq_true, true_and]
    by_cases hp : l.loopEnd ≤ p
    · by_cases hq : l.loopEnd ≤ q
      · simp [hp, hq]
      · have hNe : p ≠ q := by
          omega
        simp [hp, hq, hNe, eq_comm]
    · by_cases hq : l.loopEnd ≤ q
      · have hNe : p ≠ q := by
          omega
        simp [hp, hq, hNe]
      · simp [hp, hq]

/- The newest loop alone leaves the loop in force. -/
theorem run_lastLoop (cs : List Command) :
    let r := b.run ((lastLoop cs).map .loop).toList
    r.loopStart = (b.inForce cs).loopStart ∧ r.loopEnd = (b.inForce cs).loopEnd ∧
      r.loopCount = (b.inForce cs).loopCount := by
  unfold inForce
  cases lastLoop cs with
  | none => exact ⟨rfl, rfl, rfl⟩
  | some l => exact ⟨rfl, rfl, rfl⟩

/- The newest position alone leaves the base. -/
theorem run_lastPosition (cs : List Command) :
    (b.run ((lastPosition cs).map .position).toList).position = b.base cs := by
  unfold base
  cases lastPosition cs with
  | none => rfl
  | some p => rfl

theorem ext_iff' {b c : Playback} :
    b = c ↔
      b.position = c.position ∧ b.loopStart = c.loopStart ∧
        b.loopEnd = c.loopEnd ∧ b.loopCount = c.loopCount := by
  cases b
  cases c
  simp

/- Coalescing is unobservable exactly if nothing is lost. -/
theorem coalesced_eq_iff (cs : List Command) : b.coalesced cs = b.run cs ↔ b.Kept cs := by
  cases cs with
  | nil => simp [coalesced, run, Kept]
  | cons c cs =>
    cases c with
    | position p =>
      have hAlone := b.run_lastLoop cs
      have hRegion := b.run_region cs
      have hCount := b.run_loopCount cs
      unfold coalesced Kept
      rw [run_cons, ext_iff']
      simp only [apply, hAlone.1, hAlone.2.1, hAlone.2.2, hRegion.1, hRegion.2, hCount, true_and]
      by_cases hZero : (b.inForce cs).loopCount = 0
      · simp [hZero]
      · by_cases hEnds : (b.inForce cs).loopEnd ≤ p
        · -- a position behind the end leaves no loop
          have hNone : ∀ n : Int, (if n ≠ 0 ∧ (b.inForce cs).loopEnd ≤ p then 0 else n) = 0 := by
            intro n
            split
            · rfl
            · rename_i hLoops
              by_contra hNe
              exact hLoops ⟨hNe, hEnds⟩
          rw [hNone, hNone]
          simp only [hEnds, true_or, or_true]
        · simp only [hEnds, and_false, if_false, hZero, false_or]
          by_cases hBehind : ∃ x ∈ positionsSince cs, (b.inForce cs).loopEnd ≤ x
          · rw [if_pos hBehind]
            rcases hBehind with ⟨x, hx, hLe⟩
            constructor
            · intro hEq
              exact absurd hEq hZero
            · intro hBefore
              exact absurd (hBefore x hx) (by omega)
          · rw [if_neg hBehind]
            simp only [true_iff]
            intro x hx
            by_contra hLe
            exact hBehind ⟨x, hx, Nat.le_of_not_lt hLe⟩
    | loop l =>
      have hAlone := b.run_lastPosition cs
      have hAll := b.run_position cs
      unfold coalesced Kept
      rw [run_cons, ext_iff']
      simp only [apply, hAlone, hAll, and_self, and_true]
      rw [eq_comm, Loop.restart_eq_iff]

end Playback

end FrameworksAv
