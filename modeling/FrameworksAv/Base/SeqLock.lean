import FrameworksAv.Base.Counter
import FrameworksAv.Base.Run
import Mathlib.Data.Fintype.Basic

/-
  A sequence lock: one updater stores several cells under a sequence number with a busy bit, and an
  observer takes the cells it has loaded if the number is the same before and after and not busy.

  The cells are stored and loaded one at a time and in any order. The number has 31 bits, so an
  observer must not be overtaken by 2^31 updates in one pass.

  Main declarations:
    * `SeqLock`, `SeqLock.Action`, `SeqLock.step`
    * `SeqLock.NotOvertaken`
    * `SeqLock.Inv`
    * `SeqLock.exec_seen`
-/

--
-- States
--

namespace FrameworksAv

namespace SeqLock

/- Where the updater is. -/
inductive Updating (ι β : Type) where
| idle
| storing (target : ι → β) (tmp : Word) (remaining : Finset ι)

/- Where the observer is; `began` counts the updates before. -/
inductive Observing (ι β : Type) where
| idle
| loading (seqOne : Word) (loaded : ι → β) (remaining : Finset ι) (began : Nat)

/- The accesses of both sides. -/
inductive Action (ι β : Type) where
| beginUpdate (target : ι → β)
| store (i : ι)
| endUpdate
| beginPass
| load (i : ι)
| endPass

end SeqLock

/- The values of all updates so far, the first ones first, and what has been observed. -/
structure SeqLock (ι β : Type) where
  sequence : Word
  cells : ι → β
  updating : SeqLock.Updating ι β
  observing : SeqLock.Observing ι β
  initial : ι → β
  updates : List (ι → β)
  observed : List (ι → β)

namespace SeqLock

variable {ι β : Type}

def busyBit : Word := 0x80000000
def sequenceMask : Word := 0x7FFFFFFF

def init (cells : ι → β) : SeqLock ι β where
  sequence := 0
  cells := cells
  updating := .idle
  observing := .idle
  initial := cells
  updates := []
  observed := []

/- The values of the last update. -/
def current (s : SeqLock ι β) : ι → β :=
  s.updates.getLast?.getD s.initial

variable [Fintype ι] [DecidableEq ι]

def step (s : SeqLock ι β) (a : Action ι β) : Option (SeqLock ι β) :=
  match a, s.updating, s.observing with
  | .beginUpdate target, .idle, _ =>
    let tmp := s.sequence ||| busyBit
    some
      { s with
        sequence := tmp
        updating := .storing target tmp Finset.univ }
  | .store i, .storing target tmp remaining, _ =>
    if i ∈ remaining then
      some
        { s with
          cells := Function.update s.cells i (target i)
          updating := .storing target tmp (remaining.erase i) }
    else none
  | .endUpdate, .storing target tmp remaining, _ =>
    if remaining = ∅ then
      some
        { s with
          sequence := (tmp + 1) &&& sequenceMask
          updating := .idle
          updates := s.updates ++ [target] }
    else none
  | .beginPass, _, .idle =>
    some
      { s with
        observing := .loading s.sequence s.initial Finset.univ s.updates.length }
  | .load i, _, .loading seqOne loaded remaining began =>
    if i ∈ remaining then
      some
        { s with
          observing :=
            .loading seqOne (Function.update loaded i (s.cells i)) (remaining.erase i) began }
    else none
  | .endPass, _, .loading seqOne loaded remaining _ =>
    if remaining = ∅ then
      let seqTwo := s.sequence
      if seqOne ≠ seqTwo ∨ seqOne &&& busyBit ≠ 0 then some { s with observing := .idle }
      else
        some
          { s with
            observing := .idle
            observed := s.observed ++ [loaded] }
    else none
  | _, _, _ => none

/- Fewer than 2^31 updates have ended since the pass began. -/
def NotOvertaken (s : SeqLock ι β) : Prop :=
  match s.observing with
  | .idle => True
  | .loading _ _ _ began => s.updates.length < began + 2 ^ 31

instance (s : SeqLock ι β) : Decidable s.NotOvertaken :=
  match h : s.observing with
  | .idle => isTrue (by rw [NotOvertaken, h]; trivial)
  | .loading _ _ _ began =>
    decidable_of_iff (s.updates.length < began + 2 ^ 31) (by rw [NotOvertaken, h])

end SeqLock

--
-- The Sequence Number
--

namespace SeqLock

/- The number after so many updates. -/
def number (updates : Nat) : Word :=
  BitVec.ofNat 32 (updates % 2 ^ 31)

theorem busy_number (n : Nat) : number n ||| busyBit = BitVec.ofNat 32 (2 ^ 31 + n % 2 ^ 31) := by
  have hOr := Counter.or_ofNat 1 (Nat.mod_lt n (Nat.two_pow_pos 31)) (by decide : 31 < 32)
  rw [Nat.mul_one] at hOr
  exact hOr

theorem next_number (n : Nat) :
    (BitVec.ofNat 32 (2 ^ 31 + n % 2 ^ 31) + 1) &&& sequenceMask = number (n + 1) := by
  have hSum :
      BitVec.ofNat 32 (2 ^ 31 + n % 2 ^ 31) + 1 = BitVec.ofNat 32 (2 ^ 31 + n % 2 ^ 31 + 1) :=
    (Counter.ofNat_add _ 1).symm
  have hLow := Counter.low_ofNat (2 ^ 31 + n % 2 ^ 31 + 1) (by decide : 31 < 32)
  have hMod : (2 ^ 31 + n % 2 ^ 31 + 1) % 2 ^ 31 = (n + 1) % 2 ^ 31 := by
    omega
  rw [hSum, number, ← hMod]
  exact hLow

theorem busy_and_busy (n : Nat) : BitVec.ofNat 32 (2 ^ 31 + n % 2 ^ 31) &&& busyBit ≠ 0 := by
  have hHigh := Counter.high_ofNat (2 ^ 31 + n % 2 ^ 31) (by decide : 31 < 32)
  have hDiv : (2 ^ 31 + n % 2 ^ 31) / 2 ^ 31 = 1 := by
    omega
  rw [hDiv, Nat.mul_one] at hHigh
  intro hZero
  have hEq := hHigh.symm.trans hZero
  revert hEq
  decide

/- Numbers that are close differ. -/
theorem number_inj {m n : Nat} (hLe : m ≤ n) (hNear : n < m + 2 ^ 31) (hEq : number m = number n) :
    m = n := by
  have hNat := congrArg BitVec.toNat hEq
  simp only [number, BitVec.toNat_ofNat] at hNat
  omega

--
-- Observations
--

variable {ι β : Type} {s t : SeqLock ι β}

/- The values are those of one update, or the first ones. -/
def Whole (s : SeqLock ι β) (values : ι → β) : Prop :=
  values = s.initial ∨ values ∈ s.updates

theorem whole_current (s : SeqLock ι β) : s.Whole s.current := by
  unfold current
  cases hLast : s.updates.getLast? with
  | none => exact Or.inl rfl
  | some values => exact Or.inr (List.mem_of_getLast? hLast)

theorem current_append (s : SeqLock ι β) (target : ι → β) (cells : ι → β) (sequence : Word) :
    ({ s with
        cells := cells
        sequence := sequence
        updating := .idle
        updates := s.updates ++ [target] } :
      SeqLock ι β).current = target := by
  unfold current
  simp

/- The cells and the number follow the updates. -/
def UpdaterInv (s : SeqLock ι β) : Prop :=
  match s.updating with
  | .idle => s.sequence = number s.updates.length ∧ s.cells = s.current
  | .storing target tmp remaining =>
    s.sequence = BitVec.ofNat 32 (2 ^ 31 + s.updates.length % 2 ^ 31) ∧ tmp = s.sequence ∧
      ∀ i, i ∉ remaining → s.cells i = target i

/- A pass that no update meets has loaded the current cells. -/
def ObserverInv (s : SeqLock ι β) : Prop :=
  match s.observing with
  | .idle => True
  | .loading seqOne loaded remaining began =>
    (seqOne = number began ∨ seqOne &&& busyBit ≠ 0) ∧ began ≤ s.updates.length ∧
      (s.updating = .idle → s.updates.length = began → ∀ i, i ∉ remaining → loaded i = s.current i)

structure Inv (s : SeqLock ι β) : Prop where
  updater : s.UpdaterInv
  observer : s.ObserverInv
  observed : ∀ values ∈ s.observed, s.Whole values

theorem Inv.init (cells : ι → β) : (init cells).Inv where
  updater := ⟨rfl, rfl⟩
  observer := trivial
  observed := nofun

theorem Inv.beginUpdate [Fintype ι] (h : s.Inv) (hPlace : s.updating = .idle) (target : ι → β) :
    ({ s with
        sequence := s.sequence ||| busyBit
        updating := .storing target (s.sequence ||| busyBit) Finset.univ } :
      SeqLock ι β).Inv := by
  have hUpdater := h.updater
  unfold UpdaterInv at hUpdater
  rw [hPlace] at hUpdater
  refine ⟨?_, ?_, h.observed⟩
  · refine ⟨?_, rfl, ?_⟩
    · simp only
      rw [hUpdater.1, busy_number]
    · intro i hi
      exact absurd (Finset.mem_univ i) hi
  · have hObserver := h.observer
    unfold ObserverInv at hObserver ⊢
    cases hPass : s.observing with
    | idle => trivial
    | loading seqOne loaded remaining began =>
      rw [hPass] at hObserver
      exact ⟨hObserver.1, hObserver.2.1, nofun⟩

theorem Inv.store [DecidableEq ι] (h : s.Inv) {target : ι → β} {tmp : Word} {remaining : Finset ι}
    (hPlace : s.updating = .storing target tmp remaining) (i : ι) :
    ({ s with
        cells := Function.update s.cells i (target i)
        updating := .storing target tmp (remaining.erase i) } :
      SeqLock ι β).Inv := by
  have hUpdater := h.updater
  unfold UpdaterInv at hUpdater
  rw [hPlace] at hUpdater
  rcases hUpdater with ⟨hSequence, hTmp, hCells⟩
  refine ⟨⟨hSequence, hTmp, ?_⟩, ?_, h.observed⟩
  · intro j hj
    simp only
    by_cases hEq : j = i
    · rw [hEq, Function.update_self]
    · rw [Function.update_of_ne hEq]
      apply hCells j
      intro hLeft
      exact hj (Finset.mem_erase.mpr ⟨hEq, hLeft⟩)
  · have hObserver := h.observer
    unfold ObserverInv at hObserver ⊢
    cases hPass : s.observing with
    | idle => trivial
    | loading seqOne loaded left began =>
      rw [hPass] at hObserver
      exact ⟨hObserver.1, hObserver.2.1, nofun⟩

theorem Inv.endUpdate (h : s.Inv) {target : ι → β} {tmp : Word}
    (hPlace : s.updating = .storing target tmp ∅) :
    ({ s with
        sequence := (tmp + 1) &&& sequenceMask
        updating := .idle
        updates := s.updates ++ [target] } :
      SeqLock ι β).Inv := by
  have hUpdater := h.updater
  unfold UpdaterInv at hUpdater
  rw [hPlace] at hUpdater
  rcases hUpdater with ⟨hSequence, hTmp, hCells⟩
  have hTarget : s.cells = target :=
    funext (fun i => hCells i (Finset.notMem_empty i))
  refine ⟨⟨?_, ?_⟩, ?_, ?_⟩
  · simp only [List.length_append, List.length_singleton]
    rw [hTmp, hSequence, next_number]
  · exact hTarget.trans (current_append s target _ _).symm
  · have hObserver := h.observer
    unfold ObserverInv at hObserver ⊢
    cases hPass : s.observing with
    | idle => trivial
    | loading seqOne loaded remaining began =>
      rw [hPass] at hObserver
      simp only [List.length_append, List.length_singleton]
      refine ⟨hObserver.1, by omega, ?_⟩
      intro _ hEq
      omega
  · intro values hValues
    rcases h.observed values hValues with hFirst | hLater
    · exact Or.inl hFirst
    · exact Or.inr (List.mem_append_left _ hLater)

theorem Inv.beginPass [Fintype ι] (h : s.Inv) :
    ({ s with
        observing := .loading s.sequence s.initial Finset.univ s.updates.length } :
      SeqLock ι β).Inv := by
  refine ⟨h.updater, ⟨?_, Nat.le_refl _, ?_⟩, h.observed⟩
  · have hUpdater := h.updater
    unfold UpdaterInv at hUpdater
    cases hPlace : s.updating with
    | idle =>
      rw [hPlace] at hUpdater
      exact Or.inl hUpdater.1
    | storing target tmp remaining =>
      rw [hPlace] at hUpdater
      right
      rw [hUpdater.1]
      exact busy_and_busy _
  · intro _ _ i hi
    exact absurd (Finset.mem_univ i) hi

theorem Inv.load [DecidableEq ι] (h : s.Inv) {seqOne : Word} {loaded : ι → β} {remaining : Finset ι}
    {began : Nat} (hPlace : s.observing = .loading seqOne loaded remaining began) (i : ι) :
    ({ s with
        observing :=
          .loading seqOne (Function.update loaded i (s.cells i)) (remaining.erase i) began } :
      SeqLock ι β).Inv := by
  have hObserver := h.observer
  unfold ObserverInv at hObserver
  rw [hPlace] at hObserver
  rcases hObserver with ⟨hNumber, hBegan, hLoaded⟩
  refine ⟨h.updater, ⟨hNumber, hBegan, ?_⟩, h.observed⟩
  intro hIdle hSame j hj
  have hUpdater := h.updater
  unfold UpdaterInv at hUpdater
  simp only at hIdle
  rw [hIdle] at hUpdater
  by_cases hEq : j = i
  · rw [hEq, Function.update_self, hUpdater.2]
    rfl
  · rw [Function.update_of_ne hEq]
    apply hLoaded hIdle hSame j
    intro hLeft
    exact hj (Finset.mem_erase.mpr ⟨hEq, hLeft⟩)

/- A pass that is accepted has met no update. -/
theorem Inv.pass_whole (h : s.Inv) {loaded : ι → β} {began : Nat}
    (hPlace : s.observing = .loading s.sequence loaded ∅ began) (hNear : s.NotOvertaken)
    (hFree : s.sequence &&& busyBit = 0) : loaded = s.current := by
  have hObserver := h.observer
  unfold ObserverInv at hObserver
  unfold NotOvertaken at hNear
  rw [hPlace] at hObserver hNear
  rcases hObserver with ⟨hNumber, hBegan, hLoaded⟩
  have hUpdater := h.updater
  unfold UpdaterInv at hUpdater
  cases hUpdating : s.updating with
  | storing target tmp remaining =>
    rw [hUpdating] at hUpdater
    rw [hUpdater.1] at hFree
    exact absurd hFree (busy_and_busy _)
  | idle =>
    rw [hUpdating] at hUpdater
    have hFirst : s.sequence = number began := hNumber.resolve_right (fun hBusy => hBusy hFree)
    have hSame : began = s.updates.length := number_inj hBegan hNear (hFirst.symm.trans hUpdater.1)
    exact
      funext
        (fun i =>
          hLoaded hUpdating hSame.symm i (Finset.notMem_empty i))

variable [Fintype ι] [DecidableEq ι]

theorem Inv.step (h : s.Inv) {a : Action ι β} (hNear : s.NotOvertaken) (hStep : s.step a = some t) :
    t.Inv := by
  unfold SeqLock.step at hStep
  split at hStep
  · rename_i hPlace
    cases hStep
    exact h.beginUpdate hPlace _
  · rename_i hPlace
    split at hStep
    · cases hStep
      exact h.store hPlace _
    · cases hStep
  · rename_i hPlace
    split at hStep
    · rename_i hEmpty
      subst hEmpty
      cases hStep
      exact h.endUpdate hPlace
    · cases hStep
  · cases hStep
    exact h.beginPass
  · rename_i hPlace
    split at hStep
    · cases hStep
      exact h.load hPlace _
    · cases hStep
  · rename_i seqOne loaded remaining began hPlace
    split at hStep
    · rename_i hEmpty
      subst hEmpty
      simp only at hStep
      split at hStep
      · cases hStep
        exact ⟨h.updater, trivial, h.observed⟩
      · rename_i hAccepted
        cases hStep
        have hSame : seqOne = s.sequence := by
          by_contra hOther
          exact hAccepted (Or.inl hOther)
        have hFree : seqOne &&& busyBit = 0 := by
          by_contra hBusy
          exact hAccepted (Or.inr hBusy)
        rw [hSame] at hPlace hFree
        have hLoaded := h.pass_whole hPlace hNear hFree
        refine ⟨h.updater, trivial, ?_⟩
        intro values hValues
        rcases List.mem_append.mp hValues with hOld | hNew
        · exact h.observed values hOld
        · rw [List.mem_singleton.mp hNew, hLoaded]
          exact whole_current s
    · cases hStep
  · cases hStep

/- What is observed in a run are the values of one update. -/
theorem exec_seen (cells : ι → β) {as : List (Action ι β)}
    (hRun : Run.exec (Run.guarded (fun s _ => s.NotOvertaken) step) (init cells) as = some s) :
    ∀ values ∈ s.observed, s.Whole values := by
  have hInv : s.Inv := by
    refine Run.exec_invariant ?_ hRun (Inv.init cells)
    intro u a v h hStep
    rcases Run.guarded_eq_some.mp hStep with ⟨hNear, hOne⟩
    exact h.step hNear hOne
  exact hInv.observed

end SeqLock

end FrameworksAv
