import FrameworksAv.Base.Insertion
import FrameworksAv.Effects.Chain

/-
  Who has control of an effect: the handles of a module while clients come, are destroyed and are
  removed.

  Main declarations:
    * `Ownership`, `Ownership.step`
    * `HandsOver`
    * `Ownership.Inv`, `Ownership.Inv.step`
    * `Ownership.exec_control`
-/

--
-- System
--

namespace FrameworksAv

namespace Effects

/- A module and the number of handles constructed so far, the next one's address. -/
structure Ownership where
  module : EffectModule
  created : Nat

inductive HandleAction where
| addHandle (priority : Int)
| destroyHandle (handle : Nat)
| removeHandle (handle : Nat)
| enableHandle (handle : Nat) (enabled : Bool)

namespace Ownership

/- A module without handles. -/
def init (m : EffectModule) : Ownership where
  module := { m with mHandles := [] }
  created := 0

def handles (s : Ownership) : List EffectHandle :=
  s.module.mHandles

def step (s : Ownership) : HandleAction → Option Ownership
| .addHandle priority =>
  some
    { module := (s.module.addHandle (.create s.created priority)).2
      created := s.created + 1 }
| .destroyHandle handle => some { s with module := s.module.destroyHandle handle }
| .removeHandle handle => some { s with module := (s.module.removeHandle handle).2 }
| .enableHandle handle enabled => some { s with module := s.module.enableHandle handle enabled }

/- A handle that is removed from the first position has control, or no other handle is live. -/
def HandsOver (s : Ownership) : HandleAction → Prop
| .removeHandle handle =>
  ∀ h ∈ s.handles.head?, h.id = handle →
    h.mHasControl = true ∨ ∀ g ∈ s.handles.tail, g.mDestroyed = true
| _ => True

instance (s : Ownership) (a : HandleAction) : Decidable (s.HandsOver a) :=
  match a with
  | .addHandle _ => inferInstanceAs (Decidable True)
  | .destroyHandle _ => inferInstanceAs (Decidable True)
  | .removeHandle handle =>
    inferInstanceAs
      (Decidable
        (∀ h ∈ s.handles.head?, h.id = handle →
          h.mHasControl = true ∨ ∀ g ∈ s.handles.tail, g.mDestroyed = true))
  | .enableHandle _ _ => inferInstanceAs (Decidable True)

/- The enabled state of the handle in control. -/
def controlEnabled (hs : List EffectHandle) : Bool :=
  ((hs.find? (fun h => h.mHasControl)).map (fun h => h.mEnabled)).getD false

end Ownership

namespace HandleAction

/- Actions that may hand control over. -/
def Moves : HandleAction → Prop
| .addHandle _ => True
| .removeHandle _ => True
| _ => False

end HandleAction

--
-- Order And Control
--

open Insertion

/- Live handles: the one with the higher priority first, and the newer one first among equals. -/
def Precedes (a b : EffectHandle) : Prop :=
  a.mDestroyed = false → b.mDestroyed = false →
    b.mPriority < a.mPriority ∨ (a.mPriority = b.mPriority ∧ b.id < a.id)

/- Not both handles have control. -/
def Exclusive (a b : EffectHandle) : Prop :=
  ¬ (a.mHasControl = true ∧ b.mHasControl = true)

/- A live handle in the first position has control. -/
def FirstControls (hs : List EffectHandle) : Prop :=
  ∀ h ∈ hs.head?, h.mDestroyed = false → h.mHasControl = true

/- What holds of the handles of a module. -/
structure Ordered (created : Nat) (hs : List EffectHandle) : Prop where
  known : ∀ h ∈ hs, h.id < created
  order : hs.Pairwise Precedes
  control : hs.Pairwise Exclusive
  first : FirstControls hs

theorem Ordered.nil (created : Nat) : Ordered created [] where
  known := nofun
  order := List.Pairwise.nil
  control := List.Pairwise.nil
  first := nofun

/- The only handle in control is found. -/
theorem controlEnabled_eq {hs : List EffectHandle} (hControl : hs.Pairwise Exclusive)
    {h : EffectHandle} (hMem : h ∈ hs) (hHas : h.mHasControl = true) :
    Ownership.controlEnabled hs = h.mEnabled := by
  unfold Ownership.controlEnabled
  induction hs with
  | nil => cases hMem
  | cons g hs ih =>
    rcases List.pairwise_cons.mp hControl with ⟨hHead, hTail⟩
    rcases List.mem_cons.mp hMem with hEq | hRest
    · rw [← hEq, List.find?_cons_of_pos hHas]
      rfl
    · have hNot : ¬ g.mHasControl = true := fun hg => hHead h hRest ⟨hg, hHas⟩
      rw [List.find?_cons_of_neg hNot]
      exact ih hTail hRest

--
-- Adding
--

/- Where the loop of `addHandle` stops. -/
theorem scan_spec (priority : Int) (hs : List EffectHandle) (i : Nat) (controlHandle : Option Nat) :
    let r := EffectModule.scan priority hs i controlHandle
    ∃ n, r.1 = i + n ∧ n ≤ hs.length ∧
      (∀ h ∈ hs.take n, h.mDestroyed = false → priority < h.mPriority) ∧
      (∀ h ∈ (hs.drop n).head?, h.mDestroyed = false ∧ h.mPriority ≤ priority) := by
  induction hs generalizing i controlHandle with
  | nil => exact ⟨0, rfl, Nat.le_refl _, nofun, nofun⟩
  | cons h hs ih =>
    unfold EffectModule.scan
    by_cases hDestroyed : h.mDestroyed = true
    · rw [if_pos hDestroyed]
      rcases ih (i + 1) controlHandle with ⟨n, hStop, hLe, hBefore, hBehind⟩
      refine ⟨n + 1, by rw [hStop]; omega, Nat.succ_le_succ hLe, ?_, hBehind⟩
      intro g hg hLive
      rcases List.mem_cons.mp hg with hEq | hRest
      · rw [hEq, hDestroyed] at hLive
        cases hLive
      · exact hBefore g hRest hLive
    · rw [if_neg hDestroyed]
      have hLive : h.mDestroyed = false := Bool.eq_false_iff.mpr hDestroyed
      by_cases hLe : h.mPriority ≤ priority
      · simp only [if_pos hLe]
        refine ⟨0, rfl, Nat.zero_le _, nofun, ?_⟩
        intro g hg
        cases hg
        exact ⟨hLive, hLe⟩
      · simp only [if_neg hLe]
        rcases ih (i + 1) (controlHandle.or (some i)) with ⟨n, hStop, hLen, hBefore, hBehind⟩
        refine ⟨n + 1, by rw [hStop]; omega, Nat.succ_le_succ hLen, ?_, hBehind⟩
        intro g hg hLive'
        rcases List.mem_cons.mp hg with hEq | hRest
        · rw [hEq]
          omega
        · exact hBefore g hRest hLive'

/- In the first position, the previous owner is there. -/
theorem scan_first {priority : Int} {hs : List EffectHandle}
    (hStop : (EffectModule.scan priority hs 0 none).1 = 0) :
    (hs = [] ∧ (EffectModule.scan priority hs 0 none).2 = none) ∨
      ∃ h tail, hs = h :: tail ∧ h.mDestroyed = false ∧
        (EffectModule.scan priority hs 0 none).2 = some 0 := by
  cases hs with
  | nil => exact Or.inl ⟨rfl, rfl⟩
  | cons h tail =>
    right
    rcases scan_spec priority (h :: tail) 0 none with ⟨n, hEq, -, -, hBehind⟩
    rw [hStop, Nat.zero_add] at hEq
    rw [← hEq] at hBehind
    rcases hBehind h rfl with ⟨hLive, hLe⟩
    refine ⟨h, tail, rfl, hLive, ?_⟩
    unfold EffectModule.scan
    rw [if_neg (by rw [hLive]; exact Bool.false_ne_true)]
    simp only [if_pos hLe]
    rfl

/- The new handle stands between the live handles with more priority and the others. -/
theorem Ordered.precedes {created : Nat} {hs : List EffectHandle} (h : Ordered created hs)
    {priority : Int} (handle : EffectHandle) (hId : handle.id = created)
    (hPriority : handle.mPriority = priority) {n : Nat}
    (hBefore : ∀ g ∈ hs.take n, g.mDestroyed = false → priority < g.mPriority)
    (hBehind : ∀ g ∈ (hs.drop n).head?, g.mDestroyed = false ∧ g.mPriority ≤ priority) :
    (∀ g ∈ hs.take n, Precedes g handle) ∧ ∀ g ∈ hs.drop n, Precedes handle g := by
  constructor
  · intro g hg hLive _
    left
    rw [hPriority]
    exact hBefore g hg hLive
  · intro g hg _ hLive
    have hOld := h.known g (List.mem_of_mem_drop hg)
    have hSorted := h.order.sublist (List.drop_sublist n hs)
    -- the first handle behind the new one is live
    cases hDrop : hs.drop n with
    | nil =>
      rw [hDrop] at hg
      cases hg
    | cons f tail =>
      rw [hDrop] at hg hBehind hSorted
      rcases hBehind f rfl with ⟨hFirstLive, hFirst⟩
      have hLe : g.mPriority ≤ f.mPriority := by
        rcases List.mem_cons.mp hg with hEq | hRest
        · exact Int.le_of_eq (by rw [hEq])
        · rcases List.rel_of_pairwise_cons hSorted hRest hFirstLive hLive with hMore | ⟨hSame, -⟩
          · omega
          · omega
      rw [hPriority, hId]
      omega

/- A new handle without control, behind the first one. -/
theorem Ordered.insert_behind {created : Nat} {hs : List EffectHandle} (h : Ordered created hs)
    (priority : Int) {n : Nat} (hPos : 0 < n) (hLe : n ≤ hs.length)
    (hBefore : ∀ g ∈ hs.take n, g.mDestroyed = false → priority < g.mPriority)
    (hBehind : ∀ g ∈ (hs.drop n).head?, g.mDestroyed = false ∧ g.mPriority ≤ priority) :
    Ordered (created + 1) (hs.insertIdx n (.create created priority)) := by
  rcases h.precedes (.create created priority) rfl rfl hBefore hBehind with ⟨hFront, hBack⟩
  constructor
  · intro g hg
    rcases (List.mem_insertIdx hLe).mp hg with hEq | hOld
    · rw [hEq]
      exact Nat.lt_succ_self created
    · exact Nat.lt_succ_of_lt (h.known g hOld)
  · exact pairwise_insertIdx h.order hLe hFront hBack
  · apply pairwise_insertIdx h.control hLe
    · rintro g - ⟨-, hNew⟩
      cases hNew
    · rintro g - ⟨hNew, -⟩
      cases hNew
  · intro g hg
    have hFirst := h.first g
    rw [List.head?_eq_getElem?, List.getElem?_insertIdx_of_lt hPos] at hg
    rw [List.head?_eq_getElem?] at hFirst
    exact hFirst hg

/- A new handle takes over from the first one. -/
theorem Ordered.insert_first {created : Nat} {f : EffectHandle} {hs : List EffectHandle}
    (h : Ordered created (f :: hs)) {priority : Int} (hLive : f.mDestroyed = false)
    (hLe : f.mPriority ≤ priority) (enabled : Bool) :
    Ordered (created + 1)
      ((EffectHandle.create created priority).setControl true enabled ::
        f.setControl false enabled :: hs) := by
  have hHas := h.first f rfl hLive
  rcases List.pairwise_cons.mp h.control with ⟨hOnly, hControl⟩
  rcases List.pairwise_cons.mp h.order with ⟨hFirst, hOrder⟩
  rcases h.precedes ((EffectHandle.create created priority).setControl true enabled)
      rfl rfl (n := 0) nofun (fun g hg => by cases hg; exact ⟨hLive, hLe⟩) with
    ⟨-, hBehind⟩
  have hNone : ∀ g ∈ hs, ¬ g.mHasControl = true := fun g hg hBoth => hOnly g hg ⟨hHas, hBoth⟩
  constructor
  · intro g hg
    rcases List.mem_cons.mp hg with hEq | hOld
    · rw [hEq]
      exact Nat.lt_succ_self created
    · apply Nat.lt_succ_of_lt
      rcases List.mem_cons.mp hOld with hEq | hRest
      · rw [hEq]
        exact h.known f List.mem_cons_self
      · exact h.known g (List.mem_cons_of_mem _ hRest)
  · refine List.pairwise_cons.mpr ⟨?_, List.pairwise_cons.mpr ⟨hFirst, hOrder⟩⟩
    intro g hg
    rcases List.mem_cons.mp hg with hEq | hRest
    · rw [hEq]
      exact hBehind f List.mem_cons_self
    · exact hBehind g (List.mem_cons_of_mem _ hRest)
  · refine List.pairwise_cons.mpr ⟨?_, List.pairwise_cons.mpr ⟨?_, hControl⟩⟩
    · rintro g hg ⟨-, hBoth⟩
      rcases List.mem_cons.mp hg with hEq | hRest
      · rw [hEq] at hBoth
        cases hBoth
      · exact hNone g hRest hBoth
    · rintro g - ⟨hOld, -⟩
      cases hOld
  · intro g hg _
    cases hg
    rfl

/- What `addHandle` does: who has control, and its state. -/
theorem Ordered.addHandle {created : Nat} {m : EffectModule} (h : Ordered created m.mHandles)
    (priority : Int) :
    let m' := (m.addHandle (.create created priority)).2
    Ordered (created + 1) m'.mHandles ∧
      ∀ g ∈ m'.mHandles, g.mHasControl = true →
        g.mEnabled = Ownership.controlEnabled m.mHandles := by
  rcases scan_spec priority m.mHandles 0 none with ⟨n, hStop, hLen, hBefore, hBehind⟩
  rw [Nat.zero_add] at hStop
  unfold EffectModule.addHandle
  by_cases hFirst : (EffectModule.scan priority m.mHandles 0 none).1 = 0
  · rcases scan_first hFirst with ⟨hNil, hNone⟩ | ⟨f, hs, hCons, hLive, hSome⟩
    · simp only [EffectHandle.create, hFirst, hNone, if_true]
      rw [hNil]
      constructor
      · constructor
        · intro g hg
          rw [List.mem_singleton.mp hg]
          exact Nat.lt_succ_self created
        · exact List.pairwise_singleton _ _
        · exact List.pairwise_singleton _ _
        · intro g hg _
          cases hg
          rfl
      · intro g hg _
        rw [List.mem_singleton.mp hg]
        rfl
    · have hLe : f.mPriority ≤ priority := by
        rw [hFirst] at hStop
        rw [← hStop, hCons] at hBehind
        exact (hBehind f rfl).2
      simp only [EffectHandle.create, hFirst, hSome, if_true]
      rw [hCons] at h ⊢
      have hHas := h.first f rfl hLive
      have hNew := h.insert_first hLive hLe f.mEnabled
      refine ⟨hNew, ?_⟩
      intro g hg hControl
      rw [controlEnabled_eq h.control List.mem_cons_self hHas]
      rcases List.mem_cons.mp hg with hEq | hOld
      · rw [hEq]
        rfl
      · exact absurd ⟨rfl, hControl⟩ (List.rel_of_pairwise_cons hNew.control hOld)
  · simp only [EffectHandle.create, hFirst, if_false]
    rw [hStop] at hFirst ⊢
    have hNew := h.insert_behind priority (Nat.pos_of_ne_zero hFirst) hLen hBefore hBehind
    refine ⟨hNew, ?_⟩
    intro g hg hControl
    rcases (List.mem_insertIdx hLen).mp hg with hEq | hOld
    · rw [hEq] at hControl
      cases hControl
    · rw [controlEnabled_eq h.control hOld hControl]

--
-- Removing
--

/- Handles that keep their address, priority and control. -/
theorem Ordered.map {created : Nat} {hs : List EffectHandle} (h : Ordered created hs)
    (f : EffectHandle → EffectHandle) (hId : ∀ g, (f g).id = g.id)
    (hPriority : ∀ g, (f g).mPriority = g.mPriority)
    (hControl : ∀ g, (f g).mHasControl = g.mHasControl)
    (hLive : ∀ g, (f g).mDestroyed = false → g.mDestroyed = false) :
    Ordered created (hs.map f) := by
  constructor
  · intro g hg
    rcases List.mem_map.mp hg with ⟨g', hMem, rfl⟩
    rw [hId]
    exact h.known g' hMem
  · apply List.pairwise_map.mpr
    apply h.order.imp
    intro a b hBefore ha hb
    rw [hPriority, hPriority, hId, hId]
    exact hBefore (hLive a ha) (hLive b hb)
  · apply List.pairwise_map.mpr
    apply h.control.imp
    intro a b hNot
    unfold Exclusive
    rw [hControl, hControl]
    exact hNot
  · intro g hg hg'
    rw [List.head?_map] at hg
    rcases Option.map_eq_some_iff.mp hg with ⟨f', hHead, rfl⟩
    rw [hControl]
    exact h.first f' hHead (hLive f' hg')

/- Control goes to one of several handles without it. -/
theorem Ordered.give {created : Nat} {front back : List EffectHandle} {a : EffectHandle}
    (hKnown : ∀ g ∈ front ++ a :: back, g.id < created)
    (hOrder : (front ++ a :: back).Pairwise Precedes)
    (hNone : ∀ g ∈ front ++ a :: back, ¬ g.mHasControl = true)
    (hDead : ∀ g ∈ front, g.mDestroyed = true) (enabled : Bool) :
    Ordered created (front ++ a.setControl true enabled :: back) ∧
      ∀ g ∈ front ++ a.setControl true enabled :: back,
        g.mHasControl = true → g.mEnabled = enabled := by
  have hFront : ∀ g ∈ front, ¬ g.mHasControl = true :=
    fun g hg => hNone g (List.mem_append_left _ hg)
  have hBack : ∀ g ∈ back, ¬ g.mHasControl = true := fun g hg =>
      hNone g (List.mem_append_right _ (List.mem_cons_of_mem _ hg))
  have hOthers :
      ∀ l : List EffectHandle, (∀ g ∈ l, ¬ g.mHasControl = true) → l.Pairwise Exclusive := by
    intro l hl
    apply List.pairwise_of_forall_mem_list
    rintro g hg g' - ⟨hHas, -⟩
    exact hl g hg hHas
  rw [List.pairwise_append, List.pairwise_cons] at hOrder
  rcases hOrder with ⟨hOne, ⟨hTwo, hThree⟩, hAcross⟩
  constructor
  · constructor
    · intro g hg
      rcases List.mem_append.mp hg with hIn | hIn
      · exact hKnown g (List.mem_append_left _ hIn)
      · rcases List.mem_cons.mp hIn with hEq | hRest
        · rw [hEq]
          exact hKnown a (List.mem_append_right _ List.mem_cons_self)
        · exact hKnown g (List.mem_append_right _ (List.mem_cons_of_mem _ hRest))
    · apply List.pairwise_append.mpr
      refine ⟨hOne, List.pairwise_cons.mpr ⟨hTwo, hThree⟩, ?_⟩
      intro g hg g' hg'
      rcases List.mem_cons.mp hg' with hEq | hRest
      · rw [hEq]
        exact hAcross g hg a List.mem_cons_self
      · exact hAcross g hg g' (List.mem_cons_of_mem _ hRest)
    · apply List.pairwise_append.mpr
      refine ⟨hOthers front hFront, List.pairwise_cons.mpr ⟨?_, hOthers back hBack⟩, ?_⟩
      · rintro g hg ⟨-, hHas⟩
        exact hBack g hg hHas
      · rintro g hg g' - ⟨hHas, -⟩
        exact hFront g hg hHas
    · intro g hg hLive
      cases front with
      | nil =>
        cases hg
        rfl
      | cons g' front =>
        cases hg
        rw [hDead g List.mem_cons_self] at hLive
        cases hLive
  · intro g hg hHas
    rcases List.mem_append.mp hg with hIn | hIn
    · exact absurd hHas (hFront g hIn)
    · rcases List.mem_cons.mp hIn with hEq | hRest
      · rw [hEq]
        rfl
      · exact absurd hHas (hBack g hRest)

/- Behind the first handle, whose control has moved on to the first live one. -/
theorem Ordered.handOver {created : Nat} {f : EffectHandle} {hs : List EffectHandle}
    (h : Ordered created (f :: hs))
    (hGuard : f.mHasControl = true ∨ ∀ g ∈ hs, g.mDestroyed = true) :
    let hs' :=
      match EffectModule.controlHandle_l hs with
      | some k => hs.modify k (fun g => g.setControl true f.mEnabled)
      | none => hs
    Ordered created hs' ∧
      ∀ g ∈ hs', g.mHasControl = true → g.mEnabled = Ownership.controlEnabled (f :: hs) := by
  rcases List.pairwise_cons.mp h.control with ⟨hOnly, hControl⟩
  rcases List.pairwise_cons.mp h.order with ⟨-, hOrder⟩
  have hKnown : ∀ g ∈ hs, g.id < created := fun g hg => h.known g (List.mem_cons_of_mem _ hg)
  cases hFind : EffectModule.controlHandle_l hs with
  | none =>
    simp only
    have hDead : ∀ g ∈ hs, g.mDestroyed = true := by
      intro g hg
      have hNot := List.findIdx?_eq_none_iff.mp hFind g hg
      rw [Bool.not_eq_false'] at hNot
      exact hNot
    refine ⟨⟨hKnown, hOrder, hControl, ?_⟩, ?_⟩
    · intro g hg hLive
      rw [hDead g (List.mem_of_mem_head? hg)] at hLive
      cases hLive
    · intro g hg hHas
      rw [controlEnabled_eq h.control (List.mem_cons_of_mem _ hg) hHas]
  | some k =>
    simp only
    rcases List.findIdx?_eq_some_iff_getElem.mp hFind with ⟨hk, hLive, hBefore⟩
    rw [Bool.not_eq_true'] at hLive
    -- a live handle is behind, so the first one had control
    have hHas : f.mHasControl = true := by
      rcases hGuard with hHas | hDead
      · exact hHas
      · rw [hDead _ (List.getElem_mem hk)] at hLive
        cases hLive
    have hNone : ∀ g ∈ hs, ¬ g.mHasControl = true := fun g hg hBoth => hOnly g hg ⟨hHas, hBoth⟩
    rcases List.exists_of_modify (fun g => g.setControl true f.mEnabled) hk with
      ⟨front, a, back, hSplit, hLength, hModify⟩
    rw [hModify, controlEnabled_eq h.control List.mem_cons_self hHas]
    rw [hSplit] at hKnown hOrder hNone
    apply Ordered.give hKnown hOrder hNone
    intro g hg
    rcases List.mem_iff_getElem.mp hg with ⟨j, hj, hEq⟩
    have hDead := hBefore j (by omega)
    simp only [hSplit, List.getElem_append_left hj, hEq,
      Bool.not_eq_true, Bool.not_eq_false'] at hDead
    exact hDead

/- What `removeHandle` does: who has control, and its state. -/
theorem Ordered.removeHandle {created : Nat} {m : EffectModule} (h : Ordered created m.mHandles)
    {handle : Nat}
    (hGuard :
      ∀ f ∈ m.mHandles.head?, f.id = handle →
        f.mHasControl = true ∨ ∀ g ∈ m.mHandles.tail, g.mDestroyed = true) :
    let m' := (m.removeHandle handle).2
    Ordered created m'.mHandles ∧
      ∀ g ∈ m'.mHandles, g.mHasControl = true →
        g.mEnabled = Ownership.controlEnabled m.mHandles := by
  unfold EffectModule.removeHandle
  cases hFind : m.mHandles.findIdx? (fun h => h.id = handle) with
  | none =>
    refine ⟨h, ?_⟩
    intro g hg hHas
    rw [controlEnabled_eq h.control hg hHas]
  | some i =>
    rcases List.findIdx?_eq_some_iff_getElem.mp hFind with ⟨hi, hId, -⟩
    cases hCons : m.mHandles with
    | nil =>
      rw [hCons] at hi
      cases hi
    | cons f hs =>
      simp only [hCons] at hId hGuard
      rw [hCons] at h
      cases i with
      | zero =>
        simp only [if_true, List.eraseIdx_cons_zero, List.getElem?_cons_zero, Option.map_some,
          Option.getD_some]
        exact h.handOver (hGuard f rfl (of_decide_eq_true hId))
      | succ i =>
        simp only [Nat.succ_ne_zero, if_false, List.eraseIdx_cons_succ]
        -- the first handle stays where it is
        have hSub : (f :: hs.eraseIdx i).Sublist (f :: hs) :=
          (List.eraseIdx_sublist hs i).cons_cons f
        refine ⟨⟨?_, h.order.sublist hSub, h.control.sublist hSub, h.first⟩, ?_⟩
        · intro g hg
          exact h.known g (hSub.subset hg)
        · intro g hg hHas
          rw [controlEnabled_eq h.control (hSub.subset hg) hHas]

end Effects

--
-- Runs
--

namespace Effects

namespace Ownership

/- What holds in every reachable state. -/
def Inv (s : Ownership) : Prop := Ordered s.created s.handles

theorem Inv.step {s t : Ownership} (h : s.Inv) {a : HandleAction}
    (hStep : Run.guarded HandsOver Ownership.step s a = some t) :
    t.Inv ∧
      (a.Moves →
        ∀ g ∈ t.handles, g.mHasControl = true → g.mEnabled = controlEnabled s.handles) := by
  rcases Run.guarded_eq_some.mp hStep with ⟨hGuard, hNext⟩
  cases a with
  | addHandle priority =>
    cases hNext
    rcases Ordered.addHandle h priority with ⟨hInv, hMoved⟩
    exact ⟨hInv, fun _ => hMoved⟩
  | destroyHandle handle =>
    cases hNext
    refine ⟨?_, False.elim⟩
    apply Ordered.map h
    · intro g
      split <;> rfl
    · intro g
      split <;> rfl
    · intro g
      split <;> rfl
    · intro g hLive
      split at hLive
      · cases hLive
      · exact hLive
  | removeHandle handle =>
    cases hNext
    rcases Ordered.removeHandle h hGuard with ⟨hInv, hMoved⟩
    exact ⟨hInv, fun _ => hMoved⟩
  | enableHandle handle enabled =>
    cases hNext
    refine ⟨?_, False.elim⟩
    apply Ordered.map h
    · intro g
      split <;> rfl
    · intro g
      split <;> rfl
    · intro g
      split <;> rfl
    · intro g hLive
      split at hLive
      · exact hLive
      · exact hLive

/-
  In every run in which only the handle in control is removed from the first position while others
  are live: the live handles are ordered, at most one handle has control, a live handle in the first
  position has it, and what an addition or a removal leaves in control has the enabled state of the
  handle in control before.
-/
theorem exec_control {m : EffectModule} {as : List HandleAction} {s : Ownership}
    (hRun : Run.exec (Run.guarded HandsOver step) (init m) as = some s) :
    s.handles.Pairwise Precedes ∧ s.handles.Pairwise Exclusive ∧ FirstControls s.handles ∧
      ∀ a t,
        Run.guarded HandsOver step s a = some t → a.Moves →
          ∀ g ∈ t.handles, g.mHasControl = true → g.mEnabled = controlEnabled s.handles := by
  have hInv : s.Inv :=
    Run.exec_invariant (fun _ _ _ h hStep => (h.step hStep).1) hRun (Ordered.nil 0)
  exact ⟨hInv.order, hInv.control, hInv.first, fun _ _ hStep => (hInv.step hStep).2⟩

/- An insert effect without clients. -/
def idle : EffectModule where
  id := 1
  mDescriptor := ⟨⟨7, 0⟩, .insert, .any⟩
  mPinned := false
  mState := .IDLE
  mSuspended := false
  mHandles := []
  inBuffer := 0
  outBuffer := 0
  accessMode := .write

/- An enabled client is destroyed and the next one takes over. -/
def successors : List HandleAction :=
  [.addHandle 10, .addHandle 5, .enableHandle 0 true,
    .addHandle 5, .destroyHandle 0, .removeHandle 0]

theorem exec_control_successors :
    ∃ s,
      Run.exec (Run.guarded HandsOver step) (init idle) successors = some s ∧
        s.handles.Pairwise Precedes ∧ s.handles.Pairwise Exclusive ∧ FirstControls s.handles := by
  have hSome : (Run.exec (Run.guarded HandsOver step) (init idle) successors).isSome = true := by
    decide
  rcases Option.isSome_iff_exists.mp hSome with ⟨s, hRun⟩
  rcases exec_control hRun with ⟨hOrder, hControl, hFirst, -⟩
  exact ⟨s, hRun, hOrder, hControl, hFirst⟩

/-
  Two handles are destroyed before either is removed. The removal of the first gives control to the
  third, a new one is added in front of it, and the removal of the second gives control to the new
  one as well.
-/
def dying : List HandleAction :=
  [.addHandle 10, .addHandle 5, .addHandle 1, .destroyHandle 0, .destroyHandle 1, .removeHandle 0,
    .addHandle 7, .removeHandle 1]

theorem exec_control_dying :
    ∃ s, Run.exec step (init idle) dying = some s ∧ ¬ s.handles.Pairwise Exclusive := by
  have hSome :
      (Run.exec step (init idle) dying).map (fun s => s.handles.map (fun h => h.mHasControl)) =
        some [true, true] := by
    decide
  rcases Option.map_eq_some_iff.mp hSome with ⟨s, hRun, hBoth⟩
  refine ⟨s, hRun, ?_⟩
  intro hControl
  rcases List.map_eq_cons_iff.mp hBoth with ⟨a, tail, hCons, ha, hTail⟩
  rcases List.map_eq_cons_iff.mp hTail with ⟨b, rest, hCons', hb, -⟩
  rw [hCons, hCons', List.pairwise_cons] at hControl
  exact hControl.1 b List.mem_cons_self ⟨ha, hb⟩

end Ownership

end Effects

end FrameworksAv
