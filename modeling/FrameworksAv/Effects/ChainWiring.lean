import FrameworksAv.Effects.ChainOrder

/-
  The buffers that the effects of a chain read and write.

  Main declarations:
    * `Wired`, `EffectChain.KeepsAuxiliary`
    * `Wired.addEffect_l`
    * `ChainRun.exec_wiring`
-/

--
-- Wiring
--

namespace FrameworksAv

namespace Effects

/-
  Auxiliary effects write to the input buffer of the chain; all others read it, and write it as well
  but for the last effect, which writes to the output buffer.
-/
structure Wired (mInBuffer mOutBuffer : Nat) (es : List EffectModule) : Prop where
  auxiliary : ∀ e ∈ es, e.mDescriptor.mode = .auxiliary → e.outBuffer = mInBuffer
  reads : ∀ e ∈ es, e.mDescriptor.mode ≠ .auxiliary → e.inBuffer = mInBuffer
  inner : ∀ e ∈ es.dropLast, e.mDescriptor.mode ≠ .auxiliary → e.outBuffer = mInBuffer
  last : ∀ e ∈ es.getLast?, e.mDescriptor.mode ≠ .auxiliary → e.outBuffer = mOutBuffer

/- An effect that is not the last one. -/
def Inner (mInBuffer : Nat) (e : EffectModule) : Prop :=
  e.outBuffer = mInBuffer ∧ (e.mDescriptor.mode ≠ .auxiliary → e.inBuffer = mInBuffer)

/- The last effect. -/
def Final (mInBuffer mOutBuffer : Nat) (e : EffectModule) : Prop :=
  (e.mDescriptor.mode = .auxiliary → e.outBuffer = mInBuffer) ∧
    (e.mDescriptor.mode ≠ .auxiliary → e.inBuffer = mInBuffer ∧ e.outBuffer = mOutBuffer)

variable {mInBuffer mOutBuffer : Nat}

theorem Wired.nil : Wired mInBuffer mOutBuffer [] where
  auxiliary := List.forall_mem_nil _
  reads := List.forall_mem_nil _
  inner := List.forall_mem_nil _
  last := fun _ h => absurd h (Option.not_mem_none _)

/- A chain ends with its last effect. -/
theorem wired_concat (front : List EffectModule) {e : EffectModule} :
    Wired mInBuffer mOutBuffer (front ++ [e]) ↔
      (∀ f ∈ front, Inner mInBuffer f) ∧ Final mInBuffer mOutBuffer e := by
  have hEnd : e ∈ front ++ [e] := List.mem_append_right _ (List.mem_singleton.mpr rfl)
  constructor
  · intro h
    constructor
    · intro f hf
      have hMem : f ∈ front ++ [e] := List.mem_append_left _ hf
      have hInner : f ∈ (front ++ [e]).dropLast := by
        rw [List.dropLast_concat]
        exact hf
      refine ⟨?_, h.reads f hMem⟩
      by_cases hAux : f.mDescriptor.mode = .auxiliary
      · exact h.auxiliary f hMem hAux
      · exact h.inner f hInner hAux
    · refine ⟨h.auxiliary e hEnd, ?_⟩
      intro hNot
      have hLast : e ∈ (front ++ [e]).getLast? := by
        rw [List.getLast?_concat]
        rfl
      exact ⟨h.reads e hEnd hNot, h.last e hLast hNot⟩
  · rintro ⟨hFront, hFinal⟩
    constructor
    · intro f hf hAux
      rcases List.mem_append.mp hf with hIn | hIn
      · exact (hFront f hIn).1
      · rw [List.mem_singleton.mp hIn] at hAux ⊢
        exact hFinal.1 hAux
    · intro f hf hNot
      rcases List.mem_append.mp hf with hIn | hIn
      · exact (hFront f hIn).2 hNot
      · rw [List.mem_singleton.mp hIn] at hNot ⊢
        exact (hFinal.2 hNot).1
    · intro f hf _
      rw [List.dropLast_concat] at hf
      exact (hFront f hf).1
    · intro f hf hNot
      rw [List.getLast?_concat] at hf
      cases hf
      exact (hFinal.2 hNot).2

end Effects

--
-- Adding
--

namespace Effects

open Insertion

variable {mInBuffer mOutBuffer : Nat}

/- A new effect in front of the last one. -/
theorem Wired.insertIdx {es : List EffectModule} (h : Wired mInBuffer mOutBuffer es) {i : Nat}
    (hLess : i < es.length) {x : EffectModule} (hInner : Inner mInBuffer x) :
    Wired mInBuffer mOutBuffer (es.insertIdx i x) := by
  rcases List.eq_nil_or_concat' es with rfl | ⟨front, e, rfl⟩
  · cases hLess
  · rw [List.length_append, List.length_singleton] at hLess
    have hLe : i ≤ front.length := by omega
    have hSplit : (front ++ [e]).insertIdx i x = front.insertIdx i x ++ [e] := by
      rw [insertIdx_eq (by rw [List.length_append]; omega),
        insertIdx_eq hLe, List.take_append_of_le_length hLe, List.drop_append_of_le_length hLe]
      simp
    rw [hSplit]
    rw [wired_concat] at h ⊢
    refine ⟨?_, h.2⟩
    intro f hf
    rcases (List.mem_insertIdx hLe).mp hf with rfl | hOld
    · exact hInner
    · exact h.1 f hOld

/- A new last effect; the one before it writes the input. -/
theorem Wired.concat {es : List EffectModule} (h : Wired mInBuffer mOutBuffer es) {x : EffectModule}
    (hFinal : Final mInBuffer mOutBuffer x) :
    Wired mInBuffer mOutBuffer
      (es.modify (es.length - 1) (fun e => (e.setOutBuffer mInBuffer).configure) ++ [x]) := by
  apply (wired_concat _).mpr
  refine ⟨?_, hFinal⟩
  rcases List.eq_nil_or_concat' es with rfl | ⟨front, e, rfl⟩
  · intro f hf
    simp at hf
  · rw [wired_concat] at h
    have hModify :
        (front ++ [e]).modify ((front ++ [e]).length - 1)
            (fun e => (e.setOutBuffer mInBuffer).configure) =
          front ++ [(e.setOutBuffer mInBuffer).configure] := by
      rw [List.modify_eq_take_cons_drop (by simp)]
      simp
    rw [hModify]
    intro f hf
    rcases List.mem_append.mp hf with hIn | hIn
    · exact h.1 f hIn
    · rw [List.mem_singleton.mp hIn]
      refine ⟨rfl, ?_⟩
      intro hNot
      exact (h.2.2 hNot).1

namespace EffectChain

/- The position of a new effect is inside the chain. -/
theorem insertIndex_le {es : List EffectModule} {q : Positions} (h : Scanned es.length es q)
    (insertPref : InsertPref) : insertIndex insertPref es.length q ≤ es.length := by
  unfold insertIndex
  split
  · split
    · rename_i k hIndex
      have hLast := h.last
      rw [hIndex] at hLast
      rcases hLast with ⟨front, e, back, rfl, rfl, -⟩
      simp
    · exact Nat.le_refl _
  · split
    · rename_i k hIndex
      have hFirst := h.first
      rw [hIndex] at hFirst
      rcases hFirst with ⟨front, e, back, rfl, rfl, -⟩
      simp
    · rcases h.insert with ⟨hSize, -⟩ | ⟨front, e, back, rfl, hk, -⟩
      · exact Nat.le_of_eq hSize
      · rw [hk]
        simp

theorem addEffect_l_buffers (thread : Bool) (buffer : Nat) (c : EffectChain)
    (effect : EffectModule) :
    let r := c.addEffect_l thread buffer effect
    r.2.mInBuffer = c.mInBuffer ∧ r.2.mOutBuffer = c.mOutBuffer := by
  unfold addEffect_l
  simp only
  split
  · exact ⟨rfl, rfl⟩
  · split
    · exact ⟨rfl, rfl⟩
    · split
      · exact ⟨rfl, rfl⟩
      · split
        · exact ⟨rfl, rfl⟩
        · exact ⟨rfl, rfl⟩

theorem removeEffect_l_buffers (c : EffectChain) (effect : Nat) :
    (c.removeEffect_l effect).2.mInBuffer = c.mInBuffer ∧
      (c.removeEffect_l effect).2.mOutBuffer = c.mOutBuffer := by
  unfold removeEffect_l
  split
  · exact ⟨rfl, rfl⟩
  · exact ⟨rfl, rfl⟩

/- A new effect is wired, and the others stay so. -/
theorem addEffect_l_wired {c : EffectChain} (h : Wired c.mInBuffer c.mOutBuffer c.mEffects)
    (thread : Bool) (buffer : Nat) (effect : EffectModule) :
    Wired c.mInBuffer c.mOutBuffer (c.addEffect_l thread buffer effect).2.mEffects := by
  unfold addEffect_l
  by_cases hThread : thread = false
  · rw [if_pos hThread]
    exact h
  rw [if_neg hThread]
  by_cases hAux : effect.mDescriptor.mode = .auxiliary
  · rw [if_pos hAux]
    simp only
    have hInner :
        Inner c.mInBuffer ((effect.setInBuffer buffer).setOutBuffer c.mInBuffer).configure :=
      ⟨rfl, fun hNot => absurd hAux hNot⟩
    cases hNil : c.mEffects with
    | nil =>
      apply (wired_concat []).mpr
      exact ⟨List.forall_mem_nil _, fun _ => rfl, fun hNot => absurd hAux hNot⟩
    | cons e es =>
      rw [hNil] at h
      exact h.insertIdx (Nat.succ_pos _) hInner
  rw [if_neg hAux]
  cases hScan :
      scan effect.mDescriptor.pref c.mEffects.length c.mEffects 0
        ⟨c.mEffects.length, none, none⟩ with
  | none =>
    simp only [hScan]
    exact h
  | some q =>
    have hScanned := (scan_spec (Scanned.nil _) (Nat.zero_add _) hScan).1
    have hLe := insertIndex_le hScanned effect.mDescriptor.pref
    simp only [hScan]
    generalize insertIndex effect.mDescriptor.pref c.mEffects.length q = i at *
    by_cases hEnd : i = c.mEffects.length
    · rw [if_pos hEnd]
      simp only
      have hFinal :
          Final c.mInBuffer c.mOutBuffer
            ((effect.setInBuffer c.mInBuffer).setOutBuffer c.mOutBuffer).configure :=
        ⟨fun hMode => absurd hMode hAux, fun _ => ⟨rfl, rfl⟩⟩
      have hLast := h.concat hFinal
      rw [← List.insertIdx_length_self, List.length_modify, ← hEnd] at hLast
      by_cases hZero : i = 0
      · rw [if_neg (by simp [hZero])]
        have hNil : c.mEffects = [] := List.length_eq_zero_iff.mp (hEnd ▸ hZero)
        rw [hNil, List.modify_nil] at hLast
        rw [hNil]
        exact hLast
      · rw [if_pos hZero]
        exact hLast
    · rw [if_neg hEnd]
      exact h.insertIdx (by omega) ⟨rfl, fun _ => rfl⟩

--
-- Removing
--

/-
  The removal does not leave an auxiliary effect at the end behind an effect that was not one; the
  last effect is first.
-/
def KeepsAuxiliaryAt (effect : Nat) : List EffectModule → Prop
| e :: f :: _ => e.id = effect → e.mDescriptor.mode ≠ .auxiliary → f.mDescriptor.mode ≠ .auxiliary
| _ => True

instance (effect : Nat) (es : List EffectModule) : Decidable (KeepsAuxiliaryAt effect es) :=
  match es with
  | [] => inferInstanceAs (Decidable True)
  | [_] => inferInstanceAs (Decidable True)
  | e :: f :: _ =>
    inferInstanceAs
      (Decidable
        (e.id = effect → e.mDescriptor.mode ≠ .auxiliary → f.mDescriptor.mode ≠ .auxiliary))

def KeepsAuxiliary (c : EffectChain) (effect : Nat) : Prop :=
  KeepsAuxiliaryAt effect c.mEffects.reverse

instance (c : EffectChain) (effect : Nat) : Decidable (c.KeepsAuxiliary effect) :=
  inferInstanceAs (Decidable (KeepsAuxiliaryAt effect _))

end EffectChain

/- An effect in front of the last one is taken out. -/
theorem Wired.eraseIdx {front : List EffectModule} {e : EffectModule}
    (h : Wired mInBuffer mOutBuffer (front ++ [e])) {i : Nat} (hLess : i < front.length) :
    Wired mInBuffer mOutBuffer ((front ++ [e]).eraseIdx i) := by
  rw [List.eraseIdx_append_of_lt_length hLess]
  rw [wired_concat] at h ⊢
  exact ⟨fun f hf => h.1 f (List.mem_of_mem_eraseIdx hf), h.2⟩

/- The effect in front of a removed last one. -/
theorem wired_rewired_iff (hDiffer : mInBuffer ≠ mOutBuffer) {front : List EffectModule}
    {f e : EffectModule} (h : Wired mInBuffer mOutBuffer (front ++ [f] ++ [e])) :
    Wired mInBuffer mOutBuffer (front ++ [(f.setOutBuffer mOutBuffer).configure]) ↔
      f.mDescriptor.mode ≠ .auxiliary := by
  rw [wired_concat] at h ⊢
  have hInner := h.1 f (List.mem_append_right _ (List.mem_singleton.mpr rfl))
  constructor
  · rintro ⟨-, hFinal⟩ hAux
    exact hDiffer (hFinal.1 hAux).symm
  · intro hNot
    refine ⟨fun g hg => h.1 g (List.mem_append_left _ hg), ?_⟩
    exact ⟨fun hAux => absurd hAux hNot, fun _ => ⟨hInner.2 hNot, rfl⟩⟩

namespace EffectChain

/- The removal of an effect in front of the last one. -/
theorem removeEffect_l_front {c : EffectChain} {front : List EffectModule} {e : EffectModule}
    (hConcat : c.mEffects = front ++ [e]) {effect i : Nat}
    (hFind : c.mEffects.findIdx? (fun e => e.id = effect) = some i) (hLess : i < front.length) :
    (c.removeEffect_l effect).2.mEffects = (front ++ [e]).eraseIdx i := by
  have hNot : ¬ (i = c.mEffects.length - 1 ∧ i ≠ 0) := by
    rw [hConcat, List.length_append, List.length_singleton]
    omega
  unfold removeEffect_l
  simp only [hFind, if_neg hNot, ite_self]
  rw [hConcat]

/- The removal of the last effect. -/
theorem removeEffect_l_last {c : EffectChain} {front : List EffectModule} {e : EffectModule}
    (hConcat : c.mEffects = front ++ [e]) {effect : Nat}
    (hFind : c.mEffects.findIdx? (fun e => e.id = effect) = some front.length) :
    (c.removeEffect_l effect).2.mEffects = if e.mDescriptor.mode = .auxiliary then front
      else front.modify (front.length - 1) (fun f => (f.setOutBuffer c.mOutBuffer).configure) := by
  have hLast : c.mEffects[front.length]? = some e := by
    rw [hConcat]
    simp
  have hEnd : front.length = c.mEffects.length - 1 := by
    rw [hConcat, List.length_append, List.length_singleton]
    omega
  have hErase :
      ∀ g : List EffectModule, g.length = front.length → (g ++ [e]).eraseIdx front.length = g := by
    intro g hg
    rw [← hg, List.eraseIdx_append_of_length_le (Nat.le_refl _)]
    simp
  unfold removeEffect_l
  simp only [hFind, hLast, Option.map_some, Option.some.injEq]
  by_cases hAux : e.mDescriptor.mode = .auxiliary
  · rw [if_pos hAux, if_pos hAux, hConcat, hErase front rfl]
  · rw [if_neg hAux, if_neg hAux]
    by_cases hZero : front.length = 0
    · rw [if_neg (fun hBoth => hBoth.2 hZero), hConcat,
        hErase front rfl, List.length_eq_zero_iff.mp hZero, List.modify_nil]
    · rw [if_pos ⟨hEnd, hZero⟩, hConcat, modify_append _ (by omega)]
      exact hErase _ (List.length_modify _ _ _)

/- Exactly these removals leave the others wired. -/
theorem removeEffect_l_wired_iff {c : EffectChain} (hDiffer : c.mInBuffer ≠ c.mOutBuffer)
    (h : Wired c.mInBuffer c.mOutBuffer c.mEffects)
    (hPairs : c.keys.Pairwise (fun a b => Ranked a.2 b.2))
    (hNodup : (c.mEffects.map (fun e => e.id)).Nodup) (effect : Nat) :
    Wired c.mInBuffer c.mOutBuffer (c.removeEffect_l effect).2.mEffects ↔
      c.KeepsAuxiliary effect := by
  have hSorted : c.mEffects.Pairwise (fun a b => Ranked a.mDescriptor b.mDescriptor) := by
    have hMap := List.pairwise_map.mp hPairs
    exact hMap
  rcases List.eq_nil_or_concat' c.mEffects with
    hNil | ⟨front, e, hConcat⟩
  · unfold removeEffect_l KeepsAuxiliary KeepsAuxiliaryAt
    simp only [hNil, List.findIdx?_nil, List.reverse_nil]
    exact ⟨fun _ => trivial, fun _ => Wired.nil⟩
  have hReverse : c.mEffects.reverse = e :: front.reverse := by
    rw [hConcat, List.reverse_concat]
  unfold KeepsAuxiliary KeepsAuxiliaryAt
  rw [hReverse]
  cases hFind : c.mEffects.findIdx? (fun e => e.id = effect) with
  | none =>
    have hOther : e.id ≠ effect := by
      have hNot := List.findIdx?_eq_none_iff.mp hFind e (by rw [hConcat]; simp)
      exact of_decide_eq_false hNot
    have hSame : (c.removeEffect_l effect).2 = c := by
      unfold removeEffect_l
      rw [hFind]
    rw [hSame]
    refine ⟨fun _ => ?_, fun _ => h⟩
    split
    · rename_i hCons
      rw [← (List.cons.inj hCons).1]
      exact fun hEq => absurd hEq hOther
    · trivial
  | some i =>
    rcases List.findIdx?_eq_some_iff_getElem.mp hFind with ⟨hi, hId, hBefore⟩
    have hIs := of_decide_eq_true hId
    rw [hConcat] at h hSorted hNodup
    have hLength : i ≤ front.length := by
      rw [hConcat, List.length_append, List.length_singleton] at hi
      omega
    rcases Nat.lt_or_eq_of_le hLength with hLess | hLast
    · -- the last effect is another one
      have hOther : e.id ≠ effect := by
        intro hEq
        have hGet : c.mEffects[i] = front[i] := by
          simp only [hConcat, List.getElem_append_left hLess]
        rw [hGet] at hIs
        rw [List.map_append, List.nodup_append] at hNodup
        exact hNodup.2.2 _ (List.mem_map_of_mem (List.getElem_mem hLess)) _
          (List.mem_singleton.mpr rfl) (hIs.trans hEq.symm)
      rw [removeEffect_l_front hConcat hFind hLess]
      refine ⟨fun _ => ?_, fun _ => h.eraseIdx hLess⟩
      split
      · rename_i hCons
        rw [← (List.cons.inj hCons).1]
        exact fun hEq => absurd hEq hOther
      · trivial
    · rw [hLast] at hFind
      have hEq : e.id = effect := by
        have hGet : c.mEffects[i] = e := by
          simp [hConcat, hLast]
        rw [← hGet]
        exact hIs
      rw [removeEffect_l_last hConcat hFind]
      rcases List.eq_nil_or_concat' front with
        rfl | ⟨rest, f, rfl⟩
      · simp only [List.modify_nil, ite_self, List.reverse_nil]
        exact ⟨fun _ => trivial, fun _ => Wired.nil⟩
      rw [List.reverse_concat]
      simp only
      by_cases hAux : e.mDescriptor.mode = .auxiliary
      · rw [if_pos hAux]
        refine ⟨fun _ _ hNot => absurd hAux hNot, fun _ => ?_⟩
        have hBoth := ((wired_concat _).mp h).1
        have hInner := hBoth f (by simp)
        have hFirst : f.mDescriptor.mode = .auxiliary :=
          ((List.pairwise_append.mp hSorted).2.2 f (by simp) e (List.mem_singleton.mpr rfl)).1 hAux
        apply (wired_concat _).mpr
        refine ⟨fun g hg => hBoth g (by simp [hg]), ?_⟩
        exact ⟨fun _ => hInner.1, fun hNot => absurd hFirst hNot⟩
      · rw [if_neg hAux]
        have hModify :
            (rest ++ [f]).modify ((rest ++ [f]).length - 1)
                (fun f =>
                  (f.setOutBuffer c.mOutBuffer).configure) =
              rest ++ [(f.setOutBuffer c.mOutBuffer).configure] := by
          rw [List.modify_eq_take_cons_drop (by simp)]
          simp
        rw [hModify, wired_rewired_iff hDiffer h]
        exact ⟨fun hNot _ _ => hNot, fun hAll => hAll hEq hAux⟩

end EffectChain

end Effects

--
-- Runs
--

namespace Effects

namespace ChainRun

/- Removals keep auxiliary effects away from the end. -/
def KeepsAuxiliary (s : ChainRun) : ChainAction → Prop
| .addEffect_l _ _ _ => True
| .removeEffect_l effect => s.chain.KeepsAuxiliary effect

instance (s : ChainRun) (a : ChainAction) : Decidable (s.KeepsAuxiliary a) :=
  match a with
  | .addEffect_l _ _ _ => inferInstanceAs (Decidable True)
  | .removeEffect_l effect => inferInstanceAs (Decidable (s.chain.KeepsAuxiliary effect))

/- A chain with the buffers of another one is wired. -/
structure WiredInv (c : EffectChain) (s : ChainRun) : Prop where
  inv : s.Inv
  inBuffer : s.chain.mInBuffer = c.mInBuffer
  outBuffer : s.chain.mOutBuffer = c.mOutBuffer
  wired : Wired c.mInBuffer c.mOutBuffer s.chain.mEffects

theorem WiredInv.step {c : EffectChain} (hDiffer : c.mInBuffer ≠ c.mOutBuffer) {s t : ChainRun}
    (h : s.WiredInv c) {a : ChainAction}
    (hStep : Run.guarded KeepsAuxiliary ChainRun.step s a = some t) : t.WiredInv c := by
  rcases Run.guarded_eq_some.mp hStep with ⟨hGuard, hNext⟩
  have hInv := h.inv.step hNext
  have hWired := h.wired
  rw [← h.inBuffer, ← h.outBuffer] at hDiffer hWired
  cases a with
  | addEffect_l thread buffer effect =>
    simp only [ChainRun.step] at hNext
    split at hNext
    · cases hNext
    · have hBuffers := s.chain.addEffect_l_buffers thread buffer effect
      have hAdded := EffectChain.addEffect_l_wired hWired thread buffer effect
      rw [h.inBuffer, h.outBuffer] at hAdded
      cases hNext
      exact ⟨hInv, hBuffers.1.trans h.inBuffer, hBuffers.2.trans h.outBuffer, hAdded⟩
  | removeEffect_l effect =>
    have hBuffers := s.chain.removeEffect_l_buffers effect
    have hRemoved :=
      (EffectChain.removeEffect_l_wired_iff hDiffer hWired
        h.inv.pairs h.inv.nodup effect).mpr hGuard
    rw [h.inBuffer, h.outBuffer] at hRemoved
    cases hNext
    exact ⟨hInv, hBuffers.1.trans h.inBuffer, hBuffers.2.trans h.outBuffer, hRemoved⟩

/-
  In every run on a chain with two buffers whose removals do not leave an auxiliary effect at the
  end in place of another one, the effects are wired; and exactly such a removal keeps them so.
-/
theorem exec_wiring {c : EffectChain} (hDiffer : c.mInBuffer ≠ c.mOutBuffer) {as : List ChainAction}
    {s : ChainRun} (hRun : Run.exec (Run.guarded KeepsAuxiliary step) (init c) as = some s) :
    Wired c.mInBuffer c.mOutBuffer s.chain.mEffects ∧
      ∀ effect,
        Wired c.mInBuffer c.mOutBuffer (s.chain.removeEffect_l effect).2.mEffects ↔
          s.chain.KeepsAuxiliary effect := by
  have hInv : s.WiredInv c :=
    Run.exec_invariant (fun _ _ _ h hStep => h.step hDiffer hStep) hRun
      ⟨Inv.init c, rfl, rfl, Wired.nil⟩
  refine ⟨hInv.wired, ?_⟩
  intro effect
  have hIff :=
    EffectChain.removeEffect_l_wired_iff (c := s.chain)
      (by rw [hInv.inBuffer, hInv.outBuffer]; exact hDiffer)
      (by rw [hInv.inBuffer, hInv.outBuffer]; exact hInv.wired) hInv.inv.pairs hInv.inv.nodup effect
  rw [hInv.inBuffer, hInv.outBuffer] at hIff
  exact hIff

/- The last of two insert effects goes. -/
def shortened : List ChainAction :=
  [.addEffect_l true 8 (effect 10 .auxiliary .any), .addEffect_l true 0 (effect 11 .insert .any),
    .addEffect_l true 0 (effect 12 .insert .last), .removeEffect_l 12]

theorem exec_wiring_shortened :
    ∃ s,
      Run.exec (Run.guarded KeepsAuxiliary step) (init session) shortened = some s ∧
        Wired 1 2 s.chain.mEffects := by
  have hSome :
      (Run.exec (Run.guarded KeepsAuxiliary step) (init session) shortened).isSome = true := by
    decide
  rcases Option.isSome_iff_exists.mp hSome with ⟨s, hRun⟩
  exact ⟨s, hRun, (exec_wiring (by decide) hRun).1⟩

/-
  The only insert effect goes, and the auxiliary one in front of it now writes to the output buffer.
-/
def exposed : List ChainAction :=
  [.addEffect_l true 8 (effect 10 .auxiliary .any), .addEffect_l true 0 (effect 11 .insert .any),
    .removeEffect_l 11]

theorem exec_wiring_exposed :
    session.mInBuffer ≠ session.mOutBuffer ∧
      ∃ s, Run.exec step (init session) exposed = some s ∧ ¬ Wired 1 2 s.chain.mEffects := by
  refine ⟨by decide, ?_⟩
  have hSome :
      (Run.exec step (init session) exposed).map
          (fun s =>
            s.chain.mEffects.map (fun e =>
              (e.mDescriptor.mode, e.outBuffer))) =
        some [(.auxiliary, 2)] := by
    decide
  rcases Option.map_eq_some_iff.mp hSome with ⟨s, hRun, hOne⟩
  refine ⟨s, hRun, ?_⟩
  intro hWired
  rcases List.map_eq_singleton_iff.mp hOne with ⟨e, hList, hEq⟩
  rw [Prod.mk.injEq] at hEq
  have hBad := hWired.auxiliary e (by rw [hList]; exact List.mem_cons_self) hEq.1
  rw [hEq.2] at hBad
  cases hBad

end ChainRun

end Effects

end FrameworksAv
