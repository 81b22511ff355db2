import FrameworksAv.Base.Insertion
import FrameworksAv.Effects.Chain

/-
  The order of the effects of a chain: auxiliary effects, then insert effects as their preferences
  ask for it.

  Main declarations:
    * `EffectChain.scan_spec`, `EffectChain.insertIndex_spec`
    * `Ranked`, `ChainRun.Inv`
    * `ChainRun.exec_order`
-/

--
-- Scan
--

namespace FrameworksAv

namespace Effects

namespace Descriptor

/- Where an insert effect wants to be. -/
def rank (d : Descriptor) : Nat :=
  match d.pref with
  | .first => 0
  | .last => 2
  | _ => 1

/- An insert effect that claims the first position. -/
def isFirst (d : Descriptor) : Bool :=
  decide (d.mode = .insert ∧ d.pref = .first)

/- An insert effect that claims the last position. -/
def isLast (d : Descriptor) : Bool :=
  decide (d.mode = .insert ∧ d.pref = .last)

def isInsert (d : Descriptor) : Bool :=
  decide (d.mode = .insert)

end Descriptor

namespace EffectModule

def isFirst (e : EffectModule) : Bool := e.mDescriptor.isFirst

def isLast (e : EffectModule) : Bool := e.mDescriptor.isLast

def isInsert (e : EffectModule) : Bool := e.mDescriptor.isInsert

end EffectModule

namespace EffectChain

/- What the positions say of the effects scanned so far. -/
structure Scanned (size : Nat) (es : List EffectModule) (p : Positions) : Prop where
  insert :
    (p.idx_insert = size ∧ ∀ e ∈ es, e.isInsert = false) ∨
      ∃ front e back, es = front ++ e :: back ∧ p.idx_insert = front.length ∧ e.isInsert = true ∧
        ∀ f ∈ front, f.isInsert = false
  first :
    match p.idx_insert_first with
    | none => ∀ e ∈ es, e.isFirst = false
    | some k =>
      ∃ front e back, es = front ++ e :: back ∧ k = front.length ∧ e.isFirst = true ∧
        ∀ f ∈ back, f.isFirst = false
  last :
    match p.idx_insert_last with
    | none => ∀ e ∈ es, e.isLast = false
    | some k =>
      ∃ front e back, es = front ++ e :: back ∧ k = front.length ∧ e.isLast = true ∧
        ∀ f ∈ front, f.isLast = false

theorem Scanned.nil (size : Nat) : Scanned size [] ⟨size, none, none⟩ where
  insert := .inl ⟨rfl, List.forall_mem_nil _⟩
  first := List.forall_mem_nil _
  last := List.forall_mem_nil _

/- The scan of one more effect, which is not an insert one. -/
theorem Scanned.skip {size : Nat} {es : List EffectModule} {p : Positions} (h : Scanned size es p)
    {e : EffectModule} (hNot : ¬ e.mDescriptor.mode = .insert) : Scanned size (es ++ [e]) p := by
  have hInsert : e.isInsert = false := by
    simp [EffectModule.isInsert, Descriptor.isInsert, hNot]
  have hFirst : e.isFirst = false := by
    simp [EffectModule.isFirst, Descriptor.isFirst, hNot]
  have hLast : e.isLast = false := by
    simp [EffectModule.isLast, Descriptor.isLast, hNot]
  have hAll :
      ∀ q : EffectModule → Bool, q e = false → (∀ f ∈ es, q f = false) →
        ∀ f ∈ es ++ [e], q f = false := by
    intro q hq hes f hf
    rcases List.mem_append.mp hf with hOld | hNew
    · exact hes f hOld
    · rw [List.mem_singleton.mp hNew]
      exact hq
  rcases p with ⟨ins, fst, lst⟩
  rcases h with ⟨hIns, hFst, hLst⟩
  simp only at hIns hFst hLst
  constructor
  · rcases hIns with ⟨hSize, hNone⟩ | ⟨front, f, back, rfl, h⟩
    · exact Or.inl ⟨hSize, hAll _ hInsert hNone⟩
    · exact Or.inr ⟨front, f, back ++ [e], by simp, h⟩
  · cases fst with
    | none => exact hAll _ hFirst hFst
    | some k =>
      rcases hFst with ⟨front, f, back, rfl, hk, hf, hBack⟩
      refine ⟨front, f, back ++ [e], by simp, hk, hf, ?_⟩
      intro g hg
      rcases List.mem_append.mp hg with hOld | hNew
      · exact hBack g hOld
      · rw [List.mem_singleton.mp hNew]
        exact hFirst
  · cases lst with
    | none => exact hAll _ hLast hLst
    | some k =>
      rcases hLst with ⟨front, f, back, rfl, h⟩
      exact ⟨front, f, back ++ [e], by simp, h⟩

/- The scan of one more insert effect. -/
theorem Scanned.next {size : Nat} {es : List EffectModule} {p : Positions} (h : Scanned size es p)
    (hLess : es.length < size) {e : EffectModule} (hMode : e.mDescriptor.mode = .insert) :
    Scanned size (es ++ [e]) (p.visit size es.length e.mDescriptor.pref) := by
  have hInsert : e.isInsert = true := by
    simp [EffectModule.isInsert, Descriptor.isInsert, hMode]
  have hFirst : e.isFirst = decide (e.mDescriptor.pref = .first) := by
    simp [EffectModule.isFirst, Descriptor.isFirst, hMode]
  have hLast : e.isLast = decide (e.mDescriptor.pref = .last) := by
    simp [EffectModule.isLast, Descriptor.isLast, hMode]
  rcases p with ⟨ins, fst, lst⟩
  rcases h with ⟨hIns, hFst, hLst⟩
  simp only at hIns hFst hLst
  unfold Positions.visit
  refine ⟨?_, ?_, ?_⟩ <;> dsimp only
  · right
    rcases hIns with ⟨hSize, hNone⟩ | ⟨front, f, back, rfl, hk, h⟩
    · rw [if_pos hSize]
      exact ⟨es, e, [], rfl, rfl, hInsert, hNone⟩
    · have hNe : ins ≠ size := by
        rw [List.length_append, List.length_cons] at hLess
        omega
      rw [if_neg hNe]
      exact ⟨front, f, back ++ [e], by simp, hk, h⟩
  · by_cases hPref : e.mDescriptor.pref = .first
    · rw [if_pos hPref]
      exact ⟨es, e, [], rfl, rfl, by rw [hFirst]; simp [hPref], List.forall_mem_nil _⟩
    · rw [if_neg hPref]
      have hNot : e.isFirst = false := by
        rw [hFirst]
        exact decide_eq_false hPref
      cases fst with
      | none =>
        intro f hf
        rcases List.mem_append.mp hf with hOld | hNew
        · exact hFst f hOld
        · rw [List.mem_singleton.mp hNew]
          exact hNot
      | some k =>
        rcases hFst with ⟨front, f, back, rfl, hk, hf, hBack⟩
        refine ⟨front, f, back ++ [e], by simp, hk, hf, ?_⟩
        intro g hg
        rcases List.mem_append.mp hg with hOld | hNew
        · exact hBack g hOld
        · rw [List.mem_singleton.mp hNew]
          exact hNot
  · cases lst with
    | none =>
      by_cases hPref : e.mDescriptor.pref = .last
      · rw [if_pos ⟨hPref, rfl⟩]
        exact ⟨es, e, [], rfl, rfl, by rw [hLast]; simp [hPref], hLst⟩
      · rw [if_neg (fun hBoth => hPref hBoth.1)]
        intro f hf
        rcases List.mem_append.mp hf with hOld | hNew
        · exact hLst f hOld
        · rw [List.mem_singleton.mp hNew, hLast]
          exact decide_eq_false hPref
    | some k =>
      rw [if_neg (fun hBoth => Option.some_ne_none k hBoth.2)]
      rcases hLst with ⟨front, f, back, rfl, h⟩
      exact ⟨front, f, back ++ [e], by simp, h⟩

/- The positions that the scan ends with. -/
theorem scan_spec {insertPref : InsertPref} {size : Nat} {es rest : List EffectModule}
    {p q : Positions} (h : Scanned size es p) (hSize : es.length + rest.length = size)
    (hScan : scan insertPref size rest es.length p = some q) :
    Scanned size (es ++ rest) q ∧
      ∀ e ∈ rest, e.isInsert = true →
        insertPref ≠ .exclusive ∧ e.mDescriptor.pref ≠ .exclusive := by
  induction rest generalizing es p with
  | nil =>
    cases hScan
    rw [List.append_nil]
    exact ⟨h, List.forall_mem_nil _⟩
  | cons e rest ih =>
    rw [List.length_cons] at hSize
    unfold scan at hScan
    simp only at hScan
    have hLength : es.length + 1 = (es ++ [e]).length := by
      rw [List.length_append]
      rfl
    have hList : es ++ e :: rest = es ++ [e] ++ rest := by
      rw [List.append_assoc]
      rfl
    rw [hLength] at hScan
    rw [hList]
    by_cases hMode : e.mDescriptor.mode = .insert
    · rw [if_pos hMode] at hScan
      by_cases hConflict : insertPref = .exclusive ∨ e.mDescriptor.pref = .exclusive
      · rw [if_pos hConflict] at hScan
        cases hScan
      · rw [if_neg hConflict] at hScan
        rw [not_or] at hConflict
        have hNext := h.next (by omega) hMode
        rcases ih hNext (by rw [← hLength]; omega) hScan with ⟨hScanned, hRest⟩
        refine ⟨hScanned, ?_⟩
        intro f hf hInsert
        rcases List.mem_cons.mp hf with hEq | hIn
        · rw [hEq]
          exact hConflict
        · exact hRest f hIn hInsert
    · rw [if_neg hMode] at hScan
      rcases ih (h.skip hMode) (by rw [← hLength]; omega) hScan with ⟨hScanned, hRest⟩
      refine ⟨hScanned, ?_⟩
      intro f hf hInsert
      rcases List.mem_cons.mp hf with hEq | hIn
      · rw [hEq, EffectModule.isInsert, Descriptor.isInsert] at hInsert
        exact absurd (of_decide_eq_true hInsert) hMode
      · exact hRest f hIn hInsert

end EffectChain

--
-- Place
--

open Insertion

/- Auxiliary effects come first, and insert effects in the order of their ranks. -/
def Ranked (a b : Descriptor) : Prop :=
  (b.mode = .auxiliary → a.mode = .auxiliary) ∧
    (a.isInsert = true → b.isInsert = true → a.rank ≤ b.rank)

namespace EffectModule

variable {e : EffectModule}

theorem rank_le_two (e : EffectModule) : e.mDescriptor.rank ≤ 2 := by
  unfold Descriptor.rank
  split <;> decide

theorem isInsert_iff : e.isInsert = true ↔ e.mDescriptor.mode = .insert := by
  simp [isInsert, Descriptor.isInsert]

theorem isFirst_iff : e.isFirst = true ↔ e.isInsert = true ∧ e.mDescriptor.pref = .first := by
  simp [isFirst, isInsert, Descriptor.isFirst, Descriptor.isInsert]

theorem isLast_iff : e.isLast = true ↔ e.isInsert = true ∧ e.mDescriptor.pref = .last := by
  simp [isLast, isInsert, Descriptor.isLast, Descriptor.isInsert]

theorem rank_of_first (hPref : e.mDescriptor.pref = .first) : e.mDescriptor.rank = 0 := by
  unfold Descriptor.rank
  rw [hPref]

theorem rank_of_last (hPref : e.mDescriptor.pref = .last) : e.mDescriptor.rank = 2 := by
  unfold Descriptor.rank
  rw [hPref]

theorem rank_pos_of_not_first (hPref : e.mDescriptor.pref ≠ .first) : 0 < e.mDescriptor.rank := by
  unfold Descriptor.rank
  split
  · contradiction
  · decide
  · decide

theorem rank_le_one_of_not_last (hPref : e.mDescriptor.pref ≠ .last) : e.mDescriptor.rank ≤ 1 := by
  unfold Descriptor.rank
  split
  · decide
  · contradiction
  · decide

/- An insert effect that does not claim the first position. -/
theorem rank_pos (hInsert : e.isInsert = true) (hNot : e.isFirst = false) :
    0 < e.mDescriptor.rank := by
  apply rank_pos_of_not_first
  intro hPref
  rw [isFirst_iff.mpr ⟨hInsert, hPref⟩] at hNot
  cases hNot

end EffectModule

/- Behind an effect that is not auxiliary, none is. -/
theorem not_aux_behind (front : List EffectModule) {back : List EffectModule} {e : EffectModule}
    (hPairs : (front ++ e :: back).Pairwise (fun a b => Ranked a.mDescriptor b.mDescriptor))
    (hNot : e.mDescriptor.mode ≠ .auxiliary) :
    ∀ f ∈ e :: back, f.mDescriptor.mode ≠ .auxiliary := by
  have hTail := (List.pairwise_append.mp hPairs).2.1
  intro f hf hAux
  rcases List.mem_cons.mp hf with hEq | hRest
  · rw [hEq] at hAux
    exact hNot hAux
  · exact hNot ((List.rel_of_pairwise_cons hTail hRest).1 hAux)

/- Auxiliary effects come before all others. -/
theorem aux_first {es : List EffectModule}
    (hPairs : es.Pairwise (fun a b => Ranked a.mDescriptor b.mDescriptor)) :
    ∃ aux rest,
      es = aux ++ rest ∧ (∀ e ∈ aux, e.mDescriptor.mode = .auxiliary) ∧
        ∀ e ∈ rest, e.mDescriptor.mode ≠ .auxiliary := by
  induction es with
  | nil => exact ⟨[], [], rfl, List.forall_mem_nil _, List.forall_mem_nil _⟩
  | cons e es ih =>
    by_cases hAux : e.mDescriptor.mode = .auxiliary
    · rcases ih (List.pairwise_cons.mp hPairs).2 with ⟨aux, rest, hSplit, hFront, hBack⟩
      refine ⟨e :: aux, rest, by rw [hSplit]; rfl, ?_, hBack⟩
      intro f hf
      rcases List.mem_cons.mp hf with hEq | hIn
      · rw [hEq]
        exact hAux
      · exact hFront f hIn
    · exact ⟨[], e :: es, rfl, List.forall_mem_nil _, not_aux_behind [] hPairs hAux⟩

namespace EffectChain

/- Where a new effect goes: between those it may stand with. -/
theorem insertIndex_spec {es : List EffectModule} {q : Positions} (h : Scanned es.length es q)
    (hPairs : es.Pairwise (fun a b => Ranked a.mDescriptor b.mDescriptor)) {x : EffectModule}
    (hNot : x.mDescriptor.mode ≠ .auxiliary) :
    let i := insertIndex x.mDescriptor.pref es.length q
    i ≤ es.length ∧ (∀ e ∈ es.take i, Ranked e.mDescriptor x.mDescriptor) ∧
      (∀ e ∈ es.drop i, Ranked x.mDescriptor e.mDescriptor) ∧
      (x.isFirst = true → ∀ e ∈ es.drop i, e.isFirst = false) := by
  unfold insertIndex
  by_cases hLast : x.mDescriptor.pref = .last
  · rw [if_pos hLast]
    have hTwo := EffectModule.rank_of_last hLast
    have hNever : x.isFirst = true → False := by
      intro hFirst
      have hPref := (EffectModule.isFirst_iff.mp hFirst).2
      rw [hLast] at hPref
      cases hPref
    have hLow : ∀ e : EffectModule, Ranked e.mDescriptor x.mDescriptor := by
      intro e
      refine ⟨fun hAux => absurd hAux hNot, fun _ _ => ?_⟩
      rw [hTwo]
      exact e.rank_le_two
    have hFound := h.last
    cases hIndex : q.idx_insert_last with
    | none =>
      simp only
      rw [List.drop_length]
      exact
        ⟨Nat.le_refl _, fun e _ => hLow e, List.forall_mem_nil _,
          fun hFirst => (hNever hFirst).elim⟩
    | some k =>
      rw [hIndex] at hFound
      rcases hFound with ⟨front, e, back, rfl, rfl, hIs, -⟩
      rw [EffectModule.isLast_iff, EffectModule.isInsert_iff] at hIs
      rcases hIs with ⟨hMode, hPref⟩
      have hAux := not_aux_behind _ hPairs (by rw [hMode]; decide)
      have hTail := (List.pairwise_append.mp hPairs).2.1
      simp only [List.drop_left, List.length_append]
      refine ⟨by omega, fun e _ => hLow e, ?_, fun hFirst => (hNever hFirst).elim⟩
      intro f hf
      refine ⟨fun hA => absurd hA (hAux f hf), ?_⟩
      intro _ hInsert
      rw [hTwo, ← EffectModule.rank_of_last hPref]
      rcases List.mem_cons.mp hf with hEq | hRest
      · exact Nat.le_of_eq (by rw [hEq])
      · exact (List.rel_of_pairwise_cons hTail hRest).2
          (EffectModule.isInsert_iff.mpr hMode) hInsert
  · rw [if_neg hLast]
    have hOne := EffectModule.rank_le_one_of_not_last hLast
    have hFound := h.first
    cases hIndex : q.idx_insert_first with
    | some k =>
      rw [hIndex] at hFound
      rcases hFound with ⟨front, e, back, rfl, rfl, hIs, hBack⟩
      rw [EffectModule.isFirst_iff, EffectModule.isInsert_iff] at hIs
      rcases hIs with ⟨hMode, hPref⟩
      have hAux := not_aux_behind _ hPairs (by rw [hMode]; decide)
      have hZero := EffectModule.rank_of_first hPref
      have hSplit : front ++ e :: back = (front ++ [e]) ++ back := by
        simp
      have hLength : front.length + 1 = (front ++ [e]).length := by
        simp
      rw [List.pairwise_append] at hPairs
      simp only
      rw [hSplit, hLength, List.take_left, List.drop_left]
      refine ⟨by simp, ?_, ?_, fun _ => hBack⟩
      · intro f hf
        refine ⟨fun hA => absurd hA hNot, ?_⟩
        intro hInsert _
        rcases List.mem_append.mp hf with hIn | hIn
        · have hLe :=
            (hPairs.2.2 f hIn e List.mem_cons_self).2 hInsert (EffectModule.isInsert_iff.mpr hMode)
          omega
        · rw [List.mem_singleton.mp hIn, hZero]
          exact Nat.zero_le _
      · intro f hf
        refine ⟨fun hA =>
          absurd hA (hAux f (List.mem_cons_of_mem _ hf)), ?_⟩
        intro _ hInsert
        have hPos := EffectModule.rank_pos hInsert (hBack f hf)
        omega
    | none =>
      rw [hIndex] at hFound
      simp only at hFound ⊢
      rcases h.insert with ⟨hSize, hNone⟩ | ⟨front, e, back, rfl, hk, hIs, hFront⟩
      · rw [hSize, List.take_length, List.drop_length]
        refine ⟨Nat.le_refl _, ?_, List.forall_mem_nil _, fun _ => List.forall_mem_nil _⟩
        intro f hf
        refine ⟨fun hA => absurd hA hNot, ?_⟩
        intro hInsert
        have hNo := hNone f hf
        rw [EffectModule.isInsert, hInsert] at hNo
        cases hNo
      · have hMode := EffectModule.isInsert_iff.mp hIs
        have hAux := not_aux_behind _ hPairs (by rw [hMode]; decide)
        rw [hk, List.take_left, List.drop_left]
        refine ⟨by simp, ?_, ?_, ?_⟩
        · intro f hf
          refine ⟨fun hA => absurd hA hNot, ?_⟩
          intro hInsert
          have hNo := hFront f hf
          rw [EffectModule.isInsert, hInsert] at hNo
          cases hNo
        · intro f hf
          refine ⟨fun hA => absurd hA (hAux f hf), ?_⟩
          intro _ hInsert
          have hPos := EffectModule.rank_pos hInsert (hFound f (List.mem_append_right _ hf))
          omega
        · intro _ f hf
          exact hFound f (List.mem_append_right _ hf)

--
-- Keys
--

/- The addresses and descriptors of the effects, in order. -/
def keys (c : EffectChain) : List (Nat × Descriptor) :=
  c.mEffects.map EffectModule.key

/- Another output buffer is not seen. -/
theorem keys_rewired (c : EffectChain) (i buffer : Nat) :
    (c.mEffects.modify i (fun e => (e.setOutBuffer buffer).configure)).map
      EffectModule.key = c.keys := by
  unfold keys
  apply map_modify_of_eq
  intro e
  rfl

/- No effect of a descriptor's type conflicts with others. -/
def Compatible (d : Descriptor) (ks : List (Nat × Descriptor)) : Prop :=
  d.isInsert = true → ∀ k ∈ ks, k.2.isInsert = true → d.pref ≠ .exclusive ∧ k.2.pref ≠ .exclusive

/- What `addEffect_l` does to the effects: nothing, or the new one is put in its place. -/
theorem addEffect_l_keys (thread : Bool) (buffer : Nat) (c : EffectChain) (effect : EffectModule)
    (hPairs : c.keys.Pairwise (fun a b => Ranked a.2 b.2)) :
    let r := c.addEffect_l thread buffer effect
    (r.1 ≠ .NO_ERROR ∧ r.2 = c) ∨
      (r.1 = .NO_ERROR ∧
        ∃ i, i ≤ c.keys.length ∧ r.2.keys = c.keys.insertIdx i effect.key ∧
          (∀ k ∈ c.keys.take i, Ranked k.2 effect.mDescriptor) ∧
          (∀ k ∈ c.keys.drop i, Ranked effect.mDescriptor k.2) ∧
          (effect.isFirst = true → ∀ k ∈ c.keys.drop i, k.2.isFirst = false) ∧
          Compatible effect.mDescriptor c.keys) := by
  have hLength : c.keys.length = c.mEffects.length := List.length_map _
  unfold addEffect_l
  by_cases hThread : thread = false
  · rw [if_pos hThread]
    exact Or.inl ⟨nofun, rfl⟩
  rw [if_neg hThread]
  by_cases hAux : effect.mDescriptor.mode = .auxiliary
  · rw [if_pos hAux]
    right
    have hNotInsert : effect.mDescriptor.isInsert = false := by
      simp [Descriptor.isInsert, hAux]
    refine ⟨rfl, 0, Nat.zero_le _, ?_, List.forall_mem_nil _, ?_, ?_, ?_⟩
    · rfl
    · intro k _
      refine ⟨fun _ => hAux, ?_⟩
      intro hInsert
      rw [hNotInsert] at hInsert
      cases hInsert
    · intro hFirst
      have hInsert := (EffectModule.isFirst_iff.mp hFirst).1
      rw [EffectModule.isInsert, hNotInsert] at hInsert
      cases hInsert
    · intro hInsert
      rw [hNotInsert] at hInsert
      cases hInsert
  rw [if_neg hAux]
  cases hScan :
      scan effect.mDescriptor.pref c.mEffects.length c.mEffects 0
        ⟨c.mEffects.length, none, none⟩ with
  | none =>
    simp only [hScan]
    exact Or.inl ⟨nofun, trivial⟩
  | some q =>
    right
    rcases scan_spec (Scanned.nil _) (Nat.zero_add _) hScan with ⟨hScanned, hRest⟩
    have hSorted : c.mEffects.Pairwise (fun a b => Ranked a.mDescriptor b.mDescriptor) := by
      have hMap := List.pairwise_map.mp hPairs
      exact hMap
    rcases insertIndex_spec hScanned hSorted hAux with ⟨hLe, hBefore, hBehind, hFirst⟩
    simp only [hScan]
    generalize insertIndex effect.mDescriptor.pref c.mEffects.length q = i at *
    have hPlace :
        ∀ (es : List EffectModule) (x : EffectModule), es.map EffectModule.key = c.keys →
          x.key = effect.key →
          (es.insertIdx i x).map EffectModule.key = c.keys.insertIdx i effect.key := by
      intro es x hEs hX
      rw [List.map_insertIdx, hEs, hX]
    refine ⟨by split <;> rfl, i, by rw [hLength]; exact hLe, ?_, ?_, ?_, ?_, ?_⟩
    · split
      · split
        · exact hPlace _ _ (c.keys_rewired _ _) rfl
        · exact hPlace _ _ rfl rfl
      · exact hPlace _ _ rfl rfl
    · intro k hk
      unfold keys at hk
      rw [← List.map_take] at hk
      rcases List.mem_map.mp hk with ⟨e, he, rfl⟩
      exact hBefore e he
    · intro k hk
      unfold keys at hk
      rw [← List.map_drop] at hk
      rcases List.mem_map.mp hk with ⟨e, he, rfl⟩
      exact hBehind e he
    · intro hIs k hk
      unfold keys at hk
      rw [← List.map_drop] at hk
      rcases List.mem_map.mp hk with ⟨e, he, rfl⟩
      exact hFirst hIs e he
    · intro _ k hk hInsert
      rcases List.mem_map.mp hk with ⟨e, he, rfl⟩
      exact hRest e he hInsert

/- `removeEffect_l` takes one effect out. -/
theorem removeEffect_l_keys (c : EffectChain) (hNodup : (c.mEffects.map (fun e => e.id)).Nodup)
    (effect : Nat) : (c.removeEffect_l effect).2.keys = c.keys.filter (fun k => k.1 ≠ effect) := by
  unfold removeEffect_l
  cases hFind : c.mEffects.findIdx? (fun e => e.id = effect) with
  | none =>
    simp only
    symm
    apply List.filter_eq_self.mpr
    intro k hk
    rcases List.mem_map.mp hk with ⟨e, he, rfl⟩
    have hNot := List.findIdx?_eq_none_iff.mp hFind e he
    exact decide_eq_true (of_decide_eq_false hNot)
  | some i =>
    have hErase := eraseIdx_eq_filter hNodup hFind
    have hKeys :
        ∀ es : List EffectModule, es.map EffectModule.key = c.keys →
          (es.eraseIdx i).map EffectModule.key = c.keys.filter (fun k => k.1 ≠ effect) := by
      intro es hEs
      rw [← List.eraseIdx_map, hEs]
      unfold keys
      rw [List.eraseIdx_map, hErase, List.filter_map]
      rfl
    simp only [keys]
    apply hKeys
    split
    · rfl
    · split
      · exact c.keys_rewired _ _
      · rfl

end EffectChain

--
-- Runs
--

/- An exclusive insert effect is the only insert effect. -/
def Alone (ks : List (Nat × Descriptor)) : Prop :=
  ∀ k ∈ ks, k.2.isInsert = true → k.2.pref = .exclusive → ks.filter (fun j => j.2.isInsert) = [k]

theorem Alone.filter {ks : List (Nat × Descriptor)} (h : Alone ks) (p : Nat × Descriptor → Bool) :
    Alone (ks.filter p) := by
  intro k hk hInsert hPref
  rcases List.mem_filter.mp hk with ⟨hMem, hKeep⟩
  rw [List.filter_comm, h k hMem hInsert hPref]
  simp [hKeep]

/- A compatible effect leaves an exclusive one alone. -/
theorem Alone.insertIdx {ks : List (Nat × Descriptor)} (h : Alone ks) {k : Nat × Descriptor}
    {i : Nat} (hLe : i ≤ ks.length) (hCompatible : EffectChain.Compatible k.2 ks) :
    Alone (ks.insertIdx i k) := by
  intro j hj hInsert hPref
  rcases (List.mem_insertIdx hLe).mp hj with rfl | hOld
  · -- the new effect is exclusive, so no other one inserts
    have hNone : ∀ l ∈ ks, l.2.isInsert = false := by
      intro l hl
      rw [Bool.eq_false_iff]
      intro hOther
      exact (hCompatible hInsert l hl hOther).1 hPref
    rw [filter_insertIdx_of_none_behind (p := fun l => l.2.isInsert) hInsert hLe
      (fun l hl => hNone l (List.mem_of_mem_drop hl))]
    have hNil : ks.filter (fun l => l.2.isInsert) = [] := by
      apply List.filter_eq_nil_iff.mpr
      intro l hl
      rw [hNone l hl]
      exact Bool.false_ne_true
    rw [hNil]
    rfl
  · have hNot : k.2.isInsert = false := by
      rw [Bool.eq_false_iff]
      intro hNew
      exact (hCompatible hNew j hOld hInsert).2 hPref
    rw [filter_insertIdx_of_neg (p := fun l => l.2.isInsert) (x := k) hNot]
    exact h j hOld hInsert hPref

namespace ChainRun

/- What holds in every reachable state. -/
structure Inv (s : ChainRun) : Prop where
  nodup : (s.chain.mEffects.map (fun e => e.id)).Nodup
  pairs : s.chain.keys.Pairwise (fun a b => Ranked a.2 b.2)
  firsts : s.chain.keys.filter (fun k => k.2.isFirst) = s.added.filter (fun k => k.2.isFirst)
  alone : Alone s.chain.keys

theorem Inv.init (c : EffectChain) : Inv (ChainRun.init c) where
  nodup := List.Pairwise.nil
  pairs := List.Pairwise.nil
  firsts := rfl
  alone := List.forall_mem_nil _

/- The addresses of the effects. -/
theorem ids_eq (c : EffectChain) : c.mEffects.map (fun e => e.id) = c.keys.map Prod.fst := by
  unfold EffectChain.keys
  rw [List.map_map]
  rfl

theorem Inv.addEffect_l {s : ChainRun} (h : s.Inv) (thread : Bool) (buffer : Nat)
    {effect : EffectModule} (hNew : effect.id ∉ s.chain.mEffects.map (fun e => e.id)) :
    let r := s.chain.addEffect_l thread buffer effect
    Inv
      { chain := r.2
        added := if r.1 = .NO_ERROR then s.added ++ [effect.key]
          else s.added } := by
  rcases EffectChain.addEffect_l_keys thread buffer s.chain effect h.pairs with
    ⟨hFail, hSame⟩ | ⟨hOk, i, hLe, hKeys, hBefore, hBehind, hFirst, hCompatible⟩
  · simp only [hFail, hSame, if_false]
    exact h
  · simp only [hOk, if_true]
    constructor
    · rw [ids_eq, hKeys, List.map_insertIdx]
      rw [ids_eq] at hNew
      apply (List.perm_insertIdx _ _ (by
        rw [List.length_map]; exact hLe)).nodup_iff.mpr
      apply List.nodup_cons.mpr
      exact ⟨hNew, by rw [← ids_eq]; exact h.nodup⟩
    · rw [hKeys]
      exact pairwise_insertIdx h.pairs hLe hBefore hBehind
    · rw [hKeys, List.filter_append, ← h.firsts]
      by_cases hIs : effect.isFirst = true
      · rw [filter_insertIdx_of_none_behind (p := fun k => k.2.isFirst) (x := effect.key) hIs hLe
          (hFirst hIs)]
        congr 1
        simp only [List.filter_cons, List.filter_nil]
        exact (if_pos hIs).symm
      · have hNot : effect.key.2.isFirst = false := Bool.eq_false_iff.mpr hIs
        rw [filter_insertIdx_of_neg (p := fun k => k.2.isFirst) (x := effect.key) hNot]
        simp [hNot]
    · rw [hKeys]
      exact h.alone.insertIdx hLe hCompatible

theorem Inv.removeEffect_l {s : ChainRun} (h : s.Inv) (effect : Nat) :
    Inv
      { chain := (s.chain.removeEffect_l effect).2
        added := s.added.filter (fun k => k.1 ≠ effect) } := by
  have hKeys := s.chain.removeEffect_l_keys h.nodup effect
  constructor
  · have hNodup := h.nodup
    rw [ids_eq] at hNodup ⊢
    rw [hKeys]
    exact hNodup.sublist (List.filter_sublist.map _)
  · rw [hKeys]
    exact h.pairs.sublist List.filter_sublist
  · rw [hKeys, List.filter_comm, h.firsts, List.filter_comm]
  · rw [hKeys]
    exact h.alone.filter _

theorem Inv.step {s t : ChainRun} (h : s.Inv) {a : ChainAction} (hStep : s.step a = some t) :
    t.Inv := by
  cases a with
  | addEffect_l thread buffer effect =>
    simp only [ChainRun.step] at hStep
    by_cases hOld : effect.id ∈ s.chain.mEffects.map (fun e => e.id)
    · rw [if_pos hOld] at hStep
      cases hStep
    · rw [if_neg hOld] at hStep
      cases hStep
      exact h.addEffect_l thread buffer hOld
  | removeEffect_l effect =>
    cases hStep
    exact h.removeEffect_l effect

/-
  Starting from an empty chain: auxiliary effects come first; insert effects are in the order of
  their ranks, those that claim the first position in the order of their insertion; an exclusive one
  is the only one; and a rejected effect leaves the list unchanged.
-/
theorem exec_order {c : EffectChain} {as : List ChainAction} {s : ChainRun}
    (hRun : Run.exec step (init c) as = some s) :
    (∃ aux rest,
      s.chain.mEffects = aux ++ rest ∧ (∀ e ∈ aux, e.mDescriptor.mode = .auxiliary) ∧
        ∀ e ∈ rest, e.mDescriptor.mode ≠ .auxiliary) ∧
      (s.chain.mEffects.filter (fun e => e.isInsert)).Pairwise
        (fun a b => a.mDescriptor.rank ≤ b.mDescriptor.rank) ∧
      (s.chain.mEffects.filter (fun e => e.isFirst)).map EffectModule.key =
        s.added.filter (fun k => k.2.isFirst) ∧
      (∀ e ∈ s.chain.mEffects, e.isInsert = true → e.mDescriptor.pref = .exclusive →
        s.chain.mEffects.filter (fun f => f.isInsert) = [e]) ∧
      ∀ thread buffer effect,
        (s.chain.addEffect_l thread buffer effect).1 = .INVALID_OPERATION →
          (s.chain.addEffect_l thread buffer effect).2 = s.chain := by
  have hInv : s.Inv := Run.exec_invariant (fun _ _ _ h hStep => h.step hStep) hRun (Inv.init c)
  have hPairs : s.chain.mEffects.Pairwise (fun a b => Ranked a.mDescriptor b.mDescriptor) := by
    have hMap := List.pairwise_map.mp hInv.pairs
    exact hMap
  refine ⟨?_, ?_, ?_, ?_, ?_⟩
  · exact aux_first hPairs
  · have hFilter := hPairs.sublist (List.filter_sublist (p := fun e => e.isInsert))
    apply hFilter.imp_of_mem
    intro a b ha hb hRanked
    exact hRanked.2 (List.mem_filter.mp ha).2 (List.mem_filter.mp hb).2
  · rw [← hInv.firsts]
    unfold EffectChain.keys
    rw [List.filter_map]
    rfl
  · intro e he hInsert hPref
    have hKeys := hInv.alone e.key (List.mem_map_of_mem he) hInsert hPref
    unfold EffectChain.keys at hKeys
    rw [List.filter_map] at hKeys
    rcases List.map_eq_singleton_iff.mp hKeys with ⟨f, hFilter, hEq⟩
    have hIn : e ∈ s.chain.mEffects.filter (fun f => f.isInsert) :=
      List.mem_filter.mpr ⟨he, hInsert⟩
    have hOnly : s.chain.mEffects.filter (fun f => f.isInsert) = [f] := hFilter
    rw [hOnly] at hIn ⊢
    rw [List.mem_singleton.mp hIn]
  · intro thread buffer effect hRejected
    rcases EffectChain.addEffect_l_keys thread buffer s.chain
        effect hInv.pairs with ⟨-, hSame⟩ | ⟨hOk, -⟩
    · exact hSame
    · rw [hOk] at hRejected
      cases hRejected

/- A chain of a session with buffers of its own. -/
def session : EffectChain where
  mEffects := []
  mSessionId := 5
  mInBuffer := 1
  mOutBuffer := 2
  mSuspendedEffects := .empty

/- An effect that is not yet in a chain. -/
def effect (id : Nat) (mode : TypeMode) (pref : InsertPref) : EffectModule where
  id := id
  mDescriptor := ⟨⟨7, 0⟩, mode, pref⟩
  mPinned := false
  mState := .IDLE
  mSuspended := false
  mHandles := []
  inBuffer := 0
  outBuffer := 0
  accessMode := .write

/- Effects of all preferences, in an order of their own. -/
def mixture : List ChainAction :=
  [.addEffect_l true 0 (effect 10 .insert .last), .addEffect_l true 0 (effect 11 .insert .any),
    .addEffect_l true 8 (effect 12 .auxiliary .any), .addEffect_l true 0 (effect 13 .insert .first),
    .addEffect_l true 0 (effect 14 .insert .exclusive),
    .addEffect_l true 0 (effect 15 .insert .first), .removeEffect_l 11]

theorem exec_order_mixture :
    ∃ s,
      Run.exec step (init session) mixture = some s ∧
        (s.chain.mEffects.filter (fun e => e.isFirst)).map EffectModule.key =
          s.added.filter (fun k => k.2.isFirst) ∧
        s.chain.mEffects.map (fun e => e.id) = [12, 13, 15, 10] := by
  have hSome :
      (Run.exec step (init session) mixture).map (fun s => s.chain.mEffects.map (fun e => e.id)) =
        some [12, 13, 15, 10] := by
    decide
  rcases Option.map_eq_some_iff.mp hSome with ⟨s, hRun, hIds⟩
  exact ⟨s, hRun, (exec_order hRun).2.2.1, hIds⟩

end ChainRun

end Effects

end FrameworksAv
