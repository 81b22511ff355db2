import FrameworksAv.Effects.Suspension

/-
  Suspensions nest: while requests to suspend one type or all effects come and go, each type stays
  suspended as long as a request for it is left.

  Main declarations:
    * `Nesting`, `Nesting.step`, `Nests`
    * `EffectChain.Restorable`,
      `EffectChain.restoreAll_suspendAll_iff`
    * `Nesting.Inv`, `Nesting.exec_nesting`
-/

--
-- Frame
--

namespace FrameworksAv

namespace Effects

namespace EffectModule

@[simp] theorem setEnabled_l_desc (accepts : Bool) (e : EffectModule) (enabled : Bool) :
    (setEnabled_l accepts e enabled).mDescriptor = e.mDescriptor := by
  unfold setEnabled_l
  split
  · rfl
  · split
    · rfl
    · split <;> rfl

@[simp] theorem suspend_desc (e : EffectModule) : e.suspend.mDescriptor = e.mDescriptor := by
  unfold suspend
  rw [setEnabled_l_desc]
  rfl

@[simp] theorem restore_desc (accepts : Bool) (e : EffectModule) :
    (restore accepts e).mDescriptor = e.mDescriptor := by
  unfold restore
  simp only
  split
  · rfl
  · split
    · rw [setEnabled_l_desc]
      rfl
    · rfl

end EffectModule

namespace EffectChain

variable {accepts : Nat → Bool}

/- The effects that can be suspended, by their descriptors. -/
theorem eligibleTypes_eq (c : EffectChain) :
    c.eligibleTypes =
      ((c.mEffects.map (fun e => e.mDescriptor)).filter
        (isEffectEligibleForSuspend c.mSessionId)).map (fun d => d.type) := by
  unfold eligibleTypes getSuspendEligibleEffects
  rw [List.filter_map, List.map_map]
  rfl

theorem changeEffect_types (c : EffectChain) (effect : Nat) {f : EffectModule → EffectModule}
    (hSame : ∀ e, (f e).mDescriptor = e.mDescriptor) :
    (c.changeEffect effect f).eligibleTypes = c.eligibleTypes := by
  rw [eligibleTypes_eq, eligibleTypes_eq]
  unfold changeEffect
  simp only [List.map_map]
  congr 2
  apply List.map_congr_left
  intro e _
  simp only [Function.comp]
  split
  · exact hSame e
  · rfl

/- Suspensions never change which effects can be suspended. -/
@[simp] theorem setEffectSuspended_l_types (c : EffectChain) (type : Uuid) (suspend : Bool) :
    (c.setEffectSuspended_l accepts type suspend ).eligibleTypes = c.eligibleTypes := by
  unfold setEffectSuspended_l
  cases suspend with
  | true =>
    simp only
    split
    · split
      · rw [changeEffect_types _ _ EffectModule.suspend_desc]
        rfl
      · rfl
    · rfl
  | false =>
    simp only
    split
    · rfl
    · rename_i desc _
      generalize (if desc.mRefCount ≤ 0 then 1 else desc.mRefCount) = n
      split
      · split
        · rename_i effect _
          have hTypes := changeEffect_types c effect (EffectModule.restore_desc (accepts effect))
          exact hTypes
        · rfl
      · rfl

theorem foldl_types (types : List Uuid) (suspend : Bool) (c : EffectChain) :
    (types.foldl
        (fun c type =>
          c.setEffectSuspended_l accepts type suspend)
        c).eligibleTypes = c.eligibleTypes := by
  induction types generalizing c with
  | nil => rfl
  | cons type types ih => rw [List.foldl_cons, ih, setEffectSuspended_l_types]

@[simp] theorem setEffectSuspendedAll_l_types (c : EffectChain) (suspend : Bool) :
    (c.setEffectSuspendedAll_l accepts suspend ).eligibleTypes = c.eligibleTypes := by
  unfold setEffectSuspendedAll_l
  cases suspend with
  | true =>
    simp only
    split
    · rw [foldl_types]
      rfl
    · rfl
  | false =>
    simp only
    split
    · rfl
    · rename_i desc _
      generalize (if desc.mRefCount ≤ 0 then 1 else desc.mRefCount) = n
      split
      · exact foldl_types _ _ _
      · rfl

end EffectChain

--
-- Pair
--

namespace EffectChain

variable (accepts : Nat → Bool)
variable {c : EffectChain}

/-
  No effect is covered under the key for all, and each type that is suspended or covered is covered
  exactly once.
-/
def Restorable (c : EffectChain) : Prop :=
  c.covered kKeyForSuspendAll = 0 ∧
    ∀ k, k ≠ kKeyForSuspendAll →
      c.mSuspendedEffects.lookup k ≠ none ∨ 0 < c.covered k → c.covered k = 1

/- One more suspension of all while there is one. -/
theorem pair_of_suspended (hCounted : c.Counted) {d : SuspendedEffectDesc}
    (hSome : c.mSuspendedEffects.lookup kKeyForSuspendAll = some d) :
    ((c.setEffectSuspendedAll_l accepts true ).setEffectSuspendedAll_l accepts false
      ).mSuspendedEffects = c.mSuspendedEffects := by
  have hPos := (hCounted _ _ hSome).1
  have hUp := lookup_suspendAll accepts hSome (by omega)
  have hMore : (c.setEffectSuspendedAll_l accepts true).Counted := by
    intro k e hk
    rw [hUp] at hk
    by_cases hKey : k = kKeyForSuspendAll
    · rw [if_pos hKey] at hk
      cases hk
      exact ⟨by simp only; omega, fun hNe => absurd hKey hNe⟩
    · rw [if_neg hKey] at hk
      exact hCounted k e hk
  apply KeyedVector.ext_lookup
  intro k
  have hAll := hUp kKeyForSuspendAll
  rw [if_pos rfl] at hAll
  rw [lookup_restoreAll accepts hMore hAll]
  simp only
  rw [if_neg (by omega)]
  by_cases hKey : k = kKeyForSuspendAll
  · rw [if_pos hKey, hKey, hSome]
    simp
  · rw [if_neg hKey, hUp, if_neg hKey]

/- The entries after a pair of a suspension and its end. -/
theorem lookup_pair (hCounted : c.Counted)
    (hNone : c.mSuspendedEffects.lookup kKeyForSuspendAll = none)
    (hZero : c.covered kKeyForSuspendAll = 0) (k : Int) :
    ((c.setEffectSuspendedAll_l accepts true ).setEffectSuspendedAll_l accepts false
      ).mSuspendedEffects.lookup k = if k = kKeyForSuspendAll then none
      else lower ((c.setEffectSuspendedAll_l accepts true ).mSuspendedEffects.lookup k) := by
  have hUp := suspendAll_raised accepts hCounted hNone
  have hMore := hUp.counted (hCounted.putDesc (Int.le_refl 1))
  have hAll := (hUp kKeyForSuspendAll).1 ⟨1, ⟨0, 0⟩, none⟩ (by rw [lookup_putDesc, if_pos rfl])
  rw [hZero] at hAll
  rw [lookup_restoreAll accepts hMore hAll]
  rfl

/-
  A pair of a suspension of all effects and its end restores the map exactly when all effects are
  suspended already or it is restorable.
-/
theorem restoreAll_suspendAll_iff (hCounted : c.Counted) :
    ((c.setEffectSuspendedAll_l accepts true ).setEffectSuspendedAll_l accepts false
        ).mSuspendedEffects = c.mSuspendedEffects ↔
      c.mSuspendedEffects.lookup kKeyForSuspendAll ≠ none ∨ c.Restorable := by
  cases hAll : c.mSuspendedEffects.lookup kKeyForSuspendAll with
  | some d =>
    exact ⟨fun _ => Or.inl (Option.some_ne_none d),
      fun _ => pair_of_suspended accepts hCounted hAll⟩
  | none =>
    have hUp := suspendAll_raised accepts hCounted hAll
    have hMore := hUp.counted (hCounted.putDesc (Int.le_refl 1))
    have hFirst := (hUp kKeyForSuspendAll).1 ⟨1, ⟨0, 0⟩, none⟩ (by rw [lookup_putDesc, if_pos rfl])
    have hOther :
        ∀ k, k ≠ kKeyForSuspendAll →
          (c.putDesc kKeyForSuspendAll ⟨1, ⟨0, 0⟩, none⟩ ).mSuspendedEffects.lookup k =
            c.mSuspendedEffects.lookup k := by
      intro k hKey
      rw [lookup_putDesc, if_neg hKey]
    simp only [ne_eq, not_true_eq_false, false_or]
    constructor
    · intro hSame
      have hZero : c.covered kKeyForSuspendAll = 0 := by
        by_contra hSome
        have hLeft := lookup_restoreAll accepts hMore hFirst kKeyForSuspendAll
        rw [hSame, hAll] at hLeft
        simp only at hLeft
        rw [if_neg (by omega), if_pos trivial] at hLeft
        cases hLeft
      refine ⟨hZero, ?_⟩
      intro k hKey hEither
      have hPair := lookup_pair accepts hCounted hAll hZero k
      rw [hSame, if_neg hKey] at hPair
      cases hLookup : c.mSuspendedEffects.lookup k with
      | some d =>
        have hNew := (hUp k).1 d (by rw [hOther k hKey, hLookup])
        have hPos := (hCounted k d hLookup).1
        rw [hNew, hLookup] at hPair
        unfold lower at hPair
        rw [Option.bind_some] at hPair
        simp only at hPair
        split at hPair
        · cases hPair
        · have hCount := congrArg SuspendedEffectDesc.mRefCount (Option.some.inj hPair)
          simp only at hCount
          omega
      | none =>
        rw [hLookup] at hEither hPair
        have hSome : 0 < c.covered k := by
          rcases hEither with hNot | hSome
          · exact absurd rfl hNot
          · exact hSome
        rcases ((hUp k).2 (by rw [hOther k hKey, hLookup])).2 (by omega) with ⟨d, hNew, hCount, -⟩
        rw [hNew] at hPair
        unfold lower at hPair
        rw [Option.bind_some] at hPair
        split at hPair
        · omega
        · cases hPair
    · rintro ⟨hZero, hOnce⟩
      apply KeyedVector.ext_lookup
      intro k
      rw [lookup_pair accepts hCounted hAll hZero]
      by_cases hKey : k = kKeyForSuspendAll
      · rw [if_pos hKey, hKey, hAll]
      · rw [if_neg hKey]
        cases hLookup : c.mSuspendedEffects.lookup k with
        | some d =>
          have hOne := hOnce k hKey (Or.inl (by rw [hLookup]; nofun))
          have hPos := (hCounted k d hLookup).1
          rw [(hUp k).1 d (by rw [hOther k hKey, hLookup]), hOne]
          unfold lower
          rw [Option.bind_some]
          simp only
          rw [if_neg (by omega)]
          congr 2
          omega
        | none =>
          have hNew := (hUp k).2 (by rw [hOther k hKey, hLookup])
          by_cases hSome : c.covered k = 0
          · rw [hNew.1 hSome]
            rfl
          · have hOne := hOnce k hKey (Or.inr (Nat.pos_of_ne_zero hSome))
            rcases hNew.2 hSome with ⟨d, hD, hCount, -⟩
            rw [hD]
            unfold lower
            rw [Option.bind_some, if_pos (by omega)]

end EffectChain

--
-- System
--

/-
  A chain, the requests to suspend a type that have not been taken back, and the number of those to
  suspend all effects.
-/
structure Nesting where
  chain : EffectChain
  requests : List Uuid
  all : Nat

inductive SuspendAction where
| setEffectSuspended_l (type : Uuid) (suspend : Bool)
| setEffectSuspendedAll_l (suspend : Bool)

namespace Nesting

/- A chain with some effects and no suspension. -/
def init (c : EffectChain) : Nesting where
  chain := { c with mSuspendedEffects := .empty }
  requests := []
  all := 0

/- Every restore takes back a suspension from before. -/
def step (accepts : Nat → Bool) (s : Nesting) : SuspendAction → Option Nesting
| .setEffectSuspended_l type true =>
  some
    { s with
      chain := s.chain.setEffectSuspended_l accepts type true
      requests := type :: s.requests }
| .setEffectSuspended_l type false =>
  if type ∈ s.requests then
    some
      { s with
        chain := s.chain.setEffectSuspended_l accepts type false
        requests := s.requests.erase type }
  else none
| .setEffectSuspendedAll_l true =>
  some
    { s with
      chain := s.chain.setEffectSuspendedAll_l accepts true
      all := s.all + 1 }
| .setEffectSuspendedAll_l false =>
  if 0 < s.all then
    some
      { s with
        chain := s.chain.setEffectSuspendedAll_l accepts false
        all := s.all - 1 }
  else none

/-
  No type has the key for all effects, and the last end of a suspension of all effects finds each
  suspended type covered exactly once.
-/
def Nests (s : Nesting) : SuspendAction → Prop
| .setEffectSuspended_l type _ => type.key ≠ kKeyForSuspendAll
| .setEffectSuspendedAll_l true => s.chain.covered kKeyForSuspendAll = 0
| .setEffectSuspendedAll_l false =>
  s.all = 1 → ∀ k ∈ s.chain.mSuspendedEffects.keys, k ≠ kKeyForSuspendAll → s.chain.covered k = 1

instance (s : Nesting) (a : SuspendAction) : Decidable (s.Nests a) :=
  match a with
  | .setEffectSuspended_l type _ => inferInstanceAs (Decidable (type.key ≠ kKeyForSuspendAll))
  | .setEffectSuspendedAll_l true =>
    inferInstanceAs (Decidable (s.chain.covered kKeyForSuspendAll = 0))
  | .setEffectSuspendedAll_l false =>
    inferInstanceAs
      (Decidable
        (s.all = 1 →
          ∀ k ∈ s.chain.mSuspendedEffects.keys, k ≠ kKeyForSuspendAll → s.chain.covered k = 1))

/- The number of requests with a key. -/
def requested (s : Nesting) (k : Int) : Nat :=
  s.requests.countP (fun type => type.key = k)

/- The references that a key should have. -/
def due (s : Nesting) (k : Int) : Nat :=
  if k = kKeyForSuspendAll then s.all
  else s.requested k + if 0 < s.all then s.chain.covered k else 0

/- What holds in every reachable state. -/
structure Inv (s : Nesting) : Prop where
  counted : s.chain.Counted
  due : ∀ k, s.chain.refCount k = s.due k
  covered : 0 < s.all → s.chain.covered kKeyForSuspendAll = 0

end Nesting

--
-- Runs
--

namespace EffectChain

variable {accepts : Nat → Bool} {c : EffectChain}

theorem Raised.refCount {c' : EffectChain} {more : Int → Nat} (h : Raised c c' more) (k : Int) :
    c'.refCount k = c.refCount k + more k := by
  unfold EffectChain.refCount
  cases hLookup : c.mSuspendedEffects.lookup k with
  | some d =>
    rw [(h k).1 d hLookup]
    rfl
  | none =>
    by_cases hZero : more k = 0
    · rw [((h k).2 hLookup).1 hZero, hZero]
      rfl
    · rcases ((h k).2 hLookup).2 hZero with ⟨d, hSome, hCount, -⟩
      rw [hSome]
      simp only [Option.map_some, Option.getD_some, Option.map_none, Option.getD_none, hCount]
      omega

/- Entries are counted, so a count of zero is no entry. -/
theorem Counted.lookup_eq_none_iff (h : c.Counted) (k : Int) :
    c.mSuspendedEffects.lookup k = none ↔ c.refCount k = 0 := by
  unfold EffectChain.refCount
  cases hLookup : c.mSuspendedEffects.lookup k with
  | some d =>
    have hPos := (h k d hLookup).1
    simp only [Option.map_some, Option.getD_some]
    constructor
    · intro hNone
      cases hNone
    · intro hZero
      omega
  | none => exact ⟨fun _ => rfl, fun _ => rfl⟩

/- Entries with one reference less are counted. -/
theorem Counted.of_lower (h : c.Counted) {c' : EffectChain}
    (hLookup :
      ∀ k, c'.mSuspendedEffects.lookup k = c.mSuspendedEffects.lookup k ∨
        c'.mSuspendedEffects.lookup k = lower (c.mSuspendedEffects.lookup k) ∨
        c'.mSuspendedEffects.lookup k = none) :
    c'.Counted := by
  intro k d hSome
  rcases hLookup k with hSame | hLower | hNone
  · rw [hSame] at hSome
    exact h k d hSome
  · rw [hLower] at hSome
    rcases Option.bind_eq_some_iff.mp hSome with ⟨e, hE, hD⟩
    split at hD
    · cases hD
    · cases hD
      exact ⟨by simp only; omega, (h k e hE).2⟩
  · rw [hNone] at hSome
    cases hSome

/- The count after one reference less. -/
theorem Counted.refCount_lower (h : c.Counted) (k : Int) :
    ((lower (c.mSuspendedEffects.lookup k)).map (fun d => d.mRefCount)).getD 0 =
      if c.refCount k = 0 then 0 else c.refCount k - 1 := by
  unfold EffectChain.refCount lower
  cases hLookup : c.mSuspendedEffects.lookup k with
  | some d =>
    have hPos := (h k d hLookup).1
    simp only [Option.bind_some, Option.map_some, Option.getD_some]
    have hNe : ¬ d.mRefCount = 0 := by omega
    rw [if_neg hNe]
    by_cases hLast : d.mRefCount ≤ 1
    · rw [if_pos hLast]
      simp only [Option.map_none, Option.getD_none]
      omega
    · rw [if_neg hLast]
      rfl
  | none => rfl

@[simp] theorem covered_setEffectSuspended_l (type : Uuid) (suspend : Bool) (k : Int) :
    (c.setEffectSuspended_l accepts type suspend).covered k = c.covered k := by
  unfold covered
  rw [setEffectSuspended_l_types]

@[simp] theorem covered_setEffectSuspendedAll_l (suspend : Bool) (k : Int) :
    (c.setEffectSuspendedAll_l accepts suspend).covered k = c.covered k := by
  unfold covered
  rw [setEffectSuspendedAll_l_types]

end EffectChain

namespace Nesting

variable {accepts : Nat → Bool} {s : Nesting}

theorem due_all : s.due kKeyForSuspendAll = s.all :=
  if_pos rfl

theorem due_of_ne {k : Int} (hKey : k ≠ kKeyForSuspendAll) :
    s.due k = s.requested k + if 0 < s.all then s.chain.covered k else 0 :=
  if_neg hKey

/- The count of a key is all that is left to show of it. -/
theorem Inv.of_counts (hCounted : s.chain.Counted)
    (hAll : s.chain.refCount kKeyForSuspendAll = s.all)
    (hType :
      ∀ k, k ≠ kKeyForSuspendAll →
        s.chain.refCount k =
          (s.requested k : Int) + ((if 0 < s.all then s.chain.covered k else 0 : Nat) : Int))
    (hCovered : 0 < s.all → s.chain.covered kKeyForSuspendAll = 0) : s.Inv where
  counted := hCounted
  due k := by
    by_cases hKey : k = kKeyForSuspendAll
    · rw [hKey, due_all, hAll]
    · rw [due_of_ne hKey, hType k hKey]
      push_cast
      rfl
  covered := hCovered

theorem Inv.type (h : s.Inv) {k : Int} (hKey : k ≠ kKeyForSuspendAll) :
    s.chain.refCount k =
      (s.requested k : Int) + ((if 0 < s.all then s.chain.covered k else 0 : Nat) : Int) := by
  rw [h.due, due_of_ne hKey]
  push_cast
  rfl

theorem Inv.suspend (h : s.Inv) {type : Uuid} (hKey : type.key ≠ kKeyForSuspendAll) :
    Inv
      { s with
        chain := s.chain.setEffectSuspended_l accepts type true
        requests := type :: s.requests } := by
  have hRaised := EffectChain.suspend_raised accepts h.counted type
  apply Inv.of_counts
  · exact hRaised.counted h.counted
  · rw [hRaised.refCount, h.due, due_all, if_neg (Ne.symm hKey)]
    simp
  · intro k hNe
    simp only [requested, List.countP_cons, EffectChain.covered_setEffectSuspended_l]
    rw [hRaised.refCount, h.type hNe, requested]
    simp only [decide_eq_true_eq, eq_comm (a := k)]
    push_cast
    omega
  · intro hAll
    rw [EffectChain.covered_setEffectSuspended_l]
    exact h.covered hAll

/- The requests of a key after one has been taken back. -/
theorem requested_erase {requests : List Uuid} {type : Uuid} (hIn : type ∈ requests) (k : Int) :
    requests.countP (fun t => t.key = k) =
      (requests.erase type).countP (fun t => t.key = k) + if type.key = k then 1 else 0 := by
  have hPerm := List.perm_cons_erase hIn
  rw [hPerm.countP_eq, List.countP_cons]
  simp

theorem Inv.restore (h : s.Inv) {type : Uuid} (hKey : type.key ≠ kKeyForSuspendAll)
    (hIn : type ∈ s.requests) :
    Inv
      { s with
        chain := s.chain.setEffectSuspended_l accepts type false
        requests := s.requests.erase type } := by
  have hLookup := EffectChain.lookup_restore accepts s.chain type
  have hCount :
      ∀ k, (s.chain.setEffectSuspended_l accepts type false ).refCount k =
        if k = type.key then if s.chain.refCount k = 0 then 0 else s.chain.refCount k - 1
        else s.chain.refCount k := by
    intro k
    unfold EffectChain.refCount
    rw [hLookup]
    by_cases hEq : k = type.key
    · rw [if_pos hEq, if_pos hEq]
      exact h.counted.refCount_lower k
    · rw [if_neg hEq, if_neg hEq]
  apply Inv.of_counts
  · apply h.counted.of_lower
    intro k
    rw [hLookup]
    by_cases hEq : k = type.key
    · rw [if_pos hEq]
      exact Or.inr (Or.inl rfl)
    · rw [if_neg hEq]
      exact Or.inl rfl
  · rw [hCount, if_neg (Ne.symm hKey), h.due, due_all]
  · intro k hNe
    have hErase := requested_erase hIn k
    have hType := h.type hNe
    simp only [requested, EffectChain.covered_setEffectSuspended_l] at hType ⊢
    rw [hCount]
    by_cases hEq : k = type.key
    · rw [if_pos hEq.symm] at hErase
      rw [if_pos hEq, if_neg (by omega)]
      omega
    · rw [if_neg (Ne.symm hEq)] at hErase
      rw [if_neg hEq]
      omega
  · intro hAll
    rw [EffectChain.covered_setEffectSuspended_l]
    exact h.covered hAll

theorem Inv.suspendAll (h : s.Inv) (hZero : s.chain.covered kKeyForSuspendAll = 0) :
    Inv
      { s with
        chain := s.chain.setEffectSuspendedAll_l accepts true
        all := s.all + 1 } := by
  have hAllCount := h.due kKeyForSuspendAll
  rw [due_all] at hAllCount
  cases hAll : s.chain.mSuspendedEffects.lookup kKeyForSuspendAll with
  | some d =>
    have hPos := (h.counted _ _ hAll).1
    have hD : d.mRefCount = s.all := by
      unfold EffectChain.refCount at hAllCount
      rw [hAll] at hAllCount
      exact hAllCount
    have hLookup := EffectChain.lookup_suspendAll accepts hAll (by omega)
    apply Inv.of_counts
    · intro k e hSome
      rw [hLookup] at hSome
      by_cases hKey : k = kKeyForSuspendAll
      · rw [if_pos hKey] at hSome
        cases hSome
        exact ⟨by simp only; omega, fun hNe => absurd hKey hNe⟩
      · rw [if_neg hKey] at hSome
        exact h.counted k e hSome
    · unfold EffectChain.refCount
      rw [hLookup, if_pos rfl]
      simp only [Option.map_some, Option.getD_some, hD]
      push_cast
      rfl
    · intro k hNe
      have hType := h.type hNe
      rw [if_pos (by omega)] at hType
      simp only [EffectChain.covered_setEffectSuspendedAll_l]
      rw [if_pos (by omega)]
      unfold EffectChain.refCount at hType ⊢
      rw [hLookup, if_neg hNe]
      exact hType
    · intro _
      rw [EffectChain.covered_setEffectSuspendedAll_l]
      exact hZero
  | none =>
    have hNoneYet : s.all = 0 := by
      have hCount := (h.counted.lookup_eq_none_iff _).mp hAll
      omega
    have hRaised := EffectChain.suspendAll_raised accepts h.counted hAll
    have hPut :
        ∀ k, (s.chain.putDesc kKeyForSuspendAll ⟨1, ⟨0, 0⟩, none⟩).refCount k =
          if k = kKeyForSuspendAll then 1
          else s.chain.refCount k := by
      intro k
      unfold EffectChain.refCount
      rw [EffectChain.lookup_putDesc]
      by_cases hKey : k = kKeyForSuspendAll
      · rw [if_pos hKey, if_pos hKey]
        rfl
      · rw [if_neg hKey, if_neg hKey]
    apply Inv.of_counts
    · exact hRaised.counted (h.counted.putDesc (Int.le_refl 1))
    · rw [hRaised.refCount, hPut, if_pos rfl, hZero, hNoneYet]
      rfl
    · intro k hNe
      have hType := h.type hNe
      rw [if_neg (by omega)] at hType
      simp only [EffectChain.covered_setEffectSuspendedAll_l]
      rw [if_pos (by omega), hRaised.refCount, hPut, if_neg hNe, hType]
      simp [requested]
    · intro _
      rw [EffectChain.covered_setEffectSuspendedAll_l]
      exact hZero

theorem Inv.restoreAll (h : s.Inv) (hSome : 0 < s.all)
    (hGuard :
      s.all = 1 →
        ∀ k ∈ s.chain.mSuspendedEffects.keys, k ≠ kKeyForSuspendAll → s.chain.covered k = 1) :
    Inv
      { s with
        chain := s.chain.setEffectSuspendedAll_l accepts false
        all := s.all - 1 } := by
  have hAllCount := h.due kKeyForSuspendAll
  rw [due_all] at hAllCount
  cases hAll : s.chain.mSuspendedEffects.lookup kKeyForSuspendAll with
  | none =>
    have hCount := (h.counted.lookup_eq_none_iff _).mp hAll
    omega
  | some d =>
    have hD : d.mRefCount = s.all := by
      unfold EffectChain.refCount at hAllCount
      rw [hAll] at hAllCount
      exact hAllCount
    have hLookup := EffectChain.lookup_restoreAll accepts h.counted hAll
    by_cases hLast : s.all = 1
    · -- the last suspension of all effects ends
      have hLe : d.mRefCount ≤ 1 := by omega
      simp only [if_pos hLe] at hLookup
      apply Inv.of_counts
      · apply h.counted.of_lower
        intro k
        rw [hLookup]
        by_cases hKey : k = kKeyForSuspendAll
        · rw [if_pos hKey]
          exact Or.inr (Or.inr rfl)
        · rw [if_neg hKey]
          exact Or.inr (Or.inl rfl)
      · unfold EffectChain.refCount
        rw [hLookup, if_pos rfl, hLast]
        rfl
      · intro k hNe
        have hType := h.type hNe
        rw [if_pos hSome] at hType
        have hLower := h.counted.refCount_lower k
        simp only
        rw [if_neg (by omega)]
        unfold EffectChain.refCount
        rw [hLookup, if_neg hNe, hLower]
        simp only [requested] at hType ⊢
        by_cases hZero : s.chain.refCount k = 0
        · rw [if_pos hZero]
          omega
        · have hIn : k ∈ s.chain.mSuspendedEffects.keys := by
            apply s.chain.mSuspendedEffects.mem_keys_iff.mpr
            apply Option.ne_none_iff_exists'.mp
            intro hNone
            exact hZero ((h.counted.lookup_eq_none_iff k).mp hNone)
          have hOne := hGuard hLast k hIn hNe
          rw [if_neg hZero]
          omega
      · intro hMore
        simp only at hMore
        omega
    · have hMore : ¬ d.mRefCount ≤ 1 := by omega
      simp only [if_neg hMore] at hLookup
      apply Inv.of_counts
      · intro k e hE
        rw [hLookup] at hE
        by_cases hKey : k = kKeyForSuspendAll
        · rw [if_pos hKey] at hE
          cases hE
          exact ⟨by simp only; omega, fun hNe => absurd hKey hNe⟩
        · rw [if_neg hKey] at hE
          exact h.counted k e hE
      · unfold EffectChain.refCount
        rw [hLookup, if_pos rfl]
        simp only [Option.map_some, Option.getD_some, hD]
        omega
      · intro k hNe
        have hType := h.type hNe
        rw [if_pos hSome] at hType
        simp only [EffectChain.covered_setEffectSuspendedAll_l]
        rw [if_pos (by omega)]
        unfold EffectChain.refCount at hType ⊢
        rw [hLookup, if_neg hNe]
        exact hType
      · intro _
        rw [EffectChain.covered_setEffectSuspendedAll_l]
        exact h.covered hSome

theorem Inv.init (c : EffectChain) : (Nesting.init c).Inv := by
  have hEmpty : ∀ k, (Nesting.init c).chain.mSuspendedEffects.lookup k = none := fun _ => rfl
  apply Inv.of_counts
  · intro k d hSome
    rw [hEmpty] at hSome
    cases hSome
  · unfold EffectChain.refCount
    rw [hEmpty]
    rfl
  · intro k _
    unfold EffectChain.refCount
    rw [hEmpty]
    rfl
  · intro hAll
    exact absurd hAll (Nat.lt_irrefl 0)

theorem Inv.step {a : SuspendAction} {s' : Nesting} (h : s.Inv) (hNests : s.Nests a)
    (hStep : step accepts s a = some s') : s'.Inv := by
  cases a with
  | setEffectSuspended_l type suspend =>
    cases suspend with
    | true =>
      cases hStep
      exact h.suspend hNests
    | false =>
      simp only [Nesting.step] at hStep
      split at hStep
      · rename_i hIn
        cases hStep
        exact h.restore hNests hIn
      · cases hStep
  | setEffectSuspendedAll_l suspend =>
    cases suspend with
    | true =>
      cases hStep
      exact h.suspendAll hNests
    | false =>
      simp only [Nesting.step] at hStep
      split at hStep
      · rename_i hSome
        cases hStep
        exact h.restoreAll hSome hNests
      · cases hStep

/- No request is for the key for all effects. -/
theorem requests_step {a : SuspendAction} {s' : Nesting}
    (h : ∀ type ∈ s.requests, type.key ≠ kKeyForSuspendAll) (hNests : s.Nests a)
    (hStep : step accepts s a = some s') : ∀ type ∈ s'.requests, type.key ≠ kKeyForSuspendAll := by
  cases a with
  | setEffectSuspended_l type suspend =>
    cases suspend with
    | true =>
      cases hStep
      intro t hIn
      rcases List.mem_cons.mp hIn with hEq | hOld
      · rw [hEq]
        exact hNests
      · exact h t hOld
    | false =>
      simp only [Nesting.step] at hStep
      split at hStep
      · cases hStep
        intro t hIn
        exact h t (List.mem_of_mem_erase hIn)
      · cases hStep
  | setEffectSuspendedAll_l suspend =>
    cases suspend with
    | true =>
      cases hStep
      exact h
    | false =>
      simp only [Nesting.step] at hStep
      split at hStep
      · cases hStep
        exact h
      · cases hStep

/- A type stays suspended while a request for it is left. -/
theorem Inv.requested_suspended (h : s.Inv) {type : Uuid} (hIn : type ∈ s.requests)
    (hKey : type.key ≠ kKeyForSuspendAll) : s.chain.mSuspendedEffects.lookup type.key ≠ none := by
  have hSome : 0 < s.requested type.key := List.countP_pos_iff.mpr ⟨type, hIn, decide_eq_true rfl⟩
  rw [Ne, h.counted.lookup_eq_none_iff, h.type hKey]
  omega

/- A covered type stays suspended while all effects are. -/
theorem Inv.covered_suspended (h : s.Inv) (hAll : 0 < s.all) {type : Uuid}
    (hIn : type ∈ s.chain.eligibleTypes) : s.chain.mSuspendedEffects.lookup type.key ≠ none := by
  have hSome : 0 < s.chain.covered type.key :=
    List.countP_pos_iff.mpr ⟨type, hIn, decide_eq_true rfl⟩
  have hKey : type.key ≠ kKeyForSuspendAll := by
    intro hEq
    rw [hEq, h.covered hAll] at hSome
    exact Nat.lt_irrefl 0 hSome
  rw [Ne, h.counted.lookup_eq_none_iff, h.type hKey, if_pos hAll]
  omega

/-
  In every nested run the references of each key are those that are due, so a type that is
  requested, or covered while all effects are suspended, has an entry. A pair of a suspension of all
  effects and its end restores the map exactly when all effects are suspended already or the chain
  is restorable.
-/
theorem exec_nesting {c : EffectChain} {actions : List SuspendAction}
    (hRun : Run.exec (Run.guarded Nests (step accepts)) (init c) actions = some s) :
    (∀ k, s.chain.refCount k = s.due k) ∧
      (∀ type ∈ s.requests, s.chain.mSuspendedEffects.lookup type.key ≠ none) ∧
      (0 < s.all →
        s.chain.mSuspendedEffects.lookup kKeyForSuspendAll ≠ none ∧
          ∀ type ∈ s.chain.eligibleTypes, s.chain.mSuspendedEffects.lookup type.key ≠ none) ∧
      (((s.chain.setEffectSuspendedAll_l accepts true ).setEffectSuspendedAll_l accepts false
          ).mSuspendedEffects = s.chain.mSuspendedEffects ↔
        0 < s.all ∨ s.chain.Restorable) := by
  have hInv : s.Inv :=
    Run.exec_invariant
      (fun _ _ _ h hStep =>
        h.step (Run.guarded_eq_some.mp hStep).1 (Run.guarded_eq_some.mp hStep).2)
      hRun (Inv.init c)
  have hKeys : ∀ type ∈ s.requests, type.key ≠ kKeyForSuspendAll :=
    Run.exec_invariant
      (fun _ _ _ h hStep =>
        requests_step h (Run.guarded_eq_some.mp hStep).1 (Run.guarded_eq_some.mp hStep).2)
      hRun (fun _ hIn => absurd hIn List.not_mem_nil)
  have hAll : s.chain.mSuspendedEffects.lookup kKeyForSuspendAll ≠ none ↔ 0 < s.all := by
    rw [Ne, hInv.counted.lookup_eq_none_iff, hInv.due, due_all]
    omega
  refine ⟨hInv.due, ?_, ?_, ?_⟩
  · intro type hIn
    exact hInv.requested_suspended hIn (hKeys type hIn)
  · intro hSome
    exact ⟨hAll.mpr hSome, fun type hIn => hInv.covered_suspended hSome hIn⟩
  · rw [EffectChain.restoreAll_suspendAll_iff accepts hInv.counted, hAll]

/- A chain with an enabled effect. -/
def reverberant : EffectChain where
  mSessionId := 3
  mInBuffer := 0
  mOutBuffer := 0
  mEffects := [
    { id := 1
      mDescriptor := ⟨⟨7, 0⟩, .insert, .any⟩
      mPinned := false
      mState := .ACTIVE
      mSuspended := false
      mHandles := []
      inBuffer := 0
      outBuffer := 0
      accessMode := .write }]
  mSuspendedEffects := .empty

/- Its type is suspended by itself and with all effects. -/
def overlapping : List SuspendAction :=
  [.setEffectSuspended_l ⟨7, 0⟩ true, .setEffectSuspendedAll_l true, .setEffectSuspendedAll_l false,
    .setEffectSuspendedAll_l true, .setEffectSuspended_l ⟨7, 0⟩ false]

theorem exec_nesting_overlapping :
    ∃ s,
      Run.exec (Run.guarded Nests (step fun _ => true)) (init reverberant) overlapping = some s ∧
        s.chain.mSuspendedEffects.lookup 7 ≠ none := by
  have hSome :
      (Run.exec (Run.guarded Nests (step fun _ => true))
          (init reverberant) overlapping).map (fun s => (s.all, s.chain.eligibleTypes)) =
        some (1, [⟨7, 0⟩]) := by
    decide
  rcases Option.map_eq_some_iff.mp hSome with ⟨s, hRun, hEq⟩
  refine ⟨s, hRun, ?_⟩
  have hAll : s.all = 1 := congrArg Prod.fst hEq
  have hTypes : s.chain.eligibleTypes = [⟨7, 0⟩] := congrArg Prod.snd hEq
  rcases exec_nesting hRun with ⟨-, -, hCovered, -⟩
  exact (hCovered (by omega)).2 ⟨7, 0⟩ (by rw [hTypes]; exact List.mem_singleton.mpr rfl)

/-
  A type that no effect of the chain has is suspended. The end of a suspension of all effects takes
  its reference, although the request for it is still there.
-/
def uncovered : List SuspendAction :=
  [.setEffectSuspended_l ⟨9, 0⟩ true, .setEffectSuspendedAll_l true, .setEffectSuspendedAll_l false]

theorem exec_nesting_uncovered :
    ∃ s,
      Run.exec (step fun _ => true) (init reverberant) uncovered = some s ∧ ⟨9, 0⟩ ∈ s.requests ∧
        s.chain.mSuspendedEffects.lookup 9 = none := by
  have hSome :
      (Run.exec (step fun _ => true) (init reverberant)
          uncovered).map (fun s => (s.requests, s.chain.mSuspendedEffects.lookup 9)) =
        some ([⟨9, 0⟩], none) := by
    decide
  rcases Option.map_eq_some_iff.mp hSome with ⟨s, hRun, hEq⟩
  have hRequests : s.requests = [⟨9, 0⟩] := congrArg Prod.fst hEq
  refine ⟨s, hRun, ?_, congrArg Prod.snd hEq⟩
  rw [hRequests]
  exact List.mem_singleton.mpr rfl

end Nesting

end Effects

end FrameworksAv
