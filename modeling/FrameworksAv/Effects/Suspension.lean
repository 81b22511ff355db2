import FrameworksAv.Effects.Chain

/-
  Suspended effects of a chain (`EffectChain::setEffectSuspended_l` and `setEffectSuspendedAll_l`).

  The map of suspended effects has an entry for each suspended type, with the low part of the type's
  UUID as its key, and one for all effects under the key 0. Reference counts do not overflow.

  Main declarations:
    * `EffectChain.setEffectSuspended_l`
    * `EffectChain.setEffectSuspendedAll_l`
    * `EffectChain.lookup_restore`
    * `EffectChain.lookup_restoreAll`
-/

--
-- Chain
--

namespace FrameworksAv

namespace Effects

/- The key of a type, an `int`. -/
def Uuid.key (type : Uuid) : Int := type.timeLow.toInt

def kKeyForSuspendAll : Int := 0

/- `AUDIO_SESSION_OUTPUT_MIX`. -/
def AUDIO_SESSION_OUTPUT_MIX : Int := 0

def SL_IID_VISUALIZATION : Uuid :=
  ⟨0xe46b26a0, 0xdddd11db8afd0002a5d5c51b⟩

def SL_IID_VOLUME : Uuid :=
  ⟨0x09e8ede0, 0xddde11dbb4f60002a5d5c51b⟩

namespace EffectModule

/- What a suspension does to an effect that is enabled. -/
def suspend (e : EffectModule) : EffectModule :=
  (e.setSuspended true).setEnabled_l true false

/-
  What the end of a suspension does to it: the effect is again what its controlling client asked
  for.
-/
def restore (accepts : Bool) (e : EffectModule) : EffectModule :=
  let e := e.setSuspended false
  match (controlHandle_l e.mHandles).bind (fun k => e.mHandles[k]?)
  with
  | none => e
  | some handle =>
    if handle.mDestroyed = false then setEnabled_l accepts e handle.mEnabled
    else e

end EffectModule

namespace EffectChain

/- Auxiliary effects, visualizer and volume are never suspended on the output mix. -/
def isEffectEligibleForSuspend (mSessionId : Int) (desc : Descriptor) : Bool :=
  ! decide
      (mSessionId = AUDIO_SESSION_OUTPUT_MIX ∧
        (desc.mode = .auxiliary ∨ desc.type = SL_IID_VISUALIZATION ∨ desc.type = SL_IID_VOLUME))

def getSuspendEligibleEffects (c : EffectChain) : List EffectModule :=
  c.mEffects.filter (fun e =>
    isEffectEligibleForSuspend c.mSessionId e.mDescriptor)

def getEffectFromType_l (c : EffectChain) (type : Uuid) : Option EffectModule :=
  c.mEffects.find? (fun e => e.mDescriptor.type = type)

def getEffectIfEnabled (c : EffectChain) (type : Uuid) : Option EffectModule :=
  (c.getEffectFromType_l type).bind (fun e => if e.isEnabled then some e else none)

/- Change the effect at an address. -/
def changeEffect (c : EffectChain) (effect : Nat) (f : EffectModule → EffectModule) : EffectChain :=
  { c with
    mEffects := c.mEffects.map (fun e => if e.id = effect then f e else e) }

/- Add an entry, or replace that of its key. -/
def putDesc (c : EffectChain) (k : Int) (desc : SuspendedEffectDesc) : EffectChain :=
  { c with
    mSuspendedEffects := c.mSuspendedEffects.add k desc }

def dropDesc (c : EffectChain) (k : Int) : EffectChain :=
  { c with mSuspendedEffects := c.mSuspendedEffects.remove k }

/- `accepts` is the policy's answer for each effect. -/
def setEffectSuspended_l (accepts : Nat → Bool) (c : EffectChain) (type : Uuid)
    (suspend : Bool) : EffectChain :=
  match suspend with
  | true =>
    let desc := (c.mSuspendedEffects.lookup type.key).getD ⟨0, type, none⟩
    let bumped := { desc with mRefCount := desc.mRefCount + 1 }
    if desc.mRefCount = 0 then
      match c.getEffectIfEnabled type with
      | some effect =>
        (c.putDesc type.key { bumped with mEffect := some effect.id }
          ).changeEffect effect.id EffectModule.suspend
      | none => c.putDesc type.key bumped
    else c.putDesc type.key bumped
  | false =>
    match c.mSuspendedEffects.lookup type.key with
    | none => c
    | some desc =>
      let mRefCount := if desc.mRefCount ≤ 0 then 1 else desc.mRefCount
      if mRefCount - 1 = 0 then
        match desc.mEffect with
        | some effect =>
          (c.changeEffect effect (EffectModule.restore (accepts effect)) ).dropDesc type.key
        | none => c.dropDesc type.key
      else c.putDesc type.key { desc with mRefCount := mRefCount - 1 }

/- The types of the entries other than that for all effects. -/
def suspendedTypes (c : EffectChain) : List Uuid :=
  (c.mSuspendedEffects.entries.filter (fun e => e.1 ≠ kKeyForSuspendAll)).map (fun e => e.2.mType)

/- `mType` of a new entry for all effects is never set. -/
def setEffectSuspendedAll_l (accepts : Nat → Bool) (c : EffectChain)
    (suspend : Bool) : EffectChain :=
  match suspend with
  | true =>
    let desc := (c.mSuspendedEffects.lookup kKeyForSuspendAll).getD ⟨0, ⟨0, 0⟩, none⟩
    let c' := c.putDesc kKeyForSuspendAll { desc with mRefCount := desc.mRefCount + 1 }
    if desc.mRefCount = 0 then
      (c.getSuspendEligibleEffects.map (fun e => e.mDescriptor.type)).foldl
        (fun c type => c.setEffectSuspended_l accepts type true) c'
    else c'
  | false =>
    match c.mSuspendedEffects.lookup kKeyForSuspendAll with
    | none => c
    | some desc =>
      let mRefCount := if desc.mRefCount ≤ 0 then 1 else desc.mRefCount
      let c' := c.putDesc kKeyForSuspendAll { desc with mRefCount := mRefCount - 1 }
      if mRefCount - 1 = 0 then
        (c'.suspendedTypes.foldl
            (fun c type =>
              c.setEffectSuspended_l accepts type false)
            c').dropDesc kKeyForSuspendAll
      else c'

--
-- One Type
--

variable (accepts : Nat → Bool)
variable {c : EffectChain}

/- Every entry is counted, and has the key of its type. -/
def Counted (c : EffectChain) : Prop :=
  ∀ k d, c.mSuspendedEffects.lookup k = some d →
    1 ≤ d.mRefCount ∧ (k ≠ kKeyForSuspendAll → d.mType.key = k)

/- The reference count of a key. -/
def refCount (c : EffectChain) (k : Int) : Int :=
  ((c.mSuspendedEffects.lookup k).map (fun d => d.mRefCount)).getD 0

/- One reference less. -/
def lower (d : Option SuspendedEffectDesc) : Option SuspendedEffectDesc :=
  d.bind (fun d =>
    if d.mRefCount ≤ 1 then none
    else some { d with mRefCount := d.mRefCount - 1 })

/- The entries of another chain, with more references: so many for each key. -/
def Raised (c c' : EffectChain) (more : Int → Nat) : Prop :=
  ∀ k,
    (∀ d, c.mSuspendedEffects.lookup k = some d →
      c'.mSuspendedEffects.lookup k = some { d with mRefCount := d.mRefCount + more k }) ∧
    (c.mSuspendedEffects.lookup k = none → (more k = 0 → c'.mSuspendedEffects.lookup k = none) ∧
      (more k ≠ 0 →
        ∃ d, c'.mSuspendedEffects.lookup k = some d ∧ d.mRefCount = more k ∧ d.mType.key = k))

theorem Raised.refl (c : EffectChain) : Raised c c (fun _ => 0) := by
  intro k
  refine ⟨?_, fun hNone => ⟨fun _ => hNone, fun h => absurd rfl h⟩⟩
  intro d hSome
  rw [hSome]
  simp

theorem Raised.trans {c₁ c₂ c₃ : EffectChain} {m n : Int → Nat} (h₁ : Raised c₁ c₂ m)
    (h₂ : Raised c₂ c₃ n) : Raised c₁ c₃ (fun k => m k + n k) := by
  intro k
  dsimp only
  constructor
  · intro d hSome
    rw [(h₂ k).1 _ ((h₁ k).1 d hSome)]
    congr 2
    push_cast
    omega
  · intro hNone
    by_cases hZero : m k = 0
    · rcases (h₂ k).2 (((h₁ k).2 hNone).1 hZero) with ⟨hNothing, hNew⟩
      refine ⟨fun hSum => hNothing (by omega), fun hSum => ?_⟩
      rcases hNew (by omega) with ⟨d, hSome, hCount, hKey⟩
      exact ⟨d, hSome, by rw [hCount, hZero, Nat.zero_add], hKey⟩
    · rcases ((h₁ k).2 hNone).2 hZero with ⟨d, hSome, hCount, hKey⟩
      refine ⟨fun hSum => absurd hSum (by omega), fun _ => ?_⟩
      refine ⟨_, (h₂ k).1 d hSome, ?_, hKey⟩
      simp only [hCount]
      push_cast
      rfl

theorem lookup_putDesc (c : EffectChain) (k l : Int) (d : SuspendedEffectDesc) :
    (c.putDesc k d).mSuspendedEffects.lookup l = if l = k then some d
      else c.mSuspendedEffects.lookup l :=
  c.mSuspendedEffects.lookup_add k l d

theorem lookup_dropDesc (c : EffectChain) (k l : Int) :
    (c.dropDesc k).mSuspendedEffects.lookup l =
      if l = k then none else c.mSuspendedEffects.lookup l :=
  c.mSuspendedEffects.lookup_remove k l

/- A changed effect does not change the map. -/
@[simp] theorem changeEffect_map (c : EffectChain) (effect : Nat)
    (f : EffectModule → EffectModule) :
    (c.changeEffect effect f).mSuspendedEffects = c.mSuspendedEffects :=
  rfl

/- A suspension adds one reference to its type. -/
theorem suspend_raised (hCounted : c.Counted) (type : Uuid) :
    Raised c (c.setEffectSuspended_l accepts type true)
      (fun k => if k = type.key then 1 else 0) := by
  intro k
  unfold setEffectSuspended_l
  cases hLookup : c.mSuspendedEffects.lookup type.key with
  | some d =>
    have hPos := (hCounted _ _ hLookup).1
    simp only [Option.getD_some]
    rw [if_neg (by omega), lookup_putDesc]
    by_cases hKey : k = type.key
    · rw [if_pos hKey, if_pos hKey, hKey, hLookup]
      refine ⟨?_, nofun⟩
      intro e hSome
      cases hSome
      rfl
    · rw [if_neg hKey, if_neg hKey]
      refine ⟨?_, fun hNone =>
        ⟨fun _ => hNone, fun h => absurd rfl h⟩⟩
      intro e hSome
      rw [hSome]
      simp
  | none =>
    simp only [Option.getD_none, if_true]
    have hAdded :
        ∀ (c' : EffectChain) (d : SuspendedEffectDesc),
          (∀ l, c'.mSuspendedEffects.lookup l = if l = type.key then some d
            else c.mSuspendedEffects.lookup l) →
          d.mRefCount = 1 → d.mType = type →
          (∀ e, c.mSuspendedEffects.lookup k = some e →
            c'.mSuspendedEffects.lookup k =
              some { e with
                mRefCount := e.mRefCount + ((if k = type.key then 1 else 0 : Nat) : Int) }) ∧
          (c.mSuspendedEffects.lookup k = none →
            ((if k = type.key then 1 else 0) = 0 → c'.mSuspendedEffects.lookup k = none) ∧
            ((if k = type.key then 1 else 0) ≠ 0 →
              ∃ e, c'.mSuspendedEffects.lookup k = some e ∧
                e.mRefCount = ((if k = type.key then 1 else 0 : Nat) : Int) ∧
                e.mType.key = k)) := by
      intro c' d hAll hOne hType
      rw [hAll]
      by_cases hKey : k = type.key
      · simp only [if_pos hKey]
        rw [hKey, hLookup]
        refine ⟨nofun, fun _ => ⟨nofun, fun _ => ?_⟩⟩
        exact ⟨d, rfl, hOne, by rw [hType]⟩
      · simp only [if_neg hKey]
        refine ⟨?_, fun hNone =>
          ⟨fun _ => hNone, fun h => absurd rfl h⟩⟩
        intro e hSome
        rw [hSome]
        simp
    split
    · exact hAdded _ _ (fun l => lookup_putDesc c _ l _) rfl rfl
    · exact hAdded _ _ (fun l => lookup_putDesc c _ l _) rfl rfl

/- The end of a suspension takes one reference. -/
theorem lookup_restore (c : EffectChain) (type : Uuid) (k : Int) :
    (c.setEffectSuspended_l accepts type false ).mSuspendedEffects.lookup k =
      if k = type.key then lower (c.mSuspendedEffects.lookup k)
      else c.mSuspendedEffects.lookup k := by
  unfold setEffectSuspended_l lower
  cases hLookup : c.mSuspendedEffects.lookup type.key with
  | none =>
    by_cases hKey : k = type.key
    · rw [if_pos hKey, hKey, hLookup]
      rfl
    · rw [if_neg hKey]
  | some d =>
    simp only
    by_cases hLast : (if d.mRefCount ≤ 0 then 1 else d.mRefCount) - 1 = 0
    · rw [if_pos hLast]
      have hLe : d.mRefCount ≤ 1 := by
        split at hLast <;> omega
      have hDropped :
          (match d.mEffect with
            | some effect =>
              (c.changeEffect effect (EffectModule.restore (accepts effect)) ).dropDesc type.key
            | none => c.dropDesc type.key ).mSuspendedEffects.lookup k = if k = type.key then none
            else c.mSuspendedEffects.lookup k := by
        split
        · exact lookup_dropDesc _ _ _
        · exact lookup_dropDesc _ _ _
      rw [hDropped]
      by_cases hKey : k = type.key
      · rw [if_pos hKey, if_pos hKey, hKey, hLookup, Option.bind_some, if_pos hLe]
      · rw [if_neg hKey, if_neg hKey]
    · rw [if_neg hLast]
      have hMore : ¬ d.mRefCount ≤ 1 := by
        split at hLast <;> omega
      have hCount : (if d.mRefCount ≤ 0 then 1 else d.mRefCount) = d.mRefCount := by
        rw [if_neg (by omega)]
      rw [hCount, lookup_putDesc]
      by_cases hKey : k = type.key
      · rw [if_pos hKey, if_pos hKey, hKey, hLookup, Option.bind_some, if_neg hMore]
      · rw [if_neg hKey, if_neg hKey]

--
-- All Types
--

/- More references keep the entries counted. -/
theorem Raised.counted {c' : EffectChain} {more : Int → Nat} (h : Raised c c' more)
    (hCounted : c.Counted) : c'.Counted := by
  intro k d hSome
  cases hOld : c.mSuspendedEffects.lookup k with
  | some e =>
    have hPos := hCounted k e hOld
    have hNew := (h k).1 e hOld
    rw [hSome] at hNew
    cases hNew
    exact ⟨by simp only; omega, hPos.2⟩
  | none =>
    by_cases hZero : more k = 0
    · rw [((h k).2 hOld).1 hZero] at hSome
      cases hSome
    · rcases ((h k).2 hOld).2 hZero with ⟨e, hNew, hCount, hKey⟩
      rw [hSome] at hNew
      cases hNew
      exact ⟨by omega, fun _ => hKey⟩

/- Several suspensions, one after the other. -/
theorem suspends_raised (types : List Uuid) (hCounted : c.Counted) :
    Raised c (types.foldl (fun c type => c.setEffectSuspended_l accepts type true) c)
      (fun k => types.countP (fun type => type.key = k)) := by
  induction types generalizing c with
  | nil => exact Raised.refl c
  | cons type types ih =>
    have hOne := suspend_raised accepts hCounted type
    have hAll := hOne.trans (ih (hOne.counted hCounted))
    simp only [List.countP_cons, List.foldl_cons]
    have hMore :
        (fun k : Int =>
            (if k = type.key then 1 else 0) + types.countP (fun type => type.key = k)) =
          fun k =>
            types.countP (fun type => type.key = k) +
              if decide (type.key = k) = true then 1 else 0 := by
      funext k
      rw [Nat.add_comm]
      congr 1
      by_cases hKey : k = type.key
      · rw [if_pos hKey, if_pos (decide_eq_true hKey.symm)]
      · rw [if_neg hKey, if_neg (by simpa using Ne.symm hKey)]
    rw [← hMore]
    exact hAll

/- Several ends of suspensions, of different types. -/
theorem lookup_restores {types : List Uuid} (hNodup : (types.map Uuid.key).Nodup) (c : EffectChain)
    (k : Int) :
    (types.foldl (fun c type => c.setEffectSuspended_l accepts type false)
        c).mSuspendedEffects.lookup k =
      if k ∈ types.map Uuid.key then lower (c.mSuspendedEffects.lookup k)
      else c.mSuspendedEffects.lookup k := by
  induction types generalizing c with
  | nil => rfl
  | cons type types ih =>
    rw [List.map_cons, List.nodup_cons] at hNodup
    rw [List.foldl_cons, ih hNodup.2, lookup_restore]
    by_cases hKey : k = type.key
    · have hNot : k ∉ types.map Uuid.key := by
        rw [hKey]
        exact hNodup.1
      rw [if_neg hNot, if_pos hKey, List.map_cons, if_pos (List.mem_cons.mpr (Or.inl hKey))]
    · rw [if_neg hKey, List.map_cons]
      simp only [List.mem_cons, hKey, false_or]

/- The types of the effects that a suspension of all covers. -/
def eligibleTypes (c : EffectChain) : List Uuid :=
  c.getSuspendEligibleEffects.map (fun e => e.mDescriptor.type)

/- How many effects it covers under a key. -/
def covered (c : EffectChain) (k : Int) : Nat :=
  c.eligibleTypes.countP (fun type => type.key = k)

/- Another entry for all effects keeps the others counted. -/
theorem Counted.putDesc (h : c.Counted) {d : SuspendedEffectDesc} (hPos : 1 ≤ d.mRefCount) :
    (c.putDesc kKeyForSuspendAll d).Counted := by
  intro k e hSome
  rw [lookup_putDesc] at hSome
  by_cases hKey : k = kKeyForSuspendAll
  · rw [if_pos hKey] at hSome
    cases hSome
    exact ⟨hPos, fun hNe => absurd hKey hNe⟩
  · rw [if_neg hKey] at hSome
    exact h k e hSome

/- A first suspension of all effects. -/
theorem suspendAll_raised (hCounted : c.Counted)
    (hNone : c.mSuspendedEffects.lookup kKeyForSuspendAll = none) :
    Raised (c.putDesc kKeyForSuspendAll ⟨1, ⟨0, 0⟩, none⟩)
      (c.setEffectSuspendedAll_l accepts true) c.covered := by
  unfold setEffectSuspendedAll_l
  simp only [hNone, Option.getD_none, if_true]
  exact suspends_raised accepts _ (hCounted.putDesc (Int.le_refl 1))

/- A further suspension of all effects. -/
theorem lookup_suspendAll {d : SuspendedEffectDesc}
    (hSome : c.mSuspendedEffects.lookup kKeyForSuspendAll = some d) (hCount : d.mRefCount ≠ 0)
    (k : Int) :
    (c.setEffectSuspendedAll_l accepts true ).mSuspendedEffects.lookup k =
      if k = kKeyForSuspendAll then some { d with mRefCount := d.mRefCount + 1 }
      else c.mSuspendedEffects.lookup k := by
  unfold setEffectSuspendedAll_l
  simp only [hSome, Option.getD_some, if_neg hCount]
  exact lookup_putDesc c _ k _

/- The keys of the suspended types. -/
theorem suspendedTypes_keys
    (hKeys :
      ∀ k d, c.mSuspendedEffects.lookup k = some d → k ≠ kKeyForSuspendAll → d.mType.key = k) :
    c.suspendedTypes.map Uuid.key =
      c.mSuspendedEffects.keys.filter (fun k => k ≠ kKeyForSuspendAll) := by
  unfold suspendedTypes KeyedVector.keys
  rw [List.map_map, List.filter_map]
  apply List.map_congr_left
  rintro ⟨k, d⟩ hMem
  rcases List.mem_filter.mp hMem with ⟨hIn, hNe⟩
  exact hKeys k d (c.mSuspendedEffects.lookup_eq_some_iff.mpr hIn) (of_decide_eq_true hNe)

/- The end of a suspension of all effects. -/
theorem lookup_restoreAll (hCounted : c.Counted) {d : SuspendedEffectDesc}
    (hSome : c.mSuspendedEffects.lookup kKeyForSuspendAll = some d) (k : Int) :
    (c.setEffectSuspendedAll_l accepts false ).mSuspendedEffects.lookup k =
      if d.mRefCount ≤ 1 then if k = kKeyForSuspendAll then none
        else lower (c.mSuspendedEffects.lookup k)
      else if k = kKeyForSuspendAll then some { d with mRefCount := d.mRefCount - 1 }
      else c.mSuspendedEffects.lookup k := by
  have hPos := (hCounted _ _ hSome).1
  have hCount : (if d.mRefCount ≤ 0 then 1 else d.mRefCount) = d.mRefCount := if_neg (by omega)
  unfold setEffectSuspendedAll_l
  simp only [hSome, hCount]
  by_cases hLast : d.mRefCount ≤ 1
  · rw [if_pos (by omega), if_pos hLast, lookup_dropDesc]
    by_cases hKey : k = kKeyForSuspendAll
    · rw [if_pos hKey, if_pos hKey]
    · rw [if_neg hKey, if_neg hKey]
      generalize hPut : c.putDesc kKeyForSuspendAll { d with mRefCount := d.mRefCount - 1 } = c'
      have hOthers :
          ∀ l, l ≠ kKeyForSuspendAll →
            c'.mSuspendedEffects.lookup l = c.mSuspendedEffects.lookup l := by
        intro l hl
        rw [← hPut, lookup_putDesc, if_neg hl]
      have hTypes := suspendedTypes_keys (c := c') (by
        intro l e hl hNe
        rw [hOthers l hNe] at hl
        exact (hCounted l e hl).2 hNe)
      have hNodup : (c'.suspendedTypes.map Uuid.key).Nodup := by
        rw [hTypes]
        exact c'.mSuspendedEffects.keys_nodup.filter _
      rw [lookup_restores accepts hNodup, hOthers k hKey, hTypes]
      by_cases hIn : k ∈ c'.mSuspendedEffects.keys.filter (fun k => k ≠ kKeyForSuspendAll)
      · rw [if_pos hIn]
      · rw [if_neg hIn]
        have hNone : c.mSuspendedEffects.lookup k = none := by
          rw [← hOthers k hKey]
          cases hLookup : c'.mSuspendedEffects.lookup k with
          | none => rfl
          | some e =>
            refine absurd (List.mem_filter.mpr ⟨?_, ?_⟩) hIn
            · exact c'.mSuspendedEffects.mem_keys_iff.mpr ⟨e, hLookup⟩
            · exact decide_eq_true hKey
        rw [hNone]
        rfl
  · rw [if_neg (by omega), if_neg hLast]
    exact lookup_putDesc c _ k _

end EffectChain

end Effects

end FrameworksAv
