import FrameworksAv.AMessage.Message
import FrameworksAv.Base.Run
import Mathlib.Data.Finset.Card

/-
  The items of a message as a map of at most 64 names.

  Main declarations:
    * `Message.findItem`
    * `Message.set`
    * `exec_items`
-/

--
-- Lookups
--

namespace FrameworksAv

namespace AMessage

variable {w : Nat}

namespace Message

/- The value of an item, if it is of a type. -/
def findItem (m : Message w) (name : List Byte) (type : ItemType) : Option (Value w) :=
  (m.mItems[m.findItemIndex name]?).bind (fun item =>
    if item.u.type = type then some item.u else none)

def contains (m : Message w) (name : List Byte) : Bool :=
  m.findItemIndex name < m.mItems.length

/- A setter, with a name and a value. -/
def set (m : Message w) (call : List Byte × Value w) : Option (Message w) :=
  m.setItem call.1 call.2

def names (m : Message w) : List (List Byte) :=
  m.mItems.map Item.mName

/- What the item of a name holds. -/
def valueOf (m : Message w) (name : List Byte) : Option (Value w) :=
  (m.mItems[m.findItemIndex name]?).map Item.u

end Message

/- The value that was set last for a name. -/
def lastSet (calls : List (List Byte × Value w)) (name : List Byte) : Option (Value w) :=
  (calls.reverse.find? (fun call => call.1 = name)).map Prod.snd

--
-- One Call
--

section Items

variable (items : List (Item (Value w)))
variable (name : List Byte)

theorem findIdx_lt_iff :
    items.findIdx (fun item => item.mName = name) < items.length ↔
      name ∈ items.map Item.mName := by
  rw [List.findIdx_lt_length, List.mem_map]
  simp

/- A value in the place of the first item of a name. -/
theorem find?_set (u : Value w) (other : List Byte) :
    name ∈ items.map Item.mName →
      ((items.set (items.findIdx (fun item => item.mName = name)) ⟨name, u⟩).find?
          (fun item => item.mName = other)).map Item.u =
        if other = name then some u
        else (items.find? (fun item => item.mName = other)).map Item.u := by
  induction items with
  | nil => exact fun hMem => absurd hMem List.not_mem_nil
  | cons item items ih =>
    intro hMem
    rw [List.findIdx_cons]
    by_cases hHere : item.mName = name
    · simp only [hHere, decide_true, cond_true, List.set_cons_zero, List.find?_cons]
      by_cases hOther : other = name
      · simp [hOther]
      · simp [hOther, Ne.symm hOther]
    · have hRest : name ∈ items.map Item.mName := by
        rcases List.mem_cons.mp hMem with hSame | hRest
        · exact absurd hSame.symm hHere
        · exact hRest
      simp only [hHere, decide_false, cond_false, List.set_cons_succ, List.find?_cons]
      by_cases hOther : item.mName = other
      · have hNe : other ≠ name := fun hSame => hHere (hOther.trans hSame)
        simp [hOther, hNe]
      · simp only [hOther, decide_false]
        exact ih hRest

end Items

namespace Message

variable {m n : Message w} {name : List Byte} {u : Value w}

/- A setter changes the value of its name, and adds the name unless it is there. -/
theorem setItem_eq_some (hSet : m.setItem name u = some n) :
    n.names = (if name ∈ m.names then m.names else m.names ++ [name]) ∧
      ∀ other, n.valueOf other = if other = name then some u else m.valueOf other := by
  unfold setItem at hSet
  unfold names valueOf findItemIndex at *
  simp only [← List.find?_eq_getElem?_findIdx, findIdx_lt_iff] at hSet ⊢
  split at hSet
  · rename_i hMem
    cases hSet
    dsimp only
    rw [if_pos hMem]
    refine ⟨?_, fun other => find?_set m.mItems name u other hMem⟩
    have hIndex := (findIdx_lt_iff m.mItems name).mpr hMem
    have hThere := List.findIdx_getElem (w := hIndex)
    have hSame : m.mItems[m.mItems.findIdx (fun item => item.mName = name)].mName = name :=
      of_decide_eq_true hThere
    rw [List.map_set]
    apply List.ext_getElem?
    intro k
    rw [List.getElem?_set]
    split
    · rename_i hPlace
      rw [← hPlace, List.getElem?_map, List.getElem?_eq_getElem hIndex, List.length_map,
        if_pos hIndex]
      exact congrArg some hSame.symm
    · rfl
  · rename_i hNot
    split at hSet
    · cases hSet
      dsimp only
      rw [if_neg hNot]
      refine ⟨by simp, fun other => ?_⟩
      rw [List.find?_append]
      by_cases hOther : other = name
      · have hNone : m.mItems.find? (fun item => item.mName = other) = none := by
          rw [List.find?_eq_none]
          intro item hMem hSame
          exact hNot (List.mem_map.mpr ⟨item, hMem, (of_decide_eq_true hSame).trans hOther⟩)
        rw [hNone, hOther]
        simp
      · simp [hOther, Ne.symm hOther]
    · cases hSet

theorem setItem_eq_none (hSet : m.setItem name u = none) :
    name ∉ m.names ∧ kMaxNumItems ≤ m.names.length := by
  unfold setItem findItemIndex at hSet
  simp only [findIdx_lt_iff] at hSet
  unfold names
  rw [List.length_map]
  split at hSet
  · cases hSet
  · split at hSet
    · cases hSet
    · exact ⟨by assumption, Nat.le_of_not_lt (by assumption)⟩

end Message

--
-- Runs
--

/- A message after some calls. -/
structure Mapped (calls : List (List Byte × Value w)) (m : Message w) : Prop where
  nodup : m.names.Nodup
  names : m.names.toFinset = (calls.map Prod.fst).toFinset
  values : ∀ name, m.valueOf name = lastSet calls name

theorem Mapped.set {calls : List (List Byte × Value w)} {m n : Message w}
    {call : List Byte × Value w} (h : Mapped calls m) (hSet : m.set call = some n) :
    Mapped (calls ++ [call]) n := by
  rcases Message.setItem_eq_some hSet with ⟨hNames, hValues⟩
  have hCalls : ((calls ++ [call]).map Prod.fst).toFinset = insert call.1 m.names.toFinset := by
    rw [h.names]
    ext name
    simp [or_comm]
  refine ⟨?_, ?_, fun name => ?_⟩
  · rw [hNames]
    split
    · exact h.nodup
    · rename_i hNew
      exact List.Nodup.append h.nodup (List.nodup_singleton _) (by simpa using hNew)
  · rw [hNames, hCalls]
    split
    · rename_i hOld
      rw [Finset.insert_eq_of_mem (List.mem_toFinset.mpr hOld)]
    · ext name
      simp [or_comm]
  · rw [hValues, h.values, lastSet, lastSet, List.reverse_append, List.reverse_singleton,
      List.singleton_append, List.find?_cons]
    by_cases hSame : name = call.1
    · simp [hSame]
    · simp [hSame, Ne.symm hSame]

theorem exec_mapped {what : BitVec 32} {calls : List (List Byte × Value w)} {m : Message w}
    (hRun : Run.exec Message.set ⟨what, []⟩ calls = some m) : Mapped calls m :=
  @Run.exec_history_invariant _ _ Message.set Mapped (fun _ _ _ _ h hSet => h.set hSet) _ _ _ hRun
    ⟨List.nodup_nil, rfl, fun _ => rfl⟩

theorem exec_few {what : BitVec 32} {calls : List (List Byte × Value w)} {m : Message w}
    (hRun : Run.exec Message.set ⟨what, []⟩ calls = some m) : m.names.length ≤ kMaxNumItems := by
  refine
    @Run.exec_invariant _ _ Message.set (fun m => m.names.length ≤ kMaxNumItems) ?_ _ _ _ hRun
      (Nat.zero_le _)
  intro m call n hFew hSet
  have hNext := (Message.setItem_cases hSet).1
  unfold Message.names at hFew ⊢
  rw [List.length_map] at hFew ⊢
  rwa [Nat.max_eq_right hFew] at hNext

/- A call that is refused has a name more. -/
theorem exec_full {what : BitVec 32} {calls : List (List Byte × Value w)}
    (hNone : Run.exec Message.set ⟨what, []⟩ calls = none) :
    kMaxNumItems < (calls.map Prod.fst).toFinset.card := by
  induction calls using List.reverseRecOn with
  | nil => cases hNone
  | append_singleton calls call ih =>
    have hNames : ((calls ++ [call]).map Prod.fst).toFinset =
        insert call.1 (calls.map Prod.fst).toFinset := by
      ext name
      simp [or_comm]
    rw [hNames]
    cases hBefore : Run.exec Message.set (⟨what, []⟩ : Message w) calls with
    | none => exact lt_of_lt_of_le (ih hBefore) (Finset.card_le_card (Finset.subset_insert _ _))
    | some m =>
      have hSet : m.set call = none := by
        by_contra hSome
        rcases Option.ne_none_iff_exists'.mp hSome with ⟨n, hn⟩
        rw [Run.exec_append_eq_some.mpr ⟨m, hBefore, Run.exec_cons_eq_some.mpr ⟨n, hn, rfl⟩⟩]
          at hNone
        cases hNone
      rcases Message.setItem_eq_none hSet with ⟨hNew, hFull⟩
      have h := exec_mapped hBefore
      rw [← h.names, Finset.card_insert_of_notMem (by simpa using hNew),
        List.toFinset_card_of_nodup h.nodup]
      omega

/- A message takes any calls with at most 64 names, and finds what was set last by its type. -/
theorem exec_items (what : BitVec 32) (calls : List (List Byte × Value w)) :
    ((Run.exec Message.set ⟨what, []⟩ calls).isSome = true ↔
        (calls.map Prod.fst).toFinset.card ≤ kMaxNumItems) ∧
      ∀ m, Run.exec Message.set ⟨what, []⟩ calls = some m →
        m.mItems.length = (calls.map Prod.fst).toFinset.card ∧
          ∀ name,
            m.contains name = (lastSet calls name).isSome ∧
              ∀ type,
                m.findItem name type = (lastSet calls name).filter (fun u => u.type = type) := by
  constructor
  · constructor
    · intro hSome
      rcases Option.isSome_iff_exists.mp hSome with ⟨m, hRun⟩
      have h := exec_mapped hRun
      rw [← h.names, List.toFinset_card_of_nodup h.nodup]
      exact exec_few hRun
    · intro hCard
      by_contra hNone
      rw [Option.not_isSome_iff_eq_none] at hNone
      exact absurd hCard (Nat.not_le.mpr (exec_full hNone))
  · intro m hRun
    have h := exec_mapped hRun
    have hLength : m.mItems.length = m.names.length := (List.length_map _).symm
    refine ⟨by rw [hLength, ← h.names, List.toFinset_card_of_nodup h.nodup], fun name => ?_⟩
    rw [← h.values name]
    unfold Message.contains Message.findItem Message.valueOf
    cases hItem : m.mItems[m.findItemIndex name]? with
    | none =>
      rw [List.getElem?_eq_none_iff] at hItem
      exact ⟨decide_eq_false (Nat.not_lt.mpr hItem), fun type => rfl⟩
    | some item =>
      refine ⟨decide_eq_true (List.getElem?_eq_some_iff.mp hItem).1, fun type => ?_⟩
      by_cases hType : item.u.type = type
      · simp [Option.filter_some, hType]
      · simp [Option.filter_some, hType]

end AMessage

end FrameworksAv
