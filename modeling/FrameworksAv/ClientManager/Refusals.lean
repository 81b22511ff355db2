import FrameworksAv.ClientManager.AddAndEvict

/-
  Whether an eviction is needed and a refusal is explained.

  The list of evicted clients is built in one pass. A client is evicted for its cost before a
  conflicting client behind it is taken off the cost, and the clients that prevent an addition are
  listed without taking anyone off.

  Main declarations:
    * `Manager.findEvicted_first`
    * `Manager.Frugal`, `Manager.Needed`
    * `Manager.Explained`, `Manager.Blocked`
    * `Manager.frugal_explained_iff`
-/

--
-- Passes
--

namespace FrameworksAv

namespace ClientManager

namespace Manager

variable {κ : Type*} [DecidableEq κ] {m : Manager κ}

/- A client that conflicts or may be evicted. -/
def mayGo (m : Manager κ) (client i : Nat) : Bool :=
  m.conflicting client i || m.evictable client i

/- The pass over a list goes on behind the pass over a part. -/
theorem findEvicted_first {client : Nat} (front back : List Nat) (totalCost : Int)
    (evictList : List Nat) :
    m.findEvicted client (front ++ back) totalCost evictList =
      (m.findEvicted client front totalCost evictList).bind
        (fun r => m.findEvicted client back r.2 r.1) := by
  induction front generalizing totalCost evictList with
  | nil => rfl
  | cons i front ih =>
    rw [List.cons_append, findEvicted, findEvicted]
    split
    · rfl
    · split
      · exact ih _ _
      · exact ih _ _

omit [DecidableEq κ] in
theorem costOf_append (xs ys : List Nat) : m.costOf (xs ++ ys) = m.costOf xs + m.costOf ys := by
  unfold costOf
  rw [List.map_append, List.sum_append]

/-
  After a part of the list the cost is too high exactly when it is without all clients there that
  may go; then they have all gone.
-/
theorem findEvicted_front {client : Nat} {front evicted : List Nat} {totalCost rest : Int}
    (hNodup : front.Nodup) (hCosts : ∀ i ∈ front, 0 ≤ m.cost i)
    (hFind : m.findEvicted client front totalCost [] = some (evicted, rest)) :
    (m.mMaxCost < rest ↔ m.mMaxCost < totalCost - m.costOf (front.filter (m.mayGo client))) ∧
      (m.mMaxCost < rest → evicted = front.filter (m.mayGo client)) := by
  rcases findEvicted_spec hFind with ⟨others, hResult, hSub, hWhy, -, hConflicts⟩
  rw [List.nil_append, Prod.mk.injEq] at hResult
  rcases hResult with ⟨rfl, rfl⟩
  have hSelf := filter_mem_sublist hSub hNodup
  have hAll :
      m.mMaxCost < totalCost - m.costOf evicted → evicted = front.filter (m.mayGo client) := by
    intro hOver
    have hGone := (findEvicted_over hCosts hFind hOver).2
    rw [← hSelf]
    apply List.filter_congr
    intro i hi
    rw [Bool.eq_iff_iff, decide_eq_true_eq, mayGo, Bool.or_eq_true]
    constructor
    · exact hWhy i
    · rintro (hConflict | hMay)
      · exact hConflicts i hi hConflict
      · exact hGone i hi hMay
  have hLess : m.costOf evicted ≤ m.costOf (front.filter (m.mayGo client)) := by
    rw [← hSelf]
    apply costOf_filter_le
    · intro i hi hGone hStays
      rw [decide_eq_true_eq] at hGone
      have hMay := hWhy i hGone
      rw [← Bool.or_eq_true] at hMay
      rw [mayGo, hMay] at hStays
      cases hStays
    · intro i hi _ _
      exact hCosts i hi
  refine ⟨⟨?_, ?_⟩, hAll⟩
  · intro hOver
    rw [← hAll hOver]
    exact hOver
  · intro hOver
    omega

/-
  A client that does not conflict and may be evicted is, when the cost without those in front of it
  is too high, and all of them that may go are returned before it.
-/
theorem findEvicted_at {client i : Nat} {front back evicted : List Nat} {rest : Int}
    (hNodup : m.mClients.Nodup) (hCosts : ∀ i ∈ m.mClients, 0 ≤ m.cost i)
    (hSplit : m.mClients = front ++ i :: back) (hConflict : m.conflicting client i = false)
    (hMay : m.evictable client i = true)
    (hFind : m.findEvicted client m.mClients (m.totalCost client) [] = some (evicted, rest)) :
    let tooHigh :=
      m.mMaxCost < m.totalCost client - m.costOf (front.filter (m.mayGo client))
    (i ∈ evicted ↔ tooHigh) ∧
      (tooHigh → ∃ later, evicted = front.filter (m.mayGo client) ++ i :: later) := by
  rw [hSplit] at hNodup hCosts hFind
  rw [findEvicted_first] at hFind
  rcases Option.bind_eq_some_iff.mp hFind with ⟨⟨before, left⟩, hFront, hBack⟩
  have hFrontNodup : front.Nodup := (List.nodup_append.mp hNodup).1
  have hFrontCosts : ∀ j ∈ front, 0 ≤ m.cost j := fun j hj => hCosts j (List.mem_append_left _ hj)
  rcases findEvicted_front hFrontNodup hFrontCosts hFront with ⟨hOver, hBefore⟩
  simp only at hBack
  rw [findEvicted, if_neg (by simp [hConflict])] at hBack
  intro tooHigh
  by_cases hLeft : m.mMaxCost < left
  · rw [if_pos (Or.inr ⟨hLeft, hMay⟩)] at hBack
    rcases findEvicted_spec hBack with ⟨later, hResult, -⟩
    have hEvicted : evicted = before ++ [i] ++ later := congrArg Prod.fst hResult
    rw [hBefore hLeft, List.append_assoc, List.singleton_append] at hEvicted
    refine ⟨iff_of_true ?_ (hOver.mp hLeft), fun _ => ⟨later, hEvicted⟩⟩
    rw [hEvicted]
    exact List.mem_append_right _ List.mem_cons_self
  · rw [if_neg (by simp [hConflict, hLeft])] at hBack
    have hNot : ¬tooHigh := fun h => hLeft (hOver.mpr h)
    refine ⟨iff_of_false ?_ hNot, fun h => absurd h hNot⟩
    rcases findEvicted_spec hBack with ⟨later, hResult, hLater, -⟩
    rcases findEvicted_spec hFront with ⟨others, hOthers, hSub, -⟩
    have hEvicted : evicted = before ++ later := congrArg Prod.fst hResult
    have hSame : before = others := congrArg Prod.fst hOthers
    rw [hEvicted, hSame]
    intro hIn
    have hApart := (List.nodup_middle.mp hNodup)
    rw [List.nodup_cons] at hApart
    apply hApart.1
    rcases List.mem_append.mp hIn with hFirst | hLast
    · exact List.mem_append_left _ (hSub.mem hFirst)
    · exact List.mem_append_right _ (hLater.mem hLast)

--
-- Needed Evictions
--

/-
  A client that does not conflict is returned only if the cost is still too high without all
  conflicting clients and all those returned before it.
-/
def Frugal (m : Manager κ) (client : Nat) : Prop :=
  ∀ earlier i later,
    m.wouldEvict (some client) = (earlier ++ i :: later).map some →
      m.conflicting client i = false →
        m.mMaxCost <
          m.totalCost client - m.costOf (m.mClients.filter (m.conflicting client)) -
            m.costOf (earlier.filter (fun j => ! m.conflicting client j))

/-
  The client is refused; or where the cost is too high without the clients in front of an evictable
  one, it also is without the conflicting ones behind it.
-/
def Needed (m : Manager κ) (client : Nat) : Prop :=
  m.RefusedByConflict client ∨ m.RefusedByCost client ∨
    ∀ front i back, m.mClients = front ++ i :: back → m.conflicting client i = false →
      m.evictable client i = true →
      let left := m.totalCost client - m.costOf (front.filter (m.mayGo client))
      m.mMaxCost < left →
        m.mMaxCost <
          left - m.costOf (back.filter (m.conflicting client))

/- What is taken off the cost at a client, in two ways. -/
theorem costOf_conflicting_add {client i : Nat} {front back : List Nat}
    (hSplit : m.mClients = front ++ i :: back) (hConflict : m.conflicting client i = false) :
    m.costOf (m.mClients.filter (m.conflicting client)) +
        m.costOf ((front.filter (m.mayGo client)).filter (fun j => ! m.conflicting client j)) =
      m.costOf (front.filter (m.mayGo client)) + m.costOf (back.filter (m.conflicting client)) := by
  have hBoth := m.costOf_filter_add (m.conflicting client) (front.filter (m.mayGo client))
  have hFirst :
      (front.filter (m.mayGo client)).filter (m.conflicting client) =
        front.filter (m.conflicting client) := by
    rw [List.filter_filter]
    apply List.filter_congr
    intro j _
    unfold mayGo
    cases m.conflicting client j <;> rfl
  rw [hFirst] at hBoth
  rw [hSplit, List.filter_append, List.filter_cons_of_neg (by simp [hConflict]), costOf_append]
  omega

theorem wouldEvict_eq_map {client : Nat} {evicted : List Nat} :
    m.wouldEvict (some client) = evicted.map some ↔ m.wouldEvictLocked client false = evicted := by
  unfold wouldEvict
  exact (List.map_injective_iff.mpr (Option.some_injective Nat)).eq_iff

/- A refused client is returned alone, and conflicts. -/
theorem frugal_of_refused {client : Nat} (hSelf : m.wouldEvictLocked client false = [client]) :
    m.Frugal client := by
  intro earlier i later hList hConflict
  rw [wouldEvict_eq_map, hSelf] at hList
  have hIn : i ∈ [client] := by
    rw [hList]
    exact List.mem_append_right _ List.mem_cons_self
  rw [List.mem_singleton.mp hIn, conflicting_self] at hConflict
  cases hConflict

theorem frugal_iff {client : Nat} (hNodup : m.mClients.Nodup)
    (hCosts : ∀ i ∈ m.mClients, 0 ≤ m.cost i) : m.Frugal client ↔ m.Needed client := by
  by_cases hConflicts : m.RefusedByConflict client
  · exact iff_of_true (frugal_of_refused (wouldEvictLocked_conflict hConflicts)) (Or.inl hConflicts)
  by_cases hCost : m.RefusedByCost client
  · exact iff_of_true (frugal_of_refused (wouldEvictLocked_cost hNodup hCost))
      (Or.inr (Or.inl hCost))
  rw [Needed, or_iff_right hConflicts, or_iff_right hCost]
  obtain ⟨⟨evicted, rest⟩, hFind⟩ :
      ∃ r, m.findEvicted client m.mClients (m.totalCost client) [] = some r :=
    Option.ne_none_iff_exists'.mp
      (fun hNone =>
        hConflicts (findEvicted_eq_none_iff.mp hNone))
  have hList := wouldEvictLocked_eq hNodup hCosts hCost hFind
  constructor
  · intro hFrugal front i back hSplit hConflict hMay left hOver
    rcases (findEvicted_at hNodup hCosts hSplit hConflict hMay hFind).2 hOver with ⟨later, hEvicted⟩
    have hNeed := hFrugal _ i later (wouldEvict_eq_map.mpr (hList.trans hEvicted)) hConflict
    have hSame := costOf_conflicting_add hSplit hConflict
    simp only [left]
    omega
  · intro hNeeded earlier i later hReturned hConflict
    rw [wouldEvict_eq_map, hList] at hReturned
    rcases findEvicted_spec hFind with ⟨others, hResult, hSub, hWhy, -⟩
    have hOthers : evicted = others := congrArg Prod.fst hResult
    rw [← hOthers] at hSub hWhy
    have hIn : i ∈ evicted := by
      rw [hReturned]
      exact List.mem_append_right _ List.mem_cons_self
    have hMay : m.evictable client i = true := by
      rcases hWhy i hIn with hConflict' | hMay
      · rw [hConflict] at hConflict'
        cases hConflict'
      · exact hMay
    rcases List.append_of_mem (hSub.mem hIn) with ⟨front, back, hSplit⟩
    rcases findEvicted_at hNodup hCosts hSplit hConflict hMay hFind with ⟨hWhen, hBefore⟩
    have hOver := hWhen.mp hIn
    rcases hBefore hOver with ⟨later', hEvicted⟩
    have hSame : earlier = front.filter (m.mayGo client) := by
      have hOnce : evicted.Nodup := hNodup.sublist hSub
      have hTwo := hReturned.symm.trans hEvicted
      rw [hReturned, List.nodup_middle, List.nodup_cons, List.mem_append, not_or] at hOnce
      have hFirst := (takeWhile_dropWhile_append hOnce.1.1 later).1
      have hApart : i ∉ front.filter (m.mayGo client) := by
        intro hFront
        rw [hSplit, List.nodup_middle, List.nodup_cons] at hNodup
        exact hNodup.1 (List.mem_append_left _ (List.mem_of_mem_filter hFront))
      rw [← hFirst, hTwo]
      exact (takeWhile_dropWhile_append hApart later').1
    have hNeed := hNeeded front i back hSplit hConflict hMay hOver
    have hAdd := costOf_conflicting_add hSplit hConflict
    rw [hSame]
    omega

--
-- Explained Refusals
--

/- There are incompatible clients when the client is returned. -/
def Explained (m : Manager κ) (client : Nat) : Prop :=
  m.getIncompatibleClients (some client) ≠ [] ↔ m.wouldEvict (some client) = [some client]

/- The cost with the client is too high, and a client of a higher priority has a part in it. -/
def Blocked (m : Manager κ) (client : Nat) : Prop :=
  m.mMaxCost < m.totalCost client ∧
    ∃ i ∈ m.mClients, m.priority client < m.priority i ∧ 0 < m.cost i

/- The client is itself active and nobody else has to go. -/
def SelfOnly (m : Manager κ) (client : Nat) : Prop :=
  client ∈ m.mClients ∧
    (∀ i ∈ m.mClients.takeWhile (fun i => i ≠ client), m.Keeps client (m.totalCost client) i) ∧
    ∀ i ∈ (m.mClients.dropWhile (fun i => i ≠ client)).tail,
      m.Keeps client (m.totalCost client - m.cost client) i

theorem incompatible_iff {client : Nat} :
    m.getIncompatibleClients (some client) ≠ [] ↔
      m.RefusedByConflict client ∨ m.Blocked client := by
  simp only [getIncompatibleClients, wouldEvictLocked]
  rw [if_true, ne_eq, List.map_eq_nil_iff, List.filter_eq_nil_iff]
  simp only [not_forall, not_not, exists_prop, Bool.and_eq_true, Bool.or_eq_true, decide_eq_true_eq]
  constructor
  · rintro ⟨i, hi, hMore, hConflict | hCost⟩
    · exact Or.inl ⟨i, hi, hConflict, hMore⟩
    · exact Or.inr ⟨hCost.1, i, hi, hMore, hCost.2⟩
  · rintro (⟨i, hi, hConflict, hMore⟩ | ⟨hOver, i, hi, hMore, hPos⟩)
    · exact ⟨i, hi, hMore, Or.inl hConflict⟩
    · exact ⟨i, hi, hMore, Or.inr ⟨hOver, hPos⟩⟩

omit [DecidableEq κ] in
theorem costOf_nonneg {clients : List Nat} (hCosts : ∀ i ∈ clients, 0 ≤ m.cost i) :
    0 ≤ m.costOf clients := by
  induction clients with
  | nil => exact le_refl 0
  | cons i clients ih =>
    rw [List.forall_mem_cons] at hCosts
    have hRest := ih hCosts.2
    have hFirst := hCosts.1
    rw [costOf_cons]
    omega

omit [DecidableEq κ] in
theorem exists_cost_pos {clients : List Nat} (hPos : 0 < m.costOf clients) :
    ∃ i ∈ clients, 0 < m.cost i := by
  induction clients with
  | nil => exact absurd hPos (lt_irrefl 0)
  | cons i clients ih =>
    by_cases hFirst : 0 < m.cost i
    · exact ⟨i, List.mem_cons_self, hFirst⟩
    · rw [costOf_cons] at hPos
      rcases ih (by omega) with ⟨j, hj, hCost⟩
      exact ⟨j, List.mem_cons_of_mem _ hj, hCost⟩

/- A client that fits alone is refused because of others. -/
theorem blocked_of_refusedByCost {client : Nat} (hCosts : ∀ i ∈ m.mClients, 0 ≤ m.cost i)
    (hFits : m.cost client ≤ m.mMaxCost) (h : m.RefusedByCost client) : m.Blocked client := by
  rcases h with ⟨hOther, hOver⟩
  have hBoth :=
    m.costOf_filter_add (fun i => m.conflicting client i || m.evictable client i) m.mClients
  have hGone :
      0 ≤
        m.costOf
          (m.mClients.filter
            (fun i =>
              m.conflicting client i || m.evictable client i)) :=
    costOf_nonneg (fun i hi => hCosts i (List.mem_of_mem_filter hi))
  constructor
  · unfold totalCost getCurrentCostLocked
    omega
  · rcases exists_cost_pos
        (by omega :
          0 <
            m.costOf
              (m.mClients.filter
                (fun i =>
                  ! (m.conflicting client i || m.evictable client i)))) with
      ⟨i, hi, hPos⟩
    rcases List.mem_filter.mp hi with ⟨hActive, hStays⟩
    refine ⟨i, hActive, ?_, hPos⟩
    by_contra hLower
    simp only [Bool.not_eq_true', Bool.or_eq_false_iff] at hStays
    have hMay : m.evictable client i = true :=
      evictable_iff.mpr ⟨hPos, le_of_not_gt hLower, fun hOwn => hOther hOwn.1⟩
    rw [hStays.2] at hMay
    cases hMay

/- The list is the client when it is the only one to go. -/
theorem evicted_self_iff {client : Nat} {evicted : List Nat} {rest : Int}
    (hConflicts : ¬m.RefusedByConflict client)
    (hFind : m.findEvicted client m.mClients (m.totalCost client) [] = some (evicted, rest)) :
    evicted = [client] ↔ m.SelfOnly client := by
  have hLower :
      client ∈ m.mClients →
        ¬(m.conflicting client client = true ∧ m.priority client < m.priority client) :=
    fun hIn hStop => hConflicts ⟨client, hIn, hStop⟩
  have hGoes : ∀ cost, ¬m.Keeps client cost client := fun cost hStays =>
      hStays.not_goes (Or.inl (conflicting_self client))
  constructor
  · intro hSelf
    have hIn : client ∈ m.mClients := by
      rcases findEvicted_spec hFind with ⟨others, hResult, hSub, -⟩
      have hOthers : evicted = others := congrArg Prod.fst hResult
      rw [hSelf] at hOthers
      rw [← hOthers] at hSub
      exact hSub.mem (List.mem_singleton.mpr rfl)
    rw [takeWhile_dropWhile hIn, findEvicted_first] at hFind
    rcases Option.bind_eq_some_iff.mp hFind with ⟨⟨before, left⟩, hFront, hBack⟩
    simp only at hBack
    rw [findEvicted_goes (hGoes left) (hLower hIn)] at hBack
    rcases findEvicted_spec hFront with ⟨others, hResult, -⟩
    rcases findEvicted_spec hBack with ⟨others', hResult', -⟩
    have hList : evicted = before ++ [client] ++ others' := congrArg Prod.fst hResult'
    have hBefore : before = [] := by
      have hLength := congrArg List.length hList
      rw [hSelf] at hLength
      simp only [List.length_append, List.length_singleton] at hLength
      exact List.length_eq_zero_iff.mp (by omega)
    have hLeft : left = m.totalCost client := by
      have hCost := congrArg Prod.snd hResult
      have hFst : before = others := congrArg Prod.fst hResult
      rw [← hFst, hBefore] at hCost
      simpa using hCost
    rw [hBefore, hLeft] at hFront
    rw [hBefore, hLeft, hSelf] at hBack
    exact ⟨hIn, keeps_of_findEvicted hFront, keeps_of_findEvicted hBack⟩
  · rintro ⟨hIn, hFront, hBack⟩
    have hPass :=
      findEvicted_split hFront (hGoes _) (hLower hIn)
        (m.mClients.dropWhile (fun i => i ≠ client)).tail
    rw [← takeWhile_dropWhile hIn, hFind] at hPass
    have hLast := findEvicted_append hBack [] [client]
    rw [List.append_nil] at hLast
    rw [hLast] at hPass
    exact congrArg Prod.fst (Option.some.inj hPass)

theorem explained_iff {client : Nat} (hNodup : m.mClients.Nodup)
    (hCosts : ∀ i ∈ m.mClients, 0 ≤ m.cost i) (hFits : m.cost client ≤ m.mMaxCost) :
    m.Explained client ↔
      m.RefusedByConflict client ∨ m.RefusedByCost client ∨
        (m.Blocked client ↔ m.SelfOnly client) := by
  have hReturned :
      m.wouldEvict (some client) = [some client] ↔ m.wouldEvictLocked client false = [client] := by
    have hMap : [some client] = [client].map some := rfl
    rw [hMap]
    exact wouldEvict_eq_map
  unfold Explained
  rw [incompatible_iff, hReturned]
  by_cases hConflicts : m.RefusedByConflict client
  · exact iff_of_true (iff_of_true (Or.inl hConflicts) (wouldEvictLocked_conflict hConflicts))
      (Or.inl hConflicts)
  by_cases hCost : m.RefusedByCost client
  · exact iff_of_true
      (iff_of_true (Or.inr (blocked_of_refusedByCost hCosts hFits hCost))
        (wouldEvictLocked_cost hNodup hCost))
      (Or.inr (Or.inl hCost))
  obtain ⟨⟨evicted, rest⟩, hFind⟩ :
      ∃ r, m.findEvicted client m.mClients (m.totalCost client) [] = some r :=
    Option.ne_none_iff_exists'.mp
      (fun hNone =>
        hConflicts (findEvicted_eq_none_iff.mp hNone))
  rw [or_iff_right hConflicts, or_iff_right hConflicts, or_iff_right hCost,
    wouldEvictLocked_eq hNodup hCosts hCost hFind, evicted_self_iff hConflicts hFind]

/-
  With distinct keys, no negative cost and an incoming client that fits alone: exactly when
  evictions are needed, and when refusals are explained.
-/
theorem frugal_explained_iff {κ : Type*} [DecidableEq κ] {m : Manager κ} {client : Nat}
    (hKeys : m.Distinct) (hCosts : ∀ i ∈ m.mClients, 0 ≤ m.cost i)
    (hFits : m.cost client ≤ m.mMaxCost) :
    (m.Frugal client ↔ m.Needed client) ∧
      (m.Explained client ↔
        m.RefusedByConflict client ∨ m.RefusedByCost client ∨
          (m.Blocked client ↔ m.SelfOnly client)) := by
  have hNodup : m.mClients.Nodup := List.Nodup.of_map _ hKeys
  exact ⟨frugal_iff hNodup hCosts, explained_iff hNodup hCosts hFits⟩

/- Two clients that must both go, and one that is refused. -/
theorem crowded_frugal : (crowded.Frugal 2 ↔ crowded.Needed 2) ∧ crowded.Explained 2 := by
  have hKeys : crowded.Distinct := by
    unfold Distinct
    decide
  have hBoth :
      (crowded.Frugal 2 ↔ crowded.Needed 2) ∧
        (crowded.Explained 2 ↔
          crowded.RefusedByConflict 2 ∨
            crowded.RefusedByCost 2 ∨ (crowded.Blocked 2 ↔ crowded.SelfOnly 2)) :=
    frugal_explained_iff hKeys (by decide) (by decide)
  refine ⟨hBoth.1, hBoth.2.mpr ?_⟩
  right
  right
  unfold Blocked SelfOnly
  decide

/-
  Of two clients of cost 50 the second has the higher priority. Client 2 comes with the lowest cost,
  client 3 with the key of the second.
-/
def replacing : Manager Nat :=
  { mMaxCost := 100
    mListener := true
    mClients := [0, 1]
    heap := fun i =>
      ⟨if i = 3 then 1 else i, if i = 2 then 40 else 50, ∅,
        if i = 0 then -5 else if i = 2 then 0 else 1,
        (i : Int)⟩ }

/-
  The first client goes for client 3, though the place of the second one is enough, and for client
  2, though the second one is said to prevent that.
-/
theorem replacing_not_frugal : ¬replacing.Frugal 3 ∧ ¬replacing.Explained 2 := by
  constructor
  · intro hFrugal
    exact absurd (hFrugal [] 0 [1] (by decide) (by decide)) (by decide)
  · unfold Explained
    decide

end Manager

end ClientManager

end FrameworksAv
