import FrameworksAv.ClientManager.WouldEvict

/-
  What adding a client does to the list of active clients.

  The predicate that removes the evicted clients compares each client with the next evicted one,
  also when none is left, and only the first evicted client is announced. So the books are kept when
  the incoming client is refused, or when nobody has to go but the most recent client.

  Main declarations:
    * `Manager.Booked`, `Manager.Orderly`
    * `Manager.booked_of_orderly`, `Manager.orderly_of_booked`
    * `Manager.addAndEvict_booked_iff`
-/

--
-- Eviction lists
--

namespace FrameworksAv

namespace ClientManager

namespace Manager

variable {κ : Type*} [DecidableEq κ] {m : Manager κ}

/- A client that need not go while the cost is `totalCost`. -/
def Keeps (m : Manager κ) (client : Nat) (totalCost : Int) (i : Nat) : Prop :=
  m.conflicting client i = false ∧ ¬ (m.mMaxCost < totalCost ∧ m.evictable client i = true)

instance (client : Nat) (totalCost : Int) (i : Nat) : Decidable (m.Keeps client totalCost i) := by
  unfold Keeps
  infer_instance

theorem Keeps.not_goes {client i : Nat} {totalCost : Int} (h : m.Keeps client totalCost i) :
    ¬ (m.conflicting client i = true ∨ m.mMaxCost < totalCost ∧ m.evictable client i = true) := by
  rintro (hConflict | hGoes)
  · rw [h.1] at hConflict
    cases hConflict
  · exact h.2 hGoes

/- Clients that need not go are passed over. -/
theorem findEvicted_append {client : Nat} {totalCost : Int} {front : List Nat}
    (hFront : ∀ i ∈ front, m.Keeps client totalCost i) (back evictList : List Nat) :
    m.findEvicted client (front ++ back) totalCost evictList =
      m.findEvicted client back totalCost evictList := by
  induction front with
  | nil => rfl
  | cons i front ih =>
    rw [List.forall_mem_cons] at hFront
    have hNot := hFront.1.not_goes
    rw [List.cons_append, findEvicted, if_neg (fun hStop => hNot (Or.inl hStop.1)), if_neg hNot]
    exact ih hFront.2

/- The next client that has to go is put on the list. -/
theorem findEvicted_goes {client i : Nat} {totalCost : Int} (hGoes : ¬ m.Keeps client totalCost i)
    (hLower : ¬ (m.conflicting client i = true ∧ m.priority client < m.priority i))
    (back evictList : List Nat) :
    m.findEvicted client (i :: back) totalCost evictList =
      m.findEvicted client back (totalCost - m.cost i) (evictList ++ [i]) := by
  rw [findEvicted, if_neg hLower, if_pos]
  by_contra hNot
  rw [not_or, Bool.not_eq_true] at hNot
  exact hGoes hNot

/- An empty list of evictions evicts nobody. -/
theorem keeps_of_findEvicted {client : Nat} {clients evictList : List Nat} {totalCost rest : Int}
    (hFind : m.findEvicted client clients totalCost evictList = some (evictList, rest)) :
    ∀ i ∈ clients, m.Keeps client totalCost i := by
  induction clients with
  | nil => exact nofun
  | cons i clients ih =>
    by_cases hKeeps : m.Keeps client totalCost i
    · have hFront : ∀ j ∈ [i], m.Keeps client totalCost j := List.forall_mem_singleton.mpr hKeeps
      rw [← List.singleton_append, findEvicted_append hFront] at hFind
      exact List.forall_mem_cons.mpr ⟨hKeeps, ih hFind⟩
    · have hLower : ¬ (m.conflicting client i = true ∧ m.priority client < m.priority i) := by
        intro hStop
        have hNone : m.findEvicted client (i :: clients) totalCost evictList = none :=
          findEvicted_eq_none_iff.mpr ⟨i, List.mem_cons_self, hStop⟩
        rw [hNone] at hFind
        cases hFind
      rw [findEvicted_goes hKeeps hLower] at hFind
      rcases findEvicted_spec hFind with ⟨evicted, hResult, -⟩
      have hLength := congrArg (fun r => List.length r.1) hResult
      simp at hLength

/- A list with a client that has to go has a first one. -/
theorem exists_first {client : Nat} {totalCost : Int} {clients : List Nat}
    (hSome : ¬ ∀ i ∈ clients, m.Keeps client totalCost i) :
    ∃ front i back,
      clients = front ++ i :: back ∧ (∀ j ∈ front, m.Keeps client totalCost j) ∧
        ¬ m.Keeps client totalCost i := by
  induction clients with
  | nil => exact absurd nofun hSome
  | cons i clients ih =>
    by_cases hKeeps : m.Keeps client totalCost i
    · have hRest : ¬ ∀ j ∈ clients, m.Keeps client totalCost j := fun hAll =>
          hSome (List.forall_mem_cons.mpr ⟨hKeeps, hAll⟩)
      rcases ih hRest with ⟨front, j, back, hSplit, hFront, hGoes⟩
      refine ⟨i :: front, j, back, ?_, ?_, hGoes⟩
      · rw [hSplit]
        rfl
      · exact List.forall_mem_cons.mpr ⟨hKeeps, hFront⟩
    · exact ⟨[], i, clients, rfl, nofun, hKeeps⟩

--
-- Removal
--

/- Clients with other keys than the next evicted one stay. -/
theorem removeEvicted_append {x : Nat} {front : List Nat} (hFront : ∀ i ∈ front, m.key i ≠ m.key x)
    (clients iter : List Nat) :
    m.removeEvicted (front ++ clients) (x :: iter) =
      (m.removeEvicted clients (x :: iter)).map (front ++ ·) := by
  induction front with
  | nil => simp
  | cons i front ih =>
    rw [List.forall_mem_cons] at hFront
    rw [List.cons_append, removeEvicted, if_neg hFront.1, ih hFront.2, Option.map_map]
    rfl

/-
  One evicted client is removed when it is the last one, and the next client is compared with
  nothing otherwise.
-/
theorem removeEvicted_single {x : Nat} {front back : List Nat}
    (hKeys : ((front ++ x :: back).map m.key).Nodup) :
    m.removeEvicted (front ++ x :: back) [x] = if back = [] then some front else none := by
  have hFront : ∀ i ∈ front, m.key i ≠ m.key x := by
    intro i hi
    rw [List.map_append] at hKeys
    have hDisjoint := (List.nodup_append.mp hKeys).2.2
    apply hDisjoint
    · exact List.mem_map_of_mem hi
    · exact List.mem_map_of_mem List.mem_cons_self
  rw [removeEvicted_append hFront, removeEvicted, if_pos rfl]
  cases back with
  | nil => simp [removeEvicted]
  | cons y back => simp [removeEvicted]

--
-- Books
--

/-
  The call has a defined outcome. Either the incoming client is returned and the clients are as
  before, or exactly the returned ones are gone, the incoming client is the last, and each returned
  one has been announced once.
-/
def Booked (m : Manager κ) (client : Option Nat) : Prop :=
  ∃ r,
    m.addAndEvict client = some r ∧ (r.evicted = [client] → r.manager.mClients = m.mClients) ∧
      (r.evicted ≠ [client] →
        ∃ c,
          client = some c ∧
            r.manager.mClients = m.mClients.filter (fun i => decide (some i ∉ r.evicted)) ++ [c] ∧
            ∀ i, r.events.count (.onClientRemoved i) = if some i ∈ r.evicted then 1 else 0)

/- A client of a higher priority conflicts. -/
def RefusedByConflict (m : Manager κ) (client : Nat) : Prop :=
  ∃ i ∈ m.mClients, m.conflicting client i = true ∧ m.priority client < m.priority i

/-
  Another owner is in front, and even without all clients that conflict or may be evicted the cost
  is too high.
-/
def RefusedByCost (m : Manager κ) (client : Nat) : Prop :=
  m.highestPriorityOwner client ≠ m.owner client ∧
    m.mMaxCost <
      m.costOf
          (m.mClients.filter
            (fun i =>
              ! (m.conflicting client i || m.evictable client i))) +
        m.cost client

/-
  The incoming client is null or refused, or nobody has to go for it, apart from the most recent
  client if there is a listener, or apart from the incoming client itself.
-/
def Orderly (m : Manager κ) : Option Nat → Prop
| none => True
| some client =>
  m.RefusedByConflict client ∨ m.RefusedByCost client ∨
    (∀ i ∈ m.mClients, m.Keeps client (m.totalCost client) i) ∨
    (m.mListener = true ∧ ∀ i ∈ m.mClients.dropLast, m.Keeps client (m.totalCost client) i) ∨
    (client ∈ m.mClients ∧
      (∀ i ∈ m.mClients.takeWhile (fun i => i ≠ client), m.Keeps client (m.totalCost client) i) ∧
      ∀ i ∈ (m.mClients.dropWhile (fun i => i ≠ client)).tail,
        m.Keeps client (m.totalCost client - m.cost client) i)

instance (client : Option Nat) : Decidable (m.Orderly client) := by
  cases client <;>
    unfold Orderly <;>
    try unfold RefusedByConflict RefusedByCost
  · exact instDecidableTrue
  · infer_instance

/- The books are kept when the incoming client is returned. -/
theorem booked_of_self {client : Nat} (hSelf : m.wouldEvictLocked client false = [client]) :
    m.Booked (some client) := by
  refine ⟨⟨m, [some client], []⟩, ?_, fun _ => rfl, ?_⟩
  · simp [addAndEvict, hSelf]
  · intro hNot
    exact absurd rfl hNot

/- The books are kept when nobody is evicted. -/
theorem booked_of_nil {client : Nat} (hNil : m.wouldEvictLocked client false = []) :
    m.Booked (some client) := by
  refine
    ⟨⟨{ m with mClients := m.mClients ++ [client] }, [],
        m.notify [.onClientAdded client]⟩,
      ?_, nofun, ?_⟩
  · simp [addAndEvict, hNil, remaining]
  · intro _
    refine ⟨client, rfl, by simp, ?_⟩
    intro i
    unfold notify
    cases m.mListener <;> simp

/- What the call does with one client to evict. -/
theorem addAndEvict_cons {client x : Nat} {front back others : List Nat}
    (hSplit : m.mClients = front ++ x :: back)
    (hEvicted : m.wouldEvictLocked client false = x :: others) (hOther : x ≠ client) :
    m.addAndEvict (some client) =
      (m.removeEvicted (front ++ x :: back) (x :: others)).map
        (fun clients =>
          { manager := { m with mClients := clients ++ [client] }
            evicted := (x :: others).map some
            events := m.notify [.onClientRemoved x, .onClientAdded client] }) := by
  have hHead : (x :: others).head? ≠ some client := by
    simpa using hOther
  simp only [addAndEvict, hEvicted]
  rw [if_neg hHead]
  unfold remaining
  rw [hSplit]
  rfl

/- The books are kept when only the last client is evicted. -/
theorem booked_of_last {client x : Nat} {front : List Nat} (hKeys : (m.mClients.map m.key).Nodup)
    (hListener : m.mListener = true) (hSplit : m.mClients = front ++ [x])
    (hEvicted : m.wouldEvictLocked client false = [x]) (hOther : x ≠ client) :
    m.Booked (some client) := by
  have hCall := addAndEvict_cons hSplit hEvicted hOther
  rw [hSplit] at hKeys
  rw [removeEvicted_single hKeys, if_pos rfl] at hCall
  refine ⟨_, hCall, ?_, ?_⟩
  · intro hSelf
    simp at hSelf
    exact absurd hSelf hOther
  · intro _
    refine ⟨client, rfl, ?_, ?_⟩
    · have hNodup := List.Nodup.of_map _ hKeys
      have hNew : ∀ i ∈ front, i ≠ x := by
        intro i hi
        exact (List.nodup_append.mp hNodup).2.2 i hi x (by simp)
      rw [hSplit, List.filter_append]
      simp only [List.map_cons, List.map_nil, List.mem_singleton, Option.some.injEq]
      rw [List.filter_eq_self.mpr (by simpa using hNew)]
      simp
    · intro i
      simp only [notify, hListener, if_true, List.map_cons,
        List.map_nil, List.mem_singleton, Option.some.injEq]
      by_cases hi : x = i
      · simp [hi]
      · have hi' : i ≠ x := fun hEq => hi (Eq.symm hEq)
        simp [hi, hi']

/- A list split at a member. -/
theorem takeWhile_dropWhile {x : Nat} {clients : List Nat} (hIn : x ∈ clients) :
    clients =
      clients.takeWhile (fun i => i ≠ x) ++ x :: (clients.dropWhile (fun i => i ≠ x)).tail := by
  induction clients with
  | nil => cases hIn
  | cons i clients ih =>
    by_cases hEq : i = x
    · simp [hEq]
    · have hRest : x ∈ clients := by
        rcases List.mem_cons.mp hIn with hHead | hTail
        · exact absurd (Eq.symm hHead) hEq
        · exact hTail
      simpa [hEq] using ih hRest

/- A list put together around a new member. -/
theorem takeWhile_dropWhile_append {x : Nat} {front : List Nat} (hNew : x ∉ front)
    (back : List Nat) :
    (front ++ x :: back).takeWhile (fun i => i ≠ x) = front ∧
      (front ++ x :: back).dropWhile (fun i => i ≠ x) = x :: back := by
  induction front with
  | nil => simp
  | cons i front ih =>
    rw [List.mem_cons, not_or] at hNew
    have hNe : i ≠ x := fun hEq => hNew.1 (Eq.symm hEq)
    simpa [hNe] using ih hNew.2

/- What is returned once the eviction list is there. -/
theorem wouldEvictLocked_found {client : Nat} {r : List Nat × Int}
    (hFind : m.findEvicted client m.mClients (m.totalCost client) [] = some r) :
    m.wouldEvictLocked client false = [client] ∨ m.wouldEvictLocked client false = r.1 := by
  simp only [wouldEvictLocked, hFind, Bool.false_eq_true, if_false]
  split
  · exact Or.inl rfl
  · exact Or.inr rfl

/- A conflict with a higher priority returns the client. -/
theorem wouldEvictLocked_conflict {client : Nat} (h : m.RefusedByConflict client) :
    m.wouldEvictLocked client false = [client] := by
  have hFind : m.findEvicted client m.mClients (m.totalCost client) [] = none :=
    findEvicted_eq_none_iff.mpr h
  simp [wouldEvictLocked, hFind]

/- A client that conflicts with itself has to go. -/
theorem conflicting_self (client : Nat) : m.conflicting client client = true :=
  conflicting_iff.mpr (Or.inl rfl)

/- The cost at the end is at least that of those who may stay. -/
theorem over_of_refusedByCost {client : Nat} {evicted : List Nat} {rest : Int}
    (hNodup : m.mClients.Nodup) (h : m.RefusedByCost client)
    (hFind : m.findEvicted client m.mClients (m.totalCost client) [] = some (evicted, rest)) :
    m.mMaxCost < rest := by
  rcases findEvicted_spec hFind with ⟨others, hResult, hSub, hWhy, -, hConflicts⟩
  rw [List.nil_append, Prod.mk.injEq] at hResult
  rcases hResult with ⟨rfl, rfl⟩
  rw [totalCost_sub hSub hNodup]
  have hLess :
      m.costOf
          (m.mClients.filter
            (fun i =>
              ! (m.conflicting client i || m.evictable client i))) ≤
        m.costOf (m.mClients.filter (fun i => ! decide (i ∈ evicted))) := by
    apply costOf_filter_le
    · intro i hi hMay hGone
      simp only [Bool.not_eq_false', decide_eq_true_eq] at hGone
      simp only [Bool.not_eq_true', Bool.or_eq_false_iff] at hMay
      rcases hWhy i hGone with hConflict | hGoes
      · rw [hMay.1] at hConflict
        cases hConflict
      · rw [hMay.2] at hGoes
        cases hGoes
    · intro i hi hStays hMay
      simp only [Bool.not_eq_true', decide_eq_false_iff_not] at hStays
      simp only [Bool.not_eq_false', Bool.or_eq_true] at hMay
      rcases hMay with hConflict | hGoes
      · exact absurd (hConflicts i hi hConflict) hStays
      · exact le_of_lt (evictable_iff.mp hGoes).1
  have hOver := h.2
  omega

/- Too high a cost returns the client. -/
theorem wouldEvictLocked_cost {client : Nat} (hNodup : m.mClients.Nodup)
    (h : m.RefusedByCost client) : m.wouldEvictLocked client false = [client] := by
  cases hFind : m.findEvicted client m.mClients (m.totalCost client) [] with
  | none => simp [wouldEvictLocked, hFind]
  | some r =>
    have hOver := over_of_refusedByCost hNodup h hFind
    simp [wouldEvictLocked, hFind, hOver, h.1]

/-
  The first client that has to go heads the list, and the rest of it comes from the clients behind.
-/
theorem findEvicted_split {client x : Nat} {totalCost : Int} {front : List Nat}
    (hFront : ∀ i ∈ front, m.Keeps client totalCost i) (hGoes : ¬ m.Keeps client totalCost x)
    (hLower : ¬ (m.conflicting client x = true ∧ m.priority client < m.priority x))
    (back : List Nat) :
    m.findEvicted client (front ++ x :: back) totalCost [] =
      m.findEvicted client back (totalCost - m.cost x) [x] := by
  rw [findEvicted_append hFront, findEvicted_goes hGoes hLower]
  rfl

theorem booked_of_orderly {client : Option Nat} (hKeys : (m.mClients.map m.key).Nodup)
    (h : m.Orderly client) : m.Booked client := by
  cases client with
  | none =>
    refine ⟨⟨m, [none], []⟩, rfl, fun _ => rfl, ?_⟩
    intro hNot
    exact absurd rfl hNot
  | some client =>
  have hNodup := List.Nodup.of_map _ hKeys
  -- nobody evicted: refused after all, or added
  have hAll :
      (∀ i ∈ m.mClients, m.Keeps client (m.totalCost client) i) → m.Booked (some client) := by
    intro hKeep
    have hFind :
        m.findEvicted client m.mClients (m.totalCost client) [] =
          some ([], m.totalCost client) := by
      have hPass := findEvicted_append hKeep [] []
      rw [List.append_nil] at hPass
      exact hPass
    rcases wouldEvictLocked_found hFind with hSelf | hNil
    · exact booked_of_self hSelf
    · exact booked_of_nil hNil
  by_cases hConflict : m.RefusedByConflict client
  · exact booked_of_self (wouldEvictLocked_conflict hConflict)
  have hLower :
      ∀ x ∈ m.mClients, ¬ (m.conflicting client x = true ∧ m.priority client < m.priority x) :=
    fun x hx hStop => hConflict ⟨x, hx, hStop⟩
  rcases h with hRefused | hCost | hKeep | ⟨hListener, hKeep⟩ | ⟨hIn, hFront, hBack⟩
  · exact absurd hRefused hConflict
  · exact booked_of_self (wouldEvictLocked_cost hNodup hCost)
  · exact hAll hKeep
  · by_cases hEmpty : m.mClients = []
    · apply hAll
      rw [hEmpty]
      exact nofun
    have hSplit := Eq.symm (List.dropLast_append_getLast hEmpty)
    have hLast := List.getLast_mem hEmpty
    generalize m.mClients.dropLast = front at hSplit hKeep
    generalize m.mClients.getLast hEmpty = x at hSplit hLast
    by_cases hStay : m.Keeps client (m.totalCost client) x
    · apply hAll
      rw [hSplit]
      exact List.forall_mem_append.mpr ⟨hKeep, List.forall_mem_singleton.mpr hStay⟩
    have hFind := findEvicted_split hKeep hStay (hLower x hLast) []
    rw [← hSplit] at hFind
    rcases wouldEvictLocked_found hFind with hSelf | hOne
    · exact booked_of_self hSelf
    · by_cases hOther : x = client
      · rw [hOther] at hOne
        exact booked_of_self hOne
      · exact booked_of_last hKeys hListener hSplit hOne hOther
  · have hSplit :
        m.mClients =
          m.mClients.takeWhile (fun i => i ≠ client) ++
            client :: (m.mClients.dropWhile (fun i => i ≠ client)).tail :=
      takeWhile_dropWhile hIn
    have hGoes : ¬ m.Keeps client (m.totalCost client) client := fun hStays =>
        hStays.not_goes (Or.inl (conflicting_self client))
    have hFind :=
      findEvicted_split hFront hGoes (hLower client hIn)
        (m.mClients.dropWhile (fun i => i ≠ client)).tail
    rw [← hSplit] at hFind
    have hPass := findEvicted_append hBack [] [client]
    rw [List.append_nil] at hPass
    rw [hPass] at hFind
    rcases wouldEvictLocked_found hFind with hSelf | hOne
    · exact booked_of_self hSelf
    · exact booked_of_self hOne

/- When nothing refuses the client, the list is returned. -/
theorem wouldEvictLocked_eq {client : Nat} {evicted : List Nat} {rest : Int}
    (hNodup : m.mClients.Nodup) (hCosts : ∀ i ∈ m.mClients, 0 ≤ m.cost i)
    (hCost : ¬ m.RefusedByCost client)
    (hFind : m.findEvicted client m.mClients (m.totalCost client) [] = some (evicted, rest)) :
    m.wouldEvictLocked client false = evicted := by
  simp only [wouldEvictLocked, hFind, Bool.false_eq_true, if_false]
  rw [if_neg]
  rintro ⟨hOver, hOther⟩
  apply hCost
  refine ⟨hOther, ?_⟩
  rcases findEvicted_spec hFind with ⟨others, hResult, hSub, hWhy, -, hConflicts⟩
  rw [List.nil_append, Prod.mk.injEq] at hResult
  rcases hResult with ⟨rfl, rfl⟩
  have hGone := (findEvicted_over hCosts hFind hOver).2
  rw [totalCost_sub hSub hNodup] at hOver
  have hSame :
      m.mClients.filter (fun i => ! decide (i ∈ evicted)) =
        m.mClients.filter
          (fun i =>
            ! (m.conflicting client i || m.evictable client i)) := by
    apply List.filter_congr
    intro i hi
    congr 1
    rw [Bool.eq_iff_iff, decide_eq_true_eq, Bool.or_eq_true]
    constructor
    · exact hWhy i
    · rintro (hConflict | hMay)
      · exact hConflicts i hi hConflict
      · exact hGone i hi hMay
  rw [hSame] at hOver
  exact hOver

/- With costs that are not negative, the books are kept in no other way. -/
theorem orderly_of_booked {client : Option Nat} (hKeys : (m.mClients.map m.key).Nodup)
    (hCosts : ∀ i ∈ m.mClients, 0 ≤ m.cost i) (h : m.Booked client) : m.Orderly client := by
  cases client with
  | none => exact trivial
  | some client =>
  have hNodup := List.Nodup.of_map _ hKeys
  by_cases hConflict : m.RefusedByConflict client
  · exact Or.inl hConflict
  by_cases hCost : m.RefusedByCost client
  · exact Or.inr (Or.inl hCost)
  by_cases hAll : ∀ i ∈ m.mClients, m.Keeps client (m.totalCost client) i
  · exact Or.inr (Or.inr (Or.inl hAll))
  right; right; right
  rcases exists_first hAll with ⟨front, x, back, hSplit, hFront, hGoes⟩
  have hx : x ∈ m.mClients := by
    rw [hSplit]
    exact List.mem_append_right _ List.mem_cons_self
  have hLower : ¬ (m.conflicting client x = true ∧ m.priority client < m.priority x) :=
    fun hStop => hConflict ⟨x, hx, hStop⟩
  have hFind := findEvicted_split hFront hGoes hLower back
  rw [← hSplit] at hFind
  cases hRest : m.findEvicted client back (m.totalCost client - m.cost x) [x] with
  | none =>
    rw [hRest] at hFind
    exact absurd (findEvicted_eq_none_iff.mp hFind) hConflict
  | some r =>
  rcases findEvicted_spec hRest with ⟨others, hResult, hSub, -⟩
  rw [hResult] at hRest
  rw [hRest] at hFind
  have hEvicted := wouldEvictLocked_eq hNodup hCosts hCost hFind
  rw [List.singleton_append] at hEvicted
  rw [hSplit] at hNodup hKeys
  rcases List.nodup_append.mp hNodup with ⟨-, hBackNodup, hDisjoint⟩
  have hNewFront : x ∉ front := fun hIn => hDisjoint x hIn x List.mem_cons_self rfl
  have hNewBack : x ∉ back := (List.nodup_cons.mp hBackNodup).1
  have hSplitAt := takeWhile_dropWhile_append hNewFront back
  rcases h with ⟨r, hCall, -, hOther⟩
  by_cases hSelf : x = client
  · -- it is returned together with what it evicts
    have hReturn : m.addAndEvict (some client) = some ⟨m, (x :: others).map some, []⟩ := by
      simp only [addAndEvict, hEvicted]
      rw [if_pos (by rw [hSelf]; rfl)]
    rw [hReturn, Option.some.injEq] at hCall
    have hNone : others = [] := by
      by_contra hMore
      have hNot : r.evicted ≠ [some client] := by
        rw [← hCall]
        simpa using fun _ => hMore
      rcases hOther hNot with ⟨c, -, -, hCount⟩
      have hx := hCount x
      rw [← hCall] at hx
      simp at hx
    rw [hNone] at hRest
    have hBack := keeps_of_findEvicted hRest
    right
    rw [← hSelf]
    refine ⟨hx, ?_, ?_⟩
    · rw [hSplit, hSplitAt.1, hSelf]
      exact hFront
    · rw [hSplit, hSplitAt.2, hSelf]
      rw [hSelf] at hBack
      exact hBack
  · left
    rw [addAndEvict_cons hSplit hEvicted hSelf] at hCall
    rcases Option.map_eq_some_iff.mp hCall with ⟨clients, hRemove, hOutcome⟩
    have hNot : r.evicted ≠ [some client] := by
      rw [← hOutcome]
      simp [hSelf]
    rcases hOther hNot with ⟨c, -, -, hCount⟩
    rw [← hOutcome] at hCount
    -- the first one is announced, and no other
    have hListener : m.mListener = true := by
      have hx := hCount x
      cases hOn : m.mListener with
      | true => rfl
      | false => simp [notify, hOn] at hx
    have hNone : others = [] := by
      cases others with
      | nil => rfl
      | cons y others =>
        have hNe : x ≠ y := by
          intro hEq
          exact hNewBack (hEq ▸ hSub.mem List.mem_cons_self)
        have hy := hCount y
        simp [notify, hListener, hNe] at hy
    rw [hNone, removeEvicted_single hKeys] at hRemove
    have hLast : back = [] := by
      by_contra hMore
      rw [if_neg hMore] at hRemove
      cases hRemove
    refine ⟨hListener, ?_⟩
    rw [hSplit, hLast, List.dropLast_concat]
    exact hFront

--
-- Runs
--

/- The keys of the active clients are pairwise distinct. -/
def Distinct (m : Manager κ) : Prop :=
  (m.mClients.map m.key).Nodup

/- A client with the key of the incoming one is evicted. -/
theorem mem_wouldEvictLocked {client i : Nat} (hOther : m.wouldEvictLocked client false ≠ [client])
    (hi : i ∈ m.mClients) (hKey : m.key i = m.key client) :
    i ∈ m.wouldEvictLocked client false := by
  have hConflict : m.conflicting client i = true := conflicting_iff.mpr (Or.inl hKey)
  cases hFind : m.findEvicted client m.mClients (m.totalCost client) [] with
  | none =>
    have hStop := findEvicted_eq_none_iff.mp hFind
    exact absurd (wouldEvictLocked_conflict hStop) hOther
  | some r =>
    rcases findEvicted_spec hFind with ⟨evicted, hResult, -, -, -, hConflicts⟩
    rcases wouldEvictLocked_found hFind with hSelf | hList
    · exact absurd hSelf hOther
    · rw [hList, hResult]
      exact hConflicts i hi hConflict

/- What is returned is what would be evicted. -/
theorem addAndEvict_evicted {client : Nat} {r : Outcome κ}
    (hCall : m.addAndEvict (some client) = some r) :
    r.evicted = (m.wouldEvictLocked client false).map some ∧ r.manager.heap = m.heap := by
  simp only [addAndEvict] at hCall
  split at hCall
  · cases hCall
    exact ⟨rfl, rfl⟩
  · rcases Option.map_eq_some_iff.mp hCall with ⟨_, -, rfl⟩
    exact ⟨rfl, rfl⟩

/- A call that keeps the books keeps the keys distinct. -/
theorem Booked.distinct {client : Option Nat} {r : Outcome κ} (h : m.Booked client)
    (hKeys : m.Distinct) (hCall : m.addAndEvict client = some r) : r.manager.Distinct := by
  rcases h with ⟨r', hCall', hSelf, hOther⟩
  rw [hCall, Option.some.injEq] at hCall'
  rw [← hCall'] at hSelf hOther
  cases client with
  | none =>
    cases hCall
    exact hKeys
  | some client =>
  rcases addAndEvict_evicted hCall with ⟨hEvicted, hHeap⟩
  have hKey : r.manager.key = m.key := by
    unfold key
    rw [hHeap]
  unfold Distinct
  rw [hKey]
  by_cases hReturned : r.evicted = [some client]
  · rw [hSelf hReturned]
    exact hKeys
  · rcases hOther hReturned with ⟨c, hc, hClients, -⟩
    rw [Option.some.injEq] at hc
    rw [hClients, ← hc, List.map_append, List.nodup_append]
    refine ⟨?_, List.nodup_singleton _, ?_⟩
    · exact hKeys.sublist (List.filter_sublist.map _)
    · intro k hk k' hk' hEq
      rcases List.mem_map.mp hk with ⟨i, hi, rfl⟩
      rcases List.mem_filter.mp hi with ⟨hActive, hStays⟩
      rw [List.map_singleton, List.mem_singleton] at hk'
      rw [decide_eq_true_eq, hEvicted] at hStays
      apply hStays
      apply List.mem_map_of_mem
      apply mem_wouldEvictLocked ?_ hActive (hEq.trans hk')
      intro hOne
      apply hReturned
      rw [hEvicted, hOne]
      rfl

/- The priorities are all that changes. -/
omit [DecidableEq κ] in
theorem updatePriority_mKey (ownerPriorityList : Int → Option Int) (heap : Nat → ClientDescriptor κ)
    (i j : Nat) : (updatePriority ownerPriorityList heap i j).mKey = (heap j).mKey := by
  unfold updatePriority
  cases ownerPriorityList (heap i).mOwnerId with
  | none => rfl
  | some priority =>
    by_cases hEq : j = i
    · rw [hEq]
      simp
    · simp [hEq]

omit [DecidableEq κ] in
theorem updatePriorities_key (ownerPriorityList : Int → Option Int) :
    (m.updatePriorities ownerPriorityList).key = m.key := by
  funext i
  unfold updatePriorities key
  generalize m.mClients = clients
  induction clients using List.reverseRecOn with
  | nil => rfl
  | append_singleton clients j ih =>
    simp only at ih ⊢
    rw [List.foldl_append, List.foldl_cons, List.foldl_nil, updatePriority_mKey]
    exact ih

/- The calls that are not known to go wrong. -/
def OrderlyCall (m : Manager κ) : Call κ → Prop
| .addAndEvict client => m.Orderly client
| _ => True

instance (call : Call κ) : Decidable (m.OrderlyCall call) := by
  cases call <;> unfold OrderlyCall <;> infer_instance

theorem Distinct.step {m' : Manager κ} {call : Call κ} (h : m.Distinct)
    (hOrderly : m.OrderlyCall call) (hStep : m.step call = some m') : m'.Distinct := by
  cases call with
  | addAndEvict client =>
    rcases Option.map_eq_some_iff.mp hStep with ⟨r, hCall, rfl⟩
    exact (booked_of_orderly h hOrderly).distinct h hCall
  | updatePriorities ownerPriorityList =>
    cases hStep
    unfold Distinct
    rw [updatePriorities_key]
    exact h
  | removeAll =>
    cases hStep
    exact List.nodup_nil
  | removeKey key =>
    cases hStep
    exact h.sublist (List.filter_sublist.map _)
  | remove value =>
    cases hStep
    exact h.sublist (List.filter_sublist.map _)
  | setListener listener =>
    cases hStep
    exact h

/-
  In every run from an empty manager whose additions are orderly, the keys stay distinct and every
  orderly addition keeps the books; with costs that are not negative, no other addition does.
-/
theorem addAndEvict_booked_iff {κ : Type*} [DecidableEq κ] {m₀ m : Manager κ}
    {calls : List (Call κ)} (hEmpty : m₀.mClients = [])
    (hRun : Run.exec (Run.guarded OrderlyCall Manager.step) m₀ calls = some m) :
    m.Distinct ∧
      ∀ client,
        (m.Orderly client → m.Booked client) ∧
          ((∀ i ∈ m.mClients, 0 ≤ m.cost i) → (m.Booked client ↔ m.Orderly client)) := by
  have hStart : m₀.Distinct := by
    unfold Distinct
    rw [hEmpty]
    exact List.nodup_nil
  have hDistinct : m.Distinct := by
    apply Run.exec_invariant ?_ hRun hStart
    intro s call t h hStep
    rcases Run.guarded_eq_some.mp hStep with ⟨hOrderly, hNext⟩
    exact h.step hOrderly hNext
  refine ⟨hDistinct, ?_⟩
  intro client
  refine ⟨booked_of_orderly hDistinct, ?_⟩
  intro hCosts
  constructor
  · exact orderly_of_booked hDistinct hCosts
  · exact booked_of_orderly hDistinct

/- Three descriptors, the third with the key of the first. -/
def sharing : Manager Nat :=
  { mMaxCost := 100
    mListener := true
    mClients := []
    heap := fun i => ⟨i % 2, 10, ∅, 0, (i : Int)⟩ }

/- The most recent client may be replaced. -/
theorem sharing_booked :
    ∃ m,
      Run.exec (Run.guarded OrderlyCall Manager.step) sharing
          [.addAndEvict (some 0), .addAndEvict (some 1)] =
        some m ∧ m.Booked (some 3) := by
  have hSome :
      ((Run.exec (Run.guarded OrderlyCall Manager.step) sharing
            [.addAndEvict (some 0), .addAndEvict (some 1)]).any
          (fun m => decide (m.Orderly (some 3)))) =
        true := by
    decide +kernel
  rcases (Option.any_eq_true _ _).mp hSome with ⟨m, hRun, hOrderly⟩
  refine ⟨m, hRun, ?_⟩
  exact ((addAndEvict_booked_iff rfl hRun).2 (some 3)).1 (of_decide_eq_true hOrderly)

/-
  With one client behind it, the client that is replaced is compared with beyond the end of the
  eviction list.
-/
theorem sharing_beyond :
    ∃ m,
      Run.exec Manager.step sharing [.addAndEvict (some 0), .addAndEvict (some 1)] = some m ∧
        m.addAndEvict (some 2) = none ∧ ¬ m.Booked (some 2) := by
  have hNone :
      ((Run.exec Manager.step sharing [.addAndEvict (some 0), .addAndEvict (some 1)]).any
          (fun m => (m.addAndEvict (some 2)).isNone)) =
        true := by
    decide +kernel
  rcases (Option.any_eq_true _ _).mp hNone with ⟨m, hRun, hCall⟩
  have hFails := Option.isNone_iff_eq_none.mp hCall
  refine ⟨m, hRun, hFails, ?_⟩
  rintro ⟨r, hBooked, -⟩
  rw [hFails] at hBooked
  cases hBooked

end Manager

end ClientManager

end FrameworksAv
