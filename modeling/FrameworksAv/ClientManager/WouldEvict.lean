import FrameworksAv.ClientManager.Manager

/-
  Whom an incoming client evicts.

  Main declarations:
    * `Manager.findEvicted_spec`, `Manager.findEvicted_over`
    * `Manager.Refuses`, `Manager.Admits`
    * `Manager.wouldEvict_decides`
-/

--
-- Costs
--

namespace FrameworksAv

namespace ClientManager

/- What a duplicate-free list keeps of one of its sublists. -/
theorem filter_mem_sublist {evicted clients : List Nat} (hSub : evicted.Sublist clients)
    (hNodup : clients.Nodup) : clients.filter (fun i => i ∈ evicted) = evicted := by
  induction hSub with
  | slnil => rfl
  | @cons evicted clients i hSub ih =>
    rcases List.nodup_cons.mp hNodup with ⟨hNew, hRest⟩
    have hOut : i ∉ evicted := fun hIn => hNew (hSub.mem hIn)
    rw [List.filter_cons_of_neg (by simpa using hOut)]
    exact ih hRest
  | @cons_cons evicted clients i hSub ih =>
    rcases List.nodup_cons.mp hNodup with ⟨hNew, hRest⟩
    rw [List.filter_cons_of_pos (by simp)]
    have hSame :
        clients.filter (fun j => j ∈ i :: evicted) = clients.filter (fun j => j ∈ evicted) := by
      apply List.filter_congr
      intro j hj
      have hNe : j ≠ i := fun hEq => hNew (hEq ▸ hj)
      simp [hNe]
    rw [hSame, ih hRest]

namespace Manager

variable {κ : Type*} {m : Manager κ}

@[simp] theorem costOf_nil : m.costOf [] = 0 := rfl

@[simp] theorem costOf_cons (i : Nat) (clients : List Nat) :
    m.costOf (i :: clients) = m.cost i + m.costOf clients := by
  simp [costOf]

/- What goes and what stays make up the cost. -/
theorem costOf_filter_add (p : Nat → Bool) (clients : List Nat) :
    m.costOf (clients.filter p) + m.costOf (clients.filter (fun i => ! p i)) =
      m.costOf clients := by
  induction clients with
  | nil => rfl
  | cons i clients ih =>
    cases h : p i with
    | true =>
      rw [List.filter_cons_of_pos h, List.filter_cons_of_neg (by simp [h]), costOf_cons,
        costOf_cons]
      omega
    | false =>
      rw [List.filter_cons_of_neg (by simp [h]), List.filter_cons_of_pos (by simp [h]), costOf_cons,
        costOf_cons]
      omega

/- The cost of what stays. -/
theorem costOf_stay {evicted clients : List Nat} (hSub : evicted.Sublist clients)
    (hNodup : clients.Nodup) :
    m.costOf (clients.filter (fun i => ! decide (i ∈ evicted))) =
      m.costOf clients - m.costOf evicted := by
  have hBoth := m.costOf_filter_add (fun i => decide (i ∈ evicted)) clients
  rw [filter_mem_sublist hSub hNodup] at hBoth
  omega

/- A selection that only drops clients of no cost. -/
theorem costOf_filter_le {p q : Nat → Bool} {clients : List Nat}
    (hDrop : ∀ i ∈ clients, p i = true → q i = false → m.cost i ≤ 0)
    (hKeep : ∀ i ∈ clients, q i = true → p i = false → 0 ≤ m.cost i) :
    m.costOf (clients.filter p) ≤ m.costOf (clients.filter q) := by
  induction clients with
  | nil => exact le_refl _
  | cons i clients ih =>
    have hRest :=
      ih (fun j hj => hDrop j (List.mem_cons_of_mem _ hj))
        (fun j hj => hKeep j (List.mem_cons_of_mem _ hj))
    have hHead := hDrop i List.mem_cons_self
    have hHead' := hKeep i List.mem_cons_self
    cases hp : p i <;> cases hq : q i <;>
      simp only [List.filter_cons, hp, hq, if_true, if_false, costOf_cons, Bool.false_eq_true] <;>
      simp only [hp, hq, forall_const] at hHead hHead' <;>
      omega

--
-- Priorities
--

/-
  No client has more than the highest priority, and unless the incoming client has it, a client of
  the owner does.
-/
theorem highest_spec (client : Nat) (clients : List Nat) :
    let h := m.highest client clients
    m.priority client ≤ h.1 ∧ (∀ i ∈ clients, m.priority i ≤ h.1) ∧
      (h = (m.priority client, m.owner client) ∨ ∃ i ∈ clients, h = (m.priority i, m.owner i)) := by
  induction clients using List.reverseRecOn with
  | nil => exact ⟨le_refl _, nofun, Or.inl rfl⟩
  | append_singleton clients i ih =>
    rcases ih with ⟨hClient, hAll, hFrom⟩
    have hStep :
        m.highest client (clients ++ [i]) =
          if (m.highest client clients).1 ≤ m.priority i then (m.priority i, m.owner i)
          else m.highest client clients := by
      unfold highest
      rw [List.foldl_append]
      rfl
    intro h
    have hEq : h = _ := hStep
    by_cases hLe : (m.highest client clients).1 ≤ m.priority i
    · rw [if_pos hLe] at hEq
      rw [hEq]
      refine ⟨le_trans hClient hLe, ?_, Or.inr ⟨i, by simp, rfl⟩⟩
      intro j hj
      rcases List.mem_append.mp hj with hOld | hNew
      · exact le_trans (hAll j hOld) hLe
      · rw [List.mem_singleton.mp hNew]
    · rw [if_neg hLe] at hEq
      rw [hEq]
      refine ⟨hClient, ?_, ?_⟩
      · intro j hj
        rcases List.mem_append.mp hj with hOld | hNew
        · exact hAll j hOld
        · rw [List.mem_singleton.mp hNew]
          exact le_of_not_ge hLe
      · rcases hFrom with hSelf | ⟨j, hj, hOf⟩
        · exact Or.inl hSelf
        · exact Or.inr ⟨j, List.mem_append_left _ hj, hOf⟩

/- Another owner in front has a client of a higher priority. -/
theorem exists_higher {client : Nat} (hOther : m.highestPriorityOwner client ≠ m.owner client) :
    ∃ i ∈ m.mClients, m.priority client < m.priority i := by
  rcases m.highest_spec client m.mClients with ⟨hClient, -, hFrom⟩
  unfold highestPriorityOwner at hOther
  by_cases hSame : (m.highest client m.mClients).1 = m.priority client
  · rw [if_pos hSame] at hOther
    exact absurd rfl hOther
  rcases hFrom with hSelf | ⟨i, hi, hOf⟩
  · rw [hSelf] at hSame
    exact absurd rfl hSame
  refine ⟨i, hi, ?_⟩
  rw [hOf] at hClient hSame
  exact lt_of_le_of_ne hClient (Ne.symm hSame)

/- The priority goes with the owner, for the active clients and the incoming one. -/
def SamePriority (m : Manager κ) (client : Nat) : Prop :=
  ∀ i ∈ m.mClients, m.owner i = m.owner client → m.priority i = m.priority client

/- With its own owner in front, no client has a higher one. -/
theorem priority_le {client : Nat} (hSame : m.SamePriority client)
    (hOwn : m.highestPriorityOwner client = m.owner client) :
    ∀ i ∈ m.mClients, m.priority i ≤ m.priority client := by
  rcases m.highest_spec client m.mClients with ⟨hClient, hAll, hFrom⟩
  suffices hTop : (m.highest client m.mClients).1 = m.priority client by
    rw [hTop] at hAll
    exact hAll
  by_contra hNe
  unfold highestPriorityOwner at hOwn
  rw [if_neg hNe] at hOwn
  rcases hFrom with hSelf | ⟨i, hi, hOf⟩
  · rw [hSelf] at hNe
    exact hNe rfl
  · rw [hOf] at hOwn hNe
    exact hNe (hSame i hi hOwn)

end Manager

--
-- Evictions
--

namespace Manager

variable {κ : Type*} [DecidableEq κ] {m : Manager κ}

/- The same key, or a key in the other's conflicting keys. -/
def Conflicts (m : Manager κ) (client i : Nat) : Prop :=
  m.key i = m.key client ∨ m.key client ∈ (m.heap i).mConflicting ∨
    m.key i ∈ (m.heap client).mConflicting

theorem conflicting_iff {client i : Nat} :
    m.conflicting client i = true ↔ m.Conflicts client i := by
  unfold conflicting ClientDescriptor.isConflicting Conflicts
  simp only [Bool.or_eq_true, decide_eq_true_eq]
  constructor
  · rintro ((hKey | hKey | hIn) | hKey | hIn)
    · exact Or.inl hKey
    · exact Or.inl (Eq.symm hKey)
    · exact Or.inr (Or.inl hIn)
    · exact Or.inl hKey
    · exact Or.inr (Or.inr hIn)
  · rintro (hKey | hIn | hIn)
    · exact Or.inl (Or.inl hKey)
    · exact Or.inl (Or.inr (Or.inr hIn))
    · exact Or.inr (Or.inr hIn)

omit [DecidableEq κ] in
theorem evictable_iff {client i : Nat} :
    m.evictable client i = true ↔
      0 < m.cost i ∧ m.priority i ≤ m.priority client ∧
        ¬ (m.highestPriorityOwner client = m.owner client ∧ m.owner client = m.owner i) := by
  simp only [evictable, Bool.and_eq_true, Bool.not_eq_true',
    decide_eq_true_eq, and_assoc, ← Bool.decide_and, decide_eq_false_iff_not]

/- A conflicting client with a higher priority stops it all. -/
theorem findEvicted_eq_none_iff {client : Nat} {clients : List Nat} {totalCost : Int}
    {evictList : List Nat} :
    m.findEvicted client clients totalCost evictList = none ↔
      ∃ i ∈ clients, m.conflicting client i = true ∧ m.priority client < m.priority i := by
  induction clients generalizing totalCost evictList with
  | nil => simp [findEvicted]
  | cons i clients ih =>
    unfold findEvicted
    by_cases hStop : m.conflicting client i = true ∧ m.priority client < m.priority i
    · rw [if_pos hStop]
      simp [hStop]
    · rw [if_neg hStop, List.exists_mem_cons_iff, or_iff_right hStop]
      split
      · exact ih
      · exact ih

/-
  The evicted clients are active, conflicting or evictable, and of no higher priority, every
  conflicting client is among them, and the cost goes down by theirs.
-/
theorem findEvicted_spec {client : Nat} {clients : List Nat} {totalCost : Int}
    {evictList : List Nat} {r : List Nat × Int}
    (hFind : m.findEvicted client clients totalCost evictList = some r) :
    ∃ evicted,
      r = (evictList ++ evicted, totalCost - m.costOf evicted) ∧ evicted.Sublist clients ∧
        (∀ i ∈ evicted, m.conflicting client i = true ∨ m.evictable client i = true) ∧
        (∀ i ∈ evicted, m.priority i ≤ m.priority client) ∧
        ∀ i ∈ clients, m.conflicting client i = true → i ∈ evicted := by
  induction clients generalizing totalCost evictList with
  | nil =>
    cases hFind
    refine ⟨[], ?_, List.Sublist.refl [], nofun, nofun, nofun⟩
    simp
  | cons i clients ih =>
    unfold findEvicted at hFind
    by_cases hStop : m.conflicting client i = true ∧ m.priority client < m.priority i
    · rw [if_pos hStop] at hFind
      cases hFind
    rw [if_neg hStop] at hFind
    by_cases hGoes :
        m.conflicting client i = true ∨ m.mMaxCost < totalCost ∧ m.evictable client i = true
    · rw [if_pos hGoes] at hFind
      rcases ih hFind with ⟨evicted, hResult, hSub, hWhy, hLower, hAll⟩
      refine ⟨i :: evicted, ?_, hSub.cons_cons i, ?_, ?_, ?_⟩
      · rw [hResult, List.append_assoc, costOf_cons, sub_sub]
        rfl
      · rw [List.forall_mem_cons]
        exact ⟨hGoes.imp_right And.right, hWhy⟩
      · rw [List.forall_mem_cons]
        refine ⟨?_, hLower⟩
        rcases hGoes with hConflict | ⟨-, hMay⟩
        · by_contra hMore
          exact hStop ⟨hConflict, lt_of_not_ge hMore⟩
        · exact (evictable_iff.mp hMay).2.1
      · rw [List.forall_mem_cons]
        refine ⟨fun _ => List.mem_cons_self, ?_⟩
        intro j hj hConflict
        exact List.mem_cons_of_mem _ (hAll j hj hConflict)
    · rw [if_neg hGoes] at hFind
      rcases ih hFind with ⟨evicted, hResult, hSub, hWhy, hLower, hAll⟩
      refine ⟨evicted, hResult, hSub.cons i, hWhy, hLower, ?_⟩
      rw [List.forall_mem_cons]
      exact ⟨fun hConflict => absurd (Or.inl hConflict) hGoes, hAll⟩

/-
  When the cost is still too high at the end, it was so all the time, and every evictable client has
  gone.
-/
theorem findEvicted_over {client : Nat} {clients : List Nat} {totalCost : Int}
    {evictList evicted : List Nat} {rest : Int} (hCosts : ∀ i ∈ clients, 0 ≤ m.cost i)
    (hFind : m.findEvicted client clients totalCost evictList = some (evictList ++ evicted, rest))
    (hOver : m.mMaxCost < rest) :
    m.mMaxCost < totalCost ∧ ∀ i ∈ clients, m.evictable client i = true → i ∈ evicted := by
  induction clients generalizing totalCost evictList evicted with
  | nil =>
    simp only [findEvicted, Option.some.injEq, Prod.mk.injEq] at hFind
    rw [hFind.2]
    exact ⟨hOver, nofun⟩
  | cons i clients ih =>
    have hRest : ∀ j ∈ clients, 0 ≤ m.cost j := fun j hj => hCosts j (List.mem_cons_of_mem _ hj)
    have hCost := hCosts i List.mem_cons_self
    unfold findEvicted at hFind
    by_cases hStop : m.conflicting client i = true ∧ m.priority client < m.priority i
    · rw [if_pos hStop] at hFind
      cases hFind
    rw [if_neg hStop] at hFind
    by_cases hGoes :
        m.conflicting client i = true ∨ m.mMaxCost < totalCost ∧ m.evictable client i = true
    · rw [if_pos hGoes] at hFind
      rcases findEvicted_spec hFind with ⟨others, hResult, -⟩
      have hList := congrArg Prod.fst hResult
      simp only [List.append_assoc, List.append_cancel_left_eq] at hList
      rw [hList, ← List.append_assoc] at hFind
      rcases ih hRest hFind with ⟨hMore, hAll⟩
      constructor
      · omega
      · rw [hList]
        rw [List.forall_mem_cons]
        refine ⟨fun _ => List.mem_cons_self, ?_⟩
        intro j hj hMay
        exact List.mem_cons_of_mem _ (hAll j hj hMay)
    · rw [if_neg hGoes] at hFind
      rcases ih hRest hFind with ⟨hMore, hAll⟩
      refine ⟨hMore, ?_⟩
      rw [List.forall_mem_cons]
      exact ⟨fun hMay => absurd (Or.inr ⟨hMore, hMay⟩) hGoes, hAll⟩

--
-- Decision
--

/-
  A client of a higher priority conflicts, or there is one and the cost limit cannot be met by
  taking away clients of no higher priority only.
-/
def Refuses (m : Manager κ) (client : Nat) : Prop :=
  (∃ i ∈ m.mClients, m.Conflicts client i ∧ m.priority client < m.priority i) ∨
    (∃ i ∈ m.mClients, m.priority client < m.priority i) ∧
      ∀ losers : List Nat, (∀ i ∈ losers, m.priority i ≤ m.priority client) →
        m.mMaxCost < m.costOf (m.mClients.filter (fun i => ! decide (i ∈ losers))) + m.cost client

/- What the documentation of the class asks of an eviction. -/
structure Admits (m : Manager κ) (client : Nat) (evicted : List Nat) : Prop where
  active : evicted.Sublist m.mClients
  conflicts : ∀ i ∈ m.mClients, m.Conflicts client i → i ∈ evicted
  lower : ∀ i ∈ evicted, m.priority i ≤ m.priority client
  cost :
    m.costOf (m.mClients.filter (fun i => ! decide (i ∈ evicted))) + m.cost client ≤ m.mMaxCost ∨
      ∀ i ∈ m.mClients, i ∉ evicted →
        m.priority i ≤ m.priority client ∧ (m.cost i ≠ 0 → m.owner i = m.owner client)

/-
  The active clients are as the manager is meant to be used: distinct keys, no negative cost, and a
  priority that goes with the owner.
-/
structure Consistent (m : Manager κ) (client : Nat) : Prop where
  keys : (m.mClients.map m.key).Nodup
  costs : ∀ i ∈ m.mClients, 0 ≤ m.cost i
  owners : m.SamePriority client

omit [DecidableEq κ] in
theorem Consistent.nodup {client : Nat} (h : m.Consistent client) : m.mClients.Nodup :=
  List.Nodup.of_map _ h.keys

/- The cost with the incoming client and without the evicted. -/
omit [DecidableEq κ] in
theorem totalCost_sub {client : Nat} {evicted : List Nat} (hSub : evicted.Sublist m.mClients)
    (hNodup : m.mClients.Nodup) :
    m.totalCost client - m.costOf evicted =
      m.costOf (m.mClients.filter (fun i => ! decide (i ∈ evicted))) + m.cost client := by
  rw [costOf_stay hSub hNodup]
  unfold totalCost getCurrentCostLocked
  omega

/- Too high a cost, with another owner in front. -/
theorem refuses_of_over {client : Nat} {evicted : List Nat} {rest : Int} (h : m.Consistent client)
    (hFind : m.findEvicted client m.mClients (m.totalCost client) [] = some (evicted, rest))
    (hOver : m.mMaxCost < rest) (hOther : m.highestPriorityOwner client ≠ m.owner client) :
    m.Refuses client := by
  right
  refine ⟨exists_higher hOther, ?_⟩
  intro losers hLosers
  rcases findEvicted_spec hFind with ⟨others, hResult, hSub, -⟩
  rw [List.nil_append, Prod.mk.injEq] at hResult
  rcases hResult with ⟨rfl, rfl⟩
  have hGone := (findEvicted_over h.costs hFind hOver).2
  rw [totalCost_sub hSub h.nodup] at hOver
  have hLess :
      m.costOf (m.mClients.filter (fun i => ! decide (i ∈ evicted))) ≤
        m.costOf (m.mClients.filter (fun i => ! decide (i ∈ losers))) := by
    apply costOf_filter_le
    · intro i hi hStays hLoses
      simp only [Bool.not_eq_true', decide_eq_false_iff_not,
        Bool.not_eq_false', decide_eq_true_eq] at hStays hLoses
      -- one with a cost would have gone
      by_contra hCost
      apply hStays
      apply hGone i hi
      rw [evictable_iff]
      exact ⟨lt_of_not_ge hCost, hLosers i hLoses, fun hBoth => hOther hBoth.1⟩
    · intro i hi _ _
      exact h.costs i hi
  omega

/- Every client without a right to stay is in the list. -/
theorem admits_of_found {client : Nat} {evicted : List Nat} {rest : Int} (h : m.Consistent client)
    (hFind : m.findEvicted client m.mClients (m.totalCost client) [] = some (evicted, rest))
    (hFits : ¬ (m.mMaxCost < rest ∧ m.highestPriorityOwner client ≠ m.owner client)) :
    m.Admits client evicted := by
  rcases findEvicted_spec hFind with ⟨others, hResult, hSub, -, hLower, hConflicts⟩
  rw [List.nil_append, Prod.mk.injEq] at hResult
  rcases hResult with ⟨rfl, rfl⟩
  constructor
  · exact hSub
  · intro i hi hConflict
    exact hConflicts i hi (conflicting_iff.mpr hConflict)
  · exact hLower
  · rw [← totalCost_sub hSub h.nodup]
    by_cases hOver : m.mMaxCost < m.totalCost client - m.costOf evicted
    · right
      have hOwn : m.highestPriorityOwner client = m.owner client := by
        by_contra hOther
        exact hFits ⟨hOver, hOther⟩
      have hGone := (findEvicted_over h.costs hFind hOver).2
      intro i hi hStays
      have hLe := priority_le h.owners hOwn i hi
      refine ⟨hLe, ?_⟩
      intro hCost
      by_contra hOwner
      apply hStays
      apply hGone i hi
      rw [evictable_iff]
      have hPos : 0 < m.cost i := lt_of_le_of_ne (h.costs i hi) (Ne.symm hCost)
      exact ⟨hPos, hLe, fun hBoth => hOwner (Eq.symm hBoth.2)⟩
    · exact Or.inl (le_of_not_gt hOver)

/-
  Either the incoming client is returned, and is refused with reason, or the clients returned are
  those that have to go.
-/
theorem wouldEvict_decides {κ : Type*} [DecidableEq κ] {m : Manager κ} {client : Nat}
    (h : m.Consistent client) :
    m.wouldEvict (some client) = [some client] ∧ m.Refuses client ∨
      ∃ evicted, m.wouldEvict (some client) = evicted.map some ∧ m.Admits client evicted := by
  cases hFind : m.findEvicted client m.mClients (m.totalCost client) [] with
  | none =>
    left
    constructor
    · simp [wouldEvict, wouldEvictLocked, hFind]
    · left
      rcases findEvicted_eq_none_iff.mp hFind with ⟨i, hi, hConflict, hMore⟩
      exact ⟨i, hi, conflicting_iff.mp hConflict, hMore⟩
  | some r =>
    rcases r with ⟨evicted, rest⟩
    by_cases hOver : m.mMaxCost < rest ∧ m.highestPriorityOwner client ≠ m.owner client
    · left
      constructor
      · simp [wouldEvict, wouldEvictLocked, hFind, hOver]
      · exact refuses_of_over h hFind hOver.1 hOver.2
    · right
      refine ⟨evicted, ?_, admits_of_found h hFind hOver⟩
      simp only [wouldEvict, wouldEvictLocked, hFind]
      rw [if_neg hOver]
      rfl

/- Two clients of different owners, and a third one that does not fit beside both. -/
def crowded : Manager Nat :=
  { mMaxCost := 100
    mListener := true
    mClients := [0, 1]
    heap := fun i => ⟨i, 40, ∅, 0, (i : Int)⟩ }

theorem crowded_admits :
    ∃ evicted, crowded.wouldEvict (some 2) = evicted.map some ∧ crowded.Admits 2 evicted := by
  have hConsistent : crowded.Consistent 2 := by
    constructor
    · decide
    · decide
    · unfold SamePriority
      decide
  rcases wouldEvict_decides hConsistent with ⟨hSelf, -⟩ | hAdmits
  · exact absurd hSelf (by decide)
  · exact hAdmits

end Manager

end ClientManager

end FrameworksAv
