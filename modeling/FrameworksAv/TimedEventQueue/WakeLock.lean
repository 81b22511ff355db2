import FrameworksAv.TimedEventQueue.Steps

/-
  The wake lock of `TimedEventQueue`. An item is flagged for having a wake lock even when the
  acquisition has failed, and it stays flagged when the power manager dies; each flag gives a count
  back. So the count is that of the items which have raised it exactly as long as no item that has
  not is taken out before all that have.

  Main declarations:
    * `WakeLock`, `Releases`
    * `step_accounts`
    * `wakeLock_always_iff`
-/

--
-- What the count should be
--

namespace FrameworksAv

namespace TimedEventQueue

variable {σ : Type}

/- The items that are queued or firing. -/
def State.outstanding (s : State) : List QueueItem :=
  s.mQueue ++ s.thread.items

/- Did the post of the item raise the count, and has the power manager lived since? -/
def State.counts (s : State) (item : QueueItem) : Bool :=
  item.post ∈ s.counted

/- How many items have raised the count. -/
def State.accounted (s : State) : Nat :=
  s.outstanding.countP s.counts

/-
  The count of wake locks is that of the counted items, the lock is held while there is one, and not
  held when nothing is queued or firing.
-/
structure WakeLock (s : State) : Prop where
  count : s.mWakeLockCount = s.accounted
  held : (∃ item ∈ s.outstanding, s.counts item = true) → s.granted ≠ []
  free : s.outstanding = [] → s.granted = []

/- The items that a step gives up. -/
def letsGo (s : State) : Action σ → List QueueItem
| .cancelEvent id =>
  if id = 0 then []
  else matched MatchesEventID true id s.eventID s.mQueue
| .cancelEvents predicate cookie stopAfterFirstMatch =>
  matched predicate stopAfterFirstMatch cookie s.eventID s.mQueue
| .finish => s.thread.items
| _ => []

/-
  A step gives up a flagged item that is not counted only when it leaves no counted one, and it
  posts an item that asks for the lock only when the count of them fits into 32 bits.
-/
def Releases (s : State) (a : Action σ) : Prop :=
  ((∃ item ∈ letsGo s a, item.has_wakelock = true ∧ s.counts item = false) →
      ∀ item ∈ s.outstanding, s.counts item = true → item ∈ letsGo s a) ∧
    ∀ event realtime_us power, a = .post event realtime_us power →
      s.delayed realtime_us = true → s.accounted + 1 < 2 ^ 32

--
-- What holds of the items in every run
--

/- Items are told apart by their posts; counted ones are flagged. -/
structure Items (s : State) : Prop where
  distinct : (s.outstanding.map QueueItem.post).Nodup
  posted : ∀ item ∈ s.outstanding, item.post < s.posts.length
  counted : ∀ post ∈ s.counted, post < s.posts.length
  flagged : ∀ item ∈ s.outstanding, s.counts item = true → item.has_wakelock = true

theorem Items.start (clock : Int) : Items (start clock) where
  distinct := by
    simp [TimedEventQueue.start, State.outstanding, Thread.items]
  posted := by
    simp [TimedEventQueue.start, State.outstanding, Thread.items]
  counted := by simp [TimedEventQueue.start]
  flagged := by
    simp [TimedEventQueue.start, State.outstanding, Thread.items]

/- The items of a state whose items are among those before. -/
theorem Items.of_perm {s t : State} (hItems : Items s) {gone : List QueueItem}
    (hPerm : s.outstanding.Perm (gone ++ t.outstanding)) (hCounted : t.counted = s.counted)
    (hPosts : t.posts = s.posts) : Items t := by
  have hSub : ∀ item ∈ t.outstanding, item ∈ s.outstanding := by
    intro item hItem
    apply hPerm.mem_iff.mpr
    exact List.mem_append_right gone hItem
  refine ⟨?_, ?_, ?_, ?_⟩
  · have hAll := (hPerm.map QueueItem.post).nodup_iff.mp hItems.distinct
    rw [List.map_append] at hAll
    exact (List.nodup_append.mp hAll).2.1
  · intro item hItem
    rw [hPosts]
    exact hItems.posted item (hSub item hItem)
  · rw [hCounted, hPosts]
    exact hItems.counted
  · intro item hItem hCounts
    apply hItems.flagged item (hSub item hItem)
    unfold State.counts at hCounts ⊢
    rw [← hCounted]
    exact hCounts

/- The lock follows the count. -/
theorem WakeLock.of_lock {s : State} (hLock : Lock s) (hCount : s.mWakeLockCount = s.accounted) :
    WakeLock s where
  count := hCount
  held := by
    rintro ⟨item, hItem, hCounts⟩ hFree
    rw [hLock.granted_eq_nil_iff, hCount] at hFree
    have hNone := List.countP_eq_zero.mp hFree item hItem
    exact hNone hCounts
  free := by
    intro hNone
    rw [hLock.granted_eq_nil_iff, hCount]
    simp [State.accounted, hNone]

--
-- Steps that give items up
--

/- The items are given up and one count is given back for each of their flags. -/
structure Drops (gone : List QueueItem) (s t : State) : Prop where
  perm : s.outstanding.Perm (gone ++ t.outstanding)
  count : t.mWakeLockCount = s.mWakeLockCount - flags gone
  counted : t.counted = s.counted
  posts : t.posts = s.posts
  lock : Lock s → Lock t

/- Items that leave the queue are given up. -/
theorem Cancels.drops {gone : List QueueItem} {s t : State} (hCancels : Cancels gone s t)
    (hPerm : s.mQueue.Perm (gone ++ t.mQueue)) : Drops gone s t := by
  have hFrame := hCancels.frame
  refine ⟨?_, ?_, ?_, ?_, hCancels.lock⟩
  · have hThread : t.thread = s.thread := by rw [hFrame]
    unfold State.outstanding
    rw [hThread, ← List.append_assoc]
    exact hPerm.append_right s.thread.items
  · rw [hFrame]
  · rw [hFrame]
  · rw [hFrame]

/- The thread's own moves give nothing up. -/
theorem ThreadMoves.drops {stops : Event → Bool} {s t : State} (hNone : s.thread.items = [])
    (hMoves : ThreadMoves stops s t) : Drops [] s t := by
  have hIdle : ∀ thread : Thread, thread.items = [] → Drops [] s { s with thread := thread } := by
    intro thread hItems
    refine ⟨?_, rfl, rfl, rfl, ?_⟩
    · simp [State.outstanding, hItems, hNone]
    · exact fun hLock => hLock.congr rfl rfl rfl rfl
  have hFires :
      ∀ item rest since,
        s.mQueue.Perm (item :: rest) → Drops [] s (fired stops item rest since s) := by
    intro item rest since hPerm
    refine ⟨?_, rfl, rfl, rfl, ?_⟩
    · unfold State.outstanding
      rw [hNone, List.append_nil]
      exact hPerm.trans (List.perm_append_singleton item rest).symm
    · exact fun hLock => hLock.congr rfl rfl rfl rfl
  cases hMoves with
  | idles thread hThread =>
    apply hIdle
    rcases hThread with rfl | rfl <;> rfl
  | turns id =>
    rcases turn_cases stops id s with ⟨-, hTurn⟩ | ⟨head, rest, hQueue, hCases⟩
    · rw [hTurn]
      exact hIdle .top rfl
    · rcases hCases with ⟨-, hTurn⟩ | ⟨deadline, capped, -, hTurn⟩
      · rw [hTurn]
        apply hFires
        rw [hQueue]
      · rw [hTurn]
        exact hIdle _ rfl
  | fires id deadline head since hWaits hOver =>
    rcases fireEvent_cases stops id (some since) s with
      hTop | ⟨item, rest, -, -, -, hPerm, hFire⟩
    · rw [hTop]
      exact hIdle .top rfl
    · rw [hFire]
      exact hFires item rest _ hPerm

/- The end of a call of `fire` gives its item up. -/
theorem finish_drops {item : QueueItem} {now_us : Int} {s t : State}
    (hAt : s.thread = .firing item now_us) (hFinish : finish item s = some t) :
    Drops [item] s t := by
  unfold finish at hFinish
  rcases Option.map_eq_some_iff.mp hFinish with ⟨u, hRelease, rfl⟩
  have hPerm : ∀ queue : List QueueItem, (queue ++ [item]).Perm ([item] ++ (queue ++ [])) := by
    intro queue
    rw [List.append_nil]
    exact List.perm_append_comm
  split at hRelease
  · rename_i hFlag
    have hEq := releaseWakeLock_l_eq hRelease
    refine ⟨?_, ?_, ?_, ?_, ?_⟩
    · unfold State.outstanding
      rw [hAt, hEq]
      exact hPerm s.mQueue
    · rw [hEq]
      simp [flags, hFlag]
    · rw [hEq]
    · rw [hEq]
    · intro hLock
      exact (releaseWakeLock_l_lock hRelease hLock).congr
        rfl rfl rfl rfl
  · rename_i hFlag
    cases hRelease
    refine ⟨?_, ?_, rfl, rfl, ?_⟩
    · unfold State.outstanding
      rw [hAt]
      exact hPerm s.mQueue
    · simp [flags, hFlag]
    · exact fun hLock => hLock.congr rfl rfl rfl rfl

/- Every step but a post and a death only gives items up. -/
theorem step_drops {stops : Event → Bool} {s t : State} {a : Action σ}
    (hStep : step stops s a = some t)
    (hPost : ∀ event realtime_us power, a ≠ .post event realtime_us power)
    (hDeath : a ≠ .binderDied) : Drops (letsGo s a) s t := by
  cases a with
  | post event realtime_us power => exact absurd rfl (hPost event realtime_us power)
  | binderDied => exact absurd rfl hDeath
  | cancelEvent id =>
    unfold step at hStep
    rcases Option.map_eq_some_iff.mp hStep with ⟨⟨u, found⟩, hCancel, rfl⟩
    have hDrops : Drops (letsGo s (.cancelEvent id : Action σ)) s u := by
      unfold cancelEvent at hCancel
      by_cases hZero : id = 0
      · rw [if_pos hZero] at hCancel
        cases hCancel
        simp only [letsGo, if_pos hZero]
        apply (Cancels.refl s).drops
        exact List.Perm.refl _
      · rw [if_neg hZero] at hCancel
        rcases Option.map_eq_some_iff.mp hCancel with ⟨⟨v, cookie⟩, hEvents, hResult⟩
        cases hResult
        simp only [letsGo, if_neg hZero]
        rcases cancelEvents_cancels hEvents with ⟨hCancels, -, hPerm⟩
        exact hCancels.drops hPerm
    dsimp only
    split
    · exact ⟨hDrops.perm, hDrops.count, hDrops.counted, hDrops.posts, fun hLock =>
          (hDrops.lock hLock).congr rfl rfl rfl rfl⟩
    · exact hDrops
  | cancelEvents predicate cookie stopAfterFirstMatch =>
    unfold step at hStep
    rcases Option.map_eq_some_iff.mp hStep with ⟨⟨u, left⟩, hCancel, rfl⟩
    rcases cancelEvents_cancels hCancel with ⟨hCancels, -, hPerm⟩
    exact hCancels.drops hPerm
  | enter =>
    rcases step_threadMoves (Or.inl rfl) hStep with ⟨hNone, hMoves⟩
    exact hMoves.drops hNone
  | wake =>
    rcases step_threadMoves (Or.inr (Or.inl rfl)) hStep with ⟨hNone, hMoves⟩
    exact hMoves.drops hNone
  | timeout =>
    rcases step_threadMoves (Or.inr (Or.inr rfl)) hStep with ⟨hNone, hMoves⟩
    exact hMoves.drops hNone
  | finish =>
    unfold step at hStep
    cases hAt : s.thread with
    | firing item now_us =>
      rw [hAt] at hStep
      have hDrops := finish_drops hAt hStep
      simpa [letsGo, hAt, Thread.items] using hDrops
    | _ =>
      rw [hAt] at hStep
      cases hStep
  | tick us =>
    unfold step at hStep
    cases hStep
    refine ⟨List.Perm.refl _, rfl, rfl, rfl, ?_⟩
    exact fun hLock => hLock.congr rfl rfl rfl rfl

--
-- One step
--

/- What holds in every state whose count is right. -/
structure Accounts (s : State) : Prop where
  lock : Lock s
  items : Items s

/- What is given up is flagged, or was never counted. -/
theorem flags_eq {s : State} {gone : List QueueItem}
    (hFlagged : ∀ item ∈ gone, s.counts item = true → item.has_wakelock = true) :
    flags gone =
      gone.countP s.counts +
        gone.countP
          (fun item =>
            item.has_wakelock && !s.counts item) := by
  unfold flags
  induction gone with
  | nil => rfl
  | cons item rest ih =>
    have hRest := ih (fun i hi => hFlagged i (List.mem_cons_of_mem _ hi))
    have hItem := hFlagged item List.mem_cons_self
    simp only [List.countP_cons]
    cases hCounts : s.counts item <;>
      cases hFlag : item.has_wakelock <;>
      simp [hCounts, hFlag] at hItem ⊢ <;>
      omega

/-
  Giving items up keeps the count right exactly when no uncounted flag is among them or no counted
  item stays.
-/
theorem Drops.accounts {gone : List QueueItem} {s t : State} (hDrops : Drops gone s t)
    (hAccounts : Accounts s) (hCount : s.mWakeLockCount = s.accounted) :
    Accounts t ∧
      (t.mWakeLockCount = t.accounted ↔
        ((∃ item ∈ gone, item.has_wakelock = true ∧ s.counts item = false) →
          ∀ item ∈ s.outstanding, s.counts item = true → item ∈ gone)) := by
  have hItems := hAccounts.items.of_perm hDrops.perm hDrops.counted hDrops.posts
  refine ⟨⟨hDrops.lock hAccounts.lock, hItems⟩, ?_⟩
  have hCounts : t.counts = s.counts := by
    funext item
    simp [State.counts, hDrops.counted]
  have hGone : ∀ item ∈ gone, item ∈ s.outstanding := by
    intro item hItem
    apply hDrops.perm.mem_iff.mpr
    exact List.mem_append_left _ hItem
  have hFlags :=
    flags_eq (fun item hItem =>
      hAccounts.items.flagged item (hGone item hItem))
  have hSplit : s.accounted = gone.countP s.counts + t.accounted := by
    unfold State.accounted
    rw [hDrops.perm.countP_eq, List.countP_append, hCounts]
  have hStale :
      (∃ item ∈ gone, item.has_wakelock = true ∧ s.counts item = false) ↔
        0 <
          gone.countP
            (fun item =>
              item.has_wakelock && !s.counts item) := by
    rw [List.countP_pos_iff]
    simp
  have hStays : (∀ item ∈ s.outstanding, s.counts item = true → item ∈ gone) ↔ t.accounted = 0 := by
    unfold State.accounted
    rw [List.countP_eq_zero, hCounts]
    constructor
    · intro hAll item hItem hCounted
      have hIn : item ∈ s.outstanding := by
        apply hDrops.perm.mem_iff.mpr
        exact List.mem_append_right gone hItem
      have hBoth := hAll item hIn hCounted
      have hDistinct := (hDrops.perm.map QueueItem.post).nodup_iff.mp hAccounts.items.distinct
      rw [List.map_append] at hDistinct
      apply (List.nodup_append.mp hDistinct).2.2 item.post (List.mem_map_of_mem hBoth)
        item.post (List.mem_map_of_mem hItem)
      rfl
    · intro hNone item hItem hCounted
      rcases List.mem_append.mp (hDrops.perm.mem_iff.mp hItem) with hIn | hIn
      · exact hIn
      · exact absurd hCounted (hNone item hIn)
  rw [hStale, hStays, hDrops.count, hCount, hSplit, hFlags]
  omega

/- A post counts its item exactly when the count rises. -/
theorem Posts.accounts {event : Event} {realtime_us : Int} {s t : State}
    (hPosts : Posts event realtime_us s t) (hAccounts : Accounts s)
    (hCount : s.mWakeLockCount = s.accounted) :
    (t.mWakeLockCount = t.accounted ↔ (s.delayed realtime_us = true → s.accounted + 1 < 2 ^ 32)) ∧
      (t.mWakeLockCount = t.accounted → Accounts t) := by
  have hItems := hAccounts.items
  have hPerm : t.outstanding.Perm (newItem event realtime_us s :: s.outstanding) := by
    unfold State.outstanding
    rw [hPosts.frame]
    exact (insertItem_perm _ _).append_right s.thread.items
  have hLater : ∀ post ∈ t.counted, post = s.posts.length ∨ post ∈ s.counted := by
    intro post hPost
    rcases hPosts.count with ⟨-, hSame, -⟩ | ⟨-, -, hMore⟩
    · rw [hSame] at hPost
      exact Or.inr hPost
    · rw [hMore] at hPost
      exact List.mem_cons.mp hPost
  have hOld : ∀ item ∈ s.outstanding, t.counts item = s.counts item := by
    intro item hItem
    have hBefore := hItems.posted item hItem
    unfold State.counts
    rcases hPosts.count with ⟨-, hSame, -⟩ | ⟨-, -, hMore⟩
    · rw [hSame]
    · rw [hMore]
      have hNew : item.post ≠ s.posts.length := by omega
      simp [hNew]
  have hOldCount : s.outstanding.countP t.counts = s.accounted := by
    unfold State.accounted
    apply List.countP_congr
    intro item hItem
    rw [hOld item hItem]
  have hFresh : s.posts.length ∉ s.counted := by
    intro hMem
    exact absurd (hItems.counted _ hMem) (Nat.lt_irrefl _)
  have hTotal : t.accounted = s.accounted + if s.posts.length ∈ t.counted then 1 else 0 := by
    unfold State.accounted
    rw [hPerm.countP_eq, List.countP_cons, hOldCount]
    congr 1
    exact if_congr decide_eq_true_iff rfl rfl
  have hIff :
      t.mWakeLockCount = t.accounted ↔
        (s.delayed realtime_us = true → s.accounted + 1 < 2 ^ 32) := by
    rw [hTotal]
    rcases hPosts.count with ⟨hStill, hSame, hZero⟩ | ⟨hDelayed, hRaised, hMore⟩
    · rw [hStill, hSame, if_neg hFresh, hCount]
      constructor
      · intro _ hDelayed
        have hNone := hZero hDelayed
        omega
      · intro _
        rfl
    · rw [hRaised, hMore, if_pos List.mem_cons_self, hCount]
      constructor
      · intro hEq _
        omega
      · intro hRoom
        exact Nat.mod_eq_of_lt (hRoom hDelayed)
  refine ⟨hIff, ?_⟩
  intro hRight
  have hRoom := hIff.mp hRight
  have hLength : t.posts.length = s.posts.length + 1 := by
    rw [hPosts.frame]
    simp
  refine ⟨hPosts.lock ?_ hAccounts.lock, ?_, ?_, ?_, ?_⟩
  · rw [hCount]
    exact hRoom
  · apply (hPerm.map QueueItem.post).nodup_iff.mpr
    rw [List.map_cons, List.nodup_cons]
    refine ⟨?_, hItems.distinct⟩
    intro hMem
    rcases List.mem_map.mp hMem with ⟨item, hItem, hPost⟩
    have hBefore := hItems.posted item hItem
    simp only [newItem] at hPost
    omega
  · intro item hItem
    rw [hLength]
    rcases List.mem_cons.mp (hPerm.mem_iff.mp hItem) with
      rfl | hIn
    · exact Nat.lt_succ_self _
    · exact Nat.lt_succ_of_lt (hItems.posted item hIn)
  · intro post hPost
    rw [hLength]
    rcases hLater post hPost with rfl | hIn
    · exact Nat.lt_succ_self _
    · exact Nat.lt_succ_of_lt (hItems.counted post hIn)
  · intro item hItem hCounts
    rcases List.mem_cons.mp (hPerm.mem_iff.mp hItem) with
      rfl | hIn
    · rcases hPosts.count with ⟨-, hSame, -⟩ | ⟨hDelayed, -, -⟩
      · simp [State.counts, newItem, hSame, hFresh] at hCounts
      · exact hDelayed
    · rw [hOld item hIn] at hCounts
      exact hItems.flagged item hIn hCounts

/- The death of the power manager sets the count right. -/
theorem clearPowerManager_accounts {s t : State} (hDeath : clearPowerManager s = some t)
    (hAccounts : Accounts s) : Accounts t ∧ t.mWakeLockCount = t.accounted := by
  rcases clearPowerManager_eq hDeath with ⟨hFrame, hLock⟩
  have hOutstanding : t.outstanding = s.outstanding := by
    rw [hFrame]
    rfl
  have hCounted : t.counted = [] := by rw [hFrame]
  have hPosts : t.posts = s.posts := by rw [hFrame]
  have hNone : ∀ item, t.counts item = false := by
    intro item
    simp [State.counts, hCounted]
  refine ⟨⟨hLock hAccounts.lock, ?_, ?_, ?_, ?_⟩, ?_⟩
  · rw [hOutstanding]
    exact hAccounts.items.distinct
  · rw [hOutstanding, hPosts]
    exact hAccounts.items.posted
  · simp [hCounted]
  · intro item _ hCounts
    rw [hNone] at hCounts
    cases hCounts
  · have hZero : t.mWakeLockCount = 0 := by rw [hFrame]
    rw [hZero]
    symm
    apply List.countP_eq_zero.mpr
    intro item _ hCounts
    rw [hNone] at hCounts
    cases hCounts

/-
  A step from a right count leads to a right one exactly when it gives up no flag that another
  item's count pays for.
-/
theorem step_accounts {stops : Event → Bool} {s t : State} {a : Action σ} (hAccounts : Accounts s)
    (hWakeLock : WakeLock s) (hStep : step stops s a = some t) :
    (WakeLock t ↔ Releases s a) ∧ (WakeLock t → Accounts t) := by
  by_cases hPost : ∃ event realtime_us power, a = .post event realtime_us power
  · rcases hPost with ⟨event, realtime_us, power, rfl⟩
    rcases (postTimedEvent_posts hStep).accounts hAccounts hWakeLock.count with ⟨hIff, hKeeps⟩
    refine ⟨?_, fun hNext => hKeeps hNext.count⟩
    constructor
    · intro hNext
      refine ⟨?_, ?_⟩
      · rintro ⟨item, hItem, -⟩
        cases hItem
      · intro e r p hSame
        cases hSame
        exact hIff.mp hNext.count
    · intro hReleases
      have hCount := hIff.mpr (hReleases.2 event realtime_us power rfl)
      exact WakeLock.of_lock (hKeeps hCount).lock hCount
  · have hNever : ∀ event realtime_us power, a ≠ .post event realtime_us power :=
      fun event realtime_us power hSame =>
        hPost ⟨event, realtime_us, power, hSame⟩
    by_cases hDeath : a = .binderDied
    · rw [hDeath] at hStep ⊢
      rcases clearPowerManager_accounts hStep hAccounts with ⟨hNext, hCount⟩
      refine ⟨⟨fun _ => ⟨?_, ?_⟩, fun _ => ?_⟩, fun _ => hNext⟩
      · rintro ⟨item, hItem, -⟩
        cases hItem
      · intro e r p hSame
        cases hSame
      · exact WakeLock.of_lock hNext.lock hCount
    · rcases (step_drops hStep hNever hDeath).accounts hAccounts hWakeLock.count with ⟨hNext, hIff⟩
      refine ⟨?_, fun _ => hNext⟩
      constructor
      · intro hRight
        refine ⟨hIff.mp hRight.count, ?_⟩
        intro e r p hSame
        exact absurd hSame (hNever e r p)
      · intro hReleases
        exact WakeLock.of_lock hNext.lock (hIff.mpr hReleases.1)

--
-- Runs
--

/-
  In every run of a new queue, the count of wake locks is right in all states exactly when every
  step gives up flags only as `Releases` says.
-/
theorem wakeLock_always_iff {stops : Event → Bool} {clock : Int} {as : List (Action σ)} {t : State}
    (hRun : Run.exec (step stops) (start clock) as = some t) :
    (∀ bs s, bs <+: as → Run.exec (step stops) (start clock) bs = some s → WakeLock s) ↔
      ∀ bs a s, bs ++ [a] <+: as →
        Run.exec (step stops) (start clock) bs = some s → Releases s a := by
  have hInit : Accounts (start clock) := ⟨Lock.start clock, Items.start clock⟩
  refine Run.exec_always_iff ?_ hRun hInit ?_
  · intro s a u hAccounts hWakeLock hStep
    exact step_accounts hAccounts hWakeLock hStep
  · apply WakeLock.of_lock hInit.lock
    rfl

/-
  The acquisition for the first event fails and that for the second succeeds; cancelling the first
  gives the lock up.
-/
theorem wakeLock_given_up :
    ∃ (as : List (Action Unit)) (t : State),
      Run.exec (step fun _ => false) (start 0) as = some t ∧ ¬ WakeLock t := by
  refine ⟨[.post 1 500000 ⟨false, false⟩, .post 2 600000 ⟨true, true⟩, .cancelEvent 1], _, rfl, ?_⟩
  intro hWakeLock
  have hCount := hWakeLock.count
  revert hCount
  decide

/- A run in which the lock is granted and the event fired. -/
theorem wakeLock_always_one :
    (∀ bs s,
        bs <+:
            ([.post 1 500000 ⟨true, true⟩, .enter, .tick 500000, .timeout, .finish] :
              List (Action Unit)) →
          Run.exec (step fun _ => false) (start 0) bs = some s → WakeLock s) ↔
      ∀ bs a s,
        bs ++ [a] <+:
            ([.post 1 500000 ⟨true, true⟩, .enter, .tick 500000, .timeout, .finish] :
              List (Action Unit)) →
          Run.exec (step fun _ => false) (start 0) bs = some s → Releases s a :=
  wakeLock_always_iff rfl

end TimedEventQueue

end FrameworksAv
