import FrameworksAv.TimedEventQueue.Queue
import Mathlib.Data.List.Perm.Basic

/-
  What the operations of `TimedEventQueue` do to the queue, the ids, the wake lock and the history:
  one lemma for each.

  Main declarations:
    * `Lock`, `releaseWakeLock_l_eq`, `acquireWakeLock_l_eq`
    * `matched`, `Cancels`
    * `cancelEvent_cases`
    * `turn_cases`
-/

--
-- The wake lock
--

namespace FrameworksAv

namespace TimedEventQueue

/-
  The queue holds a token exactly while its count is not zero, and the power manager holds a lock
  for the token and no other.
-/
structure Lock (s : State) : Prop where
  token : s.mWakeLockToken = none ↔ s.mWakeLockCount = 0
  granted : s.granted = s.mWakeLockToken.toList
  manager : s.mWakeLockToken ≠ none → s.mPowerManager = true

/- The lock reads the four fields of the lock alone. -/
theorem Lock.congr {s t : State} (hLock : Lock s) (hCount : t.mWakeLockCount = s.mWakeLockCount)
    (hToken : t.mWakeLockToken = s.mWakeLockToken) (hGranted : t.granted = s.granted)
    (hManager : t.mPowerManager = s.mPowerManager) : Lock t where
  token := by rw [hToken, hCount]; exact hLock.token
  granted := by rw [hGranted, hToken]; exact hLock.granted
  manager := by rw [hToken, hManager]; exact hLock.manager

theorem Lock.start (clock : Int) : Lock (start clock) where
  token := by simp [TimedEventQueue.start]
  granted := rfl
  manager := by simp [TimedEventQueue.start]

/- The lock is held exactly while the count is not zero. -/
theorem Lock.granted_eq_nil_iff {s : State} (hLock : Lock s) :
    s.granted = [] ↔ s.mWakeLockCount = 0 := by
  rw [hLock.granted, ← hLock.token]
  cases s.mWakeLockToken <;> simp

/- The ways through `releaseWakeLock_l`. -/
theorem releaseWakeLock_l_cases {force : Bool} {s t : State}
    (hRelease : releaseWakeLock_l force s = some t) :
    s.mWakeLockCount = 0 ∧ t = s ∨
      (s.mWakeLockCount ≠ 0 ∧ (force = true ∨ s.mWakeLockCount = 1) ∧
        ∃ token, s.mWakeLockToken = some token ∧
          t =
            { s with
              mWakeLockCount := 0
              mWakeLockToken := none
              granted := if s.mPowerManager then s.granted.erase token
                else s.granted }) ∨
      1 < s.mWakeLockCount ∧ force = false ∧
        t =
          { s with
            mWakeLockCount := s.mWakeLockCount - 1 } := by
  unfold releaseWakeLock_l at hRelease
  by_cases hZero : s.mWakeLockCount = 0
  · rw [if_pos hZero] at hRelease
    cases hRelease
    exact Or.inl ⟨hZero, rfl⟩
  · rw [if_neg hZero] at hRelease
    dsimp only at hRelease
    by_cases hLast : (if force then 1 else s.mWakeLockCount) - 1 = 0
    · rw [if_pos hLast] at hRelease
      have hOne : force = true ∨ s.mWakeLockCount = 1 := by
        cases force
        · simp only [Bool.false_eq_true, if_false] at hLast
          right
          omega
        · exact Or.inl rfl
      cases hToken : s.mWakeLockToken with
      | none =>
        rw [hToken] at hRelease
        cases hRelease
      | some token =>
        rw [hToken] at hRelease
        cases hRelease
        exact Or.inr (Or.inl ⟨hZero, hOne, token, rfl, rfl⟩)
    · rw [if_neg hLast] at hRelease
      cases force
      · cases hRelease
        simp only [Bool.false_eq_true, if_false] at hLast
        exact Or.inr (Or.inr ⟨by omega, rfl, rfl⟩)
      · exact absurd rfl hLast

/- A release changes the fields of the lock alone. -/
theorem releaseWakeLock_l_eq {s t : State} (hRelease : releaseWakeLock_l false s = some t) :
    t =
      { s with
        mWakeLockCount := s.mWakeLockCount - 1
        mWakeLockToken := t.mWakeLockToken
        granted := t.granted } := by
  rcases releaseWakeLock_l_cases hRelease with
    ⟨hZero, rfl⟩ | ⟨-, hForce | hOne, token, -, rfl⟩ | ⟨-, -, rfl⟩
  · have hSame : t.mWakeLockCount - 1 = t.mWakeLockCount := by
      omega
    rw [hSame]
  · cases hForce
  · rw [hOne]
  · rfl

/- A forced release leaves no count. -/
theorem releaseWakeLock_l_force {s t : State} (hRelease : releaseWakeLock_l true s = some t) :
    t =
      { s with
        mWakeLockCount := 0
        mWakeLockToken := t.mWakeLockToken
        granted := t.granted } := by
  rcases releaseWakeLock_l_cases hRelease with ⟨hZero, rfl⟩ | ⟨-, -, token, -, rfl⟩ | ⟨-, hForce, -⟩
  · rw [← hZero]
  · rfl
  · cases hForce

theorem releaseWakeLock_l_lock {force : Bool} {s t : State}
    (hRelease : releaseWakeLock_l force s = some t) (hLock : Lock s) : Lock t := by
  rcases releaseWakeLock_l_cases hRelease with
    ⟨-, rfl⟩ | ⟨-, -, token, hToken, rfl⟩ | ⟨hMore, -, rfl⟩
  · exact hLock
  · have hManager : s.mPowerManager = true := by
      apply hLock.manager
      simp [hToken]
    refine ⟨by simp, ?_, by simp⟩
    simp [hManager, hLock.granted, hToken]
  · refine ⟨?_, hLock.granted, hLock.manager⟩
    have hCount := hLock.token
    dsimp only
    rw [hCount]
    omega

/- An acquisition raises the count by one, unless it was zero and the lock was not granted. -/
theorem acquireWakeLock_l_eq {power : Power} {s t : State}
    (hAcquire : acquireWakeLock_l power s = some t) :
    t =
        { s with
          mWakeLockCount := t.mWakeLockCount
          mWakeLockToken := t.mWakeLockToken
          mPowerManager := t.mPowerManager
          granted := t.granted } ∧
      (t.mWakeLockCount = (s.mWakeLockCount + 1) % 2 ^ 32 ∨
        s.mWakeLockCount = 0 ∧ t.mWakeLockCount = 0) := by
  unfold acquireWakeLock_l at hAcquire
  split at hAcquire
  · rename_i hZero
    split at hAcquire
    · cases hAcquire
    · dsimp only at hAcquire
      split at hAcquire
      · cases hAcquire
        exact ⟨rfl, Or.inl (by simp [hZero])⟩
      · cases hAcquire
        exact ⟨rfl, Or.inr ⟨hZero, hZero⟩⟩
  · cases hAcquire
    exact ⟨rfl, Or.inl rfl⟩

theorem acquireWakeLock_l_lock {power : Power} {s t : State}
    (hAcquire : acquireWakeLock_l power s = some t) (hLock : Lock s)
    (hRoom : s.mWakeLockCount + 1 < 2 ^ 32) : Lock t := by
  unfold acquireWakeLock_l at hAcquire
  split at hAcquire
  · rename_i hZero
    have hNone : s.mWakeLockToken = none := hLock.token.mpr hZero
    rw [if_neg (by simp [hNone])] at hAcquire
    dsimp only at hAcquire
    split at hAcquire
    · rename_i hGranted
      cases hAcquire
      refine ⟨by simp, ?_, ?_⟩
      · simp [hLock.granted, hNone]
      · simp only [Bool.and_eq_true] at hGranted
        exact fun _ => hGranted.1
    · cases hAcquire
      refine ⟨hLock.token, hLock.granted, ?_⟩
      exact fun hSome => absurd hNone hSome
  · rename_i hPositive
    cases hAcquire
    refine ⟨?_, hLock.granted, hLock.manager⟩
    have hMod : (s.mWakeLockCount + 1) % 2 ^ 32 = s.mWakeLockCount + 1 := Nat.mod_eq_of_lt hRoom
    simp only [hMod, hLock.token, hPositive, false_iff]
    exact Nat.succ_ne_zero s.mWakeLockCount

--
-- Cancelling
--

variable {σ : Type}

/- The items that `cancelEvents` takes out of a queue. -/
def matched (predicate : Predicate σ) (stopAfterFirstMatch : Bool) :
    σ → (Event → EventId) → List QueueItem → List QueueItem
| _, _, [] => []
| cookie, eventID, item :: rest =>
  match predicate cookie item.event (eventID item.event) with
  | (false, cookie) => matched predicate stopAfterFirstMatch cookie eventID rest
  | (true, cookie) =>
    item :: if stopAfterFirstMatch then []
      else
        matched predicate stopAfterFirstMatch cookie
          (fun e =>
            if e = item.event then 0 else eventID e)
          rest

/- How many of the items are flagged. -/
def flags (items : List QueueItem) : Nat :=
  items.countP (fun item => item.has_wakelock)

/-
  The items have been taken out of the queue `s`: their ids are cleared and one count is given back
  for each flag.
-/
structure Cancels (erased : List QueueItem) (s t : State) : Prop where
  frame :
    t =
      { s with
        mQueue := t.mQueue
        mWakeLockCount := s.mWakeLockCount - flags erased
        mWakeLockToken := t.mWakeLockToken
        granted := t.granted
        eventID := fun e =>
          if e ∈ erased.map QueueItem.event then 0
          else s.eventID e
        log := (erased.map Entry.erased).reverse ++ s.log }
  lock : Lock s → Lock t

theorem Cancels.refl (s : State) : Cancels [] s s where
  frame := by simp [flags]
  lock := id

/- The rest of the queue is written back at the end. -/
theorem Cancels.withQueue {erased : List QueueItem} {s t : State} (hCancels : Cancels erased s t)
    (queue : List QueueItem) : Cancels erased s { t with mQueue := queue } where
  frame := by
    have hFrame := congrArg (fun u : State => { u with mQueue := queue })
      hCancels.frame
    exact hFrame
  lock := fun hLock =>
    (hCancels.lock hLock).congr rfl rfl rfl rfl

theorem Cancels.trans {first second : List QueueItem} {s t u : State} (hFirst : Cancels first s t)
    (hSecond : Cancels second t u) : Cancels (first ++ second) s u where
  frame := by
    have hIds :
        (fun e =>
          if e ∈ second.map QueueItem.event then 0
          else if e ∈ first.map QueueItem.event then 0 else s.eventID e) =
          fun e =>
            if e ∈ (first ++ second).map QueueItem.event
            then (0 : EventId)
            else s.eventID e := by
      funext e
      rw [List.map_append]
      simp only [List.mem_append]
      by_cases hOne : e ∈ first.map QueueItem.event
      · simp [hOne]
      · by_cases hTwo : e ∈ second.map QueueItem.event
        · rw [if_pos hTwo, if_pos (Or.inr hTwo)]
        · rw [if_neg hTwo, if_neg hOne, if_neg (not_or.mpr ⟨hOne, hTwo⟩)]
    have hCounts :
        s.mWakeLockCount - flags first - flags second =
          s.mWakeLockCount - flags (first ++ second) := by
      unfold flags
      rw [List.countP_append]
      omega
    have hLogs :
        (second.map Entry.erased).reverse ++ ((first.map Entry.erased).reverse ++ s.log) =
          ((first ++ second).map Entry.erased).reverse ++
            s.log := by
      rw [List.map_append, List.reverse_append, List.append_assoc]
    rw [hSecond.frame, hFirst.frame]
    simp only [hIds, hCounts, hLogs]
  lock := fun hLock => hSecond.lock (hFirst.lock hLock)

theorem eraseItem_cancels {item : QueueItem} {s t : State} (hErase : eraseItem item s = some t) :
    Cancels [item] s t := by
  unfold eraseItem at hErase
  dsimp only at hErase
  split at hErase
  · rename_i hFlag
    constructor
    · rw [releaseWakeLock_l_eq hErase]
      simp [State.setEventID, flags, hFlag]
    · intro hLock
      exact releaseWakeLock_l_lock hErase (hLock.congr rfl rfl rfl rfl)
  · rename_i hFlag
    cases hErase
    constructor
    · simp [State.setEventID, flags, hFlag]
    · exact fun hLock => hLock.congr rfl rfl rfl rfl

/-
  What the loop does to the items behind the iterator: the matched ones are gone, the others stay in
  order.
-/
theorem cancelLoop_cancels {predicate : Predicate σ} {stopAfterFirstMatch : Bool}
    {kept queue : List QueueItem} {cookie cookie' : σ} {s t : State}
    (hLoop : cancelLoop predicate stopAfterFirstMatch kept queue cookie s = some (t, cookie')) :
    Cancels (matched predicate stopAfterFirstMatch cookie s.eventID queue) s t ∧
      ∃ left, t.mQueue = kept ++ left ∧
        left.Sublist queue ∧
        queue.Perm (matched predicate stopAfterFirstMatch cookie s.eventID queue ++ left) := by
  induction queue generalizing kept cookie s with
  | nil =>
    unfold cancelLoop at hLoop
    cases hLoop
    refine ⟨(Cancels.refl s).withQueue _, [], ?_, ?_, ?_⟩
    · simp
    · exact List.Sublist.refl _
    · simp [matched]
  | cons item rest ih =>
    unfold cancelLoop at hLoop
    unfold matched
    rcases hMatch : predicate cookie item.event (s.eventID item.event) with ⟨hit, next⟩
    rw [hMatch] at hLoop
    cases hit with
    | false =>
      rcases ih hLoop with ⟨hCancels, left, hQueue, hSub, hPerm⟩
      refine ⟨hCancels, item :: left, ?_, ?_, ?_⟩
      · simpa using hQueue
      · exact hSub.cons_cons item
      · exact (hPerm.cons item).trans List.perm_middle.symm
    | true =>
      rcases Option.bind_eq_some_iff.mp hLoop with ⟨u, hErase, hRest⟩
      have hFirst := eraseItem_cancels hErase
      have hIds : u.eventID = fun e =>
              if e = item.event then 0
              else s.eventID e := by
        rw [hFirst.frame]
        funext e
        simp
      cases stopAfterFirstMatch with
      | true =>
        cases hRest
        refine ⟨hFirst.withQueue _, rest, rfl, ?_, ?_⟩
        · exact List.sublist_cons_self item rest
        · exact List.Perm.refl _
      | false =>
        rcases ih hRest with ⟨hCancels, left, hQueue, hSub, hPerm⟩
        rw [hIds] at hCancels hPerm
        refine ⟨hFirst.trans hCancels, left, hQueue, hSub.cons item, ?_⟩
        exact hPerm.cons item

theorem cancelEvents_cancels {predicate : Predicate σ} {cookie cookie' : σ}
    {stopAfterFirstMatch : Bool} {s t : State}
    (hCancel : cancelEvents predicate cookie stopAfterFirstMatch s = some (t, cookie')) :
    Cancels (matched predicate stopAfterFirstMatch cookie s.eventID s.mQueue) s t ∧
      t.mQueue.Sublist s.mQueue ∧
      s.mQueue.Perm
        (matched predicate stopAfterFirstMatch cookie s.eventID s.mQueue ++ t.mQueue) := by
  rcases cancelLoop_cancels hCancel with ⟨hCancels, left, hQueue, hSub, hPerm⟩
  rw [List.nil_append] at hQueue
  rw [hQueue]
  exact ⟨hCancels, hSub, hPerm⟩

end TimedEventQueue

--
-- Cancelling one event
--

namespace TimedEventQueue

/- The cookie of `cancelEvent` is cleared exactly when an item with its id has been taken out. -/
theorem cancelLoop_matchesEventID {kept queue : List QueueItem} {id cookie : EventId} {s t : State}
    (hLoop : cancelLoop MatchesEventID true kept queue id s = some (t, cookie)) :
    cookie = id ∧ matched MatchesEventID true id s.eventID queue = [] ∨
      cookie = 0 ∧
        ∃ item ∈ queue, s.eventID item.event = id ∧
          matched MatchesEventID true id s.eventID queue = [item] := by
  induction queue generalizing kept with
  | nil =>
    unfold cancelLoop at hLoop
    cases hLoop
    exact Or.inl ⟨rfl, rfl⟩
  | cons item rest ih =>
    unfold cancelLoop at hLoop
    unfold matched
    by_cases hSame : s.eventID item.event = id
    · have hMatch : MatchesEventID id item.event (s.eventID item.event) = (true, 0) := by
        simp [MatchesEventID, hSame]
      rw [hMatch] at hLoop ⊢
      rcases Option.bind_eq_some_iff.mp hLoop with ⟨u, -, hRest⟩
      cases hRest
      right
      refine ⟨rfl, item, ?_, hSame, rfl⟩
      exact List.mem_cons_self
    · have hMatch : MatchesEventID id item.event (s.eventID item.event) = (false, id) := by
        simp [MatchesEventID, hSame]
      rw [hMatch] at hLoop ⊢
      rcases ih hLoop with
        hNone | ⟨hZero, found, hMem, hFound, hMatched⟩
      · exact Or.inl hNone
      · right
        refine ⟨hZero, found, ?_, hFound, hMatched⟩
        exact List.mem_cons_of_mem item hMem

/- `cancelEvent` answers whether an item with the id was in the queue, and takes it out. -/
theorem cancelEvent_cases {id : EventId} {s t : State} {found : Bool}
    (hCancel : cancelEvent id s = some (t, found)) :
    t.mQueue.Sublist s.mQueue ∧
      (found = false ∧ Cancels [] s t ∧ s.mQueue.Perm t.mQueue ∨
        found = true ∧
          ∃ item ∈ s.mQueue, s.eventID item.event = id ∧ Cancels [item] s t ∧
            s.mQueue.Perm (item :: t.mQueue)) := by
  unfold cancelEvent at hCancel
  by_cases hZero : id = 0
  · rw [if_pos hZero] at hCancel
    cases hCancel
    refine ⟨List.Sublist.refl _, Or.inl ⟨rfl, ?_, ?_⟩⟩
    · exact Cancels.refl s
    · exact List.Perm.refl _
  · rw [if_neg hZero] at hCancel
    rcases Option.map_eq_some_iff.mp hCancel with ⟨⟨u, cookie⟩, hEvents, hResult⟩
    cases hResult
    rcases cancelEvents_cancels hEvents with ⟨hCancels, hSub, hPerm⟩
    refine ⟨hSub, ?_⟩
    rcases cancelLoop_matchesEventID hEvents with ⟨rfl, hNone⟩ | ⟨rfl, item, hMem, hSame, hOne⟩
    · rw [hNone] at hCancels hPerm
      left
      exact ⟨beq_eq_false_iff_ne.mpr hZero, hCancels, hPerm⟩
    · rw [hOne] at hCancels hPerm
      right
      exact ⟨by simp, item, hMem, hSame, hCancels, hPerm⟩

--
-- The thread
--

/- The item whose event is being fired. -/
def Thread.items : Thread → List QueueItem
| .firing item _ => [item]
| _ => []

/- An item has left the queue and its event is fired. -/
def fired (stops : Event → Bool) (item : QueueItem) (rest : List QueueItem) (since : Option Nat)
    (s : State) : State :=
  { s.setEventID item.event 0 with
    mQueue := rest
    mStopped := s.mStopped || stops item.event
    thread := .firing item s.clock
    log := .fired item s.clock s.mQueue since :: s.log }

theorem fireEvent_cases (stops : Event → Bool) (id : EventId) (since : Option Nat) (s : State) :
    fireEvent stops id since s = { s with thread := .top } ∨
      ∃ item rest, item ∈ s.mQueue ∧ s.eventID item.event = id ∧ rest.Sublist s.mQueue ∧
        s.mQueue.Perm (item :: rest) ∧
        fireEvent stops id since s = fired stops item rest since s := by
  unfold fireEvent
  cases hFind : s.mQueue.find? (s.hasId id) with
  | none => exact Or.inl rfl
  | some item =>
    have hMem := List.mem_of_find?_eq_some hFind
    have hSame := List.find?_some hFind
    right
    refine ⟨item, s.mQueue.eraseP (s.hasId id), hMem, ?_, List.eraseP_sublist, ?_, rfl⟩
    · simpa [State.hasId] using hSame
    · rcases List.exists_of_eraseP hMem hSame with
        ⟨first, front, behind, hFront, hFirst, hSplit, hErase⟩
      have hFound : s.mQueue.find? (s.hasId id) = some first := by
        rw [hSplit, List.find?_append, List.find?_eq_none.mpr hFront]
        simp [hFirst]
      have hEq : item = first := by
        rw [hFind] at hFound
        exact Option.some.inj hFound
      rw [hErase, hSplit, hEq]
      exact List.perm_middle

/- A turn looks at the item in front. -/
theorem turn_cases (stops : Event → Bool) (id : EventId) (s : State) :
    s.mQueue = [] ∧ turn stops id s = { s with thread := .top } ∨
      ∃ head rest, s.mQueue = head :: rest ∧
        (((head.realtime_us < 0 ∨ head.realtime_us = INT64_MAX ∨ head.realtime_us ≤ s.clock) ∧
            turn stops id s = fired stops head rest none s) ∨
          ∃ deadline timeoutCapped, (timeoutCapped = false → head.realtime_us ≤ deadline) ∧
            turn stops id s =
              { s with
                thread :=
                  .timed (s.eventID head.event) deadline timeoutCapped head s.posts.length }) := by
  unfold turn
  cases hQueue : s.mQueue with
  | nil =>
    left
    refine ⟨rfl, ?_⟩
    simp [fireEvent, hQueue]
  | cons head rest =>
    right
    refine ⟨head, rest, rfl, ?_⟩
    have hFires : fireEvent stops (s.eventID head.event) none s = fired stops head rest none s := by
      simp [fireEvent, fired, hQueue, State.hasId]
    dsimp only
    by_cases hMark : head.realtime_us < 0 ∨ head.realtime_us = INT64_MAX
    · rw [if_pos hMark, if_pos (Int.le_refl 0)]
      left
      exact ⟨hMark.imp_right Or.inl, hFires⟩
    · rw [if_neg hMark]
      by_cases hDue : head.realtime_us - s.clock ≤ 0
      · rw [if_pos hDue]
        left
        refine ⟨Or.inr (Or.inr ?_), hFires⟩
        omega
      · rw [if_neg hDue]
        right
        split
        · refine ⟨s.clock + kMaxTimeoutUs, true, ?_, rfl⟩
          intro hFalse
          cases hFalse
        · refine ⟨_, false, fun _ => ?_, rfl⟩
          omega

/-
  What the thread does between two locks, the calls of `fire` apart: it goes to sleep or ends, takes
  a turn, or fires the event for which its wait has timed out.
-/
inductive ThreadMoves (stops : Event → Bool) (s : State) : State → Prop
| idles (thread : Thread) (hIdle : thread = .ended ∨ thread = .notEmpty) :
    ThreadMoves stops s { s with thread := thread }
| turns (id : EventId) : ThreadMoves stops s (turn stops id s)
| fires (id : EventId) (deadline : Int) (head : QueueItem) (since : Nat)
    (hWaits : s.thread = .timed id deadline false head since) (hOver : deadline ≤ s.clock) :
    ThreadMoves stops s (fireEvent stops id (some since) s)

/- The thread's own steps; it fires nothing before them. -/
theorem step_threadMoves {σ : Type} {stops : Event → Bool} {s t : State} {a : Action σ}
    (hThread : a = .enter ∨ a = .wake ∨ a = .timeout) (hStep : step stops s a = some t) :
    s.thread.items = [] ∧ ThreadMoves stops s t := by
  rcases hThread with rfl | rfl | rfl
  · unfold step at hStep
    cases hAt : s.thread with
    | top =>
      rw [hAt] at hStep
      cases hStep
      refine ⟨rfl, ?_⟩
      unfold enter
      split
      · exact ThreadMoves.idles _ (Or.inl rfl)
      · split
        · exact ThreadMoves.idles _ (Or.inr rfl)
        · exact ThreadMoves.turns 0
    | _ =>
      rw [hAt] at hStep
      cases hStep
  · unfold step at hStep
    cases hAt : s.thread with
    | notEmpty =>
      rw [hAt] at hStep
      refine ⟨rfl, ?_⟩
      dsimp only at hStep
      split at hStep
      · cases hStep
        have hSame : { s with thread := .notEmpty } = s := by
          rw [← hAt]
        rw [← hSame]
        exact ThreadMoves.idles _ (Or.inr rfl)
      · cases hStep
        exact ThreadMoves.turns 0
    | timed id deadline timeoutCapped head since =>
      rw [hAt] at hStep
      cases hStep
      exact ⟨rfl, ThreadMoves.turns id⟩
    | _ =>
      rw [hAt] at hStep
      cases hStep
  · unfold step at hStep
    cases hAt : s.thread with
    | timed id deadline timeoutCapped head since =>
      rw [hAt] at hStep
      refine ⟨rfl, ?_⟩
      dsimp only at hStep
      split at hStep
      · cases hStep
      · rename_i hOver
        split at hStep
        · cases hStep
          exact ThreadMoves.turns id
        · rename_i hExact
          cases hStep
          rw [Bool.not_eq_true] at hExact
          rw [hExact] at hAt
          exact ThreadMoves.fires id deadline head since hAt (Int.not_lt.mp hOver)
    | _ =>
      rw [hAt] at hStep
      cases hStep

--
-- Posting
--

theorem insertItem_perm (item : QueueItem) (queue : List QueueItem) :
    (insertItem item queue).Perm (item :: queue) := by
  unfold insertItem
  refine List.perm_middle.trans ?_
  rw [List.takeWhile_append_dropWhile]

/- The item that a post puts into the queue. -/
def newItem (event : Event) (realtime_us : Int) (s : State) : QueueItem where
  event := event
  realtime_us := realtime_us
  has_wakelock := s.delayed realtime_us
  post := s.posts.length

/-
  A post inserts its item and changes the lock only for a flagged one; it counts the item when the
  count has risen.
-/
structure Posts (event : Event) (realtime_us : Int) (s t : State) : Prop where
  frame :
    t =
      { s with
        mQueue := insertItem (newItem event realtime_us s)
          s.mQueue
        mNextEventID := s.mNextEventID + 1
        mPowerManager := t.mPowerManager
        mWakeLockToken := t.mWakeLockToken
        mWakeLockCount := t.mWakeLockCount
        eventID := fun e =>
          if e = event then s.mNextEventID else s.eventID e
        granted := t.granted
        posts := s.posts ++ [event]
        counted := t.counted
        log := .posted (newItem event realtime_us s) s.mNextEventID :: s.log }
  count :
    t.mWakeLockCount = s.mWakeLockCount ∧ t.counted = s.counted ∧
        (s.delayed realtime_us = true → s.mWakeLockCount = 0) ∨
      s.delayed realtime_us = true ∧ t.mWakeLockCount = (s.mWakeLockCount + 1) % 2 ^ 32 ∧
        t.counted = s.posts.length :: s.counted
  lock : (s.delayed realtime_us = true → s.mWakeLockCount + 1 < 2 ^ 32) → Lock s → Lock t

theorem postTimedEvent_posts {event : Event} {realtime_us : Int} {power : Power} {s t : State}
    (hPost : postTimedEvent event realtime_us power s = some t) : Posts event realtime_us s t := by
  unfold postTimedEvent at hPost
  rcases Option.map_eq_some_iff.mp hPost with ⟨u, hAcquire, rfl⟩
  cases hDelayed : s.delayed realtime_us with
  | false =>
    have hSame :
        State.delayed
            { s.setEventID event s.mNextEventID with
              mNextEventID := s.mNextEventID + 1 }
            realtime_us =
          false :=
      hDelayed
    rw [hSame] at hAcquire
    cases hAcquire
    refine ⟨?_, Or.inl ⟨rfl, ?_, ?_⟩, ?_⟩
    · rfl
    · exact if_pos rfl
    · intro hTrue
      rw [hDelayed] at hTrue
      cases hTrue
    · exact fun _ hLock => hLock.congr rfl rfl rfl rfl
  | true =>
    have hSame :
        State.delayed
            { s.setEventID event s.mNextEventID with
              mNextEventID := s.mNextEventID + 1 }
            realtime_us =
          true :=
      hDelayed
    rw [hSame] at hAcquire
    rcases acquireWakeLock_l_eq hAcquire with ⟨hFrame, hCount⟩
    refine ⟨?_, ?_, ?_⟩
    · rw [hFrame]
      rfl
    · rcases hCount with hRaised | ⟨hZero, hStill⟩
      · right
        refine ⟨hDelayed, hRaised, ?_⟩
        apply if_neg
        rw [hRaised]
        change (s.mWakeLockCount + 1) % 2 ^ 32 ≠ s.mWakeLockCount
        omega
      · left
        have hZero : s.mWakeLockCount = 0 := hZero
        refine ⟨hStill.trans hZero.symm, ?_, ?_⟩
        · apply if_pos
          exact hStill.trans hZero.symm
        · exact fun _ => hZero
    · intro hRoom hLock
      have hAcquired :=
        acquireWakeLock_l_lock hAcquire (hLock.congr rfl rfl rfl rfl) (hRoom hDelayed)
      exact hAcquired.congr rfl rfl rfl rfl

/- Nothing is counted when the power manager dies. -/
theorem clearPowerManager_eq {s t : State} (hDeath : clearPowerManager s = some t) :
    t =
        { s with
          mPowerManager := false
          mWakeLockToken := t.mWakeLockToken
          mWakeLockCount := 0
          granted := t.granted
          counted := [] } ∧
      (Lock s → Lock t) := by
  unfold clearPowerManager at hDeath
  rcases Option.map_eq_some_iff.mp hDeath with ⟨u, hRelease, rfl⟩
  constructor
  · rw [releaseWakeLock_l_force hRelease]
  · intro hLock
    have hOut : u.mWakeLockToken = none ∧ u.mWakeLockCount = 0 ∧ u.granted = [] := by
      rcases releaseWakeLock_l_cases hRelease with
        ⟨hZero, rfl⟩ | ⟨-, -, token, -, rfl⟩ | ⟨-, hForce, -⟩
      · exact ⟨hLock.token.mpr hZero, hZero, rfl⟩
      · refine ⟨rfl, rfl, ?_⟩
        simp
      · cases hForce
    rcases hOut with ⟨hToken, hZero, hFree⟩
    refine ⟨by simp [hToken, hZero], ?_, ?_⟩
    · simp [hToken, hFree]
    · exact fun hSome => absurd hToken hSome

end TimedEventQueue

end FrameworksAv
