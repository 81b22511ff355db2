import FrameworksAv.TimedEventQueue.Steps
import Mathlib.Data.List.Nodup

/-
  How `TimedEventQueue` delivers its events.

  The queue is ordered by time, and by post among items of one time; a turn of the thread fires the
  item in front. A wait that times out fires the event it was for, whatever has been posted in front
  of it in the meantime.

  Main declarations:
    * `Delivers`
    * `Registry`, `History`, `Waits`
    * `step_orderly`
    * `delivers`
-/

--
-- What delivery means
--

namespace FrameworksAv

namespace TimedEventQueue

variable {σ : Type}

/- The item is due first, or was posted first for that time. -/
def Before (item other : QueueItem) : Prop :=
  item.realtime_us < other.realtime_us ∨
    item.realtime_us = other.realtime_us ∧ item.post < other.post

def Entry.firedEvent : Entry → Option Event
| .fired item _ _ _ => some item.event
| _ => none

/-
  The events of a run are fired at most once, not before their time, not after they were cancelled
  and each before what was queued beside it; what is neither fired nor taken out by a cancellation
  is in the queue.

  `INT64_MAX` is no time but the mark for the back of the queue. When the event was fired because
  its own wait timed out, items posted since that wait began may be in front.
-/
structure Delivers (s : State) : Prop where
  once : (s.log.filterMap Entry.firedEvent).Nodup
  due :
    ∀ item now_us queued since,
      .fired item now_us queued since ∈ s.log →
        item.realtime_us ≤ now_us ∨ item.realtime_us = INT64_MAX
  cancelled :
    ∀ later earlier id item, s.log = later ++ .cancelled id :: earlier →
      .posted item id ∈ s.log → ∀ now_us queued since, .fired item now_us queued since ∉ later
  first :
    ∀ item now_us queued since,
      .fired item now_us queued since ∈ s.log →
        item ∈ queued ∧
          ∀ other ∈ queued,
            other ≠ item → Before item other ∨ ∃ posts, since = some posts ∧ posts ≤ other.post
  kept :
    ∀ item id,
      .posted item id ∈ s.log →
        item ∈ s.mQueue ∨ .erased item ∈ s.log ∨
          ∃ now_us queued since, .fired item now_us queued since ∈ s.log

/-
  Events are posted once each, and fewer of them than there are ids: the counter of ids is a signed
  one, whose overflow the language leaves undefined.
-/
def FreshPost (s : State) : Action σ → Prop
| .post event _ _ => event ∉ s.posts ∧ s.posts.length + 1 < 2 ^ 32
| _ => True

instance (s : State) (a : Action σ) : Decidable (FreshPost s a) := by
  cases a <;> unfold FreshPost <;> infer_instance

/- The id that a post gives, by the number of posts before. -/
def idOf (post : Nat) : EventId :=
  BitVec.ofNat 32 (post + 1)

theorem idOf_inj {p q : Nat} (hp : p + 1 < 2 ^ 32) (hq : q + 1 < 2 ^ 32) (hSame : idOf p = idOf q) :
    p = q := by
  have hNat := congrArg BitVec.toNat hSame
  unfold idOf at hNat
  rw [BitVec.toNat_ofNat, BitVec.toNat_ofNat, Nat.mod_eq_of_lt hp, Nat.mod_eq_of_lt hq] at hNat
  omega

theorem Before.trans {a b c : QueueItem} (hFirst : Before a b) (hSecond : Before b c) :
    Before a c := by
  unfold Before at *
  omega

end TimedEventQueue

--
-- The queue
--

namespace TimedEventQueue

/-
  The queue is in order, and its items are known by their posts and carry the ids that the posts
  have given.
-/
structure Registry (s : State) : Prop where
  next : s.mNextEventID = idOf s.posts.length
  room : s.posts.length < 2 ^ 32
  once : s.posts.Nodup
  sorted : s.mQueue.Pairwise Before
  distinct : (s.mQueue.map QueueItem.event).Nodup
  posted : ∀ item ∈ s.mQueue, s.posts[item.post]? = some item.event
  ids : ∀ item ∈ s.mQueue, s.eventID item.event = idOf item.post
  clock : 0 ≤ s.clock

theorem Registry.start {clock : Int} (hClock : 0 ≤ clock) : Registry (start clock) := by
  constructor <;>
    simp [TimedEventQueue.start, idOf, hClock]

theorem Registry.post_lt {s : State} (hRegistry : Registry s) {item : QueueItem}
    (hItem : item ∈ s.mQueue) : item.post < s.posts.length := by
  have hPost := hRegistry.posted item hItem
  exact (List.getElem?_eq_some_iff.mp hPost).1

theorem Registry.event_mem {s : State} (hRegistry : Registry s) {item : QueueItem}
    (hItem : item ∈ s.mQueue) : item.event ∈ s.posts :=
  List.mem_of_getElem? (hRegistry.posted item hItem)

/- Two queued items of one event are one. -/
theorem Registry.eq_of_event {s : State} (hRegistry : Registry s) {item other : QueueItem}
    (hItem : item ∈ s.mQueue) (hOther : other ∈ s.mQueue) (hSame : item.event = other.event) :
    item = other :=
  List.inj_on_of_nodup_map hRegistry.distinct hItem hOther hSame

/- Two queued items of one post are one. -/
theorem Registry.eq_of_post {s : State} (hRegistry : Registry s) {item other : QueueItem}
    (hItem : item ∈ s.mQueue) (hOther : other ∈ s.mQueue) (hSame : item.post = other.post) :
    item = other := by
  apply hRegistry.eq_of_event hItem hOther
  have hOne := hRegistry.posted item hItem
  rw [hSame, hRegistry.posted other hOther] at hOne
  exact (Option.some.inj hOne).symm

/- The item in front comes before all others. -/
theorem Registry.head_before {s : State} (hRegistry : Registry s) {head : QueueItem}
    {rest : List QueueItem} (hQueue : s.mQueue = head :: rest) {other : QueueItem}
    (hOther : other ∈ s.mQueue) (hNot : other ≠ head) : Before head other := by
  have hSorted := hRegistry.sorted
  rw [hQueue] at hSorted hOther
  rcases List.mem_cons.mp hOther with hSame | hRest
  · exact absurd hSame hNot
  · exact (List.pairwise_cons.mp hSorted).1 other hRest

/- The registry does not read the lock, the thread or the log. -/
theorem Registry.congr {s t : State} (hRegistry : Registry s) (hQueue : t.mQueue = s.mQueue)
    (hNext : t.mNextEventID = s.mNextEventID) (hIds : t.eventID = s.eventID)
    (hPosts : t.posts = s.posts) (hClock : s.clock ≤ t.clock) : Registry t where
  next := by rw [hNext, hPosts]; exact hRegistry.next
  room := by rw [hPosts]; exact hRegistry.room
  once := by rw [hPosts]; exact hRegistry.once
  sorted := by rw [hQueue]; exact hRegistry.sorted
  distinct := by rw [hQueue]; exact hRegistry.distinct
  posted := by rw [hQueue, hPosts]; exact hRegistry.posted
  ids := by rw [hQueue, hIds]; exact hRegistry.ids
  clock := Int.le_trans hRegistry.clock hClock

/- Items may leave the queue, and their ids are cleared. -/
theorem Registry.remove {s t : State} (hRegistry : Registry s) {gone : List QueueItem}
    (hSub : t.mQueue.Sublist s.mQueue) (hPerm : s.mQueue.Perm (gone ++ t.mQueue))
    (hNext : t.mNextEventID = s.mNextEventID)
    (hIds : ∀ e, e ∉ gone.map QueueItem.event → t.eventID e = s.eventID e)
    (hPosts : t.posts = s.posts) (hClock : s.clock = t.clock) : Registry t where
  next := by rw [hNext, hPosts]; exact hRegistry.next
  room := by rw [hPosts]; exact hRegistry.room
  once := by rw [hPosts]; exact hRegistry.once
  sorted := hRegistry.sorted.sublist hSub
  distinct := hRegistry.distinct.sublist (hSub.map QueueItem.event)
  posted := by
    intro item hItem
    rw [hPosts]
    exact hRegistry.posted item (hSub.subset hItem)
  ids := by
    intro item hItem
    rw [hIds item.event ?_]
    · exact hRegistry.ids item (hSub.subset hItem)
    · intro hGone
      have hAll := (hPerm.map QueueItem.event).nodup_iff.mp hRegistry.distinct
      rw [List.map_append] at hAll
      apply (List.nodup_append.mp hAll).2.2 item.event hGone item.event (List.mem_map_of_mem hItem)
      rfl
  clock := by rw [← hClock]; exact hRegistry.clock

/- An inserted item stands where its time and post put it. -/
theorem insertItem_sorted {item : QueueItem} {queue : List QueueItem}
    (hSorted : queue.Pairwise Before) (hLater : ∀ other ∈ queue, other.post < item.post) :
    (insertItem item queue).Pairwise Before := by
  induction queue with
  | nil => simp [insertItem]
  | cons first rest ih =>
    rcases List.pairwise_cons.mp hSorted with ⟨hFirst, hRest⟩
    by_cases hLe : first.realtime_us ≤ item.realtime_us
    · have hInsert :
          insertItem item (first :: rest) =
            first :: insertItem item rest := by
        simp [insertItem, hLe]
      rw [hInsert, List.pairwise_cons]
      constructor
      · intro other hOther
        rcases List.mem_cons.mp ((insertItem_perm item rest).mem_iff.mp hOther) with rfl | hIn
        · have hPost := hLater first List.mem_cons_self
          unfold Before
          omega
        · exact hFirst other hIn
      · apply ih hRest
        intro other hOther
        exact hLater other (List.mem_cons_of_mem _ hOther)
    · have hInsert : insertItem item (first :: rest) = item :: first :: rest := by
        simp [insertItem, hLe]
      rw [hInsert, List.pairwise_cons]
      refine ⟨?_, hSorted⟩
      have hBefore : Before item first := by
        unfold Before
        omega
      intro other hOther
      rcases List.mem_cons.mp hOther with rfl | hIn
      · exact hBefore
      · exact hBefore.trans (hFirst other hIn)

theorem Registry.post {event : Event} {realtime_us : Int} {s t : State} (hRegistry : Registry s)
    (hPosts : Posts event realtime_us s t) (hNew : event ∉ s.posts)
    (hRoom : s.posts.length + 1 < 2 ^ 32) : Registry t := by
  have hQueue : t.mQueue = insertItem (newItem event realtime_us s) s.mQueue := by
    rw [hPosts.frame]
  have hPerm := insertItem_perm (newItem event realtime_us s) s.mQueue
  have hAll : t.posts = s.posts ++ [event] := by
    rw [hPosts.frame]
  have hMem : ∀ item ∈ t.mQueue, item = newItem event realtime_us s ∨ item ∈ s.mQueue := by
    intro item hItem
    rw [hQueue] at hItem
    exact List.mem_cons.mp (hPerm.mem_iff.mp hItem)
  refine ⟨?_, ?_, ?_, ?_, ?_, ?_, ?_, ?_⟩
  · have hNext : t.mNextEventID = s.mNextEventID + 1 := by
      rw [hPosts.frame]
    rw [hNext, hRegistry.next, hAll]
    unfold idOf
    rw [List.length_append]
    exact (BitVec.ofNat_add (s.posts.length + 1) 1).symm
  · rw [hAll, List.length_append]
    exact hRoom
  · rw [hAll, List.nodup_append]
    refine ⟨hRegistry.once, List.nodup_singleton _, ?_⟩
    rintro e hOld f hSingle rfl
    rw [List.mem_singleton.mp hSingle] at hOld
    exact hNew hOld
  · rw [hQueue]
    apply insertItem_sorted hRegistry.sorted
    intro other hOther
    exact hRegistry.post_lt hOther
  · rw [hQueue]
    apply (hPerm.map QueueItem.event).nodup_iff.mpr
    rw [List.map_cons, List.nodup_cons]
    refine ⟨?_, hRegistry.distinct⟩
    intro hIn
    rcases List.mem_map.mp hIn with ⟨item, hItem, hSame⟩
    have hOld := hRegistry.event_mem hItem
    rw [hSame] at hOld
    exact hNew hOld
  · intro item hItem
    rw [hAll]
    rcases hMem item hItem with rfl | hOld
    · simp [newItem]
    · rw [List.getElem?_append_left (hRegistry.post_lt hOld)]
      exact hRegistry.posted item hOld
  · intro item hItem
    have hIds : t.eventID item.event = if item.event = event then s.mNextEventID
          else s.eventID item.event := by
      rw [hPosts.frame]
    rw [hIds]
    rcases hMem item hItem with rfl | hOld
    · exact (if_pos rfl).trans hRegistry.next
    · rw [if_neg, hRegistry.ids item hOld]
      intro hSame
      have hIn := hRegistry.event_mem hOld
      rw [hSame] at hIn
      exact hNew hIn
  · have hClock : t.clock = s.clock := by rw [hPosts.frame]
    rw [hClock]
    exact hRegistry.clock

--
-- The history
--

/- No event is fired once its id has been cancelled. -/
def Respects (later earlier : Entry) : Prop :=
  ∀ item now_us queued since,
    later = .fired item now_us queued since → earlier ≠ .cancelled (idOf item.post)

/- What the log says of the items, queued and gone. -/
structure History (s : State) : Prop where
  once : (s.log.filterMap Entry.firedEvent).Nodup
  due :
    ∀ item now_us queued since,
      .fired item now_us queued since ∈ s.log →
        item.realtime_us ≤ now_us ∨ item.realtime_us = INT64_MAX
  first :
    ∀ item now_us queued since,
      .fired item now_us queued since ∈ s.log →
        item ∈ queued ∧
          ∀ other ∈ queued,
            other ≠ item → Before item other ∨ ∃ posts, since = some posts ∧ posts ≤ other.post
  kept :
    ∀ item id,
      .posted item id ∈ s.log →
        item ∈ s.mQueue ∨ .erased item ∈ s.log ∨
          ∃ now_us queued since, .fired item now_us queued since ∈ s.log
  posted : ∀ item id, .posted item id ∈ s.log → id = idOf item.post
  gone : ∀ e ∈ s.log.filterMap Entry.firedEvent, e ∈ s.posts ∧ e ∉ s.mQueue.map QueueItem.event
  cancelled :
    ∀ id,
      .cancelled id ∈ s.log →
        (∃ p < s.posts.length, id = idOf p) ∧ ∀ item ∈ s.mQueue, idOf item.post ≠ id
  respects : s.log.Pairwise Respects

theorem History.start (clock : Int) : History (start clock) := by
  constructor <;> simp [TimedEventQueue.start]

/- The history reads the queue, the posts and the log. -/
theorem History.congr {s t : State} (hHistory : History s) (hQueue : t.mQueue = s.mQueue)
    (hPosts : t.posts = s.posts) (hLog : t.log = s.log) : History t where
  once := by rw [hLog]; exact hHistory.once
  due := by rw [hLog]; exact hHistory.due
  first := by rw [hLog]; exact hHistory.first
  kept := by rw [hLog, hQueue]; exact hHistory.kept
  posted := by rw [hLog]; exact hHistory.posted
  gone := by
    rw [hLog, hQueue, hPosts]
    exact hHistory.gone
  cancelled := by
    rw [hLog, hQueue, hPosts]
    exact hHistory.cancelled
  respects := by rw [hLog]; exact hHistory.respects

/- A posted item is new to the history. -/
theorem History.post {event : Event} {realtime_us : Int} {s t : State} (hHistory : History s)
    (hRegistry : Registry s) (hPosts : Posts event realtime_us s t) (hNew : event ∉ s.posts)
    (hRoom : s.posts.length + 1 < 2 ^ 32) : History t := by
  have hLog : t.log = .posted (newItem event realtime_us s) s.mNextEventID :: s.log := by
    rw [hPosts.frame]
  have hAll : t.posts = s.posts ++ [event] := by
    rw [hPosts.frame]
  have hMem : ∀ item, item ∈ t.mQueue ↔ item = newItem event realtime_us s ∨ item ∈ s.mQueue := by
    intro item
    have hQueue : t.mQueue = insertItem (newItem event realtime_us s) s.mQueue := by
      rw [hPosts.frame]
    rw [hQueue, (insertItem_perm _ _).mem_iff, List.mem_cons]
  have hFired : t.log.filterMap Entry.firedEvent = s.log.filterMap Entry.firedEvent := by
    rw [hLog]
    rfl
  refine ⟨?_, ?_, ?_, ?_, ?_, ?_, ?_, ?_⟩
  · rw [hFired]
    exact hHistory.once
  · intro item now_us queued since hIn
    rw [hLog] at hIn
    apply hHistory.due item now_us queued since
    simpa using hIn
  · intro item now_us queued since hIn
    rw [hLog] at hIn
    apply hHistory.first item now_us queued since
    simpa using hIn
  · intro item id hIn
    rw [hLog] at hIn ⊢
    rcases List.mem_cons.mp hIn with hSame | hOld
    · cases hSame
      left
      exact (hMem _).mpr (Or.inl rfl)
    · rcases hHistory.kept item id hOld with
        hQueued | hErased | ⟨now_us, queued, since, hFire⟩
      · left
        exact (hMem item).mpr (Or.inr hQueued)
      · right
        left
        exact List.mem_cons_of_mem _ hErased
      · right
        right
        exact ⟨now_us, queued, since, List.mem_cons_of_mem _ hFire⟩
  · intro item id hIn
    rw [hLog] at hIn
    rcases List.mem_cons.mp hIn with hSame | hOld
    · cases hSame
      exact hRegistry.next
    · exact hHistory.posted item id hOld
  · intro e hIn
    rw [hFired] at hIn
    rcases hHistory.gone e hIn with ⟨hOld, hAway⟩
    refine ⟨?_, ?_⟩
    · rw [hAll]
      exact List.mem_append_left _ hOld
    · intro hBack
      rcases List.mem_map.mp hBack with ⟨item, hItem, hSame⟩
      rcases (hMem item).mp hItem with rfl | hQueued
      · have hEvent : event = e := hSame
        rw [hEvent] at hNew
        exact hNew hOld
      · apply hAway
        rw [← hSame]
        exact List.mem_map_of_mem hQueued
  · intro id hIn
    rw [hLog] at hIn
    have hOld : .cancelled id ∈ s.log := by simpa using hIn
    rcases hHistory.cancelled id hOld with ⟨⟨p, hLt, rfl⟩, hAway⟩
    constructor
    · refine ⟨p, ?_, rfl⟩
      rw [hAll, List.length_append]
      exact Nat.lt_add_right _ hLt
    · intro item hItem hSame
      rcases (hMem item).mp hItem with rfl | hQueued
      · have hPost : s.posts.length = p := by
          apply idOf_inj hRoom _ hSame
          omega
        omega
      · exact hAway item hQueued hSame
  · rw [hLog, List.pairwise_cons]
    refine ⟨?_, hHistory.respects⟩
    intro earlier _ item now_us queued since hSame
    cases hSame

/- Items leave the queue and are entered as erased. -/
theorem History.erase {s t : State} (hHistory : History s) {gone : List QueueItem}
    (hSub : t.mQueue.Sublist s.mQueue) (hPerm : s.mQueue.Perm (gone ++ t.mQueue))
    (hPosts : t.posts = s.posts) (hLog : t.log = (gone.map Entry.erased).reverse ++ s.log) :
    History t := by
  have hMem : ∀ entry, entry ∈ t.log ↔ (∃ item ∈ gone, .erased item = entry) ∨ entry ∈ s.log := by
    intro entry
    rw [hLog, List.mem_append, List.mem_reverse, List.mem_map]
  have hFired : t.log.filterMap Entry.firedEvent = s.log.filterMap Entry.firedEvent := by
    rw [hLog, List.filterMap_append, List.filterMap_eq_nil_iff.mpr, List.nil_append]
    intro entry hIn
    rw [List.mem_reverse] at hIn
    rcases List.mem_map.mp hIn with ⟨item, -, rfl⟩
    rfl
  refine ⟨?_, ?_, ?_, ?_, ?_, ?_, ?_, ?_⟩
  · rw [hFired]
    exact hHistory.once
  · intro item now_us queued since hIn
    apply hHistory.due item now_us queued since
    rcases (hMem _).mp hIn with ⟨other, -, hSame⟩ | hOld
    · cases hSame
    · exact hOld
  · intro item now_us queued since hIn
    apply hHistory.first item now_us queued since
    rcases (hMem _).mp hIn with ⟨other, -, hSame⟩ | hOld
    · cases hSame
    · exact hOld
  · intro item id hIn
    rcases (hMem _).mp hIn with ⟨other, -, hSame⟩ | hOld
    · cases hSame
    · rcases hHistory.kept item id hOld with
        hQueued | hErased | ⟨now_us, queued, since, hFire⟩
      · rcases List.mem_append.mp (hPerm.mem_iff.mp hQueued) with hGone | hStays
        · right
          left
          exact (hMem _).mpr (Or.inl ⟨item, hGone, rfl⟩)
        · exact Or.inl hStays
      · right
        left
        exact (hMem _).mpr (Or.inr hErased)
      · right
        right
        exact ⟨now_us, queued, since, (hMem _).mpr (Or.inr hFire)⟩
  · intro item id hIn
    rcases (hMem _).mp hIn with ⟨other, -, hSame⟩ | hOld
    · cases hSame
    · exact hHistory.posted item id hOld
  · intro e hIn
    rw [hFired] at hIn
    rcases hHistory.gone e hIn with ⟨hOld, hAway⟩
    rw [hPosts]
    refine ⟨hOld, fun hBack => hAway ?_⟩
    exact (hSub.map QueueItem.event).subset hBack
  · intro id hIn
    rcases (hMem _).mp hIn with ⟨other, -, hSame⟩ | hOld
    · cases hSame
    · rcases hHistory.cancelled id hOld with ⟨hKnown, hAway⟩
      rw [hPosts]
      refine ⟨hKnown, ?_⟩
      intro item hItem
      exact hAway item (hSub.subset hItem)
  · rw [hLog, List.pairwise_append]
    have hErased :
        ∀ entry ∈ (gone.map Entry.erased).reverse, ∀ earlier, Respects entry earlier := by
      intro entry hIn earlier item now_us queued since hSame
      rw [List.mem_reverse] at hIn
      rcases List.mem_map.mp hIn with ⟨other, -, rfl⟩
      cases hSame
    refine ⟨?_, hHistory.respects, ?_⟩
    · apply List.Pairwise.imp_of_mem (R := fun _ _ => True)
      · intro entry earlier hIn _ _
        exact hErased entry hIn earlier
      · exact List.pairwise_of_forall (fun _ _ => trivial)
    · intro entry hIn earlier _
      exact hErased entry hIn earlier

/- `cancelEvent` has taken the only item with the id out. -/
theorem History.cancel {s : State} (hHistory : History s) {id : EventId}
    (hKnown : ∃ p < s.posts.length, id = idOf p) (hAway : ∀ item ∈ s.mQueue, idOf item.post ≠ id) :
    History { s with log := .cancelled id :: s.log } := by
  have hOld :
      ∀ entry, entry ≠ .cancelled id → entry ∈ Entry.cancelled id :: s.log → entry ∈ s.log := by
    intro entry hNot hIn
    exact (List.mem_cons.mp hIn).resolve_left hNot
  refine ⟨hHistory.once, ?_, ?_, ?_, ?_, hHistory.gone, ?_, ?_⟩
  · intro item now_us queued since hIn
    exact hHistory.due item now_us queued since (hOld _ (by simp) hIn)
  · intro item now_us queued since hIn
    exact hHistory.first item now_us queued since (hOld _ (by simp) hIn)
  · intro item other hIn
    rcases hHistory.kept item other (hOld _ (by simp) hIn) with
      hQueued | hErased | ⟨now_us, queued, since, hFire⟩
    · exact Or.inl hQueued
    · exact Or.inr (Or.inl (List.mem_cons_of_mem _ hErased))
    · exact Or.inr (Or.inr ⟨now_us, queued, since, List.mem_cons_of_mem _ hFire⟩)
  · intro item other hIn
    exact hHistory.posted item other (hOld _ (by simp) hIn)
  · intro other hIn
    rcases List.mem_cons.mp hIn with hSame | hIn
    · cases hSame
      exact ⟨hKnown, hAway⟩
    · exact hHistory.cancelled other hIn
  · apply List.pairwise_cons.mpr
    refine ⟨?_, hHistory.respects⟩
    intro earlier _ item now_us queued since hSame
    cases hSame

/- An item leaves the queue and its event is fired. -/
theorem History.fire {stops : Event → Bool} {s : State} (hHistory : History s)
    (hRegistry : Registry s) {item : QueueItem} {rest : List QueueItem} {since : Option Nat}
    (hItem : item ∈ s.mQueue) (hSub : rest.Sublist s.mQueue) (hPerm : s.mQueue.Perm (item :: rest))
    (hDue : item.realtime_us ≤ s.clock ∨ item.realtime_us = INT64_MAX)
    (hFirst :
      ∀ other ∈ s.mQueue,
        other ≠ item → Before item other ∨ ∃ posts, since = some posts ∧ posts ≤ other.post) :
    History (fired stops item rest since s) := by
  have hNew : item.event ∉ s.log.filterMap Entry.firedEvent := fun hIn =>
      (hHistory.gone item.event hIn).2 (List.mem_map_of_mem hItem)
  have hMem :
      ∀ entry,
        entry ∈ (fired stops item rest since s).log ↔
          entry = .fired item s.clock s.mQueue since ∨ entry ∈ s.log := by
    intro entry
    exact List.mem_cons
  refine ⟨?_, ?_, ?_, ?_, ?_, ?_, ?_, ?_⟩
  · exact List.nodup_cons.mpr ⟨hNew, hHistory.once⟩
  · intro other now_us queued posts hIn
    rcases (hMem _).mp hIn with hSame | hOld
    · cases hSame
      exact hDue
    · exact hHistory.due other now_us queued posts hOld
  · intro other now_us queued posts hIn
    rcases (hMem _).mp hIn with hSame | hOld
    · cases hSame
      exact ⟨hItem, hFirst⟩
    · exact hHistory.first other now_us queued posts hOld
  · intro other id hIn
    have hOld : .posted other id ∈ s.log := by
      rcases (hMem _).mp hIn with hSame | hOld
      · cases hSame
      · exact hOld
    rcases hHistory.kept other id hOld with
      hQueued | hErased | ⟨now_us, queued, posts, hFire⟩
    · rcases List.mem_cons.mp (hPerm.mem_iff.mp hQueued) with rfl | hStays
      · right
        right
        exact ⟨s.clock, s.mQueue, since, (hMem _).mpr (Or.inl rfl)⟩
      · exact Or.inl hStays
    · exact Or.inr (Or.inl ((hMem _).mpr (Or.inr hErased)))
    · exact Or.inr (Or.inr ⟨now_us, queued, posts, (hMem _).mpr (Or.inr hFire)⟩)
  · intro other id hIn
    rcases (hMem _).mp hIn with hSame | hOld
    · cases hSame
    · exact hHistory.posted other id hOld
  · intro e hIn
    have hDistinct := (hPerm.map QueueItem.event).nodup_iff.mp hRegistry.distinct
    rw [List.map_cons, List.nodup_cons] at hDistinct
    rcases List.mem_cons.mp hIn with rfl | hOld
    · exact ⟨hRegistry.event_mem hItem, hDistinct.1⟩
    · rcases hHistory.gone e hOld with ⟨hPosted, hAway⟩
      refine ⟨hPosted, fun hBack => hAway ?_⟩
      exact (hSub.map QueueItem.event).subset hBack
  · intro id hIn
    rcases (hMem _).mp hIn with hSame | hOld
    · cases hSame
    · rcases hHistory.cancelled id hOld with ⟨hKnown, hAway⟩
      refine ⟨hKnown, ?_⟩
      intro other hOther
      exact hAway other (hSub.subset hOther)
  · apply List.pairwise_cons.mpr
    refine ⟨?_, hHistory.respects⟩
    intro earlier hIn other now_us queued posts hSame hCancel
    cases hSame
    rw [hCancel] at hIn
    exact (hHistory.cancelled _ hIn).2 item hItem rfl

--
-- Waiting for an event
--

/-
  While the thread waits for the time of an item, only items posted since may stand in front of it.
-/
structure Waits (s : State) : Prop where
  waits :
    ∀ id deadline timeoutCapped head since,
      s.thread = .timed id deadline timeoutCapped head since →
        id = idOf head.post ∧ head.post < since ∧ since ≤ s.posts.length ∧
          (timeoutCapped = false → head.realtime_us ≤ deadline) ∧
          ∀ other ∈ s.mQueue,
            other.post < since → other = head ∨ Before head other ∧ other.post ≠ head.post

/- A thread that does not wait. -/
theorem Waits.of_awake {s : State}
    (hAwake :
      ∀ id deadline timeoutCapped head since,
        s.thread ≠ .timed id deadline timeoutCapped head since) :
    Waits s where
  waits := by
    intro id deadline timeoutCapped head since hThread
    exact absurd hThread (hAwake id deadline timeoutCapped head since)

/- Later posts and removals leave the wait as it is. -/
theorem Waits.mono {s t : State} (hWaits : Waits s) (hThread : t.thread = s.thread)
    (hPosts : s.posts.length ≤ t.posts.length)
    (hQueue : ∀ item ∈ t.mQueue, item ∈ s.mQueue ∨ s.posts.length ≤ item.post) : Waits t where
  waits := by
    intro id deadline timeoutCapped head since hAt
    rw [hThread] at hAt
    rcases hWaits.waits id deadline timeoutCapped head since hAt with
      ⟨hId, hHead, hSince, hDeadline, hOthers⟩
    refine ⟨hId, hHead, Nat.le_trans hSince hPosts, hDeadline, ?_⟩
    intro other hOther hEarly
    rcases hQueue other hOther with hOld | hNew
    · exact hOthers other hOld hEarly
    · omega

/- What holds of the queue, its thread and its history. -/
structure Orderly (s : State) : Prop where
  registry : Registry s
  history : History s
  waits : Waits s

--
-- One step
--

variable {σ : Type}

theorem Orderly.start {clock : Int} (hClock : 0 ≤ clock) : Orderly (start clock) where
  registry := Registry.start hClock
  history := History.start clock
  waits := Waits.of_awake (by simp [TimedEventQueue.start])

/- Changes of the lock, the clock and the awake thread. -/
theorem Orderly.congr {s t : State} (hOrderly : Orderly s) (hQueue : t.mQueue = s.mQueue)
    (hNext : t.mNextEventID = s.mNextEventID) (hIds : t.eventID = s.eventID)
    (hPosts : t.posts = s.posts) (hLog : t.log = s.log) (hClock : s.clock ≤ t.clock)
    (hThread :
      t.thread = s.thread ∨
        ∀ id deadline timeoutCapped head since,
          t.thread ≠ .timed id deadline timeoutCapped head since) :
    Orderly t where
  registry := hOrderly.registry.congr hQueue hNext hIds hPosts hClock
  history := hOrderly.history.congr hQueue hPosts hLog
  waits := by
    rcases hThread with hSame | hAwake
    · apply hOrderly.waits.mono hSame
      · exact Nat.le_of_eq (by rw [hPosts])
      · intro item hItem
        rw [hQueue] at hItem
        exact Or.inl hItem
    · exact Waits.of_awake hAwake

theorem Orderly.post {event : Event} {realtime_us : Int} {s t : State} (hOrderly : Orderly s)
    (hPosts : Posts event realtime_us s t) (hNew : event ∉ s.posts)
    (hRoom : s.posts.length + 1 < 2 ^ 32) : Orderly t where
  registry := hOrderly.registry.post hPosts hNew hRoom
  history := hOrderly.history.post hOrderly.registry hPosts hNew hRoom
  waits := by
    apply hOrderly.waits.mono
    · rw [hPosts.frame]
    · rw [hPosts.frame]
      simp
    · intro item hItem
      have hQueue :
          t.mQueue =
            insertItem (newItem event realtime_us s)
              s.mQueue := by
        rw [hPosts.frame]
      rw [hQueue, (insertItem_perm _ _).mem_iff] at hItem
      rcases List.mem_cons.mp hItem with rfl | hOld
      · exact Or.inr (Nat.le_refl _)
      · exact Or.inl hOld

theorem Orderly.cancel {gone : List QueueItem} {s t : State} (hOrderly : Orderly s)
    (hCancels : Cancels gone s t) (hSub : t.mQueue.Sublist s.mQueue)
    (hPerm : s.mQueue.Perm (gone ++ t.mQueue)) : Orderly t where
  registry := by
    apply hOrderly.registry.remove hSub hPerm
    · rw [hCancels.frame]
    · intro e hStays
      rw [hCancels.frame]
      exact if_neg hStays
    · rw [hCancels.frame]
    · rw [hCancels.frame]
  history := by
    apply hOrderly.history.erase hSub hPerm
    · rw [hCancels.frame]
    · rw [hCancels.frame]
  waits := by
    apply hOrderly.waits.mono
    · rw [hCancels.frame]
    · exact Nat.le_of_eq (by rw [hCancels.frame])
    · intro item hItem
      exact Or.inl (hSub.subset hItem)

theorem Orderly.cancelOne {id : EventId} {s t : State} {found : Bool} (hOrderly : Orderly s)
    (hCancel : cancelEvent id s = some (t, found)) :
    Orderly
      (if found then { t with log := .cancelled id :: t.log }
        else t) := by
  rcases cancelEvent_cases hCancel with
    ⟨hSub, ⟨rfl, hCancels, hPerm⟩ | ⟨rfl, item, hItem, hId, hCancels, hPerm⟩⟩
  · exact hOrderly.cancel hCancels hSub hPerm
  · have hNext := hOrderly.cancel hCancels hSub hPerm
    have hRegistry := hOrderly.registry
    have hPosts : t.posts = s.posts := by
      rw [hCancels.frame]
    have hKnown : id = idOf item.post := by
      rw [← hId]
      exact hRegistry.ids item hItem
    have hDistinct := (hPerm.map QueueItem.event).nodup_iff.mp hRegistry.distinct
    rw [List.map_cons, List.nodup_cons] at hDistinct
    have hAway : ∀ other ∈ t.mQueue, idOf other.post ≠ id := by
      intro other hOther hSame
      have hOld := hSub.subset hOther
      rw [hKnown] at hSame
      have hPost : other.post = item.post := by
        have hRoom := hRegistry.room
        have hOne := hRegistry.post_lt hOld
        have hTwo := hRegistry.post_lt hItem
        apply idOf_inj _ _ hSame <;> omega
      have hEq := hRegistry.eq_of_post hOld hItem hPost
      apply hDistinct.1
      rw [← hEq]
      exact List.mem_map_of_mem hOther
    refine ⟨?_, ?_, ?_⟩
    · exact hNext.registry.congr rfl rfl rfl rfl (Int.le_refl _)
    · apply hNext.history.cancel _ hAway
      refine ⟨item.post, ?_, hKnown⟩
      rw [hPosts]
      exact hRegistry.post_lt hItem
    · refine hNext.waits.mono rfl (Nat.le_refl _) ?_
      exact fun other hOther => Or.inl hOther

/- An item that is first, or was when its wait began, is fired. -/
theorem Orderly.fire {stops : Event → Bool} {s : State} (hOrderly : Orderly s) {item : QueueItem}
    {rest : List QueueItem} {since : Option Nat} (hItem : item ∈ s.mQueue)
    (hSub : rest.Sublist s.mQueue) (hPerm : s.mQueue.Perm (item :: rest))
    (hDue : item.realtime_us ≤ s.clock ∨ item.realtime_us = INT64_MAX)
    (hFirst :
      ∀ other ∈ s.mQueue,
        other ≠ item → Before item other ∨ ∃ posts, since = some posts ∧ posts ≤ other.post) :
    Orderly (fired stops item rest since s) where
  registry := by
    have hGone : s.mQueue.Perm ([item] ++ rest) := hPerm
    refine hOrderly.registry.remove hSub hGone rfl ?_ rfl
      rfl
    intro e hStays
    apply if_neg
    simpa using hStays
  history := hOrderly.history.fire hOrderly.registry hItem hSub hPerm hDue hFirst
  waits := Waits.of_awake (by simp [fired])

theorem Orderly.turn {stops : Event → Bool} {s : State} (hOrderly : Orderly s) (id : EventId) :
    Orderly (turn stops id s) := by
  have hRegistry := hOrderly.registry
  rcases turn_cases stops id s with
    ⟨-, hTurn⟩ | ⟨head, rest, hQueue, ⟨hDue, hTurn⟩ | ⟨deadline, capped, hTime, hTurn⟩⟩
  · rw [hTurn]
    refine hOrderly.congr rfl rfl rfl rfl rfl (Int.le_refl _) (Or.inr ?_)
    simp
  · have hHead : head ∈ s.mQueue := by
      rw [hQueue]
      exact List.mem_cons_self
    rw [hTurn]
    apply hOrderly.fire hHead
    · rw [hQueue]
      exact List.sublist_cons_self head rest
    · rw [hQueue]
    · rcases hDue with hPast | hMark | hNow
      · left
        have hClock := hRegistry.clock
        omega
      · exact Or.inr hMark
      · exact Or.inl hNow
    · intro other hOther hNot
      exact Or.inl (hRegistry.head_before hQueue hOther hNot)
  · have hHead : head ∈ s.mQueue := by
      rw [hQueue]
      exact List.mem_cons_self
    rw [hTurn]
    refine ⟨?_, ?_, ⟨?_⟩⟩
    · exact hRegistry.congr rfl rfl rfl rfl (Int.le_refl _)
    · exact hOrderly.history.congr rfl rfl rfl
    · intro id' deadline' capped' head' since' hThread
      cases hThread
      refine ⟨hRegistry.ids head hHead, hRegistry.post_lt hHead, Nat.le_refl _, hTime, ?_⟩
      intro other hOther _
      by_cases hSame : other = head
      · exact Or.inl hSame
      · right
        refine ⟨hRegistry.head_before hQueue hOther hSame, ?_⟩
        intro hPost
        exact hSame (hRegistry.eq_of_post hOther hHead hPost)

/- The wait is over: the event it was for is fired. -/
theorem Orderly.timeout {stops : Event → Bool} {s : State} (hOrderly : Orderly s) {id : EventId}
    {deadline : Int} {head : QueueItem} {since : Nat}
    (hThread : s.thread = .timed id deadline false head since) (hOver : deadline ≤ s.clock) :
    Orderly (fireEvent stops id (some since) s) := by
  have hRegistry := hOrderly.registry
  rcases hOrderly.waits.waits id deadline false head since hThread with
    ⟨hId, hHead, hSince, hDeadline, hOthers⟩
  rcases fireEvent_cases stops id (some since) s with
    hTop | ⟨item, rest, hItem, hSame, hSub, hPerm, hFire⟩
  · rw [hTop]
    refine hOrderly.congr rfl rfl rfl rfl rfl (Int.le_refl _) (Or.inr ?_)
    simp
  · have hPost : item.post = head.post := by
      have hRoom := hRegistry.room
      have hOne := hRegistry.post_lt hItem
      rw [hId, hRegistry.ids item hItem] at hSame
      apply idOf_inj _ _ hSame <;> omega
    have hEq : item = head := by
      rcases hOthers item hItem (by omega) with hEq | hNot
      · exact hEq
      · exact absurd hPost hNot.2
    rw [hFire]
    apply hOrderly.fire hItem hSub hPerm
    · left
      rw [hEq]
      exact Int.le_trans (hDeadline rfl) hOver
    · intro other hOther hNot
      by_cases hEarly : other.post < since
      · rcases hOthers other hOther hEarly with
          hHeads | ⟨hBefore, -⟩
        · rw [hEq] at hNot
          exact absurd hHeads hNot
        · rw [hEq]
          exact Or.inl hBefore
      · right
        exact ⟨since, rfl, Nat.not_lt.mp hEarly⟩

theorem Orderly.thread {stops : Event → Bool} {s t : State} (hOrderly : Orderly s)
    (hMoves : ThreadMoves stops s t) : Orderly t := by
  cases hMoves with
  | idles thread hIdle =>
    refine hOrderly.congr rfl rfl rfl rfl rfl (Int.le_refl _) (Or.inr ?_)
    rcases hIdle with rfl | rfl <;> simp
  | turns id => exact hOrderly.turn id
  | fires id deadline head since hThread hOver => exact hOrderly.timeout hThread hOver

theorem Orderly.finish {item : QueueItem} {s t : State} (hOrderly : Orderly s)
    (hFinish : finish item s = some t) : Orderly t := by
  unfold TimedEventQueue.finish at hFinish
  rcases Option.map_eq_some_iff.mp hFinish with ⟨u, hRelease, rfl⟩
  split at hRelease
  · have hFrame := releaseWakeLock_l_eq hRelease
    apply hOrderly.congr
    · rw [hFrame]
    · rw [hFrame]
    · rw [hFrame]
    · rw [hFrame]
    · rw [hFrame]
    · exact Int.le_of_eq (by rw [hFrame])
    · right
      simp
  · cases hRelease
    refine hOrderly.congr rfl rfl rfl rfl rfl (Int.le_refl _) (Or.inr ?_)
    simp

theorem step_orderly {stops : Event → Bool} {s t : State} {a : Action σ} (hOrderly : Orderly s)
    (hFresh : FreshPost s a) (hStep : step stops s a = some t) : Orderly t := by
  cases a with
  | post event realtime_us power =>
    exact hOrderly.post (postTimedEvent_posts hStep) hFresh.1 hFresh.2
  | cancelEvent id =>
    rcases Option.map_eq_some_iff.mp hStep with ⟨⟨u, found⟩, hCancel, rfl⟩
    exact hOrderly.cancelOne hCancel
  | cancelEvents predicate cookie stopAfterFirstMatch =>
    rcases Option.map_eq_some_iff.mp hStep with ⟨⟨u, left⟩, hCancel, rfl⟩
    rcases cancelEvents_cancels hCancel with ⟨hCancels, hSub, hPerm⟩
    exact hOrderly.cancel hCancels hSub hPerm
  | binderDied =>
    rcases clearPowerManager_eq hStep with ⟨hFrame, -⟩
    apply hOrderly.congr
    · rw [hFrame]
    · rw [hFrame]
    · rw [hFrame]
    · rw [hFrame]
    · rw [hFrame]
    · exact Int.le_of_eq (by rw [hFrame])
    · left
      rw [hFrame]
  | enter => exact hOrderly.thread (step_threadMoves (Or.inl rfl) hStep).2
  | wake => exact hOrderly.thread (step_threadMoves (Or.inr (Or.inl rfl)) hStep).2
  | timeout => exact hOrderly.thread (step_threadMoves (Or.inr (Or.inr rfl)) hStep).2
  | finish =>
    unfold step at hStep
    cases hAt : s.thread with
    | firing item now_us =>
      rw [hAt] at hStep
      exact hOrderly.finish hStep
    | _ =>
      rw [hAt] at hStep
      cases hStep
  | tick us =>
    cases hStep
    refine hOrderly.congr rfl rfl rfl rfl rfl ?_ (Or.inl rfl)
    dsimp only
    omega

--
-- Runs
--

theorem Orderly.delivers {s : State} (hOrderly : Orderly s) : Delivers s where
  once := hOrderly.history.once
  due := hOrderly.history.due
  cancelled := by
    intro later earlier id item hLog hPosted now_us queued since hFired
    have hRespects := hOrderly.history.respects
    have hId := hOrderly.history.posted item id hPosted
    rw [hLog, List.pairwise_append] at hRespects
    apply hRespects.2.2 _ hFired (.cancelled id) List.mem_cons_self item now_us queued since rfl
    rw [hId]
  first := hOrderly.history.first
  kept := hOrderly.history.kept

/- Every run of posts of distinct events delivers them. -/
theorem events_delivered {stops : Event → Bool} {clock : Int} {as : List (Action σ)} {s : State}
    (hClock : 0 ≤ clock)
    (hRun : Run.exec (Run.guarded FreshPost (step stops)) (start clock) as = some s) :
    Delivers s := by
  apply Orderly.delivers
  refine Run.exec_invariant ?_ hRun (Orderly.start hClock)
  intro u a v hOrderly hStep
  rcases Run.guarded_eq_some.mp hStep with ⟨hFresh, hNext⟩
  exact step_orderly hOrderly hFresh hNext

/- One event is fired when its wait is over, one cancelled. -/
theorem events_delivered_one :
    ∃ s,
      Run.exec (Run.guarded FreshPost (step fun _ => false)) (start 0)
          ([.post 1 500 ⟨true, true⟩, .enter, .post 2 900 ⟨true, true⟩, .tick 500,
            .timeout, .finish, .cancelEvent 2] : List (Action Unit)) = some s ∧
        Delivers s := by
  obtain ⟨s, hRun⟩ :
      ∃ s,
        Run.exec (Run.guarded FreshPost (step fun _ => false)) (start 0)
            ([.post 1 500 ⟨true, true⟩, .enter, .post 2 900 ⟨true, true⟩, .tick 500,
              .timeout, .finish, .cancelEvent 2] : List (Action Unit)) = some s :=
    ⟨_, rfl⟩
  exact ⟨s, hRun, events_delivered (Int.le_refl 0) hRun⟩

/-
  An event posted in front while the wait for another times out is queued when the other is fired,
  and an event posted to the back is fired before its time.
-/
theorem events_out_of_order :
    (∃ (as : List (Action Unit)) (s : State) (item other : QueueItem) (queued : List QueueItem)
        (now_us : Int) (since : Option Nat),
      Run.exec (Run.guarded FreshPost (step fun _ => false)) (start 0) as = some s ∧
        .fired item now_us queued since ∈ s.log ∧ other ∈ queued ∧ Before other item) ∧
      ∃ (as : List (Action Unit)) (s : State) (item : QueueItem) (queued : List QueueItem)
          (now_us : Int) (since : Option Nat),
        Run.exec (Run.guarded FreshPost (step fun _ => false)) (start 0) as = some s ∧
          .fired item now_us queued since ∈ s.log ∧ now_us < item.realtime_us := by
  constructor
  · refine ⟨[.post 1 500 ⟨true, true⟩, .enter, .tick 500, .post 2 200 ⟨true, true⟩, .timeout], _,
      ⟨1, 500, false, 0⟩, ⟨2, 200, false, 1⟩, [⟨2, 200, false, 1⟩, ⟨1, 500, false, 0⟩], 500, some 1,
      rfl, ?_, ?_, ?_⟩
    · decide
    · decide
    · exact Or.inl (by decide)
  · refine ⟨[.post 1 INT64_MAX ⟨false, false⟩, .enter], _,
      ⟨1, INT64_MAX, true, 0⟩, [⟨1, INT64_MAX, true, 0⟩], 0, none, rfl, ?_, ?_⟩
    · decide
    · decide

end TimedEventQueue

end FrameworksAv
