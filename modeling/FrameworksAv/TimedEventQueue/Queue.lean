import FrameworksAv.Base.Run

/-
  `TimedEventQueue` (media/libstagefright): events posted from any thread for a time, taken out and
  fired by the queue's own thread, and a wake lock that is held while events are far off.

  A step is what one thread does between taking the lock and giving it up. A wait on a condition
  gives the lock up and takes it again, so a wake-up may come at any time: signals are not modelled.

  Main declarations:
    * `State`
    * `postTimedEvent`
    * `turn`
    * `step`
-/

--
-- State
--

namespace FrameworksAv

namespace TimedEventQueue

/- An event object, by its address. -/
abbrev Event := Nat

/- `event_id`; zero is the id of no posted event. -/
abbrev EventId := BitVec 32

def INT64_MAX : Int := 2 ^ 63 - 1

def kWakelockMinDelay : Int := 100000

def kMaxTimeoutUs : Int := 10000000

/-
  `QueueItem`. The field `post` is history: it counts the posts before the one that made the item.
-/
structure QueueItem where
  event : Event
  realtime_us : Int
  has_wakelock : Bool
  post : Nat
deriving DecidableEq, Repr

/-
  Where the thread stands in `threadEntry`. A timed wait remembers the id of the event that was
  first in the queue; the last two of its fields are history: that item, and the number of posts
  when the wait began.
-/
inductive Thread where
| top
| notEmpty
| timed (eventID : EventId) (deadline : Int) (timeoutCapped : Bool) (head : QueueItem) (since : Nat)
| firing (item : QueueItem) (now_us : Int)
| ended
deriving DecidableEq, Repr

/-
  What happens to events. A fired event is kept with the queue it was taken from and, when the wait
  for it has timed out, the number of posts when that wait began.
-/
inductive Entry where
| posted (item : QueueItem) (id : EventId)
| erased (item : QueueItem)
| cancelled (id : EventId)
| fired (item : QueueItem) (now_us : Int) (queued : List QueueItem) (since : Option Nat)
deriving DecidableEq, Repr

/-
  The queue, its thread and its surroundings: the ids inside the event objects, the clock and the
  wake locks that the power manager has granted. The last three fields are history, which no step
  reads: the events posted so far, the posts that have raised the count of wake locks since the
  power manager last died, and what happened, latest first.
-/
structure State where
  mQueue : List QueueItem
  mNextEventID : EventId
  mStopped : Bool
  mPowerManager : Bool
  mWakeLockToken : Option Nat
  mWakeLockCount : Nat
  thread : Thread
  eventID : Event → EventId
  clock : Int
  granted : List Nat
  posts : List Event
  counted : List Nat
  log : List Entry

/- A new queue whose thread has been started. -/
def start (clock : Int) : State where
  mQueue := []
  mNextEventID := 1
  mStopped := false
  mPowerManager := false
  mWakeLockToken := none
  mWakeLockCount := 0
  thread := .top
  eventID := fun _ => 0
  clock := clock
  granted := []
  posts := []
  counted := []
  log := []

def State.setEventID (s : State) (event : Event) (id : EventId) : State :=
  { s with
    eventID := fun e =>
      if e = event then id else s.eventID e }

--
-- The wake lock
--

/- How the power manager answers: whether the service is up and whether it grants the lock. -/
structure Power where
  service : Bool
  granted : Bool
deriving DecidableEq, Repr

/- A failed `CHECK` ends the process: `none`. -/
def acquireWakeLock_l (power : Power) (s : State) : Option State :=
  if s.mWakeLockCount = 0 then if s.mWakeLockToken ≠ none then none
    else
      let manager := s.mPowerManager || power.service
      if manager && power.granted then
        some { s with
          mPowerManager := manager
          mWakeLockToken := some s.posts.length
          mWakeLockCount := s.mWakeLockCount + 1
          granted := s.posts.length :: s.granted }
      else some { s with mPowerManager := manager }
  else
    some { s with
      mWakeLockCount := (s.mWakeLockCount + 1) % 2 ^ 32 }

def releaseWakeLock_l (force : Bool) (s : State) : Option State :=
  if s.mWakeLockCount = 0 then some s
  else
    let count := if force then 1 else s.mWakeLockCount
    if count - 1 = 0 then
      match s.mWakeLockToken with
      | none => none
      | some token =>
        some { s with
          mWakeLockCount := 0
          mWakeLockToken := none
          granted := if s.mPowerManager then s.granted.erase token
            else s.granted }
    else some { s with mWakeLockCount := count - 1 }

/- `binderDied`: the power manager is gone, and with it the locks that it has granted. -/
def clearPowerManager (s : State) : Option State :=
  (releaseWakeLock_l true { s with granted := [] }).map
    (fun t =>
      { t with mPowerManager := false, counted := [] })

--
-- Posting and cancelling
--

/- An item goes behind all that are not due later. -/
def insertItem (item : QueueItem) (queue : List QueueItem) : List QueueItem :=
  queue.takeWhile (fun i => i.realtime_us ≤ item.realtime_us) ++
    item :: queue.dropWhile (fun i => i.realtime_us ≤ item.realtime_us)

/- Does a post for this time ask for the wake lock? -/
def State.delayed (s : State) (realtime_us : Int) : Bool :=
  s.clock + kWakelockMinDelay < realtime_us

/- The item is flagged whatever became of the acquisition. -/
def postTimedEvent (event : Event) (realtime_us : Int) (power : Power) (s : State) : Option State :=
  let id := s.mNextEventID
  let s :=
    { s.setEventID event id with
      mNextEventID := s.mNextEventID + 1 }
  let item : QueueItem :=
    { event := event
      realtime_us := realtime_us
      has_wakelock := s.delayed realtime_us
      post := s.posts.length }
  (if s.delayed realtime_us then acquireWakeLock_l power s else some s).map
    (fun t =>
      { t with
        mQueue := insertItem item t.mQueue
        posts := s.posts ++ [event]
        counted := if t.mWakeLockCount = s.mWakeLockCount then s.counted
          else item.post :: s.counted
        log := .posted item id :: s.log })

variable {σ : Type}

/- The predicate of `cancelEvents`: it sees the event with its id, and may change the cookie. -/
abbrev Predicate (σ : Type) :=
  σ → Event → EventId → Bool × σ

/- The item at the iterator is taken out of the queue. -/
def eraseItem (item : QueueItem) (s : State) : Option State :=
  let s :=
    { s.setEventID item.event 0 with
      log := .erased item :: s.log }
  if item.has_wakelock then releaseWakeLock_l false s
  else some s

/- The loop of `cancelEvents`: `kept` is the queue in front of the iterator. -/
def cancelLoop (predicate : Predicate σ) (stopAfterFirstMatch : Bool) :
    List QueueItem → List QueueItem → σ → State → Option (State × σ)
| kept, [], cookie, s => some ({ s with mQueue := kept }, cookie)
| kept, item :: rest, cookie, s =>
  match predicate cookie item.event (s.eventID item.event) with
  | (false, cookie) => cancelLoop predicate stopAfterFirstMatch (kept ++ [item]) rest cookie s
  | (true, cookie) =>
    (eraseItem item s).bind
      (fun t =>
        if stopAfterFirstMatch then some ({ t with mQueue := kept ++ rest }, cookie)
        else cancelLoop predicate stopAfterFirstMatch kept rest cookie t)

def cancelEvents (predicate : Predicate σ) (cookie : σ) (stopAfterFirstMatch : Bool) (s : State) :
    Option (State × σ) :=
  cancelLoop predicate stopAfterFirstMatch [] s.mQueue cookie s

/- A match clears the id in the cookie. -/
def MatchesEventID : Predicate EventId :=
  fun id _ eventID =>
    if eventID ≠ id then (false, id) else (true, 0)

/- The state and the value that `cancelEvent` returns. -/
def cancelEvent (id : EventId) (s : State) : Option (State × Bool) :=
  if id = 0 then some (s, false)
  else (cancelEvents MatchesEventID id true s).map (fun result => (result.1, result.2 == 0))

end TimedEventQueue

--
-- The thread
--

namespace TimedEventQueue

/- `removeEventFromQueue_l` finds the first item with the id. -/
def State.hasId (s : State) (id : EventId) (item : QueueItem) : Bool :=
  s.eventID item.event == id

/-
  The event with the id leaves the queue and is fired, unless it was cancelled in the meantime.
  `stops` tells the `StopEvent`s, which end the thread.
-/
def fireEvent (stops : Event → Bool) (eventID : EventId) (since : Option Nat) (s : State) : State :=
  match s.mQueue.find? (s.hasId eventID) with
  | none => { s with thread := .top }
  | some item =>
    { s.setEventID item.event 0 with
      mQueue := s.mQueue.eraseP (s.hasId eventID)
      mStopped := s.mStopped || stops item.event
      thread := .firing item s.clock
      log := .fired item s.clock s.mQueue since :: s.log }

/-
  One turn of the inner loop of `threadEntry`. On an empty queue the loop is left with the id of an
  earlier turn.
-/
def turn (stops : Event → Bool) (eventID : EventId) (s : State) : State :=
  match s.mQueue with
  | [] => fireEvent stops eventID none s
  | head :: _ =>
    let eventID := s.eventID head.event
    let delay_us := if head.realtime_us < 0 ∨ head.realtime_us = INT64_MAX then 0
      else head.realtime_us - s.clock
    if delay_us ≤ 0 then fireEvent stops eventID none s
    else if kMaxTimeoutUs < delay_us then
      { s with
        thread := .timed eventID (s.clock + kMaxTimeoutUs) true head s.posts.length }
    else
      { s with
        thread := .timed eventID (s.clock + delay_us) false head s.posts.length }

/- The thread takes the lock at the head of its loop. -/
def enter (stops : Event → Bool) (s : State) : State :=
  if s.mStopped then { s with thread := .ended }
  else if s.mQueue = [] then { s with thread := .notEmpty }
  else turn stops 0 s

/- After the call of `fire` the wake lock is given back. -/
def finish (item : QueueItem) (s : State) : Option State :=
  (if item.has_wakelock then releaseWakeLock_l false s else some s).map
    (fun t => { t with thread := .top })

--
-- Steps
--

inductive Action (σ : Type) where
| post (event : Event) (realtime_us : Int) (power : Power)
| cancelEvent (id : EventId)
| cancelEvents (predicate : Predicate σ) (cookie : σ) (stopAfterFirstMatch : Bool)
| binderDied
| enter
| wake
| timeout
| finish
| tick (us : Nat)

variable {σ : Type}

/-
  A wait may end by a signal or for no reason (`wake`), and a timed one once its time is over
  (`timeout`).
-/
def step (stops : Event → Bool) (s : State) : Action σ → Option State
| .post event realtime_us power => postTimedEvent event realtime_us power s
| .cancelEvent id =>
  (cancelEvent id s).map
    (fun result =>
      if result.2 then
        { result.1 with
          log := .cancelled id :: result.1.log }
      else result.1)
| .cancelEvents predicate cookie stopAfterFirstMatch =>
  (cancelEvents predicate cookie stopAfterFirstMatch s).map Prod.fst
| .binderDied => clearPowerManager s
| .enter =>
  match s.thread with
  | .top => some (enter stops s)
  | _ => none
| .wake =>
  match s.thread with
  | .notEmpty =>
    if s.mQueue = [] then some s
    else some (turn stops 0 s)
  | .timed eventID _ _ _ _ => some (turn stops eventID s)
  | _ => none
| .timeout =>
  match s.thread with
  | .timed eventID deadline timeoutCapped _ since =>
    if s.clock < deadline then none
    else if timeoutCapped then some (turn stops eventID s)
    else some (fireEvent stops eventID (some since) s)
  | _ => none
| .finish =>
  match s.thread with
  | .firing item _ => finish item s
  | _ => none
| .tick us => some { s with clock := s.clock + us }

end TimedEventQueue

end FrameworksAv
