import Mathlib.Data.Finset.Basic
import Mathlib.Algebra.BigOperators.Group.List.Basic
import FrameworksAv.Base.Run

/-
  The active clients of a shared resource (camera/libcameraservice/utils/ClientManager.h).

  Clients are shared pointers: `heap` says which descriptor a pointer leads to, and only its
  priority ever changes. The costs are `int32_t` and their sum is an `int64_t`, which no list that
  fits into memory overflows.

  Main declarations:
    * `ClientDescriptor`, `Manager`
    * `Manager.wouldEvictLocked`, `Manager.wouldEvict`
    * `Manager.addAndEvict`
    * `Manager.step`
-/

--
-- Descriptors
--

namespace FrameworksAv

namespace ClientManager

variable {κ : Type*} [DecidableEq κ]

structure ClientDescriptor (κ : Type*) where
  mKey : κ
  mCost : Int
  mConflicting : Finset κ
  mPriority : Int
  mOwnerId : Int

namespace ClientDescriptor

/- A client conflicts with its own key. -/
def isConflicting (d : ClientDescriptor κ) (key : κ) : Bool :=
  decide (key = d.mKey) || decide (key ∈ d.mConflicting)

def setPriority (d : ClientDescriptor κ) (priority : Int) : ClientDescriptor κ :=
  { d with mPriority := priority }

omit [DecidableEq κ] in
@[simp] theorem setPriority_mKey (d : ClientDescriptor κ) (priority : Int) :
    (d.setPriority priority).mKey = d.mKey :=
  rfl

end ClientDescriptor

/- The calls of the listener. -/
inductive Event
| onClientAdded (client : Nat)
| onClientRemoved (client : Nat)
deriving DecidableEq

end ClientManager

--
-- Decisions
--

namespace ClientManager

/- `mClients` is in LRU order, with the most recent at the end. -/
structure Manager (κ : Type*) where
  mMaxCost : Int
  mListener : Bool
  mClients : List Nat
  heap : Nat → ClientDescriptor κ

namespace Manager

variable {κ : Type*} [DecidableEq κ]
variable (m : Manager κ)

def key (i : Nat) : κ := (m.heap i).mKey

def cost (i : Nat) : Int := (m.heap i).mCost

def priority (i : Nat) : Int := (m.heap i).mPriority

def owner (i : Nat) : Int := (m.heap i).mOwnerId

def costOf (clients : List Nat) : Int :=
  (clients.map m.cost).sum

def getCurrentCostLocked : Int := m.costOf m.mClients

/- The most recent of the owners tied for the highest priority, with that priority. -/
def highest (client : Nat) (clients : List Nat) : Int × Int :=
  clients.foldl
    (fun h i =>
      if h.1 ≤ m.priority i then (m.priority i, m.owner i)
      else h)
    (m.priority client, m.owner client)

/- The incoming client is the most recent of all: with the highest priority it goes first. -/
def highestPriorityOwner (client : Nat) : Int :=
  if (m.highest client m.mClients).1 = m.priority client then m.owner client
  else (m.highest client m.mClients).2

def conflicting (client i : Nat) : Bool :=
  decide (m.key i = m.key client) || (m.heap i).isConflicting (m.key client) ||
    (m.heap client).isConflicting (m.key i)

/-
  A client that may go for its cost: it has one, its priority is not higher, and its owner is not
  the incoming client's while that has the highest priority.
-/
def evictable (client i : Nat) : Bool :=
  decide (0 < m.cost i) &&
    decide (m.priority i ≤ m.priority client) &&
    ! (decide (m.highestPriorityOwner client = m.owner client) &&
        decide (m.owner client = m.owner i))

/-
  Build the eviction list. `none` stands for the return of the incoming client, when one with a
  higher priority conflicts with it.
-/
def findEvicted (client : Nat) : List Nat → Int → List Nat → Option (List Nat × Int)
| [], totalCost, evictList => some (evictList, totalCost)
| i :: rest, totalCost, evictList =>
  if m.conflicting client i = true ∧ m.priority client < m.priority i then none
  else if m.conflicting client i = true ∨ m.mMaxCost < totalCost ∧ m.evictable client i = true then
    findEvicted client rest (totalCost - m.cost i) (evictList ++ [i])
  else findEvicted client rest totalCost evictList

/- The cost with the incoming client. -/
def totalCost (client : Nat) : Int :=
  m.getCurrentCostLocked + m.cost client

/-
  The clients to evict, the incoming one if it is refused, or the clients that prevent it from being
  added.
-/
def wouldEvictLocked (client : Nat) (returnIncompatibleClients : Bool) : List Nat :=
  if returnIncompatibleClients then
    m.mClients.filter (fun i =>
      decide (m.priority client < m.priority i) &&
        (m.conflicting client i ||
          decide (m.mMaxCost < m.totalCost client) &&
            decide (0 < m.cost i)))
  else
    match m.findEvicted client m.mClients (m.totalCost client) []
    with
    | none => [client]
    | some (evictList, totalCost) =>
      if m.mMaxCost < totalCost ∧ m.highestPriorityOwner client ≠ m.owner client then [client]
      else evictList

/- A null client is returned. -/
def wouldEvict : Option Nat → List (Option Nat)
| none => [none]
| some client => (m.wouldEvictLocked client false).map some

def getIncompatibleClients : Option Nat → List (Option Nat)
| none => [none]
| some client => (m.wouldEvictLocked client true).map some

end Manager

--
-- Updates
--

variable {κ : Type*} [DecidableEq κ]

namespace Manager

variable (m : Manager κ)

/-
  The predicate of `remove_if`, on each client in turn, with the evicted clients from `iter` on.
  Once `iter` is at the end, the next client dereferences it: `none`.
-/
def removeEvicted : List Nat → List Nat → Option (List Nat)
| [], _ => some []
| _ :: _, [] => none
| cur :: clients, e :: iter =>
  if m.key cur = m.key e then removeEvicted clients iter
  else (removeEvicted clients (e :: iter)).map (cur :: ·)

/- Tell the listener, if there is one. -/
def notify (events : List Event) : List Event :=
  if m.mListener then events else []

end Manager

/- What a call of `addAndEvict` leaves, returns and announces. -/
structure Outcome (κ : Type*) where
  manager : Manager κ
  evicted : List (Option Nat)
  events : List Event

/- The priority of a client whose owner is in the map. -/
def updatePriority (ownerPriorityList : Int → Option Int) (heap : Nat → ClientDescriptor κ)
    (i : Nat) : Nat → ClientDescriptor κ :=
  match ownerPriorityList (heap i).mOwnerId with
  | some priority => Function.update heap i ((heap i).setPriority priority)
  | none => heap

namespace Manager

variable (m : Manager κ)

/- Nothing is removed when nothing is evicted. -/
def remaining : List Nat → Option (List Nat)
| [] => some m.mClients
| evicted => m.removeEvicted m.mClients evicted

def addAndEvict : Option Nat → Option (Outcome κ)
| none => some ⟨m, [none], []⟩
| some client =>
  let evicted := m.wouldEvictLocked client false
  if evicted.head? = some client then some ⟨m, evicted.map some, []⟩
  else
    (m.remaining evicted).map (fun clients =>
      { manager := { m with mClients := clients ++ [client] }
        evicted := evicted.map some
        -- only the first evicted client is announced
        events := m.notify (evicted.head?.toList.map .onClientRemoved ++ [.onClientAdded client]) })

def updatePriorities (ownerPriorityList : Int → Option Int) : Manager κ :=
  { m with
    heap := m.mClients.foldl (updatePriority ownerPriorityList) m.heap }

def removeAll : Manager κ × List Event :=
  ({ m with mClients := [] },
    m.notify (m.mClients.map .onClientRemoved))

/- Remove the client with a key, and return it. -/
def removeKey (key : κ) : Manager κ × Option Nat × List Event :=
  let removed := m.mClients.filter (fun i => m.key i = key)
  ({ m with
      mClients := m.mClients.filter (fun i => m.key i ≠ key) },
    removed.getLast?, m.notify (removed.map .onClientRemoved))

def remove (value : Option Nat) : Manager κ × List Event :=
  let removed := m.mClients.filter (fun i => some i = value)
  ({ m with
      mClients := m.mClients.filter (fun i => some i ≠ value) },
    m.notify (removed.map .onClientRemoved))

def setListener (listener : Bool) : Manager κ :=
  { m with mListener := listener }

end Manager

inductive Call (κ : Type*)
| addAndEvict (client : Option Nat)
| updatePriorities (ownerPriorityList : Int → Option Int)
| removeAll
| removeKey (key : κ)
| remove (value : Option Nat)
| setListener (listener : Bool)

namespace Manager

/- `none` stands for a call with no defined behaviour. -/
def step (m : Manager κ) : Call κ → Option (Manager κ)
| .addAndEvict client => (m.addAndEvict client).map (·.manager)
| .updatePriorities ownerPriorityList => some (m.updatePriorities ownerPriorityList)
| .removeAll => some m.removeAll.1
| .removeKey key => some (m.removeKey key).1
| .remove value => some (m.remove value).1
| .setListener listener => some (m.setListener listener)

end Manager

end ClientManager

end FrameworksAv
