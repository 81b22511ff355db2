import FrameworksAv.Base.Counter
import FrameworksAv.Base.Run
import Mathlib.Data.Fintype.Card

/-
  `SingleStateQueue` (`include/media/SingleStateQueue.h`): a single-writer, single-reader,
  multi-word atomic value.

  The first part states what each call does while the other side is idle. The second part splits the
  calls at their loads and stores; a value of type `T` is a family of words and is copied one word
  at a time, in any order.

  Key definitions include:
    * `Shared`, `Mutator`, `Observer`
    * `Mutator.push`, `Mutator.ack`
    * `Observer.poll`, `Observer.done`
    * `Queue`, `Access`, `Queue.step`
-/

--
-- Calls Without Interference
--

namespace FrameworksAv

namespace SingleStateQueue

/- `SSQ_STATUS`. -/
inductive Status where
| pending
| read
| done
deriving DecidableEq

structure Shared (T : Type) where
  mAck : Word
  mSequence : Word
  mValue : T

structure Mutator where
  mSequence : Word

structure Observer where
  mSequence : Word

/- `Shared::init`; the value is whatever the memory holds. -/
def Shared.init {T : Type} (mValue : T) : Shared T :=
  ⟨0, 0, mValue⟩

namespace Mutator

variable {T : Type}

/- Push a new value, overwriting the previous one. -/
def push (shared : Shared T) (m : Mutator) (value : T) : Shared T × Mutator × Word :=
  let sequence := m.mSequence + 1
  let shared := { shared with mSequence := sequence, mValue := value }
  let sequence := sequence + 1
  ({ shared with mSequence := sequence }, ⟨sequence⟩, sequence)

/- The status of the last push. -/
def ack (shared : Shared T) (m : Mutator) : Status :=
  let ack := shared.mAck
  if (ack - m.mSequence) &&& ~~~1 ≠ 0 then .pending
  else if ack &&& 1 ≠ 0 then .done
  else .read

/- Was a push with this number, or a later one, observed? -/
def ackSequence (shared : Shared T) (sequence : Word) : Bool :=
  0 ≤ (shared.mAck - sequence).toInt

end Mutator

/- `MAX_TRIES` of `Observer::poll`. -/
def maxTries : Nat := 5

namespace Observer

variable {T : Type}

/- A new value, if there is one. -/
def poll (shared : Shared T) (o : Observer) : Shared T × Observer × Option T :=
  let before := shared.mSequence
  if before = o.mSequence then (shared, o, none)
  else if before &&& 1 ≠ 0 then
    -- without a mutator the sequence stays odd
    (shared, o, none)
  else
    ({ shared with mAck := before }, ⟨before⟩,
      some shared.mValue)

/- The polled value has also been acted upon. -/
def done (shared : Shared T) : Shared T :=
  { shared with mAck := shared.mAck + 1 }

end Observer

--
-- Loads And Stores
--

variable {ι W : Type}

/- Where the mutator is inside `push`. -/
inductive Writer (ι W : Type) where
| idle
| copying (value : ι → W) (remaining : Finset ι)

/- Where the observer is inside `poll`. -/
inductive Reader (ι W : Type) where
| idle
| reload (tries : Nat)
| copying (before : Word) (tries : Nat) (temp : ι → W) (remaining : Finset ι)
| acking (before : Word) (temp : ι → W)

/- The observer is inside `poll`. -/
def Reader.busy : Reader ι W → Bool
| .idle => false
| .reload _ | .copying _ _ _ _ | .acking _ _ => true

/- What the two sides did so far; the code never reads it. -/
structure History (ι W : Type) where
  pushes : List (ι → W)      -- values of all pushes begun
  completed : Nat            -- number of completed pushes
  polled : Nat               -- number of the push polled last
  dones : Nat                -- calls of `done` since then
  results : List (Nat × (ι → W))  -- all successful polls
  pollStart : Nat            -- pushes completed at its start
  seen : Nat                 -- sequence position loaded last
  rounds : Nat               -- rounds of the current poll
  accesses : Nat             -- accesses of the current poll

/- `value` is the variable the observer passes to `poll`. -/
structure Queue (ι W : Type) where
  shared : Shared (ι → W)
  value : ι → W
  mutator : Mutator
  observer : Observer
  writer : Writer ι W
  reader : Reader ι W
  hist : History ι W

/- One load or store of one side. -/
inductive Access (ι W : Type) where
| pushBegin (value : ι → W)
| pushWord (i : ι)
| pushEnd
| pollLoad
| pollReload
| pollWord (i : ι)
| pollAfter
| pollAck
| done

namespace Queue

def init (mValue value : ι → W) : Queue ι W where
  shared := Shared.init mValue
  value := value
  mutator := ⟨0⟩
  observer := ⟨0⟩
  writer := .idle
  reader := .idle
  hist :=
    { pushes := []
      completed := 0
      polled := 0
      dones := 0
      results := []
      pollStart := 0
      seen := 0
      rounds := 0
      accesses := 0 }

/- The sequence without wrap-around: odd during a push. -/
def position (q : Queue ι W) : Nat :=
  match q.writer with
  | .idle => 2 * q.hist.completed
  | .copying _ _ => 2 * q.hist.completed + 1

/- One more access of the current poll. -/
def tick (q : Queue ι W) : History ι W :=
  { q.hist with accesses := q.hist.accesses + 1 }

/- The history once `before` was loaded for a new round. -/
def nextRound (q : Queue ι W) : History ι W :=
  { q.tick with
    seen := q.position
    rounds := q.hist.rounds + 1 }

/-
  The head of the loop of `poll`: an odd sequence costs a try, an even one starts a copy. Words of
  `temp` that are not copied yet are arbitrary, here the caller's old ones.
-/
def round [Fintype ι] (before : Word) (tries : Nat) (temp : ι → W) : Reader ι W :=
  if before &&& 1 ≠ 0 then if tries + 1 ≥ maxTries then .idle else .reload (tries + 1)
  else .copying before tries temp Finset.univ

variable [DecidableEq ι] [Fintype ι]

def pushBegin (q : Queue ι W) (value : ι → W) : Queue ι W :=
  { q with
    shared := { q.shared with mSequence := q.mutator.mSequence + 1 }
    writer := .copying value Finset.univ
    hist := { q.hist with pushes := q.hist.pushes ++ [value] } }

def pushWord (q : Queue ι W) (value : ι → W) (remaining : Finset ι) (i : ι) : Queue ι W :=
  { q with
    shared :=
      { q.shared with
        mValue := Function.update q.shared.mValue i (value i) }
    writer := .copying value (remaining.erase i) }

def pushEnd (q : Queue ι W) : Queue ι W :=
  let sequence := q.mutator.mSequence + 1 + 1
  { q with
    shared := { q.shared with mSequence := sequence }
    mutator := ⟨sequence⟩
    writer := .idle
    hist := { q.hist with completed := q.hist.completed + 1 } }

/- The first load; equal sequences return false. -/
def pollLoad (q : Queue ι W) : Queue ι W :=
  let before := q.shared.mSequence
  let hist :=
    { q.hist with
      pollStart := q.hist.completed
      seen := q.position
      rounds := 0
      accesses := 1 }
  if before = q.observer.mSequence then { q with hist := hist }
  else
    { q with
      reader := round before 0 q.value
      hist := { hist with rounds := 1 } }

/- Loading an odd sequence again. -/
def pollReload (q : Queue ι W) (tries : Nat) : Queue ι W :=
  { q with
    reader := round q.shared.mSequence tries q.value
    hist := q.nextRound }

def pollWord (q : Queue ι W) (before : Word) (tries : Nat) (temp : ι → W) (remaining : Finset ι)
    (i : ι) : Queue ι W :=
  { q with
    reader := .copying before tries (Function.update temp i (q.shared.mValue i)) (remaining.erase i)
    hist := q.tick }

/- The load of `after` decides whether the copy is good. -/
def pollAfter (q : Queue ι W) (before : Word) (tries : Nat) (temp : ι → W) : Queue ι W :=
  let after := q.shared.mSequence
  if after = before then { q with reader := .acking before temp, hist := q.tick }
  else if tries + 1 ≥ maxTries then { q with reader := .idle, hist := q.tick }
  else
    { q with
      reader := round after (tries + 1) q.value
      hist := q.nextRound }

/- A successful poll returns `temp`. -/
def pollAck (q : Queue ι W) (before : Word) (temp : ι → W) : Queue ι W :=
  let number := q.hist.seen / 2
  { q with
    shared := { q.shared with mAck := before }
    value := temp
    observer := ⟨before⟩
    reader := .idle
    hist :=
      { q.tick with
        polled := number
        dones := 0
        results := q.hist.results ++ [(number, temp)] } }

def done (q : Queue ι W) : Queue ι W :=
  { q with
    shared := Observer.done q.shared
    hist := { q.hist with dones := q.hist.dones + 1 } }

/- The next access of either side, in its program order. -/
def step (q : Queue ι W) (a : Access ι W) : Option (Queue ι W) :=
  match a, q.writer, q.reader with
  | .pushBegin value, .idle, _ => some (q.pushBegin value)
  | .pushWord i, .copying value remaining, _ =>
    if i ∈ remaining then some (q.pushWord value remaining i)
    else none
  | .pushEnd, .copying _ remaining, _ => if remaining = ∅ then some q.pushEnd else none
  | .pollLoad, _, .idle => some q.pollLoad
  | .pollReload, _, .reload tries => some (q.pollReload tries)
  | .pollWord i, _, .copying before tries temp remaining =>
    if i ∈ remaining then some (q.pollWord before tries temp remaining i)
    else none
  | .pollAfter, _, .copying before tries temp remaining =>
    if remaining = ∅ then some (q.pollAfter before tries temp)
    else none
  | .pollAck, _, .acking before temp => some (q.pollAck before temp)
  | .done, _, .idle => some q.done
  | _, _, _ => none

end Queue

end SingleStateQueue

end FrameworksAv
