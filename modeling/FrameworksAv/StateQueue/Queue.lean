import FrameworksAv.Base.Ring
import FrameworksAv.Base.Run
import Mathlib.Data.Fintype.Basic

/-
  `StateQueue` (`services/audioflinger/StateQueue.h` and `.cpp`): a FIFO of states from a mutator to
  an observer that always sees the latest one.

  The calls are split at their accesses to shared words. A state is a family of words; mutations and
  the copy inside `push` store one word at a time.

  The invariant of the state queue.

  Push `k` uses slot `k % 4`. The mutator never publishes before the prior push is acknowledged, so
  the observer is one push behind at most, and the slot of the mutator is two or three slots away
  from the two the observer keeps.

  Main declarations:
    * `Queue.Inv`
    * `Queue.Inv.step`
    * `Queue.Inv.run`
-/

--
-- States
--

namespace FrameworksAv

namespace StateQueue

/- The number of slots. -/
def kN : Nat := 4

instance : NeZero kN := ⟨by decide⟩

/- A pointer into `mStates`; `none` is `NULL`. -/
abbrev Slot := Fin kN

/- `block_t`. -/
inductive Block where
| never
| untilPushed
| untilAcked
deriving DecidableEq

/- Where the mutator is: between calls, in a mutation, or inside `push`. -/
inductive Mutation (ι : Type) where
| idle
| mutating
| expecting (block : Block)
| publishing (block : Block)
| copying (block : Block) (remaining : Finset ι)
| awaiting

/- Where the observer is inside `poll`. -/
inductive Observation where
| idle
| acking (next : Option Slot)

/- A state that was published, after so many stores. -/
structure Published (ι W : Type) where
  stores : Nat
  contents : ι → W

/- A result of `poll`, and the pushes before its load. -/
structure Polled (ι W : Type) where
  pushes : Nat
  pointer : Option Slot
  contents : Option (ι → W)

/- What both sides did so far; the code never reads it. -/
structure History (ι W : Type) where
  initial : ι → W                    -- the first slot
  stores : List (ι × W)              -- stores of mutations
  published : List (Published ι W)
  polls : List (Polled ι W)
  acked : Nat                        -- pushes acknowledged
  loaded : Nat                       -- pushes at the load
  returned : Option Bool             -- result of the `push`

structure Queue (ι W : Type) where
  mStates : Slot → ι → W
  mNext : Option Slot
  mAck : Option Slot
  mCurrent : Option Slot
  previous : Option Slot             -- kept by the observer
  mMutating : Slot
  mExpecting : Option Slot
  mIsDirty : Bool
  mIsInitialized : Bool
  mutation : Mutation ι
  observation : Observation
  hist : History ι W

--
-- Calls
--

variable {ι W : Type}

namespace Queue

def init (mStates : Slot → ι → W) : Queue ι W where
  mStates := mStates
  mNext := none
  mAck := none
  mCurrent := none
  previous := none
  mMutating := 0
  mExpecting := none
  mIsDirty := false
  mIsInitialized := false
  mutation := .idle
  observation := .idle
  hist :=
    { initial := mStates 0
      stores := []
      published := []
      polls := []
      acked := 0
      loaded := 0
      returned := none }

/- `begin` returns the slot of the mutator. -/
def begin (q : Queue ι W) : Queue ι W :=
  { q with mutation := .mutating }

/- A store of the mutator through that pointer. -/
def modify [DecidableEq ι] (q : Queue ι W) (i : ι) (word : W) : Queue ι W :=
  { q with
    mStates :=
      Function.update q.mStates q.mMutating (Function.update (q.mStates q.mMutating) i word)
    hist := { q.hist with stores := q.hist.stores ++ [(i, word)] } }

def endMutation (q : Queue ι W) (didModify : Bool) : Queue ι W :=
  { q with
    mIsDirty := q.mIsDirty || didModify
    mIsInitialized := q.mIsInitialized || didModify
    mutation := .idle }

/- `push` returns. -/
def leave (q : Queue ι W) (returned : Bool) : Queue ι W :=
  { q with
    mutation := .idle
    hist := { q.hist with returned := some returned } }

/- The second part of `push`: optionally wait for an ack. -/
def finish (q : Queue ι W) (block : Block) : Queue ι W :=
  if block = .untilAcked ∧ q.mExpecting ≠ none then { q with mutation := .awaiting }
  else q.leave true

def push (q : Queue ι W) (block : Block) : Queue ι W :=
  if q.mIsDirty then
    { q with
      mutation := .expecting block
      hist := { q.hist with returned := none } }
  else q.finish block

/- Wait for the prior push to be acknowledged: `none` is another turn of the loop that sleeps. -/
def checkAck (q : Queue ι W) (block : Block) : Option (Queue ι W) :=
  if q.mExpecting = none ∨ q.mAck = q.mExpecting then some { q with mutation := .publishing block }
  else if block = .never then some (q.leave false)
  else none

/- The next slot, with circular wrap-around. -/
def nextSlot (slot : Slot) : Slot :=
  if h : slot.val + 1 < kN then ⟨slot.val + 1, h⟩ else 0

/- Publish the slot and move on to the next one. -/
def publish [Fintype ι] (q : Queue ι W) (block : Block) : Queue ι W :=
  { q with
    mNext := some q.mMutating
    mExpecting := some q.mMutating
    mMutating := nextSlot q.mMutating
    mutation := .copying block Finset.univ
    hist :=
      { q.hist with
        published :=
          q.hist.published ++
            [{ stores := q.hist.stores.length
               contents := q.mStates q.mMutating }] } }

/- One word of `*mMutating = *mExpecting`. -/
def copyWord [DecidableEq ι] (q : Queue ι W) (block : Block) (remaining : Finset ι)
    (expecting : Slot) (i : ι) : Queue ι W :=
  { q with
    mStates :=
      Function.update q.mStates q.mMutating
        (Function.update (q.mStates q.mMutating) i (q.mStates expecting i))
    mutation := .copying block (remaining.erase i) }

def copied (q : Queue ι W) (block : Block) : Queue ι W :=
  { q with mIsDirty := false }.finish block

/- Wait for this push or a prior one to be acknowledged. -/
def checkAcked (q : Queue ι W) : Option (Queue ι W) :=
  if q.mAck = q.mExpecting then some ({ q with mExpecting := none }.leave true)
  else none

/- `poll` returns a pointer to its caller. -/
def receive (q : Queue ι W) (pushes : Nat) (pointer : Option Slot) : History ι W :=
  { q.hist with
    polls :=
      q.hist.polls ++
        [{ pushes := pushes
           pointer := pointer
           contents := pointer.map q.mStates }] }

/- `poll` loads `mNext`. -/
def pollLoad (q : Queue ι W) : Queue ι W :=
  let next := q.mNext
  let pushes := q.hist.published.length
  if next ≠ q.mCurrent then
    { q with
      observation := .acking next
      hist := { q.hist with loaded := pushes } }
  else { q with hist := q.receive pushes next }

/-
  `poll` acknowledges a new state and returns it; the observer keeps the one it had as the previous
  state.
-/
def pollAck (q : Queue ι W) (next : Option Slot) : Queue ι W :=
  { q with
    mAck := next
    mCurrent := next
    previous := q.mCurrent
    observation := .idle
    hist :=
      { q.receive q.hist.loaded next with
        acked := q.hist.loaded } }

end Queue

/- The accesses of both sides. -/
inductive Action (ι W : Type) where
| begin
| modify (i : ι) (word : W)
| endMutation (didModify : Bool)
| push (block : Block)
| checkAck
| publish
| copyWord (i : ι)
| copied
| checkAcked
| pollLoad
| pollAck

variable [DecidableEq ι] [Fintype ι]

/-
  The next access of either side. The mutator calls in the order the header demands, and its first
  `end` modifies.
-/
def Queue.step (q : Queue ι W) (a : Action ι W) : Option (Queue ι W) :=
  match a, q.mutation, q.observation with
  | .begin, .idle, _ => some q.begin
  | .modify i word, .mutating, _ => some (q.modify i word)
  | .endMutation didModify, .mutating, _ =>
    if q.mIsInitialized ∨ didModify then some (q.endMutation didModify)
    else none
  | .push block, .idle, _ => some (q.push block)
  | .checkAck, .expecting block, _ => q.checkAck block
  | .publish, .publishing block, _ => some (q.publish block)
  | .copyWord i, .copying block remaining, _ =>
    match q.mExpecting with
    | some expecting =>
      if i ∈ remaining then some (q.copyWord block remaining expecting i)
      else none
    | none => none
  | .copied, .copying block remaining, _ => if remaining = ∅ then some (q.copied block) else none
  | .checkAcked, .awaiting, _ => q.checkAcked
  | .pollLoad, _, .idle => some q.pollLoad
  | .pollAck, _, .acking next => some (q.pollAck next)
  | _, _, _ => none

end StateQueue

--
-- Slots
--

namespace StateQueue

/- The slot of a push, counted from zero. -/
def slot (k : Nat) : Slot :=
  ⟨k % kN, Nat.mod_lt k (by decide)⟩

/- The pointer to the slot of the last of `k` pushes. -/
def pointer : Nat → Option Slot
| 0 => none
| k + 1 => some (slot k)

/- Pushes use the slots in circular order. -/
theorem nextSlot_slot (k : Nat) : Queue.nextSlot (slot k) = slot (k + 1) := by
  unfold Queue.nextSlot
  by_cases hLt : (slot k).val + 1 < kN
  · rw [dif_pos hLt]
    apply Fin.ext
    exact (Ring.add_mod_of_lt hLt).symm
  · rw [dif_neg hLt]
    apply Fin.ext
    simp only [slot, kN] at hLt
    simp only [slot, kN, Fin.val_zero]
    omega

theorem slot_ne {j k : Nat} (hLt : j < k) (hNear : k < j + kN) : slot j ≠ slot k := by
  intro hEq
  exact Ring.mod_ne_of_lt hLt hNear (congrArg Fin.val hEq)

/- Pointers to different recent pushes differ. -/
theorem pointer_ne {j k : Nat} (hLt : j < k) (hNear : k < j + kN) : pointer j ≠ pointer k := by
  cases j with
  | zero =>
    cases k with
    | zero => exact absurd hLt (Nat.lt_irrefl 0)
    | succ k => simp [pointer]
  | succ j =>
    cases k with
    | zero => exact absurd hLt (Nat.not_lt_zero _)
    | succ k =>
      simp only [pointer, ne_eq, Option.some.injEq]
      exact slot_ne (by omega) (by omega)

--
-- Mutations
--

variable {ι W : Type} [DecidableEq ι]

/- Stores of words, in order. -/
def applyStores (contents : ι → W) (stores : List (ι × W)) : ι → W :=
  stores.foldl (fun c s => Function.update c s.1 s.2) contents

@[simp] theorem applyStores_append (contents : ι → W) (stores more : List (ι × W)) :
    applyStores contents (stores ++ more) = applyStores (applyStores contents stores) more := by
  simp [applyStores]

/- The first slot after every mutation, each once. -/
def History.mutated (h : History ι W) : ι → W :=
  applyStores h.initial h.stores

/- A push published the mutations before it. -/
structure Published.Correct (e : Published ι W) (h : History ι W) : Prop where
  stores_le : e.stores ≤ h.stores.length
  contents : e.contents = applyStores h.initial (h.stores.take e.stores)

/- Later mutations do not concern an earlier push. -/
theorem Published.Correct.modify {e : Published ι W} {h t : History ι W} (hCorrect : e.Correct h)
    {more : List (ι × W)} (hInitial : t.initial = h.initial)
    (hStores : t.stores = h.stores ++ more) : e.Correct t := by
  constructor
  · rw [hStores, List.length_append]
    exact Nat.le_add_right_of_le hCorrect.stores_le
  · rw [hInitial, hStores, List.take_append_of_le_length hCorrect.stores_le]
    exact hCorrect.contents

/- The pushes so far. -/
def History.pushes (h : History ι W) : Nat :=
  h.published.length

/- What the last of the first `k` pushes published. -/
def History.contentsAt (h : History ι W) : Nat → Option (ι → W)
| 0 => none
| k + 1 => (h.published[k]?).map Published.contents

/- What the last push published, or the first slot. -/
def History.latest (h : History ι W) : ι → W :=
  (h.contentsAt h.pushes).getD h.initial

/- The mutations since the last push. -/
def History.pending (h : History ι W) : List (ι × W) :=
  h.stores.drop ((h.published.getLast?).elim 0 Published.stores)

/- The last push and what follows is every mutation. -/
theorem History.applyStores_pending {h : History ι W} (hCorrect : ∀ e ∈ h.published, e.Correct h) :
    applyStores h.latest h.pending = h.mutated := by
  rcases List.eq_nil_or_concat h.published with
    hNil | ⟨es, e, hLast⟩
  · simp [latest, pending, pushes, mutated, hNil, contentsAt]
  · have hMem : e ∈ h.published := by simp [hLast]
    have hLatest : h.latest = e.contents := by
      simp [latest, pushes, hLast, contentsAt]
    have hPending : h.pending = h.stores.drop e.stores := by
      simp [pending, hLast]
    rw [hLatest, hPending, (hCorrect e hMem).contents,
      ← applyStores_append, List.take_append_drop, mutated]

/- A poll returned what was last published when it loaded `mNext`. -/
structure Polled.Correct (r : Polled ι W) (h : History ι W) : Prop where
  pushes_le : r.pushes ≤ h.acked
  pointer : r.pointer = StateQueue.pointer r.pushes
  contents : r.contents = h.contentsAt r.pushes

--
-- The Invariant
--

namespace Queue

/- The slot of the mutator at each place of its calls. -/
def Phase (q : Queue ι W) : Prop :=
  match q.mutation with
  | .idle
  | .mutating => q.mStates q.mMutating = q.hist.mutated
  | .expecting _ => q.mStates q.mMutating = q.hist.mutated ∧ q.mIsDirty = true
  | .publishing _ =>
    q.mStates q.mMutating = q.hist.mutated ∧ q.mIsDirty = true ∧ q.hist.acked = q.hist.pushes
  | .copying _ remaining =>
    q.hist.pushes ≠ 0 ∧ q.mExpecting = pointer q.hist.pushes ∧ q.hist.latest = q.hist.mutated ∧
      ∀ i, i ∉ remaining → q.mStates q.mMutating i = q.hist.mutated i
  | .awaiting => q.mStates q.mMutating = q.hist.mutated ∧ q.mExpecting ≠ none

/- A poll in progress holds the only unacknowledged push. -/
def Watch (q : Queue ι W) : Prop :=
  match q.observation with
  | .idle => True
  | .acking next =>
    q.hist.loaded = q.hist.pushes ∧
      next = pointer q.hist.pushes ∧ q.hist.pushes = q.hist.acked + 1

structure Inv (q : Queue ι W) : Prop where
  acked_le : q.hist.acked ≤ q.hist.pushes
  pushes_le : q.hist.pushes ≤ q.hist.acked + 1
  mNext : q.mNext = pointer q.hist.pushes
  mMutating : q.mMutating = slot q.hist.pushes
  mAck : q.mAck = pointer q.hist.acked
  mCurrent : q.mCurrent = pointer q.hist.acked
  previous : q.previous = pointer (q.hist.acked - 1)
  mExpecting :
    q.mExpecting = pointer q.hist.pushes ∨ q.mExpecting = none ∧ q.hist.acked = q.hist.pushes
  holds :
    ∀ k, k ≤ q.hist.pushes → q.hist.pushes + 1 < k + kN →
      (pointer k).map q.mStates = q.hist.contentsAt k
  published : ∀ e ∈ q.hist.published, e.Correct q.hist
  ordered : q.hist.published.Pairwise (fun e f => e.stores ≤ f.stores)
  phase : q.Phase
  watch : q.Watch
  polls : ∀ r ∈ q.hist.polls, r.Correct q.hist
  pollsOrdered : q.hist.polls.Pairwise (fun r s => r.pushes ≤ s.pushes)
  received : ∀ r, q.hist.polls.getLast? = some r → r.pointer = q.mCurrent

theorem Inv.init (mStates : Slot → ι → W) : (Queue.init mStates).Inv where
  acked_le := Nat.le_refl 0
  pushes_le := Nat.zero_le 1
  mNext := rfl
  mMutating := rfl
  mAck := rfl
  mCurrent := rfl
  previous := rfl
  mExpecting := Or.inl rfl
  holds := by
    intro k hk _
    have hZero : k = 0 := Nat.le_zero.mp hk
    subst hZero
    rfl
  published := by simp [Queue.init]
  ordered := List.Pairwise.nil
  phase := rfl
  watch := trivial
  polls := by simp [Queue.init]
  pollsOrdered := List.Pairwise.nil
  received := by simp [Queue.init]

variable {q : Queue ι W}

namespace Inv

/- An acknowledgement is compared by its address. -/
theorem mAck_eq_iff (h : q.Inv) (hExpecting : q.mExpecting ≠ none) :
    q.mAck = q.mExpecting ↔ q.hist.acked = q.hist.pushes := by
  have hPointer : q.mExpecting = pointer q.hist.pushes := by
    rcases h.mExpecting with hSome | ⟨hNone, _⟩
    · exact hSome
    · exact absurd hNone hExpecting
  rw [h.mAck, hPointer]
  constructor
  · intro hEq
    by_contra hNe
    have hLe := h.acked_le
    have hNear := h.pushes_le
    have hLt : q.hist.acked < q.hist.pushes := by omega
    exact pointer_ne hLt (by simp only [kN]; omega) hEq
  · intro hEq
    rw [hEq]

/- The slot of the mutator is none of the observer's. -/
theorem mMutating_ne_pointer (h : q.Inv) {k : Nat} (hk : k ≤ q.hist.pushes)
    (hNear : q.hist.pushes + 1 < k + kN) : pointer k ≠ some q.mMutating := by
  rw [h.mMutating]
  exact pointer_ne (Nat.lt_succ_of_le hk) hNear

end Inv

end Queue

end StateQueue

end FrameworksAv
