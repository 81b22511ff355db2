import FrameworksAv.Camera3.Operations

/-
  The slots of a stream: how many buffers are out, how many may be, and how many threads want one.

  A call of the stream is one change of the slots and one report to the tracker. What a call does
  with the window, with prepared buffers or with buffers for registration shows only in the slots
  before and after it.

  Main declarations:
    * `Slots`, `Report`, `SlotStep`
    * `Sound`
-/

--
-- The abstract machine
--

namespace FrameworksAv

namespace Camera3

structure Slots where
  mState : StreamState
  out : Nat
  max_buffers : Nat
  oldMaxBuffers : Nat
  mStatusId : Int
  mPreparedBufferIdx : Nat
  waiting : Nat
  woken : Nat

def Camera3Stream.slots (s : Camera3Stream) : Slots where
  mState := s.mState
  out := s.mHandoutTotalBufferCount
  max_buffers := s.max_buffers
  oldMaxBuffers := s.oldMaxBuffers
  mStatusId := s.mStatusId
  mPreparedBufferIdx := s.mPreparedBufferIdx
  waiting := s.waiting
  woken := s.woken

inductive Report
| nothing
| added (id : Int)
| removed (id : Int)
| marked (change : StateChange)

def Report.tell : Report → StatusTracker → StatusTracker
| .nothing, t => t
| .added _, t => t.addComponent
| .removed id, t => t.removeComponent id
| .marked change, t => t.markComponent change

def Slots.signal (v : Slots) : Slots :=
  if v.waiting = 0 then v
  else { v with waiting := v.waiting - 1, woken := v.woken + 1 }

/- The states in which a buffer can be taken. -/
def StreamState.gets : StreamState → Prop
| .STATE_ERROR => False
| .STATE_CONSTRUCTED => False
| _ => True

def Slots.removal (v : Slots) : Report :=
  if v.mStatusId ≠ NO_STATUS_ID then .removed v.mStatusId
  else .nothing

/- A buffer is taken, and the first of them is reported. -/
def Slots.activation (v : Slots) : Report :=
  if v.out = 0 ∧ v.mState.marks then .marked ⟨v.mStatusId, .ACTIVE, NO_FENCE⟩
  else .nothing

/- A buffer comes back, and the last of them is reported. -/
def Slots.idling (v : Slots) (fence : Fence) : Report :=
  if v.out = 1 ∧ v.mState.marks then .marked ⟨v.mStatusId, .IDLE, fence⟩
  else .nothing

def Slots.configuring (v : Slots) : Prop :=
  v.mState = .STATE_IN_CONFIG ∨ v.mState = .STATE_IN_RECONFIG

inductive SlotStep : Slots → Action → Report → Slots → Prop
/- Calls that are refused or change nothing here. -/
| same (v a) : (∀ dequeue, a ≠ .resume dequeue) → SlotStep v a .nothing v
| unanswered (v usage query signaled) :
    v.mState = .STATE_CONSTRUCTED ∨ v.mState = .STATE_CONFIGURED →
    SlotStep v (.startConfiguration usage query signaled)
      .nothing { v with oldMaxBuffers := v.max_buffers }
| started (v usage query signaled) : v.mState = .STATE_CONSTRUCTED →
    SlotStep v (.startConfiguration usage query signaled) v.removal
      { v with
        oldMaxBuffers := v.max_buffers
        mStatusId := NO_STATUS_ID
        mState := .STATE_IN_CONFIG }
| restarted (v usage query signaled) : v.mState = .STATE_CONFIGURED → v.out = 0 →
    SlotStep v (.startConfiguration usage query signaled) v.removal
      { v with
        oldMaxBuffers := v.max_buffers
        mStatusId := NO_STATUS_ID
        mState := .STATE_IN_RECONFIG }
| written (v usage max_buffers) : v.configuring →
    SlotStep v (.configure_streams usage max_buffers) .nothing { v with max_buffers := max_buffers }
| kept (v hal reply id) : v.mState = .STATE_IN_RECONFIG → v.oldMaxBuffers = v.max_buffers →
    SlotStep v (.finishConfiguration hal reply) (.added id)
      { v with mStatusId := id, mState := .STATE_CONFIGURED }
| finished (v hal reply id) : v.configuring → v.out = 0 →
    SlotStep v (.finishConfiguration hal reply) (.added id)
      { v with mStatusId := id, mState := .STATE_CONFIGURED }
| failed (v hal reply id) : v.configuring →
    SlotStep v (.finishConfiguration hal reply) (.added id)
      { v with mStatusId := id, mState := .STATE_ERROR }
| cancelled (v) : v.mState = .STATE_IN_CONFIG →
    SlotStep v .cancelConfiguration .nothing
      { v with
        max_buffers := v.oldMaxBuffers
        mState := .STATE_CONSTRUCTED }
| recancelled (v) : v.mState = .STATE_IN_RECONFIG →
    SlotStep v .cancelConfiguration .nothing
      { v with
        max_buffers := v.oldMaxBuffers
        mState := .STATE_CONFIGURED }
| preparing (v maxCount) : v.mState = .STATE_CONFIGURED → v.out = 0 →
    SlotStep v (.startPrepare maxCount) .nothing
      { v with
        mPreparedBufferIdx := 0
        mState := .STATE_PREPARING }
| prepared (v dequeue replies) : v.mState = .STATE_PREPARING →
    SlotStep v (.prepareNextBuffer dequeue replies) .nothing
      { v with
        out := v.out + 1
        mPreparedBufferIdx := v.mPreparedBufferIdx + 1 }
| preparedAll (v dequeue replies) : v.mState = .STATE_PREPARING →
    SlotStep v (.prepareNextBuffer dequeue replies) .nothing
      { v with
        out := v.out - v.mPreparedBufferIdx
        mPreparedBufferIdx := 0
        mState := .STATE_CONFIGURED }
| givenUp (v replies) : v.mState = .STATE_PREPARING →
    SlotStep v (.cancelPrepare replies) .nothing
      { v with
        out := v.out - v.mPreparedBufferIdx
        mPreparedBufferIdx := 0
        mState := .STATE_CONFIGURED }
| tornDown (v reply) : v.mState = .STATE_CONFIGURED → v.out = 0 →
    SlotStep v (.tearDown reply) .nothing { v with mState := .STATE_ERROR }
| waits (v dequeue) : v.mState = .STATE_CONFIGURED →
    SlotStep v (.getBuffer dequeue) .nothing { v with waiting := v.waiting + 1 }
| takes (v dequeue) : v.mState = .STATE_CONFIGURED → v.out ≠ v.max_buffers →
    SlotStep v (.getBuffer dequeue) v.activation { v with out := v.out + 1 }
| leaves (v dequeue) : SlotStep v (.resume dequeue) .nothing { v with woken := v.woken - 1 }
| resumes (v dequeue) : dequeue = .OK → 0 < v.woken → v.mState.gets →
    SlotStep v (.resume dequeue) v.activation { v with woken := v.woken - 1, out := v.out + 1 }
| timesOut (v) : 0 < v.waiting → SlotStep v .timedOut .nothing { v with waiting := v.waiting - 1 }
| refused (v buffer reply) : v.out = 0 → SlotStep v (.returnBuffer buffer reply) .nothing v.signal
| returned (v buffer reply fence) : 0 < v.out →
    SlotStep v (.returnBuffer buffer reply) (v.idling fence)
      (Slots.signal { v with out := v.out - 1 })

--
-- Taking and returning one buffer
--

/- The counts are what was handed out and not returned. -/
structure Counted (s : Camera3Stream) : Prop where
  total : s.handedOut = s.returned + s.mHandoutTotalBufferCount
  output : s.mHandoutOutputBufferCount = s.mHandoutTotalBufferCount

theorem Counted.setState {s : Camera3Stream} (hCounted : Counted s) (mState : StreamState) :
    Counted { s with mState := mState } :=
  ⟨hCounted.total, hCounted.output⟩

theorem getBufferLocked_cases (c : Ctx) (dequeue : Status) :
    (getBufferLocked c dequeue).1 ≠ .OK ∧ (getBufferLocked c dequeue).2 = c ∨
      c.stream.mState.gets ∧ dequeue = .OK ∧
        getBufferLocked c dequeue = (.OK, handoutBufferLocked c) := by
  unfold getBufferLocked getBufferPreconditionCheckLocked
  cases hState : c.stream.mState <;>
    by_cases hDequeue : dequeue = .OK <;>
    simp [StreamState.gets, hDequeue]

@[simp] theorem handoutBufferLocked_slots (c : Ctx) :
    (handoutBufferLocked c).stream.slots = { c.stream.slots with out := c.stream.slots.out + 1 } :=
  rfl

theorem handoutBufferLocked_tracker (c : Ctx) :
    (handoutBufferLocked c).tracker = c.stream.slots.activation.tell c.tracker := by
  unfold Slots.activation
  by_cases hFirst : c.stream.slots.out = 0 ∧ c.stream.slots.mState.marks
  · rw [if_pos hFirst]
    exact if_pos hFirst
  · rw [if_neg hFirst]
    exact if_neg hFirst

theorem handoutBufferLocked_counted {c : Ctx} (hCounted : Counted c.stream) :
    Counted (handoutBufferLocked c).stream := by
  constructor
  · have hTotal := hCounted.total
    simp only [handoutBufferLocked]
    omega
  · have hOutput := hCounted.output
    simp only [handoutBufferLocked]
    omega

theorem returnBufferLocked_cases (c : Ctx) (buffer : StreamBuffer) (reply : ReturnReply) :
    (returnBufferLocked c buffer reply).2 = c ∧
        (c.stream.mState = .STATE_CONSTRUCTED ∨ c.stream.mHandoutTotalBufferCount = 0) ∨
      c.stream.mState ≠ .STATE_CONSTRUCTED ∧ c.stream.mHandoutTotalBufferCount ≠ 0 ∧
        ∃ r, (returnBufferLocked c buffer reply).2 = takeBack c r := by
  unfold returnBufferLocked returnAnyBufferLocked returnBufferPreconditionCheckLocked
  by_cases hState : c.stream.mState = .STATE_CONSTRUCTED
  · simp [hState]
  · by_cases hTotal : c.stream.mHandoutTotalBufferCount = 0
    · simp [hState, hTotal]
    · right
      simp [hState, hTotal]

theorem takeBack_slots {c : Ctx} (hTotal : c.stream.mHandoutTotalBufferCount ≠ 0)
    (r : Fence × Bool) :
    (takeBack c r).stream.slots = { c.stream.slots with out := c.stream.slots.out - 1 } := by
  have hOne : 1 ≤ c.stream.mHandoutTotalBufferCount := Nat.one_le_iff_ne_zero.mpr hTotal
  simp [takeBack, Camera3Stream.slots, sizeSub_of_le hOne]

theorem takeBack_tracker {c : Ctx} (hTotal : c.stream.mHandoutTotalBufferCount ≠ 0)
    (r : Fence × Bool) :
    (takeBack c r).tracker =
      (c.stream.slots.idling (c.stream.mCombinedFence.merge r.1)).tell c.tracker := by
  have hOne : 1 ≤ c.stream.mHandoutTotalBufferCount := Nat.one_le_iff_ne_zero.mpr hTotal
  have hZero :
      c.stream.mHandoutTotalBufferCount - 1 = 0 ↔ c.stream.mHandoutTotalBufferCount = 1 := by
    omega
  simp only [takeBack, sizeSub_of_le hOne, hZero]
  unfold Slots.idling
  by_cases hLast : c.stream.slots.out = 1 ∧ c.stream.slots.mState.marks
  · rw [if_pos hLast]
    exact if_pos hLast
  · rw [if_neg hLast]
    exact if_neg hLast

theorem takeBack_counted {c : Ctx} (hCounted : Counted c.stream)
    (hTotal : c.stream.mHandoutTotalBufferCount ≠ 0) (r : Fence × Bool) :
    Counted (takeBack c r).stream := by
  have hOne : 1 ≤ c.stream.mHandoutTotalBufferCount := Nat.one_le_iff_ne_zero.mpr hTotal
  have hOut := hCounted.output
  constructor
  · have hSum := hCounted.total
    simp only [takeBack, sizeSub_of_le hOne]
    omega
  · simp only [takeBack, hOut]

--
-- Buffers the tracker is not told of
--

/- Only the counts moved: `n` buffers are out, and the tracker was told nothing. -/
structure Silent (c d : Ctx) (n : Nat) : Prop where
  slots : d.stream.slots = { c.stream.slots with out := n }
  counted : Counted d.stream
  tracker : d.tracker = c.tracker

theorem Silent.refl {c : Ctx} (hCounted : Counted c.stream) :
    Silent c c c.stream.mHandoutTotalBufferCount :=
  ⟨rfl, hCounted, rfl⟩

theorem Silent.total {c d : Ctx} {n : Nat} (hSilent : Silent c d n) :
    d.stream.mHandoutTotalBufferCount = n := by
  have hOut := congrArg Slots.out hSilent.slots
  exact hOut

theorem Silent.mState {c d : Ctx} {n : Nat} (hSilent : Silent c d n) :
    d.stream.mState = c.stream.mState := by
  have hState := congrArg Slots.mState hSilent.slots
  exact hState

theorem Silent.trans {c d e : Ctx} {n m : Nat} (hFirst : Silent c d n) (hSecond : Silent d e m) :
    Silent c e m where
  slots := by
    rw [hSecond.slots, hFirst.slots]
  counted := hSecond.counted
  tracker := hSecond.tracker.trans hFirst.tracker

theorem handoutBufferLocked_silent {c : Ctx} (hCounted : Counted c.stream)
    (hMarks : c.stream.mState.marks = false) :
    Silent c (handoutBufferLocked c) (c.stream.mHandoutTotalBufferCount + 1) where
  slots := rfl
  counted := handoutBufferLocked_counted hCounted
  tracker := by
    simp [handoutBufferLocked, hMarks]

theorem returnBufferLocked_silent {c : Ctx} (hCounted : Counted c.stream)
    (hMarks : c.stream.mState.marks = false) (buffer : StreamBuffer) (reply : ReturnReply) :
    Silent c (returnBufferLocked c buffer reply).2 (c.stream.mHandoutTotalBufferCount - 1) := by
  rcases returnBufferLocked_cases c buffer reply with ⟨hSame, hRefused⟩ | ⟨-, hTotal, r, hBack⟩
  · have hZero : c.stream.mHandoutTotalBufferCount = 0 := by
      rcases hRefused with hState | hZero
      · rw [hState] at hMarks
        simp [StreamState.marks] at hMarks
      · exact hZero
    have hRefl := Silent.refl hCounted
    rw [hZero] at hRefl
    rw [hSame, hZero]
    exact hRefl
  · rw [hBack]
    constructor
    · exact takeBack_slots hTotal r
    · exact takeBack_counted hCounted hTotal r
    · simp [takeBack, hMarks]

theorem returnLoop_silent {c : Ctx} (hCounted : Counted c.stream)
    (hMarks : c.stream.mState.marks = false) (replies : Nat → ReturnReply) (n : Nat) :
    Silent c (returnLoop replies n c) (c.stream.mHandoutTotalBufferCount - n) := by
  induction n with
  | zero => exact Silent.refl hCounted
  | succ n ih =>
    have hSame : (returnLoop replies n c).stream.mState.marks = false := by
      rw [ih.mState]
      exact hMarks
    have hNext := returnBufferLocked_silent ih.counted hSame unfilled (replies n)
    rw [ih.total, Nat.sub_sub] at hNext
    exact ih.trans hNext

theorem getLoop_silent {c : Ctx} (hCounted : Counted c.stream)
    (hMarks : c.stream.mState.marks = false) (dequeue : Nat → Status) (i n : Nat) :
    Silent c (getLoop dequeue i n c).2.2
      (c.stream.mHandoutTotalBufferCount + (getLoop dequeue i n c).1) := by
  induction n generalizing c i with
  | zero => exact Silent.refl hCounted
  | succ n ih =>
    rcases getBufferLocked_cases c (dequeue i) with ⟨hError, hSame⟩ | ⟨-, -, hTaken⟩
    · simp only [getLoop, if_pos hError, hSame]
      exact Silent.refl hCounted
    · have hOne := handoutBufferLocked_silent hCounted hMarks
      have hRest :=
        ih hOne.counted
          (by
            rw [hOne.mState]
            exact hMarks)
          (i + 1)
      rw [hOne.total] at hRest
      simp only [getLoop, hTaken, ne_eq, not_true_eq_false, if_false]
      rw [Nat.add_right_comm] at hRest
      exact hOne.trans hRest

/- What is taken for the registration is returned. -/
theorem registerBuffersLocked_silent {c : Ctx} (hCounted : Counted c.stream)
    (hMarks : c.stream.mState.marks = false) (hal : Registration) :
    Silent c (registerBuffersLocked c hal).2 c.stream.mHandoutTotalBufferCount := by
  unfold registerBuffersLocked
  split
  · exact Silent.refl hCounted
  · have hGet := getLoop_silent hCounted hMarks hal.dequeue 0 c.stream.mTotalBufferCount
    have hBack :=
      returnLoop_silent hGet.counted
        (by
          rw [hGet.mState]
          exact hMarks)
        hal.replies (getLoop hal.dequeue 0 c.stream.mTotalBufferCount c).1
    rw [hGet.total, Nat.add_sub_cancel] at hBack
    have hAll := hGet.trans hBack
    constructor
    · exact hAll.slots
    · exact ⟨hAll.counted.total, hAll.counted.output⟩
    · exact hAll.tracker

--
-- Calls as changes of the slots
--

/- Before a stream has a queue nobody has or wants a buffer. -/
def Slots.Quiet (v : Slots) : Prop :=
  v.mState = .STATE_CONSTRUCTED ∨ v.mState = .STATE_IN_CONFIG →
    v.out = 0 ∧ v.waiting = 0 ∧ v.woken = 0

structure Sound (s : Camera3Stream) : Prop where
  counted : Counted s
  quiet : s.slots.Quiet

/- What a call does that is the action `a`. -/
def Changes (c : Ctx) (a : Action) (d : Ctx) : Prop :=
  Counted d.stream ∧
    ∃ report,
      SlotStep c.stream.slots a report d.stream.slots ∧ d.tracker = report.tell c.tracker ∧
        ∀ id, report = .added id → id = c.tracker.mNextComponentId

theorem Changes.same {c : Ctx} (hCounted : Counted c.stream) {a : Action}
    (hOther : ∀ dequeue, a ≠ .resume dequeue) : Changes c a c :=
  ⟨hCounted, .nothing, .same _ a hOther, rfl, nofun⟩

theorem removal_tell (s : Camera3Stream) (t : StatusTracker) :
    s.slots.removal.tell t = stopTracking s t := by
  unfold Slots.removal stopTracking
  by_cases hId : s.slots.mStatusId ≠ NO_STATUS_ID
  · rw [if_pos hId]
    exact (if_pos hId).symm
  · rw [if_neg hId]
    exact (if_neg hId).symm

theorem removal_ne_added (v : Slots) (id : Int) : v.removal ≠ .added id := by
  unfold Slots.removal
  split
  · nofun
  · nofun

theorem activation_ne_added (v : Slots) (id : Int) : v.activation ≠ .added id := by
  unfold Slots.activation
  split
  · nofun
  · nofun

theorem idling_ne_added (v : Slots) (fence : Fence) (id : Int) : v.idling fence ≠ .added id := by
  unfold Slots.idling
  split
  · nofun
  · nofun

theorem noteSettings_counted {s : Camera3Stream} (hCounted : Counted s) (usage : Nat) :
    Counted (noteSettings s usage) :=
  ⟨hCounted.total, hCounted.output⟩

theorem startState_cases {s : Camera3Stream} {signaled : List Nat} {mState : StreamState}
    (hStart : startState s signaled = some mState) :
    s.mState = .STATE_CONSTRUCTED ∧ mState = .STATE_IN_CONFIG ∨
      s.mState = .STATE_CONFIGURED ∧ s.mHandoutTotalBufferCount = 0 ∧
        mState = .STATE_IN_RECONFIG := by
  unfold startState at hStart
  split at hStart
  · rename_i hState
    simp only [Option.some.injEq] at hStart
    exact Or.inl ⟨hState, hStart.symm⟩
  · rename_i hState
    split at hStart
    · contradiction
    · rename_i hNone
      simp only [Option.some.injEq] at hStart
      simp [hasOutstandingBuffersLocked] at hNone
      exact Or.inr ⟨hState, hNone.1, hStart.symm⟩
  · contradiction

theorem startConfiguration_changes {c : Ctx} (hCounted : Counted c.stream) (usage : Nat)
    (query : Status) (signaled : List Nat) :
    Changes c (.startConfiguration usage query signaled)
      (startConfiguration c usage query signaled) := by
  unfold startConfiguration
  cases hStart : startState c.stream signaled with
  | none => exact Changes.same hCounted nofun
  | some mState =>
    by_cases hQuery : query ≠ .OK
    · simp only [if_pos hQuery]
      refine ⟨noteSettings_counted hCounted usage, .nothing,
        .unanswered _ usage query signaled ?_, rfl, nofun⟩
      rcases startState_cases hStart with ⟨hState, -⟩ | ⟨hState, -⟩
      · exact Or.inl hState
      · exact Or.inr hState
    · simp only [if_neg hQuery]
      refine ⟨⟨hCounted.total, hCounted.output⟩, c.stream.slots.removal, ?_,
        (removal_tell c.stream c.tracker).symm, ?_⟩
      · rcases startState_cases hStart with ⟨hState, hNext⟩ | ⟨hState, hZero, hNext⟩
        · rw [hNext]
          exact .started _ usage query signaled hState
        · rw [hNext]
          exact .restarted _ usage query signaled hState hZero
      · intro id hAdded
        exact absurd hAdded (removal_ne_added _ id)

theorem configuring_of_isConfiguring {s : Camera3Stream} (hConfiguring : isConfiguring s) :
    s.mState = .STATE_IN_CONFIG ∨ s.mState = .STATE_IN_RECONFIG := by
  simpa [isConfiguring] using hConfiguring

theorem configure_streams_changes {c : Ctx} (hCounted : Counted c.stream) (usage max_buffers : Nat)
    (hConfiguring : isConfiguring c.stream) :
    Changes c (.configure_streams usage max_buffers) (configure_streams c usage max_buffers) := by
  refine ⟨⟨hCounted.total, hCounted.output⟩, .nothing, .written _ usage max_buffers ?_, rfl, nofun⟩
  exact configuring_of_isConfiguring hConfiguring

/- Only the state and what the slots do not show moved. -/
structure Restated (s t : Camera3Stream) : Prop where
  counted : Counted t
  slots : t.slots = { s.slots with mState := t.mState }

theorem Restated.total {s t : Camera3Stream} (hRestated : Restated s t) :
    t.mHandoutTotalBufferCount = s.mHandoutTotalBufferCount := by
  have hOut := congrArg Slots.out hRestated.slots
  exact hOut

theorem Restated.setState {s t : Camera3Stream} (hRestated : Restated s t) (mState : StreamState) :
    ({ t with mState := mState } : Camera3Stream).slots =
      { s.slots with mState := mState } := by
  have hSlots :
      ({ t with mState := mState } : Camera3Stream).slots =
        { t.slots with mState := mState } :=
    rfl
  rw [hSlots, hRestated.slots]

theorem disconnectLocked_restated {s : Camera3Stream} (hCounted : Counted s) (reply : QueueReply) :
    Restated s (disconnectLocked s reply).2 := by
  unfold disconnectLocked
  split
  · exact ⟨hCounted, rfl⟩
  · split
    · exact ⟨hCounted.setState _, rfl⟩
    · exact ⟨hCounted.setState _, rfl⟩

theorem disconnectLocked_ok {s : Camera3Stream} {reply : QueueReply}
    (hOk : (disconnectLocked s reply).1 = .OK) :
    s.mHandoutTotalBufferCount = 0 ∧
      (s.mState = .STATE_IN_RECONFIG → (disconnectLocked s reply).2.mState = .STATE_IN_CONFIG) := by
  unfold disconnectLocked at hOk ⊢
  split at hOk
  · contradiction
  · rename_i hBase
    rw [if_neg hBase]
    rw [ne_eq, not_not] at hBase
    have hTotal : s.mHandoutTotalBufferCount = 0 := by
      unfold IOStreamBase.disconnectLocked at hBase
      split at hBase
      · split at hBase
        · contradiction
        · omega
      · split at hBase
        · contradiction
        · omega
      · contradiction
    refine ⟨hTotal, ?_⟩
    intro hState
    split at hOk
    · rename_i hReply
      exact absurd hOk hReply.2
    · rename_i hReply
      rw [if_neg hReply]
      exact if_pos hState

theorem IOStreamBase.configureQueueLocked_restated {s : Camera3Stream} (hCounted : Counted s)
    (reply : QueueReply) : Restated s (IOStreamBase.configureQueueLocked s reply).2 := by
  unfold IOStreamBase.configureQueueLocked
  split
  · exact disconnectLocked_restated hCounted reply
  · exact ⟨hCounted, rfl⟩
  · exact ⟨hCounted, rfl⟩

/- The count that is set to zero is zero. -/
theorem IOStreamBase.configureQueueLocked_ok {s : Camera3Stream}
    (hQuiet : s.mState = .STATE_IN_CONFIG → s.mHandoutTotalBufferCount = 0) {reply : QueueReply}
    (hOk : (IOStreamBase.configureQueueLocked s reply).1 = .OK) :
    s.mHandoutTotalBufferCount = 0 ∧
      (IOStreamBase.configureQueueLocked s reply).2.mState = .STATE_IN_CONFIG := by
  unfold IOStreamBase.configureQueueLocked at hOk ⊢
  split at hOk
  · rename_i hState
    have hDone := disconnectLocked_ok hOk
    exact ⟨hDone.1, hDone.2 hState⟩
  · rename_i hState
    exact ⟨hQuiet hState, hState⟩
  · contradiction

theorem configureQueueLocked_restated {s : Camera3Stream} (hCounted : Counted s)
    (hQuiet : s.mState = .STATE_IN_CONFIG → s.mHandoutTotalBufferCount = 0) (reply : QueueReply) :
    Restated s (configureQueueLocked s reply).2 := by
  have hBase := IOStreamBase.configureQueueLocked_restated hCounted reply
  unfold configureQueueLocked
  by_cases hOk : (IOStreamBase.configureQueueLocked s reply).1 = .OK
  · simp only [hOk, ne_eq, not_true_eq_false, if_false]
    split
    · exact hBase
    · split
      · exact hBase
      · have hZero := (IOStreamBase.configureQueueLocked_ok hQuiet hOk).1
        have hOut := hBase.total.trans hZero
        constructor
        · constructor
          · have hSum := hBase.counted.total
            rw [hOut] at hSum
            exact hSum
          · have hOutput := hBase.counted.output
            rw [hOut] at hOutput
            exact hOutput
        · rw [← hOut]
          exact hBase.slots
  · simp only [ne_eq, hOk, not_false_eq_true, if_true]
    exact hBase

theorem configureQueueLocked_ok {s : Camera3Stream}
    (hQuiet : s.mState = .STATE_IN_CONFIG → s.mHandoutTotalBufferCount = 0) {reply : QueueReply}
    (hOk : (configureQueueLocked s reply).1 = .OK) :
    s.mHandoutTotalBufferCount = 0 ∧
      (configureQueueLocked s reply).2.mState = .STATE_IN_CONFIG := by
  unfold configureQueueLocked at hOk ⊢
  by_cases hBase : (IOStreamBase.configureQueueLocked s reply).1 = .OK
  · have hDone := IOStreamBase.configureQueueLocked_ok hQuiet hBase
    refine ⟨hDone.1, ?_⟩
    simp only [hBase, ne_eq, not_true_eq_false, if_false]
    split
    · exact hDone.2
    · split
      · exact hDone.2
      · exact hDone.2
  · simp only [ne_eq, hBase, not_false_eq_true, if_true] at hOk

/- The state of errors, or a queue that nothing is out of. -/
theorem reallocate_spec {c : Ctx} (hCounted : Counted c.stream)
    (hQuiet : c.stream.mState = .STATE_IN_CONFIG → c.stream.mHandoutTotalBufferCount = 0)
    (hal : Registration) (reply : QueueReply) :
    Counted (reallocate c hal reply).stream ∧ (reallocate c hal reply).tracker = c.tracker ∧
      ((reallocate c hal reply).stream.slots = { c.stream.slots with mState := .STATE_ERROR } ∨
        c.stream.mHandoutTotalBufferCount = 0 ∧
          (reallocate c hal reply).stream.slots =
            { c.stream.slots with
              mState := .STATE_CONFIGURED }) := by
  have hQueue := configureQueueLocked_restated hCounted hQuiet reply
  unfold reallocate
  by_cases hOk : (configureQueueLocked c.stream reply).1 = .OK
  · have hDone := configureQueueLocked_ok hQuiet hOk
    have hMarks : (configureQueueLocked c.stream reply).2.mState.marks = false := by
      rw [hDone.2]
      exact rfl
    have hRegister :=
      registerBuffersLocked_silent
        (c :=
          { c with
            stream := (configureQueueLocked c.stream reply).2 })
        hQueue.counted hMarks hal
    simp only [hOk, ne_eq, not_true_eq_false, if_false]
    refine ⟨hRegister.counted.setState _, hRegister.tracker, ?_⟩
    have hAll :
        Restated c.stream
          (registerBuffersLocked
            { c with
              stream := (configureQueueLocked c.stream reply).2 }
            hal).2.stream := by
      constructor
      · exact hRegister.counted
      · rw [hRegister.slots, hRegister.mState]
        exact hQueue.slots
    by_cases hDevice :
      (registerBuffersLocked
        { c with
          stream := (configureQueueLocked c.stream reply).2 }
        hal).1 = .OK
    · right
      refine ⟨hDone.1, ?_⟩
      simp only [Ctx.settle, hDevice, ne_eq, not_true_eq_false, if_false]
      exact hAll.setState .STATE_CONFIGURED
    · left
      simp only [Ctx.settle, ne_eq, hDevice, not_false_eq_true, if_true]
      exact hAll.setState .STATE_ERROR
  · simp only [ne_eq, hOk, not_false_eq_true, if_true]
    exact ⟨hQueue.counted.setState _, trivial, Or.inl (hQueue.setState .STATE_ERROR)⟩

theorem finishConfiguration_changes {c : Ctx} (hSound : Sound c.stream) (hal : Registration)
    (reply : QueueReply) :
    Changes c (.finishConfiguration hal reply) (finishConfiguration c hal reply) := by
  unfold finishConfiguration
  by_cases hConfiguring : isConfiguring c.stream
  · simp only [hConfiguring, Bool.not_true, Bool.false_eq_true, if_false]
    have hState := configuring_of_isConfiguring hConfiguring
    split
    · rename_i hKept
      refine ⟨⟨hSound.counted.total, hSound.counted.output⟩, _,
        .kept c.stream.slots hal reply c.tracker.mNextComponentId hKept.1 hKept.2.2,
        rfl, ?_⟩
      intro id hAdded
      simp only [Report.added.injEq] at hAdded
      exact hAdded.symm
    · have hSpec :=
        reallocate_spec
          (c :=
            { stream :=
                { c.stream with
                  mStatusId := c.tracker.mNextComponentId
                  mPrepared := false
                  mStreamUnpreparable := false }
              tracker := c.tracker.addComponent })
          ⟨hSound.counted.total, hSound.counted.output⟩
          (fun hConfig => (hSound.quiet (Or.inr hConfig)).1) hal reply
      rcases hSpec with ⟨hCounted, hTracker, hSlots⟩
      refine ⟨hCounted, .added c.tracker.mNextComponentId, ?_, hTracker, ?_⟩
      · rcases hSlots with hError | ⟨hZero, hDone⟩
        · rw [hError]
          exact .failed c.stream.slots hal reply _ hState
        · rw [hDone]
          exact .finished c.stream.slots hal reply _ hState hZero
      · intro id hAdded
        simp only [Report.added.injEq] at hAdded
        exact hAdded.symm
  · simp only [hConfiguring, Bool.not_false, if_true]
    exact Changes.same hSound.counted nofun

theorem cancelConfiguration_changes {c : Ctx} (hCounted : Counted c.stream) :
    Changes c .cancelConfiguration (cancelConfiguration c) := by
  unfold cancelConfiguration
  by_cases hConfiguring : isConfiguring c.stream
  · simp only [hConfiguring, Bool.not_true, Bool.false_eq_true, if_false]
    refine ⟨⟨hCounted.total, hCounted.output⟩, .nothing, ?_, rfl, nofun⟩
    rcases configuring_of_isConfiguring hConfiguring with
      hState | hState
    · rw [hState]
      exact .cancelled c.stream.slots hState
    · rw [hState]
      exact .recancelled c.stream.slots hState
  · simp only [hConfiguring, Bool.not_false, if_true]
    exact Changes.same hCounted nofun

theorem startPrepare_changes {c : Ctx} (hCounted : Counted c.stream) (maxCount : Int) :
    Changes c (.startPrepare maxCount) (startPrepare c maxCount).2 := by
  have hSame : Changes c (.startPrepare maxCount) c := Changes.same hCounted nofun
  simp only [startPrepare]
  split
  · exact hSame
  · split
    · exact hSame
    · rename_i hNot
      have hState : c.stream.mState = .STATE_CONFIGURED := not_not.mp hNot
      split
      · exact hSame
      · split
        · exact hSame
        · rename_i hOut
          have hZero : c.stream.mHandoutTotalBufferCount = 0 := by
            have hOutput := hCounted.output
            omega
          split
          · exact ⟨⟨hCounted.total, hCounted.output⟩, .nothing,
              .same c.stream.slots (.startPrepare maxCount) nofun,
              rfl, nofun⟩
          · exact ⟨⟨hCounted.total, hCounted.output⟩, .nothing,
              .preparing c.stream.slots maxCount hState hZero,
              rfl, nofun⟩

theorem cancelPrepareLocked_spec {c : Ctx} (hCounted : Counted c.stream)
    (hState : c.stream.mState = .STATE_PREPARING) (replies : Nat → ReturnReply) :
    Counted (cancelPrepareLocked c replies).2.stream ∧
      (cancelPrepareLocked c replies).2.tracker = c.tracker ∧
      (cancelPrepareLocked c replies).2.stream.slots =
        { c.stream.slots with
          out := c.stream.slots.out -
            c.stream.slots.mPreparedBufferIdx
          mPreparedBufferIdx := 0
          mState := .STATE_CONFIGURED } := by
  have hMarks : c.stream.mState.marks = false := by
    rw [hState]
    exact rfl
  have hLoop := returnLoop_silent hCounted hMarks replies c.stream.mPreparedBufferIdx
  unfold cancelPrepareLocked
  rw [if_neg (not_not.mpr hState)]
  refine ⟨⟨hLoop.counted.total, hLoop.counted.output⟩, hLoop.tracker, ?_⟩
  have hSlots := hLoop.slots
  simp only [Camera3Stream.slots, Slots.mk.injEq] at hSlots ⊢
  tauto

theorem cancelPrepareLocked_changes {c : Ctx} (hCounted : Counted c.stream)
    (replies : Nat → ReturnReply) :
    Changes c (.cancelPrepare replies) (cancelPrepareLocked c replies).2 := by
  by_cases hState : c.stream.mState = .STATE_PREPARING
  · rcases cancelPrepareLocked_spec hCounted hState replies with ⟨hAfter, hTracker, hSlots⟩
    refine ⟨hAfter, .nothing, ?_, hTracker, nofun⟩
    rw [hSlots]
    exact .givenUp c.stream.slots replies hState
  · unfold cancelPrepareLocked
    rw [if_pos hState]
    exact Changes.same hCounted nofun

theorem prepareNextBuffer_changes {c : Ctx} (hCounted : Counted c.stream) (dequeue : Status)
    (replies : Nat → ReturnReply) :
    Changes c (.prepareNextBuffer dequeue replies) (prepareNextBuffer c dequeue replies).2 := by
  unfold prepareNextBuffer
  by_cases hState : c.stream.mState = .STATE_PREPARING
  · rw [if_neg (not_not.mpr hState)]
    rcases getBufferLocked_cases c dequeue with ⟨hError, hSame⟩ | ⟨-, -, hTaken⟩
    · simp only [if_pos hError, hSame]
      exact Changes.same hCounted nofun
    · have hMarks : c.stream.mState.marks = false := by
        rw [hState]
        exact rfl
      have hOne := handoutBufferLocked_silent hCounted hMarks
      simp only [hTaken, ne_eq, not_true_eq_false, if_false]
      split
      · exact ⟨⟨hOne.counted.total, hOne.counted.output⟩, .nothing,
          .prepared c.stream.slots dequeue replies hState, hOne.tracker, nofun⟩
      · rcases cancelPrepareLocked_spec
          (c :=
            { handoutBufferLocked c with
              stream :=
                { (handoutBufferLocked c).stream with
                  mPreparedBufferIdx := (handoutBufferLocked c).stream.mPreparedBufferIdx + 1
                  mPrepared := true } })
          ⟨hOne.counted.total, hOne.counted.output⟩ hState replies with ⟨hAfter, hTracker, hSlots⟩
        refine ⟨hAfter, .nothing, ?_, hTracker.trans hOne.tracker, nofun⟩
        rw [hSlots]
        have hSub :
            c.stream.slots.out + 1 - (c.stream.slots.mPreparedBufferIdx + 1) =
              c.stream.slots.out - c.stream.slots.mPreparedBufferIdx := by
          omega
        have hStep := SlotStep.preparedAll c.stream.slots dequeue replies hState
        rw [← hSub] at hStep
        exact hStep
  · rw [if_pos hState]
    exact Changes.same hCounted nofun

theorem disconnectLocked_failed {s : Camera3Stream} {reply : QueueReply}
    (hFailed : (disconnectLocked s reply).1 ≠ .OK) :
    (disconnectLocked s reply).2 = s ∨
      (disconnectLocked s reply).2 = { s with mState := .STATE_ERROR } := by
  unfold disconnectLocked at hFailed ⊢
  split at hFailed
  · rename_i hBase
    exact Or.inl (by rw [if_pos hBase])
  · rename_i hBase
    rw [if_neg hBase]
    split at hFailed
    · rename_i hReply
      exact Or.inr (by rw [if_pos hReply])
    · contradiction

/- The stream is reconnected, or in the state of errors. -/
theorem tearDown_changes {c : Ctx} (hCounted : Counted c.stream) (reply : QueueReply) :
    Changes c (.tearDown reply) (tearDown c reply).2 := by
  have hSame : Changes c (.tearDown reply) c := Changes.same hCounted nofun
  have hRestated := disconnectLocked_restated hCounted reply
  unfold tearDown
  split
  · exact hSame
  · rename_i hNot
    have hState : c.stream.mState = .STATE_CONFIGURED := not_not.mp hNot
    split
    · exact hSame
    · rename_i hOut
      have hZero : c.stream.mHandoutTotalBufferCount = 0 := by
        have hOutput := hCounted.output
        omega
      have hTorn :
          SlotStep c.stream.slots (.tearDown reply) .nothing
            { c.stream.slots with mState := .STATE_ERROR } :=
        .tornDown c.stream.slots reply hState hZero
      by_cases hOk : (disconnectLocked c.stream reply).1 = .OK
      · simp only [hOk, ne_eq, not_true_eq_false, if_false]
        have hQueue :=
          configureQueueLocked_restated
            (s :=
              { (disconnectLocked c.stream reply).2 with
                mState := .STATE_IN_CONFIG })
            (hRestated.counted.setState _) (fun _ => hRestated.total.trans hZero) reply
        have hSlots : ∀ mState,
            ({ (configureQueueLocked
                { (disconnectLocked c.stream reply).2 with
                  mState := .STATE_IN_CONFIG }
                reply).2 with
              mState := mState } : Camera3Stream).slots =
              { c.stream.slots with mState := mState } := by
          intro mState
          rw [hQueue.setState mState, hRestated.setState .STATE_IN_CONFIG]
        split
        · refine ⟨hQueue.counted.setState _, .nothing, ?_, rfl, nofun⟩
          rw [hSlots]
          exact hTorn
        · refine ⟨⟨hQueue.counted.total, hQueue.counted.output⟩, .nothing, ?_, rfl, nofun⟩
          have hStay :
              SlotStep c.stream.slots (.tearDown reply) .nothing
                { c.stream.slots with
                  mState := .STATE_CONFIGURED } := by
            rw [← hState]
            exact .same c.stream.slots (.tearDown reply) nofun
          rw [← hSlots .STATE_CONFIGURED] at hStay
          exact hStay
      · simp only [ne_eq, hOk, not_false_eq_true, if_true]
        rcases disconnectLocked_failed hOk with hStay | hError
        · rw [hStay]
          exact hSame
        · rw [hError]
          exact ⟨hCounted.setState _, .nothing, hTorn, rfl, nofun⟩

theorem getBuffer_changes {c : Ctx} (hCounted : Counted c.stream) (dequeue : Status) :
    Changes c (.getBuffer dequeue) (getBuffer c dequeue) := by
  simp only [getBuffer]
  split
  · exact Changes.same hCounted nofun
  · rename_i hNot
    have hState : c.stream.mState = .STATE_CONFIGURED := not_not.mp hNot
    split
    · exact ⟨⟨hCounted.total, hCounted.output⟩, .nothing,
        .waits c.stream.slots dequeue hState, rfl, nofun⟩
    · rename_i hFree
      rcases getBufferLocked_cases c dequeue with ⟨-, hSame⟩ | ⟨-, -, hTaken⟩
      · rw [hSame]
        exact Changes.same hCounted nofun
      · rw [hTaken]
        refine ⟨handoutBufferLocked_counted hCounted, _, .takes c.stream.slots dequeue hState ?_,
          handoutBufferLocked_tracker c, ?_⟩
        · have hOutput := hCounted.output
          rw [hOutput] at hFree
          exact hFree
        · intro id hAdded
          exact absurd hAdded (activation_ne_added _ id)

theorem resume_changes {c : Ctx} (hCounted : Counted c.stream) (hWoken : c.stream.woken ≠ 0)
    (dequeue : Status) : Changes c (.resume dequeue) (resume c dequeue) := by
  unfold resume
  rcases getBufferLocked_cases
      { c with
        stream := { c.stream with woken := c.stream.woken - 1 } }
      dequeue with ⟨-, hSame⟩ | ⟨hGets, hDequeue, hTaken⟩
  · rw [hSame]
    exact ⟨⟨hCounted.total, hCounted.output⟩, .nothing, .leaves c.stream.slots dequeue, rfl, nofun⟩
  · rw [hTaken]
    refine ⟨handoutBufferLocked_counted ⟨hCounted.total, hCounted.output⟩, _,
      .resumes c.stream.slots dequeue hDequeue (Nat.pos_of_ne_zero hWoken) hGets,
      handoutBufferLocked_tracker _, ?_⟩
    intro id hAdded
    exact absurd hAdded (activation_ne_added _ id)

theorem signal_slots (s : Camera3Stream) : (signal s).slots = s.slots.signal := by
  unfold signal Slots.signal
  by_cases hWaiting : s.waiting = 0
  · rw [if_pos hWaiting]
    exact (if_pos hWaiting).symm
  · rw [if_neg hWaiting]
    exact (if_neg hWaiting).symm

theorem signal_counted {s : Camera3Stream} (hCounted : Counted s) : Counted (signal s) := by
  unfold signal
  split
  · exact hCounted
  · exact ⟨hCounted.total, hCounted.output⟩

theorem returnBuffer_changes {c : Ctx} (hSound : Sound c.stream) (buffer : StreamBuffer)
    (reply : ReturnReply) :
    Changes c (.returnBuffer buffer reply) (returnBuffer c buffer reply).2 := by
  unfold returnBuffer
  rcases returnBufferLocked_cases c buffer reply with ⟨hSame, hRefused⟩ | ⟨-, hTotal, r, hBack⟩
  · have hZero : c.stream.mHandoutTotalBufferCount = 0 := by
      rcases hRefused with hState | hZero
      · exact (hSound.quiet (Or.inl hState)).1
      · exact hZero
    simp only [hSame]
    refine ⟨signal_counted hSound.counted, .nothing, ?_, rfl, nofun⟩
    rw [signal_slots]
    exact .refused c.stream.slots buffer reply hZero
  · simp only [hBack]
    refine ⟨signal_counted (takeBack_counted hSound.counted hTotal r), _, ?_,
      takeBack_tracker hTotal r, ?_⟩
    · rw [signal_slots, takeBack_slots hTotal r]
      exact .returned c.stream.slots buffer reply _ (Nat.pos_of_ne_zero hTotal)
    · intro id hAdded
      exact absurd hAdded (idling_ne_added _ _ id)

/- Every call is one change of the slots. -/
theorem step_changes {c d : Ctx} {a : Action} (hSound : Sound c.stream)
    (hStep : step c a = some d) : Changes c a d := by
  have hCounted := hSound.counted
  cases a with
  | startConfiguration usage query signaled =>
    cases hStep
    exact startConfiguration_changes hCounted _ _ _
  | configure_streams usage max_buffers =>
    simp only [step] at hStep
    split at hStep
    · rename_i hConfiguring
      cases hStep
      exact configure_streams_changes hCounted _ _ hConfiguring
    · contradiction
  | finishConfiguration hal reply =>
    cases hStep
    exact finishConfiguration_changes hSound hal reply
  | cancelConfiguration =>
    cases hStep
    exact cancelConfiguration_changes hCounted
  | startPrepare maxCount =>
    cases hStep
    exact startPrepare_changes hCounted maxCount
  | prepareNextBuffer dequeue replies =>
    cases hStep
    exact prepareNextBuffer_changes hCounted dequeue replies
  | cancelPrepare replies =>
    cases hStep
    exact cancelPrepareLocked_changes hCounted replies
  | tearDown reply =>
    cases hStep
    exact tearDown_changes hCounted reply
  | getBuffer dequeue =>
    cases hStep
    exact getBuffer_changes hCounted dequeue
  | resume dequeue =>
    simp only [step] at hStep
    split at hStep
    · contradiction
    · rename_i hWoken
      cases hStep
      exact resume_changes hCounted hWoken dequeue
  | timedOut =>
    simp only [step] at hStep
    split at hStep
    · contradiction
    · rename_i hWaiting
      cases hStep
      exact ⟨⟨hCounted.total, hCounted.output⟩, .nothing,
        .timesOut c.stream.slots (Nat.pos_of_ne_zero hWaiting),
        rfl, nofun⟩
  | returnBuffer buffer reply =>
    cases hStep
    exact returnBuffer_changes hSound buffer reply

@[simp] theorem signal_mState (v : Slots) : v.signal.mState = v.mState := by
  unfold Slots.signal
  split
  · rfl
  · rfl

@[simp] theorem signal_out (v : Slots) : v.signal.out = v.out := by
  unfold Slots.signal
  split
  · rfl
  · rfl

theorem signal_of_not_waiting {v : Slots} (hWaiting : v.waiting = 0) : v.signal = v :=
  if_pos hWaiting

theorem SlotStep.quiet {v w : Slots} {a : Action} {report : Report} (hStep : SlotStep v a report w)
    (hQuiet : v.Quiet) : w.Quiet := by
  unfold Slots.Quiet at hQuiet ⊢
  cases hStep with
  | same | written => exact hQuiet
  | unanswered => exact hQuiet
  | started usage query signaled hState =>
    intro _
    exact hQuiet (Or.inl hState)
  | cancelled hState =>
    intro _
    exact hQuiet (Or.inr hState)
  | restarted | kept | finished | failed | recancelled
  | preparing | preparedAll | givenUp | tornDown => simp
  | prepared dequeue replies hState => simp [hState]
  | waits dequeue hState => simp [hState]
  | takes dequeue hState => simp [hState]
  | leaves dequeue =>
    intro hEarly
    have hNone := hQuiet hEarly
    exact ⟨hNone.1, hNone.2.1, by simp [hNone.2.2]⟩
  | resumes dequeue hDequeue hWoken =>
    intro hEarly
    have hNone := hQuiet hEarly
    omega
  | timesOut hWaiting =>
    intro hEarly
    have hNone := hQuiet hEarly
    omega
  | refused buffer reply hOut =>
    rw [signal_mState]
    intro hEarly
    have hNone := hQuiet hEarly
    rw [signal_of_not_waiting hNone.2.1]
    exact hNone
  | returned buffer reply fence hOut =>
    rw [signal_mState]
    intro hEarly
    have hNone := hQuiet hEarly
    omega

theorem Sound.step {c d : Ctx} {a : Action} (hSound : Sound c.stream) (hStep : step c a = some d) :
    Sound d.stream := by
  rcases step_changes hSound hStep with ⟨hCounted, report, hSlots, -⟩
  exact ⟨hCounted, hSlots.quiet hSound.quiet⟩

theorem construct_sound (valid : Bool) : Sound (Camera3Stream.construct valid) :=
  ⟨⟨rfl, rfl⟩, fun _ => ⟨rfl, rfl, rfl⟩⟩

end Camera3

end FrameworksAv
