import FrameworksAv.Base.Buffer
import FrameworksAv.Base.KeyedVector

/-
  The tracker of idle components (`StatusTracker`).

  A fence is the list of the fences that are merged in it; a check of a fence is made with the
  fences that are signalled by then.

  Besides its fields the tracker keeps what it was told and what it told: the marks of the
  components, the states of the device that the parent was notified of, and the fences that were
  signalled at the last check.

  An output stream (`Camera3Stream`, `Camera3IOStreamBase` and `Camera3OutputStream`) and the
  functions that hand out a buffer and take it back.

  The window behind the stream answers each call with a status, which is given to the functions. The
  buffers are not told apart; the stream counts those it handed out and the returns it accepted, and
  the threads that wait in `getBuffer` and those of them that were signalled and do not have the
  lock yet.

  Main declarations:
    * `StatusTracker`
    * `addComponent`, `removeComponent`, `markComponent`
    * `getBufferLocked`, `returnBufferLocked`
    * `disconnectLocked`, `configureQueueLocked`
-/

namespace FrameworksAv

namespace Camera3

abbrev Fence := List Nat

def Fence.merge (a b : Fence) : Fence := a ++ b

/- The signal time of the fence is not `INT64_MAX`. -/
def Fence.isSignaled (fence : Fence) (signaled : List Nat) : Bool :=
  fence.all fun f => signaled.contains f

def NO_FENCE : Fence := []

inductive ComponentState
| IDLE
| ACTIVE
deriving DecidableEq, Repr

structure StateChange where
  id : Int
  state : ComponentState
  fence : Fence
deriving DecidableEq, Repr

/-
  `seen` are the fences that were signalled at the last check, `marks` are all changes that were
  ever queued, and `notified` are the states given to `notifyStatus`.
-/
structure StatusTracker where
  mPendingChangeQueue : List StateChange
  mComponentsChanged : Bool
  mNextComponentId : Int
  mStates : KeyedVector Int ComponentState
  mIdleFence : Fence
  mDeviceState : ComponentState
  seen : List Nat
  marks : List StateChange
  notified : List ComponentState

def NO_STATUS_ID : Int := -1

namespace StatusTracker

def init : StatusTracker where
  mPendingChangeQueue := []
  mComponentsChanged := false
  mNextComponentId := 0
  mStates := KeyedVector.empty
  mIdleFence := []
  mDeviceState := .IDLE
  seen := []
  marks := []
  notified := []

/- The new component has the number `mNextComponentId`. -/
def addComponent (t : StatusTracker) : StatusTracker :=
  { t with
    mNextComponentId := t.mNextComponentId + 1
    mStates := t.mStates.add t.mNextComponentId .IDLE
    mComponentsChanged := true }

def removeComponent (t : StatusTracker) (id : Int) : StatusTracker :=
  { t with
    mStates := t.mStates.remove id
    mComponentsChanged := if (t.mStates.lookup id).isSome then true
      else t.mComponentsChanged }

def markComponent (t : StatusTracker) (change : StateChange) : StatusTracker :=
  { t with
    mPendingChangeQueue := t.mPendingChangeQueue ++ [change]
    marks := t.marks ++ [change] }

def markComponentIdle (t : StatusTracker) (id : Int) (componentFence : Fence) : StatusTracker :=
  t.markComponent ⟨id, .IDLE, componentFence⟩

def markComponentActive (t : StatusTracker) (id : Int) : StatusTracker :=
  t.markComponent ⟨id, .ACTIVE, NO_FENCE⟩

/- A check of the state of the device. -/
def getDeviceStateLocked (t : StatusTracker) (signaled : List Nat) : ComponentState :=
  if t.mStates.entries.any fun e => e.2 = .ACTIVE then .ACTIVE
  else if t.mIdleFence.isSignaled signaled then .IDLE
  else .ACTIVE

/- A change of a component that is not removed yet. -/
def apply (t : StatusTracker) (change : StateChange) (now : List Nat) : StatusTracker :=
  { t with
    mStates := t.mStates.add change.id change.state
    mIdleFence := t.mIdleFence.merge change.fence
    seen := now }

/- Only changes to the state of the device are collected. -/
def collect (transitions : List ComponentState) (prevState newState : ComponentState) :
    List ComponentState :=
  if newState ≠ prevState then transitions ++ [newState]
  else transitions

/-
  The pending changes, with the state at the last check, the transitions so far, and the fences that
  are signalled when each change is looked at.
-/
def changesLoop (t : StatusTracker) (prevState : ComponentState) (transitions : List ComponentState)
    (signaled : List (List Nat)) :
    List StateChange → StatusTracker × ComponentState × List ComponentState
| [] => (t, prevState, transitions)
| change :: changes =>
  match t.mStates.lookup change.id with
  | none => t.changesLoop prevState transitions signaled.tail changes
  | some _ =>
    let now := signaled.headD []
    let t := t.apply change now
    let newState := t.getDeviceStateLocked now
    t.changesLoop newState (collect transitions prevState newState) signaled.tail changes

/-
  The walk of one turn. The fences that are signalled at the first check and at every change are
  given.
-/
def collectTransitions (t : StatusTracker) (first : List Nat) (signaled : List (List Nat)) :
    StatusTracker × ComponentState × List ComponentState :=
  let prevState := t.getDeviceStateLocked first
  { t with seen := first }.changesLoop prevState
    (collect [] t.mDeviceState prevState) signaled t.mPendingChangeQueue

/- One turn of the thread after its wait, which a change or the time ends. -/
def threadLoop (t : StatusTracker) (first : List Nat)
    (signaled : List (List Nat)) : StatusTracker :=
  let r := t.collectTransitions first signaled
  { r.1 with
    mPendingChangeQueue := []
    mComponentsChanged := false
    mDeviceState := r.2.1
    notified := t.notified ++ r.2.2 }

end StatusTracker

--
-- Streams
--

/- `status_t`; what else the window gives is `other`. -/
inductive Status
| OK
| INVALID_OPERATION
| BAD_VALUE
| NO_INIT
| NOT_ENOUGH_DATA
| DEAD_OBJECT
| ENOTCONN
| other (code : Nat)
deriving DecidableEq, Repr

inductive StreamState
| STATE_ERROR
| STATE_CONSTRUCTED
| STATE_IN_CONFIG
| STATE_IN_RECONFIG
| STATE_CONFIGURED
| STATE_PREPARING
deriving DecidableEq, Repr

def ALLOCATE_PIPELINE_MAX : Nat := 0

/-
  `mPreparedBuffers` is the size of the vector. Of the last four, `waiting` and `woken` count
  threads, `handedOut` the buffers that were ever handed out, and `returned` the returns that were
  accepted.
-/
structure Camera3Stream where
  mState : StreamState
  usage : Nat
  max_buffers : Nat
  oldUsage : Nat
  oldMaxBuffers : Nat
  mStatusId : Int
  mPrepared : Bool
  mStreamUnpreparable : Bool
  mLastMaxCount : Nat
  mPreparedBuffers : Nat
  mPreparedBufferIdx : Nat
  mTotalBufferCount : Nat
  mHandoutTotalBufferCount : Nat
  mHandoutOutputBufferCount : Nat
  mCombinedFence : Fence
  waiting : Nat
  woken : Nat
  handedOut : Nat
  returned : Nat
deriving DecidableEq, Repr

/-
  The constructors put a stream that is not `valid` (a format and a size that do not go together, no
  consumer) in the state of errors.
-/
def Camera3Stream.construct (valid : Bool) : Camera3Stream where
  mState := if valid then .STATE_CONSTRUCTED else .STATE_ERROR
  usage := 0
  max_buffers := 0
  oldUsage := 0
  oldMaxBuffers := 0
  mStatusId := NO_STATUS_ID
  mPrepared := false
  mStreamUnpreparable := false
  mLastMaxCount := ALLOCATE_PIPELINE_MAX
  mPreparedBuffers := 0
  mPreparedBufferIdx := 0
  mTotalBufferCount := 0
  mHandoutTotalBufferCount := 0
  mHandoutOutputBufferCount := 0
  mCombinedFence := []
  waiting := 0
  woken := 0
  handedOut := 0
  returned := 0

/- A stream and the tracker that it reports to. -/
structure Ctx where
  stream : Camera3Stream
  tracker : StatusTracker

inductive BufferStatus
| CAMERA3_BUFFER_STATUS_OK
| CAMERA3_BUFFER_STATUS_ERROR
deriving DecidableEq, Repr

/- A release fence of -1 is `none`. -/
structure StreamBuffer where
  status : BufferStatus
  release_fence : Option Nat
deriving DecidableEq, Repr

/-
  What the window answers when a buffer goes back: to the timestamp, and to `queueBuffer` or
  `cancelBuffer`.
-/
structure ReturnReply where
  timestamp : Status
  buffer : Status
deriving DecidableEq, Repr

/-
  What the window answers to the calls that connect it and configure it, and how many buffers the
  consumer wants.
-/
structure QueueReply where
  api_disconnect : Status
  api_connect : Status
  set_usage : Status
  set_scaling_mode : Status
  set_buffers_dimensions : Status
  set_buffers_format : Status
  set_buffers_data_space : Status
  query : Status
  maxConsumerBuffers : Int
  set_buffer_count : Status
deriving DecidableEq, Repr

/- The first of the answers that is not `OK`. -/
def firstError : List Status → Status
| [] => .OK
| res :: rest => if res ≠ .OK then res else firstError rest

--
-- Handing out and taking back
--

/- The states in which the tracker is told. -/
def StreamState.marks : StreamState → Bool
| .STATE_IN_CONFIG => false
| .STATE_IN_RECONFIG => false
| .STATE_PREPARING => false
| _ => true

def handoutBufferLocked (c : Ctx) : Ctx :=
  let s := c.stream
  { stream :=
      { s with
        mHandoutTotalBufferCount := s.mHandoutTotalBufferCount + 1
        mHandoutOutputBufferCount := s.mHandoutOutputBufferCount + 1
        handedOut := s.handedOut + 1 }
    tracker :=
      if s.mHandoutTotalBufferCount = 0 ∧ s.mState.marks then
        c.tracker.markComponentActive s.mStatusId
      else c.tracker }

def getBufferPreconditionCheckLocked (s : Camera3Stream) : Status :=
  match s.mState with
  | .STATE_CONFIGURED => .OK
  | .STATE_IN_CONFIG => .OK
  | .STATE_IN_RECONFIG => .OK
  | .STATE_PREPARING => .OK
  | _ => .INVALID_OPERATION

/- `dequeue` is what `dequeueBuffer` of the window answers. -/
def getBufferLocked (c : Ctx) (dequeue : Status) : Status × Ctx :=
  if getBufferPreconditionCheckLocked c.stream ≠ .OK then
    (getBufferPreconditionCheckLocked c.stream, c)
  else if dequeue ≠ .OK then (dequeue, c)
  else (.OK, handoutBufferLocked c)

def returnBufferPreconditionCheckLocked (s : Camera3Stream) : Status :=
  if s.mState = .STATE_CONSTRUCTED then .INVALID_OPERATION
  else if s.mHandoutTotalBufferCount = 0 then .INVALID_OPERATION
  else .OK

/-
  The status, the release fence, and whether the stream took a filled buffer. When the timestamp is
  refused there is no release fence.
-/
def returnBufferCheckedLocked (buffer : StreamBuffer)
    (reply : ReturnReply) : Status × Fence × Bool :=
  if buffer.status = .CAMERA3_BUFFER_STATUS_ERROR then
    (reply.buffer, buffer.release_fence.toList, false)
  else if reply.timestamp ≠ .OK then (reply.timestamp, [], false)
  else (reply.buffer, buffer.release_fence.toList, true)

/-
  What `returnBufferCheckedLocked` gave is taken back. The counts go down also when the window gave
  an error.
-/
def takeBack (c : Ctx) (r : Fence × Bool) : Ctx :=
  let s := c.stream
  let total := sizeSub s.mHandoutTotalBufferCount 1
  let fence := s.mCombinedFence.merge r.1
  { stream :=
      { s with
        mStreamUnpreparable := s.mStreamUnpreparable || r.2
        mCombinedFence := fence
        mHandoutOutputBufferCount := sizeSub s.mHandoutOutputBufferCount 1
        mHandoutTotalBufferCount := total
        returned := s.returned + 1 }
    tracker := if total = 0 ∧ s.mState.marks then c.tracker.markComponentIdle s.mStatusId fence
      else c.tracker }

def returnAnyBufferLocked (c : Ctx) (buffer : StreamBuffer) (reply : ReturnReply) : Status × Ctx :=
  if returnBufferPreconditionCheckLocked c.stream ≠ .OK then
    (returnBufferPreconditionCheckLocked c.stream, c)
  else
    let r := returnBufferCheckedLocked buffer reply
    (r.1, takeBack c r.2)

def returnBufferLocked (c : Ctx) (buffer : StreamBuffer) (reply : ReturnReply) : Status × Ctx :=
  returnAnyBufferLocked c buffer reply

/- A buffer that goes back unfilled. -/
def unfilled : StreamBuffer where
  status := .CAMERA3_BUFFER_STATUS_ERROR
  release_fence := none

/- The first buffers go back unfilled. -/
def returnLoop (replies : Nat → ReturnReply) : Nat → Ctx → Ctx
| 0, c => c
| n + 1, c => (returnBufferLocked (returnLoop replies n c) unfilled (replies n)).2

--
-- The queue of the window
--

def hasOutstandingBuffersLocked (s : Camera3Stream) (signaled : List Nat) : Bool :=
  s.mHandoutTotalBufferCount > 0 || !s.mCombinedFence.isSignaled signaled

namespace IOStreamBase

def disconnectLocked (s : Camera3Stream) : Status :=
  match s.mState with
  | .STATE_IN_RECONFIG | .STATE_CONFIGURED =>
    if s.mHandoutTotalBufferCount > 0 then .INVALID_OPERATION
    else .OK
  | _ => .ENOTCONN

end IOStreamBase

def disconnectLocked (s : Camera3Stream) (reply : QueueReply) : Status × Camera3Stream :=
  if IOStreamBase.disconnectLocked s ≠ .OK then (IOStreamBase.disconnectLocked s, s)
  else if reply.api_disconnect ≠ .DEAD_OBJECT ∧ reply.api_disconnect ≠ .OK then
    (reply.api_disconnect, { s with mState := .STATE_ERROR })
  else
    (.OK,
      { s with
        mState := if s.mState = .STATE_IN_RECONFIG then .STATE_IN_CONFIG
          else .STATE_CONSTRUCTED })

namespace IOStreamBase

def configureQueueLocked (s : Camera3Stream) (reply : QueueReply) : Status × Camera3Stream :=
  match s.mState with
  | .STATE_IN_RECONFIG => Camera3.disconnectLocked s reply
  | .STATE_IN_CONFIG => (.OK, s)
  | _ => (.INVALID_OPERATION, s)

end IOStreamBase

/- The calls before the buffers are counted. -/
def QueueReply.configured (reply : QueueReply) : Status :=
  firstError
    [reply.api_connect, reply.set_usage, reply.set_scaling_mode,
      reply.set_buffers_dimensions, reply.set_buffers_format,
      reply.set_buffers_data_space, reply.query]

/- An `int` and a `uint32_t` are added as `uint32_t`. -/
def totalBufferCount (maxConsumerBuffers : Int) (max_buffers : Nat) : Nat :=
  ((maxConsumerBuffers + max_buffers) % 2 ^ 32).toNat

def configureQueueLocked (s : Camera3Stream) (reply : QueueReply) : Status × Camera3Stream :=
  let r := IOStreamBase.configureQueueLocked s reply
  if r.1 ≠ .OK then r
  else if reply.configured ≠ .OK then (reply.configured, r.2)
  else if r.2.max_buffers = 0 then (.INVALID_OPERATION, r.2)
  else
    (reply.set_buffer_count,
      { r.2 with
        mTotalBufferCount := totalBufferCount reply.maxConsumerBuffers r.2.max_buffers
        mHandoutTotalBufferCount := 0 })

end Camera3

end FrameworksAv
