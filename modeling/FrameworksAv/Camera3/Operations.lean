import FrameworksAv.Base.Run
import FrameworksAv.Camera3.Stream

/-
  The calls of a stream, each made with the lock.

  `getBuffer` is two steps when it has to wait: the thread leaves the lock with `waiting`, a
  returned buffer makes one waiting thread `woken`, and `resume` is a woken thread that has the lock
  again.

  Main declarations:
    * `startConfiguration`, `startPrepare`
    * `getBuffer`, `resume`, `returnBuffer`
    * `Action`, `step`
-/

--
-- Configuration
--

namespace FrameworksAv

namespace Camera3

/- The state that the configuration starts in, if it does. -/
def startState (s : Camera3Stream) (signaled : List Nat) : Option StreamState :=
  match s.mState with
  | .STATE_CONSTRUCTED => some .STATE_IN_CONFIG
  | .STATE_CONFIGURED =>
    if hasOutstandingBuffersLocked s signaled then none
    else some .STATE_IN_RECONFIG
  | _ => none

/- The old settings are noted, and the endpoint gives `usage`. -/
def noteSettings (s : Camera3Stream) (usage : Nat) : Camera3Stream :=
  { s with
    oldUsage := s.usage
    oldMaxBuffers := s.max_buffers
    usage := usage }

/- The stream is no longer tracked. -/
def stopTracking (s : Camera3Stream) (t : StatusTracker) : StatusTracker :=
  if s.mStatusId ≠ NO_STATUS_ID then t.removeComponent s.mStatusId
  else t

/- `usage` and `query` are what the endpoint gives, `signaled` are the fences that are signalled. -/
def startConfiguration (c : Ctx) (usage : Nat) (query : Status) (signaled : List Nat) : Ctx :=
  match startState c.stream signaled with
  | none => c
  | some mState =>
    if query ≠ .OK then { c with stream := noteSettings c.stream usage }
    else
      { stream :=
          { noteSettings c.stream usage with
            mStatusId := NO_STATUS_ID
            mState := mState }
        tracker := stopTracking c.stream c.tracker }

def isConfiguring (s : Camera3Stream) : Bool :=
  s.mState = .STATE_IN_CONFIG || s.mState = .STATE_IN_RECONFIG

/-
  The device: whether its version is 3.2 or later, whether `register_stream_buffers` is set and what
  it answers, and what the window answers to the buffers.
-/
structure Registration where
  since_3_2 : Bool
  isSet : Bool
  register_stream_buffers : Status
  dequeue : Nat → Status
  replies : Nat → ReturnReply

/-
  The buffers that are taken before the first that is refused, at most `n` from the number `i` on,
  and the last status.
-/
def getLoop (dequeue : Nat → Status) : Nat → Nat → Ctx → Nat × Status × Ctx
| _, 0, c => (0, .OK, c)
| i, n + 1, c =>
  let r := getBufferLocked c (dequeue i)
  if r.1 ≠ .OK then (0, r.1, r.2)
  else
    let rest := getLoop dequeue (i + 1) n r.2
    (rest.1 + 1, rest.2)

def registerBuffersLocked (c : Ctx) (hal : Registration) : Status × Ctx :=
  if hal.since_3_2 then (if hal.isSet then .INVALID_OPERATION else .OK, c)
  else
    let bufferCount := c.stream.mTotalBufferCount
    let r := getLoop hal.dequeue 0 bufferCount c
    let res := if r.1 = bufferCount then hal.register_stream_buffers else r.2.1
    let c := returnLoop hal.replies r.1 r.2.2
    (res, { c with stream := { c.stream with mPrepared := true } })

/- A step of a call failed, or it was the last one. -/
def Ctx.settle (r : Status × Ctx) (mState : StreamState) : Ctx :=
  { r.2 with
    stream :=
      { r.2.stream with
        mState := if r.1 ≠ .OK then .STATE_ERROR else mState } }

/- The buffers of the stream are allocated anew. -/
def reallocate (c : Ctx) (hal : Registration) (reply : QueueReply) : Ctx :=
  let r := configureQueueLocked c.stream reply
  if r.1 ≠ .OK then { c with stream := { r.2 with mState := .STATE_ERROR } }
  else
    Ctx.settle (registerBuffersLocked { c with stream := r.2 } hal)
      .STATE_CONFIGURED

def finishConfiguration (c : Ctx) (hal : Registration) (reply : QueueReply) : Ctx :=
  if !isConfiguring c.stream then c
  else
    let s := { c.stream with mStatusId := c.tracker.mNextComponentId }
    let tracker := c.tracker.addComponent
    if s.mState = .STATE_IN_RECONFIG ∧ s.oldUsage = s.usage ∧ s.oldMaxBuffers = s.max_buffers then
      { stream := { s with mState := .STATE_CONFIGURED }
        tracker := tracker }
    else
      reallocate
        { stream :=
            { s with
              mPrepared := false
              mStreamUnpreparable := false }
          tracker := tracker }
        hal reply

def cancelConfiguration (c : Ctx) : Ctx :=
  if !isConfiguring c.stream then c
  else
    { c with
      stream :=
        { c.stream with
          usage := c.stream.oldUsage
          max_buffers := c.stream.oldMaxBuffers
          mState := if c.stream.mState = .STATE_IN_RECONFIG then .STATE_CONFIGURED
            else .STATE_CONSTRUCTED } }

/- What the device writes between start and finish. -/
def configure_streams (c : Ctx) (usage max_buffers : Nat) : Ctx :=
  { c with
    stream := { c.stream with usage := usage, max_buffers := max_buffers } }

--
-- Preparing
--

/- `bufferCount` of `startPrepare`. -/
def prepareCount (s : Camera3Stream) (maxCount : Int) : Nat :=
  let pipelineMax := s.mTotalBufferCount
  let clampedCount := if pipelineMax < maxCount.toNat then pipelineMax else maxCount.toNat
  if maxCount.toNat = ALLOCATE_PIPELINE_MAX then pipelineMax
  else clampedCount

def startPrepare (c : Ctx) (maxCount : Int) : Status × Ctx :=
  let s := c.stream
  if maxCount < 0 then (.BAD_VALUE, c)
  else if s.mState ≠ .STATE_CONFIGURED then (.INVALID_OPERATION, c)
  else if s.mStreamUnpreparable then (.INVALID_OPERATION, c)
  else if s.mHandoutOutputBufferCount > 0 then (.INVALID_OPERATION, c)
  else if prepareCount s maxCount ≤ s.mLastMaxCount then
    (.OK, { c with stream := { s with mPrepared := true } })
  else
    (.NOT_ENOUGH_DATA,
      { c with
        stream :=
          { s with
            mPrepared := false
            mLastMaxCount := prepareCount s maxCount
            mPreparedBuffers := s.mPreparedBuffers + prepareCount s maxCount
            mPreparedBufferIdx := 0
            mState := .STATE_PREPARING } })

def cancelPrepareLocked (c : Ctx) (replies : Nat → ReturnReply) : Status × Ctx :=
  if c.stream.mState ≠ .STATE_PREPARING then (.INVALID_OPERATION, c)
  else
    let c := returnLoop replies c.stream.mPreparedBufferIdx c
    (.OK,
      { c with
        stream :=
          { c.stream with
            mPreparedBuffers := 0
            mPreparedBufferIdx := 0
            mState := .STATE_CONFIGURED } })

def prepareNextBuffer (c : Ctx) (dequeue : Status) (replies : Nat → ReturnReply) : Status × Ctx :=
  if c.stream.mState ≠ .STATE_PREPARING then (.INVALID_OPERATION, c)
  else
    let r := getBufferLocked c dequeue
    if r.1 ≠ .OK then (.NO_INIT, r.2)
    else
      let s := r.2.stream
      let idx := s.mPreparedBufferIdx + 1
      if idx < s.mPreparedBuffers then
        (.NOT_ENOUGH_DATA, { r.2 with stream := { s with mPreparedBufferIdx := idx } })
      else
        cancelPrepareLocked
          { r.2 with
            stream :=
              { s with
                mPreparedBufferIdx := idx
                mPrepared := true } }
          replies

def tearDown (c : Ctx) (reply : QueueReply) : Status × Ctx :=
  if c.stream.mState ≠ .STATE_CONFIGURED then (.INVALID_OPERATION, c)
  else if c.stream.mHandoutOutputBufferCount > 0 then (.INVALID_OPERATION, c)
  else
    let r := disconnectLocked c.stream reply
    if r.1 ≠ .OK then (if r.1 = .ENOTCONN then .OK else r.1, { c with stream := r.2 })
    else
      let s := { r.2 with mState := .STATE_IN_CONFIG }
      let q := configureQueueLocked s reply
      if q.1 ≠ .OK then (q.1, { c with stream := { q.2 with mState := .STATE_ERROR } })
      else
        (.OK,
          { c with
            stream :=
              { q.2 with
                mPrepared := false
                mStreamUnpreparable := false
                mState := .STATE_CONFIGURED } })

--
-- Buffers
--

/- Up to the wait, when there is one. -/
def getBuffer (c : Ctx) (dequeue : Status) : Ctx :=
  let s := c.stream
  if s.mState ≠ .STATE_CONFIGURED then c
  else if s.mHandoutOutputBufferCount = s.max_buffers then
    { c with stream := { s with waiting := s.waiting + 1 } }
  else (getBufferLocked c dequeue).2

/- After a wait that ended with a signal. -/
def resume (c : Ctx) (dequeue : Status) : Ctx :=
  (getBufferLocked
    { c with
      stream := { c.stream with woken := c.stream.woken - 1 } }
    dequeue).2

/- After a wait that ended with the time. -/
def timedOut (c : Ctx) : Ctx :=
  { c with
    stream := { c.stream with waiting := c.stream.waiting - 1 } }

/- `mOutputBufferReturnedSignal.signal` wakes one thread. -/
def signal (s : Camera3Stream) : Camera3Stream :=
  if s.waiting = 0 then s
  else { s with waiting := s.waiting - 1, woken := s.woken + 1 }

def returnBuffer (c : Ctx) (buffer : StreamBuffer) (reply : ReturnReply) : Status × Ctx :=
  let r := returnBufferLocked c buffer reply
  (r.1, { r.2 with stream := signal r.2.stream })

inductive Action
| startConfiguration (usage : Nat) (query : Status) (signaled : List Nat)
| configure_streams (usage max_buffers : Nat)
| finishConfiguration (hal : Registration) (reply : QueueReply)
| cancelConfiguration
| startPrepare (maxCount : Int)
| prepareNextBuffer (dequeue : Status) (replies : Nat → ReturnReply)
| cancelPrepare (replies : Nat → ReturnReply)
| tearDown (reply : QueueReply)
| getBuffer (dequeue : Status)
| resume (dequeue : Status)
| timedOut
| returnBuffer (buffer : StreamBuffer) (reply : ReturnReply)

/-
  The device writes only while it is configured, and threads come back from a wait only when there
  are such threads.
-/
def step (c : Ctx) : Action → Option Ctx
| .startConfiguration usage query signaled => some (startConfiguration c usage query signaled)
| .configure_streams usage max_buffers =>
  if isConfiguring c.stream then some (configure_streams c usage max_buffers)
  else none
| .finishConfiguration hal reply => some (finishConfiguration c hal reply)
| .cancelConfiguration => some (cancelConfiguration c)
| .startPrepare maxCount => some (startPrepare c maxCount).2
| .prepareNextBuffer dequeue replies => some (prepareNextBuffer c dequeue replies).2
| .cancelPrepare replies => some (cancelPrepareLocked c replies).2
| .tearDown reply => some (tearDown c reply).2
| .getBuffer dequeue => some (getBuffer c dequeue)
| .resume dequeue => if c.stream.woken = 0 then none else some (resume c dequeue)
| .timedOut => if c.stream.waiting = 0 then none else some (timedOut c)
| .returnBuffer buffer reply => some (returnBuffer c buffer reply).2

end Camera3

end FrameworksAv
