import FrameworksAv.AudioTrackShared.Proxy
import FrameworksAv.SingleStateQueue.Queue

/-
  A static track: the whole buffer is there from the start, and the client moves the position and
  sets a loop (`StaticAudioTrackClientProxy` and `StaticAudioTrackServerProxy`).

  The server is built 32-bit only: `size_t` and `ssize_t` are words. Both queues carry whole states;
  their calls are those of a queue without interference.

  Main declarations:
    * `StaticState`, `StaticCblk`
    * `StaticServer.pollPosition`
    * `StaticClient.setLoop`
    * `StaticClient.setBufferPosition`
-/

--
-- Shared Data
--

namespace FrameworksAv

namespace AudioTrackShared

open SingleStateQueue (Shared Mutator Observer)

/- `INT64_MAX` and the `SIZE_MAX` of the server. -/
def int64Max : Int := 2 ^ 63 - 1

def sizeMax : Nat := 2 ^ 32 - 1

/- `MIN_LOOP`. -/
def minLoop : Nat := 16

/- Flag bits of a static track. -/
def cblkLoopCycle : Word := 0x20
def cblkLoopFinal : Word := 0x40
def cblkBufferEnd : Word := 0x80

/- `StaticAudioTrackState`. -/
structure StaticState where
  mLoopStart : Word
  mLoopEnd : Word
  mLoopCount : Word
  mLoopSequence : Word
  mPosition : Word
  mPositionSequence : Word
deriving DecidableEq

/- The state both proxies start with. -/
def StaticState.init : StaticState :=
  ⟨0, 0, 0, 0, 0, 0⟩

/- `StaticAudioTrackPosLoop`. -/
structure PosLoop where
  mBufferPosition : Word
  mLoopCount : Word
deriving DecidableEq

/- The static view of `audio_track_cblk_t`. -/
structure StaticCblk where
  mServer : Word
  mFlags : Word
  mSingleStateQueue : Shared StaticState
  mPosLoopQueue : Shared PosLoop

def StaticCblk.init : StaticCblk where
  mServer := 0
  mFlags := 0
  mSingleStateQueue := Shared.init .init
  mPosLoopQueue := Shared.init ⟨0, 0⟩

/- Clamp a 64-bit value to `size_t`. -/
def clampToSize (x : Int) : Nat :=
  if x > sizeMax then sizeMax
  else if x < 0 then 0
  else x.toNat

/- The next value of a sequence: ahead of both, unless `self` is ahead already. -/
def incrementSequence (self other : Word) : Word :=
  let diff := (self - other).toInt
  if diff ≥ 0 ∧ diff < 2 ^ 31 - 1 then self + 1
  else other + 1

--
-- Client Proxy
--

/- Mutable members of `StaticAudioTrackClientProxy`. -/
structure StaticClient where
  mState : StaticState
  mPosLoop : PosLoop
  mMutator : Mutator
  mPosLoopObserver : Observer

namespace StaticClient

def init : StaticClient where
  mState := .init
  mPosLoop := ⟨0, 0⟩
  mMutator := ⟨0⟩
  mPosLoopObserver := ⟨0⟩

/-
  The position and loop count the client shows; those of the server only once it has acted on the
  last push.
-/
def getBufferPositionAndLoopCount (c : StaticCblk) (p : StaticClient) : StaticCblk × StaticClient :=
  if Mutator.ack c.mSingleStateQueue p.mMutator = .done then
    match Observer.poll c.mPosLoopQueue p.mPosLoopObserver with
    | (queue, observer, some posLoop) =>
      ({ c with mPosLoopQueue := queue },
        { p with
          mPosLoop := posLoop
          mPosLoopObserver := observer })
    | (queue, observer, none) =>
      ({ c with mPosLoopQueue := queue },
        { p with mPosLoopObserver := observer })
  else (c, p)

/- Push the state of the client. -/
def push (c : StaticCblk) (p : StaticClient) : StaticCblk × StaticClient :=
  let (queue, mutator, _) := Mutator.push c.mSingleStateQueue p.mMutator p.mState
  ({ c with mSingleStateQueue := queue },
    { p with mMutator := mutator })

/- Sizes that do not fit a word are ignored. -/
def setLoop (c : StaticCblk) (p : StaticClient) (loopStart loopEnd : Nat)
    (loopCount : Word) : StaticCblk × StaticClient :=
  if loopStart > 2 ^ 32 - 1 ∨ loopEnd > 2 ^ 32 - 1 then (c, p)
  else
    let p :=
      { p with
        mState :=
          { p.mState with
            mLoopStart := BitVec.ofNat 32 loopStart
            mLoopEnd := BitVec.ofNat 32 loopEnd
            mLoopCount := loopCount
            mLoopSequence := incrementSequence p.mState.mLoopSequence p.mState.mPositionSequence } }
    let (c, p) := getBufferPositionAndLoopCount c p
    -- restart if the position exceeds the end of the loop
    let position :=
      if p.mState.mLoopCount ≠ 0 ∧ p.mState.mLoopEnd.toNat ≤ p.mPosLoop.mBufferPosition.toNat then
        p.mState.mLoopStart
      else p.mPosLoop.mBufferPosition
    push c
      { p with
        mPosLoop :=
          { mBufferPosition := position
            mLoopCount := p.mState.mLoopCount } }

def setBufferPosition (c : StaticCblk) (p : StaticClient)
    (position : Nat) : StaticCblk × StaticClient :=
  if position > 2 ^ 32 - 1 then (c, p)
  else
    let p :=
      { p with
        mState :=
          { p.mState with
            mPosition := BitVec.ofNat 32 position
            mPositionSequence :=
              incrementSequence p.mState.mPositionSequence p.mState.mLoopSequence } }
    -- only if the loop count is changing
    let (c, p) := if p.mState.mLoopCount.toInt > 0 then getBufferPositionAndLoopCount c p
      else (c, p)
    -- no ongoing loop is possible behind its end
    let loopCount := if position ≥ p.mState.mLoopEnd.toNat then 0 else p.mPosLoop.mLoopCount
    push c
      { p with
        mPosLoop :=
          { mBufferPosition := BitVec.ofNat 32 position
            mLoopCount := loopCount } }

def setBufferPositionAndLoop (c : StaticCblk) (p : StaticClient) (position loopStart loopEnd : Nat)
    (loopCount : Word) : StaticCblk × StaticClient :=
  let (c, p) := setLoop c p loopStart loopEnd loopCount
  setBufferPosition c p position

end StaticClient

--
-- Server Proxy
--

/- Mutable members of `StaticAudioTrackServerProxy`. -/
structure StaticServer where
  mIsShutdown : Bool
  mUnreleased : Nat
  mObserver : Observer
  mPosLoopMutator : Mutator
  mState : StaticState
  mFramesReadySafe : Nat
  mFramesReady : Int
  mFramesReadyIsCalledByMultipleThreads : Bool

namespace StaticServer

def init (frameCount : Nat) : StaticServer where
  mIsShutdown := false
  mUnreleased := 0
  mObserver := ⟨0⟩
  mPosLoopMutator := ⟨0⟩
  mState := .init
  mFramesReadySafe := frameCount
  mFramesReady := frameCount
  mFramesReadyIsCalledByMultipleThreads := false

/- A loop that can be played. -/
def ValidLoop (frameCount : Nat) (update : StaticState) : Prop :=
  update.mLoopCount.toInt ≥ -1 ∧ update.mLoopStart.toNat < update.mLoopEnd.toNat ∧
    update.mLoopEnd.toNat ≤ frameCount ∧ update.mLoopEnd.toNat - update.mLoopStart.toNat ≥ minLoop

instance (frameCount : Nat) (update : StaticState) : Decidable (ValidLoop frameCount update) :=
  inferInstanceAs (Decidable (_ ∧ _ ∧ _ ∧ _))

/- `none` is `NO_INIT`. -/
def updateStateWithLoop (frameCount : Nat) (localState update : StaticState) : Option StaticState :=
  if localState.mLoopSequence ≠ update.mLoopSequence then
    -- a position behind the end wraps to the loop start
    let position :=
      if update.mLoopCount ≠ 0 ∧ localState.mPosition.toNat ≥ update.mLoopEnd.toNat then
        update.mLoopStart
      else localState.mPosition
    if (update.mLoopCount = 0 ∨ ValidLoop frameCount update) ∧ position.toNat ≤ frameCount then
      some
        { localState with
          mPosition := position
          mLoopCount := update.mLoopCount
          mLoopEnd := update.mLoopEnd
          mLoopStart := update.mLoopStart
          mLoopSequence := update.mLoopSequence }
    else none
  else some localState

def updateStateWithPosition (frameCount : Nat)
    (localState update : StaticState) : Option StaticState :=
  if localState.mPositionSequence ≠ update.mPositionSequence then
    if update.mPosition.toNat > frameCount then none
    else
      -- a position behind the end disables the loop
      let loopCount :=
        if localState.mLoopCount ≠ 0 ∧ update.mPosition.toNat ≥ localState.mLoopEnd.toNat then 0
        else localState.mLoopCount
      some
        { localState with
          mLoopCount := loopCount
          mPosition := update.mPosition
          mPositionSequence := update.mPositionSequence }
  else some localState

/- Both updates, the older command first. -/
def updateState (frameCount : Nat) (localState state : StaticState) : Option StaticState :=
  let diffSeq := (state.mLoopSequence - state.mPositionSequence).toInt
  if diffSeq < 0 then
    (updateStateWithLoop frameCount localState state).bind
      (fun s => updateStateWithPosition frameCount s state)
  else
    (updateStateWithPosition frameCount localState state).bind
      (fun s => updateStateWithLoop frameCount s state)

/- `mFramesReady` of a new state, if it was `ready`. -/
def framesReadyOf (frameCount : Nat) (ready : Int) (s : StaticState) : Int :=
  if s.mLoopCount.toInt = -1 then int64Max
  else if s.mLoopCount = 0 then frameCount - s.mPosition.toNat
  else if s.mLoopCount.toInt > 0 then
    s.mLoopCount.toInt * (s.mLoopEnd - s.mLoopStart).toNat + frameCount - s.mPosition.toNat
  else ready

/- Tell the client where the server is. -/
def pushPosLoop (c : StaticCblk) (p : StaticServer) : StaticCblk × StaticServer :=
  let (queue, mutator, _) :=
    Mutator.push c.mPosLoopQueue p.mPosLoopMutator
      { mBufferPosition := p.mState.mPosition
        mLoopCount := p.mState.mLoopCount }
  ({ c with mPosLoopQueue := queue },
    { p with mPosLoopMutator := mutator })

/- `pollPosition`; the flag says whether it succeeded. -/
def pollPosition (frameCount : Nat) (c : StaticCblk)
    (p : StaticServer) : StaticCblk × StaticServer × Bool :=
  match Observer.poll c.mSingleStateQueue p.mObserver with
  | (queue, observer, none) =>
    ({ c with mSingleStateQueue := queue },
      { p with mObserver := observer }, true)
  | (queue, observer, some state) =>
    let done := Observer.done queue
    let p := { p with mObserver := observer }
    match updateState frameCount p.mState state with
    | none =>
      -- the client pushed an invalid state, shutting down
      ({ c with mSingleStateQueue := done },
        { p with mIsShutdown := true }, false)
    | some s =>
      let ready := framesReadyOf frameCount p.mFramesReady s
      let (c, p) :=
        pushPosLoop c
          { p with
            mState := s
            mFramesReady := ready
            mFramesReadySafe := clampToSize ready }
      ({ c with mSingleStateQueue := done }, p, true)

/- Other threads may not poll. -/
def framesReady (frameCount : Nat) (c : StaticCblk)
    (p : StaticServer) : StaticCblk × StaticServer × Nat :=
  if p.mFramesReadyIsCalledByMultipleThreads then (c, p, p.mFramesReadySafe)
  else
    let (c, p, _) := pollPosition frameCount c p
    (c, p, p.mFramesReadySafe)

/- The end of what can be played without a jump. -/
def stop (frameCount : Nat) (s : StaticState) : Nat :=
  if s.mLoopCount ≠ 0 then s.mLoopEnd.toNat else frameCount

/-
  `obtainBuffer`; `none` is the failure of its `LOG_ALWAYS_FATAL_IF`. A position from 2^31 on is a
  negative `ssize_t`, which the code takes for a status, here `noInit`.
-/
def obtainBuffer (frameCount : Nat) (c : StaticCblk) (p : StaticServer) (ask : Nat)
    (ackFlush : Bool) : Option (StaticCblk × StaticServer × Status × Buffer) :=
  if p.mIsShutdown then some (c, { p with mUnreleased := 0 }, .noInit, Buffer.null)
  else
    let (c, p, polled) := pollPosition frameCount c p
    if ¬ polled ∨ p.mState.mPosition.toInt < 0 then
      some (c, { p with mUnreleased := 0 }, .noInit, Buffer.null)
    else
      let position := p.mState.mPosition.toNat
      let stop := stop frameCount p.mState
      let avail := if position < stop then min (stop - position) ask else 0
      if p.mFramesReady < avail then none
      else
        let buffer : Buffer :=
          { mFrameCount := avail
            mRaw := if position < stop then some position else none
            mNonContig := if p.mFramesReady = int64Max then sizeMax
              else clampToSize (p.mFramesReady - avail) }
        let p := if ackFlush then p else { p with mUnreleased := avail }
        some (c, p, .noError, buffer)

/-
  The position behind `stepCount` frames, the loop count and the flags. The position is clipped if
  it is outside of the buffer, and jumps back from the end of the loop.
-/
def advance (frameCount : Nat) (s : StaticState) (stepCount : Nat) : StaticState × Word :=
  let position := s.mPosition.toNat
  let newPosition := (position + stepCount) % 2 ^ 32
  let (newPosition, loopCount, setFlags) :=
    if ¬ (position ≤ newPosition ∧ newPosition ≤ frameCount) then (frameCount, s.mLoopCount, 0)
    else if s.mLoopCount ≠ 0 ∧ newPosition = s.mLoopEnd.toNat then
      if s.mLoopCount.toInt = -1 then (s.mLoopStart.toNat, s.mLoopCount, cblkLoopCycle)
      else if s.mLoopCount - 1 ≠ 0 then (s.mLoopStart.toNat, s.mLoopCount - 1, cblkLoopCycle)
      else (s.mLoopStart.toNat, s.mLoopCount - 1, cblkLoopFinal)
    else (newPosition, s.mLoopCount, 0)
  let setFlags := if newPosition = frameCount then setFlags ||| cblkBufferEnd else setFlags
  ({ s with
      mPosition := BitVec.ofNat 32 newPosition
      mLoopCount := loopCount },
    setFlags)

/- `releaseBuffer`; `none` is the failure of one of its `LOG_ALWAYS_FATAL_IF`s. -/
def releaseBuffer (frameCount : Nat) (c : StaticCblk) (p : StaticServer) (buffer : Buffer) :
    Option (StaticCblk × StaticServer × Buffer) :=
  let stepCount := buffer.mFrameCount
  if ¬ (stepCount : Int) ≤ p.mFramesReady then none
  else if ¬ stepCount ≤ p.mUnreleased then none
  else if stepCount = 0 then some (c, p, Buffer.null)
  else
    let (s, setFlags) := advance frameCount p.mState stepCount
    let ready := if p.mFramesReady ≠ int64Max then p.mFramesReady - stepCount else p.mFramesReady
    let (c, p) :=
      pushPosLoop { c with mServer := c.mServer + BitVec.ofNat 32 stepCount }
        { p with
          mUnreleased := p.mUnreleased - stepCount
          mState := s
          mFramesReady := ready
          mFramesReadySafe := clampToSize ready }
    some ({ c with mFlags := c.mFlags ||| setFlags }, p,
      Buffer.null)

end StaticServer

end AudioTrackShared

end FrameworksAv
