import FrameworksAv.Base.Counter

/-
  The streaming control block of an AudioTrack or AudioRecord and the two proxies that share it
  (`include/private/media/AudioTrackShared.h`, `media/libmedia/AudioTrackShared.cpp`).

  Frames are counted, not addressed in bytes: `mRaw` is the index of a frame inside `mBuffers`. The
  audio server is built 32-bit only, so its `ssize_t` is a signed word.

  Key definitions include:
    * `Geometry`, `Cblk`, `Buffer`
    * `ClientProxy.obtainBuffer`
    * `ServerProxy.releaseBuffer`
    * `ServerProxy.framesReady`
-/

--
-- Shared Data
--

namespace FrameworksAv

namespace AudioTrackShared

/-
  The constant members of `Proxy`. `mFrameCountP2` is `roundup(mFrameCount)` of audio_utils; the
  code relies on it being a power of two that is not below `mFrameCount`.
-/
structure Geometry where
  mFrameCount : Nat
  logFrameCountP2 : Nat
  mIsOut : Bool
  mFrameCount_pos : 1 ≤ mFrameCount
  mFrameCount_le : mFrameCount ≤ 2 ^ logFrameCountP2
  logFrameCountP2_le : logFrameCountP2 ≤ 30

/- `mFrameCount` rounded up to a power of two. -/
def Geometry.mFrameCountP2 (g : Geometry) : Nat :=
  2 ^ g.logFrameCountP2

/- Flag bits of `audio_track_cblk_t::mFlags`. -/
def cblkInvalid : Word := 0x04
def cblkOverrun : Word := 0x100
def cblkInterrupt : Word := 0x200

/- The deferred wake bit of `audio_track_cblk_t::mFutex`. -/
def cblkFutexWake : Word := 1

/- The streaming view of `audio_track_cblk_t`. -/
structure Cblk where
  mServer : Word
  mFutex : Word
  mMinimum : Word
  mFlags : Word
  mFront : Word
  mRear : Word
  mFlush : Word

/- The constructor clears the control block. -/
def Cblk.init : Cblk :=
  ⟨0, 0, 0, 0, 0, 0, 0⟩

/- `Proxy::Buffer`; `mRaw` is a frame index or `NULL`. -/
structure Buffer where
  mFrameCount : Nat
  mRaw : Option Nat
  mNonContig : Nat

/- The buffer of every call that obtains nothing. -/
def Buffer.null : Buffer :=
  ⟨0, none, 0⟩

/- Status codes returned by the two `obtainBuffer`s. -/
inductive Status where
| noError
| wouldBlock
| timedOut
| deadObject
| eintr
| noInit
deriving DecidableEq

/- `mCblk->u.mStreaming.mRear - mFront`, as an `int32_t`. -/
def Cblk.filled (c : Cblk) : Int :=
  (c.mRear - c.mFront).toInt

/- The pipe is neither negative nor overfull. -/
def Geometry.Plausible (g : Geometry) (filled : Int) : Prop :=
  0 ≤ filled ∧ filled ≤ g.mFrameCount

instance (g : Geometry) (filled : Int) : Decidable (g.Plausible filled) :=
  inferInstanceAs (Decidable (0 ≤ filled ∧ filled ≤ g.mFrameCount))

/-
  Only the first contiguous chunk of the available frames is returned, clipped to what the caller
  asked for.
-/
def firstChunk (g : Geometry) (own : Word) (avail ask : Nat) : Buffer :=
  let start := Counter.index own g.mFrameCountP2
  let part1 := g.mFrameCountP2 - start
  let part1 := if part1 > avail then avail else part1
  let part1 := if part1 > ask then ask else part1
  { mFrameCount := part1
    mRaw := if part1 > 0 then some start else none
    mNonContig := avail - part1 }

/- Set the event flag; the wake-up itself carries no data. -/
def Cblk.wake (c : Cblk) : Cblk :=
  { c with mFutex := c.mFutex ||| cblkFutexWake }

--
-- Client Proxy
--

/- Mutable members of `ClientProxy`. -/
structure ClientProxy where
  mIsShutdown : Bool
  mUnreleased : Nat

/- The `timeout` states of `ClientProxy::obtainBuffer`. -/
inductive Timeout where
| zero
| infinite
| finite
| continue

/- One pass of the loop either returns or waits on the futex. -/
inductive Pass where
| returned (status : Status) (buffer : Buffer)
| waiting

namespace ClientProxy

/- The `end:` label with a status other than `NO_ERROR`. -/
def fail (c : Cblk) (p : ClientProxy) (status : Status) : Cblk × ClientProxy × Pass :=
  (c, { p with mUnreleased := 0 },
    .returned status Buffer.null)

/- The counter the client advances. -/
def own (g : Geometry) (c : Cblk) : Word :=
  if g.mIsOut then c.mRear else c.mFront

/- Frames available to write or to read. -/
def avail (g : Geometry) (filled : Nat) : Nat :=
  if g.mIsOut then g.mFrameCount - filled else filled

/- The end of a pass that found nothing available. -/
def wait (timeout : Timeout) (expired : Bool) (c : Cblk)
    (p : ClientProxy) : Cblk × ClientProxy × Pass :=
  let waiting :=
    ({ c with mFutex := c.mFutex &&& ~~~cblkFutexWake },
      p, Pass.waiting)
  match timeout with
  | .zero => fail c p .wouldBlock
  | .infinite => waiting
  | .finite | .continue => if expired then fail c p .timedOut else waiting

/-
  One pass of the loop of `ClientProxy::obtainBuffer`. `ignoreInterrupt` is
  `ignoreInitialPendingInterrupt`, and `expired` is the outcome of comparing the time requested with
  the time already spent waiting.
-/
def obtainBuffer (g : Geometry) (timeout : Timeout) (ignoreInterrupt expired : Bool) (c : Cblk)
    (p : ClientProxy) (ask : Nat) : Cblk × ClientProxy × Pass :=
  if p.mIsShutdown then fail c p .noInit
  else
    let flags := c.mFlags
    let c := { c with mFlags := flags &&& ~~~cblkInterrupt }
    if flags &&& cblkInvalid ≠ 0 then fail c p .deadObject
    else if ¬ ignoreInterrupt ∧ flags &&& cblkInterrupt ≠ 0 then fail c p .eintr
    else if ¬ g.Plausible c.filled ∧ g.mIsOut then fail c { p with mIsShutdown := true } .noInit
    else
      let counter := own g c
      -- for input, sync up on overrun
      let overrun := ¬ g.Plausible c.filled
      let filled := if overrun then 0 else c.filled.toNat
      let c :=
        if overrun then
          { c with
            mFront := c.mRear
            mFlags := c.mFlags ||| cblkOverrun }
        else c
      if avail g filled > 0 then
        let buffer := firstChunk g counter (avail g filled) ask
        (c, { p with mUnreleased := buffer.mFrameCount },
          .returned .noError buffer)
      else wait timeout expired c p

/- `ClientProxy::releaseBuffer`; `none` is the failure of its `LOG_ALWAYS_FATAL_IF`. -/
def releaseBuffer (g : Geometry) (c : Cblk) (p : ClientProxy)
    (buffer : Buffer) : Option (Cblk × ClientProxy × Buffer) :=
  let stepCount := buffer.mFrameCount
  if stepCount = 0 ∨ p.mIsShutdown then some (c, p, Buffer.null)
  else if ¬ (stepCount ≤ p.mUnreleased ∧ p.mUnreleased ≤ g.mFrameCount) then none
  else
    let p := { p with mUnreleased := p.mUnreleased - stepCount }
    let step := BitVec.ofNat 32 stepCount
    if g.mIsOut then some ({ c with mRear := step + c.mRear }, p, buffer)
    else some ({ c with mFront := step + c.mFront }, p, buffer)

/- `AudioTrackClientProxy::flush`: `mFlush` is a flush counter above the offset of the new front. -/
def flush (g : Geometry) (c : Cblk) : Cblk :=
  let increment := BitVec.ofNat 32 (2 * g.mFrameCountP2)
  let mask := increment - 1
  { c with
    mFlush := (c.mRear &&& mask) |||
      ((c.mFlush &&& ~~~mask) + increment) }

/- `ClientProxy::interrupt`. -/
def interrupt (c : Cblk) : Cblk :=
  let old := c.mFlags
  let c := { c with mFlags := old ||| cblkInterrupt }
  if old &&& cblkInterrupt = 0 then c.wake else c

/- `ClientProxy::binderDied`. -/
def binderDied (c : Cblk) : Cblk :=
  let old := c.mFlags
  let c := { c with mFlags := old ||| cblkInvalid }
  if old &&& cblkInvalid = 0 then c.wake else c

end ClientProxy

--
-- Server Proxy
--

/- Mutable members of `ServerProxy`. -/
structure ServerProxy where
  mIsShutdown : Bool
  mUnreleased : Nat
  mAvailToClient : Nat
  mFlush : Word

namespace ServerProxy

/-
  The front after a flush and its distance to the rear, rebuilt from the server's own front and the
  offset part of `flush`.
-/
def rebase (g : Geometry) (front flush rear : Word) : Word × Word :=
  let overflowBit := BitVec.ofNat 32 (2 * g.mFrameCountP2)
  let mask := overflowBit - 1
  let newFront := (front &&& ~~~mask) ||| (flush &&& mask)
  let filled := rear - newFront
  -- front and rear offsets may span the overflow bit
  if overflowBit.toInt ≤ filled.toInt then (newFront + overflowBit, filled - overflowBit)
  else (newFront, filled)

/- A corrupt flush is treated as a full flush. -/
def newFront (g : Geometry) (front flush rear : Word) : Word :=
  let r := rebase g front flush rear
  if g.Plausible r.2.toInt then r.1 else rear

/- The counter the server advances. -/
def own (g : Geometry) (c : Cblk) : Word :=
  if g.mIsOut then c.mFront else c.mRear

/- Frames available to read or to write. -/
def avail (g : Geometry) (filled : Nat) : Nat :=
  if g.mIsOut then filled else g.mFrameCount - filled

/- The `no_init:` label. -/
def noInit (c : Cblk) (p : ServerProxy) : Cblk × ServerProxy × Status × Buffer :=
  (c, { p with mUnreleased := 0 }, .noInit, Buffer.null)

/- The flush part of `ServerProxy::obtainBuffer`. -/
def takeFlush (g : Geometry) (flush : Word) (c : Cblk) (p : ServerProxy) : Cblk × ServerProxy :=
  if g.mIsOut ∧ flush ≠ p.mFlush then
    ({ c with
        mFront := newFront g c.mFront flush c.mRear }.wake,
      { p with mFlush := flush })
  else (c, p)

/-
  `ServerProxy::obtainBuffer`; `flush` is the value of `mFlush` the call loaded before it loads the
  counters.
-/
def obtainBuffer (g : Geometry) (flush : Word) (ackFlush : Bool) (c : Cblk) (p : ServerProxy)
    (ask : Nat) : Cblk × ServerProxy × Status × Buffer :=
  if p.mIsShutdown then noInit c p
  else
    let (c, p) := takeFlush g flush c p
    if ¬ g.Plausible c.filled then noInit c { p with mIsShutdown := true }
    else
      let filled := c.filled.toNat
      let buffer := firstChunk g (own g c) (avail g filled) ask
      (c,
        { p with
          mAvailToClient := ClientProxy.avail g filled
          mUnreleased := if ackFlush then p.mUnreleased
            else buffer.mFrameCount },
        if buffer.mFrameCount > 0 then .noError
        else .wouldBlock,
        buffer)

/- The client is woken from this many available frames on. -/
def wakeMinimum (g : Geometry) (c : Cblk) : Nat :=
  let half := g.mFrameCount / 2
  let half := if half = 0 then 1 else half
  let minimum := c.mMinimum.toNat
  if minimum = 0 then (if g.mIsOut then half else 1)
  else if minimum > half then half
  else minimum

/- `ServerProxy::releaseBuffer`; `none` is the failure of its `LOG_ALWAYS_FATAL_IF`. -/
def releaseBuffer (g : Geometry) (c : Cblk) (p : ServerProxy)
    (buffer : Buffer) : Option (Cblk × ServerProxy × Buffer) :=
  let stepCount := buffer.mFrameCount
  if stepCount = 0 ∨ p.mIsShutdown then some (c, p, Buffer.null)
  else if ¬ (stepCount ≤ p.mUnreleased ∧ p.mUnreleased ≤ g.mFrameCount) then none
  else
    let p := { p with mUnreleased := p.mUnreleased - stepCount }
    let step := BitVec.ofNat 32 stepCount
    let c := if g.mIsOut then { c with mFront := step + c.mFront }
      else { c with mRear := step + c.mRear }
    let c := { c with mServer := c.mServer + step }
    let wakes := ¬ g.mIsOut ∨ wakeMinimum g c ≤ p.mAvailToClient + stepCount
    some (if wakes then c.wake else c, p, Buffer.null)

/- `AudioTrackServerProxy::framesReady`. -/
def framesReady (g : Geometry) (c : Cblk) (p : ServerProxy) : ServerProxy × Nat :=
  if p.mIsShutdown then (p, 0)
  else if c.mFlush ≠ p.mFlush then (p, g.mFrameCount)
  else if ¬ g.Plausible c.filled then ({ p with mIsShutdown := true }, 0)
  else (p, c.filled.toNat)

end ServerProxy

end AudioTrackShared

end FrameworksAv
