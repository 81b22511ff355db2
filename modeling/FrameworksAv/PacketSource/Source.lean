import FrameworksAv.Base.Bytes

/-
  The queue of access units between a parser and a decoder.

  The queue holds access units and discontinuities. Beside it is a list of segments, one for the
  access units between two discontinuities, with the largest times that were queued and dequeued.
  `none` is the use of an element that a list does not have.

  Main declarations:
    * `AnotherPacketSource`
    * `AnotherPacketSource.queueAccessUnit`
    * `AnotherPacketSource.trimBuffersBeforeMeta`
    * `Session`, `Session.step`
-/

--
-- Access Units
--

namespace FrameworksAv

namespace PacketSource

/- Formats, by what their MIME type starts with. -/
inductive MetaData
| audio
| video (isAvc : Bool)
| other
deriving DecidableEq, Repr

structure Meta where
  discontinuitySeq : Int
  timeUs : Int
  durationUs : Option Int
deriving DecidableEq, Repr

structure AccessUnit where
  info : Meta
  timeUs_nonneg : 0 ≤ info.timeUs
  format : Option MetaData
  isIDR : Bool
  damaged : Bool
  isSync : Option Int
  sei : Option (List Byte)
deriving DecidableEq, Repr

abbrev AccessUnit.timeUs (unit : AccessUnit) : Int :=
  unit.info.timeUs

structure Discontinuity where
  type : Nat
  damaged : Bool
deriving DecidableEq, Repr

/- What is queued. -/
inductive ABuffer
| data (unit : AccessUnit)
| discontinuity (mark : Discontinuity)
deriving DecidableEq, Repr

def ABuffer.damaged : ABuffer → Bool
| .data unit => unit.damaged
| .discontinuity mark => mark.damaged

/- Whether its meta data have a discontinuity. -/
def ABuffer.isDiscontinuity : ABuffer → Bool
| .data _ => false
| .discontinuity _ => true

def DISCONTINUITY_NONE : Nat := 0

def DISCONTINUITY_AUDIO_FORMAT : Nat := 2

def DISCONTINUITY_VIDEO_FORMAT : Nat := 4

structure HLSTime where
  mSeq : Int
  mTimeUs : Int
deriving DecidableEq, Repr

def HLSTime.ofMeta : Option Meta → HLSTime
| none => ⟨-1, -1⟩
| some info => ⟨info.discontinuitySeq, info.timeUs⟩

def HLSTime.less (t0 t1 : HLSTime) : Bool :=
  t0.mSeq < t1.mSeq || (t0.mSeq == t1.mSeq && t0.mTimeUs < t1.mTimeUs)

structure DiscontinuitySegment where
  mMaxDequeTimeUs : Int
  mMaxEnqueTimeUs : Int
deriving DecidableEq, Repr

namespace DiscontinuitySegment

/- A segment of which nothing was queued. -/
def new : DiscontinuitySegment :=
  ⟨-1, -1⟩

def clear (_seg : DiscontinuitySegment) : DiscontinuitySegment :=
  ⟨-1, -1⟩

/- A time is queued in the segment. -/
def enqueue (seg : DiscontinuitySegment) (timeUs : Int) : DiscontinuitySegment where
  mMaxDequeTimeUs := if seg.mMaxDequeTimeUs = -1 then timeUs
    else seg.mMaxDequeTimeUs
  mMaxEnqueTimeUs := if timeUs > seg.mMaxEnqueTimeUs then timeUs
    else seg.mMaxEnqueTimeUs

def dequeue (seg : DiscontinuitySegment) (timeUs : Int) : DiscontinuitySegment :=
  if timeUs > seg.mMaxDequeTimeUs then { seg with mMaxDequeTimeUs := timeUs }
  else seg

end DiscontinuitySegment

--
-- The Source
--

def OK : Int := 0

structure AnotherPacketSource where
  mDiscontinuitySegments : List DiscontinuitySegment
  mIsAudio : Bool
  mIsVideo : Bool
  mFormat : Option MetaData
  mLastQueuedTimeUs : Int
  mBuffers : List ABuffer
  mEOSResult : Int
  mLatestEnqueuedMeta : Option Meta
  mLatestDequeuedMeta : Option Meta
deriving DecidableEq, Repr

structure MediaBuffer where
  unit : AccessUnit
  kKeyTime : Int
  kKeyIsSyncFrame : Option Int
  kKeySEI : Option (List Byte)
deriving DecidableEq, Repr

/- What a reader gets; `wait` when it waits for a buffer. -/
inductive Dequeued (α : Type)
| ok (out : α)
| discontinuity (mark : Discontinuity)
| ended (result : Int)
| wait
deriving DecidableEq, Repr

namespace AnotherPacketSource

def setFormat (source : AnotherPacketSource) (format : Option MetaData) : AnotherPacketSource :=
  if source.mFormat ≠ none then source
  else
    match format with
    | none => { source with mIsAudio := false, mIsVideo := false }
    | some .audio =>
      { source with
        mIsAudio := true, mIsVideo := false,
        mFormat := format }
    | some (.video _) =>
      { source with
        mIsAudio := false, mIsVideo := true,
        mFormat := format }
    | some .other =>
      { source with
        mIsAudio := false, mIsVideo := false,
        mFormat := format }

/- The format of an access unit, when it carries one. -/
def setUnitFormat (source : AnotherPacketSource) (unit : AccessUnit) : AnotherPacketSource :=
  match unit.format with
  | none => source
  | some format => source.setFormat (some format)

def new (format : Option MetaData) : AnotherPacketSource :=
  setFormat
    { mDiscontinuitySegments := [.new],
      mIsAudio := false,
      mIsVideo := false,
      mFormat := none,
      mLastQueuedTimeUs := 0,
      mBuffers := [],
      mEOSResult := OK,
      mLatestEnqueuedMeta := none,
      mLatestDequeuedMeta := none } format

def wasFormatChange (source : AnotherPacketSource) (discontinuityType : Nat) : Bool :=
  if source.mIsAudio then discontinuityType &&& DISCONTINUITY_AUDIO_FORMAT ≠ 0
  else if source.mIsVideo then discontinuityType &&& DISCONTINUITY_VIDEO_FORMAT ≠ 0
  else false

/- A discontinuity leaves the queue with its segment. -/
def dequeueDiscontinuity (source : AnotherPacketSource)
    (mark : Discontinuity) (mBuffers : List ABuffer) : Option AnotherPacketSource :=
  match source.mDiscontinuitySegments with
  | [] => none
  | _ :: segments =>
    some
      { source with
        mBuffers := mBuffers,
        mFormat := if source.wasFormatChange mark.type then none
          else source.mFormat,
        mDiscontinuitySegments := segments }

/- An empty queue makes the reader wait until it has ended. -/
def dequeueAccessUnit (source : AnotherPacketSource) :
    Option (AnotherPacketSource × Dequeued AccessUnit) :=
  match source.mBuffers with
  | [] =>
    if source.mEOSResult = OK then some (source, .wait)
    else some (source, .ended source.mEOSResult)
  | .discontinuity mark :: mBuffers => do
      let source ← source.dequeueDiscontinuity mark mBuffers
      pure (source, .discontinuity mark)
  | .data unit :: mBuffers =>
    match source.mDiscontinuitySegments with
    | [] => none
    | seg :: segments =>
      let source :=
        { source with
          mBuffers := mBuffers,
          mLatestDequeuedMeta := some unit.info,
          mDiscontinuitySegments := seg.dequeue unit.timeUs :: segments }
      some (source.setUnitFormat unit, .ok unit)

def read (source : AnotherPacketSource) : Option (AnotherPacketSource × Dequeued MediaBuffer) :=
  match source.mBuffers with
  | [] =>
    if source.mEOSResult = OK then some (source, .wait)
    else some (source, .ended source.mEOSResult)
  | .discontinuity mark :: mBuffers => do
      let source ← source.dequeueDiscontinuity mark mBuffers
      pure (source, .discontinuity mark)
  | .data unit :: mBuffers =>
    let source :=
      { source with
        mBuffers := mBuffers,
        mLatestDequeuedMeta := some unit.info }
    let source := source.setUnitFormat unit
    match source.mDiscontinuitySegments with
    | [] => none
    | seg :: segments =>
      some
        ({ source with
            mDiscontinuitySegments := seg.dequeue unit.timeUs :: segments },
          .ok
            { unit := unit,
              kKeyTime := unit.timeUs,
              kKeyIsSyncFrame := unit.isSync,
              kKeySEI := unit.sei })

def requeueAccessUnit (source : AnotherPacketSource) (unit : AccessUnit) : AnotherPacketSource :=
  { source with mBuffers := .data unit :: source.mBuffers }

/- The latest of the queued times and the frame duration. -/
def latestMeta (latest : Option Meta) (info : Meta) : Meta :=
  match latest with
  | none => info
  | some latest =>
    if info.timeUs > latest.timeUs then
      { info with
        durationUs := some (info.timeUs - latest.timeUs) }
    else
      match latest.durationUs with
      | some _ => latest
      | none =>
        -- For B frames
        { latest with
          durationUs := some (latest.timeUs - info.timeUs) }

def queueAccessUnit (source : AnotherPacketSource)
    (buffer : ABuffer) : Option AnotherPacketSource :=
  if buffer.damaged then some source
  else
    match buffer with
    | .discontinuity _ =>
      some
        { source with
          mBuffers := source.mBuffers ++ [buffer],
          mLastQueuedTimeUs := 0,
          mEOSResult := OK,
          mLatestEnqueuedMeta := none,
          mDiscontinuitySegments := source.mDiscontinuitySegments ++ [.new] }
    | .data unit =>
      match source.mDiscontinuitySegments.getLast? with
      | none => none
      | some tailSeg =>
        some
          { source with
            mBuffers := source.mBuffers ++ [buffer],
            mLastQueuedTimeUs := unit.timeUs,
            mLatestEnqueuedMeta := some (latestMeta source.mLatestEnqueuedMeta unit.info),
            mDiscontinuitySegments :=
              source.mDiscontinuitySegments.dropLast ++ [tailSeg.enqueue unit.timeUs] }

def clear (source : AnotherPacketSource) : AnotherPacketSource :=
  { source with
    mBuffers := [],
    mEOSResult := OK,
    mDiscontinuitySegments := [.new],
    mFormat := none,
    mLatestEnqueuedMeta := none }

/- Leave only discontinuities in the queue. -/
def discardUnits (source : AnotherPacketSource) : AnotherPacketSource :=
  { source with
    mBuffers := source.mBuffers.filter ABuffer.isDiscontinuity,
    mDiscontinuitySegments := source.mDiscontinuitySegments.map DiscontinuitySegment.clear }

def queueDiscontinuity (source : AnotherPacketSource)
    (type : Nat) (discard : Bool) : AnotherPacketSource :=
  let source := if discard then source.discardUnits else source
  let source :=
    { source with
      mEOSResult := OK,
      mLastQueuedTimeUs := 0,
      mLatestEnqueuedMeta := none }
  if type = DISCONTINUITY_NONE then source
  else
    { source with
      mDiscontinuitySegments := source.mDiscontinuitySegments ++ [.new],
      mBuffers := source.mBuffers ++ [.discontinuity ⟨type, false⟩] }

def signalEOS (source : AnotherPacketSource) (result : Int) : AnotherPacketSource :=
  { source with mEOSResult := result }

--
-- Trimming
--

/-
  The buffers before the first access unit that is not before a time, the number of discontinuities
  among them and the last access unit among them.
-/
def trimAfterLoop (stopTime : HLSTime) :
    List ABuffer → Option Meta → List ABuffer × Nat × Option Meta
| [], latest => ([], 0, latest)
| .discontinuity mark :: mBuffers, latest =>
  let (kept, passed, latest) := trimAfterLoop stopTime mBuffers latest
  (.discontinuity mark :: kept, passed + 1, latest)
| .data unit :: mBuffers, latest =>
  if ¬(HLSTime.ofMeta (some unit.info)).less stopTime then ([], 0, latest)
  else
    let (kept, passed, latest) := trimAfterLoop stopTime mBuffers (some unit.info)
    (.data unit :: kept, passed, latest)

def trimBuffersAfterMeta (source : AnotherPacketSource)
    (info : Option Meta) : Option AnotherPacketSource :=
  if info = none then some source
  else if source.mBuffers = [] then some source
  else
    let (kept, passed, latest) := trimAfterLoop (.ofMeta info) source.mBuffers none
    match source.mDiscontinuitySegments[passed]? with
    | none => none
    | some seg =>
      some
        { source with
          mBuffers := kept,
          mLatestEnqueuedMeta := latest,
          mLastQueuedTimeUs :=
            match latest with
            | none => 0
            | some latest => latest.timeUs,
          mDiscontinuitySegments :=
            source.mDiscontinuitySegments.take passed ++
              [match latest with
              | none => seg.clear
              | some latest =>
                { seg with
                  mMaxEnqueTimeUs := latest.timeUs }] }

/- The format that is known at an access unit. -/
def knownFormat (format : Option MetaData) (isAvc : Bool)
    (unit : AccessUnit) : Option MetaData × Bool :=
  match format, unit.format with
  | none, some format => (some format, format = .video true)
  | _, _ => (format, isAvc)

/-
  The buffers from the first access unit behind a time on, the segments that are left and the time
  of that unit.
-/
def trimBeforeLoop (startTime : HLSTime) :
    List ABuffer → List DiscontinuitySegment → Option MetaData → Bool →
      Option (List ABuffer × List DiscontinuitySegment × Option Meta × Int)
| [], segments, _, _ => some ([], segments, none, -1)
| .discontinuity _ :: mBuffers, segments, _, _ =>
  match segments with
  | [] => none
  | _ :: segments => trimBeforeLoop startTime mBuffers segments none false
| .data unit :: mBuffers, segments, format, isAvc =>
  let (format, isAvc) := knownFormat format isAvc unit
  if isAvc && !unit.isIDR then trimBeforeLoop startTime mBuffers segments format isAvc
  else if startTime.less (.ofMeta (some unit.info)) then
    some (.data unit :: mBuffers, segments, some unit.info, unit.timeUs)
  else trimBeforeLoop startTime mBuffers segments format isAvc

def trimBuffersBeforeMeta (source : AnotherPacketSource) (info : Option Meta) :
    Option (AnotherPacketSource × Option Meta) :=
  if source.mBuffers = [] then some (source, none)
  else do
    let (mBuffers, segments, firstMeta, firstTimeUs) ←
      trimBeforeLoop (.ofMeta info) source.mBuffers source.mDiscontinuitySegments none false
    match segments with
    | [] => none
    | seg :: segments =>
      some
        ({ source with
            mBuffers := mBuffers,
            mLatestDequeuedMeta := none,
            mDiscontinuitySegments :=
              (if 0 ≤ firstTimeUs then { seg with mMaxDequeTimeUs := firstTimeUs }
              else seg.clear) :: segments },
          firstMeta)

/- The difference of the times of all segments, as `int64_t`. -/
def bufferedUs (source : AnotherPacketSource) : Int :=
  (source.mDiscontinuitySegments.map (fun seg => seg.mMaxEnqueTimeUs - seg.mMaxDequeTimeUs)).sum

def getBufferedDurationUs (source : AnotherPacketSource) : Int × Int :=
  (source.bufferedUs.bmod (2 ^ 64), source.mEOSResult)

end AnotherPacketSource

--
-- Sessions
--

/- A source and the access unit that was last dequeued. -/
structure Session where
  source : AnotherPacketSource
  dequeued : Option AccessUnit
deriving DecidableEq, Repr

inductive Op
| queueAccessUnit (buffer : ABuffer)
| queueDiscontinuity (type : Nat) (discard : Bool)
| dequeueAccessUnit
| read
| requeueAccessUnit
| clear
| trimBuffersAfterMeta (info : Option Meta)
| trimBuffersBeforeMeta (info : Option Meta)
| signalEOS (result : Int) (hResult : result ≠ OK)
deriving DecidableEq, Repr

namespace Session

def start (format : Option MetaData) : Session :=
  ⟨.new format, none⟩

/- Only what was dequeued can be queued again. -/
def step (session : Session) : Op → Option Session
| .queueAccessUnit buffer => do
    let source ← session.source.queueAccessUnit buffer
    pure { session with source := source }
| .queueDiscontinuity type discard =>
  some
    { session with
      source := session.source.queueDiscontinuity type discard }
| .dequeueAccessUnit => do
    let (source, out) ← session.source.dequeueAccessUnit
    match out with
    | .ok unit => pure ⟨source, some unit⟩
    | _ => pure { session with source := source }
| .read => do
    let (source, out) ← session.source.read
    match out with
    | .ok out => pure ⟨source, some out.unit⟩
    | _ => pure { session with source := source }
| .requeueAccessUnit =>
  match session.dequeued with
  | none => some session
  | some unit =>
    some
      { session with
        source := session.source.requeueAccessUnit unit }
| .clear => some { session with source := session.source.clear }
| .trimBuffersAfterMeta info => do
    let source ← session.source.trimBuffersAfterMeta info
    pure { session with source := source }
| .trimBuffersBeforeMeta info => do
    let (source, _) ← session.source.trimBuffersBeforeMeta info
    pure { session with source := source }
| .signalEOS result _ => some { session with source := session.source.signalEOS result }

end Session

end PacketSource

end FrameworksAv
