import Mathlib.Order.Nat
import FrameworksAv.Base.KeyedVector

/-
  The requests in flight of a device (`Camera3Device`).

  Metadata is a list of entries. The order of the entries is not kept by the device: it sorts what
  it sends.

  Besides its fields the device keeps what it did: the buffers it gave back to their streams and the
  frame of each, what it told the listener, and the frames of its `SET_ERR`s. A listener is always
  set.

  Main declarations:
    * `CameraMetadata`
    * `InFlightRequest`, `Device`
    * `removeInFlightRequestIfReadyLocked`
    * `processCaptureResult`, `notifyError`, `notifyShutter`
-/

--
-- Metadata
--

namespace FrameworksAv

namespace Camera3Device

inductive Tag
| ANDROID_REQUEST_FRAME_COUNT
| ANDROID_REQUEST_ID
| ANDROID_QUIRKS_PARTIAL_RESULT
| ANDROID_SENSOR_TIMESTAMP
| ANDROID_CONTROL_AE_LOCK
| ANDROID_CONTROL_AE_PRECAPTURE_TRIGGER
| ANDROID_CONTROL_AF_MODE
| ANDROID_CONTROL_AWB_MODE
| ANDROID_CONTROL_AE_STATE
| ANDROID_CONTROL_AF_STATE
| ANDROID_CONTROL_AWB_STATE
| ANDROID_CONTROL_AF_TRIGGER_ID
| ANDROID_CONTROL_AE_PRECAPTURE_ID
| other (tag : Nat)
deriving DecidableEq, Repr

def ANDROID_QUIRKS_PARTIAL_RESULT_PARTIAL : Int := 1

structure Entry where
  tag : Tag
  data : List Int
deriving DecidableEq, Repr

abbrev CameraMetadata := List Entry

/- The data of the tag; none when it has no entry. -/
def find (m : CameraMetadata) (tag : Tag) : List Int :=
  match List.find? (fun e => decide (e.tag = tag)) m with
  | some e => e.data
  | none => []

def update (m : CameraMetadata) (tag : Tag) (data : List Int) : CameraMetadata :=
  match m with
  | [] => [⟨tag, data⟩]
  | e :: rest =>
    if e.tag = tag then ⟨tag, data⟩ :: rest
    else e :: update rest tag data

def erase (m : CameraMetadata) (tag : Tag) : CameraMetadata :=
  m.eraseP fun e => e.tag = tag

--
-- The device
--

structure BufferRef where
  stream : Nat
  buffer : Nat
deriving DecidableEq, Repr

structure CaptureResultExtras where
  requestId : Int
  burstId : Int
  afTriggerId : Int
  precaptureTriggerId : Int
  frameNumber : Int
  partialResultCount : Nat
deriving DecidableEq, Repr

structure AeTriggerCancelOverride where
  applyAeLock : Bool
  aeLock : Int
  applyAePrecaptureTrigger : Bool
  aePrecaptureTrigger : Int
deriving DecidableEq, Repr

/- The error codes of a notification, and `OK`. -/
inductive ErrorCode
| OK
| ERROR_DEVICE
| ERROR_REQUEST
| ERROR_RESULT
| ERROR_BUFFER
deriving DecidableEq, Repr

/- The fields of `partialResult` are the last two. -/
structure InFlightRequest where
  shutterTimestamp : Int
  sensorTimestamp : Int
  requestStatus : ErrorCode
  haveResultMetadata : Bool
  numBuffersLeft : Int
  resultExtras : CaptureResultExtras
  hasInputBuffer : Bool
  pendingMetadata : CameraMetadata
  pendingOutputBuffers : List BufferRef
  aeTriggerCancelOverride : AeTriggerCancelOverride
  haveSent3A : Bool
  collectedResult : CameraMetadata
deriving DecidableEq, Repr

def InFlightRequest.init (numBuffers : Nat) (extras : CaptureResultExtras) (hasInput : Bool)
    (aeTriggerCancelOverride : AeTriggerCancelOverride) : InFlightRequest where
  shutterTimestamp := 0
  sensorTimestamp := 0
  requestStatus := .OK
  haveResultMetadata := false
  numBuffersLeft := numBuffers
  resultExtras := extras
  hasInputBuffer := hasInput
  pendingMetadata := []
  pendingOutputBuffers := []
  aeTriggerCancelOverride := aeTriggerCancelOverride
  haveSent3A := false
  collectedResult := []

/- `frame` and `isFinal` tell whose result it is, and which. -/
structure CaptureResult where
  mMetadata : CameraMetadata
  mResultExtras : CaptureResultExtras
  frame : Nat
  isFinal : Bool
deriving DecidableEq, Repr

/- A buffer that was given back to its stream. -/
structure Returned where
  frame : Nat
  buffer : BufferRef
  timestamp : Int
deriving DecidableEq, Repr

structure Config where
  since_3_2 : Bool
  mUsePartialResult : Bool
  mNumPartialResults : Nat
deriving DecidableEq, Repr

structure Device where
  mInFlightMap : KeyedVector Nat InFlightRequest
  mNextResultFrameNumber : Nat
  mNextReprocessResultFrameNumber : Nat
  mNextShutterFrameNumber : Nat
  mNextReprocessShutterFrameNumber : Nat
  mResultQueue : List CaptureResult
  returned : List Returned
  inputs : List (Nat × BufferRef)
  shutters : List (Nat × Int)
  notified : List (Nat × ErrorCode)
  errors : List Nat

def Device.init : Device where
  mInFlightMap := KeyedVector.empty
  mNextResultFrameNumber := 0
  mNextReprocessResultFrameNumber := 0
  mNextShutterFrameNumber := 0
  mNextReprocessShutterFrameNumber := 0
  mResultQueue := []
  returned := []
  inputs := []
  shutters := []
  notified := []
  errors := []

def SET_ERR (d : Device) (frame : Nat) : Device :=
  { d with errors := d.errors ++ [frame] }

/- The entry of a frame is changed. -/
def Device.edit (d : Device) (frame : Nat) (request : InFlightRequest) : Device :=
  { d with mInFlightMap := d.mInFlightMap.add frame request }

def registerInFlight (d : Device) (frameNumber : Nat) (numBuffers : Nat)
    (resultExtras : CaptureResultExtras) (hasInput : Bool)
    (aeTriggerCancelOverride : AeTriggerCancelOverride) : Device :=
  d.edit frameNumber (InFlightRequest.init numBuffers resultExtras hasInput aeTriggerCancelOverride)

/- Frame numbers are `uint32_t`. -/
def nextFrame (frameNumber : Nat) : Nat :=
  (frameNumber + 1) % 2 ^ 32

def Device.nextResult (d : Device) (reprocess : Bool) : Nat :=
  if reprocess then d.mNextReprocessResultFrameNumber
  else d.mNextResultFrameNumber

def Device.setNextResult (d : Device) (reprocess : Bool) (next : Nat) : Device :=
  if reprocess then { d with mNextReprocessResultFrameNumber := next }
  else { d with mNextResultFrameNumber := next }

def Device.nextShutter (d : Device) (reprocess : Bool) : Nat :=
  if reprocess then d.mNextReprocessShutterFrameNumber
  else d.mNextShutterFrameNumber

def Device.setNextShutter (d : Device) (reprocess : Bool) (next : Nat) : Device :=
  if reprocess then { d with mNextReprocessShutterFrameNumber := next }
  else { d with mNextShutterFrameNumber := next }

--
-- Sending and removing
--

def returnOutputBuffers (d : Device) (frame : Nat) (outputBuffers : List BufferRef)
    (timestamp : Int) : Device :=
  { d with
    returned := d.returned ++ outputBuffers.map fun buffer => ⟨frame, buffer, timestamp⟩ }

/- The request is complete, or it failed and has its buffers. -/
def InFlightRequest.isReady (request : InFlightRequest) : Bool :=
  request.numBuffersLeft = 0 &&
    (request.requestStatus ≠ .OK || (request.haveResultMetadata && request.shutterTimestamp ≠ 0))

/- The entry that is removed if it is ready. -/
def removeRequest (d : Device) (frame : Nat) (request : InFlightRequest) : Device :=
  let d :=
    if request.requestStatus = .OK ∧ request.sensorTimestamp ≠ request.shutterTimestamp then
      SET_ERR d frame
    else d
  let d := returnOutputBuffers d frame request.pendingOutputBuffers 0
  { d with mInFlightMap := d.mInFlightMap.remove frame }

def removeInFlightRequestIfReadyLocked (d : Device) (frame : Nat) : Device :=
  match d.mInFlightMap.lookup frame with
  | none => d
  | some request => if request.isReady then removeRequest d frame request else d

def overrideResultForPrecaptureCancel (m : CameraMetadata)
    (override : AeTriggerCancelOverride) : CameraMetadata :=
  let m := if override.applyAeLock then update m .ANDROID_CONTROL_AE_LOCK [override.aeLock] else m
  if override.applyAePrecaptureTrigger then
    update m .ANDROID_CONTROL_AE_PRECAPTURE_TRIGGER [override.aePrecaptureTrigger]
  else m

/- The metadata with the frame number and the earlier parts. -/
def completeMetadata (cfg : Config) (frame : Nat)
    (pendingMetadata collectedPartialResult : CameraMetadata) : CameraMetadata :=
  let m := update pendingMetadata .ANDROID_REQUEST_FRAME_COUNT [frame]
  if cfg.mUsePartialResult then m ++ collectedPartialResult else m

def finalResult (cfg : Config) (frame : Nat) (request : InFlightRequest)
    (pendingMetadata collectedPartialResult : CameraMetadata) : CaptureResult where
  mMetadata :=
    overrideResultForPrecaptureCancel
      (completeMetadata cfg frame pendingMetadata collectedPartialResult)
      request.aeTriggerCancelOverride
  mResultExtras := request.resultExtras
  frame := frame
  isFinal := true

def sendCaptureResult (cfg : Config) (d : Device) (frame : Nat) (request : InFlightRequest)
    (pendingMetadata collectedPartialResult : CameraMetadata) : Device :=
  if pendingMetadata = [] then d
  else if frame < d.nextResult request.hasInputBuffer then SET_ERR d frame
  else
    let d := d.setNextResult request.hasInputBuffer (nextFrame frame)
    let x := finalResult cfg frame request pendingMetadata collectedPartialResult
    if find (completeMetadata cfg frame pendingMetadata collectedPartialResult)
        .ANDROID_SENSOR_TIMESTAMP = [] then
      SET_ERR d frame
    else { d with mResultQueue := d.mResultQueue ++ [x] }

--
-- Results
--

/- `camera3_capture_result` -/
structure HalResult where
  frame_number : Nat
  result : Option CameraMetadata
  output_buffers : List BufferRef
  input_buffer : Option BufferRef
  partial_result : Nat
deriving DecidableEq, Repr

def noteCount (request : InFlightRequest) (result : HalResult) : InFlightRequest :=
  if result.partial_result ≠ 0 then
    { request with
      resultExtras :=
        { request.resultExtras with
          partialResultCount := result.partial_result } }
  else request

/- The number of a part is out of its range. -/
def malformed (cfg : Config) (result : HalResult) : Bool :=
  cfg.mUsePartialResult && result.result.isSome && cfg.since_3_2 &&
    (result.partial_result > cfg.mNumPartialResults || result.partial_result < 1)

def isPartialResult (cfg : Config) (result : HalResult) : Bool :=
  match result.result with
  | none => false
  | some m =>
    cfg.mUsePartialResult && if cfg.since_3_2 then result.partial_result < cfg.mNumPartialResults
      else
        (find m .ANDROID_QUIRKS_PARTIAL_RESULT).head? = some ANDROID_QUIRKS_PARTIAL_RESULT_PARTIAL

/- The metadata that ends the results of its frame. -/
def finalMetadata (cfg : Config) (result : HalResult) : Option CameraMetadata :=
  if isPartialResult cfg result then none else result.result

def collect (cfg : Config) (collected m : CameraMetadata) : CameraMetadata :=
  if cfg.since_3_2 then collected ++ m
  else erase (collected ++ m) .ANDROID_QUIRKS_PARTIAL_RESULT

def has3A (m : CameraMetadata) : Bool :=
  find m .ANDROID_CONTROL_AF_MODE ≠ [] && find m .ANDROID_CONTROL_AWB_MODE ≠ [] &&
    find m .ANDROID_CONTROL_AE_STATE ≠ [] && find m .ANDROID_CONTROL_AF_STATE ≠ [] &&
    find m .ANDROID_CONTROL_AWB_STATE ≠ []

/- The first value of the tag. -/
def first3A (m : CameraMetadata) (tag : Tag) : Entry :=
  ⟨tag, (find m tag).take 1⟩

def minimal3AResult (cfg : Config) (frame : Nat) (m : CameraMetadata)
    (extras : CaptureResultExtras) : CaptureResult where
  mMetadata :=
    [⟨.ANDROID_REQUEST_FRAME_COUNT, [frame]⟩, ⟨.ANDROID_REQUEST_ID, [extras.requestId]⟩] ++
    (if cfg.since_3_2 then []
      else [⟨.ANDROID_QUIRKS_PARTIAL_RESULT, [ANDROID_QUIRKS_PARTIAL_RESULT_PARTIAL]⟩]) ++
    [first3A m .ANDROID_CONTROL_AF_MODE, first3A m .ANDROID_CONTROL_AWB_MODE,
      first3A m .ANDROID_CONTROL_AE_STATE, first3A m .ANDROID_CONTROL_AF_STATE,
      first3A m .ANDROID_CONTROL_AWB_STATE, ⟨.ANDROID_CONTROL_AF_TRIGGER_ID, [extras.afTriggerId]⟩,
      ⟨.ANDROID_CONTROL_AE_PRECAPTURE_ID, [extras.precaptureTriggerId]⟩]
  mResultExtras := extras
  frame := frame
  isFinal := false

/- A part is collected, and its 3A states are sent once. -/
def takePartial (cfg : Config) (d : Device) (request : InFlightRequest)
    (result : HalResult) : Device × InFlightRequest :=
  if isPartialResult cfg result then
    let collected := collect cfg request.collectedResult (result.result.getD [])
    let request := { request with collectedResult := collected }
    if !request.haveSent3A && has3A collected then
      ({ d with
          mResultQueue :=
            d.mResultQueue ++
              [minimal3AResult cfg result.frame_number collected request.resultExtras] },
        { request with haveSent3A := true })
    else (d, request)
  else (d, request)

/- `collectedPartialResult`, and what is left of the request. -/
def takeCollected (cfg : Config) (request : InFlightRequest)
    (result : HalResult) : CameraMetadata × InFlightRequest :=
  if (finalMetadata cfg result).isSome then
    if cfg.mUsePartialResult then
      (request.collectedResult,
        { request with
          collectedResult := []
          haveResultMetadata := true })
    else ([], { request with haveResultMetadata := true })
  else ([], request)

def countBuffers (request : InFlightRequest) (result : HalResult) : InFlightRequest :=
  { request with
    numBuffersLeft :=
      request.numBuffersLeft - result.output_buffers.length -
        (if result.input_buffer.isSome && request.hasInputBuffer then 1 else 0) }

def noteTimestamp (request : InFlightRequest) (result : HalResult) : InFlightRequest :=
  match find (result.result.getD []) .ANDROID_SENSOR_TIMESTAMP with
  | [timestamp] => { request with sensorTimestamp := timestamp }
  | _ => request

/- Buffers and final metadata wait for the shutter. -/
def keepPending (cfg : Config) (request : InFlightRequest) (collected : CameraMetadata)
    (result : HalResult) : InFlightRequest :=
  if request.shutterTimestamp = 0 then
    { request with
      pendingOutputBuffers := request.pendingOutputBuffers ++ result.output_buffers
      pendingMetadata := (finalMetadata cfg result).getD request.pendingMetadata
      collectedResult := if (finalMetadata cfg result).isSome then collected
        else request.collectedResult }
  else request

/- Buffers and final metadata are sent after the shutter. -/
def sendAtOnce (cfg : Config) (d : Device) (request : InFlightRequest) (collected : CameraMetadata)
    (result : HalResult) : Device :=
  if request.shutterTimestamp = 0 then d
  else
    let d :=
      returnOutputBuffers d result.frame_number result.output_buffers request.shutterTimestamp
    match finalMetadata cfg result with
    | none => d
    | some m => sendCaptureResult cfg d result.frame_number request m collected

def returnInputBuffer (d : Device) (hasInputBuffer : Bool) (result : HalResult) : Device :=
  match result.input_buffer with
  | none => d
  | some buffer =>
    if hasInputBuffer then { d with inputs := d.inputs ++ [(result.frame_number, buffer)] }
    else d

/- The part of `processCaptureResult` behind its checks. -/
def acceptResult (cfg : Config) (d : Device) (request : InFlightRequest)
    (result : HalResult) : Device :=
  let frame := result.frame_number
  let p := takePartial cfg d request result
  if (finalMetadata cfg result).isSome ∧ p.2.haveResultMetadata then
    SET_ERR (p.1.edit frame p.2) frame
  else
    let c := takeCollected cfg p.2 result
    let request := countBuffers c.2 result
    if request.numBuffersLeft < 0 then SET_ERR (p.1.edit frame request) frame
    else
      let request := noteTimestamp request result
      let d := p.1.edit frame (keepPending cfg request c.1 result)
      returnInputBuffer
        (removeInFlightRequestIfReadyLocked (sendAtOnce cfg d request c.1 result) frame)
        request.hasInputBuffer result

def processCaptureResult (cfg : Config) (d : Device) (result : HalResult) : Device :=
  let frame := result.frame_number
  if result.result = none ∧ result.output_buffers = [] ∧ result.input_buffer = none then
    SET_ERR d frame
  else if !cfg.mUsePartialResult ∧ cfg.since_3_2 ∧
      result.result.isSome ∧ result.partial_result ≠ 1 then
    SET_ERR d frame
  else
    match d.mInFlightMap.lookup frame with
    | none => SET_ERR d frame
    | some request =>
      let request := noteCount request result
      if malformed cfg result then SET_ERR (d.edit frame request) frame
      else acceptResult cfg d request result

--
-- Notifications
--

def notifyError (d : Device) (frame : Nat) (code : ErrorCode) : Device :=
  match code with
  | .ERROR_REQUEST | .ERROR_RESULT | .ERROR_BUFFER =>
    let d :=
      match d.mInFlightMap.lookup frame with
      | none => d
      | some request => d.edit frame { request with requestStatus := code }
    { d with notified := d.notified ++ [(frame, code)] }
  | .OK | .ERROR_DEVICE => SET_ERR d frame

def notifyShutter (cfg : Config) (d : Device) (frame : Nat) (timestamp : Int) : Device :=
  match d.mInFlightMap.lookup frame with
  | none => SET_ERR d frame
  | some request =>
    if frame < d.nextShutter request.hasInputBuffer then SET_ERR d frame
    else
      let d := d.setNextShutter request.hasInputBuffer (nextFrame frame)
      let d := { d with shutters := d.shutters ++ [(frame, timestamp)] }
      let d := sendCaptureResult cfg d frame request request.pendingMetadata request.collectedResult
      let d := returnOutputBuffers d frame request.pendingOutputBuffers timestamp
      removeInFlightRequestIfReadyLocked
        (d.edit frame
          { request with
            shutterTimestamp := timestamp
            pendingOutputBuffers := [] })
        frame

end Camera3Device

end FrameworksAv
