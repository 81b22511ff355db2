import FrameworksAv.Base.Run
import FrameworksAv.Camera3Device.InFlight

/-
  What the device below (the HAL) sends for the requests.

  The progress of a frame is what was sent for it so far. The contract allows a call of the HAL by
  the progress of the frames; it says nothing of the fields of the device above.

  Main declarations:
    * `Request`, `Progress`, `Event`
    * `System`, `System.step`
    * `Obeys`
-/

--
-- Requests and their progress
--

namespace FrameworksAv

namespace Camera3Device

/-
  A request that is sent to the HAL. `timestamp` is the time that the sensor will have for it, and
  `fails` says that the HAL will report `ERROR_REQUEST` or `ERROR_RESULT` for it.
-/
structure Request where
  frame : Nat
  outputs : List BufferRef
  input : Option BufferRef
  extras : CaptureResultExtras
  override : AeTriggerCancelOverride
  timestamp : Int
  fails : Bool
deriving DecidableEq, Repr

/- The request is a reprocess request. -/
def Request.reprocess (q : Request) : Bool :=
  q.input.isSome

def Request.numBuffers (q : Request) : Nat :=
  q.outputs.length + (if q.reprocess then 1 else 0)

def registerAll (d : Device) : List Request → Device
| [] => d
| q :: qs =>
  registerAll (registerInFlight d q.frame q.numBuffers q.extras q.reprocess q.override) qs

/-
  The buffers that came back, the parts of the metadata, its last piece, the shutter, the last
  error, and whether an error was one of a failed frame.
-/
structure Progress where
  outputs : List BufferRef
  input : Bool
  parts : List CameraMetadata
  final : Option CameraMetadata
  shutter : Bool
  status : ErrorCode
  failed : Bool
deriving DecidableEq, Repr

def Progress.init : Progress where
  outputs := []
  input := false
  parts := []
  final := none
  shutter := false
  status := .OK
  failed := false

/- Every buffer of the request came back. -/
def Progress.allBuffers (p : Progress) (q : Request) : Prop :=
  p.outputs.length = q.outputs.length ∧ (q.reprocess → p.input)

/- Nothing is left to come but errors. -/
def Progress.complete (p : Progress) (q : Request) : Prop :=
  p.allBuffers q ∧ p.final.isSome ∧ p.shutter

/- The parts as the device above collects them. -/
def Progress.collected (p : Progress) (cfg : Config) : CameraMetadata :=
  p.parts.foldl (collect cfg) []

def Progress.takeResult (cfg : Config) (p : Progress) (r : HalResult) : Progress :=
  { p with
    outputs := p.outputs ++ r.output_buffers
    input := p.input || r.input_buffer.isSome
    parts := if isPartialResult cfg r then p.parts ++ r.result.toList
      else p.parts
    final :=
      match finalMetadata cfg r with
      | none => p.final
      | some m => some m }

def Progress.takeError (p : Progress) (code : ErrorCode) : Progress :=
  { p with
    status := code
    failed := p.failed || code ≠ .ERROR_BUFFER }

instance (p : Progress) (q : Request) : Decidable (p.allBuffers q) :=
  inferInstanceAs (Decidable (_ ∧ _))

instance (p : Progress) (q : Request) : Decidable (p.complete q) :=
  inferInstanceAs (Decidable (_ ∧ _))

--
-- Runs
--

inductive Event
| processCaptureResult (result : HalResult)
| notifyShutter (frame : Nat) (timestamp : Int)
| notifyError (frame : Nat) (code : ErrorCode)

structure System where
  device : Device
  progress : Nat → Progress

/- The progress of one frame changes. -/
def System.advance (s : System) (frame : Nat) (p : Progress) (d : Device) : System where
  device := d
  progress f := if f = frame then p else s.progress f

def System.step (cfg : Config) (s : System) : Event → Option System
| .processCaptureResult r =>
  some
    (s.advance r.frame_number ((s.progress r.frame_number).takeResult cfg r)
      (processCaptureResult cfg s.device r))
| .notifyShutter frame timestamp =>
  some
    (s.advance frame { s.progress frame with shutter := true }
      (notifyShutter cfg s.device frame timestamp))
| .notifyError frame code =>
  some (s.advance frame ((s.progress frame).takeError code) (notifyError s.device frame code))

def System.start (requests : List Request) : System where
  device := registerAll Device.init requests
  progress _ := Progress.init

/- The frames are told apart, and each has a buffer. -/
structure WellFormed (requests : List Request) : Prop where
  frames : (requests.map Request.frame).Nodup
  buffers : ∀ q ∈ requests, 0 < q.numBuffers
  outputs : ∀ q ∈ requests, q.outputs.Nodup

--
-- The contract
--

/- The number that goes with metadata. -/
def NumberObeys (cfg : Config) (r : HalResult) : Prop :=
  cfg.since_3_2 →
    (cfg.mUsePartialResult = false → r.partial_result = 1) ∧
      (cfg.mUsePartialResult → 1 ≤ r.partial_result ∧ r.partial_result ≤ cfg.mNumPartialResults)

/-
  The metadata that ends the results of a frame: those of earlier frames of its kind are not to come
  any more. If the frame does not fail it is not empty, and it or a part has the timestamp of the
  sensor.
-/
def FinalObeys (requests : List Request) (progress : Nat → Progress) (q : Request)
    (m : CameraMetadata) : Prop :=
  (∀ g ∈ requests, g.reprocess = q.reprocess →
      (progress g.frame).final.isSome → g.frame < q.frame) ∧
    (q.fails = false →
      m ≠ [] ∧ ∃ e ∈ (progress q.frame).parts.flatten ++ m, e.tag = .ANDROID_SENSOR_TIMESTAMP)

/- The metadata of a result, partial or not. -/
def MetadataObeys (cfg : Config) (requests : List Request) (progress : Nat → Progress) (q : Request)
    (r : HalResult) (m : CameraMetadata) : Prop :=
  (progress q.frame).final = none ∧ NumberObeys cfg r ∧
    (∀ e ∈ m, e.tag = .ANDROID_SENSOR_TIMESTAMP → e.data = [q.timestamp]) ∧
    (isPartialResult cfg r = false → FinalObeys requests progress q m)

/- A result gives back buffers of its request, each once. -/
def ResultObeys (cfg : Config) (requests : List Request) (progress : Nat → Progress) (q : Request)
    (r : HalResult) : Prop :=
  (r.result.isSome ∨ r.output_buffers ≠ [] ∨ r.input_buffer.isSome) ∧
    ((progress q.frame).outputs ++ r.output_buffers).Nodup ∧
    (∀ b ∈ r.output_buffers, b ∈ q.outputs) ∧
    (r.input_buffer.isSome → q.reprocess ∧ (progress q.frame).input = false) ∧
    ∀ m ∈ r.result, MetadataObeys cfg requests progress q r m

/- The one shutter of a frame, in the order of the frames. -/
def ShutterObeys (requests : List Request) (progress : Nat → Progress) (q : Request)
    (timestamp : Int) : Prop :=
  timestamp = q.timestamp ∧ timestamp ≠ 0 ∧
    ∀ g ∈ requests, g.reprocess = q.reprocess → (progress g.frame).shutter → g.frame < q.frame

def ErrorObeys (q : Request) : ErrorCode → Prop
| .ERROR_BUFFER => True
| .ERROR_REQUEST | .ERROR_RESULT => q.fails
| .OK | .ERROR_DEVICE => False

def Obeys (cfg : Config) (requests : List Request) (s : System) : Event → Prop
| .processCaptureResult r =>
  ∃ q ∈ requests, q.frame = r.frame_number ∧ ResultObeys cfg requests s.progress q r
| .notifyShutter frame timestamp =>
  ∃ q ∈ requests, q.frame = frame ∧ ShutterObeys requests s.progress q timestamp
| .notifyError frame code => ∃ q ∈ requests, q.frame = frame ∧ ErrorObeys q code

instance (cfg : Config) (r : HalResult) : Decidable (NumberObeys cfg r) :=
  inferInstanceAs (Decidable (_ → _))

instance (requests : List Request) (progress : Nat → Progress) (q : Request) (m : CameraMetadata) :
    Decidable (FinalObeys requests progress q m) :=
  inferInstanceAs (Decidable (_ ∧ _))

instance (cfg : Config) (requests : List Request) (progress : Nat → Progress) (q : Request)
    (r : HalResult) (m : CameraMetadata) : Decidable (MetadataObeys cfg requests progress q r m) :=
  inferInstanceAs (Decidable (_ ∧ _))

instance (cfg : Config) (requests : List Request) (progress : Nat → Progress) (q : Request)
    (r : HalResult) : Decidable (ResultObeys cfg requests progress q r) :=
  inferInstanceAs (Decidable (_ ∧ _))

instance (requests : List Request) (progress : Nat → Progress) (q : Request) (timestamp : Int) :
    Decidable (ShutterObeys requests progress q timestamp) :=
  inferInstanceAs (Decidable (_ ∧ _))

instance (q : Request) : ∀ code, Decidable (ErrorObeys q code)
| .ERROR_BUFFER => isTrue trivial
| .ERROR_REQUEST => inferInstanceAs (Decidable (q.fails = true))
| .ERROR_RESULT => inferInstanceAs (Decidable (q.fails = true))
| .OK => isFalse id
| .ERROR_DEVICE => isFalse id

instance (cfg : Config) (requests : List Request) : ∀ s e, Decidable (Obeys cfg requests s e)
| s, .processCaptureResult r =>
  inferInstanceAs (Decidable
    (∃ q ∈ requests, q.frame = r.frame_number ∧ ResultObeys cfg requests s.progress q r))
| s, .notifyShutter frame timestamp =>
  inferInstanceAs (Decidable
    (∃ q ∈ requests, q.frame = frame ∧ ShutterObeys requests s.progress q timestamp))
| _, .notifyError frame code =>
  inferInstanceAs (Decidable (∃ q ∈ requests, q.frame = frame ∧ ErrorObeys q code))

end Camera3Device

end FrameworksAv
