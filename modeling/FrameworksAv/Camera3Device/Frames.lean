import FrameworksAv.Camera3Device.Contract

/-
  What the device has of one frame.

  Each function of the device changes what it has of the frame it is called for, and leaves the
  other frames alone. The numbers that order the frames are the only thing that frames of one kind
  share.

  The request of a frame after a result.

  Each piece of `processCaptureResult` is said in one equation, and they are put together for a
  result that obeys.

  Main declarations:
    * `View`, `Device.view`
    * `sendCaptureResult_cases`
    * `afterResult_eq`
    * `processCaptureResult_eq`
-/

--
-- Views
--

namespace FrameworksAv

namespace Camera3Device

@[ext] structure View where
  entry : Option InFlightRequest
  returned : List Returned
  finals : List CaptureResult
  shutters : List (Nat × Int)
  errors : List Nat

def Device.view (d : Device) (frame : Nat) : View where
  entry := d.mInFlightMap.lookup frame
  returned := d.returned.filter fun x => x.frame = frame
  finals := d.mResultQueue.filter fun x => x.isFinal && x.frame = frame
  shutters := d.shutters.filter fun x => x.1 = frame
  errors := d.errors.filter fun x => x = frame

/- The change of one frame. -/
def Only (frame : Nat) (f : View → View) (d e : Device) : Prop :=
  ∀ g, e.view g = if g = frame then f (d.view g) else d.view g

theorem Only.here {frame : Nat} {f : View → View} {d e : Device} (hOnly : Only frame f d e) :
    e.view frame = f (d.view frame) := by
  rw [hOnly frame, if_pos rfl]

theorem Only.other {frame g : Nat} {f : View → View} {d e : Device} (hOnly : Only frame f d e)
    (hNe : g ≠ frame) : e.view g = d.view g := by
  rw [hOnly g, if_neg hNe]

theorem Only.trans {frame : Nat} {f h : View → View} {c d e : Device} (hFirst : Only frame f c d)
    (hSecond : Only frame h d e) : Only frame (h ∘ f) c e := by
  intro g
  rw [hSecond g, hFirst g]
  split
  · rfl
  · rfl

theorem edit_only (d : Device) (frame : Nat) (request : InFlightRequest) :
    Only frame (fun v => { v with entry := some request }) d
      (d.edit frame request) := by
  intro g
  simp only [Device.view, Device.edit, KeyedVector.lookup_add]
  split
  · rfl
  · rfl

theorem SET_ERR_only (d : Device) (frame : Nat) :
    Only frame (fun v => { v with errors := v.errors ++ [frame] }) d
      (SET_ERR d frame) := by
  intro g
  simp only [Device.view, SET_ERR, List.filter_append]
  by_cases hSame : g = frame
  · subst hSame
    simp
  · simp [hSame, Ne.symm hSame]

theorem returnOutputBuffers_only (d : Device) (frame : Nat) (buffers : List BufferRef)
    (timestamp : Int) :
    Only frame
      (fun v =>
        { v with
          returned := v.returned ++ buffers.map fun b => ⟨frame, b, timestamp⟩ })
      d (returnOutputBuffers d frame buffers timestamp) := by
  intro g
  simp only [Device.view, returnOutputBuffers, List.filter_append]
  by_cases hSame : g = frame
  · subst hSame
    simp [List.filter_map, Function.comp_def]
  · simp [hSame, List.filter_map, Function.comp_def, Ne.symm hSame]

theorem setNextResult_view (d : Device) (reprocess : Bool) (next g : Nat) :
    (d.setNextResult reprocess next).view g = d.view g := by
  unfold Device.setNextResult
  split
  · rfl
  · rfl

theorem setNextShutter_view (d : Device) (reprocess : Bool) (next g : Nat) :
    (d.setNextShutter reprocess next).view g = d.view g := by
  unfold Device.setNextShutter
  split
  · rfl
  · rfl

theorem returnInputBuffer_view (d : Device) (hasInputBuffer : Bool) (result : HalResult) (g : Nat) :
    (returnInputBuffer d hasInputBuffer result).view g = d.view g := by
  unfold returnInputBuffer
  split
  · rfl
  · split
    · rfl
    · rfl

theorem remove_only (d : Device) (frame : Nat) :
    Only frame (fun v => { v with entry := none }) d
      { d with mInFlightMap := d.mInFlightMap.remove frame } := by
  intro g
  simp only [Device.view, KeyedVector.lookup_remove]
  split
  · rfl
  · rfl

/- Results that are not final do not count. -/
theorem push_partial_view (d : Device) {x : CaptureResult} (hPartial : x.isFinal = false)
    (g : Nat) :
    ({ d with mResultQueue := d.mResultQueue ++ [x] } :
        Device).view g =
      d.view g := by
  simp [Device.view, hPartial]

theorem push_final_only (d : Device) {x : CaptureResult} (hFinal : x.isFinal = true) :
    Only x.frame (fun v => { v with finals := v.finals ++ [x] })
      d { d with mResultQueue := d.mResultQueue ++ [x] } := by
  intro g
  simp only [Device.view, List.filter_append]
  by_cases hSame : g = x.frame
  · subst hSame
    simp [hFinal]
  · simp [hSame, Ne.symm hSame, hFinal]

theorem note_shutter_only (d : Device) (frame : Nat) (timestamp : Int) :
    Only frame
      (fun v =>
        { v with shutters := v.shutters ++ [(frame, timestamp)] })
      d { d with shutters := d.shutters ++ [(frame, timestamp)] } := by
  intro g
  simp only [Device.view, List.filter_append]
  by_cases hSame : g = frame
  · subst hSame
    simp
  · simp [hSame, Ne.symm hSame]

--
-- What the frames share
--

/- The next numbers of each kind and all final results. -/
structure Shared where
  nextResult : Bool → Nat
  nextShutter : Bool → Nat
  finals : List CaptureResult

def Device.shared (d : Device) : Shared where
  nextResult := d.nextResult
  nextShutter := d.nextShutter
  finals := d.mResultQueue.filter fun x => x.isFinal

theorem returnInputBuffer_shared (d : Device) (hasInputBuffer : Bool) (result : HalResult) :
    (returnInputBuffer d hasInputBuffer result).shared = d.shared := by
  unfold returnInputBuffer
  split
  · rfl
  · split
    · rfl
    · rfl

theorem push_partial_shared (d : Device) {x : CaptureResult} (hPartial : x.isFinal = false) :
    ({ d with mResultQueue := d.mResultQueue ++ [x] } :
        Device).shared =
      d.shared := by
  have hFinals :
      (d.mResultQueue ++ [x]).filter (fun x => x.isFinal) =
        d.mResultQueue.filter fun x => x.isFinal := by
    simp [hPartial]
  unfold Device.shared
  rw [hFinals]
  exact rfl

theorem setNextResult_shared (d : Device) (reprocess : Bool) (next : Nat) :
    (d.setNextResult reprocess next).shared =
      { d.shared with
        nextResult := fun kind =>
          if kind = reprocess then next
          else d.nextResult kind } := by
  unfold Device.setNextResult Device.shared
  cases reprocess with
  | true =>
    simp only [if_true]
    congr 1
    funext kind
    cases kind <;> rfl
  | false =>
    simp only [Bool.false_eq_true, if_false]
    congr 1
    funext kind
    cases kind <;> rfl

theorem setNextShutter_shared (d : Device) (reprocess : Bool) (next : Nat) :
    (d.setNextShutter reprocess next).shared =
      { d.shared with
        nextShutter := fun kind =>
          if kind = reprocess then next
          else d.nextShutter kind } := by
  unfold Device.setNextShutter Device.shared
  cases reprocess with
  | true =>
    simp only [if_true]
    congr 1
    funext kind
    cases kind <;> rfl
  | false =>
    simp only [Bool.false_eq_true, if_false]
    congr 1
    funext kind
    cases kind <;> rfl

theorem push_final_shared (d : Device) {x : CaptureResult} (hFinal : x.isFinal = true) :
    ({ d with mResultQueue := d.mResultQueue ++ [x] } :
        Device).shared =
      { d.shared with finals := d.shared.finals ++ [x] } := by
  have hFinals :
      (d.mResultQueue ++ [x]).filter (fun x => x.isFinal) =
        (d.mResultQueue.filter fun x => x.isFinal) ++ [x] := by
    simp [hFinal]
  unfold Device.shared
  rw [hFinals]
  exact rfl

--
-- Sending and removing
--

/- The number after a final result or a shutter. -/
def bump (next : Bool → Nat) (reprocess : Bool) (frame : Nat) : Bool → Nat :=
  fun kind => if kind = reprocess then nextFrame frame else next kind

/- A frame in its order is sent, if there is something. -/
theorem sendCaptureResult_cases (cfg : Config) {d : Device} {frame : Nat}
    {request : InFlightRequest} (hOrder : d.nextResult request.hasInputBuffer ≤ frame)
    (m collected : CameraMetadata) :
    m = [] ∧ sendCaptureResult cfg d frame request m collected = d ∨
      m ≠ [] ∧ find (completeMetadata cfg frame m collected) .ANDROID_SENSOR_TIMESTAMP = [] ∧
        sendCaptureResult cfg d frame request m collected =
          SET_ERR (d.setNextResult request.hasInputBuffer (nextFrame frame)) frame ∨
      m ≠ [] ∧ find (completeMetadata cfg frame m collected) .ANDROID_SENSOR_TIMESTAMP ≠ [] ∧
        sendCaptureResult cfg d frame request m collected =
          { d.setNextResult request.hasInputBuffer (nextFrame frame) with
            mResultQueue :=
              (d.setNextResult request.hasInputBuffer (nextFrame frame)).mResultQueue ++
                [finalResult cfg frame request m collected] } := by
  unfold sendCaptureResult
  by_cases hEmpty : m = []
  · exact Or.inl ⟨hEmpty, if_pos hEmpty⟩
  · right
    rw [if_neg hEmpty, if_neg (Nat.not_lt.mpr hOrder)]
    by_cases hFound : find (completeMetadata cfg frame m collected) .ANDROID_SENSOR_TIMESTAMP = []
    · exact Or.inl ⟨hEmpty, hFound, if_pos hFound⟩
    · exact Or.inr ⟨hEmpty, hFound, if_neg hFound⟩

theorem removeRequest_shared (d : Device) (frame : Nat) (request : InFlightRequest) :
    (removeRequest d frame request).shared = d.shared := by
  unfold removeRequest
  split
  · rfl
  · rfl

theorem removeIfReady_cases {d : Device} {frame : Nat} {request : InFlightRequest}
    (hEntry : d.mInFlightMap.lookup frame = some request) :
    request.isReady = false ∧ removeInFlightRequestIfReadyLocked d frame = d ∨
      request.isReady = true ∧
        removeInFlightRequestIfReadyLocked d frame = removeRequest d frame request := by
  unfold removeInFlightRequestIfReadyLocked
  rw [hEntry]
  cases hReady : request.isReady with
  | false => exact Or.inl ⟨rfl, by simp [hReady]⟩
  | true => exact Or.inr ⟨rfl, by simp [hReady]⟩

--
-- The request after a result
--

/- The request behind the checks of `processCaptureResult`. -/
def InFlightRequest.afterResult (cfg : Config) (d : Device) (request : InFlightRequest)
    (result : HalResult) : InFlightRequest :=
  noteTimestamp
    (countBuffers
      (takeCollected cfg (takePartial cfg d (noteCount request result) result).2 result).2 result)
    result

/- The parts that go with final metadata. -/
def collectedFor (cfg : Config) (d : Device) (request : InFlightRequest)
    (result : HalResult) : CameraMetadata :=
  (takeCollected cfg (takePartial cfg d (noteCount request result) result).2 result).1

theorem noteCount_eq (request : InFlightRequest) (result : HalResult) :
    ∃ extras, noteCount request result = { request with resultExtras := extras } := by
  unfold noteCount
  split
  · exact ⟨_, rfl⟩
  · exact ⟨request.resultExtras, rfl⟩

/- The parts with the one that the result carries, if any. -/
def collectedAfter (cfg : Config) (request : InFlightRequest)
    (result : HalResult) : CameraMetadata :=
  if isPartialResult cfg result then collect cfg request.collectedResult (result.result.getD [])
  else request.collectedResult

theorem takePartial_eq (cfg : Config) (d : Device) (request : InFlightRequest)
    (result : HalResult) :
    ∃ sent, (takePartial cfg d request result).2 =
      { request with
        collectedResult := collectedAfter cfg request result
        haveSent3A := sent } := by
  unfold takePartial collectedAfter
  by_cases hPart : isPartialResult cfg result
  · simp only [hPart, if_true]
    split
    · exact ⟨true, rfl⟩
    · exact ⟨request.haveSent3A, rfl⟩
  · simp only [hPart, Bool.false_eq_true, if_false]
    exact ⟨request.haveSent3A, rfl⟩

theorem takePartial_view (cfg : Config) (d : Device) (request : InFlightRequest)
    (result : HalResult) (g : Nat) : (takePartial cfg d request result).1.view g = d.view g := by
  unfold takePartial
  split
  · simp only
    split
    · exact push_partial_view d rfl g
    · rfl
  · rfl

theorem takePartial_shared (cfg : Config) (d : Device) (request : InFlightRequest)
    (result : HalResult) : (takePartial cfg d request result).1.shared = d.shared := by
  unfold takePartial
  split
  · simp only
    split
    · exact push_partial_shared d rfl
    · rfl
  · rfl

theorem takeCollected_eq (cfg : Config) (request : InFlightRequest) (result : HalResult) :
    (takeCollected cfg request result).2 =
      { request with
        collectedResult := if (finalMetadata cfg result).isSome && cfg.mUsePartialResult then []
          else request.collectedResult
        haveResultMetadata :=
          request.haveResultMetadata || (finalMetadata cfg result).isSome } := by
  unfold takeCollected
  cases hFinal : (finalMetadata cfg result).isSome with
  | false => simp
  | true =>
    cases hPartial : cfg.mUsePartialResult with
    | false => simp
    | true => simp

theorem takeCollected_fst {cfg : Config} {request : InFlightRequest} {result : HalResult}
    (hFinal : (finalMetadata cfg result).isSome) (hPartial : cfg.mUsePartialResult) :
    (takeCollected cfg request result).1 = request.collectedResult := by
  simp [takeCollected, hFinal, hPartial]

/- The timestamp of the sensor in the result, if it has one. -/
def sensorAfter (request : InFlightRequest) (result : HalResult) : Int :=
  match find (result.result.getD []) .ANDROID_SENSOR_TIMESTAMP with
  | [timestamp] => timestamp
  | _ => request.sensorTimestamp

theorem noteTimestamp_eq (request : InFlightRequest) (result : HalResult) :
    noteTimestamp request result =
      { request with
        sensorTimestamp := sensorAfter request result } := by
  unfold noteTimestamp sensorAfter
  generalize find (result.result.getD []) .ANDROID_SENSOR_TIMESTAMP = data
  cases data with
  | nil => rfl
  | cons x rest =>
    cases rest with
    | nil => rfl
    | cons y rest => rfl

/- The buffers that the result gives back. -/
def buffersOf (request : InFlightRequest) (result : HalResult) : Nat :=
  result.output_buffers.length +
    (if result.input_buffer.isSome && request.hasInputBuffer then 1 else 0)

theorem countBuffers_eq (request : InFlightRequest) (result : HalResult) :
    countBuffers request result =
      { request with
        numBuffersLeft := request.numBuffersLeft - buffersOf request result } := by
  unfold countBuffers buffersOf
  congr 1
  split
  · push_cast
    omega
  · push_cast
    omega

theorem afterResult_eq (cfg : Config) (d : Device) (request : InFlightRequest)
    (result : HalResult) :
    ∃ extras sent,
      request.afterResult cfg d result =
        { request with
          resultExtras := extras
          haveSent3A := sent
          collectedResult := if (finalMetadata cfg result).isSome && cfg.mUsePartialResult then []
            else collectedAfter cfg request result
          haveResultMetadata := request.haveResultMetadata || (finalMetadata cfg result).isSome
          numBuffersLeft := request.numBuffersLeft - buffersOf request result
          sensorTimestamp := sensorAfter request result } := by
  rcases noteCount_eq request result with ⟨extras, hCount⟩
  rcases takePartial_eq cfg d (noteCount request result) result with ⟨sent, hPartial⟩
  refine ⟨extras, sent, ?_⟩
  unfold InFlightRequest.afterResult
  rw [noteTimestamp_eq, countBuffers_eq, takeCollected_eq, hPartial, hCount]
  exact rfl

/- The entry that a result leaves, before it may be removed. -/
def InFlightRequest.kept (cfg : Config) (d : Device) (request : InFlightRequest)
    (result : HalResult) : InFlightRequest :=
  keepPending cfg (request.afterResult cfg d result) (collectedFor cfg d request result) result

theorem malformed_of_obeys {cfg : Config} {result : HalResult}
    (hNumber : result.result.isSome → NumberObeys cfg result) : malformed cfg result = false := by
  unfold malformed
  cases hPartial : cfg.mUsePartialResult with
  | false => simp
  | true =>
    cases hSome : result.result.isSome with
    | false => simp
    | true =>
      cases hSince : cfg.since_3_2 with
      | false => simp
      | true =>
        have hRange := (hNumber hSome hSince).2 hPartial
        simp
        omega

theorem takePartial_have (cfg : Config) (d : Device) (request : InFlightRequest)
    (result : HalResult) :
    (takePartial cfg d (noteCount request result) result).2.haveResultMetadata =
      request.haveResultMetadata := by
  rcases noteCount_eq request result with ⟨extras, hCount⟩
  rcases takePartial_eq cfg d (noteCount request result) result with ⟨sent, hPartial⟩
  rw [hPartial, hCount]

theorem countBuffers_left (cfg : Config) (d : Device) (request : InFlightRequest)
    (result : HalResult) :
    (countBuffers
      (takeCollected cfg (takePartial cfg d (noteCount request result) result).2 result).2
      result).numBuffersLeft = request.numBuffersLeft - buffersOf request result := by
  rcases noteCount_eq request result with ⟨extras, hCount⟩
  rcases takePartial_eq cfg d (noteCount request result) result with ⟨sent, hPartial⟩
  rw [countBuffers_eq, takeCollected_eq, hPartial, hCount]
  exact rfl

theorem acceptResult_eq (cfg : Config) (d : Device) {request : InFlightRequest} {result : HalResult}
    (hOnce : (finalMetadata cfg result).isSome → request.haveResultMetadata = false)
    (hLeft : (buffersOf request result : Int) ≤ request.numBuffersLeft) :
    acceptResult cfg d (noteCount request result) result =
      returnInputBuffer
        (removeInFlightRequestIfReadyLocked
          (sendAtOnce cfg
            ((takePartial cfg d (noteCount request result)
              result).1.edit result.frame_number (request.kept cfg d result))
            (request.afterResult cfg d result) (collectedFor cfg d request result) result)
          result.frame_number)
        (request.afterResult cfg d result).hasInputBuffer result := by
  unfold acceptResult
  have hTwice :
      ¬((finalMetadata cfg result).isSome ∧
        (takePartial cfg d (noteCount request result) result).2.haveResultMetadata) := by
    rintro ⟨hFinal, hHave⟩
    rw [takePartial_have, hOnce hFinal] at hHave
    contradiction
  have hMany :
      ¬(countBuffers
        (takeCollected cfg (takePartial cfg d (noteCount request result) result).2 result).2
        result).numBuffersLeft < 0 := by
    rw [countBuffers_left]
    omega
  simp only [if_neg hTwice, if_neg hMany]
  exact rfl

/- What the device does with a result that obeys. -/
theorem processCaptureResult_eq (cfg : Config) {d : Device} {request : InFlightRequest}
    {result : HalResult} (hEntry : d.mInFlightMap.lookup result.frame_number = some request)
    (hCarries : result.result.isSome ∨ result.output_buffers ≠ [] ∨ result.input_buffer.isSome)
    (hNumber : result.result.isSome → NumberObeys cfg result)
    (hOnce : (finalMetadata cfg result).isSome → request.haveResultMetadata = false)
    (hLeft : (buffersOf request result : Int) ≤ request.numBuffersLeft) :
    processCaptureResult cfg d result =
      returnInputBuffer
        (removeInFlightRequestIfReadyLocked
          (sendAtOnce cfg
            ((takePartial cfg d (noteCount request result)
              result).1.edit result.frame_number (request.kept cfg d result))
            (request.afterResult cfg d result) (collectedFor cfg d request result) result)
          result.frame_number)
        (request.afterResult cfg d result).hasInputBuffer result := by
  have hEmpty :
      ¬(result.result = none ∧ result.output_buffers = [] ∧ result.input_buffer = none) := by
    rintro ⟨hNone, hNil, hInput⟩
    rcases hCarries with hSome | hSome | hSome
    · simp [hNone] at hSome
    · exact hSome hNil
    · simp [hInput] at hSome
  have hOther :
      ¬((!cfg.mUsePartialResult) = true ∧ cfg.since_3_2 = true ∧ result.result.isSome = true ∧
        result.partial_result ≠ 1) := by
    rintro ⟨hPartial, hSince, hSome, hNe⟩
    rw [Bool.not_eq_true'] at hPartial
    exact hNe ((hNumber hSome hSince).1 hPartial)
  unfold processCaptureResult
  simp only [if_neg hEmpty, if_neg hOther, hEntry,
    malformed_of_obeys hNumber, Bool.false_eq_true, if_false]
  exact acceptResult_eq cfg d hOnce hLeft

end Camera3Device

end FrameworksAv
