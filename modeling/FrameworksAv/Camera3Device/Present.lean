import Mathlib.Data.List.Perm.Subperm
import FrameworksAv.Camera3Device.Frames

/-
  The entry of a frame and the progress of the HAL with it.

  `Sound` is what the contract makes of the progress, and `Present` what the device knows of a frame
  in flight. Both are kept by a result, a shutter and an error.

  Main declarations:
    * `Sound`, `Present`
    * `Sound.takeResult`
    * `Present.takeResult`, `Present.takeShutter`
-/

--
-- Metadata that was collected
--

namespace FrameworksAv

namespace Camera3Device

theorem mem_of_mem_erase {m : CameraMetadata} {tag : Tag} {e : Entry} (hMem : e ∈ erase m tag) :
    e ∈ m :=
  List.mem_of_mem_eraseP hMem

theorem mem_erase_of_ne {m : CameraMetadata} {tag : Tag} {e : Entry} (hNe : e.tag ≠ tag)
    (hMem : e ∈ m) : e ∈ erase m tag := by
  unfold erase
  rw [List.mem_eraseP_of_neg]
  · exact hMem
  · simpa using hNe

theorem mem_of_mem_collect {cfg : Config} {collected m : CameraMetadata} {e : Entry}
    (hMem : e ∈ collect cfg collected m) : e ∈ collected ∨ e ∈ m := by
  unfold collect at hMem
  split at hMem
  · exact List.mem_append.mp hMem
  · exact List.mem_append.mp (mem_of_mem_erase hMem)

theorem mem_collect {cfg : Config} {collected m : CameraMetadata} {e : Entry}
    (hNe : cfg.since_3_2 = false → e.tag ≠ .ANDROID_QUIRKS_PARTIAL_RESULT)
    (hMem : e ∈ collected ∨ e ∈ m) : e ∈ collect cfg collected m := by
  unfold collect
  split
  · exact List.mem_append.mpr hMem
  · rename_i hOld
    exact mem_erase_of_ne (hNe (Bool.eq_false_iff.mpr hOld)) (List.mem_append.mpr hMem)

theorem collected_append (cfg : Config) (p : Progress) (m : CameraMetadata) :
    (p.parts ++ [m]).foldl (collect cfg) [] = collect cfg (p.collected cfg) m := by
  rw [List.foldl_append]
  exact rfl

/- What is collected came in a part. -/
theorem mem_foldl_collect (cfg : Config) (parts : List CameraMetadata) {e : Entry}
    {m : CameraMetadata} (hMem : e ∈ parts.foldl (collect cfg) m) : e ∈ m ∨ e ∈ parts.flatten := by
  induction parts generalizing m with
  | nil => exact Or.inl hMem
  | cons part parts ih =>
    rcases ih hMem with hHead | hTail
    · rcases mem_of_mem_collect hHead with hOld | hPart
      · exact Or.inl hOld
      · exact Or.inr (List.mem_flatten.mpr ⟨part, List.mem_cons_self, hPart⟩)
    · refine Or.inr ?_
      rw [List.flatten_cons]
      exact List.mem_append_right part hTail

/- Whatever came in a part is collected, but for the mark. -/
theorem foldl_collect_mem (cfg : Config) (parts : List CameraMetadata) {e : Entry}
    {m : CameraMetadata} (hNe : cfg.since_3_2 = false → e.tag ≠ .ANDROID_QUIRKS_PARTIAL_RESULT)
    (hMem : e ∈ m ∨ e ∈ parts.flatten) : e ∈ parts.foldl (collect cfg) m := by
  induction parts generalizing m with
  | nil =>
    rcases hMem with hOld | hPart
    · exact hOld
    · simp at hPart
  | cons part parts ih =>
    refine ih ?_
    rw [List.flatten_cons, List.mem_append] at hMem
    rcases hMem with hOld | hPart | hRest
    · exact Or.inl (mem_collect hNe (Or.inl hOld))
    · exact Or.inl (mem_collect hNe (Or.inr hPart))
    · exact Or.inr hRest

--
-- The progress
--

/- The metadata that came for a frame. -/
def Progress.metadata (p : Progress) : CameraMetadata :=
  p.parts.flatten ++ p.final.getD []

structure Sound (cfg : Config) (q : Request) (p : Progress) : Prop where
  nodup : p.outputs.Nodup
  outputs : ∀ b ∈ p.outputs, b ∈ q.outputs
  input : p.input → q.reprocess
  parts : p.parts ≠ [] → cfg.mUsePartialResult
  sensor : ∀ e ∈ p.metadata, e.tag = .ANDROID_SENSOR_TIMESTAMP → e.data = [q.timestamp]
  final :
    q.fails = false → ∀ m ∈ p.final, m ≠ [] ∧ ∃ e ∈ p.metadata, e.tag = .ANDROID_SENSOR_TIMESTAMP
  shutter : p.shutter → q.timestamp ≠ 0
  failed : p.failed → q.fails ∧ p.status ≠ .OK

theorem Sound.init (cfg : Config) (q : Request) : Sound cfg q Progress.init := by
  constructor <;> simp [Progress.init, Progress.metadata]

/- The buffers of a result are among those that are left. -/
theorem Sound.length_le {cfg : Config} {q : Request} {p : Progress} (hSound : Sound cfg q p)
    {buffers : List BufferRef} (hNodup : (p.outputs ++ buffers).Nodup)
    (hMem : ∀ b ∈ buffers, b ∈ q.outputs) :
    p.outputs.length + buffers.length ≤ q.outputs.length := by
  rw [← List.length_append]
  refine (List.subperm_of_subset hNodup ?_).length_le
  intro b hb
  rcases List.mem_append.mp hb with hOld | hNew
  · exact hSound.outputs b hOld
  · exact hMem b hNew

theorem metadata_takeResult (cfg : Config) {p : Progress} {r : HalResult}
    (hOnce : r.result.isSome → p.final = none) :
    (p.takeResult cfg r).metadata = p.metadata ++ r.result.getD [] := by
  unfold Progress.metadata Progress.takeResult finalMetadata
  cases hResult : r.result with
  | none => simp
  | some m =>
    have hNone := hOnce (by rw [hResult]; rfl)
    cases isPartialResult cfg r with
    | true => simp [hNone]
    | false => simp [hNone]

theorem isPartialResult_uses {cfg : Config} {r : HalResult}
    (hPartial : isPartialResult cfg r = true) : cfg.mUsePartialResult ∧ r.result.isSome := by
  unfold isPartialResult at hPartial
  cases hResult : r.result with
  | none => simp [hResult] at hPartial
  | some m =>
    rw [hResult] at hPartial
    simp only [Bool.and_eq_true] at hPartial
    exact ⟨hPartial.1, rfl⟩

theorem finalMetadata_some {cfg : Config} {r : HalResult} {m : CameraMetadata}
    (hFinal : finalMetadata cfg r = some m) :
    isPartialResult cfg r = false ∧ r.result = some m := by
  unfold finalMetadata at hFinal
  split at hFinal
  · contradiction
  case isFalse hPartial =>
      exact ⟨Bool.eq_false_iff.mpr hPartial, hFinal⟩

theorem Sound.takeResult {cfg : Config} {requests : List Request} {progress : Nat → Progress}
    {q : Request} {r : HalResult} (hSound : Sound cfg q (progress q.frame))
    (hObeys : ResultObeys cfg requests progress q r) :
    Sound cfg q ((progress q.frame).takeResult cfg r) := by
  rcases hObeys with ⟨-, hNodup, hMem, hInput, hMetadata⟩
  have hOnce : r.result.isSome → (progress q.frame).final = none := by
    intro hSome
    rcases Option.isSome_iff_exists.mp hSome with ⟨m, hm⟩
    exact (hMetadata m hm).1
  have hAll := metadata_takeResult cfg hOnce
  refine
    { nodup := hNodup
      outputs := ?_
      input := ?_
      parts := ?_
      sensor := ?_
      final := ?_
      shutter := hSound.shutter
      failed := hSound.failed }
  · intro b hb
    rcases List.mem_append.mp hb with hOld | hNew
    · exact hSound.outputs b hOld
    · exact hMem b hNew
  · intro hCame
    rcases Bool.or_eq_true_iff.mp hCame with hOld | hNew
    · exact hSound.input hOld
    · exact (hInput hNew).1
  · intro hNe
    by_cases hPartial : isPartialResult cfg r = true
    · exact (isPartialResult_uses hPartial).1
    · refine hSound.parts ?_
      simpa [Progress.takeResult, hPartial] using hNe
  · intro e he hTag
    rw [hAll] at he
    rcases List.mem_append.mp he with hOld | hNew
    · exact hSound.sensor e hOld hTag
    · cases hResult : r.result with
      | none => simp [hResult] at hNew
      | some m =>
        rw [hResult] at hNew
        exact (hMetadata m hResult).2.2.1 e hNew hTag
  · intro hGood m hm
    rw [hAll]
    cases hFinal : finalMetadata cfg r with
    | none =>
      have hOld : m ∈ (progress q.frame).final := by
        simpa [Progress.takeResult, hFinal] using hm
      rcases hSound.final hGood m hOld with ⟨hNe, e, he, hTag⟩
      exact ⟨hNe, e, List.mem_append_left _ he, hTag⟩
    | some m' =>
      have hSame : m' = m := by
        simpa [Progress.takeResult, hFinal] using hm
      subst hSame
      rcases finalMetadata_some hFinal with ⟨hPartial, hResult⟩
      rcases hMetadata m' hResult with ⟨hNone, -, -, hObeys⟩
      rcases (hObeys hPartial).2 hGood with ⟨hNe, e, he, hTag⟩
      refine ⟨hNe, e, ?_, hTag⟩
      simpa [Progress.metadata, hNone, hResult] using he

theorem Sound.takeShutter {cfg : Config} {q : Request} {p : Progress} (hSound : Sound cfg q p)
    (hTime : q.timestamp ≠ 0) : Sound cfg q { p with shutter := true } :=
  { hSound with shutter := fun _ => hTime }

theorem Sound.takeError {cfg : Config} {q : Request} {p : Progress} {code : ErrorCode}
    (hSound : Sound cfg q p) (hObeys : ErrorObeys q code) : Sound cfg q (p.takeError code) := by
  refine { hSound with failed := ?_ }
  intro hFailed
  rcases Bool.or_eq_true_iff.mp hFailed with hOld | hNew
  · refine ⟨(hSound.failed hOld).1, ?_⟩
    intro hOk
    have hCode : code = .OK := hOk
    subst hCode
    exact hObeys
  · cases code with
    | OK => exact hObeys.elim
    | ERROR_DEVICE => exact hObeys.elim
    | ERROR_BUFFER => simp at hNew
    | ERROR_REQUEST => exact ⟨hObeys, nofun⟩
    | ERROR_RESULT => exact ⟨hObeys, nofun⟩

--
-- The entry
--

/- The buffers of the request that came back. -/
def Progress.numReturned (p : Progress) : Nat :=
  p.outputs.length + (if p.input then 1 else 0)

structure Present (cfg : Config) (q : Request) (p : Progress) (r : InFlightRequest) : Prop where
  status : r.requestStatus = p.status
  shutter : r.shutterTimestamp = if p.shutter then q.timestamp else 0
  sensor : (∃ e ∈ p.metadata, e.tag = .ANDROID_SENSOR_TIMESTAMP) → r.sensorTimestamp = q.timestamp
  metadata : r.haveResultMetadata = p.final.isSome
  left : r.numBuffersLeft = (q.numBuffers : Int) - p.numReturned
  input : r.hasInputBuffer = q.reprocess
  override : r.aeTriggerCancelOverride = q.override
  pending : p.shutter = false → r.pendingMetadata = p.final.getD []
  collected :
    cfg.mUsePartialResult → p.shutter = false ∨ p.final = none → r.collectedResult = p.collected cfg
  buffers : r.pendingOutputBuffers = if p.shutter then [] else p.outputs

theorem Present.init (cfg : Config) (q : Request) :
    Present cfg q Progress.init
      (InFlightRequest.init q.numBuffers q.extras q.reprocess q.override) := by
  constructor <;>
    simp [Progress.init, InFlightRequest.init, Progress.metadata, Progress.numReturned,
      Progress.collected]

theorem Present.shutter_eq_zero {cfg : Config} {q : Request} {p : Progress} {r : InFlightRequest}
    (hPresent : Present cfg q p r) (hSound : Sound cfg q p) :
    r.shutterTimestamp = 0 ↔ p.shutter = false := by
  rw [hPresent.shutter]
  cases hShutter : p.shutter with
  | false => simp
  | true => simpa using hSound.shutter hShutter

/- The entry counts down to the last buffer. -/
theorem Present.left_eq_zero {cfg : Config} {q : Request} {p : Progress} {r : InFlightRequest}
    (hPresent : Present cfg q p r) (hSound : Sound cfg q p) :
    r.numBuffersLeft = 0 ↔ p.allBuffers q := by
  have hOutputs := (List.subperm_of_subset hSound.nodup hSound.outputs).length_le
  rw [hPresent.left]
  unfold Progress.allBuffers Progress.numReturned Request.numBuffers
  cases hInput : p.input with
  | true =>
    have hKind := hSound.input hInput
    simp only [hKind, if_true, forall_const, and_true]
    omega
  | false =>
    cases hKind : q.reprocess with
    | true =>
      simp only [Bool.false_eq_true, if_false, if_true, forall_const, and_false, iff_false]
      omega
    | false =>
      simp only [Bool.false_eq_true, if_false, false_implies, and_true]
      omega

theorem Present.isReady {cfg : Config} {q : Request} {p : Progress} {r : InFlightRequest}
    (hPresent : Present cfg q p r) (hSound : Sound cfg q p) :
    r.isReady = true ↔ p.allBuffers q ∧ (p.status ≠ .OK ∨ p.final.isSome ∧ p.shutter) := by
  have hShutter := hPresent.shutter_eq_zero hSound
  unfold InFlightRequest.isReady
  rw [Bool.and_eq_true, decide_eq_true_eq, hPresent.left_eq_zero hSound, hPresent.status,
    hPresent.metadata]
  simp only [ne_eq, hShutter, Bool.or_eq_true,
    decide_eq_true_eq, Bool.and_eq_true, Bool.not_eq_false]

/- The timestamps of an entry that is ready agree. -/
theorem Present.timestamps {cfg : Config} {q : Request} {p : Progress} {r : InFlightRequest}
    (hPresent : Present cfg q p r) (hSound : Sound cfg q p) (hGood : q.fails = false)
    (hFinal : p.final.isSome) (hShutter : p.shutter) : r.sensorTimestamp = r.shutterTimestamp := by
  rcases Option.isSome_iff_exists.mp hFinal with ⟨m, hm⟩
  rw [hPresent.sensor (hSound.final hGood m hm).2, hPresent.shutter, if_pos hShutter]

theorem Present.takeError {cfg : Config} {q : Request} {p : Progress} {r : InFlightRequest}
    (hPresent : Present cfg q p r) (code : ErrorCode) :
    Present cfg q (p.takeError code) { r with requestStatus := code } :=
  { hPresent with status := rfl }

theorem Present.takeShutter {cfg : Config} {q : Request} {p : Progress} {r : InFlightRequest}
    (hPresent : Present cfg q p r) :
    Present cfg q { p with shutter := true }
      { r with
        shutterTimestamp := q.timestamp
        pendingOutputBuffers := [] } := by
  refine
    { status := hPresent.status
      shutter := rfl
      sensor := hPresent.sensor
      metadata := hPresent.metadata
      left := hPresent.left
      input := hPresent.input
      override := hPresent.override
      pending := nofun
      collected := ?_
      buffers := rfl }
  rintro hUses (hNo | hNone)
  · contradiction
  · exact hPresent.collected hUses (Or.inr hNone)

--
-- The entry after a result
--

theorem find_eq_nil {m : CameraMetadata} {tag : Tag} (hNone : ¬∃ e ∈ m, e.tag = tag) :
    find m tag = [] := by
  unfold find
  rw [List.find?_eq_none.mpr]
  intro e he hTag
  exact hNone ⟨e, he, of_decide_eq_true hTag⟩

theorem find_eq {m : CameraMetadata} {tag : Tag} {data : List Int}
    (hAll : ∀ e ∈ m, e.tag = tag → e.data = data) (hSome : ∃ e ∈ m, e.tag = tag) :
    find m tag = data := by
  rcases hSome with ⟨e, he, hTag⟩
  unfold find
  cases hFound : List.find? (fun e => decide (e.tag = tag)) m with
  | none =>
    have hNot := List.find?_eq_none.mp hFound e he
    simp [hTag] at hNot
  | some x =>
    have hTag := List.find?_some hFound
    exact hAll x (List.mem_of_find?_eq_some hFound) (of_decide_eq_true hTag)

theorem sensorAfter_eq {q : Request} {request : InFlightRequest} {result : HalResult}
    (hSensor :
      ∀ e ∈ result.result.getD [], e.tag = .ANDROID_SENSOR_TIMESTAMP → e.data = [q.timestamp])
    {m : CameraMetadata}
    (hOld : (∃ e ∈ m, e.tag = .ANDROID_SENSOR_TIMESTAMP) → request.sensorTimestamp = q.timestamp)
    (hSome : ∃ e ∈ m ++ result.result.getD [], e.tag = .ANDROID_SENSOR_TIMESTAMP) :
    sensorAfter request result = q.timestamp := by
  unfold sensorAfter
  by_cases hHas : ∃ e ∈ result.result.getD [], e.tag = .ANDROID_SENSOR_TIMESTAMP
  · rw [find_eq hSensor hHas]
  · rw [find_eq_nil hHas]
    rcases hSome with ⟨e, he, hTag⟩
    rcases List.mem_append.mp he with hFirst | hLast
    · exact hOld ⟨e, hFirst, hTag⟩
    · exact (hHas ⟨e, hLast, hTag⟩).elim

theorem collectedFor_eq {cfg : Config} (d : Device) {request : InFlightRequest} {result : HalResult}
    (hFinal : (finalMetadata cfg result).isSome) (hUses : cfg.mUsePartialResult) :
    collectedFor cfg d request result = collectedAfter cfg request result := by
  rcases noteCount_eq request result with ⟨extras, hCount⟩
  rcases takePartial_eq cfg d (noteCount request result) result with ⟨sent, hPartial⟩
  unfold collectedFor
  rw [takeCollected_fst hFinal hUses, hPartial, hCount]
  exact rfl

theorem collected_takeResult (cfg : Config) {p : Progress} {request : InFlightRequest}
    (result : HalResult) (hOld : request.collectedResult = p.collected cfg) :
    collectedAfter cfg request result = (p.takeResult cfg result).collected cfg := by
  unfold collectedAfter Progress.takeResult Progress.collected
  cases hPartial : isPartialResult cfg result with
  | false =>
    simp only [Bool.false_eq_true, if_false]
    exact hOld
  | true =>
    rcases Option.isSome_iff_exists.mp (isPartialResult_uses hPartial).2 with ⟨m, hm⟩
    simp only [if_true, hm, Option.getD_some, Option.toList_some, collected_append, hOld]

/- The entry of a result that obeys, in one equation. -/
theorem kept_eq (cfg : Config) (d : Device) (request : InFlightRequest) (result : HalResult) :
    ∃ extras sent,
      request.kept cfg d result =
        { request with
          resultExtras := extras
          haveSent3A := sent
          collectedResult :=
            if (finalMetadata cfg result).isSome then
              if request.shutterTimestamp = 0 then collectedFor cfg d request result
              else if cfg.mUsePartialResult then [] else collectedAfter cfg request result
            else collectedAfter cfg request result
          haveResultMetadata := request.haveResultMetadata || (finalMetadata cfg result).isSome
          numBuffersLeft := request.numBuffersLeft - buffersOf request result
          sensorTimestamp := sensorAfter request result
          pendingOutputBuffers :=
            if request.shutterTimestamp = 0 then
              request.pendingOutputBuffers ++ result.output_buffers
            else request.pendingOutputBuffers
          pendingMetadata :=
            if request.shutterTimestamp = 0 then
              (finalMetadata cfg result).getD request.pendingMetadata
            else request.pendingMetadata } := by
  rcases afterResult_eq cfg d request result with ⟨extras, sent, hAfter⟩
  refine ⟨extras, sent, ?_⟩
  unfold InFlightRequest.kept keepPending
  rw [hAfter]
  by_cases hShutter : request.shutterTimestamp = 0
  · cases hFinal : (finalMetadata cfg result).isSome with
    | false => simp [hShutter]
    | true => simp [hShutter]
  · cases hFinal : (finalMetadata cfg result).isSome with
    | false => simp [hShutter]
    | true => simp [hShutter]

theorem final_takeResult (cfg : Config) (p : Progress) (result : HalResult) :
    (p.takeResult cfg result).final = (finalMetadata cfg result).or p.final := by
  unfold Progress.takeResult
  cases finalMetadata cfg result with
  | none => rfl
  | some m => rfl

theorem numReturned_takeResult {cfg : Config} {q : Request} {p : Progress}
    {request : InFlightRequest} {result : HalResult} (hKind : request.hasInputBuffer = q.reprocess)
    (hInput : result.input_buffer.isSome → q.reprocess ∧ p.input = false) :
    (p.takeResult cfg result).numReturned = p.numReturned + buffersOf request result := by
  unfold Progress.numReturned Progress.takeResult buffersOf
  cases hCame : result.input_buffer.isSome with
  | false =>
    simp
    omega
  | true =>
    rcases hInput hCame with ⟨hReprocess, hFirst⟩
    simp [hKind, hReprocess, hFirst]
    omega

theorem Present.takeResult {cfg : Config} {requests : List Request} {progress : Nat → Progress}
    {q : Request} {request : InFlightRequest} {result : HalResult} (d : Device)
    (hPresent : Present cfg q (progress q.frame) request) (hSound : Sound cfg q (progress q.frame))
    (hObeys : ResultObeys cfg requests progress q result) :
    Present cfg q ((progress q.frame).takeResult cfg result) (request.kept cfg d result) := by
  have hShutter := hPresent.shutter_eq_zero hSound
  rcases hObeys with ⟨-, -, -, hInput, hMetadata⟩
  have hOnce : result.result.isSome → (progress q.frame).final = none := by
    intro hSome
    rcases Option.isSome_iff_exists.mp hSome with ⟨m, hm⟩
    exact (hMetadata m hm).1
  rcases kept_eq cfg d request result with ⟨extras, sent, hKept⟩
  rw [hKept]
  refine
    { status := hPresent.status
      shutter := hPresent.shutter
      sensor := ?_
      metadata := ?_
      left := ?_
      input := hPresent.input
      override := hPresent.override
      pending := ?_
      collected := ?_
      buffers := ?_ }
  · rw [metadata_takeResult cfg hOnce]
    refine sensorAfter_eq ?_ hPresent.sensor
    intro e he hTag
    cases hResult : result.result with
    | none => simp [hResult] at he
    | some m =>
      rw [hResult] at he
      exact (hMetadata m hResult).2.2.1 e he hTag
  · rw [final_takeResult, Option.isSome_or, Bool.or_comm, hPresent.metadata]
  · rw [numReturned_takeResult hPresent.input hInput]
    have hLeft := hPresent.left
    push_cast
    simp only [hLeft]
    omega
  · intro hNo
    have hZero := hShutter.mpr hNo
    simp only [hZero, if_true, final_takeResult, hPresent.pending hNo]
    cases finalMetadata cfg result with
    | none => rfl
    | some m => rfl
  · intro hUses hWhen
    rw [final_takeResult, Option.or_eq_none_iff] at hWhen
    have hOld : request.collectedResult = (progress q.frame).collected cfg := by
      refine hPresent.collected hUses ?_
      rcases hWhen with hNo | ⟨-, hNone⟩
      · exact Or.inl hNo
      · exact Or.inr hNone
    cases hFinal : (finalMetadata cfg result).isSome with
    | false =>
      simp only [Bool.false_eq_true, if_false]
      exact collected_takeResult cfg result hOld
    | true =>
      have hNo : (progress q.frame).shutter = false := by
        rcases hWhen with hNo | ⟨hNone, -⟩
        · exact hNo
        · simp [hNone] at hFinal
      simp only [hShutter.mpr hNo, if_true, collectedFor_eq d hFinal hUses]
      exact collected_takeResult cfg result hOld
  · rw [hPresent.buffers]
    cases hCame : (progress q.frame).shutter with
    | false => simp [hShutter.mpr hCame, Progress.takeResult, hCame]
    | true =>
      have hNot : ¬request.shutterTimestamp = 0 := by
        rw [hShutter, hCame]
        exact nofun
      simp [hNot, Progress.takeResult, hCame]

end Camera3Device

end FrameworksAv
