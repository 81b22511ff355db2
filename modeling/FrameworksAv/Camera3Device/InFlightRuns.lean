import Mathlib.Data.List.Nodup
import FrameworksAv.Camera3Device.Tracking

/-
  Runs of the device below that obey its contract.

  `Tracked` is the invariant of every such run in which the errors keep to `KeepsFrames`: an error
  of a whole frame comes before its last buffer, and a frame with an error of a buffer does not get
  its last buffer before the rest.

  Main declarations:
    * `KeepsFrames`
    * `Tracked`, `Tracked.step`
    * `InFlightTracked`, `in_flight_tracked`
    * `ErrorsTracked`, `errors_tracked`
-/

--
-- Frames that are gone
--

namespace FrameworksAv

namespace Camera3Device

/- Nothing comes back when every buffer has. -/
theorem Sound.no_buffers {cfg : Config} {requests : List Request} {progress : Nat → Progress}
    {q : Request} {result : HalResult} (hSound : Sound cfg q (progress q.frame))
    (hObeys : ResultObeys cfg requests progress q result) (hAll : (progress q.frame).allBuffers q) :
    result.output_buffers = [] ∧ result.input_buffer = none := by
  rcases hObeys with ⟨-, hNodup, hMem, hInput, -⟩
  constructor
  · have hLength := hSound.length_le hNodup hMem
    have hFull := hAll.1
    exact List.eq_nil_of_length_eq_zero (by omega)
  · cases hCame : result.input_buffer with
    | none => rfl
    | some b =>
      rcases hInput (by rw [hCame]; rfl) with ⟨hKind, hFirst⟩
      rw [hAll.2 hKind] at hFirst
      contradiction

theorem processCaptureResult_gone (cfg : Config) {d : Device} {result : HalResult}
    (hGone : d.mInFlightMap.lookup result.frame_number = none) :
    processCaptureResult cfg d result = SET_ERR d result.frame_number := by
  unfold processCaptureResult
  simp only [hGone]
  split
  · rfl
  · split
    · rfl
    · rfl

/- A frame that is gone fails, or nothing comes for it. -/
theorem Known.gone_result {cfg : Config} {requests : List Request} {progress : Nat → Progress}
    {d : Device} {q : Request} {result : HalResult}
    (hKnown : Known cfg q (progress q.frame) (d.view q.frame))
    (hSound : Sound cfg q (progress q.frame)) (hGone : d.mInFlightMap.lookup q.frame = none)
    (hObeys : ResultObeys cfg requests progress q result) :
    Known cfg q ((progress q.frame).takeResult cfg result) ((SET_ERR d q.frame).view q.frame) := by
  rcases hKnown.absent hGone with ⟨hAll, hOver, hReturned⟩
  rcases hSound.no_buffers hObeys hAll with ⟨hNil, hNone⟩
  have hFails : q.fails = true := by
    by_contra hGood
    rcases hOver (Bool.eq_false_iff.mpr hGood) with ⟨-, hFinal, -⟩
    rcases hObeys with ⟨hCarries, -, -, -, hMetadata⟩
    rcases hCarries with hSome | hSome | hSome
    · rcases Option.isSome_iff_exists.mp hSome with ⟨m, hm⟩
      rw [(hMetadata m hm).1] at hFinal
      contradiction
    · exact hSome hNil
    · rw [hNone] at hSome
      contradiction
  have hOutputs :
      ((progress q.frame).takeResult cfg result).outputs = (progress q.frame).outputs := by
    unfold Progress.takeResult
    rw [hNil]
    exact List.append_nil _
  rw [(SET_ERR_only d q.frame).here]
  refine
    { present := ?_
      absent := ?_
      served := ?_ }
  · intro r hr
    have hBoth := hr.symm.trans hGone
    contradiction
  · intro _
    refine ⟨⟨?_, ?_⟩, ?_, ?_⟩
    · rw [hOutputs]
      exact hAll.1
    · intro hKind
      have hCame := hAll.2 hKind
      unfold Progress.takeResult
      simp [hCame]
    · intro hGood
      rw [hFails] at hGood
      contradiction
    · rw [hOutputs]
      exact hReturned
  · intro hGood
    rw [hFails] at hGood
    contradiction

theorem Known.gone_shutter {cfg : Config} {d : Device} {q : Request} {p : Progress}
    (hKnown : Known cfg q p (d.view q.frame)) (hGone : d.mInFlightMap.lookup q.frame = none)
    (hNo : p.shutter = false) :
    Known cfg q { p with shutter := true }
      ((SET_ERR d q.frame).view q.frame) := by
  rcases hKnown.absent hGone with ⟨hAll, hOver, hReturned⟩
  have hFails : q.fails = true := by
    by_contra hGood
    rcases hOver (Bool.eq_false_iff.mpr hGood) with ⟨-, -, hShutter⟩
    rw [hNo] at hShutter
    contradiction
  rw [(SET_ERR_only d q.frame).here]
  refine
    { present := ?_
      absent := ?_
      served := ?_ }
  · intro r hr
    have hBoth := hr.symm.trans hGone
    contradiction
  · intro _
    refine ⟨hAll, ?_, hReturned⟩
    intro hGood
    rw [hFails] at hGood
    contradiction
  · intro hGood
    rw [hFails] at hGood
    contradiction

/- The status of the entry, if the frame has one. -/
def noteStatus (d : Device) (frame : Nat) (code : ErrorCode) : Device :=
  match d.mInFlightMap.lookup frame with
  | none => d
  | some request => d.edit frame { request with requestStatus := code }

theorem noteStatus_only (d : Device) (frame : Nat) (code : ErrorCode) :
    Elsewhere frame d (noteStatus d frame code) ∧ (noteStatus d frame code).shared = d.shared ∧
      (noteStatus d frame code).view frame =
        { d.view frame with
          entry := (d.mInFlightMap.lookup frame).map fun r =>
              { r with requestStatus := code } } := by
  unfold noteStatus
  cases hEntry : d.mInFlightMap.lookup frame with
  | none =>
    refine ⟨fun _ _ => rfl, rfl, ?_⟩
    exact View.ext hEntry rfl rfl rfl rfl
  | some request =>
    have hEdit := edit_only d frame { request with requestStatus := code }
    exact ⟨hEdit.elsewhere, rfl, hEdit.here⟩

/- An error that the contract allows. -/
theorem notifyError_eq {q : Request} {code : ErrorCode} (d : Device) (hObeys : ErrorObeys q code) :
    ∃ notified,
      notifyError d q.frame code =
        { noteStatus d q.frame code with
          notified := notified } := by
  unfold notifyError
  cases code with
  | OK => exact hObeys.elim
  | ERROR_DEVICE => exact hObeys.elim
  | ERROR_BUFFER => exact ⟨_, rfl⟩
  | ERROR_REQUEST => exact ⟨_, rfl⟩
  | ERROR_RESULT => exact ⟨_, rfl⟩

theorem notifyError_only {q : Request} {code : ErrorCode} (d : Device)
    (hObeys : ErrorObeys q code) :
    Elsewhere q.frame d (notifyError d q.frame code) ∧
      (notifyError d q.frame code).shared = d.shared ∧
      (notifyError d q.frame code).view q.frame =
        { d.view q.frame with
          entry := (d.mInFlightMap.lookup q.frame).map fun r =>
              { r with requestStatus := code } } := by
  rcases notifyError_eq d hObeys with ⟨notified, hEq⟩
  rw [hEq]
  exact noteStatus_only d q.frame code

theorem Known.takeError {cfg : Config} {d : Device} {q : Request} {p : Progress} {code : ErrorCode}
    (hKnown : Known cfg q p (d.view q.frame)) (hObeys : ErrorObeys q code)
    (hKeeps : code ≠ .ERROR_BUFFER → d.mInFlightMap.lookup q.frame = none ∨ ¬p.allBuffers q) :
    Known cfg q (p.takeError code) ((notifyError d q.frame code).view q.frame) := by
  rw [(notifyError_only d hObeys).2.2]
  cases hEntry : d.mInFlightMap.lookup q.frame with
  | none =>
    refine
      { present := ?_
        absent := ?_
        served := ?_ }
    · intro r hr
      have hNever : none = some r := hr
      contradiction
    · intro _
      exact hKnown.absent hEntry
    · intro hGood
      have hOld := hKnown.served hGood
      exact
        { returned := hOld.returned
          finals := hOld.finals
          shutters := hOld.shutters
          errors := hOld.errors }
  | some request =>
    rcases hKnown.present request hEntry with ⟨hPresent, hNot, hOpen, hReturned⟩
    refine
      { present := ?_
        absent := ?_
        served := ?_ }
    · intro r hr
      have hSame :
          some { request with requestStatus := code } =
            some r := hr
      cases hSame
      refine ⟨hPresent.takeError code, hNot, ?_, hReturned⟩
      intro hFailed
      rcases Bool.or_eq_true_iff.mp hFailed with hOld | hNew
      · exact hOpen hOld
      · have hCode : code ≠ .ERROR_BUFFER := by
          simpa using hNew
        rcases hKeeps hCode with hNone | hLeft
        · rw [hNone] at hEntry
          contradiction
        · exact hLeft
    · intro hNone
      have hNever :
          some { request with requestStatus := code } =
            none := hNone
      contradiction
    · intro hGood
      have hOld := hKnown.served hGood
      exact
        { returned := hOld.returned
          finals := hOld.finals
          shutters := hOld.shutters
          errors := hOld.errors }

--
-- The invariant
--

/-
  An error of a whole frame finds a buffer missing, or the frame gone. A frame with an error of a
  buffer is settled after its result or its shutter.
-/
def KeepsFrames (cfg : Config) (requests : List Request) (s : System) : Event → Prop
| .processCaptureResult r =>
  ∀ q ∈ requests, q.frame = r.frame_number → Settled q ((s.progress q.frame).takeResult cfg r)
| .notifyShutter frame _ =>
  ∀ q ∈ requests, q.frame = frame → Settled q { s.progress q.frame with shutter := true }
| .notifyError frame code =>
  code ≠ .ERROR_BUFFER →
    ∀ q ∈ requests, q.frame = frame →
      s.device.mInFlightMap.lookup q.frame = none ∨ ¬(s.progress q.frame).allBuffers q

instance (cfg : Config) (requests : List Request) : ∀ s e, Decidable (KeepsFrames cfg requests s e)
| s, .processCaptureResult r =>
  inferInstanceAs (Decidable
    (∀ q ∈ requests, q.frame = r.frame_number → Settled q ((s.progress q.frame).takeResult cfg r)))
| s, .notifyShutter frame _ =>
  inferInstanceAs (Decidable
    (∀ q ∈ requests, q.frame = frame → Settled q { s.progress q.frame with shutter := true }))
| s, .notifyError frame code =>
  inferInstanceAs (Decidable
    (code ≠ .ERROR_BUFFER →
      ∀ q ∈ requests, q.frame = frame →
        s.device.mInFlightMap.lookup q.frame = none ∨ ¬(s.progress q.frame).allBuffers q))

/- The shutter of a frame came. -/
def System.hadShutter (s : System) (frame : Nat) : Prop :=
  (s.progress frame).shutter

/- The shutter and the last metadata of a frame came. -/
def System.hadResult (s : System) (frame : Nat) : Prop :=
  (s.progress frame).final.isSome ∧ (s.progress frame).shutter

/- The device has nothing of a frame. -/
def View.empty : View where
  entry := none
  returned := []
  finals := []
  shutters := []
  errors := []

structure Tracked (cfg : Config) (requests : List Request) (s : System) : Prop where
  sound : ∀ q ∈ requests, Sound cfg q (s.progress q.frame)
  known : ∀ q ∈ requests, Known cfg q (s.progress q.frame) (s.device.view q.frame)
  outside : ∀ f, (∀ q ∈ requests, q.frame ≠ f) → s.device.view f = View.empty
  shutters : Reached requests s.hadShutter s.device.nextShutter
  results : Reached requests s.hadResult s.device.nextResult
  sorted : Sorted requests s.hadResult s.device.shared.finals

theorem WellFormed.eq_of_frame {requests : List Request} (hWell : WellFormed requests)
    {g q : Request} (hg : g ∈ requests) (hq : q ∈ requests) (hSame : g.frame = q.frame) : g = q :=
  List.inj_on_of_nodup_map hWell.frames hg hq hSame

/- The order of the frames after one of them went on. -/
structure Order (requests : List Request) (s : System) (q : Request) (p : Progress)
    (e : Device) : Prop where
  shutters :
    e.nextShutter = s.device.nextShutter ∨
      p.shutter ∧ e.nextShutter = bump s.device.nextShutter q.reprocess q.frame
  results :
    e.nextResult = s.device.nextResult ∧ e.shared.finals = s.device.shared.finals ∨
      p.final.isSome ∧ p.shutter ∧ Earlier requests s.hadResult q ∧
        (e.nextResult = s.device.nextResult ∨
          e.nextResult = bump s.device.nextResult q.reprocess q.frame) ∧
        ∃ xs, e.shared.finals = s.device.shared.finals ++ xs ∧
          xs.length ≤ 1 ∧ ∀ x ∈ xs, x.frame = q.frame

/- One frame goes on, and the others stay. -/
theorem Tracked.advance {cfg : Config} {requests : List Request} (hWell : WellFormed requests)
    {s : System} (hTracked : Tracked cfg requests s) {q : Request} (hq : q ∈ requests)
    {p : Progress} {e : Device} (hElse : Elsewhere q.frame s.device e) (hSound : Sound cfg q p)
    (hKnown : Known cfg q p (e.view q.frame)) (hShutter : (s.progress q.frame).shutter → p.shutter)
    (hFinal : (s.progress q.frame).final.isSome → p.final.isSome)
    (hOrder : Order requests s q p e) : Tracked cfg requests (s.advance q.frame p e) := by
  have hMine : (s.advance q.frame p e).progress q.frame = p := if_pos rfl
  have hOther (f : Nat) (hNe : f ≠ q.frame) : (s.advance q.frame p e).progress f = s.progress f :=
    if_neg hNe
  have hHadShutter (f : Nat) (hHad : s.hadShutter f) : (s.advance q.frame p e).hadShutter f := by
    unfold System.hadShutter at hHad ⊢
    by_cases hSame : f = q.frame
    · rw [hSame] at hHad ⊢
      rw [hMine]
      exact hShutter hHad
    · rw [hOther f hSame]
      exact hHad
  have hHadResult (f : Nat) (hHad : s.hadResult f) : (s.advance q.frame p e).hadResult f := by
    unfold System.hadResult at hHad ⊢
    by_cases hSame : f = q.frame
    · rw [hSame] at hHad ⊢
      rw [hMine]
      exact ⟨hFinal hHad.1, hShutter hHad.2⟩
    · rw [hOther f hSame]
      exact hHad
  refine
    { sound := ?_
      known := ?_
      outside := ?_
      shutters := ?_
      results := ?_
      sorted := ?_ }
  · intro g hg
    by_cases hSame : g.frame = q.frame
    · have hEq := hWell.eq_of_frame hg hq hSame
      subst hEq
      rw [hMine]
      exact hSound
    · rw [hOther g.frame hSame]
      exact hTracked.sound g hg
  · intro g hg
    by_cases hSame : g.frame = q.frame
    · have hEq := hWell.eq_of_frame hg hq hSame
      subst hEq
      rw [hMine]
      exact hKnown
    · have hView : e.view g.frame = s.device.view g.frame := hElse g.frame hSame
      rw [hOther g.frame hSame]
      unfold System.advance
      simp only
      rw [hView]
      exact hTracked.known g hg
  · intro f hNone
    have hNe : f ≠ q.frame := Ne.symm (hNone q hq)
    exact (hElse f hNe).trans (hTracked.outside f hNone)
  · have hOld := hTracked.shutters.mono hHadShutter
    rcases hOrder.shutters with hSame | ⟨hNow, hBump⟩
    · have hNext : (s.advance q.frame p e).device.nextShutter = s.device.nextShutter := hSame
      rw [hNext]
      exact hOld
    · have hNext :
          (s.advance q.frame p e).device.nextShutter =
            bump s.device.nextShutter q.reprocess q.frame :=
        hBump
      rw [hNext]
      refine hOld.bump hq ?_
      unfold System.hadShutter
      rw [hMine]
      exact hNow
  · have hOld := hTracked.results.mono hHadResult
    rcases hOrder.results with ⟨hSame, -⟩ | ⟨hSome, hNow, -, hNumber, -⟩
    · have hNext : (s.advance q.frame p e).device.nextResult = s.device.nextResult := hSame
      rw [hNext]
      exact hOld
    · have hNumber :
          (s.advance q.frame p e).device.nextResult = s.device.nextResult ∨
            (s.advance q.frame p e).device.nextResult =
              bump s.device.nextResult q.reprocess q.frame :=
        hNumber
      rcases hNumber with hNext | hNext
      · rw [hNext]
        exact hOld
      · rw [hNext]
        refine hOld.bump hq ?_
        unfold System.hadResult
        rw [hMine]
        exact ⟨hSome, hNow⟩
  · rcases hOrder.results with ⟨-, hSame⟩ | ⟨hSome, hNow, hEarlier, -, xs, hXs, hOne, hAll⟩
    · have hFinals : (s.advance q.frame p e).device.shared.finals = s.device.shared.finals := hSame
      rw [hFinals]
      exact hTracked.sorted.mono hHadResult
    · have hFinals :
          (s.advance q.frame p e).device.shared.finals = s.device.shared.finals ++ xs := hXs
      rw [hFinals]
      refine hTracked.sorted.append ?_ hHadResult hq hEarlier ?_ hOne hAll
      · intro f g hf hg hEq
        exact hWell.eq_of_frame hf hg hEq
      · unfold System.hadResult
        rw [hMine]
        exact ⟨hSome, hNow⟩

/- A device that keeps the order of the frames. -/
theorem Order.same {requests : List Request} {s : System} {q : Request} {p : Progress} {e : Device}
    (hShared : e.shared = s.device.shared) : Order requests s q p e where
  shutters := Or.inl (congrArg Shared.nextShutter hShared)
  results := Or.inl ⟨congrArg Shared.nextResult hShared, congrArg Shared.finals hShared⟩

--
-- Steps
--

theorem Sound.numReturned_le {cfg : Config} {q : Request} {p : Progress} (hSound : Sound cfg q p) :
    p.numReturned ≤ q.numBuffers := by
  have hOutputs := (List.subperm_of_subset hSound.nodup hSound.outputs).length_le
  unfold Progress.numReturned Request.numBuffers
  cases hInput : p.input with
  | true =>
    rw [hSound.input hInput]
    simp only [if_true]
    omega
  | false =>
    simp only [Bool.false_eq_true, if_false]
    omega

/- The result of a frame that is there passes every check. -/
theorem Tracked.result_eq {cfg : Config} {requests : List Request} {s : System} {q : Request}
    (hTracked : Tracked cfg requests s) (hq : q ∈ requests) {result : HalResult}
    (hFrame : q.frame = result.frame_number) (hObeys : ResultObeys cfg requests s.progress q result)
    {request : InFlightRequest} (hEntry : s.device.mInFlightMap.lookup q.frame = some request) :
    ∃ hasInputBuffer,
      processCaptureResult cfg s.device result =
        returnInputBuffer
          (removeInFlightRequestIfReadyLocked (resultSent cfg s.device request result) q.frame)
          hasInputBuffer result := by
  have hSound := hTracked.sound q hq
  have hPresent := ((hTracked.known q hq).present request hEntry).1
  have hNew := (hSound.takeResult hObeys).numReturned_le
  rcases hObeys with ⟨hCarries, -, -, hInput, hMetadata⟩
  have hNumber : result.result.isSome → NumberObeys cfg result := by
    intro hSome
    rcases Option.isSome_iff_exists.mp hSome with ⟨m, hm⟩
    exact (hMetadata m hm).2.1
  have hOnce : (finalMetadata cfg result).isSome → request.haveResultMetadata = false := by
    intro hFinal
    rcases Option.isSome_iff_exists.mp hFinal with ⟨m, hm⟩
    rw [hPresent.metadata, (hMetadata m (finalMetadata_some hm).2).1]
    exact rfl
  have hLeft : (buffersOf request result : Int) ≤ request.numBuffersLeft := by
    rw [numReturned_takeResult hPresent.input hInput] at hNew
    rw [hPresent.left]
    omega
  refine ⟨(request.afterResult cfg s.device result).hasInputBuffer, ?_⟩
  rw [hFrame] at hEntry ⊢
  exact processCaptureResult_eq cfg hEntry hCarries hNumber hOnce hLeft

theorem Tracked.takeResult {cfg : Config} {requests : List Request} (hWell : WellFormed requests)
    {s : System} (hTracked : Tracked cfg requests s) {q : Request} (hq : q ∈ requests)
    {result : HalResult} (hFrame : q.frame = result.frame_number)
    (hObeys : ResultObeys cfg requests s.progress q result)
    (hSettled : Settled q ((s.progress q.frame).takeResult cfg result)) :
    Tracked cfg requests
      (s.advance q.frame ((s.progress q.frame).takeResult cfg result)
        (processCaptureResult cfg s.device result)) := by
  have hSound := hTracked.sound q hq
  have hKnown := hTracked.known q hq
  have hFinal :
      (s.progress q.frame).final.isSome →
        ((s.progress q.frame).takeResult cfg result).final.isSome := by
    intro hSome
    rw [final_takeResult, Option.isSome_or, hSome]
    exact Bool.or_true _
  cases hEntry : s.device.mInFlightMap.lookup q.frame with
  | none =>
    have hGone := hEntry
    rw [hFrame] at hGone
    rw [processCaptureResult_gone cfg hGone, ← hFrame]
    exact hTracked.advance hWell hq (SET_ERR_only s.device q.frame).elsewhere
      (hSound.takeResult hObeys) (hKnown.gone_result hSound hEntry hObeys)
      id hFinal (Order.same rfl)
  | some request =>
    rcases hTracked.result_eq hq hFrame hObeys hEntry with ⟨hasInputBuffer, hEq⟩
    have hPresent := (hKnown.present request hEntry).1
    have hEarlier : (finalMetadata cfg result).isSome → Earlier requests s.hadResult q := by
      intro hSome g hg hKind hHad
      rcases Option.isSome_iff_exists.mp hSome with ⟨m, hm⟩
      rcases finalMetadata_some hm with ⟨hWhole, hResult⟩
      have hLast := (hObeys.2.2.2.2 m hResult).2.2.2 hWhole
      exact hLast.1 g hg hKind hHad.1
    have hOrder : (finalMetadata cfg result).isSome → s.device.nextResult q.reprocess ≤ q.frame :=
      fun hSome => hTracked.results.le (hEarlier hSome)
    have hSent := resultSent_sent hFrame hPresent hSound hOrder
    have hRemove := removeIfReady_frame (resultSent cfg s.device request result) q.frame
    have hShared :
        (processCaptureResult cfg s.device result).shared =
          (resultSent cfg s.device request result).shared := by
      rw [hEq, returnInputBuffer_shared]
      exact hRemove.2
    refine hTracked.advance hWell hq ?_ (hSound.takeResult hObeys) ?_ id hFinal ?_
    · rw [hEq]
      exact
        (hSent.elsewhere.trans hRemove.1).trans (Elsewhere.same _ (returnInputBuffer_view _ _ _))
    · rw [hEq, returnInputBuffer_view]
      exact hKnown.takeResult hSound hEntry hFrame hObeys hOrder hSettled
    · rcases hSent.shared with
        hSame | ⟨hShutter, hSome, hSends⟩
      · exact Order.same (hShared.trans hSame)
      · rw [← hShared] at hSends
        refine
          { shutters := Or.inl hSends.nextShutter
            results := Or.inr ⟨?_, hShutter, hEarlier hSome, hSends.nextResult, hSends.finals⟩ }
        rw [final_takeResult, Option.isSome_or, hSome]
        exact Bool.true_or _

theorem notifyShutter_gone (cfg : Config) {d : Device} {frame : Nat}
    (hGone : d.mInFlightMap.lookup frame = none) (timestamp : Int) :
    notifyShutter cfg d frame timestamp = SET_ERR d frame := by
  unfold notifyShutter
  rw [hGone]

/- Without metadata a shutter only moves its own number. -/
theorem shutterSent_nothing (cfg : Config) (d : Device) (q : Request) {request : InFlightRequest}
    (hNothing : request.pendingMetadata = []) :
    (shutterSent cfg d q request).shared =
      { d.shared with
        nextShutter := bump d.shared.nextShutter q.reprocess q.frame } := by
  unfold shutterSent sendCaptureResult
  rw [if_pos hNothing]
  exact noteShutter_shared d q

theorem Tracked.takeShutter {cfg : Config} {requests : List Request} (hWell : WellFormed requests)
    {s : System} (hTracked : Tracked cfg requests s) {q : Request} (hq : q ∈ requests)
    (hObeys : ShutterObeys requests s.progress q q.timestamp)
    (hSettled : Settled q { s.progress q.frame with shutter := true }) :
    Tracked cfg requests
      (s.advance q.frame { s.progress q.frame with shutter := true }
        (notifyShutter cfg s.device q.frame q.timestamp)) := by
  rcases hObeys with ⟨-, hTime, hFirst⟩
  have hSound := hTracked.sound q hq
  have hKnown := hTracked.known q hq
  have hNo : (s.progress q.frame).shutter = false := by
    by_contra hCame
    exact Nat.lt_irrefl _ (hFirst q hq rfl (by simpa using hCame))
  have hEarlier : Earlier requests s.hadResult q := by
    intro g hg hKind hHad
    exact hFirst g hg hKind hHad.2
  have hOrder := hTracked.results.le hEarlier
  cases hEntry : s.device.mInFlightMap.lookup q.frame with
  | none =>
    rw [notifyShutter_gone cfg hEntry]
    exact hTracked.advance hWell hq (SET_ERR_only s.device q.frame).elsewhere
      (hSound.takeShutter hTime) (hKnown.gone_shutter hEntry hNo) (fun _ => rfl) id (Order.same rfl)
  | some request =>
    have hPresent := (hKnown.present request hEntry).1
    rw [notifyShutter_eq cfg hEntry hPresent.input (hTracked.shutters.le hFirst)]
    rcases shutterSent_sent cfg hPresent.input hOrder with ⟨hElse, hSends, -, -⟩
    have hRemove := removeIfReady_frame (shutterSent cfg s.device q request) q.frame
    rw [← hRemove.2] at hSends
    refine hTracked.advance hWell hq (hElse.trans hRemove.1) (hSound.takeShutter hTime)
      (hKnown.takeShutter hSound hEntry hNo hTime hOrder hSettled) (fun _ => rfl) id ?_
    refine
      { shutters := Or.inr ⟨rfl, hSends.nextShutter⟩
        results := ?_ }
    cases hFinal : (s.progress q.frame).final with
    | some m => exact Or.inr ⟨rfl, rfl, hEarlier, hSends.nextResult, hSends.finals⟩
    | none =>
      have hNothing : request.pendingMetadata = [] := by
        rw [hPresent.pending hNo, hFinal]
        exact rfl
      have hShared := shutterSent_nothing cfg s.device q hNothing
      rw [← hRemove.2] at hShared
      refine Or.inl ⟨?_, ?_⟩
      · exact congrArg Shared.nextResult hShared
      · rw [hShared]

theorem Tracked.takeError {cfg : Config} {requests : List Request} (hWell : WellFormed requests)
    {s : System} (hTracked : Tracked cfg requests s) {q : Request} (hq : q ∈ requests)
    {code : ErrorCode} (hObeys : ErrorObeys q code)
    (hKeeps :
      code ≠ .ERROR_BUFFER →
        s.device.mInFlightMap.lookup q.frame = none ∨ ¬(s.progress q.frame).allBuffers q) :
    Tracked cfg requests
      (s.advance q.frame ((s.progress q.frame).takeError code)
        (notifyError s.device q.frame code)) := by
  rcases notifyError_only s.device hObeys with ⟨hElse, hShared, -⟩
  exact hTracked.advance hWell hq hElse ((hTracked.sound q hq).takeError hObeys)
    ((hTracked.known q hq).takeError hObeys hKeeps) id id (Order.same hShared)

theorem Tracked.step {cfg : Config} {requests : List Request} (hWell : WellFormed requests)
    {s t : System} {e : Event} (hTracked : Tracked cfg requests s) (hObeys : Obeys cfg requests s e)
    (hKeeps : KeepsFrames cfg requests s e) (hStep : System.step cfg s e = some t) :
    Tracked cfg requests t := by
  cases e with
  | processCaptureResult r =>
    rcases hObeys with ⟨q, hq, hFrame, hResult⟩
    cases hStep
    rw [← hFrame]
    exact hTracked.takeResult hWell hq hFrame hResult (hKeeps q hq hFrame)
  | notifyShutter frame timestamp =>
    rcases hObeys with ⟨q, hq, hFrame, hShutter⟩
    cases hStep
    have hTime := hShutter.1
    subst hTime
    rw [← hFrame]
    exact hTracked.takeShutter hWell hq hShutter (hKeeps q hq hFrame)
  | notifyError frame code =>
    rcases hObeys with ⟨q, hq, hFrame, hError⟩
    cases hStep
    rw [← hFrame]
    exact hTracked.takeError hWell hq hError (fun hCode => hKeeps hCode q hq hFrame)

--
-- The start
--

/- The entry that a request is registered with. -/
def Request.entry (q : Request) : InFlightRequest :=
  InFlightRequest.init q.numBuffers q.extras q.reprocess q.override

theorem registerAll_outside (d : Device) (requests : List Request) {f : Nat}
    (hNone : ∀ q ∈ requests, q.frame ≠ f) : (registerAll d requests).view f = d.view f := by
  induction requests generalizing d with
  | nil => rfl
  | cons q qs ih =>
    unfold registerAll
    rw [ih _ fun g hg => hNone g (List.mem_cons_of_mem q hg)]
    exact (edit_only d q.frame q.entry).other (Ne.symm (hNone q List.mem_cons_self))

theorem registerAll_view (d : Device) {requests : List Request}
    (hFrames : (requests.map Request.frame).Nodup) {q : Request} (hq : q ∈ requests) :
    (registerAll d requests).view q.frame = { d.view q.frame with entry := some q.entry } := by
  induction requests generalizing d with
  | nil => simp at hq
  | cons g gs ih =>
    rw [List.map_cons, List.nodup_cons] at hFrames
    have hEdit := edit_only d g.frame g.entry
    unfold registerAll
    rcases List.mem_cons.mp hq with hHead | hTail
    · subst hHead
      rw [registerAll_outside]
      · exact hEdit.here
      · intro h hh hSame
        refine hFrames.1 ?_
        rw [← hSame]
        exact List.mem_map_of_mem hh
    · have hNe : q.frame ≠ g.frame := by
        intro hSame
        refine hFrames.1 ?_
        rw [← hSame]
        exact List.mem_map_of_mem hTail
      rw [ih _ hFrames.2 hTail]
      have hOther :
          (registerInFlight d g.frame g.numBuffers g.extras g.reprocess g.override).view q.frame =
            d.view q.frame :=
        hEdit.other hNe
      rw [hOther]

theorem registerAll_shared (d : Device) (requests : List Request) :
    (registerAll d requests).shared = d.shared := by
  induction requests generalizing d with
  | nil => rfl
  | cons q qs ih =>
    unfold registerAll
    rw [ih]
    exact rfl

theorem init_view (f : Nat) : Device.init.view f = View.empty :=
  rfl

theorem Known.start (cfg : Config) (q : Request) :
    Known cfg q Progress.init { View.empty with entry := some q.entry } := by
  refine
    { present := ?_
      absent := ?_
      served := ?_ }
  · intro r hr
    have hSame : some q.entry = some r := hr
    cases hSame
    refine ⟨Present.init cfg q, ?_, ?_, rfl⟩
    · rintro ⟨-, hFinal, -⟩
      contradiction
    · intro hFailed
      contradiction
  · intro hNone
    have hNever : some q.entry = none := hNone
    contradiction
  · intro _
    exact
      { returned := rfl
        finals := rfl
        shutters := rfl
        errors := rfl }

theorem Tracked.start (cfg : Config) {requests : List Request} (hWell : WellFormed requests) :
    Tracked cfg requests (System.start requests) := by
  have hShared : (System.start requests).device.shared = Device.init.shared :=
    registerAll_shared Device.init requests
  refine
    { sound := fun q _ => Sound.init cfg q
      known := ?_
      outside := ?_
      shutters := ?_
      results := ?_
      sorted := ?_ }
  · intro q hq
    have hView := registerAll_view Device.init hWell.frames hq
    rw [init_view] at hView
    unfold System.start
    simp only
    rw [hView]
    exact Known.start cfg q
  · intro f hNone
    exact registerAll_outside Device.init requests hNone
  · intro kind
    have hNext := congrArg Shared.nextShutter hShared
    refine Or.inl ((congrFun hNext kind).trans ?_)
    cases kind <;> rfl
  · intro kind
    have hNext := congrArg Shared.nextResult hShared
    refine Or.inl ((congrFun hNext kind).trans ?_)
    cases kind <;> rfl
  · rw [hShared]
    exact ⟨nofun, List.Pairwise.nil⟩

/- What holds of every event of a run, in the state it finds. -/
def Along (cfg : Config) (requests : List Request) (P : System → Event → Prop)
    (es : List Event) : Prop :=
  ∀ bs e s, bs ++ [e] <+: es → Run.exec (System.step cfg) (System.start requests) bs = some s →
    P s e

/- What holds in every state of a run. -/
def Always (cfg : Config) (requests : List Request) (P : System → Prop) (es : List Event) : Prop :=
  ∀ bs s, bs <+: es → Run.exec (System.step cfg) (System.start requests) bs = some s → P s

/- Every state of a run that obeys and keeps the frames. -/
theorem Tracked.run {cfg : Config} {requests : List Request} (hWell : WellFormed requests)
    {es : List Event} (hObeys : Along cfg requests (Obeys cfg requests) es)
    (hKeeps : Along cfg requests (KeepsFrames cfg requests) es) :
    Always cfg requests (Tracked cfg requests) es := by
  intro bs s hPrefix hRun
  have hStep :
      ∀ bs e s t, bs ++ [e] <+: es →
        Run.exec (System.step cfg) (System.start requests) bs = some s →
        Tracked cfg requests s → System.step cfg s e = some t → Tracked cfg requests t := by
    intro bs e s t hNext hBefore hTracked hStep
    exact hTracked.step hWell (hObeys bs e s hNext hBefore) (hKeeps bs e s hNext hBefore) hStep
  exact Run.exec_prefix_invariant hStep (Tracked.start cfg hWell) hPrefix hRun

--
-- Results
--

/- The tags of a final result that the device writes itself. -/
def Writes (cfg : Config) (q : Request) (tag : Tag) : Prop :=
  tag = .ANDROID_REQUEST_FRAME_COUNT ∨
    cfg.since_3_2 = false ∧ tag = .ANDROID_QUIRKS_PARTIAL_RESULT ∨
    q.override.applyAeLock ∧ tag = .ANDROID_CONTROL_AE_LOCK ∨
    q.override.applyAePrecaptureTrigger ∧ tag = .ANDROID_CONTROL_AE_PRECAPTURE_TRIGGER

theorem mem_override {m : CameraMetadata} {override : AeTriggerCancelOverride} {e : Entry}
    (hMem : e ∈ m) (hLock : override.applyAeLock → e.tag ≠ .ANDROID_CONTROL_AE_LOCK)
    (hTrigger :
      override.applyAePrecaptureTrigger → e.tag ≠ .ANDROID_CONTROL_AE_PRECAPTURE_TRIGGER) :
    e ∈ overrideResultForPrecaptureCancel m override := by
  have hLocked :
      e ∈
        (if override.applyAeLock then update m .ANDROID_CONTROL_AE_LOCK [override.aeLock]
        else m) := by
    split
    · rename_i hApply
      exact mem_update_of_ne _ hMem (hLock hApply)
    · exact hMem
  unfold overrideResultForPrecaptureCancel
  simp only
  split
  · rename_i hApply
    exact mem_update_of_ne _ hLocked (hTrigger hApply)
  · exact hLocked

/- A final result has the final metadata and all parts. -/
theorem mem_delivered {cfg : Config} {q : Request} {p : Progress} (hSound : Sound cfg q p)
    {m : CameraMetadata} (hFinal : p.final = some m) {e : Entry} (hMem : e ∈ p.metadata)
    (hOwn : ¬Writes cfg q e.tag) : e ∈ delivered cfg q p m := by
  unfold Writes at hOwn
  simp only [not_or, not_and] at hOwn
  rcases hOwn with ⟨hCount, hQuirk, hLock, hTrigger⟩
  refine mem_override ?_ hLock hTrigger
  refine mem_completeMetadata q.frame hCount ?_
  unfold Progress.metadata at hMem
  rw [hFinal, Option.getD_some] at hMem
  rcases List.mem_append.mp hMem with hPart | hLast
  · exact Or.inr ⟨hSound.uses hPart, foldl_collect_mem cfg p.parts hQuirk (Or.inr hPart)⟩
  · exact Or.inl hLast

/-
  What a frame that does not fail gets: its shutter, its buffers with the timestamp of the shutter,
  and one final result with everything the HAL sent; and no error.
-/
structure Delivered (cfg : Config) (q : Request) (p : Progress) (v : View) : Prop where
  errors : v.errors = []
  shutters : v.shutters = if p.shutter then [(q.frame, q.timestamp)] else []
  returned : v.returned = if p.shutter then q.returns p.outputs q.timestamp else []
  result :
    p.final.isSome → p.shutter →
      ∃ x, v.finals = [x] ∧ ∀ e ∈ p.metadata, ¬Writes cfg q e.tag → e ∈ x.mMetadata
  waits : ¬(p.final.isSome ∧ p.shutter) → v.finals = []

theorem Served.delivered {cfg : Config} {q : Request} {p : Progress} {v : View}
    (hServed : Served cfg q p v) (hSound : Sound cfg q p) : Delivered cfg q p v := by
  have hFinals := hServed.finals
  refine
    { errors := hServed.errors
      shutters := hServed.shutters
      returned := hServed.returned
      result := ?_
      waits := ?_ }
  · intro hSome hShutter
    rcases Option.isSome_iff_exists.mp hSome with ⟨m, hm⟩
    rw [if_pos hShutter, hm] at hFinals
    rcases List.map_eq_singleton_iff.mp hFinals with ⟨x, hx, hMetadata⟩
    refine ⟨x, hx, ?_⟩
    intro e he hOwn
    rw [hMetadata]
    exact mem_delivered hSound hm he hOwn
  · intro hNot
    refine List.map_eq_nil_iff.mp (hFinals.trans ?_)
    split
    · rename_i hShutter
      cases hFinal : p.final with
      | none => rfl
      | some m =>
        refine absurd ⟨?_, hShutter⟩ hNot
        rw [hFinal]
        exact rfl
    · rfl

theorem Sound.outputs_perm {cfg : Config} {q : Request} {p : Progress} (hSound : Sound cfg q p)
    (hAll : p.allBuffers q) : p.outputs.Perm q.outputs :=
  (List.subperm_of_subset hSound.nodup hSound.outputs).perm_of_length_le (Nat.le_of_eq hAll.1.symm)

/- The entry of a frame that does not fail is there to its end. -/
theorem Known.entry_iff {cfg : Config} {q : Request} {p : Progress} {v : View}
    (hKnown : Known cfg q p v) (hGood : q.fails = false) : v.entry.isSome ↔ ¬p.complete q := by
  cases hEntry : v.entry with
  | none =>
    have hOver := (hKnown.absent hEntry).2.1 hGood
    simp [hOver]
  | some r =>
    have hNot := (hKnown.present r hEntry).2.1
    simp [hNot]

/- What the device did in a state of a run without errors. -/
structure InFlightTracked (cfg : Config) (requests : List Request) (s : System) : Prop where
  errors : s.device.errors = []
  delivered : ∀ q ∈ requests, Delivered cfg q (s.progress q.frame) (s.device.view q.frame)
  once :
    ∀ q ∈ requests, (s.progress q.frame).complete q →
      (s.device.view q.frame).returned.Perm (q.returns q.outputs q.timestamp)
  ordered :
    (s.device.mResultQueue.filter fun x => x.isFinal).Pairwise
      fun x y => InOrder requests x.frame y.frame
  entry :
    ∀ q ∈ requests, (s.device.mInFlightMap.lookup q.frame).isSome ↔ ¬(s.progress q.frame).complete q

def Event.isError : Event → Bool
| .notifyError _ _ => true
| _ => false

/- No frame has an error. -/
def Quiet (s : System) : Prop :=
  ∀ f, (s.progress f).status = .OK

theorem Quiet.step {cfg : Config} {s t : System} {e : Event} (hQuiet : Quiet s)
    (hNone : e.isError = false) (hStep : System.step cfg s e = some t) : Quiet t := by
  intro f
  cases e with
  | processCaptureResult r =>
    cases hStep
    unfold System.advance
    simp only
    split
    · exact hQuiet r.frame_number
    · exact hQuiet f
  | notifyShutter frame timestamp =>
    cases hStep
    unfold System.advance
    simp only
    split
    · exact hQuiet frame
    · exact hQuiet f
  | notifyError frame code => contradiction

theorem Quiet.keepsFrames {cfg : Config} {requests : List Request} {s : System} {e : Event}
    (hQuiet : Quiet s) (hNone : e.isError = false) : KeepsFrames cfg requests s e := by
  cases e with
  | processCaptureResult r =>
    intro q _ _ _ hStatus
    exact absurd (hQuiet q.frame) hStatus
  | notifyShutter frame timestamp =>
    intro q _ _ _ hStatus
    exact absurd (hQuiet q.frame) hStatus
  | notifyError frame code => contradiction

theorem Quiet.run (cfg : Config) (requests : List Request) {es : List Event}
    (hNone : ∀ e ∈ es, e.isError = false) : Always cfg requests Quiet es := by
  intro bs s hPrefix hRun
  have hStep :
      ∀ bs e s t, bs ++ [e] <+: es →
        Run.exec (System.step cfg) (System.start requests) bs = some s →
        Quiet s → System.step cfg s e = some t → Quiet t := by
    intro bs e s t hNext _ hQuiet hStep
    exact hQuiet.step (hNone e (hNext.subset (by simp))) hStep
  exact Run.exec_prefix_invariant hStep (fun _ => rfl) hPrefix hRun

/- The errors of a frame are those of its view. -/
theorem no_errors {d : Device} (hNone : ∀ f, (d.view f).errors = []) : d.errors = [] := by
  cases hErrors : d.errors with
  | nil => rfl
  | cons f fs =>
    have hMine := hNone f
    unfold Device.view at hMine
    simp [hErrors] at hMine

theorem Tracked.inFlight {cfg : Config} {requests : List Request} {s : System}
    (hTracked : Tracked cfg requests s) (hGood : ∀ q ∈ requests, q.fails = false) :
    InFlightTracked cfg requests s := by
  have hDelivered (q : Request) (hq : q ∈ requests) :=
    ((hTracked.known q hq).served (hGood q hq)).delivered (hTracked.sound q hq)
  refine
    { errors := ?_
      delivered := hDelivered
      once := ?_
      ordered := hTracked.sorted.ordered
      entry := ?_ }
  · refine no_errors fun f => ?_
    by_cases hMine : ∃ q ∈ requests, q.frame = f
    · rcases hMine with ⟨q, hq, hFrame⟩
      rw [← hFrame]
      exact (hDelivered q hq).errors
    · rw [hTracked.outside f ?_]
      · exact rfl
      · intro q hq hFrame
        exact hMine ⟨q, hq, hFrame⟩
  · intro q hq hComplete
    have hAll := (hTracked.sound q hq).outputs_perm hComplete.1
    rw [(hDelivered q hq).returned, if_pos hComplete.2.2]
    exact hAll.map _
  · intro q hq
    exact (hTracked.known q hq).entry_iff (hGood q hq)

/-
  What the device did in a state of a run with errors: no buffer went back twice, and all of them
  did when the frame is over; a frame without an error of its own is served; and a frame that failed
  is gone with its last buffer.
-/
structure ErrorsTracked (cfg : Config) (requests : List Request) (s : System) : Prop where
  once :
    ∀ q ∈ requests, ((s.device.view q.frame).returned.map Returned.buffer).Nodup ∧
      ∀ x ∈ (s.device.view q.frame).returned, x.buffer ∈ (s.progress q.frame).outputs
  all :
    ∀ q ∈ requests,
      (s.progress q.frame).complete q ∨
          (s.progress q.frame).failed ∧ (s.progress q.frame).allBuffers q →
        ((s.device.view q.frame).returned.map Returned.buffer).Perm q.outputs
  delivered :
    ∀ q ∈ requests, q.fails = false → Delivered cfg q (s.progress q.frame) (s.device.view q.frame)
  removed :
    ∀ q ∈ requests, (s.progress q.frame).failed →
      (s.progress q.frame).allBuffers q → s.device.mInFlightMap.lookup q.frame = none

/- The buffers of a frame went back, or wait for its shutter. -/
theorem Known.returned_cases {cfg : Config} {q : Request} {p : Progress} {v : View}
    (hKnown : Known cfg q p v) :
    v.entry.isSome ∧ v.returned = [] ∨ v.returned.map Returned.buffer = p.outputs := by
  cases hEntry : v.entry with
  | none => exact Or.inr (hKnown.absent hEntry).2.2
  | some r =>
    rw [(hKnown.present r hEntry).2.2.2]
    unfold Progress.sentBuffers
    split
    · exact Or.inr (q.returns_buffers p.outputs q.timestamp)
    · exact Or.inl ⟨rfl, rfl⟩

theorem Known.gone {cfg : Config} {q : Request} {p : Progress} {v : View} (hKnown : Known cfg q p v)
    (hOver : p.complete q ∨ p.failed ∧ p.allBuffers q) : v.entry = none := by
  cases hEntry : v.entry with
  | none => rfl
  | some r =>
    rcases hKnown.present r hEntry with ⟨-, hNot, hOpen, -⟩
    rcases hOver with hComplete | ⟨hFailed, hAll⟩
    · exact absurd hComplete hNot
    · exact absurd hAll (hOpen hFailed)

theorem Tracked.errors {cfg : Config} {requests : List Request} {s : System}
    (hTracked : Tracked cfg requests s) : ErrorsTracked cfg requests s := by
  refine
    { once := ?_
      all := ?_
      delivered := ?_
      removed := ?_ }
  · intro q hq
    rcases (hTracked.known q hq).returned_cases with ⟨-, hNone⟩ | hBack
    · rw [hNone]
      exact ⟨List.nodup_nil, nofun⟩
    · rw [hBack]
      refine ⟨(hTracked.sound q hq).nodup, ?_⟩
      intro x hx
      rw [← hBack]
      exact List.mem_map_of_mem hx
  · intro q hq hOver
    have hKnown := hTracked.known q hq
    rcases hKnown.absent (hKnown.gone hOver) with ⟨hAll, -, hBack⟩
    rw [hBack]
    exact (hTracked.sound q hq).outputs_perm hAll
  · intro q hq hGood
    exact ((hTracked.known q hq).served hGood).delivered (hTracked.sound q hq)
  · intro q hq hFailed hAll
    exact (hTracked.known q hq).gone (Or.inr ⟨hFailed, hAll⟩)

--
-- Runs without errors
--

theorem in_flight_tracked (cfg : Config) {requests : List Request} (hWell : WellFormed requests)
    (hGood : ∀ q ∈ requests, q.fails = false) {es : List Event}
    (hNone : ∀ e ∈ es, e.isError = false) (hObeys : Along cfg requests (Obeys cfg requests) es) :
    Always cfg requests (InFlightTracked cfg requests) es := by
  have hKeeps : Along cfg requests (KeepsFrames cfg requests) es := by
    intro bs e s hNext hBefore
    have hShort : bs <+: es := (List.prefix_append bs [e]).trans hNext
    have hQuiet := Quiet.run cfg requests hNone bs s hShort hBefore
    exact hQuiet.keepsFrames (hNone e (hNext.subset (by simp)))
  intro bs s hPrefix hRun
  exact (Tracked.run hWell hObeys hKeeps bs s hPrefix hRun).inFlight hGood

def plainExtras : CaptureResultExtras where
  requestId := 0
  burstId := 0
  afTriggerId := 0
  precaptureTriggerId := 0
  frameNumber := 0
  partialResultCount := 0

def noOverride : AeTriggerCancelOverride where
  applyAeLock := false
  aeLock := 0
  applyAePrecaptureTrigger := false
  aePrecaptureTrigger := 0

def twoParts : Config where
  since_3_2 := true
  mUsePartialResult := true
  mNumPartialResults := 2

/- A request of two buffers, and one that works on a buffer. -/
def twoFrames : List Request :=
  [{ frame := 0
     outputs := [⟨0, 0⟩, ⟨1, 0⟩]
     input := none
     extras := plainExtras
     override := noOverride
     timestamp := 10
     fails := false },
    { frame := 1
      outputs := [⟨0, 1⟩]
      input := some ⟨2, 0⟩
      extras := plainExtras
      override := noOverride
      timestamp := 20
      fails := false }]

/- A buffer, a part, the shutters, and the rest in two turns. -/
def twoFramesRun : List Event :=
  [.processCaptureResult ⟨0, none, [⟨1, 0⟩], none, 0⟩,
    .processCaptureResult ⟨0, some [⟨.ANDROID_SENSOR_TIMESTAMP, [10]⟩], [], none, 1⟩,
    .notifyShutter 0 10, .notifyShutter 1 20,
    .processCaptureResult ⟨1, some [⟨.ANDROID_SENSOR_TIMESTAMP, [20]⟩], [⟨0, 1⟩], some ⟨2, 0⟩, 2⟩,
    .processCaptureResult ⟨0, some [⟨.other 7, [1]⟩], [⟨0, 0⟩], none, 2⟩]

theorem twoFrames_wellFormed : WellFormed twoFrames where
  frames := by decide
  buffers := by decide
  outputs := by decide

theorem in_flight_tracked_twoFrames :
    Always twoParts twoFrames (InFlightTracked twoParts twoFrames) twoFramesRun :=
  in_flight_tracked twoParts twoFrames_wellFormed (by decide) (by decide)
    (Run.forall_steps_of_checks (P := Obeys twoParts twoFrames) (by decide))

--
-- Runs with errors
--

theorem errors_tracked (cfg : Config) {requests : List Request} (hWell : WellFormed requests)
    {es : List Event} (hObeys : Along cfg requests (Obeys cfg requests) es)
    (hKeeps : Along cfg requests (KeepsFrames cfg requests) es) :
    Always cfg requests (ErrorsTracked cfg requests) es := by
  intro bs s hPrefix hRun
  exact (Tracked.run hWell hObeys hKeeps bs s hPrefix hRun).errors

/- A request of one buffer, which fails or not. -/
def oneFrame (fails : Bool) : List Request :=
  [{ frame := 0
     outputs := [⟨0, 0⟩]
     input := none
     extras := plainExtras
     override := noOverride
     timestamp := 10
     fails := fails }]

theorem oneFrame_wellFormed (fails : Bool) : WellFormed (oneFrame fails) where
  frames := by cases fails <;> decide
  buffers := by cases fails <;> decide
  outputs := by cases fails <;> decide

/- The error comes first, and the buffer after it. -/
theorem errors_tracked_first :
    Always twoParts (oneFrame true) (ErrorsTracked twoParts (oneFrame true))
      [.notifyError 0 .ERROR_REQUEST, .processCaptureResult ⟨0, none, [⟨0, 0⟩], none, 0⟩] :=
  errors_tracked twoParts (oneFrame_wellFormed true)
    (Run.forall_steps_of_checks (P := Obeys twoParts (oneFrame true)) (by decide))
    (Run.forall_steps_of_checks (P := KeepsFrames twoParts (oneFrame true)) (by decide))

/- The error of the frame comes behind its last buffer. -/
def lateError : List Event :=
  [.processCaptureResult ⟨0, none, [⟨0, 0⟩], none, 0⟩, .notifyError 0 .ERROR_REQUEST]

/- The last buffer comes behind its error, then the shutter. -/
def lateShutter : List Event :=
  [.notifyError 0 .ERROR_BUFFER, .processCaptureResult ⟨0, none, [⟨0, 0⟩], none, 0⟩,
    .notifyShutter 0 10]

/- The entry stays; the shutter finds none and is an error. -/
theorem errors_tracked_behind :
    (Along twoParts (oneFrame true) (Obeys twoParts (oneFrame true)) lateError ∧
      ¬Always twoParts (oneFrame true) (ErrorsTracked twoParts (oneFrame true)) lateError) ∧
      Along twoParts (oneFrame false) (Obeys twoParts (oneFrame false)) lateShutter ∧
        ¬Always twoParts (oneFrame false) (ErrorsTracked twoParts (oneFrame false))
          lateShutter := by
  refine ⟨⟨?_, ?_⟩, ?_, ?_⟩
  · exact Run.forall_steps_of_checks (P := Obeys twoParts (oneFrame true)) (by decide)
  · intro hAlways
    have hEnd := hAlways _ _ (List.prefix_refl _) rfl
    have hGone := hEnd.removed _ List.mem_cons_self (by decide) (by decide)
    exact absurd (congrArg Option.isSome hGone) (by decide)
  · exact Run.forall_steps_of_checks (P := Obeys twoParts (oneFrame false)) (by decide)
  · intro hAlways
    have hEnd := hAlways _ _ (List.prefix_refl _) rfl
    have hErrors := (hEnd.delivered _ List.mem_cons_self rfl).errors
    exact absurd hErrors (by decide)

end Camera3Device

end FrameworksAv
