import FrameworksAv.Camera3Device.Present

/-
  What the device did for a frame, by the progress of the HAL.

  A frame in flight has an entry, and the entry is gone when the frame is over. A result, a shutter
  and an error keep this, and they keep the numbers that order the frames of a kind behind the
  frames that were sent.

  Main declarations:
    * `Reached`, `Sorted`
    * `Served`, `Known`
    * `Known.takeResult`, `Known.takeShutter`, `Known.takeError`
-/

--
-- The order of the frames
--

namespace FrameworksAv

namespace Camera3Device

/- A next number is behind a frame of its kind that happened. -/
def Reached (requests : List Request) (happened : Nat → Prop) (next : Bool → Nat) : Prop :=
  ∀ kind, next kind = 0 ∨
    ∃ g ∈ requests, g.reprocess = kind ∧ happened g.frame ∧
      next kind ≤ g.frame + 1

/- The frames of its kind that happened are earlier. -/
def Earlier (requests : List Request) (happened : Nat → Prop) (q : Request) : Prop :=
  ∀ g ∈ requests, g.reprocess = q.reprocess → happened g.frame → g.frame < q.frame

theorem Reached.mono {requests : List Request} {happened happened' : Nat → Prop} {next : Bool → Nat}
    (hReached : Reached requests happened next) (hMono : ∀ f, happened f → happened' f) :
    Reached requests happened' next := by
  intro kind
  rcases hReached kind with hZero | ⟨g, hg, hKind, hHad, hLe⟩
  · exact Or.inl hZero
  · exact Or.inr ⟨g, hg, hKind, hMono _ hHad, hLe⟩

theorem Reached.bump {requests : List Request} {happened : Nat → Prop} {next : Bool → Nat}
    (hReached : Reached requests happened next) {q : Request} (hq : q ∈ requests)
    (hHad : happened q.frame) : Reached requests happened (bump next q.reprocess q.frame) := by
  intro kind
  unfold Camera3Device.bump
  by_cases hKind : kind = q.reprocess
  · rw [if_pos hKind]
    exact Or.inr ⟨q, hq, hKind.symm, hHad, Nat.mod_le (q.frame + 1) (2 ^ 32)⟩
  · rw [if_neg hKind]
    exact hReached kind

theorem Reached.le {requests : List Request} {happened : Nat → Prop} {next : Bool → Nat}
    (hReached : Reached requests happened next) {q : Request}
    (hEarlier : Earlier requests happened q) :
    next q.reprocess ≤ q.frame := by
  rcases hReached q.reprocess with
    hZero | ⟨g, hg, hKind, hHad, hLe⟩
  · omega
  · have hLt := hEarlier g hg hKind hHad
    omega

/- Two frames of one kind, the first with a lower number. -/
def InOrder (requests : List Request) (f f' : Nat) : Prop :=
  ∀ g ∈ requests, ∀ h ∈ requests, g.frame = f → h.frame = f' → g.reprocess = h.reprocess → f < f'

structure Sorted (requests : List Request) (happened : Nat → Prop)
    (finals : List CaptureResult) : Prop where
  had : ∀ x ∈ finals, happened x.frame
  ordered : finals.Pairwise fun x y => InOrder requests x.frame y.frame

theorem Sorted.mono {requests : List Request} {happened happened' : Nat → Prop}
    {finals : List CaptureResult} (hSorted : Sorted requests happened finals)
    (hMono : ∀ f, happened f → happened' f) : Sorted requests happened' finals where
  had := fun x hx => hMono _ (hSorted.had x hx)
  ordered := hSorted.ordered

/- A result of a frame behind those that happened. -/
theorem Sorted.append {requests : List Request} {happened happened' : Nat → Prop}
    {finals xs : List CaptureResult} (hSorted : Sorted requests happened finals)
    (hFrames : ∀ f g : Request, f ∈ requests → g ∈ requests → f.frame = g.frame → f = g)
    (hMono : ∀ f, happened f → happened' f) {q : Request} (hq : q ∈ requests)
    (hEarlier : Earlier requests happened q) (hHad : happened' q.frame) (hOne : xs.length ≤ 1)
    (hMine : ∀ x ∈ xs, x.frame = q.frame) : Sorted requests happened' (finals ++ xs) := by
  constructor
  · intro x hx
    rcases List.mem_append.mp hx with hOld | hNew
    · exact hMono _ (hSorted.had x hOld)
    · rw [hMine x hNew]
      exact hHad
  · refine List.pairwise_append.mpr ⟨hSorted.ordered, ?_, ?_⟩
    · match xs, hOne with
      | [], _ => exact List.Pairwise.nil
      | [x], _ => exact List.pairwise_singleton _ x
    · intro x hx y hy g hg h hh hgx hhy hKind
      rw [hMine y hy] at hhy ⊢
      have hSame := hFrames h q hh hq hhy
      subst hSame
      rw [← hgx]
      refine hEarlier g hg hKind ?_
      rw [hgx]
      exact hSorted.had x hx

--
-- Changes of one frame
--

/- The other frames are left alone. -/
def Elsewhere (frame : Nat) (d e : Device) : Prop :=
  ∀ g, g ≠ frame → e.view g = d.view g

theorem Only.elsewhere {frame : Nat} {f : View → View} {d e : Device} (hOnly : Only frame f d e) :
    Elsewhere frame d e :=
  fun _ hNe => hOnly.other hNe

theorem Elsewhere.trans {frame : Nat} {c d e : Device} (hFirst : Elsewhere frame c d)
    (hSecond : Elsewhere frame d e) : Elsewhere frame c e := by
  intro g hNe
  rw [hSecond g hNe, hFirst g hNe]

theorem Elsewhere.same (frame : Nat) {d e : Device} (hSame : ∀ g, e.view g = d.view g) :
    Elsewhere frame d e :=
  fun g _ => hSame g

/- What the numbers and the results become by a frame. -/
structure Sends (q : Request) (a b : Shared) : Prop where
  nextResult : b.nextResult = a.nextResult ∨ b.nextResult = bump a.nextResult q.reprocess q.frame
  finals : ∃ xs, b.finals = a.finals ++ xs ∧ xs.length ≤ 1 ∧ ∀ x ∈ xs, x.frame = q.frame
  nextShutter : b.nextShutter = a.nextShutter

theorem Sends.refl (q : Request) (a : Shared) : Sends q a a where
  nextResult := Or.inl rfl
  finals := ⟨[], (List.append_nil _).symm, Nat.zero_le 1, nofun⟩
  nextShutter := rfl

/- What a device does when it sends the result of a frame. -/
structure Sent (q : Request) (d e : Device) : Prop where
  elsewhere : Elsewhere q.frame d e
  entry : (e.view q.frame).entry = (d.view q.frame).entry
  returned : (e.view q.frame).returned = (d.view q.frame).returned
  shutters : (e.view q.frame).shutters = (d.view q.frame).shutters
  shared : Sends q d.shared e.shared

theorem Sent.refl (q : Request) (d : Device) : Sent q d d where
  elsewhere := fun _ _ => rfl
  entry := rfl
  returned := rfl
  shutters := rfl
  shared := Sends.refl q d.shared

theorem SET_ERR_shared (d : Device) (frame : Nat) : (SET_ERR d frame).shared = d.shared :=
  rfl

theorem setNextResult_sends (d : Device) (q : Request) :
    Sends q d.shared (d.setNextResult q.reprocess (nextFrame q.frame)).shared := by
  rw [setNextResult_shared]
  exact
    { nextResult := Or.inr rfl
      finals := ⟨[], (List.append_nil _).symm, Nat.zero_le 1, nofun⟩
      nextShutter := rfl }

theorem setNextResult_sent (d : Device) (q : Request) :
    Sent q d (d.setNextResult q.reprocess (nextFrame q.frame)) where
  elsewhere := Elsewhere.same _ (setNextResult_view d _ _)
  entry := by rw [setNextResult_view]
  returned := by rw [setNextResult_view]
  shutters := by rw [setNextResult_view]
  shared := setNextResult_sends d q

theorem Sent.setErr {q : Request} {d e : Device} (hSent : Sent q d e) :
    Sent q d (SET_ERR e q.frame) where
  elsewhere := hSent.elsewhere.trans (SET_ERR_only e q.frame).elsewhere
  entry := by rw [(SET_ERR_only e q.frame).here]; exact hSent.entry
  returned := by
    rw [(SET_ERR_only e q.frame).here]; exact hSent.returned
  shutters := by
    rw [(SET_ERR_only e q.frame).here]; exact hSent.shutters
  shared := hSent.shared

/- The number is set, and a result goes to the queue. -/
def pushResult (d : Device) (q : Request) (x : CaptureResult) : Device :=
  { d.setNextResult q.reprocess (nextFrame q.frame) with
    mResultQueue := (d.setNextResult q.reprocess (nextFrame q.frame)).mResultQueue ++ [x] }

theorem pushResult_sent (d : Device) {q : Request} {x : CaptureResult} (hFrame : x.frame = q.frame)
    (hFinal : x.isFinal = true) : Sent q d (pushResult d q x) := by
  have hNumber := setNextResult_sent d q
  have hOnly := push_final_only (d.setNextResult q.reprocess (nextFrame q.frame)) hFinal
  rw [hFrame] at hOnly
  have hShared := push_final_shared (d.setNextResult q.reprocess (nextFrame q.frame)) hFinal
  refine
    { elsewhere := hNumber.elsewhere.trans hOnly.elsewhere
      entry := ?_
      returned := ?_
      shutters := ?_
      shared := ?_ }
  · exact (congrArg View.entry hOnly.here).trans hNumber.entry
  · exact (congrArg View.returned hOnly.here).trans hNumber.returned
  · exact (congrArg View.shutters hOnly.here).trans hNumber.shutters
  · unfold pushResult
    rw [hShared, setNextResult_shared]
    refine
      { nextResult := Or.inr rfl
        finals := ⟨[x], rfl, Nat.le_refl 1, ?_⟩
        nextShutter := rfl }
    intro y hy
    rw [List.mem_singleton.mp hy]
    exact hFrame

theorem pushResult_here (d : Device) {q : Request} {x : CaptureResult} (hFrame : x.frame = q.frame)
    (hFinal : x.isFinal = true) :
    (pushResult d q x).view q.frame =
      { d.view q.frame with
        finals := (d.view q.frame).finals ++ [x] } := by
  have hOnly := push_final_only (d.setNextResult q.reprocess (nextFrame q.frame)) hFinal
  rw [hFrame] at hOnly
  have hHere := hOnly.here
  rw [setNextResult_view] at hHere
  exact hHere

theorem sendCaptureResult_sent (cfg : Config) {d : Device} {q : Request} {request : InFlightRequest}
    (hKind : request.hasInputBuffer = q.reprocess) (hOrder : d.nextResult q.reprocess ≤ q.frame)
    (m collected : CameraMetadata) :
    Sent q d (sendCaptureResult cfg d q.frame request m collected) := by
  rw [← hKind] at hOrder
  rcases sendCaptureResult_cases cfg hOrder m collected with
    ⟨-, hSame⟩ | ⟨-, -, hErr⟩ | ⟨-, -, hPush⟩
  · rw [hSame]
    exact Sent.refl q d
  · rw [hErr, hKind]
    exact (setNextResult_sent d q).setErr
  · rw [hPush, hKind]
    exact pushResult_sent d rfl rfl

/- A result with its timestamp is sent. -/
theorem sendCaptureResult_here (cfg : Config) {d : Device} {q : Request} {request : InFlightRequest}
    (hKind : request.hasInputBuffer = q.reprocess) (hOrder : d.nextResult q.reprocess ≤ q.frame)
    {m collected : CameraMetadata} (hSome : m ≠ [])
    (hFound : find (completeMetadata cfg q.frame m collected) .ANDROID_SENSOR_TIMESTAMP ≠ []) :
    (sendCaptureResult cfg d q.frame request m collected).view q.frame =
      { d.view q.frame with
        finals := (d.view q.frame).finals ++ [finalResult cfg q.frame request m collected] } := by
  rw [← hKind] at hOrder
  rcases sendCaptureResult_cases cfg hOrder m collected with
    ⟨hNil, -⟩ | ⟨-, hNone, -⟩ | ⟨-, -, hPush⟩
  · exact absurd hNil hSome
  · exact absurd hNone hFound
  · rw [hPush, hKind]
    exact pushResult_here d rfl rfl

--
-- What a frame got
--

/- Buffers that go back to their streams with a timestamp. -/
def Request.returns (q : Request) (buffers : List BufferRef) (timestamp : Int) : List Returned :=
  buffers.map fun b => ⟨q.frame, b, timestamp⟩

theorem Request.returns_buffers (q : Request) (buffers : List BufferRef) (timestamp : Int) :
    (q.returns buffers timestamp).map Returned.buffer = buffers := by
  unfold Request.returns
  rw [List.map_map]
  exact List.map_id buffers

/- The metadata of the result that ends a frame. -/
def delivered (cfg : Config) (q : Request) (p : Progress) (m : CameraMetadata) : CameraMetadata :=
  overrideResultForPrecaptureCancel (completeMetadata cfg q.frame m (p.collected cfg)) q.override

/- The buffers that went back with the shutter. -/
def Progress.sentBuffers (p : Progress) (q : Request) : List Returned :=
  if p.shutter then q.returns p.outputs q.timestamp else []

/- What a frame that does not fail is to get. -/
structure Served (cfg : Config) (q : Request) (p : Progress) (v : View) : Prop where
  returned : v.returned = p.sentBuffers q
  finals :
    v.finals.map CaptureResult.mMetadata = if p.shutter then p.final.toList.map (delivered cfg q p)
      else []
  shutters : v.shutters = if p.shutter then [(q.frame, q.timestamp)] else []
  errors : v.errors = []

structure Known (cfg : Config) (q : Request) (p : Progress) (v : View) : Prop where
  present :
    ∀ r, v.entry = some r →
      Present cfg q p r ∧ ¬p.complete q ∧ (p.failed → ¬p.allBuffers q) ∧
        v.returned = p.sentBuffers q
  absent :
    v.entry = none →
      p.allBuffers q ∧ (q.fails = false → p.complete q) ∧ v.returned.map Returned.buffer = p.outputs
  served : q.fails = false → Served cfg q p v

/-
  A frame that does not fail has nothing left to come when an error of a buffer and all its buffers
  arrived.
-/
def Settled (q : Request) (p : Progress) : Prop :=
  q.fails = false → p.status ≠ .OK → p.allBuffers q → p.complete q

instance (q : Request) (p : Progress) : Decidable (Settled q p) :=
  inferInstanceAs (Decidable (_ → _))

/- The removal leaves the other frames and the order alone. -/
theorem removeIfReady_frame (d : Device) (frame : Nat) :
    Elsewhere frame d (removeInFlightRequestIfReadyLocked d frame) ∧
      (removeInFlightRequestIfReadyLocked d frame).shared = d.shared := by
  unfold removeInFlightRequestIfReadyLocked
  split
  · exact ⟨fun _ _ => rfl, rfl⟩
  · rename_i request hEntry
    split
    · refine ⟨?_, removeRequest_shared d frame request⟩
      unfold removeRequest
      refine Elsewhere.trans ?_
        ((returnOutputBuffers_only _ frame _ 0).trans (remove_only _ frame)).elsewhere
      split
      · exact (SET_ERR_only d frame).elsewhere
      · exact fun _ _ => rfl
    · exact ⟨fun _ _ => rfl, rfl⟩

theorem removeRequest_here (d : Device) (frame : Nat) (request : InFlightRequest) :
    ∃ errors,
      (removeRequest d frame request).view frame =
        { d.view frame with
          entry := none
          returned := (d.view frame).returned ++ request.pendingOutputBuffers.map fun b =>
                ⟨frame, b, 0⟩
          errors := errors } ∧
      (¬(request.requestStatus = .OK ∧ request.sensorTimestamp ≠ request.shutterTimestamp) →
        errors = (d.view frame).errors) := by
  have hRest (c : Device) :=
    ((returnOutputBuffers_only c frame request.pendingOutputBuffers 0).trans
      (remove_only _ frame)).here
  unfold removeRequest
  split
  · rename_i hBad
    refine ⟨(d.view frame).errors ++ [frame], ?_, ?_⟩
    · refine (hRest (SET_ERR d frame)).trans ?_
      rw [(SET_ERR_only d frame).here]
      exact rfl
    · exact fun hNot => absurd hBad hNot
  · exact ⟨(d.view frame).errors, hRest d, fun _ => rfl⟩

/- The removal decides whether the frame is over. -/
theorem Known.settle {cfg : Config} {q : Request} {p : Progress} {d : Device} {r : InFlightRequest}
    (hEntry : d.mInFlightMap.lookup q.frame = some r) (hPresent : Present cfg q p r)
    (hSound : Sound cfg q p) (hReturned : (d.view q.frame).returned = p.sentBuffers q)
    (hServed : q.fails = false → Served cfg q p (d.view q.frame)) (hSettled : Settled q p) :
    Known cfg q p ((removeInFlightRequestIfReadyLocked d q.frame).view q.frame) := by
  have hReady := hPresent.isReady hSound
  rcases removeIfReady_cases hEntry with ⟨hNot, hSame⟩ | ⟨hIs, hGone⟩
  · have hWaits : ¬(p.allBuffers q ∧ (p.status ≠ .OK ∨ p.final.isSome ∧ p.shutter)) := by
      rw [← hReady, hNot]
      exact nofun
    rw [hSame]
    refine
      { present := ?_
        absent := ?_
        served := hServed }
    · intro r' hr'
      have hSameEntry : r' = r := by
        have hBoth := hr'.symm.trans hEntry
        cases hBoth
        rfl
      subst hSameEntry
      refine ⟨hPresent, ?_, ?_, hReturned⟩
      · rintro ⟨hAll, hFinal, hShutter⟩
        exact hWaits ⟨hAll, Or.inr ⟨hFinal, hShutter⟩⟩
      · intro hFailed hAll
        exact hWaits ⟨hAll, Or.inl (hSound.failed hFailed).2⟩
    · intro hNone
      have hBoth := hNone.symm.trans hEntry
      contradiction
  · rcases hReady.mp hIs with ⟨hAll, hWhy⟩
    rcases removeRequest_here d q.frame r with ⟨errors, hHere, hErrors⟩
    have hComplete : q.fails = false → p.complete q := by
      intro hGood
      rcases hWhy with hStatus | hBoth
      · exact hSettled hGood hStatus hAll
      · exact ⟨hAll, hBoth⟩
    rw [hGone, hHere]
    refine
      { present := ?_
        absent := ?_
        served := ?_ }
    · intro r' hr'
      have hNever : none = some r' := hr'
      contradiction
    · intro hNone
      refine ⟨hAll, hComplete, ?_⟩
      simp only [hReturned, hPresent.buffers, List.map_append]
      unfold Progress.sentBuffers
      cases hShutter : p.shutter with
      | true => simp [Request.returns_buffers]
      | false =>
        have hBack := q.returns_buffers p.outputs 0
        unfold Request.returns at hBack
        simp only [Bool.false_eq_true, if_false, List.map_nil, List.nil_append]
        exact hBack
    · intro hGood
      rcases hComplete hGood with ⟨-, hFinal, hShutter⟩
      have hOld := hServed hGood
      refine
        { returned := ?_
          finals := hOld.finals
          shutters := hOld.shutters
          errors := ?_ }
      · simp only [hPresent.buffers, hShutter, if_true, List.map_nil, List.append_nil]
        exact hOld.returned
      · refine (hErrors ?_).trans hOld.errors
        rintro ⟨-, hNe⟩
        exact hNe (hPresent.timestamps hSound hGood hFinal hShutter)

--
-- The result of a frame
--

theorem mem_of_mem_update {m : CameraMetadata} {tag : Tag} {data : List Int} {e : Entry}
    (hMem : e ∈ update m tag data) : e ∈ m ∨ e.tag = tag := by
  induction m with
  | nil =>
    rw [List.mem_singleton.mp hMem]
    exact Or.inr rfl
  | cons x rest ih =>
    unfold update at hMem
    split at hMem
    · rcases List.mem_cons.mp hMem with hHead | hRest
      · rw [hHead]
        exact Or.inr rfl
      · exact Or.inl (List.mem_cons_of_mem x hRest)
    · rcases List.mem_cons.mp hMem with hHead | hRest
      · rw [hHead]
        exact Or.inl List.mem_cons_self
      · rcases ih hRest with hOld | hTag
        · exact Or.inl (List.mem_cons_of_mem x hOld)
        · exact Or.inr hTag

theorem mem_update_of_ne {m : CameraMetadata} {tag : Tag} (data : List Int) {e : Entry}
    (hMem : e ∈ m) (hNe : e.tag ≠ tag) : e ∈ update m tag data := by
  induction m with
  | nil => simp at hMem
  | cons x rest ih =>
    unfold update
    split
    · rename_i hTag
      rcases List.mem_cons.mp hMem with hHead | hRest
      · rw [hHead] at hNe
        exact absurd hTag hNe
      · exact List.mem_cons_of_mem _ hRest
    · rcases List.mem_cons.mp hMem with hHead | hRest
      · rw [hHead]
        exact List.mem_cons_self
      · exact List.mem_cons_of_mem _ (ih hRest)

theorem completeMetadata_congr (cfg : Config) (frame : Nat) (m : CameraMetadata)
    {c c' : CameraMetadata} (hSame : cfg.mUsePartialResult → c = c') :
    completeMetadata cfg frame m c = completeMetadata cfg frame m c' := by
  unfold completeMetadata
  cases hUses : cfg.mUsePartialResult with
  | false => rfl
  | true => rw [hSame hUses]

theorem mem_of_mem_completeMetadata {cfg : Config} {frame : Nat} {m c : CameraMetadata} {e : Entry}
    (hMem : e ∈ completeMetadata cfg frame m c) :
    e ∈ m ∨ e.tag = .ANDROID_REQUEST_FRAME_COUNT ∨ e ∈ c := by
  unfold completeMetadata at hMem
  simp only at hMem
  split at hMem
  · rcases List.mem_append.mp hMem with hFirst | hLast
    · rcases mem_of_mem_update hFirst with hOld | hTag
      · exact Or.inl hOld
      · exact Or.inr (Or.inl hTag)
    · exact Or.inr (Or.inr hLast)
  · rcases mem_of_mem_update hMem with hOld | hTag
    · exact Or.inl hOld
    · exact Or.inr (Or.inl hTag)

theorem mem_completeMetadata {cfg : Config} (frame : Nat) {m c : CameraMetadata} {e : Entry}
    (hNe : e.tag ≠ .ANDROID_REQUEST_FRAME_COUNT) (hMem : e ∈ m ∨ cfg.mUsePartialResult ∧ e ∈ c) :
    e ∈ completeMetadata cfg frame m c := by
  unfold completeMetadata
  rcases hMem with hOwn | ⟨hUses, hPart⟩
  · have hKept := mem_update_of_ne [(frame : Int)] hOwn hNe
    simp only
    split
    · exact List.mem_append_left c hKept
    · exact hKept
  · simp only [hUses, if_true]
    exact List.mem_append_right _ hPart

theorem Sound.uses {cfg : Config} {q : Request} {p : Progress} (hSound : Sound cfg q p) {e : Entry}
    (hMem : e ∈ p.parts.flatten) : cfg.mUsePartialResult := by
  refine hSound.parts ?_
  intro hNil
  simp [hNil] at hMem

/- The timestamp of the sensor is in the completed metadata. -/
theorem Sound.timestamp_found {cfg : Config} {q : Request} {p : Progress} (hSound : Sound cfg q p)
    (hGood : q.fails = false) {m : CameraMetadata} (hFinal : p.final = some m) :
    m ≠ [] ∧
      find (completeMetadata cfg q.frame m (p.collected cfg)) .ANDROID_SENSOR_TIMESTAMP ≠ [] := by
  rcases hSound.final hGood m hFinal with ⟨hSome, e, he, hTag⟩
  have hAll :
      ∀ x ∈ completeMetadata cfg q.frame m (p.collected cfg),
        x.tag = .ANDROID_SENSOR_TIMESTAMP → x.data = [q.timestamp] := by
    intro x hx hSensor
    refine hSound.sensor x ?_ hSensor
    unfold Progress.metadata
    rw [hFinal, Option.getD_some]
    rcases mem_of_mem_completeMetadata hx with
      hOwn | hCount | hPart
    · exact List.mem_append_right _ hOwn
    · rw [hCount] at hSensor
      contradiction
    · rcases mem_foldl_collect cfg p.parts hPart with
        hNone | hFlat
      · simp at hNone
      · exact List.mem_append_left _ hFlat
  have hHas :
      ∃ x ∈ completeMetadata cfg q.frame m (p.collected cfg),
        x.tag = .ANDROID_SENSOR_TIMESTAMP := by
    refine ⟨e, mem_completeMetadata q.frame ?_ ?_, hTag⟩
    · rw [hTag]
      exact nofun
    · unfold Progress.metadata at he
      rw [hFinal, Option.getD_some] at he
      rcases List.mem_append.mp he with hPart | hOwn
      · refine Or.inr ⟨hSound.uses hPart, ?_⟩
        refine foldl_collect_mem cfg p.parts ?_ (Or.inr hPart)
        rw [hTag]
        exact fun _ => nofun
      · exact Or.inl hOwn
  rw [find_eq hAll hHas]
  exact ⟨hSome, nofun⟩

/- The result that a frame in flight sends is the one it gets. -/
theorem finalResult_metadata {cfg : Config} {q : Request} {p : Progress} {request : InFlightRequest}
    (hOverride : request.aeTriggerCancelOverride = q.override) (m : CameraMetadata)
    {c : CameraMetadata} (hCollected : cfg.mUsePartialResult → c = p.collected cfg) :
    (finalResult cfg q.frame request m c).mMetadata = delivered cfg q p m := by
  unfold finalResult delivered
  simp only
  rw [hOverride, completeMetadata_congr cfg q.frame m hCollected]

--
-- Steps of a frame
--

/- The view when the result of a frame was sent. -/
theorem sendFinal_view {cfg : Config} {d : Device} {q : Request} {p : Progress}
    {request : InFlightRequest} (hSound : Sound cfg q p) (hGood : q.fails = false)
    (hKind : request.hasInputBuffer = q.reprocess)
    (hOverride : request.aeTriggerCancelOverride = q.override)
    (hOrder : d.nextResult q.reprocess ≤ q.frame) {m : CameraMetadata} (hFinal : p.final = some m)
    {c : CameraMetadata} (hCollected : cfg.mUsePartialResult → c = p.collected cfg) :
    ∃ x,
      (sendCaptureResult cfg d q.frame request m c).view q.frame =
        { d.view q.frame with
          finals := (d.view q.frame).finals ++ [x] } ∧
      x.mMetadata = delivered cfg q p m := by
  rcases hSound.timestamp_found hGood hFinal with ⟨hSome, hFound⟩
  rw [← completeMetadata_congr cfg q.frame m hCollected] at hFound
  exact ⟨_, sendCaptureResult_here cfg hKind hOrder hSome hFound,
    finalResult_metadata hOverride m hCollected⟩

/- The pending metadata is sent, if it came. -/
theorem sendPending_view {cfg : Config} {d : Device} {q : Request} {p : Progress}
    {request : InFlightRequest} (hPresent : Present cfg q p request) (hSound : Sound cfg q p)
    (hGood : q.fails = false) (hNo : p.shutter = false)
    (hOrder : d.nextResult q.reprocess ≤ q.frame) :
    ∃ xs,
      (sendCaptureResult cfg d q.frame request request.pendingMetadata
        request.collectedResult).view q.frame =
        { d.view q.frame with
          finals := (d.view q.frame).finals ++ xs } ∧
      xs.map CaptureResult.mMetadata = p.final.toList.map (delivered cfg q p) := by
  have hPending := hPresent.pending hNo
  cases hFinal : p.final with
  | none =>
    rw [hFinal, Option.getD_none] at hPending
    refine ⟨[], ?_, rfl⟩
    unfold sendCaptureResult
    rw [if_pos hPending, List.append_nil]
  | some m =>
    rw [hFinal, Option.getD_some] at hPending
    rw [hPending]
    rcases sendFinal_view hSound hGood hPresent.input hPresent.override hOrder hFinal
      (fun hUses => hPresent.collected hUses (Or.inl hNo)) with ⟨x, hView, hMetadata⟩
    refine ⟨[x], hView, ?_⟩
    simp only [List.map_cons, List.map_nil, hMetadata, Option.toList_some]

/- The shutter is told to the listener. -/
def noteShutter (d : Device) (q : Request) : Device :=
  { d.setNextShutter q.reprocess (nextFrame q.frame) with
    shutters :=
      (d.setNextShutter q.reprocess (nextFrame q.frame)).shutters ++ [(q.frame, q.timestamp)] }

theorem noteShutter_only (d : Device) (q : Request) :
    Elsewhere q.frame d (noteShutter d q) ∧
      (noteShutter d q).view q.frame =
        { d.view q.frame with
          shutters := (d.view q.frame).shutters ++ [(q.frame, q.timestamp)] } := by
  have hNote :=
    note_shutter_only (d.setNextShutter q.reprocess (nextFrame q.frame)) q.frame q.timestamp
  constructor
  · exact (Elsewhere.same _ (setNextShutter_view d _ _)).trans hNote.elsewhere
  · refine hNote.here.trans ?_
    rw [setNextShutter_view]

theorem noteShutter_shared (d : Device) (q : Request) :
    (noteShutter d q).shared =
      { d.shared with
        nextShutter := bump d.shared.nextShutter q.reprocess q.frame } :=
  setNextShutter_shared d q.reprocess (nextFrame q.frame)

/- The entry of a frame that got its shutter. -/
def InFlightRequest.withShutter (request : InFlightRequest) (q : Request) : InFlightRequest :=
  { request with
    shutterTimestamp := q.timestamp
    pendingOutputBuffers := [] }

/- The device with everything that waited for the shutter. -/
def shutterSent (cfg : Config) (d : Device) (q : Request) (request : InFlightRequest) : Device :=
  (returnOutputBuffers
    (sendCaptureResult cfg (noteShutter d q) q.frame request
      request.pendingMetadata request.collectedResult)
    q.frame request.pendingOutputBuffers q.timestamp).edit q.frame (request.withShutter q)

theorem notifyShutter_eq (cfg : Config) {d : Device} {q : Request} {request : InFlightRequest}
    (hEntry : d.mInFlightMap.lookup q.frame = some request)
    (hKind : request.hasInputBuffer = q.reprocess) (hOrder : d.nextShutter q.reprocess ≤ q.frame) :
    notifyShutter cfg d q.frame q.timestamp =
      removeInFlightRequestIfReadyLocked (shutterSent cfg d q request) q.frame := by
  unfold shutterSent noteShutter
  rw [← hKind] at hOrder ⊢
  unfold notifyShutter
  simp only [hEntry, if_neg (Nat.not_lt.mpr hOrder)]
  exact rfl

/- What a shutter does apart from the removal. -/
theorem shutterSent_sent (cfg : Config) {d : Device} {q : Request} {request : InFlightRequest}
    (hKind : request.hasInputBuffer = q.reprocess) (hOrder : d.nextResult q.reprocess ≤ q.frame) :
    Elsewhere q.frame d (shutterSent cfg d q request) ∧
      Sends q
        { d.shared with
          nextShutter := bump d.shared.nextShutter q.reprocess q.frame }
        (shutterSent cfg d q request).shared ∧
      (shutterSent cfg d q request).view q.frame =
        { (sendCaptureResult cfg (noteShutter d q) q.frame request request.pendingMetadata
            request.collectedResult).view q.frame with
          entry := some (request.withShutter q)
          returned :=
            (d.view q.frame).returned ++ q.returns request.pendingOutputBuffers q.timestamp } ∧
      ((shutterSent cfg d q request).view q.frame).shutters =
        (d.view q.frame).shutters ++ [(q.frame, q.timestamp)] := by
  have hNextResult : (noteShutter d q).nextResult q.reprocess ≤ q.frame := by
    have hShared := congrArg Shared.nextResult (noteShutter_shared d q)
    have hSame : (noteShutter d q).nextResult = d.nextResult := hShared
    rw [hSame]
    exact hOrder
  have hSent :=
    sendCaptureResult_sent cfg hKind hNextResult request.pendingMetadata request.collectedResult
  have hReturn :=
    returnOutputBuffers_only
      (sendCaptureResult cfg (noteShutter d q) q.frame request
        request.pendingMetadata request.collectedResult)
      q.frame request.pendingOutputBuffers q.timestamp
  have hEdit := hReturn.trans (edit_only _ q.frame (request.withShutter q))
  have hReturned := hSent.returned
  have hShutters := hSent.shutters
  rw [(noteShutter_only d q).2] at hReturned hShutters
  refine ⟨?_, ?_, ?_, ?_⟩
  · exact ((noteShutter_only d q).1.trans hSent.elsewhere).trans hEdit.elsewhere
  · rw [← noteShutter_shared]
    exact hSent.shared
  · refine hEdit.here.trans ?_
    simp only [Function.comp_apply, hReturned]
    exact rfl
  · exact (congrArg View.shutters hEdit.here).trans hShutters

theorem Known.takeShutter {cfg : Config} {d : Device} {q : Request} {p : Progress}
    {request : InFlightRequest} (hKnown : Known cfg q p (d.view q.frame)) (hSound : Sound cfg q p)
    (hEntry : d.mInFlightMap.lookup q.frame = some request) (hNo : p.shutter = false)
    (hTime : q.timestamp ≠ 0) (hOrder : d.nextResult q.reprocess ≤ q.frame)
    (hSettled : Settled q { p with shutter := true }) :
    Known cfg q { p with shutter := true }
      ((removeInFlightRequestIfReadyLocked (shutterSent cfg d q request) q.frame).view
        q.frame) := by
  rcases hKnown.present request hEntry with ⟨hPresent, -, -, hReturned⟩
  rcases shutterSent_sent cfg hPresent.input hOrder with ⟨-, -, hView, hShutters⟩
  have hNone : (d.view q.frame).returned = [] := by
    rw [hReturned]
    unfold Progress.sentBuffers
    simp [hNo]
  have hBack :
      ((shutterSent cfg d q request).view q.frame).returned =
        Progress.sentBuffers { p with shutter := true } q := by
    rw [hView]
    simp only [hNone, List.nil_append, hPresent.buffers, hNo, Bool.false_eq_true, if_false]
    exact rfl
  refine Known.settle (r := request.withShutter q) ?_
    hPresent.takeShutter (hSound.takeShutter hTime) hBack ?_ hSettled
  · exact congrArg View.entry hView
  · intro hGood
    have hOld := hKnown.served hGood
    have hFinals := hOld.finals
    have hShown := hOld.shutters
    rw [hNo] at hFinals hShown
    simp only [Bool.false_eq_true, if_false, List.map_eq_nil_iff] at hFinals hShown
    have hNext : (noteShutter d q).nextResult q.reprocess ≤ q.frame := by
      have hSame : (noteShutter d q).nextResult = d.nextResult :=
        congrArg Shared.nextResult (noteShutter_shared d q)
      rw [hSame]
      exact hOrder
    rcases sendPending_view hPresent hSound hGood hNo hNext with ⟨xs, hSent, hMetadata⟩
    rw [(noteShutter_only d q).2] at hSent
    refine
      { returned := hBack
        finals := ?_
        shutters := ?_
        errors := ?_ }
    · rw [hView, hSent]
      simp only [hFinals, List.nil_append, if_true]
      exact hMetadata
    · rw [hShutters, hShown]
      exact rfl
    · rw [hView, hSent]
      exact hOld.errors

/- The device with what a result has, apart from the removal. -/
def resultSent (cfg : Config) (d : Device) (request : InFlightRequest)
    (result : HalResult) : Device :=
  sendAtOnce cfg
    ((takePartial cfg d (noteCount request result) result).1.edit
      result.frame_number (request.kept cfg d result))
    (request.afterResult cfg d result) (collectedFor cfg d request result) result

/- The entry is changed before anything is sent. -/
theorem kept_edit (cfg : Config) (d : Device) (frame : Nat) (request : InFlightRequest)
    (result : HalResult) :
    Elsewhere frame d
        ((takePartial cfg d (noteCount request result)
          result).1.edit frame (request.kept cfg d result)) ∧
      ((takePartial cfg d (noteCount request result)
          result).1.edit frame (request.kept cfg d result)).shared =
        d.shared ∧
      ((takePartial cfg d (noteCount request result)
          result).1.edit frame (request.kept cfg d result)).view frame =
        { d.view frame with
          entry := some (request.kept cfg d result) } := by
  have hEdit :=
    edit_only (takePartial cfg d (noteCount request result) result).1
      frame (request.kept cfg d result)
  refine ⟨?_, ?_, ?_⟩
  · exact
      (Elsewhere.same _
        (takePartial_view cfg d (noteCount request result) result)).trans hEdit.elsewhere
  · exact takePartial_shared cfg d (noteCount request result) result
  · refine hEdit.here.trans ?_
    rw [takePartial_view]

theorem afterResult_fields (cfg : Config) (d : Device) (request : InFlightRequest)
    (result : HalResult) :
    (request.afterResult cfg d result).shutterTimestamp = request.shutterTimestamp ∧
      (request.afterResult cfg d result).hasInputBuffer = request.hasInputBuffer ∧
      (request.afterResult cfg d result).aeTriggerCancelOverride =
        request.aeTriggerCancelOverride := by
  rcases afterResult_eq cfg d request result with ⟨extras, sent, hAfter⟩
  rw [hAfter]
  exact ⟨rfl, rfl, rfl⟩

/- Before the shutter a result is only kept. -/
theorem resultSent_before {cfg : Config} {d : Device} {q : Request} {p : Progress}
    {request : InFlightRequest} {result : HalResult} (hPresent : Present cfg q p request)
    (hSound : Sound cfg q p) (hNo : p.shutter = false) :
    resultSent cfg d request result =
      (takePartial cfg d (noteCount request result)
        result).1.edit result.frame_number (request.kept cfg d result) := by
  unfold resultSent sendAtOnce
  rw [if_pos]
  rw [(afterResult_fields cfg d request result).1]
  exact (hPresent.shutter_eq_zero hSound).mpr hNo

/- The device when the buffers of a result went back. -/
def buffersSent (cfg : Config) (d : Device) (q : Request) (request : InFlightRequest)
    (result : HalResult) : Device :=
  returnOutputBuffers
    ((takePartial cfg d (noteCount request result)
      result).1.edit q.frame (request.kept cfg d result))
    q.frame result.output_buffers q.timestamp

/- After the shutter everything is sent at once. -/
theorem resultSent_behind {cfg : Config} {d : Device} {q : Request} {p : Progress}
    {request : InFlightRequest} {result : HalResult} (hFrame : q.frame = result.frame_number)
    (hPresent : Present cfg q p request) (hSound : Sound cfg q p) (hShutter : p.shutter = true) :
    resultSent cfg d request result =
      match finalMetadata cfg result with
      | none => buffersSent cfg d q request result
      | some m =>
        sendCaptureResult cfg (buffersSent cfg d q request result) q.frame
          (request.afterResult cfg d result) m (collectedFor cfg d request result) := by
  have hTime : (request.afterResult cfg d result).shutterTimestamp = q.timestamp := by
    rw [(afterResult_fields cfg d request result).1, hPresent.shutter, if_pos hShutter]
  unfold resultSent sendAtOnce buffersSent
  rw [hTime, if_neg (hSound.shutter hShutter), hFrame] <;> exact rfl

theorem buffersSent_sent (cfg : Config) (d : Device) (q : Request) (request : InFlightRequest)
    (result : HalResult) :
    Elsewhere q.frame d (buffersSent cfg d q request result) ∧
      (buffersSent cfg d q request result).shared = d.shared ∧
      (buffersSent cfg d q request result).view q.frame =
        { d.view q.frame with
          entry := some (request.kept cfg d result)
          returned :=
            (d.view q.frame).returned ++ q.returns result.output_buffers q.timestamp } := by
  rcases kept_edit cfg d q.frame request result with ⟨hElse, hShared, hView⟩
  have hReturn :=
    returnOutputBuffers_only
      ((takePartial cfg d (noteCount request result)
        result).1.edit q.frame (request.kept cfg d result))
      q.frame result.output_buffers q.timestamp
  refine ⟨hElse.trans hReturn.elsewhere, hShared, ?_⟩
  refine hReturn.here.trans ?_
  rw [hView]
  exact rfl

/- A result in its order changes one frame. -/
structure ResultSent (cfg : Config) (q : Request) (p : Progress) (result : HalResult)
    (kept : InFlightRequest) (d e : Device) : Prop where
  elsewhere : Elsewhere q.frame d e
  shared :
    e.shared = d.shared ∨ p.shutter ∧ (finalMetadata cfg result).isSome ∧ Sends q d.shared e.shared
  entry : (e.view q.frame).entry = some kept
  returned :
    (e.view q.frame).returned =
      (d.view q.frame).returned ++ if p.shutter then q.returns result.output_buffers q.timestamp
        else []
  shutters : (e.view q.frame).shutters = (d.view q.frame).shutters

theorem resultSent_sent {cfg : Config} {d : Device} {q : Request} {p : Progress}
    {request : InFlightRequest} {result : HalResult} (hFrame : q.frame = result.frame_number)
    (hPresent : Present cfg q p request) (hSound : Sound cfg q p)
    (hOrder : (finalMetadata cfg result).isSome → d.nextResult q.reprocess ≤ q.frame) :
    ResultSent cfg q p result (request.kept cfg d result) d (resultSent cfg d request result) := by
  cases hShutter : p.shutter with
  | false =>
    rw [resultSent_before hPresent hSound hShutter, ← hFrame]
    rcases kept_edit cfg d q.frame request result with ⟨hElse, hShared, hView⟩
    refine
      { elsewhere := hElse
        shared := Or.inl hShared
        entry := by rw [hView]
        returned := ?_
        shutters := by rw [hView] }
    simp [hView, hShutter]
  | true =>
    rw [resultSent_behind hFrame hPresent hSound hShutter]
    rcases buffersSent_sent cfg d q request result with ⟨hElse, hShared, hView⟩
    cases hFinal : finalMetadata cfg result with
    | none =>
      refine
        { elsewhere := hElse
          shared := Or.inl hShared
          entry := by rw [hView]
          returned := ?_
          shutters := by rw [hView] }
      simp [hView, hShutter]
    | some m =>
      have hNext : (buffersSent cfg d q request result).nextResult q.reprocess ≤ q.frame := by
        have hSame := congrArg Shared.nextResult hShared
        have hNumbers : (buffersSent cfg d q request result).nextResult = d.nextResult := hSame
        rw [hNumbers]
        exact hOrder (by rw [hFinal]; rfl)
      have hKind : (request.afterResult cfg d result).hasInputBuffer = q.reprocess :=
        (afterResult_fields cfg d request result).2.1.trans hPresent.input
      have hSent := sendCaptureResult_sent cfg hKind hNext m (collectedFor cfg d request result)
      refine
        { elsewhere := hElse.trans hSent.elsewhere
          shared := Or.inr ⟨hShutter, ?_, ?_⟩
          entry := ?_
          returned := ?_
          shutters := ?_ }
      · rw [hFinal]
        exact rfl
      · rw [← hShared]
        exact hSent.shared
      · rw [hSent.entry, hView]
      · rw [hSent.returned, hView, if_pos hShutter]
      · rw [hSent.shutters, hView]

/- What a frame that does not fail gets by a result. -/
theorem resultSent_served {cfg : Config} {d : Device} {q : Request} {p : Progress}
    {request : InFlightRequest} {result : HalResult} (hFrame : q.frame = result.frame_number)
    (hPresent : Present cfg q p request) (hSound : Sound cfg q p)
    (hNew : Sound cfg q (p.takeResult cfg result)) (hGood : q.fails = false)
    (hOnce : result.result.isSome → p.final = none)
    (hOrder : (finalMetadata cfg result).isSome → d.nextResult q.reprocess ≤ q.frame) :
    ∃ xs,
      ((resultSent cfg d request result).view q.frame).finals = (d.view q.frame).finals ++ xs ∧
        xs.map CaptureResult.mMetadata =
          (if p.shutter then
            (finalMetadata cfg result).toList.map (delivered cfg q (p.takeResult cfg result))
          else []) ∧
        ((resultSent cfg d request result).view q.frame).errors = (d.view q.frame).errors := by
  cases hShutter : p.shutter with
  | false =>
    rw [resultSent_before hPresent hSound hShutter, ← hFrame]
    rcases kept_edit cfg d q.frame request result with ⟨-, -, hView⟩
    rw [hView]
    exact ⟨[], (List.append_nil _).symm, rfl, rfl⟩
  | true =>
    rw [resultSent_behind hFrame hPresent hSound hShutter]
    rcases buffersSent_sent cfg d q request result with ⟨-, hShared, hView⟩
    cases hFinal : finalMetadata cfg result with
    | none =>
      refine ⟨[], ?_, rfl, ?_⟩
      · rw [List.append_nil, hView]
      · rw [hView]
    | some m =>
      have hIs : (finalMetadata cfg result).isSome := by
        rw [hFinal]
        exact rfl
      have hNext : (buffersSent cfg d q request result).nextResult q.reprocess ≤ q.frame := by
        have hNumbers : (buffersSent cfg d q request result).nextResult = d.nextResult :=
          congrArg Shared.nextResult hShared
        rw [hNumbers]
        exact hOrder hIs
      rcases afterResult_fields cfg d request result with ⟨-, hInput, hOverride⟩
      have hTaken : (p.takeResult cfg result).final = some m := by
        rw [final_takeResult, hFinal]
        exact rfl
      have hCollected :
          cfg.mUsePartialResult →
            collectedFor cfg d request result = (p.takeResult cfg result).collected cfg := by
        intro hUses
        rw [collectedFor_eq d hIs hUses]
        refine collected_takeResult cfg result ?_
        refine hPresent.collected hUses (Or.inr (hOnce ?_))
        rw [(finalMetadata_some hFinal).2]
        exact rfl
      rcases sendFinal_view hNew hGood (hInput.trans hPresent.input)
        (hOverride.trans hPresent.override) hNext hTaken hCollected with ⟨x, hSent, hMetadata⟩
      refine ⟨[x], ?_, ?_, ?_⟩
      · rw [hSent, hView]
      · simp only [List.map_cons, List.map_nil, hMetadata, Option.toList_some, if_true]
      · rw [hSent, hView]

/- Metadata that came is followed by buffers only. -/
theorem collected_of_final (cfg : Config) {p : Progress} {result : HalResult}
    (hOnce : result.result.isSome → p.final = none) (hFinal : p.final.isSome) :
    (p.takeResult cfg result).collected cfg = p.collected cfg ∧
      finalMetadata cfg result = none := by
  have hNone : result.result = none := by
    cases hResult : result.result with
    | none => rfl
    | some m =>
      rw [hOnce (by rw [hResult]; rfl)] at hFinal
      contradiction
  have hPartial : isPartialResult cfg result = false := by
    unfold isPartialResult
    rw [hNone]
  unfold Progress.takeResult Progress.collected finalMetadata
  simp [hPartial, hNone]

theorem Known.takeResult {cfg : Config} {requests : List Request} {progress : Nat → Progress}
    {d : Device} {q : Request} {request : InFlightRequest} {result : HalResult}
    (hKnown : Known cfg q (progress q.frame) (d.view q.frame))
    (hSound : Sound cfg q (progress q.frame))
    (hEntry : d.mInFlightMap.lookup q.frame = some request) (hFrame : q.frame = result.frame_number)
    (hObeys : ResultObeys cfg requests progress q result)
    (hOrder : (finalMetadata cfg result).isSome → d.nextResult q.reprocess ≤ q.frame)
    (hSettled : Settled q ((progress q.frame).takeResult cfg result)) :
    Known cfg q ((progress q.frame).takeResult cfg result)
      ((removeInFlightRequestIfReadyLocked (resultSent cfg d request result) q.frame).view
        q.frame) := by
  rcases hKnown.present request hEntry with ⟨hPresent, -, -, hReturned⟩
  have hNew := hSound.takeResult hObeys
  have hOnce : result.result.isSome → (progress q.frame).final = none := by
    intro hSome
    rcases Option.isSome_iff_exists.mp hSome with ⟨m, hm⟩
    exact (hObeys.2.2.2.2 m hm).1
  have hSent := resultSent_sent hFrame hPresent hSound hOrder
  have hBack :
      ((resultSent cfg d request result).view q.frame).returned =
        ((progress q.frame).takeResult cfg result).sentBuffers q := by
    rw [hSent.returned, hReturned]
    unfold Progress.sentBuffers Progress.takeResult Request.returns
    cases (progress q.frame).shutter with
    | false => rfl
    | true => simp
  refine Known.settle hSent.entry (hPresent.takeResult d hSound hObeys) hNew hBack ?_ hSettled
  intro hGood
  have hOld := hKnown.served hGood
  rcases resultSent_served hFrame hPresent hSound hNew hGood
    hOnce hOrder with ⟨xs, hFinals, hMetadata, hErrors⟩
  refine
    { returned := hBack
      finals := ?_
      shutters := hSent.shutters.trans hOld.shutters
      errors := hErrors.trans hOld.errors }
  rw [hFinals, List.map_append, hOld.finals, hMetadata, final_takeResult]
  have hShutter :
      ((progress q.frame).takeResult cfg result).shutter = (progress q.frame).shutter := rfl
  rw [hShutter]
  cases (progress q.frame).shutter with
  | false => rfl
  | true =>
    simp only [if_true]
    cases hFinal : (progress q.frame).final with
    | none =>
      rw [Option.or_none]
      exact List.nil_append _
    | some m =>
      rcases collected_of_final cfg hOnce (by rw [hFinal]; rfl) with ⟨hSame, hNone⟩
      rw [hNone]
      simp only [Option.none_or, Option.toList_none,
        Option.toList_some, List.map_nil, List.map_cons, List.append_nil]
      unfold delivered
      rw [hSame]

end Camera3Device

end FrameworksAv
