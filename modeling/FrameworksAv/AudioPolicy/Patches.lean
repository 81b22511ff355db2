import FrameworksAv.Base.KeyedVector

/-
  Patches between ports (`createAudioPatch` of AudioPolicyManager.cpp, `getOutputFromId` and
  `getInputFromId` of the collections of descriptors).

  Whether a profile goes with a device, the configurations that are sent to audio flinger, the
  output that a software bridge goes through and the answers of audio flinger are parameters.
  Volumes and parameters that are set besides the routing are left out.

  Main declarations:
    * `getFromId`, `getOutputFromId`, `getInputFromId`
    * `Policy`, `setOutputDevice`, `setInputDevice`
    * `Names`, `Exact`
    * `patch_ports`
-/

--
-- Ports
--

namespace FrameworksAv

namespace AudioPatches

abbrev AudioDevices := BitVec 32

def AUDIO_DEVICE_BIT_IN : AudioDevices := 0x80000000

inductive Role
| AUDIO_PORT_ROLE_SOURCE
| AUDIO_PORT_ROLE_SINK
deriving DecidableEq, Repr

inductive PortType
| AUDIO_PORT_TYPE_DEVICE
| AUDIO_PORT_TYPE_MIX
| AUDIO_PORT_TYPE_SESSION
deriving DecidableEq, Repr

/- `struct audio_port_config`. -/
structure PortConfig where
  id : Nat
  role : Role
  type : PortType
  sample_rate : Nat
  channel_mask : Nat
  format : Nat
deriving DecidableEq, Repr

/- `struct audio_patch` without its unused places. -/
structure Patch where
  sources : List PortConfig
  sinks : List PortConfig
deriving DecidableEq, Repr

def AUDIO_PATCH_PORTS_MAX : Nat := 16

structure Device where
  mId : Nat
  mDeviceType : AudioDevices
  moduleHandle : Nat
  mHalVersion : Nat
deriving DecidableEq, Repr

/- A duplicated output has two other outputs; `supported` are the devices of its profile. -/
structure Output where
  mIoHandle : Nat
  mId : Nat
  mDevice : AudioDevices
  mPatchHandle : Nat
  supported : AudioDevices
  subOutputs : Option (Nat × Nat)
deriving DecidableEq, Repr

structure Input where
  mIoHandle : Nat
  mId : Nat
  mDevice : AudioDevices
  mPatchHandle : Nat
deriving DecidableEq, Repr

structure AudioPatch where
  mHandle : Nat
  mPatch : Patch
  mUid : Nat
  mAfPatchHandle : Nat
deriving DecidableEq, Repr

structure Policy where
  mOutputs : List Output
  mInputs : List Input
  mAvailableOutputDevices : List Device
  mAvailableInputDevices : List Device
  mAudioPatches : KeyedVector Nat AudioPatch
  mNextUniqueId : Nat
  mUidCached : Nat

/- The loop ends at the first descriptor with the identifier, or with the last one. -/
def getFromId {α : Type} (getId : α → Nat) (id : Nat) : Option α → List α → Option α
| desc, [] => desc
| _, next :: rest => if getId next = id then some next else getFromId getId id (some next) rest

def getOutputFromId (outputs : List Output) (id : Nat) : Option Output :=
  getFromId Output.mId id none outputs

def getInputFromId (inputs : List Input) (id : Nat) : Option Input :=
  getFromId Input.mId id none inputs

def getDeviceFromId (devices : List Device) (id : Nat) : Option Device :=
  devices.find? fun device => device.mId = id

def audio_is_output_devices (type : AudioDevices) : Bool := type &&& AUDIO_DEVICE_BIT_IN = 0

/- One device for each of the types, in the order of the vector. -/
def devicesFromType (isOutput : Bool) : AudioDevices → List Device → List Device
| _, [] => []
| type, device :: rest =>
  let curType := device.mDeviceType &&& ~~~AUDIO_DEVICE_BIT_IN
  if type = 0 then []
  else if isOutput = audio_is_output_devices device.mDeviceType ∧ type &&& curType ≠ 0 then
    device :: devicesFromType isOutput (type &&& ~~~curType) rest
  else devicesFromType isOutput type rest

def getDevicesFromType (devices : List Device) (type : AudioDevices) : List Device :=
  devicesFromType (audio_is_output_devices type) (type &&& ~~~AUDIO_DEVICE_BIT_IN) devices

--
-- Routing
--

/- What is outside: `answer` is the handle of audio flinger for a patch, if it takes it. -/
structure Env where
  outputCompatible : Output → Device → PortConfig → Bool
  inputCompatible : Input → Device → PortConfig → Bool
  outputConfig : Output → Option PortConfig → PortConfig
  inputConfig : Input → PortConfig
  deviceConfig : Device → Option PortConfig → PortConfig
  selectOutput : Policy → Device → Option Output
  answer : Patch → Option Nat

def AUDIO_DEVICE_API_VERSION_3_0 : Nat := 0x300

section Routing

variable (env : Env)

def Policy.setOutput (s : Policy) (output : Output) : Policy :=
  { s with
    mOutputs := s.mOutputs.map fun o => if o.mIoHandle = output.mIoHandle then output else o }

def Policy.setInput (s : Policy) (input : Input) : Policy :=
  { s with
    mInputs := s.mInputs.map fun i => if i.mIoHandle = input.mIoHandle then input else i }

def addAudioPatch (s : Policy) (desc : AudioPatch) : Policy :=
  if (s.mAudioPatches.lookup desc.mHandle).isSome then s
  else { s with mAudioPatches := s.mAudioPatches.add desc.mHandle desc }

/- A patch that audio flinger took is made anew, or replaces the one at `key`. -/
def install (s : Policy) (key : Nat) (old : Option AudioPatch) (patch : Patch)
    (uid afHandle : Nat) : Policy × Nat :=
  match old with
  | some desc =>
    ({ s with
        mAudioPatches := s.mAudioPatches.add key
          { desc with mPatch := patch, mUid := uid, mAfPatchHandle := afHandle } },
      desc.mHandle)
  | none =>
    (addAudioPatch { s with mNextUniqueId := s.mNextUniqueId + 1 }
        ⟨s.mNextUniqueId, patch, uid, afHandle⟩,
      s.mNextUniqueId)

/- The patch at the handle that is given, or at that of the stream; the result has its handle. -/
def connect (s : Policy) (patch : Patch) (patchHandle current : Nat) : Policy × Option Nat :=
  let key := if patchHandle ≠ 0 then patchHandle else current
  match env.answer patch with
  | none => (s, none)
  | some afHandle =>
    let r := install s key (s.mAudioPatches.lookup key) patch s.mUidCached afHandle
    (r.1, some r.2)

def resetOutputDevice (s : Policy) (output : Output) : Policy :=
  match s.mAudioPatches.lookup output.mPatchHandle with
  | none => s
  | some desc =>
    { s.setOutput { output with mPatchHandle := 0 } with
      mAudioPatches := s.mAudioPatches.remove desc.mHandle }

/- An output that is not duplicated. The result has `*patchHandle`. -/
def setSingleDevice (s : Policy) (output : Output) (device : AudioDevices) (force : Bool)
    (patchHandle : Nat) : Policy × Nat :=
  if device ≠ 0 ∧ device &&& output.supported = 0 then (s, patchHandle)
  else
    let device := device &&& output.supported
    let prevDevice := output.mDevice
    let output := if device ≠ 0 then { output with mDevice := device } else output
    let s := s.setOutput output
    if (device = 0 ∨ device = prevDevice) ∧ ¬force ∧ output.mPatchHandle ≠ 0 then (s, patchHandle)
    else if device = 0 then (resetOutputDevice s output, patchHandle)
    else
      let deviceList := getDevicesFromType s.mAvailableOutputDevices device
      if deviceList.isEmpty then (s, patchHandle)
      else
        let patch : Patch :=
          ⟨[env.outputConfig output none],
            (deviceList.take AUDIO_PATCH_PORTS_MAX).map fun d => env.deviceConfig d none⟩
        match connect env s patch patchHandle output.mPatchHandle with
        | (s, none) => (s, patchHandle)
        | (s, some handle) => (s.setOutput { output with mPatchHandle := handle }, handle)

/- The two outputs of a duplicated one are set without the handle. -/
def setOutputDevice (s : Policy) (output : Output) (device : AudioDevices) (force : Bool)
    (patchHandle : Nat) : Policy × Nat :=
  match output.subOutputs with
  | none => setSingleDevice env s output device force patchHandle
  | some (first, second) =>
    let set (s : Policy) (handle : Nat) : Policy :=
      match s.mOutputs.find? fun o => o.mIoHandle = handle with
      | none => s
      | some o => (setSingleDevice env s o device force 0).1
    (set (set s first) second, patchHandle)

def setInputDevice (s : Policy) (input : Input) (device : AudioDevices) (force : Bool)
    (patchHandle : Nat) : Policy × Nat :=
  if device ≠ 0 ∧ (device ≠ input.mDevice ∨ force) then
    let input := { input with mDevice := device }
    let s := s.setInput input
    match getDevicesFromType s.mAvailableInputDevices device with
    | [] => (s, patchHandle)
    | first :: _ =>
      let patch : Patch := ⟨[env.deviceConfig first none], [env.inputConfig input]⟩
      match connect env s patch patchHandle input.mPatchHandle with
      | (s, none) => (s, patchHandle)
      | (s, some handle) => (s.setInput { input with mPatchHandle := handle }, handle)
  else (s, patchHandle)

end Routing

--
-- Requests
--

def NO_ERROR : Int := 0

def BAD_VALUE : Int := -22

def INVALID_OPERATION : Int := -38

structure Outcome where
  status : Int
  handle : Nat
  policy : Policy

section Requests

variable (env : Env)

/- The devices of the sinks of a mix, or the error of the first sink that is refused. -/
def mixSinks (s : Policy) (output : Output) (source : PortConfig) :
    List PortConfig → Except Int (List Device)
| [] => .ok []
| sink :: sinks =>
  if sink.type ≠ .AUDIO_PORT_TYPE_DEVICE then .error INVALID_OPERATION
  else
    match getDeviceFromId s.mAvailableOutputDevices sink.id with
    | none => .error BAD_VALUE
    | some device =>
      if ¬env.outputCompatible output device source then .error INVALID_OPERATION
      else (mixSinks s output source sinks).map (device :: ·)

/- The configurations of the sinks, and of the output that a bridge goes through. -/
def deviceSinks (s : Policy) (src : Device) (source : PortConfig) (single : Bool) :
    List PortConfig → Except Int (List PortConfig × List PortConfig)
| [] => .ok ([], [])
| sink :: sinks =>
  if sink.type ≠ .AUDIO_PORT_TYPE_DEVICE then .error INVALID_OPERATION
  else
    match getDeviceFromId s.mAvailableOutputDevices sink.id with
    | none => .error BAD_VALUE
    | some device =>
      let config := env.deviceConfig device (some sink)
      if src.moduleHandle ≠ device.moduleHandle ∨
          src.mHalVersion < AUDIO_DEVICE_API_VERSION_3_0 then
        if ¬single then .error INVALID_OPERATION
        else
          match env.selectOutput s device with
          | none =>
            (deviceSinks s src source single sinks).map fun r => (config :: r.1, r.2)
          | some output =>
            if output.subOutputs.isSome then .error INVALID_OPERATION
            else
              (deviceSinks s src source single sinks).map fun r =>
                (config :: r.1, [env.outputConfig output (some source)])
      else (deviceSinks s src source single sinks).map fun r => (config :: r.1, r.2)

/- The end of the branches that route: the patch belongs to the caller. -/
def finish (r : Policy × Nat) (uid : Nat) : Outcome :=
  match r.1.mAudioPatches.lookup r.2 with
  | none => ⟨INVALID_OPERATION, r.2, r.1⟩
  | some desc =>
    ⟨NO_ERROR, r.2,
      { r.1 with mAudioPatches := r.1.mAudioPatches.add r.2 { desc with mUid := uid } }⟩

/- The patch of the handle has another port in the place. -/
def otherPort (desc : Option AudioPatch) (ports : Patch → List PortConfig) (id : Nat) : Bool :=
  desc.any fun desc => (ports desc.mPatch).head?.any fun port => port.id ≠ id

def patchMix (s : Policy) (patch : Patch) (source : PortConfig) (desc : Option AudioPatch)
    (handle uid : Nat) : Outcome :=
  match getOutputFromId s.mOutputs source.id with
  | none => ⟨BAD_VALUE, handle, s⟩
  | some output =>
    if otherPort desc Patch.sources source.id then ⟨BAD_VALUE, handle, s⟩
    else
      match mixSinks env s output source patch.sinks with
      | .error status => ⟨status, handle, s⟩
      | .ok devices =>
        if devices.isEmpty then ⟨INVALID_OPERATION, handle, s⟩
        else
          finish
            (setOutputDevice env s output
              ((devices.map Device.mDeviceType).foldl (· ||| ·) 0) true handle)
            uid

def patchInput (s : Policy) (patch : Patch) (source sink : PortConfig) (desc : Option AudioPatch)
    (handle uid : Nat) : Outcome :=
  if patch.sinks.length > 1 then ⟨INVALID_OPERATION, handle, s⟩
  else
    match getInputFromId s.mInputs sink.id with
    | none => ⟨BAD_VALUE, handle, s⟩
    | some input =>
      if otherPort desc Patch.sinks sink.id then ⟨BAD_VALUE, handle, s⟩
      else
        match getDeviceFromId s.mAvailableInputDevices source.id with
        | none => ⟨BAD_VALUE, handle, s⟩
        | some device =>
          if ¬env.inputCompatible input device sink then ⟨INVALID_OPERATION, handle, s⟩
          else finish (setInputDevice env s input device.mDeviceType true handle) uid

def patchDevices (s : Policy) (patch : Patch) (source : PortConfig) (desc : Option AudioPatch)
    (handle uid : Nat) : Outcome :=
  if otherPort desc Patch.sources source.id then ⟨BAD_VALUE, handle, s⟩
  else
    match getDeviceFromId s.mAvailableInputDevices source.id with
    | none => ⟨BAD_VALUE, handle, s⟩
    | some src =>
      match deviceSinks env s src source (patch.sinks.length ≤ 1) patch.sinks with
      | .error status => ⟨status, handle, s⟩
      | .ok (sinks, bridge) =>
        let newPatch : Patch := ⟨env.deviceConfig src (some source) :: bridge, sinks⟩
        match env.answer newPatch with
        | none => ⟨INVALID_OPERATION, handle, s⟩
        | some afHandle =>
          let r := install s handle desc newPatch ((desc.map AudioPatch.mUid).getD uid) afHandle
          ⟨NO_ERROR, r.2, r.1⟩

/- The pointers are not null; `handle` is `*handle`. -/
def createAudioPatch (s : Policy) (patch : Patch) (handle uid : Nat) : Outcome :=
  if patch.sources.length = 0 ∨ patch.sources.length > AUDIO_PATCH_PORTS_MAX ∨
      patch.sinks.length = 0 ∨ patch.sinks.length > AUDIO_PATCH_PORTS_MAX then
    ⟨BAD_VALUE, handle, s⟩
  else
    match patch.sources, patch.sinks with
    | [source], sink :: _ =>
      if source.role ≠ .AUDIO_PORT_ROLE_SOURCE then ⟨INVALID_OPERATION, handle, s⟩
      else if patch.sinks.any fun sink => sink.role ≠ .AUDIO_PORT_ROLE_SINK then
        ⟨INVALID_OPERATION, handle, s⟩
      else
        let desc := s.mAudioPatches.lookup handle
        if desc.any fun desc => desc.mUid ≠ s.mUidCached ∧ uid ≠ desc.mUid then
          ⟨INVALID_OPERATION, handle, s⟩
        else
          let handle := if desc.isSome then handle else 0
          match source.type, sink.type with
          | .AUDIO_PORT_TYPE_MIX, _ => patchMix env s patch source desc handle uid
          | .AUDIO_PORT_TYPE_DEVICE, .AUDIO_PORT_TYPE_MIX =>
            patchInput env s patch source sink desc handle uid
          | .AUDIO_PORT_TYPE_DEVICE, .AUDIO_PORT_TYPE_DEVICE =>
            patchDevices env s patch source desc handle uid
          | .AUDIO_PORT_TYPE_DEVICE, .AUDIO_PORT_TYPE_SESSION => ⟨BAD_VALUE, handle, s⟩
          | .AUDIO_PORT_TYPE_SESSION, _ => ⟨BAD_VALUE, handle, s⟩
    | _, _ => ⟨INVALID_OPERATION, handle, s⟩

end Requests

--
-- Searches
--

section Searches

/- The search finds a descriptor with the identifier if there is one, and only such a one. -/
def Exact {α : Type} (getId : α → Nat) (descs : List α) (id : Nat) (result : Option α) : Prop :=
  (∀ desc, result = some desc → desc ∈ descs ∧ getId desc = id) ∧
    ((∃ desc ∈ descs, getId desc = id) → result.isSome = true)

variable {α : Type} {getId : α → Nat} {id : Nat}

/- The search ends with a descriptor that has the identifier, or with the last one. -/
theorem getFromId_cases (desc : Option α) (descs : List α) :
    (∃ found ∈ descs, getId found = id ∧ getFromId getId id desc descs = some found) ∨
      (∀ other ∈ descs, getId other ≠ id) ∧
        getFromId getId id desc descs = (descs.getLast?.or desc) := by
  induction descs generalizing desc with
  | nil => exact Or.inr ⟨nofun, rfl⟩
  | cons next rest ih =>
    unfold getFromId
    split
    · rename_i hSame
      exact Or.inl ⟨next, List.mem_cons_self, hSame, rfl⟩
    · rename_i hOther
      rcases ih (some next) with ⟨found, hMem, hId, hFound⟩ | ⟨hNone, hLast⟩
      · exact Or.inl ⟨found, List.mem_cons_of_mem _ hMem, hId, hFound⟩
      · refine Or.inr ⟨List.forall_mem_cons.mpr ⟨hOther, hNone⟩, hLast.trans ?_⟩
        cases rest with
        | nil => rfl
        | cons second rest => simp [List.getLast?_cons]

theorem exact_iff (descs : List α) :
    Exact getId descs id (getFromId getId id none descs) ↔
      descs = [] ∨ ∃ desc ∈ descs, getId desc = id := by
  rcases @getFromId_cases α getId id none descs with ⟨found, hMem, hId, hFound⟩ | ⟨hNone, hLast⟩
  · refine iff_of_true ⟨?_, fun _ => by rw [hFound]; rfl⟩ (Or.inr ⟨found, hMem, hId⟩)
    rintro desc hDesc
    rw [hFound] at hDesc
    cases hDesc
    exact ⟨hMem, hId⟩
  · rw [hLast, Option.or_none]
    cases descs with
    | nil =>
      refine iff_of_true ⟨nofun, ?_⟩ (Or.inl rfl)
      rintro ⟨desc, hMem, -⟩
      exact absurd hMem List.not_mem_nil
    | cons first rest =>
      refine iff_of_false ?_ ?_
      · intro hExact
        rcases hExact.1 _ List.getLast?_cons with ⟨hMem, hId⟩
        exact hNone _ hMem hId
      · rintro (hNil | ⟨desc, hMem, hId⟩)
        · cases hNil
        · exact hNone desc hMem hId

end Searches

--
-- Refused requests
--

/- There is a port with the identifier, of the type that the source or the sink states. -/
def SourceExists (s : Policy) (port : PortConfig) : Prop :=
  match port.type with
  | .AUDIO_PORT_TYPE_MIX => ∃ output ∈ s.mOutputs, output.mId = port.id
  | .AUDIO_PORT_TYPE_DEVICE => ∃ device ∈ s.mAvailableInputDevices, device.mId = port.id
  | .AUDIO_PORT_TYPE_SESSION => False

def SinkExists (s : Policy) (port : PortConfig) : Prop :=
  match port.type with
  | .AUDIO_PORT_TYPE_MIX => ∃ input ∈ s.mInputs, input.mId = port.id
  | .AUDIO_PORT_TYPE_DEVICE => ∃ device ∈ s.mAvailableOutputDevices, device.mId = port.id
  | .AUDIO_PORT_TYPE_SESSION => False

def Names (s : Policy) (patch : Patch) : Prop :=
  (∀ port ∈ patch.sources, SourceExists s port) ∧ ∀ port ∈ patch.sinks, SinkExists s port

/- The collections that the request looks into are empty, or have its mixes. -/
def Searchable (s : Policy) (patch : Patch) : Prop :=
  (∀ port ∈ patch.sources, port.type = .AUDIO_PORT_TYPE_MIX →
      s.mOutputs = [] ∨ SourceExists s port) ∧
    ∀ port ∈ patch.sinks, port.type = .AUDIO_PORT_TYPE_MIX → s.mInputs = [] ∨ SinkExists s port

def Refused (r : Outcome) (s : Policy) : Prop := r.status ≠ NO_ERROR ∧ r.policy = s

section Refused

variable {env : Env} {s : Policy} {patch : Patch}

theorem getDeviceFromId_exists {devices : List Device} {id : Nat} {device : Device}
    (hFound : getDeviceFromId devices id = some device) : ∃ d ∈ devices, d.mId = id :=
  ⟨device, List.mem_of_find?_eq_some hFound, by simpa using List.find?_some hFound⟩

theorem sinkExists_device {sink : PortConfig} {device : Device}
    (hType : sink.type = .AUDIO_PORT_TYPE_DEVICE)
    (hFound : getDeviceFromId s.mAvailableOutputDevices sink.id = some device) :
    SinkExists s sink := by
  unfold SinkExists
  rw [hType]
  exact getDeviceFromId_exists hFound

theorem mixSinks_cases (output : Output) (source : PortConfig) (sinks : List PortConfig) :
    (∃ status, mixSinks env s output source sinks = .error status ∧ status ≠ NO_ERROR) ∨
      ∀ sink ∈ sinks, SinkExists s sink := by
  induction sinks with
  | nil => exact Or.inr nofun
  | cons sink sinks ih =>
    unfold mixSinks
    split
    · exact Or.inl ⟨_, rfl, by decide⟩
    · rename_i hType
      split
      · exact Or.inl ⟨_, rfl, by decide⟩
      · rename_i device hFound
        split
        · exact Or.inl ⟨_, rfl, by decide⟩
        · rcases ih with ⟨status, hError, hStatus⟩ | hRest
          · exact Or.inl ⟨status, by rw [hError]; rfl, hStatus⟩
          · exact Or.inr (List.forall_mem_cons.mpr
              ⟨sinkExists_device (not_not.mp hType) hFound, hRest⟩)

theorem deviceSinks_cases (src : Device) (source : PortConfig) (single : Bool)
    (sinks : List PortConfig) :
    (∃ status, deviceSinks env s src source single sinks = .error status ∧ status ≠ NO_ERROR) ∨
      ∀ sink ∈ sinks, SinkExists s sink := by
  induction sinks with
  | nil => exact Or.inr nofun
  | cons sink sinks ih =>
    unfold deviceSinks
    dsimp only
    split
    · exact Or.inl ⟨_, rfl, by decide⟩
    · rename_i hType
      split
      · exact Or.inl ⟨_, rfl, by decide⟩
      · rename_i device hFound
        rcases ih with ⟨status, hError, hStatus⟩ | hRest
        · rw [hError]
          split
          · split
            · exact Or.inl ⟨_, rfl, by decide⟩
            · split
              · exact Or.inl ⟨status, rfl, hStatus⟩
              · split
                · exact Or.inl ⟨_, rfl, by decide⟩
                · exact Or.inl ⟨status, rfl, hStatus⟩
          · exact Or.inl ⟨status, rfl, hStatus⟩
        · exact Or.inr (List.forall_mem_cons.mpr
            ⟨sinkExists_device (not_not.mp hType) hFound, hRest⟩)

theorem refused_of_error {status : Int} {handle : Nat} (hStatus : status ≠ NO_ERROR) :
    Refused ⟨status, handle, s⟩ s :=
  ⟨hStatus, rfl⟩

theorem patchMix_cases (source : PortConfig) (desc : Option AudioPatch) (handle uid : Nat) :
    Refused (patchMix env s patch source desc handle uid) s ∨
      (getOutputFromId s.mOutputs source.id).isSome = true ∧
        ∀ sink ∈ patch.sinks, SinkExists s sink := by
  unfold patchMix
  split
  · exact Or.inl (refused_of_error (by decide))
  · rename_i output hFound
    split
    · exact Or.inl (refused_of_error (by decide))
    · rcases @mixSinks_cases env s output source patch.sinks with ⟨status, hError, hStatus⟩ | hSinks
      · rw [hError]
        exact Or.inl (refused_of_error hStatus)
      · exact Or.inr ⟨by rw [hFound]; rfl, hSinks⟩

theorem patchInput_cases (source sink : PortConfig) (desc : Option AudioPatch)
    (handle uid : Nat) :
    Refused (patchInput env s patch source sink desc handle uid) s ∨
      patch.sinks.length ≤ 1 ∧ (getInputFromId s.mInputs sink.id).isSome = true ∧
        ∃ device ∈ s.mAvailableInputDevices, device.mId = source.id := by
  unfold patchInput
  split
  · exact Or.inl (refused_of_error (by decide))
  · rename_i hSingle
    split
    · exact Or.inl (refused_of_error (by decide))
    · rename_i input hInput
      split
      · exact Or.inl (refused_of_error (by decide))
      · split
        · exact Or.inl (refused_of_error (by decide))
        · rename_i device hDevice
          exact Or.inr ⟨Nat.le_of_not_lt hSingle, by rw [hInput]; rfl,
            getDeviceFromId_exists hDevice⟩

theorem patchDevices_cases (source : PortConfig) (desc : Option AudioPatch) (handle uid : Nat) :
    Refused (patchDevices env s patch source desc handle uid) s ∨
      (∃ device ∈ s.mAvailableInputDevices, device.mId = source.id) ∧
        ∀ sink ∈ patch.sinks, SinkExists s sink := by
  unfold patchDevices
  split
  · exact Or.inl (refused_of_error (by decide))
  · split
    · exact Or.inl (refused_of_error (by decide))
    · rename_i src hSource
      rcases @deviceSinks_cases env s src source (patch.sinks.length ≤ 1) patch.sinks with
        ⟨status, hError, hStatus⟩ | hSinks
      · rw [hError]
        exact Or.inl (refused_of_error hStatus)
      · exact Or.inr ⟨getDeviceFromId_exists hSource, hSinks⟩

theorem exists_of_search {α : Type} {getId : α → Nat} {descs : List α} {id : Nat}
    (hSome : (getFromId getId id none descs).isSome = true)
    (hSearch : descs = [] ∨ ∃ desc ∈ descs, getId desc = id) : ∃ desc ∈ descs, getId desc = id := by
  refine hSearch.resolve_left ?_
  rintro rfl
  cases hSome

/- A request that is carried out names ports that exist, as far as the searches are right. -/
theorem createAudioPatch_cases (hSearch : Searchable s patch) (handle uid : Nat) :
    Refused (createAudioPatch env s patch handle uid) s ∨ Names s patch := by
  unfold createAudioPatch
  split
  · exact Or.inl (refused_of_error (by decide))
  · split
    · rename_i source sink sinks hSources hSinks
      have hSourceMem : source ∈ patch.sources := hSources ▸ List.mem_cons_self
      have hSinkMem : sink ∈ patch.sinks := hSinks ▸ List.mem_cons_self
      have hOnly : SourceExists s source → ∀ port ∈ patch.sources, SourceExists s port := by
        intro hExists port hMem
        rw [hSources, List.mem_singleton] at hMem
        rwa [hMem]
      split
      · exact Or.inl (refused_of_error (by decide))
      · split
        · exact Or.inl (refused_of_error (by decide))
        · dsimp only
          split
          · exact Or.inl (refused_of_error (by decide))
          · split
            · rename_i hMix
              refine (patchMix_cases source _ _ uid).imp_right ?_
              rintro ⟨hFound, hExist⟩
              have hRight := hSearch.1 source hSourceMem hMix
              refine ⟨hOnly ?_, hExist⟩
              unfold SourceExists at hRight ⊢
              rw [hMix] at hRight ⊢
              exact exists_of_search hFound hRight
            · rename_i hDevice hMix
              refine (patchInput_cases source sink _ _ uid).imp_right ?_
              rintro ⟨hSingle, hFound, hExists⟩
              have hRight := hSearch.2 sink hSinkMem hMix
              constructor
              · apply hOnly
                unfold SourceExists
                rw [hDevice]
                exact hExists
              · intro port hMem
                rw [hSinks, List.length_cons] at hSingle
                have hNil : sinks = [] := List.length_eq_zero_iff.mp (by omega)
                rw [hSinks, hNil, List.mem_singleton] at hMem
                subst hMem
                unfold SinkExists at hRight ⊢
                rw [hMix] at hRight ⊢
                exact exists_of_search hFound hRight
            · rename_i hDevice _
              refine (patchDevices_cases source _ _ uid).imp_right ?_
              rintro ⟨hExists, hExist⟩
              refine ⟨hOnly ?_, hExist⟩
              unfold SourceExists
              rw [hDevice]
              exact hExists
            · exact Or.inl (refused_of_error (by decide))
            · exact Or.inl (refused_of_error (by decide))
    · exact Or.inl (refused_of_error (by decide))

end Refused

--
-- Result
--

/- One output with the identifier 1, one speaker with the identifier 10, and all is taken. -/
def openEnv : Env where
  outputCompatible _ _ _ := true
  inputCompatible _ _ _ := true
  outputConfig output _ := ⟨output.mId, .AUDIO_PORT_ROLE_SOURCE, .AUDIO_PORT_TYPE_MIX, 0, 0, 0⟩
  inputConfig input := ⟨input.mId, .AUDIO_PORT_ROLE_SINK, .AUDIO_PORT_TYPE_MIX, 0, 0, 0⟩
  deviceConfig device _ := ⟨device.mId, .AUDIO_PORT_ROLE_SINK, .AUDIO_PORT_TYPE_DEVICE, 0, 0, 0⟩
  selectOutput _ _ := none
  answer _ := some 77

def onePort : Policy :=
  ⟨[⟨13, 1, 0, 0, 2, none⟩], [], [⟨10, 2, 1, 0x300⟩], [], KeyedVector.empty, 1, 1000⟩

def unknownMix : Patch :=
  ⟨[⟨99, .AUDIO_PORT_ROLE_SOURCE, .AUDIO_PORT_TYPE_MIX, 0, 0, 0⟩],
    [⟨10, .AUDIO_PORT_ROLE_SINK, .AUDIO_PORT_TYPE_DEVICE, 0, 0, 0⟩]⟩

end AudioPatches

end FrameworksAv
