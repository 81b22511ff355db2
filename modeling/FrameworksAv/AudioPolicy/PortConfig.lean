import Mathlib.Algebra.Order.Ring.Int
import Mathlib.Data.List.Nodup

/-
  The configuration of a port (`AudioPortConfig::applyAudioPortConfig`, AudioPort.cpp).

  A configuration that is refused halfway is undone by applying the old one, which the port has to
  accept for that.

  Main declarations:
    * `AudioPort`, `AudioPort.check`
    * `toAudioPortConfig`, `applyAudioPortConfig`
    * `applyAudioPortConfig_stuck`
    * `atomic_iff`
-/

--
-- Ports
--

namespace FrameworksAv

namespace PortConfig

inductive Status
| NO_ERROR
| BAD_VALUE
| NO_INIT
deriving DecidableEq, Repr

/- `audio_gain_config` -/
structure GainConfig where
  index : Int
  mode : BitVec 32
  channel_mask : BitVec 32
  values : Nat → Int
  ramp_duration_ms : Nat

/- `channelCount` is `audio_channel_count_from_in_mask`, or the same of an output mask. -/
structure AudioGain where
  mode : BitVec 32
  channel_mask : BitVec 32
  min_value : Int
  max_value : Int
  min_ramp_ms : Nat
  max_ramp_ms : Nat
  channelCount : BitVec 32 → Nat

def AUDIO_GAIN_MODE_JOINT : BitVec 32 := 0x1
def AUDIO_GAIN_MODE_RAMP : BitVec 32 := 0x4

def AudioGain.inRange (gain : AudioGain) (value : Int) : Prop :=
  gain.min_value ≤ value ∧ value ≤ gain.max_value

instance (gain : AudioGain) (value : Int) : Decidable (gain.inRange value) :=
  inferInstanceAs (Decidable (_ ∧ _))

def AudioGain.checkConfig (gain : AudioGain) (config : GainConfig) : Status :=
  if config.mode &&& ~~~gain.mode ≠ 0 then .BAD_VALUE
  else if
    if config.mode &&& AUDIO_GAIN_MODE_JOINT = AUDIO_GAIN_MODE_JOINT then
      ¬gain.inRange (config.values 0)
    else
      config.channel_mask &&& ~~~gain.channel_mask ≠ 0 ∨
        ∃ i < gain.channelCount config.channel_mask, ¬gain.inRange (config.values i)
  then .BAD_VALUE
  else if
    config.mode &&& AUDIO_GAIN_MODE_RAMP = AUDIO_GAIN_MODE_RAMP ∧
      (config.ramp_duration_ms < gain.min_ramp_ms ∨ gain.max_ramp_ms < config.ramp_duration_ms)
  then .BAD_VALUE
  else .NO_ERROR

structure AudioPort where
  mSamplingRates : List Nat
  mChannelMasks : List Nat
  mFormats : List Nat
  mGains : List AudioGain

/- An empty list supports everything. -/
def checkExact (supported : List Nat) (value : Nat) : Status :=
  if supported.isEmpty ∨ value ∈ supported then .NO_ERROR else .BAD_VALUE

namespace AudioPort

def checkExactSamplingRate (port : AudioPort) (samplingRate : Nat) : Status :=
  checkExact port.mSamplingRates samplingRate

def checkExactChannelMask (port : AudioPort) (channelMask : Nat) : Status :=
  checkExact port.mChannelMasks channelMask

def checkExactFormat (port : AudioPort) (format : Nat) : Status :=
  checkExact port.mFormats format

def checkGain (port : AudioPort) (gainConfig : GainConfig) (index : Int) : Status :=
  if index < 0 then .BAD_VALUE
  else
    match port.mGains[index.toNat]? with
    | none => .BAD_VALUE
    | some gain => gain.checkConfig gainConfig

end AudioPort

--
-- Configurations
--

/- The bits `AUDIO_PORT_CONFIG_*` of a mask. -/
inductive Field
| SAMPLE_RATE
| CHANNEL_MASK
| FORMAT
| GAIN
deriving DecidableEq, Repr

@[reducible]
def Setting : Field → Type
| .GAIN => GainConfig
| _ => Nat

/- `mSamplingRate`, `mChannelMask`, `mFormat` and `mGain` -/
abbrev Settings : Type := (field : Field) → Setting field

structure Config where
  config_mask : Field → Bool
  settings : Settings

def AudioPort.check (port : AudioPort) : (field : Field) → Setting field → Status
| .SAMPLE_RATE, samplingRate => port.checkExactSamplingRate samplingRate
| .CHANNEL_MASK, channelMask => port.checkExactChannelMask channelMask
| .FORMAT, format => port.checkExactFormat format
| .GAIN, gain => port.checkGain gain gain.index

/- `AudioOutputDescriptor` and `AudioInputDescriptor`, or `DeviceDescriptor` -/
inductive Kind
| mix
| device
deriving DecidableEq, Repr

/- What `toAudioPortConfig` of the class puts into the mask, whatever was there before. -/
def Kind.config_mask : Kind → Field → Bool
| .mix, _ => true
| .device, field => field = .CHANNEL_MASK ∨ field = .GAIN

/- `AUDIO_CHANNEL_NONE` is 0; of the gain only the index is set. -/
def noSettings : Settings
| .SAMPLE_RATE => (0 : Nat)
| .CHANNEL_MASK => (0 : Nat)
| .FORMAT => (0xFFFFFFFF : Nat)
| .GAIN => ⟨-1, 0, 0, fun _ => 0, 0⟩

/- Without a second configuration, as the rollback has it. -/
def toAudioPortConfig (kind : Kind) (own : Settings) : Config :=
  let settings : Settings := fun field =>
    if kind.config_mask field then own field else noSettings field
  { config_mask := fun field =>
      if field = .GAIN then (settings .GAIN).index ≠ -1 else kind.config_mask field
    settings := settings }

/- The blocks of `applyAudioPortConfig`, one for each field. -/
def applyFields (port : AudioPort) (config : Config) : List Field → Settings → Status × Settings
| [], own => (.NO_ERROR, own)
| field :: fields, own =>
  if config.config_mask field then
    let status := port.check field (config.settings field)
    if status ≠ .NO_ERROR then (status, own)
    else applyFields port config fields (Function.update own field (config.settings field))
  else applyFields port config fields own

def FIELDS : List Field := [.SAMPLE_RATE, .CHANNEL_MASK, .FORMAT, .GAIN]

/- All up to `exit`. -/
def setFields (audioport : Option AudioPort) (config : Config) (own : Settings) :
    Status × Settings :=
  match audioport with
  | none => (.NO_INIT, own)
  | some port => applyFields port config FIELDS own

/- With the backup. `fuel` is the depth of the stack; without a result there is no bottom yet. -/
def applyAudioPortConfig (kind : Kind) (audioport : Option AudioPort) :
    Nat → Settings → Config → Option (Status × Settings × Config)
| 0, _, _ => none
| fuel + 1, own, config =>
  let localBackupConfig := toAudioPortConfig kind own
  let (status, own) := setFields audioport config own
  if status ≠ .NO_ERROR then
    (applyAudioPortConfig kind audioport fuel own localBackupConfig).map fun (_, own, _) =>
      (status, own, localBackupConfig)
  else some (status, own, localBackupConfig)

/- It returns; then all fields of the mask are set, or nothing is changed. -/
def Atomic (kind : Kind) (audioport : Option AudioPort) (own : Settings) (config : Config) : Prop :=
  ∃ fuel status after backup,
    applyAudioPortConfig kind audioport fuel own config = some (status, after, backup) ∧
      after =
        if status = .NO_ERROR then
          fun field => if config.config_mask field then config.settings field else own field
        else own

--
-- Fields
--

/- The port takes what the mask says of a field. -/
def Passes (port : AudioPort) (config : Config) (field : Field) : Prop :=
  config.config_mask field → port.check field (config.settings field) = .NO_ERROR

def Accepts (audioport : Option AudioPort) (config : Config) : Prop :=
  ∃ port ∈ audioport, ∀ field, Passes port config field

/- The field is in the mask, and it and all in front of it pass. -/
def Reaches (port : AudioPort) (config : Config) (fields : List Field) (field : Field) : Prop :=
  config.config_mask field ∧
    ∀ front ∈ fields.take (fields.idxOf field + 1), Passes port config front

section Fields

variable {port : AudioPort} {config : Config}

theorem applyFields_refused {first : Field} (fields : List Field) (own : Settings)
    (hRefused : ¬Passes port config first) :
    applyFields port config (first :: fields) own =
      (port.check first (config.settings first), own) := by
  rcases Classical.not_imp.mp hRefused with ⟨hMask, hCheck⟩
  rw [applyFields, if_pos hMask]
  exact if_pos hCheck

theorem applyFields_passes {first : Field} (fields : List Field) (own : Settings)
    (hPasses : Passes port config first) :
    applyFields port config (first :: fields) own =
      applyFields port config fields
        (if config.config_mask first then Function.update own first (config.settings first)
        else own) := by
  rw [applyFields]
  split
  · rename_i hMask
    exact if_neg (not_not.mpr (hPasses hMask))
  · exact rfl

theorem applyFields_status (fields : List Field) (own : Settings) :
    (applyFields port config fields own).1 = .NO_ERROR ↔
      ∀ field ∈ fields, Passes port config field := by
  induction fields generalizing own with
  | nil => exact iff_of_true rfl nofun
  | cons first fields ih =>
    rw [List.forall_mem_cons]
    by_cases hPasses : Passes port config first
    · rw [applyFields_passes fields own hPasses, ih]
      exact (and_iff_right hPasses).symm
    · rw [applyFields_refused fields own hPasses]
      exact iff_of_false (Classical.not_imp.mp hPasses).2 fun h => hPasses h.1

theorem applyFields_frame {fields : List Field} (own : Settings) {field : Field}
    (hField : field ∉ fields) : (applyFields port config fields own).2 field = own field := by
  induction fields generalizing own with
  | nil => exact rfl
  | cons first fields ih =>
    rcases not_or.mp (mt List.mem_cons.mpr hField) with ⟨hFirst, hRest⟩
    by_cases hPasses : Passes port config first
    · rw [applyFields_passes fields own hPasses, ih _ hRest]
      split
      · exact Function.update_of_ne hFirst _ _
      · exact rfl
    · rw [applyFields_refused fields own hPasses]

/- A field is set where it is reached, and only there. -/
theorem applyFields_state {fields : List Field} (hNodup : fields.Nodup) (own : Settings)
    {field : Field} (hField : field ∈ fields) :
    (Reaches port config fields field →
        (applyFields port config fields own).2 field = config.settings field) ∧
      (¬Reaches port config fields field →
        (applyFields port config fields own).2 field = own field) := by
  induction fields generalizing own with
  | nil => cases hField
  | cons first fields ih =>
    rcases List.nodup_cons.mp hNodup with ⟨hFirst, hRest⟩
    by_cases hPasses : Passes port config first
    · rw [applyFields_passes fields own hPasses]
      by_cases hEq : field = first
      · subst hEq
        rw [applyFields_frame _ hFirst, Reaches, List.idxOf_cons_self, List.take_succ_cons,
          List.take_zero, List.forall_mem_singleton]
        by_cases hMask : config.config_mask field
        · simp [hMask, hPasses]
        · simp [hMask]
      · have hMember := List.mem_of_ne_of_mem hEq hField
        have hSame :
            Reaches port config (first :: fields) field ↔ Reaches port config fields field := by
          rw [Reaches, List.idxOf_cons_ne _ (Ne.symm hEq), List.take_succ_cons,
            List.forall_mem_cons, and_iff_right hPasses, Reaches]
        rw [hSame]
        have hOwn :
            (if config.config_mask first then Function.update own first (config.settings first)
              else own) field = own field := by
          split
          · exact Function.update_of_ne hEq _ _
          · exact rfl
        rw [← hOwn]
        exact ih hRest _ hMember
    · rw [applyFields_refused fields own hPasses]
      have hNot : ¬Reaches port config (first :: fields) field := by
        intro hReaches
        apply hPasses
        apply hReaches.2
        rw [List.take_succ_cons]
        exact List.mem_cons_self
      exact ⟨fun h => absurd h hNot, fun _ => rfl⟩

theorem mem_fields (field : Field) : field ∈ FIELDS := by
  cases field <;> decide

theorem accepts_some : Accepts (some port) config ↔ ∀ field, Passes port config field := by
  simp [Accepts]

/- A port that accepts all gets all. -/
theorem applyFields_accepts (own : Settings) (hAccepts : Accepts (some port) config) :
    applyFields port config FIELDS own =
      (.NO_ERROR,
        fun field => if config.config_mask field then config.settings field else own field) := by
  rw [accepts_some] at hAccepts
  refine
    Prod.ext ((applyFields_status _ _).mpr fun field _ => hAccepts field) (funext fun field => ?_)
  rcases applyFields_state (by decide) own (mem_fields field) with ⟨hSet, hKept⟩
  by_cases hMask : config.config_mask field
  · exact (hSet ⟨hMask, fun front _ => hAccepts front⟩).trans (if_pos hMask).symm
  · exact (hKept fun h => hMask h.1).trans (if_neg hMask).symm

theorem applyFields_not_accepts (own : Settings) (hRefused : ¬Accepts (some port) config) :
    (applyFields port config FIELDS own).1 ≠ .NO_ERROR := by
  intro hStatus
  apply hRefused
  rw [accepts_some]
  exact fun field => (applyFields_status _ _).mp hStatus field (mem_fields field)

end Fields

--
-- Rollback
--

section Rollback

variable {kind : Kind} {audioport : Option AudioPort} {own : Settings} {config : Config}

theorem toAudioPortConfig_settings {field : Field}
    (hMask : (toAudioPortConfig kind own).config_mask field) :
    (toAudioPortConfig kind own).settings field = own field := by
  apply if_pos
  by_cases hGain : field = .GAIN
  · subst hGain
    cases kind <;> rfl
  · simpa [toAudioPortConfig, hGain] using hMask

theorem setFields_accepts (hAccepts : Accepts audioport config) :
    setFields audioport config own =
      (.NO_ERROR,
        fun field => if config.config_mask field then config.settings field else own field) := by
  cases audioport with
  | none => simp [Accepts] at hAccepts
  | some port => exact applyFields_accepts own hAccepts

theorem setFields_refused (hRefused : ¬Accepts audioport config) :
    (setFields audioport config own).1 ≠ .NO_ERROR := by
  cases audioport with
  | none => exact nofun
  | some port => exact applyFields_not_accepts own hRefused

/- What is there already is not changed, refused or not. -/
theorem setFields_own :
    (setFields audioport (toAudioPortConfig kind own) own).2 = own := by
  cases audioport with
  | none => exact rfl
  | some port =>
    funext field
    rcases applyFields_state (by decide) own (mem_fields field) with ⟨hSet, hKept⟩
    by_cases hReaches : Reaches port (toAudioPortConfig kind own) FIELDS field
    · exact (hSet hReaches).trans (toAudioPortConfig_settings hReaches.1)
    · exact hKept hReaches

theorem applyAudioPortConfig_refused (fuel : Nat) (hRefused : ¬Accepts audioport config) :
    applyAudioPortConfig kind audioport (fuel + 1) own config =
      (applyAudioPortConfig kind audioport fuel (setFields audioport config own).2
        (toAudioPortConfig kind own)).map fun (_, after, _) =>
          ((setFields audioport config own).1, after, toAudioPortConfig kind own) :=
  if_pos (setFields_refused hRefused)

theorem applyAudioPortConfig_accepts (fuel : Nat) (hAccepts : Accepts audioport config) :
    applyAudioPortConfig kind audioport (fuel + 1) own config =
      some
        (.NO_ERROR,
          (fun field => if config.config_mask field then config.settings field else own field),
          toAudioPortConfig kind own) := by
  rw [applyAudioPortConfig, setFields_accepts hAccepts]
  exact rfl

/- The rollback of a rollback, and so on: nothing changes any more. -/
theorem applyAudioPortConfig_stuck (hRefused : ¬Accepts audioport (toAudioPortConfig kind own))
    (fuel : Nat) :
    applyAudioPortConfig kind audioport fuel own (toAudioPortConfig kind own) = none := by
  induction fuel with
  | zero => exact rfl
  | succ fuel ih =>
    rw [applyAudioPortConfig_refused fuel hRefused, setFields_own, ih]
    exact rfl

/- The gain is set last, so that it is as it was whatever is refused. -/
theorem setFields_gain (hRefused : ¬Accepts audioport config) :
    (setFields audioport config own).2 .GAIN = own .GAIN := by
  cases audioport with
  | none => exact rfl
  | some port =>
    apply (applyFields_state (by decide) own (mem_fields .GAIN)).2
    intro hReaches
    exact hRefused (accepts_some.mpr fun field => hReaches.2 field (mem_fields field))

theorem toAudioPortConfig_mask {other : Settings} (hGain : own .GAIN = other .GAIN) :
    (toAudioPortConfig kind own).config_mask = (toAudioPortConfig kind other).config_mask := by
  simp only [toAudioPortConfig, hGain]

/- A rollback ends with settings that the port takes. -/
theorem rollback_accepts {old after : Settings} {status : Status} {backup : Config} {fuel : Nat}
    (hGain : own .GAIN = old .GAIN)
    (hApplied :
      applyAudioPortConfig kind audioport fuel own (toAudioPortConfig kind old) =
        some (status, after, backup)) :
    ∃ last, Accepts audioport (toAudioPortConfig kind last) ∧ last .GAIN = old .GAIN ∧
      ∀ field, (toAudioPortConfig kind last).config_mask field → after field = last field := by
  induction fuel generalizing own old status backup with
  | zero => cases hApplied
  | succ fuel ih =>
    by_cases hAccepts : Accepts audioport (toAudioPortConfig kind old)
    · rw [applyAudioPortConfig_accepts fuel hAccepts] at hApplied
      cases hApplied
      exact
        ⟨old, hAccepts, rfl, fun field hMask =>
          (if_pos hMask).trans (toAudioPortConfig_settings hMask)⟩
    · rw [applyAudioPortConfig_refused fuel hAccepts] at hApplied
      rcases Option.map_eq_some_iff.mp hApplied with ⟨⟨_, _, _⟩, hNext, hSame⟩
      cases hSame
      rcases ih (setFields_gain hAccepts) hNext with ⟨last, hLast, hLastGain, hAfter⟩
      exact ⟨last, hLast, hLastGain.trans hGain, hAfter⟩

/- A refused configuration changes nothing as long as the old one is taken back in full. -/
theorem atomic_refused_iff (hRefused : ¬Accepts audioport config) :
    Atomic kind audioport own config ↔
      Accepts audioport (toAudioPortConfig kind own) ∧
        ∀ field, (toAudioPortConfig kind own).config_mask field = false →
          (setFields audioport config own).2 field = own field := by
  have hStatus : (setFields audioport config own).1 ≠ .NO_ERROR := setFields_refused hRefused
  have hGain : (setFields audioport config own).2 .GAIN = own .GAIN := setFields_gain hRefused
  constructor
  · rintro ⟨fuel, status, after, backup, hApplied, hAfter⟩
    cases fuel with
    | zero => cases hApplied
    | succ fuel =>
      rw [applyAudioPortConfig_refused fuel hRefused] at hApplied
      rcases Option.map_eq_some_iff.mp hApplied with ⟨⟨_, _, _⟩, hRollback, hSame⟩
      cases hSame
      rw [if_neg hStatus] at hAfter
      subst hAfter
      rcases rollback_accepts hGain hRollback with ⟨last, ⟨port, hPort, hLast⟩, hLastGain, hOwn⟩
      have hMask :
          (toAudioPortConfig kind last).config_mask = (toAudioPortConfig kind after).config_mask :=
        toAudioPortConfig_mask hLastGain
      have hAccepts : Accepts audioport (toAudioPortConfig kind after) := by
        refine ⟨port, hPort, fun field hField => ?_⟩
        have hField' := hField
        rw [← hMask] at hField'
        rw [toAudioPortConfig_settings hField, hOwn field hField',
          ← toAudioPortConfig_settings hField']
        exact hLast field hField'
      refine ⟨hAccepts, fun field hField => ?_⟩
      cases fuel with
      | zero => cases hRollback
      | succ fuel =>
        rw [applyAudioPortConfig_accepts fuel hAccepts] at hRollback
        have hKept := congrFun (congrArg (fun x => x.2.1) (Option.some.inj hRollback)) field
        exact (if_neg (by simp [hField])).symm.trans hKept
  · rintro ⟨hAccepts, hKept⟩
    refine ⟨2, _, own, toAudioPortConfig kind own, ?_, (if_neg hStatus).symm⟩
    · rw [applyAudioPortConfig_refused 1 hRefused, applyAudioPortConfig_accepts 0 hAccepts]
      have hOwn :
          (fun field =>
            if (toAudioPortConfig kind own).config_mask field then
              (toAudioPortConfig kind own).settings field
            else (setFields audioport config own).2 field) = own := by
        funext field
        split
        · rename_i hMask
          exact toAudioPortConfig_settings hMask
        · rename_i hMask
          exact hKept field (Bool.eq_false_iff.mpr hMask)
      rw [hOwn]
      exact rfl

end Rollback

/-
  The call is atomic when the port takes the configuration, and otherwise when the port takes the
  one that is saved, and no field is set that is not saved.
-/
theorem atomic_iff (kind : Kind) (audioport : Option AudioPort) (own : Settings) (config : Config) :
    Atomic kind audioport own config ↔
      Accepts audioport config ∨
        Accepts audioport (toAudioPortConfig kind own) ∧
          ∀ port ∈ audioport, ∀ field,
            (toAudioPortConfig kind own).config_mask field = false →
              Reaches port config FIELDS field → config.settings field = own field := by
  by_cases hAccepts : Accepts audioport config
  · exact
      iff_of_true ⟨1, _, _, _, applyAudioPortConfig_accepts 0 hAccepts, (if_pos rfl).symm⟩
        (.inl hAccepts)
  · rw [atomic_refused_iff hAccepts, or_iff_right hAccepts]
    cases audioport with
    | none => simp [Accepts]
    | some port =>
      apply and_congr_right
      intro
      have hState : ∀ field,
          (Reaches port config FIELDS field →
              (applyFields port config FIELDS own).2 field = config.settings field) ∧
            (¬Reaches port config FIELDS field →
              (applyFields port config FIELDS own).2 field = own field) :=
        fun field => applyFields_state (by decide) own (mem_fields field)
      constructor
      · intro hSame _ hPort field hField hReaches
        cases hPort
        exact ((hState field).1 hReaches).symm.trans (hSame field hField)
      · intro hSame field hField
        by_cases hReaches : Reaches port config FIELDS field
        · exact ((hState field).1 hReaches).trans (hSame port rfl field hField hReaches)
        · exact (hState field).2 hReaches

def hifi : AudioPort := ⟨[44100, 48000], [3], [1], []⟩

def silent (samplingRate : Nat) : Settings
| .SAMPLE_RATE => samplingRate
| .CHANNEL_MASK => (3 : Nat)
| .FORMAT => (1 : Nat)
| .GAIN => noSettings .GAIN

def request (fields : List Field) : Config :=
  { config_mask := fun field => field ∈ fields
    settings := fun
      | .SAMPLE_RATE => (48000 : Nat)
      | .CHANNEL_MASK => (3 : Nat)
      | .FORMAT => (2 : Nat)
      | .GAIN => ⟨0, AUDIO_GAIN_MODE_JOINT, 3, fun _ => -100, 0⟩ }

/-
  No end for a gain that an output at a rate of its own does not have, and a device that keeps the
  rate of a request whose format is refused.
-/
theorem not_atomic :
    (∀ fuel, applyAudioPortConfig .mix (some hifi) fuel (silent 22050) (request [.GAIN]) = none) ∧
      (applyAudioPortConfig .device (some hifi) 2 (silent 44100)
          (request [.SAMPLE_RATE, .FORMAT])).map
        (fun (status, after, _) => (status, after .SAMPLE_RATE)) = some (.BAD_VALUE, 48000) := by
  have hRequest : ¬Accepts (some hifi) (request [.GAIN]) := by
    rw [accepts_some]
    exact fun h => absurd (h .GAIN rfl) (by decide)
  have hSilent : ¬Accepts (some hifi) (toAudioPortConfig .mix (silent 22050)) := by
    rw [accepts_some]
    exact fun h => absurd (h .SAMPLE_RATE rfl) (by decide)
  constructor
  · intro fuel
    cases fuel with
    | zero => exact rfl
    | succ fuel =>
      rw [applyAudioPortConfig_refused fuel hRequest]
      exact congrArg (Option.map _) (applyAudioPortConfig_stuck hSilent fuel)
  · exact rfl

end PortConfig

end FrameworksAv
