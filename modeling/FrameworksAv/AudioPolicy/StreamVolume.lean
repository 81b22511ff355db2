import Mathlib.Algebra.Order.Ring.Int
import Mathlib.Data.List.Basic

/-
  The volume indices of the streams (`StreamDescriptor`, and `setStreamVolumeIndex` of
  AudioPolicyManager.cpp).

  Main declarations:
    * `getDeviceForVolume`, `StreamDescriptor`
    * `setStreamVolumeIndex`
    * `Follows`, `Clear`
    * `follows_iff_clear`

  The volumes of the outputs, which are set after the indices, are left out.
-/

--
-- Devices
--

namespace FrameworksAv

namespace StreamVolume

abbrev AudioDevices := BitVec 32

def AUDIO_DEVICE_NONE : AudioDevices := 0

def AUDIO_DEVICE_OUT_SPEAKER : AudioDevices := 0x2

def AUDIO_DEVICE_OUT_ALL_A2DP : AudioDevices := 0x380

def AUDIO_DEVICE_OUT_HDMI_ARC : AudioDevices := 0x40000

def AUDIO_DEVICE_OUT_SPDIF : AudioDevices := 0x80000

def AUDIO_DEVICE_OUT_AUX_LINE : AudioDevices := 0x200000

def AUDIO_DEVICE_OUT_SPEAKER_SAFE : AudioDevices := 0x400000

def AUDIO_DEVICE_OUT_DEFAULT : AudioDevices := 0x40000000

def popcount (device : AudioDevices) : Nat := (List.range 32).countP device.getLsbD

/- The one device of a selection that gives the volume. -/
def selectDevice (device : AudioDevices) : AudioDevices :=
  if device = AUDIO_DEVICE_NONE then AUDIO_DEVICE_OUT_SPEAKER
  else if popcount device ≤ 1 then device
  else if device &&& AUDIO_DEVICE_OUT_SPEAKER ≠ 0 then AUDIO_DEVICE_OUT_SPEAKER
  else if device &&& AUDIO_DEVICE_OUT_SPEAKER_SAFE ≠ 0 then AUDIO_DEVICE_OUT_SPEAKER_SAFE
  else if device &&& AUDIO_DEVICE_OUT_HDMI_ARC ≠ 0 then AUDIO_DEVICE_OUT_HDMI_ARC
  else if device &&& AUDIO_DEVICE_OUT_AUX_LINE ≠ 0 then AUDIO_DEVICE_OUT_AUX_LINE
  else if device &&& AUDIO_DEVICE_OUT_SPDIF ≠ 0 then AUDIO_DEVICE_OUT_SPDIF
  else device &&& AUDIO_DEVICE_OUT_ALL_A2DP

/- `SPEAKER_SAFE` is an alias of `SPEAKER` here. -/
def getDeviceForVolume (device : AudioDevices) : AudioDevices :=
  if selectDevice device = AUDIO_DEVICE_OUT_SPEAKER_SAFE then AUDIO_DEVICE_OUT_SPEAKER
  else selectDevice device

--
-- Streams
--

structure StreamDescriptor where
  mIndexMin : Int
  mIndexMax : Int
  mCanBeMuted : Bool
  mIndexCur : AudioDevices → Option Int

namespace StreamDescriptor

/- No result where the map has no entry for the default device either. -/
def getVolumeIndex (stream : StreamDescriptor) (device : AudioDevices) : Option Int :=
  if (stream.mIndexCur (getDeviceForVolume device)).isNone then
    stream.mIndexCur AUDIO_DEVICE_OUT_DEFAULT
  else stream.mIndexCur (getDeviceForVolume device)

def clearCurrentVolumeIndex (stream : StreamDescriptor) : StreamDescriptor :=
  { stream with mIndexCur := fun _ => none }

def addCurrentVolumeIndex (stream : StreamDescriptor) (device : AudioDevices) (index : Int) :
    StreamDescriptor :=
  { stream with mIndexCur := Function.update stream.mIndexCur device (some index) }

end StreamDescriptor

def AUDIO_STREAM_MUSIC : Nat := 3

def AUDIO_STREAM_ACCESSIBILITY : Nat := 10

abbrev StreamDescriptorCollection := Nat → StreamDescriptor

/- Every stream of a new collection has the index 0. -/
def IsNew (mStreams : StreamDescriptorCollection) : Prop :=
  ∀ stream, (mStreams stream).mIndexCur =
    Function.update (fun _ => none) AUDIO_DEVICE_OUT_DEFAULT (some 0)

--
-- Calls
--

section Calls

variable (audio_is_output_device : AudioDevices → Bool)

/- The index that a call sets: the greatest one if the stream cannot be muted. -/
def newIndex (mStreams : StreamDescriptorCollection) (stream : Nat) (index : Int) : Int :=
  if (mStreams stream).mCanBeMuted then index else (mStreams stream).mIndexMax

def setStreamVolumeIndex (mStreams : StreamDescriptorCollection) (stream : Nat) (index : Int)
    (device : AudioDevices) : StreamDescriptorCollection :=
  if index < (mStreams stream).mIndexMin ∨ (mStreams stream).mIndexMax < index then mStreams
  else if ¬audio_is_output_device device then mStreams
  else
    let index := newIndex mStreams stream index
    let cleared :=
      if device = AUDIO_DEVICE_OUT_DEFAULT then
        Function.update mStreams stream (mStreams stream).clearCurrentVolumeIndex
      else mStreams
    let added := Function.update cleared stream
      ((cleared stream).addCurrentVolumeIndex device index)
    if stream = AUDIO_STREAM_MUSIC then
      Function.update added AUDIO_STREAM_ACCESSIBILITY
        ((added AUDIO_STREAM_ACCESSIBILITY).addCurrentVolumeIndex device index)
    else added

/- An index and a device for the music stream. -/
structure Call where
  index : Int
  device : AudioDevices

def step (mStreams : StreamDescriptorCollection) (call : Call) : StreamDescriptorCollection :=
  setStreamVolumeIndex audio_is_output_device mStreams AUDIO_STREAM_MUSIC call.index call.device

def run (mStreams : StreamDescriptorCollection) (calls : List Call) :
    StreamDescriptorCollection :=
  calls.foldl (step audio_is_output_device) mStreams

def InRange (mStreams : StreamDescriptorCollection) (call : Call) : Prop :=
  (mStreams AUDIO_STREAM_MUSIC).mIndexMin ≤ call.index ∧
    call.index ≤ (mStreams AUDIO_STREAM_MUSIC).mIndexMax

def Agree (mStreams : StreamDescriptorCollection) : Prop :=
  ∀ device, audio_is_output_device device = true →
    (mStreams AUDIO_STREAM_ACCESSIBILITY).getVolumeIndex device =
      (mStreams AUDIO_STREAM_MUSIC).getVolumeIndex device

/- What a call promises of the streams after it. -/
def Follows (mStreams : StreamDescriptorCollection) (call : Call) : Prop :=
  Agree audio_is_output_device (step audio_is_output_device mStreams call) ∧
    (InRange mStreams call → call.device = AUDIO_DEVICE_OUT_DEFAULT →
      ∀ device, audio_is_output_device device = true →
        ∀ stream, stream = AUDIO_STREAM_MUSIC ∨ stream = AUDIO_STREAM_ACCESSIBILITY →
          (step audio_is_output_device mStreams call stream).getVolumeIndex device =
            some (newIndex mStreams AUDIO_STREAM_MUSIC call.index))

/-
  A call for the default device finds no entry of the accessibility stream for a device of
  its own, or one with the new index.
-/
def Clear (mStreams : StreamDescriptorCollection) (call : Call) : Prop :=
  InRange mStreams call → call.device = AUDIO_DEVICE_OUT_DEFAULT →
    ∀ device, audio_is_output_device device = true →
      getDeviceForVolume device ≠ AUDIO_DEVICE_OUT_DEFAULT →
        ∀ old, (mStreams AUDIO_STREAM_ACCESSIBILITY).mIndexCur (getDeviceForVolume device) =
            some old →
          old = newIndex mStreams AUDIO_STREAM_MUSIC call.index

end Calls

--
-- One call
--

section Step

variable {audio_is_output_device : AudioDevices → Bool} {mStreams : StreamDescriptorCollection}
  {call : Call}

namespace StreamDescriptor

/- An entry for one device leaves the others as they were. -/
theorem getVolumeIndex_add {stream : StreamDescriptor} {device added : AudioDevices} {index : Int}
    (hOther : added ≠ AUDIO_DEVICE_OUT_DEFAULT) :
    (stream.addCurrentVolumeIndex added index).getVolumeIndex device =
      if getDeviceForVolume device = added then some index else stream.getVolumeIndex device := by
  unfold getVolumeIndex addCurrentVolumeIndex
  by_cases hSame : getDeviceForVolume device = added
  · simp [hSame]
  · simp [hSame, Function.update_of_ne (Ne.symm hOther)]

/- An entry for the default device counts where there is no other one. -/
theorem getVolumeIndex_addDefault {stream : StreamDescriptor} {device : AudioDevices}
    {index : Int} :
    (stream.addCurrentVolumeIndex AUDIO_DEVICE_OUT_DEFAULT index).getVolumeIndex device =
      some index ↔
        (getDeviceForVolume device ≠ AUDIO_DEVICE_OUT_DEFAULT →
          ∀ old, stream.mIndexCur (getDeviceForVolume device) = some old → old = index) := by
  unfold getVolumeIndex addCurrentVolumeIndex
  by_cases hSame : getDeviceForVolume device = AUDIO_DEVICE_OUT_DEFAULT
  · simp [hSame]
  · simp only [Function.update_of_ne hSame, Function.update_self]
    cases hOld : stream.mIndexCur (getDeviceForVolume device) with
    | none => simp
    | some old => simp [hSame]

end StreamDescriptor

theorem accessibility_ne_music : AUDIO_STREAM_ACCESSIBILITY ≠ AUDIO_STREAM_MUSIC := by decide

/- A refused call changes nothing; the others add an entry to both streams. -/
theorem step_cases :
    (¬(InRange mStreams call ∧ audio_is_output_device call.device = true) ∧
        step audio_is_output_device mStreams call = mStreams) ∨
      ((InRange mStreams call ∧ audio_is_output_device call.device = true) ∧
        step audio_is_output_device mStreams call AUDIO_STREAM_MUSIC =
          (if call.device = AUDIO_DEVICE_OUT_DEFAULT then
              (mStreams AUDIO_STREAM_MUSIC).clearCurrentVolumeIndex
            else mStreams AUDIO_STREAM_MUSIC).addCurrentVolumeIndex call.device
              (newIndex mStreams AUDIO_STREAM_MUSIC call.index) ∧
        step audio_is_output_device mStreams call AUDIO_STREAM_ACCESSIBILITY =
          (mStreams AUDIO_STREAM_ACCESSIBILITY).addCurrentVolumeIndex call.device
            (newIndex mStreams AUDIO_STREAM_MUSIC call.index)) := by
  unfold step setStreamVolumeIndex InRange
  split
  · exact Or.inl ⟨by omega, rfl⟩
  · rename_i hRange
    split
    · rename_i hDevice
      exact Or.inl ⟨fun hBoth => hDevice hBoth.2, rfl⟩
    · rename_i hDevice
      refine Or.inr ⟨⟨by omega, by simpa using hDevice⟩, ?_, ?_⟩
      · by_cases hDefault : call.device = AUDIO_DEVICE_OUT_DEFAULT
        · simp [hDefault, Function.update_of_ne accessibility_ne_music.symm]
        · simp [hDefault, Function.update_of_ne accessibility_ne_music.symm]
      · by_cases hDefault : call.device = AUDIO_DEVICE_OUT_DEFAULT
        · simp [hDefault, Function.update_of_ne accessibility_ne_music]
        · simp [hDefault, Function.update_of_ne accessibility_ne_music]

theorem follows_iff (hDefault : audio_is_output_device AUDIO_DEVICE_OUT_DEFAULT = true)
    (hAgree : Agree audio_is_output_device mStreams) :
    Follows audio_is_output_device mStreams call ↔ Clear audio_is_output_device mStreams call := by
  rcases step_cases with ⟨hRefused, hStep⟩ | ⟨⟨hRange, hDevice⟩, hMusic, hAccessibility⟩
  · have hNotBoth : InRange mStreams call → call.device ≠ AUDIO_DEVICE_OUT_DEFAULT :=
      fun hRange hEq => hRefused ⟨hRange, hEq ▸ hDefault⟩
    unfold Follows Clear
    rw [hStep]
    exact iff_of_true ⟨hAgree, fun hRange hEq => absurd hEq (hNotBoth hRange)⟩
      fun hRange hEq => absurd hEq (hNotBoth hRange)
  · by_cases hEq : call.device = AUDIO_DEVICE_OUT_DEFAULT
    · rw [if_pos hEq, hEq] at hMusic
      rw [hEq] at hAccessibility
      have hNew : ∀ device,
          (step audio_is_output_device mStreams call AUDIO_STREAM_MUSIC).getVolumeIndex device =
            some (newIndex mStreams AUDIO_STREAM_MUSIC call.index) := by
        intro device
        rw [hMusic, StreamDescriptor.getVolumeIndex_addDefault]
        rintro - old ⟨⟩
      constructor
      · rintro ⟨-, hAll⟩ hRange - device hOutput
        have hIndex := hAll hRange hEq device hOutput _ (Or.inr rfl)
        rw [hAccessibility] at hIndex
        exact StreamDescriptor.getVolumeIndex_addDefault.mp hIndex
      · intro hClear
        have hOld : ∀ device, audio_is_output_device device = true →
            (step audio_is_output_device mStreams call
              AUDIO_STREAM_ACCESSIBILITY).getVolumeIndex device =
                some (newIndex mStreams AUDIO_STREAM_MUSIC call.index) := by
          intro device hOutput
          rw [hAccessibility]
          exact StreamDescriptor.getVolumeIndex_addDefault.mpr (hClear hRange hEq device hOutput)
        refine ⟨fun device hOutput => (hOld device hOutput).trans (hNew device).symm, ?_⟩
        rintro - - device hOutput stream (rfl | rfl)
        · exact hNew device
        · exact hOld device hOutput
    · rw [if_neg hEq] at hMusic
      refine iff_of_true ⟨?_, fun _ hSame => absurd hSame hEq⟩ fun _ hSame => absurd hSame hEq
      intro device hOutput
      rw [hMusic, hAccessibility, StreamDescriptor.getVolumeIndex_add hEq,
        StreamDescriptor.getVolumeIndex_add hEq, hAgree device hOutput]

end Step

--
-- Runs
--

section Runs

variable {audio_is_output_device : AudioDevices → Bool} {mStreams : StreamDescriptorCollection}

theorem run_agrees (hDefault : audio_is_output_device AUDIO_DEVICE_OUT_DEFAULT = true)
    (hAgree : Agree audio_is_output_device mStreams) (calls : List Call) :
    (∀ before call after, calls = before ++ call :: after →
        Follows audio_is_output_device (run audio_is_output_device mStreams before) call) ↔
      ∀ before call after, calls = before ++ call :: after →
        Clear audio_is_output_device (run audio_is_output_device mStreams before) call := by
  induction calls generalizing mStreams with
  | nil => simp
  | cons first calls ih =>
    have hSplit : ∀ P : StreamDescriptorCollection → Call → Prop,
        (∀ before call after, first :: calls = before ++ call :: after →
          P (run audio_is_output_device mStreams before) call) ↔
          P mStreams first ∧ ∀ before call after, calls = before ++ call :: after →
            P (run audio_is_output_device (step audio_is_output_device mStreams first) before)
              call := by
      intro P
      constructor
      · intro hAll
        refine ⟨hAll [] first calls rfl, fun before call after hEq => ?_⟩
        exact hAll (first :: before) call after (by rw [hEq, List.cons_append])
      · rintro ⟨hFirst, hRest⟩ before call after hEq
        cases before with
        | nil =>
          cases hEq
          exact hFirst
        | cons head before =>
          cases hEq
          exact hRest before call after rfl
    rw [hSplit, hSplit, follows_iff hDefault hAgree]
    refine and_congr_right fun hClear => ?_
    exact ih ((follows_iff hDefault hAgree).mpr hClear).1

/- The two streams agree after every call exactly if the calls for the default device are clear. -/
theorem follows_iff_clear (hDefault : audio_is_output_device AUDIO_DEVICE_OUT_DEFAULT = true)
    (hNew : IsNew mStreams) (calls : List Call) :
    (∀ before call after, calls = before ++ call :: after →
        Follows audio_is_output_device (run audio_is_output_device mStreams before) call) ↔
      ∀ before call after, calls = before ++ call :: after →
        Clear audio_is_output_device (run audio_is_output_device mStreams before) call := by
  refine run_agrees hDefault (fun device _ => ?_) calls
  unfold StreamDescriptor.getVolumeIndex
  rw [hNew, hNew]

end Runs

--
-- An entry that stays
--

/- Music and accessibility streams with the indices 0 to 15. -/
def newStreams : StreamDescriptorCollection := fun _ =>
  ⟨0, 15, true, Function.update (fun _ => none) AUDIO_DEVICE_OUT_DEFAULT (some 0)⟩

def isSingle (device : AudioDevices) : Bool := decide (device < 0x80000000 ∧ popcount device = 1)

theorem follows_iff_clear_default :
    (∀ before call after, [⟨3, AUDIO_DEVICE_OUT_DEFAULT⟩] = before ++ call :: after →
        Follows isSingle (run isSingle newStreams before) call) ↔
      ∀ before call after, [⟨3, AUDIO_DEVICE_OUT_DEFAULT⟩] = before ++ call :: after →
        Clear isSingle (run isSingle newStreams before) call :=
  follows_iff_clear (by decide) (fun _ => rfl) _

/- The index 5 for the speaker stays when 3 is set for every device. -/
theorem not_follows :
    ((run isSingle newStreams [⟨5, AUDIO_DEVICE_OUT_SPEAKER⟩, ⟨3, AUDIO_DEVICE_OUT_DEFAULT⟩])
        AUDIO_STREAM_ACCESSIBILITY).getVolumeIndex AUDIO_DEVICE_OUT_SPEAKER = some 5 ∧
      ((run isSingle newStreams [⟨5, AUDIO_DEVICE_OUT_SPEAKER⟩, ⟨3, AUDIO_DEVICE_OUT_DEFAULT⟩])
        AUDIO_STREAM_MUSIC).getVolumeIndex AUDIO_DEVICE_OUT_SPEAKER = some 3 ∧
      ¬Follows isSingle (run isSingle newStreams [⟨5, AUDIO_DEVICE_OUT_SPEAKER⟩])
        ⟨3, AUDIO_DEVICE_OUT_DEFAULT⟩ := by
  have hAccessibility : ((run isSingle newStreams
      [⟨5, AUDIO_DEVICE_OUT_SPEAKER⟩, ⟨3, AUDIO_DEVICE_OUT_DEFAULT⟩])
        AUDIO_STREAM_ACCESSIBILITY).getVolumeIndex AUDIO_DEVICE_OUT_SPEAKER = some 5 := by decide
  have hMusic : ((run isSingle newStreams
      [⟨5, AUDIO_DEVICE_OUT_SPEAKER⟩, ⟨3, AUDIO_DEVICE_OUT_DEFAULT⟩])
        AUDIO_STREAM_MUSIC).getVolumeIndex AUDIO_DEVICE_OUT_SPEAKER = some 3 := by decide
  refine ⟨hAccessibility, hMusic, fun hFollows => ?_⟩
  have hSame := hFollows.1 AUDIO_DEVICE_OUT_SPEAKER (by decide)
  exact absurd (hAccessibility.symm.trans (hSame.trans hMusic)) (by decide)

end StreamVolume

end FrameworksAv
