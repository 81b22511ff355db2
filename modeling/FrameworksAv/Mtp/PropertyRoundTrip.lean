import FrameworksAv.Mtp.Property

/-
  Reading a property back from the packet it was written to.

  Main declarations:
    * `Agree`, `Portable`, `Same`
    * `readValue_reads`, `readValues_reads`
    * `MtpProperty.read_back`
-/

--
-- Values
--

namespace FrameworksAv

namespace Mtp

/- The values are the same as far as the type stores them. -/
def Agree (mType : MtpDataType) (value other : MtpPropertyValue) : Prop :=
  match memberOf mType with
  | some .int8 => value.u.setWidth 8 = other.u.setWidth 8
  | some .int16 => value.u.setWidth 16 = other.u.setWidth 16
  | some .int32 => value.u.setWidth 32 = other.u.setWidth 32
  | some .int64 => value.u.setWidth 64 = other.u.setWidth 64
  | some .int128 => value.u = other.u
  | some .str => value.str = other.str
  | none => False

/- A value of a known type; a text survives the codec. -/
def Transfers (mType : MtpDataType) (value : MtpPropertyValue) : Prop :=
  match memberOf mType with
  | some .str => ∃ str, value.str = some str ∧ TextSurvives str
  | some _ => True
  | none => False

/- A stored member is found in the first bytes again. -/
theorem setWidth_setMember {w : Nat} (hWidth : w ≤ 128) (u : BitVec 128) (value : BitVec w) :
    (setMember u value).setWidth w = value := by
  apply BitVec.eq_of_getLsbD_eq
  intro i hi
  have hIn : i < 128 := by omega
  simp [setMember, hi, hIn]

theorem setMember_all (u value : BitVec 128) : setMember u value = value := by
  have hAll := setWidth_setMember (Nat.le_refl 128) u value
  rw [BitVec.setWidth_eq] at hAll
  exact hAll

theorem putUInt8_writes (value : BitVec 8) :
    Writes (fun packet => .ok (packet.putUInt8 value)) [value] :=
  Writes.of_put (fun _ => rfl)

theorem putUInt16_writes (value : BitVec 16) :
    Writes (fun packet => .ok (packet.putUInt16 value)) (unitBytes [value]) :=
  Writes.of_put (fun _ => rfl)

theorem putUInt_writes (n : Nat) (value : BitVec (8 * n)) :
    Writes (fun packet => .ok (packet.putUInt n value)) (le n value.toNat) :=
  Writes.of_put (fun _ => rfl)

theorem putUInt128_writes (value : BitVec 128) :
    Writes (fun packet => .ok (packet.putUInt128 value)) (le128 value) := by
  intro packet hValid
  exact congrArg Except.ok (putUInt128_put hValid value)

/- A value is read back from the bytes that it is written as. -/
theorem readValue_reads {mType : MtpDataType} {value : MtpPropertyValue}
    (hTransfers : Transfers mType value) (old : MtpPropertyValue) :
    ∃ bytes back,
      Writes (writeValue mType value) bytes ∧ Reads (readValue mType old) bytes back ∧
        Agree mType value back := by
  unfold Transfers at hTransfers
  unfold readValue Agree
  cases hMember : memberOf mType with
  | none =>
    rw [hMember] at hTransfers
    cases hTransfers
  | some member =>
    have hWrite : writeValue mType value = fun packet => writeValue mType value packet :=
      rfl
    rw [hWrite]
    unfold writeValue
    rw [hMember] at hTransfers ⊢
    cases member with
    | int8 =>
      refine ⟨_, _, putUInt8_writes _, (getUInt8_reads _).map _, ?_⟩
      exact (setWidth_setMember (by decide) _ _).symm
    | int16 =>
      refine ⟨_, _, putUInt16_writes _, (getUInt16_reads _).map _, ?_⟩
      exact (setWidth_setMember (by decide) _ _).symm
    | int32 =>
      refine ⟨_, _, putUInt_writes 4 _, (getUInt_reads 4 _).map _, ?_⟩
      exact (setWidth_setMember (by decide) _ _).symm
    | int64 =>
      refine ⟨_, _, putUInt_writes 8 _, (getUInt_reads 8 _).map _, ?_⟩
      exact (setWidth_setMember (by decide) _ _).symm
    | int128 =>
      refine ⟨_, _, putUInt128_writes _, (getUInt128_reads _).map _, ?_⟩
      exact (setMember_all _ _).symm
    | str =>
      rcases hTransfers with ⟨str, hStr, hSurvives⟩
      rcases hSurvives.bytes with ⟨bytes, hPut, hGet⟩
      refine ⟨bytes, _, ?_, hGet.map _, hStr⟩
      simp only [hStr]
      exact hPut

/- Values in a row are read back one by one. -/
theorem readValues_reads {mType : MtpDataType} (values : List MtpPropertyValue)
    (hTransfers : ∀ value ∈ values, Transfers mType value) :
    ∃ bytes, ∃ back : List MtpPropertyValue,
      ∃ hCount : back.length = values.length,
        Writes (writeValues mType values) bytes ∧
          Reads (readValues mType values.length) bytes ⟨back, hCount⟩ ∧
          List.Forall₂ (Agree mType) values back := by
  induction values with
  | nil =>
    refine ⟨[], [], rfl, ?_, ?_, List.Forall₂.nil⟩
    · exact Writes.none
    · exact Reads.ret _
  | cons value values ih =>
    rcases readValue_reads (hTransfers value List.mem_cons_self) default with
      ⟨first, head, hWrite, hRead, hAgree⟩
    rcases ih (fun v hv =>
        hTransfers v (List.mem_cons_of_mem _ hv)) with
      ⟨rest, tail, hCount, hWrites, hReads, hAgrees⟩
    refine ⟨first ++ rest, head :: tail, congrArg (· + 1) hCount, ?_, ?_,
      List.Forall₂.cons hAgree hAgrees⟩
    · exact hWrite.bind hWrites
    · exact hRead.bind (hReads.map _)

--
-- Arrays
--

/- The lengths that `readArrayValues` accepts. -/
def Values.Accepted (values : Values 32) : Prop :=
  values.list ≠ [] ∧ values.list.length < INT32_MAX / sizeofValue

theorem ofNat_length {w : Nat} (values : Values w) :
    (BitVec.ofNat w values.list.length).toNat = values.list.length := by
  rw [BitVec.toNat_ofNat]
  exact Nat.mod_eq_of_lt values.hLength

/- The values behind a count, put together as an array. -/
theorem counted_reads {mType : MtpDataType} {w : Nat} {values : Values w}
    (hTransfers : ∀ value ∈ values.list, Transfers mType value) :
    ∃ bytes, ∃ back : Values w,
      Writes (writeValues mType values.list) bytes ∧
        (∀ count (hCount : count < 2 ^ w),
          count = values.list.length →
            ∀ {β : Type} (f : Values w → β),
              Reads
                (readValues mType count >>= fun vs =>
                  pure (f ⟨vs.val, by
                    rw [vs.property]
                    exact hCount⟩))
                bytes (f back)) ∧
        List.Forall₂ (Agree mType) values.list back.list := by
  rcases readValues_reads values.list hTransfers with
    ⟨bytes, back, hCount, hWrites, hReads, hAgrees⟩
  have hFits : back.length < 2 ^ w := by
    rw [hCount]
    exact values.hLength
  refine ⟨bytes, ⟨back, hFits⟩, hWrites, ?_, hAgrees⟩
  rintro count hLess rfl β f
  exact hReads.map _

/- An array is a count and the values behind it. -/
theorem writeArrayValues_writes {mType : MtpDataType} {values : Values 32} {bytes : List Byte}
    (hWrites : Writes (writeValues mType values.list) bytes) :
    Writes (writeArrayValues mType values) (le 4 values.list.length ++ bytes) := by
  have hCount := putUInt_writes 4 (BitVec.ofNat 32 values.list.length)
  rw [ofNat_length] at hCount
  exact hCount.bind hWrites

theorem readArrayValues_reads {mType : MtpDataType} {values : Values 32}
    (hAccepted : values.Accepted) (hTransfers : ∀ value ∈ values.list, Transfers mType value) :
    ∃ bytes back,
      Writes (writeArrayValues mType values) bytes ∧ Reads (readArrayValues mType) bytes back ∧
        List.Forall₂ (Agree mType) values.list back.list := by
  rcases counted_reads hTransfers with ⟨bytes, back, hWrites, hReads, hAgrees⟩
  have hLength := ofNat_length values
  refine ⟨_, back, writeArrayValues_writes hWrites, ?_, hAgrees⟩
  have hWord := getUInt_reads 4 (BitVec.ofNat 32 values.list.length)
  rw [hLength] at hWord
  refine hWord.bind ?_
  rw [if_neg]
  · exact hReads _ (BitVec.isLt _) hLength (fun vs => vs)
  · have hSome : values.list.length ≠ 0 := fun hZero =>
        hAccepted.1 (List.eq_nil_of_length_eq_zero hZero)
    rw [hLength]
    exact not_or.mpr ⟨hSome, Nat.not_le.mpr hAccepted.2⟩

/- All other arrays are written and then turned down. -/
theorem readArrayValues_fails {mType : MtpDataType} {values : Values 32}
    (hNot : ¬ values.Accepted) : Fails (readArrayValues mType) (le 4 values.list.length) := by
  have hLength := ofNat_length values
  have hWord := getUInt_reads 4 (BitVec.ofNat 32 values.list.length)
  rw [hLength] at hWord
  have hGuard : values.list.length = 0 ∨ INT32_MAX / sizeofValue ≤ values.list.length := by
    by_contra hNone
    rcases not_or.mp hNone with ⟨hSome, hSmall⟩
    apply hNot
    refine ⟨?_, Nat.not_le.mp hSmall⟩
    intro hNil
    rw [hNil] at hSome
    exact hSome rfl
  rw [← List.append_nil (le 4 values.list.length)]
  refine hWord.bind_fails ?_
  rw [← hLength] at hGuard
  rw [if_pos hGuard]
  intro front after
  rfl

--
-- Properties
--

namespace MtpProperty

/- The default and the current value, as the type has them. -/
def AgreeAt (mType : MtpDataType) (value other : MtpPropertyValue) (values others : Values 32) :
    Prop :=
  if isArray mType then List.Forall₂ (Agree mType) values.list others.list
  else Agree mType value other

/-
  The properties are the same as far as a description goes: a current value is that of a device
  property, a group code that of an object property.
-/
structure Same (property other : MtpProperty) : Prop where
  mCode : other.mCode = property.mCode
  mType : other.mType = property.mType
  mWriteable : other.mWriteable = property.mWriteable
  default :
    AgreeAt property.mType property.mDefaultValue other.mDefaultValue
      property.mDefaultArrayValues other.mDefaultArrayValues
  current :
    property.isDeviceProperty = true →
      AgreeAt property.mType property.mCurrentValue other.mCurrentValue property.mCurrentArrayValues
        other.mCurrentArrayValues
  group : property.isDeviceProperty = false → other.mGroupCode = property.mGroupCode
  mFormFlag : other.mFormFlag = property.mFormFlag
  range :
    property.mFormFlag = kFormRange →
      Agree property.mType property.mMinimumValue other.mMinimumValue ∧
        Agree property.mType property.mMaximumValue other.mMaximumValue ∧
        Agree property.mType property.mStepSize other.mStepSize
  enum :
    property.mFormFlag = kFormEnum →
      List.Forall₂ (Agree property.mType) property.mEnumValues.list other.mEnumValues.list

/- One value or an array that is read back. -/
def PortableAt (mType : MtpDataType) (value : MtpPropertyValue) (values : Values 32) : Prop :=
  if isArray mType then values.Accepted ∧ ∀ value ∈ values.list, Transfers mType value
  else Transfers mType value

/-
  The type is known, all texts that are written survive the string codec, and arrays have a length
  that is accepted.
-/
structure Portable (property : MtpProperty) : Prop where
  default : PortableAt property.mType property.mDefaultValue property.mDefaultArrayValues
  current :
    property.isDeviceProperty = true →
      PortableAt property.mType property.mCurrentValue property.mCurrentArrayValues
  range :
    property.mFormFlag = kFormRange →
      Transfers property.mType property.mMinimumValue ∧
        Transfers property.mType property.mMaximumValue ∧
        Transfers property.mType property.mStepSize
  enum :
    property.mFormFlag = kFormEnum →
      ∀ value ∈ property.mEnumValues.list, Transfers property.mType value

variable {property : MtpProperty}

/- The default value, into a property of the same type. -/
theorem readDefault_reads (hPortable : property.Portable) {base : MtpProperty}
    (hType : base.mType = property.mType) :
    ∃ bytes value values,
      Writes property.writeDefault bytes ∧
        Reads (readDefault base) bytes
          { base with
            mDefaultValue := value
            mDefaultArrayValues := values } ∧
        AgreeAt property.mType property.mDefaultValue value
          property.mDefaultArrayValues values := by
  have hDefault := hPortable.default
  unfold PortableAt at hDefault
  unfold AgreeAt readDefault
  rw [hType]
  have hWrite : property.writeDefault = fun packet => property.writeDefault packet :=
    rfl
  rw [hWrite]
  unfold writeDefault
  by_cases hArray : isArray property.mType = true
  · simp only [hArray, if_true] at hDefault ⊢
    rcases readArrayValues_reads hDefault.1 hDefault.2 with ⟨bytes, back, hWrites, hReads, hAgrees⟩
    exact ⟨bytes, base.mDefaultValue, back, hWrites, hReads.map _, hAgrees⟩
  · simp only [hArray] at hDefault ⊢
    rcases readValue_reads hDefault base.mDefaultValue with ⟨bytes, back, hWrites, hReads, hAgree⟩
    exact ⟨bytes, back, base.mDefaultArrayValues, hWrites, hReads.map _, hAgree⟩

theorem readCurrent_reads
    (hPortable : PortableAt property.mType property.mCurrentValue property.mCurrentArrayValues)
    {base : MtpProperty} (hType : base.mType = property.mType) :
    ∃ bytes value values,
      Writes property.writeCurrent bytes ∧
        Reads (readCurrent base) bytes
          { base with
            mCurrentValue := value
            mCurrentArrayValues := values } ∧
        AgreeAt property.mType property.mCurrentValue value
          property.mCurrentArrayValues values := by
  unfold PortableAt at hPortable
  unfold AgreeAt readCurrent
  rw [hType]
  have hWrite : property.writeCurrent = fun packet => property.writeCurrent packet :=
    rfl
  rw [hWrite]
  unfold writeCurrent
  by_cases hArray : isArray property.mType = true
  · simp only [hArray, if_true] at hPortable ⊢
    rcases readArrayValues_reads hPortable.1 hPortable.2 with
      ⟨bytes, back, hWrites, hReads, hAgrees⟩
    exact ⟨bytes, base.mCurrentValue, back, hWrites, hReads.map _, hAgrees⟩
  · simp only [hArray] at hPortable ⊢
    rcases readValue_reads hPortable base.mCurrentValue with ⟨bytes, back, hWrites, hReads, hAgree⟩
    exact ⟨bytes, back, base.mCurrentArrayValues, hWrites, hReads.map _, hAgree⟩

/- The current value or the group code. -/
theorem readMiddle_reads (hPortable : property.Portable) {base : MtpProperty}
    (hCode : base.mCode = property.mCode) (hType : base.mType = property.mType) :
    ∃ bytes value values group,
      Writes property.writeCurrentOrGroup bytes ∧
        Reads (readCurrentOrGroup base) bytes
          { base with
            mCurrentValue := value
            mCurrentArrayValues := values
            mGroupCode := group } ∧
        (property.isDeviceProperty = true →
          AgreeAt property.mType property.mCurrentValue value property.mCurrentArrayValues values) ∧
        (property.isDeviceProperty = false → group = property.mGroupCode) := by
  have hDevice : base.isDeviceProperty = property.isDeviceProperty := by
    unfold isDeviceProperty
    rw [hCode]
  have hWrite : property.writeCurrentOrGroup = fun packet => property.writeCurrentOrGroup packet :=
    rfl
  rw [hWrite]
  unfold writeCurrentOrGroup readCurrentOrGroup
  rw [hDevice]
  cases hIs : property.isDeviceProperty with
  | true =>
    rcases readCurrent_reads (hPortable.current hIs) hType
      with ⟨bytes, value, values, hWrites, hReads, hAgree⟩
    refine ⟨bytes, value, values, base.mGroupCode, hWrites, hReads, fun _ => hAgree, ?_⟩
    intro hFalse
    cases hFalse
  | false =>
    refine ⟨_, base.mCurrentValue, base.mCurrentArrayValues, property.mGroupCode,
      putUInt_writes 4 property.mGroupCode, (getUInt_reads 4 property.mGroupCode).map _, ?_,
      fun _ => rfl⟩
    intro hTrue
    cases hTrue

theorem readForm_reads (hPortable : property.Portable) {base : MtpProperty}
    (hType : base.mType = property.mType) (hFlag : base.mFormFlag = property.mFormFlag) :
    ∃ bytes min max step values,
      Writes property.writeForm bytes ∧
        Reads (readForm base) bytes
          { base with
            mMinimumValue := min
            mMaximumValue := max
            mStepSize := step
            mEnumValues := values } ∧
        (property.mFormFlag = kFormRange →
          Agree property.mType property.mMinimumValue min ∧
            Agree property.mType property.mMaximumValue max ∧
            Agree property.mType property.mStepSize step) ∧
        (property.mFormFlag = kFormEnum →
          List.Forall₂ (Agree property.mType) property.mEnumValues.list values.list) := by
  have hRangeOk := hPortable.range
  have hEnumOk := hPortable.enum
  have hWrite : property.writeForm = fun packet => property.writeForm packet :=
    rfl
  rw [hWrite]
  unfold writeForm readForm
  rw [← hType, ← hFlag] at hRangeOk hEnumOk ⊢
  by_cases hRange : base.mFormFlag = kFormRange
  · rcases hRangeOk hRange with ⟨hMin, hMax, hStep⟩
    rcases readValue_reads hMin base.mMinimumValue with ⟨first, min, hPutMin, hGetMin, hSameMin⟩
    rcases readValue_reads hMax base.mMaximumValue with ⟨second, max, hPutMax, hGetMax, hSameMax⟩
    rcases readValue_reads hStep base.mStepSize with ⟨third, step, hPutStep, hGetStep, hSameStep⟩
    simp only [if_pos hRange]
    refine ⟨first ++ (second ++ third), min, max, step, base.mEnumValues, ?_, ?_,
      fun _ => ⟨hSameMin, hSameMax, hSameStep⟩, ?_⟩
    · exact hPutMin.bind (hPutMax.bind hPutStep)
    · exact hGetMin.bind (hGetMax.bind (hGetStep.map _))
    · intro hEnum
      rw [hRange] at hEnum
      cases hEnum
  · by_cases hEnum : base.mFormFlag = kFormEnum
    · rcases counted_reads (hEnumOk hEnum) with ⟨bytes, back, hPuts, hGets, hSame⟩
      have hLength := ofNat_length property.mEnumValues
      have hCount := putUInt16_writes (BitVec.ofNat 16 property.mEnumValues.list.length)
      have hWord := getUInt16_reads (BitVec.ofNat 16 property.mEnumValues.list.length)
      simp only [if_neg hRange, if_pos hEnum]
      refine ⟨_, base.mMinimumValue, base.mMaximumValue,
        base.mStepSize, back, hCount.bind hPuts, ?_, ?_, fun _ => hSame⟩
      · refine hWord.bind ?_
        exact hGets _ (BitVec.isLt _) hLength (fun values => { base with mEnumValues := values })
      · intro hFalse
        exact absurd hFalse hRange
    · simp only [if_neg hRange, if_neg hEnum]
      refine ⟨[], base.mMinimumValue, base.mMaximumValue,
        base.mStepSize, base.mEnumValues, Writes.none, Reads.ret base, ?_, ?_⟩
      · intro hFalse
        exact absurd hFalse hRange
      · intro hFalse
        exact absurd hFalse hEnum

/-
  A property is read back from the packet it was written to: reading uses up the bytes written and
  yields the same property.
-/
theorem read_back (hPortable : property.Portable) {packet : MtpDataPacket} (hValid : packet.Valid) :
    ∃ sent back,
      property.write packet = .ok sent ∧
        read (sent.rewind packet.mOffset) = .ok (some (back, sent)) ∧ property.Same back := by
  have hWriteable :
      decide ((if property.mWriteable then 1 else 0 : BitVec 8) = 1) = property.mWriteable := by
    cases property.mWriteable <;> rfl
  let first : MtpProperty :=
    { fresh with
      mCode := property.mCode
      mType := property.mType
      mWriteable :=
        decide ((if property.mWriteable then 1 else 0 : BitVec 8) = 1) }
  have hFirst : first.mType = property.mType := rfl
  rcases readDefault_reads hPortable hFirst with
    ⟨defaults, value, values, hPutDefault, hGetDefault, hDefault⟩
  let second : MtpProperty :=
    { first with
      mDefaultValue := value
      mDefaultArrayValues := values }
  have hSecond : second.mType = property.mType := rfl
  have hCode : second.mCode = property.mCode := rfl
  rcases readMiddle_reads hPortable hCode hSecond with
    ⟨middle, current, currents, group, hPutMiddle, hGetMiddle, hCurrent, hGroup⟩
  let third : MtpProperty :=
    { second with
      mCurrentValue := current
      mCurrentArrayValues := currents
      mGroupCode := group
      mFormFlag := property.mFormFlag }
  have hThird : third.mType = property.mType := rfl
  have hFlag : third.mFormFlag = property.mFormFlag := rfl
  rcases readForm_reads hPortable hThird hFlag with
    ⟨form, min, max, step, enum, hPutForm, hGetForm, hRange, hEnum⟩
  have hWrites :
      Writes property.write
        (unitBytes [property.mCode] ++
          (unitBytes [property.mType] ++
            ([if property.mWriteable then 1 else 0] ++
              (defaults ++ (middle ++ ([property.mFormFlag] ++ form)))))) :=
    (putUInt16_writes _).bind
      ((putUInt16_writes _).bind
        ((putUInt8_writes _).bind
          (hPutDefault.bind (hPutMiddle.bind ((putUInt8_writes _).bind hPutForm)))))
  have hReads :
      Reads read
        (unitBytes [property.mCode] ++
          (unitBytes [property.mType] ++
            ([if property.mWriteable then 1 else 0] ++
              (defaults ++ (middle ++ ([property.mFormFlag] ++ form))))))
        _ :=
    (getUInt16_reads _).bind
      ((getUInt16_reads _).bind
        ((getUInt8_reads _).bind
          (hGetDefault.bind (hGetMiddle.bind ((getUInt8_reads _).bind hGetForm)))))
  refine ⟨_, _, hWrites packet hValid, hReads.of_put hValid, ?_⟩
  exact ⟨rfl, rfl, hWriteable, hDefault, hCurrent, hGroup,
    rfl, hRange, hEnum⟩

/- An array of bytes as an object property. -/
def ofArray (values : Values 32) : MtpProperty :=
  { fresh with
    mType := MTP_TYPE_AUINT8
    mDefaultArrayValues := values }

/- A property whose array is not accepted is not read back. -/
theorem read_ofArray {values : Values 32} (hNot : ¬ values.Accepted) {packet : MtpDataPacket}
    (hValid : packet.Valid) :
    ∃ sent,
      (ofArray values).write packet = .ok sent ∧ read (sent.rewind packet.mOffset) = .ok none := by
  have hTransfers : ∀ value ∈ values.list, Transfers MTP_TYPE_AUINT8 value := fun _ _ => trivial
  rcases counted_reads hTransfers with ⟨bytes, -, hPuts, -, -⟩
  have hDefault : Writes (ofArray values).writeDefault (le 4 values.list.length ++ bytes) :=
    writeArrayValues_writes hPuts
  have hGroup : Writes (ofArray values).writeCurrentOrGroup (le 4 (0 : BitVec 32).toNat) := by
    have hObject : (ofArray values).isDeviceProperty = false := by
      simp [isDeviceProperty, ofArray, fresh]
    intro packet _
    unfold writeCurrentOrGroup
    rw [hObject]
    rfl
  have hForm : Writes (ofArray values).writeForm [] := Writes.none
  have hWrites :
      Writes (ofArray values).write
        (unitBytes [0] ++
          (unitBytes [MTP_TYPE_AUINT8] ++
            ([0] ++
              ((le 4 values.list.length ++ bytes) ++
                (le 4 (0 : BitVec 32).toNat ++ ([0] ++ [])))))) :=
    (putUInt16_writes _).bind
      ((putUInt16_writes _).bind
        ((putUInt8_writes _).bind (hDefault.bind (hGroup.bind ((putUInt8_writes _).bind hForm)))))
  have hArray :
      Fails (readArrayValues MTP_TYPE_AUINT8)
        ((le 4 values.list.length ++ bytes) ++ (le 4 (0 : BitVec 32).toNat ++ ([0] ++ []))) := by
    rw [List.append_assoc]
    exact (readArrayValues_fails hNot).append _
  have hFails :
      Fails read
        (unitBytes [0] ++
          (unitBytes [MTP_TYPE_AUINT8] ++
            ([0] ++
              ((le 4 values.list.length ++ bytes) ++
                (le 4 (0 : BitVec 32).toNat ++ ([0] ++ [])))))) :=
    (getUInt16_reads _).bind_fails
      ((getUInt16_reads _).bind_fails ((getUInt8_reads _).bind_fails hArray.bind.bind))
  exact ⟨_, hWrites packet hValid, hFails.of_put hValid⟩

/- A byte as an object property. -/
def ofBytes (initial current : BitVec 128) : MtpProperty :=
  { fresh with
    mType := MTP_TYPE_UINT8
    mDefaultValue := { u := initial, str := none }
    mCurrentValue := { u := current, str := none } }

theorem read_back_byte :
    ∃ sent back,
      (ofBytes 7 0).write ⟨[], 0⟩ = .ok sent ∧ read (sent.rewind 0) = .ok (some (back, sent)) ∧
        (ofBytes 7 0).Same back := by
  have hPortable : (ofBytes 7 0).Portable := by
    refine ⟨trivial, ?_, ?_, ?_⟩
    · intro hDevice
      cases hDevice
    · intro hRange
      cases hRange
    · intro hEnum
      cases hEnum
  have hEmpty : MtpDataPacket.Valid ⟨[], 0⟩ := Nat.le_refl 0
  exact read_back hPortable hEmpty

/-
  Neither the empty array nor one of more than two gigabytes comes back, and the current value of an
  object property is not sent.
-/
theorem read_back_rejected :
    (∃ values : Values 32,
      values.list = [] ∧
        ∃ sent, (ofArray values).write ⟨[], 0⟩ = .ok sent ∧ read (sent.rewind 0) = .ok none) ∧
      (∃ values : Values 32,
        values.list.length = INT32_MAX / sizeofValue ∧
          ∃ sent, (ofArray values).write ⟨[], 0⟩ = .ok sent ∧ read (sent.rewind 0) = .ok none) ∧
      ∃ sent back,
        (ofBytes 7 9).write ⟨[], 0⟩ = .ok sent ∧ read (sent.rewind 0) = .ok (some (back, sent)) ∧
          back.mCurrentValue.u ≠ (ofBytes 7 9).mCurrentValue.u := by
  have hEmpty : MtpDataPacket.Valid ⟨[], 0⟩ := Nat.le_refl 0
  have hLarge :
      (List.replicate (INT32_MAX / sizeofValue) (default : MtpPropertyValue)).length < 2 ^ 32 := by
    rw [List.length_replicate]
    decide
  refine ⟨⟨default, rfl, ?_⟩,
    ⟨⟨List.replicate (INT32_MAX / sizeofValue) default, hLarge⟩, List.length_replicate, ?_⟩, ?_⟩
  · exact read_ofArray (fun hAccepted => hAccepted.1 rfl) hEmpty
  · refine read_ofArray ?_ hEmpty
    intro hAccepted
    have hLess := hAccepted.2
    rw [List.length_replicate] at hLess
    exact Nat.lt_irrefl _ hLess
  · refine ⟨_, _, rfl, rfl, ?_⟩
    decide

end MtpProperty

end Mtp

end FrameworksAv
