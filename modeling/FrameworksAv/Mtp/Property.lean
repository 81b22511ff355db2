import FrameworksAv.Mtp.DataPacket

/-
  `MtpProperty`: the description of a device or object property and its form in a data packet.

  The description of an object property has a group code and no current value; the other way round
  for a device property. An array is read back when it has a first element and stays below two
  gigabytes; `readArrayValues` turns all others down.

  Main declarations:
    * `MtpProperty`
    * `readValue`, `writeValue`
    * `MtpProperty.read`, `MtpProperty.write`
-/

--
-- Types
--

namespace FrameworksAv

namespace Mtp

abbrev MtpDataType := BitVec 16

def MTP_TYPE_INT8 : MtpDataType := 0x0001
def MTP_TYPE_UINT8 : MtpDataType := 0x0002
def MTP_TYPE_INT16 : MtpDataType := 0x0003
def MTP_TYPE_UINT16 : MtpDataType := 0x0004
def MTP_TYPE_INT32 : MtpDataType := 0x0005
def MTP_TYPE_UINT32 : MtpDataType := 0x0006
def MTP_TYPE_INT64 : MtpDataType := 0x0007
def MTP_TYPE_UINT64 : MtpDataType := 0x0008
def MTP_TYPE_INT128 : MtpDataType := 0x0009
def MTP_TYPE_UINT128 : MtpDataType := 0x000A
def MTP_TYPE_AINT8 : MtpDataType := 0x4001
def MTP_TYPE_AUINT8 : MtpDataType := 0x4002
def MTP_TYPE_AINT16 : MtpDataType := 0x4003
def MTP_TYPE_AUINT16 : MtpDataType := 0x4004
def MTP_TYPE_AINT32 : MtpDataType := 0x4005
def MTP_TYPE_AUINT32 : MtpDataType := 0x4006
def MTP_TYPE_AINT64 : MtpDataType := 0x4007
def MTP_TYPE_AUINT64 : MtpDataType := 0x4008
def MTP_TYPE_AINT128 : MtpDataType := 0x4009
def MTP_TYPE_AUINT128 : MtpDataType := 0x400A
def MTP_TYPE_STR : MtpDataType := 0xFFFF

/-
  What a type stores of a value. The signed and the unsigned members of one width have the same
  bytes.
-/
inductive Member where
| int8
| int16
| int32
| int64
| int128
| str
deriving DecidableEq, Repr

/- The switch over `mType` of `readValue` and `writeValue`. -/
def memberOf (mType : MtpDataType) : Option Member :=
  if mType = MTP_TYPE_INT8 ∨ mType = MTP_TYPE_AINT8 ∨
      mType = MTP_TYPE_UINT8 ∨ mType = MTP_TYPE_AUINT8 then
    some .int8
  else if mType = MTP_TYPE_INT16 ∨ mType = MTP_TYPE_AINT16 ∨
      mType = MTP_TYPE_UINT16 ∨ mType = MTP_TYPE_AUINT16 then
    some .int16
  else if mType = MTP_TYPE_INT32 ∨ mType = MTP_TYPE_AINT32 ∨
      mType = MTP_TYPE_UINT32 ∨ mType = MTP_TYPE_AUINT32 then
    some .int32
  else if mType = MTP_TYPE_INT64 ∨ mType = MTP_TYPE_AINT64 ∨
      mType = MTP_TYPE_UINT64 ∨ mType = MTP_TYPE_AUINT64 then
    some .int64
  else if mType = MTP_TYPE_INT128 ∨ mType = MTP_TYPE_AINT128 ∨ mType = MTP_TYPE_UINT128 ∨
      mType = MTP_TYPE_AUINT128 then
    some .int128
  else if mType = MTP_TYPE_STR then some .str
  else none

/- The types for which `read` and `write` take arrays. -/
def isArray (mType : MtpDataType) : Bool :=
  mType = MTP_TYPE_AINT8 ∨ mType = MTP_TYPE_AUINT8 ∨
    mType = MTP_TYPE_AINT16 ∨ mType = MTP_TYPE_AUINT16 ∨
    mType = MTP_TYPE_AINT32 ∨ mType = MTP_TYPE_AUINT32 ∨
    mType = MTP_TYPE_AINT64 ∨ mType = MTP_TYPE_AUINT64 ∨
    mType = MTP_TYPE_AINT128 ∨ mType = MTP_TYPE_AUINT128

--
-- Values
--

/- The union, as its sixteen bytes, and the string pointer. -/
structure MtpPropertyValue where
  u : BitVec 128
  str : Option (List Byte)
deriving DecidableEq, Repr

/- `memset` to zero; what is never set is zero as well. -/
instance : Inhabited MtpPropertyValue where
  default := { u := 0, str := none }

/- A member of the union is stored in its first bytes. -/
def setMember {w : Nat} (u : BitVec 128) (value : BitVec w) : BitVec 128 :=
  (u >>> w <<< w) ||| value.setWidth 128

def readValue (mType : MtpDataType) (value : MtpPropertyValue) : Get MtpPropertyValue :=
  match memberOf mType with
  | some .int8 => do
      let i8 ← MtpDataPacket.getUInt8
      pure { value with u := setMember value.u i8 }
  | some .int16 => do
      let i16 ← MtpDataPacket.getUInt16
      pure { value with u := setMember value.u i16 }
  | some .int32 => do
      let i32 ← getUInt32
      pure { value with u := setMember value.u i32 }
  | some .int64 => do
      let i64 ← getUInt64
      pure { value with u := setMember value.u i64 }
  | some .int128 => do
      let i128 ← getUInt128
      pure { value with u := setMember value.u i128 }
  | some .str => do
      let str ← getString
      pure { value with str := some str }
  | none => Get.fail

def writeValue (mType : MtpDataType) (value : MtpPropertyValue) (packet : MtpDataPacket) :
    Checked MtpDataPacket :=
  match memberOf mType with
  | some .int8 => .ok (packet.putUInt8 (value.u.setWidth 8))
  | some .int16 => .ok (packet.putUInt16 (value.u.setWidth 16))
  | some .int32 => .ok (packet.putUInt32 (value.u.setWidth 32))
  | some .int64 => .ok (packet.putUInt64 (value.u.setWidth 64))
  | some .int128 => .ok (packet.putUInt128 value.u)
  | some .str =>
    match value.str with
    | some str => packet.putString str
    | none => .ok packet.putEmptyString
  | none => .ok packet

/- Values in a row. -/
def readValues (mType : MtpDataType) :
    (count : Nat) → Get { values : List MtpPropertyValue // values.length = count }
| 0 => pure ⟨[], rfl⟩
| count + 1 => do
    let value ← readValue mType default
    let values ← readValues mType count
    pure ⟨value :: values.val, congrArg (· + 1) values.property⟩

def writeValues (mType : MtpDataType) :
    List MtpPropertyValue → MtpDataPacket → Checked MtpDataPacket
| [], packet => .ok packet
| value :: values, packet => do
    let packet ← writeValue mType value packet
    writeValues mType values packet

/- An array whose length fits into `w` bits. -/
structure Values (w : Nat) where
  list : List MtpPropertyValue
  hLength : list.length < 2 ^ w

instance (w : Nat) : Inhabited (Values w) where
  default := ⟨[], Nat.two_pow_pos w⟩

def INT32_MAX : Nat := 2 ^ 31 - 1

/- `sizeof(MtpPropertyValue)` where pointers have eight bytes. -/
def sizeofValue : Nat := 24

/- `none` for the null pointer. -/
def readArrayValues (mType : MtpDataType) : Get (Values 32) :=
  do
    let length ← getUInt32
    if length.toNat = 0 ∨ INT32_MAX / sizeofValue ≤ length.toNat then Get.fail
    else
      let values ← readValues mType length.toNat
      pure ⟨values.val, by
        rw [values.property]
        exact length.isLt⟩

def writeArrayValues (mType : MtpDataType) (values : Values 32) (packet : MtpDataPacket) :
    Checked MtpDataPacket :=
  writeValues mType values.list (packet.putUInt32 (BitVec.ofNat 32 values.list.length))

--
-- Properties
--

def kFormNone : BitVec 8 := 0
def kFormRange : BitVec 8 := 1
def kFormEnum : BitVec 8 := 2
def kFormDateTime : BitVec 8 := 3

/- The lengths of the arrays are those of the lists. -/
structure MtpProperty where
  mCode : BitVec 16
  mType : MtpDataType
  mWriteable : Bool
  mDefaultValue : MtpPropertyValue
  mCurrentValue : MtpPropertyValue
  mDefaultArrayValues : Values 32
  mCurrentArrayValues : Values 32
  mGroupCode : BitVec 32
  mFormFlag : BitVec 8
  mMinimumValue : MtpPropertyValue
  mMaximumValue : MtpPropertyValue
  mStepSize : MtpPropertyValue
  mEnumValues : Values 16

namespace MtpProperty

/- `MtpProperty::MtpProperty`. -/
def fresh : MtpProperty where
  mCode := 0
  mType := 0
  mWriteable := false
  mDefaultValue := default
  mCurrentValue := default
  mDefaultArrayValues := default
  mCurrentArrayValues := default
  mGroupCode := 0
  mFormFlag := kFormNone
  mMinimumValue := default
  mMaximumValue := default
  mStepSize := default
  mEnumValues := default

def isDeviceProperty (property : MtpProperty) : Bool :=
  property.mCode &&& 0xF000 = 0x5000 ∨ property.mCode &&& 0xF800 = 0xD000

def readDefault (property : MtpProperty) : Get MtpProperty :=
  if isArray property.mType then do
    let values ← readArrayValues property.mType
    pure { property with mDefaultArrayValues := values }
  else do
    let value ← readValue property.mType property.mDefaultValue
    pure { property with mDefaultValue := value }

def readCurrent (property : MtpProperty) : Get MtpProperty :=
  if isArray property.mType then do
    let values ← readArrayValues property.mType
    pure { property with mCurrentArrayValues := values }
  else do
    let value ← readValue property.mType property.mCurrentValue
    pure { property with mCurrentValue := value }

def readGroupCode (property : MtpProperty) : Get MtpProperty := do
  let mGroupCode ← getUInt32
  pure { property with mGroupCode := mGroupCode }

def readCurrentOrGroup (property : MtpProperty) : Get MtpProperty :=
  if property.isDeviceProperty then readCurrent property
  else readGroupCode property

def readForm (property : MtpProperty) : Get MtpProperty :=
  if property.mFormFlag = kFormRange then do
    let min ← readValue property.mType property.mMinimumValue
    let max ← readValue property.mType property.mMaximumValue
    let step ← readValue property.mType property.mStepSize
    pure
      { property with
        mMinimumValue := min
        mMaximumValue := max
        mStepSize := step }
  else if property.mFormFlag = kFormEnum then do
    let mEnumLength ← MtpDataPacket.getUInt16
    let values ← readValues property.mType mEnumLength.toNat
    pure
      { property with
        mEnumValues := ⟨values.val, by
          rw [values.property]
          exact mEnumLength.isLt⟩ }
  else pure property

/- Reading a new property; `none` is `false`. -/
def read : Get MtpProperty := do
  let mCode ← MtpDataPacket.getUInt16
  let mType ← MtpDataPacket.getUInt16
  let temp8 ← MtpDataPacket.getUInt8
  let property ← readDefault
    { fresh with
      mCode := mCode
      mType := mType
      mWriteable := temp8 = 1 }
  let property ← readCurrentOrGroup property
  let mFormFlag ← MtpDataPacket.getUInt8
  readForm { property with mFormFlag := mFormFlag }

def writeDefault (property : MtpProperty) (packet : MtpDataPacket) : Checked MtpDataPacket :=
  if isArray property.mType then writeArrayValues property.mType property.mDefaultArrayValues packet
  else writeValue property.mType property.mDefaultValue packet

def writeCurrent (property : MtpProperty) (packet : MtpDataPacket) : Checked MtpDataPacket :=
  if isArray property.mType then writeArrayValues property.mType property.mCurrentArrayValues packet
  else writeValue property.mType property.mCurrentValue packet

def writeCurrentOrGroup (property : MtpProperty) (packet : MtpDataPacket) : Checked MtpDataPacket :=
  if property.isDeviceProperty then property.writeCurrent packet
  else .ok (packet.putUInt32 property.mGroupCode)

def writeForm (property : MtpProperty) (packet : MtpDataPacket) : Checked MtpDataPacket :=
  if property.mFormFlag = kFormRange then do
    let packet ← writeValue property.mType property.mMinimumValue packet
    let packet ← writeValue property.mType property.mMaximumValue packet
    writeValue property.mType property.mStepSize packet
  else if property.mFormFlag = kFormEnum then
    writeValues property.mType property.mEnumValues.list
      (packet.putUInt16 (BitVec.ofNat 16 property.mEnumValues.list.length))
  else .ok packet

def write (property : MtpProperty) (packet : MtpDataPacket) : Checked MtpDataPacket := do
  let packet := packet.putUInt16 property.mCode
  let packet := packet.putUInt16 property.mType
  let packet := packet.putUInt8 (if property.mWriteable then 1 else 0)
  let packet ← property.writeDefault packet
  let packet ← property.writeCurrentOrGroup packet
  let packet := packet.putUInt8 property.mFormFlag
  property.writeForm packet

end MtpProperty

end Mtp

end FrameworksAv
