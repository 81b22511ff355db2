import FrameworksAv.Base.Bytes

/-
  Messages: a `what` and up to 64 named items.

  Sizes have `w` bits, so that the platforms with 32-bit and with 64-bit `size_t` are both covered.
  Floating-point values are their bit patterns.

  Messages in parcels.

  A parcel comes with its own primitives, of which only one thing is assumed: what was written is
  read back, whatever follows it.

  Main declarations:
    * `Value`, `Message`
    * `Message.setItem`, `Built`
    * `FromParcel`
    * `Parcel.aligned`
-/

--
-- Items
--

namespace FrameworksAv

namespace AMessage

def kMaxNumItems : Nat :=
  64

inductive ItemType
| kTypeInt32
| kTypeInt64
| kTypeSize
| kTypeFloat
| kTypeDouble
| kTypePointer
| kTypeString
| kTypeObject
| kTypeMessage
| kTypeRect
| kTypeBuffer
deriving DecidableEq, Repr

structure Item (α : Type) where
  mName : List Byte
  u : α

/- `other` stands for what cannot cross processes. -/
inductive Value (w : Nat) : Type
| int32 (int32Value : BitVec 32)
| int64 (int64Value : BitVec 64)
| size (sizeValue : BitVec w)
| float (floatValue : BitVec 32)
| double (doubleValue : BitVec 64)
| string (stringValue : List Byte)
| message (mWhat : BitVec 32) (mItems : List (Item (Value w)))
| other (mType : ItemType)

def Value.type {w : Nat} : Value w → ItemType
| .int32 _ => .kTypeInt32
| .int64 _ => .kTypeInt64
| .size _ => .kTypeSize
| .float _ => .kTypeFloat
| .double _ => .kTypeDouble
| .string _ => .kTypeString
| .message _ _ => .kTypeMessage
| .other mType => mType

structure Message (w : Nat) where
  mWhat : BitVec 32
  mItems : List (Item (Value w))

--
-- Setting Items
--

variable {w : Nat}

namespace Message

def findItemIndex (m : Message w) (name : List Byte) : Nat :=
  m.mItems.findIdx (fun item => item.mName = name)

/- The slot that a setter writes to; `none` is the failed check of the number of items. -/
def setItem (m : Message w) (name : List Byte) (u : Value w) : Option (Message w) :=
  let i := m.findItemIndex name
  if i < m.mItems.length then some { m with mItems := m.mItems.set i ⟨name, u⟩ }
  else if m.mItems.length < kMaxNumItems then some { m with mItems := m.mItems ++ [⟨name, u⟩] }
  else none

def setWhat (m : Message w) (what : BitVec 32) : Message w :=
  { m with mWhat := what }

end Message

/- Values without parts of their own. -/
inductive Basic : Value w → Prop
| int32 (value : BitVec 32) : Basic (.int32 value)
| int64 (value : BitVec 64) : Basic (.int64 value)
| size (value : BitVec w) : Basic (.size value)
| float (value : BitVec 32) : Basic (.float value)
| double (value : BitVec 64) : Basic (.double value)
| string {value : List Byte} (hText : 0 ∉ value) : Basic (.string value)

/-
  The messages that the setters build; names and strings are C strings, and nested messages are
  built in the same way.
-/
inductive Built : Message w → Prop
| new (what : BitVec 32) : Built ⟨what, []⟩
| setWhat {m : Message w} (hBuilt : Built m) (what : BitVec 32) : Built (m.setWhat what)
| set {m n : Message w} {name : List Byte} {u : Value w} (hBuilt : Built m) (hName : 0 ∉ name)
    (hBasic : Basic u) (hSet : m.setItem name u = some n) : Built n
| setMessage {m n nested : Message w} {name : List Byte} (hBuilt : Built m) (hName : 0 ∉ name)
    (hNested : Built nested)
    (hSet : m.setItem name (.message nested.mWhat nested.mItems) = some n) : Built n

/- What can be written, at every depth. -/
inductive Portable : Value w → Prop
| basic {u : Value w} (hBasic : Basic u) : Portable u
| message {mWhat : BitVec 32} {mItems : List (Item (Value w))} (hFew : mItems.length ≤ kMaxNumItems)
    (hNames : ∀ item ∈ mItems, 0 ∉ item.mName) (hItems : ∀ item ∈ mItems, Portable item.u) :
    Portable (.message mWhat mItems)

/- A setter keeps every other item and adds at most one. -/
theorem Message.setItem_cases {m n : Message w} {name : List Byte} {u : Value w}
    (hSet : m.setItem name u = some n) :
    n.mItems.length ≤ max m.mItems.length kMaxNumItems ∧
      ∀ item ∈ n.mItems, item ∈ m.mItems ∨ item = ⟨name, u⟩ := by
  unfold setItem at hSet
  simp only at hSet
  split at hSet
  · cases hSet
    refine ⟨?_, ?_⟩
    · rw [List.length_set]
      exact Nat.le_max_left _ _
    · intro item hMember
      exact List.mem_or_eq_of_mem_set hMember
  · split at hSet
    · rename_i hRoom
      cases hSet
      refine ⟨?_, ?_⟩
      · rw [List.length_append, List.length_singleton]
        exact Nat.le_trans hRoom (Nat.le_max_right _ _)
      · intro item hMember
        rcases List.mem_append.mp hMember with hOld | hNew
        · exact Or.inl hOld
        · exact Or.inr (List.mem_singleton.mp hNew)
    · cases hSet

/- A setter keeps a message portable. -/
theorem Portable.setItem {m n : Message w} {name : List Byte} {u : Value w}
    (hPortable : Portable (.message m.mWhat m.mItems)) (hName : 0 ∉ name) (hValue : Portable u)
    (hSet : m.setItem name u = some n) : Portable (.message n.mWhat n.mItems) := by
  rcases Message.setItem_cases hSet with ⟨hLength, hMembers⟩
  cases hPortable with
  | basic hBasic => cases hBasic
  | message hFew hNames hItems =>
    refine .message ?_ ?_ ?_
    · rw [Nat.max_eq_right hFew] at hLength
      exact hLength
    · intro item hMember
      rcases hMembers item hMember with hOld | rfl
      · exact hNames item hOld
      · exact hName
    · intro item hMember
      rcases hMembers item hMember with hOld | rfl
      · exact hItems item hOld
      · exact hValue

theorem Built.portable {m : Message w} (hBuilt : Built m) :
    Portable (.message m.mWhat m.mItems) := by
  induction hBuilt with
  | new what => exact .message (by simp) (by simp) (by simp)
  | setWhat hBuilt what ih =>
    cases ih with
    | basic hBasic => cases hBasic
    | message hFew hNames hItems => exact .message hFew hNames hItems
  | set hBuilt hName hBasic hSet ih => exact ih.setItem hName (.basic hBasic) hSet
  | setMessage hBuilt hName hNested hSet ih ihNested => exact ih.setItem hName ihNested hSet

end AMessage

--
-- Parcels
--

namespace AMessage

/- Writing appends; reading yields a value and what is left. -/
structure Parcel (β : Type) where
  writeInt32 : BitVec 32 → List β
  writeInt64 : BitVec 64 → List β
  writeFloat : BitVec 32 → List β
  writeDouble : BitVec 64 → List β
  writeCString : List Byte → List β
  readInt32 : List β → BitVec 32 × List β
  readInt64 : List β → BitVec 64 × List β
  readFloat : List β → BitVec 32 × List β
  readDouble : List β → BitVec 64 × List β
  readCString : List β → Option (List Byte) × List β
  hInt32 : ∀ value rest, readInt32 (writeInt32 value ++ rest) = (value, rest)
  hInt64 : ∀ value rest, readInt64 (writeInt64 value ++ rest) = (value, rest)
  hFloat : ∀ value rest, readFloat (writeFloat value ++ rest) = (value, rest)
  hDouble : ∀ value rest, readDouble (writeDouble value ++ rest) = (value, rest)
  hCString : ∀ text rest, 0 ∉ text → readCString (writeCString text ++ rest) = (some text, rest)

def ItemType.toInt32 : ItemType → BitVec 32
| .kTypeInt32 => 0
| .kTypeInt64 => 1
| .kTypeSize => 2
| .kTypeFloat => 3
| .kTypeDouble => 4
| .kTypePointer => 5
| .kTypeString => 6
| .kTypeObject => 7
| .kTypeMessage => 8
| .kTypeRect => 9
| .kTypeBuffer => 10

--
-- Writing
--

variable {β : Type} {w : Nat}

mutual

/- `none` is the abort of a type that cannot cross. -/
def writeValue (parcel : Parcel β) : Value w → Option (List β)
| .int32 int32Value => some (parcel.writeInt32 int32Value)
| .int64 int64Value => some (parcel.writeInt64 int64Value)
| .size sizeValue => some (parcel.writeInt32 (sizeValue.setWidth 32))
| .float floatValue => some (parcel.writeFloat floatValue)
| .double doubleValue => some (parcel.writeDouble doubleValue)
| .string stringValue => some (parcel.writeCString stringValue)
| .message mWhat mItems => do
    let items ← writeItems parcel mItems
    some (parcel.writeInt32 mWhat ++ parcel.writeInt32 (BitVec.ofNat 32 mItems.length) ++ items)
| .other _ => none

def writeItem (parcel : Parcel β) : Item (Value w) → Option (List β)
| ⟨mName, u⟩ => do
    let value ← writeValue parcel u
    some (parcel.writeCString mName ++ parcel.writeInt32 u.type.toInt32 ++ value)

def writeItems (parcel : Parcel β) : List (Item (Value w)) → Option (List β)
| [] => some []
| item :: items => do
    let first ← writeItem parcel item
    let rest ← writeItems parcel items
    some (first ++ rest)

end

def Message.writeToParcel (parcel : Parcel β) (m : Message w) : Option (List β) :=
  writeValue parcel (.message m.mWhat m.mItems)

end AMessage

--
-- Reading
--

namespace AMessage

variable {β : Type}

/- Why reading stops without a message. -/
inductive Stop
| trespass
| unfinished
deriving DecidableEq, Repr

/- The value of an item of a type; no value where a string could not be read. -/
def readValue (parcel : Parcel β) (w : Nat) (nested : List β → Except Stop (Message w × List β))
    (mType : BitVec 32) (data : List β) : Except Stop (Option (Value w) × List β) :=
  if mType = 0 then
    let (value, data) := parcel.readInt32 data
    .ok (some (.int32 value), data)
  else if mType = 1 then
    let (value, data) := parcel.readInt64 data
    .ok (some (.int64 value), data)
  else if mType = 2 then
    let (value, data) := parcel.readInt32 data
    .ok (some (.size (value.signExtend w)), data)
  else if mType = 3 then
    let (value, data) := parcel.readFloat data
    .ok (some (.float value), data)
  else if mType = 4 then
    let (value, data) := parcel.readDouble data
    .ok (some (.double value), data)
  else if mType = 6 then
    let (value, data) := parcel.readCString data
    .ok (value.map Value.string, data)
  else if mType = 8 then do
    let (subMsg, data) ← nested data
    .ok (some (.message subMsg.mWhat subMsg.mItems), data)
  else .error .trespass

/- The loop over the items; it ends early at a failed read. -/
def readItems (parcel : Parcel β) (w : Nat) (nested : List β → Except Stop (Message w × List β)) :
    Nat → List β → Except Stop (List (Item (Value w)) × List β)
| 0, data => .ok ([], data)
| count + 1, data =>
  match parcel.readCString data with
  | (none, data) => .ok ([], data)
  | (some name, data) => do
      let (mType, data) := parcel.readInt32 data
      let (value, data) ← readValue parcel w nested mType data
      match value with
      | none => .ok ([], data)
      | some u =>
        let (items, data) ← readItems parcel w nested count data
        .ok (⟨name, u⟩ :: items, data)

/- Nested messages are read at one depth less. -/
def FromParcel (parcel : Parcel β) (w : Nat) : Nat → List β → Except Stop (Message w × List β)
| 0, _ => .error .unfinished
| depth + 1, data => do
    let (what, data) := parcel.readInt32 data
    let (numItems, data) := parcel.readInt32 data
    let (items, data) ←
      readItems parcel w (FromParcel parcel w depth) (min numItems.toNat kMaxNumItems) data
    .ok (⟨what, items⟩, data)

end AMessage

--
-- Aligned Parcels
--

namespace AMessage

/- The word that a parcel starts with. -/
def firstWord (data : List Byte) : BitVec 32 :=
  Memory.word (fun i => data.getD i 0) 0

theorem firstWord_le32 (value : BitVec 32) (rest : List Byte) :
    firstWord (le32 value ++ rest) = value := by
  apply Memory.word_of_load
  rw [Memory.load]
  rfl

/- A read that has too few bytes yields zero. -/
def takeInt32 (data : List Byte) : BitVec 32 × List Byte :=
  if 4 ≤ data.length then (firstWord data, data.drop 4)
  else (0, data)

theorem takeInt32_le32 (value : BitVec 32) (rest : List Byte) :
    takeInt32 (le32 value ++ rest) = (value, rest) := by
  have hLong : 4 ≤ (le32 value ++ rest).length := by
    rw [List.length_append, le32_length]
    omega
  rw [takeInt32, if_pos hLong, firstWord_le32]
  rfl

def le64 (value : BitVec 64) : List Byte :=
  le32 (value.setWidth 32) ++ le32 ((value >>> 32).setWidth 32)

def takeInt64 (data : List Byte) : BitVec 64 × List Byte :=
  if 8 ≤ data.length then
    ((firstWord (data.drop 4)).setWidth 64 <<< 32 ||| (firstWord data).setWidth 64, data.drop 8)
  else (0, data)

theorem takeInt64_le64 (value : BitVec 64) (rest : List Byte) :
    takeInt64 (le64 value ++ rest) = (value, rest) := by
  have hLong : 8 ≤ (le64 value ++ rest).length := by
    rw [le64, List.length_append, List.length_append, le32_length, le32_length]
    omega
  have hHigh : firstWord ((le64 value ++ rest).drop 4) = (value >>> 32).setWidth 32 :=
    firstWord_le32 ((value >>> 32).setWidth 32) rest
  have hLow : firstWord (le64 value ++ rest) = value.setWidth 32 := by
    rw [le64, List.append_assoc]
    exact firstWord_le32 _ _
  have hValue :
      ((value >>> 32).setWidth 32).setWidth 64 <<< 32 |||
        (value.setWidth 32).setWidth 64 = value := by
    ext i hi
    by_cases hBelow : i < 32
    · simpa [hBelow] using BitVec.getLsbD_eq_getElem hi
    · have hShift : 32 + (i - 32) = i := by omega
      have hAbove : i - 32 < 32 := by omega
      simpa [hBelow, hShift, hAbove] using BitVec.getLsbD_eq_getElem hi
  rw [takeInt64, if_pos hLong, hHigh, hLow, hValue]
  rfl

/- The zero of a C string, and zeros up to a whole word. -/
def zeros (text : List Byte) : List Byte :=
  List.replicate (4 - text.length % 4) 0

def takeCString (data : List Byte) : Option (List Byte) × List Byte :=
  if 0 ∈ data then
    let text := data.takeWhile (· ≠ 0)
    (some text, data.drop (text ++ zeros text).length)
  else (none, data)

theorem takeCString_zeros {text : List Byte} (hText : 0 ∉ text) (rest : List Byte) :
    takeCString ((text ++ zeros text) ++ rest) = (some text, rest) := by
  have hZeros : ∃ more, zeros text = 0 :: more := by
    refine ⟨List.replicate (3 - text.length % 4) 0, ?_⟩
    have hCount : 4 - text.length % 4 = (3 - text.length % 4) + 1 := by
      omega
    rw [zeros, hCount, List.replicate_succ]
  rcases hZeros with ⟨more, hMore⟩
  have hTake : ((text ++ zeros text) ++ rest).takeWhile (· ≠ 0) = text := by
    rw [hMore, List.append_assoc, List.takeWhile_append_of_pos]
    · simp
    · intro byte hMember
      rw [decide_eq_true_iff]
      rintro rfl
      exact hText hMember
  have hIn : 0 ∈ (text ++ zeros text) ++ rest := by
    rw [hMore]
    simp
  rw [takeCString, if_pos hIn]
  simp only
  rw [hTake, List.drop_left]

/- Little-endian words, and C strings padded to words. -/
def Parcel.aligned : Parcel Byte where
  writeInt32 := le32
  writeInt64 := le64
  writeFloat := le32
  writeDouble := le64
  writeCString := fun text => text ++ zeros text
  readInt32 := takeInt32
  readInt64 := takeInt64
  readFloat := takeInt32
  readDouble := takeInt64
  readCString := takeCString
  hInt32 := takeInt32_le32
  hInt64 := takeInt64_le64
  hFloat := takeInt32_le32
  hDouble := takeInt64_le64
  hCString := fun _ rest hText =>
    takeCString_zeros hText rest

end AMessage

end FrameworksAv
