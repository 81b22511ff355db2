import FrameworksAv.AMessage.Message

/-
  Reading back what was written.

  Everything survives except sizes: they are written as 32 bits and come back sign-extended.

  Main declarations:
    * `clipValue`, `sizesOf`
    * `clipValue_eq_self`
-/

--
-- What Is Read Back
--

namespace FrameworksAv

namespace AMessage

variable {w : Nat}

/- A size through an `int32_t`. -/
def clipSize (sizeValue : BitVec w) : BitVec w :=
  (sizeValue.setWidth 32).signExtend w

mutual

def clipValue : Value w → Value w
| .int32 int32Value => .int32 int32Value
| .int64 int64Value => .int64 int64Value
| .size sizeValue => .size (clipSize sizeValue)
| .float floatValue => .float floatValue
| .double doubleValue => .double doubleValue
| .string stringValue => .string stringValue
| .message mWhat mItems => .message mWhat (clipItems mItems)
| .other mType => .other mType

def clipItem : Item (Value w) → Item (Value w)
| ⟨mName, u⟩ => ⟨mName, clipValue u⟩

def clipItems : List (Item (Value w)) → List (Item (Value w))
| [] => []
| item :: items => clipItem item :: clipItems items

end

mutual

/- The sizes at every depth. -/
def sizesOf : Value w → List (BitVec w)
| .size sizeValue => [sizeValue]
| .message _ mItems => itemsSizes mItems
| _ => []

def itemSizes : Item (Value w) → List (BitVec w)
| ⟨_, u⟩ => sizesOf u

def itemsSizes : List (Item (Value w)) → List (BitVec w)
| [] => []
| item :: items => itemSizes item ++ itemsSizes items

end

def Message.clip (m : Message w) : Message w :=
  ⟨m.mWhat, clipItems m.mItems⟩

/- The sizes of a message and of the messages in it. -/
def Message.sizes (m : Message w) : List (BitVec w) :=
  itemsSizes m.mItems

theorem Basic.clip_eq_self {u : Value w} (hBasic : Basic u) :
    clipValue u = u ↔ ∀ size ∈ sizesOf u, clipSize size = size := by
  cases hBasic <;> simp [clipValue, sizesOf]

/- Item lists change in the values of their items only. -/
theorem clipItems_eq_self {items : List (Item (Value w))}
    (hItems :
      ∀ item ∈ items, clipValue item.u = item.u ↔ ∀ size ∈ sizesOf item.u, clipSize size = size) :
    clipItems items = items ↔ ∀ size ∈ itemsSizes items, clipSize size = size := by
  induction items with
  | nil => simp [clipItems, itemsSizes]
  | cons item items ih =>
    rcases item with ⟨mName, u⟩
    have hFirst := hItems ⟨mName, u⟩ List.mem_cons_self
    have hRest :=
      ih (fun item hMember =>
        hItems item (List.mem_cons_of_mem _ hMember))
    simp only [clipItems, clipItem, itemsSizes, itemSizes, List.cons.injEq, Item.mk.injEq, true_and,
      List.mem_append]
    rw [hFirst, hRest]
    constructor
    · rintro ⟨hHead, hTail⟩ size (hIn | hIn)
      · exact hHead size hIn
      · exact hTail size hIn
    · intro hAll
      exact ⟨fun size hIn => hAll size (Or.inl hIn), fun size hIn => hAll size (Or.inr hIn)⟩

/- A value comes back equal when its sizes do. -/
theorem clipValue_eq_self {u : Value w} (hPortable : Portable u) :
    clipValue u = u ↔ ∀ size ∈ sizesOf u, clipSize size = size := by
  induction hPortable with
  | basic hBasic => exact hBasic.clip_eq_self
  | message hFew hNames hItems ih =>
    simp only [clipValue, sizesOf, Value.message.injEq, true_and]
    exact clipItems_eq_self ih

end AMessage

--
-- Reading What Was Written
--

namespace AMessage

variable {β : Type} {w : Nat}

/- From some depth on, a written value is read back. -/
def ReadsBack (parcel : Parcel β) (u : Value w) : Prop :=
  ∃ bytes enough,
    writeValue parcel u = some bytes ∧
      ∀ depth, enough ≤ depth → ∀ rest,
        readValue parcel w (FromParcel parcel w depth) u.type.toInt32 (bytes ++ rest) =
          .ok (some (clipValue u), rest)

theorem Basic.readsBack {u : Value w} (parcel : Parcel β) (hBasic : Basic u) :
    ReadsBack parcel u := by
  cases hBasic with
  | int32 value =>
    refine ⟨parcel.writeInt32 value, 0, rfl, ?_⟩
    intro depth _ rest
    simp [readValue, Value.type, ItemType.toInt32, clipValue, parcel.hInt32]
  | int64 value =>
    refine ⟨parcel.writeInt64 value, 0, rfl, ?_⟩
    intro depth _ rest
    simp [readValue, Value.type, ItemType.toInt32, clipValue, parcel.hInt64]
  | size value =>
    refine ⟨parcel.writeInt32 (value.setWidth 32), 0, rfl, ?_⟩
    intro depth _ rest
    simp [readValue, Value.type, ItemType.toInt32, clipValue, clipSize, parcel.hInt32]
  | float value =>
    refine ⟨parcel.writeFloat value, 0, rfl, ?_⟩
    intro depth _ rest
    simp [readValue, Value.type, ItemType.toInt32, clipValue, parcel.hFloat]
  | double value =>
    refine ⟨parcel.writeDouble value, 0, rfl, ?_⟩
    intro depth _ rest
    simp [readValue, Value.type, ItemType.toInt32, clipValue, parcel.hDouble]
  | @string value hText =>
    refine ⟨parcel.writeCString value, 0, rfl, ?_⟩
    intro depth _ rest
    simp [readValue, Value.type, ItemType.toInt32, clipValue, parcel.hCString value rest hText]

/- The items of a message, one after the other. -/
theorem readItems_written (parcel : Parcel β) {items : List (Item (Value w))}
    (hNames : ∀ item ∈ items, 0 ∉ item.mName) (hItems : ∀ item ∈ items, ReadsBack parcel item.u) :
    ∃ bytes enough,
      writeItems parcel items = some bytes ∧
        ∀ depth, enough ≤ depth → ∀ rest,
          readItems parcel w (FromParcel parcel w depth) items.length (bytes ++ rest) =
            .ok (clipItems items, rest) := by
  induction items with
  | nil => exact ⟨[], 0, rfl, fun depth _ rest => rfl⟩
  | cons item items ih =>
    rcases item with ⟨mName, u⟩
    have hName := hNames ⟨mName, u⟩ List.mem_cons_self
    rcases hItems ⟨mName, u⟩ List.mem_cons_self with ⟨value, enough, hWrite, hRead⟩
    rcases ih
        (fun item hMember =>
          hNames item (List.mem_cons_of_mem _ hMember))
        (fun item hMember =>
          hItems item (List.mem_cons_of_mem _ hMember)) with
      ⟨others, enough', hWrites, hReads⟩
    refine ⟨parcel.writeCString mName ++ parcel.writeInt32 u.type.toInt32 ++ value ++ others,
      max enough enough', ?_, ?_⟩
    · simp [writeItems, writeItem, hWrite, hWrites]
    · intro depth hEnough rest
      have hFirst := hRead depth (Nat.le_trans (Nat.le_max_left _ _) hEnough) (others ++ rest)
      have hRest := hReads depth (Nat.le_trans (Nat.le_max_right _ _) hEnough) rest
      simp only [List.append_assoc, List.length_cons, readItems]
      rw [parcel.hCString mName _ hName]
      simp only [parcel.hInt32]
      rw [hFirst]
      simp only [bind, Except.bind, hRest, clipItems, clipItem]

/- A nested message costs one more depth than its items. -/
theorem fromParcel_written (parcel : Parcel β) {mWhat : BitVec 32} {items : List (Item (Value w))}
    (hFew : items.length ≤ kMaxNumItems) (hNames : ∀ item ∈ items, 0 ∉ item.mName)
    (hItems : ∀ item ∈ items, ReadsBack parcel item.u) :
    ∃ bytes enough,
      writeValue parcel (.message mWhat items) = some bytes ∧
        ∀ depth, enough ≤ depth → ∀ rest,
          FromParcel parcel w depth (bytes ++ rest) = .ok (⟨mWhat, clipItems items⟩, rest) := by
  rcases readItems_written parcel hNames hItems with ⟨bytes, enough, hWrite, hRead⟩
  refine ⟨parcel.writeInt32 mWhat ++ parcel.writeInt32 (BitVec.ofNat 32 items.length) ++ bytes,
    enough + 1, ?_, ?_⟩
  · simp [writeValue, hWrite]
  · intro depth hEnough rest
    rcases depth with _ | depth
    · omega
    · have hItemsRead := hRead depth (by omega) rest
      have hCount : min (BitVec.ofNat 32 items.length).toNat kMaxNumItems = items.length := by
        have hSmall : items.length ≤ 64 := hFew
        rw [BitVec.toNat_ofNat, Nat.mod_eq_of_lt (by omega)]
        exact Nat.min_eq_left hFew
      simp only [List.append_assoc, FromParcel, parcel.hInt32]
      rw [hCount, hItemsRead]
      rfl

theorem Portable.readsBack {u : Value w} (parcel : Parcel β) (hPortable : Portable u) :
    ReadsBack parcel u := by
  induction hPortable with
  | basic hBasic => exact hBasic.readsBack parcel
  | @message mWhat items hFew hNames hItems ih =>
    rcases (fromParcel_written parcel hFew hNames ih :
        ∃ bytes enough,
          writeValue parcel (.message mWhat items) = some bytes ∧
            ∀ depth, enough ≤ depth → ∀ rest,
              FromParcel parcel w depth (bytes ++ rest) = .ok (⟨mWhat, clipItems items⟩, rest)) with
      ⟨bytes, enough, hWrite, hRead⟩
    refine ⟨bytes, enough, hWrite, ?_⟩
    intro depth hEnough rest
    simp [readValue, Value.type, ItemType.toInt32,
      hRead depth hEnough rest, clipValue, bind, Except.bind]

--
-- Built Messages
--

variable {m : Message w}

/- What comes back of a built message, and what is left. -/
theorem fromParcel_built (parcel : Parcel β) (hBuilt : Built m) :
    ∃ bytes enough,
      m.writeToParcel parcel = some bytes ∧
        ∀ depth, enough ≤ depth → ∀ rest,
          FromParcel parcel w depth (bytes ++ rest) = .ok (m.clip, rest) := by
  cases hBuilt.portable with
  | basic hBasic => cases hBasic
  | message hFew hNames hItems =>
    exact fromParcel_written parcel hFew hNames
      (fun item hMember =>
        (hItems item hMember).readsBack parcel)

theorem clip_eq_self (hBuilt : Built m) : m.clip = m ↔ ∀ size ∈ m.sizes, clipSize size = size := by
  have hValue := clipValue_eq_self hBuilt.portable
  rcases m with ⟨mWhat, mItems⟩
  simp only [clipValue, sizesOf, Value.message.injEq, true_and] at hValue
  simp only [Message.clip, Message.sizes, Message.mk.injEq, true_and]
  exact hValue

/-
  A built message survives the parcel exactly when each of its sizes is the sign extension of its
  low 32 bits; what follows it in the parcel is left in every case.
-/
theorem fromParcel_written_iff (parcel : Parcel β) (hBuilt : Built m) :
    (∃ bytes enough,
      m.writeToParcel parcel = some bytes ∧
        ∀ depth, enough ≤ depth → ∀ rest,
          FromParcel parcel w depth (bytes ++ rest) = .ok (m, rest)) ↔
      ∀ size ∈ m.sizes, clipSize size = size := by
  rw [← clip_eq_self hBuilt]
  rcases fromParcel_built parcel hBuilt with ⟨bytes, enough, hWrite, hRead⟩
  constructor
  · rintro ⟨bytes', enough', hWrite', hRead'⟩
    rw [hWrite] at hWrite'
    cases hWrite'
    have hLeft := hRead (max enough enough') (Nat.le_max_left _ _) []
    have hRight := hRead' (max enough enough') (Nat.le_max_right _ _) []
    rw [hLeft] at hRight
    exact congrArg Prod.fst (Except.ok.inj hRight)
  · intro hSame
    rw [hSame] at hRead
    exact ⟨bytes, enough, hWrite, hRead⟩

/- A nested message with a size of one megabyte. -/
theorem fromParcel_written_iff_megabyte :
    (∃ bytes enough,
      (⟨7, [⟨[0x61], .message 9 [⟨[0x62], .size 0x100000⟩]⟩]⟩ :
        Message 64).writeToParcel Parcel.aligned = some bytes ∧
        ∀ depth, enough ≤ depth → ∀ rest,
          FromParcel Parcel.aligned 64 depth (bytes ++ rest) =
            .ok (⟨7, [⟨[0x61], .message 9 [⟨[0x62], .size 0x100000⟩]⟩]⟩, rest)) := by
  have hNested : Built (⟨9, [⟨[0x62], .size 0x100000⟩]⟩ : Message 64) :=
    .set (.new 9) (by decide) (.size 0x100000) rfl
  have hBuilt : Built (⟨7, [⟨[0x61], .message 9 [⟨[0x62], .size 0x100000⟩]⟩]⟩ : Message 64) :=
    .setMessage (.new 7) (by decide) hNested rfl
  refine (fromParcel_written_iff Parcel.aligned hBuilt).mpr ?_
  simp [Message.sizes, itemsSizes, itemSizes, sizesOf, clipSize]

/- Four gigabytes come back as zero. -/
theorem fromParcel_written_rejected :
    ∃ m : Message 64,
      m = ⟨0, [⟨[0x61], .size 0x100000000⟩]⟩ ∧ Built m ∧
        ∃ bytes enough, m.writeToParcel Parcel.aligned = some bytes ∧
          ∀ depth, enough ≤ depth →
            FromParcel Parcel.aligned 64 depth bytes = .ok (⟨0, [⟨[0x61], .size 0⟩]⟩, []) ∧
              FromParcel Parcel.aligned 64 depth bytes ≠ .ok (m, []) := by
  refine ⟨⟨0, [⟨[0x61], .size 0x100000000⟩]⟩, rfl,
    .set (.new 0) (by decide) (.size 0x100000000) rfl, ?_⟩
  have hBuilt : Built (⟨0, [⟨[0x61], .size 0x100000000⟩]⟩ : Message 64) :=
    .set (.new 0) (by decide) (.size 0x100000000) rfl
  have hClip : (⟨0, [⟨[0x61], .size 0x100000000⟩]⟩ : Message 64).clip = ⟨0, [⟨[0x61], .size 0⟩]⟩ :=
    rfl
  rcases fromParcel_built Parcel.aligned hBuilt with ⟨bytes, enough, hWrite, hRead⟩
  refine ⟨bytes, enough, hWrite, ?_⟩
  intro depth hEnough
  have hBack := hRead depth hEnough []
  rw [List.append_nil, hClip] at hBack
  refine ⟨hBack, ?_⟩
  rw [hBack]
  intro hSame
  simp at hSame

end AMessage

end FrameworksAv
