import FrameworksAv.Base.Fuel
import FrameworksAv.Webm.Elements

/-
  An EBML reader, and what it finds in the bytes of an element.

  The reader is told which ids have children. The first byte of an id or a size says how many bytes
  it has; a size of ones only would mean that the size is not known.

  Main declarations:
    * `Tree`, `readVint`, `readElements`
    * `WebmElement.extent`
    * `RoundTrips`, `Shortest`
-/

--
-- Reading
--

namespace FrameworksAv

namespace Webm

inductive Tree
| leaf (id : Nat) (payload : List Byte)
| node (id : Nat) (children : List Tree)

/- The width of a code, the code, and what is behind it. -/
def readVint : List Byte → Result (Nat × Nat × List Byte)
| [] => .aborts
| first :: rest =>
  let w := 8 - first.toNat.log2
  .check (first ≠ 0 ∧ w ≤ (first :: rest).length)
    (.returns (w, ofLittleEndian ((first :: rest).take w).reverse, (first :: rest).drop w))

/- Elements up to the end of the bytes. -/
def readElements (isMaster : Nat → Bool) : Nat → List Byte → Result (List Tree)
| 0, _ => .runs
| _ + 1, [] => .returns []
| fuel + 1, first :: bytes =>
  (readVint (first :: bytes)).bind fun (_, id, rest) =>
  (readVint rest).bind fun (w, code, rest) =>
    let size := code - 2 ^ (7 * w)
    .check (size + 1 ≠ 2 ^ (7 * w) ∧ size ≤ rest.length)
      ((if isMaster id then (readElements isMaster fuel (rest.take size)).map (Tree.node id)
      else .returns (.leaf id (rest.take size))).bind fun tree =>
          (readElements isMaster fuel (rest.drop size)).map (tree :: ·))

--
-- Contents
--

namespace Leaf

/-
  What the payload should be. A block begins with the code of its track number, in whatever bytes
  that takes.
-/
def content : Leaf → List Byte
| .WebmUnsigned _ mValue => (littleEndian (mValue.toNat.log2 / 8 + 1) mValue.toNat).reverse
| .WebmString _ mStr _ => mStr
| .WebmBinary _ mRef => mRef
| .WebmSimpleBlock mTrackNum mRelTimecode mKey mRef =>
  let number := mTrackNum.toInt.toNat
  (littleEndian (width number) (2 ^ (7 * width number) + number)).reverse ++
    [BitVec.ofNat 8 (mRelTimecode.toNat / 256), BitVec.ofNat 8 mRelTimecode.toNat,
      if mKey then 0x80 else 0] ++ mRef
| .EbmlVoid totalSize _ =>
  List.replicate (if totalSize < 9 then totalSize - 2 else totalSize - 9) 0

/- The bytes that an element should take. -/
def extent : Leaf → Nat
| .EbmlVoid totalSize _ => totalSize
| leaf => sizeOf leaf.mId.value + width leaf.mSize + leaf.mSize

end Leaf

section Contents

/- How the payload of an element is seen. -/
variable (view : Leaf → List Byte)

mutual

def WebmElement.treeOf : WebmElement → Tree
| .leaf leaf => .leaf leaf.mId.value (view leaf)
| .WebmMaster mId mChildren => .node mId.value (treesOf mChildren)

def treesOf : List WebmElement → List Tree
| [] => []
| child :: children => child.treeOf :: treesOf children

end

end Contents

mutual

def WebmElement.extent : WebmElement → Nat
| .leaf leaf => leaf.extent
| .WebmMaster mId mChildren => sizeOf mId.value + width (extents mChildren) + extents mChildren

def extents : List WebmElement → Nat
| [] => 0
| child :: children => child.extent + extents children

end

mutual

/- All elements without children. -/
def WebmElement.leaves : WebmElement → List Leaf
| .leaf leaf => [leaf]
| .WebmMaster _ mChildren => childLeaves mChildren

def childLeaves : List WebmElement → List Leaf
| [] => []
| child :: children => child.leaves ++ childLeaves children

end

mutual

/- There are children exactly where the ids say so. -/
def WebmElement.Shaped (isMaster : Nat → Bool) : WebmElement → Prop
| .leaf leaf => isMaster leaf.mId.value = false
| .WebmMaster mId mChildren =>
  isMaster mId.value = true ∧ mChildren ≠ [] ∧ AllShaped isMaster mChildren

def AllShaped (isMaster : Nat → Bool) : List WebmElement → Prop
| [] => True
| child :: children => child.Shaped isMaster ∧ AllShaped isMaster children

end

/- The payload size of every element with children is small. -/
mutual

def WebmElement.Every (good : Leaf → Prop) : WebmElement → Prop
| .leaf leaf => good leaf
| .WebmMaster _ mChildren => extents mChildren + 1 < 2 ^ 28 ∧ AllEvery good mChildren

def AllEvery (good : Leaf → Prop) : List WebmElement → Prop
| [] => True
| child :: children => child.Every good ∧ AllEvery good children

end

/- A size or track number that has a code in the program. -/
def Leaf.Coded : Leaf → Prop
| .EbmlVoid _ _ => True
| .WebmSimpleBlock mTrackNum _ _ mRef =>
  mRef.length + 4 + 1 < 2 ^ 28 ∧ (mTrackNum.toInt % 2 ^ 64).toNat + 1 < 2 ^ 28
| leaf => leaf.mSize + 1 < 2 ^ 28

/- A small size, and a track number that takes one byte. -/
def Leaf.Small : Leaf → Prop
| .EbmlVoid _ _ => True
| .WebmSimpleBlock mTrackNum _ _ mRef =>
  mRef.length + 4 + 1 < 2 ^ 28 ∧ 0 ≤ mTrackNum.toInt ∧ mTrackNum.toInt < 127
| leaf => leaf.mSize + 1 < 2 ^ 28

/- What is written is as long as it should be and read back. -/
def RoundTrips (isMaster : Nat → Bool) (e : WebmElement) : Prop :=
  ∃ bytes,
    e.serializeInto = some bytes ∧ e.totalSize = some bytes.length ∧
      Reaches (fun fuel => readElements isMaster fuel bytes) [e.treeOf Leaf.content] ∧
      ∀ totalSize hSize, .EbmlVoid totalSize hSize ∈ e.leaves →
        ∃ void,
          (WebmElement.leaf (.EbmlVoid totalSize hSize)).serializeInto = some void ∧
            void.length = totalSize

/- The code of a number in `w` bytes, not all of them ones. -/
def CodeOf (u w code : Nat) : Prop :=
  0 < w ∧ w ≤ 8 ∧ u + 1 < 2 ^ (7 * w) ∧ code = 2 ^ (7 * w) + u

/- No code of the number is shorter. -/
def Shortest (u code : Nat) : Prop :=
  ∃ w, CodeOf u w code ∧ ∀ other otherCode, CodeOf u other otherCode → w ≤ other

end Webm

end FrameworksAv
