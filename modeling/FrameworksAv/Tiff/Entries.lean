import FrameworksAv.Base.Bytes
import FrameworksAv.Base.KeyedVector
import Mathlib.Order.Fin.Basic

/-
  Entries of a TIFF directory (`TiffEntryImpl`), and `TiffIfd`: directories of entries.

  Main declarations:
    * `TagType`, `ElementType`
    * `Values`, `Entry`
    * `Ifd`, `Ifd.addEntry`
-/

--
-- Types
--

namespace FrameworksAv

namespace Tiff

inductive Status
| OK
| BAD_VALUE
| BAD_INDEX
| BAD_TYPE
| NAME_NOT_FOUND
deriving DecidableEq, Repr

inductive Endianness
| UNDEFINED_ENDIAN
| BIG
| LITTLE
deriving DecidableEq, Repr

/- `uint16_t` -/
abbrev Tag : Type := Fin (2 ^ 16)

inductive TagType
| UNKNOWN_TAGTYPE
| BYTE
| ASCII
| SHORT
| LONG
| RATIONAL
| SBYTE
| UNDEFINED
| SSHORT
| SLONG
| SRATIONAL
| FLOAT
| DOUBLE
deriving DecidableEq, Repr

namespace TagType

/- `type == RATIONAL || type == SRATIONAL` -/
def isRational (type : TagType) : Bool :=
  type = .RATIONAL || type = .SRATIONAL

/- How many numbers there are for a count of values. -/
def elements (type : TagType) (count : Nat) : Nat :=
  if type.isRational then count * 2 else count

end TagType

/- The types that `TiffEntryImpl` is used with. -/
inductive ElementType
| uint8
| int8
| uint16
| int16
| uint32
| int32
| double
| float
deriving DecidableEq, Repr

namespace ElementType

/- `sizeof(T)` -/
def size : ElementType → Nat
| .uint8 => 1
| .int8 => 1
| .uint16 => 2
| .int16 => 2
| .uint32 => 4
| .int32 => 4
| .double => 8
| .float => 4

def forceValidType : ElementType → TagType → Bool
| .uint8, type => type = .BYTE || type = .ASCII || type = .UNDEFINED
| .int8, type => type = .SBYTE || type = .ASCII || type = .UNDEFINED
| .uint16, type => type = .SHORT
| .int16, type => type = .SSHORT
| .uint32, type => type = .LONG || type = .RATIONAL
| .int32, type => type = .SLONG || type = .SRATIONAL
| .double, type => type = .DOUBLE
| .float, type => type = .FLOAT

end ElementType

--
-- Entries
--

/-
  An entry of numbers, as many as its count says. A signed number or a floating-point number is its
  bits.
-/
structure Values where
  mTag : Tag
  mType : TagType
  mCount : Nat
  mEnd : Endianness
  element : ElementType
  mData : List (BitVec (8 * element.size))
  hData : mData.length = mType.elements mCount
  hType : element.forceValidType mType = true

namespace Values

def numbers (v : Values) : List Nat :=
  v.mData.map BitVec.toNat

end Values

/- `mIfds` are the pointers to the sub-IFDs of an entry. -/
inductive Entry
| values (v : Values)
| subIfds (mTag : Tag) (mIfds : List Nat)

def Entry.tag : Entry → Tag
| .values v => v.mTag
| .subIfds mTag _ => mTag

--
-- IFDs
--

def MAX_IFD_ENTRIES : Nat := 65535

structure Ifd where
  mEntries : KeyedVector Tag Entry
  mNextIfd : Option Nat
  mIfdId : Nat
  mStripOffsetsInitialized : Bool

namespace Ifd

/- `TiffIfd::TiffIfd` -/
def new (ifdId : Nat) : Ifd := ⟨.empty, none, ifdId, false⟩

def size (ifd : Ifd) : Nat := ifd.mEntries.entries.length

def getEntry (ifd : Ifd) (tag : Tag) : Option Entry :=
  ifd.mEntries.lookup tag

/- The entry, unless there are too many. -/
def addEntry (ifd : Ifd) (entry : Entry) : Status × Ifd :=
  if MAX_IFD_ENTRIES ≤ ifd.size then (.BAD_INDEX, ifd)
  else
    (.OK,
      { ifd with
        mEntries := ifd.mEntries.add entry.tag entry })

end Ifd

end Tiff

end FrameworksAv
