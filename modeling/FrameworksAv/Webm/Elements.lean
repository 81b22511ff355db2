import FrameworksAv.Webm.EbmlUtil

/-
  Elements of a WebM file (`WebmElement`): an id, the size of the payload, and the payload, which
  may be made of elements.

  Main declarations:
    * `Mkv`
    * `Leaf`, `WebmElement`
    * `WebmElement.totalSize`, `WebmElement.serializeInto`
-/

--
-- Ids
--

namespace FrameworksAv

namespace Webm

inductive Mkv
| kMkvEbml
| kMkvEbmlVersion
| kMkvEbmlReadVersion
| kMkvEbmlMaxIdlength
| kMkvEbmlMaxSizeLength
| kMkvDocType
| kMkvDocTypeVersion
| kMkvDocTypeReadVersion
| kMkvVoid
| kMkvSignatureSlot
| kMkvSignatureAlgo
| kMkvSignatureHash
| kMkvSignaturePublicKey
| kMkvSignature
| kMkvSignatureElements
| kMkvSignatureElementList
| kMkvSignedElement
| kMkvSegment
| kMkvSeekHead
| kMkvSeek
| kMkvSeekId
| kMkvSeekPosition
| kMkvInfo
| kMkvTimecodeScale
| kMkvSegmentDuration
| kMkvDateUtc
| kMkvMuxingApp
| kMkvWritingApp
| kMkvCluster
| kMkvTimecode
| kMkvPrevSize
| kMkvBlockGroup
| kMkvBlock
| kMkvBlockAdditions
| kMkvBlockMore
| kMkvBlockAddId
| kMkvBlockAdditional
| kMkvBlockDuration
| kMkvReferenceBlock
| kMkvLaceNumber
| kMkvSimpleBlock
| kMkvTracks
| kMkvTrackEntry
| kMkvTrackNumber
| kMkvTrackUid
| kMkvTrackType
| kMkvFlagEnabled
| kMkvFlagDefault
| kMkvFlagForced
| kMkvFlagLacing
| kMkvDefaultDuration
| kMkvMaxBlockAdditionId
| kMkvName
| kMkvLanguage
| kMkvCodecId
| kMkvCodecPrivate
| kMkvCodecName
| kMkvVideo
| kMkvFlagInterlaced
| kMkvStereoMode
| kMkvAlphaMode
| kMkvPixelWidth
| kMkvPixelHeight
| kMkvPixelCropBottom
| kMkvPixelCropTop
| kMkvPixelCropLeft
| kMkvPixelCropRight
| kMkvDisplayWidth
| kMkvDisplayHeight
| kMkvDisplayUnit
| kMkvAspectRatioType
| kMkvFrameRate
| kMkvAudio
| kMkvSamplingFrequency
| kMkvOutputSamplingFrequency
| kMkvChannels
| kMkvBitDepth
| kMkvCues
| kMkvCuePoint
| kMkvCueTime
| kMkvCueTrackPositions
| kMkvCueTrack
| kMkvCueClusterPosition
| kMkvCueBlockNumber
deriving DecidableEq, Repr

/- The code of an id. -/
def Mkv.value : Mkv → Nat
| .kMkvEbml => 0x1A45DFA3
| .kMkvEbmlVersion => 0x4286
| .kMkvEbmlReadVersion => 0x42F7
| .kMkvEbmlMaxIdlength => 0x42F2
| .kMkvEbmlMaxSizeLength => 0x42F3
| .kMkvDocType => 0x4282
| .kMkvDocTypeVersion => 0x4287
| .kMkvDocTypeReadVersion => 0x4285
| .kMkvVoid => 0xEC
| .kMkvSignatureSlot => 0x1B538667
| .kMkvSignatureAlgo => 0x7E8A
| .kMkvSignatureHash => 0x7E9A
| .kMkvSignaturePublicKey => 0x7EA5
| .kMkvSignature => 0x7EB5
| .kMkvSignatureElements => 0x7E5B
| .kMkvSignatureElementList => 0x7E7B
| .kMkvSignedElement => 0x6532
| .kMkvSegment => 0x18538067
| .kMkvSeekHead => 0x114D9B74
| .kMkvSeek => 0x4DBB
| .kMkvSeekId => 0x53AB
| .kMkvSeekPosition => 0x53AC
| .kMkvInfo => 0x1549A966
| .kMkvTimecodeScale => 0x2AD7B1
| .kMkvSegmentDuration => 0x4489
| .kMkvDateUtc => 0x4461
| .kMkvMuxingApp => 0x4D80
| .kMkvWritingApp => 0x5741
| .kMkvCluster => 0x1F43B675
| .kMkvTimecode => 0xE7
| .kMkvPrevSize => 0xAB
| .kMkvBlockGroup => 0xA0
| .kMkvBlock => 0xA1
| .kMkvBlockAdditions => 0x75A1
| .kMkvBlockMore => 0xA6
| .kMkvBlockAddId => 0xEE
| .kMkvBlockAdditional => 0xA5
| .kMkvBlockDuration => 0x9B
| .kMkvReferenceBlock => 0xFB
| .kMkvLaceNumber => 0xCC
| .kMkvSimpleBlock => 0xA3
| .kMkvTracks => 0x1654AE6B
| .kMkvTrackEntry => 0xAE
| .kMkvTrackNumber => 0xD7
| .kMkvTrackUid => 0x73C5
| .kMkvTrackType => 0x83
| .kMkvFlagEnabled => 0xB9
| .kMkvFlagDefault => 0x88
| .kMkvFlagForced => 0x55AA
| .kMkvFlagLacing => 0x9C
| .kMkvDefaultDuration => 0x23E383
| .kMkvMaxBlockAdditionId => 0x55EE
| .kMkvName => 0x536E
| .kMkvLanguage => 0x22B59C
| .kMkvCodecId => 0x86
| .kMkvCodecPrivate => 0x63A2
| .kMkvCodecName => 0x258688
| .kMkvVideo => 0xE0
| .kMkvFlagInterlaced => 0x9A
| .kMkvStereoMode => 0x53B8
| .kMkvAlphaMode => 0x53C0
| .kMkvPixelWidth => 0xB0
| .kMkvPixelHeight => 0xBA
| .kMkvPixelCropBottom => 0x54AA
| .kMkvPixelCropTop => 0x54BB
| .kMkvPixelCropLeft => 0x54CC
| .kMkvPixelCropRight => 0x54DD
| .kMkvDisplayWidth => 0x54B0
| .kMkvDisplayHeight => 0x54BA
| .kMkvDisplayUnit => 0x54B2
| .kMkvAspectRatioType => 0x54B3
| .kMkvFrameRate => 0x2383E3
| .kMkvAudio => 0xE1
| .kMkvSamplingFrequency => 0xB5
| .kMkvOutputSamplingFrequency => 0x78B5
| .kMkvChannels => 0x9F
| .kMkvBitDepth => 0x6264
| .kMkvCues => 0x1C53BB6B
| .kMkvCuePoint => 0xBB
| .kMkvCueTime => 0xB3
| .kMkvCueTrackPositions => 0xB7
| .kMkvCueTrack => 0xF7
| .kMkvCueClusterPosition => 0xF1
| .kMkvCueBlockNumber => 0x5378

--
-- Elements
--

/-
  Elements without children. The characters of a string are not zero, and an `EbmlVoid` has a size
  for all of it.
-/
inductive Leaf
| WebmUnsigned (mId : Mkv) (mValue : BitVec 64)
| WebmString (mId : Mkv) (mStr : List Byte) (hStr : ∀ c ∈ mStr, c ≠ 0)
| WebmBinary (mId : Mkv) (mRef : List Byte)
| WebmSimpleBlock (mTrackNum : BitVec 32) (mRelTimecode : BitVec 16) (mKey : Bool)
    (mRef : List Byte)
| EbmlVoid (totalSize : Nat) (hSize : 2 ≤ totalSize)

def voidSize (totalSize : Nat) : Int :=
  if totalSize < 2 then -1
  else if totalSize < 9 then totalSize - 2
  else totalSize - 9

namespace Leaf

def mId : Leaf → Mkv
| .WebmUnsigned mId _ => mId
| .WebmString mId _ _ => mId
| .WebmBinary mId _ => mId
| .WebmSimpleBlock .. => .kMkvSimpleBlock
| .EbmlVoid .. => .kMkvVoid

/- The size that the constructor sets. -/
def mSize : Leaf → Nat
| .WebmUnsigned _ mValue => sizeOf mValue.toNat
| .WebmString _ mStr _ => mStr.length
| .WebmBinary _ mRef => mRef.length
| .WebmSimpleBlock _ _ _ mRef => mRef.length + 4
| .EbmlVoid totalSize _ => (voidSize totalSize).toNat

/- `mSizeWidth` of an `EbmlVoid`. -/
def mSizeWidth (totalSize : Nat) : Nat :=
  totalSize - sizeOf Mkv.kMkvVoid.value - (voidSize totalSize).toNat

def serializePayloadSize (leaf : Leaf) : Option (List Byte) :=
  match leaf with
  | .EbmlVoid totalSize _ =>
    some (serializeCodedUnsigned (encodeUnsignedWidth leaf.mSize (mSizeWidth totalSize)))
  | _ => (encodeUnsigned leaf.mSize).map serializeCodedUnsigned

/-
  The bytes of a payload. The code of a track number is written first, and then overwritten behind
  its first byte.
-/
def serializePayload : Leaf → Option (List Byte)
| .WebmUnsigned _ mValue => some (serializeCodedUnsigned mValue.toNat)
| .WebmString _ mStr _ => some mStr
| .WebmBinary _ mRef => some mRef
| .WebmSimpleBlock mTrackNum mRelTimecode mKey mRef =>
  (encodeUnsigned (mTrackNum.toInt % 2 ^ 64).toNat).map fun code =>
    (serializeCodedUnsigned code).take 1 ++
      [BitVec.ofNat 8 (mRelTimecode.toNat / 256), BitVec.ofNat 8 mRelTimecode.toNat,
        if mKey then 0x80 else 0] ++ mRef
| .EbmlVoid totalSize _ => some (List.replicate (voidSize totalSize).toNat 0)

end Leaf

/- A `WebmMaster` has its children. -/
inductive WebmElement
| leaf (leaf : Leaf)
| WebmMaster (mId : Mkv) (mChildren : List WebmElement)

def kMkvUnknownLength : Nat := 0x01ffffffffffffff

/- The size of a `WebmMaster`. -/
def masterPayloadSize (mSize : Nat) : Option (List Byte) :=
  if mSize = 0 then some (serializeCodedUnsigned kMkvUnknownLength)
  else (encodeUnsigned mSize).map serializeCodedUnsigned

mutual

/- `totalSize`; without a result a size has no code. -/
def WebmElement.totalSize : WebmElement → Option Nat
| .leaf leaf =>
  leaf.serializePayloadSize.map fun size =>
    sizeOf leaf.mId.value + size.length + leaf.mSize
| .WebmMaster mId mChildren =>
  (childrenSum mChildren).bind fun mSize =>
    (masterPayloadSize mSize).map fun size =>
      sizeOf mId.value + size.length + mSize

def childrenSum : List WebmElement → Option Nat
| [] => some 0
| child :: children =>
  child.totalSize.bind fun size =>
    (childrenSum children).map fun total => size + total

end

mutual

/- The bytes that are written, the children one by one. -/
def WebmElement.serializeInto : WebmElement → Option (List Byte)
| .leaf leaf =>
  leaf.serializePayloadSize.bind fun size =>
    leaf.serializePayload.map fun payload =>
      serializeCodedUnsigned leaf.mId.value ++ size ++ payload
| .WebmMaster mId mChildren =>
  (childrenSum mChildren).bind fun mSize =>
    (masterPayloadSize mSize).bind fun size =>
      (serializeChildren mChildren).map fun payload =>
        serializeCodedUnsigned mId.value ++ size ++ payload

def serializeChildren : List WebmElement → Option (List Byte)
| [] => some []
| child :: children =>
  child.serializeInto.bind fun bytes =>
    (serializeChildren children).map fun rest => bytes ++ rest

end

end Webm

end FrameworksAv
