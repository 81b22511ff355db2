import FrameworksAv.ATSParser.BitReader
import FrameworksAv.AVCUtils.NALUnits

/-
  Formats from the headers of a stream (media/libstagefright/avc_utils.cpp).

  `none` stands for a failed `CHECK`, a read outside the buffer or a shift of a word by its width.
  Of a format there is what tells it from others, without codec specific data.

  Main declarations:
    * `Format`
    * `parseUE`, `findAVCDimensions`
    * `extractDimensionsFromVOLHeader`
    * `getMPEGAudioFrameSize`
-/

--
-- Formats
--

namespace FrameworksAv

namespace AVCUtils

/- The MIME type of a `MetaData`, with its integers. -/
inductive Format
| avc (width height sarWidth sarHeight : Nat)
| aac (sampleRate channelCount : Nat)
| ac3 (channelCount sampleRate : Nat)
| raw (channelCount sampleRate : Nat)
| mpegAudio (layer sampleRate channelCount : Nat)
| mpeg2 (width height : Nat)
| mpeg4 (width height : Nat)
| timedID3
deriving DecidableEq, Repr

--
-- Exponential Golomb Codes
--

open ATSParser (ABitReader)

/- The loop of `parseUE`, at most once for each bit. -/
def countZeroes : Nat → Nat → ABitReader → Option (Nat × ABitReader)
| 0, _, _ => none
| turns + 1, numZeroes, br => do
    let (bit, br) ← br.getBits 1
    if bit = 0 then countZeroes turns (numZeroes + 1) br
    else return (numZeroes, br)

def parseUE (br : ABitReader) : Option (Nat × ABitReader) := do
  let (numZeroes, br) ← countZeroes (br.numBitsLeft + 1) 0 br
  if 32 ≤ numZeroes then none
  else
    let (x, br) ← br.getBits numZeroes
    return (x + 2 ^ numZeroes - 1, br)

def parseSE (br : ABitReader) : Option (Int × ABitReader) := do
  let (codeNum, br) ← parseUE br
  if codeNum % 2 = 1 then
    return (((codeNum + 1) % 2 ^ 32 / 2 : Nat), br)
  else return (-((codeNum / 2 : Nat) : Int), br)

/- The loop of `skipScalingList`, for the entries left. -/
def skipScalingLoop : Nat → Int → Int → ABitReader → Option ABitReader
| 0, _, _, br => some br
| left + 1, lastScale, nextScale, br => do
    let (nextScale, br) ← if nextScale = 0 then some (nextScale, br)
      else (parseSE br).map fun (delta_scale, br) =>
          ((lastScale + delta_scale + 256) % 256, br)
    skipScalingLoop left (if nextScale = 0 then lastScale else nextScale) nextScale br

def skipScalingList (br : ABitReader) (sizeOfScalingList : Nat) : Option ABitReader :=
  skipScalingLoop sizeOfScalingList 8 8 br

--
-- H.264
--

/- The loop over the scaling lists, from list `8 - left`. -/
def skipScalingLists : Nat → ABitReader → Option ABitReader
| 0, br => some br
| left + 1, br => do
    let (present, br) ← br.getBits 1
    let br ← if present = 0 then some br
      else if 8 - (left + 1) < 6 then skipScalingList br 16
      else skipScalingList br 64
    skipScalingLists left br

/- So many codes, one after the other. -/
def skipUEs : Nat → ABitReader → Option ABitReader
| 0, br => some br
| left + 1, br => do
    let (_, br) ← parseUE br
    skipUEs left br

/- What the high profiles have: `chroma_format_idc`. -/
def parseChroma (profile_idc : Nat) (br : ABitReader) : Option (Nat × ABitReader) :=
  if profile_idc ∈ [100, 110, 122, 244, 44, 83, 86] then do
    let (chroma_format_idc, br) ← parseUE br
    let br ← if chroma_format_idc = 3 then br.skipBits 1 else some br
    let (_, br) ← parseUE br
    let (_, br) ← parseUE br
    let br ← br.skipBits 1
    let (present, br) ← br.getBits 1
    let br ← if present = 0 then some br else skipScalingLists 8 br
    return (chroma_format_idc, br)
  else some (1, br)

def skipPicOrderCnt (br : ABitReader) : Option ABitReader := do
  let (pic_order_cnt_type, br) ← parseUE br
  if pic_order_cnt_type = 0 then skipUEs 1 br
  else if pic_order_cnt_type = 1 then do
    let (_, br) ← br.getBits 1
    let br ← skipUEs 2 br
    let (numRefFrames, br) ← parseUE br
    skipUEs numRefFrames br
  else return br

def u32 (n : Int) : Nat := (n % 2 ^ 32).toNat

/- What is cut off the width and the height. -/
def parseCropping (chroma_format_idc frame_mbs_only_flag : Nat) (br : ABitReader) :
    Option ((Nat × Nat) × ABitReader) := do
  let (cropped, br) ← br.getBits 1
  if cropped = 0 then return ((0, 0), br)
  else
    let (left, br) ← parseUE br
    let (right, br) ← parseUE br
    let (top, br) ← parseUE br
    let (bottom, br) ← parseUE br
    let cropUnitX := if chroma_format_idc = 0 then 1
      else if chroma_format_idc = 3 then 1 else 2
    let subHeightC := if chroma_format_idc = 0 then 1
      else if chroma_format_idc = 1 then 2 else 1
    let cropUnitY := subHeightC * (2 - frame_mbs_only_flag)
    some (((left + right) * cropUnitX, (top + bottom) * cropUnitY), br)

def kFixedSARs : List (Nat × Nat) :=
  [(0, 0), (1, 1), (12, 11), (10, 11), (16, 11), (40, 33),
    (24, 11), (20, 11), (32, 11), (80, 33), (18, 11), (15, 11),
    (64, 33), (160, 99), (4, 3), (3, 2), (2, 1)]

/- The sample aspect ratio. -/
def parseSAR (br : ABitReader) : Option (Nat × Nat) := do
  let (vui, br) ← br.getBits 1
  if vui = 0 then return (0, 0)
  else
    let (present, br) ← br.getBits 1
    if present = 0 then return (0, 0)
    else
      let (aspect_ratio_idc, br) ← br.getBits 8
      if aspect_ratio_idc = 255 then
        let (sar_width, br) ← br.getBits 16
        let (sar_height, _) ← br.getBits 16
        return (sar_width, sar_height)
      else return kFixedSARs.getD aspect_ratio_idc (0, 0)

/- The words of `*width` and so on, from a parameter set. -/
def findAVCDimensions (seqParamSet : List Byte) : Option Format := do
  let br := ABitReader.create (seqParamSet.drop 1)
  let (profile_idc, br) ← br.getBits 8
  let br ← br.skipBits 16
  let (_, br) ← parseUE br
  let (chroma_format_idc, br) ← parseChroma profile_idc br
  let (_, br) ← parseUE br
  let br ← skipPicOrderCnt br
  let (_, br) ← parseUE br
  let (_, br) ← br.getBits 1
  let (widthInMbs, br) ← parseUE br
  let (heightInMapUnits, br) ← parseUE br
  let (frame_mbs_only_flag, br) ← br.getBits 1
  let br ← if frame_mbs_only_flag = 0 then br.skipBits 1 else some br
  let (_, br) ← br.getBits 1
  let ((cropX, cropY), br) ← parseCropping chroma_format_idc frame_mbs_only_flag br
  let (sarWidth, sarHeight) ← parseSAR br
  some <|
    .avc (u32 (widthInMbs * 16 + 16 - cropX))
      (u32 ((2 - frame_mbs_only_flag : Nat) * (heightInMapUnits * 16 + 16) - cropY))
      sarWidth sarHeight

/-
  `FindNAL`: the first unit of a type, if there is one. The first byte of a unit without bytes is
  read all the same.
-/
def findNAL : Nat → List Byte → Byte → Option (Option (List Byte))
| 0, _, _ => none
| turns + 1, data, nalType =>
  match getNextNALUnit data true with
  | none => some none
  | some nal => do
      let first ← data[nal.nalStart]?
      if first &&& 0x1f = nalType then
        return some ((data.drop nal.nalStart).take nal.nalSize)
      else findNAL turns nal.data nalType

/- Without a sequence parameter set there is no format. -/
def makeAVCCodecSpecificData (accessUnit : List Byte) : Option (Option Format) := do
  let seqParamSet? ← findNAL (accessUnit.length + 1) accessUnit 7
  match seqParamSet? with
  | none => return none
  | some seqParamSet =>
    let format ← findAVCDimensions seqParamSet
    let picParamSet? ← findNAL (accessUnit.length + 1) accessUnit 8
    if picParamSet?.isSome then return some format
    else none

--
-- Other Formats
--

def kSamplingFreq : List Nat :=
  [96000, 88200, 64000, 48000, 44100, 32000, 24000, 22050, 16000, 12000, 11025, 8000]

def makeAACCodecSpecificData (_profile sampling_freq_index channel_configuration : Nat) :
    Option Format :=
  if sampling_freq_index ≤ 11 then
    some (.aac (kSamplingFreq.getD sampling_freq_index 0) channel_configuration)
  else none

/- A bit that has to be set. -/
def marker (br : ABitReader) : Option ABitReader := do
  let (bit, br) ← br.getBits 1
  if bit = 0 then none else return br

def skipVbvParameters (br : ABitReader) : Option ABitReader := do
  let br ← br.skipBits 15
  let br ← marker br
  let br ← br.skipBits 15
  let br ← marker br
  let br ← br.skipBits 15
  let br ← marker br
  let br ← br.skipBits 3
  let br ← br.skipBits 11
  let br ← marker br
  let br ← br.skipBits 15
  marker br

def skipVolControlParameters (br : ABitReader) : Option ABitReader := do
  let (present, br) ← br.getBits 1
  if present = 0 then return br
  else
    let br ← br.skipBits 2
    let br ← br.skipBits 1
    let (vbv, br) ← br.getBits 1
    if vbv = 0 then return br else skipVbvParameters br

/- The times that a word is halved until it is zero. -/
def numBits : Nat → Nat → Nat
| 0, _ => 0
| turns + 1, value => if 0 < value then numBits turns (value / 2) + 1 else 0

def skipFixedVopRate (vop_time_increment_resolution : Nat)
    (br : ABitReader) : Option ABitReader := do
  let (fixed_vop_rate, br) ← br.getBits 1
  if fixed_vop_rate = 0 then return br
  else if vop_time_increment_resolution = 0 then none
  else br.skipBits (numBits 16 (vop_time_increment_resolution - 1))

/- `*width` and `*height`; the result is always `true`. -/
def extractDimensionsFromVOLHeader (data : List Byte) : Option (Nat × Nat) := do
  let br := ABitReader.create (data.drop 4)
  let br ← br.skipBits 1
  let (video_object_type_indication, br) ← br.getBits 8
  if video_object_type_indication = 0x21 then none
  else
    let (identified, br) ← br.getBits 1
    let br ← if identified = 0 then some br
      else (br.getBits 4).bind fun (_, br) =>
          (br.getBits 3).map Prod.snd
    let (aspect_ratio_info, br) ← br.getBits 4
    let br ← if aspect_ratio_info = 0x0f then (br.skipBits 8).bind fun br => br.skipBits 8
      else some br
    let br ← skipVolControlParameters br
    let (video_object_layer_shape, br) ← br.getBits 2
    if video_object_layer_shape ≠ 0 then none
    else
      let br ← marker br
      let (vop_time_increment_resolution, br) ← br.getBits 16
      let br ← marker br
      let br ← skipFixedVopRate vop_time_increment_resolution br
      let br ← marker br
      let (width, br) ← br.getBits 13
      let br ← marker br
      let (height, br) ← br.getBits 13
      let br ← marker br
      let (_interlaced, _) ← br.getBits 1
      return (width, height)

end AVCUtils

--
-- MPEG Audio
--

namespace AVCUtils

structure MPEGAudioFrame where
  frame_size : Nat
  sampling_rate : Nat
  channels : Nat
  bitrate : Nat
  num_samples : Nat
deriving DecidableEq, Repr

def kSamplingRateV1 : List Nat := [44100, 48000, 32000]

def samplingRate (version sampling_rate_index : Nat) : Nat :=
  let sampling_rate := kSamplingRateV1.getD sampling_rate_index 0
  if version = 2 then sampling_rate / 2
  else if version = 0 then sampling_rate / 4
  else sampling_rate

/- The bit rates, by the version and the layer's two bits. -/
def kBitrate (version layer : Nat) : List Nat :=
  if layer = 3 then
    if version = 3 then [32, 64, 96, 128, 160, 192, 224, 256, 288, 320, 352, 384, 416, 448]
    else [32, 48, 56, 64, 80, 96, 112, 128, 144, 160, 176, 192, 224, 256]
  else if version = 3 then
    if layer = 2 then [32, 48, 56, 64, 80, 96, 112, 128, 160, 192, 224, 256, 320, 384]
    else [32, 40, 48, 56, 64, 80, 96, 112, 128, 160, 192, 224, 256, 320]
  else [8, 16, 24, 32, 40, 48, 56, 64, 80, 96, 112, 128, 144, 160]

/- `none` is `false`. -/
def getMPEGAudioFrameSize (header : Nat) : Option MPEGAudioFrame :=
  if header / 2 ^ 21 % 2 ^ 11 ≠ 2 ^ 11 - 1 then none
  else
    let version := header / 2 ^ 19 % 4
    let layer := header / 2 ^ 17 % 4
    let bitrate_index := header / 2 ^ 12 % 16
    let sampling_rate_index := header / 2 ^ 10 % 4
    let padding := header / 2 ^ 9 % 2
    let channel_mode := header / 2 ^ 6 % 4
    if version = 1 then none
    else if layer = 0 then none
    else if bitrate_index = 0 ∨ bitrate_index = 0x0f then none
    else if sampling_rate_index = 3 then none
    else
      let sampling_rate := samplingRate version sampling_rate_index
      let bitrate := (kBitrate version layer).getD (bitrate_index - 1) 0
      some
        { frame_size := if layer = 3 then (12000 * bitrate / sampling_rate + padding) * 4
            else if version = 3 then 144000 * bitrate / sampling_rate + padding
            else (if layer = 1 then 72000 else 144000) * bitrate / sampling_rate + padding
          sampling_rate := sampling_rate
          channels := if channel_mode = 3 then 1 else 2
          bitrate := bitrate
          num_samples := if layer = 3 then 384
            else if version = 3 then 1152
            else if layer = 1 then 576 else 1152 }

end AVCUtils

end FrameworksAv
