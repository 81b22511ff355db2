import FrameworksAv.Base.Fuel
import FrameworksAv.ESQueue.Queue

/-
  Access units from a queue (media/libstagefright/mpeg2ts/ESQueue.cpp).

  A parser returns `*accessUnit`, or `none` for `NULL`, with the queue behind it. The loops have
  fuel; `Result.aborts` is a failed `CHECK` or an access outside the buffer.

  Main declarations:
    * `dequeueAccessUnitAC3`, `dequeueAccessUnitPCMAudio`
    * `dequeueAccessUnitAAC`, `dequeueAccessUnitH264`
    * `dequeueAccessUnitMPEG4Video`
    * `dequeueAccessUnitMetadata`, `dequeueAccessUnit`
-/

--
-- AC3 and PCM
--

namespace FrameworksAv

namespace ESQueue

open ATSParser (ABitReader)
open AVCUtils (Format)

/- `unsigned` is a word. -/
def u32 (n : Nat) : Nat := n % 2 ^ 32

/- What a parser returns, and the queue behind it. -/
abbrev Dequeued :=
  Option AccessUnit × ElementaryStreamQueue

/- A frame after so many bytes. -/
structure SyncFrame where
  syncStartPos : Nat
  payloadSize : Nat
  format : Option Format

def syncTurn (data : List Byte) (syncStartPos : Nat) : Result (Nat ⊕ Option SyncFrame) :=
  if data.length ≤ u32 (syncStartPos + 2) then .returns (.inr none)
  else
    (Result.ofOption (parseAC3SyncFrame (data.drop syncStartPos))).bind fun (payloadSize, format) =>
        if 0 < payloadSize then .returns (.inr (some ⟨syncStartPos, payloadSize, format⟩))
        else .returns (.inl (u32 (syncStartPos + 1)))

namespace ElementaryStreamQueue

/- The bytes of a frame are counted in an `unsigned`. -/
def takeSyncFrame (q : ElementaryStreamQueue) (frame : SyncFrame) : Result Dequeued :=
  let size := u32 (frame.syncStartPos + frame.payloadSize)
  if q.mBuffer.length < size then .returns (none, q)
  else
    let q := { q with mFormat := q.mFormat.or frame.format }
    let (timeUs, q) := q.fetchTimestamp size
    if timeUs < 0 then .returns (none, q)
    else
      .check (frame.syncStartPos + frame.payloadSize ≤ q.mBuffer.length)
        (.returns
          (some
            { data := q.mBuffer.take size
              timeUs := timeUs
              isSync := true
              sei := none },
            q.shrink (frame.syncStartPos + frame.payloadSize)))

def dequeueAccessUnitAC3 (fuel : Nat) (q : ElementaryStreamQueue) : Result Dequeued :=
  (Result.loop (fun _ => syncTurn q.mBuffer) fuel 0).bind fun
    | none => .returns (none, q)
    | some frame => q.takeSyncFrame frame

end ElementaryStreamQueue

/- `ntohs` for each word. -/
def swapWords : List Byte → List Byte
| high :: low :: bytes => low :: high :: swapWords bytes
| bytes => bytes

/- `numAUs`, unless the header is refused. -/
def parsePCMHeader (data : List Byte) : Option (Option Nat) := do
  let bits := ABitReader.create data
  let (first, bits) ← bits.getBits 8
  if first ≠ 0xa0 then return none
  else
    let (numAUs, bits) ← bits.getBits 8
    let bits ← bits.skipBits 8
    let (_quantization_word_length, bits) ← bits.getBits 2
    let (audio_sampling_frequency, bits) ← bits.getBits 3
    let (num_channels, _) ← bits.getBits 3
    if audio_sampling_frequency ≠ 2 then return none
    else if num_channels ≠ 1 then return none
    else return some numAUs

def kFramesPerAU : Nat := 80

/- Two channels of `int16_t`. -/
def frameSize : Nat := 2 * 2

namespace ElementaryStreamQueue

/- What comes behind the header. -/
def takePCMFrames (q : ElementaryStreamQueue) (numAUs : Nat) : Dequeued :=
  let q := { q with mFormat := q.mFormat.or (some (.raw 2 48000)) }
  let payloadSize := numAUs * frameSize * kFramesPerAU
  if q.mBuffer.length < 4 + payloadSize then (none, q)
  else
    let (timeUs, q) := q.fetchTimestamp (payloadSize + 4)
    if timeUs < 0 then (none, q)
    else
      (some
        { data := swapWords ((q.mBuffer.drop 4).take payloadSize)
          timeUs := timeUs
          isSync := true
          sei := none },
        q.shrink (4 + payloadSize))

def dequeueAccessUnitPCMAudio (q : ElementaryStreamQueue) : Result Dequeued :=
  if q.mBuffer.length < 4 then .returns (none, q)
  else
    (Result.ofOption (parsePCMHeader (q.mBuffer.take 4))).map
      fun
        | none => (none, q)
        | some numAUs => q.takePCMFrames numAUs

end ElementaryStreamQueue

end ESQueue

--
-- AAC
--

namespace ESQueue

open ATSParser (ABitReader)
open AVCUtils (Format makeAACCodecSpecificData)

/- The middle of an ADTS header: it makes `mFormat` when there is none, and is skipped otherwise. -/
def readADTSFormat (mFormat : Option Format) (bits : ABitReader) :
    Option (Option (Format × ABitReader)) :=
  match mFormat with
  | none => do
      let (profile, bits) ← bits.getBits 2
      if profile = 3 then return none
      else
        let (sampling_freq_index, bits) ← bits.getBits 4
        let (_private_bit, bits) ← bits.getBits 1
        let (channel_configuration, bits) ← bits.getBits 3
        if channel_configuration = 0 then return none
        else
          let bits ← bits.skipBits 2
          let format ← makeAACCodecSpecificData profile sampling_freq_index channel_configuration
          return some (format, bits)
  | some format => do
      let bits ← bits.skipBits 12
      return some (format, bits)

/- The end of an ADTS header. -/
def readADTSLength (bits : ABitReader) : Option (Option Nat) := do
  let bits ← bits.skipBits 2
  let (aac_frame_length, bits) ← bits.getBits 13
  let bits ← bits.skipBits 11
  let (numRawDataBlocks, _) ← bits.getBits 2
  if numRawDataBlocks ≠ 0 then return none
  else return some aac_frame_length

/- `aac_frame_length`, or `none` where the parser returns `NULL`, and `mFormat` afterwards. -/
def readADTSHeader (data : List Byte) (mFormat : Option Format) :
    Option (Option Nat × Option Format) := do
  let bits := ABitReader.create data
  let (sync, bits) ← bits.getBits 12
  if sync ≠ 0xfff then return (none, mFormat)
  else
    let bits ← bits.skipBits 3
    let (_protection_absent, bits) ← bits.getBits 1
    match ← readADTSFormat mFormat bits with
    | none => return (none, mFormat)
    | some (format, bits) =>
      let aac_frame_length ← readADTSLength bits
      return (aac_frame_length, some format)

/- `done` is that the loop is left at its condition. -/
structure AACLoop where
  offset : Nat
  mFormat : Option Format
  done : Bool

def aacTurn (data : List Byte) (mLength : Nat) (s : AACLoop) : Result (AACLoop ⊕ AACLoop) :=
  if mLength ≤ s.offset then .returns (.inr { s with done := true })
  else if data.length < s.offset + 7 then .returns (.inr s)
  else
    (Result.ofOption (readADTSHeader (data.drop s.offset) s.mFormat)).bind fun
      | (none, mFormat) => .returns (.inr { s with mFormat := mFormat })
      | (some aac_frame_length, mFormat) =>
        let s := { s with mFormat := mFormat }
        if data.length < s.offset + aac_frame_length then .returns (.inr s)
        else
          .returns
            (.inl
              { s with
                offset := s.offset + aac_frame_length })

namespace ElementaryStreamQueue

def takeAACFrames (q : ElementaryStreamQueue) (offset : Nat) : Dequeued :=
  let (timeUs, q) := q.fetchTimestamp offset
  (some
    { data := q.mBuffer.take offset
      timeUs := timeUs
      isSync := true
      sei := none },
    q.shrink offset)

/- What comes after the loop. -/
def leaveAACLoop (q : ElementaryStreamQueue) (s : AACLoop) : Dequeued :=
  let q := { q with mFormat := s.mFormat }
  if s.done then q.takeAACFrames s.offset else (none, q)

def dequeueAccessUnitAAC (fuel : Nat) (q : ElementaryStreamQueue) : Result Dequeued :=
  if q.mBuffer.length = 0 then .returns (none, q)
  else
    match q.mRangeInfos with
    | [] => .returns (none, q)
    | info :: _ =>
      if q.mBuffer.length < info.mLength then .returns (none, q)
      else if info.mTimestampUs < 0 then .returns (none, q)
      else
        (Result.loop (fun _ => aacTurn q.mBuffer info.mLength)
          fuel ⟨0, q.mFormat, false⟩).map q.leaveAACLoop

end ElementaryStreamQueue

end ESQueue

--
-- H.264
--

namespace ESQueue

open ATSParser (ABitReader)
open AVCUtils (Format getNextNALUnit parseUE makeAVCCodecSpecificData)

/- `data` is behind the first `base` bytes of the buffer; it is empty when it is `NULL`. -/
structure H264Loop where
  data : List Byte
  base : Nat
  nals : List NALPosition
  totalSize : Nat
  seiCount : Nat
  foundSlice : Bool
  foundIDR : Bool

/- The first byte of a unit gives its type. -/
def nalType (buffer : List Byte) (pos : NALPosition) : Nat :=
  (buffer.getD pos.nalOffset 0).toNat % 32

/- Whether a slice is the first one of its frame. -/
def startsFrame (buffer : List Byte) (pos : NALPosition) : Option Bool :=
  (parseUE (ABitReader.create ((buffer.drop (pos.nalOffset + 1)).take pos.nalSize))).map
    fun (first_mb_in_slice, _) => first_mb_in_slice = 0

/- Whether a unit belongs to the next frame. -/
def flushes (buffer : List Byte) (foundSlice : Bool) (pos : NALPosition) : Option Bool :=
  let type := nalType buffer pos
  if type = 1 ∨ type = 5 then if foundSlice then startsFrame buffer pos else some false
  else some ((type = 9 ∨ type = 7) ∧ foundSlice)

/- What a unit is noted as. -/
def H264Loop.note (s : H264Loop) (type : Nat) : H264Loop :=
  if type = 1 ∨ type = 5 then
    { s with
      foundSlice := true
      foundIDR := s.foundIDR || decide (type = 5) }
  else if (type = 9 ∨ type = 7) ∧ s.foundSlice then s
  else if type = 6 then { s with seiCount := s.seiCount + 1 }
  else s

/- The units with start codes in front of them. -/
def joinNals (buffer : List Byte) : List NALPosition → List Byte
| [] => []
| pos :: nals =>
  [0, 0, 0, 1] ++ (buffer.drop pos.nalOffset).take pos.nalSize ++ joinNals buffer nals

/-
  The positions for `sei`, from a place in the access unit on. Without a buffer for them the program
  ends, and where it is too small the parser returns `NULL`.
-/
def seiPositions (buffer : List Byte) (seiCount : Nat) :
    List NALPosition → Nat → List NALPosition → Result (Option (List NALPosition))
| [], _, sei => .returns (some sei)
| pos :: nals, dstOffset, sei =>
  if nalType buffer pos = 6 ∧ 0 < pos.nalSize then
    .check (0 < seiCount)
      (if seiCount ≤ sei.length then .returns none
      else
        seiPositions buffer seiCount nals (dstOffset + (pos.nalSize + 4))
          (sei ++ [⟨dstOffset + 4, pos.nalSize⟩]))
  else seiPositions buffer seiCount nals (dstOffset + (pos.nalSize + 4)) sei

/- `mFormat` behind an access unit: it is made only once. -/
def formatOf (mFormat : Option Format) (accessUnit : List Byte) : Result (Option Format) :=
  match mFormat with
  | some format => .returns (some format)
  | none => Result.ofOption (makeAVCCodecSpecificData accessUnit)

namespace ElementaryStreamQueue

/- The access unit of the units before the current one. -/
def flushAccessUnit (q : ElementaryStreamQueue) (s : H264Loop) : Result Dequeued :=
  (seiPositions q.mBuffer s.seiCount s.nals 0 []).bind fun
    | none => .returns (none, q)
    | some sei =>
      match s.nals.getLast? with
      | none => .aborts
      | some pos =>
        let accessUnit := joinNals q.mBuffer s.nals
        let nextScan := pos.nalOffset + pos.nalSize
        let (timeUs, q) := (q.shrink nextScan).fetchTimestamp nextScan
        if timeUs < 0 then .returns (none, q)
        else (formatOf q.mFormat accessUnit).map fun mFormat =>
            (some
              { data := accessUnit
                timeUs := timeUs
                isSync := s.foundIDR
                sei := if 0 < s.seiCount then some sei
                  else none },
              { q with mFormat := mFormat })

def h264Turn (q : ElementaryStreamQueue) (s : H264Loop) : Result (H264Loop ⊕ Dequeued) :=
  match getNextNALUnit s.data false with
  | none => .returns (.inr (none, q))
  | some nal =>
    let next : H264Loop :=
      { s with
        data := nal.data
        base := s.base + (s.data.length - nal.data.length) }
    if nal.nalSize = 0 then .returns (.inl next)
    else
      let pos : NALPosition := ⟨s.base + nal.nalStart, nal.nalSize⟩
      (Result.ofOption (flushes q.mBuffer s.foundSlice pos)).bind fun flush =>
          let next := next.note (nalType q.mBuffer pos)
          if flush then (q.flushAccessUnit next).map .inr
          else
            .returns
              (.inl
                { next with
                  nals := next.nals ++ [pos]
                  totalSize :=
                    next.totalSize + pos.nalSize })

def dequeueAccessUnitH264 (fuel : Nat) (q : ElementaryStreamQueue) : Result Dequeued :=
  Result.loop (fun _ => q.h264Turn) fuel
    { data := q.mBuffer
      base := 0
      nals := []
      totalSize := 0
      seiCount := 0
      foundSlice := false
      foundIDR := false }

end ElementaryStreamQueue

end ESQueue

--
-- MPEG Audio
--

namespace ESQueue

open AVCUtils (MPEGAudioFrame getMPEGAudioFrameSize)

namespace ElementaryStreamQueue

/- `U32_AT`. -/
def header (q : ElementaryStreamQueue) : Nat :=
  ofLittleEndian (q.mBuffer.take 4).reverse

/- The layer's bits are not zero here. -/
def takeMPEGAudioFrame (q : ElementaryStreamQueue) (frame : MPEGAudioFrame) : Dequeued :=
  if q.mBuffer.length < frame.frame_size then (none, q)
  else
    let layer := 4 - q.header / 2 ^ 17 % 4
    let data := q.mBuffer.take frame.frame_size
    let (timeUs, q) := (q.shrink frame.frame_size).fetchTimestamp frame.frame_size
    if timeUs < 0 then (none, q)
    else
      (some
        { data := data
          timeUs := timeUs
          isSync := true
          sei := none },
        { q with
          mFormat := q.mFormat.or (some (.mpegAudio layer frame.sampling_rate frame.channels)) })

def dequeueAccessUnitMPEGAudio (q : ElementaryStreamQueue) : Dequeued :=
  if q.mBuffer.length < 4 then (none, q)
  else
    match getMPEGAudioFrameSize q.header with
    | none => (none, q)
    | some frame => q.takeMPEGAudioFrame frame

end ElementaryStreamQueue

end ESQueue

--
-- MPEG Video
--

namespace ESQueue

open AVCUtils (StartsAt)

/- A start code that there was none of is -1. -/
structure MPEGVideoLoop where
  q : ElementaryStreamQueue
  offset : Nat
  sawPictureStart : Bool
  pprevStartCode : Int
  prevStartCode : Int
  currentStartCode : Int
  gopFound : Bool
  isClosedGop : Bool
  brokenLink : Bool

namespace MPEGVideoLoop

/- The bytes behind the range are those of earlier data. -/
def byte (past : Nat → Byte) (s : MPEGVideoLoop) (i : Nat) : Nat :=
  (s.q.mBuffer.getD i (past i)).toNat

/- Another start code. -/
def shift (s : MPEGVideoLoop) : MPEGVideoLoop :=
  { s with
    pprevStartCode := s.prevStartCode
    prevStartCode := s.currentStartCode
    currentStartCode := ((s.q.mBuffer.getD (s.offset + 3) 0).toNat : Int) }

/- What is in front of a sequence header is dropped. -/
def dropBefore (s : MPEGVideoLoop) : MPEGVideoLoop :=
  if s.currentStartCode = 0xb3 ∧ s.q.mFormat = none then
    { s with
      q := (s.q.shrink s.offset).fetchTimestamp s.offset |>.2
      offset := 0 }
  else s

/- Whether a sequence header is complete. -/
def seqHeader (s : MPEGVideoLoop) : Prop :=
  (s.prevStartCode = 0xb3 ∧ s.currentStartCode ≠ 0xb5) ∨
    (s.pprevStartCode = 0xb3 ∧ s.prevStartCode = 0xb5)

instance (s : MPEGVideoLoop) : Decidable s.seqHeader :=
  inferInstanceAs
    (Decidable
      ((s.prevStartCode = 0xb3 ∧ s.currentStartCode ≠ 0xb5) ∨
        (s.pprevStartCode = 0xb3 ∧ s.prevStartCode = 0xb5)))

/- The codec specific data goes into `mFormat`. -/
def takeSeqHeader (past : Nat → Byte) (s : MPEGVideoLoop) : ElementaryStreamQueue :=
  if s.q.mBuffer.length < 7 then s.q
  else
    let width := s.byte past 4 * 2 ^ 4 + s.byte past 5 / 2 ^ 4
    let height := s.byte past 5 % 2 ^ 4 * 2 ^ 8 + s.byte past 6
    let q := (s.q.shrink s.offset).fetchTimestamp s.offset |>.2
    { q with mFormat := some (.mpeg2 width height) }

/- A group of pictures. -/
def noteGop (past : Nat → Byte) (s : MPEGVideoLoop) : MPEGVideoLoop :=
  if s.q.mFormat ≠ none ∧ s.currentStartCode = 0xb8 then
    { s with
      gopFound := true
      isClosedGop := s.byte past (s.offset + 7) / 0x40 % 2 = 1
      brokenLink := s.byte past (s.offset + 7) / 0x20 % 2 = 1 }
  else s

/- The second picture start ends an access unit. -/
def takePicture (s : MPEGVideoLoop) : Dequeued :=
  let data := s.q.mBuffer.take s.offset
  let (timeUs, q) := (s.q.shrink s.offset).fetchTimestamp s.offset
  if timeUs < 0 then (none, q)
  else
    (some
      { data := data
        timeUs := timeUs
        isSync := s.gopFound ∧ (¬s.brokenLink ∨ s.isClosedGop)
        sei := none },
      q)

/- What is done where there is a start code. -/
def codeTurn (past : Nat → Byte) (s : MPEGVideoLoop) : MPEGVideoLoop ⊕ Dequeued :=
  if s.seqHeader ∧ s.q.mFormat = none then .inr (none, s.takeSeqHeader past)
  else
    let s := s.noteGop past
    if s.q.mFormat ≠ none ∧ s.currentStartCode = 0 then if s.sawPictureStart then .inr s.takePicture
      else
        .inl
          { s with
            sawPictureStart := true
            offset := s.offset + 1 }
    else .inl { s with offset := s.offset + 1 }

def turn (past : Nat → Byte) (s : MPEGVideoLoop) : MPEGVideoLoop ⊕ Dequeued :=
  if s.q.mBuffer.length ≤ s.offset + 3 then .inr (none, s.q)
  else if ¬StartsAt s.q.mBuffer s.offset then .inl { s with offset := s.offset + 1 }
  else s.shift.dropBefore.codeTurn past

end MPEGVideoLoop

namespace ElementaryStreamQueue

def dequeueAccessUnitMPEGVideo (past : Nat → Byte) (fuel : Nat)
    (q : ElementaryStreamQueue) : Result Dequeued :=
  Result.loop (fun _ s => .returns (MPEGVideoLoop.turn past s)) fuel
    { q := q
      offset := 0
      sawPictureStart := false
      pprevStartCode := -1
      prevStartCode := -1
      currentStartCode := -1
      gopFound := false
      isClosedGop := false
      brokenLink := false }

end ElementaryStreamQueue

end ESQueue

--
-- MPEG-4 Video
--

namespace ESQueue

open AVCUtils (StartsAt extractDimensionsFromVOLHeader)

/- The loop of `getNextChunkSize`, once for each byte. -/
def findChunkEnd (data : List Byte) : Nat → Nat → Option Nat
| 0, _ => none
| turns + 1, offset =>
  if offset + 2 < data.length then if StartsAt data offset then some offset
    else findChunkEnd data turns (offset + 1)
  else none

/- `none` is `-EAGAIN`. -/
def getNextChunkSize (data : List Byte) : Option Nat :=
  if StartsAt data 0 then findChunkEnd data data.length 3
  else none

inductive MPEG4State
| SKIP_TO_VISUAL_OBJECT_SEQ_START
| EXPECT_VISUAL_OBJECT_START
| EXPECT_VO_START
| EXPECT_VOL_START
| WAIT_FOR_VOP_START
| SKIP_TO_VOP_START
deriving DecidableEq, Repr

structure MPEG4Loop where
  q : ElementaryStreamQueue
  state : MPEG4State
  width : Int
  height : Int
  offset : Nat

namespace MPEG4Loop

/- A chunk is kept, and the offset is behind it. -/
def keep (s : MPEG4Loop) (chunkSize : Nat) : MPEG4Loop :=
  { s with offset := s.offset + chunkSize }

/- What is in front of the offset is dropped. -/
def discard (s : MPEG4Loop) : MPEG4Loop :=
  { s with
    q := (s.q.fetchTimestamp s.offset).2.shrink s.offset
    offset := 0 }

/- The access unit that ends with this chunk. -/
def takeVop (s : MPEG4Loop) (chunkSize : Nat) : Dequeued :=
  let vopCodingType := (s.q.mBuffer.getD (s.offset + 4) 0).toNat / 2 ^ 6
  let offset := s.offset + chunkSize
  let data := s.q.mBuffer.take offset
  let (timeUs, q) := (s.q.shrink offset).fetchTimestamp offset
  if timeUs < 0 then (none, q)
  else
    (some
      { data := data
        timeUs := timeUs
        isSync := vopCodingType = 0
        sei := none },
      q)

/- One chunk, of a size and a type. -/
def chunk (s : MPEG4Loop) (chunkSize chunkType : Nat) : Result (MPEG4Loop ⊕ Dequeued) :=
  match s.state with
  | .SKIP_TO_VISUAL_OBJECT_SEQ_START =>
    if chunkType = 0xb0 then
      .returns
        (.inl
          ({ s with
            state := .EXPECT_VISUAL_OBJECT_START }.keep
            chunkSize))
    else .returns (.inl s.discard)
  | .EXPECT_VISUAL_OBJECT_START =>
    if chunkType ≠ 0xb5 then .returns (.inr (none, s.q))
    else
      .returns
        (.inl
          ({ s with state := .EXPECT_VO_START }.keep
            chunkSize))
  | .EXPECT_VO_START =>
    if 0x1f < chunkType then .returns (.inr (none, s.q))
    else
      .returns
        (.inl
          ({ s with state := .EXPECT_VOL_START }.keep
            chunkSize))
  | .EXPECT_VOL_START =>
    if chunkType / 16 ≠ 0x2 then .returns (.inr (none, s.q))
    else
      (Result.ofOption
        (extractDimensionsFromVOLHeader ((s.q.mBuffer.drop s.offset).take chunkSize))).map
        fun (width, height) =>
          .inl
            ({ s with
              state := .WAIT_FOR_VOP_START
              width := width
              height := height }.keep chunkSize)
  | .WAIT_FOR_VOP_START =>
    if chunkType = 0xb3 ∨ chunkType = 0xb6 then
      .returns
        (.inl
          { s with
            q :=
              { s.q with
                mFormat := some (.mpeg4 s.width.toNat s.height.toNat) }
            state := .SKIP_TO_VOP_START }.discard)
    else .returns (.inl (s.keep chunkSize))
  | .SKIP_TO_VOP_START =>
    if chunkType = 0xb6 then .returns (.inr (s.takeVop chunkSize))
    else if chunkType ≠ 0xb3 then .returns (.inl (s.keep chunkSize).discard)
    else .returns (.inl (s.keep chunkSize))

def turn (s : MPEG4Loop) : Result (MPEG4Loop ⊕ Dequeued) :=
  match getNextChunkSize (s.q.mBuffer.drop s.offset) with
  | none => .returns (.inr (none, s.q))
  | some chunkSize => s.chunk chunkSize (s.q.mBuffer.getD (s.offset + 3) 0).toNat

end MPEG4Loop

namespace ElementaryStreamQueue

def dequeueAccessUnitMPEG4Video (fuel : Nat) (q : ElementaryStreamQueue) : Result Dequeued :=
  Result.loop (fun _ => MPEG4Loop.turn) fuel
    { q := q
      state := if q.mFormat = none then .SKIP_TO_VISUAL_OBJECT_SEQ_START
        else .SKIP_TO_VOP_START
      width := -1
      height := -1
      offset := 0 }

end ElementaryStreamQueue

end ESQueue

--
-- Every Mode
--

namespace ESQueue

namespace ElementaryStreamQueue

def dequeueAccessUnitMetadata (q : ElementaryStreamQueue) : Dequeued :=
  let size := q.mBuffer.length
  if size = 0 then (none, q)
  else
    let (timeUs, q) := q.fetchTimestamp size
    (some
      { data := q.mBuffer
        timeUs := timeUs
        isSync := false
        sei := none },
      { q with
        mBuffer := []
        mFormat := q.mFormat.or (some .timedID3) })

/- Data at the boundaries of access units. -/
def dequeueAligned (q : ElementaryStreamQueue) : Result Dequeued :=
  match q.mRangeInfos with
  | [] => .returns (none, q)
  | info :: infos =>
    .check (info.mLength ≤ q.mBuffer.length)
      ((formatOf q.mFormat (q.mBuffer.take info.mLength)).map fun mFormat =>
          (some
            { data := q.mBuffer.take info.mLength
              timeUs := info.mTimestampUs
              isSync := false
              sei := none },
            { q.shrink info.mLength with
              mRangeInfos := infos
              mFormat := mFormat }))

def dequeueAccessUnit (past : Nat → Byte) (fuel : Nat)
    (q : ElementaryStreamQueue) : Result Dequeued :=
  if q.aligned ∧ q.mMode = .H264 then q.dequeueAligned
  else
    match q.mMode with
    | .H264 => q.dequeueAccessUnitH264 fuel
    | .AAC => q.dequeueAccessUnitAAC fuel
    | .AC3 => q.dequeueAccessUnitAC3 fuel
    | .MPEG_VIDEO => q.dequeueAccessUnitMPEGVideo past fuel
    | .MPEG4_VIDEO => q.dequeueAccessUnitMPEG4Video fuel
    | Mode.PCM_AUDIO => q.dequeueAccessUnitPCMAudio
    | .METADATA => .returns q.dequeueAccessUnitMetadata
    | Mode.MPEG_AUDIO => .returns q.dequeueAccessUnitMPEGAudio

end ElementaryStreamQueue

end ESQueue

end FrameworksAv
