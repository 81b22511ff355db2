import FrameworksAv.RTP.Assembler
import FrameworksAv.ATSParser.BitReader

/-
  `AMPEG4ElementaryAssembler` (media/libstagefright/rtsp).

  A packet of the generic format begins with the headers of its access units. A malformed one stays
  in the queue.

  Main declarations:
    * `ElementaryParams`, `AUHeader`
    * `ElementaryParams.headerTurn`
    * `ElementaryParams.readUnits`
    * `AMPEG4ElementaryAssembler.addPacket`
-/

--
-- Headers
--

namespace FrameworksAv

namespace RTP

open ATSParser (ABitReader)

/- The lengths are attributes of the session description. -/
structure ElementaryParams where
  mIsGeneric : Bool
  mSizeLength : Nat
  mIndexLength : Nat
  mIndexDeltaLength : Nat
  mCTSDeltaLength : Nat
  mDTSDeltaLength : Nat
  mRandomAccessIndication : Bool
  mStreamStateIndication : Nat
  mAuxiliaryDataSizeLength : Nat
  mChannelConfig : Nat
  mSampleRateIndex : Nat
deriving DecidableEq, Repr

structure AUHeader where
  mSize : Nat
  mSerial : Nat
deriving DecidableEq, Repr

/- The variables of the loop over the headers. -/
structure HeaderLoop where
  bits : ABitReader
  numBitsLeft : Nat
  AU_serial : Nat
  headers : List AUHeader

namespace HeaderLoop

def getBits (s : HeaderLoop) (n : Nat) : Result (Nat × HeaderLoop) :=
  (Result.ofOption (s.bits.getBits n)).bind fun (value, bits) =>
      .returns
        (value,
          { s with
            bits := bits, numBitsLeft := s.numBitsLeft - n })

def skipBits (s : HeaderLoop) (n : Nat) : Result HeaderLoop :=
  (Result.ofOption (s.bits.skipBits n)).bind fun bits =>
    .returns
      { s with
        bits := bits, numBitsLeft := s.numBitsLeft - n }

/- A flag and, where it is set, a number behind it.  `none` leaves the loop. -/
def skipDelta (s : HeaderLoop) (length : Nat) : Result (Option HeaderLoop) :=
  if 0 < length then if s.numBitsLeft < 1 then .returns none
    else (s.getBits 1).bind fun (flag, s) =>
        if flag ≠ 0 then if s.numBitsLeft < length then .returns none
          else (s.skipBits length).map some
        else .returns (some s)
  else .returns (some s)

def skipRandomAccess (s : HeaderLoop) (present : Bool) : Result (Option HeaderLoop) :=
  if present then if s.numBitsLeft < 1 then .returns none else (s.skipBits 1).map some
  else .returns (some s)

/- The bits of the state are not subtracted. -/
def skipStreamState (s : HeaderLoop) (length : Nat) : Result (Option HeaderLoop) :=
  if 0 < length then if s.numBitsLeft < length then .returns none
    else
      (Result.ofOption (s.bits.skipBits length)).bind
        fun bits => .returns (some { s with bits := bits })
  else .returns (some s)

/- Leave the loop, or go on. -/
def orBreak (result : Result (Option HeaderLoop)) (headers : List AUHeader)
    (next : HeaderLoop → Result (HeaderLoop ⊕ List AUHeader)) :
    Result (HeaderLoop ⊕ List AUHeader) :=
  result.bind fun
    | none => .returns (.inr headers)
    | some s => next s

end HeaderLoop

namespace ElementaryParams

variable (params : ElementaryParams)

def indexLength (headers : List AUHeader) : Nat :=
  if headers = [] then params.mIndexLength
  else params.mIndexDeltaLength

/- One header of an access unit. -/
def headerTurn (s : HeaderLoop) : Result (HeaderLoop ⊕ List AUHeader) :=
  if s.numBitsLeft < params.mSizeLength then .returns (.inr s.headers)
  else (s.getBits params.mSizeLength).bind fun (AU_size, s) =>
      let n := params.indexLength s.headers
      if s.numBitsLeft < n then .returns (.inr s.headers)
      else (s.getBits n).bind fun (AU_index, s) =>
          let AU_serial := if s.headers = [] then AU_index
            else (s.AU_serial + (1 + AU_index)) % 2 ^ 32
          let s := { s with AU_serial := AU_serial }
          let headers := s.headers
          HeaderLoop.orBreak (s.skipDelta params.mCTSDeltaLength) headers fun s =>
          HeaderLoop.orBreak (s.skipDelta params.mDTSDeltaLength) headers fun s =>
          HeaderLoop.orBreak (s.skipRandomAccess params.mRandomAccessIndication) headers fun s =>
          HeaderLoop.orBreak (s.skipStreamState params.mStreamStateIndication) headers fun s =>
              .returns
                (.inl
                  { s with
                    headers := s.headers ++ [⟨AU_size, AU_serial⟩] })

/- The headers of as many bits as the packet says. -/
def readHeaders (fuel : Nat) (data : List Byte)
    (AU_headers_length : Nat) : Result (List AUHeader) :=
  Result.loop (fun _ => params.headerTurn) fuel ⟨.create data, AU_headers_length, 0, []⟩

end ElementaryParams

--
-- Access Units
--

/- The header of seven bytes in front of a frame. -/
def adtsHeader (profile samplingFreqIndex channelConfig frameLength : Nat) : List Byte :=
  [0xff, 0xf1, BitVec.ofNat 8 (profile * 64 + samplingFreqIndex * 4 + channelConfig / 4),
    BitVec.ofNat 8 (channelConfig % 4 * 64 + frameLength / 2048), BitVec.ofNat 8 (frameLength / 8),
    BitVec.ofNat 8 (frameLength % 8 * 32), 0x00]

/- `MakeADTSCompoundFromAACFrames`. -/
def adtsCompound (profile samplingFreqIndex channelConfig : Nat)
    (frames : List ABuffer) : List Byte :=
  frames.flatMap fun nal =>
    adtsHeader profile samplingFreqIndex channelConfig (nal.size + 7) ++ nal.data

/-
  One access unit for each header. `false` is a malformed packet; the units in front of it are
  already there.
-/
def takeUnits (buffer : ABuffer) : List AUHeader → Nat → List ABuffer → Bool × List ABuffer
| [], _, mPackets => (true, mPackets)
| header :: headers, offset, mPackets =>
  if buffer.size < offset + header.mSize then (false, mPackets)
  else
    let accessUnit := ABuffer.CopyTimes ((buffer.data.drop offset).take header.mSize) buffer
    takeUnits buffer headers (offset + header.mSize) (mPackets ++ [accessUnit])

namespace ElementaryParams

variable (params : ElementaryParams)

/- Where the access units of a packet begin. -/
def skipAuxiliary (data : List Byte) (offset : Nat) : Result Nat :=
  let length := params.mAuxiliaryDataSizeLength
  if 0 < length then
    (Result.ofOption
      ((ABitReader.create (data.drop offset)).getBits length)).bind fun (auxSize, _) =>
          .returns (offset + (length + auxSize + 7) % 2 ^ 32 / 8)
  else .returns offset

/- The access units of a generic packet. -/
def readUnits (fuel : Nat) (buffer : ABuffer) (mPackets : List ABuffer) :
    Result (Bool × List ABuffer) :=
  match buffer.data with
  | high :: low :: data =>
    let AU_headers_length := high.toNat * 256 + low.toNat
    let offset := 2 + (AU_headers_length + 7) / 8
    if buffer.size < offset then .returns (false, mPackets)
    else (params.readHeaders fuel data AU_headers_length).bind fun headers =>
          (params.skipAuxiliary buffer.data offset).bind fun offset =>
              .returns (takeUnits buffer headers offset mPackets)
  | _ => .returns (false, mPackets)

end ElementaryParams

end RTP

--
-- Assembler
--

namespace RTP

structure AMPEG4ElementaryAssembler where
  params : ElementaryParams
  expected : Expected
  mAccessUnitRTPTime : Nat
  mAccessUnitDamaged : Bool
  mPackets : List ABuffer
  posted : List AccessUnit
deriving DecidableEq, Repr

namespace AMPEG4ElementaryAssembler

/- The low complexity profile has the number one. -/
def submitAccessUnit (s : AMPEG4ElementaryAssembler) : Result AMPEG4ElementaryAssembler :=
  match s.mPackets with
  | [] => .aborts
  | first :: more =>
    let data :=
      if s.params.mIsGeneric then
        adtsCompound 1 s.params.mSampleRateIndex s.params.mChannelConfig (first :: more)
      else compound (first :: more)
    let accessUnit := ABuffer.CopyTimes data first
    .returns
      { s with
        mPackets := [],
        mAccessUnitDamaged := false,
        posted := s.posted ++ [⟨accessUnit, s.mAccessUnitDamaged⟩] }

def addPacket (fuel : Nat) (s : AMPEG4ElementaryAssembler) (queue : List ABuffer) :
    Result (AssemblyStatus × AMPEG4ElementaryAssembler × List ABuffer) :=
  match front s.expected queue with
  | .stop status queue => .returns (status, s, queue)
  | .packet expected buffer rest =>
    (if s.mPackets ≠ [] ∧ buffer.rtpTime ≠ s.mAccessUnitRTPTime then s.submitAccessUnit
    else .returns s).bind fun s =>
      let s :=
        { s with
          expected := expected,
          mAccessUnitRTPTime := buffer.rtpTime }
      (if s.params.mIsGeneric then s.params.readUnits fuel buffer s.mPackets
      else .returns (true, s.mPackets ++ [buffer])).bind fun (success, mPackets) =>
          let s := { s with mPackets := mPackets }
          if success then .returns (.OK, { s with expected := s.expected.next }, rest)
          else .returns (.MALFORMED_PACKET, s, buffer :: rest)

def assembleMore (fuel : Nat) (s : AMPEG4ElementaryAssembler) (queue : List ABuffer) :
    Result (AssemblyStatus × AMPEG4ElementaryAssembler × List ABuffer) :=
  (s.addPacket fuel queue).bind fun (status, s, queue) =>
    .returns
      (status, if status = .MALFORMED_PACKET then { s with mAccessUnitDamaged := true }
        else s, queue)

def packetLost (s : AMPEG4ElementaryAssembler) : Result AMPEG4ElementaryAssembler :=
  s.expected.packetLost.bind fun expected =>
    .returns
      { s with
        expected := expected, mAccessUnitDamaged := true }

def assembler : Assembler AMPEG4ElementaryAssembler :=
  ⟨assembleMore, packetLost⟩

end AMPEG4ElementaryAssembler

end RTP

end FrameworksAv
