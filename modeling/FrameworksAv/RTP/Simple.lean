import FrameworksAv.RTP.Assembler

/-
  `AMPEG4AudioAssembler` (media/libstagefright/rtsp).

  The framing of an access unit is removed when its time is over; the framing is checked, not
  parsed.

  `AAMRAssembler` and `AH263Assembler` (media/libstagefright/rtsp).

  Both erase the packet at the front of the queue whatever is in it.

  `AAVCAssembler` (media/libstagefright/rtsp).

  NAL units are collected until their time changes; then they are posted as one access unit.

  Main declarations:
    * `StreamMuxConfig`
    * `removeLATMFraming`
    * `AAVCAssembler.scanFragments`
    * `AAVCAssembler.addNALUnit`
-/

--
-- Framing
--

namespace FrameworksAv

namespace RTP

/- What was read from the session description. -/
structure StreamMuxConfig where
  mMuxConfigPresent : Bool
  mNumSubFrames : Nat
  mFrameLengthType : Nat
  mFixedFrameLength : Int
  mOtherDataPresent : Bool
  mOtherDataLenBits : Nat
deriving DecidableEq, Repr

namespace StreamMuxConfig

/- A length in as many bytes as it takes. -/
def readSlotLength : List Byte → Result (Nat × List Byte)
| [] => .aborts
| tmp :: data =>
  if tmp = 255 then (readSlotLength data).bind fun (length, data) =>
      .returns (255 + length, data)
  else .returns (tmp.toNat, data)

def readPayloadLength (config : StreamMuxConfig) (data : List Byte) : Result (Nat × List Byte) :=
  if config.mFrameLengthType = 0 then readSlotLength data
  else if config.mFrameLengthType = 2 then .aborts
  else .check (0 ≤ config.mFixedFrameLength) (.returns (config.mFixedFrameLength.toNat, data))

def skipOtherData (config : StreamMuxConfig) (data : List Byte) : Result (List Byte) :=
  if config.mOtherDataPresent then
    .check (config.mOtherDataLenBits % 8 = 0)
      (.check (config.mOtherDataLenBits / 8 ≤ data.length)
        (.returns (data.drop (config.mOtherDataLenBits / 8))))
  else .returns data

/- One turn for each subframe. -/
def removeSubFrames (config : StreamMuxConfig) : Nat → List Byte → Result (List Byte)
| 0, _ => .returns []
| turns + 1, data =>
  (config.readPayloadLength data).bind fun (payloadLength, data) =>
      .check (data ≠ [])
        (.check (payloadLength ≤ data.length)
          ((config.skipOtherData (data.drop payloadLength)).bind fun behind =>
              (config.removeSubFrames turns behind).bind fun out =>
                  .returns (data.take payloadLength ++ out)))

end StreamMuxConfig

/- Data behind the last subframe is ignored. -/
def removeLATMFraming (config : StreamMuxConfig) (data : List Byte) : Result (List Byte) :=
  .check (config.mMuxConfigPresent = false) (config.removeSubFrames (config.mNumSubFrames + 1) data)

--
-- Assembler
--

structure AMPEG4AudioAssembler where
  config : StreamMuxConfig
  expected : Expected
  mAccessUnitRTPTime : Nat
  mAccessUnitDamaged : Bool
  mPackets : List ABuffer
  posted : List AccessUnit
deriving DecidableEq, Repr

namespace AMPEG4AudioAssembler

def submitAccessUnit (s : AMPEG4AudioAssembler) : Result AMPEG4AudioAssembler :=
  match s.mPackets with
  | [] => .aborts
  | first :: more =>
    (removeLATMFraming s.config (compound (first :: more))).bind fun data =>
        let accessUnit := ABuffer.CopyTimes data first
        .returns
          { s with
            mPackets := [],
            mAccessUnitDamaged := false,
            posted := s.posted ++ [⟨accessUnit, s.mAccessUnitDamaged⟩] }

def addPacket (s : AMPEG4AudioAssembler) (queue : List ABuffer) :
    Result (AssemblyStatus × AMPEG4AudioAssembler × List ABuffer) :=
  match front s.expected queue with
  | .stop status queue => .returns (status, s, queue)
  | .packet expected buffer rest =>
    (if s.mPackets ≠ [] ∧ buffer.rtpTime ≠ s.mAccessUnitRTPTime then s.submitAccessUnit
    else .returns s).bind fun s =>
      .returns
        (.OK,
          { s with
            expected := expected.next,
            mAccessUnitRTPTime := buffer.rtpTime,
            mPackets := s.mPackets ++ [buffer] }, rest)

def assembleMore (s : AMPEG4AudioAssembler) (queue : List ABuffer) :
    Result (AssemblyStatus × AMPEG4AudioAssembler × List ABuffer) :=
  (s.addPacket queue).bind fun (status, s, queue) =>
    .returns
      (status, if status = .MALFORMED_PACKET then { s with mAccessUnitDamaged := true }
        else s, queue)

def packetLost (s : AMPEG4AudioAssembler) : Result AMPEG4AudioAssembler :=
  s.expected.packetLost.bind fun expected =>
    .returns
      { s with
        expected := expected, mAccessUnitDamaged := true }

def assembler : Assembler AMPEG4AudioAssembler :=
  ⟨fun _ => assembleMore, packetLost⟩

end AMPEG4AudioAssembler

--
-- AMR
--

structure AAMRAssembler where
  mIsWide : Bool
  expected : Expected
  posted : List AccessUnit
deriving DecidableEq, Repr

namespace AAMRAssembler

def kFrameSizeNB : List Nat :=
  [95, 103, 118, 134, 148, 159, 204, 244, 39]

def kFrameSizeWB : List Nat :=
  [132, 177, 253, 285, 317, 365, 397, 461, 477, 40]

/- Bits are rounded up to bytes, with the header byte. -/
def getFrameSize (isWide : Bool) (FT : Nat) : Nat :=
  if FT = 15 then 1
  else
    let sizes := if isWide then kFrameSizeWB else kFrameSizeNB
    (sizes.getD FT 0 + 7) / 8 + 1

def frameType (toc : Byte) : Nat :=
  toc.toNat / 8 % 16

/- The table of contents, and what is behind it. -/
def readTOC (isWide : Bool) : List Byte → Option (List Byte × List Byte)
| [] => none
| toc :: data =>
  let FT := frameType toc
  if toc.toNat % 4 ≠ 0 ∨ (isWide = true ∧ 9 < FT ∧ FT ≠ 15) ∨
      (isWide = false ∧ 8 < FT ∧ FT ≠ 15) then none
  else if toc.toNat / 128 = 0 then some ([toc], data)
  else (readTOC isWide data).map fun (tocs, data) =>
      (toc :: tocs, data)

/- Every frame behind its entry of the table. -/
def readFrames (isWide : Bool) : List Byte → List Byte → Option (List Byte)
| [], _ => some []
| toc :: tocs, data =>
  let frameSize := getFrameSize isWide (frameType toc)
  if data.length < frameSize - 1 then none
  else (readFrames isWide tocs (data.drop (frameSize - 1))).map fun frames =>
        toc :: data.take (frameSize - 1) ++ frames

/- `none` is a malformed packet. -/
def readPacket (isWide : Bool) (data : List Byte) : Option (List Byte) :=
  if data.length < 1 then none
  else (readTOC isWide (data.drop 1)).bind fun (tocs, data) =>
      readFrames isWide tocs data

def addPacket (s : AAMRAssembler) (queue : List ABuffer) :
    Result (AssemblyStatus × AAMRAssembler × List ABuffer) :=
  match front s.expected queue with
  | .stop status queue => .returns (status, s, queue)
  | .packet expected buffer rest =>
    let erased := { s with expected := expected.next }
    match readPacket s.mIsWide buffer.data with
    | none => .returns (.MALFORMED_PACKET, erased, rest)
    | some frames =>
      let accessUnit := ABuffer.CopyTimes frames buffer
      .returns
        (.OK,
          { erased with
            posted := s.posted ++ [⟨accessUnit, false⟩] },
          rest)

def packetLost (s : AAMRAssembler) : Result AAMRAssembler :=
  s.expected.packetLost.bind fun expected =>
    .returns { s with expected := expected }

def assembler : Assembler AAMRAssembler :=
  ⟨fun _ => addPacket, packetLost⟩

end AAMRAssembler

--
-- H.263
--

structure AH263Assembler where
  expected : Expected
  mAccessUnitRTPTime : Nat
  mAccessUnitDamaged : Bool
  mPackets : List ABuffer
  posted : List AccessUnit
deriving DecidableEq, Repr

namespace AH263Assembler

def submitAccessUnit (s : AH263Assembler) : Result AH263Assembler :=
  match s.mPackets with
  | [] => .aborts
  | first :: more =>
    let accessUnit := ABuffer.CopyTimes ((first :: more).flatMap ABuffer.data) first
    .returns
      { s with
        mPackets := [],
        mAccessUnitDamaged := false,
        posted := s.posted ++ [⟨accessUnit, s.mAccessUnitDamaged⟩] }

/- The payload of a packet; `none` is a malformed one. -/
def readPayload : List Byte → Option (List Byte)
| high :: low :: data =>
  let payloadHeader := high.toNat * 256 + low.toNat
  let P := payloadHeader / 1024 % 2
  let V := payloadHeader / 512 % 2
  let PLEN := payloadHeader / 8 % 64
  let PEBIT := payloadHeader % 8
  if V ≠ 0 ∨ PLEN ≠ 0 ∨ PEBIT ≠ 0 then none
  else if P = 1 then some (0 :: 0 :: data)
  else some data
| _ => none

def addPacket (s : AH263Assembler) (queue : List ABuffer) :
    Result (AssemblyStatus × AH263Assembler × List ABuffer) :=
  match front s.expected queue with
  | .stop status queue => .returns (status, s, queue)
  | .packet expected buffer rest =>
    (if s.mPackets ≠ [] ∧ buffer.rtpTime ≠ s.mAccessUnitRTPTime then s.submitAccessUnit
    else .returns s).bind fun s =>
      let s :=
        { s with
          expected := expected.next,
          mAccessUnitRTPTime := buffer.rtpTime }
      match readPayload buffer.data with
      | none => .returns (.MALFORMED_PACKET, s, rest)
      | some data =>
        .returns
          (.OK,
            { s with
              mPackets := s.mPackets ++ [{ buffer with data := data }] }, rest)

def assembleMore (s : AH263Assembler) (queue : List ABuffer) :
    Result (AssemblyStatus × AH263Assembler × List ABuffer) :=
  (s.addPacket queue).bind fun (status, s, queue) =>
    .returns
      (status, if status = .MALFORMED_PACKET then { s with mAccessUnitDamaged := true }
        else s, queue)

def packetLost (s : AH263Assembler) : Result AH263Assembler :=
  s.expected.packetLost.bind fun expected =>
    .returns
      { s with
        expected := expected, mAccessUnitDamaged := true }

def assembler : Assembler AH263Assembler :=
  ⟨fun _ => assembleMore, packetLost⟩

end AH263Assembler

--
-- NAL Units
--

/- `posted` are the access units so far, in their order. -/
structure AAVCAssembler where
  expected : Expected
  mAccessUnitRTPTime : Nat
  mAccessUnitDamaged : Bool
  mNALUnits : List ABuffer
  posted : List AccessUnit
deriving DecidableEq, Repr

namespace AAVCAssembler

def new : AAVCAssembler := ⟨.new, 0, false, [], []⟩

/- Every NAL unit with a start code in front of it. -/
def startCoded (units : List ABuffer) : List Byte :=
  units.flatMap (fun unit => [0, 0, 0, 1] ++ unit.data)

def submitAccessUnit (s : AAVCAssembler) : Result AAVCAssembler :=
  match s.mNALUnits with
  | [] => .aborts
  | first :: more =>
    let accessUnit := ABuffer.CopyTimes (startCoded (first :: more)) first
    .returns
      { s with
        mNALUnits := [],
        mAccessUnitDamaged := false,
        posted := s.posted ++ [⟨accessUnit, s.mAccessUnitDamaged⟩] }

def addSingleNALUnit (s : AAVCAssembler) (buffer : ABuffer) : Result AAVCAssembler :=
  (if s.mNALUnits ≠ [] ∧ buffer.rtpTime ≠ s.mAccessUnitRTPTime then s.submitAccessUnit
  else .returns s).bind fun s =>
    .returns
      { s with
        mAccessUnitRTPTime := buffer.rtpTime,
        mNALUnits := s.mNALUnits ++ [buffer] }

/- One NAL unit of an aggregation packet. -/
def aggregationTurn (buffer : ABuffer) (s : AAVCAssembler × List Byte) :
    Result ((AAVCAssembler × List Byte) ⊕ (Bool × AAVCAssembler)) :=
  match s with
  | (s, high :: low :: data) =>
    let nalSize := high.toNat * 256 + low.toNat
    if data.length < nalSize then .returns (.inr (false, s))
    else
      let unit := ABuffer.CopyTimes (data.take nalSize) buffer
      (s.addSingleNALUnit unit).bind fun s =>
        .returns (.inl (s, data.drop nalSize))
  | (s, _) => .returns (.inr (true, s))

def addSingleTimeAggregationPacket (fuel : Nat) (s : AAVCAssembler) (buffer : ABuffer) :
    Result (Bool × AAVCAssembler) :=
  if buffer.size < 3 then .returns (false, s)
  else Result.loop (fun _ => aggregationTurn buffer) fuel (s, buffer.data.drop 1)

--
-- Fragments
--

inductive FragmentScan
| wrongSequence
| malformed (expectedSeqNo totalCount : Nat)
| incomplete
| complete (expectedSeqNo totalCount : Nat)
deriving DecidableEq, Repr

/- The packets behind the first fragment. -/
def scanFragments (indicator : Byte) (nalType : Nat) (expectedSeqNo totalCount : Nat) :
    List ABuffer → FragmentScan
| [] => .incomplete
| buffer :: rest =>
  if buffer.int32Data ≠ expectedSeqNo then .wrongSequence
  else
    match buffer.data with
    | data0 :: data1 :: _ =>
      if data0 ≠ indicator ∨ data1.toNat % 32 ≠ nalType ∨ data1.toNat / 128 = 1 then
        .malformed expectedSeqNo totalCount
      else if data1.toNat / 64 % 2 = 1 then .complete (increment expectedSeqNo) (totalCount + 1)
      else scanFragments indicator nalType (increment expectedSeqNo) (totalCount + 1) rest
    | _ => .malformed expectedSeqNo totalCount

/- The queue starts with `buffer`. -/
def addFragmentedNALUnit (s : AAVCAssembler) (buffer : ABuffer) (rest : List ABuffer) :
    Result (AssemblyStatus × AAVCAssembler × List ABuffer) :=
  match buffer.data with
  | [] => .aborts
  | [data0] =>
    .check (data0.toNat % 32 = 28)
      (.returns (.MALFORMED_PACKET, { s with expected := s.expected.next }, rest))
  | data0 :: data1 :: _ =>
    .check (data0.toNat % 32 = 28)
      (if data1.toNat / 128 = 0 then
        .returns (.MALFORMED_PACKET, { s with expected := s.expected.next }, rest)
      else
        let nalType := data1.toNat % 32
        let nri := data0.toNat / 32 % 4
        let expectedSeqNo := increment buffer.int32Data
        let scan := if data1.toNat / 64 % 2 = 1 then .complete expectedSeqNo 1
          else scanFragments data0 nalType expectedSeqNo 1 rest
        match scan with
        | .wrongSequence => .returns (.WRONG_SEQUENCE_NUMBER, s, buffer :: rest)
        | .malformed expectedSeqNo totalCount =>
          .returns
            (.MALFORMED_PACKET,
              { s with
                expected :=
                  { s.expected with
                    mNextExpectedSeqNo := increment expectedSeqNo } },
              (buffer :: rest).drop (totalCount + 1))
        | .incomplete => .returns (.NOT_ENOUGH_DATA, s, buffer :: rest)
        | .complete expectedSeqNo totalCount =>
          let s :=
            { s with
              expected :=
                { s.expected with
                  mNextExpectedSeqNo := expectedSeqNo } }
          let header := BitVec.ofNat 8 (nri * 32 + nalType)
          let pieces := ((buffer :: rest).take totalCount).flatMap (fun piece => piece.data.drop 2)
          let unit := ABuffer.CopyTimes (header :: pieces) buffer
          (s.addSingleNALUnit unit).bind fun s =>
            .returns (.OK, s, (buffer :: rest).drop totalCount))

--
-- Assembler
--

/- The packet that was expected, and the queue behind it. -/
def addPacket (fuel : Nat) (s : AAVCAssembler) (buffer : ABuffer) (rest : List ABuffer) :
    Result (AssemblyStatus × AAVCAssembler × List ABuffer) :=
  let erased := { s with expected := s.expected.next }
  match buffer.data with
  | [] => .returns (.MALFORMED_PACKET, erased, rest)
  | data0 :: _ =>
    let nalType := data0.toNat % 32
    if data0.toNat / 128 = 1 then .returns (.MALFORMED_PACKET, erased, rest)
    else if 1 ≤ nalType ∧ nalType ≤ 23 then (s.addSingleNALUnit buffer).bind fun s =>
        .returns (.OK, { s with expected := s.expected.next }, rest)
    else if nalType = 28 then s.addFragmentedNALUnit buffer rest
    else if nalType = 24 then
      (s.addSingleTimeAggregationPacket fuel buffer).bind fun (success, s) =>
          .returns
            (if success then .OK else .MALFORMED_PACKET,
              { s with expected := s.expected.next }, rest)
    else if nalType = 0 then .returns (.OK, erased, rest)
    else .returns (.MALFORMED_PACKET, erased, rest)

def addNALUnit (fuel : Nat) (s : AAVCAssembler) (queue : List ABuffer) :
    Result (AssemblyStatus × AAVCAssembler × List ABuffer) :=
  match front s.expected queue with
  | .stop status queue => .returns (status, s, queue)
  | .packet expected buffer rest => addPacket fuel { s with expected := expected } buffer rest

def assembleMore (fuel : Nat) (s : AAVCAssembler) (queue : List ABuffer) :
    Result (AssemblyStatus × AAVCAssembler × List ABuffer) :=
  (s.addNALUnit fuel queue).bind fun (status, s, queue) =>
    .returns
      (status, if status = .MALFORMED_PACKET then { s with mAccessUnitDamaged := true }
        else s, queue)

def packetLost (s : AAVCAssembler) : Result AAVCAssembler :=
  s.expected.packetLost.bind fun expected =>
    .returns
      { s with
        expected := expected, mAccessUnitDamaged := true }

def assembler : Assembler AAVCAssembler :=
  ⟨assembleMore, packetLost⟩

end AAVCAssembler

end RTP

end FrameworksAv
