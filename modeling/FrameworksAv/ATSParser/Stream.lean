import FrameworksAv.ATSParser.Parse
import FrameworksAv.Base.KeyedVector

/-
  `ATSParser::Stream`, which puts PES packets together from the payloads of transport packets and
  takes them apart (media/libstagefright/mpeg2ts/ATSParser.cpp).

  What `onPayloadData` is given goes to the queue of the stream; the queue itself is not modelled
  here.

  `ATSParser::Program`: the streams of a program and the map that they come from
  (media/libstagefright/mpeg2ts/ATSParser.cpp).

  A `sp<Stream>` is the number of its object, and `objects` are the objects.

  Main declarations:
    * `Payload`, `Stream`
    * `parsePES`
    * `readProgramMap`, `Program.parseProgramMap`
    * `Program.parsePSISection`, `Program.parsePID`
-/

--
-- PES packets
--

namespace FrameworksAv

namespace ATSParser

open Parse

/- The arguments of `onPayloadData`. -/
structure Payload where
  PTS_DTS_flags : Nat
  PTS : Nat
  DTS : Nat
  data : List Byte
deriving DecidableEq

/-
  program_stream_map, padding_stream, private_stream_2, ECM, EMM, program_stream_directory, DSMCC,
  H.222.1 type E
-/
def withoutHeader : List Nat :=
  [0xbc, 0xbe, 0xbf, 0xf0, 0xf1, 0xff, 0xf2, 0xf8]

/- 33 bits in three parts, a marker bit behind each. -/
def parseClock : Parse Nat := do
  let high ← get 3
  expect 1 1
  let middle ← get 15
  expect 1 1
  let low ← get 15
  expect 1 1
  pure (high <<< 30 ||| middle <<< 15 ||| low)

/- The DTS, and the optional bytes that remain. -/
def parseDTS (PTS_DTS_flags optional_bytes_remaining : Nat) : Parse (Nat × Nat) :=
  if PTS_DTS_flags = 3 then do
    require (5 ≤ optional_bytes_remaining)
    expect 4 1
    let DTS ← parseClock
    pure (DTS, optional_bytes_remaining - 5)
  else pure (0, optional_bytes_remaining)

/- The PTS, the DTS and the optional bytes that remain. -/
def parsePTS (PTS_DTS_flags optional_bytes_remaining : Nat) : Parse (Nat × Nat × Nat) :=
  if PTS_DTS_flags = 2 ∨ PTS_DTS_flags = 3 then do
    require (5 ≤ optional_bytes_remaining)
    expect 4 PTS_DTS_flags
    let PTS ← parseClock
    let r ← parseDTS PTS_DTS_flags (optional_bytes_remaining - 5)
    pure (PTS, r)
  else pure (0, 0, optional_bytes_remaining)

def parseESCR (ESCR_flag optional_bytes_remaining : Nat) : Parse Nat :=
  if ESCR_flag ≠ 0 then do
    require (6 ≤ optional_bytes_remaining)
    let _ ← get 2
    let _ESCR ← parseClock
    let _ESCR_extension ← get 9
    expect 1 1
    pure (optional_bytes_remaining - 6)
  else pure optional_bytes_remaining

def parseESRate (ES_rate_flag optional_bytes_remaining : Nat) : Parse Nat :=
  if ES_rate_flag ≠ 0 then do
    require (3 ≤ optional_bytes_remaining)
    expect 1 1
    let _ES_rate ← get 22
    expect 1 1
    pure (optional_bytes_remaining - 3)
  else pure optional_bytes_remaining

/- The ES data that follows the header. -/
def parseData (PES_packet_length PES_header_data_length : Nat) (PTS_DTS_flags PTS DTS : Nat) :
    Parse (Status × Option Payload) :=
  if PES_packet_length ≠ 0 then do
    require (PES_header_data_length + 3 ≤ PES_packet_length)
    let dataLength := PES_packet_length - 3 - PES_header_data_length
    let numBitsLeft ← left
    require (dataLength * 8 ≤ numBitsLeft)
    let data ← rest
    skip (dataLength * 8)
    pure (.OK, some ⟨PTS_DTS_flags, PTS, DTS, data.take dataLength⟩)
  else do
    let data ← rest
    let payloadSizeBits ← left
    pure
      (if payloadSizeBits % 8 ≠ 0 then .ERROR_MALFORMED else .OK,
        some ⟨PTS_DTS_flags, PTS, DTS, data.take (payloadSizeBits / 8)⟩)

/- The header from its first two bits on, and the data. -/
def parseHeader (PES_packet_length : Nat) : Parse (Status × Option Payload) := do
  expect 2 2
  let _PES_scrambling_control ← get 2
  let _PES_priority ← get 1
  let _data_alignment_indicator ← get 1
  let _copyright ← get 1
  let _original_or_copy ← get 1
  let PTS_DTS_flags ← get 2
  let ESCR_flag ← get 1
  let ES_rate_flag ← get 1
  let _DSM_trick_mode_flag ← get 1
  let _additional_copy_info_flag ← get 1
  let _PES_CRC_flag ← get 1
  let _PES_extension_flag ← get 1
  let PES_header_data_length ← get 8
  let (PTS, DTS, remaining) ← parsePTS PTS_DTS_flags PES_header_data_length
  let remaining ← parseESCR ESCR_flag remaining
  let remaining ← parseESRate ES_rate_flag remaining
  skip (remaining * 8)
  parseData PES_packet_length PES_header_data_length PTS_DTS_flags PTS DTS

/- The status, and what `onPayloadData` is called with. -/
def parsePES : Parse (Status × Option Payload) := do
  expect 24 1
  let stream_id ← get 8
  let PES_packet_length ← get 16
  if stream_id ∉ withoutHeader then parseHeader PES_packet_length
  else do
    require (PES_packet_length ≠ 0)
    skip (PES_packet_length * 8)
    pure (.OK, none)

end ATSParser

--
-- Streams
--

namespace ATSParser

/- The stream types that get a queue. -/
def queuedTypes : List Nat :=
  [0x01, 0x02, 0x03, 0x04, 0x0f, 0x10, 0x15, 0x1b, 0x83, 0x81]

/-
  `mExpectedContinuityCounter` is `none` for -1. The queue is what `onPayloadData` was called with,
  or `none` for `NULL`.
-/
structure Stream where
  mElementaryPID : Nat
  mStreamType : Nat
  mPCR_PID : Nat
  mExpectedContinuityCounter : Option Nat
  mBuffer : List Byte
  mPayloadStarted : Bool
  mQueue : Option (List Payload)
deriving DecidableEq

namespace Stream

def new (elementaryPID streamType PCR_PID : Nat) : Stream where
  mElementaryPID := elementaryPID
  mStreamType := streamType
  mPCR_PID := PCR_PID
  mExpectedContinuityCounter := none
  mBuffer := []
  mPayloadStarted := false
  mQueue := if streamType ∈ queuedTypes then some [] else none

def setPID (s : Stream) (pid : Nat) : Stream :=
  { s with mElementaryPID := pid }

def onPayloadData (s : Stream) (payload : Option Payload) : Stream :=
  { s with mQueue := s.mQueue.map (· ++ payload.toList) }

def flush (s : Stream) : Checked (Status × Stream) :=
  if s.mBuffer = [] then pure (.OK, s)
  else do
    let (result, _) ← parsePES.run (ABitReader.create s.mBuffer)
    match result with
    | none => pure (.ERROR_MALFORMED, { s with mBuffer := [] })
    | some (status, payload) => pure (status, { s.onPayloadData payload with mBuffer := [] })

/- Whether packets have been lost before this one. -/
def discontinuity (s : Stream) (continuity_counter : Nat) : Bool :=
  s.mExpectedContinuityCounter.any (· ≠ continuity_counter)

def startOver (s : Stream) : Stream :=
  { s with
    mPayloadStarted := false
    mBuffer := []
    mExpectedContinuityCounter := none }

/- The start of a PES packet, with that before it flushed. -/
def start (s : Stream) (payload_unit_start_indicator : Bool) : Checked Stream :=
  if payload_unit_start_indicator then
    (if s.mPayloadStarted then s.flush else pure (.OK, s)) >>=
      fun r => pure { r.2 with mPayloadStarted := true }
  else pure s

/- The payload of a packet, unless none has started. -/
def take (s : Stream) (br : ABitReader) : Status × Stream :=
  if s.mPayloadStarted then if br.numBitsLeft % 8 ≠ 0 then (.BAD_VALUE, s)
    else
      (.OK,
        { s with
          mBuffer := s.mBuffer ++ br.data.take (br.numBitsLeft / 8) })
  else (.OK, s)

def parse (s : Stream) (continuity_counter : Nat) (payload_unit_start_indicator : Bool)
    (br : ABitReader) : Checked (Status × Stream) :=
  if s.mQueue = none then pure (.OK, s)
  else
    let lost := s.discontinuity continuity_counter
    let s := if lost then s.startOver else s
    if lost ∧ payload_unit_start_indicator = false then pure (.OK, s)
    else do
      let s ←
        start
          { s with
            mExpectedContinuityCounter := some ((continuity_counter + 1) % 16) }
          payload_unit_start_indicator
      pure (s.take br)

end Stream

--
-- Programs
--

open Parse

structure StreamInfo where
  mType : Nat
  mPID : Nat
deriving DecidableEq

/- `made` is the number of the next object. -/
structure Program where
  mProgramNumber : Nat
  mProgramMapPID : Nat
  mStreams : KeyedVector Nat Nat
  objects : Nat → Stream
  made : Nat

/- The PIDs of a type, in the order they were pushed. -/
abbrev TypePIDs := KeyedVector Nat (List Nat)

def TypePIDs.push (m : TypePIDs) (type pid : Nat) : TypePIDs :=
  m.add type ((m.lookup type).getD [] ++ [pid])

namespace Program

def new (programNumber programMapPID : Nat) : Program where
  mProgramNumber := programNumber
  mProgramMapPID := programMapPID
  mStreams := KeyedVector.empty
  objects := fun _ => Stream.new 0 0 0
  made := 0

def updateProgramMapPID (p : Program) (programMapPID : Nat) : Program :=
  { p with mProgramMapPID := programMapPID }

variable (p : Program)

def type (s : Nat) : Nat := (p.objects s).mStreamType

def pid (s : Nat) : Nat := (p.objects s).mElementaryPID

def setObject (s : Nat) (stream : Stream) : Program :=
  { p with objects := Function.update p.objects s stream }

def oldType2PIDs : TypePIDs :=
  p.mStreams.entries.foldl (fun m e => m.push (p.type e.2) (p.pid e.2)) KeyedVector.empty

def newType2PIDs (infos : List StreamInfo) : TypePIDs :=
  infos.foldl (fun m info => m.push info.mType info.mPID) KeyedVector.empty

/- The number of streams of each type has not changed. -/
def sameCounts (old new : TypePIDs) : Bool :=
  old.entries.length = new.entries.length ∧
    (old.entries.zip new.entries).all
      (fun e =>
        e.1.1 = e.2.1 ∧ e.1.2.length = e.2.2.length)

/- The saved streams are added again, with the new PIDs. -/
def addBack : List (Nat × Nat) → TypePIDs → Program → Bool × Program
| [], _, p => (true, p)
| (_, s) :: temp, newType2PIDs, p =>
  match newType2PIDs.lookup (p.type s) with
  | none => (false, p)
  | some [] => (false, p)
  | some (pid :: newPIDs) =>
    let q := p.setObject s ((p.objects s).setPID pid)
    addBack temp (newType2PIDs.add (p.type s) newPIDs)
      { q with mStreams := q.mStreams.add (q.pid s) s }

def switchPIDs (infos : List StreamInfo) : Bool × Program :=
  if p.mStreams.entries.length = infos.length ∧ sameCounts p.oldType2PIDs (newType2PIDs infos) then
    addBack p.mStreams.entries (newType2PIDs infos) { p with mStreams := KeyedVector.empty }
  else (false, p)

/- A PID has a stream of another type. -/
def pidsChanged (infos : List StreamInfo) : Bool :=
  infos.any
    (fun info =>
      (p.mStreams.lookup info.mPID).any (fun s => p.type s ≠ info.mType))

/- A new stream, unless the PID has one. -/
def addStream (PCR_PID : Nat) (info : StreamInfo) : Program :=
  match p.mStreams.lookup info.mPID with
  | some _ => p
  | none =>
    { p with
      mStreams := p.mStreams.add info.mPID p.made
      objects := Function.update p.objects p.made (Stream.new info.mPID info.mType PCR_PID)
      made := p.made + 1 }

def addStreams (PCR_PID : Nat) (infos : List StreamInfo) : Program :=
  infos.foldl (fun p info => p.addStream PCR_PID info) p

/- `parseProgramMap` after the section is read. -/
def updateStreams (PCR_PID : Nat) (infos : List StreamInfo) : Status × Program :=
  if p.pidsChanged infos then
    match p.switchPIDs infos with
    | (true, p) => (.OK, p.addStreams PCR_PID infos)
    | (false, p) => (.ERROR_MALFORMED, p)
  else (.OK, p.addStreams PCR_PID infos)

end Program

--
-- Program maps
--

/-
  The descriptors of a stream. Each turn reads bits, so the number of bits left is more than the
  number of turns.
-/
def parseDescriptors : Nat → Nat → Parse Unit
| turns, info_bytes_remaining =>
  if info_bytes_remaining < 2 then pure ()
  else
    match turns with
    | 0 => fail
    | turns + 1 => do
        let _tag ← get 8
        let descLength ← get 8
        require (descLength ≤ info_bytes_remaining)
        skip (descLength * 8)
        let info_bytes_remaining ← minus (info_bytes_remaining - (descLength + 2)) 32
        parseDescriptors turns info_bytes_remaining

def parseStreamInfos : Nat → Nat → List StreamInfo → Parse (List StreamInfo)
| turns, infoBytesRemaining, infos =>
  if infoBytesRemaining < 5 then pure infos
  else
    match turns with
    | 0 => fail
    | turns + 1 => do
        let streamType ← get 8
        let _reserved ← get 3
        let elementaryPID ← get 13
        let _reserved ← get 4
        let ES_info_length ← get 12
        let numBitsLeft ← left
        parseDescriptors numBitsLeft ES_info_length
        let infoBytesRemaining ← minus (infoBytesRemaining - (5 + ES_info_length)) 64
        parseStreamInfos turns infoBytesRemaining (infos ++ [⟨streamType, elementaryPID⟩])

/- The PCR PID and the streams of a program map section. -/
def readProgramMap : Parse (Nat × List StreamInfo) := do
  let table_id ← get 8
  require (table_id = 0x02)
  let section_syntax_indicator ← get 1
  require (section_syntax_indicator = 1)
  skip 1
  let _reserved ← get 2
  let section_length ← get 12
  let _program_number ← get 16
  let _reserved ← get 2
  let _version_number ← get 5
  let _current_next_indicator ← get 1
  let _section_number ← get 8
  let _last_section_number ← get 8
  let _reserved ← get 3
  let PCR_PID ← get 13
  let _reserved ← get 4
  let program_info_length ← get 12
  skip (program_info_length * 8)
  let infoBytesRemaining ← minus (section_length - 9 - program_info_length - 4) 32
  let numBitsLeft ← left
  let infos ← parseStreamInfos numBitsLeft infoBytesRemaining []
  let _CRC ← get 32
  pure (PCR_PID, infos)

namespace Program

variable (p : Program)

def parseProgramMap : Parse (Status × Program) := do
  let (PCR_PID, infos) ← readProgramMap
  pure (p.updateStreams PCR_PID infos)

/- The result is `none` where the source returns `false`. -/
def parsePSISection (pid : Nat) (sectionBits : ABitReader) : Checked (Option (Status × Program)) :=
  if pid ≠ p.mProgramMapPID then pure none
  else do
    let (result, _) ← p.parseProgramMap.run sectionBits
    match result with
    | none => pure (some (.ERROR_MALFORMED, p))
    | some next => pure (some next)

/- The result is `none` where the source returns `false`. -/
def parsePID (pid continuity_counter : Nat) (payload_unit_start_indicator : Bool)
    (br : ABitReader) : Checked (Option (Status × Program)) :=
  match p.mStreams.lookup pid with
  | none => pure none
  | some s => do
      let (err, stream) ← (p.objects s).parse continuity_counter payload_unit_start_indicator br
      pure (some (err, p.setObject s stream))

end Program

end ATSParser

end FrameworksAv
