import FrameworksAv.ATSParser.Stream
import FrameworksAv.Base.Crc

/-
  `ATSParser::PSISection`, which puts a section together from the payloads of its packets
  (media/libstagefright/mpeg2ts/ATSParser.cpp).

  The loop of `isCRCOkay` may read behind the section, so what memory holds there is a parameter.

  `ATSParser`: transport packets, the sections and the streams that they carry
  (media/libstagefright/mpeg2ts/ATSParser.cpp).

  Every call is given what memory holds behind the buffer of a section. `updatePCR` only keeps
  numbers for a log line.

  Main declarations:
    * `CRC_TABLE`, `crcOf`
    * `PSISection`
    * `Parser.parsePID`
    * `readTS`, `Parser.parseTS`
-/

--
-- Checksums
--

namespace FrameworksAv

namespace ATSParser

def CRC_TABLE : List (BitVec 32) :=
  [ 0x00000000, 0x04c11db7, 0x09823b6e, 0x0d4326d9, 0x130476dc, 0x17c56b6b, 0x1a864db2, 0x1e475005,
    0x2608edb8, 0x22c9f00f, 0x2f8ad6d6, 0x2b4bcb61, 0x350c9b64, 0x31cd86d3, 0x3c8ea00a, 0x384fbdbd,
    0x4c11db70, 0x48d0c6c7, 0x4593e01e, 0x4152fda9, 0x5f15adac, 0x5bd4b01b, 0x569796c2, 0x52568b75,
    0x6a1936c8, 0x6ed82b7f, 0x639b0da6, 0x675a1011, 0x791d4014, 0x7ddc5da3, 0x709f7b7a, 0x745e66cd,
    0x9823b6e0, 0x9ce2ab57, 0x91a18d8e, 0x95609039, 0x8b27c03c, 0x8fe6dd8b, 0x82a5fb52, 0x8664e6e5,
    0xbe2b5b58, 0xbaea46ef, 0xb7a96036, 0xb3687d81, 0xad2f2d84, 0xa9ee3033, 0xa4ad16ea, 0xa06c0b5d,
    0xd4326d90, 0xd0f37027, 0xddb056fe, 0xd9714b49, 0xc7361b4c, 0xc3f706fb, 0xceb42022, 0xca753d95,
    0xf23a8028, 0xf6fb9d9f, 0xfbb8bb46, 0xff79a6f1, 0xe13ef6f4, 0xe5ffeb43, 0xe8bccd9a, 0xec7dd02d,
    0x34867077, 0x30476dc0, 0x3d044b19, 0x39c556ae, 0x278206ab, 0x23431b1c, 0x2e003dc5, 0x2ac12072,
    0x128e9dcf, 0x164f8078, 0x1b0ca6a1, 0x1fcdbb16, 0x018aeb13, 0x054bf6a4, 0x0808d07d, 0x0cc9cdca,
    0x7897ab07, 0x7c56b6b0, 0x71159069, 0x75d48dde, 0x6b93dddb, 0x6f52c06c, 0x6211e6b5, 0x66d0fb02,
    0x5e9f46bf, 0x5a5e5b08, 0x571d7dd1, 0x53dc6066, 0x4d9b3063, 0x495a2dd4, 0x44190b0d, 0x40d816ba,
    0xaca5c697, 0xa864db20, 0xa527fdf9, 0xa1e6e04e, 0xbfa1b04b, 0xbb60adfc, 0xb6238b25, 0xb2e29692,
    0x8aad2b2f, 0x8e6c3698, 0x832f1041, 0x87ee0df6, 0x99a95df3, 0x9d684044, 0x902b669d, 0x94ea7b2a,
    0xe0b41de7, 0xe4750050, 0xe9362689, 0xedf73b3e, 0xf3b06b3b, 0xf771768c, 0xfa325055, 0xfef34de2,
    0xc6bcf05f, 0xc27dede8, 0xcf3ecb31, 0xcbffd686, 0xd5b88683, 0xd1799b34, 0xdc3abded, 0xd8fba05a,
    0x690ce0ee, 0x6dcdfd59, 0x608edb80, 0x644fc637, 0x7a089632, 0x7ec98b85, 0x738aad5c, 0x774bb0eb,
    0x4f040d56, 0x4bc510e1, 0x46863638, 0x42472b8f, 0x5c007b8a, 0x58c1663d, 0x558240e4, 0x51435d53,
    0x251d3b9e, 0x21dc2629, 0x2c9f00f0, 0x285e1d47, 0x36194d42, 0x32d850f5, 0x3f9b762c, 0x3b5a6b9b,
    0x0315d626, 0x07d4cb91, 0x0a97ed48, 0x0e56f0ff, 0x1011a0fa, 0x14d0bd4d, 0x19939b94, 0x1d528623,
    0xf12f560e, 0xf5ee4bb9, 0xf8ad6d60, 0xfc6c70d7, 0xe22b20d2, 0xe6ea3d65, 0xeba91bbc, 0xef68060b,
    0xd727bbb6, 0xd3e6a601, 0xdea580d8, 0xda649d6f, 0xc423cd6a, 0xc0e2d0dd, 0xcda1f604, 0xc960ebb3,
    0xbd3e8d7e, 0xb9ff90c9, 0xb4bcb610, 0xb07daba7, 0xae3afba2, 0xaafbe615, 0xa7b8c0cc, 0xa379dd7b,
    0x9b3660c6, 0x9ff77d71, 0x92b45ba8, 0x9675461f, 0x8832161a, 0x8cf30bad, 0x81b02d74, 0x857130c3,
    0x5d8a9099, 0x594b8d2e, 0x5408abf7, 0x50c9b640, 0x4e8ee645, 0x4a4ffbf2, 0x470cdd2b, 0x43cdc09c,
    0x7b827d21, 0x7f436096, 0x7200464f, 0x76c15bf8, 0x68860bfd, 0x6c47164a, 0x61043093, 0x65c52d24,
    0x119b4be9, 0x155a565e, 0x18197087, 0x1cd86d30, 0x029f3d35, 0x065e2082, 0x0b1d065b, 0x0fdc1bec,
    0x3793a651, 0x3352bbe6, 0x3e119d3f, 0x3ad08088, 0x2497d08d, 0x2056cd3a, 0x2d15ebe3, 0x29d4f654,
    0xc5a92679, 0xc1683bce, 0xcc2b1d17, 0xc8ea00a0, 0xd6ad50a5, 0xd26c4d12, 0xdf2f6bcb, 0xdbee767c,
    0xe3a1cbc1, 0xe760d676, 0xea23f0af, 0xeee2ed18, 0xf0a5bd1d, 0xf464a0aa, 0xf9278673, 0xfde69bc4,
    0x89b8fd09, 0x8d79e0be, 0x803ac667, 0x84fbdbd0, 0x9abc8bd5, 0x9e7d9662, 0x933eb0bb, 0x97ffad0c,
    0xafb010b1, 0xab710d06, 0xa6322bdf, 0xa2f33668, 0xbcb4666d, 0xb8757bda, 0xb5365d03, 0xb1f740b4]

/- One turn of the loop. -/
def crcStep (crc : BitVec 32) (b : Byte) : BitVec 32 :=
  let index := (crc >>> 24).setWidth 8 ^^^ b
  CRC_TABLE.getD index.toNat 0 ^^^ crc <<< 8

/- The CRC-32 of MPEG, computed bit by bit. -/
def crcOf (bytes : List Byte) : BitVec 32 :=
  Crc.crc 0x04c11db7 0xffffffff bytes

--
-- Sections
--

/- A buffer that is `NULL` is an empty one. -/
structure PSISection where
  mBuffer : List Byte
  mSkipBytes : Nat
deriving DecidableEq

namespace PSISection

def new : PSISection := ⟨[], 0⟩

def append (s : PSISection) (data : List Byte) : PSISection :=
  { s with mBuffer := s.mBuffer ++ data }

/- The argument is converted to eight bits. -/
def setSkipBytes (s : PSISection) (skip : Nat) : PSISection :=
  { s with mSkipBytes := skip % 2 ^ 8 }

def clear (_ : PSISection) : PSISection := ⟨[], 0⟩

def isEmpty (s : PSISection) : Bool := s.mBuffer.isEmpty

variable (s : PSISection)

/- `U16_AT(mBuffer->data() + 1) & 0xfff` -/
def sectionLength : Nat :=
  ((s.mBuffer.getD 1 0).toNat * 2 ^ 8 + (s.mBuffer.getD 2 0).toNat) % 2 ^ 12

def isComplete : Bool :=
  3 ≤ s.mBuffer.length ∧ s.sectionLength + 3 ≤ s.mBuffer.length

/- The number of bytes that the loop reads. -/
def crcLength : Nat :=
  ((s.sectionLength - s.mSkipBytes + 4 : Int) % 2 ^ 32).toNat

def byteAt (memory : Memory) (i : Nat) : Byte :=
  s.mBuffer.getD i (memory i)

/- The register after the first `n` bytes. -/
def runningCRC (memory : Memory) (n : Nat) : BitVec 32 :=
  (List.range n).foldl (fun crc i => crcStep crc (s.byteAt memory i)) 0xffffffff

def isCRCOkay (memory : Memory) : Bool :=
  if s.isComplete then if (s.mBuffer.getD 1 0).getMsbD 0 = false then true
    else s.runningCRC memory s.crcLength = 0
  else false

end PSISection

--
-- What is read
--

theorem CRC_TABLE_map :
    CRC_TABLE =
      (List.range 256).map (fun i => Crc.shifts 0x04c11db7 8 (BitVec.ofNat 32 i <<< 24)) := by
  decide +kernel

theorem CRC_TABLE_eq (i : Byte) :
    CRC_TABLE.getD i.toNat 0 = Crc.shifts 0x04c11db7 8 (i.setWidth 32 <<< 24) := by
  have hLt : i.toNat < 256 := i.isLt
  rw [CRC_TABLE_map, List.getD_eq_getElem?_getD, List.getElem?_map, List.getElem?_range hLt,
    Option.map_some, Option.getD_some, BitVec.ofNat_toNat]

/- The table is that of the polynomial. -/
theorem crcStep_eq_push (crc : BitVec 32) (b : Byte) : crcStep crc b = Crc.push 0x04c11db7 crc b :=
  Eq.symm (Crc.push_eq_table (fun i => CRC_TABLE.getD i.toNat 0) CRC_TABLE_eq crc b)

namespace PSISection

variable (s : PSISection)

/- Inside the section the register is that of its bytes. -/
theorem runningCRC_inside (memory : Memory) {n : Nat} (hn : n ≤ s.mBuffer.length) :
    s.runningCRC memory n = crcOf (s.mBuffer.take n) := by
  unfold runningCRC crcOf Crc.crc
  induction n with
  | zero => rfl
  | succ n ih =>
    have hGet : s.byteAt memory n = s.mBuffer[n] := by
      unfold byteAt
      rw [List.getD_eq_getElem?_getD, List.getElem?_eq_getElem (by omega), Option.getD_some]
    rw [List.range_succ, List.foldl_append, ih (by omega),
      List.take_succ_eq_append_getElem (by omega),
      List.foldl_append, List.foldl_cons, List.foldl_nil,
      List.foldl_cons, List.foldl_nil, hGet, crcStep_eq_push]

end PSISection

--
-- Program association tables
--

open Parse

structure Parser where
  mPSISections : KeyedVector Nat PSISection
  mPrograms : List Program

namespace Parser

def new : Parser where
  mPSISections := KeyedVector.empty.add 0 PSISection.new
  mPrograms := []

variable (p : Parser)

/- Give the program of a number its map PID. -/
def updateProgram (program_number programMapPID : Nat) : List Program → List Program
| [] => [Program.new program_number programMapPID]
| program :: programs =>
  if program.mProgramNumber = program_number then
    program.updateProgramMapPID programMapPID :: programs
  else program :: updateProgram program_number programMapPID programs

/- What the table says about a program. -/
def associate (program_number programMapPID : Nat) : Parser where
  mPrograms := updateProgram program_number programMapPID p.mPrograms
  mPSISections :=
    match p.mPSISections.lookup programMapPID with
    | some _ => p.mPSISections
    | none => p.mPSISections.add programMapPID PSISection.new

def parseAssociations : Nat → Parser → Parse Parser
| 0, p => pure p
| n + 1, p => do
    let program_number ← get 16
    let _reserved ← get 3
    let programMapPID ← get 13
    parseAssociations n (if program_number = 0 then p else p.associate program_number programMapPID)

def parseProgramAssociationTable : Parse Parser := do
  let table_id ← get 8
  if table_id ≠ 0x00 then pure p
  else do
    let _section_syntax_indicator ← get 1
    skip 1
    let _reserved ← get 2
    let section_length ← get 12
    let _transport_stream_id ← get 16
    let _reserved ← get 2
    let _version_number ← get 5
    let _current_next_indicator ← get 1
    let _section_number ← get 8
    let _last_section_number ← get 8
    let numProgramBytes ← minus (section_length - 5 - 4) 32
    let p ← parseAssociations (numProgramBytes / 4) p
    let _CRC ← get 32
    pure p

end Parser

--
-- Payloads
--

/- The pointer field and the filler behind it. -/
def readPointer : Parse Nat := do
  let pointer ← get 8
  skip (pointer * 8)
  pure pointer

/- The first program that knows the PID. -/
def firstHandled (handle : Program → Checked (Option (Status × Program))) :
    List Program → Checked (Option (Status × List Program))
| [] => pure none
| program :: programs =>
  handle program >>= fun handled =>
    match handled with
    | some (err, program) => pure (some (err, program :: programs))
    | none =>
      firstHandled handle programs >>= fun rest =>
        pure (rest.map (fun r => (r.1, program :: r.2)))

namespace Parser

variable (p : Parser)

def setSection (PID : Nat) (s : PSISection) : Parser :=
  { p with mPSISections := p.mPSISections.add PID s }

/- `parsePID` with a section that is complete and intact. -/
def parseSection (PID : Nat) (s : PSISection) : Checked (Status × Parser) :=
  let sectionBits := ABitReader.create s.mBuffer
  if PID = 0 then p.parseProgramAssociationTable.run sectionBits >>= fun r =>
      pure (.OK, (r.1.getD p).setSection PID s.clear)
  else
    firstHandled (fun program => program.parsePSISection PID sectionBits)
        p.mPrograms >>= fun handled =>
      match handled with
      | none =>
        pure
          (.OK,
            { p with
              mPSISections := p.mPSISections.remove PID })
      | some (err, programs) =>
        let q := { p with mPrograms := programs }
        pure (err, if err = .OK then q.setSection PID s.clear else q)

/- `parsePID` with the next payload in the section. -/
def finishSection (memory : Memory) (PID : Nat) (s : PSISection) : Checked (Status × Parser) :=
  let p := p.setSection PID s
  if s.isComplete then if s.isCRCOkay memory then p.parseSection PID s else pure (.BAD_VALUE, p)
  else pure (.OK, p)

/- The start of a section; one that is unfinished is lost. -/
def startSection (s : PSISection) (payload_unit_start_indicator : Bool) (br : ABitReader) :
    Checked (PSISection × ABitReader) :=
  if payload_unit_start_indicator then
    let s := if s.isEmpty then s else s.clear
    readPointer.run br >>= fun r =>
      pure (s.setSkipBytes (r.1.getD 0 + 1), r.2)
  else pure (s, br)

/- The payload of a PID that sections are expected on. -/
def parsePSI (memory : Memory) (PID : Nat) (payload_unit_start_indicator : Bool) (br : ABitReader)
    (s : PSISection) : Checked (Status × Parser) :=
  startSection s payload_unit_start_indicator br >>= fun r =>
    if r.2.numBitsLeft % 8 ≠ 0 then pure (.ERROR_MALFORMED, p.setSection PID r.1)
    else p.finishSection memory PID (r.1.append (r.2.data.take (r.2.numBitsLeft / 8)))

def parsePID (memory : Memory) (br : ABitReader) (PID continuity_counter : Nat)
    (payload_unit_start_indicator : Bool) : Checked (Status × Parser) :=
  match p.mPSISections.lookup PID with
  | some s => p.parsePSI memory PID payload_unit_start_indicator br s
  | none =>
    firstHandled
        (fun program =>
          program.parsePID PID continuity_counter payload_unit_start_indicator br)
        p.mPrograms >>= fun handled =>
      match handled with
      | none => pure (.OK, p)
      | some (err, programs) => pure (err, { p with mPrograms := programs })

end Parser

--
-- Packets
--

/- What `parseTS` finds in front of the payload. -/
inductive Front where
| badSync
| noPayload
| payload (payload_unit_start_indicator : Bool) (PID continuity_counter : Nat)
deriving DecidableEq

/- The PCR, and the number of bits read of the field. -/
def parsePCR (adaptation_field_length PCR_flag : Nat) : Parse Nat :=
  if PCR_flag ≠ 0 then do
    require (52 ≤ adaptation_field_length * 8)
    skip 4
    let _PCR_base ← get 32
    let _PCR_base ← get 1
    skip 6
    let _PCR_ext ← get 9
    pure 56
  else pure 4

def parseAdaptationField : Parse Unit := do
  let adaptation_field_length ← get 8
  if adaptation_field_length > 0 then do
    let numBitsLeft ← left
    require (adaptation_field_length * 8 ≤ numBitsLeft)
    let _discontinuity_indicator ← get 1
    skip 2
    let PCR_flag ← get 1
    let numBitsRead ← parsePCR adaptation_field_length PCR_flag
    let n ← minus (adaptation_field_length * 8 - numBitsRead) 64
    skip n
  else pure ()

/- The adaptation field of the values that have one. -/
def readAdaptation (adaptation_field_control : Nat) : Parse Unit :=
  if adaptation_field_control = 2 ∨ adaptation_field_control = 3 then parseAdaptationField
  else pure ()

def readHeader : Parse Front := do
  let payload_unit_start_indicator ← get 1
  let _transport_priority ← get 1
  let PID ← get 13
  let _transport_scrambling_control ← get 2
  let adaptation_field_control ← get 2
  let continuity_counter ← get 4
  readAdaptation adaptation_field_control
  pure
    (if adaptation_field_control = 1 ∨ adaptation_field_control = 3 then
      .payload (payload_unit_start_indicator ≠ 0) PID continuity_counter
    else .noPayload)

def readTS : Parse Front := do
  let sync_byte ← get 8
  if sync_byte ≠ 0x47 then pure .badSync
  else do
    let transport_error_indicator ← get 1
    if transport_error_indicator ≠ 0 then pure .noPayload
    else readHeader

namespace Parser

variable (p : Parser)

def parseTS (memory : Memory) (br : ABitReader) : Checked (Status × Parser) :=
  readTS.run br >>= fun r =>
    match r.1 with
    | none => pure (.ERROR_MALFORMED, p)
    | some .badSync => pure (.BAD_VALUE, p)
    | some .noPayload => pure (.OK, p)
    | some (.payload begins PID continuity_counter) =>
      p.parsePID memory r.2 PID continuity_counter begins

end Parser

end ATSParser

end FrameworksAv
