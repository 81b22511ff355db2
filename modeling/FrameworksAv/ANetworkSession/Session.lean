import FrameworksAv.Base.Buffer
import FrameworksAv.Base.Fuel
import FrameworksAv.Foundation.AString
import Mathlib.Data.Char

/-
  Messages with headers and a content (`ParsedMessage`).

  Every read of the data is checked. The keys of the dictionary are compared as C strings; a later
  value takes the place of an earlier one.

  A session over a connection (`ANetworkSession::Session` whose state is `CONNECTED`).

  The three modes share the loop over the buffer: a turn finds that it has to wait, or posts a
  message and takes it off the front. A turn also tells whether its reads were inside the buffer and
  the content of the message; what is read in front of that is checked by the turn itself.

  Main declarations:
    * `Dict.add`, `Dict.findString`, `findInt32`
    * `ParsedMessage`, `addLine`
    * `datagramTurn`, `rtspTurn`, `webSocketTurn`
    * `readLoop`, `readMore`
-/

--
-- Dictionaries
--

namespace FrameworksAv

namespace ANetworkSession

open Foundation

/- A byte is the character of the same value. -/
def text (bytes : List Byte) : AString :=
  bytes.map fun b => Char.ofNat b.toNat

/- Keys and values, in the order of the keys. -/
abbrev Dict := List (AString × AString)

namespace Dict

/- The index of the key is also returned. -/
def add (key value : AString) : Dict → Dict × Nat
| [] => ([(key, value)], 0)
| entry :: dict =>
  if AString.cStr key < AString.cStr entry.1 then ((key, value) :: entry :: dict, 0)
  else if AString.cStr key = AString.cStr entry.1 then ((key, value) :: dict, 0)
  else
    let (dict, index) := add key value dict
    (entry :: dict, index + 1)

def findString (name : AString) (dict : Dict) : Option AString :=
  (dict.find? fun entry =>
    AString.cStr entry.1 = AString.cStr (AString.tolower name)).map
    Prod.snd

/- The number is cut down to an `int32_t`. -/
def findInt32 (name : AString) (dict : Dict) : Option Int :=
  (findString name dict).bind fun stringValue =>
    (strtol stringValue).bind fun (value, end_) =>
      if end_ = [] then some (BitVec.ofInt 32 value).toInt
      else none

end Dict

structure ParsedMessage where
  mDict : Dict
  mContent : List Byte
deriving DecidableEq, Repr

--
-- Parsing
--

/- The variables of the loop over the lines. -/
structure Parsing where
  offset : Nat
  mDict : Dict
  lastDictIndex : Option Nat
deriving DecidableEq, Repr

/- A line that is neither the first nor an empty one. -/
def addLine (s : Parsing) (line : AString) : Parsing :=
  if line.head? = some ' ' ∨ line.head? = some '\t' then
    -- A folded header value.
    match s.lastDictIndex with
    | some index =>
      { s with
        mDict := s.mDict.modify index fun (key, value) =>
            (key, value ++ line) }
    | none => s
  else
    match AString.find line ':' 0 with
    | some colonPos =>
      let key := AString.tolower (AString.trim (line.take colonPos))
      let (mDict, index) := Dict.add key (line.drop (colonPos + 1)) s.mDict
      { s with
        mDict := mDict
        lastDictIndex := some index }
    | none => s

/- One turn of the search for the end of a line. -/
def lineEndTurn (data : List Byte) (lineEndOffset : Nat) : Checked (Turn Nat Nat) :=
  if lineEndOffset + 1 < data.length then do
    let first ← Buffer.read data lineEndOffset
    if first ≠ 0x0D then pure (.again (lineEndOffset + 1))
    else
      let second ← Buffer.read data (lineEndOffset + 1)
      if second ≠ 0x0A then pure (.again (lineEndOffset + 1))
      else pure (.done lineEndOffset)
  else pure (.done lineEndOffset)

/-
  One turn for a line. The loop is left with `none` when the line is not complete, or with whether
  the empty line has been seen.
-/
def parseTurn (data : List Byte) (s : Parsing) : Checked (Turn Parsing (Option (Parsing × Bool))) :=
  if s.offset < data.length then do
    let lineEndOffset ← Checked.loop (lineEndTurn data) (data.length + 1) s.offset
    if data.length ≤ lineEndOffset + 1 then pure (.done none)
    else
      let line ← Buffer.slice data s.offset (lineEndOffset - s.offset)
      let offset := lineEndOffset + 2
      if s.offset = 0 then
        pure
          (.again
            { s with
              mDict := (Dict.add ['_'] (text line) s.mDict).1
              offset := offset })
      else if lineEndOffset = s.offset then pure (.done (some ({ s with offset := offset }, true)))
      else pure (.again { addLine s (text line) with offset := offset })
  else pure (.done (some (s, false)))

def contentLength (dict : Dict) : Nat :=
  ((Dict.findInt32 "content-length".toList dict).getD 0).toNat

/- The message and its length, or `-1`. -/
def parse (data : List Byte) (noMoreData : Bool) : Checked (Option (ParsedMessage × Nat)) :=
  if data.length = 0 then pure none
  else do
    let lines ←
      Checked.loop (parseTurn data) (data.length + 1)
        { offset := 0, mDict := [], lastDictIndex := none }
    match lines with
    | none => pure none
    | some (s, headersComplete) =>
      if ¬headersComplete ∧ (¬noMoreData ∨ s.offset = 0) then pure none
      else
        let mDict := s.mDict.map fun (key, value) =>
            (key, AString.trim value)
        let totalLength := s.offset + contentLength mDict
        if data.length < totalLength then pure none
        else do
          let mContent ← Buffer.slice data s.offset (contentLength mDict)
          pure (some ({ mDict, mContent }, totalLength))

end ANetworkSession

--
-- Sending
--

namespace ANetworkSession

inductive Mode
| MODE_RTSP
| MODE_DATAGRAM
| MODE_WEBSOCKET
deriving DecidableEq, Repr

structure Fragment where
  mFlags : Nat
  mTimeUs : Int
  mBuffer : List Byte
deriving DecidableEq, Repr

def FRAGMENT_FLAG_TIME_VALID : Nat := 1

structure Session where
  mMode : Mode
  mSawReceiveFailure : Bool
  mSawSendFailure : Bool
  mOutFragments : List Fragment
  mInBuffer : List Byte
deriving DecidableEq, Repr

def byte (n : Nat) : Byte := BitVec.ofNat 8 n

/- The header of a message without a mask. -/
def webSocketHeader (size : Nat) : List Byte :=
  if size > 65535 then
    [0x81, 127, 0x00, 0x00, 0x00, 0x00, byte (size >>> 24),
      byte (size >>> 16), byte (size >>> 8), byte size]
  else if size > 125 then [0x81, 126, byte (size >>> 8), byte size]
  else [0x81, byte size]

/- What is put into the fragment; a failed check is `none`. -/
def requestBuffer (mMode : Mode) (data : List Byte) : Option (List Byte) :=
  let size := data.length
  match mMode with
  | .MODE_DATAGRAM =>
    if size ≤ 65535 then some (byte (size >>> 8) :: byte size :: data)
    else none
  | .MODE_WEBSOCKET => some (webSocketHeader size ++ data)
  | .MODE_RTSP => some data

def fragmentOf (buffer : List Byte) (timeValid : Bool) (timeUs : Int) : Fragment where
  mFlags := if timeValid then FRAGMENT_FLAG_TIME_VALID else 0
  mTimeUs := if timeValid then timeUs else 0
  mBuffer := buffer

def sendRequest (s : Session) (data : List Byte) (timeValid : Bool)
    (timeUs : Int) : Result Session :=
  if data.length = 0 then .returns s
  else (Result.ofOption (requestBuffer s.mMode data)).map fun buffer =>
        { s with
          mOutFragments := s.mOutFragments ++ [fragmentOf buffer timeValid timeUs] }

/-
  The fragments that are left and the bytes that are sent, with the results of `send`. There is no
  value when a result is not one that `send` gives here.
-/
def writeLoop : List Fragment → List Nat → Option (List Fragment × List Byte)
| [], _ => some ([], [])
| _ :: _, [] => none
| frag :: frags, n :: results =>
  if 0 < n ∧ n ≤ frag.mBuffer.length then
    if n < frag.mBuffer.length then
      some
        ({ frag with mBuffer := frag.mBuffer.drop n } :: frags,
          frag.mBuffer.take n)
    else (writeLoop frags results).map fun (frags, bytes) =>
        (frags, frag.mBuffer ++ bytes)
  else none

/- There are fragments, and all results are positive. -/
def writeMore (s : Session) (results : List Nat) : Option (Session × List Byte) :=
  if s.mOutFragments = [] then none
  else (writeLoop s.mOutFragments results).map fun (frags, bytes) =>
      ({ s with mOutFragments := frags }, bytes)

--
-- Receiving
--

inductive Note
| kWhatDatagram (data : List Byte)
| kWhatBinaryData (channel : Byte) (data : List Byte)
| kWhatData (data : ParsedMessage)
| kWhatWebSocketMessage (headerByte : Byte) (data : List Byte)
| kWhatError (err : Int)
deriving DecidableEq, Repr

def U16_AT (bytes : List Byte) : Nat :=
  bytes[0]!.toNat * 2 ^ 8 + bytes[1]!.toNat

def U32_AT (bytes : List Byte) : Nat :=
  bytes[0]!.toNat * 2 ^ 24 + bytes[1]!.toNat * 2 ^ 16 + bytes[2]!.toNat * 2 ^ 8 + bytes[3]!.toNat

def U64_AT (bytes : List Byte) : Nat :=
  U32_AT bytes * 2 ^ 32 + U32_AT (bytes.drop 4)

/- What a turn posts and how many bytes it takes, and whether it has read inside. -/
structure Take where
  note : Note
  length : Nat
  inside : Bool
deriving DecidableEq, Repr

def datagramTurn (mInBuffer : List Byte) : Option Take :=
  if mInBuffer.length < 2 then none
  else
    let packetSize := U16_AT mInBuffer
    if mInBuffer.length < packetSize + 2 then none
    else
      some
        { note := .kWhatDatagram ((mInBuffer.drop 2).take packetSize)
          length := packetSize + 2
          inside := true }

/- The bytes `"wfd_idr_request\r\n"`. -/
def idrRequest : List Byte :=
  [0x77, 0x66, 0x64, 0x5F, 0x69, 0x64, 0x72, 0x5F, 0x72, 0x65,
    0x71, 0x75, 0x65, 0x73, 0x74, 0x0D, 0x0A]

/-
  Is there a line end behind a message that begins like this? Behind the bytes of a string there is
  a zero byte, so that the answer is no where a read is outside.
-/
def wrongContentLength (mInBuffer content : List Byte) (length : Nat) : Checked Bool := do
  let start ← Buffer.slice content 0 17
  if start = idrRequest ∧ 19 ≤ length then
    let first ← Buffer.read mInBuffer length
    if first = 0x0D then
      let second ← Buffer.read mInBuffer (length + 1)
      pure (second = 0x0A)
    else pure false
  else pure false

/- A fault is a read outside. -/
def rtspTurn (noMoreData : Bool) (mInBuffer : List Byte) : Checked (Option Take) :=
  if mInBuffer.head? = some 0x24 then if mInBuffer.length < 4 then pure none
    else
      let length := U16_AT (mInBuffer.drop 2)
      if mInBuffer.length < 4 + length then pure none
      else
        pure
          (some
            { note := .kWhatBinaryData mInBuffer[1]! ((mInBuffer.drop 4).take length)
              length := 4 + length
              inside := true })
  else do
    let msg ← parse mInBuffer noMoreData
    pure
      (msg.map fun (msg, length) =>
        match wrongContentLength mInBuffer msg.mContent length with
        | .ok wrong =>
          { note := .kWhatData msg
            length := if wrong then length + 2 else length
            inside := true }
        | .error _ =>
          { note := .kWhatData msg
            length := length
            inside := false })

/- The bytes of a payload under a mask. -/
def unmask (mask : Nat) (payload : List Byte) : List Byte :=
  payload.mapIdx fun i b =>
    b ^^^ byte ((mask >>> (8 * (3 - i % 4))) &&& 0xFF)

/- A mask of zero is none. -/
def webSocketPayload (mask : Nat) (payload : List Byte) : List Byte :=
  if mask ≠ 0 then unmask mask payload else payload

/- The length of the payload and the offset behind it; the length is an `unsigned`. -/
def payloadLength (mInBuffer : List Byte) : Option (Nat × Nat) :=
  let payloadLen := mInBuffer[1]!.toNat &&& 0x7F
  if payloadLen = 126 then if 2 + 2 > mInBuffer.length then none
    else some (U16_AT (mInBuffer.drop 2), 4)
  else if payloadLen = 127 then if 2 + 8 > mInBuffer.length then none
    else some (U64_AT (mInBuffer.drop 2) % 2 ^ 32, 10)
  else some (payloadLen, 2)

/- The mask and the offset behind it. -/
def maskAt (mInBuffer : List Byte) (offset : Nat) : Option (Nat × Nat) :=
  if mInBuffer[1]!.toNat &&& 0x80 ≠ 0 then if offset + 4 > mInBuffer.length then none
    else some (U32_AT (mInBuffer.drop offset), offset + 4)
  else some (0, offset)

def webSocketTurn (mInBuffer : List Byte) : Option Take :=
  if mInBuffer.length < 2 then none
  else (payloadLength mInBuffer).bind fun (payloadLen, offset) =>
    (maskAt mInBuffer offset).bind fun (mask, offset) =>
      if offset + payloadLen > mInBuffer.length then none
      else
        some
          { note :=
              .kWhatWebSocketMessage mInBuffer[0]!
                (webSocketPayload mask ((mInBuffer.drop offset).take payloadLen))
            length := offset + payloadLen
            inside := true }

/- The notes, the bytes that are left, and whether all reads were inside. -/
structure ReadState where
  notes : List Note
  mInBuffer : List Byte
  inside : Bool
deriving DecidableEq, Repr

def ReadState.after (t : Take) (s : ReadState) : ReadState :=
  { s with
    notes := t.note :: s.notes
    inside := t.inside && s.inside }

/-
  The loop over the buffer, which may end after one message. `erase` checks that the bytes are
  there.
-/
def readLoop (turn : List Byte → Checked (Option Take)) (once : Bool) :
    Nat → List Byte → Result ReadState
| 0, _ => .runs
| fuel + 1, mInBuffer =>
  match turn mInBuffer with
  | .error _ => .aborts
  | .ok none => .returns ⟨[], mInBuffer, true⟩
  | .ok (some t) =>
    .check (0 < mInBuffer.length ∧ t.length ≤ mInBuffer.length)
      ((if once then .returns ⟨[], mInBuffer.drop t.length, true⟩
      else readLoop turn once fuel (mInBuffer.drop t.length)).map (.after t))

/- What is read off the buffer in a mode. -/
def turn (mMode : Mode) (noMoreData : Bool) (mInBuffer : List Byte) : Checked (Option Take) :=
  match mMode with
  | .MODE_DATAGRAM => .ok (datagramTurn mInBuffer)
  | .MODE_RTSP => rtspTurn noMoreData mInBuffer
  | .MODE_WEBSOCKET => .ok (webSocketTurn mInBuffer)

/-
  `recv` gives some bytes, or an error. The notes and whether all reads were inside are returned
  with the session.
-/
def readMore (fuel : Nat) (s : Session) (received : Except Int (List Byte)) :
    Result (Session × List Note × Bool) :=
  match received with
  | .ok bytes =>
    (readLoop (turn s.mMode false) false fuel (s.mInBuffer ++ bytes)).map fun r =>
      ({ s with mInBuffer := r.mInBuffer }, r.notes, r.inside)
  | .error err =>
    (readLoop (turn s.mMode true) (s.mMode = .MODE_RTSP) fuel s.mInBuffer).map fun r =>
      ({ s with
          mInBuffer := r.mInBuffer
          mSawReceiveFailure := true },
        r.notes ++ [.kWhatError err], r.inside)

end ANetworkSession

end FrameworksAv
