import FrameworksAv.Base.Buffer

/-
  Strings in media transfer packets.

  A string buffer holds UTF-8 text in an array of fixed size, of which only the first bytes have
  been written. In a packet a string is a length byte and 16-bit units.

  Main declarations:
    * `MtpDataPacket`
    * `MtpStringBuffer.set`
    * `MtpStringBuffer.readFromPacket`
    * `MtpStringBuffer.writeToPacket`
-/

--
-- Packets
--

namespace FrameworksAv

namespace Mtp

open Buffer

/- `mBuffer` are the `mPacketSize` bytes of the packet. -/
structure MtpDataPacket where
  mBuffer : List Byte
  mOffset : Nat
deriving DecidableEq, Repr

namespace MtpDataPacket

def mPacketSize (packet : MtpDataPacket) : Nat :=
  packet.mBuffer.length

/- `none` is `false`. -/
def getUInt8 (packet : MtpDataPacket) : Checked (Option (Byte × MtpDataPacket)) :=
  if sizeSub packet.mPacketSize packet.mOffset < 1 then pure none
  else do
    let value ← read packet.mBuffer packet.mOffset
    pure (some (value, { packet with mOffset := packet.mOffset + 1 }))

def getUInt16 (packet : MtpDataPacket) : Checked (Option (BitVec 16 × MtpDataPacket)) :=
  if sizeSub packet.mPacketSize packet.mOffset < 2 then pure none
  else do
    let low ← read packet.mBuffer packet.mOffset
    let high ← read packet.mBuffer (packet.mOffset + 1)
    pure (some
      (low.setWidth 16 ||| (high.setWidth 16 <<< 8), { packet with mOffset := packet.mOffset + 2 }))

/- Bytes put at the offset; the packet grows where it ends. -/
def put (packet : MtpDataPacket) (bytes : List Byte) : MtpDataPacket where
  mBuffer :=
    packet.mBuffer.take packet.mOffset ++ bytes ++
      packet.mBuffer.drop (packet.mOffset + bytes.length)
  mOffset := packet.mOffset + bytes.length

def putUInt8 (packet : MtpDataPacket) (value : Byte) : MtpDataPacket :=
  packet.put [value]

def putUInt16 (packet : MtpDataPacket) (value : BitVec 16) : MtpDataPacket :=
  packet.put [value.setWidth 8, (value >>> 8).setWidth 8]

end MtpDataPacket

--
-- String Buffers
--

def MTP_STRING_MAX_CHARACTER_NUMBER : Nat :=
  255

structure MtpStringBuffer where
  mBuffer : List Byte
  mCharCount : Nat
  mByteCount : Nat
deriving DecidableEq, Repr

namespace MtpStringBuffer

/-
  What is stored of a C string, from a number of characters on, and the number of characters
  afterwards.
-/
def setLoop : List Byte → Nat → List Byte × Nat
| [], count => ([], count)
| ch :: src, count =>
  if ¬count < MTP_STRING_MAX_CHARACTER_NUMBER then ([], count)
  else if ch &&& 0x80 = 0 then
    let (text, total) := setLoop src (count + 1)
    (ch :: text, total)
  else if ch &&& 0xE0 = 0xC0 then
    match src with
    | [] => ([], count)
    | ch1 :: src =>
      let (text, total) := setLoop src (count + 1)
      (ch :: ch1 :: text, total)
  else if ch &&& 0xF0 = 0xE0 then
    match src with
    | [] => ([], count)
    | [_] => ([], count)
    | ch1 :: ch2 :: src =>
      let (text, total) := setLoop src (count + 1)
      (ch :: ch1 :: ch2 :: text, total)
  else
    -- Nothing is stored, and the byte is counted.
    setLoop src (count + 1)

def set (buffer : MtpStringBuffer) (src : List Byte) : Checked MtpStringBuffer := do
  let (text, count) := setLoop src 0
  let mBuffer ← store buffer.mBuffer 0 (text ++ [0])
  pure
    { mBuffer := mBuffer,
      mCharCount := count,
      mByteCount := text.length + 1 }

/- The bytes of a unit. -/
def encodeChar (ch : BitVec 16) : List Byte :=
  if 0x0800 ≤ ch.toNat then
    [(0xE0 : Byte) ||| (ch >>> 12).setWidth 8, (0x80 : Byte) ||| ((ch >>> 6) &&& 0x3F).setWidth 8,
      (0x80 : Byte) ||| (ch &&& 0x3F).setWidth 8]
  else if 0x80 ≤ ch.toNat then
    [(0xC0 : Byte) ||| (ch >>> 6).setWidth 8, (0x80 : Byte) ||| (ch &&& 0x3F).setWidth 8]
  else [ch.setWidth 8]

/- Up to `count` units; `false` where the packet ends. -/
def readChars : Nat → MtpDataPacket → Checked (Bool × List Byte × MtpDataPacket)
| 0, packet => pure (true, [], packet)
| count + 1, packet => do
    match ← packet.getUInt16 with
    | none => pure (false, [], packet)
    | some (ch, packet) =>
      let (done, text, packet) ← readChars count packet
      pure (done, encodeChar ch ++ text, packet)

/- A failed read has overwritten a part of the array. -/
def readFromPacket (buffer : MtpStringBuffer) (packet : MtpDataPacket) :
    Checked (Bool × MtpStringBuffer × MtpDataPacket) := do
  match ← packet.getUInt8 with
  | none => pure (false, buffer, packet)
  | some (count, packet) =>
    let (done, text, packet) ← readChars count.toNat packet
    if done = true then
      let mBuffer ← store buffer.mBuffer 0 (text ++ [0])
      pure (true,
        { mBuffer := mBuffer,
          mCharCount := count.toNat,
          mByteCount := text.length + 1 }, packet)
    else
      let mBuffer ← store buffer.mBuffer 0 text
      pure (false, { buffer with mBuffer := mBuffer },
        packet)

/- The unit at an offset of the array, and the next offset. -/
def expandChar (mBuffer : List Byte) (src : Nat) : Checked (BitVec 16 × Nat) := do
  let ch1 ← read mBuffer src
  if ch1 &&& 0x80 = 0 then pure (ch1.setWidth 16, src + 1)
  else if ch1 &&& 0xE0 = 0xC0 then
    let ch2 ← read mBuffer (src + 1)
    pure (((ch1.setWidth 16 &&& 0x1F) <<< 6) ||| (ch2.setWidth 16 &&& 0x3F), src + 2)
  else
    let ch2 ← read mBuffer (src + 1)
    let ch3 ← read mBuffer (src + 2)
    pure (((ch1.setWidth 16 &&& 0x0F) <<< 12) ||| ((ch2.setWidth 16 &&& 0x3F) <<< 6) |||
      (ch3.setWidth 16 &&& 0x3F), src + 3)

def expand (mBuffer : List Byte) : Nat → Nat → MtpDataPacket → Checked (MtpDataPacket × Nat)
| 0, src, packet => pure (packet, src)
| count + 1, src, packet => do
    let (ch, src) ← expandChar mBuffer src
    expand mBuffer count src (packet.putUInt16 ch)

/- The packet, and how many bytes of the array were read. -/
def writeToPacket (buffer : MtpStringBuffer) (packet : MtpDataPacket) :
    Checked (MtpDataPacket × Nat) := do
  let count := buffer.mCharCount
  let packet := packet.putUInt8 (BitVec.ofNat 8 (if 0 < count then count + 1 else 0))
  let (packet, src) ← expand buffer.mBuffer count 0 packet
  if 0 < count then pure (packet.putUInt16 0, src)
  else pure (packet, src)

/- The C string that a buffer is converted to. -/
def text (buffer : MtpStringBuffer) : List Byte :=
  buffer.mBuffer.takeWhile (· ≠ 0)

end MtpStringBuffer

end Mtp

end FrameworksAv
