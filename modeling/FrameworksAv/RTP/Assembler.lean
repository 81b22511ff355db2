import FrameworksAv.Base.Fuel
import FrameworksAv.Base.Bytes

/-
  Assemblers of RTP packets.

  Every assembler begins with the packet at the front of the queue that has the sequence number it
  expects.

  Main declarations:
    * `ABuffer`, `Expected`, `AccessUnit`
    * `front`
    * `Assembler`
    * `Assembler.onPacketReceived`
-/

--
-- Queues
--

namespace FrameworksAv

namespace RTP

/- `int32Data` is the sequence number of a packet. -/
structure ABuffer where
  int32Data : Nat
  rtpTime : Nat
  data : List Byte
deriving DecidableEq, Repr

namespace ABuffer

def size (buffer : ABuffer) : Nat := buffer.data.length

/- The times of another buffer. -/
def CopyTimes (data : List Byte) (source : ABuffer) : ABuffer :=
  { source with data := data }

end ABuffer

inductive AssemblyStatus
| MALFORMED_PACKET
| WRONG_SEQUENCE_NUMBER
| NOT_ENOUGH_DATA
| OK
deriving DecidableEq, Repr

/- What is posted for the decoder. -/
structure AccessUnit where
  buffer : ABuffer
  damaged : Bool
deriving DecidableEq, Repr

/- `MakeCompoundFromPackets`. -/
def compound (packets : List ABuffer) : List Byte :=
  packets.flatMap ABuffer.data

/- The sequence number that comes next, once there is one. -/
structure Expected where
  mNextExpectedSeqNoValid : Bool
  mNextExpectedSeqNo : Nat
deriving DecidableEq, Repr

/- `++` of an unsigned number with 32 bits. -/
def increment (n : Nat) : Nat :=
  (n + 1) % 2 ^ 32

namespace Expected

def new : Expected := ⟨false, 0⟩

def next (expected : Expected) : Expected :=
  { expected with
    mNextExpectedSeqNo := increment expected.mNextExpectedSeqNo }

end Expected

/- The packet to be assembled, or why there is none. -/
inductive Front
| stop (status : AssemblyStatus) (queue : List ABuffer)
| packet (expected : Expected) (buffer : ABuffer) (rest : List ABuffer)

/- Packets that are too late are erased. -/
def erasePassed (expected : Expected) (queue : List ABuffer) : List ABuffer :=
  if expected.mNextExpectedSeqNoValid then
    queue.dropWhile (·.int32Data < expected.mNextExpectedSeqNo)
  else queue

def front (expected : Expected) (queue : List ABuffer) : Front :=
  match erasePassed expected queue with
  | [] => .stop .NOT_ENOUGH_DATA []
  | buffer :: rest =>
    if expected.mNextExpectedSeqNoValid = false then .packet ⟨true, buffer.int32Data⟩ buffer rest
    else if buffer.int32Data ≠ expected.mNextExpectedSeqNo
    then .stop .WRONG_SEQUENCE_NUMBER (buffer :: rest)
    else .packet expected buffer rest

--
-- Assembling
--

/- The fuel is for the loops of an assembler. -/
structure Assembler (σ : Type) where
  assembleMore : Nat → σ → List ABuffer → Result (AssemblyStatus × σ × List ABuffer)
  packetLost : σ → Result σ

/- `packetLost` of the assemblers, with their own part. -/
def Expected.packetLost (expected : Expected) : Result Expected :=
  .check (expected.mNextExpectedSeqNoValid = true) (.returns expected.next)

/- `readings` counts how often the clock was read. -/
structure Reception (σ : Type) where
  mFirstFailureTimeUs : Int
  readings : Nat
  assembler : σ
  queue : List ABuffer

namespace Assembler

variable {σ : Type}

/- One turn of `onPacketReceived`. -/
def receiveTurn (A : Assembler σ) (nowUs : Nat → Int) (fuel : Nat) (s : Reception σ) :
    Result (Reception σ ⊕ Reception σ) :=
  (A.assembleMore fuel s.assembler s.queue).bind fun (status, assembler, queue) =>
      let s := { s with assembler := assembler, queue := queue }
      match status with
      | .WRONG_SEQUENCE_NUMBER =>
        let now := nowUs s.readings
        let s := { s with readings := s.readings + 1 }
        if 0 ≤ s.mFirstFailureTimeUs then
          if 10000 < now - s.mFirstFailureTimeUs then
            (A.packetLost s.assembler).bind fun assembler =>
              .returns
                (.inl
                  { s with
                    mFirstFailureTimeUs := -1,
                    assembler := assembler })
          else .returns (.inr s)
        else .returns (.inr { s with mFirstFailureTimeUs := now })
      | .NOT_ENOUGH_DATA => .returns (.inr { s with mFirstFailureTimeUs := -1 })
      | _ => .returns (.inl { s with mFirstFailureTimeUs := -1 })

def onPacketReceived (A : Assembler σ) (nowUs : Nat → Int) :
    Nat → Reception σ → Result (Reception σ) :=
  Result.loop (A.receiveTurn nowUs)

/- `onPacketReceived` comes to its end. -/
def Returns (A : Assembler σ) (nowUs : Nat → Int) (s : Reception σ) : Prop :=
  ∃ final, Reaches (fun fuel => A.onPacketReceived nowUs fuel s) final

end Assembler

end RTP

end FrameworksAv
