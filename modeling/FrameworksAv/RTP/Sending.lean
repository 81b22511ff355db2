import FrameworksAv.RTP.Simple

/-
  A sender of NAL units and what happens to its packets.

  Packets arrive in any order, or not at all; those that are there are sorted by their sequence
  numbers.

  Main declarations:
    * `NALUnit`, `Carrier`
    * `Carrier.packets`, `Stream`
    * `queuePacket`
    * `Receiver.Step`, `Receiver.Runs`
-/

--
-- Packets of NAL Units
--

namespace FrameworksAv

namespace RTP

/- A NAL unit whose forbidden bit is not set, of a type that is not one of a packet. -/
structure NALUnit where
  header : Byte
  payload : List Byte
  forbidden : header.toNat < 128
  type : 1 ≤ header.toNat % 32 ∧ header.toNat % 32 ≤ 23

namespace NALUnit

def data (unit : NALUnit) : List Byte :=
  unit.header :: unit.payload

def nalType (unit : NALUnit) : Nat :=
  unit.header.toNat % 32

def nri (unit : NALUnit) : Nat :=
  unit.header.toNat / 32

/- A length in two bytes. -/
def lengthBytes (n : Nat) : List Byte :=
  [BitVec.ofNat 8 (n / 256), BitVec.ofNat 8 n]

/- A fragment, with the bit for the first or the last one. -/
def fragment (unit : NALUnit) (bit : Nat) (piece : List Byte) : List Byte :=
  BitVec.ofNat 8 (unit.nri * 32 + 28) :: BitVec.ofNat 8 (bit + unit.nalType) :: piece

end NALUnit

/- A NAL unit whose length fits into an aggregation packet. -/
abbrev AggregatedUnit :=
  { unit : NALUnit // unit.data.length < 2 ^ 16 }

/-
  NAL units of one time: a unit in a packet of its own, some units in a packet (STAP-A), or a unit
  in two or more fragments (FU-A).
-/
inductive Carrier
| single (time : Nat) (unit : NALUnit)
| aggregate (time : Nat) (nri : Fin 4) (units : List AggregatedUnit) (hSome : units ≠ [])
| fragments (time : Nat) (unit : NALUnit) (first : List Byte) (middle : List (List Byte))
    (last : List Byte) (hPieces : unit.payload = first ++ (middle.flatten ++ last))

namespace Carrier

def time : Carrier → Nat
| .single time _ => time
| .aggregate time _ _ _ => time
| .fragments time _ _ _ _ _ => time

/- The data of the units. -/
def units : Carrier → List (List Byte)
| .single _ unit => [unit.data]
| .aggregate _ _ units _ => units.map (·.val.data)
| .fragments _ unit _ _ _ _ => [unit.data]

/- A unit in an aggregation packet, with its length. -/
def aggregated (unit : AggregatedUnit) : List Byte :=
  NALUnit.lengthBytes unit.val.data.length ++ unit.val.data

/- The fragments behind the first one. -/
def laterFragments (unit : NALUnit) (middle : List (List Byte)) (last : List Byte) :
    List (List Byte) :=
  middle.map (unit.fragment 0) ++ [unit.fragment 64 last]

def payloads : Carrier → List (List Byte)
| .single _ unit => [unit.data]
| .aggregate _ nri units _ => [BitVec.ofNat 8 (nri.val * 32 + 24) :: units.flatMap aggregated]
| .fragments _ unit first middle last _ =>
  unit.fragment 128 first :: laterFragments unit middle last

/- The units with their time. -/
def sent (carrier : Carrier) : List (Nat × List Byte) :=
  carrier.units.map (carrier.time, ·)

end Carrier

/- Packets with consecutive sequence numbers. -/
def numbered (time : Nat) : Nat → List (List Byte) → List ABuffer
| _, [] => []
| seqNo, data :: payloads => ⟨seqNo, time, data⟩ :: numbered time (seqNo + 1) payloads

namespace Carrier

def packets (carrier : Carrier) (seqNo : Nat) : List ABuffer :=
  numbered carrier.time seqNo carrier.payloads

def count (carrier : Carrier) : Nat :=
  carrier.payloads.length

end Carrier

/- The sequence numbers of some packets. -/
theorem numbered_range {time seqNo : Nat} {payloads : List (List Byte)} {packet : ABuffer}
    (hMember : packet ∈ numbered time seqNo payloads) :
    seqNo ≤ packet.int32Data ∧ packet.int32Data < seqNo + payloads.length := by
  induction payloads generalizing seqNo with
  | nil => exact absurd hMember List.not_mem_nil
  | cons data payloads ih =>
    rw [List.length_cons]
    rcases List.mem_cons.mp hMember with rfl | hLater
    · simp only
      omega
    · have hRange := ih hLater
      omega

theorem numbered_sorted (time seqNo : Nat) (payloads : List (List Byte)) :
    (numbered time seqNo payloads).Pairwise (fun p q => p.int32Data < q.int32Data) := by
  induction payloads generalizing seqNo with
  | nil => exact .nil
  | cons data payloads ih =>
    refine List.pairwise_cons.mpr ⟨?_, ih (seqNo + 1)⟩
    intro packet hMember
    exact (numbered_range hMember).1

@[simp] theorem numbered_length (time seqNo : Nat) (payloads : List (List Byte)) :
    (numbered time seqNo payloads).length = payloads.length := by
  induction payloads generalizing seqNo with
  | nil => rfl
  | cons data payloads ih => rw [numbered, List.length_cons, ih, List.length_cons]

def packetsFrom : Nat → List Carrier → List ABuffer
| _, [] => []
| seqNo, carrier :: carriers =>
  carrier.packets seqNo ++ packetsFrom (seqNo + carrier.count) carriers

def total (carriers : List Carrier) : Nat :=
  (carriers.map Carrier.count).sum

@[simp] theorem total_cons (carrier : Carrier) (carriers : List Carrier) :
    total (carrier :: carriers) = carrier.count + total carriers :=
  rfl

theorem packetsFrom_range {seqNo : Nat} {carriers : List Carrier} {packet : ABuffer}
    (hMember : packet ∈ packetsFrom seqNo carriers) :
    seqNo ≤ packet.int32Data ∧ packet.int32Data < seqNo + total carriers := by
  induction carriers generalizing seqNo with
  | nil => exact absurd hMember List.not_mem_nil
  | cons carrier carriers ih =>
    rw [total_cons]
    rcases List.mem_append.mp hMember with hFirst | hLater
    · have hRange := numbered_range hFirst
      have hCount : carrier.payloads.length = carrier.count := rfl
      omega
    · have hRange := ih hLater
      omega

theorem packetsFrom_sorted (seqNo : Nat) (carriers : List Carrier) :
    (packetsFrom seqNo carriers).Pairwise (fun p q => p.int32Data < q.int32Data) := by
  induction carriers generalizing seqNo with
  | nil => exact .nil
  | cons carrier carriers ih =>
    refine List.pairwise_append.mpr ⟨numbered_sorted _ _ _, ih _, ?_⟩
    intro p hFirst q hLater
    have hBefore := (numbered_range hFirst).2
    have hBehind := (packetsFrom_range hLater).1
    have hCount : carrier.payloads.length = carrier.count := rfl
    omega

/- Packets of a sorted list are known by their numbers. -/
theorem eq_of_sorted {packets : List ABuffer} {p q : ABuffer}
    (hSorted : packets.Pairwise (fun p q => p.int32Data < q.int32Data)) (hp : p ∈ packets)
    (hq : q ∈ packets) (hSame : p.int32Data = q.int32Data) : p = q := by
  induction packets with
  | nil => exact absurd hp List.not_mem_nil
  | cons first packets ih =>
    rcases List.pairwise_cons.mp hSorted with ⟨hLess, hRest⟩
    rcases List.mem_cons.mp hp with rfl | hpLater
    · rcases List.mem_cons.mp hq with rfl | hqLater
      · rfl
      · have hBefore := hLess q hqLater
        omega
    · rcases List.mem_cons.mp hq with rfl | hqLater
      · have hBefore := hLess p hpLater
        omega
      · exact ih hRest hpLater hqLater

/- Every packet is one of a carrier. -/
theorem packetsFrom_carrier {seqNo : Nat} {carriers : List Carrier} {packet : ABuffer}
    (hMember : packet ∈ packetsFrom seqNo carriers) :
    ∃ before carrier behind,
      carriers = before ++ carrier :: behind ∧ packet ∈ carrier.packets (seqNo + total before) := by
  induction carriers generalizing seqNo with
  | nil => exact absurd hMember List.not_mem_nil
  | cons carrier carriers ih =>
    rcases List.mem_append.mp hMember with hFirst | hLater
    · exact ⟨[], carrier, carriers, rfl, hFirst⟩
    · rcases ih hLater with ⟨before, other, behind, rfl, hPacket⟩
      refine ⟨carrier :: before, other, behind, rfl, ?_⟩
      rw [total_cons, ← Nat.add_assoc]
      exact hPacket

/- The sequence numbers do not go beyond 32 bits. -/
structure Stream where
  carriers : List Carrier
  firstSeqNo : Nat
  hRoom : firstSeqNo + total carriers < 2 ^ 32

namespace Stream

def packets (stream : Stream) : List ABuffer :=
  packetsFrom stream.firstSeqNo stream.carriers

def sent (stream : Stream) : List (Nat × List Byte) :=
  stream.carriers.flatMap Carrier.sent

end Stream

--
-- Receiver
--

/- `ARTPSource::queuePacket`, from the place on where the sequence number has all its bits. -/
def queuePacket : List ABuffer → ABuffer → List ABuffer
| [], buffer => [buffer]
| first :: queue, buffer =>
  if first.int32Data < buffer.int32Data then
    first :: queuePacket queue buffer
  else if first.int32Data = buffer.int32Data then
    first :: queue
  else buffer :: first :: queue

structure Receiver where
  assembler : AAVCAssembler
  queue : List ABuffer

inductive Action
| arrive (packet : ABuffer)
| assemble
| lost
deriving DecidableEq

namespace Receiver

def new : Receiver := ⟨.new, []⟩

/- What a call of `assembleMore` returns. -/
def Assembles (r : Receiver) (status : AssemblyStatus) (next : Receiver) : Prop :=
  Reaches (fun fuel => r.assembler.assembleMore fuel r.queue) (status, next.assembler, next.queue)

/- A packet is given up only when another one was expected. -/
inductive Step (packets : List ABuffer) (r : Receiver) : Action → Receiver → Prop
| arrive {packet : ABuffer} (hSent : packet ∈ packets) :
    Step packets r (.arrive packet) { r with queue := queuePacket r.queue packet }
| assemble {status : AssemblyStatus} {next : Receiver} (hMore : r.Assembles status next) :
    Step packets r .assemble next
| lost {next : Receiver} {assembler : AAVCAssembler}
    (hMore : r.Assembles .WRONG_SEQUENCE_NUMBER next)
    (hLost : next.assembler.packetLost = .returns assembler) :
    Step packets r .lost { next with assembler := assembler }

/- The steps so far, the last one at the end. -/
inductive Runs (packets : List ABuffer) : List Action → Receiver → Prop
| start : Runs packets [] .new
| step {actions : List Action} {action : Action} {r next : Receiver} (hRun : Runs packets actions r)
    (hStep : Step packets r action next) : Runs packets (actions ++ [action]) next

end Receiver

end RTP

end FrameworksAv
