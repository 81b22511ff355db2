import FrameworksAv.ATSParser.Aborts

/-
  The clock reference that a sender puts into a stream (`TSPacketizer::packetize` with `EMIT_PCR`,
  media/libstagefright/wifi-display/source/TSPacketizer.cpp), and what `ATSParser` reads in it.

  One byte of the base, its bits 1 to 8, is not written, so that all that follows is read one byte
  too early. `nowUs * 27` is below 2^64.

  Main declarations:
    * `pcrPacket`, `readAdaptationField`
    * `readAdaptationField_reads`
    * `pcrPacket_misread`
-/

--
-- Sender and Receiver
--

namespace FrameworksAv

namespace TSPacketizer

open ATSParser

def kPID_PCR : Nat := 0x1000

/- The bytes of the packet of `EMIT_PCR` that are not stuffing. -/
def pcrFront (PCR_base PCR_ext : Nat) : List Byte :=
  [0x47, 0x40 ||| BitVec.ofNat 8 (kPID_PCR >>> 8), BitVec.ofNat 8 (kPID_PCR &&& 0xff), 0x20,
    0xb7, -- adaptation_field_length
    0x10, BitVec.ofNat 8 (PCR_base >>> 25), BitVec.ofNat 8 (PCR_base >>> 17),
    BitVec.ofNat 8 (PCR_base >>> 9),
    BitVec.ofNat 8 ((PCR_base &&& 1) <<< 7 ||| 0x7e ||| ((PCR_ext >>> 8) &&& 1)),
    BitVec.ofNat 8 (PCR_ext &&& 0xff)]

def pcrPacket (nowUs : Nat) : List Byte :=
  let PCR := nowUs * 27
  pcrFront (PCR / 300) (PCR % 300) ++ List.replicate 177 0xff

/- `parsePCR` with the value that is passed to `updatePCR`. -/
def readPCR (adaptation_field_length PCR_flag : Nat) : Parse (Option Nat × Nat) :=
  if PCR_flag ≠ 0 then do
    Parse.require (52 ≤ adaptation_field_length * 8)
    Parse.skip 4
    let PCR_base ← Parse.get 32
    let lowest ← Parse.get 1
    Parse.skip 6
    let PCR_ext ← Parse.get 9
    pure (some ((PCR_base <<< 1 ||| lowest) * 300 + PCR_ext), 56)
  else pure (none, 4)

/- `parseAdaptationField` with that value. -/
def readAdaptationField : Parse (Option Nat) := do
  let adaptation_field_length ← Parse.get 8
  if adaptation_field_length > 0 then do
    let numBitsLeft ← Parse.left
    Parse.require (adaptation_field_length * 8 ≤ numBitsLeft)
    let _discontinuity_indicator ← Parse.get 1
    Parse.skip 2
    let PCR_flag ← Parse.get 1
    let (PCR, numBitsRead) ← readPCR adaptation_field_length PCR_flag
    let n ← Parse.minus (adaptation_field_length * 8 - numBitsRead) 64
    Parse.skip n
    pure PCR
  else pure none

/- Behind the header of a packet, this value is read, and the whole field. -/
def Parses (packet : List Byte) (PCR : Nat) : Prop :=
  ∀ br : ABitReader, br.At packet 32 →
    ∃ r,
      readAdaptationField.run br = some ((some (some PCR), r), false) ∧ r.numBitsLeft = 0

--
-- The Field
--

variable {packet : List Byte}

/- What is read in a field that takes up the rest of a packet. -/
theorem readAdaptationField_reads (hSize : packet.length = 188) (hLength : field packet 32 8 = 183)
    (hFlag : field packet 43 1 ≠ 0) :
    readAdaptationField.reads packet 32 =
      some
        (some (some ((field packet 48 32 <<< 1 ||| field packet 80 1) * 300 + field packet 87 9)),
          1504) := by
  have hSkip (PCR : Option Nat) :
      (Parse.minus ((183 : Nat) * 8 - (56 : Nat) : Int) 64 >>= fun n =>
          Parse.skip n >>= fun _ => pure PCR).reads packet 96 = some (some PCR, 1504) := by
    rw [← Parse.bind_bind, Parse.reads_bind,
      skipRemaining_reads (by decide) (by decide) (by rw [hSize])]
    rfl
  unfold readAdaptationField
  rw [Parse.reads_get_bind, hSize, if_pos (by decide), hLength, if_pos (by decide),
    Parse.reads_left_bind, Parse.reads_require_bind, hSize, if_pos (by decide),
    Parse.reads_get_bind, hSize, if_pos (by decide), Parse.reads_skip_bind, hSize,
    if_pos (by decide), Parse.reads_get_bind, hSize, if_pos (by decide)]
  unfold readPCR
  rw [if_pos hFlag, Parse.bind_bind, Parse.reads_require_bind, if_pos (by decide)]
  simp only [Parse.bind_bind, Parse.reads_skip_bind, Parse.reads_get_bind, Parse.pure_bind', hSize]
  rw [if_pos (by decide), if_pos (by decide), if_pos (by decide), if_pos (by decide),
    if_pos (by decide)]
  exact hSkip _

/- A bit of a byte. -/
theorem field_bit {k : Nat} {b : Byte} (hByte : packet[k]? = some b) (i : Nat) (hi : i < 8) :
    field packet (8 * k + i) 1 = b.toNat / 2 ^ (7 - i) % 2 := by
  have hIn : k < packet.length := (List.getElem?_eq_some_iff.mp hByte).1
  have hFront : field packet (8 * k) (i + (8 - i)) = _ := field_add (by omega)
  have hBehind : field packet (8 * k + i) (1 + (7 - i)) = _ := field_add (by omega)
  have hLow := field_lt packet (8 * k + i + 1) (7 - i)
  have hBit := field_lt packet (8 * k + i) 1
  rw [Nat.add_sub_of_le (by omega), field_byte hByte] at hFront
  rw [show 1 + (7 - i) = 8 - i by omega] at hBehind
  have hPower : 2 ^ (8 - i) = 2 * 2 ^ (7 - i) := by
    rw [← Nat.pow_succ', show (7 - i).succ = 8 - i by omega]
  have hWhole :
      b.toNat =
        field packet (8 * k + i + 1) (7 - i) +
          (2 * field packet (8 * k) i + field packet (8 * k + i) 1) * 2 ^ (7 - i) := by
    rw [hFront, hBehind, hPower]
    ring
  rw [hWhole, Nat.add_mul_div_right _ _ (Nat.two_pow_pos _), Nat.div_eq_of_lt hLow]
  omega

--
-- The Packet
--

theorem pcrPacket_length (nowUs : Nat) : (pcrPacket nowUs).length = 188 := by
  unfold pcrPacket pcrFront
  rw [List.length_append, List.length_replicate]
  exact rfl

theorem pcrPacket_front (nowUs : Nat) {i : Nat} (hi : i < 11) :
    (pcrPacket nowUs)[i]? = (pcrFront (nowUs * 27 / 300) (nowUs * 27 % 300))[i]? :=
  List.getElem?_append_left hi

/- The last nine bits that are read. -/
theorem pcrPacket_ext (nowUs : Nat) :
    field (pcrPacket nowUs) 87 9 = nowUs * 27 % 300 % 2 * 256 + 255 := by
  have hLowest : (pcrPacket nowUs)[10]? = some (BitVec.ofNat 8 (nowUs * 27 % 300 &&& 0xff)) :=
    pcrPacket_front nowUs (by decide)
  have hStuffing : (pcrPacket nowUs)[11]? = some 0xff :=
    (List.getElem?_append_right (Nat.le_refl 11)).trans rfl
  have hSplit : field (pcrPacket nowUs) 87 9 = _ :=
    field_add (m := 1) (n := 8) (by rw [pcrPacket_length]; decide)
  have hByte : field (pcrPacket nowUs) 88 8 = 255 := field_byte (k := 11) hStuffing
  have hBit := field_bit (k := 10) hLowest 7 (by decide)
  have hMask : nowUs * 27 % 300 &&& 0xff = nowUs * 27 % 300 % 256 :=
    Nat.and_two_pow_sub_one_eq_mod _ 8
  rw [hMask, BitVec.toNat_ofNat] at hBit
  rw [hSplit, hByte, hBit]
  omega

theorem pcrPacket_parses (nowUs : Nat) :
    Parses (pcrPacket nowUs)
      ((field (pcrPacket nowUs) 48 32 <<< 1 ||| field (pcrPacket nowUs) 80 1) * 300 +
        field (pcrPacket nowUs) 87 9) := by
  intro br hAt
  have hLength : field (pcrPacket nowUs) 32 8 = 183 :=
    field_byte (k := 4) (b := 0xb7) (pcrPacket_front nowUs (by decide))
  have hFlag : field (pcrPacket nowUs) 43 1 = 1 :=
    field_bit (k := 5) (b := 0x10) (pcrPacket_front nowUs (by decide)) 3 (by decide)
  have hReads := readAdaptationField_reads (pcrPacket_length nowUs) hLength
    (by rw [hFlag]; decide)
  rcases Parse.run_of_reads _ hAt hReads with ⟨r, hRun, hEnd⟩
  refine ⟨r, hRun, ?_⟩
  have hLeft := hEnd.numBitsLeft
  rw [pcrPacket_length] at hLeft
  omega

/- There is a reader behind the header, so that only one value is read. -/
theorem Parses.unique {PCR PCR' : Nat} (hSize : packet.length = 188) (hFirst : Parses packet PCR)
    (hSecond : Parses packet PCR') : PCR = PCR' := by
  rcases (ABitReader.create_at packet).getBits (by decide : 32 ≤ 32) (by omega) with ⟨br, -, hAt⟩
  rw [Nat.zero_add] at hAt
  rcases hFirst br hAt with ⟨r, hRun, -⟩
  rcases hSecond br hAt with ⟨r', hRun', -⟩
  rw [hRun] at hRun'
  cases hRun'
  rfl

/-
  The value that is read is never the one of the clock: its last nine bits are 255, and the lowest
  bit of the extension in front of them.
-/
theorem pcrPacket_misread (nowUs : Nat) :
    (∃ PCR, Parses (pcrPacket nowUs) PCR) ∧ ¬Parses (pcrPacket nowUs) (27 * nowUs) := by
  have hParses := pcrPacket_parses nowUs
  refine ⟨⟨_, hParses⟩, fun hKept => ?_⟩
  have hSame := hParses.unique (pcrPacket_length nowUs) hKept
  rw [pcrPacket_ext] at hSame
  omega

/- A value other than the clock, and a smaller one at a later time. -/
theorem pcrPacket_disordered :
    Parses (pcrPacket 12) 152655 ∧ Parses (pcrPacket 23) 76111 ∧
      ¬Parses (pcrPacket 12) (27 * 12) := by
  have hFirst : Parses (pcrPacket 12) 152655 := pcrPacket_parses 12
  refine ⟨hFirst, pcrPacket_parses 23, fun hKept => ?_⟩
  cases hFirst.unique (pcrPacket_length 12) hKept

end TSPacketizer

end FrameworksAv
