import FrameworksAv.Base.Bytes

/-
  Packets that a session receives (`ARTPConnection`, ARTPConnection.cpp).

  A result is missing where a read would leave the buffer.

  Main declarations:
    * `parseRTP`
    * `Packet`, `Packet.bytes`
    * `parseHeader_inside`, `parseHeader_bytes`
    * `parseRTP_delivers`
-/

--
-- Numbers
--

namespace FrameworksAv

/- The bytes of a number, the highest one first. -/
def netOrder (size value : Nat) : List Byte := (littleEndian size value).reverse

/- `data[offset]`, `u16at`, `u32at` and `u64at` -/
def wordAt (data : List Byte) (offset size : Nat) : Option Nat :=
  if offset + size ≤ data.length then some (ofLittleEndian ((data.drop offset).take size).reverse)
  else none

@[simp] theorem netOrder_length (size value : Nat) : (netOrder size value).length = size := by
  rw [netOrder, List.length_reverse, littleEndian_length]

theorem wordAt_inside {data : List Byte} {offset size : Nat} (hInside : offset + size ≤ data.length) :
    ∃ value, wordAt data offset size = some value :=
  ⟨_, if_pos hInside⟩

/- A number is read where it is. -/
theorem wordAt_netOrder {front behind : List Byte} {size value offset : Nat}
    (hOffset : front.length = offset) (hFits : value < 2 ^ (8 * size)) :
    wordAt (front ++ (netOrder size value ++ behind)) offset size = some value := by
  subst hOffset
  rw [wordAt, if_pos (by simp), List.drop_left, List.take_left' (netOrder_length size value),
    netOrder, List.reverse_reverse, ofLittleEndian_littleEndian hFits]

--
-- Code
--

namespace ARTPConnection

inductive Status
| OK
| ERROR
deriving DecidableEq, Repr

/- The range of a buffer and its data. -/
structure Delivery where
  offset : Nat
  size : Nat
  seqNum : Nat
  rtpTime : Nat
  PT : Nat
  M : Nat
deriving DecidableEq, Repr

/- What a source is told. -/
inductive Call
| processRTPPacket (delivery : Delivery)
| timeUpdate (rtpTime ntpTime : Nat)
| byeReceived
deriving DecidableEq, Repr

/- `calls` are the calls of sources so far, each with the source. -/
structure StreamInfo where
  mNumRTPPacketsReceived : Nat
  mNumRTCPPacketsReceived : Nat
  mSources : List Nat
  calls : List (Nat × Call)
deriving DecidableEq, Repr

namespace StreamInfo

/- A source is made for its first packet. -/
def findSource (s : StreamInfo) (srcId : Nat) : StreamInfo :=
  { s with mSources := if srcId ∈ s.mSources then s.mSources else s.mSources ++ [srcId] }

def call (s : StreamInfo) (srcId : Nat) (what : Call) : StreamInfo :=
  { s with calls := s.calls ++ [(srcId, what)] }

end StreamInfo

/- Without the padding; there may be too much of it. -/
def unpadded (data : List Byte) (flags size : Nat) : Option (Option Nat) :=
  if flags / 0x20 % 2 = 0 then some (some size)
  else
    (wordAt data (size - 1) 1).map fun paddingLength =>
      if size < paddingLength + 12 then none else some (size - paddingLength)

/- Behind the CSRCs and the extension. -/
def skipHeader (data : List Byte) (flags size : Nat) : Option (Option Nat) :=
  let payloadOffset := 12 + 4 * (flags % 0x10)
  if size < payloadOffset then some none
  else if flags / 0x10 % 2 = 0 then some (some payloadOffset)
  else if size < payloadOffset + 4 then some none
  else
    (wordAt data (payloadOffset + 2) 2).map fun count =>
      if size < payloadOffset + 4 + 4 * count then none else some (payloadOffset + 4 + 4 * count)

/- The source and what it gets; nothing of it where the packet is refused. -/
def parseHeader (data : List Byte) : Option (Option (Nat × Delivery)) :=
  if data.length < 12 then some none
  else
    (wordAt data 0 1).bind fun flags =>
    if flags / 0x40 ≠ 2 then some none
    else
      (unpadded data flags data.length).bind fun
      | none => some none
      | some size =>
        (skipHeader data flags size).bind fun
        | none => some none
        | some payloadOffset =>
          (wordAt data 8 4).bind fun srcId =>
          (wordAt data 4 4).bind fun rtpTime =>
          (wordAt data 1 1).bind fun type =>
          (wordAt data 2 2).map fun seqNum =>
            some
              (srcId,
                ⟨payloadOffset, size - payloadOffset, seqNum, rtpTime, type % 0x80, type / 0x80⟩)

def parseRTP (s : StreamInfo) (data : List Byte) : Option (Status × StreamInfo) :=
  let s := { s with mNumRTPPacketsReceived := s.mNumRTPPacketsReceived + 1 }
  (parseHeader data).map fun
  | none => (.ERROR, s)
  | some (srcId, delivery) => (.OK, (s.findSource srcId).call srcId (.processRTPPacket delivery))

--
-- Any Bytes
--

theorem unpadded_spec {data : List Byte} {size : Nat} (flags : Nat) (hSize : size ≤ data.length)
    (hPositive : 0 < size) :
    ∃ result, unpadded data flags size = some result ∧ ∀ left ∈ result, left ≤ size := by
  unfold unpadded
  split
  · refine ⟨_, rfl, fun left hLeft => ?_⟩
    cases hLeft
    exact Nat.le_refl _
  · rcases wordAt_inside (show size - 1 + 1 ≤ data.length by omega) with ⟨count, hCount⟩
    rw [hCount]
    refine ⟨_, rfl, fun left hLeft => ?_⟩
    dsimp only at hLeft
    split at hLeft
    · cases hLeft
    · cases hLeft
      exact Nat.sub_le size count

theorem skipHeader_spec {data : List Byte} {size : Nat} (flags : Nat) (hSize : size ≤ data.length) :
    ∃ result, skipHeader data flags size = some result ∧ ∀ offset ∈ result, offset ≤ size := by
  unfold skipHeader
  dsimp only
  generalize 12 + 4 * (flags % 16) = payloadOffset
  split
  · exact ⟨_, rfl, nofun⟩
  · split
    · refine ⟨_, rfl, fun offset hOffset => ?_⟩
      cases hOffset
      omega
    · split
      · exact ⟨_, rfl, nofun⟩
      · rcases wordAt_inside (show payloadOffset + 2 + 2 ≤ data.length by omega) with ⟨count, hCount⟩
        rw [hCount]
        refine ⟨_, rfl, fun offset hOffset => ?_⟩
        dsimp only at hOffset
        split at hOffset
        · cases hOffset
        · cases hOffset
          omega

/- Nothing is read outside, and a range is inside. -/
theorem parseHeader_inside (data : List Byte) :
    ∃ result, parseHeader data = some result ∧
      ∀ srcId delivery, result = some (srcId, delivery) →
        delivery.offset + delivery.size ≤ data.length := by
  unfold parseHeader
  split
  · exact ⟨_, rfl, nofun⟩
  · rename_i hShort
    have hLength := Nat.not_lt.mp hShort
    rcases wordAt_inside (show 0 + 1 ≤ data.length by omega) with ⟨flags, hFlags⟩
    rw [hFlags, Option.bind_some]
    split
    · exact ⟨_, rfl, nofun⟩
    · rcases unpadded_spec flags (Nat.le_refl data.length) (by omega) with
        ⟨unpaddedSize, hUnpadded, hSizes⟩
      rw [hUnpadded, Option.bind_some]
      cases unpaddedSize with
      | none => exact ⟨_, rfl, nofun⟩
      | some size =>
        have hSize := hSizes size rfl
        rcases skipHeader_spec flags hSize with ⟨offset, hSkip, hOffsets⟩
        dsimp only
        rw [hSkip, Option.bind_some]
        cases offset with
        | none => exact ⟨_, rfl, nofun⟩
        | some payloadOffset =>
          have hOffset := hOffsets payloadOffset rfl
          rcases wordAt_inside (show 8 + 4 ≤ data.length by omega) with ⟨srcId, hSrcId⟩
          rcases wordAt_inside (show 4 + 4 ≤ data.length by omega) with ⟨rtpTime, hTime⟩
          rcases wordAt_inside (show 1 + 1 ≤ data.length by omega) with ⟨type, hType⟩
          rcases wordAt_inside (show 2 + 2 ≤ data.length by omega) with ⟨seqNum, hSeqNum⟩
          simp only [hSrcId, hTime, hType, hSeqNum, Option.bind_some, Option.map_some]
          refine ⟨_, rfl, fun srcId delivery hSame => ?_⟩
          cases hSame
          change payloadOffset + (size - payloadOffset) ≤ data.length
          omega

--
-- Packets
--

/- A packet with its CSRCs, a profile with the words of an extension, and padding, if any. -/
structure Packet where
  marker : Bool
  payloadType : BitVec 7
  seqNum : BitVec 16
  timestamp : BitVec 32
  ssrc : BitVec 32
  csrcs : List (BitVec 32)
  extension : Option (BitVec 16 × List (BitVec 32))
  payload : List Byte
  padding : List Byte
  hCsrcs : csrcs.length ≤ 15
  hExtension : ∀ e ∈ extension, e.2.length < 2 ^ 16
  hPadding : ∀ last ∈ padding.getLast?, last.toNat = padding.length

/- The words in the order of the network. -/
def words (values : List (BitVec 32)) : List Byte := values.flatMap fun value => netOrder 4 value.toNat

theorem words_length (values : List (BitVec 32)) : (words values).length = 4 * values.length := by
  induction values with
  | nil => exact rfl
  | cons value values ih =>
    rw [words, List.flatMap_cons, List.length_append, netOrder_length, ← words, ih, List.length_cons]
    omega

namespace Packet

def flags (p : Packet) : Nat :=
  0x80 + (if p.padding = [] then 0 else 0x20) + (if p.extension.isSome then 0x10 else 0) +
    p.csrcs.length

def type (p : Packet) : Nat := (if p.marker then 0x80 else 0) + p.payloadType.toNat

def extensionBytes (p : Packet) : List Byte :=
  match p.extension with
  | none => []
  | some (profile, values) =>
    netOrder 2 profile.toNat ++ (netOrder 2 values.length ++ words values)

/- All in front of the padding. -/
def unpaddedBytes (p : Packet) : List Byte :=
  netOrder 1 p.flags ++ (netOrder 1 p.type ++ (netOrder 2 p.seqNum.toNat ++
    (netOrder 4 p.timestamp.toNat ++ (netOrder 4 p.ssrc.toNat ++ (words p.csrcs ++
      (p.extensionBytes ++ p.payload))))))

def bytes (p : Packet) : List Byte := p.unpaddedBytes ++ p.padding

/- Where the payload begins. -/
def payloadOffset (p : Packet) : Nat := 12 + 4 * p.csrcs.length + p.extensionBytes.length

variable (p : Packet)

theorem unpaddedBytes_length : p.unpaddedBytes.length = p.payloadOffset + p.payload.length := by
  simp only [unpaddedBytes, payloadOffset, List.length_append, netOrder_length, words_length]
  omega

theorem bytes_length : p.bytes.length = p.payloadOffset + p.payload.length + p.padding.length := by
  rw [bytes, List.length_append, unpaddedBytes_length]

theorem payload_range : (p.bytes.drop p.payloadOffset).take p.payload.length = p.payload := by
  have hSplit : p.bytes =
      (netOrder 1 p.flags ++ netOrder 1 p.type ++ netOrder 2 p.seqNum.toNat ++
        netOrder 4 p.timestamp.toNat ++ netOrder 4 p.ssrc.toNat ++ words p.csrcs ++
        p.extensionBytes) ++ (p.payload ++ p.padding) := by
    simp only [bytes, unpaddedBytes, List.append_assoc]
  rw [hSplit, List.drop_left', List.take_left]
  simp only [payloadOffset, List.length_append, netOrder_length, words_length]

theorem flags_lt : p.flags < 2 ^ (8 * 1) := by
  have hCsrcs := p.hCsrcs
  unfold flags
  split <;> split <;> omega

theorem flags_fields :
    p.flags / 0x40 = 2 ∧ (p.flags / 0x20 % 2 = 0 ↔ p.padding = []) ∧
      (p.flags / 0x10 % 2 = 0 ↔ p.extension = none) ∧ p.flags % 0x10 = p.csrcs.length := by
  have hCsrcs := p.hCsrcs
  rw [← Option.isNone_iff_eq_none, ← Option.not_isSome]
  unfold flags
  by_cases hPadding : p.padding = []
  · by_cases hExtension : p.extension.isSome
    · simp only [hPadding, hExtension]
      refine ⟨?_, ?_, ?_, ?_⟩ <;> simp <;> omega
    · simp only [hPadding, hExtension]
      refine ⟨?_, ?_, ?_, ?_⟩ <;> simp <;> omega
  · by_cases hExtension : p.extension.isSome
    · simp only [hPadding, hExtension]
      refine ⟨?_, ?_, ?_, ?_⟩ <;> simp <;> omega
    · simp only [hPadding, hExtension]
      refine ⟨?_, ?_, ?_, ?_⟩ <;> simp <;> omega

theorem type_lt : p.type < 2 ^ (8 * 1) := by
  have hType := p.payloadType.isLt
  unfold type
  split <;> omega

theorem type_fields : p.type % 0x80 = p.payloadType.toNat ∧ p.type / 0x80 = p.marker.toNat := by
  have hType := p.payloadType.isLt
  unfold type
  cases p.marker
  · simp
    omega
  · simp
    omega

/- The numbers of the fixed header. -/
theorem header_words :
    wordAt p.bytes 0 1 = some p.flags ∧ wordAt p.bytes 1 1 = some p.type ∧
      wordAt p.bytes 2 2 = some p.seqNum.toNat ∧ wordAt p.bytes 4 4 = some p.timestamp.toNat ∧
      wordAt p.bytes 8 4 = some p.ssrc.toNat := by
  unfold bytes unpaddedBytes
  simp only [List.append_assoc]
  generalize words p.csrcs ++ (p.extensionBytes ++ (p.payload ++ p.padding)) = rest
  refine ⟨wordAt_netOrder (List.length_nil) p.flags_lt, ?_, ?_, ?_, ?_⟩
  · exact wordAt_netOrder (netOrder_length 1 _) p.type_lt
  · rw [← List.append_assoc]
    exact wordAt_netOrder (by simp) p.seqNum.isLt
  · rw [← List.append_assoc, ← List.append_assoc]
    exact wordAt_netOrder (by simp) p.timestamp.isLt
  · rw [← List.append_assoc, ← List.append_assoc, ← List.append_assoc]
    exact wordAt_netOrder (by simp) p.ssrc.isLt

theorem unpadded_bytes :
    unpadded p.bytes p.flags p.bytes.length = some (some p.unpaddedBytes.length) := by
  rw [unpadded]
  rcases List.eq_nil_or_concat p.padding with hNone | ⟨front, last, hSome⟩
  · rw [if_pos (p.flags_fields.2.1.mpr hNone), bytes, hNone, List.append_nil]
  · have hNot : ¬p.flags / 0x20 % 2 = 0 := by
      rw [p.flags_fields.2.1, hSome]
      simp
    have hCount : last.toNat = p.padding.length := p.hPadding last (by simp [hSome])
    have hLength := p.unpaddedBytes_length
    have hLast : netOrder 1 last.toNat = [last] := by
      simp [netOrder, littleEndian]
    have hBytes : p.bytes = (p.unpaddedBytes ++ front) ++ (netOrder 1 last.toNat ++ []) := by
      rw [bytes, hSome, hLast, List.append_nil, List.concat_eq_append, List.append_assoc]
    have hWord : wordAt p.bytes (p.bytes.length - 1) 1 = some last.toNat := by
      have hOffset : (p.unpaddedBytes ++ front).length = p.bytes.length - 1 := by
        rw [hBytes]
        simp
      have hRead :
          wordAt ((p.unpaddedBytes ++ front) ++ (netOrder 1 last.toNat ++ [])) (p.bytes.length - 1) 1 =
            some last.toNat :=
        wordAt_netOrder hOffset last.isLt
      exact (congrArg (wordAt · _ 1) hBytes).trans hRead
    rw [if_neg hNot, hWord, Option.map_some, hCount, bytes, List.length_append, if_neg]
    · simp
    · rw [unpaddedBytes_length, payloadOffset]
      omega

theorem skipHeader_bytes :
    skipHeader p.bytes p.flags p.unpaddedBytes.length = some (some p.payloadOffset) := by
  rcases p.flags_fields with ⟨-, -, hFlag, hCount⟩
  have hLength := p.unpaddedBytes_length
  unfold skipHeader
  rw [hCount]
  dsimp only
  unfold payloadOffset at *
  rw [if_neg (by omega)]
  cases hExtension : p.extension with
  | none =>
    rw [if_pos (hFlag.mpr hExtension), extensionBytes, hExtension]
    simp
  | some extension =>
    rcases extension with ⟨profile, values⟩
    have hBytes : p.extensionBytes =
        netOrder 2 profile.toNat ++ (netOrder 2 values.length ++ words values) := by
      rw [extensionBytes, hExtension]
    have hSize : p.extensionBytes.length = 4 + 4 * values.length := by
      rw [hBytes]
      simp only [List.length_append, netOrder_length, words_length]
      omega
    have hWord : wordAt p.bytes (12 + 4 * p.csrcs.length + 2) 2 = some values.length := by
      have hSplit : p.bytes =
          (netOrder 1 p.flags ++ netOrder 1 p.type ++ netOrder 2 p.seqNum.toNat ++
            netOrder 4 p.timestamp.toNat ++ netOrder 4 p.ssrc.toNat ++ words p.csrcs ++
            netOrder 2 profile.toNat) ++
            (netOrder 2 values.length ++ (words values ++ (p.payload ++ p.padding))) := by
        simp only [bytes, unpaddedBytes, hBytes, List.append_assoc]
      rw [hSplit]
      apply wordAt_netOrder
      · simp only [List.length_append, netOrder_length, words_length]
      · exact p.hExtension _ hExtension
    rw [if_neg (by rw [hFlag, hExtension]; simp), if_neg (by omega), hWord, Option.map_some,
      if_neg (by omega), hSize, Nat.add_assoc _ 4]

/- Of a packet the source gets the payload. -/
theorem parseHeader_bytes :
    parseHeader p.bytes =
      some
        (some
          (p.ssrc.toNat,
            ⟨p.payloadOffset, p.payload.length, p.seqNum.toNat, p.timestamp.toNat,
              p.payloadType.toNat, p.marker.toNat⟩)) := by
  have hLength := p.bytes_length
  rcases p.header_words with ⟨hFlags, hType, hSeqNum, hTime, hSrcId⟩
  rcases p.type_fields with ⟨hPT, hM⟩
  unfold parseHeader
  rw [if_neg (by rw [hLength, payloadOffset]; omega), hFlags, Option.bind_some,
    if_neg (not_not.mpr p.flags_fields.1), unpadded_bytes, Option.bind_some]
  dsimp only
  rw [skipHeader_bytes, Option.bind_some]
  dsimp only
  rw [hSrcId, hTime, hType, hSeqNum]
  simp only [Option.bind_some, Option.map_some, hPT, hM, unpaddedBytes_length,
    Nat.add_sub_cancel_left]

end Packet

end ARTPConnection

end FrameworksAv
