import FrameworksAv.Mtp.Codec

/-
  A C string through the packet and back.

  Writing reads only written bytes exactly when at most one byte of the C string was counted and not
  stored. The writer puts the terminating zero into the length byte and the reader takes it for a
  character, so that a string which is read back is written with one unit more: only the empty
  string comes back as it was.

  Main declarations:
    * `MtpStringBuffer.emitted`, `MtpStringBuffer.Survives`
    * `MtpStringBuffer.set_ok`
    * `MtpStringBuffer.writeToPacket_ok`
    * `MtpStringBuffer.survives_iff`
-/

--
-- Setting
--

namespace FrameworksAv

namespace Mtp

namespace MtpStringBuffer

/- Every counted character adds at most three bytes. -/
theorem setLoop_le (src : List Byte) {count : Nat}
    (hCount : count ≤ MTP_STRING_MAX_CHARACTER_NUMBER) :
    count ≤ (setLoop src count).2 ∧ (setLoop src count).2 ≤ MTP_STRING_MAX_CHARACTER_NUMBER ∧
      (setLoop src count).1.length ≤ 3 * ((setLoop src count).2 - count) := by
  fun_induction setLoop src count with
  | case1 count => simpa using hCount
  | case2 ch src count hFull => simpa using hCount
  | case3 ch src count hRoom hOne text total hLoop ih =>
    rw [hLoop] at ih
    have hRest := ih (by omega)
    simp only [List.length_cons] at hRest ⊢
    omega
  | case4 ch count hRoom hHigh hTwo => simpa using hCount
  | case5 ch count hRoom hHigh hTwo ch1 src text total hLoop ih =>
    rw [hLoop] at ih
    have hRest := ih (by omega)
    simp only [List.length_cons] at hRest ⊢
    omega
  | case6 ch count hRoom hHigh hTwo hThree => simpa using hCount
  | case7 ch count hRoom hHigh hTwo hThree ch1 => simpa using hCount
  | case8 ch count hRoom hHigh hTwo hThree ch1 ch2 src text total hLoop ih =>
    rw [hLoop] at ih
    have hRest := ih (by omega)
    simp only [List.length_cons] at hRest ⊢
    omega
  | case9 ch src count hRoom hHigh hTwo hThree ih =>
    have hRest := ih (by omega)
    omega

/-
  A buffer after a C string was set: whole characters, the end of the text, and a count that has the
  skipped bytes.
-/
structure Holds (buffer : MtpStringBuffer) (src : List Byte) (chars : List (List Byte)) : Prop where
  isChar : ∀ char ∈ chars, IsChar char
  nonzero : 0 ∉ chars.flatten
  charCount : buffer.mCharCount = chars.length + skipped src 0
  charCount_eq : buffer.mCharCount = (setLoop src 0).2
  charCount_le : buffer.mCharCount ≤ MTP_STRING_MAX_CHARACTER_NUMBER
  byteCount : buffer.mByteCount = chars.flatten.length + 1
  array : ∃ left, buffer.mBuffer = chars.flatten ++ [0] ++ left
  size : buffer.mBuffer.length = MTP_STRING_BUFFER_SIZE

theorem set_ok {old : MtpStringBuffer} {src : List Byte}
    (hOld : old.mBuffer.length = MTP_STRING_BUFFER_SIZE) (hSrc : 0 ∉ src) :
    ∃ buffer chars, old.set src = .ok buffer ∧ buffer.Holds src chars := by
  rcases setLoop_chars src 0 hSrc with ⟨chars, hText, hChars, hNone, hTotal⟩
  have hBounds := setLoop_le src (Nat.zero_le _)
  have hMax : MTP_STRING_MAX_CHARACTER_NUMBER = 255 := rfl
  have hSize : MTP_STRING_BUFFER_SIZE = 766 := rfl
  have hFits : (chars.flatten ++ [0]).length ≤ old.mBuffer.length := by
    rw [List.length_append, List.length_singleton, ← hText]
    omega
  refine
    ⟨⟨chars.flatten ++ [0] ++ old.mBuffer.drop (chars.flatten ++ [0]).length,
      (setLoop src 0).2, chars.flatten.length + 1⟩, chars, ?_,
      hChars, hNone, by simpa using hTotal, rfl, hBounds.2.1,
      rfl, ⟨_, rfl⟩, ?_⟩
  · unfold set
    simp only
    rw [hText, store_front hFits, Checked.ok_bind, Checked.pure_eq]
  · simp only [List.length_append, List.length_drop, List.length_singleton] at hFits ⊢
    omega

/- Text in front of a zero in an array is the C string. -/
theorem text_of_array {buffer : MtpStringBuffer} {stored left : List Byte} (hStored : 0 ∉ stored)
    (hArray : buffer.mBuffer = stored ++ [0] ++ left) : buffer.text = stored := by
  have hKeep : ∀ byte ∈ stored, decide (byte ≠ 0) = true := by
    intro byte hMember
    simp only [decide_eq_true_eq]
    rintro rfl
    exact hStored hMember
  rw [text, hArray, List.append_assoc, List.takeWhile_append_of_pos hKeep]
  simp

/- The text of a buffer that was set is what it stored. -/
theorem Holds.text_eq {buffer : MtpStringBuffer} {src : List Byte} {chars : List (List Byte)}
    (hHolds : buffer.Holds src chars) : buffer.text = chars.flatten := by
  rcases hHolds.array with ⟨left, hArray⟩
  exact text_of_array hHolds.nonzero hArray

--
-- Writing
--

/- The bytes that are emitted for the units of a text. -/
def emitted (units : List (BitVec 16)) : List Byte :=
  if units = [] then [0]
  else BitVec.ofNat 8 (units.length + 1) :: unitBytes (units ++ [0])

theorem emitted_length_of_ne {units : List (BitVec 16)} (hSome : units ≠ []) :
    (emitted units).length = 2 * units.length + 3 := by
  rw [emitted, if_neg hSome, List.length_cons, unitBytes_length, List.length_append,
    List.length_singleton]
  omega

theorem unitBytes_append (first second : List (BitVec 16)) :
    unitBytes (first ++ second) = unitBytes first ++ unitBytes second :=
  List.flatMap_append

theorem writeToPacket_of_expand {buffer : MtpStringBuffer} {units : List (BitVec 16)} {next : Nat}
    (hExpand :
      ∀ packet : MtpDataPacket, packet.Valid →
        expand buffer.mBuffer buffer.mCharCount 0 packet = .ok (packet.put (unitBytes units), next))
    (hLength : units.length = buffer.mCharCount) {packet : MtpDataPacket} (hValid : packet.Valid) :
    buffer.writeToPacket packet = .ok (packet.put (emitted units), next) := by
  have hStart (count : Byte) : (packet.putUInt8 count).Valid := MtpDataPacket.put_valid hValid _
  unfold writeToPacket
  simp only
  rw [hExpand _ (hStart _), Checked.ok_bind, ← hLength]
  unfold MtpDataPacket.putUInt8 MtpDataPacket.putUInt16
  simp only
  rw [MtpDataPacket.put_put hValid]
  by_cases hNone : units = []
  · subst hNone
    simp [emitted, unitBytes]
  · have hSome : 0 < units.length := List.length_pos_of_ne_nil hNone
    rw [if_pos hSome, if_pos hSome, MtpDataPacket.put_put hValid, Checked.pure_eq, emitted,
      if_neg hNone, unitBytes_append]
    rfl

/- Writing never leaves the array, whatever it holds. -/
theorem writeToPacket_ok {buffer : MtpStringBuffer}
    (hArray : buffer.mBuffer.length = MTP_STRING_BUFFER_SIZE)
    (hCount : buffer.mCharCount ≤ MTP_STRING_MAX_CHARACTER_NUMBER) :
    ∃ units next,
      (∀ packet : MtpDataPacket, packet.Valid →
        buffer.writeToPacket packet = .ok (packet.put (emitted units), next)) ∧
      units.length = buffer.mCharCount := by
  have hMax : MTP_STRING_MAX_CHARACTER_NUMBER = 255 := rfl
  have hSize : MTP_STRING_BUFFER_SIZE = 766 := rfl
  rcases expand_ok buffer.mCharCount
      (by omega : 0 + 3 * buffer.mCharCount ≤ buffer.mBuffer.length) with
    ⟨units, next, hExpand, hLength, -, -⟩
  exact ⟨units, next, fun packet hValid =>
      writeToPacket_of_expand hExpand hLength hValid, hLength⟩

theorem flatten_length_le {chars : List (List Byte)} (hChars : ∀ char ∈ chars, IsChar char) :
    chars.flatten.length ≤ 3 * chars.length := by
  induction chars with
  | nil => simp
  | cons char chars ih =>
    have hFirst := (hChars char List.mem_cons_self).length_le
    have hRest :=
      ih (fun char' hMember =>
        hChars char' (List.mem_cons_of_mem _ hMember))
    rw [List.flatten_cons, List.length_append, List.length_cons]
    omega

/-
  The first counted byte that was not stored takes the end of the text for its unit; the next one
  reads on.
-/
theorem expand_reads {mBuffer left : List Byte} {chars : List (List Byte)} {skip : Nat}
    {packet sent : MtpDataPacket} {next : Nat} (hValid : packet.Valid)
    (hChars : ∀ char ∈ chars, IsChar char) (hArray : mBuffer = chars.flatten ++ [0] ++ left)
    (hRoom : 3 * (chars.length + skip) + 1 ≤ mBuffer.length)
    (hExpand : expand mBuffer (chars.length + skip) 0 packet = .ok (sent, next)) :
    next ≤ chars.flatten.length + 1 ↔ skip ≤ 1 := by
  have hText := flatten_length_le hChars
  have hStored :
      expand mBuffer chars.length 0 packet =
        .ok (packet.put (unitBytes (chars.map decodeChar)), chars.flatten.length) :=
    expand_chars hValid hChars
      (by simpa using hArray : mBuffer = [] ++ chars.flatten ++ ([0] ++ left))
  rw [expand_add hStored] at hExpand
  have hSent : (packet.put (unitBytes (chars.map decodeChar))).Valid :=
    MtpDataPacket.put_valid hValid _
  cases skip with
  | zero =>
    rw [expand, Checked.pure_eq] at hExpand
    cases hExpand
    simp
  | succ skip =>
    have hZero : IsChar [0] := .one (by decide)
    have hEnd := expandChar_char hZero hArray
    rw [expand, hEnd, Checked.ok_bind] at hExpand
    simp only [List.length_append, List.length_singleton] at hExpand
    rcases expand_ok skip (by omega : chars.flatten.length + 1 + 3 * skip ≤ mBuffer.length) with
      ⟨units, last, hRest, -, hLow, hHigh⟩
    have hUnit :
        ((packet.put (unitBytes (chars.map decodeChar))).putUInt16 (decodeChar [0])).Valid :=
      MtpDataPacket.put_valid hSent _
    rw [hRest _ hUnit] at hExpand
    cases hExpand
    omega

/-
  Writing stays among the written bytes of the array exactly when at most one byte was counted and
  not stored.
-/
theorem writeToPacket_inside_iff {buffer : MtpStringBuffer} {src : List Byte}
    {chars : List (List Byte)} (hHolds : buffer.Holds src chars) {packet : MtpDataPacket}
    (hValid : packet.Valid) :
    ∃ units reads, buffer.writeToPacket packet = .ok (packet.put (emitted units), reads) ∧
      units.length = buffer.mCharCount ∧ (reads ≤ buffer.mByteCount ↔ skipped src 0 ≤ 1) := by
  have hMax : MTP_STRING_MAX_CHARACTER_NUMBER = 255 := rfl
  have hSize : MTP_STRING_BUFFER_SIZE = 766 := rfl
  have hLe := hHolds.charCount_le
  have hArray := hHolds.size
  rcases hHolds.array with ⟨left, hBuffer⟩
  rcases expand_ok buffer.mCharCount
      (by omega : 0 + 3 * buffer.mCharCount ≤ buffer.mBuffer.length) with
    ⟨units, next, hExpand, hLength, -, -⟩
  refine ⟨units, next, writeToPacket_of_expand hExpand hLength hValid, hLength, ?_⟩
  have hRun := hExpand packet hValid
  rw [hHolds.charCount] at hRun
  rw [hHolds.byteCount]
  refine expand_reads hValid hHolds.isChar hBuffer ?_ hRun
  rw [← hHolds.charCount]
  omega

end MtpStringBuffer

--
-- Reading Back
--

namespace MtpDataPacket

/- A packet in which reading starts at an earlier offset. -/
def rewind (packet : MtpDataPacket) (mOffset : Nat) : MtpDataPacket :=
  { packet with mOffset := mOffset }

theorem put_rewind {packet : MtpDataPacket} (hValid : packet.Valid) (bytes : List Byte) :
    (packet.put bytes).rewind packet.mOffset =
      ⟨packet.mBuffer.take packet.mOffset ++
        (bytes ++ packet.mBuffer.drop (packet.mOffset + bytes.length)),
        (packet.mBuffer.take packet.mOffset).length⟩ := by
  have hLe : packet.mOffset ≤ packet.mBuffer.length := hValid
  simp only [rewind, put, List.append_assoc, mk.injEq, List.length_take]
  exact ⟨trivial, by omega⟩

/- What was put can be told from the packet. -/
theorem put_inj {packet : MtpDataPacket} {first second : List Byte}
    (hSame : packet.put first = packet.put second) :
    first = second := by
  simp only [put, mk.injEq] at hSame
  have hLength : first.length = second.length := by omega
  have hBytes := hSame.1
  rw [List.append_assoc, List.append_assoc] at hBytes
  have hTail := List.append_cancel_left hBytes
  exact (List.append_inj hTail hLength).1

end MtpDataPacket

namespace MtpStringBuffer

/- What reading a string back from its packet yields, given that the length byte is right. -/
theorem readFromPacket_put {reader : MtpStringBuffer} {packet : MtpDataPacket}
    (units : List (BitVec 16)) (hReader : reader.mBuffer.length = MTP_STRING_BUFFER_SIZE)
    (hValid : packet.Valid) (hShort : units.length < 256) :
    ∃ back,
      reader.readFromPacket
          ((packet.put (BitVec.ofNat 8 units.length :: unitBytes units)).rewind packet.mOffset) =
        .ok (true, back, packet.put (BitVec.ofNat 8 units.length :: unitBytes units)) ∧
      back.mCharCount = units.length ∧
      (∃ left, back.mBuffer = units.flatMap encodeChar ++ [0] ++ left) ∧
      back.mBuffer.length = MTP_STRING_BUFFER_SIZE := by
  have hLe : packet.mOffset ≤ packet.mBuffer.length := hValid
  have hTextLength := flatMap_encodeChar_length_le units
  have hSize : MTP_STRING_BUFFER_SIZE = 766 := rfl
  rw [MtpDataPacket.put_rewind hValid, readFromPacket_units hReader hShort]
  refine
    ⟨⟨units.flatMap encodeChar ++ [0] ++
        reader.mBuffer.drop ((units.flatMap encodeChar).length + 1),
      units.length, (units.flatMap encodeChar).length + 1⟩, ?_, rfl, ⟨_, rfl⟩, ?_⟩
  · simp only [MtpDataPacket.put, List.append_assoc, List.length_take, List.length_cons]
    rw [Nat.min_eq_left hLe, Nat.add_comm 1]
  · simp only [List.length_append, List.length_drop, List.length_singleton]
    omega

--
-- Surviving
--

/-
  What is asked of a string in a packet: writing reads only written bytes, the length byte counts
  the units, and reading consumes exactly them and yields the same text, which is written as the
  same bytes again.
-/
def Survives (buffer reader : MtpStringBuffer) (packet : MtpDataPacket) : Prop :=
  ∃ (lengthByte : Byte) (units : List (BitVec 16))
    (reads : Nat) (back : MtpStringBuffer) (again : Nat),
    buffer.writeToPacket packet = .ok (packet.put (lengthByte :: unitBytes units), reads) ∧
    reads ≤ buffer.mByteCount ∧ lengthByte.toNat = units.length ∧
    reader.readFromPacket ((packet.put (lengthByte :: unitBytes units)).rewind packet.mOffset) =
      .ok (true, back, packet.put (lengthByte :: unitBytes units)) ∧
    back.text = buffer.text ∧
    back.writeToPacket packet = .ok (packet.put (lengthByte :: unitBytes units), again)

/- C strings that are empty, or one character cut short. -/
inductive CutShort : List Byte → Prop
| empty : CutShort []
| two {a : Byte} (hLead : a &&& 0xE0 = 0xC0) : CutShort [a]
| three {a : Byte} (hLead : a &&& 0xF0 = 0xE0) : CutShort [a]
| threeMore {a b : Byte} (hLead : a &&& 0xF0 = 0xE0) : CutShort [a, b]

theorem lead_bits :
    ∀ a : Byte, (a &&& 0xE0 = 0xC0 → a &&& 0x80 ≠ 0) ∧
      (a &&& 0xF0 = 0xE0 → a &&& 0x80 ≠ 0 ∧ a &&& 0xE0 ≠ 0xC0) := by
  decide +kernel

/- Nothing is counted of these strings only. -/
theorem setLoop_eq_zero_iff (src : List Byte) : (setLoop src 0).2 = 0 ↔ CutShort src := by
  have hRoom : ¬¬0 < MTP_STRING_MAX_CHARACTER_NUMBER := by
    decide
  have hCounted (more : List Byte) : (setLoop more (0 + 1)).2 ≠ 0 := by
    have hLow := (setLoop_le more (by decide : 0 + 1 ≤ MTP_STRING_MAX_CHARACTER_NUMBER)).1
    omega
  constructor
  · intro hZero
    rcases src with _ | ⟨a, src⟩
    · exact .empty
    · unfold setLoop at hZero
      rw [if_neg hRoom] at hZero
      by_cases hOne : a &&& 0x80 = 0
      · rw [if_pos hOne] at hZero
        exact absurd hZero (hCounted src)
      · rw [if_neg hOne] at hZero
        by_cases hTwo : a &&& 0xE0 = 0xC0
        · rw [if_pos hTwo] at hZero
          rcases src with _ | ⟨b, src⟩
          · exact .two hTwo
          · exact absurd hZero (hCounted src)
        · rw [if_neg hTwo] at hZero
          by_cases hThree : a &&& 0xF0 = 0xE0
          · rw [if_pos hThree] at hZero
            rcases src with _ | ⟨b, _ | ⟨c, src⟩⟩
            · exact .three hThree
            · exact .threeMore hThree
            · exact absurd hZero (hCounted src)
          · rw [if_neg hThree] at hZero
            exact absurd hZero (hCounted src)
  · intro hShort
    cases hShort with
    | empty => rfl
    | @two a hLead =>
      unfold setLoop
      rw [if_neg hRoom, if_neg ((lead_bits a).1 hLead), if_pos hLead]
    | @three a hLead =>
      unfold setLoop
      rw [if_neg hRoom, if_neg ((lead_bits a).2 hLead).1,
        if_neg ((lead_bits a).2 hLead).2, if_pos hLead]
    | @threeMore a b hLead =>
      unfold setLoop
      rw [if_neg hRoom, if_neg ((lead_bits a).2 hLead).1,
        if_neg ((lead_bits a).2 hLead).2, if_pos hLead]

/- A string that was counted is written with more units. -/
theorem charCount_of_survives {buffer reader : MtpStringBuffer} {packet : MtpDataPacket}
    (hArray : buffer.mBuffer.length = MTP_STRING_BUFFER_SIZE)
    (hCount : buffer.mCharCount ≤ MTP_STRING_MAX_CHARACTER_NUMBER)
    (hReader : reader.mBuffer.length = MTP_STRING_BUFFER_SIZE) (hValid : packet.Valid)
    (hSurvives : buffer.Survives reader packet) : buffer.mCharCount = 0 := by
  have hMax : MTP_STRING_MAX_CHARACTER_NUMBER = 255 := rfl
  rcases hSurvives with ⟨lengthByte, units, reads, back, again, hWrite, -, hByte, hRead, -, hAgain⟩
  have hShort : units.length < 256 := hByte ▸ lengthByte.isLt
  have hLengthByte : lengthByte = BitVec.ofNat 8 units.length := by
    rw [← hByte, BitVec.ofNat_toNat, BitVec.setWidth_eq]
  subst hLengthByte
  rcases readFromPacket_put units hReader hValid hShort with ⟨back', hRead', hBack, -, hSize⟩
  rw [hRead'] at hRead
  cases hRead
  rcases writeToPacket_ok hArray hCount with ⟨text, next, hText, hTextLength⟩
  rcases writeToPacket_ok hSize (by omega) with ⟨text', next', hText', hTextLength'⟩
  rw [hText packet hValid] at hWrite
  rw [hText' packet hValid] at hAgain
  simp only [Except.ok.injEq, Prod.mk.injEq] at hWrite hAgain
  have hFirst := MtpDataPacket.put_inj hWrite.1
  have hSecond := MtpDataPacket.put_inj hAgain.1
  by_contra hSome
  have hUnits : text ≠ [] := by
    rintro rfl
    exact hSome hTextLength.symm
  have hFirstLength := congrArg List.length hFirst
  rw [emitted_length_of_ne hUnits, List.length_cons, unitBytes_length] at hFirstLength
  have hUnits' : text' ≠ [] := by
    rintro rfl
    rw [List.length_nil] at hTextLength'
    omega
  have hSecondLength := congrArg List.length hSecond
  rw [emitted_length_of_ne hUnits', List.length_cons, unitBytes_length] at hSecondLength
  omega

theorem survives_of_charCount {buffer reader : MtpStringBuffer} {src : List Byte}
    {chars : List (List Byte)} {packet : MtpDataPacket} (hHolds : buffer.Holds src chars)
    (hReader : reader.mBuffer.length = MTP_STRING_BUFFER_SIZE) (hValid : packet.Valid)
    (hZero : buffer.mCharCount = 0) : buffer.Survives reader packet := by
  have hNone : chars = [] := by
    have hCount := hHolds.charCount
    exact List.eq_nil_of_length_eq_zero (by omega)
  have hEmpty (other : MtpStringBuffer) (hOther : other.mCharCount = 0) :
      other.writeToPacket packet = .ok (packet.put [0], 0) := by
    rw [writeToPacket, hOther]
    rfl
  rcases readFromPacket_put [] hReader hValid (by decide) with
    ⟨back, hRead, hBack, ⟨left, hArray⟩, -⟩
  refine ⟨0, [], 0, back, 0, hEmpty buffer hZero, Nat.zero_le _, rfl, hRead, ?_, hEmpty back hBack⟩
  rw [text_of_array List.not_mem_nil hArray, hHolds.text_eq, hNone]
  rfl

/-
  A C string survives exactly when nothing of it is counted; writing it stays inside the written
  bytes exactly when at most one byte is counted and not stored; and reading any packet stays inside
  it and inside the array.
-/
theorem survives_iff {old reader : MtpStringBuffer} {src : List Byte} {packet : MtpDataPacket}
    (hOld : old.mBuffer.length = MTP_STRING_BUFFER_SIZE)
    (hReader : reader.mBuffer.length = MTP_STRING_BUFFER_SIZE) (hSrc : 0 ∉ src)
    (hValid : packet.Valid) :
    (∃ buffer sent reads, old.set src = .ok buffer ∧
      (buffer.Survives reader packet ↔ CutShort src) ∧
      buffer.writeToPacket packet = .ok (sent, reads) ∧
      (reads ≤ buffer.mByteCount ↔ skipped src 0 ≤ 1)) ∧
    (∃ done next after, reader.readFromPacket packet = .ok (done, next, after) ∧
      next.mBuffer.length = MTP_STRING_BUFFER_SIZE ∧
      after.mBuffer = packet.mBuffer ∧ after.Valid) := by
  refine ⟨?_, readFromPacket_ok hReader hValid⟩
  rcases set_ok hOld hSrc with ⟨buffer, chars, hSet, hHolds⟩
  rcases writeToPacket_inside_iff hHolds hValid with ⟨units, reads, hWrite, -, hInside⟩
  refine ⟨buffer, _, reads, hSet, ?_, hWrite, hInside⟩
  rw [← setLoop_eq_zero_iff, ← hHolds.charCount_eq]
  exact
    ⟨charCount_of_survives hHolds.size hHolds.charCount_le hReader hValid,
      survives_of_charCount hHolds hReader hValid⟩

/- A string buffer that holds nothing yet. -/
def fresh : MtpStringBuffer where
  mBuffer := List.replicate MTP_STRING_BUFFER_SIZE 0
  mCharCount := 0
  mByteCount := 1

theorem fresh_size : fresh.mBuffer.length = MTP_STRING_BUFFER_SIZE :=
  List.length_replicate

theorem empty_valid : MtpDataPacket.Valid ⟨[], 0⟩ :=
  Nat.le_refl 0

/- The letter a is written as 02 61 00 00 00. -/
theorem survives_iff_letter :
    ∃ buffer sent reads, fresh.set [0x61] = .ok buffer ∧
      (buffer.Survives fresh ⟨[], 0⟩ ↔ CutShort [0x61]) ∧
      buffer.writeToPacket ⟨[], 0⟩ = .ok (sent, reads) ∧
      (reads ≤ buffer.mByteCount ↔ skipped [0x61] 0 ≤ 1) :=
  (survives_iff fresh_size fresh_size (by decide) empty_valid).1

/- Read back and written again it is 03 61 00 00 00 00 00. -/
theorem survives_rejected :
    ¬∀ src : List Byte, 0 ∉ src →
      ∀ buffer, fresh.set src = .ok buffer → buffer.Survives fresh ⟨[], 0⟩ := by
  intro hAll
  have hLetter : (0 : Byte) ∉ ([0x61] : List Byte) := by decide
  rcases set_ok fresh_size hLetter with ⟨buffer, chars, hSet, hHolds⟩
  have hZero :=
    charCount_of_survives hHolds.size hHolds.charCount_le
      fresh_size empty_valid (hAll _ hLetter buffer hSet)
  have hOne : (setLoop [0x61] 0).2 = 1 := by decide
  have hCount := hHolds.charCount_eq
  omega

end MtpStringBuffer

end Mtp

end FrameworksAv
