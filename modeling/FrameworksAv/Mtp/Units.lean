import FrameworksAv.Mtp.StringBuffer

/-
  Characters of one to three bytes and their 16-bit units.

  Main declarations:
    * `IsChar`, `decodeChar`
    * `MtpStringBuffer.expand_chars`
    * `MtpStringBuffer.setLoop_chars`
-/

--
-- Characters
--

namespace FrameworksAv

namespace Mtp

/- What is stored as one character, whatever its last bytes. -/
inductive IsChar : List Byte → Prop
| one {a : Byte} (hLead : a &&& 0x80 = 0) : IsChar [a]
| two {a b : Byte} (hHigh : a &&& 0x80 ≠ 0) (hLead : a &&& 0xE0 = 0xC0) : IsChar [a, b]
| three {a b c : Byte} (hHigh : a &&& 0x80 ≠ 0) (hMore : a &&& 0xE0 ≠ 0xC0)
    (hLead : a &&& 0xF0 = 0xE0) : IsChar [a, b, c]

def decodeChar : List Byte → BitVec 16
| [a] => a.setWidth 16
| [a, b] => ((a.setWidth 16 &&& 0x1F) <<< 6) ||| (b.setWidth 16 &&& 0x3F)
| [a, b, c] =>
  ((a.setWidth 16 &&& 0x0F) <<< 12) ||| ((b.setWidth 16 &&& 0x3F) <<< 6) |||
    (c.setWidth 16 &&& 0x3F)
| _ => 0

theorem IsChar.length_le {char : List Byte} (hChar : IsChar char) : char.length ≤ 3 := by
  cases hChar <;> simp

theorem two_bits :
    ∀ a : Byte, a.toNat < 32 → (0xC0 ||| a).setWidth 16 &&& (0x1F : BitVec 16) = a.setWidth 16 ∧
      (0xC0 ||| a) &&& 0x80 ≠ 0 ∧ (0xC0 ||| a) &&& 0xE0 = 0xC0 ∧ 0xC0 ||| a ≠ 0 := by
  decide +kernel

theorem three_bits :
    ∀ a : Byte, a.toNat < 16 → (0xE0 ||| a).setWidth 16 &&& (0x0F : BitVec 16) = a.setWidth 16 ∧
      (0xE0 ||| a) &&& 0x80 ≠ 0 ∧ (0xE0 ||| a) &&& 0xE0 ≠ 0xC0 ∧
      (0xE0 ||| a) &&& 0xF0 = 0xE0 ∧ 0xE0 ||| a ≠ 0 := by
  decide +kernel

theorem one_bits : ∀ a : Byte, a.toNat < 128 → a &&& 0x80 = 0 := by
  decide +kernel

variable (ch : BitVec 16)

theorem high_bits (n : Nat) (hWide : ch.toNat / 2 ^ n < 256) :
    ((ch >>> n).setWidth 8).toNat = ch.toNat / 2 ^ n := by
  rw [BitVec.toNat_setWidth, BitVec.toNat_ushiftRight, Nat.shiftRight_eq_div_pow]
  exact Nat.mod_eq_of_lt hWide

/- Every unit is written as one character. -/
theorem isChar_encodeChar : IsChar (MtpStringBuffer.encodeChar ch) := by
  have hLt : ch.toNat < 65536 := ch.isLt
  unfold MtpStringBuffer.encodeChar
  by_cases hThree : 0x0800 ≤ ch.toNat
  · rw [if_pos hThree]
    have hHigh := high_bits ch 12 (by omega)
    have hBits := three_bits ((ch >>> 12).setWidth 8) (by omega)
    exact .three hBits.2.1 hBits.2.2.1 hBits.2.2.2.1
  · rw [if_neg hThree]
    by_cases hTwo : 0x80 ≤ ch.toNat
    · rw [if_pos hTwo]
      have hHigh := high_bits ch 6 (by omega)
      have hBits := two_bits ((ch >>> 6).setWidth 8) (by omega)
      exact .two hBits.2.1 hBits.2.2.1
    · rw [if_neg hTwo]
      have hLow : (ch.setWidth 8).toNat = ch.toNat := by
        rw [BitVec.toNat_setWidth]
        omega
      exact .one (one_bits _ (by omega))

end Mtp

--
-- Putting Units
--

namespace Mtp

/- The bytes of units in a packet. -/
def unitBytes (units : List (BitVec 16)) : List Byte :=
  units.flatMap
    (fun ch : BitVec 16 =>
      [ch.setWidth 8, (ch >>> 8).setWidth 8])

@[simp] theorem unitBytes_length (units : List (BitVec 16)) :
    (unitBytes units).length = 2 * units.length := by
  induction units with
  | nil => rfl
  | cons ch units ih =>
    rw [unitBytes, List.flatMap_cons, List.length_append, ← unitBytes, ih, List.length_cons]
    simp only [List.length_cons, List.length_nil]
    omega

namespace MtpDataPacket

/- The offset does not lie behind the packet. -/
def Valid (packet : MtpDataPacket) : Prop :=
  packet.mOffset ≤ packet.mPacketSize

theorem put_valid {packet : MtpDataPacket} (hValid : packet.Valid) (bytes : List Byte) :
    (packet.put bytes).Valid := by
  unfold Valid mPacketSize at *
  simp only [put, List.length_append, List.length_take, List.length_drop]
  omega

/- Puts one after the other are one put. -/
theorem put_put {packet : MtpDataPacket} (hValid : packet.Valid) (first second : List Byte) :
    (packet.put first).put second = packet.put (first ++ second) := by
  have hFront :
      (packet.mBuffer.take packet.mOffset ++ first).length = packet.mOffset + first.length := by
    unfold Valid mPacketSize at hValid
    rw [List.length_append, List.length_take]
    omega
  simp only [put, mk.injEq, List.length_append]
  refine ⟨?_, by omega⟩
  rw [List.take_left' hFront, ← List.drop_drop,
    List.drop_left' hFront, List.drop_drop, Nat.add_assoc,
    List.append_assoc (packet.mBuffer.take packet.mOffset)]

@[simp] theorem put_nil (packet : MtpDataPacket) : packet.put [] = packet := by
  simp [put]

/- Units put one after the other. -/
theorem putUInt16_put {packet : MtpDataPacket} (hValid : packet.Valid) (ch : BitVec 16)
    (units : List (BitVec 16)) :
    (packet.putUInt16 ch).put (unitBytes units) = packet.put (unitBytes (ch :: units)) :=
  put_put hValid _ _

end MtpDataPacket

namespace MtpStringBuffer

variable {mBuffer : List Byte}

/- A character in the middle of an array. -/
theorem expandChar_char {front char after : List Byte} (hChar : IsChar char)
    (hBuffer : mBuffer = front ++ char ++ after) :
    expandChar mBuffer front.length = .ok (decodeChar char, (front ++ char).length) := by
  cases hChar with
  | @one a hLead =>
    have hFirst : Buffer.read mBuffer front.length = .ok a :=
      Buffer.read_mid front (by simpa using hBuffer) rfl
    rw [expandChar, hFirst, Checked.ok_bind, if_pos hLead]
    simp [decodeChar]
  | @two a b hHigh hLead =>
    have hFirst : Buffer.read mBuffer front.length = .ok a :=
      Buffer.read_mid front (by simpa using hBuffer) rfl
    have hSecond : Buffer.read mBuffer (front.length + 1) = .ok b :=
      Buffer.read_mid (front ++ [a]) (by simpa using hBuffer) (by simp)
    rw [expandChar, hFirst, Checked.ok_bind, if_neg hHigh, if_pos hLead, hSecond, Checked.ok_bind]
    simp [decodeChar]
  | @three a b c hHigh hMore hLead =>
    have hFirst : Buffer.read mBuffer front.length = .ok a :=
      Buffer.read_mid front (by simpa using hBuffer) rfl
    have hSecond : Buffer.read mBuffer (front.length + 1) = .ok b :=
      Buffer.read_mid (front ++ [a]) (by simpa using hBuffer) (by simp)
    have hThird : Buffer.read mBuffer (front.length + 2) = .ok c :=
      Buffer.read_mid (front ++ [a, b]) (by simpa using hBuffer) (by simp)
    rw [expandChar, hFirst, Checked.ok_bind, if_neg hHigh,
      if_neg hMore, hSecond, Checked.ok_bind, hThird, Checked.ok_bind]
    simp [decodeChar]

/- Stored characters are expanded to their units. -/
theorem expand_chars {front after : List Byte} {chars : List (List Byte)} {packet : MtpDataPacket}
    (hValid : packet.Valid) (hChars : ∀ char ∈ chars, IsChar char)
    (hBuffer : mBuffer = front ++ chars.flatten ++ after) :
    expand mBuffer chars.length front.length packet =
      .ok (packet.put (unitBytes (chars.map decodeChar)), (front ++ chars.flatten).length) := by
  induction chars generalizing front packet with
  | nil => simp [expand, unitBytes]
  | cons char chars ih =>
    have hFirst : expandChar mBuffer front.length = .ok (decodeChar char, (front ++ char).length) :=
      expandChar_char (hChars char List.mem_cons_self)
        (by simpa using hBuffer : mBuffer = front ++ char ++ (chars.flatten ++ after))
    have hNext : (packet.putUInt16 (decodeChar char)).Valid := MtpDataPacket.put_valid hValid _
    have hRest :=
      ih hNext
        (fun char' hMember =>
          hChars char' (List.mem_cons_of_mem _ hMember))
        (by simpa using hBuffer : mBuffer = (front ++ char) ++ chars.flatten ++ after)
    rw [List.length_cons, expand, hFirst, Checked.ok_bind]
    simp only
    rw [hRest, MtpDataPacket.putUInt16_put hValid]
    simp

/- One unit reads one to three bytes. -/
theorem expandChar_ok {src : Nat} (hInside : src + 3 ≤ mBuffer.length) :
    ∃ ch next, expandChar mBuffer src = .ok (ch, next) ∧ src + 1 ≤ next ∧ next ≤ src + 3 := by
  have hRead : ∀ i, i < mBuffer.length → ∃ byte, Buffer.read mBuffer i = .ok byte := by
    intro i hLess
    exact ⟨_, Buffer.read_of_getElem? (List.getElem?_eq_getElem hLess)⟩
  rcases hRead src (by omega) with ⟨a, hFirst⟩
  rcases hRead (src + 1) (by omega) with ⟨b, hSecond⟩
  rcases hRead (src + 2) (by omega) with ⟨c, hThird⟩
  rw [expandChar, hFirst, Checked.ok_bind]
  by_cases hLead : a &&& 0x80 = 0
  · rw [if_pos hLead]
    exact ⟨_, _, rfl, by omega, by omega⟩
  · rw [if_neg hLead]
    by_cases hTwo : a &&& 0xE0 = 0xC0
    · rw [if_pos hTwo, hSecond, Checked.ok_bind]
      exact ⟨_, _, rfl, by omega, by omega⟩
    · rw [if_neg hTwo, hSecond, Checked.ok_bind, hThird, Checked.ok_bind]
      exact ⟨_, _, rfl, by omega, by omega⟩

/- Any number of units that the array has room for. -/
theorem expand_ok (count : Nat) {src : Nat} (hInside : src + 3 * count ≤ mBuffer.length) :
    ∃ units next,
      (∀ packet : MtpDataPacket, packet.Valid →
        expand mBuffer count src packet = .ok (packet.put (unitBytes units), next)) ∧
      units.length = count ∧ src + count ≤ next ∧
        next ≤ src + 3 * count := by
  induction count generalizing src with
  | zero =>
    refine ⟨[], src, ?_, rfl, by omega, by omega⟩
    intro packet hValid
    simp [expand, unitBytes]
  | succ count ih =>
    have hRoom : src + 3 ≤ mBuffer.length := by omega
    rcases expandChar_ok hRoom with ⟨ch, middle, hChar, hLow, hHigh⟩
    rcases ih (by omega : middle + 3 * count ≤ mBuffer.length) with
      ⟨units, next, hExpand, hLength, hFrom, hTo⟩
    refine ⟨ch :: units, next, ?_, by simp [hLength], by omega, by omega⟩
    intro packet hValid
    have hNext : (packet.putUInt16 ch).Valid := MtpDataPacket.put_valid hValid _
    rw [expand, hChar, Checked.ok_bind]
    simp only
    rw [hExpand _ hNext, MtpDataPacket.putUInt16_put hValid]

/- Units expanded in two parts. -/
theorem expand_add {first second src next : Nat} {packet middle : MtpDataPacket}
    (hFirst : expand mBuffer first src packet = .ok (middle, next)) :
    expand mBuffer (first + second) src packet = expand mBuffer second next middle := by
  induction first generalizing src packet with
  | zero =>
    rw [expand, Checked.pure_eq] at hFirst
    cases hFirst
    rw [Nat.zero_add]
  | succ first ih =>
    rw [Nat.succ_add, expand]
    rw [expand] at hFirst
    rcases Checked.bind_eq_ok.mp hFirst with ⟨pair, hChar, hRest⟩
    rw [hChar, Checked.ok_bind]
    exact ih hRest

end MtpStringBuffer

--
-- Stored Characters
--

namespace MtpStringBuffer

/-
  How many of the counted bytes of a C string are stored nowhere, from a number of characters on.
-/
def skipped : List Byte → Nat → Nat
| [], _ => 0
| ch :: src, count =>
  if ¬count < MTP_STRING_MAX_CHARACTER_NUMBER then 0
  else if ch &&& 0x80 = 0 then skipped src (count + 1)
  else if ch &&& 0xE0 = 0xC0 then
    match src with
    | [] => 0
    | _ :: src => skipped src (count + 1)
  else if ch &&& 0xF0 = 0xE0 then
    match src with
    | [] => 0
    | [_] => 0
    | _ :: _ :: src => skipped src (count + 1)
  else skipped src (count + 1) + 1

/- A character in front of those that are stored later. -/
theorem chars_cons {char text : List Byte} {count total more : Nat} (hChar : IsChar char)
    (hZero : 0 ∉ char)
    (hRest :
      ∃ chars : List (List Byte), text = chars.flatten ∧ (∀ char ∈ chars, IsChar char) ∧
        0 ∉ chars.flatten ∧ total = count + 1 + chars.length + more) :
    ∃ chars : List (List Byte), char ++ text = chars.flatten ∧ (∀ char ∈ chars, IsChar char) ∧
      0 ∉ chars.flatten ∧ total = count + chars.length + more := by
  rcases hRest with ⟨chars, hText, hChars, hNone, hTotal⟩
  refine ⟨char :: chars, ?_, ?_, ?_, ?_⟩
  · rw [List.flatten_cons, hText]
  · intro char' hMember
    rcases List.mem_cons.mp hMember with rfl | hOld
    · exact hChar
    · exact hChars char' hOld
  · rw [List.flatten_cons, List.mem_append]
    rintro (hHead | hTail)
    · exact hZero hHead
    · exact hNone hTail
  · rw [hTotal, List.length_cons]
    omega

/-
  By the recursion of the loop: the text consists of characters, and the count also has the skipped
  bytes.
-/
theorem setLoop_chars (src : List Byte) (count : Nat) (hSrc : 0 ∉ src) :
    ∃ chars : List (List Byte), (setLoop src count).1 = chars.flatten ∧
      (∀ char ∈ chars, IsChar char) ∧ 0 ∉ chars.flatten ∧
      (setLoop src count).2 = count + chars.length + skipped src count := by
  fun_induction skipped src count with
  | case1 count => exact ⟨[], by simp [setLoop]⟩
  | case2 ch src count hFull =>
    refine ⟨[], ?_⟩
    unfold setLoop
    rw [if_pos hFull]
    simp
  | case3 ch src count hFull hOne ih =>
    simp only [List.mem_cons, not_or] at hSrc
    unfold setLoop
    rw [if_neg hFull, if_pos hOne]
    exact chars_cons (.one hOne) (by simpa using hSrc.1) (ih hSrc.2)
  | case4 ch count hFull hHigh hTwo =>
    refine ⟨[], ?_⟩
    unfold setLoop
    rw [if_neg hFull, if_neg hHigh, if_pos hTwo]
    simp
  | case5 ch count hFull hHigh hTwo ch1 src ih =>
    simp only [List.mem_cons, not_or] at hSrc
    unfold setLoop
    rw [if_neg hFull, if_neg hHigh, if_pos hTwo]
    exact chars_cons (.two hHigh hTwo) (by simpa using And.intro hSrc.1 hSrc.2.1) (ih hSrc.2.2)
  | case6 ch count hFull hHigh hTwo hThree =>
    refine ⟨[], ?_⟩
    unfold setLoop
    rw [if_neg hFull, if_neg hHigh, if_neg hTwo, if_pos hThree]
    simp
  | case7 ch count hFull hHigh hTwo hThree ch1 =>
    refine ⟨[], ?_⟩
    unfold setLoop
    rw [if_neg hFull, if_neg hHigh, if_neg hTwo, if_pos hThree]
    simp
  | case8 ch count hFull hHigh hTwo hThree ch1 ch2 src ih =>
    simp only [List.mem_cons, not_or] at hSrc
    unfold setLoop
    rw [if_neg hFull, if_neg hHigh, if_neg hTwo, if_pos hThree]
    exact chars_cons (.three hHigh hTwo hThree)
      (by simpa using And.intro hSrc.1 (And.intro hSrc.2.1 hSrc.2.2.1)) (ih hSrc.2.2.2)
  | case9 ch src count hFull hHigh hTwo hThree ih =>
    simp only [List.mem_cons, not_or] at hSrc
    unfold setLoop
    rw [if_neg hFull, if_neg hHigh, if_neg hTwo, if_neg hThree]
    rcases ih hSrc.2 with ⟨chars, hText, hChars, hNone, hTotal⟩
    exact ⟨chars, hText, hChars, hNone, by omega⟩

end MtpStringBuffer

end Mtp

end FrameworksAv
