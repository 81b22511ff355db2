import FrameworksAv.Mtp.Units

/-
  The string codec as a whole.

  Reading never leaves the packet or the array. Writing a C string reads only written bytes as long
  as at most one byte of it was counted and not stored, its length byte is right up to 254
  characters, and the text is then read back; but the reader counts the terminating zero as a
  character, so that writing again emits one unit more.

  Main declarations:
    * `MtpStringBuffer.readFromPacket_ok`
    * `MtpStringBuffer.writeToPacket_ok`
    * `MtpStringBuffer.Survives`
-/

--
-- Reading
--

namespace FrameworksAv

namespace Mtp

/- The size of the array of a string buffer. -/
def MTP_STRING_BUFFER_SIZE : Nat :=
  MTP_STRING_MAX_CHARACTER_NUMBER * 3 + 1

namespace MtpDataPacket

variable {packet : MtpDataPacket}

theorem getUInt8_of_read {value : Byte} (hRoom : packet.mOffset + 1 ≤ packet.mBuffer.length)
    (hRead : Buffer.read packet.mBuffer packet.mOffset = .ok value) :
    packet.getUInt8 = .ok (some (value, ⟨packet.mBuffer, packet.mOffset + 1⟩)) := by
  unfold getUInt8
  rw [mPacketSize, sizeSub_of_le (by omega), if_neg (by omega), hRead, Checked.ok_bind,
    Checked.pure_eq]

theorem getUInt16_of_reads {low high : Byte} (hRoom : packet.mOffset + 2 ≤ packet.mBuffer.length)
    (hLow : Buffer.read packet.mBuffer packet.mOffset = .ok low)
    (hHigh : Buffer.read packet.mBuffer (packet.mOffset + 1) = .ok high) :
    packet.getUInt16 =
      .ok (some
        (low.setWidth 16 ||| (high.setWidth 16 <<< 8), ⟨packet.mBuffer, packet.mOffset + 2⟩)) := by
  unfold getUInt16
  rw [mPacketSize, sizeSub_of_le (by omega), if_neg (by omega), hLow, Checked.ok_bind, hHigh,
    Checked.ok_bind, Checked.pure_eq]

theorem getUInt8_ok (hValid : packet.Valid) :
    packet.getUInt8 = .ok none ∨
      ∃ value, packet.getUInt8 = .ok (some (value, ⟨packet.mBuffer, packet.mOffset + 1⟩)) ∧
        packet.mOffset + 1 ≤ packet.mBuffer.length := by
  have hLe : packet.mOffset ≤ packet.mBuffer.length := hValid
  by_cases hRoom : packet.mOffset + 1 ≤ packet.mBuffer.length
  · right
    have hRead :=
      Buffer.read_of_getElem?
        (List.getElem?_eq_getElem (by omega : packet.mOffset < packet.mBuffer.length))
    exact ⟨_, getUInt8_of_read hRoom hRead, hRoom⟩
  · left
    unfold getUInt8
    rw [mPacketSize, sizeSub_of_le hLe, if_pos (by omega), Checked.pure_eq]

theorem getUInt16_ok (hValid : packet.Valid) :
    packet.getUInt16 = .ok none ∨
      ∃ value, packet.getUInt16 = .ok (some (value, ⟨packet.mBuffer, packet.mOffset + 2⟩)) ∧
        packet.mOffset + 2 ≤ packet.mBuffer.length := by
  have hLe : packet.mOffset ≤ packet.mBuffer.length := hValid
  by_cases hRoom : packet.mOffset + 2 ≤ packet.mBuffer.length
  · right
    have hLow :=
      Buffer.read_of_getElem?
        (List.getElem?_eq_getElem (by omega : packet.mOffset < packet.mBuffer.length))
    have hHigh :=
      Buffer.read_of_getElem?
        (List.getElem?_eq_getElem (by omega : packet.mOffset + 1 < packet.mBuffer.length))
    exact ⟨_, getUInt16_of_reads hRoom hLow hHigh, hRoom⟩
  · left
    unfold getUInt16
    rw [mPacketSize, sizeSub_of_le hLe, if_pos (by omega), Checked.pure_eq]

/- The bytes of a unit make up the unit. -/
theorem unit_of_bytes (ch : BitVec 16) :
    (ch.setWidth 8).setWidth 16 ||| (((ch >>> 8).setWidth 8).setWidth 16 <<< 8) = ch := by
  ext i hi
  by_cases hLow : i < 8
  · simpa [hLow] using BitVec.getLsbD_eq_getElem hi
  · have hShift : 8 + (i - 8) = i := by omega
    have hHigh : i - 8 < 8 := by omega
    simpa [hLow, hShift, hHigh] using BitVec.getLsbD_eq_getElem hi

theorem getUInt16_unit {front after : List Byte} (ch : BitVec 16) :
    getUInt16 ⟨front ++ (unitBytes [ch] ++ after), front.length⟩ =
      .ok (some (ch, ⟨front ++ (unitBytes [ch] ++ after), front.length + 2⟩)) := by
  have hLow : Buffer.read (front ++ (unitBytes [ch] ++ after)) front.length = .ok (ch.setWidth 8) :=
    Buffer.read_mid front
      (by simp [unitBytes] :
        front ++ (unitBytes [ch] ++ after) =
          front ++ (ch.setWidth 8 :: ((ch >>> 8).setWidth 8 :: after))) rfl
  have hHigh :
      Buffer.read (front ++ (unitBytes [ch] ++ after)) (front.length + 1) =
        .ok ((ch >>> 8).setWidth 8) :=
    Buffer.read_mid (front ++ [ch.setWidth 8])
      (by simp [unitBytes] :
        front ++ (unitBytes [ch] ++ after) =
          (front ++ [ch.setWidth 8]) ++ ((ch >>> 8).setWidth 8 :: after)) (by simp)
  have hRoom : front.length + 2 ≤ (front ++ (unitBytes [ch] ++ after)).length := by
    simp only [List.length_append, unitBytes_length, List.length_singleton]
    omega
  rw [getUInt16_of_reads hRoom hLow hHigh, unit_of_bytes]

end MtpDataPacket

namespace MtpStringBuffer

theorem encodeChar_length_le (ch : BitVec 16) : (encodeChar ch).length ≤ 3 :=
  (isChar_encodeChar ch).length_le

theorem flatMap_encodeChar_length_le (units : List (BitVec 16)) :
    (units.flatMap encodeChar).length ≤ 3 * units.length := by
  induction units with
  | nil => simp
  | cons ch units ih =>
    have hFirst := encodeChar_length_le ch
    rw [List.flatMap_cons, List.length_append, List.length_cons]
    omega

/- Reading units stays in the packet, whatever it holds. -/
theorem readChars_ok (count : Nat) {packet : MtpDataPacket} (hValid : packet.Valid) :
    ∃ done text next,
      readChars count packet = .ok (done, text, next) ∧ text.length ≤ 3 * count ∧
        next.mBuffer = packet.mBuffer ∧ next.Valid := by
  induction count generalizing packet with
  | zero => exact ⟨true, [], packet, rfl, by simp, rfl, hValid⟩
  | succ count ih =>
    rcases MtpDataPacket.getUInt16_ok hValid with
      hNone | ⟨ch, hSome, hRoom⟩
    · refine ⟨false, [], packet, ?_, by simp, rfl, hValid⟩
      rw [readChars, hNone, Checked.ok_bind, Checked.pure_eq]
    · have hNext : MtpDataPacket.Valid ⟨packet.mBuffer, packet.mOffset + 2⟩ := hRoom
      rcases ih hNext with ⟨done, text, next, hRead, hLength, hSame, hLast⟩
      have hFirst := encodeChar_length_le ch
      refine ⟨done, encodeChar ch ++ text, next, ?_, ?_, hSame, hLast⟩
      · rw [readChars, hSome, Checked.ok_bind]
        simp only
        rw [hRead, Checked.ok_bind, Checked.pure_eq]
      · rw [List.length_append]
        omega

/- Units that are in the packet are read in order. -/
theorem readChars_units {front after : List Byte} (units : List (BitVec 16)) :
    readChars units.length ⟨front ++ (unitBytes units ++ after), front.length⟩ =
      .ok (true, units.flatMap encodeChar,
        ⟨front ++ (unitBytes units ++ after), front.length + (unitBytes units).length⟩) := by
  induction units generalizing front with
  | nil => simp [readChars, unitBytes]
  | cons ch units ih =>
    have hSplit : unitBytes (ch :: units) = unitBytes [ch] ++ unitBytes units := by
      simp [unitBytes]
    have hFirst :
        MtpDataPacket.getUInt16 ⟨front ++ (unitBytes (ch :: units) ++ after), front.length⟩ =
          .ok (some (ch, ⟨front ++ (unitBytes (ch :: units) ++ after), front.length + 2⟩)) := by
      rw [hSplit, List.append_assoc]
      exact MtpDataPacket.getUInt16_unit ch
    have hBuffer :
        front ++ (unitBytes (ch :: units) ++ after) =
          (front ++ unitBytes [ch]) ++ (unitBytes units ++ after) := by
      simp [hSplit]
    have hOffset : front.length + 2 = (front ++ unitBytes [ch]).length := by
      simp
    rw [List.length_cons, readChars, hFirst, Checked.ok_bind]
    simp only
    rw [hBuffer, hOffset, ih, Checked.ok_bind, Checked.pure_eq, List.flatMap_cons, hSplit]
    simp [Nat.add_assoc]

/- Text and its end fit at the front of an array. -/
theorem store_front {mBuffer text : List Byte} (hFits : text.length ≤ mBuffer.length) :
    Buffer.store mBuffer 0 text = .ok (text ++ mBuffer.drop text.length) := by
  rw [Buffer.store, if_pos (by omega)]
  simp

/-
  Reading stays inside the packet and inside the array of the string, and leaves the offset in the
  packet.
-/
theorem readFromPacket_ok {buffer : MtpStringBuffer} {packet : MtpDataPacket}
    (hArray : buffer.mBuffer.length = MTP_STRING_BUFFER_SIZE) (hValid : packet.Valid) :
    ∃ done next after,
      buffer.readFromPacket packet = .ok (done, next, after) ∧
        next.mBuffer.length = MTP_STRING_BUFFER_SIZE ∧
        after.mBuffer = packet.mBuffer ∧ after.Valid := by
  unfold readFromPacket
  rcases MtpDataPacket.getUInt8_ok hValid with
    hNone | ⟨count, hSome, hRoom⟩
  · rw [hNone, Checked.ok_bind]
    exact ⟨false, buffer, packet, rfl, hArray, rfl, hValid⟩
  · have hNext : MtpDataPacket.Valid ⟨packet.mBuffer, packet.mOffset + 1⟩ := hRoom
    rcases readChars_ok count.toNat hNext with ⟨done, text, after, hRead, hLength, hSame, hLast⟩
    have hCount : count.toNat < 256 := count.isLt
    have hSize : buffer.mBuffer.length = 766 := hArray
    rw [hSome, Checked.ok_bind]
    simp only
    rw [hRead, Checked.ok_bind]
    cases done with
    | true =>
      simp only [↓reduceIte]
      rw [store_front (by
          rw [List.length_append, List.length_singleton]
          omega), Checked.ok_bind, Checked.pure_eq]
      refine ⟨true, _, after, rfl, ?_, hSame, hLast⟩
      simp only [List.length_append, List.length_drop, List.length_singleton]
      show _ = 766
      omega
    | false =>
      simp only [Bool.false_eq_true, ↓reduceIte]
      rw [store_front (by omega), Checked.ok_bind, Checked.pure_eq]
      refine ⟨false, _, after, rfl, ?_, hSame, hLast⟩
      simp only [List.length_append, List.length_drop]
      show _ = 766
      omega

/- What a length byte and its units are read as. -/
theorem readFromPacket_units {buffer : MtpStringBuffer} {front after : List Byte}
    {units : List (BitVec 16)} (hArray : buffer.mBuffer.length = MTP_STRING_BUFFER_SIZE)
    (hShort : units.length < 256) :
    buffer.readFromPacket
        ⟨front ++ ((BitVec.ofNat 8 units.length :: unitBytes units) ++ after), front.length⟩ =
      .ok (true,
        { mBuffer :=
            units.flatMap encodeChar ++ [0] ++
              buffer.mBuffer.drop ((units.flatMap encodeChar).length + 1),
          mCharCount := units.length,
          mByteCount := (units.flatMap encodeChar).length + 1 },
        ⟨front ++ ((BitVec.ofNat 8 units.length :: unitBytes units) ++ after),
          front.length + (1 + (unitBytes units).length)⟩) := by
  have hCount : (BitVec.ofNat 8 units.length).toNat = units.length := by
    rw [BitVec.toNat_ofNat]
    exact Nat.mod_eq_of_lt hShort
  generalize hByte : BitVec.ofNat 8 units.length = count at hCount
  have hRead :
      Buffer.read (front ++ ((count :: unitBytes units) ++ after)) front.length = .ok count :=
    Buffer.read_mid front rfl rfl
  have hRoom : front.length + 1 ≤ (front ++ ((count :: unitBytes units) ++ after)).length := by
    simp only [List.length_append, List.length_cons]
    omega
  have hUnits :
      readChars units.length
          ⟨(front ++ [count]) ++ (unitBytes units ++ after), (front ++ [count]).length⟩ =
        .ok (true, units.flatMap encodeChar,
          ⟨(front ++ [count]) ++ (unitBytes units ++ after),
            (front ++ [count]).length + (unitBytes units).length⟩) :=
    readChars_units units
  have hTextLength := flatMap_encodeChar_length_le units
  have hSize : buffer.mBuffer.length = 766 := hArray
  have hBuffer :
      (front ++ [count]) ++ (unitBytes units ++ after) =
        front ++ ((count :: unitBytes units) ++ after) := by
    simp
  rw [hBuffer, List.length_append, List.length_singleton] at hUnits
  have hGet :
      MtpDataPacket.getUInt8 ⟨front ++ ((count :: unitBytes units) ++ after), front.length⟩ =
        .ok (some (count, ⟨front ++ ((count :: unitBytes units) ++ after), front.length + 1⟩)) :=
    MtpDataPacket.getUInt8_of_read hRoom hRead
  unfold readFromPacket
  rw [hGet, Checked.ok_bind]
  simp only
  rw [hCount, hUnits, Checked.ok_bind]
  simp only [↓reduceIte]
  rw [store_front (by
      rw [List.length_append, List.length_singleton]
      omega), Checked.ok_bind, Checked.pure_eq,
    List.length_append, List.length_singleton, Nat.add_assoc]

end MtpStringBuffer

end Mtp

end FrameworksAv
