import FrameworksAv.Mtp.RoundTrip
import Mathlib.Data.List.TakeWhile

/-
  The getters and putters of data packets.

  A getter answers `none` where the packet ends and moves the offset otherwise; a putter puts bytes
  at the offset. What a getter makes of given bytes, whatever stands before and behind them,
  composes through sequencing, and so do the bytes of putters.

  Main declarations:
    * `Get`
    * `getUInt`, `getUInt128`, `getString`
    * `Reads`, `Writes`
    * `getUInt_reads`
-/

--
-- Getters
--

namespace FrameworksAv

namespace Mtp

open Buffer

/- A read of a packet; `none` is `false`. -/
def Get (α : Type) :=
  MtpDataPacket → Checked (Option (α × MtpDataPacket))

namespace Get

variable {α β : Type}

def ret (a : α) : Get α :=
  fun packet => .ok (some (a, packet))

/- The value `false` is returned. -/
def fail : Get α :=
  fun _ => .ok none

/- A failed read ends the reads after it. -/
def bind (get : Get α) (next : α → Get β) : Get β :=
  fun packet =>
    match get packet with
    | .error fault => .error fault
    | .ok none => .ok none
    | .ok (some (a, packet)) => next a packet

instance : Monad Get where
  pure := ret
  bind := bind

end Get

/- The bytes of a word, the lowest first. -/
def le : Nat → Nat → List Byte
| 0, _ => []
| n + 1, value => BitVec.ofNat 8 value :: le n (value / 256)

theorem le_length (n value : Nat) : (le n value).length = n := by
  induction n generalizing value with
  | zero => rfl
  | succ n ih => simp [le, ih]

/- The value of the bytes at an offset, the lowest first. -/
def readWord (data : List Byte) : Nat → Nat → Checked Nat
| 0, _ => pure 0
| n + 1, offset => do
    let low ← read data offset
    let high ← readWord data n (offset + 1)
    pure (low.toNat + 256 * high)

/- `getUInt32` and `getUInt64`, by their size in bytes. -/
def getUInt (n : Nat) : Get (BitVec (8 * n)) :=
  fun packet =>
    if sizeSub packet.mPacketSize packet.mOffset < n then pure none
    else do
      let value ← readWord packet.mBuffer n packet.mOffset
      pure (some (BitVec.ofNat (8 * n) value, { packet with mOffset := packet.mOffset + n }))

def getUInt32 : Get (BitVec 32) :=
  getUInt 4

def getUInt64 : Get (BitVec 64) :=
  getUInt 8

/- Four words, the lowest first. -/
def getUInt128 : Get (BitVec 128) := do
  let w0 ← getUInt32
  let w1 ← getUInt32
  let w2 ← getUInt32
  let w3 ← getUInt32
  pure (w3 ++ w2 ++ w1 ++ w0)

/- A string read with a buffer of its own, as a C string. -/
def getString : Get (List Byte) :=
  fun packet =>
    match MtpStringBuffer.fresh.readFromPacket packet with
    | .error fault => .error fault
    | .ok (false, _, _) => .ok none
    | .ok (true, buffer, packet) => .ok (some (buffer.text, packet))

end Mtp

--
-- Putters
--

namespace Mtp

namespace MtpDataPacket

/- `putUInt32` and `putUInt64`, by their size in bytes. -/
def putUInt (packet : MtpDataPacket) (n : Nat) (value : BitVec (8 * n)) : MtpDataPacket :=
  packet.put (le n value.toNat)

def putUInt32 (packet : MtpDataPacket) (value : BitVec 32) : MtpDataPacket :=
  packet.putUInt 4 value

def putUInt64 (packet : MtpDataPacket) (value : BitVec 64) : MtpDataPacket :=
  packet.putUInt 8 value

/- Four words, the lowest first. -/
def putUInt128 (packet : MtpDataPacket) (value : BitVec 128) : MtpDataPacket :=
  (((packet.putUInt32 (value.extractLsb' 0 32)).putUInt32 (value.extractLsb' 32 32)).putUInt32
      (value.extractLsb' 64 32)).putUInt32
    (value.extractLsb' 96 32)

/- A C string is put through a string buffer. -/
def putString (packet : MtpDataPacket) (src : List Byte) : Checked MtpDataPacket := do
  let buffer ← MtpStringBuffer.fresh.set src
  let (packet, _) ← buffer.writeToPacket packet
  pure packet

def putEmptyString (packet : MtpDataPacket) : MtpDataPacket :=
  packet.putUInt8 0

end MtpDataPacket

--
-- What getters make of bytes
--

variable {α β : Type}

/- The bytes are read as the value, wherever they stand. -/
def Reads (get : Get α) (bytes : List Byte) (a : α) : Prop :=
  ∀ front after : List Byte,
    get ⟨front ++ (bytes ++ after), front.length⟩ =
      .ok (some (a, ⟨front ++ (bytes ++ after), front.length + bytes.length⟩))

/- The bytes are turned down, wherever they stand. -/
def Fails (get : Get α) (bytes : List Byte) : Prop :=
  ∀ front after : List Byte, get ⟨front ++ (bytes ++ after), front.length⟩ = .ok none

theorem Fails.bind {get : Get α} {next : α → Get β} {bytes : List Byte} (hGet : Fails get bytes) :
    Fails (get >>= next) bytes := by
  intro front after
  change Get.bind get next _ = _
  unfold Get.bind
  rw [hGet front after]

/- Bytes behind those turned down change nothing. -/
theorem Fails.append {get : Get α} {bytes : List Byte} (hGet : Fails get bytes) (more : List Byte) :
    Fails get (bytes ++ more) := by
  intro front after
  rw [List.append_assoc]
  exact hGet front (more ++ after)

theorem Fails.of_put {get : Get α} {bytes : List Byte} (hGet : Fails get bytes)
    {packet : MtpDataPacket} (hValid : packet.Valid) :
    get ((packet.put bytes).rewind packet.mOffset) = .ok none := by
  rw [MtpDataPacket.put_rewind hValid]
  exact hGet _ _

namespace Reads

theorem ret (a : α) : Reads (pure a) [] a := by
  intro front after
  rfl

theorem bind {get : Get α} {next : α → Get β} {first second : List Byte} {a : α} {b : β}
    (hFirst : Reads get first a) (hSecond : Reads (next a) second b) :
    Reads (get >>= next) (first ++ second) b := by
  intro front after
  have hGet := hFirst front (second ++ after)
  have hNext := hSecond (front ++ first) after
  have hSame : front ++ first ++ (second ++ after) = front ++ ((first ++ second) ++ after) := by
    simp only [List.append_assoc]
  rw [List.length_append, hSame] at hNext
  have hSame' : front ++ (first ++ (second ++ after)) = front ++ ((first ++ second) ++ after) := by
    simp only [List.append_assoc]
  rw [hSame'] at hGet
  change Get.bind get next _ = _
  unfold Get.bind
  rw [hGet]
  simp only
  rw [hNext, List.length_append, Nat.add_assoc]

theorem bind_fails {get : Get α} {next : α → Get β} {first second : List Byte} {a : α}
    (hFirst : Reads get first a) (hSecond : Fails (next a) second) :
    Fails (get >>= next) (first ++ second) := by
  intro front after
  have hGet := hFirst front (second ++ after)
  have hNext := hSecond (front ++ first) after
  have hSame : front ++ first ++ (second ++ after) = front ++ ((first ++ second) ++ after) := by
    simp only [List.append_assoc]
  rw [List.length_append, hSame] at hNext
  have hSame' : front ++ (first ++ (second ++ after)) = front ++ ((first ++ second) ++ after) := by
    simp only [List.append_assoc]
  rw [hSame'] at hGet
  change Get.bind get next _ = _
  unfold Get.bind
  rw [hGet]
  exact hNext

/- What follows a getter may change its value. -/
theorem map {get : Get α} {bytes : List Byte} {a : α} (hGet : Reads get bytes a) (f : α → β) :
    Reads (get >>= fun a => pure (f a)) bytes (f a) := by
  have hBoth : Reads (get >>= fun a => pure (f a)) (bytes ++ []) (f a) := hGet.bind (ret (f a))
  rw [List.append_nil] at hBoth
  exact hBoth

/- The bytes that a putter has put are read back. -/
theorem of_put {get : Get α} {bytes : List Byte} {a : α} (hGet : Reads get bytes a)
    {packet : MtpDataPacket} (hValid : packet.Valid) :
    get ((packet.put bytes).rewind packet.mOffset) = .ok (some (a, packet.put bytes)) := by
  have hLe : packet.mOffset ≤ packet.mBuffer.length := hValid
  rw [MtpDataPacket.put_rewind hValid, hGet]
  simp only [MtpDataPacket.put, List.append_assoc, List.length_take, Nat.min_eq_left hLe]

end Reads

theorem readWord_le (front after : List Byte) (n value : Nat) :
    readWord (front ++ (le n value ++ after)) n front.length = .ok (value % 256 ^ n) := by
  induction n generalizing front value with
  | zero => rw [readWord, Checked.pure_eq, Nat.pow_zero, Nat.mod_one]
  | succ n ih =>
    have hRead :
        Buffer.read (front ++ (le (n + 1) value ++ after)) front.length =
          .ok (BitVec.ofNat 8 value) :=
      Buffer.read_mid front rfl rfl
    have hRest := ih (front ++ [BitVec.ofNat 8 value]) (value / 256)
    have hSame :
        front ++ [BitVec.ofNat 8 value] ++ (le n (value / 256) ++ after) =
          front ++ (le (n + 1) value ++ after) := by
      rw [le, List.append_assoc]
      rfl
    rw [hSame, List.length_append, List.length_singleton] at hRest
    rw [readWord, hRead, Checked.ok_bind, hRest,
      Checked.ok_bind, Checked.pure_eq, BitVec.toNat_ofNat]
    have hSplit : value % 256 ^ (n + 1) = value % 256 + 256 * (value / 256 % 256 ^ n) := by
      rw [Nat.pow_succ']
      exact Nat.mod_mul
    exact congrArg Except.ok hSplit.symm

/- A word is read back from its bytes. -/
theorem getUInt_reads (n : Nat) (value : BitVec (8 * n)) :
    Reads (getUInt n) (le n value.toNat) value := by
  intro front after
  have hRoom : front.length + n ≤ (front ++ (le n value.toNat ++ after)).length := by
    rw [List.length_append, List.length_append, le_length]
    omega
  have hFits : value.toNat < 256 ^ n := by
    have hLt := value.isLt
    rw [Nat.pow_mul] at hLt
    exact hLt
  unfold getUInt MtpDataPacket.mPacketSize
  dsimp only
  rw [sizeSub_of_le (by omega), if_neg (by omega), readWord_le, Checked.ok_bind, Checked.pure_eq,
    Nat.mod_eq_of_lt hFits, BitVec.ofNat_toNat, BitVec.setWidth_eq, le_length]

theorem getUInt8_reads (value : Byte) : Reads MtpDataPacket.getUInt8 [value] value := by
  intro front after
  have hRead : Buffer.read (front ++ ([value] ++ after)) front.length = .ok value :=
    Buffer.read_mid front rfl rfl
  apply MtpDataPacket.getUInt8_of_read _ hRead
  simp only [List.length_append, List.length_singleton]
  omega

theorem getUInt16_reads (value : BitVec 16) :
    Reads MtpDataPacket.getUInt16 (unitBytes [value]) value := by
  intro front after
  exact MtpDataPacket.getUInt16_unit value

end Mtp

--
-- What putters put
--

namespace Mtp

/- The putter puts the bytes into any packet. -/
def Writes (write : MtpDataPacket → Checked MtpDataPacket) (bytes : List Byte) : Prop :=
  ∀ packet : MtpDataPacket, packet.Valid → write packet = .ok (packet.put bytes)

namespace Writes

theorem of_put {write : MtpDataPacket → MtpDataPacket} {bytes : List Byte}
    (hPut : ∀ packet, write packet = packet.put bytes) :
    Writes (fun packet => .ok (write packet)) bytes := by
  intro packet _
  exact congrArg Except.ok (hPut packet)

theorem none : Writes (fun packet => .ok packet) [] := by
  intro packet _
  rw [MtpDataPacket.put_nil]

theorem bind {write next : MtpDataPacket → Checked MtpDataPacket} {first second : List Byte}
    (hFirst : Writes write first) (hSecond : Writes next second) :
    Writes (fun packet => write packet >>= next) (first ++ second) := by
  intro packet hValid
  have hNext := MtpDataPacket.put_valid hValid first
  dsimp only
  rw [hFirst packet hValid, Checked.ok_bind, hSecond _ hNext, MtpDataPacket.put_put hValid]

end Writes

/- The bytes of a word of four. -/
def le128 (value : BitVec 128) : List Byte :=
  le 4 (value.extractLsb' 0 32).toNat ++
    (le 4 (value.extractLsb' 32 32).toNat ++
      (le 4 (value.extractLsb' 64 32).toNat ++ le 4 (value.extractLsb' 96 32).toNat))

theorem putUInt128_put {packet : MtpDataPacket} (hValid : packet.Valid) (value : BitVec 128) :
    packet.putUInt128 value = packet.put (le128 value) := by
  have hPuts := MtpDataPacket.put_valid hValid
  unfold MtpDataPacket.putUInt128 MtpDataPacket.putUInt32 MtpDataPacket.putUInt le128
  simp only [MtpDataPacket.put_put hValid, List.append_assoc]

theorem getUInt128_reads (value : BitVec 128) : Reads getUInt128 (le128 value) value := by
  have hWords :
      value.extractLsb' 96 32 ++ value.extractLsb' 64 32 ++
          value.extractLsb' 32 32 ++ value.extractLsb' 0 32 =
        value := by
    apply BitVec.eq_of_getLsbD_eq
    intro i hi
    simp only [BitVec.getLsbD_append, BitVec.getLsbD_extractLsb']
    by_cases h0 : i < 32
    · simp [h0]
    · by_cases h1 : i - 32 < 32
      · have hAt : 32 + (i - 32) = i := by omega
        simp [h0, h1, hAt]
      · by_cases h2 : i - 32 - 32 < 32
        · have hAt : 64 + (i - 32 - 32) = i := by omega
          simp [h0, h1, h2, hAt]
        · have hAt : 96 + (i - 32 - 32 - 32) = i := by omega
          have h3 : i - 32 - 32 - 32 < 32 := by omega
          simp [h0, h1, h2, h3, hAt]
  have h0 := getUInt_reads 4 (value.extractLsb' 0 32)
  have h1 := getUInt_reads 4 (value.extractLsb' 32 32)
  have h2 := getUInt_reads 4 (value.extractLsb' 64 32)
  have h3 := getUInt_reads 4 (value.extractLsb' 96 32)
  have hRead :
      Reads getUInt128 (le128 value)
        (value.extractLsb' 96 32 ++ value.extractLsb' 64 32 ++ value.extractLsb' 32 32 ++
          value.extractLsb' 0 32) :=
    h0.bind (h1.bind (h2.bind (h3.map _)))
  rw [hWords] at hRead
  exact hRead

/- The text is put and read back whatever the packet. -/
def TextSurvives (src : List Byte) : Prop :=
  ∀ packet : MtpDataPacket,
    packet.Valid →
      ∃ sent,
        packet.putString src = .ok sent ∧
          getString (sent.rewind packet.mOffset) = .ok (some (src, sent))

theorem getString_reads {units : List (BitVec 16)} (hShort : units.length < 256) :
    ∃ text, Reads getString (BitVec.ofNat 8 units.length :: unitBytes units) text := by
  refine ⟨MtpStringBuffer.text
    { mBuffer :=
        units.flatMap MtpStringBuffer.encodeChar ++ [0] ++
          MtpStringBuffer.fresh.mBuffer.drop
            ((units.flatMap MtpStringBuffer.encodeChar).length + 1),
      mCharCount := units.length,
      mByteCount := (units.flatMap MtpStringBuffer.encodeChar).length + 1 }, ?_⟩
  intro front after
  unfold getString
  rw [MtpStringBuffer.readFromPacket_units MtpStringBuffer.fresh_size hShort]
  simp only [List.length_cons]
  rw [Nat.add_comm 1]

/- A string that was read has no zero in it. -/
theorem zero_notMem_getString {packet next : MtpDataPacket} {text : List Byte}
    (hGet : getString packet = .ok (some (text, next))) : 0 ∉ text := by
  unfold getString at hGet
  split at hGet
  · cases hGet
  · cases hGet
  · cases hGet
    intro hZero
    have hNot := List.mem_takeWhile_imp hZero
    simp at hNot

/- Up to 254 units the length byte is right, and the bytes are read back as one string. -/
theorem emitted_reads {units : List (BitVec 16)} (hShort : units.length + 1 < 256) :
    ∃ text, Reads getString (MtpStringBuffer.emitted units) text := by
  unfold MtpStringBuffer.emitted
  by_cases hNone : units = []
  · rw [if_pos hNone]
    have hEmpty : ([] : List (BitVec 16)).length < 256 := by
      decide
    exact getString_reads hEmpty
  · rw [if_neg hNone]
    have hLength : (units ++ [0]).length = units.length + 1 := by simp
    have hReads := @getString_reads (units ++ [0]) (by omega)
    rw [hLength] at hReads
    exact hReads

/- A text that survives is put as bytes of its own. -/
theorem TextSurvives.bytes {src : List Byte} (hSurvives : TextSurvives src) :
    ∃ bytes, Writes (fun packet => packet.putString src) bytes ∧ Reads getString bytes src := by
  have hEmpty : MtpDataPacket.Valid ⟨[], 0⟩ := Nat.le_refl 0
  rcases hSurvives ⟨[], 0⟩ hEmpty with ⟨sent, hSent, hBack⟩
  have hSrc := zero_notMem_getString hBack
  rcases MtpStringBuffer.set_ok MtpStringBuffer.fresh_size hSrc with ⟨buffer, chars, hSet, hHolds⟩
  rcases MtpStringBuffer.writeToPacket_ok hHolds.size hHolds.charCount_le with
    ⟨units, next, hWrite, hLength⟩
  have hWrites : Writes (fun packet => packet.putString src) (MtpStringBuffer.emitted units) := by
    intro packet hValid
    dsimp only
    unfold MtpDataPacket.putString
    rw [hSet, Checked.ok_bind, hWrite packet hValid]
    rfl
  refine ⟨_, hWrites, ?_⟩
  have hPut :
      MtpDataPacket.putString ⟨[], 0⟩ src =
        .ok (MtpDataPacket.put ⟨[], 0⟩ (MtpStringBuffer.emitted units)) :=
    hWrites ⟨[], 0⟩ hEmpty
  rw [hSent] at hPut
  cases hPut
  have hLe := hHolds.charCount_le
  rw [← hLength] at hLe
  by_cases hShort : units.length + 1 < 256
  · rcases emitted_reads hShort with ⟨text, hReads⟩
    have hSame := hReads.of_put hEmpty
    rw [hBack] at hSame
    simp only [Except.ok.injEq, Option.some.injEq, Prod.mk.injEq] at hSame
    rw [hSame.1]
    exact hReads
  · -- The length byte of 255 units is zero.
    have hFull : units.length + 1 = 256 := by
      have hMax : MTP_STRING_MAX_CHARACTER_NUMBER = 255 := rfl
      omega
    have hNone : units ≠ [] := by
      rintro rfl
      cases hFull
    have hBytes : MtpStringBuffer.emitted units = [0] ++ unitBytes (units ++ [0]) := by
      unfold MtpStringBuffer.emitted
      rw [if_neg hNone, hFull]
      rfl
    have hEmptyUnits : ([] : List (BitVec 16)).length < 256 := by
      decide
    rcases getString_reads hEmptyUnits with ⟨text, hReads⟩
    have hRead :
        getString ⟨[0] ++ unitBytes (units ++ [0]), 0⟩ =
          .ok (some (text, ⟨[0] ++ unitBytes (units ++ [0]), 1⟩)) :=
      hReads [] (unitBytes (units ++ [0]))
    have hStart :
        (MtpDataPacket.put ⟨[], 0⟩ (MtpStringBuffer.emitted units)).rewind 0 =
          ⟨[0] ++ unitBytes (units ++ [0]), 0⟩ := by
      rw [hBytes]
      simp [MtpDataPacket.put, MtpDataPacket.rewind]
    rw [hStart, hRead] at hBack
    simp only [Except.ok.injEq, Option.some.injEq, Prod.mk.injEq] at hBack
    have hOffset := congrArg MtpDataPacket.mOffset hBack.2
    rw [hBytes] at hOffset
    simp [MtpDataPacket.put] at hOffset

end Mtp

end FrameworksAv
