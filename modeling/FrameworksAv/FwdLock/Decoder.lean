import FrameworksAv.Base.Bytes
import Mathlib.Data.List.GetD

/-
  Forward-locked files (drm/libdrmframework/plugins/forward-lock/internal-format:
  decoder/FwdLockFile.c, converter/FwdLockConv.c).

  A session remembers where it is in the content, and the descriptor where it is in the file.

  Main declarations:
    * `Crypto`, `calculateCounter`, `incrementCounter`
    * `Descriptor`, `Session`, `attach`
    * `Attached`
    * `random_access`
-/

--
-- Counters
--

namespace FrameworksAv

namespace FwdLock

/- The ciphers and the hash that are not of this library. -/
structure Crypto where
  decryptKey : List Byte → Option (List Byte)
  AES_encrypt : List Byte → List Byte → List Byte
  hmac : List Byte → List Byte → List Byte

def AES_BLOCK_SIZE : Nat := 16

/- Both loops: the bytes of the index are the first eight. -/
def counterLoop (blockIndex : Nat) : Nat → Byte → List Byte → List Byte
| _, _, [] => []
| i, carry, nonce :: rest =>
  if i < 8 then
    let part := nonce + BitVec.ofNat 8 (blockIndex >>> (i * 8))
    let counter := part + carry
    counter :: counterLoop blockIndex (i + 1) (if part < nonce ∨ counter < part then 1 else 0) rest
  else
    let counter := nonce + carry
    counter :: counterLoop blockIndex (i + 1) (if counter < nonce then 1 else 0) rest

def calculateCounter (pNonce : List Byte) (blockIndex : Nat) : List Byte :=
  counterLoop blockIndex 0 0 (pNonce.take AES_BLOCK_SIZE)

/- The converter counts on, with a carry while a byte is 0. -/
def incrementCounter : List Byte → List Byte
| [] => []
| counter :: rest => (counter + 1) :: if counter + 1 = 0 then incrementCounter rest else rest

--
-- Files
--

/- An open file; no position is above `limit`. -/
structure Descriptor where
  contents : List Byte
  position : Nat
  limit : Nat

/- A call of `read` may fail, or read less than it could. -/
inductive Outcome
| fails
| gives (most : Nat)

namespace Descriptor

/- `none` is -1. -/
def read (file : Descriptor) (numBytes : Nat) : Outcome → Option (List Byte) × Descriptor
| .fails => (none, file)
| .gives most =>
  let bytes := (file.contents.drop file.position).take (min numBytes most)
  (some bytes, { file with position := file.position + bytes.length })

end Descriptor

inductive Whence
| SEEK_SET
| SEEK_CUR
| SEEK_END
| other
deriving DecidableEq

namespace Descriptor

/- Where a seek would go. -/
def target (file : Descriptor) (offset : Int) : Whence → Int
| .SEEK_SET => offset
| .SEEK_CUR => file.position + offset
| .SEEK_END => file.contents.length + offset
| .other => -1

/- `none` is `(off64_t)-1`. -/
def lseek64 (file : Descriptor) (offset : Int) (whence : Whence) : Option Nat × Descriptor :=
  let target := file.target offset whence
  if 0 ≤ target ∧ target ≤ file.limit then
    (some target.toNat, { file with position := target.toNat })
  else (none, file)

end Descriptor

--
-- Sessions
--

def TOP_HEADER_SIZE : Nat := 8

def SHA1_HASH_SIZE : Nat := 20

def SIG_CALC_BUFFER_SIZE : Nat := 1024

def INVALID_BLOCK_INDEX : Nat := 2 ^ 64 - 1

/- 'F', 'W', 'L', 'K', and the versions and flags. -/
def topHeaderTemplate : List Byte :=
  [0x46, 0x57, 0x4C, 0x4B, 0, 0, 0]

/- `FwdLockGlue_GetEncryptedKeyLength`. -/
def getEncryptedKeyLength (plaintextKeyLength : Nat) : Nat :=
  (plaintextKeyLength / AES_BLOCK_SIZE + 2) * AES_BLOCK_SIZE

/- `signingContext` is what it was updated with. -/
structure Session where
  topHeader : List Byte
  pContentType : List Byte
  pEncryptedSessionKey : List Byte
  dataSignature : List Byte
  headerSignature : List Byte
  dataOffset : Nat
  filePos : Nat
  encryptionKey : List Byte
  signingKey : List Byte
  signingContext : List Byte
  keyStream : List Byte
  blockIndex : Nat

/- The session of a descriptor. -/
structure Open where
  file : Descriptor
  session : Session

/- `FwdLockFile_DeriveKeys`: for encryption and for signing. -/
def deriveKeys (crypto : Crypto) (pEncryptedSessionKey : List Byte) :
    Option (List Byte × List Byte) :=
  (crypto.decryptKey pEncryptedSessionKey).map fun key =>
    (crypto.AES_encrypt key (List.replicate 16 0),
      crypto.AES_encrypt key (1 :: List.replicate 15 0))

/- Exactly this many bytes, or nothing. -/
def readAll (file : Descriptor) (numBytes : Nat) : Option (List Byte × Descriptor) :=
  match file.read numBytes (.gives numBytes) with
  | (some bytes, next) =>
    if bytes.length = numBytes then some (bytes, next)
    else none
  | (none, _) => none

/-
  A call of `read` that fails or reads less than it should makes `attach` fail; otherwise it reads
  all.
-/
def attach (crypto : Crypto) (file : Descriptor) : Option Open :=
  (readAll file TOP_HEADER_SIZE).bind fun (topHeader, file) =>
  if topHeader.take 7 ≠ topHeaderTemplate then none
  else
    let contentTypeLength := (topHeader.getD 7 0).toNat
    (readAll file contentTypeLength).bind fun (contentType, file) =>
    let keyLength := getEncryptedKeyLength AES_BLOCK_SIZE
    (readAll file keyLength).bind fun (key, file) =>
    (readAll file SHA1_HASH_SIZE).bind fun (dataSignature, file) =>
    (readAll file SHA1_HASH_SIZE).bind fun (headerSignature, file) =>
    (deriveKeys crypto key).map fun (encryption, signing) =>
      { file := file
        session :=
          { topHeader := topHeader
            pContentType := contentType
            pEncryptedSessionKey := key
            dataSignature := dataSignature
            headerSignature := headerSignature
            dataOffset := contentTypeLength + keyLength + TOP_HEADER_SIZE + 2 * SHA1_HASH_SIZE
            filePos := 0
            encryptionKey := encryption
            signingKey := signing
            signingContext := []
            keyStream := []
            blockIndex := INVALID_BLOCK_INDEX } }

/- The byte at the current position. -/
def decryptByte (crypto : Crypto) (s : Session) (byte : Byte) : Byte × Session :=
  let blockIndex := s.filePos / AES_BLOCK_SIZE
  let blockOffset := s.filePos % AES_BLOCK_SIZE
  let s :=
    if blockIndex ≠ s.blockIndex then
      { s with
        keyStream :=
          crypto.AES_encrypt s.encryptionKey (calculateCounter s.pEncryptedSessionKey blockIndex)
        blockIndex := blockIndex }
    else s
  (byte ^^^ s.keyStream.getD blockOffset 0, s)

/- The loop of `FwdLockFile_read`. -/
def decryptBytes (crypto : Crypto) : Session → List Byte → List Byte × Session
| s, [] => ([], s)
| s, byte :: bytes =>
  let (plain, s) := decryptByte crypto s byte
  let (rest, s) :=
    decryptBytes crypto { s with filePos := s.filePos + 1 }
      bytes
  (plain :: rest, s)

/- The bytes of a call, or `none` for -1. -/
def read (crypto : Crypto) (o : Open) (numBytes : Nat)
    (outcome : Outcome) : Option (List Byte) × Open :=
  match o.file.read numBytes outcome with
  | (none, file) => (none, { o with file := file })
  | (some bytes, file) =>
    let (plain, session) := decryptBytes crypto o.session bytes
    (some plain, ⟨file, session⟩)

/- A sum in 64 bits with a sign. -/
def off64 (n : Int) : Int :=
  (BitVec.ofInt 64 n).toInt

/- Back to where the session is. -/
def restore (o : Open) : Descriptor :=
  (o.file.lseek64 (off64 (o.session.dataOffset + o.session.filePos)) .SEEK_SET).2

/- Behind the `switch`: what the descriptor said of the seek. -/
def settle (o : Open) : Option Nat × Descriptor → Option Nat × Open
| (none, file) => (none, { o with file := file })
| (some newFilePos, file) =>
  if newFilePos < o.session.dataOffset then
    (none, { o with file := restore { o with file := file } })
  else
    let filePos := newFilePos - o.session.dataOffset
    (some filePos,
      { file := file
        session := { o.session with filePos := filePos } })

/- `none` is `INVALID_OFFSET`. -/
def lseek (o : Open) (offset : Int) (whence : Whence) : Option Nat × Open :=
  settle o
    (match whence with
    | .SEEK_SET => o.file.lseek64 (off64 (o.session.dataOffset + offset)) .SEEK_SET
    | .SEEK_CUR => o.file.lseek64 offset .SEEK_CUR
    | .SEEK_END => o.file.lseek64 offset .SEEK_END
    | .other => (none, o.file))

/-
  The loop that signs what is read; `none` is a `read` that failed. Behind the outcomes given, all
  is read in full.
-/
def signLoop : Descriptor → List Byte → List Outcome → Option (List Byte) × Descriptor
| file, signed, [] =>
  let rest := file.contents.drop file.position
  (some (signed ++ rest), { file with position := file.position + rest.length })
| file, signed, outcome :: outcomes =>
  match file.read SIG_CALC_BUFFER_SIZE outcome with
  | (none, file) => (none, file)
  | (some [], file) => (some signed, file)
  | (some (byte :: bytes), file) => signLoop file (signed ++ byte :: bytes) outcomes

/- `HMAC_Init_ex` empties the context behind every check. -/
def Open.reset (o : Open) : Open :=
  { o with session := { o.session with signingContext := [] } }

/- `memory` tells whether there is some for the buffer. -/
def checkDataIntegrity (crypto : Crypto) (o : Open) (memory : Bool)
    (outcomes : List Outcome) : Bool × Open :=
  if memory = false then (false, o)
  else
    match o.file.lseek64 o.session.dataOffset .SEEK_SET with
    | (some position, file) =>
      if position = o.session.dataOffset then
        let (signed, file) := signLoop file o.session.signingContext outcomes
        let result :=
          match signed with
          | none => false
          | some signed => crypto.hmac o.session.signingKey signed = o.session.dataSignature
        let o := Open.reset { o with file := file }
        (result, { o with file := restore o })
      else (false, { o with file := file })
    | (none, file) => (false, { o with file := file })

def checkHeaderIntegrity (crypto : Crypto) (o : Open) : Bool × Open :=
  let s := o.session
  let signed :=
    s.signingContext ++ s.topHeader ++ s.pContentType ++ s.pEncryptedSessionKey ++ s.dataSignature
  (crypto.hmac s.signingKey signed = s.headerSignature, o.reset)

/- The calls for a file that was attached. -/
inductive Call
| read (numBytes : Nat) (outcome : Outcome)
| lseek (offset : Int) (whence : Whence)
| checkDataIntegrity (memory : Bool) (outcomes : List Outcome)
| checkHeaderIntegrity

def step (crypto : Crypto) (o : Open) : Call → Open
| .read numBytes outcome => (read crypto o numBytes outcome).2
| .lseek offset whence => (lseek o offset whence).2
| .checkDataIntegrity memory outcomes => (checkDataIntegrity crypto o memory outcomes).2
| .checkHeaderIntegrity => (checkHeaderIntegrity crypto o).2

def run (crypto : Crypto) (o : Open) (calls : List Call) : Open :=
  calls.foldl (step crypto) o

--
-- Counting
--

/- A low byte, and the rest modulo what is left. -/
theorem low_mod {low x : Nat} (hLow : low < 256) (m : Nat) :
    low + 256 * (x % m) = (low + 256 * x) % (256 * m) := by
  have hLowMod : (low + 256 * x) % 256 = low := by omega
  have hDiv : (low + 256 * x) / 256 = x := by omega
  rw [Nat.mod_mul, hLowMod, hDiv]

@[simp] theorem counterLoop_length (blockIndex i : Nat) (carry : Byte) (nonce : List Byte) :
    (counterLoop blockIndex i carry nonce).length = nonce.length := by
  induction nonce generalizing i carry with
  | nil => rfl
  | cons n rest ih =>
    unfold counterLoop
    split
    · rw [List.length_cons, ih, List.length_cons]
    · rw [List.length_cons, ih, List.length_cons]

/- What two additions of bytes carry. -/
theorem carry_two (n part carry : Byte) (hCarry : carry.toNat ≤ 1) :
    (n + part + carry).toNat +
        256 * (if n + part < n ∨ n + part + carry < n + part then (1 : Byte) else 0).toNat =
      n.toNat + part.toNat + carry.toNat := by
  have hn := n.isLt
  have hPart := part.isLt
  simp only [BitVec.lt_def, BitVec.toNat_add]
  split
  · have hOne : (1 : Byte).toNat = 1 := rfl
    rw [hOne]
    omega
  · have hZero : (0 : Byte).toNat = 0 := rfl
    rw [hZero]
    omega

theorem carry_one (n carry : Byte) (hCarry : carry.toNat ≤ 1) :
    (n + carry).toNat + 256 * (if n + carry < n then (1 : Byte) else 0).toNat =
      n.toNat + carry.toNat := by
  have hTwo := carry_two n 0 carry hCarry
  have hZero : n + 0 = n := BitVec.add_zero n
  have hNot : ¬n < n := by
    rw [BitVec.lt_def]
    omega
  have hNone : (0 : Byte).toNat = 0 := rfl
  rw [hZero, hNone, Nat.add_zero] at hTwo
  simpa only [hNot, false_or] using hTwo

theorem bit_le_one (condition : Prop) [Decidable condition] :
    (if condition then (1 : Byte) else 0).toNat ≤ 1 := by
  split
  · exact Nat.le_refl _
  · exact Nat.zero_le _

/- The index is added, with the carry of the bytes before. -/
theorem counterLoop_value {blockIndex : Nat} (hIndex : blockIndex < 2 ^ 64) (i : Nat) (carry : Byte)
    (hCarry : carry.toNat ≤ 1) (nonce : List Byte) :
    ofLittleEndian (counterLoop blockIndex i carry nonce) =
      (ofLittleEndian nonce + blockIndex / 256 ^ i + carry.toNat) % 256 ^ nonce.length := by
  induction nonce generalizing i carry with
  | nil =>
    rw [List.length_nil, Nat.pow_zero, Nat.mod_one]
    rfl
  | cons n rest ih =>
    have hPow : 256 ^ (n :: rest).length = 256 * 256 ^ rest.length := by
      rw [List.length_cons, Nat.pow_succ, Nat.mul_comm]
    unfold counterLoop
    by_cases hFirst : i < 8
    · simp only [if_pos hFirst]
      have hByte :
          (BitVec.ofNat 8 (blockIndex >>> (i * 8)) : Byte).toNat +
            256 * (blockIndex / 256 ^ (i + 1)) = blockIndex / 256 ^ i := by
        have hShift : blockIndex >>> (i * 8) = blockIndex / 256 ^ i := by
          have hBase : (256 : Nat) = 2 ^ 8 := rfl
          rw [Nat.shiftRight_eq_div_pow, Nat.mul_comm i, Nat.pow_mul, ← hBase]
        have hDiv : blockIndex / 256 ^ (i + 1) = blockIndex / 256 ^ i / 256 := by
          rw [Nat.pow_succ, Nat.div_div_eq_div_mul]
        rw [BitVec.toNat_ofNat, hShift, hDiv]
        omega
      have hSum := carry_two n (BitVec.ofNat 8 (blockIndex >>> (i * 8))) carry hCarry
      rw [ofLittleEndian, ih (i + 1) _ (bit_le_one _), low_mod (BitVec.isLt _), hPow]
      congr 1
      rw [ofLittleEndian]
      omega
    · simp only [if_neg hFirst]
      have hNone : ∀ k, 8 ≤ k → blockIndex / 256 ^ k = 0 := by
        intro k hk
        apply Nat.div_eq_of_lt
        have hBase : (2 : Nat) ^ 64 = 256 ^ 8 := rfl
        rw [hBase] at hIndex
        exact Nat.lt_of_lt_of_le hIndex (Nat.pow_le_pow_right (by omega) hk)
      have hSum := carry_one n carry hCarry
      rw [ofLittleEndian, ih (i + 1) _ (bit_le_one _), low_mod (BitVec.isLt _),
        hPow, hNone i (by omega), hNone (i + 1) (by omega)]
      congr 1
      rw [ofLittleEndian]
      omega

@[simp] theorem incrementCounter_length (counter : List Byte) :
    (incrementCounter counter).length = counter.length := by
  induction counter with
  | nil => rfl
  | cons c rest ih =>
    unfold incrementCounter
    split
    · rw [List.length_cons, ih, List.length_cons]
    · rfl

theorem incrementCounter_value (counter : List Byte) :
    ofLittleEndian (incrementCounter counter) =
      (ofLittleEndian counter + 1) % 256 ^ counter.length := by
  induction counter with
  | nil => rfl
  | cons c rest ih =>
    have hPow : 256 ^ (c :: rest).length = 256 * 256 ^ rest.length := by
      rw [List.length_cons, Nat.pow_succ, Nat.mul_comm]
    have hc := c.isLt
    have hZero : c + 1 = 0 ↔ c.toNat = 255 := by
      rw [← BitVec.toNat_inj, BitVec.toNat_add]
      have hOne : (1 : Byte).toNat = 1 := rfl
      have hNone : (0 : Byte).toNat = 0 := rfl
      rw [hOne, hNone]
      omega
    have hNext : (c + 1).toNat = (c.toNat + 1) % 256 := by
      rw [BitVec.toNat_add]
      rfl
    unfold incrementCounter
    by_cases hCarry : c + 1 = 0
    · rw [if_pos hCarry, ofLittleEndian, ih, low_mod (BitVec.isLt _), hPow, hNext]
      congr 1
      rw [ofLittleEndian, hZero.mp hCarry]
      omega
    · have hLess : c.toNat + 1 < 256 := by
        rw [hZero] at hCarry
        omega
      have hRest := ofLittleEndian_lt rest
      rw [if_neg hCarry, ofLittleEndian, hNext, hPow, ofLittleEndian, Nat.mod_eq_of_lt hLess,
        Nat.mod_eq_of_lt (by omega)]
      omega

theorem iterate_value (n : Nat) (counter : List Byte) :
    (incrementCounter^[n] counter).length = counter.length ∧
      ofLittleEndian (incrementCounter^[n] counter) =
        (ofLittleEndian counter + n) % 256 ^ counter.length := by
  induction n with
  | zero => exact ⟨rfl, (Nat.mod_eq_of_lt (ofLittleEndian_lt _)).symm⟩
  | succ n ih =>
    rw [Function.iterate_succ_apply', incrementCounter_length,
      incrementCounter_value, ih.1, ih.2, Nat.mod_add_mod]
    exact ⟨rfl, rfl⟩

/- The decoder gets where the converter has counted to. -/
theorem calculateCounter_eq {pNonce : List Byte} (hNonce : AES_BLOCK_SIZE ≤ pNonce.length)
    {blockIndex : Nat} (hIndex : blockIndex < 2 ^ 64) :
    calculateCounter pNonce blockIndex =
        incrementCounter^[blockIndex] (pNonce.take AES_BLOCK_SIZE) ∧
      calculateCounter pNonce blockIndex =
        littleEndian AES_BLOCK_SIZE
          ((ofLittleEndian (pNonce.take AES_BLOCK_SIZE) + blockIndex) % 2 ^ 128) := by
  have hLength : (pNonce.take AES_BLOCK_SIZE).length = AES_BLOCK_SIZE :=
    List.length_take_of_le hNonce
  have hValue := counterLoop_value hIndex 0 0 (Nat.zero_le 1) (pNonce.take AES_BLOCK_SIZE)
  have hZero : (0 : Byte).toNat = 0 := rfl
  have hPow : (256 : Nat) ^ AES_BLOCK_SIZE = 2 ^ 128 := rfl
  rw [hZero, Nat.pow_zero, Nat.div_one, Nat.add_zero, hLength, hPow] at hValue
  rcases iterate_value blockIndex (pNonce.take AES_BLOCK_SIZE) with ⟨hSame, hCounted⟩
  rw [hLength, hPow] at hCounted
  constructor
  · apply ofLittleEndian_inj
    · rw [hSame, calculateCounter, counterLoop_length]
    · rw [hCounted]
      exact hValue
  · apply ofLittleEndian_inj
    · rw [littleEndian_length, calculateCounter, counterLoop_length, hLength]
    · have hFits :
          (ofLittleEndian (pNonce.take AES_BLOCK_SIZE) + blockIndex) % 2 ^ 128 <
            2 ^ (8 * AES_BLOCK_SIZE) :=
        Nat.mod_lt _ (by decide)
      rw [ofLittleEndian_littleEndian hFits]
      exact hValue

--
-- Random Access
--

/- The key stream of the converter at a position. -/
def keyByte (crypto : Crypto) (s : Session) (p : Nat) : Byte :=
  (crypto.AES_encrypt s.encryptionKey
    (littleEndian AES_BLOCK_SIZE
      ((ofLittleEndian (s.pEncryptedSessionKey.take AES_BLOCK_SIZE) +
        p / AES_BLOCK_SIZE) % 2 ^ 128))).getD
    (p % AES_BLOCK_SIZE) 0

/- The parts of a session that no call changes. -/
structure Same (s t : Session) : Prop where
  key : t.pEncryptedSessionKey = s.pEncryptedSessionKey
  encryption : t.encryptionKey = s.encryptionKey
  offset : t.dataOffset = s.dataOffset

theorem Same.refl (s : Session) : Same s s :=
  ⟨rfl, rfl, rfl⟩

theorem Same.trans {s t u : Session} (hFirst : Same s t) (hSecond : Same t u) : Same s u :=
  ⟨hSecond.key.trans hFirst.key, hSecond.encryption.trans hFirst.encryption,
    hSecond.offset.trans hFirst.offset⟩

theorem Same.keyByte {s t : Session} (hSame : Same s t) (crypto : Crypto) (p : Nat) :
    FwdLock.keyByte crypto t p = FwdLock.keyByte crypto s p := by
  rw [FwdLock.keyByte, FwdLock.keyByte, hSame.key, hSame.encryption]

/- What is kept of the key stream is that of the block kept, and there is a nonce. -/
structure Keyed (crypto : Crypto) (s : Session) : Prop where
  nonce : AES_BLOCK_SIZE ≤ s.pEncryptedSessionKey.length
  stream :
    s.blockIndex ≠ INVALID_BLOCK_INDEX →
      s.keyStream =
        crypto.AES_encrypt s.encryptionKey (calculateCounter s.pEncryptedSessionKey s.blockIndex)

/- The two positions agree. -/
structure Attached (crypto : Crypto) (o : Open) : Prop where
  keyed : Keyed crypto o.session
  position : o.file.position = o.session.dataOffset + o.session.filePos
  bounded : o.file.position ≤ o.file.limit
  whole : o.file.contents.length ≤ o.file.limit
  limit : o.file.limit < 2 ^ 63

theorem decryptByte_eq {crypto : Crypto} {s : Session} (hKeyed : Keyed crypto s)
    (hPos : s.filePos < 2 ^ 63) (byte : Byte) :
    (decryptByte crypto s byte).1 = byte ^^^ keyByte crypto s s.filePos ∧
      Same s (decryptByte crypto s byte).2 ∧ (decryptByte crypto s byte).2.filePos = s.filePos ∧
      Keyed crypto (decryptByte crypto s byte).2 := by
  have hValid : s.filePos / AES_BLOCK_SIZE ≠ INVALID_BLOCK_INDEX := by
    unfold AES_BLOCK_SIZE INVALID_BLOCK_INDEX
    omega
  have hIndex : s.filePos / AES_BLOCK_SIZE < 2 ^ 64 := by
    unfold AES_BLOCK_SIZE
    omega
  have hCounter := (calculateCounter_eq hKeyed.nonce hIndex).2
  unfold decryptByte keyByte
  rw [← hCounter]
  by_cases hOther : s.filePos / AES_BLOCK_SIZE ≠ s.blockIndex
  · simp only [if_pos hOther]
    exact ⟨trivial, ⟨rfl, rfl, rfl⟩, trivial, hKeyed.nonce, fun _ => rfl⟩
  · simp only [if_neg hOther]
    have hSame := not_not.mp hOther
    rw [hSame] at hValid ⊢
    rw [← hKeyed.stream hValid]
    exact ⟨rfl, .refl s, trivial, hKeyed⟩

/- The bytes from a position on, under the key stream. -/
def underKeys (crypto : Crypto) (s : Session) : Nat → List Byte → List Byte
| _, [] => []
| p, byte :: bytes => (byte ^^^ keyByte crypto s p) :: underKeys crypto s (p + 1) bytes

theorem Same.underKeys {s t : Session} (hSame : Same s t) (crypto : Crypto) (p : Nat)
    (bytes : List Byte) :
    FwdLock.underKeys crypto t p bytes = FwdLock.underKeys crypto s p bytes := by
  induction bytes generalizing p with
  | nil => rfl
  | cons byte bytes ih => rw [FwdLock.underKeys, FwdLock.underKeys, ih, hSame.keyByte]

theorem decryptBytes_eq {crypto : Crypto} {s : Session} (hKeyed : Keyed crypto s)
    (bytes : List Byte) (hPos : s.filePos + bytes.length < 2 ^ 63) :
    (decryptBytes crypto s bytes).1 = underKeys crypto s s.filePos bytes ∧
      Same s (decryptBytes crypto s bytes).2 ∧
      (decryptBytes crypto s bytes).2.filePos = s.filePos + bytes.length ∧
      Keyed crypto (decryptBytes crypto s bytes).2 := by
  induction bytes generalizing s with
  | nil => exact ⟨rfl, .refl s, rfl, hKeyed⟩
  | cons byte bytes ih =>
    rw [List.length_cons] at hPos
    rcases decryptByte_eq hKeyed (by omega) byte with ⟨hByte, hSame, hSamePos, hNext⟩
    rcases hDecrypt : decryptByte crypto s byte with ⟨plain, t⟩
    rw [hDecrypt] at hByte hSame hSamePos hNext
    simp only at hByte hSame hSamePos hNext
    have hMoved : Same s { t with filePos := t.filePos + 1 } :=
      ⟨hSame.key, hSame.encryption, hSame.offset⟩
    rcases ih (s := { t with filePos := t.filePos + 1 })
        ⟨hNext.nonce, hNext.stream⟩ (by simp only; omega) with
      ⟨hRest, hSameRest, hPosRest, hKeyedRest⟩
    simp only [hSamePos] at hRest hPosRest
    rw [decryptBytes, hDecrypt]
    simp only
    refine ⟨?_, hMoved.trans ?_, ?_, ?_⟩
    · rw [underKeys, hByte, hSamePos, hRest, ← hSamePos, hMoved.underKeys]
    · rw [hSamePos] at hSameRest ⊢
      exact hSameRest
    · rw [hSamePos, hPosRest, List.length_cons]
      omega
    · rw [hSamePos] at hKeyedRest ⊢
      exact hKeyedRest

theorem underKeys_getElem? (crypto : Crypto) (s : Session) (p : Nat) (bytes : List Byte) (k : Nat) :
    (underKeys crypto s p bytes)[k]? = bytes[k]?.map (· ^^^ keyByte crypto s (p + k)) := by
  induction bytes generalizing p k with
  | nil => rfl
  | cons byte bytes ih =>
    cases k with
    | zero => rfl
    | succ k =>
      rw [underKeys, List.getElem?_cons_succ, ih, List.getElem?_cons_succ, Nat.add_right_comm,
        Nat.add_assoc]

theorem underKeys_length (crypto : Crypto) (s : Session) (p : Nat) (bytes : List Byte) :
    (underKeys crypto s p bytes).length = bytes.length := by
  induction bytes generalizing p with
  | nil => rfl
  | cons byte bytes ih => rw [underKeys, List.length_cons, ih, List.length_cons]

/- What a call of `read` delivers. -/
def Delivers (crypto : Crypto) (o : Open) (plain : List Byte) : Prop :=
  ∀ k, k < plain.length →
    ∃ stored, o.file.contents[o.session.dataOffset + (o.session.filePos + k)]? = some stored ∧
      plain[k]? = some (stored ^^^ keyByte crypto o.session (o.session.filePos + k))

/- A call that leaves the file and the session as they are. -/
structure Stays (o next : Open) : Prop where
  file : next.file = o.file
  filePos : next.session.filePos = o.session.filePos
  same : Same o.session next.session

theorem Attached.read {crypto : Crypto} {o : Open} (hAttached : Attached crypto o) (numBytes : Nat)
    (outcome : Outcome) :
    Attached crypto (read crypto o numBytes outcome).2 ∧
      Same o.session (FwdLock.read crypto o numBytes outcome).2.session ∧
      (FwdLock.read crypto o numBytes outcome).2.file.contents = o.file.contents ∧
      match FwdLock.read crypto o numBytes outcome with
      | (none, next) => Stays o next
      | (some plain, next) =>
        next.session.filePos = o.session.filePos + plain.length ∧ Delivers crypto o plain := by
  cases outcome with
  | fails => exact ⟨hAttached, .refl _, rfl, rfl, rfl, .refl _⟩
  | gives most =>
    have hPosition := hAttached.position
    have hBounded := hAttached.bounded
    have hWhole := hAttached.whole
    have hLimit := hAttached.limit
    generalize hBytes : (o.file.contents.drop o.file.position).take (min numBytes most) = bytes
    have hEnd : o.file.position + bytes.length ≤ o.file.limit := by
      rw [← hBytes, List.length_take, List.length_drop]
      omega
    rcases decryptBytes_eq hAttached.keyed bytes (by omega) with ⟨hPlain, hSame, hPos, hKeyed⟩
    have hRead :
        FwdLock.read crypto o numBytes (.gives most) =
          (some (decryptBytes crypto o.session bytes).1,
            ⟨{ o.file with
                position := o.file.position + bytes.length },
              (decryptBytes crypto o.session bytes).2⟩) := by
      simp only [FwdLock.read, Descriptor.read, hBytes]
    rw [hRead]
    refine ⟨⟨hKeyed, ?_, hEnd, hWhole, hLimit⟩, hSame, rfl, ?_, ?_⟩
    · simp only [hPos, hSame.offset]
      omega
    · rw [hPos, hPlain, underKeys_length]
    · intro k hk
      rw [hPlain, underKeys_length] at hk
      refine ⟨bytes[k], ?_, ?_⟩
      · have hStored := List.getElem?_eq_getElem hk
        rw [← hStored, ← hBytes, List.getElem?_take_of_lt, List.getElem?_drop]
        · congr 1
          omega
        · rw [← hBytes, List.length_take] at hk
          omega
      · rw [hPlain, underKeys_getElem?, List.getElem?_eq_getElem hk]
        rfl

theorem off64_eq {n : Nat} (hFits : n < 2 ^ 63) : off64 (n : Int) = n := by
  unfold off64
  rw [BitVec.toInt_ofInt]
  have hAll : ((2 ^ 64 : Nat) : Int) = 2 ^ 64 := Int.natCast_pow 2 64
  apply Int.bmod_eq_of_le_mul_two
  · rw [hAll]
    omega
  · rw [hAll]
    omega

theorem lseek64_fits (file : Descriptor) {offset : Int} {whence : Whence} {position : Nat}
    (hTarget : file.target offset whence = position) (hFits : position ≤ file.limit) :
    file.lseek64 offset whence = (some position, { file with position := position }) := by
  have hInt : 0 ≤ file.target offset whence ∧ file.target offset whence ≤ file.limit := by
    omega
  refine (if_pos hInt).trans ?_
  rw [hTarget, Int.toNat_natCast]

/- Back is where the session is. -/
theorem restore_eq {o : Open} (hFits : o.session.dataOffset + o.session.filePos ≤ o.file.limit)
    (hLimit : o.file.limit < 2 ^ 63) :
    restore o =
      { o.file with
        position := o.session.dataOffset + o.session.filePos } := by
  have hOff :
      off64 ((o.session.dataOffset : Int) + o.session.filePos) =
        ((o.session.dataOffset + o.session.filePos : Nat) : Int) := by
    rw [← Int.natCast_add]
    exact off64_eq (Nat.lt_of_le_of_lt hFits hLimit)
  have hTo :=
    lseek64_fits o.file
      (rfl :
        o.file.target ((o.session.dataOffset + o.session.filePos : Nat) : Int) .SEEK_SET =
          (o.session.dataOffset + o.session.filePos : Nat))
      hFits
  rw [restore, hOff, hTo]

theorem lseek64_cases (file : Descriptor) (offset : Int) (whence : Whence) :
    file.lseek64 offset whence = (none, file) ∨
      ∃ position,
        position ≤ file.limit ∧
          file.lseek64 offset whence = (some position, { file with position := position }) := by
  unfold Descriptor.lseek64
  by_cases hFits : 0 ≤ file.target offset whence ∧ file.target offset whence ≤ file.limit
  · right
    refine ⟨(file.target offset whence).toNat, by omega, ?_⟩
    exact if_pos hFits
  · left
    exact if_neg hFits

/- A seek is refused, or the session follows the descriptor. -/
theorem Attached.settle {crypto : Crypto} {o : Open} (hAttached : Attached crypto o)
    {result : Option Nat × Descriptor}
    (hResult :
      result = (none, o.file) ∨
        ∃ position,
          position ≤ o.file.limit ∧
            result = (some position, { o.file with position := position })) :
    Attached crypto (settle o result).2 ∧ Same o.session (FwdLock.settle o result).2.session ∧
      (FwdLock.settle o result).2.file.contents = o.file.contents ∧
      match FwdLock.settle o result with
      | (none, next) => Stays o next
      | (some filePos, next) =>
        next.session.filePos = filePos := by
  have hPosition := hAttached.position
  have hBounded := hAttached.bounded
  rcases hResult with rfl | ⟨position, hLe, rfl⟩
  · exact ⟨hAttached, .refl _, rfl, rfl, rfl, .refl _⟩
  · unfold FwdLock.settle
    by_cases hFront : position < o.session.dataOffset
    · have hBack :
          restore
              { o with
                file := { o.file with position := position } } =
            o.file := by
        have hRestore :=
          restore_eq
            (o :=
              { o with
                file := { o.file with position := position } })
            (by simp only; omega) hAttached.limit
        simp only [← hPosition] at hRestore
        exact hRestore
      simp only [if_pos hFront, hBack]
      exact ⟨hAttached, .refl _, trivial, rfl, rfl, .refl _⟩
    · simp only [if_neg hFront]
      refine ⟨⟨⟨hAttached.keyed.nonce, hAttached.keyed.stream⟩, ?_, hLe, hAttached.whole,
        hAttached.limit⟩, ⟨rfl, rfl, rfl⟩, trivial, trivial⟩
      simp only
      omega

theorem Attached.lseek {crypto : Crypto} {o : Open} (hAttached : Attached crypto o) (offset : Int)
    (whence : Whence) :
    Attached crypto (lseek o offset whence).2 ∧ Same o.session (lseek o offset whence).2.session ∧
      (FwdLock.lseek o offset whence).2.file.contents = o.file.contents ∧
      match FwdLock.lseek o offset whence with
      | (none, next) => Stays o next
      | (some filePos, next) =>
        next.session.filePos = filePos := by
  unfold FwdLock.lseek
  cases whence with
  | SEEK_SET => exact hAttached.settle (lseek64_cases _ _ _)
  | SEEK_CUR => exact hAttached.settle (lseek64_cases _ _ _)
  | SEEK_END => exact hAttached.settle (lseek64_cases _ _ _)
  | other => exact hAttached.settle (.inl rfl)

/- Signing moves the descriptor only. -/
theorem signLoop_file (file : Descriptor) (signed : List Byte) (outcomes : List Outcome) :
    ∃ position, (signLoop file signed outcomes).2 = { file with position := position } := by
  induction outcomes generalizing file signed with
  | nil => exact ⟨_, rfl⟩
  | cons outcome outcomes ih =>
    unfold signLoop
    cases outcome with
    | fails => exact ⟨file.position, rfl⟩
    | gives most =>
      simp only [Descriptor.read]
      cases hBytes : (file.contents.drop file.position).take (min SIG_CALC_BUFFER_SIZE most) with
      | nil => exact ⟨_, rfl⟩
      | cons byte bytes =>
        rcases ih
            { file with
              position := file.position + (byte :: bytes).length }
            (signed ++ byte :: bytes) with
          ⟨position, hFile⟩
        exact ⟨position, hFile⟩

theorem Attached.reset {crypto : Crypto} {o : Open} (hAttached : Attached crypto o) :
    Attached crypto o.reset ∧ Stays o o.reset :=
  ⟨⟨⟨hAttached.keyed.nonce, hAttached.keyed.stream⟩,
    hAttached.position, hAttached.bounded, hAttached.whole,
    hAttached.limit⟩, rfl, rfl, rfl, rfl, rfl⟩

theorem Attached.checkDataIntegrity {crypto : Crypto} {o : Open} (hAttached : Attached crypto o)
    (memory : Bool) (outcomes : List Outcome) :
    Attached crypto (checkDataIntegrity crypto o memory outcomes).2 ∧
      Stays o (FwdLock.checkDataIntegrity crypto o memory outcomes).2 := by
  have hNothing : Attached crypto o ∧ Stays o o := ⟨hAttached, rfl, rfl, .refl _⟩
  have hPosition := hAttached.position
  have hBounded := hAttached.bounded
  unfold FwdLock.checkDataIntegrity
  cases memory with
  | false => exact hNothing
  | true =>
    rw [if_neg Bool.noConfusion]
    have hSeek :=
      lseek64_fits o.file
        (rfl : o.file.target (o.session.dataOffset : Int) .SEEK_SET = o.session.dataOffset)
        (by omega)
    simp only [hSeek, if_true]
    rcases signLoop_file { o.file with position := o.session.dataOffset }
        o.session.signingContext outcomes with
      ⟨position, hFile⟩
    simp only [hFile]
    have hBack :
        restore
            (Open.reset
              { o with
                file := { o.file with position := position } }) =
          o.file := by
      have hRestore :=
        restore_eq
          (o :=
            Open.reset
              { o with
                file := { o.file with position := position } })
          (by simp only [Open.reset]; omega) hAttached.limit
      simp only [Open.reset, ← hPosition] at hRestore
      exact hRestore
    rw [hBack]
    exact hAttached.reset

theorem Attached.checkHeaderIntegrity {crypto : Crypto} {o : Open} (hAttached : Attached crypto o) :
    Attached crypto (checkHeaderIntegrity crypto o).2 ∧
      Stays o (FwdLock.checkHeaderIntegrity crypto o).2 :=
  hAttached.reset

/- What holds of an open file after any calls. -/
structure Follows (crypto : Crypto) (start o : Open) : Prop where
  attached : Attached crypto o
  same : Same start.session o.session
  contents : o.file.contents = start.file.contents

theorem Follows.step {crypto : Crypto} {start o : Open} (hFollows : Follows crypto start o)
    (call : Call) : Follows crypto start (step crypto o call) := by
  cases call with
  | read numBytes outcome =>
    rcases hFollows.attached.read numBytes outcome with ⟨hAttached, hSame, hContents, -⟩
    exact ⟨hAttached, hFollows.same.trans hSame, hContents.trans hFollows.contents⟩
  | lseek offset whence =>
    rcases hFollows.attached.lseek offset whence with ⟨hAttached, hSame, hContents, -⟩
    exact ⟨hAttached, hFollows.same.trans hSame, hContents.trans hFollows.contents⟩
  | checkDataIntegrity memory outcomes =>
    rcases hFollows.attached.checkDataIntegrity memory outcomes with ⟨hAttached, hStays⟩
    refine ⟨hAttached, hFollows.same.trans hStays.same, ?_⟩
    rw [FwdLock.step, hStays.file]
    exact hFollows.contents
  | checkHeaderIntegrity =>
    rcases hFollows.attached.checkHeaderIntegrity with ⟨hAttached, hStays⟩
    refine ⟨hAttached, hFollows.same.trans hStays.same, ?_⟩
    rw [FwdLock.step, hStays.file]
    exact hFollows.contents

theorem Follows.run {crypto : Crypto} {start o : Open} (hFollows : Follows crypto start o)
    (calls : List Call) : Follows crypto start (run crypto o calls) := by
  induction calls generalizing o with
  | nil => exact hFollows
  | cons call calls ih => exact ih (hFollows.step call)

--
-- Attaching
--

theorem readAll_eq {file next : Descriptor} {numBytes : Nat} {bytes : List Byte}
    (h : readAll file numBytes = some (bytes, next)) :
    bytes.length = numBytes ∧
      next = { file with position := file.position + numBytes } ∧
      (0 < numBytes → file.position + numBytes ≤ file.contents.length) := by
  unfold readAll Descriptor.read at h
  simp only at h
  split at h
  · rename_i hLength
    cases h
    refine ⟨hLength, ?_, ?_⟩
    · simp only [hLength]
    · intro hSome
      rw [List.length_take, List.length_drop] at hLength
      omega
  · cases h

theorem attach_attached {crypto : Crypto} {file : Descriptor} {o : Open}
    (hAttach : attach crypto file = some o) (hStart : file.position = 0)
    (hWhole : file.contents.length ≤ file.limit) (hLimit : file.limit < 2 ^ 63) :
    Attached crypto o ∧ o.file.contents = file.contents := by
  unfold attach at hAttach
  rcases Option.bind_eq_some_iff.mp hAttach with ⟨⟨topHeader, file1⟩, hRead1, hAttach⟩
  simp only at hAttach
  split at hAttach
  · cases hAttach
  · rcases Option.bind_eq_some_iff.mp hAttach with ⟨⟨contentType, file2⟩, hRead2, hAttach⟩
    rcases Option.bind_eq_some_iff.mp hAttach with ⟨⟨key, file3⟩, hRead3, hAttach⟩
    rcases Option.bind_eq_some_iff.mp hAttach with ⟨⟨dataSignature, file4⟩, hRead4, hAttach⟩
    rcases Option.bind_eq_some_iff.mp hAttach with ⟨⟨headerSignature, file5⟩, hRead5, hAttach⟩
    rcases Option.map_eq_some_iff.mp hAttach with ⟨⟨encryption, signing⟩, -, rfl⟩
    rcases readAll_eq hRead1 with ⟨-, rfl, -⟩
    rcases readAll_eq hRead2 with ⟨-, rfl, -⟩
    rcases readAll_eq hRead3 with ⟨hKey, rfl, -⟩
    rcases readAll_eq hRead4 with ⟨-, rfl, -⟩
    rcases readAll_eq hRead5 with ⟨-, rfl, hEnd⟩
    have hRoom := hEnd (by decide)
    simp only at hRoom
    refine ⟨⟨⟨?_, fun hNot => absurd rfl hNot⟩, ?_, ?_, hWhole, hLimit⟩, rfl⟩
    · simp only [hKey]
      decide
    · simp only [hStart, TOP_HEADER_SIZE]
      omega
    · simp only
      omega

/-
  After any calls the descriptor is where the session is; a call that delivers bytes moves on by
  their number and delivers the stored ones under the key stream of the converter, and a refused
  seek or a check moves nothing.
-/
theorem random_access (crypto : Crypto) (file : Descriptor) (o : Open)
    (hAttach : attach crypto file = some o) (hStart : file.position = 0)
    (hWhole : file.contents.length ≤ file.limit) (hLimit : file.limit < 2 ^ 63)
    (calls : List Call) :
    let s := run crypto o calls
    s.file.position = s.session.dataOffset + s.session.filePos ∧ s.file.contents = file.contents ∧
      Same o.session s.session ∧
      (∀ numBytes outcome,
        match read crypto s numBytes outcome with
        | (none, next) => Stays s next
        | (some plain, next) =>
          next.session.filePos = s.session.filePos + plain.length ∧ Delivers crypto s plain) ∧
      (∀ offset whence,
        match lseek s offset whence with
        | (none, next) => Stays s next
        | (some filePos, next) =>
          next.session.filePos = filePos) ∧
      (∀ memory outcomes, Stays s (checkDataIntegrity crypto s memory outcomes).2) ∧
      Stays s (checkHeaderIntegrity crypto s).2 ∧
      ∀ blockIndex, blockIndex < 2 ^ 64 →
        littleEndian AES_BLOCK_SIZE
            ((ofLittleEndian (s.session.pEncryptedSessionKey.take AES_BLOCK_SIZE) +
              blockIndex) % 2 ^ 128) =
          incrementCounter^[blockIndex] (s.session.pEncryptedSessionKey.take AES_BLOCK_SIZE) := by
  rcases attach_attached hAttach hStart hWhole hLimit with ⟨hAttached, hContents⟩
  have hFollows : Follows crypto o (run crypto o calls) :=
    Follows.run ⟨hAttached, .refl _, rfl⟩ calls
  refine ⟨hFollows.attached.position, hFollows.contents.trans hContents, hFollows.same,
    fun numBytes outcome =>
      (hFollows.attached.read numBytes outcome).2.2.2,
    fun offset whence =>
      (hFollows.attached.lseek offset whence).2.2.2,
    fun memory outcomes =>
      (hFollows.attached.checkDataIntegrity memory outcomes).2,
    hFollows.attached.checkHeaderIntegrity.2, ?_⟩
  intro blockIndex hIndex
  rcases calculateCounter_eq hFollows.attached.keyed.nonce hIndex with ⟨hCounted, hSum⟩
  rw [← hSum, hCounted]

/- What AES gives for a few blocks. -/
def tableCrypto : Crypto where
  decryptKey := fun _ => some (List.replicate 16 0)
  AES_encrypt := fun key block =>
    if key = List.replicate 16 0 then
      if block = List.replicate 16 0 then
        [0x66, 0xE9, 0x4B, 0xD4, 0xEF, 0x8A, 0x2C, 0x3B,
          0x88, 0x4C, 0xFA, 0x59, 0xCA, 0x34, 0x2B, 0x2E]
      else
        [0x47, 0x71, 0x18, 0x16, 0xE9, 0x1D, 0x6F, 0xF0,
          0x59, 0xBB, 0xBF, 0x2B, 0xF5, 0x8E, 0x0F, 0xD3]
    else if block = List.replicate 16 0 then
      [0xAB, 0x4B, 0x36, 0xBD, 0xC8, 0x1D, 0x8B, 0xD2,
        0xBC, 0xED, 0x4B, 0x05, 0xA7, 0x08, 0xB4, 0x22]
    else
      [0xC2, 0x16, 0x7E, 0x7A, 0xE6, 0xF0, 0xF3, 0x66,
        0xEC, 0x26, 0x45, 0x07, 0x75, 0x78, 0x3D, 0xDA]
  hmac := fun _ _ => List.replicate 20 0

/- A header of zeros and some zeros for data. -/
def zeroFile : Descriptor where
  contents := topHeaderTemplate ++ List.replicate 107 0
  position := 0
  limit := 2 ^ 40

/- Across a block, behind a seek that is refused. -/
theorem random_access_across :
    ∃ o,
      attach tableCrypto zeroFile = some o ∧
        (let s := run tableCrypto o [.lseek 15 .SEEK_SET, .lseek (-20) .SEEK_CUR]
        s.file.position = s.session.dataOffset + s.session.filePos ∧
          (read tableCrypto s 2 (.gives 2)).1 = some [0x22, 0xC2]) := by
  refine ⟨_, rfl, ?_, ?_⟩
  · exact (random_access tableCrypto zeroFile _ rfl rfl (by decide) (by decide) _).1
  · decide +kernel

end FwdLock

end FrameworksAv
