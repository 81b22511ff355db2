import FrameworksAv.Base.CounterMode
import FrameworksAv.ClearKey.JsonWebKey

/-
  Decryption of subsamples by a ClearKey session (`AesCtrDecryptor` and `Session::decrypt`,
  drm/mediadrm/plugins/clearkey).

  Main declarations:
    * `AesCtrDecryptor.decrypt`, `Session.decrypt`
    * `decrypt_twice`
    * `decrypt_meets_iff`
-/

--
-- Code
--

namespace FrameworksAv

namespace ClearKey

open Foundation.Base64 (char Malloc)

def kBlockSize : Nat := 16

abbrev Block := BitVec 128

/- Byte `i` of a block, the highest one first. -/
def byteOf (block : Block) (i : Nat) : Byte := block.extractLsb' (8 * (15 - i)) 8

structure SubSample where
  mNumBytesOfClearData : Nat
  mNumBytesOfEncryptedData : Nat

/- The resumable counter mode: the counter, the block it last gave, and the place in that block. -/
def AES_ctr128_encrypt (cipher : Block → Block) (source : List Byte)
    (s : CounterMode.State Block) : List Byte × CounterMode.State Block :=
  CounterMode.apply kBlockSize byteOf (· + 1) cipher source s

/- AES, from the bytes of a key. -/
abbrev Aes := List Byte → Block → Block

namespace AesCtrDecryptor

structure Progress where
  offset : Nat
  destination : Memory
  counter : CounterMode.State Block

def copyClear (source : List Byte) (size : Nat) (p : Progress) : Progress :=
  if size > 0 then
    { p with
      offset := p.offset + size
      destination := p.destination.store p.offset ((source.drop p.offset).take size) }
  else p

def decryptEncrypted (cipher : Block → Block) (source : List Byte) (size : Nat) (p : Progress) :
    Progress :=
  if size > 0 then
    let r := AES_ctr128_encrypt cipher ((source.drop p.offset).take size) p.counter
    { offset := p.offset + size
      destination := p.destination.store p.offset r.1
      counter := r.2 }
  else p

def run (cipher : Block → Block) (source : List Byte) (p : Progress) (subSamples : List SubSample) :
    Progress :=
  subSamples.foldl
    (fun p s =>
      decryptEncrypted cipher source s.mNumBytesOfEncryptedData
        (copyClear source s.mNumBytesOfClearData p))
    p

/- The key is the first 16 bytes of the vector, which are there or else read outside it. -/
def decrypt (aes : Aes) (key : List Byte) (iv : Block) (source : List Byte) (destination : Memory)
    (subSamples : List SubSample) : Checked (Memory × Nat) :=
  if key.length < kBlockSize then .error .outside
  else
    let p := run (aes (key.take kBlockSize)) source ⟨0, destination, ⟨iv, 0, 0⟩⟩ subSamples
    .ok (p.destination, p.offset)

end AesCtrDecryptor

/- The bytes that were written and their number; `none` is `ERROR_DRM_NO_LICENSE`. -/
def Session.decrypt (aes : Aes) (mKeyMap : KeyMap) (keyId : List Byte) (iv : Block)
    (source : List Byte) (destination : Memory) (subSamples : List SubSample) :
    Checked (Option (Memory × Nat)) :=
  match mKeyMap.lookup ⟨keyId⟩ with
  | none => .ok none
  | some key => (AesCtrDecryptor.decrypt aes key iv source destination subSamples).map some

--
-- Meaning
--

def total : List SubSample → Nat
| [] => 0
| s :: rest => s.mNumBytesOfClearData + s.mNumBytesOfEncryptedData + total rest

/- The clear ranges of some bytes, one behind the other. -/
def clearOf : List SubSample → List Byte → List Byte
| [], _ => []
| s :: rest, bytes =>
  bytes.take s.mNumBytesOfClearData ++
    clearOf rest (bytes.drop (s.mNumBytesOfClearData + s.mNumBytesOfEncryptedData))

def encryptedOf : List SubSample → List Byte → List Byte
| [], _ => []
| s :: rest, bytes =>
  (bytes.drop s.mNumBytesOfClearData).take s.mNumBytesOfEncryptedData ++
    encryptedOf rest (bytes.drop (s.mNumBytesOfClearData + s.mNumBytesOfEncryptedData))

/- The key stream: `cipher` of the initial counter, of the next one, and so on. -/
def keyStream (cipher : Block → Block) (iv : Block) : Nat → Byte :=
  CounterMode.stream kBlockSize byteOf (· + 1) cipher iv

/- The output is the source, with its encrypted ranges under the key stream from `i` on. -/
structure Decrypted (cipher : Block → Block) (iv : Block) (i : Nat) (subSamples : List SubSample)
    (source output : List Byte) : Prop where
  length : output.length = total subSamples
  clear : clearOf subSamples output = clearOf subSamples source
  encrypted :
    encryptedOf subSamples output =
      CounterMode.under (keyStream cipher iv) i (encryptedOf subSamples source)

/- Without a key nothing is decrypted, and else the key has 16 bytes and nothing else is written. -/
def Meets (aes : Aes) (mKeyMap : KeyMap) (keyId : List Byte) (iv : Block) (source : List Byte)
    (destination : Memory) (subSamples : List SubSample) : Prop :=
  match Session.decrypt aes mKeyMap keyId iv source destination subSamples with
  | .error _ => False
  | .ok none => mKeyMap.lookup ⟨keyId⟩ = none
  | .ok (some (memory, bytesDecrypted)) =>
    ∃ key, mKeyMap.lookup ⟨keyId⟩ = some key ∧ key.length = kBlockSize ∧
      bytesDecrypted = total subSamples ∧
        ∃ output, memory = destination.store 0 output ∧
          Decrypted (aes key) iv 0 subSamples source output

--
-- Subsamples
--

namespace AesCtrDecryptor

variable {cipher : Block → Block} {iv : Block} {source : List Byte}

theorem copyClear_eq (source : List Byte) (size : Nat) (p : Progress) :
    copyClear source size p =
      ⟨p.offset + size, p.destination.store p.offset ((source.drop p.offset).take size),
        p.counter⟩ := by
  unfold copyClear
  split
  · rfl
  · have hNone : size = 0 := by omega
    rw [hNone, List.take_zero, Memory.store_nil, Nat.add_zero]

theorem decryptEncrypted_eq (cipher : Block → Block) (source : List Byte) (size : Nat)
    (p : Progress) :
    let r := AES_ctr128_encrypt cipher ((source.drop p.offset).take size) p.counter
    decryptEncrypted cipher source size p =
      ⟨p.offset + size, p.destination.store p.offset r.1, r.2⟩ := by
  unfold decryptEncrypted
  split
  · rfl
  · have hNone : size = 0 := by omega
    rw [hNone, List.take_zero]
    exact congrArg₂ (Progress.mk _) (Memory.store_nil _ _).symm rfl

/- The output grows by a clear range and an encrypted one, as the key stream goes on. -/
theorem run_eq (subSamples : List SubSample) {i : Nat} {p : Progress}
    (hAt : CounterMode.At kBlockSize (· + 1) cipher iv i p.counter)
    (hSource : p.offset + total subSamples ≤ source.length) :
    let q := run cipher source p subSamples
    q.offset = p.offset + total subSamples ∧
      ∃ output, q.destination = p.destination.store p.offset output ∧
        Decrypted cipher iv i subSamples (source.drop p.offset) output := by
  induction subSamples generalizing i p with
  | nil => exact ⟨rfl, [], (Memory.store_nil _ _).symm, rfl, rfl, rfl⟩
  | cons s rest ih =>
    rw [total] at hSource
    obtain ⟨clear, hClear⟩ :
      ∃ clear, clear = (source.drop p.offset).take s.mNumBytesOfClearData := ⟨_, rfl⟩
    obtain ⟨range, hRange⟩ :
      ∃ range, range =
        (source.drop (p.offset + s.mNumBytesOfClearData)).take s.mNumBytesOfEncryptedData :=
      ⟨_, rfl⟩
    have hClearLength : clear.length = s.mNumBytesOfClearData := by
      rw [hClear, List.length_take, List.length_drop]
      omega
    have hRangeLength : range.length = s.mNumBytesOfEncryptedData := by
      rw [hRange, List.length_take, List.length_drop]
      omega
    rcases @CounterMode.At.apply _ _ byteOf _ _ _ _ _ (by decide) hAt range with ⟨hUnder, hNext⟩
    rw [hRangeLength] at hNext
    rw [run, List.foldl_cons, copyClear_eq, decryptEncrypted_eq, ← run, ← hClear]
    dsimp only
    rw [← hRange, AES_ctr128_encrypt]
    obtain ⟨r, hr⟩ :
      ∃ r, r = CounterMode.apply kBlockSize byteOf (· + 1) cipher range p.counter := ⟨_, rfl⟩
    rw [← hr] at hUnder hNext ⊢
    have hOutput : r.1.length = s.mNumBytesOfEncryptedData := by
      rw [hUnder, CounterMode.under_length, hRangeLength]
    obtain ⟨offset, hEnd⟩ :
      ∃ offset, offset =
        p.offset + s.mNumBytesOfClearData + s.mNumBytesOfEncryptedData := ⟨_, rfl⟩
    rw [← hEnd]
    rcases ih
      (p := ⟨offset, (p.destination.store p.offset clear).store
        (p.offset + s.mNumBytesOfClearData) r.1, r.2⟩) hNext
      (by dsimp only; omega) with ⟨hOffset, output, hWritten, hRest⟩
    dsimp only at hOffset hWritten hRest
    refine ⟨by rw [hOffset, total]; omega, clear ++ r.1 ++ output, ?_, ?_, ?_, ?_⟩
    · rw [hWritten, ← hClearLength, Memory.store_append, hEnd, ← hClearLength, ← hOutput,
        Nat.add_assoc, ← List.length_append, Memory.store_append]
    · rw [List.length_append, List.length_append, hClearLength, hOutput, hRest.length, total]
    · rw [clearOf, clearOf, List.append_assoc, List.take_left' hClearLength, ← List.append_assoc,
        List.drop_left' (by rw [List.length_append, hClearLength, hOutput]), hRest.clear, hClear,
        List.drop_drop, hEnd, Nat.add_assoc]
    · rw [encryptedOf, encryptedOf, List.append_assoc, List.drop_left' hClearLength,
        List.take_left' hOutput, ← List.append_assoc,
        List.drop_left' (by rw [List.length_append, hClearLength, hOutput]), hRest.encrypted,
        hUnder, List.drop_drop, ← hRange, List.drop_drop, CounterMode.under_append, hRangeLength,
        hEnd, Nat.add_assoc]
      rfl

end AesCtrDecryptor

/- A key map meets it with a key of 16 bytes, or none. -/
theorem meets_iff_length (aes : Aes) (mKeyMap : KeyMap) (keyId : List Byte) (iv : Block)
    {source : List Byte} (destination : Memory) {subSamples : List SubSample}
    (hSource : source.length = total subSamples) :
    Meets aes mKeyMap keyId iv source destination subSamples ↔
      ∀ key, mKeyMap.lookup ⟨keyId⟩ = some key → key.length = kBlockSize := by
  unfold Meets Session.decrypt
  cases hLookup : mKeyMap.lookup ⟨keyId⟩ with
  | none => exact iff_of_true rfl (fun key hKey => by cases hKey)
  | some key =>
    dsimp only
    unfold AesCtrDecryptor.decrypt
    by_cases hShort : key.length < kBlockSize
    · rw [if_pos hShort]
      exact iff_of_false id (fun hAll => Nat.ne_of_lt hShort (hAll key rfl))
    · rw [if_neg hShort]
      constructor
      · rintro ⟨found, hFound, hLength, -⟩ other hOther
        rw [Option.some.inj (hOther.symm.trans hFound)]
        exact hLength
      · intro hAll
        have hLength := hAll key rfl
        rcases @AesCtrDecryptor.run_eq (aes key) iv source subSamples 0
          ⟨0, destination, ⟨iv, 0, 0⟩⟩ (CounterMode.At.start _ _ _ iv 0)
          (by rw [hSource, Nat.zero_add]) with ⟨hOffset, output, hWritten, hDecrypted⟩
        refine ⟨key, rfl, hLength, ?_, output, ?_, hDecrypted⟩
        · rw [List.take_of_length_le hLength.le, hOffset]
          exact Nat.zero_add _
        · rw [List.take_of_length_le hLength.le]
          exact hWritten

/- Bytes are their clear ranges and their encrypted ranges. -/
theorem eq_of_ranges (subSamples : List SubSample) {xs ys : List Byte}
    (hXs : xs.length = total subSamples) (hYs : ys.length = total subSamples)
    (hClear : clearOf subSamples xs = clearOf subSamples ys)
    (hEncrypted : encryptedOf subSamples xs = encryptedOf subSamples ys) : xs = ys := by
  induction subSamples generalizing xs ys with
  | nil => rw [List.length_eq_zero_iff.mp hXs, List.length_eq_zero_iff.mp hYs]
  | cons s rest ih =>
    rw [total] at hXs hYs
    rcases List.append_inj hClear (by simp; omega) with ⟨hFirst, hClearRest⟩
    rcases List.append_inj hEncrypted (by simp; omega) with ⟨hSecond, hEncryptedRest⟩
    have hRest := ih (by simp; omega) (by simp; omega) hClearRest hEncryptedRest
    rw [← List.drop_drop, ← List.drop_drop] at hRest
    rw [← List.take_append_drop s.mNumBytesOfClearData xs,
      ← List.take_append_drop s.mNumBytesOfClearData ys, hFirst]
    refine congrArg _ ?_
    rw [← List.take_append_drop s.mNumBytesOfEncryptedData (xs.drop _), hSecond, hRest,
      List.take_append_drop]

/- With a key of 16 bytes, what was decrypted is decrypted to its source. -/
theorem decrypt_twice (aes : Aes) {mKeyMap : KeyMap} {keyId key : List Byte} (iv : Block)
    {source : List Byte} (destination other : Memory) {subSamples : List SubSample}
    (hKey : mKeyMap.lookup ⟨keyId⟩ = some key) (hLength : key.length = kBlockSize)
    (hSource : source.length = total subSamples) :
    ∃ output,
      Session.decrypt aes mKeyMap keyId iv source destination subSamples =
          .ok (some (destination.store 0 output, source.length)) ∧
        Session.decrypt aes mKeyMap keyId iv output other subSamples =
          .ok (some (other.store 0 source, source.length)) := by
  have hOnce :
      ∀ {bytes : List Byte} (memory : Memory), bytes.length = total subSamples →
        ∃ output,
          Session.decrypt aes mKeyMap keyId iv bytes memory subSamples =
              .ok (some (memory.store 0 output, total subSamples)) ∧
            Decrypted (aes key) iv 0 subSamples bytes output := by
    intro bytes memory hBytes
    rcases @AesCtrDecryptor.run_eq (aes key) iv bytes subSamples 0 ⟨0, memory, ⟨iv, 0, 0⟩⟩
      (CounterMode.At.start _ _ _ iv 0) (by rw [hBytes, Nat.zero_add]) with
      ⟨hOffset, output, hWritten, hDecrypted⟩
    refine ⟨output, ?_, hDecrypted⟩
    rw [Session.decrypt, hKey]
    dsimp only
    rw [AesCtrDecryptor.decrypt, if_neg (Nat.not_lt.mpr hLength.ge),
      List.take_of_length_le hLength.le]
    dsimp only
    rw [hOffset, hWritten]
    exact congrArg (fun n => Except.ok (some (_, n))) (Nat.zero_add _)
  rcases hOnce destination hSource with ⟨output, hFirst, hThere⟩
  rcases hOnce other hThere.length with ⟨again, hSecond, hBack⟩
  have hSame : again = source := by
    refine eq_of_ranges subSamples hBack.length hSource (hBack.clear.trans hThere.clear) ?_
    rw [hBack.encrypted, hThere.encrypted, CounterMode.under_under]
  exact ⟨output, by rw [hFirst, hSource], by rw [hSecond, hSame, hSource]⟩

def singleKey : KeyMap := .add .empty ⟨[]⟩ (List.replicate 16 1)

theorem decrypt_twice_split :
    ∃ output,
      Session.decrypt (fun _ block => block) singleKey [] 0 (List.replicate 28 2) (fun _ => 0)
            [⟨3, 5⟩, ⟨0, 20⟩] =
          .ok (some (Memory.store (fun _ => 0) 0 output, 28)) ∧
        Session.decrypt (fun _ block => block) singleKey [] 0 output (fun _ => 1)
            [⟨3, 5⟩, ⟨0, 20⟩] =
          .ok (some (Memory.store (fun _ => 1) 0 (List.replicate 28 2), 28)) :=
  decrypt_twice (fun _ block => block) 0 (fun _ => 0) (fun _ => 1)
    (by rw [singleKey, KeyedVector.lookup_add, if_pos rfl]) rfl rfl

--
-- Responses
--

section Responses

variable (jsmn_parse : Jsmn) (malloc : Malloc) (aes : Aes)

/- The last key that was added for the key id decides, by the length of its text. -/
theorem decrypt_meets_iff {responses : List (List Byte)} {mKeyMap : KeyMap}
    (hRun : Run.exec (provide jsmn_parse malloc) .empty responses = some mKeyMap)
    (keyId : List Byte) (iv : Block) {source : List Byte} (destination : Memory)
    {subSamples : List SubSample} (hSource : source.length = total subSamples) :
    Meets aes mKeyMap keyId iv source destination subSamples ↔
      ∀ e, lastEntry jsmn_parse malloc responses keyId = some e → e.encodedKey.length = 22 := by
  rw [meets_iff_length aes mKeyMap keyId iv destination hSource,
    exec_lookup jsmn_parse malloc hRun keyId]
  constructor
  · intro hAll e hEntry
    rw [hEntry] at hAll
    exact (lastEntry_fits jsmn_parse malloc hEntry).mp (hAll _ rfl)
  · intro hAll key hKey
    rcases Option.map_eq_some_iff.mp hKey with ⟨e, hEntry, rfl⟩
    exact (lastEntry_fits jsmn_parse malloc hEntry).mpr (hAll e hEntry)

/- A license with one key, the tokens of its texts, and the key map after it. -/
def quoted (s : List Byte) : List Byte := 0x22 :: s ++ [0x22]

def keyObject (k : List Byte) : List Byte :=
  0x7b :: quoted kKeyIdTag ++ char ':' :: quoted (List.replicate 22 (char 'A')) ++
    char ',' :: quoted kKeyTag ++ char ':' :: quoted k ++ [0x7d]

def license (k : List Byte) : List Byte :=
  0x7b :: quoted kKeysTag ++ char ':' :: char '[' :: keyObject k ++ [char ']', 0x7d]

def licenseTokens (k json : List Byte) : Option (List Token) :=
  let keyTokens (start : Nat) : List Token :=
    [⟨.JSMN_OBJECT, start, start + 39 + k.length⟩, ⟨.JSMN_STRING, start + 2, start + 5⟩,
      ⟨.JSMN_STRING, start + 8, start + 30⟩, ⟨.JSMN_STRING, start + 33, start + 34⟩,
      ⟨.JSMN_STRING, start + 37, start + 37 + k.length⟩]
  if json = license k then
    some
      ([⟨.JSMN_OBJECT, 0, 50 + k.length⟩, ⟨.JSMN_STRING, 2, 6⟩,
        ⟨.JSMN_ARRAY, 8, 49 + k.length⟩] ++ keyTokens 9)
  else if json = keyObject k then some (keyTokens 0)
  else none

def zeroed : Malloc := fun n => some ⟨List.replicate n 0, List.length_replicate⟩

def licensed (k : List Byte) : Option KeyMap :=
  Run.exec (provide (licenseTokens k) zeroed) .empty [license k]

theorem licensed_whole : (licensed (List.replicate 22 (char 'B'))).isSome = true := by
  decide +kernel

/- A key of 22 characters, and subsamples that are split inside a block. -/
theorem decrypt_meets_licensed :
    Meets (fun _ block => block) ((licensed (List.replicate 22 (char 'B'))).get licensed_whole)
      (List.replicate 16 0) 0 (List.replicate 28 0) (fun _ => 0) [⟨3, 5⟩, ⟨0, 20⟩] := by
  refine
    (decrypt_meets_iff (licenseTokens (List.replicate 22 (char 'B'))) zeroed (fun _ block => block)
      (Option.some_get licensed_whole).symm (List.replicate 16 0) 0 (fun _ => 0) rfl).mpr ?_
  intro e hEntry
  have hText :
      (lastEntry (licenseTokens (List.replicate 22 (char 'B'))) zeroed
        [license (List.replicate 22 (char 'B'))] (List.replicate 16 0)).map
          (fun e => e.encodedKey.length) = some 22 := by
    decide +kernel
  rw [hEntry] at hText
  exact Option.some.inj hText

theorem licensed_short : (licensed (List.replicate 4 (char 'B'))).isSome = true := by
  decide +kernel

/- A key of four characters has three bytes, and 16 are read. -/
theorem not_meets_licensed :
    ¬Meets (fun _ block => block) ((licensed (List.replicate 4 (char 'B'))).get licensed_short)
      (List.replicate 16 0) 0 [0] (fun _ => 0) [⟨0, 1⟩] := by
  rw [meets_iff_length _ _ _ _ _ rfl]
  intro hAll
  have hKey :
      (((licensed (List.replicate 4 (char 'B'))).get licensed_short).lookup
        ⟨List.replicate 16 0⟩).map List.length = some 3 := by
    decide +kernel
  rcases Option.map_eq_some_iff.mp hKey with ⟨key, hLookup, hThree⟩
  have hLength := hAll key hLookup
  rw [hThree] at hLength
  cases hLength

end Responses

end ClearKey

end FrameworksAv
