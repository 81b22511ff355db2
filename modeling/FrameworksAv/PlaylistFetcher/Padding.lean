import FrameworksAv.PlaylistFetcher.Decrypt
import Mathlib.Data.Fintype.Basic

/-
  Which segments are decrypted, and which are refused.

  A segment that was encrypted with padding is decrypted, in whatever blocks it comes. The check of
  the padding looks at some bytes only, and an incomplete block ends the program.

  Main declarations:
    * `Padded`, `HexText`, `Ciphered`
    * `paddingLoop_eq`, `checkDecryptPadding_eq`
    * `downloadBlocks_whole`, `downloadBlocks_odd`
    * `segment_iff`
-/

--
-- Vectors
--

namespace FrameworksAv

namespace PlaylistFetcher

/- A digit in either case. -/
def HexDigit (c : Byte) (n : Nat) : Prop :=
  (c.toNat = 48 + n ∧ n < 10) ∨ (10 ≤ n ∧ n < 16 ∧ (c.toNat = 55 + n ∨ c.toNat = 87 + n))

/- `0x` and the digits of a vector. -/
def HexText (text : List Byte) (iv : Block) : Prop :=
  (text.take 2 = [0x30, 0x78] ∨ text.take 2 = [0x30, 0x58]) ∧ text.length = 34 ∧
    ∀ i : Fin 16,
      HexDigit (text.getD (2 + 2 * i) 0) ((iv i).toNat / 16) ∧
        HexDigit (text.getD (3 + 2 * i) 0) ((iv i).toNat % 16)

/- A digit is read as what it stands for. -/
theorem HexDigit.read {c : Byte} {n : Nat} (hDigit : HexDigit c n) :
    isxdigit (tolower c.toNat) ∧ nibble (tolower c.toNat) = n := by
  unfold isxdigit nibble tolower
  rcases hDigit with ⟨hc, hn⟩ | ⟨hTen, hn, hc | hc⟩
  · have hDecimal : isdigit (48 + n) := ⟨by omega, by omega⟩
    rw [hc, if_neg (by omega), if_pos hDecimal]
    exact ⟨.inl hDecimal, by omega⟩
  · have hLetter : ¬ isdigit (55 + n + 32) := by
      unfold isdigit
      omega
    rw [hc, if_pos (by omega), if_neg hLetter]
    exact ⟨.inr (.inr (by omega)), by omega⟩
  · have hLetter : ¬ isdigit (87 + n) := by
      unfold isdigit
      omega
    rw [hc, if_neg (by omega), if_neg hLetter]
    exact ⟨.inr (.inr (by omega)), by omega⟩

theorem parseIv_of_hexText {text : List Byte} {iv : Block} (hText : HexText text iv) :
    parseIv text = some iv := by
  rcases hText with ⟨hPrefix, hLength, hDigits⟩
  unfold parseIv
  rw [if_neg, if_pos]
  · congr 1
    funext i
    rcases hDigits i with ⟨hHigh, hLow⟩
    unfold ivChar
    rw [hHigh.read.2, hLow.read.2,
      ← Nat.shiftLeft_add_eq_or_of_lt (Nat.mod_lt _ (by omega)), Nat.shiftLeft_eq]
    apply BitVec.eq_of_toNat_eq
    have hByte := (iv i).isLt
    rw [BitVec.toNat_ofNat]
    omega
  · intro i
    exact ⟨(hDigits i).1.read.1, (hDigits i).2.read.1⟩
  · rintro (⟨hLower, hUpper⟩ | hOther)
    · rcases hPrefix with hPrefix | hPrefix
      · exact hLower hPrefix
      · exact hUpper hPrefix
    · exact hOther hLength

--
-- Padding
--

/- The last byte says how often it stands at the end. -/
def Padded (data : List Byte) : Prop :=
  ∃ text n, 1 ≤ n ∧ n ≤ 16 ∧ data = text ++ List.replicate n (BitVec.ofNat 8 n)

/- What the loop of the check looks at. -/
def Mismatch (data : List Byte) : Prop :=
  ∃ i,
    data.length - (data.getLastD 0).toNat ≤ i ∧ i < (data.getLastD 0).toNat ∧
      data.getD i 0 ≠ data.getLastD 0

/- A padding that is too long, or is seen not to be one. -/
def Refused (data : List Byte) : Prop :=
  16 < (data.getLastD 0).toNat ∨ Mismatch data

variable {data text : List Byte}

theorem paddingLoop_eq (data : List Byte) (padding : Byte) {n i : Nat}
    (hInside : i + n ≤ data.length) :
    ∃ same,
      paddingLoop data padding n i = .returns same ∧
        (same = true ↔ ∀ j, i ≤ j → j < i + n → data.getD j 0 = padding) := by
  induction n generalizing i with
  | zero => exact ⟨true, rfl, fun _ j _ _ => by omega, fun _ => rfl⟩
  | succ n ih =>
    have hSome : data[i]? = some (data.getD i 0) := by
      have hLess : i < data.length := by omega
      rw [List.getElem?_eq_getElem hLess, List.getD_eq_getElem _ _ hLess]
    rw [paddingLoop, hSome, Result.ofOption, Result.bind_returns]
    by_cases hByte : data.getD i 0 = padding
    · rw [if_neg (not_not.mpr hByte)]
      rcases ih (i := i + 1) (by omega) with ⟨same, hLoop, hSame⟩
      refine ⟨same, hLoop, hSame.trans ?_⟩
      constructor
      · intro hRest j hFrom hTo
        rcases Nat.eq_or_lt_of_le hFrom with rfl | hLater
        · exact hByte
        · exact hRest j hLater (by omega)
      · intro hAll j hFrom hTo
        exact hAll j (by omega) (by omega)
    · rw [if_pos hByte]
      refine ⟨false, rfl, nofun, ?_⟩
      intro hAll
      exact absurd (hAll i (Nat.le_refl i) (by omega)) hByte

/- The check of whole blocks stays inside of them. -/
theorem checkDecryptPadding_eq {method : String} (hMethod : method ≠ "NONE")
    (hWhole : data.length % 16 = 0) :
    (Refused data → checkDecryptPadding method data = .returns (.ERROR_MALFORMED, data.length)) ∧
      (¬ Refused data →
        checkDecryptPadding method data =
          .returns (.OK, data.length - (data.getLastD 0).toNat)) := by
  unfold checkDecryptPadding
  rw [if_neg hMethod]
  by_cases hLong : 16 < (data.getLastD 0).toNat
  · exact ⟨fun _ => if_pos hLong, fun hNot => absurd (Or.inl hLong) hNot⟩
  · have hLe : (data.getLastD 0).toNat ≤ data.length := by
      cases data with
      | nil => exact Nat.le_refl _
      | cons byte data =>
        have hPos : 0 < (byte :: data).length := Nat.succ_pos _
        omega
    simp only [if_neg hLong, sizeSub_of_le hLe]
    have hInside :
        data.length - (data.getLastD 0).toNat +
            ((data.getLastD 0).toNat - (data.length - (data.getLastD 0).toNat)) ≤
          data.length := by omega
    rcases paddingLoop_eq data (data.getLastD 0) hInside with ⟨same, hLoop, hSame⟩
    rw [hLoop]
    dsimp only [Result.bind_returns]
    have hRefused : Refused data ↔ same = false := by
      rw [← Bool.not_eq_true, hSame]
      unfold Refused Mismatch
      constructor
      · rintro (hTooLong | ⟨i, hFrom, hTo, hByte⟩) hAll
        · exact hLong hTooLong
        · exact hByte (hAll i hFrom (by omega))
      · intro hNot
        right
        push Not at hNot
        rcases hNot with ⟨i, hFrom, hTo, hByte⟩
        exact ⟨i, hFrom, by omega, hByte⟩
    cases same with
    | true =>
      refine ⟨fun hYes => absurd (hRefused.mp hYes) nofun, ?_⟩
      intro _
      rw [if_pos rfl, Result.check, if_pos hLe]
    | false => exact ⟨fun _ => if_neg nofun, fun hNot => absurd (hRefused.mpr rfl) hNot⟩

/- A padding is not refused, and is what is taken away. -/
theorem padded_accepted {n : Nat} (hOne : 1 ≤ n) (hSixteen : n ≤ 16)
    (hData : data = text ++ List.replicate n (BitVec.ofNat 8 n)) :
    (data.getLastD 0).toNat = n ∧ ¬ Refused data := by
  have hLast : data.getLastD 0 = BitVec.ofNat 8 n := by
    rcases Nat.exists_eq_add_of_le hOne with ⟨m, rfl⟩
    rw [hData, Nat.add_comm 1 m, List.replicate_succ', ← List.append_assoc, List.getLastD_concat]
  have hNumber : (data.getLastD 0).toNat = n := by
    rw [hLast, BitVec.toNat_ofNat]
    omega
  refine ⟨hNumber, ?_⟩
  rintro (hLong | ⟨i, hFrom, hTo, hByte⟩)
  · omega
  · rw [hNumber] at hFrom hTo
    apply hByte
    have hLength : data.length = text.length + n := by
      rw [hData, List.length_append, List.length_replicate]
    rw [hLast, hData, List.getD_append_right _ _ _ _ (by omega),
      List.getD_eq_getElem _ _ (by rw [List.length_replicate]; omega), List.getElem_replicate]

end PlaylistFetcher

--
-- Segments
--

namespace PlaylistFetcher

/- The key of a URI, known or to be fetched. -/
def KeyOf (fetchFile : String → Fetched) (s : Fetcher) (keyURI : String) (key : List Byte) : Prop :=
  key.length = 16 ∧
    (s.mAESKeyForURI.lookup keyURI = some key ∨
      s.mAESKeyForURI.lookup keyURI = none ∧ fetchFile keyURI = .file key)

/- The vector is in the playlist, or comes from the number. -/
def VectorOf (itemMeta : ItemMeta) (mSeqNumber : Int) (iv : Block) : Prop :=
  (∃ text,
    itemMeta.cipherIv = some text ∧ HexText text iv) ∨
      itemMeta.cipherIv = none ∧ iv = seqNumberIv mSeqNumber

theorem initVec_of {itemMeta : ItemMeta} {mSeqNumber : Int} {iv : Block}
    (hVector : VectorOf itemMeta mSeqNumber iv) : initVec itemMeta mSeqNumber = some iv := by
  unfold initVec
  rcases hVector with ⟨text, hText, hHex⟩ | ⟨hNone, rfl⟩
  · rw [hText]
    exact parseIv_of_hexText hHex
  · rw [hNone]

theorem fetchKey_of {fetchFile : String → Fetched} {s : Fetcher} {keyURI : String} {key : List Byte}
    (hKey : KeyOf fetchFile s keyURI key) :
    ∃ next,
      fetchKey fetchFile s keyURI = .ok (key, next) ∧ KeyOf fetchFile next keyURI key ∧
        next.mAESInitVec = s.mAESInitVec := by
  rcases hKey with ⟨hLength, hKnown | ⟨hUnknown, hFile⟩⟩
  · refine ⟨s, ?_, ⟨hLength, .inl hKnown⟩, rfl⟩
    unfold fetchKey
    rw [hKnown]
  · refine
      ⟨{ s with
          mAESKeyForURI := s.mAESKeyForURI.add keyURI key },
        ?_, ⟨hLength, .inl ?_⟩, rfl⟩
    · unfold fetchKey
      rw [hUnknown, hFile]
      exact if_neg (not_not.mpr hLength)
    · rw [KeyedVector.lookup_add, if_pos rfl]

section Segment

variable {decryptBlock encryptBlock : List Byte → Block → Block} {fetchFile : String → Fetched}
variable {mPlaylist : List ItemMeta} {mSeqNumber : Int} {playlistIndex : Nat} {s : Fetcher}
variable {keyURI : String} {key : List Byte} {iv : Block} {method : Option String}

/- The bytes that a vector and encrypted bytes come to. -/
def plain (decryptBlock : List Byte → Block → Block)
    (key : List Byte) (iv : Block) (bytes : List Byte) : List Byte :=
  bytesOf (Cbc.decrypt Block.xor (decryptBlock key) iv (blocksOf 16 bytes))

/- The encryption of a text with its padding. -/
def encrypted (encryptBlock : List Byte → Block → Block)
    (key : List Byte) (iv : Block) (text : List Byte) : List Byte :=
  let n := 16 - text.length % 16
  bytesOf
    (Cbc.encrypt Block.xor (encryptBlock key) iv
      (blocksOf 16 (text ++ List.replicate n (BitVec.ofNat 8 n))))

/- A segment with the AES-128 cipher. -/
structure Ciphered (fetchFile : String → Fetched) (mPlaylist : List ItemMeta) (mSeqNumber : Int)
    (playlistIndex : Nat) (s : Fetcher) (keyURI : String)
    (key : List Byte) (iv : Block) : Prop where
  item :
    ∃ itemMeta,
      findMethod mPlaylist playlistIndex = .returns (some ("AES-128", itemMeta)) ∧
        itemMeta.cipherUri = some keyURI ∧ VectorOf itemMeta mSeqNumber iv
  key : KeyOf fetchFile s keyURI key

@[simp] theorem Block.xor_xor (a b : Block) : (a.xor b).xor b = a := by
  funext i
  show a i ^^^ b i ^^^ b i = a i
  rw [BitVec.xor_assoc, BitVec.xor_self, BitVec.xor_zero]

@[simp] theorem plain_nil : plain decryptBlock key iv [] = [] :=
  rfl

theorem plain_length {bytes : List Byte} (hWhole : bytes.length % 16 = 0) :
    (plain decryptBlock key iv bytes).length = bytes.length := by
  unfold plain
  rw [bytesOf_length, Cbc.decrypt_length, blocksOf, blocksFrom_length]
  omega

theorem plain_append {front : List Byte} (hFront : front.length % 16 = 0) (rest : List Byte) :
    plain decryptBlock key iv (front ++ rest) =
      plain decryptBlock key iv front ++
        plain decryptBlock key ((blocksOf 16 front).getLastD iv) rest := by
  unfold plain
  rw [blocksOf_append (by omega) hFront, Cbc.decrypt_append, bytesOf_append]

/- What was encrypted is the text with its padding. -/
theorem plain_encrypted (hInverse : ∀ key block, decryptBlock key (encryptBlock key block) = block)
    (text : List Byte) :
    (encrypted encryptBlock key iv text).length % 16 = 0 ∧
      ∃ n,
        1 ≤ n ∧ n ≤ 16 ∧
          plain decryptBlock key iv (encrypted encryptBlock key iv text) =
            text ++ List.replicate n (BitVec.ofNat 8 n) := by
  have hWhole :
      (text ++
          List.replicate (16 - text.length % 16) (BitVec.ofNat 8 (16 - text.length % 16))).length %
        16 = 0 := by
    rw [List.length_append, List.length_replicate]
    omega
  constructor
  · unfold encrypted
    dsimp only
    rw [bytesOf_length]
    omega
  · refine ⟨16 - text.length % 16, by omega, by omega, ?_⟩
    unfold plain encrypted
    dsimp only
    rw [blocksOf_bytesOf (by omega), Cbc.decrypt_encrypt (hInverse key) Block.xor_xor,
      bytesOf_blocksOf hWhole]

/- One block that is whole. -/
theorem decryptBuffer_whole
    (hCipher : Ciphered fetchFile mPlaylist mSeqNumber playlistIndex s keyURI key iv)
    {block : List Byte} (hWhole : block.length % 16 = 0) (first : Bool) :
    ∃ next,
      decryptBuffer decryptBlock fetchFile mPlaylist mSeqNumber playlistIndex s block first =
        .returns
          (.ok
            (next, plain decryptBlock key (if first then iv else s.mAESInitVec) block, "AES-128")) ∧
        Ciphered fetchFile mPlaylist mSeqNumber playlistIndex
          next keyURI key iv ∧
        next.mAESInitVec = if block.length = 0 then s.mAESInitVec
          else (blocksOf 16 block).getLastD (if first then iv else s.mAESInitVec) := by
  rcases hCipher with ⟨⟨itemMeta, hFound, hUri, hVector⟩, hKey⟩
  rcases fetchKey_of hKey with ⟨next, hFetch, hNext, hVec⟩
  unfold decryptBuffer
  rw [hFound, Result.bind_returns]
  dsimp only
  rw [if_neg (by decide), if_neg (by decide), hUri]
  dsimp only
  rw [hFetch]
  dsimp only
  by_cases hEmpty : block.length = 0
  · rw [if_pos hEmpty, if_pos hEmpty]
    have hNil := List.length_eq_zero_iff.mp hEmpty
    rw [hNil, plain_nil]
    exact ⟨next, rfl, ⟨⟨itemMeta, hFound, hUri, hVector⟩, hNext⟩, hVec⟩
  · rw [if_neg hEmpty, if_neg hEmpty, Result.check, if_pos hWhole]
    have hStart :
        (if first then initVec itemMeta mSeqNumber else some next.mAESInitVec) =
          some (if first then iv else s.mAESInitVec) := by
      rw [hVec]
      cases first with
      | true => exact initVec_of hVector
      | false => rfl
    rw [hStart]
    exact ⟨{ next with
        mAESInitVec := (blocksOf 16 block).getLastD (if first then iv else s.mAESInitVec) },
      rfl, ⟨⟨itemMeta, hFound, hUri, hVector⟩, hNext⟩, rfl⟩

/- Whole blocks are decrypted as if they were one. -/
theorem downloadBlocks_whole
    (hCipher : Ciphered fetchFile mPlaylist mSeqNumber playlistIndex s keyURI key iv)
    (data : List Byte) {blocks : List (List Byte)}
    (hWhole : ∀ block ∈ blocks, block.length % 16 = 0)
    (hMethod : method = some "AES-128" ∨ blocks ≠ []) :
    downloadBlocks decryptBlock fetchFile mPlaylist mSeqNumber playlistIndex s data method blocks =
      (checkDecryptPadding "AES-128"
          (data ++
            plain decryptBlock key (if data.length = 0 then iv else s.mAESInitVec)
              blocks.flatten)).bind
        fun (status, length) =>
          .returns
            (status,
              (data ++
                plain decryptBlock key
                  (if data.length = 0 then iv else s.mAESInitVec) blocks.flatten).take length) := by
  induction blocks generalizing s data method with
  | nil =>
    rcases hMethod with rfl | hSome
    · rw [List.flatten_nil, plain_nil, List.append_nil]
      exact rfl
    · exact absurd rfl hSome
  | cons block blocks ih =>
    have hBlock := hWhole block List.mem_cons_self
    have hRest : ∀ block ∈ blocks, block.length % 16 = 0 := fun other hMember =>
        hWhole other (List.mem_cons_of_mem _ hMember)
    rcases @decryptBuffer_whole decryptBlock _ _ _ _ _ _ _ _
        hCipher block hBlock (decide (data.length = 0)) with
      ⟨next, hDecrypt, hNext, hVec⟩
    rw [downloadBlocks, hDecrypt, Result.bind_returns]
    dsimp only
    rw [ih hNext _ hRest (.inl rfl), List.flatten_cons, plain_append hBlock, List.append_assoc]
    have hStart :
        (if decide (data.length = 0) = true then iv else s.mAESInitVec) =
          if data.length = 0 then iv else s.mAESInitVec := by
      simp only [decide_eq_true_eq]
    -- the vector for what comes behind the block
    have hLater :
        (if (data ++
              plain decryptBlock key
                (if data.length = 0 then iv else s.mAESInitVec) block).length = 0 then iv
          else next.mAESInitVec) =
          (blocksOf 16 block).getLastD (if data.length = 0 then iv else s.mAESInitVec) := by
      rw [List.length_append, plain_length hBlock, hVec, hStart]
      by_cases hEmpty : block.length = 0
      · rw [List.length_eq_zero_iff.mp hEmpty]
        exact rfl
      · rw [if_neg (by omega), if_neg hEmpty]
    rw [hStart, hLater]

/- An incomplete block ends the program. -/
theorem downloadBlocks_odd
    (hCipher : Ciphered fetchFile mPlaylist mSeqNumber playlistIndex s keyURI key iv)
    (data : List Byte) {blocks : List (List Byte)}
    (hOdd : ∃ block ∈ blocks, block.length % 16 ≠ 0) :
    downloadBlocks decryptBlock fetchFile mPlaylist mSeqNumber
        playlistIndex s data method blocks = .aborts := by
  induction blocks generalizing s data method with
  | nil =>
    rcases hOdd with ⟨block, hMember, -⟩
    exact absurd hMember List.not_mem_nil
  | cons block blocks ih =>
    by_cases hBlock : block.length % 16 = 0
    · rcases @decryptBuffer_whole decryptBlock _ _ _ _ _ _ _ _
          hCipher block hBlock (decide (data.length = 0)) with
        ⟨next, hDecrypt, hNext, -⟩
      rw [downloadBlocks, hDecrypt, Result.bind_returns]
      dsimp only
      apply ih hNext
      rcases hOdd with ⟨other, hMember, hOther⟩
      rcases List.mem_cons.mp hMember with rfl | hLater
      · exact absurd hBlock hOther
      · exact ⟨other, hLater, hOther⟩
    · rcases hCipher with ⟨⟨itemMeta, hFound, hUri, hVector⟩, hKey⟩
      rcases fetchKey_of hKey with ⟨next, hFetch, -⟩
      have hSome : ¬ block.length = 0 := by omega
      rw [downloadBlocks, decryptBuffer, hFound, Result.bind_returns]
      dsimp only
      rw [if_neg (by decide), if_neg (by decide), hUri]
      dsimp only
      rw [hFetch]
      dsimp only
      rw [if_neg hSome, Result.check, if_neg hBlock]
      exact rfl

end Segment

--
-- Acceptance
--

section Segment

variable {decryptBlock encryptBlock : List Byte → Block → Block} {fetchFile : String → Fetched}
variable {mPlaylist : List ItemMeta} {mSeqNumber : Int} {playlistIndex : Nat} {s : Fetcher}
variable {keyURI : String} {key : List Byte} {iv : Block} {blocks : List (List Byte)}

/- Whole bytes that end with a padding when decrypted. -/
def Wellformed (decryptBlock : List Byte → Block → Block)
    (key : List Byte) (iv : Block) (bytes : List Byte) : Prop :=
  bytes.length % 16 = 0 ∧ Padded (plain decryptBlock key iv bytes)

/-
  An encrypted text in whole blocks comes out, and everything else is an error that leaves the range
  as it is.
-/
def Meets (decryptBlock encryptBlock : List Byte → Block → Block)
    (fetchFile : String → Fetched) (mPlaylist : List ItemMeta)
    (mSeqNumber : Int) (playlistIndex : Nat) (s : Fetcher) (key : List Byte) (iv : Block)
    (blocks : List (List Byte)) : Prop :=
  (∀ text, (∀ block ∈ blocks, block.length % 16 = 0) →
    blocks.flatten = encrypted encryptBlock key iv text →
    downloadSegment decryptBlock fetchFile mPlaylist mSeqNumber
        playlistIndex s blocks = .returns (.OK, text)) ∧
    (¬ Wellformed decryptBlock key iv blocks.flatten →
      ∃ status data,
        downloadSegment decryptBlock fetchFile mPlaylist mSeqNumber playlistIndex s blocks =
          .returns (status, data) ∧ status ≠ .OK ∧ data.length = blocks.flatten.length)

theorem flatten_whole (hWhole : ∀ block ∈ blocks, block.length % 16 = 0) :
    blocks.flatten.length % 16 = 0 := by
  induction blocks with
  | nil => rfl
  | cons block blocks ih =>
    have hBlock := hWhole block List.mem_cons_self
    have hRest :=
      ih (fun other hMember =>
        hWhole other (List.mem_cons_of_mem _ hMember))
    rw [List.flatten_cons, List.length_append]
    omega

/- A segment in whole blocks, by what the check says. -/
theorem downloadSegment_whole
    (hCipher : Ciphered fetchFile mPlaylist mSeqNumber playlistIndex s keyURI key iv)
    (hSome : blocks ≠ []) (hWhole : ∀ block ∈ blocks, block.length % 16 = 0) :
    (Refused (plain decryptBlock key iv blocks.flatten) →
      downloadSegment decryptBlock fetchFile mPlaylist mSeqNumber playlistIndex s blocks =
        .returns (.ERROR_MALFORMED, plain decryptBlock key iv blocks.flatten)) ∧
      (¬ Refused (plain decryptBlock key iv blocks.flatten) →
        downloadSegment decryptBlock fetchFile mPlaylist mSeqNumber playlistIndex s blocks =
          .returns
            (.OK,
              (plain decryptBlock key iv blocks.flatten).take
                ((plain decryptBlock key iv blocks.flatten).length -
                  ((plain decryptBlock key iv blocks.flatten).getLastD 0).toNat))) := by
  have hRun :=
    @downloadBlocks_whole decryptBlock _ _ _ _ _ _ _ _ none hCipher [] blocks hWhole (.inr hSome)
  rw [List.nil_append, List.length_nil, if_pos rfl] at hRun
  have hLength : (plain decryptBlock key iv blocks.flatten).length % 16 = 0 := by
    rw [plain_length (flatten_whole hWhole)]
    exact flatten_whole hWhole
  have hMethod : "AES-128" ≠ "NONE" := by decide
  rcases checkDecryptPadding_eq hMethod hLength with ⟨hRefused, hAccepted⟩
  unfold downloadSegment
  rw [hRun]
  constructor
  · intro hYes
    rw [hRefused hYes]
    dsimp only [Result.bind_returns]
    rw [List.take_length]
  · intro hNo
    rw [hAccepted hNo]
    exact rfl

theorem segment_iff (hInverse : ∀ key block, decryptBlock key (encryptBlock key block) = block)
    (hCipher : Ciphered fetchFile mPlaylist mSeqNumber playlistIndex s keyURI key iv) :
    Meets decryptBlock encryptBlock fetchFile mPlaylist mSeqNumber playlistIndex s key iv blocks ↔
      Wellformed decryptBlock key iv blocks.flatten ∨
        (∀ block ∈ blocks, block.length % 16 = 0) ∧
          Refused (plain decryptBlock key iv blocks.flatten) := by
  constructor
  · rintro ⟨-, hOther⟩
    by_cases hWell : Wellformed decryptBlock key iv blocks.flatten
    · exact .inl hWell
    · rcases hOther hWell with ⟨status, data, hRun, hError, -⟩
      right
      by_cases hWhole : ∀ block ∈ blocks, block.length % 16 = 0
      · refine ⟨hWhole, ?_⟩
        by_contra hNot
        cases blocks with
        | nil => cases hRun
        | cons block blocks =>
          rw [(downloadSegment_whole hCipher (List.cons_ne_nil _ _) hWhole).2 hNot] at hRun
          cases hRun
          exact hError rfl
      · push Not at hWhole
        unfold downloadSegment at hRun
        rw [downloadBlocks_odd hCipher [] hWhole] at hRun
        cases hRun
  · intro hCase
    constructor
    · intro text hWhole hText
      rcases @plain_encrypted decryptBlock encryptBlock key iv hInverse text with
        ⟨-, n, hOne, hSixteen, hPlain⟩
      rw [← hText] at hPlain
      rcases padded_accepted hOne hSixteen hPlain with ⟨hLast, hAccepted⟩
      have hSome : blocks ≠ [] := by
        rintro rfl
        have hNone := congrArg List.length hPlain
        rw [List.flatten_nil, plain_nil, List.length_append,
          List.length_replicate, List.length_nil] at hNone
        omega
      rw [(downloadSegment_whole hCipher hSome hWhole).2
        hAccepted, hLast, hPlain, List.length_append, List.length_replicate, Nat.add_sub_cancel,
        List.take_left]
    · intro hNot
      rcases hCase with hWell | ⟨hWhole, hRefused⟩
      · exact absurd hWell hNot
      · have hSome : blocks ≠ [] := by
          rintro rfl
          rcases hRefused with hLong | ⟨i, -, hTo, -⟩
          · cases hLong
          · cases hTo
        refine ⟨.ERROR_MALFORMED, _,
          (downloadSegment_whole hCipher hSome hWhole).1 hRefused, nofun, ?_⟩
        exact plain_length (flatten_whole hWhole)

end Segment

/- Two blocks of AES-128 with a key: one is the encryption of the other. -/
def sampleKey : List Byte :=
  [0x00, 0x01, 0x02, 0x03, 0x04, 0x05, 0x06, 0x07, 0x08, 0x09, 0x0A, 0x0B, 0x0C, 0x0D, 0x0E, 0x0F]

def samplePlain : List Byte :=
  [0x00, 0x11, 0x22, 0x33, 0x44, 0x55, 0x66, 0x77, 0x88, 0x99, 0xAA, 0xBB, 0xCC, 0xDD, 0xEE, 0xFF]

def sampleEncrypted : List Byte :=
  [0x69, 0xC4, 0xE0, 0xD8, 0x6A, 0x7B, 0x04, 0x30, 0xD8, 0xCD, 0xB7, 0x80, 0x70, 0xB4, 0xC5, 0x5A]

def sampleBlock (bytes : List Byte) : Block :=
  fun i => bytes.getD i 0

/- A cipher that is right for these two blocks. -/
def sampleCipher (_ : List Byte) (block : Block) : Block :=
  if block = sampleBlock samplePlain then sampleBlock sampleEncrypted
  else if block = sampleBlock sampleEncrypted then sampleBlock samplePlain
  else block

theorem sampleCipher_inverse (key : List Byte) (block : Block) :
    sampleCipher key (sampleCipher key block) = block := by
  have hDiffer : sampleBlock sampleEncrypted ≠ sampleBlock samplePlain := by
    intro hSame
    exact absurd (congrFun hSame 0) (by decide)
  unfold sampleCipher
  by_cases hPlain : block = sampleBlock samplePlain
  · rw [if_pos hPlain, if_neg hDiffer, if_pos rfl, hPlain]
  · rw [if_neg hPlain]
    by_cases hEncrypted : block = sampleBlock sampleEncrypted
    · rw [if_pos hEncrypted, if_pos rfl, hEncrypted]
    · rw [if_neg hEncrypted, if_neg hPlain, if_neg hEncrypted]

/- A playlist of one item, whose key is to be fetched. -/
def samplePlaylist (cipherIv : List Byte) : List ItemMeta :=
  [⟨some "AES-128", some "http://key", some cipherIv⟩]

def sampleFetcher : Fetcher := ⟨.empty, fun _ => 0⟩

def sampleFetch (_ : String) : Fetched := .file sampleKey

theorem sample_ciphered {text : List Byte} {iv : Block} (hText : HexText text iv) :
    Ciphered sampleFetch (samplePlaylist text) 0 0 sampleFetcher "http://key" sampleKey iv where
  item := ⟨_, rfl, rfl, .inl ⟨text, rfl, hText⟩⟩
  key := ⟨rfl, .inr ⟨rfl, rfl⟩⟩

/- The vector that makes the block a padding alone. -/
def paddingText : List Byte :=
  [0x30, 0x78, 0x31, 0x30, 0x30, 0x31, 0x33, 0x32, 0x32, 0x33,
    0x35, 0x34, 0x34, 0x35, 0x37, 0x36, 0x36, 0x37, 0x39, 0x38, 0x38, 0x39, 0x62, 0x61, 0x61, 0x62,
    0x64, 0x63, 0x63, 0x64, 0x66, 0x65, 0x65, 0x66]

def paddingIv : Block :=
  sampleBlock
    [0x10, 0x01, 0x32, 0x23, 0x54, 0x45, 0x76, 0x67, 0x98, 0x89, 0xBA, 0xAB, 0xDC, 0xCD, 0xFE, 0xEF]

/- The vector that makes the block zero. -/
def zeroText : List Byte :=
  [0x30, 0x78, 0x30, 0x30, 0x31, 0x31, 0x32, 0x32, 0x33, 0x33,
    0x34, 0x34, 0x35, 0x35, 0x36, 0x36, 0x37, 0x37, 0x38, 0x38, 0x39, 0x39, 0x41, 0x41, 0x42, 0x42,
    0x43, 0x43, 0x44, 0x44, 0x45, 0x45, 0x46, 0x46]

theorem padding_hexText : HexText paddingText paddingIv := by
  unfold HexText HexDigit
  decide

theorem zero_hexText : HexText zeroText (sampleBlock samplePlain) := by
  unfold HexText HexDigit
  decide

theorem segment_padding :
    Meets sampleCipher sampleCipher sampleFetch
      (samplePlaylist paddingText) 0 0 sampleFetcher sampleKey paddingIv [sampleEncrypted] := by
  apply (segment_iff sampleCipher_inverse (sample_ciphered padding_hexText)).mpr
  left
  exact ⟨rfl, [], 16, by decide, by decide, by decide⟩

/- A byte of zero at the end is taken for a padding. -/
theorem segment_zero :
    ¬ Meets sampleCipher sampleCipher sampleFetch
      (samplePlaylist zeroText) 0 0 sampleFetcher sampleKey
      (sampleBlock samplePlain) [sampleEncrypted] := by
  have hPlain :
      plain sampleCipher sampleKey (sampleBlock samplePlain) [sampleEncrypted].flatten =
        List.replicate 16 0 := by decide
  have hNot :
      ¬ Wellformed sampleCipher sampleKey (sampleBlock samplePlain) [sampleEncrypted].flatten := by
    rintro ⟨-, text, n, hOne, hSixteen, hData⟩
    rw [hPlain] at hData
    have hLast := congrArg (fun x => (x.getLastD 0).toNat) hData
    rw [(padded_accepted hOne hSixteen rfl).1] at hLast
    have hZero : n = 0 := hLast.symm
    omega
  have hAccepted :
      ¬ Refused
        (plain sampleCipher sampleKey (sampleBlock samplePlain) [sampleEncrypted].flatten) := by
    rw [hPlain]
    rintro (hLong | ⟨i, -, hTo, -⟩)
    · cases hLong
    · cases hTo
  rintro ⟨-, hOther⟩
  rcases hOther hNot with ⟨status, data, hRun, hError, -⟩
  rw [(downloadSegment_whole (sample_ciphered zero_hexText)
    (List.cons_ne_nil _ _) (by decide)).2 hAccepted] at hRun
  cases hRun
  exact hError rfl

end PlaylistFetcher

end FrameworksAv
