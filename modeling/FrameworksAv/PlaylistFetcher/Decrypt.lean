import FrameworksAv.Base.Buffer
import FrameworksAv.Base.Cbc
import FrameworksAv.Base.Fuel
import FrameworksAv.Base.KeyedVector
import Mathlib.Data.String.Basic

/-
  How `PlaylistFetcher` decrypts a segment.

  A segment is downloaded in blocks. Each block is decrypted in its place, with the end of the block
  before it for the chaining; the padding is checked when all blocks are there. The AES cipher of a
  block is a parameter.

  Main declarations:
    * `ItemMeta`, `Fetcher`
    * `decryptBuffer`, `checkDecryptPadding`
    * `downloadSegment`
-/

--
-- Ciphers
--

namespace FrameworksAv

namespace PlaylistFetcher

inductive Status
| OK
| ERROR_UNSUPPORTED
| ERROR_MALFORMED
| ERROR_NOT_CONNECTED
| IOError     -- `ERROR_IO`
deriving DecidableEq, Repr

abbrev Block : Type := Fin 16 → Byte

def Block.xor (a b : Block) : Block :=
  fun i => a i ^^^ b i

/- What an item of the playlist says of its cipher. -/
structure ItemMeta where
  cipherMethod : Option String
  cipherUri : Option String
  cipherIv : Option (List Byte)

/- What `fetchFile` comes to. -/
inductive Fetched
| notConnected
| failed
| file (bytes : List Byte)

structure Fetcher where
  mAESKeyForURI : KeyedVector String (List Byte)
  mAESInitVec : Block

/- The cipher of the item, or of the closest one in front of it that has one. -/
def findMethod (mPlaylist : List ItemMeta) : Nat → Result (Option (String × ItemMeta))
| 0 =>
  (Result.ofOption mPlaylist[0]?).bind fun itemMeta =>
    .returns
      (itemMeta.cipherMethod.map fun method =>
        (method, itemMeta))
| i + 1 =>
  (Result.ofOption mPlaylist[i + 1]?).bind fun itemMeta =>
    match itemMeta.cipherMethod with
    | some method => .returns (some (method, itemMeta))
    | none => findMethod mPlaylist i

/- The key of a URI, which is fetched once. -/
def fetchKey (fetchFile : String → Fetched) (s : Fetcher)
    (keyURI : String) : Except Status (List Byte × Fetcher) :=
  match s.mAESKeyForURI.lookup keyURI with
  | some key => .ok (key, s)
  | none =>
    match fetchFile keyURI with
    | .notConnected => .error .ERROR_NOT_CONNECTED
    | .failed => .error .IOError
    | .file key =>
      if key.length ≠ 16 then .error .ERROR_MALFORMED
      else
        .ok
          (key,
            { s with
              mAESKeyForURI := s.mAESKeyForURI.add keyURI key })

/- `tolower`, `isdigit` and `isxdigit` of a character. -/
def tolower (c : Nat) : Nat :=
  if 65 ≤ c ∧ c ≤ 90 then c + 32 else c

def isdigit (c : Nat) : Prop := 48 ≤ c ∧ c ≤ 57

instance (c : Nat) : Decidable (isdigit c) := by
  unfold isdigit
  infer_instance

def isxdigit (c : Nat) : Prop :=
  isdigit c ∨ (65 ≤ c ∧ c ≤ 70) ∨ 97 ≤ c ∧ c ≤ 102

instance (c : Nat) : Decidable (isxdigit c) := by
  unfold isxdigit
  infer_instance

def nibble (c : Nat) : Nat :=
  if isdigit c then c - 48 else c - 97 + 10

/- A character of the text, in lower case. -/
def ivChar (iv : List Byte) (i : Nat) : Nat :=
  tolower (iv.getD i 0).toNat

/- The vector that a text stands for. -/
def parseIv (iv : List Byte) : Option Block :=
  if iv.take 2 ≠ [0x30, 0x78] ∧ iv.take 2 ≠ [0x30, 0x58] ∨ iv.length ≠ 16 * 2 + 2 then none
  else if ∀ i : Fin 16, isxdigit (ivChar iv (2 + 2 * i)) ∧ isxdigit (ivChar iv (3 + 2 * i))
  then some fun i =>
      BitVec.ofNat 8 (nibble (ivChar iv (2 + 2 * i)) <<< 4 ||| nibble (ivChar iv (3 + 2 * i)))
  else none

/- A sequence number in the last four bytes. -/
def seqNumberIv (mSeqNumber : Int) : Block :=
  fun i =>
    if i < 12 then 0
    else BitVec.ofInt 8 (mSeqNumber / 256 ^ (15 - i.val))

/- The vector that the first block begins with. -/
def initVec (itemMeta : ItemMeta) (mSeqNumber : Int) : Option Block :=
  match itemMeta.cipherIv with
  | some iv => parseIv iv
  | none => some (seqNumberIv mSeqNumber)

--
-- Decryption
--

section Segment

/- The inverse of the AES cipher, by the key. -/
variable (decryptBlock : List Byte → Block → Block)
variable (fetchFile : String → Fetched)
variable (mPlaylist : List ItemMeta)
variable (mSeqNumber : Int)
variable (playlistIndex : Nat)

/- `AES_cbc_encrypt` with `AES_DECRYPT`, and the next vector. -/
def cbcDecrypt (key : List Byte) (ivec : Block) (data : List Byte) : List Byte × Block :=
  (bytesOf (Cbc.decrypt Block.xor (decryptBlock key) ivec (blocksOf 16 data)),
    (blocksOf 16 data).getLastD ivec)

/- The bytes in the range of a buffer, with their cipher. -/
def decryptBuffer (s : Fetcher) (data : List Byte) (first : Bool) :
    Result (Except Status (Fetcher × List Byte × String)) :=
  (findMethod mPlaylist playlistIndex).bind fun found =>
    match found with
    | none => .returns (.ok (s, data, "NONE"))
    | some (method, itemMeta) =>
      if method = "NONE" then .returns (.ok (s, data, method))
      else if method ≠ "AES-128" then .returns (.error .ERROR_UNSUPPORTED)
      else
        match itemMeta.cipherUri with
        | none => .returns (.error .ERROR_MALFORMED)
        | some keyURI =>
          match fetchKey fetchFile s keyURI with
          | .error status => .returns (.error status)
          | .ok (key, s) =>
            if data.length = 0 then .returns (.ok (s, data, method))
            else
              .check (data.length % 16 = 0)
                (match (if first then initVec itemMeta mSeqNumber else some s.mAESInitVec) with
                | none => .returns (.error .ERROR_MALFORMED)
                | some ivec =>
                  let (data, ivec) := cbcDecrypt decryptBlock key ivec data
                  .returns
                    (.ok
                      ({ s with mAESInitVec := ivec },
                        data, method)))

/- Whether the bytes from `i` on are the padding. -/
def paddingLoop (data : List Byte) (padding : Byte) : Nat → Nat → Result Bool
| 0, _ => .returns true
| n + 1, i =>
  (Result.ofOption data[i]?).bind fun byte =>
    if byte ≠ padding then .returns false
    else paddingLoop data padding n (i + 1)

/-
  The status, and the length of the range afterwards. No buffer is long enough for a length below
  zero.
-/
def checkDecryptPadding (method : String) (data : List Byte) : Result (Status × Nat) :=
  if method = "NONE" then .returns (.OK, data.length)
  else
    let padding : Byte := data.getLastD 0
    if 16 < padding.toNat then .returns (.ERROR_MALFORMED, data.length)
    else
      let start := sizeSub data.length padding.toNat
      (paddingLoop data padding (padding.toNat - start) start).bind fun same =>
        if same then
          .check (padding.toNat ≤ data.length) (.returns (.OK, data.length - padding.toNat))
        else .returns (.ERROR_MALFORMED, data.length)

/- The blocks of a segment, behind those that are there. -/
def downloadBlocks (s : Fetcher) (data : List Byte) (method : Option String) :
    List (List Byte) → Result (Status × List Byte)
| [] =>
  (Result.ofOption method).bind fun method =>
  (checkDecryptPadding method data).bind fun (status, length) =>
      .returns (status, data.take length)
| block :: blocks =>
  (decryptBuffer decryptBlock fetchFile mPlaylist mSeqNumber
      playlistIndex s block (data.length = 0)).bind
    fun result =>
      match result with
      | .error status => .returns (status, data ++ block)
      | .ok (s, block, method) => downloadBlocks s (data ++ block) (some method) blocks

/- A segment that is downloaded and decrypted. -/
def downloadSegment (s : Fetcher) (blocks : List (List Byte)) : Result (Status × List Byte) :=
  downloadBlocks decryptBlock fetchFile mPlaylist mSeqNumber playlistIndex s [] none blocks

end Segment

end PlaylistFetcher

end FrameworksAv
