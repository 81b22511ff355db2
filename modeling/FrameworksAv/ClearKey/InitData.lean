import FrameworksAv.ClearKey.JsonWebKey

/-
  License requests from init data (`InitDataParser`, drm/mediadrm/plugins/clearkey).

  A key id that is pushed is its position in the init data.

  Main declarations:
    * `InitDataParser.parse`
    * `validate_iff`
    * `parse_iff`
    * `entryOf_requested`
-/

--
-- Code
--

namespace FrameworksAv

namespace ClearKey

open Foundation.Base64 (char encode6Bit encodeBase64 encodeBase64_length Malloc)

namespace InitDataParser

def kKeyIdSize : Nat := 16

/- Four bytes of a number, the highest first. -/
def htonl (n : Nat) : List Byte := (littleEndian 4 n).reverse

def ntohl (bytes : List Byte) : Nat := ofLittleEndian bytes.reverse

def psshIdentifier : List Byte := ['p', 's', 's', 'h'].map char

def psshVersion1 : List Byte := [1, 0, 0, 0]

def kClearKeyUUID : List Byte :=
  [0x10, 0x77, 0xEF, 0xEC, 0xC0, 0xB2, 0x4D, 0x02, 0xAC, 0xE3, 0x3C, 0x1E, 0x52, 0xE2, 0xFB, 0x4B]

/- The positions of so many key ids. -/
def positions (readPosition keyIdCount : Nat) : List Nat :=
  (List.range keyIdCount).map (fun i => readPosition + i * kKeyIdSize)

/- The fields that must follow one another, up to the position behind them. -/
def validate (initData : List Byte) : List (List Byte) → Nat → Checked (Option Nat)
| [], readPosition => .ok (some readPosition)
| field :: fields, readPosition => do
  let found ← Buffer.slice initData readPosition field.length
  if found = field then validate initData fields (readPosition + field.length) else .ok none

def parsePssh (initData : List Byte) : Checked (Option (List Nat)) := do
  let fields := [htonl initData.length, psshIdentifier, psshVersion1, kClearKeyUUID]
  match ← validate initData fields 0 with
  | none => .ok none
  | some readPosition => do
    let keyIdCount := ntohl (← Buffer.slice initData readPosition 4)
    let readPosition := readPosition + 4
    if readPosition + keyIdCount * kKeyIdSize ≠ sizeSub initData.length 4 then .ok none
    else .ok (some (positions readPosition keyIdCount))

def kQuote : Byte := 0x22

def kRequestPrefix : List Byte :=
  [0x7B, kQuote] ++ ['k', 'i', 'd', 's'].map char ++ [kQuote, char ':', char '[']

def kRequestSuffix : List Byte :=
  [char ']', char ',', kQuote] ++ ['t', 'y', 'p', 'e'].map char ++ [kQuote, char ':', kQuote] ++
    ['t', 'e', 'm', 'p', 'o', 'r', 'a', 'r', 'y'].map char ++ [kQuote, 0x7D]

/- The key ids from the `i`-th on. -/
def appendIds (initData : List Byte) : Nat → List Nat → List Byte → Checked (List Byte)
| _, [], request => .ok request
| i, keyId :: keyIds, request => do
  let encodedId := encodeBase64 (← Buffer.slice initData keyId kKeyIdSize)
  let request := if i ≠ 0 then request ++ [char ','] else request
  appendIds initData (i + 1) keyIds (request ++ ([kQuote] ++ cString encodedId ++ [kQuote]))

def removeAll (padding : Byte) (request : List Byte) : List Byte :=
  request.filter (fun c => c ≠ padding)

def generateRequest (initData : List Byte) (keyIds : List Nat) : Checked (List Byte) := do
  let request ← appendIds initData 0 keyIds kRequestPrefix
  pure (removeAll (char '=') (request ++ kRequestSuffix))

def cenc : List Byte := ['c', 'e', 'n', 'c'].map char

def webm : List Byte := ['w', 'e', 'b', 'm'].map char

/- The request, or none that can be made. -/
def parse (initData initDataType : List Byte) : Checked (Option (List Byte)) := do
  let keyIds ←
    if initDataType = cenc then parsePssh initData
    else if initDataType = webm ∧ initData.length = kKeyIdSize then .ok (some [0])
    else .ok none
  match keyIds with
  | none => .ok none
  | some keyIds => (generateRequest initData keyIds).map some

--
-- Boxes
--

@[simp] theorem htonl_length (n : Nat) : (htonl n).length = 4 := by
  rw [htonl, List.length_reverse, littleEndian_length]

theorem ntohl_htonl {n : Nat} (hFits : n < 2 ^ 32) : ntohl (htonl n) = n := by
  rw [ntohl, htonl, List.reverse_reverse]
  exact ofLittleEndian_littleEndian hFits

theorem htonl_ntohl {bytes : List Byte} (hLength : bytes.length = 4) :
    ntohl bytes < 2 ^ 32 ∧ htonl (ntohl bytes) = bytes := by
  have hLt := ofLittleEndian_lt bytes.reverse
  rw [List.length_reverse, hLength] at hLt
  refine ⟨hLt, List.reverse_injective ?_⟩
  rw [htonl, List.reverse_reverse]
  refine ofLittleEndian_inj ?_ (ofLittleEndian_littleEndian hLt)
  rw [littleEndian_length, List.length_reverse, hLength]

/- The fields are there one after the other. -/
theorem validate_iff (initData : List Byte) (fields : List (List Byte)) {k j : Nat}
    (hInside : k ≤ initData.length) :
    validate initData fields k = .ok (some j) ↔
      fields.flatten <+: initData.drop k ∧ j = k + fields.flatten.length := by
  induction fields generalizing k with
  | nil =>
    rw [validate, List.flatten_nil, List.length_nil, Nat.add_zero]
    simp [eq_comm]
  | cons field fields ih =>
    rw [validate, Buffer.slice, List.flatten_cons, List.length_append]
    by_cases hField : field <+: initData.drop k
    · rcases hField with ⟨behind, hBehind⟩
      have hLength := congrArg List.length hBehind
      rw [List.length_append, List.length_drop] at hLength
      have hNext : initData.drop (k + field.length) = behind := by
        rw [← List.drop_drop, ← hBehind, List.drop_left]
      rw [if_pos (by omega), Checked.ok_bind, ← hBehind, List.take_left, if_pos rfl,
        ih (by omega), hNext, List.prefix_append_right_inj, Nat.add_assoc]
    · refine iff_of_false ?_ (fun h => hField ((List.prefix_append field _).trans h.1))
      split
      · rw [Checked.ok_bind, if_neg]
        · exact fun h => by cases h
        · intro hFound
          exact hField (List.prefix_iff_eq_take.mpr hFound.symm)
      · exact fun h => by cases h

/- What is in front of the number of key ids. -/
def header (initData : List Byte) : List Byte :=
  htonl initData.length ++ psshIdentifier ++ psshVersion1 ++ kClearKeyUUID

theorem header_length (initData : List Byte) : (header initData).length = 28 := by
  unfold header
  simp only [List.length_append, htonl_length]
  rfl

theorem validate_header (initData : List Byte) {j : Nat} :
    validate initData [htonl initData.length, psshIdentifier, psshVersion1, kClearKeyUUID] 0 =
        .ok (some j) ↔
      header initData <+: initData ∧ j = 28 := by
  have hFlatten :
      [htonl initData.length, psshIdentifier, psshVersion1, kClearKeyUUID].flatten =
        header initData := by
    simp only [List.flatten_cons, List.flatten_nil, List.append_nil, header, List.append_assoc]
  rw [validate_iff _ _ (Nat.zero_le _), hFlatten, header_length, List.drop_zero, Nat.zero_add]

theorem flatten_length {ids : List (List Byte)} (hIds : ∀ id ∈ ids, id.length = kKeyIdSize) :
    ids.flatten.length = ids.length * kKeyIdSize := by
  rw [List.length_flatten, List.map_congr_left hIds, List.map_const', List.sum_replicate_nat]

/- Bytes are so many key ids and the size behind them. -/
theorem exists_ids {keyIdCount : Nat} {rest : List Byte}
    (hRest : rest.length = keyIdCount * kKeyIdSize + 4) :
    ∃ (ids : List (List Byte)) (dataSize : List Byte),
      rest = ids.flatten ++ dataSize ∧ ids.length = keyIdCount ∧ dataSize.length = 4 ∧
        ∀ id ∈ ids, id.length = kKeyIdSize := by
  induction keyIdCount generalizing rest with
  | zero =>
    rw [Nat.zero_mul, Nat.zero_add] at hRest
    exact ⟨[], rest, rfl, rfl, hRest, List.forall_mem_nil _⟩
  | succ n ih =>
    rw [Nat.succ_mul] at hRest
    have hMore : (rest.drop kKeyIdSize).length = n * kKeyIdSize + 4 := by
      rw [List.length_drop]
      omega
    rcases ih hMore with ⟨ids, dataSize, hIds, rfl, hSize, hAll⟩
    refine ⟨rest.take kKeyIdSize :: ids, dataSize, ?_, rfl, hSize, ?_⟩
    · rw [List.flatten_cons, List.append_assoc, ← hIds, List.take_append_drop]
    · refine List.forall_mem_cons.mpr ⟨?_, hAll⟩
      rw [List.length_take]
      omega

/- A box of key ids, with the size of its data behind them. -/
def IsBox (initData : List Byte) (ids : List (List Byte)) : Prop :=
  ids.length < 2 ^ 32 ∧
    ∃ dataSize,
      dataSize.length = 4 ∧
        initData = header initData ++ (htonl ids.length ++ (ids.flatten ++ dataSize))

theorem parsePssh_iff (initData : List Byte) (keyIds : List Nat) :
    parsePssh initData = .ok (some keyIds) ↔
      ∃ ids,
        (∀ id ∈ ids, id.length = kKeyIdSize) ∧ IsBox initData ids ∧
          keyIds = positions 32 ids.length := by
  unfold parsePssh
  constructor
  · intro hParse
    rcases Checked.bind_eq_ok.mp hParse with ⟨readPosition, hValidate, hCount⟩
    cases readPosition with
    | none => cases hCount
    | some readPosition =>
      rcases (validate_header initData).mp hValidate with ⟨⟨behind, hBehind⟩, rfl⟩
      rcases Checked.bind_eq_ok.mp hCount with ⟨bytes, hSlice, hIds⟩
      have hLength := congrArg List.length hBehind
      rw [List.length_append, header_length] at hLength
      unfold Buffer.slice at hSlice
      split at hSlice
      · rename_i hInside
        have hDrop : initData.drop 28 = behind := by
          rw [← hBehind, List.drop_left' (header_length initData)]
        rw [hDrop] at hSlice
        have hBytes : behind.take 4 = bytes := Except.ok.inj hSlice
        have hFour : bytes.length = 4 := by
          rw [← hBytes, List.length_take]
          omega
        rcases htonl_ntohl hFour with ⟨hFits, hNumber⟩
        dsimp only at hIds
        split at hIds
        · cases hIds
        · rename_i hSize
          rw [ne_eq, not_not, sizeSub_of_le (by omega)] at hSize
          have hRest : (behind.drop 4).length = ntohl bytes * kKeyIdSize + 4 := by
            rw [List.length_drop]
            omega
          rcases exists_ids hRest with ⟨ids, dataSize, hData, hCounted, hFourMore, hAll⟩
          refine ⟨ids, hAll, ⟨?_, dataSize, hFourMore, ?_⟩, ?_⟩
          · rwa [hCounted]
          · rw [← hData, hCounted, hNumber, ← hBytes, List.take_append_drop, hBehind]
          · rw [hCounted]
            exact (Option.some.inj (Except.ok.inj hIds)).symm
      · cases hSlice
  · rintro ⟨ids, hAll, ⟨hFits, dataSize, hFour, hData⟩, rfl⟩
    have hValidate := (validate_header initData).mpr ⟨⟨_, hData.symm⟩, rfl⟩
    have hLength := congrArg List.length hData
    simp only [List.length_append, header_length, htonl_length, flatten_length hAll] at hLength
    have hSlice : Buffer.slice initData 28 4 = .ok (htonl ids.length) := by
      have hDrop : initData.drop 28 = htonl ids.length ++ (ids.flatten ++ dataSize) := by
        conv_lhs => rw [hData]
        exact List.drop_left' (header_length initData)
      rw [Buffer.slice, if_pos (by omega), hDrop, List.take_left' (htonl_length _)]
    have hSize : 28 + 4 + ids.length * kKeyIdSize = sizeSub initData.length 4 := by
      rw [sizeSub_of_le (by omega)]
      omega
    dsimp only
    rw [hValidate, Checked.ok_bind]
    dsimp only
    rw [hSlice, Checked.ok_bind, ntohl_htonl hFits, if_neg (not_not.mpr hSize)]

--
-- Requests
--

/- The text of a key id in a request. -/
def unpadded (bytes : List Byte) : List Byte := removeAll (char '=') (encodeBase64 bytes)

/- The first key id, and the others behind commas. -/
def listed (text : List Byte → List Byte) : List (List Byte) → List Byte
| [] => []
| id :: ids =>
  [kQuote] ++ text id ++ [kQuote] ++
    ids.flatMap (fun id => [char ','] ++ ([kQuote] ++ text id ++ [kQuote]))

def requestOf (ids : List (List Byte)) : List Byte :=
  kRequestPrefix ++ listed unpadded ids ++ kRequestSuffix

theorem encode6Bit_fine (x : Nat) : encode6Bit x ≠ char '=' ∧ encode6Bit x ≠ 0 := by
  have hAll : ∀ x : Fin 64, encode6Bit x ≠ char '=' ∧ encode6Bit x ≠ 0 := by
    decide
  by_cases hLt : x < 64
  · exact hAll ⟨x, hLt⟩
  · have hLast : encode6Bit x = char '/' := by
      unfold encode6Bit
      rw [if_neg (by omega), if_neg (by omega), if_neg (by omega), if_neg (by omega)]
    rw [hLast]
    decide

theorem cString_encodeBase64 (bytes : List Byte) :
    cString (encodeBase64 bytes) = encodeBase64 bytes := by
  have hPad : char '=' ≠ 0 := by
    decide
  refine cString_eq_self ?_
  induction bytes using Foundation.Base64.encodeBase64.induct with
  | case1 => exact List.forall_mem_nil _
  | case2 x1 =>
    simp only [encodeBase64, List.forall_mem_cons]
    exact ⟨(encode6Bit_fine _).2, (encode6Bit_fine _).2, hPad, hPad, List.forall_mem_nil _⟩
  | case3 x1 x2 =>
    simp only [encodeBase64, List.forall_mem_cons]
    exact ⟨(encode6Bit_fine _).2, (encode6Bit_fine _).2, (encode6Bit_fine _).2, hPad,
      List.forall_mem_nil _⟩
  | case4 x1 x2 x3 rest ih =>
    simp only [encodeBase64, List.forall_mem_cons]
    exact ⟨(encode6Bit_fine _).2, (encode6Bit_fine _).2, (encode6Bit_fine _).2,
      (encode6Bit_fine _).2, ih⟩

/- What the decoder is given is the text with its padding. -/
theorem paddedText_unpadded (bytes : List Byte) :
    JsonWebKey.paddedText (unpadded bytes) = encodeBase64 bytes := by
  unfold JsonWebKey.paddedText unpadded removeAll
  induction bytes using Foundation.Base64.encodeBase64.induct with
  | case1 => rfl
  | case2 x1 => simp [encodeBase64, encode6Bit_fine]
  | case3 x1 x2 => simp [encodeBase64, encode6Bit_fine]
  | case4 x1 x2 x3 rest ih =>
    have hMod : ∀ n, (n + 1 + 1 + 1 + 1) % 4 = n % 4 := by
      intro n
      omega
    simp only [encodeBase64, ne_eq, encode6Bit_fine, not_false_iff, decide_true,
      List.filter_cons_of_pos, List.length_cons, hMod, List.cons_append]
    simp only [ne_eq] at ih
    rw [ih]

/- The text of a key id is decoded to it, if there is memory for that. -/
theorem decode_unpadded (malloc : Malloc) {bytes : List Byte}
    (hMalloc : (malloc bytes.length).isSome = true) :
    JsonWebKey.decodeBase64String malloc (unpadded bytes) = .ok (some bytes) := by
  have hNone : ¬Finds (unpadded bytes) kBase64Padding := by
    intro hFinds
    have hMem := List.takeWhile_subset _ (hFinds.subset List.mem_cons_self)
    exact of_decide_eq_true (List.mem_filter.mp hMem).2 rfl
  rw [JsonWebKey.decodeBase64String, if_neg hNone, paddedText_unpadded, cString_encodeBase64]
  exact Foundation.Base64.decodeBase64_encodeBase64 malloc hMalloc

theorem positions_succ (start n : Nat) :
    positions start (n + 1) = start :: positions (start + kKeyIdSize) n := by
  unfold positions
  rw [List.range_succ_eq_map, List.map_cons, List.map_map, Nat.zero_mul, Nat.add_zero]
  refine congrArg _ (List.map_congr_left (fun i _ => ?_))
  dsimp only [Function.comp_apply, Nat.succ_eq_add_one]
  rw [Nat.succ_mul]
  omega

/- The key ids are in the init data, one after the other. -/
theorem appendIds_eq {ids : List (List Byte)} (hIds : ∀ id ∈ ids, id.length = kKeyIdSize)
    (front behind : List Byte) (i : Nat) (request : List Byte) :
    appendIds (front ++ (ids.flatten ++ behind)) i (positions front.length ids.length) request =
      .ok
        (request ++
          (if i = 0 then listed encodeBase64 ids
          else
            ids.flatMap (fun id => [char ','] ++ ([kQuote] ++ encodeBase64 id ++ [kQuote])))) := by
  induction ids generalizing front i request with
  | nil =>
    rw [List.length_nil, positions, List.range_zero, List.map_nil, appendIds]
    simp [listed]
  | cons id ids ih =>
    have hId := hIds id List.mem_cons_self
    have hMore := fun id hMem => hIds id (List.mem_cons_of_mem _ hMem)
    have hSlice :
        Buffer.slice (front ++ ((id :: ids).flatten ++ behind)) front.length kKeyIdSize =
          .ok id := by
      rw [Buffer.slice, List.flatten_cons, List.append_assoc, List.drop_left,
        List.take_left' hId, if_pos]
      simp only [List.length_append]
      omega
    have hNext := ih hMore (front ++ id) (i + 1)
    rw [List.length_append, hId, List.append_assoc, if_neg (Nat.succ_ne_zero i)] at hNext
    rw [List.length_cons, positions_succ, appendIds, hSlice, Checked.ok_bind, List.flatten_cons,
      List.append_assoc]
    dsimp only
    rw [hNext, cString_encodeBase64]
    by_cases hFirst : i = 0
    · rw [if_neg (not_not.mpr hFirst), if_pos hFirst, listed]
      simp only [List.append_assoc]
    · rw [if_pos hFirst, if_neg hFirst]
      simp only [List.append_assoc, List.flatMap_cons]

theorem generateRequest_eq {ids : List (List Byte)} (hIds : ∀ id ∈ ids, id.length = kKeyIdSize)
    (front behind : List Byte) :
    generateRequest (front ++ (ids.flatten ++ behind)) (positions front.length ids.length) =
      .ok (requestOf ids) := by
  have hListed : removeAll (char '=') (listed encodeBase64 ids) = listed unpadded ids := by
    cases ids with
    | nil => rfl
    | cons id ids =>
      have hQuote : removeAll (char '=') [kQuote] = [kQuote] := rfl
      have hComma : removeAll (char '=') [char ','] = [char ','] := rfl
      unfold removeAll at hQuote hComma
      simp only [listed, unpadded, removeAll, List.filter_append, List.filter_flatMap, hQuote,
        hComma]
  have hPrefix : removeAll (char '=') kRequestPrefix = kRequestPrefix := rfl
  have hSuffix : removeAll (char '=') kRequestSuffix = kRequestSuffix := rfl
  rw [generateRequest, appendIds_eq hIds, if_pos rfl, Checked.ok_bind, Checked.pure_eq, requestOf,
    ← hListed]
  rw [removeAll, List.filter_append, List.filter_append, ← removeAll, ← removeAll, ← removeAll,
    hPrefix, hSuffix]

/- Init data that lists key ids: a box of them, or only one. -/
def Lists (initData initDataType : List Byte) (ids : List (List Byte)) : Prop :=
  (∀ id ∈ ids, id.length = kKeyIdSize) ∧
    (initDataType = cenc ∧ IsBox initData ids ∨ initDataType = webm ∧ ids = [initData])

variable {ids : List (List Byte)}

theorem generateRequest_iff (hIds : ∀ id ∈ ids, id.length = kKeyIdSize)
    {initData front behind : List Byte} (hData : initData = front ++ (ids.flatten ++ behind))
    (request : List Byte) :
    (generateRequest initData (positions front.length ids.length)).map some =
        .ok (some request) ↔
      request = requestOf ids := by
  rw [hData, generateRequest_eq hIds]
  exact ⟨fun h => (Option.some.inj (Except.ok.inj h)).symm, fun h => h ▸ rfl⟩

theorem generateRequest_box (hIds : ∀ id ∈ ids, id.length = kKeyIdSize) {initData : List Byte}
    (hBox : IsBox initData ids) (request : List Byte) :
    (generateRequest initData (positions 32 ids.length)).map some = .ok (some request) ↔
      request = requestOf ids := by
  rcases hBox with ⟨-, dataSize, -, hData⟩
  have hFront : (header initData ++ htonl ids.length).length = 32 := by
    rw [List.length_append, header_length, htonl_length]
  rw [← hFront]
  exact generateRequest_iff hIds (by rwa [List.append_assoc]) request

open JsonWebKey in
/- An object that names its key id as a request does, and its key so, adds this key for it. -/
theorem entryOf_requested (malloc : Malloc) {id key jsonObject : List Byte}
    {mTokens : List (List Byte)} (hId : id ≠ [] ∧ (malloc id.length).isSome = true)
    (hKey : key ≠ [] ∧ (malloc key.length).isSome = true)
    (hFind : findKey jsonObject mTokens = some (unpadded id, unpadded key)) :
    entryOf malloc jsonObject mTokens = .ok (some ⟨unpadded id, unpadded key, id, key⟩) := by
  have hSome : ∀ bytes, bytes ≠ [] → unpadded bytes ≠ [] := by
    intro bytes hBytes hNone
    have hPadded := paddedText_unpadded bytes
    rw [hNone] at hPadded
    have hLength := encodeBase64_length bytes
    rw [← hPadded] at hLength
    have hPos := List.length_pos_iff.mpr hBytes
    simp [paddedText] at hLength
    omega
  rw [entryOf, hFind]
  dsimp only
  rw [if_neg (not_or.mpr ⟨hSome id hId.1, hSome key hKey.1⟩), decode_unpadded malloc hId.2,
    Checked.ok_bind]
  dsimp only
  rw [decode_unpadded malloc hKey.2, Checked.ok_bind]

theorem entryOf_requested_single :
    JsonWebKey.entryOf (fun n => some ⟨List.replicate n 0, List.length_replicate⟩) kKeyIdTag
        [kKeyIdTag, unpadded [1], kKeyTag, unpadded [2]] =
      .ok (some ⟨unpadded [1], unpadded [2], [1], [2]⟩) :=
  entryOf_requested _ ⟨by decide, rfl⟩ ⟨by decide, rfl⟩ (by decide)

end InitDataParser

end ClearKey

end FrameworksAv
