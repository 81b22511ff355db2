import FrameworksAv.Base.KeyedVector
import FrameworksAv.Base.Run
import FrameworksAv.Foundation.Base64
import Mathlib.Data.List.Lex
import Mathlib.Data.List.TakeWhile
import Mathlib.Data.Prod.Lex

/-
  The keys of a ClearKey session: `JsonWebKey`, and `provideKeyResponse` of `Session`
  (drm/mediadrm/plugins/clearkey).

  The tokens of a JSON text are those `jsmn_parse` finds, a parameter.

  Main declarations:
    * `JsonWebKey.extractKeysFromJsonWebKeySet`
    * `provideKeyResponse`
    * `exec_lookup`
    * `lastEntry_fits`
-/

--
-- Texts
--

namespace FrameworksAv

namespace ClearKey

open Foundation.Base64 (char Malloc)

inductive TokenType where
| JSMN_PRIMITIVE
| JSMN_OBJECT
| JSMN_ARRAY
| JSMN_STRING
deriving DecidableEq

structure Token where
  type : TokenType
  start : Nat
  stop : Nat

/- The tokens of a text, or an error. -/
abbrev Jsmn := List Byte → Option (List Token)

def Token.text (t : Token) (json : List Byte) : List Byte :=
  (json.drop t.start).take (t.stop - t.start)

/- A C string ends at its first 0. -/
def cString (s : List Byte) : List Byte := s.takeWhile (fun c => c ≠ 0)

/- `find` of a `String8` that is not -1. -/
def Finds (s part : List Byte) : Prop := part <:+: cString s

instance (s part : List Byte) : Decidable (Finds s part) :=
  inferInstanceAs (Decidable (_ <:+: _))

def kKeysTag : List Byte := ['k', 'e', 'y', 's'].map char

def kKeyTypeTag : List Byte := ['k', 't', 'y'].map char

def kSymmetricKeyValue : List Byte := ['o', 'c', 't'].map char

def kKeyTag : List Byte := ['k'].map char

def kKeyIdTag : List Byte := ['k', 'i', 'd'].map char

def kBase64Padding : List Byte := [char '=']

--
-- Json Web Keys
--

/- A key that is added, with the texts it was decoded from. -/
structure Entry where
  encodedKeyId : List Byte
  encodedKey : List Byte
  decodedKeyId : List Byte
  decodedKey : List Byte

/- Vectors of bytes, in the order of their sizes, and then as `memcmp` orders them. -/
structure ByteVector where
  bytes : List Byte

def ByteVector.rank (v : ByteVector) : ℕ ×ₗ List ℕ :=
  toLex (v.bytes.length, v.bytes.map BitVec.toNat)

theorem ByteVector.rank_injective : Function.Injective ByteVector.rank := by
  rintro ⟨a⟩ ⟨b⟩ hRank
  have hNumbers : a.map BitVec.toNat = b.map BitVec.toNat :=
    congrArg (fun r => (ofLex r).2) hRank
  have hBytes : a = b := List.map_injective_iff.mpr (fun _ _ => BitVec.eq_of_toNat_eq) hNumbers
  rw [hBytes]

instance : LinearOrder ByteVector := LinearOrder.lift' ByteVector.rank ByteVector.rank_injective

abbrev KeyMap := KeyedVector ByteVector (List Byte)

namespace JsonWebKey

variable (jsmn_parse : Jsmn) (malloc : Malloc)

def parseJsonWebKeySet (jsonWebKeySet : List Byte) : Option (List (List Byte)) :=
  if jsonWebKeySet = [] then none
  else
    (jsmn_parse jsonWebKeySet).map (fun tokens =>
      (tokens.filter (fun t => t.type = .JSMN_OBJECT)).map (fun t => t.text jsonWebKeySet))

def parseJsonObject (jsonObject : List Byte) : Option (List (List Byte)) :=
  (jsmn_parse jsonObject).map (fun tokens =>
    (tokens.filter (fun t => t.type = .JSMN_STRING ∨ t.type = .JSMN_PRIMITIVE)).map (fun t =>
      t.text jsonObject))

/- The token behind the first one that is the key. -/
def findValue (key : List Byte) : List (List Byte) → List Byte
| [] => []
| token :: tokens =>
  if cString token = key then
    match tokens with
    | [] => []
    | value :: _ => cString value
  else findValue key tokens

/- The texts of the key id and the key, unless the key is not a symmetric one. -/
def findKey (jsonObject : List Byte) (mTokens : List (List Byte)) :
    Option (List Byte × List Byte) :=
  if Finds jsonObject kKeyTypeTag ∧ findValue kKeyTypeTag mTokens ≠ kSymmetricKeyValue then none
  else
    some
      (if Finds jsonObject kKeyIdTag then findValue kKeyIdTag mTokens else [],
        if Finds jsonObject kKeyTag then findValue kKeyTag mTokens else [])

/- The padding that the decoder requires. -/
def paddedText (encodedText : List Byte) : List Byte :=
  let remainder := encodedText.length % 4
  encodedText ++ List.replicate (if remainder > 0 then 4 - remainder else 0) (char '=')

def decodeBase64String (encodedText : List Byte) : Checked (Option (List Byte)) :=
  if Finds encodedText kBase64Padding then .ok none
  else Foundation.Base64.decodeBase64 malloc (cString (paddedText encodedText))

/- What is added for one object, if anything. -/
def entryOf (jsonObject : List Byte) (mTokens : List (List Byte)) : Checked (Option Entry) :=
  match findKey jsonObject mTokens with
  | none => .ok none
  | some (encodedKeyId, encodedKey) =>
    if encodedKeyId = [] ∨ encodedKey = [] then .ok none
    else do
      match ← decodeBase64String malloc encodedKeyId with
      | none => .ok none
      | some decodedKeyId =>
        match ← decodeBase64String malloc encodedKey with
        | none => .ok none
        | some decodedKey => .ok (some ⟨encodedKeyId, encodedKey, decodedKeyId, decodedKey⟩)

/- All that is added, in order; `none` is a failure. -/
def entries : List (List Byte) → Checked (Option (List Entry))
| [] => .ok (some [])
| jsonObject :: rest =>
  match parseJsonObject jsmn_parse jsonObject with
  | none => .ok none
  | some mTokens => do
    let first ← entryOf malloc jsonObject mTokens
    let more ← entries rest
    pure (more.map (fun es => first.toList ++ es))

/- The first object is the whole set, and is there or else read outside the vector. -/
def extractKeysFromJsonWebKeySet (jsonWebKeySet : List Byte) : Checked (Option (List Entry)) :=
  match parseJsonWebKeySet jsmn_parse jsonWebKeySet with
  | none => .ok none
  | some [] => .error .outside
  | some (set :: objects) =>
    if Finds set kKeysTag then entries jsmn_parse malloc objects else .ok none

end JsonWebKey

--
-- Sessions
--

variable (jsmn_parse : Jsmn) (malloc : Malloc)

def addEntries (es : List Entry) (keys : KeyMap) : KeyMap :=
  es.foldl (fun keys e => keys.add ⟨e.decodedKeyId⟩ e.decodedKey) keys

/- Whether the response was accepted, and the keys after it. -/
def provideKeyResponse (mKeyMap : KeyMap) (response : List Byte) : Checked (Bool × KeyMap) :=
  (JsonWebKey.extractKeysFromJsonWebKeySet jsmn_parse malloc response).map (fun
    | none => (false, mKeyMap)
    | some es =>
      let keys : KeyMap := addEntries es .empty
      (true, keys.entries.foldl (fun m e => m.add e.1 e.2) mKeyMap))

/- A response that is read outside the vector ends the run. -/
def provide (mKeyMap : KeyMap) (response : List Byte) : Option KeyMap :=
  match provideKeyResponse jsmn_parse malloc mKeyMap response with
  | .ok r => some r.2
  | .error _ => none

/- What a response adds. -/
def added (response : List Byte) : List Entry :=
  match JsonWebKey.extractKeysFromJsonWebKeySet jsmn_parse malloc response with
  | .ok (some es) => es
  | _ => []

/- The last key that is added for a key id. -/
def lastOf (es : List Entry) (keyId : List Byte) : Option Entry :=
  es.reverse.find? (fun e => e.decodedKeyId = keyId)

--
-- Lookups
--

/- Adding entries in order: the last one for a key id counts. -/
theorem lookup_addEntries (es : List Entry) (keys : KeyMap) (keyId : List Byte) :
    (addEntries es keys).lookup ⟨keyId⟩ =
      ((lastOf es keyId).map Entry.decodedKey).or (keys.lookup ⟨keyId⟩) := by
  induction es generalizing keys with
  | nil => rfl
  | cons e es ih =>
    rw [addEntries, List.foldl_cons, ← addEntries, ih, KeyedVector.lookup_add, lastOf, lastOf,
      List.reverse_cons, List.find?_append]
    cases es.reverse.find? (fun e => e.decodedKeyId = keyId) with
    | some found => rfl
    | none =>
      by_cases hSame : e.decodedKeyId = keyId
      · simp [hSame]
      · simp [hSame, Ne.symm hSame]

/- Adding all of another map. -/
theorem lookup_merge {es : List (ByteVector × List Byte)}
    (hSorted : es.Pairwise (fun a b => a.1 < b.1)) (m : KeyMap) (keyId : ByteVector) :
    (es.foldl (fun m e => m.add e.1 e.2) m).lookup keyId =
      (es.lookup keyId).or (m.lookup keyId) := by
  induction es generalizing m with
  | nil => rfl
  | cons e es ih =>
    rcases List.pairwise_cons.mp hSorted with ⟨hFirst, hRest⟩
    rw [List.foldl_cons, ih hRest, KeyedVector.lookup_add, List.lookup_cons]
    by_cases hSame : keyId = e.1
    · have hNone : es.lookup keyId = none := by
        rw [List.lookup_eq_none_iff]
        intro f hMem
        rw [hSame]
        exact bne_iff_ne.mpr (ne_of_lt (hFirst f hMem))
      rw [hNone, if_pos hSame, hSame, beq_self_eq_true]
      rfl
    · rw [if_neg hSame, beq_false_of_ne hSame]

/- After a response, the last of its keys counts, or else what was there. -/
theorem provide_lookup {mKeyMap m : KeyMap} {response : List Byte}
    (hProvide : provide jsmn_parse malloc mKeyMap response = some m) (keyId : List Byte) :
    m.lookup ⟨keyId⟩ =
      ((lastOf (added jsmn_parse malloc response) keyId).map Entry.decodedKey).or
        (mKeyMap.lookup ⟨keyId⟩) := by
  unfold provide provideKeyResponse at hProvide
  unfold added
  cases hExtract : JsonWebKey.extractKeysFromJsonWebKeySet jsmn_parse malloc response with
  | error fault =>
    rw [hExtract] at hProvide
    cases hProvide
  | ok result =>
    rw [hExtract] at hProvide
    cases result with
    | none =>
      cases hProvide
      rfl
    | some es =>
      cases hProvide
      have hKeys := lookup_addEntries es .empty keyId
      rw [KeyedVector.lookup_empty, Option.or_none] at hKeys
      rw [← hKeys]
      exact lookup_merge (addEntries es .empty).sorted mKeyMap ⟨keyId⟩

/- Of several responses. -/
def lastEntry (responses : List (List Byte)) (keyId : List Byte) : Option Entry :=
  lastOf (responses.flatMap (added jsmn_parse malloc)) keyId

theorem exec_lookup {responses : List (List Byte)} {m : KeyMap}
    (hRun : Run.exec (provide jsmn_parse malloc) .empty responses = some m) (keyId : List Byte) :
    m.lookup ⟨keyId⟩ = (lastEntry jsmn_parse malloc responses keyId).map Entry.decodedKey := by
  refine
    @Run.exec_history_invariant _ _ _
      (fun before m => m.lookup ⟨keyId⟩ =
        (lastEntry jsmn_parse malloc before keyId).map Entry.decodedKey) ?_ _ _ _ hRun rfl
  intro before m response next hBefore hStep
  rw [provide_lookup jsmn_parse malloc hStep keyId, hBefore]
  unfold lastEntry lastOf
  rw [List.flatMap_append, List.flatMap_singleton, List.reverse_append, List.find?_append,
    Option.map_or]

--
-- Lengths
--

section Lengths

/- A C string has no 0, -/
theorem ne_zero_of_mem_cString {s : List Byte} {c : Byte} (hMem : c ∈ cString s) : c ≠ 0 := by
  have hTaken := List.mem_takeWhile_imp hMem
  exact of_decide_eq_true hTaken

/- and bytes without a 0 are one. -/
theorem cString_eq_self {s : List Byte} (hNone : ∀ c ∈ s, c ≠ 0) : cString s = s :=
  List.takeWhile_eq_self_iff.mpr (fun c hMem => decide_eq_true (hNone c hMem))

/- A key of 16 bytes has a text of 22 characters. -/
def Entry.Fits (e : Entry) : Prop := e.decodedKey.length = 16 ↔ e.encodedKey.length = 22

namespace JsonWebKey

open Foundation.Base64 (decodeBase64_some padding_replicate)

theorem ne_zero_of_mem_findValue (key : List Byte) (tokens : List (List Byte)) {c : Byte}
    (hMem : c ∈ findValue key tokens) : c ≠ 0 := by
  induction tokens with
  | nil => cases hMem
  | cons token tokens ih =>
    unfold findValue at hMem
    split at hMem
    · cases tokens with
      | nil => cases hMem
      | cons value tokens => exact ne_zero_of_mem_cString hMem
    · exact ih hMem

theorem decodeBase64String_length {text out : List Byte} (hText : ∀ c ∈ text, c ≠ 0)
    (hDecode : decodeBase64String malloc text = .ok (some out)) :
    out.length = 16 ↔ text.length = 22 := by
  unfold decodeBase64String at hDecode
  split at hDecode
  · cases hDecode
  · rename_i hFinds
    unfold Finds at hFinds
    rw [cString_eq_self hText] at hFinds
    have hNone : char '=' ∉ text := by
      intro hMem
      rcases List.append_of_mem hMem with ⟨front, rest, rfl⟩
      exact hFinds ⟨front, rest, by rw [kBase64Padding, List.append_assoc]; rfl⟩
    have hWhole : cString (paddedText text) = paddedText text := by
      refine cString_eq_self (fun c hMem => ?_)
      rcases List.mem_append.mp hMem with hMem | hMem
      · exact hText c hMem
      · rw [List.eq_of_mem_replicate hMem]
        decide
    rw [hWhole] at hDecode
    rcases decodeBase64_some hDecode with ⟨hLength, hFew⟩
    unfold paddedText at hLength hFew
    dsimp only at hLength hFew
    rw [padding_replicate hNone (by split <;> omega)] at hLength hFew
    rw [hLength, List.length_append, List.length_replicate]
    split at hFew
    · rename_i hSome
      rw [if_pos hSome]
      omega
    · rename_i hZero
      rw [if_neg hZero]
      omega

theorem entryOf_fits {jsonObject : List Byte} {mTokens : List (List Byte)} {e : Entry}
    (hEntry : entryOf malloc jsonObject mTokens = .ok (some e)) : e.Fits := by
  unfold entryOf at hEntry
  cases hFind : findKey jsonObject mTokens with
  | none =>
    rw [hFind] at hEntry
    cases hEntry
  | some texts =>
    have hText : ∀ c ∈ texts.2, c ≠ 0 := by
      unfold findKey at hFind
      split at hFind
      · cases hFind
      · cases hFind
        intro c hMem
        dsimp only at hMem
        split at hMem
        · exact ne_zero_of_mem_findValue _ _ hMem
        · cases hMem
    rw [hFind] at hEntry
    dsimp only at hEntry
    split at hEntry
    · cases hEntry
    · rcases Checked.bind_eq_ok.mp hEntry with ⟨decodedKeyId, hKeyId, hRest⟩
      cases decodedKeyId with
      | none => cases hRest
      | some decodedKeyId =>
        rcases Checked.bind_eq_ok.mp hRest with ⟨decodedKey, hKey, hDone⟩
        cases decodedKey with
        | none => cases hDone
        | some decodedKey =>
          cases hDone
          exact decodeBase64String_length malloc hText hKey

theorem entries_fits {objects : List (List Byte)} {es : List Entry}
    (hEntries : entries jsmn_parse malloc objects = .ok (some es)) : ∀ e ∈ es, e.Fits := by
  induction objects generalizing es with
  | nil =>
    cases hEntries
    exact List.forall_mem_nil _
  | cons jsonObject rest ih =>
    rw [entries] at hEntries
    cases hParse : parseJsonObject jsmn_parse jsonObject with
    | none =>
      rw [hParse] at hEntries
      cases hEntries
    | some mTokens =>
      rw [hParse] at hEntries
      rcases Checked.bind_eq_ok.mp hEntries with ⟨first, hFirst, hMore⟩
      rcases Checked.bind_eq_ok.mp hMore with ⟨more, hRest, hDone⟩
      cases more with
      | none => cases hDone
      | some more =>
        cases hDone
        intro e hMem
        rcases List.mem_append.mp hMem with hMem | hMem
        · rw [Option.mem_toList.mp hMem] at hFirst
          exact entryOf_fits malloc hFirst
        · exact ih hRest e hMem

end JsonWebKey

theorem added_fits (response : List Byte) : ∀ e ∈ added jsmn_parse malloc response, e.Fits := by
  unfold added
  split
  · rename_i es hExtract
    unfold JsonWebKey.extractKeysFromJsonWebKeySet at hExtract
    split at hExtract
    · cases hExtract
    · cases hExtract
    · split at hExtract
      · exact JsonWebKey.entries_fits jsmn_parse malloc hExtract
      · cases hExtract
  · exact List.forall_mem_nil _

theorem lastEntry_fits {responses : List (List Byte)} {keyId : List Byte} {e : Entry}
    (hEntry : lastEntry jsmn_parse malloc responses keyId = some e) : e.Fits := by
  have hMem := List.mem_reverse.mp (List.mem_of_find?_eq_some hEntry)
  rcases List.mem_flatMap.mp hMem with ⟨response, -, hAdded⟩
  exact added_fits jsmn_parse malloc response e hAdded

end Lengths

end ClearKey

end FrameworksAv
