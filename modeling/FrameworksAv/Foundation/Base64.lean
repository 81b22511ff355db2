import FrameworksAv.Base.Buffer
import Mathlib.Data.List.GetD
import Mathlib.Tactic.SplitIfs

/-
  `encodeBase64` and `decodeBase64` (media/libstagefright/foundation/base64.cpp).

  Strings are lists of their characters as bytes. Writes of the decoder go to an allocated buffer
  and are checked; what `malloc` gives for a length, if anything, is a parameter.

  Main declarations:
    * `encodeBase64`, `decodeBase64`
    * `quad_loop`, `loop_groups`
    * `decodeBase64_sound_iff`
    * `codec_iff`
-/

--
-- Characters
--

namespace FrameworksAv

namespace Foundation

namespace Base64

def char (c : Char) : Byte := BitVec.ofNat 8 c.toNat

def encode6Bit (x : Nat) : Byte :=
  if x ≤ 25 then BitVec.ofNat 8 ('A'.toNat + x)
  else if x ≤ 51 then BitVec.ofNat 8 ('a'.toNat + x - 26)
  else if x ≤ 61 then BitVec.ofNat 8 ('0'.toNat + x - 52)
  else if x = 62 then char '+'
  else char '/'

/- The value of a character of the alphabet. -/
def charValue (c : Byte) : Option Nat :=
  if 'A'.toNat ≤ c.toNat ∧ c.toNat ≤ 'Z'.toNat then some (c.toNat - 'A'.toNat)
  else if 'a'.toNat ≤ c.toNat ∧ c.toNat ≤ 'z'.toNat then some (26 + c.toNat - 'a'.toNat)
  else if '0'.toNat ≤ c.toNat ∧ c.toNat ≤ '9'.toNat then some (52 + c.toNat - '0'.toNat)
  else if c = char '+' then some 62
  else if c = char '/' then some 63
  else none

theorem charValue_encode6Bit {x : Nat} (hLt : x < 64) : charValue (encode6Bit x) = some x := by
  have hAll : ∀ x : Fin 64, charValue (encode6Bit x) = some x.val := by
    decide
  exact hAll ⟨x, hLt⟩

theorem charValue_lt {c : Byte} {value : Nat} (hValue : charValue c = some value) : value < 64 := by
  unfold charValue at hValue
  simp only [Char.reduceToNat] at hValue
  split_ifs at hValue <;> simp only [Option.some.injEq] at hValue <;> omega

@[simp] theorem charValue_pad : charValue (char '=') = none := by
  decide

theorem encode6Bit_ne_pad {x : Nat} (hLt : x < 64) : encode6Bit x ≠ char '=' := by
  intro hPad
  have hValue := charValue_encode6Bit hLt
  rw [hPad, charValue_pad] at hValue
  cases hValue

--
-- The Codec
--

/- Three bytes at a time, then what is left. -/
def encodeBase64 : List Byte → List Byte
| [] => []
| [x1] => [encode6Bit (x1.toNat >>> 2), encode6Bit ((x1.toNat <<< 4) &&& 0x3f), char '=', char '=']
| [x1, x2] =>
  [encode6Bit (x1.toNat >>> 2), encode6Bit ((x1.toNat <<< 4 ||| x2.toNat >>> 4) &&& 0x3f),
    encode6Bit ((x2.toNat <<< 2) &&& 0x3f), char '=']
| x1 :: x2 :: x3 :: rest =>
  encode6Bit (x1.toNat >>> 2) :: encode6Bit ((x1.toNat <<< 4 ||| x2.toNat >>> 4) &&& 0x3f) ::
    encode6Bit ((x2.toNat <<< 2 ||| x3.toNat >>> 6) &&& 0x3f) :: encode6Bit (x3.toNat &&& 0x3f) ::
    encodeBase64 rest

/- The number of `=` at the end, up to three. -/
def padding (s : List Byte) : Nat :=
  let n := s.length
  if 1 ≤ n ∧ s.getD (n - 1) 0 = char '=' then
    if 2 ≤ n ∧ s.getD (n - 2) 0 = char '=' then if 3 ≤ n ∧ s.getD (n - 3) 0 = char '=' then 3 else 2
    else 1
  else 0

/- The value of the character at `i`; a `=` has one where the padding is. -/
def digit (n padding i : Nat) (c : Byte) : Option Nat :=
  match charValue c with
  | some value => some value
  | none =>
    if c ≠ char '=' then none
    else if i < n - padding then none
    else some 0

/- The bytes of four characters go to the buffer. -/
def flush (outLen j accum : Nat) (out : List Byte) : Checked (Nat × List Byte) := do
  let out ← Buffer.write out j (BitVec.ofNat 8 (accum >>> 16))
  let j := j + 1
  let (j, out) ← if j < outLen then do
      let out ← Buffer.write out j (BitVec.ofNat 8 ((accum >>> 8) &&& 0xff))
      pure (j + 1, out)
    else pure (j, out)
  if j < outLen then do
    let out ← Buffer.write out j (BitVec.ofNat 8 (accum &&& 0xff))
    pure (j + 1, out)
  else pure (j, out)

/- `.ok none` is `NULL`. -/
def decodeLoop (n padding outLen : Nat) :
    Nat → Nat → Nat → List Byte → List Byte → Checked (Option (List Byte))
| _, _, _, out, [] => .ok (some out)
| i, j, accum, out, c :: cs =>
  match digit n padding i c with
  | none => .ok none
  | some value =>
    let accum := (accum <<< 6 ||| value) % 2 ^ 32
    if (i + 1) % 4 = 0 then
      (flush outLen j accum out).bind (fun next =>
        decodeLoop n padding outLen (i + 1) next.1 0 next.2 cs)
    else decodeLoop n padding outLen (i + 1) j accum out cs

/- What `malloc` returns: nothing, or so many bytes. -/
abbrev Malloc :=
  (n : Nat) → Option { bytes : List Byte // bytes.length = n }

def decodeBase64 (malloc : Malloc) (s : List Byte) : Checked (Option (List Byte)) :=
  let n := s.length
  if n % 4 ≠ 0 then .ok none
  else
    let outLen := n / 4 * 3 - padding s
    match malloc outLen with
    | none => .ok none
    | some out => decodeLoop n (padding s) outLen 0 0 0 out s

--
-- Four Characters
--

/- The bytes in 24 bits. -/
def bytesOf (accum : Nat) : List Byte :=
  [BitVec.ofNat 8 (accum >>> 16), BitVec.ofNat 8 ((accum >>> 8) &&& 0xff),
    BitVec.ofNat 8 (accum &&& 0xff)]

theorem write_next (front old : List Byte) (x byte : Byte) :
    Buffer.write (front ++ x :: old) front.length byte = .ok (front ++ byte :: old) :=
  Buffer.write_mid front byte rfl rfl

/- The byte behind one that was just written. -/
theorem write_after (front old : List Byte) (x y byte : Byte) :
    Buffer.write (front ++ x :: y :: old) (front.length + 1) byte =
      .ok (front ++ x :: byte :: old) := by
  have hNext := write_next (front ++ [x]) old y byte
  rw [← List.append_cons, ← List.append_cons, List.length_append] at hNext
  exact hNext

theorem write_third (front old : List Byte) (x y z byte : Byte) :
    Buffer.write (front ++ x :: y :: z :: old) (front.length + 2) byte =
      .ok (front ++ x :: y :: byte :: old) := by
  have hAfter := write_after (front ++ [x]) old y z byte
  rw [← List.append_cons, ← List.append_cons, List.length_append] at hAfter
  exact hAfter

/- Behind the bytes so far there is room for the next ones. -/
theorem flush_eq (front : List Byte) {old : List Byte} (accum : Nat) (hRoom : old ≠ []) :
    flush (front.length + old.length) front.length accum (front ++ old) =
      .ok
        (front.length + min 3 old.length,
          front ++ ((bytesOf accum).take old.length ++ old.drop 3)) := by
  unfold flush bytesOf
  match old, hRoom with
  | [x], _ =>
    rw [write_next]
    simp
  | [x, y], _ =>
    rw [write_next]
    simp [write_after]
  | x :: y :: z :: old, _ =>
    have hLess : front.length + 1 + 1 < front.length + (old.length + 1 + 1 + 1) := by
      omega
    rw [write_next]
    simp [write_after, write_third, hLess]

/- Without room the first write is out of the buffer. -/
theorem flush_full (front : List Byte) (accum : Nat) :
    flush front.length front.length accum front = .error .outside := by
  unfold flush Buffer.write
  rw [if_neg (Nat.lt_irrefl _)]
  rfl

/- Six bits join those so far. -/
theorem join {accum value : Nat} (hAccum : accum < 2 ^ 18) (hValue : value < 64) :
    (accum <<< 6 ||| value) % 2 ^ 32 = accum * 64 + value := by
  have hOr := Nat.shiftLeft_add_eq_or_of_lt (i := 6) hValue accum
  rw [← hOr, Nat.shiftLeft_eq]
  exact Nat.mod_eq_of_lt (by omega)

variable {n pad outLen : Nat}

theorem digit_lt {i : Nat} {c : Byte} {value : Nat} (hDigit : digit n pad i c = some value) :
    value < 64 := by
  unfold digit at hDigit
  cases hValue : charValue c with
  | some v =>
    rw [hValue] at hDigit
    cases hDigit
    exact charValue_lt hValue
  | none =>
    rw [hValue] at hDigit
    simp only at hDigit
    split_ifs at hDigit
    cases hDigit
    decide

/- Four characters with values are 24 bits to flush. -/
theorem quad_loop {i j : Nat} {out cs : List Byte} {c1 c2 c3 c4 : Byte} {v1 v2 v3 v4 : Nat}
    (hAligned : i % 4 = 0) (h1 : digit n pad i c1 = some v1) (h2 : digit n pad (i + 1) c2 = some v2)
    (h3 : digit n pad (i + 2) c3 = some v3) (h4 : digit n pad (i + 3) c4 = some v4) :
    decodeLoop n pad outLen i j 0 out (c1 :: c2 :: c3 :: c4 :: cs) =
      (flush outLen j (((v1 * 64 + v2) * 64 + v3) * 64 + v4) out).bind (fun next =>
          decodeLoop n pad outLen (i + 4) next.1 0 next.2 cs) := by
  have hV1 := digit_lt h1
  have hV2 := digit_lt h2
  have hV3 := digit_lt h3
  have hV4 := digit_lt h4
  have hFirst : (0 <<< 6 ||| v1) % 2 ^ 32 = v1 := by
    rw [join (by decide) hV1]
    omega
  rw [decodeLoop, h1]
  simp only [hFirst]
  rw [if_neg (by omega), decodeLoop, h2]
  simp only
  rw [if_neg (by omega), join (by omega) hV2, decodeLoop, h3]
  simp only
  rw [if_neg (by omega), join (by omega) hV3, decodeLoop, h4]
  simp only
  rw [if_pos (by omega), join (by omega) hV4]

end Base64

--
-- Decoding Any String
--

namespace Base64

/- All characters from `i` on have a value. -/
def Digits (n padding : Nat) : Nat → List Byte → Prop
| _, [] => True
| i, c :: cs => digit n padding i c ≠ none ∧ Digits n padding (i + 1) cs

variable {n pad : Nat}

/- A character without a value comes before any write. -/
theorem quad_null {i j outLen : Nat} {out cs : List Byte} {c1 c2 c3 c4 : Byte}
    (hAligned : i % 4 = 0) (hNull : ¬Digits n pad i [c1, c2, c3, c4]) :
    decodeLoop n pad outLen i j 0 out (c1 :: c2 :: c3 :: c4 :: cs) = .ok none := by
  rw [decodeLoop]
  cases h1 : digit n pad i c1 with
  | none => rfl
  | some v1 =>
    simp only
    rw [if_neg (by omega), decodeLoop]
    cases h2 : digit n pad (i + 1) c2 with
    | none => rfl
    | some v2 =>
      simp only
      rw [if_neg (by omega), decodeLoop]
      cases h3 : digit n pad (i + 1 + 1) c3 with
      | none => rfl
      | some v3 =>
        simp only
        rw [if_neg (by omega), decodeLoop]
        cases h4 : digit n pad (i + 1 + 1 + 1) c4 with
        | none => rfl
        | some v4 =>
          refine absurd ?_ hNull
          simp [Digits, h1, h2, h3, h4]

/- Characters with values, taken apart. -/
theorem Digits.quad {i : Nat} {c1 c2 c3 c4 : Byte} (h : Digits n pad i [c1, c2, c3, c4]) :
    ∃ v1 v2 v3 v4,
      digit n pad i c1 = some v1 ∧ digit n pad (i + 1) c2 = some v2 ∧
        digit n pad (i + 2) c3 = some v3 ∧ digit n pad (i + 3) c4 = some v4 := by
  rcases h with ⟨h1, h2, h3, h4, -⟩
  rcases Option.ne_none_iff_exists'.mp h1 with ⟨v1, h1⟩
  rcases Option.ne_none_iff_exists'.mp h2 with ⟨v2, h2⟩
  rcases Option.ne_none_iff_exists'.mp h3 with ⟨v3, h3⟩
  rcases Option.ne_none_iff_exists'.mp h4 with ⟨v4, h4⟩
  exact ⟨v1, v2, v3, v4, h1, h2, h3, h4⟩

theorem digits_append {i : Nat} (xs ys : List Byte) :
    Digits n pad i (xs ++ ys) ↔ Digits n pad i xs ∧ Digits n pad (i + xs.length) ys := by
  induction xs generalizing i with
  | nil => simp [Digits]
  | cons c xs ih =>
    rw [List.cons_append, Digits, Digits, ih, and_assoc,
      List.length_cons, Nat.add_assoc, Nat.add_comm 1]

/-
  The loop on whole groups of four. `front` is written, and `old` is the room left: three bytes a
  group, less the padding.
-/
theorem loop_groups (hPad : pad ≤ 3) (q i : Nat) (front old cs : List Byte) (hAligned : i % 4 = 0)
    (hGroups : cs.length = 4 * q) (hRoom : old.length = 3 * q - pad) :
    let result :=
      decodeLoop n pad (front.length + old.length) i front.length 0 (front ++ old) cs
    (¬Digits n pad i cs → result = .ok none) ∧
      (Digits n pad i cs → pad = 3 → q ≠ 0 → result = .error .outside) ∧
      (Digits n pad i cs → pad ≠ 3 →
        ∃ out, result = .ok (some out) ∧ out.length = front.length + old.length) := by
  induction q generalizing i front old cs with
  | zero =>
    have hNil : cs = [] := List.length_eq_zero_iff.mp hGroups
    subst hNil
    refine ⟨fun hNot => absurd trivial hNot, fun _ _ hSome => absurd rfl hSome, fun _ _ => ?_⟩
    exact ⟨front ++ old, rfl, List.length_append⟩
  | succ q ih =>
    match cs, hGroups with
    | c1 :: c2 :: c3 :: c4 :: cs, hGroups =>
      have hLess : cs.length = 4 * q := by
        simp only [List.length_cons] at hGroups
        omega
      have hSplit :
          Digits n pad i (c1 :: c2 :: c3 :: c4 :: cs) ↔
            Digits n pad i [c1, c2, c3, c4] ∧ Digits n pad (i + 4) cs :=
        digits_append [c1, c2, c3, c4] cs
      rw [hSplit]
      by_cases hFour : Digits n pad i [c1, c2, c3, c4]
      · rcases hFour.quad with ⟨v1, v2, v3, v4, h1, h2, h3, h4⟩
        obtain ⟨accum, hAccum⟩ : ∃ accum, accum = ((v1 * 64 + v2) * 64 + v3) * 64 + v4 := ⟨_, rfl⟩
        rw [quad_loop hAligned h1 h2 h3 h4, ← hAccum]
        by_cases hOld : old = []
        · -- three bytes of padding in the only group
          subst hOld
          have hOnly : pad = 3 ∧ cs = [] := by
            simp only [List.length_nil] at hRoom
            exact ⟨by omega, List.length_eq_zero_iff.mp (by omega)⟩
          rcases hOnly with ⟨rfl, rfl⟩
          rw [List.append_nil, List.length_nil, Nat.add_zero, flush_full]
          exact ⟨fun hNot => absurd ⟨hFour, trivial⟩ hNot, fun _ _ _ => rfl,
            fun _ hThree => absurd rfl hThree⟩
        · rw [flush_eq front accum hOld]
          by_cases hLast : q = 0
          · have hNil : cs = [] := List.length_eq_zero_iff.mp (by omega)
            subst hNil
            have hSome := List.length_pos_iff.mpr hOld
            refine
              ⟨fun hNot => absurd ⟨hFour, trivial⟩ hNot, fun _ _ _ => by omega,
                fun _ _ => ⟨_, rfl, ?_⟩⟩
            simp only [bytesOf, List.length_append, List.length_take, List.length_cons,
              List.length_nil, List.length_drop]
            omega
          · have hThree : 3 ≤ old.length := by omega
            have hRest : (old.drop 3).length = old.length - 3 := List.length_drop
            have hNext :=
              ih (i + 4) (front ++ bytesOf accum) (old.drop 3) cs (by omega) hLess (by omega)
            have hBytes : (bytesOf accum).take old.length = bytesOf accum :=
              List.take_of_length_le hThree
            have hLength : (front ++ bytesOf accum).length = front.length + 3 := by
              simp [bytesOf]
            have hTotal : front.length + 3 + (old.length - 3) = front.length + old.length := by
              omega
            rw [hLength, hRest, hTotal, List.append_assoc] at hNext
            rw [hBytes, Nat.min_eq_left hThree]
            rcases hNext with ⟨hNull, hOut, hDone⟩
            refine ⟨fun hNot => hNull ?_, fun h hPadded _ => hOut h.2 hPadded hLast,
              fun h => hDone h.2⟩
            exact fun hTail => hNot ⟨hFour, hTail⟩
      · rw [quad_null hAligned hFour]
        exact ⟨fun _ => rfl, fun h => absurd h.1 hFour, fun h => absurd h.1 hFour⟩

end Base64

--
-- Accepted Strings
--

namespace Base64

theorem padding_le (s : List Byte) : padding s ≤ 3 := by
  unfold padding
  simp only
  split_ifs <;> decide

/- The padding is what is at the end. -/
theorem padding_end {s : List Byte} {k : Nat} (hLess : k < padding s) :
    k < s.length ∧ s.getD (s.length - 1 - k) 0 = char '=' := by
  have hCases : k = 0 ∨ k = 1 ∨ k = 2 := by
    have hLe := padding_le s
    omega
  unfold padding at hLess
  simp only at hLess
  split_ifs at hLess with h1 h2 h3
  · rcases hCases with rfl | rfl | rfl
    · exact h1
    · exact h2
    · exact h3
  · rcases hCases with rfl | rfl | rfl
    · exact h1
    · exact h2
    · omega
  · rcases hCases with rfl | rfl | rfl
    · exact h1
    · omega
    · omega
  · omega

theorem padding_split (s : List Byte) :
    ∃ body, s = body ++ List.replicate (padding s) (char '=') := by
  refine ⟨s.take (s.length - padding s), ?_⟩
  conv_lhs => rw [← List.take_append_drop (s.length - padding s) s]
  congr 1
  have hFits : padding s ≤ s.length := by
    by_contra hNot
    have hLess : s.length < padding s := Nat.not_le.mp hNot
    exact Nat.lt_irrefl _ (padding_end hLess).1
  apply List.ext_getElem
  · rw [List.length_drop, List.length_replicate]
    omega
  · intro k hk _
    rw [List.length_drop] at hk
    have hEnd := (padding_end (s := s) (k := padding s - 1 - k) (by omega)).2
    rw [List.getElem_drop, List.getElem_replicate]
    rw [List.getD_eq_getElem _ _ (by omega)] at hEnd
    rw [← hEnd]
    congr 1
    omega

theorem padding_triple (body : List Byte) : padding (body ++ List.replicate 3 (char '=')) = 3 := by
  have hGet :
      ∀ k, k < 3 →
        (body ++ List.replicate 3 (char '=')).getD (body.length + 3 - (k + 1)) 0 = char '=' := by
    intro k hk
    rw [List.getD_append_right _ _ _ _ (by omega),
      List.getD_eq_getElem _ _ (by rw [List.length_replicate]; omega), List.getElem_replicate]
  have hLength : (body ++ List.replicate 3 (char '=')).length = body.length + 3 := by
    rw [List.length_append, List.length_replicate]
  unfold padding
  simp only [hLength]
  rw [if_pos ⟨by omega, hGet 0 (by decide)⟩, if_pos ⟨by omega, hGet 1 (by decide)⟩,
    if_pos ⟨by omega, hGet 2 (by decide)⟩]

variable {n pad : Nat}

/- In front of the padding only the alphabet has values. -/
theorem digits_body {i : Nat} {body : List Byte} (hFront : i + body.length ≤ n - pad) :
    Digits n pad i body ↔ ∀ c ∈ body, charValue c ≠ none := by
  induction body generalizing i with
  | nil => simp [Digits]
  | cons c body ih =>
    rw [List.length_cons] at hFront
    rw [Digits, ih (by omega), List.forall_mem_cons]
    refine and_congr_left (fun _ => not_congr ?_)
    unfold digit
    cases hValue : charValue c with
    | some value => rfl
    | none =>
      simp only
      rw [if_pos (by omega : i < n - pad), ite_self]
      exact iff_of_true rfl trivial

theorem digits_tail {i : Nat} (hBehind : n - pad ≤ i) (k : Nat) :
    Digits n pad i (List.replicate k (char '=')) := by
  induction k generalizing i with
  | zero => trivial
  | succ k ih =>
    rw [List.replicate_succ, Digits]
    refine ⟨?_, ih (Nat.le_succ_of_le hBehind)⟩
    unfold digit
    simp only [charValue_pad]
    rw [if_neg (fun hNe => hNe rfl), if_neg (Nat.not_lt.mpr hBehind)]
    exact Option.some_ne_none 0

/- All characters have values if the body is in the alphabet. -/
theorem digits_iff {s body : List Byte}
    (hSplit : s = body ++ List.replicate (padding s) (char '=')) :
    Digits s.length (padding s) 0 s ↔ ∀ c ∈ body, charValue c ≠ none := by
  have hLength : s.length = body.length + padding s := by
    conv_lhs => rw [hSplit]
    rw [List.length_append, List.length_replicate]
  conv_lhs =>
    arg 4
    rw [hSplit]
  rw [digits_append, digits_body (by omega)]
  exact and_iff_left (digits_tail (by omega) _)

/- The bytes that the characters of the alphabet stand for. -/
def decodedLength (s : List Byte) : Nat :=
  (s.filter (fun c => (charValue c).isSome)).length * 6 / 8

/- A string of the alphabet, padded to groups of four. -/
def Padded (s : List Byte) (pad : Nat) : Prop :=
  4 ∣ s.length ∧ ∃ body, s = body ++ List.replicate pad (char '=') ∧ ∀ c ∈ body, charValue c ≠ none

theorem Padded.decodedLength_eq {s : List Byte} (h : Padded s pad) (hPad : pad ≤ 3) :
    s.length / 4 * 3 - pad = decodedLength s := by
  rcases h with ⟨⟨m, hm⟩, body, rfl, hBody⟩
  have hFilter :
      (body ++ List.replicate pad (char '=')).filter (fun c => (charValue c).isSome) = body := by
    rw [List.filter_append, List.filter_replicate, charValue_pad]
    simp only [Option.isSome_none, Bool.false_eq_true, if_false, List.append_nil]
    refine List.filter_eq_self.mpr (fun c hc => ?_)
    exact Option.isSome_iff_ne_none.mpr (hBody c hc)
  unfold decodedLength
  rw [hFilter, hm]
  rw [List.length_append, List.length_replicate] at hm
  omega

/-
  What may come of decoding: `NULL`, or a buffer of the decoded length for a string with at most two
  `=`.
-/
def Sound (s : List Byte) : Checked (Option (List Byte)) → Prop
| .error _ => False
| .ok none => True
| .ok (some out) => out.length = decodedLength s ∧ ∃ pad ≤ 2, Padded s pad

/- A buffer is overrun by three `=`, and by them alone. -/
theorem decodeBase64_sound_iff (malloc : Malloc) (s : List Byte) :
    Sound s (decodeBase64 malloc s) ↔ ¬(Padded s 3 ∧ (malloc (decodedLength s)).isSome = true) := by
  rcases padding_split s with ⟨body, hSplit⟩
  have hDigits := digits_iff hSplit
  have hTriple : Padded s 3 → padding s = 3 := by
    rintro ⟨-, front, rfl, -⟩
    exact padding_triple front
  unfold decodeBase64
  by_cases hGroups : s.length % 4 = 0
  · have hFour : 4 ∣ s.length := Nat.dvd_of_mod_eq_zero hGroups
    simp only [hGroups, ne_eq, not_true_eq_false, if_false]
    by_cases hAll : Digits s.length (padding s) 0 s
    · have hPadded : Padded s (padding s) := ⟨hFour, body, hSplit, hDigits.mp hAll⟩
      have hLe := padding_le s
      rw [hPadded.decodedLength_eq hLe]
      cases hMalloc : malloc (decodedLength s) with
      | none => simp [Sound]
      | some out =>
        have hGroup := loop_groups (n := s.length) hLe (s.length / 4) 0 [] out.val s rfl (by omega)
          (by
            rw [out.property, ← hPadded.decodedLength_eq hLe, Nat.mul_comm])
        simp only [List.length_nil, Nat.zero_add, List.nil_append, out.property] at hGroup
        simp only
        by_cases hThree : padding s = 3
        · have hSome : s.length / 4 ≠ 0 := by
            rcases padding_end (s := s) (k := 0) (by omega) with ⟨hPos, -⟩
            omega
          rw [hGroup.2.1 hAll hThree hSome]
          rw [hThree] at hPadded
          exact iff_of_false (fun h => h) (fun hNot => hNot ⟨hPadded, rfl⟩)
        · rcases hGroup.2.2 hAll hThree with ⟨result, hOut, hLength⟩
          rw [hOut]
          exact iff_of_true ⟨hLength, padding s, by omega, hPadded⟩ (fun h => hThree (hTriple h.1))
    · have hNot : ¬Padded s 3 := by
        intro hPadded
        have hThree := hTriple hPadded
        rcases hPadded with ⟨-, front, hFront, hAlphabet⟩
        rw [← hThree] at hFront
        exact hAll ((digits_iff hFront).mpr hAlphabet)
      refine iff_of_true ?_ (fun h => hNot h.1)
      cases hMalloc : malloc (s.length / 4 * 3 - padding s) with
      | none => trivial
      | some out =>
        have hGroup := loop_groups (n := s.length) (padding_le s) (s.length / 4) 0 [] out.val s rfl
          (by omega) (by rw [out.property, Nat.mul_comm])
        simp only [List.length_nil, Nat.zero_add, List.nil_append, out.property] at hGroup
        simp only
        rw [hGroup.1 hAll]
        trivial
  · have hNot : ¬Padded s 3 := fun h =>
      hGroups (Nat.mod_eq_zero_of_dvd h.1)
    rw [if_pos hGroups]
    exact iff_of_true trivial (fun h => hNot h.1)

/- A decoded buffer has three bytes for four characters, less the padding. -/
theorem decodeBase64_some {malloc : Malloc} {s out : List Byte}
    (hDecode : decodeBase64 malloc s = .ok (some out)) :
    out.length = s.length / 4 * 3 - padding s ∧ padding s ≠ 3 := by
  unfold decodeBase64 at hDecode
  by_cases hGroups : s.length % 4 = 0
  · simp only [hGroups, ne_eq, not_true_eq_false, if_false] at hDecode
    cases hMalloc : malloc (s.length / 4 * 3 - padding s) with
    | none =>
      rw [hMalloc] at hDecode
      cases hDecode
    | some room =>
      rw [hMalloc] at hDecode
      have hGroup := loop_groups (n := s.length) (padding_le s) (s.length / 4) 0 [] room.val s rfl
        (by omega) (by rw [room.property, Nat.mul_comm])
      simp only [List.length_nil, Nat.zero_add, List.nil_append, room.property] at hGroup
      dsimp only at hDecode
      rw [hDecode] at hGroup
      rcases hGroup with ⟨hNull, hOut, hDone⟩
      by_cases hAll : Digits s.length (padding s) 0 s
      · have hFew : padding s ≠ 3 := by
          intro hThree
          have hLast := (padding_end (s := s) (k := 2) (by omega)).1
          cases hOut hAll hThree (by omega)
        rcases hDone hAll hFew with ⟨result, hResult, hLength⟩
        cases hResult
        exact ⟨hLength, hFew⟩
      · cases hNull hAll
  · rw [if_pos hGroups] at hDecode
    cases hDecode

/- Behind a text without `=`, the padding is what was added. -/
theorem padding_replicate {text : List Byte} (hText : char '=' ∉ text) {pad : Nat}
    (hPad : pad ≤ 3) : padding (text ++ List.replicate pad (char '=')) = pad := by
  have hLength : (text ++ List.replicate pad (char '=')).length = text.length + pad := by
    rw [List.length_append, List.length_replicate]
  have hGet :
      ∀ k,
        (k + 1 ≤ text.length + pad ∧
            (text ++ List.replicate pad (char '=')).getD (text.length + pad - (k + 1)) 0 =
              char '=') ↔
          k < pad := by
    intro k
    constructor
    · rintro ⟨hFits, hEnd⟩
      by_contra hFront
      rw [List.getD_append _ _ _ _ (by omega), List.getD_eq_getElem _ _ (by omega)] at hEnd
      exact hText (hEnd ▸ List.getElem_mem _)
    · intro hBehind
      refine ⟨by omega, ?_⟩
      rw [List.getD_append_right _ _ _ _ (by omega),
        List.getD_eq_getElem _ _ (by rw [List.length_replicate]; omega), List.getElem_replicate]
  have h1 := hGet 0
  have h2 := hGet 1
  have h3 := hGet 2
  unfold padding
  simp only [hLength]
  split_ifs with hFirst hSecond hThird
  · have hLess := h3.mp hThird
    omega
  · have hLess := h2.mp hSecond
    have hNot := mt h3.mpr hThird
    omega
  · have hLess := h1.mp hFirst
    have hNot := mt h2.mpr hSecond
    omega
  · have hNot := mt h1.mpr hFirst
    omega

end Base64

--
-- The Round Trip
--

namespace Base64

theorem low6 (v : Nat) : v &&& 0x3f = v % 64 :=
  Nat.and_two_pow_sub_one_eq_mod v 6

/- The values of the four characters of three bytes. -/
theorem first6 (x : Byte) : x.toNat >>> 2 = x.toNat / 4 ∧ x.toNat / 4 < 64 := by
  have hByte := x.isLt
  exact ⟨Nat.shiftRight_eq_div_pow _ _, by omega⟩

theorem second6 (x1 x2 : Byte) :
    (x1.toNat <<< 4 ||| x2.toNat >>> 4) &&& 0x3f = x1.toNat % 4 * 16 + x2.toNat / 16 := by
  have hByte := x2.isLt
  have hLow : x2.toNat / 2 ^ 4 < 2 ^ 4 := by omega
  rw [low6, Nat.shiftRight_eq_div_pow, ← Nat.shiftLeft_add_eq_or_of_lt hLow, Nat.shiftLeft_eq]
  omega

theorem third6 (x2 x3 : Byte) :
    (x2.toNat <<< 2 ||| x3.toNat >>> 6) &&& 0x3f = x2.toNat % 16 * 4 + x3.toNat / 64 := by
  have hByte := x3.isLt
  have hLow : x3.toNat / 2 ^ 6 < 2 ^ 2 := by omega
  rw [low6, Nat.shiftRight_eq_div_pow, ← Nat.shiftLeft_add_eq_or_of_lt hLow, Nat.shiftLeft_eq]
  omega

theorem second6_last (x1 : Byte) : (x1.toNat <<< 4) &&& 0x3f = x1.toNat % 4 * 16 := by
  rw [low6, Nat.shiftLeft_eq]
  omega

theorem third6_last (x2 : Byte) : (x2.toNat <<< 2) &&& 0x3f = x2.toNat % 16 * 4 := by
  rw [low6, Nat.shiftLeft_eq]
  omega

theorem bytesOf_join (x1 x2 x3 : Byte) :
    bytesOf (x1.toNat * 65536 + x2.toNat * 256 + x3.toNat) = [x1, x2, x3] := by
  have h1 := x1.isLt
  have h2 := x2.isLt
  have h3 := x3.isLt
  have hMask : ∀ v, v &&& 0xff = v % 256 := fun v =>
    Nat.and_two_pow_sub_one_eq_mod v 8
  unfold bytesOf
  simp only [hMask, Nat.shiftRight_eq_div_pow]
  congr 1
  · apply BitVec.eq_of_toNat_eq
    rw [BitVec.toNat_ofNat]
    omega
  · congr 1
    · apply BitVec.eq_of_toNat_eq
      rw [BitVec.toNat_ofNat]
      omega
    · congr 1
      apply BitVec.eq_of_toNat_eq
      rw [BitVec.toNat_ofNat]
      omega

variable {n pad : Nat}

theorem digit_encode6Bit (i : Nat) {x : Nat} (hLt : x < 64) :
    digit n pad i (encode6Bit x) = some x := by
  unfold digit
  rw [charValue_encode6Bit hLt]

theorem digit_pad {i : Nat} (hBehind : n - pad ≤ i) : digit n pad i (char '=') = some 0 := by
  unfold digit
  rw [charValue_pad]
  simp only
  rw [if_neg (fun hNe => hNe rfl), if_neg (Nat.not_lt.mpr hBehind)]

/- What the padding of `len` bytes is. -/
def padOf (len : Nat) : Nat := (3 - len % 3) % 3

/- The loop writes the bytes that were encoded. -/
theorem loop_encodeBase64 (bytes : List Byte) (i : Nat) (front old : List Byte)
    (hAligned : i % 4 = 0) (hEnd : i + (encodeBase64 bytes).length = n)
    (hPad : pad = padOf bytes.length) (hRoom : old.length = bytes.length) :
    decodeLoop n pad (front.length + old.length) i front.length
        0 (front ++ old) (encodeBase64 bytes) =
      .ok (some (front ++ bytes)) := by
  induction bytes using encodeBase64.induct generalizing i front old with
  | case1 =>
    have hNil : old = [] := List.length_eq_zero_iff.mp hRoom
    subst hNil
    rfl
  | case2 x1 =>
    have hOld : old ≠ [] := by
      rintro rfl
      cases hRoom
    have hByte := x1.isLt
    have hTwo : pad = 2 := hPad
    have hLast : n - pad ≤ i + 2 := by
      rw [← hEnd, hTwo, encodeBase64]
      simp
    have hDone : old.drop 3 = [] := List.drop_of_length_le (by rw [hRoom]; simp)
    have hAccum :
        ((x1.toNat / 4 * 64 + x1.toNat % 4 * 16) * 64 + 0) * 64 + 0 =
          x1.toNat * 65536 + (0 : Byte).toNat * 256 + (0 : Byte).toNat := by
      have hZero : (0 : Byte).toNat = 0 := rfl
      omega
    rw [encodeBase64, (first6 x1).1, second6_last,
      quad_loop hAligned (digit_encode6Bit i (first6 x1).2) (digit_encode6Bit (i + 1) (by omega))
        (digit_pad hLast) (digit_pad (Nat.le_succ_of_le hLast)),
      hAccum, flush_eq front _ hOld, bytesOf_join, hRoom, hDone]
    rfl
  | case3 x1 x2 =>
    have hOld : old ≠ [] := by
      rintro rfl
      cases hRoom
    have hByte1 := x1.isLt
    have hByte2 := x2.isLt
    have hOne : pad = 1 := hPad
    have hLast : n - pad ≤ i + 3 := by
      rw [← hEnd, hOne, encodeBase64]
      simp
    have hDone : old.drop 3 = [] := List.drop_of_length_le (by rw [hRoom]; simp)
    have hAccum :
        ((x1.toNat / 4 * 64 + (x1.toNat % 4 * 16 + x2.toNat / 16)) * 64 +
            x2.toNat % 16 * 4) * 64 + 0 =
          x1.toNat * 65536 + x2.toNat * 256 + (0 : Byte).toNat := by
      have hZero : (0 : Byte).toNat = 0 := rfl
      omega
    rw [encodeBase64, (first6 x1).1, second6, third6_last,
      quad_loop hAligned (digit_encode6Bit i (first6 x1).2) (digit_encode6Bit (i + 1) (by omega))
        (digit_encode6Bit (i + 2) (by omega)) (digit_pad hLast),
      hAccum, flush_eq front _ hOld, bytesOf_join, hRoom, hDone]
    rfl
  | case4 x1 x2 x3 rest ih =>
    have hOld : old ≠ [] := by
      rintro rfl
      cases hRoom
    have hByte1 := x1.isLt
    have hByte2 := x2.isLt
    have hByte3 := x3.isLt
    have hAccum :
        ((x1.toNat / 4 * 64 + (x1.toNat % 4 * 16 + x2.toNat / 16)) * 64 +
            (x2.toNat % 16 * 4 + x3.toNat / 64)) * 64 + x3.toNat % 64 =
          x1.toNat * 65536 + x2.toNat * 256 + x3.toNat := by
      omega
    have hThree : old.length = rest.length + 3 := hRoom
    have hRest : (old.drop 3).length = rest.length := by
      rw [List.length_drop]
      omega
    have hLength : (front ++ [x1, x2, x3]).length = front.length + 3 := List.length_append
    have hPadRest : pad = padOf rest.length := by
      rw [hPad, padOf, padOf, List.length_cons, List.length_cons, List.length_cons]
      omega
    have hNext := ih (i + 4) (front ++ [x1, x2, x3]) (old.drop 3) (by omega)
      (by
        rw [← hEnd, encodeBase64]
        simp only [List.length_cons]
        omega)
      hPadRest hRest
    have hTake : [x1, x2, x3].take old.length = [x1, x2, x3] :=
      List.take_of_length_le (by simp; omega)
    have hTotal : front.length + 3 + (old.drop 3).length = front.length + old.length := by
      omega
    rw [hLength, hTotal, List.append_assoc] at hNext
    rw [encodeBase64, (first6 x1).1, second6, third6, low6,
      quad_loop hAligned (digit_encode6Bit i (first6 x1).2) (digit_encode6Bit (i + 1) (by omega))
        (digit_encode6Bit (i + 2) (by omega)) (digit_encode6Bit (i + 3) (by omega)),
      hAccum, flush_eq front _ hOld, bytesOf_join, hTake,
      Nat.min_eq_left (by omega : 3 ≤ old.length)]
    refine hNext.trans ?_
    rw [List.append_assoc]
    rfl

theorem encodeBase64_length (bytes : List Byte) :
    (encodeBase64 bytes).length = 4 * ((bytes.length + 2) / 3) := by
  induction bytes using encodeBase64.induct with
  | case1 => rfl
  | case2 x1 => simp [encodeBase64]
  | case3 x1 x2 => simp [encodeBase64]
  | case4 x1 x2 x3 rest ih =>
    rw [encodeBase64]
    simp only [List.length_cons, ih]
    omega

/- The padding is decided by the last three characters. -/
theorem padding_append (t : List Byte) {s : List Byte} (hLong : 3 ≤ s.length) :
    padding (t ++ s) = padding s := by
  have hGet :
      ∀ k, 1 ≤ k → k ≤ 3 → (t ++ s).getD (t.length + s.length - k) 0 = s.getD (s.length - k) 0 := by
    intro k hk hk3
    rw [List.getD_append_right _ _ _ _ (by omega)]
    congr 1
    omega
  unfold padding
  simp only [List.length_append]
  rw [hGet 1 (by decide) (by decide), hGet 2 (by decide) (by decide),
    hGet 3 (by decide) (by decide)]
  have hAll : ∀ k, k ≤ 3 → k ≤ s.length ∧ k ≤ t.length + s.length := by
    intro k hk
    exact ⟨by omega, by omega⟩
  simp only [hAll 1 (by decide), hAll 2 (by decide), hAll 3 (by decide), true_and]

theorem padding_encodeBase64 (bytes : List Byte) :
    padding (encodeBase64 bytes) = padOf bytes.length := by
  induction bytes using encodeBase64.induct with
  | case1 => rfl
  | case2 x1 =>
    have hByte := x1.isLt
    rw [encodeBase64, second6_last]
    have hNot : encode6Bit (x1.toNat % 4 * 16) ≠ char '=' := encode6Bit_ne_pad (by omega)
    simp [padding, padOf, hNot]
  | case3 x1 x2 =>
    have hByte := x2.isLt
    rw [encodeBase64, third6_last]
    have hNot : encode6Bit (x2.toNat % 16 * 4) ≠ char '=' := encode6Bit_ne_pad (by omega)
    simp [padding, padOf, hNot]
  | case4 x1 x2 x3 rest ih =>
    have hPad : padOf (rest.length + 3) = padOf rest.length := by
      unfold padOf
      omega
    have hSame : padding (encodeBase64 (x1 :: x2 :: x3 :: rest)) = padOf rest.length := by
      rw [encodeBase64]
      by_cases hLast : rest = []
      · subst hLast
        have hNot : encode6Bit (x3.toNat &&& 0x3f) ≠ char '=' := by
          rw [low6]
          exact encode6Bit_ne_pad (Nat.mod_lt _ (by decide))
        simp [padding, padOf, encodeBase64, hNot]
      · have hSome := List.length_pos_iff.mpr hLast
        rw [← ih]
        exact padding_append [_, _, _, _] (by
          rw [encodeBase64_length]
          omega)
    exact hSame.trans hPad.symm

/- What was encoded is decoded, if there is memory for it. -/
theorem decodeBase64_encodeBase64 (malloc : Malloc) {bytes : List Byte}
    (hMalloc : (malloc bytes.length).isSome = true) :
    decodeBase64 malloc (encodeBase64 bytes) = .ok (some bytes) := by
  have hLength := encodeBase64_length bytes
  have hOut :
      (encodeBase64 bytes).length / 4 * 3 - padding (encodeBase64 bytes) = bytes.length := by
    rw [padding_encodeBase64, padOf, hLength]
    omega
  rcases Option.isSome_iff_exists.mp hMalloc with ⟨out, hOutSome⟩
  unfold decodeBase64
  simp only
  rw [if_neg (by omega), hOut, hOutSome]
  have hLoop :=
    loop_encodeBase64 (n := (encodeBase64 bytes).length) bytes 0 [] out.val rfl (Nat.zero_add _)
      (padding_encodeBase64 bytes) out.property
  simp only [List.length_nil, Nat.zero_add, List.nil_append, out.property] at hLoop
  exact hLoop

/-
  Every byte string survives, and decoding any string keeps to its contract unless it is one of the
  alphabet with three `=`.
-/
theorem codec_iff (malloc : Malloc) :
    (∀ bytes,
        (malloc bytes.length).isSome = true →
          decodeBase64 malloc (encodeBase64 bytes) = .ok (some bytes)) ∧
      ∀ s,
        Sound s (decodeBase64 malloc s) ↔
          ¬(Padded s 3 ∧ (malloc (decodedLength s)).isSome = true) :=
  ⟨fun _ hMalloc => decodeBase64_encodeBase64 malloc hMalloc, decodeBase64_sound_iff malloc⟩

/- Three `=`: a byte is written to a buffer of none. -/
theorem codec_overrun :
    decodeBase64 (fun n => some ⟨List.replicate n 0, by simp⟩) (['A', '=', '=', '='].map char) =
      .error .outside := by
  decide

end Base64

end Foundation

end FrameworksAv
