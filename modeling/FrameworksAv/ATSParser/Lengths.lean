import FrameworksAv.ATSParser.Parser
import Mathlib.Data.List.Induction

/-
  Which bytes the parsers stay inside.

  Every condition is about the lengths in the bytes, and says exactly when a parser reads no bit
  behind them and computes no length below zero.

  Main declarations:
    * `Parse.Fits`
    * `FieldsFit`, `PesFits`, `parsePES_fits`
    * `PatFits`, `parseProgramAssociationTable_fits`
    * `PmtFits`, `readProgramMap_fits`
-/

--
-- Parsers
--

namespace FrameworksAv

namespace ATSParser

theorem ofBits_lt (bits : List Bool) : ofBits bits < 2 ^ bits.length := by
  induction bits using List.reverseRecOn with
  | nil => decide
  | append_singleton bits b ih =>
    have hBit : ofBits [b] < 2 := by cases b <;> decide
    have hPow : 2 ^ (bits.length + 1) = 2 * 2 ^ bits.length := by
      rw [Nat.pow_succ, Nat.mul_comm]
    rw [ofBits_append, List.length_append, List.length_singleton, hPow]
    omega

theorem field_lt (bytes : List Byte) (pos n : Nat) : field bytes pos n < 2 ^ n := by
  apply Nat.lt_of_lt_of_le (ofBits_lt _)
  apply Nat.pow_le_pow_right (by decide)
  rw [List.length_take]
  omega

namespace Parse

variable {α β : Type}

/- No bit outside is read and no length is below zero. -/
def Fits (p : Parse α) (bytes : List Byte) (pos : Nat) : Prop :=
  ∃ x, p.reads bytes pos = some x

theorem pure_bind' (a : α) (f : α → Parse β) : pure a >>= f = f a :=
  rfl

theorem fits_pure (a : α) (bytes : List Byte) (pos : Nat) :
    (pure a : Parse α).Fits bytes pos ↔ True :=
  ⟨fun _ => trivial, fun _ => ⟨_, rfl⟩⟩

theorem fits_fail (f : α → Parse β) (bytes : List Byte) (pos : Nat) :
    ((fail : Parse α) >>= f).Fits bytes pos ↔ False := by
  constructor
  · rintro ⟨x, hReads⟩
    cases hReads
  · exact False.elim

theorem exists_ite_none {γ : Type} {c : Prop} [Decidable c] {o : Option γ} :
    (∃ x, (if c then o else none) = some x) ↔ c ∧ ∃ x, o = some x := by
  by_cases hc : c
  · rw [if_pos hc]
    exact ⟨fun h => ⟨hc, h⟩, And.right⟩
  · rw [if_neg hc]
    constructor
    · rintro ⟨x, hNone⟩
      cases hNone
    · exact fun h => absurd h.1 hc

theorem fits_get_bind (n : Nat) (f : Nat → Parse β) (bytes : List Byte) (pos : Nat) :
    (get n >>= f).Fits bytes pos ↔
      (n ≤ 32 ∧ pos + n ≤ 8 * bytes.length) ∧ (f (field bytes pos n)).Fits bytes (pos + n) := by
  unfold Fits
  rw [reads_get_bind]
  exact exists_ite_none

theorem fits_skip_bind (n : Nat) (f : Unit → Parse β) (bytes : List Byte) (pos : Nat) :
    (skip n >>= f).Fits bytes pos ↔ pos + n ≤ 8 * bytes.length ∧ (f ()).Fits bytes (pos + n) := by
  unfold Fits
  rw [reads_skip_bind]
  exact exists_ite_none

theorem fits_minus_bind (n : Int) (width : Nat) (f : Nat → Parse β) (bytes : List Byte)
    (pos : Nat) :
    (minus n width >>= f).Fits bytes pos ↔ 0 ≤ n ∧ (f (n % 2 ^ width).toNat).Fits bytes pos := by
  unfold Fits
  rw [reads_minus_bind]
  exact exists_ite_none

theorem fits_left_bind (f : Nat → Parse β) (bytes : List Byte) (pos : Nat) :
    (left >>= f).Fits bytes pos ↔ (f (8 * bytes.length - pos)).Fits bytes pos :=
  Iff.rfl

theorem fits_rest_bind (f : List Byte → Parse β) (bytes : List Byte) (pos : Nat) :
    (rest >>= f).Fits bytes pos ↔ (f (bytes.drop (pos / 8))).Fits bytes pos :=
  Iff.rfl

theorem fits_require_bind (c : Prop) [Decidable c] (f : Unit → Parse β) (bytes : List Byte)
    (pos : Nat) : (require c >>= f).Fits bytes pos ↔ (c → (f ()).Fits bytes pos) := by
  unfold Fits
  rw [reads_require_bind]
  by_cases hc : c
  · rw [if_pos hc]
    exact ⟨fun h _ => h, fun h => h hc⟩
  · rw [if_neg hc]
    exact ⟨fun _ h => absurd h hc, fun _ => ⟨_, rfl⟩⟩

theorem fits_expect_bind (n v : Nat) (f : Unit → Parse β) (bytes : List Byte) (pos : Nat) :
    (expect n v >>= f).Fits bytes pos ↔
      (n ≤ 32 ∧ pos + n ≤ 8 * bytes.length) ∧
        (field bytes pos n = v → (f ()).Fits bytes (pos + n)) := by
  unfold expect
  rw [bind_bind, fits_get_bind, fits_require_bind]

end Parse

--
-- PES packets
--

open Parse

/-
  Fields of some widths, with the values that some must have, lie inside, up to the first one that
  has another value.
-/
def FieldsFit (bytes : List Byte) (next : Nat → Prop) : List (Nat × Option Nat) → Nat → Prop
| [], pos => next pos
| (n, v) :: fields, pos =>
  pos + n ≤ 8 * bytes.length ∧
    ((∀ x ∈ v, field bytes pos n = x) → FieldsFit bytes next fields (pos + n))

/- Fields that are there only if a flag says so. -/
def OptionalFit (bytes : List Byte) (present : Prop) [Decidable present] (size : Nat)
    (fields : List (Nat × Option Nat)) (next : Nat → Nat → Prop) (remaining pos : Nat) : Prop :=
  if present then size ≤ remaining → FieldsFit bytes (next (remaining - size)) fields pos
  else next remaining pos

def clockFields : List (Nat × Option Nat) :=
  [(3, none), (1, some 1), (15, none), (1, some 1), (15, none), (1, some 1)]

/- The optional part of a PES header, of a length. -/
def PesHeaderFits (bytes : List Byte) : Nat → Nat → Prop :=
  let PTS_DTS_flags := field bytes 56 2
  let ESCR_flag := field bytes 58 1
  let ES_rate_flag := field bytes 59 1
  OptionalFit bytes (PTS_DTS_flags = 2 ∨ PTS_DTS_flags = 3) 5
      ((4, some PTS_DTS_flags) :: clockFields)
    (OptionalFit bytes (PTS_DTS_flags = 3) 5 ((4, some 1) :: clockFields)
      (OptionalFit bytes (ESCR_flag ≠ 0) 6 ((2, none) :: clockFields ++ [(9, none), (1, some 1)])
        (OptionalFit bytes (ES_rate_flag ≠ 0) 3 [(1, some 1), (22, none), (1, some 1)]
          (fun remaining pos =>
            pos + remaining * 8 ≤ 8 * bytes.length))))

/- The bytes hold the PES header, and what has none. -/
def PesFits (bytes : List Byte) : Prop :=
  let stream_id := field bytes 24 8
  let PES_packet_length := field bytes 32 16
  let PES_header_data_length := field bytes 64 8
  FieldsFit bytes
    (fun _ =>
      if stream_id ∉ withoutHeader then
        FieldsFit bytes (PesHeaderFits bytes PES_header_data_length)
          [(2, some 2), (2, none), (1, none), (1, none), (1, none), (1, none), (2, none), (1, none),
            (1, none), (1, none), (1, none), (1, none), (1, none), (8, none)]
          48
      else PES_packet_length ≠ 0 → 48 + PES_packet_length * 8 ≤ 8 * bytes.length)
    [(24, some 1), (8, none), (16, none)] 0

variable {β : Type} {bytes : List Byte}

theorem fieldsFit_nil (next : Nat → Prop) (pos : Nat) : FieldsFit bytes next [] pos ↔ next pos :=
  Iff.rfl

theorem fieldsFit_any (next : Nat → Prop) (n : Nat) (fields : List (Nat × Option Nat)) (pos : Nat) :
    FieldsFit bytes next ((n, none) :: fields) pos ↔
      pos + n ≤ 8 * bytes.length ∧ FieldsFit bytes next fields (pos + n) := by
  constructor
  · rintro ⟨hIn, hRest⟩
    exact ⟨hIn, hRest (fun x hx => nomatch hx)⟩
  · rintro ⟨hIn, hRest⟩
    exact ⟨hIn, fun _ => hRest⟩

theorem fieldsFit_value (next : Nat → Prop) (n v : Nat) (fields : List (Nat × Option Nat))
    (pos : Nat) :
    FieldsFit bytes next ((n, some v) :: fields) pos ↔
      pos + n ≤ 8 * bytes.length ∧
        (field bytes pos n = v → FieldsFit bytes next fields (pos + n)) := by
  constructor
  · rintro ⟨hIn, hRest⟩
    refine ⟨hIn, fun hEq => hRest ?_⟩
    intro x hx
    rw [hEq]
    exact Option.some.inj hx
  · rintro ⟨hIn, hRest⟩
    exact ⟨hIn, fun hAll => hRest (hAll v rfl)⟩

theorem optionalFit_present {present : Prop} [Decidable present] (hPresent : present) (size : Nat)
    (fields : List (Nat × Option Nat)) (next : Nat → Nat → Prop) (remaining pos : Nat) :
    OptionalFit bytes present size fields next remaining pos ↔
      (size ≤ remaining → FieldsFit bytes (next (remaining - size)) fields pos) := by
  unfold OptionalFit
  rw [if_pos hPresent]

theorem optionalFit_absent {present : Prop} [Decidable present] (hAbsent : ¬ present) (size : Nat)
    (fields : List (Nat × Option Nat)) (next : Nat → Nat → Prop) (remaining pos : Nat) :
    OptionalFit bytes present size fields next remaining pos ↔
      next remaining pos := by
  unfold OptionalFit
  rw [if_neg hAbsent]

theorem parseClock_fits {f : Nat → Parse β} {next : Nat → Prop}
    (hf : ∀ v pos, (f v).Fits bytes pos ↔ next pos) (pos : Nat) :
    (parseClock >>= f).Fits bytes pos ↔ FieldsFit bytes next clockFields pos := by
  unfold parseClock clockFields
  simp only [bind_bind, pure_bind', fits_get_bind, fits_expect_bind, fieldsFit_any, fieldsFit_value,
    fieldsFit_nil, hf, Nat.reduceLeDiff, true_and]

theorem parsePTS_fits {PTS_DTS_flags remaining : Nat} {f : Nat × Nat × Nat → Parse β}
    {next : Nat → Nat → Prop} (hf : ∀ PTS DTS r pos, (f (PTS, DTS, r)).Fits bytes pos ↔ next r pos)
    (pos : Nat) :
    (parsePTS PTS_DTS_flags remaining >>= f).Fits bytes pos ↔
      OptionalFit bytes (PTS_DTS_flags = 2 ∨ PTS_DTS_flags = 3) 5
        ((4, some PTS_DTS_flags) :: clockFields)
        (OptionalFit bytes (PTS_DTS_flags = 3) 5 ((4, some 1) :: clockFields) next)
        remaining pos := by
  have hDTS :
      ∀ PTS pos,
        (parseDTS PTS_DTS_flags (remaining - 5) >>= fun r =>
            pure (PTS, r) >>= f).Fits bytes pos ↔
          OptionalFit bytes (PTS_DTS_flags = 3) 5 ((4, some 1) :: clockFields) next (remaining - 5)
            pos := by
    intro PTS pos
    unfold parseDTS
    by_cases hPresent : PTS_DTS_flags = 3
    · rw [if_pos hPresent, optionalFit_present hPresent]
      simp only [bind_bind, fits_require_bind, fits_expect_bind, fieldsFit_value, pure_bind',
        Nat.reduceLeDiff, true_and]
      rw [parseClock_fits]
      intro v pos
      exact hf PTS v _ pos
    · rw [if_neg hPresent, optionalFit_absent hPresent]
      exact hf PTS 0 _ pos
  unfold parsePTS
  by_cases hPresent : PTS_DTS_flags = 2 ∨ PTS_DTS_flags = 3
  · rw [if_pos hPresent, optionalFit_present hPresent]
    simp only [bind_bind, fits_require_bind, fits_expect_bind,
      fieldsFit_value, Nat.reduceLeDiff, true_and]
    rw [parseClock_fits (fun v pos => hDTS v pos)]
  · have hAbsent : ¬ PTS_DTS_flags = 3 := fun hEq => hPresent (Or.inr hEq)
    rw [if_neg hPresent, optionalFit_absent hPresent, optionalFit_absent hAbsent, pure_bind']
    exact hf 0 0 _ pos

theorem parseESCR_fits {ESCR_flag remaining : Nat} {f : Nat → Parse β} {next : Nat → Nat → Prop}
    (hf : ∀ r pos, (f r).Fits bytes pos ↔ next r pos) (pos : Nat) :
    (parseESCR ESCR_flag remaining >>= f).Fits bytes pos ↔
      OptionalFit bytes (ESCR_flag ≠ 0) 6 ((2, none) :: clockFields ++ [(9, none), (1, some 1)])
        next remaining pos := by
  unfold parseESCR
  by_cases hPresent : ESCR_flag ≠ 0
  · rw [if_pos hPresent, optionalFit_present hPresent]
    unfold parseClock clockFields
    simp only [bind_bind, pure_bind', fits_require_bind,
      fits_get_bind, fits_expect_bind, List.cons_append,
      List.nil_append, fieldsFit_any, fieldsFit_value,
      fieldsFit_nil, hf, Nat.reduceLeDiff, true_and]
  · rw [if_neg hPresent, optionalFit_absent hPresent]
    exact hf _ pos

theorem parseESRate_fits {ES_rate_flag remaining : Nat} {f : Nat → Parse β}
    {next : Nat → Nat → Prop} (hf : ∀ r pos, (f r).Fits bytes pos ↔ next r pos) (pos : Nat) :
    (parseESRate ES_rate_flag remaining >>= f).Fits bytes pos ↔
      OptionalFit bytes (ES_rate_flag ≠ 0) 3 [(1, some 1), (22, none), (1, some 1)]
        next remaining pos := by
  unfold parseESRate
  by_cases hPresent : ES_rate_flag ≠ 0
  · rw [if_pos hPresent, optionalFit_present hPresent]
    simp only [bind_bind, pure_bind', fits_require_bind,
      fits_get_bind, fits_expect_bind, fieldsFit_any,
      fieldsFit_value, fieldsFit_nil, hf, Nat.reduceLeDiff, true_and]
  · rw [if_neg hPresent, optionalFit_absent hPresent]
    exact hf _ pos

/- The data is taken only if it is all there. -/
theorem parseData_fits (PES_packet_length PES_header_data_length : Nat)
    (PTS_DTS_flags PTS DTS : Nat) {pos : Nat} (hPos : pos ≤ 8 * bytes.length) :
    (parseData PES_packet_length PES_header_data_length PTS_DTS_flags PTS DTS).Fits bytes pos := by
  unfold parseData
  split
  · simp only [fits_require_bind, fits_left_bind,
      fits_rest_bind, fits_skip_bind, fits_pure, and_true]
    intro _ hEnough
    omega
  · exact ⟨_, rfl⟩

/- The header from its first two bits on, at its place. -/
theorem parseHeader_fits (PES_packet_length : Nat) :
    (parseHeader PES_packet_length).Fits bytes 48 ↔
      FieldsFit bytes (PesHeaderFits bytes (field bytes 64 8))
        [(2, some 2), (2, none), (1, none), (1, none), (1, none), (1, none), (2, none), (1, none),
          (1, none), (1, none), (1, none), (1, none), (1, none), (8, none)]
        48 := by
  have hData :
      ∀ flags PTS DTS remaining pos,
        (skip (remaining * 8) >>= fun _ =>
              parseData PES_packet_length (field bytes 64 8) flags PTS DTS).Fits bytes pos ↔
          pos + remaining * 8 ≤ 8 * bytes.length := by
    intro flags PTS DTS remaining pos
    rw [fits_skip_bind]
    exact ⟨And.left, fun hFit => ⟨hFit, parseData_fits _ _ _ _ _ hFit⟩⟩
  unfold parseHeader PesHeaderFits
  simp only [fits_expect_bind, fits_get_bind, fieldsFit_value,
    fieldsFit_any, fieldsFit_nil, Nat.reduceLeDiff, true_and, Nat.reduceAdd]
  rw [parsePTS_fits]
  intro PTS DTS remaining pos
  simp only
  rw [parseESCR_fits]
  intro remaining pos
  rw [parseESRate_fits]
  intro remaining pos
  exact hData _ PTS DTS remaining pos

/- A PES packet is taken apart inside its bytes. -/
theorem parsePES_fits (bytes : List Byte) : parsePES.Fits bytes 0 ↔ PesFits bytes := by
  unfold parsePES PesFits
  simp only [fits_expect_bind, fits_get_bind, fieldsFit_value _ 24,
    fieldsFit_any _ 8, fieldsFit_any _ 16, fieldsFit_nil,
    Nat.reduceLeDiff, true_and, Nat.zero_add, Nat.reduceAdd]
  apply and_congr_right
  intro _
  apply imp_congr_right
  intro _
  apply and_congr_right
  intro _
  apply and_congr_right
  intro _
  by_cases hHeader : field bytes 24 8 ∉ withoutHeader
  · rw [if_pos hHeader, if_pos hHeader]
    exact parseHeader_fits _
  · rw [if_neg hHeader, if_neg hHeader]
    simp only [fits_require_bind, fits_skip_bind, fits_pure, and_true]

end ATSParser

--
-- Tables
--

namespace ATSParser

open Parse

/- The section is long enough for its header and checksum. -/
def PatFits (bytes : List Byte) : Prop :=
  field bytes 0 8 = 0x00 → 9 ≤ field bytes 12 12

/-
  The descriptors of a stream lie in the bytes that the stream has for them, up to one that is
  longer than all these bytes.
-/
def DescriptorsFit (bytes : List Byte) (next : Nat → Prop) (remaining pos : Nat) : Prop :=
  let descLength := field bytes (pos + 8) 8
  if remaining < 2 then next pos
  else
    pos + 16 ≤ 8 * bytes.length ∧
      (descLength ≤ remaining →
        descLength + 2 ≤ remaining ∧ pos + 16 + descLength * 8 ≤ 8 * bytes.length ∧
          DescriptorsFit bytes next (remaining - (descLength + 2)) (pos + 16 + descLength * 8))
termination_by remaining

/- The streams lie in the bytes of the section for them. -/
def StreamsFit (bytes : List Byte) (remaining pos : Nat) : Prop :=
  let ES_info_length := field bytes (pos + 28) 12
  if remaining < 5 then pos + 32 ≤ 8 * bytes.length
  else
    pos + 40 ≤ 8 * bytes.length ∧
      DescriptorsFit bytes
        (fun pos =>
          5 + ES_info_length ≤ remaining ∧ StreamsFit bytes (remaining - (5 + ES_info_length)) pos)
        ES_info_length (pos + 40)
termination_by remaining

/- The parts of a program map section lie inside it. -/
def PmtFits (bytes : List Byte) : Prop :=
  let section_length := field bytes 12 12
  let program_info_length := field bytes 84 12
  8 ≤ 8 * bytes.length ∧
    (field bytes 0 8 = 0x02 →
      9 ≤ 8 * bytes.length ∧
        (field bytes 8 1 = 1 →
          96 + program_info_length * 8 ≤ 8 * bytes.length ∧
            13 + program_info_length ≤ section_length ∧
            StreamsFit bytes (section_length - (13 + program_info_length))
              (96 + program_info_length * 8)))

variable {β : Type} {bytes : List Byte}

theorem toNat_emod {n m : Nat} {width : Nat} (hLt : n < 2 ^ width) (hLe : m ≤ n) :
    (((n : Int) - m) % 2 ^ width).toNat = n - m := by
  have hEq : ((n : Int) - m) = ((n - m : Nat) : Int) := by
    omega
  have hPow : ((2 : Int) ^ width) = ((2 ^ width : Nat) : Int) := by
    simp
  rw [hEq, hPow, ← Int.natCast_emod, Int.toNat_natCast, Nat.mod_eq_of_lt (by omega)]

theorem parseAssociations_fits (n : Nat) (p : Parser) {f : Parser → Parse β} {k : Nat}
    (hf : ∀ q pos, (f q).Fits bytes pos ↔ pos + k ≤ 8 * bytes.length) (pos : Nat) :
    (Parser.parseAssociations n p >>= f).Fits bytes pos ↔ pos + 32 * n + k ≤ 8 * bytes.length := by
  induction n generalizing p pos with
  | zero => exact hf p pos
  | succ n ih =>
    unfold Parser.parseAssociations
    simp only [bind_bind, fits_get_bind, ih]
    omega

theorem parseProgramAssociationTable_fits (p : Parser)
    (hLength : field bytes 12 12 + 3 ≤ bytes.length) :
    p.parseProgramAssociationTable.Fits bytes 0 ↔ PatFits bytes := by
  have hBound := field_lt bytes 12 12
  have hCRC :
      ∀ (q : Parser) pos,
        (get 32 >>= fun _ => (pure q : Parse Parser)).Fits bytes pos ↔
          pos + 32 ≤ 8 * bytes.length := by
    intro q pos
    simp only [fits_get_bind, fits_pure, and_true, Nat.le_refl, true_and]
  unfold Parser.parseProgramAssociationTable PatFits
  rw [fits_get_bind]
  by_cases hTable : field bytes 0 8 = 0
  · rw [if_neg (not_not_intro hTable)]
    simp only [fits_get_bind, fits_skip_bind, fits_minus_bind,
      parseAssociations_fits _ _ hCRC, Nat.zero_add, Nat.reduceAdd, hTable, true_imp_iff]
    omega
  · rw [if_pos hTable, fits_pure]
    constructor
    · intro _ hZero
      exact absurd hZero hTable
    · intro _
      refine ⟨⟨by decide, by omega⟩, trivial⟩

theorem parseDescriptors_fits (turns remaining pos : Nat) {f : Unit → Parse β} {next : Nat → Prop}
    (hTurns : 8 * bytes.length ≤ turns + pos) (hRemaining : remaining < 2 ^ 32)
    (hf : ∀ q, pos ≤ q → ((f ()).Fits bytes q ↔ next q)) :
    (parseDescriptors turns remaining >>= f).Fits bytes pos ↔
      DescriptorsFit bytes next remaining pos := by
  induction turns generalizing remaining pos with
  | zero =>
    unfold parseDescriptors DescriptorsFit
    split
    · exact hf pos (Nat.le_refl pos)
    · rw [fits_fail]
      constructor
      · exact False.elim
      · rintro ⟨hIn, _⟩
        omega
  | succ turns ih =>
    unfold parseDescriptors
    rw [DescriptorsFit]
    by_cases hDone : remaining < 2
    · rw [if_pos hDone]
      simp only [hDone, if_true]
      exact hf pos (Nat.le_refl pos)
    · rw [if_neg hDone]
      simp only [hDone, if_false, bind_bind, fits_get_bind,
        fits_require_bind, fits_skip_bind, fits_minus_bind]
      generalize hLen : field bytes (pos + 8) 8 = len
      have hNext :
          len + 2 ≤ remaining →
            ((parseDescriptors turns
                    (((remaining : Int) - ((len : Int) + 2)) % 2 ^ 32).toNat >>= f).Fits bytes
                  (pos + 8 + 8 + len * 8) ↔
              DescriptorsFit bytes next (remaining - (len + 2)) (pos + 16 + len * 8)) := by
        intro hLe
        have hEq := toNat_emod hRemaining hLe
        rw [Nat.cast_add, Nat.cast_ofNat] at hEq
        rw [hEq]
        apply ih
        · omega
        · omega
        · intro q hq
          exact hf q (by omega)
      constructor
      · rintro ⟨_, ⟨_, hIn⟩, hRest⟩
        refine ⟨by omega, fun hLe => ?_⟩
        rcases hRest hLe with ⟨hBytes, hNonneg, hFits⟩
        have hEnough : len + 2 ≤ remaining := by omega
        exact ⟨hEnough, by omega, (hNext hEnough).mp hFits⟩
      · rintro ⟨hIn, hRest⟩
        refine ⟨⟨by decide, by omega⟩, ⟨by decide, by omega⟩, fun hLe => ?_⟩
        rcases hRest hLe with ⟨hEnough, hBytes, hFits⟩
        exact ⟨by omega, by omega, (hNext hEnough).mpr hFits⟩

theorem parseStreamInfos_fits {turns remaining pos : Nat} {infos : List StreamInfo}
    {f : List StreamInfo → Parse β} (hTurns : 8 * bytes.length ≤ turns + pos)
    (hRemaining : remaining < 2 ^ 32)
    (hf : ∀ infos q, (f infos).Fits bytes q ↔ q + 32 ≤ 8 * bytes.length) :
    (parseStreamInfos turns remaining infos >>= f).Fits bytes pos ↔
      StreamsFit bytes remaining pos := by
  induction turns generalizing remaining pos infos with
  | zero =>
    unfold parseStreamInfos StreamsFit
    split
    · exact hf infos pos
    · rw [fits_fail]
      constructor
      · exact False.elim
      · rintro ⟨hIn, _⟩
        omega
  | succ turns ih =>
    unfold parseStreamInfos
    rw [StreamsFit]
    by_cases hDone : remaining < 5
    · rw [if_pos hDone]
      simp only [hDone, if_true]
      exact hf infos pos
    · rw [if_neg hDone]
      simp only [hDone, if_false, bind_bind, fits_get_bind, fits_left_bind]
      generalize hLen : field bytes (pos + 8 + 3 + 13 + 4) 12 = len
      have hSmall := field_lt bytes (pos + 8 + 3 + 13 + 4) 12
      rw [hLen] at hSmall
      have hNext :
          ∀ q, pos + 40 ≤ q →
            ((minus ((remaining : Int) - (5 + (len : Int))) 64 >>= fun r =>
                  parseStreamInfos turns r
                      (infos ++ [⟨field bytes pos 8, field bytes (pos + 8 + 3) 13⟩]) >>=
                    f).Fits bytes q ↔
              5 + len ≤ remaining ∧ StreamsFit bytes (remaining - (5 + len)) q) := by
        intro q hq
        rw [fits_minus_bind]
        by_cases hEnough : 5 + len ≤ remaining
        · have hEq := toNat_emod (by omega : remaining < 2 ^ 64) hEnough
          rw [Nat.cast_add, Nat.cast_ofNat] at hEq
          rw [hEq, ih (by omega) (by omega)]
          constructor
          · exact fun h => ⟨hEnough, h.2⟩
          · exact fun h => ⟨by omega, h.2⟩
        · constructor
          · exact fun h => absurd h.1 (by omega)
          · exact fun h => absurd h.1 hEnough
      have hTurnsInner :
          8 * bytes.length ≤
            8 * bytes.length - (pos + 8 + 3 + 13 + 4 + 12) + (pos + 8 + 3 + 13 + 4 + 12) := by
        omega
      rw [parseDescriptors_fits _ len _ hTurnsInner (by omega) (fun q hq => hNext q (by omega))]
      constructor
      · rintro ⟨_, _, _, _, ⟨_, hIn⟩, hFits⟩
        exact ⟨by omega, hFits⟩
      · rintro ⟨hIn, hFits⟩
        exact
          ⟨⟨by decide, by omega⟩, ⟨by decide, by omega⟩,
            ⟨by decide, by omega⟩, ⟨by decide, by omega⟩, ⟨by decide, by omega⟩, hFits⟩

theorem readProgramMap_fits (bytes : List Byte) : readProgramMap.Fits bytes 0 ↔ PmtFits bytes := by
  have hBound := field_lt bytes 12 12
  have hInfo := field_lt bytes 84 12
  unfold readProgramMap PmtFits
  simp only [fits_get_bind, fits_skip_bind, fits_require_bind,
    fits_minus_bind, fits_left_bind, Nat.zero_add, Nat.reduceAdd, Nat.reduceLeDiff, true_and]
  have hCRC :
      ∀ (infos : List StreamInfo) q,
        (get 32 >>= fun _ =>
              (pure (field bytes 67 13, infos) : Parse (Nat × List StreamInfo))).Fits bytes q ↔
          q + 32 ≤ 8 * bytes.length := by
    intro infos q
    simp only [fits_get_bind, fits_pure, and_true, Nat.le_refl, true_and]
  generalize hInfoLength : field bytes 84 12 = info at *
  generalize hLength : field bytes 12 12 = length at *
  have hStreams :
      13 + info ≤ length →
        ((parseStreamInfos (8 * bytes.length - (96 + info * 8))
                (((length : Int) - 9 - (info : Int) - 4) % 2 ^ 32).toNat [] >>= fun infos =>
              get 32 >>= fun _ =>
                (pure (field bytes 67 13, infos) : Parse (Nat × List StreamInfo))).Fits bytes
              (96 + info * 8) ↔
          StreamsFit bytes (length - (13 + info)) (96 + info * 8)) := by
    intro hLe
    have hEq := toNat_emod (by omega : length < 2 ^ 32) hLe
    have hSame :
        (length : Int) - ((13 + info : Nat) : Int) = (length : Int) - 9 - (info : Int) - 4 := by
      omega
    rw [hSame] at hEq
    rw [hEq]
    exact parseStreamInfos_fits (by omega) (by omega) hCRC
  apply and_congr_right
  intro _
  apply imp_congr_right
  intro _
  apply and_congr_right
  intro _
  apply imp_congr_right
  intro _
  constructor
  · rintro ⟨_, _, _, _, _, _, _, _, _, _, _, _, _, hIn, hNonneg, hFits⟩
    have hLe : 13 + info ≤ length := by omega
    exact ⟨hIn, hLe, (hStreams hLe).mp hFits⟩
  · rintro ⟨hIn, hLe, hFits⟩
    refine ⟨by omega, by omega, by omega, by omega, by omega,
      by omega, by omega, by omega, by omega, by omega, by omega, by omega, by omega, hIn, by omega,
      (hStreams hLe).mpr hFits⟩

end ATSParser

end FrameworksAv
