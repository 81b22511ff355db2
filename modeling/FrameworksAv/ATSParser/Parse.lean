import FrameworksAv.ATSParser.BitReader

/-
  Parsers as the calls that they make of their reader.

  `run` makes the calls of an `ABitReader`, with lengths that wrap around below zero. `reads` is the
  same parser over bytes and a position, and has no result when a field is outside the bytes or a
  length below zero.

  Main declarations:
    * `Checked`
    * `Parse`, `Parse.run`, `Parse.reads`
    * `Parse.reads_bind`
    * `Parse.run_of_reads`, `Parse.reads_of_run`
-/

--
-- Parsers
--

namespace FrameworksAv

namespace ATSParser

inductive Status where
| OK
| BAD_VALUE
| ERROR_MALFORMED
deriving DecidableEq

/-
  Code that may fail a `CHECK`, with a note of whether a length that it computed has wrapped below
  zero.
-/
def Checked (α : Type) := Option (α × Bool)

namespace Checked

variable {α β : Type}

instance : Monad Checked where
  pure a := some (a, false)
  bind x f :=
    Option.bind x (fun q =>
      Option.map (fun s => (s.1, q.2 || s.2)) (f q.1))

protected theorem id_map' (x : Checked α) : id <$> x = x := by
  rcases x with _ | ⟨a, v⟩
  · rfl
  · cases v with
    | false => rfl
    | true => rfl

protected theorem pure_bind' (a : α) (f : α → Checked β) : pure a >>= f = f a := by
  show Option.map (fun s => (s.1, false || s.2)) (f a) = f a
  rcases f a with _ | ⟨b, w⟩
  · rfl
  · rfl

protected theorem bind_assoc' {γ : Type} (x : Checked α) (f : α → Checked β) (g : β → Checked γ) :
    x >>= f >>= g = x >>= fun a => f a >>= g := by
  rcases x with _ | ⟨a, v⟩
  · rfl
  · show
      Option.bind (Option.map (fun s => (s.1, v || s.2)) (f a))
          (fun q =>
            Option.map (fun s => (s.1, q.2 || s.2)) (g q.1)) =
        Option.map (fun s => (s.1, v || s.2))
          (Option.bind (f a)
            (fun q =>
              Option.map (fun s => (s.1, q.2 || s.2)) (g q.1)))
    rcases f a with _ | ⟨b, w⟩
    · rfl
    · show
        Option.map (fun s => (s.1, v || w || s.2)) (g b) =
          Option.map (fun s => (s.1, v || s.2)) (Option.map (fun s => (s.1, w || s.2)) (g b))
      rcases g b with _ | ⟨c, u⟩
      · rfl
      · exact congrArg (fun o => some (c, o)) (Bool.or_assoc v w u)

instance : LawfulMonad Checked :=
  LawfulMonad.mk' _ Checked.id_map' Checked.pure_bind' Checked.bind_assoc'

theorem pure_eq_some {a b : α} {w : Bool} :
    (pure a : Checked α) = some (b, w) ↔ a = b ∧ false = w := by
  show some (a, false) = some (b, w) ↔ _
  rw [Option.some.injEq, Prod.mk.injEq]

theorem bind_eq_some {x : Checked α} {f : α → Checked β} {b : β} {w : Bool} :
    (x >>= f) = some (b, w) ↔ ∃ a v u, x = some (a, v) ∧ f a = some (b, u) ∧ (v || u) = w := by
  constructor
  · intro hBind
    rcases Option.bind_eq_some_iff.mp hBind with ⟨⟨a, v⟩, hFirst, hRest⟩
    rcases Option.map_eq_some_iff.mp hRest with ⟨⟨b', u⟩, hSecond, hEq⟩
    cases hEq
    exact ⟨a, v, u, hFirst, hSecond, rfl⟩
  · rintro ⟨a, v, u, hFirst, hSecond, hEq⟩
    rw [hFirst]
    show Option.map (fun s => (s.1, v || s.2)) (f a) = _
    rw [hSecond, ← hEq]
    rfl

/- Neither has a check failed nor a length wrapped. -/
def Clean (x : Checked α) : Prop := ∃ a, x = some (a, false)

theorem clean_pure (a : α) : (pure a : Checked α).Clean :=
  ⟨a, rfl⟩

theorem clean_bind {x : Checked α} {f : α → Checked β} :
    (x >>= f).Clean ↔ ∃ a, x = some (a, false) ∧ (f a).Clean := by
  unfold Clean
  constructor
  · rintro ⟨b, hBind⟩
    rcases bind_eq_some.mp hBind with ⟨a, v, u, hFirst, hSecond, hOr⟩
    rcases Bool.or_eq_false_iff.mp hOr with ⟨hv, hu⟩
    rw [hv] at hFirst
    rw [hu] at hSecond
    exact ⟨a, hFirst, b, hSecond⟩
  · rintro ⟨a, hFirst, b, hSecond⟩
    exact ⟨b, bind_eq_some.mpr ⟨a, false, false, hFirst, hSecond, rfl⟩⟩

end Checked

/-
  `done none` is a return with `ERROR_MALFORMED`, and `length n width` is the result of a
  subtraction of unsigned integers of that many bits.
-/
inductive Parse (α : Type) where
| done (result : Option α)
| getBits (n : Nat) (rest : Nat → Parse α)
| skipBits (n : Nat) (rest : Parse α)
| numBitsLeft (rest : Nat → Parse α)
| data (rest : List Byte → Parse α)
| length (n : Int) (width : Nat) (rest : Nat → Parse α)
| fail

namespace Parse

variable {α β : Type}

protected def bind : Parse α → (α → Parse β) → Parse β
| done (some a), f => f a
| done none, _ => done none
| getBits n rest, f => getBits n (fun v => (rest v).bind f)
| skipBits n rest, f => skipBits n (rest.bind f)
| numBitsLeft rest, f => numBitsLeft (fun v => (rest v).bind f)
| data rest, f => data (fun v => (rest v).bind f)
| length n width rest, f => length n width (fun v => (rest v).bind f)
| fail, _ => fail

instance : Monad Parse where
  pure a := done (some a)
  bind := Parse.bind

/- Return with `ERROR_MALFORMED`. -/
def malformed : Parse α := done none

def get (n : Nat) : Parse Nat := getBits n pure

def skip (n : Nat) : Parse Unit := skipBits n (pure ())

def left : Parse Nat := numBitsLeft pure

def rest : Parse (List Byte) := data pure

def minus (n : Int) (width : Nat) : Parse Nat :=
  length n width pure

/- Return with an error unless the condition holds. -/
def require (c : Prop) [Decidable c] : Parse Unit :=
  if c then pure () else malformed

/- Return with an error if the next bits are others. -/
def expect (n v : Nat) : Parse Unit := do
  let b ← get n
  require (b = v)

def run : Parse α → ABitReader → Checked (Option α × ABitReader)
| done x, r => some ((x, r), false)
| getBits n rest, r => Option.bind (r.getBits n) (fun q => run (rest q.1) q.2)
| skipBits n rest, r => Option.bind (r.skipBits n) (run rest)
| numBitsLeft rest, r => run (rest r.numBitsLeft) r
| data rest, r => run (rest r.data) r
| length n width rest, r =>
  Option.map (fun s => (s.1, decide (n < 0) || s.2)) (run (rest (n % 2 ^ width).toNat) r)
| fail, _ => none

/- The same parser over bytes and a position. -/
def reads : Parse α → List Byte → Nat → Option (Option α × Nat)
| done x, _, pos => some (x, pos)
| getBits n rest, bytes, pos =>
  if n ≤ 32 ∧ pos + n ≤ 8 * bytes.length then reads (rest (field bytes pos n)) bytes (pos + n)
  else none
| skipBits n rest, bytes, pos =>
  if pos + n ≤ 8 * bytes.length then reads rest bytes (pos + n)
  else none
| numBitsLeft rest, bytes, pos => reads (rest (8 * bytes.length - pos)) bytes pos
| data rest, bytes, pos => reads (rest (bytes.drop (pos / 8))) bytes pos
| length n width rest, bytes, pos =>
  if 0 ≤ n then reads (rest (n % 2 ^ width).toNat) bytes pos
  else none
| fail, _, _ => none

--
-- Positions
--

/- What comes after a parser reads on from where it stopped. -/
def after (f : α → Parse β) (bytes : List Byte) : Option α × Nat → Option (Option β × Nat)
| (some a, pos) => (f a).reads bytes pos
| (none, pos) => some (none, pos)

theorem reads_bind (p : Parse α) (f : α → Parse β) (bytes : List Byte) (pos : Nat) :
    (p >>= f).reads bytes pos = (p.reads bytes pos).bind (after f bytes) := by
  show (p.bind f).reads bytes pos = _
  induction p generalizing pos with
  | done x =>
    cases x with
    | some a => rfl
    | none => rfl
  | getBits n rest ih =>
    unfold Parse.bind reads
    split
    · exact ih _ _
    · rfl
  | skipBits n rest ih =>
    unfold Parse.bind reads
    split
    · exact ih _
    · rfl
  | numBitsLeft rest ih => exact ih _ _
  | data rest ih => exact ih _ _
  | length n width rest ih =>
    unfold Parse.bind reads
    split
    · exact ih _ _
    · rfl
  | fail => rfl

@[simp] theorem reads_pure (a : α) (bytes : List Byte) (pos : Nat) :
    (pure a : Parse α).reads bytes pos = some (some a, pos) :=
  rfl

theorem reads_get_bind (n : Nat) (f : Nat → Parse β) (bytes : List Byte) (pos : Nat) :
    (get n >>= f).reads bytes pos =
      if n ≤ 32 ∧ pos + n ≤ 8 * bytes.length then (f (field bytes pos n)).reads bytes (pos + n)
      else none :=
  rfl

theorem reads_skip_bind (n : Nat) (f : Unit → Parse β) (bytes : List Byte) (pos : Nat) :
    (skip n >>= f).reads bytes pos = if pos + n ≤ 8 * bytes.length then (f ()).reads bytes (pos + n)
      else none :=
  rfl

theorem reads_skip (n : Nat) (bytes : List Byte) (pos : Nat) :
    (skip n).reads bytes pos = if pos + n ≤ 8 * bytes.length then some (some (), pos + n)
      else none :=
  rfl

theorem reads_left_bind (f : Nat → Parse β) (bytes : List Byte) (pos : Nat) :
    (left >>= f).reads bytes pos = (f (8 * bytes.length - pos)).reads bytes pos :=
  rfl

theorem reads_rest_bind (f : List Byte → Parse β) (bytes : List Byte) (pos : Nat) :
    (rest >>= f).reads bytes pos = (f (bytes.drop (pos / 8))).reads bytes pos :=
  rfl

theorem reads_minus_bind (n : Int) (width : Nat) (f : Nat → Parse β) (bytes : List Byte)
    (pos : Nat) :
    (minus n width >>= f).reads bytes pos = if 0 ≤ n then (f (n % 2 ^ width).toNat).reads bytes pos
      else none :=
  rfl

theorem reads_require_bind (c : Prop) [Decidable c] (f : Unit → Parse β) (bytes : List Byte)
    (pos : Nat) : (require c >>= f).reads bytes pos = if c then (f ()).reads bytes pos
      else some (none, pos) := by
  unfold require
  split
  · rfl
  · rfl

theorem bind_bind {γ : Type} (p : Parse α) (f : α → Parse β) (g : β → Parse γ) :
    p >>= f >>= g = p >>= (fun a => f a >>= g) := by
  show (p.bind f).bind g = p.bind (fun a => (f a).bind g)
  induction p with
  | done x =>
    cases x with
    | some a => rfl
    | none => rfl
  | getBits n rest ih => exact congrArg (getBits n) (funext ih)
  | skipBits n rest ih => exact congrArg (skipBits n) ih
  | numBitsLeft rest ih => exact congrArg numBitsLeft (funext ih)
  | data rest ih => exact congrArg data (funext ih)
  | length n width rest ih => exact congrArg (length n width) (funext ih)
  | fail => rfl

end Parse

--
-- Readers
--

namespace Parse

variable {α : Type} {r : ABitReader} {bytes : List Byte} {pos : Nat}

/- A sequence stops in its first part or runs its second. -/
theorem run_bind {β : Type} {p : Parse α} {f : α → Parse β} {x : Option β × ABitReader} {w : Bool}
    (hRun : (p >>= f).run r = some (x, w)) :
    (p.run r = some ((none, x.2), w) ∧ x.1 = none) ∨
      ∃ a r' v u, p.run r = some ((some a, r'), v) ∧ (f a).run r' = some (x, u) := by
  replace hRun : (p.bind f).run r = some (x, w) := hRun
  induction p generalizing r w with
  | done y =>
    cases y with
    | some a => exact Or.inr ⟨a, r, false, w, rfl, hRun⟩
    | none =>
      cases hRun
      exact Or.inl ⟨rfl, rfl⟩
  | getBits n rest ih =>
    rcases Option.bind_eq_some_iff.mp hRun with ⟨q, hGet, hRest⟩
    have hStep : (getBits n rest).run r = (rest q.1).run q.2 := by
      show Option.bind (r.getBits n) _ = _
      rw [hGet]
      rfl
    rw [hStep]
    exact ih _ hRest
  | skipBits n rest ih =>
    rcases Option.bind_eq_some_iff.mp hRun with ⟨q, hSkip, hRest⟩
    have hStep : (skipBits n rest).run r = rest.run q := by
      show Option.bind (r.skipBits n) _ = _
      rw [hSkip]
      rfl
    rw [hStep]
    exact ih hRest
  | numBitsLeft rest ih => exact ih _ hRun
  | data rest ih => exact ih _ hRun
  | length n width rest ih =>
    rcases Option.map_eq_some_iff.mp hRun with ⟨⟨y, v⟩, hRest, hEq⟩
    cases hEq
    rcases ih _ hRest with ⟨hStop, hNone⟩ | ⟨a, r', v', u, hFirst, hSecond⟩
    · refine Or.inl ⟨?_, hNone⟩
      show Option.map _ ((rest _).run r) = _
      rw [hStop]
      rfl
    · refine Or.inr ⟨a, r', decide (n < 0) || v', u, ?_, hSecond⟩
      show Option.map _ ((rest _).run r) = _
      rw [hFirst]
      rfl
  | fail => cases hRun

/-
  With every field inside the bytes and no length below zero, the reader is used without a failed
  check.
-/
theorem run_of_reads (p : Parse α) {x : Option α} {pos' : Nat} (h : r.At bytes pos)
    (hReads : p.reads bytes pos = some (x, pos')) :
    ∃ r', p.run r = some ((x, r'), false) ∧ r'.At bytes pos' := by
  induction p generalizing r pos with
  | done y =>
    cases hReads
    exact ⟨r, rfl, h⟩
  | getBits n rest ih =>
    unfold reads at hReads
    split at hReads
    · rename_i hFit
      rcases h.getBits hFit.1 hFit.2 with ⟨r', hGet, hAt⟩
      rcases ih _ hAt hReads with ⟨r'', hRun, hEnd⟩
      refine ⟨r'', ?_, hEnd⟩
      unfold run
      rw [hGet]
      exact hRun
    · cases hReads
  | skipBits n rest ih =>
    unfold reads at hReads
    split at hReads
    · rename_i hFit
      rcases h.skipBits hFit with ⟨r', hSkip, hAt⟩
      rcases ih hAt hReads with ⟨r'', hRun, hEnd⟩
      refine ⟨r'', ?_, hEnd⟩
      unfold run
      rw [hSkip]
      exact hRun
    · cases hReads
  | numBitsLeft rest ih =>
    have hLeft := h.numBitsLeft
    have hEq : r.numBitsLeft = 8 * bytes.length - pos := by
      omega
    unfold run
    rw [hEq]
    exact ih _ h hReads
  | data rest ih =>
    unfold run
    rw [h.data_eq]
    exact ih _ h hReads
  | length n width rest ih =>
    unfold reads at hReads
    split at hReads
    · rename_i hNonneg
      rcases ih _ h hReads with ⟨r', hRun, hEnd⟩
      refine ⟨r', ?_, hEnd⟩
      unfold run
      rw [hRun, decide_eq_false (by omega : ¬ n < 0)]
      rfl
    · cases hReads
  | fail => cases hReads

/- A run without a failed check in which no length wraps has every field inside the bytes. -/
theorem reads_of_run (p : Parse α) {x : Option α} {r' : ABitReader} (h : r.At bytes pos)
    (hRun : p.run r = some ((x, r'), false)) :
    ∃ pos', p.reads bytes pos = some (x, pos') ∧ r'.At bytes pos' := by
  induction p generalizing r pos with
  | done y =>
    cases hRun
    exact ⟨pos, rfl, h⟩
  | getBits n rest ih =>
    rcases Option.bind_eq_some_iff.mp hRun with ⟨q, hGet, hRest⟩
    by_cases hFit : n ≤ 32 ∧ pos + n ≤ 8 * bytes.length
    · rcases h.getBits hFit.1 hFit.2 with ⟨r'', hEq, hAt⟩
      rw [hEq] at hGet
      cases hGet
      unfold reads
      rw [if_pos hFit]
      exact ih _ hAt hRest
    · exfalso
      by_cases hn : n ≤ 32
      · rw [h.getBits_none (by omega)] at hGet
        cases hGet
      · unfold ABitReader.getBits at hGet
        rw [if_pos (by omega)] at hGet
        cases hGet
  | skipBits n rest ih =>
    rcases Option.bind_eq_some_iff.mp hRun with ⟨q, hSkip, hRest⟩
    by_cases hFit : pos + n ≤ 8 * bytes.length
    · rcases h.skipBits hFit with ⟨r'', hEq, hAt⟩
      rw [hEq] at hSkip
      cases hSkip
      unfold reads
      rw [if_pos hFit]
      exact ih hAt hRest
    · rw [h.skipBits_none (by omega)] at hSkip
      cases hSkip
  | numBitsLeft rest ih =>
    have hLeft := h.numBitsLeft
    have hEq : r.numBitsLeft = 8 * bytes.length - pos := by
      omega
    unfold run at hRun
    rw [hEq] at hRun
    exact ih _ h hRun
  | data rest ih =>
    unfold run at hRun
    rw [h.data_eq] at hRun
    exact ih _ h hRun
  | length n width rest ih =>
    rcases Option.map_eq_some_iff.mp hRun with ⟨⟨y, v⟩, hRest, hEq⟩
    rcases Prod.mk.inj hEq with ⟨hResult, hOr⟩
    rcases Bool.or_eq_false_iff.mp hOr with ⟨hSign, hv⟩
    have hNonneg : ¬ n < 0 := of_decide_eq_false hSign
    simp only at hResult hv
    rw [hResult, hv] at hRest
    unfold reads
    rw [if_pos (by omega)]
    exact ih _ h hRest
  | fail => cases hRun

end Parse

end ATSParser

end FrameworksAv
