import FrameworksAv.Base.Bytes

/-
  A resumable counter mode over any blocks: the state keeps the next counter, the block of the key
  stream in use and the place in it.

  Main declarations:
    * `CounterMode.apply`, `CounterMode.stream`
    * `CounterMode.At`, `CounterMode.At.apply`
-/

--
-- Counter Mode
--

namespace FrameworksAv

namespace CounterMode

variable {β : Type*}

structure State (β : Type*) where
  counter : β
  block : β
  place : Nat

/- A block of `size` bytes is made when the one in use is used up. -/
def refill (next cipher : β → β) (s : State β) : State β :=
  if s.place = 0 then { s with counter := next s.counter, block := cipher s.counter } else s

def apply (size : Nat) (byteAt : β → Nat → Byte) (next cipher : β → β) :
    List Byte → State β → List Byte × State β
| [], s => ([], s)
| byte :: bytes, s =>
  let t := refill next cipher s
  let r := apply size byteAt next cipher bytes { t with place := (t.place + 1) % size }
  ((byte ^^^ byteAt t.block t.place) :: r.1, r.2)

/- Byte `i` of the key stream. -/
def stream (size : Nat) (byteAt : β → Nat → Byte) (next cipher : β → β) (counter : β) (i : Nat) :
    Byte :=
  byteAt (cipher (next^[i / size] counter)) (i % size)

/- Bytes under the key stream from a place on. -/
def under (key : Nat → Byte) : Nat → List Byte → List Byte
| _, [] => []
| i, byte :: bytes => (byte ^^^ key i) :: under key (i + 1) bytes

@[simp] theorem under_length (key : Nat → Byte) (i : Nat) (bytes : List Byte) :
    (under key i bytes).length = bytes.length := by
  induction bytes generalizing i with
  | nil => rfl
  | cons byte bytes ih => rw [under, List.length_cons, ih, List.length_cons]

/- A key stream is taken off again. -/
theorem under_under (key : Nat → Byte) (i : Nat) (bytes : List Byte) :
    under key i (under key i bytes) = bytes := by
  induction bytes generalizing i with
  | nil => rfl
  | cons byte bytes ih => rw [under, under, ih, BitVec.xor_assoc, BitVec.xor_self, BitVec.xor_zero]

theorem under_append (key : Nat → Byte) (i : Nat) (front rest : List Byte) :
    under key i (front ++ rest) = under key i front ++ under key (i + front.length) rest := by
  induction front generalizing i with
  | nil => rfl
  | cons byte front ih =>
    rw [List.cons_append, under, ih, under, List.cons_append, List.length_cons, Nat.add_assoc,
      Nat.add_comm 1]

variable {size : Nat} {byteAt : β → Nat → Byte} {next cipher : β → β} {counter : β} {s : State β}
variable {i : Nat}

/- The state after `i` bytes. -/
structure At (size : Nat) (next cipher : β → β) (counter : β) (i : Nat) (s : State β) : Prop where
  place : s.place = i % size
  fresh : i % size = 0 → s.counter = next^[i / size] counter
  within :
    i % size ≠ 0 →
      s.counter = next^[i / size + 1] counter ∧ s.block = cipher (next^[i / size] counter)

theorem At.start (size : Nat) (next cipher : β → β) (counter block : β) :
    At size next cipher counter 0 ⟨counter, block, 0⟩ where
  place := (Nat.zero_mod size).symm
  fresh := by
    intro _
    rw [Nat.zero_div]
    rfl
  within := fun hNot => absurd (Nat.zero_mod size) hNot

/- After a refill the block in use is the one of the place. -/
theorem At.refill (h : At size next cipher counter i s) :
    let t := refill next cipher s
    t.place = i % size ∧ t.counter = next^[i / size + 1] counter ∧
      t.block = cipher (next^[i / size] counter) := by
  unfold CounterMode.refill
  by_cases hFresh : i % size = 0
  · have hPlace : s.place = 0 := h.place.trans hFresh
    rw [if_pos hPlace]
    refine ⟨h.place, ?_, ?_⟩
    · dsimp only
      rw [h.fresh hFresh, Function.iterate_succ_apply']
    · dsimp only
      rw [h.fresh hFresh]
  · rw [if_neg (fun hPlace => hFresh (h.place.symm.trans hPlace))]
    exact ⟨h.place, h.within hFresh⟩

/- A byte further. -/
theorem At.advance (hSize : 0 < size) {t : State β} (hPlace : t.place = i % size)
    (hCounter : t.counter = next^[i / size + 1] counter)
    (hBlock : t.block = cipher (next^[i / size] counter)) :
    At size next cipher counter (i + 1) { t with place := (t.place + 1) % size } := by
  have hDivMod := Nat.div_add_mod i size
  have hLess := Nat.mod_lt i hSize
  constructor
  · dsimp only
    rw [hPlace, Nat.mod_add_mod]
  · intro hZero
    have hLast : (i + 1) / size = i / size + 1 := by
      rw [Nat.succ_div, if_pos (Nat.dvd_of_mod_eq_zero hZero)]
    rw [hLast]
    exact hCounter
  · intro hInside
    have hSame : (i + 1) / size = i / size := by
      rw [Nat.succ_div, if_neg (fun hDvd => hInside (Nat.mod_eq_zero_of_dvd hDvd)), Nat.add_zero]
    rw [hSame]
    exact ⟨hCounter, hBlock⟩

/- Bytes are put under the key stream from where the state is. -/
theorem At.apply (hSize : 0 < size) (h : At size next cipher counter i s) (bytes : List Byte) :
    let r := CounterMode.apply size byteAt next cipher bytes s
    r.1 = under (stream size byteAt next cipher counter) i bytes ∧
      At size next cipher counter (i + bytes.length) r.2 := by
  induction bytes generalizing i s with
  | nil => exact ⟨rfl, h⟩
  | cons byte bytes ih =>
    rcases h.refill with ⟨hPlace, hCounter, hBlock⟩
    rcases ih (At.advance hSize hPlace hCounter hBlock) with ⟨hRest, hEnd⟩
    constructor
    · rw [CounterMode.apply, under, stream]
      dsimp only
      rw [hRest, hPlace, hBlock]
    · rw [List.length_cons, Nat.add_comm bytes.length, ← Nat.add_assoc]
      exact hEnd

end CounterMode

end FrameworksAv
