import Mathlib.Data.List.Basic
import FrameworksAv.Base.Bytes

/-
  Programs over one allocated buffer, with every access checked and every loop under a budget.

  A program either yields a result or stops at a fault: it touched a byte outside the buffer, or it
  used up the budget of a loop. A result therefore says both that the program ends and that it
  stayed inside.

  Main declarations:
    * `sizeSub`
    * `Checked`, `Checked.loop`
    * `Checked.loop_unique`, `Checked.loop_rule`
    * `Buffer.slice`, `Buffer.store`
-/

--
-- Checked Programs
--

namespace FrameworksAv

/- Subtraction of `size_t` values. -/
def sizeSub (a b : Nat) : Nat :=
  if b ≤ a then a - b else a + 2 ^ 64 - b

theorem sizeSub_of_le {a b : Nat} (hLe : b ≤ a) : sizeSub a b = a - b := by
  rw [sizeSub, if_pos hLe]

inductive Fault
| outside
| unfinished
deriving DecidableEq, Repr

abbrev Checked (α : Type) := Except Fault α

/- What one turn of a loop decides. -/
inductive Turn (σ α : Type)
| again (s : σ)
| done (a : α)

namespace Checked

variable {σ α β : Type}

@[simp] theorem ok_bind (a : α) (f : α → Checked β) : ((Except.ok a : Checked α) >>= f) = f a :=
  rfl

@[simp] theorem error_bind (fault : Fault) (f : α → Checked β) :
    ((Except.error fault : Checked α) >>= f) = .error fault :=
  rfl

@[simp] theorem pure_eq (a : α) : (pure a : Checked α) = .ok a :=
  rfl

/- A sequence that ends had a first part that ended. -/
theorem bind_eq_ok {x : Checked α} {f : α → Checked β} {b : β} :
    (x >>= f) = .ok b ↔ ∃ a, x = .ok a ∧ f a = .ok b := by
  cases x with
  | error fault => simp
  | ok a => simp

/- Repeat a body until it decides to end. -/
def loop (body : σ → Checked (Turn σ α)) : Nat → σ → Checked α
| 0, _ => .error .unfinished
| budget + 1, s =>
  match body s with
  | .error fault => .error fault
  | .ok (.done a) => .ok a
  | .ok (.again t) => loop body budget t

end Checked

--
-- Loops
--

namespace Checked

variable {σ α : Type} {body : σ → Checked (Turn σ α)}

theorem loop_done {s : σ} {a : α} (hBody : body s = .ok (.done a)) (budget : Nat) :
    loop body (budget + 1) s = .ok a := by
  simp [loop, hBody]

theorem loop_again {s t : σ} (hBody : body s = .ok (.again t)) (budget : Nat) :
    loop body (budget + 1) s = loop body budget t := by
  simp [loop, hBody]

theorem loop_fault {s : σ} {fault : Fault} (hBody : body s = .error fault) (budget : Nat) :
    loop body (budget + 1) s = .error fault := by
  simp [loop, hBody]

/- A larger budget does not change what a loop ends with. -/
theorem loop_mono {budget more : Nat} {s : σ} {a : α} (hLoop : loop body budget s = .ok a)
    (hBudget : budget ≤ more) : loop body more s = .ok a := by
  induction budget generalizing s more with
  | zero => cases hLoop
  | succ budget ih =>
    rcases Nat.exists_eq_succ_of_ne_zero (show more ≠ 0 by omega) with ⟨more, rfl⟩
    cases hBody : body s with
    | error fault =>
      rw [loop_fault hBody] at hLoop
      cases hLoop
    | ok turn =>
      cases turn with
      | done b =>
        rw [loop_done hBody] at hLoop ⊢
        exact hLoop
      | again t =>
        rw [loop_again hBody] at hLoop ⊢
        exact ih hLoop (by omega)

theorem loop_unique {budget more : Nat} {s : σ} {a b : α} (hFirst : loop body budget s = .ok a)
    (hSecond : loop body more s = .ok b) : a = b := by
  have hBoth := loop_mono hFirst (Nat.le_max_left budget more)
  rw [loop_mono hSecond (Nat.le_max_right budget more)] at hBoth
  exact (Except.ok.inj hBoth).symm

/-
  A loop with an invariant and a decreasing measure ends without a fault, in a result that its last
  turn vouches for.
-/
theorem loop_rule {inv : σ → Prop} {post : α → Prop} {measure : σ → Nat}
    (hTurn :
      ∀ s, inv s → (∃ t, body s = .ok (.again t) ∧ inv t ∧ measure t < measure s) ∨
        (∃ a, body s = .ok (.done a) ∧ post a))
    {s : σ} {budget : Nat} (hStart : inv s) (hBudget : measure s < budget) :
    ∃ a, loop body budget s = .ok a ∧ post a := by
  induction budget generalizing s with
  | zero => omega
  | succ budget ih =>
    rcases hTurn s hStart with ⟨t, hBody, hNext, hLess⟩ | ⟨a, hBody, hPost⟩
    · rw [loop_again hBody]
      exact ih hNext (by omega)
    · exact ⟨a, loop_done hBody budget, hPost⟩

end Checked

--
-- Buffers
--

namespace Buffer

/- Read `count` bytes. -/
def slice (data : List Byte) (start count : Nat) : Checked (List Byte) :=
  if start + count ≤ data.length then .ok ((data.drop start).take count)
  else .error .outside

def read (data : List Byte) (i : Nat) : Checked Byte :=
  match data[i]? with
  | some byte => .ok byte
  | none => .error .outside

def write (data : List Byte) (i : Nat) (byte : Byte) : Checked (List Byte) :=
  if i < data.length then .ok (data.set i byte)
  else .error .outside

/- Copy bytes of another buffer into this one. -/
def store (data : List Byte) (dst : Nat) (bytes : List Byte) : Checked (List Byte) :=
  if dst + bytes.length ≤ data.length then
    .ok (data.take dst ++ bytes ++ data.drop (dst + bytes.length))
  else .error .outside

theorem read_mid {data : List Byte} (front : List Byte) {after : List Byte} {byte : Byte} {i : Nat}
    (hData : data = front ++ byte :: after) (hIndex : i = front.length) :
    read data i = .ok byte := by
  simp [read, hData, hIndex]

theorem read_of_getElem? {data : List Byte} {byte : Byte} {i : Nat} (hGet : data[i]? = some byte) :
    read data i = .ok byte := by
  simp [read, hGet]

theorem read_outside {data : List Byte} {i : Nat} (hOutside : data.length ≤ i) :
    read data i = .error .outside := by
  simp [read, List.getElem?_eq_none hOutside]

/- Overwriting bytes in the middle of a buffer. -/
theorem write_mid {data : List Byte} (front : List Byte) {after : List Byte} {old : Byte} {i : Nat}
    (byte : Byte) (hData : data = front ++ old :: after) (hIndex : i = front.length) :
    write data i byte = .ok (front ++ byte :: after) := by
  have hInside : i < data.length := by
    simp [hData, hIndex]
  rw [write, if_pos hInside, hData, hIndex]
  simp

end Buffer

end FrameworksAv
