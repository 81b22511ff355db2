import Mathlib.Algebra.Order.Ring.Int
import Mathlib.Data.List.Basic

/-
  Messages in a stream that arrives in pieces.

  A framing takes one message off the front of a buffer, or waits. What it has taken does not depend
  on what comes behind, so the pieces in which the stream arrives do not matter.

  Main declarations:
    * `Framing`, `Framing.drain`, `Framing.Front`
    * `Framing.drain_append`
    * `Framing.drain_encoded`
-/

--
-- Framings
--

namespace FrameworksAv

/- A message in front of a buffer, and how long it is. -/
structure Framing (α β : Type) where
  next : List α → Option (β × Nat)
  pos : ∀ {buffer m n}, next buffer = some (m, n) → 0 < n
  fits : ∀ {buffer m n}, next buffer = some (m, n) → n ≤ buffer.length
  stable : ∀ {buffer m n}, next buffer = some (m, n) → ∀ more, next (buffer ++ more) = some (m, n)

namespace Framing

variable {α β : Type}
variable (framing : Framing α β)

/- All messages in front of a buffer, and the rest. -/
def drain (buffer : List α) : List β × List α :=
  match _hNext : framing.next buffer with
  | none => ([], buffer)
  | some (m, n) =>
    let (ms, rest) := drain (buffer.drop n)
    (m :: ms, rest)
termination_by buffer.length
decreasing_by
  have hPos := framing.pos _hNext
  have hFits := framing.fits _hNext
  rw [List.length_drop]
  omega

/- What a buffer comes down to in front of a message. -/
inductive Front : List α → List α → Prop
| here (buffer : List α) : Front buffer buffer
| behind {buffer later : List α} {m : β} {n : Nat} (hNext : framing.next buffer = some (m, n))
    (hLater : Front (buffer.drop n) later) : Front buffer later

end Framing

--
-- Draining
--

namespace Framing

variable {α β : Type} {framing : Framing α β}

theorem drain_none {buffer : List α} (hNext : framing.next buffer = none) :
    framing.drain buffer = ([], buffer) := by
  unfold drain
  split
  · rfl
  · rename_i m n hSome
    rw [hSome] at hNext
    cases hNext

theorem drain_some {buffer : List α} {m : β} {n : Nat} (hNext : framing.next buffer = some (m, n)) :
    framing.drain buffer =
      (m :: (framing.drain (buffer.drop n)).1, (framing.drain (buffer.drop n)).2) := by
  rw [drain]
  split
  · rename_i hNone
    rw [hNone] at hNext
    cases hNext
  · rename_i m' n' hSome
    rw [hSome] at hNext
    cases hNext
    rfl

/- By the messages that are in a buffer. -/
theorem drain_induction {motive : List α → Prop}
    (hWaits : ∀ buffer, framing.next buffer = none → motive buffer)
    (hTakes :
      ∀ buffer m n, framing.next buffer = some (m, n) → motive (buffer.drop n) → motive buffer)
    (buffer : List α) : motive buffer := by
  induction hLength : buffer.length using Nat.strongRecOn generalizing buffer with
  | ind length ih =>
    cases hNext : framing.next buffer with
    | none => exact hWaits buffer hNext
    | some taken =>
      rcases taken with ⟨m, n⟩
      have hPos := framing.pos hNext
      have hFits := framing.fits hNext
      apply hTakes buffer m n hNext
      apply ih (buffer.drop n).length ?_ _ rfl
      rw [List.length_drop]
      omega

theorem next_rest (framing : Framing α β) (buffer : List α) :
    framing.next (framing.drain buffer).2 = none := by
  induction buffer using framing.drain_induction with
  | hWaits buffer hNext =>
    rw [drain_none hNext]
    exact hNext
  | hTakes buffer m n hNext ih =>
    rw [drain_some hNext]
    exact ih

/- What comes behind is drained with the rest. -/
theorem drain_append (framing : Framing α β) (buffer more : List α) :
    framing.drain (buffer ++ more) =
      ((framing.drain buffer).1 ++ (framing.drain ((framing.drain buffer).2 ++ more)).1,
        (framing.drain ((framing.drain buffer).2 ++ more)).2) := by
  induction buffer using framing.drain_induction with
  | hWaits buffer hNext =>
    rw [drain_none hNext]
    exact rfl
  | hTakes buffer m n hNext ih =>
    rw [drain_some hNext, drain_some (framing.stable hNext more),
      List.drop_append_of_le_length (framing.fits hNext), ih]
    exact rfl

theorem Front.append {buffer later : List α} (hFront : framing.Front buffer later) (more : List α) :
    framing.Front (buffer ++ more) (later ++ more) := by
  induction hFront with
  | here buffer => exact .here _
  | behind hNext hLater ih =>
    apply Front.behind (framing.stable hNext more)
    rw [List.drop_append_of_le_length (framing.fits hNext)]
    exact ih

/- The rest of a buffer is one of the places in it. -/
theorem Front.of_rest {buffer more later : List α}
    (hFront : framing.Front ((framing.drain buffer).2 ++ more) later) :
    framing.Front (buffer ++ more) later := by
  induction buffer using framing.drain_induction with
  | hWaits buffer hNext =>
    rw [drain_none hNext] at hFront
    exact hFront
  | hTakes buffer m n hNext ih =>
    rw [drain_some hNext] at hFront
    apply Front.behind (framing.stable hNext more)
    rw [List.drop_append_of_le_length (framing.fits hNext)]
    exact ih hFront

/- Messages that were encoded one behind the other. -/
theorem drain_encoded {γ : Type} {encode : γ → List α} {decode : γ → β} {ms : List γ}
    (hEncode : ∀ m ∈ ms, framing.next (encode m) = some (decode m, (encode m).length))
    (hNone : framing.next [] = none) : framing.drain (ms.flatMap encode) = (ms.map decode, []) := by
  induction ms with
  | nil => exact drain_none hNone
  | cons m ms ih =>
    have hNext := hEncode m List.mem_cons_self
    rw [List.flatMap_cons, drain_some (framing.stable hNext _), List.drop_left' rfl,
      ih (fun m hm => hEncode m (List.mem_cons_of_mem _ hm))]
    exact rfl

end Framing

end FrameworksAv
