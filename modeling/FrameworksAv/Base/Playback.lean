import Mathlib.Algebra.Order.Ring.Int
import Mathlib.Data.List.Flatten
import Mathlib.Data.List.Range

/-
  Playback of a buffer with a loop, unrolled.

  A loop that is left `count` times plays its body that often again before the rest of the buffer; a
  count of -1 is a loop without an end.

  Main declarations:
    * `Playback`, `Playback.Wf`, `Playback.advance`
    * `Playback.frames`, `Playback.endless`
    * `Playback.length_frames`
    * `Playback.Follows`, `Playback.Follows.advance`
-/

--
-- Playbacks
--

namespace FrameworksAv

/- The next frame, and the loop that is playing, if any. -/
structure Playback where
  position : Nat
  loopStart : Nat
  loopEnd : Nat
  loopCount : Int

namespace Playback

/- The end of what is played without a jump. -/
def stop (size : Nat) (b : Playback) : Nat :=
  if b.loopCount = 0 then size else b.loopEnd

/- The position is in front of the end of the loop. -/
structure Wf (size minLoop : Nat) (b : Playback) : Prop where
  position_le : b.position ≤ size
  count_ge : -1 ≤ b.loopCount
  loop :
    b.loopCount ≠ 0 →
      b.loopStart < b.loopEnd ∧ b.loopEnd ≤ size ∧ minLoop ≤ b.loopEnd - b.loopStart ∧
        b.position < b.loopEnd

/- Play some frames; the end of the loop jumps back. -/
def advance (b : Playback) (count : Nat) : Playback :=
  if b.loopCount ≠ 0 ∧ b.position + count = b.loopEnd then
    { b with
      position := b.loopStart
      loopCount := if b.loopCount = -1 then -1 else b.loopCount - 1 }
  else { b with position := b.position + count }

/- The frames of one turn of the loop. -/
def body (b : Playback) : List Nat :=
  List.range' b.loopStart (b.loopEnd - b.loopStart)

/- Everything a loop that ends still plays. -/
def frames (size : Nat) (b : Playback) : List Nat :=
  if b.loopCount = 0 then List.range' b.position (size - b.position)
  else
    List.range' b.position (b.loopEnd - b.position) ++
      (List.replicate b.loopCount.toNat b.body).flatten ++ List.range' b.loopEnd (size - b.loopEnd)

/- What a loop without an end plays, frame by frame. -/
def endless (b : Playback) (n : Nat) : Nat :=
  if n < b.loopEnd - b.position then b.position + n
  else b.loopStart + (n - (b.loopEnd - b.position)) % (b.loopEnd - b.loopStart)

variable {size minLoop : Nat} {b : Playback}

/- A region is played in two parts. -/
theorem range'_split (start : Nat) {count whole : Nat} (hLe : count ≤ whole) :
    List.range' start whole =
      List.range' start count ++ List.range' (start + count) (whole - count) := by
  rw [List.range'_append_1]
  congr 1
  omega

theorem Wf.position_le_stop (h : Wf size minLoop b) : b.position ≤ b.stop size := by
  unfold stop
  by_cases hZero : b.loopCount = 0
  · rw [if_pos hZero]
    exact h.position_le
  · rw [if_neg hZero]
    exact Nat.le_of_lt (h.loop hZero).2.2.2

theorem Wf.stop_le (h : Wf size minLoop b) : b.stop size ≤ size := by
  unfold stop
  by_cases hZero : b.loopCount = 0
  · rw [if_pos hZero]
  · rw [if_neg hZero]
    exact (h.loop hZero).2.1

/- Playing up to the end of the loop keeps it playable. -/
theorem Wf.advance (h : Wf size minLoop b) {count : Nat}
    (hCount : count ≤ b.stop size - b.position) : Wf size minLoop (b.advance count) := by
  have hStop := h.position_le_stop
  have hGe := h.count_ge
  unfold Playback.advance
  by_cases hJump : b.loopCount ≠ 0 ∧ b.position + count = b.loopEnd
  · have hLoop := h.loop hJump.1
    rw [if_pos hJump]
    constructor
    · simp only
      omega
    · simp only
      split <;> omega
    · intro _
      exact ⟨hLoop.1, hLoop.2.1, hLoop.2.2.1, hLoop.1⟩
  · rw [if_neg hJump]
    unfold stop at hCount hStop
    by_cases hZero : b.loopCount = 0
    · rw [if_pos hZero] at hCount hStop
      constructor
      · simp only
        omega
      · exact hGe
      · intro hSome
        exact absurd hZero hSome
    · have hLoop := h.loop hZero
      rw [if_neg hZero] at hCount hStop
      have hNe : b.position + count ≠ b.loopEnd := by
        intro hEq
        exact hJump ⟨hZero, hEq⟩
      constructor
      · simp only
        omega
      · exact hGe
      · intro _
        refine ⟨hLoop.1, hLoop.2.1, hLoop.2.2.1, ?_⟩
        simp only
        omega

/- What is played now and what is played then. -/
theorem frames_advance (h : Wf size minLoop b) (hEnds : b.loopCount ≠ -1) {count : Nat}
    (hCount : count ≤ b.stop size - b.position) :
    b.frames size = List.range' b.position count ++ (b.advance count).frames size := by
  have hGe := h.count_ge
  unfold Playback.advance stop at *
  by_cases hZero : b.loopCount = 0
  · rw [if_pos hZero] at hCount
    rw [if_neg (fun hJump => hJump.1 hZero), frames, frames,
      if_pos hZero, if_pos hZero, range'_split _ hCount]
    congr 2
    simp only
    omega
  · have hLoop := h.loop hZero
    rw [if_neg hZero] at hCount
    by_cases hJump : b.position + count = b.loopEnd
    · have hWhole : b.loopEnd - b.position = count := by
        omega
      rcases Int.eq_ofNat_of_zero_le (show 0 ≤ b.loopCount - 1 by omega) with ⟨n, hn⟩
      have hTurns : b.loopCount.toNat = n + 1 := by
        omega
      rw [if_pos ⟨hZero, hJump⟩, frames, if_neg hZero, hWhole,
        hTurns, List.replicate_succ, List.flatten_cons, if_neg hEnds, hn]
      simp only [frames, body, List.append_assoc]
      by_cases hLast : n = 0
      · subst hLast
        have hRest :
            List.range' b.loopStart (size - b.loopStart) =
              List.range' b.loopStart (b.loopEnd - b.loopStart) ++
                List.range' b.loopEnd (size - b.loopEnd) := by
          rw [range'_split b.loopStart (show b.loopEnd - b.loopStart ≤ size - b.loopStart by omega)]
          congr 2 <;> omega
        simp [hRest]
      · simp [hLast]
    · rw [if_neg (fun hBoth => hJump hBoth.2), frames, frames,
        if_neg hZero, if_neg hZero, range'_split _ hCount]
      simp only [body, List.append_assoc]
      congr 3
      omega

theorem endless_advance (h : Wf size minLoop b) (hEndless : b.loopCount = -1) {count : Nat}
    (hCount : count ≤ b.stop size - b.position) :
    (b.advance count).loopCount = -1 ∧ (∀ n, n < count → b.endless n = b.position + n) ∧
      ∀ n, b.endless (count + n) = (b.advance count).endless n := by
  have hZero : b.loopCount ≠ 0 := by
    omega
  have hLoop := h.loop hZero
  unfold stop at hCount
  rw [if_neg hZero] at hCount
  refine ⟨?_, ?_, ?_⟩
  · unfold Playback.advance
    split
    · simp
    · exact hEndless
  · intro n hn
    rw [endless, if_pos (by omega)]
  · intro n
    unfold Playback.advance
    by_cases hJump : b.position + count = b.loopEnd
    · have hWhole : b.loopEnd - b.position = count := by
        omega
      rw [if_pos ⟨hZero, hJump⟩, endless, hWhole,
        if_neg (by omega), Nat.add_sub_cancel_left, endless]
      simp only
      by_cases hFirst : n < b.loopEnd - b.loopStart
      · rw [if_pos hFirst, Nat.mod_eq_of_lt hFirst]
      · rw [if_neg hFirst, Nat.mod_eq_sub_mod (Nat.le_of_not_lt hFirst)]
    · rw [if_neg (fun hBoth => hJump hBoth.2), endless, endless]
      simp only
      by_cases hFirst : n < b.loopEnd - (b.position + count)
      · rw [if_pos hFirst, if_pos (by omega), Nat.add_assoc]
      · have hSame :
            count + n - (b.loopEnd - b.position) = n - (b.loopEnd - (b.position + count)) := by
          omega
        rw [if_neg hFirst, if_neg (by omega), hSame]

/- How much a loop that ends still plays. -/
theorem length_frames (h : Wf size minLoop b) (hEnds : b.loopCount ≠ -1) :
    ((b.frames size).length : Int) =
      b.loopCount * (b.loopEnd - b.loopStart : Nat) + size - b.position := by
  have hGe := h.count_ge
  unfold frames
  by_cases hZero : b.loopCount = 0
  · have hLe := h.position_le
    rw [if_pos hZero, hZero, List.length_range']
    omega
  · have hLoop := h.loop hZero
    have hTurns : ((b.loopCount.toNat : Nat) : Int) = b.loopCount := Int.toNat_of_nonneg (by omega)
    rw [if_neg hZero]
    simp only [List.length_append, List.length_range', List.length_flatten, List.map_replicate,
      List.sum_replicate_nat, body, Int.natCast_add, Int.natCast_mul, hTurns]
    omega

/- What was delivered since an origin is what the origin plays first; the rest is still to come. -/
inductive Follows (size : Nat) (origin now : Playback) (delivered : List Nat) : Prop
| finite (hOrigin : origin.loopCount ≠ -1) (hNow : now.loopCount ≠ -1)
    (hFrames : origin.frames size = delivered ++ now.frames size)
| infinite (hOrigin : origin.loopCount = -1) (hNow : now.loopCount = -1)
    (hDelivered : delivered = (List.range delivered.length).map origin.endless)
    (hRest : ∀ n, origin.endless (delivered.length + n) = now.endless n)

theorem Follows.refl (size : Nat) (b : Playback) : Follows size b b [] := by
  by_cases hEndless : b.loopCount = -1
  · apply Follows.infinite hEndless hEndless
    · rfl
    · intro n
      simp
  · exact Follows.finite hEndless hEndless rfl

theorem advance_loopCount (h : Wf size minLoop b) (hEnds : b.loopCount ≠ -1) (count : Nat) :
    (b.advance count).loopCount ≠ -1 := by
  have hGe := h.count_ge
  unfold Playback.advance
  split
  · rename_i hJump
    simp only
    omega
  · exact hEnds

/- Playing on delivers the next frames of the origin. -/
theorem Follows.advance {origin now : Playback} {delivered : List Nat}
    (hFollows : Follows size origin now delivered) (h : Wf size minLoop now) {count : Nat}
    (hCount : count ≤ now.stop size - now.position) :
    Follows size origin (now.advance count) (delivered ++ List.range' now.position count) := by
  cases hFollows with
  | finite hOrigin hNow hFrames =>
    apply Follows.finite hOrigin (advance_loopCount h hNow count)
    rw [hFrames, frames_advance h hNow hCount, List.append_assoc]
  | infinite hOrigin hNow hDelivered hRest =>
    rcases endless_advance h hNow hCount with ⟨hStill, hFirst, hLater⟩
    have hLength :
        (delivered ++ List.range' now.position count).length = delivered.length + count := by
      rw [List.length_append, List.length_range']
    apply Follows.infinite hOrigin hStill
    · rw [hLength, List.range_add, List.map_append, ← hDelivered, List.map_map]
      congr 1
      apply List.ext_getElem
      · simp
      · intro n hn _
        have hLt : n < count := by
          simpa using hn
        simp only [List.getElem_range', List.getElem_map,
          List.getElem_range, Function.comp_apply, hRest, hFirst n hLt]
        omega
    · intro n
      rw [hLength, Nat.add_assoc, hRest, hLater]

end Playback

end FrameworksAv
