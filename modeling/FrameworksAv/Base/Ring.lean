import Mathlib.Algebra.Order.Ring.Int
import Mathlib.Data.List.Basic
import Mathlib.Data.List.GetD
import Mathlib.Data.Nat.ModEq
import Mathlib.Logic.Function.Basic

/-
  Ring buffers that hold a window of an unbounded log.

  The log is everything the producer ever published. Cell `i % cap` of the ring holds entry `i` of
  the log for every position from `front` to the end of the log.

  Main declarations:
    * `Ring.slice` and `Ring.window`
    * `Ring.Holds`
    * `Ring.store`, `Ring.put`
    * `Ring.window_put`
-/

--
-- Cells
--

namespace FrameworksAv

namespace Ring

variable {α : Type*}

/- The cells of a contiguous region, in order. -/
def slice (cells : Nat → α) (start count : Nat) : List α :=
  (List.range count).map (fun k => cells (start + k))

/- The cells of `count` positions, which may wrap around. -/
def window (cells : Nat → α) (cap pos count : Nat) : List α :=
  (List.range count).map (fun k => cells ((pos + k) % cap))

@[simp] theorem window_length (cells : Nat → α) (cap pos count : Nat) :
    (window cells cap pos count).length = count := by
  simp [window]

@[simp] theorem window_zero (cells : Nat → α) (cap pos : Nat) : window cells cap pos 0 = [] :=
  rfl

/- Positions less than one ring apart have distinct cells. -/
theorem mod_ne_of_lt {cap i j : Nat} (hLt : i < j) (hNear : j < i + cap) : i % cap ≠ j % cap := by
  intro hEq
  have hDvd : cap ∣ j - i := (Nat.modEq_iff_dvd' (Nat.le_of_lt hLt)).mp hEq
  have hLe := Nat.le_of_dvd (by omega) hDvd
  omega

/- An offset that stays inside the ring does not wrap. -/
theorem add_mod_of_lt {cap pos k : Nat} (hk : pos % cap + k < cap) :
    (pos + k) % cap = pos % cap + k := by
  rw [Nat.add_mod]
  have hSmall : k % cap = k := Nat.mod_eq_of_lt (by omega)
  rw [hSmall, Nat.mod_eq_of_lt hk]

/- A window that does not wrap is a contiguous slice. -/
theorem window_eq_slice (cells : Nat → α) {cap pos count : Nat} (hFit : pos % cap + count ≤ cap) :
    window cells cap pos count = slice cells (pos % cap) count := by
  apply List.map_congr_left
  intro k hk
  have hk' : k < count := List.mem_range.mp hk
  have hCell : (pos + k) % cap = pos % cap + k := add_mod_of_lt (by omega)
  rw [hCell]

/- A window that reaches the end of the ring wraps once. -/
theorem window_eq_slice_append (cells : Nat → α) {cap pos count : Nat}
    (hWrap : cap ≤ pos % cap + count) (hOnce : count ≤ cap) (hCap : 0 < cap) :
    window cells cap pos count =
      slice cells (pos % cap) (cap - pos % cap) ++ slice cells 0 (count - (cap - pos % cap)) := by
  have hLt : pos % cap < cap := Nat.mod_lt pos hCap
  have hSplit : count = (cap - pos % cap) + (count - (cap - pos % cap)) := by
    omega
  have hFirst :
      window cells cap pos (cap - pos % cap) = slice cells (pos % cap) (cap - pos % cap) :=
    window_eq_slice cells (by omega)
  rw [← hFirst]
  conv_lhs => rw [hSplit]
  rw [window, List.range_add, List.map_append]
  congr 1
  rw [List.map_map, slice]
  apply List.map_congr_left
  intro k hk
  have hk' : k < count - (cap - pos % cap) := List.mem_range.mp hk
  have hCell : (pos + ((cap - pos % cap) + k)) % cap = 0 + k := by
    have hMod : pos % cap + cap * (pos / cap) = pos := Nat.mod_add_div pos cap
    have hTurn : pos + ((cap - pos % cap) + k) = k + cap * (pos / cap + 1) := by
      rw [Nat.mul_add]
      omega
    rw [hTurn, Nat.add_mul_mod_self_left, Nat.mod_eq_of_lt (by omega), Nat.zero_add]
  simp only [Function.comp_apply, hCell]

/- Cell `i % cap` holds entry `i` from `front` on. -/
def Holds (cells : Nat → α) (cap : Nat) (log : List α) (front : Nat) : Prop :=
  ∀ i, (hi : i < log.length) → front ≤ i → cells (i % cap) = log[i]

end Ring

--
-- Windows Of A Log
--

namespace Ring

namespace Holds

variable {α : Type*} {cells : Nat → α} {cap front : Nat} {log : List α}

/- A consumer that moves on keeps the rest of the window. -/
theorem mono (h : Holds cells cap log front) {front' : Nat} (hLe : front ≤ front') :
    Holds cells cap log front' := by
  intro i hi hFront
  exact h i hi (Nat.le_trans hLe hFront)

/- A write to a free cell leaves the window unchanged. -/
theorem update (h : Holds cells cap log front) {j : Nat} (hFree : log.length ≤ j)
    (hRoom : j < front + cap) (a : α) :
    Holds (Function.update cells (j % cap) a) cap log front := by
  intro i hi hFront
  have hNe : i % cap ≠ j % cap := mod_ne_of_lt (by omega) (by omega)
  rw [Function.update_of_ne hNe]
  exact h i hi hFront

/- Publishing written cells extends the window. -/
theorem publish (h : Holds cells cap log front) (count : Nat) :
    Holds cells cap (log ++ window cells cap log.length count) front := by
  intro i hi hFront
  by_cases hOld : i < log.length
  · rw [List.getElem_append_left hOld]
    exact h i hOld hFront
  · have hPos : log.length + (i - log.length) = i := by
      omega
    rw [List.getElem_append_right (by omega)]
    simp only [window, List.getElem_map, List.getElem_range, hPos]

/- The window of the consumer reads the log. -/
theorem window_eq (h : Holds cells cap log front) {count : Nat}
    (hAvail : front + count ≤ log.length) :
    window cells cap front count = (log.drop front).take count := by
  apply List.ext_getElem
  · simp
    omega
  · intro i hi _
    have hCount : i < count := by
      simpa using hi
    simp only [window, List.getElem_map, List.getElem_range, List.getElem_take, List.getElem_drop]
    exact h (front + i) (by omega) (by omega)

end Holds

--
-- Copies
--

variable {α : Type*}

/- A copy into a contiguous region. -/
def store (cells : Nat → α) (pos : Nat) (src : List α) : Nat → α :=
  fun i => if pos ≤ i then src.getD (i - pos) (cells i) else cells i

@[simp] theorem store_nil (cells : Nat → α) (pos : Nat) : store cells pos [] = cells := by
  funext i
  simp [store]

theorem store_inside (cells : Nat → α) {pos k : Nat} {src : List α} (hk : k < src.length) :
    store cells pos src (pos + k) = src[k] := by
  unfold store
  rw [if_pos (Nat.le_add_right pos k), Nat.add_sub_cancel_left, List.getD_eq_getElem _ _ hk]

theorem store_outside (cells : Nat → α) {pos i : Nat} {src : List α}
    (hOut : i < pos ∨ pos + src.length ≤ i) : store cells pos src i = cells i := by
  unfold store
  by_cases hi : pos ≤ i
  · rw [if_pos hi]
    apply List.getD_eq_default
    omega
  · rw [if_neg hi]

/- A copy that goes on at the start of the ring. -/
def put (cells : Nat → α) (cap pos : Nat) (src : List α) : Nat → α :=
  store (store cells pos (src.take (cap - pos))) 0 (src.drop (cap - pos))

/- What was copied is in the ring. -/
theorem put_inside (cells : Nat → α) {cap pos k : Nat} {src : List α} (hPos : pos < cap)
    (hFit : src.length ≤ cap) (hk : k < src.length) :
    put cells cap pos src ((pos + k) % cap) = src[k] := by
  unfold put
  by_cases hFirst : pos + k < cap
  · rw [Nat.mod_eq_of_lt hFirst, store_outside, store_inside, List.getElem_take]
    · rw [List.length_take]
      omega
    · right
      rw [List.length_drop]
      omega
  · have hTurn : pos + k = k - (cap - pos) + cap := by omega
    have hSmall : k - (cap - pos) < cap := by omega
    have hRest : k - (cap - pos) < (src.drop (cap - pos)).length := by
      rw [List.length_drop]
      omega
    rw [hTurn, Nat.add_mod_right, Nat.mod_eq_of_lt hSmall]
    rw [← Nat.zero_add (k - (cap - pos)), store_inside _ hRest, List.getElem_drop]
    congr 1
    omega

/- The rest of the ring is as before. -/
theorem put_outside (cells : Nat → α) {cap pos k : Nat} {src : List α} (hPos : pos < cap)
    (hk : src.length ≤ k) (hCap : k < cap) :
    put cells cap pos src ((pos + k) % cap) = cells ((pos + k) % cap) := by
  unfold put
  by_cases hFirst : pos + k < cap
  · rw [Nat.mod_eq_of_lt hFirst, store_outside, store_outside]
    · right
      rw [List.length_take]
      omega
    · right
      rw [List.length_drop]
      omega
  · have hTurn : pos + k = k - (cap - pos) + cap := by omega
    have hSmall : k - (cap - pos) < cap := by omega
    rw [hTurn, Nat.add_mod_right, Nat.mod_eq_of_lt hSmall, store_outside, store_outside]
    · left
      omega
    · right
      rw [List.length_drop]
      omega

/- A window continued by another one. -/
theorem window_append (cells : Nat → α) (cap pos m n : Nat) :
    window cells cap pos (m + n) = window cells cap pos m ++ window cells cap (pos + m) n := by
  unfold window
  rw [List.range_add, List.map_append, List.map_map]
  congr 1
  apply List.map_congr_left
  intro k _
  rw [Function.comp_apply, Nat.add_assoc]

/- What is copied behind a window continues it. -/
theorem window_put (cells : Nat → α) {cap pos count : Nat} {src : List α} (hCap : 0 < cap)
    (hFit : count + src.length ≤ cap) :
    window (put cells cap ((pos + count) % cap) src) cap pos (count + src.length) =
      window cells cap pos count ++ src := by
  have hPos : (pos + count) % cap < cap := Nat.mod_lt _ hCap
  rw [window_append]
  congr 1
  · apply List.map_congr_left
    intro k hk
    have hLess : k < count := List.mem_range.mp hk
    -- the cells of the window come last behind the copy
    have hTurn : ((pos + count) % cap + (cap - count + k)) % cap = (pos + k) % cap := by
      rw [Nat.mod_add_mod]
      have hAll : pos + count + (cap - count + k) = pos + k + cap := by
        omega
      rw [hAll, Nat.add_mod_right]
    rw [← hTurn]
    exact put_outside cells hPos (by omega) (by omega)
  · apply List.ext_getElem
    · rw [window_length]
    · intro k _ hk
      simp only [window, List.getElem_map, List.getElem_range]
      have hIn := put_inside cells hPos (by omega) hk
      rw [Nat.mod_add_mod] at hIn
      exact hIn

/- Only the cell of the start matters. -/
theorem window_mod (cells : Nat → α) (cap pos count : Nat) :
    window cells cap (pos % cap) count = window cells cap pos count := by
  unfold window
  simp only [Nat.mod_add_mod]

end Ring

end FrameworksAv
