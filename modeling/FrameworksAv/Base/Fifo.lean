import FrameworksAv.Base.Ring

/-
  A single-producer, single-consumer FIFO over a ring, with unbounded positions.

  The producer owns the `claimed` cells behind the rear and the consumer the `borrowed` cells from
  the front on. A consumer that skips ahead starts a new epoch; inside an epoch it receives the log
  in order and without gaps.

  Main declarations:
    * `Fifo`, `Fifo.Inv`
    * `Fifo.Inv.claim`, `Fifo.Inv.borrow`
    * `Fifo.Inv.disjoint`
    * `Fifo.Inv.delivered_prefix`
-/

--
-- States And Operations
--

namespace FrameworksAv

/- A ring FIFO and everything both sides did so far. -/
structure Fifo (α : Type*) where
  cells : Nat → α
  released : List α
  consumed : List α
  epochFront : Nat
  epochStart : Nat
  claimed : Nat
  borrowed : Nat

namespace Fifo

variable {α : Type*}

/- Position of the next entry to consume. -/
def front (q : Fifo α) : Nat :=
  q.epochFront + (q.consumed.length - q.epochStart)

/- Position of the next entry to publish. -/
def rear (q : Fifo α) : Nat :=
  q.released.length

/- The producer obtains cells behind the rear. -/
def claim (q : Fifo α) (count : Nat) : Fifo α :=
  { q with claimed := count }

/- The consumer obtains entries from the front on. -/
def borrow (q : Fifo α) (count : Nat) : Fifo α :=
  { q with borrowed := count }

/- The producer fills one of its cells. -/
def write (q : Fifo α) (cap offset : Nat) (a : α) : Fifo α :=
  { q with
    cells := Function.update q.cells ((q.rear + offset) % cap) a }

/- The producer publishes its first cells. -/
def produce (q : Fifo α) (cap count : Nat) : Fifo α :=
  { q with
    released := q.released ++ Ring.window q.cells cap q.rear count
    claimed := q.claimed - count }

/- The consumer is done with its first entries. -/
def consume (q : Fifo α) (cap count : Nat) : Fifo α :=
  { q with
    consumed := q.consumed ++ Ring.window q.cells cap q.front count
    borrowed := q.borrowed - count }

/- Consuming advances the front. -/
theorem consume_front {q : Fifo α} (hStart : q.epochStart ≤ q.consumed.length) {cap count : Nat} :
    (q.consume cap count).front = q.front + count := by
  simp only [consume, front, List.length_append, Ring.window_length]
  omega

/- The consumer moves its front ahead without reading. -/
def skip (q : Fifo α) (position : Nat) : Fifo α :=
  { q with
    epochFront := position
    epochStart := q.consumed.length }

/- `size` is the nominal capacity and `cap` the size of the ring. -/
structure Inv (cap size : Nat) (q : Fifo α) : Prop where
  start_le : q.epochStart ≤ q.consumed.length
  avail : q.front + q.borrowed ≤ q.rear
  room : q.rear + q.claimed ≤ q.front + size
  holds : Ring.Holds q.cells cap q.released q.front
  past : (q.consumed.take q.epochStart).Sublist (q.released.take q.epochFront)
  delivered :
    q.consumed.drop q.epochStart =
      (q.released.drop q.epochFront).take (q.consumed.length - q.epochStart)

/- A FIFO nothing was published to. -/
def empty (cells : Nat → α) : Fifo α :=
  ⟨cells, [], [], 0, 0, 0, 0⟩

theorem inv_empty (cap size : Nat) (cells : Nat → α) : Inv cap size (empty cells) where
  start_le := Nat.le_refl 0
  avail := Nat.le_refl 0
  room := Nat.zero_le _
  holds := by
    intro i hi
    exact absurd hi (Nat.not_lt_zero i)
  past := List.Sublist.refl _
  delivered := rfl

end Fifo

--
-- Preservation
--

namespace Fifo

namespace Inv

variable {α : Type*} {cap size : Nat} {q : Fifo α}

theorem order (h : Inv cap size q) : q.front ≤ q.rear :=
  Nat.le_trans (Nat.le_add_right _ _) h.avail

theorem filled_le (h : Inv cap size q) : q.rear ≤ q.front + size :=
  Nat.le_trans (Nat.le_add_right _ _) h.room

theorem claim (h : Inv cap size q) {count : Nat} (hRoom : q.rear + count ≤ q.front + size) :
    Inv cap size (q.claim count) :=
  { h with room := hRoom }

theorem borrow (h : Inv cap size q) {count : Nat} (hAvail : q.front + count ≤ q.rear) :
    Inv cap size (q.borrow count) :=
  { h with avail := hAvail }

theorem write (h : Inv cap size q) (hSize : size ≤ cap) {offset : Nat}
    (hOffset : offset < q.claimed) (a : α) : Inv cap size (q.write cap offset a) := by
  have hRoom := h.room
  have hFree : q.released.length ≤ q.rear + offset := Nat.le_add_right _ _
  exact { h with
    holds := h.holds.update hFree (by omega) a }

theorem produce (h : Inv cap size q) {count : Nat} (hCount : count ≤ q.claimed) :
    Inv cap size (q.produce cap count) := by
  have hAvail := h.avail
  have hRoom := h.room
  have hRear : (q.produce cap count).rear = q.rear + count := by
    simp [Fifo.produce, rear]
  have hFront : (q.produce cap count).front = q.front := rfl
  refine
    { start_le := h.start_le
      avail := ?_
      room := ?_
      holds := h.holds.publish count
      past := ?_
      delivered := ?_ }
  · rw [hRear, hFront]
    exact Nat.le_trans hAvail (Nat.le_add_right _ _)
  · rw [hRear, hFront]
    simp only [Fifo.produce]
    omega
  · have hLe : q.epochFront ≤ q.released.length := Nat.le_trans (Nat.le_add_right _ _) h.order
    simp only [Fifo.produce]
    rw [List.take_append_of_le_length hLe]
    exact h.past
  · have hLe : q.epochFront + (q.consumed.length - q.epochStart) ≤ q.released.length := h.order
    simp only [Fifo.produce]
    rw [List.drop_append_of_le_length (by omega),
      List.take_append_of_le_length (by rw [List.length_drop]; omega)]
    exact h.delivered

theorem consume (h : Inv cap size q) {count : Nat} (hCount : count ≤ q.borrowed) :
    Inv cap size (q.consume cap count) := by
  have hStart := h.start_le
  have hAvail := h.avail
  have hRoom := h.room
  have hFront : (q.consume cap count).front = q.front + count := consume_front hStart
  have hRear : (q.consume cap count).rear = q.rear := rfl
  refine
    { start_le := ?_
      avail := ?_
      room := ?_
      holds := ?_
      past := ?_
      delivered := ?_ }
  · simp only [Fifo.consume, List.length_append]
    omega
  · rw [hFront, hRear]
    simp only [Fifo.consume]
    omega
  · rw [hFront, hRear]
    simp only [Fifo.consume]
    omega
  · rw [hFront]
    exact h.holds.mono (Nat.le_add_right _ _)
  · simp only [Fifo.consume]
    rw [List.take_append_of_le_length hStart]
    exact h.past
  · have hWindow : Ring.window q.cells cap q.front count = (q.released.drop q.front).take count :=
      h.holds.window_eq (Nat.le_trans (by omega) hAvail)
    have hLength :
        (q.consumed ++ (q.released.drop q.front).take count).length - q.epochStart =
          (q.consumed.length - q.epochStart) + count := by
      have hLe : q.front + count ≤ q.released.length := Nat.le_trans (by omega) hAvail
      rw [List.length_append, List.length_take, List.length_drop]
      omega
    simp only [Fifo.consume]
    rw [hWindow, hLength, List.drop_append_of_le_length hStart, h.delivered,
      List.take_add, List.drop_drop]
    rfl

/- All frames consumed so far, by position. -/
theorem consumed_sublist (h : Inv cap size q) : q.consumed.Sublist (q.released.take q.front) := by
  have hAll :
      (q.consumed.take q.epochStart ++ q.consumed.drop q.epochStart).Sublist
        (q.released.take q.epochFront ++
          (q.released.drop q.epochFront).take (q.consumed.length - q.epochStart)) := by
    rw [h.delivered]
    exact h.past.append_right _
  rw [List.take_append_drop, ← List.take_add] at hAll
  exact hAll

/- Skipping needs a consumer that holds nothing. -/
theorem skip (h : Inv cap size q) {position : Nat} (hIdle : q.borrowed = 0)
    (hFront : q.front ≤ position) (hRear : position ≤ q.rear) : Inv cap size (q.skip position) := by
  have hRoom := h.room
  have hNew : (q.skip position).front = position := by
    simp [Fifo.skip, front]
  refine
    { start_le := Nat.le_refl _
      avail := ?_
      room := ?_
      holds := ?_
      past := ?_
      delivered := ?_ }
  · rw [hNew]
    simp only [Fifo.skip, hIdle]
    exact hRear
  · rw [hNew]
    exact Nat.le_trans hRoom (Nat.add_le_add_right hFront _)
  · rw [hNew]
    exact h.holds.mono hFront
  · simp only [Fifo.skip, List.take_length]
    exact h.consumed_sublist.trans (List.take_sublist_take_left hFront)
  · simp [Fifo.skip]

--
-- Consequences
--

/- The two sides never own the same cell. -/
theorem disjoint (h : Inv cap size q) (hSize : size ≤ cap) {i j : Nat} (hi : i < q.claimed)
    (hj : j < q.borrowed) : (q.rear + i) % cap ≠ (q.front + j) % cap := by
  have hAvail := h.avail
  have hRoom := h.room
  exact (Ring.mod_ne_of_lt (by omega) (by omega)).symm

/- What the consumer reads is what was published. -/
theorem borrowed_eq (h : Inv cap size q) {j : Nat} (hj : j < q.borrowed) :
    q.released[q.front + j]? = some (q.cells ((q.front + j) % cap)) := by
  have hAvail : q.front + q.borrowed ≤ q.released.length := h.avail
  have hLt : q.front + j < q.released.length := by
    omega
  rw [List.getElem?_eq_getElem hLt, h.holds (q.front + j) hLt (by omega)]

/- Inside an epoch the consumer receives a prefix. -/
theorem delivered_prefix (h : Inv cap size q) :
    q.consumed.drop q.epochStart <+: q.released.drop q.epochFront := by
  rw [h.delivered]
  exact List.take_prefix _ _

end Inv

end Fifo

end FrameworksAv
