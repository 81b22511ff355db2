import FrameworksAv.Base.Ring
import FrameworksAv.Base.Run

/-
  `SkipCutBuffer` (media/libstagefright/SkipCutBuffer.cpp): cuts the start and the end off a stream
  of data.

  `none` stands for a failed `CHECK`, a failed allocation or a copy beyond the cut buffer. Buffers
  of 2 GiB and more, whose length `int32_t buflen` cannot hold, count as failed too.

  Main declarations:
    * `SkipCutBuffer.submit`, `SkipCutBuffer.clear`
    * `SkipCutBuffer.Holding`
    * `SkipCutBuffer.write_spec`, `SkipCutBuffer.read_spec`
-/

--
-- Model
--

namespace FrameworksAv

namespace SkipCutBuffers

variable {α : Type*}

/- A `MediaBuffer` or an `ABuffer` and the data in its range. -/
structure Buffer (α : Type*) where
  data : List α
  capacity : Nat
  fits : data.length ≤ capacity

/- The cells that have never been written are `none`. -/
structure SkipCutBuffer (α : Type*) where
  mSkip : Nat
  mFrontPadding : Nat
  mBackPadding : Nat
  mWriteHead : Nat
  mReadHead : Nat
  mCapacity : Nat
  mCutBuffer : Nat → Option α

namespace SkipCutBuffer

/- Out of range, everything is passed through. -/
def create (α : Type*) (skip cut : Int) : SkipCutBuffer α :=
  if skip < 0 ∨ cut < 0 ∨ 64 * 1024 < cut then ⟨0, 0, 0, 0, 0, 4096, fun _ => none⟩
  else ⟨skip.toNat, skip.toNat, cut.toNat, 0, 0, cut.toNat + 4096, fun _ => none⟩

variable (b : SkipCutBuffer α)

def clear : SkipCutBuffer α :=
  { b with
    mWriteHead := 0
    mReadHead := 0
    mFrontPadding := b.mSkip }

def size : Int :=
  let available : Int := b.mWriteHead - b.mReadHead
  if available < 0 then available + b.mCapacity else available

/-
  Everything must fit, with 32 bytes to spare. A negative `available` would be a huge `size_t`. The
  old cells are copied to the same places of the larger buffer.
-/
def grow (num : Nat) : Option (SkipCutBuffer α) :=
  let available : Int := b.mCapacity - b.size - 32
  if 0 ≤ available ∧ available < num then
    let newcapacity := b.mCapacity + (num - available)
    if 2 ^ 31 ≤ newcapacity then none
    else
      some
        { b with
          mCapacity := newcapacity.toNat
          mCutBuffer := fun i =>
            if i < b.mCapacity then b.mCutBuffer i else none }
  else some b

/- The part of `write` behind the reallocation. -/
def append (src : List α) : Option (SkipCutBuffer α) :=
  let copyfirst := min (b.mCapacity - b.mWriteHead) src.length
  if copyfirst = 0 then some b
  else
    let head := b.mWriteHead + copyfirst
    let rest := (src.map some).drop copyfirst
    if b.mCapacity < head ∨ b.mCapacity < rest.length then none
    else
      some
        { b with
          mWriteHead := (if head = b.mCapacity then 0 else head) + rest.length
          mCutBuffer :=
            Ring.store (Ring.store b.mCutBuffer b.mWriteHead ((src.map some).take copyfirst))
              0 rest }

def write (src : List α) : Option (SkipCutBuffer α) :=
  (b.grow src.length).bind (fun b => b.append src)

/- What is copied out, and the length that is returned. -/
def read (num : Nat) : Option (SkipCutBuffer α × List (Option α) × Nat) :=
  let available : Int := b.size - b.mBackPadding
  if available ≤ 0 then some (b, [], 0)
  else
    let num := if available < num then available.toNat else num
    let copyfirst := min (b.mCapacity - b.mReadHead) num
    if copyfirst = 0 then some (b, [], available.toNat)
    else
      let head := b.mReadHead + copyfirst
      let rest := num - copyfirst
      if b.mCapacity < head ∨ b.mCapacity < rest then none
      else
        some
          ({ b with
              mReadHead := (if head = b.mCapacity then 0 else head) + rest },
            Ring.slice b.mCutBuffer b.mReadHead copyfirst ++ Ring.slice b.mCutBuffer 0 rest,
            available.toNat)

/-
  Drop the initial data, append the rest to the cut buffer and fill the buffer from it. The result
  is what was copied and the length of the range that is set.
-/
def submit (buffer : Buffer α) : Option (SkipCutBuffer α × List (Option α) × Nat) :=
  if 2 ^ 31 ≤ buffer.capacity then none
  else
    let buflen := buffer.data.length
    let to_drop := if buflen < b.mFrontPadding then buflen else b.mFrontPadding
    let b := { b with mFrontPadding := b.mFrontPadding - to_drop }
    (b.write (buffer.data.drop to_drop)).bind (fun b =>
      (b.read buffer.capacity).bind (fun r =>
        if buffer.capacity < r.2.2 then none else some r))

end SkipCutBuffer

end SkipCutBuffers

--
-- Contents
--

namespace SkipCutBuffers

namespace SkipCutBuffer

variable {α : Type*}

/- The cut buffer holds these bytes, with room to spare. -/
structure Holding (b : SkipCutBuffer α) (held : List α) : Prop where
  read : b.mReadHead < b.mCapacity
  write : b.mWriteHead = (b.mReadHead + held.length) % b.mCapacity
  room : held.length + 32 ≤ b.mCapacity
  contents : Ring.window b.mCutBuffer b.mCapacity b.mReadHead held.length = held.map some

variable {b : SkipCutBuffer α} {held : List α}

theorem Holding.head_lt (h : b.Holding held) : b.mWriteHead < b.mCapacity := by
  have hRead := h.read
  rw [h.write]
  exact Nat.mod_lt _ (by omega)

/- The write head is behind the read head or has wrapped. -/
theorem Holding.heads (h : b.Holding held) :
    b.mWriteHead = b.mReadHead + held.length ∧ b.mReadHead ≤ b.mWriteHead ∨
      b.mWriteHead + b.mCapacity = b.mReadHead + held.length ∧ b.mWriteHead < b.mReadHead := by
  have hRead := h.read
  have hRoom := h.room
  have hWrite := h.write
  by_cases hFirst : b.mReadHead + held.length < b.mCapacity
  · left
    rw [Nat.mod_eq_of_lt hFirst] at hWrite
    omega
  · right
    have hTurn :
        b.mReadHead + held.length = b.mReadHead + held.length - b.mCapacity + b.mCapacity := by
      omega
    rw [hTurn, Nat.add_mod_right, Nat.mod_eq_of_lt] at hWrite
    · omega
    · omega

theorem Holding.size (h : b.Holding held) : b.size = held.length := by
  have hRead := h.read
  unfold SkipCutBuffer.size
  rcases h.heads with hHeads | hHeads
  · simp only
    rw [if_neg (by omega)]
    omega
  · simp only
    rw [if_pos (by omega)]
    omega

/- The buffer is enlarged for so many bytes. -/
def Grows (b : SkipCutBuffer α) (num : Nat) : Prop :=
  b.mCapacity < b.size + 32 + num

instance (num : Nat) : Decidable (b.Grows num) := by
  unfold Grows
  infer_instance

theorem Holding.grows_iff (h : b.Holding held) {num : Nat} :
    b.Grows num ↔ b.mCapacity < held.length + 32 + num := by
  unfold Grows
  rw [h.size]
  omega

/- What enlarging the buffer leaves. -/
theorem grow_eq (h : b.Holding held) (num : Nat) :
    b.grow num = if b.Grows num then if 2 ^ 31 ≤ held.length + 32 + num then none
        else
          some
            { b with
              mCapacity := held.length + 32 + num
              mCutBuffer := fun i =>
                if i < b.mCapacity then b.mCutBuffer i
                else none }
      else some b := by
  have hRoom := h.room
  unfold grow
  simp only [h.size]
  by_cases hGrows : b.Grows num
  · have hMore := h.grows_iff.mp hGrows
    rw [if_pos hGrows, if_pos (by omega)]
    have hNew :
        (b.mCapacity : Int) + (num - (b.mCapacity - held.length - 32)) =
          (held.length + 32 + num : Nat) := by
      push_cast
      omega
    rw [hNew, Int.toNat_natCast]
    by_cases hBig : 2 ^ 31 ≤ held.length + 32 + num
    · rw [if_pos (by exact_mod_cast hBig), if_pos hBig]
    · rw [if_neg (by exact_mod_cast hBig), if_neg hBig]
  · have hLess := (not_congr h.grows_iff).mp hGrows
    rw [if_neg hGrows, if_neg (by omega)]

/- Bytes that have not wrapped stay where they are. -/
theorem Holding.grow {num : Nat} (h : b.Holding held) (hFlat : b.mReadHead ≤ b.mWriteHead)
    (hGrows : b.Grows num) :
    Holding
      { b with
        mCapacity := held.length + 32 + num
        mCutBuffer := fun i =>
          if i < b.mCapacity then b.mCutBuffer i else none }
      held := by
  have hRead := h.read
  have hRoom := h.room
  have hHead := h.head_lt
  rw [h.grows_iff] at hGrows
  rcases h.heads with ⟨hWrite, -⟩ | ⟨-, hWrapped⟩
  · constructor
    · simp only
      omega
    · simp only
      rw [Nat.mod_eq_of_lt (by omega)]
      exact hWrite
    · simp only
      omega
    · have hMod : b.mReadHead % b.mCapacity = b.mReadHead := Nat.mod_eq_of_lt hRead
      have hMod' : b.mReadHead % (held.length + 32 + num) = b.mReadHead :=
        Nat.mod_eq_of_lt (by omega)
      rw [← h.contents]
      simp only
      rw [Ring.window_eq_slice _ (by omega), Ring.window_eq_slice _ (by omega), hMod, hMod']
      apply List.map_congr_left
      intro k hk
      have hk' := List.mem_range.mp hk
      exact if_pos (by omega)
  · omega

/- What is appended comes behind what is held. -/
theorem append_spec (h : b.Holding held) (src : List α)
    (hFit : held.length + src.length + 32 ≤ b.mCapacity) :
    ∃ b',
      b.append src = some b' ∧ b'.Holding (held ++ src) ∧ b'.mSkip = b.mSkip ∧
        b'.mFrontPadding = b.mFrontPadding ∧ b'.mBackPadding = b.mBackPadding ∧
        b'.mReadHead = b.mReadHead ∧ b'.mCapacity = b.mCapacity := by
  have hRead := h.read
  have hHead := h.head_lt
  unfold append
  simp only
  by_cases hNone : min (b.mCapacity - b.mWriteHead) src.length = 0
  · rw [if_pos hNone]
    have hNil : src = [] := by
      apply List.length_eq_zero_iff.mp
      omega
    refine ⟨b, rfl, ?_, rfl, rfl, rfl, rfl, rfl⟩
    rw [hNil, List.append_nil]
    exact h
  rw [if_neg hNone, if_neg]
  · refine ⟨_, rfl, ?_, rfl, rfl, rfl, rfl, rfl⟩
    constructor
    · exact hRead
    · simp only [List.length_append, List.length_drop, List.length_map]
      rw [← Nat.add_assoc, ← Nat.mod_add_mod, ← h.write]
      by_cases hFirst : b.mWriteHead + src.length < b.mCapacity
      · rw [Nat.mod_eq_of_lt hFirst, if_neg (by omega)]
        omega
      · rw [if_pos (by omega)]
        have hTurn :
            b.mWriteHead + src.length = b.mWriteHead + src.length - b.mCapacity + b.mCapacity := by
          omega
        rw [hTurn, Nat.add_mod_right, Nat.mod_eq_of_lt]
        · omega
        · omega
    · simp only [List.length_append]
      omega
    · have hPut :
          Ring.store
              (Ring.store b.mCutBuffer b.mWriteHead
                ((src.map some).take (min (b.mCapacity - b.mWriteHead) src.length)))
              0 ((src.map some).drop (min (b.mCapacity - b.mWriteHead) src.length)) =
            Ring.put b.mCutBuffer b.mCapacity b.mWriteHead (src.map some) := by
        unfold Ring.put
        by_cases hLess : src.length ≤ b.mCapacity - b.mWriteHead
        · rw [Nat.min_eq_right hLess, List.take_of_length_le,
            List.take_of_length_le, List.drop_of_length_le, List.drop_of_length_le] <;>
            simp only [List.length_map] <;> omega
        · rw [Nat.min_eq_left (by omega)]
      simp only [hPut, List.map_append, List.length_append]
      have hLength : src.length = (src.map some).length := by
        simp
      rw [h.write, hLength, Ring.window_put _ (by omega) (by omega), h.contents]
  · simp only [List.length_drop, List.length_map]
    omega

/- A write that need not move bytes that have wrapped. -/
theorem write_spec (h : b.Holding held) (src : List α)
    (hFlat :
      b.Grows src.length → b.mReadHead ≤ b.mWriteHead ∧ held.length + 32 + src.length < 2 ^ 31) :
    ∃ b',
      b.write src = some b' ∧ b'.Holding (held ++ src) ∧ b'.mSkip = b.mSkip ∧
        b'.mFrontPadding = b.mFrontPadding ∧ b'.mBackPadding = b.mBackPadding ∧
        b.mCapacity ≤ b'.mCapacity := by
  unfold write
  rw [grow_eq h]
  by_cases hGrows : b.Grows src.length
  · rcases hFlat hGrows with ⟨hHeads, hSmall⟩
    have hMore := h.grows_iff.mp hGrows
    rw [if_pos hGrows, if_neg (by omega), Option.bind_some]
    rcases append_spec (h.grow hHeads hGrows) src (by simp only; omega) with
      ⟨b', hAppend, hHolding, hSkip, hFront, hBack, -, hCapacity⟩
    refine ⟨b', hAppend, hHolding, hSkip, hFront, hBack, ?_⟩
    rw [hCapacity]
    exact le_of_lt hMore
  · have hFit := (not_congr h.grows_iff).mp hGrows
    rw [if_neg hGrows, Option.bind_some]
    rcases append_spec h src (by omega) with
      ⟨b', hAppend, hHolding, hSkip, hFront, hBack, -, hCapacity⟩
    exact ⟨b', hAppend, hHolding, hSkip, hFront, hBack, ge_of_eq hCapacity⟩

/- All but the back padding is read out. -/
theorem read_spec (h : b.Holding held) {num : Nat} (hFit : held.length - b.mBackPadding ≤ num) :
    ∃ b',
      b.read num =
          some
            (b', (held.take (held.length - b.mBackPadding)).map some,
              held.length - b.mBackPadding) ∧
        b'.Holding (held.drop (held.length - b.mBackPadding)) ∧ b'.mSkip = b.mSkip ∧
        b'.mFrontPadding = b.mFrontPadding ∧ b'.mBackPadding = b.mBackPadding ∧
        b'.mCapacity = b.mCapacity := by
  have hRead := h.read
  have hRoom := h.room
  unfold read
  simp only [h.size]
  by_cases hNone : held.length ≤ b.mBackPadding
  · have hZero : held.length - b.mBackPadding = 0 := Nat.sub_eq_zero_of_le hNone
    rw [if_pos (by omega), hZero]
    exact ⟨b, rfl, h, rfl, rfl, rfl, rfl⟩
  rw [if_neg (by omega)]
  generalize hCount : held.length - b.mBackPadding = count at *
  have hAvailable : ((held.length : Int) - b.mBackPadding).toNat = count := by
    omega
  have hNum :
      (if (held.length : Int) - b.mBackPadding < num then
          ((held.length : Int) - b.mBackPadding).toNat
        else num) = count := by
    split <;> omega
  rw [hNum, hAvailable, if_neg (by omega), if_neg (by omega)]
  have hMod : b.mReadHead % b.mCapacity = b.mReadHead := Nat.mod_eq_of_lt hRead
  have hBoth :
      Ring.window b.mCutBuffer b.mCapacity b.mReadHead count ++
          Ring.window b.mCutBuffer b.mCapacity (b.mReadHead + count) (held.length - count) =
        (held.take count).map some ++ (held.drop count).map some := by
    rw [← Ring.window_append, ← List.map_append, List.take_append_drop,
      Nat.add_sub_cancel' (by omega : count ≤ held.length)]
    exact h.contents
  have hLength :
      (Ring.window b.mCutBuffer b.mCapacity b.mReadHead count).length =
        ((held.take count).map some).length := by
    simp only [Ring.window_length, List.length_map, List.length_take]
    omega
  rcases List.append_inj hBoth hLength with ⟨hOut, hRest⟩
  have hCopied :
      Ring.slice b.mCutBuffer b.mReadHead (min (b.mCapacity - b.mReadHead) count) ++
          Ring.slice b.mCutBuffer 0 (count - min (b.mCapacity - b.mReadHead) count) =
        (held.take count).map some := by
    rw [← hOut]
    by_cases hFlat : b.mReadHead + count ≤ b.mCapacity
    · rw [Nat.min_eq_right (by omega), Nat.sub_self, Ring.window_eq_slice _ (by omega), hMod]
      exact List.append_nil _
    · rw [Nat.min_eq_left (by omega),
        Ring.window_eq_slice_append _ (by omega) (by omega) (by omega), hMod]
  have hHead :
      (if b.mReadHead + min (b.mCapacity - b.mReadHead) count = b.mCapacity then 0
        else b.mReadHead + min (b.mCapacity - b.mReadHead) count) +
          (count - min (b.mCapacity - b.mReadHead) count) =
        (b.mReadHead + count) % b.mCapacity := by
    by_cases hFirst : b.mReadHead + count < b.mCapacity
    · rw [Nat.mod_eq_of_lt hFirst, if_neg (by omega)]
      omega
    · have hTurn : b.mReadHead + count = b.mReadHead + count - b.mCapacity + b.mCapacity := by
        omega
      rw [if_pos (by omega), hTurn, Nat.add_mod_right, Nat.mod_eq_of_lt (by omega)]
      omega
  rw [hCopied, hHead]
  refine ⟨_, rfl, ?_, rfl, rfl, rfl, rfl⟩
  constructor
  · exact Nat.mod_lt _ (by omega)
  · simp only [List.length_drop]
    rw [Nat.mod_add_mod, h.write]
    congr 1
    omega
  · simp only [List.length_drop]
    omega
  · simp only [List.length_drop]
    rw [Ring.window_mod]
    exact hRest

/- The length that `read` returns. -/
theorem read_returned {num : Nat} {r : SkipCutBuffer α × List (Option α) × Nat}
    (hRead : b.read num = some r) : r.2.2 = (b.size - b.mBackPadding).toNat := by
  unfold read at hRead
  by_cases hNone : b.size - (b.mBackPadding : Int) ≤ 0
  · simp only [if_pos hNone, Option.some.injEq] at hRead
    rw [← hRead]
    simp only
    omega
  simp only [if_neg hNone] at hRead
  generalize
    (if b.size - (b.mBackPadding : Int) < num then (b.size - (b.mBackPadding : Int)).toNat
      else num) = n at hRead
  split at hRead
  · rw [Option.some.injEq] at hRead
    rw [← hRead]
  · split at hRead
    · cases hRead
    · rw [Option.some.injEq] at hRead
      rw [← hRead]

/-
  Bytes that have wrapped are not where the enlarged buffer has them: the heads are where they would
  be for another length.
-/
theorem write_wrapped (h : b.Holding held) {src : List α} (hWrapped : b.mWriteHead < b.mReadHead)
    (hGrows : b.Grows src.length) {b' : SkipCutBuffer α} (hWrite : b.write src = some b') :
    b'.mBackPadding = b.mBackPadding ∧
      (b'.size + 32 = src.length + held.length - b.mCapacity + 32 ∨
        b'.size + b.mCapacity =
          2 * (src.length + held.length + 32) - 32 ∧ src.length + held.length < b.mCapacity) := by
  have hRead := h.read
  have hRoom := h.room
  have hMore := h.grows_iff.mp hGrows
  have hHeads : b.mWriteHead + b.mCapacity = b.mReadHead + held.length := by
    rcases h.heads with ⟨-, hFlat⟩ | ⟨hHeads, -⟩
    · omega
    · exact hHeads
  unfold write at hWrite
  rw [grow_eq h, if_pos hGrows] at hWrite
  split at hWrite
  · cases hWrite
  · have hCopy : min (held.length + 32 + src.length - b.mWriteHead) src.length = src.length := by
      omega
    rw [Option.bind_some] at hWrite
    simp only [append, hCopy] at hWrite
    rw [if_neg (by omega)] at hWrite
    split at hWrite
    · cases hWrite
    · rw [Option.some.injEq] at hWrite
      rw [← hWrite]
      refine ⟨rfl, ?_⟩
      have hHead :
          (if b.mWriteHead + src.length = held.length + 32 + src.length then 0
            else b.mWriteHead + src.length) = b.mWriteHead + src.length :=
        if_neg (by omega)
      unfold size
      simp only [hHead, List.length_drop, List.length_map, Nat.sub_self, Nat.add_zero]
      split <;> omega

end SkipCutBuffer

end SkipCutBuffers

end FrameworksAv
