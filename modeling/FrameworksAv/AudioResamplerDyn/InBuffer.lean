import Mathlib.Algebra.Order.Ring.Int

/-
  The input buffer of the resampler (`AudioResamplerDyn::InBuffer`).

  Positions count frames from the start of the storage, where the code counts samples and has one
  frame for each `CHANNELS` samples. The pointer `impulse` that the code keeps in a local variable
  is `mImpulse` here.

  Main declarations:
    * `InBuffer`, `InBuffer.resize`, `InBuffer.readAdvance`
    * `InBuffer.window`, `history`
    * `InBuffer.Reads`, `InBuffer.Reads.readAdvance`
-/

--
-- Model
--

namespace FrameworksAv

namespace AudioResamplerDyn

variable {α : Type*}

/- `allocated` is `mState != NULL`. -/
structure InBuffer (α : Type*) where
  allocated : Bool
  mState : Nat → α
  mImpulse : Nat
  mRingFull : Nat
  mStateCount : Nat

def kStateSizeMultipleOfFilterLength : Nat := 4

namespace InBuffer

def init [Zero α] : InBuffer α where
  allocated := false
  mState _ := 0
  mImpulse := 0
  mRingFull := 0
  mStateCount := 0

/- New storage for a filter length.  What is left of the frames around the impulse is kept. -/
def resize [Zero α] (b : InBuffer α) (halfNumCoefs : Nat) : InBuffer α :=
  let stateCount := halfNumCoefs * 2 * kStateSizeMultipleOfFilterLength
  if b.allocated = true ∧ stateCount = b.mStateCount ∧
      b.mRingFull = b.mStateCount - halfNumCoefs then b
  else
    let srcLo := b.mImpulse - halfNumCoefs
    let srcHi := min (b.mImpulse + halfNumCoefs) b.mStateCount
    let dst := halfNumCoefs - b.mImpulse
    { allocated := true
      mState := fun i =>
        if b.allocated = true ∧ dst ≤ i ∧ i < dst + (srcHi - srcLo) then
          b.mState (srcLo + (i - dst))
        else 0
      mImpulse := halfNumCoefs
      mRingFull := stateCount - halfNumCoefs
      mStateCount := stateCount }

/- A frame goes to the head of the buffer. -/
def readAgain (b : InBuffer α) (halfNumCoefs : Nat) (frame : α) : InBuffer α :=
  { b with
    mState :=
      Function.update b.mState (b.mImpulse + halfNumCoefs)
        frame }

/- The frames in use move down at the end of the ring. -/
def shift (b : InBuffer α) (halfNumCoefs : Nat) : InBuffer α :=
  let shiftDown := b.mRingFull - halfNumCoefs
  { b with
    mState := fun i =>
      if i < halfNumCoefs * 2 then b.mState (i + shiftDown)
      else b.mState i
    mImpulse := b.mImpulse - shiftDown }

def readAdvance (b : InBuffer α) (halfNumCoefs : Nat) (frame : α) : InBuffer α :=
  let next := { b with mImpulse := b.mImpulse + 1 }
  if next.mRingFull ≤ next.mImpulse then (next.shift halfNumCoefs).readAgain halfNumCoefs frame
  else next.readAgain halfNumCoefs frame

/- The frames that `fir` reads, from `impulse[-halfNumCoefs + 1]` to `impulse[halfNumCoefs]`. -/
def window (b : InBuffer α) (halfNumCoefs : Nat) : List α :=
  (List.range (halfNumCoefs * 2)).map (fun k =>
    b.mState (b.mImpulse + 1 + k - halfNumCoefs))

end InBuffer

/-
  The frame at a position of the window when the first `frames` frames of the input have been read.
-/
def past [Zero α] (input : Nat → α) (halfNumCoefs frames k : Nat) : α :=
  if frames + k < halfNumCoefs * 2 then 0
  else input (frames + k - halfNumCoefs * 2)

/- The last frames that have been read, after silence. -/
def history [Zero α] (input : Nat → α) (halfNumCoefs frames : Nat) : List α :=
  (List.range (halfNumCoefs * 2)).map (past input halfNumCoefs frames)

end AudioResamplerDyn

--
-- Window
--

namespace AudioResamplerDyn

variable {α : Type*} [Zero α]

namespace InBuffer

/-
  The buffer has read the first `frames` frames of the input. The window and the head are within its
  storage.
-/
structure Reads (input : Nat → α) (halfNumCoefs : Nat) (b : InBuffer α) (frames : Nat) : Prop where
  count : b.mStateCount = halfNumCoefs * 2 * kStateSizeMultipleOfFilterLength
  full : b.mRingFull = b.mStateCount - halfNumCoefs
  low : halfNumCoefs ≤ b.mImpulse
  high : b.mImpulse < b.mRingFull
  frame :
    ∀ k, k < halfNumCoefs * 2 →
      b.mState (b.mImpulse + 1 + k - halfNumCoefs) = past input halfNumCoefs frames k

variable {input : Nat → α} {halfNumCoefs frames : Nat} {b : InBuffer α}

/- The window shows the last frames that have been read. -/
theorem Reads.window_eq (h : b.Reads input halfNumCoefs frames) :
    b.window halfNumCoefs = history input halfNumCoefs frames := by
  unfold InBuffer.window history
  apply List.map_congr_left
  intro k hk
  exact h.frame k (List.mem_range.mp hk)

/- A new buffer has read nothing. -/
theorem resize_init (input : Nat → α) (hPos : 0 < halfNumCoefs) :
    (init.resize halfNumCoefs : InBuffer α).Reads input halfNumCoefs 0 := by
  unfold resize init kStateSizeMultipleOfFilterLength
  simp only [Bool.false_eq_true, false_and, if_false]
  refine ⟨rfl, rfl, Nat.le_refl _, ?_, ?_⟩
  · simp only
    omega
  · intro k hk
    simp only
    unfold past
    rw [if_pos (by omega)]

/- The next frame of the window is the one after it. -/
theorem past_succ (input : Nat → α) (halfNumCoefs frames k : Nat) :
    past input halfNumCoefs (frames + 1) k = past input halfNumCoefs frames (k + 1) := by
  unfold past
  rw [Nat.add_right_comm, Nat.add_assoc]

theorem past_last (input : Nat → α) (frames : Nat) {k : Nat} (hLast : k + 1 = halfNumCoefs * 2) :
    past input halfNumCoefs (frames + 1) k = input frames := by
  unfold past
  rw [if_neg (by omega)]
  congr 1
  omega

theorem Reads.readAdvance (h : b.Reads input halfNumCoefs frames) (hPos : 0 < halfNumCoefs) :
    (b.readAdvance halfNumCoefs (input frames)).Reads input halfNumCoefs (frames + 1) := by
  have hCount := h.count
  have hFull := h.full
  have hLow := h.low
  have hHigh := h.high
  unfold kStateSizeMultipleOfFilterLength at hCount
  unfold InBuffer.readAdvance
  simp only
  by_cases hShift : b.mRingFull ≤ b.mImpulse + 1
  · rw [if_pos hShift]
    unfold readAgain shift
    refine ⟨h.count, h.full, ?_, ?_, ?_⟩
    · simp only
      omega
    · simp only
      omega
    · intro k hk
      simp only
      by_cases hLast : k + 1 = halfNumCoefs * 2
      · rw [past_last input frames hLast]
        have hHead :
            b.mImpulse + 1 - (b.mRingFull - halfNumCoefs) + 1 + k - halfNumCoefs =
              b.mImpulse + 1 - (b.mRingFull - halfNumCoefs) + halfNumCoefs := by
          omega
        rw [hHead, Function.update_self]
      · rw [past_succ, Function.update_of_ne (by omega),
          if_pos (by omega), ← h.frame (k + 1) (by omega)]
        congr 1
        omega
  · rw [if_neg hShift]
    unfold readAgain
    refine ⟨h.count, h.full, ?_, ?_, ?_⟩
    · simp only
      omega
    · simp only
      omega
    · intro k hk
      simp only
      by_cases hLast : k + 1 = halfNumCoefs * 2
      · rw [past_last input frames hLast]
        have hHead : b.mImpulse + 1 + 1 + k - halfNumCoefs = b.mImpulse + 1 + halfNumCoefs := by
          omega
        rw [hHead, Function.update_self]
      · rw [past_succ, Function.update_of_ne (by omega), ← h.frame (k + 1) (by omega)]
        congr 1
        omega

end InBuffer

end AudioResamplerDyn

end FrameworksAv
