import FrameworksAv.SkipCutBuffer.Buffer

/-
  What a `SkipCutBuffer` does to a stream of buffers.

  When the cut buffer is enlarged while its bytes wrap around its end, the bytes in front are no
  longer where they are read.

  Main declarations:
    * `kept`, `withheld`
    * `Stream.step`, `Stream.Delivers`, `Stream.Harmless`
    * `Stream.delivers_iff`
-/

--
-- Cut streams
--

namespace FrameworksAv

namespace SkipCutBuffers

variable {α : Type*}

/- All but the last `cut` bytes. -/
def kept (cut : Nat) (bytes : List α) : List α :=
  bytes.take (bytes.length - cut)

/- The last `cut` bytes, or all there are. -/
def withheld (cut : Nat) (bytes : List α) : List α :=
  bytes.drop (bytes.length - cut)

theorem withheld_length (cut : Nat) (bytes : List α) :
    (withheld cut bytes).length = min cut bytes.length := by
  unfold withheld
  rw [List.length_drop]
  omega

theorem kept_length (cut : Nat) (bytes : List α) :
    (kept cut bytes).length = bytes.length - cut := by
  unfold kept
  rw [List.length_take]
  omega

theorem kept_append_withheld (cut : Nat) (bytes : List α) :
    kept cut bytes ++ withheld cut bytes = bytes :=
  List.take_append_drop _ _

/- The place of the cut after more bytes. -/
theorem length_sub_cut (cut : Nat) (bytes more : List α) :
    (bytes ++ more).length - cut =
      (kept cut bytes).length + ((withheld cut bytes ++ more).length - cut) := by
  rw [List.length_append, List.length_append, kept_length, withheld_length]
  omega

/- More bytes let as many of the withheld ones go. -/
theorem kept_append (cut : Nat) (bytes more : List α) :
    kept cut (bytes ++ more) = kept cut bytes ++ kept cut (withheld cut bytes ++ more) := by
  have hSplit : bytes ++ more = kept cut bytes ++ (withheld cut bytes ++ more) := by
    rw [← List.append_assoc, kept_append_withheld]
  have hLength := length_sub_cut cut bytes more
  conv_lhs => rw [kept, hLength, hSplit]
  exact List.take_length_add_append _

theorem withheld_append (cut : Nat) (bytes more : List α) :
    withheld cut (bytes ++ more) = withheld cut (withheld cut bytes ++ more) := by
  have hSplit : bytes ++ more = kept cut bytes ++ (withheld cut bytes ++ more) := by
    rw [← List.append_assoc, kept_append_withheld]
  have hLength := length_sub_cut cut bytes more
  conv_lhs => rw [withheld, hLength, hSplit]
  exact List.drop_length_add_append _

--
-- Streams
--

inductive Call (α : Type*)
| submit (buffer : Buffer α)
| clear

/-
  A cut buffer, with all that was submitted to it and all that was left in the buffers since
  construction or `clear`.
-/
structure Stream (α : Type*) where
  cutBuffer : SkipCutBuffer α
  submitted : List α
  delivered : List (Option α)

namespace Stream

def start (α : Type*) (skip cut : Int) : Stream α :=
  ⟨.create α skip cut, [], []⟩

variable (s : Stream α)

def step : Call α → Option (Stream α)
| .submit buffer =>
  (s.cutBuffer.submit buffer).map (fun r =>
    { cutBuffer := r.1
      submitted := s.submitted ++ buffer.data
      delivered := s.delivered ++ r.2.1.take r.2.2 })
| .clear => some ⟨s.cutBuffer.clear, [], []⟩

/-
  The next call succeeds, the length it reports is at most what it copied and what the buffer holds,
  and all that was left in the buffers is what was submitted without its start and end.
-/
def Delivers (skip cut : Nat) (buffer : Buffer α) : Prop :=
  ∃ r,
    s.cutBuffer.submit buffer = some r ∧ r.2.2 ≤ r.2.1.length ∧ r.2.2 ≤ buffer.capacity ∧
      s.delivered ++ r.2.1.take r.2.2 = (kept cut ((s.submitted ++ buffer.data).drop skip)).map some

/-
  The sizes stay below 2 GiB, and the cut buffer is not to be enlarged while its bytes wrap around
  its end.
-/
def Harmless (buffer : Buffer α) : Prop :=
  let b := s.cutBuffer
  let num := buffer.data.length - b.mFrontPadding
  buffer.capacity < 2 ^ 31 ∧
    (b.Grows num → b.mReadHead ≤ b.mWriteHead ∧ b.size + 32 + num < (2 ^ 31 : Int))

instance (buffer : Buffer α) : Decidable (s.Harmless buffer) := by
  unfold Harmless
  infer_instance

def HarmlessCall : Call α → Prop
| .submit buffer => s.Harmless buffer
| .clear => True

instance (call : Call α) : Decidable (s.HarmlessCall call) := by
  cases call <;> unfold HarmlessCall <;> infer_instance

/- The bytes held are those that are withheld. -/
structure Inv (skip cut : Nat) (s : Stream α) : Prop where
  holding : s.cutBuffer.Holding (withheld cut (s.submitted.drop skip))
  mSkip : s.cutBuffer.mSkip = skip
  front : s.cutBuffer.mFrontPadding = skip - s.submitted.length
  back : s.cutBuffer.mBackPadding = cut
  capacity : cut + 4096 ≤ s.cutBuffer.mCapacity
  delivered : s.delivered = (kept cut (s.submitted.drop skip)).map some

variable {skip cut : Nat} {s : Stream α}

/- What is left of a buffer once its start is dropped. -/
theorem drop_padding (data : List α) (padding : Nat) :
    data.drop (if data.length < padding then data.length else padding) = data.drop padding := by
  by_cases hAll : data.length < padding
  · rw [if_pos hAll, List.drop_length, List.drop_of_length_le (le_of_lt hAll)]
  · rw [if_neg hAll]

theorem start_inv (hCut : cut ≤ 65536) : Inv skip cut (start α skip cut) := by
  unfold start SkipCutBuffer.create
  rw [if_neg (by omega)]
  constructor
  · constructor
    · simp
    · simp [withheld]
    · simp only [List.drop_nil, withheld, List.length_nil]
      omega
    · simp [withheld]
  · exact Int.toNat_natCast skip
  · exact Int.toNat_natCast skip
  · exact Int.toNat_natCast cut
  · exact le_refl _
  · simp [kept]

theorem Inv.clear (h : s.Inv skip cut) : Inv skip cut ⟨s.cutBuffer.clear, [], []⟩ := by
  have hRoom := h.holding.room
  constructor
  · constructor
    · exact Nat.lt_of_lt_of_le (Nat.succ_pos _) (le_trans (Nat.le_add_left _ _) h.capacity)
    · simp [SkipCutBuffer.clear, withheld]
    · simp only [List.drop_nil, withheld, List.length_nil, SkipCutBuffer.clear]
      omega
    · simp [withheld]
  · exact h.mSkip
  · exact h.mSkip
  · exact h.back
  · exact h.capacity
  · simp [kept]

/- A harmless call delivers, and keeps the invariant. -/
theorem Inv.submit (h : s.Inv skip cut) {buffer : Buffer α} (hHarmless : s.Harmless buffer) :
    ∃ r,
      s.cutBuffer.submit buffer = some r ∧ r.2.2 ≤ r.2.1.length ∧ r.2.2 ≤ buffer.capacity ∧
        Inv skip cut
          { cutBuffer := r.1
            submitted := s.submitted ++ buffer.data
            delivered := s.delivered ++ r.2.1.take r.2.2 } := by
  rcases hHarmless with ⟨hSmall, hGrow⟩
  have hFits := buffer.fits
  have hRest :
      (s.submitted ++ buffer.data).drop skip =
        s.submitted.drop skip ++ buffer.data.drop s.cutBuffer.mFrontPadding := by
    rw [List.drop_append, h.front]
  generalize hSrc : buffer.data.drop s.cutBuffer.mFrontPadding = src at hRest
  have hNum : src.length = buffer.data.length - s.cutBuffer.mFrontPadding := by
    rw [← hSrc, List.length_drop]
  generalize hHeld : withheld cut (s.submitted.drop skip) = held at *
  have hHolding := h.holding
  rw [hHeld] at hHolding
  unfold SkipCutBuffer.submit
  rw [if_neg (by omega)]
  simp only
  rw [drop_padding, hSrc]
  -- the padding is not part of what is held
  have hDropped :
      SkipCutBuffer.Holding
        { s.cutBuffer with
          mFrontPadding :=
            s.cutBuffer.mFrontPadding -
              if buffer.data.length < s.cutBuffer.mFrontPadding then buffer.data.length
              else s.cutBuffer.mFrontPadding }
        held :=
    ⟨hHolding.read, hHolding.write, hHolding.room, hHolding.contents⟩
  rcases SkipCutBuffer.write_spec hDropped src (by
      intro hGrows
      rcases hGrow (by rw [← hNum]; exact hGrows) with ⟨hHeads, hBig⟩
      refine ⟨hHeads, ?_⟩
      rw [hHolding.size, ← hNum] at hBig
      exact_mod_cast hBig) with
    ⟨b, hWrite, hNew, hSkip, hFront, hBack, hCapacity⟩
  have hCut : b.mBackPadding = cut := hBack.trans h.back
  have hHeldLength : held.length ≤ cut := by
    rw [← hHeld, withheld_length]
    exact Nat.min_le_left _ _
  have hEnough : (held ++ src).length - b.mBackPadding ≤ buffer.capacity := by
    rw [List.length_append, hCut]
    omega
  rcases SkipCutBuffer.read_spec hNew hEnough with
    ⟨b', hRead, hLeft, hSkip', hFront', hBack', hCapacity'⟩
  rw [hWrite, Option.bind_some, hRead, Option.bind_some, if_neg (Nat.not_lt.mpr hEnough)]
  refine ⟨_, rfl, ?_, hEnough, ?_⟩
  · simp only [List.length_map, List.length_take]
    omega
  · rw [hCut] at hLeft ⊢
    constructor
    · simp only
      rw [hRest, withheld_append, hHeld]
      exact hLeft
    · exact (hSkip'.trans hSkip).trans h.mSkip
    · simp only
      rw [hFront', hFront]
      simp only
      rw [h.front, List.length_append]
      split <;> omega
    · exact hBack'.trans hCut
    · simp only
      rw [hCapacity']
      exact le_trans h.capacity hCapacity
    · simp only
      rw [hRest, kept_append, List.map_append, ← h.delivered, hHeld]
      congr 1
      rw [List.take_of_length_le]
      · rfl
      · rw [List.length_map, List.length_take]
        exact Nat.min_le_left _ _

/- A harmful call of usual size reports a wrong length. -/
theorem Inv.not_delivers (h : s.Inv skip cut) {buffer : Buffer α}
    (hSmall : buffer.capacity < 2 ^ 31) (hHarm : ¬ s.Harmless buffer) :
    ¬ s.Delivers skip cut buffer := by
  rintro ⟨r, hSubmit, hCopied, -, hOut⟩
  have hCapacity := h.capacity
  have hHolding := h.holding
  generalize hHeld : withheld cut (s.submitted.drop skip) = held at *
  have hHeldLength : held.length = min cut (s.submitted.drop skip).length := by
    rw [← hHeld, withheld_length]
  have hLengths := congrArg List.length hOut
  rw [h.delivered] at hLengths
  simp only [List.length_append, List.length_map, List.length_take, kept_length, List.length_drop]
    at hLengths hHeldLength
  rw [Nat.min_eq_left hCopied] at hLengths
  unfold SkipCutBuffer.submit at hSubmit
  rw [if_neg (by omega)] at hSubmit
  simp only at hSubmit
  rw [drop_padding] at hSubmit
  generalize hSrc : buffer.data.drop s.cutBuffer.mFrontPadding = src at hSubmit
  have hNum : src.length = buffer.data.length - s.cutBuffer.mFrontPadding := by
    rw [← hSrc, List.length_drop]
  have hFront := h.front
  unfold Harmless at hHarm
  simp only [← hNum] at hHarm
  rw [Classical.not_and_iff_not_or_not, Classical.not_imp] at hHarm
  rcases hHarm with hBig | ⟨hGrows, hBad⟩
  · exact hBig hSmall
  rw [hHolding.size] at hBad
  have hMore := hHolding.grows_iff.mp hGrows
  rcases Option.bind_eq_some_iff.mp hSubmit with ⟨b, hWrite, hRest⟩
  rcases Option.bind_eq_some_iff.mp hRest with ⟨r', hRead, hCheck⟩
  have hSame : r' = r := by
    split at hCheck
    · cases hCheck
    · exact Option.some.inj hCheck
  rw [hSame] at hRead
  have hReturned := SkipCutBuffer.read_returned hRead
  generalize
    s.cutBuffer.mFrontPadding -
        (if buffer.data.length < s.cutBuffer.mFrontPadding then buffer.data.length
        else s.cutBuffer.mFrontPadding) =
      padding at hWrite
  have hDropped : SkipCutBuffer.Holding { s.cutBuffer with mFrontPadding := padding } held :=
    ⟨hHolding.read, hHolding.write, hHolding.room, hHolding.contents⟩
  by_cases hWrapped : s.cutBuffer.mWriteHead < s.cutBuffer.mReadHead
  · rcases SkipCutBuffer.write_wrapped hDropped hWrapped hGrows hWrite with ⟨hBack, hSize⟩
    have hCut : b.mBackPadding = cut := hBack.trans h.back
    rw [hCut] at hReturned
    simp only at hSize
    rcases hSize with hSize | ⟨hSize, hLess⟩
    · omega
    · omega
  · -- too large to be allocated
    unfold SkipCutBuffer.write at hWrite
    have hGrow := SkipCutBuffer.grow_eq hDropped src.length
    have hHuge : 2 ^ 31 ≤ held.length + 32 + src.length := by
      by_contra hNot
      apply hBad
      refine ⟨Nat.le_of_not_lt hWrapped, ?_⟩
      omega
    rw [hGrow, if_pos hHuge] at hWrite
    rw [if_pos (by exact hGrows)] at hWrite
    cases hWrite

/- Harmless calls keep the invariant. -/
theorem inv_of_run (hCut : cut ≤ 65536) {calls : List (Call α)}
    (hRun : Run.exec (Run.guarded HarmlessCall step) (start α skip cut) calls = some s) :
    Inv skip cut s := by
  apply Run.exec_invariant ?_ hRun (start_inv hCut)
  intro t call u h hStep
  rcases Run.guarded_eq_some.mp hStep with ⟨hHarmless, hNext⟩
  cases call with
  | submit buffer =>
    rcases h.submit hHarmless with ⟨r, hSubmit, -, -, hNew⟩
    rw [step, hSubmit, Option.map_some, Option.some.injEq] at hNext
    rw [← hNext]
    exact hNew
  | clear =>
    cases hNext
    exact h.clear

/-
  In every run of harmless calls, what was left in the buffers is what was submitted without its
  start and end, and so it is after every harmless call, and after no other call with a buffer of
  usual size.
-/
theorem delivers_iff {α : Type*} {skip cut : Nat} (hCut : cut ≤ 65536) {calls : List (Call α)}
    {s : Stream α}
    (hRun : Run.exec (Run.guarded HarmlessCall step) (start α skip cut) calls = some s) :
    s.delivered = (kept cut (s.submitted.drop skip)).map some ∧
      ∀ buffer : Buffer α,
        (s.Harmless buffer → s.Delivers skip cut buffer) ∧
          (buffer.capacity < 2 ^ 31 → (s.Delivers skip cut buffer ↔ s.Harmless buffer)) := by
  have hInv := inv_of_run hCut hRun
  have hEnough : ∀ buffer, s.Harmless buffer → s.Delivers skip cut buffer := by
    intro buffer hHarmless
    rcases hInv.submit hHarmless with ⟨r, hSubmit, hCopied, hFits, hNew⟩
    exact ⟨r, hSubmit, hCopied, hFits, hNew.delivered⟩
  refine ⟨hInv.delivered, ?_⟩
  intro buffer
  refine ⟨hEnough buffer, ?_⟩
  intro hSmall
  constructor
  · intro hDelivers
    by_contra hHarm
    exact hInv.not_delivers hSmall hHarm hDelivers
  · exact hEnough buffer

/- A buffer that is full. -/
def full (count : Nat) : Buffer Unit :=
  ⟨List.replicate count (), count, le_of_eq List.length_replicate⟩

/- Cutting one byte, after which the bytes wrap around, and one byte more does not fit. -/
theorem full_wrapped :
    ∃ s,
      Run.exec (Run.guarded HarmlessCall step) (start Unit (0 : Nat) (1 : Nat))
          [.submit (full 4060), .submit (full 37)] =
        some s ∧ s.Harmless (full 4064) ∧ ¬ s.Harmless (full 4065) := by
  have hSome :
      (Run.exec (Run.guarded HarmlessCall step) (start Unit (0 : Nat) (1 : Nat))
            [.submit (full 4060), .submit (full 37)]).any
          (fun s => decide (s.Harmless (full 4064) ∧ ¬ s.Harmless (full 4065))) =
        true := by
    decide +kernel
  rcases (Option.any_eq_true _ _).mp hSome with ⟨s, hRun, hSizes⟩
  exact ⟨s, hRun, of_decide_eq_true hSizes⟩

theorem full_delivers :
    ∃ s,
      Run.exec (Run.guarded HarmlessCall step) (start Unit (0 : Nat) (1 : Nat))
          [.submit (full 4060), .submit (full 37)] =
        some s ∧ s.Delivers 0 1 (full 4064) := by
  rcases full_wrapped with ⟨s, hRun, hHarmless, -⟩
  exact ⟨s, hRun, ((delivers_iff (by decide) hRun).2 (full 4064)).1 hHarmless⟩

/- One byte more is lost with others. -/
theorem full_lost :
    ∃ s,
      Run.exec step (start Unit (0 : Nat) (1 : Nat)) [.submit (full 4060), .submit (full 37)] =
        some s ∧ ¬ s.Delivers 0 1 (full 4065) := by
  rcases full_wrapped with ⟨s, hRun, -, hHarm⟩
  have hInv : Inv 0 1 s := inv_of_run (by decide) hRun
  exact ⟨s, Run.exec_of_guarded hRun, hInv.not_delivers (by decide) hHarm⟩

end Stream

end SkipCutBuffers

end FrameworksAv
