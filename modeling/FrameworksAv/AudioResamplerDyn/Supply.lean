import FrameworksAv.AudioResamplerDyn.Alignment

/-
  A provider with enough frames never lets the resampler run dry.

  Main declarations:
    * `offered`, `Loop.Supplied`, `Provider.credit`
    * `Loop.fetch_supplied`, `Loop.outer_supplied`
-/

--
-- Unchanged Parts
--

namespace FrameworksAv

namespace AudioResamplerDyn

variable {α : Type*}
variable (r : Resampler α)
variable (input : Nat → α)

namespace Loop

@[simp] theorem readPending_inFrameCount (s : Loop α) :
    (s.readPending r input).1.inFrameCount = s.inFrameCount := by
  induction s using readPending.induct r input with
  | case1 s hMore hNone =>
    unfold readPending
    rw [if_pos hMore, if_pos hNone]
  | case2 s hMore hSome ih =>
    unfold readPending
    rw [if_pos hMore, if_neg hSome, ih]
    rfl
  | case3 s hDone =>
    unfold readPending
    rw [if_neg hDone]

@[simp] theorem preRead_inFrameCount (s : Loop α) :
    (s.preRead r input).inFrameCount = s.inFrameCount := by
  unfold preRead
  split
  · simp only
    split
    · simp only [release, readPending_inFrameCount]
      rfl
    · rw [readPending_inFrameCount]
      rfl
  · rfl

/- The main loop only reads the buffer that is there. -/
theorem process_provider (outFrameCount : Nat) (s : Loop α) :
    (s.process r input outFrameCount).provider = s.provider ∧
      (s.process r input outFrameCount).inFrameCount = s.inFrameCount := by
  induction s using process.induct r input outFrameCount with
  | case1 s hLess read hShort =>
    unfold process
    simp only [if_pos hLess]
    rw [if_pos hShort, readPending_provider, readPending_inFrameCount]
    exact ⟨rfl, rfl⟩
  | case2 s hLess read hEnough ih =>
    have hProvider : read.1.provider = s.provider := readPending_provider r input (s.filter r)
    have hCount : read.1.inFrameCount = s.inFrameCount :=
      readPending_inFrameCount r input (s.filter r)
    unfold process
    simp only [if_pos hLess]
    rw [if_neg hEnough]
    exact ⟨ih.1.trans hProvider, ih.2.trans hCount⟩
  | case3 s hDone =>
    unfold process
    rw [if_neg hDone]
    exact ⟨rfl, rfl⟩

end Loop

end AudioResamplerDyn

--
-- Supply
--

namespace AudioResamplerDyn

/- The frames that a provider offers. -/
def offered (answers : List (Option ℕ+)) : Nat :=
  (answers.map (fun a => a.elim 0 PNat.val)).sum

/- A buffer has at least one frame. -/
theorem length_le_offered {answers : List (Option ℕ+)} (hSome : ∀ a ∈ answers, a ≠ none) :
    answers.length ≤ offered answers := by
  induction answers with
  | nil => exact Nat.le_refl 0
  | cons a answers ih =>
    rw [List.forall_mem_cons] at hSome
    have hRest := ih hSome.2
    unfold offered at *
    cases a with
    | none => exact absurd rfl hSome.1
    | some offer =>
      have hPos := offer.pos
      simp only [List.map_cons, List.sum_cons, Option.elim_some, List.length_cons]
      omega

/- The buffers to come and the frames handed out. -/
def Provider.credit (p : Provider) : Nat :=
  p.answers.length + p.served + p.held

theorem Provider.getNextBuffer_supplied {p : Provider} {frameCount : Nat}
    (hSome : ∀ a ∈ p.answers, a ≠ none) (hPos : 0 < frameCount)
    (hEnough : frameCount ≤ offered p.answers) :
    let next := p.getNextBuffer frameCount
    next.1.raw ≠ none ∧ (∀ a ∈ next.2.answers, a ≠ none) ∧
      frameCount - next.1.frameCount ≤ offered next.2.answers ∧ p.credit ≤ next.2.credit := by
  unfold getNextBuffer credit
  cases hAnswers : p.answers with
  | nil =>
    rw [hAnswers] at hEnough
    unfold offered at hEnough
    simp only [List.map_nil, List.sum_nil] at hEnough
    omega
  | cons a answers =>
    rw [hAnswers] at hSome hEnough
    rw [List.forall_mem_cons] at hSome
    cases a with
    | none => exact absurd rfl hSome.1
    | some offer =>
      have hOffer := offer.pos
      unfold offered at *
      simp only [List.map_cons, List.sum_cons, Option.elim_some] at hEnough
      refine ⟨Option.some_ne_none _, hSome.2, ?_, ?_⟩
      · simp only
        omega
      · simp only [List.length_cons]
        omega

namespace Loop

variable {α : Type*} [Zero α] {r : Resampler α} {input : Nat → α} {n left : Nat} {s : Loop α}

/- All frames that are still to be fetched are offered. -/
structure Supplied (s : Loop α) : Prop where
  answers : ∀ a ∈ s.provider.answers, a ≠ none
  enough : s.inFrameCount ≤ offered s.provider.answers

omit [Zero α] in
/- A release keeps the credit of the provider. -/
theorem release_credit (hHeld : s.provider.held = s.mBuffer.frameCount) :
    s.release.provider.credit = s.provider.credit := by
  unfold release Provider.releaseBuffer Provider.credit
  simp only [hHeld]
  omega

theorem preRead_credit (hFits : r.Fits) (h : s.Aligned r input n) (hExact : s.Exact r left)
    (hNew : s.inputIndex < s.mBuffer.frameCount) :
    (s.preRead r input).provider.credit = s.provider.credit := by
  unfold preRead
  by_cases hMore : r.mConstants.phaseWrapLimit ≤ s.phaseFraction
  · rw [if_pos hMore]
    rcases readOne_aligned hFits h hExact hMore hNew with ⟨hNext, hLeft⟩
    have hRead := (readPending_aligned hFits hNext hLeft).1
    simp only
    split
    · rw [release_credit hRead.held, readPending_provider]
      rfl
    · rw [readPending_provider]
      rfl
  · rw [if_neg hMore]

/- A supplied loop gets all the buffers that it asks for. -/
theorem fetch_supplied (hFits : r.Fits) (h : s.Aligned r input n) (hExact : s.Exact r left)
    (hSupplied : s.Supplied) :
    (s.fetch r input).2 = false ∧ (s.fetch r input).1.Supplied ∧
      s.provider.credit ≤ (s.fetch r input).1.provider.credit := by
  induction s using fetch.induct r input with
  | case1 s hMore next hRaw =>
    have hNext := Provider.getNextBuffer_supplied hSupplied.answers hMore.2 hSupplied.enough
    exact absurd hRaw hNext.1
  | case2 s hMore next source hRaw ih =>
    rcases Provider.getNextBuffer_supplied hSupplied.answers hMore.2 hSupplied.enough with
      ⟨-, hAnswers, hEnough, hCredit⟩
    rcases acquire_aligned h hExact hMore.1 hMore.2 hRaw with ⟨hNew, hRest, hIndex⟩
    have hSame := preRead_credit hFits hNew hRest hIndex
    rcases preRead_aligned hFits hNew hRest hIndex with ⟨hNext, hLast, -⟩
    have hStill :=
      ih hNext hLast
        ⟨by rw [preRead_answers]; exact hAnswers, by
            rw [preRead_answers, preRead_inFrameCount]
            exact hEnough⟩
    unfold fetch
    rw [if_pos hMore]
    simp only
    split
    · rename_i hNone
      simp only [next] at hRaw
      rw [hNone] at hRaw
      cases hRaw
    · refine ⟨hStill.1, hStill.2.1, ?_⟩
      exact (hCredit.trans_eq hSame.symm).trans hStill.2.2
  | case3 s hDone =>
    unfold fetch
    rw [if_neg hDone]
    exact ⟨rfl, hSupplied, Nat.le_refl _⟩

omit [Zero α] in
theorem finish_supplied (hSupplied : s.Supplied) : s.finish.Supplied := by
  unfold finish
  split
  · exact ⟨hSupplied.answers, hSupplied.enough⟩
  · exact hSupplied

/- A supplied call makes all its output frames. -/
theorem outer_supplied (hFits : r.Fits) {outFrameCount : Nat}
    (hCount : s.out.length ≤ outFrameCount) (h : s.Aligned r input (n + s.out.length))
    (hExact : s.Exact r (outFrameCount - s.out.length)) (hIdle : s.Idle) (hOut : s.Ideal r input n)
    (hSupplied : s.Supplied) :
    (s.outer r input outFrameCount).out.length = outFrameCount ∧
      (s.outer r input outFrameCount).Supplied ∧
      s.provider.credit ≤ (s.outer r input outFrameCount).provider.credit := by
  induction s using outer.induct r input outFrameCount with
  | case1 s hLess fetched hDry =>
    have hFetch := fetch_supplied hFits h hExact hSupplied
    simp only [fetched] at hDry
    rw [hFetch.1] at hDry
    cases hDry
  | case2 s hLess fetched hMore ih =>
    rcases fetch_supplied hFits h hExact hSupplied with ⟨-, hStill, hCredit⟩
    have hFetch := fetch_aligned hFits h hExact (Or.inr hIdle)
    rw [if_neg hMore] at hFetch
    have hSame : fetched.1.out = s.out := fetch_out r input s
    have hIdeal : fetched.1.Ideal r input n := by
      unfold Ideal at *
      rw [hSame]
      exact hOut
    rcases hFetch with ⟨hAligned, hRest, hPhase⟩
    rw [← hSame] at hAligned hRest hCount
    rcases process_aligned hFits hCount hAligned hRest hPhase
        hIdeal with ⟨hNext, hLeft, hMade, hFew, hRead⟩
    rcases finish_aligned hNext hLeft hRead with ⟨hLast, hEnd, hFree⟩
    have hProcess := process_provider r input outFrameCount fetched.1
    have hFinish :
        (fetched.1.process r input outFrameCount ).finish.provider.credit =
          fetched.1.provider.credit := by
      rw [← hProcess.1]
      unfold finish
      split
      · exact release_credit hNext.held
      · rfl
    have hAgain : (fetched.1.process r input outFrameCount ).finish.Supplied := by
      apply finish_supplied
      constructor
      · rw [hProcess.1]
        exact hStill.answers
      · rw [hProcess.1, hProcess.2]
        exact hStill.enough
    have hNow :=
      ih (by rw [finish_out]; exact hFew) (by rw [finish_out]; exact hLast)
        (by rw [finish_out]; exact hEnd) hFree
        (by
          unfold Ideal at *
          rw [finish_out]
          exact hMade)
        hAgain
    unfold outer
    simp only [if_pos hLess]
    rw [if_neg hMore]
    refine ⟨hNow.1, hNow.2.1, ?_⟩
    exact (hCredit.trans_eq hFinish.symm).trans hNow.2.2
  | case3 s hDone =>
    unfold outer
    rw [if_neg hDone]
    exact ⟨by omega, hSupplied, Nat.le_refl _⟩

end Loop

end AudioResamplerDyn

end FrameworksAv
