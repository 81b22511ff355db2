import FrameworksAv.AudioResamplerDyn.Resample

/-
  The window and the phase stay aligned with the input.

  After `n` output frames, the input frames that have been read and the phase make up `n` phase
  increments, however the input comes.

  Main declarations:
    * `ideal`
    * `Loop.Aligned`, `Loop.Exact`
    * `Loop.process_aligned`, `Loop.outer_aligned`
-/

--
-- Invariants
--

namespace FrameworksAv

namespace AudioResamplerDyn

variable {α : Type*} [Zero α]

/- Output frame `n`: the window and the phase after `n` phase increments. -/
def ideal (input : Nat → α) (c : Constants) (mPhaseIncrement n : Nat) : FirCall α where
  window := history input c.mHalfNumCoefs (n * mPhaseIncrement / c.phaseWrapLimit)
  phase := n * mPhaseIncrement % c.phaseWrapLimit

/- What the phase needs to fit into 32 bits. -/
structure Resampler.Fits (r : Resampler α) : Prop where
  coefs : 0 < r.mConstants.mHalfNumCoefs
  limit : 0 < r.mConstants.phaseWrapLimit
  sum : r.mConstants.phaseWrapLimit + r.mPhaseIncrement < 2 ^ 32

namespace Loop

/-
  The frames read so far and the phase make up `n` phase increments, and the buffer holds the frames
  that come next.
-/
structure Aligned (r : Resampler α) (input : Nat → α) (n : Nat) (s : Loop α) : Prop where
  reads : s.mInBuffer.Reads input r.mConstants.mHalfNumCoefs (s.provider.served + s.inputIndex)
  phase :
    (s.provider.served + s.inputIndex) * r.mConstants.phaseWrapLimit + s.phaseFraction =
      n * r.mPhaseIncrement
  below : s.phaseFraction < r.mConstants.phaseWrapLimit + r.mPhaseIncrement
  index : s.inputIndex ≤ s.mBuffer.frameCount
  held : s.provider.held = s.mBuffer.frameCount
  raw : 0 < s.mBuffer.frameCount → s.mBuffer.raw = some s.provider.served

/-
  The frames that are still to be fetched and those of the buffer are exactly what the output frames
  left need.
-/
def Exact (r : Resampler α) (left : Nat) (s : Loop α) : Prop :=
  s.inFrameCount + (s.mBuffer.frameCount - s.inputIndex) =
    (left * r.mPhaseIncrement + s.phaseFraction) / r.mConstants.phaseWrapLimit

/- No buffer is held. -/
structure Idle (s : Loop α) : Prop where
  buffer : s.mBuffer.frameCount = 0
  index : s.inputIndex = 0

variable {r : Resampler α} {input : Nat → α} {n left : Nat} {s : Loop α}

/- The window and phase that `fir` is called with. -/
theorem Aligned.firCall (h : s.Aligned r input n)
    (hPhase : s.phaseFraction < r.mConstants.phaseWrapLimit) :
    (⟨s.mInBuffer.window r.mConstants.mHalfNumCoefs, s.phaseFraction⟩ : FirCall α) =
      ideal input r.mConstants r.mPhaseIncrement n := by
  have hPos : 0 < r.mConstants.phaseWrapLimit := Nat.lt_of_le_of_lt (Nat.zero_le _) hPhase
  have hDivMod :=
    (Nat.div_mod_unique hPos).mpr
      ⟨(Nat.add_comm _ _).trans
        ((congrArg (fun m => m + s.phaseFraction) (Nat.mul_comm _ _)).trans h.phase), hPhase⟩
  unfold ideal
  rw [hDivMod.1, hDivMod.2, h.reads.window_eq]

theorem readOne_aligned (hFits : r.Fits) (h : s.Aligned r input n) (hExact : s.Exact r left)
    (hMore : r.mConstants.phaseWrapLimit ≤ s.phaseFraction)
    (hSome : s.inputIndex < s.mBuffer.frameCount) :
    (s.readOne r input).Aligned r input n ∧ (s.readOne r input).Exact r left := by
  have hRaw := h.raw (by omega)
  have hPhase := h.phase
  have hBelow := h.below
  constructor
  · unfold readOne
    refine ⟨?_, ?_, ?_, ?_, h.held, h.raw⟩
    · simp only [hRaw, Option.getD_some]
      exact h.reads.readAdvance hFits.coefs
    · simp only
      rw [← hPhase, ← Nat.add_assoc, Nat.add_mul, Nat.one_mul]
      omega
    · simp only
      omega
    · exact hSome
  · unfold Exact readOne at *
    simp only
    have hLess :
        (left * r.mPhaseIncrement +
            (s.phaseFraction - r.mConstants.phaseWrapLimit)) / r.mConstants.phaseWrapLimit + 1 =
          (left * r.mPhaseIncrement + s.phaseFraction) / r.mConstants.phaseWrapLimit := by
      rw [← Nat.add_div_right _ hFits.limit]
      congr 1
      omega
    omega

theorem release_aligned (h : s.Aligned r input n) (hRead : s.inputIndex = s.mBuffer.frameCount) :
    s.release.Aligned r input n := by
  unfold release Provider.releaseBuffer
  refine ⟨?_, ?_, h.below, Nat.le_refl _, ?_, ?_⟩
  · simp only [Nat.add_zero]
    rw [← hRead]
    exact h.reads
  · simp only [Nat.add_zero]
    rw [← hRead]
    exact h.phase
  · simp only [h.held, Nat.sub_self]
  · intro hSome
    exact absurd hSome (Nat.lt_irrefl 0)

omit [Zero α] in
theorem release_exact (hExact : s.Exact r left) (hRead : s.inputIndex = s.mBuffer.frameCount) :
    s.release.Exact r left := by
  unfold Exact release at *
  simp only
  omega

omit [Zero α] in
theorem release_idle (s : Loop α) : s.release.Idle := ⟨rfl, rfl⟩

/- Reading ends with the phase below the limit or with the whole buffer read. -/
theorem readPending_aligned (hFits : r.Fits) (h : s.Aligned r input n) (hExact : s.Exact r left) :
    (s.readPending r input).1.Aligned r input n ∧ (s.readPending r input).1.Exact r left ∧
      if (s.readPending r input).2 = true then
        (s.readPending r input).1.inputIndex = (s.readPending r input).1.mBuffer.frameCount
      else (s.readPending r input).1.phaseFraction < r.mConstants.phaseWrapLimit := by
  induction s using readPending.induct r input with
  | case1 s hMore hNone =>
    unfold readPending
    rw [if_pos hMore, if_pos hNone]
    exact ⟨h, hExact, Nat.le_antisymm h.index hNone⟩
  | case2 s hMore hSome ih =>
    unfold readPending
    rw [if_pos hMore, if_neg hSome]
    rcases readOne_aligned hFits h hExact hMore (Nat.lt_of_not_le hSome) with ⟨hNext, hLeft⟩
    exact ih hNext hLeft
  | case3 s hDone =>
    unfold readPending
    rw [if_neg hDone]
    exact ⟨h, hExact, Nat.lt_of_not_le hDone⟩

/- After the first reads of a new buffer the phase is below the limit, or the buffer has gone. -/
theorem preRead_aligned (hFits : r.Fits) (h : s.Aligned r input n) (hExact : s.Exact r left)
    (hNew : s.inputIndex < s.mBuffer.frameCount) :
    (s.preRead r input).Aligned r input n ∧ (s.preRead r input).Exact r left ∧
      ((s.preRead r input).phaseFraction < r.mConstants.phaseWrapLimit ∨
        (s.preRead r input).Idle) := by
  unfold preRead
  by_cases hMore : r.mConstants.phaseWrapLimit ≤ s.phaseFraction
  · rw [if_pos hMore]
    rcases readOne_aligned hFits h hExact hMore hNew with ⟨hNext, hLeft⟩
    have hRead := readPending_aligned hFits hNext hLeft
    simp only
    split
    · rename_i hShort
      rw [if_pos hShort] at hRead
      rcases hRead with ⟨hAligned, hRest, hAll⟩
      exact ⟨release_aligned hAligned hAll, release_exact hRest hAll, Or.inr (release_idle _)⟩
    · rename_i hEnough
      rw [if_neg hEnough] at hRead
      exact ⟨hRead.1, hRead.2.1, Or.inl hRead.2.2⟩
  · rw [if_neg hMore]
    exact ⟨h, hExact, Or.inl (Nat.lt_of_not_le hMore)⟩

/- What `getNextBuffer` answers. -/
theorem getNextBuffer_eq (p : Provider) (frameCount : Nat) :
    (p.getNextBuffer frameCount).1 = ⟨none, 0⟩ ∧ (p.getNextBuffer frameCount).2.served = p.served ∧
        (p.getNextBuffer frameCount).2.held = p.held ∨
      ∃ offer : ℕ+,
        (p.getNextBuffer frameCount).1 = ⟨some p.served, min (offer : Nat) frameCount⟩ ∧
          (p.getNextBuffer frameCount).2.served = p.served ∧
          (p.getNextBuffer frameCount).2.held = p.held + min (offer : Nat) frameCount := by
  unfold Provider.getNextBuffer
  split
  · exact Or.inl ⟨rfl, rfl, rfl⟩
  · exact Or.inl ⟨rfl, rfl, rfl⟩
  · rename_i offer answers _
    exact Or.inr ⟨offer, rfl, rfl, rfl⟩

/- A new buffer is aligned, with all of its frames to read. -/
theorem acquire_aligned (h : s.Aligned r input n) (hExact : s.Exact r left)
    (hNone : s.mBuffer.frameCount = 0) (hMore : 0 < s.inFrameCount) {source : Nat}
    (hRaw : (s.provider.getNextBuffer s.inFrameCount).1.raw = some source) :
    let s' : Loop α :=
      { s with
        mBuffer := (s.provider.getNextBuffer s.inFrameCount).1
        provider := (s.provider.getNextBuffer s.inFrameCount).2
        inFrameCount := s.inFrameCount - (s.provider.getNextBuffer s.inFrameCount ).1.frameCount }
    s'.Aligned r input n ∧ s'.Exact r left ∧ s'.inputIndex < s'.mBuffer.frameCount := by
  have hIndex : s.inputIndex = 0 := by
    have hLe := h.index
    omega
  rcases getNextBuffer_eq s.provider s.inFrameCount with
    ⟨hBuffer, -⟩ | ⟨offer, hBuffer, hServed, hHeld⟩
  · rw [hBuffer] at hRaw
    cases hRaw
  · have hPos : 0 < min (offer : Nat) s.inFrameCount := Nat.lt_min.mpr ⟨offer.pos, hMore⟩
    simp only [hBuffer]
    refine ⟨⟨?_, ?_, h.below, ?_, ?_, ?_⟩, ?_, ?_⟩
    · simp only [hServed]
      exact h.reads
    · simp only [hServed]
      exact h.phase
    · simp only [hIndex]
      exact Nat.zero_le _
    · simp only [hHeld, h.held, hNone, Nat.zero_add]
    · intro _
      rw [hServed]
    · unfold Exact at *
      simp only
      omega
    · omega

/-
  Fetching ends with the phase below the limit, or the provider has run dry and no buffer is held.
-/
theorem fetch_aligned (hFits : r.Fits) (h : s.Aligned r input n) (hExact : s.Exact r left)
    (hStart : s.phaseFraction < r.mConstants.phaseWrapLimit ∨ s.Idle) :
    (s.fetch r input).1.Aligned r input n ∧
      if (s.fetch r input).2 = true then (s.fetch r input).1.Idle
      else
        (s.fetch r input).1.Exact r left ∧
          (s.fetch r input).1.phaseFraction < r.mConstants.phaseWrapLimit := by
  induction s using fetch.induct r input with
  | case1 s hMore next hRaw =>
    have hIndex : s.inputIndex = 0 := by
      have hLe := h.index
      omega
    unfold fetch
    rw [if_pos hMore]
    simp only
    split
    · rcases getNextBuffer_eq s.provider s.inFrameCount with
        ⟨hBuffer, hServed, hHeld⟩ | ⟨offer, hBuffer, -⟩
      · simp only [hBuffer, if_true]
        refine ⟨⟨?_, ?_, h.below, ?_, ?_, ?_⟩, rfl, hIndex⟩
        · simp only [hServed]
          exact h.reads
        · simp only [hServed]
          exact h.phase
        · exact Nat.le_of_eq hIndex
        · simp only [hHeld, h.held, hMore.1]
        · intro hSome
          exact absurd hSome (Nat.lt_irrefl 0)
      · simp only [next, hBuffer] at hRaw
        cases hRaw
    · rename_i hSome
      simp only [next] at hRaw
      rw [hRaw] at hSome
      cases hSome
  | case2 s hMore next source hRaw ih =>
    unfold fetch
    rw [if_pos hMore]
    simp only
    split
    · rename_i hNone
      simp only [next] at hRaw
      rw [hNone] at hRaw
      cases hRaw
    · rcases acquire_aligned h hExact hMore.1 hMore.2 hRaw with ⟨hNew, hRest, hIndex⟩
      rcases preRead_aligned hFits hNew hRest hIndex with ⟨hNext, hLast, hEither⟩
      exact ih hNext hLast hEither
  | case3 s hDone =>
    unfold fetch
    rw [if_neg hDone]
    simp only [Bool.false_eq_true, if_false]
    refine ⟨h, hExact, ?_⟩
    rcases hStart with hBelow | hIdle
    · exact hBelow
    · -- nothing is needed any more
      have hZero : s.inFrameCount = 0 := by
        have hBuffer := hIdle.buffer
        omega
      unfold Exact at hExact
      rw [hZero, hIdle.buffer, Nat.zero_sub, Nat.add_zero] at hExact
      have hSum := (Nat.div_eq_zero_iff_lt hFits.limit).mp hExact.symm
      omega

/- One output frame. -/
theorem filter_aligned (hFits : r.Fits) (h : s.Aligned r input n) (hExact : s.Exact r (left + 1))
    (hPhase : s.phaseFraction < r.mConstants.phaseWrapLimit) :
    (s.filter r).Aligned r input (n + 1) ∧ (s.filter r).Exact r left := by
  have hSum := hFits.sum
  have hOld := h.phase
  have hNoWrap :
      (s.phaseFraction + r.mPhaseIncrement) % 2 ^ 32 = s.phaseFraction + r.mPhaseIncrement :=
    Nat.mod_eq_of_lt (by omega)
  unfold filter
  refine ⟨⟨h.reads, ?_, ?_, h.index, h.held, h.raw⟩, ?_⟩
  · simp only [hNoWrap]
    rw [Nat.add_mul n, Nat.one_mul]
    omega
  · simp only [hNoWrap]
    omega
  · unfold Exact at *
    simp only [hNoWrap]
    rw [hExact, Nat.add_mul left, Nat.one_mul]
    congr 1
    omega

/- The output so far is that of the ideal resampler. -/
def Ideal (r : Resampler α) (input : Nat → α) (n : Nat) (s : Loop α) : Prop :=
  s.out = (List.range' n s.out.length).map (ideal input r.mConstants r.mPhaseIncrement)

theorem filter_ideal (h : s.Aligned r input (n + s.out.length))
    (hPhase : s.phaseFraction < r.mConstants.phaseWrapLimit) (hOut : s.Ideal r input n) :
    (s.filter r).Ideal r input n := by
  have hCall := h.firCall hPhase
  unfold Ideal at *
  unfold filter
  simp only [List.length_append, List.length_singleton]
  rw [hCall, ← List.range'_append_1, List.map_append, ← hOut]
  rfl

/- One turn of the main loop. -/
theorem turn_aligned (hFits : r.Fits) {outFrameCount : Nat} (hLess : s.out.length < outFrameCount)
    (h : s.Aligned r input (n + s.out.length)) (hExact : s.Exact r (outFrameCount - s.out.length))
    (hPhase : s.phaseFraction < r.mConstants.phaseWrapLimit) (hOut : s.Ideal r input n)
    {read : Loop α × Bool} (hRead : (s.filter r).readPending r input = read) :
    read.1.out.length = s.out.length + 1 ∧ read.1.Aligned r input (n + read.1.out.length) ∧
      read.1.Exact r (outFrameCount - read.1.out.length) ∧ read.1.Ideal r input n ∧
      if read.2 = true then read.1.inputIndex = read.1.mBuffer.frameCount
      else read.1.phaseFraction < r.mConstants.phaseWrapLimit := by
  have hLength : read.1.out.length = s.out.length + 1 := by
    rw [← hRead, readPending_out]
    simp [filter]
  have hLeft : outFrameCount - s.out.length = (outFrameCount - read.1.out.length) + 1 := by
    omega
  rw [hLeft] at hExact
  rcases filter_aligned hFits h hExact hPhase with ⟨hNext, hRest⟩
  have hPending := readPending_aligned hFits hNext hRest
  rw [hRead] at hPending
  refine ⟨hLength, ?_, hPending.2.1, ?_, hPending.2.2⟩
  · rw [hLength]
    exact hPending.1
  · have hSame := filter_ideal h hPhase hOut
    unfold Ideal at *
    rw [← hRead, readPending_out]
    exact hSame

/- The main loop makes output frames until the buffer is read. -/
theorem process_aligned (hFits : r.Fits) {outFrameCount : Nat}
    (hCount : s.out.length ≤ outFrameCount) (h : s.Aligned r input (n + s.out.length))
    (hExact : s.Exact r (outFrameCount - s.out.length))
    (hPhase : s.phaseFraction < r.mConstants.phaseWrapLimit) (hOut : s.Ideal r input n) :
    (s.process r input outFrameCount).Aligned r input
        (n + (s.process r input outFrameCount).out.length) ∧
      (s.process r input outFrameCount).Exact r
        (outFrameCount - (s.process r input outFrameCount).out.length) ∧
      (s.process r input outFrameCount).Ideal r input n ∧
      (s.process r input outFrameCount).out.length ≤ outFrameCount ∧
      (s.process r input outFrameCount).inputIndex =
        (s.process r input outFrameCount).mBuffer.frameCount := by
  induction s using process.induct r input outFrameCount with
  | case1 s hLess read hShort =>
    rcases turn_aligned hFits hLess h hExact hPhase hOut rfl
      with ⟨hLength, hNext, hRest, hIdeal, hEnd⟩
    rw [if_pos hShort] at hEnd
    unfold process
    simp only [if_pos hLess]
    rw [if_pos hShort]
    exact ⟨hNext, hRest, hIdeal, by omega, hEnd⟩
  | case2 s hLess read hEnough ih =>
    rcases turn_aligned hFits hLess h hExact hPhase hOut rfl
      with ⟨hLength, hNext, hRest, hIdeal, hEnd⟩
    rw [if_neg hEnough] at hEnd
    unfold process
    simp only [if_pos hLess]
    rw [if_neg hEnough]
    have hFew : read.1.out.length ≤ outFrameCount := by
      rw [hLength]
      exact hLess
    exact ih hFew hNext hRest hEnd hIdeal
  | case3 s hDone =>
    unfold process
    rw [if_neg hDone]
    refine ⟨h, hExact, hOut, hCount, ?_⟩
    have hNone : outFrameCount - s.out.length = 0 := by omega
    unfold Exact at hExact
    rw [hNone, Nat.zero_mul, Nat.zero_add, Nat.div_eq_of_lt hPhase] at hExact
    have hIndex := h.index
    omega

theorem finish_aligned (h : s.Aligned r input n) (hExact : s.Exact r left)
    (hRead : s.inputIndex = s.mBuffer.frameCount) :
    s.finish.Aligned r input n ∧ s.finish.Exact r left ∧ s.finish.Idle := by
  unfold finish
  split
  · exact ⟨release_aligned h hRead, release_exact hExact hRead, release_idle s⟩
  · exact ⟨h, hExact, by omega, by omega⟩

/-
  A call ends without a buffer, and its output is that of the ideal resampler, also when the
  provider runs dry.
-/
theorem outer_aligned (hFits : r.Fits) {outFrameCount : Nat} (hCount : s.out.length ≤ outFrameCount)
    (h : s.Aligned r input (n + s.out.length)) (hExact : s.Exact r (outFrameCount - s.out.length))
    (hIdle : s.Idle) (hOut : s.Ideal r input n) :
    (s.outer r input outFrameCount).Aligned r input
        (n + (s.outer r input outFrameCount).out.length) ∧
      (s.outer r input outFrameCount).Idle ∧ (s.outer r input outFrameCount).Ideal r input n := by
  induction s using outer.induct r input outFrameCount with
  | case1 s hLess fetched hDry =>
    have hFetch := fetch_aligned hFits h hExact (Or.inr hIdle)
    rw [if_pos hDry] at hFetch
    unfold outer
    simp only [if_pos hLess]
    rw [if_pos hDry]
    unfold Ideal at *
    rw [fetch_out]
    exact ⟨hFetch.1, hFetch.2, hOut⟩
  | case2 s hLess fetched hMore ih =>
    have hFetch := fetch_aligned hFits h hExact (Or.inr hIdle)
    rw [if_neg hMore] at hFetch
    have hSame : fetched.1.out = s.out := fetch_out r input s
    have hIdeal : fetched.1.Ideal r input n := by
      unfold Ideal at *
      rw [hSame]
      exact hOut
    rcases hFetch with ⟨hAligned, hRest, hPhase⟩
    rw [← hSame] at hAligned hRest hCount
    rcases process_aligned hFits hCount hAligned hRest hPhase
        hIdeal with ⟨hNext, hLeft, hMade, hFew, hRead⟩
    rcases finish_aligned hNext hLeft hRead with ⟨hLast, hEnd, hFree⟩
    unfold outer
    simp only [if_pos hLess]
    rw [if_neg hMore]
    apply ih
    · rw [finish_out]
      exact hFew
    · rw [finish_out]
      exact hLast
    · rw [finish_out]
      exact hEnd
    · exact hFree
    · unfold Ideal at *
      rw [finish_out]
      exact hMade
  | case3 s hDone =>
    unfold outer
    rw [if_neg hDone]
    exact ⟨h, hIdle, hOut⟩

end Loop

end AudioResamplerDyn

end FrameworksAv
