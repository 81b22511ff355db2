import FrameworksAv.AudioResamplerDyn.Rates

/-
  The loop of the resampler (`AudioResamplerDyn::resample`).

  The filter is not modelled: an output frame is the window and the phase that `fir` is called with.
  Output frames are counted, where the code counts their samples, and presentation times are left
  out. `inFrameCount` is a 64-bit number that is asserted to be below 2^31.

  Main declarations:
    * `Provider`, `Loop`
    * `Loop.readPending`, `Loop.fetch`, `Loop.process`
    * `Resampler.resample`
-/

--
-- State
--

namespace FrameworksAv

namespace AudioResamplerDyn

/-
  A provider: the frames before `served` have been released, `held` ones are out, and `answers` are
  the sizes it offers next, or nothing.
-/
structure Provider where
  served : Nat
  held : Nat
  answers : List (Option ℕ+)

namespace Provider

/- A buffer of at most `frameCount` frames, or none. -/
def getNextBuffer (p : Provider) (frameCount : Nat) : Buffer × Provider :=
  match p.answers with
  | [] => (⟨none, 0⟩, p)
  | none :: answers => (⟨none, 0⟩, { p with answers := answers })
  | some offer :: answers =>
    let n := min (offer : Nat) frameCount
    (⟨some p.served, n⟩, { p with held := p.held + n, answers := answers })

def releaseBuffer (p : Provider) (frameCount : Nat) : Provider :=
  { p with
    served := p.served + frameCount
    held := p.held - frameCount }

theorem getNextBuffer_answers {p : Provider} {frameCount source : Nat}
    (hSome : (p.getNextBuffer frameCount).1.raw = some source) :
    (p.getNextBuffer frameCount).2.answers.length < p.answers.length := by
  unfold getNextBuffer at hSome ⊢
  cases hAnswers : p.answers with
  | nil =>
    rw [hAnswers] at hSome
    cases hSome
  | cons answer answers =>
    cases answer with
    | none =>
      rw [hAnswers] at hSome
      cases hSome
    | some offer => exact Nat.lt_succ_self _

end Provider

/- What `fir` is called with. -/
structure FirCall (α : Type*) where
  window : List α
  phase : Nat

/- The variables of `resample`. -/
structure Loop (α : Type*) where
  mInBuffer : InBuffer α
  mBuffer : Buffer
  provider : Provider
  inputIndex : Nat
  phaseFraction : Nat
  inFrameCount : Nat
  out : List (FirCall α)

--
-- Loops
--

variable {α : Type*}
variable (r : Resampler α)
variable (input : Nat → α)

namespace Loop

/- One input frame of the buffer is read. -/
def readOne (s : Loop α) : Loop α :=
  { s with
    mInBuffer :=
      s.mInBuffer.readAdvance r.mConstants.mHalfNumCoefs
        (input (s.mBuffer.raw.getD 0 + s.inputIndex))
    inputIndex := s.inputIndex + 1
    phaseFraction := s.phaseFraction - r.mConstants.phaseWrapLimit }

/- Input frames are read until the phase is below the limit, or until there are none left. -/
def readPending (s : Loop α) : Loop α × Bool :=
  if r.mConstants.phaseWrapLimit ≤ s.phaseFraction then
    if s.mBuffer.frameCount ≤ s.inputIndex then (s, true)
    else readPending (s.readOne r input)
  else (s, false)
termination_by s.mBuffer.frameCount - s.inputIndex
decreasing_by
  unfold readOne
  simp only
  omega

def release (s : Loop α) : Loop α :=
  { s with
    mBuffer := { s.mBuffer with frameCount := 0 }
    provider := s.provider.releaseBuffer s.mBuffer.frameCount
    inputIndex := 0 }

@[simp] theorem readPending_provider (s : Loop α) :
    (s.readPending r input).1.provider = s.provider := by
  induction s using readPending.induct r input with
  | case1 s hMore hNone =>
    unfold readPending
    rw [if_pos hMore, if_pos hNone]
  | case2 s hMore hSome ih =>
    unfold readPending
    rw [if_pos hMore, if_neg hSome, ih]
    rfl
  | case3 s hDone =>
    unfold readPending
    rw [if_neg hDone]

@[simp] theorem readPending_out (s : Loop α) : (s.readPending r input).1.out = s.out := by
  induction s using readPending.induct r input with
  | case1 s hMore hNone =>
    unfold readPending
    rw [if_pos hMore, if_pos hNone]
  | case2 s hMore hSome ih =>
    unfold readPending
    rw [if_pos hMore, if_neg hSome, ih]
    rfl
  | case3 s hDone =>
    unfold readPending
    rw [if_neg hDone]

/- A new buffer: the frames that are still to be read from before are read at once. -/
def preRead (s : Loop α) : Loop α :=
  if r.mConstants.phaseWrapLimit ≤ s.phaseFraction then
    let read := (s.readOne r input).readPending r input
    if read.2 = true then read.1.release else read.1
  else s

@[simp] theorem preRead_answers (s : Loop α) :
    (s.preRead r input).provider.answers = s.provider.answers := by
  unfold preRead
  split
  · simp only
    split
    · simp only [release, Provider.releaseBuffer, readPending_provider]
      rfl
    · rw [readPending_provider]
      rfl
  · rfl

@[simp] theorem preRead_out (s : Loop α) : (s.preRead r input).out = s.out := by
  unfold preRead
  split
  · simp only
    split
    · simp only [release, readPending_out]
      rfl
    · rw [readPending_out]
      rfl
  · rfl

/-
  Buffers are fetched while there is none and frames are missing; `true` is a provider that has
  none.
-/
def fetch (s : Loop α) : Loop α × Bool :=
  if s.mBuffer.frameCount = 0 ∧ 0 < s.inFrameCount then
    let next := s.provider.getNextBuffer s.inFrameCount
    match _hRaw : next.1.raw with
    | none => ({ s with mBuffer := next.1, provider := next.2 }, true)
    | some _ =>
      fetch
        (preRead r input
          { s with
            mBuffer := next.1
            provider := next.2
            inFrameCount := s.inFrameCount - next.1.frameCount })
  else (s, false)
termination_by s.provider.answers.length
decreasing_by
  rw [preRead_answers]
  exact Provider.getNextBuffer_answers _hRaw

/- One output frame; the phase is a `uint32_t`. -/
def filter (s : Loop α) : Loop α :=
  { s with
    out := s.out ++ [⟨s.mInBuffer.window r.mConstants.mHalfNumCoefs, s.phaseFraction⟩]
    phaseFraction := (s.phaseFraction + r.mPhaseIncrement) % 2 ^ 32 }

/- The main processing loop. -/
def process (outFrameCount : Nat) (s : Loop α) : Loop α :=
  if s.out.length < outFrameCount then
    let read := (s.filter r).readPending r input
    if read.2 = true then read.1
    else process outFrameCount read.1
  else s
termination_by outFrameCount - s.out.length
decreasing_by
  simp only [readPending_out, filter, List.length_append, List.length_singleton]
  omega

@[simp] theorem fetch_out (s : Loop α) : (s.fetch r input).1.out = s.out := by
  induction s using fetch.induct r input with
  | case1 s hMore next hRaw =>
    unfold fetch
    rw [if_pos hMore]
    simp only
    split
    · rfl
    · rename_i hSome
      simp only [next] at hRaw
      rw [hRaw] at hSome
      cases hSome
  | case2 s hMore next source hRaw ih =>
    unfold fetch
    rw [if_pos hMore]
    simp only
    split
    · rfl
    · rw [ih, preRead_out]
  | case3 s hDone =>
    unfold fetch
    rw [if_neg hDone]

/- The main loop makes at least one output frame. -/
theorem process_out {outFrameCount : Nat} {s : Loop α} (hMore : s.out.length < outFrameCount) :
    s.out.length < (s.process r input outFrameCount).out.length := by
  induction s using process.induct r input outFrameCount with
  | case1 s hLess read hShort =>
    unfold process
    simp only [if_pos hLess]
    rw [if_pos hShort]
    simp [filter]
  | case2 s hLess read hEnough ih =>
    unfold process
    simp only [if_pos hLess]
    rw [if_neg hEnough]
    have hOut : read.1.out.length = s.out.length + 1 := by
      simp [read, filter]
    have hRest : read.1.out.length ≤ (read.1.process r input outFrameCount).out.length := by
      by_cases hNext : read.1.out.length < outFrameCount
      · exact Nat.le_of_lt (ih hNext)
      · unfold process
        rw [if_neg hNext]
    rw [hOut] at hRest
    exact hRest
  | case3 s hDone => exact absurd hMore hDone

/- A buffer that has been read is released. -/
def finish (s : Loop α) : Loop α :=
  if 0 < s.inputIndex then s.release else s

@[simp] theorem finish_out (s : Loop α) : s.finish.out = s.out := by
  unfold finish
  split <;> rfl

/- Fetch, process, release, until the output is complete. -/
def outer (outFrameCount : Nat) (s : Loop α) : Loop α :=
  if s.out.length < outFrameCount then
    let fetched := s.fetch r input
    if fetched.2 = true then fetched.1
    else outer outFrameCount (fetched.1.process r input outFrameCount).finish
  else s
termination_by outFrameCount - s.out.length
decreasing_by
  rename_i hMore _
  have hSame : fetched.1.out = s.out := fetch_out r input s
  have hGrows : fetched.1.out.length < (fetched.1.process r input outFrameCount).out.length := by
    apply process_out
    rw [hSame]
    exact hMore
  rw [hSame] at hGrows
  rw [finish_out]
  exact Nat.sub_lt_sub_left hMore hGrows

end Loop

namespace Resampler

/- The resampler and its provider after some output frames. -/
def resample (provider : Provider) (outFrameCount : Nat) :
    Resampler α × Provider × List (FirCall α) :=
  let s :=
    Loop.outer r input outFrameCount
      { mInBuffer := r.mInBuffer
        mBuffer := r.mBuffer
        provider := provider
        inputIndex := 0
        phaseFraction := r.mPhaseFraction
        inFrameCount :=
          (r.mPhaseIncrement * outFrameCount + r.mPhaseFraction) / r.mConstants.phaseWrapLimit
        out := [] }
  ({ r with
      mInBuffer := s.mInBuffer
      mBuffer := s.mBuffer
      mPhaseFraction := s.phaseFraction },
    s.provider, s.out)

end Resampler

end AudioResamplerDyn

end FrameworksAv
