import FrameworksAv.AudioResamplerDyn.Supply

/-
  The output of the resampler does not depend on how the input and the output are split.

  Main declarations:
    * `Resampler.Ready`, `Resampler.resample_ready`
    * `Resampler.resampleAll`, `Resampler.resampleAll_ready`
    * `Resampler.resampleAll_fragments`
-/

--
-- Calls
--

namespace FrameworksAv

namespace AudioResamplerDyn

variable {α : Type*} [Zero α] {input : Nat → α}

namespace Resampler

/-
  Between two calls, after `n` output frames: no buffer is held, and the frames read and the phase
  make up `n` phase increments.
-/
structure Ready (r : Resampler α) (input : Nat → α) (n : Nat) (p : Provider) : Prop where
  reads : r.mInBuffer.Reads input r.mConstants.mHalfNumCoefs p.served
  phase : p.served * r.mConstants.phaseWrapLimit + r.mPhaseFraction = n * r.mPhaseIncrement
  below : r.mPhaseFraction < r.mConstants.phaseWrapLimit + r.mPhaseIncrement
  buffer : r.mBuffer.frameCount = 0
  held : p.held = 0

/- The variables of `resample` when it starts. -/
def start (r : Resampler α) (p : Provider) (outFrameCount : Nat) : Loop α where
  mInBuffer := r.mInBuffer
  mBuffer := r.mBuffer
  provider := p
  inputIndex := 0
  phaseFraction := r.mPhaseFraction
  inFrameCount :=
    (r.mPhaseIncrement * outFrameCount + r.mPhaseFraction) / r.mConstants.phaseWrapLimit
  out := []

variable {r : Resampler α} {p : Provider} {n : Nat}

theorem Ready.start_aligned (h : r.Ready input n p) (outFrameCount : Nat) :
    (r.start p outFrameCount).Aligned r input n := by
  refine ⟨h.reads, h.phase, h.below, Nat.zero_le _, ?_, ?_⟩
  · exact h.held.trans h.buffer.symm
  · intro hSome
    simp only [start, h.buffer] at hSome
    exact absurd hSome (Nat.lt_irrefl 0)

theorem Ready.start_exact (h : r.Ready input n p) (outFrameCount : Nat) :
    (r.start p outFrameCount).Exact r outFrameCount := by
  unfold Loop.Exact start
  simp only [h.buffer]
  rw [Nat.add_zero, Nat.mul_comm]

theorem Ready.start_idle (h : r.Ready input n p) (outFrameCount : Nat) :
    (r.start p outFrameCount).Idle :=
  ⟨h.buffer, rfl⟩

theorem resample_ready (hFits : r.Fits) (h : r.Ready input n p) (outFrameCount : Nat) :
    (r.resample input p outFrameCount).1.Ready input
        (n + (r.resample input p outFrameCount).2.2.length) (r.resample input p outFrameCount).2.1 ∧
      (r.resample input p outFrameCount).2.2 =
        (List.range' n
          (r.resample input p outFrameCount).2.2.length).map
            (ideal input r.mConstants r.mPhaseIncrement) := by
  rcases Loop.outer_aligned hFits (Nat.zero_le outFrameCount) (h.start_aligned outFrameCount)
      (h.start_exact outFrameCount) (h.start_idle outFrameCount) rfl with ⟨hEnd, hFree, hAll⟩
  refine ⟨⟨?_, ?_, hEnd.below, hFree.buffer, ?_⟩, hAll⟩
  · have hReads := hEnd.reads
    rw [hFree.index] at hReads
    exact hReads
  · have hPhase := hEnd.phase
    rw [hFree.index] at hPhase
    exact hPhase
  · exact hEnd.held.trans hFree.buffer

/- The input frames that a call asks for. -/
theorem Ready.request (hFits : r.Fits) (h : r.Ready input n p) (outFrameCount : Nat) :
    p.served + (r.start p outFrameCount).inFrameCount =
      (n + outFrameCount) * r.mPhaseIncrement / r.mConstants.phaseWrapLimit := by
  have hPhase := h.phase
  have hSum :
      (n + outFrameCount) * r.mPhaseIncrement =
        (r.mPhaseIncrement * outFrameCount + r.mPhaseFraction) +
          p.served * r.mConstants.phaseWrapLimit := by
    rw [Nat.add_mul, Nat.mul_comm outFrameCount]
    omega
  rw [hSum, Nat.add_mul_div_right _ _ hFits.limit, Nat.add_comm]
  rfl

/- A supplied call makes all its output frames. -/
theorem resample_supplied (hFits : r.Fits) (h : r.Ready input n p) {outFrameCount : Nat}
    (hSome : ∀ a ∈ p.answers, a ≠ none)
    (hEnough :
      (n + outFrameCount) * r.mPhaseIncrement / r.mConstants.phaseWrapLimit ≤
        p.served + offered p.answers) :
    (r.resample input p outFrameCount).2.2.length = outFrameCount ∧
      (∀ a ∈ (r.resample input p outFrameCount).2.1.answers, a ≠ none) ∧
      p.credit ≤ (r.resample input p outFrameCount).2.1.credit := by
  rw [← h.request hFits] at hEnough
  have hSupplied : (r.start p outFrameCount).Supplied := ⟨hSome, Nat.le_of_add_le_add_left hEnough⟩
  rcases Loop.outer_supplied hFits (Nat.zero_le outFrameCount) (h.start_aligned outFrameCount)
      (h.start_exact outFrameCount) (h.start_idle outFrameCount) rfl hSupplied with
    ⟨hAll, hStill, hCredit⟩
  exact ⟨hAll, hStill.answers, hCredit⟩

/- One call after the other, with the output of all. -/
def resampleAll (input : Nat → α) :
    Resampler α → Provider → List Nat → Resampler α × Provider × List (FirCall α)
| r, p, [] => (r, p, [])
| r, p, count :: counts =>
  let call := r.resample input p count
  let rest := resampleAll input call.1 call.2.1 counts
  (rest.1, rest.2.1, call.2.2 ++ rest.2.2)

theorem resampleAll_ready {r : Resampler α} {p : Provider} {n : Nat} (hFits : r.Fits)
    (h : r.Ready input n p) (counts : List Nat) :
    (resampleAll input r p counts).1.mConstants = r.mConstants ∧
      (resampleAll input r p counts).1.mPhaseIncrement = r.mPhaseIncrement ∧
      (resampleAll input r p counts).1.Ready input (n + (resampleAll input r p counts).2.2.length)
        (resampleAll input r p counts).2.1 ∧
      (resampleAll input r p counts).2.2 =
        (List.range' n
          (resampleAll input r p counts).2.2.length).map
            (ideal input r.mConstants r.mPhaseIncrement) := by
  induction counts generalizing r p n with
  | nil => exact ⟨rfl, rfl, h, rfl⟩
  | cons count counts ih =>
    rcases resample_ready hFits h count with ⟨hCall, hOut⟩
    have hFits' : (r.resample input p count).1.Fits := ⟨hFits.coefs, hFits.limit, hFits.sum⟩
    rcases ih hFits' hCall with ⟨hConstants, hIncrement, hRest, hMore⟩
    unfold resampleAll
    simp only
    refine ⟨hConstants, hIncrement, ?_, ?_⟩
    · rw [List.length_append, ← Nat.add_assoc]
      exact hRest
    · rw [List.length_append, ← List.range'_append_1, List.map_append, ← hOut]
      congr 1

/-
  A provider with a buffer for each input frame, however many frames each of them has, is never dry.
-/
theorem resampleAll_supplied {r : Resampler α} {p : Provider} {n : Nat} (hFits : r.Fits)
    (h : r.Ready input n p) {counts : List Nat} (hSome : ∀ a ∈ p.answers, a ≠ none)
    (hEnough : (n + counts.sum) * r.mPhaseIncrement / r.mConstants.phaseWrapLimit ≤ p.credit) :
    (resampleAll input r p counts).2.2.length = counts.sum := by
  induction counts generalizing r p n with
  | nil => rfl
  | cons count counts ih =>
    rw [List.sum_cons, ← Nat.add_assoc] at hEnough
    have hOffered := length_le_offered hSome
    have hNow :
        (n + count) * r.mPhaseIncrement / r.mConstants.phaseWrapLimit ≤
          p.served + offered p.answers := by
      have hLess :
          (n + count) * r.mPhaseIncrement / r.mConstants.phaseWrapLimit ≤
            (n + count + counts.sum) * r.mPhaseIncrement / r.mConstants.phaseWrapLimit :=
        Nat.div_le_div_right (Nat.mul_le_mul_right _ (Nat.le_add_right _ _))
      unfold Provider.credit at hEnough
      rw [h.held] at hEnough
      omega
    rcases resample_supplied hFits h hSome hNow with ⟨hLength, hStill, hCredit⟩
    rcases resample_ready hFits h count with ⟨hCall, -⟩
    have hFits' : (r.resample input p count).1.Fits := ⟨hFits.coefs, hFits.limit, hFits.sum⟩
    rw [hLength] at hCall
    unfold resampleAll
    simp only [List.length_append]
    rw [hLength, List.sum_cons, ih hFits' hCall hStill (hEnough.trans hCredit)]

end Resampler

end AudioResamplerDyn

--
-- Fragmentation
--

namespace AudioResamplerDyn

namespace Resampler

/- The start of a stream that comes in these buffers. -/
def stream (answers : List (Option ℕ+)) : Provider :=
  ⟨0, 0, answers⟩

theorem Tuned.fits {α : Type*} [Zero α] {input : Nat → α} {r : Resampler α} (h : r.Tuned input) :
    r.Fits :=
  ⟨h.coefs, h.limit, h.sum⟩

theorem Tuned.ready {α : Type*} [Zero α] {input : Nat → α} {r : Resampler α} (h : r.Tuned input)
    (answers : List (Option ℕ+)) : r.Ready input 0 (stream answers) where
  reads := h.reads
  phase := by
    rw [h.phase, stream]
    simp
  below := by
    rw [h.phase]
    exact Nat.add_pos_left h.limit _
  buffer := h.buffer
  held := rfl

/-
  For every stream of buffers, dry or not, and every split of the output: the output is that of one
  call with one buffer, `fir` is called with a phase below the limit, the phase sum fits into 32
  bits, no buffer is held between calls, and the frames consumed are those of the phase sum less
  those that are still pending. A stream that does not run dry gives all output frames.
-/
theorem resampleAll_fragments {α : Type*} [Zero α] {inSampleRate mSampleRate : Nat}
    (hRates : Admitted inSampleRate mSampleRate) (quality : Quality) (input : Nat → α)
    (answers : List (Option ℕ+)) (counts : List Nat) :
    let r :=
      (create mSampleRate quality).setSampleRate inSampleRate
    let wrap := r.mConstants.phaseWrapLimit
    let s := resampleAll input r (stream answers) counts
    let n := s.2.2.length
    (∀ buffer : ℕ+, n * r.mPhaseIncrement / wrap ≤ buffer →
        (r.resample input (stream [some buffer]) n).2.2 = s.2.2) ∧
      s.2.2 = (List.range n).map (ideal input r.mConstants r.mPhaseIncrement) ∧
      (∀ call ∈ s.2.2, call.phase < wrap) ∧ wrap + r.mPhaseIncrement < 2 ^ 32 ∧
      s.1.mPhaseFraction < wrap + r.mPhaseIncrement ∧ s.1.mBuffer.frameCount = 0 ∧ s.2.1.held = 0 ∧
      s.2.1.served = n * r.mPhaseIncrement / wrap - s.1.mPhaseFraction / wrap ∧
      ((∀ answer ∈ answers, answer ≠ none) →
        counts.sum * r.mPhaseIncrement / wrap ≤ answers.length → n = counts.sum) := by
  intro r wrap s n
  have hTuned : r.Tuned input := setSampleRate_create input quality hRates
  have hFits := hTuned.fits
  rcases resampleAll_ready hFits (hTuned.ready answers) counts
    with ⟨hConstants, hIncrement, hEnd, hOut⟩
  rw [Nat.zero_add] at hEnd
  have hIdeal : s.2.2 = (List.range n).map (ideal input r.mConstants r.mPhaseIncrement) := by
    rw [List.range_eq_range']
    exact hOut
  have hBelow := hEnd.below
  have hPhase := hEnd.phase
  rw [hConstants, hIncrement] at hBelow hPhase
  refine ⟨?_, hIdeal, ?_, hFits.sum, hBelow, hEnd.buffer, hEnd.held, ?_, ?_⟩
  · intro buffer hLarge
    have hReady := hTuned.ready [some buffer]
    have hOne :=
      @resample_supplied α _ input r (stream [some buffer]) 0 hFits hReady n (by simp [stream])
        (by
          rw [Nat.zero_add]
          simpa [stream, offered] using hLarge)
    have hSame := (resample_ready hFits hReady n).2
    rw [hOne.1, ← List.range_eq_range'] at hSame
    rw [hSame, hIdeal]
  · intro call hIn
    rw [hIdeal] at hIn
    rcases List.mem_map.mp hIn with ⟨j, -, hEq⟩
    rw [← hEq]
    exact Nat.mod_lt _ hFits.limit
  · have hSum : n * r.mPhaseIncrement / wrap = s.2.1.served + s.1.mPhaseFraction / wrap := by
      rw [← hPhase, Nat.add_comm, Nat.add_mul_div_right _ _ hFits.limit, Nat.add_comm]
    rw [hSum]
    omega
  · intro hSome hEnough
    apply resampleAll_supplied hFits (hTuned.ready answers) hSome
    rw [Nat.zero_add]
    exact hEnough

/- From 48 kHz to 44.1 kHz, in buffers of one to three frames. -/
theorem resampleAll_fragments_upTo :
    (resampleAll (fun k => k + 1) ((create 44100 .DYN_LOW_QUALITY).setSampleRate 48000)
      (stream [some 2, some 1, some 3, some 1, some 1, some 1]) [2, 0, 3]).2.2.length = 5 := by
  have hRates : Admitted 48000 44100 := admitted_of_ratio (by decide) (by decide) (by decide)
  have hAll :=
    resampleAll_fragments hRates .DYN_LOW_QUALITY (fun k => k + 1)
      [some 2, some 1, some 3, some 1, some 1, some 1] [2, 0, 3]
  rcases hAll with ⟨-, -, -, -, -, -, -, -, hFull⟩
  exact hFull (by decide) (by decide +kernel)

/-
  Two output frames at equal rates need two input frames, but with buffers of one frame only one has
  been consumed when the call returns.
-/
theorem resampleAll_fragments_pending :
    let r :=
      (create 48000 .DYN_MED_QUALITY).setSampleRate 48000
    let s := resampleAll (fun k => k + 1) r (stream [some 1, some 1]) [2]
    s.2.2.length = 2 ∧ s.2.1.served ≠ 2 * r.mPhaseIncrement / r.mConstants.phaseWrapLimit := by
  decide +kernel

end Resampler

end AudioResamplerDyn

end FrameworksAv
