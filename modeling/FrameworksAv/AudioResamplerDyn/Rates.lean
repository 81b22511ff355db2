import Mathlib.Data.Nat.Size
import Mathlib.Tactic.Ring
import FrameworksAv.AudioResamplerDyn.InBuffer

/-
  Sample rates and the phase of the resampler (`AudioResamplerDyn::setSampleRate` and
  `AudioResamplerDyn::Constants::set`).

  The filter coefficients are not modelled.

  Main declarations:
    * `Constants.set`, `Resampler.setSampleRate`
    * `Admitted`, `admitted_of_ratio`
    * `Resampler.Tuned`, `Resampler.setSampleRate_create`
-/

--
-- Model
--

namespace FrameworksAv

namespace AudioResamplerDyn

def kNumPhaseBits : Nat := 30

inductive Quality where
| DYN_LOW_QUALITY
| DYN_MED_QUALITY
| DYN_HIGH_QUALITY
deriving DecidableEq

/- `AudioResamplerDyn::Constants`, without the coefficients. -/
structure Constants where
  mL : Nat
  mShift : Nat
  mHalfNumCoefs : Nat

namespace Constants

/- The number that the phase bits are counted for. -/
def lscale (L inSampleRate outSampleRate : Nat) : Nat :=
  if inSampleRate / outSampleRate < 2 then L - 1
  else L * inSampleRate / outSampleRate

/- `bits` is the number of binary digits of `lscale`. -/
def set (L halfNumCoefs inSampleRate outSampleRate : Nat) : Constants where
  mL := L
  mShift := kNumPhaseBits - (lscale L inSampleRate outSampleRate).size
  mHalfNumCoefs := halfNumCoefs

def phaseWrapLimit (c : Constants) : Nat :=
  c.mL * 2 ^ c.mShift

end Constants

def absdiff (a b : Nat) : Nat :=
  if b < a then a - b else b - a

/- Whether a filter designed for another rate will do. -/
def isClose (newSampleRate prevSampleRate : Nat) (filterSampleRate outSampleRate : Nat) : Bool :=
  if filterSampleRate ≠ 0 ∧ filterSampleRate < outSampleRate ∧
      newSampleRate < outSampleRate then true
  else
    decide
      (absdiff newSampleRate prevSampleRate < prevSampleRate / 2 ^ 4 ∧
        absdiff newSampleRate filterSampleRate < filterSampleRate / 2 ^ 3)

/- Half the length of the filter. -/
def halfLength (quality : Quality) (inSampleRate mSampleRate : Nat) : Nat :=
  match quality with
  | .DYN_HIGH_QUALITY =>
    if mSampleRate * 4 ≤ inSampleRate then 48
    else if mSampleRate * 2 ≤ inSampleRate then 40
    else 32
  | .DYN_LOW_QUALITY =>
    if mSampleRate * 4 ≤ inSampleRate then 24
    else if mSampleRate * 2 ≤ inSampleRate then 16
    else 8
  | .DYN_MED_QUALITY =>
    if mSampleRate * 4 ≤ inSampleRate then 32
    else if mSampleRate * 2 ≤ inSampleRate then 24
    else 16

/- `while (phases < 63) phases *= 2`, from a positive number. -/
def atLeast63 (phases : Nat) : Nat :=
  if 0 < phases ∧ phases < 63 then atLeast63 (phases * 2)
  else phases
termination_by 63 - phases
decreasing_by omega

/- The number of polyphases in the filter bank. -/
def polyphases (inSampleRate mSampleRate : Nat) : Nat :=
  let phases := atLeast63 (mSampleRate / Nat.gcd mSampleRate inSampleRate)
  if 256 ≤ phases then 127 else phases

/- `AudioBufferProvider::Buffer`. -/
structure Buffer where
  raw : Option Nat
  frameCount : Nat

/-
  A resampler to the rate `mSampleRate`. Its filter quality is unset, as `DEFAULT_QUALITY`, until
  the first filter.
-/
structure Resampler (α : Type*) where
  mSampleRate : Nat
  mQuality : Quality
  mInSampleRate : Nat
  mFilterSampleRate : Nat
  mFilterQuality : Option Quality
  mConstants : Constants
  mInBuffer : InBuffer α
  mBuffer : Buffer
  mPhaseFraction : Nat
  mPhaseIncrement : Nat

namespace Resampler

variable {α : Type*} [Zero α]

def create (mSampleRate : Nat) (quality : Quality) : Resampler α where
  mSampleRate := mSampleRate
  mQuality := quality
  mInSampleRate := 0
  mFilterSampleRate := 0
  mFilterQuality := none
  mConstants := Constants.set 128 8 mSampleRate mSampleRate
  mInBuffer := InBuffer.init
  mBuffer := ⟨none, 0⟩
  mPhaseFraction := 0
  mPhaseIncrement := 0

/-
  The phase is carried over to a new filter. It is locked to the polyphases when the increment is.
-/
def setSampleRate (r : Resampler α) (inSampleRate : Nat) : Resampler α :=
  if r.mInSampleRate = inSampleRate then r
  else
    let newFilter :=
      r.mFilterQuality ≠ some r.mQuality ∨
        isClose inSampleRate r.mInSampleRate r.mFilterSampleRate r.mSampleRate = false
    let c :=
      if newFilter then
        Constants.set (polyphases inSampleRate r.mSampleRate)
          (halfLength r.mQuality inSampleRate r.mSampleRate) inSampleRate r.mSampleRate
      else r.mConstants
    let mPhaseFraction :=
      r.mPhaseFraction * c.phaseWrapLimit / r.mConstants.phaseWrapLimit % c.phaseWrapLimit
    let mPhaseIncrement := c.phaseWrapLimit * inSampleRate / r.mSampleRate
    { r with
      mInSampleRate := inSampleRate
      mFilterSampleRate := if newFilter then inSampleRate else r.mFilterSampleRate
      mFilterQuality := if newFilter then some r.mQuality else r.mFilterQuality
      mConstants := c
      mInBuffer := r.mInBuffer.resize c.mHalfNumCoefs
      mPhaseFraction :=
        if mPhaseIncrement % 2 ^ c.mShift = 0 then mPhaseFraction / 2 ^ c.mShift * 2 ^ c.mShift
        else mPhaseFraction
      mPhaseIncrement := mPhaseIncrement }

end Resampler

--
-- Rates
--

/- Rates whose phase fits: the phase bits that are counted are no more than there are. -/
structure Admitted (inSampleRate mSampleRate : Nat) : Prop where
  input : 0 < inSampleRate
  output : 0 < mSampleRate
  bits :
    (Constants.lscale (polyphases inSampleRate mSampleRate)
      inSampleRate mSampleRate).size ≤ kNumPhaseBits

theorem atLeast63_pos {phases : Nat} (hPos : 0 < phases) : 0 < atLeast63 phases := by
  induction phases using atLeast63.induct with
  | case1 phases hMore ih =>
    unfold atLeast63
    rw [if_pos hMore]
    exact ih (by omega)
  | case2 phases hDone =>
    unfold atLeast63
    rw [if_neg hDone]
    exact hPos

theorem polyphases_pos (inSampleRate : Nat) {mSampleRate : Nat} (hOutput : 0 < mSampleRate) :
    0 < polyphases inSampleRate mSampleRate := by
  have hPhases : 0 < mSampleRate / Nat.gcd mSampleRate inSampleRate :=
    Nat.div_pos (Nat.le_of_dvd hOutput (Nat.gcd_dvd_left _ _)) (Nat.gcd_pos_of_pos_left _ hOutput)
  unfold polyphases
  simp only
  split
  · decide
  · exact atLeast63_pos hPhases

theorem polyphases_lt (inSampleRate mSampleRate : Nat) :
    polyphases inSampleRate mSampleRate < 256 := by
  unfold polyphases
  simp only
  split
  · decide
  · omega

/- The ratios that the audio framework permits are admitted. -/
theorem admitted_of_ratio {inSampleRate mSampleRate : Nat} (hInput : 0 < inSampleRate)
    (hOutput : 0 < mSampleRate) (hRatio : inSampleRate ≤ 256 * mSampleRate) :
    Admitted inSampleRate mSampleRate where
  input := hInput
  output := hOutput
  bits := by
    have hLess := polyphases_lt inSampleRate mSampleRate
    rw [Nat.size_le]
    unfold Constants.lscale kNumPhaseBits
    split
    · omega
    · rw [Nat.div_lt_iff_lt_mul hOutput]
      calc polyphases inSampleRate mSampleRate * inSampleRate
          ≤ 256 * (256 * mSampleRate) := Nat.mul_le_mul (Nat.le_of_lt hLess) hRatio
        _ < 2 ^ 30 * mSampleRate := by omega

/-
  The phase of a filter: the limit is positive, and a phase below it and one increment fit into 32
  bits.
-/
theorem phase_bounds {L inSampleRate mSampleRate : Nat} (hL : 0 < L) (hOutput : 0 < mSampleRate)
    (hBits : (Constants.lscale L inSampleRate mSampleRate).size ≤ kNumPhaseBits)
    (halfNumCoefs : Nat) :
    let c := Constants.set L halfNumCoefs inSampleRate mSampleRate
    0 < c.phaseWrapLimit ∧
      c.phaseWrapLimit + c.phaseWrapLimit * inSampleRate / mSampleRate < 2 ^ 32 := by
  have hDigits := Nat.lt_size_self (Constants.lscale L inSampleRate mSampleRate)
  unfold Constants.set Constants.phaseWrapLimit
  simp only
  generalize hSize : (Constants.lscale L inSampleRate mSampleRate).size = bits at hBits hDigits
  generalize hPower : 2 ^ (kNumPhaseBits - bits) = p
  have hAll : 2 ^ bits * p = 2 ^ 30 := by
    rw [← hPower, ← Nat.pow_add, Nat.add_sub_cancel' hBits]
    rfl
  have hPos : 0 < p := by
    rw [← hPower]
    exact Nat.two_pow_pos _
  refine ⟨Nat.mul_pos hL hPos, ?_⟩
  unfold Constants.lscale at hDigits
  by_cases hRatio : inSampleRate / mSampleRate < 2
  · rw [if_pos hRatio] at hDigits
    have hLimit : L * p ≤ 2 ^ 30 := by
      rw [← hAll]
      exact Nat.mul_le_mul_right p (by omega)
    have hIncrement : L * p * inSampleRate / mSampleRate ≤ L * p * 2 := by
      apply Nat.div_le_of_le_mul
      calc L * p * inSampleRate
          ≤ L * p * (2 * mSampleRate) :=
            Nat.mul_le_mul_left _ (Nat.le_of_lt ((Nat.div_lt_iff_lt_mul hOutput).mp hRatio))
        _ = mSampleRate * (L * p * 2) := by ring
    omega
  · rw [if_neg hRatio, Nat.div_lt_iff_lt_mul hOutput] at hDigits
    have hProduct : L * p * inSampleRate < 2 ^ 30 * mSampleRate := by
      calc L * p * inSampleRate = L * inSampleRate * p := by ring
        _ < 2 ^ bits * mSampleRate * p := Nat.mul_lt_mul_of_pos_right hDigits hPos
        _ = 2 ^ bits * p * mSampleRate := by ring
        _ = 2 ^ 30 * mSampleRate := by rw [hAll]
    have hIncrement : L * p * inSampleRate / mSampleRate < 2 ^ 30 :=
      (Nat.div_lt_iff_lt_mul hOutput).mpr hProduct
    have hTwice : 1 * mSampleRate ≤ inSampleRate := by
      apply (Nat.le_div_iff_mul_le hOutput).mp
      omega
    have hLimit : L * p < 2 ^ 30 := by
      apply Nat.lt_of_mul_lt_mul_right (a := mSampleRate)
      calc L * p * mSampleRate ≤ L * p * inSampleRate := Nat.mul_le_mul_left _ (by omega)
        _ < 2 ^ 30 * mSampleRate := hProduct
    omega

/- A resampler that is set to its rates: nothing has been read, and its phase fits. -/
structure Resampler.Tuned {α : Type*} [Zero α] (input : Nat → α) (r : Resampler α) : Prop where
  coefs : 0 < r.mConstants.mHalfNumCoefs
  limit : 0 < r.mConstants.phaseWrapLimit
  sum : r.mConstants.phaseWrapLimit + r.mPhaseIncrement < 2 ^ 32
  reads : r.mInBuffer.Reads input r.mConstants.mHalfNumCoefs 0
  phase : r.mPhaseFraction = 0
  buffer : r.mBuffer.frameCount = 0

theorem halfLength_pos (quality : Quality) (inSampleRate mSampleRate : Nat) :
    0 < halfLength quality inSampleRate mSampleRate := by
  unfold halfLength
  cases quality <;> simp only <;> split <;>
    first | decide | (split <;> decide)

/- A new resampler is tuned by its first `setSampleRate`. -/
theorem Resampler.setSampleRate_create {α : Type*} [Zero α] (input : Nat → α) (quality : Quality)
    {inSampleRate mSampleRate : Nat} (h : Admitted inSampleRate mSampleRate) :
    ((create mSampleRate quality).setSampleRate inSampleRate).Tuned input := by
  have hInput := h.input
  have hNew : ¬ (0 = inSampleRate) := by omega
  have hPhases := polyphases_pos inSampleRate h.output
  have hHalf := halfLength_pos quality inSampleRate mSampleRate
  have hBounds := phase_bounds hPhases h.output h.bits (halfLength quality inSampleRate mSampleRate)
  unfold create setSampleRate
  simp only [if_neg hNew]
  simp only [ne_eq, reduceCtorEq, not_false_eq_true, true_or,
    if_true, Nat.zero_mul, Nat.zero_div, Nat.zero_mod, ite_self]
  exact ⟨hHalf, hBounds.1, hBounds.2, InBuffer.resize_init input hHalf, rfl, rfl⟩

end AudioResamplerDyn

end FrameworksAv
