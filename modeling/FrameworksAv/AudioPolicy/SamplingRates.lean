import Mathlib.Algebra.Order.Ring.Int
import Mathlib.Data.List.Basic

/-
  A sampling rate for a record stream (`AudioPort::checkCompatibleSamplingRate`, AudioPort.cpp).

  Main declarations:
    * `scan`, `checkCompatibleSamplingRate`
    * `Reported`, `Rounds`, `Wraps`
    * `scan_extrema`
    * `rate_reported_iff`
-/

--
-- Code
--

namespace FrameworksAv

namespace SamplingRates

def NO_ERROR : Int := 0

def BAD_VALUE : Int := -22

def AUDIO_RESAMPLER_DOWN_RATIO_MAX : Nat := 256

def AUDIO_RESAMPLER_UP_RATIO_MAX : Nat := 65536

/- The loop, with the rates at `maxBelow` and `minAbove`; no result where the rate itself is found. -/
def scan (samplingRate : Nat) :
    List Nat → Option Nat → Option Nat → Option (Option Nat × Option Nat)
| [], maxBelow, minAbove => some (maxBelow, minAbove)
| candidate :: rates, maxBelow, minAbove =>
  if candidate = samplingRate then none
  else if candidate < samplingRate then
    scan samplingRate rates
      (if maxBelow.all (· < candidate) then some candidate else maxBelow) minAbove
  else
    scan samplingRate rates maxBelow
      (if minAbove.all (candidate < ·) then some candidate else minAbove)

/- The status and `*updatedSamplingRate`, whose value before the call is the third argument. -/
def checkCompatibleSamplingRate (mSamplingRates : List Nat)
    (samplingRate updatedSamplingRate : Nat) : Int × Nat :=
  if mSamplingRates.isEmpty then (NO_ERROR, samplingRate)
  else
    match scan samplingRate mSamplingRates none none with
    | none => (NO_ERROR, samplingRate)
    | some (maxBelow, minAbove) =>
      match minAbove.filter fun c => c / AUDIO_RESAMPLER_DOWN_RATIO_MAX ≤ samplingRate with
      | some candidate => (NO_ERROR, candidate)
      | none =>
        match maxBelow.filter fun c =>
            samplingRate ≤ c * AUDIO_RESAMPLER_UP_RATIO_MAX % 2 ^ 32 with
        | some candidate => (NO_ERROR, candidate)
        | none => (BAD_VALUE, updatedSamplingRate)

--
-- Meaning
--

/- A higher rate that is not too high, and a lower one that is not too low. -/
def Higher (rates : List Nat) (r c : Nat) : Prop :=
  c ∈ rates ∧ r < c ∧ c ≤ AUDIO_RESAMPLER_DOWN_RATIO_MAX * r

def Lower (rates : List Nat) (r c : Nat) : Prop :=
  c ∈ rates ∧ 0 < c ∧ c < r ∧ r ≤ AUDIO_RESAMPLER_UP_RATIO_MAX * c

/- The greatest lower rate, and the smallest higher one. -/
def MaxBelow (rates : List Nat) (r c : Nat) : Prop := c ∈ rates ∧ c < r ∧ ∀ d ∈ rates, d < r → d ≤ c

def MinAbove (rates : List Nat) (r c : Nat) : Prop := c ∈ rates ∧ r < c ∧ ∀ d ∈ rates, r < d → c ≤ d

/- The greatest lower rate when it is good, else an error. -/
def ReportedBelow (rates : List Nat) (r updated : Nat) (result : Int × Nat) : Prop :=
  (∃ c, result = (NO_ERROR, c) ∧ Lower rates r c ∧ ∀ d ∈ rates, d < r → d ≤ c) ∨
    (∀ c, ¬Lower rates r c) ∧ result = (BAD_VALUE, updated)

/- The rate itself, else the smallest good higher one, else the greatest lower one. -/
def Reported (rates : List Nat) (r updated : Nat) (result : Int × Nat) : Prop :=
  if rates = [] ∨ r ∈ rates then result = (NO_ERROR, r)
  else
    (∃ c, result = (NO_ERROR, c) ∧ Higher rates r c ∧ ∀ d, Higher rates r d → c ≤ d) ∨
      (∀ c, ¬Higher rates r c) ∧ ReportedBelow rates r updated result

/- The quotient rounds `candidate` down to a good one, and the product wraps around. -/
def Rounds (rates : List Nat) (r : Nat) : Prop :=
  ∃ c, MinAbove rates r c ∧ 256 * r < c ∧ c < 256 * r + 256

def Wraps (rates : List Nat) (r : Nat) : Prop :=
  ∃ c, MaxBelow rates r c ∧ 2 ^ 16 ≤ c ∧ c * 2 ^ 16 % 2 ^ 32 < r

--
-- Extrema
--

section Extrema

variable {r : Nat} {rates : List Nat}

theorem scan_of_mem (hMember : r ∈ rates) (maxBelow minAbove : Option Nat) :
    scan r rates maxBelow minAbove = none := by
  induction rates generalizing maxBelow minAbove with
  | nil => cases hMember
  | cons candidate rates ih =>
    unfold scan
    split
    · exact rfl
    · rename_i hNe
      have hRest := List.mem_of_ne_of_mem (Ne.symm hNe) hMember
      split
      · exact ih hRest _ _
      · exact ih hRest _ _

/- What the loop knows of the rates that it has seen. -/
structure Extrema (r : Nat) (seen : List Nat) (maxBelow minAbove : Option Nat) : Prop where
  below : ∀ c, maxBelow = some c → MaxBelow seen r c
  noneBelow : maxBelow = none → ∀ c ∈ seen, ¬c < r
  above : ∀ c, minAbove = some c → MinAbove seen r c
  noneAbove : minAbove = none → ∀ c ∈ seen, ¬r < c

theorem Extrema.lower {seen : List Nat} {maxBelow minAbove : Option Nat} {candidate : Nat}
    (hExtrema : Extrema r seen maxBelow minAbove) (hLess : candidate < r) :
    Extrema r (seen ++ [candidate])
      (if maxBelow.all (· < candidate) then some candidate else maxBelow) minAbove := by
  rcases hExtrema with ⟨hBelow, hNoneBelow, hAbove, hNoneAbove⟩
  constructor
  · cases maxBelow with
    | none => grind [MaxBelow]
    | some b => grind [MaxBelow]
  · grind
  · grind [MinAbove]
  · grind

theorem Extrema.higher {seen : List Nat} {maxBelow minAbove : Option Nat} {candidate : Nat}
    (hExtrema : Extrema r seen maxBelow minAbove) (hMore : r < candidate) :
    Extrema r (seen ++ [candidate]) maxBelow
      (if minAbove.all (candidate < ·) then some candidate else minAbove) := by
  rcases hExtrema with ⟨hBelow, hNoneBelow, hAbove, hNoneAbove⟩
  constructor
  · grind [MaxBelow]
  · grind
  · cases minAbove with
    | none => grind [MinAbove]
    | some b => grind [MinAbove]
  · grind

theorem scan_extrema {seen : List Nat} {maxBelow minAbove : Option Nat} (hNot : r ∉ rates)
    (hExtrema : Extrema r seen maxBelow minAbove) :
    ∃ below above, scan r rates maxBelow minAbove = some (below, above) ∧
      Extrema r (seen ++ rates) below above := by
  induction rates generalizing seen maxBelow minAbove with
  | nil => exact ⟨_, _, rfl, by rwa [List.append_nil]⟩
  | cons candidate rates ih =>
    rcases not_or.mp (mt List.mem_cons.mpr hNot) with ⟨hNe, hRest⟩
    rw [scan, if_neg (Ne.symm hNe), List.append_cons]
    split
    · rename_i hLess
      exact ih hRest (hExtrema.lower hLess)
    · rename_i hNotLess
      exact ih hRest (hExtrema.higher (by omega))

end Extrema

--
-- Result
--

section Result

variable {rates : List Nat} {r updated : Nat}

/- With no good higher rate, the product decides. -/
theorem reportedBelow_iff (updated : Nat) {below above : Option Nat} (hPositive : 0 < r)
    (hRate : r < 2 ^ 32) (hExtrema : Extrema r rates below above) :
    ReportedBelow rates r updated
      (match below.filter fun c => r ≤ c * AUDIO_RESAMPLER_UP_RATIO_MAX % 2 ^ 32 with
        | some candidate => (NO_ERROR, candidate)
        | none => (BAD_VALUE, updated)) ↔ ¬Wraps rates r := by
  cases hBelow : below with
  | none =>
    have hNone := hExtrema.noneBelow hBelow
    constructor
    · rintro - ⟨c, hMax, -⟩
      exact hNone c hMax.1 hMax.2.1
    · intro _
      exact Or.inr ⟨fun c hLower => hNone c hLower.1 hLower.2.2.1, rfl⟩
  | some b =>
    have hMax := hExtrema.below b hBelow
    have hUnique : ∀ c, MaxBelow rates r c → c = b := fun c hOther =>
      Nat.le_antisymm (hMax.2.2 c hOther.1 hOther.2.1) (hOther.2.2 b hMax.1 hMax.2.1)
    by_cases hAccepted : r ≤ b * AUDIO_RESAMPLER_UP_RATIO_MAX % 2 ^ 32
    · have hFilter : (some b).filter (fun c => r ≤ c * AUDIO_RESAMPLER_UP_RATIO_MAX % 2 ^ 32) =
          some b := by simpa [Option.filter] using hAccepted
      rw [hFilter]
      refine iff_of_true (Or.inl ⟨b, rfl, ⟨hMax.1, ?_, hMax.2.1, ?_⟩, hMax.2.2⟩) ?_
      · rcases Nat.eq_zero_or_pos b with rfl | hPos
        · simp at hAccepted
          omega
        · exact hPos
      · unfold AUDIO_RESAMPLER_UP_RATIO_MAX at *
        omega
      · rintro ⟨c, hOther, hWide, hLess⟩
        have hEq := hUnique c hOther
        subst hEq
        unfold AUDIO_RESAMPLER_UP_RATIO_MAX at *
        omega
    · have hFilter : (some b).filter (fun c => r ≤ c * AUDIO_RESAMPLER_UP_RATIO_MAX % 2 ^ 32) =
          none := by simpa [Option.filter] using hAccepted
      rw [hFilter]
      unfold AUDIO_RESAMPLER_UP_RATIO_MAX at hAccepted
      constructor
      · rintro (⟨c, hEq, -⟩ | ⟨hNot, -⟩)
        · cases hEq
        · rintro ⟨c, hOther, hWide, hLess⟩
          refine hNot c ⟨hOther.1, by omega, hOther.2.1, ?_⟩
          unfold AUDIO_RESAMPLER_UP_RATIO_MAX
          omega
      · intro hNot
        refine Or.inr ⟨?_, rfl⟩
        rintro c ⟨hMember, hPos, hLess, hRatio⟩
        have hLe := hMax.2.2 c hMember hLess
        unfold AUDIO_RESAMPLER_UP_RATIO_MAX at hRatio
        refine hNot ⟨b, hMax, ?_, by omega⟩
        by_contra hNarrow
        rw [Nat.mod_eq_of_lt (by omega)] at hAccepted
        omega

theorem reported_of_scan {below above : Option Nat} (hPositive : 0 < r) (hRate : r < 2 ^ 32)
    (hExtrema : Extrema r rates below above) (hNonempty : rates ≠ []) (hNot : r ∉ rates)
    (hScan : scan r rates none none = some (below, above)) :
    Reported rates r updated (checkCompatibleSamplingRate rates r updated) ↔
      ¬Rounds rates r ∧ ((∃ c, Higher rates r c) ∨ ¬Wraps rates r) := by
  have hResult : checkCompatibleSamplingRate rates r updated =
      match above.filter fun c => c / AUDIO_RESAMPLER_DOWN_RATIO_MAX ≤ r with
      | some candidate => (NO_ERROR, candidate)
      | none =>
        match below.filter fun c => r ≤ c * AUDIO_RESAMPLER_UP_RATIO_MAX % 2 ^ 32 with
        | some candidate => (NO_ERROR, candidate)
        | none => (BAD_VALUE, updated) := by
    rw [checkCompatibleSamplingRate, if_neg (by simpa using hNonempty), hScan]
  have hNeither : ¬(rates = [] ∨ r ∈ rates) := by tauto
  rw [Reported, if_neg hNeither, hResult]
  cases hAbove : above with
  | none =>
    have hNone := hExtrema.noneAbove hAbove
    have hNoHigher : ∀ c, ¬Higher rates r c := fun c hHigher => hNone c hHigher.1 hHigher.2.1
    have hNoRound : ¬Rounds rates r := fun ⟨c, hMin, _⟩ => hNone c hMin.1 hMin.2.1
    have hBelow := reportedBelow_iff updated hPositive hRate hExtrema
    simp only [Option.filter_none]
    grind
  | some a =>
    have hMin := hExtrema.above a hAbove
    have hUnique : ∀ c, MinAbove rates r c → c = a := fun c hOther =>
      Nat.le_antisymm (hOther.2.2 a hMin.1 hMin.2.1) (hMin.2.2 c hOther.1 hOther.2.1)
    have hHigher : ∀ c, Higher rates r c → a ≤ c := fun c hHigh => hMin.2.2 c hHigh.1 hHigh.2.1
    by_cases hAccepted : a / AUDIO_RESAMPLER_DOWN_RATIO_MAX ≤ r
    · have hFilter : (some a).filter (fun c => c / AUDIO_RESAMPLER_DOWN_RATIO_MAX ≤ r) =
          some a := by simpa [Option.filter] using hAccepted
      rw [hFilter]
      unfold AUDIO_RESAMPLER_DOWN_RATIO_MAX at hAccepted
      by_cases hGood : a ≤ AUDIO_RESAMPLER_DOWN_RATIO_MAX * r
      · refine iff_of_true (Or.inl ⟨a, rfl, ⟨hMin.1, hMin.2.1, hGood⟩, hHigher⟩) ⟨?_, Or.inl ?_⟩
        · rintro ⟨c, hOther, hMore, -⟩
          rw [hUnique c hOther] at hMore
          unfold AUDIO_RESAMPLER_DOWN_RATIO_MAX at hGood
          omega
        · exact ⟨a, hMin.1, hMin.2.1, hGood⟩
      · refine iff_of_false ?_ fun ⟨hNoRound, _⟩ => hNoRound ⟨a, hMin, ?_, by omega⟩
        · rintro (⟨c, hEq, hHigh, -⟩ | ⟨-, ⟨c, hEq, hLower, -⟩ | ⟨-, hEq⟩⟩)
          · cases hEq
            exact hGood hHigh.2.2
          · cases hEq
            exact Nat.lt_asymm hMin.2.1 hLower.2.2.1
          · cases hEq
        · unfold AUDIO_RESAMPLER_DOWN_RATIO_MAX at hGood
          omega
    · have hFilter : (some a).filter (fun c => c / AUDIO_RESAMPLER_DOWN_RATIO_MAX ≤ r) =
          none := by simpa [Option.filter] using hAccepted
      rw [hFilter]
      unfold AUDIO_RESAMPLER_DOWN_RATIO_MAX at hAccepted
      have hNoHigher : ∀ c, ¬Higher rates r c := by
        intro c hHigh
        have hLe := hHigher c hHigh
        have hBound := hHigh.2.2
        unfold AUDIO_RESAMPLER_DOWN_RATIO_MAX at hBound
        omega
      have hNoRound : ¬Rounds rates r := by
        rintro ⟨c, hOther, hMore, hLess⟩
        rw [hUnique c hOther] at hLess
        omega
      have hBelow := reportedBelow_iff updated hPositive hRate hExtrema
      dsimp only
      grind

/- The quotient and the product decide as the exact ratios do, except where they lose a part. -/
theorem rate_reported_iff (hPositive : 0 < r) (hRate : r < 2 ^ 32) :
    Reported rates r updated (checkCompatibleSamplingRate rates r updated) ↔
      rates = [] ∨ r ∈ rates ∨
        ¬Rounds rates r ∧ ((∃ c, Higher rates r c) ∨ ¬Wraps rates r) := by
  rcases eq_or_ne rates [] with hEmpty | hNonempty
  · subst hEmpty
    simp [Reported, checkCompatibleSamplingRate]
  · by_cases hMember : r ∈ rates
    · have hResult : checkCompatibleSamplingRate rates r updated = (NO_ERROR, r) := by
        rw [checkCompatibleSamplingRate, if_neg (by simpa using hNonempty), scan_of_mem hMember]
      simp [Reported, hMember, hResult]
    · have hStart : Extrema r [] none none := ⟨by simp, by simp, by simp, by simp⟩
      rcases scan_extrema hMember hStart with ⟨below, above, hScan, hExtrema⟩
      rw [List.nil_append] at hExtrema
      rw [reported_of_scan hPositive hRate hExtrema hNonempty hMember hScan]
      simp [hNonempty, hMember]

theorem rate_reported_iff_wide :
    Reported [96000] 48000 0 (checkCompatibleSamplingRate [96000] 48000 0) ↔
      [96000] = ([] : List Nat) ∨ 48000 ∈ [96000] ∨
        ¬Rounds [96000] 48000 ∧ ((∃ c, Higher [96000] 48000 c) ∨ ¬Wraps [96000] 48000) :=
  rate_reported_iff (by decide) (by decide)

/- 25700 is 257 times the rate and accepted; 96000 is less than twice 65536 and refused. -/
theorem not_reported :
    checkCompatibleSamplingRate [25700] 100 0 = (NO_ERROR, 25700) ∧
      ¬Reported [25700] 100 0 (checkCompatibleSamplingRate [25700] 100 0) ∧
      checkCompatibleSamplingRate [65536] 96000 0 = (BAD_VALUE, 0) ∧
      ¬Reported [65536] 96000 0 (checkCompatibleSamplingRate [65536] 96000 0) := by
  have hAbove : checkCompatibleSamplingRate [25700] 100 0 = (NO_ERROR, 25700) := by decide
  have hBelow : checkCompatibleSamplingRate [65536] 96000 0 = (BAD_VALUE, 0) := by decide
  refine ⟨hAbove, ?_, hBelow, ?_⟩
  · rw [hAbove]
    simp [Reported, ReportedBelow, Higher, Lower, AUDIO_RESAMPLER_DOWN_RATIO_MAX, NO_ERROR,
      BAD_VALUE]
  · rw [hBelow]
    simp [Reported, ReportedBelow, Higher, Lower, AUDIO_RESAMPLER_DOWN_RATIO_MAX,
      AUDIO_RESAMPLER_UP_RATIO_MAX, NO_ERROR, BAD_VALUE]

end Result

end SamplingRates

end FrameworksAv
