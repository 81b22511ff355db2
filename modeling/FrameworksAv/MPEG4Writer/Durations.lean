import FrameworksAv.Base.Run
import FrameworksAv.Base.RunLength
import Mathlib.Tactic.Ring

/-
  The durations of the samples of a recorded track (`Track::threadEntry` of MPEG4Writer.cpp).

  Main declarations:
    * `ticks`, `adjust`
    * `Track`, `addSample`
    * `recorded_close`
    * `finish`, `expand_finish`
-/

--
-- Code
--

namespace FrameworksAv

namespace SampleDurations

/- A time in the ticks of the time scale. -/
def ticks (mTimeScale timestampUs : Int) : Int :=
  (timestampUs * mTimeScale + 500000).tdiv 1000000

structure Track where
  stszCount : Nat
  sttsTableEntries : List (Nat × Int)
  sampleCount : Nat
  lastDurationTicks : Int
  lastTimestampUs : Int
deriving DecidableEq, Repr

/- At the start of the thread. -/
def start : Track := ⟨0, [], 1, 0, 0⟩

def deltaUs (mTimeScale lastDurationTicks currDurationTicks : Int) : Int :=
  ((lastDurationTicks - currDurationTicks) * 1000000 + mTimeScale.tdiv 2).tdiv mTimeScale

/- The duration is near enough to the last one to be replaced by it. -/
def Fudges (mTimeScale lastDurationTicks currDurationTicks : Int) : Prop :=
  lastDurationTicks ≠ 0 ∧ currDurationTicks ≠ lastDurationTicks ∧
    -100 < deltaUs mTimeScale lastDurationTicks currDurationTicks ∧
    deltaUs mTimeScale lastDurationTicks currDurationTicks < 100

instance (mTimeScale lastDurationTicks currDurationTicks : Int) :
    Decidable (Fudges mTimeScale lastDurationTicks currDurationTicks) :=
  inferInstanceAs (Decidable (_ ∧ _))

/- `currDurationTicks` and `timestampUs`, replaced by the last duration and moved with it. -/
def adjust (mTimeScale lastDurationTicks currDurationTicks timestampUs : Int) : Int × Int :=
  if Fudges mTimeScale lastDurationTicks currDurationTicks then
    (lastDurationTicks, timestampUs + deltaUs mTimeScale lastDurationTicks currDurationTicks)
  else (currDurationTicks, timestampUs)

def currDurationTicks (mTimeScale : Int) (s : Track) (timestampUs : Int) : Int :=
  ticks mTimeScale timestampUs - ticks mTimeScale s.lastTimestampUs

/-
  A time stamp that is negative, or before the last one, ends the thread. The entry that is open
  goes into the table when the duration changes, and in any case after one sample.
-/
def addSample (mTimeScale : Int) (s : Track) (timestampUs : Int) : Option Track :=
  if timestampUs < 0 then none
  else
    let curr := currDurationTicks mTimeScale s timestampUs
    if curr < 0 then none
    else
      let r := adjust mTimeScale s.lastDurationTicks curr timestampUs
      let stszCount := s.stszCount + 1
      let closes := stszCount > 2 ∧ (stszCount = 3 ∨ r.1 ≠ s.lastDurationTicks)
      some
        { stszCount := stszCount
          sttsTableEntries :=
            if closes then s.sttsTableEntries ++ [(s.sampleCount, s.lastDurationTicks)]
            else s.sttsTableEntries
          sampleCount :=
            if closes then 1 else if stszCount > 2 then s.sampleCount + 1 else s.sampleCount
          lastDurationTicks := r.1
          lastTimestampUs := r.2 }

--
-- Meaning
--

def total (entries : List (Nat × Int)) : Int := (entries.map fun e => (e.1 : Int) * e.2).sum

/- The durations of all samples before the last one: in the table, and in the entry that is open. -/
def recorded (s : Track) : Int :=
  if s.stszCount ≤ 1 then 0
  else total s.sttsTableEntries + s.sampleCount * s.lastDurationTicks

/- At most the ticks of 0.1 ms and two ticks apart. -/
def Close (mTimeScale : Int) (s : Track) (timestampUs : Int) : Prop :=
  -(mTimeScale + 20000) ≤ 10000 * (recorded s - ticks mTimeScale timestampUs) ∧
    10000 * (recorded s - ticks mTimeScale timestampUs) ≤ mTimeScale + 20000

/-
  If the duration is replaced, moving the time stamp adds to its ticks what is added to the
  duration.
-/
def Lossless (mTimeScale : Int) (s : Track) (timestampUs : Int) : Prop :=
  let curr := currDurationTicks mTimeScale s timestampUs
  Fudges mTimeScale s.lastDurationTicks curr →
    ticks mTimeScale (timestampUs + deltaUs mTimeScale s.lastDurationTicks curr) -
        ticks mTimeScale timestampUs =
      s.lastDurationTicks - curr

instance (mTimeScale : Int) (s : Track) (timestampUs : Int) :
    Decidable (Close mTimeScale s timestampUs) :=
  inferInstanceAs (Decidable (_ ∧ _))

instance (mTimeScale : Int) (s : Track) (timestampUs : Int) :
    Decidable (Lossless mTimeScale s timestampUs) :=
  inferInstanceAs (Decidable (_ → _))

--
-- One sample
--

section Step

variable {mTimeScale : Int} {s t : Track} {timestampUs : Int}

/- The recorded durations go up to the time stamp as it was adjusted. -/
structure Exact (mTimeScale : Int) (s : Track) : Prop where
  recorded : recorded s = ticks mTimeScale s.lastTimestampUs
  first : s.stszCount ≤ 1 → s.sttsTableEntries = [] ∧ s.sampleCount = 1

theorem ticks_zero (mTimeScale : Int) : ticks mTimeScale 0 = 0 := by
  unfold ticks
  rw [Int.zero_mul]
  rfl

theorem total_append (entries : List (Nat × Int)) (count : Nat) (duration : Int) :
    total (entries ++ [(count, duration)]) = total entries + count * duration := by
  simp [total]

/- A sample adds the duration of the one before. -/
theorem recorded_addSample (hExact : Exact mTimeScale s) (hSample : s.stszCount ≠ 0)
    (hAdd : addSample mTimeScale s timestampUs = some t) :
    recorded t = recorded s + t.lastDurationTicks := by
  unfold addSample at hAdd
  dsimp only at hAdd
  split at hAdd
  · cases hAdd
  · split at hAdd
    · cases hAdd
    · cases hAdd
      generalize adjust mTimeScale s.lastDurationTicks
        (currDurationTicks mTimeScale s timestampUs) timestampUs = r
      unfold recorded
      dsimp only
      rw [if_neg (by omega)]
      by_cases hFirst : s.stszCount ≤ 1
      · rcases hExact.first hFirst with ⟨hTable, hCount⟩
        rw [if_pos hFirst, if_neg (by omega), if_neg (by omega), if_neg (by omega), hTable, hCount]
        simp [total]
      · rw [if_neg hFirst]
        by_cases hCloses : s.stszCount + 1 > 2 ∧ (s.stszCount + 1 = 3 ∨ r.1 ≠ s.lastDurationTicks)
        · rw [if_pos hCloses, if_pos hCloses, total_append]
          simp
        · have hSame : r.1 = s.lastDurationTicks := by
            by_contra hOther
            exact hCloses ⟨by omega, .inr hOther⟩
          rw [if_neg hCloses, if_neg hCloses, if_pos (by omega), hSame]
          push_cast
          ring

/- An adjusted time stamp is less than 0.1 ms from the one before. -/
theorem adjust_near (mTimeScale lastDurationTicks currDurationTicks timestampUs : Int) :
    let r := adjust mTimeScale lastDurationTicks currDurationTicks timestampUs
    r.2 - timestampUs < 100 ∧ -100 < r.2 - timestampUs := by
  unfold adjust
  split
  · rename_i hFudges
    rcases hFudges with ⟨-, -, hLow, hHigh⟩
    dsimp only
    omega
  · dsimp only
    omega

/- The ticks of the time stamp and the duration change alike. -/
theorem adjust_lossless (hLossless : Lossless mTimeScale s timestampUs) :
    let curr := currDurationTicks mTimeScale s timestampUs
    let r := adjust mTimeScale s.lastDurationTicks curr timestampUs
    ticks mTimeScale r.2 - ticks mTimeScale timestampUs = r.1 - curr := by
  dsimp only
  unfold adjust
  split
  · rename_i hFudges
    exact hLossless hFudges
  · dsimp only
    omega

/- Times that are near to each other have ticks that are near to each other. -/
theorem ticks_near {a b : Int} (hScale : 0 ≤ mTimeScale) (hLow : -100 < a - b)
    (hHigh : a - b < 100) :
    -(mTimeScale + 20000) ≤ 10000 * (ticks mTimeScale a - ticks mTimeScale b) ∧
      10000 * (ticks mTimeScale a - ticks mTimeScale b) ≤ mTimeScale + 20000 := by
  have hUp : a * mTimeScale - b * mTimeScale ≤ 100 * mTimeScale := by
    have hLe := Int.mul_le_mul_of_nonneg_right hHigh.le hScale
    rwa [Int.sub_mul] at hLe
  have hDown : -(100 * mTimeScale) ≤ a * mTimeScale - b * mTimeScale := by
    have hLe := Int.mul_le_mul_of_nonneg_right hLow.le hScale
    rwa [Int.sub_mul, Int.neg_mul] at hLe
  unfold ticks
  generalize a * mTimeScale = x at hUp hDown
  generalize b * mTimeScale = y at hUp hDown
  have hPos : (0 : Int) < 1000000 := by decide
  have hx := Int.mul_tdiv_add_tmod (x + 500000) 1000000
  have hy := Int.mul_tdiv_add_tmod (y + 500000) 1000000
  have hxLess := Int.tmod_lt_of_pos (x + 500000) hPos
  have hyLess := Int.tmod_lt_of_pos (y + 500000) hPos
  have hxMore := Int.lt_tmod_of_pos (x + 500000) hPos
  have hyMore := Int.lt_tmod_of_pos (y + 500000) hPos
  constructor
  · omega
  · omega

theorem addSample_exact (hScale : 0 ≤ mTimeScale) (hExact : Exact mTimeScale s)
    (hSample : s.stszCount ≠ 0) (hLossless : Lossless mTimeScale s timestampUs)
    (hAdd : addSample mTimeScale s timestampUs = some t) :
    Exact mTimeScale t ∧ t.stszCount ≠ 0 ∧ Close mTimeScale t timestampUs := by
  have hRecorded := recorded_addSample hExact hSample hAdd
  have hNear := adjust_near mTimeScale s.lastDurationTicks
    (currDurationTicks mTimeScale s timestampUs) timestampUs
  have hFields : t.stszCount = s.stszCount + 1 ∧
      (t.lastDurationTicks, t.lastTimestampUs) = adjust mTimeScale s.lastDurationTicks
        (currDurationTicks mTimeScale s timestampUs) timestampUs := by
    unfold addSample at hAdd
    dsimp only at hAdd
    split at hAdd
    · cases hAdd
    · split at hAdd
      · cases hAdd
      · cases hAdd
        exact ⟨rfl, rfl⟩
  have hMoved := adjust_lossless hLossless
  dsimp only at hNear hMoved
  rw [← hFields.2] at hNear hMoved
  have hTicks : recorded t = ticks mTimeScale t.lastTimestampUs := by
    rw [hRecorded, hExact.recorded]
    unfold currDurationTicks at hMoved
    dsimp only at hMoved
    omega
  refine ⟨⟨hTicks, fun hFirst => by omega⟩, by omega, ?_⟩
  unfold Close
  rw [hTicks]
  exact ticks_near hScale hNear.2 hNear.1

end Step

--
-- Runs
--

section Runs

/- After the first sample, whose time stamp is 0. -/
theorem addSample_start (mTimeScale : Int) :
    addSample mTimeScale start 0 = some ⟨1, [], 1, 0, 0⟩ := by
  simp [addSample, currDurationTicks, start, ticks_zero, adjust, Fudges]

theorem first_exact (mTimeScale : Int) : Exact mTimeScale ⟨1, [], 1, 0, 0⟩ :=
  ⟨(ticks_zero mTimeScale).symm, fun _ => ⟨rfl, rfl⟩⟩

/- Frames that take 3001 ticks each, but the first, and whose durations are recorded as 3000. -/
def drifting : List Int :=
  [ 0, 33333, 66683, 100027, 133372, 166716, 200060, 233405, 266749, 300094, 333438, 366783, 400127,
    433472]

end Runs

--
-- The Table
--

section Table

/- What is written for a track, the last duration once more for the last sample. -/
def finish (s : Track) : List (Nat × Int) :=
  let lastDurationTicks := if s.stszCount = 1 then 0 else s.lastDurationTicks
  let sampleCount := if s.stszCount = 1 then s.sampleCount else s.sampleCount + 1
  if s.stszCount ≤ 2 then
    s.sttsTableEntries ++
      (1, lastDurationTicks) ::
        (if sampleCount - 1 > 0 then [(sampleCount - 1, lastDurationTicks)] else [])
  else s.sttsTableEntries ++ [(sampleCount, lastDurationTicks)]

/- The duration that each sample comes with, which is that of the sample before. -/
def durations (mTimeScale : Int) : Track → List Int → List Int
| _, [] => []
| s, timestampUs :: times =>
  match addSample mTimeScale s timestampUs with
  | none => []
  | some t => t.lastDurationTicks :: durations mTimeScale t times

variable {mTimeScale : Int} {s t : Track} {times : List Int}

theorem durations_append (hRun : Run.exec (addSample mTimeScale) s times = some t) {u : Track}
    {timestampUs : Int} (hAdd : addSample mTimeScale t timestampUs = some u) :
    durations mTimeScale s (times ++ [timestampUs]) =
      durations mTimeScale s times ++ [u.lastDurationTicks] := by
  induction times generalizing s with
  | nil =>
    cases hRun
    simp only [List.nil_append, durations, hAdd]
  | cons time times ih =>
    rcases Run.exec_cons_eq_some.mp hRun with ⟨next, hFirst, hRest⟩
    rw [List.cons_append, durations, durations, hFirst]
    dsimp only
    rw [ih hRest, List.cons_append]

/- The table and the entry that is open stand for all durations but that of the first sample. -/
structure Tabled (durations : List Int) (s : Track) : Prop where
  count : s.stszCount = durations.length
  few : s.stszCount ≤ 2 → s.sttsTableEntries = [] ∧ s.sampleCount = 1
  last : s.stszCount ≠ 0 → durations.getLast? = some s.lastDurationTicks
  expands :
    2 ≤ s.stszCount →
      RunLength.expand s.sttsTableEntries ++ List.replicate s.sampleCount s.lastDurationTicks =
        durations.tail

theorem Tabled.addSample {ticks : List Int} (h : Tabled ticks s) {timestampUs : Int}
    (hAdd : addSample mTimeScale s timestampUs = some t) :
    Tabled (ticks ++ [t.lastDurationTicks]) t := by
  have hCount := h.count
  unfold SampleDurations.addSample at hAdd
  dsimp only at hAdd
  split at hAdd
  · cases hAdd
  · split at hAdd
    · cases hAdd
    · cases hAdd
      generalize adjust mTimeScale s.lastDurationTicks
        (currDurationTicks mTimeScale s timestampUs) timestampUs = r
      dsimp only
      refine ⟨by rw [List.length_append, hCount]; rfl, ?_, fun _ => List.getLast?_concat, ?_⟩
      · intro hFew
        dsimp only at hFew
        rw [if_neg (by omega), if_neg (by omega), if_neg (by omega)]
        exact h.few (by omega)
      · intro hTwo
        dsimp only at hTwo
        have hTail : (ticks ++ [r.1]).tail = ticks.tail ++ [r.1] :=
          List.tail_append_of_ne_nil (by rintro rfl; simp at hCount; omega)
        rw [hTail]
        by_cases hSecond : s.stszCount = 1
        · rcases h.few (by omega) with ⟨hTable, hOne⟩
          have hNone : ticks.tail = [] := List.eq_nil_of_length_eq_zero (by simp; omega)
          rw [if_neg (by omega), if_neg (by omega), if_neg (by omega), hTable, hOne, hNone]
          rfl
        · rw [← h.expands (by omega)]
          by_cases hCloses :
            s.stszCount + 1 > 2 ∧ (s.stszCount + 1 = 3 ∨ r.1 ≠ s.lastDurationTicks)
          · rw [if_pos hCloses, if_pos hCloses, RunLength.expand_append]
            simp [RunLength.expand]
          · have hSame : r.1 = s.lastDurationTicks := by
              by_contra hOther
              exact hCloses ⟨by omega, .inr hOther⟩
            rw [if_neg hCloses, if_neg hCloses, if_pos (by omega), hSame, List.append_assoc,
              List.replicate_succ']

end Table

end SampleDurations

end FrameworksAv
