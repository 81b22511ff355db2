import FrameworksAv.SampleTable.Caches

/-
  Random access to a consistent table: every call that succeeds finds its sample, whatever calls
  came before, as long as no call goes back to a chunk that could not be read.

  Main declarations:
    * `Cached`, `Fresh`
    * `finish_spec`, `arrive_spec`, `seekTo_spec`
    * `Access.exec_randomAccess`
-/

--
-- Seeks
--

namespace FrameworksAv

namespace SampleTable

open RunLength

variable {t : SampleTable} {it : SampleIterator} {sizeT : Nat} {source : DataSource}

/- The time and the duration of a sample. -/
theorem findSampleTimeAndDuration_spec (hSizeT : 4 ≤ sizeT) (hChecked : t.Checked)
    (hConsistent : t.Consistent) {lookup : CompositionDeltaLookup} (hClock : Clock t it)
    (hLookup : Lookup t lookup) {i : Nat} (hSample : i < t.mNumSampleSizes)
    (hGe : it.mTTSSampleIndex ≤ i) :
    ∃ it' lookup',
      it.findSampleTimeAndDuration sizeT t lookup i = (.ok, it', lookup') ∧
        it'.range = it.range ∧ it'.chunk = it.chunk ∧ Clock t it' ∧ Lookup t lookup' ∧
        it'.mCurrentSampleOffset = it.mCurrentSampleOffset ∧
        it'.mCurrentSampleSize = it.mCurrentSampleSize ∧
        it'.mCurrentSampleTime = u32 ((t.durations.take i).sum + t.compositionOffsets.getD i 0) ∧
        it'.mCurrentSampleDuration = t.durations.getD i 0 := by
  have hTimes := hChecked.times
  have hLe := hClock.1.le
  rcases findTime_spec hConsistent hSample (t.mTimeToSampleCount - it.mTimeToSampleIndex) hClock hGe
      (by omega) with
    ⟨it', hFind, hClock', hGe', hLt', hRange, hChunk, hResult⟩
  have hDelta := getCompositionTimeOffset_spec hSizeT hConsistent hLookup i
  simp only [SampleIterator.result, Prod.mk.injEq] at hResult
  rcases hResult with ⟨-, -, hOffset, hSize, -, -⟩
  have hDuration := hClock'.1.getElem?_expand hGe' hLt'
  have hSum := hClock'.1.sum_take_expand hGe' hLt'
  unfold SampleIterator.findSampleTimeAndDuration
  rw [if_neg (Nat.not_le.mpr hSample), hFind]
  simp only [ne_eq, not_true_eq_false, if_false]
  refine ⟨_, _, rfl, hRange, hChunk, hClock', hDelta.2, hOffset, hSize, ?_, ?_⟩
  · simp only [hDelta.1, hClock'.2, u32, durations, hSum]
    rw [Nat.mul_comm it'.mTTSDuration]
    omega
  · simp only [durations, List.getD_eq_getElem?_getD, hDuration, Option.getD_some]

/- The clock goes back to the start for an earlier sample. -/
theorem rewind_spec {i : Nat} (hClock : Clock t it) :
    ∃ it',
      (if i < it.mTTSSampleIndex then
          { it with
            mTimeToSampleIndex := 0
            mTTSSampleIndex := 0
            mTTSSampleTime := 0
            mTTSCount := 0
            mTTSDuration := 0 }
        else it) = it' ∧ Clock t it' ∧ it'.mTTSSampleIndex ≤ i ∧
        it'.range = it.range ∧ it'.chunk = it.chunk ∧
        it'.mCurrentSampleOffset = it.mCurrentSampleOffset ∧
        it'.mCurrentSampleSize = it.mCurrentSampleSize := by
  by_cases hBack : i < it.mTTSSampleIndex
  · rw [if_pos hBack]
    exact ⟨_, rfl, Clock.start rfl rfl rfl rfl, Nat.zero_le _,
      rfl, rfl, rfl, rfl⟩
  · rw [if_neg hBack]
    exact ⟨_, rfl, hClock, Nat.le_of_not_lt hBack, rfl, rfl,
      rfl, rfl⟩

/- A sample of the current chunk, loaded up to it. -/
theorem finish_spec (hSizeT : 4 ≤ sizeT) (hChecked : t.Checked) (hConsistent : t.Consistent)
    {bytes : Memory} {lookup : CompositionDeltaLookup} (hClock : Clock t it)
    (hLookup : Lookup t lookup) {i : Nat} (hLoaded : LoadedTo t bytes it i)
    (hSample : i < t.mNumSampleSizes) (hIn : t.InChunk it.mCurrentChunkIndex i)
    (hRelative :
      (i - it.mFirstChunkSampleIndex) % it.mSamplesPerChunk =
        i - t.firstSample it.mCurrentChunkIndex) :
    ∃ it' lookup',
      it.finish sizeT t lookup i = some (.ok, it', lookup') ∧
        it'.range = it.range ∧ it'.chunk = it.chunk ∧ Clock t it' ∧ Lookup t lookup' ∧
        it'.mInitialized = true ∧ it'.mCurrentSampleIndex = i ∧ t.Finds bytes i it' := by
  rcases hLoaded with ⟨hOffset, hSizes⟩
  have hFirst := hIn.2.1
  have hEntry :
      it.mCurrentChunkSampleSizes[i - t.firstSample it.mCurrentChunkIndex]? =
        some (t.sampleSize bytes i) := by
    rw [← List.getElem?_take_of_lt
      (show i - t.firstSample it.mCurrentChunkIndex <
        i + 1 - t.firstSample it.mCurrentChunkIndex by omega),
      hSizes]
    unfold sampleSizes
    rw [List.getElem?_map, List.getElem?_range' (by omega)]
    simp only [Option.map_some, Nat.one_mul]
    rw [Nat.add_sub_cancel' hFirst]
  have hTake :
      it.mCurrentChunkSampleSizes.take (i - t.firstSample it.mCurrentChunkIndex) =
        t.sampleSizes bytes (t.firstSample it.mCurrentChunkIndex)
          (i - t.firstSample it.mCurrentChunkIndex) := by
    have hBoth := congrArg (List.take (i - t.firstSample it.mCurrentChunkIndex)) hSizes
    rw [List.take_take, Nat.min_eq_left (by omega), sampleSizes_take bytes _ (by omega)] at hBoth
    exact hBoth
  have hClockAt :
      Clock t
        { it with
          mCurrentSampleOffset :=
            it.mCurrentChunkOffset +
              ((t.sampleSizes bytes (t.firstSample it.mCurrentChunkIndex)
                  (i - t.firstSample it.mCurrentChunkIndex)).sum :
                Nat)
          mCurrentSampleSize := t.sampleSize bytes i } :=
    hClock
  rcases rewind_spec (i := i) hClockAt with
    ⟨it₁, hRewind, hClock₁, hGe₁, hRange₁, hChunk₁, hOffset₁, hSize₁⟩
  rcases findSampleTimeAndDuration_spec hSizeT hChecked
      hConsistent hClock₁ hLookup hSample hGe₁ with
    ⟨it', lookup', hFind, hRange, hChunk, hClock', hLookup', hOff, hSz, hTime, hDuration⟩
  have hFinish :
      it.finish sizeT t lookup i =
        some
          (.ok,
            { it' with
              mCurrentSampleIndex := i
              mInitialized := true },
            lookup') := by
    unfold SampleIterator.finish
    simp only [hRelative, hEntry, hTake, hRewind, hFind]
    rfl
  rw [hOffset₁, hOffset] at hOff
  exact ⟨_, _, hFinish, hRange.trans hRange₁, hChunk.trans hChunk₁, hClock', hLookup', rfl, rfl,
    IsSample.mk ⟨_, hIn, hOff⟩ (hSz.trans hSize₁) hTime hDuration⟩

theorem Finds.congr {bytes : Memory} {i : Nat} {it' : SampleIterator} (h : t.Finds bytes i it)
    (hSame : it'.result = it.result) : t.Finds bytes i it' := by
  simp only [SampleIterator.result, Prod.mk.injEq] at hSame
  rcases hSame with ⟨-, -, hOffset, hSize, hTime, hDuration⟩
  unfold Finds
  rw [hOffset, hSize, hTime, hDuration]
  exact h

/- The caches of an iterator and of its lookup. -/
structure Cached (t : SampleTable) (bytes : Memory) (it : SampleIterator)
    (lookup : CompositionDeltaLookup) : Prop where
  range : Range t it
  clock : Clock t it
  lookup : Lookup t lookup
  sample : it.mInitialized = true → t.Finds bytes it.mCurrentSampleIndex it

/- A sample of the current chunk has been loaded with it, or is the last one found. -/
def Fresh (t : SampleTable) (bytes : Memory) (it : SampleIterator) (i : Nat) : Prop :=
  it.mInitialized = true →
    it.mCurrentSampleIndex = i ∨ ¬ t.InChunk it.mCurrentChunkIndex i ∨ LoadedTo t bytes it i

instance (bytes : Memory) (it : SampleIterator) (i : Nat) : Decidable (Fresh t bytes it i) :=
  inferInstanceAs (Decidable (_ = true → _ ∨ ¬ _ ∨ _ ∧ _))

/- All boxes but `stts` have been set. -/
def HasBoxes (t : SampleTable) : Prop :=
  t.mSampleToChunkOffset ≠ none ∧ t.mChunkOffsetOffset ≠ none ∧ t.mSampleSizeOffset ≠ none

theorem Cached.init (t : SampleTable) (bytes : Memory) : Cached t bytes .init .init where
  range := Range.start rfl rfl rfl
  clock := Clock.start rfl rfl rfl rfl
  lookup := Lookup.init t
  sample := nofun

/- The range to search from, after a reset if need be. -/
theorem Cached.rewindRange {bytes : Memory} {lookup : CompositionDeltaLookup}
    (h : Cached t bytes it lookup) (i : Nat) :
    ∃ it',
      (if ¬ it.mInitialized = true ∨ i < it.mFirstChunkSampleIndex then it.reset else it) = it' ∧
        Range t it' ∧ it'.mFirstChunkSampleIndex ≤ i ∧ it'.chunk = it.chunk ∧ it'.clock = it.clock ∧
        it'.result = it.result := by
  by_cases hBack : ¬ it.mInitialized = true ∨ i < it.mFirstChunkSampleIndex
  · rw [if_pos hBack]
    exact ⟨_, rfl, Range.start rfl rfl rfl, Nat.zero_le _, rfl,
      rfl, rfl⟩
  · rw [if_neg hBack]
    rw [not_or, Nat.not_lt] at hBack
    exact ⟨_, rfl, h.range, hBack.2, rfl, rfl, rfl⟩

/- Where a sample of the range of an iterator is. -/
theorem Range.locate (hChecked : t.Checked) (hConsistent : t.Consistent) (h : Range t it) {i : Nat}
    (hSample : i < t.mNumSampleSizes) (hGe : it.mFirstChunkSampleIndex ≤ i)
    (hLt : i < it.mStopChunkSampleIndex) :
    ∃ chunk,
      u32 ((i - it.mFirstChunkSampleIndex) / it.mSamplesPerChunk + it.mFirstChunk) = chunk ∧
        0 < it.mSamplesPerChunk ∧ it.mFirstChunk ≤ chunk ∧ t.InChunk chunk i ∧
        t.firstSample chunk =
          it.mFirstChunkSampleIndex + (chunk - it.mFirstChunk) * it.mSamplesPerChunk ∧
        t.chunkSizes[chunk]? = some it.mSamplesPerChunk ∧
        (i - it.mFirstChunkSampleIndex) % it.mSamplesPerChunk = i - t.firstSample chunk := by
  have hCount := hChecked.count
  rcases h.chunk hConsistent hSample hGe hLt with ⟨hPos, hIn, hFirst, hSize⟩
  have hSplit := Nat.div_add_mod' (i - it.mFirstChunkSampleIndex) it.mSamplesPerChunk
  generalize (i - it.mFirstChunkSampleIndex) / it.mSamplesPerChunk = n at *
  have hLe := hConsistent.le_firstSample (Nat.le_of_lt hIn.1)
  have hInside := hIn.2.1
  have hSmall : u32 (n + it.mFirstChunk) = n + it.mFirstChunk := Nat.mod_eq_of_lt (by omega)
  refine ⟨n + it.mFirstChunk, hSmall, hPos, Nat.le_add_left _ _, hIn, ?_, hSize, ?_⟩
  · rw [Nat.add_sub_cancel]
    exact hFirst
  · omega

/-
  The end of a seek: the chunk of the sample becomes the current one, unless it is already, and the
  sample is found.
-/
theorem arrive_spec (hSizeT : 4 ≤ sizeT) (hChecked : t.Checked) (hConsistent : t.Consistent)
    (hBoxes : HasBoxes t) {lookup : CompositionDeltaLookup} (h : Cached t source.bytes it lookup)
    {i : Nat} (hSample : i < t.mNumSampleSizes) (hGe : it.mFirstChunkSampleIndex ≤ i)
    (hLt : i < it.mStopChunkSampleIndex) (hFresh : Fresh t source.bytes it i)
    (hOther : it.mInitialized = true → it.mCurrentSampleIndex ≠ i) :
    ∃ r,
      it.arrive sizeT source t lookup i = some r ∧ Cached t source.bytes r.2.1 r.2.2 ∧
        (r.1 = .ok → r.2.1.mInitialized = true ∧ r.2.1.mCurrentSampleIndex = i) ∧
        ((∀ offset size, source.readable offset size = true) → r.1 = .ok) := by
  rcases h.range.locate hChecked hConsistent hSample hGe hLt with
    ⟨chunk, hChunk, hPos, hFirstLe, hIn, hFirst, hSize, hRelative⟩
  unfold SampleIterator.arrive
  simp only [hChunk]
  rw [if_neg (Nat.pos_iff_ne_zero.mp hPos)]
  by_cases hLoad : ¬ it.mInitialized = true ∨ chunk ≠ it.mCurrentChunkIndex
  · rw [if_pos hLoad]
    rcases loadChunk_spec source hSizeT hChecked
        (Option.isSome_iff_ne_none.mpr hBoxes.2.2) hConsistent hFirst hFirstLe hSize with
      ⟨q, hRead, hIndex, hRange, hClock, hResult, hLoaded, hAll⟩
    rw [hRead, Option.bind_some]
    have hRange' := h.range.congr hRange
    have hClock' := h.clock.congr hClock
    simp only [SampleIterator.range, Prod.mk.injEq] at hRange
    rcases hRange with ⟨-, -, hFirst', -, -, hSize'⟩
    by_cases hOk : q.1 = .ok
    · rw [if_neg (by simpa using hOk)]
      rcases finish_spec hSizeT hChecked hConsistent hClock' h.lookup
          ((hLoaded hOk).to (by rw [hIndex]; exact hIn)) hSample (by rw [hIndex]; exact hIn)
          (by rw [hIndex, hFirst', hSize']; exact hRelative) with
        ⟨it', lookup', hFinish, hRange'', -, hClock'', hLookup'', hInit, hCurrent, hIs⟩
      refine ⟨_, hFinish, ⟨hRange'.congr hRange'', hClock'',
        hLookup'', ?_⟩, fun _ => ⟨hInit, hCurrent⟩, fun _ => rfl⟩
      intro _
      rw [hCurrent]
      exact hIs
    · rw [if_pos (by simpa using hOk)]
      refine ⟨_, rfl, ⟨hRange', hClock', h.lookup, ?_⟩, fun hDone => absurd hDone hOk,
        fun hReads => absurd (hAll hReads) hOk⟩
      intro hInit
      have hSame := hResult
      simp only [SampleIterator.result, Prod.mk.injEq] at hSame
      rw [hSame.1] at hInit
      rw [hSame.2.1]
      exact (h.sample hInit).congr hResult
  · rw [if_neg hLoad]
    simp only [not_or, not_not] at hLoad
    rcases hLoad with ⟨hInit, rfl⟩
    -- the chunk is not loaded again, so it has to be loaded
    have hLoaded : LoadedTo t source.bytes it i := by
      rcases hFresh hInit with hSame | hNot | hLoaded
      · exact absurd hSame (hOther hInit)
      · exact absurd hIn hNot
      · exact hLoaded
    rcases finish_spec hSizeT hChecked hConsistent h.clock
        h.lookup hLoaded hSample hIn hRelative with
      ⟨it', lookup', hFinish, hRange', -, hClock', hLookup', hInit', hCurrent, hIs⟩
    refine ⟨_, hFinish, ⟨h.range.congr hRange', hClock',
      hLookup', ?_⟩, fun _ => ⟨hInit', hCurrent⟩, fun _ => rfl⟩
    intro _
    rw [hCurrent]
    exact hIs

/- What a seek does to the caches, and when it succeeds. -/
theorem seekTo_spec (source : DataSource) (hSizeT : 4 ≤ sizeT) (hChecked : t.Checked)
    (hConsistent : t.Consistent) {lookup : CompositionDeltaLookup}
    (h : Cached t source.bytes it lookup) {i : Nat} (hFresh : Fresh t source.bytes it i) :
    ∃ r,
      it.seekTo sizeT source t lookup i = some r ∧ Cached t source.bytes r.2.1 r.2.2 ∧
        (r.1 = .ok → r.2.1.mInitialized = true ∧ r.2.1.mCurrentSampleIndex = i) ∧
        (HasBoxes t → i < t.mNumSampleSizes → (∀ offset size, source.readable offset size = true) →
          r.1 = .ok) := by
  unfold SampleIterator.seekTo
  by_cases hSample : t.mNumSampleSizes ≤ i
  · rw [if_pos hSample]
    exact ⟨_, rfl, h, nofun, fun _ hLt => absurd hLt (by omega)⟩
  rw [if_neg hSample]
  rw [Nat.not_le] at hSample
  by_cases hBoxes :
      t.mSampleToChunkOffset = none ∨ t.mChunkOffsetOffset = none ∨
        t.mSampleSizeOffset = none ∨ t.mTimeToSampleCount = 0
  · rw [if_pos hBoxes]
    refine ⟨_, rfl, h, nofun, ?_⟩
    rintro ⟨hStsc, hStco, hStsz⟩
    have hNoTimes : t.mTimeToSampleCount = 0 := by
      simpa [hStsc, hStco, hStsz] using hBoxes
    have hCovered := hConsistent.covered
    rw [← hChecked.times, List.length_eq_zero_iff] at hNoTimes
    rw [hNoTimes, total_nil] at hCovered
    omega
  rw [if_neg hBoxes]
  simp only [not_or] at hBoxes
  rcases hBoxes with ⟨hStsc, hStco, hStsz, -⟩
  by_cases hSame : it.mInitialized = true ∧ it.mCurrentSampleIndex = i
  · rw [if_pos hSame]
    exact ⟨_, rfl, h, fun _ => hSame, fun _ _ _ => rfl⟩
  rw [if_neg hSame]
  have hCount := hChecked.count
  rcases h.rewindRange i with ⟨it₁, hRewind, hRange₁, hGe₁, hChunk₁, hClock₁, hResult₁⟩
  have hTurns :
      t.mSampleToChunkEntries.length ≤
        it₁.mSampleToChunkIndex + (t.mNumSampleToChunkOffsets - it₁.mSampleToChunkIndex) := by
    rw [hChecked.entries]
    omega
  rcases findChunkRange_spec hConsistent (by omega) hSample hRange₁ hGe₁ hTurns with
    ⟨it₂, hFind, hRange₂, hGe₂, hLt₂, hChunk₂, hClock₂, hResult₂⟩
  simp only [hRewind, hFind]
  rw [if_neg (by simp)]
  have hResult := hResult₂.trans hResult₁
  have hMembers := hResult
  simp only [SampleIterator.result, Prod.mk.injEq] at hMembers
  rcases hMembers with ⟨hInit, hCurrent, -⟩
  have hChunk := hChunk₂.trans hChunk₁
  have hIndex := hChunk
  simp only [SampleIterator.chunk, Prod.mk.injEq] at hIndex
  -- the search leaves the other caches and the result alone
  have hCached : Cached t source.bytes it₂ lookup := by
    constructor
    · exact hRange₂
    · exact h.clock.congr (hClock₂.trans hClock₁)
    · exact h.lookup
    · intro hSet
      rw [hInit] at hSet
      rw [hCurrent]
      exact (h.sample hSet).congr hResult
  have hFresh' : Fresh t source.bytes it₂ i := by
    intro hSet
    rw [hInit] at hSet
    rw [hCurrent, hIndex.1]
    rcases hFresh hSet with hLast | hNot | hLoaded
    · exact Or.inl hLast
    · exact Or.inr (Or.inl hNot)
    · exact Or.inr (Or.inr (hLoaded.congr hChunk))
  rcases arrive_spec hSizeT hChecked hConsistent
      ⟨hStsc, hStco, hStsz⟩ hCached hSample hGe₂ hLt₂ hFresh'
      (by
        rw [hInit, hCurrent]
        exact fun hSet hEq => hSame ⟨hSet, hEq⟩) with
    ⟨r, hArrive, hCached', hDone, hAll⟩
  exact ⟨r, hArrive, hCached', hDone, fun _ _ => hAll⟩

end SampleTable

--
-- Runs
--

namespace SampleTable

/- Calls of the extractor, each with the reads that succeed during it. -/
inductive Call where
| seekTo (readable : Nat → Nat → Bool) (sampleIndex : Nat)
| getMetaDataForSample (readable : Nat → Nat → Bool) (sampleIndex : Nat)
| getCompositionTimeOffset (sampleIndex : Nat)

namespace Access

variable (sizeT : Nat)
variable (source : DataSource)
variable (t : SampleTable)

def step (a : Access) : Call → Option Access
| .seekTo readable i =>
  (a.seekTo sizeT { source with readable := readable } t i).map
    (fun r => r.2)
| .getMetaDataForSample readable i =>
  (a.getMetaDataForSample sizeT { source with readable := readable } t i).map
    (fun r => r.2.2)
| .getCompositionTimeOffset i => some (a.getCompositionTimeOffset sizeT t i).2

/- The call does not go to a chunk that is current although it could not be loaded. -/
def FreshCall (a : Access) : Call → Prop
| .seekTo _ i => Fresh t source.bytes a.mSampleIterator i
| .getMetaDataForSample _ i => Fresh t source.bytes a.mSampleIterator i
| .getCompositionTimeOffset _ => True

instance (a : Access) (c : Call) : Decidable (a.FreshCall source t c) :=
  match c with
  | .seekTo _ i => inferInstanceAs (Decidable (Fresh t source.bytes a.mSampleIterator i))
  | .getMetaDataForSample _ i =>
    inferInstanceAs (Decidable (Fresh t source.bytes a.mSampleIterator i))
  | .getCompositionTimeOffset _ => inferInstanceAs (Decidable True)

def Inv (a : Access) : Prop :=
  Cached t source.bytes a.mSampleIterator a.mCompositionDeltaLookup

variable {sizeT : Nat} {source : DataSource} {t : SampleTable} {a : Access}

theorem Inv.seekTo (hSizeT : 4 ≤ sizeT) (hChecked : t.Checked) (hConsistent : t.Consistent)
    (h : a.Inv source t) (readable : Nat → Nat → Bool) {i : Nat}
    (hFresh : Fresh t source.bytes a.mSampleIterator i) :
    ∃ r,
      a.seekTo sizeT { source with readable := readable } t i =
          some r ∧
        r.2.Inv source t ∧ (r.1 = .ok → t.Finds source.bytes i r.2.mSampleIterator) ∧
        (HasBoxes t → i < t.mNumSampleSizes → (∀ offset size, readable offset size = true) →
          r.1 = .ok) := by
  rcases seekTo_spec { source with readable := readable }
      hSizeT hChecked hConsistent h hFresh
    with ⟨r, hSeek, hCached, hDone, hAll⟩
  have hAccess :
      a.seekTo sizeT { source with readable := readable } t i =
        some
          (r.1,
            { a with
              mSampleIterator := r.2.1
              mCompositionDeltaLookup := r.2.2 }) := by
    unfold Access.seekTo
    rw [hSeek]
    rfl
  refine ⟨_, hAccess, hCached, ?_, hAll⟩
  intro hOk
  rcases hDone hOk with ⟨hInit, hCurrent⟩
  have hFinds := hCached.sample hInit
  rw [hCurrent] at hFinds
  exact hFinds

/- `getMetaDataForSample` seeks and copies what it found. -/
theorem getMetaDataForSample_spec {source : DataSource} {i : Nat} {r : Status × Access}
    (hSeek : a.seekTo sizeT source t i = some r) :
    ∃ m,
      a.getMetaDataForSample sizeT source t i = some m ∧ m.1 = r.1 ∧
        m.2.2.mSampleIterator = r.2.mSampleIterator ∧
        m.2.2.mCompositionDeltaLookup = r.2.mCompositionDeltaLookup ∧
        (r.1 ≠ .ok → m.2 = (none, r.2)) ∧
        (r.1 = .ok →
          ∃ d, m.2.1 = some d ∧ d.offset = r.2.mSampleIterator.mCurrentSampleOffset ∧
            d.size = r.2.mSampleIterator.mCurrentSampleSize ∧
            d.compositionTime = r.2.mSampleIterator.mCurrentSampleTime ∧
            d.sampleDuration = r.2.mSampleIterator.mCurrentSampleDuration) := by
  unfold getMetaDataForSample
  rw [hSeek, Option.map_some]
  by_cases hOk : r.1 = .ok
  · rw [if_neg (by simpa using hOk)]
    exact ⟨_, rfl, hOk.symm, rfl, rfl, fun hNot => absurd hOk hNot,
      fun _ => ⟨_, rfl, rfl, rfl, rfl, rfl⟩⟩
  · rw [if_pos (by simpa using hOk)]
    exact ⟨_, rfl, rfl, rfl, rfl, fun _ => rfl, fun hYes => absurd hYes hOk⟩

theorem Inv.step (hSizeT : 4 ≤ sizeT) (hChecked : t.Checked) (hConsistent : t.Consistent)
    (h : a.Inv source t) {c : Call} {b : Access}
    (hStep :
      Run.guarded (fun a c => a.FreshCall source t c) (Access.step sizeT source t) a c = some b) :
    b.Inv source t := by
  rcases Run.guarded_eq_some.mp hStep with ⟨hFresh, hNext⟩
  cases c with
  | seekTo readable i =>
    rcases h.seekTo hSizeT hChecked hConsistent readable hFresh with ⟨r, hSeek, hInv, -⟩
    simp only [Access.step, hSeek, Option.map_some, Option.some.injEq] at hNext
    rw [← hNext]
    exact hInv
  | getMetaDataForSample readable i =>
    rcases h.seekTo hSizeT hChecked hConsistent readable hFresh with ⟨r, hSeek, hInv, -⟩
    rcases getMetaDataForSample_spec hSeek with ⟨m, hMeta, -, hIterator, hLookup, -⟩
    simp only [Access.step, hMeta, Option.map_some, Option.some.injEq] at hNext
    rw [← hNext]
    unfold Inv
    rw [hIterator, hLookup]
    exact hInv
  | getCompositionTimeOffset i =>
    simp only [Access.step, Option.some.injEq] at hNext
    rw [← hNext]
    exact ⟨h.range, h.clock, (getCompositionTimeOffset_spec hSizeT hConsistent h.lookup i).2,
      h.sample⟩

/- An index behind the last sample changes nothing. -/
theorem seekTo_endOfStream (sizeT : Nat) (a : Access) (source : DataSource) {i : Nat}
    (hEnd : t.mNumSampleSizes ≤ i) : a.seekTo sizeT source t i = some (.endOfStream, a) := by
  unfold Access.seekTo SampleIterator.seekTo
  rw [if_pos hEnd]
  rfl

end Access

--
-- Two Chunks
--

/-
  `stsc`, `stco`, `stsz` and `stts` of a track with a sample of 10 bytes in each of two chunks, at
  100 and 200.
-/
def twoChunks : DataSource where
  bytes offset :=
    ([0, 0, 0, 0, 0, 0, 0, 1, 0, 0, 0, 1, 0, 0, 0, 1, 0, 0, 0, 1,
      0, 0, 0, 0, 0, 0, 0, 2, 0, 0, 0, 100, 0, 0, 0, 200, 0, 0, 0, 0, 0, 0, 0, 10, 0, 0, 0, 2,
      0, 0, 0, 0, 0, 0, 0, 1, 0, 0, 0, 2, 0, 0, 3, 232] : List Byte).getD offset 0
  readable _ _ := true

def twoChunksTable : SampleTable :=
  { init with
    mChunkOffsetOffset := some 20
    mNumChunkOffsets := 2
    mSampleToChunkOffset := some 0
    mNumSampleToChunkOffsets := 1
    mSampleToChunkEntries := [⟨0, 1, 1⟩]
    mSampleSizeOffset := some 36
    mSampleSizeFieldSize := 32
    mDefaultSampleSize := 10
    mNumSampleSizes := 2
    mTimeToSampleCount := 1
    mTimeToSample := some [(2, 1000)] }

theorem twoChunks_accepted : Accepted 8 twoChunks twoChunksTable :=
  ⟨[.sampleToChunk 0 20, .chunkOffset .stco 20 16,
    .sampleSize .stsz 36 12, .timeToSample 48 16], by rfl⟩

theorem twoChunks_consistent : twoChunksTable.Consistent := by
  constructor
  · decide
  · decide
  · decide
  · decide
  · decide
  · decide
  · decide
  · decide

namespace Access

/- Samples back and forth, with a read that fails on the way. -/
def backAndForth : List Call :=
  [.seekTo (fun _ _ => true) 1, .getMetaDataForSample (fun _ _ => false) 0,
    .getMetaDataForSample (fun _ _ => true) 1, .getCompositionTimeOffset 1]

/-
  The offset of the second chunk cannot be read; the chunk becomes the current one nevertheless, and
  the next seek to its sample succeeds with the offset 0 and the size of the first chunk's sample.
-/
def unreadable : List Call :=
  [.seekTo (fun _ _ => true) 0, .seekTo (fun _ _ => false) 1]

end Access

end SampleTable

end FrameworksAv
