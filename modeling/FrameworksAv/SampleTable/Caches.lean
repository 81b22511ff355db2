import FrameworksAv.SampleTable.Consistent

/-
  The caches of `SampleIterator` over a consistent table: the range of chunks, the current chunk,
  the run of `stts` and the entry of `ctts`, and what the loops do to them.

  Main declarations:
    * `Range`, `Clock`, `Loaded`, `LoadedTo`, `Lookup`
    * `findChunkRange_spec`
    * `findTime_spec`
    * `getCompositionTimeOffset_spec`
-/

--
-- Caches
--

namespace FrameworksAv

namespace SampleTable

open RunLength

variable (t : SampleTable)

/- The range of chunks of the iterator is that of an entry. -/
inductive Range (it : SampleIterator) : Prop
| start (hIndex : it.mSampleToChunkIndex = 0) (hFirst : it.mFirstChunkSampleIndex = 0)
    (hStop : it.mStopChunkSampleIndex = 0)
| at {k : Nat} {e : SampleToChunkEntry} (hEntry : t.mSampleToChunkEntries[k]? = some e)
    (hIndex : it.mSampleToChunkIndex = k + 1) (hChunk : it.mFirstChunk = e.startChunk)
    (hSize : it.mSamplesPerChunk = e.samplesPerChunk)
    (hFirst : it.mFirstChunkSampleIndex = t.firstSample e.startChunk)
    (hStop :
      it.mStopChunkSampleIndex =
        match t.mSampleToChunkEntries[k + 1]? with
        | some f => t.firstSample f.startChunk
        | none => 0xffffffff)

/- The run of `stts` of the iterator and its start time. -/
def Clock (it : SampleIterator) : Prop :=
  Cursor (t.mTimeToSample.getD []) it.mTimeToSampleIndex
      it.mTTSSampleIndex (it.mTTSCount, it.mTTSDuration) ∧
    it.mTTSSampleTime =
      u32 (expand ((t.mTimeToSample.getD []).take (it.mTimeToSampleIndex - 1))).sum

/- The current chunk has been loaded. -/
def Loaded (bytes : Memory) (it : SampleIterator) : Prop :=
  it.mCurrentChunkOffset = t.chunkOffset bytes it.mCurrentChunkIndex ∧
    it.mCurrentChunkSampleSizes =
      t.sampleSizes bytes (t.firstSample it.mCurrentChunkIndex)
        (t.chunkSizes.getD it.mCurrentChunkIndex 0)

/- The current chunk has been loaded up to a sample. -/
def LoadedTo (bytes : Memory) (it : SampleIterator) (i : Nat) : Prop :=
  let first := t.firstSample it.mCurrentChunkIndex
  it.mCurrentChunkOffset = t.chunkOffset bytes it.mCurrentChunkIndex ∧
    it.mCurrentChunkSampleSizes.take (i + 1 - first) = t.sampleSizes bytes first (i + 1 - first)

/- The lookup is at an entry of `ctts`. -/
def Lookup (l : CompositionDeltaLookup) : Prop :=
  l.mCurrentDeltaEntry ≤ (t.mCompositionTimeDeltaEntries.getD []).length ∧
    l.mCurrentEntrySampleIndex =
      total ((t.mCompositionTimeDeltaEntries.getD []).take l.mCurrentDeltaEntry)

end SampleTable

namespace SampleTable

namespace SampleIterator

/- The members of the range, the chunk, the time and the result. -/
def range (it : SampleIterator) :=
  (it.mSampleToChunkIndex, it.mFirstChunk, it.mFirstChunkSampleIndex, it.mStopChunk,
    it.mStopChunkSampleIndex, it.mSamplesPerChunk)

def chunk (it : SampleIterator) :=
  (it.mCurrentChunkIndex, it.mCurrentChunkOffset, it.mCurrentChunkSampleSizes)

def clock (it : SampleIterator) :=
  (it.mTimeToSampleIndex, it.mTTSSampleIndex, it.mTTSSampleTime, it.mTTSCount, it.mTTSDuration)

def result (it : SampleIterator) :=
  (it.mInitialized, it.mCurrentSampleIndex, it.mCurrentSampleOffset, it.mCurrentSampleSize,
    it.mCurrentSampleTime, it.mCurrentSampleDuration)

end SampleIterator

--
-- Chunk Range
--

open RunLength

variable {t : SampleTable} {it : SampleIterator}

theorem Range.congr {it' : SampleIterator} (h : Range t it) (hSame : it'.range = it.range) :
    Range t it' := by
  simp only [SampleIterator.range, Prod.mk.injEq] at hSame
  rcases hSame with ⟨hIndex', hChunk', hFirst', -, hStop', hSize'⟩
  cases h with
  | start hIndex hFirst hStop =>
    exact Range.start (hIndex'.trans hIndex) (hFirst'.trans hFirst) (hStop'.trans hStop)
  | «at» hEntry hIndex hChunk hSize hFirst hStop =>
    exact Range.at hEntry (hIndex'.trans hIndex) (hChunk'.trans hChunk) (hSize'.trans hSize)
      (hFirst'.trans hFirst) (hStop'.trans hStop)

/- The end of an entry that another one follows. -/
theorem Consistent.firstSample_next (h : t.Consistent) {k : Nat} {e f : SampleToChunkEntry}
    (hEntry : t.mSampleToChunkEntries[k]? = some e)
    (hNext : t.mSampleToChunkEntries[k + 1]? = some f) :
    e.startChunk < f.startChunk ∧
      t.firstSample f.startChunk =
        t.firstSample e.startChunk + (f.startChunk - e.startChunk) * e.samplesPerChunk := by
  have hStop : stopChunk t.mNumChunkOffsets t.mSampleToChunkEntries k = f.startChunk := by
    unfold stopChunk
    rw [hNext]
    rfl
  have hLess : e.startChunk < f.startChunk := by
    rcases List.getElem?_eq_some_iff.mp hEntry with ⟨hk, rfl⟩
    rcases List.getElem?_eq_some_iff.mp hNext with ⟨hk', rfl⟩
    exact List.pairwise_iff_getElem.mp h.increasing _ _ hk hk' (Nat.lt_succ_self k)
  have hRun := h.firstSample_run hEntry (Nat.le_of_lt hLess) (by rw [hStop]; omega)
  exact ⟨hLess, hRun⟩

theorem Range.next (hConsistent : t.Consistent) (hCount : t.mNumSampleSizes < 2 ^ 28)
    (h : Range t it) {e : SampleToChunkEntry}
    (hEntry : t.mSampleToChunkEntries[it.mSampleToChunkIndex]? = some e) :
    Range t (it.nextRange t e) ∧
      (it.nextRange t e).mFirstChunkSampleIndex = it.mStopChunkSampleIndex ∧
      (it.nextRange t e).mSampleToChunkIndex = it.mSampleToChunkIndex + 1 ∧
      (it.nextRange t e).chunk = it.chunk ∧ (it.nextRange t e).clock = it.clock ∧
      (it.nextRange t e).result = it.result := by
  -- the range before ends where the entry starts
  have hStart : it.mStopChunkSampleIndex = t.firstSample e.startChunk := by
    cases h with
    | start hIndex hFirst hStop =>
      rw [hIndex] at hEntry
      rw [hStop, hConsistent.first e hEntry]
      rfl
    | «at» hBefore hIndex hChunk hSize hFirst hStop =>
      rw [hIndex] at hEntry
      rw [hStop, hEntry]
  cases hNext : t.mSampleToChunkEntries[it.mSampleToChunkIndex + 1]? with
  | none =>
    simp only [SampleIterator.nextRange, hNext]
    refine ⟨?_, trivial, trivial, rfl, rfl, rfl⟩
    apply Range.at hEntry rfl rfl rfl hStart
    rw [hNext]
  | some f =>
    have hRun := hConsistent.firstSample_next hEntry hNext
    have hLe := hConsistent.firstSample_le f.startChunk
    simp only [SampleIterator.nextRange, hNext]
    refine ⟨?_, trivial, trivial, rfl, rfl, rfl⟩
    apply Range.at hEntry rfl rfl rfl hStart
    rw [hNext]
    have hCountChunks :
        u32 (f.startChunk + 2 ^ 32 - e.startChunk) = f.startChunk - e.startChunk := by
      have hPos := hConsistent.positive e (List.mem_of_getElem? hEntry)
      have hFew : f.startChunk - e.startChunk ≤ (f.startChunk - e.startChunk) * e.samplesPerChunk :=
        Nat.le_mul_of_pos_right _ hPos
      have hShift :
          f.startChunk + 2 ^ 32 - e.startChunk = f.startChunk - e.startChunk + 2 ^ 32 := by
        omega
      rw [u32, hShift, Nat.add_mod_right, Nat.mod_eq_of_lt]
      omega
    simp only [hCountChunks, hStart, ← hRun.2]
    exact Nat.mod_eq_of_lt (by omega)

/- A consistent table with a sample has an entry. -/
theorem Consistent.entries_ne_nil (h : t.Consistent) (hSome : 0 < t.mNumSampleSizes) :
    t.mSampleToChunkEntries ≠ [] := by
  intro hNil
  have hComplete := h.complete
  simp [chunkSizes, hNil, chunkRuns, expand] at hComplete
  omega

/- The range behind the last entry has no end. -/
theorem Range.lt_stop (hConsistent : t.Consistent) (hCount : t.mNumSampleSizes < 2 ^ 28)
    (h : Range t it) {i : Nat} (hSample : i < t.mNumSampleSizes)
    (hNone : t.mSampleToChunkEntries[it.mSampleToChunkIndex]? = none) :
    i < it.mStopChunkSampleIndex := by
  cases h with
  | start hIndex hFirst hStop =>
    rw [hIndex] at hNone
    have hNil : t.mSampleToChunkEntries = [] := by
      simpa using hNone
    exact absurd hNil (hConsistent.entries_ne_nil (by omega))
  | «at» hEntry hIndex hChunk hSize hFirst hStop =>
    rw [hIndex] at hNone
    rw [hStop, hNone]
    simp only
    omega

/- The range of a sample is found. -/
theorem findChunkRange_spec (hConsistent : t.Consistent) (hCount : t.mNumSampleSizes < 2 ^ 28)
    {i : Nat} (hSample : i < t.mNumSampleSizes) {turns : Nat} (h : Range t it)
    (hGe : it.mFirstChunkSampleIndex ≤ i)
    (hTurns : t.mSampleToChunkEntries.length ≤ it.mSampleToChunkIndex + turns) :
    ∃ it',
      it.findChunkRange t i turns = (.ok, it') ∧ Range t it' ∧ it'.mFirstChunkSampleIndex ≤ i ∧
        i < it'.mStopChunkSampleIndex ∧ it'.chunk = it.chunk ∧ it'.clock = it.clock ∧
        it'.result = it.result := by
  induction turns generalizing it with
  | zero =>
    have hNone : t.mSampleToChunkEntries[it.mSampleToChunkIndex]? = none :=
      List.getElem?_eq_none (by omega)
    have hInside := h.lt_stop hConsistent hCount hSample hNone
    refine ⟨it, ?_, h, hGe, hInside, rfl, rfl, rfl⟩
    rw [SampleIterator.findChunkRange, if_pos hInside]
  | succ n ih =>
    by_cases hInside : i < it.mStopChunkSampleIndex
    · refine ⟨it, ?_, h, hGe, hInside, rfl, rfl, rfl⟩
      rw [SampleIterator.findChunkRange, if_pos hInside]
    · cases hEntry : t.mSampleToChunkEntries[it.mSampleToChunkIndex]? with
      | none => exact absurd (h.lt_stop hConsistent hCount hSample hEntry) hInside
      | some e =>
        rcases h.next hConsistent hCount hEntry with
          ⟨hNext, hFirst, hIndex, hChunk, hClock, hResult⟩
        rcases ih hNext (by omega) (by omega) with
          ⟨it', hFind, hRange, hGe', hLt', hChunk', hClock', hResult'⟩
        refine ⟨it', ?_, hRange, hGe', hLt', hChunk'.trans hChunk, hClock'.trans hClock,
          hResult'.trans hResult⟩
        rw [SampleIterator.findChunkRange, if_neg hInside]
        simp only [hEntry]
        exact hFind

/- The chunk that the iterator computes. -/
theorem Range.chunk (hConsistent : t.Consistent) (h : Range t it) {i : Nat}
    (hSample : i < t.mNumSampleSizes) (hGe : it.mFirstChunkSampleIndex ≤ i)
    (hLt : i < it.mStopChunkSampleIndex) :
    let n :=
      (i - it.mFirstChunkSampleIndex) / it.mSamplesPerChunk
    0 < it.mSamplesPerChunk ∧ t.InChunk (n + it.mFirstChunk) i ∧
      t.firstSample (n + it.mFirstChunk) = it.mFirstChunkSampleIndex + n * it.mSamplesPerChunk ∧
      t.chunkSizes[n + it.mFirstChunk]? = some it.mSamplesPerChunk := by
  cases h with
  | start hIndex hFirst hStop => omega
  | @«at» k e hEntry hIndex hChunk hSize hFirst hStop =>
    have hPos := hConsistent.positive e (List.mem_of_getElem? hEntry)
    rw [hFirst] at hGe
    rw [hFirst, hSize, hChunk]
    refine ⟨hPos, hConsistent.chunk_of_run hEntry hGe ?_⟩
    unfold stopChunk
    cases hNext : t.mSampleToChunkEntries[k + 1]? with
    | none =>
      simp only [Option.map_none, Option.getD_none]
      rw [hConsistent.firstSample_last hEntry hNext]
      exact hSample
    | some f =>
      have hLess := (hConsistent.firstSample_next hEntry hNext).1
      rw [hStop, hNext] at hLt
      simp only [Option.map_some, Option.getD_some]
      rw [Nat.add_sub_cancel' (Nat.le_of_lt hLess)]
      exact hLt

--
-- Current Chunk
--

variable {sizeT : Nat} {source : DataSource}

theorem LoadedTo.congr {bytes : Memory} {it' : SampleIterator} {i : Nat} (h : LoadedTo t bytes it i)
    (hSame : it'.chunk = it.chunk) : LoadedTo t bytes it' i := by
  simp only [SampleIterator.chunk, Prod.mk.injEq] at hSame
  rcases hSame with ⟨hIndex, hOffset, hSizes⟩
  unfold LoadedTo
  rw [hIndex, hOffset, hSizes]
  exact h

theorem sampleSizes_take (bytes : Memory) (first : Nat) {m n : Nat} (hLe : m ≤ n) :
    (t.sampleSizes bytes first n).take m = t.sampleSizes bytes first m := by
  unfold sampleSizes
  rw [← List.map_take, List.take_range'_of_length_ge hLe]

/- A loaded chunk is loaded up to each of its samples. -/
theorem Loaded.to {bytes : Memory} (h : Loaded t bytes it) {i : Nat}
    (hIn : t.InChunk it.mCurrentChunkIndex i) : LoadedTo t bytes it i := by
  rcases h with ⟨hOffset, hSizes⟩
  rcases hIn with ⟨hLength, -, hLt⟩
  have hSize := List.getElem?_eq_getElem hLength
  rw [firstSample_succ hSize] at hLt
  refine ⟨hOffset, ?_⟩
  rw [hSizes, List.getD_eq_getElem?_getD, hSize, Option.getD_some, sampleSizes_take]
  omega

theorem load_take (bytes : Memory) (offset : Nat) {m n : Nat} (hLe : m ≤ n) :
    (bytes.load offset n).take m = bytes.load offset m := by
  rcases Nat.exists_eq_add_of_le hLe with ⟨k, rfl⟩
  rw [Memory.load_add, List.take_left' (Memory.load_length _ _ _)]

/- The offset of a chunk, if it can be read. -/
theorem getChunkOffset_spec (source : DataSource) {chunk : Nat}
    (hChunk : chunk < t.mNumChunkOffsets) (hSmall : chunk < 2 ^ 28) :
    let r := SampleIterator.getChunkOffset source t chunk
    (r.1 = .ok → r.2 = t.chunkOffset source.bytes chunk) ∧
      ((∀ offset size, source.readable offset size = true) → r.1 = .ok) := by
  have h4 : u32 (4 * chunk) = 4 * chunk := Nat.mod_eq_of_lt (by omega)
  have h8 : u32 (8 * chunk) = 8 * chunk := Nat.mod_eq_of_lt (by omega)
  unfold SampleIterator.getChunkOffset chunkOffset
  rw [if_neg (Nat.not_le.mpr hChunk)]
  simp only [h4, h8, DataSource.readAt]
  cases t.mChunkOffsetType with
  | stco =>
    by_cases hRead : source.readable (t.mChunkOffsetOffset.getD 0 + 8 + 4 * chunk) 4
    · simp [hRead]
    · simp only [hRead]
      exact ⟨by rintro ⟨⟩, fun hAll => absurd (hAll _ _) hRead⟩
  | co64 =>
    by_cases hRead : source.readable (t.mChunkOffsetOffset.getD 0 + 8 + 8 * chunk) 8
    · simp [hRead]
    · simp only [hRead]
      exact ⟨by rintro ⟨⟩, fun hAll => absurd (hAll _ _) hRead⟩

/- The size of a sample, if it can be read. -/
theorem getSampleSizeDirect_spec (source : DataSource) (hSizeT : 4 ≤ sizeT) (hChecked : t.Checked)
    (hBox : t.mSampleSizeOffset.isSome = true) {i : Nat} (hSample : i < t.mNumSampleSizes) :
    ∃ r,
      SampleIterator.getSampleSizeDirect sizeT source t i = some r ∧
        (r.1 = .ok → r.2 = t.sampleSize source.bytes i) ∧
        ((∀ offset size, source.readable offset size = true) → r.1 = .ok) := by
  have hCount := hChecked.count
  have h4 : u32 (4 * i) = 4 * i := Nat.mod_eq_of_lt (by omega)
  have h2 : u32 (2 * i) = 2 * i := Nat.mod_eq_of_lt (by omega)
  unfold SampleIterator.getSampleSizeDirect sampleSize
  rw [if_neg (Nat.not_le.mpr hSample)]
  simp only [h4, h2, DataSource.readAt]
  by_cases hDefault : t.mDefaultSampleSize > 0
  · simp [hDefault]
  · simp only [hDefault, if_false]
    rcases hChecked.fieldSize hBox with hField | hField | hField | hField
    · simp only [hField]
      by_cases hRead : source.readable (t.mSampleSizeOffset.getD 0 + 12 + i / 2) 1
      · simp [hRead]
      · simp only [hRead]
        exact ⟨_, rfl, by rintro ⟨⟩, fun hAll => absurd (hAll _ _) hRead⟩
    · simp only [hField]
      by_cases hRead : source.readable (t.mSampleSizeOffset.getD 0 + 12 + i) 1
      · simp [hRead]
      · simp only [hRead]
        exact ⟨_, rfl, by rintro ⟨⟩, fun hAll => absurd (hAll _ _) hRead⟩
    · simp only [hField]
      by_cases hRead : source.readable (t.mSampleSizeOffset.getD 0 + 12 + 2 * i) 2
      · simp [hRead]
      · simp only [hRead]
        exact ⟨_, rfl, by rintro ⟨⟩, fun hAll => absurd (hAll _ _) hRead⟩
    · simp only [hField]
      by_cases hRead : source.readable (t.mSampleSizeOffset.getD 0 + 12 + 4 * i) sizeT
      · simp [hRead, load_take _ _ hSizeT]
      · simp only [hRead]
        exact ⟨_, rfl, by rintro ⟨⟩, fun hAll => absurd (hAll _ _) hRead⟩

/- The sizes of a region of samples, if they can be read. -/
theorem readSizes_spec (source : DataSource) (hSizeT : 4 ≤ sizeT) (hChecked : t.Checked)
    (hBox : t.mSampleSizeOffset.isSome = true) (first count i : Nat) (sizes : List Nat)
    (hInside : first + i + count ≤ t.mNumSampleSizes) :
    ∃ r,
      SampleIterator.readSizes sizeT source t first count i sizes = some r ∧
        (r.1 = .ok → r.2 = sizes ++ t.sampleSizes source.bytes (first + i) count) ∧
        ((∀ offset size, source.readable offset size = true) → r.1 = .ok) := by
  have hCount := hChecked.count
  induction count generalizing i sizes with
  | zero =>
    refine ⟨(.ok, sizes), rfl, ?_, fun _ => rfl⟩
    intro _
    simp [sampleSizes]
  | succ n ih =>
    have hIndex : u32 (first + i) = first + i := Nat.mod_eq_of_lt (by omega)
    rcases getSampleSizeDirect_spec source hSizeT hChecked
        hBox (show first + i < t.mNumSampleSizes by omega)
      with ⟨r, hRead, hSize, hAll⟩
    unfold SampleIterator.readSizes
    rw [hIndex, hRead, Option.bind_some]
    by_cases hOk : r.1 = .ok
    · rw [if_pos hOk]
      rcases ih (i + 1) (sizes ++ [r.2]) (by omega) with ⟨q, hRest, hSizes, hRestAll⟩
      refine ⟨q, hRest, ?_, hRestAll⟩
      intro hDone
      rw [hSizes hDone, hSize hOk, List.append_assoc]
      unfold sampleSizes
      rw [List.range'_succ, List.map_cons]
      rfl
    · rw [if_neg hOk]
      exact ⟨_, rfl, fun hDone => absurd hDone hOk, fun hReads => absurd (hAll hReads) hOk⟩

/- The sizes and the offset of a chunk, if they can be read. -/
theorem loadChunk_spec (source : DataSource) (hSizeT : 4 ≤ sizeT) (hChecked : t.Checked)
    (hBox : t.mSampleSizeOffset.isSome = true) (hConsistent : t.Consistent) {chunk : Nat}
    (hFirst :
      t.firstSample chunk =
        it.mFirstChunkSampleIndex + (chunk - it.mFirstChunk) * it.mSamplesPerChunk)
    (hGe : it.mFirstChunk ≤ chunk) (hSize : t.chunkSizes[chunk]? = some it.mSamplesPerChunk) :
    ∃ r,
      it.loadChunk sizeT source t chunk = some r ∧ r.2.mCurrentChunkIndex = chunk ∧
        r.2.range = it.range ∧ r.2.clock = it.clock ∧ r.2.result = it.result ∧
        (r.1 = .ok → Loaded t source.bytes r.2) ∧
        ((∀ offset size, source.readable offset size = true) → r.1 = .ok) := by
  have hCount := hChecked.count
  have hLength := (List.getElem?_eq_some_iff.mp hSize).1
  have hLocated := hConsistent.located
  have hLe := hConsistent.le_firstSample (Nat.le_of_lt hLength)
  have hEnd := hConsistent.firstSample_le (chunk + 1)
  rw [firstSample_succ hSize] at hEnd
  -- the region of the chunk, without overflow
  have hBack : u32 (chunk + 2 ^ 32 - it.mFirstChunk) = chunk - it.mFirstChunk := by
    have hShift : chunk + 2 ^ 32 - it.mFirstChunk = chunk - it.mFirstChunk + 2 ^ 32 := by
      omega
    rw [u32, hShift, Nat.add_mod_right, Nat.mod_eq_of_lt]
    omega
  have hRegion :
      u32
          (it.mFirstChunkSampleIndex +
            it.mSamplesPerChunk * u32 (chunk + 2 ^ 32 - it.mFirstChunk)) =
        t.firstSample chunk := by
    rw [hBack, Nat.mul_comm, ← hFirst, u32, Nat.mod_eq_of_lt]
    omega
  have hInside : chunk < t.mNumChunkOffsets := by omega
  have hSmall : chunk < 2 ^ 28 := by omega
  rcases getChunkOffset_spec source hInside hSmall with ⟨hOffset, hOffsetAll⟩
  rcases readSizes_spec source hSizeT hChecked hBox (t.firstSample chunk) it.mSamplesPerChunk 0 []
      (by omega) with
    ⟨q, hRead, hSizes, hSizesAll⟩
  unfold SampleIterator.loadChunk
  simp only [hRegion]
  by_cases hOk : (SampleIterator.getChunkOffset source t chunk).1 = .ok
  · rw [if_neg (by simpa using hOk), hRead, Option.bind_some]
    refine ⟨_, rfl, rfl, rfl, rfl, rfl, ?_, hSizesAll⟩
    intro hDone
    refine ⟨hOffset hOk, ?_⟩
    simp only [hSizes hDone, hSize, List.nil_append,
      Nat.add_zero, List.getD_eq_getElem?_getD, Option.getD_some]
  · rw [if_pos (by simpa using hOk)]
    exact ⟨_, rfl, rfl, rfl, rfl, rfl, fun hDone => absurd hDone hOk,
      fun hReads => absurd (hOffsetAll hReads) hOk⟩

end SampleTable

--
-- Times
--

namespace SampleTable

open RunLength

variable {t : SampleTable} {it : SampleIterator}

theorem Clock.congr {it' : SampleIterator} (h : Clock t it) (hSame : it'.clock = it.clock) :
    Clock t it' := by
  simp only [SampleIterator.clock, Prod.mk.injEq] at hSame
  rcases hSame with ⟨hIndex, hSample, hTime, hCount, hDuration⟩
  unfold Clock
  rw [hIndex, hSample, hTime, hCount, hDuration]
  exact h

/- The clock at the start of the track. -/
theorem Clock.start (hIndex : it.mTimeToSampleIndex = 0) (hSample : it.mTTSSampleIndex = 0)
    (hTime : it.mTTSSampleTime = 0) (hCount : it.mTTSCount = 0) : Clock t it := by
  unfold Clock
  rw [hIndex, hSample, hTime, hCount]
  exact ⟨Cursor.start _, rfl⟩

/- The run of a sample is found. -/
theorem findTime_spec (hConsistent : t.Consistent) {i : Nat} (hSample : i < t.mNumSampleSizes)
    (turns : Nat) (h : Clock t it) (hGe : it.mTTSSampleIndex ≤ i)
    (hTurns : (t.mTimeToSample.getD []).length ≤ it.mTimeToSampleIndex + turns) :
    ∃ it',
      SampleIterator.findTime t i turns it = (.ok, it') ∧ Clock t it' ∧ it'.mTTSSampleIndex ≤ i ∧
        i < it'.mTTSSampleIndex + it'.mTTSCount ∧ it'.range = it.range ∧ it'.chunk = it.chunk ∧
        it'.result = it.result := by
  have hCovered := hConsistent.covered
  have hSmall := hConsistent.timesSmall
  induction turns generalizing it with
  | zero =>
    have hStop := h.1.stop
    have hLe := h.1.stop_le
    simp only at hStop hLe
    rw [List.take_of_length_le (by omega)] at hStop
    have hNow : i < u32 (it.mTTSSampleIndex + it.mTTSCount) := by
      rw [u32, Nat.mod_eq_of_lt (by omega)]
      omega
    refine ⟨it, ?_, h, hGe, by omega, rfl, rfl, rfl⟩
    rw [SampleIterator.findTime, if_pos hNow]
  | succ n ih =>
    have hLe := h.1.stop_le
    simp only at hLe
    have hStop : u32 (it.mTTSSampleIndex + it.mTTSCount) = it.mTTSSampleIndex + it.mTTSCount :=
      Nat.mod_eq_of_lt (by omega)
    by_cases hNow : i < it.mTTSSampleIndex + it.mTTSCount
    · refine ⟨it, ?_, h, hGe, hNow, rfl, rfl, rfl⟩
      rw [SampleIterator.findTime, hStop, if_pos hNow]
    · cases hRun : (t.mTimeToSample.getD [])[it.mTimeToSampleIndex]? with
      | none =>
        -- the cursor is behind the last run
        have hEnd := h.1.stop
        simp only at hEnd
        rw [List.take_of_length_le (List.getElem?_eq_none_iff.mp hRun)] at hEnd
        omega
      | some run =>
        rcases h with ⟨hCursor, hTime⟩
        have hNext := hCursor.next hRun
        have hSum := hCursor.sum_next
        rw [SampleIterator.findTime, hStop, if_neg hNow]
        simp only [hRun]
        apply ih
        · refine ⟨hNext, ?_⟩
          simp only [hTime, Nat.add_sub_cancel, hSum, u32, Nat.mod_add_mod]
        · exact Nat.le_of_not_lt hNow
        · simp only
          omega

/- The composition offset of a sample. -/
theorem walk_spec {sizeT : Nat} {entries : List (Nat × Nat)}
    (hSmall : total entries < 2 ^ (8 * sizeT)) {i turns : Nat} {l : CompositionDeltaLookup}
    (hIndex : l.mCurrentEntrySampleIndex = total (entries.take l.mCurrentDeltaEntry))
    (hGe : l.mCurrentEntrySampleIndex ≤ i)
    (hEntry : l.mCurrentDeltaEntry + turns = entries.length) :
    let r :=
      CompositionDeltaLookup.walk sizeT entries i turns l
    r.1 = (expand entries).getD i 0 ∧ r.2.mCurrentDeltaEntry ≤ entries.length ∧
      r.2.mCurrentEntrySampleIndex = total (entries.take r.2.mCurrentDeltaEntry) := by
  induction turns generalizing l with
  | zero =>
    refine ⟨?_, by simp only [CompositionDeltaLookup.walk]; omega, hIndex⟩
    rw [List.take_of_length_le (by omega)] at hIndex
    rw [List.getD_eq_getElem?_getD, List.getElem?_eq_none]
    · rfl
    · rw [length_expand]
      omega
  | succ n ih =>
    cases hRun : entries[l.mCurrentDeltaEntry]? with
    | none =>
      have hBehind := List.getElem?_eq_none_iff.mp hRun
      omega
    | some entry =>
      have hNext := total_take_succ hRun
      have hAll := total_take_le entries (l.mCurrentDeltaEntry + 1)
      have hStop :
          (l.mCurrentEntrySampleIndex + entry.1) % 2 ^ (8 * sizeT) =
            l.mCurrentEntrySampleIndex + entry.1 :=
        Nat.mod_eq_of_lt (by omega)
      rw [CompositionDeltaLookup.walk, hRun]
      simp only [hStop]
      by_cases hNow : i < l.mCurrentEntrySampleIndex + entry.1
      · rw [if_pos hNow]
        refine ⟨?_, by simp only; omega, hIndex⟩
        rw [List.getD_eq_getElem?_getD, getElem?_expand hRun (by omega) (by omega)]
        rfl
      · rw [if_neg hNow]
        apply ih
        · simp only
          omega
        · exact Nat.le_of_not_lt hNow
        · simp only
          omega

theorem Lookup.init (t : SampleTable) : Lookup t .init :=
  ⟨Nat.zero_le _, rfl⟩

/- The offset of a sample, wherever the lookup is. -/
theorem getCompositionTimeOffset_exact {sizeT : Nat}
    (hSmall : total (t.mCompositionTimeDeltaEntries.getD []) < 2 ^ (8 * sizeT))
    {l : CompositionDeltaLookup} (h : Lookup t l) (i : Nat) :
    let r :=
      l.getCompositionTimeOffset sizeT t.mCompositionTimeDeltaEntries i
    r.1 = t.compositionOffsets.getD i 0 ∧ Lookup t r.2 := by
  unfold CompositionDeltaLookup.getCompositionTimeOffset
  cases hEntries : t.mCompositionTimeDeltaEntries with
  | none =>
    refine ⟨?_, h⟩
    unfold compositionOffsets
    rw [hEntries]
    rfl
  | some entries =>
    rcases h with ⟨hLe, hIndex⟩
    rw [hEntries, Option.getD_some] at hSmall hLe hIndex
    unfold compositionOffsets Lookup
    rw [hEntries, Option.getD_some]
    by_cases hBack : i < l.mCurrentEntrySampleIndex
    · simp only [if_pos hBack]
      exact walk_spec hSmall rfl (Nat.zero_le _) (by simp [CompositionDeltaLookup.init])
    · simp only [if_neg hBack]
      exact walk_spec hSmall hIndex (Nat.le_of_not_lt hBack) (by omega)

theorem getCompositionTimeOffset_spec {sizeT : Nat} (hSizeT : 4 ≤ sizeT)
    (hConsistent : t.Consistent) {l : CompositionDeltaLookup} (h : Lookup t l) (i : Nat) :
    let r :=
      l.getCompositionTimeOffset sizeT t.mCompositionTimeDeltaEntries i
    r.1 = t.compositionOffsets.getD i 0 ∧ Lookup t r.2 := by
  have hWide : 2 ^ 32 ≤ 2 ^ (8 * sizeT) := Nat.pow_le_pow_right (by decide) (by omega)
  exact getCompositionTimeOffset_exact (Nat.lt_of_lt_of_le hConsistent.offsetsSmall hWide) h i

end SampleTable

end FrameworksAv
