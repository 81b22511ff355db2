import FrameworksAv.Base.RunLength
import FrameworksAv.SampleTable.Iterator

/-
  What the boxes of a consistent table say about a sample.

  Main declarations:
    * `SampleTable.chunkSizes`, `SampleTable.InChunk`
    * `SampleTable.Consistent`
    * `SampleTable.IsSample`
-/

--
-- Samples And Chunks
--

namespace FrameworksAv

namespace SampleTable

open RunLength

/-
  An entry of `stsc` holds for all chunks up to the next entry; each run is a number of chunks and
  the number of samples in each.
-/
def chunkRuns (numChunks : Nat) : List SampleToChunkEntry → List (Nat × Nat)
| [] => []
| [e] => [(numChunks - e.startChunk, e.samplesPerChunk)]
| e :: f :: es => (f.startChunk - e.startChunk, e.samplesPerChunk) :: chunkRuns numChunks (f :: es)

variable (t : SampleTable)

/- The number of samples in each chunk. -/
def chunkSizes : List Nat :=
  expand (chunkRuns t.mNumChunkOffsets t.mSampleToChunkEntries)

def firstSample (chunk : Nat) : Nat :=
  (t.chunkSizes.take chunk).sum

def InChunk (chunk sampleIndex : Nat) : Prop :=
  chunk < t.chunkSizes.length ∧ t.firstSample chunk ≤ sampleIndex ∧
    sampleIndex < t.firstSample (chunk + 1)

instance (chunk sampleIndex : Nat) : Decidable (t.InChunk chunk sampleIndex) :=
  inferInstanceAs (Decidable (_ ∧ _ ∧ _))

/- The duration of each sample. -/
def durations : List Nat :=
  expand (t.mTimeToSample.getD [])

/- The composition offset of each sample that has one. -/
def compositionOffsets : List Nat :=
  expand (t.mCompositionTimeDeltaEntries.getD [])

/- The entry of a chunk in `stco` or `co64`. -/
def chunkOffset (bytes : Memory) (chunk : Nat) : Int :=
  let offset := t.mChunkOffsetOffset.getD 0
  match t.mChunkOffsetType with
  | .stco => beNat (bytes.load (offset + 8 + 4 * chunk) 4)
  | .co64 => off64 (beNat (bytes.load (offset + 8 + 8 * chunk) 8))

/- The entry of a sample in `stsz` or `stz2`. -/
def sampleSize (bytes : Memory) (sampleIndex : Nat) : Nat :=
  let table := t.mSampleSizeOffset.getD 0 + 12
  if t.mDefaultSampleSize > 0 then t.mDefaultSampleSize
  else if t.mSampleSizeFieldSize = 32 then beNat (bytes.load (table + 4 * sampleIndex) 4)
  else if t.mSampleSizeFieldSize = 16 then beNat (bytes.load (table + 2 * sampleIndex) 2)
  else if t.mSampleSizeFieldSize = 8 then beNat (bytes.load (table + sampleIndex) 1)
  else if sampleIndex % 2 = 1 then beNat (bytes.load (table + sampleIndex / 2) 1) % 16
  else beNat (bytes.load (table + sampleIndex / 2) 1) / 16

/- The sizes of the samples of a region. -/
def sampleSizes (bytes : Memory) (first count : Nat) : List Nat :=
  (List.range' first count).map (t.sampleSize bytes)

/-
  Offset, size, time and duration of a sample: the offset of its chunk and the sizes of the earlier
  samples of the chunk, its size, the durations of the samples before it and its composition offset,
  and its duration.
-/
structure IsSample (bytes : Memory) (sampleIndex : Nat) (offset : Int)
    (size time duration : Nat) : Prop where
  offset :
    ∃ chunk,
      t.InChunk chunk sampleIndex ∧
        offset =
          t.chunkOffset bytes chunk +
            ((t.sampleSizes bytes (t.firstSample chunk)
                (sampleIndex - t.firstSample chunk)).sum : Nat)
  size : size = t.sampleSize bytes sampleIndex
  time : time = u32 ((t.durations.take sampleIndex).sum + t.compositionOffsets.getD sampleIndex 0)
  duration : duration = t.durations.getD sampleIndex 0

/- The current sample of an iterator is a sample of the table. -/
def Finds (bytes : Memory) (sampleIndex : Nat) (it : SampleIterator) : Prop :=
  t.IsSample bytes sampleIndex it.mCurrentSampleOffset it.mCurrentSampleSize it.mCurrentSampleTime
    it.mCurrentSampleDuration

/-
  The boxes agree: the chunks of `stsc` start at the first one and follow each other, each with a
  sample and an offset, and hold all samples; `stts` covers all samples; no count overflows.
-/
structure Consistent : Prop where
  first : ∀ e, t.mSampleToChunkEntries[0]? = some e → e.startChunk = 0
  increasing : t.mSampleToChunkEntries.Pairwise (fun e f => e.startChunk < f.startChunk)
  positive : ∀ e ∈ t.mSampleToChunkEntries, 0 < e.samplesPerChunk
  complete : t.chunkSizes.sum = t.mNumSampleSizes
  located : t.chunkSizes.length ≤ t.mNumChunkOffsets
  covered : t.mNumSampleSizes ≤ total (t.mTimeToSample.getD [])
  timesSmall : total (t.mTimeToSample.getD []) < 2 ^ 32
  offsetsSmall : total (t.mCompositionTimeDeltaEntries.getD []) < 2 ^ 32

end SampleTable

--
-- Runs Of Chunks
--

namespace SampleTable

open RunLength

/- The first chunk behind an entry. -/
def stopChunk (numChunks : Nat) (es : List SampleToChunkEntry) (k : Nat) : Nat :=
  (es[k + 1]?.map (fun e => e.startChunk)).getD numChunks

theorem chunkRuns_getElem? (numChunks : Nat) {es : List SampleToChunkEntry} {k : Nat}
    {e : SampleToChunkEntry} (hEntry : es[k]? = some e) :
    (chunkRuns numChunks es)[k]? =
      some (stopChunk numChunks es k - e.startChunk, e.samplesPerChunk) := by
  induction es generalizing k with
  | nil => cases hEntry
  | cons d es ih =>
    cases es with
    | nil =>
      cases k with
      | zero =>
        cases hEntry
        rfl
      | succ k => cases hEntry
    | cons f es =>
      cases k with
      | zero =>
        cases hEntry
        rfl
      | succ k =>
        rw [List.getElem?_cons_succ] at hEntry
        exact ih hEntry

theorem chunkRuns_length (numChunks : Nat) (es : List SampleToChunkEntry) :
    (chunkRuns numChunks es).length = es.length := by
  induction es with
  | nil => rfl
  | cons d es ih =>
    cases es with
    | nil => rfl
    | cons f es =>
      simp only [chunkRuns, List.length_cons] at ih ⊢
      rw [ih]

/- The chunks in front of an entry. -/
theorem total_chunkRuns (numChunks : Nat) {es : List SampleToChunkEntry}
    (hIncreasing : es.Pairwise (fun e f => e.startChunk < f.startChunk)) {k : Nat}
    {d e : SampleToChunkEntry} (hFirst : es[0]? = some d) (hEntry : es[k]? = some e) :
    d.startChunk + total ((chunkRuns numChunks es).take k) = e.startChunk := by
  induction es generalizing k d with
  | nil => cases hEntry
  | cons c es ih =>
    cases hFirst
    cases es with
    | nil =>
      cases k with
      | zero =>
        cases hEntry
        rfl
      | succ k => cases hEntry
    | cons f es =>
      cases k with
      | zero =>
        cases hEntry
        rfl
      | succ k =>
        rw [List.getElem?_cons_succ] at hEntry
        have hTail := hIncreasing.tail
        have hLess : c.startChunk < f.startChunk :=
          List.rel_of_pairwise_cons hIncreasing List.mem_cons_self
        have hRest := ih hTail rfl hEntry
        simp only [chunkRuns, List.take_succ_cons, total_cons]
        omega

variable {t : SampleTable}

/- Where the chunks of an entry are. -/
theorem Consistent.run_start (h : t.Consistent) {k : Nat} {e : SampleToChunkEntry}
    (hEntry : t.mSampleToChunkEntries[k]? = some e) :
    total ((chunkRuns t.mNumChunkOffsets t.mSampleToChunkEntries).take k) = e.startChunk := by
  cases hFirst : t.mSampleToChunkEntries[0]? with
  | none =>
    have hEmpty : t.mSampleToChunkEntries = [] := by
      simpa using hFirst
    rw [hEmpty] at hEntry
    cases hEntry
  | some d =>
    have hTotal := total_chunkRuns t.mNumChunkOffsets h.increasing hFirst hEntry
    rw [h.first d hFirst] at hTotal
    omega

/- The samples in front of a chunk of an entry. -/
theorem Consistent.firstSample_run (h : t.Consistent) {k : Nat} {e : SampleToChunkEntry}
    (hEntry : t.mSampleToChunkEntries[k]? = some e) {chunk : Nat} (hGe : e.startChunk ≤ chunk)
    (hLe :
      chunk ≤
        e.startChunk + (stopChunk t.mNumChunkOffsets t.mSampleToChunkEntries k - e.startChunk)) :
    t.firstSample chunk =
      t.firstSample e.startChunk + (chunk - e.startChunk) * e.samplesPerChunk := by
  have hRun := chunkRuns_getElem? t.mNumChunkOffsets hEntry
  have hStart := h.run_start hEntry
  have hSum := fun i hi hj => sum_take_expand hRun (i := i) hi hj
  rw [hStart] at hSum
  have hHere := hSum chunk hGe hLe
  have hFirst := hSum e.startChunk (Nat.le_refl _) (by omega)
  unfold firstSample chunkSizes
  rw [hHere, hFirst]
  simp

theorem Consistent.chunkSizes_run (h : t.Consistent) {k : Nat} {e : SampleToChunkEntry}
    (hEntry : t.mSampleToChunkEntries[k]? = some e) {chunk : Nat} (hGe : e.startChunk ≤ chunk)
    (hLt :
      chunk <
        e.startChunk + (stopChunk t.mNumChunkOffsets t.mSampleToChunkEntries k - e.startChunk)) :
    t.chunkSizes[chunk]? = some e.samplesPerChunk := by
  have hRun := chunkRuns_getElem? t.mNumChunkOffsets hEntry
  have hStart := h.run_start hEntry
  apply getElem?_expand hRun
  · rw [hStart]
    exact hGe
  · rw [hStart]
    exact hLt

/- Every chunk has a sample. -/
theorem mem_chunkRuns {numChunks : Nat} {es : List SampleToChunkEntry} {r : Nat × Nat}
    (hMem : r ∈ chunkRuns numChunks es) : ∃ e ∈ es, r.2 = e.samplesPerChunk := by
  induction es with
  | nil => cases hMem
  | cons d es ih =>
    cases es with
    | nil =>
      rw [List.mem_singleton.mp hMem]
      exact ⟨d, List.mem_cons_self, rfl⟩
    | cons f es =>
      rcases List.mem_cons.mp hMem with hHead | hTail
      · rw [hHead]
        exact ⟨d, List.mem_cons_self, rfl⟩
      · rcases ih hTail with ⟨e, he, hEq⟩
        exact ⟨e, List.mem_cons_of_mem _ he, hEq⟩

theorem Consistent.size_pos (h : t.Consistent) {n : Nat} (hMem : n ∈ t.chunkSizes) : 0 < n := by
  rcases List.mem_flatMap.mp hMem with ⟨r, hr, hn⟩
  rcases mem_chunkRuns hr with ⟨e, he, hEq⟩
  rw [List.eq_of_mem_replicate hn, hEq]
  exact h.positive e he

/- A list of positive numbers sums up to its length at least. -/
theorem length_le_sum {l : List Nat} (hPos : ∀ n ∈ l, 0 < n) : l.length ≤ l.sum := by
  induction l with
  | nil => exact Nat.le_refl _
  | cons n l ih =>
    have hHead := hPos n List.mem_cons_self
    have hTail := ih (fun m hm => hPos m (List.mem_cons_of_mem _ hm))
    rw [List.length_cons, List.sum_cons]
    omega

theorem Consistent.le_firstSample (h : t.Consistent) {chunk : Nat}
    (hLe : chunk ≤ t.chunkSizes.length) : chunk ≤ t.firstSample chunk := by
  have hSum :=
    length_le_sum (l := t.chunkSizes.take chunk) (fun n hn => h.size_pos (List.mem_of_mem_take hn))
  rw [List.length_take, Nat.min_eq_left hLe] at hSum
  exact hSum

theorem Consistent.firstSample_le (h : t.Consistent) (chunk : Nat) :
    t.firstSample chunk ≤ t.mNumSampleSizes := by
  have hSplit := List.sum_take_add_sum_drop t.chunkSizes chunk
  rw [h.complete] at hSplit
  unfold firstSample
  omega

theorem firstSample_succ {chunk n : Nat} (hChunk : t.chunkSizes[chunk]? = some n) :
    t.firstSample (chunk + 1) = t.firstSample chunk + n := by
  unfold firstSample
  rw [List.take_add_one, hChunk, List.sum_append]
  simp

theorem firstSample_mono {chunk chunk' : Nat} (hLe : chunk ≤ chunk') :
    t.firstSample chunk ≤ t.firstSample chunk' := by
  unfold firstSample
  rcases Nat.exists_eq_add_of_le hLe with ⟨n, rfl⟩
  rw [List.take_add, List.sum_append]
  omega

/- The chunk of a sample is unique. -/
theorem InChunk.unique {chunk chunk' sampleIndex : Nat} (h : t.InChunk chunk sampleIndex)
    (h' : t.InChunk chunk' sampleIndex) : chunk = chunk' := by
  rcases h with ⟨-, hGe, hLt⟩
  rcases h' with ⟨-, hGe', hLt'⟩
  by_contra hNe
  rcases Nat.lt_or_gt_of_ne hNe with hLess | hMore
  · have hMono : t.firstSample (chunk + 1) ≤ t.firstSample chunk' := firstSample_mono hLess
    omega
  · have hMono : t.firstSample (chunk' + 1) ≤ t.firstSample chunk := firstSample_mono hMore
    omega

/- The last entry holds for the rest of the chunks. -/
theorem Consistent.firstSample_last (h : t.Consistent) {k : Nat} {e : SampleToChunkEntry}
    (hEntry : t.mSampleToChunkEntries[k]? = some e)
    (hLast : t.mSampleToChunkEntries[k + 1]? = none) :
    t.firstSample (e.startChunk + (t.mNumChunkOffsets - e.startChunk)) = t.mNumSampleSizes := by
  have hRun := chunkRuns_getElem? t.mNumChunkOffsets hEntry
  have hStart := h.run_start hEntry
  have hStop : stopChunk t.mNumChunkOffsets t.mSampleToChunkEntries k = t.mNumChunkOffsets := by
    unfold stopChunk
    rw [hLast]
    rfl
  -- all chunks are in front of the end of this entry
  have hLength : t.chunkSizes.length = e.startChunk + (t.mNumChunkOffsets - e.startChunk) := by
    have hNext := total_take_succ hRun
    rw [hStart, hStop, List.take_of_length_le] at hNext
    · unfold chunkSizes
      rw [length_expand, hNext]
    · rw [chunkRuns_length]
      exact List.getElem?_eq_none_iff.mp hLast
  rw [← hLength, firstSample, List.take_length, h.complete]

/- The chunk of a sample of an entry. -/
theorem Consistent.chunk_of_run (h : t.Consistent) {k : Nat} {e : SampleToChunkEntry}
    (hEntry : t.mSampleToChunkEntries[k]? = some e) {i : Nat} (hGe : t.firstSample e.startChunk ≤ i)
    (hLt :
      i <
        t.firstSample
          (e.startChunk +
            (stopChunk t.mNumChunkOffsets t.mSampleToChunkEntries k - e.startChunk))) :
    let n :=
      (i - t.firstSample e.startChunk) / e.samplesPerChunk
    t.InChunk (n + e.startChunk) i ∧
      t.firstSample (n + e.startChunk) = t.firstSample e.startChunk + n * e.samplesPerChunk ∧
      t.chunkSizes[n + e.startChunk]? = some e.samplesPerChunk := by
  have hPos := h.positive e (List.mem_of_getElem? hEntry)
  have hAll := h.firstSample_run hEntry (Nat.le_add_right _ _) (Nat.le_refl _)
  rw [Nat.add_sub_cancel_left] at hAll
  rw [hAll] at hLt
  have hRun := @firstSample_run t h k e hEntry
  have hSizes := @chunkSizes_run t h k e hEntry
  generalize stopChunk t.mNumChunkOffsets t.mSampleToChunkEntries k - e.startChunk = count at *
  intro n
  have hInside : n < count := by
    apply (Nat.div_lt_iff_lt_mul hPos).mpr
    omega
  have hBelow : n * e.samplesPerChunk ≤ i - t.firstSample e.startChunk := Nat.div_mul_le_self _ _
  have hAbove : i - t.firstSample e.startChunk < n * e.samplesPerChunk + e.samplesPerChunk :=
    Nat.lt_div_mul_add hPos
  clear_value n
  have hFirst :
      t.firstSample (n + e.startChunk) = t.firstSample e.startChunk + n * e.samplesPerChunk := by
    rw [hRun (by omega) (by omega), Nat.add_sub_cancel]
  have hSize : t.chunkSizes[n + e.startChunk]? = some e.samplesPerChunk :=
    hSizes (by omega) (by omega)
  refine ⟨⟨?_, ?_, ?_⟩, hFirst, hSize⟩
  · exact (List.getElem?_eq_some_iff.mp hSize).1
  · omega
  · rw [firstSample_succ hSize]
    omega

end SampleTable

end FrameworksAv
