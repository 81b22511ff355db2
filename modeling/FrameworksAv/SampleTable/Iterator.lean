import FrameworksAv.SampleTable.Table

/-
  Random access to the samples of a track: `SampleIterator` (`libstagefright/SampleIterator.cpp`)
  and the `CompositionDeltaLookup` of its table.

  `sizeT` is the number of bytes of a `size_t`. `none` is a failed `CHECK`, a division by zero or an
  access behind the end of a vector.

  Main declarations:
    * `SampleIterator`, `SampleIterator.seekTo`
    * `CompositionDeltaLookup.getCompositionTimeOffset`
    * `Access`, `Access.getMetaDataForSample`
-/

--
-- Composition Offsets
--

namespace FrameworksAv

namespace SampleTable

/- The position of a `CompositionDeltaLookup`. -/
structure CompositionDeltaLookup where
  mCurrentDeltaEntry : Nat
  mCurrentEntrySampleIndex : Nat
deriving DecidableEq

namespace CompositionDeltaLookup

def init : CompositionDeltaLookup := ⟨0, 0⟩

/- The loop of `getCompositionTimeOffset`, for at most as many turns as there are entries left. -/
def walk (sizeT : Nat) (mDeltaEntries : List (Nat × Nat)) (sampleIndex : Nat) :
    (turns : Nat) → CompositionDeltaLookup → Nat × CompositionDeltaLookup
| 0, l => (0, l)
| n + 1, l =>
  match mDeltaEntries[l.mCurrentDeltaEntry]? with
  | none => (0, l)
  | some (sampleCount, delta) =>
    let stop := (l.mCurrentEntrySampleIndex + sampleCount) % 2 ^ (8 * sizeT)
    if sampleIndex < stop then (delta, l)
    else walk sizeT mDeltaEntries sampleIndex n ⟨l.mCurrentDeltaEntry + 1, stop⟩

def getCompositionTimeOffset (sizeT : Nat) (mDeltaEntries : Option (List (Nat × Nat)))
    (l : CompositionDeltaLookup) (sampleIndex : Nat) : Nat × CompositionDeltaLookup :=
  match mDeltaEntries with
  | none => (0, l)
  | some entries =>
    let l := if sampleIndex < l.mCurrentEntrySampleIndex then init else l
    walk sizeT entries sampleIndex (entries.length - l.mCurrentDeltaEntry) l

end CompositionDeltaLookup

--
-- Iterator
--

/- Members of `SampleIterator`. -/
structure SampleIterator where
  mInitialized : Bool
  mSampleToChunkIndex : Nat
  mFirstChunk : Nat
  mFirstChunkSampleIndex : Nat
  mStopChunk : Nat
  mStopChunkSampleIndex : Nat
  mSamplesPerChunk : Nat
  mChunkDesc : Nat
  mCurrentChunkIndex : Nat
  mCurrentChunkOffset : Int
  mCurrentChunkSampleSizes : List Nat
  mTimeToSampleIndex : Nat
  mTTSSampleIndex : Nat
  mTTSSampleTime : Nat
  mTTSCount : Nat
  mTTSDuration : Nat
  mCurrentSampleIndex : Nat
  mCurrentSampleOffset : Int
  mCurrentSampleSize : Nat
  mCurrentSampleTime : Nat
  mCurrentSampleDuration : Nat

namespace SampleIterator

/- Members without an initial value are read only later. -/
def init : SampleIterator where
  mInitialized := false
  mSampleToChunkIndex := 0
  mFirstChunk := 0
  mFirstChunkSampleIndex := 0
  mStopChunk := 0
  mStopChunkSampleIndex := 0
  mSamplesPerChunk := 0
  mChunkDesc := 0
  mCurrentChunkIndex := 0
  mCurrentChunkOffset := 0
  mCurrentChunkSampleSizes := []
  mTimeToSampleIndex := 0
  mTTSSampleIndex := 0
  mTTSSampleTime := 0
  mTTSCount := 0
  mTTSDuration := 0
  mCurrentSampleIndex := 0
  mCurrentSampleOffset := 0
  mCurrentSampleSize := 0
  mCurrentSampleTime := 0
  mCurrentSampleDuration := 0

def reset (it : SampleIterator) : SampleIterator :=
  { it with
    mSampleToChunkIndex := 0
    mFirstChunk := 0
    mFirstChunkSampleIndex := 0
    mStopChunk := 0
    mStopChunkSampleIndex := 0
    mSamplesPerChunk := 0
    mChunkDesc := 0 }

/- One turn of the loop of `findChunkRange`. -/
def nextRange (t : SampleTable) (it : SampleIterator)
    (entry : SampleToChunkEntry) : SampleIterator :=
  let first := it.mStopChunkSampleIndex
  let it :=
    { it with
      mFirstChunkSampleIndex := first
      mFirstChunk := entry.startChunk
      mSamplesPerChunk := entry.samplesPerChunk
      mChunkDesc := entry.chunkDesc }
  let it :=
    match t.mSampleToChunkEntries[it.mSampleToChunkIndex + 1]? with
    | some next =>
      { it with
        mStopChunk := next.startChunk
        mStopChunkSampleIndex :=
          u32 (first + u32 (next.startChunk + 2 ^ 32 - it.mFirstChunk) * it.mSamplesPerChunk) }
    | none =>
      { it with
        mStopChunk := 0xffffffff
        mStopChunkSampleIndex := 0xffffffff }
  { it with mSampleToChunkIndex := it.mSampleToChunkIndex + 1 }

/- The loop of `findChunkRange`, at most once an entry. -/
def findChunkRange (t : SampleTable) (sampleIndex : Nat) :
    (turns : Nat) → SampleIterator → Status × SampleIterator
| turns, it =>
  if sampleIndex < it.mStopChunkSampleIndex then (.ok, it)
  else
    match turns with
    | 0 => (.outOfRange, it)
    | n + 1 =>
      match t.mSampleToChunkEntries[it.mSampleToChunkIndex]?
      with
      | none => (.outOfRange, it)
      | some entry => findChunkRange t sampleIndex n (it.nextRange t entry)

/- The entry of a chunk in `stco` or `co64`. -/
def getChunkOffset (source : DataSource) (t : SampleTable) (chunk : Nat) : Status × Int :=
  if chunk ≥ t.mNumChunkOffsets then (.outOfRange, 0)
  else
    let offset := t.mChunkOffsetOffset.getD 0
    match t.mChunkOffsetType with
    | .stco =>
      match source.readAt (offset + 8 + u32 (4 * chunk)) 4 with
      | none => (.io, 0)
      | some bytes => (.ok, beNat bytes)
    | .co64 =>
      match source.readAt (offset + 8 + u32 (8 * chunk)) 8 with
      | none => (.io, 0)
      | some bytes => (.ok, off64 (beNat bytes))

/-
  The size of a sample. The 32-bit size is read into a `size_t` and may take more bytes than it has;
  the result is that of its first four.
-/
def getSampleSizeDirect (sizeT : Nat) (source : DataSource) (t : SampleTable)
    (sampleIndex : Nat) : Option (Status × Nat) :=
  if sampleIndex ≥ t.mNumSampleSizes then some (.outOfRange, 0)
  else if t.mDefaultSampleSize > 0 then some (.ok, t.mDefaultSampleSize)
  else
    let table := t.mSampleSizeOffset.getD 0 + 12
    if t.mSampleSizeFieldSize = 32 then
      match source.readAt (table + u32 (4 * sampleIndex)) sizeT with
      | none => some (.io, 0)
      | some bytes => some (.ok, beNat (bytes.take 4))
    else if t.mSampleSizeFieldSize = 16 then
      match source.readAt (table + u32 (2 * sampleIndex)) 2 with
      | none => some (.io, 0)
      | some bytes => some (.ok, beNat bytes)
    else if t.mSampleSizeFieldSize = 8 then
      match source.readAt (table + sampleIndex) 1 with
      | none => some (.io, 0)
      | some bytes => some (.ok, beNat bytes)
    else if t.mSampleSizeFieldSize = 4 then
      match source.readAt (table + sampleIndex / 2) 1 with
      | none => some (.io, 0)
      | some bytes =>
        let x := beNat bytes
        some (.ok, if sampleIndex % 2 = 1 then x % 16 else x / 16)
    else none

/- The sizes of `count` samples, up to the first failure. -/
def readSizes (sizeT : Nat) (source : DataSource) (t : SampleTable) (first : Nat) :
    (count i : Nat) → (sizes : List Nat) → Option (Status × List Nat)
| 0, _, sizes => some (.ok, sizes)
| n + 1, i, sizes =>
  (getSampleSizeDirect sizeT source t (u32 (first + i))).bind
    (fun r =>
      if r.1 = .ok then readSizes sizeT source t first n (i + 1) (sizes ++ [r.2])
      else some (r.1, sizes))

/- Another chunk becomes the current one. -/
def loadChunk (sizeT : Nat) (source : DataSource) (t : SampleTable) (it : SampleIterator)
    (chunk : Nat) : Option (Status × SampleIterator) :=
  let r := getChunkOffset source t chunk
  let it :=
    { it with
      mCurrentChunkIndex := chunk
      mCurrentChunkOffset := r.2 }
  if r.1 ≠ .ok then some (r.1, it)
  else
    let firstChunkSampleIndex :=
      u32 (it.mFirstChunkSampleIndex + it.mSamplesPerChunk * u32 (chunk + 2 ^ 32 - it.mFirstChunk))
    (readSizes sizeT source t firstChunkSampleIndex it.mSamplesPerChunk 0 []).bind
      (fun r =>
        some (r.1, { it with mCurrentChunkSampleSizes := r.2 }))

/- The loop of `findSampleTimeAndDuration`. -/
def findTime (t : SampleTable) (sampleIndex : Nat) :
    (turns : Nat) → SampleIterator → Status × SampleIterator
| turns, it =>
  if sampleIndex < u32 (it.mTTSSampleIndex + it.mTTSCount) then (.ok, it)
  else
    match turns with
    | 0 => (.outOfRange, it)
    | n + 1 =>
      match (t.mTimeToSample.getD [])[it.mTimeToSampleIndex]?
      with
      | none => (.outOfRange, it)
      | some (count, duration) =>
        findTime t sampleIndex n
          { it with
            mTTSSampleIndex := u32 (it.mTTSSampleIndex + it.mTTSCount)
            mTTSSampleTime := u32 (it.mTTSSampleTime + it.mTTSCount * it.mTTSDuration)
            mTTSCount := count
            mTTSDuration := duration
            mTimeToSampleIndex := it.mTimeToSampleIndex + 1 }

/-
  The time of a sample becomes the current one. The time and the duration are written before an
  error is known to the caller, so only on success.
-/
def findSampleTimeAndDuration (sizeT : Nat) (t : SampleTable) (it : SampleIterator)
    (lookup : CompositionDeltaLookup) (sampleIndex : Nat) :
    Status × SampleIterator × CompositionDeltaLookup :=
  if sampleIndex ≥ t.mNumSampleSizes then (.outOfRange, it, lookup)
  else
    let r := findTime t sampleIndex (t.mTimeToSampleCount - it.mTimeToSampleIndex) it
    let it := r.2
    if r.1 ≠ .ok then (r.1, it, lookup)
    else
      let time := it.mTTSSampleTime + it.mTTSDuration * (sampleIndex - it.mTTSSampleIndex)
      let offset := lookup.getCompositionTimeOffset sizeT t.mCompositionTimeDeltaEntries sampleIndex
      (.ok,
        { it with
          mCurrentSampleTime := u32 (time + offset.1)
          mCurrentSampleDuration := it.mTTSDuration },
        offset.2)

/- Offset, size and time of a sample of the current chunk. -/
def finish (sizeT : Nat) (t : SampleTable) (it : SampleIterator) (lookup : CompositionDeltaLookup)
    (sampleIndex : Nat) : Option (Status × SampleIterator × CompositionDeltaLookup) :=
  let chunkRelativeSampleIndex := (sampleIndex - it.mFirstChunkSampleIndex) % it.mSamplesPerChunk
  match it.mCurrentChunkSampleSizes[chunkRelativeSampleIndex]? with
  | none => none
  | some size =>
    let it :=
      { it with
        mCurrentSampleOffset :=
          it.mCurrentChunkOffset +
            ((it.mCurrentChunkSampleSizes.take chunkRelativeSampleIndex).sum : Nat)
        mCurrentSampleSize := size }
    let it :=
      if sampleIndex < it.mTTSSampleIndex then
        { it with
          mTimeToSampleIndex := 0
          mTTSSampleIndex := 0
          mTTSSampleTime := 0
          mTTSCount := 0
          mTTSDuration := 0 }
      else it
    let r := findSampleTimeAndDuration sizeT t it lookup sampleIndex
    if r.1 ≠ .ok then some r
    else
      some
        (.ok,
          { r.2.1 with
            mCurrentSampleIndex := sampleIndex
            mInitialized := true },
          r.2.2)

/- The rest of `seekTo`, when the range of chunks is found. -/
def arrive (sizeT : Nat) (source : DataSource) (t : SampleTable) (it : SampleIterator)
    (lookup : CompositionDeltaLookup) (sampleIndex : Nat) :
    Option (Status × SampleIterator × CompositionDeltaLookup) :=
  if it.mSamplesPerChunk = 0 then none
  else
    let chunk :=
      u32 ((sampleIndex - it.mFirstChunkSampleIndex) / it.mSamplesPerChunk + it.mFirstChunk)
    if ¬ it.mInitialized ∨ chunk ≠ it.mCurrentChunkIndex then
      (loadChunk sizeT source t it chunk).bind
        (fun r =>
          if r.1 ≠ .ok then some (r.1, r.2, lookup)
          else finish sizeT t r.2 lookup sampleIndex)
    else finish sizeT t it lookup sampleIndex

def seekTo (sizeT : Nat) (source : DataSource) (t : SampleTable) (it : SampleIterator)
    (lookup : CompositionDeltaLookup) (sampleIndex : Nat) :
    Option (Status × SampleIterator × CompositionDeltaLookup) :=
  if sampleIndex ≥ t.mNumSampleSizes then some (.endOfStream, it, lookup)
  else if t.mSampleToChunkOffset = none ∨ t.mChunkOffsetOffset = none ∨ t.mSampleSizeOffset = none ∨
      t.mTimeToSampleCount = 0 then
    some (.malformed, it, lookup)
  else if it.mInitialized ∧ it.mCurrentSampleIndex = sampleIndex then some (.ok, it, lookup)
  else
    let it := if ¬ it.mInitialized ∨ sampleIndex < it.mFirstChunkSampleIndex then it.reset else it
    let r := findChunkRange t sampleIndex (t.mNumSampleToChunkOffsets - it.mSampleToChunkIndex) it
    let it := r.2
    if r.1 ≠ .ok then some (r.1, it, lookup)
    else it.arrive sizeT source t lookup sampleIndex

end SampleIterator

--
-- Access
--

/- What `getMetaDataForSample` returns. -/
structure MetaData where
  offset : Int
  size : Nat
  compositionTime : Nat
  isSyncSample : Bool
  sampleDuration : Nat

/- The parts of a table that its calls change. -/
structure Access where
  mSampleIterator : SampleIterator
  mCompositionDeltaLookup : CompositionDeltaLookup
  mLastSyncSampleIndex : Nat

namespace Access

def init : Access where
  mSampleIterator := .init
  mCompositionDeltaLookup := .init
  mLastSyncSampleIndex := 0

def seekTo (sizeT : Nat) (source : DataSource) (t : SampleTable) (a : Access)
    (sampleIndex : Nat) : Option (Status × Access) :=
  (a.mSampleIterator.seekTo sizeT source t a.mCompositionDeltaLookup sampleIndex).map
    (fun r =>
      (r.1,
        { a with
          mSampleIterator := r.2.1
          mCompositionDeltaLookup := r.2.2 }))

/- The first sync sample that is not in front of a sample. -/
def syncIndex (t : SampleTable) (a : Access) (sampleIndex : Nat) : Nat :=
  let first :=
    if a.mLastSyncSampleIndex < t.mNumSyncSamples ∧
        (t.mSyncSamples.getD a.mLastSyncSampleIndex 0) ≤ sampleIndex then
      a.mLastSyncSampleIndex
    else 0
  first + ((t.mSyncSamples.drop first).takeWhile (fun x => x < sampleIndex)).length

def getMetaDataForSample (sizeT : Nat) (source : DataSource) (t : SampleTable) (a : Access)
    (sampleIndex : Nat) : Option (Status × Option MetaData × Access) :=
  (a.seekTo sizeT source t sampleIndex).map
    (fun r =>
      if r.1 ≠ .ok then (r.1, none, r.2)
      else
        let it := r.2.mSampleIterator
        let i := r.2.syncIndex t sampleIndex
        let isSyncSample := if t.mSyncSampleOffset = none then true
          else t.mSyncSamples[i]? = some sampleIndex
        (.ok,
          some
            { offset := it.mCurrentSampleOffset
              size := it.mCurrentSampleSize
              compositionTime := it.mCurrentSampleTime
              isSyncSample := isSyncSample
              sampleDuration := it.mCurrentSampleDuration },
          { r.2 with
            mLastSyncSampleIndex := if t.mSyncSampleOffset = none then r.2.mLastSyncSampleIndex
              else i }))

/- `buildSampleEntriesTable` moves the lookup as well. -/
def getCompositionTimeOffset (sizeT : Nat) (t : SampleTable) (a : Access)
    (sampleIndex : Nat) : Nat × Access :=
  let r :=
    a.mCompositionDeltaLookup.getCompositionTimeOffset sizeT
      t.mCompositionTimeDeltaEntries sampleIndex
  (r.1, { a with mCompositionDeltaLookup := r.2 })

end Access

end SampleTable

end FrameworksAv
