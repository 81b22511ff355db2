import FrameworksAv.Base.Bytes
import FrameworksAv.Base.Run

/-
  `SampleTable` (`libstagefright/SampleTable.cpp`): the boxes of an MP4 track that say where its
  samples are.

  An `uint32_t` is a number below 2^32 and its arithmetic is reduced with `u32`. Allocations
  succeed. `none` is a failed `CHECK`.

  Main declarations:
    * `DataSource`, `DataSource.readAt`
    * `SampleTable`
    * `SampleTable.setChunkOffsetParams` and the other setters
    * `SetParams`, `SampleTable.Accepted`
-/

--
-- Data
--

namespace FrameworksAv

namespace SampleTable

/- The status of a call. -/
inductive Status where
| ok
| endOfStream   -- `ERROR_END_OF_STREAM`
| malformed     -- `ERROR_MALFORMED`
| outOfRange    -- `ERROR_OUT_OF_RANGE`
| io            -- `ERROR_IO`
deriving DecidableEq

/- Arithmetic of `uint32_t`. -/
def u32 (n : Nat) : Nat := n % 2 ^ 32

/- A big-endian number (`U32_AT`, `ntohl`, `ntoh64`). -/
def beNat (bytes : List Byte) : Nat :=
  bytes.foldl (fun n b => 256 * n + b.toNat) 0

/- An `off64_t` from its bits. -/
def off64 (n : Nat) : Int :=
  if n < 2 ^ 63 then n else n - 2 ^ 64

/- What a `DataSource` holds and which reads succeed: a read may fail or come up short. -/
structure DataSource where
  bytes : Memory
  readable : Nat → Nat → Bool

def DataSource.readAt (source : DataSource) (offset size : Nat) : Option (List Byte) :=
  if source.readable offset size then some (source.bytes.load offset size)
  else none

structure SampleToChunkEntry where
  startChunk : Nat
  samplesPerChunk : Nat
  chunkDesc : Nat
deriving DecidableEq

/- `kChunkOffsetType32` and `kChunkOffsetType64`. -/
inductive ChunkOffsetType where
| stco
| co64
deriving DecidableEq

/- `kSampleSizeType32` and `kSampleSizeTypeCompact`. -/
inductive SampleSizeType where
| stsz
| stz2
deriving DecidableEq

end SampleTable

open SampleTable in
/-
  The tables of a track. An offset is `none` until its box is set (-1 in the code); entries of
  `stts` and `ctts` are pairs of a count and a value.
-/
structure SampleTable where
  mChunkOffsetOffset : Option Nat
  mChunkOffsetType : ChunkOffsetType
  mNumChunkOffsets : Nat
  mSampleToChunkOffset : Option Nat
  mNumSampleToChunkOffsets : Nat
  mSampleToChunkEntries : List SampleToChunkEntry
  mSampleSizeOffset : Option Nat
  mSampleSizeFieldSize : Nat
  mDefaultSampleSize : Nat
  mNumSampleSizes : Nat
  mTimeToSampleCount : Nat
  mTimeToSample : Option (List (Nat × Nat))
  mCompositionTimeDeltaEntries : Option (List (Nat × Nat))
  mSyncSampleOffset : Option Nat
  mNumSyncSamples : Nat
  mSyncSamples : List Nat

namespace SampleTable

def init : SampleTable where
  mChunkOffsetOffset := none
  mChunkOffsetType := .stco
  mNumChunkOffsets := 0
  mSampleToChunkOffset := none
  mNumSampleToChunkOffsets := 0
  mSampleToChunkEntries := []
  mSampleSizeOffset := none
  mSampleSizeFieldSize := 0
  mDefaultSampleSize := 0
  mNumSampleSizes := 0
  mTimeToSampleCount := 0
  mTimeToSample := none
  mCompositionTimeDeltaEntries := none
  mSyncSampleOffset := none
  mNumSyncSamples := 0
  mSyncSamples := []

/- `countSamples`. -/
def countSamples (t : SampleTable) : Nat :=
  t.mNumSampleSizes

--
-- Setters
--

/- Word number `k` of some bytes. -/
def wordAt (bytes : List Byte) (k : Nat) : Nat :=
  beNat ((bytes.drop (4 * k)).take 4)

def setChunkOffsetParams (source : DataSource) (t : SampleTable) (type : ChunkOffsetType)
    (data_offset data_size : Nat) : Status × SampleTable :=
  if t.mChunkOffsetOffset.isSome then (.malformed, t)
  else
    let t :=
      { t with
        mChunkOffsetOffset := some data_offset
        mChunkOffsetType := type }
    if data_size < 8 then (.malformed, t)
    else
      match source.readAt data_offset 8 with
      | none => (.io, t)
      | some header =>
        if wordAt header 0 ≠ 0 then (.malformed, t)
        else
          let t := { t with mNumChunkOffsets := wordAt header 1 }
          let width :=
            match type with
            | .stco => 4
            | .co64 => 8
          if data_size < u32 (8 + t.mNumChunkOffsets * width)
          then (.malformed, t)
          else (.ok, t)

/- The entries of `stsc`; `none` if one cannot be read. -/
def readEntries (source : DataSource) (offset : Nat) : (count : Nat) → Option (List (List Byte))
| 0 => some []
| n + 1 => do
    let entries ← readEntries source offset n
    let buffer ← source.readAt (offset + 8 + u32 (n * 12)) 12
    return entries ++ [buffer]

/- `SIZE_MAX` is `2 ^ (8 * sizeT) - 1`. -/
def setSampleToChunkParams (sizeT : Nat) (source : DataSource) (t : SampleTable)
    (data_offset data_size : Nat) : Option (Status × SampleTable) :=
  if t.mSampleToChunkOffset.isSome then some (.malformed, t)
  else
    let t := { t with mSampleToChunkOffset := some data_offset }
    if data_size < 8 then some (.malformed, t)
    else
      match source.readAt data_offset 8 with
      | none => some (.io, t)
      | some header =>
        if wordAt header 0 ≠ 0 then some (.malformed, t)
        else
          let count := wordAt header 1
          let t := { t with mNumSampleToChunkOffsets := count }
          if data_size < u32 (8 + count * 12) then some (.malformed, t)
          else if (2 ^ (8 * sizeT) - 1) / 12 ≤ count then some (.outOfRange, t)
          else
            match readEntries source data_offset count with
            | none => some (.io, t)
            | some buffers =>
              -- chunk indices are 1-based
              if buffers.any (fun b => wordAt b 0 < 1) then none
              else
                some
                  (.ok,
                    { t with
                      mSampleToChunkEntries :=
                        buffers.map (fun b =>
                          { startChunk := wordAt b 0 - 1
                            samplesPerChunk := wordAt b 1
                            chunkDesc := wordAt b 2 }) })

def setSampleSizeParams (source : DataSource) (t : SampleTable) (type : SampleSizeType)
    (data_offset data_size : Nat) : Status × SampleTable :=
  if t.mSampleSizeOffset.isSome then (.malformed, t)
  else
    let t := { t with mSampleSizeOffset := some data_offset }
    if data_size < 12 then (.malformed, t)
    else
      match source.readAt data_offset 12 with
      | none => (.io, t)
      | some header =>
        if wordAt header 0 ≠ 0 then (.malformed, t)
        else
          let t :=
            { t with
              mDefaultSampleSize := wordAt header 1
              mNumSampleSizes := wordAt header 2 }
          if t.mNumSampleSizes > (2 ^ 32 - 1 - 12) / 16 then (.malformed, t)
          else
            match type with
            | .stsz =>
              let t := { t with mSampleSizeFieldSize := 32 }
              if t.mDefaultSampleSize ≠ 0 then (.ok, t)
              else if data_size < u32 (12 + t.mNumSampleSizes * 4) then (.malformed, t)
              else (.ok, t)
            | .stz2 =>
              -- the high 24 bits are reserved
              if t.mDefaultSampleSize ≥ 256 then (.malformed, t)
              else
                let t :=
                  { t with
                    mSampleSizeFieldSize := t.mDefaultSampleSize
                    mDefaultSampleSize := 0 }
                if t.mSampleSizeFieldSize ≠ 4 ∧ t.mSampleSizeFieldSize ≠ 8 ∧
                    t.mSampleSizeFieldSize ≠ 16 then
                  (.malformed, t)
                else if data_size <
                    u32 (12 + u32 (t.mNumSampleSizes * t.mSampleSizeFieldSize + 4) / 8) then
                  (.malformed, t)
                else (.ok, t)

/- Pairs of words: a count and a value. -/
def pairs (bytes : List Byte) (count : Nat) : List (Nat × Nat) :=
  (List.range count).map (fun k => (wordAt bytes (2 * k), wordAt bytes (2 * k + 1)))

def setTimeToSampleParams (source : DataSource) (t : SampleTable)
    (data_offset data_size : Nat) : Status × SampleTable :=
  if t.mTimeToSample.isSome ∨ data_size < 8 then (.malformed, t)
  else
    match source.readAt data_offset 8 with
    | none => (.io, t)
    | some header =>
      if wordAt header 0 ≠ 0 then (.malformed, t)
      else
        let count := wordAt header 1
        let t := { t with mTimeToSampleCount := count }
        if count * 2 * 4 > 2 ^ 32 - 1 then (.outOfRange, t)
        else
          match source.readAt (data_offset + 8) (4 * count * 2)
          with
          | none =>
            -- allocated, but never filled
            (.io, { t with mTimeToSample := some [] })
          | some bytes =>
            (.ok,
              { t with
                mTimeToSample := some (pairs bytes count) })

def setCompositionTimeToSampleParams (sizeT : Nat) (source : DataSource) (t : SampleTable)
    (data_offset data_size : Nat) : Status × SampleTable :=
  if t.mCompositionTimeDeltaEntries.isSome ∨ data_size < 8 then (.malformed, t)
  else
    match source.readAt data_offset 8 with
    | none => (.io, t)
    | some header =>
      if wordAt header 0 ≠ 0 then (.malformed, t)
      else
        let numEntries := wordAt header 1
        if data_size ≠ (numEntries + 1) * 8 % 2 ^ (8 * sizeT) then (.malformed, t)
        else if numEntries * 2 * 4 > 2 ^ 32 - 1 then (.outOfRange, t)
        else
          match source.readAt (data_offset + 8) (numEntries * 8)
          with
          | none => (.io, t)
          | some bytes =>
            (.ok,
              { t with
                mCompositionTimeDeltaEntries := some (pairs bytes numEntries) })

def setSyncSampleParams (sizeT : Nat) (source : DataSource) (t : SampleTable)
    (data_offset data_size : Nat) : Status × SampleTable :=
  if t.mSyncSampleOffset.isSome ∨ data_size < 8 then (.malformed, t)
  else
    let t := { t with mSyncSampleOffset := some data_offset }
    match source.readAt data_offset 8 with
    | none => (.io, t)
    | some header =>
      if wordAt header 0 ≠ 0 then (.malformed, t)
      else
        let count := wordAt header 1
        let t := { t with mNumSyncSamples := count }
        if count * 4 > 2 ^ (8 * sizeT) - 1 then (.outOfRange, t)
        else
          match source.readAt (data_offset + 8) (count * 4) with
          | none => (.io, t)
          | some bytes =>
            -- sample numbers are 1-based
            (.ok,
              { t with
                mSyncSamples :=
                  (List.range count).map (fun k =>
                    u32 (wordAt bytes k + 2 ^ 32 - 1)) })

/- A call of one of the setters. -/
inductive SetParams where
| chunkOffset (type : ChunkOffsetType) (data_offset data_size : Nat)
| sampleToChunk (data_offset data_size : Nat)
| sampleSize (type : SampleSizeType) (data_offset data_size : Nat)
| timeToSample (data_offset data_size : Nat)
| compositionTimeToSample (data_offset data_size : Nat)
| syncSample (data_offset data_size : Nat)

/- The table after a setter that returned `OK`. -/
def accept (sizeT : Nat) (source : DataSource) (t : SampleTable) : SetParams → Option SampleTable
| .chunkOffset type offset size =>
  let r := t.setChunkOffsetParams source type offset size
  if r.1 = .ok then some r.2 else none
| .sampleToChunk offset size =>
  (t.setSampleToChunkParams sizeT source offset size).bind
    (fun r => if r.1 = .ok then some r.2 else none)
| .sampleSize type offset size =>
  let r := t.setSampleSizeParams source type offset size
  if r.1 = .ok then some r.2 else none
| .timeToSample offset size =>
  let r := t.setTimeToSampleParams source offset size
  if r.1 = .ok then some r.2 else none
| .compositionTimeToSample offset size =>
  let r := t.setCompositionTimeToSampleParams sizeT source offset size
  if r.1 = .ok then some r.2 else none
| .syncSample offset size =>
  let r := t.setSyncSampleParams sizeT source offset size
  if r.1 = .ok then some r.2 else none

/-
  A table whose entries have all been accepted: at most one accepted call of each setter, in any
  order.
-/
def Accepted (sizeT : Nat) (source : DataSource) (t : SampleTable) : Prop :=
  ∃ calls, Run.exec (accept sizeT source) init calls = some t

/- What the setters promise. -/
structure Checked (t : SampleTable) : Prop where
  count : t.mNumSampleSizes ≤ (2 ^ 32 - 1 - 12) / 16
  fieldSize :
    t.mSampleSizeOffset.isSome = true →
      t.mSampleSizeFieldSize = 4 ∨ t.mSampleSizeFieldSize = 8 ∨ t.mSampleSizeFieldSize = 16 ∨
        t.mSampleSizeFieldSize = 32
  entries : t.mSampleToChunkEntries.length = t.mNumSampleToChunkOffsets
  times : (t.mTimeToSample.getD []).length = t.mTimeToSampleCount

theorem Checked.init : init.Checked := by
  constructor
  · decide
  · intro hSome
    cases hSome
  · rfl
  · rfl

theorem readEntries_length {source : DataSource} {offset count : Nat} {entries : List (List Byte)}
    (hRead : readEntries source offset count = some entries) : entries.length = count := by
  induction count generalizing entries with
  | zero =>
    cases hRead
    rfl
  | succ n ih =>
    simp only [readEntries, Option.bind_eq_bind, Option.bind_eq_some_iff] at hRead
    rcases hRead with ⟨es, hEntries, b, -, hEq⟩
    cases hEq
    rw [List.length_append, ih hEntries]
    rfl

theorem setChunkOffsetParams_checked {source : DataSource} {t t' : SampleTable} (h : t.Checked)
    {type : ChunkOffsetType} {offset size : Nat}
    (hSet : t.setChunkOffsetParams source type offset size = (.ok, t')) : t'.Checked := by
  unfold setChunkOffsetParams at hSet
  simp only at hSet
  repeat' split at hSet
  all_goals try cases hSet
  all_goals exact ⟨h.count, h.fieldSize, h.entries, h.times⟩

theorem setSampleToChunkParams_checked {sizeT : Nat} {source : DataSource} {t t' : SampleTable}
    (h : t.Checked) {offset size : Nat}
    (hSet : t.setSampleToChunkParams sizeT source offset size = some (.ok, t')) : t'.Checked := by
  unfold setSampleToChunkParams at hSet
  simp only at hSet
  repeat' split at hSet
  all_goals try cases hSet
  rename_i header hHeader hVersion hSize hLimit buffers hRead hBase
  constructor
  · exact h.count
  · exact h.fieldSize
  · rw [List.length_map]
    exact readEntries_length hRead
  · exact h.times

theorem setSampleSizeParams_checked {source : DataSource} {t t' : SampleTable} (h : t.Checked)
    {type : SampleSizeType} {offset size : Nat}
    (hSet : t.setSampleSizeParams source type offset size = (.ok, t')) : t'.Checked := by
  unfold setSampleSizeParams at hSet
  simp only at hSet
  repeat' split at hSet
  all_goals try cases hSet
  · rename_i hCount _ _
    exact ⟨Nat.le_of_not_lt hCount, by simp, h.entries, h.times⟩
  · rename_i hCount _ _ _
    exact ⟨Nat.le_of_not_lt hCount, by simp, h.entries, h.times⟩
  · rename_i hCount _ _ hField _
    refine ⟨Nat.le_of_not_lt hCount, ?_, h.entries, h.times⟩
    intro _
    simp only at hField ⊢
    omega

theorem setTimeToSampleParams_checked {source : DataSource} {t t' : SampleTable} (h : t.Checked)
    {offset size : Nat} (hSet : t.setTimeToSampleParams source offset size = (.ok, t')) :
    t'.Checked := by
  unfold setTimeToSampleParams at hSet
  simp only at hSet
  repeat' split at hSet
  all_goals try cases hSet
  exact ⟨h.count, h.fieldSize, h.entries, by simp [pairs]⟩

theorem setCompositionTimeToSampleParams_checked {sizeT : Nat} {source : DataSource}
    {t t' : SampleTable} (h : t.Checked) {offset size : Nat}
    (hSet : t.setCompositionTimeToSampleParams sizeT source offset size = (.ok, t')) :
    t'.Checked := by
  unfold setCompositionTimeToSampleParams at hSet
  simp only at hSet
  repeat' split at hSet
  all_goals try cases hSet
  exact ⟨h.count, h.fieldSize, h.entries, h.times⟩

theorem setSyncSampleParams_checked {sizeT : Nat} {source : DataSource} {t t' : SampleTable}
    (h : t.Checked) {offset size : Nat}
    (hSet : t.setSyncSampleParams sizeT source offset size = (.ok, t')) : t'.Checked := by
  unfold setSyncSampleParams at hSet
  simp only at hSet
  repeat' split at hSet
  all_goals try cases hSet
  exact ⟨h.count, h.fieldSize, h.entries, h.times⟩

/- An accepted table has been checked. -/
theorem Accepted.checked {sizeT : Nat} {source : DataSource} {t : SampleTable}
    (h : Accepted sizeT source t) : t.Checked := by
  rcases h with ⟨calls, hRun⟩
  refine Run.exec_invariant ?_ hRun Checked.init
  intro t call t' hChecked hAccept
  cases call with
  | chunkOffset type offset size =>
    simp only [accept] at hAccept
    split at hAccept
    · rename_i hStatus
      cases hAccept
      exact setChunkOffsetParams_checked hChecked (Prod.ext hStatus rfl)
    · cases hAccept
  | sampleToChunk offset size =>
    simp only [accept, Option.bind_eq_some_iff] at hAccept
    rcases hAccept with ⟨⟨status, u⟩, hSet, hOk⟩
    simp only at hOk
    split at hOk
    · rename_i hStatus
      cases hOk
      rw [hStatus] at hSet
      exact setSampleToChunkParams_checked hChecked hSet
    · cases hOk
  | sampleSize type offset size =>
    simp only [accept] at hAccept
    split at hAccept
    · rename_i hStatus
      cases hAccept
      exact setSampleSizeParams_checked hChecked (Prod.ext hStatus rfl)
    · cases hAccept
  | timeToSample offset size =>
    simp only [accept] at hAccept
    split at hAccept
    · rename_i hStatus
      cases hAccept
      exact setTimeToSampleParams_checked hChecked (Prod.ext hStatus rfl)
    · cases hAccept
  | compositionTimeToSample offset size =>
    simp only [accept] at hAccept
    split at hAccept
    · rename_i hStatus
      cases hAccept
      exact setCompositionTimeToSampleParams_checked hChecked (Prod.ext hStatus rfl)
    · cases hAccept
  | syncSample offset size =>
    simp only [accept] at hAccept
    split at hAccept
    · rename_i hStatus
      cases hAccept
      exact setSyncSampleParams_checked hChecked (Prod.ext hStatus rfl)
    · cases hAccept

end SampleTable

end FrameworksAv
