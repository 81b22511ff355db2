import FrameworksAv.NuCachedSource.Source

/-
  What the clients of a cached source read.

  A negative offset passes the last comparison of `readInternal` when the size reaches beyond the
  start, and the bytes are then looked for behind all pages. A result of 2 GiB or more does not
  survive its `int32_t`.

  Main declarations:
    * `Source2.Cached`, `Answer.Right`, `Source2.Inv`
    * `Request.Proper`
    * `Source2.Cached.readInternal`
    * `Source2.reads_source`
-/

--
-- The cache
--

namespace FrameworksAv

namespace NuCachedSource

variable {α : Type*}

theorem sizeT_of_nonneg {n : Int} (hNonneg : 0 ≤ n) (hLt : n < 2 ^ 64) : sizeT n = n.toNat := by
  unfold sizeT
  rw [Int.emod_eq_of_lt hNonneg hLt]

theorem sizeT_of_neg {n : Int} (hNeg : n < 0) (hGe : -2 ^ 64 ≤ n) :
    sizeT n = (n + 2 ^ 64).toNat := by
  unfold sizeT
  rw [← Int.add_emod_right, Int.emod_eq_of_lt] <;> omega

theorem int32_eq {n : Int} (hGe : -2 ^ 31 ≤ n) (hLt : n < 2 ^ 31) : int32 n = n := by
  unfold int32
  omega

theorem int32_natCast {n : Nat} (hLt : n < 2 ^ 31) : int32 n = n := by
  apply int32_eq
  · omega
  · omega

namespace Source2

variable {source : DataSource α} {s : Source2 α}

/- The pages are the bytes of the source from the offset on. -/
structure Cached (source : DataSource α) (s : Source2 α) : Prop where
  nonneg : 0 ≤ s.mCacheOffset
  small : s.mCacheOffset < 2 ^ 63
  holds : s.mCache.Holds ((source.bytes.drop s.mCacheOffset.toNat).take s.mCache.mTotalSize)

theorem Cached.length (h : Cached source s) :
    ((source.bytes.drop s.mCacheOffset.toNat).take s.mCache.mTotalSize).length =
      s.mCache.mTotalSize :=
  Eq.symm h.holds.size

theorem Cached.total_le (h : Cached source s) :
    s.mCache.mTotalSize ≤ source.bytes.length - s.mCacheOffset.toNat := by
  have hLength := h.length
  rw [List.length_take, List.length_drop] at hLength
  omega

theorem Cached.cacheEnd_lt (h : Cached source s) :
    s.mCacheOffset ≤ s.cacheEnd ∧ s.cacheEnd < 2 ^ 63 := by
  have hTotal := h.total_le
  have hNonneg := h.nonneg
  have hSmall := h.small
  have hSource := source.small
  unfold cacheEnd
  omega

/- Pages go from the start, and the end stays where it is. -/
theorem Cached.release (h : Cached source s) (maxBytes : Nat) :
    let r := s.mCache.releaseFromStart maxBytes
    let t :=
      { s with
        mCache := r.1
        mCacheOffset := s.mCacheOffset + r.2 }
    Cached source t ∧ t.cacheEnd = s.cacheEnd := by
  rcases h.holds.release maxBytes with ⟨hLe, hHolds⟩
  have hNonneg := h.nonneg
  have hEnd := h.cacheEnd_lt
  have hTotal :
      (s.mCache.releaseFromStart maxBytes).1.mTotalSize + (s.mCache.releaseFromStart maxBytes).2 =
        s.mCache.mTotalSize := by
    rw [h.length] at hLe
    rw [hHolds.size, List.length_drop, h.length]
    omega
  have hSame :
      s.mCacheOffset + ((s.mCache.releaseFromStart maxBytes).2 : Int) +
          ((s.mCache.releaseFromStart maxBytes).1.mTotalSize : Int) =
        s.cacheEnd := by
    unfold cacheEnd
    omega
  refine ⟨⟨?_, ?_, ?_⟩, hSame⟩
  · simp only
    omega
  · simp only
    omega
  · simp only
    rw [List.drop_take, List.drop_drop] at hHolds
    have hFrom :
        (s.mCacheOffset + ((s.mCache.releaseFromStart maxBytes).2 : Int) ).toNat =
          s.mCacheOffset.toNat + (s.mCache.releaseFromStart maxBytes).2 := by
      omega
    have hCount :
        s.mCache.mTotalSize - (s.mCache.releaseFromStart maxBytes).2 =
          (s.mCache.releaseFromStart maxBytes).1.mTotalSize := by
      omega
    rw [hFrom, ← hCount]
    rw [hCount] at hHolds ⊢
    exact hHolds

/- Restarting the prefetcher only moves the start of the cache and lets the looper fetch. -/
theorem Cached.restart (h : Cached source s) (ignoreLowWaterThreshold force : Bool) :
    ∃ mCache mCacheOffset mFetching,
      s.restartPrefetcherIfNecessary_l ignoreLowWaterThreshold force =
          { s with mCache, mCacheOffset, mFetching } ∧
        Cached source { s with mCache, mCacheOffset, mFetching } ∧
        mCacheOffset + mCache.mTotalSize = s.cacheEnd := by
  unfold restartPrefetcherIfNecessary_l
  split
  · exact ⟨_, _, _, rfl, h, rfl⟩
  · split
    · exact ⟨_, _, _, rfl, h, rfl⟩
    · simp only
      split
      · exact ⟨_, _, _, rfl, h, rfl⟩
      · rcases h.release
            (if force = true then sizeT (s.mLastAccessPos - s.mCacheOffset)
            else sizeT (s.mLastAccessPos - s.mCacheOffset) - kGrayArea) with
          ⟨hCached, hEnd⟩
        exact ⟨_, _, _, rfl, ⟨hCached.1, hCached.2, hCached.3⟩, hEnd⟩

/- A seek ends with the position in the cache or at its start. -/
theorem Cached.seek (h : Cached source s) {offset : Int} (hNonneg : 0 ≤ offset)
    (hSmall : offset < 2 ^ 63) :
    ∃ mCache mCacheOffset mLastAccessPos mNumRetriesLeft mFetching,
      s.seekInternal_l offset =
          some
            { s with
              mCache, mCacheOffset, mLastAccessPos, mNumRetriesLeft, mFetching } ∧
        Cached source
          { s with
            mCache, mCacheOffset, mLastAccessPos, mNumRetriesLeft, mFetching } ∧
        mCacheOffset ≤ offset := by
  unfold seekInternal_l
  by_cases hInside : s.mCacheOffset ≤ offset ∧ offset ≤ s.cacheEnd
  · rw [if_pos hInside]
    exact ⟨_, _, _, _, _, rfl, ⟨h.nonneg, h.small, h.holds⟩, hInside.1⟩
  · rw [if_neg hInside]
    simp only
    rw [h.holds.releaseAll, if_neg (not_not.mpr rfl)]
    refine ⟨_, _, _, _, _, rfl, ⟨hNonneg, hSmall, ?_⟩, Int.le_refl _⟩
    simp only [PageCache.empty, List.take_zero]
    exact PageCache.empty_holds

end Source2

--
-- Reads
--

/-
  A positive result counts bytes of the source from the offset on, and only after fetching has
  finally stopped a result is less than what was asked for.
-/
structure Answer.Right (source : DataSource α) (r : Request) (a : Answer α) : Prop where
  positive :
    0 < a.result →
      a.result ≤ r.size ∧ 0 ≤ r.offset ∧
        a.data = (source.bytes.drop r.offset.toNat).take a.result.toNat ∧
        (a.data.length : Int) = a.result
  short : a.result < r.size → a.stopped = true

/-
  The size is below 2 GiB, and the offset is not negative, or so far that the size does not reach
  the start.
-/
def Request.Proper (r : Request) : Prop :=
  r.size < 2 ^ 31 ∧ (0 ≤ r.offset ∨ r.offset + r.size < 0)

instance (r : Request) : Decidable r.Proper := by
  unfold Request.Proper
  infer_instance

namespace Source2

variable {source : DataSource α} {s : Source2 α}

/- What is cached is copied. -/
theorem Cached.copy (h : Cached source s) (offset : Int) (size : Nat)
    (hFrom : s.mCacheOffset ≤ offset) (hTo : offset + size ≤ s.cacheEnd) :
    s.mCache.copy (sizeT (offset - s.mCacheOffset)) size =
        some ((source.bytes.drop offset.toNat).take size) ∧
      ((source.bytes.drop offset.toNat).take size).length = size := by
  have hEnd := h.cacheEnd_lt
  have hNonneg := h.nonneg
  have hTotal := h.total_le
  have hSource := source.small
  unfold cacheEnd at hTo hEnd
  have hDelta : sizeT (offset - s.mCacheOffset) = offset.toNat - s.mCacheOffset.toNat := by
    rw [sizeT_of_nonneg (by omega) (by omega)]
    omega
  constructor
  · rw [hDelta, h.holds.copy]
    · rw [List.drop_take, List.drop_drop, List.take_take,
        Nat.add_sub_cancel' (by omega), Nat.min_eq_left]
      omega
    · rw [h.length]
      omega
    · rw [h.length]
      omega
  · rw [List.length_take, List.length_drop]
    omega

/- Bytes of the source are an answer. -/
theorem right_of_bytes {offset : Int} {count size : Nat} {stopped : Bool} (hStart : 0 ≤ offset)
    (hCount : count ≤ size) (hLength : ((source.bytes.drop offset.toNat).take count).length = count)
    (hShort : count < size → stopped = true) :
    Answer.Right source ⟨offset, size⟩
      ⟨count, (source.bytes.drop offset.toNat).take count, stopped⟩ := by
  constructor
  · intro _
    refine ⟨?_, hStart, ?_, ?_⟩
    · exact Int.ofNat_le.mpr hCount
    · simp only [Int.toNat_natCast]
    · simp only [hLength]
  · intro hLess
    apply hShort
    exact Int.ofNat_lt.mp hLess

/- A status code, of which 0 is no error. -/
def Status (n : Int) : Prop := -2 ^ 31 ≤ n ∧ n ≤ 0

theorem status_ok : Status OK :=
  ⟨by decide, Int.le_refl _⟩

theorem status_endOfStream : Status ERROR_END_OF_STREAM :=
  ⟨by decide, by decide⟩

theorem status_again : Status (-EAGAIN) :=
  ⟨by decide, by decide⟩

/- When fetching has stopped, what there is is served. -/
theorem Cached.serve_stopped (h : Cached source s) (hStatus : Status s.mFinalStatus) {r : Request}
    (hProper : r.Proper) (hGe : -2 ^ 63 ≤ r.offset) (hLt : r.offset < 2 ^ 63)
    (hFrom : s.mCacheOffset ≤ max r.offset 0) (hStopped : s.stopped = true) :
    ∃ a, s.serve r.offset r.size = some (s, a) ∧ a.Right source r ∧ int32 a.result = a.result := by
  rcases hProper with ⟨hSize, hOffset⟩
  rcases hStatus with ⟨hLow, hHigh⟩
  have hEnd := h.cacheEnd_lt
  have hNonneg := h.nonneg
  have hTotal := h.total_le
  have hSource := source.small
  unfold Source2.serve
  simp only
  rw [if_pos hStopped]
  by_cases hOut : s.mCache.mTotalSize ≤ sizeT (r.offset - s.mCacheOffset)
  · rw [if_pos hOut]
    refine ⟨_, rfl, ⟨?_, fun _ => rfl⟩, ?_⟩
    · intro hPos
      exact absurd hPos (Int.not_lt.mpr hHigh)
    · have hBelow : s.mFinalStatus < 2 ^ 31 := by omega
      exact int32_eq hLow hBelow
  rw [if_neg hOut]
  -- a negative offset is out of the cache
  have hStart : 0 ≤ r.offset := by
    by_contra hNeg
    apply hOut
    rw [sizeT_of_neg (by omega) (by omega)]
    omega
  have hDelta : sizeT (r.offset - s.mCacheOffset) = (r.offset - s.mCacheOffset).toNat :=
    sizeT_of_nonneg (by omega) (by omega)
  have hInside :
      r.offset + (min (s.mCache.mTotalSize - sizeT (r.offset - s.mCacheOffset)) r.size : Nat) ≤
        s.cacheEnd := by
    unfold cacheEnd
    omega
  rcases h.copy r.offset _ (by omega) hInside with ⟨hCopy, hLength⟩
  rw [hCopy, Option.map_some]
  refine ⟨_, rfl, ?_, ?_⟩
  · exact right_of_bytes hStart (Nat.min_le_right _ _) hLength (fun _ => rfl)
  · exact int32_natCast (by omega)

/- A read that the cache has is served from it. -/
theorem Cached.serve_fetching (h : Cached source s) {r : Request} (hProper : r.Proper)
    (hGe : -2 ^ 63 ≤ r.offset) (hLt : r.offset < 2 ^ 63) (hFrom : s.mCacheOffset ≤ max r.offset 0)
    (hFetching : s.stopped = false) :
    ∃ a,
      s.serve r.offset r.size = some (s, a) ∧
        (a.result = -EAGAIN ∨ a.Right source r ∧ int32 a.result = a.result) := by
  rcases hProper with ⟨hSize, hOffset⟩
  have hEnd := h.cacheEnd_lt
  have hNonneg := h.nonneg
  unfold Source2.serve
  simp only
  rw [if_neg (by rw [hFetching]; decide)]
  by_cases hHere : sizeT (r.offset + r.size) ≤ sizeT s.cacheEnd
  · rw [if_pos hHere]
    have hEndT : sizeT s.cacheEnd = s.cacheEnd.toNat := sizeT_of_nonneg (by omega) (by omega)
    rw [hEndT] at hHere
    -- a negative sum would be a huge one
    have hStart : 0 ≤ r.offset := by
      by_contra hNeg
      rw [sizeT_of_neg (by omega) (by omega)] at hHere
      omega
    rw [sizeT_of_nonneg (by omega) (by omega)] at hHere
    rcases h.copy r.offset r.size (by omega) (by omega) with ⟨hCopy, hLength⟩
    rw [hCopy, Option.map_some]
    refine ⟨_, rfl, Or.inr ⟨?_, ?_⟩⟩
    · exact
        right_of_bytes hStart (Nat.le_refl _) hLength (fun hLess => absurd hLess (Nat.lt_irrefl _))
    · exact int32_natCast hSize
  · rw [if_neg hHere]
    exact ⟨_, rfl, Or.inl rfl⟩

/- The fields that preparing a read may change. -/
def moved (s : Source2 α) (mCache : PageCache α) (mCacheOffset mLastAccessPos : Int)
    (mNumRetriesLeft : Nat) (mFetching : Bool) : Source2 α :=
  { s with
    mCache, mCacheOffset, mLastAccessPos, mNumRetriesLeft,
    mFetching }

/- A read is prepared by moving the cache in front of it. -/
theorem Cached.prepare (h : Cached source s) {offset : Int} (hLt : offset < 2 ^ 63) :
    ∃ mCache mCacheOffset mLastAccessPos mNumRetriesLeft mFetching,
      let t :=
        s.moved mCache mCacheOffset mLastAccessPos mNumRetriesLeft mFetching
      (s.prepareRead offset).seekIfNecessary offset = some t ∧ Cached source t ∧
        mCacheOffset ≤ max offset 0 := by
  have hPrepared :
      ∃ mCache mCacheOffset mLastAccessPos mFetching,
        let t := s.moved mCache mCacheOffset mLastAccessPos s.mNumRetriesLeft mFetching
        s.prepareRead offset = t ∧ Cached source t := by
    unfold prepareRead
    by_cases hFetching : s.mFetching = true
    · rw [if_pos hFetching]
      exact ⟨_, _, _, _, rfl, h⟩
    · rw [if_neg hFetching]
      have hAccess : Cached source { s with mLastAccessPos := offset } :=
        ⟨h.nonneg, h.small, h.holds⟩
      rcases hAccess.restart false true with ⟨mCache, mCacheOffset, mFetching, hEq, hCached, -⟩
      exact ⟨mCache, mCacheOffset, _, mFetching, hEq, hCached⟩
  rcases hPrepared with ⟨mCache, mCacheOffset, mLastAccessPos, mFetching, hEq, hCached⟩
  rw [hEq]
  unfold seekIfNecessary
  split
  · have hNonneg : 0 ≤ if kPadding < offset then offset - kPadding else 0 := by
      split <;> omega
    have hBound : (if kPadding < offset then offset - kPadding else 0) ≤ max offset 0 := by
      unfold kPadding
      split <;> omega
    rcases hCached.seek hNonneg (by omega) with ⟨c, o, l, n, f, hSeek, hMoved, hFrom⟩
    exact ⟨c, o, l, n, f, hSeek, hMoved, by omega⟩
  · rename_i hInside
    rw [not_or, Int.not_lt] at hInside
    refine ⟨_, _, _, _, _, rfl, hCached, ?_⟩
    have hLe := hInside.1
    simp only [moved] at hLe
    omega

/- What a read does, and what it answers. -/
theorem Cached.readInternal (h : Cached source s) (hStatus : Status s.mFinalStatus) {r : Request}
    (hProper : r.Proper) (hSize : r.size ≤ s.mHighwaterThresholdBytes) (hGe : -2 ^ 63 ≤ r.offset)
    (hLt : r.offset < 2 ^ 63) :
    ∃ mCache mCacheOffset mLastAccessPos mNumRetriesLeft mFetching a,
      let t :=
        s.moved mCache mCacheOffset mLastAccessPos mNumRetriesLeft mFetching
      s.readInternal r.offset r.size = some (t, a) ∧ Cached source t ∧
        (a.result = -EAGAIN ∨ a.Right source r ∧ int32 a.result = a.result) := by
  rcases h.prepare hLt with ⟨c, o, l, n, f, hEq, hCached, hFrom⟩
  unfold Source2.readInternal
  rw [if_neg (Nat.not_lt.mpr hSize), hEq, Option.bind_some]
  cases hStopped : (s.moved c o l n f).stopped with
  | true =>
    rcases hCached.serve_stopped hStatus hProper hGe hLt hFrom hStopped with ⟨a, hServe, hRight⟩
    exact ⟨c, o, l, n, f, a, hServe, hCached, Or.inr hRight⟩
  | false =>
    rcases hCached.serve_fetching hProper hGe hLt hFrom hStopped with ⟨a, hServe, hRight⟩
    exact ⟨c, o, l, n, f, a, hServe, hCached, hRight⟩

end Source2

--
-- Invariant
--

namespace Source2

/-
  The source is asked for what comes behind the cache, and the client that waits gets at most one
  answer, a right one.
-/
structure Inv (source : DataSource α) (s : Source2 α) : Prop where
  cached : Cached source s
  status : Status s.mFinalStatus
  starting : s.looper = .starting → s.mFinalStatus = OK ∨ 0 < s.mNumRetriesLeft
  reading : ∀ pos, s.looper = .reading pos → pos = s.cacheEnd
  free : s.request = none → s.posted = false
  answered :
    ∀ a, s.mAsyncResult = some a → s.posted = false ∧ ∃ r, s.request = some r ∧ a.Right source r
  waiting :
    ∀ r, s.request = some r →
      r.Proper ∧ r.size ≤ s.mHighwaterThresholdBytes ∧ -2 ^ 63 ≤ r.offset ∧ r.offset < 2 ^ 63
  returned : ∀ p ∈ s.returned, p.2.Right source p.1

variable {source : DataSource α} {s : Source2 α}

theorem create_inv (source : DataSource α) (high low : Nat) (keepAlive : Int) (disconnect : Bool) :
    Inv source (create α high low keepAlive disconnect) := by
  constructor
  · refine ⟨Int.le_refl _, Int.pow_pos (by decide), ?_⟩
    simp only [create, PageCache.empty, List.take_zero]
    exact PageCache.empty_holds
  · exact status_ok
  · rintro ⟨⟩
  · rintro _ ⟨⟩
  · exact fun _ => rfl
  · rintro _ ⟨⟩
  · rintro _ ⟨⟩
  · rintro _ ⟨⟩

/- Only the cache, its start and `mFetching` change. -/
theorem Inv.restart (h : Inv source s) (ignoreLowWaterThreshold force : Bool) :
    Inv source (s.restartPrefetcherIfNecessary_l ignoreLowWaterThreshold force) := by
  rcases h.cached.restart ignoreLowWaterThreshold force with
    ⟨mCache, mCacheOffset, mFetching, hEq, hCached, hEnd⟩
  rw [hEq]
  constructor
  · exact hCached
  · exact h.status
  · exact h.starting
  · intro pos hPos
    rw [h.reading pos hPos]
    exact Eq.symm hEnd
  · exact h.free
  · exact h.answered
  · exact h.waiting
  · exact h.returned

theorem Inv.readAt (h : Inv source s) {offset : Int} {size : Nat}
    (hProper : Request.Proper ⟨offset, size⟩) (hEnabled : s.Enabled source (.readAt offset size)) :
    ∃ t, s.readAt offset size = some t ∧ Inv source t := by
  rcases hEnabled with ⟨hNone, hSize, hGe, hLt⟩
  have hEnd := h.cached.cacheEnd_lt
  have hNonneg := h.cached.nonneg
  have hSmall := hProper.1
  simp only at hSmall
  have hNoResult : s.mAsyncResult = none := by
    cases hAsync : s.mAsyncResult with
    | none => rfl
    | some a =>
      rcases (h.answered a hAsync).2 with ⟨r, hRequest, -⟩
      rw [hNone] at hRequest
      cases hRequest
  unfold Source2.readAt
  by_cases hHere : s.mCacheOffset ≤ offset ∧ sizeT (offset + size) ≤ sizeT s.cacheEnd
  · rw [if_pos hHere]
    rcases hHere with ⟨hFrom, hTo⟩
    have hEndT : sizeT s.cacheEnd = s.cacheEnd.toNat := sizeT_of_nonneg (by omega) (by omega)
    rw [hEndT, sizeT_of_nonneg (by omega) (by omega)] at hTo
    rcases h.cached.copy offset size hFrom (by omega) with ⟨hCopy, hLength⟩
    rw [hCopy, Option.map_some]
    refine ⟨_, rfl, ?_⟩
    constructor
    · exact ⟨h.cached.nonneg, h.cached.small, h.cached.holds⟩
    · exact h.status
    · exact h.starting
    · exact h.reading
    · exact h.free
    · exact h.answered
    · exact h.waiting
    · intro p hp
      rcases List.mem_append.mp hp with hOld | hNew
      · exact h.returned p hOld
      · rw [List.mem_singleton.mp hNew]
        exact
          right_of_bytes (by omega) (Nat.le_refl _) hLength
            (fun hLess => absurd hLess (Nat.lt_irrefl _))
  · rw [if_neg hHere, if_neg (by rw [hNoResult]; rintro ⟨⟩)]
    refine ⟨_, rfl, ?_⟩
    constructor
    · exact ⟨h.cached.nonneg, h.cached.small, h.cached.holds⟩
    · exact h.status
    · exact h.starting
    · exact h.reading
    · rintro ⟨⟩
    · intro a hAsync
      exact absurd (hNoResult.symm.trans hAsync) (by rintro ⟨⟩)
    · intro r hr
      cases hr
      exact ⟨hProper, hSize, hGe, hLt⟩
    · exact h.returned

theorem Inv.wake (h : Inv source s) : ∃ t, s.wake = some t ∧ Inv source t := by
  cases hAsync : s.mAsyncResult with
  | none =>
    refine ⟨s, ?_, h⟩
    unfold Source2.wake
    rw [hAsync]
    cases s.request <;> rfl
  | some a =>
    rcases h.answered a hAsync with ⟨hPosted, r, hRequest, hRight⟩
    unfold Source2.wake
    rw [hAsync, hRequest]
    refine ⟨_, rfl, ?_⟩
    constructor
    · exact ⟨h.cached.nonneg, h.cached.small, h.cached.holds⟩
    · exact h.status
    · exact h.starting
    · exact h.reading
    · exact fun _ => hPosted
    · rintro _ ⟨⟩
    · rintro _ ⟨⟩
    · intro p hp
      rcases List.mem_append.mp hp with hOld | hNew
      · exact h.returned p hOld
      · rw [List.mem_singleton.mp hNew]
        exact hRight

theorem Inv.onRead (h : Inv source s) (hEnabled : s.Enabled source .onRead) :
    ∃ t, s.onRead = some t ∧ Inv source t := by
  rcases hEnabled with ⟨hIdle, hPosted⟩
  have hNoResult : s.mAsyncResult = none := by
    cases hAsync : s.mAsyncResult with
    | none => rfl
    | some a =>
      have hNot := (h.answered a hAsync).1
      rw [hPosted] at hNot
      cases hNot
  unfold Source2.onRead
  cases hRequest : s.request with
  | none =>
    have hNot := h.free hRequest
    rw [hPosted] at hNot
    cases hNot
  | some r =>
  rcases h.waiting r hRequest with ⟨hProper, hSize, hGe, hLt⟩
  rcases h.cached.readInternal h.status hProper hSize hGe hLt
    with ⟨c, o, l, n, f, a, hRead, hCached, hAnswer⟩
  have hBusy : ∀ {looper}, s.looper = looper → looper = .idle :=
    fun hLooper => hLooper.symm.trans hIdle
  simp only
  rw [hRead, Option.bind_some]
  by_cases hAgain : a.result = -EAGAIN
  · rw [if_pos hAgain]
    refine ⟨_, rfl, ?_⟩
    constructor
    · exact hCached
    · exact h.status
    · exact fun hLooper => absurd (hBusy hLooper) (by rintro ⟨⟩)
    · exact fun pos hLooper => absurd (hBusy hLooper) (by rintro ⟨⟩)
    · exact h.free
    · exact h.answered
    · exact h.waiting
    · exact h.returned
  · rw [if_neg hAgain, if_neg (by simp only [moved, hNoResult]; rintro ⟨⟩)]
    rcases hAnswer with hNot | ⟨hRight, hResult⟩
    · exact absurd hNot hAgain
    refine ⟨_, rfl, ?_⟩
    constructor
    · exact ⟨hCached.nonneg, hCached.small, hCached.holds⟩
    · exact h.status
    · exact fun hLooper => absurd (hBusy hLooper) (by rintro ⟨⟩)
    · exact fun pos hLooper => absurd (hBusy hLooper) (by rintro ⟨⟩)
    · exact fun _ => rfl
    · intro a' hAsync
      simp only [Option.some.injEq] at hAsync
      refine ⟨rfl, r, hRequest, ?_⟩
      rw [← hAsync, hResult]
      exact hRight
    · exact h.waiting
    · exact h.returned

theorem Inv.onFetch (h : Inv source s) (keepAliveDue : Bool) :
    Inv source (s.onFetch keepAliveDue) := by
  have hStop : ∀ fetching, Inv source { s with mFetching := fetching } :=
    fun fetching =>
      { h with
        cached := ⟨h.cached.nonneg, h.cached.small, h.cached.holds⟩ }
  have hStart :
      ∀ fetching,
        (s.mFinalStatus = OK ∨ 0 < s.mNumRetriesLeft) →
          Inv source { s with mFetching := fetching, looper := .starting } :=
    fun fetching hFine =>
      { hStop fetching with
        cached := ⟨h.cached.nonneg, h.cached.small, h.cached.holds⟩
        starting := fun _ => hFine
        reading := by rintro _ ⟨⟩ }
  unfold Source2.onFetch
  by_cases hStopped : s.stopped = true
  · have hError : s.mFinalStatus ≠ OK := by
      unfold stopped at hStopped
      rw [Bool.and_eq_true, decide_eq_true_eq] at hStopped
      exact hStopped.1
    simp only [if_pos hStopped, hError, decide_false, Bool.and_false, Bool.false_and, Bool.or_false,
      Bool.false_eq_true, if_false]
    exact (hStop false).restart false false
  · have hFine : s.mFinalStatus = OK ∨ 0 < s.mNumRetriesLeft := by
      unfold stopped at hStopped
      rw [Bool.and_eq_true, decide_eq_true_eq, decide_eq_true_eq, not_and_or, not_not] at hStopped
      exact hStopped.imp_right Nat.pos_of_ne_zero
    simp only [if_neg hStopped]
    split
    · exact hStart s.mFetching hFine
    · exact h.restart false false

theorem Inv.fetchInternal (h : Inv source s) (hEnabled : s.looper = .starting) :
    ∃ t, s.fetchInternal = some t ∧ Inv source t := by
  have hFine := h.starting hEnabled
  have hCached : ∀ retries looper, Cached source { s with mNumRetriesLeft := retries, looper } :=
    fun _ _ => ⟨h.cached.nonneg, h.cached.small, h.cached.holds⟩
  unfold Source2.fetchInternal
  rw [if_neg (not_not.mpr hFine)]
  split
  · refine ⟨_, rfl, ?_⟩
    exact
      { h with
        cached := hCached _ _
        starting := by rintro ⟨⟩
        reading := by rintro _ ⟨⟩ }
  · refine ⟨_, rfl, ?_⟩
    exact
      { h with
        cached := hCached s.mNumRetriesLeft _
        starting := by rintro ⟨⟩
        reading := by rintro _ ⟨⟩ }

theorem Inv.reconnected (h : Inv source s) (err : Int) : Inv source (s.reconnected err) := by
  have hNext :
      ∀ retries looper, looper = .fetched ∨ looper = .acquired →
        Inv source { s with mNumRetriesLeft := retries, looper } := by
    intro retries looper hLooper
    refine
      { h with
        cached := ⟨h.cached.nonneg, h.cached.small, h.cached.holds⟩
        starting := ?_
        reading := ?_ }
    · intro hStarting
      simp only at hStarting
      rw [hStarting] at hLooper
      rcases hLooper with hNot | hNot <;> cases hNot
    · intro pos hReading
      simp only at hReading
      rw [hReading] at hLooper
      rcases hLooper with hNot | hNot <;> cases hNot
  unfold Source2.reconnected
  split
  · exact hNext 0 _ (Or.inl rfl)
  · split
    · exact hNext s.mNumRetriesLeft _ (Or.inl rfl)
    · exact hNext s.mNumRetriesLeft _ (Or.inr rfl)

theorem Inv.askSource (h : Inv source s) : Inv source s.askSource :=
  { h with
    cached := ⟨h.cached.nonneg, h.cached.small, h.cached.holds⟩
    starting := by rintro ⟨⟩
    reading := by
      intro pos hPos
      cases hPos
      rfl }

/- What was read comes behind the cache. -/
theorem Cached.append (h : Cached source s) {n : Int} (hPos : 0 < n)
    (hFit : s.cacheEnd + n ≤ source.bytes.length) :
    Cached source
      { s with
        mCache := s.mCache.appendPage ((source.bytes.drop s.cacheEnd.toNat).take n.toNat) } := by
  have hNonneg := h.nonneg
  have hFrom := h.cacheEnd_lt.1
  have hEnd : s.cacheEnd.toNat = s.mCacheOffset.toNat + s.mCache.mTotalSize := by
    unfold cacheEnd
    omega
  have hLength : ((source.bytes.drop s.cacheEnd.toNat).take n.toNat).length = n.toNat := by
    rw [List.length_take, List.length_drop]
    omega
  refine ⟨h.nonneg, h.small, ?_⟩
  have hPage : (source.bytes.drop s.cacheEnd.toNat).take n.toNat ≠ [] := by
    apply List.length_pos_iff.mp
    omega
  have hAppend := h.holds.append hPage
  simp only [PageCache.appendPage, hLength] at hAppend ⊢
  rw [List.take_add, List.drop_drop, ← hEnd]
  exact hAppend

theorem Inv.readSource (h : Inv source s) {n : Int} (hEnabled : s.Enabled source (.readSource n)) :
    ∃ t, s.step source (.readSource n) = some t ∧ Inv source t := by
  unfold Enabled at hEnabled
  unfold Source2.step
  cases hLooper : s.looper with
  | reading pos =>
    rw [hLooper] at hEnabled
    rcases hEnabled with ⟨hGe, -, hFit⟩
    have hPos := h.reading pos hLooper
    refine ⟨_, rfl, ?_⟩
    unfold Source2.readSource
    split
    · exact
        { h with
          cached := ⟨h.cached.nonneg, h.cached.small, h.cached.holds⟩
          status := status_endOfStream
          starting := by rintro ⟨⟩
          reading := by rintro _ ⟨⟩ }
    · split
      · rename_i hNeg
        exact
          { h with
            cached := ⟨h.cached.nonneg, h.cached.small, h.cached.holds⟩
            status := ⟨hGe, Int.le_of_lt hNeg⟩
            starting := by rintro ⟨⟩
            reading := by rintro _ ⟨⟩ }
      · have hMore : 0 < n := by omega
        rw [hPos] at hFit ⊢
        have hNew := h.cached.append hMore (hFit hMore)
        exact
          { h with
            cached := ⟨hNew.nonneg, hNew.small, hNew.holds⟩
            status := status_ok
            starting := by rintro ⟨⟩
            reading := by rintro _ ⟨⟩ }
  | idle =>
    rw [hLooper] at hEnabled
    exact absurd hEnabled id
  | starting =>
    rw [hLooper] at hEnabled
    exact absurd hEnabled id
  | reconnecting =>
    rw [hLooper] at hEnabled
    exact absurd hEnabled id
  | acquired =>
    rw [hLooper] at hEnabled
    exact absurd hEnabled id
  | fetched =>
    rw [hLooper] at hEnabled
    exact absurd hEnabled id

theorem Inv.fetched (h : Inv source s) : Inv source (s.fetched source) := by
  have hCached :
      ∀ fetching status,
        Cached source
          { s with
            mFetching := fetching
            mFinalStatus := status
            looper := .idle } :=
    fun _ _ => ⟨h.cached.nonneg, h.cached.small, h.cached.holds⟩
  unfold Source2.fetched
  split
  · refine
      { h with
        cached := hCached _ _
        status := ?_
        starting := by rintro ⟨⟩
        reading := by rintro _ ⟨⟩ }
    simp only
    split
    · exact status_again
    · exact h.status
  · exact
      { h with
        cached := hCached s.mFetching s.mFinalStatus
        starting := by rintro ⟨⟩
        reading := by rintro _ ⟨⟩ }

end Source2

--
-- Runs
--

def Action.Proper : Action → Prop
| .readAt offset size => Request.Proper ⟨offset, size⟩
| _ => True

instance : (action : Action) → Decidable action.Proper
| .readAt offset size => inferInstanceAs (Decidable (Request.Proper ⟨offset, size⟩))
| .wake | .resumeFetchingIfNecessary | .onRead | .onFetch _ | .fetchInternal | .reconnected _
| .askSource | .readSource _ | .fetched => inferInstanceAs (Decidable True)

namespace Source2

variable {source : DataSource α} {s : Source2 α}

/- The actions that may be taken with a proper request. -/
def Allowed (source : DataSource α) (s : Source2 α) (action : Action) : Prop :=
  s.Enabled source action ∧ action.Proper

instance (source : DataSource α) (action : Action) : Decidable (s.Allowed source action) := by
  unfold Allowed
  infer_instance

theorem Inv.step (h : Inv source s) {action : Action} (hAllowed : s.Allowed source action) :
    ∃ t, s.step source action = some t ∧ Inv source t := by
  rcases hAllowed with ⟨hEnabled, hProper⟩
  cases action with
  | readAt offset size => exact h.readAt hProper hEnabled
  | wake => exact h.wake
  | resumeFetchingIfNecessary => exact ⟨_, rfl, h.restart true false⟩
  | onRead => exact h.onRead hEnabled
  | onFetch keepAliveDue => exact ⟨_, rfl, h.onFetch keepAliveDue⟩
  | fetchInternal => exact h.fetchInternal hEnabled
  | reconnected err => exact ⟨_, rfl, h.reconnected err⟩
  | askSource => exact ⟨_, rfl, h.askSource⟩
  | readSource n => exact h.readSource hEnabled
  | fetched => exact ⟨_, rfl, h.fetched⟩

/-
  In every run whose requests are proper, the pages hold the bytes of the source from the offset on,
  every read has returned such bytes, fewer than asked for only after fetching had stopped, and no
  allowed action fails.
-/
theorem reads_source {α : Type*} {source : DataSource α} {high low : Nat} {keepAlive : Int}
    {disconnect : Bool} {actions : List Action} {s : Source2 α}
    (hRun :
      Run.exec (Run.guarded (Allowed source) (step source))
          (create α high low keepAlive disconnect) actions =
        some s) :
    s.mCache.mActivePages.flatten =
        (source.bytes.drop s.mCacheOffset.toNat).take s.mCache.mTotalSize ∧
      s.mCache.mActivePages.flatten.length = s.mCache.mTotalSize ∧ 0 ≤ s.mCacheOffset ∧
      (∀ p ∈ s.returned, p.2.Right source p.1) ∧
      ∀ action, s.Allowed source action → ∃ t, s.step source action = some t := by
  have hInv : Inv source s := by
    apply Run.exec_invariant ?_ hRun (create_inv _ _ _ _ _)
    intro t action u h hStep
    rcases Run.guarded_eq_some.mp hStep with ⟨hAllowed, hNext⟩
    rcases h.step hAllowed with ⟨v, hEq, hInv⟩
    rw [hEq, Option.some.injEq] at hNext
    rw [← hNext]
    exact hInv
  have hHolds := hInv.cached.holds
  refine ⟨hHolds.pages, ?_, hInv.cached.nonneg, hInv.returned, ?_⟩
  · rw [hHolds.pages]
    exact hInv.cached.length
  · intro action hAllowed
    rcases hInv.step hAllowed with ⟨t, hStep, -⟩
    exact ⟨t, hStep⟩

/- A source of three bytes. -/
def threeBytes : DataSource Nat :=
  { bytes := [10, 20, 30]
    small := by decide
    isHTTPBased := false }

/- One fetch, and a read of the last two bytes. -/
theorem threeBytes_read :
    ∃ s : Source2 Nat,
      Run.exec (Run.guarded (Allowed threeBytes) (step threeBytes)) (create Nat 100 10 0 false)
          [.onFetch false, .fetchInternal, .askSource, .readSource 3, .readAt 1 2] =
        some s ∧ s.returned ≠ [] ∧ ∀ p ∈ s.returned, p.2.Right threeBytes p.1 := by
  have hSome :
      (Run.exec (Run.guarded (Allowed threeBytes) (step threeBytes)) (create Nat 100 10 0 false)
            [.onFetch false, .fetchInternal, .askSource, .readSource 3, .readAt 1 2]).any
          (fun s => ! s.returned.isEmpty) =
        true := by
    decide +kernel
  rcases (Option.any_eq_true _ _).mp hSome with ⟨s, hRun, hMore⟩
  refine ⟨s, hRun, ?_, (reads_source hRun).2.2.2.1⟩
  simpa using hMore

/- One byte in front of the start: the read is served at once, from behind all pages. -/
theorem threeBytes_outside :
    ∃ s : Source2 Nat,
      Run.exec (Run.guarded (fun s a => Enabled s threeBytes a) (step threeBytes))
          (create Nat 100 10 0 false) [.readAt (-1) 1] =
        some s ∧ s.Enabled threeBytes .onRead ∧ s.step threeBytes .onRead = none := by
  have hSome :
      (Run.exec (Run.guarded (fun s a => Enabled s threeBytes a) (step threeBytes))
            (create Nat 100 10 0 false) [.readAt (-1) 1]).any
          (fun s =>
            decide (s.Enabled threeBytes .onRead) && (s.step threeBytes .onRead).isNone) =
        true := by
    decide +kernel
  rcases (Option.any_eq_true _ _).mp hSome with ⟨s, hRun, hBoth⟩
  rw [Bool.and_eq_true, decide_eq_true_eq, Option.isNone_iff_eq_none] at hBoth
  exact ⟨s, hRun, hBoth⟩

end Source2

end NuCachedSource

end FrameworksAv
