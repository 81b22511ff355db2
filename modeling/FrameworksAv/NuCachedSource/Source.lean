import FrameworksAv.Base.Run
import FrameworksAv.NuCachedSource.PageCache

/-
  `NuCachedSource2` (media/libstagefright/NuCachedSource2.cpp): a source behind a cache that its
  looper thread fills.

  A step is what one thread does between two moments at which another thread may take the lock.
  Sizes are `size_t` of 64 bits, and `none` stands for a failed `CHECK` or an access outside the
  list of pages. `disconnect` is left out.

  Main declarations:
    * `DataSource`, `Source2`
    * `Source2.readInternal`, `Source2.readAt`
    * `Action`, `Source2.Enabled`, `Source2.step`
-/

--
-- States
--

namespace FrameworksAv

namespace NuCachedSource

variable {α : Type*}

/- A number converted to `size_t`. -/
def sizeT (n : Int) : Nat := (n % 2 ^ 64).toNat

/- A number converted to `int32_t`. -/
def int32 (n : Int) : Int := (n + 2 ^ 31) % 2 ^ 32 - 2 ^ 31

def OK : Int := 0
def EAGAIN : Int := 11
def EPIPE : Int := 32
def ERROR_UNSUPPORTED : Int := -1010
def ERROR_END_OF_STREAM : Int := -1011

def kPageSize : Nat := 65536
def kMaxNumRetries : Nat := 10
def kGrayArea : Nat := 1024 * 1024
def kPadding : Int := 256 * 1024

/- The underlying source, whose size is an `off64_t`. -/
structure DataSource (α : Type*) where
  bytes : List α
  small : bytes.length < 2 ^ 63
  isHTTPBased : Bool

/- Where the looper thread is. -/
inductive Looper
| idle
| starting              -- in front of the lock of `fetchInternal`
| reconnecting
| acquired              -- with a page to be read
| reading (pos : Int)   -- without the lock
| fetched               -- back in `onFetch`
deriving DecidableEq

/-
  What a read results in, what it copied, and whether fetching had finally stopped then (which the
  code never reads back).
-/
structure Answer (α : Type*) where
  result : Int
  data : List α
  stopped : Bool

structure Request where
  offset : Int
  size : Nat

/-
  `request` is that of the client which waits in `readAt`, and `posted` says that its message is
  still to be handled. All results so far are in `returned`.
-/
structure Source2 (α : Type*) where
  mCache : PageCache α
  mCacheOffset : Int
  mFinalStatus : Int
  mLastAccessPos : Int
  mAsyncResult : Option (Answer α)
  mFetching : Bool
  mNumRetriesLeft : Nat
  mHighwaterThresholdBytes : Nat
  mLowwaterThresholdBytes : Nat
  mKeepAliveIntervalUs : Int
  mDisconnectAtHighwatermark : Bool
  looper : Looper
  request : Option Request
  posted : Bool
  returned : List (Request × Answer α)

namespace Source2

def create (α : Type*) (mHighwaterThresholdBytes mLowwaterThresholdBytes : Nat)
    (mKeepAliveIntervalUs : Int) (mDisconnectAtHighwatermark : Bool) : Source2 α :=
  { mCache := .empty
    mCacheOffset := 0
    mFinalStatus := OK
    mLastAccessPos := 0
    mAsyncResult := none
    mFetching := true
    mNumRetriesLeft := kMaxNumRetries
    mHighwaterThresholdBytes
    mLowwaterThresholdBytes
    -- it makes no sense to disconnect and do keep-alives
    mKeepAliveIntervalUs := if mDisconnectAtHighwatermark then 0
      else mKeepAliveIntervalUs
    mDisconnectAtHighwatermark
    looper := .idle
    request := none
    posted := false
    returned := [] }

--
-- Functions
--

variable (s : Source2 α)

def cacheEnd : Int := s.mCacheOffset + s.mCache.mTotalSize

/- An error or the end, and no retry is left. -/
def stopped : Bool :=
  decide (s.mFinalStatus ≠ OK) && decide (s.mNumRetriesLeft = 0)

def restartPrefetcherIfNecessary_l (ignoreLowWaterThreshold force : Bool) : Source2 α :=
  if s.mFetching = true ∨ s.stopped = true then s
  else if
      ignoreLowWaterThreshold = false ∧ force = false ∧
        s.mLowwaterThresholdBytes ≤ sizeT (s.cacheEnd - s.mLastAccessPos) then
    s
  else
    let maxBytes := sizeT (s.mLastAccessPos - s.mCacheOffset)
    if force = false ∧ maxBytes < kGrayArea then s
    else
      let r := s.mCache.releaseFromStart (if force then maxBytes else maxBytes - kGrayArea)
      { s with
        mCache := r.1
        mCacheOffset := s.mCacheOffset + r.2
        mFetching := true }

def resumeFetchingIfNecessary : Source2 α :=
  s.restartPrefetcherIfNecessary_l true false

def seekInternal_l (offset : Int) : Option (Source2 α) :=
  if s.mCacheOffset ≤ offset ∧ offset ≤ s.cacheEnd then some { s with mLastAccessPos := offset }
  else
    let r := s.mCache.releaseFromStart s.mCache.mTotalSize
    if r.2 ≠ s.mCache.mTotalSize then none
    else
      some
        { s with
          mLastAccessPos := offset
          mCacheOffset := offset
          mCache := r.1
          mNumRetriesLeft := kMaxNumRetries
          mFetching := true }

/- The prefetcher is restarted for a read it would not serve. -/
def prepareRead (offset : Int) : Source2 α :=
  if s.mFetching then s
  else
    { s with mLastAccessPos := offset
      }.restartPrefetcherIfNecessary_l false true

/- A read outside the cache moves the cache. -/
def seekIfNecessary (offset : Int) : Option (Source2 α) :=
  if offset < s.mCacheOffset ∨ s.cacheEnd ≤ offset then
    s.seekInternal_l (if kPadding < offset then offset - kPadding else 0)
  else some s

/- The part of `readInternal` that serves the read. -/
def serve (offset : Int) (size : Nat) : Option (Source2 α × Answer α) :=
  let delta := sizeT (offset - s.mCacheOffset)
  if s.stopped then if s.mCache.mTotalSize ≤ delta then some (s, ⟨s.mFinalStatus, [], true⟩)
    else
      let avail := min (s.mCache.mTotalSize - delta) size
      (s.mCache.copy delta avail).map (fun data =>
        (s, ⟨avail, data, true⟩))
  else if sizeT (offset + size) ≤ sizeT s.cacheEnd then
    (s.mCache.copy delta size).map (fun data =>
      (s, ⟨size, data, false⟩))
  else some (s, ⟨-EAGAIN, [], false⟩)

def readInternal (offset : Int) (size : Nat) : Option (Source2 α × Answer α) :=
  if s.mHighwaterThresholdBytes < size then none
  else ((s.prepareRead offset).seekIfNecessary offset).bind (fun s => s.serve offset size)

end Source2

--
-- Steps
--

inductive Action
-- of a client
| readAt (offset : Int) (size : Nat)
| wake
| resumeFetchingIfNecessary
-- of the looper
| onRead
| onFetch (keepAliveDue : Bool)
| fetchInternal
| reconnected (err : Int)
| askSource
| readSource (n : Int)
| fetched

namespace Source2

variable (s : Source2 α)

/- A client takes what the cache has, or posts a message and waits. -/
def readAt (offset : Int) (size : Nat) : Option (Source2 α) :=
  if s.mCacheOffset ≤ offset ∧ sizeT (offset + size) ≤ sizeT s.cacheEnd then
    (s.mCache.copy (sizeT (offset - s.mCacheOffset)) size).map
      (fun data =>
        { s with
          mLastAccessPos := offset + size
          returned := s.returned ++ [(⟨offset, size⟩, ⟨size, data, s.stopped⟩)] })
  else if s.mAsyncResult.isSome then none
  else
    some
      { s with
        request := some ⟨offset, size⟩
        posted := true }

/- The waiting client returns. -/
def wake : Option (Source2 α) :=
  match s.request, s.mAsyncResult with
  | some r, some a =>
    some
      { s with
        mAsyncResult := none
        request := none
        mLastAccessPos := if 0 < a.result then r.offset + a.result
          else s.mLastAccessPos
        returned := s.returned ++ [(r, a)] }
  | _, _ => some s

/- The result is stored as an `int32_t`. -/
def onRead : Option (Source2 α) :=
  match s.request with
  | none => some s
  | some r =>
    (s.readInternal r.offset r.size).bind (fun p =>
      if p.2.result = -EAGAIN then some p.1
      else if p.1.mAsyncResult.isSome then none
      else
        some
          { p.1 with
            posted := false
            mAsyncResult := some { p.2 with result := int32 p.2.result } })

/- `keepAliveDue` says that the interval is over. -/
def onFetch (keepAliveDue : Bool) : Source2 α :=
  let s := if s.stopped then { s with mFetching := false } else s
  let keepAlive :=
    ! s.mFetching && decide (s.mFinalStatus = OK) &&
      decide (0 < s.mKeepAliveIntervalUs) && keepAliveDue
  if s.mFetching || keepAlive then { s with looper := .starting }
  else s.restartPrefetcherIfNecessary_l false false

def fetchInternal : Option (Source2 α) :=
  if ¬ (s.mFinalStatus = OK ∨ 0 < s.mNumRetriesLeft) then none
  else if s.mFinalStatus ≠ OK then
    some
      { s with
        mNumRetriesLeft := s.mNumRetriesLeft - 1
        looper := .reconnecting }
  else some { s with looper := .acquired }

/- Some errors are not likely to go away. -/
def reconnected (err : Int) : Source2 α :=
  if err = ERROR_UNSUPPORTED ∨ err = -EPIPE then { s with mNumRetriesLeft := 0, looper := .fetched }
  else if err ≠ OK then { s with looper := .fetched }
  else { s with looper := .acquired }

def askSource : Source2 α :=
  { s with looper := .reading s.cacheEnd }

/- What the source returned, with the lock held again. -/
def readSource (source : DataSource α) (pos n : Int) : Source2 α :=
  if n = 0 then
    { s with
      mNumRetriesLeft := 0
      mFinalStatus := ERROR_END_OF_STREAM
      looper := .fetched }
  else if n < 0 then
    { s with
      mFinalStatus := n
      mNumRetriesLeft := if n = ERROR_UNSUPPORTED ∨ n = -EPIPE then 0
        else s.mNumRetriesLeft
      looper := .fetched }
  else
    { s with
      mNumRetriesLeft := kMaxNumRetries
      mFinalStatus := OK
      mCache := s.mCache.appendPage ((source.bytes.drop pos.toNat).take n.toNat)
      looper := .fetched }

def fetched (source : DataSource α) : Source2 α :=
  if s.mFetching = true ∧ s.mHighwaterThresholdBytes ≤ s.mCache.mTotalSize then
    { s with
      mFetching := false
      mFinalStatus := if s.mDisconnectAtHighwatermark && source.isHTTPBased
        then -EAGAIN else s.mFinalStatus
      looper := .idle }
  else { s with looper := .idle }

/- What the source may return: at most a page of its bytes, or an error of type `status_t`. -/
def Returns (source : DataSource α) (n : Int) : Looper → Prop
| .reading pos => -2 ^ 31 ≤ n ∧ n ≤ kPageSize ∧ (0 < n → pos + n ≤ source.bytes.length)
| _ => False

instance (source : DataSource α) (n : Int) (looper : Looper) :
    Decidable (Returns source n looper) := by
  cases looper <;> unfold Returns <;> infer_instance

/- When an action may be taken.  One client reads at a time. -/
def Enabled (source : DataSource α) : Action → Prop
| .readAt offset size =>
  s.request = none ∧ size ≤ s.mHighwaterThresholdBytes ∧ -2 ^ 63 ≤ offset ∧ offset < 2 ^ 63
| .wake => s.mAsyncResult.isSome = true
| .resumeFetchingIfNecessary => True
| .onRead => s.looper = .idle ∧ s.posted = true
| .onFetch _ => s.looper = .idle
| .fetchInternal => s.looper = .starting
| .reconnected _ => s.looper = .reconnecting
| .askSource => s.looper = .acquired
| .readSource n => Returns source n s.looper
| .fetched => s.looper = .fetched

instance (source : DataSource α) (action : Action) : Decidable (s.Enabled source action) := by
  cases action <;> unfold Enabled <;> infer_instance

def step (source : DataSource α) (s : Source2 α) : Action → Option (Source2 α)
| .readAt offset size => s.readAt offset size
| .wake => s.wake
| .resumeFetchingIfNecessary => some s.resumeFetchingIfNecessary
| .onRead => s.onRead
| .onFetch keepAliveDue => some (s.onFetch keepAliveDue)
| .fetchInternal => s.fetchInternal
| .reconnected err => some (s.reconnected err)
| .askSource => some s.askSource
| .readSource n =>
  match s.looper with
  | .reading pos => some (s.readSource source pos n)
  | _ => some s
| .fetched => some (s.fetched source)

end Source2

end NuCachedSource

end FrameworksAv
