import FrameworksAv.Base.Run
import Mathlib.Data.List.Infix

/-
  Copying and converting frames between two providers (`CopyBufferProvider`).

  A buffer is its frames and their number: a pointer is the memory it points to. `convert` is what
  `copyFrames` of the derived class does to one frame. The provider further up answers a call with a
  status and some frames; what is said between the two providers, and between the provider and its
  consumer, is kept in a log.

  Main declarations:
    * `CopyBufferProvider.getNextBuffer`
    * `CopyBufferProvider.releaseBuffer`
    * `Ledger`, `Lawful`
    * `CopyBufferProvider.transparent`
-/

--
-- Buffers
--

namespace FrameworksAv

namespace BufferProviders

def OK : Int := 0

/- `AudioBufferProvider::Buffer`. -/
structure Buffer (α : Type*) where
  raw : Option (List α)
  frameCount : Nat

/- What the upstream provider answers. -/
structure Answer (α : Type*) where
  status : Int
  frames : List α

namespace Answer

variable {α : Type*}

def buffer (a : Answer α) : Buffer α where
  raw := if a.status = OK then some a.frames else none
  frameCount := a.frames.length

/-
  The contract of `AudioBufferProvider`: some frames and no more than asked for, or an error and no
  frames.
-/
def Proper (a : Answer α) (frameCount : Nat) : Prop :=
  if a.status = OK then 0 < a.frames.length ∧ a.frames.length ≤ frameCount
  else a.frames.length = 0

instance (a : Answer α) (frameCount : Nat) : Decidable (a.Proper frameCount) :=
  inferInstanceAs
    (Decidable
      (if a.status = OK then 0 < a.frames.length ∧ a.frames.length ≤ frameCount
      else a.frames.length = 0))

end Answer

/-
  What passes between the providers and the consumer: a buffer obtained upstream, an error from
  there, frames offered to the consumer on its request, frames that it released, a call of
  `releaseBuffer` upstream, `reset`.
-/
inductive Event (α β : Type*) where
| obtained (frames : List α)
| refused (status : Int)
| offered (frameCount : Nat) (frames : List β)
| delivered (frames : List β)
| released (frameCount : Nat)
| reset

--
-- The Provider
--

/- The fields that the calls use, and the log of the calls. -/
structure CopyBufferProvider (α β : Type*) where
  mBuffer : Buffer α
  mLocalBufferFrameCount : Nat
  mLocalBufferData : List β
  mConsumed : Nat
  log : List (Event α β)

namespace CopyBufferProvider

variable {α β : Type*}
variable (convert : α → β)

/- A new provider; its local buffer is not initialized. -/
def init (mLocalBufferFrameCount : Nat) (mLocalBufferData : List β) : CopyBufferProvider α β where
  mBuffer := ⟨none, 0⟩
  mLocalBufferFrameCount := mLocalBufferFrameCount
  mLocalBufferData := mLocalBufferData
  mConsumed := 0
  log := []

def say (s : CopyBufferProvider α β) (e : Event α β) : CopyBufferProvider α β :=
  { s with log := s.log ++ [e] }

/- The call of the upstream provider, as the log has it. -/
def asked (s : CopyBufferProvider α β) (a : Answer α) : CopyBufferProvider α β :=
  if a.status = OK then s.say (.obtained a.frames)
  else s.say (.refused a.status)

/- Convert the frames `src` to the start of `dst`. -/
def copyFrames (dst : List β) (src : List α) : List β :=
  src.map convert ++ dst.drop src.length

/- The number of frames of the next piece. -/
def pieceCount (s : CopyBufferProvider α β) (frameCount : Nat) : Nat :=
  min (min s.mLocalBufferFrameCount (s.mBuffer.frameCount - s.mConsumed)) frameCount

/- The frames of the buffer that are in the next piece. -/
def pieceSource (s : CopyBufferProvider α β) (frameCount : Nat) : List α :=
  ((s.mBuffer.raw.getD []).drop s.mConsumed).take (s.pieceCount frameCount)

/- The end of `getNextBuffer`: a piece of the buffer goes to the local buffer. -/
def piece (s : CopyBufferProvider α β) (frameCount : Nat) :
    Option (Int × Buffer β × CopyBufferProvider α β) :=
  if s.mConsumed < s.mBuffer.frameCount then
    let data := copyFrames convert s.mLocalBufferData (s.pieceSource frameCount)
    some
      (OK, ⟨some data, s.pieceCount frameCount⟩,
        { s with mLocalBufferData := data }.say
          (.offered frameCount (data.take (s.pieceCount frameCount))))
  else none

/- `none` is a failed assertion. -/
def getNextBuffer (s : CopyBufferProvider α β) (frameCount : Nat) (a : Answer α) :
    Option (Int × Buffer β × CopyBufferProvider α β) :=
  if s.mLocalBufferFrameCount = 0 then if a.status = OK then
      -- the frames are converted in place
      let data := copyFrames convert [] a.frames
      some (a.status, ⟨some data, a.frames.length⟩, (s.asked a).say (.offered frameCount data))
    else some (a.status, ⟨none, a.frames.length⟩, s.asked a)
  else if s.mBuffer.frameCount = 0 then
    let next := { s.asked a with mBuffer := a.buffer }
    if a.status = OK ∨ next.mBuffer.frameCount = 0 then
      if a.status ≠ OK ∨ next.mBuffer.frameCount = 0 then some (a.status, ⟨none, 0⟩, next)
      else piece convert { next with mConsumed := 0 } frameCount
    else none
  else piece convert s frameCount

/-
  The call of `releaseBuffer` upstream: the implementation must set the number of frames to zero.
-/
def release (s : CopyBufferProvider α β) : CopyBufferProvider α β :=
  { s.say (.released s.mBuffer.frameCount) with
    mBuffer := ⟨none, 0⟩ }

/- The consumer is done with some frames of its buffer. -/
def deliver (s : CopyBufferProvider α β) (pBuffer : Buffer β) : CopyBufferProvider α β :=
  { s.say (.delivered ((pBuffer.raw.getD []).take pBuffer.frameCount)) with
    mConsumed := s.mConsumed + pBuffer.frameCount }

/- The consumer's buffer is cleared. -/
def releaseBuffer (s : CopyBufferProvider α β) (pBuffer : Buffer β) :
    Buffer β × CopyBufferProvider α β :=
  if s.mLocalBufferFrameCount = 0 then
    (⟨none, 0⟩,
      (s.say (.delivered ((pBuffer.raw.getD []).take pBuffer.frameCount))).say
        (.released pBuffer.frameCount))
  else if (s.deliver pBuffer).mConsumed ≠ 0 ∧
      (s.deliver pBuffer).mBuffer.frameCount ≤ (s.deliver pBuffer).mConsumed then
    (⟨none, 0⟩, (s.deliver pBuffer).release)
  else (⟨none, 0⟩, s.deliver pBuffer)

def reset (s : CopyBufferProvider α β) : CopyBufferProvider α β :=
  let s := s.say .reset
  { if s.mBuffer.frameCount ≠ 0 then s.release else s with
    mConsumed := 0 }

/-
  What the consumer does: `getNextBuffer` and a release of some of the frames, or `reset`. The
  answer is what the upstream provider says if it is asked.
-/
inductive Op (α : Type*) where
| pair (frameCount : Nat) (a : Answer α) (release : Nat)
| reset

def step (s : CopyBufferProvider α β) : Op α → Option (CopyBufferProvider α β)
| .pair frameCount a count =>
  (s.getNextBuffer convert frameCount a).map
    (fun got =>
      (got.2.2.releaseBuffer { got.2.1 with frameCount := count }).2)
| .reset => some s.reset

/-
  The upstream provider keeps its contract, and the consumer releases no more frames than it
  obtained.
-/
def Legal (s : CopyBufferProvider α β) : Op α → Prop
| .pair frameCount a count =>
  a.Proper frameCount ∧ ∀ got ∈ s.getNextBuffer convert frameCount a, count ≤ got.2.1.frameCount
| .reset => True

instance (s : CopyBufferProvider α β) : (op : Op α) → Decidable (s.Legal convert op)
| .pair frameCount a count =>
  inferInstanceAs
    (Decidable
      (a.Proper frameCount ∧
        ∀ got ∈ s.getNextBuffer convert frameCount a, count ≤ got.2.1.frameCount))
| .reset => instDecidableTrue

end CopyBufferProvider

--
-- What The Log Must Say
--

/-
  The accounts of a log: the frames obtained upstream, the frames released by the consumer, the
  sizes of the buffers obtained and of those released upstream. A release of no frames releases no
  buffer. What the consumer has not released when `reset` is called is given up.
-/
structure Ledger (α β : Type*) where
  supplied : List α
  delivered : List β
  obtained : List Nat
  returned : List Nat

namespace Ledger

variable {α β : Type*}

def enter (l : Ledger α β) : Event α β → Ledger α β
| .obtained frames =>
  { l with
    supplied := l.supplied ++ frames
    obtained := l.obtained ++ [frames.length] }
| .delivered frames => { l with delivered := l.delivered ++ frames }
| .released 0 => l
| .released frameCount => { l with returned := l.returned ++ [frameCount] }
| .reset => { l with supplied := l.supplied.take l.delivered.length }
| .refused _ => l
| .offered _ _ => l

def ofLog (log : List (Event α β)) : Ledger α β :=
  log.foldl enter ⟨[], [], [], []⟩

theorem ofLog_append (log : List (Event α β)) (e : Event α β) :
    ofLog (log ++ [e]) = (ofLog log).enter e := by
  rw [ofLog, List.foldl_append]
  rfl

theorem enter_released (l : Ledger α β) (frameCount : Nat) :
    l.enter (.released frameCount) =
      { l with
        returned := l.returned ++ if frameCount = 0 then [] else [frameCount] } := by
  cases frameCount with
  | zero => simp [enter]
  | succ n => rfl

/- All that was obtained upstream is released downstream. -/
def Drained (convert : α → β) (l : Ledger α β) : Prop :=
  l.delivered = l.supplied.map convert

end Ledger

variable {α β : Type*}
variable (convert : α → β)
variable (n : Nat)

/-
  When an event may follow a log. The upstream provider is asked when there is nothing left to
  offer. The consumer is offered the next frames that it did not release, converted, as many as it
  asked for and the `n` frames of the local buffer hold. It releases the first of them. A release
  upstream comes after the last frame of the buffer; it is that of the only buffer not released yet,
  or of no frames.
-/
def Law (log : List (Event α β)) : Event α β → Prop
| .obtained frames =>
  frames ≠ [] ∧ (Ledger.ofLog log).Drained convert ∧
    (Ledger.ofLog log).obtained = (Ledger.ofLog log).returned
| .refused _ =>
  (Ledger.ofLog log).Drained convert ∧ (Ledger.ofLog log).obtained = (Ledger.ofLog log).returned
| .offered frameCount frames =>
  frames =
    (((Ledger.ofLog log).supplied.drop
      (Ledger.ofLog log).delivered.length).take (min n frameCount)).map convert
| .delivered frames =>
  (∃ earlier frameCount offer, log = earlier ++ [.offered frameCount offer] ∧ frames <+: offer) ∨
    ∃ earlier status, log = earlier ++ [.refused status] ∧ frames = []
| .released frameCount =>
  (Ledger.ofLog log).Drained convert ∧
    (Ledger.ofLog log).obtained =
      (Ledger.ofLog log).returned ++ if frameCount = 0 then [] else [frameCount]
| .reset => True

/- Every event of a log may follow those before it. -/
def Lawful (log : List (Event α β)) : Prop :=
  ∀ earlier e, earlier ++ [e] <+: log → Law convert n earlier e

theorem lawful_nil : Lawful convert n ([] : List (Event α β)) := by
  intro earlier e hPrefix
  simp at hPrefix

theorem lawful_append {convert : α → β} {n : Nat} {log : List (Event α β)} {e : Event α β}
    (hLog : Lawful convert n log) (hLaw : Law convert n log e) : Lawful convert n (log ++ [e]) := by
  intro earlier e' hPrefix
  rcases List.prefix_concat_iff.mp hPrefix with hAll | hPart
  · rcases List.append_inj' hAll rfl with ⟨rfl, hLast⟩
    cases hLast
    exact hLaw
  · exact hLog earlier e' hPart

end BufferProviders

--
-- Pairs Of Calls
--

namespace BufferProviders

variable {α β : Type*}

namespace CopyBufferProvider

/-
  The provider holds the upstream buffer `rest` (an empty list when it holds none) and has released
  `done`.
-/
structure Holds (convert : α → β) (s : CopyBufferProvider α β) (done rest : List α) : Prop where
  lawful : Lawful convert s.mLocalBufferFrameCount s.log
  count : s.mBuffer.frameCount = rest.length
  raw : rest ≠ [] → s.mBuffer.raw = some rest
  consumed : rest ≠ [] → s.mConsumed < rest.length
  supplied : (Ledger.ofLog s.log).supplied = done ++ rest
  delivered : (Ledger.ofLog s.log).delivered = (done ++ rest.take s.mConsumed).map convert
  returned :
    (Ledger.ofLog s.log).obtained =
      (Ledger.ofLog s.log).returned ++ if rest = [] then [] else [rest.length]

/- The provider just offered `pBuffer`, or there was nothing to offer. -/
structure Offers (convert : α → β) (s : CopyBufferProvider α β) (done rest : List α)
    (pBuffer : Buffer β) : Prop where
  holds : s.Holds convert done rest
  fits : pBuffer.frameCount ≤ rest.length - s.mConsumed
  frames :
    (pBuffer.raw.getD []).take pBuffer.frameCount =
      ((rest.drop s.mConsumed).take pBuffer.frameCount).map convert
  last :
    (∃ earlier frameCount,
      s.log = earlier ++ [.offered frameCount ((pBuffer.raw.getD []).take pBuffer.frameCount)]) ∨
    rest = [] ∧ ∃ earlier status, s.log = earlier ++ [.refused status]

variable {convert : α → β} {s : CopyBufferProvider α β} {done rest : List α}

/- Nothing held: all that was obtained is released. -/
theorem Holds.drained (h : s.Holds convert done []) :
    (Ledger.ofLog s.log).Drained convert ∧
      (Ledger.ofLog s.log).obtained = (Ledger.ofLog s.log).returned := by
  constructor
  · rw [Ledger.Drained, h.supplied, h.delivered]
    simp
  · rw [h.returned]
    simp

theorem Holds.delivered_length (h : s.Holds convert done rest) (hSome : rest ≠ []) :
    (Ledger.ofLog s.log).delivered.length = done.length + s.mConsumed := by
  have hLess := h.consumed hSome
  rw [h.delivered]
  simp only [List.length_map, List.length_append, List.length_take]
  omega

theorem Holds.pieceCount_le (h : s.Holds convert done rest) (frameCount : Nat) :
    s.pieceCount frameCount ≤ rest.length - s.mConsumed := by
  rw [pieceCount, h.count]
  omega

theorem Holds.pieceSource_eq (h : s.Holds convert done rest) (hSome : rest ≠ [])
    (frameCount : Nat) :
    s.pieceSource frameCount = (rest.drop s.mConsumed).take (s.pieceCount frameCount) := by
  rw [pieceSource, h.raw hSome, Option.getD_some]

theorem Holds.pieceSource_length (h : s.Holds convert done rest) (hSome : rest ≠ [])
    (frameCount : Nat) : (s.pieceSource frameCount).length = s.pieceCount frameCount := by
  have hLe := h.pieceCount_le frameCount
  rw [h.pieceSource_eq hSome, List.length_take, List.length_drop]
  omega

/- What the copy leaves at the start of the local buffer. -/
theorem take_copyFrames (dst : List β) (src : List α) :
    (copyFrames convert dst src).take src.length = src.map convert := by
  rw [copyFrames, List.take_left' (List.length_map convert)]

/- The next frames, as many as fit and are asked for. -/
theorem Holds.law_offered (h : s.Holds convert done rest) (hSome : rest ≠ []) (frameCount : Nat) :
    Law convert s.mLocalBufferFrameCount s.log
      (.offered frameCount ((s.pieceSource frameCount).map convert)) := by
  have hLeft :
      (Ledger.ofLog s.log).supplied.drop (Ledger.ofLog s.log).delivered.length =
        rest.drop s.mConsumed := by
    rw [h.supplied, h.delivered_length hSome, List.drop_append, Nat.add_sub_cancel_left,
      List.drop_eq_nil_of_le (Nat.le_add_right _ _), List.nil_append]
  have hTake :
      (rest.drop s.mConsumed).take (s.pieceCount frameCount) =
        (rest.drop s.mConsumed).take (min s.mLocalBufferFrameCount frameCount) := by
    rw [List.take_eq_take_iff, List.length_drop, pieceCount, h.count]
    omega
  rw [Law, hLeft, h.pieceSource_eq hSome, hTake]

/- The next piece of a buffer. -/
theorem piece_offers (h : s.Holds convert done rest) (hSome : rest ≠ []) (frameCount : Nat) :
    ∃ got, s.piece convert frameCount = some got ∧ got.2.2.Offers convert done rest got.2.1 ∧
      got.2.2.mLocalBufferFrameCount = s.mLocalBufferFrameCount := by
  have hLess := h.consumed hSome
  have hFrames :
      (copyFrames convert s.mLocalBufferData
          (s.pieceSource frameCount)).take (s.pieceCount frameCount) =
        (s.pieceSource frameCount).map convert := by
    rw [← h.pieceSource_length hSome, take_copyFrames]
  unfold piece
  rw [if_pos (by rw [h.count]; exact hLess)]
  simp only [hFrames]
  refine ⟨_, rfl, ?_, rfl⟩
  constructor
  · have hEntered :
        Ledger.ofLog (s.log ++ [.offered frameCount ((s.pieceSource frameCount).map convert)]) =
          Ledger.ofLog s.log :=
      Ledger.ofLog_append _ _
    constructor
    · exact lawful_append h.lawful (h.law_offered hSome _)
    · exact h.count
    · exact h.raw
    · exact h.consumed
    · exact (congrArg Ledger.supplied hEntered).trans h.supplied
    · exact (congrArg Ledger.delivered hEntered).trans h.delivered
    · simp only [say]
      rw [hEntered]
      exact h.returned
  · exact h.pieceCount_le frameCount
  · exact hFrames.trans (congrArg (List.map convert) (h.pieceSource_eq hSome _))
  · refine Or.inl ⟨s.log, frameCount, ?_⟩
    simp only [say, Option.getD_some]
    rw [hFrames]

/- A buffer obtained when none was held. -/
theorem Holds.obtain (h : s.Holds convert done []) {frames : List α} (hSome : frames ≠ []) :
    ({ s.say (.obtained frames) with
        mBuffer := ⟨some frames, frames.length⟩
        mConsumed := 0 } : CopyBufferProvider α β).Holds
      convert done frames := by
  have hDelivered := h.delivered
  rw [List.take_nil] at hDelivered
  have hSupplied := h.supplied
  rw [List.append_nil] at hSupplied
  constructor
  · exact lawful_append h.lawful ⟨hSome, h.drained⟩
  · rfl
  · exact fun _ => rfl
  · exact fun _ => List.length_pos_iff.mpr hSome
  · simp only [say, Ledger.ofLog_append, Ledger.enter]
    rw [hSupplied]
  · simp only [say, Ledger.ofLog_append, Ledger.enter]
    rw [hDelivered, List.take_zero]
  · simp only [say, Ledger.ofLog_append, Ledger.enter]
    rw [h.drained.2, if_neg hSome]

/- An error from upstream: there is nothing to offer. -/
theorem Holds.refuse (h : s.Holds convert done []) (status : Int) (raw : Option (List α)) :
    ({ s.say (.refused status) with
        mBuffer := ⟨raw, 0⟩ } :
          CopyBufferProvider α β).Offers
      convert done [] ⟨none, 0⟩ := by
  have hEntered : Ledger.ofLog (s.log ++ [.refused status]) = Ledger.ofLog s.log :=
    Ledger.ofLog_append _ _
  constructor
  · constructor
    · exact lawful_append h.lawful h.drained
    · rfl
    · exact fun hSome => absurd rfl hSome
    · exact fun hSome => absurd rfl hSome
    · exact (congrArg Ledger.supplied hEntered).trans h.supplied
    · exact (congrArg Ledger.delivered hEntered).trans h.delivered
    · simp only [say]
      rw [hEntered]
      exact h.returned
  · exact Nat.zero_le _
  · rfl
  · exact Or.inr ⟨rfl, s.log, status, rfl⟩

/-
  With a local buffer and a proper answer from upstream, no assertion fails and there is an offer or
  an error.
-/
theorem getNextBuffer_offers (h : s.Holds convert done rest) (hLocal : s.mLocalBufferFrameCount ≠ 0)
    {frameCount : Nat} {a : Answer α} (hProper : a.Proper frameCount) :
    ∃ got rest', s.getNextBuffer convert frameCount a = some got ∧
      got.2.2.Offers convert done rest' got.2.1 ∧
      got.2.2.mLocalBufferFrameCount = s.mLocalBufferFrameCount := by
  unfold getNextBuffer
  rw [if_neg hLocal, h.count]
  by_cases hSome : rest = []
  · subst hSome
    rw [if_pos List.length_nil]
    unfold Answer.Proper at hProper
    by_cases hOk : a.status = OK
    · rw [if_pos hOk] at hProper
      have hFrames : a.frames ≠ [] := List.length_pos_iff.mp hProper.1
      have hNone : a.frames.length ≠ 0 := Nat.ne_of_gt hProper.1
      have hHolds := h.obtain hFrames
      rcases piece_offers hHolds hFrames frameCount with ⟨got, hGot, hOffers, hSame⟩
      refine ⟨got, a.frames, ?_, hOffers, hSame⟩
      simp only [Answer.buffer, asked, hOk, hNone, true_or,
        if_true, ne_eq, not_true_eq_false, or_self, if_false]
      exact hGot
    · rw [if_neg hOk] at hProper
      refine
        ⟨(a.status, ⟨none, 0⟩,
          { s.say (.refused a.status) with
            mBuffer := ⟨none, 0⟩ }),
          [], ?_, h.refuse a.status none, rfl⟩
      simp only [Answer.buffer, asked, hOk, hProper, or_true, if_true, if_false]
  · rw [if_neg (fun hZero => hSome (List.length_eq_zero_iff.mp hZero))]
    rcases piece_offers h hSome frameCount with ⟨got, hGot, hOffers, hSame⟩
    exact ⟨got, rest, hGot, hOffers, hSame⟩

/- What the consumer releases is the first of its frames. -/
theorem Offers.law_delivered {pBuffer : Buffer β} (h : s.Offers convert done rest pBuffer)
    {release : Nat} (hLe : release ≤ pBuffer.frameCount) :
    Law convert s.mLocalBufferFrameCount s.log
      (.delivered ((pBuffer.raw.getD []).take release)) := by
  rcases h.last with ⟨earlier, frameCount, hLog⟩ | hRefused
  · refine Or.inl ⟨earlier, frameCount, _, hLog, ?_⟩
    exact List.take_prefix_take_left hLe
  · rcases hRefused with ⟨hNone, earlier, status, hLog⟩
    refine Or.inr ⟨earlier, status, hLog, ?_⟩
    have hFits := h.fits
    rw [hNone, List.length_nil] at hFits
    have hZero : release = 0 := by omega
    rw [hZero, List.take_zero]

section Release

variable {pBuffer : Buffer β} {release : Nat}

/- The accounts after the consumer's release. -/
theorem Offers.ofLog_deliver (h : s.Offers convert done rest pBuffer)
    (hLe : release ≤ pBuffer.frameCount) :
    Ledger.ofLog (s.deliver { pBuffer with frameCount := release }).log =
      { Ledger.ofLog s.log with
        delivered := (done ++ rest.take (s.mConsumed + release)).map convert } := by
  have hFirst :
      (pBuffer.raw.getD []).take release = ((rest.drop s.mConsumed).take release).map convert := by
    have hFrames := congrArg (List.take release) h.frames
    rw [List.take_take, ← List.map_take, List.take_take, Nat.min_eq_left hLe] at hFrames
    exact hFrames
  simp only [deliver, say]
  rw [Ledger.ofLog_append, Ledger.enter, h.holds.delivered,
    hFirst, ← List.map_append, List.append_assoc, ← List.take_add]

theorem Offers.lawful_deliver (h : s.Offers convert done rest pBuffer)
    (hLe : release ≤ pBuffer.frameCount) :
    Lawful convert s.mLocalBufferFrameCount
      (s.deliver { pBuffer with frameCount := release }).log :=
  lawful_append h.holds.lawful (h.law_delivered hLe)

/- Some frames of the buffer are left. -/
theorem Offers.deliver_holds (h : s.Offers convert done rest pBuffer)
    (hLe : release ≤ pBuffer.frameCount)
    (hMore : s.mConsumed + release = 0 ∨ s.mConsumed + release < rest.length) :
    (s.deliver { pBuffer with frameCount := release }).Holds
      convert done rest := by
  have hLog := h.ofLog_deliver hLe
  constructor
  · exact h.lawful_deliver hLe
  · exact h.holds.count
  · exact h.holds.raw
  · intro hSome
    have hPos := List.length_pos_iff.mpr hSome
    simp only [deliver]
    omega
  · rw [hLog]
    exact h.holds.supplied
  · rw [hLog]
    rfl
  · rw [hLog]
    exact h.holds.returned

/- No frame of the buffer is left, or there was none. -/
theorem Offers.release_holds (h : s.Offers convert done rest pBuffer)
    (hLe : release ≤ pBuffer.frameCount) (hDone : rest.length ≤ s.mConsumed + release) :
    (s.deliver { pBuffer with frameCount := release }).release.Holds
      convert (done ++ rest) [] := by
  have hLog := h.ofLog_deliver hLe
  rw [List.take_of_length_le hDone] at hLog
  have hCount :
      (s.deliver
        { pBuffer with
          frameCount := release }).mBuffer.frameCount =
        rest.length :=
    h.holds.count
  have hLaw :
      Law convert s.mLocalBufferFrameCount (s.deliver { pBuffer with frameCount := release }).log
        (.released rest.length) := by
    unfold Law Ledger.Drained
    rw [hLog]
    refine ⟨congrArg _ h.holds.supplied.symm, ?_⟩
    simp only [List.length_eq_zero_iff]
    exact h.holds.returned
  have hAfter :
      Ledger.ofLog (s.deliver { pBuffer with frameCount := release }).release.log =
        { Ledger.ofLog s.log with
          delivered := (done ++ rest).map convert
          returned := (Ledger.ofLog s.log).obtained } := by
    simp only [CopyBufferProvider.release, say, hCount]
    rw [Ledger.ofLog_append, hLog, Ledger.enter_released]
    simp only [List.length_eq_zero_iff]
    rw [← h.holds.returned]
  constructor
  · simp only [CopyBufferProvider.release, say, hCount]
    exact lawful_append (h.lawful_deliver hLe) hLaw
  · rfl
  · exact fun hSome => absurd rfl hSome
  · exact fun hSome => absurd rfl hSome
  · rw [hAfter, List.append_nil]
    exact h.holds.supplied
  · rw [hAfter, List.take_nil, List.append_nil]
  · rw [hAfter, if_pos rfl, List.append_nil]

/- With a local buffer the consumer may release any part. -/
theorem Offers.releaseBuffer_holds (h : s.Offers convert done rest pBuffer)
    (hLocal : s.mLocalBufferFrameCount ≠ 0) (hLe : release ≤ pBuffer.frameCount) :
    ∃ done' rest',
      (s.releaseBuffer
        { pBuffer with frameCount := release }).2.Holds
          convert done' rest' := by
  have hCount :
      (s.deliver
        { pBuffer with
          frameCount := release }).mBuffer.frameCount =
        rest.length :=
    h.holds.count
  unfold releaseBuffer
  rw [if_neg hLocal, hCount]
  split
  next hDone =>
    exact ⟨_, _, h.release_holds hLe hDone.2⟩
  next hMore =>
    refine ⟨done, rest, h.deliver_holds hLe ?_⟩
    simp only [deliver] at hMore
    omega

end Release

@[simp] theorem releaseBuffer_mLocalBufferFrameCount (pBuffer : Buffer β) :
    (s.releaseBuffer pBuffer).2.mLocalBufferFrameCount = s.mLocalBufferFrameCount := by
  unfold releaseBuffer
  split
  · rfl
  · split <;> rfl

@[simp] theorem reset_mLocalBufferFrameCount :
    s.reset.mLocalBufferFrameCount = s.mLocalBufferFrameCount := by
  unfold reset
  simp only
  split <;> rfl

/- The accounts without what the consumer did not release. -/
theorem Holds.ofLog_reset (h : s.Holds convert done rest) :
    Ledger.ofLog (s.log ++ [.reset]) =
      { Ledger.ofLog s.log with
        supplied := done ++ rest.take s.mConsumed } := by
  have hPrefix : done ++ rest.take s.mConsumed <+: done ++ rest :=
    (List.prefix_append_right_inj _).mpr (List.take_prefix _ _)
  have hDelivered := congrArg List.length h.delivered
  rw [List.length_map] at hDelivered
  rw [Ledger.ofLog_append, Ledger.enter, h.supplied,
    hDelivered, ← List.prefix_iff_eq_take.mp hPrefix]

/- `reset` gives up what is left of the buffer. -/
theorem Holds.reset_holds (h : s.Holds convert done rest) :
    s.reset.Holds convert (done ++ rest.take s.mConsumed) [] := by
  have hLog := h.ofLog_reset
  have hLawful : Lawful convert s.mLocalBufferFrameCount (s.log ++ [.reset]) :=
    lawful_append h.lawful trivial
  unfold reset
  simp only [say, h.count]
  by_cases hSome : rest = []
  · subst hSome
    rw [if_neg (fun hNone => hNone List.length_nil)]
    constructor
    · exact hLawful
    · exact h.count
    · exact h.raw
    · exact fun hSome => absurd rfl hSome
    · rw [hLog, List.append_nil]
    · rw [hLog]
      simpa using h.delivered
    · rw [hLog]
      exact h.returned
  · have hNone : rest.length ≠ 0 := fun hZero =>
      hSome (List.length_eq_zero_iff.mp hZero)
    have hLaw :
        Law convert s.mLocalBufferFrameCount (s.log ++ [.reset]) (.released rest.length) := by
      unfold Law Ledger.Drained
      rw [hLog]
      refine ⟨h.delivered, ?_⟩
      simp only [List.length_eq_zero_iff]
      exact h.returned
    have hAfter :
        Ledger.ofLog (s.log ++ [.reset] ++ [.released rest.length]) =
          { Ledger.ofLog s.log with
            supplied := done ++ rest.take s.mConsumed
            returned := (Ledger.ofLog s.log).obtained } := by
      rw [Ledger.ofLog_append, hLog, Ledger.enter_released]
      simp only [List.length_eq_zero_iff]
      rw [← h.returned]
    rw [if_pos hNone]
    simp only [release, say, h.count]
    constructor
    · exact lawful_append hLawful hLaw
    · rfl
    · exact fun hSome => absurd rfl hSome
    · exact fun hSome => absurd rfl hSome
    · rw [hAfter, List.append_nil]
    · rw [hAfter, List.take_nil, List.append_nil]
      exact h.delivered
    · rw [hAfter, if_pos rfl, List.append_nil]

/- A legal step happens and keeps the provider in order. -/
theorem step_holds (h : s.Holds convert done rest) (hLocal : s.mLocalBufferFrameCount ≠ 0)
    {op : Op α} (hLegal : s.Legal convert op) :
    ∃ next done' rest', s.step convert op = some next ∧
      next.Holds convert done' rest' ∧
      next.mLocalBufferFrameCount = s.mLocalBufferFrameCount := by
  cases op with
  | reset => exact ⟨_, _, _, rfl, h.reset_holds, by simp⟩
  | pair frameCount a release =>
    rcases hLegal with ⟨hProper, hLe⟩
    rcases getNextBuffer_offers h hLocal hProper with ⟨got, rest', hGot, hOffers, hSame⟩
    rcases hOffers.releaseBuffer_holds (by rwa [hSame]) (hLe got hGot) with ⟨done', rest'', hHolds⟩
    refine ⟨_, done', rest'', ?_, hHolds, ?_⟩
    · rw [step, hGot]
      rfl
    · rw [releaseBuffer_mLocalBufferFrameCount, hSame]

end CopyBufferProvider

--
-- Runs
--

namespace CopyBufferProvider

variable (convert : α → β)

theorem init_holds (mLocalBufferFrameCount : Nat) (mLocalBufferData : List β) :
    (init mLocalBufferFrameCount mLocalBufferData).Holds convert [] [] := by
  constructor
  · exact lawful_nil convert _
  · rfl
  · exact fun hSome => absurd rfl hSome
  · exact fun hSome => absurd rfl hSome
  · rfl
  · rfl
  · rfl

variable {convert : α → β}

/- Every run keeps the provider in order. -/
theorem exec_holds {s t : CopyBufferProvider α β} {ops : List (Op α)}
    (hRun : Run.exec (Run.guarded (Legal convert) (step convert)) s ops = some t)
    {done rest : List α} (h : s.Holds convert done rest) (hLocal : s.mLocalBufferFrameCount ≠ 0) :
    (∃ done' rest', t.Holds convert done' rest') ∧
      t.mLocalBufferFrameCount = s.mLocalBufferFrameCount := by
  have hStep :
      ∀ u op v,
        ((∃ done' rest', u.Holds convert done' rest') ∧
          u.mLocalBufferFrameCount = s.mLocalBufferFrameCount) →
        Run.guarded (Legal convert) (step convert) u op = some v →
          (∃ done' rest', v.Holds convert done' rest') ∧
            v.mLocalBufferFrameCount = s.mLocalBufferFrameCount := by
    rintro u op v ⟨⟨done', rest', hHolds⟩, hSame⟩ hStep
    rcases Run.guarded_eq_some.mp hStep with ⟨hLegal, hNext⟩
    rcases step_holds hHolds (by rwa [hSame]) hLegal with
      ⟨next, done'', rest'', hAgain, hLater, hLast⟩
    rw [hNext] at hAgain
    cases hAgain
    exact ⟨⟨done'', rest'', hLater⟩, hLast.trans hSame⟩
  exact Run.exec_invariant hStep hRun ⟨⟨done, rest, h⟩, rfl⟩

/-
  With a local buffer, in every run: each call keeps to the law; what the consumer released is the
  first part of the conversion of what was obtained upstream; all buffers obtained are released but
  the one that the provider holds; and no further legal call fails an assertion.
-/
theorem transparent (convert : α → β) (mLocalBufferFrameCount : Nat) (mLocalBufferData : List β)
    (hLocal : mLocalBufferFrameCount ≠ 0) (ops : List (Op α)) (t : CopyBufferProvider α β)
    (hRun :
      Run.exec (Run.guarded (Legal convert) (step convert))
        (init mLocalBufferFrameCount mLocalBufferData) ops = some t) :
    Lawful convert mLocalBufferFrameCount t.log ∧
      (Ledger.ofLog t.log).delivered <+: (Ledger.ofLog t.log).supplied.map convert ∧
      (Ledger.ofLog t.log).obtained =
        (Ledger.ofLog t.log).returned ++
          (if t.mBuffer.frameCount = 0 then [] else [t.mBuffer.frameCount]) ∧
      ∀ op, t.Legal convert op → t.step convert op ≠ none := by
  have hInit := init_holds convert mLocalBufferFrameCount mLocalBufferData
  rcases exec_holds hRun hInit hLocal with ⟨⟨done, rest, hHolds⟩, hSame⟩
  have hSame' : t.mLocalBufferFrameCount = mLocalBufferFrameCount := hSame
  refine ⟨?_, ?_, ?_, ?_⟩
  · rw [← hSame']
    exact hHolds.lawful
  · rw [hHolds.delivered, hHolds.supplied]
    have hPrefix : done ++ rest.take t.mConsumed <+: done ++ rest :=
      (List.prefix_append_right_inj _).mpr (List.take_prefix _ _)
    exact hPrefix.map convert
  · rw [hHolds.count]
    simp only [List.length_eq_zero_iff]
    exact hHolds.returned
  · intro op hLegal
    rcases step_holds hHolds (by rwa [hSame']) hLegal with ⟨next, -, -, hNext, -, -⟩
    rw [hNext]
    exact Option.some_ne_none next

/- A buffer in two pieces, an error after it, and a release of no frames. -/
theorem transparent_pieces :
    let log : List (Event Nat Nat) :=
      [.obtained [1, 2, 3], .offered 5 [101, 102], .delivered [101], .offered 5 [102, 103],
        .delivered [102, 103], .released 3, .refused (-11), .delivered [], .released 0]
    Run.exec (Run.guarded (Legal (· + 100)) (step (· + 100))) (init 2 [0, 0])
        [.pair 5 ⟨OK, [1, 2, 3]⟩ 1, .pair 5 ⟨-11, []⟩ 2, .pair 5 ⟨-11, []⟩ 0] =
        some ⟨⟨none, 0⟩, 2, [102, 103], 3, log⟩ ∧
      Lawful (· + 100) 2 log := by
  intro log
  have hRun :
      Run.exec (Run.guarded (Legal (· + 100)) (step (· + 100))) (init 2 [0, 0])
          [.pair 5 ⟨OK, [1, 2, 3]⟩ 1, .pair 5 ⟨-11, []⟩ 2, .pair 5 ⟨-11, []⟩ 0] =
        some ⟨⟨none, 0⟩, 2, [102, 103], 3, log⟩ :=
    rfl
  exact ⟨hRun, (transparent (· + 100) 2 [0, 0] (by decide) _ _ hRun).1⟩

end CopyBufferProvider

end BufferProviders

end FrameworksAv
