import FrameworksAv.RTP.Reassembly
import Mathlib.Data.Nat.Bitwise

/-
  The sequence numbers of packets (`ARTPSource::queuePacket`,
  media/libstagefright/rtsp/ARTPSource.cpp).

  A packet has 16 bits of its number with it. `Sent` is a packet under the whole one, and
  `Sent.outcomes` is a queue that knows it.

  Main declarations:
    * `extended`, `ARTPSource.queuePacket`
    * `ARTPSource.outcomes`, `Sent.outcomes`
    * `extended_eq`
    * `ARTPSource.numbered_iff`
-/

--
-- Numbers
--

namespace FrameworksAv

namespace RTP

def AbsDiff (seq1 seq2 : Nat) : Nat :=
  if seq2 < seq1 then seq1 - seq2 else seq2 - seq1

/- The high bits of a number: the candidate that is closest to the highest one so far. -/
def extended (mHighestSeqNumber seqNum : Nat) : Nat :=
  let high := mHighestSeqNumber &&& 0xffff0000
  let seq1 := seqNum ||| high
  let seq2 := seqNum ||| ((high + 0x10000) % 2 ^ 32)
  let seq3 := seqNum ||| ((high + (2 ^ 32 - 0x10000)) % 2 ^ 32)
  let diff1 := AbsDiff seq1 mHighestSeqNumber
  let diff2 := AbsDiff seq2 mHighestSeqNumber
  let diff3 := AbsDiff seq3 mHighestSeqNumber
  if diff1 < diff2 then if diff1 < diff3 then seq1 else seq3
  else if diff2 < diff3 then seq2
  else seq3

/- The fields that numbers are taken from. -/
structure ARTPSource where
  mHighestSeqNumber : Nat
  mNumBuffersReceived : Nat
  mQueue : List ABuffer

/- The first packet that is not before this one is the same. -/
def isDuplicate (queue : List ABuffer) (buffer : ABuffer) : Bool :=
  match queue.dropWhile (·.int32Data < buffer.int32Data) with
  | [] => false
  | first :: _ => first.int32Data = buffer.int32Data

/- A packet with the number that it gets, and the queue. -/
structure Outcome (α : Type) where
  packet : α
  queued : Bool
  queue : List α
deriving DecidableEq

def Outcome.map {α β : Type} (f : α → β) (outcome : Outcome α) : Outcome β :=
  { packet := f outcome.packet
    queued := outcome.queued
    queue := outcome.queue.map f }

namespace ARTPSource

def new : ARTPSource := ⟨0, 0, []⟩

/- `setInt32Data` with the whole number. -/
def numbered (s : ARTPSource) (buffer : ABuffer) : ABuffer :=
  { buffer with
    int32Data := extended s.mHighestSeqNumber buffer.int32Data }

/- There is no number behind the last of an `int32_t`. -/
def queuePacket (s : ARTPSource) (buffer : ABuffer) : Option (ARTPSource × Outcome ABuffer) :=
  if s.mNumBuffersReceived = 2 ^ 31 - 1 then none
  else if s.mNumBuffersReceived = 0 then
    let queue := s.mQueue ++ [buffer]
    some
      ({ mHighestSeqNumber := buffer.int32Data
         mNumBuffersReceived := s.mNumBuffersReceived + 1
         mQueue := queue },
        ⟨buffer, true, queue⟩)
  else
    let buffer := s.numbered buffer
    let queue := RTP.queuePacket s.mQueue buffer
    some
      ({ mHighestSeqNumber := if s.mHighestSeqNumber < buffer.int32Data then buffer.int32Data
           else s.mHighestSeqNumber
         mNumBuffersReceived := s.mNumBuffersReceived + 1
         mQueue := queue },
        ⟨buffer, !isDuplicate s.mQueue buffer, queue⟩)

end ARTPSource

/- A packet under its whole number. -/
structure Sent where
  number : Int
  rtpTime : Nat
  data : List Byte
deriving DecidableEq

/- What `parseRTP` hands over. -/
def Sent.transmitted (sent : Sent) : ABuffer :=
  { int32Data := (sent.number % 2 ^ 16).toNat
    rtpTime := sent.rtpTime
    data := sent.data }

/- The assembler takes packets from the front. -/
inductive Event
| packet (sent : Sent)
| taken (n : Nat)

/- The packets of a run. -/
def packetsOf (events : List Event) : List Sent :=
  events.filterMap fun event =>
    match event with
    | .packet sent => some sent
    | .taken _ => none

namespace ARTPSource

def outcomes : ARTPSource → List Event → Option (List (Outcome ABuffer))
| _, [] => some []
| s, .packet sent :: events =>
  (s.queuePacket sent.transmitted).bind fun (next, outcome) =>
      (outcomes next events).map (outcome :: ·)
| s, .taken n :: events => outcomes { s with mQueue := s.mQueue.drop n } events

end ARTPSource

namespace Sent

def arrange : List Sent → Sent → List Sent
| [], sent => [sent]
| first :: queue, sent =>
  if first.number < sent.number then
    first :: arrange queue sent
  else sent :: first :: queue

/- A packet is kept unless it is there. -/
def arrive (queue : List Sent) (sent : Sent) : Outcome Sent :=
  if sent.number ∈ queue.map number then ⟨sent, false, queue⟩
  else ⟨sent, true, arrange queue sent⟩

def outcomes : List Sent → List Event → List (Outcome Sent)
| _, [] => []
| queue, .packet sent :: events => arrive queue sent :: outcomes (arrive queue sent).queue events
| queue, .taken n :: events => outcomes (queue.drop n) events

end Sent

/- A packet comes near the highest number that came so far. -/
def Near : Option Int → List Event → Prop
| _, [] => True
| none, .packet sent :: events => Near (some sent.number) events
| some highest, .packet sent :: events =>
  (sent.number - highest).natAbs < 2 ^ 15 ∧ Near (some (max highest sent.number)) events
| highest, .taken _ :: events => Near highest events

/- A packet where `offset` is added to the whole numbers. -/
def ABuffer.sent (offset : Int) (buffer : ABuffer) : Sent :=
  { number := buffer.int32Data - offset
    rtpTime := buffer.rtpTime
    data := buffer.data }

/-
  The numbers differ as the whole ones do, and a queue that knows these drops and holds the same
  packets.
-/
def Numbered (outcomes : Option (List (Outcome ABuffer))) (events : List Event) : Prop :=
  ∃ found, outcomes = some found ∧
    (∃ offset : Int, found.map (Outcome.map (ABuffer.sent offset)) = Sent.outcomes [] events) ∧
    ∀ outcome ∈ found, outcome.queue.Pairwise (fun p q => p.int32Data < q.int32Data)

/- From the first packet on no number leaves 32 bits. -/
def InRange (events : List Event) : Prop :=
  ∀ first ∈ (packetsOf events).head?,
    ∀ sent ∈ packetsOf events,
      0 ≤ first.number % 2 ^ 16 + (sent.number - first.number) ∧
        first.number % 2 ^ 16 + (sent.number - first.number) < 2 ^ 32

--
-- The Closest Candidate
--

theorem highBits {h : Nat} (hLt : h < 2 ^ 32) : h &&& 0xffff0000 = 2 ^ 16 * (h / 2 ^ 16) := by
  have hMask : 0xffff0000 = 2 ^ 16 * (2 ^ 16 - 1) := rfl
  rw [hMask]
  apply Nat.eq_of_testBit_eq
  intro i
  rw [Nat.testBit_and, Nat.testBit_two_pow_mul,
    Nat.testBit_two_pow_mul, Nat.testBit_two_pow_sub_one, Nat.testBit_div_two_pow]
  by_cases hi : 16 ≤ i
  · rw [Nat.sub_add_cancel hi]
    by_cases hHigh : i - 16 < 16
    · simp [hi, hHigh]
    · have hZero : h.testBit i = false := by
        apply Nat.testBit_lt_two_pow
        exact Nat.lt_of_lt_of_le hLt (Nat.pow_le_pow_right (by omega) (by omega))
      simp [hZero]
  · simp [hi]

theorem lowBits {n : Nat} (hLow : n < 2 ^ 16) (a : Nat) : n ||| 2 ^ 16 * a = 2 ^ 16 * a + n := by
  rw [Nat.or_comm]
  exact (Nat.two_pow_add_eq_or_of_lt hLow a).symm

/- The three candidates as numbers. -/
theorem extended_cases {h n : Nat} (hHigh : h < 2 ^ 32) (hLow : n < 2 ^ 16) :
    let seq1 := 2 ^ 16 * (h / 2 ^ 16) + n
    let seq2 := 2 ^ 16 * ((h / 2 ^ 16 + 1) % 2 ^ 16) + n
    let seq3 :=
      2 ^ 16 * ((h / 2 ^ 16 + (2 ^ 16 - 1)) % 2 ^ 16) + n
    extended h n =
      if AbsDiff seq1 h < AbsDiff seq2 h then if AbsDiff seq1 h < AbsDiff seq3 h then seq1 else seq3
      else if AbsDiff seq2 h < AbsDiff seq3 h then seq2
      else seq3 := by
  have hUp : (2 ^ 16 * (h / 2 ^ 16) + 0x10000) % 2 ^ 32 = 2 ^ 16 * ((h / 2 ^ 16 + 1) % 2 ^ 16) := by
    omega
  have hDown :
      (2 ^ 16 * (h / 2 ^ 16) + (2 ^ 32 - 0x10000)) % 2 ^ 32 =
        2 ^ 16 * ((h / 2 ^ 16 + (2 ^ 16 - 1)) % 2 ^ 16) := by
    omega
  simp only [extended, highBits hHigh, hUp, hDown, lowBits hLow]

theorem extended_lt {h n : Nat} (hHigh : h < 2 ^ 32) (hLow : n < 2 ^ 16) :
    extended h n < 2 ^ 32 := by
  rw [extended_cases hHigh hLow]
  split
  · split
    · omega
    · omega
  · split
    · omega
    · omega

/- Another number with the same low bits is farther away. -/
theorem absDiff_lt {h e c : Nat} (hBelow : h < e + 2 ^ 15) (hAbove : e < h + 2 ^ 15)
    (hLow : c % 2 ^ 16 = e % 2 ^ 16) (hOther : c ≠ e) : AbsDiff e h < AbsDiff c h := by
  unfold AbsDiff
  split
  · split
    · omega
    · omega
  · split
    · omega
    · omega

/- The comparisons choose a candidate that none is closer than. -/
theorem closest_of_three {seq1 seq2 seq3 h e : Nat} (hOne : seq1 ≠ e → AbsDiff e h < AbsDiff seq1 h)
    (hTwo : seq2 ≠ e → AbsDiff e h < AbsDiff seq2 h)
    (hThree : seq3 ≠ e → AbsDiff e h < AbsDiff seq3 h) (hSome : e = seq1 ∨ e = seq2 ∨ e = seq3) :
    (if AbsDiff seq1 h < AbsDiff seq2 h then if AbsDiff seq1 h < AbsDiff seq3 h then seq1 else seq3
      else if AbsDiff seq2 h < AbsDiff seq3 h then seq2 else seq3) = e := by
  by_contra hNe
  split at hNe
  · split at hNe
    · have hFar := hOne hNe
      rcases hSome with rfl | rfl | rfl
      · exact hNe rfl
      · omega
      · omega
    · have hFar := hThree hNe
      rcases hSome with rfl | rfl | rfl
      · omega
      · omega
      · exact hNe rfl
  · split at hNe
    · have hFar := hTwo hNe
      rcases hSome with rfl | rfl | rfl
      · omega
      · exact hNe rfl
      · omega
    · have hFar := hThree hNe
      rcases hSome with rfl | rfl | rfl
      · omega
      · omega
      · exact hNe rfl

/- A number near the highest one is found again. -/
theorem extended_eq {h e : Nat} (hHigh : h < 2 ^ 32) (hRange : e < 2 ^ 32) (hBelow : h < e + 2 ^ 15)
    (hAbove : e < h + 2 ^ 15) : extended h (e % 2 ^ 16) = e := by
  rw [extended_cases hHigh (Nat.mod_lt _ (by omega))]
  have hFar :
      ∀ a, 2 ^ 16 * a + e % 2 ^ 16 ≠ e → AbsDiff e h < AbsDiff (2 ^ 16 * a + e % 2 ^ 16) h := by
    intro a hOther
    exact absDiff_lt hBelow hAbove (by omega) hOther
  have hNear :
      e / 2 ^ 16 = h / 2 ^ 16 ∨ e / 2 ^ 16 = h / 2 ^ 16 + 1 ∨ e / 2 ^ 16 + 1 = h / 2 ^ 16 := by
    omega
  apply closest_of_three (hFar _) (hFar _) (hFar _)
  omega

--
-- Queues under Whole Numbers
--

variable {offset : Int} {queue : List ABuffer} {buffer : ABuffer}

/- The queue is in the order of its numbers. -/
abbrev Sorted (queue : List ABuffer) : Prop :=
  queue.Pairwise (fun p q => p.int32Data < q.int32Data)

theorem ABuffer.sent_number_lt (offset : Int) (p q : ABuffer) :
    (p.sent offset).number < (q.sent offset).number ↔ p.int32Data < q.int32Data := by
  simp only [ABuffer.sent]
  omega

theorem isDuplicate_cons (first : ABuffer) (queue : List ABuffer) (buffer : ABuffer) :
    isDuplicate (first :: queue) buffer =
      if first.int32Data < buffer.int32Data then isDuplicate queue buffer
      else decide (first.int32Data = buffer.int32Data) := by
  unfold isDuplicate
  rw [List.dropWhile_cons]
  by_cases hBefore : first.int32Data < buffer.int32Data
  · simp only [hBefore, decide_true, if_true]
  · simp only [hBefore, decide_false, Bool.false_eq_true, if_false]

/- A packet before the whole queue is not in it. -/
theorem not_isDuplicate (hAll : ∀ packet ∈ queue, buffer.int32Data < packet.int32Data) :
    isDuplicate queue buffer = false := by
  cases queue with
  | nil => rfl
  | cons first queue =>
    have hFirst := hAll first List.mem_cons_self
    rw [isDuplicate_cons, if_neg (by omega)]
    exact decide_eq_false (by omega)

theorem isDuplicate_iff (offset : Int) (buffer : ABuffer) (hSorted : Sorted queue) :
    isDuplicate queue buffer = true ↔
      (buffer.sent offset).number ∈ (queue.map (ABuffer.sent offset)).map Sent.number := by
  induction queue with
  | nil => simp [isDuplicate]
  | cons first queue ih =>
    rcases List.pairwise_cons.mp hSorted with ⟨hLess, hRest⟩
    have hSame :
        (buffer.sent offset).number = (first.sent offset).number ↔
          first.int32Data = buffer.int32Data := by
      simp only [ABuffer.sent]
      omega
    rw [List.map_cons, List.map_cons, List.mem_cons, ← ih hRest, isDuplicate_cons, hSame]
    by_cases hBefore : first.int32Data < buffer.int32Data
    · have hNe : first.int32Data ≠ buffer.int32Data := by
        omega
      simp only [if_pos hBefore, hNe, false_or]
    · have hNone : isDuplicate queue buffer = true →
          first.int32Data = buffer.int32Data := by
        intro hLater
        by_contra hNe
        rw [not_isDuplicate fun packet hMem => by
          have hBehind := hLess packet hMem
          omega] at hLater
        cases hLater
      rw [if_neg hBefore, decide_eq_true_eq]
      exact ⟨Or.inl, fun hAny => hAny.elim id hNone⟩

theorem queuePacket_map (offset : Int) (queue : List ABuffer) (buffer : ABuffer) :
    (queuePacket queue buffer).map (ABuffer.sent offset) =
      if isDuplicate queue buffer then queue.map (ABuffer.sent offset)
      else Sent.arrange (queue.map (ABuffer.sent offset)) (buffer.sent offset) := by
  induction queue with
  | nil => rfl
  | cons first queue ih =>
    rw [queuePacket, isDuplicate_cons, List.map_cons, Sent.arrange]
    simp only [ABuffer.sent_number_lt]
    by_cases hBefore : first.int32Data < buffer.int32Data
    · simp only [if_pos hBefore, List.map_cons, ih]
      split
      · rfl
      · rfl
    · simp only [if_neg hBefore, decide_eq_true_eq]
      split
      · rfl
      · rfl

/- A packet arrives as in the queue of whole numbers. -/
theorem arrive_sent (offset : Int) (buffer : ABuffer) (hSorted : Sorted queue) :
    Outcome.map (ABuffer.sent offset)
        ⟨buffer, !isDuplicate queue buffer, queuePacket queue buffer⟩ =
      Sent.arrive (queue.map (ABuffer.sent offset)) (buffer.sent offset) := by
  have hIff := isDuplicate_iff offset buffer hSorted
  simp only [Outcome.map, queuePacket_map, Sent.arrive, ← hIff]
  cases isDuplicate queue buffer with
  | true => rfl
  | false => rfl

end RTP

--
-- Runs
--

namespace RTP

/- What a packet is numbered as when it is near. -/
theorem transmitted_extended (sent : Sent) {offset : Int} {h : Nat} (hMod : offset % 2 ^ 16 = 0)
    (hHigh : h < 2 ^ 32) (hRange : 0 ≤ sent.number + offset ∧ sent.number + offset < 2 ^ 32)
    (hNear : (sent.number + offset - (h : Int)).natAbs < 2 ^ 15) :
    ((extended h sent.transmitted.int32Data : Nat) : Int) = sent.number + offset := by
  rcases Int.eq_ofNat_of_zero_le hRange.1 with ⟨e, hE⟩
  have hLow : sent.transmitted.int32Data = e % 2 ^ 16 := by
    simp only [Sent.transmitted]
    omega
  rw [hLow, extended_eq hHigh (by omega) (by omega) (by omega)]
  exact hE.symm

/- The highest number and the queue are the whole ones, all moved by one offset. -/
structure Follows (offset highest : Int) (queue : List Sent) (s : ARTPSource) : Prop where
  started : s.mNumBuffersReceived ≠ 0
  bounded : s.mHighestSeqNumber < 2 ^ 32
  highest : (s.mHighestSeqNumber : Int) = highest + offset
  queue : s.mQueue.map (ABuffer.sent offset) = queue
  sorted : Sorted s.mQueue

theorem Follows.queuePacket {offset highest : Int} {queue : List Sent} {s : ARTPSource}
    {sent : Sent} (hMod : offset % 2 ^ 16 = 0) (hFollows : Follows offset highest queue s)
    (hCount : s.mNumBuffersReceived ≠ 2 ^ 31 - 1)
    (hRange : 0 ≤ sent.number + offset ∧ sent.number + offset < 2 ^ 32)
    (hNear : (sent.number - highest).natAbs < 2 ^ 15) :
    ∃ next outcome,
      s.queuePacket sent.transmitted = some (next, outcome) ∧
        next.mNumBuffersReceived = s.mNumBuffersReceived + 1 ∧
        outcome.map (ABuffer.sent offset) = Sent.arrive queue sent ∧ Sorted outcome.queue ∧
        Follows offset (max highest sent.number) (Sent.arrive queue sent).queue next := by
  have hHighest := hFollows.highest
  have hBounded := hFollows.bounded
  have hNumber := transmitted_extended sent hMod hBounded hRange (by omega)
  have hLow : sent.transmitted.int32Data < 2 ^ 16 := by
    simp only [Sent.transmitted]
    omega
  have hLt := extended_lt hBounded hLow
  have hSent : (s.numbered sent.transmitted).sent offset = sent := by
    simp only [ABuffer.sent, ARTPSource.numbered, hNumber]
    simp only [Sent.transmitted, Int.add_sub_cancel]
  have hArrive := arrive_sent offset (s.numbered sent.transmitted) hFollows.sorted
  rw [hFollows.queue, hSent] at hArrive
  have hSorted : Sorted (RTP.queuePacket s.mQueue (s.numbered sent.transmitted)) :=
    queuePacket_sorted hFollows.sorted
  refine
    ⟨_, _, by
      rw [ARTPSource.queuePacket, if_neg hCount, if_neg hFollows.started],
      rfl, hArrive, hSorted, ?_⟩
  refine ⟨Nat.succ_ne_zero _, ?_, ?_, ?_, hSorted⟩
  · by_cases hMore : s.mHighestSeqNumber < (s.numbered sent.transmitted).int32Data
    · simp only [if_pos hMore]
      exact hLt
    · simp only [if_neg hMore]
      exact hBounded
  · have hInt : ((s.numbered sent.transmitted).int32Data : Int) = sent.number + offset := hNumber
    by_cases hMore : s.mHighestSeqNumber < (s.numbered sent.transmitted).int32Data
    · simp only [if_pos hMore]
      omega
    · simp only [if_neg hMore]
      omega
  · rw [← hArrive]
    rfl

theorem Follows.taken {offset highest : Int} {queue : List Sent} {s : ARTPSource}
    (hFollows : Follows offset highest queue s) (n : Nat) :
    Follows offset highest (queue.drop n) { s with mQueue := s.mQueue.drop n } := by
  refine
    ⟨hFollows.started, hFollows.bounded, hFollows.highest,
      ?_, hFollows.sorted.sublist (List.drop_sublist _ _)⟩
  rw [List.map_drop, hFollows.queue]

theorem packetsOf_packet (sent : Sent) (events : List Event) :
    packetsOf (.packet sent :: events) = sent :: packetsOf events :=
  rfl

theorem packetsOf_taken (n : Nat) (events : List Event) :
    packetsOf (.taken n :: events) = packetsOf events :=
  rfl

/- From the first packet on the code follows. -/
theorem Follows.outcomes {offset highest : Int} {queue : List Sent} {s : ARTPSource}
    (events : List Event) (hMod : offset % 2 ^ 16 = 0) (hFollows : Follows offset highest queue s)
    (hCount : s.mNumBuffersReceived + (packetsOf events).length < 2 ^ 31)
    (hRange : ∀ sent ∈ packetsOf events, 0 ≤ sent.number + offset ∧ sent.number + offset < 2 ^ 32)
    (hNear : Near (some highest) events) :
    ∃ found,
      s.outcomes events = some found ∧
        found.map (Outcome.map (ABuffer.sent offset)) = Sent.outcomes queue events ∧
        ∀ outcome ∈ found, Sorted outcome.queue := by
  induction events generalizing highest queue s with
  | nil => exact ⟨[], rfl, rfl, fun _ hMem => by cases hMem⟩
  | cons event events ih =>
    cases event with
    | taken n => exact ih (hFollows.taken n) hCount hRange hNear
    | packet sent =>
      rw [packetsOf_packet] at hCount hRange
      rw [List.length_cons] at hCount
      rcases List.forall_mem_cons.mp hRange with ⟨hFirst, hRest⟩
      rcases hFollows.queuePacket hMod (by omega) hFirst hNear.1 with
        ⟨next, outcome, hStep, hNext, hSame, hSorted, hThen⟩
      rcases ih hThen (by omega) hRest hNear.2 with ⟨found, hFound, hMap, hAll⟩
      refine ⟨outcome :: found, ?_, ?_, ?_⟩
      · rw [ARTPSource.outcomes, hStep]
        simp only [Option.bind_some, hFound, Option.map_some]
      · rw [List.map_cons, hSame, hMap]
        rfl
      · exact List.forall_mem_cons.mpr ⟨hSorted, hAll⟩

/- The first packet sets the offset. -/
theorem first_follows (sent : Sent) :
    ∃ next,
      ARTPSource.new.queuePacket sent.transmitted =
          some (next, ⟨sent.transmitted, true, [sent.transmitted]⟩) ∧
        next.mNumBuffersReceived = 1 ∧
        sent.transmitted.sent (sent.number % 2 ^ 16 - sent.number) = sent ∧
        Follows (sent.number % 2 ^ 16 - sent.number) sent.number [sent] next := by
  have hSent : sent.transmitted.sent (sent.number % 2 ^ 16 - sent.number) = sent := by
    have hLow : ((sent.number % 2 ^ 16).toNat : Int) = sent.number % 2 ^ 16 := by
      omega
    simp only [ABuffer.sent, Sent.transmitted, hLow]
    rw [Int.sub_sub_self]
  refine ⟨_, rfl, rfl, hSent, Nat.one_ne_zero, ?_, ?_, ?_, List.pairwise_singleton _ _⟩
  · simp only [Sent.transmitted]
    omega
  · simp only [Sent.transmitted]
    omega
  · exact congrArg (fun x => [x]) hSent

theorem new_taken (n : Nat) :
    { ARTPSource.new with
      mQueue := ARTPSource.new.mQueue.drop n } =
      ARTPSource.new := by
  simp only [ARTPSource.new, List.drop_nil]

/- Numbers that fit are found again, from the start on. -/
theorem outcomes_numbered {events : List Event} (hNear : Near none events)
    (hCount : (packetsOf events).length < 2 ^ 31) (hRange : InRange events) :
    Numbered (ARTPSource.new.outcomes events) events := by
  induction events with
  | nil => exact ⟨[], rfl, ⟨0, rfl⟩, fun _ hMem => by cases hMem⟩
  | cons event events ih =>
    cases event with
    | taken n =>
      rw [ARTPSource.outcomes, new_taken, Numbered, Sent.outcomes, List.drop_nil]
      exact ih hNear hCount hRange
    | packet sent =>
      rcases first_follows sent with ⟨next, hStep, hOne, hSent, hFollows⟩
      have hAll := hRange sent rfl
      rw [packetsOf_packet] at hCount hAll
      rw [List.length_cons] at hCount
      rcases hFollows.outcomes events (by omega) (by omega)
          (fun other hMem => by
            have hOther := hAll other (List.mem_cons_of_mem _ hMem)
            omega)
          hNear with
        ⟨found, hFound, hMap, hSorted⟩
      refine
        ⟨⟨sent.transmitted, true, [sent.transmitted]⟩ :: found, ?_,
          ⟨sent.number % 2 ^ 16 - sent.number, ?_⟩, ?_⟩
      · rw [ARTPSource.outcomes, hStep]
        simp only [Option.bind_some, hFound, Option.map_some]
      · rw [List.map_cons, hMap, Outcome.map, List.map_singleton, hSent]
        rfl
      · exact List.forall_mem_cons.mpr ⟨List.pairwise_singleton _ _, hSorted⟩

--
-- What No Offset Can Repair
--

/- A number always has 32 bits. -/
theorem outcomes_bounded {s : ARTPSource} {events : List Event} {found : List (Outcome ABuffer)}
    (hBounded : s.mHighestSeqNumber < 2 ^ 32) (hFew : s.mNumBuffersReceived < 2 ^ 31)
    (h : s.outcomes events = some found) :
    s.mNumBuffersReceived + (packetsOf events).length < 2 ^ 31 ∧
      ∀ outcome ∈ found, outcome.packet.int32Data < 2 ^ 32 := by
  induction events generalizing s found with
  | nil =>
    cases h
    exact ⟨hFew, fun _ hMem => by cases hMem⟩
  | cons event events ih =>
    cases event with
    | taken n =>
      exact
        ih (s := { s with mQueue := s.mQueue.drop n })
          hBounded hFew h
    | packet sent =>
      have hLow : sent.transmitted.int32Data < 2 ^ 16 := by
        simp only [Sent.transmitted]
        omega
      have hLt := extended_lt hBounded hLow
      rw [ARTPSource.outcomes, ARTPSource.queuePacket] at h
      by_cases hLast : s.mNumBuffersReceived = 2 ^ 31 - 1
      · rw [if_pos hLast] at h
        cases h
      · rw [if_neg hLast] at h
        rw [packetsOf_packet, List.length_cons]
        by_cases hFirst : s.mNumBuffersReceived = 0
        · rw [if_pos hFirst, Option.bind_some] at h
          rcases Option.map_eq_some_iff.mp h with ⟨rest, hRest, rfl⟩
          rcases ih (by simp only; omega) (by simp only; omega) hRest with ⟨hCount, hAll⟩
          simp only at hCount
          refine ⟨by omega, ?_⟩
          refine List.forall_mem_cons.mpr ⟨?_, hAll⟩
          simp only
          omega
        · rw [if_neg hFirst, Option.bind_some] at h
          rcases Option.map_eq_some_iff.mp h with ⟨rest, hRest, rfl⟩
          have hNext :
              (if s.mHighestSeqNumber < (s.numbered sent.transmitted).int32Data
                  then (s.numbered sent.transmitted).int32Data
                  else s.mHighestSeqNumber) < 2 ^ 32 := by
            split
            · exact hLt
            · exact hBounded
          rcases ih hNext (by simp only; omega) hRest with ⟨hCount, hAll⟩
          simp only at hCount
          refine ⟨by omega, ?_⟩
          exact List.forall_mem_cons.mpr ⟨hLt, hAll⟩

/- A queue of whole numbers answers for every packet. -/
theorem Sent.outcomes_packets (queue : List Sent) (events : List Event) :
    (Sent.outcomes queue events).map Outcome.packet = packetsOf events := by
  induction events generalizing queue with
  | nil => rfl
  | cons event events ih =>
    cases event with
    | taken n => exact ih (queue.drop n)
    | packet sent =>
      rw [Sent.outcomes, List.map_cons, ih, packetsOf_packet]
      congr 1
      unfold Sent.arrive
      split
      · rfl
      · rfl

/- The first packet has the number that came with it. -/
theorem outcomes_head {events : List Event} {first : Sent} {found : List (Outcome ABuffer)}
    (hFirst : first ∈ (packetsOf events).head?) (h : ARTPSource.new.outcomes events = some found) :
    ∃ outcome rest, found = outcome :: rest ∧ outcome.packet = first.transmitted := by
  induction events with
  | nil => cases hFirst
  | cons event events ih =>
    cases event with
    | taken n =>
      rw [ARTPSource.outcomes, new_taken] at h
      exact ih hFirst h
    | packet sent =>
      cases hFirst
      rcases first_follows first with ⟨next, hStep, -⟩
      rw [ARTPSource.outcomes, hStep] at h
      rcases Option.map_eq_some_iff.mp h with ⟨rest, -, rfl⟩
      exact ⟨_, _, rfl, rfl⟩

theorem inRange_of_numbered {events : List Event}
    (h : Numbered (ARTPSource.new.outcomes events) events) :
    (packetsOf events).length < 2 ^ 31 ∧ InRange events := by
  rcases h with ⟨found, hFound, ⟨offset, hMap⟩, -⟩
  rcases outcomes_bounded (s := .new) (by decide) (by decide) hFound with ⟨hCount, hBounded⟩
  have hPackets : found.map (fun outcome => outcome.packet.sent offset) = packetsOf events := by
    rw [← Sent.outcomes_packets [] events, ← hMap, List.map_map]
    rfl
  refine ⟨by rw [ARTPSource.new] at hCount; omega, ?_⟩
  intro first hFirst sent hSent
  rcases outcomes_head hFirst hFound with ⟨outcome, rest, rfl, hHead⟩
  rw [List.map_cons] at hPackets
  have hOffset : (outcome.packet.sent offset).number = first.number := by
    rw [← hPackets] at hFirst
    cases hFirst
    rfl
  rw [hHead] at hOffset
  simp only [ABuffer.sent, Sent.transmitted] at hOffset
  rw [← hPackets, ← List.map_cons (f := fun outcome :
    Outcome ABuffer => outcome.packet.sent offset)] at hSent
  rcases List.mem_map.mp hSent with ⟨other, hOther, rfl⟩
  have hLt := hBounded other hOther
  simp only [ABuffer.sent]
  omega

/-
  The numbers differ as the whole ones do, the queue is in their order and only duplicates are
  dropped, for as long as no whole number, counted from the first packet's 16 bits, leaves 32 bits.
-/
theorem ARTPSource.numbered_iff (events : List Event) (hNear : Near none events) :
    Numbered (ARTPSource.new.outcomes events) events ↔
      (packetsOf events).length < 2 ^ 31 ∧ InRange events :=
  ⟨inRange_of_numbered, fun h => outcomes_numbered hNear h.1 h.2⟩

/- Two packets, and one of them twice. -/
theorem ARTPSource.numbered_twice :
    Numbered
      (ARTPSource.new.outcomes
        [.packet ⟨65535, 0, []⟩, .packet ⟨65536, 0, []⟩, .packet ⟨65535, 0, []⟩])
      [.packet ⟨65535, 0, []⟩, .packet ⟨65536, 0, []⟩, .packet ⟨65535, 0, []⟩] := by
  refine (ARTPSource.numbered_iff _ ?_).mpr ⟨by decide, ?_⟩
  · exact ⟨by decide, by decide, trivial⟩
  · simp [InRange, packetsOf]

/- A packet from before the first one, across a wrap: the next ones are numbered from it. -/
theorem ARTPSource.not_numbered_late :
    let events : List Event :=
      [.packet ⟨65538, 0, []⟩, .packet ⟨65533, 0, []⟩, .packet ⟨65539, 0, []⟩]
    Near none events ∧
      (ARTPSource.new.outcomes events).map
          (List.map (fun outcome =>
            outcome.packet.int32Data)) =
        some [2, 65533, 65539] ∧
      ¬Numbered (ARTPSource.new.outcomes events) events := by
  refine ⟨⟨by decide, by decide, trivial⟩, rfl, fun h => ?_⟩
  have hRange := (inRange_of_numbered h).2
  have hLate := hRange ⟨65538, 0, []⟩ rfl ⟨65533, 0, []⟩ (by simp [packetsOf])
  simp only at hLate
  omega

end RTP

end FrameworksAv
