import FrameworksAv.RTP.Assembler
import Mathlib.Data.List.TakeDrop

/-
  When `onPacketReceived` returns.

  A call goes through the packets with consecutive sequence numbers; it may give up one packet, but
  only before the first of them.

  Main declarations:
    * `taken`, `reached`
    * `Assembler.Progress`
    * `Assembler.Progress.returns_iff`
-/

--
-- Consecutive Packets
--

namespace FrameworksAv

namespace RTP

/- The packets with the next sequence numbers, in a row. -/
def consecutive : Nat → List ABuffer → List ABuffer
| _, [] => []
| next, buffer :: rest =>
  if buffer.int32Data < next then consecutive next rest
  else if buffer.int32Data = next then buffer :: consecutive (increment next) rest
  else []

/- The packets that are assembled one after the other. -/
def taken (expected : Expected) (queue : List ABuffer) : List ABuffer :=
  if expected.mNextExpectedSeqNoValid then consecutive expected.mNextExpectedSeqNo queue
  else
    match queue with
    | [] => []
    | buffer :: rest => buffer :: consecutive (increment buffer.int32Data) rest

variable {expected next : Expected} {queue rest : List ABuffer} {buffer : ABuffer}
variable {status : AssemblyStatus}

theorem consecutive_dropWhile (n : Nat) (queue : List ABuffer) :
    consecutive n (queue.dropWhile (·.int32Data < n)) = consecutive n queue := by
  induction queue with
  | nil => rfl
  | cons buffer queue ih =>
    by_cases hPassed : buffer.int32Data < n
    · rw [List.dropWhile_cons_of_pos (by simpa using hPassed), ih, consecutive, if_pos hPassed]
    · rw [List.dropWhile_cons_of_neg (by simpa using hPassed)]

theorem taken_erasePassed : taken expected (erasePassed expected queue) = taken expected queue := by
  unfold taken erasePassed
  cases hValid : expected.mNextExpectedSeqNoValid with
  | true =>
    simp only [if_true]
    exact consecutive_dropWhile _ queue
  | false => rfl

theorem erasePassed_length : (erasePassed expected queue).length ≤ queue.length := by
  unfold erasePassed
  cases expected.mNextExpectedSeqNoValid with
  | true => exact (List.dropWhile_suffix _).length_le
  | false => exact Nat.le_refl _

/- The packet at the front is the next one. -/
theorem front_packet (hFront : front expected queue = .packet next buffer rest) :
    next = ⟨true, buffer.int32Data⟩ ∧ erasePassed expected queue = buffer :: rest ∧
      (expected.mNextExpectedSeqNoValid = true →
        expected.mNextExpectedSeqNo = buffer.int32Data) := by
  unfold front at hFront
  cases hQueue : erasePassed expected queue with
  | nil =>
    rw [hQueue] at hFront
    cases hFront
  | cons first others =>
    rw [hQueue] at hFront
    simp only at hFront
    cases hValid : expected.mNextExpectedSeqNoValid with
    | false =>
      rw [if_pos hValid] at hFront
      cases hFront
      exact ⟨rfl, rfl, nofun⟩
    | true =>
      have hSet : ¬expected.mNextExpectedSeqNoValid = false := by
        rw [hValid]
        decide
      rw [if_neg hSet] at hFront
      by_cases hWrong :
          first.int32Data ≠ expected.mNextExpectedSeqNo
      · rw [if_pos hWrong] at hFront
        cases hFront
      · rw [if_neg hWrong] at hFront
        cases hFront
        have hSame := not_not.mp hWrong
        refine ⟨?_, rfl, fun _ => hSame.symm⟩
        rw [hSame, ← hValid]

theorem front_stop (hFront : front expected queue = .stop status rest) :
    (status = .NOT_ENOUGH_DATA ∧ rest = [] ∨
      status = .WRONG_SEQUENCE_NUMBER ∧ expected.mNextExpectedSeqNoValid = true) ∧
      taken expected queue = [] ∧ rest.length ≤ queue.length := by
  have hTaken := @taken_erasePassed expected queue
  have hLength := @erasePassed_length expected queue
  unfold front at hFront
  cases hQueue : erasePassed expected queue with
  | nil =>
    rw [hQueue] at hFront hTaken
    cases hFront
    refine ⟨.inl ⟨rfl, rfl⟩, ?_, Nat.zero_le _⟩
    rw [← hTaken]
    unfold taken
    cases expected.mNextExpectedSeqNoValid <;> rfl
  | cons first others =>
    rw [hQueue] at hFront hTaken hLength
    simp only at hFront
    cases hValid : expected.mNextExpectedSeqNoValid with
    | false =>
      rw [if_pos hValid] at hFront
      cases hFront
    | true =>
      have hSet : ¬expected.mNextExpectedSeqNoValid = false := by
        rw [hValid]
        decide
      rw [if_neg hSet] at hFront
      by_cases hWrong :
          first.int32Data ≠ expected.mNextExpectedSeqNo
      · rw [if_pos hWrong] at hFront
        cases hFront
        refine ⟨.inr ⟨rfl, rfl⟩, ?_, hLength⟩
        rw [← hTaken, taken, if_pos hValid, consecutive]
        have hNotPassed : ¬first.int32Data < expected.mNextExpectedSeqNo := by
          have hHead :=
            List.head?_dropWhile_not
              (fun buffer : ABuffer =>
                decide (buffer.int32Data < expected.mNextExpectedSeqNo)) queue
          rw [erasePassed, if_pos hValid] at hQueue
          rw [hQueue] at hHead
          exact of_decide_eq_false hHead
        rw [if_neg hNotPassed, if_neg hWrong]
      · rw [if_neg hWrong] at hFront
        cases hFront

theorem taken_packet (hFront : front expected queue = .packet next buffer rest) :
    taken expected queue = buffer :: taken next.next rest := by
  rcases front_packet hFront with ⟨rfl, hQueue, hSame⟩
  rw [← taken_erasePassed, hQueue]
  have hRest :
      taken (Expected.next ⟨true, buffer.int32Data⟩) rest =
        consecutive (increment buffer.int32Data) rest :=
    rfl
  rw [hRest]
  unfold taken
  cases hValid : expected.mNextExpectedSeqNoValid with
  | false => rfl
  | true =>
    simp only [if_true]
    rw [hSame hValid, consecutive, if_neg (Nat.lt_irrefl _), if_pos rfl]

/- A packet that stays is at the front again. -/
theorem front_again (hFront : front expected queue = .packet next buffer rest) :
    front next (buffer :: rest) = .packet next buffer rest := by
  rcases front_packet hFront with ⟨rfl, _, _⟩
  have hErase : erasePassed ⟨true, buffer.int32Data⟩ (buffer :: rest) = buffer :: rest := by
    rw [erasePassed, if_pos rfl]
    exact List.dropWhile_cons_of_neg (by simp)
  unfold front
  rw [hErase]
  simp only [Bool.true_eq_false, if_false, ne_eq, not_true]

theorem front_packet_length (hFront : front expected queue = .packet next buffer rest) :
    rest.length < queue.length := by
  have hLength := @erasePassed_length expected queue
  rw [(front_packet hFront).2.1, List.length_cons] at hLength
  omega

end RTP

--
-- Receiving
--

namespace RTP

/- A packet can be given up when one is expected. -/
theorem Expected.packetLost_valid {expected : Expected}
    (hValid : expected.mNextExpectedSeqNoValid = true) :
    expected.packetLost = .returns expected.next := by
  rw [packetLost, Result.check, if_pos hValid]

variable {σ : Type} {A : Assembler σ} {nowUs : Nat → Int}

/- It is time to give up the packet that is waited for. -/
def Late (nowUs : Nat → Int) (s : Reception σ) : Prop :=
  0 ≤ s.mFirstFailureTimeUs ∧ 10000 < nowUs s.readings - s.mFirstFailureTimeUs

instance (nowUs : Nat → Int) (s : Reception σ) : Decidable (Late nowUs s) :=
  inferInstanceAs (Decidable (_ ∧ _))

namespace Reception

/- After a packet was assembled. -/
def assembled (s : Reception σ) (assembler : σ) (queue : List ABuffer) : Reception σ :=
  { s with
    mFirstFailureTimeUs := -1,
    assembler := assembler,
    queue := queue }

/- After a packet was given up. -/
def lost (s : Reception σ) (assembler : σ) (queue : List ABuffer) : Reception σ :=
  { s.assembled assembler queue with
    readings := s.readings + 1 }

/- A packet is waited for only once. -/
def remaining (s : Reception σ) : Nat :=
  2 * s.queue.length + if 0 ≤ s.mFirstFailureTimeUs then 1 else 0

theorem remaining_assembled (s : Reception σ) (assembler : σ) (queue : List ABuffer) :
    (s.assembled assembler queue).remaining = 2 * queue.length :=
  rfl

theorem remaining_lost (s : Reception σ) (assembler : σ) (queue : List ABuffer) :
    (s.lost assembler queue).remaining = 2 * queue.length :=
  rfl

end Reception

namespace Assembler

variable {fuel : Nat} {s : Reception σ} {assembler lost : σ} {queue : List ABuffer}
variable {status : AssemblyStatus}

theorem receiveTurn_assembled
    (hMore : A.assembleMore fuel s.assembler s.queue = .returns (status, assembler, queue))
    (hStatus : status = .OK ∨ status = .MALFORMED_PACKET) :
    A.receiveTurn nowUs fuel s = .returns (.inl (s.assembled assembler queue)) := by
  rw [receiveTurn, hMore]
  rcases hStatus with rfl | rfl <;> rfl

theorem receiveTurn_empty
    (hMore :
      A.assembleMore fuel s.assembler s.queue = .returns (.NOT_ENOUGH_DATA, assembler, queue)) :
    A.receiveTurn nowUs fuel s = .returns (.inr (s.assembled assembler queue)) := by
  rw [receiveTurn, hMore]
  rfl

theorem receiveTurn_late
    (hMore :
      A.assembleMore fuel s.assembler s.queue = .returns (.WRONG_SEQUENCE_NUMBER, assembler, queue))
    (hLate : Late nowUs s) :
    A.receiveTurn nowUs fuel s = (A.packetLost assembler).bind fun assembler =>
        .returns (.inl (s.lost assembler queue)) := by
  rw [receiveTurn, hMore]
  simp only [Result.bind_returns]
  rw [if_pos hLate.1, if_pos hLate.2]
  rfl

theorem receiveTurn_waits
    (hMore :
      A.assembleMore fuel s.assembler s.queue = .returns (.WRONG_SEQUENCE_NUMBER, assembler, queue))
    (hLate : ¬Late nowUs s) : ∃ final, A.receiveTurn nowUs fuel s = .returns (.inr final) := by
  rw [receiveTurn, hMore]
  simp only [Result.bind_returns]
  by_cases hSince : 0 ≤ s.mFirstFailureTimeUs
  · rw [if_pos hSince, if_neg (fun hOver => hLate ⟨hSince, hOver⟩)]
    exact ⟨_, rfl⟩
  · rw [if_neg hSince]
    exact ⟨_, rfl⟩

/- Every step returns, and a packet is erased or it stops. -/
def Steps (A : Assembler σ) : Prop :=
  ∀ s queue, ∃ status t left,
    Reaches (fun fuel => A.assembleMore fuel s queue) (status, t, left) ∧
      (status = .OK ∨ status = .MALFORMED_PACKET →
        left.length < queue.length)

/-
  A call returns when every step from a good state returns, and a step that asks for another one
  erases a packet.
-/
theorem returns_of_good (good : Reception σ → Prop)
    (hStep :
      ∀ s, good s →
        ∃ status assembler queue,
          Reaches
            (fun fuel =>
              A.assembleMore fuel s.assembler s.queue)
            (status, assembler, queue) ∧
          queue.length ≤ s.queue.length ∧
          (status = .OK ∨ status = .MALFORMED_PACKET →
            queue.length < s.queue.length ∧ good (s.assembled assembler queue)) ∧
          (status = .WRONG_SEQUENCE_NUMBER → Late nowUs s →
            ∃ lost, A.packetLost assembler = .returns lost ∧ good (s.lost lost queue)))
    (hGood : good s) : A.Returns nowUs s := by
  refine Reaches.loop Reception.remaining ?_ hGood
  intro s hGood
  rcases hStep s hGood with ⟨status, assembler, queue, ⟨enough, hMore⟩, hLength, hGoes, hLost⟩
  have hMore :
      ∀ fuel, enough ≤ fuel →
        A.assembleMore fuel s.assembler s.queue = .returns (status, assembler, queue) :=
    hMore
  have hAssembled :
      status = .OK ∨ status = .MALFORMED_PACKET →
        ∃ t,
          Reaches (fun fuel => A.receiveTurn nowUs fuel s) (.inl t) ∧
            good t ∧ t.remaining < s.remaining := by
    intro hStatus
    refine ⟨s.assembled assembler queue, ⟨enough, ?_⟩, (hGoes hStatus).2, ?_⟩
    · intro fuel hFuel
      exact receiveTurn_assembled (hMore fuel hFuel) hStatus
    · have hLess := (hGoes hStatus).1
      rw [Reception.remaining_assembled, Reception.remaining]
      omega
  cases status with
  | OK => exact .inl (hAssembled (.inl rfl))
  | MALFORMED_PACKET => exact .inl (hAssembled (.inr rfl))
  | NOT_ENOUGH_DATA =>
    refine .inr ⟨s.assembled assembler queue, enough, ?_⟩
    intro fuel hFuel
    exact receiveTurn_empty (hMore fuel hFuel)
  | WRONG_SEQUENCE_NUMBER =>
    by_cases hLate : Late nowUs s
    · rcases hLost rfl hLate with ⟨lost, hPacket, hNext⟩
      refine .inl ⟨s.lost lost queue, ⟨enough, ?_⟩, hNext, ?_⟩
      · intro fuel hFuel
        show A.receiveTurn nowUs fuel s = _
        rw [receiveTurn_late (hMore fuel hFuel) hLate, hPacket]
        rfl
      · rw [Reception.remaining_lost, Reception.remaining, if_pos hLate.1]
        omega
    · rcases receiveTurn_waits (hMore enough (Nat.le_refl _)) hLate with ⟨final, hFinal⟩
      refine .inr ⟨final, enough, ?_⟩
      intro fuel hFuel
      have hSame : A.receiveTurn nowUs fuel s = A.receiveTurn nowUs enough s := by
        rw [receiveTurn, receiveTurn, hMore fuel hFuel, hMore enough (Nat.le_refl _)]
      exact hSame.trans hFinal

end Assembler

end RTP

--
-- One Packet after the Other
--

namespace RTP

variable {σ : Type}

/- The packets that a call assembles if it accepts them. -/
def reached (nowUs : Nat → Int) (expected : Expected) (s : Reception σ) : List ABuffer :=
  match front expected s.queue with
  | .stop .WRONG_SEQUENCE_NUMBER queue => if Late nowUs s then taken expected.next queue else []
  | _ => taken expected s.queue

namespace Assembler

/- An assembler that takes one packet in a step and that accepts some packets and not others. -/
structure Progress (A : Assembler σ) (expected : σ → Expected)
    (accepts : σ → List ABuffer → Prop) : Prop where
  nil : ∀ s, accepts s []
  stop :
    ∀ fuel s queue status rest,
      front (expected s) queue = .stop status rest →
        A.assembleMore fuel s queue = .returns (status, s, rest)
  take :
    ∀ s queue next buffer rest more,
      front (expected s) queue = .packet next buffer rest →
        accepts s (buffer :: more) →
          ∃ t,
            Reaches (fun fuel => A.assembleMore fuel s queue) (.OK, t, rest) ∧
              expected t = next.next ∧ accepts t more
  refuse :
    ∀ fuel s queue next buffer rest more status t left,
      front (expected s) queue = .packet next buffer rest →
        ¬accepts s (buffer :: more) →
          A.assembleMore fuel s queue = .returns (status, t, left) →
            status = .OK ∧ left = rest ∧ expected t = next.next ∧ ¬accepts t more ∨
              status = .MALFORMED_PACKET ∧
                left = buffer :: rest ∧ expected t = next ∧ ¬accepts t (buffer :: more)
  lost :
    ∀ s, (expected s).mNextExpectedSeqNoValid = true →
      ∃ t,
        A.packetLost s = .returns t ∧ expected t = (expected s).next ∧
          ∀ packets, accepts t packets ↔ accepts s packets

namespace Progress

variable {A : Assembler σ} {nowUs : Nat → Int} {expected : σ → Expected}
variable {accepts : σ → List ABuffer → Prop} {s : Reception σ} {e next : Expected}
variable {queue rest : List ABuffer} {buffer : ABuffer} {status : AssemblyStatus}

/- Without a packet to be given up. -/
theorem reached_eq_taken (hLate : ¬Late nowUs s) : reached nowUs e s = taken e s.queue := by
  unfold reached
  cases hFront : front e s.queue with
  | packet next buffer rest => rfl
  | stop status rest =>
    have hNone := (front_stop hFront).2.1
    cases status with
    | WRONG_SEQUENCE_NUMBER =>
      simp only
      rw [if_neg hLate, hNone]
    | MALFORMED_PACKET => rfl
    | NOT_ENOUGH_DATA => rfl
    | OK => rfl

theorem reached_packet (hFront : front e s.queue = .packet next buffer rest) :
    reached nowUs e s = buffer :: taken next.next rest := by
  rw [reached, hFront]
  exact taken_packet hFront

theorem reached_stop (hFront : front e s.queue = .stop status rest) :
    reached nowUs e s = if status = .WRONG_SEQUENCE_NUMBER ∧ Late nowUs s then taken e.next rest
      else [] := by
  have hNone := (front_stop hFront).2.1
  rw [reached, hFront]
  cases status with
  | WRONG_SEQUENCE_NUMBER => simp only [true_and]
  | MALFORMED_PACKET => exact hNone
  | NOT_ENOUGH_DATA => exact hNone
  | OK => exact hNone

theorem not_late_assembled (assembler : σ) (queue : List ABuffer) :
    ¬Late nowUs (s.assembled assembler queue) :=
  fun hLate => absurd hLate.1 (by simp [Reception.assembled])

theorem not_late_lost (assembler : σ) (queue : List ABuffer) :
    ¬Late nowUs (s.lost assembler queue) :=
  fun hLate => absurd hLate.1 (by simp [Reception.lost, Reception.assembled])

/- What the assembler does not accept it does not get over. -/
theorem never_returns (hProgress : A.Progress expected accepts) (fuel : Nat) (final : Reception σ)
    (hRefused : ¬accepts s.assembler (reached nowUs (expected s.assembler) s)) :
    A.onPacketReceived nowUs fuel s ≠ .returns final := by
  refine Result.loop_never
    (fun s =>
      ¬accepts s.assembler (reached nowUs (expected s.assembler) s)) ?_ fuel
    hRefused
  intro fuel s turn hRefused hTurn
  cases hFront : front (expected s.assembler) s.queue with
  | packet next buffer rest =>
    rw [reached_packet hFront] at hRefused
    rw [receiveTurn, Result.bind_eq_returns] at hTurn
    rcases hTurn with ⟨⟨status, t, left⟩, hMore, hTurn⟩
    have hStep :=
      hProgress.refuse fuel s.assembler s.queue next buffer
        rest _ status t left hFront hRefused hMore
    rcases hStep with ⟨rfl, rfl, hNext, hStill⟩ | ⟨rfl, rfl, hSame, hStill⟩
    · cases hTurn
      refine ⟨_, rfl, ?_⟩
      have hReached :=
        @reached_eq_taken σ nowUs (s.assembled t left) (expected t) (not_late_assembled t left)
      show ¬accepts t (reached nowUs (expected t) (s.assembled t left))
      rw [hReached, hNext]
      exact hStill
    · cases hTurn
      refine ⟨_, rfl, ?_⟩
      have hAgain :
          reached nowUs (expected t) (s.assembled t (buffer :: rest)) =
            buffer :: taken next.next rest := by
        refine reached_packet ?_
        rw [hSame]
        exact front_again hFront
      show ¬accepts t (reached nowUs (expected t) (s.assembled t (buffer :: rest)))
      rw [hAgain]
      exact hStill
  | stop status rest =>
    rw [reached_stop hFront] at hRefused
    have hMore := hProgress.stop fuel s.assembler s.queue status rest hFront
    by_cases hLost : status = .WRONG_SEQUENCE_NUMBER ∧ Late nowUs s
    · rw [if_pos hLost] at hRefused
      rcases hLost with ⟨rfl, hLate⟩
      rcases (front_stop hFront).1 with ⟨hNot, _⟩ | ⟨_, hValid⟩
      · cases hNot
      rcases hProgress.lost s.assembler hValid with ⟨t, hPacket, hNext, hSame⟩
      rw [receiveTurn_late hMore hLate, hPacket] at hTurn
      cases hTurn
      refine ⟨_, rfl, ?_⟩
      have hReached := @reached_eq_taken σ nowUs (s.lost t rest) (expected t) (not_late_lost t rest)
      show ¬accepts t (reached nowUs (expected t) (s.lost t rest))
      rw [hReached, hNext, hSame]
      exact hRefused
    · rw [if_neg hLost] at hRefused
      exact absurd (hProgress.nil _) hRefused

/- Accepting the packets of a call is what it takes. -/
theorem returns_iff (hProgress : A.Progress expected accepts) :
    A.Returns nowUs s ↔ accepts s.assembler (reached nowUs (expected s.assembler) s) := by
  constructor
  · rintro ⟨final, hReaches⟩
    rcases hReaches.returns with ⟨fuel, hReturns⟩
    by_contra hRefused
    exact hProgress.never_returns fuel final hRefused hReturns
  refine returns_of_good
    (fun s =>
      accepts s.assembler (reached nowUs (expected s.assembler) s)) ?_
  intro s hAccepts
  cases hFront : front (expected s.assembler) s.queue with
  | packet next buffer rest =>
    rw [reached_packet hFront] at hAccepts
    have hLess := front_packet_length hFront
    rcases hProgress.take s.assembler s.queue next buffer rest
      _ hFront hAccepts with ⟨t, hMore, hNext, hRest⟩
    refine ⟨.OK, t, rest, hMore, by omega, ?_, nofun⟩
    intro _
    refine ⟨hLess, ?_⟩
    have hReached :=
      @reached_eq_taken σ nowUs (s.assembled t rest) (expected t) (not_late_assembled t rest)
    show accepts t (reached nowUs (expected t) (s.assembled t rest))
    rw [hReached, hNext]
    exact hRest
  | stop status rest =>
    rcases front_stop hFront with ⟨hStatus, _, hLength⟩
    refine ⟨status, s.assembler, rest,
      .of_eq (fun fuel =>
        hProgress.stop fuel _ _ _ _ hFront), hLength, ?_, ?_⟩
    · rintro (rfl | rfl) <;>
        rcases hStatus with ⟨hNot, _⟩ | ⟨hNot, _⟩ <;>
        cases hNot
    · rintro rfl hLate
      rcases hStatus with ⟨hNot, _⟩ | ⟨_, hValid⟩
      · cases hNot
      rcases hProgress.lost s.assembler hValid with ⟨t, hPacket, hNext, hSame⟩
      rw [reached_stop hFront, if_pos ⟨rfl, hLate⟩] at hAccepts
      refine ⟨t, hPacket, ?_⟩
      have hReached := @reached_eq_taken σ nowUs (s.lost t rest) (expected t) (not_late_lost t rest)
      show accepts t (reached nowUs (expected t) (s.lost t rest))
      rw [hReached, hNext, hSame]
      exact hAccepts

end Progress

end Assembler

end RTP

end FrameworksAv
