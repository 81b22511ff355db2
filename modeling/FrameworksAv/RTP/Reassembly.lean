import FrameworksAv.RTP.Delivery

/-
  What an AVC assembler delivers of what was sent.

  The next expected sequence number says how far the assembler came: the units that were delivered
  are among those sent before it, in their order. When no packet is lost it stands where a carrier
  begins, and everything before it was delivered.

  Main declarations:
    * `sentBefore`
    * `Assembled`, `Safe`, `Safe.handled`
    * `InOrder`, `Whole`, `assembled_safe`
    * `runs_safe`, `reassembly`
-/

--
-- What was sent before a number
--

namespace FrameworksAv

namespace RTP

/- The units of the carriers that end before a number. -/
def sentBefore (n : Nat) : Nat → List Carrier → List (Nat × List Byte)
| _, [] => []
| seqNo, carrier :: carriers =>
  if seqNo + carrier.count ≤ n then carrier.sent ++ sentBefore n (seqNo + carrier.count) carriers
  else []

theorem Carrier.count_pos (carrier : Carrier) : 0 < carrier.count := by
  unfold Carrier.count
  cases carrier with
  | single time unit => exact Nat.zero_lt_one
  | aggregate time nri units hSome => exact Nat.zero_lt_one
  | fragments time unit first middle last hPieces => exact Nat.succ_pos _

theorem total_append (before behind : List Carrier) :
    total (before ++ behind) = total before + total behind := by
  unfold total
  rw [List.map_append, List.sum_append]

theorem sentBefore_sublist {n m : Nat} (hLess : n ≤ m) (seqNo : Nat) (carriers : List Carrier) :
    (sentBefore n seqNo carriers).Sublist (sentBefore m seqNo carriers) := by
  induction carriers generalizing seqNo with
  | nil => exact List.Sublist.refl _
  | cons carrier carriers ih =>
    unfold sentBefore
    split
    · rename_i hEnds
      rw [if_pos (hEnds.trans hLess)]
      exact (List.Sublist.refl _).append (ih _)
    · exact List.nil_sublist _

theorem sentBefore_sublist_all (n seqNo : Nat) (carriers : List Carrier) :
    (sentBefore n seqNo carriers).Sublist (carriers.flatMap Carrier.sent) := by
  induction carriers generalizing seqNo with
  | nil => exact List.Sublist.refl _
  | cons carrier carriers ih =>
    unfold sentBefore
    split
    · exact (List.Sublist.refl _).append (ih _)
    · exact List.nil_sublist _

/- Where a carrier begins, all before it were sent. -/
theorem sentBefore_boundary (seqNo : Nat) (before behind : List Carrier) :
    sentBefore (seqNo + total before) seqNo (before ++ behind) = before.flatMap Carrier.sent := by
  induction before generalizing seqNo with
  | nil =>
    cases behind with
    | nil => exact rfl
    | cons carrier behind =>
      have hPos := carrier.count_pos
      show (if seqNo + carrier.count ≤ seqNo + 0 then _ else []) = []
      exact if_neg (by omega)
  | cons carrier before ih =>
    rw [List.cons_append, sentBefore, total_cons, if_pos (by omega), ← Nat.add_assoc, ih]
    exact rfl

theorem sentBefore_carrier (seqNo : Nat) (before : List Carrier) (carrier : Carrier)
    (behind : List Carrier) :
    sentBefore (seqNo + total before) seqNo (before ++ carrier :: behind) ++ carrier.sent =
      sentBefore (seqNo + total before + carrier.count) seqNo (before ++ carrier :: behind) := by
  have hSplit : before ++ carrier :: behind = (before ++ [carrier]) ++ behind := by
    rw [List.append_assoc]
    exact rfl
  have hTotal : seqNo + total before + carrier.count = seqNo + total (before ++ [carrier]) := by
    rw [total_append, total_cons]
    exact Nat.add_assoc _ _ _
  rw [sentBefore_boundary, hTotal, hSplit, sentBefore_boundary, List.flatMap_append]
  simp

--
-- A call of `assembleMore`
--

open AAVCAssembler (Output)

/- The packets in the queue are some of those sent, sorted. -/
structure Queued (stream : Stream) (queue : List ABuffer) : Prop where
  sorted : queue.Pairwise (fun p q => p.int32Data < q.int32Data)
  sent : ∀ packet ∈ queue, packet ∈ stream.packets

/-
  What a call does: it stops at the front of the queue, or handles the packet there, of whatever
  carrier it is.
-/
inductive Assembled (stream : Stream) (r : Receiver) (delivered : List ABuffer) :
    AssemblyStatus → Receiver → Prop
| empty (hQueue : erasePassed r.assembler.expected r.queue = []) :
    Assembled stream r delivered .NOT_ENOUGH_DATA { r with queue := [] }
| stopped {buffer : ABuffer} {rest : List ABuffer}
    (hQueue : erasePassed r.assembler.expected r.queue = buffer :: rest)
    (hValid : r.assembler.expected.mNextExpectedSeqNoValid = true)
    (hLater : r.assembler.expected.mNextExpectedSeqNo < buffer.int32Data) :
    Assembled stream r delivered .WRONG_SEQUENCE_NUMBER { r with queue := buffer :: rest }
| handled {status : AssemblyStatus} {next : Receiver} {t : AAVCAssembler} {buffer : ABuffer}
    {rest : List ABuffer} (hQueue : erasePassed r.assembler.expected r.queue = buffer :: rest)
    (hSame :
      r.assembler.expected.mNextExpectedSeqNoValid = true →
        r.assembler.expected.mNextExpectedSeqNo = buffer.int32Data)
    (hPosted : next.assembler.posted = t.posted)
    (hTime :
      next.assembler.mAccessUnitRTPTime = t.mAccessUnitRTPTime)
    (hUnits : next.assembler.mNALUnits = t.mNALUnits)
    (hExpected : next.assembler.expected = t.expected)
    (hHandled :
      ∀ before carrier behind, stream.carriers = before ++ carrier :: behind →
        buffer ∈ carrier.packets (stream.firstSeqNo + total before) →
        Handled carrier (stream.firstSeqNo + total before)
          { r.assembler with
            expected := ⟨true, buffer.int32Data⟩ }
          delivered buffer rest (status, t, next.queue)) :
    Assembled stream r delivered status next

/- What is left behind the packets that are too late. -/
theorem erasePassed_spec (expected : Expected) {queue : List ABuffer}
    (hSorted : queue.Pairwise (fun p q => p.int32Data < q.int32Data)) :
    (erasePassed expected queue).Sublist queue ∧
      (expected.mNextExpectedSeqNoValid = true →
        ∀ packet ∈ erasePassed expected queue, expected.mNextExpectedSeqNo ≤ packet.int32Data) ∧
      ∀ packet ∈ queue,
        (expected.mNextExpectedSeqNoValid = true → expected.mNextExpectedSeqNo ≤ packet.int32Data) →
        packet ∈ erasePassed expected queue := by
  unfold erasePassed
  cases hValid : expected.mNextExpectedSeqNoValid with
  | false => exact ⟨List.Sublist.refl _, by rintro ⟨⟩, fun packet hMember _ => hMember⟩
  | true =>
    simp only [if_true, forall_const]
    refine ⟨(List.dropWhile_suffix _).sublist, ?_, ?_⟩
    · intro packet hMember
      induction queue with
      | nil => exact absurd hMember List.not_mem_nil
      | cons first queue ih =>
        rcases List.pairwise_cons.mp hSorted with ⟨hLess, hRest⟩
        rw [List.dropWhile_cons] at hMember
        split at hMember
        · exact ih hRest hMember
        · rename_i hNot
          have hFirst :
              expected.mNextExpectedSeqNo ≤
                first.int32Data := by
            simpa using hNot
          rcases List.mem_cons.mp hMember with
            rfl | hLater
          · exact hFirst
          · exact hFirst.trans (Nat.le_of_lt (hLess packet hLater))
    · intro packet hMember hFrom
      have hSplit :=
        List.takeWhile_append_dropWhile
          (p := fun buffer : ABuffer =>
            decide (buffer.int32Data < expected.mNextExpectedSeqNo)) (l := queue)
      rw [← hSplit] at hMember
      rcases List.mem_append.mp hMember with hPassed | hLeft
      · have hBefore := List.all_eq_true.mp List.all_takeWhile packet hPassed
        simp only [decide_eq_true_eq] at hBefore
        omega
      · exact hLeft

theorem packets_of_carrier {stream : Stream} {before : List Carrier} {carrier : Carrier}
    {behind : List Carrier} (hCarriers : stream.carriers = before ++ carrier :: behind) :
    ∀ packet ∈ carrier.packets (stream.firstSeqNo + total before), packet ∈ stream.packets := by
  intro packet hMember
  unfold Stream.packets
  rw [hCarriers]
  clear hCarriers
  generalize stream.firstSeqNo = seqNo at hMember ⊢
  induction before generalizing seqNo with
  | nil => exact List.mem_append_left _ hMember
  | cons first before ih =>
    apply List.mem_append_right
    rw [total_cons, ← Nat.add_assoc] at hMember
    exact ih (seqNo + first.count) hMember

section Call

variable {stream : Stream} {r next : Receiver} {status : AssemblyStatus} {delivered : List ABuffer}
variable {groups : List (Nat × List ABuffer)}

/- The packet at the front, taken as one of a carrier. -/
theorem addPacket_handled {buffer : ABuffer} {rest : List ABuffer}
    (hQueued : Queued stream (buffer :: rest)) (hOutput : Output r.assembler delivered groups)
    {before : List Carrier} {carrier : Carrier} {behind : List Carrier}
    (hCarriers : stream.carriers = before ++ carrier :: behind)
    (hPacket : buffer ∈ carrier.packets (stream.firstSeqNo + total before)) :
    ∃ value,
      Reaches
          (fun fuel =>
            AAVCAssembler.addPacket fuel
              { r.assembler with
                expected := ⟨true, buffer.int32Data⟩ }
              buffer rest)
          value ∧
        Handled carrier (stream.firstSeqNo + total before)
          { r.assembler with
            expected := ⟨true, buffer.int32Data⟩ }
          delivered buffer rest value := by
  have hRoom := stream.hRoom
  rw [hCarriers, total_append, total_cons] at hRoom
  refine AAVCAssembler.addPacket_sent carrier hPacket
    (by omega) rfl (hOutput.congr rfl rfl rfl) hQueued.sorted ?_
  intro p hMember q hSent hSame
  exact eq_of_sorted (packetsFrom_sorted stream.firstSeqNo stream.carriers)
    (hQueued.sent p (List.mem_cons_of_mem _ hMember)) (packets_of_carrier hCarriers q hSent) hSame

/- Where a call finds the front of its queue. -/
theorem front_cases (expected : Expected) (queue : List ABuffer) :
    (erasePassed expected queue = [] ∧ front expected queue = .stop .NOT_ENOUGH_DATA []) ∨
      ∃ buffer rest, erasePassed expected queue = buffer :: rest ∧
        ((expected.mNextExpectedSeqNoValid = true ∧ buffer.int32Data ≠ expected.mNextExpectedSeqNo ∧
            front expected queue = .stop .WRONG_SEQUENCE_NUMBER (buffer :: rest)) ∨
          ((expected.mNextExpectedSeqNoValid = true →
              expected.mNextExpectedSeqNo = buffer.int32Data) ∧
            front expected queue = .packet ⟨true, buffer.int32Data⟩ buffer rest)) := by
  unfold front
  cases hQueue : erasePassed expected queue with
  | nil => exact .inl ⟨rfl, rfl⟩
  | cons buffer rest =>
    refine .inr ⟨buffer, rest, rfl, ?_⟩
    dsimp only
    rcases expected with ⟨valid, number⟩
    cases valid with
    | false => exact .inr ⟨by rintro ⟨⟩, if_pos rfl⟩
    | true =>
      dsimp only
      rw [if_neg Bool.noConfusion]
      by_cases hSame : buffer.int32Data = number
      · right
        rw [if_neg (not_not.mpr hSame), hSame]
        exact ⟨fun _ => rfl, rfl⟩
      · left
        exact ⟨rfl, hSame, if_pos hSame⟩

/- A call handles the packet in front, or stops. -/
theorem AAVCAssembler.assembleMore_eq (s : AAVCAssembler) (fuel : Nat) (queue : List ABuffer) :
    s.assembleMore fuel queue =
      (match front s.expected queue with
        | .stop status rest => Result.returns (status, s, rest)
        | .packet expected buffer rest =>
          AAVCAssembler.addPacket fuel { s with expected := expected } buffer rest).bind
        fun (status, s, queue) =>
          Result.returns
            (status,
              if status = AssemblyStatus.MALFORMED_PACKET then { s with mAccessUnitDamaged := true }
              else s, queue) :=
  rfl

theorem assembled (hQueued : Queued stream r.queue) (hOutput : Output r.assembler delivered groups)
    (hMore : r.Assembles status next) : Assembled stream r delivered status next := by
  rcases erasePassed_spec r.assembler.expected hQueued.sorted with ⟨hSublist, hFrom, -⟩
  unfold Receiver.Assembles at hMore
  simp only [AAVCAssembler.assembleMore_eq] at hMore
  rcases next with ⟨assembler, queue⟩
  rcases front_cases r.assembler.expected r.queue with
    ⟨hEmpty, hFront⟩ | ⟨buffer, rest, hQueue, ⟨hValid, hNot, hFront⟩ | ⟨hSame, hFront⟩⟩
  · rw [hFront] at hMore
    have hEqual := hMore.unique (.const _)
    cases hEqual
    exact .empty hEmpty
  · rw [hFront] at hMore
    have hEqual := hMore.unique (.const _)
    cases hEqual
    have hLess := hFrom hValid buffer (by rw [hQueue]; exact List.mem_cons_self)
    exact .stopped hQueue hValid (Nat.lt_of_le_of_ne hLess (Ne.symm hNot))
  · rw [hFront] at hMore
    dsimp only at hMore
    have hLeft : Queued stream (buffer :: rest) := by
      rw [← hQueue]
      exact ⟨hQueued.sorted.sublist hSublist, fun packet hMember =>
          hQueued.sent packet (hSublist.subset hMember)⟩
    have hValue :
        ∀ before carrier behind, stream.carriers = before ++ carrier :: behind →
          buffer ∈ carrier.packets (stream.firstSeqNo + total before) →
          ∃ t left,
            (status, assembler, queue) =
                (status,
                  (if status = .MALFORMED_PACKET then { t with mAccessUnitDamaged := true }
                  else t), left) ∧
              Reaches
                (fun fuel =>
                  AAVCAssembler.addPacket fuel
                    { r.assembler with
                      expected := ⟨true, buffer.int32Data⟩ }
                    buffer rest)
                (status, t, left) ∧
              Handled carrier (stream.firstSeqNo + total before)
                { r.assembler with
                  expected := ⟨true, buffer.int32Data⟩ }
                delivered buffer rest (status, t, left) := by
      intro before carrier behind hCarriers hPacket
      rcases addPacket_handled hLeft hOutput hCarriers hPacket
        with ⟨⟨status', t, left⟩, hReaches, hHandled⟩
      have hEqual := hMore.unique (hReaches.bind (.const _))
      cases hEqual
      exact ⟨t, left, rfl, hReaches, hHandled⟩
    have hSent := hLeft.sent buffer List.mem_cons_self
    rcases packetsFrom_carrier hSent with ⟨before, carrier, behind, hCarriers, hPacket⟩
    rcases hValue before carrier behind hCarriers hPacket with ⟨t, left, hEqual, hReaches, -⟩
    have hAssembler := congrArg (fun x => x.2.1) hEqual
    have hQueueLeft := congrArg (fun x => x.2.2) hEqual
    dsimp only at hAssembler hQueueLeft
    have hFields :
        assembler.posted = t.posted ∧ assembler.mAccessUnitRTPTime = t.mAccessUnitRTPTime ∧
          assembler.mNALUnits = t.mNALUnits ∧ assembler.expected = t.expected := by
      rw [hAssembler]
      split <;> exact ⟨rfl, rfl, rfl, rfl⟩
    refine .handled hQueue hSame hFields.1 hFields.2.1 hFields.2.2.1 hFields.2.2.2 ?_
    intro before' carrier' behind' hCarriers' hPacket'
    rcases hValue before' carrier' behind' hCarriers' hPacket'
      with ⟨t', left', hEqual', hReaches', hHandled⟩
    have hSameValue := hReaches.unique hReaches'
    cases hSameValue
    rw [hQueueLeft]
    exact hHandled

end Call

end RTP

--
-- Queues
--

namespace RTP

variable {stream : Stream} {queue : List ABuffer} {buffer packet : ABuffer}

theorem mem_queuePacket (hMember : packet ∈ queuePacket queue buffer) :
    packet = buffer ∨ packet ∈ queue := by
  induction queue with
  | nil => exact .inl (List.mem_singleton.mp hMember)
  | cons first queue ih =>
    unfold queuePacket at hMember
    split at hMember
    · rcases List.mem_cons.mp hMember with rfl | hLater
      · exact .inr List.mem_cons_self
      · rcases ih hLater with hNew | hOld
        · exact .inl hNew
        · exact .inr (List.mem_cons_of_mem _ hOld)
    · split at hMember
      · exact .inr hMember
      · exact List.mem_cons.mp hMember

theorem queuePacket_keeps (hMember : packet ∈ queue) : packet ∈ queuePacket queue buffer := by
  induction queue with
  | nil => exact absurd hMember List.not_mem_nil
  | cons first queue ih =>
    unfold queuePacket
    split
    · rcases List.mem_cons.mp hMember with rfl | hLater
      · exact List.mem_cons_self
      · exact List.mem_cons_of_mem _ (ih hLater)
    · split
      · exact hMember
      · exact List.mem_cons_of_mem _ hMember

/- A packet with the number of the one that arrives is there. -/
theorem queuePacket_arrives (queue : List ABuffer) (buffer : ABuffer) :
    ∃ packet ∈ queuePacket queue buffer, packet.int32Data = buffer.int32Data := by
  induction queue with
  | nil => exact ⟨buffer, List.mem_cons_self, rfl⟩
  | cons first queue ih =>
    unfold queuePacket
    split
    · rcases ih with ⟨packet, hMember, hSame⟩
      exact ⟨packet, List.mem_cons_of_mem _ hMember, hSame⟩
    · split
      · rename_i hSame
        exact ⟨first, List.mem_cons_self, hSame⟩
      · exact ⟨buffer, List.mem_cons_self, rfl⟩

theorem queuePacket_sorted (hSorted : queue.Pairwise (fun p q => p.int32Data < q.int32Data)) :
    (queuePacket queue buffer).Pairwise (fun p q => p.int32Data < q.int32Data) := by
  induction queue with
  | nil => exact List.pairwise_singleton _ _
  | cons first queue ih =>
    rcases List.pairwise_cons.mp hSorted with ⟨hLess, hRest⟩
    unfold queuePacket
    split
    · rename_i hBefore
      refine List.pairwise_cons.mpr ⟨?_, ih hRest⟩
      intro packet hMember
      rcases mem_queuePacket hMember with rfl | hOld
      · exact hBefore
      · exact hLess packet hOld
    · rename_i hNotBefore
      split
      · exact hSorted
      · rename_i hNotSame
        refine List.pairwise_cons.mpr ⟨?_, hSorted⟩
        intro packet hMember
        rcases List.mem_cons.mp hMember with rfl | hLater
        · omega
        · have hBehind := hLess packet hLater
          omega

theorem Queued.arrive (hQueued : Queued stream queue) (hSent : buffer ∈ stream.packets) :
    Queued stream (queuePacket queue buffer) ∧ buffer ∈ queuePacket queue buffer := by
  have hAll : ∀ packet ∈ queuePacket queue buffer, packet ∈ stream.packets := by
    intro packet hMember
    rcases mem_queuePacket hMember with rfl | hOld
    · exact hSent
    · exact hQueued.sent packet hOld
  refine ⟨⟨queuePacket_sorted hQueued.sorted, hAll⟩, ?_⟩
  rcases queuePacket_arrives queue buffer with ⟨packet, hMember, hSame⟩
  have hEqual :=
    eq_of_sorted (packetsFrom_sorted stream.firstSeqNo stream.carriers)
      (hAll packet hMember) hSent hSame
  rw [hEqual] at hMember
  exact hMember

theorem Queued.sublist {left : List ABuffer} (hQueued : Queued stream queue)
    (hSublist : left.Sublist queue) : Queued stream left where
  sorted := hQueued.sorted.sublist hSublist
  sent := fun packet hMember =>
    hQueued.sent packet (hSublist.subset hMember)

end RTP

--
-- Safety
--

namespace RTP

open AAVCAssembler (Output)

/- What was delivered was sent before the number that is expected next, in its order. -/
structure Safe (stream : Stream) (r : Receiver) (delivered : List ABuffer)
    (groups : List (Nat × List ABuffer)) : Prop where
  queued : Queued stream r.queue
  output : Output r.assembler delivered groups
  unstarted : r.assembler.expected.mNextExpectedSeqNoValid = false → delivered = []
  room :
    r.assembler.expected.mNextExpectedSeqNoValid = true →
      r.assembler.expected.mNextExpectedSeqNo ≤ stream.firstSeqNo + total stream.carriers
  before :
    r.assembler.expected.mNextExpectedSeqNoValid = true →
      (delivered.map sentUnit).Sublist
        (sentBefore r.assembler.expected.mNextExpectedSeqNo stream.firstSeqNo stream.carriers)

/- The next carrier begins with the number expected next. -/
def AtBoundary (stream : Stream) (expected : Expected) (delivered : List ABuffer) : Prop :=
  ∃ before behind,
    stream.carriers = before ++ behind ∧
      expected.mNextExpectedSeqNo = stream.firstSeqNo + total before ∧
      delivered.map sentUnit = before.flatMap Carrier.sent

section Call

variable {stream : Stream} {r next : Receiver} {status : AssemblyStatus} {delivered : List ABuffer}
variable {groups : List (Nat × List ABuffer)} {buffer : ABuffer} {rest : List ABuffer}

/- What was delivered was sent before the front packet. -/
theorem Safe.before_front (hSafe : Safe stream r delivered groups)
    (hSame :
      r.assembler.expected.mNextExpectedSeqNoValid = true →
        r.assembler.expected.mNextExpectedSeqNo = buffer.int32Data) :
    (delivered.map sentUnit).Sublist
      (sentBefore buffer.int32Data stream.firstSeqNo stream.carriers) := by
  cases hValid : r.assembler.expected.mNextExpectedSeqNoValid with
  | false =>
    rw [hSafe.unstarted hValid]
    exact List.nil_sublist _
  | true =>
    rw [← hSame hValid]
    exact hSafe.before hValid

/- A packet that is handled, as one of a carrier. -/
theorem Safe.handled (hSafe : Safe stream r delivered groups)
    (hQueue : erasePassed r.assembler.expected r.queue = buffer :: rest)
    (hSame :
      r.assembler.expected.mNextExpectedSeqNoValid = true →
        r.assembler.expected.mNextExpectedSeqNo = buffer.int32Data)
    {before : List Carrier} {carrier : Carrier} {behind : List Carrier}
    (hCarriers : stream.carriers = before ++ carrier :: behind) {t : AAVCAssembler}
    (hPosted : next.assembler.posted = t.posted)
    (hTime :
      next.assembler.mAccessUnitRTPTime = t.mAccessUnitRTPTime)
    (hUnits : next.assembler.mNALUnits = t.mNALUnits)
    (hExpected : next.assembler.expected = t.expected)
    (hHandled :
      Handled carrier (stream.firstSeqNo + total before)
        { r.assembler with
          expected := ⟨true, buffer.int32Data⟩ }
        delivered buffer rest (status, t, next.queue)) :
    ∃ delivered' groups',
      Safe stream next delivered' groups' ∧
        next.assembler.expected.mNextExpectedSeqNoValid = true ∧
        (status = .WRONG_SEQUENCE_NUMBER →
          next.assembler.expected.mNextExpectedSeqNo < stream.firstSeqNo + total stream.carriers) ∧
        (buffer.int32Data = stream.firstSeqNo + total before →
          delivered.map sentUnit = before.flatMap Carrier.sent →
          AtBoundary stream next.assembler.expected delivered' ∧
            ∀ packet ∈ buffer :: rest,
              next.assembler.expected.mNextExpectedSeqNo ≤ packet.int32Data →
              packet ∈ next.queue) := by
  have hFront := hSafe.before_front hSame
  have hLeft : Queued stream (buffer :: rest) := by
    rw [← hQueue]
    exact hSafe.queued.sublist (erasePassed_spec _ hSafe.queued.sorted).1
  have hRange := packetsFrom_range (hLeft.sent buffer List.mem_cons_self)
  have hTotal : total stream.carriers = total before + (carrier.count + total behind) := by
    rw [hCarriers, total_append, total_cons]
  rcases next with ⟨assembler, queue⟩
  dsimp only at hPosted hTime hUnits hExpected hHandled ⊢
  cases hHandled with
  | delivered hFirst hNext hOutput hNew hSplit =>
    rename_i new groups'
    rw [hNext] at hExpected
    refine ⟨delivered ++ new, groups', ⟨?_, hOutput.congr hPosted hTime hUnits, ?_, ?_, ?_⟩,
      ?_, ?_, ?_⟩
    · apply hLeft.sublist
      rw [hSplit]
      exact List.sublist_append_right _ _
    · rw [hExpected]
      rintro ⟨⟩
    · rw [hExpected]
      intro _
      show stream.firstSeqNo + total before + carrier.count ≤ _
      omega
    · rw [hExpected]
      intro _
      rw [List.map_append, hNew]
      show List.Sublist _
        (sentBefore (stream.firstSeqNo + total before + carrier.count)
          stream.firstSeqNo stream.carriers)
      rw [hCarriers, ← sentBefore_carrier]
      rw [hFirst, hCarriers] at hFront
      exact hFront.append (List.Sublist.refl _)
    · rw [hExpected]
    · rintro ⟨⟩
    · intro _ hAll
      refine ⟨⟨before ++ [carrier], behind, ?_, ?_, ?_⟩, ?_⟩
      · rw [hCarriers, List.append_assoc]
        exact rfl
      · rw [hExpected, total_append]
        exact Nat.add_assoc _ _ _
      · rw [List.map_append, hNew, hAll, List.flatMap_append]
        simp
      · intro packet hMember hFrom
        rw [hExpected] at hFrom
        rw [hSplit] at hMember
        rcases List.mem_append.mp hMember with hIn | hBehind
        · have hPassed := (numbered_range hIn).2
          have hCount : carrier.payloads.length = carrier.count := rfl
          dsimp only at hFrom
          omega
        · exact hBehind
  | dropped hLater hNext hOutput =>
    rename_i groups'
    rw [hNext] at hExpected
    refine ⟨delivered, groups', ⟨?_, hOutput.congr hPosted hTime hUnits, ?_, ?_, ?_⟩, ?_, ?_, ?_⟩
    · exact hLeft.sublist (List.sublist_cons_self _ _)
    · rw [hExpected]
      rintro ⟨⟩
    · rw [hExpected]
      intro _
      exact hRange.2
    · rw [hExpected]
      intro _
      exact hFront.trans (sentBefore_sublist (Nat.le_succ _) _ _)
    · rw [hExpected]
    · rintro ⟨⟩
    · intro hFirst
      omega
  | missing hFirst hStatus hSent hMissing =>
    dsimp only at hPosted hTime hUnits hExpected
    refine ⟨delivered, groups,
      ⟨hLeft, hSafe.output.congr hPosted hTime hUnits, ?_, ?_, ?_⟩, ?_, ?_, ?_⟩
    · rw [hExpected]
      rintro ⟨⟩
    · rw [hExpected]
      intro _
      exact Nat.le_of_lt hRange.2
    · rw [hExpected]
      intro _
      exact hFront
    · rw [hExpected]
    · rw [hExpected]
      intro _
      exact hRange.2
    · intro _ hAll
      refine ⟨⟨before, carrier :: behind, hCarriers, ?_, hAll⟩, fun packet hMember _ => hMember⟩
      rw [hExpected]
      exact hFirst

end Call

--
-- Steps
--

/- No packet is lost, and the first one is there in time. -/
structure InOrder (stream : Stream) (actions : List Action) : Prop where
  lost : .lost ∉ actions
  first :
    ∀ before behind, actions = before ++ .assemble :: behind →
      ∀ packet ∈ stream.packets.head?, .arrive packet ∈ before

/- What arrived and is not behind the assembler is queued. -/
structure Whole (stream : Stream) (actions : List Action)
    (r : Receiver) (delivered : List ABuffer) : Prop where
  queued :
    ∀ packet, .arrive packet ∈ actions →
      (r.assembler.expected.mNextExpectedSeqNoValid = true →
        r.assembler.expected.mNextExpectedSeqNo ≤ packet.int32Data) →
      packet ∈ r.queue
  boundary :
    r.assembler.expected.mNextExpectedSeqNoValid = true →
      AtBoundary stream r.assembler.expected delivered

variable {stream : Stream} {actions : List Action} {action : Action} {r next : Receiver}
variable {status : AssemblyStatus} {delivered : List ABuffer} {groups : List (Nat × List ABuffer)}

/- The first packet of a carrier, which has its number. -/
theorem carrier_first {before : List Carrier} {carrier : Carrier} {behind : List Carrier}
    (hCarriers : stream.carriers = before ++ carrier :: behind) :
    ∃ packet ∈ stream.packets,
      packet ∈ carrier.packets (stream.firstSeqNo + total before) ∧
        packet.int32Data = stream.firstSeqNo + total before ∧
        (before = [] → packet ∈ stream.packets.head?) := by
  have hSome : ∃ data more, carrier.payloads = data :: more := by
    cases hPayloads : carrier.payloads with
    | nil =>
      have hPos := carrier.count_pos
      unfold Carrier.count at hPos
      rw [hPayloads] at hPos
      exact absurd hPos (Nat.lt_irrefl 0)
    | cons data more => exact ⟨data, more, rfl⟩
  rcases hSome with ⟨data, more, hPayloads⟩
  have hPackets :
      carrier.packets (stream.firstSeqNo + total before) =
        ⟨stream.firstSeqNo + total before, carrier.time, data⟩ ::
          numbered carrier.time (stream.firstSeqNo + total before + 1) more := by
    unfold Carrier.packets
    rw [hPayloads]
    exact rfl
  have hMember :
      (⟨stream.firstSeqNo + total before, carrier.time, data⟩ : ABuffer) ∈
        carrier.packets (stream.firstSeqNo + total before) := by
    rw [hPackets]
    exact List.mem_cons_self
  refine ⟨_, packets_of_carrier hCarriers _ hMember, hMember,
    rfl, ?_⟩
  intro hNone
  rw [hNone] at hPackets hCarriers
  unfold Stream.packets
  rw [hCarriers, List.nil_append, packetsFrom]
  have hStart : stream.firstSeqNo + total ([] : List Carrier) = stream.firstSeqNo := Nat.add_zero _
  rw [hStart] at hPackets
  rw [hPackets, hNone, hStart]
  exact rfl

/- At the front stands the packet that a carrier begins with. -/
theorem Whole.front (hSafe : Safe stream r delivered groups)
    (hWhole : Whole stream actions r delivered)
    (hFirst : ∀ packet ∈ stream.packets.head?, .arrive packet ∈ actions) {buffer : ABuffer}
    {rest : List ABuffer} (hQueue : erasePassed r.assembler.expected r.queue = buffer :: rest)
    (hSame :
      r.assembler.expected.mNextExpectedSeqNoValid = true →
        r.assembler.expected.mNextExpectedSeqNo = buffer.int32Data) :
    ∃ before carrier behind,
      stream.carriers = before ++ carrier :: behind ∧
        buffer ∈ carrier.packets (stream.firstSeqNo + total before) ∧
        buffer.int32Data = stream.firstSeqNo + total before ∧
        delivered.map sentUnit = before.flatMap Carrier.sent := by
  have hLeft : Queued stream (buffer :: rest) := by
    rw [← hQueue]
    exact hSafe.queued.sublist (erasePassed_spec _ hSafe.queued.sorted).1
  have hSent := hLeft.sent buffer List.mem_cons_self
  have hRange := packetsFrom_range hSent
  -- a boundary that the front packet stands at
  have hAt :
      ∃ before behind,
        stream.carriers = before ++ behind ∧ buffer.int32Data = stream.firstSeqNo + total before ∧
          delivered.map sentUnit = before.flatMap Carrier.sent := by
    cases hValid : r.assembler.expected.mNextExpectedSeqNoValid with
    | true =>
      rcases hWhole.boundary hValid with ⟨before, behind, hCarriers, hNext, hAll⟩
      exact ⟨before, behind, hCarriers, (hSame hValid).symm.trans hNext, hAll⟩
    | false =>
      refine ⟨[], stream.carriers, rfl, ?_, ?_⟩
      · cases hCarriers : stream.carriers with
        | nil =>
          rw [hCarriers] at hRange
          have hNone : total ([] : List Carrier) = 0 := rfl
          omega
        | cons carrier behind =>
          rcases @carrier_first stream [] carrier behind hCarriers with
            ⟨packet, hPacket, -, hNumber, hHead⟩
          have hQueued :=
            hWhole.queued packet (hFirst packet (hHead rfl))
              (fun hTrue => by rw [hValid] at hTrue; cases hTrue)
          have hErased : packet ∈ buffer :: rest := by
            rw [← hQueue]
            exact (erasePassed_spec _
              hSafe.queued.sorted).2.2 packet hQueued
                (fun hTrue => by
                  rw [hValid] at hTrue; cases hTrue)
          have hNone : total ([] : List Carrier) = 0 := rfl
          rcases List.mem_cons.mp hErased with rfl | hLater
          · exact hNumber
          · have hLess := (List.pairwise_cons.mp hLeft.sorted).1 packet hLater
            omega
      · rw [hSafe.unstarted hValid]
        exact rfl
  rcases hAt with ⟨before, behind, hCarriers, hNumber, hAll⟩
  cases behind with
  | nil =>
    rw [hCarriers, List.append_nil] at hRange
    omega
  | cons carrier behind =>
    rcases carrier_first hCarriers with ⟨packet, hPacket, hIn, hPacketNumber, -⟩
    have hEqual :=
      eq_of_sorted (packetsFrom_sorted stream.firstSeqNo stream.carriers)
        hSent hPacket (hNumber.trans hPacketNumber.symm)
    rw [← hEqual] at hIn
    exact ⟨before, carrier, behind, hCarriers, hIn, hNumber, hAll⟩

/- A call keeps what is safe, and what is whole. -/
theorem assembled_safe (hSafe : Safe stream r delivered groups)
    (hAssembled : Assembled stream r delivered status next) (actions : List Action) :
    ∃ delivered' groups',
      Safe stream next delivered' groups' ∧
        (status = .WRONG_SEQUENCE_NUMBER →
          next.assembler.expected.mNextExpectedSeqNoValid = true ∧
            next.assembler.expected.mNextExpectedSeqNo <
              stream.firstSeqNo + total stream.carriers) ∧
        (Whole stream actions r delivered →
          (∀ packet ∈ stream.packets.head?, .arrive packet ∈ actions) →
          Whole stream actions next delivered') := by
  rcases erasePassed_spec r.assembler.expected hSafe.queued.sorted with ⟨hSublist, -, hStays⟩
  cases hAssembled with
  | empty hQueue =>
    refine ⟨delivered, groups,
      ⟨hSafe.queued.sublist (List.nil_sublist _), hSafe.output, hSafe.unstarted, hSafe.room,
        hSafe.before⟩, by rintro ⟨⟩, ?_⟩
    intro hWhole _
    refine ⟨?_, hWhole.boundary⟩
    intro packet hArrived hFrom
    have hLeft := hStays packet (hWhole.queued packet hArrived hFrom) hFrom
    rw [hQueue] at hLeft
    exact hLeft
  | stopped hQueue hValid hLater =>
    rename_i buffer rest
    have hLeft : Queued stream (buffer :: rest) := by
      rw [← hQueue]
      exact hSafe.queued.sublist hSublist
    have hRange := packetsFrom_range (hLeft.sent buffer List.mem_cons_self)
    refine ⟨delivered, groups,
      ⟨hLeft, hSafe.output, hSafe.unstarted, hSafe.room, hSafe.before⟩, fun _ => ⟨hValid, ?_⟩, ?_⟩
    · exact hLater.trans hRange.2
    intro hWhole _
    refine ⟨?_, hWhole.boundary⟩
    intro packet hArrived hFrom
    show packet ∈ buffer :: rest
    rw [← hQueue]
    exact hStays packet (hWhole.queued packet hArrived hFrom) hFrom
  | handled hQueue hSame hPosted hTime hUnits hExpected hHandled =>
    rename_i t buffer rest
    by_cases hBoth :
      Whole stream actions r delivered ∧ ∀ packet ∈ stream.packets.head?, .arrive packet ∈ actions
    · rcases hBoth with ⟨hWhole, hFirst⟩
      rcases hWhole.front hSafe hFirst hQueue hSame with
        ⟨before, carrier, behind, hCarriers, hPacket, hNumber, hAll⟩
      rcases hSafe.handled hQueue hSame hCarriers hPosted hTime hUnits hExpected
          (hHandled before carrier behind hCarriers hPacket) with
        ⟨delivered', groups', hNext, hValid, hWrong, hRest⟩
      rcases hRest hNumber hAll with ⟨hBoundary, hLeft⟩
      refine ⟨delivered', groups', hNext, fun hStatus => ⟨hValid, hWrong hStatus⟩, ?_⟩
      intro _ _
      refine ⟨?_, fun _ => hBoundary⟩
      intro packet hArrived hFrom
      -- the assembler does not go back
      have hForward :
          buffer.int32Data ≤
            next.assembler.expected.mNextExpectedSeqNo := by
        have hHandledHere := hHandled before carrier behind hCarriers hPacket
        rw [hExpected]
        generalize next.queue = queue at hHandledHere
        cases hHandledHere with
        | delivered hAt hNext hOutput hNew hSplit =>
          rw [hNext, hAt]
          exact Nat.le_add_right _ _
        | dropped hAt hNext hOutput =>
          rw [hNext]
          exact Nat.le_succ _
        | missing hAt hStatus hSent hMissing => exact Nat.le_refl _
      have hFromNext := hFrom hValid
      have hFromHere : r.assembler.expected.mNextExpectedSeqNoValid = true →
          r.assembler.expected.mNextExpectedSeqNo ≤ packet.int32Data := by
        intro hSet
        rw [hSame hSet]
        exact hForward.trans hFromNext
      have hErased := hStays packet (hWhole.queued packet hArrived hFromHere) hFromHere
      rw [hQueue] at hErased
      exact hLeft packet hErased hFromNext
    · have hSent : buffer ∈ stream.packets := by
        apply hSafe.queued.sent
        apply hSublist.subset
        rw [hQueue]
        exact List.mem_cons_self
      rcases packetsFrom_carrier hSent with ⟨before, carrier, behind, hCarriers, hPacket⟩
      rcases hSafe.handled hQueue hSame hCarriers hPosted hTime hUnits hExpected
          (hHandled before carrier behind hCarriers hPacket) with
        ⟨delivered', groups', hNext, hValid, hWrong, -⟩
      exact ⟨delivered', groups', hNext, fun hStatus => ⟨hValid, hWrong hStatus⟩,
        fun hWhole hFirst => absurd ⟨hWhole, hFirst⟩ hBoth⟩

/- A number that is given up is one before the last packet. -/
theorem lost_safe {assembler : AAVCAssembler} (hSafe : Safe stream r delivered groups)
    (hValid : r.assembler.expected.mNextExpectedSeqNoValid = true)
    (hRoom : r.assembler.expected.mNextExpectedSeqNo < stream.firstSeqNo + total stream.carriers)
    (hLost : r.assembler.packetLost = .returns assembler) :
    Safe stream { r with assembler := assembler } delivered
      groups := by
  have hBound := stream.hRoom
  unfold AAVCAssembler.packetLost Expected.packetLost at hLost
  rw [Result.check, if_pos hValid] at hLost
  cases hLost
  have hNext : r.assembler.expected.next = ⟨true, r.assembler.expected.mNextExpectedSeqNo + 1⟩ := by
    unfold Expected.next
    rw [AAVCAssembler.increment_eq (by omega), hValid]
  refine ⟨hSafe.queued, hSafe.output.congr rfl rfl rfl, ?_, ?_, ?_⟩
  · show r.assembler.expected.next.mNextExpectedSeqNoValid = false → _
    rw [hNext]
    rintro ⟨⟩
  · intro _
    show r.assembler.expected.next.mNextExpectedSeqNo ≤ _
    rw [hNext]
    exact hRoom
  · intro _
    show List.Sublist _ (sentBefore r.assembler.expected.next.mNextExpectedSeqNo _ _)
    rw [hNext]
    exact (hSafe.before hValid).trans (sentBefore_sublist (Nat.le_succ _) _ _)

theorem arrive_safe {packet : ABuffer} (hSafe : Safe stream r delivered groups)
    (hSent : packet ∈ stream.packets) :
    Safe stream { r with queue := queuePacket r.queue packet }
      delivered groups where
  queued := (hSafe.queued.arrive hSent).1
  output := hSafe.output
  unstarted := hSafe.unstarted
  room := hSafe.room
  before := hSafe.before

theorem arrive_whole {packet : ABuffer} (hSafe : Safe stream r delivered groups)
    (hSent : packet ∈ stream.packets) (hWhole : Whole stream actions r delivered) :
    Whole stream (actions ++ [.arrive packet]) { r with queue := queuePacket r.queue packet }
      delivered where
  queued := by
    intro other hArrived hFrom
    rcases List.mem_append.mp hArrived with hOld | hNew
    · exact queuePacket_keeps (hWhole.queued other hOld hFrom)
    · cases List.mem_singleton.mp hNew
      exact (hSafe.queued.arrive hSent).2
  boundary := hWhole.boundary

theorem InOrder.init (hOrder : InOrder stream (actions ++ [action])) : InOrder stream actions where
  lost := fun hMember =>
    hOrder.lost (List.mem_append_left _ hMember)
  first := by
    intro before behind hActions packet hHead
    refine hOrder.first before (behind ++ [action]) ?_ packet
      hHead
    rw [hActions, List.append_assoc]
    exact rfl

/- Whatever happens is safe; in order it is whole as well. -/
theorem runs_safe (hRun : Receiver.Runs stream.packets actions r) :
    ∃ delivered groups,
      Safe stream r delivered groups ∧
        (InOrder stream actions → Whole stream actions r delivered) := by
  induction hRun with
  | start =>
    refine ⟨[], [], ⟨⟨.nil, fun _ hMember => absurd hMember List.not_mem_nil⟩,
      AAVCAssembler.new_output, fun _ => rfl, by rintro ⟨⟩, by rintro ⟨⟩⟩, ?_⟩
    exact fun _ => ⟨fun _ hMember =>
      absurd hMember List.not_mem_nil, by rintro ⟨⟩⟩
  | step hRun hStep ih =>
    rename_i actions action r next
    rcases ih with ⟨delivered, groups, hSafe, hWhole⟩
    cases hStep with
    | arrive hSent =>
      exact ⟨delivered, groups, arrive_safe hSafe hSent, fun hOrder =>
          arrive_whole hSafe hSent (hWhole hOrder.init)⟩
    | assemble hMore =>
      rcases assembled_safe hSafe (assembled hSafe.queued hSafe.output hMore) actions with
        ⟨delivered', groups', hNext, -, hKeeps⟩
      refine ⟨delivered', groups', hNext, ?_⟩
      intro hOrder
      have hAfter := hKeeps (hWhole hOrder.init) (hOrder.first actions [] rfl)
      refine ⟨?_, hAfter.boundary⟩
      intro packet hArrived hFrom
      rcases List.mem_append.mp hArrived with hOld | hNew
      · exact hAfter.queued packet hOld hFrom
      · cases List.mem_singleton.mp hNew
    | lost hMore hLost =>
      rcases assembled_safe hSafe (assembled hSafe.queued hSafe.output hMore) actions with
        ⟨delivered', groups', hNext, hWrong, -⟩
      rcases hWrong rfl with ⟨hValid, hRoom⟩
      refine ⟨delivered', groups', lost_safe hNext hValid hRoom hLost, ?_⟩
      intro hOrder
      exact absurd (List.mem_append_right _ (List.mem_singleton_self _)) hOrder.lost

end RTP

--
-- Reassembly
--

namespace RTP

open AAVCAssembler (Output)

variable {stream : Stream} {actions : List Action} {r : Receiver} {delivered : List ABuffer}
variable {groups : List (Nat × List ABuffer)}

/- There is nothing more to assemble. -/
def Receiver.Quiet (r : Receiver) : Prop :=
  ∃ status next,
    r.Assembles status next ∧ (status = .NOT_ENOUGH_DATA ∨ status = .WRONG_SEQUENCE_NUMBER)

/- When all packets arrived, a quiet assembler is at the end. -/
theorem Whole.all (hSafe : Safe stream r delivered groups)
    (hWhole : Whole stream actions r delivered)
    (hArrived : ∀ packet ∈ stream.packets, .arrive packet ∈ actions) (hQuiet : r.Quiet) :
    delivered.map sentUnit = stream.sent := by
  rcases hQuiet with ⟨status, next, hMore, hStatus⟩
  have hAssembled := assembled hSafe.queued hSafe.output hMore
  -- every packet that is not passed is at the front
  have hFront :
      ∀ packet ∈ stream.packets,
        (r.assembler.expected.mNextExpectedSeqNoValid = true →
          r.assembler.expected.mNextExpectedSeqNo ≤ packet.int32Data) →
        packet ∈ erasePassed r.assembler.expected r.queue := by
    intro packet hSent hFrom
    exact (erasePassed_spec _ hSafe.queued.sorted).2.2 packet
      (hWhole.queued packet (hArrived packet hSent) hFrom) hFrom
  -- there is no carrier left that could be handled
  have hNone :
      ∀ before behind, stream.carriers = before ++ behind →
        (r.assembler.expected.mNextExpectedSeqNoValid = true →
          r.assembler.expected.mNextExpectedSeqNo = stream.firstSeqNo + total before) →
        behind = [] := by
    intro before behind hCarriers hNext
    cases behind with
    | nil => exact rfl
    | cons carrier behind =>
      exfalso
      rcases carrier_first hCarriers with ⟨packet, hSent, hIn, hNumber, -⟩
      have hMember := hFront packet hSent (fun hValid => by rw [hNext hValid, hNumber])
      cases hAssembled with
      | empty hQueue =>
        rw [hQueue] at hMember
        exact absurd hMember List.not_mem_nil
      | stopped hQueue hValid hLater =>
        rename_i buffer rest
        have hSorted :=
          hSafe.queued.sorted.sublist (erasePassed_spec r.assembler.expected hSafe.queued.sorted).1
        rw [hQueue] at hMember hSorted
        rw [hNext hValid] at hLater
        rcases List.mem_cons.mp hMember with rfl | hBehind
        · omega
        · have hLess := (List.pairwise_cons.mp hSorted).1 packet hBehind
          omega
      | handled hQueue hSame hPosted hTime hUnits hExpected hHandled =>
        rename_i t buffer rest
        have hBufferSent : buffer ∈ stream.packets := by
          apply hSafe.queued.sent
          apply (erasePassed_spec _ hSafe.queued.sorted).1.subset
          rw [hQueue]
          exact List.mem_cons_self
        rcases packetsFrom_carrier hBufferSent with
          ⟨before', carrier', behind', hCarriers', hPacket'⟩
        have hHere := hHandled before' carrier' behind' hCarriers' hPacket'
        generalize next.queue = queue at hHere
        rcases hStatus with rfl | rfl <;>
          · cases hHere with
            | missing hAt hWhich hMissingSent hMissing =>
              rename_i q
              apply hMissing
              rw [← hQueue]
              apply hFront q (packets_of_carrier hCarriers' q hMissingSent)
              intro hValid
              rw [hSame hValid, hAt]
              exact (numbered_range hMissingSent).1
  cases hValid : r.assembler.expected.mNextExpectedSeqNoValid with
  | true =>
    rcases hWhole.boundary hValid with ⟨before, behind, hCarriers, hNext, hAll⟩
    have hEnd := hNone before behind hCarriers (fun _ => hNext)
    rw [hEnd, List.append_nil] at hCarriers
    rw [hAll]
    unfold Stream.sent
    rw [hCarriers]
  | false =>
    have hEnd := hNone [] stream.carriers rfl (fun hTrue => by rw [hValid] at hTrue; cases hTrue)
    rw [hSafe.unstarted hValid]
    unfold Stream.sent
    rw [hEnd]
    exact rfl

/- The groups that are posted are those of the output. -/
theorem maximalRuns_of_append {more : List (Nat × List ABuffer)}
    (hRuns : MaximalRuns (groups ++ more)) : MaximalRuns groups := by
  refine ⟨fun group hMember =>
    hRuns.1 group (List.mem_append_left _ hMember), ?_⟩
  have hChain := hRuns.2
  rw [List.map_append] at hChain
  exact hChain.left_of_append

/-
  What is posted are units that were sent, in their order and once, in groups that are maximal runs
  of one time. When no packet is lost, the first one is there before the first call and nothing is
  left to do, only units of one time, the last one, are not posted yet.
-/
theorem reassembly (hRun : Receiver.Runs stream.packets actions r) :
    ∃ groups,
      Posted r.assembler.posted groups ∧ MaximalRuns groups ∧
        ((groups.flatMap Prod.snd).map sentUnit).Sublist stream.sent ∧
        (InOrder stream actions → (∀ packet ∈ stream.packets, .arrive packet ∈ actions) → r.Quiet →
          ∃ time rest,
            stream.sent = (groups.flatMap Prod.snd).map sentUnit ++ rest ∧
              ∀ unit ∈ rest, unit.1 = time) := by
  rcases runs_safe hRun with ⟨delivered, groups, hSafe, hWhole⟩
  have hOutput := hSafe.output
  refine ⟨groups, hOutput.posted, maximalRuns_of_append hOutput.runs, ?_, ?_⟩
  · have hPart : ((groups.flatMap Prod.snd).map sentUnit).Sublist (delivered.map sentUnit) := by
      rw [hOutput.delivered, List.map_append]
      exact List.sublist_append_left _ _
    refine hPart.trans ?_
    cases hValid : r.assembler.expected.mNextExpectedSeqNoValid with
    | false =>
      rw [hSafe.unstarted hValid]
      exact List.nil_sublist _
    | true => exact (hSafe.before hValid).trans (sentBefore_sublist_all _ _ _)
  · intro hOrder hArrived hQuiet
    have hAll := (hWhole hOrder).all hSafe hArrived hQuiet
    refine ⟨r.assembler.mAccessUnitRTPTime, r.assembler.mNALUnits.map sentUnit, ?_, ?_⟩
    · rw [← hAll, hOutput.delivered, List.map_append]
    · intro unit hMember
      rcases List.mem_map.mp hMember with ⟨buffer, hIn, rfl⟩
      have hSome : r.assembler.mNALUnits ≠ [] := List.ne_nil_of_mem hIn
      have hCurrent :
          (r.assembler.mAccessUnitRTPTime, r.assembler.mNALUnits) ∈
            groups ++ r.assembler.current := by
        apply List.mem_append_right
        unfold AAVCAssembler.current
        rw [if_neg hSome]
        exact List.mem_singleton_self _
      exact (hOutput.runs.1 _ hCurrent).2 buffer hIn

/- Units of the times 0, 1 and 2, each in a packet of its own. -/
def threeUnits : Stream where
  carriers :=
    [.single 0 ⟨1, [], by decide, by decide⟩, .single 1 ⟨1, [], by decide, by decide⟩,
      .single 2 ⟨1, [], by decide, by decide⟩]
  firstSeqNo := 0
  hRoom := by decide

def packetOf (n : Nat) : ABuffer := ⟨n, n, [1]⟩

theorem threeUnits_run :
    Receiver.Runs threeUnits.packets
      [.arrive (packetOf 0), .arrive (packetOf 2), .assemble,
        .arrive (packetOf 1), .assemble, .assemble]
      ⟨⟨⟨true, 3⟩, 2, false, [packetOf 2],
        [⟨⟨0, 0, [0, 0, 0, 1, 1]⟩, false⟩, ⟨⟨1, 1, [0, 0, 0, 1, 1]⟩, false⟩]⟩, []⟩ :=
  .step (.step (.step (.step (.step (.step .start (.arrive (by decide))) (.arrive (by decide)))
    (.assemble
      (.of_eq fun _ => rfl :
        Receiver.Assembles _ .OK ⟨⟨⟨true, 1⟩, 0, false, [packetOf 0], []⟩, [packetOf 2]⟩)))
    (.arrive (by decide)))
    (.assemble
      (.of_eq fun _ => rfl :
        Receiver.Assembles _ .OK
          ⟨⟨⟨true, 2⟩, 1, false, [packetOf 1], [⟨⟨0, 0, [0, 0, 0, 1, 1]⟩, false⟩]⟩, [packetOf 2]⟩)))
    (.assemble (.of_eq fun _ => rfl))

theorem threeUnits_inOrder :
    InOrder threeUnits
      [.arrive (packetOf 0), .arrive (packetOf 2), .assemble,
        .arrive (packetOf 1), .assemble, .assemble] where
  lost := by decide
  first := by
    intro before behind hActions packet hHead
    cases hHead
    cases before with
    | nil => cases hActions
    | cons action before =>
      rw [← (List.cons.inj hActions).1]
      exact List.mem_cons_self

theorem reassembly_threeUnits :
    ∃ groups,
      Posted [⟨⟨0, 0, [0, 0, 0, 1, 1]⟩, false⟩, ⟨⟨1, 1, [0, 0, 0, 1, 1]⟩, false⟩] groups ∧
        MaximalRuns groups ∧
        ∃ time rest,
          threeUnits.sent = (groups.flatMap Prod.snd).map sentUnit ++ rest ∧
            ∀ unit ∈ rest, unit.1 = time := by
  rcases reassembly threeUnits_run with ⟨groups, hPosted, hRuns, -, hAll⟩
  exact ⟨groups, hPosted, hRuns,
    hAll threeUnits_inOrder (by decide) ⟨.NOT_ENOUGH_DATA, _, .of_eq fun _ => rfl, .inl rfl⟩⟩

/- The packets 1, 0 and 2 arrive, with a call behind each. -/
theorem lateFirst_run :
    Receiver.Runs threeUnits.packets
      [.arrive (packetOf 1), .assemble, .arrive (packetOf 0), .assemble,
        .arrive (packetOf 2), .assemble]
      ⟨⟨⟨true, 3⟩, 2, false, [packetOf 2], [⟨⟨1, 1, [0, 0, 0, 1, 1]⟩, false⟩]⟩, []⟩ :=
  .step (.step (.step (.step (.step (.step .start (.arrive (by decide)))
    (.assemble
      (.of_eq fun _ => rfl :
        Receiver.Assembles _ .OK ⟨⟨⟨true, 2⟩, 1, false, [packetOf 1], []⟩, []⟩)))
    (.arrive (by decide)))
    (.assemble
      (.of_eq fun _ => rfl :
        Receiver.Assembles _ .NOT_ENOUGH_DATA ⟨⟨⟨true, 2⟩, 1, false, [packetOf 1], []⟩, []⟩)))
    (.arrive (by decide))) (.assemble (.of_eq fun _ => rfl))

/- Without a loss, but with the first packet behind a call, its unit is not posted. -/
theorem lateFirst_missing :
    ¬ ∀ (stream : Stream) (actions : List Action) (r : Receiver),
      Receiver.Runs stream.packets actions r → .lost ∉ actions →
      (∀ packet ∈ stream.packets, .arrive packet ∈ actions) → r.Quiet →
      ∃ groups,
        Posted r.assembler.posted groups ∧ MaximalRuns groups ∧
          ∃ time rest,
            stream.sent = (groups.flatMap Prod.snd).map sentUnit ++ rest ∧
              ∀ unit ∈ rest, unit.1 = time := by
  intro hClaim
  rcases hClaim threeUnits _ _ lateFirst_run (by decide) (by decide)
      ⟨.NOT_ENOUGH_DATA, _, .of_eq fun _ => rfl, .inl rfl⟩ with
    ⟨groups, hPosted, hRuns, time, rest, hSent, -⟩
  -- the one group that is posted begins with a unit of time 1
  cases groups with
  | nil => cases hPosted
  | cons group groups =>
    rcases group with ⟨groupTime, units⟩
    have hTime : groupTime = 1 := by
      have hFirst := congrArg List.head? hPosted
      simp only [List.map_cons, List.head?_cons, Option.some.injEq, Prod.mk.injEq] at hFirst
      exact hFirst.1.symm
    have hGroup := hRuns.1 (groupTime, units) List.mem_cons_self
    cases units with
    | nil => exact hGroup.1 rfl
    | cons unit units =>
      have hUnit := hGroup.2 unit List.mem_cons_self
      have hFirst := congrArg List.head? hSent
      have hZero : (0 : Nat) = unit.rtpTime := by
        simp [Stream.sent, threeUnits, Carrier.sent,
          Carrier.units, Carrier.time, sentUnit] at hFirst
        exact hFirst.1
      dsimp only at hUnit
      omega

end RTP

end FrameworksAv
