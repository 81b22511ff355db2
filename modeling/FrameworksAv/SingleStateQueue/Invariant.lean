import FrameworksAv.SingleStateQueue.Queue

/-
  The invariant of the single state queue.

  The shared sequence is twice the number of completed pushes, plus one during a push. A copy that
  starts at an even sequence is the value of one push for as long as the sequence does not move.

  Main declarations:
    * `Contract`
    * `Queue.Inv`
    * `Queue.Inv.step`
    * `Queue.Inv.run`
-/

--
-- Sequences And Values
--

namespace FrameworksAv

namespace SingleStateQueue

variable {ι W : Type}

/- The parity bit of a sequence is that of its position. -/
theorem odd_iff (n : Nat) : BitVec.ofNat 32 n &&& 1 ≠ 0 ↔ n % 2 = 1 := by
  have hLow : BitVec.ofNat 32 n &&& 1 = BitVec.ofNat 32 (n % 2) :=
    Counter.low_ofNat n (k := 1) (by omega)
  rw [hLow]
  rcases Nat.mod_two_eq_zero_or_one n with hEven | hOdd
  · simp [hEven]
  · simp [hOdd]

/- Fewer than 2^31 pushes complete during one poll. -/
def FewPushes (q : Queue ι W) : Access ι W → Prop
| .pushEnd => q.reader.busy = true → q.hist.completed + 1 < q.hist.pollStart + 2 ^ 31
| _ => True

instance (q : Queue ι W) : ∀ a, Decidable (FewPushes q a)
| .pushEnd => inferInstanceAs (Decidable (_ → _ < _))
| .pushBegin _
| .pushWord _
| .pollLoad
| .pollReload
| .pollWord _
| .pollAfter
| .pollAck
| .done => inferInstanceAs (Decidable True)

/- One `done` at most follows a successful poll. -/
def DoneOnce (q : Queue ι W) : Access ι W → Prop
| .done => q.hist.dones = 0
| _ => True

instance (q : Queue ι W) : ∀ a, Decidable (DoneOnce q a)
| .done => inferInstanceAs (Decidable (_ = _))
| .pushBegin _
| .pushWord _
| .pushEnd
| .pollLoad
| .pollReload
| .pollWord _
| .pollAfter
| .pollAck => inferInstanceAs (Decidable True)

/- What both sides promise. -/
def Contract (q : Queue ι W) (a : Access ι W) : Prop :=
  FewPushes q a ∧ DoneOnce q a

instance (q : Queue ι W) (a : Access ι W) : Decidable (Contract q a) :=
  inferInstanceAs (Decidable (_ ∧ _))

/- A push that completes keeps a poll in progress near. -/
theorem FewPushes.near {q : Queue ι W} (h : FewPushes q .pushEnd) (hBusy : q.reader ≠ .idle) :
    q.hist.completed + 1 < q.hist.pollStart + 2 ^ 31 := by
  apply h
  cases hPlace : q.reader with
  | idle => exact absurd hPlace hBusy
  | reload | copying | acking => rfl

namespace Queue

/- The sequence is between two completed pushes. -/
theorem completed_le_position (q : Queue ι W) : 2 * q.hist.completed ≤ q.position := by
  unfold position
  split <;> omega

theorem position_le_completed (q : Queue ι W) : q.position ≤ 2 * q.hist.completed + 1 := by
  unfold position
  split <;> omega

/- The shared value and the value in the mutator's hands. -/
def WriterInv (q : Queue ι W) : Prop :=
  match q.writer with
  | .idle =>
    q.hist.pushes.length = q.hist.completed ∧
      (0 < q.hist.completed → q.hist.pushes[q.hist.completed - 1]? = some q.shared.mValue)
  | .copying value remaining =>
    q.hist.pushes.length = q.hist.completed + 1 ∧ q.hist.pushes[q.hist.completed]? = some value ∧
      ∀ i, i ∉ remaining → q.shared.mValue i = value i

/- A poll that found a sequence it did not know. -/
structure Polling (q : Queue ι W) : Prop where
  started : q.hist.pollStart ≤ q.hist.completed
  near : q.hist.completed < q.hist.pollStart + 2 ^ 31
  fresh : 2 * q.hist.polled < q.hist.seen
  seen_ge : 2 * q.hist.pollStart ≤ q.hist.seen
  seen_le : q.hist.seen ≤ q.position

/- A later load of the sequence keeps the poll fresh. -/
theorem Polling.reload {q t : Queue ι W} (h : q.Polling) (hWriter : t.writer = q.writer)
    (hCompleted : t.hist.completed = q.hist.completed)
    (hStart : t.hist.pollStart = q.hist.pollStart) (hPolled : t.hist.polled = q.hist.polled)
    (hSeen : t.hist.seen = q.position) : t.Polling := by
  have hPosition : t.position = q.position := by
    rw [position, position, hWriter, hCompleted]
  have hLe := h.seen_le
  have hGe := h.seen_ge
  have hFresh := h.fresh
  exact
    { started := by
        rw [hStart, hCompleted]
        exact h.started
      near := by
        rw [hStart, hCompleted]
        exact h.near
      fresh := by
        rw [hPolled, hSeen]
        omega
      seen_ge := by
        rw [hStart, hSeen]
        omega
      seen_le := by
        rw [hSeen, hPosition] }

/- The observer's place in the loop of `poll`. -/
def ReaderInv (q : Queue ι W) : Prop :=
  match q.reader with
  | .idle => True
  | .reload tries => q.Polling ∧ tries < maxTries ∧ q.hist.rounds = tries
  | .copying before tries temp remaining =>
    q.Polling ∧ tries < maxTries ∧ q.hist.rounds = tries + 1 ∧
      before = BitVec.ofNat 32 q.hist.seen ∧ q.hist.seen % 2 = 0 ∧
      (q.position = q.hist.seen → ∀ i, i ∉ remaining → temp i = q.shared.mValue i)
  | .acking before temp =>
    q.Polling ∧ before = BitVec.ofNat 32 q.hist.seen ∧ q.hist.seen % 2 = 0 ∧
      q.hist.pushes[q.hist.seen / 2 - 1]? = some temp

/- The most accesses the rest of a poll can take. -/
def work [Fintype ι] : Reader ι W → Nat
| .idle => 0
| .reload tries => (maxTries - tries) * (Fintype.card ι + 2) + 1
| .copying _ tries _ remaining => remaining.card + 2 + (maxTries - 1 - tries) * (Fintype.card ι + 2)
| .acking _ _ => 1

/- The most accesses one poll can take. -/
def pollBound (ι : Type) [Fintype ι] : Nat :=
  maxTries * (Fintype.card ι + 2) + 1

/- A successful poll and the push it observed. -/
def Observed (pushes : List (ι → W)) (result : Nat × (ι → W)) : Prop :=
  0 < result.1 ∧ pushes[result.1 - 1]? = some result.2

structure Inv [Fintype ι] (q : Queue ι W) : Prop where
  mutatorSeq : q.mutator.mSequence = BitVec.ofNat 32 (2 * q.hist.completed)
  sharedSeq : q.shared.mSequence = BitVec.ofNat 32 q.position
  writer : q.WriterInv
  observerSeq : q.observer.mSequence = BitVec.ofNat 32 (2 * q.hist.polled)
  mAck : q.shared.mAck = BitVec.ofNat 32 (2 * q.hist.polled + q.hist.dones)
  dones_le : q.hist.dones ≤ 1
  polled_le : q.hist.polled ≤ q.hist.completed
  last : 0 < q.hist.polled → q.hist.pushes[q.hist.polled - 1]? = some q.value
  results : ∀ r ∈ q.hist.results, Observed q.hist.pushes r ∧ r.1 ≤ q.hist.polled
  later : q.hist.results.Pairwise (fun a b => a.1 < b.1)
  reader : q.ReaderInv
  rounds_le : q.hist.rounds ≤ maxTries
  accesses_le : q.hist.accesses + work q.reader ≤ pollBound ι

theorem inv_init [Fintype ι] (mValue value : ι → W) : (init mValue value).Inv where
  mutatorSeq := rfl
  sharedSeq := rfl
  writer := ⟨rfl, fun hPos => absurd hPos (Nat.lt_irrefl 0)⟩
  observerSeq := rfl
  mAck := rfl
  dones_le := Nat.zero_le _
  polled_le := Nat.le_refl 0
  last := fun hPos => absurd hPos (Nat.lt_irrefl 0)
  results := by simp [init]
  later := List.Pairwise.nil
  reader := trivial
  rounds_le := Nat.zero_le _
  accesses_le := Nat.zero_le _

end Queue

end SingleStateQueue

--
-- Mutator Steps
--

namespace SingleStateQueue

namespace Queue

variable {ι W : Type}

/- What a store of the mutator leaves alone. -/
structure Mutates (q t : Queue ι W) : Prop where
  mAck : t.shared.mAck = q.shared.mAck
  value : t.value = q.value
  observer : t.observer = q.observer
  reader : t.reader = q.reader
  polled : t.hist.polled = q.hist.polled
  dones : t.hist.dones = q.hist.dones
  results : t.hist.results = q.hist.results
  pollStart : t.hist.pollStart = q.hist.pollStart
  seen : t.hist.seen = q.hist.seen
  rounds : t.hist.rounds = q.hist.rounds
  accesses : t.hist.accesses = q.hist.accesses
  completed_le : q.hist.completed ≤ t.hist.completed
  position_le : q.position ≤ t.position
  -- an even sequence appears only with a new push
  moved : t.position % 2 = 0 → q.position < t.position
  -- pushes are only ever added
  pushes : ∀ (k : Nat) (v : ι → W), q.hist.pushes[k]? = some v → t.hist.pushes[k]? = some v

theorem Observed.mutate {q t : Queue ι W} {result : Nat × (ι → W)}
    (h : Observed q.hist.pushes result) (hMutates : Mutates q t) : Observed t.hist.pushes result :=
  ⟨h.1, hMutates.pushes _ _ h.2⟩

theorem Polling.mutate {q t : Queue ι W} (h : q.Polling) (hMutates : Mutates q t)
    (hNear : t.hist.completed < t.hist.pollStart + 2 ^ 31) : t.Polling where
  started := by
    rw [hMutates.pollStart]
    exact Nat.le_trans h.started hMutates.completed_le
  near := hNear
  fresh := by
    rw [hMutates.polled, hMutates.seen]
    exact h.fresh
  seen_ge := by
    rw [hMutates.pollStart, hMutates.seen]
    exact h.seen_ge
  seen_le := by
    rw [hMutates.seen]
    exact Nat.le_trans h.seen_le hMutates.position_le

/- A copy in progress is not disturbed unnoticed. -/
theorem ReaderInv.mutate {q t : Queue ι W} (h : q.ReaderInv) (hMutates : Mutates q t)
    (hNear : t.reader ≠ .idle → t.hist.completed < t.hist.pollStart + 2 ^ 31) : t.ReaderInv := by
  have hReader := hMutates.reader
  unfold ReaderInv at h ⊢
  rw [hReader] at hNear ⊢
  cases hPlace : q.reader with
  | idle => trivial
  | reload tries =>
    rw [hPlace] at h hNear
    rcases h with ⟨hPolling, hTries, hRounds⟩
    refine ⟨hPolling.mutate hMutates (hNear (by simp)), hTries, ?_⟩
    rw [hMutates.rounds]
    exact hRounds
  | copying before tries temp remaining =>
    rw [hPlace] at h hNear
    rcases h with ⟨hPolling, hTries, hRounds, hBefore, hEven, hCopy⟩
    refine ⟨hPolling.mutate hMutates (hNear (by simp)), hTries, ?_, ?_, ?_, ?_⟩
    · rw [hMutates.rounds]
      exact hRounds
    · rw [hMutates.seen]
      exact hBefore
    · rw [hMutates.seen]
      exact hEven
    · -- the sequence moved past the copy
      rw [hMutates.seen]
      intro hSame
      have hMoved := hMutates.moved (by omega)
      have hSeen := hPolling.seen_le
      omega
  | acking before temp =>
    rw [hPlace] at h hNear
    rcases h with ⟨hPolling, hBefore, hEven, hValue⟩
    refine ⟨hPolling.mutate hMutates (hNear (by simp)), ?_, ?_, ?_⟩
    · rw [hMutates.seen]
      exact hBefore
    · rw [hMutates.seen]
      exact hEven
    · rw [hMutates.seen]
      exact hMutates.pushes _ _ hValue

/- A store of the mutator keeps the observer's invariants. -/
theorem Inv.mutate [Fintype ι] {q t : Queue ι W} (h : q.Inv) (hMutates : Mutates q t)
    (hMutator : t.mutator.mSequence = BitVec.ofNat 32 (2 * t.hist.completed))
    (hShared : t.shared.mSequence = BitVec.ofNat 32 t.position) (hWriter : t.WriterInv)
    (hNear : t.reader ≠ .idle → t.hist.completed < t.hist.pollStart + 2 ^ 31) : t.Inv where
  mutatorSeq := hMutator
  sharedSeq := hShared
  writer := hWriter
  observerSeq := by
    rw [hMutates.observer, hMutates.polled]
    exact h.observerSeq
  mAck := by
    rw [hMutates.mAck, hMutates.polled, hMutates.dones]
    exact h.mAck
  dones_le := by
    rw [hMutates.dones]
    exact h.dones_le
  polled_le := by
    rw [hMutates.polled]
    exact Nat.le_trans h.polled_le hMutates.completed_le
  last := by
    rw [hMutates.polled, hMutates.value]
    exact fun hPos => hMutates.pushes _ _ (h.last hPos)
  results := by
    rw [hMutates.results, hMutates.polled]
    exact fun r hr =>
      ⟨(h.results r hr).1.mutate hMutates, (h.results r hr).2⟩
  later := by
    rw [hMutates.results]
    exact h.later
  reader := h.reader.mutate hMutates hNear
  rounds_le := by
    rw [hMutates.rounds]
    exact h.rounds_le
  accesses_le := by
    rw [hMutates.accesses, hMutates.reader]
    exact h.accesses_le

/- The current poll has not seen too many pushes. -/
theorem ReaderInv.near {q : Queue ι W} (h : q.ReaderInv) (hBusy : q.reader ≠ .idle) :
    q.hist.completed < q.hist.pollStart + 2 ^ 31 := by
  unfold ReaderInv at h
  cases hPlace : q.reader with
  | idle => exact absurd hPlace hBusy
  | reload | copying | acking =>
    rw [hPlace] at h
    exact h.1.near

section Stores

variable [Fintype ι] {q : Queue ι W}

/- The first store of a push makes the sequence odd. -/
theorem Inv.pushBegin (h : q.Inv) (hIdle : q.writer = .idle) (value : ι → W) :
    (q.pushBegin value).Inv := by
  have hWriter := h.writer
  rw [WriterInv, hIdle] at hWriter
  have hPosition : q.position = 2 * q.hist.completed := by
    rw [position, hIdle]
  have hOdd : (q.pushBegin value).position = 2 * q.hist.completed + 1 :=
    rfl
  have hMutates : Mutates q (q.pushBegin value) :=
    { mAck := rfl
      value := rfl
      observer := rfl
      reader := rfl
      polled := rfl
      dones := rfl
      results := rfl
      pollStart := rfl
      seen := rfl
      rounds := rfl
      accesses := rfl
      completed_le := Nat.le_refl _
      position_le := by omega
      moved := by omega
      pushes := by
        intro k v hPush
        have hLt := (List.getElem?_eq_some_iff.mp hPush).1
        simp only [Queue.pushBegin]
        rw [List.getElem?_append_left hLt]
        exact hPush }
  refine h.mutate hMutates h.mutatorSeq ?_ ?_ h.reader.near
  · rw [hOdd, Counter.ofNat_add, ← h.mutatorSeq]
    rfl
  · simp only [WriterInv, Queue.pushBegin]
    refine ⟨?_, ?_, ?_⟩
    · rw [List.length_append, hWriter.1]
      rfl
    · rw [← hWriter.1, List.getElem?_concat_length]
    · intro i hi
      exact absurd (Finset.mem_univ i) hi

/- Copying a word of the pushed value. -/
theorem Inv.pushWord [DecidableEq ι] (h : q.Inv) {value : ι → W} {remaining : Finset ι}
    (hCopy : q.writer = .copying value remaining) (i : ι) : (q.pushWord value remaining i).Inv := by
  have hWriter := h.writer
  rw [WriterInv, hCopy] at hWriter
  have hPosition : q.position = 2 * q.hist.completed + 1 := by
    rw [position, hCopy]
  have hOdd : (q.pushWord value remaining i).position = 2 * q.hist.completed + 1 :=
    rfl
  have hMutates : Mutates q (q.pushWord value remaining i) :=
    { mAck := rfl
      value := rfl
      observer := rfl
      reader := rfl
      polled := rfl
      dones := rfl
      results := rfl
      pollStart := rfl
      seen := rfl
      rounds := rfl
      accesses := rfl
      completed_le := Nat.le_refl _
      position_le := by omega
      moved := by omega
      pushes := fun _ _ hPush => hPush }
  refine h.mutate hMutates h.mutatorSeq ?_ ?_ h.reader.near
  · rw [hOdd, ← hPosition]
    exact h.sharedSeq
  · refine ⟨hWriter.1, hWriter.2.1, ?_⟩
    intro j hj
    by_cases hSame : j = i
    · subst hSame
      simp [Queue.pushWord]
    · simp only [Queue.pushWord, Function.update_of_ne hSame]
      apply hWriter.2.2
      intro hMem
      exact hj (Finset.mem_erase.mpr ⟨hSame, hMem⟩)

/- The last store of a push publishes the whole value. -/
theorem Inv.pushEnd (h : q.Inv) {value : ι → W} (hCopy : q.writer = .copying value ∅)
    (hNear : q.reader ≠ .idle → q.hist.completed + 1 < q.hist.pollStart + 2 ^ 31) :
    q.pushEnd.Inv := by
  have hWriter := h.writer
  rw [WriterInv, hCopy] at hWriter
  have hPosition : q.position = 2 * q.hist.completed + 1 := by
    rw [position, hCopy]
  have hEven : q.pushEnd.position = 2 * (q.hist.completed + 1) :=
    rfl
  have hSequence : q.mutator.mSequence + 1 + 1 = BitVec.ofNat 32 (2 * (q.hist.completed + 1)) := by
    rw [h.mutatorSeq, Nat.mul_succ, Counter.ofNat_add, BitVec.add_assoc]
    rfl
  have hMutates : Mutates q q.pushEnd :=
    { mAck := rfl
      value := rfl
      observer := rfl
      reader := rfl
      polled := rfl
      dones := rfl
      results := rfl
      pollStart := rfl
      seen := rfl
      rounds := rfl
      accesses := rfl
      completed_le := Nat.le_succ _
      position_le := by omega
      moved := by omega
      pushes := fun _ _ hPush => hPush }
  refine h.mutate hMutates hSequence hSequence ?_ hNear
  simp only [WriterInv, Queue.pushEnd]
  refine ⟨hWriter.1, ?_⟩
  intro _
  have hValue : q.shared.mValue = value := by
    funext i
    exact hWriter.2.2 i (Finset.notMem_empty i)
  rw [Nat.add_sub_cancel, hValue]
  exact hWriter.2.1

end Stores

end Queue

--
-- Observer Steps
--

namespace Queue

variable {ι W : Type} [Fintype ι] {q : Queue ι W}

/- The work of a round and of all that may follow. -/
theorem work_round (before : Word) {tries : Nat} (hTries : tries < maxTries) (temp : ι → W) :
    work (round before tries temp) ≤ (maxTries - tries) * (Fintype.card ι + 2) := by
  unfold round
  have hSplit : maxTries - tries = (maxTries - 1 - tries) + 1 := by
    omega
  split
  · split
    · exact Nat.zero_le _
    · have hLess : maxTries - (tries + 1) = maxTries - 1 - tries := by
        omega
      rw [work, hLess, hSplit, Nat.add_mul]
      omega
  · rw [work, Finset.card_univ, hSplit, Nat.add_mul]
    omega

/- The work of a poll once a copy is complete. -/
theorem work_pollAfter (q : Queue ι W) (before : Word) (tries : Nat) (temp : ι → W) :
    work (q.pollAfter before tries temp).reader ≤
      (maxTries - 1 - tries) * (Fintype.card ι + 2) + 1 := by
  simp only [Queue.pollAfter]
  split
  · exact Nat.le_add_left 1 _
  split
  · exact Nat.zero_le _
  · have hTries : tries + 1 < maxTries := by
      omega
    have hWork := work_round q.shared.mSequence hTries q.value
    have hLess : maxTries - (tries + 1) = maxTries - 1 - tries := by
      omega
    rw [hLess] at hWork
    exact Nat.le_succ_of_le hWork

/- A round starts from the sequence that was just loaded. -/
theorem readerInv_round {tries : Nat} {temp : ι → W}
    (hReader : q.reader = round q.shared.mSequence tries temp)
    (hSequence : q.shared.mSequence = BitVec.ofNat 32 q.position) (hSeen : q.hist.seen = q.position)
    (hPolling : q.Polling) (hTries : tries < maxTries) (hRounds : q.hist.rounds = tries + 1) :
    q.ReaderInv := by
  unfold ReaderInv
  rw [hReader, hSequence, round]
  by_cases hOdd : BitVec.ofNat 32 q.position &&& 1 ≠ 0
  · rw [if_pos hOdd]
    by_cases hLast : tries + 1 ≥ maxTries
    · rw [if_pos hLast]
      trivial
    · rw [if_neg hLast]
      exact ⟨hPolling, by omega, hRounds⟩
  · rw [if_neg hOdd]
    rw [odd_iff] at hOdd
    refine ⟨hPolling, hTries, hRounds, ?_, ?_, ?_⟩
    · rw [hSeen]
    · rw [hSeen]
      omega
    · intro _ i hi
      exact absurd (Finset.mem_univ i) hi

/- No poll is ahead of the sequence. -/
theorem Inv.polled_le_position (h : q.Inv) : 2 * q.hist.polled ≤ q.position := by
  have hLe := h.polled_le
  have hCompleted := completed_le_position q
  omega

/- What a load of the observer leaves alone. -/
theorem Inv.observe {t : Queue ι W} (h : q.Inv) (hShared : t.shared = q.shared)
    (hValue : t.value = q.value) (hMutator : t.mutator = q.mutator)
    (hObserver : t.observer = q.observer) (hWriter : t.writer = q.writer)
    (hPushes : t.hist.pushes = q.hist.pushes) (hCompleted : t.hist.completed = q.hist.completed)
    (hPolled : t.hist.polled = q.hist.polled) (hDones : t.hist.dones = q.hist.dones)
    (hResults : t.hist.results = q.hist.results) (hReader : t.ReaderInv)
    (hRounds : t.hist.rounds ≤ maxTries)
    (hAccesses : t.hist.accesses + work t.reader ≤ pollBound ι) : t.Inv where
  mutatorSeq := by
    rw [hMutator, hCompleted]
    exact h.mutatorSeq
  sharedSeq := by
    rw [hShared, h.sharedSeq, position, position, hWriter, hCompleted]
  writer := by
    have hOld := h.writer
    unfold WriterInv at hOld ⊢
    rw [hWriter, hPushes, hCompleted, hShared]
    exact hOld
  observerSeq := by
    rw [hObserver, hPolled]
    exact h.observerSeq
  mAck := by
    rw [hShared, hPolled, hDones]
    exact h.mAck
  dones_le := by
    rw [hDones]
    exact h.dones_le
  polled_le := by
    rw [hPolled, hCompleted]
    exact h.polled_le
  last := by
    rw [hPolled, hPushes, hValue]
    exact h.last
  results := by
    rw [hResults, hPushes, hPolled]
    exact h.results
  later := by
    rw [hResults]
    exact h.later
  reader := hReader
  rounds_le := hRounds
  accesses_le := hAccesses

theorem Inv.pollLoad (h : q.Inv) (hIdle : q.reader = .idle) : q.pollLoad.Inv := by
  have hMax : 0 < maxTries := by decide
  have hFirst : 1 ≤ pollBound ι := Nat.le_add_left 1 _
  simp only [Queue.pollLoad]
  split
  · refine h.observe rfl rfl rfl rfl rfl rfl rfl rfl rfl rfl ?_ (Nat.zero_le _) ?_
    · rw [ReaderInv, hIdle]
      trivial
    · rw [hIdle]
      exact hFirst
  · rename_i hNew
    have hFresh : 2 * q.hist.polled ≠ q.position := by
      intro hSame
      apply hNew
      rw [h.sharedSeq, h.observerSeq, hSame]
    have hLe := h.polled_le_position
    refine h.observe rfl rfl rfl rfl rfl rfl rfl rfl rfl rfl ?_ ?_ ?_
    · refine readerInv_round rfl h.sharedSeq rfl ?_ hMax rfl
      exact
        { started := Nat.le_refl _
          near := Nat.lt_add_of_pos_right (by decide)
          fresh := Nat.lt_of_le_of_ne hLe hFresh
          seen_ge := completed_le_position q
          seen_le := Nat.le_refl _ }
    · exact hMax
    · have hWork := work_round q.shared.mSequence hMax q.value
      rw [Nat.sub_zero] at hWork
      simp only [pollBound]
      omega

theorem Inv.pollReload (h : q.Inv) {tries : Nat} (hReload : q.reader = .reload tries) :
    (q.pollReload tries).Inv := by
  have hReader := h.reader
  rw [ReaderInv, hReload] at hReader
  rcases hReader with ⟨hPolling, hTries, hRounds⟩
  have hAccesses := h.accesses_le
  rw [hReload, work] at hAccesses
  have hNext : (q.pollReload tries).hist.rounds = tries + 1 := congrArg (· + 1) hRounds
  refine h.observe rfl rfl rfl rfl rfl rfl rfl rfl rfl rfl ?_ ?_ ?_
  · exact readerInv_round rfl h.sharedSeq rfl (hPolling.reload rfl rfl rfl rfl rfl) hTries hNext
  · rw [hNext]
    exact hTries
  · have hWork := work_round q.shared.mSequence hTries q.value
    simp only [Queue.pollReload, nextRound, tick]
    omega

/- Copying a word of the shared value. -/
theorem Inv.pollWord [DecidableEq ι] (h : q.Inv) {before : Word} {tries : Nat} {temp : ι → W}
    {remaining : Finset ι} (hCopy : q.reader = .copying before tries temp remaining) {i : ι}
    (hi : i ∈ remaining) : (q.pollWord before tries temp remaining i).Inv := by
  have hReader := h.reader
  rw [ReaderInv, hCopy] at hReader
  rcases hReader with ⟨hPolling, hTries, hRounds, hBefore, hEven, hWords⟩
  have hAccesses := h.accesses_le
  rw [hCopy, work] at hAccesses
  have hCard := Finset.card_erase_of_mem hi
  have hPos := Finset.card_pos.mpr ⟨i, hi⟩
  refine h.observe rfl rfl rfl rfl rfl rfl rfl rfl rfl rfl ?_ ?_ ?_
  · refine ⟨{ hPolling with }, hTries, hRounds, hBefore,
      hEven, ?_⟩
    intro hSame j hj
    by_cases hWord : j = i
    · subst hWord
      simp [Queue.pollWord]
    · simp only [Function.update_of_ne hWord]
      apply hWords hSame
      intro hMem
      exact hj (Finset.mem_erase.mpr ⟨hWord, hMem⟩)
  · exact h.rounds_le
  · simp only [Queue.pollWord, tick, work, hCard]
    omega

/-
  Equal sequences around a copy: no push came in between, so the copy is the value of the push seen
  before.
-/
theorem Inv.copied (h : q.Inv) {tries : Nat} {temp : ι → W}
    (hCopy : q.reader = .copying q.shared.mSequence tries temp ∅) :
    q.hist.pushes[q.hist.seen / 2 - 1]? = some temp := by
  have hReader := h.reader
  rw [ReaderInv, hCopy] at hReader
  rcases hReader with ⟨hPolling, hTries, hRounds, hBefore, hEven, hWords⟩
  have hNear := hPolling.near
  have hGe := hPolling.seen_ge
  have hFresh := hPolling.fresh
  have hUpper := position_le_completed q
  have hSame : q.position = q.hist.seen := by
    rw [h.sharedSeq] at hBefore
    exact (Counter.ofNat_inj_of_lt hPolling.seen_le (by omega) hBefore.symm).symm
  have hTemp : temp = q.shared.mValue := by
    funext i
    exact hWords hSame i (Finset.notMem_empty i)
  have hWriter := h.writer
  unfold WriterInv at hWriter
  cases hPlace : q.writer with
  | idle =>
    rw [hPlace] at hWriter
    have hPosition : q.position = 2 * q.hist.completed := by
      rw [position, hPlace]
    have hNumber : q.hist.seen / 2 - 1 = q.hist.completed - 1 := by
      omega
    rw [hNumber, hTemp]
    exact hWriter.2 (by omega)
  | copying value remaining =>
    -- during a push the sequence would be odd
    have hPosition : q.position = 2 * q.hist.completed + 1 := by
      rw [position, hPlace]
    omega

theorem Inv.pollAfter (h : q.Inv) {before : Word} {tries : Nat} {temp : ι → W}
    (hCopy : q.reader = .copying before tries temp ∅) : (q.pollAfter before tries temp).Inv := by
  have hReader := h.reader
  rw [ReaderInv, hCopy] at hReader
  rcases hReader with ⟨hPolling, hTries, hRounds, hBefore, hEven, hWords⟩
  have hAccesses := h.accesses_le
  rw [hCopy, work, Finset.card_empty] at hAccesses
  have hWork := work_pollAfter q before tries temp
  simp only [Queue.pollAfter] at hWork ⊢
  split at hWork
  · rename_i hSame
    rw [if_pos hSame]
    rw [← hSame] at hCopy hBefore ⊢
    have hValue := h.copied hCopy
    refine h.observe rfl rfl rfl rfl rfl rfl rfl rfl rfl rfl ?_ h.rounds_le ?_
    · exact ⟨{ hPolling with }, hBefore, hEven, hValue⟩
    · simp only [tick, work]
      omega
  · rename_i hMoved
    rw [if_neg hMoved]
    split at hWork
    · rename_i hLast
      rw [if_pos hLast]
      refine h.observe rfl rfl rfl rfl rfl rfl rfl rfl rfl rfl
        trivial h.rounds_le ?_
      simp only [tick, work]
      omega
    · rename_i hMore
      have hNextTries : tries + 1 < maxTries := by
        omega
      have hNext : q.nextRound.rounds = tries + 1 + 1 := congrArg (· + 1) hRounds
      rw [if_neg hMore]
      refine h.observe rfl rfl rfl rfl rfl rfl rfl rfl rfl rfl ?_ ?_ ?_
      · exact readerInv_round rfl h.sharedSeq rfl (hPolling.reload rfl rfl rfl rfl rfl) hNextTries
          hNext
      · rw [hNext]
        exact hNextTries
      · have hRound :
            work (round q.shared.mSequence (tries + 1) q.value) ≤
              (maxTries - 1 - tries) * (Fintype.card ι + 2) + 1 :=
          hWork
        simp only [nextRound, tick]
        omega

/- A successful poll observes a later push. -/
theorem Inv.pollAck (h : q.Inv) {before : Word} {temp : ι → W}
    (hAck : q.reader = .acking before temp) : (q.pollAck before temp).Inv := by
  have hReader := h.reader
  rw [ReaderInv, hAck] at hReader
  rcases hReader with ⟨hPolling, hBefore, hEven, hValue⟩
  have hFresh := hPolling.fresh
  have hSeen := hPolling.seen_le
  have hUpper := position_le_completed q
  have hDouble : 2 * (q.hist.seen / 2) = q.hist.seen := by
    omega
  have hAccesses := h.accesses_le
  rw [hAck, work] at hAccesses
  exact
    { mutatorSeq := h.mutatorSeq
      sharedSeq := h.sharedSeq
      writer := h.writer
      observerSeq := by
        simp only [Queue.pollAck, hDouble]
        exact hBefore
      mAck := by
        simp only [Queue.pollAck, hDouble, Nat.add_zero]
        exact hBefore
      dones_le := Nat.zero_le _
      polled_le := by
        simp only [Queue.pollAck, tick]
        omega
      last := fun _ => hValue
      results := by
        simp only [Queue.pollAck, tick, List.mem_append, List.mem_singleton]
        rintro r (hOld | hNew)
        · have hResult := h.results r hOld
          exact ⟨hResult.1, by omega⟩
        · subst hNew
          exact ⟨⟨by omega, hValue⟩, Nat.le_refl _⟩
      later := by
        simp only [Queue.pollAck, tick, List.pairwise_append, List.mem_singleton]
        refine ⟨h.later, List.pairwise_singleton _ _, ?_⟩
        rintro a hOld b hNew
        subst hNew
        have hResult := (h.results a hOld).2
        omega
      reader := trivial
      rounds_le := h.rounds_le
      accesses_le := by
        simp only [Queue.pollAck, tick, work]
        omega }

theorem Inv.done (h : q.Inv) (hIdle : q.reader = .idle) (hOnce : q.hist.dones = 0) :
    q.done.Inv := by
  have hAck := h.mAck
  rw [hOnce, Nat.add_zero] at hAck
  exact
    { mutatorSeq := h.mutatorSeq
      sharedSeq := h.sharedSeq
      writer := h.writer
      observerSeq := h.observerSeq
      mAck := by
        simp only [Queue.done, Observer.done, hOnce, hAck, Nat.zero_add, Counter.ofNat_add]
        rfl
      dones_le := by
        simp only [Queue.done, hOnce]
        omega
      polled_le := h.polled_le
      last := h.last
      results := h.results
      later := h.later
      reader := by
        simp only [ReaderInv, Queue.done, hIdle]
      rounds_le := h.rounds_le
      accesses_le := h.accesses_le }

end Queue

--
-- Runs
--

namespace Queue

variable {ι W : Type} [DecidableEq ι] [Fintype ι] {q t : Queue ι W}

/- Every load and store keeps the invariant. -/
theorem Inv.step (h : q.Inv) {a : Access ι W} (hOk : Contract q a) (hStep : q.step a = some t) :
    t.Inv := by
  cases a with
  | pushBegin value =>
    cases hPlace : q.writer with
    | idle =>
      simp only [Queue.step, hPlace] at hStep
      cases hStep
      exact h.pushBegin hPlace value
    | copying => simp [Queue.step, hPlace] at hStep
  | pushWord i =>
    cases hPlace : q.writer with
    | idle => simp [Queue.step, hPlace] at hStep
    | copying value remaining =>
      simp only [Queue.step, hPlace] at hStep
      split at hStep
      · cases hStep
        exact h.pushWord hPlace i
      · cases hStep
  | pushEnd =>
    cases hPlace : q.writer with
    | idle => simp [Queue.step, hPlace] at hStep
    | copying value remaining =>
      simp only [Queue.step, hPlace] at hStep
      split at hStep
      · rename_i hAll
        rw [hAll] at hPlace
        cases hStep
        exact h.pushEnd hPlace hOk.1.near
      · cases hStep
  | pollLoad =>
    cases hPlace : q.reader with
    | idle =>
      simp only [Queue.step, hPlace] at hStep
      cases hStep
      exact h.pollLoad hPlace
    | reload | copying | acking => simp [Queue.step, hPlace] at hStep
  | pollReload =>
    cases hPlace : q.reader with
    | reload tries =>
      simp only [Queue.step, hPlace] at hStep
      cases hStep
      exact h.pollReload hPlace
    | idle | copying | acking => simp [Queue.step, hPlace] at hStep
  | pollWord i =>
    cases hPlace : q.reader with
    | copying before tries temp remaining =>
      simp only [Queue.step, hPlace] at hStep
      split at hStep
      · rename_i hi
        cases hStep
        exact h.pollWord hPlace hi
      · cases hStep
    | idle | reload | acking => simp [Queue.step, hPlace] at hStep
  | pollAfter =>
    cases hPlace : q.reader with
    | copying before tries temp remaining =>
      simp only [Queue.step, hPlace] at hStep
      split at hStep
      · rename_i hAll
        rw [hAll] at hPlace
        cases hStep
        exact h.pollAfter hPlace
      · cases hStep
    | idle | reload | acking => simp [Queue.step, hPlace] at hStep
  | pollAck =>
    cases hPlace : q.reader with
    | acking before temp =>
      simp only [Queue.step, hPlace] at hStep
      cases hStep
      exact h.pollAck hPlace
    | idle | reload | copying => simp [Queue.step, hPlace] at hStep
  | done =>
    cases hPlace : q.reader with
    | idle =>
      simp only [Queue.step, hPlace] at hStep
      cases hStep
      exact h.done hPlace hOk.2
    | reload | copying | acking => simp [Queue.step, hPlace] at hStep

/- The invariant holds after every run of the two sides. -/
theorem Inv.run (h : q.Inv) {as : List (Access ι W)}
    (hRun : Run.exec (Run.guarded Contract Queue.step) q as = some t) : t.Inv := by
  have hStep :
      ∀ (s : Queue ι W) a u, s.Inv → Run.guarded Contract Queue.step s a = some u → u.Inv := by
    intro s a u hs hGuarded
    rcases Run.guarded_eq_some.mp hGuarded with ⟨hOk, hNext⟩
    exact hs.step hOk hNext
  exact Run.exec_invariant hStep hRun h

end Queue

end SingleStateQueue

end FrameworksAv
