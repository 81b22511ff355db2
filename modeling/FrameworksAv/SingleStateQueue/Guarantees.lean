import FrameworksAv.SingleStateQueue.Invariant
import Mathlib.Data.Fin.VecNotation

/-
  What the single state queue guarantees, in every interleaving of the loads and stores of its two
  sides.

  Two things are needed that the code does not check: an observer that has not polled for 2^31
  pushes takes the wrapped sequence for an old one, and a second `done` after one poll acknowledges
  the next push before it is observed.

  Main declarations:
    * `Queue.Guarantees`
    * `exec_guarantees`
    * `exec_beyondContract`
-/

--
-- Sequences And Acknowledgements
--

namespace FrameworksAv

namespace SingleStateQueue

namespace Queue

variable {ι W : Type} [Fintype ι] {q : Queue ι W}

/- The observer has not missed a whole period of pushes. -/
def Near (q : Queue ι W) : Prop :=
  q.hist.completed < q.hist.polled + 2 ^ 31

/- An unchanged sequence is that of the last polled push. -/
theorem Inv.unchanged (h : q.Inv) (hSame : q.shared.mSequence = q.observer.mSequence)
    (hNear : q.Near) : q.hist.polled = q.hist.completed := by
  have hLe := h.polled_le_position
  have hUpper := position_le_completed q
  have hLower := completed_le_position q
  rw [h.sharedSeq, h.observerSeq] at hSame
  have hDistance : q.position - 2 * q.hist.polled < 2 ^ 32 := by
    unfold Near at hNear
    omega
  have hEq := Counter.ofNat_inj_of_lt hLe hDistance hSame.symm
  have hPolled := h.polled_le
  omega

/- The words that differ from zero in the last bit only. -/
theorem le_one_of_high {x : Word} (hHigh : x &&& ~~~1 = 0) : x.toNat ≤ 1 := by
  have hField := Counter.high_ofNat x.toNat (k := 1) (by omega)
  rw [BitVec.ofNat_toNat, BitVec.setWidth_eq] at hField
  have hZero : BitVec.ofNat 32 (2 ^ 1 * (x.toNat / 2 ^ 1)) = 0 := by
    rw [← hField]
    exact hHigh
  have hNat := congrArg BitVec.toNat hZero
  have hLt := x.isLt
  rw [BitVec.toNat_ofNat] at hNat
  change _ = 0 at hNat
  omega

/- An acknowledgement is that of the last polled push. -/
theorem Inv.acknowledged (h : q.Inv) (hNear : q.Near)
    (hAck : (q.shared.mAck - q.mutator.mSequence) &&& ~~~1 = 0) :
    q.hist.polled = q.hist.completed := by
  have hSmall := le_one_of_high hAck
  have hDones := h.dones_le
  have hPolled := h.polled_le
  unfold Near at hNear
  rw [h.mAck, h.mutatorSeq] at hSmall
  simp only [BitVec.toNat_sub, BitVec.toNat_ofNat] at hSmall
  omega

end Queue

--
-- Guarantees
--

variable {ι W : Type} [DecidableEq ι] [Fintype ι]

/- The first load of a poll would return false. -/
def Queue.Unchanged (q : Queue ι W) : Prop :=
  q.reader = .idle ∧ q.shared.mSequence = q.observer.mSequence

/- What both sides may rely on at any moment. -/
structure Queue.Guarantees (q : Queue ι W) : Prop where
  -- a polled value was passed whole to the push it observed
  whole : ∀ r ∈ q.hist.results, Observed q.hist.pushes r
  -- successive polls observe strictly later pushes
  later : q.hist.results.Pairwise (fun a b => a.1 < b.1)
  -- nothing changed: the last polled push is the last one
  unchanged :
    q.Unchanged → q.Near →
      q.hist.polled = q.hist.completed ∧
        (0 < q.hist.completed → q.hist.pushes[q.hist.completed - 1]? = some q.value)
  -- a poll makes few rounds and accesses and never waits
  rounds_le : q.hist.rounds ≤ maxTries
  accesses_le : q.hist.accesses ≤ Queue.pollBound ι
  progress :
    q.reader.busy = true →
      ∃ a t, q.step a = some t ∧ t.writer = q.writer ∧ Queue.work t.reader < Queue.work q.reader
  -- an acknowledgement is about the latest push
  acknowledged :
    q.writer = .idle → q.Near →
      Mutator.ack q.shared q.mutator ≠ .pending → q.hist.polled = q.hist.completed
  acted :
    q.writer = .idle → q.Near →
      Mutator.ack q.shared q.mutator = .done → q.hist.polled = q.hist.completed ∧ q.hist.dones = 1

namespace Queue

variable {q : Queue ι W}

/- An observer inside a poll can always go on. -/
theorem Inv.progress (h : q.Inv) (hBusy : q.reader.busy = true) :
    ∃ a t, q.step a = some t ∧ t.writer = q.writer ∧ work t.reader < work q.reader := by
  have hReader := h.reader
  unfold ReaderInv at hReader
  cases hPlace : q.reader with
  | idle =>
    rw [hPlace] at hBusy
    cases hBusy
  | reload tries =>
    rw [hPlace] at hReader
    have hWork := work_round q.shared.mSequence hReader.2.1 q.value
    refine ⟨.pollReload, q.pollReload tries, ?_, rfl, ?_⟩
    · simp only [Queue.step, hPlace]
    · exact Nat.lt_succ_of_le hWork
  | copying before tries temp remaining =>
    by_cases hAll : remaining = ∅
    · have hWork := work_pollAfter q before tries temp
      refine ⟨.pollAfter, q.pollAfter before tries temp, ?_, ?_, ?_⟩
      · simp only [Queue.step, hPlace, if_pos hAll]
      · simp only [Queue.pollAfter]
        split
        · rfl
        · split <;> rfl
      · refine Nat.lt_of_le_of_lt hWork ?_
        simp only [work]
        omega
    · rcases Finset.nonempty_iff_ne_empty.mpr hAll with ⟨i, hi⟩
      refine ⟨.pollWord i, q.pollWord before tries temp remaining i, ?_, rfl, ?_⟩
      · simp only [Queue.step, hPlace, if_pos hi]
      · have hCard := Finset.card_erase_lt_of_mem hi
        simp only [Queue.pollWord, work]
        omega
  | acking before temp =>
    refine ⟨.pollAck, q.pollAck before temp, ?_, rfl, ?_⟩
    · simp only [Queue.step, hPlace]
    · exact Nat.zero_lt_one

end Queue

/-
  In every run whose polls see fewer than 2^31 pushes and whose observer is done with each poll once
  at most.
-/
theorem exec_guarantees (mValue value : ι → W) {as : List (Access ι W)} {q : Queue ι W}
    (hRun : Run.exec (Run.guarded Contract Queue.step) (Queue.init mValue value) as = some q) :
    q.Guarantees := by
  have h := (Queue.inv_init mValue value).run hRun
  have hAccesses := h.accesses_le
  refine
    { whole := fun r hr => (h.results r hr).1
      later := h.later
      unchanged := ?_
      rounds_le := h.rounds_le
      accesses_le := by omega
      progress := h.progress
      acknowledged := ?_
      acted := ?_ }
  · rintro ⟨_, hSame⟩ hNear
    have hLast := h.unchanged hSame hNear
    refine ⟨hLast, ?_⟩
    rw [← hLast]
    exact h.last
  · intro _ hNear hAck
    apply h.acknowledged hNear
    by_contra hNe
    exact hAck (by rw [Mutator.ack, if_pos hNe])
  · intro _ hNear hDone
    have hHigh : (q.shared.mAck - q.mutator.mSequence) &&& ~~~1 = 0 := by
      by_contra hNe
      rw [Mutator.ack, if_pos hNe] at hDone
      cases hDone
    refine ⟨h.acknowledged hNear hHigh, ?_⟩
    have hBit : q.shared.mAck &&& 1 ≠ 0 := by
      intro hEven
      rw [Mutator.ack, if_neg (not_not_intro hHigh), if_neg (not_not_intro hEven)] at hDone
      cases hDone
    rw [h.mAck, odd_iff] at hBit
    have hOnce := h.dones_le
    omega

/- A push of two words comes in between a copy of them. -/
def tornAccesses : List (Access (Fin 2) Nat) :=
  [.pushBegin ![1, 2], .pushWord 0, .pushWord 1, .pushEnd,
    .pollLoad, .pollWord 0, .pushBegin ![3, 4], .pushWord 1,
    .pollWord 1, .pollAfter, .pushWord 0, .pushEnd,
    .pollReload, .pollWord 1, .pollWord 0, .pollAfter, .pollAck, .done]

theorem exec_guarantees_torn :
    ∃ q,
      Run.exec (Run.guarded Contract Queue.step)
          (Queue.init ![0, 0] ![0, 0]) tornAccesses = some q ∧
        q.Guarantees := by
  have hSome :
      (Run.exec (Run.guarded Contract Queue.step) (Queue.init ![0, 0] ![0, 0])
        tornAccesses).isSome = true := by
    decide
  rcases Option.isSome_iff_exists.mp hSome with ⟨q, hRun⟩
  exact ⟨q, hRun, exec_guarantees _ _ hRun⟩

end SingleStateQueue

--
-- Beyond The Contract
--

namespace SingleStateQueue

/- One push of a single word. -/
def pushAccesses (value : Nat) : List (Access Unit Nat) :=
  [.pushBegin fun _ => value, .pushWord (), .pushEnd]

/- One push of an idle mutator beside an idle observer. -/
theorem exec_pushAccesses {q : Queue Unit Nat} (hWriter : q.writer = .idle)
    (hReader : q.reader = .idle) (value : Nat) :
    ∃ t,
      Run.exec (Run.guarded Contract Queue.step) q (pushAccesses value) = some t ∧
        t.writer = .idle ∧ t.reader = .idle ∧ t.hist.completed = q.hist.completed + 1 ∧
        t.hist.polled = q.hist.polled ∧ t.hist.dones = q.hist.dones := by
  have hIdle : q.reader.busy = true → False := by
    rw [hReader]
    exact Bool.false_ne_true
  refine
    ⟨((q.pushBegin fun _ => value).pushWord (fun _ => value) Finset.univ ()).pushEnd,
      ?_, rfl, hReader, rfl, rfl, rfl⟩
  refine Run.exec_cons_eq_some.mpr ⟨q.pushBegin fun _ => value, ?_, ?_⟩
  · refine Run.guarded_eq_some.mpr ⟨⟨trivial, trivial⟩, ?_⟩
    simp only [Queue.step, hWriter]
  refine Run.exec_cons_eq_some.mpr
    ⟨(q.pushBegin fun _ => value).pushWord (fun _ => value) Finset.univ (), ?_, ?_⟩
  · refine Run.guarded_eq_some.mpr ⟨⟨trivial, trivial⟩, ?_⟩
    rfl
  refine Run.exec_cons_eq_some.mpr
    ⟨((q.pushBegin fun _ => value).pushWord (fun _ => value) Finset.univ ()).pushEnd, ?_, rfl⟩
  refine Run.guarded_eq_some.mpr ⟨⟨?_, trivial⟩, rfl⟩
  exact fun hBusy => absurd hBusy hIdle

/- Any number of pushes that nobody polls. -/
theorem exec_pushes (n : Nat) :
    ∃ as q,
      Run.exec (Run.guarded Contract Queue.step) (Queue.init (fun (_ : Unit) => 0) fun _ => 0) as =
        some q ∧ q.writer = .idle ∧ q.reader = .idle ∧ q.hist.completed = n ∧ q.hist.polled = 0 ∧
        q.hist.dones = 0 := by
  induction n with
  | zero => exact ⟨[], _, rfl, rfl, rfl, rfl, rfl, rfl⟩
  | succ n ih =>
    rcases ih with ⟨as, q, hRun, hWriter, hReader, hCompleted, hPolled, hDones⟩
    rcases exec_pushAccesses hWriter hReader n with
      ⟨t, hMore, hWriter', hReader', hCompleted', hPolled', hDones'⟩
    refine
      ⟨as ++ pushAccesses n, t, Run.exec_append_eq_some.mpr ⟨q, hRun, hMore⟩,
        hWriter', hReader', ?_, ?_, ?_⟩
    · rw [hCompleted', hCompleted]
    · rw [hPolled', hPolled]
    · rw [hDones', hDones]

/- A push is acknowledged by a second `done`. -/
def doneTwice : List (Access Unit Nat) :=
  pushAccesses 1 ++ [.pollLoad, .pollWord (), .pollAfter, .pollAck, .done, .done] ++ pushAccesses 2

/-
  A poll after 2^31 pushes finds an unchanged sequence, and the mutator an acknowledgement; a second
  `done` makes the mutator take the next push for read.
-/
theorem exec_beyondContract :
    (∃ as q,
      Run.exec (Run.guarded FewPushes Queue.step) (Queue.init (fun (_ : Unit) => 0) fun _ => 0) as =
        some q ∧ q.Unchanged ∧ q.writer = .idle ∧ q.hist.completed = 2 ^ 31 ∧ q.hist.polled = 0 ∧
        Mutator.ack q.shared q.mutator = .read) ∧
      ∃ q,
        Run.exec (Run.guarded FewPushes Queue.step) (Queue.init (fun (_ : Unit) => 0) fun _ => 0)
            doneTwice = some q ∧
          q.writer = .idle ∧ q.hist.completed = 2 ∧ q.hist.polled = 1 ∧
          Mutator.ack q.shared q.mutator = .read := by
  constructor
  · rcases exec_pushes (2 ^ 31) with ⟨as, q, hRun, hWriter, hReader, hCompleted, hPolled, hDones⟩
    have h := (Queue.inv_init _ _).run hRun
    have hSequence : q.shared.mSequence = 0 := by
      rw [h.sharedSeq, Queue.position, hWriter, hCompleted]
      rfl
    have hObserver : q.observer.mSequence = 0 := by
      rw [h.observerSeq, hPolled]
      rfl
    have hMutator : q.mutator.mSequence = 0 := by
      rw [h.mutatorSeq, hCompleted]
      rfl
    have hAck : q.shared.mAck = 0 := by
      rw [h.mAck, hPolled, hDones]
      rfl
    refine
      ⟨as, q, Run.exec_guarded_mono (fun _ _ => And.left) hRun,
        ⟨hReader, ?_⟩, hWriter, hCompleted, hPolled, ?_⟩
    · rw [hSequence, hObserver]
    · rw [Mutator.ack, hAck, hMutator]
      rfl
  · have hValue :
        (Run.exec (Run.guarded FewPushes Queue.step) (Queue.init (fun (_ : Unit) => 0) fun _ => 0)
            doneTwice).map (fun q =>
          (q.writer, q.hist.completed, q.hist.polled, Mutator.ack q.shared q.mutator)) =
          some (.idle, 2, 1, .read) := by
      rfl
    rcases Option.map_eq_some_iff.mp hValue with ⟨q, hRun, hFacts⟩
    simp only [Prod.mk.injEq] at hFacts
    exact ⟨q, hRun, hFacts⟩

end SingleStateQueue

end FrameworksAv
