import FrameworksAv.ATSParser.Stream
import FrameworksAv.Base.Run
import Mathlib.Data.List.Nodup

/-
  What program maps do to the streams of a program.

  A switch of PIDs starts only if each type has as many streams as before, so it never runs out of
  new PIDs.

  Main declarations:
    * `Program.Consistent`, `Program.Maps`
    * `Program.Switching`, `Program.addBack_all`
    * `Program.programMap_keeps_streams`
-/

--
-- PIDs of types
--

namespace FrameworksAv

namespace ATSParser

namespace TypePIDs

def pids (m : TypePIDs) (type : Nat) : List Nat :=
  (m.lookup type).getD []

theorem pids_empty (t : Nat) : pids (KeyedVector.empty : TypePIDs) t = [] :=
  rfl

theorem pids_add (m : TypePIDs) (type t : Nat) (new : List Nat) :
    pids (m.add type new) t = if t = type then new else m.pids t := by
  unfold pids
  rw [KeyedVector.lookup_add]
  split
  · rfl
  · rfl

theorem pids_push (m : TypePIDs) (type pid t : Nat) :
    (m.push type pid).pids t = m.pids t ++ if type = t then [pid] else [] := by
  unfold push
  rw [pids_add]
  by_cases hEq : t = type
  · rw [if_pos hEq, if_pos (Eq.symm hEq), hEq]
    rfl
  · rw [if_neg hEq, if_neg (Ne.symm hEq), List.append_nil]

/- The PIDs pushed for a type, in order. -/
theorem pids_foldl_push {α : Type} (type pid : α → Nat) (xs : List α) (m : TypePIDs) (t : Nat) :
    (xs.foldl (fun m x => m.push (type x) (pid x)) m).pids t =
      m.pids t ++ (xs.filter (fun x => type x = t)).map pid := by
  induction xs generalizing m with
  | nil => simp
  | cons x xs ih =>
    rw [List.foldl_cons, ih, pids_push, List.append_assoc]
    congr 1
    by_cases hType : type x = t
    · rw [if_pos hType, List.filter_cons_of_pos (by simpa), List.map_cons, List.singleton_append]
    · rw [if_neg hType, List.filter_cons_of_neg (by simpa), List.nil_append]

theorem lookup_lengths {xs ys : List (Nat × List Nat)} (hLength : xs.length = ys.length)
    (hAll : ∀ e ∈ xs.zip ys, e.1.1 = e.2.1 ∧ e.1.2.length = e.2.2.length) (t : Nat) :
    ((xs.lookup t).getD []).length = ((ys.lookup t).getD []).length := by
  induction xs generalizing ys with
  | nil =>
    cases ys with
    | nil => rfl
    | cons y ys => cases hLength
  | cons x xs ih =>
    cases ys with
    | nil => cases hLength
    | cons y ys =>
      rw [List.zip_cons_cons] at hAll
      have hFirst := hAll (x, y) List.mem_cons_self
      rw [List.lookup_cons, List.lookup_cons, ← hFirst.1]
      cases t == x.1 with
      | true => exact hFirst.2
      | false =>
        apply ih (Nat.succ.inj hLength)
        intro e he
        exact hAll e (List.mem_cons_of_mem _ he)

/- Each type has as many PIDs in the one as in the other. -/
theorem length_pids_of_sameCounts {old new : TypePIDs} (hSame : Program.sameCounts old new = true)
    (t : Nat) : (old.pids t).length = (new.pids t).length := by
  unfold Program.sameCounts at hSame
  rw [decide_eq_true_eq] at hSame
  apply lookup_lengths hSame.1
  intro e he
  exact of_decide_eq_true (List.all_eq_true.mp hSame.2 e he)

end TypePIDs

--
-- Switches
--

namespace Program

/- Every stream is one that was made, under its own PID. -/
def Consistent (p : Program) : Prop :=
  ∀ k s, p.mStreams.lookup k = some s → s < p.made ∧ p.pid s = k

/- A stream of the type has the PID. -/
def Maps (p : Program) (info : StreamInfo) : Prop :=
  ∃ s, p.mStreams.lookup info.mPID = some s ∧ p.type s = info.mType

/- A stream object has one key only. -/
theorem Consistent.key_unique {p : Program} (h : p.Consistent) {k l s : Nat}
    (hk : p.mStreams.lookup k = some s) (hl : p.mStreams.lookup l = some s) : k = l :=
  (h k s hk).2.symm.trans (h l s hl).2

/- The streams of the table, each once. -/
theorem Consistent.streams_nodup {p : Program} (h : p.Consistent) :
    (p.mStreams.entries.map Prod.snd).Nodup := by
  have hKeys : ∀ e ∈ p.mStreams.entries, p.pid e.2 = e.1 := by
    intro e he
    exact (h e.1 e.2 (p.mStreams.lookup_eq_some_iff.mpr he)).2
  apply List.Nodup.of_map p.pid
  rw [List.map_map]
  have hMap : p.mStreams.entries.map (p.pid ∘ Prod.snd) = p.mStreams.keys :=
    List.map_congr_left hKeys
  rw [hMap]
  exact p.mStreams.keys_nodup

/- What holds between two turns of the loop of a switch. -/
structure Switching (p : Program) (temp : List (Nat × Nat)) (new : TypePIDs) : Prop where
  once : (temp.map Prod.snd).Nodup
  made : ∀ e ∈ temp, e.2 < p.made
  count : ∀ t, (new.pids t).length = temp.countP (fun e => p.type e.2 = t)
  pidsOnce : ∀ t, (new.pids t).Nodup
  oneType : ∀ t t' pid, pid ∈ new.pids t → pid ∈ new.pids t' → t = t'
  free : ∀ t pid, pid ∈ new.pids t → p.mStreams.lookup pid = none
  notSaved : ∀ k s, p.mStreams.lookup k = some s → s ∉ temp.map Prod.snd
  consistent : p.Consistent

/- The saved stream with its new PID. -/
def putBack (p : Program) (pid s : Nat) : Program :=
  let q := p.setObject s ((p.objects s).setPID pid)
  { q with mStreams := q.mStreams.add pid s }

theorem putBack_type (p : Program) (pid s t : Nat) : (p.putBack pid s).type t = p.type t := by
  unfold putBack type setObject
  simp only
  by_cases hEq : t = s
  · rw [hEq, Function.update_self]
    rfl
  · rw [Function.update_of_ne hEq]

theorem putBack_pid (p : Program) (pid s t : Nat) :
    (p.putBack pid s).pid t = if t = s then pid else p.pid t := by
  unfold putBack Program.pid setObject
  simp only
  by_cases hEq : t = s
  · rw [if_pos hEq, hEq, Function.update_self]
    rfl
  · rw [if_neg hEq, Function.update_of_ne hEq]

theorem putBack_lookup (p : Program) (pid s k : Nat) :
    (p.putBack pid s).mStreams.lookup k = if k = pid then some s else p.mStreams.lookup k :=
  KeyedVector.lookup_add _ _ _ _

variable {p : Program} {temp : List (Nat × Nat)} {new : TypePIDs}

/- There is a PID for the next stream. -/
theorem Switching.next {e : Nat × Nat} (h : Switching p (e :: temp) new) :
    ∃ pid rest, new.lookup (p.type e.2) = some (pid :: rest) := by
  have hCount := h.count (p.type e.2)
  rw [List.countP_cons_of_pos (by simp)] at hCount
  unfold TypePIDs.pids at hCount
  cases hLookup : new.lookup (p.type e.2) with
  | none =>
    rw [hLookup] at hCount
    cases hCount
  | some pids =>
    cases pids with
    | nil =>
      rw [hLookup] at hCount
      cases hCount
    | cons pid rest => exact ⟨pid, rest, rfl⟩

theorem Switching.step {e : Nat × Nat} {pid : Nat} {rest : List Nat}
    (h : Switching p (e :: temp) new) (hNext : new.lookup (p.type e.2) = some (pid :: rest)) :
    Switching (p.putBack pid e.2) temp (new.add (p.type e.2) rest) := by
  have hPids : new.pids (p.type e.2) = pid :: rest := by
    unfold TypePIDs.pids
    rw [hNext]
    rfl
  have hOld : ∀ t l, l ∈ TypePIDs.pids (new.add (p.type e.2) rest) t → l ∈ new.pids t := by
    intro t l hl
    rw [TypePIDs.pids_add] at hl
    split at hl
    · rename_i hEq
      rw [hEq, hPids]
      exact List.mem_cons_of_mem _ hl
    · exact hl
  -- the PID that is used up is not among the remaining ones
  have hOther : ∀ t l, l ∈ TypePIDs.pids (new.add (p.type e.2) rest) t → l ≠ pid := by
    intro t l hl hEq
    have hType := h.oneType t (p.type e.2) pid (hEq ▸ hOld t l hl) (hPids ▸ List.mem_cons_self)
    rw [TypePIDs.pids_add, if_pos hType, hEq] at hl
    have hNodup := h.pidsOnce (p.type e.2)
    rw [hPids] at hNodup
    exact (List.nodup_cons.mp hNodup).1 hl
  have hOnce := List.nodup_cons.mp h.once
  have hTypes :
      ∀ t,
        temp.countP (fun f => (p.putBack pid e.2).type f.2 = t) =
          temp.countP (fun f => p.type f.2 = t) := by
    intro t
    simp only [putBack_type]
  refine ⟨hOnce.2, ?_, ?_, ?_, ?_, ?_, ?_, ?_⟩
  · intro f hf
    exact h.made f (List.mem_cons_of_mem _ hf)
  · intro t
    have hCount := h.count t
    rw [hTypes, TypePIDs.pids_add]
    by_cases hEq : t = p.type e.2
    · rw [List.countP_cons_of_pos (by simp [hEq])] at hCount
      rw [hEq, hPids, List.length_cons] at hCount
      rw [if_pos hEq, hEq]
      omega
    · rw [List.countP_cons_of_neg (by simp [Ne.symm hEq])] at hCount
      rw [if_neg hEq]
      exact hCount
  · intro t
    rw [TypePIDs.pids_add]
    split
    · have hNodup := h.pidsOnce (p.type e.2)
      rw [hPids] at hNodup
      exact (List.nodup_cons.mp hNodup).2
    · exact h.pidsOnce t
  · intro t t' l hl hl'
    exact h.oneType t t' l (hOld t l hl) (hOld t' l hl')
  · intro t l hl
    rw [putBack_lookup, if_neg (hOther t l hl)]
    exact h.free t l (hOld t l hl)
  · intro k s hk
    rw [putBack_lookup] at hk
    split at hk
    · cases hk
      exact hOnce.1
    · intro hMem
      exact h.notSaved k s hk (List.mem_cons_of_mem _ hMem)
  · intro k s hk
    rw [putBack_lookup] at hk
    rw [putBack_pid]
    split at hk
    · rename_i hEq
      cases hk
      rw [if_pos rfl, hEq]
      exact ⟨h.made e List.mem_cons_self, rfl⟩
    · have hNe : s ≠ e.2 := by
        intro hEq
        apply h.notSaved k s hk
        rw [hEq]
        exact List.mem_cons_self
      rw [if_neg hNe]
      exact h.consistent k s hk

/- Every saved stream is added back, with a PID of its type. -/
theorem addBack_all (h : Switching p temp new) :
    ∃ q,
      addBack temp new p = (true, q) ∧ q.Consistent ∧ (∀ s, q.type s = p.type s) ∧
        (∀ k s, p.mStreams.lookup k = some s → q.mStreams.lookup k = some s) ∧
        (∀ e ∈ temp, ∃ k, q.mStreams.lookup k = some e.2) ∧
        ∀ t pid, pid ∈ new.pids t → q.Maps ⟨t, pid⟩ := by
  induction temp generalizing p new with
  | nil =>
    refine ⟨p, rfl, h.consistent, fun _ => rfl, fun _ _ hk => hk, ?_, ?_⟩
    · intro e he
      cases he
    · intro t pid hPid
      have hCount := h.count t
      rw [List.countP_nil, List.length_eq_zero_iff] at hCount
      rw [hCount] at hPid
      cases hPid
  | cons e temp ih =>
    rcases h.next with ⟨pid, rest, hNext⟩
    rcases ih (h.step hNext) with ⟨q, hEq, hConsistent, hTypes, hKept, hBack, hMaps⟩
    have hHere : q.mStreams.lookup pid = some e.2 := by
      apply hKept
      rw [putBack_lookup, if_pos rfl]
    have hType : ∀ s, q.type s = p.type s := by
      intro s
      rw [hTypes, putBack_type]
    refine ⟨q, ?_, hConsistent, hType, ?_, ?_, ?_⟩
    · have hPid : (p.setObject e.2 ((p.objects e.2).setPID pid)).pid e.2 = pid := by
        unfold Program.pid setObject
        simp only
        rw [Function.update_self]
        rfl
      unfold addBack
      rw [hNext]
      simp only
      rw [hPid]
      exact hEq
    · intro k s hk
      apply hKept
      rw [putBack_lookup, if_neg]
      · exact hk
      · intro hPid
        have hFree := h.free (p.type e.2) pid (by
          unfold TypePIDs.pids
          rw [hNext]
          exact List.mem_cons_self)
        rw [← hPid, hk] at hFree
        cases hFree
    · intro f hf
      rcases List.mem_cons.mp hf with hFirst | hLater
      · rw [hFirst]
        exact ⟨pid, hHere⟩
      · exact hBack f hLater
    · intro t l hl
      by_cases hFirst : t = p.type e.2 ∧ l = pid
      · rw [hFirst.1, hFirst.2]
        exact ⟨e.2, hHere, hType e.2⟩
      · apply hMaps
        rw [TypePIDs.pids_add]
        split
        · rename_i hEqType
          rw [hEqType] at hl
          unfold TypePIDs.pids at hl
          rw [hNext] at hl
          rcases List.mem_cons.mp hl with hPid | hRest
          · exact absurd ⟨hEqType, hPid⟩ hFirst
          · exact hRest
        · exact hl

end Program

--
-- Updates
--

namespace Program

variable {p : Program} {infos : List StreamInfo}

theorem new_pids_eq (infos : List StreamInfo) (t : Nat) :
    TypePIDs.pids (newType2PIDs infos) t =
      (infos.filter (fun info => info.mType = t)).map StreamInfo.mPID := by
  unfold newType2PIDs
  rw [TypePIDs.pids_foldl_push, TypePIDs.pids_empty, List.nil_append]

theorem mem_new_pids {t pid : Nat} :
    pid ∈ TypePIDs.pids (newType2PIDs infos) t ↔ ⟨t, pid⟩ ∈ infos := by
  rw [new_pids_eq, List.mem_map]
  constructor
  · rintro ⟨⟨t', pid'⟩, hMem, hPid⟩
    rcases List.mem_filter.mp hMem with ⟨hInfo, hType⟩
    cases hPid
    have hEq : t' = t := of_decide_eq_true hType
    rw [← hEq]
    exact hInfo
  · intro hMem
    exact ⟨⟨t, pid⟩, List.mem_filter.mpr ⟨hMem, decide_eq_true rfl⟩, rfl⟩

/- A switch that starts has what its loop needs. -/
theorem Consistent.switching (h : p.Consistent) (hDistinct : (infos.map StreamInfo.mPID).Nodup)
    (hSame : sameCounts p.oldType2PIDs (newType2PIDs infos) = true) :
    Switching { p with mStreams := KeyedVector.empty }
      p.mStreams.entries (newType2PIDs infos) := by
  refine ⟨h.streams_nodup, ?_, ?_, ?_, ?_, ?_, ?_, ?_⟩
  · intro e he
    exact (h e.1 e.2 (p.mStreams.lookup_eq_some_iff.mpr he)).1
  · intro t
    rw [← TypePIDs.length_pids_of_sameCounts hSame t]
    unfold oldType2PIDs
    rw [TypePIDs.pids_foldl_push, TypePIDs.pids_empty,
      List.nil_append, List.length_map, List.countP_eq_length_filter]
    rfl
  · intro t
    rw [new_pids_eq]
    exact hDistinct.sublist (List.filter_sublist.map _)
  · intro t t' pid hl hl'
    rw [mem_new_pids] at hl hl'
    have hEq := List.inj_on_of_nodup_map hDistinct hl hl' rfl
    exact congrArg StreamInfo.mType hEq
  · intro t pid _
    rfl
  · intro k s hk
    cases hk
  · intro k s hk
    cases hk

/- A switch that is given up leaves the program alone. -/
theorem Consistent.switchPIDs (h : p.Consistent) (hDistinct : (infos.map StreamInfo.mPID).Nodup) :
    p.switchPIDs infos = (false, p) ∨
      ∃ q,
        p.switchPIDs infos = (true, q) ∧ q.Consistent ∧
          (∀ k s, p.mStreams.lookup k = some s → ∃ l, q.mStreams.lookup l = some s) ∧
          ∀ info ∈ infos, q.Maps info := by
  unfold Program.switchPIDs
  split
  · rename_i hStart
    rcases addBack_all (h.switching hDistinct hStart.2) with
      ⟨q, hEq, hConsistent, _, _, hBack, hMaps⟩
    refine Or.inr ⟨q, hEq, hConsistent, ?_, ?_⟩
    · intro k s hk
      exact hBack (k, s) (p.mStreams.lookup_eq_some_iff.mp hk)
    · intro info hInfo
      exact hMaps info.mType info.mPID (mem_new_pids.mpr hInfo)
  · exact Or.inl rfl

/- One more stream leaves the others where they are. -/
theorem Consistent.addStream (h : p.Consistent) (PCR_PID : Nat) (info : StreamInfo) :
    (p.addStream PCR_PID info).Consistent ∧
      (∀ k s, p.mStreams.lookup k = some s →
        (p.addStream PCR_PID info).mStreams.lookup k = some s ∧
          (p.addStream PCR_PID info).type s = p.type s) ∧
      (∀ k, k ≠ info.mPID → (p.addStream PCR_PID info).mStreams.lookup k = p.mStreams.lookup k) ∧
      (p.mStreams.lookup info.mPID = none → (p.addStream PCR_PID info).Maps info) := by
  unfold Program.addStream
  cases hLookup : p.mStreams.lookup info.mPID with
  | some s =>
    refine ⟨h, fun _ _ hk => ⟨hk, rfl⟩, fun _ _ => rfl, ?_⟩
    intro hNone
    cases hNone
  | none =>
    have hOld : ∀ k s, p.mStreams.lookup k = some s → k ≠ info.mPID ∧ s ≠ p.made := by
      intro k s hk
      constructor
      · intro hEq
        rw [hEq, hLookup] at hk
        cases hk
      · exact Nat.ne_of_lt (h k s hk).1
    refine ⟨?_, ?_, ?_, ?_⟩
    · intro k s hk
      simp only [KeyedVector.lookup_add] at hk
      unfold Program.pid
      simp only
      split at hk
      · rename_i hEq
        cases hk
        rw [Function.update_self, hEq]
        exact ⟨Nat.lt_succ_self _, rfl⟩
      · rw [Function.update_of_ne (hOld k s hk).2]
        exact ⟨Nat.lt_succ_of_lt (h k s hk).1, (h k s hk).2⟩
    · intro k s hk
      rw [KeyedVector.lookup_add, if_neg (hOld k s hk).1]
      refine ⟨hk, ?_⟩
      unfold type
      simp only
      rw [Function.update_of_ne (hOld k s hk).2]
    · intro k hk
      rw [KeyedVector.lookup_add, if_neg hk]
    · intro _
      refine ⟨p.made, ?_, ?_⟩
      · rw [KeyedVector.lookup_add, if_pos rfl]
      · unfold type
        simp only
        rw [Function.update_self]
        rfl

theorem Consistent.addStreams (h : p.Consistent) (PCR_PID : Nat)
    (hDistinct : (infos.map StreamInfo.mPID).Nodup)
    (hTypes : ∀ info ∈ infos, ∀ s, p.mStreams.lookup info.mPID = some s → p.type s = info.mType) :
    (p.addStreams PCR_PID infos).Consistent ∧
      (∀ k s, p.mStreams.lookup k = some s →
        (p.addStreams PCR_PID infos).mStreams.lookup k = some s ∧
          (p.addStreams PCR_PID infos).type s = p.type s) ∧
      ∀ info ∈ infos, (p.addStreams PCR_PID infos).Maps info := by
  induction infos generalizing p with
  | nil =>
    refine ⟨h, fun _ _ hk => ⟨hk, rfl⟩, ?_⟩
    intro info hInfo
    cases hInfo
  | cons first infos ih =>
    rw [List.map_cons, List.nodup_cons] at hDistinct
    rcases h.addStream PCR_PID first with ⟨hConsistent, hKept, hOther, hNew⟩
    have hLater :
        ∀ info ∈ infos, ∀ s,
          (p.addStream PCR_PID first).mStreams.lookup info.mPID = some s →
            (p.addStream PCR_PID first).type s = info.mType := by
      intro info hInfo s hs
      have hNe : info.mPID ≠ first.mPID := by
        intro hEq
        apply hDistinct.1
        rw [← hEq]
        exact List.mem_map_of_mem hInfo
      rw [hOther _ hNe] at hs
      rw [(hKept _ _ hs).2]
      exact hTypes info (List.mem_cons_of_mem _ hInfo) s hs
    rcases ih hConsistent hDistinct.2 hLater with ⟨hAll, hKeptAll, hMaps⟩
    refine ⟨hAll, ?_, ?_⟩
    · intro k s hk
      rcases hKept k s hk with ⟨hStill, hType⟩
      rcases hKeptAll k s hStill with ⟨hEnd, hTypeEnd⟩
      exact ⟨hEnd, hTypeEnd.trans hType⟩
    · intro info hInfo
      rcases List.mem_cons.mp hInfo with hFirst | hRest
      · have hMapped : (p.addStream PCR_PID first).Maps first := by
          cases hLookup : p.mStreams.lookup first.mPID with
          | none => exact hNew hLookup
          | some s =>
            rcases hKept _ _ hLookup with ⟨hStill, hType⟩
            refine ⟨s, hStill, ?_⟩
            rw [hType]
            exact hTypes first List.mem_cons_self s hLookup
        rcases hMapped with ⟨s, hs, hType⟩
        rcases hKeptAll _ _ hs with ⟨hEnd, hTypeEnd⟩
        rw [hFirst]
        exact ⟨s, hEnd, hTypeEnd.trans hType⟩
      · exact hMaps info hRest

/- What a program map with distinct PIDs does. -/
theorem Consistent.updateStreams (h : p.Consistent) (PCR_PID : Nat)
    (hDistinct : (infos.map StreamInfo.mPID).Nodup) :
    p.updateStreams PCR_PID infos = (.ERROR_MALFORMED, p) ∨
      ∃ q,
        p.updateStreams PCR_PID infos = (.OK, q) ∧ q.Consistent ∧ (∀ info ∈ infos, q.Maps info) ∧
          ∀ k s, p.mStreams.lookup k = some s → ∃ l, q.mStreams.lookup l = some s := by
  unfold Program.updateStreams
  split
  · rcases h.switchPIDs hDistinct with
      hFailed | ⟨q, hEq, hConsistent, hKept, hMaps⟩
    · rw [hFailed]
      exact Or.inl rfl
    · rw [hEq]
      have hTypes :
          ∀ info ∈ infos, ∀ s, q.mStreams.lookup info.mPID = some s → q.type s = info.mType := by
        intro info hInfo s hs
        rcases hMaps info hInfo with ⟨t, ht, hType⟩
        rw [ht] at hs
        cases hs
        exact hType
      rcases hConsistent.addStreams PCR_PID hDistinct hTypes with ⟨hAll, hKeptAll, hMapped⟩
      refine Or.inr ⟨_, rfl, hAll, hMapped, ?_⟩
      intro k s hk
      rcases hKept k s hk with ⟨l, hl⟩
      exact ⟨l, (hKeptAll l s hl).1⟩
  · rename_i hSame
    have hTypes :
        ∀ info ∈ infos, ∀ s, p.mStreams.lookup info.mPID = some s → p.type s = info.mType := by
      intro info hInfo s hs
      by_contra hNe
      apply hSame
      unfold pidsChanged
      rw [List.any_eq_true]
      refine ⟨info, hInfo, ?_⟩
      rw [hs]
      exact decide_eq_true hNe
    rcases h.addStreams PCR_PID hDistinct hTypes with ⟨hAll, hKept, hMapped⟩
    refine Or.inr ⟨_, rfl, hAll, hMapped, ?_⟩
    intro k s hk
    exact ⟨k, (hKept k s hk).1⟩

end Program

--
-- Calls
--

namespace Stream

variable {s t : Stream}

/- Both streams have the same PID and the same type. -/
def Same (s t : Stream) : Prop :=
  t.mElementaryPID = s.mElementaryPID ∧ t.mStreamType = s.mStreamType

theorem flush_same {status : Status} {w : Bool} (hFlush : s.flush = some ((status, t), w)) :
    s.Same t := by
  unfold flush at hFlush
  split at hFlush
  · cases hFlush
    exact ⟨rfl, rfl⟩
  · rcases Checked.bind_eq_some.mp hFlush with ⟨⟨result, r⟩, _, _, _, hRest, _⟩
    cases result with
    | none =>
      cases hRest
      exact ⟨rfl, rfl⟩
    | some next =>
      cases hRest
      exact ⟨rfl, rfl⟩

theorem start_same {begins : Bool} {w : Bool} (hStart : s.start begins = some (t, w)) :
    s.Same t := by
  unfold start at hStart
  split at hStart
  · rcases Checked.bind_eq_some.mp hStart with ⟨⟨status, u⟩, _, _, hFirst, hRest, _⟩
    have hSame : s.Same u := by
      split at hFirst
      · exact flush_same hFirst
      · cases hFirst
        exact ⟨rfl, rfl⟩
    cases hRest
    exact hSame
  · cases hStart
    exact ⟨rfl, rfl⟩

theorem take_same (br : ABitReader) : s.Same (s.take br).2 := by
  unfold take
  split
  · split
    · exact ⟨rfl, rfl⟩
    · exact ⟨rfl, rfl⟩
  · exact ⟨rfl, rfl⟩

/- A packet changes neither the PID nor the type. -/
theorem parse_same {continuity_counter : Nat} {begins : Bool} {br : ABitReader} {status : Status}
    {w : Bool} (hParse : s.parse continuity_counter begins br = some ((status, t), w)) :
    s.Same t := by
  unfold parse at hParse
  split at hParse
  · cases hParse
    exact ⟨rfl, rfl⟩
  · have hReset : ∀ lost : Bool, s.Same (if lost then s.startOver else s) := by
      intro lost
      cases lost with
      | true => exact ⟨rfl, rfl⟩
      | false => exact ⟨rfl, rfl⟩
    have hFirst := hReset (s.discontinuity continuity_counter)
    simp only at hParse
    split at hParse
    · cases hParse
      exact hFirst
    · rcases Checked.bind_eq_some.mp hParse with ⟨u, _, _, hStart, hRest, _⟩
      have hSecond := start_same hStart
      have hThird : u.Same t := by
        have hTake := take_same (s := u) br
        rcases Checked.pure_eq_some.mp hRest with ⟨hEq, _⟩
        rw [hEq] at hTake
        exact hTake
      exact ⟨(hThird.1.trans hSecond.1).trans hFirst.1, (hThird.2.trans hSecond.2).trans hFirst.2⟩

end Stream

namespace Program

open Parse

/- A program map section, or a packet for a stream. -/
inductive Call where
| programMap (sectionBytes : List Byte)
| packet (pid continuity_counter : Nat) (payload_unit_start_indicator : Bool) (br : ABitReader)

/- What is read of a program map section, if all of it is. -/
def mapInfos (sectionBytes : List Byte) : Option (Nat × List StreamInfo) :=
  match readProgramMap.run (ABitReader.create sectionBytes)
  with
  | some ((some m, _), _) => some m
  | _ => none

/- No two streams of the section have the same PID. -/
def DistinctPIDs : Call → Prop
| .programMap sectionBytes => ∀ m ∈ mapInfos sectionBytes, (m.2.map StreamInfo.mPID).Nodup
| .packet _ _ _ _ => True

instance (call : Call) : Decidable (DistinctPIDs call) := by
  cases call <;> unfold DistinctPIDs <;> infer_instance

variable (p : Program)

def receive : Call → Checked (Option (Status × Program))
| .programMap sectionBytes => p.parsePSISection p.mProgramMapPID (ABitReader.create sectionBytes)
| .packet pid continuity_counter begins br => p.parsePID pid continuity_counter begins br

def step (call : Call) : Option Program :=
  Option.map (fun r => (r.1.map Prod.snd).getD p) (p.receive call)

variable {p q : Program}

/- The sections that are accepted are read to the end. -/
theorem receive_programMap {sectionBytes : List Byte} {status : Status} {w : Bool}
    (hReceive : p.receive (.programMap sectionBytes) = some (some (status, q), w)) :
    (status = .ERROR_MALFORMED ∧ q = p) ∨
      ∃ PCR_PID infos,
        mapInfos sectionBytes = some (PCR_PID, infos) ∧
          (status, q) = p.updateStreams PCR_PID infos := by
  replace hReceive :
      p.parsePSISection p.mProgramMapPID (ABitReader.create sectionBytes) =
        some (some (status, q), w) :=
    hReceive
  unfold parsePSISection at hReceive
  rw [if_neg (not_not_intro rfl)] at hReceive
  rcases Checked.bind_eq_some.mp hReceive with ⟨⟨result, r⟩, _, _, hRun, hRest, _⟩
  unfold parseProgramMap at hRun
  rcases run_bind hRun with hStop | ⟨m, r', v, u, hMap, hNext⟩
  · have hNone : result = none := hStop.2
    rw [hNone] at hRest
    cases hRest
    exact Or.inl ⟨rfl, rfl⟩
  · have hResult : some (p.updateStreams m.1 m.2) = result :=
      congrArg (fun x => x.1.1) (Option.some.inj hNext)
    rw [← hResult] at hRest
    rcases Checked.pure_eq_some.mp hRest with ⟨hEq, _⟩
    refine Or.inr ⟨m.1, m.2, ?_, Eq.symm (Option.some.inj hEq)⟩
    unfold mapInfos
    rw [hMap]

theorem Consistent.new (programNumber programMapPID : Nat) :
    (new programNumber programMapPID).Consistent := by
  intro k s hk
  cases hk

theorem Consistent.parsePID (h : p.Consistent) {pid continuity_counter : Nat} {begins : Bool}
    {br : ABitReader} {status : Status} {w : Bool}
    (hParse : p.parsePID pid continuity_counter begins br = some (some (status, q), w)) :
    q.Consistent := by
  unfold Program.parsePID at hParse
  cases hLookup : p.mStreams.lookup pid with
  | none =>
    rw [hLookup] at hParse
    cases hParse
  | some s =>
    rw [hLookup] at hParse
    rcases Checked.bind_eq_some.mp hParse with ⟨⟨err, stream⟩, _, _, hStream, hRest, _⟩
    cases hRest
    have hSame := Stream.parse_same hStream
    intro k t hk
    have hOld := h k t hk
    refine ⟨hOld.1, ?_⟩
    unfold Program.pid setObject
    simp only
    by_cases hEq : t = s
    · rw [hEq, Function.update_self, hSame.1]
      rw [hEq] at hOld
      exact hOld.2
    · rw [Function.update_of_ne hEq]
      exact hOld.2

/- Every call keeps the streams under their own PIDs. -/
theorem Consistent.receive (h : p.Consistent) {call : Call} (hDistinct : DistinctPIDs call)
    {status : Status} {w : Bool} (hReceive : p.receive call = some (some (status, q), w)) :
    q.Consistent := by
  cases call with
  | packet pid continuity_counter begins br => exact h.parsePID hReceive
  | programMap sectionBytes =>
    rcases receive_programMap hReceive with ⟨_, hSame⟩ | ⟨PCR_PID, infos, hMap, hEq⟩
    · rw [hSame]
      exact h
    · rcases h.updateStreams PCR_PID (hDistinct _ hMap) with
        hFailed | ⟨q', hUpdated, hConsistent, _⟩
      · rw [hFailed] at hEq
        cases hEq
        exact h
      · rw [hUpdated] at hEq
        cases hEq
        exact hConsistent

theorem Consistent.of_run {programNumber programMapPID : Nat} {calls : List Call}
    (hRun :
      Run.exec (Run.guarded (fun _ c => DistinctPIDs c) step)
          (Program.new programNumber programMapPID) calls =
        some p) :
    p.Consistent := by
  apply Run.exec_invariant ?_ hRun (Consistent.new programNumber programMapPID)
  intro s call t hs hStep
  rcases Run.guarded_eq_some.mp hStep with ⟨hDistinct, hNext⟩
  unfold step at hNext
  rcases Option.map_eq_some_iff.mp hNext with ⟨⟨result, w⟩, hReceive, hEq⟩
  cases result with
  | none =>
    rw [← hEq]
    exact hs
  | some next =>
    rw [← hEq]
    exact hs.receive hDistinct hReceive

/-
  After any program maps with distinct PIDs and any packets, a further such map that is accepted
  leaves each of its PIDs with a stream of its type, every stream under its own PID and under no
  other, and no stream is lost. One that is not accepted changes nothing.
-/
theorem programMap_keeps_streams {programNumber programMapPID : Nat} {calls : List Call}
    (hRun :
      Run.exec (Run.guarded (fun _ c => DistinctPIDs c) step)
          (Program.new programNumber programMapPID) calls =
        some p)
    {sectionBytes : List Byte} (hDistinct : DistinctPIDs (.programMap sectionBytes))
    {status : Status} {w : Bool}
    (hReceive : p.receive (.programMap sectionBytes) = some (some (status, q), w)) :
    (status = .OK →
        ∃ PCR_PID infos,
          mapInfos sectionBytes = some (PCR_PID, infos) ∧ (∀ info ∈ infos, q.Maps info) ∧
            (∀ k s, q.mStreams.lookup k = some s → s < q.made ∧ q.pid s = k) ∧
            (∀ k l s, q.mStreams.lookup k = some s → q.mStreams.lookup l = some s → k = l) ∧
            ∀ k s, p.mStreams.lookup k = some s → ∃ l, q.mStreams.lookup l = some s) ∧
      (status ≠ .OK → status = .ERROR_MALFORMED ∧ q = p) := by
  have hConsistent := Consistent.of_run hRun
  rcases receive_programMap hReceive with ⟨hError, hSame⟩ | ⟨PCR_PID, infos, hMap, hEq⟩
  · refine ⟨?_, fun _ => ⟨hError, hSame⟩⟩
    intro hOk
    rw [hError] at hOk
    cases hOk
  · rcases hConsistent.updateStreams PCR_PID (hDistinct _ hMap) with
      hFailed | ⟨q', hUpdated, hAll, hMaps, hKept⟩
    · rw [hFailed] at hEq
      cases hEq
      exact ⟨(fun hOk => nomatch hOk), fun _ => ⟨rfl, rfl⟩⟩
    · rw [hUpdated] at hEq
      cases hEq
      constructor
      · intro _
        exact ⟨PCR_PID, infos, hMap, hMaps, hAll, fun _ _ _ hk hl => hAll.key_unique hk hl, hKept⟩
      · intro hNot
        exact absurd rfl hNot

/- A program map section with two streams. -/
def twoStreams (first second : List Byte) : List Byte :=
  [0x02, 0xb0, 0x17, 0, 1, 0xc1, 0, 0, 0xe1, 0, 0xf0, 0] ++
    (first ++ [0xf0, 0]) ++ (second ++ [0xf0, 0]) ++ [0, 0, 0, 0]

def before : Call :=
  .programMap (twoStreams [0x1b, 0xe1, 0x00] [0x0f, 0xe1, 0x01])

/- The two streams with each other's PIDs. -/
def swapped : List Byte :=
  twoStreams [0x1b, 0xe1, 0x01] [0x0f, 0xe1, 0x00]

theorem programMap_keeps_streams_swapped :
    ∃ p q w,
      Run.exec (Run.guarded (fun _ c => DistinctPIDs c) step)
          (Program.new 1 0x20) [before] = some p ∧
        p.receive (.programMap swapped) = some (some (.OK, q), w) ∧
        p.mStreams.keys = [0x100, 0x101] ∧
        ∀ k s, p.mStreams.lookup k = some s → ∃ l, q.mStreams.lookup l = some s := by
  have hRuns :
      (Run.exec (Run.guarded (fun _ c => DistinctPIDs c) step) (Program.new 1 0x20) [before]).any
        (fun p =>
          p.mStreams.keys = [0x100, 0x101] ∧
            Option.any (fun r => r.1.any (fun next => next.1 = .OK))
              (p.receive (.programMap swapped))) =
        true := by
    decide +kernel
  have hDistinct : DistinctPIDs (.programMap swapped) := by
    decide +kernel
  rcases (Option.any_eq_true _ _).mp hRuns with ⟨p, hRun, hNext⟩
  rw [decide_eq_true_eq] at hNext
  rcases (Option.any_eq_true _ _).mp hNext.2 with ⟨⟨result, w⟩, hReceive, hResult⟩
  rcases (Option.any_eq_true _ _).mp hResult with ⟨⟨status, q⟩, hSome, hOk⟩
  have hStatus : status = .OK := of_decide_eq_true hOk
  simp only at hSome
  rw [hSome, hStatus] at hReceive
  rcases (programMap_keeps_streams hRun hDistinct hReceive).1
    rfl with ⟨_, _, _, _, _, _, hKept⟩
  exact ⟨p, q, w, hRun, hReceive, hNext.1, hKept⟩

end Program

end ATSParser

end FrameworksAv
