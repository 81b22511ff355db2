import FrameworksAv.Camera3.Slots

/-
  What a stream reports to the tracker.

  A stream's component is active while buffers are out that were taken in the state
  `STATE_CONFIGURED`. Buffers taken for the registration or the preparation are not reported.

  Main declarations:
    * `Slots.Active`, `Slots.Settled`, `Report.Fits`
    * `SlotStep.settled`
    * `SlotStep.fits`
-/

--
-- Reports of a stream
--

namespace FrameworksAv

namespace Camera3

/- Buffers are out that the tracker is to know of. -/
def Slots.Active (v : Slots) : Prop :=
  v.mState = .STATE_CONFIGURED ∧ 0 < v.out

/- The buffers that are out are reported, but for those that are prepared. -/
structure Slots.Settled (v : Slots) : Prop where
  untracked : v.configuring → v.mStatusId = NO_STATUS_ID
  idle : v.mState ≠ .STATE_CONFIGURED → v.mState ≠ .STATE_PREPARING → v.out = 0
  configured : v.mState = .STATE_CONFIGURED → v.mStatusId = NO_STATUS_ID → v.out = 0
  preparing : v.mState = .STATE_PREPARING → v.out ≤ v.mPreparedBufferIdx

/- A buffer is taken only where that is reported. -/
def Slots.Reports (v : Slots) : Action → Prop
| .getBuffer _ => v.mState = .STATE_CONFIGURED → v.mStatusId ≠ NO_STATUS_ID
| .resume dequeue =>
  dequeue = .OK → v.mState.gets → v.mState = .STATE_CONFIGURED ∧ v.mStatusId ≠ NO_STATUS_ID
| _ => True

/- What a report says of the slots before and after it. -/
def Report.Fits (v w : Slots) : Report → Prop
| .nothing => w.mStatusId = v.mStatusId ∧ (w.Active ↔ v.Active)
| .added id => v.mStatusId = NO_STATUS_ID ∧ w.mStatusId = id ∧ ¬ w.Active
| .removed id => v.mStatusId = id ∧ id ≠ NO_STATUS_ID ∧ w.mStatusId = NO_STATUS_ID
| .marked change =>
  v.mStatusId = change.id ∧ w.mStatusId = change.id ∧
    change.id ≠ NO_STATUS_ID ∧ (w.Active ↔ change.state = .ACTIVE) ∧
    (v.Active ↔ change.state = .IDLE)

theorem not_active_of_out {v : Slots} (hOut : v.out = 0) : ¬ v.Active := by
  rintro ⟨-, hSome⟩
  omega

theorem not_active_of_mState {v : Slots} (hState : v.mState ≠ .STATE_CONFIGURED) : ¬ v.Active :=
  fun hActive => hState hActive.1

@[simp] theorem signal_mStatusId (v : Slots) : v.signal.mStatusId = v.mStatusId := by
  unfold Slots.signal
  split
  · rfl
  · rfl

@[simp] theorem signal_active (v : Slots) : v.signal.Active ↔ v.Active := by
  simp [Slots.Active]

theorem Slots.Settled.of_none {v : Slots} (hOut : v.out = 0)
    (hUntracked : v.configuring → v.mStatusId = NO_STATUS_ID) : v.Settled where
  untracked := hUntracked
  idle _ _ := hOut
  configured _ _ := hOut
  preparing _ := by
    rw [hOut]
    exact Nat.zero_le _

theorem Slots.Settled.fewer {v : Slots} (hSettled : v.Settled) {out : Nat} (hOut : out ≤ v.out) :
    ({ v with out := out } : Slots).Settled := by
  constructor
  · exact hSettled.untracked
  · intro hOne hTwo
    have hNone := hSettled.idle hOne hTwo
    simp only
    omega
  · intro hState hId
    have hNone := hSettled.configured hState hId
    simp only
    omega
  · intro hState
    have hPrepared := hSettled.preparing hState
    simp only
    omega

theorem Slots.Settled.signal {v : Slots} (hSettled : v.Settled) : v.signal.Settled := by
  unfold Slots.signal
  split
  · exact hSettled
  · exact ⟨hSettled.untracked, hSettled.idle, hSettled.configured, hSettled.preparing⟩

/- Nothing is out during a configuration. -/
theorem Slots.Settled.none_of_configuring {v : Slots} (hSettled : v.Settled)
    (hConfiguring : v.configuring) : v.out = 0 := by
  rcases hConfiguring with hState | hState
  · exact hSettled.idle (by simp [hState]) (by simp [hState])
  · exact hSettled.idle (by simp [hState]) (by simp [hState])

/- All that is out is prepared. -/
theorem Slots.Settled.none_of_prepared {v : Slots} (hSettled : v.Settled)
    (hState : v.mState = .STATE_PREPARING) : v.out - v.mPreparedBufferIdx = 0 :=
  Nat.sub_eq_zero_of_le (hSettled.preparing hState)

/- More buffers in the state that reports them. -/
theorem Slots.Settled.of_tracked {v : Slots} (hState : v.mState = .STATE_CONFIGURED)
    (hId : v.mStatusId ≠ NO_STATUS_ID) : v.Settled := by
  constructor
  · rintro (hConfig | hConfig)
    · simp [hState] at hConfig
    · simp [hState] at hConfig
  · exact fun hNot => absurd hState hNot
  · exact fun _ hNone => absurd hNone hId
  · simp [hState]

theorem SlotStep.settled {v w : Slots} {a : Action} {report : Report}
    (hStep : SlotStep v a report w) (hReports : v.Reports a) (hSettled : v.Settled) :
    w.Settled := by
  cases hStep with
  | same => exact hSettled
  | unanswered | written | waits | leaves | timesOut =>
    exact ⟨hSettled.untracked, hSettled.idle, hSettled.configured, hSettled.preparing⟩
  | started usage query signaled hState =>
    have hNone := hSettled.idle (by simp [hState]) (by simp [hState])
    exact .of_none hNone fun _ => rfl
  | restarted usage query signaled hState hOut => exact .of_none hOut fun _ => rfl
  | kept hal reply id hState =>
    have hNone := hSettled.none_of_configuring (Or.inr hState)
    exact .of_none hNone nofun
  | finished hal reply id hConfiguring hOut => exact .of_none hOut nofun
  | failed hal reply id hConfiguring =>
    have hNone := hSettled.none_of_configuring hConfiguring
    exact .of_none hNone nofun
  | cancelled hState =>
    have hNone := hSettled.none_of_configuring (Or.inl hState)
    exact .of_none hNone nofun
  | recancelled hState =>
    have hNone := hSettled.none_of_configuring (Or.inr hState)
    exact .of_none hNone nofun
  | preparing maxCount hState hOut => exact .of_none hOut nofun
  | prepared dequeue replies hState =>
    have hPrepared := hSettled.preparing hState
    constructor
    · exact hSettled.untracked
    · intro _ hNot
      exact absurd hState hNot
    · simp [hState]
    · intro _
      exact Nat.succ_le_succ hPrepared
  | preparedAll dequeue replies hState => exact .of_none (hSettled.none_of_prepared hState) nofun
  | givenUp replies hState => exact .of_none (hSettled.none_of_prepared hState) nofun
  | tornDown reply hState hOut => exact .of_none hOut nofun
  | takes dequeue hState hFree => exact .of_tracked hState (hReports hState)
  | resumes dequeue hDequeue hWoken hGets =>
    have hState := hReports hDequeue hGets
    exact .of_tracked hState.1 hState.2
  | refused buffer reply hOut => exact hSettled.signal
  | returned buffer reply fence hOut => exact (hSettled.fewer (Nat.sub_le _ 1)).signal

theorem removal_fits {v w : Slots} (hId : w.mStatusId = NO_STATUS_ID) (hBefore : ¬ v.Active)
    (hAfter : ¬ w.Active) : v.removal.Fits v w := by
  unfold Slots.removal
  by_cases hNone : v.mStatusId = NO_STATUS_ID
  · rw [if_neg (not_not.mpr hNone)]
    exact ⟨hId.trans hNone.symm, iff_of_false hAfter hBefore⟩
  · rw [if_pos hNone]
    exact ⟨rfl, hNone, hId⟩

/- A buffer is taken in the state that reports it. -/
theorem activation_fits {v w : Slots} (hState : v.mState = .STATE_CONFIGURED)
    (hTracked : v.mStatusId ≠ NO_STATUS_ID) (hSame : w.mState = v.mState)
    (hId : w.mStatusId = v.mStatusId) (hOut : w.out = v.out + 1) : v.activation.Fits v w := by
  have hAfter : w.Active := ⟨hSame.trans hState, by omega⟩
  unfold Slots.activation
  by_cases hFirst : v.out = 0
  · rw [if_pos ⟨hFirst, by rw [hState]; exact rfl⟩]
    refine ⟨rfl, hId, hTracked, iff_of_true hAfter rfl, ?_⟩
    exact iff_of_false (not_active_of_out hFirst) nofun
  · rw [if_neg (fun hBoth => hFirst hBoth.1)]
    refine ⟨hId, iff_of_true hAfter ?_⟩
    exact ⟨hState, Nat.pos_of_ne_zero hFirst⟩

theorem idling_fits {v w : Slots} (hSettled : v.Settled) (hSome : 0 < v.out)
    (hSame : w.mState = v.mState) (hId : w.mStatusId = v.mStatusId) (hOut : w.out = v.out - 1)
    (fence : Fence) : (v.idling fence).Fits v w := by
  unfold Slots.idling
  by_cases hState : v.mState = .STATE_CONFIGURED
  · have hBefore : v.Active := ⟨hState, hSome⟩
    by_cases hLast : v.out = 1
    · rw [if_pos ⟨hLast, by rw [hState]; exact rfl⟩]
      have hTracked : v.mStatusId ≠ NO_STATUS_ID := by
        intro hNone
        have hZero := hSettled.configured hState hNone
        omega
      have hZero : w.out = 0 := by omega
      refine ⟨rfl, hId, hTracked, ?_, iff_of_true hBefore rfl⟩
      exact iff_of_false (not_active_of_out hZero) nofun
    · rw [if_neg (fun hBoth => hLast hBoth.1)]
      refine ⟨hId, iff_of_true ?_ hBefore⟩
      exact ⟨hSame.trans hState, by omega⟩
  · have hPreparing : v.mState = .STATE_PREPARING := by
      by_contra hNot
      have hZero := hSettled.idle hState hNot
      omega
    have hMarks : v.mState.marks = false := by
      rw [hPreparing]
      exact rfl
    rw [if_neg (by simp [hMarks])]
    refine ⟨hId, iff_of_false ?_ (not_active_of_mState hState)⟩
    rw [← hSame] at hState
    exact not_active_of_mState hState

theorem SlotStep.fits {v w : Slots} {a : Action} {report : Report} (hStep : SlotStep v a report w)
    (hReports : v.Reports a) (hSettled : v.Settled) : report.Fits v w := by
  cases hStep with
  | same | unanswered | waits | leaves | timesOut | written => exact ⟨rfl, Iff.rfl⟩
  | started usage query signaled hState =>
    exact removal_fits rfl (not_active_of_mState (by simp [hState])) (not_active_of_mState nofun)
  | restarted usage query signaled hState hOut =>
    exact removal_fits rfl (not_active_of_out hOut) (not_active_of_mState nofun)
  | kept hal reply id hState =>
    have hNone := hSettled.none_of_configuring (Or.inr hState)
    exact ⟨hSettled.untracked (Or.inr hState), rfl, not_active_of_out hNone⟩
  | finished hal reply id hConfiguring hOut =>
    exact ⟨hSettled.untracked hConfiguring, rfl, not_active_of_out hOut⟩
  | failed hal reply id hConfiguring =>
    exact ⟨hSettled.untracked hConfiguring, rfl, not_active_of_mState nofun⟩
  | cancelled hState =>
    have hNone := hSettled.none_of_configuring (Or.inl hState)
    exact ⟨rfl, iff_of_false (not_active_of_out hNone) (not_active_of_out hNone)⟩
  | recancelled hState =>
    have hNone := hSettled.none_of_configuring (Or.inr hState)
    exact ⟨rfl, iff_of_false (not_active_of_out hNone) (not_active_of_out hNone)⟩
  | preparing maxCount hState hOut =>
    exact ⟨rfl, iff_of_false (not_active_of_out hOut) (not_active_of_out hOut)⟩
  | prepared dequeue replies hState =>
    have hNot : v.mState ≠ .STATE_CONFIGURED := by
      simp [hState]
    exact ⟨rfl, iff_of_false (not_active_of_mState hNot) (not_active_of_mState hNot)⟩
  | preparedAll dequeue replies hState =>
    have hNone := hSettled.none_of_prepared hState
    exact ⟨rfl, iff_of_false (not_active_of_out hNone) (not_active_of_mState (by simp [hState]))⟩
  | givenUp replies hState =>
    have hNone := hSettled.none_of_prepared hState
    exact ⟨rfl, iff_of_false (not_active_of_out hNone) (not_active_of_mState (by simp [hState]))⟩
  | tornDown reply hState hOut =>
    exact ⟨rfl, iff_of_false (not_active_of_out hOut) (not_active_of_out hOut)⟩
  | takes dequeue hState hFree => exact activation_fits hState (hReports hState) rfl rfl rfl
  | resumes dequeue hDequeue hWoken hGets =>
    have hState := hReports hDequeue hGets
    exact activation_fits hState.1 hState.2 rfl rfl rfl
  | refused buffer reply hOut => exact ⟨signal_mStatusId v, signal_active v⟩
  | returned buffer reply fence hOut =>
    exact idling_fits hSettled hOut (signal_mState { v with out := v.out - 1 })
      (signal_mStatusId { v with out := v.out - 1 })
      (signal_out { v with out := v.out - 1 }) fence

end Camera3

end FrameworksAv
