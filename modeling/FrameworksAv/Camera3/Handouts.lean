import FrameworksAv.Camera3.Slots

/-
  The counts of a stream, and the bound on the buffers that the device holds.

  The counts are exact after every run. The bound is kept by the runs in which nobody takes a slot
  that a woken thread comes for: `getBuffer` compares with the bound before its wait only.

  Main declarations:
    * `held`, `Accounted`, `Bounded`
    * `KeepsSlots`
-/

--
-- The properties
--

namespace FrameworksAv

namespace Camera3

/- The buffers that were handed out and not returned. -/
def held (s : Camera3Stream) : Nat :=
  s.handedOut - s.returned

structure Accounted (s : Camera3Stream) : Prop where
  inside : s.returned ≤ s.handedOut
  total : s.mHandoutTotalBufferCount = held s
  output : s.mHandoutOutputBufferCount = held s

def Bounded (s : Camera3Stream) : Prop :=
  s.mState = .STATE_CONFIGURED → held s ≤ s.max_buffers

/- A signalled thread takes a buffer only into a free slot. -/
def FromFreeSlot (c : Ctx) (a : Action) : Prop :=
  ∀ dequeue d, a = .resume dequeue → step c a = some d →
    d.stream.handedOut ≠ c.stream.handedOut → held c.stream < c.stream.max_buffers

/- The bound, also when a reconfiguration is cancelled. -/
def limit (s : Camera3Stream) : Nat :=
  if s.mState = .STATE_IN_RECONFIG then min s.max_buffers s.oldMaxBuffers
  else s.max_buffers

/-
  A buffer is taken without a wait, and a thread is signalled, only while there is a slot that no
  woken thread comes for. The device does not give fewer slots than are taken or promised.
-/
def KeepsSlots (s : Camera3Stream) : Action → Prop
| .getBuffer _ =>
  s.mState = .STATE_CONFIGURED → held s ≠ s.max_buffers →
    s.woken = 0 ∨ held s + s.woken < s.max_buffers
| .prepareNextBuffer _ _ =>
  s.mState = .STATE_PREPARING → s.woken = 0 ∨ held s + s.woken < s.max_buffers
| .returnBuffer _ _ => s.mState = .STATE_ERROR ∨ s.waiting = 0 ∨ held s - 1 + s.woken < limit s
| .configure_streams _ max_buffers => s.mState = .STATE_IN_RECONFIG → held s + s.woken ≤ max_buffers
| _ => True

instance : ∀ s a, Decidable (KeepsSlots s a)
| s, .getBuffer _ =>
  inferInstanceAs (Decidable
    (s.mState = .STATE_CONFIGURED → held s ≠ s.max_buffers →
      s.woken = 0 ∨ held s + s.woken < s.max_buffers))
| s, .prepareNextBuffer _ _ =>
  inferInstanceAs (Decidable
    (s.mState = .STATE_PREPARING → s.woken = 0 ∨ held s + s.woken < s.max_buffers))
| s, .returnBuffer _ _ =>
  inferInstanceAs (Decidable
    (s.mState = .STATE_ERROR ∨ s.waiting = 0 ∨ held s - 1 + s.woken < limit s))
| s, .configure_streams _ max_buffers =>
  inferInstanceAs (Decidable (s.mState = .STATE_IN_RECONFIG → held s + s.woken ≤ max_buffers))
| _, .startConfiguration _ _ _ => isTrue trivial
| _, .finishConfiguration _ _ => isTrue trivial
| _, .cancelConfiguration => isTrue trivial
| _, .startPrepare _ => isTrue trivial
| _, .cancelPrepare _ => isTrue trivial
| _, .tearDown _ => isTrue trivial
| _, .resume _ => isTrue trivial
| _, .timedOut => isTrue trivial

theorem Counted.accounted {s : Camera3Stream} (hCounted : Counted s) : Accounted s := by
  have hTotal := hCounted.total
  have hHeld : held s = s.mHandoutTotalBufferCount := by
    unfold held
    omega
  refine ⟨by omega, hHeld.symm, ?_⟩
  rw [hHeld]
  exact hCounted.output

theorem Counted.held_eq {s : Camera3Stream} (hCounted : Counted s) : held s = s.slots.out :=
  hCounted.accounted.total.symm

--
-- Free slots
--

/- There is a slot for every buffer and every woken thread. -/
structure Slots.Roomy (v : Slots) : Prop where
  configured : v.mState = .STATE_CONFIGURED → v.out + v.woken ≤ v.max_buffers
  reconfiguring :
    v.mState = .STATE_IN_RECONFIG →
      v.out + v.woken ≤ v.max_buffers ∧ v.out + v.woken ≤ v.oldMaxBuffers
  preparing :
    v.mState = .STATE_PREPARING →
      v.out ≤ v.max_buffers + v.mPreparedBufferIdx ∧ (v.woken = 0 ∨ v.out + v.woken ≤ v.max_buffers)

theorem Slots.Roomy.of_configured {v : Slots} (hState : v.mState = .STATE_CONFIGURED)
    (hRoom : v.out + v.woken ≤ v.max_buffers) : v.Roomy := by
  constructor
  · exact fun _ => hRoom
  · simp [hState]
  · simp [hState]

theorem Slots.Roomy.of_idle {v : Slots}
    (hState :
      v.mState = .STATE_ERROR ∨ v.mState = .STATE_CONSTRUCTED ∨ v.mState = .STATE_IN_CONFIG) :
    v.Roomy := by
  rcases hState with hState | hState | hState <;>
    constructor <;>
    simp [hState]

/- What `KeepsSlots` says of the slots. -/
def Slots.Keeps (v : Slots) : Action → Prop
| .getBuffer _ =>
  v.mState = .STATE_CONFIGURED → v.out ≠ v.max_buffers →
    v.woken = 0 ∨ v.out + v.woken < v.max_buffers
| .prepareNextBuffer _ _ =>
  v.mState = .STATE_PREPARING → v.woken = 0 ∨ v.out + v.woken < v.max_buffers
| .returnBuffer _ _ =>
  v.mState = .STATE_ERROR ∨ v.waiting = 0 ∨
    v.out - 1 + v.woken < v.max_buffers ∧
      (v.mState = .STATE_IN_RECONFIG → v.out - 1 + v.woken < v.oldMaxBuffers)
| .configure_streams _ max_buffers => v.mState = .STATE_IN_RECONFIG → v.out + v.woken ≤ max_buffers
| _ => True

theorem lt_limit {s : Camera3Stream} {n : Nat} (hLess : n < limit s) :
    n < s.max_buffers ∧ (s.mState = .STATE_IN_RECONFIG → n < s.oldMaxBuffers) := by
  unfold limit at hLess
  split at hLess
  · exact ⟨by omega, fun _ => by omega⟩
  · rename_i hState
    exact ⟨hLess, fun hRe => absurd hRe hState⟩

theorem KeepsSlots.slots {s : Camera3Stream} (hHeld : held s = s.slots.out) {a : Action}
    (hKeeps : KeepsSlots s a) : s.slots.Keeps a := by
  cases a with
  | getBuffer | prepareNextBuffer | configure_streams =>
    simp only [KeepsSlots, hHeld] at hKeeps
    exact hKeeps
  | returnBuffer =>
    simp only [KeepsSlots, hHeld] at hKeeps
    rcases hKeeps with hState | hNone | hRoom
    · exact Or.inl hState
    · exact Or.inr (Or.inl hNone)
    · exact Or.inr (Or.inr (lt_limit hRoom))
  | startConfiguration | finishConfiguration
  | cancelConfiguration | startPrepare | cancelPrepare
  | tearDown | resume | timedOut => trivial

@[simp] theorem signal_max_buffers (v : Slots) : v.signal.max_buffers = v.max_buffers := by
  unfold Slots.signal
  split
  · rfl
  · rfl

@[simp] theorem signal_oldMaxBuffers (v : Slots) : v.signal.oldMaxBuffers = v.oldMaxBuffers := by
  unfold Slots.signal
  split
  · rfl
  · rfl

@[simp] theorem signal_mPreparedBufferIdx (v : Slots) :
    v.signal.mPreparedBufferIdx = v.mPreparedBufferIdx := by
  unfold Slots.signal
  split
  · rfl
  · rfl

theorem signal_woken (v : Slots) :
    v.waiting = 0 ∧ v.signal.woken = v.woken ∨ 0 < v.waiting ∧ v.signal.woken = v.woken + 1 := by
  unfold Slots.signal
  by_cases hWaiting : v.waiting = 0
  · rw [if_pos hWaiting]
    exact Or.inl ⟨hWaiting, rfl⟩
  · rw [if_neg hWaiting]
    exact Or.inr ⟨Nat.pos_of_ne_zero hWaiting, rfl⟩

/- A signal while a slot is left for the thread. -/
theorem Slots.Roomy.signal {v : Slots} (hRoomy : v.Roomy)
    (hRoom :
      0 < v.waiting →
        (v.mState = .STATE_CONFIGURED → v.out + v.woken < v.max_buffers) ∧
          (v.mState = .STATE_IN_RECONFIG →
            v.out + v.woken < v.max_buffers ∧ v.out + v.woken < v.oldMaxBuffers) ∧
          (v.mState = .STATE_PREPARING → v.out + v.woken < v.max_buffers)) :
    v.signal.Roomy := by
  rcases signal_woken v with ⟨hNone, -⟩ | ⟨hSome, hWoken⟩
  · rw [signal_of_not_waiting hNone]
    exact hRoomy
  · rcases hRoom hSome with ⟨hConfigured, hRe, hPreparing⟩
    constructor
    · simp only [signal_mState, signal_out, hWoken, signal_max_buffers]
      intro hState
      have hFree := hConfigured hState
      omega
    · simp only [signal_mState, signal_out, hWoken, signal_max_buffers, signal_oldMaxBuffers]
      intro hState
      have hFree := hRe hState
      omega
    · simp only [signal_mState, signal_out, hWoken, signal_max_buffers, signal_mPreparedBufferIdx]
      intro hState
      have hFree := hPreparing hState
      have hOld := (hRoomy.preparing hState).1
      omega

/- A signal after the count went down, if it did. -/
theorem Slots.Roomy.returned {v : Slots} {buffer : StreamBuffer} {reply : ReturnReply}
    (hKeeps : v.Keeps (.returnBuffer buffer reply))
    (hRoomy : ({ v with out := v.out - 1 } : Slots).Roomy) :
    (Slots.signal { v with out := v.out - 1 }).Roomy := by
  apply hRoomy.signal
  intro hWaiting
  rcases hKeeps with hState | hNone | hRoom
  · simp [hState]
  · exact absurd hNone (Nat.pos_iff_ne_zero.mp hWaiting)
  · exact ⟨fun _ => hRoom.1, fun hState => ⟨hRoom.1, hRoom.2 hState⟩, fun _ => hRoom.1⟩

/- With fewer buffers or threads there is room, too. -/
theorem Slots.Roomy.fewer {v : Slots} (hRoomy : v.Roomy) {out woken : Nat} (hOut : out ≤ v.out)
    (hWoken : woken ≤ v.woken) : ({ v with out := out, woken := woken } : Slots).Roomy := by
  constructor
  · intro hState
    have hOld := hRoomy.configured hState
    simp only
    omega
  · intro hState
    have hOld := hRoomy.reconfiguring hState
    simp only
    omega
  · intro hState
    have hOld := hRoomy.preparing hState
    simp only
    omega

theorem SlotStep.roomy {v w : Slots} {a : Action} {report : Report} (hStep : SlotStep v a report w)
    (hQuiet : v.Quiet) (hKeeps : v.Keeps a) (hRoomy : v.Roomy) : w.Roomy := by
  cases hStep with
  | same => exact hRoomy
  | unanswered usage query signaled hState =>
    rcases hState with hState | hState
    · exact .of_idle (Or.inr (Or.inl hState))
    · exact .of_configured hState (hRoomy.configured hState)
  | started => exact .of_idle (Or.inr (Or.inr rfl))
  | restarted usage query signaled hState =>
    have hRoom := hRoomy.configured hState
    exact ⟨nofun, fun _ => ⟨hRoom, hRoom⟩, nofun⟩
  | written usage max_buffers hConfiguring =>
    rcases hConfiguring with hState | hState
    · exact .of_idle (Or.inr (Or.inr hState))
    · have hOld := (hRoomy.reconfiguring hState).2
      constructor
      · simp [hState]
      · exact fun _ => ⟨hKeeps hState, hOld⟩
      · simp [hState]
  | kept hal reply id hState hSame => exact .of_configured rfl (hRoomy.reconfiguring hState).1
  | finished hal reply id hConfiguring hOut =>
    rcases hConfiguring with hState | hState
    · have hNone := hQuiet (Or.inr hState)
      exact .of_configured rfl (by simp [hOut, hNone.2.2])
    · exact .of_configured rfl (hRoomy.reconfiguring hState).1
  | failed => exact .of_idle (Or.inl rfl)
  | cancelled => exact .of_idle (Or.inr (Or.inl rfl))
  | recancelled hState => exact .of_configured rfl (hRoomy.reconfiguring hState).2
  | preparing maxCount hState hOut =>
    have hRoom := hRoomy.configured hState
    exact ⟨nofun, nofun, fun _ => ⟨by simp [hOut], Or.inr hRoom⟩⟩
  | prepared dequeue replies hState =>
    have hOld := hRoomy.preparing hState
    have hSpare := hKeeps hState
    constructor
    · simp [hState]
    · simp [hState]
    · intro _
      simp only
      omega
  | preparedAll dequeue replies hState =>
    have hOld := hRoomy.preparing hState
    exact .of_configured rfl (by simp only; omega)
  | givenUp replies hState =>
    have hOld := hRoomy.preparing hState
    exact .of_configured rfl (by simp only; omega)
  | tornDown => exact .of_idle (Or.inl rfl)
  | waits dequeue hState => exact .of_configured hState (hRoomy.configured hState)
  | takes dequeue hState hFree =>
    have hRoom := hRoomy.configured hState
    have hSpare := hKeeps hState hFree
    exact .of_configured hState (by simp only; omega)
  | leaves dequeue => exact hRoomy.fewer (Nat.le_refl _) (Nat.sub_le _ 1)
  | resumes dequeue hDequeue hWoken hGets =>
    constructor
    · intro hState
      have hOld := hRoomy.configured hState
      simp only
      omega
    · intro hState
      have hOld := hRoomy.reconfiguring hState
      simp only
      omega
    · intro hState
      have hOld := hRoomy.preparing hState
      simp only
      omega
  | timesOut => exact ⟨hRoomy.configured, hRoomy.reconfiguring, hRoomy.preparing⟩
  | refused buffer reply hOut =>
    have hSame : ({ v with out := v.out - 1 } : Slots) = v := by
      rw [show v.out - 1 = v.out by omega]
    have hAfter := Slots.Roomy.returned hKeeps (hRoomy.fewer (Nat.sub_le _ 1) (Nat.le_refl _))
    rw [hSame] at hAfter
    exact hAfter
  | returned buffer reply fence hOut =>
    exact Slots.Roomy.returned hKeeps (hRoomy.fewer (Nat.sub_le _ 1) (Nat.le_refl _))

--
-- Runs
--

def start (valid : Bool) (tracker : StatusTracker) : Ctx where
  stream := Camera3Stream.construct valid
  tracker := tracker

theorem start_roomy (valid : Bool) : (Camera3Stream.construct valid).slots.Roomy := by
  cases valid with
  | true => exact .of_idle (Or.inr (Or.inl rfl))
  | false => exact .of_idle (Or.inl rfl)

theorem run_sound {valid : Bool} {tracker : StatusTracker} {as : List Action} {c : Ctx}
    (hRun : Run.exec step (start valid tracker) as = some c) : Sound c.stream := by
  have hStep : ∀ c a d, Sound c.stream → step c a = some d → Sound d.stream := by
    intro c a d hSound hStep
    exact hSound.step hStep
  exact Run.exec_invariant hStep hRun (construct_sound valid)

/- A woken thread that can take a buffer has a slot. -/
theorem Slots.Roomy.free {v : Slots} (hRoomy : v.Roomy) (hQuiet : v.Quiet) (hWoken : 0 < v.woken)
    (hGets : v.mState.gets) : v.out < v.max_buffers := by
  cases hState : v.mState with
  | STATE_ERROR | STATE_CONSTRUCTED =>
    rw [hState] at hGets
    exact absurd hGets id
  | STATE_IN_CONFIG =>
    have hNone := hQuiet (Or.inr hState)
    omega
  | STATE_IN_RECONFIG =>
    have hRoom := hRoomy.reconfiguring hState
    omega
  | STATE_CONFIGURED =>
    have hRoom := hRoomy.configured hState
    omega
  | STATE_PREPARING =>
    have hRoom := hRoomy.preparing hState
    omega

theorem fromFreeSlot {c : Ctx} (hSound : Sound c.stream) (hRoomy : c.stream.slots.Roomy)
    (a : Action) : FromFreeSlot c a := by
  intro dequeue d hResume hStep hTaken
  subst hResume
  have hHeld := hSound.counted.held_eq
  simp only [step] at hStep
  split at hStep
  · contradiction
  · rename_i hWoken
    cases hStep
    unfold resume at hTaken
    rcases getBufferLocked_cases
        { c with
          stream := { c.stream with woken := c.stream.woken - 1 } }
        dequeue with ⟨-, hSame⟩ | ⟨hGets, -, -⟩
    · rw [hSame] at hTaken
      exact absurd rfl hTaken
    · rw [hHeld]
      exact hRoomy.free hSound.quiet (Nat.pos_of_ne_zero hWoken) hGets

theorem run_roomy {valid : Bool} {tracker : StatusTracker} {as : List Action}
    (hKeeps :
      ∀ bs a c, bs ++ [a] <+: as →
        Run.exec step (start valid tracker) bs = some c → KeepsSlots c.stream a)
    {bs : List Action} {c : Ctx} (hPrefix : bs <+: as)
    (hRun : Run.exec step (start valid tracker) bs = some c) : c.stream.slots.Roomy := by
  have hStep :
      ∀ bs a c d, bs ++ [a] <+: as → Run.exec step (start valid tracker) bs = some c →
        c.stream.slots.Roomy → step c a = some d → d.stream.slots.Roomy := by
    intro bs a c d hNext hBefore hRoomy hStep
    have hSound := run_sound hBefore
    have hKept := (hKeeps bs a c hNext hBefore).slots hSound.counted.held_eq
    rcases step_changes hSound hStep with ⟨-, report, hSlots, -⟩
    exact hSlots.roomy hSound.quiet hKept hRoomy
  exact Run.exec_prefix_invariant hStep (start_roomy valid) hPrefix hRun

/-
  In every state of the run the counts are exact and the bound holds, and every signalled thread
  takes a free slot.
-/
structure BuffersKept (valid : Bool) (tracker : StatusTracker) (as : List Action) : Prop where
  accounted :
    ∀ bs c, bs <+: as → Run.exec step (start valid tracker) bs = some c → Accounted c.stream
  bounded : ∀ bs c, bs <+: as → Run.exec step (start valid tracker) bs = some c → Bounded c.stream
  free :
    ∀ bs a c, bs ++ [a] <+: as → Run.exec step (start valid tracker) bs = some c → FromFreeSlot c a

/- The counts are exact in every run, and all is well in a run whose steps keep the slots. -/
theorem buffers_kept (valid : Bool) (tracker : StatusTracker) (as : List Action) :
    (∀ bs c, bs <+: as → Run.exec step (start valid tracker) bs = some c → Accounted c.stream) ∧
      ((∀ bs a c, bs ++ [a] <+: as →
          Run.exec step (start valid tracker) bs = some c → KeepsSlots c.stream a) →
        BuffersKept valid tracker as) := by
  have hAccounted :
      ∀ bs c, bs <+: as → Run.exec step (start valid tracker) bs = some c → Accounted c.stream := by
    intro bs c _ hRun
    exact (run_sound hRun).counted.accounted
  refine ⟨hAccounted, ?_⟩
  intro hKeeps
  constructor
  · exact hAccounted
  · intro bs c hPrefix hRun hState
    have hRoom := (run_roomy hKeeps hPrefix hRun).configured hState
    rw [(run_sound hRun).counted.held_eq]
    exact Nat.le_of_add_right_le hRoom
  · intro bs a c hPrefix hRun
    have hEarlier : bs <+: as := (List.prefix_append bs [a]).trans hPrefix
    exact fromFreeSlot (run_sound hRun) (run_roomy hKeeps hEarlier hRun) a

/- A device since 3.2 that does not register buffers. -/
def newDevice : Registration where
  since_3_2 := true
  isSet := false
  register_stream_buffers := .OK
  dequeue _ := .OK
  replies _ := ⟨.OK, .OK⟩

def willingQueue : QueueReply where
  api_disconnect := .OK
  api_connect := .OK
  set_usage := .OK
  set_scaling_mode := .OK
  set_buffers_dimensions := .OK
  set_buffers_format := .OK
  set_buffers_data_space := .OK
  query := .OK
  maxConsumerBuffers := 1
  set_buffer_count := .OK

def filled : StreamBuffer where
  status := .CAMERA3_BUFFER_STATUS_OK
  release_fence := none

/- A stream with one slot, its buffer out and a thread waiting. -/
def oneSlotTaken : List Action :=
  [.startConfiguration 0 .OK [], .configure_streams 0 1,
    .finishConfiguration newDevice willingQueue, .getBuffer .OK, .getBuffer .OK]

/- The buffer comes back, and the waiting thread takes it. -/
theorem buffers_kept_waiting :
    BuffersKept true StatusTracker.init
      (oneSlotTaken ++ [.returnBuffer filled ⟨.OK, .OK⟩, .resume .OK]) := by
  refine (buffers_kept _ _ _).2 ?_
  exact Run.forall_steps_of_checks (P := fun (c : Ctx) a => KeepsSlots c.stream a) (by decide)

/-
  The buffer comes back and the waiting thread is signalled. Before it has the lock another thread
  takes the slot.
-/
theorem buffers_kept_overtaken :
    ¬ BuffersKept true StatusTracker.init
      (oneSlotTaken ++ [.returnBuffer filled ⟨.OK, .OK⟩, .getBuffer .OK, .resume .OK]) := by
  intro hKept
  have hBounded := hKept.bounded _ _ (List.prefix_refl _) rfl rfl
  exact absurd hBounded (by decide)

end Camera3

end FrameworksAv
