import FrameworksAv.Camera3.Operations

/-
  Preparing the buffers of a stream: what `startPrepare` takes for prepared.

  Main declarations:
    * `Event`, `events`, `noted`
    * `Prepared`, `Justified`, `Renewed`
    * `step_mLastMaxCount`
    * `justified_iff_renewed`
-/

--
-- History
--

namespace FrameworksAv

namespace Camera3

namespace Preparation

/- A preparation is started or has all its buffers, or the buffers of the stream are dropped. -/
inductive Event
| started (count : Nat)
| completed (count : Nat)
| dropped
deriving DecidableEq, Repr

/- The settings of the stream are those from before the configuration. -/
def unchanged (s : Camera3Stream) : Bool :=
  s.mState = .STATE_IN_RECONFIG ∧ s.oldUsage = s.usage ∧ s.oldMaxBuffers = s.max_buffers

/- The preparation holds one more buffer than `mPreparedBufferIdx` when it ends. -/
def events (c : Ctx) : Action → List Event
| .startPrepare maxCount =>
  if (startPrepare c maxCount).1 = .NOT_ENOUGH_DATA then
    [.started (prepareCount c.stream maxCount)]
  else []
| .prepareNextBuffer dequeue replies =>
  if (prepareNextBuffer c dequeue replies).1 = .OK then
    [.completed (c.stream.mPreparedBufferIdx + 1)]
  else []
| .tearDown reply =>
  if c.stream.mState = .STATE_CONFIGURED ∧ c.stream.mHandoutOutputBufferCount = 0 ∧
      (disconnectLocked c.stream reply).1 = .OK then
    [.dropped]
  else []
| .finishConfiguration _ _ =>
  if isConfiguring c.stream ∧ ¬unchanged c.stream then [.dropped] else []
| _ => []

/- The stream with what happened to it, the last event in front. -/
abbrev Noted := Ctx × List Event

def noted (u : Noted) (a : Action) : Option Noted :=
  (step u.1 a).map fun d => (d, events u.1 a ++ u.2)

def start (valid : Bool) : Noted := (⟨Camera3Stream.construct valid, StatusTracker.init⟩, [])

/- So many buffers were held at the end of a preparation, and were not dropped since. -/
def Prepared (log : List Event) (count : Nat) : Prop :=
  count = 0 ∨ ∃ k, count ≤ k ∧ Event.completed k ∈ log.takeWhile (· ≠ .dropped)

/- The stream is called prepared only if it is. -/
def Justified (u : Noted) : Action → Prop
| .startPrepare maxCount =>
  (startPrepare u.1 maxCount).1 = .OK → Prepared u.2 (prepareCount u.1.stream maxCount)
| _ => True

def canPrepare (s : Camera3Stream) (maxCount : Int) : Prop :=
  0 ≤ maxCount ∧ s.mState = .STATE_CONFIGURED ∧ s.mStreamUnpreparable = false ∧
    s.mHandoutOutputBufferCount = 0

/-
  If a preparation of as many buffers was ever started, there is one that came to its end and
  whose buffers are still there.
-/
def Renewed (u : Noted) : Action → Prop
| .startPrepare maxCount =>
  canPrepare u.1.stream maxCount →
    (∃ k, prepareCount u.1.stream maxCount ≤ k ∧ Event.started k ∈ u.2) →
      Prepared u.2 (prepareCount u.1.stream maxCount)
| _ => True

--
-- The last count
--

section Frame

variable (c : Ctx)

theorem getBufferLocked_mLastMaxCount (dequeue : Status) :
    (getBufferLocked c dequeue).2.stream.mLastMaxCount = c.stream.mLastMaxCount := by
  unfold getBufferLocked
  split
  · rfl
  · split
    · rfl
    · rfl

theorem returnBufferLocked_mLastMaxCount (buffer : StreamBuffer) (reply : ReturnReply) :
    (returnBufferLocked c buffer reply).2.stream.mLastMaxCount = c.stream.mLastMaxCount := by
  unfold returnBufferLocked returnAnyBufferLocked
  split
  · rfl
  · rfl

theorem returnLoop_mLastMaxCount (replies : Nat → ReturnReply) (n : Nat) :
    (returnLoop replies n c).stream.mLastMaxCount = c.stream.mLastMaxCount := by
  induction n with
  | zero => rfl
  | succ n ih => exact (returnBufferLocked_mLastMaxCount _ _ _).trans ih

theorem getLoop_mLastMaxCount (dequeue : Nat → Status) (i n : Nat) :
    (getLoop dequeue i n c).2.2.stream.mLastMaxCount = c.stream.mLastMaxCount := by
  induction n generalizing i c with
  | zero => rfl
  | succ n ih =>
    unfold getLoop
    dsimp only
    split
    · exact getBufferLocked_mLastMaxCount c _
    · exact (ih _ _).trans (getBufferLocked_mLastMaxCount c _)

theorem registerBuffersLocked_mLastMaxCount (hal : Registration) :
    (registerBuffersLocked c hal).2.stream.mLastMaxCount = c.stream.mLastMaxCount := by
  unfold registerBuffersLocked
  split
  · rfl
  · exact (returnLoop_mLastMaxCount _ _ _).trans (getLoop_mLastMaxCount c _ _ _)

theorem disconnectLocked_mLastMaxCount (s : Camera3Stream) (reply : QueueReply) :
    (disconnectLocked s reply).2.mLastMaxCount = s.mLastMaxCount := by
  unfold disconnectLocked
  split
  · rfl
  · split
    · rfl
    · rfl

theorem configureQueueLocked_mLastMaxCount (s : Camera3Stream) (reply : QueueReply) :
    (configureQueueLocked s reply).2.mLastMaxCount = s.mLastMaxCount := by
  have hBase : (IOStreamBase.configureQueueLocked s reply).2.mLastMaxCount = s.mLastMaxCount := by
    unfold IOStreamBase.configureQueueLocked
    split
    · exact disconnectLocked_mLastMaxCount s reply
    · rfl
    · rfl
  unfold configureQueueLocked
  dsimp only
  split
  · exact hBase
  · split
    · exact hBase
    · split
      · exact hBase
      · exact hBase

theorem finishConfiguration_mLastMaxCount (hal : Registration) (reply : QueueReply) :
    (finishConfiguration c hal reply).stream.mLastMaxCount = c.stream.mLastMaxCount := by
  unfold finishConfiguration
  split
  · rfl
  · dsimp only
    split
    · rfl
    · unfold reallocate
      dsimp only
      split
      · exact configureQueueLocked_mLastMaxCount _ reply
      · exact (registerBuffersLocked_mLastMaxCount _ hal).trans
          (configureQueueLocked_mLastMaxCount _ reply)

theorem cancelPrepareLocked_mLastMaxCount (replies : Nat → ReturnReply) :
    (cancelPrepareLocked c replies).2.stream.mLastMaxCount = c.stream.mLastMaxCount := by
  unfold cancelPrepareLocked
  split
  · rfl
  · exact returnLoop_mLastMaxCount c replies _

theorem prepareNextBuffer_mLastMaxCount (dequeue : Status) (replies : Nat → ReturnReply) :
    (prepareNextBuffer c dequeue replies).2.stream.mLastMaxCount = c.stream.mLastMaxCount := by
  unfold prepareNextBuffer
  split
  · rfl
  · dsimp only
    split
    · exact getBufferLocked_mLastMaxCount c dequeue
    · split
      · exact getBufferLocked_mLastMaxCount c dequeue
      · exact (cancelPrepareLocked_mLastMaxCount _ replies).trans
          (getBufferLocked_mLastMaxCount c dequeue)

theorem tearDown_mLastMaxCount (reply : QueueReply) :
    (tearDown c reply).2.stream.mLastMaxCount = c.stream.mLastMaxCount := by
  have hDisconnect := disconnectLocked_mLastMaxCount c.stream reply
  unfold tearDown
  split
  · rfl
  · split
    · rfl
    · dsimp only
      split
      · exact hDisconnect
      · split
        · exact (configureQueueLocked_mLastMaxCount _ reply).trans hDisconnect
        · exact (configureQueueLocked_mLastMaxCount _ reply).trans hDisconnect

/- Only a preparation that is started sets the last count. -/
theorem step_mLastMaxCount {c d : Ctx} {a : Action} (hStep : step c a = some d) :
    d.stream.mLastMaxCount = c.stream.mLastMaxCount ∧ (∀ k, Event.started k ∉ events c a) ∨
      c.stream.mLastMaxCount < d.stream.mLastMaxCount ∧
        events c a = [.started d.stream.mLastMaxCount] := by
  cases a with
  | startPrepare maxCount =>
    cases hStep
    unfold events startPrepare
    dsimp only
    split
    · exact Or.inl ⟨rfl, by simp⟩
    · split
      · exact Or.inl ⟨rfl, by simp⟩
      · split
        · exact Or.inl ⟨rfl, by simp⟩
        · split
          · exact Or.inl ⟨rfl, by simp⟩
          · split
            · exact Or.inl ⟨rfl, by simp⟩
            · rename_i hMore
              exact Or.inr ⟨by simpa using hMore, by simp⟩
  | prepareNextBuffer dequeue replies =>
    cases hStep
    refine Or.inl ⟨prepareNextBuffer_mLastMaxCount c dequeue replies, fun k => ?_⟩
    unfold events
    dsimp only
    split
    · simp
    · simp
  | tearDown reply =>
    cases hStep
    refine Or.inl ⟨tearDown_mLastMaxCount c reply, fun k => ?_⟩
    unfold events
    dsimp only
    split
    · simp
    · simp
  | finishConfiguration hal reply =>
    cases hStep
    refine Or.inl ⟨finishConfiguration_mLastMaxCount c hal reply, fun k => ?_⟩
    unfold events
    dsimp only
    split
    · simp
    · simp
  | startConfiguration usage query signaled =>
    cases hStep
    refine Or.inl ⟨?_, fun k => List.not_mem_nil⟩
    unfold startConfiguration
    split
    · rfl
    · split
      · rfl
      · rfl
  | configure_streams usage max_buffers =>
    simp only [step] at hStep
    split at hStep
    · cases hStep
      exact Or.inl ⟨rfl, fun k => List.not_mem_nil⟩
    · cases hStep
  | cancelConfiguration =>
    cases hStep
    refine Or.inl ⟨?_, fun k => List.not_mem_nil⟩
    unfold cancelConfiguration
    split
    · rfl
    · rfl
  | cancelPrepare replies =>
    cases hStep
    exact Or.inl ⟨cancelPrepareLocked_mLastMaxCount c replies, fun k => List.not_mem_nil⟩
  | getBuffer dequeue =>
    cases hStep
    refine Or.inl ⟨?_, fun k => List.not_mem_nil⟩
    unfold getBuffer
    dsimp only
    split
    · rfl
    · split
      · rfl
      · exact getBufferLocked_mLastMaxCount c dequeue
  | resume dequeue =>
    simp only [step] at hStep
    split at hStep
    · cases hStep
    · cases hStep
      exact Or.inl ⟨getBufferLocked_mLastMaxCount _ dequeue, fun k => List.not_mem_nil⟩
  | timedOut =>
    simp only [step] at hStep
    split at hStep
    · cases hStep
    · cases hStep
      exact Or.inl ⟨rfl, fun k => List.not_mem_nil⟩
  | returnBuffer buffer reply =>
    cases hStep
    refine Or.inl ⟨?_, fun k => List.not_mem_nil⟩
    have hSignal : ∀ s : Camera3Stream, (signal s).mLastMaxCount = s.mLastMaxCount := by
      intro s
      unfold signal
      split
      · rfl
      · rfl
    exact (hSignal _).trans (returnBufferLocked_mLastMaxCount c buffer reply)

end Frame

--
-- Runs
--

section Runs

/- The last count is the greatest one that a preparation was started for. -/
structure Greatest (u : Noted) : Prop where
  bound : ∀ k, Event.started k ∈ u.2 → k ≤ u.1.stream.mLastMaxCount
  attained : u.1.stream.mLastMaxCount = 0 ∨ Event.started u.1.stream.mLastMaxCount ∈ u.2

theorem Greatest.noted {u v : Noted} {a : Action} (hGreatest : Greatest u)
    (hStep : noted u a = some v) : Greatest v := by
  rcases Option.map_eq_some_iff.mp hStep with ⟨d, hNext, rfl⟩
  rcases step_mLastMaxCount hNext with ⟨hSame, hNone⟩ | ⟨hMore, hEvents⟩
  · constructor
    · intro k hMem
      rcases List.mem_append.mp hMem with hNew | hOld
      · exact absurd hNew (hNone k)
      · exact hSame ▸ hGreatest.bound k hOld
    · rw [hSame]
      exact hGreatest.attained.imp_right (List.mem_append_right _)
  · constructor
    · intro k hMem
      rcases List.mem_append.mp hMem with hNew | hOld
      · rw [hEvents, List.mem_singleton] at hNew
        exact Nat.le_of_eq (Event.started.inj hNew)
      · exact Nat.le_trans (hGreatest.bound k hOld) (Nat.le_of_lt hMore)
    · right
      rw [hEvents]
      exact List.mem_append_left _ (List.mem_singleton.mpr rfl)

theorem startPrepare_ok_iff (c : Ctx) (maxCount : Int) :
    (startPrepare c maxCount).1 = .OK ↔
      canPrepare c.stream maxCount ∧ prepareCount c.stream maxCount ≤ c.stream.mLastMaxCount := by
  unfold startPrepare canPrepare
  dsimp only
  split
  · rename_i hNegative
    refine iff_of_false nofun ?_
    rintro ⟨⟨hCount, -⟩, -⟩
    omega
  · split
    · rename_i hState
      refine iff_of_false nofun ?_
      rintro ⟨⟨-, hConfigured, -⟩, -⟩
      exact hState hConfigured
    · split
      · rename_i hUsed
        refine iff_of_false nofun ?_
        rintro ⟨⟨-, -, hUnused, -⟩, -⟩
        simp [hUsed] at hUnused
      · split
        · rename_i hOut
          refine iff_of_false nofun ?_
          rintro ⟨⟨-, -, -, hNone⟩, -⟩
          omega
        · rename_i hCount hState hUsed hOut
          have hCan : 0 ≤ maxCount ∧ c.stream.mState = .STATE_CONFIGURED ∧
              c.stream.mStreamUnpreparable = false ∧ c.stream.mHandoutOutputBufferCount = 0 :=
            ⟨by omega, by simpa using hState, by simpa using hUsed, by omega⟩
          split
          · rename_i hLess
            exact iff_of_true rfl ⟨hCan, hLess⟩
          · rename_i hMore
            exact iff_of_false nofun fun hBoth => hMore hBoth.2

theorem justified_iff {u : Noted} (hGreatest : Greatest u) (a : Action) :
    Justified u a ↔ Renewed u a := by
  cases a with
  | startPrepare maxCount =>
    simp only [Justified, Renewed, startPrepare_ok_iff]
    constructor
    · rintro hJustified hCan ⟨k, hLess, hStarted⟩
      exact hJustified ⟨hCan, Nat.le_trans hLess (hGreatest.bound k hStarted)⟩
    · rintro hRenewed ⟨hCan, hLess⟩
      rcases hGreatest.attained with hZero | hStarted
      · exact Or.inl (by omega)
      · exact hRenewed hCan ⟨_, hLess, hStarted⟩
  | _ => exact Iff.rfl

/- In every run `startPrepare` is right exactly if no earlier start misleads it. -/
theorem justified_iff_renewed (valid : Bool) (as : List Action) :
    (∀ bs a u, bs ++ [a] <+: as → Run.exec noted (start valid) bs = some u → Justified u a) ↔
      ∀ bs a u, bs ++ [a] <+: as → Run.exec noted (start valid) bs = some u → Renewed u a := by
  refine forall₃_congr fun bs a u => imp_congr_right fun _ => forall_congr' fun hRun => ?_
  refine justified_iff ?_ a
  have hStart : Greatest (start valid) := ⟨fun k hMem => absurd hMem List.not_mem_nil, Or.inl rfl⟩
  exact Run.exec_invariant (fun _ _ _ hGreatest hStep => hGreatest.noted hStep) hRun hStart

/- A window that answers `OK`, with one buffer for the consumer. -/
def goodQueue : QueueReply :=
  ⟨.OK, .OK, .OK, .OK, .OK, .OK, .OK, .OK, 1, .OK⟩

/- A preparation of three buffers that is cancelled. -/
def cancelled : List Action :=
  [.startConfiguration 0 .OK [], .configure_streams 0 4,
    .finishConfiguration ⟨true, false, .OK, fun _ => .OK, fun _ => ⟨.OK, .OK⟩⟩ goodQueue,
    .startPrepare 3, .cancelPrepare fun _ => ⟨.OK, .OK⟩]

theorem not_justified :
    ∃ u, Run.exec noted (start true) cancelled = some u ∧ (startPrepare u.1 3).1 = .OK ∧
      ¬Justified u (.startPrepare 3) := by
  have hRun : (Run.exec noted (start true) cancelled).map (fun u =>
      ((startPrepare u.1 3).1, prepareCount u.1.stream 3, u.2)) =
        some (.OK, 3, [.started 3, .dropped]) := by decide
  rcases Option.map_eq_some_iff.mp hRun with ⟨u, hExec, hEq⟩
  simp only [Prod.mk.injEq] at hEq
  rcases hEq with ⟨hOk, hCount, hLog⟩
  refine ⟨u, hExec, hOk, fun hJustified => ?_⟩
  have hPrepared := hJustified hOk
  rw [hCount, hLog] at hPrepared
  rcases hPrepared with hZero | ⟨k, -, hMem⟩
  · cases hZero
  · simp at hMem

end Runs

end Preparation

end Camera3

end FrameworksAv
