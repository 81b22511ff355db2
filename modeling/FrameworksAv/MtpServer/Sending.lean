import FrameworksAv.MtpServer.Server

/-
  The protocol for sending an object, as the database sees it.

  The database keeps the handles that it has given out and still waits for. Each of them has to be
  the one that the server holds for the next request; a handle that the server loses is never
  reported, and a report that is not waited for fails at once.

  Main declarations:
    * `outstanding`, `Reported`
    * `Completes`, `Keeps`
    * `perform_reported_iff`
    * `sends_reported_iff`
-/

--
-- What the database waits for
--

namespace FrameworksAv

namespace MtpServer

/-
  The handles that are waited for after a call. A report of a handle that is not waited for, or one
  of success although the object is not complete, is against the protocol.
-/
def entry (handles : List MtpObjectHandle) : Call → Option (List MtpObjectHandle)
| .beginSendObject _ _ _ _ _ _ handle =>
  if handle = kInvalidObjectHandle then some handles
  else some (handle :: handles)
| .endSendObject _ handle _ succeeded created =>
  if handle ∈ handles ∧ (succeeded = true → created = true)
  then some (handles.erase handle)
  else none
| .sessionStarted => some handles
| .sessionEnded => some []

/- The handles that are waited for after all calls. -/
def outstanding (calls : List Call) : Option (List MtpObjectHandle) :=
  calls.foldlM entry []

/- The handle that the server holds for SendObject. -/
def Server.pending (s : Server) : List MtpObjectHandle :=
  if s.mSendObjectHandle = kInvalidObjectHandle then []
  else [s.mSendObjectHandle]

/-
  The calls follow the protocol: each handle has been reported exactly once, was open when the
  session ended, or is the one that SendObject is going to report.
-/
def Reported (s : Server) : Prop :=
  outstanding s.calls = some s.pending

/-
  The operation, performed by this server, leaves no handle behind, reports none that was not given
  out and calls no half object a success: a directory that is announced can be made, an object is
  sent only when it was announced, data of the first packet that is written in part only is followed
  by a failure, and no edit is committed.
-/
def Completes (s : Server) (r : Request) : Prop :=
  match r.operation with
  | .sendObjectInfo data outcome =>
    ∀ object t, s.newObject r data outcome = some (.ok object, t) →
      object.format = MTP_FORMAT_ASSOCIATION → outcome.handle ≠ kInvalidObjectHandle →
      outcome.mkdir = 0 ∨ outcome.mkdir = -EEXIST
  | .sendObject opened transfer =>
    s.hasStorage = true →
      s.mSendObjectHandle ≠ kInvalidObjectHandle ∧
        ∀ initialData count, transfer.packet = some initialData → opened = true → initialData ≠ [] →
          transfer.written = some count →
          (s.mSendObjectFileSize ≠ BitVec.ofNat 64 initialData.length → transfer.completed = true) →
          count = initialData.length
  | .endEditObject => r.parameters ≠ [] → s.getEditObject (r.getParameter 1) = none
  | _ => True

/- The request ends the session. -/
def Closes (s : Server) (r : Request) : Prop :=
  (match r.operation with
    | .closeSession => True
    | _ => False) ∧ s.mSessionOpen = true

/-
  A handle that the server holds is followed by SendObject or by the end of the session, and the
  operation is completed.
-/
def Keeps (s : Server) : Action → Prop
| .request r =>
  (s.pending ≠ [] → r.operation.isSendObject = false →
    r.containertype = MTP_CONTAINER_TYPE_COMMAND ∧ Closes s r) ∧
    (r.containertype = MTP_CONTAINER_TYPE_COMMAND → Completes (s.expectSendObject r.operation) r)
| _ => True

/- The calls up to one more. -/
theorem outstanding_concat (calls : List Call) (c : Call) :
    outstanding (calls ++ [c]) =
      (outstanding calls).bind (fun handles =>
        entry handles c) := by
  unfold outstanding
  rw [List.foldlM_append]
  cases List.foldlM entry [] calls with
  | none => rfl
  | some handles =>
    show (entry handles c).bind some = entry handles c
    exact Option.bind_fun_some _

--
-- How often a handle is reported
--

def begins (handle : MtpObjectHandle) : Call → Bool
| .beginSendObject _ _ _ _ _ _ begun => begun = handle
| _ => false

def ends (handle : MtpObjectHandle) : Call → Bool
| .endSendObject _ ended _ _ _ => ended = handle
| _ => false

--
-- The operations
--

variable {s t : Server} {r : Request} {handles : List MtpObjectHandle}

/- Nothing is told the database, and the handle stays. -/
def Silent (s t : Server) : Prop :=
  t.calls = s.calls ∧ t.mSendObjectHandle = s.mSendObjectHandle

namespace Silent

theorem pending_eq (hSilent : Silent s t) : t.pending = s.pending := by
  unfold Server.pending
  rw [hSilent.2]

theorem reported_iff (hSilent : Silent s t) : Reported t ↔ Reported s := by
  unfold Reported
  rw [hSilent.1, hSilent.pending_eq]

end Silent

theorem receivePartial_silent (edit : ObjectEdit) (offset : BitVec 64) (length : BitVec 32)
    (transfer : Transfer) (initialData : List Byte) :
    Silent s (s.receivePartial edit offset length transfer initialData).2 := by
  unfold Server.receivePartial
  dsimp only
  split
  · exact ⟨rfl, rfl⟩
  · split <;> exact ⟨rfl, rfl⟩

theorem doSendPartialObject_silent (transfer : Transfer) :
    Silent s (s.doSendPartialObject r transfer).2 := by
  unfold Server.doSendPartialObject
  split
  · exact ⟨rfl, rfl⟩
  split
  · exact ⟨rfl, rfl⟩
  split
  · exact ⟨rfl, rfl⟩
  split
  · exact ⟨rfl, rfl⟩
  split
  · exact ⟨rfl, rfl⟩
  · exact receivePartial_silent _ _ _ _ _

theorem doTruncateObject_silent (truncated : Bool) :
    Silent s (s.doTruncateObject r truncated).2 := by
  unfold Server.doTruncateObject
  split
  · exact ⟨rfl, rfl⟩
  split
  · exact ⟨rfl, rfl⟩
  split <;> exact ⟨rfl, rfl⟩

theorem doBeginEditObject_silent (object : Except MtpResponseCode ObjectFile) (opened : Bool) :
    Silent s (s.doBeginEditObject r object opened).2 := by
  unfold Server.doBeginEditObject
  split
  · exact ⟨rfl, rfl⟩
  split
  · exact ⟨rfl, rfl⟩
  split
  · exact ⟨rfl, rfl⟩
  split <;> exact ⟨rfl, rfl⟩

/- Reading the dataset tells the database nothing. -/
theorem newObject_silent {data : Mtp.MtpDataPacket} {outcome : InfoOutcome}
    {answer : Except MtpResponseCode NewObject}
    (hNew : s.newObject r data outcome = some (answer, t)) : Silent s t := by
  unfold Server.newObject at hNew
  dsimp only at hNew
  repeat' split at hNew
  all_goals cases hNew
  all_goals exact ⟨rfl, rfl⟩

/- Opening a session does not touch the handles. -/
theorem doOpenSession_reported_iff : Reported (s.doOpenSession r).2 ↔ Reported s := by
  unfold Server.doOpenSession
  split
  · exact Silent.reported_iff ⟨rfl, rfl⟩
  split
  · exact Iff.rfl
  · unfold Reported Server.call
    rw [outstanding_concat]
    have hSame :
        (outstanding s.calls).bind (fun handles => entry handles .sessionStarted) =
          outstanding s.calls :=
      Option.bind_fun_some _
    rw [hSame]
    exact Iff.rfl

/- The end of the session frees the database of all handles. -/
theorem doCloseSession_reported_iff (hLedger : outstanding s.calls = some handles)
    (hPending : s.pending = []) :
    Reported s.doCloseSession.2 ↔ s.mSessionOpen = true ∨ handles = [] := by
  unfold Server.doCloseSession
  split
  · rename_i hOpen
    refine iff_of_true ?_ (Or.inl hOpen)
    unfold Reported Server.call
    rw [outstanding_concat, hLedger]
    exact congrArg some hPending.symm
  · rename_i hClosed
    unfold Reported
    rw [hLedger, hPending]
    simp [hClosed]

/- A report is waited for and true, or the protocol is broken. -/
theorem endObject_reported_iff (hLedger : outstanding s.calls = some s.pending)
    (result : MtpResponseCode) (created : Bool) :
    Reported (s.endObject result created).2 ↔
      s.mSendObjectHandle ≠ kInvalidObjectHandle ∧ (result = MTP_RESPONSE_OK → created = true) := by
  unfold Server.endObject Reported Server.call
  dsimp only
  rw [outstanding_concat, hLedger, Option.bind_some]
  unfold entry Server.pending
  by_cases hHandle : s.mSendObjectHandle = kInvalidObjectHandle
  · simp [hHandle]
  · by_cases hOk : result = MTP_RESPONSE_OK
    · cases created <;> simp [hHandle, hOk]
    · simp [hHandle, hOk]

/- A new object is waited for as long as the server holds it. -/
theorem beginObject_reported_iff {outcome : InfoOutcome} (object : NewObject)
    (hLedger : outstanding s.calls = some handles)
    (hPending : s.mSendObjectHandle = kInvalidObjectHandle) :
    Reported (s.beginObject object outcome).2 ↔
      handles = [] ∧
        (object.format = MTP_FORMAT_ASSOCIATION → outcome.handle ≠ kInvalidObjectHandle →
          outcome.mkdir = 0 ∨ outcome.mkdir = -EEXIST) := by
  unfold Server.beginObject
  dsimp only
  split
  · rename_i hHandle
    unfold Reported Server.call Server.pending
    dsimp only
    rw [outstanding_concat, hLedger, Option.bind_some]
    simp [entry, hHandle, hPending]
  · rename_i hHandle
    split
    · rename_i hFormat
      split
      · rename_i hFailed
        unfold Reported Server.call Server.pending
        dsimp only
        rw [outstanding_concat, hLedger, Option.bind_some]
        simp [entry, hHandle, hPending, hFormat, hFailed]
      · rename_i hMade
        unfold Reported Server.call Server.pending
        dsimp only
        rw [outstanding_concat, outstanding_concat, hLedger, Option.bind_some]
        simp only [entry, if_neg hHandle, Option.bind_some]
        have hEither : outcome.mkdir = 0 ∨ outcome.mkdir = -EEXIST := by
          by_contra hNot
          exact hMade (not_or.mp hNot)
        simp [hPending, hEither]
    · rename_i hFormat
      unfold Reported Server.call Server.pending
      dsimp only
      rw [outstanding_concat, hLedger, Option.bind_some]
      simp [entry, hHandle, hFormat]

--
-- Requests
--

variable {response : MtpResponseCode}

theorem pending_eq_nil_iff : s.pending = [] ↔ s.mSendObjectHandle = kInvalidObjectHandle := by
  unfold Server.pending
  split <;> simp [*]

/- Without a handle of its own the server answers for none. -/
theorem reported_iff_of_pending_nil (hLedger : outstanding s.calls = some handles)
    (hPending : s.pending = []) : Reported s ↔ handles = [] := by
  unfold Reported
  rw [hLedger, hPending]
  simp

theorem doSendObjectInfo_reported_iff {data : Mtp.MtpDataPacket} {outcome : InfoOutcome}
    (hPerform : s.doSendObjectInfo r data outcome = some (response, t))
    (hLedger : outstanding s.calls = some handles) (hPending : s.pending = []) :
    Reported t ↔
      handles = [] ∧
        ∀ object u, s.newObject r data outcome = some (.ok object, u) →
          object.format = MTP_FORMAT_ASSOCIATION → outcome.handle ≠ kInvalidObjectHandle →
          outcome.mkdir = 0 ∨ outcome.mkdir = -EEXIST := by
  unfold Server.doSendObjectInfo at hPerform
  cases hNew : s.newObject r data outcome with
  | none =>
    rw [hNew] at hPerform
    cases hPerform
  | some found =>
    rcases found with ⟨answer, u⟩
    have hSilent := newObject_silent hNew
    have hLedgerU : outstanding u.calls = some handles := by
      rw [hSilent.1, hLedger]
    have hPendingU : u.pending = [] := by
      rw [hSilent.pending_eq, hPending]
    rw [hNew] at hPerform
    cases answer with
    | error result =>
      cases hPerform
      rw [reported_iff_of_pending_nil hLedgerU hPendingU]
      simp
    | ok object =>
      have hLast : (u.beginObject object outcome).2 = t :=
        congrArg Prod.snd (Option.some.inj hPerform)
      rw [← hLast, beginObject_reported_iff object hLedgerU (pending_eq_nil_iff.mp hPendingU)]
      refine and_congr_right (fun _ => ?_)
      constructor
      · intro hMade other v hOther
        cases hOther
        exact hMade
      · intro hMade
        exact hMade object u rfl

theorem doEndEditObject_reported_iff (hLedger : outstanding s.calls = some handles)
    (hPending : s.pending = []) :
    Reported (s.doEndEditObject r).2 ↔
      handles = [] ∧ (r.parameters ≠ [] → s.getEditObject (r.getParameter 1) = none) := by
  have hNone := reported_iff_of_pending_nil hLedger hPending
  unfold Server.doEndEditObject
  split
  · rename_i hFew
    have hNil : r.parameters = [] := List.length_eq_zero_iff.mp (by omega)
    simp [hNone, hNil]
  rename_i hOne
  have hSome : r.parameters ≠ [] := by
    intro hNil
    exact hOne (by simp [hNil])
  split
  · rename_i hEdit
    simp [hNone, hEdit]
  · rename_i edit hEdit
    refine iff_of_false ?_ ?_
    · unfold Reported Server.removeEditObject Server.commitEdit Server.call
      dsimp only
      rw [outstanding_concat, hLedger, Option.bind_some]
      simp [entry]
    · rintro ⟨-, hNot⟩
      rw [hNot hSome] at hEdit
      cases hEdit

/- When does receiving a file go well? -/
theorem receive_fst_iff (transfer : Transfer) (initialData content : List Byte) (start : Nat)
    (rest : Bool) :
    (transfer.receive initialData start rest content).1 = true ↔
      (initialData ≠ [] → transfer.written ≠ none) ∧ (rest = true → transfer.completed = true) := by
  unfold Transfer.receive
  by_cases hEmpty : initialData = []
  · rw [if_pos hEmpty]
    cases rest <;> simp [hEmpty]
  · rw [if_neg hEmpty]
    cases hWritten : transfer.written with
    | none => simp [hEmpty]
    | some count => cases rest <;> simp

theorem receiveObject_reported_iff {transfer : Transfer} {initialData : List Byte}
    (hReported : Reported s) (hHandle : s.mSendObjectHandle ≠ kInvalidObjectHandle) :
    Reported (s.receiveObject transfer initialData).2 ↔
      ∀ count, initialData ≠ [] → transfer.written = some count →
        (s.mSendObjectFileSize ≠ BitVec.ofNat 64 initialData.length → transfer.completed = true) →
        count = initialData.length := by
  have hSet : ∀ content, Reported (s.setFile s.mSendObjectFilePath content) := fun _ => hReported
  have hRest :
      s.mSendObjectFileSize - BitVec.ofNat 64 initialData.length ≠ 0 ↔
        s.mSendObjectFileSize ≠ BitVec.ofNat 64 initialData.length := by
    bv_omega
  have hGood :
      (transfer.receive initialData 0
          (s.mSendObjectFileSize - BitVec.ofNat 64 initialData.length ≠ 0) []).1 = true ↔
        (initialData ≠ [] → transfer.written ≠ none) ∧
          (s.mSendObjectFileSize ≠ BitVec.ofNat 64 initialData.length →
            transfer.completed = true) := by
    rw [receive_fst_iff, decide_eq_true_iff, hRest]
  unfold Server.receiveObject
  dsimp only
  split
  · rename_i content hReceive
    rw [hReceive] at hGood
    rw [endObject_reported_iff (hSet content)]
    have hBoth := hGood.mp rfl
    constructor
    · rintro ⟨-, hCreated⟩ count hSome hWritten -
      rcases of_decide_eq_true (hCreated rfl) with
        hNil | hWhole
      · exact absurd hNil hSome
      · rw [hWritten] at hWhole
        exact Option.some.inj hWhole
    · intro hCount
      refine ⟨hHandle, fun _ => decide_eq_true ?_⟩
      by_cases hEmpty : initialData = []
      · exact Or.inl hEmpty
      · right
        cases hWritten : transfer.written with
        | none => exact absurd hWritten (hBoth.1 hEmpty)
        | some count => rw [hCount count hEmpty hWritten hBoth.2]
  · rename_i content hReceive
    rw [hReceive] at hGood
    rw [endObject_reported_iff (hSet [])]
    have hFailed :
        (if transfer.cancelled = true then MTP_RESPONSE_TRANSACTION_CANCELLED
          else MTP_RESPONSE_GENERAL_ERROR) ≠ MTP_RESPONSE_OK := by
      split <;> decide
    refine iff_of_true ⟨hHandle, ?_⟩ ?_
    · intro hOk
      exact absurd hOk hFailed
    · intro count hSome hWritten hDone
      have hOk := hGood.mpr ⟨fun _ => by simp [hWritten], hDone⟩
      cases hOk

theorem doSendObject_reported_iff {opened : Bool} {transfer : Transfer} (hReported : Reported s)
    (hOperation : r.operation = .sendObject opened transfer) :
    Reported (s.doSendObject opened transfer).2 ↔ Completes s r := by
  unfold Completes Server.doSendObject
  rw [hOperation]
  dsimp only
  split
  · rename_i hNone
    simp [hReported, hNone]
  rename_i hStorage
  have hHas : s.hasStorage = true := by simpa using hStorage
  split
  · rename_i hHandle
    rw [endObject_reported_iff hReported]
    simp [hHandle, hHas]
  rename_i hHandle
  have hError : MTP_RESPONSE_GENERAL_ERROR ≠ MTP_RESPONSE_OK := by
    decide
  split
  · rename_i hPacket
    rw [endObject_reported_iff hReported]
    simp [hHandle, hPacket, hError]
  rename_i initialData hPacket
  split
  · rename_i hOpened
    rw [receiveObject_reported_iff hReported hHandle]
    constructor
    · intro hWhole _
      refine ⟨hHandle, ?_⟩
      intro data count hData _
      rw [hPacket] at hData
      cases hData
      exact hWhole count
    · intro hCompletes count
      exact (hCompletes hHas).2 initialData count hPacket hOpened
  · rename_i hOpened
    rw [endObject_reported_iff hReported]
    simp [hHandle, hOpened, hError]

theorem performed {answer : MtpResponseCode × Server}
    (hPerform : some answer = some (response, t)) : t = answer.2 :=
  congrArg Prod.snd (Option.some.inj hPerform).symm

/- Every operation that does not send an object. -/
theorem perform_reported_iff (hPerform : s.perform r = some (response, t))
    (hOther : r.operation.isSendObject = false) (hLedger : outstanding s.calls = some handles)
    (hPending : s.pending = []) : Reported t ↔ (Closes s r ∨ handles = []) ∧ Completes s r := by
  have hNone := reported_iff_of_pending_nil hLedger hPending
  unfold Server.perform at hPerform
  unfold Closes Completes
  cases hOperation : r.operation with
  | openSession =>
    rw [hOperation] at hPerform
    rw [performed hPerform, doOpenSession_reported_iff, hNone]
    simp
  | closeSession =>
    rw [hOperation] at hPerform
    rw [performed hPerform, doCloseSession_reported_iff hLedger hPending]
    simp
  | sendObjectInfo data outcome =>
    rw [hOperation] at hPerform
    rw [doSendObjectInfo_reported_iff hPerform hLedger hPending]
    simp
  | sendObject opened transfer =>
    rw [hOperation] at hOther
    cases hOther
  | sendPartialObject transfer =>
    rw [hOperation] at hPerform
    rw [performed hPerform, (doSendPartialObject_silent transfer).reported_iff, hNone]
    simp
  | truncateObject truncated =>
    rw [hOperation] at hPerform
    rw [performed hPerform, (doTruncateObject_silent truncated).reported_iff, hNone]
    simp
  | beginEditObject object opened =>
    rw [hOperation] at hPerform
    rw [performed hPerform, (doBeginEditObject_silent object opened).reported_iff, hNone]
    simp
  | endEditObject =>
    rw [hOperation] at hPerform
    rw [performed hPerform, doEndEditObject_reported_iff hLedger hPending]
    simp
  | other response =>
    rw [hOperation] at hPerform
    rw [performed hPerform, hNone]
    simp

/- What is forgotten before the operation is performed. -/
theorem expectSendObject_pending (s : Server) (operation : Operation) :
    (s.expectSendObject operation).pending = if operation.isSendObject then s.pending else [] := by
  unfold Server.pending Server.expectSendObject
  dsimp only
  split <;> simp

theorem handleRequest_reported_iff {sent : Bool} (hReported : Reported s)
    (hRequest : s.handleRequest r = some (sent, t)) : Reported t ↔ Keeps s (.request r) := by
  have hPending := expectSendObject_pending s r.operation
  have hLedger : outstanding (s.expectSendObject r.operation).calls = some s.pending := hReported
  have hClosesIff : Closes (s.expectSendObject r.operation) r ↔ Closes s r := Iff.rfl
  unfold Server.handleRequest at hRequest
  dsimp only at hRequest
  unfold Keeps
  by_cases hCommand : r.containertype = MTP_CONTAINER_TYPE_COMMAND
  · rw [if_neg (not_not.mpr hCommand)] at hRequest
    cases hPerform : (s.expectSendObject r.operation).perform r with
    | none =>
      rw [hPerform] at hRequest
      cases hRequest
    | some answer =>
      rcases answer with ⟨response, u⟩
      rw [hPerform] at hRequest
      have hSilent : Silent u t := by
        dsimp only at hRequest
        split at hRequest <;>
          cases hRequest <;> exact ⟨rfl, rfl⟩
      rw [hSilent.reported_iff]
      cases hSend : r.operation.isSendObject with
      | true =>
        rw [hSend, if_pos rfl] at hPending
        have hStill : Reported (s.expectSendObject r.operation) := by
          unfold Reported
          rw [hLedger, hPending]
        cases hOperation : r.operation with
        | sendObject opened transfer =>
          rw [hOperation] at hStill
          unfold Server.perform at hPerform
          rw [hOperation] at hPerform
          rw [performed hPerform, doSendObject_reported_iff hStill hOperation]
          simp [hCommand, hOperation, Operation.isSendObject]
        | _ =>
          rw [hOperation] at hSend
          cases hSend
      | false =>
        rw [hSend, if_neg Bool.false_ne_true] at hPending
        rw [perform_reported_iff hPerform hSend hLedger hPending, hClosesIff]
        by_cases hNil : s.pending = []
        · simp [hNil, hCommand]
        · simp [hNil, hCommand, hSend]
  · rw [if_pos hCommand] at hRequest
    cases hRequest
    unfold Reported
    rw [hLedger, hPending]
    cases hSend : r.operation.isSendObject with
    | true => simp [hCommand, hSend]
    | false => simp [hCommand, hSend]

theorem step_reported_iff {a : Action} (hReported : Reported s) (hStep : step s a = some t) :
    Reported t ↔ Keeps s a := by
  unfold step at hStep
  cases a with
  | request r =>
    rcases Option.map_eq_some_iff.mp hStep with ⟨⟨sent, u⟩, hRequest, rfl⟩
    exact handleRequest_reported_iff hReported hRequest
  | addStorage storage =>
    cases hStep
    exact iff_of_true hReported trivial
  | removeStorage id =>
    cases hStep
    exact iff_of_true hReported trivial

/-
  The database is told of every object exactly once as long as every request keeps to it: throughout
  a run exactly when each of its steps does.
-/
theorem sends_reported_iff {files : List Byte → List Byte} {actions : List Action} {t : Server}
    (hRun : Run.exec step (start files) actions = some t) :
    (∀ done u, done <+: actions → Run.exec step (start files) done = some u → Reported u) ↔
      ∀ done a u, done ++ [a] <+: actions → Run.exec step (start files) done = some u →
        Keeps u a := by
  have hSteps :
      ∀ s a t, (fun _ => True) s → Reported s → step s a = some t →
        (Reported t ↔ Keeps s a) ∧ (Reported t → (fun _ => True) t) := by
    intro s a t _ hReported hStep
    exact ⟨step_reported_iff hReported hStep, fun _ => trivial⟩
  exact Run.exec_always_iff hSteps hRun trivial rfl

def storage : MtpStorage where
  mStorageID := 0x10001
  mFilePath := [0x2F]
  mMaxFileSize := 0

/- The dataset of a file of three bytes, behind its header. -/
def dataset : Mtp.MtpDataPacket where
  mBuffer :=
    List.replicate 12 0 ++ Mtp.le 4 0x10001 ++ Mtp.le 2 0x3000 ++ Mtp.le 2 0 ++ Mtp.le 4 3 ++
      Mtp.le 2 0 ++ List.replicate 28 0 ++ Mtp.le 2 0 ++
      List.replicate 8 0 ++ [2, 0x61, 0, 0, 0] ++ [0] ++ [0]
  mOffset := 12

/- A file is announced and sent. -/
def announced : List Action :=
  [.addStorage storage,
    .request
      { containertype := MTP_CONTAINER_TYPE_COMMAND
        parameters := [0x10001, MTP_PARENT_ROOT]
        operation :=
          .sendObjectInfo dataset
            { parentPath := .error MTP_RESPONSE_GENERAL_ERROR
              freeSpace := 1000
              modified := none
              handle := 7
              mkdir := 0 } },
    .request
      { containertype := MTP_CONTAINER_TYPE_COMMAND
        parameters := []
        operation :=
          .sendObject true
            { packet := some [1, 2, 3]
              written := some 3
              received := []
              completed := false
              cancelled := false } }]

theorem announced_runs : (Run.exec step (start fun _ => []) announced).isSome = true := by
  decide +kernel

theorem sends_reported_announced :
    (∀ done u, done <+: announced → Run.exec step (start fun _ => []) done = some u → Reported u) ↔
      ∀ done a u, done ++ [a] <+: announced → Run.exec step (start fun _ => []) done = some u →
        Keeps u a :=
  sends_reported_iff (Option.some_get announced_runs).symm

/- A file is sent that was not announced. -/
def unannounced : List Action :=
  [.addStorage storage,
    .request
      { containertype := MTP_CONTAINER_TYPE_COMMAND
        parameters := []
        operation :=
          .sendObject true
            { packet := some [1, 2, 3]
              written := some 3
              received := []
              completed := false
              cancelled := false } }]

/- The invalid handle is reported to the database. -/
theorem unannounced_reported :
    ¬ ∀ files actions t, Run.exec step (start files) actions = some t → Reported t := by
  intro hAll
  have hBroken : ¬ ∃ t, Run.exec step (start fun _ => []) unannounced = some t ∧ Reported t := by
    rintro ⟨t, hRun, hReported⟩
    cases hRun
    revert hReported
    unfold Reported
    decide
  exact hBroken ⟨_, rfl, hAll _ unannounced _ rfl⟩

end MtpServer

end FrameworksAv
