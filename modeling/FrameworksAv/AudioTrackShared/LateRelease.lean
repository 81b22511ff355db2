import FrameworksAv.AudioTrackShared.Flush

/-
  Acknowledging a flush while the mixer still holds frames.

  `Track::start` acknowledges a pending flush with a call of `obtainBuffer` that keeps
  `mUnreleased`. The late release of the frames obtained before then advances the new front once
  more: it skips as many frames from behind the flush.

  Main declarations:
    * `ClientAction`, `Stream.ClientFrame`
    * `Stream.dropServer`
    * `Stream.LateReleaseSafe`
    * `exec_lateRelease`
-/

--
-- Client Actions
--

namespace FrameworksAv

namespace AudioTrackShared

variable {F : Type}

/- The actions of the client of an output track. -/
def ClientAction : Action F → Prop
| .clientObtain _ _ _ _ => True
| .clientRelease _ => True
| .clientFlush => True
| .interrupt => True
| .binderDied => True
| .write _ _ => True
| _ => False

namespace Stream

variable {g : Geometry} {s t u : Stream F}

/- What the client of an output track leaves alone. -/
structure ClientFrame (s t : Stream F) : Prop where
  mFront : t.cblk.mFront = s.cblk.mFront
  server : t.server = s.server
  serverHeld : t.serverHeld = s.serverHeld
  loadedFlush : t.loadedFlush = s.loadedFlush
  observed : t.hist.observed = s.hist.observed
  taken : t.hist.taken = s.hist.taken
  takenFront : t.hist.takenFront = s.hist.takenFront
  takenAt : t.hist.takenAt = s.hist.takenAt
  consumed : t.hist.consumed = s.hist.consumed
  number_le : s.hist.lastFlush.number ≤ t.hist.lastFlush.number

theorem ClientFrame.refl (s : Stream F) : ClientFrame s s :=
  ⟨rfl, rfl, rfl, rfl, rfl, rfl, rfl, rfl, rfl, Nat.le_refl _⟩

theorem ClientFrame.trans (hFirst : ClientFrame s t) (hSecond : ClientFrame t u) :
    ClientFrame s u where
  mFront := hSecond.mFront.trans hFirst.mFront
  server := hSecond.server.trans hFirst.server
  serverHeld := hSecond.serverHeld.trans hFirst.serverHeld
  loadedFlush := hSecond.loadedFlush.trans hFirst.loadedFlush
  observed := hSecond.observed.trans hFirst.observed
  taken := hSecond.taken.trans hFirst.taken
  takenFront := hSecond.takenFront.trans hFirst.takenFront
  takenAt := hSecond.takenAt.trans hFirst.takenAt
  consumed := hSecond.consumed.trans hFirst.consumed
  number_le := Nat.le_trans hFirst.number_le hSecond.number_le

end Stream

/- The client of an output track never moves the front. -/
theorem ClientProxy.obtainBuffer_mFront {g : Geometry} (hOut : g.mIsOut = true) (p : ClientProxy)
    (c : Cblk) (timeout : Timeout) (ignoreInterrupt expired : Bool) (ask : Nat) :
    (p.obtainBuffer g timeout ignoreInterrupt expired c ask).1.mFront = c.mFront := by
  simp only [obtainBuffer, hOut, and_true]
  split
  · rfl
  split
  · rfl
  split
  · rfl
  split
  · rfl
  · split
    · rfl
    · cases timeout with
      | zero | infinite => rfl
      | finite | «continue» => cases expired <;> rfl

theorem ClientProxy.releaseBuffer_mFront {g : Geometry} (hOut : g.mIsOut = true) {p : ClientProxy}
    {c : Cblk} {buffer : Buffer} {r : Cblk × ClientProxy × Buffer}
    (hCall : p.releaseBuffer g c buffer = some r) : r.1.mFront = c.mFront := by
  simp only [releaseBuffer, hOut, if_true] at hCall
  split at hCall
  · cases hCall
    rfl
  split at hCall
  · cases hCall
  · cases hCall
    rfl

namespace Stream

variable {g : Geometry} {s t : Stream F}

theorem clientFrame_next (hOut : g.mIsOut = true) {a : Action F} (hClient : ClientAction a) :
    ClientFrame s (next g s a) := by
  cases a with
  | clientObtain ask timeout ignoreInterrupt expired =>
    exact
      { ClientFrame.refl s with
        mFront := ClientProxy.obtainBuffer_mFront hOut _ _ _ _ _ _ }
  | clientRelease count =>
    simp only [next, clientRelease]
    split
    · exact { ClientFrame.refl s with }
    · rename_i hCall
      split
      · exact ClientFrame.refl s
      · have hFront := ClientProxy.releaseBuffer_mFront hOut hCall
        simp only [hOut, record, if_true]
        exact { ClientFrame.refl s with mFront := hFront }
  | clientFlush =>
    exact
      { ClientFrame.refl s with
        number_le := Nat.le_succ _ }
  | interrupt =>
    simp only [next, ClientProxy.interrupt]
    split <;> exact { ClientFrame.refl s with }
  | binderDied =>
    simp only [next, ClientProxy.binderDied]
    split <;> exact { ClientFrame.refl s with }
  | write offset frame => exact { ClientFrame.refl s with }
  | serverBegin | serverObtain | serverRelease
  | framesReady => exact absurd hClient id

/- Every run of the client leaves the server alone. -/
theorem clientFrame_run (hOut : g.mIsOut = true) {as : List (Action F)}
    (hClient : ∀ a ∈ as, ClientAction a)
    (hRun : Run.exec (Run.guarded (FewFlushes g) (step g)) s as = some t) : ClientFrame s t := by
  induction as generalizing s with
  | nil =>
    cases hRun
    exact ClientFrame.refl _
  | cons a as ih =>
    rcases Run.exec_cons_eq_some.mp hRun with ⟨u, hFirst, hRest⟩
    have hStep := (Run.guarded_eq_some.mp hFirst).2
    have hNext := (step_eq_some.mp hStep).2
    have hHead := clientFrame_next (s := s) hOut (hClient a List.mem_cons_self)
    rw [hNext] at hHead
    exact hHead.trans (ih (fun b hb => hClient b (List.mem_cons_of_mem _ hb)) hRest)

/- Every run of the client keeps the invariant. -/
theorem Inv.clientRun (h : s.Inv g) {as : List (Action F)} (hClient : ∀ a ∈ as, ClientAction a)
    (hRun : Run.exec (Run.guarded (FewFlushes g) (step g)) s as = some t) : t.Inv g := by
  induction as generalizing s with
  | nil =>
    cases hRun
    exact h
  | cons a as ih =>
    rcases Run.exec_cons_eq_some.mp hRun with ⟨u, hFirst, hRest⟩
    rcases Run.guarded_eq_some.mp hFirst with ⟨hFew, hStep⟩
    rcases step_eq_some.mp hStep with ⟨⟨_, hEnabled⟩, hNext⟩
    have hHead := hClient a List.mem_cons_self
    have hOk : FlushDiscipline g s a := by
      cases a with
      | serverObtain => exact absurd hHead id
      | clientFlush => exact ⟨⟨hFew, trivial⟩, trivial⟩
      | clientObtain | clientRelease | interrupt
      | binderDied | write | serverBegin | serverRelease
      | framesReady => exact ⟨⟨trivial, trivial⟩, trivial⟩
    refine ih ?_ (fun b hb =>
      hClient b (List.mem_cons_of_mem _ hb)) hRest
    rw [← hNext]
    exact h.next hEnabled hOk

end Stream

end AudioTrackShared

--
-- A Server Without Its Region
--

namespace AudioTrackShared

namespace Stream

variable {F : Type} {g : Geometry} {s t : Stream F}

/- The same track if the server had obtained nothing. -/
def dropServer (s : Stream F) : Stream F :=
  { s with
    server := { s.server with mUnreleased := 0 }
    serverHeld := ⟨0, 0⟩ }

/- The client does not see what the server holds. -/
theorem dropServer_next (hOut : g.mIsOut = true) {a : Action F} (hClient : ClientAction a) :
    next g s.dropServer a = (next g s a).dropServer := by
  cases a with
  | clientRelease count =>
    have hSame :
        s.dropServer.client.releaseBuffer g s.dropServer.cblk
            (s.dropServer.clientHeld.toBuffer count) =
          s.client.releaseBuffer g s.cblk (s.clientHeld.toBuffer count) :=
      rfl
    simp only [next, clientRelease, hSame]
    cases s.client.releaseBuffer g s.cblk (s.clientHeld.toBuffer count) with
    | none => rfl
    | some r =>
      by_cases hUp : s.client.mIsShutdown = true
      · have hUp' : s.dropServer.client.mIsShutdown = true := hUp
        simp only [if_pos hUp, if_pos hUp']
      · have hUp' : ¬ s.dropServer.client.mIsShutdown = true := hUp
        simp only [if_neg hUp, if_neg hUp']
        rfl
  | write offset frame => simp [next, write, dropServer, producerHeld, hOut]
  | clientObtain | clientFlush | interrupt | binderDied => rfl
  | serverBegin | serverObtain | serverRelease
  | framesReady => exact absurd hClient id

theorem dropServer_enabled (hOut : g.mIsOut = true) {a : Action F} (hClient : ClientAction a)
    (hEnabled : Enabled g s a) : Enabled g s.dropServer a := by
  cases a with
  | write offset frame => simpa [Enabled, dropServer, producerHeld, hOut] using hEnabled
  | clientObtain | clientRelease | clientFlush | interrupt
  | binderDied => exact hEnabled
  | serverBegin | serverObtain | serverRelease
  | framesReady => exact absurd hClient id

/- A run of the client is also one beside an idle server. -/
theorem dropServer_run (hOut : g.mIsOut = true) {as : List (Action F)}
    (hClient : ∀ a ∈ as, ClientAction a)
    (hRun : Run.exec (Run.guarded (FewFlushes g) (step g)) s as = some t) :
    Run.exec (Run.guarded (FewFlushes g) (step g)) s.dropServer as = some t.dropServer := by
  induction as generalizing s with
  | nil =>
    cases hRun
    rfl
  | cons a as ih =>
    rcases Run.exec_cons_eq_some.mp hRun with ⟨u, hFirst, hRest⟩
    rcases Run.guarded_eq_some.mp hFirst with ⟨hFew, hStep⟩
    rcases step_eq_some.mp hStep with ⟨⟨hAlive, hEnabled⟩, hNext⟩
    have hHead := hClient a List.mem_cons_self
    refine Run.exec_cons_eq_some.mpr
      ⟨u.dropServer, ?_, ih (fun b hb =>
        hClient b (List.mem_cons_of_mem _ hb)) hRest⟩
    refine Run.guarded_eq_some.mpr ⟨?_, ?_⟩
    · cases a <;> exact hFew
    · refine step_eq_some.mpr ⟨⟨hAlive, dropServer_enabled hOut hHead hEnabled⟩, ?_⟩
      rw [dropServer_next hOut hHead, hNext]

/- A server that forgets its region keeps the invariant. -/
theorem Inv.dropServer (h : s.Inv g) (hOut : g.mIsOut = true) : s.dropServer.Inv g := by
  have hNothing :
      Chunk g.mFrameCountP2 (s.fifo g).front ((s.fifo g).rear - (s.fifo g).front) ⟨0, 0⟩ :=
    Chunk.null _ _ _
  refine h.borrowed ⟨0, 0⟩ ?_ ?_ ?_ hNothing ⟨rfl, rfl, rfl, id⟩
    ⟨h.alive, h.clientUp, h.serverUp, h.clientUnreleased, rfl⟩
    (h.flush.frame rfl rfl rfl rfl rfl rfl rfl (Nat.le_refl _) ?_)
  · simp [Stream.fifo, Stream.dropServer, producerHeld, consumerHeld, hOut, Fifo.borrow]
  · simp [Stream.dropServer, consumerHeld, hOut]
  · simp [Stream.dropServer, producerHeld, hOut]
  · intro _
    simp [reach, Stream.fifo, Fifo.front, Stream.dropServer, consumerHeld, hOut]

--
-- Acknowledgement And Late Release
--

/- The track once a flush was taken to a position. -/
def acknowledged (s : Stream F) (flush : Word) (position availToClient : Nat) : Stream F :=
  { s with
    cblk := { s.cblk with mFront := BitVec.ofNat 32 position }.wake
    server :=
      { s.server with
        mFlush := flush
        mAvailToClient := availToClient }
    loadedFlush := none
    hist :=
      { s.hist with
        taken := s.hist.observed
        takenFront := position
        takenAt := s.hist.consumed.length } }

/-
  `Track::start` acknowledges a flush: the front moves, the region of the mixer and `mUnreleased`
  stay.
-/
theorem Inv.acknowledge (h : s.Inv g) (hOut : g.mIsOut = true) {flush : Word}
    (hLoaded : s.loadedFlush = some flush) (hNew : flush ≠ s.server.mFlush) (ask : Nat) :
    ∃ position availToClient,
      s.serverObtain g flush ask true = s.acknowledged flush position availToClient ∧
      ServerProxy.newFront g s.cblk.mFront flush s.cblk.mRear = BitVec.ofNat 32 position ∧
      s.reach g ≤ s.hist.observed.position ∧ s.hist.observed.position ≤ position ∧
      position ≤ (s.fifo g).rear ∧
      (g.logFrameCountP2 ≤ 29 → position = s.hist.observed.position) := by
  rcases h.newFront_position (h.taken_ne hLoaded hNew) with
    ⟨position, hPosition, hReach, hLe, hRear, hExact⟩
  rw [← h.flush.loadedWord flush hLoaded] at hPosition
  have hFront : (s.fifo g).front ≤ position :=
    Nat.le_trans (Nat.le_add_right _ _) (Nat.le_trans hReach hLe)
  have hEq := h.afterFlush_eq ⟨hOut, hNew⟩ hPosition hFront hRear
  have hTake :
      s.server.takeFlush g flush s.cblk =
        ((s.afterFlush g flush).cblk, (s.afterFlush g flush).server) :=
    rfl
  have hRoom := h.fifo.filled_le
  have hFilled : (s.afterFlush g flush).cblk.filled = ((s.fifo g).rear - position : Nat) := by
    have hCount := g.mFrameCount_le
    have hPow : 2 ^ g.logFrameCountP2 ≤ 2 ^ 30 :=
      Nat.pow_le_pow_right (by omega) g.logFrameCountP2_le
    rw [hEq, Cblk.filled]
    simp only [Cblk.wake]
    rw [h.rear]
    exact Counter.toInt_sub_ofNat hRear (by omega)
  have hPlausible : g.Plausible (s.afterFlush g flush).cblk.filled := by
    rw [hFilled, Geometry.Plausible]
    omega
  have hOwn : ServerProxy.own g (s.afterFlush g flush).cblk = BitVec.ofNat 32 position := by
    rw [hEq, ServerProxy.own, if_pos hOut]
    rfl
  rcases ServerProxy.obtainBuffer_spec h.serverUp hTake hPlausible hOwn ask true with
    ⟨status, buffer, availToClient, hCall, -, -⟩
  refine ⟨position, availToClient, ?_, hPosition, hReach, hLe, hRear, hExact⟩
  have hHist : s.recordTaken g flush (s.afterFlush g flush).cblk = (s.afterFlush g flush).hist :=
    rfl
  simp only [Stream.serverObtain, hCall, if_true, hHist]
  rw [hEq]
  rfl

/- What the server did to acknowledge it could do idle. -/
theorem Inv.acknowledged_dropServer (h : s.Inv g) (hOut : g.mIsOut = true)
    (hBits : g.logFrameCountP2 ≤ 29) {flush : Word} (hLoaded : s.loadedFlush = some flush)
    (hNew : flush ≠ s.server.mFlush) {position : Nat} (availToClient : Nat)
    (hPosition : ServerProxy.newFront g s.cblk.mFront flush s.cblk.mRear = BitVec.ofNat 32 position)
    (hFront : (s.fifo g).front ≤ position) (hRear : position ≤ (s.fifo g).rear) :
    (s.acknowledged flush position availToClient).dropServer.Inv g := by
  have hDrop := h.dropServer hOut
  have hTake : g.mIsOut = true ∧ flush ≠ s.dropServer.server.mFlush := ⟨hOut, hNew⟩
  have hIdle : s.dropServer.serverHeld.count = 0 := rfl
  have hAfter := hDrop.takeFlush hLoaded hTake hIdle (.inr hBits)
  have hEq := hDrop.afterFlush_eq hTake hPosition hFront hRear
  rw [hEq] at hAfter
  exact hAfter.quiet rfl rfl rfl rfl rfl hAfter.noOverrun
    ⟨hAfter.alive, hAfter.clientUp, hAfter.serverUp,
      hAfter.clientUnreleased, hAfter.serverUnreleased⟩
    (hAfter.flush.frame rfl rfl rfl rfl rfl rfl rfl (Nat.le_refl _) (fun _ => Nat.le_refl _))

/- Releasing frames of an output track advances the front. -/
theorem serverRelease_mFront (hOut : g.mIsOut = true) (hUp : s.server.mIsShutdown = false)
    {count : Nat} (hCount : count ≤ s.server.mUnreleased)
    (hUnreleased : s.server.mUnreleased ≤ g.mFrameCount) :
    (s.serverRelease g count).cblk.mFront = BitVec.ofNat 32 count + s.cblk.mFront ∧
      (s.serverRelease g count).cblk.mRear = s.cblk.mRear ∧
      (s.serverRelease g count).hist.released = s.hist.released ∧
      (s.serverRelease g count).hist.taken = s.hist.taken := by
  rcases ServerProxy.releaseBuffer_spec s.cblk (s.serverHeld.toBuffer count) hUp hCount
      hUnreleased with
    ⟨cblk, buffer, hCall, hAdvance⟩
  rw [hOut, if_pos rfl, if_pos rfl] at hAdvance
  have hRear : cblk.mRear = s.cblk.mRear := by
    rw [hAdvance.mRear]
    exact BitVec.zero_add _
  simp only [serverRelease, hCall, hUp, Bool.false_eq_true, if_false, record, hOut, Bool.not_true]
  exact ⟨hAdvance.mFront, hRear, trivial, trivial⟩

/- A guarded step is a step of the track. -/
theorem guarded_next {ok : Stream F → Action F → Prop} [∀ s a, Decidable (ok s a)] {a : Action F}
    (hStep : Run.guarded ok (step g) s a = some t) : Enabled g s a ∧ next g s a = t := by
  rcases step_eq_some.mp (Run.guarded_eq_some.mp hStep).2 with ⟨⟨_, hEnabled⟩, hNext⟩
  exact ⟨hEnabled, hNext⟩

/-
  A flush of the client is pending once the server has loaded it, however often the client flushed.
-/
theorem Inv.pending (h : s.Inv g) (hOut : g.mIsOut = true) (hIdle : s.loadedFlush = none)
    {as bs cs : List (Action F)} (hAs : ∀ a ∈ as, ClientAction a) (hBs : ∀ a ∈ bs, ClientAction a)
    (hCs : ∀ a ∈ cs, ClientAction a)
    (hRun :
      Run.exec (Run.guarded (FewFlushes g) (step g)) s
        (as ++ .clientFlush :: bs ++ .serverBegin :: cs) = some t) :
    t.Inv g ∧ ∃ flush, t.loadedFlush = some flush ∧ flush ≠ t.server.mFlush := by
  rcases Run.exec_append_eq_some.mp hRun with ⟨s₃, hBefore, hCall⟩
  rcases Run.exec_append_eq_some.mp hBefore with ⟨s₁, hFirst, hFlush⟩
  rcases Run.exec_cons_eq_some.mp hFlush with ⟨s₂, hFlushStep, hMore⟩
  rcases Run.exec_cons_eq_some.mp hCall with ⟨s₄, hBeginStep, hRest⟩
  have h₁ := h.clientRun hAs hFirst
  have hFew := (Run.guarded_eq_some.mp hFlushStep).1
  have h₂ : s₂.Inv g := by
    rw [← (guarded_next hFlushStep).2]
    exact h₁.clientFlush hOut hFew
  have h₃ := h₂.clientRun hBs hMore
  have h₄ : s₄.Inv g := by
    rw [← (guarded_next hBeginStep).2]
    exact h₃.serverBegin (guarded_next hBeginStep).1
  have hT := h₄.clientRun hCs hRest
  have hFrame₁ := clientFrame_run hOut hAs hFirst
  have hFrame₂ : ClientFrame s₁ s₂ := by
    rw [← (guarded_next hFlushStep).2]
    exact clientFrame_next hOut trivial
  have hFrame₃ := clientFrame_run hOut hBs hMore
  have hFrame := (hFrame₁.trans hFrame₂).trans hFrame₃
  have hFrame₄ := clientFrame_run hOut hCs hRest
  have hBegin : s₄ = s₃.serverBegin := (guarded_next hBeginStep).2.symm
  -- the flush number grew past the one the server acted on
  have hGrew : s₂.hist.lastFlush.number = s₁.hist.lastFlush.number + 1 := by
    rw [← (guarded_next hFlushStep).2]
    rfl
  have hNumber : t.hist.taken.number < t.hist.observed.number := by
    have hStart := h.flush.observed_le
    rw [h.flush.idle hIdle] at hStart
    have hLe₁ := hFrame₁.number_le
    have hLe₃ := hFrame₃.number_le
    have hTaken : t.hist.taken = s.hist.taken := by
      rw [hFrame₄.taken, hBegin]
      exact hFrame.taken
    have hObserved : t.hist.observed = s₃.hist.lastFlush := by
      rw [hFrame₄.observed, hBegin]
      rfl
    rw [hTaken, hObserved]
    omega
  have hLoaded : t.loadedFlush = some s₃.cblk.mFlush := by
    rw [hFrame₄.loadedFlush, hBegin]
    rfl
  refine ⟨hT, _, hLoaded, ?_⟩
  intro hSame
  rw [hT.flush.loadedWord _ hLoaded, hT.flush.serverWord] at hSame
  have hEq := g.flushWord_inj hT.flush.taken_le hT.flush.taken_near hSame.symm
  omega

end Stream

--
-- The Front After A Late Release
--

namespace Stream

variable {F : Type} {g : Geometry} {v w x t : Stream F} {k : Nat}

/-
  What a late release should leave behind: a plausible pipe whose front has not passed frames from
  behind the flush, and no run from here on that shuts the server down.
-/
structure LateReleaseSafe (g : Geometry) (s : Stream F) : Prop where
  filled_nonneg : 0 ≤ s.cblk.filled
  filled_le : s.cblk.filled ≤ g.mFrameCount
  notPast : (s.cblk.mFront - s.hist.taken.rear).toInt ≤ 0
  noShutdown : ∀ as t, Run.exec (step g) s as = some t → t.server.mIsShutdown = false

/- A late release in a track with a pending flush. -/
structure LateRelease (g : Geometry) (v w x t : Stream F) (ask k : Nat)
    (ds : List (Action F)) : Prop where
  acknowledge : Run.guarded (FewFlushes g) (step g) v (.serverObtain ask true) = some w
  client : Run.exec (Run.guarded (FewFlushes g) (step g)) w ds = some x
  release : Run.guarded (FewFlushes g) (step g) x (.serverRelease k) = some t

/- What the track looks like after a late release. -/
structure LateReleased (g : Geometry) (v w x t : Stream F) (k position : Nat) : Prop where
  mFront : t.cblk.mFront = BitVec.ofNat 32 (position + k)
  mRear : t.cblk.mRear = x.cblk.mRear
  released : t.hist.released = x.hist.released
  taken : t.hist.taken = v.hist.observed
  frame : ClientFrame w x
  reach : (v.fifo g).front + k ≤ v.hist.observed.position
  behind : v.hist.observed.position ≤ position
  position_le : position ≤ (v.fifo g).rear

/- The late release advances the front once more. -/
theorem Inv.lateRelease (h : v.Inv g) (hOut : g.mIsOut = true) {flush : Word}
    (hLoaded : v.loadedFlush = some flush) (hNew : flush ≠ v.server.mFlush) {ask k : Nat}
    {ds : List (Action F)} (hDs : ∀ a ∈ ds, ClientAction a)
    (hLate : LateRelease g v w x t ask k ds) :
    ∃ position availToClient, w = v.acknowledged flush position availToClient ∧
      ServerProxy.newFront g v.cblk.mFront flush v.cblk.mRear = BitVec.ofNat 32 position ∧
      (g.logFrameCountP2 ≤ 29 → position = v.hist.observed.position) ∧
      LateReleased g v w x t k position := by
  rcases h.acknowledge hOut hLoaded hNew ask with
    ⟨position, availToClient, hEq, hPosition, hReach, hLe, hRear, hExact⟩
  have hW : w = v.acknowledged flush position availToClient := by
    rw [← (guarded_next hLate.acknowledge).2, ← hEq]
    simp only [AudioTrackShared.next, hLoaded, Option.getD_some]
  have hFrame := clientFrame_run hOut hDs hLate.client
  have hCount : k ≤ v.serverHeld.count := by
    have hEnabled := (guarded_next hLate.release).1.1
    rw [hFrame.serverHeld, hW] at hEnabled
    exact hEnabled
  have hUnreleased : x.server.mUnreleased = v.serverHeld.count := by
    rw [hFrame.server, hW]
    exact h.serverUnreleased
  have hUp : x.server.mIsShutdown = false := by
    rw [hFrame.server, hW]
    exact h.serverUp
  have hK : k ≤ x.server.mUnreleased := by
    rw [hUnreleased]
    exact hCount
  have hSize : x.server.mUnreleased ≤ g.mFrameCount := by
    rw [hUnreleased]
    exact h.serverHeld_le
  rcases serverRelease_mFront hOut hUp hK hSize with ⟨hFront, hMRear, hReleased, hTaken⟩
  have hT : x.serverRelease g k = t := (guarded_next hLate.release).2
  rw [hT] at hFront hMRear hReleased hTaken
  have hBorrowed : v.reach g = (v.fifo g).front + v.serverHeld.count := by
    simp [reach, Stream.fifo, consumerHeld, hOut]
  refine
    ⟨position, availToClient, hW, hPosition, hExact,
      { mFront := ?_
        mRear := hMRear
        released := hReleased
        taken := ?_
        frame := hFrame
        reach := by omega
        behind := hLe
        position_le := hRear }⟩
  · rw [hFront, hFrame.mFront, hW, Nat.add_comm, Counter.ofNat_add]
    rfl
  · rw [hTaken, hFrame.taken, hW]
    rfl

/- The front is past frames from behind the flush. -/
theorem LateReleased.past {position : Nat} (h : v.Inv g) (hPos : 0 < k)
    (hLate : LateReleased g v w x t k position) :
    0 < (t.cblk.mFront - t.hist.taken.rear).toInt := by
  have hReach := hLate.reach
  have hBehind := hLate.behind
  have hPosition := hLate.position_le
  have hRoom := h.fifo.filled_le
  have hSize := g.mFrameCount_le_pow
  rw [hLate.mFront, hLate.taken, h.flush.observedRear,
    Counter.toInt_sub_ofNat (by omega) (by omega)]
  omega

/- Plausible exactly when `k` frames follow the new front. -/
theorem LateReleased.inBounds_iff {position : Nat} (hIdle : x.dropServer.Inv g)
    (hFront : (x.dropServer.fifo g).front = position) (hK : k ≤ g.mFrameCount)
    (hLate : LateReleased g v w x t k position) :
    g.Plausible t.cblk.filled ↔ position + k ≤ t.hist.released.length := by
  have hOrder := hIdle.fifo.order
  have hRoom := hIdle.fifo.filled_le
  have hSize := g.mFrameCount_le_pow
  have hRear : x.cblk.mRear = BitVec.ofNat 32 x.hist.released.length := hIdle.rear
  have hLength : (x.dropServer.fifo g).rear = x.hist.released.length :=
    rfl
  rw [hFront, hLength] at hOrder hRoom
  rw [Cblk.filled, hLate.mFront, hLate.mRear, hRear, hLate.released, Geometry.Plausible]
  rcases Nat.lt_or_ge x.hist.released.length (position + k) with hLt | hGe
  · rw [Counter.toInt_sub_ofNat_neg hLt (by omega)]
    omega
  · rw [Counter.toInt_sub_ofNat hGe (by omega)]
    omega

end Stream

/-
  The server holds frames, the client flushes, the server acknowledges and releases `k` of its
  frames: the front is past frames from behind the flush. The pipe still looks plausible exactly
  when `k` frames were released after it.
-/
theorem exec_lateRelease {F : Type} (g : Geometry) (hOut : g.mIsOut = true) (mBuffers : Nat → F)
    {start : List (Action F)} {s t : Stream F}
    (hStart :
      Run.exec (Run.guarded (FlushDiscipline g) (step g)) (Stream.init mBuffers) start = some s)
    (hIdle : s.loadedFlush = none) (as bs cs ds : List (Action F))
    (hClient : ∀ a ∈ as ++ bs ++ cs ++ ds, ClientAction a) {ask k : Nat} (hPos : 0 < k)
    (hRun :
      Run.exec (Run.guarded (FewFlushes g) (step g)) s
        (as ++ .clientFlush :: bs ++ .serverBegin :: cs ++ .serverObtain ask true :: ds ++
          [.serverRelease k]) = some t) :
    ¬ t.LateReleaseSafe g ∧
      (g.logFrameCountP2 ≤ 29 →
        (g.Plausible t.cblk.filled ↔ t.hist.taken.position + k ≤ t.hist.released.length)) := by
  have hAs : ∀ a ∈ as, ClientAction a := fun a ha => hClient a (by simp [ha])
  have hBs : ∀ a ∈ bs, ClientAction a := fun a ha => hClient a (by simp [ha])
  have hCs : ∀ a ∈ cs, ClientAction a := fun a ha => hClient a (by simp [ha])
  have hDs : ∀ a ∈ ds, ClientAction a := fun a ha => hClient a (by simp [ha])
  rcases Run.exec_append_eq_some.mp hRun with ⟨x, hUntil, hRelease⟩
  rcases Run.exec_append_eq_some.mp hUntil with ⟨v, hPending, hAck⟩
  rcases Run.exec_cons_eq_some.mp hAck with ⟨w, hAckStep, hAfter⟩
  rcases Run.exec_cons_eq_some.mp hRelease with ⟨t', hReleaseStep, hNil⟩
  cases hNil
  have hS := (Stream.inv_init g mBuffers).run hStart
  rcases hS.pending hOut hIdle hAs hBs hCs hPending with ⟨h, ⟨flush, hLoaded, hNew⟩⟩
  rcases h.lateRelease hOut hLoaded hNew hDs ⟨hAckStep, hAfter, hReleaseStep⟩ with
    ⟨position, availToClient, hW, hPosition, hExact, hLate⟩
  refine ⟨?_, ?_⟩
  · intro hSafe
    have hPast := hLate.past h hPos
    have hNotPast := hSafe.notPast
    omega
  · intro hBits
    have hReach := hLate.reach
    have hBehind := hLate.behind
    have hRear := hLate.position_le
    have hRoom := h.fifo.filled_le
    have hDropped : w.dropServer.Inv g := by
      rw [hW]
      exact h.acknowledged_dropServer hOut hBits hLoaded hNew
        availToClient hPosition (by omega) hRear
    have hIdleX : x.dropServer.Inv g :=
      hDropped.clientRun hDs (Stream.dropServer_run hOut hDs hAfter)
    have hFront : (x.dropServer.fifo g).front = position := by
      simp [Stream.fifo, Fifo.front, Stream.dropServer, hLate.frame.takenFront, hLate.frame.takenAt,
        hLate.frame.consumed, hW, Stream.acknowledged]
    rw [hLate.taken, ← hExact hBits]
    exact hLate.inBounds_iff hIdleX hFront (by omega)

/- The mixer of a short track holds two frames. -/
def mixerHolds : List (Action Nat) :=
  [.clientObtain 4 .zero false false, .write 0 10, .write 1 11, .clientRelease 2, .serverBegin,
    .serverObtain 4 false]

theorem exec_lateRelease_fourFrames :
    ∃ s t,
      Run.exec (Run.guarded (FlushDiscipline fourFrames) (step fourFrames))
          (Stream.init fun _ => 0) mixerHolds = some s ∧
        Run.exec (Run.guarded (FewFlushes fourFrames) (step fourFrames)) s
            [.clientFlush, .clientObtain 2 .zero false false,
              .write 0 12, .write 1 13, .clientRelease 2, .serverBegin, .serverObtain 1 true,
              .serverRelease 2] = some t ∧
        ¬ t.LateReleaseSafe fourFrames := by
  have hSome :
      ((Run.exec (Run.guarded (FlushDiscipline fourFrames) (step fourFrames))
          (Stream.init fun _ => 0) mixerHolds).bind fun s =>
        if s.loadedFlush = none then
          (Run.exec (Run.guarded (FewFlushes fourFrames) (step fourFrames)) s
            [.clientFlush, .clientObtain 2 .zero false false,
              .write 0 12, .write 1 13, .clientRelease 2, .serverBegin, .serverObtain 1 true,
              .serverRelease 2]).map fun t => (s, t)
        else none).isSome = true := by
    decide
  rcases Option.isSome_iff_exists.mp hSome with ⟨⟨s, t⟩, hBind⟩
  rcases Option.bind_eq_some_iff.mp hBind with ⟨s', hStart, hLate⟩
  split at hLate
  · rename_i hIdle
    rcases Option.map_eq_some_iff.mp hLate with ⟨t', hRun, hPair⟩
    cases hPair
    have h :=
      exec_lateRelease fourFrames rfl _ hStart hIdle []
        [.clientObtain 2 .zero false false, .write 0 12, .write 1 13, .clientRelease 2] [] []
        (by simp [ClientAction]) (by decide) hRun
    exact ⟨s, t, hStart, hRun, h.1⟩
  · cases hLate

/-
  Without new frames the late release takes the front past the rear, and the next poll shuts the
  server down.
-/
theorem exec_lateRelease_overrun :
    ∃ s t,
      Run.exec (Run.guarded (FlushDiscipline fourFrames) (step fourFrames))
          (Stream.init fun _ => 0) mixerHolds = some s ∧
        Run.exec (Run.guarded (FewFlushes fourFrames) (step fourFrames)) s
            [.clientFlush, .serverBegin, .serverObtain 1 true, .serverRelease 2] = some t ∧
        t.cblk.filled = -2 ∧ (next fourFrames t .framesReady).server.mIsShutdown = true ∧
        ¬ t.LateReleaseSafe fourFrames := by
  have hValue :
      ((Run.exec (Run.guarded (FlushDiscipline fourFrames) (step fourFrames))
          (Stream.init fun _ => 0) mixerHolds).bind fun s =>
        (Run.exec (Run.guarded (FewFlushes fourFrames) (step fourFrames)) s
          [.clientFlush, .serverBegin, .serverObtain 1 true, .serverRelease 2]).map fun t =>
          (s, t)).map (fun r =>
        (r.2.cblk.filled, (next fourFrames r.2 .framesReady).server.mIsShutdown)) =
      some (-2, true) := by
    decide
  rcases Option.map_eq_some_iff.mp hValue with ⟨⟨s, t⟩, hBind, hFacts⟩
  rcases Option.bind_eq_some_iff.mp hBind with ⟨s', hStart, hLate⟩
  rcases Option.map_eq_some_iff.mp hLate with ⟨t', hRun, hPair⟩
  cases hPair
  simp only [Prod.mk.injEq] at hFacts
  refine ⟨s, t, hStart, hRun, hFacts.1, hFacts.2, ?_⟩
  intro hSafe
  have hNonneg := hSafe.filled_nonneg
  omega

end AudioTrackShared

end FrameworksAv
