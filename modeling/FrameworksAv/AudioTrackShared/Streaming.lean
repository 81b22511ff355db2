import FrameworksAv.AudioTrackShared.Proxy
import FrameworksAv.Base.Fifo
import FrameworksAv.Base.Run

/-
  A streaming track as a system of two threads: the client side and the server side of one control
  block, each calling its proxy in program order.

  Every call of the client touches one word that the server writes, so it is one step.
  `ServerProxy::obtainBuffer` of an output track loads `mFlush` and then `mRear`, both written by
  the client, so it is two steps: `serverBegin` loads `mFlush` and `serverObtain` does the rest.

  `History` records what the two sides did. The code never reads it.

  Main declarations:
    * `Stream`, `History`
    * `Action`, `Enabled`, `next`, `step`
    * `FewFlushes`, `NothingHeld`, `NoOvertaking`
-/

--
-- System State
--

namespace FrameworksAv

namespace AudioTrackShared

/- The frames of the last obtained buffer not yet released. -/
structure Held where
  raw : Nat
  count : Nat

/- The flush counter and position at a call of `flush`. -/
structure FlushMark where
  number : Nat
  position : Nat
  rear : Word

/- What both sides did so far. -/
structure History (F : Type) where
  released : List F      -- frames released by the producer
  consumed : List F      -- frames released by the consumer
  lastFlush : FlushMark  -- latest `flush` of the client
  observed : FlushMark   -- latest `flush` the server loaded
  taken : FlushMark      -- latest `flush` the server acted on
  takenFront : Nat       -- position of `mFront` after that
  takenAt : Nat          -- frames consumed before that

/- A control block, its buffer, both proxies and their callers. -/
structure Stream (F : Type) where
  cblk : Cblk
  mBuffers : Nat → F
  client : ClientProxy
  server : ServerProxy
  clientHeld : Held
  serverHeld : Held
  loadedFlush : Option Word
  fatal : Bool
  hist : History F

namespace Stream

variable {F : Type}

/- A new track; the buffer holds arbitrary frames. -/
def init (mBuffers : Nat → F) : Stream F where
  cblk := Cblk.init
  mBuffers := mBuffers
  client := ⟨false, 0⟩
  server := ⟨false, 0, 0, 0⟩
  clientHeld := ⟨0, 0⟩
  serverHeld := ⟨0, 0⟩
  loadedFlush := none
  fatal := false
  hist :=
    { released := []
      consumed := []
      lastFlush := ⟨0, 0, 0⟩
      observed := ⟨0, 0, 0⟩
      taken := ⟨0, 0, 0⟩
      takenFront := 0
      takenAt := 0 }

/- The region of the side that fills the pipe. -/
def producerHeld (g : Geometry) (s : Stream F) : Held :=
  if g.mIsOut then s.clientHeld else s.serverHeld

/- The region of the side that drains the pipe. -/
def consumerHeld (g : Geometry) (s : Stream F) : Held :=
  if g.mIsOut then s.serverHeld else s.clientHeld

end Stream

--
-- Steps
--

/- The steps of the two sides. -/
inductive Action (F : Type) where
| clientObtain (ask : Nat) (timeout : Timeout) (ignoreInterrupt expired : Bool)
| clientRelease (count : Nat)
| clientFlush
| interrupt
| binderDied
| serverBegin
| serverObtain (ask : Nat) (ackFlush : Bool)
| serverRelease (count : Nat)
| framesReady
| write (offset : Nat) (frame : F)

variable {F : Type}

/- The region a call of `obtainBuffer` leaves its caller. -/
def Held.ofBuffer (buffer : Buffer) : Held :=
  ⟨buffer.mRaw.getD 0, buffer.mFrameCount⟩

/- Releasing frames moves on inside the region. -/
def Held.drop (held : Held) (count : Nat) : Held :=
  ⟨held.raw + count, held.count - count⟩

/- The buffer a caller passes to release `count` frames. -/
def Held.toBuffer (held : Held) (count : Nat) : Buffer :=
  ⟨count, some held.raw, 0⟩

namespace Stream

def clientObtain (g : Geometry) (s : Stream F) (ask : Nat) (timeout : Timeout)
    (ignoreInterrupt expired : Bool) : Stream F :=
  let r := s.client.obtainBuffer g timeout ignoreInterrupt expired s.cblk ask
  { s with
    cblk := r.1
    client := r.2.1
    clientHeld :=
      match r.2.2 with
      | .returned _ buffer => Held.ofBuffer buffer
      | .waiting => s.clientHeld }

/- The producer publishes and the consumer drops frames. -/
def record (s : Stream F) (producer : Bool) (frames : List F) : Stream F :=
  { s with
    hist := if producer then { s.hist with released := s.hist.released ++ frames }
      else { s.hist with consumed := s.hist.consumed ++ frames } }

def clientRelease (g : Geometry) (s : Stream F) (count : Nat) : Stream F :=
  match s.client.releaseBuffer g s.cblk (s.clientHeld.toBuffer count) with
  | none => { s with fatal := true }
  | some (cblk, client, _) =>
    if s.client.mIsShutdown then s
    else
      { s.record g.mIsOut (Ring.slice s.mBuffers s.clientHeld.raw count) with
        cblk := cblk
        client := client
        clientHeld := s.clientHeld.drop count }

def clientFlush (g : Geometry) (s : Stream F) : Stream F :=
  { s with
    cblk := ClientProxy.flush g s.cblk
    hist :=
      { s.hist with
        lastFlush :=
          { number := s.hist.lastFlush.number + 1
            position := s.hist.released.length
            rear := s.cblk.mRear } } }

/- The server loads `mFlush` at the start of a call. -/
def serverBegin (s : Stream F) : Stream F :=
  { s with
    loadedFlush := some s.cblk.mFlush
    hist := { s.hist with observed := s.hist.lastFlush } }

/- A call that acts on a changed flush starts a new epoch. -/
def recordTaken (g : Geometry) (s : Stream F) (flush : Word) (cblk : Cblk) : History F :=
  if g.mIsOut ∧ flush ≠ s.server.mFlush then
    { s.hist with
      taken := s.hist.observed
      takenFront := s.hist.released.length - cblk.filled.toNat
      takenAt := s.hist.consumed.length }
  else s.hist

/-
  `Track::start` acknowledges a flush with a buffer of its own, so the region of the mixer stays as
  it is.
-/
def serverObtain (g : Geometry) (s : Stream F) (flush : Word) (ask : Nat)
    (ackFlush : Bool) : Stream F :=
  let r := s.server.obtainBuffer g flush ackFlush s.cblk ask
  { s with
    cblk := r.1
    server := r.2.1
    serverHeld := if ackFlush then s.serverHeld
      else Held.ofBuffer r.2.2.2
    loadedFlush := none
    hist := s.recordTaken g flush r.1 }

def serverRelease (g : Geometry) (s : Stream F) (count : Nat) : Stream F :=
  match s.server.releaseBuffer g s.cblk (s.serverHeld.toBuffer count) with
  | none => { s with fatal := true }
  | some (cblk, server, _) =>
    if s.server.mIsShutdown then s
    else
      { s.record (!g.mIsOut) (Ring.slice s.mBuffers s.serverHeld.raw count) with
        cblk := cblk
        server := server
        serverHeld := s.serverHeld.drop count }

/- The producer stores a frame into its region. -/
def write (g : Geometry) (s : Stream F) (offset : Nat) (frame : F) : Stream F :=
  { s with
    mBuffers := Function.update s.mBuffers
      ((s.producerHeld g).raw + offset) frame }

end Stream

/- The callers obey the contract of the two headers. -/
def Enabled (g : Geometry) (s : Stream F) : Action F → Prop
| .clientObtain ask _ _ _ => 0 < ask
| .clientRelease count => count ≤ s.clientHeld.count
| .clientFlush => g.mIsOut = true
| .interrupt => True
| .binderDied => True
| .serverBegin => s.loadedFlush = none
| .serverObtain ask _ => 0 < ask ∧ s.loadedFlush.isSome
| .serverRelease count => count ≤ s.serverHeld.count ∧ s.loadedFlush = none
| .framesReady => g.mIsOut = true ∧ s.loadedFlush = none
| .write offset _ => offset < (s.producerHeld g).count

instance (g : Geometry) (s : Stream F) : ∀ a, Decidable (Enabled g s a)
| .clientObtain _ _ _ _ => inferInstanceAs (Decidable (_ < _))
| .clientRelease _ => inferInstanceAs (Decidable (_ ≤ _))
| .clientFlush => inferInstanceAs (Decidable (_ = _))
| .interrupt => inferInstanceAs (Decidable True)
| .binderDied => inferInstanceAs (Decidable True)
| .serverBegin => inferInstanceAs (Decidable (_ = _))
| .serverObtain _ _ => inferInstanceAs (Decidable (_ ∧ _))
| .serverRelease _ => inferInstanceAs (Decidable (_ ∧ _))
| .framesReady => inferInstanceAs (Decidable (_ ∧ _))
| .write _ _ => inferInstanceAs (Decidable (_ < _))

/- The state after an action. -/
def next (g : Geometry) (s : Stream F) : Action F → Stream F
| .clientObtain ask timeout ignoreInterrupt expired =>
  s.clientObtain g ask timeout ignoreInterrupt expired
| .clientRelease count => s.clientRelease g count
| .clientFlush => s.clientFlush g
| .interrupt => { s with cblk := ClientProxy.interrupt s.cblk }
| .binderDied => { s with cblk := ClientProxy.binderDied s.cblk }
| .serverBegin => s.serverBegin
| .serverObtain ask ackFlush => s.serverObtain g (s.loadedFlush.getD 0) ask ackFlush
| .serverRelease count => s.serverRelease g count
| .framesReady => { s with server := (s.server.framesReady g s.cblk).1 }
| .write offset frame => s.write g offset frame

/- A failed assertion stops both sides. -/
def step (g : Geometry) (s : Stream F) (a : Action F) : Option (Stream F) :=
  if s.fatal = false ∧ Enabled g s a then some (next g s a)
  else none

--
-- Run Conditions
--

/- Values the flush counter takes before it repeats. -/
def Geometry.flushPeriod (g : Geometry) : Nat :=
  2 ^ (31 - g.logFrameCountP2)

/- The client never flushes. -/
def NoFlush (_ : Stream F) : Action F → Prop
| .clientFlush => False
| _ => True

instance (s : Stream F) : ∀ a, Decidable (NoFlush s a)
| .clientFlush => inferInstanceAs (Decidable False)
| .clientObtain _ _ _ _
| .clientRelease _
| .interrupt
| .binderDied
| .serverBegin
| .serverObtain _ _
| .serverRelease _
| .framesReady
| .write _ _ => inferInstanceAs (Decidable True)

/- No frames were released after a flush that the server has not loaded. -/
def Stream.Still (s : Stream F) : Prop :=
  s.hist.observed.number = s.hist.lastFlush.number ∨
    s.hist.lastFlush.position = s.hist.released.length

instance (s : Stream F) : Decidable s.Still :=
  inferInstanceAs (Decidable (_ ∨ _))

/- Fewer flushes than the period of the flush counter between two loads of `mFlush`. -/
def FewFlushes (g : Geometry) (s : Stream F) : Action F → Prop
| .clientFlush => s.hist.lastFlush.number + 1 < s.hist.observed.number + g.flushPeriod
| _ => True

instance (g : Geometry) (s : Stream F) : ∀ a, Decidable (FewFlushes g s a)
| .clientFlush => inferInstanceAs (Decidable (_ < _))
| .clientObtain _ _ _ _
| .clientRelease _
| .interrupt
| .binderDied
| .serverBegin
| .serverObtain _ _
| .serverRelease _
| .framesReady
| .write _ _ => inferInstanceAs (Decidable True)

/- The server holds no unreleased frames when it acts on a changed flush. -/
def NothingHeld (g : Geometry) (s : Stream F) : Action F → Prop
| .serverObtain _ _ =>
  g.mIsOut = true → s.loadedFlush ≠ some s.server.mFlush → s.serverHeld.count = 0
| _ => True

instance (g : Geometry) (s : Stream F) : ∀ a, Decidable (NothingHeld g s a)
| .serverObtain _ _ => inferInstanceAs (Decidable (_ → _ → s.serverHeld.count = 0))
| .clientFlush
| .clientObtain _ _ _ _
| .clientRelease _
| .interrupt
| .binderDied
| .serverBegin
| .serverRelease _
| .framesReady
| .write _ _ => inferInstanceAs (Decidable True)

/- What the callers of a flushed track promise. -/
def FlushContract (g : Geometry) (s : Stream F) (a : Action F) : Prop :=
  FewFlushes g s a ∧ NothingHeld g s a

instance (g : Geometry) (s : Stream F) (a : Action F) : Decidable (FlushContract g s a) :=
  inferInstanceAs (Decidable (_ ∧ _))

/- Where a call reads from once its flush part is done. -/
def Stream.obtainFront (s : Stream F) : Nat :=
  if s.loadedFlush = some s.server.mFlush then
    s.hist.takenFront + (s.hist.consumed.length - s.hist.takenAt)
  else s.hist.observed.position

/-
  The client overtakes a call of the server when it flushes and releases frames between the loads of
  `mFlush` and of `mRear`, and the call then hands out frames from behind that flush.
-/
def NoOvertaking (g : Geometry) (s : Stream F) : Action F → Prop
| .serverObtain ask ackFlush =>
  g.mIsOut = true →
    s.Still ∨
      g.logFrameCountP2 ≤ 29 ∧
        (ackFlush = true ∨
          s.obtainFront + min ask (g.mFrameCountP2 - s.obtainFront % g.mFrameCountP2) ≤
            s.hist.lastFlush.position)
| _ => True

instance (g : Geometry) (s : Stream F) : ∀ a, Decidable (NoOvertaking g s a)
| .serverObtain _ _ => inferInstanceAs (Decidable (_ → _ ∨ _))
| .clientFlush
| .clientObtain _ _ _ _
| .clientRelease _
| .interrupt
| .binderDied
| .serverBegin
| .serverRelease _
| .framesReady
| .write _ _ => inferInstanceAs (Decidable True)

/- The conditions under which a flush is exact. -/
def FlushDiscipline (g : Geometry) (s : Stream F) (a : Action F) : Prop :=
  FlushContract g s a ∧ NoOvertaking g s a

instance (g : Geometry) (s : Stream F) (a : Action F) : Decidable (FlushDiscipline g s a) :=
  inferInstanceAs (Decidable (_ ∧ _))

end AudioTrackShared

end FrameworksAv
