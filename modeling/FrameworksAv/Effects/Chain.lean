import FrameworksAv.Base.KeyedVector
import FrameworksAv.Base.Run
import Mathlib.Data.List.InsertIdx

/-
  `EffectModule` and `EffectHandle` (`services/audioflinger/Effects.h`): an effect, its clients and
  which of them has control.

  Pointers are numbers. Callbacks to a client, commands to the effect engine and the mutexes are
  left out.

  `EffectChain` (`services/audioflinger/Effects.cpp`): the effects of a session in the order they
  process.

  Main declarations:
    * `EffectHandle`, `EffectModule`
    * `EffectModule.addHandle`, `EffectModule.removeHandle`
    * `EffectChain.addEffect_l`, `EffectChain.removeEffect_l`
    * `ChainRun`, `ChainRun.step`
-/

--
-- Descriptors
--

namespace FrameworksAv

namespace Effects

/- The status of a call. -/
inductive Status where
| NO_ERROR
| ALREADY_EXISTS
| INVALID_OPERATION
| NO_INIT
deriving DecidableEq

/- `effect_uuid_t`; the fields after the first are one number. -/
structure Uuid where
  timeLow : BitVec 32
  rest : BitVec 96
deriving DecidableEq

/- `flags & EFFECT_FLAG_TYPE_MASK`. -/
inductive TypeMode where
| insert
| auxiliary
| other (bits : Nat)   -- replace, pre- and post-processing
deriving DecidableEq

/- `flags & EFFECT_FLAG_INSERT_MASK`. -/
inductive InsertPref where
| any
| first
| last
| exclusive
| other (bits : Nat)
deriving DecidableEq

/- The parts of `effect_descriptor_t` that are read. -/
structure Descriptor where
  type : Uuid
  mode : TypeMode
  pref : InsertPref
deriving DecidableEq

--
-- Handles
--

/- Members of `EffectHandle`; `id` stands for its address. -/
structure EffectHandle where
  id : Nat
  mPriority : Int
  mHasControl : Bool
  mEnabled : Bool
  mDestroyed : Bool
deriving DecidableEq

namespace EffectHandle

/- The constructor. -/
def create (id : Nat) (priority : Int) : EffectHandle where
  id := id
  mPriority := priority
  mHasControl := false
  mEnabled := false
  mDestroyed := false

def setControl (h : EffectHandle) (hasControl enabled : Bool) : EffectHandle :=
  { h with mHasControl := hasControl, mEnabled := enabled }

end EffectHandle

--
-- Modules
--

/- `effect_state`. -/
inductive EffectState where
| IDLE
| RESTART
| STARTING
| ACTIVE
| STOPPING
| STOPPED
| DESTROYED
deriving DecidableEq

/- `EFFECT_BUFFER_ACCESS_WRITE` and `_ACCUMULATE`. -/
inductive AccessMode where
| write
| accumulate
deriving DecidableEq

/-
  Members of `EffectModule`; `id` stands for its address. Of its configuration, the two buffers and
  the access to the output.
-/
structure EffectModule where
  id : Nat
  mDescriptor : Descriptor
  mPinned : Bool
  mState : EffectState
  mSuspended : Bool
  mHandles : List EffectHandle
  inBuffer : Nat
  outBuffer : Nat
  accessMode : AccessMode
deriving DecidableEq

namespace EffectModule

/-
  The loop of `addHandle`: the position of the first live handle that a priority does not give way
  to, and that of the first live handle on the way.
-/
def scan (priority : Int) :
    List EffectHandle → (i : Nat) → (controlHandle : Option Nat) → Nat × Option Nat
| [], i, controlHandle => (i, controlHandle)
| h :: hs, i, controlHandle =>
  if h.mDestroyed then scan priority hs (i + 1) controlHandle
  else
    let controlHandle := controlHandle.or (some i)
    if h.mPriority ≤ priority then (i, controlHandle)
    else scan priority hs (i + 1) controlHandle

def addHandle (m : EffectModule) (handle : EffectHandle) : Status × EffectModule :=
  let r := scan handle.mPriority m.mHandles 0 none
  if r.1 = 0 then
    -- control moves from the previous owner to this handle
    match r.2 with
    | some k =>
      let enabled := (m.mHandles[k]?.map (fun h => h.mEnabled)).getD false
      let hs := m.mHandles.modify k (fun h => h.setControl false enabled)
      (.NO_ERROR,
        { m with
          mHandles := hs.insertIdx 0 (handle.setControl true enabled) })
    | none =>
      (.NO_ERROR,
        { m with
          mHandles := m.mHandles.insertIdx 0 (handle.setControl true false) })
  else (.ALREADY_EXISTS, { m with mHandles := m.mHandles.insertIdx r.1 handle })

/- The position of the first live handle, which has control. -/
def controlHandle_l (hs : List EffectHandle) : Option Nat :=
  hs.findIdx? (fun h => ! h.mDestroyed)

def removeHandle (m : EffectModule) (handle : Nat) : Nat × EffectModule :=
  match m.mHandles.findIdx? (fun h => h.id = handle) with
  | none => (m.mHandles.length, m)
  | some i =>
    let enabled := (m.mHandles[i]?.map (fun h => h.mEnabled)).getD false
    let hs := m.mHandles.eraseIdx i
    let hs :=
      if i = 0 then
        match controlHandle_l hs with
        | some k => hs.modify k (fun h => h.setControl true enabled)
        | none => hs
      else hs
    (hs.length,
      { m with
        mHandles := hs
        mState := if hs.length = 0 ∧ m.mPinned = false then .DESTROYED
          else m.mState })

/- `~EffectHandle` under the lock of its module. -/
def destroyHandle (m : EffectModule) (handle : Nat) : EffectModule :=
  { m with
    mHandles :=
      m.mHandles.map (fun h =>
        if h.id = handle then { h with mDestroyed := true }
        else h) }

/- `EffectHandle::enable` and `disable` write `mEnabled`. -/
def enableHandle (m : EffectModule) (handle : Nat) (enabled : Bool) : EffectModule :=
  { m with
    mHandles :=
      m.mHandles.map (fun h =>
        if h.id = handle ∧ h.mHasControl = true then { h with mEnabled := enabled }
        else h) }

def isEnabled (m : EffectModule) : Bool :=
  match m.mState with
  | .RESTART => true
  | .STARTING => true
  | .ACTIVE => true
  | _ => false

def setSuspended (m : EffectModule) (suspended : Bool) : EffectModule :=
  { m with mSuspended := suspended }

/-
  `accepts` is whether `AudioSystem::setEffectEnabled` lets the effect be enabled; its refusal to
  disable is ignored.
-/
def setEnabled_l (accepts : Bool) (m : EffectModule) (enabled : Bool) : EffectModule :=
  if enabled = m.isEnabled then m
  else if enabled ∧ accepts = false then m
  else
    match m.mState with
    -- going from disabled to enabled
    | .IDLE => { m with mState := .STARTING }
    | .STOPPED => { m with mState := .RESTART }
    | .STOPPING => { m with mState := .ACTIVE }
    -- going from enabled to disabled
    | .RESTART => { m with mState := .STOPPED }
    | .STARTING => { m with mState := .IDLE }
    | .ACTIVE => { m with mState := .STOPPING }
    | .DESTROYED => m

/- The access to the output buffer that `configure` sets. -/
def configure (m : EffectModule) : EffectModule :=
  { m with
    accessMode := if m.inBuffer ≠ m.outBuffer then .accumulate
      else .write }

def setInBuffer (m : EffectModule) (buffer : Nat) : EffectModule :=
  { m with inBuffer := buffer }

def setOutBuffer (m : EffectModule) (buffer : Nat) : EffectModule :=
  { m with outBuffer := buffer }

end EffectModule

--
-- Chains
--

/- `SuspendedEffectDesc`; the effect is that of its address. -/
structure SuspendedEffectDesc where
  mRefCount : Int
  mType : Uuid
  mEffect : Option Nat
deriving DecidableEq

/- Members of `EffectChain`; buffers are addresses. -/
structure EffectChain where
  mEffects : List EffectModule
  mSessionId : Int
  mInBuffer : Nat
  mOutBuffer : Nat
  mSuspendedEffects : KeyedVector Int SuspendedEffectDesc

namespace EffectChain

/- The positions that the scan of `addEffect_l` remembers. -/
structure Positions where
  idx_insert : Nat
  idx_insert_first : Option Nat
  idx_insert_last : Option Nat

/-
  An insert effect at position `i`: the first one is the default position; the last one claiming the
  first position and the first one claiming the last position are remembered.
-/
def Positions.visit (size i : Nat) (iPref : InsertPref) (p : Positions) : Positions where
  idx_insert := if p.idx_insert = size then i else p.idx_insert
  idx_insert_first := if iPref = .first then some i else p.idx_insert_first
  idx_insert_last := if iPref = .last ∧ p.idx_insert_last = none then some i
    else p.idx_insert_last

/- The scan of `addEffect_l`; `none` is an exclusive conflict. -/
def scan (insertPref : InsertPref) (size : Nat) :
    List EffectModule → (i : Nat) → Positions → Option Positions
| [], _, p => some p
| e :: es, i, p =>
  let iMode := e.mDescriptor.mode
  let iPref := e.mDescriptor.pref
  if iMode = .insert then if insertPref = .exclusive ∨ iPref = .exclusive then none
    else scan insertPref size es (i + 1) (p.visit size i iPref)
  else scan insertPref size es (i + 1) p

/- The position as the preference asks for it. -/
def insertIndex (insertPref : InsertPref) (size : Nat) (p : Positions) : Nat :=
  if insertPref = .last then
    match p.idx_insert_last with
    | some k => k
    | none => size
  else
    match p.idx_insert_first with
    | some k => k + 1
    | none => p.idx_insert

/-
  `thread` is whether the thread of the chain is alive, and `buffer` the address that `new` returns
  for the input of an auxiliary effect.
-/
def addEffect_l (thread : Bool) (buffer : Nat) (c : EffectChain)
    (effect : EffectModule) : Status × EffectChain :=
  let insertPref := effect.mDescriptor.pref
  if thread = false then (.NO_INIT, c)
  else if effect.mDescriptor.mode = .auxiliary then
    let effect := effect.setInBuffer buffer
    let effect := effect.setOutBuffer c.mInBuffer
    (.NO_ERROR,
      { c with
        mEffects := c.mEffects.insertIdx 0 effect.configure })
  else
    let size := c.mEffects.length
    match scan insertPref size c.mEffects 0 ⟨size, none, none⟩
    with
    | none => (.INVALID_OPERATION, c)
    | some p =>
      let idx_insert := insertIndex insertPref size p
      let effect := effect.setInBuffer c.mInBuffer
      if idx_insert = size then
        let es :=
          if idx_insert ≠ 0 then
            c.mEffects.modify (idx_insert - 1)
              (fun e =>
                (e.setOutBuffer c.mInBuffer).configure)
          else c.mEffects
        let effect := effect.setOutBuffer c.mOutBuffer
        (.NO_ERROR,
          { c with
            mEffects := es.insertIdx idx_insert effect.configure })
      else
        let effect := effect.setOutBuffer c.mInBuffer
        (.NO_ERROR,
          { c with
            mEffects := c.mEffects.insertIdx idx_insert effect.configure })

/- The effect is that of its address. -/
def removeEffect_l (c : EffectChain) (effect : Nat) : Nat × EffectChain :=
  let size := c.mEffects.length
  match c.mEffects.findIdx? (fun e => e.id = effect) with
  | none => (size, c)
  | some i =>
    let type := c.mEffects[i]?.map (fun e => e.mDescriptor.mode)
    let es := if type = some .auxiliary then c.mEffects
      else if i = size - 1 ∧ i ≠ 0 then
        c.mEffects.modify (i - 1) (fun e => (e.setOutBuffer c.mOutBuffer).configure)
      else c.mEffects
    let es := es.eraseIdx i
    (es.length, { c with mEffects := es })

end EffectChain

--
-- System
--

namespace EffectModule

/- What the chain never changes of an effect. -/
def key (e : EffectModule) : Nat × Descriptor :=
  (e.id, e.mDescriptor)

end EffectModule

/-
  A chain, and the effects that have been added and not been removed, in the order in which they
  were added.
-/
structure ChainRun where
  chain : EffectChain
  added : List (Nat × Descriptor)

inductive ChainAction where
| addEffect_l (thread : Bool) (buffer : Nat) (effect : EffectModule)
| removeEffect_l (effect : Nat)

namespace ChainRun

/- A chain without effects. -/
def init (c : EffectChain) : ChainRun where
  chain := { c with mEffects := [] }
  added := []

/- An effect is not added while it is in the chain. -/
def step (s : ChainRun) : ChainAction → Option ChainRun
| .addEffect_l thread buffer effect =>
  if effect.id ∈ s.chain.mEffects.map (fun e => e.id) then none
  else
    let r := s.chain.addEffect_l thread buffer effect
    some
      { chain := r.2
        added := if r.1 = .NO_ERROR then s.added ++ [effect.key]
          else s.added }
| .removeEffect_l effect =>
  some
    { chain := (s.chain.removeEffect_l effect).2
      added := s.added.filter (fun k => k.1 ≠ effect) }

end ChainRun

end Effects

end FrameworksAv
