import FrameworksAv.Base.Bytes
import FrameworksAv.Base.Counter

/-
  Deferred effect parameters: the client queues records in shared memory (`AudioEffect`,
  `media/libmedia`) and the server walks them (`EffectHandle`, `services/audioflinger`).

  Sizes are computed as a 64-bit build does: `size_t` has 64 bits and `int` has 32. The effect
  module is a state machine on the bytes of a command.

  What the client leaves in the buffer.

  A record takes four bytes more than its size says: the size itself is not counted. The size of the
  next record overwrites the last bytes of a parameter, and the last record ends behind
  `clientIndex`.

  Main declarations:
    * `Param`, `Cblk`
    * `setParameterDeferred`, `setParameterCommit`
    * `Laid`, `Laid.append`
    * `laid_of_deferAll`
-/

--
-- Data
--

namespace FrameworksAv

namespace EffectParams

/- `EFFECT_PARAM_BUFFER_SIZE`. -/
def bufferSize : Nat := 1024

/- `sizeof(int)` and `sizeof(effect_param_t)`. -/
def sizeofInt : Nat := 4

def sizeofParam : Nat := 12

/- Codes of `status_t`. -/
def NO_ERROR : Int := 0

def NO_MEMORY : Int := -12

def ALREADY_EXISTS : Int := -17

def BAD_VALUE : Int := -22

def DEAD_OBJECT : Int := -32

def INVALID_OPERATION : Int := -38

/- A size padded to whole words; it is not zero. -/
def padded (size : Nat) : Nat :=
  ((size - 1) / sizeofInt + 1) * sizeofInt

/- An `effect_param_t` with its parameter and its value. -/
structure Param where
  status : Word
  psize : Word
  vsize : Word
  data : List Byte
  hData : data.length = padded psize.toNat + vsize.toNat

/- The bytes at the address of an `effect_param_t`. -/
def Param.bytes (p : Param) : List Byte :=
  le32 p.status ++ le32 p.psize ++ le32 p.vsize ++ p.data

/- `effect_param_cblk_t`, and the memory of its buffer. -/
structure Cblk where
  lock : Bool
  clientIndex : Word
  serverIndex : Word
  buffer : Memory

/- How a call ends. -/
inductive Result where
| returned (status : Int)
| waiting                            -- for the lock
| fault                              -- a bad memory access
| running                            -- still inside the loop
deriving DecidableEq

--
-- The Client
--

/- The `int` of the size of a parameter and its value. -/
def Param.dataSize (p : Param) : Int :=
  (BitVec.ofNat 32 (padded p.psize.toNat + p.vsize.toNat)).toInt

/- `sizeof(effect_param_t) + psize`, a `size_t`. -/
def Param.copySize (p : Param) : Nat :=
  ((sizeofParam + p.dataSize) % 2 ^ 64).toNat

/- The `int` size of a record. -/
def Param.recordSize (p : Param) : Word :=
  BitVec.ofNat 32 (((((p.copySize : Int) - 1) % 2 ^ 64).toNat / sizeofInt + 1) * sizeofInt)

/- The status of an effect that is not ready. -/
def notReady (mStatus : Int) : Int :=
  if mStatus = ALREADY_EXISTS then INVALID_OPERATION
  else mStatus

/- The record is its size and the parameter, which may end past the end that `clientIndex` says. -/
def Cblk.append (c : Cblk) (param : Param) : Cblk :=
  let index := c.clientIndex.toNat
  { c with
    clientIndex := c.clientIndex + param.recordSize
    buffer :=
      (c.buffer.store index (le32 param.recordSize)).store
        (index + sizeofInt) (param.bytes.take param.copySize) }

def setParameterDeferred (mStatus : Int) (c : Cblk) (param : Option Param) : Result × Cblk :=
  if mStatus ≠ NO_ERROR then (.returned (notReady mStatus), c)
  else
    match param with
    | none => (.returned BAD_VALUE, c)
    | some param =>
      if param.psize = 0 ∨ param.vsize = 0 then (.returned BAD_VALUE, c)
      else if c.lock then (.waiting, c)
      else if (c.clientIndex + param.recordSize).toNat > bufferSize then (.returned NO_MEMORY, c)
      else if param.copySize > param.bytes.length then
        -- the copy reads past the end of the parameter
        (.fault, c)
      else (.returned NO_ERROR, c.append param)

/- Queue parameters, as long as they are accepted. -/
def deferAll (mStatus : Int) : Cblk → List Param → Option Cblk
| c, [] => some c
| c, param :: params =>
  match setParameterDeferred mStatus c (some param) with
  | (.returned status, c') =>
    if status = NO_ERROR then deferAll mStatus c' params
    else none
  | _ => none

/- A block in which nothing is queued. -/
def Cblk.init (buffer : Memory) : Cblk where
  lock := false
  clientIndex := 0
  serverIndex := 0
  buffer := buffer

--
-- The Server
--

/- The status of a command, its reply and the next state. -/
structure Answer (σ : Type) where
  status : Int
  reply : Int
  next : σ

/- `EffectModule::command` for `EFFECT_CMD_SET_PARAM`. -/
abbrev Module (σ : Type) := σ → List Byte → Answer σ

/- An `EffectHandle`, its effect, its shared memory and the reply of the command in progress. -/
structure Handle (σ : Type) where
  mHasControl : Bool
  hasEffect : Bool                   -- `mEffect != 0`
  hasClient : Bool                   -- `mClient != 0`
  cblk : Cblk
  pReplyData : Option Int            -- `none` is null
  effect : σ
  received : List (List Byte)        -- commands of the effect

namespace Handle

variable {σ : Type}

/- Write the reply and stop; a null pointer is not written. -/
def stop (h : Handle σ) (status reply : Int) : Option Result × Handle σ :=
  match h.pReplyData with
  | none => (some .fault, h)
  | some _ => (some (.returned status), { h with pReplyData := some reply })

/- `serverIndex += size`. -/
def skip (h : Handle σ) (size : Word) : Handle σ :=
  { h with
    cblk := { h.cblk with serverIndex := h.cblk.serverIndex + size } }

/- The effect module receives a command. -/
def receive (h : Handle σ) (bytes : List Byte) (next : σ) : Handle σ :=
  { h with
    effect := next
    received := h.received ++ [bytes] }

/- The effect sets a parameter; stop at the first error. -/
def setParam (module : Module σ) (h : Handle σ) (size : Word)
    (bytes : List Byte) : Option Result × Handle σ :=
  let answer := module h.effect bytes
  let h' := h.receive bytes answer.next
  if answer.status ≠ NO_ERROR then h'.stop answer.status answer.reply
  else if answer.reply ≠ NO_ERROR then h'.stop NO_ERROR answer.reply
  else (none, h'.skip size)

/- One turn of the loop over the records: the loop ends with a result, or goes on. -/
def turn (module : Module σ) (h : Handle σ) : Option Result × Handle σ :=
  let index := h.cblk.serverIndex.toNat
  let p := index + sizeofInt
  let size := h.cblk.buffer.word index
  if p + size.toInt > h.cblk.clientIndex.toNat then
    -- "invalid parameter block size"
    (some (.returned NO_ERROR), h)
  else
    let psize := h.cblk.buffer.word (p + 4)
    let vsize := h.cblk.buffer.word (p + 8)
    if psize = 0 ∨ vsize = 0 then
      -- "null parameter or value size"
      (none, h.skip size)
    else
      let cmdSize : Word := BitVec.ofNat 32 (sizeofParam + padded psize.toNat + vsize.toNat)
      h.setParam module size (h.cblk.buffer.load p cmdSize.toNat)

/- The loop, for so many turns. -/
def loop (module : Module σ) : Nat → Handle σ → Result × Handle σ
| 0, h => (.running, h)
| fuel + 1, h =>
  if h.cblk.serverIndex.toNat < h.cblk.clientIndex.toNat then
    match h.turn module with
    | (some result, h') => (result, h')
    | (none, h') => loop module fuel h'
  else (.returned NO_ERROR, h)

/- Both indices start again. -/
def reset (h : Handle σ) : Handle σ :=
  { h with
    cblk :=
      { h.cblk with
        clientIndex := 0
        serverIndex := 0 } }

/- `command` with `EFFECT_CMD_SET_PARAM_COMMIT`. -/
def command (module : Module σ) (fuel : Nat) (h : Handle σ) : Result × Handle σ :=
  if h.mHasControl = false then (.returned INVALID_OPERATION, h)
  else if h.hasEffect = false then (.returned DEAD_OBJECT, h)
  else if h.hasClient = false then (.returned INVALID_OPERATION, h)
  else if h.cblk.lock then (.waiting, h)
  else if h.cblk.clientIndex.toNat > bufferSize ∨ h.cblk.serverIndex.toNat > bufferSize then
    (.returned BAD_VALUE, h.reset)
  else
    match loop module fuel h with
    | (.returned status, h') => (.returned status, h'.reset)
    | (result, h') => (result, h')

end Handle

/- The commit holds the lock during the command, which has no room for a reply. -/
def setParameterCommit {σ : Type} (module : Module σ) (fuel : Nat) (mStatus : Int)
    (h : Handle σ) : Result × Handle σ :=
  if mStatus ≠ NO_ERROR then (.returned (notReady mStatus), h)
  else if h.cblk.lock then (.waiting, h)
  else if h.cblk.clientIndex = 0 then (.returned INVALID_OPERATION, h)
  else
    let h' :=
      { h with
        cblk := { h.cblk with lock := true }
        pReplyData := none }
    match h'.command module fuel with
    | (.returned status, t) => (.returned status, { t with cblk := { t.cblk with lock := false } })
    | (result, t) => (result, t)

--
-- Sizes
--

namespace Param

theorem bytes_length (p : Param) :
    p.bytes.length = sizeofParam + padded p.psize.toNat + p.vsize.toNat := by
  simp only [bytes, List.length_append, le32_length, p.hData, sizeofParam]
  omega

/- What is known of a parameter that was accepted.  A size that wrapped around is off by 2^32. -/
structure Stored (p : Param) (room : Nat) : Prop where
  psize : p.psize ≠ 0
  vsize : p.vsize ≠ 0
  copy_le : p.copySize ≤ p.bytes.length
  record : p.recordSize.toNat = (p.copySize + 3) / 4 * 4
  record_le : p.recordSize.toNat ≤ room
  whole : p.copySize = p.bytes.length ∨ 2 ^ 32 ≤ p.bytes.length

end Param

/- Only the last branch accepts a parameter. -/
theorem setParameterDeferred_accepted {mStatus : Int} {c c' : Cblk} {p : Param}
    (hAccept : setParameterDeferred mStatus c (some p) = (.returned NO_ERROR, c')) :
    mStatus = NO_ERROR ∧ p.psize ≠ 0 ∧ p.vsize ≠ 0 ∧
      (c.clientIndex + p.recordSize).toNat ≤ bufferSize ∧
      p.copySize ≤ p.bytes.length ∧ c' = c.append p := by
  unfold setParameterDeferred at hAccept
  split at hAccept
  · rename_i hStatus
    simp only [Prod.mk.injEq, Result.returned.injEq] at hAccept
    have hError : notReady mStatus = NO_ERROR := hAccept.1
    unfold notReady at hError
    split at hError
    · exact absurd hError (by decide)
    · exact absurd hError hStatus
  · rename_i hStatus
    simp only at hAccept
    split at hAccept
    · cases hAccept
    · rename_i hSizes
      split at hAccept
      · cases hAccept
      · split at hAccept
        · cases hAccept
        · rename_i hRoom
          split at hAccept
          · cases hAccept
          · rename_i hCopy
            simp only [Prod.mk.injEq, true_and] at hAccept
            refine ⟨not_not.mp hStatus, ?_, ?_, ?_, ?_, hAccept.symm⟩
            · intro hZero
              exact hSizes (Or.inl hZero)
            · intro hZero
              exact hSizes (Or.inr hZero)
            · exact Nat.le_of_not_gt hRoom
            · exact Nat.le_of_not_gt hCopy

/- The arithmetic of an accepted parameter. -/
theorem copySize_of_accepted {length copy : Nat} {data : Int} (hLength : length < 2 ^ 34)
    (hData : data = (BitVec.ofNat 32 length).toInt)
    (hCopySize : copy = ((12 + data) % 2 ^ 64).toNat) (hCopy : copy ≤ 12 + length) :
    copy < 2 ^ 31 + 12 ∧ (copy = 12 + length ∨ 2 ^ 32 ≤ 12 + length) := by
  rw [BitVec.toInt_eq_toNat_cond, BitVec.toNat_ofNat] at hData
  by_cases hSmall : 2 * (length % 2 ^ 32) < 2 ^ 32
  · rw [if_pos hSmall] at hData
    omega
  · rw [if_neg hSmall] at hData
    -- a negative size of twelve or less still copies little
    omega

/- Records are padded to whole words; an empty one is not. -/
theorem record_of_copySize {copy : Nat} (hSmall : copy < 2 ^ 31 + 12) :
    ((((copy : Int) - 1) % 2 ^ 64).toNat / 4 + 1) * 4 % 2 ^ 32 = (copy + 3) / 4 * 4 := by
  by_cases hZero : copy = 0
  · subst hZero
    decide
  · omega

/- A record never ends behind the end of the buffer. -/
theorem stored_of_accepted {c : Cblk} {p : Param} (hIndex : c.clientIndex.toNat ≤ bufferSize)
    (hPsize : p.psize ≠ 0) (hVsize : p.vsize ≠ 0)
    (hRoom : (c.clientIndex + p.recordSize).toNat ≤ bufferSize)
    (hCopy : p.copySize ≤ p.bytes.length) :
    p.Stored (bufferSize - c.clientIndex.toNat) ∧
      (c.append p).clientIndex.toNat = c.clientIndex.toNat + p.recordSize.toNat := by
  have hLength : p.bytes.length = 12 + (padded p.psize.toNat + p.vsize.toNat) := by
    rw [p.bytes_length, sizeofParam, Nat.add_assoc]
  have hLt : padded p.psize.toNat + p.vsize.toNat < 2 ^ 34 := by
    have hp := p.psize.isLt
    have hv := p.vsize.isLt
    simp only [padded, sizeofInt]
    omega
  have hFacts := copySize_of_accepted hLt rfl (show p.copySize = _ from rfl) (hLength ▸ hCopy)
  have hRecord : p.recordSize.toNat = (p.copySize + 3) / 4 * 4 := by
    rw [← record_of_copySize hFacts.1, Param.recordSize, BitVec.toNat_ofNat]
    rfl
  rw [BitVec.toNat_add] at hRoom
  have hAppend :
      (c.append p).clientIndex.toNat = (c.clientIndex.toNat + p.recordSize.toNat) % 2 ^ 32 := by
    rw [← BitVec.toNat_add]
    rfl
  simp only [bufferSize] at *
  have hSum :
      (c.clientIndex.toNat + p.recordSize.toNat) % 2 ^ 32 =
        c.clientIndex.toNat + p.recordSize.toNat := by
    apply Nat.mod_eq_of_lt
    omega
  rw [hSum] at hRoom hAppend
  refine ⟨?_, hAppend⟩
  exact
    { psize := hPsize
      vsize := hVsize
      copy_le := hCopy
      record := hRecord
      record_le := by omega
      whole := by
        rw [hLength]
        exact hFacts.2 }

--
-- Records In The Buffer
--

/-
  Records from one index to another. Of a parameter only the bytes up to the next record are there.
-/
inductive Laid (mem : Memory) : Nat → Nat → List Param → Prop
| nil (index : Nat) : Laid mem index index []
| empty {index stop : Nat} {p : Param} {ps : List Param} (hSize : p.recordSize = 0)
    (hStored : p.Stored bufferSize) (hRest : Laid mem index stop ps) : Laid mem index stop (p :: ps)
| record {index stop : Nat} {p : Param} {ps : List Param} (hSize : p.recordSize ≠ 0)
    (hStored : p.Stored bufferSize) (hRecord : mem.load index sizeofInt = le32 p.recordSize)
    (hBytes :
      mem.load (index + sizeofInt) (p.recordSize.toNat - sizeofInt) =
        p.bytes.take (p.recordSize.toNat - sizeofInt))
    (hRest : Laid mem (index + p.recordSize.toNat) stop ps) : Laid mem index stop (p :: ps)

/- A record that is not empty has a whole word at least. -/
theorem Param.Stored.record_pos {p : Param} {room : Nat} (hStored : p.Stored room)
    (hSize : p.recordSize ≠ 0) : sizeofInt ≤ p.recordSize.toNat := by
  have hNe : p.recordSize.toNat ≠ 0 := by
    intro hZero
    exact hSize (BitVec.eq_of_toNat_eq hZero)
  have hRecord := hStored.record
  simp only [sizeofInt]
  omega

theorem Param.Stored.mono {p : Param} {room room' : Nat} (hStored : p.Stored room)
    (hLe : room ≤ room') : p.Stored room' :=
  { hStored with
    record_le := Nat.le_trans hStored.record_le hLe }

namespace Laid

variable {mem : Memory} {index stop : Nat} {ps : List Param}

theorem le (h : Laid mem index stop ps) : index ≤ stop := by
  induction h with
  | nil => exact Nat.le_refl _
  | empty _ _ _ ih => exact ih
  | record _ _ _ _ _ ih => exact Nat.le_trans (Nat.le_add_right _ _) ih

/- Stores behind the records leave them. -/
theorem store_behind (h : Laid mem index stop ps) {behind : Nat} (hBehind : stop ≤ behind)
    (bytes : List Byte) : Laid (mem.store behind bytes) index stop ps := by
  induction h with
  | nil => exact .nil _
  | empty hSize hStored _ ih => exact .empty hSize hStored (ih hBehind)
  | record hSize hStored hRecord hBytes hRest ih =>
    have hPos := hStored.record_pos hSize
    have hLe := hRest.le
    refine .record hSize hStored ?_ ?_ (ih hBehind)
    · rw [Memory.load_store_before mem (by omega)]
      exact hRecord
    · rw [Memory.load_store_before mem (by omega)]
      exact hBytes

theorem append (h : Laid mem index stop ps) {stop' : Nat} {qs : List Param}
    (hMore : Laid mem stop stop' qs) : Laid mem index stop' (ps ++ qs) := by
  induction h with
  | nil => exact hMore
  | empty hSize hStored _ ih => exact .empty hSize hStored (ih hMore)
  | record hSize hStored hRecord hBytes _ ih =>
    exact .record hSize hStored hRecord hBytes (ih hMore)

end Laid

/- A new record goes behind the others. -/
theorem laid_append {c : Cblk} {p : Param} (hStored : p.Stored bufferSize)
    (hIndex : (c.append p).clientIndex.toNat = c.clientIndex.toNat + p.recordSize.toNat)
    {ps : List Param} (h : Laid c.buffer 0 c.clientIndex.toNat ps) :
    Laid (c.append p).buffer 0 (c.append p).clientIndex.toNat (ps ++ [p]) := by
  rw [hIndex]
  have hOld : Laid (c.append p).buffer 0 c.clientIndex.toNat ps :=
    (h.store_behind (Nat.le_refl _) _).store_behind (Nat.le_add_right _ _) _
  apply hOld.append
  by_cases hSize : p.recordSize = 0
  · have hZero : p.recordSize.toNat = 0 := by
      rw [hSize]
      rfl
    rw [hZero]
    exact .empty hSize hStored (.nil _)
  · have hPos := hStored.record_pos hSize
    have hRecord := hStored.record
    refine .record hSize hStored ?_ ?_ (.nil _)
    · simp only [Cblk.append]
      rw [Memory.load_store_before _ (Nat.le_refl _)]
      exact Memory.load_store_taken _ _ (Nat.le_refl 4)
    · have hCount : p.recordSize.toNat - sizeofInt ≤ p.copySize := by
        simp only [sizeofInt]
        omega
      have hTaken : p.recordSize.toNat - sizeofInt ≤ (p.bytes.take p.copySize).length := by
        rw [List.length_take]
        exact Nat.le_min.mpr ⟨hCount, Nat.le_trans hCount hStored.copy_le⟩
      simp only [Cblk.append]
      rw [Memory.load_store_taken _ _ hTaken, List.take_take, Nat.min_eq_left hCount]

/- What is queued is laid out in order. -/
theorem laid_of_deferAll {mStatus : Int} {ps : List Param} {c c' : Cblk}
    (hAccept : deferAll mStatus c ps = some c') (hIndex : c.clientIndex.toNat ≤ bufferSize)
    {qs : List Param} (h : Laid c.buffer 0 c.clientIndex.toNat qs) :
    Laid c'.buffer 0 c'.clientIndex.toNat (qs ++ ps) ∧ c'.clientIndex.toNat ≤ bufferSize ∧
      c'.serverIndex = c.serverIndex := by
  induction ps generalizing c qs with
  | nil =>
    cases hAccept
    rw [List.append_nil]
    exact ⟨h, hIndex, rfl⟩
  | cons p ps ih =>
    unfold deferAll at hAccept
    cases hCall : setParameterDeferred mStatus c (some p) with
    | mk result c₁ =>
      cases result with
      | waiting | fault | running =>
        rw [hCall] at hAccept
        cases hAccept
      | returned status =>
        rw [hCall] at hAccept
        simp only at hAccept
        split at hAccept
        · rename_i hStatus
          subst hStatus
          rcases setParameterDeferred_accepted hCall with ⟨_, hPsize, hVsize, hRoom, hCopy, hNext⟩
          subst hNext
          rcases stored_of_accepted hIndex hPsize hVsize hRoom hCopy with ⟨hStored, hAppend⟩
          have hRecordLe := hStored.record_le
          have hMore := laid_append (hStored.mono (Nat.sub_le _ _)) hAppend h
          have hRest := ih hAccept (by omega) hMore
          rw [List.append_assoc] at hRest
          exact hRest
        · cases hAccept

--
-- What The Server Sees
--

/- The next parameter whose record is not empty. -/
def nextRecord : List Param → Option Param
| [] => none
| p :: ps => if p.recordSize = 0 then nextRecord ps else some p

/-
  The parameter fits the buffer, and what the size of the next record overwrites is the same before
  and after.
-/
def Param.Intact (p : Param) (rest : List Param) : Prop :=
  p.bytes.length ≤ bufferSize ∧
    ∃ q, nextRecord rest = some q ∧
      p.bytes.drop (p.recordSize.toNat - sizeofInt) <+: le32 q.recordSize

namespace Laid

variable {mem : Memory} {index stop : Nat} {ps : List Param}

/- Without another record the index is at the end. -/
theorem next_none (h : Laid mem index stop ps) (hNext : nextRecord ps = none) : index = stop := by
  induction h with
  | nil => rfl
  | empty hSize _ _ ih =>
    apply ih
    rw [nextRecord, if_pos hSize] at hNext
    exact hNext
  | record hSize _ _ _ _ _ =>
    rw [nextRecord, if_neg hSize] at hNext
    cases hNext

/- The next record begins with its size. -/
theorem next_some (h : Laid mem index stop ps) {q : Param} (hNext : nextRecord ps = some q) :
    mem.load index sizeofInt = le32 q.recordSize ∧ index + sizeofInt ≤ stop := by
  induction h with
  | nil => cases hNext
  | empty hSize _ _ ih =>
    apply ih
    rw [nextRecord, if_pos hSize] at hNext
    exact hNext
  | record hSize hStored hRecord _ hRest _ =>
    rw [nextRecord, if_neg hSize] at hNext
    cases hNext
    have hPos := hStored.record_pos hSize
    have hLe := hRest.le
    exact ⟨hRecord, by omega⟩

end Laid

end EffectParams

end FrameworksAv
