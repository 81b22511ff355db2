import Mathlib.Algebra.Order.Ring.Int
import Mathlib.Data.PNat.Basic

/-
  A track of the mixer and its buffers (`AudioMixer::track_t` and the inner loops of
  `AudioMixer::process__genericNoResampling` and `AudioMixer::process__genericResampling`).

  Positions in buffers are in frames, from the start of the period: frame 0 of a track is the one
  its provider serves next. Presentation times and the mixing that a hook does are not modelled: a
  hook reads the frames it is given and moves `in` behind them.

  Main declarations:
    * `Track`, `Track.getNextBuffer`, `Track.releaseBuffer`
    * `Track.mixBlock`, `Track.mixPeriod`
    * `Track.pieces`
-/

--
-- Buffers
--

namespace FrameworksAv

namespace AudioMixer

def BLOCKSIZE : Nat := 16

/-
  A call of a track's hook: its first frame, the main buffer of its group, the frame of that buffer
  where the accumulation buffer goes, the frame of the accumulation buffer that it starts at, and
  the frame of the aux buffer.
-/
structure HookCall where
  source : Nat
  main : Nat
  block : Nat
  out : Nat
  frameCount : Nat
  aux : Option Nat
deriving DecidableEq

/- What happens to a track. -/
inductive Event where
| getNextBuffer (frameCount : Nat)
| releaseBuffer (frameCount : Nat)
| hook (call : HookCall)
| resample (main : Nat) (numFrames : Nat) (aux : Option Nat)
deriving DecidableEq

/- `AudioBufferProvider::Buffer`. -/
structure Buffer where
  raw : Option Nat
  frameCount : Nat

/-
  A track. Its provider offers buffers of these sizes and then runs dry; it has served the frames
  before `served`.
-/
structure Track where
  mainBuffer : Nat
  needsAux : Bool
  needsResample : Bool
  offers : List ℕ+
  served : Nat
  buffer : Buffer
  frameCount : Nat
  inp : Option Nat
  log : List Event

namespace Track

/- A buffer has at least one frame and no more than are asked for, or there is none. -/
def getNextBuffer (t : Track) (frameCount : Nat) : Track :=
  match t.offers with
  | [] => { t with buffer := ⟨none, 0⟩ }
  | offer :: offers =>
    if 0 < frameCount then
      { t with
        offers := offers
        buffer := ⟨some t.served, min offer frameCount⟩
        log := t.log ++ [.getNextBuffer (min offer frameCount)] }
    else { t with buffer := ⟨none, 0⟩ }

def releaseBuffer (t : Track) : Track :=
  { t with
    served := t.served + t.buffer.frameCount
    buffer := { t.buffer with frameCount := 0 }
    log := t.log ++ [.releaseBuffer t.buffer.frameCount] }

def hook (t : Track) (call : HookCall) : Track :=
  { t with
    inp := some (call.source + call.frameCount)
    log := t.log ++ [.hook call] }

theorem getNextBuffer_offers {t : Track} {frameCount source : Nat}
    (hSome : (t.getNextBuffer frameCount).buffer.raw = some source) :
    (t.getNextBuffer frameCount).offers.length < t.offers.length := by
  unfold getNextBuffer at hSome ⊢
  cases hOffers : t.offers with
  | nil =>
    rw [hOffers] at hSome
    cases hSome
  | cons offer offers =>
    rw [hOffers] at hSome
    simp only at hSome ⊢
    split at hSome
    · rename_i hPos
      rw [if_pos hPos]
      exact Nat.lt_succ_self _
    · cases hSome

--
-- Loops
--

/- The `frameCount` of a track is a `uint16_t`. -/
def narrow (frameCount : Nat) : Nat := frameCount % 2 ^ 16

/- Call the hook for some frames of the current buffer. -/
def handFrames (t : Track) (call : HookCall) : Track :=
  if 0 < call.frameCount then
    { t.hook call with
      frameCount := t.frameCount - call.frameCount }
  else t

@[simp] theorem handFrames_offers (t : Track) (call : HookCall) :
    (t.handFrames call).offers = t.offers := by
  unfold handFrames
  split <;> rfl

@[simp] theorem handFrames_frameCount (t : Track) (call : HookCall) :
    (t.handFrames call).frameCount = t.frameCount - call.frameCount := by
  unfold handFrames
  split
  · rfl
  · omega

/-
  The frames of one block, from frame `numFrames` on, of which `outFrames` are left; no more when
  the provider is dry.
-/
def mixBlock (main frameCount numFrames : Nat) (t : Track) (outFrames : Nat)
    (aux : Option Nat) : Track × Bool :=
  if _hDone : outFrames = 0 then (t, true)
  else
    match t.inp with
    | none => (t, false)
    | some source =>
      let inFrames := min t.frameCount outFrames
      let mixed := t.handFrames ⟨source, main, numFrames, BLOCKSIZE - outFrames, inFrames, aux⟩
      let left := outFrames - inFrames
      let aux := aux.map (fun aux => aux + inFrames)
      if _hNext : mixed.frameCount = 0 ∧ left ≠ 0 then
        let next :=
          mixed.releaseBuffer.getNextBuffer ((frameCount - numFrames) - (BLOCKSIZE - left))
        match _hRaw : next.buffer.raw with
        | none => ({ next with inp := none }, false)
        | some source =>
          mixBlock main frameCount numFrames
            { next with
              inp := some source
              frameCount := narrow next.buffer.frameCount }
            left aux
      else mixBlock main frameCount numFrames mixed left aux
termination_by t.offers.length + outFrames
decreasing_by
  · have hOffers : mixed.releaseBuffer.offers.length = t.offers.length :=
      congrArg List.length (t.handFrames_offers _)
    have hFewer :
        next.offers.length < mixed.releaseBuffer.offers.length :=
      getNextBuffer_offers _hRaw
    have hLess : next.offers.length + left < t.offers.length + outFrames := by
      omega
    exact hLess
  · have hOffers : mixed.offers = t.offers := t.handFrames_offers _
    have hCount : mixed.frameCount = t.frameCount - inFrames := t.handFrames_frameCount _
    rw [hOffers]
    have hLess : left < outFrames := by
      by_contra hSame
      refine _hNext ⟨?_, ?_⟩
      · simp only [left, inFrames] at hSame hCount ⊢
        omega
      · simp only [left, inFrames] at hSame ⊢
        omega
    omega

/- The frames of a period, of which `outFrames` are there; no more when the provider is dry. -/
def mixPeriod (main numFrames : Nat) (t : Track) (outFrames : Nat) (aux : Option Nat) : Track :=
  if outFrames < numFrames then
    let next := t.getNextBuffer (numFrames - outFrames)
    match _hRaw : next.buffer.raw with
    | none => { next with inp := none }
    | some source =>
      let aux := aux.map (fun aux => aux + outFrames)
      let count := next.buffer.frameCount
      mixPeriod main numFrames
        ({ next with inp := some source }.hook
          ⟨source, main, 0, outFrames, count, aux⟩
        ).releaseBuffer (outFrames + count) aux
  else t
termination_by t.offers.length
decreasing_by exact getNextBuffer_offers _hRaw

/- The sizes of the buffers of a period: as many as are offered while frames are left. -/
def pieces : Nat → List ℕ+ → List Nat
| _, [] => []
| frameCount, offer :: offers =>
  if 0 < frameCount then
    min (offer : Nat) frameCount :: pieces (frameCount - min (offer : Nat) frameCount) offers
  else []

end Track

end AudioMixer

end FrameworksAv
