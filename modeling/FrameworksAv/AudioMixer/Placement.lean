import FrameworksAv.AudioMixer.Process

/-
  Where the frames of a track go.

  Frame `j` of a track belongs at frame `j` of its main buffer and, with an aux send, at frame `j`
  of its aux buffer.

  Main declarations:
    * `frames`, `ReleasedOnce`
    * `Track.frame`, `Track.Placed`
    * `Track.getNextBuffer_cases`
    * `Track.mixPeriod_log`, `Track.placed_resampling_iff`
-/

--
-- Log
--

namespace FrameworksAv

namespace AudioMixer

/-
  A frame that a hook was given: its position in the track, in the main buffer and in the aux
  buffer.
-/
structure Frame where
  source : Nat
  main : Nat
  out : Nat
  aux : Option Nat
deriving DecidableEq

def HookCall.frames (call : HookCall) : List Frame :=
  (List.range call.frameCount).map (fun k =>
    ⟨call.source + k, call.main, call.block + call.out + k, call.aux.map (fun aux => aux + k)⟩)

def Event.frames : Event → List Frame
| .hook call => call.frames
| _ => []

def frames (log : List Event) : List Frame :=
  log.flatMap Event.frames

inductive Transfer where
| acquired (frameCount : Nat)
| released (frameCount : Nat)
deriving DecidableEq

def Event.transfer : Event → Option Transfer
| .getNextBuffer n => some (.acquired n)
| .releaseBuffer n => some (.released n)
| _ => none

def Event.acquired : Event → Option Nat
| .getNextBuffer n => some n
| _ => none

/- Buffers that are acquired and released in turn. -/
def inTurn (ns : List Nat) : List Transfer :=
  ns.flatMap (fun n => [.acquired n, .released n])

/- Each buffer that was acquired was then released, all of it and once, and no other. -/
def ReleasedOnce (log : List Event) : Prop :=
  log.filterMap Event.transfer = inTurn (log.filterMap Event.acquired)

instance (log : List Event) : Decidable (ReleasedOnce log) :=
  inferInstanceAs (Decidable (log.filterMap Event.transfer = inTurn (log.filterMap Event.acquired)))

/- A buffer of this size has not been released yet. -/
def Holding (log : List Event) (n : Nat) : Prop :=
  ∃ ns,
    log.filterMap Event.acquired = ns ++ [n] ∧
      log.filterMap Event.transfer = inTurn ns ++ [.acquired n]

@[simp] theorem frames_append (log log' : List Event) :
    frames (log ++ log') = frames log ++ frames log' :=
  List.flatMap_append

theorem ReleasedOnce.getNextBuffer {log : List Event} (h : ReleasedOnce log) (n : Nat) :
    Holding (log ++ [.getNextBuffer n]) n := by
  refine ⟨log.filterMap Event.acquired, ?_, ?_⟩
  · rw [List.filterMap_append]
    rfl
  · rw [List.filterMap_append, h]
    rfl

theorem Holding.releaseBuffer {log : List Event} {n : Nat} (h : Holding log n) :
    ReleasedOnce (log ++ [.releaseBuffer n]) := by
  rcases h with ⟨ns, hAcquired, hTransfer⟩
  unfold ReleasedOnce
  rw [List.filterMap_append, List.filterMap_append, hAcquired, hTransfer]
  simp [inTurn, Event.transfer, Event.acquired]

/- A call whose frames each go where they belong. -/
theorem HookCall.frames_eq {call : HookCall} {f : Nat → Frame}
    (hEach :
      ∀ k,
        ⟨call.source + k, call.main, call.block + call.out + k, call.aux.map (fun aux => aux + k)⟩ =
          f (call.source + k)) :
    call.frames = (List.range' call.source call.frameCount).map f := by
  unfold HookCall.frames
  rw [List.range'_eq_map_range, List.map_map]
  exact List.map_congr_left (fun k _ => hEach k)

theorem Holding.hook {log : List Event} {n : Nat} (h : Holding log n) (call : HookCall) :
    Holding (log ++ [.hook call]) n := by
  rcases h with ⟨ns, hAcquired, hTransfer⟩
  refine ⟨ns, ?_, ?_⟩
  · rw [List.filterMap_append, hAcquired]
    exact List.append_nil _
  · rw [List.filterMap_append, hTransfer]
    exact List.append_nil _

--
-- Buffers
--

namespace Track

/- Where a frame of a track belongs. -/
def frame (t : Track) (j : Nat) : Frame :=
  ⟨j, t.mainBuffer, j, t.aux j⟩

/-
  All frames that the provider has for the period were handed over, in order, each where it belongs.
-/
def Placed (frameCount : Nat) (t : Track) (log : List Event) : Prop :=
  frames log = (List.range (min frameCount (t.offers.map PNat.val).sum)).map t.frame

/- The next buffer, if there is one. -/
theorem getNextBuffer_cases (t : Track) (frameCount : Nat) :
    (t.getNextBuffer frameCount = { t with buffer := ⟨none, 0⟩ } ∧
      pieces frameCount t.offers = []) ∨
    (∃ n offer offers, t.offers = offer :: offers ∧ 0 < n ∧ n ≤ frameCount ∧
      t.getNextBuffer frameCount =
        { t with
          offers := offers
          buffer := ⟨some t.served, n⟩
          log := t.log ++ [.getNextBuffer n] } ∧
      pieces frameCount t.offers = n :: pieces (frameCount - n) offers) := by
  unfold getNextBuffer
  cases t.offers with
  | nil => exact Or.inl ⟨rfl, rfl⟩
  | cons offer offers =>
    simp only
    by_cases hPos : 0 < frameCount
    · refine Or.inr ⟨min offer frameCount, offer, offers, rfl, ?_⟩
      rw [if_pos hPos]
      refine ⟨?_, Nat.min_le_right _ _, rfl, ?_⟩
      · exact Nat.lt_min.mpr ⟨offer.pos, hPos⟩
      · exact if_pos hPos
    · exact Or.inl ⟨if_neg hPos, if_neg hPos⟩

@[simp] theorem pieces_zero (offers : List ℕ+) : pieces 0 offers = [] := by
  cases offers with
  | nil => rfl
  | cons offer offers => exact if_neg (Nat.lt_irrefl 0)

/- The buffers of a period are not empty. -/
theorem pieces_pos (frameCount : Nat) (offers : List ℕ+) :
    ∀ n ∈ pieces frameCount offers, 0 < n := by
  induction offers generalizing frameCount with
  | nil =>
    intro n hIn
    cases hIn
  | cons offer offers ih =>
    unfold pieces
    split
    · rename_i hPos
      intro n hIn
      rcases List.mem_cons.mp hIn with hEq | hIn
      · rw [hEq]
        exact Nat.lt_min.mpr ⟨offer.pos, hPos⟩
      · exact ih _ n hIn
    · intro n hIn
      cases hIn

/- All that is offered, but no more than the period has. -/
theorem pieces_sum (frameCount : Nat) (offers : List ℕ+) :
    (pieces frameCount offers).sum = min frameCount (offers.map PNat.val).sum := by
  induction offers generalizing frameCount with
  | nil => simp [pieces]
  | cons offer offers ih =>
    unfold pieces
    rw [List.map_cons, List.sum_cons]
    split
    · rw [List.sum_cons, ih]
      omega
    · simp only [List.sum_nil]
      omega

--
-- Period
--

/- The frames of a period that is mixed track by track. -/
def sends (main : Nat) : Nat → Option Nat → List Nat → List Frame
| _, _, [] => []
| out, aux, n :: ns =>
  HookCall.frames ⟨out, main, 0, out, n, aux.map (fun aux => aux + out)⟩ ++
    sends main (out + n) (aux.map (fun aux => aux + out)) ns

theorem mixPeriod_dry {main numFrames : Nat} {t : Track} {outFrames : Nat} {aux : Option Nat}
    (hDry : t.getNextBuffer (numFrames - outFrames) = { t with buffer := ⟨none, 0⟩ }) :
    (t.mixPeriod main numFrames outFrames aux).log = t.log := by
  unfold mixPeriod
  split
  · simp only
    split
    · rw [hDry]
    · rename_i hSome
      rw [hDry] at hSome
      cases hSome
  · rfl

/- One buffer of a period. -/
theorem mixPeriod_next {main numFrames : Nat} {t : Track} {outFrames : Nat} {aux : Option Nat}
    {n : Nat} {offers : List ℕ+} (hMore : outFrames < numFrames)
    (hNext :
      t.getNextBuffer (numFrames - outFrames) =
        { t with
          offers := offers
          buffer := ⟨some t.served, n⟩
          log := t.log ++ [.getNextBuffer n] }) :
    t.mixPeriod main numFrames outFrames aux =
      mixPeriod main numFrames
        { t with
          offers := offers
          served := t.served + n
          buffer := ⟨some t.served, 0⟩
          inp := some (t.served + n)
          log :=
            t.log ++
              [.getNextBuffer n,
                .hook ⟨t.served, main, 0, outFrames, n, aux.map (fun aux => aux + outFrames)⟩,
                .releaseBuffer n] }
        (outFrames + n) (aux.map (fun aux => aux + outFrames)) := by
  rw [mixPeriod, if_pos hMore]
  simp only
  split
  · rename_i hNone
    rw [hNext] at hNone
    cases hNone
  · rename_i source hSome
    rw [hNext] at hSome ⊢
    cases hSome
    simp [hook, releaseBuffer]

/- The log of a period, with the buffers that are used. -/
theorem mixPeriod_log (main numFrames : Nat) (t : Track) (outFrames : Nat) (aux : Option Nat)
    (hServed : t.served = outFrames) :
    (ReleasedOnce t.log → ReleasedOnce (t.mixPeriod main numFrames outFrames aux).log) ∧
      frames (t.mixPeriod main numFrames outFrames aux).log =
        frames t.log ++ sends main outFrames aux (pieces (numFrames - outFrames) t.offers) := by
  induction hOffers : t.offers generalizing t outFrames aux with
  | nil =>
    rcases t.getNextBuffer_cases (numFrames - outFrames) with
      ⟨hNext, -⟩ | ⟨n, offer, offers, hCons, -⟩
    · rw [mixPeriod_dry hNext]
      exact ⟨fun h => h, (List.append_nil _).symm⟩
    · rw [hOffers] at hCons
      cases hCons
  | cons offer offers ih =>
    rcases t.getNextBuffer_cases (numFrames - outFrames) with
      ⟨hNext, hPieces⟩ | ⟨n, offer', offers', hCons, hPos, hLe, hNext, hPieces⟩
    · rw [mixPeriod_dry hNext, ← hOffers, hPieces]
      exact ⟨fun h => h, (List.append_nil _).symm⟩
    · rw [← hOffers, hPieces]
      rw [hOffers] at hCons
      cases hCons
      rw [mixPeriod_next (by omega) hNext]
      have hRest :=
        ih
          { t with
            offers := offers
            served := t.served + n
            buffer := ⟨some t.served, 0⟩
            inp := some (t.served + n)
            log :=
              t.log ++
                [.getNextBuffer n,
                  .hook ⟨t.served, main, 0, outFrames, n, aux.map (fun aux => aux + outFrames)⟩,
                  .releaseBuffer n] }
          (outFrames + n) (aux.map (fun aux => aux + outFrames)) (by simp only; omega) rfl
      constructor
      · intro hBefore
        apply hRest.1
        have hHeld :=
          (hBefore.getNextBuffer n).hook
            ⟨t.served, main, 0, outFrames, n, aux.map (fun aux => aux + outFrames)⟩
        have hAfter := hHeld.releaseBuffer
        simpa only [List.append_assoc, List.cons_append, List.nil_append] using hAfter
      · rw [hRest.2, frames_append, List.append_assoc, Nat.sub_sub]
        rw [sends, hServed]
        simp [frames, Event.frames]

/- Without an aux send each frame goes where it belongs. -/
theorem sends_none (main out : Nat) (ns : List Nat) :
    sends main out none ns = (List.range' out ns.sum).map (fun j => ⟨j, main, j, none⟩) := by
  induction ns generalizing out with
  | nil => rfl
  | cons n ns ih =>
    rw [sends, Option.map_none, ih, List.sum_cons, ← List.range'_append_1, List.map_append]
    congr 1
    apply HookCall.frames_eq
    intro k
    simp

/- The aux send is right for up to two buffers. -/
theorem sends_some (main : Nat) {ns : List Nat} (hTwo : ns.length ≤ 2) :
    sends main 0 (some 0) ns = (List.range' 0 ns.sum).map (fun j => ⟨j, main, j, some j⟩) := by
  have hOne :
      ∀ p n,
        HookCall.frames ⟨p, main, 0, p, n, some p⟩ =
          (List.range' p n).map (fun j => ⟨j, main, j, some j⟩) := by
    intro p n
    apply HookCall.frames_eq
    intro k
    simp
  rcases ns with _ | ⟨n, _ | ⟨m, _ | ⟨l, ns⟩⟩⟩
  · rfl
  · simp [sends, hOne]
  · simp [sends, hOne, ← List.range'_append_1]
  · simp only [List.length_cons] at hTwo
    omega

/- From the third buffer on, it is too far on. -/
theorem exists_sends_aux (main : Nat) {ns : List Nat} (hPos : ∀ n ∈ ns, 0 < n)
    (hMany : ¬ ns.length ≤ 2) : ∃ f ∈ sends main 0 (some 0) ns, f.aux ≠ some f.out := by
  rcases ns with _ | ⟨n, _ | ⟨m, _ | ⟨l, ns⟩⟩⟩
  · exact absurd (Nat.zero_le 2) hMany
  · exact absurd (by decide : 1 ≤ 2) hMany
  · exact absurd (Nat.le_refl 2) hMany
  · have hN := hPos n (by simp)
    have hL := hPos l (by simp)
    refine ⟨⟨n + m, main, n + m, some (n + (n + m))⟩, ?_, ?_⟩
    · simp only [sends, List.mem_append, HookCall.frames]
      right
      right
      left
      refine List.mem_map.mpr ⟨0, List.mem_range.mpr hL, ?_⟩
      simp
    · simp
      omega

/-
  The frames of a period mixed track by track are placed exactly when there is no aux send or there
  are at most two buffers.
-/
theorem placed_resampling_iff {t : Track} {frameCount : Nat} (hResample : t.needsResample = false)
    (hServed : t.served = 0) (hLog : t.log = []) :
    t.Placed frameCount (t.resampling frameCount).log ↔
      (t.needsAux = true → (pieces frameCount t.offers).length ≤ 2) := by
  have hFrames := (mixPeriod_log t.mainBuffer frameCount t 0 (t.aux 0) hServed).2
  unfold Placed resampling mix
  rw [if_neg (by rw [hResample]; nofun), hFrames, hLog,
    ← pieces_sum, List.range_eq_range', Nat.sub_zero]
  have hEmpty : frames [] = [] := rfl
  rw [hEmpty, List.nil_append]
  cases hAux : t.needsAux with
  | false =>
    have hFrame : t.frame = fun j => ⟨j, t.mainBuffer, j, none⟩ := by
      funext j
      simp [frame, aux, hAux]
    have hNone : t.aux 0 = none := by simp [aux, hAux]
    rw [hFrame, hNone, sends_none]
    exact ⟨fun _ => nofun, fun _ => rfl⟩
  | true =>
    have hFrame : t.frame = fun j => ⟨j, t.mainBuffer, j, some j⟩ := by
      funext j
      simp [frame, aux, hAux]
    have hSome : t.aux 0 = some 0 := by simp [aux, hAux]
    rw [hFrame, hSome]
    constructor
    · intro hSame _
      by_contra hMany
      rcases exists_sends_aux t.mainBuffer (pieces_pos frameCount t.offers) hMany with ⟨f, hIn, hNe⟩
      rw [hSame] at hIn
      rcases List.mem_map.mp hIn with ⟨j, -, hEq⟩
      rw [← hEq] at hNe
      exact hNe rfl
    · intro hTwo
      exact sends_some t.mainBuffer (hTwo rfl)

/- Each buffer is released once. -/
theorem released_resampling {t : Track} {frameCount : Nat} (hResample : t.needsResample = false)
    (hServed : t.served = 0) (hLog : t.log = []) : ReleasedOnce (t.resampling frameCount).log := by
  unfold resampling mix
  rw [if_neg (by rw [hResample]; nofun)]
  apply (mixPeriod_log t.mainBuffer frameCount t 0 (t.aux 0) hServed).1
  rw [hLog]
  rfl

end Track

end AudioMixer

end FrameworksAv
