import FrameworksAv.AudioMixer.Placement

/-
  A period that is mixed block by block.

  The two ways to mix a period agree as long as no buffer is larger than a `uint16_t` and no track
  with an aux send gets more than two buffers.

  Main declarations:
    * `Track.Playing`, `Track.Skipping`
    * `Track.placed_noResampling_iff`
    * `Mixer.Plain`, `Mixer.MixesAlike`
    * `Mixer.mixesAlike_iff`
-/

--
-- Blocks
--

namespace FrameworksAv

namespace AudioMixer

namespace Track

/- The track with a new buffer. -/
def refill (t : Track) (offers : List ℕ+) (n : Nat) : Track :=
  { t with
    offers := offers
    buffer := ⟨some t.served, n⟩
    frameCount := narrow n
    inp := some t.served
    log := t.log ++ [.getNextBuffer n] }

/- The first buffer, if there is one. -/
theorem acquire_cases (t : Track) (frameCount : Nat) :
    ((t.acquire frameCount).inp = none ∧ (t.acquire frameCount).log = t.log ∧
      pieces frameCount t.offers = []) ∨
    (∃ n offers, 0 < n ∧ n ≤ frameCount ∧ t.acquire frameCount = t.refill offers n ∧
      pieces frameCount t.offers = n :: pieces (frameCount - n) offers) := by
  unfold acquire
  rcases t.getNextBuffer_cases frameCount with
    ⟨hNext, hPieces⟩ | ⟨n, offer, offers, -, hPos, hLe, hNext, hPieces⟩
  · left
    rw [hNext]
    exact ⟨rfl, rfl, hPieces⟩
  · right
    rw [hNext]
    exact ⟨n, offers, hPos, hLe, rfl, hPieces⟩

variable {main frameCount numFrames : Nat} {t : Track} {outFrames : Nat} {aux : Option Nat}
variable {source : Nat}

/- A dry track leaves the mix. -/
theorem mixBlock_none (hMore : outFrames ≠ 0) (hNone : t.inp = none) :
    t.mixBlock main frameCount numFrames outFrames aux = (t, false) := by
  rw [mixBlock, dif_neg hMore]
  split
  · rfl
  · rename_i hSome
    rw [hNone] at hSome
    cases hSome

/- The buffer has enough frames for the block. -/
theorem mixBlock_full (hSource : t.inp = some source) (hFull : outFrames ≤ t.frameCount) :
    t.mixBlock main frameCount numFrames outFrames aux =
      (t.handFrames ⟨source, main, numFrames, BLOCKSIZE - outFrames, outFrames, aux⟩, true) := by
  by_cases hDone : outFrames = 0
  · rw [mixBlock, dif_pos hDone, hDone]
    rfl
  · rw [mixBlock, dif_neg hDone]
    split
    · rename_i hNone
      rw [hSource] at hNone
      cases hNone
    · rename_i source' hSome
      rw [hSource] at hSome
      cases hSome
      simp only [Nat.min_eq_right hFull, Nat.sub_self]
      rw [dif_neg (by simp), mixBlock, dif_pos rfl]

/- The provider runs dry within the block. -/
theorem mixBlock_dry (hSource : t.inp = some source) (hShort : t.frameCount < outFrames)
    {released : Track}
    (hReleased :
      (t.handFrames
        ⟨source, main, numFrames, BLOCKSIZE - outFrames,
          t.frameCount, aux⟩).releaseBuffer = released)
    (hDry :
      released.getNextBuffer ((frameCount - numFrames) - (BLOCKSIZE - (outFrames - t.frameCount))) =
        { released with buffer := ⟨none, 0⟩ }) :
    ∃ dry,
      t.mixBlock main frameCount numFrames outFrames aux =
        (dry, false) ∧ dry.log = released.log := by
  rw [mixBlock, dif_neg (by omega)]
  split
  · rename_i hNone
    rw [hSource] at hNone
    cases hNone
  · rename_i source' hSome
    rw [hSource] at hSome
    cases hSome
    have hMin : min t.frameCount outFrames = t.frameCount := Nat.min_eq_left (Nat.le_of_lt hShort)
    simp only [hMin, handFrames_frameCount, Nat.sub_self, hReleased]
    rw [dif_pos ⟨trivial, by omega⟩]
    split
    · refine ⟨_, rfl, ?_⟩
      rw [hDry]
    · rename_i hSome
      rw [hMin, hReleased, hDry] at hSome
      cases hSome

/- The block goes on with the next buffer. -/
theorem mixBlock_next (hSource : t.inp = some source) (hShort : t.frameCount < outFrames)
    {released : Track}
    (hReleased :
      (t.handFrames
        ⟨source, main, numFrames, BLOCKSIZE - outFrames,
          t.frameCount, aux⟩).releaseBuffer = released)
    {n : Nat} {offers : List ℕ+}
    (hNext :
      released.getNextBuffer ((frameCount - numFrames) - (BLOCKSIZE - (outFrames - t.frameCount))) =
        { released with
          offers := offers
          buffer := ⟨some released.served, n⟩
          log := released.log ++ [.getNextBuffer n] }) :
    t.mixBlock main frameCount numFrames outFrames aux =
      (released.refill offers n).mixBlock main frameCount numFrames (outFrames - t.frameCount)
        (aux.map (fun aux => aux + t.frameCount)) := by
  rw [mixBlock, dif_neg (by omega)]
  split
  · rename_i hNone
    rw [hSource] at hNone
    cases hNone
  · rename_i source' hSome
    rw [hSource] at hSome
    cases hSome
    have hMin : min t.frameCount outFrames = t.frameCount := Nat.min_eq_left (Nat.le_of_lt hShort)
    simp only [hMin, handFrames_frameCount, Nat.sub_self, hReleased]
    rw [dif_pos ⟨trivial, by omega⟩]
    split
    · rename_i hNone
      rw [hMin, hReleased, hNext] at hNone
      cases hNone
    · rename_i source'' hSome
      rw [hMin, hReleased, hNext] at hSome
      cases hSome
      simp only [hNext]
      rfl

/-
  The rule of a block: `P` holds before each turn, with the frames that are left and the aux
  position, and `Q` holds of the track in the end, and of whether it stays in the mix.
-/
theorem mixBlock_rule {P : Nat → Option Nat → Track → Prop} {Q : Track → Bool → Prop}
    (hSome : ∀ left aux t, P left aux t → t.inp ≠ none)
    (hFull :
      ∀ left aux t source,
        P left aux t → t.inp = some source →
          left ≤ t.frameCount →
            Q
              (t.handFrames
                ⟨source, main, numFrames, BLOCKSIZE - left,
                  left, aux⟩)
              true)
    (hDry :
      ∀ left aux t source dry,
        P left aux t → t.inp = some source →
          t.frameCount < left →
            pieces ((frameCount - numFrames) - (BLOCKSIZE - (left - t.frameCount))) t.offers = [] →
              dry.log =
                  (t.handFrames
                    ⟨source, main, numFrames, BLOCKSIZE - left,
                      t.frameCount, aux⟩).releaseBuffer.log →
                Q dry false)
    (hNext :
      ∀ left aux t source n offers,
        P left aux t → t.inp = some source →
          t.frameCount < left → 0 < n →
            n ≤ (frameCount - numFrames) - (BLOCKSIZE - (left - t.frameCount)) →
              pieces ((frameCount - numFrames) - (BLOCKSIZE - (left - t.frameCount))) t.offers =
                n :: pieces ((frameCount - numFrames) - (BLOCKSIZE - (left - t.frameCount)) - n)
                  offers →
                P (left - t.frameCount) (aux.map (fun aux => aux + t.frameCount))
                  (((t.handFrames
                    ⟨source, main, numFrames, BLOCKSIZE - left, t.frameCount, aux⟩).releaseBuffer
                    ).refill offers n))
    (hStart : P outFrames aux t) :
    Q (t.mixBlock main frameCount numFrames outFrames aux).1
      (t.mixBlock main frameCount numFrames outFrames aux).2 := by
  induction hLength : t.offers.length using
    Nat.strong_induction_on generalizing t outFrames aux with
  | _ length ih =>
    rcases Option.ne_none_iff_exists'.mp (hSome _ _ _ hStart) with ⟨source, hSource⟩
    by_cases hEnough : outFrames ≤ t.frameCount
    · rw [mixBlock_full hSource hEnough]
      exact hFull _ _ _ _ hStart hSource hEnough
    · have hShort := Nat.lt_of_not_le hEnough
      generalize hReleased :
        (t.handFrames
          ⟨source, main, numFrames, BLOCKSIZE - outFrames,
            t.frameCount, aux⟩).releaseBuffer = released
      have hSame : released.offers = t.offers := by
        rw [← hReleased]
        exact t.handFrames_offers _
      rcases released.getNextBuffer_cases
          ((frameCount - numFrames) - (BLOCKSIZE - (outFrames - t.frameCount))) with
        ⟨hNone, hPieces⟩ | ⟨n, offer, offers, hCons, hPos, hLe, hGet, hPieces⟩
      · rcases mixBlock_dry hSource hShort hReleased hNone with ⟨dry, hBlock, hLog⟩
        rw [hSame] at hPieces
        rw [← hReleased] at hLog
        rw [hBlock]
        exact hDry _ _ _ _ _ hStart hSource hShort hPieces hLog
      · rw [mixBlock_next hSource hShort hReleased hGet]
        rw [hSame] at hCons hPieces
        have hMore := hNext _ _ _ _ _ _ hStart hSource hShort hPos hLe hPieces
        rw [hReleased] at hMore
        have hFewer : offers.length < length := by
          rw [← hLength, hCons]
          exact Nat.lt_succ_self _
        exact ih _ hFewer hMore rfl

end Track

--
-- Held Buffers
--

namespace Track

/- The track has its buffer, which is still to be released. -/
def Held (t : Track) : Prop :=
  t.inp ≠ none ∧ Holding t.log t.buffer.frameCount

theorem Held.handFrames {t : Track} (h : t.Held) (call : HookCall) : (t.handFrames call).Held := by
  unfold Track.handFrames
  split
  · exact ⟨Option.some_ne_none _, h.2.hook call⟩
  · exact h

theorem refill_held {t : Track} (h : ReleasedOnce t.log) (offers : List ℕ+) (n : Nat) :
    (t.refill offers n).Held :=
  ⟨Option.some_ne_none _, h.getNextBuffer n⟩

/- A block leaves the buffer held, or all are released. -/
theorem mixBlock_held {main frameCount numFrames : Nat} {t : Track} (outFrames : Nat)
    (aux : Option Nat) (hHeld : t.Held) : if (t.mixBlock main frameCount numFrames outFrames aux).2
    then (t.mixBlock main frameCount numFrames outFrames aux).1.Held
    else ReleasedOnce (t.mixBlock main frameCount numFrames outFrames aux ).1.log := by
  refine
    mixBlock_rule (P := fun _ _ t => t.Held)
      (Q := fun t live =>
        if live then t.Held else ReleasedOnce t.log)
      ?_ ?_ ?_ ?_ hHeld
  · exact fun _ _ _ h => h.1
  · intro left aux t source h _ _
    exact h.handFrames _
  · intro left aux t source dry h _ _ _ hLog
    simp only [Bool.false_eq_true, if_false]
    rw [hLog]
    exact (h.handFrames _).2.releaseBuffer
  · intro left aux t source n offers h _ _ _ _ _
    exact refill_held (h.handFrames _).2.releaseBuffer offers n

--
-- Progress
--

/- Sizes that a `uint16_t` holds. -/
def Small (ns : List Nat) : Prop :=
  ∀ n ∈ ns, n < 2 ^ 16

instance (ns : List Nat) : Decidable (Small ns) :=
  inferInstanceAs (Decidable (∀ n ∈ ns, n < 2 ^ 16))

/- So far every frame of the track has been placed, and the next one is frame `done`. -/
structure Playing (t₀ : Track) (frameCount done : Nat) (t : Track) : Prop where
  source : t.inp = some done
  sends : t.needsAux = t₀.needsAux
  frames : AudioMixer.frames t.log = (List.range done).map t₀.frame
  count : done + t.frameCount = t.served + t.buffer.frameCount
  bound : t.served + t.buffer.frameCount ≤ frameCount
  total :
    t.served + t.buffer.frameCount +
        (pieces (frameCount - (t.served + t.buffer.frameCount)) t.offers).sum =
      (pieces frameCount t₀.offers).sum
  small :
    Small (pieces frameCount t₀.offers) ↔
      Small (pieces (frameCount - (t.served + t.buffer.frameCount)) t.offers)

/- A frame has been left out. -/
structure Skips (x : Nat) (t : Track) : Prop where
  source : t.inp ≠ none
  frames : ∀ f ∈ AudioMixer.frames t.log, f.source ≠ x
  served : x < t.served + t.buffer.frameCount
  next : ∀ source, t.inp = some source → source + t.frameCount ≤ x ∨ x < source

/- A frame of the period has been left out. -/
def Skipping (t₀ : Track) (frameCount : Nat) (t : Track) : Prop :=
  ¬ Small (pieces frameCount t₀.offers) ∧ t.needsAux = t₀.needsAux ∧
    ∃ x, x < (pieces frameCount t₀.offers).sum ∧ t.Skips x

def Progress (t₀ : Track) (frameCount done : Nat) (t : Track) : Prop :=
  t₀.Playing frameCount done t ∨ t₀.Skipping frameCount t

/- The log is right exactly when all buffers are small. -/
def Outcome (t₀ : Track) (frameCount : Nat) (log : List Event) : Prop :=
  t₀.Placed frameCount log ↔ Small (pieces frameCount t₀.offers)

variable {t₀ t : Track} {frameCount done : Nat}

theorem handFrames_log (t : Track) {call : HookCall} (hPos : 0 < call.frameCount) :
    t.handFrames call =
      { t with
        frameCount := t.frameCount - call.frameCount
        inp := some (call.source + call.frameCount)
        log := t.log ++ [.hook call] } :=
  if_pos hPos

theorem handFrames_zero (t : Track) {call : HookCall} (hZero : call.frameCount = 0) :
    t.handFrames call = t := by
  unfold handFrames
  rw [hZero]
  rfl

/- The next frames are placed as well. -/
theorem Playing.handFrames (h : t₀.Playing frameCount done t) (call : HookCall)
    (hSource : call.source = done) (hMain : call.main = t₀.mainBuffer)
    (hOut : call.block + call.out = done) (hAux : call.aux = t₀.aux done)
    (hLe : call.frameCount ≤ t.frameCount) :
    t₀.Playing frameCount (done + call.frameCount) (t.handFrames call) := by
  by_cases hPos : 0 < call.frameCount
  · rw [handFrames_log t hPos]
    have hCall : call.frames = (List.range' done call.frameCount).map t₀.frame := by
      rw [← hSource]
      apply HookCall.frames_eq
      intro k
      rw [hOut, hMain, hAux, hSource]
      unfold frame aux
      split <;> rfl
    have hCount := h.count
    refine ⟨?_, h.sends, ?_, ?_, h.bound, h.total, h.small⟩
    · rw [hSource]
    · have hEvent : AudioMixer.frames [.hook call] = call.frames := List.append_nil _
      rw [frames_append, h.frames, hEvent, hCall, ← List.map_append, List.range_eq_range',
        List.range_eq_range', ← List.range'_append_1, Nat.zero_add]
    · simp only
      omega
  · have hZero : call.frameCount = 0 := by omega
    rw [handFrames_zero t hZero, hZero]
    exact h

/- A frame that was left out stays left out. -/
theorem Skips.handFrames {x : Nat} (h : t.Skips x) {call : HookCall}
    (hSource : t.inp = some call.source) (hLe : call.frameCount ≤ t.frameCount) :
    (t.handFrames call).Skips x := by
  by_cases hPos : 0 < call.frameCount
  · rw [handFrames_log t hPos]
    have hNext := h.next _ hSource
    refine ⟨Option.some_ne_none _, ?_, h.served, ?_⟩
    · intro f hIn
      rw [frames_append] at hIn
      rcases List.mem_append.mp hIn with hOld | hNew
      · exact h.frames f hOld
      · have hEvent : AudioMixer.frames [.hook call] = call.frames := List.append_nil _
        rw [hEvent] at hNew
        rcases List.mem_map.mp hNew with ⟨k, hk, hEq⟩
        rw [List.mem_range] at hk
        rw [← hEq]
        simp only
        omega
    · intro source hSome
      cases hSome
      simp only
      omega
  · rw [handFrames_zero t (by omega)]
    exact h

/- Nothing is placed in the place of a frame left out. -/
theorem not_placed_of_skips {x : Nat} {log : List Event}
    (hLess : x < (pieces frameCount t₀.offers).sum) (hSkips : ∀ f ∈ frames log, f.source ≠ x) :
    ¬ t₀.Placed frameCount log := by
  intro hPlaced
  unfold Placed at hPlaced
  rw [← pieces_sum] at hPlaced
  apply hSkips (t₀.frame x)
  · rw [hPlaced]
    exact List.mem_map.mpr ⟨x, List.mem_range.mpr hLess, rfl⟩
  · rfl

theorem frames_release (log : List Event) (n : Nat) :
    frames (log ++ [.releaseBuffer n]) = frames log := by
  rw [frames_append]
  exact List.append_nil _

theorem Skipping.outcome (h : t₀.Skipping frameCount t) :
    t₀.Outcome frameCount t.releaseBuffer.log := by
  rcases h with ⟨hLarge, -, x, hLess, hSkips⟩
  have hNot : ¬ t₀.Placed frameCount t.releaseBuffer.log := by
    apply not_placed_of_skips hLess
    rw [releaseBuffer, frames_release]
    exact hSkips.frames
  exact ⟨fun h => absurd h hNot, fun h => absurd h hLarge⟩

/- A track that has used its buffer and gets no other. -/
theorem Playing.outcome (h : t₀.Playing frameCount done t) (hUsed : t.frameCount = 0)
    (hDry : pieces (frameCount - done) t.offers = []) :
    t₀.Outcome frameCount t.releaseBuffer.log := by
  have hServed : t.served + t.buffer.frameCount = done := by
    have hCount := h.count
    omega
  have hTotal := h.total
  have hSmall := h.small
  rw [hServed, hDry] at hTotal hSmall
  have hAll : Small (pieces frameCount t₀.offers) :=
    hSmall.mpr (fun n hIn => absurd hIn List.not_mem_nil)
  refine ⟨fun _ => hAll, fun _ => ?_⟩
  unfold Placed
  rw [releaseBuffer, frames_release, h.frames, ← pieces_sum, ← hTotal]
  rfl

/- The next buffer of a track whose frames are placed. -/
theorem refill_progress (hSends : t.needsAux = t₀.needsAux)
    (hFrames : frames t.log = (List.range done).map t₀.frame) (hServed : t.served = done) {n : Nat}
    {offers : List ℕ+} (hLe : done + n ≤ frameCount)
    (hTotal :
      done + n + (pieces (frameCount - (done + n)) offers).sum = (pieces frameCount t₀.offers).sum)
    (hSmall :
      Small (pieces frameCount t₀.offers) ↔ Small (n :: pieces (frameCount - (done + n)) offers)) :
    t₀.Progress frameCount done (t.refill offers n) := by
  have hRefilled : frames (t.refill offers n).log = (List.range done).map t₀.frame := by
    simp only [refill, frames_append]
    rw [hFrames]
    exact List.append_nil _
  by_cases hNarrow : n < 2 ^ 16
  · left
    refine ⟨?_, hSends, hRefilled, ?_, ?_, ?_, ?_⟩
    · simp only [refill, hServed]
    · simp only [refill, hServed, narrow]
      rw [Nat.mod_eq_of_lt hNarrow]
    · simp only [refill, hServed]
      exact hLe
    · simp only [refill, hServed]
      exact hTotal
    · simp only [refill, hServed]
      rw [hSmall]
      exact List.forall_mem_cons.trans (and_iff_right hNarrow)
  · right
    have hMod : n % 2 ^ 16 < 2 ^ 16 := Nat.mod_lt _ (by decide)
    refine ⟨?_, hSends, done + n % 2 ^ 16, ?_, ?_, ?_, ?_, ?_⟩
    · rw [hSmall]
      intro hAll
      exact hNarrow (hAll n List.mem_cons_self)
    · omega
    · exact Option.some_ne_none _
    · intro f hIn
      rw [hRefilled] at hIn
      rcases List.mem_map.mp hIn with ⟨j, hj, hEq⟩
      rw [List.mem_range] at hj
      rw [← hEq]
      simp only [frame]
      omega
    · simp only [refill, hServed]
      omega
    · intro source hSome
      simp only [refill, hServed] at hSome
      cases hSome
      left
      exact Nat.le_refl _

/- A track that has used its buffer and gets another. -/
theorem Playing.refill (h : t₀.Playing frameCount done t) (hUsed : t.frameCount = 0) {n : Nat}
    {offers : List ℕ+} (hLe : n ≤ frameCount - done)
    (hPieces : pieces (frameCount - done) t.offers = n :: pieces (frameCount - done - n) offers) :
    t₀.Progress frameCount done (t.releaseBuffer.refill offers n) := by
  have hServed : t.served + t.buffer.frameCount = done := by
    have hCount := h.count
    omega
  have hTotal := h.total
  have hSmall := h.small
  have hBound := h.bound
  rw [hServed] at hTotal hSmall hBound
  rw [hPieces, Nat.sub_sub] at hTotal hSmall
  rw [List.sum_cons] at hTotal
  apply refill_progress
  · exact h.sends
  · rw [releaseBuffer, frames_release]
    exact h.frames
  · exact hServed
  · omega
  · omega
  · exact hSmall

theorem Skipping.refill (h : t₀.Skipping frameCount t) (offers : List ℕ+) (n : Nat) :
    t₀.Skipping frameCount (t.releaseBuffer.refill offers n) := by
  rcases h with ⟨hLarge, hSends, x, hLess, hSkips⟩
  refine ⟨hLarge, hSends, x, hLess, ?_, ?_, ?_, ?_⟩
  · exact Option.some_ne_none _
  · have hFrames : frames (t.releaseBuffer.refill offers n).log = frames t.log := by
      simp only [Track.refill, releaseBuffer, frames_append]
      exact (List.append_nil _).trans (List.append_nil _)
    rw [hFrames]
    exact hSkips.frames
  · have hServed := hSkips.served
    simp only [Track.refill, releaseBuffer]
    omega
  · intro source hSome
    have hServed := hSkips.served
    simp only [Track.refill, releaseBuffer] at hSome
    cases hSome
    exact Or.inr hServed

theorem Progress.source (h : t₀.Progress frameCount done t) : t.inp ≠ none := by
  rcases h with hPlaying | ⟨-, -, x, -, hSkips⟩
  · rw [hPlaying.source]
    exact Option.some_ne_none _
  · exact hSkips.source

theorem Progress.sends (h : t₀.Progress frameCount done t) : t.needsAux = t₀.needsAux := by
  rcases h with hPlaying | ⟨-, hSends, -⟩
  · exact hPlaying.sends
  · exact hSends

/- Frames of the current buffer are handed over. -/
theorem Progress.handFrames (h : t₀.Progress frameCount done t) {numFrames out source n : Nat}
    (hSource : t.inp = some source) (hOut : numFrames + out = done) (hLe : n ≤ t.frameCount) :
    t₀.Progress frameCount (done + n)
      (t.handFrames ⟨source, t₀.mainBuffer, numFrames, out, n, t₀.aux done⟩) := by
  rcases h with hPlaying | ⟨hLarge, hSends, x, hLess, hSkips⟩
  · left
    have hSame : source = done := by
      have hDone := hPlaying.source
      rw [hSource] at hDone
      exact Option.some.inj hDone
    exact
      hPlaying.handFrames ⟨source, t₀.mainBuffer, numFrames, out, n, t₀.aux done⟩
        hSame rfl hOut rfl hLe
  · right
    refine ⟨hLarge, ?_, x, hLess, ?_⟩
    · unfold Track.handFrames
      split
      · exact hSends
      · exact hSends
    · exact hSkips.handFrames hSource hLe

theorem map_aux (t : Track) (done n : Nat) :
    (t.aux done).map (fun aux => aux + n) = t.aux (done + n) := by
  unfold aux
  split <;> rfl

/- A block makes progress, or the track has its outcome. -/
theorem mixBlock_progress {numFrames : Nat} (hBlock : numFrames + BLOCKSIZE ≤ frameCount)
    (h : t₀.Progress frameCount numFrames t) :
    if (t.mixBlock t₀.mainBuffer frameCount numFrames BLOCKSIZE (t.aux numFrames)).2
    then
      t₀.Progress frameCount (numFrames + BLOCKSIZE)
        (t.mixBlock t₀.mainBuffer frameCount numFrames BLOCKSIZE (t.aux numFrames)).1
    else
      t₀.Outcome frameCount
        (t.mixBlock t₀.mainBuffer frameCount numFrames BLOCKSIZE (t.aux numFrames)).1.log := by
  refine
    mixBlock_rule
      (P := fun left aux t =>
        left ≤ BLOCKSIZE ∧ aux = t₀.aux (numFrames + (BLOCKSIZE - left)) ∧
          t₀.Progress frameCount (numFrames + (BLOCKSIZE - left)) t)
      (Q := fun t live =>
        if live then t₀.Progress frameCount (numFrames + BLOCKSIZE) t
        else t₀.Outcome frameCount t.log)
      ?_ ?_ ?_ ?_ ?_
  · exact fun _ _ _ h => h.2.2.source
  · rintro left aux t source ⟨hLeft, hAux, h⟩ hSource hFull
    have hNext := h.handFrames hSource rfl hFull
    rw [← hAux] at hNext
    have hDone : numFrames + (BLOCKSIZE - left) + left = numFrames + BLOCKSIZE := by
      omega
    rw [hDone] at hNext
    exact hNext
  · rintro left aux t source dry ⟨hLeft, hAux, h⟩ hSource hShort hPieces hLog
    have hNext := h.handFrames hSource rfl (Nat.le_refl _)
    rw [← hAux] at hNext
    simp only [Bool.false_eq_true, if_false]
    rw [hLog]
    rcases hNext with hPlaying | hSkipping
    · apply hPlaying.outcome
      · simp
      · rw [handFrames_offers]
        have hRequest :
            frameCount - (numFrames + (BLOCKSIZE - left) + t.frameCount) =
              (frameCount - numFrames) - (BLOCKSIZE - (left - t.frameCount)) := by
          omega
        rw [hRequest]
        exact hPieces
    · exact hSkipping.outcome
  · rintro left aux t source n offers ⟨hLeft, hAux, h⟩ hSource hShort hPos hLe hPieces
    have hNext := h.handFrames hSource rfl (Nat.le_refl _)
    rw [← hAux] at hNext
    have hDone :
        numFrames + (BLOCKSIZE - left) + t.frameCount =
          numFrames + (BLOCKSIZE - (left - t.frameCount)) := by
      omega
    have hRequest :
        frameCount - (numFrames + (BLOCKSIZE - (left - t.frameCount))) =
          (frameCount - numFrames) - (BLOCKSIZE - (left - t.frameCount)) := by
      omega
    refine ⟨by omega, ?_, ?_⟩
    · rw [hAux, map_aux, hDone]
    · rw [hDone] at hNext
      rcases hNext with hPlaying | hSkipping
      · apply hPlaying.refill
        · simp
        · rw [hRequest]
          exact hLe
        · rw [handFrames_offers, hRequest]
          exact hPieces
      · exact Or.inr (hSkipping.refill offers n)
  · refine ⟨Nat.le_refl _, ?_, ?_⟩
    · rw [Nat.sub_self, Nat.add_zero]
      unfold aux
      rw [h.sends]
    · rw [Nat.sub_self, Nat.add_zero]
      exact h

end Track

--
-- Period
--

/-
  What holds of a track before each block and, once it has left the mix, of the track that is left.
-/
theorem Seen.blocks_rule {main frameCount : Nat} {P : Nat → Track → Prop} {Q : Track → Prop}
    (hBlock :
      ∀ numFrames t,
        numFrames + BLOCKSIZE ≤ frameCount → P numFrames t →
          if (t.mixBlock main frameCount numFrames BLOCKSIZE (t.aux numFrames)).2
          then
            P (numFrames + BLOCKSIZE)
              (t.mixBlock main frameCount numFrames BLOCKSIZE (t.aux numFrames)).1
          else Q (t.mixBlock main frameCount numFrames BLOCKSIZE (t.aux numFrames)).1)
    (hMultiple : BLOCKSIZE ∣ frameCount) {numFrames : Nat} (hStart : BLOCKSIZE ∣ numFrames)
    (hRoom : numFrames + BLOCKSIZE ≤ frameCount) {v : Seen} (hIn : v.inGroup = v.live)
    (hSeen : if v.live then P numFrames v.track else Q v.track) :
    if (v.blocks main frameCount numFrames).live then
      P frameCount (v.blocks main frameCount numFrames).track
    else Q (v.blocks main frameCount numFrames).track := by
  have hStep :
      ∀ numFrames (v : Seen),
        numFrames + BLOCKSIZE ≤ frameCount →
          v.inGroup = v.live →
            (if v.live then P numFrames v.track else Q v.track) →
              ∃ v' : Seen,
                (if v.inGroup = true then v.block main frameCount numFrames else v) = v' ∧
                v'.inGroup = v'.live ∧ if v'.live then P (numFrames + BLOCKSIZE) v'.track
                else Q v'.track := by
    intro numFrames v hRoom hIn hSeen
    refine ⟨_, rfl, ?_⟩
    cases hLive : v.live with
    | false =>
      rw [hIn, hLive, if_neg (by nofun)]
      rw [hLive] at hSeen hIn
      rw [hIn, hLive]
      exact ⟨rfl, hSeen⟩
    | true =>
      rw [hLive] at hSeen
      rw [hIn, hLive, if_pos rfl]
      unfold Seen.block
      rw [hIn, hLive]
      simp only [Bool.true_and, true_and]
      exact hBlock numFrames v.track hRoom hSeen
  induction numFrames, v using Seen.blocks.induct main frameCount with
  | case1 numFrames v w hMore ih =>
    rcases hStep numFrames v hRoom hIn hSeen with ⟨v', hNext, hIn', hSeen'⟩
    have hSame : w = v' := hNext
    unfold Seen.blocks
    simp only [if_pos hMore, hNext]
    rw [hSame] at ih
    apply ih
    · exact Nat.dvd_add hStart (Nat.dvd_refl _)
    · rcases hMultiple with ⟨k, hFrames⟩
      rcases hStart with ⟨l, hBefore⟩
      unfold BLOCKSIZE at *
      omega
    · exact hIn'
    · exact hSeen'
  | case2 numFrames v hLast =>
    rcases hStep numFrames v hRoom hIn hSeen with ⟨v', hNext, -, hSeen'⟩
    have hEnd : numFrames + BLOCKSIZE = frameCount := by omega
    unfold Seen.blocks
    simp only [if_neg hLast, hNext]
    rw [← hEnd]
    exact hSeen'

namespace Track

/- A dry track is never mixed. -/
theorem blocks_dry {main frameCount : Nat} {t : Track} (hNone : t.inp = none) (numFrames : Nat) :
    Seen.blocks main frameCount numFrames ⟨t, true, true⟩ = ⟨t, false, false⟩ := by
  have hBlock : Seen.block main frameCount numFrames ⟨t, true, true⟩ = ⟨t, false, false⟩ := by
    unfold Seen.block
    rw [mixBlock_none (by decide) hNone]
    rfl
  unfold Seen.blocks
  simp only [if_true, hBlock]
  split
  · exact Seen.blocks_outside rfl main frameCount _
  · rfl

/- A period with a buffer has a block. -/
theorem first_block {frameCount n : Nat} (hMultiple : BLOCKSIZE ∣ frameCount) (hPos : 0 < n)
    (hLe : n ≤ frameCount) : 0 + BLOCKSIZE ≤ frameCount := by
  rw [Nat.zero_add]
  exact Nat.le_of_dvd (Nat.lt_of_lt_of_le hPos hLe) hMultiple

/- Each buffer is released once. -/
theorem released_noResampling {t : Track} {frameCount : Nat} (hMultiple : BLOCKSIZE ∣ frameCount)
    (hLog : t.log = []) : ReleasedOnce (t.noResampling frameCount).log := by
  have hFirst : ReleasedOnce t.log := by
    rw [hLog]
    rfl
  unfold noResampling
  simp only
  rcases t.acquire_cases frameCount with ⟨hNone, hSame, -⟩ | ⟨n, offers, hPos, hLe, hRefill, -⟩
  · rw [blocks_dry hNone]
    simp only [Bool.false_eq_true, if_false]
    rw [hSame]
    exact hFirst
  · rw [hRefill]
    have hEnd : if (Seen.blocks t.mainBuffer frameCount 0 ⟨t.refill offers n, true, true⟩).live
        then (Seen.blocks t.mainBuffer frameCount 0 ⟨t.refill offers n, true, true⟩).track.Held
        else
          ReleasedOnce
            (Seen.blocks t.mainBuffer frameCount 0 ⟨t.refill offers n, true, true⟩).track.log :=
      Seen.blocks_rule (P := fun _ t => t.Held) (Q := fun t => ReleasedOnce t.log)
        (fun _ t' _ h => mixBlock_held _ _ h) hMultiple (Nat.dvd_zero _)
        (first_block hMultiple hPos hLe) rfl (refill_held hFirst offers n)
    split at hEnd
    · rename_i hLive
      rw [if_pos hLive]
      exact hEnd.2.releaseBuffer
    · rename_i hDry
      rw [if_neg hDry]
      exact hEnd

/- The frames of a period mixed block by block are placed exactly when all buffers are small. -/
theorem placed_noResampling_iff {t : Track} {frameCount : Nat} (hMultiple : BLOCKSIZE ∣ frameCount)
    (hServed : t.served = 0) (hLog : t.log = []) :
    t.Placed frameCount (t.noResampling frameCount).log ↔ Small (pieces frameCount t.offers) := by
  unfold noResampling
  simp only
  rcases t.acquire_cases frameCount with
    ⟨hNone, hSame, hPieces⟩ | ⟨n, offers, hPos, hLe, hRefill, hPieces⟩
  · rw [blocks_dry hNone]
    simp only [Bool.false_eq_true, if_false]
    rw [hSame, hLog, hPieces]
    unfold Placed
    rw [← pieces_sum, hPieces]
    exact ⟨fun _ n hIn => absurd hIn List.not_mem_nil, fun _ => rfl⟩
  · rw [hRefill]
    have hStart : t.Progress frameCount 0 (t.refill offers n) := by
      apply refill_progress
      · rfl
      · rw [hLog]
        rfl
      · exact hServed
      · omega
      · rw [hPieces, List.sum_cons, Nat.zero_add]
      · rw [hPieces, Nat.zero_add]
    have hEnd : if (Seen.blocks t.mainBuffer frameCount 0 ⟨t.refill offers n, true, true⟩).live
        then
          t.Progress frameCount frameCount
            (Seen.blocks t.mainBuffer frameCount 0 ⟨t.refill offers n, true, true⟩).track
        else
          t.Outcome frameCount
            (Seen.blocks t.mainBuffer frameCount 0 ⟨t.refill offers n, true, true⟩).track.log :=
      Seen.blocks_rule (P := fun done t' => t.Progress frameCount done t')
        (Q := fun t' => t.Outcome frameCount t'.log)
        (fun _ _ hBlock h => mixBlock_progress hBlock h) hMultiple (Nat.dvd_zero _)
        (first_block hMultiple hPos hLe) rfl hStart
    split at hEnd
    · rename_i hLive
      rw [if_pos hLive]
      rcases hEnd with hPlaying | hSkipping
      · apply hPlaying.outcome
        · have hCount := hPlaying.count
          have hBound := hPlaying.bound
          omega
        · rw [Nat.sub_self, pieces_zero]
      · exact hSkipping.outcome
    · rename_i hDry
      rw [if_neg hDry]
      exact hEnd

--
-- Agreement
--

instance (frameCount : Nat) (t : Track) (log : List Event) : Decidable (t.Placed frameCount log) :=
  inferInstanceAs
    (Decidable (frames log = (List.range (min frameCount (t.offers.map PNat.val).sum)).map t.frame))

/- A track without resampling, at the start of a period. -/
structure Plain (t : Track) : Prop where
  needsResample : t.needsResample = false
  served : t.served = 0
  log : t.log = []

/- The buffers of a period that are handed over right, and once, both ways. -/
def Fits (frameCount : Nat) (t : Track) : Prop :=
  Small (pieces frameCount t.offers) ∧ (t.needsAux = true → (pieces frameCount t.offers).length ≤ 2)

end Track

namespace Mixer

/-
  Both ways hand the frames of every enabled track to its hook where they belong, and release each
  buffer once.
-/
def MixesAlike (s : Mixer) : Prop :=
  ∀ i, s.enabledTracks.getLsbD i = true →
    ((s.tracks i).Placed s.frameCount (s.process__genericNoResampling.tracks i).log ∧
      ReleasedOnce (s.process__genericNoResampling.tracks i).log) ∧
    ((s.tracks i).Placed s.frameCount (s.process__genericResampling.tracks i).log ∧
      ReleasedOnce (s.process__genericResampling.tracks i).log)

theorem mixesAlike_iff (s : Mixer) (hMultiple : BLOCKSIZE ∣ s.frameCount)
    (hPlain : ∀ i, s.enabledTracks.getLsbD i = true → (s.tracks i).Plain) :
    s.MixesAlike ↔ ∀ i, s.enabledTracks.getLsbD i = true → (s.tracks i).Fits s.frameCount := by
  unfold MixesAlike Track.Fits
  apply forall_congr'
  intro i
  apply imp_congr_right
  intro hSet
  have h := hPlain i hSet
  rw [tracks_noResampling, tracks_resampling, if_pos hSet, if_pos hSet,
    Track.placed_noResampling_iff hMultiple h.served h.log,
    Track.placed_resampling_iff h.needsResample h.served h.log]
  have hBlocks := Track.released_noResampling hMultiple h.log
  have hPeriod : ReleasedOnce ((s.tracks i).resampling s.frameCount).log :=
    Track.released_resampling h.needsResample h.served h.log
  constructor
  · rintro ⟨⟨hSmall, -⟩, hTwo, -⟩
    exact ⟨hSmall, hTwo⟩
  · rintro ⟨hSmall, hTwo⟩
    exact ⟨⟨hSmall, hBlocks⟩, hTwo, hPeriod⟩

/- A track whose provider offers these buffers. -/
def offering (mainBuffer : Nat) (needsAux : Bool) (offers : List ℕ+) : Track where
  mainBuffer := mainBuffer
  needsAux := needsAux
  needsResample := false
  offers := offers
  served := 0
  buffer := ⟨none, 0⟩
  frameCount := 0
  inp := none
  log := []

/- A track with an aux send and two buffers, one without that runs dry after three. -/
def duet : Mixer where
  enabledTracks := 3
  frameCount := 32
  tracks i := if i = 0 then offering 1 true [20, 40] else offering 2 false [3, 9, 5]

theorem mixesAlike_iff_duet : duet.MixesAlike := by
  have hPlain : ∀ i, duet.enabledTracks.getLsbD i = true → (duet.tracks i).Plain := by
    intro i _
    unfold duet
    simp only
    split
    · exact ⟨rfl, rfl, rfl⟩
    · exact ⟨rfl, rfl, rfl⟩
  apply (mixesAlike_iff duet (by decide) hPlain).mpr
  intro i _
  unfold duet Track.Fits
  simp only
  split
  · exact ⟨by decide, by decide⟩
  · exact ⟨by decide, by decide⟩

/- A track with an aux send that gets three buffers. -/
def thrice : Mixer where
  enabledTracks := 1
  frameCount := 16
  tracks _ := offering 1 true [4, 4, 8]

theorem mixesAlike_iff_thrice : ¬ thrice.MixesAlike := by
  intro hAlike
  have hPlaced := (hAlike 0 (by decide)).2.1
  revert hPlaced
  decide +kernel

end Mixer

end AudioMixer

end FrameworksAv
