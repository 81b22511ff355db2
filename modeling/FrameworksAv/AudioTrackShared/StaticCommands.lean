import FrameworksAv.AudioTrackShared.StaticPlayback
import FrameworksAv.Base.Coalescing
import FrameworksAv.SingleStateQueue.Invariant

/-
  The commands of the client of a static track: polled one by one, they are carried out in order;
  polled together, only the last command of each kind reaches the server.

  Main declarations:
    * `incrementSequence_ofInt`, `Apart`
    * `StaticCommand`, `StaticPair`, `Synced`
-/

--
-- Sequence Numbers
--

namespace FrameworksAv

namespace AudioTrackShared

/- `incrementSequence` without wrapping. -/
def nextInt (self other : Int) : Int :=
  if 0 ≤ self - other ∧ self - other < 2 ^ 31 - 1 then self + 1
  else other + 1

theorem ofInt_sub_ofInt (w : Word) (x y : Int) :
    (w + BitVec.ofInt 32 x) - (w + BitVec.ofInt 32 y) = BitVec.ofInt 32 (x - y) := by
  rw [Int.sub_eq_add_neg, BitVec.ofInt_add, BitVec.ofInt_neg]
  grind

theorem toInt_ofInt_of_lt {x : Int} (hGe : -2 ^ 31 ≤ x) (hLt : x < 2 ^ 31) :
    (BitVec.ofInt 32 x).toInt = x := by
  rw [BitVec.toInt_ofInt]
  apply Int.bmod_eq_of_le
  · omega
  · omega

theorem ofInt_add_one (w : Word) (x : Int) :
    w + BitVec.ofInt 32 x + 1 = w + BitVec.ofInt 32 (x + 1) := by
  rw [BitVec.ofInt_add]
  grind

theorem ofInt_ne (w : Word) {x y : Int} (hLt : x < y) (hSmall : y < x + 2 ^ 32) :
    w + BitVec.ofInt 32 x ≠ w + BitVec.ofInt 32 y := by
  intro hEq
  have hSame := BitVec.add_right_inj _ |>.mp hEq
  have hNat := congrArg BitVec.toNat hSame
  simp only [BitVec.toNat_ofInt] at hNat
  omega

theorem incrementSequence_ofInt (w : Word) {x y : Int} (hGt : -2 ^ 31 < x - y)
    (hLt : x - y < 2 ^ 31) :
    incrementSequence (w + BitVec.ofInt 32 x) (w + BitVec.ofInt 32 y) =
      w + BitVec.ofInt 32 (nextInt x y) := by
  unfold incrementSequence nextInt
  rw [ofInt_sub_ofInt, toInt_ofInt_of_lt (by omega) hLt]
  simp only
  split
  · rw [ofInt_add_one]
  · rw [ofInt_add_one]

/-
  The sequences `x` of the loops and `y` of the positions after some loops and positions, from `d`
  and 0. Usually the larger counts all commands. It falls back once if one kind is repeated until it
  is 2^31 ahead of the other.
-/
def Apart (d : Int) (loops positions : Nat) (x y : Int) : Prop :=
  (loops = 0 → x = d) ∧ (positions = 0 → y = 0) ∧ -2 ^ 31 < x - y ∧ x - y < 2 ^ 31 ∧
    ((max x y = max d 0 + (loops + positions : Nat) ∧ (0 < loops → max d 0 < x) ∧
        (0 < positions → max d 0 < y)) ∨
      (2 ^ 31 - d ≤ (loops + positions : Nat) ∧ 0 < loops ∧
        max x y = 1 + (loops + positions : Nat) - (2 ^ 31 - d) ∧
        1 ≤ x ∧ 0 ≤ y ∧ (0 < positions → 2 ≤ y)) ∨
      (2 ^ 31 + d ≤ (loops + positions : Nat) ∧ 0 < positions ∧
        max x y = d + 1 + (loops + positions : Nat) - (2 ^ 31 + d) ∧
        d + 1 ≤ y ∧ d ≤ x ∧ (0 < loops → d + 2 ≤ x)))

variable {d x y : Int} {loops positions : Nat}

/- The next sequence is the largest, unless the own one is 2^31 - 1 ahead. -/
theorem nextInt_ahead (hGt : -2 ^ 31 < x - y) (hLt : x - y < 2 ^ 31) :
    y < nextInt x y ∧ nextInt x y - y < 2 ^ 31 ∧
      (nextInt x y = max x y + 1 ∨
        (x - y = 2 ^ 31 - 1 ∧ nextInt x y = y + 1 ∧ max x y = x)) := by
  unfold nextInt
  split
  · omega
  · omega

theorem Apart.init (hGt : -2 ^ 31 < d) (hLt : d < 2 ^ 31) : Apart d 0 0 d 0 := by
  unfold Apart
  omega

/- The sequence of a new loop is ahead. -/
theorem Apart.loop (h : Apart d loops positions x y) (hGt : -2 ^ 31 < d) (hLt : d < 2 ^ 31)
    (hFew : loops + positions + 1 < 2 ^ 31 - 1) :
    Apart d (loops + 1) positions (nextInt x y) y ∧ 0 < nextInt x y - y := by
  have hStart : 0 ≤ max d 0 ∧ d ≤ max d 0 ∧ (0 < max d 0 → max d 0 = d) := by omega
  rcases nextInt_ahead h.2.2.1 h.2.2.2.1 with ⟨hAhead, hNear, hTop⟩
  rcases h with ⟨hx, hy, hAbove, hBelow, hMain⟩
  have hFirst : x ≤ max x y := Int.le_max_left _ _
  have hSecond : y ≤ max x y := Int.le_max_right _ _
  unfold Apart
  rw [Int.max_eq_left (Int.le_of_lt hAhead)]
  generalize nextInt x y = z at *
  generalize max x y = top at *
  generalize max d 0 = start at *
  refine ⟨⟨nofun, hy, by omega, hNear, ?_⟩, Int.sub_pos_of_lt hAhead⟩
  rcases hMain with
    ⟨hMax, hLoops, hPositions⟩ | ⟨hWrapped, hSome, hMax, hLoop, hPosition, hPositions⟩ |
      ⟨hWrapped, hSome, hMax, hLoop, hPosition, hLoops⟩
  · rcases hTop with hLast | ⟨hFar, hWrap, hOld⟩
    · left
      omega
    · right
      left
      omega
  · right
    left
    omega
  · right
    right
    omega

/- Loops and positions change places, and the sequences count from the other one. -/
theorem Apart.swap (h : Apart d loops positions x y) :
    Apart (-d) positions loops (y - d) (x - d) := by
  have hMax : max (y - d) (x - d) = max x y - d := by omega
  have hStart : max (-d) 0 = max d 0 - d := by omega
  unfold Apart at *
  rw [hMax, hStart]
  generalize max x y = top at *
  generalize max d 0 = start at *
  rcases h with ⟨hx, hy, hAbove, hBelow, hMain⟩
  refine ⟨by omega, by omega, by omega, by omega, ?_⟩
  rcases hMain with hSum | hLoops | hPositions
  · left
    omega
  · right
    right
    omega
  · right
    left
    omega

theorem nextInt_sub (x y z : Int) : nextInt (x - z) (y - z) = nextInt x y - z := by
  have hSame : x - z - (y - z) = x - y := by omega
  unfold nextInt
  rw [hSame]
  split
  · omega
  · omega

/- The sequence of a new position is ahead. -/
theorem Apart.position (h : Apart d loops positions x y) (hGt : -2 ^ 31 < d) (hLt : d < 2 ^ 31)
    (hFew : loops + positions + 1 < 2 ^ 31 - 1) :
    Apart d loops (positions + 1) x (nextInt y x) ∧ x - nextInt y x < 0 := by
  have hLoop := h.swap.loop (by omega) (by omega) (by omega)
  rw [nextInt_sub] at hLoop
  have hBack := hLoop.1.swap
  rw [Int.neg_neg, Int.sub_neg, Int.sub_neg, Int.sub_add_cancel, Int.sub_add_cancel] at hBack
  exact ⟨hBack, by omega⟩

/- Fewer than 2^31 - 1 commands never look like none. -/
theorem Apart.ne_loop (h : Apart d loops positions x y) (hGt : -2 ^ 31 < d) (hLt : d < 2 ^ 31)
    (hFew : loops + positions < 2 ^ 31 - 1) (hLoops : 0 < loops) (w : Word) :
    w + BitVec.ofInt 32 d ≠ w + BitVec.ofInt 32 x := by
  unfold Apart at h
  by_cases hLess : d < x
  · exact ofInt_ne w hLess (by omega)
  · exact (ofInt_ne w (by omega) (by omega)).symm

theorem Apart.ne_position (h : Apart d loops positions x y) (hGt : -2 ^ 31 < d) (hLt : d < 2 ^ 31)
    (hFew : loops + positions < 2 ^ 31 - 1) (hPositions : 0 < positions) (w : Word) :
    w + BitVec.ofInt 32 0 ≠ w + BitVec.ofInt 32 y := by
  unfold Apart at h
  by_cases hLess : 0 < y
  · exact ofInt_ne w hLess (by omega)
  · exact (ofInt_ne w (by omega) (by omega)).symm

end AudioTrackShared

--
-- Commands
--

namespace AudioTrackShared

open SingleStateQueue (Shared Mutator Observer)

/- The commands of `StaticAudioTrackClientProxy`. -/
inductive StaticCommand where
| setLoop (loopStart loopEnd : Nat) (loopCount : Word)
| setBufferPosition (position : Nat)
| setBufferPositionAndLoop (position loopStart loopEnd : Nat) (loopCount : Word)

/- Both proxies of a static track. -/
structure StaticPair where
  cblk : StaticCblk
  client : StaticClient
  server : StaticServer

namespace StaticPair

def init (frameCount : Nat) : StaticPair where
  cblk := StaticCblk.init
  client := StaticClient.init
  server := StaticServer.init frameCount

/- The client gives a command. -/
def call (t : StaticPair) (a : StaticCommand) : StaticPair :=
  let r :=
    match a with
    | .setLoop loopStart loopEnd loopCount => t.client.setLoop t.cblk loopStart loopEnd loopCount
    | .setBufferPosition position => t.client.setBufferPosition t.cblk position
    | .setBufferPositionAndLoop position loopStart loopEnd loopCount =>
      t.client.setBufferPositionAndLoop t.cblk position loopStart loopEnd loopCount
  { t with cblk := r.1, client := r.2 }

/- The server polls. -/
def poll (frameCount : Nat) (t : StaticPair) : StaticPair :=
  let r := t.server.pollPosition frameCount t.cblk
  { t with cblk := r.1, server := r.2.1 }

/- The server polls after every command. -/
def pollEach (frameCount : Nat) (t : StaticPair) (as : List StaticCommand) : StaticPair :=
  as.foldl (fun t a => (t.call a).poll frameCount) t

/- The server polls once, after the last command. -/
def pollOnce (frameCount : Nat) (t : StaticPair) (as : List StaticCommand) : StaticPair :=
  (as.foldl call t).poll frameCount

end StaticPair

namespace StaticCommand

/- The loop and the position a command sets, newest first. -/
def parts : StaticCommand → List Playback.Command
| .setLoop loopStart loopEnd loopCount => [.loop ⟨loopStart, loopEnd, loopCount.toInt⟩]
| .setBufferPosition position => [.position position]
| .setBufferPositionAndLoop position loopStart loopEnd loopCount =>
  [.position position, .loop ⟨loopStart, loopEnd, loopCount.toInt⟩]

/- A loop that can be played, or none. -/
def ValidLoop (frameCount : Nat) (loopStart loopEnd : Nat) (loopCount : Word) : Prop :=
  loopStart < 2 ^ 32 ∧ loopEnd < 2 ^ 32 ∧
    (loopCount = 0 ∨
      (-1 ≤ loopCount.toInt ∧ loopStart < loopEnd ∧ loopEnd ≤ frameCount ∧
        minLoop ≤ loopEnd - loopStart))

/- A command that does not shut the server down. -/
def Valid (frameCount : Nat) : StaticCommand → Prop
| .setLoop loopStart loopEnd loopCount => ValidLoop frameCount loopStart loopEnd loopCount
| .setBufferPosition position => position ≤ frameCount
| .setBufferPositionAndLoop position loopStart loopEnd loopCount =>
  position ≤ frameCount ∧ ValidLoop frameCount loopStart loopEnd loopCount

/- All loops and positions of some commands, newest first. -/
def allParts (as : List StaticCommand) : List Playback.Command :=
  as.foldl (fun ps a => a.parts ++ ps) []

theorem foldl_parts (as : List StaticCommand) (ps : List Playback.Command) :
    as.foldl (fun ps a => a.parts ++ ps) ps = allParts as ++ ps := by
  induction as generalizing ps with
  | nil => rfl
  | cons a as ih =>
    rw [allParts, List.foldl_cons, List.foldl_cons, ih, ih]
    simp

theorem allParts_cons (a : StaticCommand) (as : List StaticCommand) :
    allParts (a :: as) = allParts as ++ a.parts := by
  rw [allParts, List.foldl_cons, List.append_nil, foldl_parts]

end StaticCommand

--
-- Calls Of The Client
--

namespace StaticClient

theorem getBufferPositionAndLoopCount_frame (c : StaticCblk) (p : StaticClient) :
    let r := getBufferPositionAndLoopCount c p
    r.1.mSingleStateQueue = c.mSingleStateQueue ∧
      r.2.mState = p.mState ∧ r.2.mMutator = p.mMutator := by
  unfold getBufferPositionAndLoopCount
  split
  · split
    · exact ⟨rfl, rfl, rfl⟩
    · exact ⟨rfl, rfl, rfl⟩
  · exact ⟨rfl, rfl, rfl⟩

/- What a call pushes. -/
structure Pushed (c : StaticCblk) (p : StaticClient) (s : StaticState)
    (r : StaticCblk × StaticClient) : Prop where
  state : r.2.mState = s
  queue : r.1.mSingleStateQueue = (Mutator.push c.mSingleStateQueue p.mMutator s).1
  mutator : r.2.mMutator = (Mutator.push c.mSingleStateQueue p.mMutator s).2.1

theorem setLoop_pushed (c : StaticCblk) (p : StaticClient) {loopStart loopEnd : Nat}
    (hStart : loopStart < 2 ^ 32) (hEnd : loopEnd < 2 ^ 32) (loopCount : Word) :
    Pushed c p
      { p.mState with
        mLoopStart := BitVec.ofNat 32 loopStart
        mLoopEnd := BitVec.ofNat 32 loopEnd
        mLoopCount := loopCount
        mLoopSequence := incrementSequence p.mState.mLoopSequence p.mState.mPositionSequence }
      (setLoop c p loopStart loopEnd loopCount) := by
  unfold setLoop
  rw [if_neg (by omega)]
  simp only
  generalize hState :
    ({ p.mState with
        mLoopStart := BitVec.ofNat 32 loopStart
        mLoopEnd := BitVec.ofNat 32 loopEnd
        mLoopCount := loopCount
        mLoopSequence :=
          incrementSequence p.mState.mLoopSequence p.mState.mPositionSequence } : StaticState) = s
  have hFrame := getBufferPositionAndLoopCount_frame c { p with mState := s }
  generalize getBufferPositionAndLoopCount c { p with mState := s } = r at hFrame
  rcases r with ⟨d, q⟩
  simp only at hFrame
  constructor
  · exact hFrame.2.1
  · simp only [push, hFrame.1, hFrame.2.1, hFrame.2.2]
  · simp only [push, hFrame.1, hFrame.2.1, hFrame.2.2]

theorem setBufferPosition_pushed (c : StaticCblk) (p : StaticClient) {position : Nat}
    (hPosition : position < 2 ^ 32) :
    Pushed c p
      { p.mState with
        mPosition := BitVec.ofNat 32 position
        mPositionSequence := incrementSequence p.mState.mPositionSequence p.mState.mLoopSequence }
      (setBufferPosition c p position) := by
  unfold setBufferPosition
  rw [if_neg (by omega)]
  simp only
  generalize hState :
    ({ p.mState with
        mPosition := BitVec.ofNat 32 position
        mPositionSequence :=
          incrementSequence p.mState.mPositionSequence p.mState.mLoopSequence } : StaticState) = s
  have hFrame := getBufferPositionAndLoopCount_frame c { p with mState := s }
  generalize getBufferPositionAndLoopCount c { p with mState := s } = r at hFrame
  rcases r with ⟨d, q⟩
  simp only at hFrame
  split
  · constructor
    · exact hFrame.2.1
    · simp only [push, hFrame.1, hFrame.2.1, hFrame.2.2]
    · simp only [push, hFrame.1, hFrame.2.1, hFrame.2.2]
  · exact ⟨rfl, rfl, rfl⟩

end StaticClient

end AudioTrackShared

--
-- Batches
--

namespace Playback

/- How many commands of each kind there are. -/
def loops : List Command → Nat
| [] => 0
| .loop _ :: cs => loops cs + 1
| .position _ :: cs => loops cs

def positions : List Command → Nat
| [] => 0
| .loop _ :: cs => positions cs
| .position _ :: cs => positions cs + 1

theorem loops_add_positions (cs : List Command) : loops cs + positions cs = cs.length := by
  induction cs with
  | nil => rfl
  | cons c cs ih =>
    cases c with
    | loop l =>
      simp only [loops, positions, List.length_cons]
      omega
    | position p =>
      simp only [loops, positions, List.length_cons]
      omega

theorem loops_eq_zero {cs : List Command} (hNone : lastLoop cs = none) : loops cs = 0 := by
  induction cs with
  | nil => rfl
  | cons c cs ih =>
    cases c with
    | loop l => cases hNone
    | position p => exact ih hNone

theorem loops_pos {cs : List Command} {l : Loop} (hSome : lastLoop cs = some l) :
    0 < loops cs ∧ .loop l ∈ cs := by
  induction cs with
  | nil => cases hSome
  | cons c cs ih =>
    cases c with
    | loop k =>
      cases hSome
      exact ⟨Nat.succ_pos _, List.mem_cons_self⟩
    | position p =>
      have hTail := ih hSome
      exact ⟨hTail.1, List.mem_cons_of_mem _ hTail.2⟩

theorem positions_eq_zero {cs : List Command} (hNone : lastPosition cs = none) :
    positions cs = 0 := by
  induction cs with
  | nil => rfl
  | cons c cs ih =>
    cases c with
    | loop l => exact ih hNone
    | position p => cases hNone

theorem positions_pos {cs : List Command} {p : Nat} (hSome : lastPosition cs = some p) :
    0 < positions cs ∧ .position p ∈ cs := by
  induction cs with
  | nil => cases hSome
  | cons c cs ih =>
    cases c with
    | loop l =>
      have hTail := ih hSome
      exact ⟨hTail.1, List.mem_cons_of_mem _ hTail.2⟩
    | position q =>
      cases hSome
      exact ⟨Nat.succ_pos _, List.mem_cons_self⟩

end Playback

namespace AudioTrackShared

open SingleStateQueue (Shared Mutator Observer)

/-
  The server knows the sequences of the client, has seen all pushes, and its state can be played.
-/
structure Synced (frameCount : Nat) (t : StaticPair) : Prop where
  loopSequence : t.client.mState.mLoopSequence = t.server.mState.mLoopSequence
  positionSequence : t.client.mState.mPositionSequence = t.server.mState.mPositionSequence
  apart : -2 ^ 31 < (t.server.mState.mLoopSequence - t.server.mState.mPositionSequence).toInt
  queue :
    ∃ m,
      t.cblk.mSingleStateQueue.mSequence = BitVec.ofNat 32 (2 * m) ∧
        t.client.mMutator.mSequence = BitVec.ofNat 32 (2 * m) ∧
        t.server.mObserver.mSequence = BitVec.ofNat 32 (2 * m)
  wf : t.server.mState.playback.Wf frameCount minLoop

theorem Synced.init (frameCount : Nat) : Synced frameCount (StaticPair.init frameCount) := by
  constructor
  · rfl
  · rfl
  · change -2 ^ 31 < ((0 : Word) - 0).toInt
    decide
  · exact ⟨0, rfl, rfl, rfl⟩
  · exact (StaticTrack.Inv.init frameCount).server.wf

/- The newest command is ahead. -/
def Newest (x y : Int) : List Playback.Command → Prop
| [] => True
| .loop _ :: _ => 0 < x - y
| .position _ :: _ => x - y < 0

/- The client has pushed some commands since the server last polled. -/
structure Batch (d : Int) (m : Nat) (s : StaticState) (ps : List Playback.Command) (c : StaticCblk)
    (p : StaticClient) : Prop where
  sequence : c.mSingleStateQueue.mSequence = BitVec.ofNat 32 (2 * (m + ps.length))
  mutator : p.mMutator.mSequence = BitVec.ofNat 32 (2 * (m + ps.length))
  value : ps ≠ [] → c.mSingleStateQueue.mValue = p.mState
  sequences :
    ∃ x y,
      p.mState.mLoopSequence = s.mPositionSequence + BitVec.ofInt 32 x ∧
        p.mState.mPositionSequence = s.mPositionSequence + BitVec.ofInt 32 y ∧
        Apart d (Playback.loops ps) (Playback.positions ps) x y ∧ Newest x y ps
  loop :
    ∀ l, Playback.lastLoop ps = some l →
      p.mState.mLoopStart.toNat = l.loopStart ∧ p.mState.mLoopEnd.toNat = l.loopEnd ∧
        p.mState.mLoopCount.toInt = l.loopCount
  position : ∀ q, Playback.lastPosition ps = some q → p.mState.mPosition.toNat = q

/- A push moves both sequences of the queue on by two. -/
theorem push_sequence {c : StaticCblk} {p : StaticClient} {s : StaticState}
    {r : StaticCblk × StaticClient} (hPushed : StaticClient.Pushed c p s r) {m : Nat}
    (hMutator : p.mMutator.mSequence = BitVec.ofNat 32 (2 * m)) :
    r.1.mSingleStateQueue.mSequence = BitVec.ofNat 32 (2 * (m + 1)) ∧
      r.2.mMutator.mSequence = BitVec.ofNat 32 (2 * (m + 1)) ∧
      r.1.mSingleStateQueue.mValue = r.2.mState := by
  have hNext : p.mMutator.mSequence + 1 + 1 = BitVec.ofNat 32 (2 * (m + 1)) := by
    rw [hMutator, Nat.mul_add, Counter.ofNat_add]
    grind
  refine ⟨?_, ?_, ?_⟩
  · rw [hPushed.queue]
    exact hNext
  · rw [hPushed.mutator]
    exact hNext
  · rw [hPushed.queue, hPushed.state]
    rfl

variable {d : Int} {m : Nat} {s : StaticState} {ps : List Playback.Command} {c : StaticCblk}
variable {p : StaticClient}

theorem Batch.setLoop (h : Batch d m s ps c p) (hGt : -2 ^ 31 < d) (hLt : d < 2 ^ 31)
    (hFew : ps.length + 1 < 2 ^ 31 - 1) {loopStart loopEnd : Nat} (hStart : loopStart < 2 ^ 32)
    (hEnd : loopEnd < 2 ^ 32) (loopCount : Word) :
    let r := p.setLoop c loopStart loopEnd loopCount
    Batch d m s (.loop ⟨loopStart, loopEnd, loopCount.toInt⟩ :: ps) r.1 r.2 := by
  have hPushed := StaticClient.setLoop_pushed c p hStart hEnd loopCount
  have hQueue := push_sequence hPushed h.mutator
  have hState := hPushed.state
  generalize p.setLoop c loopStart loopEnd loopCount = r at *
  rcases h.sequences with ⟨x, y, hx, hy, hApart, -⟩
  have hCounts := Playback.loops_add_positions ps
  have hNext := hApart.loop hGt hLt (by omega)
  constructor
  · exact hQueue.1
  · exact hQueue.2.1
  · intro _
    exact hQueue.2.2
  · refine ⟨nextInt x y, y, ?_, ?_, hNext.1, hNext.2⟩
    · rw [hState]
      simp only [hx, hy]
      exact incrementSequence_ofInt _ hApart.2.2.1 hApart.2.2.2.1
    · rw [hState]
      exact hy
  · intro l hLast
    cases hLast
    rw [hState]
    refine ⟨?_, ?_, rfl⟩
    · simp only [BitVec.toNat_ofNat, Nat.mod_eq_of_lt hStart]
    · simp only [BitVec.toNat_ofNat, Nat.mod_eq_of_lt hEnd]
  · intro q hLast
    rw [hState]
    exact h.position q hLast

theorem Batch.setBufferPosition (h : Batch d m s ps c p) (hGt : -2 ^ 31 < d) (hLt : d < 2 ^ 31)
    (hFew : ps.length + 1 < 2 ^ 31 - 1) {position : Nat} (hPosition : position < 2 ^ 32) :
    let r := p.setBufferPosition c position
    Batch d m s (.position position :: ps) r.1 r.2 := by
  have hPushed := StaticClient.setBufferPosition_pushed c p hPosition
  have hQueue := push_sequence hPushed h.mutator
  have hState := hPushed.state
  generalize p.setBufferPosition c position = r at *
  rcases h.sequences with ⟨x, y, hx, hy, hApart, -⟩
  have hCounts := Playback.loops_add_positions ps
  have hNext := hApart.position hGt hLt (by omega)
  have hBetween := hApart.2.2
  constructor
  · exact hQueue.1
  · exact hQueue.2.1
  · intro _
    exact hQueue.2.2
  · refine ⟨x, nextInt y x, ?_, ?_, hNext.1, hNext.2⟩
    · rw [hState]
      exact hx
    · rw [hState]
      simp only [hx, hy]
      exact incrementSequence_ofInt _ (by omega) (by omega)
  · intro l hLast
    rw [hState]
    exact h.loop l hLast
  · intro q hLast
    cases hLast
    rw [hState]
    simp only [BitVec.toNat_ofNat, Nat.mod_eq_of_lt hPosition]

end AudioTrackShared

--
-- Polls Of Batches
--

namespace AudioTrackShared

open SingleStateQueue (Shared Mutator Observer)

/- A command whose loop or position can be played. -/
def PartValid (frameCount : Nat) : Playback.Command → Prop
| .loop l =>
  l.loopCount = 0 ∨
    (-1 ≤ l.loopCount ∧ l.loopStart < l.loopEnd ∧ l.loopEnd ≤ frameCount ∧
      minLoop ≤ l.loopEnd - l.loopStart)
| .position p => p ≤ frameCount

variable {frameCount : Nat}

/- A loop that may have been set, on a state. -/
theorem updateStateWithLoop_run {s u : StaticState} (hPosition : s.mPosition.toNat ≤ frameCount)
    {last : Option Playback.Loop} (hNone : last = none → s.mLoopSequence = u.mLoopSequence)
    (hSome :
      ∀ l, last = some l →
        s.mLoopSequence ≠ u.mLoopSequence ∧ PartValid frameCount (.loop l) ∧
          u.mLoopStart.toNat = l.loopStart ∧ u.mLoopEnd.toNat = l.loopEnd ∧
          u.mLoopCount.toInt = l.loopCount) :
    ∃ r,
      StaticServer.updateStateWithLoop frameCount s u = some r ∧
        r.playback = s.playback.run (last.map .loop).toList ∧
        r.mPositionSequence = s.mPositionSequence := by
  cases last with
  | none =>
    rw [StaticServer.updateStateWithLoop_of_eq (hNone rfl)]
    exact ⟨s, rfl, rfl, rfl⟩
  | some l =>
    rcases hSome l rfl with ⟨hSeq, hValid, hStart, hEnd, hCount⟩
    have hZero : u.mLoopCount = 0 ↔ l.loopCount = 0 := by
      rw [← hCount, ← not_iff_not]
      exact toInt_ne_zero.symm
    have hFine : u.mLoopCount = 0 ∨ StaticServer.ValidLoop frameCount u := by
      rcases hValid with hNoLoop | hLoop
      · exact Or.inl (hZero.mpr hNoLoop)
      · right
        unfold StaticServer.ValidLoop
        rw [hStart, hEnd, hCount]
        exact hLoop
    rw [StaticServer.updateStateWithLoop_of_ne hSeq hPosition, if_pos hFine]
    refine ⟨_, rfl, ?_, rfl⟩
    have hRestart :
        (if u.mLoopCount ≠ 0 ∧ s.mPosition.toNat ≥ u.mLoopEnd.toNat then u.mLoopStart
        else s.mPosition).toNat = l.restart s.mPosition.toNat := by
      unfold Playback.Loop.restart
      by_cases hWrap : u.mLoopCount ≠ 0 ∧ s.mPosition.toNat ≥ u.mLoopEnd.toNat
      · rw [if_pos hWrap, if_pos, hStart]
        rw [← hEnd]
        exact ⟨fun hNo => hWrap.1 (hZero.mpr hNo), hWrap.2⟩
      · rw [if_neg hWrap, if_neg]
        rintro ⟨hLoops, hBehind⟩
        rw [← hEnd] at hBehind
        exact hWrap ⟨fun hNo => hLoops (hZero.mp hNo), hBehind⟩
    rw [Playback.ext_iff']
    exact ⟨hRestart, hStart, hEnd, hCount⟩

/- A position that may have been set, on a state. -/
theorem updateStateWithPosition_run {s u : StaticState} {last : Option Nat}
    (hNone : last = none → s.mPositionSequence = u.mPositionSequence)
    (hSome :
      ∀ q, last = some q →
        s.mPositionSequence ≠ u.mPositionSequence ∧ PartValid frameCount (.position q) ∧
          u.mPosition.toNat = q) :
    ∃ r,
      StaticServer.updateStateWithPosition frameCount s u = some r ∧
        r.playback = s.playback.run (last.map .position).toList ∧
        r.mLoopSequence = s.mLoopSequence := by
  cases last with
  | none =>
    rw [StaticServer.updateStateWithPosition_of_eq (hNone rfl)]
    exact ⟨s, rfl, rfl, rfl⟩
  | some q =>
    rcases hSome q rfl with ⟨hSeq, hValid, hEq⟩
    have hInside : u.mPosition.toNat ≤ frameCount := by
      rw [hEq]
      exact hValid
    rw [StaticServer.updateStateWithPosition_of_ne hSeq, if_pos hInside]
    refine ⟨_, rfl, ?_, rfl⟩
    have hEnded :
        (if s.mLoopCount ≠ 0 ∧ u.mPosition.toNat ≥ s.mLoopEnd.toNat then (0 : Word)
        else s.mLoopCount).toInt = if s.mLoopCount.toInt ≠ 0 ∧ s.mLoopEnd.toNat ≤ q then 0
          else s.mLoopCount.toInt := by
      rw [hEq]
      by_cases hEnds : s.mLoopCount ≠ 0 ∧ q ≥ s.mLoopEnd.toNat
      · rw [if_pos hEnds, if_pos]
        · rfl
        · exact ⟨toInt_ne_zero.mpr hEnds.1, hEnds.2⟩
      · rw [if_neg hEnds, if_neg]
        rintro ⟨hLoops, hBehind⟩
        exact hEnds ⟨toInt_ne_zero.mp hLoops, hBehind⟩
    rw [Playback.ext_iff']
    exact ⟨hEq, rfl, rfl, hEnded⟩

/- The state of the client carries out the last commands. -/
theorem Batch.updateState (h : Batch d m s ps c p)
    (hDistance : (s.mLoopSequence - s.mPositionSequence).toInt = d) (hGt : -2 ^ 31 < d)
    (hLt : d < 2 ^ 31) (hFew : ps.length < 2 ^ 31 - 1) (hSome : ps ≠ [])
    (hValid : ∀ a ∈ ps, PartValid frameCount a) (hWf : s.playback.Wf frameCount minLoop) :
    (∃ r,
      StaticServer.updateState frameCount s p.mState = some r ∧
        r.playback = s.playback.coalesced ps) ∧
      -2 ^ 31 < (p.mState.mLoopSequence - p.mState.mPositionSequence).toInt := by
  rcases h.sequences with ⟨x, y, hx, hy, hApart, hNewest⟩
  have hCounts := Playback.loops_add_positions ps
  -- the old sequences in the same coordinates
  have hLoopSeq : s.mLoopSequence = s.mPositionSequence + BitVec.ofInt 32 d := by
    rw [← hDistance, BitVec.ofInt_toInt]
    grind
  have hPositionSeq : s.mPositionSequence = s.mPositionSequence + BitVec.ofInt 32 0 := by
    simp
  have hLoopNone : Playback.lastLoop ps = none → s.mLoopSequence = p.mState.mLoopSequence := by
    intro hNone
    rw [hx, hApart.1 (Playback.loops_eq_zero hNone), ← hLoopSeq]
  have hLoopSome :
      ∀ l, Playback.lastLoop ps = some l →
        s.mLoopSequence ≠ p.mState.mLoopSequence ∧ PartValid frameCount (.loop l) ∧
          p.mState.mLoopStart.toNat = l.loopStart ∧ p.mState.mLoopEnd.toNat = l.loopEnd ∧
          p.mState.mLoopCount.toInt = l.loopCount := by
    intro l hLast
    have hPos := Playback.loops_pos hLast
    refine ⟨?_, hValid _ hPos.2, h.loop l hLast⟩
    rw [hx, hLoopSeq]
    exact hApart.ne_loop hGt hLt (by omega) hPos.1 _
  have hPositionNone :
      Playback.lastPosition ps = none → s.mPositionSequence = p.mState.mPositionSequence := by
    intro hNone
    rw [hy, hApart.2.1 (Playback.positions_eq_zero hNone), ← hPositionSeq]
  have hPositionSome :
      ∀ q, Playback.lastPosition ps = some q →
        s.mPositionSequence ≠ p.mState.mPositionSequence ∧ PartValid frameCount (.position q) ∧
          p.mState.mPosition.toNat = q := by
    intro q hLast
    have hPos := Playback.positions_pos hLast
    refine ⟨?_, hValid _ hPos.2, h.position q hLast⟩
    rw [hy]
    conv_lhs => rw [hPositionSeq]
    exact hApart.ne_position hGt hLt (by omega) hPos.1 _
  have hDiff : (p.mState.mLoopSequence - p.mState.mPositionSequence).toInt = x - y := by
    rw [hx, hy, ofInt_sub_ofInt]
    exact toInt_ofInt_of_lt (by have := hApart.2.2.1; omega) hApart.2.2.2.1
  refine ⟨?_, by rw [hDiff]; exact hApart.2.2.1⟩
  unfold StaticServer.updateState
  rw [hDiff]
  cases ps with
  | nil => exact absurd rfl hSome
  | cons a ps =>
    cases a with
    | loop l =>
      simp only [Newest] at hNewest
      simp only
      rw [if_neg (by omega)]
      rcases updateStateWithPosition_run hPositionNone hPositionSome with ⟨r, hFirst, hRun, hSame⟩
      have hInside := (StaticServer.updateStateWithPosition_wf hWf hFirst).position_le
      rw [← hSame] at hLoopNone hLoopSome
      rcases updateStateWithLoop_run hInside hLoopNone hLoopSome with ⟨t, hSecond, hLast, -⟩
      refine ⟨t, ?_, ?_⟩
      · rw [hFirst]
        exact hSecond
      · rw [hLast, hRun]
        rfl
    | position q =>
      simp only [Newest] at hNewest
      simp only
      rw [if_pos hNewest]
      rcases updateStateWithLoop_run hWf.position_le hLoopNone hLoopSome with
        ⟨r, hFirst, hRun, hSame⟩
      rw [← hSame] at hPositionNone hPositionSome
      rcases updateStateWithPosition_run hPositionNone hPositionSome with ⟨t, hSecond, hLast, -⟩
      refine ⟨t, ?_, ?_⟩
      · rw [hFirst]
        exact hSecond
      · rw [hLast, hRun]
        rfl

/- A poll after a batch. -/
theorem Batch.poll {q : StaticServer} (h : Batch d m q.mState ps c p)
    (hDistance : (q.mState.mLoopSequence - q.mState.mPositionSequence).toInt = d)
    (hGt : -2 ^ 31 < d) (hObserver : q.mObserver.mSequence = BitVec.ofNat 32 (2 * m))
    (hSome : ps ≠ []) (hFew : ps.length < 2 ^ 31 - 1) (hValid : ∀ a ∈ ps, PartValid frameCount a)
    (hWf : q.mState.playback.Wf frameCount minLoop) :
    let t : StaticPair := ⟨c, p, q⟩
    (t.poll frameCount).server.mState.playback = q.mState.playback.coalesced ps ∧
      Synced frameCount (t.poll frameCount) := by
  have hLt : d < 2 ^ 31 := by
    rw [← hDistance]
    exact BitVec.toInt_lt
  rcases h.updateState hDistance hGt hLt hFew hSome hValid hWf with ⟨⟨r, hUpdate, hRun⟩, hApart⟩
  have hLength : 0 < ps.length := List.length_pos_iff.mpr hSome
  -- the sequence of the queue is new and even
  have hNews : (Observer.poll c.mSingleStateQueue q.mObserver).2.2 = some p.mState := by
    have hNew : c.mSingleStateQueue.mSequence ≠ q.mObserver.mSequence := by
      rw [h.sequence, hObserver]
      intro hEq
      have hInj := Counter.ofNat_inj_of_lt (by omega) (by omega) hEq.symm
      omega
    have hEven : ¬ c.mSingleStateQueue.mSequence &&& 1 ≠ 0 := by
      rw [h.sequence, SingleStateQueue.odd_iff]
      omega
    unfold Observer.poll
    simp only
    rw [if_neg hNew, if_neg hEven, h.value hSome]
  have hApplied := StaticServer.updateState_applied hUpdate
  have hNext := StaticServer.updateState_wf hWf hUpdate
  rcases StaticServer.pollPosition_cases frameCount c q with
    ⟨hNone, -⟩ | ⟨u, hSomeNews, hSequence, -, hSeen, -, -, hTaken⟩
  · rw [hNone] at hNews
    cases hNews
  · rw [hNews] at hSomeNews
    cases hSomeNews
    rcases hTaken with ⟨hFail, -⟩ | ⟨t, hTake, hState, -⟩
    · rw [hUpdate] at hFail
      cases hFail
    · rw [hUpdate] at hTake
      cases hTake
      simp only [StaticPair.poll]
      refine ⟨by rw [hState, hRun], ?_⟩
      constructor
      · simp only [hState, hApplied.loopSequence]
      · simp only [hState, hApplied.positionSequence]
      · simp only [hState, hApplied.loopSequence, hApplied.positionSequence]
        exact hApart
      · refine ⟨m + ps.length, ?_, h.mutator, ?_⟩
        · rw [hSequence, h.sequence]
        · rw [hSeen, h.sequence]
      · rw [hState]
        exact hNext

/- A poll without a push does nothing. -/
theorem Synced.poll {t : StaticPair} (h : Synced frameCount t) : t.poll frameCount = t := by
  rcases h.queue with ⟨m, hQueue, -, hObserver⟩
  have hNone : (Observer.poll t.cblk.mSingleStateQueue t.server.mObserver).2.2 = none := by
    unfold Observer.poll
    simp only
    rw [if_pos (by rw [hQueue, hObserver])]
  rcases StaticServer.pollPosition_cases frameCount t.cblk t.server with ⟨-, hSame⟩ | ⟨u, hNews, -⟩
  · unfold StaticPair.poll
    rw [hSame]
  · rw [hNone] at hNews
    cases hNews

end AudioTrackShared

--
-- Coalescing
--

namespace AudioTrackShared

variable {frameCount : Nat}

theorem StaticCommand.Valid.parts {a : StaticCommand} (hValid : a.Valid frameCount) :
    ∀ b ∈ a.parts, PartValid frameCount b := by
  have hLoopValid :
      ∀ {loopStart loopEnd : Nat} {loopCount : Word},
        StaticCommand.ValidLoop frameCount loopStart loopEnd loopCount →
          PartValid frameCount (.loop ⟨loopStart, loopEnd, loopCount.toInt⟩) := by
    rintro loopStart loopEnd loopCount ⟨-, -, hZero | hLoop⟩
    · left
      simp [hZero]
    · exact Or.inr hLoop
  cases a with
  | setLoop loopStart loopEnd loopCount =>
    intro b hb
    rw [List.mem_singleton.mp hb]
    exact hLoopValid hValid
  | setBufferPosition position =>
    intro b hb
    rw [List.mem_singleton.mp hb]
    exact hValid
  | setBufferPositionAndLoop position loopStart loopEnd loopCount =>
    intro b hb
    rcases List.mem_cons.mp hb with hFirst | hSecond
    · rw [hFirst]
      exact hValid.1
    · rw [List.mem_singleton.mp hSecond]
      exact hLoopValid hValid.2

theorem allParts_valid {as : List StaticCommand} (hValid : ∀ a ∈ as, a.Valid frameCount) :
    ∀ b ∈ StaticCommand.allParts as, PartValid frameCount b := by
  induction as with
  | nil =>
    intro b hb
    cases hb
  | cons a as ih =>
    intro b hb
    rw [StaticCommand.allParts_cons] at hb
    rcases List.mem_append.mp hb with hOld | hNew
    · exact ih (fun c hc => hValid c (List.mem_cons_of_mem _ hc)) b hOld
    · exact (hValid a List.mem_cons_self).parts b hNew

/- A command adds its parts to the batch. -/
theorem Batch.call (hSize : frameCount < 2 ^ 32) {d : Int} {m : Nat} {s : StaticState}
    {ps : List Playback.Command} {t : StaticPair} (h : Batch d m s ps t.cblk t.client)
    (hGt : -2 ^ 31 < d) (hLt : d < 2 ^ 31) {a : StaticCommand} (hValid : a.Valid frameCount)
    (hFew : (a.parts ++ ps).length < 2 ^ 31 - 1) :
    Batch d m s (a.parts ++ ps) (t.call a).cblk (t.call a).client ∧
      (t.call a).server = t.server := by
  rw [List.length_append] at hFew
  refine ⟨?_, rfl⟩
  cases a with
  | setLoop loopStart loopEnd loopCount =>
    simp only [StaticCommand.parts, List.length_singleton] at hFew
    exact h.setLoop hGt hLt (by omega) hValid.1 hValid.2.1 loopCount
  | setBufferPosition position =>
    simp only [StaticCommand.parts, List.length_singleton] at hFew
    have hPosition : position ≤ frameCount := hValid
    exact h.setBufferPosition hGt hLt (by omega) (by omega)
  | setBufferPositionAndLoop position loopStart loopEnd loopCount =>
    simp only [StaticCommand.parts, List.length_cons, List.length_nil] at hFew
    rcases hValid with ⟨hPosition, hStart, hEnd, -⟩
    have hLoop := h.setLoop hGt hLt (by omega) hStart hEnd loopCount
    exact hLoop.setBufferPosition hGt hLt (by rw [List.length_cons]; omega) (by omega)

theorem Batch.calls (hSize : frameCount < 2 ^ 32) {d : Int} {m : Nat} {s : StaticState}
    {as : List StaticCommand} {ps : List Playback.Command} {t : StaticPair}
    (h : Batch d m s ps t.cblk t.client) (hGt : -2 ^ 31 < d) (hLt : d < 2 ^ 31)
    (hValid : ∀ a ∈ as, a.Valid frameCount)
    (hFew : (StaticCommand.allParts as ++ ps).length < 2 ^ 31 - 1) :
    Batch d m s (StaticCommand.allParts as ++ ps) (as.foldl StaticPair.call t).cblk
        (as.foldl StaticPair.call t).client ∧
      (as.foldl StaticPair.call t).server = t.server := by
  induction as generalizing t ps with
  | nil => exact ⟨h, rfl⟩
  | cons a as ih =>
    rw [StaticCommand.allParts_cons, List.append_assoc] at *
    have hFirst :=
      h.call hSize hGt hLt (hValid a List.mem_cons_self) (by rw [List.length_append] at hFew; omega)
    have hRest := ih hFirst.1 (fun b hb => hValid b (List.mem_cons_of_mem _ hb)) hFew
    exact ⟨hRest.1, hRest.2.trans hFirst.2⟩

/- A synchronized pair starts an empty batch. -/
theorem Synced.batch {t : StaticPair} (h : Synced frameCount t) :
    let d :=
      (t.server.mState.mLoopSequence - t.server.mState.mPositionSequence).toInt
    ∃ m,
      t.server.mObserver.mSequence = BitVec.ofNat 32 (2 * m) ∧
        Batch d m t.server.mState [] t.cblk t.client := by
  rcases h.queue with ⟨m, hQueue, hMutator, hObserver⟩
  refine ⟨m, hObserver, ?_⟩
  constructor
  · exact hQueue
  · exact hMutator
  · intro hSome
    exact absurd rfl hSome
  · refine ⟨_, 0, ?_, ?_, Apart.init h.apart BitVec.toInt_lt, trivial⟩
    · rw [h.loopSequence, BitVec.ofInt_toInt]
      grind
    · rw [h.positionSequence]
      simp
  · intro l hNone
    cases hNone
  · intro q hNone
    cases hNone

/- One poll carries out the newest command of each kind. -/
theorem Synced.pollOnce (hSize : frameCount < 2 ^ 32) {t : StaticPair} (h : Synced frameCount t)
    (as : List StaticCommand) (hValid : ∀ a ∈ as, a.Valid frameCount)
    (hFew : (StaticCommand.allParts as).length < 2 ^ 31 - 1) :
    (t.pollOnce frameCount as).server.mState.playback =
        t.server.mState.playback.coalesced (StaticCommand.allParts as) ∧
      Synced frameCount (t.pollOnce frameCount as) := by
  rcases h.batch with ⟨m, hObserver, hBatch⟩
  have hCalls :=
    hBatch.calls hSize h.apart BitVec.toInt_lt hValid (by rw [List.append_nil]; exact hFew)
  rw [List.append_nil] at hCalls
  cases as with
  | nil =>
    have hSame : t.pollOnce frameCount [] = t := h.poll
    rw [hSame]
    exact ⟨rfl, h⟩
  | cons a as =>
    have hSome : StaticCommand.allParts (a :: as) ≠ [] := by
      rw [StaticCommand.allParts_cons]
      intro hNil
      have hParts := (List.append_eq_nil_iff.mp hNil).2
      cases a <;> cases hParts
    have hParts := allParts_valid hValid
    unfold StaticPair.pollOnce
    generalize List.foldl StaticPair.call t (a :: as) = r at hCalls
    rcases r with ⟨c, p, q⟩
    rcases hCalls with ⟨hEnd, hServer⟩
    simp only at hServer
    subst hServer
    exact hEnd.poll rfl h.apart hObserver hSome hFew hParts h.wf

/- One command alone is carried out as it is. -/
theorem coalesced_parts (b : Playback) (a : StaticCommand) :
    b.coalesced a.parts = b.run a.parts := by
  rw [Playback.coalesced_eq_iff]
  cases a with
  | setLoop loopStart loopEnd loopCount => exact Or.inl rfl
  | setBufferPosition position =>
    right
    right
    intro x hx
    cases hx
  | setBufferPositionAndLoop position loopStart loopEnd loopCount =>
    right
    right
    intro x hx
    cases hx

/- A poll after every command carries them out in order. -/
theorem Synced.pollEach (hSize : frameCount < 2 ^ 32) {as : List StaticCommand} {t : StaticPair}
    (h : Synced frameCount t) (hValid : ∀ a ∈ as, a.Valid frameCount) :
    (t.pollEach frameCount as).server.mState.playback =
        t.server.mState.playback.run (StaticCommand.allParts as) ∧
      Synced frameCount (t.pollEach frameCount as) := by
  induction as generalizing t with
  | nil => exact ⟨rfl, h⟩
  | cons a as ih =>
    have hOne : StaticCommand.allParts [a] = a.parts := by
      simp [StaticCommand.allParts]
    have hShort : a.parts.length ≤ 2 := by
      cases a <;> simp [StaticCommand.parts]
    have hFirst :=
      h.pollOnce hSize [a]
        (fun b hb => by
          rw [List.mem_singleton.mp hb]
          exact hValid a List.mem_cons_self)
        (by rw [hOne]; omega)
    rw [hOne, coalesced_parts] at hFirst
    have hRest := ih hFirst.2 (fun b hb => hValid b (List.mem_cons_of_mem _ hb))
    refine ⟨?_, hRest.2⟩
    have hSplit :
        t.pollEach frameCount (a :: as) = (t.pollOnce frameCount [a]).pollEach frameCount as :=
      rfl
    rw [hSplit, hRest.1, hFirst.1, StaticCommand.allParts_cons, Playback.run_append]

/-
  Polled one by one, the commands are carried out in order. Polled once after fewer than 2^31 - 1
  loops and positions, they leave the same state exactly if no command that was overwritten would
  have ended the loop or restarted the position.
-/
theorem pollOnce_eq_pollEach_iff {frameCount : Nat} (hSize : frameCount < 2 ^ 32) {t : StaticPair}
    (h : Synced frameCount t) {as : List StaticCommand} (hValid : ∀ a ∈ as, a.Valid frameCount)
    (hFew : (StaticCommand.allParts as).length < 2 ^ 31 - 1) :
    (t.pollEach frameCount as).server.mState.playback =
        t.server.mState.playback.run (StaticCommand.allParts as) ∧
      ((t.pollOnce frameCount as).server.mState.playback =
          (t.pollEach frameCount as).server.mState.playback ↔
        t.server.mState.playback.Kept (StaticCommand.allParts as)) := by
  have hEach := (h.pollEach hSize hValid).1
  refine ⟨hEach, ?_⟩
  rw [hEach, (h.pollOnce hSize as hValid hFew).1, Playback.coalesced_eq_iff]

/- A loop that no position has ended. -/
def keptLoop : List StaticCommand :=
  [.setLoop 0 50 (-1), .setBufferPosition 10, .setBufferPositionAndLoop 20 0 40 3]

theorem pollOnce_eq_pollEach_iff_keptLoop :
    ((StaticPair.init 100).pollOnce 100 keptLoop).server.mState.playback =
      ((StaticPair.init 100).pollEach 100 keptLoop).server.mState.playback := by
  apply (pollOnce_eq_pollEach_iff (by decide) (Synced.init 100) ?_ (by decide)).2.mpr
  · right
    right
    intro x hx
    cases hx
  · simp [keptLoop, StaticCommand.Valid, StaticCommand.ValidLoop, minLoop]

/-
  An endless loop, a position behind its end and one in front of it: one by one they end the loop,
  coalesced they leave it.
-/
def lostEnd : List StaticCommand :=
  [.setLoop 0 50 (-1), .setBufferPosition 60, .setBufferPosition 10]

theorem pollOnce_lostEnd :
    (∀ a ∈ lostEnd, a.Valid 100) ∧
      ((StaticPair.init 100).pollEach 100 lostEnd).server.mState.mLoopCount = 0 ∧
      ((StaticPair.init 100).pollOnce 100 lostEnd).server.mState.mLoopCount = -1 ∧
      ((StaticPair.init 100).pollOnce 100 lostEnd).server.mState.mPosition = 10 := by
  refine ⟨?_, by decide, by decide, by decide⟩
  simp [lostEnd, StaticCommand.Valid, StaticCommand.ValidLoop, minLoop]

end AudioTrackShared

end FrameworksAv
