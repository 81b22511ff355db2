import FrameworksAv.AudioMixer.Track
import FrameworksAv.Base.Mask

/-
  The two generic ways to mix a period (`AudioMixer::process__genericNoResampling` and
  `AudioMixer::process__genericResampling`).

  Both go through groups of tracks with the same main buffer. The first one mixes a group block by
  block, the second one track by track.

  Main declarations:
    * `Mixer.process__genericNoResampling`
    * `Mixer.process__genericResampling`
    * `Mixer.tracks_noResampling`, `Mixer.tracks_resampling`
-/

--
-- Model
--

namespace FrameworksAv

namespace AudioMixer

/- `AudioMixer::state_t`. -/
structure Mixer where
  enabledTracks : BitVec 32
  frameCount : Nat
  tracks : Nat → Track

/-
  While a period is mixed block by block: the tracks, those that are not dry, and those of the
  current group.
-/
structure Mixing where
  tracks : Nat → Track
  enabledTracks : BitVec 32
  e1 : BitVec 32

namespace Track

/- The first buffer of the period. -/
def acquire (frameCount : Nat) (t : Track) : Track :=
  let next := t.getNextBuffer frameCount
  { next with
    frameCount := narrow next.buffer.frameCount
    inp := next.buffer.raw }

/- Where the aux send of a track starts. -/
def aux (t : Track) (frame : Nat) : Option Nat :=
  if t.needsAux then some frame else none

/- A track for `process__genericResampling`. -/
def mix (main numFrames : Nat) (t : Track) : Track :=
  if t.needsResample then
    { t with
      log := t.log ++ [.resample main numFrames (t.aux 0)] }
  else t.mixPeriod main numFrames 0 (t.aux 0)

end Track

namespace Mixing

/- One block of one track of the group. -/
def mixTrack (main frameCount numFrames : Nat) (m : Mixing) (i : Nat) : Mixing :=
  let mixed :=
    (m.tracks i).mixBlock main frameCount numFrames BLOCKSIZE ((m.tracks i).aux numFrames)
  { tracks := Function.update m.tracks i mixed.1
    enabledTracks := if mixed.2 then m.enabledTracks
      else Mask.clear m.enabledTracks i
    e1 := if mixed.2 then m.e1 else Mask.clear m.e1 i }

/- The blocks of a group, from frame `numFrames` on. -/
def mixGroup (main frameCount numFrames : Nat) (m : Mixing) : Mixing :=
  let m := (Mask.bits m.e1).foldl (mixTrack main frameCount numFrames) m
  if numFrames + BLOCKSIZE < frameCount then mixGroup main frameCount (numFrames + BLOCKSIZE) m
  else m
termination_by frameCount - numFrames
decreasing_by
  unfold BLOCKSIZE at *
  omega

end Mixing

namespace Mixer

def process__genericNoResampling (s : Mixer) : Mixer :=
  let acquired :=
    (Mask.bits s.enabledTracks).foldl
      (fun tracks i =>
        Function.update tracks i ((tracks i).acquire s.frameCount))
      s.tracks
  let mixed :=
    Mask.forGroups (fun m i => (m.tracks i).mainBuffer)
      (fun m i e1 =>
        Mixing.mixGroup (m.tracks i).mainBuffer s.frameCount 0 { m with e1 := e1 })
      s.enabledTracks ⟨acquired, s.enabledTracks, 0⟩
  { s with
    tracks :=
      (Mask.bits mixed.enabledTracks).foldl
        (fun tracks i =>
          Function.update tracks i (tracks i).releaseBuffer)
        mixed.tracks }

def process__genericResampling (s : Mixer) : Mixer :=
  { s with
    tracks :=
      Mask.forGroups (fun tracks i => (tracks i).mainBuffer)
        (fun tracks i e1 =>
          (Mask.bits e1).foldl
            (fun tracks' j =>
              Function.update tracks' j ((tracks' j).mix (tracks i).mainBuffer s.frameCount))
            tracks)
        s.enabledTracks s.tracks }

end Mixer

--
-- Tracks
--

/-
  What is seen of one track while a group is mixed: the track, whether it is not dry, and whether it
  is in the group.
-/
structure Seen where
  track : Track
  live : Bool
  inGroup : Bool

namespace Seen

/- One block. -/
def block (main frameCount numFrames : Nat) (v : Seen) : Seen :=
  let mixed := v.track.mixBlock main frameCount numFrames BLOCKSIZE (v.track.aux numFrames)
  ⟨mixed.1, v.live && mixed.2, v.inGroup && mixed.2⟩

/- The blocks of a period. -/
def blocks (main frameCount numFrames : Nat) (v : Seen) : Seen :=
  let v := if v.inGroup = true then v.block main frameCount numFrames else v
  if numFrames + BLOCKSIZE < frameCount then blocks main frameCount (numFrames + BLOCKSIZE) v
  else v
termination_by frameCount - numFrames
decreasing_by
  unfold BLOCKSIZE at *
  omega

/- A track outside the group is left alone. -/
theorem blocks_outside {v : Seen} (hOut : v.inGroup = false) (main frameCount numFrames : Nat) :
    v.blocks main frameCount numFrames = v := by
  induction numFrames, v using blocks.induct main frameCount with
  | case1 numFrames v v' hMore ih =>
    have hSame : v' = v := if_neg (by rw [hOut]; nofun)
    unfold blocks
    simp only [if_pos hMore]
    exact (ih (hSame ▸ hOut)).trans hSame
  | case2 numFrames v hLast =>
    unfold blocks
    simp only [if_neg hLast]
    exact if_neg (by rw [hOut]; nofun)

end Seen

namespace Track

/- What `process__genericNoResampling` does to one track. -/
def noResampling (frameCount : Nat) (t : Track) : Track :=
  let mixed := Seen.blocks t.mainBuffer frameCount 0 ⟨t.acquire frameCount, true, true⟩
  if mixed.live = true then mixed.track.releaseBuffer
  else mixed.track

/- What `process__genericResampling` does to one track. -/
def resampling (frameCount : Nat) (t : Track) : Track :=
  t.mix t.mainBuffer frameCount

@[simp] theorem acquire_mainBuffer (frameCount : Nat) (t : Track) :
    (t.acquire frameCount).mainBuffer = t.mainBuffer := by
  unfold acquire getNextBuffer
  cases t.offers with
  | nil => rfl
  | cons offer offers =>
    simp only
    split <;> rfl

end Track

namespace Mixing

/- What is seen of a track. -/
def see (m : Mixing) (j : Nat) : Seen :=
  ⟨m.tracks j, m.enabledTracks.getLsbD j, m.e1.getLsbD j⟩

theorem see_mixTrack (main frameCount numFrames : Nat) (m : Mixing) (i j : Nat) :
    (m.mixTrack main frameCount numFrames i).see j =
      if j = i then (m.see j).block main frameCount numFrames
      else m.see j := by
  unfold mixTrack see Seen.block
  by_cases hEq : j = i
  · rw [hEq, if_pos rfl]
    simp only [Function.update_self]
    split
    · rename_i hLive
      simp [hLive]
    · rename_i hDry
      simp [hDry]
  · rw [if_neg hEq]
    simp only [Function.update_of_ne hEq]
    split
    · rfl
    · simp [hEq]

theorem see_mixGroup (main frameCount numFrames : Nat) (m : Mixing) (j : Nat) :
    (m.mixGroup main frameCount numFrames).see j = (m.see j).blocks main frameCount numFrames := by
  induction numFrames, m using mixGroup.induct main frameCount with
  | case1 numFrames m mixed hMore ih =>
    unfold mixGroup Seen.blocks
    simp only [if_pos hMore]
    have hBlock :=
      Mask.foldl_view see (fun _ v => v.block main frameCount numFrames)
        (see_mixTrack main frameCount numFrames) (Mask.bits_nodup m.e1) m j
    simp only [Mask.mem_bits] at hBlock
    rw [ih, hBlock]
    rfl
  | case2 numFrames m hLast =>
    unfold mixGroup Seen.blocks
    simp only [if_neg hLast]
    have hBlock :=
      Mask.foldl_view see (fun _ v => v.block main frameCount numFrames)
        (see_mixTrack main frameCount numFrames) (Mask.bits_nodup m.e1) m j
    simp only [Mask.mem_bits] at hBlock
    rw [hBlock]
    rfl

/- A group mixes its tracks and no other. -/
theorem mixGroup_view (frameCount : Nat) (m : Mixing) (i : Nat) (e1 : BitVec 32) (j : Nat)
    (hMain : ∀ k, e1.getLsbD k = true → (m.tracks k).mainBuffer = (m.tracks i).mainBuffer) :
    (fun m j => (Mixing.tracks m j, m.enabledTracks.getLsbD j))
        (mixGroup (m.tracks i).mainBuffer frameCount 0 { m with e1 := e1 }) j =
      if e1.getLsbD j = true then
        (let seen :=
          Seen.blocks (m.tracks j).mainBuffer frameCount 0
            ⟨m.tracks j, m.enabledTracks.getLsbD j, true⟩
        (seen.track, seen.live))
      else (m.tracks j, m.enabledTracks.getLsbD j) := by
  have hSee := see_mixGroup (m.tracks i).mainBuffer frameCount 0 { m with e1 := e1 } j
  have hTrack := congrArg Seen.track hSee
  have hLive := congrArg Seen.live hSee
  simp only [see] at hTrack hLive
  by_cases hIn : e1.getLsbD j = true
  · rw [if_pos hIn, hMain j hIn]
    simp only
    rw [hTrack, hLive, hIn]
  · have hOut : e1.getLsbD j = false := eq_false_of_ne_true hIn
    rw [Seen.blocks_outside hOut] at hTrack hLive
    rw [if_neg hIn]
    exact Prod.ext hTrack hLive

end Mixing

namespace Mixer

/- Each track changes as if it were alone. -/
theorem tracks_noResampling (s : Mixer) (j : Nat) :
    s.process__genericNoResampling.tracks j =
      if s.enabledTracks.getLsbD j = true then (s.tracks j).noResampling s.frameCount
      else s.tracks j := by
  unfold process__genericNoResampling
  simp only
  generalize hAcquired :
    (Mask.bits s.enabledTracks).foldl
      (fun tracks i =>
        Function.update tracks i ((tracks i).acquire s.frameCount))
      s.tracks = acquired
  have hFirst :
      acquired j = if s.enabledTracks.getLsbD j = true then (s.tracks j).acquire s.frameCount
        else s.tracks j := by
    have hFold := Mask.foldl_update (Track.acquire s.frameCount) s.enabledTracks s.tracks j
    rw [hAcquired] at hFold
    exact hFold
  generalize hMixed :
    Mask.forGroups (fun m i => (Mixing.tracks m i).mainBuffer)
      (fun m i e1 =>
        Mixing.mixGroup (m.tracks i).mainBuffer s.frameCount 0 { m with e1 := e1 })
      s.enabledTracks ⟨acquired, s.enabledTracks, 0⟩ = mixed
  have hGroups :=
    Mask.forGroups_view (fun m j => (Mixing.tracks m j, m.enabledTracks.getLsbD j))
      (fun _ v =>
        let seen := Seen.blocks v.1.mainBuffer s.frameCount 0 ⟨v.1, v.2, true⟩
        (seen.track, seen.live))
      (Mixing.mixGroup_view s.frameCount) s.enabledTracks ⟨acquired, s.enabledTracks, 0⟩ j
  rw [hMixed] at hGroups
  rw [Mask.foldl_update Track.releaseBuffer]
  by_cases hSet : s.enabledTracks.getLsbD j = true
  · rw [if_pos hSet] at hFirst hGroups
    have hTrack := congrArg Prod.fst hGroups
    have hLive := congrArg Prod.snd hGroups
    simp only [hFirst, hSet, Track.acquire_mainBuffer] at hTrack hLive
    rw [if_pos hSet, hTrack, hLive]
    rfl
  · rw [if_neg hSet] at hFirst hGroups
    have hTrack := congrArg Prod.fst hGroups
    have hLive := congrArg Prod.snd hGroups
    simp only at hTrack hLive
    rw [if_neg hSet, hTrack, hLive, if_neg hSet, hFirst]

/- Each track changes as if it were alone. -/
theorem tracks_resampling (s : Mixer) (j : Nat) :
    s.process__genericResampling.tracks j =
      if s.enabledTracks.getLsbD j = true then (s.tracks j).resampling s.frameCount
      else s.tracks j := by
  have hBody :
      ∀ (tracks : Nat → Track) (i : Nat) (e1 : BitVec 32) (k : Nat),
        (∀ l, e1.getLsbD l = true → (tracks l).mainBuffer = (tracks i).mainBuffer) →
          (Mask.bits e1).foldl
              (fun tracks' l =>
                Function.update tracks' l ((tracks' l).mix (tracks i).mainBuffer s.frameCount))
              tracks k =
            if e1.getLsbD k = true then (tracks k).resampling s.frameCount
            else tracks k := by
    intro tracks i e1 k hKey
    have hFold := Mask.foldl_update (Track.mix (tracks i).mainBuffer s.frameCount) e1 tracks k
    refine hFold.trans ?_
    by_cases hIn : e1.getLsbD k = true
    · rw [if_pos hIn, if_pos hIn, ← hKey k hIn]
      rfl
    · rw [if_neg hIn, if_neg hIn]
  exact
    Mask.forGroups_view (fun tracks k => tracks k) (fun _ t => t.resampling s.frameCount) hBody
      s.enabledTracks s.tracks j

end Mixer

end AudioMixer

end FrameworksAv
