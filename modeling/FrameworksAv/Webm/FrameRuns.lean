import FrameworksAv.Webm.FrameSink

/-
  The thread writes the clusters of the groups.

  A flush is followed through its loop: at every turn the children are those of the cluster that is
  open, and the full ones have been written.

  Main declarations:
    * `flushFrame_near`, `flushFrame_far`
    * `flushFrames_last`, `flushFrames_key`
    * `Sink.run_groups`
-/

--
-- Clusters
--

namespace FrameworksAv

namespace Webm

theorem Cluster.splitOff_near {c : Cluster} {f : WebmFrame} (rest : List WebmFrame)
    (hNear : c.first.Near f) : c.splitOff (f :: rest) = (c.add [f]).splitOff rest := by
  rw [splitOff, if_pos hNear]

theorem Cluster.splitOff_far {c : Cluster} {f : WebmFrame} (rest : List WebmFrame)
    (hFar : ¬ c.first.Near f) :
    c.splitOff (f :: rest) = (c :: (splitOff ⟨f, []⟩ rest).1, (splitOff ⟨f, []⟩ rest).2) := by
  rw [splitOff, if_neg hFar]

variable (totalSize : WebmElement → Nat)

theorem endOf_append (position : Nat) (cs ds : List Cluster) :
    endOf totalSize position (cs ++ ds) = endOf totalSize (endOf totalSize position cs) ds := by
  induction cs generalizing position with
  | nil => rfl
  | cons c cs ih => exact ih _

theorem placed_append (position : Nat) (cs ds : List Cluster) :
    placed totalSize position (cs ++ ds) =
      placed totalSize position cs ++ placed totalSize (endOf totalSize position cs) ds := by
  induction cs generalizing position with
  | nil => rfl
  | cons c cs ih => exact congrArg ((position, c) :: ·) (ih _)

theorem Out.append_append (out : Out) (cs ds : List Cluster) :
    (out.append totalSize cs).append totalSize ds = out.append totalSize (cs ++ ds) := by
  unfold Out.append
  dsimp only
  rw [endOf_append, placed_append, List.map_append, List.append_assoc]

theorem Out.append_nil (out : Out) : out.append totalSize [] = out := by
  unfold Out.append placed endOf
  rw [List.map_nil, List.append_nil]

end Webm

--
-- A Flush
--

namespace Webm

variable {totalSize : WebmElement → Nat}

/- The variables while a cluster is open. -/
def Cluster.flush (c : Cluster) (frames : List WebmFrame) (cue : WebmFrame)
    (out : Out) : Flush where
  frames := frames
  clusterTimecodeL := c.first.mAbsTimecode
  children := c.children
  cueTime := cue.mAbsTimecode
  out := out

def nextCue (cue f : WebmFrame) : WebmFrame :=
  if f.starts then f else cue

theorem nextCue_time (cue f : WebmFrame) :
    (nextCue cue f).mAbsTimecode = if f.mType = .kVideoType ∧ f.mKey then f.mAbsTimecode
      else cue.mAbsTimecode := by
  unfold nextCue WebmFrame.starts
  by_cases hKey : f.mType = .kVideoType ∧ f.mKey
  · rw [if_pos (decide_eq_true hKey), if_pos hKey]
  · rw [if_neg (by rw [decide_eq_false hKey]; nofun), if_neg hKey]

/- The difference that is compared. -/
theorem time_sub {base f : WebmFrame} (hOrder : base.time ≤ f.time) :
    (f.mAbsTimecode - base.mAbsTimecode).toNat = f.time - base.time := by
  apply BitVec.toNat_sub_of_le
  exact BitVec.le_def.mpr hOrder

theorem near_iff {base f : WebmFrame} (hOrder : base.time ≤ f.time) :
    base.Near f ↔ ¬ (f.mAbsTimecode - base.mAbsTimecode).toNat > INT16_MAX := by
  rw [time_sub hOrder]
  unfold WebmFrame.Near
  omega

theorem writeCluster_cluster (c : Cluster) (out : Out) :
    writeCluster totalSize c.children out = .returns (out.append totalSize [c]) := by
  unfold writeCluster
  dsimp only
  rw [Result.check, if_pos]
  · exact rfl
  · unfold Cluster.children Cluster.frames
    rw [List.map_cons, List.length_cons, List.length_cons]
    omega

theorem Cluster.add_children (c : Cluster) (frames : List WebmFrame) :
    (c.add frames).children = c.children ++ frames.map (·.SimpleBlock c.first.mAbsTimecode) := by
  unfold Cluster.children Cluster.frames Cluster.add
  dsimp only
  rw [← List.cons_append, List.map_append, List.cons_append]

/- A turn of the loop, with the cluster that it adds to. -/
theorem flushFrame_near {c : Cluster} {f : WebmFrame} (rest : List WebmFrame) (cue : WebmFrame)
    (out : Out) (hOrder : c.first.time ≤ f.time) (hNear : c.first.Near f) :
    flushFrame totalSize (c.flush (f :: rest) cue out) =
      .returns ((c.add [f]).flush rest (nextCue cue f) out) := by
  have hClose := (near_iff hOrder).mp hNear
  unfold flushFrame Cluster.flush
  rw [Cluster.add_children, nextCue_time]
  by_cases hKey : f.mType = .kVideoType ∧ f.mKey
  · dsimp only
    rw [if_pos hKey, if_pos hKey]
    dsimp only
    rw [if_neg hClose]
    exact rfl
  · dsimp only
    rw [if_neg hKey, if_neg hKey]
    dsimp only
    rw [if_neg hClose]
    exact rfl

/- A turn that writes a cluster and opens another one. -/
theorem flushFrame_far {c : Cluster} {f : WebmFrame} (rest : List WebmFrame) (cue : WebmFrame)
    (out : Out) (hOrder : c.first.time ≤ f.time) (hFar : ¬ c.first.Near f) :
    flushFrame totalSize (c.flush (f :: rest) cue out) =
      .returns (Cluster.flush ⟨f, []⟩ rest (nextCue cue f) (out.append totalSize [c])) := by
  have hLong : (f.mAbsTimecode - c.first.mAbsTimecode).toNat > INT16_MAX := by
    by_contra hClose
    exact hFar ((near_iff hOrder).mpr hClose)
  unfold flushFrame Cluster.flush
  rw [nextCue_time]
  by_cases hKey : f.mType = .kVideoType ∧ f.mKey
  · dsimp only
    rw [if_pos hKey, if_pos hKey]
    dsimp only
    rw [if_pos hLong, writeCluster_cluster]
    exact rfl
  · dsimp only
    rw [if_neg hKey, if_neg hKey]
    dsimp only
    rw [if_pos hLong, writeCluster_cluster]
    exact rfl

/- The whole loop; the frames behind are not touched. -/
theorem flushLoop_flush (frames rest : List WebmFrame) (c : Cluster) (cue : WebmFrame) (out : Out)
    (hSorted : (c.first :: frames).Pairwise (fun f g => f.time ≤ g.time)) :
    flushLoop totalSize frames.length (c.flush (frames ++ rest) cue out) =
      .returns
        ((c.splitOff frames).2.flush rest (frames.foldl nextCue cue)
          (out.append totalSize (c.splitOff frames).1)) := by
  induction frames generalizing c cue out with
  | nil =>
    rw [Cluster.splitOff, Out.append_nil]
    exact rfl
  | cons f frames ih =>
    rw [List.length_cons, flushLoop, List.cons_append]
    have hOrder : c.first.time ≤ f.time := (List.pairwise_cons.mp hSorted).1 f List.mem_cons_self
    by_cases hNear : c.first.Near f
    · rw [flushFrame_near _ _ _ hOrder hNear, Result.bind_returns, Cluster.splitOff_near _ hNear]
      apply ih
      exact hSorted.sublist ((List.sublist_cons_self f frames).cons_cons _)
    · rw [flushFrame_far _ _ _ hOrder hNear, Result.bind_returns, Cluster.splitOff_far _ hNear,
        ih ⟨f, []⟩ _ _ (List.pairwise_cons.mp hSorted).2, Out.append_append, List.foldl_cons]
      exact rfl

--
-- Groups
--

variable {mSegmentDataStart : BitVec 64}

/- The variables before the first frame is taken. -/
def openFlush (first : WebmFrame) (frames : List WebmFrame) (out : Out) : Flush where
  frames := frames
  clusterTimecodeL := first.mAbsTimecode
  children := [.leaf (.WebmUnsigned .kMkvTimecode first.mAbsTimecode)]
  cueTime := first.mAbsTimecode
  out := out

theorem flushFrame_first (first : WebmFrame) (rest : List WebmFrame) (out : Out) :
    flushFrame totalSize (openFlush first (first :: rest) out) =
      .returns (Cluster.flush ⟨first, []⟩ rest first out) := by
  have hClose : ¬ (first.mAbsTimecode - first.mAbsTimecode).toNat > INT16_MAX := by
    rw [BitVec.sub_self]
    decide
  unfold flushFrame openFlush
  by_cases hKey : first.mType = .kVideoType ∧ first.mKey
  · dsimp only
    rw [if_pos hKey]
    dsimp only
    rw [if_neg hClose]
    exact rfl
  · dsimp only
    rw [if_neg hKey]
    dsimp only
    rw [if_neg hClose]
    exact rfl

/- The first frames of a group, up to the one held back. -/
theorem flushLoop_open (first : WebmFrame) (others rest : List WebmFrame) (out : Out)
    (hSorted : (first :: others).Pairwise (fun f g => f.time ≤ g.time)) :
    flushLoop totalSize (others.length + 1) (openFlush first (first :: (others ++ rest)) out) =
      .returns
        ((Cluster.splitOff ⟨first, []⟩ others).2.flush rest (others.foldl nextCue first)
          (out.append totalSize (Cluster.splitOff ⟨first, []⟩ others).1)) := by
  rw [flushLoop, flushFrame_first, Result.bind_returns]
  exact flushLoop_flush others rest ⟨first, []⟩ first out hSorted

theorem Group.cueFrame_eq (g : Group) : g.cueFrame = g.others.foldl nextCue g.first := by
  unfold Group.cueFrame Group.shown
  rw [List.foldl_cons]
  by_cases hStarts : g.first.starts
  · rw [if_pos hStarts]
    exact rfl
  · rw [if_neg hStarts]
    exact rfl

/-
  A flush, by the frames that are left when its loop ends and what is done with the first of them.
-/
theorem flushFrames_eq {g : Group} {frames rest left : List WebmFrame} (last : Bool) (out : Out)
    (hFrames : frames = g.first :: (g.others ++ rest))
    (hSorted : (g.first :: g.others).Pairwise (fun f g => f.time ≤ g.time))
    (hLength : last ∨ 2 ≤ frames.length)
    (hCount : (if last then frames.length else frames.length - 2) = g.others.length + 1)
    (hLeft :
      takeSecondLast (g.split.2.flush rest g.cueFrame (out.append totalSize g.split.1)) =
        (g.split.2.add g.held.toList).flush left g.cueFrame (out.append totalSize g.split.1)) :
    flushFrames totalSize mSegmentDataStart frames last out =
      .returns (left, out.put totalSize mSegmentDataStart g) := by
  subst hFrames
  unfold flushFrames
  rw [if_neg (List.cons_ne_nil _ _), initCluster, Result.check, if_pos rfl, Result.bind_returns]
  dsimp only
  rw [Result.check, if_pos hLength, hCount]
  change (flushLoop totalSize _ (openFlush _ _ _)).bind _ = _
  rw [flushLoop_open g.first g.others rest out hSorted, Result.bind_returns]
  rw [Group.cueFrame_eq] at hLeft
  unfold Group.split at hLeft
  rw [hLeft]
  unfold Cluster.flush
  rw [writeCluster_cluster, Out.append_append, ← Group.cueFrame_eq]
  exact rfl

/- The flush at the end takes all frames. -/
theorem flushFrames_last (first : WebmFrame) (others : List WebmFrame) (out : Out)
    (hSorted : (first :: others).Pairwise (fun f g => f.time ≤ g.time)) :
    flushFrames totalSize mSegmentDataStart (first :: others) true out =
      .returns ([], out.put totalSize mSegmentDataStart ⟨first, others, none⟩) := by
  have hFrames : first :: others = first :: (others ++ []) := by
    rw [List.append_nil]
  apply flushFrames_eq (g := ⟨first, others, none⟩) true out hFrames hSorted (.inl rfl) rfl
  · unfold Group.split Cluster.add
    dsimp only [Option.toList_none]
    rw [List.append_nil]
    exact rfl

theorem cut_nil (first key : WebmFrame) : cut first [] key = (⟨first, [], none⟩, key, []) :=
  rfl

theorem cut_video (first : WebmFrame) (others : List WebmFrame) {second : WebmFrame}
    (key : WebmFrame) (hVideo : second.mType = .kVideoType) :
    cut first (others ++ [second]) key = (⟨first, others, some second⟩, key, []) := by
  unfold cut
  rw [List.getLast?_concat]
  dsimp only
  rw [if_pos hVideo, List.dropLast_concat]

theorem cut_audio (first : WebmFrame) (others : List WebmFrame) {second : WebmFrame}
    (key : WebmFrame) (hAudio : second.mType ≠ .kVideoType) :
    cut first (others ++ [second]) key = (⟨first, others, none⟩, second, [key]) := by
  unfold cut
  rw [List.getLast?_concat]
  dsimp only
  rw [if_neg hAudio, List.dropLast_concat]

/- A group with one frame only: its loop makes no turn. -/
theorem flushFrames_pair (first key : WebmFrame) (out : Out) (hVideo : first.mType = .kVideoType) :
    flushFrames totalSize mSegmentDataStart [first, key] false out =
      .returns ([key], out.put totalSize mSegmentDataStart ⟨first, [], none⟩) := by
  have hCue : (Group.mk first [] none).cueFrame = first := by
    rw [Group.cueFrame_eq]
    exact rfl
  have hChildren :
      [WebmElement.leaf (.WebmUnsigned .kMkvTimecode first.mAbsTimecode)] ++
        [first.SimpleBlock first.mAbsTimecode] =
      (Cluster.mk first []).children := rfl
  unfold flushFrames
  rw [if_neg (List.cons_ne_nil _ _), initCluster, Result.check, if_pos rfl, Result.bind_returns]
  dsimp only
  rw [Result.check, if_pos (.inr (Nat.le_refl 2))]
  change
    (writeCluster totalSize
        (takeSecondLast (openFlush first [first, key] out)).children _).map _ = _
  unfold takeSecondLast openFlush
  dsimp only
  rw [if_pos hVideo]
  dsimp only
  rw [hChildren, writeCluster_cluster]
  unfold Out.put
  rw [hCue]
  exact rfl

/-
  A flush before a video key frame. The frame in front of it is a video key frame when it is the
  only one.
-/
theorem flushFrames_key (totalSize : WebmElement → Nat) (mSegmentDataStart : BitVec 64)
    (first : WebmFrame) (others : List WebmFrame) (key : WebmFrame) (out : Out)
    (hSorted : (first :: others).Pairwise (fun f g => f.time ≤ g.time))
    (hVideo : others = [] → first.mType = .kVideoType) :
    flushFrames totalSize mSegmentDataStart (first :: (others ++ [key])) false out =
      .returns
        ((cut first others key).2.1 :: (cut first others key).2.2,
          out.put totalSize mSegmentDataStart (cut first others key).1) := by
  rcases List.eq_nil_or_concat' others with
    rfl | ⟨others, second, rfl⟩
  · exact flushFrames_pair first key out (hVideo rfl)
  have hFrames :
      first :: (others ++ [second] ++ [key]) =
        first :: (others ++ [second, key]) := by
    rw [List.append_assoc]
    exact rfl
  have hShown : (first :: others).Pairwise (fun f g => f.time ≤ g.time) := by
    rw [← List.cons_append] at hSorted
    exact (List.pairwise_append.mp hSorted).1
  have hTwo : 2 ≤ (first :: (others ++ [second] ++ [key])).length := by
    simp only [List.length_cons, List.length_append]
    omega
  have hCount : (first :: (others ++ [second] ++ [key])).length - 2 = others.length + 1 := by
    simp only [List.length_cons, List.length_append, List.length_nil]
    omega
  by_cases hSecond : second.mType = .kVideoType
  · rw [cut_video _ _ _ hSecond]
    apply flushFrames_eq (g := ⟨first, others, some second⟩) false
      out hFrames hShown (.inr hTwo) hCount
    unfold takeSecondLast Cluster.flush
    dsimp only
    rw [if_pos hSecond, Cluster.add_children]
    exact rfl
  · rw [cut_audio _ _ _ hSecond]
    apply flushFrames_eq (g := ⟨first, others, none⟩) false out hFrames hShown (.inr hTwo) hCount
    unfold takeSecondLast Cluster.flush
    dsimp only
    rw [if_neg hSecond, Cluster.add_children]
    dsimp only [Option.toList_none]
    rw [List.map_nil, List.append_nil]
    exact rfl

end Webm

--
-- The Queues
--

namespace Webm

variable {audio video : List WebmFrame}

/- The frames of both queues, as they are taken. -/
def merged (audio video : List WebmFrame) : List WebmFrame :=
  audio.merge video WebmFrame.less

theorem merged_nil_left (video : List WebmFrame) : merged [] video = video :=
  List.nil_merge video

theorem merged_nil_right (audio : List WebmFrame) : merged audio [] = audio :=
  List.merge_right audio

theorem merged_audio {a v : WebmFrame} (audio video : List WebmFrame) (hLess : a.less v = true) :
    merged (a :: audio) (v :: video) = a :: merged audio (v :: video) :=
  List.cons_merge_cons_pos _ _ _ hLess

theorem merged_video {a v : WebmFrame} (audio video : List WebmFrame) (hLess : ¬ a.less v = true) :
    merged (a :: audio) (v :: video) = v :: merged (a :: audio) video :=
  List.cons_merge_cons_neg _ _ _ hLess

theorem mem_merged {f : WebmFrame} : f ∈ merged audio video ↔ f ∈ audio ∨ f ∈ video :=
  List.mem_merge

theorem Stream.head {type : TrackTypes} {f : WebmFrame} {frames : List WebmFrame}
    (hStream : Stream type (f :: frames)) :
    f.mType = type ∧ f.mEos = false ∧ ∀ g ∈ frames, f.time ≤ g.time := by
  have hHead := hStream.1 f List.mem_cons_self
  exact ⟨hHead.1, hHead.2, (List.pairwise_cons.mp hStream.2).1⟩

theorem Stream.tail {type : TrackTypes} {f : WebmFrame} {frames : List WebmFrame}
    (hStream : Stream type (f :: frames)) : Stream type frames :=
  ⟨fun g hg => hStream.1 g (List.mem_cons_of_mem f hg), (List.pairwise_cons.mp hStream.2).2⟩

/- An audio frame comes first at the same time. -/
theorem audio_less_iff {a v : WebmFrame} (hAudio : a.mType = .kAudioType ∧ a.mEos = false)
    (hVideo : v.mType = .kVideoType ∧ v.mEos = false) : a.less v = true ↔ a.time ≤ v.time := by
  unfold WebmFrame.less WebmFrame.time
  rw [if_neg (by rw [hAudio.2]; nofun), if_neg (by rw [hVideo.2]; nofun)]
  by_cases hSame : a.mAbsTimecode = v.mAbsTimecode
  · rw [if_pos hSame, hSame]
    exact iff_of_true (decide_eq_true ⟨hAudio.1, hVideo.1⟩) (Nat.le_refl _)
  · rw [if_neg hSame, decide_eq_true_iff, BitVec.lt_def]
    have hDiffer : a.mAbsTimecode.toNat ≠ v.mAbsTimecode.toNat := by
      intro hEq
      exact hSame (BitVec.eq_of_toNat_eq hEq)
    omega

theorem merged_sorted (hAudio : Stream .kAudioType audio) (hVideo : Stream .kVideoType video) :
    (merged audio video).Pairwise (fun f g => f.time ≤ g.time) := by
  induction audio generalizing video with
  | nil =>
    rw [merged_nil_left]
    exact hVideo.2
  | cons a audio ihAudio =>
    induction video with
    | nil =>
      rw [merged_nil_right]
      exact hAudio.2
    | cons v video ihVideo =>
      rcases hAudio.head with ⟨hType, hEos, hLater⟩
      rcases hVideo.head with ⟨hvType, hvEos, hvLater⟩
      have hLess := audio_less_iff ⟨hType, hEos⟩ ⟨hvType, hvEos⟩
      by_cases hFirst : a.less v = true
      · rw [merged_audio _ _ hFirst, List.pairwise_cons]
        refine ⟨?_, ihAudio hAudio.tail hVideo⟩
        intro g hg
        have hBefore := hLess.mp hFirst
        rcases mem_merged.mp hg with hg | hg
        · exact hLater g hg
        · rcases List.mem_cons.mp hg with rfl | hg
          · exact hBefore
          · exact Nat.le_trans hBefore (hvLater g hg)
      · rw [merged_video _ _ hFirst, List.pairwise_cons]
        refine ⟨?_, ihVideo hVideo.tail⟩
        intro g hg
        have hBefore : v.time ≤ a.time := by
          have hNot := mt hLess.mpr hFirst
          omega
        rcases mem_merged.mp hg with hg | hg
        · rcases List.mem_cons.mp hg with rfl | hg
          · exact hBefore
          · exact Nat.le_trans hBefore (hLater g hg)
        · exact hvLater g hg

end Webm

--
-- The Thread
--

namespace Webm

/- The groups, after some outstanding frames. -/
def groupsAfter : List WebmFrame → List WebmFrame → List Group
| [], frames => groups frames
| first :: others, frames => groupsFrom first others frames

theorem groupsAfter_key {first : WebmFrame} {others : List WebmFrame} {f : WebmFrame}
    (rest : List WebmFrame) (hKey : (first :: others).any WebmFrame.starts = true)
    (hStarts : f.starts = true) :
    groupsAfter (first :: others) (f :: rest) =
      (cut first others f).1 ::
        groupsAfter ((cut first others f).2.1 :: (cut first others f).2.2) rest := by
  show groupsFrom first others (f :: rest) = _
  rw [groupsFrom, if_pos ⟨hKey, hStarts⟩]
  exact rfl

theorem groupsAfter_other {frames : List WebmFrame} {f : WebmFrame} (rest : List WebmFrame)
    (hOther : ¬ (frames.any WebmFrame.starts = true ∧ f.starts = true)) :
    groupsAfter frames (f :: rest) = groupsAfter (frames ++ [f]) rest := by
  cases frames with
  | nil => exact rfl
  | cons first others =>
    show groupsFrom first others (f :: rest) = _
    rw [groupsFrom, if_neg hOther]
    exact rfl

theorem cut_starts (first : WebmFrame) (others : List WebmFrame) {key : WebmFrame}
    (hStarts : key.starts = true) :
    ((cut first others key).2.1 :: (cut first others key).2.2).any WebmFrame.starts = true := by
  unfold cut
  split
  · rw [List.any_cons, hStarts, Bool.true_or]
  · split
    · rw [List.any_cons, hStarts, Bool.true_or]
    · rw [List.any_cons, List.any_cons, hStarts, Bool.true_or, Bool.or_true]

/- The frames that are left are the last ones. -/
theorem cut_suffix (first : WebmFrame) (others : List WebmFrame) (key : WebmFrame) :
    ((cut first others key).2.1 :: (cut first others key).2.2).Sublist
      (first :: others ++ [key]) := by
  rcases List.eq_nil_or_concat' others with
    rfl | ⟨others, second, rfl⟩
  · rw [cut_nil]
    exact List.sublist_append_right [first] [key]
  · have hAll :
        first :: (others ++ [second]) ++ [key] = (first :: others) ++ [second, key] := by
      rw [← List.cons_append, List.append_assoc]
      exact rfl
    rw [hAll]
    apply List.Sublist.trans (List.Sublist.trans ?_ (List.Sublist.refl [second, key]))
      (List.sublist_append_right _ _)
    by_cases hSecond : second.mType = .kVideoType
    · rw [cut_video _ _ _ hSecond]
      exact List.sublist_cons_self second [key]
    · rw [cut_audio _ _ _ hSecond]

namespace Sink

variable {totalSize : WebmElement → Nat} {mSegmentDataStart : BitVec 64}

/- The number counts the outstanding video key frames. -/
def Keyed (s : Sink) : Prop :=
  s.numVideoKeyFrames = if s.outstandingFrames.any WebmFrame.starts then 1 else 0

/- A frame is taken, and written with its group or kept. -/
theorem flushKeys_take (totalSize : WebmElement → Nat) (mSegmentDataStart : BitVec 64) (s : Sink)
    (videoFrames audioFrames : List WebmFrame) (f : WebmFrame) (hKeyed : s.Keyed)
    (hSorted : s.outstandingFrames.Pairwise (fun f g => f.time ≤ g.time)) :
    ∃ t : Sink,
      flushKeys totalSize mSegmentDataStart
          { s with
            mVideoFrames := videoFrames
            mAudioFrames := audioFrames
            outstandingFrames := s.outstandingFrames ++ [f]
            numVideoKeyFrames := s.numVideoKeyFrames + (if f.starts then 1 else 0) } =
        .returns t ∧ t.mVideoFrames = videoFrames ∧ t.mAudioFrames = audioFrames ∧ t.Keyed ∧
        t.outstandingFrames.Sublist (s.outstandingFrames ++ [f]) ∧
        ∀ rest,
          (groupsAfter s.outstandingFrames (f :: rest)).foldl
              (Out.put totalSize mSegmentDataStart) s.out =
            (groupsAfter t.outstandingFrames rest).foldl
              (Out.put totalSize mSegmentDataStart) t.out := by
  unfold Keyed at hKeyed
  by_cases hBoth : s.outstandingFrames.any WebmFrame.starts = true ∧ f.starts = true
  · rcases hBoth with ⟨hKey, hStarts⟩
    rw [if_pos hKey] at hKeyed
    cases hFrames : s.outstandingFrames with
    | nil =>
      rw [hFrames] at hKey
      cases hKey
    | cons first others =>
      rw [hFrames] at hKey hSorted
      have hVideo : others = [] → first.mType = .kVideoType := by
        rintro rfl
        rw [List.any_cons, List.any_nil, Bool.or_false] at hKey
        exact (of_decide_eq_true hKey).1
      have hFlush := flushFrames_key totalSize mSegmentDataStart first others f s.out hSorted hVideo
      unfold flushKeys
      dsimp only
      rw [hKeyed, if_pos hStarts, if_pos rfl, List.cons_append, hFlush]
      refine ⟨_, rfl, rfl, rfl, ?_, ?_, ?_⟩
      · unfold Keyed
        dsimp only
        rw [if_pos (cut_starts first others hStarts)]
      · exact cut_suffix first others f
      · intro rest
        rw [groupsAfter_key rest hKey hStarts, List.foldl_cons]
  · have hNotTwo : s.numVideoKeyFrames + (if f.starts then 1 else 0) ≠ 2 := by
      rw [hKeyed]
      split <;> split <;> first | omega | skip
      exact absurd ⟨‹_›, ‹_›⟩ hBoth
    unfold flushKeys
    dsimp only
    rw [if_neg hNotTwo]
    refine ⟨_, rfl, rfl, rfl, ?_, List.Sublist.refl _, ?_⟩
    · unfold Keyed
      dsimp only
      rw [hKeyed, List.any_append, List.any_cons, List.any_nil, Bool.or_false]
      cases hKey : s.outstandingFrames.any WebmFrame.starts with
      | false => cases f.starts <;> rfl
      | true =>
        cases hStarts : f.starts with
        | false => rfl
        | true => exact absurd ⟨hKey, hStarts⟩ hBoth
    · intro rest
      rw [groupsAfter_other rest hBoth]

/- Frames that are of no interest any more. -/
theorem sorted_left {frames left rest : List WebmFrame} {f : WebmFrame}
    (hSorted : (frames ++ f :: rest).Pairwise (fun f g => f.time ≤ g.time))
    (hLeft : left.Sublist (frames ++ [f])) :
    (left ++ rest).Pairwise (fun f g => f.time ≤ g.time) := by
  have hAll : frames ++ f :: rest = frames ++ [f] ++ rest := by
    rw [List.append_assoc]
    exact rfl
  rw [hAll] at hSorted
  exact List.Pairwise.sublist (hLeft.append (List.Sublist.refl rest)) hSorted

theorem run_audio {s : Sink} {a v : WebmFrame} {as vs : List WebmFrame}
    (hVideoFrames : s.mVideoFrames = v :: vs) (hAudioFrames : s.mAudioFrames = a :: as)
    (hAudio : a.mType = .kAudioType ∧ a.mEos = false) (hLess : a.less v = true) (fuel : Nat) :
    run totalSize mSegmentDataStart (fuel + 1) s =
      (flushKeys totalSize mSegmentDataStart
        { s with
          mVideoFrames := v :: vs
          mAudioFrames := as
          outstandingFrames := s.outstandingFrames ++ [a]
          numVideoKeyFrames := s.numVideoKeyFrames + (if a.starts then 1 else 0) }).bind
        (run totalSize mSegmentDataStart fuel) := by
  have hStarts : a.starts = false := by
    apply decide_eq_false
    rw [hAudio.1]
    nofun
  have hGoesOn : ¬ (v.mEos = true ∧ a.mEos = true) := by
    rw [hAudio.2]
    nofun
  rw [run, hVideoFrames, hAudioFrames]
  dsimp only
  rw [if_neg hGoesOn, if_pos hLess, hStarts]
  exact rfl

theorem run_video {s : Sink} {a v : WebmFrame} {as vs : List WebmFrame}
    (hVideoFrames : s.mVideoFrames = v :: vs) (hAudioFrames : s.mAudioFrames = a :: as)
    (hVideo : v.mType = .kVideoType ∧ v.mEos = false) (hLess : ¬ a.less v = true) (fuel : Nat) :
    run totalSize mSegmentDataStart (fuel + 1) s =
      (flushKeys totalSize mSegmentDataStart
        { s with
          mVideoFrames := vs
          mAudioFrames := a :: as
          outstandingFrames := s.outstandingFrames ++ [v]
          numVideoKeyFrames := s.numVideoKeyFrames + (if v.starts then 1 else 0) }).bind
        (run totalSize mSegmentDataStart fuel) := by
  have hStarts : v.starts = v.mKey := by
    unfold WebmFrame.starts
    rw [hVideo.1]
    cases v.mKey <;> rfl
  have hGoesOn : ¬ (v.mEos = true ∧ a.mEos = true) := by
    rw [hVideo.2]
    nofun
  rw [run, hVideoFrames, hAudioFrames]
  dsimp only
  rw [if_neg hGoesOn, if_neg hLess, hStarts]

/- A turn, from what the rest of the run does. -/
theorem run_take {s : Sink} {videoFrames audioFrames rest : List WebmFrame} {f : WebmFrame}
    (hKeyed : s.Keyed)
    (hSorted : (s.outstandingFrames ++ f :: rest).Pairwise (fun f g => f.time ≤ g.time))
    (hTurn :
      ∀ fuel,
        run totalSize mSegmentDataStart (fuel + 1) s =
          (flushKeys totalSize mSegmentDataStart
            { s with
              mVideoFrames := videoFrames
              mAudioFrames := audioFrames
              outstandingFrames := s.outstandingFrames ++ [f]
              numVideoKeyFrames := s.numVideoKeyFrames + (if f.starts then 1 else 0) }).bind
            (run totalSize mSegmentDataStart fuel))
    (hRest :
      ∀ t : Sink, t.mVideoFrames = videoFrames → t.mAudioFrames = audioFrames → t.Keyed →
        (t.outstandingFrames ++ rest).Pairwise (fun f g => f.time ≤ g.time) →
        Reaches (fun fuel => run totalSize mSegmentDataStart fuel t)
          ((groupsAfter t.outstandingFrames rest).foldl
            (Out.put totalSize mSegmentDataStart) t.out)) :
    Reaches (fun fuel => run totalSize mSegmentDataStart fuel s)
      ((groupsAfter s.outstandingFrames (f :: rest)).foldl
        (Out.put totalSize mSegmentDataStart) s.out) := by
  have hOutstanding := (List.pairwise_append.mp hSorted).1
  rcases flushKeys_take totalSize mSegmentDataStart s
      videoFrames audioFrames f hKeyed hOutstanding with
    ⟨t, hFlush, hVideo, hAudio, hKeyedNext, hLeft, hGroups⟩
  apply Reaches.succ
  simp only [hTurn, hFlush, Result.bind_returns]
  rw [hGroups rest]
  exact hRest t hVideo hAudio hKeyedNext (sorted_left hSorted hLeft)

theorem run_end {s : Sink} (hVideo : s.mVideoFrames = [WebmFrame.EOS])
    (hAudio : s.mAudioFrames = [WebmFrame.EOS])
    (hSorted : s.outstandingFrames.Pairwise (fun f g => f.time ≤ g.time)) :
    Reaches (fun fuel => run totalSize mSegmentDataStart fuel s)
      ((groupsAfter s.outstandingFrames []).foldl (Out.put totalSize mSegmentDataStart) s.out) := by
  apply Reaches.succ
  apply Reaches.of_eq
  intro fuel
  rw [run, hVideo, hAudio]
  dsimp only
  rw [if_pos ⟨rfl, rfl⟩]
  cases hFrames : s.outstandingFrames with
  | nil => exact rfl
  | cons first others =>
    rw [hFrames] at hSorted
    rw [flushFrames_last first others s.out hSorted]
    exact rfl

/- The thread writes the groups of what is taken. -/
theorem run_groups {s : Sink} {video audio : List WebmFrame} (hVideo : Stream .kVideoType video)
    (hAudio : Stream .kAudioType audio) (hVideoFrames : s.mVideoFrames = video ++ [WebmFrame.EOS])
    (hAudioFrames : s.mAudioFrames = audio ++ [WebmFrame.EOS]) (hKeyed : s.Keyed)
    (hSorted : (s.outstandingFrames ++ merged audio video).Pairwise (fun f g => f.time ≤ g.time)) :
    Reaches (fun fuel => run totalSize mSegmentDataStart fuel s)
      ((groupsAfter s.outstandingFrames (merged audio video)).foldl
        (Out.put totalSize mSegmentDataStart) s.out) := by
  induction hCount : audio.length + video.length generalizing s audio video with
  | zero =>
    have hNone : audio = [] ∧ video = [] :=
      ⟨List.eq_nil_of_length_eq_zero (by omega), List.eq_nil_of_length_eq_zero (by omega)⟩
    rcases hNone with ⟨rfl, rfl⟩
    rw [merged_nil_left] at hSorted ⊢
    rw [List.append_nil] at hSorted
    exact run_end hVideoFrames hAudioFrames hSorted
  | succ count ih =>
    cases audio with
    | nil =>
      cases video with
      | nil => cases hCount
      | cons v video =>
        simp only [List.length_cons] at hCount
        rw [merged_nil_left] at hSorted ⊢
        refine run_take hKeyed hSorted
          (run_video hVideoFrames hAudioFrames ⟨hVideo.head.1, hVideo.head.2.1⟩ nofun) ?_
        intro t hv ha hKeyedNext hSortedNext
        rw [← merged_nil_left video] at hSortedNext ⊢
        exact ih hVideo.tail hAudio hv ha hKeyedNext hSortedNext (by omega)
    | cons a audio =>
      cases video with
      | nil =>
        simp only [List.length_cons] at hCount
        rw [merged_nil_right] at hSorted ⊢
        have hLess : a.less WebmFrame.EOS = true := by
          unfold WebmFrame.less
          rw [hAudio.head.2.1]
          exact rfl
        refine run_take hKeyed hSorted
          (run_audio hVideoFrames hAudioFrames ⟨hAudio.head.1, hAudio.head.2.1⟩ hLess) ?_
        intro t hv ha hKeyedNext hSortedNext
        rw [← merged_nil_right audio] at hSortedNext ⊢
        exact ih hVideo hAudio.tail hv ha hKeyedNext hSortedNext (by omega)
      | cons v video =>
        simp only [List.length_cons] at hCount
        by_cases hLess : a.less v = true
        · rw [merged_audio _ _ hLess] at hSorted ⊢
          refine run_take hKeyed hSorted
            (run_audio hVideoFrames hAudioFrames ⟨hAudio.head.1, hAudio.head.2.1⟩ hLess) ?_
          intro t hv ha hKeyedNext hSortedNext
          exact ih hVideo hAudio.tail hv ha hKeyedNext hSortedNext
            (by simp only [List.length_cons]; omega)
        · rw [merged_video _ _ hLess] at hSorted ⊢
          refine run_take hKeyed hSorted
            (run_video hVideoFrames hAudioFrames ⟨hVideo.head.1, hVideo.head.2.1⟩ hLess) ?_
          intro t hv ha hKeyedNext hSortedNext
          exact ih hVideo.tail hAudio hv ha hKeyedNext hSortedNext
            (by simp only [List.length_cons]; omega)

/- The thread from its start. -/
theorem run_start (totalSize : WebmElement → Nat) (mSegmentDataStart : BitVec 64)
    {video audio : List WebmFrame} (hVideo : Stream .kVideoType video)
    (hAudio : Stream .kAudioType audio) (position : Nat) :
    Reaches
      (fun fuel =>
        run totalSize mSegmentDataStart fuel (start video audio position))
      ((groups (merged audio video)).foldl (Out.put totalSize mSegmentDataStart)
        (start video audio position).out) :=
  run_groups hVideo hAudio rfl rfl rfl (merged_sorted hAudio hVideo)

end Sink

end Webm

end FrameworksAv
