import FrameworksAv.Webm.EbmlReader
import FrameworksAv.Webm.FrameRuns

/-
  When the clusters and the cues are right.

  The clusters are told apart by their positions, and within a cluster the relative timecodes are
  right exactly in the range of 16 bits. So the groups decide.

  Main declarations:
    * `timed_iff`
    * `Group.timed_iff`, `Group.head_iff`
    * `whole_iff`
    * `frames_written`
-/

--
-- Timecodes
--

namespace FrameworksAv

namespace Webm

/- A relative timecode is right in its range only. -/
theorem relTimecode_iff {base f : WebmFrame} (hOrder : base.time ≤ f.time) :
    (base.time : Int) + (f.relTimecode base.mAbsTimecode).toInt = f.time ↔ base.Near f := by
  have hDifference := time_sub hOrder
  unfold WebmFrame.relTimecode WebmFrame.Near INT16_MAX
  rw [BitVec.toInt_eq_toNat_cond, BitVec.toNat_setWidth, hDifference]
  split <;> omega

theorem timed_iff {c : Cluster} (hOrder : ∀ f ∈ c.frames, c.first.time ≤ f.time) :
    c.Timed ↔ ∀ f ∈ c.frames, c.first.Near f := by
  unfold Cluster.Timed
  constructor
  · intro hTimed f hf
    exact (relTimecode_iff (hOrder f hf)).mp (hTimed f hf)
  · intro hNear f hf
    exact (relTimecode_iff (hOrder f hf)).mpr (hNear f hf)

--
-- Splitting
--

namespace Cluster

def Tight (c : Cluster) : Prop :=
  ∀ f ∈ c.frames, c.first.Near f

theorem add_frames (c : Cluster) (frames : List WebmFrame) :
    (c.add frames).frames = c.frames ++ frames :=
  rfl

theorem tight_single (f : WebmFrame) : Tight ⟨f, []⟩ := by
  intro g hg
  rw [List.mem_singleton.mp hg]
  exact Nat.le_add_right _ _

theorem Tight.add {c : Cluster} {f : WebmFrame} (hTight : c.Tight) (hNear : c.first.Near f) :
    (c.add [f]).Tight := by
  intro g hg
  rw [add_frames] at hg
  rcases List.mem_append.mp hg with hg | hg
  · exact hTight g hg
  · rw [List.mem_singleton.mp hg]
    exact hNear

/- No frame is lost. -/
theorem splitOff_frames (c : Cluster) (rest : List WebmFrame) :
    (c.splitOff rest).1.flatMap frames ++ (c.splitOff rest).2.frames = c.frames ++ rest := by
  induction rest generalizing c with
  | nil => exact (List.append_nil _).symm
  | cons f rest ih =>
    by_cases hNear : c.first.Near f
    · rw [splitOff_near _ hNear, ih, add_frames, List.append_assoc]
      exact rfl
    · rw [splitOff_far _ hNear]
      dsimp only
      rw [List.flatMap_cons, List.append_assoc, ih]
      exact rfl

theorem splitOff_tight {c : Cluster} (hTight : c.Tight) (rest : List WebmFrame) :
    (∀ d ∈ (c.splitOff rest).1, d.Tight) ∧ (c.splitOff rest).2.Tight := by
  induction rest generalizing c with
  | nil => exact ⟨fun _ hd => (List.not_mem_nil hd).elim, hTight⟩
  | cons f rest ih =>
    by_cases hNear : c.first.Near f
    · rw [splitOff_near _ hNear]
      exact ih (hTight.add hNear)
    · rw [splitOff_far _ hNear]
      rcases ih (tight_single f) with ⟨hFull, hLast⟩
      refine ⟨?_, hLast⟩
      intro d hd
      rcases List.mem_cons.mp hd with rfl | hd
      · exact hTight
      · exact hFull d hd

theorem splitOff_first (c : Cluster) (rest : List WebmFrame) :
    (c.splitOff rest).2.first =
      rest.foldl (fun base f => if base.Near f then base else f) c.first := by
  induction rest generalizing c with
  | nil => rfl
  | cons f rest ih =>
    rw [List.foldl_cons]
    by_cases hNear : c.first.Near f
    · rw [splitOff_near _ hNear, if_pos hNear, ih]
      exact rfl
    · rw [splitOff_far _ hNear, if_neg hNear]
      exact ih ⟨f, []⟩

/- The first cluster has the time of a frame exactly when the frame is in its range. -/
theorem splitOff_head {c : Cluster} {k : WebmFrame} (hTight : c.Tight) (rest held : List WebmFrame)
    (hSorted : rest.Pairwise (fun f g => f.time ≤ g.time)) (hk : k ∈ c.frames ++ rest) :
    ∃ head more,
      (c.splitOff rest).1 ++ [(c.splitOff rest).2.add held] = head :: more ∧
        ((∃ f ∈ head.frames, f.mAbsTimecode = k.mAbsTimecode) ↔ c.first.Near k) := by
  induction rest generalizing c with
  | nil =>
    rw [List.append_nil] at hk
    refine ⟨c.add held, [], rfl, ?_⟩
    refine iff_of_true ⟨k, ?_, rfl⟩ (hTight k hk)
    rw [add_frames]
    exact List.mem_append_left held hk
  | cons f rest ih =>
    rcases List.pairwise_cons.mp hSorted with ⟨hLater, hSortedRest⟩
    by_cases hNear : c.first.Near f
    · rw [splitOff_near _ hNear]
      apply ih (hTight.add hNear) hSortedRest
      rw [add_frames, List.append_assoc]
      exact hk
    · rw [splitOff_far _ hNear]
      refine ⟨c, _, rfl, ?_⟩
      constructor
      · rintro ⟨g, hg, hSame⟩
        have hgNear := hTight g hg
        unfold WebmFrame.Near WebmFrame.time at hgNear ⊢
        rw [← hSame]
        exact hgNear
      · intro hkNear
        rcases List.mem_append.mp hk with hk | hk
        · exact ⟨k, hk, rfl⟩
        · have hFrom : f.time ≤ k.time := by
            rcases List.mem_cons.mp hk with rfl | hk
            · exact Nat.le_refl _
            · exact hLater k hk
          exact absurd (Nat.le_trans hFrom hkNear) hNear

end Cluster

--
-- Groups
--

namespace Group

theorem clusters_frames (g : Group) : g.clusters.flatMap Cluster.frames = g.frames := by
  unfold clusters split frames shown
  rw [List.flatMap_append, List.flatMap_cons, List.flatMap_nil,
    List.append_nil, Cluster.add_frames, ← List.append_assoc, Cluster.splitOff_frames]
  exact rfl

/- The timecodes are right, but for a frame held back. -/
theorem timed_iff {g : Group} (hOrder : ∀ c ∈ g.clusters, ∀ f ∈ c.frames, c.first.time ≤ f.time) :
    (∀ c ∈ g.clusters, c.Timed) ↔ ∀ f ∈ g.held, g.lastStart.Near f := by
  have hTight := Cluster.splitOff_tight (Cluster.tight_single g.first) g.others
  have hFirst := Cluster.splitOff_first ⟨g.first, []⟩ g.others
  have hLast : g.split.2.add g.held.toList ∈ g.clusters :=
    List.mem_append_right _ List.mem_cons_self
  constructor
  · intro hTimed f hf
    have hNear := (Webm.timed_iff (hOrder _ hLast)).mp (hTimed _ hLast) f
    unfold lastStart
    rw [← hFirst]
    apply hNear
    rw [Cluster.add_frames]
    exact List.mem_append_right _ (Option.mem_toList.mpr hf)
  · intro hHeld c hc
    rw [Webm.timed_iff (hOrder c hc)]
    rcases List.mem_append.mp hc with hc | hc
    · exact hTight.1 c hc
    · rw [List.mem_singleton.mp hc]
      intro f hf
      rw [Cluster.add_frames] at hf
      rcases List.mem_append.mp hf with hf | hf
      · exact hTight.2 f hf
      · have hNear := hHeld f (Option.mem_toList.mp hf)
        unfold lastStart at hNear
        rw [← hFirst] at hNear
        exact hNear

theorem cueFrame_mem (g : Group) : g.cueFrame ∈ g.shown := by
  have hFold :
      ∀ (frames : List WebmFrame) (cue : WebmFrame), frames.foldl nextCue cue ∈ cue :: frames := by
    intro frames
    induction frames with
    | nil => exact fun cue => List.mem_cons_self
    | cons f frames ih =>
      intro cue
      rw [List.foldl_cons]
      rcases List.mem_cons.mp (ih (nextCue cue f)) with
        hSame | hLater
      · rw [hSame]
        unfold nextCue
        split
        · exact List.mem_cons_of_mem cue List.mem_cons_self
        · exact List.mem_cons_self
      · exact List.mem_cons_of_mem cue (List.mem_cons_of_mem f hLater)
  rw [cueFrame_eq]
  exact hFold g.others g.first

/- The cluster that a cue points to. -/
theorem head_iff {g : Group} (hSorted : g.shown.Pairwise (fun f g => f.time ≤ g.time)) :
    ∃ head more,
      g.clusters = head :: more ∧
        ((∃ f ∈ head.frames, f.mAbsTimecode = g.cueFrame.mAbsTimecode) ↔ g.first.Near g.cueFrame) :=
  Cluster.splitOff_head (Cluster.tight_single g.first) g.others
    g.held.toList (List.pairwise_cons.mp hSorted).2 g.cueFrame_mem

end Group

theorem cut_frames (first : WebmFrame) (others : List WebmFrame) (key : WebmFrame) :
    (cut first others key).1.frames ++ ((cut first others key).2.1 :: (cut first others key).2.2) =
      first :: others ++ [key] := by
  rcases List.eq_nil_or_concat' others with
    rfl | ⟨others, second, rfl⟩
  · exact rfl
  · by_cases hSecond : second.mType = .kVideoType
    · rw [cut_video _ _ _ hSecond]
      unfold Group.frames Group.shown
      exact rfl
    · rw [cut_audio _ _ _ hSecond]
      unfold Group.frames Group.shown
      dsimp only [Option.toList_none]
      rw [List.append_nil, ← List.cons_append, List.append_assoc]
      exact rfl

/- All frames are in the groups, in order. -/
theorem groupsAfter_frames (frames rest : List WebmFrame) :
    (groupsAfter frames rest).flatMap Group.frames = frames ++ rest := by
  induction rest generalizing frames with
  | nil =>
    cases frames with
    | nil => rfl
    | cons first others =>
      show (first :: others ++ []) ++ [] = _
      rw [List.append_nil]
  | cons f rest ih =>
    by_cases hBoth : frames.any WebmFrame.starts = true ∧ f.starts = true
    · cases frames with
      | nil => cases hBoth.1
      | cons first others =>
        rw [groupsAfter_key rest hBoth.1 hBoth.2, List.flatMap_cons, ih, ← List.append_assoc,
          cut_frames, List.append_assoc]
        exact rfl
    · rw [groupsAfter_other rest hBoth, ih, List.append_assoc]
      exact rfl

--
-- Positions
--

variable {totalSize : WebmElement → Nat}

theorem position_le_endOf (totalSize : WebmElement → Nat) (position : Nat) (cs : List Cluster) :
    position ≤ endOf totalSize position cs := by
  induction cs generalizing position with
  | nil => exact Nat.le_refl _
  | cons c cs ih => exact Nat.le_trans (Nat.le_add_right _ _) (ih _)

theorem placed_clusters (totalSize : WebmElement → Nat) (position : Nat) (cs : List Cluster) :
    (placed totalSize position cs).map Prod.snd = cs := by
  induction cs generalizing position with
  | nil => rfl
  | cons c cs ih => exact congrArg (c :: ·) (ih _)

theorem mem_placed {position : Nat} {cs : List Cluster} {c : Cluster} :
    c ∈ cs ↔ ∃ q, (q, c) ∈ placed totalSize position cs := by
  constructor
  · intro hc
    rw [← placed_clusters totalSize position cs] at hc
    rcases List.mem_map.mp hc with ⟨⟨q, d⟩, hd, rfl⟩
    exact ⟨q, hd⟩
  · rintro ⟨q, hc⟩
    rw [← placed_clusters totalSize position cs]
    exact List.mem_map.mpr ⟨_, hc, rfl⟩

theorem placed_range (hSize : ∀ c : Cluster, 0 < totalSize c.element) {position q : Nat}
    {cs : List Cluster} {c : Cluster} (hc : (q, c) ∈ placed totalSize position cs) :
    position ≤ q ∧ q < endOf totalSize position cs := by
  induction cs generalizing position with
  | nil => cases hc
  | cons d cs ih =>
    have hPos := hSize d
    have hEnd := position_le_endOf totalSize (position + totalSize d.element) cs
    unfold placed at hc
    unfold endOf
    rcases List.mem_cons.mp hc with hSame | hc
    · cases hSame
      omega
    · have hRange := ih hc
      omega

/- Clusters have different positions. -/
theorem placed_inj (hSize : ∀ c : Cluster, 0 < totalSize c.element) {position q : Nat}
    {cs : List Cluster} {c d : Cluster} (hc : (q, c) ∈ placed totalSize position cs)
    (hd : (q, d) ∈ placed totalSize position cs) : c = d := by
  induction cs generalizing position with
  | nil => cases hc
  | cons e cs ih =>
    have hPos := hSize e
    unfold placed at hc hd
    rcases List.mem_cons.mp hc with hSame | hc
    · cases hSame
      rcases List.mem_cons.mp hd with hSame | hd
      · cases hSame
        rfl
      · have hRange := placed_range hSize hd
        omega
    · rcases List.mem_cons.mp hd with hSame | hd
      · cases hSame
        have hRange := placed_range hSize hc
        omega
      · exact ih hc hd

theorem element_length {c d : Cluster} (hSame : c.element = d.element) :
    c.frames.length = d.frames.length := by
  unfold Cluster.element Cluster.children at hSame
  rw [WebmElement.WebmMaster.injEq, List.cons.injEq] at hSame
  have hLength := congrArg List.length hSame.2.2
  rw [List.length_map, List.length_map] at hLength
  exact hLength

/- The elements tell how the frames are spread. -/
theorem clusters_unique {cs ds : List (Nat × Cluster)}
    (hElements : cs.map elementAt = ds.map elementAt)
    (hFrames : cs.flatMap (fun c => c.2.frames) = ds.flatMap (fun c => c.2.frames)) : cs = ds := by
  induction cs generalizing ds with
  | nil =>
    cases ds with
    | nil => rfl
    | cons d ds => cases hElements
  | cons c cs ih =>
    cases ds with
    | nil => cases hElements
    | cons d ds =>
      rw [List.map_cons, List.map_cons, List.cons.injEq] at hElements
      rcases hElements with ⟨hHead, hTail⟩
      have hPosition := congrArg Prod.fst hHead
      have hElement := congrArg Prod.snd hHead
      rw [List.flatMap_cons, List.flatMap_cons] at hFrames
      rcases List.append_inj hFrames (element_length hElement) with ⟨hHeadFrames, hTailFrames⟩
      rw [ih hTail hTailFrames]
      congr 1
      rcases c with ⟨q, first, others⟩
      rcases d with ⟨q', first', others'⟩
      cases hPosition
      cases hHeadFrames
      rfl

--
-- The File
--

variable {mSegmentDataStart : BitVec 64}

/- The cues of groups that are written from a position on. -/
def cues (totalSize : WebmElement → Nat) (mSegmentDataStart : BitVec 64) :
    Nat → List Group → List WebmElement
| _, [] => []
| position, g :: gs =>
  cueAt mSegmentDataStart g.cueFrame position ::
    cues totalSize mSegmentDataStart (endOf totalSize position g.clusters) gs

theorem mem_cues {position : Nat} {gs : List Group} {cue : WebmElement} :
    cue ∈ cues totalSize mSegmentDataStart position gs ↔
      ∃ before g after,
        gs = before ++ g :: after ∧
          cue =
            cueAt mSegmentDataStart g.cueFrame
              (endOf totalSize position (before.flatMap Group.clusters)) := by
  induction gs generalizing position with
  | nil =>
    refine ⟨nofun, ?_⟩
    rintro ⟨before, g, after, hNone, -⟩
    cases before <;> cases hNone
  | cons h gs ih =>
    unfold cues
    rw [List.mem_cons, ih]
    constructor
    · rintro (rfl | ⟨before, g, after, rfl, rfl⟩)
      · exact ⟨[], h, gs, rfl, rfl⟩
      · refine ⟨h :: before, g, after, rfl, ?_⟩
        rw [List.flatMap_cons, endOf_append]
    · rintro ⟨before, g, after, hAll, rfl⟩
      cases before with
      | nil =>
        cases hAll
        exact .inl rfl
      | cons b before =>
        cases hAll
        refine .inr ⟨before, g, after, rfl, ?_⟩
        rw [List.flatMap_cons, endOf_append]

/- All that is written. -/
theorem foldl_put (gs : List Group) (out : Out) :
    gs.foldl (Out.put totalSize mSegmentDataStart) out =
      { position := endOf totalSize out.position (gs.flatMap Group.clusters)
        clusters :=
          out.clusters ++ (placed totalSize out.position (gs.flatMap Group.clusters)).map elementAt
        mCues :=
          out.mCues ++
            cues totalSize mSegmentDataStart out.position
              gs } := by
  induction gs generalizing out with
  | nil =>
    rw [List.flatMap_nil]
    unfold placed cues endOf
    rw [List.map_nil, List.append_nil, List.append_nil]
    exact rfl
  | cons g gs ih =>
    rw [List.foldl_cons, ih]
    unfold Out.put Out.append Out.addCue
    dsimp only
    rw [List.flatMap_cons, endOf_append, placed_append,
      List.map_append, List.append_assoc, List.append_assoc]
    exact rfl

theorem placed_frames (position : Nat) (gs : List Group) :
    (placed totalSize position (gs.flatMap Group.clusters)).flatMap (fun c => c.2.frames) =
      gs.flatMap Group.frames := by
  have hClusters := placed_clusters totalSize position (gs.flatMap Group.clusters)
  have hMap :
      (placed totalSize position (gs.flatMap Group.clusters)).flatMap (fun c => c.2.frames) =
        ((placed totalSize position (gs.flatMap Group.clusters)).map
          Prod.snd).flatMap Cluster.frames := by
    rw [List.flatMap_map]
  rw [hMap, hClusters, List.flatMap_assoc]
  congr 1
  funext g
  exact g.clusters_frames

theorem cueAt_inj {f g : WebmFrame} {p q : Nat} (hp : p < 2 ^ 64) (hq : q < 2 ^ 64)
    (hSame : cueAt mSegmentDataStart f p = cueAt mSegmentDataStart g q) :
    f.mAbsTimecode = g.mAbsTimecode ∧ p = q := by
  unfold cueAt CuePointEntry at hSame
  simp only [WebmElement.WebmMaster.injEq, List.cons.injEq,
    WebmElement.leaf.injEq, Leaf.WebmUnsigned.injEq, true_and, and_true] at hSame
  refine ⟨hSame.1, ?_⟩
  have hOff := congrArg (· + mSegmentDataStart) hSame.2
  simp only [BitVec.sub_add_cancel] at hOff
  have hNat := congrArg BitVec.toNat hOff
  rw [BitVec.toNat_ofNat, BitVec.toNat_ofNat, Nat.mod_eq_of_lt hp, Nat.mod_eq_of_lt hq] at hNat
  exact hNat

theorem sublist_flatMap_of_mem {α β : Type} {l : List α} {a : α} (f : α → List β) (ha : a ∈ l) :
    (f a).Sublist (l.flatMap f) := by
  rw [List.flatMap_def]
  exact List.sublist_flatten_of_mem (List.mem_map_of_mem ha)

/- Where the first cluster of a group is. -/
theorem placed_head (totalSize : WebmElement → Nat) (position : Nat) (before after : List Group)
    {g : Group} {head : Cluster} {more : List Cluster} (hHead : g.clusters = head :: more) :
    (endOf totalSize position (before.flatMap Group.clusters), head) ∈
      placed totalSize position ((before ++ g :: after).flatMap Group.clusters) := by
  rw [List.flatMap_append, List.flatMap_cons, hHead, placed_append]
  exact List.mem_append_right _ List.mem_cons_self

/- The groups decide whether all that is written is right. -/
theorem whole_iff (hSize : ∀ c : Cluster, 0 < totalSize c.element) (mSegmentDataStart : BitVec 64)
    {position : Nat} {gs : List Group}
    (hSorted : (gs.flatMap Group.frames).Pairwise (fun f g => f.time ≤ g.time))
    (hFits : endOf totalSize position (gs.flatMap Group.clusters) < 2 ^ 64) :
    Whole mSegmentDataStart (gs.flatMap Group.frames)
        (gs.foldl (Out.put totalSize mSegmentDataStart)
          { position := position, clusters := [], mCues := [] }) ↔
      ∀ g ∈ gs, g.Fits := by
  rw [foldl_put]
  dsimp only
  rw [List.nil_append, List.nil_append]
  have hOrder : ∀ g ∈ gs, ∀ c ∈ g.clusters, ∀ f ∈ c.frames, c.first.time ≤ f.time := by
    intro g hg c hc f hf
    have hAll : c.frames.Sublist (gs.flatMap Group.frames) := by
      apply List.Sublist.trans ?_ (sublist_flatMap_of_mem Group.frames hg)
      rw [← g.clusters_frames]
      exact sublist_flatMap_of_mem Cluster.frames hc
    have hCluster := List.Pairwise.sublist hAll hSorted
    rcases List.mem_cons.mp hf with rfl | hf
    · exact Nat.le_refl _
    · exact (List.pairwise_cons.mp hCluster).1 f hf
  have hShown : ∀ g ∈ gs, g.shown.Pairwise (fun f g => f.time ≤ g.time) := by
    intro g hg
    exact List.Pairwise.sublist
      ((List.sublist_append_left _ _).trans (sublist_flatMap_of_mem Group.frames hg)) hSorted
  constructor
  · rintro ⟨clusters, hElements, hFrames, hTimed, hCues⟩
    have hSame : placed totalSize position (gs.flatMap Group.clusters) = clusters :=
      clusters_unique hElements ((placed_frames position gs).trans hFrames.symm)
    subst hSame
    intro g hg
    constructor
    · rcases Group.head_iff (hShown g hg) with ⟨head, more, hHead, hNear⟩
      apply hNear.mp
      rcases List.append_of_mem hg with ⟨before, after, rfl⟩
      rcases hCues _ (mem_cues.mpr ⟨before, g, after, rfl, rfl⟩) with ⟨⟨q, c⟩, hc, f, hf, hCue⟩
      have hPlaced := placed_head totalSize position before after hHead
      have hqRange := placed_range hSize hc
      have hRange := placed_range hSize hPlaced
      rcases cueAt_inj (by omega) (by omega) hCue with ⟨hTime, rfl⟩
      rw [placed_inj hSize hPlaced hc]
      exact ⟨f, hf, hTime.symm⟩
    · apply (Group.timed_iff (hOrder g hg)).mp
      intro c hc
      rcases mem_placed.mp (List.mem_flatMap.mpr ⟨g, hg, hc⟩) with ⟨q, hPlaced⟩
      exact hTimed _ hPlaced
  · intro hGood
    refine ⟨placed totalSize position (gs.flatMap Group.clusters), rfl,
      placed_frames position gs, ?_, ?_⟩
    · rintro ⟨q, c⟩ hc
      rcases List.mem_flatMap.mp (mem_placed.mpr ⟨q, hc⟩) with ⟨g, hg, hc⟩
      exact (Group.timed_iff (hOrder g hg)).mpr (hGood g hg).2 c hc
    · intro cue hCue
      rcases mem_cues.mp hCue with ⟨before, g, after, rfl, rfl⟩
      have hg : g ∈ before ++ g :: after := List.mem_append_right _ List.mem_cons_self
      rcases Group.head_iff (hShown g hg) with ⟨head, more, hHead, hNear⟩
      rcases hNear.mpr (hGood g hg).1 with ⟨f, hf, hTime⟩
      refine ⟨_, placed_head totalSize position before after hHead, f, hf, ?_⟩
      unfold cueAt
      rw [hTime]

end Webm

--
-- Main Result
--

namespace Webm

/- What the thread does with two queues. -/
theorem run_whole_iff {totalSize : WebmElement → Nat}
    (hSize : ∀ c : Cluster, 0 < totalSize c.element) (mSegmentDataStart : BitVec 64)
    (position : Nat) {video audio : List WebmFrame} (hVideo : Stream .kVideoType video)
    (hAudio : Stream .kAudioType audio) :
    ∃ out,
      Reaches
          (fun fuel =>
            Sink.run totalSize mSegmentDataStart fuel (Sink.start video audio position)) out ∧
        out.position =
          endOf totalSize position ((groups (merged audio video)).flatMap Group.clusters) ∧
        (out.position < 2 ^ 64 →
          (Whole mSegmentDataStart (merged audio video) out ↔
            ∀ g ∈ groups (merged audio video), g.Fits)) := by
  have hFrames : (groups (merged audio video)).flatMap Group.frames = merged audio video :=
    groupsAfter_frames [] (merged audio video)
  have hPosition :
      ((groups (merged audio video)).foldl (Out.put totalSize mSegmentDataStart)
          (Sink.start video audio position).out).position =
        endOf totalSize position ((groups (merged audio video)).flatMap Group.clusters) := by
    rw [foldl_put]
    exact rfl
  refine ⟨_, Sink.run_start totalSize mSegmentDataStart hVideo hAudio position, hPosition, ?_⟩
  intro hFits
  have hSorted := merged_sorted hAudio hVideo
  rw [← hFrames] at hSorted
  have hIff := whole_iff hSize mSegmentDataStart hSorted (hPosition ▸ hFits)
  rw [hFrames] at hIff
  exact hIff

/-
  The thread ends without a failed check; what it has written is right exactly when every group
  fits. The offsets of the file have 64 bits.
-/
theorem frames_written (totalSize : WebmElement → Nat)
    (hSize : ∀ c : Cluster, 0 < totalSize c.element) (mSegmentDataStart : BitVec 64)
    (position : Nat) (video audio : List WebmFrame) (hVideo : Stream .kVideoType video)
    (hAudio : Stream .kAudioType audio) :
    ∃ out,
      Reaches
          (fun fuel =>
            Sink.run totalSize mSegmentDataStart fuel (Sink.start video audio position)) out ∧
        (out.position < 2 ^ 64 →
          (Whole mSegmentDataStart (merged audio video) out ↔
            ∀ g ∈ groups (merged audio video), g.Fits)) := by
  rcases run_whole_iff hSize mSegmentDataStart position hVideo hAudio with ⟨out, hRun, -, hWhole⟩
  exact ⟨out, hRun, hWhole⟩

def videoFrame (mKey : Bool) (time : BitVec 64) : WebmFrame where
  mType := .kVideoType
  mKey := mKey
  mAbsTimecode := time
  mData := [1]
  mEos := false

def audioFrame (time : BitVec 64) : WebmFrame where
  mType := .kAudioType
  mKey := true
  mAbsTimecode := time
  mData := [2]
  mEos := false

theorem extent_element (c : Cluster) : 0 < c.element.extent := by
  unfold Cluster.element WebmElement.extent width
  omega

theorem frames_written_twoKeys :
    ∃ out,
      Reaches
          (fun fuel =>
            Sink.run WebmElement.extent 0 fuel
              (Sink.start [videoFrame true 0, videoFrame false 33, videoFrame true 66]
                [audioFrame 10, audioFrame 50] 40)) out ∧
        Whole 0
          [videoFrame true 0, audioFrame 10, videoFrame false 33, audioFrame 50,
            videoFrame true 66] out := by
  have hVideo :
      Stream .kVideoType [videoFrame true 0, videoFrame false 33, videoFrame true 66] := by
    unfold Stream
    decide
  have hAudio : Stream .kAudioType [audioFrame 10, audioFrame 50] := by
    unfold Stream
    decide
  have hMerged :
      merged [audioFrame 10, audioFrame 50]
          [videoFrame true 0, videoFrame false 33, videoFrame true 66] =
        [videoFrame true 0, audioFrame 10, videoFrame false 33, audioFrame 50,
          videoFrame true 66] := by
    simp [merged, WebmFrame.less, audioFrame, videoFrame]
  rcases frames_written WebmElement.extent extent_element 0 40 _ _ hVideo hAudio with
    ⟨out, hRun, hWhole⟩
  rcases run_whole_iff extent_element 0 40 hVideo hAudio with ⟨other, hOther, hPosition, -⟩
  rw [← hRun.unique hOther] at hPosition
  rw [hMerged] at hWhole hPosition
  refine ⟨out, hRun, (hWhole ?_).mpr ?_⟩
  · rw [hPosition]
    decide
  · decide

/-
  A video frame that is held back long after the last cluster has begun, and a key frame long after
  the first frame.
-/
theorem frames_written_long :
    (∃ out,
      Reaches
          (fun fuel =>
            Sink.run WebmElement.extent 0 fuel
              (Sink.start
                [videoFrame true 0, videoFrame false 40000, videoFrame true 40001] [] 40)) out ∧
        ¬ Whole 0 [videoFrame true 0, videoFrame false 40000, videoFrame true 40001] out) ∧
    ∃ out,
      Reaches
          (fun fuel =>
            Sink.run WebmElement.extent 0 fuel
              (Sink.start [videoFrame true 40000] [audioFrame 0] 40)) out ∧
        ¬ Whole 0 [audioFrame 0, videoFrame true 40000] out := by
  constructor
  · have hVideo :
        Stream .kVideoType [videoFrame true 0, videoFrame false 40000, videoFrame true 40001] := by
      unfold Stream
      decide
    have hAudio : Stream .kAudioType [] := by
      unfold Stream
      decide
    rcases run_whole_iff extent_element 0 40 hVideo hAudio with ⟨out, hRun, hPosition, hWhole⟩
    rw [merged_nil_left] at hPosition hWhole
    refine ⟨out, hRun, mt (hWhole ?_).mp ?_⟩
    · rw [hPosition]
      decide
    · decide
  · have hVideo : Stream .kVideoType [videoFrame true 40000] := by
      unfold Stream
      decide
    have hAudio : Stream .kAudioType [audioFrame 0] := by
      unfold Stream
      decide
    have hLess : (audioFrame 0).less (videoFrame true 40000) = true := by
      decide
    rcases run_whole_iff extent_element 0 40 hVideo hAudio with ⟨out, hRun, hPosition, hWhole⟩
    rw [merged_audio _ _ hLess, merged_nil_left] at hPosition hWhole
    refine ⟨out, hRun, mt (hWhole ?_).mp ?_⟩
    · rw [hPosition]
      decide
    · decide

end Webm

end FrameworksAv
