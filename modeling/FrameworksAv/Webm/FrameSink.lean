import FrameworksAv.Base.Fuel
import FrameworksAv.Webm.Elements

/-
  The thread that writes frames into clusters (`WebmFrameSinkThread`).

  A queue is the list of frames that are taken from it, up to the one that ends it; `peek` waits for
  a frame, so it does not matter when the frames come. How many bytes a cluster takes is left open:
  it is `totalSize` of a file.

  What the clusters should be, as a function of the frames.

  The frames are cut into groups at the video key frames, and a group into clusters by the range of
  relative timecodes; the frame that is held back at the end of a group is put into its last cluster
  in any case.

  Main declarations:
    * `WebmFrame`, `WebmFrame.less`, `WebmFrame.SimpleBlock`
    * `Out`, `writeCluster`
    * `Group`, `Group.clusters`, `cut`, `groups`
    * `Out.put`, `Whole`
-/

--
-- Frames
--

namespace FrameworksAv

namespace Webm

inductive TrackTypes
| kInvalidType
| kVideoType
| kAudioType
deriving DecidableEq, Repr

def kVideoTrackNum : BitVec 32 := 1
def kAudioTrackNum : BitVec 32 := 2

structure WebmFrame where
  mType : TrackTypes
  mKey : Bool
  mAbsTimecode : BitVec 64
  mData : List Byte
  mEos : Bool
deriving DecidableEq, Repr

namespace WebmFrame

def EOS : WebmFrame where
  mType := .kInvalidType
  mKey := false
  mAbsTimecode := BitVec.allOnes 64
  mData := []
  mEos := true

/- The relative timecode is cut down to an `int16_t`. -/
def relTimecode (f : WebmFrame) (baseTimecode : BitVec 64) : BitVec 16 :=
  (f.mAbsTimecode - baseTimecode).setWidth 16

def SimpleBlock (f : WebmFrame) (baseTimecode : BitVec 64) : WebmElement :=
  .leaf
    (.WebmSimpleBlock (if f.mType = .kVideoType then kVideoTrackNum else kAudioTrackNum)
      (f.relTimecode baseTimecode) f.mKey f.mData)

/- `operator<` -/
def less (f other : WebmFrame) : Bool :=
  if f.mEos then false
  else if other.mEos then true
  else if f.mAbsTimecode = other.mAbsTimecode then f.mType = .kAudioType ∧ other.mType = .kVideoType
  else f.mAbsTimecode < other.mAbsTimecode

end WebmFrame

def CuePointEntry (time track off : BitVec 64) : WebmElement :=
  .WebmMaster .kMkvCuePoint
    [.leaf (.WebmUnsigned .kMkvCueTime time),
      .WebmMaster .kMkvCueTrackPositions
        [.leaf (.WebmUnsigned .kMkvCueTrack track),
          .leaf (.WebmUnsigned .kMkvCueClusterPosition off)]]

--
-- Clusters
--

/- The file, with each cluster where it starts, and the cues. -/
structure Out where
  position : Nat
  clusters : List (Nat × WebmElement)
  mCues : List WebmElement

def INT16_MAX : Nat := 32767

section Writing

variable (totalSize : WebmElement → Nat)

def initCluster (frames : List WebmFrame) (children : List WebmElement) :
    Result (BitVec 64 × List WebmElement) :=
  match frames with
  | [] => .aborts
  | f :: _ =>
    .check (children = [])
      (.returns (f.mAbsTimecode, [.leaf (.WebmUnsigned .kMkvTimecode f.mAbsTimecode)]))

/- The children are none afterwards. -/
def writeCluster (children : List WebmElement) (out : Out) : Result Out :=
  let cluster := WebmElement.WebmMaster .kMkvCluster children
  .check (2 ≤ children.length)
    (.returns
      { out with
        position := out.position + totalSize cluster
        clusters := out.clusters ++ [(out.position, cluster)] })

/- The variables of `flushFrames`. -/
structure Flush where
  frames : List WebmFrame
  clusterTimecodeL : BitVec 64
  children : List WebmElement
  cueTime : BitVec 64
  out : Out

/- One turn of the loop, for the first frame that is left. -/
def flushFrame (s : Flush) : Result Flush :=
  match s.frames with
  | [] => .aborts
  | f :: rest =>
    let s := if f.mType = .kVideoType ∧ f.mKey then { s with cueTime := f.mAbsTimecode }
      else s
    (if (f.mAbsTimecode - s.clusterTimecodeL).toNat > INT16_MAX then
      (writeCluster totalSize s.children s.out).bind fun out =>
          (initCluster (f :: rest) []).map fun (clusterTimecodeL, children) =>
              { s with
                clusterTimecodeL := clusterTimecodeL
                children := children
                out := out }
    else .returns s).map fun s =>
      { s with
        frames := rest
        children := s.children ++ [f.SimpleBlock s.clusterTimecodeL] }

def flushLoop : Nat → Flush → Result Flush
| 0, s => .returns s
| n + 1, s => (flushFrame totalSize s).bind (flushLoop n)

/- What is done with the second to last frame. -/
def takeSecondLast (s : Flush) : Flush :=
  match s.frames with
  | [] => s
  | secondLastFrame :: rest =>
    if secondLastFrame.mType = .kVideoType then
      { s with
        frames := rest
        children := s.children ++ [secondLastFrame.SimpleBlock s.clusterTimecodeL] }
    else s

/- The frames that are left, and what has been written. -/
def flushFrames (mSegmentDataStart : BitVec 64) (frames : List WebmFrame) (last : Bool)
    (out : Out) : Result (List WebmFrame × Out) :=
  if frames = [] then .returns (frames, out)
  else (initCluster frames []).bind fun (clusterTimecodeL, children) =>
    let fpos := BitVec.ofNat 64 out.position
    .check (last ∨ 2 ≤ frames.length)
      (let n := if last then frames.length else frames.length - 2
      (flushLoop totalSize n
          { frames := frames
            clusterTimecodeL := clusterTimecodeL
            children := children
            cueTime := clusterTimecodeL
            out := out }).bind fun s =>
        let s := takeSecondLast s
        (writeCluster totalSize s.children s.out).map fun out =>
            (s.frames,
              { out with
                mCues := out.mCues ++ [CuePointEntry s.cueTime 1 (fpos - mSegmentDataStart)] }))

end Writing

--
-- The Thread
--

structure Sink where
  mVideoFrames : List WebmFrame
  mAudioFrames : List WebmFrame
  numVideoKeyFrames : Nat
  outstandingFrames : List WebmFrame
  out : Out

namespace Sink

def start (video audio : List WebmFrame) (position : Nat) : Sink where
  mVideoFrames := video ++ [WebmFrame.EOS]
  mAudioFrames := audio ++ [WebmFrame.EOS]
  numVideoKeyFrames := 0
  outstandingFrames := []
  out := { position := position, clusters := [], mCues := [] }

variable (totalSize : WebmElement → Nat)
variable (mSegmentDataStart : BitVec 64)

/- The rest of a turn, with the frame that has been taken. -/
def flushKeys (s : Sink) : Result Sink :=
  if s.numVideoKeyFrames = 2 then
    (flushFrames totalSize mSegmentDataStart s.outstandingFrames
        false s.out).map fun (frames, out) =>
      { s with
        numVideoKeyFrames := s.numVideoKeyFrames - 1
        outstandingFrames := frames
        out := out }
  else .returns s

/- An empty queue makes the thread wait. -/
def run : Nat → Sink → Result Out
| 0, _ => .runs
| fuel + 1, s =>
  match s.mVideoFrames, s.mAudioFrames with
  | videoFrame :: videoFrames, audioFrame :: audioFrames =>
    if videoFrame.mEos ∧ audioFrame.mEos then
      (flushFrames totalSize mSegmentDataStart s.outstandingFrames true s.out).map Prod.snd
    else if audioFrame.less videoFrame then
      (flushKeys totalSize mSegmentDataStart
        { s with
          mAudioFrames := audioFrames
          outstandingFrames := s.outstandingFrames ++ [audioFrame] }).bind
        (run fuel)
    else
      (flushKeys totalSize mSegmentDataStart
        { s with
          mVideoFrames := videoFrames
          outstandingFrames := s.outstandingFrames ++ [videoFrame]
          numVideoKeyFrames := s.numVideoKeyFrames + (if videoFrame.mKey then 1 else 0) }).bind
        (run fuel)
  | _, _ => .runs

end Sink

--
-- Clusters
--

namespace WebmFrame

def time (f : WebmFrame) : Nat := f.mAbsTimecode.toNat

/- A video key frame. -/
def starts (f : WebmFrame) : Bool :=
  f.mType = .kVideoType ∧ f.mKey

/- In the range of relative timecodes. -/
def Near (base f : WebmFrame) : Prop :=
  f.time ≤ base.time + INT16_MAX

instance (base f : WebmFrame) : Decidable (base.Near f) :=
  Nat.decLe _ _

end WebmFrame

/- The frames of a cluster, which begins with one of them. -/
structure Cluster where
  first : WebmFrame
  others : List WebmFrame

namespace Cluster

def frames (c : Cluster) : List WebmFrame :=
  c.first :: c.others

def add (c : Cluster) (frames : List WebmFrame) : Cluster :=
  { c with others := c.others ++ frames }

def children (c : Cluster) : List WebmElement :=
  .leaf (.WebmUnsigned .kMkvTimecode c.first.mAbsTimecode) ::
    c.frames.map (·.SimpleBlock c.first.mAbsTimecode)

def element (c : Cluster) : WebmElement :=
  .WebmMaster .kMkvCluster c.children

/- The relative timecodes lead back to the timecodes. -/
def Timed (c : Cluster) : Prop :=
  ∀ f ∈ c.frames, (c.first.time : Int) + (f.relTimecode c.first.mAbsTimecode).toInt = f.time

/- The clusters that are full, and the one still open. -/
def splitOff : Cluster → List WebmFrame → List Cluster × Cluster
| c, [] => ([], c)
| c, f :: rest =>
  if c.first.Near f then splitOff (c.add [f]) rest
  else
    let (full, last) := splitOff ⟨f, []⟩ rest
    (c :: full, last)

end Cluster

--
-- Groups
--

/- The frames of one flush, and the one that is held back. -/
structure Group where
  first : WebmFrame
  others : List WebmFrame
  held : Option WebmFrame

namespace Group

def shown (g : Group) : List WebmFrame := g.first :: g.others

def frames (g : Group) : List WebmFrame :=
  g.shown ++ g.held.toList

def split (g : Group) : List Cluster × Cluster :=
  Cluster.splitOff ⟨g.first, []⟩ g.others

def clusters (g : Group) : List Cluster :=
  g.split.1 ++ [g.split.2.add g.held.toList]

/- The first frame, or the last video key frame. -/
def cueFrame (g : Group) : WebmFrame :=
  g.shown.foldl (fun cue f => if f.starts then f else cue) g.first

/- Where the last cluster begins. -/
def lastStart (g : Group) : WebmFrame :=
  g.others.foldl (fun base f => if base.Near f then base else f) g.first

/-
  The last video key frame is in the range of the first frame, and the frame that is held back in
  that of the last cluster.
-/
def Fits (g : Group) : Prop :=
  g.first.Near g.cueFrame ∧ ∀ f ∈ g.held, g.lastStart.Near f

instance (g : Group) : Decidable g.Fits :=
  inferInstanceAs (Decidable (_ ∧ _))

end Group

/-
  What another video key frame makes of the frames of a group: the group, and the frames that the
  next one begins with. An audio frame right in front of the key frame goes along.
-/
def cut (first : WebmFrame) (others : List WebmFrame) (key : WebmFrame) :
    Group × WebmFrame × List WebmFrame :=
  match others.getLast? with
  | none => (⟨first, [], none⟩, key, [])
  | some secondLastFrame =>
    if secondLastFrame.mType = .kVideoType then
      (⟨first, others.dropLast, some secondLastFrame⟩, key, [])
    else (⟨first, others.dropLast, none⟩, secondLastFrame, [key])

/- The groups, from one that has begun. -/
def groupsFrom : WebmFrame → List WebmFrame → List WebmFrame → List Group
| first, others, [] => [⟨first, others, none⟩]
| first, others, f :: rest =>
  if (first :: others).any WebmFrame.starts ∧ f.starts then
    let (g, next, more) := cut first others f
    g :: groupsFrom next more rest
  else groupsFrom first (others ++ [f]) rest

def groups : List WebmFrame → List Group
| [] => []
| f :: rest => groupsFrom f [] rest

--
-- The File
--

section Writing

variable (totalSize : WebmElement → Nat)
variable (mSegmentDataStart : BitVec 64)

/- Clusters one behind the other. -/
def placed : Nat → List Cluster → List (Nat × Cluster)
| _, [] => []
| position, c :: cs => (position, c) :: placed (position + totalSize c.element) cs

def endOf : Nat → List Cluster → Nat
| position, [] => position
| position, c :: cs => endOf (position + totalSize c.element) cs

def elementAt (c : Nat × Cluster) : Nat × WebmElement :=
  (c.1, c.2.element)

def Out.append (out : Out) (cs : List Cluster) : Out :=
  { out with
    position := endOf totalSize out.position cs
    clusters := out.clusters ++ (placed totalSize out.position cs).map elementAt }

def cueAt (f : WebmFrame) (position : Nat) : WebmElement :=
  CuePointEntry f.mAbsTimecode 1 (BitVec.ofNat 64 position - mSegmentDataStart)

def Out.addCue (out : Out) (cue : WebmElement) : Out :=
  { out with mCues := out.mCues ++ [cue] }

/- A group is written. -/
def Out.put (out : Out) (g : Group) : Out :=
  (out.append totalSize g.clusters).addCue (cueAt mSegmentDataStart g.cueFrame out.position)

/-
  All frames are in the clusters, in order and with their timecodes, and a cue stands for a frame of
  the cluster at the position that it names.
-/
def Whole (frames : List WebmFrame) (out : Out) : Prop :=
  ∃ clusters : List (Nat × Cluster),
    out.clusters = clusters.map elementAt ∧ clusters.flatMap (fun c => c.2.frames) = frames ∧
      (∀ c ∈ clusters, c.2.Timed) ∧
      ∀ cue ∈ out.mCues, ∃ c ∈ clusters, ∃ f ∈ c.2.frames, cue = cueAt mSegmentDataStart f c.1

end Writing

/- The frames of a queue in front of `EOS`. -/
def Stream (type : TrackTypes) (frames : List WebmFrame) : Prop :=
  (∀ f ∈ frames, f.mType = type ∧ f.mEos = false) ∧ frames.Pairwise (fun f g => f.time ≤ g.time)

end Webm

end FrameworksAv
