import FrameworksAv.ESQueue.Dequeue

/-
  What a parser that returns `NULL` leaves behind.

  A parser takes bytes off the buffer and off the ranges. A queue is trimmed when it is the same
  bytes that are taken.

  Main declarations:
    * `ElementaryStreamQueue.Trims`
    * `ElementaryStreamQueue.Keeps`
    * `FrameAt`, `ElementaryStreamQueue.Rejects`
    * `ElementaryStreamQueue.dequeueAccessUnit_keeps_iff`
-/

--
-- Trimmed Queues
--

namespace FrameworksAv

namespace ESQueue

open RunLength (expand total consume)

namespace ElementaryStreamQueue

/- So many bytes are taken off the buffer and the ranges. -/
structure Trims (k : Nat) (q q' : ElementaryStreamQueue) : Prop where
  buffer : q'.mBuffer = q.mBuffer.drop k
  runs : q'.runs = consume k q.runs

/-
  The sum of the lengths is the size of the buffer, and every byte that is left has the time that it
  had.
-/
def Keeps (q q' : ElementaryStreamQueue) : Prop :=
  q'.Consistent ∧ ∃ k, q'.mBuffer = q.mBuffer.drop k ∧ expand q'.runs = (expand q.runs).drop k

variable {q q' q'' : ElementaryStreamQueue} {k j : Nat}

theorem Trims.refl (q : ElementaryStreamQueue) : q.Trims 0 q :=
  ⟨List.drop_zero.symm, (RunLength.consume_zero _).symm⟩

theorem Trims.trans (hFirst : q.Trims k q') (hSecond : q'.Trims j q'') : q.Trims (k + j) q'' := by
  constructor
  · rw [hSecond.buffer, hFirst.buffer, List.drop_drop]
  · rw [hSecond.runs, hFirst.runs, RunLength.consume_add]

theorem Trims.consistent (hTrims : q.Trims k q') (hQ : q.Consistent) : q'.Consistent := by
  unfold Consistent at hQ ⊢
  rw [hTrims.buffer, hTrims.runs, RunLength.total_consume, hQ, List.length_drop]

theorem Trims.keeps (hTrims : q.Trims k q') (hQ : q.Consistent) : q.Keeps q' := by
  refine ⟨hTrims.consistent hQ, k, hTrims.buffer, ?_⟩
  rw [hTrims.runs, RunLength.expand_consume]

/- The bytes of a unit are taken off in either order. -/
theorem trims_shrink_fetch (k : Nat) : q.Trims k ((q.shrink k).fetchTimestamp k).2 :=
  ⟨rfl, fetchTimestamp_runs k⟩

theorem trims_fetch_shrink (k : Nat) : q.Trims k ((q.fetchTimestamp k).2.shrink k) :=
  ⟨rfl, fetchTimestamp_runs k⟩

end ElementaryStreamQueue

end ESQueue

--
-- Parsers Without a Search
--

namespace ESQueue

namespace ElementaryStreamQueue

variable {q q' : ElementaryStreamQueue}

theorem aac_trims {fuel : Nat} (hNull : q.dequeueAccessUnitAAC fuel = .returns (none, q')) :
    q.Trims 0 q' := by
  unfold dequeueAccessUnitAAC at hNull
  split at hNull
  · cases hNull
    exact Trims.refl q
  cases hInfos : q.mRangeInfos with
  | nil =>
    rw [hInfos] at hNull
    cases hNull
    exact Trims.refl q
  | cons info infos =>
    simp only [hInfos] at hNull
    split at hNull
    · cases hNull
      exact Trims.refl q
    split at hNull
    · cases hNull
      exact Trims.refl q
    rw [Result.map_eq_returns] at hNull
    rcases hNull with ⟨s, _, hOut⟩
    unfold leaveAACLoop at hOut
    dsimp only at hOut
    split at hOut
    · cases hOut
    · cases hOut
      refine ⟨rfl, ?_⟩
      rw [RunLength.consume_zero, runs, runs, hInfos]

theorem mpegAudio_trims (hNull : q.dequeueAccessUnitMPEGAudio = (none, q')) :
    ∃ k, q.Trims k q' := by
  unfold dequeueAccessUnitMPEGAudio at hNull
  split at hNull
  · cases hNull
    exact ⟨0, Trims.refl q⟩
  cases hFrame : AVCUtils.getMPEGAudioFrameSize q.header with
  | none =>
    rw [hFrame] at hNull
    cases hNull
    exact ⟨0, Trims.refl q⟩
  | some frame =>
    simp only [hFrame, takeMPEGAudioFrame] at hNull
    split at hNull
    · cases hNull
      exact ⟨0, Trims.refl q⟩
    split at hNull
    · cases hNull
      exact ⟨_, trims_shrink_fetch frame.frame_size⟩
    · cases hNull

theorem metadata_trims (hNull : q.dequeueAccessUnitMetadata = (none, q')) : q.Trims 0 q' := by
  unfold dequeueAccessUnitMetadata at hNull
  dsimp only at hNull
  split at hNull
  · cases hNull
    exact Trims.refl q
  · cases hNull

theorem aligned_trims (hNull : q.dequeueAligned = .returns (none, q')) : q.Trims 0 q' := by
  unfold dequeueAligned at hNull
  cases hInfos : q.mRangeInfos with
  | nil =>
    rw [hInfos] at hNull
    cases hNull
    exact Trims.refl q
  | cons info infos =>
    simp only [hInfos] at hNull
    rw [Result.check_eq_returns, Result.map_eq_returns] at hNull
    rcases hNull with ⟨_, _, _, hOut⟩
    cases hOut

--
-- H.264
--

theorem flushAccessUnit_trims {s : H264Loop} (hNull : q.flushAccessUnit s = .returns (none, q')) :
    ∃ k, q.Trims k q' := by
  unfold flushAccessUnit at hNull
  rw [Result.bind_eq_returns] at hNull
  rcases hNull with ⟨sei?, -, hNull⟩
  cases sei? with
  | none =>
    cases hNull
    exact ⟨0, Trims.refl q⟩
  | some sei =>
    cases hLast : s.nals.getLast? with
    | none =>
      simp only [hLast] at hNull
      cases hNull
    | some pos =>
      simp only [hLast] at hNull
      split at hNull
      · cases hNull
        exact ⟨_, trims_shrink_fetch _⟩
      · rw [Result.map_eq_returns] at hNull
        rcases hNull with ⟨_, _, hOut⟩
        cases hOut

theorem h264_trims {fuel : Nat} (hNull : q.dequeueAccessUnitH264 fuel = .returns (none, q')) :
    ∃ k, q.Trims k q' := by
  refine
    Result.loop_rule (fun _ => True) (fun out => out.1 = none → ∃ k, q.Trims k out.2)
      (fun _ _ _ _ _ => trivial) ?_ fuel trivial hNull rfl
  intro _ s out _ hTurn hNone
  unfold h264Turn at hTurn
  cases hNal : AVCUtils.getNextNALUnit s.data false with
  | none =>
    rw [hNal] at hTurn
    cases hTurn
    exact ⟨0, Trims.refl q⟩
  | some nal =>
    simp only [hNal] at hTurn
    split at hTurn
    · cases hTurn
    rw [Result.bind_eq_returns] at hTurn
    rcases hTurn with ⟨flush, -, hTurn⟩
    split at hTurn
    · rw [Result.map_eq_returns] at hTurn
      rcases hTurn with ⟨⟨unit, left⟩, hFlush, hOut⟩
      cases hOut
      cases hNone
      exact flushAccessUnit_trims hFlush
    · cases hTurn

end ElementaryStreamQueue

--
-- Video
--

open ElementaryStreamQueue

variable {q q' : ElementaryStreamQueue}

namespace MPEGVideoLoop

variable {s : MPEGVideoLoop}

theorem dropBefore_trims : ∃ k, s.q.Trims k s.dropBefore.q := by
  unfold dropBefore
  split
  · exact ⟨_, trims_shrink_fetch _⟩
  · exact ⟨0, Trims.refl _⟩

theorem takeSeqHeader_trims (past : Nat → Byte) : ∃ k, s.q.Trims k (s.takeSeqHeader past) := by
  unfold takeSeqHeader
  split
  · exact ⟨0, Trims.refl _⟩
  · have hTrims : s.q.Trims s.offset _ := trims_shrink_fetch s.offset
    exact ⟨s.offset, hTrims.buffer, hTrims.runs⟩

theorem takePicture_trims : s.q.Trims s.offset s.takePicture.2 := by
  unfold takePicture
  dsimp only
  split
  · exact trims_shrink_fetch _
  · exact trims_shrink_fetch _

@[simp] theorem noteGop_q (past : Nat → Byte) : (s.noteGop past).q = s.q := by
  unfold noteGop
  split <;> rfl

/- What a turn takes off, whether it is the last one or not. -/
def Outcome (s : MPEGVideoLoop) : MPEGVideoLoop ⊕ Dequeued → Prop
| .inl t => ∃ k, s.q.Trims k t.q
| .inr out => ∃ k, s.q.Trims k out.2

theorem codeTurn_outcome (past : Nat → Byte) : s.Outcome (s.codeTurn past) := by
  unfold codeTurn
  split
  · exact takeSeqHeader_trims past
  dsimp only
  split
  · split
    · have hTake := takePicture_trims (s := s.noteGop past)
      rw [noteGop_q] at hTake
      exact ⟨_, hTake⟩
    · exact ⟨0, by rw [noteGop_q]; exact Trims.refl _⟩
  · exact ⟨0, by rw [noteGop_q]; exact Trims.refl _⟩

theorem turn_outcome (past : Nat → Byte) : s.Outcome (s.turn past) := by
  unfold turn
  split
  · exact ⟨0, Trims.refl _⟩
  split
  · exact ⟨0, Trims.refl _⟩
  rcases dropBefore_trims (s := s.shift) with ⟨k, hDrop⟩
  have hCode := codeTurn_outcome (s := s.shift.dropBefore) past
  cases hNext : s.shift.dropBefore.codeTurn past with
  | inl t =>
    rw [hNext] at hCode
    rcases hCode with ⟨j, hTrims⟩
    exact ⟨_, hDrop.trans hTrims⟩
  | inr out =>
    rw [hNext] at hCode
    rcases hCode with ⟨j, hTrims⟩
    exact ⟨_, hDrop.trans hTrims⟩

end MPEGVideoLoop

namespace MPEG4Loop

variable {s : MPEG4Loop}

theorem discard_trims : s.q.Trims s.offset s.discard.q :=
  trims_fetch_shrink _

theorem takeVop_trims (chunkSize : Nat) :
    s.q.Trims (s.offset + chunkSize) (s.takeVop chunkSize).2 := by
  unfold takeVop
  dsimp only
  split
  · exact trims_shrink_fetch _
  · exact trims_shrink_fetch _

/- What a turn takes off, whether it is the last one or not. -/
def Outcome (s : MPEG4Loop) : MPEG4Loop ⊕ Dequeued → Prop
| .inl t => ∃ k, s.q.Trims k t.q
| .inr out => ∃ k, s.q.Trims k out.2

theorem chunk_outcome {chunkSize chunkType : Nat} {next : MPEG4Loop ⊕ Dequeued}
    (hChunk : s.chunk chunkSize chunkType = .returns next) : s.Outcome next := by
  unfold chunk at hChunk
  cases hState : s.state with
  | SKIP_TO_VISUAL_OBJECT_SEQ_START =>
    simp only [hState] at hChunk
    split at hChunk
    · cases hChunk
      exact ⟨0, Trims.refl _⟩
    · cases hChunk
      exact ⟨_, discard_trims⟩
  | EXPECT_VISUAL_OBJECT_START =>
    simp only [hState] at hChunk
    split at hChunk
    · cases hChunk
      exact ⟨0, Trims.refl _⟩
    · cases hChunk
      exact ⟨0, Trims.refl _⟩
  | EXPECT_VO_START =>
    simp only [hState] at hChunk
    split at hChunk
    · cases hChunk
      exact ⟨0, Trims.refl _⟩
    · cases hChunk
      exact ⟨0, Trims.refl _⟩
  | EXPECT_VOL_START =>
    simp only [hState] at hChunk
    split at hChunk
    · cases hChunk
      exact ⟨0, Trims.refl _⟩
    · rw [Result.map_eq_returns] at hChunk
      rcases hChunk with ⟨_, _, hNext⟩
      cases hNext
      exact ⟨0, Trims.refl _⟩
  | WAIT_FOR_VOP_START =>
    simp only [hState] at hChunk
    split at hChunk
    · cases hChunk
      exact ⟨s.offset, discard_trims.buffer, discard_trims.runs⟩
    · cases hChunk
      exact ⟨0, Trims.refl _⟩
  | SKIP_TO_VOP_START =>
    simp only [hState] at hChunk
    split at hChunk
    · cases hChunk
      exact ⟨_, takeVop_trims chunkSize⟩
    split at hChunk
    · cases hChunk
      exact ⟨_, discard_trims (s := s.keep chunkSize)⟩
    · cases hChunk
      exact ⟨0, Trims.refl _⟩

theorem turn_outcome {next : MPEG4Loop ⊕ Dequeued} (hTurn : s.turn = .returns next) :
    s.Outcome next := by
  unfold turn at hTurn
  split at hTurn
  · cases hTurn
    exact ⟨0, Trims.refl _⟩
  · exact chunk_outcome hTurn

end MPEG4Loop

namespace ElementaryStreamQueue

theorem mpegVideo_trims {past : Nat → Byte} {fuel : Nat} {out : Dequeued}
    (hOut : q.dequeueAccessUnitMPEGVideo past fuel = .returns out) : ∃ k, q.Trims k out.2 := by
  refine
    Result.loop_rule (fun s : MPEGVideoLoop => ∃ k, q.Trims k s.q)
      (fun out => ∃ k, q.Trims k out.2) ?_ ?_ fuel ⟨0, Trims.refl q⟩ hOut
  · rintro _ s t ⟨k, hTrims⟩ hTurn
    have hOutcome := s.turn_outcome past
    rw [Result.returns.inj hTurn] at hOutcome
    rcases hOutcome with ⟨j, hMore⟩
    exact ⟨_, hTrims.trans hMore⟩
  · rintro _ s out ⟨k, hTrims⟩ hTurn
    have hOutcome := s.turn_outcome past
    rw [Result.returns.inj hTurn] at hOutcome
    rcases hOutcome with ⟨j, hMore⟩
    exact ⟨_, hTrims.trans hMore⟩

theorem mpeg4_trims {fuel : Nat} {out : Dequeued}
    (hOut : q.dequeueAccessUnitMPEG4Video fuel = .returns out) : ∃ k, q.Trims k out.2 := by
  refine
    Result.loop_rule (fun s : MPEG4Loop => ∃ k, q.Trims k s.q)
      (fun out => ∃ k, q.Trims k out.2) ?_ ?_ fuel ⟨0, Trims.refl q⟩ hOut
  · rintro _ s t ⟨k, hTrims⟩ hTurn
    rcases MPEG4Loop.turn_outcome hTurn with ⟨j, hMore⟩
    exact ⟨_, hTrims.trans hMore⟩
  · rintro _ s out ⟨k, hTrims⟩ hTurn
    rcases MPEG4Loop.turn_outcome hTurn with ⟨j, hMore⟩
    exact ⟨_, hTrims.trans hMore⟩

end ElementaryStreamQueue

end ESQueue

--
-- The Search for a Frame
--

namespace ESQueue

open ATSParser (ABitReader)
open AVCUtils (Format)

variable {data : List Byte} {frame : SyncFrame}

/- A frame does not fit into fewer bytes. -/
theorem parseAC3SyncFrame_length {payloadSize : Nat} {format : Option Format}
    (hParse : parseAC3SyncFrame data = some (payloadSize, format)) (hSome : 0 < payloadSize) :
    7 ≤ data.length := by
  by_contra hShort
  have hAt := ABitReader.create_at data
  have hLeft := hAt.numBitsLeft
  have hEmpty : parseAC3SyncFrame data = some (0, none) := by
    unfold parseAC3SyncFrame
    by_cases hRoom : (ABitReader.create data).numBitsLeft < 16
    · exact if_pos hRoom
    simp only [if_neg hRoom, Option.bind_eq_bind]
    rcases hAt.getBits (by decide : 16 ≤ 32) (by omega) with ⟨bits, hGet, hNext⟩
    have hRest := hNext.numBitsLeft
    simp only [hGet, Option.bind_some]
    rw [if_pos (by omega : bits.numBitsLeft < 16 + 2 + 6 + 5 + 3 + 3)]
    exact ite_self _
  rw [hEmpty] at hParse
  cases hParse
  exact absurd hSome (Nat.lt_irrefl 0)

/- The frame that a search from the start comes to. -/
structure FrameAt (data : List Byte) (frame : SyncFrame) : Prop where
  start_lt : frame.syncStartPos < 2 ^ 32
  before : ∀ j, j < frame.syncStartPos → isSeeminglyValidAC3Header (data.drop j) = false
  parse : parseAC3SyncFrame (data.drop frame.syncStartPos) = some (frame.payloadSize, frame.format)
  size_pos : 0 < frame.payloadSize

theorem FrameAt.fits (hFrame : FrameAt data frame) : frame.syncStartPos + 7 ≤ data.length := by
  have hLength := parseAC3SyncFrame_length hFrame.parse hFrame.size_pos
  rw [List.length_drop] at hLength
  omega

/- A turn that does not end the search. -/
theorem syncTurn_next {pos : Nat} (hRoom : u32 (pos + 2) < data.length)
    (hNot : isSeeminglyValidAC3Header (data.drop pos) = false) :
    syncTurn data pos = .returns (.inl (u32 (pos + 1))) := by
  rcases parseAC3SyncFrame_total (data.drop pos) with ⟨⟨payloadSize, format⟩, hParse⟩
  unfold isSeeminglyValidAC3Header at hNot
  simp only [hParse] at hNot
  unfold syncTurn
  rw [if_neg (by omega), hParse]
  exact if_neg (of_decide_eq_false hNot)

theorem syncTurn_found (frame : SyncFrame) (hRoom : u32 (frame.syncStartPos + 2) < data.length)
    (hParse :
      parseAC3SyncFrame (data.drop frame.syncStartPos) = some (frame.payloadSize, frame.format))
    (hSome : 0 < frame.payloadSize) :
    syncTurn data frame.syncStartPos = .returns (.inr (some frame)) := by
  unfold syncTurn
  rw [if_neg (by omega), hParse]
  exact if_pos hSome

/- What a turn of the search can do. -/
theorem syncTurn_cases (data : List Byte) (pos : Nat) :
    data.length ≤ u32 (pos + 2) ∧ syncTurn data pos = .returns (.inr none) ∨
      isSeeminglyValidAC3Header (data.drop pos) = false ∧
        syncTurn data pos = .returns (.inl (u32 (pos + 1))) ∨
      ∃ payloadSize format,
        parseAC3SyncFrame (data.drop pos) = some (payloadSize, format) ∧ 0 < payloadSize ∧
          syncTurn data pos = .returns (.inr (some ⟨pos, payloadSize, format⟩)) := by
  by_cases hEnd : data.length ≤ u32 (pos + 2)
  · exact Or.inl ⟨hEnd, if_pos hEnd⟩
  rcases parseAC3SyncFrame_total (data.drop pos) with ⟨⟨payloadSize, format⟩, hParse⟩
  by_cases hSome : 0 < payloadSize
  · exact Or.inr (Or.inr ⟨payloadSize, format, hParse, hSome,
      syncTurn_found ⟨pos, payloadSize, format⟩ (Nat.lt_of_not_le hEnd) hParse hSome⟩)
  · have hNot : isSeeminglyValidAC3Header (data.drop pos) = false := by
      unfold isSeeminglyValidAC3Header
      rw [hParse]
      exact decide_eq_false hSome
    exact Or.inr (Or.inl ⟨hNot, syncTurn_next (by omega) hNot⟩)

/- A search that ends with a frame has come to the first one. -/
theorem search_frameAt {fuel : Nat}
    (hSearch : Result.loop (fun _ => syncTurn data) fuel 0 = .returns (some frame)) :
    FrameAt data frame := by
  refine
    Result.loop_rule
      (fun pos =>
        pos < 2 ^ 32 ∧ ∀ j, j < pos → isSeeminglyValidAC3Header (data.drop j) = false)
      (fun found => ∀ frame, found = some frame → FrameAt data frame) ?_ ?_ fuel
      ⟨by decide, fun j hj => absurd hj (Nat.not_lt_zero j)⟩ hSearch frame rfl
  · rintro _ pos next ⟨hLt, hBefore⟩ hTurn
    rcases syncTurn_cases data pos with ⟨_, hEnd⟩ | ⟨hNot, hNext⟩ | ⟨_, _, _, _, hFound⟩
    · rw [hEnd] at hTurn
      cases hTurn
    · rw [hNext] at hTurn
      cases hTurn
      refine ⟨Nat.mod_lt _ (by decide), fun j hj => ?_⟩
      have hLe : u32 (pos + 1) ≤ pos + 1 := Nat.mod_le _ _
      rcases Nat.lt_succ_iff_lt_or_eq.mp (Nat.lt_of_lt_of_le hj hLe) with hOld | rfl
      · exact hBefore j hOld
      · exact hNot
    · rw [hFound] at hTurn
      cases hTurn
  · rintro _ pos found ⟨hLt, hBefore⟩ hTurn frame rfl
    rcases syncTurn_cases data pos with
      ⟨_, hEnd⟩ | ⟨_, hNext⟩ | ⟨payloadSize, format, hParse, hSome, hFound⟩
    · rw [hEnd] at hTurn
      cases hTurn
    · rw [hNext] at hTurn
      cases hTurn
    · rw [hFound] at hTurn
      cases hTurn
      exact ⟨hLt, hBefore, hParse, hSome⟩

/- The search comes to the first frame. -/
theorem FrameAt.search (hFrame : FrameAt data frame) :
    Reaches (fun fuel => Result.loop (fun _ => syncTurn data) fuel 0) (some frame) := by
  have hFits := hFrame.fits
  have hStart := hFrame.start_lt
  suffices hFrom :
      ∀ left, left ≤ frame.syncStartPos →
        Reaches
          (fun fuel =>
            Result.loop (fun _ => syncTurn data) fuel (frame.syncStartPos - left))
          (some frame) by
    have hAll := hFrom frame.syncStartPos (Nat.le_refl _)
    rwa [Nat.sub_self] at hAll
  -- the word wraps only two bytes before its end
  have hRoom : ∀ pos, pos ≤ frame.syncStartPos → u32 (pos + 2) < data.length := by
    intro pos hPos
    have hLe : u32 (pos + 2) ≤ pos + 2 := Nat.mod_le _ _
    omega
  intro left
  induction left with
  | zero =>
    intro _
    apply Reaches.loop_end
    exact Reaches.of_eq fun _ =>
      syncTurn_found frame (hRoom _ (Nat.le_refl _)) hFrame.parse hFrame.size_pos
  | succ left ih =>
    intro hLeft
    refine Reaches.loop_turn (Reaches.of_eq fun _ => ?_) (ih (by omega))
    rw [syncTurn_next (hRoom _ (by omega)) (hFrame.before _ (by omega))]
    have hNext : frame.syncStartPos - (left + 1) + 1 = frame.syncStartPos - left := by
      omega
    rw [hNext, u32, Nat.mod_eq_of_lt (by omega)]

end ESQueue

--
-- Rejected Frames
--

namespace ESQueue

open RunLength (total consume)

namespace ElementaryStreamQueue

variable {q q' : ElementaryStreamQueue}

/- A complete frame is found, and the time of the first range is negative. -/
def Rejects (q : ElementaryStreamQueue) : Prop :=
  q.firstTime < 0 ∧
    ((q.mMode = .AC3 ∧
        ∃ frame,
          FrameAt q.mBuffer frame ∧ 0 < u32 (frame.syncStartPos + frame.payloadSize) ∧
            u32 (frame.syncStartPos + frame.payloadSize) ≤ q.mBuffer.length) ∨
      (q.mMode = Mode.PCM_AUDIO ∧
        ∃ numAUs,
          parsePCMHeader (q.mBuffer.take 4) = some (some numAUs) ∧
            4 + numAUs * frameSize * kFramesPerAU ≤ q.mBuffer.length))

/- Ranges that are taken off alone do not keep the sum. -/
theorem not_keeps_of_fetched {size : Nat} (format : Option AVCUtils.Format) (hQ : q.Consistent)
    (hSome : 0 < size) (hLe : size ≤ q.mBuffer.length) :
    ¬q.Keeps (fetchTimestamp { q with mFormat := format } size).2 := by
  rintro ⟨hSum, -⟩
  unfold Consistent at hQ hSum
  rw [fetchTimestamp_runs, RunLength.total_consume,
    show runs { q with mFormat := format } = q.runs from rfl,
    hQ] at hSum
  have hSame : q.mBuffer.length - size = q.mBuffer.length := hSum
  omega

theorem takeSyncFrame_trims {frame : SyncFrame}
    (hTime :
      0 < u32 (frame.syncStartPos + frame.payloadSize) →
        u32 (frame.syncStartPos + frame.payloadSize) ≤ q.mBuffer.length → ¬q.firstTime < 0)
    (hNull : q.takeSyncFrame frame = .returns (none, q')) : q.Trims 0 q' := by
  unfold takeSyncFrame at hNull
  dsimp only at hNull
  split at hNull
  · cases hNull
    exact Trims.refl q
  next hComplete =>
    by_cases hZero : u32 (frame.syncStartPos + frame.payloadSize) = 0
    · rw [hZero, fetchTimestamp_zero, if_pos (show (-1 : Int) < 0 by decide)] at hNull
      cases hNull
      exact ⟨List.drop_zero.symm, (RunLength.consume_zero _).symm⟩
    · have hFirst := hTime (by omega) (by omega)
      rw [fetchTimestamp_time (by omega), if_neg
        (show ¬firstTime { q with mFormat := q.mFormat.or frame.format } < 0
          from hFirst),
        Result.check_eq_returns] at hNull
      cases hNull.2

theorem ac3_trims {fuel : Nat} (hMode : q.mMode = .AC3) (hNot : ¬q.Rejects)
    (hNull : q.dequeueAccessUnitAC3 fuel = .returns (none, q')) : q.Trims 0 q' := by
  unfold dequeueAccessUnitAC3 at hNull
  rw [Result.bind_eq_returns] at hNull
  rcases hNull with ⟨found, hSearch, hNull⟩
  cases found with
  | none =>
    cases hNull
    exact Trims.refl q
  | some frame =>
    refine takeSyncFrame_trims ?_ hNull
    intro hSome hLe hTime
    exact hNot ⟨hTime, Or.inl ⟨hMode, frame, search_frameAt hSearch, hSome, hLe⟩⟩

theorem pcm_trims (hMode : q.mMode = Mode.PCM_AUDIO) (hNot : ¬q.Rejects)
    (hNull : q.dequeueAccessUnitPCMAudio = .returns (none, q')) : q.Trims 0 q' := by
  unfold dequeueAccessUnitPCMAudio at hNull
  split at hNull
  · cases hNull
    exact Trims.refl q
  rw [Result.map_eq_returns] at hNull
  rcases hNull with ⟨header, hHeader, hNull⟩
  cases header with
  | none =>
    cases hNull
    exact Trims.refl q
  | some numAUs =>
    unfold takePCMFrames at hNull
    dsimp only at hNull
    split at hNull
    · cases hNull
      exact ⟨List.drop_zero.symm, (RunLength.consume_zero _).symm⟩
    next hComplete =>
      split at hNull
      next hTime =>
        rw [fetchTimestamp_time (by omega)] at hTime
        refine absurd ⟨hTime, Or.inr ⟨hMode, numAUs, ?_, ?_⟩⟩ hNot
        · cases hParse : parsePCMHeader (q.mBuffer.take 4) with
          | none =>
            rw [hParse] at hHeader
            cases hHeader
          | some header =>
            rw [hParse] at hHeader
            cases hHeader
            rfl
        · exact Nat.le_of_not_lt hComplete
      · cases hNull

theorem takeSyncFrame_rejected {frame : SyncFrame} (hTime : q.firstTime < 0)
    (hSome : 0 < u32 (frame.syncStartPos + frame.payloadSize))
    (hLe : u32 (frame.syncStartPos + frame.payloadSize) ≤ q.mBuffer.length) :
    q.takeSyncFrame frame =
      .returns
        (none,
          (fetchTimestamp { q with mFormat := q.mFormat.or frame.format }
            (u32 (frame.syncStartPos + frame.payloadSize))).2) := by
  unfold takeSyncFrame
  dsimp only
  rw [if_neg (by omega), if_pos]
  rw [fetchTimestamp_time hSome]
  exact hTime

theorem takePCMFrames_rejected {numAUs : Nat} (hTime : q.firstTime < 0)
    (hLe : 4 + numAUs * frameSize * kFramesPerAU ≤ q.mBuffer.length) :
    q.takePCMFrames numAUs =
      (none,
        (fetchTimestamp { q with mFormat := q.mFormat.or (some (.raw 2 48000)) }
          (numAUs * frameSize * kFramesPerAU + 4)).2) := by
  unfold takePCMFrames
  dsimp only
  rw [if_neg (by omega), if_pos]
  rw [fetchTimestamp_time (by omega)]
  exact hTime

/- A parser that rejects its frame takes only ranges off. -/
theorem rejects_not_keeps (past : Nat → Byte) (hQ : q.Consistent) (hRejects : q.Rejects) :
    ∃ fuel q', q.dequeueAccessUnit past fuel = .returns (none, q') ∧ ¬q.Keeps q' := by
  rcases hRejects with ⟨hTime, ⟨hMode, frame, hFrame, hSome, hLe⟩ | ⟨hMode, numAUs, hHeader, hLe⟩⟩
  · rcases hFrame.search.returns with ⟨fuel, hSearch⟩
    refine ⟨fuel, _, ?_, not_keeps_of_fetched (q.mFormat.or frame.format) hQ hSome hLe⟩
    simp only [dequeueAccessUnit, hMode]
    rw [if_neg (by exact nofun), dequeueAccessUnitAC3, hSearch, Result.bind_returns]
    have hRejected := takeSyncFrame_rejected hTime hSome hLe
    rwa [hMode] at hRejected
  · refine ⟨0, _, ?_,
      not_keeps_of_fetched (q.mFormat.or (some (.raw 2 48000))) hQ
        (by omega : 0 < numAUs * frameSize * kFramesPerAU + 4) (by omega)⟩
    simp only [dequeueAccessUnit, hMode]
    rw [if_neg (by exact nofun), dequeueAccessUnitPCMAudio, if_neg (by omega), hHeader]
    have hRejected := takePCMFrames_rejected hTime hLe
    rw [hMode] at hRejected
    exact congrArg Result.returns hRejected

/-
  Whatever returns `NULL` leaves the ranges and the bytes in step, but for a frame that is rejected.
-/
theorem dequeueAccessUnit_keeps_iff (past : Nat → Byte) (q : ElementaryStreamQueue)
    (hQ : q.Consistent) :
    (∀ fuel q', q.dequeueAccessUnit past fuel = .returns (none, q') → q.Keeps q') ↔ ¬q.Rejects := by
  constructor
  · intro hAll hRejects
    rcases rejects_not_keeps past hQ hRejects with ⟨fuel, q', hNull, hNot⟩
    exact hNot (hAll fuel q' hNull)
  · intro hNot fuel q' hNull
    suffices hTrims : ∃ k, q.Trims k q' by
      rcases hTrims with ⟨k, hTrims⟩
      exact hTrims.keeps hQ
    unfold dequeueAccessUnit at hNull
    split at hNull
    · exact ⟨0, aligned_trims hNull⟩
    cases hMode : q.mMode with
    | H264 =>
      rw [hMode] at hNull
      exact h264_trims hNull
    | AAC =>
      rw [hMode] at hNull
      exact ⟨0, aac_trims hNull⟩
    | AC3 =>
      rw [hMode] at hNull
      exact ⟨0, ac3_trims hMode hNot hNull⟩
    | MPEG_AUDIO =>
      rw [hMode] at hNull
      exact mpegAudio_trims (Result.returns.inj hNull)
    | MPEG_VIDEO =>
      rw [hMode] at hNull
      exact mpegVideo_trims hNull
    | MPEG4_VIDEO =>
      rw [hMode] at hNull
      exact mpeg4_trims hNull
    | PCM_AUDIO =>
      rw [hMode] at hNull
      exact ⟨0, pcm_trims hMode hNot hNull⟩
    | METADATA =>
      rw [hMode] at hNull
      exact ⟨0, metadata_trims (Result.returns.inj hNull)⟩

/- A packet of PCM whose time is known. -/
theorem dequeueAccessUnit_keeps_pcm :
    (∀ fuel q',
        dequeueAccessUnit (fun _ => 0) fuel
            { create Mode.PCM_AUDIO false with
              mBuffer := [0xa0, 0, 0, 0x11]
              mRangeInfos := [⟨5, 3⟩, ⟨-1, 1⟩] } =
            .returns (none, q') →
          Keeps
            { create Mode.PCM_AUDIO false with
              mBuffer := [0xa0, 0, 0, 0x11]
              mRangeInfos := [⟨5, 3⟩, ⟨-1, 1⟩] } q') ↔
      ¬Rejects
        { create Mode.PCM_AUDIO false with
          mBuffer := [0xa0, 0, 0, 0x11]
          mRangeInfos := [⟨5, 3⟩, ⟨-1, 1⟩] } :=
  dequeueAccessUnit_keeps_iff _ _ (by decide)

/- A packet of PCM, with one access unit. -/
def pcmPacket : List Byte :=
  0xa0 :: 1 :: 0 :: 0x11 :: List.replicate 320 0

/- Its time is not known. -/
theorem dequeueAccessUnit_not_keeps :
    ∃ q q',
      (create Mode.PCM_AUDIO false).appendData pcmPacket (-1) = some q ∧ q.Consistent ∧
        q.dequeueAccessUnit (fun _ => 0) 0 = .returns (none, q') ∧
        q'.mBuffer = pcmPacket ∧ q'.mRangeInfos = [] ∧ ¬q.Keeps q' := by
  refine
    ⟨{ create Mode.PCM_AUDIO false with
        mBuffer := pcmPacket
        mRangeInfos := [⟨-1, 324⟩] },
      { create Mode.PCM_AUDIO false with
        mBuffer := pcmPacket
        mFormat := some (.raw 2 48000) },
      by decide +kernel, by decide +kernel, by decide +kernel,
      rfl, rfl, ?_⟩
  rintro ⟨hSum, -⟩
  revert hSum
  decide +kernel

end ElementaryStreamQueue

end ESQueue

end FrameworksAv
