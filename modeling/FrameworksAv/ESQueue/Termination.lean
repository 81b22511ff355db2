import FrameworksAv.ESQueue.Consistency

/-
  Whether a parser returns.

  A loop of a parser comes to its end unless a turn of it leaves everything as it is.

  Main declarations:
    * `FramesTo`, `ElementaryStreamQueue.Stuck`
    * `ElementaryStreamQueue.Fails`
    * `ElementaryStreamQueue.dequeueAccessUnit_returns_iff`
-/

--
-- AAC
--

namespace FrameworksAv

namespace ESQueue

open ATSParser (ABitReader field)
open AVCUtils (Format)

variable {data : List Byte} {mLength : Nat} {mFormat : Option Format}

/- The headers lead from the start to this offset, and to this `mFormat`. -/
inductive FramesTo (data : List Byte) (mLength : Nat)
    (mFormat : Option Format) : Nat → Option Format → Prop
| start : FramesTo data mLength mFormat 0 mFormat
| frame {offset aac_frame_length : Nat} {before after : Option Format}
    (frames : FramesTo data mLength mFormat offset before) (offset_lt : offset < mLength)
    (room : offset + 7 ≤ data.length)
    (header : readADTSHeader (data.drop offset) before = some (some aac_frame_length, after))
    (fits : offset + aac_frame_length ≤ data.length) :
    FramesTo data mLength mFormat (offset + aac_frame_length) after

/- A header that the headers lead to is read. -/
def HeaderReached (data : List Byte) (mLength : Nat) (mFormat : Option Format)
    (header : Option (Option Nat × Option Format)) : Prop :=
  ∃ offset before,
    FramesTo data mLength mFormat offset before ∧ offset < mLength ∧ offset + 7 ≤ data.length ∧
      readADTSHeader (data.drop offset) before = header

theorem readADTSLength_at {bits : ABitReader} (hRoom : 7 ≤ data.length) (hAt : bits.At data 28) :
    readADTSLength bits = some (if field data 54 2 ≠ 0 then none else some (field data 30 13)) := by
  unfold readADTSLength
  rcases hAt.skipBits (n := 2) (by omega) with ⟨bits₁, hSkip₁, hAt₁⟩
  rcases hAt₁.getBits (by decide : 13 ≤ 32) (by omega) with ⟨bits₂, hGet₂, hAt₂⟩
  rcases hAt₂.skipBits (n := 11) (by omega) with ⟨bits₃, hSkip₃, hAt₃⟩
  rcases hAt₃.getBits (by decide : 2 ≤ 32) (by omega) with ⟨bits₄, hGet₄, -⟩
  simp only [hSkip₁, hGet₂, hSkip₃, hGet₄, Option.bind_eq_bind, Option.bind_some]
  split
  · rfl
  · rfl

/- The format takes up twelve bits, made or skipped. -/
theorem readADTSFormat_at {bits : ABitReader} (hRoom : 7 ≤ data.length) (hAt : bits.At data 16)
    {format : Format} {behind : ABitReader}
    (hFormat : readADTSFormat mFormat bits = some (some (format, behind))) :
    behind.At data 28 ∧
      ∃ skipped,
        readADTSFormat (some format) bits = some (some (format, skipped)) ∧ skipped.At data 28 := by
  rcases hAt.skipBits (n := 12) (by omega) with ⟨skipped, hSkip, hSkipped⟩
  have hAgain : ∀ format, readADTSFormat (some format) bits = some (some (format, skipped)) := by
    intro format
    simp only [readADTSFormat, hSkip, Option.bind_eq_bind, Option.bind_some]
    rfl
  refine ⟨?_, skipped, hAgain format, hSkipped⟩
  cases mFormat with
  | some known =>
    rw [hAgain] at hFormat
    cases hFormat
    exact hSkipped
  | none =>
    rcases hAt.getBits (by decide : 2 ≤ 32) (by omega) with ⟨bits₁, hGet₁, hAt₁⟩
    rcases hAt₁.getBits (by decide : 4 ≤ 32) (by omega) with ⟨bits₂, hGet₂, hAt₂⟩
    rcases hAt₂.getBits (by decide : 1 ≤ 32) (by omega) with ⟨bits₃, hGet₃, hAt₃⟩
    rcases hAt₃.getBits (by decide : 3 ≤ 32) (by omega) with ⟨bits₄, hGet₄, hAt₄⟩
    rcases hAt₄.skipBits (n := 2) (by omega) with ⟨bits₅, hSkip₅, hAt₅⟩
    simp only [readADTSFormat, hGet₁, hGet₂, hGet₃, hGet₄,
      hSkip₅, Option.bind_eq_bind, Option.bind_some] at hFormat
    split at hFormat
    · cases hFormat
    split at hFormat
    · cases hFormat
    rw [Option.bind_eq_some_iff] at hFormat
    rcases hFormat with ⟨made, -, hSame⟩
    cases hSame
    exact hAt₅

/- Once there is a format, the header is read as before. -/
theorem readADTSHeader_again {after : Option Format} {aac_frame_length : Nat}
    (hRoom : 7 ≤ data.length)
    (hHeader : readADTSHeader data mFormat = some (some aac_frame_length, after)) :
    readADTSHeader data after = some (some aac_frame_length, after) := by
  have hAt := ABitReader.create_at data
  rcases hAt.getBits (by decide : 12 ≤ 32) (by omega) with ⟨bits₁, hGet₁, hAt₁⟩
  rcases hAt₁.skipBits (n := 3) (by omega) with ⟨bits₂, hSkip₂, hAt₂⟩
  rcases hAt₂.getBits (by decide : 1 ≤ 32) (by omega) with ⟨bits₃, hGet₃, hAt₃⟩
  unfold readADTSHeader at hHeader ⊢
  simp only [hGet₁, hSkip₂, hGet₃, Option.bind_eq_bind, Option.bind_some] at hHeader ⊢
  by_cases hSync : field data 0 12 ≠ 0xfff
  · rw [if_pos hSync] at hHeader
    cases hHeader
  rw [if_neg hSync] at hHeader ⊢
  cases hFormat : readADTSFormat mFormat bits₃ with
  | none =>
    rw [hFormat] at hHeader
    cases hHeader
  | some made =>
    cases made with
    | none =>
      rw [hFormat] at hHeader
      cases hHeader
    | some made =>
      rcases made with ⟨format, behind⟩
      rcases readADTSFormat_at hRoom hAt₃ hFormat with ⟨hBehind, skipped, hAgain, hSkipped⟩
      simp only [hFormat, Option.bind_some, readADTSLength_at hRoom hBehind] at hHeader
      have hBoth := Prod.mk.inj (Option.some.inj hHeader)
      rw [← hBoth.2]
      simp only [hAgain, Option.bind_some, readADTSLength_at hRoom hSkipped]
      rw [hBoth.1]
      rfl

theorem aacTurn_frame {offset aac_frame_length : Nat} {before after : Option Format}
    (hLt : offset < mLength) (hRoom : offset + 7 ≤ data.length)
    (hHeader : readADTSHeader (data.drop offset) before = some (some aac_frame_length, after))
    (hFits : offset + aac_frame_length ≤ data.length) :
    aacTurn data mLength ⟨offset, before, false⟩ =
      .returns (.inl ⟨offset + aac_frame_length, after, false⟩) := by
  unfold aacTurn
  rw [if_neg (Nat.not_le_of_lt hLt), if_neg (by dsimp only; omega)]
  dsimp only
  rw [hHeader]
  exact if_neg (by omega)

theorem FramesTo.turns {offset : Nat} {after : Option Format}
    (hFrames : FramesTo data mLength mFormat offset after) :
    Result.Turns (aacTurn data mLength) ⟨0, mFormat, false⟩ ⟨offset, after, false⟩ := by
  induction hFrames with
  | start => exact Result.Turns.start
  | frame _ hLt hRoom hHeader hFits ih => exact ih.turn (aacTurn_frame hLt hRoom hHeader hFits)

/- What a turn does at an offset that the headers lead to. -/
theorem aacTurn_cases {offset : Nat} {before : Option Format}
    (hFrames : FramesTo data mLength mFormat offset before) :
    (∃ s, aacTurn data mLength ⟨offset, before, false⟩ = .returns (.inr s)) ∨
      HeaderReached data mLength mFormat none ∨
      ∃ aac_frame_length after,
        HeaderReached data mLength mFormat (some (some aac_frame_length, after)) ∧
          offset < mLength ∧ FramesTo data mLength mFormat (offset + aac_frame_length) after ∧
          aacTurn data mLength ⟨offset, before, false⟩ =
            .returns (.inl ⟨offset + aac_frame_length, after, false⟩) := by
  by_cases hLt : offset < mLength
  · by_cases hRoom : offset + 7 ≤ data.length
    · cases hHeader : readADTSHeader (data.drop offset) before with
      | none => exact Or.inr (Or.inl ⟨offset, before, hFrames, hLt, hRoom, hHeader⟩)
      | some header =>
        rcases header with ⟨length?, after⟩
        cases length? with
        | none =>
          refine Or.inl ⟨⟨offset, after, false⟩, ?_⟩
          unfold aacTurn
          rw [if_neg (Nat.not_le_of_lt hLt), if_neg (by dsimp only; omega)]
          dsimp only
          rw [hHeader]
          rfl
        | some aac_frame_length =>
          by_cases hFits : offset + aac_frame_length ≤ data.length
          · exact Or.inr (Or.inr
              ⟨aac_frame_length, after, ⟨offset, before, hFrames, hLt, hRoom, hHeader⟩, hLt,
                hFrames.frame hLt hRoom hHeader hFits, aacTurn_frame hLt hRoom hHeader hFits⟩)
          · refine Or.inl ⟨⟨offset, after, false⟩, ?_⟩
            unfold aacTurn
            rw [if_neg (Nat.not_le_of_lt hLt), if_neg (by dsimp only; omega)]
            dsimp only
            rw [hHeader]
            exact if_pos (by omega)
    · refine Or.inl ⟨⟨offset, before, false⟩, ?_⟩
      unfold aacTurn
      rw [if_neg (Nat.not_le_of_lt hLt), if_pos (by dsimp only; omega)]
  · exact Or.inl ⟨⟨offset, before, true⟩, if_pos (Nat.le_of_not_lt hLt)⟩

/-
  The loop is left unless the headers lead to a frame without bytes, or to a header that fails a
  check.
-/
theorem aac_ends_iff (data : List Byte) (mLength : Nat) (mFormat : Option Format) :
    (∃ s, Result.Ends (aacTurn data mLength) ⟨0, mFormat, false⟩ s) ↔
      (¬∃ after, HeaderReached data mLength mFormat (some (some 0, after))) ∧
        ¬HeaderReached data mLength mFormat none := by
  constructor
  · rintro ⟨s, hEnds⟩
    constructor
    · rintro ⟨after, offset, before, hFrames, hLt, hRoom, hHeader⟩
      have hNext := hFrames.frame hLt hRoom hHeader (by omega)
      have hAgain := readADTSHeader_again (by rw [List.length_drop]; omega) hHeader
      exact Result.not_ends_of_same (aacTurn_frame hLt hRoom hAgain (by omega))
        (hNext.turns.ends_iff.mp hEnds)
    · rintro ⟨offset, before, hFrames, hLt, hRoom, hHeader⟩
      refine Result.not_ends_of_aborts ?_ (hFrames.turns.ends_iff.mp hEnds)
      unfold aacTurn
      rw [if_neg (Nat.not_le_of_lt hLt), if_neg (by dsimp only; omega)]
      dsimp only
      rw [hHeader]
      rfl
  · rintro ⟨hNotStuck, hNotFails⟩
    refine
      Result.exists_ends
        (fun s =>
          s.done = false ∧ FramesTo data mLength mFormat s.offset s.mFormat)
        (fun s => mLength - s.offset) ?_ ⟨rfl, FramesTo.start⟩
    rintro ⟨offset, before, _⟩ ⟨rfl, hFrames⟩
    rcases aacTurn_cases hFrames with
      ⟨s, hLast⟩ | hFails | ⟨aac_frame_length, after, hHeader, hLt, hNext, hTurn⟩
    · exact Or.inr ⟨s, hLast⟩
    · exact absurd hFails hNotFails
    · refine Or.inl ⟨_, hTurn, ⟨rfl, hNext⟩, ?_⟩
      have hSome : 0 < aac_frame_length := by
        refine Nat.pos_of_ne_zero fun hZero => ?_
        rw [hZero] at hHeader
        exact hNotStuck ⟨after, hHeader⟩
      have hLess : offset < mLength := hLt
      show mLength - (offset + aac_frame_length) < mLength - offset
      omega

end ESQueue

--
-- AC3
--

namespace ESQueue

variable {data : List Byte}

/- No frame begins where the search looks. -/
def NoFrame (data : List Byte) : Prop :=
  ∀ frame, ¬FrameAt data frame

theorem not_valid_of_noFrame (hNone : NoFrame data) {pos : Nat} (hLt : pos < 2 ^ 32) :
    isSeeminglyValidAC3Header (data.drop pos) = false := by
  induction pos using Nat.strongRecOn with
  | ind pos ih =>
    rcases parseAC3SyncFrame_total (data.drop pos) with ⟨⟨payloadSize, format⟩, hParse⟩
    unfold isSeeminglyValidAC3Header
    rw [hParse]
    refine decide_eq_false fun hSome => ?_
    exact hNone ⟨pos, payloadSize, format⟩
      ⟨hLt, fun j hj => ih j hj (Nat.lt_trans hj hLt), hParse, hSome⟩

/-
  The search is over unless there is no frame and the word that counts the bytes wraps before the
  end.
-/
theorem search_ends_iff (data : List Byte) :
    (∃ found, Result.Ends (syncTurn data) 0 found) ↔ ¬(NoFrame data ∧ 2 ^ 32 ≤ data.length) := by
  constructor
  · rintro ⟨found, hEnds⟩ ⟨hNone, hLong⟩
    rcases hEnds with ⟨enough, hReturns⟩
    refine Result.loop_never (fun pos => pos < 2 ^ 32) ?_
      enough (by decide) (hReturns enough (Nat.le_refl _))
    intro _ pos next hLt hNext
    have hWord : u32 (pos + 2) < 2 ^ 32 := Nat.mod_lt _ (by decide)
    rw [syncTurn_next (by omega) (not_valid_of_noFrame hNone hLt)] at hNext
    exact ⟨_, (Result.returns.inj hNext).symm, Nat.mod_lt _ (by decide)⟩
  · intro hNot
    by_cases hNone : NoFrame data
    · have hShort : data.length < 2 ^ 32 := by
        refine Nat.lt_of_not_le fun hLong => ?_
        exact hNot ⟨hNone, hLong⟩
      -- the search stops two bytes before the end
      refine
        Result.exists_ends (fun pos => pos + 2 ≤ max data.length 2)
          (fun pos => data.length - pos) ?_ (by omega)
      intro pos hLe
      rcases syncTurn_cases data pos with ⟨_, hEnd⟩ | ⟨_, hNext⟩ | ⟨_, _, _, _, hFound⟩
      · exact Or.inr ⟨_, hEnd⟩
      · by_cases hLast : data.length ≤ u32 (pos + 2)
        · exact Or.inr ⟨none, if_pos hLast⟩
        · have hSame : u32 (pos + 2) = pos + 2 := Nat.mod_eq_of_lt (by omega)
          have hStep : u32 (pos + 1) = pos + 1 := Nat.mod_eq_of_lt (by omega)
          refine Or.inl ⟨_, hNext, ?_, ?_⟩
          · omega
          · omega
      · exact Or.inr ⟨_, hFound⟩
    · rw [NoFrame, not_forall] at hNone
      rcases hNone with ⟨frame, hFrame⟩
      exact ⟨_, (not_not.mp hFrame).search⟩

end ESQueue

--
-- Video
--

namespace ESQueue

open AVCUtils (StartsAt)

namespace MPEGVideoLoop

variable {s : MPEGVideoLoop}

/- The bytes from the offset on. -/
def left (s : MPEGVideoLoop) : Nat :=
  s.q.mBuffer.length - s.offset

theorem dropBefore_left : s.dropBefore.left = s.left := by
  unfold dropBefore
  split
  · show (s.q.mBuffer.drop s.offset).length - 0 = _
    rw [List.length_drop, Nat.sub_zero]
    rfl
  · rfl

theorem noteGop_left (past : Nat → Byte) :
    (s.noteGop past).left = s.left ∧ (s.noteGop past).offset = s.offset := by
  unfold noteGop
  split
  · exact ⟨rfl, rfl⟩
  · exact ⟨rfl, rfl⟩

/- A turn that goes on is one byte further. -/
theorem codeTurn_left {past : Nat → Byte} {t : MPEGVideoLoop} (hTurn : s.codeTurn past = .inl t) :
    t.left = s.left - 1 := by
  have hNote := noteGop_left (s := s) past
  have hStep : (s.noteGop past).q.mBuffer.length - ((s.noteGop past).offset + 1) = s.left - 1 := by
    rw [Nat.sub_add_eq]
    exact congrArg (· - 1) hNote.1
  unfold codeTurn at hTurn
  split at hTurn
  · cases hTurn
  dsimp only at hTurn
  split at hTurn
  · split at hTurn
    · cases hTurn
    · rw [← Sum.inl.inj hTurn]
      exact hStep
  · rw [← Sum.inl.inj hTurn]
    exact hStep

theorem turn_left {past : Nat → Byte} {t : MPEGVideoLoop} (hTurn : s.turn past = .inl t) :
    t.left < s.left := by
  unfold turn at hTurn
  split at hTurn
  · cases hTurn
  next hMore =>
    have hSome : 0 < s.left := by
      unfold left
      omega
    split at hTurn
    · rw [← Sum.inl.inj hTurn]
      show s.q.mBuffer.length - (s.offset + 1) < s.left
      unfold left at hSome ⊢
      omega
    · have hCode := codeTurn_left hTurn
      rw [dropBefore_left] at hCode
      have hSame : s.shift.left = s.left := rfl
      omega

/- Every byte is looked at once. -/
theorem ends (past : Nat → Byte) (s : MPEGVideoLoop) :
    ∃ out, Result.Ends (fun s => .returns (turn past s)) s out := by
  refine Result.exists_ends (fun _ => True) left ?_ trivial
  intro s _
  cases hTurn : s.turn past with
  | inl t => exact Or.inl ⟨t, rfl, trivial, turn_left hTurn⟩
  | inr out => exact Or.inr ⟨out, rfl⟩

end MPEGVideoLoop

/- A chunk that is complete, with its size and type. -/
def ChunkAt (data : List Byte) (offset size type : Nat) : Prop :=
  getNextChunkSize (data.drop offset) = some size ∧ (data.getD (offset + 3) 0).toNat = type

theorem findChunkEnd_spec {data : List Byte} {turns offset size : Nat}
    (hFind : findChunkEnd data turns offset = some size) :
    offset ≤ size ∧ size + 2 < data.length := by
  induction turns generalizing offset with
  | zero => cases hFind
  | succ turns ih =>
    rw [findChunkEnd] at hFind
    split at hFind
    next hMore =>
      split at hFind
      · cases hFind
        exact ⟨Nat.le_refl _, hMore⟩
      · have hRest := ih hFind
        omega
    · cases hFind

/- A chunk is not empty, and another one follows. -/
theorem getNextChunkSize_spec {data : List Byte} {size : Nat}
    (hSize : getNextChunkSize data = some size) : 3 ≤ size ∧ size + 2 < data.length := by
  unfold getNextChunkSize at hSize
  split at hSize
  · exact findChunkEnd_spec hSize
  · cases hSize

end ESQueue

--
-- MPEG-4 Video
--

namespace ESQueue

open AVCUtils (extractDimensionsFromVOLHeader)

/- The chunks of a header lead to this state and offset. -/
inductive HeaderTo (data : List Byte) : MPEG4State → Nat → Prop
| start : HeaderTo data .SKIP_TO_VISUAL_OBJECT_SEQ_START 0
| sequence {size : Nat} (chunk : ChunkAt data 0 size 0xb0) :
    HeaderTo data .EXPECT_VISUAL_OBJECT_START size
| visualObject {offset size : Nat} (header : HeaderTo data .EXPECT_VISUAL_OBJECT_START offset)
    (chunk : ChunkAt data offset size 0xb5) : HeaderTo data .EXPECT_VO_START (offset + size)
| videoObject {offset size type : Nat} (header : HeaderTo data .EXPECT_VO_START offset)
    (chunk : ChunkAt data offset size type) (type_le : type ≤ 0x1f) :
    HeaderTo data .EXPECT_VOL_START (offset + size)

/- The first chunk does not begin a header. -/
def StartsWithin (data : List Byte) : Prop :=
  ∃ size type, ChunkAt data 0 size type ∧ type ≠ 0xb0

/- A check fails in the header of a layer. -/
def LayerFails (data : List Byte) : Prop :=
  ∃ offset size type,
    HeaderTo data .EXPECT_VOL_START offset ∧ ChunkAt data offset size type ∧ type / 16 = 2 ∧
      extractDimensionsFromVOLHeader ((data.drop offset).take size) = none

namespace MPEG4Loop

variable {q : ElementaryStreamQueue} {s t : MPEG4Loop}

/- A loop that has read so much of a header. -/
def reading (q : ElementaryStreamQueue) (state : MPEG4State) (offset : Nat) : MPEG4Loop where
  q := q
  state := state
  width := -1
  height := -1
  offset := offset

theorem turn_chunk {size type : Nat} (hChunk : ChunkAt s.q.mBuffer s.offset size type) :
    s.turn = s.chunk size type := by
  unfold turn
  rw [hChunk.1, ← hChunk.2]

theorem headerTo_turns {state : MPEG4State} {offset : Nat}
    (hHeader : HeaderTo q.mBuffer state offset) :
    Result.Turns turn (reading q .SKIP_TO_VISUAL_OBJECT_SEQ_START 0) (reading q state offset) := by
  induction hHeader with
  | start => exact Result.Turns.start
  | @sequence size hChunk =>
    refine Result.Turns.start.turn ?_
    rw [turn_chunk (s := reading q _ 0) hChunk]
    show Result.returns (Sum.inl (reading q _ (0 + size))) = _
    rw [Nat.zero_add]
  | visualObject _ hChunk ih =>
    refine ih.turn ?_
    rw [turn_chunk (s := reading q _ _) hChunk]
    rfl
  | videoObject _ hChunk hType ih =>
    refine ih.turn ?_
    rw [turn_chunk (s := reading q _ _) hChunk]
    exact if_neg (Nat.not_lt_of_le hType)

/- A state of the header is one that chunks lead to. -/
def Good (q : ElementaryStreamQueue) (s : MPEG4Loop) : Prop :=
  s.state = .WAIT_FOR_VOP_START ∨ s.state = .SKIP_TO_VOP_START ∨
    s.q = q ∧ HeaderTo q.mBuffer s.state s.offset

/- The bytes that are left count twice, to order the states. -/
def measure (s : MPEG4Loop) : Nat :=
  2 * (s.q.mBuffer.length - s.offset) + (if s.state = .SKIP_TO_VOP_START then 0 else 1)

theorem keep_measure {size : Nat} {type : Nat} (hChunk : ChunkAt s.q.mBuffer s.offset size type)
    (hState : s.state ≠ .SKIP_TO_VOP_START) (ht : t.q = s.q ∧ t.offset = s.offset + size) :
    t.measure < s.measure := by
  have hSize := getNextChunkSize_spec hChunk.1
  rw [List.length_drop] at hSize
  unfold measure
  rw [ht.1, ht.2, if_neg hState]
  split <;> omega

theorem skip_measure {size : Nat} {type : Nat} (hChunk : ChunkAt s.q.mBuffer s.offset size type)
    (hState : s.state = .SKIP_TO_VOP_START) (hSame : t.state = .SKIP_TO_VOP_START)
    (hLeft : t.q.mBuffer.length - t.offset = s.q.mBuffer.length - (s.offset + size)) :
    t.measure < s.measure := by
  have hSize := getNextChunkSize_spec hChunk.1
  rw [List.length_drop] at hSize
  unfold measure
  rw [if_pos hState, if_pos hSame, hLeft]
  omega

/- Once there is a format, every chunk is taken off or kept. -/
theorem skip_turn (hState : s.state = .SKIP_TO_VOP_START) :
    (∃ t, s.turn = .returns (.inl t) ∧ t.state = .SKIP_TO_VOP_START ∧ t.measure < s.measure) ∨
      ∃ out, s.turn = .returns (.inr out) := by
  cases hNext : getNextChunkSize (s.q.mBuffer.drop s.offset) with
  | none =>
    refine Or.inr ⟨(none, s.q), ?_⟩
    unfold turn
    rw [hNext]
  | some size =>
    have hChunk : ChunkAt s.q.mBuffer s.offset size (s.q.mBuffer.getD (s.offset + 3) 0).toNat :=
      ⟨hNext, rfl⟩
    rw [turn_chunk hChunk]
    unfold chunk
    simp only [hState]
    split
    · exact Or.inr ⟨_, rfl⟩
    split
    · refine Or.inl ⟨_, rfl, hState, skip_measure hChunk hState hState ?_⟩
      show (s.q.mBuffer.drop (s.offset + size)).length - 0 = _
      rw [List.length_drop, Nat.sub_zero]
    · exact Or.inl ⟨_, rfl, hState, skip_measure hChunk hState hState rfl⟩

/- What a turn from a good state does. -/
theorem turn_cases (hGood : s.Good q) (hStarts : ¬StartsWithin q.mBuffer)
    (hLayer : ¬LayerFails q.mBuffer) :
    (∃ t, s.turn = .returns (.inl t) ∧ t.Good q ∧ t.measure < s.measure) ∨
      ∃ out, s.turn = .returns (.inr out) := by
  cases hNext : getNextChunkSize (s.q.mBuffer.drop s.offset) with
  | none =>
    refine Or.inr ⟨(none, s.q), ?_⟩
    unfold turn
    rw [hNext]
  | some size =>
    have hChunk : ChunkAt s.q.mBuffer s.offset size (s.q.mBuffer.getD (s.offset + 3) 0).toNat :=
      ⟨hNext, rfl⟩
    rw [turn_chunk hChunk]
    rcases s with ⟨sq, state, width, height, offset⟩
    simp only at hChunk
    rcases hGood with rfl | rfl | ⟨rfl, hHeader⟩
    · unfold chunk
      dsimp only
      split
      · -- the chunk is seen again, with a format
        refine Or.inl ⟨_, rfl, Or.inr (Or.inl rfl), ?_⟩
        unfold measure discard ElementaryStreamQueue.shrink
        dsimp only
        rw [if_pos rfl, if_neg (by decide)]
        show 2 * ((sq.mBuffer.drop offset).length - 0) + 0 < _
        rw [List.length_drop]
        omega
      · exact Or.inl ⟨_, rfl, Or.inl rfl, keep_measure hChunk (by rintro ⟨⟩) ⟨rfl, rfl⟩⟩
    · rw [← turn_chunk hChunk]
      rcases skip_turn (s := ⟨sq, .SKIP_TO_VOP_START, width, height, offset⟩) rfl with
        ⟨t, hTurn, hState, hLess⟩ | hLast
      · exact Or.inl ⟨t, hTurn, Or.inr (Or.inl hState), hLess⟩
      · exact Or.inr hLast
    · dsimp only at hHeader
      cases hHeader with
      | start =>
        have hType : (sq.mBuffer.getD (0 + 3) 0).toNat = 0xb0 := by
          by_contra hOther
          exact hStarts ⟨size, _, hChunk, hOther⟩
        rw [hType] at hChunk ⊢
        unfold chunk
        dsimp only
        rw [if_pos rfl]
        have hHeader := HeaderTo.sequence hChunk
        rw [← Nat.zero_add size] at hHeader
        exact Or.inl ⟨_, rfl, Or.inr (Or.inr ⟨rfl, hHeader⟩),
          keep_measure hChunk (by rintro ⟨⟩) ⟨rfl, rfl⟩⟩
      | sequence hFirst =>
        unfold chunk
        dsimp only
        split
        · exact Or.inr ⟨_, rfl⟩
        next hType =>
          rw [not_not.mp hType] at hChunk
          exact Or.inl ⟨_, rfl,
            Or.inr (Or.inr ⟨rfl, (HeaderTo.sequence hFirst).visualObject hChunk⟩),
            keep_measure hChunk (by rintro ⟨⟩) ⟨rfl, rfl⟩⟩
      | visualObject hBefore hSecond =>
        unfold chunk
        dsimp only
        split
        · exact Or.inr ⟨_, rfl⟩
        next hType =>
          exact Or.inl ⟨_, rfl,
            Or.inr (Or.inr ⟨rfl,
              (hBefore.visualObject hSecond).videoObject hChunk (Nat.le_of_not_lt hType)⟩),
            keep_measure hChunk (by rintro ⟨⟩) ⟨rfl, rfl⟩⟩
      | videoObject hBefore hThird hLe =>
        unfold chunk
        dsimp only
        split
        · exact Or.inr ⟨_, rfl⟩
        next hType =>
          cases hDimensions : extractDimensionsFromVOLHeader ((sq.mBuffer.drop _).take size) with
          | none =>
            exact absurd
              ⟨_, size, _, hBefore.videoObject hThird hLe, hChunk, not_not.mp hType, hDimensions⟩
              hLayer
          | some dimensions =>
            exact Or.inl ⟨_, rfl, Or.inl rfl, keep_measure hChunk (by rintro ⟨⟩) ⟨rfl, rfl⟩⟩

/- The loop is left from the header on. -/
theorem ends_iff :
    (∃ out, Result.Ends turn (reading q .SKIP_TO_VISUAL_OBJECT_SEQ_START 0) out) ↔
      ¬StartsWithin q.mBuffer ∧ ¬LayerFails q.mBuffer := by
  constructor
  · rintro ⟨out, hEnds⟩
    constructor
    · rintro ⟨size, type, hChunk, hType⟩
      refine Result.not_ends_of_same ?_ hEnds
      rw [turn_chunk (s := reading q _ 0) hChunk]
      unfold chunk
      dsimp only [reading]
      rw [if_neg hType]
      unfold discard
      simp only [ElementaryStreamQueue.fetchTimestamp_zero,
        ElementaryStreamQueue.shrink, List.drop_zero]
    · rintro ⟨offset, size, type, hHeader, hChunk, hType, hDimensions⟩
      refine Result.not_ends_of_aborts ?_ ((headerTo_turns hHeader).ends_iff.mp hEnds)
      rw [turn_chunk (s := reading q _ offset) hChunk]
      unfold chunk
      dsimp only [reading]
      rw [if_neg (not_not.mpr hType), hDimensions]
      rfl
  · rintro ⟨hStarts, hLayer⟩
    exact Result.exists_ends (Good q) measure (fun _ hGood => turn_cases hGood hStarts hLayer)
      (Or.inr (Or.inr ⟨rfl, HeaderTo.start⟩))

/- With a format the loop is left always. -/
theorem ends_of_format : ∃ out, Result.Ends turn (reading q .SKIP_TO_VOP_START 0) out := by
  refine Result.exists_ends (fun s => s.state = .SKIP_TO_VOP_START) measure ?_ rfl
  exact fun s hState => skip_turn hState

end MPEG4Loop

end ESQueue

--
-- H.264
--

namespace ESQueue

open AVCUtils (getNextNALUnit makeAVCCodecSpecificData)

/- The units with bytes that a start code follows. -/
def followedUnits : Nat → Nat → List Byte → List NALPosition
| 0, _, _ => []
| turns + 1, base, data =>
  match getNextNALUnit data false with
  | none => []
  | some nal =>
    let units := followedUnits turns (base + (data.length - nal.data.length)) nal.data
    if nal.nalSize = 0 then units
    else ⟨base + nal.nalStart, nal.nalSize⟩ :: units

def isSlice (buffer : List Byte) (pos : NALPosition) : Bool :=
  nalType buffer pos = 1 ∨ nalType buffer pos = 5

def isSei (buffer : List Byte) (pos : NALPosition) : Bool :=
  nalType buffer pos = 6

/- Whether a unit after these ones belongs to the next frame. -/
def flushesAfter (buffer : List Byte) (before : List NALPosition)
    (pos : NALPosition) : Option Bool :=
  flushes buffer (before.any (isSlice buffer)) pos

/- Every unit of these is part of one access unit. -/
def OneUnit (buffer : List Byte) (nals : List NALPosition) : Prop :=
  ∀ before pos after, nals = before ++ pos :: after → flushesAfter buffer before pos = some false

/- The units before `pos` are the access unit that it is behind. -/
def Reached (buffer : List Byte) (before : List NALPosition) (pos : NALPosition) : Prop :=
  ∃ after,
    followedUnits (buffer.length + 1) 0 buffer = before ++ pos :: after ∧ OneUnit buffer before

namespace ElementaryStreamQueue

/-
  The first macroblock of a slice cannot be read, or the format of the first access unit cannot be
  made.
-/
def SliceFails (q : ElementaryStreamQueue) : Prop :=
  ∃ before pos,
    Reached q.mBuffer before pos ∧
      (flushesAfter q.mBuffer before pos = none ∨
        flushesAfter q.mBuffer before pos = some true ∧ 0 ≤ q.firstTime ∧ q.mFormat = none ∧
          makeAVCCodecSpecificData (joinNals q.mBuffer before) = none)

/- The state of the loop behind some units. -/
structure Holds (q : ElementaryStreamQueue) (s : H264Loop) (turns : Nat) : Prop where
  enough : s.data.length < turns
  units :
    followedUnits (q.mBuffer.length + 1) 0 q.mBuffer = s.nals ++ followedUnits turns s.base s.data
  one : OneUnit q.mBuffer s.nals
  foundSlice : s.foundSlice = s.nals.any (isSlice q.mBuffer)
  seiCount : s.seiCount = s.nals.countP (isSei q.mBuffer)
  sizes : ∀ pos ∈ s.nals, 0 < pos.nalSize

variable {q : ElementaryStreamQueue} {s : H264Loop} {turns : Nat}

theorem seiPositions_some {buffer : List Byte} {seiCount : Nat} (nals : List NALPosition)
    (dstOffset : Nat) (sei : List NALPosition) (hSizes : ∀ pos ∈ nals, 0 < pos.nalSize)
    (hCount : seiCount = sei.length + nals.countP (isSei buffer)) :
    ∃ positions, seiPositions buffer seiCount nals dstOffset sei = .returns (some positions) := by
  induction nals generalizing dstOffset sei with
  | nil => exact ⟨sei, rfl⟩
  | cons pos nals ih =>
    have hRest : ∀ pos ∈ nals, 0 < pos.nalSize := fun other hOther =>
      hSizes other (List.mem_cons_of_mem _ hOther)
    rw [seiPositions]
    by_cases hSei : nalType buffer pos = 6 ∧ 0 < pos.nalSize
    · rw [List.countP_cons_of_pos (by unfold isSei; exact decide_eq_true hSei.1)] at hCount
      rw [if_pos hSei, Result.check, if_pos (by omega), if_neg (by omega)]
      refine ih _ _ hRest ?_
      rw [List.length_append, List.length_singleton]
      omega
    · rw [if_neg hSei]
      refine ih _ _ hRest ?_
      rw [hCount, List.countP_cons_of_neg]
      intro hType
      exact hSei ⟨of_decide_eq_true hType, hSizes pos List.mem_cons_self⟩

/- One unit more. -/
theorem OneUnit.push {buffer : List Byte} {nals : List NALPosition} {pos : NALPosition}
    (hOne : OneUnit buffer nals) (hPos : flushesAfter buffer nals pos = some false) :
    OneUnit buffer (nals ++ [pos]) := by
  intro before other after hSplit
  rcases List.eq_nil_or_concat after with rfl | ⟨rest, last, rfl⟩
  · have hLast := List.append_inj' hSplit rfl
    cases hLast.2
    rw [← hLast.1]
    exact hPos
  · refine hOne before other rest ?_
    have hCut : nals ++ [pos] = (before ++ other :: rest) ++ [last] := by
      rw [hSplit]
      simp
    exact (List.append_inj' hCut rfl).1

/- The access unit of these units, when it can be made. -/
theorem flushAccessUnit_cases (hCount : s.seiCount = s.nals.countP (isSei q.mBuffer))
    (hSizes : ∀ pos ∈ s.nals, 0 < pos.nalSize) (hSome : s.nals ≠ []) :
    (¬(0 ≤ q.firstTime ∧ q.mFormat = none ∧
          makeAVCCodecSpecificData (joinNals q.mBuffer s.nals) = none) →
        ∃ out, q.flushAccessUnit s = .returns out) ∧
      (0 ≤ q.firstTime → q.mFormat = none →
        makeAVCCodecSpecificData (joinNals q.mBuffer s.nals) = none →
          q.flushAccessUnit s = .aborts) := by
  have hTotal : s.seiCount = ([] : List NALPosition).length + s.nals.countP (isSei q.mBuffer) := by
    rw [hCount, List.length_nil, Nat.zero_add]
  rcases seiPositions_some s.nals 0 [] hSizes hTotal with ⟨positions, hSei⟩
  have hLast := List.getLast?_eq_getLast_of_ne_nil hSome
  have hSize := hSizes _ (List.getLast_mem hSome)
  unfold flushAccessUnit
  rw [hSei, Result.bind_returns]
  simp only [hLast]
  rw [fetchTimestamp_time (by omega), shrink_firstTime, fetchTimestamp_mFormat, shrink_mFormat]
  constructor
  · intro hNot
    split
    · exact ⟨_, rfl⟩
    next hKnown =>
      unfold formatOf
      cases hFormat : q.mFormat with
      | some format => exact ⟨_, rfl⟩
      | none =>
        cases hMade : makeAVCCodecSpecificData (joinNals q.mBuffer s.nals) with
        | none => exact absurd ⟨Int.not_lt.mp hKnown, hFormat, hMade⟩ hNot
        | some made => exact ⟨_, rfl⟩
  · intro hKnown hFormat hMade
    rw [if_neg (Int.not_lt.mpr hKnown), hFormat, formatOf, hMade]
    rfl

/- A unit that does not end the access unit is noted. -/
theorem note_of_kept {buffer : List Byte} {pos : NALPosition}
    (hFound : s.foundSlice = s.nals.any (isSlice buffer))
    (hCount : s.seiCount = s.nals.countP (isSei buffer))
    (hKept : flushesAfter buffer s.nals pos = some false) :
    (s.note (nalType buffer pos)).nals = s.nals ∧ (s.note (nalType buffer pos)).data = s.data ∧
      (s.note (nalType buffer pos)).base = s.base ∧
      (s.note (nalType buffer pos)).foundSlice = (s.nals ++ [pos]).any (isSlice buffer) ∧
        (s.note (nalType buffer pos)).seiCount = (s.nals ++ [pos]).countP (isSei buffer) := by
  unfold H264Loop.note
  unfold flushesAfter flushes at hKept
  rw [← hFound] at hKept
  rw [List.any_append, List.countP_append, ← hFound, ← hCount,
    List.any_cons, List.any_nil, List.countP_singleton]
  unfold isSlice isSei
  split
  next hSlice =>
    refine ⟨rfl, rfl, rfl, ?_, ?_⟩
    · simp [hSlice]
    · have hNot : ¬nalType buffer pos = 6 := by omega
      simp [hNot]
  next hSlice =>
    rw [if_neg hSlice] at hKept
    split
    next hEnds =>
      rw [decide_eq_true hEnds] at hKept
      cases hKept
    next hEnds =>
      split
      next hSei => simp [hSei]
      next hSei => simp [hSlice, hSei]

/- A unit that ends the access unit changes little. -/
theorem note_of_flushed {buffer : List Byte} {pos : NALPosition}
    (hFound : s.foundSlice = s.nals.any (isSlice buffer))
    (hFlushed : flushesAfter buffer s.nals pos = some true) :
    (s.note (nalType buffer pos)).nals = s.nals ∧
      (s.note (nalType buffer pos)).seiCount = s.seiCount ∧ s.nals ≠ [] := by
  unfold H264Loop.note
  unfold flushesAfter flushes at hFlushed
  rw [← hFound] at hFlushed
  have hSome : s.foundSlice = true → s.nals ≠ [] := by
    rintro hTrue hNil
    rw [hFound, hNil] at hTrue
    cases hTrue
  dsimp only at hFlushed
  split
  next hSlice =>
    rw [if_pos hSlice] at hFlushed
    split at hFlushed
    next hTrue => exact ⟨rfl, rfl, hSome hTrue⟩
    next => cases hFlushed
  next hSlice =>
    rw [if_neg hSlice] at hFlushed
    have hEnds := of_decide_eq_true (Option.some.inj hFlushed)
    rw [if_pos hEnds]
    exact ⟨rfl, rfl, hSome hEnds.2⟩

/- The loop behind the next unit. -/
def behind (s : H264Loop) (nal : AVCUtils.NALUnit) : H264Loop :=
  { s with
    data := nal.data
    base := s.base + (s.data.length - nal.data.length) }

/- What one turn does with the next unit. -/
inductive H264Step (q : ElementaryStreamQueue) (s : H264Loop) (turns : Nat) : Prop
| last (units : followedUnits (turns + 1) s.base s.data = [])
    (turn : q.h264Turn s = .returns (.inr (none, q)))
| empty (t : H264Loop) (turn : q.h264Turn s = .returns (.inl t)) (holds : Holds q t turns)
    (nals : t.nals = s.nals) (less : t.data.length < s.data.length)
| fails (pos : NALPosition) (rest : List NALPosition)
    (units : followedUnits (turns + 1) s.base s.data = pos :: rest)
    (flush : flushesAfter q.mBuffer s.nals pos = .none) (turn : q.h264Turn s = .aborts)
| flushed (pos : NALPosition) (rest : List NALPosition) (next : H264Loop)
    (units : followedUnits (turns + 1) s.base s.data = pos :: rest)
    (flush : flushesAfter q.mBuffer s.nals pos = some true)
    (turn : q.h264Turn s = (q.flushAccessUnit next).map .inr)
    (nals : next.nals = s.nals ∧ s.nals ≠ [])
    (count : next.seiCount = s.nals.countP (isSei q.mBuffer))
| kept (pos : NALPosition) (rest : List NALPosition) (t : H264Loop)
    (units : followedUnits (turns + 1) s.base s.data = pos :: rest)
    (turn : q.h264Turn s = .returns (.inl t)) (holds : Holds q t turns)
    (nals : t.nals = s.nals ++ [pos]) (less : t.data.length < s.data.length)

theorem h264Turn_step (hHolds : Holds q s (turns + 1)) : H264Step q s turns := by
  cases hNal : getNextNALUnit s.data false with
  | none =>
    refine H264Step.last ?_ ?_
    · rw [followedUnits, hNal]
    · unfold h264Turn
      rw [hNal]
  | some nal =>
    have hLess := (AVCUtils.getNextNALUnit_inside (AVCUtils.getNextNALUnit_of_followed hNal)).1
    have hEnough := hHolds.enough
    have hUnits := hHolds.units
    by_cases hEmpty : nal.nalSize = 0
    · have hNext :
          followedUnits (turns + 1) s.base s.data =
            followedUnits turns (s.base + (s.data.length - nal.data.length)) nal.data := by
        rw [followedUnits, hNal]
        simp only [if_pos hEmpty]
      rw [hNext] at hUnits
      refine H264Step.empty (behind s nal) ?_
        ⟨by show nal.data.length < turns; omega, hUnits,
          hHolds.one, hHolds.foundSlice, hHolds.seiCount, hHolds.sizes⟩
        rfl hLess
      unfold h264Turn
      simp only [hNal]
      rw [if_pos hEmpty]
      rfl
    · have hNext :
          followedUnits (turns + 1) s.base s.data =
            ⟨s.base + nal.nalStart, nal.nalSize⟩ ::
              followedUnits turns (s.base + (s.data.length - nal.data.length)) nal.data := by
        rw [followedUnits, hNal]
        simp only [if_neg hEmpty]
      rw [hNext] at hUnits
      have hTurn :
          q.h264Turn s =
            (Result.ofOption
              (flushesAfter q.mBuffer s.nals
                ⟨s.base + nal.nalStart, nal.nalSize⟩)).bind fun flush =>
              let next :=
                (behind s nal).note (nalType q.mBuffer ⟨s.base + nal.nalStart, nal.nalSize⟩)
              if flush then (q.flushAccessUnit next).map .inr
              else
                .returns
                  (.inl
                    { next with
                      nals :=
                        next.nals ++ [⟨s.base + nal.nalStart, nal.nalSize⟩]
                      totalSize :=
                        next.totalSize + nal.nalSize }) := by
        unfold h264Turn
        simp only [hNal]
        rw [if_neg hEmpty, flushesAfter, ← hHolds.foundSlice]
        rfl
      cases hFlush : flushesAfter q.mBuffer s.nals ⟨s.base + nal.nalStart, nal.nalSize⟩ with
      | none =>
        rw [hFlush] at hTurn
        exact H264Step.fails _ _ hNext hFlush hTurn
      | some flush =>
        rw [hFlush] at hTurn
        cases flush with
        | true =>
          have hNote := note_of_flushed (s := behind s nal) hHolds.foundSlice hFlush
          exact H264Step.flushed _ _ _ hNext hFlush hTurn ⟨hNote.1, hNote.2.2⟩
            (hNote.2.1.trans hHolds.seiCount)
        | false =>
          have hNote := note_of_kept (s := behind s nal) hHolds.foundSlice hHolds.seiCount hFlush
          rcases hNote with ⟨hNals, hData, hBase, hFound, hCount⟩
          refine H264Step.kept _ _ _ hNext hTurn ⟨?_, ?_, ?_, ?_, ?_, ?_⟩ ?_ ?_
          · dsimp only
            rw [hData]
            show nal.data.length < turns
            omega
          · dsimp only
            rw [hNals, hData, hBase, hUnits]
            show s.nals ++ _ = _
            rw [List.append_assoc]
            rfl
          · dsimp only
            rw [hNals]
            exact OneUnit.push hHolds.one hFlush
          · dsimp only
            rw [hNals]
            exact hFound
          · dsimp only
            rw [hNals]
            exact hCount
          · dsimp only
            rw [hNals]
            intro pos hPos
            rcases List.mem_append.mp hPos with hOld | hNew
            · exact hHolds.sizes pos hOld
            · rw [List.mem_singleton.mp hNew]
              exact Nat.pos_of_ne_zero hEmpty
          · dsimp only
            rw [hNals]
            rfl
          · dsimp only
            rw [hData]
            exact hLess

/- The loop before its first turn. -/
theorem holds_start :
    Holds q
      { data := q.mBuffer
        base := 0
        nals := []
        totalSize := 0
        seiCount := 0
        foundSlice := false
        foundIDR := false }
      (q.mBuffer.length + 1) where
  enough := Nat.lt_succ_self _
  units := rfl
  one := by
    intro before pos after hSplit
    cases before <;> cases hSplit
  foundSlice := rfl
  seiCount := rfl
  sizes := by
    intro pos hPos
    cases hPos

/- What the units behind a state are among all units. -/
theorem Holds.reached (hHolds : Holds q s (turns + 1)) {pos : NALPosition} {rest : List NALPosition}
    (hUnits : followedUnits (turns + 1) s.base s.data = pos :: rest) :
    Reached q.mBuffer s.nals pos := by
  refine ⟨rest, ?_, hHolds.one⟩
  rw [hHolds.units, hUnits]

theorem Holds.turns_succ (hHolds : Holds q s turns) : ∃ n, turns = n + 1 := by
  have hEnough := hHolds.enough
  exact ⟨turns - 1, by omega⟩

/- Without a unit that fails the loop is left. -/
theorem h264_ends (hNot : ¬q.SliceFails) (hHolds : Holds q s turns) :
    ∃ out, Result.Ends q.h264Turn s out := by
  refine
    Result.exists_ends (fun s => ∃ turns, Holds q s turns)
      (fun s => s.data.length) ?_ ⟨turns, hHolds⟩
  rintro s ⟨turns, hHolds⟩
  rcases hHolds.turns_succ with ⟨n, rfl⟩
  cases h264Turn_step hHolds with
  | last hNone hTurn => exact Or.inr ⟨_, hTurn⟩
  | empty t hTurn hNext _ hLess => exact Or.inl ⟨t, hTurn, ⟨_, hNext⟩, hLess⟩
  | fails pos rest hUnits hFlush hTurn =>
    exact absurd ⟨s.nals, pos, hHolds.reached hUnits, Or.inl hFlush⟩ hNot
  | flushed pos rest next hUnits hFlush hTurn hNals hCount =>
    have hMade :=
      (flushAccessUnit_cases (q := q) (s := next) (by rw [hNals.1]; exact hCount)
        (by rw [hNals.1]; exact hHolds.sizes) (by rw [hNals.1]; exact hNals.2)).1
    rcases hMade (fun hFails => by
        rw [hNals.1] at hFails
        exact hNot ⟨s.nals, pos, hHolds.reached hUnits, Or.inr ⟨hFlush, hFails⟩⟩) with
      ⟨out, hOut⟩
    refine Or.inr ⟨out, ?_⟩
    rw [hTurn, hOut]
    rfl
  | kept pos rest t hUnits hTurn hNext _ hLess => exact Or.inl ⟨t, hTurn, ⟨_, hNext⟩, hLess⟩

/- A unit that fails is come to. -/
theorem h264_not_ends {before : List NALPosition} {pos : NALPosition}
    (hReached : Reached q.mBuffer before pos)
    (hFails :
      flushesAfter q.mBuffer before pos = none ∨
        flushesAfter q.mBuffer before pos = some true ∧ 0 ≤ q.firstTime ∧ q.mFormat = none ∧
          makeAVCCodecSpecificData (joinNals q.mBuffer before) = none)
    (hHolds : Holds q s turns) (hPrefix : s.nals <+: before) (out : Dequeued) :
    ¬Result.Ends q.h264Turn s out := by
  rintro ⟨enough, hReturns⟩
  refine
    Result.loop_never (fun s => (∃ turns, Holds q s turns) ∧ s.nals <+: before)
      ?_ enough ⟨⟨turns, hHolds⟩, hPrefix⟩ (hReturns enough (Nat.le_refl _))
  rintro _ s next ⟨⟨turns, hHolds⟩, ⟨more, rfl⟩⟩ hNext
  rcases hHolds.turns_succ with ⟨n, rfl⟩
  rcases hReached with ⟨after, hAll, hOne⟩
  have hUnits := hHolds.units
  rw [hAll, List.append_assoc] at hUnits
  have hLeft := List.append_cancel_left hUnits
  cases h264Turn_step hHolds with
  | last hNone hTurn =>
    rw [hNone] at hLeft
    exact absurd hLeft (by simp)
  | empty t hTurn hGoes hNals hLess =>
    rw [hTurn] at hNext
    exact ⟨t, (Result.returns.inj hNext).symm, ⟨n, hGoes⟩,
      by rw [hNals]; exact List.prefix_append _ _⟩
  | fails p rest hUnit hFlush hTurn =>
    rw [hTurn] at hNext
    cases hNext
  | flushed p rest t hUnit hFlush hTurn hNals hCount =>
    rw [hUnit] at hLeft
    cases more with
    | nil =>
      cases hLeft
      rw [List.append_nil] at hFails
      rcases hFails with
        hNone | ⟨-, hTime, hFormat, hMade⟩
      · rw [hFlush] at hNone
        cases hNone
      · have hAborts :=
          (flushAccessUnit_cases (q := q) (s := t) (by rw [hNals.1]; exact hCount)
            (by rw [hNals.1]; exact hHolds.sizes) (by rw [hNals.1]; exact hNals.2)).2 hTime
            hFormat (by rw [hNals.1]; exact hMade)
        rw [hTurn, hAborts] at hNext
        cases hNext
    | cons first more =>
      cases hLeft
      have hKept := hOne s.nals _ more rfl
      rw [hFlush] at hKept
      cases hKept
  | kept p rest t hUnit hTurn hGoes hNals hLess =>
    rw [hTurn] at hNext
    rw [hUnit] at hLeft
    cases more with
    | nil =>
      cases hLeft
      rw [List.append_nil] at hFails
      have hKept := hGoes.one s.nals _ [] hNals
      rcases hFails with hNone | ⟨hTrue, -⟩
      · rw [hNone] at hKept
        cases hKept
      · rw [hTrue] at hKept
        cases hKept
    | cons first more =>
      cases hLeft
      refine ⟨t, (Result.returns.inj hNext).symm, ⟨n, hGoes⟩, ?_⟩
      rw [hNals]
      exact ⟨more, by rw [List.append_assoc]; rfl⟩

theorem h264_returns_iff :
    (∃ out, Reaches (fun fuel => q.dequeueAccessUnitH264 fuel) out) ↔ ¬q.SliceFails := by
  constructor
  · rintro ⟨out, hEnds⟩ ⟨before, pos, hReached, hFails⟩
    exact h264_not_ends hReached hFails holds_start List.nil_prefix out hEnds
  · intro hNot
    exact h264_ends hNot holds_start

end ElementaryStreamQueue

end ESQueue

--
-- Every Mode
--

namespace ESQueue

open AVCUtils (makeAVCCodecSpecificData)

namespace ElementaryStreamQueue

/- The ranges that AAC frames are taken for. -/
def aacRange (q : ElementaryStreamQueue) : Option Nat :=
  match q.mRangeInfos with
  | [] => none
  | info :: _ =>
    if q.mBuffer.length ≠ 0 ∧ info.mLength ≤ q.mBuffer.length ∧ 0 ≤ info.mTimestampUs then
      some info.mLength
    else none

/-
  A loop goes on forever: the headers of AAC frames lead to a frame without bytes, the first chunk
  of MPEG-4 video is not the start of a header, or the count of the bytes in front of an AC3 frame
  wraps.
-/
def Stuck (q : ElementaryStreamQueue) : Prop :=
  match q.mMode with
  | .AAC =>
    ∃ mLength after,
      q.aacRange = some mLength ∧ HeaderReached q.mBuffer mLength q.mFormat (some (some 0, after))
  | .MPEG4_VIDEO => q.mFormat = none ∧ StartsWithin q.mBuffer
  | .AC3 => NoFrame q.mBuffer ∧ 2 ^ 32 ≤ q.mBuffer.length
  | _ => False

/- A `CHECK` fails, or the buffer is left. -/
def Fails (q : ElementaryStreamQueue) : Prop :=
  match q.mMode with
  | .AAC => ∃ mLength, q.aacRange = some mLength ∧ HeaderReached q.mBuffer mLength q.mFormat none
  | .MPEG4_VIDEO => q.mFormat = none ∧ LayerFails q.mBuffer
  | .AC3 =>
    ∃ frame,
      FrameAt q.mBuffer frame ∧ 0 < u32 (frame.syncStartPos + frame.payloadSize) ∧
        u32 (frame.syncStartPos + frame.payloadSize) ≤ q.mBuffer.length ∧
        q.mBuffer.length < frame.syncStartPos + frame.payloadSize ∧ 0 ≤ q.firstTime
  | .H264 =>
    if q.aligned then
      ∃ info infos,
        q.mRangeInfos = info :: infos ∧
          (q.mBuffer.length < info.mLength ∨
            q.mFormat = none ∧ makeAVCCodecSpecificData (q.mBuffer.take info.mLength) = none)
    else q.SliceFails
  | _ => False

variable {q : ElementaryStreamQueue}

theorem reaches_const_iff {α : Type} {result : Result α} :
    (∃ out, Reaches (fun _ => result) out) ↔ ∃ out, result = .returns out := by
  constructor
  · rintro ⟨out, hReaches⟩
    rcases hReaches.returns with ⟨_, hReturns⟩
    exact ⟨out, hReturns⟩
  · rintro ⟨out, hReturns⟩
    exact ⟨out, Reaches.of_eq fun _ => hReturns⟩

theorem aligned_returns_iff :
    (∃ out, q.dequeueAligned = .returns out) ↔
      ¬∃ info infos,
        q.mRangeInfos = info :: infos ∧
          (q.mBuffer.length < info.mLength ∨
            q.mFormat = none ∧ makeAVCCodecSpecificData (q.mBuffer.take info.mLength) = none) := by
  unfold dequeueAligned
  cases hInfos : q.mRangeInfos with
  | nil =>
    refine ⟨fun _ => ?_, fun _ => ⟨_, rfl⟩⟩
    rintro ⟨info, infos, hCons, -⟩
    cases hCons
  | cons info infos =>
    dsimp only
    constructor
    · rintro ⟨out, hOut⟩ ⟨_, _, hCons, hFails⟩
      cases hCons
      rw [Result.check_eq_returns, Result.map_eq_returns] at hOut
      rcases hOut with ⟨hFits, format, hFormat, -⟩
      rcases hFails with hLong | ⟨hNone, hMade⟩
      · omega
      · rw [hNone, formatOf, hMade] at hFormat
        cases hFormat
    · intro hNot
      have hFits : info.mLength ≤ q.mBuffer.length := Nat.le_of_not_lt fun hLong =>
          hNot ⟨info, infos, rfl, Or.inl hLong⟩
      rw [Result.check, if_pos hFits]
      cases hFormat : q.mFormat with
      | some format => exact ⟨_, rfl⟩
      | none =>
        cases hMade : makeAVCCodecSpecificData (q.mBuffer.take info.mLength) with
        | none => exact absurd ⟨info, infos, rfl, Or.inr ⟨hFormat, hMade⟩⟩ hNot
        | some made =>
          rw [formatOf, hMade]
          exact ⟨_, rfl⟩

/- Without a range to take frames for nothing is done. -/
theorem aac_of_no_range (hNone : q.aacRange = none) (fuel : Nat) :
    q.dequeueAccessUnitAAC fuel = .returns (none, q) := by
  unfold aacRange at hNone
  unfold dequeueAccessUnitAAC
  by_cases hEmpty : q.mBuffer.length = 0
  · exact if_pos hEmpty
  rw [if_neg hEmpty]
  cases hInfos : q.mRangeInfos with
  | nil => rfl
  | cons info infos =>
    rw [hInfos] at hNone
    dsimp only at hNone ⊢
    by_cases hShort : q.mBuffer.length < info.mLength
    · exact if_pos hShort
    rw [if_neg hShort]
    by_cases hTime : info.mTimestampUs < 0
    · exact if_pos hTime
    · rw [if_pos ⟨hEmpty, by omega, by omega⟩] at hNone
      cases hNone

theorem aac_of_range {mLength : Nat} (hRange : q.aacRange = some mLength) (fuel : Nat) :
    q.dequeueAccessUnitAAC fuel =
      (Result.loop (fun _ => aacTurn q.mBuffer mLength) fuel
        ⟨0, q.mFormat, false⟩).map q.leaveAACLoop := by
  unfold aacRange at hRange
  unfold dequeueAccessUnitAAC
  cases hInfos : q.mRangeInfos with
  | nil =>
    rw [hInfos] at hRange
    cases hRange
  | cons info infos =>
    rw [hInfos] at hRange
    dsimp only at hRange ⊢
    split at hRange
    next hAll =>
      cases hRange
      rw [if_neg hAll.1, if_neg (by omega), if_neg (by omega)]
    · cases hRange

theorem aac_returns_iff :
    (∃ out, Reaches (fun fuel => q.dequeueAccessUnitAAC fuel) out) ↔
      (¬∃ mLength after,
          q.aacRange = some mLength ∧
            HeaderReached q.mBuffer mLength q.mFormat (some (some 0, after))) ∧
        ¬∃ mLength, q.aacRange = some mLength ∧ HeaderReached q.mBuffer mLength q.mFormat none := by
  cases hRange : q.aacRange with
  | none =>
    refine ⟨fun _ => ⟨?_, ?_⟩, fun _ => ⟨_, Reaches.of_eq (aac_of_no_range hRange)⟩⟩
    · rintro ⟨_, _, hSome, -⟩
      cases hSome
    · rintro ⟨_, hSome, -⟩
      cases hSome
  | some mLength =>
    have hEnds := aac_ends_iff q.mBuffer mLength q.mFormat
    simp only [aac_of_range hRange, Result.map, Result.reaches_bind_iff]
    constructor
    · rintro ⟨out, s, hLoop, -⟩
      have hNot := hEnds.mp ⟨s, hLoop⟩
      constructor
      · rintro ⟨_, after, hSame, hReached⟩
        cases hSame
        exact hNot.1 ⟨after, hReached⟩
      · rintro ⟨_, hSame, hReached⟩
        cases hSame
        exact hNot.2 hReached
    · rintro ⟨hStuck, hFails⟩
      rcases hEnds.mpr
        ⟨fun hSome => hSome.elim fun after hReached => hStuck ⟨mLength, after, rfl, hReached⟩,
          fun hReached => hFails ⟨mLength, rfl, hReached⟩⟩
        with ⟨s, hLoop⟩
      exact ⟨_, s, hLoop, rfl⟩

theorem ac3_returns_iff :
    (∃ out, Reaches (fun fuel => q.dequeueAccessUnitAC3 fuel) out) ↔
      ¬(NoFrame q.mBuffer ∧ 2 ^ 32 ≤ q.mBuffer.length) ∧
        ¬∃ frame,
          FrameAt q.mBuffer frame ∧ 0 < u32 (frame.syncStartPos + frame.payloadSize) ∧
            u32 (frame.syncStartPos + frame.payloadSize) ≤ q.mBuffer.length ∧
            q.mBuffer.length < frame.syncStartPos + frame.payloadSize ∧ 0 ≤ q.firstTime := by
  have hEnds := search_ends_iff q.mBuffer
  unfold dequeueAccessUnitAC3
  simp only [Result.reaches_bind_iff]
  constructor
  · rintro ⟨out, found, hLoop, hTake⟩
    refine ⟨hEnds.mp ⟨found, hLoop⟩, ?_⟩
    rintro ⟨frame, hFrame, hSome, hLe, hLong, hTime⟩
    have hSame : some frame = found := Reaches.unique hFrame.search hLoop
    rw [← hSame] at hTake
    dsimp only at hTake
    unfold takeSyncFrame at hTake
    dsimp only at hTake
    rw [if_neg (by omega), fetchTimestamp_time hSome] at hTake
    split at hTake
    next hNot => exact Int.not_lt.mpr hTime hNot
    · rw [Result.check_eq_returns] at hTake
      have hFits := hTake.1
      rw [fetchTimestamp_mBuffer] at hFits
      dsimp only at hFits
      omega
  · rintro ⟨hStuck, hFails⟩
    rcases hEnds.mpr hStuck with ⟨found, hLoop⟩
    cases found with
    | none => exact ⟨_, none, hLoop, rfl⟩
    | some frame =>
      rcases hLoop.returns with ⟨fuel, hSearch⟩
      have hFrame := search_frameAt hSearch
      suffices hTake : ∃ out, q.takeSyncFrame frame = .returns out by
        rcases hTake with ⟨out, hTake⟩
        exact ⟨out, some frame, hLoop, hTake⟩
      unfold takeSyncFrame
      dsimp only
      split
      · exact ⟨_, rfl⟩
      next hComplete =>
        split
        · exact ⟨_, rfl⟩
        next hTime =>
          by_cases hZero : u32 (frame.syncStartPos + frame.payloadSize) = 0
          · rw [hZero, fetchTimestamp_zero] at hTime
            exact absurd (show (-1 : Int) < 0 by decide) hTime
          · rw [fetchTimestamp_time (by omega)] at hTime
            refine ⟨_, if_pos ?_⟩
            rw [fetchTimestamp_mBuffer]
            refine Nat.le_of_not_lt fun hLong => ?_
            exact hFails ⟨frame, hFrame, by omega, by omega, hLong, Int.not_lt.mp hTime⟩

/- The four bytes of a header are enough. -/
theorem parsePCMHeader_some (data : List Byte) (hFour : 4 ≤ data.length) :
    ∃ header, parsePCMHeader data = some header := by
  have hAt := ATSParser.ABitReader.create_at data
  rcases hAt.getBits (by decide : 8 ≤ 32) (by omega) with ⟨bits₁, hGet₁, hAt₁⟩
  rcases hAt₁.getBits (by decide : 8 ≤ 32) (by omega) with ⟨bits₂, hGet₂, hAt₂⟩
  rcases hAt₂.skipBits (n := 8) (by omega) with ⟨bits₃, hSkip₃, hAt₃⟩
  rcases hAt₃.getBits (by decide : 2 ≤ 32) (by omega) with ⟨bits₄, hGet₄, hAt₄⟩
  rcases hAt₄.getBits (by decide : 3 ≤ 32) (by omega) with ⟨bits₅, hGet₅, hAt₅⟩
  rcases hAt₅.getBits (by decide : 3 ≤ 32) (by omega) with ⟨bits₆, hGet₆, -⟩
  unfold parsePCMHeader
  simp only [hGet₁, hGet₂, hSkip₃, hGet₄, hGet₅, hGet₆, Option.bind_eq_bind, Option.bind_some]
  split
  · exact ⟨_, rfl⟩
  split
  · exact ⟨_, rfl⟩
  split
  · exact ⟨_, rfl⟩
  · exact ⟨_, rfl⟩

theorem pcm_returns : ∃ out, q.dequeueAccessUnitPCMAudio = .returns out := by
  unfold dequeueAccessUnitPCMAudio
  split
  · exact ⟨_, rfl⟩
  next hFour =>
    rcases parsePCMHeader_some (q.mBuffer.take 4)
      (by rw [List.length_take]; omega) with ⟨header, hHeader⟩
    rw [hHeader]
    exact ⟨_, rfl⟩

theorem not_returns_of_aac {past : Nat → Byte} (hMode : q.mMode = .AAC)
    (hStuck :
      ∃ mLength after,
        q.aacRange = some mLength ∧
          HeaderReached q.mBuffer mLength q.mFormat (some (some 0, after))) :
    ¬∃ out, Reaches (fun fuel => q.dequeueAccessUnit past fuel) out := by
  have hCode :
      (fun fuel => q.dequeueAccessUnit past fuel) = fun fuel => q.dequeueAccessUnitAAC fuel := by
    funext fuel
    unfold dequeueAccessUnit
    rw [hMode, if_neg (by rintro ⟨-, ⟨⟩⟩)]
  rw [hCode]
  intro hReturns
  exact (aac_returns_iff.mp hReturns).1 hStuck

theorem mpeg4_returns_iff :
    (∃ out, Reaches (fun fuel => q.dequeueAccessUnitMPEG4Video fuel) out) ↔
      ¬(q.mFormat = none ∧ StartsWithin q.mBuffer) ∧
        ¬(q.mFormat = none ∧ LayerFails q.mBuffer) := by
  unfold dequeueAccessUnitMPEG4Video
  cases hFormat : q.mFormat with
  | none =>
    rw [if_pos rfl]
    exact MPEG4Loop.ends_iff.trans (by simp)
  | some format =>
    rw [if_neg (by rintro ⟨⟩)]
    exact ⟨fun _ => ⟨by rintro ⟨⟨⟩, -⟩, by rintro ⟨⟨⟩, -⟩⟩, fun _ => MPEG4Loop.ends_of_format⟩

end ElementaryStreamQueue

end ESQueue

end FrameworksAv
