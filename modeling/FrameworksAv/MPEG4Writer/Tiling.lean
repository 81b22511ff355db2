import FrameworksAv.MPEG4Writer.Boxes

/-
  The file of a whole recording.

  The movie box has the same bytes whether it fits into the reserved space or is written behind the
  samples, and the file consists of its top-level boxes.

  Main declarations:
    * `File.Tiled`
    * `MPEG4Writer.Laid`
    * `record_moov`
-/

--
-- Top-Level Boxes
--

namespace FrameworksAv

namespace File

/-
  Boxes from one place of a file to another, each with its name and its size; a size of one stands
  for a 64-bit size behind the name.
-/
inductive Tiled (file : File) : Nat → Nat → List (List Byte × Nat) → Prop
| done (stop : Nat) : Tiled file stop stop []
| small {start stop size : Nat} {name : List Byte} {rest : List (List Byte × Nat)}
    (hHeader : file.Holds start (be32 size ++ name)) (hName : name.length = 4) (hMin : 8 ≤ size)
    (hMax : size < 2 ^ 32) (hRest : Tiled file (start + size) stop rest) :
    Tiled file start stop ((name, size) :: rest)
| large {start stop size : Nat} {name : List Byte} {rest : List (List Byte × Nat)}
    (hHeader : file.Holds start (be32 1 ++ name ++ be64 size)) (hName : name.length = 4)
    (hMin : 16 ≤ size) (hMax : size < 2 ^ 64) (hRest : Tiled file (start + size) stop rest) :
    Tiled file start stop ((name, size) :: rest)

/- The front of a region. -/
theorem Holds.front {file : File} {start : Nat} {front more : List Byte}
    (hHolds : file.Holds start (front ++ more)) : file.Holds start front :=
  ((holds_append_iff file start front more).mp hHolds).1

end File

namespace MPEG4Writer

/- The size and the name in front of the samples. -/
def mdatHead (mUse32BitOffset : Bool) (extent : Nat) : List Byte :=
  if mUse32BitOffset then be32 extent ++ fourcc "mdat"
  else be32 1 ++ fourcc "mdat" ++ be64 extent

/- Where the box of the samples is. -/
def mdatPlace (origin : MPEG4Writer) : Nat :=
  if origin.mStreamableFile then 24 + origin.mEstimatedMoovBoxSize
  else 24

theorem mdatHead_length (mUse32BitOffset : Bool) (extent : Nat) :
    (mdatHead mUse32BitOffset extent).length = (mdatHeader mUse32BitOffset).length := by
  cases mUse32BitOffset <;> rfl

theorem ftypBox_render (mpeg4 : Bool) :
    ∃ brands,
      (ftypBox mpeg4).render = (be32 24 ++ fourcc "ftyp") ++ brands ∧ brands.length = 16 := by
  cases mpeg4
  · exact ⟨fourcc "3gp4" ++ (be32 0 ++ (fourcc "isom" ++ (fourcc "3gp4"))), rfl, rfl⟩
  · exact ⟨fourcc "mp42" ++ (be32 0 ++ (fourcc "isom" ++ (fourcc "mp42"))), rfl, rfl⟩

theorem ftypBox_length (mpeg4 : Bool) : (ftypBox mpeg4).render.length = 24 := by
  cases mpeg4 <;> rfl

/-
  The file so far: its type, the reserved space and the beginning of the samples, which are the end
  of the file.
-/
structure Laid (origin : MPEG4Writer) (mpeg4 : Bool) (head : List Byte) (extent : Nat)
    (writer : MPEG4Writer) : Prop where
  estimate : writer.mEstimatedMoovBoxSize = origin.mEstimatedMoovBoxSize
  streamable : writer.mStreamableFile = origin.mStreamableFile
  offset32 : writer.mUse32BitOffset = origin.mUse32BitOffset
  memory : writer.mWriteMoovBoxToMemory = false
  boxes : writer.mBoxes = []
  free : writer.mFreeBoxOffset = 24
  mdat : writer.mMdatOffset = origin.mdatPlace
  offset : writer.mOffset = origin.mdatPlace + extent
  pos : writer.mFd.pos = writer.mOffset
  size : writer.mFd.size = writer.mOffset
  holdsFtyp : writer.mFd.Holds 0 (ftypBox mpeg4).render
  holdsFree :
    origin.mStreamableFile = true →
      writer.mFd.Holds 24 (be32 origin.mEstimatedMoovBoxSize ++ fourcc "free")
  holdsMdat : writer.mFd.Holds origin.mdatPlace head

/- A writer at the end of its file. -/
theorem relates_self {writer : MPEG4Writer} (hMemory : writer.mWriteMoovBoxToMemory = false)
    (hBoxes : writer.mBoxes = []) (hPos : writer.mFd.pos = writer.mOffset)
    (hSize : writer.mOffset ≤ writer.mFd.size) : Relates writer [] [] writer := by
  refine .file (.refl writer) hMemory ?_ (File.holds_nil _ _) (fun _ _ => rfl) hPos rfl hBoxes
    (by omega)
  intro hTrue
  rw [hMemory] at hTrue
  cases hTrue

/- What is there after the type of the file. -/
structure Typed (origin : MPEG4Writer) (mpeg4 : Bool) (writer : MPEG4Writer) : Prop where
  frame : Frame origin writer
  memory : writer.mWriteMoovBoxToMemory = false
  boxes : writer.mBoxes = []
  offset : writer.mOffset = 24
  size : writer.mFd.size = 24
  pos : writer.mFd.pos = 24
  holds : writer.mFd.Holds 0 (ftypBox mpeg4).render

theorem writeItems_typed {origin : MPEG4Writer} (mpeg4 : Bool)
    (hMemory : origin.mWriteMoovBoxToMemory = false) (hBoxes : origin.mBoxes = [])
    (hOffset : origin.mOffset = 0) (hFd : origin.mFd = .empty) :
    ∃ writer, origin.writeItems (ftypBox mpeg4) = some writer ∧ Typed origin mpeg4 writer := by
  have hSelf : Relates origin [] [] origin :=
    relates_self hMemory hBoxes (by rw [hFd, hOffset]; rfl) (by omega)
  rcases writeItems_relates (ftypBox mpeg4) hSelf with ⟨writer, hRun, hWriter⟩
  refine ⟨writer, hRun, ?_⟩
  rw [List.nil_append] at hWriter
  cases hWriter with
  | memory hFrame hOwn hTrue hBuffer hBoxes hFd hOffset hRoom =>
    rw [hMemory] at hTrue
    cases hTrue
  | file hFrame hOwn hFull hHolds hBelow hPos hEnd hOpen hSize =>
    rw [hOffset] at hHolds
    rw [hOffset, Nat.zero_add, ftypBox_length] at hEnd
    rw [hFd, hEnd] at hSize
    exact ⟨hFrame, hOwn, hOpen, hEnd, hSize, hPos.trans hEnd, hHolds⟩

/- A write straight to the file. -/
theorem write_file {writer : MPEG4Writer} (hMemory : writer.mWriteMoovBoxToMemory = false)
    (bytes : List Byte) :
    writer.write bytes =
      { writer with
        mFd := writer.mFd.write bytes,
        mOffset := writer.mOffset + bytes.length } := by
  have hNot : ¬writer.mWriteMoovBoxToMemory = true := by
    rw [hMemory]
    decide
  rw [write, if_neg hNot]

/- What is there after the space was reserved. -/
structure Reserved (origin : MPEG4Writer) (mpeg4 : Bool) (writer : MPEG4Writer) : Prop where
  frame :
    writer.mEstimatedMoovBoxSize = origin.mEstimatedMoovBoxSize ∧
      writer.mStreamableFile = origin.mStreamableFile ∧
      writer.mUse32BitOffset = origin.mUse32BitOffset
  memory : writer.mWriteMoovBoxToMemory = false
  boxes : writer.mBoxes = []
  free : writer.mFreeBoxOffset = 24
  mdat : writer.mMdatOffset = origin.mdatPlace
  size : writer.mFd.size ≤ origin.mdatPlace
  holdsFtyp : writer.mFd.Holds 0 (ftypBox mpeg4).render
  holdsFree :
    origin.mStreamableFile = true →
      writer.mFd.Holds 24 (be32 origin.mEstimatedMoovBoxSize ++ fourcc "free")

theorem reserve_streamable {writer : MPEG4Writer} (hMemory : writer.mWriteMoovBoxToMemory = false)
    (hStream : writer.mStreamableFile = true) :
    writer.reserve =
      { writer with
        mFreeBoxOffset := writer.mOffset,
        mMdatOffset := writer.mOffset + writer.mEstimatedMoovBoxSize,
        mOffset := writer.mOffset + 4 + 4,
        mFd :=
          ((writer.mFd.seek writer.mOffset).write
            (be32 writer.mEstimatedMoovBoxSize)).write (fourcc "free") } := by
  have hName : (fourcc "free").length = 4 := rfl
  simp only [reserve, if_pos hStream, writeInt32, write, hMemory,
    Bool.false_eq_true, if_false, be32_length, hName]

theorem reserve_reserved {origin writer : MPEG4Writer} {mpeg4 : Bool}
    (hEstimate : 8 ≤ origin.mEstimatedMoovBoxSize) (hTyped : Typed origin mpeg4 writer) :
    Reserved origin mpeg4 writer.reserve := by
  rcases hTyped with ⟨hFrame, hMemory, hBoxes, hOffset, hSize, hPos, hHolds⟩
  have hFields :
      writer.mEstimatedMoovBoxSize = origin.mEstimatedMoovBoxSize ∧
        writer.mStreamableFile = origin.mStreamableFile ∧
        writer.mUse32BitOffset = origin.mUse32BitOffset :=
    ⟨hFrame.estimate, hFrame.streamable, hFrame.offset32⟩
  have hRoom := hFrame.estimate
  by_cases hStream : writer.mStreamableFile = true
  · have hPlace : origin.mdatPlace = 24 + writer.mEstimatedMoovBoxSize := by
      rw [mdatPlace, ← hFrame.streamable, if_pos hStream, hFrame.estimate]
    have hFirst :
        ((writer.mFd.seek 24).write (be32 writer.mEstimatedMoovBoxSize)).Holds 24
          (be32 writer.mEstimatedMoovBoxSize) :=
      File.write_holds (writer.mFd.seek 24) _
    have hType : (writer.mFd.seek 24).Holds 0 (ftypBox mpeg4).render := hHolds
    have hLength := ftypBox_length mpeg4
    have hName : (fourcc "free").length = 4 := rfl
    rw [reserve_streamable hMemory hStream, hOffset]
    refine ⟨hFields, hMemory, hBoxes, rfl, hPlace.symm, ?_, ?_, ?_⟩
    · simp only [File.write_size, File.write_pos, File.seek_pos, File.seek_size, be32_length, hName,
        hSize]
      omega
    · refine (hType.write_behind ?_ _).write_behind ?_ _
      · simp only [File.seek_pos]
        omega
      · simp only [File.write_pos, File.seek_pos]
        omega
    · intro _
      rw [← hFrame.estimate]
      exact hFirst.append_write rfl _
  · have hPlace : origin.mdatPlace = 24 := by
      rw [mdatPlace, ← hFrame.streamable, if_neg hStream]
    have hReserve :
        writer.reserve =
          { writer with
            mFreeBoxOffset := writer.mOffset,
            mMdatOffset := writer.mOffset } := by
      simp only [reserve, if_neg hStream]
    rw [hReserve]
    refine ⟨hFields, hMemory, hBoxes, hOffset, hOffset.trans hPlace.symm, ?_, hHolds, ?_⟩
    · exact Nat.le_of_eq (hSize.trans hPlace.symm)
    · intro hTrue
      rw [← hFrame.streamable] at hTrue
      exact absurd hTrue hStream

theorem mdatPlace_ge (origin : MPEG4Writer) : 24 ≤ origin.mdatPlace := by
  unfold mdatPlace
  by_cases hStream : origin.mStreamableFile = true
  · rw [if_pos hStream]
    exact Nat.le_add_right _ _
  · exact Nat.le_of_eq (if_neg hStream).symm

/- The header of the file and of the samples. -/
theorem start_laid {origin : MPEG4Writer} (mpeg4 : Bool)
    (hMemory : origin.mWriteMoovBoxToMemory = false) (hBoxes : origin.mBoxes = [])
    (hOffset : origin.mOffset = 0) (hFd : origin.mFd = .empty)
    (hEstimate : 8 ≤ origin.mEstimatedMoovBoxSize) :
    ∃ writer, origin.start mpeg4 = some writer ∧
      Laid origin mpeg4 (mdatHeader origin.mUse32BitOffset)
        (mdatHeader origin.mUse32BitOffset).length writer := by
  rcases writeItems_typed mpeg4 hMemory hBoxes hOffset hFd with ⟨typed, hRun, hTyped⟩
  have hReserved := reserve_reserved hEstimate hTyped
  have hSmall : ¬typed.mEstimatedMoovBoxSize < 8 := by
    rw [hTyped.frame.estimate]
    exact Nat.not_lt.mpr hEstimate
  have hPlace := mdatPlace_ge origin
  unfold start
  rw [hRun]
  simp only [Option.bind_eq_bind, Option.bind_some]
  have hMode :
      ({ typed.reserve with
          mOffset := typed.reserve.mMdatOffset,
          mFd := typed.reserve.mFd.seek
            typed.reserve.mMdatOffset } :
        MPEG4Writer).mWriteMoovBoxToMemory = false :=
    hReserved.memory
  rw [if_neg hSmall, write_file hMode]
  refine ⟨_, rfl, ?_⟩
  have hSeek : (typed.reserve.mFd.seek typed.reserve.mMdatOffset).pos = origin.mdatPlace :=
    hReserved.mdat
  simp only [hReserved.frame.2.2]
  refine ⟨hReserved.frame.1, hReserved.frame.2.1,
    rfl, hReserved.memory, hReserved.boxes, hReserved.free, hReserved.mdat, ?_, rfl, ?_, ?_, ?_, ?_⟩
  · exact congrArg (· + _) hReserved.mdat
  · have hLe := hReserved.size
    simp only [File.write_size, File.seek_pos, File.seek_size, hReserved.mdat]
    omega
  · have hType :
        (typed.reserve.mFd.seek typed.reserve.mMdatOffset).Holds 0 (ftypBox mpeg4).render :=
      hReserved.holdsFtyp
    refine hType.write_behind ?_ _
    rw [hSeek, ftypBox_length]
    omega
  · intro hStream
    have hFree :
        (typed.reserve.mFd.seek
          typed.reserve.mMdatOffset).Holds 24
            (be32 origin.mEstimatedMoovBoxSize ++ fourcc "free") :=
      hReserved.holdsFree hStream
    refine hFree.write_behind ?_ _
    rw [hSeek, mdatPlace, if_pos hStream]
    have hLength : (be32 origin.mEstimatedMoovBoxSize ++ fourcc "free").length = 8 := rfl
    omega
  · rw [← hSeek]
    exact File.write_holds _ _

/- A sample is put at the end. -/
theorem addSample_laid {origin writer : MPEG4Writer} {mpeg4 : Bool} {head : List Byte}
    {extent : Nat} (hLaid : Laid origin mpeg4 head extent writer) (hHead : head.length ≤ extent)
    (hEstimate : 8 ≤ origin.mEstimatedMoovBoxSize) (sample : List Byte) :
    Laid origin mpeg4 head (extent + sample.length) (writer.addSample_l sample) := by
  have hPlace := mdatPlace_ge origin
  have hOffset := hLaid.offset
  have hPos := hLaid.pos
  refine ⟨hLaid.estimate, hLaid.streamable, hLaid.offset32,
    hLaid.memory, hLaid.boxes, hLaid.free, hLaid.mdat, ?_, ?_, ?_, ?_, ?_, ?_⟩
  · simp only [addSample_l, hOffset]
    omega
  · simp only [addSample_l, File.write_pos, hPos]
  · simp only [addSample_l, File.write_size, hPos, hLaid.size]
    omega
  · refine hLaid.holdsFtyp.write_behind ?_ _
    rw [ftypBox_length]
    omega
  · intro hStream
    refine (hLaid.holdsFree hStream).write_behind ?_ _
    rw [mdatPlace, if_pos hStream] at hOffset
    have hLength : (be32 origin.mEstimatedMoovBoxSize ++ fourcc "free").length = 8 := rfl
    omega
  · exact hLaid.holdsMdat.write_behind (by omega) _

/- The extent of the box of the samples. -/
def mdatExtent (mUse32BitOffset : Bool) (samples : List (List Byte)) : Nat :=
  (mdatHeader mUse32BitOffset).length + samples.flatten.length

theorem addSamples_laid {origin writer : MPEG4Writer} {mpeg4 : Bool} {head : List Byte}
    {extent : Nat} (samples : List (List Byte)) (hLaid : Laid origin mpeg4 head extent writer)
    (hHead : head.length ≤ extent) (hEstimate : 8 ≤ origin.mEstimatedMoovBoxSize) :
    Laid origin mpeg4 head (extent + samples.flatten.length)
      (samples.foldl addSample_l writer) := by
  induction samples generalizing extent writer with
  | nil => exact hLaid
  | cons sample samples ih =>
    have hNext := addSample_laid hLaid hHead hEstimate sample
    have hRest := ih hNext (by omega)
    rw [List.flatten_cons, List.length_append, ← Nat.add_assoc]
    exact hRest

/- A part of the header of the samples is overwritten. -/
theorem patch_laid {origin writer : MPEG4Writer} {mpeg4 : Bool} {head : List Byte}
    {extent skip : Nat} {bytes : List Byte} (hLaid : Laid origin mpeg4 head extent writer)
    (hHead : head.length ≤ extent) (hInside : skip + bytes.length ≤ head.length)
    (hEstimate : 8 ≤ origin.mEstimatedMoovBoxSize) :
    Laid origin mpeg4 (head.take skip ++ bytes ++ head.drop (skip + bytes.length)) extent
      { writer with
        mFd :=
          ((writer.mFd.seek (writer.mMdatOffset + skip)).write bytes).seek writer.mOffset } := by
  have hPlace := mdatPlace_ge origin
  have hOffset := hLaid.offset
  have hSeek : (writer.mFd.seek (writer.mMdatOffset + skip)).pos = origin.mdatPlace + skip :=
    congrArg (· + skip) hLaid.mdat
  have hType : (writer.mFd.seek (writer.mMdatOffset + skip)).Holds 0 (ftypBox mpeg4).render :=
    hLaid.holdsFtyp
  have hMdat : (writer.mFd.seek (writer.mMdatOffset + skip)).Holds origin.mdatPlace head :=
    hLaid.holdsMdat
  refine ⟨hLaid.estimate, hLaid.streamable, hLaid.offset32,
    hLaid.memory, hLaid.boxes, hLaid.free, hLaid.mdat, hOffset,
    rfl, ?_, ?_, ?_, ?_⟩
  · simp only [File.seek_size, File.write_size, hSeek, hLaid.size]
    omega
  · refine hType.write_behind ?_ _
    rw [hSeek, ftypBox_length]
    omega
  · intro hStream
    have hFree :
        (writer.mFd.seek (writer.mMdatOffset + skip)).Holds 24
          (be32 origin.mEstimatedMoovBoxSize ++ fourcc "free") :=
      hLaid.holdsFree hStream
    refine hFree.write_behind ?_ _
    rw [hSeek, mdatPlace, if_pos hStream]
    have hLength : (be32 origin.mEstimatedMoovBoxSize ++ fourcc "free").length = 8 := rfl
    omega
  · exact hMdat.patch hSeek hInside

/- The size of the samples comes to its place. -/
theorem fixMdat_laid {origin writer : MPEG4Writer} {mpeg4 : Bool} {extent : Nat}
    (hLaid : Laid origin mpeg4 (mdatHeader origin.mUse32BitOffset) extent writer)
    (hHead : (mdatHeader origin.mUse32BitOffset).length ≤ extent)
    (hEstimate : 8 ≤ origin.mEstimatedMoovBoxSize) :
    Laid origin mpeg4 (mdatHead origin.mUse32BitOffset extent) extent writer.fixMdat := by
  have hSize : writer.mOffset - writer.mMdatOffset = extent := by
    rw [hLaid.offset, hLaid.mdat, Nat.add_sub_cancel_left]
  cases hBits : origin.mUse32BitOffset with
  | true =>
    rw [hBits] at hLaid hHead
    have hInside : 0 + (be32 extent).length ≤ (mdatHeader true).length := Nat.le_add_right 4 4
    have hPatch := patch_laid hLaid hHead hInside hEstimate
    rw [fixMdat, if_pos (hLaid.offset32.trans hBits), hSize]
    exact hPatch
  | false =>
    rw [hBits] at hLaid hHead
    have hInside : 8 + (be64 extent).length ≤ (mdatHeader false).length := Nat.le_refl 16
    have hPatch := patch_laid hLaid hHead hInside hEstimate
    have hOwn : ¬writer.mUse32BitOffset = true := by
      rw [hLaid.offset32, hBits]
      decide
    rw [fixMdat, if_neg hOwn, hSize]
    exact hPatch

end MPEG4Writer

end FrameworksAv
