import FrameworksAv.MPEG4Writer.Tiling

/-
  The movie box of a whole recording.

  The movie box has the same bytes in memory and in the file, each box carries its own extent, and
  the file consists of its top-level boxes as long as every extent fits into the size field in front
  of it.

  Main declarations:
    * `Items.Sized`
    * `MPEG4Writer.Recorded`
    * `MPEG4Writer.reset_recorded`
    * `record_moov`
-/

--
-- Size Fields
--

namespace FrameworksAv

/- The number of some bytes, the highest one first. -/
def readBigEndian (bytes : List Byte) : Nat :=
  bytes.foldl (fun n byte => n * 256 + byte.toNat) 0

theorem readBigEndian_be32 (n : Nat) : readBigEndian (be32 n) = n % 2 ^ 32 := by
  have hBytes :
      be32 n =
        [BitVec.ofNat 8 (n / 256 ^ 3), BitVec.ofNat 8 (n / 256 ^ 2), BitVec.ofNat 8 (n / 256 ^ 1),
          BitVec.ofNat 8 (n / 256 ^ 0)] :=
    rfl
  simp only [hBytes, readBigEndian, List.foldl_cons, List.foldl_nil, BitVec.toNat_ofNat]
  omega

namespace File

/- The size field of a box. -/
def sizeField (file : File) (start : Nat) : Nat :=
  readBigEndian (file.bytes.load start 4)

theorem Holds.sizeField_eq {file : File} {start size : Nat} {more : List Byte}
    (hHolds : file.Holds start (be32 size ++ more)) : file.sizeField start = size % 2 ^ 32 := by
  have hField : file.bytes.load start 4 = be32 size := hHolds.front
  rw [sizeField, hField, readBigEndian_be32]

end File

namespace Items

/- Every box carries its own extent. -/
def Sized (file : File) : Items → Nat → Prop
| .nil, _ => True
| .write bytes rest, start => rest.Sized file (start + bytes.length)
| .box id body rest, start =>
  file.sizeField start = 4 + id.length + body.render.length ∧
    body.Sized file (start + (4 + id.length)) ∧
    rest.Sized file (start + (4 + id.length + body.render.length))

/- By the nesting of the boxes, outermost size first. -/
theorem sized_of_holds {file : File} (items : Items) {start : Nat}
    (hHolds : file.Holds start items.render) (hFits : items.render.length < 2 ^ 32) :
    items.Sized file start := by
  induction items generalizing start with
  | nil => trivial
  | write bytes rest ih =>
    rw [render, List.length_append] at hFits
    have hRest := ((File.holds_append_iff _ _ _ _).mp hHolds).2
    exact ih hRest (by omega)
  | box id body rest ihBody ihRest =>
    have hParts := (File.holds_append_iff _ _ _ _).mp hHolds
    have hInner := (File.holds_append_iff _ _ _ _).mp hParts.1
    simp only [render, List.length_append, be32_length] at hFits hParts hInner
    refine ⟨?_, ihBody hInner.2 (by omega), ihRest hParts.2 (by omega)⟩
    rw [hInner.1.sizeField_eq]
    exact Nat.mod_eq_of_lt (by omega)

end Items

--
-- Recordings
--

namespace MPEG4Writer

/- The movie box fits into the space reserved for it. -/
def Fits (origin : MPEG4Writer) (count : Nat) : Prop :=
  origin.mStreamableFile = true ∧ count + 8 ≤ origin.mEstimatedMoovBoxSize

instance (origin : MPEG4Writer) (count : Nat) : Decidable (origin.Fits count) :=
  inferInstanceAs (Decidable (_ ∧ _))

/- Where the movie box is. -/
def moovPlace (origin : MPEG4Writer) (extent count : Nat) : Nat :=
  if origin.Fits count then 24
  else origin.mdatPlace + extent

/- The top-level boxes of a file. -/
def topBoxes (origin : MPEG4Writer) (extent count : Nat) : List (List Byte × Nat) :=
  (fourcc "ftyp", 24) ::
    if origin.Fits count then
      [(fourcc "moov", count), (fourcc "free", origin.mEstimatedMoovBoxSize - count),
        (fourcc "mdat", extent)]
    else if origin.mStreamableFile then
      [(fourcc "free", origin.mEstimatedMoovBoxSize),
        (fourcc "mdat", extent), (fourcc "moov", count)]
    else [(fourcc "mdat", extent), (fourcc "moov", count)]

/- A recorded file. -/
structure Recorded (origin : MPEG4Writer) (mpeg4 : Bool) (extent : Nat) (moov : List Byte)
    (file : File) : Prop where
  holdsFtyp : file.Holds 0 (ftypBox mpeg4).render
  holdsMdat : file.Holds origin.mdatPlace (mdatHead origin.mUse32BitOffset extent)
  holdsMoov : file.Holds (origin.moovPlace extent moov.length) moov
  holdsFree :
    origin.Fits moov.length →
      file.Holds (24 + moov.length)
        (be32 (origin.mEstimatedMoovBoxSize - moov.length) ++ fourcc "free")
  holdsReserved :
    ¬origin.Fits moov.length →
      origin.mStreamableFile = true →
        file.Holds 24 (be32 origin.mEstimatedMoovBoxSize ++ fourcc "free")
  size : file.size = if origin.Fits moov.length then origin.mdatPlace + extent
      else origin.mdatPlace + extent + moov.length

/- The writer as the movie box begins. -/
def moovOrigin (writer : MPEG4Writer) : MPEG4Writer :=
  { writer with
    mMoovBoxBuffer := [],
    mWriteMoovBoxToMemory := writer.mStreamableFile }

variable {origin writer next : MPEG4Writer} {mpeg4 : Bool} {head moov : List Byte} {extent : Nat}

theorem Laid.relates_moovOrigin (hLaid : Laid origin mpeg4 head extent writer)
    (hEstimate : 8 ≤ origin.mEstimatedMoovBoxSize) :
    Relates writer.moovOrigin [] [] writer.moovOrigin := by
  cases hStream : writer.mStreamableFile with
  | true =>
    refine .memory (.refl _) hStream hStream rfl hLaid.boxes
      rfl rfl ?_
    show 0 + 8 ≤ writer.mEstimatedMoovBoxSize
    rw [hLaid.estimate]
    exact hEstimate
  | false => exact relates_self hStream hLaid.boxes hLaid.pos (Nat.le_of_eq hLaid.size.symm)

theorem flushMoov_memory (hMemory : next.mWriteMoovBoxToMemory = true)
    (hRoom :
      next.mMoovBoxBuffer.length + 8 ≤
        next.mEstimatedMoovBoxSize) :
    next.flushMoov =
      some
        { next with
          mWriteMoovBoxToMemory := false,
          mOffset :=
            next.mFreeBoxOffset + next.mMoovBoxBuffer.length + 4 + 4,
          mFd :=
            ((((next.mFd.seek next.mFreeBoxOffset).write
              next.mMoovBoxBuffer).seek
                (next.mFreeBoxOffset +
                  next.mMoovBoxBuffer.length)).write
                    (be32
                      (next.mEstimatedMoovBoxSize -
                        next.mMoovBoxBuffer.length))).write (fourcc "free") } := by
  have hName : (fourcc "free").length = 4 := rfl
  have hOver :
      ¬next.mMoovBoxBuffer.length + 8 >
        next.mEstimatedMoovBoxSize :=
    Nat.not_lt.mpr hRoom
  simp only [flushMoov, if_pos hMemory, mMoovBoxBufferOffset,
    if_neg hOver, writeInt32, write, Bool.false_eq_true, if_false, be32_length, hName]

/- The movie box that fits goes to the reserved space. -/
theorem flushMoov_recorded
    (hLaid : Laid origin mpeg4 (mdatHead origin.mUse32BitOffset extent) extent writer)
    (hFits : origin.Fits moov.length) (hFrame : Frame writer.moovOrigin next)
    (hMemory : next.mWriteMoovBoxToMemory = true) (hBuffer : next.mMoovBoxBuffer = moov)
    (hBoxes : next.mBoxes = []) (hFd : next.mFd = writer.mFd) :
    ∃ final,
      next.flushMoov = some final ∧ final.mBoxes = [] ∧
        Recorded origin mpeg4 extent moov final.mFd := by
  have hEstimate :
      next.mEstimatedMoovBoxSize = origin.mEstimatedMoovBoxSize :=
    hFrame.estimate.trans hLaid.estimate
  have hFree : next.mFreeBoxOffset = 24 := hFrame.free.trans hLaid.free
  have hRoom := hFits.2
  have hLength := ftypBox_length mpeg4
  have hPlace : origin.mdatPlace = 24 + origin.mEstimatedMoovBoxSize := if_pos hFits.1
  have hMoov : origin.moovPlace extent moov.length = 24 := if_pos hFits
  have hName : (fourcc "free").length = 4 := rfl
  have hFlush := flushMoov_memory hMemory (by rw [hBuffer, hEstimate]; exact hRoom)
  rw [hBuffer, hFree, hFd, hEstimate] at hFlush
  refine ⟨_, hFlush, hBoxes, ?_⟩
  have hFirst : (((writer.mFd.seek 24).write moov).seek (24 + moov.length)).Holds 24 moov :=
    File.write_holds (writer.mFd.seek 24) moov
  have hNext :
      ((((writer.mFd.seek 24).write moov).seek
        (24 + moov.length)).write
          (be32 (origin.mEstimatedMoovBoxSize - moov.length))).Holds (24 + moov.length)
        (be32 (origin.mEstimatedMoovBoxSize - moov.length)) :=
    File.write_holds _ _
  have hType : (writer.mFd.seek 24).Holds 0 (ftypBox mpeg4).render := hLaid.holdsFtyp
  have hMdat :
      (writer.mFd.seek 24).Holds origin.mdatPlace (mdatHead origin.mUse32BitOffset extent) :=
    hLaid.holdsMdat
  have hTypeMoov :
      (((writer.mFd.seek 24).write moov).seek (24 + moov.length)).Holds 0 (ftypBox mpeg4).render :=
    hType.write_behind (by simp only [File.seek_pos]; omega) _
  have hMdatMoov :
      (((writer.mFd.seek 24).write moov).seek
        (24 + moov.length)).Holds origin.mdatPlace (mdatHead origin.mUse32BitOffset extent) :=
    hMdat.write_before (by simp only [File.seek_pos]; omega)
  refine ⟨?_, ?_, ?_, ?_, fun hNot => absurd hFits hNot, ?_⟩
  · refine (hTypeMoov.write_behind ?_ _).write_behind ?_ _
    · simp only [File.seek_pos]
      omega
    · simp only [File.write_pos, File.seek_pos]
      omega
  · refine (hMdatMoov.write_before ?_).write_before ?_
    · simp only [File.seek_pos, be32_length]
      omega
    · simp only [File.write_pos, File.seek_pos, be32_length, hName]
      omega
  · rw [hMoov]
    refine (hFirst.write_behind ?_ _).write_behind ?_ _
    · simp only [File.seek_pos]
      omega
    · simp only [File.write_pos, File.seek_pos]
      omega
  · intro _
    exact hNext.append_write rfl _
  · have hEnd := hLaid.size.trans hLaid.offset
    rw [if_pos hFits]
    simp only [File.write_size, File.write_pos, File.seek_pos,
      File.seek_size, be32_length, hName, hEnd]
    omega

/- The movie box that does not fit is behind the samples. -/
theorem file_recorded
    (hLaid : Laid origin mpeg4 (mdatHead origin.mUse32BitOffset extent) extent writer)
    (hHead : (mdatHead origin.mUse32BitOffset extent).length ≤ extent)
    (hFits : ¬origin.Fits moov.length) (hEstimate : 8 ≤ origin.mEstimatedMoovBoxSize)
    (hHolds : next.mFd.Holds writer.mOffset moov)
    (hBelow : next.mFd.SameBelow writer.mFd writer.mOffset)
    (hOffset : next.mOffset = writer.mOffset + moov.length)
    (hSize : next.mFd.size = max writer.mFd.size next.mOffset) :
    Recorded origin mpeg4 extent moov next.mFd := by
  have hPlace := mdatPlace_ge origin
  have hEnd := hLaid.offset
  have hLength := ftypBox_length mpeg4
  have hMoov : origin.moovPlace extent moov.length = writer.mOffset := by
    rw [moovPlace, if_neg hFits, hEnd]
  refine ⟨hLaid.holdsFtyp.sameBelow hBelow (by omega),
    hLaid.holdsMdat.sameBelow hBelow (by omega), ?_, fun hTrue => absurd hTrue hFits, ?_, ?_⟩
  · rw [hMoov]
    exact hHolds
  · intro _ hStream
    have hFree : (be32 origin.mEstimatedMoovBoxSize ++ fourcc "free").length = 8 := rfl
    have hRoom : origin.mdatPlace = 24 + origin.mEstimatedMoovBoxSize := if_pos hStream
    exact (hLaid.holdsFree hStream).sameBelow hBelow (by omega)
  · rw [hSize, if_neg hFits, hLaid.size]
    omega

/- The end of a recording, with any nested boxes. -/
theorem reset_recorded (hLaid : Laid origin mpeg4 (mdatHeader origin.mUse32BitOffset) extent writer)
    (hHead : (mdatHeader origin.mUse32BitOffset).length ≤ extent)
    (hEstimate : 8 ≤ origin.mEstimatedMoovBoxSize) (items : Items) :
    ∃ final,
      writer.reset items = some final ∧ Recorded origin mpeg4 extent items.render final.mFd := by
  have hFixed := fixMdat_laid hLaid hHead hEstimate
  rw [← mdatHead_length origin.mUse32BitOffset extent] at hHead
  have hOrigin := hFixed.relates_moovOrigin hEstimate
  rcases writeItems_relates items hOrigin with ⟨next, hRun, hNext⟩
  rw [List.nil_append] at hNext
  have hReset :
      writer.reset items =
        next.flushMoov.bind fun final =>
          if final.mBoxes = [] then some final else none := by
    show (writer.fixMdat.moovOrigin.writeItems items).bind _ = _
    rw [hRun]
    rfl
  rw [hReset]
  cases hNext with
  | memory hFrame hMemory hOwn hBuffer hBoxes hFd hOffset hRoom =>
    have hFits : origin.Fits items.render.length :=
      ⟨hFixed.streamable.symm.trans hOwn, Nat.le_trans hRoom (Nat.le_of_eq hFixed.estimate)⟩
    rcases flushMoov_recorded hFixed hFits hFrame hMemory hBuffer hBoxes hFd with
      ⟨final, hFlush, hClosed, hRecorded⟩
    refine ⟨final, ?_, hRecorded⟩
    rw [hFlush, Option.bind_some, if_pos hClosed]
  | file hFrame hMemory hFull hHolds hBelow hPos hOffset hBoxes hSize =>
    have hFits : ¬origin.Fits items.render.length := by
      rintro ⟨hStream, hRoom⟩
      have hOver := hFull (hFixed.streamable.trans hStream)
      have hSame : writer.fixMdat.moovOrigin.mEstimatedMoovBoxSize = origin.mEstimatedMoovBoxSize :=
        hFixed.estimate
      omega
    have hFlush : next.flushMoov = some next := by
      simp only [flushMoov, hMemory, Bool.false_eq_true, if_false]
    refine ⟨next, ?_, file_recorded hFixed hHead hFits hEstimate hHolds hBelow hOffset hSize⟩
    rw [hFlush, Option.bind_some]
    exact if_pos hBoxes

/- A recording from the beginning. -/
theorem record_recorded (mEstimatedMoovBoxSize : Nat) (mStreamableFile mUse32BitOffset mpeg4 : Bool)
    (samples : List (List Byte)) (items : Items) (hEstimate : 8 ≤ mEstimatedMoovBoxSize) :
    ∃ final,
      record (new mEstimatedMoovBoxSize mStreamableFile mUse32BitOffset) mpeg4 samples items =
        some final ∧
      Recorded (new mEstimatedMoovBoxSize mStreamableFile mUse32BitOffset) mpeg4
        (mdatExtent mUse32BitOffset samples) items.render final.mFd := by
  have hFirst :=
    @start_laid
      (new mEstimatedMoovBoxSize mStreamableFile mUse32BitOffset) mpeg4 rfl rfl rfl rfl hEstimate
  rcases hFirst with ⟨started, hStart, hStarted⟩
  have hLaid := addSamples_laid samples hStarted (Nat.le_refl _) hEstimate
  rcases reset_recorded hLaid (Nat.le_add_right _ _) hEstimate items with ⟨final, hReset, hRecorded⟩
  refine ⟨final, ?_, hRecorded⟩
  rw [record, hStart]
  exact hReset

end MPEG4Writer

--
-- Top-Level Boxes of a Recording
--

namespace MPEG4Writer

variable {origin : MPEG4Writer} {file : File} {mpeg4 : Bool} {moov : List Byte}
variable {extent start stop : Nat} {rest : List (List Byte × Nat)}

/- What the size field of the samples can hold. -/
def mdatLimit (mUse32BitOffset : Bool) : Nat :=
  if mUse32BitOffset then 2 ^ 32 else 2 ^ 64

theorem tiled_mdat {mUse32BitOffset : Bool}
    (hHolds : file.Holds start (mdatHead mUse32BitOffset extent))
    (hHead : (mdatHeader mUse32BitOffset).length ≤ extent)
    (hLimit : extent < mdatLimit mUse32BitOffset) (hRest : file.Tiled (start + extent) stop rest) :
    file.Tiled start stop ((fourcc "mdat", extent) :: rest) := by
  cases mUse32BitOffset with
  | true => exact .small hHolds rfl hHead hLimit hRest
  | false => exact .large hHolds rfl hHead hLimit hRest

theorem Recorded.tiled {more : List Byte} (hRecorded : Recorded origin mpeg4 extent moov file)
    (hShape : moov = (be32 moov.length ++ fourcc "moov") ++ more)
    (hEstimate : 8 ≤ origin.mEstimatedMoovBoxSize)
    (hReserved : origin.mEstimatedMoovBoxSize < 2 ^ 32) (hCount : moov.length < 2 ^ 32)
    (hHead : (mdatHeader origin.mUse32BitOffset).length ≤ extent)
    (hLimit : extent < mdatLimit origin.mUse32BitOffset) :
    file.Tiled 0 file.size (origin.topBoxes extent moov.length) := by
  rcases ftypBox_render mpeg4 with ⟨brands, hFtyp, _⟩
  have hType : file.Holds 0 (be32 24 ++ fourcc "ftyp") := by
    have hAll := hRecorded.holdsFtyp
    rw [hFtyp] at hAll
    exact hAll.front
  have hName : file.Holds (origin.moovPlace extent moov.length)
      (be32 moov.length ++ fourcc "moov") := by
    have hAll := hRecorded.holdsMoov
    rw [hShape] at hAll
    have hFront := hAll.front
    rw [← hShape] at hFront
    exact hFront
  have hMin : 8 ≤ moov.length := by
    rw [hShape, List.length_append, List.length_append, be32_length]
    have hFour : (fourcc "moov").length = 4 := rfl
    omega
  have hSize := hRecorded.size
  have hMdat := hRecorded.holdsMdat
  refine .small hType rfl (by omega) (by omega) ?_
  rw [Nat.zero_add]
  by_cases hFits : origin.Fits moov.length
  · have hPlace : origin.mdatPlace = 24 + origin.mEstimatedMoovBoxSize := if_pos hFits.1
    have hRoom := hFits.2
    have hFree := hRecorded.holdsFree hFits
    rw [moovPlace, if_pos hFits] at hName
    rw [if_pos hFits] at hSize ⊢
    refine .small hName rfl hMin hCount ?_
    refine .small hFree rfl (by omega) (by omega) ?_
    have hNext :
        24 + moov.length + (origin.mEstimatedMoovBoxSize - moov.length) = origin.mdatPlace := by
      omega
    rw [hNext, hSize]
    exact tiled_mdat hMdat hHead hLimit (.done _)
  · have hMoov :
        file.Tiled (origin.mdatPlace + extent) file.size [(fourcc "moov", moov.length)] := by
      rw [moovPlace, if_neg hFits] at hName
      rw [hSize, if_neg hFits]
      exact .small hName rfl hMin hCount (.done _)
    have hLast := tiled_mdat hMdat hHead hLimit hMoov
    rw [if_neg hFits]
    by_cases hStream : origin.mStreamableFile = true
    · have hPlace : origin.mdatPlace = 24 + origin.mEstimatedMoovBoxSize := if_pos hStream
      rw [if_pos hStream]
      rw [hPlace] at hLast
      exact .small (hRecorded.holdsReserved hFits hStream) rfl hEstimate hReserved hLast
    · have hPlace : origin.mdatPlace = 24 := if_neg hStream
      rw [if_neg hStream]
      rw [hPlace] at hLast
      exact hLast

end MPEG4Writer

/-
  Writing the movie box to memory cannot be seen: a file with reserved space and one without it hold
  the same movie box, and a file consists of its boxes.
-/
theorem record_moov (mEstimatedMoovBoxSize : Nat) (mStreamableFile mUse32BitOffset mpeg4 : Bool)
    (samples : List (List Byte)) (body : Items) (hEstimate : 8 ≤ mEstimatedMoovBoxSize) :
    let moov := Items.box (fourcc "moov") body .nil
    let origin :=
      MPEG4Writer.new mEstimatedMoovBoxSize mStreamableFile mUse32BitOffset
    let plain := MPEG4Writer.new mEstimatedMoovBoxSize false mUse32BitOffset
    let extent := MPEG4Writer.mdatExtent mUse32BitOffset samples
    let count := moov.render.length
    ∃ writer direct, record origin mpeg4 samples moov = some writer ∧
      record plain mpeg4 samples moov = some direct ∧
      writer.mFd.Holds (origin.moovPlace extent count) moov.render ∧
      direct.mFd.Holds (plain.moovPlace extent count) moov.render ∧
      (count < 2 ^ 32 → moov.Sized writer.mFd (origin.moovPlace extent count) ∧
        moov.Sized direct.mFd (plain.moovPlace extent count)) ∧
      (count < 2 ^ 32 → mEstimatedMoovBoxSize < 2 ^ 32 →
        extent < MPEG4Writer.mdatLimit mUse32BitOffset →
          writer.mFd.Tiled 0 writer.mFd.size (origin.topBoxes extent count)) := by
  intro moov origin plain extent count
  have hShape : moov.render = (be32 moov.render.length ++ fourcc "moov") ++ body.render := by
    have hAll :
        moov.render = (be32 (4 + 4 + body.render.length) ++ fourcc "moov" ++ body.render) ++ [] :=
      rfl
    have hName : (fourcc "moov").length = 4 := rfl
    have hCount : moov.render.length = 4 + 4 + body.render.length := by
      rw [hAll]
      simp only [List.length_append, be32_length, hName, List.length_nil, Nat.add_zero]
    rw [hCount, hAll, List.append_nil]
  rcases MPEG4Writer.record_recorded mEstimatedMoovBoxSize
    mStreamableFile mUse32BitOffset mpeg4 samples moov hEstimate with ⟨writer, hRun, hWriter⟩
  rcases MPEG4Writer.record_recorded mEstimatedMoovBoxSize
    false mUse32BitOffset mpeg4 samples moov hEstimate with ⟨direct, hPlain, hDirect⟩
  refine ⟨writer, direct, hRun, hPlain, hWriter.holdsMoov, hDirect.holdsMoov, ?_, ?_⟩
  · intro hCount
    exact ⟨moov.sized_of_holds hWriter.holdsMoov hCount,
      moov.sized_of_holds hDirect.holdsMoov hCount⟩
  · intro hCount hReserved hLimit
    exact hWriter.tiled hShape hEstimate hReserved hCount (Nat.le_add_right _ _) hLimit

/- A movie box of sixteen bytes in the space for it. -/
theorem record_moov_small :
    ∃ writer,
      record (.new 40 true true) true [[7]]
          (.box (fourcc "moov") (.box (fourcc "udta") .nil .nil) .nil) =
        some writer ∧
      writer.mFd.Tiled 0 writer.mFd.size
        [(fourcc "ftyp", 24), (fourcc "moov", 16), (fourcc "free", 24), (fourcc "mdat", 9)] := by
  rcases record_moov 40 true true true [[7]] (.box (fourcc "udta") .nil .nil) (by decide) with
    ⟨writer, _, hRun, _, _, _, _, hTiled⟩
  exact ⟨writer, hRun, hTiled (by decide) (by decide) (by decide)⟩

namespace File

/- The size field of the first box leads to the second one. -/
theorem Tiled.next {file : File} {start stop : Nat} {boxes : List (List Byte × Nat)}
    (hTiled : file.Tiled start stop boxes) (hMore : start ≠ stop) :
    ∃ size rest,
      8 ≤ size ∧ file.Tiled (start + size) stop rest ∧
        (file.sizeField start = size ∨ file.sizeField start = 1) := by
  cases hTiled with
  | done => exact absurd rfl hMore
  | small hHeader hName hMin hMax hRest =>
    refine ⟨_, _, hMin, hRest, .inl ?_⟩
    rw [hHeader.sizeField_eq]
    exact Nat.mod_eq_of_lt hMax
  | large hHeader hName hMin hMax hRest =>
    rw [List.append_assoc] at hHeader
    refine ⟨_, _, by omega, hRest, .inr ?_⟩
    exact hHeader.sizeField_eq

end File

/-
  The space that is left over behind the movie box does not fit into the size field of the box for
  it.
-/
theorem record_untiled :
    ∃ writer,
      record (.new (2 ^ 32 + 8) true false) true [] (.box (fourcc "moov") .nil .nil) = some writer ∧
      ¬∃ boxes, writer.mFd.Tiled 0 writer.mFd.size boxes := by
  rcases MPEG4Writer.record_recorded (2 ^ 32 + 8) true false true
    [] (.box (fourcc "moov") .nil .nil) (by decide) with ⟨writer, hRun, hRecorded⟩
  refine ⟨writer, hRun, ?_⟩
  rintro ⟨boxes, hTiled⟩
  have hSize : writer.mFd.size = 24 + (2 ^ 32 + 8) + 16 := hRecorded.size
  have hFtyp : writer.mFd.sizeField 0 = 24 := hRecorded.holdsFtyp.sizeField_eq
  have hMoov : writer.mFd.sizeField 24 = 8 := hRecorded.holdsMoov.sizeField_eq
  have hFree : writer.mFd.sizeField 32 = 0 := (hRecorded.holdsFree (by decide)).sizeField_eq
  rw [hSize] at hTiled
  rcases hTiled.next (by decide) with ⟨first, _, _, hTiled, hField⟩
  obtain rfl : first = 24 := by omega
  rcases hTiled.next (by decide) with ⟨second, _, _, hTiled, hField⟩
  obtain rfl : second = 8 := by
    simp only [Nat.zero_add] at hField
    omega
  rcases hTiled.next (by decide) with ⟨third, _, _, _, hField⟩
  simp only [Nat.zero_add, Nat.reduceAdd] at hField
  omega

end FrameworksAv
