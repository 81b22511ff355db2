import FrameworksAv.Base.File

/-
  The file of a recording and its boxes.

  The samples go straight to the file. The movie box at the end of a recording goes to a buffer as
  long as it fits into the space that was reserved at the front of the file, and behind the samples
  otherwise.

  A writer in memory and a writer in the file.

  Both put out the same bytes. The relation of a writer to what it has put out has one case for
  either; it survives the step from memory to the file wherever that happens.

  Main declarations:
    * `MPEG4Writer`
    * `MPEG4Writer.write`, `beginBox`, `endBox`
    * `MPEG4Writer.Relates.endBox`
    * `MPEG4Writer.writeItems_relates`
-/

--
-- Writing
--

namespace FrameworksAv

/-
  The buffer is the bytes in front of its offset, and the innermost of the open boxes stands first.
-/
structure MPEG4Writer where
  mFd : File
  mOffset : Nat
  mMdatOffset : Nat
  mFreeBoxOffset : Nat
  mEstimatedMoovBoxSize : Nat
  mStreamableFile : Bool
  mUse32BitOffset : Bool
  mWriteMoovBoxToMemory : Bool
  mMoovBoxBuffer : List Byte
  mBoxes : List Nat

namespace MPEG4Writer

def mMoovBoxBufferOffset (writer : MPEG4Writer) : Nat :=
  writer.mMoovBoxBuffer.length

def write (writer : MPEG4Writer) (bytes : List Byte) : MPEG4Writer :=
  if writer.mWriteMoovBoxToMemory then
    if 8 + writer.mMoovBoxBufferOffset + bytes.length > writer.mEstimatedMoovBoxSize then
      -- What is in memory is written to the file first.
      { writer with
        mBoxes := writer.mBoxes.map (· + writer.mOffset),
        mFd := ((writer.mFd.seek writer.mOffset).write writer.mMoovBoxBuffer).write bytes,
        mOffset := writer.mOffset + (bytes.length + writer.mMoovBoxBufferOffset),
        mWriteMoovBoxToMemory := false }
    else
      { writer with
        mMoovBoxBuffer := writer.mMoovBoxBuffer ++ bytes }
  else
    { writer with
      mFd := writer.mFd.write bytes,
      mOffset := writer.mOffset + bytes.length }

def writeInt32 (writer : MPEG4Writer) (x : Nat) : MPEG4Writer :=
  writer.write (be32 x)

/- The place of the next byte, in the buffer or the file. -/
def place (writer : MPEG4Writer) : Nat :=
  if writer.mWriteMoovBoxToMemory then writer.mMoovBoxBufferOffset
  else writer.mOffset

def beginBox (writer : MPEG4Writer) (id : List Byte) : MPEG4Writer :=
  ({ writer with
    mBoxes := writer.place :: writer.mBoxes }.writeInt32
      0).write id

/- Overwrite four bytes of the buffer. -/
def patchBuffer (buffer : List Byte) (offset x : Nat) : List Byte :=
  buffer.take offset ++ be32 x ++ buffer.drop (offset + 4)

/- `none` is a failed check. -/
def endBox (writer : MPEG4Writer) : Option MPEG4Writer :=
  match writer.mBoxes with
  | [] => none
  | offset :: boxes =>
    let writer := { writer with mBoxes := boxes }
    if writer.mWriteMoovBoxToMemory then
      some
        { writer with
          mMoovBoxBuffer :=
            patchBuffer writer.mMoovBoxBuffer offset (writer.mMoovBoxBufferOffset - offset) }
    else
      let size := writer.mOffset - offset
      let writer := { writer with mFd := writer.mFd.seek offset }
      let writer := writer.writeInt32 size
      let mOffset := writer.mOffset - 4
      some
        { writer with
          mOffset := mOffset,
          mFd := writer.mFd.seek mOffset }

end MPEG4Writer

/- Properly nested calls: bytes and boxes one after the other. -/
inductive Items
| nil
| write (bytes : List Byte) (rest : Items)
| box (id : List Byte) (body rest : Items)
deriving DecidableEq, Repr

namespace MPEG4Writer

def writeItems (writer : MPEG4Writer) : Items → Option MPEG4Writer
| .nil => some writer
| .write bytes rest => (writer.write bytes).writeItems rest
| .box id body rest => do
    let writer ← (writer.beginBox id).writeItems body
    let writer ← writer.endBox
    writer.writeItems rest

end MPEG4Writer

--
-- Recordings
--

/- The bytes of a name. -/
def fourcc (name : String) : List Byte :=
  name.toList.map (fun c => BitVec.ofNat 8 c.toNat)

namespace MPEG4Writer

/- The calls of `writeFtypBox`. -/
def ftypBox (mpeg4 : Bool) : Items :=
  if mpeg4 then
    .box (fourcc "ftyp")
      (.write (fourcc "mp42")
        (.write (be32 0) (.write (fourcc "isom") (.write (fourcc "mp42") .nil)))) .nil
  else
    .box (fourcc "ftyp")
      (.write (fourcc "3gp4")
        (.write (be32 0) (.write (fourcc "isom") (.write (fourcc "3gp4") .nil)))) .nil

def new (mEstimatedMoovBoxSize : Nat) (mStreamableFile mUse32BitOffset : Bool) : MPEG4Writer where
  mFd := .empty
  mOffset := 0
  mMdatOffset := 0
  mFreeBoxOffset := 0
  mEstimatedMoovBoxSize := mEstimatedMoovBoxSize
  mStreamableFile := mStreamableFile
  mUse32BitOffset := mUse32BitOffset
  mWriteMoovBoxToMemory := false
  mMoovBoxBuffer := []
  mBoxes := []

/- Reserve the space for the movie box. -/
def reserve (writer : MPEG4Writer) : MPEG4Writer :=
  let writer := { writer with mFreeBoxOffset := writer.mOffset }
  if writer.mStreamableFile then
    let writer :=
      { writer with
        mFd := writer.mFd.seek writer.mFreeBoxOffset }
    let writer := (writer.writeInt32 writer.mEstimatedMoovBoxSize).write (fourcc "free")
    { writer with
      mMdatOffset := writer.mFreeBoxOffset + writer.mEstimatedMoovBoxSize }
  else { writer with mMdatOffset := writer.mOffset }

/- The header of the box of the samples. -/
def mdatHeader (mUse32BitOffset : Bool) : List Byte :=
  if mUse32BitOffset then fourcc "????mdat"
  else be32 1 ++ fourcc "mdat????????"

def start (writer : MPEG4Writer) (mpeg4 : Bool) : Option MPEG4Writer := do
  let writer ← writer.writeItems (ftypBox mpeg4)
  if writer.mEstimatedMoovBoxSize < 8 then none
  else
    let writer := writer.reserve
    let writer :=
      { writer with
        mOffset := writer.mMdatOffset,
        mFd := writer.mFd.seek writer.mMdatOffset }
    some (writer.write (mdatHeader writer.mUse32BitOffset))

/- The bytes of a sample, with a length where it has one. -/
def addSample_l (writer : MPEG4Writer) (sample : List Byte) : MPEG4Writer :=
  { writer with
    mFd := writer.mFd.write sample,
    mOffset := writer.mOffset + sample.length }

/- The size of the samples is filled in. -/
def fixMdat (writer : MPEG4Writer) : MPEG4Writer :=
  let size := writer.mOffset - writer.mMdatOffset
  let mFd := if writer.mUse32BitOffset then (writer.mFd.seek writer.mMdatOffset).write (be32 size)
    else (writer.mFd.seek (writer.mMdatOffset + 8)).write (be64 size)
  { writer with mFd := mFd.seek writer.mOffset }

/- The movie box is put into the reserved space. -/
def flushMoov (writer : MPEG4Writer) : Option MPEG4Writer :=
  if writer.mWriteMoovBoxToMemory then
    let writer := { writer with mWriteMoovBoxToMemory := false }
    if writer.mMoovBoxBufferOffset + 8 > writer.mEstimatedMoovBoxSize then none
    else
      let writer :=
        { writer with
          mFd := writer.mFd.seek writer.mFreeBoxOffset,
          mOffset := writer.mFreeBoxOffset }
      let writer := writer.write writer.mMoovBoxBuffer
      let writer := { writer with mFd := writer.mFd.seek writer.mOffset }
      some
        ((writer.writeInt32
          (writer.mEstimatedMoovBoxSize - writer.mMoovBoxBufferOffset)).write (fourcc "free"))
  else some writer

/- The end of a recording, with the calls of the movie box. -/
def reset (writer : MPEG4Writer) (moov : Items) : Option MPEG4Writer := do
  let writer := writer.fixMdat
  let writer :=
    { writer with
      mMoovBoxBuffer := [],
      mWriteMoovBoxToMemory := writer.mStreamableFile }
  let writer ← writer.writeItems moov
  let writer ← writer.flushMoov
  if writer.mBoxes = [] then some writer else none

end MPEG4Writer

/- A whole recording. -/
def record (writer : MPEG4Writer) (mpeg4 : Bool) (samples : List (List Byte)) (moov : Items) :
    Option MPEG4Writer := do
  let writer ← writer.start mpeg4
  (samples.foldl MPEG4Writer.addSample_l writer).reset moov

--
-- Output
--

/- The bytes of nested boxes, each with its size in front. -/
def Items.render : Items → List Byte
| .nil => []
| .write bytes rest => bytes ++ rest.render
| .box id body rest =>
  (be32 (4 + id.length + body.render.length) ++ id ++ body.render) ++ rest.render

namespace MPEG4Writer

/- What no write changes. -/
structure Frame (origin writer : MPEG4Writer) : Prop where
  mdat : writer.mMdatOffset = origin.mMdatOffset
  free : writer.mFreeBoxOffset = origin.mFreeBoxOffset
  estimate : writer.mEstimatedMoovBoxSize = origin.mEstimatedMoovBoxSize
  streamable : writer.mStreamableFile = origin.mStreamableFile
  offset32 : writer.mUse32BitOffset = origin.mUse32BitOffset

theorem Frame.refl (writer : MPEG4Writer) : Frame writer writer :=
  ⟨rfl, rfl, rfl, rfl, rfl⟩

/- A writer that has put out some bytes since an origin, with boxes open at some places of them. -/
inductive Relates (origin : MPEG4Writer) (out : List Byte)
    (opened : List Nat) (writer : MPEG4Writer) : Prop
| memory (hFrame : Frame origin writer) (hMemory : writer.mWriteMoovBoxToMemory = true)
    (hOrigin : origin.mWriteMoovBoxToMemory = true) (hBuffer : writer.mMoovBoxBuffer = out)
    (hBoxes : writer.mBoxes = opened) (hFd : writer.mFd = origin.mFd)
    (hOffset : writer.mOffset = origin.mOffset)
    (hRoom : out.length + 8 ≤ origin.mEstimatedMoovBoxSize)
| file (hFrame : Frame origin writer) (hMemory : writer.mWriteMoovBoxToMemory = false)
    (hFull : origin.mWriteMoovBoxToMemory = true → origin.mEstimatedMoovBoxSize < out.length + 8)
    (hHolds : writer.mFd.Holds origin.mOffset out)
    (hBelow : writer.mFd.SameBelow origin.mFd origin.mOffset)
    (hPos : writer.mFd.pos = writer.mOffset)
    (hOffset : writer.mOffset = origin.mOffset + out.length)
    (hBoxes : writer.mBoxes = opened.map (· + origin.mOffset))
    (hSize : writer.mFd.size = max origin.mFd.size writer.mOffset)

variable {origin writer : MPEG4Writer} {out : List Byte} {opened : List Nat}

namespace Relates

/- Written bytes are put out, wherever they go. -/
theorem write (hRelates : Relates origin out opened writer) (bytes : List Byte) :
    Relates origin (out ++ bytes) opened (writer.write bytes) := by
  cases hRelates with
  | memory hFrame hMemory hOrigin hBuffer hBoxes hFd hOffset hRoom =>
    have hLength : writer.mMoovBoxBufferOffset = out.length := congrArg List.length hBuffer
    have hEstimate := hFrame.estimate
    unfold MPEG4Writer.write
    rw [if_pos hMemory, hLength]
    by_cases hFits : 8 + out.length + bytes.length > writer.mEstimatedMoovBoxSize
    · rw [if_pos hFits, hBuffer, hBoxes, hFd, hOffset]
      have hFirst : ((origin.mFd.seek origin.mOffset).write out).Holds origin.mOffset out :=
        File.write_holds _ out
      refine .file
        ⟨hFrame.mdat, hFrame.free, hFrame.estimate,
          hFrame.streamable, hFrame.offset32⟩ rfl ?_ ?_ ?_ ?_
        ?_ rfl ?_
      · intro _
        rw [List.length_append]
        omega
      · exact hFirst.append_write rfl bytes
      · have hOwn : (origin.mFd.seek origin.mOffset).SameBelow origin.mFd origin.mOffset :=
          fun _ _ => rfl
        refine (hOwn.write (Nat.le_refl _) out).write ?_ bytes
        exact Nat.le_add_right _ _
      · simp only [File.write_pos, File.seek_pos]
        omega
      · rw [List.length_append]
        simp only
        omega
      · simp only [File.write_size, File.write_pos, File.seek_pos, File.seek_size]
        omega
    · rw [if_neg hFits]
      refine .memory
        ⟨hFrame.mdat, hFrame.free, hFrame.estimate,
          hFrame.streamable, hFrame.offset32⟩ hMemory hOrigin
        (by rw [hBuffer]) hBoxes hFd hOffset ?_
      rw [List.length_append]
      omega
  | file hFrame hMemory hFull hHolds hBelow hPos hOffset hBoxes hSize =>
    have hNot : ¬writer.mWriteMoovBoxToMemory = true := by
      rw [hMemory]
      decide
    have hEnd : writer.mFd.pos = origin.mOffset + out.length := hPos.trans hOffset
    unfold MPEG4Writer.write
    rw [if_neg hNot]
    refine .file
      ⟨hFrame.mdat, hFrame.free, hFrame.estimate, hFrame.streamable, hFrame.offset32⟩ hMemory ?_
      (hHolds.append_write hEnd bytes) (hBelow.write (by omega) bytes) ?_ ?_ hBoxes ?_
    · intro hOrigin
      have hBefore := hFull hOrigin
      rw [List.length_append]
      omega
    · rw [File.write_pos, hPos]
    · rw [hOffset, List.length_append, Nat.add_assoc]
    · rw [File.write_size, hSize, hPos]
      simp only
      omega

/- A box is opened at the end of what was put out. -/
theorem opens (hRelates : Relates origin out opened writer) :
    Relates origin out (out.length :: opened)
      { writer with mBoxes := writer.place :: writer.mBoxes } := by
  cases hRelates with
  | memory hFrame hMemory hOrigin hBuffer hBoxes hFd hOffset hRoom =>
    refine .memory
      ⟨hFrame.mdat, hFrame.free, hFrame.estimate,
        hFrame.streamable, hFrame.offset32⟩ hMemory hOrigin
      hBuffer ?_ hFd hOffset hRoom
    simp only
    rw [place, if_pos hMemory, mMoovBoxBufferOffset, hBuffer, hBoxes]
  | file hFrame hMemory hFull hHolds hBelow hPos hOffset hBoxes hSize =>
    have hNot : ¬writer.mWriteMoovBoxToMemory = true := by
      rw [hMemory]
      decide
    refine .file
      ⟨hFrame.mdat, hFrame.free, hFrame.estimate, hFrame.streamable, hFrame.offset32⟩ hMemory hFull
      hHolds hBelow hPos hOffset ?_ hSize
    simp only
    rw [place, if_neg hNot, hOffset, hBoxes, List.map_cons, Nat.add_comm]

theorem beginBox (hRelates : Relates origin out opened writer) (id : List Byte) :
    Relates origin (out ++ (be32 0 ++ id)) (out.length :: opened) (writer.beginBox id) := by
  have hHeader := (hRelates.opens.write (be32 0)).write id
  rw [List.append_assoc] at hHeader
  exact hHeader

/- The size of the innermost box is filled in. -/
theorem endBox {offset : Nat} (hRelates : Relates origin out (offset :: opened) writer)
    (hInside : offset + 4 ≤ out.length) :
    ∃ next,
      writer.endBox = some next ∧
        Relates origin (patchBuffer out offset (out.length - offset)) opened next := by
  have hLength : (patchBuffer out offset (out.length - offset)).length = out.length := by
    simp only [patchBuffer, List.length_append, List.length_take, List.length_drop, be32_length]
    omega
  cases hRelates with
  | memory hFrame hMemory hOrigin hBuffer hBoxes hFd hOffset hRoom =>
    unfold MPEG4Writer.endBox
    simp only [hBoxes]
    rw [if_pos hMemory]
    refine ⟨_, rfl, ?_⟩
    refine .memory
      ⟨hFrame.mdat, hFrame.free, hFrame.estimate,
        hFrame.streamable, hFrame.offset32⟩ hMemory hOrigin ?_
      rfl hFd hOffset ?_
    · simp only [mMoovBoxBufferOffset, hBuffer]
    · rw [hLength]
      exact hRoom
  | file hFrame hMemory hFull hHolds hBelow hPos hOffset hBoxes hSize =>
    have hNot : ¬writer.mWriteMoovBoxToMemory = true := by
      rw [hMemory]
      decide
    unfold MPEG4Writer.endBox writeInt32 MPEG4Writer.write
    simp only [hBoxes, List.map_cons, if_neg hNot]
    have hAmount : writer.mOffset - (offset + origin.mOffset) = out.length - offset := by
      omega
    have hSeek : (writer.mFd.seek (offset + origin.mOffset)).pos = origin.mOffset + offset :=
      Nat.add_comm _ _
    have hBack : writer.mOffset + 4 - 4 = writer.mOffset := Nat.add_sub_cancel _ _
    simp only [be32_length, hBack, hAmount]
    refine ⟨_, rfl, ?_⟩
    refine .file
      ⟨hFrame.mdat, hFrame.free, hFrame.estimate,
        hFrame.streamable, hFrame.offset32⟩ hMemory ?_ ?_ ?_
      rfl ?_ rfl ?_
    · rw [hLength]
      exact hFull
    · have hStays : (writer.mFd.seek (offset + origin.mOffset)).Holds origin.mOffset out := hHolds
      exact hStays.patch hSeek (by simpa using hInside)
    · have hOwn : (writer.mFd.seek (offset + origin.mOffset)).SameBelow origin.mFd origin.mOffset :=
        hBelow
      exact hOwn.write (by rw [hSeek]; omega) _
    · rw [hLength]
      exact hOffset
    · simp only [File.seek_size, File.write_size, File.seek_pos, be32_length, hSize]
      omega

end Relates

/- Filling in the size of a box that was just opened. -/
theorem patchBuffer_box (front id body : List Byte) :
    patchBuffer (front ++ (be32 0 ++ id) ++ body) front.length
        ((front ++ (be32 0 ++ id) ++ body).length - front.length) =
      front ++ (be32 (4 + id.length + body.length) ++ id ++ body) := by
  have hSize :
      (front ++ (be32 0 ++ id) ++ body).length - front.length = 4 + id.length + body.length := by
    simp only [List.length_append, be32_length]
    omega
  have hShape : front ++ (be32 0 ++ id) ++ body = front ++ (be32 0 ++ (id ++ body)) := by
    simp only [List.append_assoc]
  have hDrop : (front ++ (be32 0 ++ (id ++ body))).drop (front.length + 4) = id ++ body := by
    rw [← List.drop_drop, List.drop_left' rfl, List.drop_left' (be32_length 0)]
  rw [hSize, patchBuffer, hShape, List.take_left' rfl, hDrop]
  simp only [List.append_assoc]

/-
  By the nesting of the calls: whatever the mode in which a writer starts, properly nested calls put
  out their bytes.
-/
theorem writeItems_relates (items : Items) (hRelates : Relates origin out opened writer) :
    ∃ next,
      writer.writeItems items = some next ∧ Relates origin (out ++ items.render) opened next := by
  induction items generalizing out opened writer with
  | nil =>
    refine ⟨writer, rfl, ?_⟩
    rw [Items.render, List.append_nil]
    exact hRelates
  | write bytes rest ih =>
    rcases ih (hRelates.write bytes) with ⟨next, hRun, hNext⟩
    refine ⟨next, hRun, ?_⟩
    rw [Items.render, ← List.append_assoc]
    exact hNext
  | box id body rest ihBody ihRest =>
    rcases ihBody (hRelates.beginBox id) with ⟨inner, hBody, hInner⟩
    have hInside : out.length + 4 ≤ (out ++ (be32 0 ++ id) ++ body.render).length := by
      simp only [List.length_append, be32_length]
      omega
    rcases hInner.endBox hInside with ⟨closed, hEnd, hClosed⟩
    rw [patchBuffer_box] at hClosed
    rcases ihRest hClosed with ⟨next, hRun, hNext⟩
    refine ⟨next, ?_, ?_⟩
    · rw [writeItems, hBody]
      simp only [Option.bind_eq_bind, Option.bind_some]
      rw [hEnd]
      exact hRun
    · rw [Items.render, ← List.append_assoc]
      exact hNext

end MPEG4Writer

end FrameworksAv
