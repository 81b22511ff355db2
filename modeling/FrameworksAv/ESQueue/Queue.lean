import FrameworksAv.AVCUtils.Headers
import FrameworksAv.Base.RunLength

/-
  The queue of an elementary stream: its bytes, and the ranges that were appended, with their times
  (media/libstagefright/mpeg2ts/ESQueue.cpp).

  `mBuffer` is empty when it is `NULL`; units are taken only after an append. `none` stands for a
  failed `CHECK`, or for an append that is refused.

  Main declarations:
    * `ElementaryStreamQueue`
    * `parseAC3SyncFrame`, `isSeeminglyValidADTSHeader`
    * `ElementaryStreamQueue.runs`
    * `ElementaryStreamQueue.fetchTimestamp_runs`
-/

--
-- Headers
--

namespace FrameworksAv

namespace ESQueue

open ATSParser (ABitReader)
open AVCUtils (Format StartsAt)

def channelCountTable : List Nat := [2, 1, 2, 3, 3, 4, 4, 5]

def samplingRateTable : List Nat := [48000, 44100, 32000]

def frameSizeTable : List (List Nat) :=
  [[64, 69, 96], [80, 87, 120], [96, 104, 144], [112, 121, 168], [128, 139, 192], [160, 174, 240],
    [192, 208, 288], [224, 243, 336], [256, 278, 384],
    [320, 348, 480], [384, 417, 576], [448, 487, 672],
    [512, 557, 768], [640, 696, 960], [768, 835, 1152],
    [896, 975, 1344], [1024, 1114, 1536], [1152, 1253, 1728], [1280, 1393, 1920]]

/- Two bits that are there or not; without room no frame. -/
def mixLevel (present : Bool) (bits : ABitReader) : Option (Option ABitReader) :=
  if present then if bits.numBitsLeft < 2 then some none else (bits.getBits 2).map fun p => some p.2
  else some (some bits)

/- The size of a frame in bytes. -/
def payloadSize (fscod frmsizecod : Nat) : Nat :=
  ((frameSizeTable.getD (frmsizecod / 2) []).getD fscod 0 +
    (if fscod = 1 then frmsizecod % 2 else 0)) * 2

/- The end of a frame's header. -/
def parseMixLevels (fscod frmsizecod acmod : Nat)
    (bits : ABitReader) : Option (Nat × Option Format) := do
  match ← mixLevel (acmod % 2 = 1 ∧ acmod ≠ 1) bits with
  | none => return (0, none)
  | some bits =>
    match ← mixLevel (acmod / 4 % 2 = 1) bits with
    | none => return (0, none)
    | some bits =>
      match ← mixLevel (acmod = 2) bits with
      | none => return (0, none)
      | some bits =>
        if bits.numBitsLeft < 1 then return (0, none)
        else
          let (lfeon, _) ← bits.getBits 1
          let samplingRate := samplingRateTable.getD fscod 0
          let channelCount := channelCountTable.getD acmod 0 + lfeon
          some (payloadSize fscod frmsizecod, some (.ac3 channelCount samplingRate))

/- The size of the frame, or 0, and `*metaData`. -/
def parseAC3SyncFrame (data : List Byte) : Option (Nat × Option Format) := do
  let bits := ABitReader.create data
  if bits.numBitsLeft < 16 then return (0, none)
  else
    let (sync, bits) ← bits.getBits 16
    if sync ≠ 0x0B77 then return (0, none)
    else if bits.numBitsLeft < 16 + 2 + 6 + 5 + 3 + 3 then
      return (0, none)
    else
      let bits ← bits.skipBits 16
      let (fscod, bits) ← bits.getBits 2
      if fscod = 3 then return (0, none)
      else
        let (frmsizecod, bits) ← bits.getBits 6
        if 37 < frmsizecod then return (0, none)
        else
          let (bsid, bits) ← bits.getBits 5
          if 8 < bsid then return (0, none)
          else
            let (_bsmod, bits) ← bits.getBits 3
            let (acmod, bits) ← bits.getBits 3
            parseMixLevels fscod frmsizecod acmod bits

/- No `CHECK` fails here (`parseAC3SyncFrame_total`). -/
def isSeeminglyValidAC3Header (data : List Byte) : Bool :=
  match parseAC3SyncFrame data with
  | none => false
  | some (payloadSize, _) => 0 < payloadSize

/- `*frameLength`, if the header is seemingly valid. -/
def isSeeminglyValidADTSHeader (data : List Byte) : Option Nat :=
  match data with
  | b0 :: b1 :: b2 :: b3 :: b4 :: b5 :: _ :: _ =>
    if b0 ≠ 0xff ∨ b1.toNat / 16 ≠ 0x0f then none
    else if b1.toNat / 2 % 4 ≠ 0 then none
    else if b1.toNat / 8 % 2 = 1 ∧ b2.toNat / 64 = 3 then none
    else
      let frameLengthInHeader := b3.toNat % 4 * 2 ^ 11 + b4.toNat * 2 ^ 3 + b5.toNat / 2 ^ 5
      if data.length < frameLengthInHeader then none
      else some frameLengthInHeader
  | _ => none

def isSeeminglyValidMPEGAudioHeader (data : List Byte) : Bool :=
  match data with
  | b0 :: b1 :: b2 :: _ =>
    b0 = 0xff ∧ b1.toNat / 32 = 0x07 ∧ b1.toNat / 8 % 4 ≠ 1 ∧ b1.toNat / 2 % 4 ≠ 0 ∧
      b2.toNat / 16 ≠ 0x0f ∧ b2.toNat / 4 % 4 ≠ 3
  | _ => false

end ESQueue

--
-- Queue
--

namespace ESQueue

open AVCUtils (Format StartsAt)

inductive Mode
| H264
| AAC
| AC3
| MPEG_AUDIO
| MPEG_VIDEO
| MPEG4_VIDEO
| PCM_AUDIO
| METADATA
deriving DecidableEq, Repr

structure RangeInfo where
  mTimestampUs : Int
  mLength : Nat
deriving DecidableEq, Repr

/- `aligned` is `kFlag_AlignedData` in `mFlags`. -/
structure ElementaryStreamQueue where
  mMode : Mode
  aligned : Bool
  mEOSReached : Bool
  mBuffer : List Byte
  mRangeInfos : List RangeInfo
  mFormat : Option Format
deriving DecidableEq, Repr

structure NALPosition where
  nalOffset : Nat
  nalSize : Nat
deriving DecidableEq, Repr

structure AccessUnit where
  data : List Byte
  timeUs : Int
  isSync : Bool
  sei : Option (List NALPosition)
deriving DecidableEq, Repr

/- Where data for an empty queue begins. -/
def startOffset (mode : Mode) (data : List Byte) : Option Nat :=
  match mode with
  | .H264 | .MPEG_VIDEO | .MPEG4_VIDEO => (List.range data.length).find? fun i => StartsAt data i
  | .AAC =>
    (List.range data.length).find? fun i =>
      (isSeeminglyValidADTSHeader (data.drop i)).isSome
  | .AC3 =>
    (List.range data.length).find? fun i =>
      isSeeminglyValidAC3Header (data.drop i)
  | Mode.MPEG_AUDIO =>
    (List.range data.length).find? fun i =>
      isSeeminglyValidMPEGAudioHeader (data.drop i)
  | Mode.PCM_AUDIO | .METADATA => some 0

namespace ElementaryStreamQueue

def create (mode : Mode) (aligned : Bool) : ElementaryStreamQueue where
  mMode := mode
  aligned := aligned
  mEOSReached := false
  mBuffer := []
  mRangeInfos := []
  mFormat := none

def clear (q : ElementaryStreamQueue) (clearFormat : Bool) : ElementaryStreamQueue :=
  { q with
    mBuffer := []
    mRangeInfos := []
    mFormat := if clearFormat then none else q.mFormat
    mEOSReached := false }

/- `none` is `ERROR_MALFORMED`, which changes nothing. -/
def appendData (q : ElementaryStreamQueue) (data : List Byte)
    (timeUs : Int) : Option ElementaryStreamQueue :=
  if q.mEOSReached then none
  else (if q.mBuffer = [] then startOffset q.mMode data else some 0).map fun start =>
        { q with
          mBuffer := q.mBuffer ++ data.drop start
          mRangeInfos :=
            q.mRangeInfos ++
              [{ mTimestampUs := timeUs
                 mLength := (data.drop start).length }] }

def signalEOS (q : ElementaryStreamQueue) : ElementaryStreamQueue :=
  if q.mEOSReached then q
  else
    let q := if q.mMode = .MPEG_VIDEO then (q.appendData [0, 0, 1, 0] 0).getD q else q
    { q with mEOSReached := true }

/- The loop of `fetchTimestamp`: each turn erases a range. -/
def fetchLoop : List RangeInfo → Nat → Bool → Int → Int × List RangeInfo
| [], _, _, timeUs => (timeUs, [])
| info :: infos, size, first, timeUs =>
  if size = 0 then (timeUs, info :: infos)
  else
    let timeUs := if first then info.mTimestampUs else timeUs
    if size < info.mLength then (timeUs, { info with mLength := info.mLength - size } :: infos)
    else fetchLoop infos (size - info.mLength) false timeUs

def fetchTimestamp (q : ElementaryStreamQueue) (size : Nat) : Int × ElementaryStreamQueue :=
  let fetched := fetchLoop q.mRangeInfos size true (-1)
  (fetched.1, { q with mRangeInfos := fetched.2 })

/- The buffer without its first bytes. -/
def shrink (q : ElementaryStreamQueue) (count : Nat) : ElementaryStreamQueue :=
  { q with mBuffer := q.mBuffer.drop count }

end ElementaryStreamQueue

end ESQueue

--
-- Sync Frames
--

namespace ESQueue

open ATSParser (ABitReader field)

variable {bits : ABitReader} {data : List Byte} {pos : Nat}

/- Two bits are read where there are two. -/
theorem mixLevel_at (hAt : bits.At data pos) (present : Bool) :
    mixLevel present bits = some none ∨
      ∃ bits' pos', mixLevel present bits = some (some bits') ∧ bits'.At data pos' := by
  have hLeft := hAt.numBitsLeft
  unfold mixLevel
  cases present with
  | false => exact Or.inr ⟨bits, pos, rfl, hAt⟩
  | true =>
    rw [if_pos rfl]
    by_cases hRoom : bits.numBitsLeft < 2
    · exact Or.inl (if_pos hRoom)
    · rw [if_neg hRoom]
      rcases hAt.getBits (by decide : 2 ≤ 32) (by omega) with ⟨bits', hGet, hAt'⟩
      rw [hGet]
      exact Or.inr ⟨bits', pos + 2, rfl, hAt'⟩

theorem parseMixLevels_total (hAt : bits.At data pos) (fscod frmsizecod acmod : Nat) :
    ∃ frame, parseMixLevels fscod frmsizecod acmod bits = some frame := by
  unfold parseMixLevels
  rcases mixLevel_at hAt (acmod % 2 = 1 ∧ acmod ≠ 1) with
    hNone | ⟨first, pos₁, hSome, hFirst⟩
  · rw [hNone]
    exact ⟨_, rfl⟩
  rw [hSome]
  simp only [Option.bind_eq_bind, Option.bind_some]
  rcases mixLevel_at hFirst (acmod / 4 % 2 = 1) with
    hNone | ⟨second, pos₂, hSome, hSecond⟩
  · rw [hNone]
    exact ⟨_, rfl⟩
  rw [hSome]
  simp only [Option.bind_some]
  rcases mixLevel_at hSecond (acmod = 2) with
    hNone | ⟨third, pos₃, hSome, hThird⟩
  · rw [hNone]
    exact ⟨_, rfl⟩
  rw [hSome]
  simp only [Option.bind_some]
  have hLeft := hThird.numBitsLeft
  by_cases hRoom : third.numBitsLeft < 1
  · rw [if_pos hRoom]
    exact ⟨_, rfl⟩
  · rw [if_neg hRoom]
    rcases hThird.getBits (by decide : 1 ≤ 32) (by omega) with ⟨last, hGet, -⟩
    rw [hGet]
    exact ⟨_, rfl⟩

/- Every read of a frame's header is inside the data. -/
theorem parseAC3SyncFrame_total (data : List Byte) :
    ∃ frame, parseAC3SyncFrame data = some frame := by
  unfold parseAC3SyncFrame
  have hAt₀ := ABitReader.create_at data
  have hLeft₀ := hAt₀.numBitsLeft
  by_cases hRoom : (ABitReader.create data).numBitsLeft < 16
  · exact ⟨_, if_pos hRoom⟩
  simp only [if_neg hRoom, Option.bind_eq_bind]
  rcases hAt₀.getBits (by decide : 16 ≤ 32) (by omega) with ⟨r₁, hGet₁, hAt₁⟩
  simp only [hGet₁, Option.bind_some]
  by_cases hSync : field data 0 16 ≠ 0x0B77
  · exact ⟨_, if_pos hSync⟩
  have hLeft₁ := hAt₁.numBitsLeft
  rw [if_neg hSync]
  by_cases hMore : r₁.numBitsLeft < 16 + 2 + 6 + 5 + 3 + 3
  · exact ⟨_, if_pos hMore⟩
  rw [if_neg hMore]
  rcases hAt₁.skipBits (n := 16) (by omega) with ⟨r₂, hSkip, hAt₂⟩
  rcases hAt₂.getBits (by decide : 2 ≤ 32) (by omega) with ⟨r₃, hGet₃, hAt₃⟩
  simp only [hSkip, hGet₃, Option.bind_some]
  split
  · exact ⟨_, rfl⟩
  rcases hAt₃.getBits (by decide : 6 ≤ 32) (by omega) with ⟨r₄, hGet₄, hAt₄⟩
  simp only [hGet₄, Option.bind_some]
  split
  · exact ⟨_, rfl⟩
  rcases hAt₄.getBits (by decide : 5 ≤ 32) (by omega) with ⟨r₅, hGet₅, hAt₅⟩
  simp only [hGet₅, Option.bind_some]
  split
  · exact ⟨_, rfl⟩
  rcases hAt₅.getBits (by decide : 3 ≤ 32) (by omega) with ⟨r₆, hGet₆, hAt₆⟩
  rcases hAt₆.getBits (by decide : 3 ≤ 32) (by omega) with ⟨r₇, hGet₇, hAt₇⟩
  simp only [hGet₆, hGet₇, Option.bind_some]
  exact parseMixLevels_total hAt₇ _ _ _

end ESQueue

--
-- Ranges
--

namespace ESQueue

open RunLength (expand total consume)

def RangeInfo.run (info : RangeInfo) : Nat × Int :=
  (info.mLength, info.mTimestampUs)

namespace ElementaryStreamQueue

variable (q : ElementaryStreamQueue)

/- The ranges as a table: each byte has the time of its run. -/
def runs : List (Nat × Int) := q.mRangeInfos.map RangeInfo.run

/- The sum of the lengths of the ranges is `mBuffer->size()`. -/
def Consistent : Prop :=
  total q.runs = q.mBuffer.length

instance : Decidable q.Consistent :=
  inferInstanceAs (Decidable (total q.runs = q.mBuffer.length))

/- The time of the first range, or -1. -/
def firstTime : Int :=
  match q.mRangeInfos with
  | [] => -1
  | info :: _ => info.mTimestampUs

variable {q : ElementaryStreamQueue}

theorem fetchLoop_runs (infos : List RangeInfo) (size : Nat) (first : Bool) (timeUs : Int) :
    (fetchLoop infos size first timeUs).2.map RangeInfo.run =
      consume size (infos.map RangeInfo.run) := by
  induction infos generalizing size first timeUs with
  | nil => rfl
  | cons info infos ih =>
    rw [fetchLoop, List.map_cons, consume]
    by_cases hZero : size = 0
    · rw [if_pos hZero, if_pos hZero, List.map_cons]
    · rw [if_neg hZero, if_neg hZero]
      by_cases hInside : size < info.mLength
      · rw [if_pos hInside, if_pos (show size < info.run.1 from hInside)]
        rfl
      · rw [if_neg hInside, if_neg (show ¬size < info.run.1 from hInside)]
        exact ih _ _ _

/- `fetchTimestamp` takes the bytes of a unit off the ranges. -/
theorem fetchTimestamp_runs (size : Nat) : (q.fetchTimestamp size).2.runs = consume size q.runs :=
  fetchLoop_runs _ _ _ _

theorem fetchLoop_time (infos : List RangeInfo) (size : Nat) (timeUs : Int) :
    (fetchLoop infos size false timeUs).1 = timeUs := by
  induction infos generalizing size with
  | nil => rfl
  | cons info infos ih =>
    rw [fetchLoop]
    split
    · rfl
    · dsimp only
      split
      · rfl
      · exact ih _

/- The time of a unit is that of the first range. -/
theorem fetchTimestamp_time {size : Nat} (hSome : 0 < size) :
    (q.fetchTimestamp size).1 = q.firstTime := by
  unfold fetchTimestamp firstTime
  cases q.mRangeInfos with
  | nil => rfl
  | cons info infos =>
    dsimp only
    rw [fetchLoop, if_neg (by omega)]
    dsimp only
    split
    · rfl
    · exact fetchLoop_time _ _ _

theorem fetchTimestamp_zero : q.fetchTimestamp 0 = (-1, q) := by
  unfold fetchTimestamp
  cases h : q.mRangeInfos with
  | nil =>
    cases q
    cases h
    rfl
  | cons info infos =>
    cases q
    cases h
    rfl

@[simp] theorem fetchTimestamp_mFormat (size : Nat) :
    (q.fetchTimestamp size).2.mFormat = q.mFormat :=
  rfl

@[simp] theorem fetchTimestamp_mBuffer (size : Nat) :
    (q.fetchTimestamp size).2.mBuffer = q.mBuffer :=
  rfl

@[simp] theorem shrink_mFormat (count : Nat) : (q.shrink count).mFormat = q.mFormat :=
  rfl

@[simp] theorem shrink_firstTime (count : Nat) : (q.shrink count).firstTime = q.firstTime :=
  rfl

end ElementaryStreamQueue

end ESQueue

end FrameworksAv
