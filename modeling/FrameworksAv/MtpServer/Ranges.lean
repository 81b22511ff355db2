import FrameworksAv.MtpServer.Server

/-
  The ranges of files that an MTP server hands to the driver (`MtpServer::doGetPartialObject`,
  `MtpServer::doSendObject`).

  Main declarations:
    * `FileRange`, `Server.doGetPartialObject`, `Server.receiveRange`
    * `ranges_inside_iff`
-/

--
-- Parts of Objects
--

namespace FrameworksAv

namespace MtpServer

/- What the driver is asked for; both are signed numbers of 64 bits. -/
structure FileRange where
  offset : Int
  length : Int
deriving DecidableEq

/-
  The outcomes of `getObjectFilePath` and `open`, and of the driver: whether it sends all, and
  whether `errno` is `ECANCELED` if not.
-/
structure PartSending where
  object : Except MtpResponseCode ObjectFile
  opened : Bool
  sent : Bool
  cancelled : Bool

/- `extended` is the operation with four arguments. -/
def Request.partOffset (r : Request) (extended : Bool) : BitVec 64 :=
  if extended then r.getOffset else (r.getParameter 2).setWidth 64

def Request.partLength (r : Request) (extended : Bool) : BitVec 32 :=
  if extended then r.getParameter 4 else r.getParameter 3

namespace Server

variable (s : Server)

/- With the range that the driver is asked for, if it is asked. -/
def doGetPartialObject (extended : Bool) (r : Request) (outcome : PartSending) :
    MtpResponseCode × Server × Option FileRange :=
  if s.hasStorage = false then (MTP_RESPONSE_INVALID_OBJECT_HANDLE, s, none)
  else if r.parameters.length < (if extended then 4 else 3) then
    (MTP_RESPONSE_INVALID_PARAMETER, s, none)
  else
    match outcome.object with
    | .error result => (result, s, none)
    | .ok file =>
      let offset := r.partOffset extended
      let length :=
        if file.fileLength < offset + (r.partLength extended).setWidth 64 then
          (file.fileLength - offset).setWidth 32
        else r.partLength extended
      if outcome.opened then
        (if outcome.sent then MTP_RESPONSE_OK
          else if outcome.cancelled then MTP_RESPONSE_TRANSACTION_CANCELLED
          else MTP_RESPONSE_GENERAL_ERROR,
          { s with mResponse := { s.mResponse with p1 := length } },
          some ⟨offset.toInt, length.toNat⟩)
      else (MTP_RESPONSE_GENERAL_ERROR, s, none)

end Server

/- The part of the file that was asked for, as far as there is one. -/
structure PartInside (offset length fileLength : Nat) (range : FileRange)
    (reported : BitVec 32) : Prop where
  offset_nonneg : 0 ≤ range.offset
  inside : range.offset + range.length ≤ fileLength
  bytes : range.length = max 0 (min (length : Int) (fileLength - offset))
  reported_eq : (reported.toNat : Int) = range.length

/- A range is the part that was asked for when it starts inside the file. -/
theorem part_inside_iff {offset fileLength : BitVec 64} {length : BitVec 32}
    (hFile : fileLength.toNat < 2 ^ 63) :
    let taken := if fileLength < offset + length.setWidth 64 then (fileLength - offset).setWidth 32
      else length
    PartInside offset.toNat length.toNat fileLength.toNat ⟨offset.toInt, taken.toNat⟩ taken ↔
      offset.toNat ≤ fileLength.toNat := by
  intro taken
  have hOffset := offset.isLt
  have hLength := length.isLt
  constructor
  · rintro ⟨hNonneg, hInside, hBytes, -⟩
    rw [BitVec.toInt_eq_toNat_cond] at hNonneg hInside
    simp only at hNonneg hInside hBytes
    omega
  · intro hLe
    have hInt : offset.toInt = offset.toNat := BitVec.toInt_eq_toNat_of_lt (by omega)
    have hTaken : taken.toNat = min length.toNat (fileLength.toNat - offset.toNat) := by
      simp only [taken, BitVec.lt_def, BitVec.toNat_add, BitVec.toNat_setWidth]
      split
      · rw [BitVec.toNat_setWidth, BitVec.toNat_sub]
        omega
      · omega
    refine ⟨?_, ?_, ?_, rfl⟩
    · simp only [hInt]
      omega
    · simp only [hInt, hTaken]
      omega
    · simp only [hTaken]
      omega

--
-- Objects That Are Received
--

namespace Server

variable (s : Server)

/- What `receiveObject` asks the driver for behind the data of the first packet. -/
def receiveRange (initialData : List Byte) : Option FileRange :=
  let rest := s.mSendObjectFileSize - BitVec.ofNat 64 initialData.length
  if rest ≠ 0 then
    some
      { offset := initialData.length
        length := if s.mSendObjectFileSize = 0xFFFFFFFF then 0xFFFFFFFF else rest.toInt }
  else none

/- The file is open and this data is written into it, as many bytes of it as `count`. -/
structure Writes (opened : Bool) (transfer : Transfer) (initialData : List Byte)
    (count : Nat) : Prop where
  storage : s.hasStorage = true
  announced : s.mSendObjectHandle ≠ kInvalidObjectHandle
  packet : transfer.packet = some initialData
  opened : opened = true
  written : (if initialData = [] then some 0 else transfer.written) = some count

/-
  Behind the bytes that were written, the driver is asked for the ones up to the announced size,
  and for none when it is not asked.
-/
structure RestAsked (initialData : List Byte) (count : Nat) : Prop where
  nonneg : ∀ range ∈ s.receiveRange initialData, 0 ≤ range.length
  total :
    ((s.receiveRange initialData).map FileRange.length).getD 0 + count =
      s.mSendObjectFileSize.toNat

end Server

/- What is left of the announced size, below zero where more has come than was announced. -/
theorem receiveRange_eq {s : Server} {initialData : List Byte}
    (hPacket : initialData.length < 2 ^ 31) (hSize : s.mSendObjectFileSize.toNat < 2 ^ 32 - 1) :
    s.receiveRange initialData =
      if initialData.length = s.mSendObjectFileSize.toNat then none
      else some ⟨initialData.length, s.mSendObjectFileSize.toNat - initialData.length⟩ := by
  have hKnown : s.mSendObjectFileSize ≠ 0xFFFFFFFF := by
    intro hEq
    rw [hEq] at hSize
    exact absurd hSize (by decide)
  have hNat :
      (s.mSendObjectFileSize - BitVec.ofNat 64 initialData.length).toNat =
        (2 ^ 64 - initialData.length + s.mSendObjectFileSize.toNat) % 2 ^ 64 := by
    rw [BitVec.toNat_sub, BitVec.toNat_ofNat, Nat.mod_eq_of_lt (by omega : initialData.length < _)]
  have hInt :
      (s.mSendObjectFileSize - BitVec.ofNat 64 initialData.length).toInt =
        s.mSendObjectFileSize.toNat - initialData.length := by
    rw [BitVec.toInt_eq_toNat_cond, hNat]
    split
    · omega
    · omega
  have hZero :
      s.mSendObjectFileSize - BitVec.ofNat 64 initialData.length = 0 ↔
        initialData.length = s.mSendObjectFileSize.toNat := by
    have hNone : (0 : BitVec 64).toNat = 0 := rfl
    rw [← BitVec.toNat_inj, hNat, hNone]
    omega
  unfold Server.receiveRange
  dsimp only
  rw [if_neg hKnown, hInt]
  by_cases hEqual : initialData.length = s.mSendObjectFileSize.toNat
  · rw [if_neg (not_not.mpr (hZero.mpr hEqual)), if_pos hEqual]
  · rw [if_pos (mt hZero.mp hEqual), if_neg hEqual]

/- A first packet with more than was announced is the only way to ask for too much. -/
theorem restAsked_iff {s : Server} {initialData : List Byte} {count : Nat}
    (hPacket : initialData.length < 2 ^ 31) (hSize : s.mSendObjectFileSize.toNat < 2 ^ 32 - 1)
    (hCount : count ≤ initialData.length) :
    s.RestAsked initialData count ↔
      initialData.length ≤ s.mSendObjectFileSize.toNat ∧ count = initialData.length := by
  have hRange := receiveRange_eq hPacket hSize
  by_cases hEqual : initialData.length = s.mSendObjectFileSize.toNat
  · rw [if_pos hEqual] at hRange
    constructor
    · rintro ⟨-, hTotal⟩
      simp only [hRange, Option.map_none, Option.getD_none] at hTotal
      omega
    · rintro ⟨-, rfl⟩
      refine ⟨by simp [hRange], ?_⟩
      simp only [hRange, Option.map_none, Option.getD_none]
      omega
  · rw [if_neg hEqual] at hRange
    constructor
    · rintro ⟨hNonneg, hTotal⟩
      have hLe := hNonneg _ hRange
      simp only [hRange, Option.map_some, Option.getD_some] at hTotal hLe
      omega
    · rintro ⟨hLe, rfl⟩
      constructor
      · intro range hMem
        rw [hRange] at hMem
        cases hMem
        simp only
        omega
      · simp only [hRange, Option.map_some, Option.getD_some]
        omega

--
-- Main Result
--

/-
  A part of an object is inside it exactly when it starts inside it; the rest of an object that is
  received is the announced one exactly when the first packet is not longer than announced and all
  of it was written.
-/
theorem ranges_inside_iff (s : Server) :
    (∀ (extended : Bool) (r : Request) (outcome : PartSending) (file : ObjectFile)
        (range : FileRange),
      outcome.object = .ok file → file.fileLength.toNat < 2 ^ 63 →
        (s.doGetPartialObject extended r outcome).2.2 = some range →
          (PartInside (r.partOffset extended).toNat (r.partLength extended).toNat
              file.fileLength.toNat range
              (s.doGetPartialObject extended r outcome).2.1.mResponse.p1 ↔
            (r.partOffset extended).toNat ≤ file.fileLength.toNat)) ∧
    ∀ (opened : Bool) (transfer : Transfer) (initialData : List Byte) (count : Nat),
      s.Writes opened transfer initialData count → count ≤ initialData.length →
        initialData.length < 2 ^ 31 → s.mSendObjectFileSize.toNat < 2 ^ 32 - 1 →
          (s.RestAsked initialData count ↔
            initialData.length ≤ s.mSendObjectFileSize.toNat ∧ count = initialData.length) := by
  constructor
  · intro extended r outcome file range hObject hFile hRange
    unfold Server.doGetPartialObject at hRange ⊢
    rw [hObject] at hRange ⊢
    by_cases hStorage : s.hasStorage = false
    · rw [if_pos hStorage] at hRange
      cases hRange
    by_cases hFew : r.parameters.length < (if extended then 4 else 3)
    · rw [if_neg hStorage, if_pos hFew] at hRange
      cases hRange
    by_cases hOpened : outcome.opened
    · simp only [if_neg hStorage, if_neg hFew, if_pos hOpened] at hRange ⊢
      cases hRange
      exact part_inside_iff hFile
    · simp only [if_neg hStorage, if_neg hFew, if_neg hOpened] at hRange
      cases hRange
  · intro opened transfer initialData count _ hCount hPacket hSize
    exact restAsked_iff hPacket hSize hCount

/- A server with a storage that expects an object of two bytes. -/
def twoBytes : Server :=
  { start (fun _ => []) with
    mStorages := [⟨1, [47], 0⟩]
    mSendObjectHandle := 5
    mSendObjectFileSize := 2 }

/- A part of a file of ten bytes. -/
def tenBytes : PartSending := ⟨.ok ⟨[47, 97], 10, 0x3000⟩, true, true, false⟩

def partRequest (offset length : BitVec 32) : Request :=
  ⟨MTP_CONTAINER_TYPE_COMMAND, [5, offset, length], .other MTP_RESPONSE_OK⟩

theorem ranges_inside_iff_held :
    PartInside 4 8 10 ⟨4, 6⟩ 6 ∧ twoBytes.RestAsked [7] 1 :=
  ⟨((ranges_inside_iff twoBytes).1 false (partRequest 4 8) tenBytes ⟨[47, 97], 10, 0x3000⟩ ⟨4, 6⟩
      rfl (by decide) (by decide)).mpr (by decide),
    ((ranges_inside_iff twoBytes).2 true ⟨some [7], some 1, [8], true, false⟩ [7] 1
      ⟨rfl, by decide, rfl, rfl, rfl⟩ (by decide) (by decide) (by decide)).mpr (by decide)⟩

/-
  A part behind the end asks for nearly 4 GiB, and a first packet that is longer than announced for
  less than nothing.
-/
theorem ranges_not_inside :
    (twoBytes.doGetPartialObject false (partRequest 20 8) tenBytes).2.2 =
        some ⟨20, 4294967286⟩ ∧
      ¬PartInside 20 8 10 ⟨20, 4294967286⟩ 4294967286 ∧
      twoBytes.receiveRange [1, 2, 3] = some ⟨3, -1⟩ ∧ ¬twoBytes.RestAsked [1, 2, 3] 3 := by
  refine ⟨by decide, fun hInside => ?_, by decide, fun hAsked => ?_⟩
  · exact absurd hInside.inside (by decide)
  · exact absurd (hAsked.nonneg ⟨3, -1⟩ (by decide)) (by decide)

end MtpServer

end FrameworksAv
