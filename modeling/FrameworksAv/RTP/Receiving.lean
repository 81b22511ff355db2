import FrameworksAv.RTP.Steps
import FrameworksAv.RTP.Framing
import FrameworksAv.RTP.Headers

/-
  When a call of `onPacketReceived` returns.

  Main declarations:
    * `ElementaryParams.GenericPacket`
    * `ElementaryParams.readUnits_iff`
    * `AMPEG4ElementaryAssembler.progress`
    * `onPacketReceived_returns`
-/

--
-- Generic Packets
--

namespace FrameworksAv

namespace RTP

open ATSParser (ABitReader field)

namespace ElementaryParams

variable (params : ElementaryParams)

/- Where the access units begin, behind the auxiliary data. -/
def unitsStart (data : List Byte) (offset : Nat) : Nat :=
  if 0 < params.mAuxiliaryDataSizeLength then
    offset +
      (params.mAuxiliaryDataSizeLength +
        field (data.drop offset) 0 params.mAuxiliaryDataSizeLength + 7) % 2 ^ 32 / 8
  else offset

/- The size of the auxiliary data is inside the packet. -/
def AuxiliaryRead (data : List Byte) (offset : Nat) : Prop :=
  0 < params.mAuxiliaryDataSizeLength →
    params.mAuxiliaryDataSizeLength ≤ 32 ∧
      params.mAuxiliaryDataSizeLength ≤ 8 * (data.length - offset)

/-
  A packet that holds its section of headers, the auxiliary data and the access units of the
  headers.
-/
def GenericPacket : List Byte → Prop
| high :: low :: rest =>
  let length := high.toNat * 256 + low.toNat
  let offset := 2 + (length + 7) / 8
  offset ≤ rest.length + 2 ∧ params.AuxiliaryRead (high :: low :: rest) offset ∧
    ∃ sizes,
      params.HeadersEnd rest true 0 length sizes ∧
        (sizes = [] ∨ params.unitsStart (high :: low :: rest) offset + sizes.sum ≤ rest.length + 2)
| _ => False

/- The units fit when the last one does. -/
theorem takeUnits_iff (buffer : ABuffer) (headers : List AUHeader) (offset : Nat)
    (mPackets : List ABuffer) :
    (takeUnits buffer headers offset mPackets).1 = true ↔
      headers = [] ∨ offset + (headers.map AUHeader.mSize).sum ≤ buffer.size := by
  induction headers generalizing offset mPackets with
  | nil => exact ⟨fun _ => .inl rfl, fun _ => rfl⟩
  | cons header headers ih =>
    unfold takeUnits
    by_cases hCut : buffer.size < offset + header.mSize
    · rw [if_pos hCut, List.map_cons, List.sum_cons]
      constructor
      · nofun
      · rintro (hNot | hFits)
        · cases hNot
        · omega
    · rw [if_neg hCut, ih, List.map_cons, List.sum_cons]
      constructor
      · rintro (rfl | hFits)
        · refine .inr ?_
          simp only [List.map_nil, List.sum_nil]
          omega
        · refine .inr ?_
          omega
      · rintro (hNot | hFits)
        · cases hNot
        · refine .inr ?_
          omega

variable {params} {data : List Byte} {offset : Nat}

theorem skipAuxiliary_read (hRead : params.AuxiliaryRead data offset) :
    params.skipAuxiliary data offset = .returns (params.unitsStart data offset) := by
  unfold skipAuxiliary unitsStart
  by_cases hSome : 0 < params.mAuxiliaryDataSizeLength
  · rcases hRead hSome with ⟨hWidth, hInside⟩
    have hBits : 0 + params.mAuxiliaryDataSizeLength ≤ 8 * (data.drop offset).length := by
      rw [List.length_drop]
      omega
    rcases (ABitReader.create_at (data.drop offset)).getBits hWidth hBits with ⟨bits, hGet, _⟩
    simp only [if_pos hSome, hGet]
    rfl
  · simp only [if_neg hSome]

theorem auxiliaryRead_of_returns {start : Nat}
    (hReturns : params.skipAuxiliary data offset = .returns start) :
    params.AuxiliaryRead data offset := by
  intro hSome
  by_contra hNot
  have hNone :
      (ABitReader.create (data.drop offset)).getBits params.mAuxiliaryDataSizeLength = none := by
    by_cases hWidth : params.mAuxiliaryDataSizeLength ≤ 32
    · refine (ABitReader.create_at (data.drop offset)).getBits_none ?_
      rw [List.length_drop]
      omega
    · exact if_pos (by omega)
  simp only [skipAuxiliary, if_pos hSome, hNone] at hReturns
  cases hReturns

/- A packet is taken when it is as agreed on. -/
theorem readUnits_iff (params : ElementaryParams) (buffer : ABuffer) (mPackets : List ABuffer) :
    (params.GenericPacket buffer.data →
      ∃ packets, Reaches (fun fuel => params.readUnits fuel buffer mPackets) (true, packets)) ∧
      ∀ fuel packets,
        params.readUnits fuel buffer mPackets = .returns (true, packets) →
          params.GenericPacket buffer.data := by
  unfold readUnits
  rcases hData : buffer.data with _ | ⟨high, _ | ⟨low, rest⟩⟩
  · exact ⟨nofun, nofun⟩
  · exact ⟨nofun, nofun⟩
  have hLength : buffer.size = rest.length + 2 := congrArg List.length hData
  simp only [hLength]
  by_cases hShort : rest.length + 2 < 2 + (high.toNat * 256 + low.toNat + 7) / 8
  · simp only [if_pos hShort]
    refine ⟨?_, nofun⟩
    rintro ⟨hFits, _⟩
    omega
  simp only [if_neg hShort]
  have hFirst :
      true = true ↔
        (⟨.create rest, high.toNat * 256 + low.toNat, 0, []⟩ : HeaderLoop).headers = [] :=
    ⟨fun _ => rfl, fun _ => rfl⟩
  constructor
  · rintro ⟨_, hAuxiliary, sizes, hEnd, hFits⟩
    rcases hEnd.reaches (create_sees rest (high.toNat * 256 + low.toNat)) hFirst
      with ⟨headers, hHeaders, hSizes⟩
    have hSizes : headers.map AUHeader.mSize = sizes := hSizes
    have hUnits :=
      (takeUnits_iff buffer headers
        (params.unitsStart (high :: low :: rest) (2 + (high.toNat * 256 + low.toNat + 7) / 8))
        mPackets).mpr (by
          rw [hSizes, hLength]
          rcases hFits with rfl | hFits
          · exact .inl (List.map_eq_nil_iff.mp hSizes)
          · exact .inr hFits)
    refine ⟨(takeUnits buffer headers
      (params.unitsStart (high :: low :: rest) (2 + (high.toNat * 256 + low.toNat + 7) / 8))
      mPackets).2, hHeaders.bind (.of_eq (fun fuel => ?_))⟩
    rw [skipAuxiliary_read hAuxiliary, Result.bind_returns, ← hUnits]
  · intro fuel packets hReturns
    rcases Result.bind_eq_returns.mp hReturns with ⟨headers, hHeaders, hRest⟩
    rcases Result.bind_eq_returns.mp hRest with ⟨start, hStart, hTake⟩
    have hAuxiliary := auxiliaryRead_of_returns hStart
    rw [skipAuxiliary_read hAuxiliary] at hStart
    cases hStart
    rcases headersEnd_of_returns (create_sees rest (high.toNat * 256 + low.toNat)) hFirst
      hHeaders with ⟨sizes, hEnd, hSizes⟩
    have hSizes : headers.map AUHeader.mSize = sizes := hSizes
    have hTrue :
        (takeUnits buffer headers
          (params.unitsStart (high :: low :: rest) (2 + (high.toNat * 256 + low.toNat + 7) / 8))
          mPackets).1 = true := by
      rw [Result.returns.inj hTake]
    have hFits := (takeUnits_iff _ _ _ _).mp hTrue
    rw [hSizes, hLength] at hFits
    refine ⟨by omega, hAuxiliary, sizes, hEnd, ?_⟩
    rcases hFits with rfl | hFits
    · exact .inl hSizes.symm
    · exact .inr hFits

end ElementaryParams

end RTP

--
-- MPEG-4 Elementary Streams
--

namespace RTP

namespace AMPEG4ElementaryAssembler

variable {s : AMPEG4ElementaryAssembler}

/- What is accepted from a state on. -/
def Accepts (s : AMPEG4ElementaryAssembler) (packets : List ABuffer) : Prop :=
  s.params.mIsGeneric = false ∨ ∀ buffer ∈ packets, s.params.GenericPacket buffer.data

/- A unit of another time is submitted. -/
theorem submitted (s : AMPEG4ElementaryAssembler) (buffer : ABuffer) :
    ∃ t,
      (if s.mPackets ≠ [] ∧ buffer.rtpTime ≠ s.mAccessUnitRTPTime then s.submitAccessUnit
      else .returns s) = .returns t ∧ t.params = s.params := by
  by_cases hTime : s.mPackets ≠ [] ∧ buffer.rtpTime ≠ s.mAccessUnitRTPTime
  · rw [if_pos hTime]
    cases hPackets : s.mPackets with
    | nil => exact absurd hPackets hTime.1
    | cons first more =>
      rw [submitAccessUnit, hPackets]
      exact ⟨_, rfl, rfl⟩
  · rw [if_neg hTime]
    exact ⟨s, rfl, rfl⟩

/- The units of the packet that was expected. -/
def units (params : ElementaryParams) (fuel : Nat) (buffer : ABuffer) (mPackets : List ABuffer) :
    Result (Bool × List ABuffer) :=
  if params.mIsGeneric then params.readUnits fuel buffer mPackets
  else .returns (true, mPackets ++ [buffer])

/- A step is the submission and the units of the packet. -/
theorem assembleMore_packet {queue rest : List ABuffer} {next : Expected} {buffer : ABuffer}
    (hFront : front s.expected queue = .packet next buffer rest) :
    ∃ mPackets,
      ∃ final : Bool → List ABuffer → AMPEG4ElementaryAssembler,
        (∀ fuel,
          s.assembleMore fuel queue =
            (units s.params fuel buffer mPackets).bind fun (success, packets) =>
                .returns
                  (if success then (.OK, final true packets, rest)
                  else (.MALFORMED_PACKET, final false packets, buffer :: rest))) ∧
        ∀ success packets,
          (final success packets).params = s.params ∧
            (final success packets).expected = if success then next.next else next := by
  rcases submitted s buffer with ⟨t, hSubmit, hParams⟩
  refine ⟨t.mPackets, fun success packets =>
    { t with
      expected := if success then next.next else next,
      mAccessUnitRTPTime := buffer.rtpTime,
      mAccessUnitDamaged := if success then t.mAccessUnitDamaged else true,
      mPackets := packets }, ?_, ?_⟩
  · intro fuel
    rw [assembleMore, addPacket, hFront]
    simp only
    rw [hSubmit, Result.bind_returns]
    simp only [hParams]
    show Result.bind ((units s.params fuel buffer t.mPackets).bind _) _ = _
    cases units s.params fuel buffer t.mPackets with
    | aborts => rfl
    | runs => rfl
    | returns value =>
      rcases value with ⟨success, packets⟩
      cases success <;> rfl
  · intro success packets
    exact ⟨hParams, rfl⟩

theorem progress : assembler.Progress expected Accepts := by
  refine ⟨?_, ?_, ?_, ?_, ?_⟩
  · intro s
    exact .inr (fun _ hMember => absurd hMember List.not_mem_nil)
  · intro fuel s queue status rest hFront
    show assembleMore fuel s queue = _
    rw [assembleMore, addPacket, hFront]
    rcases front_stop hFront with ⟨⟨rfl, _⟩ | ⟨rfl, _⟩, _, _⟩ <;> rfl
  · intro s queue next buffer rest more hFront hAccepts
    rcases assembleMore_packet hFront with ⟨mPackets, final, hStep, hFinal⟩
    have hUnits :
        ∃ packets, Reaches (fun fuel => units s.params fuel buffer mPackets) (true, packets) := by
      unfold units
      rcases hAccepts with hPlain | hAll
      · rw [hPlain]
        exact ⟨_, .const _⟩
      · cases hGeneric : s.params.mIsGeneric with
        | false => exact ⟨_, .const _⟩
        | true => exact (s.params.readUnits_iff buffer mPackets).1 (hAll buffer List.mem_cons_self)
    rcases hUnits with ⟨packets, enough, hUnits⟩
    have hUnits :
        ∀ fuel, enough ≤ fuel → units s.params fuel buffer mPackets = .returns (true, packets) :=
      hUnits
    refine ⟨final true packets, ⟨enough, ?_⟩, (hFinal true packets).2, ?_⟩
    · intro fuel hFuel
      show s.assembleMore fuel queue = _
      rw [hStep, hUnits fuel hFuel]
      rfl
    · unfold Accepts
      rw [(hFinal true packets).1]
      refine hAccepts.imp_right (fun hAll other hMember => ?_)
      exact hAll other (List.mem_cons_of_mem _ hMember)
  · intro fuel s queue next buffer rest more status t left hFront hRefused hMore
    rcases assembleMore_packet hFront with ⟨mPackets, final, hStep, hFinal⟩
    have hMore : s.assembleMore fuel queue = _ := hMore
    rw [hStep, Result.bind_eq_returns] at hMore
    rcases hMore with ⟨⟨success, packets⟩, hUnits, hEnd⟩
    cases success with
    | true =>
      cases hEnd
      refine .inl ⟨rfl, rfl, (hFinal true packets).2, ?_⟩
      intro hRest
      unfold Accepts at hRefused hRest
      rw [(hFinal true packets).1] at hRest
      rcases hRest with hPlain | hAll
      · exact hRefused (.inl hPlain)
      refine hRefused ?_
      cases hGeneric : s.params.mIsGeneric with
      | false => exact .inl rfl
      | true =>
        rw [units, if_pos hGeneric] at hUnits
        have hFirst := (s.params.readUnits_iff buffer mPackets).2 fuel packets hUnits
        refine .inr (fun other hMember => ?_)
        rcases List.mem_cons.mp hMember with rfl | hMember
        · exact hFirst
        · exact hAll other hMember
    | false =>
      cases hEnd
      refine .inr ⟨rfl, rfl, (hFinal false packets).2, ?_⟩
      unfold Accepts at hRefused ⊢
      rw [(hFinal false packets).1]
      exact hRefused
  · intro s hValid
    show ∃ t, packetLost s = _ ∧ _
    rw [packetLost, Expected.packetLost_valid hValid]
    exact ⟨_, rfl, rfl, fun _ => Iff.rfl⟩

end AMPEG4ElementaryAssembler

--
-- All Assemblers
--

/-
  A call returns for every queue and clock, but for units of LATM audio that are not framed as
  agreed on, and for packets of the generic format that are not as agreed on.
-/
theorem onPacketReceived_returns (nowUs : Nat → Int) :
    (AAVCAssembler.assembler.Steps ∧ ∀ s, AAVCAssembler.assembler.Returns nowUs s) ∧
    (AAMRAssembler.assembler.Steps ∧ ∀ s, AAMRAssembler.assembler.Returns nowUs s) ∧
    (AH263Assembler.assembler.Steps ∧ ∀ s, AH263Assembler.assembler.Returns nowUs s) ∧
    (∀ s : Reception AMPEG4AudioAssembler,
      AMPEG4AudioAssembler.assembler.Returns nowUs s ↔
        UnitsFramed s.assembler.config s.assembler.mPackets s.assembler.mAccessUnitRTPTime
          (reached nowUs s.assembler.expected s)) ∧
    (∀ s : Reception AMPEG4ElementaryAssembler,
      AMPEG4ElementaryAssembler.assembler.Returns nowUs s ↔
        s.assembler.params.mIsGeneric = false ∨
          ∀ buffer ∈ reached nowUs s.assembler.expected s,
            s.assembler.params.GenericPacket buffer.data) :=
  ⟨⟨AAVCAssembler.steps, AAVCAssembler.returns nowUs⟩,
    ⟨AAMRAssembler.takesAll.steps, AAMRAssembler.takesAll.returns nowUs⟩,
    ⟨AH263Assembler.takesAll.steps, AH263Assembler.takesAll.returns nowUs⟩,
    fun _ => AMPEG4AudioAssembler.progress.returns_iff,
    fun _ => AMPEG4ElementaryAssembler.progress.returns_iff⟩

/- A generic packet of one byte is assembled for ever. -/
theorem onPacketReceived_endless :
    ¬AMPEG4ElementaryAssembler.assembler.Returns (fun _ => 0)
      ⟨-1, 0, ⟨⟨true, 13, 3, 3, 0, 0, false, 0, 0, 2, 4⟩, .new, 0, false, [], []⟩,
        [⟨7, 0, [0]⟩]⟩ := by
  rw [AMPEG4ElementaryAssembler.progress.returns_iff]
  rintro (hPlain | hAll)
  · cases hPlain
  · exact hAll ⟨7, 0, [0]⟩ List.mem_cons_self

end RTP

end FrameworksAv
