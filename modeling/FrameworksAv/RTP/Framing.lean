import FrameworksAv.RTP.Simple
import FrameworksAv.RTP.Progress

/-
  Access units that `AMPEG4AudioAssembler` gets over.

  Main declarations:
    * `StreamMuxConfig.Framed`
    * `StreamMuxConfig.removeSubFrames_iff`
    * `UnitsFramed`
    * `AMPEG4AudioAssembler.progress`
-/

--
-- Framing
--

namespace FrameworksAv

namespace RTP

/- The bytes of a length: as often 255 as it goes, and a rest. -/
def SlotLength (bytes : List Byte) (length : Nat) : Prop :=
  ∃ (count : Nat) (last : Byte),
    last ≠ 255 ∧ bytes = List.replicate count 255 ++ [last] ∧ length = count * 255 + last.toNat

namespace StreamMuxConfig

variable (config : StreamMuxConfig)

/- The length of a payload, in front of it or known before. -/
def LengthInfo (bytes : List Byte) (length : Nat) : Prop :=
  if config.mFrameLengthType = 0 then SlotLength bytes length
  else config.mFrameLengthType ≠ 2 ∧ bytes = [] ∧ config.mFixedFrameLength = length

def OtherData (bytes : List Byte) : Prop :=
  if config.mOtherDataPresent then
    config.mOtherDataLenBits % 8 = 0 ∧ bytes.length = config.mOtherDataLenBits / 8
  else bytes = []

/-
  Subframes, each of them a length, a payload and other data; there is at least one byte behind a
  length.
-/
def Framed : Nat → List Byte → Prop
| 0, _ => True
| count + 1, data =>
  ∃ info payload other rest,
    data = info ++ (payload ++ (other ++ rest)) ∧ config.LengthInfo info payload.length ∧
      payload ++ (other ++ rest) ≠ [] ∧ config.OtherData other ∧ Framed count rest

variable {config}

theorem readSlotLength_iff (data : List Byte) {length : Nat} {rest : List Byte} :
    readSlotLength data = .returns (length, rest) ↔
      ∃ info, data = info ++ rest ∧ SlotLength info length := by
  induction data generalizing length with
  | nil =>
    constructor
    · nofun
    · rintro ⟨info, hData, count, last, _, rfl, _⟩
      simp at hData
  | cons tmp data ih =>
    unfold readSlotLength
    by_cases hFull : tmp = 255
    · rw [if_pos hFull, Result.bind_eq_returns]
      constructor
      · rintro ⟨⟨more, left⟩, hRead, hNext⟩
        cases hNext
        rcases ih.mp hRead with ⟨info, rfl, count, last, hLast, rfl, rfl⟩
        refine ⟨255 :: (List.replicate count 255 ++ [last]),
          by rw [hFull]; rfl, count + 1, last, hLast, rfl, ?_⟩
        omega
      · rintro ⟨info, hData, count, last, hLast, rfl, rfl⟩
        cases count with
        | zero =>
          simp only [List.replicate_zero, List.nil_append,
            List.singleton_append, List.cons.injEq] at hData
          exact absurd (hData.1.symm.trans hFull) hLast
        | succ count =>
          simp only [List.replicate_succ, List.cons_append, List.cons.injEq] at hData
          refine ⟨(count * 255 + last.toNat, rest),
            ih.mpr ⟨_, hData.2, count, last, hLast, rfl,
              rfl⟩, ?_⟩
          simp only [Result.returns.injEq, Prod.mk.injEq, and_true]
          omega
    · rw [if_neg hFull]
      constructor
      · intro hRead
        cases hRead
        exact ⟨[tmp], rfl, 0, tmp, hFull, rfl, (Nat.zero_add _).symm⟩
      · rintro ⟨info, hData, count, last, hLast, rfl, rfl⟩
        cases count with
        | zero =>
          simp only [List.replicate_zero, List.nil_append,
            List.singleton_append, List.cons.injEq] at hData
          rcases hData with ⟨rfl, rfl⟩
          simp
        | succ count =>
          simp only [List.replicate_succ, List.cons_append, List.cons.injEq] at hData
          exact absurd hData.1 hFull

theorem readPayloadLength_iff {data rest : List Byte} {length : Nat} :
    config.readPayloadLength data = .returns (length, rest) ↔
      ∃ info, data = info ++ rest ∧ config.LengthInfo info length := by
  unfold readPayloadLength LengthInfo
  by_cases hSlot : config.mFrameLengthType = 0
  · simp only [if_pos hSlot]
    exact readSlotLength_iff data
  simp only [if_neg hSlot]
  by_cases hReserved : config.mFrameLengthType = 2
  · rw [if_pos hReserved]
    constructor
    · nofun
    · rintro ⟨_, _, hNot, _⟩
      exact absurd hReserved hNot
  rw [if_neg hReserved, Result.check]
  by_cases hFixed : 0 ≤ config.mFixedFrameLength
  · rw [if_pos hFixed]
    constructor
    · intro hRead
      simp only [Result.returns.injEq, Prod.mk.injEq] at hRead
      refine ⟨[], hRead.2, hReserved, rfl, ?_⟩
      omega
    · rintro ⟨info, rfl, _, rfl, hLength⟩
      simp only [List.nil_append, Result.returns.injEq, Prod.mk.injEq, and_true]
      omega
  · rw [if_neg hFixed]
    constructor
    · nofun
    · rintro ⟨_, _, _, _, hLength⟩
      omega

theorem skipOtherData_iff {data rest : List Byte} :
    config.skipOtherData data = .returns rest ↔
      ∃ other, data = other ++ rest ∧ config.OtherData other := by
  unfold skipOtherData OtherData
  cases hPresent : config.mOtherDataPresent with
  | false =>
    simp only [Bool.false_eq_true, if_false]
    constructor
    · intro hSkip
      cases hSkip
      exact ⟨[], rfl, rfl⟩
    · rintro ⟨other, rfl, rfl⟩
      rfl
  | true =>
    simp only [if_true, Result.check_eq_returns]
    constructor
    · rintro ⟨hBits, hRoom, hSkip⟩
      cases hSkip
      refine ⟨data.take (config.mOtherDataLenBits / 8), (List.take_append_drop _ _).symm, hBits, ?_⟩
      rw [List.length_take]
      omega
    · rintro ⟨other, rfl, hBits, hLength⟩
      refine ⟨hBits, ?_, ?_⟩
      · rw [List.length_append]
        omega
      · rw [← hLength, List.drop_left]

/- By the number of subframes that are left. -/
theorem removeSubFrames_iff (count : Nat) (data : List Byte) :
    (∃ out, config.removeSubFrames count data = .returns out) ↔ config.Framed count data := by
  induction count generalizing data with
  | zero => exact ⟨fun _ => trivial, fun _ => ⟨[], rfl⟩⟩
  | succ count ih =>
    unfold removeSubFrames Framed
    constructor
    · rintro ⟨out, hOut⟩
      rcases Result.bind_eq_returns.mp hOut with ⟨⟨length, rest⟩, hLength, hTurn⟩
      rcases readPayloadLength_iff.mp hLength with ⟨info, rfl, hInfo⟩
      rcases Result.check_eq_returns.mp hTurn with ⟨hMore, hTurn⟩
      rcases Result.check_eq_returns.mp hTurn with ⟨hRoom, hTurn⟩
      rcases Result.bind_eq_returns.mp hTurn with ⟨behind, hSkip, hTurn⟩
      rcases Result.bind_eq_returns.mp hTurn with ⟨more, hRest, _⟩
      rcases skipOtherData_iff.mp hSkip with ⟨other, hOther, hData⟩
      have hSplit : rest = rest.take length ++ (other ++ behind) := by
        rw [← hOther, List.take_append_drop]
      have hTake : (rest.take length).length = length := by
        rw [List.length_take]
        exact Nat.min_eq_left hRoom
      refine ⟨info, rest.take length, other, behind, ?_, ?_,
        ?_, hData, (ih behind).mp ⟨more, hRest⟩⟩
      · rw [← hSplit]
      · rw [hTake]
        exact hInfo
      · rw [← hSplit]
        exact hMore
    · rintro ⟨info, payload, other, rest, rfl, hInfo, hMore, hOther, hRest⟩
      rcases (ih rest).mpr hRest with ⟨more, hOut⟩
      have hLength :
          config.readPayloadLength (info ++ (payload ++ (other ++ rest))) =
            .returns (payload.length, payload ++ (other ++ rest)) :=
        readPayloadLength_iff.mpr ⟨info, rfl, hInfo⟩
      have hSkip : config.skipOtherData (other ++ rest) = .returns rest :=
        skipOtherData_iff.mpr ⟨other, rfl, hOther⟩
      have hRoom : payload.length ≤ (payload ++ (other ++ rest)).length := by
        rw [List.length_append]
        exact Nat.le_add_right _ _
      refine ⟨payload ++ more, ?_⟩
      rw [hLength, Result.bind_returns, Result.check_eq_returns]
      refine ⟨hMore, Result.check_eq_returns.mpr ⟨hRoom, ?_⟩⟩
      rw [List.drop_left, hSkip, Result.bind_returns, hOut, Result.bind_returns, List.take_left]

/- An access unit in the framing that was agreed on. -/
def FramedUnit (config : StreamMuxConfig) (data : List Byte) : Prop :=
  config.mMuxConfigPresent = false ∧ config.Framed (config.mNumSubFrames + 1) data

theorem removeLATMFraming_iff (data : List Byte) :
    (∃ out, removeLATMFraming config data = .returns out) ↔ config.FramedUnit data := by
  simp only [removeLATMFraming, Result.check_eq_returns, FramedUnit, ← removeSubFrames_iff]
  constructor
  · rintro ⟨out, hPresent, hOut⟩
    exact ⟨hPresent, out, hOut⟩
  · rintro ⟨hPresent, out, hOut⟩
    exact ⟨out, hPresent, hOut⟩

end StreamMuxConfig

--
-- Units of a Queue
--

/-
  Some packets of a time were collected. The framing of the unit is as agreed when a packet of
  another time follows.
-/
def UnitsFramed (config : StreamMuxConfig) : List ABuffer → Nat → List ABuffer → Prop
| _, _, [] => True
| packets, time, buffer :: rest =>
  if packets ≠ [] ∧ buffer.rtpTime ≠ time then
    config.FramedUnit (compound packets) ∧ UnitsFramed config [buffer] buffer.rtpTime rest
  else UnitsFramed config (packets ++ [buffer]) buffer.rtpTime rest

theorem unitsFramed_cons (config : StreamMuxConfig) (packets : List ABuffer) (time : Nat)
    (buffer : ABuffer) (rest : List ABuffer) :
    UnitsFramed config packets time (buffer :: rest) =
      if packets ≠ [] ∧ buffer.rtpTime ≠ time then
        config.FramedUnit (compound packets) ∧ UnitsFramed config [buffer] buffer.rtpTime rest
      else UnitsFramed config (packets ++ [buffer]) buffer.rtpTime rest :=
  rfl

namespace AMPEG4AudioAssembler

variable {s : AMPEG4AudioAssembler}

/- What is accepted from a state on. -/
def Accepts (s : AMPEG4AudioAssembler) (packets : List ABuffer) : Prop :=
  UnitsFramed s.config s.mPackets s.mAccessUnitRTPTime packets

/- A packet is collected, maybe as the first one of a unit. -/
theorem assembleMore_packet {queue rest : List ABuffer} {next : Expected} {buffer : ABuffer}
    (hFront : front s.expected queue = .packet next buffer rest) :
    s.assembleMore queue =
      (if s.mPackets ≠ [] ∧ buffer.rtpTime ≠ s.mAccessUnitRTPTime then s.submitAccessUnit
      else .returns s).bind fun s =>
        .returns
          (.OK,
            { s with
              expected := next.next,
              mAccessUnitRTPTime := buffer.rtpTime,
              mPackets := s.mPackets ++ [buffer] }, rest) := by
  rw [assembleMore, addPacket, hFront]
  simp only
  split
  · cases s.submitAccessUnit <;> rfl
  · rfl

/- A unit that is over has to have its framing. -/
theorem submitAccessUnit_iff (hPackets : s.mPackets ≠ []) :
    (∃ t, s.submitAccessUnit = .returns t) ↔ s.config.FramedUnit (compound s.mPackets) := by
  rw [← StreamMuxConfig.removeLATMFraming_iff]
  cases hSome : s.mPackets with
  | nil => exact absurd hSome hPackets
  | cons first more =>
    rw [submitAccessUnit, hSome]
    simp only [Result.bind_eq_returns]
    constructor
    · rintro ⟨t, out, hOut, _⟩
      exact ⟨out, hOut⟩
    · rintro ⟨out, hOut⟩
      exact ⟨_, out, hOut, rfl⟩

theorem submitAccessUnit_keeps {t : AMPEG4AudioAssembler}
    (hSubmit : s.submitAccessUnit = .returns t) : t.config = s.config ∧ t.mPackets = [] := by
  cases hSome : s.mPackets with
  | nil =>
    rw [submitAccessUnit, hSome] at hSubmit
    cases hSubmit
  | cons first more =>
    rw [submitAccessUnit, hSome] at hSubmit
    rcases Result.bind_eq_returns.mp hSubmit with ⟨out, _, hEnd⟩
    cases hEnd
    exact ⟨rfl, rfl⟩

/- A step returns as far as the packets say. -/
theorem assembleMore_iff {queue rest more : List ABuffer} {next : Expected} {buffer : ABuffer}
    (hFront : front s.expected queue = .packet next buffer rest) :
    (∀ status t left,
      s.assembleMore queue = .returns (status, t, left) →
        status = .OK ∧ left = rest ∧ t.expected = next.next ∧
          (t.Accepts more ↔ s.Accepts (buffer :: more))) ∧
      (s.Accepts (buffer :: more) → ∃ next, s.assembleMore queue = .returns next) := by
  rw [assembleMore_packet hFront]
  simp only [Accepts, unitsFramed_cons]
  by_cases hTime : s.mPackets ≠ [] ∧ buffer.rtpTime ≠ s.mAccessUnitRTPTime
  · simp only [if_pos hTime]
    have hUnit := submitAccessUnit_iff hTime.1
    constructor
    · intro status t left hMore
      rcases Result.bind_eq_returns.mp hMore with ⟨u, hSubmit, hEnd⟩
      have hFramed := hUnit.mp ⟨u, hSubmit⟩
      rcases submitAccessUnit_keeps hSubmit with ⟨hConfig, hEmpty⟩
      cases hEnd
      refine ⟨rfl, rfl, rfl, ?_⟩
      simp only [hConfig, hEmpty, List.nil_append]
      exact ⟨fun hRest => ⟨hFramed, hRest⟩, And.right⟩
    · rintro ⟨hFramed, _⟩
      rcases hUnit.mpr hFramed with ⟨u, hSubmit⟩
      rw [hSubmit]
      exact ⟨_, rfl⟩
  · simp only [if_neg hTime, Result.bind_returns]
    constructor
    · intro status t left hMore
      cases hMore
      exact ⟨rfl, rfl, rfl, Iff.rfl⟩
    · intro _
      exact ⟨_, rfl⟩

theorem progress : assembler.Progress expected Accepts := by
  refine ⟨fun _ => trivial, ?_, ?_, ?_, ?_⟩
  · intro fuel s queue status rest hFront
    show assembleMore s queue = _
    rw [assembleMore, addPacket, hFront]
    rcases front_stop hFront with ⟨⟨rfl, _⟩ | ⟨rfl, _⟩, _, _⟩ <;> rfl
  · intro s queue next buffer rest more hFront hAccepts
    rcases @assembleMore_iff s queue rest more next buffer hFront with ⟨hAll, hReturns⟩
    rcases hReturns hAccepts with ⟨⟨status, t, left⟩, hMore⟩
    rcases hAll status t left hMore with ⟨rfl, rfl, hNext, hSame⟩
    exact ⟨t, .of_eq (fun _ => hMore), hNext, hSame.mpr hAccepts⟩
  · intro fuel s queue next buffer rest more status t left hFront hRefused hMore
    rcases (assembleMore_iff hFront).1 status t left hMore with ⟨rfl, rfl, hNext, hSame⟩
    exact .inl ⟨rfl, rfl, hNext, fun hRest => hRefused (hSame.mp hRest)⟩
  · intro s hValid
    show ∃ t, packetLost s = _ ∧ _
    rw [packetLost, Expected.packetLost_valid hValid]
    exact ⟨_, rfl, rfl, fun _ => Iff.rfl⟩

end AMPEG4AudioAssembler

end RTP

end FrameworksAv
