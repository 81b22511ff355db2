import FrameworksAv.ATSParser.Lengths
import FrameworksAv.ATSParser.Reassembly

/-
  When the parser survives its packets.

  A packet fits a state if the lengths that are read because of it stay inside what they are lengths
  in.

  Main declarations:
    * `payloadAt`, `readTS_reads`
    * `Parser.PayloadFits`, `Parser.PacketFits`
    * `Parser.parseTS_clean`
    * `Parser.packets_parsed_iff`
-/

--
-- Packets
--

namespace FrameworksAv

namespace ATSParser

open Parse

/- The packet, and what memory holds behind a section. -/
structure TransportPacket where
  bytes : List Byte
  memory : Memory
  size : bytes.length = 188

/- Where the payload starts, if there is one. -/
def payloadStart (packet : List Byte) : Option Nat :=
  let adaptation_field_control := field packet 26 2
  let adaptation_field_length := field packet 32 8
  if adaptation_field_control = 1 then some 4
  else if adaptation_field_control = 3 then if adaptation_field_length = 0 then some 5
    else if adaptation_field_length ≤ 183 ∧ (field packet 43 1 ≠ 0 → 7 ≤ adaptation_field_length)
      then some (5 + adaptation_field_length)
    else none
  else none

/- What is in front of the payload, and where it starts. -/
def payloadAt (packet : List Byte) : Option (Front × Nat) :=
  if field packet 0 8 = 0x47 ∧ field packet 8 1 = 0 then
    (payloadStart packet).map (fun k =>
      (.payload (field packet 9 1 ≠ 0) (field packet 11 13) (field packet 28 4), k))
  else none

def Front.IsPayload : Front → Prop
| .payload _ _ _ => True
| _ => False

/- The rest of an adaptation field is skipped. -/
theorem skipRemaining_reads {packet : List Byte} {len numBitsRead pos : Nat} (hLen : len < 2 ^ 8)
    (hRead : numBitsRead ≤ len * 8) (hIn : pos + (len * 8 - numBitsRead) ≤ 8 * packet.length) :
    (minus ((len : Int) * 8 - numBitsRead) 64 >>= fun n =>
          skip n).reads packet pos =
      some (some (), pos + (len * 8 - numBitsRead)) := by
  have hEq := toNat_emod (by omega : len * 8 < 2 ^ 64) hRead
  rw [Nat.cast_mul, Nat.cast_ofNat] at hEq
  rw [reads_minus_bind, if_pos (by omega), hEq, reads_skip, if_pos hIn]

theorem parseAdaptationField_reads {packet : List Byte} (hSize : packet.length = 188) :
    ∃ pos, parseAdaptationField.reads packet 32 = if field packet 32 8 = 0 then some (some (), 40)
        else if field packet 32 8 ≤ 183 ∧ (field packet 43 1 ≠ 0 → 7 ≤ field packet 32 8)
          then some (some (), 8 * (5 + field packet 32 8))
        else some (none, pos) := by
  have hBound := field_lt packet 32 8
  unfold parseAdaptationField
  rw [reads_get_bind, hSize, if_pos (by decide)]
  generalize field packet 32 8 = len at *
  by_cases hZero : len = 0
  · refine ⟨0, ?_⟩
    rw [if_pos hZero, if_neg (by omega), reads_pure]
  · rw [if_pos (by omega), reads_left_bind, reads_require_bind, hSize]
    by_cases hInside : len ≤ 183
    · rw [if_pos (by omega), reads_get_bind, hSize, if_pos (by decide), reads_skip_bind, hSize,
        if_pos (by decide), reads_get_bind, hSize, if_pos (by decide)]
      unfold parsePCR
      by_cases hFlag : field packet 43 1 ≠ 0
      · rw [if_pos hFlag, bind_bind, reads_require_bind]
        by_cases hLong : 7 ≤ len
        · have hFits : 52 ≤ len * 8 := by omega
          refine ⟨0, ?_⟩
          simp only [bind_bind, reads_skip_bind, reads_get_bind,
            pure_bind', hSize, if_pos hFits, if_neg hZero,
            if_pos (And.intro hInside (fun _ => hLong))]
          rw [if_pos (by decide), if_pos (by decide), if_pos (by decide), if_pos (by decide),
            if_pos (by decide), skipRemaining_reads hBound (by omega) (by omega)]
          congr 2
          omega
        · refine ⟨44, ?_⟩
          rw [if_neg (by omega), if_neg hZero, if_neg (fun h => hLong (h.2 hFlag))]
      · refine ⟨0, ?_⟩
        rw [if_neg hFlag, pure_bind', skipRemaining_reads hBound (by omega) (by omega),
          if_neg hZero, if_pos ⟨hInside, fun h => absurd h hFlag⟩]
        congr 2
        omega
    · refine ⟨40, ?_⟩
      rw [if_neg (by omega), if_neg hZero, if_neg (fun h => hInside h.1)]

/- The payload starts behind the adaptation field. -/
theorem readAdaptation_reads {packet : List Byte} (hSize : packet.length = 188) (front : Front) :
    ∃ result pos,
      (readAdaptation (field packet 26 2) >>= fun _ =>
            pure front).reads packet 32 =
          some (result, pos) ∧
        (result = some front ∨ result = none) ∧
        (∀ k, payloadStart packet = some k → result = some front ∧ pos = 8 * k) ∧
        (payloadStart packet = none →
          field packet 26 2 = 1 ∨ field packet 26 2 = 3 → result = none) := by
  rcases parseAdaptationField_reads hSize with ⟨pos, hField⟩
  unfold readAdaptation payloadStart
  generalize field packet 26 2 = control at *
  by_cases hOne : control = 1
  · refine ⟨some front, 32, ?_, Or.inl rfl, ?_, ?_⟩
    · rw [if_neg (by omega), pure_bind', reads_pure]
    · intro k hk
      rw [if_pos hOne] at hk
      cases hk
      exact ⟨rfl, rfl⟩
    · intro hNone
      rw [if_pos hOne] at hNone
      cases hNone
  · rw [if_neg hOne]
    by_cases hField' : control = 2 ∨ control = 3
    · rw [if_pos hField', reads_bind, hField]
      by_cases hZero : field packet 32 8 = 0
      · rw [if_pos hZero, if_pos hZero]
        refine ⟨some front, 40, rfl, Or.inl rfl, ?_, ?_⟩
        · intro k hk
          split at hk
          · cases hk
            exact ⟨rfl, rfl⟩
          · cases hk
        · intro hNone hPayload
          rw [if_pos (by omega)] at hNone
          cases hNone
      · rw [if_neg hZero, if_neg hZero]
        split
        · refine ⟨some front, _, rfl, Or.inl rfl, ?_, ?_⟩
          · intro k hk
            split at hk
            · cases hk
              exact ⟨rfl, rfl⟩
            · cases hk
          · intro hNone hPayload
            rw [if_pos (by omega)] at hNone
            cases hNone
        · refine ⟨none, pos, rfl, Or.inr rfl, ?_, ?_⟩
          · intro k hk
            split at hk
            · cases hk
            · cases hk
          · intro _ _
            rfl
    · rw [if_neg hField', if_neg (by omega)]
      refine ⟨some front, 32, rfl, Or.inl rfl, ?_, ?_⟩
      · intro k hk
        cases hk
      · intro _ hPayload
        omega

/- The header of a packet stays inside it. -/
theorem readTS_reads {packet : List Byte} (hSize : packet.length = 188) :
    ∃ front pos,
      readTS.reads packet 0 = some (front, pos) ∧
        (∀ payload k, payloadAt packet = some (payload, k) → front = some payload ∧ pos = 8 * k) ∧
        (payloadAt packet = none → ∀ payload, front = some payload → ¬ payload.IsPayload) := by
  unfold readTS payloadAt
  rw [reads_get_bind, hSize, if_pos (by decide)]
  by_cases hSync : field packet 0 8 = 0x47
  · rw [if_neg (not_not_intro hSync), reads_get_bind, hSize, if_pos (by decide)]
    by_cases hError : field packet (0 + 8) 1 = 0
    · rw [if_neg (not_not_intro hError), if_pos ⟨hSync, hError⟩]
      unfold readHeader
      simp only [reads_get_bind, hSize]
      rw [if_pos (by decide), if_pos (by decide), if_pos (by decide), if_pos (by decide),
        if_pos (by decide), if_pos (by decide)]
      rcases readAdaptation_reads hSize
        (if field packet 26 2 = 1 ∨ field packet 26 2 = 3 then
          .payload (field packet 9 1 ≠ 0) (field packet 11 13) (field packet 28 4)
        else .noPayload) with ⟨result, pos, hReads, hResult, hSome, hNone⟩
      refine ⟨result, pos, hReads, ?_, ?_⟩
      · intro payload k hAt
        rcases Option.map_eq_some_iff.mp hAt with ⟨k', hStart, hEq⟩
        cases hEq
        rcases hSome k hStart with ⟨hFront, hPos⟩
        have hControl : field packet 26 2 = 1 ∨ field packet 26 2 = 3 := by
          unfold payloadStart at hStart
          by_contra hNot
          rw [if_neg (fun h => hNot (Or.inl h)), if_neg (fun h => hNot (Or.inr h))] at hStart
          cases hStart
        rw [if_pos hControl] at hFront
        exact ⟨hFront, hPos⟩
      · intro hAt payload hFront
        rw [Option.map_eq_none_iff] at hAt
        by_cases hControl : field packet 26 2 = 1 ∨ field packet 26 2 = 3
        · rw [hNone hAt hControl] at hFront
          cases hFront
        · rw [if_neg hControl] at hResult
          rcases hResult with hNoPayload | hMalformed
          · rw [hNoPayload] at hFront
            cases hFront
            exact id
          · rw [hMalformed] at hFront
            cases hFront
    · rw [if_pos hError, if_neg (fun h => hError h.2)]
      refine ⟨_, _, rfl, ?_, ?_⟩
      · intro payload k hNone
        cases hNone
      · intro _ payload hFront
        cases hFront
        exact id
  · rw [if_pos hSync, if_neg (fun h => hSync h.1)]
    refine ⟨_, _, rfl, ?_, ?_⟩
    · intro payload k hNone
      cases hNone
    · intro _ payload hFront
      cases hFront
      exact id

end ATSParser

--
-- Conditions
--

namespace ATSParser

namespace Stream

/- The packet ends a PES packet that has been collected. -/
def Flushes (s : Stream) (continuity_counter : Nat) (begins : Bool) : Prop :=
  s.mQueue ≠ none ∧ begins = true ∧ s.discontinuity continuity_counter = false ∧
    s.mPayloadStarted = true ∧ s.mBuffer ≠ []

end Stream

namespace PSISection

/- The section with a payload, its pointer field taken off. -/
def receive (s : PSISection) (begins : Bool) (payload : List Byte) : PSISection :=
  if begins then ⟨payload.drop (1 + (payload.headD 0).toNat), ((payload.headD 0).toNat + 1) % 2 ^ 8⟩
  else s.append payload

end PSISection

namespace Parser

variable (p : Parser)

/-
  The pointer field points into the payload, and the lengths in a table that is complete lie inside
  it.
-/
def SectionFits (s : PSISection) (memory : Memory) (PID : Nat) (begins : Bool)
    (payload : List Byte) : Prop :=
  (begins = true → 1 + (payload.headD 0).toNat ≤ payload.length) ∧
    ((s.receive begins payload).isComplete = true →
      (s.receive begins payload).isCRCOkay memory = true →
        if PID = 0 then PatFits (s.receive begins payload).mBuffer
        else
          (∃ program ∈ p.mPrograms, program.mProgramMapPID = PID) →
            PmtFits (s.receive begins payload).mBuffer)

/- The first program that has a stream with the PID. -/
def streamOf (PID : Nat) : List Program → Option Stream
| [] => none
| program :: programs =>
  match program.mStreams.lookup PID with
  | some s => some (program.objects s)
  | none => streamOf PID programs

def PayloadFits (memory : Memory) (PID continuity_counter : Nat) (begins : Bool)
    (payload : List Byte) : Prop :=
  match p.mPSISections.lookup PID with
  | some s => p.SectionFits s memory PID begins payload
  | none =>
    ∀ stream ∈ streamOf PID p.mPrograms,
      stream.Flushes continuity_counter begins → PesFits stream.mBuffer

def PacketFits (packet : TransportPacket) : Prop :=
  ∀ begins PID continuity_counter k,
    payloadAt packet.bytes = some (.payload begins PID continuity_counter, k) →
      p.PayloadFits packet.memory PID continuity_counter begins (packet.bytes.drop k)

/- The packets in turn. -/
def feedTS : Parser → List TransportPacket → Checked Parser
| p, [] => pure p
| p, packet :: packets =>
  p.parseTS packet.memory (ABitReader.create packet.bytes) >>= fun r => feedTS r.2 packets

/- Each packet fits the state that it is received in. -/
def PacketsFit : Parser → List TransportPacket → Prop
| _, [] => True
| p, packet :: packets =>
  p.PacketFits packet ∧
    ∀ r,
      p.parseTS packet.memory (ABitReader.create packet.bytes) = some (r, false) →
        PacketsFit r.2 packets

end Parser

--
-- Clean calls
--

open Parse

theorem run_clean {α : Type} (p : Parse α) {r : ABitReader} {bytes : List Byte} {pos : Nat}
    (h : r.At bytes pos) : (p.run r).Clean ↔ p.Fits bytes pos := by
  constructor
  · rintro ⟨⟨x, r'⟩, hRun⟩
    rcases reads_of_run p h hRun with ⟨pos', hReads, _⟩
    exact ⟨(x, pos'), hReads⟩
  · rintro ⟨⟨x, pos'⟩, hReads⟩
    rcases run_of_reads p h hReads with ⟨r', hRun, _⟩
    exact ⟨(x, r'), hRun⟩

theorem clean_bind_of_pure {α β : Type} {x : Checked α} {f : α → Checked β}
    (hf : ∀ a, (f a).Clean) : (x >>= f).Clean ↔ x.Clean := by
  rw [Checked.clean_bind]
  constructor
  · rintro ⟨a, hFirst, _⟩
    exact ⟨a, hFirst⟩
  · rintro ⟨a, hFirst⟩
    exact ⟨a, hFirst, hf a⟩

namespace Stream

variable {s : Stream}

theorem flush_clean : s.flush.Clean ↔ (s.mBuffer ≠ [] → PesFits s.mBuffer) := by
  unfold flush
  by_cases hEmpty : s.mBuffer = []
  · rw [if_pos hEmpty]
    exact ⟨fun _ hNot => absurd hEmpty hNot, fun _ => Checked.clean_pure _⟩
  · rw [if_neg hEmpty, clean_bind_of_pure, run_clean _ (ABitReader.create_at s.mBuffer),
      parsePES_fits]
    · exact ⟨fun h _ => h, fun h => h hEmpty⟩
    · rintro ⟨result, r⟩
      cases result with
      | none => exact Checked.clean_pure _
      | some next => exact Checked.clean_pure _

theorem start_clean (begins : Bool) :
    (s.start begins).Clean ↔
      (begins = true → s.mPayloadStarted = true → s.mBuffer ≠ [] → PesFits s.mBuffer) := by
  unfold start
  cases begins with
  | false => exact ⟨(fun _ hNot => nomatch hNot), fun _ => Checked.clean_pure _⟩
  | true =>
    rw [if_pos rfl, clean_bind_of_pure (fun _ => Checked.clean_pure _)]
    cases hStarted : s.mPayloadStarted with
    | false => exact ⟨(fun _ _ hNot => nomatch hNot), fun _ => Checked.clean_pure _⟩
    | true =>
      rw [if_pos rfl, flush_clean]
      exact ⟨fun h _ _ => h, fun h => h rfl rfl⟩

theorem parse_clean (continuity_counter : Nat) (begins : Bool) (br : ABitReader) :
    (s.parse continuity_counter begins br).Clean ↔
      (s.Flushes continuity_counter begins → PesFits s.mBuffer) := by
  unfold parse Flushes
  by_cases hQueue : s.mQueue = none
  · rw [if_pos hQueue]
    exact ⟨fun _ hFlushes => absurd hQueue hFlushes.1, fun _ => Checked.clean_pure _⟩
  · rw [if_neg hQueue]
    simp only
    cases hLost : s.discontinuity continuity_counter with
    | true =>
      rw [if_pos rfl]
      split
      · exact ⟨(fun _ hFlushes => nomatch hFlushes.2.2.1), fun _ => Checked.clean_pure _⟩
      · rw [clean_bind_of_pure (fun _ => Checked.clean_pure _), start_clean]
        constructor
        · intro _ hFlushes
          cases hFlushes.2.2.1
        · intro _ _ hStarted
          cases hStarted
    | false =>
      rw [if_neg Bool.false_ne_true, if_neg (by simp),
        clean_bind_of_pure (fun _ => Checked.clean_pure _), start_clean]
      constructor
      · rintro h ⟨_, hBegins, _, hStarted, hSome⟩
        exact h hBegins hStarted hSome
      · intro h hBegins hStarted hSome
        exact h ⟨hQueue, hBegins, rfl, hStarted, hSome⟩

end Stream

namespace Program

variable {p : Program}

theorem parseProgramMap_fits (bytes : List Byte) :
    p.parseProgramMap.Fits bytes 0 ↔ PmtFits bytes := by
  rw [← readProgramMap_fits]
  unfold parseProgramMap Fits
  rw [reads_bind]
  constructor
  · rintro ⟨x, hReads⟩
    rcases Option.bind_eq_some_iff.mp hReads with ⟨y, hMap, _⟩
    exact ⟨y, hMap⟩
  · rintro ⟨⟨y, pos⟩, hMap⟩
    rw [hMap, Option.bind_some]
    cases y with
    | none => exact ⟨_, rfl⟩
    | some m => exact ⟨_, rfl⟩

theorem parsePSISection_clean (pid : Nat) (bytes : List Byte) :
    (p.parsePSISection pid (ABitReader.create bytes)).Clean ↔
      (p.mProgramMapPID = pid → PmtFits bytes) := by
  unfold parsePSISection
  by_cases hPid : pid ≠ p.mProgramMapPID
  · rw [if_pos hPid]
    exact ⟨fun _ hEq => absurd (Eq.symm hEq) hPid, fun _ => Checked.clean_pure _⟩
  · rw [if_neg hPid, clean_bind_of_pure, run_clean _ (ABitReader.create_at bytes),
      parseProgramMap_fits]
    · have hEq : p.mProgramMapPID = pid := Eq.symm (not_not.mp hPid)
      exact ⟨fun h _ => h, fun h => h hEq⟩
    · rintro ⟨result, r⟩
      cases result with
      | none => exact Checked.clean_pure _
      | some next => exact Checked.clean_pure _

/- A program that has handled a section is its own. -/
theorem parsePSISection_pid {pid : Nat} {br : ABitReader} {result : Option (Status × Program)}
    {w : Bool} (hParse : p.parsePSISection pid br = some (result, w)) :
    result.isSome ↔ p.mProgramMapPID = pid := by
  unfold parsePSISection at hParse
  by_cases hPid : pid ≠ p.mProgramMapPID
  · rw [if_pos hPid] at hParse
    cases hParse
    exact ⟨(fun h => nomatch h), fun h => absurd (Eq.symm h) hPid⟩
  · rw [if_neg hPid] at hParse
    have hEq : p.mProgramMapPID = pid := Eq.symm (not_not.mp hPid)
    rcases Checked.bind_eq_some.mp hParse with ⟨⟨read, r⟩, _, _, _, hRest, _⟩
    cases read with
    | none =>
      cases hRest
      exact ⟨fun _ => hEq, fun _ => rfl⟩
    | some next =>
      cases hRest
      exact ⟨fun _ => hEq, fun _ => rfl⟩

end Program

--
-- Runs
--

section

variable {handle : Program → Checked (Option (Status × Program))} {program : Program}

/- A program that handles the call ends the search. -/
theorem firstHandled_mine (programs : List Program)
    (hMine : ∀ r w, handle program = some (r, w) → r.isSome) :
    (firstHandled handle (program :: programs)).Clean ↔ (handle program).Clean := by
  unfold firstHandled
  rw [Checked.clean_bind]
  constructor
  · rintro ⟨r, hFirst, _⟩
    exact ⟨r, hFirst⟩
  · rintro ⟨r, hFirst⟩
    refine ⟨r, hFirst, ?_⟩
    have hSome := hMine r false hFirst
    cases r with
    | none => cases hSome
    | some next => exact Checked.clean_pure _

/- Another program leaves the call to the later ones. -/
theorem firstHandled_other (programs : List Program) (hOther : handle program = pure none) :
    (firstHandled handle (program :: programs)).Clean ↔ (firstHandled handle programs).Clean := by
  conv_lhs => unfold firstHandled
  rw [hOther, pure_bind, clean_bind_of_pure (fun _ => Checked.clean_pure _)]

end

/- The section is read by the first program with the PID. -/
theorem firstHandled_section_clean (PID : Nat) (bytes : List Byte) (programs : List Program) :
    (firstHandled
          (fun program =>
            program.parsePSISection PID (ABitReader.create bytes))
          programs).Clean ↔
      ((∃ program ∈ programs, program.mProgramMapPID = PID) → PmtFits bytes) := by
  induction programs with
  | nil =>
    constructor
    · rintro _ ⟨program, hMem, _⟩
      cases hMem
    · intro _
      exact Checked.clean_pure _
  | cons program programs ih =>
    by_cases hPid : program.mProgramMapPID = PID
    · rw [firstHandled_mine programs
          (fun r w hParse =>
            (Program.parsePSISection_pid hParse).mpr hPid),
        Program.parsePSISection_clean]
      exact ⟨fun h _ => h hPid, fun h _ => h ⟨program, List.mem_cons_self, hPid⟩⟩
    · have hOther : program.parsePSISection PID (ABitReader.create bytes) = pure none := by
        unfold Program.parsePSISection
        rw [if_pos (fun hEq => hPid (Eq.symm hEq))]
      rw [firstHandled_other programs hOther, ih]
      constructor
      · rintro h ⟨q, hMem, hEq⟩
        rcases List.mem_cons.mp hMem with hHead | hTail
        · rw [hHead] at hEq
          exact absurd hEq hPid
        · exact h ⟨q, hTail, hEq⟩
      · rintro h ⟨q, hMem, hEq⟩
        exact h ⟨q, List.mem_cons_of_mem _ hMem, hEq⟩

/- The payload is parsed by the first stream with the PID. -/
theorem firstHandled_stream_clean (PID continuity_counter : Nat) (begins : Bool) (br : ABitReader)
    (programs : List Program) :
    (firstHandled
          (fun program =>
            program.parsePID PID continuity_counter begins br)
          programs).Clean ↔
      ∀ stream ∈ Parser.streamOf PID programs,
        stream.Flushes continuity_counter begins → PesFits stream.mBuffer := by
  induction programs with
  | nil =>
    constructor
    · intro _ stream hNone
      cases hNone
    · intro _
      exact Checked.clean_pure _
  | cons program programs ih =>
    unfold Parser.streamOf
    cases hLookup : program.mStreams.lookup PID with
    | none =>
      have hOther : program.parsePID PID continuity_counter begins br = pure none := by
        unfold Program.parsePID
        rw [hLookup]
      rw [firstHandled_other programs hOther, ih]
    | some s =>
      have hParse :
          program.parsePID PID continuity_counter begins br =
            (program.objects s).parse continuity_counter begins br >>= fun r =>
              pure (some (r.1, program.setObject s r.2)) := by
        unfold Program.parsePID
        rw [hLookup]
      have hMine :
          ∀ r w, program.parsePID PID continuity_counter begins br = some (r, w) → r.isSome := by
        intro r w hEq
        rw [hParse] at hEq
        rcases Checked.bind_eq_some.mp hEq with ⟨_, _, _, _, hRest, _⟩
        cases hRest
        rfl
      rw [firstHandled_mine programs hMine, hParse,
        clean_bind_of_pure (fun _ => Checked.clean_pure _), Stream.parse_clean]
      constructor
      · intro h stream hSome
        cases hSome
        exact h
      · intro h
        exact h _ rfl

namespace Parser

variable {p : Parser}

/- A complete section: its length is that of the model. -/
theorem sectionLength_eq_field {s : PSISection} (hThree : 3 ≤ s.mBuffer.length) :
    s.sectionLength = field s.mBuffer 12 12 := by
  have hOne : s.mBuffer[1]? = some (s.mBuffer.getD 1 0) := by
    rw [List.getD_eq_getElem?_getD, List.getElem?_eq_getElem (by omega), Option.getD_some]
  have hTwo : s.mBuffer[2]? = some (s.mBuffer.getD 2 0) := by
    rw [List.getD_eq_getElem?_getD, List.getElem?_eq_getElem (by omega), Option.getD_some]
  have hBytes :
      field s.mBuffer 8 (8 + 8) = field s.mBuffer 8 8 * 2 ^ 8 + field s.mBuffer (8 + 8) 8 :=
    field_add (by omega)
  have hBits :
      field s.mBuffer 8 (4 + 12) = field s.mBuffer 8 4 * 2 ^ 12 + field s.mBuffer (8 + 4) 12 :=
    field_add (by omega)
  have hFirst : field s.mBuffer 8 8 = (s.mBuffer.getD 1 0).toNat := field_byte hOne
  have hSecond : field s.mBuffer 16 8 = (s.mBuffer.getD 2 0).toNat := field_byte hTwo
  have hLow := field_lt s.mBuffer 12 12
  rw [hFirst, hSecond] at hBytes
  unfold PSISection.sectionLength
  rw [← hBytes]
  show field s.mBuffer 8 (4 + 12) % 2 ^ 12 = _
  rw [hBits]
  exact Nat.mul_add_mod_of_lt hLow

theorem parseSection_clean {PID : Nat} {s : PSISection} (hComplete : s.isComplete = true) :
    (p.parseSection PID s).Clean ↔ if PID = 0 then PatFits s.mBuffer
      else (∃ program ∈ p.mPrograms, program.mProgramMapPID = PID) → PmtFits s.mBuffer := by
  unfold PSISection.isComplete at hComplete
  rw [decide_eq_true_eq] at hComplete
  unfold parseSection
  by_cases hZero : PID = 0
  · have hLength : field s.mBuffer 12 12 + 3 ≤ s.mBuffer.length := by
      rw [← sectionLength_eq_field hComplete.1]
      exact hComplete.2
    rw [if_pos hZero, if_pos hZero, clean_bind_of_pure (fun _ => Checked.clean_pure _),
      run_clean _ (ABitReader.create_at s.mBuffer), parseProgramAssociationTable_fits p hLength]
  · rw [if_neg hZero, if_neg hZero, clean_bind_of_pure, firstHandled_section_clean]
    intro handled
    cases handled with
    | none => exact Checked.clean_pure _
    | some result => exact Checked.clean_pure _

theorem finishSection_clean (memory : Memory) (PID : Nat) (s : PSISection) :
    (p.finishSection memory PID s).Clean ↔
      (s.isComplete = true → s.isCRCOkay memory = true → if PID = 0 then PatFits s.mBuffer
        else (∃ program ∈ p.mPrograms, program.mProgramMapPID = PID) → PmtFits s.mBuffer) := by
  unfold finishSection
  by_cases hComplete : s.isComplete = true
  · by_cases hOkay : s.isCRCOkay memory = true
    · rw [if_pos hComplete, if_pos hOkay, parseSection_clean hComplete]
      exact ⟨fun h _ _ => h, fun h => h hComplete hOkay⟩
    · rw [if_pos hComplete, if_neg hOkay]
      exact ⟨fun _ _ h => absurd h hOkay, fun _ => Checked.clean_pure _⟩
  · rw [if_neg hComplete]
    exact ⟨fun _ h => absurd h hComplete, fun _ => Checked.clean_pure _⟩

theorem readPointer_fits {bytes : List Byte} {k : Nat} (hk : k ≤ bytes.length) :
    readPointer.Fits bytes (8 * k) ↔
      1 + ((bytes.drop k).headD 0).toNat ≤ (bytes.drop k).length := by
  unfold readPointer
  simp only [fits_get_bind, fits_skip_bind, fits_pure, and_true, List.length_drop]
  by_cases hSome : k < bytes.length
  · have hByte : bytes[k]? = some ((bytes.drop k).headD 0) := by
      rw [List.headD_eq_head?_getD, List.head?_drop,
        List.getElem?_eq_getElem hSome, Option.getD_some]
    rw [field_byte hByte]
    omega
  · omega

theorem parsePSI_clean {memory : Memory} {PID : Nat} {begins : Bool} {br : ABitReader}
    {s : PSISection} {bytes : List Byte} {k : Nat} (hAt : br.At bytes (8 * k)) :
    (p.parsePSI memory PID begins br s).Clean ↔
      p.SectionFits s memory PID begins (bytes.drop k) := by
  have hk : k ≤ bytes.length := by
    have hPos := hAt.pos_le_length
    omega
  have hCarries : br.Carries (bytes.drop k) := ⟨bytes, k, hAt, rfl⟩
  -- what comes after the pointer field
  have hRest :
      ∀ t (r : ABitReader) chunk,
        r.Carries chunk →
          ((if r.numBitsLeft % 8 ≠ 0 then pure (.ERROR_MALFORMED, p.setSection PID t)
            else p.finishSection memory PID (t.append (r.data.take (r.numBitsLeft / 8)))) :
              Checked (Status × Parser)) =
            p.finishSection memory PID (t.append chunk) := by
    intro t r chunk hChunk
    rw [hChunk.all, hChunk.numBitsLeft, Nat.mul_mod_left]
    rfl
  unfold parsePSI SectionFits
  cases begins with
  | false =>
    have hStart : startSection s false br = pure (s, br) := by
      unfold startSection
      rw [if_neg Bool.false_ne_true]
    rw [hStart, pure_bind, hRest s br _ hCarries, finishSection_clean]
    constructor
    · exact fun h => ⟨(fun hNot => nomatch hNot), h⟩
    · exact fun h => h.2
  | true =>
    by_cases hFits : 1 + ((bytes.drop k).headD 0).toNat ≤ (bytes.drop k).length
    · rcases List.exists_cons_of_length_pos (by omega : 0 < (bytes.drop k).length) with
        ⟨pointer, rest, hPayload⟩
      rw [hPayload] at hFits hCarries ⊢
      rw [List.headD_cons, List.length_cons] at hFits
      rw [← List.take_append_drop pointer.toNat rest] at hCarries
      have hFiller : (rest.take pointer.toNat).length = pointer.toNat := by
        rw [List.length_take]
        omega
      rcases startSection_first s hCarries hFiller with ⟨r, hStart, hChunk⟩
      have hReceive :
          s.receive true (pointer :: rest) =
            ⟨rest.drop pointer.toNat, (pointer.toNat + 1) % 2 ^ 8⟩ := by
        unfold PSISection.receive
        rw [if_pos rfl, List.headD_cons, Nat.add_comm 1, List.drop_succ_cons]
      rw [hStart, pure_bind, hRest _ r _ hChunk, finishSection_clean, hReceive]
      constructor
      · intro h
        refine ⟨fun _ => ?_, h⟩
        rw [List.headD_cons, List.length_cons]
        exact hFits
      · exact fun h => h.2
    · constructor
      · intro hClean
        exfalso
        apply hFits
        rw [← readPointer_fits hk, ← run_clean _ hAt]
        rcases Checked.clean_bind.mp hClean with ⟨a, hStart, _⟩
        unfold startSection at hStart
        rw [if_pos rfl] at hStart
        rw [← clean_bind_of_pure (fun _ => Checked.clean_pure _)]
        exact ⟨a, hStart⟩
      · exact fun h => absurd (h.1 rfl) hFits

theorem parsePID_clean {memory : Memory} {PID continuity_counter : Nat} {begins : Bool}
    {br : ABitReader} {bytes : List Byte} {k : Nat} (hAt : br.At bytes (8 * k)) :
    (p.parsePID memory br PID continuity_counter begins).Clean ↔
      p.PayloadFits memory PID continuity_counter begins (bytes.drop k) := by
  unfold parsePID PayloadFits
  cases hLookup : p.mPSISections.lookup PID with
  | some s => exact parsePSI_clean hAt
  | none =>
    simp only
    rw [clean_bind_of_pure, firstHandled_stream_clean]
    intro handled
    cases handled with
    | none => exact Checked.clean_pure _
    | some result => exact Checked.clean_pure _

/- A packet is survived exactly if it fits. -/
theorem parseTS_clean (packet : TransportPacket) :
    (p.parseTS packet.memory (ABitReader.create packet.bytes)).Clean ↔ p.PacketFits packet := by
  rcases readTS_reads packet.size with ⟨front, pos, hReads, hSome, hNone⟩
  rcases run_of_reads _ (ABitReader.create_at packet.bytes) hReads with ⟨r, hRun, hAt⟩
  replace hRun : readTS.run (ABitReader.create packet.bytes) = pure (front, r) := hRun
  unfold parseTS PacketFits
  rw [hRun, pure_bind]
  simp only
  cases hPayload : payloadAt packet.bytes with
  | none =>
    have hOther := hNone hPayload
    constructor
    · intro _ begins PID continuity_counter k hEq
      cases hEq
    · intro _
      cases front with
      | none => exact Checked.clean_pure _
      | some f =>
        cases f with
        | badSync => exact Checked.clean_pure _
        | noPayload => exact Checked.clean_pure _
        | payload begins PID continuity_counter => exact absurd trivial (hOther _ rfl)
  | some at_ =>
    rcases at_ with ⟨f, k⟩
    rcases hSome f k hPayload with ⟨hFront, hPos⟩
    rw [hPos] at hAt
    rw [hFront]
    have hIs : f.IsPayload := by
      unfold payloadAt at hPayload
      split at hPayload
      · rcases Option.map_eq_some_iff.mp hPayload with ⟨k', _, hEq⟩
        cases hEq
        exact trivial
      · cases hPayload
    cases f with
    | badSync => cases hIs
    | noPayload => cases hIs
    | payload begins PID continuity_counter =>
      simp only
      rw [parsePID_clean hAt]
      constructor
      · intro h b P c k' hEq
        cases hEq
        exact h
      · intro h
        exact h begins PID continuity_counter k rfl

/-
  No check fails and no length wraps in a run, whatever the packets, exactly if each packet fits
  when it comes.
-/
theorem packets_parsed_iff (packets : List TransportPacket) :
    (feedTS new packets).Clean ↔ PacketsFit new packets := by
  have hAll : ∀ p, (feedTS p packets).Clean ↔ PacketsFit p packets := by
    induction packets with
    | nil =>
      intro p
      exact ⟨fun _ => trivial, fun _ => Checked.clean_pure _⟩
    | cons packet packets ih =>
      intro p
      unfold feedTS PacketsFit
      rw [Checked.clean_bind]
      constructor
      · rintro ⟨r, hParse, hRest⟩
        refine ⟨parseTS_clean packet |>.mp ⟨r, hParse⟩, ?_⟩
        intro r' hParse'
        rw [hParse] at hParse'
        cases hParse'
        exact (ih r.2).mp hRest
      · rintro ⟨hFits, hRest⟩
        rcases (parseTS_clean packet).mpr hFits with ⟨r, hParse⟩
        exact ⟨r, hParse, (ih r.2).mpr (hRest r hParse)⟩
  exact hAll new

/- A pointer field that points behind its packet. -/
def pointerOutside : TransportPacket where
  bytes := [0x47, 0x40, 0x00, 0x10, 0xff] ++ List.replicate 183 0xff
  memory := fun _ => 0
  size := by
    rw [List.length_append, List.length_replicate]
    rfl

theorem pointerOutside_aborts : ¬ ∀ packets, (feedTS new packets).Clean := by
  intro hAll
  rcases hAll [pointerOutside] with ⟨p, hFeed⟩
  have hNone : Option.isNone (feedTS new [pointerOutside]) = true := by
    decide +kernel
  rw [hFeed] at hNone
  cases hNone

end Parser

end ATSParser

end FrameworksAv
