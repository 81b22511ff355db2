import FrameworksAv.ATSParser.Parser
import FrameworksAv.ATSParser.StreamTable

/-
  Sections cut into the payloads of packets.

  `isCRCOkay` takes the length of the pointer field and its filler off the section, although neither
  is in the buffer.

  Main declarations:
    * `Delivery`, `SectionCut`
    * `Parser.feed`, `Parser.expectEach`
    * `SectionCut.feed_eq`
    * `Parser.sections_received`
-/

--
-- Deliveries
--

namespace FrameworksAv

namespace ATSParser

/- The rest of the bytes of the reader, from a whole byte on. -/
def ABitReader.Carries (r : ABitReader) (payload : List Byte) : Prop :=
  ∃ bytes k, r.At bytes (8 * k) ∧ bytes.drop k = payload

/- A call of `parsePID`, and the payload it is for. -/
structure Delivery where
  memory : Memory
  br : ABitReader
  continuity_counter : Nat
  payload_unit_start_indicator : Bool
  payload : List Byte
  carries : br.Carries payload
  short : payload.length ≤ 184

/-
  A section with its syntax indicator set, behind a pointer field and filler, cut into payloads. It
  is complete only with the last one, where anything may follow it.
-/
structure SectionCut where
  sectionBytes : List Byte
  pointer : Byte
  filler : List Byte
  chunk : List Byte
  stuffing : List Byte
  first : Delivery
  rest : List Delivery
  starts : first.payload_unit_start_indicator = true
  continues : ∀ d ∈ rest, d.payload_unit_start_indicator = false
  front : first.payload = pointer :: (filler ++ chunk)
  filler_length : filler.length = pointer.toNat
  pieces : chunk ++ rest.flatMap Delivery.payload = sectionBytes ++ stuffing
  last : rest ≠ [] → (chunk ++ rest.dropLast.flatMap Delivery.payload).length < sectionBytes.length
  header : 3 ≤ sectionBytes.length
  section_length : PSISection.sectionLength ⟨sectionBytes, 0⟩ + 3 = sectionBytes.length
  syntax_indicator : (sectionBytes.getD 1 0).getMsbD 0 = true

namespace SectionCut

variable (c : SectionCut)

def deliveries : List Delivery := c.first :: c.rest

/- What the section holds when it is complete. -/
def whole : PSISection :=
  ⟨c.sectionBytes ++ c.stuffing, (c.pointer.toNat + 1) % 2 ^ 8⟩

end SectionCut

namespace Parser

variable (PID : Nat)

def deliver (p : Parser) (d : Delivery) : Checked (Status × Parser) :=
  p.parsePID d.memory d.br PID d.continuity_counter d.payload_unit_start_indicator

/- The calls in turn, with the status of each. -/
def feed : Parser → List Delivery → Checked (List Status × Parser)
| p, [] => pure ([], p)
| p, d :: ds =>
  p.deliver PID d >>= fun r =>
    feed r.2 ds >>= fun t => pure (r.1 :: t.1, t.2)

/- An intact section is parsed, another one is rejected. -/
def expect (p : Parser) (c : SectionCut) : Checked (Status × Parser) :=
  let q := p.setSection PID c.whole
  if crcOf c.sectionBytes = 0 then q.parseSection PID c.whole
  else pure (.BAD_VALUE, q)

/- Each section once, at its last packet. -/
def expectEach : Parser → List SectionCut → Checked (List Status × Parser)
| p, [] => pure ([], p)
| p, c :: cs =>
  p.expect PID c >>= fun r =>
    expectEach r.2 cs >>= fun t =>
      pure (List.replicate c.rest.length .OK ++ r.1 :: t.1, t.2)

/- Sections are expected on the PID, and will be. -/
def IsPSI (p : Parser) : Prop :=
  (p.mPSISections.lookup PID).isSome ∧
    (PID ≠ 0 → ∃ program ∈ p.mPrograms, program.mProgramMapPID = PID)

end Parser

--
-- Payloads
--

namespace ABitReader

variable {r : ABitReader} {payload : List Byte}

theorem Carries.numBitsLeft (h : r.Carries payload) : r.numBitsLeft = payload.length * 8 := by
  rcases h with ⟨bytes, k, hAt, hDrop⟩
  have hLeft := hAt.numBitsLeft
  rw [← hDrop, List.length_drop]
  omega

theorem Carries.data (h : r.Carries payload) : r.data = payload := by
  rcases h with ⟨bytes, k, hAt, hDrop⟩
  rw [hAt.data_eq, Nat.mul_div_cancel_left _ (by omega), hDrop]

theorem Carries.all (h : r.Carries payload) : r.data.take (r.numBitsLeft / 8) = payload := by
  rw [h.data, h.numBitsLeft, Nat.mul_div_cancel _ (by omega), List.take_length]

/- The pointer field and the filler are read. -/
theorem Carries.readPointer {pointer : Byte} {filler chunk : List Byte}
    (h : r.Carries (pointer :: (filler ++ chunk))) (hFiller : filler.length = pointer.toNat) :
    ∃ r', readPointer.run r = some ((some pointer.toNat, r'), false) ∧ r'.Carries chunk := by
  rcases h with ⟨bytes, k, hAt, hDrop⟩
  have hLength := congrArg List.length hDrop
  rw [List.length_drop, List.length_cons, List.length_append, hFiller] at hLength
  have hByte : bytes[k]? = some pointer := by
    have hGet := congrArg (fun l => l[0]?) hDrop
    simpa using hGet
  have hReads :
      ATSParser.readPointer.reads bytes (8 * k) =
        some (some pointer.toNat, 8 * (k + 1 + pointer.toNat)) := by
    unfold ATSParser.readPointer
    rw [Parse.reads_get_bind, if_pos (by omega), field_byte hByte, Parse.reads_skip_bind,
      if_pos (by omega), Parse.reads_pure]
    congr 2
    omega
  rcases Parse.run_of_reads _ hAt hReads with ⟨r', hRun, hEnd⟩
  refine ⟨r', hRun, bytes, _, hEnd, ?_⟩
  rw [Nat.add_assoc, ← List.drop_drop, hDrop, Nat.add_comm,
    List.drop_succ_cons, ← hFiller, List.drop_left]

end ABitReader

namespace Parser

variable {p : Parser} {PID : Nat}

theorem setSection_setSection (p : Parser) (PID : Nat) (s t : PSISection) :
    (p.setSection PID s).setSection PID t = p.setSection PID t := by
  unfold setSection
  simp only
  congr 1
  apply KeyedVector.ext_lookup
  intro k
  rw [KeyedVector.lookup_add, KeyedVector.lookup_add, KeyedVector.lookup_add]
  split
  · rfl
  · rfl

theorem lookup_setSection (p : Parser) (PID : Nat) (s : PSISection) :
    (p.setSection PID s).mPSISections.lookup PID = some s := by
  unfold setSection
  simp only
  rw [KeyedVector.lookup_add, if_pos rfl]

/- A payload goes on with the section. -/
theorem deliver_more {s : PSISection} {d : Delivery} (hSection : p.mPSISections.lookup PID = some s)
    (hMore : d.payload_unit_start_indicator = false) :
    p.deliver PID d = p.finishSection d.memory PID (s.append d.payload) := by
  unfold deliver parsePID
  rw [hSection, hMore]
  show startSection s false d.br >>= _ = _
  unfold startSection
  rw [if_neg (by decide), pure_bind, d.carries.all, d.carries.numBitsLeft, Nat.mul_mod_left]
  rfl

theorem startSection_first (s : PSISection) {br : ABitReader} {pointer : Byte}
    {filler chunk : List Byte} (h : br.Carries (pointer :: (filler ++ chunk)))
    (hFiller : filler.length = pointer.toNat) :
    ∃ r,
      startSection s true br = pure (⟨[], (pointer.toNat + 1) % 2 ^ 8⟩, r) ∧ r.Carries chunk := by
  rcases h.readPointer hFiller with ⟨r, hRun, hChunk⟩
  refine ⟨r, ?_, hChunk⟩
  have hEmpty : (if s.isEmpty then s else s.clear).mBuffer = [] := by
    split
    · rename_i hNone
      exact List.isEmpty_iff.mp hNone
    · rfl
  replace hRun : readPointer.run br = pure (some pointer.toNat, r) := hRun
  unfold startSection
  rw [if_pos rfl]
  simp only
  rw [hRun, pure_bind]
  unfold PSISection.setSkipBytes
  rw [hEmpty]
  rfl

/- A payload starts a section behind its pointer field. -/
theorem deliver_first (c : SectionCut) {s : PSISection}
    (hSection : p.mPSISections.lookup PID = some s) :
    p.deliver PID c.first =
      p.finishSection c.first.memory PID ⟨c.chunk, (c.pointer.toNat + 1) % 2 ^ 8⟩ := by
  have hCarries := c.first.carries
  rw [c.front] at hCarries
  rcases startSection_first s hCarries c.filler_length with ⟨r, hStart, hChunk⟩
  unfold deliver parsePID
  rw [hSection, c.starts]
  show startSection s true c.first.br >>= _ = _
  rw [hStart, pure_bind, hChunk.all, hChunk.numBitsLeft, Nat.mul_mod_left]
  rfl

/- A section that is not complete waits for more. -/
theorem finishSection_wait (p : Parser) (PID : Nat) (memory : Memory) {s : PSISection}
    (hWait : s.isComplete = false) :
    p.finishSection memory PID s = pure (.OK, p.setSection PID s) := by
  unfold finishSection
  rw [hWait]
  rfl

/- Payloads that do not complete the section are collected. -/
theorem feed_wait {ds : List Delivery} {s : PSISection}
    (hSection : p.mPSISections.lookup PID = some s)
    (hMore : ∀ d ∈ ds, d.payload_unit_start_indicator = false)
    (hWait :
      ∀ k, 0 < k → k ≤ ds.length →
        PSISection.isComplete (s.append ((ds.take k).flatMap Delivery.payload)) = false) :
    ∃ q,
      feed PID p ds = pure (List.replicate ds.length .OK, q) ∧
        q.mPSISections.lookup PID = some (s.append (ds.flatMap Delivery.payload)) ∧
        ∀ t, q.setSection PID t = p.setSection PID t := by
  induction ds generalizing p s with
  | nil =>
    refine ⟨p, rfl, ?_, fun _ => rfl⟩
    rw [hSection]
    unfold PSISection.append
    rw [List.flatMap_nil, List.append_nil]
  | cons d ds ih =>
    have hFirst := hWait 1 (Nat.one_pos) (by simp)
    have hOne : ((d :: ds).take 1).flatMap Delivery.payload = d.payload := by
      simp
    rw [hOne] at hFirst
    have hRest :
        ∀ k, 0 < k → k ≤ ds.length →
          PSISection.isComplete
              ((s.append d.payload).append ((ds.take k).flatMap Delivery.payload)) =
            false := by
      intro k hPos hk
      have hStep := hWait (k + 1) (Nat.succ_pos k) (Nat.succ_le_succ hk)
      rw [List.take_succ_cons, List.flatMap_cons] at hStep
      unfold PSISection.append at hStep ⊢
      simp only at hStep ⊢
      rw [List.append_assoc]
      exact hStep
    rcases ih (lookup_setSection p PID (s.append d.payload))
      (fun e he => hMore e (List.mem_cons_of_mem _ he)) hRest with ⟨q, hFeed, hLookup, hSame⟩
    refine ⟨q, ?_, ?_, ?_⟩
    · unfold feed
      rw [deliver_more hSection (hMore d List.mem_cons_self),
        finishSection_wait p PID d.memory hFirst, pure_bind, hFeed, pure_bind]
      rfl
    · rw [hLookup]
      unfold PSISection.append
      rw [List.flatMap_cons, List.append_assoc]
    · intro t
      rw [hSame, setSection_setSection]

theorem feed_cons (PID : Nat) (p : Parser) (d : Delivery) (ds : List Delivery) :
    feed PID p (d :: ds) = p.deliver PID d >>= fun r =>
        feed PID r.2 ds >>= fun t => pure (r.1 :: t.1, t.2) :=
  rfl

theorem feed_append (PID : Nat) (p : Parser) (ds es : List Delivery) :
    feed PID p (ds ++ es) = feed PID p ds >>= fun r =>
        feed PID r.2 es >>= fun t => pure (r.1 ++ t.1, t.2) := by
  induction ds generalizing p with
  | nil =>
    show _ = (pure ([], p) : Checked (List Status × Parser)) >>= _
    rw [pure_bind, List.nil_append]
    exact Eq.symm (bind_pure _)
  | cons d ds ih =>
    rw [List.cons_append, feed_cons, feed_cons, bind_assoc]
    congr 1
    funext r
    rw [ih, bind_assoc, bind_assoc]
    congr 1
    funext t
    rw [bind_assoc, pure_bind]
    congr 1

end Parser

--
-- Sections
--

namespace PSISection

theorem getD_append {xs ys : List Byte} {i : Nat} (hi : i < xs.length) :
    (xs ++ ys).getD i 0 = xs.getD i 0 := by
  rw [List.getD_eq_getElem?_getD, List.getD_eq_getElem?_getD, List.getElem?_append_left hi]

/- The length is in the first three bytes. -/
theorem sectionLength_append {xs ys : List Byte} {j k : Nat} (hHeader : 3 ≤ xs.length) :
    sectionLength ⟨xs ++ ys, j⟩ = sectionLength ⟨xs, k⟩ := by
  unfold sectionLength
  simp only
  rw [getD_append (by omega), getD_append (by omega)]

/- The bytes of a section up to a byte inside are too few. -/
theorem not_complete_of_prefix {xs ys zs ws : List Byte} {j k : Nat} (hSame : xs ++ ys = zs ++ ws)
    (hHeader : 3 ≤ zs.length) (hLength : sectionLength ⟨zs, k⟩ + 3 = zs.length)
    (hShort : xs.length < zs.length) : isComplete ⟨xs, j⟩ = false := by
  unfold isComplete
  rw [decide_eq_false_iff_not]
  rintro ⟨hThree, hAll⟩
  have hX : sectionLength ⟨xs ++ ys, j⟩ = sectionLength ⟨xs, j⟩ := sectionLength_append hThree
  rw [hSame, sectionLength_append (k := k) hHeader] at hX
  simp only at hAll
  omega

end PSISection

namespace SectionCut

variable (c : SectionCut)

theorem pointer_le : c.pointer.toNat ≤ 183 := by
  have hShort := c.first.short
  rw [c.front, List.length_cons, List.length_append, c.filler_length] at hShort
  omega

theorem whole_sectionLength : c.whole.sectionLength + 3 = c.sectionBytes.length := by
  rw [← c.section_length]
  unfold whole
  rw [PSISection.sectionLength_append c.header]

theorem whole_complete : c.whole.isComplete = true := by
  have hHeader := c.header
  unfold PSISection.isComplete
  rw [decide_eq_true_eq, c.whole_sectionLength]
  unfold whole
  rw [List.length_append]
  omega

/- What there is before the last packet is not complete. -/
theorem wait {xs ys : List Byte} (hPrefix : xs ++ ys = c.sectionBytes ++ c.stuffing)
    (hShort : xs.length < c.sectionBytes.length) (skip : Nat) :
    PSISection.isComplete ⟨xs, skip⟩ = false :=
  PSISection.not_complete_of_prefix hPrefix c.header c.section_length hShort

/-
  The register is zero where it should be: the code stops it before the last bytes of the section,
  as many as the pointer field says.
-/
def Agrees : Prop :=
  c.pointer.toNat ≤ c.sectionBytes.length ∧
    (crcOf (c.sectionBytes.take (c.sectionBytes.length - c.pointer.toNat)) = 0 ↔
      crcOf c.sectionBytes = 0)

theorem agrees_of_pointer_zero (hZero : c.pointer = 0) : c.Agrees := by
  unfold Agrees
  rw [hZero]
  simp

theorem crcLength_whole (hPointer : c.pointer.toNat ≤ c.sectionBytes.length) :
    c.whole.crcLength = c.sectionBytes.length - c.pointer.toNat := by
  have hLength := c.whole_sectionLength
  have hSmall := c.pointer_le
  have hBound : c.whole.sectionLength < 2 ^ 12 := Nat.mod_lt _ (by decide)
  have hSkip : c.whole.mSkipBytes = c.pointer.toNat + 1 := Nat.mod_eq_of_lt (by omega)
  unfold PSISection.crcLength
  rw [hSkip]
  omega

theorem whole_crcOkay (hPointer : c.pointer.toNat ≤ c.sectionBytes.length) (memory : Memory) :
    c.whole.isCRCOkay memory = true ↔
      crcOf (c.sectionBytes.take (c.sectionBytes.length - c.pointer.toNat)) = 0 := by
  have hHeader := c.header
  have hSyntax : (c.whole.mBuffer.getD 1 0).getMsbD 0 = true := by
    rw [← c.syntax_indicator]
    unfold whole
    rw [PSISection.getD_append (by omega)]
  have hInside : c.sectionBytes.length - c.pointer.toNat ≤ c.whole.mBuffer.length := by
    unfold whole
    rw [List.length_append]
    omega
  unfold PSISection.isCRCOkay
  rw [if_pos c.whole_complete, hSyntax, if_neg (by decide), c.crcLength_whole hPointer,
    PSISection.runningCRC_inside _ memory hInside, decide_eq_true_eq]
  unfold whole
  simp only
  rw [List.take_append_of_le_length (by omega)]

end SectionCut

namespace Parser

variable {p : Parser} {PID : Nat}

/- The last packet of a section. -/
theorem finishSection_whole (p : Parser) (PID : Nat) (c : SectionCut) (hAgrees : c.Agrees)
    (memory : Memory) : p.finishSection memory PID c.whole = p.expect PID c := by
  have hOkay := c.whole_crcOkay hAgrees.1 memory
  rw [hAgrees.2] at hOkay
  unfold finishSection expect
  rw [if_pos c.whole_complete]
  simp only
  by_cases hIntact : crcOf c.sectionBytes = 0
  · rw [if_pos hIntact, if_pos (hOkay.mpr hIntact)]
  · rw [if_neg hIntact, if_neg (fun h => hIntact (hOkay.mp h))]

/- A section is parsed or rejected at its last packet. -/
theorem feed_cut (c : SectionCut) (hAgrees : c.Agrees) {s : PSISection}
    (hSection : p.mPSISections.lookup PID = some s) :
    feed PID p c.deliveries = p.expect PID c >>= fun r =>
        pure (List.replicate c.rest.length .OK ++ [r.1], r.2) := by
  unfold SectionCut.deliveries
  rw [feed_cons, deliver_first c hSection]
  have hPieces := c.pieces
  rcases List.eq_nil_or_concat c.rest with
    hNone | ⟨ds, d, hRest⟩
  · rw [hNone, List.flatMap_nil, List.append_nil] at hPieces
    rw [hNone, hPieces]
    show p.finishSection _ PID c.whole >>= _ = _
    rw [finishSection_whole p PID c hAgrees]
    congr 1
  · rw [List.concat_eq_append] at hRest
    have hLast := c.last (by rw [hRest]; simp)
    rw [hRest, List.dropLast_concat, List.length_append] at hLast
    rw [hRest, List.flatMap_append, List.flatMap_singleton, ← List.append_assoc] at hPieces
    have hChunk : PSISection.isComplete ⟨c.chunk, (c.pointer.toNat + 1) % 2 ^ 8⟩ = false := by
      rw [List.append_assoc] at hPieces
      exact c.wait hPieces (by omega) _
    have hWait :
        ∀ k, 0 < k → k ≤ ds.length →
          PSISection.isComplete
              (PSISection.append ⟨c.chunk, (c.pointer.toNat + 1) % 2 ^ 8⟩
                ((ds.take k).flatMap Delivery.payload)) =
            false := by
      intro k _ _
      have hSplit :
          ds.flatMap Delivery.payload =
            (ds.take k).flatMap Delivery.payload ++ (ds.drop k).flatMap Delivery.payload := by
        rw [← List.flatMap_append, List.take_append_drop]
      have hFewer :
          ((ds.take k).flatMap Delivery.payload).length ≤ (ds.flatMap Delivery.payload).length := by
        rw [hSplit, List.length_append]
        omega
      rw [hSplit, ← List.append_assoc, List.append_assoc] at hPieces
      apply c.wait hPieces
      rw [List.length_append]
      omega
    have hMore : ∀ e ∈ ds, e.payload_unit_start_indicator = false := by
      intro e he
      apply c.continues
      rw [hRest]
      exact List.mem_append_left _ he
    have hD : d.payload_unit_start_indicator = false := by
      apply c.continues
      rw [hRest]
      exact List.mem_append_right _ List.mem_cons_self
    rw [finishSection_wait p PID _ hChunk, pure_bind]
    rcases feed_wait (lookup_setSection p PID ⟨c.chunk, (c.pointer.toNat + 1) % 2 ^ 8⟩)
      hMore hWait with ⟨q, hFeed, hLookup, hSame⟩
    have hWhole :
        (PSISection.append
            (PSISection.append ⟨c.chunk, (c.pointer.toNat + 1) % 2 ^ 8⟩
              (ds.flatMap Delivery.payload))
            d.payload) =
          c.whole := by
      unfold PSISection.append SectionCut.whole
      simp only
      rw [hPieces]
    have hEnd : q.finishSection d.memory PID c.whole = p.expect PID c := by
      rw [← finishSection_whole p PID c hAgrees d.memory]
      unfold finishSection
      simp only
      rw [hSame, setSection_setSection]
    simp only
    rw [hRest, feed_append, hFeed, pure_bind, feed_cons, deliver_more hLookup hD, hWhole, hEnd]
    simp only [bind_assoc, pure_bind]
    congr 1
    funext r
    show (pure ([], r.2) : Checked (List Status × Parser)) >>= _ = _
    rw [pure_bind]
    simp [List.replicate_succ]

end Parser

--
-- Runs
--

namespace Program

variable {p q : Program}

theorem addBack_mapPID (temp : List (Nat × Nat)) (new : TypePIDs) (p : Program) :
    (addBack temp new p).2.mProgramMapPID = p.mProgramMapPID := by
  induction temp generalizing new p with
  | nil => rfl
  | cons e temp ih =>
    unfold addBack
    split
    · rfl
    · rfl
    · exact ih _ _

theorem addStreams_mapPID (PCR_PID : Nat) (infos : List StreamInfo) (p : Program) :
    (p.addStreams PCR_PID infos).mProgramMapPID = p.mProgramMapPID := by
  induction infos generalizing p with
  | nil => rfl
  | cons info infos ih =>
    have hOne : (p.addStream PCR_PID info).mProgramMapPID = p.mProgramMapPID := by
      unfold addStream
      split
      · rfl
      · rfl
    exact (ih _).trans hOne

theorem updateStreams_mapPID (PCR_PID : Nat) (infos : List StreamInfo) (p : Program) :
    (p.updateStreams PCR_PID infos).2.mProgramMapPID = p.mProgramMapPID := by
  have hSwitch : (p.switchPIDs infos).2.mProgramMapPID = p.mProgramMapPID := by
    unfold switchPIDs
    split
    · exact addBack_mapPID _ _ _
    · rfl
  unfold updateStreams
  split
  · split
    · rename_i q hEq
      rw [hEq] at hSwitch
      exact (addStreams_mapPID _ _ _).trans hSwitch
    · rename_i q hEq
      rw [hEq] at hSwitch
      exact hSwitch
  · exact addStreams_mapPID _ _ _

/- A section is for the program with its PID, and leaves it. -/
theorem parsePSISection_mapPID {pid : Nat} {sectionBytes : List Byte} {status : Status} {w : Bool}
    (hParse : p.parsePSISection pid (ABitReader.create sectionBytes) = some (some (status, q), w)) :
    q.mProgramMapPID = p.mProgramMapPID := by
  by_cases hPid : pid = p.mProgramMapPID
  · rw [hPid] at hParse
    rcases receive_programMap hParse with ⟨_, hSame⟩ | ⟨PCR_PID, infos, _, hEq⟩
    · rw [hSame]
    · have hUpdated := updateStreams_mapPID PCR_PID infos p
      rw [← hEq] at hUpdated
      exact hUpdated
  · unfold parsePSISection at hParse
    rw [if_pos hPid] at hParse
    cases hParse

theorem parsePSISection_none {pid : Nat} {br : ABitReader} {w : Bool}
    (hParse : p.parsePSISection pid br = some (none, w)) : p.mProgramMapPID ≠ pid := by
  intro hEq
  unfold parsePSISection at hParse
  rw [if_neg (by simp [hEq])] at hParse
  rcases Checked.bind_eq_some.mp hParse with ⟨⟨result, r⟩, _, _, _, hRest, _⟩
  cases result with
  | none => cases hRest
  | some next => cases hRest

end Program

/- Programs that are handled keep what the handler keeps. -/
theorem firstHandled_map {α : Type} {keep : Program → α}
    {handle : Program → Checked (Option (Status × Program))}
    (hKeeps : ∀ program err q w, handle program = some (some (err, q), w) → keep q = keep program)
    {programs next : List Program} {err : Status} {w : Bool}
    (hHandled : firstHandled handle programs = some (some (err, next), w)) :
    next.map keep = programs.map keep := by
  induction programs generalizing next err w with
  | nil => cases hHandled
  | cons program programs ih =>
    rcases Checked.bind_eq_some.mp hHandled with ⟨handled, v, u, hFirst, hRest, _⟩
    cases handled with
    | some result =>
      cases hRest
      rw [List.map_cons, List.map_cons, hKeeps program _ _ _ hFirst]
    | none =>
      rcases Checked.bind_eq_some.mp hRest with ⟨rest, v', u', hLater, hEnd, _⟩
      cases rest with
      | none => cases hEnd
      | some result =>
        cases hEnd
        rw [List.map_cons, List.map_cons, ih hLater]

/- No program has handled what is not handled. -/
theorem firstHandled_none {handle : Program → Checked (Option (Status × Program))}
    {programs : List Program} {w : Bool}
    (hHandled : firstHandled handle programs = some (none, w)) :
    ∀ program ∈ programs, ∃ v, handle program = some (none, v) := by
  induction programs generalizing w with
  | nil =>
    intro program hMem
    cases hMem
  | cons program programs ih =>
    rcases Checked.bind_eq_some.mp hHandled with ⟨handled, v, u, hFirst, hRest, _⟩
    cases handled with
    | some result => cases hRest
    | none =>
      rcases Checked.bind_eq_some.mp hRest with ⟨rest, v', u', hLater, hEnd, _⟩
      cases rest with
      | some result => cases hEnd
      | none =>
        intro other hMem
        rcases List.mem_cons.mp hMem with hEq | hTail
        · rw [hEq]
          exact ⟨v, hFirst⟩
        · exact ih hLater other hTail

namespace Parser

variable {p : Parser} {PID : Nat}

theorem IsPSI.setSection (h : p.IsPSI PID) (s : PSISection) : (p.setSection PID s).IsPSI PID := by
  refine ⟨?_, h.2⟩
  rw [lookup_setSection]
  rfl

/- The PID stays one that sections are expected on. -/
theorem IsPSI.parseSection (h : p.IsPSI PID) {s : PSISection} {r : Status × Parser} {w : Bool}
    (hParse : p.parseSection PID s = some (r, w)) : r.2.IsPSI PID := by
  unfold Parser.parseSection at hParse
  by_cases hZero : PID = 0
  · rw [if_pos hZero] at hParse
    rcases Checked.bind_eq_some.mp hParse with ⟨_, _, _, _, hRest, _⟩
    cases hRest
    refine ⟨?_, fun hNot => absurd hZero hNot⟩
    simp only
    rw [lookup_setSection]
    rfl
  · rw [if_neg hZero] at hParse
    rcases Checked.bind_eq_some.mp hParse with ⟨handled, _, _, hHandled, hRest, _⟩
    rcases h.2 hZero with ⟨program, hMem, hPid⟩
    cases handled with
    | none =>
      rcases firstHandled_none hHandled program hMem with ⟨v, hNone⟩
      exact absurd hPid (Program.parsePSISection_none hNone)
    | some result =>
      rcases result with ⟨err, programs⟩
      have hMap :=
        firstHandled_map
          (fun _ _ _ _ hOne =>
            Program.parsePSISection_mapPID hOne)
          hHandled
      have hStill : ∃ q ∈ programs, q.mProgramMapPID = PID := by
        have hIn : PID ∈ p.mPrograms.map Program.mProgramMapPID :=
          List.mem_map.mpr ⟨program, hMem, hPid⟩
        rw [← hMap] at hIn
        exact List.mem_map.mp hIn
      have hNext :
          ({ p with mPrograms := programs } : Parser).IsPSI
            PID :=
        ⟨h.1, fun _ => hStill⟩
      rcases Checked.pure_eq_some.mp hRest with ⟨hEq, _⟩
      rw [← hEq]
      simp only
      split
      · exact hNext.setSection _
      · exact hNext

theorem IsPSI.expect (h : p.IsPSI PID) {c : SectionCut} {r : Status × Parser} {w : Bool}
    (hExpect : p.expect PID c = some (r, w)) : r.2.IsPSI PID := by
  unfold Parser.expect at hExpect
  simp only at hExpect
  split at hExpect
  · exact (h.setSection c.whole).parseSection hExpect
  · cases hExpect
    exact h.setSection c.whole

/- Two ways to go on that agree where the call can end. -/
theorem bind_congr_some {α β : Type} {x : Checked α} {f g : α → Checked β}
    (hSame : ∀ a w, x = some (a, w) → f a = g a) : x >>= f = x >>= g := by
  rcases x with _ | ⟨a, w⟩
  · rfl
  · show Option.map _ (f a) = Option.map _ (g a)
    rw [hSame a w rfl]

/- Every section is parsed or rejected once, in turn. -/
theorem feed_cuts {cuts : List SectionCut} (hPSI : p.IsPSI PID) (hAgrees : ∀ c ∈ cuts, c.Agrees) :
    feed PID p (cuts.flatMap SectionCut.deliveries) = expectEach PID p cuts := by
  induction cuts generalizing p with
  | nil => rfl
  | cons c cuts ih =>
    rcases Option.isSome_iff_exists.mp hPSI.1 with ⟨s, hSection⟩
    have hFirst := hAgrees c List.mem_cons_self
    rw [List.flatMap_cons, feed_append, feed_cut c hFirst hSection, bind_assoc]
    unfold expectEach
    apply bind_congr_some
    intro r w hExpect
    rw [pure_bind]
    simp only
    rw [ih (hPSI.expect hExpect) (fun d hd => hAgrees d (List.mem_cons_of_mem _ hd))]
    congr 1
    funext t
    rw [List.append_assoc, List.singleton_append]

end Parser

namespace PSISection

/- The loop stays inside the section if this holds. -/
theorem crcLength_le {s : PSISection} (hSkip : s.mSkipBytes ≤ s.sectionLength + 4)
    (hEnd : s.sectionLength + 4 ≤ s.mBuffer.length + s.mSkipBytes) :
    s.crcLength ≤ s.mBuffer.length := by
  have hBound : s.sectionLength < 2 ^ 12 := Nat.mod_lt _ (by decide)
  unfold crcLength
  omega

end PSISection

namespace Parser

variable {p : Parser} {PID : Nat}

/-
  Sections cut in any way are each parsed exactly once, or rejected, if none has a pointer field
  that changes what its checksum is taken over. The loop of the checksum stays inside a section,
  whatever its bytes, with a skip count of at least one and of at most its length and four.
-/
theorem sections_received {cuts : List SectionCut} (hPSI : p.IsPSI PID)
    (hAgrees : ∀ c ∈ cuts, c.Agrees) :
    feed PID p (cuts.flatMap SectionCut.deliveries) = expectEach PID p cuts ∧
      (∀ c ∈ cuts, c.whole.crcLength ≤ c.whole.mBuffer.length) ∧
      ∀ s : PSISection, s.isComplete = true →
        1 ≤ s.mSkipBytes → s.mSkipBytes ≤ s.sectionLength + 4 → s.crcLength ≤ s.mBuffer.length := by
  have hComplete :
      ∀ s : PSISection, s.isComplete = true →
        1 ≤ s.mSkipBytes → s.mSkipBytes ≤ s.sectionLength + 4 → s.crcLength ≤ s.mBuffer.length := by
    intro s hComplete hOne hSkip
    unfold PSISection.isComplete at hComplete
    rw [decide_eq_true_eq] at hComplete
    exact PSISection.crcLength_le hSkip (by omega)
  refine ⟨feed_cuts hPSI hAgrees, ?_, hComplete⟩
  intro c hc
  have hPointer := (hAgrees c hc).1
  have hSmall := c.pointer_le
  have hLength := c.whole_sectionLength
  have hSkip : c.whole.mSkipBytes = c.pointer.toNat + 1 := Nat.mod_eq_of_lt (by omega)
  apply hComplete c.whole c.whole_complete
  · omega
  · omega

/- A program association table with one program. -/
def oneProgram : List Byte :=
  [0x00, 0xb0, 0x0d, 0, 1, 0xc1, 0, 0, 0, 1, 0xe0, 0x20, 0xa2, 0xc3, 0x29, 0x41]

def delivery (begins : Bool) (payload : List Byte) (hShort : payload.length ≤ 184) : Delivery where
  memory := fun _ => 0
  br := ABitReader.create payload
  continuity_counter := 0
  payload_unit_start_indicator := begins
  payload := payload
  carries := ⟨payload, 0, ABitReader.create_at payload, rfl⟩
  short := hShort

/- The table in two payloads, with stuffing behind it. -/
def twoPieces : SectionCut where
  sectionBytes := oneProgram
  pointer := 0
  filler := []
  chunk := oneProgram.take 2
  stuffing := [0xff, 0xff]
  first := delivery true (0 :: oneProgram.take 2) (by decide)
  rest := [delivery false (oneProgram.drop 2 ++ [0xff, 0xff]) (by decide)]
  starts := rfl
  continues := by decide
  front := rfl
  filler_length := rfl
  pieces := rfl
  last := fun _ => by decide
  header := by decide
  section_length := rfl
  syntax_indicator := by decide

theorem sections_received_twoPieces :
    feed 0 new twoPieces.deliveries = expectEach 0 new [twoPieces] := by
  have hPSI : new.IsPSI 0 := ⟨by decide, fun hNot => absurd rfl hNot⟩
  have hAgrees : ∀ c ∈ [twoPieces], c.Agrees := by
    intro c hc
    rw [List.mem_singleton.mp hc]
    exact twoPieces.agrees_of_pointer_zero rfl
  have hReceived := (sections_received hPSI hAgrees).1
  rw [List.flatMap_singleton] at hReceived
  exact hReceived

/- The table behind a pointer field of one byte of filler. -/
def behindFiller : SectionCut where
  sectionBytes := oneProgram
  pointer := 1
  filler := [0xff]
  chunk := oneProgram
  stuffing := []
  first := delivery true (1 :: 0xff :: oneProgram) (by decide)
  rest := []
  starts := rfl
  continues := by decide
  front := rfl
  filler_length := rfl
  pieces := rfl
  last := fun h => absurd rfl h
  header := by decide
  section_length := rfl
  syntax_indicator := by decide

theorem behindFiller_rejected :
    crcOf behindFiller.sectionBytes = 0 ∧
      (Option.any (fun r => r.1.1 = [.BAD_VALUE]) (feed 0 new behindFiller.deliveries)) = true ∧
      (Option.any (fun r => r.1.1 = [.OK]) (expectEach 0 new [behindFiller])) = true := by
  decide +kernel

end Parser

end ATSParser

end FrameworksAv
