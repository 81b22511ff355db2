import FrameworksAv.RTP.Connection

/-
  Compound packets of reports (`ARTPConnection::parseRTCP`).

  Main declarations:
    * `parseSR`, `parseBYE`, `parseRTCP`
    * `ControlPacket`, `compound`
    * `parseLoop_total`, `parseLoop_packet`
    * `compound_told_iff`
-/

--
-- Code
--

namespace FrameworksAv

namespace ARTPConnection

/- A call of a source that is found, or made. -/
def StreamInfo.tell (s : StreamInfo) (call : Nat × Call) : StreamInfo :=
  (s.findSource call.1).call call.1 call.2

def parseBYE (s : StreamInfo) (data : List Byte) (size : Nat) : Option (Status × StreamInfo) :=
  (wordAt data 0 1).bind fun flags =>
  let SC := flags % 0x40
  if SC = 0 ∨ size < 4 + SC * 4 then some (.ERROR, s)
  else (wordAt data 4 4).map fun id => (.OK, s.tell (id, .byeReceived))

def parseSR (s : StreamInfo) (data : List Byte) (size : Nat) : Option (Status × StreamInfo) :=
  (wordAt data 0 1).bind fun flags =>
  let RC := flags % 0x20
  if size < (7 + RC * 6) * 4 then some (.ERROR, s)
  else
    (wordAt data 4 4).bind fun id =>
    (wordAt data 8 8).bind fun ntpTime =>
    (wordAt data 16 4).map fun rtpTime => (.OK, s.tell (id, .timeUpdate rtpTime ntpTime))

/- The `switch`; results are not looked at. -/
def parsePacket (s : StreamInfo) (data : List Byte) (headerLength : Nat) : Option StreamInfo :=
  (wordAt data 1 1).bind fun type =>
  if type = 200 then (parseSR s data headerLength).map Prod.snd
  else if type = 203 then (parseBYE s data headerLength).map Prod.snd
  else some s

/-
  The loop, at most so many turns. `size` is less than what is behind the pointer once there was
  padding.
-/
def parseLoop : Nat → StreamInfo → List Byte → Nat → Option (Status × StreamInfo)
| 0, s, _, size => if size = 0 then some (.OK, s) else none
| turns + 1, s, data, size =>
  if size = 0 then some (.OK, s)
  else if size < 8 then some (.ERROR, s)
  else
    (wordAt data 0 1).bind fun flags =>
    if flags / 0x40 ≠ 2 then some (.ERROR, s)
    else
      (unpadded data flags size).bind fun
      | none => some (.ERROR, s)
      | some size =>
        (wordAt data 2 2).bind fun count =>
        let headerLength := 4 * count + 4
        if size < headerLength then some (.ERROR, s)
        else
          (parsePacket s data headerLength).bind fun s =>
            parseLoop turns s (data.drop headerLength) (size - headerLength)

def parseRTCP (s : StreamInfo) (data : List Byte) : Option (Status × StreamInfo) :=
  parseLoop data.length { s with mNumRTCPPacketsReceived := s.mNumRTCPPacketsReceived + 1 } data
    data.length

--
-- Any Bytes
--

theorem parsePacket_total (s : StreamInfo) {data : List Byte} {headerLength : Nat}
    (hLength : headerLength ≤ data.length) (hData : 8 ≤ data.length) :
    ∃ after, parsePacket s data headerLength = some after := by
  rcases wordAt_inside (show 0 + 1 ≤ data.length by omega) with ⟨flags, hFlags⟩
  rcases wordAt_inside (show 1 + 1 ≤ data.length by omega) with ⟨type, hType⟩
  rcases wordAt_inside (show 4 + 4 ≤ data.length by omega) with ⟨id, hId⟩
  unfold parsePacket
  rw [hType, Option.bind_some]
  split
  · unfold parseSR
    rw [hFlags, Option.bind_some]
    dsimp only
    split
    · exact ⟨_, rfl⟩
    · rcases wordAt_inside (show 8 + 8 ≤ data.length by omega) with ⟨ntpTime, hNtp⟩
      rcases wordAt_inside (show 16 + 4 ≤ data.length by omega) with ⟨rtpTime, hRtp⟩
      rw [hId, hNtp, hRtp]
      exact ⟨_, rfl⟩
  · split
    · unfold parseBYE
      rw [hFlags, Option.bind_some]
      dsimp only
      split
      · exact ⟨_, rfl⟩
      · rw [hId]
        exact ⟨_, rfl⟩
    · exact ⟨_, rfl⟩

/- Every turn takes a header at least. -/
theorem parseLoop_total {turns size : Nat} (s : StreamInfo) {data : List Byte}
    (hSize : size ≤ data.length) (hTurns : size ≤ turns) :
    ∃ status after, parseLoop turns s data size = some (status, after) := by
  induction turns generalizing s data size with
  | zero => exact ⟨_, _, if_pos (Nat.le_zero.mp hTurns)⟩
  | succ turns ih =>
    unfold parseLoop
    split
    · exact ⟨_, _, rfl⟩
    · split
      · exact ⟨_, _, rfl⟩
      · rcases wordAt_inside (show 0 + 1 ≤ data.length by omega) with ⟨flags, hFlags⟩
        rw [hFlags, Option.bind_some]
        split
        · exact ⟨_, _, rfl⟩
        · rcases unpadded_spec flags hSize (by omega) with ⟨result, hUnpadded, hLeft⟩
          rw [hUnpadded, Option.bind_some]
          cases result with
          | none => exact ⟨_, _, rfl⟩
          | some left =>
            have hLess := hLeft left rfl
            rcases wordAt_inside (show 2 + 2 ≤ data.length by omega) with ⟨count, hCount⟩
            rw [hCount]
            dsimp only
            rw [Option.bind_some]
            split
            · exact ⟨_, _, rfl⟩
            · have hInside : 4 * count + 4 ≤ data.length := by omega
              rcases parsePacket_total s hInside (by omega) with ⟨next, hNext⟩
              rw [hNext, Option.bind_some]
              apply ih
              · rw [List.length_drop]
                omega
              · omega

--
-- Compound Packets
--

/- What is behind the first word of a report; what is not read is words. -/
inductive Report
| senderReport (id : BitVec 32) (ntpTime : BitVec 64) (rtpTime : BitVec 32) (rest : List (BitVec 32))
| receiverReport (id : BitVec 32) (rest : List (BitVec 32))
| sourceDescription (chunks : List (BitVec 32))
| bye (id : BitVec 32) (rest : List (BitVec 32))
| app (id name : BitVec 32) (rest : List (BitVec 32))

namespace Report

def type : Report → Nat
| .senderReport .. => 200
| .receiverReport .. => 201
| .sourceDescription .. => 202
| .bye .. => 203
| .app .. => 204

def body : Report → List Byte
| .senderReport id ntpTime rtpTime rest =>
  netOrder 4 id.toNat ++ (netOrder 8 ntpTime.toNat ++ (netOrder 4 rtpTime.toNat ++ words rest))
| .receiverReport id rest => netOrder 4 id.toNat ++ words rest
| .sourceDescription chunks => words chunks
| .bye id rest => netOrder 4 id.toNat ++ words rest
| .app id name rest => netOrder 4 id.toNat ++ (netOrder 4 name.toNat ++ words rest)

def wordCount : Report → Nat
| .senderReport _ _ _ rest => 4 + rest.length
| .receiverReport _ rest => 1 + rest.length
| .sourceDescription chunks => chunks.length
| .bye _ rest => 1 + rest.length
| .app _ _ rest => 2 + rest.length

/- Room for the two counters of a sender and the report blocks, the chunks, or the sources. -/
def Holds (report : Report) (count : Nat) : Prop :=
  match report with
  | .senderReport _ _ _ rest => 2 + 6 * count ≤ rest.length
  | .receiverReport _ rest => 6 * count ≤ rest.length
  | .sourceDescription chunks => 2 * count ≤ chunks.length
  | .bye _ rest => 1 ≤ count ∧ count ≤ 1 + rest.length
  | .app .. => True

/- What has to be told to the sources. -/
def calls : Report → List (Nat × Call)
| .senderReport id ntpTime rtpTime _ => [(id.toNat, .timeUpdate rtpTime.toNat ntpTime.toNat)]
| .bye id _ => [(id.toNat, .byeReceived)]
| _ => []

theorem body_length (report : Report) : report.body.length = 4 * report.wordCount := by
  cases report <;> simp [body, wordCount, words_length] <;> omega

end Report

/- A report with the bits of its count. -/
structure ControlPacket where
  count : Nat
  report : Report
  hCount : count < 32
  hReport : report.Holds count

namespace ControlPacket

/- With words of padding, which the length counts. -/
def bytes (p : ControlPacket) (padding : List (BitVec 32)) : List Byte :=
  netOrder 1 (0x80 + (if padding = [] then 0 else 0x20) + p.count) ++
    (netOrder 1 p.report.type ++
      (netOrder 2 (p.report.wordCount + padding.length) ++ (p.report.body ++ words padding)))

theorem bytes_length (p : ControlPacket) (padding : List (BitVec 32)) :
    (p.bytes padding).length = 4 * (p.report.wordCount + padding.length) + 4 := by
  simp only [bytes, List.length_append, netOrder_length, words_length, p.report.body_length]
  omega

end ControlPacket

/- Padding is at the end of the last packet, and its last byte is its length. -/
structure Compound where
  front : List ControlPacket
  last : ControlPacket
  padding : List (BitVec 32)
  hFront : ∀ p ∈ front, p.report.wordCount < 2 ^ 16
  hLast : last.report.wordCount + padding.length < 2 ^ 16
  hPadding : ∀ word ∈ padding.getLast?, word.toNat % 256 = 4 * padding.length

namespace Compound

def bytes (c : Compound) : List Byte :=
  c.front.flatMap (fun p => p.bytes []) ++ c.last.bytes c.padding

def calls (c : Compound) : List (Nat × Call) :=
  c.front.flatMap (fun p => p.report.calls) ++ c.last.report.calls

end Compound

section Packets

variable (p : ControlPacket) (padding : List (BitVec 32)) (rest : List Byte)

theorem header_reads (hWords : p.report.wordCount + padding.length < 2 ^ 16) :
    wordAt (p.bytes padding ++ rest) 0 1 =
        some (0x80 + (if padding = [] then 0 else 0x20) + p.count) ∧
      wordAt (p.bytes padding ++ rest) 1 1 = some p.report.type ∧
      wordAt (p.bytes padding ++ rest) 2 2 = some (p.report.wordCount + padding.length) := by
  have hCount := p.hCount
  unfold ControlPacket.bytes
  simp only [List.append_assoc]
  generalize p.report.body ++ (words padding ++ rest) = behind
  refine ⟨wordAt_netOrder List.length_nil (by split <;> omega), ?_, ?_⟩
  · exact wordAt_netOrder (netOrder_length 1 _) (by cases p.report <;> simp [Report.type])
  · rw [← List.append_assoc]
    exact wordAt_netOrder (by simp) hWords

/- The body of a packet, where the parsers read it. -/
theorem body_reads {front behind : List Byte} {size value offset : Nat}
    (hBody : p.report.body = front ++ (netOrder size value ++ behind))
    (hOffset : 4 + front.length = offset) (hFits : value < 2 ^ (8 * size)) :
    wordAt (p.bytes [] ++ rest) offset size = some value := by
  have hSplit : p.bytes [] ++ rest =
      (netOrder 1 (0x80 + 0 + p.count) ++ netOrder 1 p.report.type ++
        netOrder 2 (p.report.wordCount + 0) ++ front) ++ (netOrder size value ++ (behind ++ rest)) := by
    simp [ControlPacket.bytes, hBody, words]
  rw [hSplit]
  apply wordAt_netOrder _ hFits
  simp only [List.length_append, netOrder_length]
  omega

/- Everything of a report is told. -/
theorem parsePacket_told (s : StreamInfo) (hWords : p.report.wordCount < 2 ^ 16) :
    parsePacket s (p.bytes [] ++ rest) (4 * p.report.wordCount + 4) =
      some (p.report.calls.foldl StreamInfo.tell s) := by
  have hCount := p.hCount
  have hReport := p.hReport
  rcases header_reads p [] rest hWords with ⟨hFlags, hType, -⟩
  rw [if_pos rfl] at hFlags
  unfold parsePacket
  rw [hType, Option.bind_some]
  cases hKind : p.report with
  | senderReport id ntpTime rtpTime values =>
    rw [hKind] at hReport
    have hRoom : 2 + 6 * p.count ≤ values.length := hReport
    have hId : wordAt (p.bytes [] ++ rest) 4 4 = some id.toNat :=
      @body_reads p rest [] _ 4 _ 4 (by rw [hKind]; rfl) rfl id.isLt
    have hNtp : wordAt (p.bytes [] ++ rest) 8 8 = some ntpTime.toNat :=
      @body_reads p rest (netOrder 4 id.toNat) _ 8 _ 8 (by rw [hKind]; rfl) (by simp) ntpTime.isLt
    have hRtp : wordAt (p.bytes [] ++ rest) 16 4 = some rtpTime.toNat :=
      @body_reads p rest (netOrder 4 id.toNat ++ netOrder 8 ntpTime.toNat) (words values) 4 _ 16
        (by rw [hKind, Report.body, List.append_assoc]) (by simp) rtpTime.isLt
    change (parseSR s _ (4 * (4 + values.length) + 4)).map Prod.snd = _
    rw [parseSR, hFlags, Option.bind_some]
    dsimp only
    rw [if_neg (by omega), hId, hNtp, hRtp]
    exact rfl
  | receiverReport id values => exact rfl
  | sourceDescription chunks => exact rfl
  | bye id values =>
    rw [hKind] at hReport
    have hRoom : 1 ≤ p.count ∧ p.count ≤ 1 + values.length := hReport
    have hId : wordAt (p.bytes [] ++ rest) 4 4 = some id.toNat :=
      @body_reads p rest [] _ 4 _ 4 (by rw [hKind]; rfl) rfl id.isLt
    change (parseBYE s _ (4 * (1 + values.length) + 4)).map Prod.snd = _
    rw [parseBYE, hFlags, Option.bind_some]
    dsimp only
    rw [if_neg (by omega), hId]
    exact rfl
  | app id name values => exact rfl

/- A turn for a packet without padding, when there are eight bytes. -/
theorem parseLoop_packet (turns : Nat) (s : StreamInfo) (hWords : p.report.wordCount < 2 ^ 16)
    (hRoom : 4 ≤ 4 * p.report.wordCount + rest.length) :
    parseLoop (turns + 1) s (p.bytes [] ++ rest) (p.bytes [] ++ rest).length =
      parseLoop turns (p.report.calls.foldl StreamInfo.tell s) rest rest.length := by
  have hCount := p.hCount
  have hLength : (p.bytes [] ++ rest).length = 4 * p.report.wordCount + 4 + rest.length := by
    rw [List.length_append, p.bytes_length, List.length_nil]
    exact rfl
  have hBytes : (p.bytes []).length = 4 * p.report.wordCount + 4 := p.bytes_length []
  rcases header_reads p [] rest hWords with ⟨hFlags, -, hWord⟩
  rw [if_pos rfl] at hFlags
  rw [List.length_nil, Nat.add_zero] at hWord
  rw [parseLoop, hLength, if_neg (by omega), if_neg (by omega), hFlags, Option.bind_some,
    if_neg (by omega), unpadded, if_pos (by omega), Option.bind_some]
  dsimp only
  rw [hWord, Option.bind_some, if_neg (by omega), parsePacket_told p rest s hWords, Option.bind_some,
    ← hBytes, List.drop_left, Nat.add_sub_cancel_left]

end Packets

theorem netOrder_succ (size value : Nat) :
    netOrder (size + 1) value = netOrder size (value / 256) ++ netOrder 1 (value % 256) := by
  have hByte : BitVec.ofNat 8 (value % 256) = BitVec.ofNat 8 value := by
    apply BitVec.eq_of_toNat_eq
    rw [BitVec.toNat_ofNat, BitVec.toNat_ofNat]
    omega
  simp [netOrder, littleEndian, hByte]

/- The last byte of padding is its length. -/
theorem padding_reads (c : Compound) (hPadding : c.padding ≠ []) :
    wordAt (c.last.bytes c.padding) ((c.last.bytes c.padding).length - 1) 1 =
      some (4 * c.padding.length) := by
  rcases List.eq_nil_or_concat c.padding with hNone | ⟨front, word, hSome⟩
  · exact absurd hNone hPadding
  · have hCount := c.hPadding word (by simp [hSome])
    have hWords : words c.padding =
        (words front ++ netOrder 3 (word.toNat / 256)) ++ netOrder 1 (word.toNat % 256) := by
      rw [hSome, List.append_assoc, ← netOrder_succ]
      simp [words]
    have hLength := c.last.bytes_length c.padding
    have hSplit : ∃ before, c.last.bytes c.padding =
        before ++ (netOrder 1 (4 * c.padding.length) ++ []) := by
      rw [ControlPacket.bytes, hWords, hCount]
      exact ⟨_, by simp only [← List.append_assoc, List.append_nil]; rfl⟩
    rcases hSplit with ⟨before, hBytes⟩
    have hFits : 4 * c.padding.length < 2 ^ (8 * 1) := by
      rw [← hCount]
      exact Nat.mod_lt _ (by decide)
    have hOffset : before.length = (c.last.bytes c.padding).length - 1 := by
      rw [hBytes]
      simp
    have hRead := @wordAt_netOrder before [] 1 _ _ hOffset hFits
    exact (congrArg (wordAt · _ 1) hBytes).trans hRead

/- A last packet without eight bytes, or with padding, is refused. -/
theorem parseLoop_refused (turns : Nat) (s : StreamInfo) (c : Compound)
    (hRefused : c.padding ≠ [] ∨ c.last.report.wordCount = 0) :
    parseLoop (turns + 1) s (c.last.bytes c.padding) (c.last.bytes c.padding).length =
      some (.ERROR, s) := by
  have hCount := c.last.hCount
  have hLength := c.last.bytes_length c.padding
  rw [parseLoop]
  by_cases hPadding : c.padding = []
  · have hZero := hRefused.resolve_left (not_not.mpr hPadding)
    rw [hPadding, List.length_nil, hZero] at hLength
    rw [hPadding, if_neg (by omega), if_pos (by omega)]
  · have hPositive : 0 < c.padding.length := List.length_pos_iff.mpr hPadding
    have hRead := padding_reads c hPadding
    rcases header_reads c.last c.padding [] c.hLast with ⟨hFlags, -, hWord⟩
    rw [List.append_nil] at hFlags hWord
    rw [if_neg hPadding] at hFlags
    rw [if_neg (by omega), if_neg (by omega), hFlags, Option.bind_some, if_neg (by omega), unpadded,
      if_neg (by omega), hRead, Option.map_some, Option.bind_some]
    split
    · exact rfl
    · rename_i left hLeft
      split at hLeft
      · cases hLeft
      · cases hLeft
        rw [hWord, Option.bind_some, if_pos (by omega)]

theorem parseLoop_front (s : StreamInfo) {front : List ControlPacket} {rest : List Byte}
    (hFront : ∀ p ∈ front, p.report.wordCount < 2 ^ 16) (hRest : 4 ≤ rest.length) (turns : Nat) :
    parseLoop (turns + front.length) s (front.flatMap (fun p => p.bytes []) ++ rest)
        (front.flatMap (fun p => p.bytes []) ++ rest).length =
      parseLoop turns ((front.flatMap (fun p => p.report.calls)).foldl StreamInfo.tell s) rest
        rest.length := by
  induction front generalizing s with
  | nil => exact rfl
  | cons p front ih =>
    rcases List.forall_mem_cons.mp hFront with ⟨hFirst, hOthers⟩
    rw [List.flatMap_cons, List.flatMap_cons, List.append_assoc, List.foldl_append,
      List.length_cons, ← Nat.add_assoc, parseLoop_packet p _ _ s hFirst, ih _ hOthers]
    rw [List.length_append]
    omega

theorem foldl_tell (calls : List (Nat × Call)) (s : StreamInfo) :
    (calls.foldl StreamInfo.tell s).calls = s.calls ++ calls := by
  induction calls generalizing s with
  | nil => exact (List.append_nil _).symm
  | cons call calls ih =>
    rw [List.foldl_cons, ih]
    exact List.append_assoc _ [call] calls

theorem length_le_flatMap (front : List ControlPacket) :
    front.length ≤ (front.flatMap fun p => p.bytes []).length := by
  induction front with
  | nil => exact Nat.le_refl 0
  | cons p front ih =>
    rw [List.flatMap_cons, List.length_append, List.length_cons, p.bytes_length]
    omega

/-
  Of any bytes nothing is read outside, and the loop ends. A compound packet is accepted and told to
  its sources unless the last packet has padding, or only four bytes.
-/
theorem compound_told_iff (s : StreamInfo) (c : Compound) (data : List Byte) :
    ((∃ after, parseRTCP s c.bytes = some (.OK, after) ∧ after.calls = s.calls ++ c.calls) ↔
      c.padding = [] ∧ 0 < c.last.report.wordCount) ∧
      ∃ status after, parseRTCP s data = some (status, after) := by
  refine ⟨?_, parseLoop_total _ (Nat.le_refl _) (Nat.le_refl _)⟩
  have hLast : 4 ≤ (c.last.bytes c.padding).length := by
    rw [c.last.bytes_length]
    omega
  have hEnough : ∃ turns, c.bytes.length = turns + 1 + c.front.length := by
    have hFront := length_le_flatMap c.front
    refine ⟨c.bytes.length - c.front.length - 1, ?_⟩
    rw [Compound.bytes, List.length_append]
    omega
  rcases hEnough with ⟨turns, hTurns⟩
  have hReceived : ∃ received : StreamInfo,
      parseRTCP s c.bytes = parseLoop c.bytes.length received c.bytes c.bytes.length ∧
        received.calls = s.calls := ⟨_, rfl, rfl⟩
  rcases hReceived with ⟨received, hParse, hCalls⟩
  have hFront := parseLoop_front received c.hFront hLast (turns + 1)
  rw [← Compound.bytes, ← hTurns] at hFront
  rw [hParse, hFront, ← hCalls]
  by_cases hAccepted : c.padding = [] ∧ 0 < c.last.report.wordCount
  · refine iff_of_true ?_ hAccepted
    have hWords : c.last.report.wordCount < 2 ^ 16 :=
      Nat.lt_of_le_of_lt (Nat.le_add_right _ _) c.hLast
    have hPacket := fun s => parseLoop_packet c.last [] turns s hWords (by simp; omega)
    simp only [List.append_nil] at hPacket
    rw [hAccepted.1, hPacket, ← List.foldl_append]
    refine ⟨c.calls.foldl StreamInfo.tell received, ?_, foldl_tell c.calls received⟩
    cases turns with
    | zero => exact rfl
    | succ turns => exact rfl
  · refine iff_of_false ?_ hAccepted
    rintro ⟨after, hParsed, -⟩
    have hRefused := (not_and_or.mp hAccepted).imp_right Nat.eq_zero_of_not_pos
    rw [parseLoop_refused turns _ c hRefused] at hParsed
    cases hParsed

/- A BYE of one source with a word of padding: neither is it told nor is the result good. -/
theorem compound_not_told :
    parseRTCP ⟨0, 0, [], []⟩ [0xA1, 203, 0, 2, 0, 0, 0, 7, 0, 0, 0, 4] =
      some (.ERROR, ⟨0, 1, [], []⟩) := by
  decide

end ARTPConnection

end FrameworksAv
