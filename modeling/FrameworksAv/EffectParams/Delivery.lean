import FrameworksAv.EffectParams.Commands

/-
  When the effect receives what was queued.

  The last record is never delivered, and each earlier one ends with the size of the next record.
  Only a parameter that the effect rejects before the last one ends the loop as intended, and then
  there is no room for its reply.

  Main declarations:
    * `expected`, `Delivered`
    * `Commits`
    * `loop_laid`
    * `exec_deferred`
-/

--
-- Specification
--

namespace FrameworksAv

namespace EffectParams

variable {σ : Type}

/- The effect does not accept a parameter. -/
def Answer.Rejected (answer : Answer σ) : Prop :=
  answer.status ≠ NO_ERROR ∨ answer.reply ≠ NO_ERROR

instance (answer : Answer σ) : Decidable answer.Rejected :=
  inferInstanceAs (Decidable (_ ∨ _))

/- The parameters up to the first one that is rejected. -/
def expected (module : Module σ) : σ → List Param → List (List Byte)
| _, [] => []
| s, p :: ps =>
  let answer := module s p.bytes
  p.bytes :: if answer.Rejected then [] else expected module answer.next ps

/- The effect receives what is expected, and success means that it received everything. -/
structure Delivered (module : Module σ) (s : σ) (ps : List Param)
    (out : Result × Handle σ) : Prop where
  received : out.2.received = expected module s ps
  honest : out.1 = .returned NO_ERROR → out.2.received = ps.map Param.bytes

/- A parameter before the last one is rejected, and all up to it are intact. -/
def Commits (module : Module σ) : σ → List Param → Prop
| _, [] => False
| s, p :: ps =>
  let answer := module s p.bytes
  p.Intact ps ∧ (answer.Rejected ∨ Commits module answer.next ps)

/- A command is shorter than a wrapped parameter. -/
theorem ne_expected_of_wrapped (module : Module σ) (s : σ) {p : Param} (ps : List Param)
    (hWrapped : 2 ^ 32 ≤ p.bytes.length) {received : List (List Byte)}
    (hShort : ∀ bytes ∈ received, bytes.length < 2 ^ 32) :
    received ≠ expected module s (p :: ps) := by
  intro hEq
  have hMem : p.bytes ∈ received := by
    rw [hEq, expected]
    exact List.mem_cons_self
  have hLt := hShort _ hMem
  omega

theorem not_commits_of_wrapped (module : Module σ) (s : σ) {p : Param} (ps : List Param)
    (hWrapped : 2 ^ 32 ≤ p.bytes.length) : ¬ Commits module s (p :: ps) := by
  intro hCommits
  have hFits := hCommits.1.1
  simp only [bufferSize] at hFits
  omega

--
-- One Record
--

namespace Param

variable {p : Param}

theorem bytes_psize (p : Param) : (p.bytes.drop 4).take 4 = le32 p.psize := by
  simp only [bytes, List.append_assoc]
  rw [List.drop_left' (le32_length p.status), List.take_left' (le32_length p.psize)]

theorem bytes_vsize (p : Param) : (p.bytes.drop 8).take 4 = le32 p.vsize := by
  have hSplit : p.bytes.drop 8 = (p.bytes.drop 4).drop 4 := by
    rw [List.drop_drop]
  rw [hSplit]
  simp only [bytes, List.append_assoc]
  rw [List.drop_left' (le32_length p.status), List.drop_left' (le32_length p.psize),
    List.take_left' (le32_length p.vsize)]

/- A word of the header, read from the buffer. -/
theorem header_word {mem : Memory} {start skip count : Nat} {value : Word}
    (hBytes : mem.load start count = p.bytes.take count) (hInside : skip + 4 ≤ count)
    (hValue : (p.bytes.drop skip).take 4 = le32 value) : mem.word (start + skip) = value := by
  apply Memory.word_of_load
  rw [Memory.load_inside mem start hInside, hBytes, List.drop_take, List.take_take,
    Nat.min_eq_left (by omega), hValue]

/- What the server loads ends with the next size. -/
theorem load_eq_bytes_iff {mem : Memory} {start kept : Nat} {value : Word}
    (hKept : kept ≤ p.bytes.length) (hTail : p.bytes.length ≤ kept + 4)
    (hBytes : mem.load start kept = p.bytes.take kept)
    (hNext : mem.load (start + kept) 4 = le32 value) :
    mem.load start p.bytes.length = p.bytes ↔ p.bytes.drop kept <+: le32 value := by
  rcases Nat.exists_eq_add_of_le hKept with ⟨tail, hLength⟩
  have hOver : mem.load (start + kept) tail = (le32 value).take tail := by
    have hInside :
        mem.load (start + kept + 0) tail = ((mem.load (start + kept) 4).drop 0).take tail :=
      Memory.load_inside mem (start + kept) (by omega)
    rw [Nat.add_zero, List.drop_zero, hNext] at hInside
    exact hInside
  have hLoad : mem.load start p.bytes.length = p.bytes.take kept ++ (le32 value).take tail := by
    rw [hLength, Memory.load_add, hBytes, hOver]
  have hDrop : (p.bytes.drop kept).length = tail := by
    rw [List.length_drop]
    omega
  rw [hLoad, List.prefix_iff_eq_take, hDrop]
  conv_lhs => rhs; rw [← List.take_append_drop kept p.bytes]
  rw [List.append_cancel_left_eq]
  exact eq_comm

end Param

namespace Handle

variable {h : Handle σ} {module : Module σ}

/- Without room for a reply, a rejection is a bad access. -/
theorem setParam_cases (hReply : h.pReplyData = none) (size : Word) (bytes : List Byte) :
    h.setParam module size bytes =
      if (module h.effect bytes).Rejected then
        (some .fault, h.receive bytes (module h.effect bytes).next)
      else (none, (h.receive bytes (module h.effect bytes).next).skip size) := by
  have hStop :
      ∀ status reply,
        (h.receive bytes (module h.effect bytes).next).stop status reply =
          (some .fault, h.receive bytes (module h.effect bytes).next) := by
    intro status reply
    unfold stop
    rw [show (h.receive bytes (module h.effect bytes).next).pReplyData = none from hReply]
  unfold setParam
  simp only [hStop]
  by_cases hStatus : (module h.effect bytes).status ≠ NO_ERROR
  · have hRejected : (module h.effect bytes).Rejected := Or.inl hStatus
    rw [if_pos hStatus, if_pos hRejected]
  · by_cases hAnswer : (module h.effect bytes).reply ≠ NO_ERROR
    · have hRejected : (module h.effect bytes).Rejected := Or.inr hAnswer
      rw [if_neg hStatus, if_pos hAnswer, if_pos hRejected]
    · have hAccepted : ¬ (module h.effect bytes).Rejected := by
        rintro (hBad | hBad)
        · exact hStatus hBad
        · exact hAnswer hBad
      rw [if_neg hStatus, if_neg hAnswer, if_neg hAccepted]

/- A record that reaches past `clientIndex` ends the loop. -/
theorem turn_last {size : Word} (hSize : h.cblk.buffer.word h.cblk.serverIndex.toNat = size)
    (hPast :
      (h.cblk.clientIndex.toNat : Int) <
        (h.cblk.serverIndex.toNat + sizeofInt : Nat) + size.toInt) :
    h.turn module = (some (.returned NO_ERROR), h) := by
  unfold turn
  simp only [hSize]
  rw [if_pos hPast]

/- Any other record is skipped or is a command. -/
theorem turn_record {size : Word} (hSize : h.cblk.buffer.word h.cblk.serverIndex.toNat = size)
    (hRoom : (h.cblk.serverIndex.toNat + sizeofInt : Nat) + size.toInt ≤ h.cblk.clientIndex.toNat) :
    h.turn module = (none, h.skip size) ∨
      ∃ cmdSize : Word,
        h.turn module =
          h.setParam module size
            (h.cblk.buffer.load (h.cblk.serverIndex.toNat + sizeofInt) cmdSize.toNat) := by
  unfold turn
  simp only [hSize]
  rw [if_neg (Int.not_lt.mpr hRoom)]
  split
  · exact Or.inl rfl
  · exact Or.inr ⟨_, rfl⟩

/- A whole parameter is a command of its own length. -/
theorem turn_whole {p : Param} (hSize : h.cblk.buffer.word h.cblk.serverIndex.toNat = p.recordSize)
    (hRoom :
      (h.cblk.serverIndex.toNat + sizeofInt : Nat) + p.recordSize.toInt ≤ h.cblk.clientIndex.toNat)
    (hStored : p.Stored bufferSize) (hWhole : p.copySize = p.bytes.length)
    (hBytes :
      h.cblk.buffer.load (h.cblk.serverIndex.toNat + sizeofInt) (p.recordSize.toNat - sizeofInt) =
        p.bytes.take (p.recordSize.toNat - sizeofInt)) :
    h.turn module =
      h.setParam module p.recordSize
        (h.cblk.buffer.load (h.cblk.serverIndex.toNat + sizeofInt) p.bytes.length) := by
  have hRecord := hStored.record
  have hRecordLe := hStored.record_le
  have hLength := p.bytes_length
  have hPsize : h.cblk.buffer.word (h.cblk.serverIndex.toNat + sizeofInt + 4) = p.psize := by
    apply Param.header_word hBytes _ p.bytes_psize
    simp only [sizeofParam, sizeofInt, padded] at *
    omega
  have hVsize : h.cblk.buffer.word (h.cblk.serverIndex.toNat + sizeofInt + 8) = p.vsize := by
    apply Param.header_word hBytes _ p.bytes_vsize
    simp only [sizeofParam, sizeofInt, padded] at *
    omega
  have hCommand :
      (BitVec.ofNat 32
          (sizeofParam + padded p.psize.toNat + p.vsize.toNat)).toNat = p.bytes.length := by
    rw [BitVec.toNat_ofNat, ← hLength]
    apply Nat.mod_eq_of_lt
    simp only [bufferSize] at *
    omega
  unfold turn
  simp only [hSize, hPsize, hVsize, hCommand]
  rw [if_neg (Int.not_lt.mpr hRoom), if_neg]
  rintro (hZero | hZero)
  · exact hStored.psize hZero
  · exact hStored.vsize hZero

end Handle

--
-- The Loop
--

namespace Handle

variable {h h' : Handle σ} {module : Module σ} {fuel : Nat}

theorem loop_some {result : Result} (hMore : h.cblk.serverIndex.toNat < h.cblk.clientIndex.toNat)
    (hTurn : h.turn module = (some result, h')) : h.loop module (fuel + 1) = (result, h') := by
  rw [loop, if_pos hMore, hTurn]

theorem loop_none (hMore : h.cblk.serverIndex.toNat < h.cblk.clientIndex.toNat)
    (hTurn : h.turn module = (none, h')) : h.loop module (fuel + 1) = h'.loop module fuel := by
  rw [loop, if_pos hMore, hTurn]

/- A command ends the loop or is followed by the next one. -/
theorem loop_command (hMore : h.cblk.serverIndex.toNat < h.cblk.clientIndex.toNat)
    (hReply : h.pReplyData = none) {size : Word} {bytes : List Byte}
    (hTurn : h.turn module = h.setParam module size bytes) :
    h.loop module (fuel + 1) =
      if (module h.effect bytes).Rejected then
        (.fault, h.receive bytes (module h.effect bytes).next)
      else ((h.receive bytes (module h.effect bytes).next).skip size).loop module fuel := by
  rw [setParam_cases hReply] at hTurn
  by_cases hRejected : (module h.effect bytes).Rejected
  · rw [if_pos hRejected] at hTurn ⊢
    exact loop_some hMore hTurn
  · rw [if_neg hRejected] at hTurn ⊢
    exact loop_none hMore hTurn

end Handle

/- The outcome of the loop over records. -/
structure Served (module : Module σ) (h : Handle σ) (ps : List Param)
    (out : Result × Handle σ) : Prop where
  ends : out.1 ≠ .running
  fault : Commits module h.effect ps → out.1 = .fault
  received :
    ∃ received,
      out.2.received = h.received ++ received ∧ (∀ bytes ∈ received, bytes.length < 2 ^ 32) ∧
        (received = expected module h.effect ps ↔ ps = [] ∨ Commits module h.effect ps)

namespace Served

variable {module : Module σ} {h : Handle σ} {p : Param} {ps : List Param} {out : Result × Handle σ}

/- Nothing else is received. -/
theorem of_nothing (hEnds : out.1 ≠ .running) (hSame : out.2.received = h.received)
    (hNot : ¬ Commits module h.effect (p :: ps)) : Served module h (p :: ps) out where
  ends := hEnds
  fault := fun hCommits => absurd hCommits hNot
  received := by
    refine ⟨[], ?_, by simp, ?_⟩
    · rw [hSame, List.append_nil]
    · simp [expected, hNot]

/- A wrapped parameter is never received. -/
theorem of_wrapped (hWrapped : 2 ^ 32 ≤ p.bytes.length) (hEnds : out.1 ≠ .running)
    {received : List (List Byte)} (hReceived : out.2.received = h.received ++ received)
    (hShort : ∀ bytes ∈ received, bytes.length < 2 ^ 32) : Served module h (p :: ps) out where
  ends := hEnds
  fault := by
    intro hCommits
    exact absurd hCommits (not_commits_of_wrapped module h.effect ps hWrapped)
  received := by
    refine ⟨received, hReceived, hShort, ?_⟩
    have hNe := ne_expected_of_wrapped module h.effect ps hWrapped hShort
    have hNot := not_commits_of_wrapped module h.effect ps hWrapped
    simp [hNe, hNot]

/- A command and what the loop behind it receives. -/
theorem behind {bytes : List Byte} (hBytes : bytes.length < 2 ^ 32) {next : σ} {size : Word}
    (hServed : Served module ((h.receive bytes next).skip size) ps out) :
    ∃ received,
      out.2.received = h.received ++ bytes :: received ∧
        (∀ b ∈ bytes :: received, b.length < 2 ^ 32) ∧
        (received = expected module next ps ↔ ps = [] ∨ Commits module next ps) := by
  rcases hServed.received with ⟨received, hReceived, hShort, hIff⟩
  refine ⟨received, ?_, ?_, hIff⟩
  · rw [hReceived]
    exact List.append_assoc h.received [bytes] received
  · intro b hMem
    rcases List.mem_cons.mp hMem with hFirst | hLater
    · rw [hFirst]
      exact hBytes
    · exact hShort b hLater

/- An altered parameter stays altered. -/
theorem of_altered (hEnds : out.1 ≠ .running) {bytes : List Byte} {received : List (List Byte)}
    (hReceived : out.2.received = h.received ++ bytes :: received)
    (hShort : ∀ b ∈ bytes :: received, b.length < 2 ^ 32) (hAltered : bytes ≠ p.bytes)
    (hNot : ¬ Commits module h.effect (p :: ps)) : Served module h (p :: ps) out where
  ends := hEnds
  fault := fun hCommits => absurd hCommits hNot
  received := by
    refine ⟨bytes :: received, hReceived, hShort, ?_⟩
    simp [expected, hAltered, hNot]

end Served

/- The server goes on behind a record. -/
theorem Handle.skip_serverIndex {h : Handle σ} {size : Word}
    (hRoom : h.cblk.serverIndex.toNat + size.toNat < 2 ^ 32) :
    (h.skip size).cblk.serverIndex.toNat = h.cblk.serverIndex.toNat + size.toNat := by
  simp only [skip, BitVec.toNat_add]
  exact Nat.mod_eq_of_lt hRoom

section Record

variable {module : Module σ} {p : Param} {ps : List Param} {h : Handle σ} {fuel : Nat}

/- A record of a wrapped parameter. -/
theorem served_wrapped (hMore : h.cblk.serverIndex.toNat < h.cblk.clientIndex.toNat)
    (hReply : h.pReplyData = none) (hWrapped : 2 ^ 32 ≤ p.bytes.length)
    (hWord : h.cblk.buffer.word h.cblk.serverIndex.toNat = p.recordSize)
    (hRoom :
      (h.cblk.serverIndex.toNat + sizeofInt : Nat) + p.recordSize.toInt ≤ h.cblk.clientIndex.toNat)
    (hSkip :
      ∀ t : Handle σ, t.cblk = h.cblk → t.pReplyData = none →
        Served module (t.skip p.recordSize) ps ((t.skip p.recordSize).loop module fuel)) :
    Served module h (p :: ps) (h.loop module (fuel + 1)) := by
  rcases Handle.turn_record hWord hRoom with
    hTurn | ⟨cmdSize, hTurn⟩
  · have hServed := hSkip h rfl hReply
    rcases hServed.received with ⟨received, hReceived, hShort, _⟩
    rw [Handle.loop_none hMore hTurn]
    exact Served.of_wrapped hWrapped hServed.ends hReceived hShort
  · let bytes := h.cblk.buffer.load (h.cblk.serverIndex.toNat + sizeofInt) cmdSize.toNat
    have hBytes : bytes.length < 2 ^ 32 := by
      rw [Memory.load_length]
      exact cmdSize.isLt
    rw [Handle.loop_command hMore hReply hTurn]
    by_cases hRejected : (module h.effect bytes).Rejected
    · rw [if_pos hRejected]
      apply Served.of_wrapped hWrapped (by simp) rfl
      intro b hMem
      rw [List.mem_singleton.mp hMem]
      exact hBytes
    · rw [if_neg hRejected]
      have hServed := hSkip (h.receive bytes (module h.effect bytes).next) rfl hReply
      rcases hServed.behind hBytes with ⟨received, hReceived, hShort, _⟩
      exact Served.of_wrapped hWrapped hServed.ends hReceived hShort

/- A record of a parameter that fits. -/
theorem served_whole (hMore : h.cblk.serverIndex.toNat < h.cblk.clientIndex.toNat)
    (hReply : h.pReplyData = none) (hStored : p.Stored bufferSize)
    (hWhole : p.copySize = p.bytes.length)
    (hWord : h.cblk.buffer.word h.cblk.serverIndex.toNat = p.recordSize)
    (hRoom :
      (h.cblk.serverIndex.toNat + sizeofInt : Nat) + p.recordSize.toInt ≤ h.cblk.clientIndex.toNat)
    (hBytes :
      h.cblk.buffer.load (h.cblk.serverIndex.toNat + sizeofInt) (p.recordSize.toNat - sizeofInt) =
        p.bytes.take (p.recordSize.toNat - sizeofInt))
    {q : Param} (hNext : nextRecord ps = some q)
    (hAfter :
      h.cblk.buffer.load (h.cblk.serverIndex.toNat + p.recordSize.toNat)
          sizeofInt = le32 q.recordSize)
    (hSkip :
      ∀ t : Handle σ, t.cblk = h.cblk → t.pReplyData = none →
        Served module (t.skip p.recordSize) ps ((t.skip p.recordSize).loop module fuel)) :
    Served module h (p :: ps) (h.loop module (fuel + 1)) := by
  have hTurn : h.turn module = _ := Handle.turn_whole hWord hRoom hStored hWhole hBytes
  have hRecord := hStored.record
  have hRecordLe := hStored.record_le
  have hLength := p.bytes_length
  simp only [sizeofParam, padded] at hLength
  have hSame :
      h.cblk.buffer.load (h.cblk.serverIndex.toNat + sizeofInt) p.bytes.length = p.bytes ↔
        p.bytes.drop (p.recordSize.toNat - sizeofInt) <+: le32 q.recordSize := by
    apply Param.load_eq_bytes_iff _ _ hBytes
    · rw [← hAfter]
      simp only [sizeofInt]
      congr 1
      omega
    · simp only [sizeofInt]
      omega
    · simp only [sizeofInt]
      omega
  let bytes := h.cblk.buffer.load (h.cblk.serverIndex.toNat + sizeofInt) p.bytes.length
  let next := (module h.effect bytes).next
  have hFits : p.bytes.length ≤ bufferSize := by
    omega
  have hShort : bytes.length < 2 ^ 32 := by
    simp only [bytes, Memory.load_length]
    simp only [bufferSize] at hFits
    omega
  have hServed := hSkip (h.receive bytes next) rfl hReply
  rw [Handle.loop_command hMore hReply hTurn]
  by_cases hIntact : bytes = p.bytes
  · have hKeeps : p.Intact ps := ⟨hFits, q, hNext, hSame.mp hIntact⟩
    have hSome : ps ≠ [] := by
      intro hNil
      rw [hNil] at hNext
      cases hNext
    change Served module h (p :: ps)
      (if (module h.effect bytes).Rejected then (.fault, h.receive bytes next)
      else ((h.receive bytes next).skip p.recordSize).loop module fuel)
    by_cases hRejected : (module h.effect bytes).Rejected
    · rw [if_pos hRejected]
      constructor
      · simp
      · intro _
        rfl
      · refine ⟨[bytes], rfl, ?_, ?_⟩
        · intro b hMem
          rw [List.mem_singleton.mp hMem]
          exact hShort
        · rw [hIntact] at hRejected
          simp [expected, Commits, hIntact, hRejected, hKeeps]
    · rw [if_neg hRejected]
      rcases hServed.behind hShort with ⟨received, hReceived, hAllShort, hIff⟩
      have hNext' : next = (module h.effect p.bytes).next := by
        simp only [next, hIntact]
      rw [hIntact] at hRejected
      constructor
      · exact hServed.ends
      · intro hCommits
        apply hServed.fault
        rcases hCommits.2 with hBad | hLater
        · exact absurd hBad hRejected
        · rw [← hNext'] at hLater
          exact hLater
      · refine ⟨bytes :: received, hReceived, hAllShort, ?_⟩
        rw [hNext'] at hIff
        simp only [expected, hRejected, if_false, hIntact,
          List.cons.injEq, true_and, hIff, hSome, false_or, reduceCtorEq, Commits, hKeeps]
  · have hNot : ¬ Commits module h.effect (p :: ps) := by
      intro hCommits
      rcases hCommits.1.2 with ⟨q', hNext', hPrefix⟩
      rw [hNext] at hNext'
      cases hNext'
      exact hIntact (hSame.mpr hPrefix)
    change Served module h (p :: ps)
      (if (module h.effect bytes).Rejected then (.fault, h.receive bytes next)
      else ((h.receive bytes next).skip p.recordSize).loop module fuel)
    by_cases hRejected : (module h.effect bytes).Rejected
    · rw [if_pos hRejected]
      apply Served.of_altered (by simp) rfl _ hIntact hNot
      intro b hMem
      rw [List.mem_singleton.mp hMem]
      exact hShort
    · rw [if_neg hRejected]
      rcases hServed.behind hShort with ⟨received, hReceived, hAllShort, _⟩
      exact Served.of_altered hServed.ends hReceived hAllShort hIntact hNot

end Record

/- One record that is not empty, if the loop serves the records behind it. -/
theorem served_record {module : Module σ} {p : Param} {ps : List Param} {h : Handle σ}
    {index stop fuel : Nat} (hServer : h.cblk.serverIndex.toNat = index)
    (hClient : h.cblk.clientIndex.toNat = stop) (hStop : stop ≤ bufferSize)
    (hReply : h.pReplyData = none) (hSize : p.recordSize ≠ 0) (hStored : p.Stored bufferSize)
    (hRecord : h.cblk.buffer.load index sizeofInt = le32 p.recordSize)
    (hBytes :
      h.cblk.buffer.load (index + sizeofInt) (p.recordSize.toNat - sizeofInt) =
        p.bytes.take (p.recordSize.toNat - sizeofInt))
    (hRest : Laid h.cblk.buffer (index + p.recordSize.toNat) stop ps)
    (ih :
      ∀ {t : Handle σ},
        t.cblk.serverIndex.toNat = index + p.recordSize.toNat → t.cblk.clientIndex.toNat = stop →
          Laid t.cblk.buffer (index + p.recordSize.toNat) stop ps → t.pReplyData = none →
          Served module t ps (t.loop module fuel)) :
    Served module h (p :: ps) (h.loop module (fuel + 1)) := by
  subst hServer
  subst hClient
  have hPos := hStored.record_pos hSize
  have hRecordLe := hStored.record_le
  have hLe := hRest.le
  have hMore : h.cblk.serverIndex.toNat < h.cblk.clientIndex.toNat := by
    simp only [sizeofInt] at hPos
    omega
  have hWord : h.cblk.buffer.word h.cblk.serverIndex.toNat = p.recordSize :=
    Memory.word_of_load hRecord
  have hInt : p.recordSize.toInt = p.recordSize.toNat := by
    rw [BitVec.toInt_eq_toNat_cond, if_pos]
    simp only [bufferSize] at hRecordLe
    omega
  have hSkip :
      ∀ t : Handle σ, t.cblk = h.cblk → t.pReplyData = none →
        Served module (t.skip p.recordSize) ps ((t.skip p.recordSize).loop module fuel) := by
    intro t hSame hNone
    apply ih
    · rw [Handle.skip_serverIndex, hSame]
      simp only [bufferSize] at hStop
      rw [hSame]
      omega
    · simp only [Handle.skip, hSame]
    · simp only [Handle.skip, hSame]
      exact hRest
    · exact hNone
  cases hNext : nextRecord ps with
  | none =>
    -- the last record ends behind the index of the client
    have hEnd := hRest.next_none hNext
    have hTurn : h.turn module = (some (.returned NO_ERROR), h) := by
      apply Handle.turn_last hWord
      rw [hInt]
      simp only [sizeofInt]
      omega
    rw [Handle.loop_some hMore hTurn]
    apply Served.of_nothing
    · simp
    · rfl
    · intro hCommits
      rcases hCommits.1.2 with ⟨q, hSome, _⟩
      rw [hNext] at hSome
      cases hSome
  | some q =>
    have hAfter := hRest.next_some hNext
    have hRoom :
        (h.cblk.serverIndex.toNat + sizeofInt : Nat) +
            p.recordSize.toInt ≤ h.cblk.clientIndex.toNat := by
      rw [hInt]
      omega
    rcases hStored.whole with hWhole | hWrapped
    · exact
        served_whole hMore hReply hStored hWhole hWord hRoom
          hBytes hNext hAfter.1 (fun t => hSkip t)
    · exact served_wrapped hMore hReply hWrapped hWord hRoom (fun t => hSkip t)

/- The loop over records that the client laid out. -/
theorem loop_laid (module : Module σ) {ps : List Param} {h : Handle σ} {index stop : Nat}
    (hServer : h.cblk.serverIndex.toNat = index) (hClient : h.cblk.clientIndex.toNat = stop)
    (hLaid : Laid h.cblk.buffer index stop ps) (hStop : stop ≤ bufferSize)
    (hReply : h.pReplyData = none) {fuel : Nat} (hFuel : ps.length < fuel) :
    Served module h ps (h.loop module fuel) := by
  induction ps generalizing h index fuel with
  | nil =>
    rcases Nat.exists_eq_add_of_lt hFuel with ⟨k, hk⟩
    have hEnd := hLaid.next_none rfl
    have hLoop : h.loop module fuel = (.returned NO_ERROR, h) := by
      rw [hk, Handle.loop, if_neg (by omega)]
    rw [hLoop]
    constructor
    · simp
    · intro hCommits
      exact absurd hCommits id
    · exact ⟨[], by simp, by simp, by simp [expected]⟩
  | cons p ps ih =>
    cases fuel with
    | zero => exact absurd hFuel (Nat.not_lt_zero _)
    | succ fuel =>
      have hFuel' : ps.length < fuel := Nat.lt_of_succ_lt_succ hFuel
      cases hLaid with
      | empty hSize hStored hRest =>
        have hWrapped : 2 ^ 32 ≤ p.bytes.length := by
          have hLength := p.bytes_length
          have hRecord := hStored.record
          rcases hStored.whole with hWhole | hWrapped
          · rw [hSize] at hRecord
            change 0 = _ at hRecord
            simp only [sizeofParam] at hLength
            omega
          · exact hWrapped
        have hServed := ih hServer hClient hRest hReply (Nat.lt_succ_of_lt hFuel')
        rcases hServed.received with ⟨received, hReceived, hShort, _⟩
        exact Served.of_wrapped hWrapped hServed.ends hReceived hShort
      | record hSize hStored hRecord hBytes hRest =>
        exact
          served_record hServer hClient hStop hReply hSize hStored hRecord hBytes hRest
            (fun hServer' hClient' hRest' hReply' =>
              ih hServer' hClient' hRest' hReply' hFuel')

end EffectParams

--
-- Commits
--

namespace EffectParams

variable {σ : Type} (module : Module σ) (fuel : Nat) {h : Handle σ}

/- The handle controls an effect for a client. -/
structure Handle.Attached (h : Handle σ) : Prop where
  hasControl : h.mHasControl = true
  hasEffect : h.hasEffect = true
  hasClient : h.hasClient = true

/- Without control or the lock nothing is received. -/
theorem Handle.command_refused (hRefused : ¬ (h.cblk.lock = false ∧ h.Attached)) :
    (h.command module fuel).2.received = h.received := by
  unfold command
  split
  · rfl
  · rename_i hControl
    split
    · rfl
    · rename_i hEffect
      split
      · rfl
      · rename_i hClient
        split
        · rfl
        · rename_i hLock
          simp only [Bool.not_eq_false, Bool.not_eq_true] at hControl hEffect hClient hLock
          exact absurd ⟨hLock, hControl, hEffect, hClient⟩ hRefused

/- Otherwise the command runs the loop. -/
theorem Handle.command_loop (hLock : h.cblk.lock = false) (hAttached : h.Attached)
    (hClient : h.cblk.clientIndex.toNat ≤ bufferSize)
    (hServer : h.cblk.serverIndex.toNat ≤ bufferSize) :
    (h.command module fuel).1 = (h.loop module fuel).1 ∧
      (h.command module fuel).2.received = (h.loop module fuel).2.received := by
  unfold command
  rw [hAttached.hasControl, hAttached.hasEffect, hAttached.hasClient, hLock, if_neg (by decide),
    if_neg (by decide), if_neg (by decide), if_neg (by decide), if_neg (by omega)]
  cases hLoop : h.loop module fuel with
  | mk result h' => cases result <;> exact ⟨rfl, rfl⟩

/- The commit calls the command with the lock held. -/
theorem setParameterCommit_received (mStatus : Int) (h : Handle σ) :
    (setParameterCommit module fuel mStatus h).2.received = h.received := by
  unfold setParameterCommit
  split
  · rfl
  · split
    · rfl
    · split
      · rfl
      · let held : Handle σ :=
          { h with
            cblk := { h.cblk with lock := true }
            pReplyData := none }
        have hRefused := Handle.command_refused module fuel (h := held) (by simp [held])
        simp only
        split
        · rename_i hCommand
          rw [hCommand] at hRefused
          exact hRefused
        · rename_i hCommand
          rw [hCommand] at hRefused
          exact hRefused

/-
  The effect receives what was queued exactly when a command that finds the lock free meets a
  rejection as described; never through a commit, which holds the lock.
-/
theorem exec_deferred {mStatus : Int} {buffer : Memory} {ps : List Param} {c : Cblk}
    (hAccept : deferAll mStatus (Cblk.init buffer) ps = some c) (hSome : ps ≠ []) {h : Handle σ}
    (hQueued : h.cblk = { c with lock := h.cblk.lock })
    (hReply : h.pReplyData = none) (hReceived : h.received = []) (hFuel : ps.length < fuel) :
    (Delivered module h.effect ps (h.command module fuel) ↔
        h.cblk.lock = false ∧ h.Attached ∧ Commits module h.effect ps) ∧
      ¬ Delivered module h.effect ps (setParameterCommit module fuel mStatus h) := by
  have hNonempty : [] ≠ expected module h.effect ps := by
    cases ps with
    | nil => exact absurd rfl hSome
    | cons p ps => simp [expected]
  rcases laid_of_deferAll hAccept (Nat.zero_le _) (.nil 0) with ⟨hLaid, hClient, hServer⟩
  have hIndex : h.cblk.clientIndex = c.clientIndex := by
    rw [hQueued]
  have hStart : h.cblk.serverIndex.toNat = 0 := by
    rw [hQueued]
    exact congrArg BitVec.toNat hServer
  have hBuffer : h.cblk.buffer = c.buffer := by
    rw [hQueued]
  rw [List.nil_append, ← hIndex, ← hBuffer] at hLaid
  rw [← hIndex] at hClient
  constructor
  · by_cases hRuns : h.cblk.lock = false ∧ h.Attached
    · have hCommand := Handle.command_loop module fuel hRuns.1 hRuns.2 hClient (by omega)
      have hServed := loop_laid module hStart rfl hLaid hClient hReply hFuel
      rcases hServed.received with ⟨received, hAll, _, hIff⟩
      rw [hReceived, List.nil_append] at hAll
      constructor
      · intro hDelivered
        refine ⟨hRuns.1, hRuns.2, ?_⟩
        have hEq := hDelivered.received
        rw [hCommand.2, hAll] at hEq
        rcases hIff.mp hEq with hNil | hCommits
        · exact absurd hNil hSome
        · exact hCommits
      · rintro ⟨_, _, hCommits⟩
        constructor
        · rw [hCommand.2, hAll]
          exact hIff.mpr (Or.inr hCommits)
        · intro hResult
          rw [hCommand.1, hServed.fault hCommits] at hResult
          cases hResult
    · have hNothing := Handle.command_refused module fuel hRuns
      rw [hReceived] at hNothing
      constructor
      · intro hDelivered
        have hEq := hDelivered.received
        rw [hNothing] at hEq
        exact absurd hEq hNonempty
      · rintro ⟨hLock, hAttached, _⟩
        exact absurd ⟨hLock, hAttached⟩ hRuns
  · intro hDelivered
    have hEq := hDelivered.received
    rw [setParameterCommit_received, hReceived] at hEq
    exact hNonempty hEq

/- A parameter and a value of one word each. -/
def wordParam (parameter value : Word) : Param where
  status := 0
  psize := 4
  vsize := 4
  data := le32 parameter ++ le32 value
  hData := rfl

/- An attached handle of an effect without a state. -/
def attached (c : Cblk) : Handle Unit where
  mHasControl := true
  hasEffect := true
  hasClient := true
  cblk := c
  pReplyData := none
  effect := ()
  received := []

/- An effect that rejects every parameter. -/
def rejecting : Module Unit :=
  fun _ _ => ⟨BAD_VALUE, BAD_VALUE, ()⟩

/- The value of the first parameter is the size of the second record. -/
theorem exec_deferred_rejected :
    ∃ c,
      deferAll NO_ERROR (Cblk.init fun _ => 0) [wordParam 1 20, wordParam 2 3] = some c ∧
        (Delivered rejecting () [wordParam 1 20, wordParam 2 3] ((attached c).command rejecting 3) ↔
          (attached c).cblk.lock = false ∧ (attached c).Attached ∧
            Commits rejecting () [wordParam 1 20, wordParam 2 3]) ∧
        ¬ Delivered rejecting () [wordParam 1 20, wordParam 2 3]
            (setParameterCommit rejecting 3 NO_ERROR (attached c)) := by
  have hSome :
      (deferAll NO_ERROR (Cblk.init fun _ => 0) [wordParam 1 20, wordParam 2 3]).isSome = true := by
    decide
  rcases Option.isSome_iff_exists.mp hSome with ⟨c, hAccept⟩
  exact
    ⟨c, hAccept,
      exec_deferred rejecting 3 hAccept (by simp) (h := attached c) rfl rfl rfl (by decide)⟩

/- An effect that accepts every parameter. -/
def accepting : Module Unit :=
  fun _ _ => ⟨NO_ERROR, NO_ERROR, ()⟩

/-
  A single parameter is dropped and the command reports success; the commit waits for its own lock.
-/
theorem exec_deferred_dropped :
    ∃ c,
      deferAll NO_ERROR (Cblk.init fun _ => 0) [wordParam 1 2] = some c ∧
        ((attached c).command accepting 2).1 = .returned NO_ERROR ∧
        ((attached c).command accepting 2).2.received = [] ∧
        ¬ Delivered accepting () [wordParam 1 2] ((attached c).command accepting 2) ∧
        (setParameterCommit accepting 2 NO_ERROR (attached c)).1 = .waiting ∧
        ¬ Delivered accepting () [wordParam 1 2]
            (setParameterCommit accepting 2 NO_ERROR (attached c)) := by
  have hValue :
      (deferAll NO_ERROR (Cblk.init fun _ => 0) [wordParam 1 2]).map (fun c =>
        (((attached c).command accepting 2).1, ((attached c).command accepting 2).2.received,
          (setParameterCommit accepting 2 NO_ERROR (attached c)).1,
          (setParameterCommit accepting 2 NO_ERROR (attached c)).2.received)) =
        some (.returned NO_ERROR, [], .waiting, []) := by
    decide
  rcases Option.map_eq_some_iff.mp hValue with ⟨c, hAccept, hFacts⟩
  simp only [Prod.mk.injEq] at hFacts
  rcases hFacts with ⟨hResult, hNone, hWaits, hNothing⟩
  refine ⟨c, hAccept, hResult, hNone, ?_, hWaits, ?_⟩
  · intro hDelivered
    have hEq := hDelivered.received
    rw [hNone] at hEq
    cases hEq
  · intro hDelivered
    have hEq := hDelivered.received
    rw [hNothing] at hEq
    cases hEq

end EffectParams

end FrameworksAv
