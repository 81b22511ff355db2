import FrameworksAv.ATSParser.Reassembly
import FrameworksAv.Base.Buffer
import Mathlib.Data.List.Chain

/-
  What a stream hands to `parsePES`, packet after packet
  (media/libstagefright/mpeg2ts/ATSParser.cpp, with the buffer of the stream as
  media/libstagefright/foundation/ABuffer.cpp keeps it).

  Main declarations:
    * `PesBuffer`, `PesBuffer.append`
    * `Packet`, `Receiver.receive`, `Receiver.passes`
    * `Receiver.Assembling`
    * `Receiver.passed_runs`
-/

--
-- The buffer
--

namespace FrameworksAv

namespace ATSParser

/- The memory of an `ABuffer` and the end of its range. -/
structure PesBuffer where
  storage : List Byte
  size : Nat
  fits : size ≤ storage.length

namespace PesBuffer

def capacity (b : PesBuffer) : Nat := b.storage.length

/- The bytes in the range, which starts at 0. -/
def contents (b : PesBuffer) : List Byte :=
  b.storage.take b.size

/- `setRange(0, size)`, with its check. -/
def setRange (storage : List Byte) (size : Nat) : FrameworksAv.Checked PesBuffer :=
  if h : size ≤ storage.length then .ok ⟨storage, size, h⟩
  else .error .outside

/- An empty buffer of that capacity. -/
def new (capacity : Nat) : PesBuffer where
  storage := List.replicate capacity 0
  size := 0
  fits := Nat.zero_le _

/- `setRange(0, 0)` -/
def clear (b : PesBuffer) : PesBuffer :=
  { b with size := 0, fits := Nat.zero_le _ }

/- A multiple of 64K that is large enough. -/
def grownSize (neededSize : Nat) : Nat :=
  (neededSize + 65535) / 65536 * 65536

/- The buffer itself, or a larger one with the same bytes. -/
def grow (b : PesBuffer) (neededSize : Nat) : FrameworksAv.Checked PesBuffer :=
  if b.capacity < neededSize then do
    let newBuffer := new (grownSize neededSize)
    let storage ← Buffer.store newBuffer.storage 0 b.contents
    setRange storage b.size
  else .ok b

def append (b : PesBuffer) (payload : List Byte) : FrameworksAv.Checked PesBuffer := do
  let b ← b.grow (b.size + payload.length)
  let storage ← Buffer.store b.storage b.size payload
  setRange storage (b.size + payload.length)

variable (b : PesBuffer)

theorem length_contents : b.contents.length = b.size := by
  unfold contents
  rw [List.length_take, Nat.min_eq_left b.fits]

@[simp] theorem contents_new (capacity : Nat) : (new capacity).contents = [] :=
  rfl

@[simp] theorem contents_clear : b.clear.contents = [] :=
  rfl

/- Bytes stored behind the first ones, and the range set. -/
theorem setRange_store (storage bytes : List Byte) (size : Nat)
    (hFits : size + bytes.length ≤ storage.length) :
    ∃ c : PesBuffer,
      (Buffer.store storage size bytes >>= fun storage =>
          setRange storage (size + bytes.length)) =
        .ok c ∧ c.contents = storage.take size ++ bytes ∧ c.capacity = storage.length := by
  have hLength :
      (storage.take size ++ bytes ++ storage.drop (size + bytes.length)).length =
        storage.length := by
    rw [List.length_append, List.length_append, List.length_take, List.length_drop]
    omega
  have hRange :
      size + bytes.length ≤
        (storage.take size ++ bytes ++ storage.drop (size + bytes.length)).length := by
    rw [hLength]
    exact hFits
  refine ⟨⟨_, _, hRange⟩, ?_, ?_, hLength⟩
  · unfold Buffer.store setRange
    rw [if_pos hFits]
    exact dif_pos hRange
  · unfold contents
    apply List.take_left'
    rw [List.length_append, List.length_take, Nat.min_eq_left (by omega)]

/- The grown buffer has room, and the bytes it had. -/
theorem grow_keeps (neededSize : Nat) (hSize : b.size ≤ neededSize) :
    ∃ c : PesBuffer,
      b.grow neededSize = .ok c ∧ c.contents = b.contents ∧ neededSize ≤ c.capacity := by
  unfold grow
  by_cases hGrow : b.capacity < neededSize
  · have hLarge : neededSize ≤ grownSize neededSize := by
      unfold grownSize
      omega
    have hLength : (new (grownSize neededSize)).storage.length = grownSize neededSize :=
      List.length_replicate
    have hStore :=
      setRange_store (new (grownSize neededSize)).storage
        b.contents 0 (by rw [hLength, length_contents]; omega)
    rw [length_contents, Nat.zero_add, hLength] at hStore
    rcases hStore with ⟨c, hOk, hContents, hCapacity⟩
    refine ⟨c, ?_, hContents, ?_⟩
    · rw [if_pos hGrow]
      exact hOk
    · rw [hCapacity]
      exact hLarge
  · refine ⟨b, ?_, rfl, Nat.not_lt.mp hGrow⟩
    rw [if_neg hGrow]

/- A payload goes behind what there is, in a larger buffer if there is no room for it. -/
theorem append_contents (payload : List Byte) :
    ∃ c : PesBuffer, b.append payload = .ok c ∧ c.contents = b.contents ++ payload := by
  rcases b.grow_keeps (b.size + payload.length) (Nat.le_add_right _ _) with ⟨d, hGrow, hSame, hRoom⟩
  have hSize : d.size = b.size := by
    rw [← length_contents d, hSame, length_contents]
  rcases setRange_store d.storage payload d.size
    (by rw [hSize]; exact hRoom) with ⟨c, hOk, hContents, _⟩
  refine ⟨c, ?_, ?_⟩
  · unfold append
    rw [hGrow]
    exact hOk
  · rw [hContents, ← hSame]
    rfl

end PesBuffer

--
-- Packets
--

/- The arguments of `Stream::parse` for one packet. -/
structure Packet where
  continuity_counter : Nat
  payload_unit_start_indicator : Bool
  br : ABitReader
  payload : List Byte
  carries : br.Carries payload

namespace Packet

/- No packet is missing between the two. -/
def Follows (p q : Packet) : Prop :=
  q.continuity_counter = (p.continuity_counter + 1) % 16

end Packet

/-
  The packets from `i` on, up to the one before `j`, are the packets of one PES packet: the first
  starts it, the others do not, none is missing, and the packet `j` starts the next.
-/
def IsRun (packets : List Packet) (i j : Nat) : Prop :=
  ∃ before first rest next after,
    packets = before ++ (first :: rest) ++ next :: after ∧ i = before.length ∧
      j = i + (first :: rest).length ∧
      first.payload_unit_start_indicator = true ∧
      (∀ p ∈ rest, p.payload_unit_start_indicator = false) ∧
      next.payload_unit_start_indicator = true ∧ (first :: rest ++ [next]).IsChain Packet.Follows

/- The payloads of the packets from `i` to before `j`. -/
def payloads (packets : List Packet) (i j : Nat) : List Byte :=
  ((packets.drop i).take (j - i)).flatMap Packet.payload

/- A stream and its buffer. -/
structure Receiver where
  stream : Stream
  buffer : PesBuffer

namespace Receiver

def new (elementaryPID streamType PCR_PID : Nat) : Receiver where
  stream := Stream.new elementaryPID streamType PCR_PID
  buffer := PesBuffer.new (192 * 1024)

variable (r : Receiver)

/- The stream and the buffer after a discontinuity, if any. -/
def resync (p : Packet) : Receiver :=
  if r.stream.discontinuity p.continuity_counter then ⟨r.stream.startOver, r.buffer.clear⟩
  else r

/- Whether the packet makes the stream flush. -/
def flushes (p : Packet) : Bool :=
  p.payload_unit_start_indicator && (r.resync p).stream.mPayloadStarted

/- What is handed to `parsePES` when the packet is parsed. -/
def passes (p : Packet) : List (List Byte) :=
  if r.stream.mQueue = none then []
  else if r.flushes p then if (r.resync p).buffer.size = 0 then []
    else [(r.resync p).buffer.contents]
  else []

/- What becomes of the buffer when the packet is parsed. -/
def bufferAfter (p : Packet) : FrameworksAv.Checked PesBuffer :=
  if r.stream.mQueue = none then .ok r.buffer
  else
    let lost := r.stream.discontinuity p.continuity_counter
    let buffer := (r.resync p).buffer
    if lost ∧ p.payload_unit_start_indicator = false then .ok buffer
    else
      let buffer := if r.flushes p then buffer.clear else buffer
      if p.payload_unit_start_indicator ∨ (r.resync p).stream.mPayloadStarted then
        buffer.append p.payload
      else .ok buffer

def receive (p : Packet) : Option Receiver :=
  match r.stream.parse p.continuity_counter p.payload_unit_start_indicator p.br with
  | none => none
  | some ((_, stream), _) =>
    match r.bufferAfter p with
    | .error _ => none
    | .ok buffer => some ⟨stream, buffer⟩

/- What the packet `j` makes the new stream pass. -/
def passedAt (packets : List Packet) (j : Nat) : List (List Byte) :=
  match Run.exec receive r (packets.take j), packets[j]? with
  | some s, some p => s.passes p
  | _, _ => []

end Receiver

--
-- Runs of packets
--

variable {packets : List Packet} {i j k l : Nat}

/- The packet behind a run starts a PES packet. -/
theorem IsRun.ends (h : IsRun packets i j) :
    ∃ p, packets[j]? = some p ∧ p.payload_unit_start_indicator = true := by
  rcases h with ⟨before, first, rest, next, after, hAll, hi, hj, _, _, hNext, _⟩
  refine ⟨next, ?_, hNext⟩
  rw [hAll, hj, hi, ← List.length_append, List.getElem?_append_right (Nat.le_refl _), Nat.sub_self]
  rfl

/- No packet inside a run starts a PES packet. -/
theorem IsRun.inside (h : IsRun packets i j) (hLow : i < k) (hHigh : k < j) {p : Packet}
    (hGet : packets[k]? = some p) : p.payload_unit_start_indicator = false := by
  rcases h with ⟨before, first, rest, next, after, hAll, hi, hj, _, hRest, _, _⟩
  apply hRest
  rw [List.length_cons] at hj
  have hRight : before.length ≤ k := by omega
  have hLeft : k - before.length < (first :: rest).length := by
    rw [List.length_cons]
    omega
  rw [hAll, List.append_assoc, List.getElem?_append_right hRight,
    List.getElem?_append_left hLeft] at hGet
  have hSucc : k - before.length = k - before.length - 1 + 1 := by
    omega
  rw [hSucc, List.getElem?_cons_succ] at hGet
  exact List.mem_of_getElem? hGet

/- Two runs have no packet in common. -/
theorem IsRun.disjoint (hFirst : IsRun packets i j) (hSecond : IsRun packets k l) (hOrder : j < l) :
    j ≤ k := by
  by_contra hInside
  rcases hFirst.ends with ⟨p, hGet, hStarts⟩
  have hNot := hSecond.inside (Nat.not_le.mp hInside) hOrder hGet
  rw [hStarts] at hNot
  cases hNot

/- The payloads of the packets in the middle. -/
theorem payloads_middle (before run after : List Packet) :
    payloads (before ++ run ++ after) before.length (before.length + run.length) =
      run.flatMap Packet.payload := by
  unfold payloads
  rw [List.append_assoc, List.drop_left, Nat.add_sub_cancel_left, List.take_left]

end ATSParser

--
-- What a packet does
--

namespace ATSParser

namespace Stream

variable {s t : Stream}

/- A flush empties the buffer, whatever `parsePES` says. -/
theorem flush_cases {status : Status} {w : Bool} (hFlush : s.flush = some ((status, t), w)) :
    t.mBuffer = [] ∧ t.mExpectedContinuityCounter = s.mExpectedContinuityCounter ∧
      (t.mQueue = none → s.mQueue = none) := by
  unfold flush at hFlush
  by_cases hEmpty : s.mBuffer = []
  · rw [if_pos hEmpty] at hFlush
    cases hFlush
    exact ⟨hEmpty, rfl, id⟩
  · rw [if_neg hEmpty] at hFlush
    rcases Checked.bind_eq_some.mp hFlush with ⟨⟨result, _⟩, _, _, _, hRest, _⟩
    cases result with
    | none =>
      cases hRest
      exact ⟨rfl, rfl, id⟩
    | some next =>
      cases hRest
      exact ⟨rfl, rfl, Option.map_eq_none_iff.mp⟩

/- The buffer is flushed where a PES packet had started. -/
theorem start_cases {begins : Bool} {w : Bool} (hStart : s.start begins = some (t, w)) :
    t.mPayloadStarted = (begins || s.mPayloadStarted) ∧
      t.mBuffer = (if begins && s.mPayloadStarted then [] else s.mBuffer) ∧
      t.mExpectedContinuityCounter = s.mExpectedContinuityCounter ∧
      (t.mQueue = none → s.mQueue = none) := by
  unfold start at hStart
  cases begins with
  | false =>
    cases hStart
    exact ⟨rfl, rfl, rfl, id⟩
  | true =>
    rw [if_pos rfl] at hStart
    rcases Checked.bind_eq_some.mp hStart with ⟨⟨status, u⟩, _, _, hFirst, hRest, _⟩
    cases hRest
    by_cases hStarted : s.mPayloadStarted = true
    · rw [if_pos hStarted] at hFirst
      rcases flush_cases hFirst with ⟨hBuffer, hCounter, hQueue⟩
      refine ⟨rfl, ?_, hCounter, hQueue⟩
      rw [hStarted]
      exact hBuffer
    · rw [if_neg hStarted] at hFirst
      cases hFirst
      refine ⟨rfl, ?_, rfl, id⟩
      rw [Bool.not_eq_true] at hStarted
      rw [hStarted]
      rfl

/- The stream that is left after a discontinuity, if any. -/
def resync (s : Stream) (continuity_counter : Nat) : Stream :=
  if s.discontinuity continuity_counter then s.startOver else s

/- A packet is dropped, or it goes on or starts a new one. -/
theorem parse_cases (p : Packet) {status : Status} {w : Bool} (hQueue : s.mQueue ≠ none)
    (hParse :
      s.parse p.continuity_counter p.payload_unit_start_indicator p.br = some ((status, t), w)) :
    (s.discontinuity p.continuity_counter = true ∧ p.payload_unit_start_indicator = false ∧
        t = s.startOver) ∨
      ((s.discontinuity p.continuity_counter = true → p.payload_unit_start_indicator = true) ∧
        t.mPayloadStarted =
          (p.payload_unit_start_indicator || (s.resync p.continuity_counter).mPayloadStarted) ∧
        t.mBuffer =
          (if p.payload_unit_start_indicator && (s.resync p.continuity_counter).mPayloadStarted
            then [] else (s.resync p.continuity_counter).mBuffer) ++
          (if t.mPayloadStarted then p.payload else []) ∧
        t.mExpectedContinuityCounter = some ((p.continuity_counter + 1) % 16) ∧
        t.mQueue ≠ none) := by
  unfold parse at hParse
  rw [if_neg hQueue] at hParse
  simp only at hParse
  by_cases hDropped :
      s.discontinuity p.continuity_counter = true ∧ p.payload_unit_start_indicator = false
  · rw [if_pos hDropped] at hParse
    refine Or.inl ⟨hDropped.1, hDropped.2, ?_⟩
    rcases Checked.pure_eq_some.mp hParse with ⟨hEq, _⟩
    rw [if_pos hDropped.1] at hEq
    exact (congrArg Prod.snd hEq).symm
  · rw [if_neg hDropped] at hParse
    rcases Checked.bind_eq_some.mp hParse with ⟨u, _, _, hStart, hRest, _⟩
    rcases start_cases hStart with ⟨hStarted, hBuffer, hCounter, hNone⟩
    have hKept : (s.resync p.continuity_counter).mQueue = s.mQueue := by
      unfold resync
      split
      · rfl
      · rfl
    have hTake : t = (u.take p.br).2 := by
      rcases Checked.pure_eq_some.mp hRest with ⟨hEq, _⟩
      exact (congrArg Prod.snd hEq).symm
    have hWhole : ¬p.br.numBitsLeft % 8 ≠ 0 := by
      rw [p.carries.numBitsLeft, Nat.mul_mod_left]
      exact fun h => h rfl
    have hParts :
        t.mPayloadStarted = u.mPayloadStarted ∧
          t.mBuffer = u.mBuffer ++ (if u.mPayloadStarted then p.payload else []) ∧
          t.mExpectedContinuityCounter = u.mExpectedContinuityCounter ∧ t.mQueue = u.mQueue := by
      rw [hTake]
      unfold take
      by_cases hFlag : u.mPayloadStarted = true
      · rw [if_pos hFlag, if_neg hWhole, p.carries.all, if_pos hFlag]
        exact ⟨rfl, rfl, rfl, rfl⟩
      · rw [if_neg hFlag, if_neg hFlag, List.append_nil]
        exact ⟨rfl, rfl, rfl, rfl⟩
    rcases hParts with ⟨hStarted', hBuffer', hCounter', hQueue'⟩
    refine Or.inr ⟨?_, ?_, ?_, ?_, ?_⟩
    · intro hLost
      by_contra hNot
      exact hDropped ⟨hLost, Bool.not_eq_true _ ▸ hNot⟩
    · rw [hStarted', hStarted]
      rfl
    · rw [hBuffer', hBuffer, ← hStarted']
      rfl
    · rw [hCounter', hCounter]
    · rw [hQueue']
      intro hEmpty
      exact hQueue (hKept.symm.trans (hNone hEmpty))

end Stream

--
-- Passed runs
--

/- The packets from the start of a PES packet on, so far. -/
def IsOpenRun (run : List Packet) (s : Stream) : Prop :=
  ∃ first rest,
    run = first :: rest ∧
      first.payload_unit_start_indicator = true ∧
      (∀ p ∈ rest, p.payload_unit_start_indicator = false) ∧ run.IsChain Packet.Follows ∧
      s.mBuffer = run.flatMap Packet.payload ∧
      ∀ p : Packet,
        s.discontinuity p.continuity_counter = false → (run ++ [p]).IsChain Packet.Follows

/- A packet goes on with a run if its counter is expected. -/
theorem chain_expected {run : List Packet} {p q : Packet}
    (hChain : (run ++ [p]).IsChain Packet.Follows) {s : Stream}
    (hCounter : s.mExpectedContinuityCounter = some ((p.continuity_counter + 1) % 16))
    (hSame : s.discontinuity q.continuity_counter = false) :
    (run ++ [p] ++ [q]).IsChain Packet.Follows := by
  have hFollows : p.Follows q := by
    unfold Stream.discontinuity at hSame
    rw [hCounter] at hSame
    have hEq := of_decide_eq_false hSame
    exact (not_not.mp hEq).symm
  rw [List.isChain_append]
  refine ⟨hChain, List.isChain_singleton q, ?_⟩
  intro x hx y hy
  rw [List.getLast?_append, List.getLast?_singleton] at hx
  cases hx
  cases hy
  exact hFollows

namespace Receiver

/- What holds after the packets `seen`. -/
structure Assembling (seen : List Packet) (r : Receiver) : Prop where
  contents : r.buffer.contents = r.stream.mBuffer
  queued : r.stream.mPayloadStarted = true → r.stream.mQueue ≠ none
  idle : r.stream.mPayloadStarted = false → r.stream.mBuffer = []
  started :
    r.stream.mPayloadStarted = true → ∃ before run, seen = before ++ run ∧ IsOpenRun run r.stream

variable {r t : Receiver} {seen : List Packet}

theorem new_assembling (elementaryPID streamType PCR_PID : Nat) :
    (new elementaryPID streamType PCR_PID).Assembling [] where
  contents := rfl
  queued := nofun
  idle := fun _ => rfl
  started := nofun

theorem resync_stream (p : Packet) :
    (r.resync p).stream = r.stream.resync p.continuity_counter := by
  unfold resync Stream.resync
  split
  · rfl
  · rfl

theorem Assembling.resync_contents (h : r.Assembling seen) (p : Packet) :
    (r.resync p).buffer.contents = (r.resync p).stream.mBuffer := by
  unfold resync
  split
  · exact PesBuffer.contents_clear _
  · exact h.contents

/- Without a discontinuity, and with a start, it flushes. -/
theorem flushes_iff (p : Packet) :
    r.flushes p = true ↔
      p.payload_unit_start_indicator = true ∧ r.stream.discontinuity p.continuity_counter = false ∧
        r.stream.mPayloadStarted = true := by
  unfold flushes resync
  rw [Bool.and_eq_true]
  cases r.stream.discontinuity p.continuity_counter with
  | true => simp [Stream.startOver]
  | false => simp

/- The buffer holds what the list of the model holds. -/
theorem Assembling.bufferAfter_contents (h : r.Assembling seen) (p : Packet) {status : Status}
    {s : Stream} {w : Bool}
    (hParse :
      r.stream.parse p.continuity_counter p.payload_unit_start_indicator p.br =
        some ((status, s), w)) :
    ∃ b, r.bufferAfter p = .ok b ∧ b.contents = s.mBuffer := by
  unfold bufferAfter
  by_cases hQueue : r.stream.mQueue = none
  · refine ⟨r.buffer, if_pos hQueue, ?_⟩
    unfold Stream.parse at hParse
    rw [if_pos hQueue] at hParse
    cases hParse
    exact h.contents
  · rw [if_neg hQueue]
    simp only
    rcases Stream.parse_cases p hQueue hParse with
      ⟨hLost, hMore, hEq⟩ | ⟨hGoes, hStarted, hBuffer, -, -⟩
    · rw [if_pos ⟨hLost, hMore⟩, hEq]
      refine ⟨_, rfl, ?_⟩
      rw [h.resync_contents p, resync_stream]
      unfold Stream.resync
      rw [if_pos hLost]
    · have hKept :
          ¬(r.stream.discontinuity p.continuity_counter = true ∧
            p.payload_unit_start_indicator = false) := by
        rintro ⟨hLost, hMore⟩
        rw [hGoes hLost] at hMore
        cases hMore
      have hContents :
          (if r.flushes p then (r.resync p).buffer.clear else (r.resync p).buffer).contents =
            if p.payload_unit_start_indicator &&
                (r.stream.resync p.continuity_counter).mPayloadStarted
              then [] else (r.stream.resync p.continuity_counter).mBuffer
          := by
        unfold flushes
        rw [resync_stream]
        split
        · exact PesBuffer.contents_clear _
        · rw [h.resync_contents p, resync_stream]
      have hTakes :
          (p.payload_unit_start_indicator = true ∨ (r.resync p).stream.mPayloadStarted = true) ↔
            s.mPayloadStarted = true := by
        rw [hStarted, resync_stream, Bool.or_eq_true]
      rw [if_neg hKept, hBuffer, ← hContents]
      by_cases hStart : s.mPayloadStarted = true
      · rw [if_pos (hTakes.mpr hStart), if_pos hStart]
        exact PesBuffer.append_contents _ _
      · rw [if_neg (mt hTakes.mp hStart), if_neg hStart]
        exact ⟨_, rfl, (List.append_nil _).symm⟩

/- Without a PES packet the buffer is empty. -/
theorem Assembling.resync_idle (h : r.Assembling seen) {continuity_counter : Nat}
    (hIdle : (r.stream.resync continuity_counter).mPayloadStarted = false) :
    (r.stream.resync continuity_counter).mBuffer = [] := by
  unfold Stream.resync at hIdle ⊢
  split at hIdle
  · rw [if_pos ‹_›]
    rfl
  · rw [if_neg ‹_›]
    exact h.idle hIdle

/- A packet that starts a PES packet is a run of its own. -/
theorem isOpenRun_single {p : Packet} {s : Stream} (hStarts : p.payload_unit_start_indicator = true)
    (hBuffer : s.mBuffer = p.payload)
    (hCounter : s.mExpectedContinuityCounter = some ((p.continuity_counter + 1) % 16)) :
    IsOpenRun [p] s := by
  have hOne : ([] ++ [p]).IsChain Packet.Follows := List.isChain_singleton p
  refine ⟨p, [], rfl, hStarts, nofun, hOne, ?_, ?_⟩
  · rw [hBuffer, List.flatMap_singleton]
  · intro q hSame
    exact chain_expected hOne hCounter hSame

/- A packet that is expected makes the run longer. -/
theorem isOpenRun_append {run : List Packet} {p : Packet} {s s' : Stream} (hRun : IsOpenRun run s)
    (hMore : p.payload_unit_start_indicator = false)
    (hSame : s.discontinuity p.continuity_counter = false)
    (hBuffer : s'.mBuffer = s.mBuffer ++ p.payload)
    (hCounter : s'.mExpectedContinuityCounter = some ((p.continuity_counter + 1) % 16)) :
    IsOpenRun (run ++ [p]) s' := by
  rcases hRun with ⟨first, rest, rfl, hFirst, hRest, _, hBytes, hNext⟩
  refine ⟨first, rest ++ [p], rfl, hFirst, ?_, hNext p hSame, ?_, ?_⟩
  · intro q hq
    rcases List.mem_append.mp hq with hOld | hNew
    · exact hRest q hOld
    · rw [List.mem_singleton.mp hNew]
      exact hMore
  · rw [hBuffer, hBytes, List.flatMap_append, List.flatMap_singleton]
  · intro q hExpected
    exact chain_expected (hNext p hSame) hCounter hExpected

/- A packet keeps what holds of the buffer and the run. -/
theorem Assembling.receive (h : r.Assembling seen) (p : Packet) (hReceive : r.receive p = some t) :
    t.Assembling (seen ++ [p]) := by
  unfold Receiver.receive at hReceive
  split at hReceive
  · cases hReceive
  rename_i status s w hParse
  rcases h.bufferAfter_contents p hParse with ⟨b, hOk, hContents⟩
  rw [hOk] at hReceive
  cases hReceive
  by_cases hQueue : r.stream.mQueue = none
  · unfold Stream.parse at hParse
    rw [if_pos hQueue] at hParse
    cases hParse
    have hIdle : ¬r.stream.mPayloadStarted = true := fun hStarted => h.queued hStarted hQueue
    exact
      { contents := hContents
        queued := h.queued
        idle := h.idle
        started := fun hStarted => absurd hStarted hIdle }
  · rcases Stream.parse_cases p hQueue hParse with
      ⟨hLost, hMore, hEq⟩ | ⟨hGoes, hStarted, hBuffer, hCounter, hKept⟩
    · exact
        { contents := hContents
          queued := by rw [hEq]; nofun
          idle := by rw [hEq]; exact fun _ => rfl
          started := by rw [hEq]; nofun }
    · have hSame :
          p.payload_unit_start_indicator = false →
            r.stream.discontinuity p.continuity_counter = false
          := by
        intro hMore
        rw [← Bool.not_eq_true]
        intro hLost
        rw [hGoes hLost] at hMore
        cases hMore
      refine ⟨hContents, fun _ => hKept, ?_, ?_⟩
      · intro hNot
        rw [hNot] at hBuffer
        rw [hStarted, Bool.or_eq_false_iff] at hNot
        rw [hBuffer, hNot.1, h.resync_idle hNot.2]
        rfl
      · intro hIs
        rw [hIs, if_pos rfl] at hBuffer
        cases hBegins : p.payload_unit_start_indicator with
        | true =>
          refine ⟨seen, [p], rfl, isOpenRun_single hBegins ?_ hCounter⟩
          rw [hBuffer, hBegins, Bool.true_and]
          split
          · rfl
          · rename_i hIdle
            rw [h.resync_idle (Bool.not_eq_true _ ▸ hIdle)]
            rfl
        | false =>
          have hExpected := hSame hBegins
          have hResync : r.stream.resync p.continuity_counter = r.stream := by
            unfold Stream.resync
            rw [if_neg (by rw [hExpected]; decide)]
          rw [hIs, hBegins, Bool.false_or, hResync] at hStarted
          rw [hBegins, Bool.false_and, hResync] at hBuffer
          rcases h.started hStarted.symm with ⟨before, run, hSeen, hRun⟩
          refine ⟨before, run ++ [p], ?_, isOpenRun_append hRun hBegins hExpected hBuffer hCounter⟩
          rw [hSeen, List.append_assoc]

/- What is passed are the payloads of a run. -/
theorem Assembling.passes (h : r.Assembling seen) {p : Packet} (after : List Packet)
    {bytes : List Byte} (hPasses : bytes ∈ r.passes p) :
    ∃ i,
      IsRun (seen ++ p :: after) i seen.length ∧
        bytes = payloads (seen ++ p :: after) i seen.length := by
  unfold Receiver.passes at hPasses
  split at hPasses
  · cases hPasses
  split at hPasses
  · rename_i hFlushes
    rcases (flushes_iff p).mp hFlushes with ⟨hStarts, hExpected, hStarted⟩
    have hResync : r.resync p = r := by
      unfold resync
      rw [if_neg (by rw [hExpected]; decide)]
    rw [hResync] at hPasses
    split at hPasses
    · cases hPasses
    rw [List.mem_singleton.mp hPasses, h.contents]
    rcases h.started hStarted with
      ⟨before, run, hSeen, first, rest, hRun, hFirst, hRest, _, hBytes, hNext⟩
    have hLength : seen.length = before.length + run.length := by
      rw [hSeen, List.length_append]
    refine ⟨before.length, ?_, ?_⟩
    · refine ⟨before, first, rest, p, after, ?_, rfl, ?_, hFirst, hRest, hStarts, ?_⟩
      · rw [hSeen, hRun]
      · rw [hLength, hRun]
      · rw [← hRun]
        exact hNext p hExpected
    · rw [hBytes, hLength, hSeen, payloads_middle]
  · cases hPasses

theorem eq_singleton_of_mem {α : Type} {x : α} {xs : List α} (hLength : xs.length ≤ 1)
    (hMem : x ∈ xs) : xs = [x] := by
  cases xs with
  | nil => cases hMem
  | cons y ys =>
    have hNone : ys = [] := by
      rw [List.length_cons] at hLength
      exact List.length_eq_zero_iff.mp (by omega)
    rw [hNone] at hMem ⊢
    rw [List.mem_singleton.mp hMem]

/- At most one string is passed for a packet. -/
theorem passes_length (p : Packet) : (r.passes p).length ≤ 1 := by
  unfold Receiver.passes
  split
  · exact Nat.zero_le 1
  · split
    · split
      · exact Nat.zero_le 1
      · exact Nat.le_refl 1
    · exact Nat.zero_le 1

/- A string passed for the packet `j` is a run up to it. -/
theorem passedAt_run {packets : List Packet} {j : Nat} {bytes : List Byte} (hInit : r.Assembling [])
    (hPassed : bytes ∈ r.passedAt packets j) :
    ∃ i, IsRun packets i j ∧ bytes = payloads packets i j := by
  unfold passedAt at hPassed
  split at hPassed
  · rename_i s p hExec hGet
    have hStep :
        ∀ seen (r : Receiver) p t, r.Assembling seen →
          r.receive p = some t → t.Assembling (seen ++ [p]) :=
      fun _ _ p _ h hOne => h.receive p hOne
    have hSeen : s.Assembling (packets.take j) := Run.exec_history_invariant hStep hExec hInit
    rcases List.getElem?_eq_some_iff.mp hGet with ⟨hj, hEq⟩
    have hLength : (packets.take j).length = j := by
      rw [List.length_take, Nat.min_eq_left (Nat.le_of_lt hj)]
    have hAll : packets.take j ++ p :: packets.drop (j + 1) = packets := by
      rw [← hEq, List.getElem_cons_drop, List.take_append_drop]
    have hRun := hSeen.passes (packets.drop (j + 1)) hPassed
    rw [hLength, hAll] at hRun
    exact hRun
  · cases hPassed

/-
  Every string that a new stream passes to `parsePES` is the concatenation of the payloads of a run
  that no counter gap breaks, one string for a run, and the runs have no packet in common.
-/
theorem passed_runs (elementaryPID streamType PCR_PID : Nat) (packets : List Packet) :
    ∃ first : Nat → Nat,
      ∀ j, ∀ bytes ∈ (new elementaryPID streamType PCR_PID).passedAt packets j,
        IsRun packets (first j) j ∧ bytes = payloads packets (first j) j ∧
          (new elementaryPID streamType PCR_PID).passedAt packets j = [bytes] ∧
          ∀ k < j,
            (new elementaryPID streamType PCR_PID).passedAt packets k ≠ [] → k ≤ first j := by
  have hInit := new_assembling elementaryPID streamType PCR_PID
  generalize new elementaryPID streamType PCR_PID = r at *
  have hOne : ∀ j, (r.passedAt packets j).length ≤ 1 := by
    intro j
    unfold passedAt
    split
    · exact passes_length _
    · exact Nat.zero_le 1
  have hRuns :
      ∀ j, ∃ i, ∀ bytes ∈ r.passedAt packets j,
        IsRun packets i j ∧ bytes = payloads packets i j := by
    intro j
    cases hPassed : r.passedAt packets j with
    | nil => exact ⟨0, nofun⟩
    | cons bytes others =>
      have hMem : bytes ∈ r.passedAt packets j := by
        rw [hPassed]
        exact List.mem_cons_self
      rcases passedAt_run hInit hMem with ⟨i, hRun⟩
      refine ⟨i, ?_⟩
      rw [← hPassed, eq_singleton_of_mem (hOne j) hMem]
      intro bytes' hMem'
      rw [List.mem_singleton.mp hMem']
      exact hRun
  choose first hFirst using hRuns
  refine ⟨first, ?_⟩
  intro j bytes hMem
  rcases hFirst j bytes hMem with ⟨hRun, hBytes⟩
  refine ⟨hRun, hBytes, ?_, ?_⟩
  · exact eq_singleton_of_mem (hOne j) hMem
  · intro k hk hSome
    rcases List.exists_mem_of_ne_nil _ hSome with ⟨other, hOther⟩
    exact (hFirst k other hOther).1.disjoint hRun hk

end Receiver

end ATSParser

end FrameworksAv
