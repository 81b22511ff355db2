import FrameworksAv.RTP.Elementary
import FrameworksAv.RTP.Progress

/-
  The headers of a generic packet.

  The headers are a section of bits with a length of its own. A header that the section has no room
  for ends it; the fields it has room for have to be inside the packet.

  Main declarations:
    * `HeaderLoop.Sees`
    * `ElementaryParams.HeaderRead`
    * `ElementaryParams.HeadersEnd`
    * `ElementaryParams.headerTurn_spec`
-/

--
-- Fields
--

namespace FrameworksAv

namespace RTP

open ATSParser (ABitReader field)

namespace HeaderLoop

/- So many bits were read, and so many are left. -/
structure Sees (s : HeaderLoop) (bytes : List Byte) (pos left : Nat) : Prop where
  bits : s.bits.At bytes pos
  numBitsLeft : s.numBitsLeft = left

variable {s : HeaderLoop} {bytes : List Byte} {pos left : Nat}

theorem Sees.getBits (hSees : s.Sees bytes pos left) {n : Nat} (hWidth : n ≤ 32)
    (hInside : pos + n ≤ 8 * bytes.length) :
    ∃ t,
      s.getBits n = .returns (field bytes pos n, t) ∧ t.Sees bytes (pos + n) (left - n) ∧
        t.headers = s.headers ∧ t.AU_serial = s.AU_serial := by
  rcases hSees.bits.getBits hWidth hInside with ⟨bits, hGet, hAt⟩
  rw [HeaderLoop.getBits, hGet]
  exact ⟨_, rfl, ⟨hAt, congrArg (· - n) hSees.numBitsLeft⟩,
    rfl, rfl⟩

theorem Sees.getBits_aborts (hSees : s.Sees bytes pos left) {n : Nat}
    (hNot : ¬(n ≤ 32 ∧ pos + n ≤ 8 * bytes.length)) : s.getBits n = .aborts := by
  have hNone : s.bits.getBits n = none := by
    by_cases hWidth : n ≤ 32
    · refine hSees.bits.getBits_none ?_
      omega
    · exact if_pos (by omega)
  rw [HeaderLoop.getBits, hNone]
  rfl

theorem Sees.skipBits (hSees : s.Sees bytes pos left) {n : Nat}
    (hInside : pos + n ≤ 8 * bytes.length) :
    ∃ t,
      s.skipBits n = .returns t ∧ t.Sees bytes (pos + n) (left - n) ∧
        t.headers = s.headers ∧ t.AU_serial = s.AU_serial := by
  rcases hSees.bits.skipBits hInside with ⟨bits, hSkip, hAt⟩
  rw [HeaderLoop.skipBits, hSkip]
  exact ⟨_, rfl, ⟨hAt, congrArg (· - n) hSees.numBitsLeft⟩,
    rfl, rfl⟩

theorem Sees.skipBits_aborts (hSees : s.Sees bytes pos left) {n : Nat}
    (hNot : ¬pos + n ≤ 8 * bytes.length) : s.skipBits n = .aborts := by
  rw [HeaderLoop.skipBits, hSees.bits.skipBits_none (by omega)]
  rfl

/- A part of a header of so many bits: not readable, cut off by the end of the section, or read. -/
def Part (s : HeaderLoop) (bytes : List Byte) (pos left count rest : Nat) (readable : Prop)
    (result : Result (Option HeaderLoop)) : Prop :=
  (¬readable → result = .aborts) ∧ (readable → left < count → result = .returns none) ∧
    (readable → count ≤ left →
      ∃ t,
        result = .returns (some t) ∧ t.Sees bytes (pos + count) rest ∧ t.headers = s.headers ∧
          t.AU_serial = s.AU_serial)

theorem Part.aborts {count rest : Nat} {readable : Prop} {result : Result (Option HeaderLoop)}
    (hNot : ¬readable) (hResult : result = .aborts) :
    Part s bytes pos left count rest readable result :=
  ⟨fun _ => hResult, fun hRead => absurd hRead hNot, fun hRead => absurd hRead hNot⟩

theorem Part.cut {count rest : Nat} {readable : Prop} {result : Result (Option HeaderLoop)}
    (hRead : readable) (hCut : left < count) (hResult : result = .returns none) :
    Part s bytes pos left count rest readable result :=
  ⟨fun hNot => absurd hRead hNot, fun _ _ => hResult,
    fun _ hFits => absurd hCut (Nat.not_lt.mpr hFits)⟩

theorem Part.read {count rest : Nat} {readable : Prop} {result : Result (Option HeaderLoop)}
    {t : HeaderLoop} (hRead : readable) (hFits : count ≤ left)
    (hResult : result = .returns (some t)) (hSees : t.Sees bytes (pos + count) rest)
    (hHeaders : t.headers = s.headers) (hSerial : t.AU_serial = s.AU_serial) :
    Part s bytes pos left count rest readable result :=
  ⟨fun hNot => absurd hRead hNot, fun _ hCut => absurd hCut (Nat.not_lt.mpr hFits),
    fun _ _ => ⟨t, hResult, hSees, hHeaders, hSerial⟩⟩

/- The bits of a flag and of the number behind it. -/
def deltaBits (bytes : List Byte) (pos length : Nat) : Nat :=
  if length = 0 then 0
  else if field bytes pos 1 = 0 then 1
  else 1 + length

/- What is read of a flag and a number is inside the packet. -/
def DeltaRead (bytes : List Byte) (pos left length : Nat) : Prop :=
  (0 < length → 1 ≤ left → pos + 1 ≤ 8 * bytes.length) ∧
    (deltaBits bytes pos length ≤ left → pos + deltaBits bytes pos length ≤ 8 * bytes.length)

theorem Sees.skipDelta (hSees : s.Sees bytes pos left) (length : Nat) :
    Part s bytes pos left (deltaBits bytes pos length) (left - deltaBits bytes pos length)
      (DeltaRead bytes pos left length) (s.skipDelta length) := by
  have hInside := hSees.bits.pos_le_length
  have hLeft := hSees.numBitsLeft
  unfold HeaderLoop.skipDelta DeltaRead
  by_cases hNone : length = 0
  · have hBits : deltaBits bytes pos length = 0 := if_pos hNone
    rw [if_neg (by omega), hBits]
    exact .read ⟨by omega, fun _ => hInside⟩ (Nat.zero_le _)
      rfl hSees rfl rfl
  have hSome : 0 < length := by omega
  have hBits : deltaBits bytes pos length = if field bytes pos 1 = 0 then 1 else 1 + length :=
    if_neg hNone
  rw [if_pos hSome, hLeft]
  by_cases hFlag : left < 1
  · have hOne : 1 ≤ deltaBits bytes pos length := by
      rw [hBits]
      split <;> omega
    rw [if_pos hFlag]
    exact .cut ⟨by omega, by omega⟩ (by omega) rfl
  rw [if_neg hFlag]
  by_cases hThere : pos + 1 ≤ 8 * bytes.length
  case neg =>
    refine .aborts (fun hRead => hThere (hRead.1 hSome (by omega))) ?_
    rw [hSees.getBits_aborts (fun hBoth => hThere hBoth.2)]
    rfl
  rcases hSees.getBits (by decide : 1 ≤ 32) hThere with ⟨t, hGet, hNext, hHeaders, hSerial⟩
  rw [hGet, Result.bind_returns]
  by_cases hClear : field bytes pos 1 = 0
  · rw [if_pos hClear] at hBits
    simp only [hClear, ne_eq, not_true, if_false, hBits]
    exact .read ⟨fun _ _ => hThere, fun _ => hThere⟩ (by omega)
      rfl hNext hHeaders hSerial
  rw [if_neg hClear] at hBits
  simp only [hClear, ne_eq, not_false_iff, if_true, hNext.numBitsLeft, hBits]
  by_cases hCut : left - 1 < length
  · rw [if_pos hCut]
    exact .cut ⟨fun _ _ => hThere, by omega⟩ (by omega) rfl
  rw [if_neg hCut]
  by_cases hAll : pos + 1 + length ≤ 8 * bytes.length
  · rcases hNext.skipBits hAll with ⟨u, hSkip, hLast, hHeaders', hSerial'⟩
    have hPos : pos + (1 + length) = pos + 1 + length := by
      omega
    have hRest : left - (1 + length) = left - 1 - length := by
      omega
    rw [hSkip]
    refine .read ⟨fun _ _ => hThere, by omega⟩ (by omega) rfl ?_
      (hHeaders'.trans hHeaders) (hSerial'.trans hSerial)
    rw [hPos, hRest]
    exact hLast
  · rw [hNext.skipBits_aborts hAll]
    refine .aborts ?_ rfl
    rintro ⟨_, hRead⟩
    have hLast := hRead (by omega)
    omega

/- The bits of the flag for random access. -/
def accessBits (present : Bool) : Nat :=
  if present then 1 else 0

theorem Sees.skipRandomAccess (hSees : s.Sees bytes pos left) (present : Bool) :
    Part s bytes pos left (accessBits present) (left - accessBits present)
      (accessBits present ≤ left → pos + accessBits present ≤ 8 * bytes.length)
      (s.skipRandomAccess present) := by
  have hInside := hSees.bits.pos_le_length
  cases present with
  | false =>
    exact .read (fun _ => hInside) (Nat.zero_le _) rfl hSees
      rfl rfl
  | true =>
    have hOne : accessBits true = 1 := rfl
    rw [hOne]
    unfold HeaderLoop.skipRandomAccess
    rw [if_pos rfl, hSees.numBitsLeft]
    by_cases hCut : left < 1
    · rw [if_pos hCut]
      exact .cut (by omega) hCut rfl
    rw [if_neg hCut]
    by_cases hThere : pos + 1 ≤ 8 * bytes.length
    · rcases hSees.skipBits hThere with ⟨t, hSkip, hNext, hHeaders, hSerial⟩
      rw [hSkip]
      exact .read (fun _ => hThere) (by omega) rfl hNext hHeaders hSerial
    · rw [hSees.skipBits_aborts hThere]
      exact .aborts (fun hRead => hThere (hRead (by omega)))
        rfl

theorem Sees.skipStreamState (hSees : s.Sees bytes pos left) (length : Nat) :
    Part s bytes pos left length left (length ≤ left → pos + length ≤ 8 * bytes.length)
      (s.skipStreamState length) := by
  have hInside := hSees.bits.pos_le_length
  unfold HeaderLoop.skipStreamState
  by_cases hSome : 0 < length
  · rw [if_pos hSome, hSees.numBitsLeft]
    by_cases hCut : left < length
    · rw [if_pos hCut]
      exact .cut (by omega) hCut rfl
    rw [if_neg hCut]
    by_cases hThere : pos + length ≤ 8 * bytes.length
    · rcases hSees.bits.skipBits hThere with ⟨bits, hSkip, hAt⟩
      rw [hSkip]
      exact .read (fun _ => hThere) (by omega) rfl ⟨hAt, rfl⟩ rfl rfl
    · rw [hSees.bits.skipBits_none (by omega)]
      exact .aborts (fun hRead => hThere (hRead (by omega))) rfl
  · have hNone : length = 0 := by omega
    rw [if_neg hSome, hNone]
    exact .read (fun _ => hInside) (Nat.zero_le _) rfl hSees rfl
      rfl

end HeaderLoop

--
-- Sections
--

open HeaderLoop (deltaBits DeltaRead accessBits)

namespace ElementaryParams

variable (params : ElementaryParams)
variable (bytes : List Byte)
variable (first : Bool)
variable (pos : Nat)

/- The index has another length in the first header. -/
def indexBits : Nat :=
  if first then params.mIndexLength
  else params.mIndexDeltaLength

/- The ends of the parts of a header, from its beginning on. -/
def indexEnd : Nat :=
  params.mSizeLength + params.indexBits first

def ctsEnd : Nat :=
  params.indexEnd first + deltaBits bytes (pos + params.indexEnd first) params.mCTSDeltaLength

def dtsEnd : Nat :=
  params.ctsEnd bytes first pos +
    deltaBits bytes (pos + params.ctsEnd bytes first pos) params.mDTSDeltaLength

/- The bits of a header that the section counts. -/
def headerBits : Nat :=
  params.dtsEnd bytes first pos + accessBits params.mRandomAccessIndication

/- The stream state behind it is not counted. -/
def headerEnd : Nat :=
  params.headerBits bytes first pos + params.mStreamStateIndication

/-
  The parts of a header that the section has room for are inside the packet, and its two numbers
  have at most 32 bits.
-/
def HeaderRead (left : Nat) : Prop :=
  (params.mSizeLength ≤ left →
      params.mSizeLength ≤ 32 ∧ pos + params.mSizeLength ≤ 8 * bytes.length) ∧
    (params.indexEnd first ≤ left →
      params.indexBits first ≤ 32 ∧ pos + params.indexEnd first ≤ 8 * bytes.length) ∧
    (params.indexEnd first ≤ left →
      DeltaRead bytes (pos + params.indexEnd first) (left - params.indexEnd first)
        params.mCTSDeltaLength) ∧
    (params.ctsEnd bytes first pos ≤ left →
      DeltaRead bytes (pos + params.ctsEnd bytes first pos) (left - params.ctsEnd bytes first pos)
        params.mDTSDeltaLength) ∧
    (params.headerBits bytes first pos ≤ left →
      pos + params.headerBits bytes first pos ≤ 8 * bytes.length) ∧
    (params.headerEnd bytes first pos ≤ left →
      pos + params.headerEnd bytes first pos ≤ 8 * bytes.length)

/-
  From a place on the section has finitely many headers, of access units of these sizes, until one
  is cut off.
-/
inductive HeadersEnd (params : ElementaryParams) (bytes : List Byte) :
    Bool → Nat → Nat → List Nat → Prop
| cut {first : Bool} {pos left : Nat} (hRead : params.HeaderRead bytes first pos left)
    (hCut : left < params.headerEnd bytes first pos) : HeadersEnd params bytes first pos left []
| more {first : Bool} {pos left : Nat} {sizes : List Nat}
    (hRead : params.HeaderRead bytes first pos left)
    (hFits : params.headerEnd bytes first pos ≤ left)
    (hRest :
      HeadersEnd params bytes false (pos + params.headerEnd bytes first pos)
        (left - params.headerBits bytes first pos) sizes) :
    HeadersEnd params bytes first pos left (field bytes pos params.mSizeLength :: sizes)

variable {params bytes first pos} {s : HeaderLoop} {left : Nat}

theorem indexLength_eq (hFirst : first = true ↔ s.headers = []) :
    params.indexLength s.headers = params.indexBits first := by
  unfold indexLength indexBits
  by_cases hEmpty : s.headers = []
  · rw [if_pos hEmpty, if_pos (hFirst.mpr hEmpty)]
  · rw [if_neg hEmpty, if_neg (mt hFirst.mp hEmpty)]

/- What a turn of the loop over the headers comes to. -/
def Turn (params : ElementaryParams) (s : HeaderLoop)
    (bytes : List Byte) (first : Bool) (pos left : Nat)
    (result : Result (HeaderLoop ⊕ List AUHeader)) : Prop :=
  (¬params.HeaderRead bytes first pos left → result = .aborts) ∧
    (params.HeaderRead bytes first pos left →
      left < params.headerEnd bytes first pos → result = .returns (.inr s.headers)) ∧
    (params.HeaderRead bytes first pos left →
      params.headerEnd bytes first pos ≤ left →
        ∃ t serial,
          result = .returns (.inl t) ∧
            t.Sees bytes (pos + params.headerEnd bytes first pos)
              (left - params.headerBits bytes first pos) ∧
            t.headers = s.headers ++ [⟨field bytes pos params.mSizeLength, serial⟩])

variable {result : Result (HeaderLoop ⊕ List AUHeader)}

theorem Turn.aborts (hNot : ¬params.HeaderRead bytes first pos left) (hResult : result = .aborts) :
    params.Turn s bytes first pos left result :=
  ⟨fun _ => hResult, fun hRead => absurd hRead hNot, fun hRead => absurd hRead hNot⟩

theorem Turn.cut (hRead : params.HeaderRead bytes first pos left)
    (hCut : left < params.headerEnd bytes first pos)
    (hResult : result = .returns (.inr s.headers)) : params.Turn s bytes first pos left result :=
  ⟨fun hNot => absurd hRead hNot, fun _ _ => hResult,
    fun _ hFits => absurd hCut (Nat.not_lt.mpr hFits)⟩

/- The parts of a header one after the other. -/
theorem headerTurn_spec (hSees : s.Sees bytes pos left) (hFirst : first = true ↔ s.headers = []) :
    params.Turn s bytes first pos left (params.headerTurn s) := by
  have hIndexEnd : params.mSizeLength ≤ params.indexEnd first := Nat.le_add_right _ _
  have hCtsEnd : params.indexEnd first ≤ params.ctsEnd bytes first pos := Nat.le_add_right _ _
  have hDtsEnd : params.ctsEnd bytes first pos ≤ params.dtsEnd bytes first pos :=
    Nat.le_add_right _ _
  have hBitsEnd : params.dtsEnd bytes first pos ≤ params.headerBits bytes first pos :=
    Nat.le_add_right _ _
  have hEnd : params.headerBits bytes first pos ≤ params.headerEnd bytes first pos :=
    Nat.le_add_right _ _
  unfold headerTurn
  rw [hSees.numBitsLeft]
  -- the size
  by_cases hSizeCut : left < params.mSizeLength
  · rw [if_pos hSizeCut]
    refine .cut ⟨?_, ?_, ?_, ?_, ?_, ?_⟩ (by omega) rfl <;>
      exact fun hFits => absurd hFits (by omega)
  rw [if_neg hSizeCut]
  by_cases hSize : params.mSizeLength ≤ 32 ∧ pos + params.mSizeLength ≤ 8 * bytes.length
  case neg =>
    rw [hSees.getBits_aborts hSize]
    exact .aborts (fun hRead => hSize (hRead.1 (by omega))) rfl
  rcases hSees.getBits hSize.1 hSize.2 with ⟨s₁, hGet, hSees₁, hHeaders₁, _⟩
  rw [hGet, Result.bind_returns]
  simp only [hHeaders₁, indexLength_eq hFirst, hSees₁.numBitsLeft]
  -- the index
  have hIndexPos :
      pos + params.mSizeLength + params.indexBits first = pos + params.indexEnd first :=
    Nat.add_assoc _ _ _
  have hIndexLeft :
      left - params.mSizeLength - params.indexBits first =
        left - params.indexEnd first :=
    Nat.sub_sub _ _ _
  have hIndexSum : params.indexEnd first = params.mSizeLength + params.indexBits first := rfl
  by_cases hIndexCut :
      left - params.mSizeLength < params.indexBits first
  · rw [if_pos hIndexCut]
    refine .cut ⟨fun _ => hSize, ?_, ?_, ?_, ?_, ?_⟩ (by omega)
      rfl <;> exact fun hFits => absurd hFits (by omega)
  rw [if_neg hIndexCut]
  by_cases hIndex : params.indexBits first ≤ 32 ∧ pos + params.indexEnd first ≤ 8 * bytes.length
  case neg =>
    rw [hSees₁.getBits_aborts (fun hBoth => hIndex ⟨hBoth.1, hIndexPos ▸ hBoth.2⟩)]
    exact .aborts (fun hRead => hIndex (hRead.2.1 (by omega)))
      rfl
  rcases hSees₁.getBits hIndex.1 (hIndexPos ▸ hIndex.2) with ⟨s₂, hGetIndex, hSees₂, hHeaders₂, _⟩
  rw [hIndexPos, hIndexLeft] at hSees₂
  rw [hGetIndex, Result.bind_returns]
  generalize (if s₂.headers = [] then _ else _) = serial
  generalize hNumbers : ({ s₂ with AU_serial := serial } : HeaderLoop) = s₃
  have hSees₃ : s₃.Sees bytes (pos + params.indexEnd first) (left - params.indexEnd first) := by
    rw [← hNumbers]
    exact ⟨hSees₂.bits, hSees₂.numBitsLeft⟩
  have hHeaders₃ : s₃.headers = s.headers := by
    rw [← hNumbers]
    exact hHeaders₂.trans hHeaders₁
  simp only [hHeaders₂.trans hHeaders₁]
  -- the composition time
  rcases hSees₃.skipDelta params.mCTSDeltaLength with ⟨hCtsAborts, hCtsCut, hCtsRead⟩
  have hCtsSum :
      params.ctsEnd bytes first pos =
        params.indexEnd first +
          deltaBits bytes (pos + params.indexEnd first) params.mCTSDeltaLength := rfl
  by_cases hCts :
      DeltaRead bytes (pos + params.indexEnd first)
        (left - params.indexEnd first) params.mCTSDeltaLength
  case neg =>
    rw [hCtsAborts hCts]
    exact .aborts (fun hRead => hCts (hRead.2.2.1 (by omega)))
      rfl
  by_cases hCtsFits : params.ctsEnd bytes first pos ≤ left
  case neg =>
    rw [hCtsCut hCts (by omega)]
    refine .cut ⟨fun _ => hSize, fun _ => hIndex, fun _ => hCts, ?_, ?_, ?_⟩ (by omega) rfl <;>
      exact fun hFits => absurd hFits (by omega)
  rcases hCtsRead hCts (by omega) with ⟨s₄, hCtsSkip, hSees₄, hHeaders₄, _⟩
  rw [Nat.add_assoc, ← hCtsSum, Nat.sub_sub, ← hCtsSum] at hSees₄
  rw [hCtsSkip]
  show params.Turn s bytes first pos left (HeaderLoop.orBreak (s₄.skipDelta _) _ _)
  -- the decoding time
  rcases hSees₄.skipDelta params.mDTSDeltaLength with ⟨hDtsAborts, hDtsCut, hDtsRead⟩
  have hDtsSum :
      params.dtsEnd bytes first pos =
        params.ctsEnd bytes first pos +
          deltaBits bytes (pos + params.ctsEnd bytes first pos) params.mDTSDeltaLength := rfl
  by_cases hDts :
      DeltaRead bytes (pos + params.ctsEnd bytes first pos) (left - params.ctsEnd bytes first pos)
        params.mDTSDeltaLength
  case neg =>
    rw [hDtsAborts hDts]
    exact .aborts (fun hRead => hDts (hRead.2.2.2.1 hCtsFits)) rfl
  by_cases hDtsFits : params.dtsEnd bytes first pos ≤ left
  case neg =>
    rw [hDtsCut hDts (by omega)]
    refine .cut
      ⟨fun _ => hSize, fun _ => hIndex, fun _ => hCts, fun _ => hDts, ?_, ?_⟩ (by omega) rfl <;>
      exact fun hFits => absurd hFits (by omega)
  rcases hDtsRead hDts (by omega) with ⟨s₅, hDtsSkip, hSees₅, hHeaders₅, _⟩
  rw [Nat.add_assoc, ← hDtsSum, Nat.sub_sub, ← hDtsSum] at hSees₅
  rw [hDtsSkip]
  show params.Turn s bytes first pos left (HeaderLoop.orBreak (s₅.skipRandomAccess _) _ _)
  -- the random access
  rcases hSees₅.skipRandomAccess params.mRandomAccessIndication with
    ⟨hFlagAborts, hFlagCut, hFlagRead⟩
  have hFlagSum :
      params.headerBits bytes first pos =
        params.dtsEnd bytes first pos + accessBits params.mRandomAccessIndication := rfl
  by_cases hFlag :
      params.headerBits bytes first pos ≤ left →
        pos + params.headerBits bytes first pos ≤ 8 * bytes.length
  case neg =>
    rw [hFlagAborts (by omega)]
    exact .aborts (fun hRead => hFlag hRead.2.2.2.2.1) rfl
  by_cases hFlagFits : params.headerBits bytes first pos ≤ left
  case neg =>
    rw [hFlagCut (by omega) (by omega)]
    refine .cut
      ⟨fun _ => hSize, fun _ => hIndex, fun _ => hCts, fun _ => hDts, hFlag, ?_⟩ (by omega) rfl
    exact fun hFits => absurd hFits (by omega)
  rcases hFlagRead (by omega) (by omega) with ⟨s₆, hFlagSkip, hSees₆, hHeaders₆, _⟩
  rw [Nat.add_assoc, ← hFlagSum, Nat.sub_sub, ← hFlagSum] at hSees₆
  rw [hFlagSkip]
  show params.Turn s bytes first pos left (HeaderLoop.orBreak (s₆.skipStreamState _) _ _)
  -- the stream state
  rcases hSees₆.skipStreamState params.mStreamStateIndication with
    ⟨hStateAborts, hStateCut, hStateRead⟩
  have hStateSum :
      params.headerEnd bytes first pos =
        params.headerBits bytes first pos + params.mStreamStateIndication := rfl
  by_cases hState :
      params.headerEnd bytes first pos ≤ left →
        pos + params.headerEnd bytes first pos ≤ 8 * bytes.length
  case neg =>
    rw [hStateAborts (by omega)]
    exact .aborts (fun hRead => hState hRead.2.2.2.2.2) rfl
  have hRead : params.HeaderRead bytes first pos left :=
    ⟨fun _ => hSize, fun _ => hIndex, fun _ => hCts, fun _ => hDts, hFlag, hState⟩
  by_cases hStateFits : params.headerEnd bytes first pos ≤ left
  case neg =>
    rw [hStateCut (by omega) (by omega)]
    exact .cut hRead (by omega) rfl
  rcases hStateRead (by omega) (by omega) with ⟨s₇, hStateSkip, hSees₇, hHeaders₇, _⟩
  rw [Nat.add_assoc, ← hStateSum] at hSees₇
  rw [hStateSkip]
  refine ⟨fun hNot => absurd hRead hNot, fun _ hCut => absurd hStateFits (by omega),
    fun _ _ => ⟨_, serial, rfl, ⟨hSees₇.bits, hSees₇.numBitsLeft⟩, ?_⟩⟩
  simp only [hHeaders₇, hHeaders₆, hHeaders₅, hHeaders₄, hHeaders₃]

/- By the fuel: a section that was read has an end. -/
theorem headersEnd_of_returns {fuel : Nat} {headers : List AUHeader} (hSees : s.Sees bytes pos left)
    (hFirst : first = true ↔ s.headers = [])
    (hReturns : Result.loop (fun _ => params.headerTurn) fuel s = .returns headers) :
    ∃ sizes,
      params.HeadersEnd bytes first pos left sizes ∧
        headers.map AUHeader.mSize = s.headers.map AUHeader.mSize ++ sizes := by
  induction fuel generalizing s first pos left with
  | zero => cases hReturns
  | succ fuel ih =>
    rcases headerTurn_spec hSees hFirst with ⟨hAborts, hCut, hMore⟩
    rw [Result.loop] at hReturns
    by_cases hRead : params.HeaderRead bytes first pos left
    case neg =>
      rw [hAborts hRead] at hReturns
      cases hReturns
    by_cases hFits : params.headerEnd bytes first pos ≤ left
    case neg =>
      rw [hCut hRead (by omega)] at hReturns
      cases hReturns
      exact ⟨[], .cut hRead (by omega), (List.append_nil _).symm⟩
    rcases hMore hRead hFits with ⟨t, serial, hTurn, hNext, hHeaders⟩
    rw [hTurn] at hReturns
    have hLater : false = true ↔ t.headers = [] := by
      rw [hHeaders]
      simp
    rcases ih hNext hLater hReturns with ⟨sizes, hEnd, hSizes⟩
    refine ⟨_, .more hRead hFits hEnd, ?_⟩
    rw [hSizes, hHeaders, List.map_append, List.append_assoc]
    rfl

/- By the headers: a section with an end is read. -/
theorem HeadersEnd.reaches {sizes : List Nat} (hEnd : params.HeadersEnd bytes first pos left sizes)
    (hSees : s.Sees bytes pos left) (hFirst : first = true ↔ s.headers = []) :
    ∃ headers,
      Reaches
          (fun fuel =>
            Result.loop (fun _ => params.headerTurn) fuel s)
          headers ∧
        headers.map AUHeader.mSize = s.headers.map AUHeader.mSize ++ sizes := by
  induction hEnd generalizing s with
  | cut hRead hCut =>
    have hTurn := (headerTurn_spec hSees hFirst).2.1 hRead hCut
    exact ⟨s.headers, .loop_end (.of_eq (fun _ => hTurn)), (List.append_nil _).symm⟩
  | more hRead hFits hRest ih =>
    rcases (headerTurn_spec hSees hFirst).2.2 hRead hFits with ⟨t, serial, hTurn, hNext, hHeaders⟩
    have hLater : false = true ↔ t.headers = [] := by
      rw [hHeaders]
      simp
    rcases ih hNext hLater with ⟨headers, hAll, hSizes⟩
    refine ⟨headers, .loop_turn (.of_eq (fun _ => hTurn)) hAll, ?_⟩
    rw [hSizes, hHeaders, List.map_append, List.append_assoc]
    rfl

theorem create_sees (bytes : List Byte) (left : Nat) :
    HeaderLoop.Sees ⟨.create bytes, left, 0, []⟩ bytes 0 left :=
  ⟨ABitReader.create_at bytes, rfl⟩

/-
  Without a stream state every section is read whose numbers are small enough and whose headers take
  at least one bit.
-/
theorem headersEnd_of_lengths (hState : params.mStreamStateIndication = 0)
    (hSize : params.mSizeLength ≤ 32) (hIndex : params.mIndexLength ≤ 32)
    (hDelta : params.mIndexDeltaLength ≤ 32)
    (hSome : 0 < params.mSizeLength + params.mIndexDeltaLength) (first : Bool)
    (hInside : pos + left ≤ 8 * bytes.length) :
    ∃ sizes, params.HeadersEnd bytes first pos left sizes := by
  have hRead :
      ∀ (first : Bool) (pos left : Nat),
        pos + left ≤ 8 * bytes.length → params.HeaderRead bytes first pos left := by
    intro first pos left hInside
    have hWidth : params.indexBits first ≤ 32 := by
      unfold indexBits
      split <;> assumption
    have hEnd : params.headerEnd bytes first pos = params.headerBits bytes first pos := by
      rw [headerEnd, hState, Nat.add_zero]
    refine ⟨fun _ => ⟨hSize, by omega⟩, fun _ => ⟨hWidth, by omega⟩, ?_, ?_, by omega, by omega⟩
    · exact fun _ => ⟨by omega, by omega⟩
    · exact fun _ => ⟨by omega, by omega⟩
  have hLater :
      ∀ left pos, pos + left ≤ 8 * bytes.length →
        ∃ sizes, params.HeadersEnd bytes false pos left sizes := by
    intro left
    induction left using Nat.strongRecOn with
    | ind left ih =>
      intro pos hInside
      by_cases hFits : params.headerEnd bytes false pos ≤ left
      case neg =>
        exact ⟨[], .cut (hRead false pos left hInside) (by omega)⟩
      have hEnd : params.headerEnd bytes false pos = params.headerBits bytes false pos := by
        rw [headerEnd, hState, Nat.add_zero]
      have hBits :
          params.mSizeLength + params.mIndexDeltaLength ≤ params.headerBits bytes false pos := by
        unfold headerBits dtsEnd ctsEnd indexEnd indexBits
        simp only [Bool.false_eq_true, if_false]
        omega
      rcases ih (left - params.headerBits bytes false pos)
        (by omega) (pos + params.headerEnd bytes false pos) (by omega) with ⟨sizes, hRest⟩
      exact ⟨_, .more (hRead false pos left hInside) hFits hRest⟩
  by_cases hFits : params.headerEnd bytes first pos ≤ left
  case neg =>
    exact ⟨[], .cut (hRead first pos left hInside) (by omega)⟩
  have hEnd : params.headerEnd bytes first pos = params.headerBits bytes first pos := by
    rw [headerEnd, hState, Nat.add_zero]
  rcases hLater (left - params.headerBits bytes first pos)
    (pos + params.headerEnd bytes first pos) (by omega) with ⟨sizes, hRest⟩
  exact ⟨_, .more (hRead first pos left hInside) hFits hRest⟩

/- The loop over the headers ends then, inside the packet, whatever the bits are. -/
theorem headers_returned (hState : params.mStreamStateIndication = 0)
    (hSize : params.mSizeLength ≤ 32) (hIndex : params.mIndexLength ≤ 32)
    (hDelta : params.mIndexDeltaLength ≤ 32)
    (hSome : 0 < params.mSizeLength + params.mIndexDeltaLength)
    (hInside : left ≤ 8 * bytes.length) :
    ∃ headers sizes,
      params.HeadersEnd bytes true 0 left sizes ∧ headers.map AUHeader.mSize = sizes ∧
        Reaches
          (fun fuel =>
            Result.loop (fun _ => params.headerTurn) fuel ⟨.create bytes, left, 0, []⟩)
          headers := by
  rcases headersEnd_of_lengths hState hSize hIndex hDelta hSome true
    (by rwa [Nat.zero_add] : 0 + left ≤ 8 * bytes.length) with ⟨sizes, hEnd⟩
  rcases hEnd.reaches (create_sees bytes left) (iff_of_true rfl rfl) with
    ⟨headers, hReaches, hSizes⟩
  exact ⟨headers, sizes, hEnd, hSizes, hReaches⟩

/- The lengths of the AAC-hbr mode. -/
def hbr : ElementaryParams := ⟨true, 13, 3, 3, 0, 0, false, 0, 0, 2, 4⟩

theorem headers_returned_hbr :
    ∃ headers sizes,
      hbr.HeadersEnd [0x0c, 0x88] true 0 16 sizes ∧ headers.map AUHeader.mSize = sizes ∧
        Reaches
          (fun fuel =>
            Result.loop (fun _ => hbr.headerTurn) fuel ⟨.create [0x0c, 0x88], 16, 0, []⟩)
          headers :=
  headers_returned rfl (by decide) (by decide) (by decide) (by decide) (by decide)

end ElementaryParams

end RTP

end FrameworksAv
