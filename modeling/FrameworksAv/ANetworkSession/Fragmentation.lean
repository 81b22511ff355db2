import FrameworksAv.ANetworkSession.Parsing
import FrameworksAv.ANetworkSession.RoundTrip

/-
  RTSP messages and the pieces of their stream.

  Messages and binary packets are taken off by their own bytes. The exception that is made for one
  content looks at the bytes behind it, which may not be there yet, and it compares 17 bytes of
  contents that may be shorter.

  Main declarations:
    * `plainTurn`, `rtspFraming`
    * `receive`, `Cut`, `Independent`
    * `readLoop_rtsp`, `receive_bytes`
    * `fragmentation_iff`
-/

--
-- Messages and Packets
--

namespace FrameworksAv

namespace ANetworkSession

/- What is in front of a buffer, without the exception. -/
def plainTurn (buffer : List Byte) : Option (Note × Nat) :=
  if buffer.head? = some 0x24 then if buffer.length < 4 then none
    else if buffer.length < 4 + U16_AT (buffer.drop 2) then none
    else
      some
        (.kWhatBinaryData buffer[1]! ((buffer.drop 4).take (U16_AT (buffer.drop 2))),
          4 + U16_AT (buffer.drop 2))
  else
    match parse buffer false with
    | .ok (some (msg, length)) => some (.kWhatData msg, length)
    | _ => none

/- A content that the exception does not concern. -/
def Clean (msg : ParsedMessage) : Prop :=
  17 ≤ msg.mContent.length ∧ msg.mContent.take 17 ≠ idrRequest

instance (msg : ParsedMessage) : Decidable (Clean msg) :=
  inferInstanceAs (Decidable (_ ∧ _))

variable {buffer other : List Byte} {note : Note} {n : Nat}

theorem plainTurn_packet (hHead : buffer.head? = some 0x24)
    (hNext : plainTurn buffer = some (note, n)) :
    n = 4 + U16_AT (buffer.drop 2) ∧ n ≤ buffer.length ∧
      note = .kWhatBinaryData buffer[1]! ((buffer.drop 4).take (n - 4)) := by
  unfold plainTurn at hNext
  rw [if_pos hHead] at hNext
  split at hNext
  · cases hNext
  · split at hNext
    · cases hNext
    · cases hNext
      refine ⟨rfl, by omega, ?_⟩
      rw [Nat.add_sub_cancel_left]

theorem plainTurn_message (hHead : buffer.head? ≠ some 0x24)
    (hNext : plainTurn buffer = some (note, n)) :
    ∃ msg,
      note = .kWhatData msg ∧ parse buffer false = .ok (some (msg, n)) ∧
        n ≤ buffer.length ∧ msg.mContent.length + 2 ≤ n := by
  unfold plainTurn at hNext
  rw [if_neg hHead] at hNext
  rcases parse_ok buffer with ⟨found, hParse, hFound⟩
  rw [hParse] at hNext
  rcases found with _ | ⟨msg, m⟩
  · cases hNext
  · cases hNext
    exact ⟨msg, rfl, hParse, hFound msg n rfl⟩

theorem plainTurn_bounds (hNext : plainTurn buffer = some (note, n)) :
    2 ≤ n ∧ n ≤ buffer.length := by
  by_cases hHead : buffer.head? = some 0x24
  · rcases plainTurn_packet hHead hNext with ⟨hn, hFits, -⟩
    exact ⟨by omega, hFits⟩
  · rcases plainTurn_message hHead hNext with ⟨msg, -, -, hFits, hLength⟩
    exact ⟨by omega, hFits⟩

theorem Agree.head? (hAgree : Agree n buffer other) (hPos : 0 < n) :
    other.head? = buffer.head? := by
  rw [List.head?_eq_getElem?, List.head?_eq_getElem?]
  exact (hAgree.2.2 0 hPos).symm

theorem Agree.get! (hAgree : Agree n buffer other) {i : Nat} (hi : i < n) :
    other[i]! = buffer[i]! := by
  rw [List.getElem!_eq_getElem?_getD, List.getElem!_eq_getElem?_getD, hAgree.2.2 i hi]

theorem Agree.drop (hAgree : Agree n buffer other) {k : Nat} (hk : k ≤ n) :
    Agree (n - k) (buffer.drop k) (other.drop k) := by
  refine ⟨?_, ?_, ?_⟩
  · rw [List.length_drop]
    exact Nat.sub_le_sub_right hAgree.1 k
  · rw [List.length_drop]
    exact Nat.sub_le_sub_right hAgree.2.1 k
  · intro i hi
    rw [List.getElem?_drop, List.getElem?_drop]
    exact hAgree.2.2 (k + i) (by omega)

theorem Agree.take (hAgree : Agree n buffer other) {k : Nat} (hk : k ≤ n) :
    other.take k = buffer.take k := by
  apply List.ext_getElem?
  intro i
  rw [List.getElem?_take, List.getElem?_take]
  split
  · exact (hAgree.2.2 i (by omega)).symm
  · rfl

theorem Agree.U16_AT (hAgree : Agree n buffer other) (hn : 2 ≤ n) :
    U16_AT other = U16_AT buffer := by
  unfold ANetworkSession.U16_AT
  rw [hAgree.get! (by omega), hAgree.get! (by omega)]

/- Only the bytes that are taken are looked at. -/
theorem plainTurn_local (hNext : plainTurn buffer = some (note, n))
    (hAgree : Agree n buffer other) : plainTurn other = some (note, n) := by
  have hBounds := plainTurn_bounds hNext
  by_cases hHead : buffer.head? = some 0x24
  · have hHeadOther := hAgree.head? (by omega)
    rw [hHead] at hHeadOther
    rcases plainTurn_packet hHead hNext with ⟨hn, hFits, rfl⟩
    have hOther := hAgree.2.1
    have hLength : ANetworkSession.U16_AT (other.drop 2) = ANetworkSession.U16_AT (buffer.drop 2) :=
      (hAgree.drop (show 2 ≤ n by omega)).U16_AT (by omega)
    unfold plainTurn
    rw [if_pos hHeadOther, hLength, if_neg (by omega), if_neg (by omega), hAgree.get! (by omega),
      (hAgree.drop (show 4 ≤ n by omega)).take (by omega), hn, Nat.add_sub_cancel_left]
  · have hHeadOther := hAgree.head? (by omega)
    rcases plainTurn_message hHead hNext with ⟨msg, rfl, hParse, -⟩
    unfold plainTurn
    rw [if_neg (by rw [hHeadOther]; exact hHead), parse_local hParse hAgree]

theorem agree_append (hn : n ≤ buffer.length) (more : List Byte) :
    Agree n buffer (buffer ++ more) := by
  refine ⟨hn, ?_, ?_⟩
  · rw [List.length_append]
    omega
  · intro i hi
    rw [List.getElem?_append_left (by omega)]

/- How messages and packets are taken off the stream. -/
def rtspFraming : Framing Byte Note where
  next := plainTurn
  pos hNext := Nat.lt_of_lt_of_le Nat.zero_lt_two (plainTurn_bounds hNext).1
  fits hNext := (plainTurn_bounds hNext).2
  stable hNext more := plainTurn_local hNext (agree_append (plainTurn_bounds hNext).2 more)

end ANetworkSession

--
-- The Exception
--

namespace ANetworkSession

variable {buffer : List Byte} {note : Note} {n : Nat}

/- The line end that the exception looks for. -/
def LineEndAt (buffer : List Byte) (n : Nat) : Prop :=
  buffer[n]? = some 0x0D ∧ buffer[n + 1]? = some 0x0A

/- A message after which a line end would be taken along. -/
def Swallows (buffer : List Byte) (msg : ParsedMessage) (n : Nat) : Prop :=
  msg.mContent.take 17 = idrRequest ∧ LineEndAt buffer n

/- What a turn takes of the bytes behind a message. -/
def takeOf (buffer : List Byte) (note : Note) (n : Nat) : Take :=
  match note with
  | .kWhatData msg =>
    match wrongContentLength buffer msg.mContent n with
    | .ok wrong =>
      { note, length := if wrong then n + 2 else n
        inside := true }
    | .error _ => { note, length := n, inside := false }
  | _ => { note, length := n, inside := true }

theorem rtspTurn_eq (buffer : List Byte) :
    rtspTurn false buffer =
      .ok
        ((plainTurn buffer).map fun (note, n) =>
          takeOf buffer note n) := by
  unfold rtspTurn plainTurn
  by_cases hHead : buffer.head? = some 0x24
  · rw [if_pos hHead, if_pos hHead]
    dsimp only
    split
    · rfl
    · split
      · rfl
      · rfl
  · rw [if_neg hHead, if_neg hHead]
    rcases parse_ok buffer with ⟨found, hParse, -⟩
    rw [hParse, Checked.ok_bind]
    rcases found with _ | ⟨msg, m⟩
    · rfl
    · unfold takeOf
      dsimp only [Option.map_some]
      cases wrongContentLength buffer msg.mContent m <;> rfl

theorem wrongContentLength_short (buffer : List Byte) {content : List Byte}
    (hShort : content.length < 17) (n : Nat) :
    wrongContentLength buffer content n = .error .outside := by
  unfold wrongContentLength
  rw [Buffer.slice, if_neg (by omega)]
  exact rfl

theorem wrongContentLength_other (buffer : List Byte) {content : List Byte}
    (hLong : 17 ≤ content.length) (hOther : content.take 17 ≠ idrRequest) (n : Nat) :
    wrongContentLength buffer content n = .ok false := by
  unfold wrongContentLength
  rw [Buffer.slice, if_pos (by omega), List.drop_zero, Checked.ok_bind, if_neg]
  · exact rfl
  · exact fun hBoth => hOther hBoth.1

/- Without a line end nothing more is taken. -/
theorem wrongContentLength_quiet (content : List Byte) (hQuiet : ¬ LineEndAt buffer n) :
    wrongContentLength buffer content n ≠ .ok true := by
  intro hWrong
  unfold wrongContentLength at hWrong
  rcases Checked.bind_eq_ok.mp hWrong with ⟨start, -, hWrong⟩
  split at hWrong
  · rcases Checked.bind_eq_ok.mp hWrong with ⟨first, hFirst, hWrong⟩
    split at hWrong
    · rename_i hCr
      rcases Checked.bind_eq_ok.mp hWrong with ⟨second, hSecond, hWrong⟩
      have hLf : second = 0x0A := by
        cases hWrong' : decide (second = 0x0A) with
        | true => exact of_decide_eq_true hWrong'
        | false =>
          rw [hWrong'] at hWrong
          cases hWrong
      apply hQuiet
      have hRead : ∀ {i : Nat} {b : Byte}, Buffer.read buffer i = .ok b → buffer[i]? = some b := by
        intro i b hb
        unfold Buffer.read at hb
        cases hGet : buffer[i]? with
        | none =>
          rw [hGet] at hb
          cases hb
        | some c =>
          rw [hGet] at hb
          cases hb
          rfl
      rw [hCr] at hFirst
      rw [hLf] at hSecond
      exact ⟨hRead hFirst, hRead hSecond⟩
    · cases hWrong
  · cases hWrong

/- The message of a note is clean. -/
def CleanNote (note : Note) : Prop :=
  ∀ msg, note = .kWhatData msg → Clean msg

theorem takeOf_quiet (hQuiet : ∀ msg, note = .kWhatData msg → ¬ Swallows buffer msg n) :
    ∃ inside,
      takeOf buffer note n = { note, length := n, inside } ∧ (CleanNote note → inside = true) := by
  unfold takeOf
  split
  · rename_i msg
    by_cases hOther : 17 ≤ msg.mContent.length ∧ msg.mContent.take 17 ≠ idrRequest
    · rw [wrongContentLength_other buffer hOther.1 hOther.2]
      exact ⟨true, rfl, fun _ => rfl⟩
    · have hNotClean : ¬ CleanNote (.kWhatData msg) := fun hClean => hOther (hClean msg rfl)
      by_cases hShort : msg.mContent.length < 17
      · rw [wrongContentLength_short buffer hShort]
        exact ⟨false, rfl, fun hClean => (hNotClean hClean).elim⟩
      · have hStart : msg.mContent.take 17 = idrRequest := by
          by_contra hDiffer
          exact hOther ⟨by omega, hDiffer⟩
        have hNoEnd : ¬ LineEndAt buffer n := fun hEnd => hQuiet msg rfl ⟨hStart, hEnd⟩
        have hNot := wrongContentLength_quiet msg.mContent hNoEnd
        cases hWrong : wrongContentLength buffer msg.mContent n with
        | error fault => exact ⟨false, rfl, fun hClean => (hNotClean hClean).elim⟩
        | ok wrong =>
          cases wrong with
          | true => exact absurd hWrong hNot
          | false => exact ⟨true, rfl, fun _ => rfl⟩
  · exact ⟨true, rfl, fun _ => rfl⟩

/- At the end of what has arrived, the exception reads outside of a content or of the buffer. -/
theorem takeOf_end (hNext : plainTurn buffer = some (note, n)) (hEnd : n = buffer.length) :
    ∃ inside,
      takeOf buffer note n = { note, length := n, inside } ∧ (inside = true → CleanNote note) := by
  have hQuiet : ∀ msg, note = .kWhatData msg → ¬ Swallows buffer msg n := by
    rintro msg - ⟨-, hFirst, -⟩
    rw [hEnd, List.getElem?_eq_none (Nat.le_refl _)] at hFirst
    cases hFirst
  rcases takeOf_quiet hQuiet with ⟨inside, hTake, -⟩
  refine ⟨inside, hTake, ?_⟩
  rintro rfl msg rfl
  unfold takeOf at hTake
  dsimp only at hTake
  have hLength : msg.mContent.length + 2 ≤ n := by
    have hHead : buffer.head? ≠ some 0x24 := by
      intro hHead
      have hPacket := (plainTurn_packet hHead hNext).2.2
      cases hPacket
    rcases plainTurn_message hHead hNext with ⟨other, hSame, -, -, hLength⟩
    cases hSame
    exact hLength
  by_contra hNotClean
  by_cases hShort : msg.mContent.length < 17
  · rw [wrongContentLength_short buffer hShort] at hTake
    cases hTake
  · have hStart : msg.mContent.take 17 = idrRequest := by
      by_contra hDiffer
      exact hNotClean ⟨by omega, hDiffer⟩
    have hOutside : wrongContentLength buffer msg.mContent n = .error .outside := by
      unfold wrongContentLength
      rw [Buffer.slice, if_pos (by omega), List.drop_zero,
        Checked.ok_bind, if_pos ⟨hStart, by omega⟩, Buffer.read_outside (by omega)]
      exact rfl
    rw [hOutside] at hTake
    cases hTake

end ANetworkSession

--
-- Pieces
--

namespace ANetworkSession

/- A stream that is received in pieces, one after another. -/
def receive (fuel : Nat) : Session → List (List Byte) → Result (Session × List Note × Bool)
| s, [] => .returns (s, [], true)
| s, piece :: pieces =>
  (readMore fuel s (.ok piece)).bind fun (s, notes, inside) =>
      (receive fuel s pieces).map fun (s, more, rest) =>
        (s, notes ++ more, inside && rest)

/- The pieces that `recv` may give of a stream. -/
def Cut (stream : List Byte) (pieces : List (List Byte)) : Prop :=
  pieces.flatten = stream ∧ ∀ piece ∈ pieces, 0 < piece.length ∧ piece.length ≤ 512

/- The notes and the rest are the same for all pieces, and all reads are inside. -/
def Independent (stream : List Byte) : Prop :=
  ∃ s notes,
    ∀ pieces, Cut stream pieces →
      Reaches (fun fuel => receive fuel (.start .MODE_RTSP) pieces) (s, notes, true)

/- The same, wherever is read. -/
def SameNotes (stream : List Byte) : Prop :=
  ∃ s notes,
    ∀ pieces, Cut stream pieces →
      ∃ inside, Reaches (fun fuel => receive fuel (.start .MODE_RTSP) pieces) (s, notes, inside)

/- No message of a stream swallows a line end behind it. -/
def Quiet (stream : List Byte) : Prop :=
  ∀ buffer msg n, rtspFraming.Front stream buffer → plainTurn buffer = some (.kWhatData msg, n) →
    ¬ Swallows buffer msg n

/- All messages of a stream are clean. -/
def AllClean (stream : List Byte) : Prop :=
  ∀ buffer msg n, rtspFraming.Front stream buffer → plainTurn buffer = some (.kWhatData msg, n) →
    Clean msg

theorem AllClean.quiet {stream : List Byte} (hClean : AllClean stream) : Quiet stream := by
  rintro buffer msg n hFront hNext ⟨hStart, -⟩
  exact (hClean buffer msg n hFront hNext).2 hStart

/- A line end in what has arrived is one in the stream. -/
theorem Quiet.of_append {buffer more : List Byte} (hQuiet : Quiet (buffer ++ more)) :
    Quiet buffer := by
  rintro later msg n hFront hNext ⟨hStart, hCr, hLf⟩
  apply hQuiet (later ++ more) msg n (hFront.append more) (rtspFraming.stable hNext more)
  refine ⟨hStart, ?_, ?_⟩
  · rw [List.getElem?_append_left (List.getElem?_eq_some_iff.mp hCr).1]
    exact hCr
  · rw [List.getElem?_append_left (List.getElem?_eq_some_iff.mp hLf).1]
    exact hLf

theorem AllClean.of_append {buffer more : List Byte} (hClean : AllClean (buffer ++ more)) :
    AllClean buffer := by
  intro later msg n hFront hNext
  exact hClean (later ++ more) msg n (hFront.append more) (rtspFraming.stable hNext more)

/- The loop takes the messages as if there were no exception. -/
theorem readLoop_rtsp (buffer : List Byte) (hQuiet : Quiet buffer) :
    ∃ inside,
      (∀ fuel, buffer.length < fuel →
          readLoop (rtspTurn false) false fuel buffer =
            .returns ⟨(rtspFraming.drain buffer).1, (rtspFraming.drain buffer).2, inside⟩) ∧
        (AllClean buffer → inside = true) := by
  induction buffer using rtspFraming.drain_induction with
  | hWaits buffer hNext =>
    have hNone : plainTurn buffer = none := hNext
    refine ⟨true, ?_, fun _ => rfl⟩
    intro fuel hFuel
    rcases Nat.exists_eq_succ_of_ne_zero (Nat.ne_zero_of_lt hFuel) with ⟨fuel, rfl⟩
    rw [readLoop, rtspTurn_eq, hNone, Framing.drain_none hNext]
    exact rfl
  | hTakes buffer note n hNext ih =>
    have hSome : plainTurn buffer = some (note, n) := hNext
    have hBounds := plainTurn_bounds hSome
    have hQuietNote : ∀ msg, note = .kWhatData msg → ¬ Swallows buffer msg n := by
      rintro msg rfl
      exact hQuiet buffer msg n (.here buffer) hSome
    rcases takeOf_quiet hQuietNote with ⟨inside, hTake, hInside⟩
    have hQuietRest : Quiet (buffer.drop n) := by
      intro later msg m hFront
      exact hQuiet later msg m (.behind hNext hFront)
    rcases ih hQuietRest with ⟨rest, hLoop, hAll⟩
    have hCheck : 0 < buffer.length ∧ n ≤ buffer.length := by
      omega
    refine ⟨inside && rest, ?_, ?_⟩
    · intro fuel hFuel
      rcases Nat.exists_eq_succ_of_ne_zero (Nat.ne_zero_of_lt hFuel) with ⟨fuel, rfl⟩
      have hRest : (buffer.drop n).length < fuel := by
        rw [List.length_drop]
        omega
      rw [readLoop, rtspTurn_eq, hSome, Framing.drain_some hNext]
      dsimp only [Option.map_some]
      rw [hTake]
      dsimp only
      rw [Result.check, if_pos hCheck, if_neg Bool.false_ne_true, hLoop fuel hRest]
      exact rfl
    · intro hClean
      have hNote : CleanNote note := by
        rintro msg rfl
        exact hClean buffer msg n (.here buffer) hSome
      have hCleanRest : AllClean (buffer.drop n) := by
        intro later msg m hFront
        exact hClean later msg m (.behind hNext hFront)
      rw [hInside hNote, hAll hCleanRest]
      exact rfl

/- A session that has some bytes left. -/
def waiting (rest : List Byte) : Session :=
  { Session.start .MODE_RTSP with mInBuffer := rest }

/- A piece is read when its loop returns. -/
theorem readMore_of_loop {rest piece : List Byte} {r : ReadState}
    (hLoop :
      ∀ fuel, (rest ++ piece).length < fuel →
        readLoop (rtspTurn false) false fuel (rest ++ piece) = .returns r) :
    Reaches (fun fuel => readMore fuel (waiting rest) (.ok piece))
      (waiting r.mInBuffer, r.notes, r.inside) := by
  refine ⟨(rest ++ piece).length + 1, ?_⟩
  intro fuel hFuel
  show (readLoop (rtspTurn false) false fuel (rest ++ piece)).map _ = _
  rw [hLoop fuel (by omega)]
  exact rfl

theorem receive_nil (rest : List Byte) :
    Reaches (fun fuel => receive fuel (waiting rest) []) (waiting rest, [], true) :=
  .const _

/- A piece in front of others. -/
theorem receive_cons {rest left last piece : List Byte} {pieces : List (List Byte)}
    {notes more : List Note} {inside others : Bool}
    (hPiece :
      Reaches (fun fuel => readMore fuel (waiting rest) (.ok piece)) (waiting left, notes, inside))
    (hPieces :
      Reaches (fun fuel => receive fuel (waiting left) pieces) (waiting last, more, others)) :
    Reaches
      (fun fuel =>
        receive fuel (waiting rest) (piece :: pieces))
      (waiting last, notes ++ more, inside && others) :=
  hPiece.bind (hPieces.bind (.const _))

/- A quiet stream, in pieces. -/
theorem receive_quiet {rest : List Byte} {pieces : List (List Byte)} (hRest : plainTurn rest = none)
    (hQuiet : Quiet (rest ++ pieces.flatten)) :
    ∃ inside,
      Reaches (fun fuel => receive fuel (waiting rest) pieces)
          (waiting (rtspFraming.drain (rest ++ pieces.flatten)).2,
            (rtspFraming.drain (rest ++ pieces.flatten)).1, inside) ∧
        (AllClean (rest ++ pieces.flatten) → inside = true) := by
  induction pieces generalizing rest with
  | nil =>
    rw [List.flatten_nil, List.append_nil, Framing.drain_none hRest]
    exact ⟨true, receive_nil rest, fun _ => rfl⟩
  | cons piece pieces ih =>
    rw [List.flatten_cons, ← List.append_assoc] at hQuiet ⊢
    rcases readLoop_rtsp (rest ++ piece) hQuiet.of_append with ⟨inside, hLoop, hInside⟩
    have hQuietRest : Quiet ((rtspFraming.drain (rest ++ piece)).2 ++ pieces.flatten) := by
      intro later msg n hFront
      exact hQuiet later msg n hFront.of_rest
    rcases ih (rtspFraming.next_rest (rest ++ piece)) hQuietRest with ⟨others, hOthers, hAll⟩
    refine ⟨inside && others, ?_, ?_⟩
    · rw [Framing.drain_append]
      exact receive_cons (readMore_of_loop hLoop) hOthers
    · intro hClean
      have hCleanRest : AllClean ((rtspFraming.drain (rest ++ piece)).2 ++ pieces.flatten) := by
        intro later msg n hFront
        exact hClean later msg n hFront.of_rest
      rw [hInside hClean.of_append, hAll hCleanRest]
      exact rfl

theorem readLoop_nil {fuel : Nat} (hFuel : 0 < fuel) :
    readLoop (rtspTurn false) false fuel [] = .returns ⟨[], [], true⟩ := by
  rcases Nat.exists_eq_succ_of_ne_zero (Nat.ne_of_gt hFuel) with ⟨fuel, rfl⟩
  have hEmpty : plainTurn [] = none := rfl
  rw [readLoop, rtspTurn_eq, hEmpty]
  exact rfl

/- A byte that completes a message is its last one; nothing behind it has arrived. -/
theorem readLoop_byte {rest : List Byte} {b : Byte} {note : Note} {n : Nat}
    (hRest : plainTurn rest = none) (hNext : plainTurn (rest ++ [b]) = some (note, n)) :
    (rest ++ [b]).length = n ∧
      ∃ inside,
        (∀ fuel, (rest ++ [b]).length < fuel →
            readLoop (rtspTurn false) false fuel (rest ++ [b]) = .returns ⟨[note], [], inside⟩) ∧
          (inside = true → CleanNote note) := by
  have hBounds := plainTurn_bounds hNext
  have hLength : (rest ++ [b]).length = n := by
    by_contra hDiffer
    have hInside : n ≤ rest.length := by
      rw [List.length_append, List.length_singleton] at hDiffer hBounds
      omega
    have hAgree : Agree n (rest ++ [b]) rest := by
      refine ⟨hBounds.2, hInside, ?_⟩
      intro i hi
      exact List.getElem?_append_left (by omega)
    rw [plainTurn_local hNext hAgree] at hRest
    cases hRest
  rcases takeOf_end hNext hLength.symm with ⟨inside, hTake, hClean⟩
  refine ⟨hLength, inside, ?_, hClean⟩
  intro fuel hFuel
  rcases Nat.exists_eq_succ_of_ne_zero (Nat.ne_zero_of_lt hFuel) with ⟨fuel, rfl⟩
  have hCheck : 0 < (rest ++ [b]).length ∧ n ≤ (rest ++ [b]).length := by
    omega
  rw [readLoop, rtspTurn_eq, hNext]
  dsimp only [Option.map_some]
  rw [hTake]
  dsimp only
  rw [Result.check, if_pos hCheck, if_neg Bool.false_ne_true, ← hLength,
    List.drop_length, readLoop_nil (by omega)]
  show Result.returns _ = _
  rw [ReadState.after, Bool.and_true]

/- A stream whose bytes arrive one by one. -/
theorem receive_bytes {rest : List Byte} (stream : List Byte) (hRest : plainTurn rest = none) :
    ∃ inside,
      Reaches
          (fun fuel =>
            receive fuel (waiting rest) (stream.map fun b => [b]))
          (waiting (rtspFraming.drain (rest ++ stream)).2,
            (rtspFraming.drain (rest ++ stream)).1, inside) ∧
        (inside = true → AllClean (rest ++ stream)) := by
  induction stream generalizing rest with
  | nil =>
    rw [List.append_nil, Framing.drain_none hRest]
    refine ⟨true, receive_nil rest, ?_⟩
    intro _ later msg n hFront hNext
    cases hFront with
    | here =>
      rw [hRest] at hNext
      cases hNext
    | behind hTaken hLater =>
      have hNone : rtspFraming.next rest = none := hRest
      rw [hNone] at hTaken
      cases hTaken
  | cons b stream ih =>
    have hBytes : rest ++ b :: stream = (rest ++ [b]) ++ stream := by
      rw [List.append_assoc]
      exact rfl
    rw [List.map_cons, hBytes]
    cases hNext : plainTurn (rest ++ [b]) with
    | none =>
      rcases ih hNext with ⟨inside, hAll, hClean⟩
      have hLoop :
          ∀ fuel, (rest ++ [b]).length < fuel →
            readLoop (rtspTurn false) false fuel (rest ++ [b]) =
              .returns ⟨[], rest ++ [b], true⟩ := by
        intro fuel hFuel
        rcases Nat.exists_eq_succ_of_ne_zero (Nat.ne_zero_of_lt hFuel) with ⟨fuel, rfl⟩
        rw [readLoop, rtspTurn_eq, hNext]
        exact rfl
      exact ⟨true && inside, receive_cons (readMore_of_loop hLoop) hAll, hClean⟩
    | some taken =>
      rcases taken with ⟨note, n⟩
      have hEmpty : plainTurn [] = none := rfl
      rcases readLoop_byte hRest hNext with ⟨hLength, inside, hLoop, hNote⟩
      rcases ih hEmpty with ⟨others, hAll, hClean⟩
      rw [List.nil_append] at hAll hClean
      have hTaken : rtspFraming.next ((rest ++ [b]) ++ stream) = some (note, n) :=
        rtspFraming.stable hNext stream
      have hBehind : ((rest ++ [b]) ++ stream).drop n = stream := List.drop_left' hLength
      refine ⟨inside && others, ?_, ?_⟩
      · rw [Framing.drain_some hTaken, hBehind]
        exact receive_cons (readMore_of_loop hLoop) hAll
      · intro hBoth later msg m hFront hLater
        rw [Bool.and_eq_true] at hBoth
        cases hFront with
        | here =>
          have hSame : plainTurn ((rest ++ [b]) ++ stream) = some (note, n) := hTaken
          rw [hSame] at hLater
          cases hLater
          exact hNote hBoth.1 msg rfl
        | behind hOther hFront =>
          rw [hTaken] at hOther
          cases hOther
          rw [hBehind] at hFront
          exact hClean hBoth.2 later msg m hFront hLater

--
-- Main Result
--

theorem cut_bytes (stream : List Byte) : Cut stream (stream.map fun b => [b]) := by
  constructor
  · induction stream with
    | nil => rfl
    | cons b stream ih =>
      rw [List.map_cons, List.flatten_cons, ih]
      exact rfl
  · intro piece hPiece
    rcases List.mem_map.mp hPiece with ⟨b, -, rfl⟩
    exact ⟨Nat.zero_lt_one, by
      rw [List.length_singleton]
      omega⟩

theorem sameNotes_of_quiet {stream : List Byte} (hQuiet : Quiet stream) : SameNotes stream := by
  have hEmpty : plainTurn [] = none := rfl
  refine ⟨waiting (rtspFraming.drain stream).2, (rtspFraming.drain stream).1, ?_⟩
  rintro pieces ⟨rfl, -⟩
  rcases receive_quiet hEmpty hQuiet with ⟨inside, hReceive, -⟩
  exact ⟨inside, hReceive⟩

theorem independent_iff (stream : List Byte) : Independent stream ↔ AllClean stream := by
  have hEmpty : plainTurn [] = none := rfl
  constructor
  · rintro ⟨s, notes, hSame⟩
    rcases receive_bytes stream hEmpty with ⟨inside, hReceive, hClean⟩
    have hBoth := (hSame _ (cut_bytes stream)).unique hReceive
    apply hClean
    exact (congrArg (·.2.2) hBoth).symm
  · intro hClean
    refine ⟨waiting (rtspFraming.drain stream).2, (rtspFraming.drain stream).1, ?_⟩
    rintro pieces ⟨rfl, -⟩
    rcases receive_quiet hEmpty hClean.quiet with ⟨inside, hReceive, hInside⟩
    rw [hInside hClean] at hReceive
    exact hReceive

/-
  The pieces do not matter and all reads are inside exactly when every message has a content of 17
  bytes that is not the excepted one. The notes alone do not depend on the pieces when no excepted
  message has a line end behind it.
-/
theorem fragmentation_iff (stream : List Byte) :
    (Independent stream ↔ AllClean stream) ∧ (Quiet stream → SameNotes stream) :=
  ⟨independent_iff stream, sameNotes_of_quiet⟩

theorem fragmentation_packet : Independent [0x24, 0, 0, 1, 7] ∧ SameNotes [0x24, 0, 0, 1, 7] := by
  have hNext : rtspFraming.next [0x24, 0, 0, 1, 7] = some (.kWhatBinaryData 0 [7], 5) := by
    decide
  have hEmpty : rtspFraming.next [] = none := rfl
  have hClean : AllClean [0x24, 0, 0, 1, 7] := by
    intro buffer msg n hFront hMessage
    change rtspFraming.next buffer = _ at hMessage
    cases hFront with
    | here =>
      rw [hNext] at hMessage
      cases hMessage
    | behind hTaken hLater =>
      rw [hNext] at hTaken
      cases hTaken
      cases hLater with
      | here =>
        rw [List.drop_eq_nil_of_le (by decide), hEmpty] at hMessage
        cases hMessage
      | behind hNone _ =>
        rw [List.drop_eq_nil_of_le (by decide), hEmpty] at hNone
        cases hNone
  have hBoth := fragmentation_iff [0x24, 0, 0, 1, 7]
  exact ⟨hBoth.1.mpr hClean, hBoth.2 hClean.quiet⟩

/- `"A\r\nContent-Length:17\r\n\r\n"` and the content. -/
def idrMessage : List Byte :=
  [0x41, 0x0D, 0x0A, 0x43, 0x6F, 0x6E, 0x74, 0x65, 0x6E, 0x74,
    0x2D, 0x4C, 0x65, 0x6E, 0x67, 0x74, 0x68, 0x3A, 0x31, 0x37,
    0x0D, 0x0A, 0x0D, 0x0A] ++ idrRequest

def idrNote : Note :=
  .kWhatData
    { mDict := [(['_'], ['A']), ("content-length".toList, ['1', '7'])]
      mContent := idrRequest }

/-
  A message without a content; and a message with a line end behind it, which goes with it only when
  it is there in time.
-/
theorem fragmentation_idr :
    ¬ Independent [0x41, 0x0D, 0x0A, 0x0D, 0x0A] ∧ ¬ SameNotes (idrMessage ++ [0x0D, 0x0A]) := by
  constructor
  · rw [independent_iff]
    intro hClean
    have hMessage :
        plainTurn [0x41, 0x0D, 0x0A, 0x0D, 0x0A] =
          some (.kWhatData { mDict := [(['_'], ['A'])], mContent := [] }, 5) := by
      decide
    have hShort := (hClean _ _ _ (.here _) hMessage).1
    exact absurd hShort (by decide)
  · rintro ⟨s, notes, hSame⟩
    have hEmpty : plainTurn [] = none := rfl
    -- all at once
    have hTurn :
        rtspTurn false (idrMessage ++ [0x0D, 0x0A]) =
          .ok (some { note := idrNote, length := 43, inside := true }) := by
      decide +kernel
    have hWhole : Cut (idrMessage ++ [0x0D, 0x0A]) [idrMessage ++ [0x0D, 0x0A]] := by
      refine ⟨List.append_nil _, ?_⟩
      decide
    have hLoop :
        ∀ fuel, ([] ++ (idrMessage ++ [0x0D, 0x0A])).length < fuel →
          readLoop (rtspTurn false) false fuel ([] ++ (idrMessage ++ [0x0D, 0x0A])) =
            .returns ⟨[idrNote], [], true⟩ := by
      intro fuel hFuel
      rw [List.nil_append] at hFuel ⊢
      rcases Nat.exists_eq_succ_of_ne_zero (Nat.ne_zero_of_lt hFuel) with ⟨fuel, rfl⟩
      have hLength : (idrMessage ++ [0x0D, 0x0A]).length = 43 := rfl
      rw [readLoop, hTurn]
      dsimp only
      rw [hLength, Result.check, if_pos (by decide), if_neg Bool.false_ne_true, ← hLength, List.drop_length,
        readLoop_nil (by omega)]
      exact rfl
    rcases hSame _ hWhole with ⟨inside, hFirst⟩
    have hAtOnce := hFirst.unique (receive_cons (readMore_of_loop hLoop) (receive_nil []))
    -- byte by byte
    rcases hSame _ (cut_bytes _) with ⟨other, hSecond⟩
    rcases receive_bytes (idrMessage ++ [0x0D, 0x0A]) hEmpty with ⟨third, hBytes, -⟩
    have hByByte := hSecond.unique hBytes
    have hMessage : rtspFraming.next ([] ++ (idrMessage ++ [0x0D, 0x0A])) = some (idrNote, 41) := by
      decide +kernel
    have hLineEnd : rtspFraming.next (([] ++ (idrMessage ++ [0x0D, 0x0A])).drop 41) = none := by
      decide +kernel
    have hNothing : s.mInBuffer = [] := congrArg (·.1.mInBuffer) hAtOnce
    have hLeft : s.mInBuffer = (rtspFraming.drain ([] ++ (idrMessage ++ [0x0D, 0x0A]))).2 :=
      congrArg (·.1.mInBuffer) hByByte
    rw [hNothing, Framing.drain_some hMessage, Framing.drain_none hLineEnd] at hLeft
    exact absurd hLeft (by decide)

end ANetworkSession

end FrameworksAv
