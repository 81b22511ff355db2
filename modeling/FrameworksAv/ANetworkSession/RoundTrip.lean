import FrameworksAv.Base.Framing
import FrameworksAv.Base.Run
import FrameworksAv.ANetworkSession.Session

/-
  Datagrams and WebSocket messages arrive as they were sent.

  What is sent is a sequence of frames; a partial send only moves bytes from a fragment to the
  connection, and the receiver takes frames off the front of what has arrived.

  Main declarations:
    * `datagramFraming`, `webSocketFraming`
    * `readLoop_drain`
    * `Link`, `Link.step`
    * `framing_roundTrip`
-/

--
-- Bytes
--

namespace FrameworksAv

namespace ANetworkSession

variable {buffer more : List Byte}

theorem getElem!_append {i : Nat} (hi : i < buffer.length) : (buffer ++ more)[i]! = buffer[i]! := by
  rw [List.getElem!_eq_getElem?_getD, List.getElem!_eq_getElem?_getD, List.getElem?_append_left hi]

theorem U16_AT_append (hLength : 2 ≤ buffer.length) : U16_AT (buffer ++ more) = U16_AT buffer := by
  unfold U16_AT
  rw [getElem!_append (by omega), getElem!_append (by omega)]

theorem U32_AT_append (hLength : 4 ≤ buffer.length) : U32_AT (buffer ++ more) = U32_AT buffer := by
  unfold U32_AT
  rw [getElem!_append (by omega), getElem!_append (by omega),
    getElem!_append (by omega), getElem!_append (by omega)]

theorem U64_AT_append (hLength : 8 ≤ buffer.length) : U64_AT (buffer ++ more) = U64_AT buffer := by
  unfold U64_AT
  rw [U32_AT_append (by omega), List.drop_append_of_le_length (by omega),
    U32_AT_append (by rw [List.length_drop]; omega)]

/- Bytes in the middle of what is there. -/
theorem take_drop_append {start count : Nat} (hInside : start + count ≤ buffer.length) :
    ((buffer ++ more).drop start).take count = (buffer.drop start).take count := by
  rw [List.drop_append_of_le_length (by omega),
    List.take_append_of_le_length (by rw [List.length_drop]; omega)]

end ANetworkSession

--
-- Framings
--

namespace ANetworkSession

/- The note of a turn, and how many bytes it takes. -/
def taken (t : Take) : Note × Nat := (t.note, t.length)

theorem datagramTurn_length {buffer : List Byte} {t : Take} (hTurn : datagramTurn buffer = some t) :
    2 ≤ buffer.length ∧ t.length = U16_AT buffer + 2 ∧ t.length ≤ buffer.length := by
  unfold datagramTurn at hTurn
  split at hTurn
  · cases hTurn
  · dsimp only at hTurn
    split at hTurn
    · cases hTurn
    · cases hTurn
      refine ⟨by omega, rfl, ?_⟩
      show U16_AT buffer + 2 ≤ buffer.length
      omega

theorem datagramTurn_append {buffer : List Byte} {t : Take} (hTurn : datagramTurn buffer = some t)
    (more : List Byte) : datagramTurn (buffer ++ more) = some t := by
  rcases datagramTurn_length hTurn with ⟨hHeader, hLength, hFits⟩
  unfold datagramTurn at hTurn ⊢
  dsimp only at hTurn ⊢
  rw [if_neg (by omega), if_neg (by omega)] at hTurn
  rw [U16_AT_append hHeader, List.length_append, if_neg (by omega), if_neg (by omega),
    take_drop_append (by omega)]
  exact hTurn

/- A framing from turns that read inside. -/
def turnFraming (turn : List Byte → Option Take)
    (hPos : ∀ {buffer t}, turn buffer = some t → 0 < t.length)
    (hFits : ∀ {buffer t}, turn buffer = some t → t.length ≤ buffer.length)
    (hStable : ∀ {buffer t}, turn buffer = some t → ∀ more, turn (buffer ++ more) = some t) :
    Framing Byte Note where
  next buffer := (turn buffer).map taken
  pos := by
    intro buffer m n hNext
    rcases Option.map_eq_some_iff.mp hNext with ⟨t, hTurn, hTaken⟩
    cases hTaken
    exact hPos hTurn
  fits := by
    intro buffer m n hNext
    rcases Option.map_eq_some_iff.mp hNext with ⟨t, hTurn, hTaken⟩
    cases hTaken
    exact hFits hTurn
  stable := by
    intro buffer m n hNext more
    rcases Option.map_eq_some_iff.mp hNext with ⟨t, hTurn, hTaken⟩
    cases hTaken
    rw [hStable hTurn more]
    exact rfl

def datagramFraming : Framing Byte Note :=
  turnFraming datagramTurn
    (fun hTurn => by
      have hLength := (datagramTurn_length hTurn).2.1
      omega)
    (fun hTurn => (datagramTurn_length hTurn).2.2) datagramTurn_append

/- The length of a payload, in what has arrived. -/
theorem payloadLength_append {buffer : List Byte} {payloadLen offset : Nat}
    (hHeader : 2 ≤ buffer.length) (hLength : payloadLength buffer = some (payloadLen, offset)) :
    2 ≤ offset ∧ offset ≤ buffer.length ∧
      ∀ more, payloadLength (buffer ++ more) = some (payloadLen, offset) := by
  unfold payloadLength at hLength ⊢
  dsimp only at hLength ⊢
  split at hLength
  · split at hLength
    · cases hLength
    · rename_i hMark hFits
      cases hLength
      refine ⟨by omega, by omega, ?_⟩
      intro more
      rw [getElem!_append (by omega), if_pos hMark, if_neg (by rw [List.length_append]; omega),
        List.drop_append_of_le_length (by omega), U16_AT_append (by rw [List.length_drop]; omega)]
  · rename_i hNotTwo
    split at hLength
    · split at hLength
      · cases hLength
      · rename_i hMark hFits
        cases hLength
        refine ⟨by omega, by omega, ?_⟩
        intro more
        rw [getElem!_append (by omega), if_neg hNotTwo, if_pos hMark,
          if_neg (by rw [List.length_append]; omega), List.drop_append_of_le_length (by omega),
          U64_AT_append (by rw [List.length_drop]; omega)]
    · rename_i hNotEight
      cases hLength
      refine ⟨by omega, by omega, ?_⟩
      intro more
      rw [getElem!_append (by omega), if_neg hNotTwo, if_neg hNotEight]

theorem maskAt_append {buffer : List Byte} {mask offset behind : Nat} (hHeader : 2 ≤ buffer.length)
    (hOffset : offset ≤ buffer.length) (hMask : maskAt buffer offset = some (mask, behind)) :
    offset ≤ behind ∧ behind ≤ buffer.length ∧
      ∀ more, maskAt (buffer ++ more) offset = some (mask, behind) := by
  unfold maskAt at hMask ⊢
  split at hMask
  · split at hMask
    · cases hMask
    · rename_i hBit hFits
      cases hMask
      refine ⟨by omega, by omega, ?_⟩
      intro more
      rw [getElem!_append (by omega), if_pos hBit, if_neg (by rw [List.length_append]; omega),
        List.drop_append_of_le_length (by omega), U32_AT_append (by rw [List.length_drop]; omega)]
  · rename_i hBit
    cases hMask
    refine ⟨by omega, by omega, ?_⟩
    intro more
    rw [getElem!_append (by omega), if_neg hBit]

theorem webSocketTurn_cases {buffer : List Byte} {t : Take}
    (hTurn : webSocketTurn buffer = some t) :
    0 < t.length ∧ t.length ≤ buffer.length ∧ ∀ more, webSocketTurn (buffer ++ more) = some t := by
  unfold webSocketTurn at hTurn ⊢
  split at hTurn
  · cases hTurn
  · rename_i hHeader
    rcases Option.bind_eq_some_iff.mp hTurn with ⟨⟨payloadLen, first⟩, hLength, hTurn⟩
    rcases Option.bind_eq_some_iff.mp hTurn with ⟨⟨mask, offset⟩, hMask, hTurn⟩
    rcases payloadLength_append (by omega) hLength with ⟨hFirst, hFits, hLengthMore⟩
    rcases maskAt_append (by omega) hFits hMask with ⟨hOffset, hOffsetFits, hMaskMore⟩
    dsimp only at hTurn
    split at hTurn
    · cases hTurn
    · rename_i hInside
      cases hTurn
      refine ⟨?_, ?_, ?_⟩
      · show 0 < offset + payloadLen
        omega
      · show offset + payloadLen ≤ buffer.length
        omega
      · intro more
        rw [if_neg (by rw [List.length_append]; omega), hLengthMore more, Option.bind_some]
        dsimp only
        rw [hMaskMore more, Option.bind_some]
        dsimp only
        rw [if_neg (by rw [List.length_append]; omega), take_drop_append (by omega),
          getElem!_append (by omega)]

def webSocketFraming : Framing Byte Note :=
  turnFraming webSocketTurn (fun hTurn => (webSocketTurn_cases hTurn).1)
    (fun hTurn => (webSocketTurn_cases hTurn).2.1) (fun hTurn => (webSocketTurn_cases hTurn).2.2)

--
-- Reading
--

/- More fuel does not change what a loop returns. -/
theorem readLoop_drain (framing : Framing Byte Note) {turn : List Byte → Checked (Option Take)}
    (hTurn :
      ∀ buffer,
        turn buffer =
          .ok
            ((framing.next buffer).map fun (note, length) =>
              { note, length, inside := true }))
    (buffer : List Byte) {fuel : Nat} (hFuel : buffer.length < fuel) :
    readLoop turn false fuel buffer =
      .returns ⟨(framing.drain buffer).1, (framing.drain buffer).2, true⟩ := by
  induction buffer using framing.drain_induction generalizing fuel with
  | hWaits buffer hNext =>
    rcases Nat.exists_eq_succ_of_ne_zero (Nat.ne_zero_of_lt hFuel) with ⟨fuel, rfl⟩
    rw [readLoop, hTurn, hNext, Framing.drain_none hNext]
    exact rfl
  | hTakes buffer note length hNext ih =>
    rcases Nat.exists_eq_succ_of_ne_zero (Nat.ne_zero_of_lt hFuel) with ⟨fuel, rfl⟩
    have hPos := framing.pos hNext
    have hFits := framing.fits hNext
    have hRest : (buffer.drop length).length < fuel := by
      rw [List.length_drop]
      omega
    have hCheck : 0 < buffer.length ∧ length ≤ buffer.length := by
      omega
    rw [readLoop, hTurn, hNext, Framing.drain_some hNext]
    dsimp only [Option.map_some]
    rw [Result.check, if_pos hCheck, if_neg nofun, ih hRest]
    exact rfl

/- How messages are taken off a stream in a mode. -/
def framingOf : Mode → Framing Byte Note
| .MODE_WEBSOCKET => webSocketFraming
| _ => datagramFraming

theorem turn_framing {mMode : Mode} (hMode : mMode ≠ .MODE_RTSP) (buffer : List Byte) :
    turn mMode false buffer =
      .ok
        (((framingOf mMode).next buffer).map fun (note, length) =>
            { note, length, inside := true }) := by
  have hSame :
      ∀ o : Option Take, (∀ t, o = some t → t.inside = true) →
        o = (o.map taken).map fun (note, length) =>
            { note, length, inside := true } := by
    intro o hInside
    cases o with
    | none => rfl
    | some t =>
      have hTrue := hInside t rfl
      rcases t with ⟨note, length, inside⟩
      cases hTrue
      rfl
  cases mMode with
  | MODE_RTSP => exact absurd rfl hMode
  | MODE_DATAGRAM =>
    refine congrArg Except.ok (hSame _ ?_)
    intro t hTurn
    unfold datagramTurn at hTurn
    dsimp only at hTurn
    split at hTurn
    · cases hTurn
    · split at hTurn
      · cases hTurn
      · cases hTurn
        rfl
  | MODE_WEBSOCKET =>
    refine congrArg Except.ok (hSame _ ?_)
    intro t hTurn
    unfold webSocketTurn at hTurn
    split at hTurn
    · cases hTurn
    · rcases Option.bind_eq_some_iff.mp hTurn with ⟨_, -, hTurn⟩
      rcases Option.bind_eq_some_iff.mp hTurn with ⟨_, -, hTurn⟩
      dsimp only at hTurn
      split at hTurn
      · cases hTurn
      · cases hTurn
        rfl

/- Reading some bytes, with fuel for all that is there. -/
theorem readMore_drain {s : Session} (hMode : s.mMode ≠ .MODE_RTSP) (bytes : List Byte) {fuel : Nat}
    (hFuel : s.mInBuffer.length + bytes.length < fuel) :
    readMore fuel s (.ok bytes) =
      .returns
        ({ s with
            mInBuffer := ((framingOf s.mMode).drain (s.mInBuffer ++ bytes)).2 },
          ((framingOf s.mMode).drain (s.mInBuffer ++ bytes)).1, true) := by
  unfold readMore
  dsimp only
  rw [readLoop_drain (framingOf s.mMode) (turn_framing hMode)
    (s.mInBuffer ++ bytes) (by rw [List.length_append]; omega)]
  exact rfl

theorem readMore_reaches {s : Session} (hMode : s.mMode ≠ .MODE_RTSP) (bytes : List Byte) :
    Reaches (fun fuel => readMore fuel s (.ok bytes))
      ({ s with
          mInBuffer := ((framingOf s.mMode).drain (s.mInBuffer ++ bytes)).2 },
        ((framingOf s.mMode).drain (s.mInBuffer ++ bytes)).1, true) := by
  refine ⟨s.mInBuffer.length + bytes.length + 1, ?_⟩
  intro fuel hFuel
  exact readMore_drain hMode bytes (by omega)

--
-- Frames
--

/- The messages that may be given to a session. -/
def Allowed (mMode : Mode) (data : List Byte) : Prop :=
  data ≠ [] ∧ data.length < if mMode = .MODE_WEBSOCKET then 2 ^ 31 else 2 ^ 16

instance (mMode : Mode) (data : List Byte) : Decidable (Allowed mMode data) :=
  inferInstanceAs (Decidable (_ ∧ _))

/- The bytes of a message on the connection. -/
def frameOf (mMode : Mode) (data : List Byte) : List Byte :=
  match mMode with
  | .MODE_WEBSOCKET => webSocketHeader data.length ++ data
  | _ => byte (data.length >>> 8) :: byte data.length :: data

def noteOf (mMode : Mode) (data : List Byte) : Note :=
  match mMode with
  | .MODE_WEBSOCKET => .kWhatWebSocketMessage 0x81 data
  | _ => .kWhatDatagram data

theorem requestBuffer_frameOf {mMode : Mode} {data : List Byte} (hMode : mMode ≠ .MODE_RTSP)
    (hAllowed : Allowed mMode data) : requestBuffer mMode data = some (frameOf mMode data) := by
  cases mMode with
  | MODE_RTSP => exact absurd rfl hMode
  | MODE_DATAGRAM =>
    have hLess : data.length < 2 ^ 16 := hAllowed.2
    unfold requestBuffer
    dsimp only
    rw [if_pos (by omega)]
    exact rfl
  | MODE_WEBSOCKET => rfl

theorem byte_toNat (n : Nat) : (byte n).toNat = n % 2 ^ 8 := by
  unfold byte
  rw [BitVec.toNat_ofNat]

theorem datagram_frame {data : List Byte} (hLess : data.length < 2 ^ 16) :
    datagramTurn (frameOf .MODE_DATAGRAM data) =
      some
        { note := .kWhatDatagram data
          length := (frameOf .MODE_DATAGRAM data).length
          inside := true } := by
  have hSize : U16_AT (frameOf .MODE_DATAGRAM data) = data.length := by
    show (byte (data.length >>> 8)).toNat * 2 ^ 8 + (byte data.length).toNat = data.length
    rw [byte_toNat, byte_toNat, Nat.shiftRight_eq_div_pow]
    omega
  have hLength : (frameOf .MODE_DATAGRAM data).length = data.length + 2 := rfl
  unfold datagramTurn
  dsimp only
  rw [hSize, hLength, if_neg (by omega), if_neg (by omega)]
  have hData : ((frameOf .MODE_DATAGRAM data).drop 2).take data.length = data := by
    show data.take data.length = data
    exact List.take_length
  rw [hData]

theorem maskAt_none {buffer : List Byte} (second : Byte) (hSecond : buffer[1]! = second)
    (hBit : second.toNat &&& 0x80 = 0) (offset : Nat) :
    maskAt buffer offset = some (0, offset) := by
  unfold maskAt
  rw [hSecond, hBit, if_neg (by decide)]

/- The header of a message, as it is read. -/
theorem webSocketHeader_read {data : List Byte} (hLess : data.length < 2 ^ 31) :
    ∃ offset,
      offset = (webSocketHeader data.length).length ∧ 2 ≤ offset ∧
        (webSocketHeader data.length ++ data)[0]! = 0x81 ∧
        payloadLength (webSocketHeader data.length ++ data) = some (data.length, offset) ∧
        maskAt (webSocketHeader data.length ++ data) offset = some (0, offset) := by
  have hShift : ∀ k, data.length >>> k = data.length / 2 ^ k :=
    fun k => Nat.shiftRight_eq_div_pow _ k
  unfold webSocketHeader
  by_cases hLong : data.length > 65535
  · rw [if_pos hLong]
    refine ⟨10, rfl, by omega, rfl, ?_, maskAt_none 127 rfl (by decide) 10⟩
    have hFits :
        ¬ 2 + 8 >
          ([0x81, 127, 0x00, 0x00, 0x00, 0x00, byte (data.length >>> 24), byte (data.length >>> 16),
            byte (data.length >>> 8), byte data.length] ++ data).length := by
      simp only [List.length_append, List.length_cons]
      omega
    have hRead :
        U64_AT
            (List.drop 2
              ([0x81, 127, 0x00, 0x00, 0x00, 0x00, byte (data.length >>> 24),
                byte (data.length >>> 16), byte (data.length >>> 8), byte data.length] ++ data)) =
          data.length := by
      show
        (0 * 2 ^ 24 + 0 * 2 ^ 16 + 0 * 2 ^ 8 + 0) * 2 ^ 32 +
            ((byte (data.length >>> 24)).toNat * 2 ^ 24 +
              (byte (data.length >>> 16)).toNat * 2 ^ 16 +
              (byte (data.length >>> 8)).toNat * 2 ^ 8 + (byte data.length).toNat) =
          data.length
      simp only [byte_toNat, hShift]
      omega
    unfold payloadLength
    dsimp only
    have hMark :
        ([0x81, 127, 0x00, 0x00, 0x00, 0x00, byte (data.length >>> 24), byte (data.length >>> 16),
            byte (data.length >>> 8), byte data.length] ++ data)[1]! = 127 := rfl
    rw [hMark, if_neg (by decide), if_pos (by decide), if_neg hFits,
      hRead, Nat.mod_eq_of_lt (by omega)]
  · rw [if_neg hLong]
    by_cases hMedium : data.length > 125
    · rw [if_pos hMedium]
      refine ⟨4, rfl, by omega, rfl, ?_, maskAt_none 126 rfl (by decide) 4⟩
      have hFits :
          ¬ 2 + 2 > ([0x81, 126, byte (data.length >>> 8), byte data.length] ++ data).length := by
        simp only [List.length_append, List.length_cons]
        omega
      have hRead :
          U16_AT (List.drop 2 ([0x81, 126, byte (data.length >>> 8), byte data.length] ++ data)) =
            data.length := by
        show (byte (data.length >>> 8)).toNat * 2 ^ 8 + (byte data.length).toNat = data.length
        rw [byte_toNat, byte_toNat, hShift]
        omega
      unfold payloadLength
      dsimp only
      have hMark :
          ([0x81, 126, byte (data.length >>> 8), byte data.length] ++ data)[1]! = 126 := rfl
      rw [hMark, if_pos (by decide), if_neg hFits, hRead]
    · rw [if_neg hMedium]
      have hSecond : (byte data.length).toNat = data.length := by
        rw [byte_toNat]
        omega
      have hMark : data.length &&& 0x7F = data.length := by
        have hMask := Nat.and_two_pow_sub_one_eq_mod data.length 7
        rw [Nat.mod_eq_of_lt (by omega)] at hMask
        exact hMask
      have hNoMask : data.length &&& 0x80 = 0 := by
        have hAll : ∀ n : Fin 128, n.val &&& 0x80 = 0 := by
          decide
        exact hAll ⟨data.length, by omega⟩
      refine ⟨2, rfl, by omega, rfl, ?_, ?_⟩
      · unfold payloadLength
        dsimp only
        have hByte : ([0x81, byte data.length] ++ data)[1]!.toNat = data.length := hSecond
        rw [hByte, hMark, if_neg (by omega), if_neg (by omega)]
      · exact maskAt_none (byte data.length) rfl (by rw [hSecond]; exact hNoMask) 2

theorem webSocket_frame {data : List Byte} (hLess : data.length < 2 ^ 31) :
    webSocketTurn (frameOf .MODE_WEBSOCKET data) =
      some
        { note := .kWhatWebSocketMessage 0x81 data
          length := (frameOf .MODE_WEBSOCKET data).length
          inside := true } := by
  rcases webSocketHeader_read hLess with ⟨offset, hOffset, hHeader, hFirst, hLength, hMask⟩
  unfold webSocketTurn frameOf
  dsimp only
  rw [if_neg (by rw [List.length_append]; omega), hLength, Option.bind_some]
  dsimp only
  rw [hMask, Option.bind_some]
  dsimp only
  rw [if_neg (by rw [List.length_append]; omega), hFirst,
    hOffset, List.drop_left' rfl, List.take_length, List.length_append]
  exact rfl

theorem framingOf_frame {mMode : Mode} {data : List Byte} (hMode : mMode ≠ .MODE_RTSP)
    (hAllowed : Allowed mMode data) :
    (framingOf mMode).next (frameOf mMode data) =
      some (noteOf mMode data, (frameOf mMode data).length) := by
  cases mMode with
  | MODE_RTSP => exact absurd rfl hMode
  | MODE_DATAGRAM =>
    show (datagramTurn _).map taken = _
    rw [datagram_frame hAllowed.2]
    exact rfl
  | MODE_WEBSOCKET =>
    show (webSocketTurn _).map taken = _
    rw [webSocket_frame hAllowed.2]
    exact rfl

--
-- Connections
--

/-
  Two sessions and the bytes between them, with the messages that have been given to one and what
  the other has posted.
-/
structure Link where
  sender : Session
  wire : List Byte
  receiver : Session
  sent : List (List Byte)
  posted : List Note
deriving DecidableEq, Repr

inductive Action
| sendRequest (data : List Byte) (timeValid : Bool) (timeUs : Int)
| writeMore (results : List Nat)
| readMore (n : Nat)
deriving DecidableEq, Repr

def Session.start (mMode : Mode) : Session where
  mMode := mMode
  mSawReceiveFailure := false
  mSawSendFailure := false
  mOutFragments := []
  mInBuffer := []

namespace Link

def start (mMode : Mode) : Link where
  sender := .start mMode
  wire := []
  receiver := .start mMode
  sent := []
  posted := []

/-
  `recv` gives up to 512 bytes of those that have been sent. The loop of the receiver has fuel for
  all its bytes.
-/
def step (l : Link) : Action → Option Link
| .sendRequest data timeValid timeUs =>
  if Allowed l.sender.mMode data then
    match sendRequest l.sender data timeValid timeUs with
    | .returns sender => some { l with sender, sent := l.sent ++ [data] }
    | _ => none
  else none
| .writeMore results =>
  (writeMore l.sender results).map fun (sender, bytes) =>
    { l with sender, wire := l.wire ++ bytes }
| .readMore n =>
  if 0 < n ∧ n ≤ 512 ∧ n ≤ l.wire.length then
    match readMore (l.receiver.mInBuffer.length + n + 1) l.receiver (.ok (l.wire.take n)) with
    | .returns (receiver, notes, _) =>
      some
        { l with
          wire := l.wire.drop n
          receiver
          posted := l.posted ++ notes }
    | _ => none
  else none

/- The bytes that have not been sent. -/
def pending (l : Link) : List Byte :=
  l.sender.mOutFragments.flatMap Fragment.mBuffer

/-
  What has been received, what is on the way and what is to be sent are the frames of the messages.
-/
structure Framed (mMode : Mode) (l : Link) : Prop where
  senderMode : l.sender.mMode = mMode
  receiverMode : l.receiver.mMode = mMode
  allowed : ∀ data ∈ l.sent, Allowed mMode data
  frames :
    ∃ received,
      received ++ l.wire ++ l.pending = l.sent.flatMap (frameOf mMode) ∧
        (framingOf mMode).drain received = (l.posted, l.receiver.mInBuffer)

end Link

theorem framingOf_nil (mMode : Mode) : (framingOf mMode).next [] = none := by
  cases mMode <;> rfl

/- Sending moves bytes from the fragments to the connection. -/
theorem writeLoop_bytes {frags left : List Fragment} {results : List Nat} {bytes : List Byte}
    (hWrite : writeLoop frags results = some (left, bytes)) :
    bytes ++ left.flatMap Fragment.mBuffer = frags.flatMap Fragment.mBuffer := by
  induction frags generalizing left results bytes with
  | nil =>
    cases hWrite
    rfl
  | cons frag frags ih =>
    cases results with
    | nil => cases hWrite
    | cons n results =>
      rw [writeLoop] at hWrite
      split at hWrite
      · split at hWrite
        · cases hWrite
          rw [List.flatMap_cons, List.flatMap_cons, ← List.append_assoc, List.take_append_drop]
        · rcases Option.map_eq_some_iff.mp hWrite with ⟨⟨rest, behind⟩, hRest, hBoth⟩
          cases hBoth
          rw [List.flatMap_cons, List.append_assoc, ih hRest]
      · cases hWrite

namespace Link

variable {mMode : Mode}

theorem sendRequest_returns {s : Session} {data : List Byte} (hMode : s.mMode ≠ .MODE_RTSP)
    (hAllowed : Allowed s.mMode data) (timeValid : Bool) (timeUs : Int) :
    sendRequest s data timeValid timeUs =
      .returns
        { s with
          mOutFragments :=
            s.mOutFragments ++ [fragmentOf (frameOf s.mMode data) timeValid timeUs] } := by
  have hSome : data.length ≠ 0 := by
    intro hNone
    exact hAllowed.1 (List.eq_nil_of_length_eq_zero hNone)
  unfold sendRequest
  rw [if_neg hSome, requestBuffer_frameOf hMode hAllowed]
  exact rfl

theorem framed_start : (start mMode).Framed mMode where
  senderMode := rfl
  receiverMode := rfl
  allowed := nofun
  frames := ⟨[], rfl, Framing.drain_none (framingOf_nil mMode)⟩

/- Whatever is done, the frames stay the same. -/
theorem framed_step (hMode : mMode ≠ .MODE_RTSP) {l l' : Link} {a : Action}
    (hFramed : l.Framed mMode) (hStep : l.step a = some l') : l'.Framed mMode := by
  rcases hFramed with ⟨rfl, hReceiver, hAllowed, received, hFrames, hDrain⟩
  cases a with
  | sendRequest data timeValid timeUs =>
    unfold step at hStep
    dsimp only at hStep
    split at hStep
    · rename_i hData
      rw [sendRequest_returns hMode hData] at hStep
      cases hStep
      refine ⟨rfl, hReceiver, ?_, received, ?_, hDrain⟩
      · intro d hd
        rcases List.mem_append.mp hd with hd | hd
        · exact hAllowed d hd
        · rw [List.mem_singleton.mp hd]
          exact hData
      · unfold pending at hFrames ⊢
        dsimp only
        rw [List.flatMap_append, List.flatMap_append, ← List.append_assoc, hFrames]
        exact rfl
    · cases hStep
  | writeMore results =>
    unfold step writeMore at hStep
    dsimp only at hStep
    split at hStep
    · cases hStep
    · rcases Option.map_eq_some_iff.mp hStep with ⟨⟨sender, bytes⟩, hWrite, hNext⟩
      rcases Option.map_eq_some_iff.mp hWrite with ⟨⟨left, sentBytes⟩, hLoop, hBoth⟩
      cases hBoth
      cases hNext
      refine ⟨rfl, hReceiver, hAllowed, received, ?_, hDrain⟩
      rw [← hFrames]
      unfold pending
      dsimp only
      rw [← writeLoop_bytes hLoop, List.append_assoc, List.append_assoc, List.append_assoc]
  | readMore n =>
    unfold step at hStep
    dsimp only at hStep
    split at hStep
    · rename_i hRecv
      have hLength : (l.wire.take n).length = n := List.length_take_of_le hRecv.2.2
      rw [readMore_drain (hReceiver ▸ hMode) (l.wire.take n) (by omega)] at hStep
      cases hStep
      refine ⟨rfl, hReceiver, hAllowed, received ++ l.wire.take n, ?_, ?_⟩
      · rw [← hFrames]
        unfold pending
        dsimp only
        rw [List.append_assoc received, List.take_append_drop]
      · rw [Framing.drain_append, hDrain, hReceiver]
    · cases hStep

theorem framed_run (hMode : mMode ≠ .MODE_RTSP) {as : List Action} {l : Link}
    (hRun : Run.exec step (start mMode) as = some l) : l.Framed mMode :=
  Run.exec_invariant (fun _ _ _ hFramed hStep => framed_step hMode hFramed hStep) hRun framed_start

/- Nothing is left when all has been received. -/
theorem Framed.finished {l : Link} (hMode : mMode ≠ .MODE_RTSP) (hFramed : l.Framed mMode)
    (hSent : l.sender.mOutFragments = []) (hWire : l.wire = []) :
    l.posted = l.sent.map (noteOf mMode) ∧ l.receiver.mInBuffer = [] := by
  rcases hFramed.frames with ⟨received, hFrames, hDrain⟩
  unfold pending at hFrames
  rw [hSent, hWire, List.flatMap_nil, List.append_nil, List.append_nil] at hFrames
  rw [hFrames,
    Framing.drain_encoded
      (fun data hData =>
        framingOf_frame hMode (hFramed.allowed data hData))
      (framingOf_nil mMode)] at hDrain
  exact ⟨(congrArg Prod.fst hDrain).symm, (congrArg Prod.snd hDrain).symm⟩

/- No message and no piece is refused. -/
theorem Framed.accepts {l : Link} (hMode : mMode ≠ .MODE_RTSP) (hFramed : l.Framed mMode) :
    (∀ data timeValid timeUs, Allowed mMode data →
        ∃ l', l.step (.sendRequest data timeValid timeUs) = some l') ∧
      ∀ n, 0 < n → n ≤ 512 → n ≤ l.wire.length →
        (∃ l', l.step (.readMore n) = some l') ∧
          ∃ result,
            Reaches
              (fun fuel =>
                ANetworkSession.readMore fuel l.receiver (.ok (l.wire.take n))) result := by
  have hReceiver : l.receiver.mMode ≠ .MODE_RTSP := by
    rw [hFramed.receiverMode]
    exact hMode
  constructor
  · intro data timeValid timeUs hData
    have hSender := hFramed.senderMode
    unfold step
    dsimp only
    rw [hSender, if_pos hData, sendRequest_returns (hSender ▸ hMode) (hSender ▸ hData)]
    exact ⟨_, rfl⟩
  · intro n hPos hMax hWire
    have hLength : (l.wire.take n).length = n := List.length_take_of_le hWire
    constructor
    · unfold step
      dsimp only
      rw [if_pos ⟨hPos, hMax, hWire⟩, readMore_drain hReceiver (l.wire.take n) (by omega)]
      exact ⟨_, rfl⟩
    · exact ⟨_, readMore_reaches hReceiver (l.wire.take n)⟩

end Link

--
-- Main Result
--

/-
  However messages are sent in parts and received in pieces, the receiver posts them when all bytes
  have arrived.
-/
theorem framing_roundTrip (mMode : Mode) (hMode : mMode ≠ .MODE_RTSP) (as : List Action) (l : Link)
    (hRun : Run.exec Link.step (.start mMode) as = some l) :
    (l.sender.mOutFragments = [] → l.wire = [] →
        l.posted = l.sent.map (noteOf mMode) ∧ l.receiver.mInBuffer = []) ∧
      (∀ data timeValid timeUs, Allowed mMode data →
        ∃ l', l.step (.sendRequest data timeValid timeUs) = some l') ∧
      ∀ n, 0 < n → n ≤ 512 → n ≤ l.wire.length →
        (∃ l', l.step (.readMore n) = some l') ∧
          ∃ result,
            Reaches
              (fun fuel =>
                readMore fuel l.receiver (.ok (l.wire.take n))) result := by
  have hFramed := Link.framed_run hMode hRun
  exact ⟨hFramed.finished hMode, hFramed.accepts hMode⟩

theorem framing_roundTrip_pieces :
    ∃ l,
      Run.exec Link.step (.start .MODE_WEBSOCKET)
          [.sendRequest [7, 8, 9] false 0, .writeMore [2], .readMore 1, .sendRequest [1] false 0,
            .writeMore [3, 1], .readMore 5, .writeMore [2], .readMore 2] = some l ∧
        l.posted = [.kWhatWebSocketMessage 0x81 [7, 8, 9], .kWhatWebSocketMessage 0x81 [1]] ∧
        l.receiver.mInBuffer = [] := by
  have hEnd :
      (Run.exec Link.step (.start .MODE_WEBSOCKET)
          [.sendRequest [7, 8, 9] false 0, .writeMore [2], .readMore 1, .sendRequest [1] false 0,
            .writeMore [3, 1], .readMore 5, .writeMore [2], .readMore 2]).map
          (fun l => (l.sender.mOutFragments, l.wire, l.sent)) =
        some ([], [], [[7, 8, 9], [1]]) := by
    decide
  rcases Option.map_eq_some_iff.mp hEnd with ⟨l, hRun, hLast⟩
  have hAll := framing_roundTrip .MODE_WEBSOCKET (by decide) _ l hRun
  simp only [Prod.mk.injEq] at hLast
  have hPosted := hAll.1 hLast.1 hLast.2.1
  rw [hLast.2.2] at hPosted
  exact ⟨l, hRun, hPosted.1, hPosted.2⟩

end ANetworkSession

end FrameworksAv
