import FrameworksAv.ANetworkSession.Session

/-
  What parsing reads.

  It stays inside the data, and what it finds depends on the bytes of the message only: other data
  that begin with these bytes have the same message in front.

  Main declarations:
    * `Agree`, `lineEnd_ok`, `lineEnd_agree`
    * `parseTurn_agree`, `parseLoop_agree`
    * `parse_ok`, `parse_local`
-/

--
-- Lines
--

namespace FrameworksAv

namespace ANetworkSession

/- Two buffers that begin with the same bytes. -/
def Agree (n : Nat) (data other : List Byte) : Prop :=
  n ≤ data.length ∧ n ≤ other.length ∧ ∀ i < n, data[i]? = other[i]?

variable {n : Nat} {data other : List Byte}

theorem Agree.read (hAgree : Agree n data other) {i : Nat} (hi : i < n) :
    Buffer.read other i = Buffer.read data i := by
  unfold Buffer.read
  rw [hAgree.2.2 i hi]

theorem Agree.slice (hAgree : Agree n data other) {start count : Nat}
    (hInside : start + count ≤ n) :
    Buffer.slice other start count = Buffer.slice data start count := by
  rcases hAgree with ⟨hData, hOther, hSame⟩
  unfold Buffer.slice
  rw [if_pos (by omega), if_pos (by omega)]
  congr 1
  apply List.ext_getElem?
  intro i
  rw [List.getElem?_take, List.getElem?_take, List.getElem?_drop, List.getElem?_drop]
  split
  · rw [hSame _ (by omega)]
  · rfl

theorem read_inside {i : Nat} (hi : i < data.length) : Buffer.read data i = .ok data[i] := by
  unfold Buffer.read
  rw [List.getElem?_eq_getElem hi]

/- The end of a line is searched for inside the data. -/
theorem lineEnd_ok {start : Nat} (hStart : start < data.length) :
    ∃ e,
      Checked.loop (lineEndTurn data) (data.length + 1) start = .ok e ∧
        start ≤ e ∧ e < data.length := by
  apply @Checked.loop_rule Nat Nat (lineEndTurn data) (fun e => start ≤ e ∧ e < data.length)
    (fun e => start ≤ e ∧ e < data.length) (fun e => data.length - e)
  · rintro e ⟨hFrom, hTo⟩
    unfold lineEndTurn
    by_cases hMore : e + 1 < data.length
    · rw [if_pos hMore, read_inside hTo, Checked.ok_bind, read_inside hMore]
      have hNext : start ≤ e + 1 ∧ e + 1 < data.length := by omega
      by_cases hFirst : data[e] ≠ 0x0D
      · rw [if_pos hFirst]
        exact .inl ⟨e + 1, rfl, hNext, by omega⟩
      · rw [if_neg hFirst, Checked.ok_bind]
        by_cases hSecond : data[e + 1] ≠ 0x0A
        · rw [if_pos hSecond]
          exact .inl ⟨e + 1, rfl, hNext, by omega⟩
        · rw [if_neg hSecond]
          exact .inr ⟨e, rfl, hFrom, hTo⟩
    · rw [if_neg hMore]
      exact .inr ⟨e, rfl, hFrom, hTo⟩
  · exact ⟨Nat.le_refl _, hStart⟩
  · omega

theorem lineEndTurn_agree (hAgree : Agree n data other) {e : Nat} (he : e + 1 < n) :
    lineEndTurn other e = lineEndTurn data e := by
  have hData := hAgree.1
  have hOther := hAgree.2.1
  unfold lineEndTurn
  rw [if_pos (by omega), if_pos (by omega), hAgree.read (by omega), hAgree.read he]

theorem lineEndTurn_cases {e : Nat} {turn : Turn Nat Nat} (hTurn : lineEndTurn data e = .ok turn) :
    turn = .done e ∨ turn = .again (e + 1) := by
  unfold lineEndTurn at hTurn
  split at hTurn
  · rcases Checked.bind_eq_ok.mp hTurn with ⟨first, -, hTurn⟩
    split at hTurn
    · cases hTurn
      exact .inr rfl
    · rcases Checked.bind_eq_ok.mp hTurn with ⟨second, -, hTurn⟩
      split at hTurn
      · cases hTurn
        exact .inr rfl
      · cases hTurn
        exact .inl rfl
  · cases hTurn
    exact .inl rfl

/- The same line end is found in other data. -/
theorem lineEnd_agree (hAgree : Agree n data other) {budget e start : Nat}
    (hLoop : Checked.loop (lineEndTurn data) budget start = .ok e) (hEnd : e + 1 < n) :
    start ≤ e ∧ Checked.loop (lineEndTurn other) budget start = .ok e := by
  induction budget generalizing start with
  | zero => cases hLoop
  | succ budget ih =>
    cases hTurn : lineEndTurn data start with
    | error fault =>
      rw [Checked.loop_fault hTurn] at hLoop
      cases hLoop
    | ok turn =>
      rcases lineEndTurn_cases hTurn with rfl | rfl
      · rw [Checked.loop_done hTurn] at hLoop
        cases hLoop
        rw [← lineEndTurn_agree hAgree hEnd] at hTurn
        exact ⟨Nat.le_refl _, Checked.loop_done hTurn budget⟩
      · rw [Checked.loop_again hTurn] at hLoop
        rcases ih hLoop with ⟨hBefore, hRest⟩
        rw [← lineEndTurn_agree hAgree (by omega)] at hTurn
        refine ⟨by omega, ?_⟩
        rw [Checked.loop_again hTurn]
        exact hRest

end ANetworkSession

--
-- Headers
--

namespace ANetworkSession

open Foundation

variable {n : Nat} {data other : List Byte}

/- What a turn does with the end of its line. -/
def lineTurn (s : Parsing) (e : Nat) (line : List Byte) : Turn Parsing (Option (Parsing × Bool)) :=
  if s.offset = 0 then
    .again
      { s with
        mDict := (Dict.add ['_'] (text line) s.mDict).1
        offset := e + 2 }
  else if e = s.offset then .done (some ({ s with offset := e + 2 }, true))
  else .again { addLine s (text line) with offset := e + 2 }

theorem parseTurn_eq (s : Parsing) (hMore : s.offset < data.length) :
    parseTurn data s =
      (Checked.loop (lineEndTurn data) (data.length + 1) s.offset >>= fun e =>
        if data.length ≤ e + 1 then pure (.done none)
        else
          Buffer.slice data s.offset (e - s.offset) >>= fun line => pure (lineTurn s e line)) := by
  unfold parseTurn lineTurn
  rw [if_pos hMore]
  congr 1
  funext e
  congr 1
  congr 1
  funext line
  split
  · rfl
  · split
    · rfl
    · rfl

/- Where a turn leads. -/
theorem lineTurn_cases (s : Parsing) (e : Nat) (line : List Byte) :
    (∃ t, lineTurn s e line = .again t ∧ t.offset = e + 2) ∨
      ∃ t, lineTurn s e line = .done (some (t, true)) ∧ t.offset = e + 2 := by
  unfold lineTurn
  split
  · exact .inl ⟨_, rfl, rfl⟩
  · split
    · exact .inr ⟨_, rfl, rfl⟩
    · exact .inl ⟨_, rfl, rfl⟩

/- The loop over the lines stays inside. -/
theorem parseLoop_ok (data : List Byte) :
    ∃ lines,
      Checked.loop (parseTurn data) (data.length + 1)
          { offset := 0, mDict := [], lastDictIndex := none } =
        .ok lines ∧
        ∀ s complete, lines = some (s, complete) →
          s.offset ≤ data.length ∧ (complete = true → 2 ≤ s.offset) := by
  apply @Checked.loop_rule Parsing _ (parseTurn data) (fun s => s.offset ≤ data.length)
    (fun lines =>
      ∀ s complete, lines = some (s, complete) →
        s.offset ≤ data.length ∧ (complete = true → 2 ≤ s.offset))
    (fun s => data.length - s.offset)
  · intro s hOffset
    by_cases hMore : s.offset < data.length
    · rcases lineEnd_ok hMore with ⟨e, hLoop, hFrom, hTo⟩
      rw [parseTurn_eq s hMore, hLoop, Checked.ok_bind]
      by_cases hLast : data.length ≤ e + 1
      · rw [if_pos hLast]
        exact .inr ⟨none, rfl, nofun⟩
      · have hInside : s.offset + (e - s.offset) ≤ data.length := by
          omega
        rw [if_neg hLast, Buffer.slice, if_pos hInside, Checked.ok_bind]
        rcases lineTurn_cases s e ((data.drop s.offset).take (e - s.offset)) with
          ⟨t, hTurn, hNext⟩ | ⟨t, hTurn, hNext⟩
        · rw [hTurn]
          exact .inl ⟨t, rfl, by omega, by omega⟩
        · rw [hTurn]
          refine .inr ⟨_, rfl, ?_⟩
          intro u complete hSame
          cases hSame
          exact ⟨by omega, fun _ => by omega⟩
    · unfold parseTurn
      rw [if_neg hMore]
      refine .inr ⟨_, rfl, ?_⟩
      intro u complete hSame
      cases hSame
      exact ⟨hOffset, nofun⟩
  · exact Nat.zero_le _
  · show data.length - 0 < data.length + 1
    omega

/- A turn that goes on, or ends behind the headers. -/
theorem parseTurn_agree (hAgree : Agree n data other) {s t : Parsing}
    {turn : Turn Parsing (Option (Parsing × Bool))} (hTurn : parseTurn data s = .ok turn)
    (hNext : turn = .again t ∨ turn = .done (some (t, true))) (hOffset : t.offset ≤ n) :
    s.offset ≤ t.offset ∧ parseTurn other s = .ok turn := by
  have hData := hAgree.1
  have hOther := hAgree.2.1
  by_cases hMore : s.offset < data.length
  · rcases lineEnd_ok hMore with ⟨e, hLoop, hFrom, hTo⟩
    rw [parseTurn_eq s hMore, hLoop, Checked.ok_bind] at hTurn
    by_cases hLast : data.length ≤ e + 1
    · rw [if_pos hLast] at hTurn
      cases hTurn
      rcases hNext with hNext | hNext <;> cases hNext
    · rw [if_neg hLast] at hTurn
      rcases Checked.bind_eq_ok.mp hTurn with ⟨line, hLine, hTurn⟩
      have hEnd : t.offset = e + 2 := by
        rcases lineTurn_cases s e line with ⟨u, hu, hOffset⟩ | ⟨u, hu, hOffset⟩
        · rw [hu] at hTurn
          cases hTurn
          rcases hNext with hNext | hNext
          · cases hNext
            exact hOffset
          · cases hNext
        · rw [hu] at hTurn
          cases hTurn
          rcases hNext with hNext | hNext
          · cases hNext
          · cases hNext
            exact hOffset
      have hMoreOther : s.offset < other.length := by omega
      rcases lineEnd_ok hMoreOther with ⟨e', hLoopOther, -, -⟩
      have hSame : e' = e :=
        Checked.loop_unique hLoopOther (lineEnd_agree hAgree hLoop (by omega)).2
      rw [hSame] at hLoopOther
      refine ⟨by omega, ?_⟩
      rw [parseTurn_eq s hMoreOther, hLoopOther, Checked.ok_bind, if_neg (by omega),
        hAgree.slice (by omega), hLine, Checked.ok_bind]
      exact hTurn
  · unfold parseTurn at hTurn
    rw [if_neg hMore] at hTurn
    cases hTurn
    rcases hNext with hNext | hNext <;> cases hNext

/- The same lines are found in other data. -/
theorem parseLoop_agree (hAgree : Agree n data other) {budget : Nat} {s t : Parsing}
    (hLoop : Checked.loop (parseTurn data) budget s = .ok (some (t, true)))
    (hOffset : t.offset ≤ n) :
    s.offset ≤ t.offset ∧ Checked.loop (parseTurn other) budget s = .ok (some (t, true)) := by
  induction budget generalizing s with
  | zero => cases hLoop
  | succ budget ih =>
    cases hTurn : parseTurn data s with
    | error fault =>
      rw [Checked.loop_fault hTurn] at hLoop
      cases hLoop
    | ok turn =>
      cases turn with
      | done a =>
        rw [Checked.loop_done hTurn] at hLoop
        cases hLoop
        rcases parseTurn_agree hAgree hTurn (.inr rfl) hOffset with ⟨hBefore, hSame⟩
        exact ⟨hBefore, Checked.loop_done hSame budget⟩
      | again u =>
        rw [Checked.loop_again hTurn] at hLoop
        rcases ih hLoop with ⟨hBetween, hRest⟩
        rcases parseTurn_agree hAgree hTurn (.inl rfl) (Nat.le_trans hBetween hOffset) with
          ⟨hBefore, hSame⟩
        refine ⟨Nat.le_trans hBefore hBetween, ?_⟩
        rw [Checked.loop_again hSame]
        exact hRest

/- The message behind the headers. -/
def bodyOf (data : List Byte) (s : Parsing) : Checked (Option (ParsedMessage × Nat)) :=
  let mDict := s.mDict.map fun (key, value) => (key, AString.trim value)
  if data.length < s.offset + contentLength mDict then pure none
  else Buffer.slice data s.offset (contentLength mDict) >>= fun mContent =>
        pure (some ({ mDict, mContent }, s.offset + contentLength mDict))

theorem parse_eq (hSome : data.length ≠ 0) :
    parse data false =
      (Checked.loop (parseTurn data) (data.length + 1)
          { offset := 0, mDict := [], lastDictIndex := none } >>=
        fun lines =>
          match lines with
          | some (s, true) => bodyOf data s
          | _ => pure none) := by
  unfold parse
  rw [if_neg hSome]
  congr 1
  funext lines
  cases lines with
  | none => rfl
  | some both =>
    rcases both with ⟨s, complete⟩
    cases complete with
    | false => exact if_pos ⟨nofun, .inl nofun⟩
    | true => exact if_neg fun hBoth => hBoth.1 rfl

/- Parsing stays inside, and takes what it has read. -/
theorem parse_ok (data : List Byte) :
    ∃ found,
      parse data false = .ok found ∧
        ∀ msg m, found = some (msg, m) → m ≤ data.length ∧ msg.mContent.length + 2 ≤ m := by
  by_cases hSome : data.length ≠ 0
  · rw [parse_eq hSome]
    rcases parseLoop_ok data with ⟨lines, hLoop, hLines⟩
    rw [hLoop, Checked.ok_bind]
    rcases lines with _ | ⟨s, _ | _⟩
    · exact ⟨none, rfl, nofun⟩
    · exact ⟨none, rfl, nofun⟩
    · have hOffset := (hLines s true rfl).2 rfl
      dsimp only
      unfold bodyOf
      dsimp only
      split
      · exact ⟨none, rfl, nofun⟩
      · rename_i hFits
        rw [Buffer.slice, if_pos (by omega), Checked.ok_bind]
        refine ⟨_, rfl, ?_⟩
        intro msg m hFound
        cases hFound
        refine ⟨by omega, ?_⟩
        dsimp only
        rw [List.length_take, List.length_drop]
        omega
  · unfold parse
    rw [if_pos (not_not.mp hSome)]
    exact ⟨none, rfl, nofun⟩

/- Only the bytes of the message are looked at. -/
theorem parse_local {msg : ParsedMessage} (hParse : parse data false = .ok (some (msg, n)))
    (hAgree : Agree n data other) : parse other false = .ok (some (msg, n)) := by
  have hSome : data.length ≠ 0 := by
    intro hNone
    unfold parse at hParse
    rw [if_pos hNone] at hParse
    cases hParse
  rw [parse_eq hSome] at hParse
  rcases Checked.bind_eq_ok.mp hParse with ⟨lines, hLoop, hBody⟩
  rcases lines with _ | ⟨s, _ | _⟩
  · cases hBody
  · cases hBody
  · dsimp only at hBody
    unfold bodyOf at hBody
    dsimp only at hBody
    split at hBody
    · cases hBody
    · rename_i hFits
      rcases Checked.bind_eq_ok.mp hBody with ⟨mContent, hContent, hBody⟩
      cases hBody
      have hOther := hAgree.2.1
      rcases parseLoop_ok data with ⟨lines, hAll, hLines⟩
      rw [hLoop] at hAll
      cases hAll
      have hOffset := (hLines s true rfl).2 rfl
      have hSomeOther : other.length ≠ 0 := by omega
      rcases parseLoop_ok other with ⟨linesOther, hLoopOther, -⟩
      have hSame : linesOther = some (s, true) :=
        Checked.loop_unique hLoopOther (parseLoop_agree hAgree hLoop (by omega)).2
      rw [parse_eq hSomeOther, hLoopOther, Checked.ok_bind, hSame]
      dsimp only
      unfold bodyOf
      dsimp only
      rw [if_neg (by omega), hAgree.slice (Nat.le_refl _), hContent]
      exact rfl

end ANetworkSession

end FrameworksAv
