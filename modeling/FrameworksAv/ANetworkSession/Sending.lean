import FrameworksAv.ANetworkSession.Session

/-
  Sending the queued fragments of a connection (`Session::writeMore`, ANetworkSession.cpp, in the
  state `CONNECTED`).

  Main declarations:
    * `SendResult`, `sendAgain`
    * `sendLoop`, `writeFragments`
    * `Meets`, `Blocked`
    * `meets_iff`
-/

--
-- Code
--

namespace FrameworksAv

namespace ANetworkSession

namespace Sending

/- What `send` gives: the number of bytes that it took, or -1 and `errno`. -/
inductive SendResult
| sent (n : Nat)
| failed (errno : Nat)
deriving DecidableEq, Repr

def EINTR : Nat := 4

def EAGAIN : Nat := 11

def ECONNRESET : Nat := 104

/- The calls until one is not interrupted: all their results, the last one, and what comes then. -/
def sendAgain : List SendResult → Option (List SendResult × SendResult × List SendResult)
| [] => none
| result :: results =>
  if result = .failed EINTR then
    (sendAgain results).map fun (used, last, rest) => (result :: used, last, rest)
  else some ([result], result, results)

structure Written where
  mOutFragments : List Fragment
  bytes : List Byte
  used : List SendResult
  n : SendResult
deriving DecidableEq, Repr

/-
  The loop over the fragments, `n` being the last result. There is no value when the results run
  out, or when one is greater than the buffer.
-/
def sendLoop (n : SendResult) : List Fragment → List SendResult → Option Written
| [], _ => some ⟨[], [], [], n⟩
| frag :: frags, results =>
  match sendAgain results with
  | none => none
  | some (used, .failed errno, _) => some ⟨frag :: frags, [], used, .failed errno⟩
  | some (used, .sent size, rest) =>
    if size = 0 then some ⟨frag :: frags, [], used, .sent 0⟩
    else if frag.mBuffer.length < size then none
    else if size < frag.mBuffer.length then
      some ⟨{ frag with mBuffer := frag.mBuffer.drop size } :: frags, frag.mBuffer.take size, used,
        .sent size⟩
    else
      (sendLoop (.sent size) frags rest).map fun w =>
        { w with bytes := frag.mBuffer ++ w.bytes, used := used ++ w.used }

structure Outcome where
  written : Written
  err : Int
  notified : Bool
  mSawSendFailure : Bool
deriving DecidableEq, Repr

/- No error where bytes were taken. -/
def errorOf : SendResult → Int
| .failed errno => -errno
| .sent 0 => -ECONNRESET
| .sent (_ + 1) => 0

/- There are fragments; the `n` in front of the loop is then never the last one. -/
def writeFragments (s : Session) (results : List SendResult) : Option Outcome :=
  if s.mOutFragments = [] then none
  else
    (sendLoop (.failed 0) s.mOutFragments results).map fun w =>
      let err := errorOf w.n
      ⟨w, err, err ≠ 0, s.mSawSendFailure || err ≠ 0⟩

--
-- Meaning
--

/- The fragments that are left when the bytes have been taken from the front. -/
inductive Takes : List Fragment → List Byte → List Fragment → Prop
| nothing (frags : List Fragment) : Takes frags [] frags
| part (frag : Fragment) (frags : List Fragment) (n : Nat) :
  Takes (frag :: frags) (frag.mBuffer.take n)
    ({ frag with mBuffer := frag.mBuffer.drop n } :: frags)
| whole (frag : Fragment) {frags left : List Fragment} {bytes : List Byte} :
  Takes frags bytes left → Takes (frag :: frags) (frag.mBuffer ++ bytes) left

/- The connection is gone. -/
def Bad (result : SendResult) : Prop :=
  result = .sent 0 ∨ ∃ errno, result = .failed errno ∧ errno ≠ EINTR ∧ errno ≠ EAGAIN

structure Meets (s : Session) (out : Outcome) : Prop where
  takes : Takes s.mOutFragments out.written.bytes out.written.mOutFragments
  bytes : out.written.bytes ++ out.written.mOutFragments.flatMap Fragment.mBuffer =
    s.mOutFragments.flatMap Fragment.mBuffer
  fails : out.err ≠ 0 ∨ out.notified = true ∨
      (out.mSawSendFailure = true ∧ s.mSawSendFailure = false) →
    ∃ result ∈ out.written.used, Bad result

/- The socket is full when some of the fragments have been sent, and there are more. -/
def Blocked (frags : List Fragment) (results : List SendResult) : Prop :=
  ∃ sent frag rest before after, frags = sent ++ frag :: rest ∧
    results = before ++ .failed EAGAIN :: after ∧
    before.filter (· ≠ .failed EINTR) = sent.map (fun f => .sent f.mBuffer.length) ∧
    ∀ f ∈ sent, f.mBuffer ≠ []

theorem Takes.bytes {frags left : List Fragment} {bytes : List Byte}
    (hTakes : Takes frags bytes left) :
    bytes ++ left.flatMap Fragment.mBuffer = frags.flatMap Fragment.mBuffer := by
  induction hTakes with
  | nothing frags => exact List.nil_append _
  | part frag frags n =>
    rw [List.flatMap_cons, List.flatMap_cons, ← List.append_assoc, List.take_append_drop]
  | whole frag _ ih => rw [List.flatMap_cons, List.append_assoc, ih]

--
-- The loop
--

section Loop

theorem sendAgain_eq {results used rest : List SendResult} {last : SendResult}
    (hAgain : sendAgain results = some (used, last, rest)) :
    ∃ k, used = List.replicate k (.failed EINTR) ++ [last] ∧ results = used ++ rest ∧
      last ≠ .failed EINTR := by
  induction results generalizing used with
  | nil => cases hAgain
  | cons result results ih =>
    unfold sendAgain at hAgain
    split at hAgain
    · rename_i hInterrupted
      rcases Option.map_eq_some_iff.mp hAgain with ⟨⟨used', last', rest'⟩, hRest, hEq⟩
      cases hEq
      rcases ih hRest with ⟨k, hUsed, hResults, hLast⟩
      refine ⟨k + 1, ?_, ?_, hLast⟩
      · rw [hInterrupted, hUsed, List.replicate_succ, List.cons_append]
      · rw [hResults, List.cons_append]
    · rename_i hNot
      cases hAgain
      exact ⟨0, rfl, rfl, hNot⟩

/- The first result that is not an interrupt decides whether the socket is full. -/
theorem blocked_cons {frag : Fragment} {frags : List Fragment} {k : Nat} {last : SendResult}
    {rest : List SendResult} (hLast : last ≠ .failed EINTR) :
    Blocked (frag :: frags) (List.replicate k (.failed EINTR) ++ [last] ++ rest) ↔
      last = .failed EAGAIN ∨
        last = .sent frag.mBuffer.length ∧ frag.mBuffer ≠ [] ∧ Blocked frags rest := by
  induction k with
  | zero =>
    rw [List.replicate_zero, List.nil_append, List.singleton_append]
    constructor
    · rintro ⟨sent, next, more, before, after, hFrags, hResults, hFilter, hFull⟩
      cases before with
      | nil =>
        cases hResults
        exact Or.inl rfl
      | cons first before =>
        cases hResults
        rw [List.filter_cons_of_pos (by simpa using hLast)] at hFilter
        cases sent with
        | nil => cases hFilter
        | cons f sent =>
          cases hFrags
          rcases List.cons.inj hFilter with ⟨hFirst, hFilter⟩
          exact Or.inr ⟨hFirst, hFull _ List.mem_cons_self, sent, next, more, before, after, rfl,
            rfl, hFilter, fun f hMem => hFull f (List.mem_cons_of_mem _ hMem)⟩
    · rintro (rfl | ⟨rfl, hFull, sent, next, more, before, after, rfl, rfl, hFilter, hAll⟩)
      · exact ⟨[], frag, frags, [], rest, rfl, rfl, rfl, by simp⟩
      · refine ⟨frag :: sent, next, more, .sent frag.mBuffer.length :: before, after, rfl, rfl,
          ?_, ?_⟩
        · rw [List.filter_cons_of_pos (by simp), hFilter, List.map_cons]
        · exact List.forall_mem_cons.mpr ⟨hFull, hAll⟩
  | succ k ih =>
    rw [← ih, List.replicate_succ, List.cons_append, List.cons_append]
    constructor
    · rintro ⟨sent, next, more, before, after, hFrags, hResults, hFilter, hFull⟩
      cases before with
      | nil => cases hResults
      | cons first before =>
        rcases List.cons.inj hResults with ⟨hFirst, hResults⟩
        rw [← hFirst, List.filter_cons_of_neg (by simp)] at hFilter
        exact ⟨sent, next, more, before, after, hFrags, hResults, hFilter, hFull⟩
    · rintro ⟨sent, next, more, before, after, hFrags, hResults, hFilter, hFull⟩
      refine ⟨sent, next, more, .failed EINTR :: before, after, hFrags, ?_, ?_, hFull⟩
      · rw [hResults, List.cons_append]
      · rwa [List.filter_cons_of_neg (by simp)]

/- What the loop does, and that a full socket alone ends it with `EAGAIN`. -/
structure LoopSpec (frags : List Fragment) (results : List SendResult) (w : Written) : Prop where
  takes : Takes frags w.bytes w.mOutFragments
  full : w.n = .failed EAGAIN ↔ Blocked frags results
  last : w.n ∈ w.used
  notBad : w.n = .failed EAGAIN → ∀ result ∈ w.used, ¬Bad result
  interrupt : w.n ≠ .failed EINTR

theorem not_bad_interrupt : ¬Bad (.failed EINTR) := by
  rintro (hEq | ⟨errno, hEq, hNot, -⟩)
  · cases hEq
  · cases hEq
    exact hNot rfl

theorem not_bad_full : ¬Bad (.failed EAGAIN) := by
  rintro (hEq | ⟨errno, hEq, -, hNot⟩)
  · cases hEq
  · cases hEq
    exact hNot rfl

theorem not_bad_sent {n : Nat} (hn : n ≠ 0) : ¬Bad (.sent n) := by
  rintro (hEq | ⟨errno, hEq, -⟩)
  · cases hEq
    exact hn rfl
  · cases hEq

theorem not_bad_used {k : Nat} {last : SendResult} (hLast : ¬Bad last) :
    ∀ result ∈ List.replicate k (.failed EINTR) ++ [last], ¬Bad result := by
  intro result hMem
  rcases List.mem_append.mp hMem with hInterrupt | hSame
  · rw [List.eq_of_mem_replicate hInterrupt]
    exact not_bad_interrupt
  · rwa [List.mem_singleton.mp hSame]

theorem sendLoop_spec {frags : List Fragment} {results : List SendResult} {n : SendResult}
    {w : Written} (hLoop : sendLoop n frags results = some w) (hSome : frags ≠ []) :
    LoopSpec frags results w := by
  induction frags generalizing results n w with
  | nil => exact absurd rfl hSome
  | cons frag frags ih =>
    unfold sendLoop at hLoop
    split at hLoop
    · cases hLoop
    · -- An error ends the loop; the fragments stay.
      rename_i used errno rest hAgain
      cases hLoop
      rcases sendAgain_eq hAgain with ⟨k, hUsed, hResults, hLast⟩
      subst hUsed hResults
      refine ⟨.nothing _, ?_, by simp, ?_, hLast⟩
      · rw [blocked_cons hLast]
        simp
      · intro hFull
        cases (hFull : SendResult.failed errno = .failed EAGAIN)
        exact not_bad_used not_bad_full
    · rename_i used size rest hAgain
      rcases sendAgain_eq hAgain with ⟨k, hUsed, hResults, hLast⟩
      subst hUsed hResults
      have hBlocked := @blocked_cons frag frags k _ rest hLast
      split at hLoop
      · rename_i hZero
        cases hLoop
        subst hZero
        refine ⟨.nothing _, ?_, by simp, nofun, nofun⟩
        rw [hBlocked]
        refine iff_of_false nofun ?_
        rintro (hEq | ⟨hEq, hFull, -⟩)
        · cases hEq
        · exact hFull (List.length_eq_zero_iff.mp (SendResult.sent.inj hEq).symm)
      · rename_i hPositive
        split at hLoop
        · cases hLoop
        · split at hLoop
          · -- A part of the fragment is left.
            rename_i hShort
            cases hLoop
            refine ⟨.part frag frags size, ?_, by simp, nofun, nofun⟩
            rw [hBlocked]
            refine iff_of_false nofun ?_
            rintro (hEq | ⟨hEq, -⟩)
            · cases hEq
            · exact absurd (SendResult.sent.inj hEq) (by omega)
          · have hSize : size = frag.mBuffer.length := by omega
            have hFull : frag.mBuffer ≠ [] := by
              rintro hNil
              rw [hNil] at hSize
              exact hPositive hSize
            rcases Option.map_eq_some_iff.mp hLoop with ⟨w', hRest, hEq⟩
            subst hEq
            rcases eq_or_ne frags [] with hNil | hMore
            · subst hNil
              cases hRest
              refine ⟨.whole frag (.nothing []), ?_, by simp, nofun, nofun⟩
              rw [hBlocked]
              refine iff_of_false nofun ?_
              rintro (hEq | ⟨-, -, sent, next, more, before, after, hFrags, -⟩)
              · cases hEq
              · simp at hFrags
            · have hSpec := ih hRest hMore
              refine ⟨.whole frag hSpec.takes, ?_, List.mem_append_right _ hSpec.last, ?_,
                hSpec.interrupt⟩
              · rw [hBlocked, hSpec.full]
                simp [hSize, hFull]
              · intro hEnd result hMem
                rcases List.mem_append.mp hMem with hFirst | hLater
                · exact not_bad_used (not_bad_sent hPositive) result hFirst
                · exact hSpec.notBad hEnd result hLater

end Loop

--
-- Result
--

/- An error is a bad result, except for a full socket. -/
theorem bad_of_error {result : SendResult} (hError : errorOf result ≠ 0)
    (hInterrupt : result ≠ .failed EINTR) (hFull : result ≠ .failed EAGAIN) : Bad result := by
  cases result with
  | sent n =>
    cases n with
    | zero => exact Or.inl rfl
    | succ n => exact absurd rfl hError
  | failed errno =>
    refine Or.inr ⟨errno, rfl, ?_, ?_⟩
    · rintro rfl
      exact hInterrupt rfl
    · rintro rfl
      exact hFull rfl

/- The fragments are right in any case; a full socket alone is reported without need. -/
theorem meets_iff {s : Session} {results : List SendResult} {out : Outcome}
    (hWrite : writeFragments s results = some out) :
    Meets s out ↔ ¬Blocked s.mOutFragments results := by
  unfold writeFragments at hWrite
  split at hWrite
  · cases hWrite
  · rename_i hSome
    rcases Option.map_eq_some_iff.mp hWrite with ⟨w, hLoop, hEq⟩
    subst hEq
    have hSpec := sendLoop_spec hLoop hSome
    constructor
    · rintro ⟨-, -, hFails⟩ hBlocked
      have hEnd := hSpec.full.mpr hBlocked
      have hError : errorOf w.n ≠ 0 := by
        rw [hEnd]
        decide
      rcases hFails (Or.inl hError) with ⟨result, hMem, hBad⟩
      exact hSpec.notBad hEnd result hMem hBad
    · intro hNot
      refine ⟨hSpec.takes, hSpec.takes.bytes, fun hFails => ⟨w.n, hSpec.last, ?_⟩⟩
      refine bad_of_error ?_ hSpec.interrupt fun hFull => hNot (hSpec.full.mp hFull)
      rintro hOk
      rcases hFails with hErr | hNotified | ⟨hSet, hUnset⟩
      · exact hErr hOk
      · simp [hOk] at hNotified
      · simp [hOk, hUnset] at hSet

/- Two fragments with a short second send, and with a full socket at the second. -/
def twoFragments : Session where
  mMode := .MODE_RTSP
  mSawReceiveFailure := false
  mSawSendFailure := false
  mOutFragments := [⟨0, 0, [1, 2]⟩, ⟨0, 0, [3, 4]⟩]
  mInBuffer := []

theorem meets_iff_short :
    Meets twoFragments ⟨⟨[⟨0, 0, [4]⟩], [1, 2, 3], [.sent 2, .sent 1], .sent 1⟩, 0, false, false⟩ ↔
      ¬Blocked twoFragments.mOutFragments [.sent 2, .sent 1] :=
  meets_iff (by decide)

theorem not_meets :
    writeFragments twoFragments [.sent 2, .failed EAGAIN] =
        some ⟨⟨[⟨0, 0, [3, 4]⟩], [1, 2], [.sent 2, .failed EAGAIN], .failed EAGAIN⟩, -11, true,
          true⟩ ∧
      ¬Meets twoFragments
        ⟨⟨[⟨0, 0, [3, 4]⟩], [1, 2], [.sent 2, .failed EAGAIN], .failed EAGAIN⟩, -11, true,
          true⟩ := by
  refine ⟨by decide, fun hMeets => ?_⟩
  rcases hMeets.fails (Or.inl (by decide)) with ⟨result, hMem, hBad⟩
  rcases List.mem_cons.mp hMem with hSent | hRest
  · rw [hSent] at hBad
    exact not_bad_sent (by decide) hBad
  · rw [List.mem_singleton.mp hRest] at hBad
    exact not_bad_full hBad

end Sending

end ANetworkSession

end FrameworksAv
