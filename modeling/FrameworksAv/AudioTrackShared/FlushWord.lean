import FrameworksAv.AudioTrackShared.Streaming

/-
  The flush word `[ flush_counter ] [ newfront_offset ]`.

  `AudioTrackClientProxy::flush` encodes the number of flushes and the position of the rear; the
  server decodes the offset relative to its own front.

  Main declarations:
    * `Geometry.flushWord`
    * `ClientProxy.flush_mFlush`
    * `ServerProxy.rebase_exact`
    * `ServerProxy.newFront_exact`, `ServerProxy.newFront_eq`
-/

--
-- Encoding
--

namespace FrameworksAv

namespace AudioTrackShared

namespace Geometry

/- The flush counter starts above this power of two. -/
def flushBits (g : Geometry) : Nat :=
  g.logFrameCountP2 + 1

/- The word of a flush with a given number and position. -/
def flushWord (g : Geometry) (mark : FlushMark) : Word :=
  BitVec.ofNat 32 (2 ^ g.flushBits * mark.number + mark.position % 2 ^ g.flushBits)

theorem flushBits_lt (g : Geometry) : g.flushBits < 32 := by
  have hLe := g.logFrameCountP2_le
  unfold flushBits
  omega

theorem flushPeriod_mul (g : Geometry) : 2 ^ g.flushBits * g.flushPeriod = 2 ^ 32 := by
  have hLe := g.logFrameCountP2_le
  rw [flushBits, flushPeriod, ← Nat.pow_add]
  congr 1
  omega

theorem two_mul_mFrameCountP2 (g : Geometry) : 2 * g.mFrameCountP2 = 2 ^ g.flushBits := by
  rw [mFrameCountP2, flushBits, Nat.pow_succ, Nat.mul_comm]

theorem mFrameCount_le_pow (g : Geometry) : g.mFrameCount ≤ 2 ^ 30 :=
  Nat.le_trans g.mFrameCount_le (Nat.pow_le_pow_right (by omega) g.logFrameCountP2_le)

theorem mFrameCount_lt (g : Geometry) : g.mFrameCount < 2 ^ g.flushBits := by
  have hLe := g.mFrameCount_le
  have hPow : 2 ^ g.logFrameCountP2 < 2 ^ g.flushBits :=
    Nat.pow_lt_pow_right (by omega) (Nat.lt_succ_self _)
  omega

/- The mask that selects the offset of a flush word. -/
theorem mask_eq (g : Geometry) :
    BitVec.ofNat 32 (2 ^ g.flushBits) - 1 = BitVec.ofNat 32 (2 ^ g.flushBits - 1) :=
  Counter.ofNat_sub_ofNat (Nat.two_pow_pos _)

/- The offset of a flush word. -/
theorem flushWord_low (g : Geometry) (mark : FlushMark) :
    g.flushWord mark &&& BitVec.ofNat 32 (2 ^ g.flushBits - 1) =
      BitVec.ofNat 32 (mark.position % 2 ^ g.flushBits) := by
  rw [flushWord, Counter.low_ofNat _ g.flushBits_lt, Nat.mul_add_mod, Nat.mod_mod]

/- The counter of a flush word. -/
theorem flushWord_high (g : Geometry) (mark : FlushMark) :
    g.flushWord mark &&& ~~~BitVec.ofNat 32 (2 ^ g.flushBits - 1) =
      BitVec.ofNat 32 (2 ^ g.flushBits * mark.number) := by
  have hPos : 0 < 2 ^ g.flushBits := Nat.two_pow_pos _
  have hLow : mark.position % 2 ^ g.flushBits / 2 ^ g.flushBits = 0 :=
    Nat.div_eq_of_lt (Nat.mod_lt _ hPos)
  rw [flushWord, Counter.high_ofNat _ g.flushBits_lt, Nat.mul_add_div hPos, hLow, Nat.add_zero]

/- Within one period of the flush counter equal words have equal flush numbers. -/
theorem flushWord_inj (g : Geometry) {a b : FlushMark} (hLe : a.number ≤ b.number)
    (hNear : b.number < a.number + g.flushPeriod) (hEq : g.flushWord a = g.flushWord b) :
    a.number = b.number := by
  have hPos : 0 < 2 ^ g.flushBits := Nat.two_pow_pos _
  have hHigh :
      BitVec.ofNat 32 (2 ^ g.flushBits * a.number) =
        BitVec.ofNat 32 (2 ^ g.flushBits * b.number) := by
    rw [← flushWord_high, ← flushWord_high, hEq]
  have hDist : 2 ^ g.flushBits * b.number - 2 ^ g.flushBits * a.number < 2 ^ 32 := by
    rw [← Nat.mul_sub, ← g.flushPeriod_mul]
    exact Nat.mul_lt_mul_of_pos_left (by omega) hPos
  exact Nat.eq_of_mul_eq_mul_left hPos
    (Counter.ofNat_inj_of_lt (Nat.mul_le_mul_left _ hLe) hDist hHigh)

end Geometry

/- `flush` stores the word of the next flush. -/
theorem ClientProxy.flush_mFlush (g : Geometry) (c : Cblk) {mark : FlushMark} {rear : Nat}
    (hFlush : c.mFlush = g.flushWord mark) (hRear : c.mRear = BitVec.ofNat 32 rear) (word : Word) :
    (ClientProxy.flush g c).mFlush = g.flushWord ⟨mark.number + 1, rear, word⟩ := by
  have hLow : rear % 2 ^ g.flushBits < 2 ^ g.flushBits := Nat.mod_lt _ (Nat.two_pow_pos _)
  simp only [ClientProxy.flush, g.mask_eq, hFlush, hRear, g.flushWord_high, g.two_mul_mFrameCountP2]
  rw [Counter.low_ofNat _ g.flushBits_lt, ← Counter.ofNat_add, ← Nat.mul_succ,
    Counter.or_ofNat _ hLow g.flushBits_lt]
  rfl

--
-- Decoding
--

namespace ServerProxy

/- The counter of the front joined with the flush offset. -/
theorem rebased_ofNat (g : Geometry) (front : Nat) (mark : FlushMark) :
    (BitVec.ofNat 32 front &&& ~~~BitVec.ofNat 32 (2 ^ g.flushBits - 1)) |||
        (g.flushWord mark &&& BitVec.ofNat 32 (2 ^ g.flushBits - 1)) =
      BitVec.ofNat 32
        (2 ^ g.flushBits * (front / 2 ^ g.flushBits) + mark.position % 2 ^ g.flushBits) := by
  rw [g.flushWord_low, Counter.high_ofNat _ g.flushBits_lt, BitVec.or_comm]
  exact Counter.or_ofNat _ (Nat.mod_lt _ (Nat.two_pow_pos _)) g.flushBits_lt

/- Two positions less than a block apart are in the same block or in adjacent ones. -/
theorem rebased_cases {m front position : Nat} (hLe : front ≤ position)
    (hNear : position < front + m) :
    m * (front / m) + position % m = position ∨ m * (front / m) + position % m + m = position := by
  have hPos : 0 < m := by
    omega
  have hFront := Nat.div_add_mod front m
  have hPosition := Nat.div_add_mod position m
  have hFrontLt := Nat.mod_lt front hPos
  have hPositionLt := Nat.mod_lt position hPos
  have hDivLe : front / m ≤ position / m := Nat.div_le_div_right hLe
  have hDivLt : position / m < front / m + 2 := by
    apply Nat.div_lt_of_lt_mul
    rw [Nat.mul_add]
    omega
  rcases Nat.lt_or_ge (front / m) (position / m) with
    hLt | hGe
  · right
    have hDiv : position / m = front / m + 1 := by
      omega
    rw [hDiv, Nat.mul_add] at hPosition
    omega
  · left
    have hDiv : position / m = front / m := by
      omega
    rw [hDiv] at hPosition
    exact hPosition

section NewFront

variable (g : Geometry)
variable {front rear : Nat} {mark : FlushMark}

/-
  For `mFrameCountP2 <= 2^29` the rebased front is the position of the flush, on either side of the
  overflow bit.
-/
theorem rebase_exact (hBits : g.logFrameCountP2 ≤ 29) (hFront : front ≤ mark.position)
    (hRear : mark.position ≤ rear) (hRoom : rear ≤ front + g.mFrameCount) :
    rebase g (BitVec.ofNat 32 front) (g.flushWord mark) (BitVec.ofNat 32 rear) =
      (BitVec.ofNat 32 mark.position, BitVec.ofNat 32 (rear - mark.position)) := by
  have hBlock : 2 ^ g.flushBits ≤ 2 ^ 30 := Nat.pow_le_pow_right (by omega) (Nat.succ_le_succ hBits)
  have hCount := g.mFrameCount_lt
  have hCountP2 := g.mFrameCount_le
  have hHalf : 2 ^ g.flushBits = 2 * 2 ^ g.logFrameCountP2 := g.two_mul_mFrameCountP2.symm
  have hOverflow : (BitVec.ofNat 32 (2 ^ g.flushBits)).toInt = (2 ^ g.flushBits : Nat) :=
    Counter.toInt_ofNat (by omega)
  simp only [rebase, g.mask_eq, g.two_mul_mFrameCountP2, rebased_ofNat]
  rcases rebased_cases hFront
      (show mark.position < front + 2 ^ g.flushBits by
        omega) with hSame | hNext
  · have hWithin :
        ¬ (BitVec.ofNat 32 (2 ^ g.flushBits)).toInt ≤
          (BitVec.ofNat 32 rear - BitVec.ofNat 32 mark.position).toInt := by
      rw [hOverflow, Counter.toInt_sub_ofNat hRear (by omega)]
      omega
    rw [hSame, if_neg hWithin, Counter.ofNat_sub_ofNat hRear]
  · -- the front is one block below the flush offset
    generalize
      2 ^ g.flushBits * (front / 2 ^ g.flushBits) + mark.position % 2 ^ g.flushBits = low at hNext ⊢
    have hBeyond :
        (BitVec.ofNat 32 (2 ^ g.flushBits)).toInt ≤
          (BitVec.ofNat 32 rear - BitVec.ofNat 32 low).toInt := by
      rw [hOverflow, Counter.toInt_sub_ofNat (by omega) (by omega)]
      omega
    rw [if_pos hBeyond, BitVec.sub_sub, ← Counter.ofNat_add, hNext, Counter.ofNat_sub_ofNat hRear]

/- The distance to the rear passes the plausibility check. -/
theorem rebase_inBounds (hBits : g.logFrameCountP2 ≤ 29) (hFront : front ≤ mark.position)
    (hRear : mark.position ≤ rear) (hRoom : rear ≤ front + g.mFrameCount) :
    g.Plausible
      (rebase g (BitVec.ofNat 32 front) (g.flushWord mark) (BitVec.ofNat 32 rear)).2.toInt := by
  have hPow : 2 ^ g.logFrameCountP2 ≤ 2 ^ 29 := Nat.pow_le_pow_right (by omega) hBits
  have hCountP2 := g.mFrameCount_le
  rw [rebase_exact g hBits hFront hRear hRoom, Counter.toInt_ofNat (by omega), Geometry.Plausible]
  omega

/- The new front is the position of the flush. -/
theorem newFront_exact (hBits : g.logFrameCountP2 ≤ 29) (hFront : front ≤ mark.position)
    (hRear : mark.position ≤ rear) (hRoom : rear ≤ front + g.mFrameCount) :
    newFront g (BitVec.ofNat 32 front) (g.flushWord mark) (BitVec.ofNat 32 rear) =
      BitVec.ofNat 32 mark.position := by
  have hPlausible := rebase_inBounds g hBits hFront hRear hRoom
  rw [newFront, if_pos hPlausible, rebase_exact g hBits hFront hRear hRoom]

/-
  In every geometry the new front is the position of the flush or the rear: for `2^30` the overflow
  bit is the sign bit, and the plausibility check decides.
-/
theorem newFront_eq (hFront : front ≤ mark.position) (hRear : mark.position ≤ rear)
    (hRoom : rear ≤ front + g.mFrameCount) :
    newFront g (BitVec.ofNat 32 front) (g.flushWord mark)
        (BitVec.ofNat 32 rear) = BitVec.ofNat 32 mark.position ∨
      newFront g (BitVec.ofNat 32 front) (g.flushWord mark)
        (BitVec.ofNat 32 rear) = BitVec.ofNat 32 rear := by
  rcases Nat.lt_or_ge 29 g.logFrameCountP2 with hTop | hBits
  · have hLog : g.logFrameCountP2 = 30 := by
      have hLe := g.logFrameCountP2_le
      omega
    have hFlushBits : 2 ^ g.flushBits = 2 ^ 31 := by
      rw [Geometry.flushBits, hLog]
    have hOverflow : ∀ x : Word, (BitVec.ofNat 32 (2 ^ g.flushBits)).toInt ≤ x.toInt := by
      intro x
      rw [hFlushBits]
      exact BitVec.le_toInt x
    have hCount := g.mFrameCount_le
    rw [hLog] at hCount
    simp only [newFront, rebase, g.mask_eq, g.two_mul_mFrameCountP2, rebased_ofNat, hOverflow,
      if_true]
    split
    · left
      rcases rebased_cases hFront
          (show mark.position < front + 2 ^ g.flushBits by
            omega) with hSame | hNext
      · -- the check fails: the distance is negative
        rename_i hPlausible
        exfalso
        rw [hSame, BitVec.sub_sub, ← Counter.ofNat_add, hFlushBits,
          Counter.toInt_sub_ofNat_neg (by omega) (by omega)] at hPlausible
        have hNonneg := hPlausible.1
        omega
      · rw [← Counter.ofNat_add, hNext]
    · exact Or.inr rfl
  · exact Or.inl (newFront_exact g hBits hFront hRear hRoom)

end NewFront

end ServerProxy

end AudioTrackShared

end FrameworksAv
