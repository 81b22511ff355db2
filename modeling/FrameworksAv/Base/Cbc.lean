import FrameworksAv.Base.Bytes
import Mathlib.Data.List.GetD
import Mathlib.Data.List.OfFn

/-
  Cipher block chaining, over any blocks with an operation that undoes itself; and bytes taken as
  blocks.

  Main declarations:
    * `Cbc.encrypt`, `Cbc.decrypt`
    * `Cbc.decrypt_encrypt`, `Cbc.decrypt_append`
    * `blocksOf`, `bytesOf`
    * `bytesOf_blocksOf`, `blocksOf_bytesOf`
-/

--
-- Chaining
--

namespace FrameworksAv

namespace Cbc

variable {β : Type*}
variable (add : β → β → β)

/- A block is encrypted together with what came before it. -/
def encrypt (cipher : β → β) : β → List β → List β
| _, [] => []
| iv, block :: blocks =>
  let next := cipher (add block iv)
  next :: encrypt cipher next blocks

def decrypt (cipher : β → β) : β → List β → List β
| _, [] => []
| iv, block :: blocks => add (cipher block) iv :: decrypt cipher block blocks

variable {add}

@[simp] theorem decrypt_length (cipher : β → β) (iv : β) (blocks : List β) :
    (decrypt add cipher iv blocks).length = blocks.length := by
  induction blocks generalizing iv with
  | nil => rfl
  | cons block blocks ih => rw [decrypt, List.length_cons, ih, List.length_cons]

theorem decrypt_encrypt {cipher inverse : β → β}
    (hInverse : ∀ block, inverse (cipher block) = block) (hAdd : ∀ a b, add (add a b) b = a)
    (iv : β) (blocks : List β) :
    decrypt add inverse iv (encrypt add cipher iv blocks) = blocks := by
  induction blocks generalizing iv with
  | nil => rfl
  | cons block blocks ih => rw [encrypt, decrypt, ih, hInverse, hAdd]

/- The last encrypted block is what the next part begins with. -/
theorem decrypt_append (cipher : β → β) (iv : β) (front rest : List β) :
    decrypt add cipher iv (front ++ rest) =
      decrypt add cipher iv front ++ decrypt add cipher (front.getLastD iv) rest := by
  induction front generalizing iv with
  | nil => rfl
  | cons block front ih =>
    rw [List.cons_append, decrypt, ih, decrypt, List.cons_append, List.getLastD_cons]

end Cbc

--
-- Blocks
--

/- The first blocks of some bytes. -/
def blocksFrom (n : Nat) : Nat → List Byte → List (Fin n → Byte)
| 0, _ => []
| count + 1, bytes => (fun i => bytes.getD i 0) :: blocksFrom n count (bytes.drop n)

/- All blocks of `n` bytes; an incomplete one is left out. -/
def blocksOf (n : Nat) (bytes : List Byte) : List (Fin n → Byte) :=
  blocksFrom n (bytes.length / n) bytes

def bytesOf {n : Nat} (blocks : List (Fin n → Byte)) : List Byte :=
  blocks.flatMap List.ofFn

variable {n : Nat}

@[simp] theorem blocksFrom_length (count : Nat) (bytes : List Byte) :
    (blocksFrom n count bytes).length = count := by
  induction count generalizing bytes with
  | zero => rfl
  | succ count ih => rw [blocksFrom, List.length_cons, ih]

@[simp] theorem bytesOf_length (blocks : List (Fin n → Byte)) :
    (bytesOf blocks).length = n * blocks.length := by
  induction blocks with
  | nil => rfl
  | cons block blocks ih =>
    unfold bytesOf at ih ⊢
    rw [List.flatMap_cons, List.length_append, List.length_ofFn,
      ih, List.length_cons, Nat.mul_succ, Nat.add_comm]

theorem bytesOf_append (front rest : List (Fin n → Byte)) :
    bytesOf (front ++ rest) = bytesOf front ++ bytesOf rest :=
  List.flatMap_append

/- The blocks behind some whole ones. -/
theorem blocksFrom_append {count : Nat} {front : List Byte} (hFront : front.length = n * count)
    (more : Nat) (rest : List Byte) :
    blocksFrom n (count + more) (front ++ rest) =
      blocksFrom n count front ++ blocksFrom n more rest := by
  induction count generalizing front with
  | zero =>
    rw [Nat.mul_zero] at hFront
    rw [List.length_eq_zero_iff.mp hFront, Nat.zero_add]
    rfl
  | succ count ih =>
    have hLe : n ≤ front.length := by
      rw [hFront]
      exact Nat.le_mul_of_pos_right n (Nat.succ_pos count)
    have hDrop : (front.drop n).length = n * count := by
      rw [List.length_drop, hFront, Nat.mul_succ, Nat.add_sub_cancel]
    have hHead : (fun i : Fin n => (front ++ rest).getD i 0) = fun i : Fin n => front.getD i 0 := by
      funext i
      exact List.getD_append _ _ _ _ (Nat.lt_of_lt_of_le i.isLt hLe)
    rw [Nat.succ_add, blocksFrom, blocksFrom, hHead, List.drop_append_of_le_length hLe, ih hDrop,
      List.cons_append]

theorem blocksOf_append (hPos : 0 < n) {front : List Byte} (hFront : front.length % n = 0)
    (rest : List Byte) : blocksOf n (front ++ rest) = blocksOf n front ++ blocksOf n rest := by
  have hLength : front.length = n * (front.length / n) :=
    (Nat.mul_div_cancel' (Nat.dvd_of_mod_eq_zero hFront)).symm
  have hCount : (front ++ rest).length / n = front.length / n + rest.length / n := by
    rw [List.length_append, hLength, Nat.mul_add_div hPos, Nat.mul_div_cancel_left _ hPos]
  unfold blocksOf
  rw [hCount, blocksFrom_append hLength]

theorem bytesOf_blocksFrom {count : Nat} {bytes : List Byte} (hLength : bytes.length = n * count) :
    bytesOf (blocksFrom n count bytes) = bytes := by
  induction count generalizing bytes with
  | zero =>
    rw [Nat.mul_zero] at hLength
    rw [List.length_eq_zero_iff.mp hLength]
    rfl
  | succ count ih =>
    have hDrop : (bytes.drop n).length = n * count := by
      rw [List.length_drop, hLength, Nat.mul_succ, Nat.add_sub_cancel]
    have hLe : n ≤ bytes.length := by
      rw [hLength]
      exact Nat.le_mul_of_pos_right n (Nat.succ_pos count)
    have hHead : List.ofFn (fun i : Fin n => bytes.getD i 0) = bytes.take n := by
      apply List.ext_getElem
      · rw [List.length_ofFn, List.length_take, Nat.min_eq_left hLe]
      · intro i hFirst hSecond
        rw [List.length_ofFn] at hFirst
        rw [List.getElem_ofFn, List.getElem_take,
          List.getD_eq_getElem _ _ (Nat.lt_of_lt_of_le hFirst hLe)]
    have hRest := ih hDrop
    unfold bytesOf at hRest ⊢
    rw [blocksFrom, List.flatMap_cons, hHead, hRest, List.take_append_drop]

theorem bytesOf_blocksOf {bytes : List Byte} (hWhole : bytes.length % n = 0) :
    bytesOf (blocksOf n bytes) = bytes :=
  bytesOf_blocksFrom (Nat.mul_div_cancel' (Nat.dvd_of_mod_eq_zero hWhole)).symm

theorem blocksFrom_bytesOf (blocks : List (Fin n → Byte)) :
    blocksFrom n blocks.length (bytesOf blocks) = blocks := by
  induction blocks with
  | nil => rfl
  | cons block blocks ih =>
    have hHead :
        (fun i : Fin n =>
          (List.ofFn block ++ bytesOf blocks).getD i 0) =
          block := by
      funext i
      have hInside : i.val < (List.ofFn block).length := by
        rw [List.length_ofFn]
        exact i.isLt
      rw [List.getD_append _ _ _ _ hInside, List.getD_eq_getElem _ _ hInside, List.getElem_ofFn]
    have hDrop : (List.ofFn block ++ bytesOf blocks).drop n = bytesOf blocks := by
      apply List.drop_left'
      exact List.length_ofFn
    show blocksFrom n (blocks.length + 1) (List.ofFn block ++ bytesOf blocks) = _
    rw [blocksFrom, hHead, hDrop, ih]

theorem blocksOf_bytesOf (hPos : 0 < n) (blocks : List (Fin n → Byte)) :
    blocksOf n (bytesOf blocks) = blocks := by
  unfold blocksOf
  rw [bytesOf_length, Nat.mul_div_cancel_left _ hPos, blocksFrom_bytesOf]

end FrameworksAv
