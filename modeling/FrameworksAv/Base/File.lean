import FrameworksAv.Base.Bytes

/-
  Files that are written at a position.

  A file has bytes, a position and a size. What was never written reads as it was before; a file
  that holds some bytes at a place is a statement about that region only.

  Main declarations:
    * `be32`, `be64`
    * `File`, `File.write`, `File.seek`
    * `File.Holds`, `File.SameBelow`
    * `File.Holds.append_write`, `File.Holds.patch`
-/

--
-- Numbers
--

namespace FrameworksAv

/- The bytes of a number, the highest one first. -/
def bigEndian (width n : Nat) : List Byte :=
  ((List.range width).map (fun k => BitVec.ofNat 8 (n / 256 ^ k))).reverse

def be32 (n : Nat) : List Byte :=
  bigEndian 4 n

def be64 (n : Nat) : List Byte :=
  bigEndian 8 n

@[simp] theorem be32_length (n : Nat) : (be32 n).length = 4 :=
  rfl

@[simp] theorem be64_length (n : Nat) : (be64 n).length = 8 :=
  rfl

--
-- Regions of a Memory
--

namespace Memory

variable (mem : Memory)

/- A store in front of a region leaves the region unchanged. -/
theorem load_store_after {start count before : Nat} {bytes : List Byte}
    (hAfter : before + bytes.length ≤ start) :
    (mem.store before bytes).load start count = mem.load start count := by
  apply List.map_congr_left
  intro k _
  have hNone : bytes[start + k - before]? = none := List.getElem?_eq_none (by omega)
  rw [store, if_pos (by omega), hNone]
  rfl

/- What was stored is read back. -/
theorem load_store_self (start : Nat) (bytes : List Byte) :
    (mem.store start bytes).load start bytes.length = bytes := by
  rw [load_store_taken mem start (Nat.le_refl _), List.take_length]

/- A store inside a region replaces a part of it. -/
theorem load_store_inside (start : Nat) {count skip : Nat} {bytes : List Byte}
    (hInside : skip + bytes.length ≤ count) :
    (mem.store (start + skip) bytes).load start count =
      (mem.load start count).take skip ++ bytes ++
        (mem.load start count).drop (skip + bytes.length) := by
  have hSplit : count = skip + (bytes.length + (count - (skip + bytes.length))) := by
    omega
  have hRest :
      (mem.load start count).drop (skip + bytes.length) =
        mem.load (start + skip + bytes.length) (count - (skip + bytes.length)) := by
    conv => lhs; rw [hSplit, ← Nat.add_assoc, load_add]
    rw [List.drop_left' (load_length mem start _), Nat.add_assoc]
  have hFront : (mem.load start count).take skip = mem.load start skip := by
    conv => lhs; rw [hSplit, load_add]
    exact List.take_left' (load_length mem start skip)
  rw [hRest, hFront]
  conv => lhs; rw [hSplit, load_add, load_add]
  rw [load_store_before mem (Nat.le_refl _), load_store_self, load_store_after mem (Nat.le_refl _),
    List.append_assoc]

end Memory

--
-- Files
--

structure File where
  bytes : Memory
  pos : Nat
  size : Nat

namespace File

def empty : File where
  bytes := fun _ => 0
  pos := 0
  size := 0

def seek (file : File) (pos : Nat) : File :=
  { file with pos := pos }

/- Write bytes at the position, which moves behind them. -/
def write (file : File) (data : List Byte) : File where
  bytes := file.bytes.store file.pos data
  pos := file.pos + data.length
  size := max file.size (file.pos + data.length)

/- The bytes at a place of a file. -/
def Holds (file : File) (start : Nat) (data : List Byte) : Prop :=
  file.bytes.load start data.length = data

/- Two files are the same in front of a place. -/
def SameBelow (file other : File) (stop : Nat) : Prop :=
  ∀ i, i < stop → file.bytes i = other.bytes i

variable (file : File)

@[simp] theorem seek_bytes (pos : Nat) : (file.seek pos).bytes = file.bytes :=
  rfl

@[simp] theorem seek_pos (pos : Nat) : (file.seek pos).pos = pos :=
  rfl

@[simp] theorem seek_size (pos : Nat) : (file.seek pos).size = file.size :=
  rfl

@[simp] theorem write_pos (data : List Byte) : (file.write data).pos = file.pos + data.length :=
  rfl

@[simp] theorem write_size (data : List Byte) :
    (file.write data).size = max file.size (file.pos + data.length) :=
  rfl

@[simp] theorem seek_holds_iff (pos start : Nat) (data : List Byte) :
    (file.seek pos).Holds start data ↔ file.Holds start data :=
  Iff.rfl

theorem holds_nil (start : Nat) : file.Holds start [] :=
  rfl

theorem holds_append_iff (start : Nat) (front more : List Byte) :
    file.Holds start (front ++ more) ↔
      file.Holds start front ∧ file.Holds (start + front.length) more := by
  unfold Holds
  rw [List.length_append, Memory.load_add]
  constructor
  · intro hBoth
    exact List.append_inj hBoth (Memory.load_length _ _ _)
  · rintro ⟨hFront, hMore⟩
    rw [hFront, hMore]

theorem write_holds (data : List Byte) : (file.write data).Holds file.pos data :=
  Memory.load_store_self _ _ _

variable {file}

namespace Holds

variable {start : Nat} {data : List Byte}

theorem write_behind (hHolds : file.Holds start data) (hBehind : start + data.length ≤ file.pos)
    (more : List Byte) : (file.write more).Holds start data :=
  (Memory.load_store_before _ hBehind more).trans hHolds

theorem write_before {more : List Byte} (hHolds : file.Holds start data)
    (hBefore : file.pos + more.length ≤ start) : (file.write more).Holds start data :=
  (Memory.load_store_after _ hBefore).trans hHolds

/- Writing goes on where the region ends. -/
theorem append_write (hHolds : file.Holds start data) (hPos : file.pos = start + data.length)
    (more : List Byte) : (file.write more).Holds start (data ++ more) := by
  rw [holds_append_iff]
  refine ⟨hHolds.write_behind (by omega) more, ?_⟩
  rw [← hPos]
  exact write_holds file more

/- A part of the region is overwritten. -/
theorem patch {skip : Nat} {more : List Byte} (hHolds : file.Holds start data)
    (hPos : file.pos = start + skip) (hInside : skip + more.length ≤ data.length) :
    (file.write more).Holds start (data.take skip ++ more ++ data.drop (skip + more.length)) := by
  have hLength :
      (data.take skip ++ more ++ data.drop (skip + more.length)).length = data.length := by
    simp only [List.length_append, List.length_take, List.length_drop]
    omega
  have hLoad := Memory.load_store_inside file.bytes start hInside
  unfold Holds at hHolds ⊢
  rw [hLength, write, hPos, hLoad, hHolds]

theorem sameBelow {other : File} {stop : Nat} (hHolds : file.Holds start data)
    (hSame : other.SameBelow file stop) (hInside : start + data.length ≤ stop) :
    other.Holds start data := by
  refine Eq.trans (List.map_congr_left ?_) hHolds
  intro k hMember
  have hLess := List.mem_range.mp hMember
  exact hSame (start + k) (by omega)

end Holds

/- Writing behind a place leaves what is in front of it. -/
theorem SameBelow.write {other : File} {stop : Nat} (hSame : file.SameBelow other stop)
    (hBehind : stop ≤ file.pos) (data : List Byte) : (file.write data).SameBelow other stop := by
  intro i hLess
  rw [← hSame i hLess]
  show (if file.pos ≤ i then _ else _) = _
  rw [if_neg (by omega)]

end File

end FrameworksAv
