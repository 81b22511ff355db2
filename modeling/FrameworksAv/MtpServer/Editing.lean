import FrameworksAv.MtpServer.Server
import Mathlib.Data.List.Nodup
import Mathlib.Data.List.TakeDrop

/-
  Editing objects in place.

  The size that is kept with an edit is that of its file as long as every transfer lands where it
  was announced: nothing of the object comes with the first packet when the request goes well, and a
  transfer that fails has neither left its range nor made the file longer.

  Main declarations:
    * `writeAt_getElem?`, `writeAt_length`
    * `Lands`, `Promised`, `Follows`
    * `Inv`, `request_follows`
    * `edits_follow`
-/

--
-- Writing at an offset
--

namespace FrameworksAv

namespace MtpServer

variable {content data : List Byte} {offset : Nat}

@[simp] theorem writeAt_nil (content : List Byte) (offset : Nat) :
    writeAt content offset [] = content :=
  if_pos rfl

theorem writeAt_length (content data : List Byte) (offset : Nat) :
    (writeAt content offset data).length = if data = [] then content.length
      else max content.length (offset + data.length) := by
  unfold writeAt
  split
  · rfl
  · simp only [List.length_append, List.takeD_length, List.length_drop]
    omega

/- The bytes of the range are new, all others as before. -/
theorem writeAt_getElem? (hInside : offset ≤ content.length) (i : Nat) :
    (writeAt content offset data)[i]? =
      if offset ≤ i ∧ i < offset + data.length then data[i - offset]?
      else content[i]? := by
  unfold writeAt
  by_cases hEmpty : data = []
  · rw [if_pos hEmpty, if_neg]
    rw [hEmpty, List.length_nil]
    omega
  rw [if_neg hEmpty, List.takeD_eq_take _ hInside, List.append_assoc]
  have hLength : (content.take offset).length = offset := by
    rw [List.length_take, Nat.min_eq_left hInside]
  by_cases hBefore : i < offset
  · rw [if_neg (by omega), List.getElem?_append_left (by omega), List.getElem?_take_of_lt hBefore]
  · rw [List.getElem?_append_right (by omega), hLength]
    by_cases hIn : i < offset + data.length
    · rw [if_pos ⟨by omega, hIn⟩, List.getElem?_append_left (by omega)]
    · rw [if_neg (by omega), List.getElem?_append_right (by omega), List.getElem?_drop]
      congr 1
      omega

end MtpServer

--
-- Where a transfer lands
--

namespace MtpServer

/- The contents have the same size and the same bytes outside of a range. -/
def SameOutside (offset length : Nat) (content other : List Byte) : Prop :=
  other.length = content.length ∧ ∀ i, i < offset ∨ offset + length ≤ i → other[i]? = content[i]?

theorem SameOutside.refl (offset length : Nat) (content : List Byte) :
    SameOutside offset length content content :=
  ⟨rfl, fun _ _ => rfl⟩

theorem SameOutside.trans {offset length : Nat} {content other last : List Byte}
    (hFirst : SameOutside offset length content other)
    (hSecond : SameOutside offset length other last) : SameOutside offset length content last := by
  refine ⟨hSecond.1.trans hFirst.1, ?_⟩
  intro i hOutside
  exact (hSecond.2 i hOutside).trans (hFirst.2 i hOutside)

/- What is written lies inside of the range and of the file. -/
theorem SameOutside.writeAt {offset length start : Nat} {content data : List Byte}
    (hStart : offset ≤ start) (hRange : start + data.length ≤ offset + length)
    (hFile : start + data.length ≤ content.length) :
    SameOutside offset length content (writeAt content start data) := by
  constructor
  · rw [writeAt_length]
    split <;> omega
  · intro i hOutside
    rw [writeAt_getElem? (by omega), if_neg (by omega)]

/-
  A transfer of `length` bytes into a file of `size` bytes lands well. One that succeeds brings no
  data in its first packet and as many bytes after it as were announced; one that fails has written
  only inside of its range and of the file.
-/
def Lands (offset : Nat) (length : BitVec 32) (size : Nat) (transfer : Transfer)
    (initialData : List Byte) : Prop :=
  ∀ count, (if initialData = [] then some 0 else transfer.written) = some count →
    if length ≠ BitVec.ofNat 32 initialData.length ∧ transfer.completed = false then
      (initialData.take count).length ≤ length.toNat ∧
        offset + (initialData.take count).length ≤ size ∧
        (transfer.received ≠ [] →
          initialData.length + transfer.received.length ≤ length.toNat ∧
            offset + initialData.length + transfer.received.length ≤ size)
    else initialData = [] ∧ (length ≠ 0 → transfer.received.length = length.toNat)

namespace Lands

variable {offset size : Nat} {length : BitVec 32} {transfer : Transfer}
variable {initialData content after : List Byte}

theorem sub_ne_zero_iff (a b : BitVec 32) : a - b ≠ 0 ↔ a ≠ b := by
  bv_omega

/- A transfer that fails leaves what is outside of its range. -/
theorem fails (hLands : Lands offset length content.length transfer initialData)
    (hReceive :
      transfer.receive initialData offset (length - BitVec.ofNat 32 initialData.length ≠ 0)
          content =
        (false, after)) :
    SameOutside offset length.toNat content after := by
  unfold Transfer.receive at hReceive
  cases hCount : if initialData = [] then some 0 else transfer.written with
  | none =>
    rw [hCount] at hReceive
    cases hReceive
    exact SameOutside.refl _ _ _
  | some count =>
    have hWhere := hLands count hCount
    rw [hCount] at hReceive
    dsimp only at hReceive
    split at hReceive
    · rename_i hRest
      have hNe := (sub_ne_zero_iff _ _).mp (of_decide_eq_true hRest)
      have hCompleted : transfer.completed = false := congrArg Prod.fst hReceive
      rw [if_pos ⟨hNe, hCompleted⟩] at hWhere
      rcases hWhere with ⟨hRange, hFile, hReceived⟩
      have hAfter := congrArg Prod.snd hReceive
      dsimp only at hAfter
      have hFirst :
          SameOutside offset length.toNat content
            (writeAt content offset (initialData.take count)) :=
        SameOutside.writeAt (Nat.le_refl _) (by omega) hFile
      rw [← hAfter]
      refine hFirst.trans ?_
      by_cases hNone : transfer.received = []
      · rw [hNone]
        exact SameOutside.refl _ _ _
      · have hBoth := hReceived hNone
        apply SameOutside.writeAt
        · omega
        · omega
        · rw [hFirst.1]
          exact hBoth.2
    · cases hReceive

/- A transfer that succeeds writes exactly its range. -/
theorem succeeds (hLands : Lands offset length size transfer initialData)
    (hReceive :
      transfer.receive initialData offset (length - BitVec.ofNat 32 initialData.length ≠ 0)
          content =
        (true, after)) :
    initialData = [] ∧
      ∃ data : List Byte,
        data.length = length.toNat ∧ (data ≠ [] → data = transfer.received) ∧
          after = writeAt content offset data := by
  unfold Transfer.receive at hReceive
  cases hCount : if initialData = [] then some 0 else transfer.written with
  | none =>
    rw [hCount] at hReceive
    cases hReceive
  | some count =>
    have hWhere := hLands count hCount
    rw [hCount] at hReceive
    dsimp only at hReceive
    split at hReceive
    · rename_i hRest
      have hNe := (sub_ne_zero_iff _ _).mp (of_decide_eq_true hRest)
      have hCompleted : transfer.completed = true := congrArg Prod.fst hReceive
      rw [if_neg (by simp [hCompleted])] at hWhere
      rcases hWhere with ⟨rfl, hLength⟩
      refine ⟨rfl, transfer.received, hLength hNe, fun _ => rfl, ?_⟩
      rw [List.take_nil, writeAt_nil] at hReceive
      exact (congrArg Prod.snd hReceive).symm
    · rename_i hRest
      have hEq : length = BitVec.ofNat 32 initialData.length := by
        by_contra hNe
        apply hRest
        exact decide_eq_true ((sub_ne_zero_iff _ _).mpr hNe)
      rw [if_neg (fun hBoth => hBoth.1 hEq)] at hWhere
      rcases hWhere with ⟨rfl, -⟩
      refine ⟨rfl, [], ?_, fun hNone => absurd rfl hNone, ?_⟩
      · rw [hEq]
        rfl
      · rw [List.take_nil] at hReceive
        exact (congrArg Prod.snd hReceive).symm

end Lands

--
-- The sizes of the edits
--

/- No handle has two edits, and the size of an edit is that of its file. -/
structure Tracked (s : Server) : Prop where
  handles : (s.mObjectEditList.map ObjectEdit.mHandle).Nodup
  sizes : ∀ edit ∈ s.mObjectEditList, edit.mSize.toNat = (s.files edit.mPath).length

/- Besides, the files are distinct, and small enough for `off_t`. -/
structure Inv (s : Server) : Prop extends Tracked s where
  paths : (s.mObjectEditList.map ObjectEdit.mPath).Nodup
  below : ∀ edit ∈ s.mObjectEditList, edit.mSize.toNat < 2 ^ 63

section Resize

variable (handle : MtpObjectHandle)
variable (size : BitVec 64)

theorem resize_map_handle (edits : List ObjectEdit) :
    (resize handle size edits).map ObjectEdit.mHandle = edits.map ObjectEdit.mHandle := by
  induction edits with
  | nil => rfl
  | cons edit edits ih =>
    unfold resize
    split
    · rfl
    · rw [List.map_cons, List.map_cons, ih]

theorem resize_map_path (edits : List ObjectEdit) :
    (resize handle size edits).map ObjectEdit.mPath = edits.map ObjectEdit.mPath := by
  induction edits with
  | nil => rfl
  | cons edit edits ih =>
    unfold resize
    split
    · rfl
    · rw [List.map_cons, List.map_cons, ih]

/- Of the edits of distinct handles one has another size. -/
theorem mem_resize {edits : List ObjectEdit} (hNodup : (edits.map ObjectEdit.mHandle).Nodup)
    {edit : ObjectEdit} (hEdit : edit ∈ resize handle size edits) :
    (edit ∈ edits ∧ edit.mHandle ≠ handle) ∨
      ∃ old ∈ edits, old.mHandle = handle ∧ edit = { old with mSize := size } := by
  induction edits with
  | nil => cases hEdit
  | cons first edits ih =>
    rw [List.map_cons, List.nodup_cons] at hNodup
    unfold resize at hEdit
    split at hEdit
    · rename_i hHandle
      rcases List.mem_cons.mp hEdit with rfl | hLater
      · exact Or.inr ⟨first, List.mem_cons_self, hHandle, rfl⟩
      · left
        refine ⟨List.mem_cons_of_mem _ hLater, ?_⟩
        intro hSame
        apply hNodup.1
        rw [hHandle, ← hSame]
        exact List.mem_map_of_mem hLater
    · rename_i hHandle
      rcases List.mem_cons.mp hEdit with rfl | hLater
      · exact Or.inl ⟨List.mem_cons_self, hHandle⟩
      · rcases ih hNodup.2 hLater with ⟨hMember, hOther⟩ | ⟨old, hOld, hRest⟩
        · exact Or.inl ⟨List.mem_cons_of_mem _ hMember, hOther⟩
        · exact Or.inr ⟨old, List.mem_cons_of_mem _ hOld, hRest⟩

end Resize

variable {s t : Server} {edit : ObjectEdit}

theorem getEditObject_mem {handle : MtpObjectHandle} (hEdit : s.getEditObject handle = some edit) :
    edit ∈ s.mObjectEditList ∧ edit.mHandle = handle := by
  unfold Server.getEditObject at hEdit
  refine ⟨List.mem_of_find?_eq_some hEdit, ?_⟩
  simpa using List.find?_some hEdit

namespace Inv

theorem congr (hInv : Inv s) (hList : t.mObjectEditList = s.mObjectEditList)
    (hFiles : t.files = s.files) : Inv t where
  handles := by
    rw [hList]
    exact hInv.handles
  sizes := by
    rw [hList, hFiles]
    exact hInv.sizes
  paths := by
    rw [hList]
    exact hInv.paths
  below := by
    rw [hList]
    exact hInv.below

/- Another edit has another file. -/
theorem path_ne (hInv : Inv s) {other : ObjectEdit} (hEdit : edit ∈ s.mObjectEditList)
    (hOther : other ∈ s.mObjectEditList) (hHandle : other.mHandle ≠ edit.mHandle) :
    other.mPath ≠ edit.mPath := by
  intro hPath
  have hSame := List.inj_on_of_nodup_map hInv.paths hOther hEdit hPath
  exact hHandle (congrArg ObjectEdit.mHandle hSame)

/- The file of an edit gets a content of the same size. -/
theorem setFile (hInv : Inv s) {content : List Byte}
    (hLength : content.length = (s.files edit.mPath).length) :
    Inv (s.setFile edit.mPath content) where
  handles := hInv.handles
  sizes := by
    intro other hOther
    rw [hInv.sizes other hOther]
    show _ = (Function.update s.files edit.mPath content other.mPath).length
    by_cases hPath : other.mPath = edit.mPath
    · rw [hPath, Function.update_self, hLength]
    · rw [Function.update_of_ne hPath]
  paths := hInv.paths
  below := hInv.below

/- The file of an edit gets another size, and the edit too. -/
theorem setFile_setSize (hInv : Inv s) (hEdit : edit ∈ s.mObjectEditList) {content : List Byte}
    {size : BitVec 64} (hLength : content.length = size.toNat) (hBelow : size.toNat < 2 ^ 63) :
    Inv ((s.setFile edit.mPath content).setSize edit.mHandle size) where
  handles := by
    show (List.map _ (resize _ _ _)).Nodup
    rw [resize_map_handle]
    exact hInv.handles
  sizes := by
    intro other hOther
    rcases mem_resize _ _ hInv.handles hOther with ⟨hMember, hHandle⟩ | ⟨old, hOld, hHandle, rfl⟩
    · have hPath := hInv.path_ne hEdit hMember hHandle
      rw [hInv.sizes other hMember]
      show _ = (Function.update s.files edit.mPath content other.mPath).length
      rw [Function.update_of_ne hPath]
    · have hSame :=
        List.inj_on_of_nodup_map hInv.handles hOld hEdit
          hHandle
      rw [hSame]
      show size.toNat = (Function.update s.files edit.mPath content edit.mPath).length
      rw [Function.update_self, hLength]
  paths := by
    show (List.map _ (resize _ _ _)).Nodup
    rw [resize_map_path]
    exact hInv.paths
  below := by
    intro other hOther
    rcases mem_resize _ _ hInv.handles hOther with ⟨hMember, -⟩ | ⟨old, hOld, hHandle, rfl⟩
    · exact hInv.below other hMember
    · exact hBelow

/-
  Bytes are written from a place inside of the file on, and the size of the edit grows when they end
  behind it.
-/
theorem written (hInv : Inv s) (hEdit : edit ∈ s.mObjectEditList) {start : Nat} {data : List Byte}
    {stop : BitVec 64} (hStart : start ≤ edit.mSize.toNat)
    (hStop : stop.toNat = start + data.length) (hEnd : data ≠ [] → start + data.length < 2 ^ 63) :
    Inv
      (if edit.mSize < stop then
        (s.setFile edit.mPath (writeAt (s.files edit.mPath) start data)).setSize edit.mHandle stop
      else s.setFile edit.mPath (writeAt (s.files edit.mPath) start data)) := by
  have hSize := hInv.sizes edit hEdit
  have hLast := writeAt_length (s.files edit.mPath) data start
  split
  · rename_i hLonger
    have hLess : edit.mSize.toNat < stop.toNat := hLonger
    have hSome : data ≠ [] := by
      intro hEmpty
      rw [hStop, hEmpty, List.length_nil] at hLess
      omega
    rw [if_neg hSome] at hLast
    apply hInv.setFile_setSize hEdit
    · rw [hStop, hLast]
      omega
    · rw [hStop]
      exact hEnd hSome
  · rename_i hShort
    have hLe : stop.toNat ≤ edit.mSize.toNat := Nat.not_lt.mp hShort
    apply hInv.setFile
    rw [hLast]
    split <;> omega

/- An edit of a new handle and a new file is added. -/
theorem addEditObject (hInv : Inv s) (hHandle : s.getEditObject edit.mHandle = none)
    (hPath : ∀ other ∈ s.mObjectEditList, other.mPath ≠ edit.mPath)
    (hSize : edit.mSize.toNat = (s.files edit.mPath).length) (hBelow : edit.mSize.toNat < 2 ^ 63) :
    Inv (s.addEditObject edit) where
  handles := by
    show ((s.mObjectEditList ++ [edit]).map _).Nodup
    rw [List.map_append, List.nodup_append]
    refine ⟨hInv.handles, List.nodup_singleton _, ?_⟩
    intro a hA b hB
    rcases List.mem_map.mp hA with ⟨other, hOther, rfl⟩
    rw [List.map_singleton, List.mem_singleton] at hB
    rw [hB]
    simpa using List.find?_eq_none.mp hHandle other hOther
  sizes := by
    intro other hOther
    rcases List.mem_append.mp hOther with hOld | hNew
    · exact hInv.sizes other hOld
    · rw [List.mem_singleton.mp hNew]
      exact hSize
  paths := by
    show ((s.mObjectEditList ++ [edit]).map _).Nodup
    rw [List.map_append, List.nodup_append]
    refine ⟨hInv.paths, List.nodup_singleton _, ?_⟩
    intro a hA b hB
    rcases List.mem_map.mp hA with ⟨other, hOther, rfl⟩
    rw [List.map_singleton, List.mem_singleton] at hB
    rw [hB]
    exact hPath other hOther
  below := by
    intro other hOther
    rcases List.mem_append.mp hOther with hOld | hNew
    · exact hInv.below other hOld
    · rw [List.mem_singleton.mp hNew]
      exact hBelow

/- An edit is removed. -/
theorem removeEditObject (hInv : Inv s) (handle : MtpObjectHandle) :
    Inv (s.removeEditObject handle) := by
  have hSub : (s.removeEditObject handle).mObjectEditList.Sublist s.mObjectEditList :=
    List.eraseP_sublist
  refine ⟨⟨?_, ?_⟩, ?_, ?_⟩
  · exact hInv.handles.sublist (hSub.map _)
  · intro other hOther
    exact hInv.sizes other (hSub.subset hOther)
  · exact hInv.paths.sublist (hSub.map _)
  · intro other hOther
    exact hInv.below other (hSub.subset hOther)

end Inv

end MtpServer

--
-- What a request does
--

namespace MtpServer

/- The requests that edit objects. -/
def Edits (a : Action) : Prop :=
  match a with
  | .request r =>
    match r.operation with
    | .sendPartialObject _ => True
    | .truncateObject _ => True
    | .beginEditObject _ _ => True
    | .endEditObject => True
    | _ => False
  | _ => False

/-
  What is relied on outside of the server: the database knows the size of the file of an object and
  gives no two objects one file, and no file of the system ends behind the largest `off_t`.
-/
def RequestPromised (s : Server) (r : Request) : Prop :=
  match r.operation with
  | .beginEditObject object opened =>
    ∀ file, object = .ok file → opened = true →
      file.fileLength.toNat = (s.files file.path).length ∧ file.fileLength.toNat < 2 ^ 63 ∧
        ∀ edit ∈ s.mObjectEditList, edit.mHandle ≠ r.getParameter 1 → edit.mPath ≠ file.path
  | .truncateObject truncated => truncated = true → r.getOffset.toNat < 2 ^ 63
  | .sendPartialObject transfer =>
    ∀ edit initialData, s.getEditObject (r.getParameter 1) = some edit → r.getOffset ≤ edit.mSize →
      transfer.packet = some initialData → transfer.received ≠ [] →
      r.getOffset.toNat + initialData.length + transfer.received.length < 2 ^ 63
  | _ => True

/- The transfer of a request lands in its range of the file. -/
def RequestLands (s : Server) (r : Request) : Prop :=
  match r.operation with
  | .sendPartialObject transfer =>
    ∀ edit initialData, s.getEditObject (r.getParameter 1) = some edit → r.getOffset ≤ edit.mSize →
      transfer.packet = some initialData →
      Lands r.getOffset.toNat (r.getParameter 4) edit.mSize.toNat transfer initialData
  | _ => True

def Promised (s : Server) : Action → Prop
| .request r => RequestPromised s r
| _ => True

def StepLands (s : Server) : Action → Prop
| .request r => RequestLands s r
| _ => True

/- The effect of a request on the files.  `ok` says that it went well. -/
structure Follows (s : Server) (r : Request) (ok : Prop) (t : Server) : Prop where
  written :
    ok → ∀ transfer, r.operation = .sendPartialObject transfer →
      ∃ edit, s.getEditObject (r.getParameter 1) = some edit ∧ t.mResponse.p1 = r.getParameter 4 ∧
        ∃ data : List Byte, data.length = (r.getParameter 4).toNat ∧
          t.files =
            Function.update s.files edit.mPath (writeAt (s.files edit.mPath) r.getOffset.toNat data)
  kept :
    ¬ ok → ∀ path,
      SameOutside r.getOffset.toNat (r.getParameter 4).toNat (s.files path) (t.files path)
  unchanged : ¬ ok → (∀ transfer, r.operation ≠ .sendPartialObject transfer) → t.files = s.files

variable {s t : Server} {r : Request} {ok : Prop}

namespace Follows

/- A request that fails at once. -/
theorem failed (hFailed : ¬ ok) (hFiles : t.files = s.files) : Follows s r ok t where
  written := fun hOk => absurd hOk hFailed
  kept := by
    intro _ path
    rw [hFiles]
    exact SameOutside.refl _ _ _
  unchanged := fun _ _ => hFiles

/- A request that sends nothing and leaves all files. -/
theorem of_files_eq (hOther : ∀ transfer, r.operation ≠ .sendPartialObject transfer)
    (hFiles : t.files = s.files) : Follows s r ok t where
  written := fun _ transfer hSame =>
    absurd hSame (hOther transfer)
  kept := by
    intro _ path
    rw [hFiles]
    exact SameOutside.refl _ _ _
  unchanged := fun _ _ => hFiles

/- A request that goes well and sends nothing. -/
theorem done (hOk : ok) (hOther : ∀ transfer, r.operation ≠ .sendPartialObject transfer) :
    Follows s r ok t where
  written := fun _ transfer hSame =>
    absurd hSame (hOther transfer)
  kept := fun hFailed => absurd hOk hFailed
  unchanged := fun hFailed => absurd hOk hFailed

theorem congr {u : Server} {ok' : Prop} (hFollows : Follows s r ok t) (hOk : ok' ↔ ok)
    (hFiles : u.files = t.files) (hAnswer : u.mResponse.p1 = t.mResponse.p1) :
    Follows s r ok' u where
  written := by
    intro hWell
    rw [hFiles, hAnswer]
    exact hFollows.written (hOk.mp hWell)
  kept := by
    intro hFailed
    rw [hFiles]
    exact hFollows.kept (mt hOk.mpr hFailed)
  unchanged := by
    intro hFailed
    rw [hFiles]
    exact hFollows.unchanged (mt hOk.mpr hFailed)

end Follows

theorem general_error_ne : MTP_RESPONSE_GENERAL_ERROR ≠ MTP_RESPONSE_OK := by
  decide

theorem invalid_handle_ne : MTP_RESPONSE_INVALID_OBJECT_HANDLE ≠ MTP_RESPONSE_OK := by
  decide

theorem invalid_parameter_ne : MTP_RESPONSE_INVALID_PARAMETER ≠ MTP_RESPONSE_OK := by
  decide

/- A file in which the range is replaced, and the others. -/
theorem sameOutside_setFile {offset length : Nat} {path content : List Byte}
    (hSame : SameOutside offset length (s.files path) content) (other : List Byte) :
    SameOutside offset length (s.files other) ((s.setFile path content).files other) := by
  show SameOutside _ _ _ (Function.update s.files path content other)
  by_cases hPath : other = path
  · rw [hPath, Function.update_self]
    exact hSame
  · rw [Function.update_of_ne hPath]
    exact SameOutside.refl _ _ _

/- The transfer of a partial object that lands well. -/
theorem receivePartial_follows {edit : ObjectEdit} {transfer : Transfer} {initialData : List Byte}
    (hInv : Inv s) (hOperation : r.operation = .sendPartialObject transfer)
    (hEdit : s.getEditObject (r.getParameter 1) = some edit) (hOffset : r.getOffset ≤ edit.mSize)
    (hLands : Lands r.getOffset.toNat (r.getParameter 4) edit.mSize.toNat transfer initialData)
    (hLimit :
      transfer.received ≠ [] →
        r.getOffset.toNat + initialData.length + transfer.received.length < 2 ^ 63) :
    let answer :=
      s.receivePartial edit r.getOffset (r.getParameter 4) transfer initialData
    Inv answer.2 ∧ Follows s r (answer.1 = MTP_RESPONSE_OK) answer.2 := by
  have hMember := (getEditObject_mem hEdit).1
  have hSize := hInv.sizes edit hMember
  have hBelow := hInv.below edit hMember
  have hStart : r.getOffset.toNat ≤ edit.mSize.toNat := hOffset
  rw [hSize] at hLands
  unfold Server.receivePartial
  dsimp only
  split
  · rename_i content hReceive
    have hSame := hLands.fails hReceive
    refine ⟨(hInv.setFile hSame.1).congr rfl rfl, ?_⟩
    refine ⟨?_, fun _ => sameOutside_setFile hSame, ?_⟩
    · intro hOk
      revert hOk
      dsimp only
      split <;> exact fun hOk => absurd hOk (by decide)
    · intro _ hOther
      exact absurd hOperation (hOther transfer)
  · rename_i content hReceive
    rcases hLands.succeeds hReceive with ⟨rfl, data, hData, hReceived, rfl⟩
    have hEnd : data ≠ [] → r.getOffset.toNat + data.length < 2 ^ 63 := by
      intro hSome
      have hSame := hReceived hSome
      rw [hSame] at hSome ⊢
      simpa using hLimit hSome
    have hStop :
        (r.getOffset + BitVec.ofNat 64 ([] : List Byte).length +
            (r.getParameter 4 - BitVec.ofNat 32 ([] : List Byte).length).setWidth 64).toNat =
          r.getOffset.toNat + data.length := by
      have hLess := (r.getParameter 4).isLt
      simp only [List.length_nil]
      rw [hData]
      bv_omega
    have hWritten :
        ∀ u : Server,
          u.files =
              Function.update s.files edit.mPath
                (writeAt (s.files edit.mPath) r.getOffset.toNat data) →
          u.mResponse.p1 = r.getParameter 4 - BitVec.ofNat 32 ([] : List Byte).length →
          Follows s r (MTP_RESPONSE_OK = MTP_RESPONSE_OK) u := by
      intro u hFiles hAnswer
      refine ⟨fun _ transfer _ => ?_, ?_, ?_⟩
      · refine ⟨edit, hEdit, ?_, data, hData, hFiles⟩
        rw [hAnswer]
        simp
      · exact fun hNot => absurd rfl hNot
      · exact fun hNot => absurd rfl hNot
    have hNext := hInv.written hMember hStart hStop hEnd
    split
    · rename_i hLonger
      rw [if_pos hLonger] at hNext
      exact ⟨hNext.congr rfl rfl, hWritten _ rfl rfl⟩
    · rename_i hShort
      rw [if_neg hShort] at hNext
      exact ⟨hNext.congr rfl rfl, hWritten _ rfl rfl⟩

theorem doSendPartialObject_follows {transfer : Transfer} (hInv : Inv s)
    (hOperation : r.operation = .sendPartialObject transfer) (hPromised : RequestPromised s r)
    (hLands : RequestLands s r) :
    Inv (s.doSendPartialObject r transfer).2 ∧
      Follows s r ((s.doSendPartialObject r transfer).1 = MTP_RESPONSE_OK)
        (s.doSendPartialObject r transfer).2 := by
  unfold RequestPromised at hPromised
  unfold RequestLands at hLands
  rw [hOperation] at hPromised hLands
  unfold Server.doSendPartialObject
  split
  · exact ⟨hInv, Follows.failed invalid_handle_ne rfl⟩
  split
  · exact ⟨hInv, Follows.failed invalid_parameter_ne rfl⟩
  split
  · exact ⟨hInv, Follows.failed general_error_ne rfl⟩
  rename_i edit hEdit
  split
  · exact ⟨hInv, Follows.failed general_error_ne rfl⟩
  rename_i hInside
  have hOffset : r.getOffset ≤ edit.mSize := BitVec.not_lt.mp hInside
  split
  · exact ⟨hInv, Follows.failed general_error_ne rfl⟩
  · rename_i initialData hPacket
    exact receivePartial_follows hInv hOperation hEdit hOffset
      (hLands edit initialData hEdit hOffset hPacket)
      (hPromised edit initialData hEdit hOffset hPacket)

theorem doTruncateObject_follows {truncated : Bool} (hInv : Inv s)
    (hOperation : r.operation = .truncateObject truncated) (hPromised : RequestPromised s r) :
    Inv (s.doTruncateObject r truncated).2 ∧
      Follows s r ((s.doTruncateObject r truncated).1 = MTP_RESPONSE_OK)
        (s.doTruncateObject r truncated).2 := by
  unfold RequestPromised at hPromised
  rw [hOperation] at hPromised
  unfold Server.doTruncateObject
  split
  · exact ⟨hInv, Follows.failed invalid_parameter_ne rfl⟩
  split
  · exact ⟨hInv, Follows.failed general_error_ne rfl⟩
  rename_i edit hEdit
  have hMember := (getEditObject_mem hEdit).1
  split
  · rename_i hTruncated
    refine ⟨?_, Follows.done rfl ?_⟩
    · apply hInv.setFile_setSize hMember
      · exact List.takeD_length _ _ _
      · exact hPromised hTruncated
    · intro transfer hSame
      rw [hOperation] at hSame
      cases hSame
  · exact ⟨hInv, Follows.failed general_error_ne rfl⟩

theorem doBeginEditObject_follows {object : Except MtpResponseCode ObjectFile} {opened : Bool}
    (hInv : Inv s) (hOperation : r.operation = .beginEditObject object opened)
    (hPromised : RequestPromised s r) :
    Inv (s.doBeginEditObject r object opened).2 ∧
      (s.doBeginEditObject r object opened).2.files = s.files := by
  unfold RequestPromised at hPromised
  rw [hOperation] at hPromised
  unfold Server.doBeginEditObject
  split
  · exact ⟨hInv, rfl⟩
  split
  · exact ⟨hInv, rfl⟩
  rename_i hNew
  have hNone : s.getEditObject (r.getParameter 1) = none := by
    simpa using hNew
  split
  · exact ⟨hInv, rfl⟩
  rename_i file
  split
  · rename_i hOpened
    rcases hPromised file rfl hOpened with ⟨hLength, hBelow, hPaths⟩
    refine ⟨?_, rfl⟩
    apply hInv.addEditObject
    · exact hNone
    · intro other hOther
      apply hPaths other hOther
      have hNot := List.find?_eq_none.mp hNone other hOther
      simpa using hNot
    · exact hLength
    · exact hBelow
  · exact ⟨hInv, rfl⟩

theorem doEndEditObject_keeps (hInv : Inv s) :
    Inv (s.doEndEditObject r).2 ∧ (s.doEndEditObject r).2.files = s.files := by
  unfold Server.doEndEditObject
  split
  · exact ⟨hInv, rfl⟩
  split
  · exact ⟨hInv, rfl⟩
  · rename_i edit hEdit
    refine ⟨?_, rfl⟩
    have hCommitted : Inv (s.commitEdit edit) := hInv.congr rfl rfl
    exact hCommitted.removeEditObject _

end MtpServer

--
-- Runs
--

namespace MtpServer

variable {s t : Server} {r : Request}

/- An editing request that is performed. -/
theorem perform_follows {response : MtpResponseCode} (hEdits : Edits (.request r)) (hInv : Inv s)
    (hPromised : RequestPromised s r) (hLands : RequestLands s r)
    (hPerform : s.perform r = some (response, t)) :
    Inv t ∧ Follows s r (response = MTP_RESPONSE_OK) t := by
  unfold Server.perform at hPerform
  unfold Edits at hEdits
  cases hOperation : r.operation with
  | sendPartialObject transfer =>
    rw [hOperation] at hPerform
    have hBoth := doSendPartialObject_follows hInv hOperation hPromised hLands
    rw [Option.some.inj hPerform] at hBoth
    exact hBoth
  | truncateObject truncated =>
    rw [hOperation] at hPerform
    have hBoth := doTruncateObject_follows hInv hOperation hPromised
    rw [Option.some.inj hPerform] at hBoth
    exact hBoth
  | beginEditObject object opened =>
    rw [hOperation] at hPerform
    have hBoth := doBeginEditObject_follows hInv hOperation hPromised
    rw [Option.some.inj hPerform] at hBoth
    refine ⟨hBoth.1, Follows.of_files_eq ?_ hBoth.2⟩
    simp [hOperation]
  | endEditObject =>
    rw [hOperation] at hPerform
    have hBoth := doEndEditObject_keeps (r := r) hInv
    rw [Option.some.inj hPerform] at hBoth
    refine ⟨hBoth.1, Follows.of_files_eq ?_ hBoth.2⟩
    simp [hOperation]
  | _ => simp only [hOperation] at hEdits

/- The answer to an editing request: it went well when a response is sent and says so. -/
theorem request_follows {sent : Bool} (hEdits : Edits (.request r)) (hInv : Inv s)
    (hPromised : RequestPromised s r) (hLands : RequestLands s r)
    (hRequest : s.handleRequest r = some (sent, t)) :
    Inv t ∧ Follows s r (sent = true ∧ t.mResponse.code = MTP_RESPONSE_OK) t := by
  have hExpected : Inv (s.expectSendObject r.operation) := hInv.congr rfl rfl
  unfold Server.handleRequest at hRequest
  dsimp only at hRequest
  split at hRequest
  · cases hRequest
    refine ⟨hExpected, Follows.failed ?_ rfl⟩
    rintro ⟨hSent, -⟩
    cases hSent
  split at hRequest
  · cases hRequest
  rename_i response u hPerform
  have hBoth : Inv u ∧ Follows (s.expectSendObject r.operation) r (response = MTP_RESPONSE_OK) u :=
    perform_follows hEdits hExpected hPromised hLands hPerform
  have hFollows : Follows s r (response = MTP_RESPONSE_OK) u :=
    ⟨hBoth.2.written, hBoth.2.kept, hBoth.2.unchanged⟩
  split at hRequest
  · rename_i hCancelled
    cases hRequest
    refine ⟨hBoth.1, hFollows.congr ?_ rfl rfl⟩
    rw [hCancelled]
    refine iff_of_false ?_ (by decide)
    rintro ⟨hSent, -⟩
    cases hSent
  · cases hRequest
    refine ⟨hBoth.1.congr rfl rfl, hFollows.congr ?_ rfl rfl⟩
    exact and_iff_right rfl

/-
  Editing requests on a server that has no edit open. When what the server relies on is given and
  every transfer lands where it was announced, each edit has the size of its file after every
  request, and every request does to the files what it answers.
-/
theorem edits_follow {actions : List Action} (hClosed : s.mObjectEditList = [])
    (hEdits : ∀ a ∈ actions, Edits a)
    (hPromised : ∀ done a u, done ++ [a] <+: actions → Run.exec step s done = some u → Promised u a)
    (hLands : ∀ done a u, done ++ [a] <+: actions → Run.exec step s done = some u → StepLands u a) :
    (∀ done u, done <+: actions → Run.exec step s done = some u → Tracked u) ∧
      ∀ done r u sent v, done ++ [.request r] <+: actions → Run.exec step s done = some u →
        u.handleRequest r = some (sent, v) →
        Follows u r (sent = true ∧ v.mResponse.code = MTP_RESPONSE_OK) v := by
  have hStart : Inv s := by
    refine ⟨⟨?_, ?_⟩, ?_, ?_⟩ <;> simp [hClosed]
  have hInv : ∀ done u, done <+: actions → Run.exec step s done = some u → Inv u := by
    intro done u hPrefix hExec
    refine Run.exec_prefix_invariant ?_ hStart hPrefix hExec
    intro done a u v hNext hDone hBefore hStep
    have hEdit : Edits a := hEdits a (hNext.subset (by simp))
    cases a with
    | request r =>
      rcases Option.map_eq_some_iff.mp hStep with ⟨⟨sent, w⟩, hRequest, rfl⟩
      exact
        (request_follows hEdit hBefore (hPromised done _ u hNext hDone)
          (hLands done _ u hNext hDone) hRequest).1
    | addStorage storage => exact hEdit.elim
    | removeStorage id => exact hEdit.elim
  constructor
  · intro done u hPrefix hExec
    exact (hInv done u hPrefix hExec).toTracked
  · intro done r u sent v hPrefix hExec hRequest
    have hEdit : Edits (.request r) := hEdits _ (hPrefix.subset (by simp))
    have hEarlier : done <+: actions := (List.prefix_append done [_]).trans hPrefix
    exact
      (request_follows hEdit (hInv done u hEarlier hExec) (hPromised done _ u hPrefix hExec)
        (hLands done _ u hPrefix hExec) hRequest).2

/- A server with a storage and empty files. -/
def editor : Server :=
  { start (fun _ => []) with
    mStorages :=
      [{ mStorageID := 0x10001
         mFilePath := [0x2F]
         mMaxFileSize := 0 }] }

/- An edit of an empty file is opened. -/
def beginEdit : Action :=
  .request
    { containertype := MTP_CONTAINER_TYPE_COMMAND
      parameters := [7]
      operation :=
        .beginEditObject
          (.ok
            { path := [0x2F, 0x61]
              fileLength := 0
              format := 0x3000 })
          true }

/- Three bytes are written at its start. -/
def sendThree (transfer : Transfer) : Action :=
  .request
    { containertype := MTP_CONTAINER_TYPE_COMMAND
      parameters := [7, 0, 0, 3]
      operation := .sendPartialObject transfer }

theorem beginEdit_promised : Promised editor beginEdit := by
  intro file hFile _
  cases hFile
  exact ⟨rfl, by decide, fun _ hNone => by cases hNone⟩

theorem editor_edits (transfer : Transfer) : ∀ a ∈ [beginEdit, sendThree transfer], Edits a := by
  intro a hMember
  rcases List.mem_pair.mp hMember with rfl | rfl <;>
    exact trivial

/- No step is left. -/
theorem forall_no_steps {P : Server → Action → Prop} {s : Server} :
    ∀ done a u, done ++ [a] <+: [] → Run.exec step s done = some u → P u a := by
  intro done a u hPrefix
  simp at hPrefix

/- What holds of the two steps holds of all. -/
theorem editor_steps {P : Server → Action → Prop} {transfer : Transfer}
    (hBegin : P editor beginEdit)
    (hSend : ∀ u, step editor beginEdit = some u → P u (sendThree transfer)) :
    ∀ done a u, done ++ [a] <+: [beginEdit, sendThree transfer] →
      Run.exec step editor done = some u → P u a := by
  refine Run.forall_steps_cons.mpr ⟨hBegin, ?_⟩
  intro u hStep
  refine Run.forall_steps_cons.mpr ⟨hSend u hStep, ?_⟩
  intro _ _
  exact forall_no_steps

/- The driver writes them. -/
def late : Transfer where
  packet := some []
  written := none
  received := [1, 2, 3]
  completed := true
  cancelled := false

theorem edits_follow_late :
    (∀ done u, done <+: [beginEdit, sendThree late] → Run.exec step editor done = some u →
        Tracked u) ∧
      ∀ done r u sent v, done ++ [.request r] <+: [beginEdit, sendThree late] →
        Run.exec step editor done = some u → u.handleRequest r = some (sent, v) →
        Follows u r (sent = true ∧ v.mResponse.code = MTP_RESPONSE_OK) v := by
  refine edits_follow rfl (editor_edits late) ?_ ?_
  · refine editor_steps beginEdit_promised ?_
    intro u hStep
    cases hStep
    intro edit initialData hEdit _ hPacket _
    cases hPacket
    decide
  · refine editor_steps trivial ?_
    intro u hStep
    cases hStep
    intro edit initialData hEdit _ hPacket
    cases hPacket
    intro count _
    rw [if_neg (by decide)]
    exact ⟨rfl, fun _ => rfl⟩

/- They come with the first packet. -/
def early : Transfer where
  packet := some [1, 2, 3]
  written := some 3
  received := []
  completed := false
  cancelled := false

/- The bytes are written, and none is reported. -/
theorem early_follows :
    ¬ ∀ s actions, s.mObjectEditList = [] → (∀ a ∈ actions, Edits a) →
      (∀ done a u, done ++ [a] <+: actions → Run.exec step s done = some u → Promised u a) →
      ∀ done r u sent v, done ++ [.request r] <+: actions → Run.exec step s done = some u →
        u.handleRequest r = some (sent, v) →
        Follows u r (sent = true ∧ v.mResponse.code = MTP_RESPONSE_OK) v := by
  intro hAll
  have hPromised :
      ∀ done a u, done ++ [a] <+: [beginEdit, sendThree early] →
        Run.exec step editor done = some u → Promised u a := by
    refine editor_steps beginEdit_promised ?_
    intro u _ edit initialData _ _ hPacket hNone
    exact absurd rfl hNone
  have hFollows :=
    hAll editor [beginEdit, sendThree early] rfl (editor_edits early) hPromised [beginEdit] _ _ _ _
      (List.prefix_refl _) rfl rfl
  rcases hFollows.written ⟨rfl, rfl⟩ early rfl with ⟨edit, -, hAnswer, -⟩
  revert hAnswer
  decide

end MtpServer

end FrameworksAv
