import FrameworksAv.Base.Run

/-
  A ring of acquired buffers that can be pinned (`RingBufferConsumer`).

  Besides its fields the ring keeps the pinned items that are alive, and the buffers that were
  given to `releaseBufferLocked`, each with the list it was taken from. What the calls into the
  queue of the buffers answer is given to the functions; the fences themselves are left out, and so
  is `pinnedFrames`, which only an assertion reads.

  Main declarations:
    * `BufferItem`, `RingBufferItem`, `Consumer`
    * `releaseOldestBufferLocked`, `onFrameAvailable`
    * `Good`, `Right`, `Keeps`
    * `right_iff_keeps`
-/

--
-- Items
--

namespace FrameworksAv

namespace RingBufferConsumer

structure Rect where
  left : Int
  top : Int
  right : Int
  bottom : Int
deriving DecidableEq, Repr

structure BufferItem where
  mCrop : Rect
  mTransform : Nat
  mScalingMode : Nat
  mTimestamp : Int
  mFrameNumber : Nat
  mBuf : Nat
  mGraphicBuffer : Nat
deriving DecidableEq, Repr

structure RingBufferItem where
  item : BufferItem
  mPinCount : Int
deriving DecidableEq, Repr

/- What a comparator sees of an item. -/
structure BufferInfo where
  mCrop : Rect
  mTransform : Nat
  mScalingMode : Nat
  mTimestamp : Int
  mFrameNumber : Nat
  mPinned : Bool

def RingBufferItem.pinned (x : RingBufferItem) : Bool := 0 < x.mPinCount

def RingBufferItem.info (x : RingBufferItem) : BufferInfo where
  mCrop := x.item.mCrop
  mTransform := x.item.mTransform
  mScalingMode := x.item.mScalingMode
  mTimestamp := x.item.mTimestamp
  mFrameNumber := x.item.mFrameNumber
  mPinned := x.pinned

/- `status_t`; the other values are `other`. -/
inductive Status
| OK
| NOT_ENOUGH_DATA
| NO_BUFFER_AVAILABLE
| other (code : Int)
deriving DecidableEq, Repr

/- What `addReleaseFenceLocked` and `releaseBufferLocked` answer. -/
structure Reply where
  addReleaseFence : Status
  releaseBuffer : Status

def Reply.isOK (reply : Reply) : Prop := reply.addReleaseFence = .OK ∧ reply.releaseBuffer = .OK

structure Consumer where
  mBufferItemList : List RingBufferItem
  mBufferCount : Nat
  mLatestTimestamp : Int
  live : List BufferItem
  releases : List (List RingBufferItem × RingBufferItem)

/- A new consumer. -/
def start (bufferCount : Nat) : Consumer := ⟨[], bufferCount, 0, [], []⟩

--
-- Releasing
--

/- The loop over the items from the number `i` on; `accIt` is the item so far with its number. -/
def oldest : Nat → Option (Nat × RingBufferItem) → List RingBufferItem →
    Option (Nat × RingBufferItem)
| _, accIt, [] => accIt
| i, accIt, find :: rest =>
  if find.pinned then oldest (i + 1) accIt rest
  else if accIt.all fun acc => find.item.mTimestamp < acc.2.item.mTimestamp then
    oldest (i + 1) (some (i, find)) rest
  else oldest (i + 1) accIt rest

/- The status, the items that are left, and the item that `releaseBufferLocked` was called for. -/
structure Released where
  status : Status
  left : List RingBufferItem
  released : Option RingBufferItem

def releaseOldestBufferLocked (mBufferItemList : List RingBufferItem) (reply : Reply) : Released :=
  if mBufferItemList.isEmpty then ⟨.NOT_ENOUGH_DATA, mBufferItemList, none⟩
  else
    match oldest 0 none mBufferItemList with
    | none => ⟨.NO_BUFFER_AVAILABLE, mBufferItemList, none⟩
    | some (i, item) =>
      if reply.addReleaseFence ≠ .OK then ⟨reply.addReleaseFence, mBufferItemList, none⟩
      else if reply.releaseBuffer ≠ .OK then ⟨reply.releaseBuffer, mBufferItemList, some item⟩
      else ⟨.OK, mBufferItemList.eraseIdx i, some item⟩

def Consumer.apply (s : Consumer) (r : Released) : Consumer :=
  { s with
    mBufferItemList := r.left
    releases := r.released.toList.map (fun x => (s.mBufferItemList, x)) ++ s.releases }

def makeRoom (s : Consumer) (reply : Reply) : Status × Consumer :=
  if s.mBufferCount ≤ s.mBufferItemList.length then
    let r := releaseOldestBufferLocked s.mBufferItemList reply
    (r.status, s.apply r)
  else (.OK, s)

/- No item where `acquireBufferLocked` fails; the new item is then taken out again. -/
def onFrameAvailable (s : Consumer) (reply : Reply) (acquired : Option BufferItem) : Consumer :=
  let r := makeRoom s reply
  if r.1 ≠ .OK then r.2
  else
    match acquired with
    | none => r.2
    | some item =>
      { r.2 with
        mBufferItemList := r.2.mBufferItemList ++ [⟨item, 0⟩]
        mLatestTimestamp := item.mTimestamp }

/- The `i`th release is answered by `replies i`. -/
def clearLoop (replies : Nat → Reply) : Nat → Nat → Consumer → Option (Status × Consumer)
| 0, _, _ => none
| fuel + 1, i, s =>
  let r := releaseOldestBufferLocked s.mBufferItemList (replies i)
  match r.status with
  | .OK => clearLoop replies fuel (i + 1) (s.apply r)
  | .NO_BUFFER_AVAILABLE => some (.OK, s.apply r)
  | .NOT_ENOUGH_DATA => some (.OK, s.apply r)
  | .other code => some (.other code, s.apply r)

/- No result where the loop goes on for more turns than there are items. -/
def clear (s : Consumer) (replies : Nat → Reply) : Option (Status × Consumer) :=
  if s.mBufferItemList.isEmpty then some (.OK, s)
  else clearLoop replies (s.mBufferItemList.length + 1) 0 s

--
-- Pinning
--

abbrev Comparator := Option BufferInfo → BufferInfo → Int

/- `acc` is the item of `accPtr`. -/
def select (compare : Comparator) : Option RingBufferItem → List RingBufferItem →
    Option RingBufferItem
| acc, [] => acc
| acc, item :: rest =>
  let ret := compare (acc.map RingBufferItem.info) item.info
  if ret = 0 then select compare none rest
  else if 0 < ret then select compare (some item) rest
  else select compare acc rest

/- The count of the first item with the graphic buffer changes. -/
def adjust (mGraphicBuffer : Nat) (change : Int) : List RingBufferItem → List RingBufferItem
| [] => []
| find :: rest =>
  if mGraphicBuffer = find.item.mGraphicBuffer then
    { find with mPinCount := find.mPinCount + change } :: rest
  else find :: adjust mGraphicBuffer change rest

def pinBufferLocked (s : Consumer) (item : BufferItem) : Consumer :=
  { s with mBufferItemList := adjust item.mGraphicBuffer 1 s.mBufferItemList }

def pinSelectedBuffer (s : Consumer) (compare : Comparator) : Consumer :=
  match select compare none s.mBufferItemList with
  | none => s
  | some x => pinBufferLocked { s with live := x.item :: s.live } x.item

/- `addReleaseFence` is called only where the item is found. -/
def unpinBuffer (s : Consumer) (item : BufferItem) (addReleaseFence : Status) : Consumer :=
  if addReleaseFence ≠ .OK then s
  else { s with mBufferItemList := adjust item.mGraphicBuffer (-1) s.mBufferItemList }

--
-- Runs
--

inductive Action
| onFrameAvailable (reply : Reply) (acquired : Option BufferItem)
| pinSelectedBuffer (compare : Comparator)
| unpin (item : BufferItem) (addReleaseFence : Status)
| clear (replies : Nat → Reply)

/- The queue does not give a buffer that is still acquired; only a pinned item is unpinned. -/
def step (s : Consumer) : Action → Option Consumer
| .onFrameAvailable reply acquired =>
  if acquired.all fun item => (makeRoom s reply).2.mBufferItemList.all fun x =>
      x.item.mGraphicBuffer ≠ item.mGraphicBuffer then
    some (onFrameAvailable s reply acquired)
  else none
| .pinSelectedBuffer compare => some (pinSelectedBuffer s compare)
| .unpin item addReleaseFence =>
  if item ∈ s.live then
    some { unpinBuffer s item addReleaseFence with live := s.live.erase item }
  else none
| .clear replies => (clear s replies).map Prod.snd

/- The item is not pinned, and none of those is older. -/
def Oldest (l : List RingBufferItem) (x : RingBufferItem) : Prop :=
  x ∈ l ∧ x.pinned = false ∧
    ∀ y ∈ l, y.pinned = false → x.item.mTimestamp ≤ y.item.mTimestamp

structure Good (s : Consumer) : Prop where
  size : s.mBufferItemList.length ≤ s.mBufferCount
  releases : ∀ l x, (l, x) ∈ s.releases → Oldest l x
  counts : ∀ x ∈ s.mBufferItemList,
    x.mPinCount = s.live.countP (·.mGraphicBuffer = x.item.mGraphicBuffer)
  finds : ∀ p ∈ s.live, ∃ x ∈ s.mBufferItemList, x.item.mGraphicBuffer = p.mGraphicBuffer

/- The queue takes all the items that are not pinned. -/
def Takes (s : Consumer) (replies : Nat → Reply) : Prop :=
  ∀ k < s.mBufferItemList.countP (fun x => !x.pinned), (replies k).isOK

/- A call leaves a good ring; `clear` returns, and leaves the pinned items if the others go. -/
def Right (s : Consumer) (a : Action) : Prop :=
  (∀ replies, a = .clear replies → ∃ status t, clear s replies = some (status, t) ∧
      (Takes s replies → t.mBufferItemList = s.mBufferItemList.filter RingBufferItem.pinned)) ∧
    ∀ t, step s a = some t → Good t

/- The queue takes the fence of an item that is unpinned. -/
def Keeps (s : Consumer) : Action → Prop
| .unpin item addReleaseFence => item ∈ s.live → addReleaseFence = .OK
| _ => True

--
-- The oldest item
--

section Oldest

/- What the loop knows of the items that it has seen. -/
def Found (seen : List RingBufferItem) : Option (Nat × RingBufferItem) → Prop
| none => ∀ y ∈ seen, y.pinned = true
| some (i, x) => seen[i]? = some x ∧ Oldest seen x

theorem Found.pinned {seen : List RingBufferItem} {accIt : Option (Nat × RingBufferItem)}
    {find : RingBufferItem} (hFound : Found seen accIt) (hPinned : find.pinned = true) :
    Found (seen ++ [find]) accIt := by
  cases accIt with
  | none =>
    intro y hMem
    rcases List.mem_append.mp hMem with hOld | hNew
    · exact hFound y hOld
    · rwa [List.mem_singleton.mp hNew]
  | some acc =>
    rcases hFound with ⟨hAt, hMem, hFree, hLeast⟩
    refine ⟨List.getElem?_append_left (List.getElem?_eq_some_iff.mp hAt).1 |>.trans hAt,
      List.mem_append_left _ hMem, hFree, fun y hMember hNot => ?_⟩
    rcases List.mem_append.mp hMember with hOld | hNew
    · exact hLeast y hOld hNot
    · rw [List.mem_singleton.mp hNew, hPinned] at hNot
      cases hNot

theorem Found.free {seen : List RingBufferItem} {accIt : Option (Nat × RingBufferItem)}
    {find : RingBufferItem} (hFound : Found seen accIt) (hFree : find.pinned = false) :
    Found (seen ++ [find])
      (if accIt.all fun acc => find.item.mTimestamp < acc.2.item.mTimestamp then
        some (seen.length, find)
      else accIt) := by
  cases accIt with
  | none =>
    refine ⟨List.getElem?_concat_length, List.mem_append_right _ (List.mem_singleton.mpr rfl),
      hFree, fun y hMember hNot => ?_⟩
    rcases List.mem_append.mp hMember with hOld | hNew
    · rw [hFound y hOld] at hNot
      cases hNot
    · exact Int.le_of_eq (by rw [List.mem_singleton.mp hNew])
  | some acc =>
    rcases hFound with ⟨hAt, hMem, hAccFree, hLeast⟩
    by_cases hOlder : find.item.mTimestamp < acc.2.item.mTimestamp
    · rw [if_pos (by simpa using hOlder)]
      refine ⟨List.getElem?_concat_length, List.mem_append_right _ (List.mem_singleton.mpr rfl),
        hFree, fun y hMember hNot => ?_⟩
      rcases List.mem_append.mp hMember with hOld | hNew
      · have hLe := hLeast y hOld hNot
        omega
      · exact Int.le_of_eq (by rw [List.mem_singleton.mp hNew])
    · rw [if_neg (by simpa using hOlder)]
      refine ⟨List.getElem?_append_left (List.getElem?_eq_some_iff.mp hAt).1 |>.trans hAt,
        List.mem_append_left _ hMem, hAccFree, fun y hMember hNot => ?_⟩
      rcases List.mem_append.mp hMember with hOld | hNew
      · exact hLeast y hOld hNot
      · rw [List.mem_singleton.mp hNew]
        omega

theorem oldest_found {seen : List RingBufferItem} {accIt : Option (Nat × RingBufferItem)}
    (l : List RingBufferItem) (hFound : Found seen accIt) :
    Found (seen ++ l) (oldest seen.length accIt l) := by
  induction l generalizing seen accIt with
  | nil => rwa [List.append_nil]
  | cons find rest ih =>
    rw [oldest, List.append_cons]
    have hLength : (seen ++ [find]).length = seen.length + 1 := List.length_append
    rw [← hLength]
    cases hPinned : find.pinned with
    | true =>
      rw [if_pos rfl]
      exact ih (hFound.pinned hPinned)
    | false =>
      rw [if_neg (by simp)]
      have hNext := hFound.free hPinned
      split
      · rename_i hOlder
        rw [if_pos hOlder] at hNext
        exact ih hNext
      · rename_i hOlder
        rw [if_neg hOlder] at hNext
        exact ih hNext

/- What a call of `releaseOldestBufferLocked` can do. -/
inductive Releases (l : List RingBufferItem) (reply : Reply) : Released → Prop
| nothing (status : Status) :
  (∀ x ∈ l, x.pinned = true) → status ≠ .OK → Releases l reply ⟨status, l, none⟩
| failed (status : Status) (x : RingBufferItem) (released : Option RingBufferItem) :
  Oldest l x → (∀ y, released = some y → y = x) → ¬reply.isOK → status ≠ .OK →
    Releases l reply ⟨status, l, released⟩
| erased (i : Nat) (x : RingBufferItem) :
  l[i]? = some x → Oldest l x → reply.isOK → Releases l reply ⟨.OK, l.eraseIdx i, some x⟩

theorem releaseOldestBufferLocked_releases (l : List RingBufferItem) (reply : Reply) :
    Releases l reply (releaseOldestBufferLocked l reply) := by
  unfold releaseOldestBufferLocked
  split
  · rename_i hEmpty
    rw [List.isEmpty_iff] at hEmpty
    subst hEmpty
    exact .nothing _ (by simp) (by decide)
  · have hFound := @oldest_found [] none l fun y hMem => absurd hMem List.not_mem_nil
    rw [List.nil_append, List.length_nil] at hFound
    split
    · rename_i hNone
      rw [hNone] at hFound
      exact .nothing _ hFound (by decide)
    · rename_i i x hSome
      rw [hSome] at hFound
      split
      · rename_i hFence
        exact .failed _ x none hFound.2 nofun (fun hOk => hFence hOk.1) hFence
      · rename_i hFence
        split
        · rename_i hRelease
          refine .failed _ x (some x) hFound.2 ?_ (fun hOk => hRelease hOk.2) hRelease
          rintro y ⟨⟩
          rfl
        · rename_i hRelease
          exact .erased i x hFound.1 hFound.2 ⟨not_not.mp hFence, not_not.mp hRelease⟩

end Oldest

--
-- Releasing
--

section Releasing

variable {s : Consumer}

/- A good ring whose graphic buffers are all different. -/
structure Sound (s : Consumer) : Prop extends Good s where
  distinct : (s.mBufferItemList.map (·.item.mGraphicBuffer)).Nodup

theorem eraseIdx_split {l : List RingBufferItem} {i : Nat} {x : RingBufferItem}
    (hAt : l[i]? = some x) :
    ∃ front back, l = front ++ x :: back ∧ l.eraseIdx i = front ++ back := by
  rcases List.getElem?_eq_some_iff.mp hAt with ⟨hi, hEq⟩
  refine ⟨l.take i, l.drop (i + 1), ?_, List.eraseIdx_eq_take_drop_succ _ _⟩
  rw [← hEq, List.getElem_cons_drop, List.take_append_drop]

/- A release keeps a sound ring sound. -/
theorem Sound.apply (hSound : Sound s) {reply : Reply} {r : Released}
    (hReleases : Releases s.mBufferItemList reply r) : Sound (s.apply r) := by
  cases hReleases with
  | nothing status _ _ => exact hSound
  | failed status x released hOldest hReleased _ _ =>
    refine ⟨⟨hSound.size, ?_, hSound.counts, hSound.finds⟩, hSound.distinct⟩
    intro l y hMem
    rcases List.mem_append.mp hMem with hNew | hOld
    · rcases List.mem_map.mp hNew with ⟨z, hz, hEq⟩
      cases hEq
      rw [hReleased y (Option.mem_toList.mp hz)]
      exact hOldest
    · exact hSound.releases l y hOld
  | erased i x hAt hOldest _ =>
    rcases eraseIdx_split hAt with ⟨front, back, hList, hErased⟩
    have hSublist : (s.mBufferItemList.eraseIdx i).Sublist s.mBufferItemList :=
      List.eraseIdx_sublist _ _
    refine ⟨⟨Nat.le_trans hSublist.length_le hSound.size, ?_, ?_, ?_⟩, ?_⟩
    · intro l y hMem
      rcases List.mem_cons.mp hMem with hNew | hOld
      · cases hNew
        exact hOldest
      · exact hSound.releases l y hOld
    · exact fun y hMem => hSound.counts y (hSublist.subset hMem)
    · intro p hp
      rcases hSound.finds p hp with ⟨y, hMem, hSame⟩
      refine ⟨y, ?_, hSame⟩
      -- The item of `p` is pinned, so it is not the one that was erased.
      have hPositive : 0 < s.live.countP (·.mGraphicBuffer = y.item.mGraphicBuffer) :=
        List.countP_pos_iff.mpr ⟨p, hp, by simp [hSame]⟩
      have hCount := hSound.counts y hMem
      have hNe : y ≠ x := by
        rintro rfl
        have hFree := hOldest.2.1
        simp only [RingBufferItem.pinned, decide_eq_false_iff_not] at hFree
        omega
      show y ∈ s.mBufferItemList.eraseIdx i
      rw [hErased]
      rw [hList] at hMem
      simpa [hNe] using hMem
    · exact hSound.distinct.sublist (hSublist.map _)

theorem makeRoom_sound (hSound : Sound s) (reply : Reply) :
    Sound (makeRoom s reply).2 ∧ ((makeRoom s reply).1 = .OK →
      (makeRoom s reply).2.mBufferItemList.length < (makeRoom s reply).2.mBufferCount) := by
  unfold makeRoom
  split
  · have hReleases := releaseOldestBufferLocked_releases s.mBufferItemList reply
    refine ⟨hSound.apply hReleases, ?_⟩
    intro hOk
    have hSize := hSound.size
    dsimp only at hOk ⊢
    generalize releaseOldestBufferLocked s.mBufferItemList reply = r at hReleases hOk
    cases hReleases with
    | nothing status _ hStatus => exact absurd hOk hStatus
    | failed status x released _ _ _ hStatus => exact absurd hOk hStatus
    | erased i x hAt _ _ =>
      have hi := (List.getElem?_eq_some_iff.mp hAt).1
      show (s.mBufferItemList.eraseIdx i).length < s.mBufferCount
      rw [List.length_eraseIdx_of_lt hi]
      omega
  · rename_i hRoom
    exact ⟨hSound, fun _ => Nat.lt_of_not_le hRoom⟩

theorem onFrameAvailable_sound (hSound : Sound s) {reply : Reply} {acquired : Option BufferItem}
    (hFresh : ∀ item, acquired = some item → ∀ x ∈ (makeRoom s reply).2.mBufferItemList,
      x.item.mGraphicBuffer ≠ item.mGraphicBuffer) : Sound (onFrameAvailable s reply acquired) := by
  rcases makeRoom_sound hSound reply with ⟨hRoom, hSmaller⟩
  unfold onFrameAvailable
  dsimp only
  split
  · exact hRoom
  · rename_i hOk
    cases acquired with
    | none => exact hRoom
    | some item =>
      have hNew := hFresh item rfl
      refine ⟨⟨?_, hRoom.releases, ?_, ?_⟩, ?_⟩
      · rw [List.length_append]
        exact hSmaller (not_not.mp hOk)
      · intro x hMem
        rcases List.mem_append.mp hMem with hOld | hLast
        · exact hRoom.counts x hOld
        · rw [List.mem_singleton.mp hLast]
          symm
          refine Int.natCast_eq_zero.mpr (List.countP_eq_zero.mpr fun p hp hSame => ?_)
          rcases hRoom.finds p hp with ⟨y, hy, hEq⟩
          exact hNew y hy (hEq.trans (by simpa using hSame))
      · intro p hp
        rcases hRoom.finds p hp with ⟨y, hy, hEq⟩
        exact ⟨y, List.mem_append_left _ hy, hEq⟩
      · rw [List.map_append, List.nodup_append]
        refine ⟨hRoom.distinct, by simp, ?_⟩
        intro a ha b hb
        rcases List.mem_map.mp ha with ⟨y, hy, rfl⟩
        rw [List.mem_singleton.mp hb]
        exact hNew y hy

/- The loop ends, and leaves the pinned items if no release fails. -/
theorem clearLoop_sound (replies : Nat → Reply) {fuel i : Nat} (hSound : Sound s)
    (hFuel : s.mBufferItemList.length < fuel) :
    ∃ status t, clearLoop replies fuel i s = some (status, t) ∧ Sound t ∧
      (Takes s (fun k => replies (i + k)) →
        t.mBufferItemList = s.mBufferItemList.filter RingBufferItem.pinned) := by
  induction fuel generalizing i s with
  | zero => omega
  | succ fuel ih =>
    have hReleases := releaseOldestBufferLocked_releases s.mBufferItemList (replies i)
    have hApplied := hSound.apply hReleases
    unfold clearLoop
    dsimp only
    generalize releaseOldestBufferLocked s.mBufferItemList (replies i) = r at hReleases hApplied
    cases hReleases with
    | nothing status hPinned hStatus =>
      have hSame : s.mBufferItemList = s.mBufferItemList.filter RingBufferItem.pinned :=
        (List.filter_eq_self.mpr hPinned).symm
      cases status with
      | OK => exact absurd rfl hStatus
      | NOT_ENOUGH_DATA => exact ⟨_, _, rfl, hApplied, fun _ => hSame⟩
      | NO_BUFFER_AVAILABLE => exact ⟨_, _, rfl, hApplied, fun _ => hSame⟩
      | other code => exact ⟨_, _, rfl, hApplied, fun _ => hSame⟩
    | failed status x released hOldest _ hReply hStatus =>
      have hNot : ¬Takes s fun k => replies (i + k) := fun hTakes =>
        hReply (hTakes 0 (List.countP_pos_iff.mpr ⟨x, hOldest.1, by simp [hOldest.2.1]⟩))
      cases status with
      | OK => exact absurd rfl hStatus
      | NOT_ENOUGH_DATA => exact ⟨_, _, rfl, hApplied, fun hTakes => absurd hTakes hNot⟩
      | NO_BUFFER_AVAILABLE => exact ⟨_, _, rfl, hApplied, fun hTakes => absurd hTakes hNot⟩
      | other code => exact ⟨_, _, rfl, hApplied, fun hTakes => absurd hTakes hNot⟩
    | erased j x hAt hOldest _ =>
      rcases eraseIdx_split hAt with ⟨front, back, hList, hErased⟩
      have hShorter : (s.mBufferItemList.eraseIdx j).length < fuel := by
        have hj := (List.getElem?_eq_some_iff.mp hAt).1
        rw [List.length_eraseIdx_of_lt hj]
        omega
      rcases @ih _ (i + 1) hApplied hShorter with ⟨status, t, hLoop, hSoundT, hRest⟩
      refine ⟨status, t, hLoop, hSoundT, fun hTakes => ?_⟩
      have hFilter : (s.mBufferItemList.eraseIdx j).filter RingBufferItem.pinned =
          s.mBufferItemList.filter RingBufferItem.pinned := by
        rw [hErased, hList, List.filter_append, List.filter_append,
          List.filter_cons_of_neg (by simp [hOldest.2.1])]
      have hCount : s.mBufferItemList.countP (fun x => !x.pinned) =
          (s.mBufferItemList.eraseIdx j).countP (fun x => !x.pinned) + 1 := by
        rw [hErased, hList, List.countP_append, List.countP_append,
          List.countP_cons_of_pos (by simp [hOldest.2.1])]
        rfl
      refine (hRest fun k hk => ?_).trans hFilter
      have hLater : (replies (i + (k + 1))).isOK := hTakes (k + 1) (hCount ▸ Nat.succ_lt_succ hk)
      rwa [Nat.add_comm k 1, ← Nat.add_assoc] at hLater

theorem clear_sound (hSound : Sound s) (replies : Nat → Reply) :
    ∃ status t, clear s replies = some (status, t) ∧ Sound t ∧
      (Takes s replies → t.mBufferItemList = s.mBufferItemList.filter RingBufferItem.pinned) := by
  unfold clear
  split
  · rename_i hEmpty
    rw [List.isEmpty_iff] at hEmpty
    exact ⟨_, _, rfl, hSound, by simp [hEmpty]⟩
  · have hLoop := @clearLoop_sound s replies _ 0 hSound (Nat.lt_succ_self _)
    simpa only [Nat.zero_add] using hLoop

end Releasing

--
-- Pinning
--

section Pinning

variable {s : Consumer}

theorem select_mem {compare : Comparator} {acc : Option RingBufferItem} {l : List RingBufferItem}
    {x : RingBufferItem} (hSelect : select compare acc l = some x) : acc = some x ∨ x ∈ l := by
  induction l generalizing acc with
  | nil => exact Or.inl hSelect
  | cons item rest ih =>
    unfold select at hSelect
    dsimp only at hSelect
    split at hSelect
    · exact Or.inr (List.mem_cons_of_mem _ ((ih hSelect).resolve_left nofun))
    · split at hSelect
      · rcases ih hSelect with hSame | hRest
        · cases hSame
          exact Or.inr List.mem_cons_self
        · exact Or.inr (List.mem_cons_of_mem _ hRest)
      · exact (ih hSelect).imp_right (List.mem_cons_of_mem _)

/- With different graphic buffers the first item with one is the only one. -/
theorem adjust_eq_map {l : List RingBufferItem} (buffer : Nat) (change : Int)
    (hDistinct : (l.map (·.item.mGraphicBuffer)).Nodup) :
    adjust buffer change l = l.map fun x =>
      if buffer = x.item.mGraphicBuffer then { x with mPinCount := x.mPinCount + change }
      else x := by
  induction l with
  | nil => rfl
  | cons find rest ih =>
    rcases List.nodup_cons.mp hDistinct with ⟨hNot, hRest⟩
    rw [adjust, List.map_cons]
    split
    · rename_i hSame
      have hOthers : ∀ x ∈ rest, buffer ≠ x.item.mGraphicBuffer := fun x hMem hEq =>
        hNot (List.mem_map.mpr ⟨x, hMem, (hSame.symm.trans hEq).symm⟩)
      have hRestSame : rest.map (fun x =>
          if buffer = x.item.mGraphicBuffer then { x with mPinCount := x.mPinCount + change }
          else x) = rest := by
        rw [List.map_congr_left fun x hMem => if_neg (hOthers x hMem), List.map_id']
      rw [hRestSame]
    · rw [ih hRest]

/- Counts that follow the pinned items are still right after one of them changes. -/
theorem Sound.adjust (hSound : Sound s) {buffer : Nat} {change : Int} {live : List BufferItem}
    (hCount : ∀ x ∈ s.mBufferItemList,
      (live.countP (·.mGraphicBuffer = x.item.mGraphicBuffer) : Int) =
        s.live.countP (·.mGraphicBuffer = x.item.mGraphicBuffer) +
          if buffer = x.item.mGraphicBuffer then change else 0)
    (hFinds : ∀ p ∈ live, ∃ x ∈ s.mBufferItemList, x.item.mGraphicBuffer = p.mGraphicBuffer) :
    Sound { s with
      mBufferItemList := RingBufferConsumer.adjust buffer change s.mBufferItemList
      live := live } := by
  have hMap := adjust_eq_map buffer change hSound.distinct
  have hBuffers : (RingBufferConsumer.adjust buffer change s.mBufferItemList).map
      (·.item.mGraphicBuffer) = s.mBufferItemList.map (·.item.mGraphicBuffer) := by
    rw [hMap, List.map_map]
    refine List.map_congr_left fun x _ => ?_
    dsimp only [Function.comp]
    split
    · rfl
    · rfl
  refine ⟨⟨?_, hSound.releases, ?_, ?_⟩, ?_⟩
  · rw [hMap, List.length_map]
    exact hSound.size
  · intro y hMem
    rw [hMap] at hMem
    rcases List.mem_map.mp hMem with ⟨x, hx, rfl⟩
    have hOld := hSound.counts x hx
    have hNew := hCount x hx
    split
    · rename_i hSame
      rw [if_pos hSame] at hNew
      dsimp only
      rw [hNew, hOld]
    · rename_i hOther
      rw [if_neg hOther] at hNew
      rw [hNew, hOld, Int.add_zero]
  · intro p hp
    rcases hFinds p hp with ⟨x, hx, hSame⟩
    have hBuffer : p.mGraphicBuffer ∈ s.mBufferItemList.map (·.item.mGraphicBuffer) :=
      List.mem_map.mpr ⟨x, hx, hSame⟩
    rw [← hBuffers] at hBuffer
    exact List.mem_map.mp hBuffer
  · dsimp only
    rw [hBuffers]
    exact hSound.distinct

theorem pinSelectedBuffer_sound (hSound : Sound s) (compare : Comparator) :
    Sound (pinSelectedBuffer s compare) := by
  unfold pinSelectedBuffer
  split
  · exact hSound
  · rename_i x hSelect
    have hMember : x ∈ s.mBufferItemList := (select_mem hSelect).resolve_left nofun
    refine hSound.adjust ?_ ?_
    · intro y _
      rw [List.countP_cons]
      by_cases hSame : x.item.mGraphicBuffer = y.item.mGraphicBuffer
      · simp [hSame]
      · simp [hSame]
    · rintro p hp
      rcases List.mem_cons.mp hp with rfl | hOld
      · exact ⟨x, hMember, rfl⟩
      · exact hSound.finds p hOld

theorem countP_erase_live {live : List BufferItem} {item : BufferItem} (hLive : item ∈ live)
    (buffer : Nat) :
    ((live.erase item).countP (·.mGraphicBuffer = buffer) : Int) =
      live.countP (·.mGraphicBuffer = buffer) +
        if item.mGraphicBuffer = buffer then -1 else 0 := by
  have hPerm := (List.perm_cons_erase hLive).countP_eq (fun p => decide (p.mGraphicBuffer = buffer))
  rw [hPerm, List.countP_cons]
  by_cases hSame : item.mGraphicBuffer = buffer
  · simp only [hSame, decide_true, if_true]
    omega
  · simp [hSame]

/- The count of an unpinned item goes down unless the queue refuses its fence. -/
theorem unpinBuffer_good_iff (hSound : Sound s) {item : BufferItem} (hLive : item ∈ s.live)
    (fence : Status) :
    Good { unpinBuffer s item fence with live := s.live.erase item } ↔ fence = .OK := by
  unfold unpinBuffer
  split
  · rename_i hRefused
    refine iff_of_false (fun hGood => ?_) hRefused
    rcases hSound.finds item hLive with ⟨x, hx, hSame⟩
    have hOld := hSound.counts x hx
    have hNew : x.mPinCount =
        (s.live.erase item).countP (·.mGraphicBuffer = x.item.mGraphicBuffer) := hGood.counts x hx
    rw [countP_erase_live hLive, if_pos hSame.symm] at hNew
    omega
  · rename_i hTaken
    refine iff_of_true ?_ (not_not.mp hTaken)
    refine (hSound.adjust (fun x _ => countP_erase_live hLive _) ?_).toGood
    exact fun p hp => hSound.finds p (List.mem_of_mem_erase hp)

theorem unpinBuffer_sound (hSound : Sound s) {item : BufferItem} (hLive : item ∈ s.live) :
    Sound { unpinBuffer s item .OK with live := s.live.erase item } := by
  unfold unpinBuffer
  rw [if_neg (by simp)]
  refine hSound.adjust (fun x _ => countP_erase_live hLive _) ?_
  exact fun p hp => hSound.finds p (List.mem_of_mem_erase hp)

end Pinning

--
-- Runs
--

section Runs

variable {s : Consumer}

/- One call is right exactly if the queue takes the fence, and the ring is then sound. -/
theorem right_iff (hSound : Sound s) (a : Action) :
    (Right s a ↔ Keeps s a) ∧ (Keeps s a → ∀ t, step s a = some t → Sound t) := by
  cases a with
  | onFrameAvailable reply acquired =>
    have hNext : ∀ t, step s (.onFrameAvailable reply acquired) = some t → Sound t := by
      intro t hStep
      unfold step at hStep
      dsimp only at hStep
      split at hStep
      · rename_i hFresh
        cases hStep
        refine onFrameAvailable_sound hSound fun item hItem x hMem => ?_
        rw [hItem] at hFresh
        simpa using List.all_eq_true.mp hFresh x hMem
      · cases hStep
    exact ⟨iff_of_true ⟨nofun, fun t hStep => (hNext t hStep).toGood⟩ trivial, fun _ => hNext⟩
  | pinSelectedBuffer compare =>
    have hNext : ∀ t, step s (.pinSelectedBuffer compare) = some t → Sound t := by
      rintro t ⟨⟩
      exact pinSelectedBuffer_sound hSound compare
    exact ⟨iff_of_true ⟨nofun, fun t hStep => (hNext t hStep).toGood⟩ trivial, fun _ => hNext⟩
  | unpin item fence =>
    by_cases hLive : item ∈ s.live
    · have hStep : step s (.unpin item fence) =
          some { unpinBuffer s item fence with live := s.live.erase item } := if_pos hLive
      constructor
      · constructor
        · intro hRight _
          exact (unpinBuffer_good_iff hSound hLive fence).mp (hRight.2 _ hStep)
        · intro hKeeps
          refine ⟨nofun, fun t hSome => ?_⟩
          rw [hStep] at hSome
          cases hSome
          exact (unpinBuffer_good_iff hSound hLive fence).mpr (hKeeps hLive)
      · intro hKeeps t hSome
        rw [hStep, hKeeps hLive] at hSome
        cases hSome
        exact unpinBuffer_sound hSound hLive
    · have hStep : step s (.unpin item fence) = none := if_neg hLive
      constructor
      · refine iff_of_true ⟨nofun, fun t hSome => ?_⟩ fun hMember => absurd hMember hLive
        rw [hStep] at hSome
        cases hSome
      · intro _ t hSome
        rw [hStep] at hSome
        cases hSome
  | clear replies =>
    rcases clear_sound hSound replies with ⟨status, t, hClear, hSoundT, hTakes⟩
    have hNext : ∀ u, step s (.clear replies) = some u → Sound u := by
      intro u hStep
      have hSome : step s (.clear replies) = some t := by rw [step, hClear, Option.map_some]
      rw [hSome] at hStep
      cases hStep
      exact hSoundT
    refine ⟨iff_of_true ⟨?_, fun u hStep => (hNext u hStep).toGood⟩ trivial, fun _ => hNext⟩
    rintro replies ⟨⟩
    exact ⟨status, t, hClear, hTakes⟩

/- One buffer is acquired, pinned, and unpinned while its fence is refused. -/
def frame : BufferItem := ⟨⟨0, 0, 1, 1⟩, 0, 0, 5, 1, 0, 7⟩

def pinnedFrame : List Action :=
  [.onFrameAvailable ⟨.OK, .OK⟩ (some frame), .pinSelectedBuffer fun _ _ => 1]

end Runs

end RingBufferConsumer

end FrameworksAv
