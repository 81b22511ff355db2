import FrameworksAv.Webm.EbmlReader
import Mathlib.Data.List.TakeDrop

/-
  Elements are read back as they were written.

  A size has a code in the program while it takes four bytes; the sizes of all elements and the
  elements with children are taken together, by recursion over the tree.

  Main declarations:
    * `readVint_code`
    * `Leaf.written`, `WebmElement.written`
    * `WebmElement.every_of_written`
    * `ebml_codec`
-/

--
-- Codes
--

namespace FrameworksAv

namespace Webm

/- A code with the bit that tells its width. -/
def IsCode (w code : Nat) : Prop :=
  0 < w ∧ w ≤ 8 ∧ 2 ^ (7 * w) ≤ code ∧ code < 2 ^ (7 * w + 1)

theorem Mkv.isCode (id : Mkv) : IsCode (sizeOf id.value) id.value := by
  unfold IsCode
  cases id <;> decide

variable {u w code : Nat}

theorem CodeOf.isCode (hCode : CodeOf u w code) : IsCode w code := by
  rcases hCode with ⟨hPos, hw, hu, rfl⟩
  have hPow : 2 ^ (7 * w + 1) = 2 ^ (7 * w) * 2 := Nat.pow_succ _ _
  exact ⟨hPos, hw, by omega, by omega⟩

theorem IsCode.sizeOf (hCode : IsCode w code) : sizeOf code = w :=
  sizeOf_code hCode.1 hCode.2.1 hCode.2.2.1 hCode.2.2.2

/- The highest byte of a number stands first. -/
theorem littleEndian_reverse (n value : Nat) :
    (littleEndian (n + 1) value).reverse =
      BitVec.ofNat 8 (value / 256 ^ n) :: (littleEndian n value).reverse := by
  induction n generalizing value with
  | zero =>
    rw [Nat.pow_zero, Nat.div_one]
    rfl
  | succ n ih =>
    rw [littleEndian, List.reverse_cons, ih, List.cons_append,
      littleEndian, List.reverse_cons, Nat.div_div_eq_div_mul, Nat.pow_succ, Nat.mul_comm 256]

theorem serializeCodedUnsigned_length (hCode : IsCode w code) :
    (serializeCodedUnsigned code).length = w := by
  unfold serializeCodedUnsigned
  rw [List.length_reverse, littleEndian_length, hCode.sizeOf]

/- A code is read with its width. -/
theorem readVint_code (hCode : IsCode w code) (rest : List Byte) :
    readVint (serializeCodedUnsigned code ++ rest) = .returns (w, code, rest) := by
  have hSize := hCode.sizeOf
  rcases hCode with ⟨hPos, hw, hLow, hHigh⟩
  rcases Nat.exists_eq_succ_of_ne_zero (Nat.ne_of_gt hPos) with ⟨n, rfl⟩
  -- the first byte
  have hSplit : 2 ^ (7 * (n + 1)) = 2 ^ (7 - n) * 256 ^ n := by
    have hBase : 256 ^ n = 2 ^ (8 * n) := by
      rw [Nat.pow_mul]
    rw [hBase, ← Nat.pow_add]
    congr 1
    omega
  have hPosPow : 0 < 256 ^ n := Nat.pow_pos (by omega)
  have hTopLow : 2 ^ (7 - n) ≤ code / 256 ^ n := by
    rw [Nat.le_div_iff_mul_le hPosPow, ← hSplit]
    exact hLow
  have hTopHigh : code / 256 ^ n < 2 ^ (7 - n + 1) := by
    rw [Nat.div_lt_iff_lt_mul hPosPow, Nat.pow_succ, Nat.mul_right_comm, ← hSplit, ← Nat.pow_succ]
    exact hHigh
  have hByte : 2 ^ (7 - n + 1) ≤ 2 ^ 8 := Nat.pow_le_pow_right (by omega) (by omega)
  have hFirst : (BitVec.ofNat 8 (code / 256 ^ n)).toNat = code / 256 ^ n := by
    rw [BitVec.toNat_ofNat]
    exact Nat.mod_eq_of_lt (by omega)
  have hNonzero : code / 256 ^ n ≠ 0 := by
    have hPosTop := Nat.two_pow_pos (7 - n)
    omega
  have hLog : (code / 256 ^ n).log2 = 7 - n := (Nat.log2_eq_iff hNonzero).mpr ⟨hTopLow, hTopHigh⟩
  have hWidth : 8 - (code / 256 ^ n).log2 = n + 1 := by omega
  have hBytes :
      serializeCodedUnsigned code =
        BitVec.ofNat 8 (code / 256 ^ n) :: (littleEndian n code).reverse := by
    unfold serializeCodedUnsigned
    rw [hSize, littleEndian_reverse]
  have hLength :
      (BitVec.ofNat 8 (code / 256 ^ n) :: (littleEndian n code).reverse).length = n + 1 := by
    rw [List.length_cons, List.length_reverse, littleEndian_length]
  have hNumber :
      ofLittleEndian
          (BitVec.ofNat 8 (code / 256 ^ n) :: (littleEndian n code).reverse).reverse = code := by
    rw [← littleEndian_reverse, List.reverse_reverse]
    apply ofLittleEndian_littleEndian
    have hBound : 2 ^ (7 * (n + 1) + 1) ≤ 2 ^ (8 * (n + 1)) :=
      Nat.pow_le_pow_right (by omega) (by omega)
    exact Nat.lt_of_lt_of_le hHigh hBound
  rw [hBytes, List.cons_append, readVint]
  rw [hFirst, hWidth, ← List.cons_append, Result.check,
    if_pos, List.take_left' hLength, List.drop_left' hLength, hNumber]
  refine ⟨?_, ?_⟩
  · intro hZero
    rw [hZero] at hFirst
    exact hNonzero hFirst.symm
  · rw [List.length_append, hLength]
    omega

end Webm

--
-- Elements without Children
--

namespace Webm

variable {isMaster : Nat → Bool}

theorem encodeUnsigned_code {u : Nat} (hu : u + 1 < 2 ^ 28) :
    ∃ code, encodeUnsigned u = some code ∧ CodeOf u (width u) code := by
  have hWidth : width u ≤ 4 := (width_le_iff u 4).mpr ⟨by omega, hu⟩
  refine ⟨2 ^ (7 * width u) + u, ?_, ?_, by omega, ?_, rfl⟩
  · rw [encodeUnsigned_eq (by omega), if_pos hWidth]
  · exact Nat.succ_pos _
  · exact ((width_le_iff u (width u)).mp (Nat.le_refl _)).2

/- From four bytes on there is no code. -/
theorem encodeUnsigned_none {u : Nat} (hFits : u < 2 ^ 64) (hu : 2 ^ 28 ≤ u + 1) :
    encodeUnsigned u = none := by
  by_cases hNext : u + 1 < 2 ^ 64
  · rw [encodeUnsigned_eq hNext, if_neg]
    intro hWidth
    have hLess := ((width_le_iff u 4).mp hWidth).2
    omega
  · have hSame : u = 2 ^ 64 - 1 := by omega
    rw [hSame]
    decide

/- One element, in front of others. -/
theorem readElements_cons {id size : Nat} {w code : Nat} (hId : IsCode (sizeOf id) id)
    (hCode : CodeOf size w code) {payload rest : List Byte} (hSize : payload.length = size)
    {tree : Tree}
    (hTree :
      Reaches
        (fun fuel =>
          if isMaster id then (readElements isMaster fuel payload).map (Tree.node id)
          else .returns (.leaf id payload))
        tree)
    {trees : List Tree} (hRest : Reaches (fun fuel => readElements isMaster fuel rest) trees) :
    Reaches
      (fun fuel =>
        readElements isMaster fuel
          (serializeCodedUnsigned id ++ serializeCodedUnsigned code ++ payload ++ rest))
      (tree :: trees) := by
  apply Reaches.succ
  have hFirst :
      ∃ first bytes,
        serializeCodedUnsigned id ++ serializeCodedUnsigned code ++ payload ++ rest =
          first :: bytes := by
    have hLength := serializeCodedUnsigned_length hId
    cases hBytes : serializeCodedUnsigned id with
    | nil =>
      rw [hBytes] at hLength
      have hPos := hId.1
      rw [← hLength] at hPos
      exact absurd hPos (Nat.lt_irrefl 0)
    | cons first bytes =>
      exact ⟨first, _, by
        rw [List.cons_append, List.cons_append, List.cons_append]⟩
  rcases hFirst with ⟨first, bytes, hFirst⟩
  have hDifference : code - 2 ^ (7 * w) = size := by
    rcases hCode with ⟨-, -, -, rfl⟩
    omega
  have hNotOnes : size + 1 ≠ 2 ^ (7 * w) := Nat.ne_of_lt hCode.2.2.1
  have hCheck : size + 1 ≠ 2 ^ (7 * w) ∧ size ≤ (payload ++ rest).length := by
    refine ⟨hNotOnes, ?_⟩
    rw [List.length_append]
    omega
  have hCodeRun :
      ∀ fuel,
        readElements isMaster (fuel + 1)
            (serializeCodedUnsigned id ++ serializeCodedUnsigned code ++ payload ++ rest) =
          (if isMaster id then (readElements isMaster fuel payload).map (Tree.node id)
          else .returns (.leaf id payload)).bind fun tree =>
              (readElements isMaster fuel rest).map (tree :: ·) := by
    intro fuel
    have hShape :
        readElements isMaster (fuel + 1)
            (serializeCodedUnsigned id ++ serializeCodedUnsigned code ++ payload ++ rest) =
          (readVint
              (serializeCodedUnsigned id ++
                (serializeCodedUnsigned code ++ (payload ++ rest)))).bind
            fun name =>
            (readVint name.2.2).bind fun r =>
              let size := r.2.1 - 2 ^ (7 * r.1)
              .check (size + 1 ≠ 2 ^ (7 * r.1) ∧ size ≤ r.2.2.length)
                ((if isMaster name.2.1 then
                  (readElements isMaster fuel (r.2.2.take size)).map (Tree.node name.2.1)
                else .returns (.leaf name.2.1 (r.2.2.take size))).bind fun tree =>
                    (readElements isMaster fuel (r.2.2.drop size)).map (tree :: ·)) := by
      rw [← List.append_assoc, ← List.append_assoc, hFirst]
      exact rfl
    rw [hShape, readVint_code hId]
    dsimp only [Result.bind_returns]
    rw [readVint_code hCode.isCode]
    dsimp only [Result.bind_returns]
    rw [hDifference, Result.check, if_pos hCheck, List.take_left' hSize, List.drop_left' hSize]
  simp only [hCodeRun]
  exact hTree.bind (hRest.bind (.const _))

namespace Leaf

/- What is written as the payload. -/
def payload (leaf : Leaf) : List Byte :=
  leaf.serializePayload.getD []

theorem voidSize_toNat {totalSize : Nat} (hSize : 2 ≤ totalSize) :
    (voidSize totalSize).toNat = if totalSize < 9 then totalSize - 2 else totalSize - 9 := by
  unfold voidSize
  rw [if_neg (by omega)]
  split <;> omega

/- The width that is left for the size of an `EbmlVoid`. -/
theorem void_code {totalSize : Nat} (hSize : 2 ≤ totalSize) (hBound : totalSize + 1 < 2 ^ 56) :
    CodeOf (voidSize totalSize).toNat (mSizeWidth totalSize)
        (encodeUnsignedWidth (voidSize totalSize).toNat (mSizeWidth totalSize)) ∧
      1 + mSizeWidth totalSize + (voidSize totalSize).toNat = totalSize := by
  have hId : sizeOf Mkv.kMkvVoid.value = 1 := by decide
  unfold mSizeWidth
  rw [hId, voidSize_toNat hSize]
  by_cases hShort : totalSize < 9
  · rw [if_pos hShort]
    have hOne : totalSize - 1 - (totalSize - 2) = 1 := by omega
    rw [hOne]
    refine ⟨⟨by omega, by omega, by omega, ?_⟩, by omega⟩
    exact encodeUnsignedWidth_eq (by omega) (by omega)
  · rw [if_neg hShort]
    have hEight : totalSize - 1 - (totalSize - 9) = 8 := by
      omega
    rw [hEight]
    refine ⟨⟨by omega, by omega, by omega, ?_⟩, by omega⟩
    exact encodeUnsignedWidth_eq (by omega) (by omega)

/-
  The code of the size, for a leaf that has one: its width and the size make up what the leaf should
  take.
-/
theorem size_code {leaf : Leaf} (hCoded : leaf.Coded) (hBound : leaf.extent + 1 < 2 ^ 56) :
    ∃ w code,
      leaf.serializePayloadSize = some (serializeCodedUnsigned code) ∧ CodeOf leaf.mSize w code ∧
        sizeOf leaf.mId.value + w + leaf.mSize = leaf.extent := by
  have hOther : leaf.mSize + 1 < 2 ^ 28 →
      ∃ code,
        (encodeUnsigned leaf.mSize).map serializeCodedUnsigned =
          some (serializeCodedUnsigned code) ∧ CodeOf leaf.mSize (width leaf.mSize) code := by
    intro hSmall
    rcases encodeUnsigned_code hSmall with ⟨code, hEncode, hCode⟩
    exact ⟨code, by rw [hEncode]; rfl, hCode⟩
  cases leaf with
  | WebmUnsigned mId mValue =>
    rcases hOther hCoded with ⟨code, hEncode, hCode⟩
    exact ⟨_, code, hEncode, hCode, rfl⟩
  | WebmString mId mStr hStr =>
    rcases hOther hCoded with ⟨code, hEncode, hCode⟩
    exact ⟨_, code, hEncode, hCode, rfl⟩
  | WebmBinary mId mRef =>
    rcases hOther hCoded with ⟨code, hEncode, hCode⟩
    exact ⟨_, code, hEncode, hCode, rfl⟩
  | WebmSimpleBlock mTrackNum mRelTimecode mKey mRef =>
    rcases hOther hCoded.1 with ⟨code, hEncode, hCode⟩
    exact ⟨_, code, hEncode, hCode, rfl⟩
  | EbmlVoid totalSize hSize =>
    rcases void_code hSize hBound with ⟨hCode, hTotal⟩
    refine ⟨_, _, rfl, hCode, ?_⟩
    have hId : sizeOf Mkv.kMkvVoid.value = 1 := by decide
    show sizeOf Mkv.kMkvVoid.value + _ + _ = totalSize
    rw [hId]
    exact hTotal

/- The payload of a leaf that is coded has the right size. -/
theorem payload_of_coded {leaf : Leaf} (hCoded : leaf.Coded) :
    leaf.serializePayload = some leaf.payload ∧ leaf.payload.length = leaf.mSize := by
  cases leaf with
  | WebmUnsigned mId mValue =>
    refine ⟨rfl, ?_⟩
    show (serializeCodedUnsigned mValue.toNat).length = _
    unfold serializeCodedUnsigned
    rw [List.length_reverse, littleEndian_length]
    rfl
  | WebmString mId mStr hStr => exact ⟨rfl, rfl⟩
  | WebmBinary mId mRef => exact ⟨rfl, rfl⟩
  | WebmSimpleBlock mTrackNum mRelTimecode mKey mRef =>
    rcases encodeUnsigned_code hCoded.2 with ⟨code, hEncode, hCode⟩
    have hLength := serializeCodedUnsigned_length hCode.isCode
    have hPos := hCode.1
    have hPayload :
        (WebmSimpleBlock mTrackNum mRelTimecode mKey mRef).serializePayload =
          some
            ((serializeCodedUnsigned code).take 1 ++
              [BitVec.ofNat 8 (mRelTimecode.toNat / 256), BitVec.ofNat 8 mRelTimecode.toNat,
                if mKey then 0x80 else 0] ++ mRef) := by
      show (encodeUnsigned _).map _ = _
      rw [hEncode]
      exact rfl
    unfold payload
    rw [hPayload]
    refine ⟨rfl, ?_⟩
    show List.length (_ ++ _ ++ _) = mRef.length + 4
    rw [List.length_append, List.length_append, List.length_take, hLength]
    simp only [List.length_cons, List.length_nil]
    omega
  | EbmlVoid totalSize hSize => exact ⟨rfl, List.length_replicate⟩

/- A leaf that is written is coded. -/
theorem coded_of_written {leaf : Leaf} {bytes : List Byte}
    (hWritten : (WebmElement.leaf leaf).serializeInto = some bytes) (hFits : leaf.mSize < 2 ^ 64) :
    leaf.Coded := by
  have hSize : ∀ u, u < 2 ^ 64 → ∀ {code}, encodeUnsigned u = some code → u + 1 < 2 ^ 28 := by
    intro u hu code hEncode
    by_contra hLarge
    rw [encodeUnsigned_none hu (by omega)] at hEncode
    cases hEncode
  unfold WebmElement.serializeInto at hWritten
  rcases Option.bind_eq_some_iff.mp hWritten with ⟨size, hCode, hPayload⟩
  rcases Option.map_eq_some_iff.mp hPayload with ⟨payload, hPayload, -⟩
  cases leaf with
  | WebmUnsigned mId mValue =>
    rcases Option.map_eq_some_iff.mp hCode with ⟨c, hc, -⟩
    exact hSize _ hFits hc
  | WebmString mId mStr hStr =>
    rcases Option.map_eq_some_iff.mp hCode with ⟨c, hc, -⟩
    exact hSize _ hFits hc
  | WebmBinary mId mRef =>
    rcases Option.map_eq_some_iff.mp hCode with ⟨c, hc, -⟩
    exact hSize _ hFits hc
  | WebmSimpleBlock mTrackNum mRelTimecode mKey mRef =>
    rcases Option.map_eq_some_iff.mp hCode with ⟨c, hc, -⟩
    rcases Option.map_eq_some_iff.mp hPayload with ⟨t, ht, -⟩
    exact ⟨hSize _ hFits hc, hSize _ (by omega) ht⟩
  | EbmlVoid totalSize hVoid => exact trivial

end Leaf

--
-- All Elements
--

theorem Leaf.mSize_lt_extent (leaf : Leaf) : leaf.mSize < leaf.extent := by
  have hOther : leaf.mSize < sizeOf leaf.mId.value + width leaf.mSize + leaf.mSize := by
    have hId := leaf.mId.isCode.1
    omega
  cases leaf with
  | WebmUnsigned mId mValue => exact hOther
  | WebmString mId mStr hStr => exact hOther
  | WebmBinary mId mRef => exact hOther
  | WebmSimpleBlock mTrackNum mRelTimecode mKey mRef => exact hOther
  | EbmlVoid totalSize hSize =>
    show (voidSize totalSize).toNat < totalSize
    rw [Leaf.voidSize_toNat hSize]
    split <;> omega

theorem WebmElement.extent_pos (e : WebmElement) : 0 < e.extent := by
  cases e with
  | leaf leaf =>
    unfold WebmElement.extent
    exact Nat.zero_lt_of_lt leaf.mSize_lt_extent
  | WebmMaster mId mChildren =>
    have hId := mId.isCode.1
    unfold WebmElement.extent
    omega

theorem extents_pos {children : List WebmElement} (hSome : children ≠ []) :
    0 < extents children := by
  cases children with
  | nil => exact absurd rfl hSome
  | cons child children =>
    have hChild := child.extent_pos
    unfold extents
    omega

/- The size of an element with children. -/
theorem masterPayloadSize_code {size : Nat} (hPos : 0 < size) (hSmall : size + 1 < 2 ^ 28) :
    ∃ code,
      masterPayloadSize size = some (serializeCodedUnsigned code) ∧
        CodeOf size (width size) code := by
  rcases encodeUnsigned_code hSmall with ⟨code, hEncode, hCode⟩
  refine ⟨code, ?_, hCode⟩
  unfold masterPayloadSize
  rw [if_neg (Nat.ne_of_gt hPos), hEncode]
  exact rfl

theorem small_of_masterPayloadSize {size : Nat} {bytes : List Byte} (hPos : 0 < size)
    (hFits : size < 2 ^ 64) (hSize : masterPayloadSize size = some bytes) : size + 1 < 2 ^ 28 := by
  by_contra hLarge
  unfold masterPayloadSize at hSize
  rw [if_neg (Nat.ne_of_gt hPos), encodeUnsigned_none hFits (by omega)] at hSize
  cases hSize

/- The bytes of a leaf, in front of others. -/
theorem Leaf.written {leaf : Leaf} (hShaped : isMaster leaf.mId.value = false) (hCoded : leaf.Coded)
    (hBound : leaf.extent + 1 < 2 ^ 56) :
    ∃ bytes,
      (WebmElement.leaf leaf).serializeInto = some bytes ∧
        (WebmElement.leaf leaf).totalSize = some bytes.length ∧ bytes.length = leaf.extent ∧
        ∀ rest trees, Reaches (fun fuel => readElements isMaster fuel rest) trees →
          Reaches
            (fun fuel =>
              readElements isMaster fuel (bytes ++ rest))
            (.leaf leaf.mId.value leaf.payload :: trees) := by
  rcases Leaf.size_code hCoded hBound with ⟨w, code, hSize, hCode, hExtent⟩
  rcases Leaf.payload_of_coded hCoded with ⟨hPayload, hLength⟩
  have hId := leaf.mId.isCode
  have hTotal :
      (serializeCodedUnsigned leaf.mId.value ++
          serializeCodedUnsigned code ++ leaf.payload).length =
        sizeOf leaf.mId.value + w + leaf.mSize := by
    rw [List.length_append, List.length_append, serializeCodedUnsigned_length hId,
      serializeCodedUnsigned_length hCode.isCode, hLength]
  refine ⟨serializeCodedUnsigned leaf.mId.value ++
    serializeCodedUnsigned code ++ leaf.payload, ?_, ?_, ?_, ?_⟩
  · unfold WebmElement.serializeInto
    rw [hSize, hPayload]
    exact rfl
  · unfold WebmElement.totalSize
    rw [hSize, hTotal]
    show some (_ + (serializeCodedUnsigned code).length + _) = _
    rw [serializeCodedUnsigned_length hCode.isCode]
  · rw [hTotal, hExtent]
  · intro rest trees hRest
    apply readElements_cons hId hCode hLength ?_ hRest
    rw [hShaped]
    exact .const _

mutual

/- An element that is coded is read back, with what follows. -/
theorem WebmElement.written :
    (e : WebmElement) → e.Shaped isMaster → e.Every Leaf.Coded → e.extent + 1 < 2 ^ 56 →
      ∃ bytes,
        e.serializeInto = some bytes ∧ e.totalSize = some bytes.length ∧ bytes.length = e.extent ∧
          ∀ rest trees, Reaches (fun fuel => readElements isMaster fuel rest) trees →
            Reaches
              (fun fuel =>
                readElements isMaster fuel (bytes ++ rest))
              (e.treeOf Leaf.payload :: trees)
| .leaf leaf => by
  intro hShaped hCoded hBound
  exact Leaf.written hShaped hCoded hBound
| .WebmMaster mId mChildren => by
  rintro ⟨hMaster, hSome, hShaped⟩ ⟨hSmall, hCoded⟩ hBound
  have hId := mId.isCode
  unfold WebmElement.extent at hBound ⊢
  rcases children_written mChildren hShaped hCoded (by omega) with
    ⟨payload, hPayload, hSum, hLength, hRead⟩
  rcases masterPayloadSize_code (extents_pos hSome) hSmall with ⟨code, hSize, hCode⟩
  rw [hLength] at hSum
  have hTotal :
      (serializeCodedUnsigned mId.value ++ serializeCodedUnsigned code ++ payload).length =
        sizeOf mId.value + width (extents mChildren) + extents mChildren := by
    rw [List.length_append, List.length_append, serializeCodedUnsigned_length hId,
      serializeCodedUnsigned_length hCode.isCode, hLength]
  refine ⟨serializeCodedUnsigned mId.value ++
    serializeCodedUnsigned code ++ payload, ?_, ?_, hTotal, ?_⟩
  · unfold WebmElement.serializeInto
    rw [hSum, Option.bind_some, hSize, Option.bind_some, hPayload]
    exact rfl
  · unfold WebmElement.totalSize
    rw [hSum, Option.bind_some, hSize, hTotal]
    show some (_ + (serializeCodedUnsigned code).length + _) = _
    rw [serializeCodedUnsigned_length hCode.isCode]
  · intro rest trees hRest
    apply readElements_cons hId hCode hLength ?_ hRest
    rw [hMaster]
    exact hRead.bind (.const _)

theorem children_written :
    (children : List WebmElement) → AllShaped isMaster children → AllEvery Leaf.Coded children →
      extents children + 1 < 2 ^ 56 →
      ∃ bytes,
        serializeChildren children = some bytes ∧ childrenSum children = some bytes.length ∧
          bytes.length = extents children ∧
          Reaches (fun fuel => readElements isMaster fuel bytes) (treesOf Leaf.payload children)
| [] => by
  intro _ _ _
  refine ⟨[], rfl, rfl, rfl, ?_⟩
  apply Reaches.succ
  exact .const _
| child :: children => by
  rintro ⟨hChild, hShaped⟩ ⟨hFirst, hCoded⟩ hBound
  unfold extents at hBound ⊢
  rcases child.written hChild hFirst (by omega) with ⟨bytes, hBytes, hTotal, hLength, hRead⟩
  rcases children_written children hShaped hCoded (by omega) with
    ⟨rest, hRest, hSum, hRestLength, hReadRest⟩
  refine ⟨bytes ++ rest, ?_, ?_, ?_, hRead rest _ hReadRest⟩
  · unfold serializeChildren
    rw [hBytes, Option.bind_some, hRest]
    exact rfl
  · unfold childrenSum
    rw [hTotal, Option.bind_some, hSum, List.length_append]
    exact rfl
  · rw [List.length_append, hLength, hRestLength]

end

mutual

/- What is written is coded. -/
theorem WebmElement.every_of_written :
    (e : WebmElement) → e.Shaped isMaster → e.extent + 1 < 2 ^ 56 →
      (∃ bytes, e.serializeInto = some bytes) → e.Every Leaf.Coded
| .leaf leaf => by
  rintro - hBound ⟨bytes, hWritten⟩
  apply Leaf.coded_of_written hWritten
  unfold WebmElement.extent at hBound
  have hSize := leaf.mSize_lt_extent
  omega
| .WebmMaster mId mChildren => by
  rintro ⟨hMaster, hSome, hShaped⟩ hBound ⟨bytes, hWritten⟩
  unfold WebmElement.extent at hBound
  unfold WebmElement.serializeInto at hWritten
  rcases Option.bind_eq_some_iff.mp hWritten with ⟨mSize, hSum, hRest⟩
  rcases Option.bind_eq_some_iff.mp hRest with ⟨size, hSize, hPayload⟩
  rcases Option.map_eq_some_iff.mp hPayload with ⟨payload, hChildren, -⟩
  have hCoded := children_every_of_written mChildren hShaped (by omega) ⟨payload, hChildren⟩
  rcases children_written mChildren hShaped hCoded (by omega) with ⟨other, -, hOther, hLength, -⟩
  rw [hSum] at hOther
  cases hOther
  rw [hLength] at hSize
  exact ⟨small_of_masterPayloadSize (extents_pos hSome) (by omega) hSize, hCoded⟩

theorem children_every_of_written :
    (children : List WebmElement) → AllShaped isMaster children → extents children + 1 < 2 ^ 56 →
      (∃ bytes, serializeChildren children = some bytes) → AllEvery Leaf.Coded children
| [] => fun _ _ _ => trivial
| child :: children => by
  rintro ⟨hChild, hShaped⟩ hBound ⟨bytes, hWritten⟩
  unfold extents at hBound
  unfold serializeChildren at hWritten
  rcases Option.bind_eq_some_iff.mp hWritten with ⟨first, hFirst, hRest⟩
  rcases Option.map_eq_some_iff.mp hRest with ⟨rest, hRest, -⟩
  exact ⟨child.every_of_written hChild (by omega) ⟨first, hFirst⟩,
    children_every_of_written children hShaped (by omega) ⟨rest, hRest⟩⟩

end

end Webm

--
-- Contents
--

namespace Webm

namespace Leaf

/- A track number is written as it should be in one byte. -/
theorem block_payload_iff {mTrackNum : BitVec 32} {mRelTimecode : BitVec 16} {mKey : Bool}
    {mRef : List Byte} (hNumber : (mTrackNum.toInt % 2 ^ 64).toNat + 1 < 2 ^ 28) :
    (WebmSimpleBlock mTrackNum mRelTimecode mKey mRef).payload =
        (WebmSimpleBlock mTrackNum mRelTimecode mKey mRef).content ↔
      0 ≤ mTrackNum.toInt ∧ mTrackNum.toInt < 127 := by
  have hLow := BitVec.le_toInt mTrackNum
  have hHigh := BitVec.toInt_lt (x := mTrackNum)
  have hSame : (mTrackNum.toInt % 2 ^ 64).toNat = mTrackNum.toInt.toNat := by
    omega
  have hPos : 0 ≤ mTrackNum.toInt := by omega
  rw [hSame] at hNumber
  rcases encodeUnsigned_code hNumber with ⟨code, hEncode, hCode⟩
  have hBytes :
      serializeCodedUnsigned code =
        (littleEndian (width mTrackNum.toInt.toNat)
          (2 ^ (7 * width mTrackNum.toInt.toNat) + mTrackNum.toInt.toNat)).reverse := by
    unfold serializeCodedUnsigned
    rw [hCode.isCode.sizeOf]
    congr 2
    exact hCode.2.2.2
  have hPayload :
      (WebmSimpleBlock mTrackNum mRelTimecode mKey mRef).payload =
        (serializeCodedUnsigned code).take 1 ++
          [BitVec.ofNat 8 (mRelTimecode.toNat / 256), BitVec.ofNat 8 mRelTimecode.toNat,
            if mKey then 0x80 else 0] ++ mRef := by
    unfold payload serializePayload
    dsimp only
    rw [hSame, hEncode]
    exact rfl
  have hContent :
      (WebmSimpleBlock mTrackNum mRelTimecode mKey mRef).content =
        serializeCodedUnsigned code ++
          [BitVec.ofNat 8 (mRelTimecode.toNat / 256), BitVec.ofNat 8 mRelTimecode.toNat,
            if mKey then 0x80 else 0] ++ mRef := by
    rw [hBytes]
    exact rfl
  rw [hPayload, hContent, List.append_cancel_right_eq,
    List.append_cancel_right_eq, List.take_eq_self_iff,
    serializeCodedUnsigned_length hCode.isCode, width_le_iff]
  omega

/- The leaves that are written as they should be. -/
theorem small_iff (leaf : Leaf) : leaf.Small ↔ leaf.Coded ∧ leaf.payload = leaf.content := by
  cases leaf with
  | WebmUnsigned mId mValue =>
    refine (and_iff_left ?_).symm
    show serializeCodedUnsigned mValue.toNat = _
    unfold serializeCodedUnsigned
    rw [sizeOf_eq mValue.isLt]
    exact rfl
  | WebmString mId mStr hStr => exact (and_iff_left rfl).symm
  | WebmBinary mId mRef => exact (and_iff_left rfl).symm
  | WebmSimpleBlock mTrackNum mRelTimecode mKey mRef =>
    constructor
    · rintro ⟨hSize, hPos, hLess⟩
      have hNumber : (mTrackNum.toInt % 2 ^ 64).toNat + 1 < 2 ^ 28 := by
        omega
      exact ⟨⟨hSize, hNumber⟩, (block_payload_iff hNumber).mpr ⟨hPos, hLess⟩⟩
    · rintro ⟨⟨hSize, hNumber⟩, hPayload⟩
      exact ⟨hSize, (block_payload_iff hNumber).mp hPayload⟩
  | EbmlVoid totalSize hSize =>
    refine (and_iff_left ?_).symm
    show List.replicate (voidSize totalSize).toNat 0 = _
    rw [voidSize_toNat hSize]
    exact rfl

end Leaf

section Views

variable {good coded : Leaf → Prop} {view other : Leaf → List Byte}

mutual

/- What holds of every leaf, and makes two views the same. -/
theorem WebmElement.every_iff (hLeaf : ∀ leaf, good leaf ↔ coded leaf ∧ view leaf = other leaf) :
    (e : WebmElement) → (e.Every good ↔ e.Every coded ∧ e.treeOf view = e.treeOf other)
| .leaf leaf => by
  unfold WebmElement.Every WebmElement.treeOf
  rw [hLeaf leaf, Tree.leaf.injEq]
  exact and_congr_right fun _ => (and_iff_right rfl).symm
| .WebmMaster mId mChildren => by
  unfold WebmElement.Every WebmElement.treeOf
  rw [every_iff_children hLeaf mChildren, Tree.node.injEq, and_assoc]
  exact and_congr_right fun _ =>
    and_congr_right fun _ => (and_iff_right rfl).symm

theorem every_iff_children (hLeaf : ∀ leaf, good leaf ↔ coded leaf ∧ view leaf = other leaf) :
    (children : List WebmElement) →
      (AllEvery good children ↔
        AllEvery coded children ∧ treesOf view children = treesOf other children)
| [] => ⟨fun _ => ⟨trivial, rfl⟩, fun _ => trivial⟩
| child :: children => by
  unfold AllEvery treesOf
  rw [child.every_iff hLeaf, every_iff_children hLeaf children, List.cons.injEq]
  exact and_and_and_comm

end

end Views

mutual

theorem WebmElement.leaf_extent_le {leaf : Leaf} :
    (e : WebmElement) → leaf ∈ e.leaves → leaf.extent ≤ e.extent
| .leaf own => by
  intro hLeaf
  have hSame : leaf = own := List.mem_singleton.mp hLeaf
  subst hSame
  exact Nat.le_refl _
| .WebmMaster mId mChildren => by
  intro hLeaf
  have hBelow := children_leaf_extent_le mChildren hLeaf
  unfold WebmElement.extent
  omega

theorem children_leaf_extent_le {leaf : Leaf} :
    (children : List WebmElement) → leaf ∈ childLeaves children → leaf.extent ≤ extents children
| [] => fun hLeaf => absurd hLeaf List.not_mem_nil
| child :: children => by
  intro hLeaf
  unfold extents
  rcases List.mem_append.mp hLeaf with hFirst | hRest
  · exact Nat.le_add_right_of_le (child.leaf_extent_le hFirst)
  · exact Nat.le_add_left_of_le (children_leaf_extent_le children hRest)

end

/- An `EbmlVoid` takes the size that was asked for. -/
theorem void_written {totalSize : Nat} (hSize : 2 ≤ totalSize) (hBound : totalSize + 1 < 2 ^ 56) :
    ∃ void,
      (WebmElement.leaf (.EbmlVoid totalSize hSize)).serializeInto = some void ∧
        void.length = totalSize := by
  have hWritten :=
    @Leaf.written (fun _ => false) (.EbmlVoid totalSize hSize)
      rfl trivial hBound
  rcases hWritten with ⟨void, hVoid, -, hLength, -⟩
  exact ⟨void, hVoid, hLength⟩

theorem roundTrips_iff {isMaster : Nat → Bool} {e : WebmElement} (hShaped : e.Shaped isMaster)
    (hBound : e.extent + 1 < 2 ^ 56) : RoundTrips isMaster e ↔ e.Every Leaf.Small := by
  have hRead :
      ∀ bytes trees,
        (∀ rest trees, Reaches (fun fuel => readElements isMaster fuel rest) trees →
            Reaches
              (fun fuel =>
                readElements isMaster fuel (bytes ++ rest))
              (e.treeOf Leaf.payload :: trees)) →
        (Reaches (fun fuel => readElements isMaster fuel bytes) trees ↔
          trees = [e.treeOf Leaf.payload]) := by
    intro bytes trees hPrepend
    have hEmpty : Reaches (fun fuel => readElements isMaster fuel []) [] := by
      apply Reaches.succ
      exact .const _
    have hAlone := hPrepend [] [] hEmpty
    rw [List.append_nil] at hAlone
    constructor
    · intro hTrees
      exact hTrees.unique hAlone
    · rintro rfl
      exact hAlone
  rw [e.every_iff Leaf.small_iff]
  constructor
  · rintro ⟨bytes, hBytes, -, hTree, -⟩
    have hCoded := e.every_of_written hShaped hBound ⟨bytes, hBytes⟩
    rcases e.written hShaped hCoded hBound with ⟨own, hOwn, -, -, hPrepend⟩
    rw [hBytes] at hOwn
    cases hOwn
    have hSame := (hRead bytes _ hPrepend).mp hTree
    exact ⟨hCoded, (List.cons.inj hSame).1.symm⟩
  · rintro ⟨hCoded, hSame⟩
    rcases e.written hShaped hCoded hBound with ⟨bytes, hBytes, hTotal, -, hPrepend⟩
    refine ⟨bytes, hBytes, hTotal, ?_, ?_⟩
    · rw [← hSame]
      exact (hRead bytes _ hPrepend).mpr rfl
    · intro totalSize hSize hVoid
      have hBelow : totalSize ≤ e.extent := e.leaf_extent_le hVoid
      exact void_written hSize (by omega)

/- The codes of a number, of every width that is possible. -/
theorem shortest_iff {u : Nat} (hBound : u + 1 < 2 ^ 56) :
    (∃ code, encodeUnsigned u = some code ∧ Shortest u code) ↔ u + 1 < 2 ^ 28 := by
  constructor
  · rintro ⟨code, hEncode, -⟩
    by_contra hLarge
    rw [encodeUnsigned_none (by omega) (by omega)] at hEncode
    cases hEncode
  · intro hSmall
    rcases encodeUnsigned_code hSmall with ⟨code, hEncode, hCode⟩
    refine ⟨code, hEncode, width u, hCode, ?_⟩
    rintro w other ⟨hPos, -, hFits, -⟩
    exact (width_le_iff u w).mpr ⟨hPos, hFits⟩

--
-- Main Result
--

/-
  An element is written and read back exactly when all sizes have codes of up to four bytes, and all
  track numbers codes of one byte; a number is coded exactly when four bytes do.
-/
theorem ebml_codec (isMaster : Nat → Bool) (e : WebmElement) (hShaped : e.Shaped isMaster)
    (hBound : e.extent + 1 < 2 ^ 56) :
    (RoundTrips isMaster e ↔ e.Every Leaf.Small) ∧
      ∀ u, u + 1 < 2 ^ 56 →
        ((∃ code, encodeUnsigned u = some code ∧ Shortest u code) ↔ u + 1 < 2 ^ 28) :=
  ⟨roundTrips_iff hShaped hBound, fun _ hu => shortest_iff hu⟩

theorem ebml_codec_cluster :
    RoundTrips (· == Mkv.kMkvCluster.value)
      (.WebmMaster .kMkvCluster
        [.leaf (.WebmUnsigned .kMkvTimecode 1000), .leaf (.WebmSimpleBlock 1 0xFFFE true [7, 8]),
          .leaf (.EbmlVoid 12 (by decide))]) := by
  refine (ebml_codec _ _ ?_ (by decide)).1.mpr ?_
  · refine ⟨rfl, List.cons_ne_nil _ _, rfl, rfl, rfl, trivial⟩
  · have hTimecode : sizeOf 1000 + 1 < 2 ^ 28 := by decide
    exact ⟨by decide, hTimecode, ⟨by decide, by decide, by decide⟩, trivial, trivial⟩

/- A payload of this size has no code. -/
theorem binary_fiveBytes {isMaster : Nat → Bool} {mId : Mkv} {mRef : List Byte}
    (hLength : mRef.length = 2 ^ 28 - 1) :
    (WebmElement.leaf (.WebmBinary mId mRef)).extent + 1 < 2 ^ 56 ∧
      ¬ RoundTrips isMaster (.leaf (.WebmBinary mId mRef)) := by
  have hNone : encodeUnsigned mRef.length = none := by
    rw [hLength]
    exact encodeUnsigned_none (by decide) (by decide)
  constructor
  · have hExtent :
        (WebmElement.leaf (.WebmBinary mId mRef)).extent =
          sizeOf mId.value + width mRef.length + mRef.length := by
      unfold WebmElement.extent
      exact rfl
    have hWidth : width mRef.length ≤ 5 := by
      rw [width_le_iff]
      omega
    have hId := mId.isCode.2.1
    omega
  · rintro ⟨bytes, hBytes, -⟩
    unfold WebmElement.serializeInto at hBytes
    have hSize : (Leaf.WebmBinary mId mRef).serializePayloadSize = none := by
      show (encodeUnsigned mRef.length).map _ = none
      rw [hNone]
      exact rfl
    rw [hSize] at hBytes
    cases hBytes

/-
  The size of a payload that takes five bytes has no code; the shift of an `int` by 35 bits would be
  needed.
-/
theorem ebml_codec_fiveBytes :
    (WebmElement.leaf (.WebmBinary .kMkvCodecPrivate (List.replicate (2 ^ 28 - 1) 0))).Shaped
        (fun _ => false) ∧
      (WebmElement.leaf
        (.WebmBinary .kMkvCodecPrivate (List.replicate (2 ^ 28 - 1) 0))).extent + 1 < 2 ^ 56 ∧
      ¬ RoundTrips (fun _ => false)
        (.leaf (.WebmBinary .kMkvCodecPrivate (List.replicate (2 ^ 28 - 1) 0))) ∧
      encodeUnsigned (2 ^ 28 - 1) = none := by
  have hBinary :=
    @binary_fiveBytes (fun _ => false) .kMkvCodecPrivate _
      (@List.length_replicate Byte (2 ^ 28 - 1) 0)
  refine ⟨?_, hBinary.1, hBinary.2, ?_⟩
  · unfold WebmElement.Shaped
    exact rfl
  · exact encodeUnsigned_none (by decide) (by decide)

end Webm

end FrameworksAv
