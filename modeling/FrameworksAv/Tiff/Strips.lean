import FrameworksAv.Tiff.Writer
import Mathlib.Data.List.GetD
import Mathlib.Tactic.Ring

/-
  The strips of an image (`TiffIfd::validateAndSetStripTags`, `TiffIfd::setStripOffset`).

  The length of a row is computed in 32 bits: it may be zero, or smaller than it is.

  Main declarations:
    * `Ifd.setStripOffset`
    * `Covers`, `Contiguous`
    * `stripLayout_eq`, `stripOffsets_eq_iff`
    * `covers_iff`, `contiguous_iff`
-/

--
-- Offsets
--

namespace FrameworksAv

namespace Tiff

/- `getData<uint32_t>()`, as many numbers as there are. -/
def Entry.words : Entry → Option (List Nat)
| .values v => if ElementType.uint32.forceValidType v.mType then some v.numbers else none
| .subIfds _ _ => none

def Entry.getCount : Entry → Nat
| .values v => v.mCount
| .subIfds _ mIfds => mIfds.length

/- The loop of `setStripOffset`. -/
def stripOffsets : Nat → List Nat → List Nat
| _, [] => []
| offset, byteCount :: byteCounts => offset :: stripOffsets (add32 offset byteCount) byteCounts

namespace Ifd

/- Without a result the byte counts are no 32-bit numbers. -/
def setStripOffset (ifd : Ifd) (offset : Nat) : Option (Status × Ifd) :=
  match ifd.getEntry TAG_STRIPOFFSETS, ifd.getEntry TAG_STRIPBYTECOUNTS with
  | some oldOffsets, some stripByteCounts =>
    if oldOffsets.getCount ≠ stripByteCounts.getCount then some (.BAD_VALUE, ifd)
    else stripByteCounts.words.map fun byteCounts =>
      let newOffsets := stripOffsets offset (byteCounts.take oldOffsets.getCount)
      match ifd.addEntry (longEntry TAG_STRIPOFFSETS newOffsets) with
      | (.OK, ifd) => (.OK, ifd)
      | (_, ifd) => (.BAD_VALUE, ifd)
  | _, _ => some (.BAD_VALUE, ifd)

def words (ifd : Ifd) (tag : Tag) : Option (List Nat) :=
  (ifd.getEntry tag).bind Entry.words

end Ifd

/- Every strip starts where the one in front of it ends. -/
def placements : Nat → List Nat → List Nat
| _, [] => []
| offset, byteCount :: byteCounts => offset :: placements (offset + byteCount) byteCounts

def Contiguous (ifd : Ifd) (offset : Nat) : Prop :=
  ∃ byteCounts,
    ifd.words TAG_STRIPBYTECOUNTS = some byteCounts ∧
      ifd.words TAG_STRIPOFFSETS = some (placements offset byteCounts)

/- Offsets are right as long as the last strip starts below 2^32. -/
theorem stripOffsets_eq_iff {offset : Nat} (byteCounts : List Nat) (hOffset : offset < 2 ^ 32) :
    stripOffsets offset byteCounts = placements offset byteCounts ↔
      offset + byteCounts.dropLast.sum < 2 ^ 32 := by
  induction byteCounts generalizing offset with
  | nil => exact iff_of_true rfl hOffset
  | cons byteCount byteCounts ih =>
    cases byteCounts with
    | nil => exact iff_of_true rfl hOffset
    | cons next byteCounts =>
      rw [stripOffsets, placements, List.cons.injEq, List.dropLast_cons_cons, List.sum_cons,
        ← Nat.add_assoc]
      by_cases hFits : offset + byteCount < 2 ^ 32
      · rw [add32, Nat.mod_eq_of_lt hFits, ih hFits]
        exact ⟨fun h => h.2, fun h => ⟨rfl, h⟩⟩
      · constructor
        · rintro ⟨-, hRest⟩
          rw [stripOffsets, placements, List.cons.injEq, add32] at hRest
          omega
        · intro hLess
          omega

theorem stripOffsets_lt {offset : Nat} (byteCounts : List Nat) (hOffset : offset < 2 ^ 32) :
    ∀ start ∈ stripOffsets offset byteCounts, start < 2 ^ 32 := by
  induction byteCounts generalizing offset with
  | nil => exact nofun
  | cons byteCount byteCounts ih =>
    exact List.forall_mem_cons.mpr ⟨hOffset, ih (Nat.mod_lt _ (by decide))⟩

--
-- Rows
--

/- The rows of the strips: all but the last one have the same number of them. -/
def stripRows (rowsPerStrip height : Nat) : List Nat :=
  List.replicate (height / rowsPerStrip) rowsPerStrip ++
    if 0 < height % rowsPerStrip then [height % rowsPerStrip] else []

theorem stripRows_sum (rowsPerStrip height : Nat) : (stripRows rowsPerStrip height).sum = height := by
  have hDivide := Nat.div_add_mod' height rowsPerStrip
  unfold stripRows
  rw [List.sum_append, List.sum_replicate_nat]
  split
  · rw [List.sum_singleton, hDivide]
  · rw [List.sum_nil]
    omega

theorem stripRows_bounds {rowsPerStrip : Nat} (height : Nat) (hPositive : 0 < rowsPerStrip) :
    ∀ rows ∈ stripRows rowsPerStrip height, 0 < rows ∧ rows ≤ rowsPerStrip := by
  have hLast := Nat.mod_lt height hPositive
  intro rows hMember
  rcases List.mem_append.mp hMember with hFull | hRest
  · rw [(List.mem_replicate.mp hFull).2]
    exact ⟨hPositive, Nat.le_refl _⟩
  · split at hRest
    · rw [List.mem_singleton.mp hRest]
      exact ⟨by assumption, Nat.le_of_lt hLast⟩
    · cases hRest

theorem stripRows_sum_mul (rowsPerStrip height row : Nat) :
    ((stripRows rowsPerStrip height).map (· * row)).sum = height * row := by
  conv_rhs => rw [← stripRows_sum rowsPerStrip height]
  generalize stripRows rowsPerStrip height = rows
  induction rows with
  | nil => exact (Nat.zero_mul row).symm
  | cons n rows ih => rw [List.map_cons, List.sum_cons, List.sum_cons, ih, Nat.add_mul]

/- About 8 KiB, and one row at least. -/
def rowsPerChunk (rowLengthBytes : Nat) : Nat :=
  if 8192 / rowLengthBytes = 0 then 1 else 8192 / rowLengthBytes

/- Where the last strip begins behind the first one. -/
def lastStrip (row height : Nat) : Nat :=
  (height - 1) / rowsPerChunk row * rowsPerChunk row * row

theorem stripRows_dropLast_eq {rowsPerStrip : Nat} (height : Nat) (hPositive : 0 < rowsPerStrip) :
    (stripRows rowsPerStrip height).dropLast =
      List.replicate ((height - 1) / rowsPerStrip) rowsPerStrip := by
  have hDivide := Nat.div_add_mod' height rowsPerStrip
  have hLast := Nat.mod_lt height hPositive
  unfold stripRows
  split
  · rw [List.dropLast_concat]
    congr 1
    exact (Nat.div_eq_of_lt_le (by omega) (by rw [Nat.add_mul, Nat.one_mul]; omega)).symm
  · rw [List.append_nil, List.dropLast_replicate]
    congr 1
    by_cases hZero : height / rowsPerStrip = 0
    · have hHeight : height = 0 := by
        rw [hZero, Nat.zero_mul] at hDivide
        omega
      rw [hHeight, Nat.zero_sub, Nat.zero_div]
    · have hOne : (height / rowsPerStrip - 1 + 1) * rowsPerStrip = height := by
        rw [Nat.sub_add_cancel (Nat.pos_of_ne_zero hZero)]
        omega
      rw [Nat.add_mul, Nat.one_mul] at hOne
      exact (Nat.div_eq_of_lt_le (by omega) (by rw [Nat.add_mul, Nat.one_mul]; omega)).symm

theorem dropLast_sum {row : Nat} (height : Nat) (hPositive : 0 < rowsPerChunk row) :
    ((stripRows (rowsPerChunk row) height).map (· * row)).dropLast.sum = lastStrip row height := by
  rw [← List.map_dropLast, stripRows_dropLast_eq height hPositive, List.map_replicate,
    List.sum_replicate_nat, lastStrip, Nat.mul_assoc]

theorem rowsPerChunk_bounds {rowLengthBytes : Nat} (hRow : rowLengthBytes < 2 ^ 32) :
    0 < rowsPerChunk rowLengthBytes ∧ rowsPerChunk rowLengthBytes < 2 ^ 32 ∧
      rowLengthBytes * rowsPerChunk rowLengthBytes < 2 ^ 32 := by
  have hQuotient := Nat.mul_div_le 8192 rowLengthBytes
  have hLe := Nat.div_le_self 8192 rowLengthBytes
  unfold rowsPerChunk
  generalize 8192 / rowLengthBytes = quotient at *
  split
  · omega
  · omega

/- The byte counts of a row length that is not zero. -/
theorem stripLayout_eq {rowLengthBytes : Nat} (height : Nat) (hPositive : rowLengthBytes ≠ 0)
    (hRow : rowLengthBytes < 2 ^ 32) :
    stripLayout rowLengthBytes height =
      some
        (rowsPerChunk rowLengthBytes,
          (stripRows (rowsPerChunk rowLengthBytes) height).map (· * rowLengthBytes)) := by
  rcases rowsPerChunk_bounds hRow with ⟨hRows, -, hChunk⟩
  have hLast : height % rowsPerChunk rowLengthBytes * rowLengthBytes < 2 ^ 32 := by
    apply Nat.lt_of_le_of_lt _ hChunk
    rw [Nat.mul_comm]
    exact Nat.mul_le_mul_left _ (Nat.le_of_lt (Nat.mod_lt _ hRows))
  unfold stripLayout
  rw [if_neg hPositive]
  change some (rowsPerChunk rowLengthBytes, _) = _
  congr 2
  unfold stripRows
  rw [List.map_append, List.map_replicate]
  congr 1
  · change List.replicate _ (mul32 rowLengthBytes (rowsPerChunk rowLengthBytes)) = _
    rw [mul32, Nat.mod_eq_of_lt hChunk, Nat.mul_comm]
    exact rfl
  · change (if 0 < height % rowsPerChunk rowLengthBytes then
      [mul32 (height % rowsPerChunk rowLengthBytes) rowLengthBytes] else []) = _
    rw [mul32, Nat.mod_eq_of_lt hLast]
    split
    · exact rfl
    · exact rfl

--
-- Entries of Strips
--

theorem longEntry_tag (tag : Tag) (values : List Nat) : (longEntry tag values).tag = tag := rfl

theorem longEntry_words (tag : Tag) {values : List Nat} (hFits : ∀ value ∈ values, value < 2 ^ 32) :
    (longEntry tag values).words = some values := by
  have hNumbers :
      ((List.range values.length).map (fun i => BitVec.ofNat 32 (values.getD i 0))).map
        BitVec.toNat = values := by
    apply List.ext_getElem
    · rw [List.length_map, List.length_map, List.length_range]
    · intro i hi hi'
      rw [List.getElem_map, List.getElem_map, List.getElem_range, BitVec.toNat_ofNat,
        List.getD_eq_getElem _ _ hi']
      exact Nat.mod_eq_of_lt (hFits _ (List.getElem_mem hi'))
  exact congrArg some hNumbers

theorem Ifd.words_longEntry {ifd : Ifd} {tag : Tag} {values : List Nat}
    (hEntry : ifd.getEntry tag = some (longEntry tag values))
    (hFits : ∀ value ∈ values, value < 2 ^ 32) : ifd.words tag = some values := by
  rw [Ifd.words, hEntry, Option.bind_some, longEntry_words tag hFits]

theorem Ifd.getEntry_addEntry {ifd next : Ifd} {entry : Entry}
    (hAdd : ifd.addEntry entry = (.OK, next)) (tag : Tag) :
    next.getEntry tag = if tag = entry.tag then some entry else ifd.getEntry tag := by
  unfold Ifd.addEntry at hAdd
  split at hAdd
  · cases hAdd
  · cases hAdd
    exact KeyedVector.lookup_add _ _ _ _

/- Three entries with three tags: every one is there. -/
theorem Ifd.getEntry_addEntries {ifd next : Ifd} {first second third : Entry}
    (hAdd : ifd.addEntries [first, second, third] = (.OK, next)) (hFirst : first.tag ≠ second.tag)
    (hSecond : second.tag ≠ third.tag) (hThird : first.tag ≠ third.tag) :
    next.getEntry first.tag = some first ∧ next.getEntry second.tag = some second ∧
      next.getEntry third.tag = some third := by
  unfold Ifd.addEntries at hAdd
  split at hAdd
  · rename_i one hOne
    unfold Ifd.addEntries at hAdd
    split at hAdd
    · rename_i two hTwo
      unfold Ifd.addEntries at hAdd
      split at hAdd
      · rename_i three hThree
        cases hAdd
        simp only [Ifd.getEntry_addEntry hThree, Ifd.getEntry_addEntry hTwo, Ifd.getEntry_addEntry hOne,
          if_neg hFirst, if_neg hSecond, if_neg hThird, if_true, and_self]
      · cases hAdd
    · cases hAdd
  · cases hAdd

/- The four fields of an image. -/
structure Image (ifd : Ifd) (width height bitsPerSample samplesPerPixel : Nat) : Prop where
  width : (ifd.getEntry TAG_IMAGEWIDTH).bind (Entry.first .uint32) = some width
  height : (ifd.getEntry TAG_IMAGELENGTH).bind (Entry.first .uint32) = some height
  bitsPerSample : (ifd.getEntry TAG_BITSPERSAMPLE).bind (Entry.first .uint16) = some bitsPerSample
  samplesPerPixel :
    (ifd.getEntry TAG_SAMPLESPERPIXEL).bind (Entry.first .uint16) = some samplesPerPixel

/- The bytes of a row, as many as there are. -/
def rowLength (width bitsPerSample samplesPerPixel : Nat) : Nat :=
  bitsPerSample / 8 * samplesPerPixel * width

/-
  Every strip has some whole rows in at most 64 KiB, all but the last one as many as the entry says,
  and all together have `total` bytes.
-/
structure Covers (ifd : Ifd) (rowLength total : Nat) (rows : List Nat) (perStrip : Nat) : Prop where
  rowsPerStrip : ifd.words TAG_ROWSPERSTRIP = some [perStrip]
  byteCounts : ifd.words TAG_STRIPBYTECOUNTS = some (rows.map (· * rowLength))
  offsets : (ifd.words TAG_STRIPOFFSETS).map List.length = some rows.length
  positive : ∀ n ∈ rows, 0 < n
  limit : ∀ n ∈ rows, n * rowLength ≤ 65536
  full : ∀ n ∈ rows.dropLast, n = perStrip
  sum : (rows.map (· * rowLength)).sum = total

section Strips

variable {ifd stripped : Ifd} {width height bitsPerSample samplesPerPixel : Nat}

/- By the row length in 32 bits. -/
theorem validateAndSetStripTags_eq
    (hImage : Image ifd width height bitsPerSample samplesPerPixel)
    (hAligned : bitsPerSample % 8 = 0) :
    ifd.validateAndSetStripTags =
      let row := rowLength width bitsPerSample samplesPerPixel % 2 ^ 32
      (stripLayout row height).map fun (rowsPerChunk, byteCounts) =>
        if 65536 < mul32 row rowsPerChunk then (.BAD_VALUE, ifd)
        else
          match
            ifd.addEntries
              [longEntry TAG_STRIPBYTECOUNTS byteCounts, longEntry TAG_ROWSPERSTRIP [rowsPerChunk],
                longEntry TAG_STRIPOFFSETS (List.replicate byteCounts.length 0)]
          with
          | (.OK, ifd) => (.OK, { ifd with mStripOffsetsInitialized := true })
          | (_, ifd) => (.BAD_VALUE, ifd) := by
  rcases Option.bind_eq_some_iff.mp hImage.width with ⟨widthEntry, hWidthEntry, hWidth⟩
  rcases Option.bind_eq_some_iff.mp hImage.height with ⟨heightEntry, hHeightEntry, hHeight⟩
  rcases Option.bind_eq_some_iff.mp hImage.bitsPerSample with ⟨bitsEntry, hBitsEntry, hBits⟩
  rcases Option.bind_eq_some_iff.mp hImage.samplesPerPixel with
    ⟨samplesEntry, hSamplesEntry, hSamples⟩
  have hRow :
      mul32 (mul32 (bitsPerSample / 8) samplesPerPixel) width =
        rowLength width bitsPerSample samplesPerPixel % 2 ^ 32 := by
    rw [mul32, mul32, Nat.mod_mul_mod, rowLength]
  unfold Ifd.validateAndSetStripTags
  simp only [hWidthEntry, hHeightEntry, hBitsEntry, hSamplesEntry, hWidth, hHeight, hBits, hSamples,
    Option.bind_some, hAligned, hRow]
  exact if_neg (not_not.mpr rfl)

theorem validateAndSetStripTags_unaligned
    (hImage : Image ifd width height bitsPerSample samplesPerPixel)
    (hUnaligned : bitsPerSample % 8 ≠ 0) :
    ifd.validateAndSetStripTags = some (.BAD_VALUE, ifd) := by
  rcases Option.bind_eq_some_iff.mp hImage.width with ⟨widthEntry, hWidthEntry, hWidth⟩
  rcases Option.bind_eq_some_iff.mp hImage.height with ⟨heightEntry, hHeightEntry, hHeight⟩
  rcases Option.bind_eq_some_iff.mp hImage.bitsPerSample with ⟨bitsEntry, hBitsEntry, hBits⟩
  rcases Option.bind_eq_some_iff.mp hImage.samplesPerPixel with
    ⟨samplesEntry, hSamplesEntry, hSamples⟩
  unfold Ifd.validateAndSetStripTags
  simp only [hWidthEntry, hHeightEntry, hBitsEntry, hSamplesEntry, hWidth, hHeight, hBits, hSamples,
    Option.bind_some]
  exact if_pos hUnaligned

/- Without a row length there is a division by zero. -/
theorem validateAndSetStripTags_isSome
    (hImage : Image ifd width height bitsPerSample samplesPerPixel) :
    ifd.validateAndSetStripTags.isSome ↔
      bitsPerSample % 8 ≠ 0 ∨ rowLength width bitsPerSample samplesPerPixel % 2 ^ 32 ≠ 0 := by
  by_cases hAligned : bitsPerSample % 8 = 0
  · rw [validateAndSetStripTags_eq hImage hAligned]
    dsimp only
    rw [Option.isSome_map]
    generalize rowLength width bitsPerSample samplesPerPixel % 2 ^ 32 = row
    by_cases hZero : row = 0
    · rw [hZero, stripLayout, if_pos rfl]
      simp [hAligned]
    · rw [stripLayout, if_neg hZero]
      exact iff_of_true rfl (.inr hZero)
  · rw [validateAndSetStripTags_unaligned hImage hAligned]
    exact iff_of_true rfl (.inl hAligned)

/- The entries of the strips, where the status is good. -/
theorem validateAndSetStripTags_ok
    (hImage : Image ifd width height bitsPerSample samplesPerPixel)
    (hStrips : ifd.validateAndSetStripTags = some (.OK, stripped)) :
    bitsPerSample % 8 = 0 ∧ ∃ row,
      row = rowLength width bitsPerSample samplesPerPixel % 2 ^ 32 ∧ row ≠ 0 ∧
        row * rowsPerChunk row ≤ 65536 ∧
        stripped.words TAG_ROWSPERSTRIP = some [rowsPerChunk row] ∧
        ∃ counts,
          counts = (stripRows (rowsPerChunk row) height).map (· * row) ∧
            (∀ count ∈ counts, count < 2 ^ 32) ∧
            stripped.getEntry TAG_STRIPBYTECOUNTS = some (longEntry TAG_STRIPBYTECOUNTS counts) ∧
            stripped.getEntry TAG_STRIPOFFSETS =
              some (longEntry TAG_STRIPOFFSETS (List.replicate counts.length 0)) := by
  have hAligned : bitsPerSample % 8 = 0 := by
    by_contra hNot
    rw [validateAndSetStripTags_unaligned hImage hNot] at hStrips
    cases hStrips
  have hSome := (validateAndSetStripTags_isSome hImage).mp (by rw [hStrips]; rfl)
  have hPositive := hSome.resolve_left (not_not.mpr hAligned)
  have hRow := Nat.mod_lt (rowLength width bitsPerSample samplesPerPixel) (Nat.two_pow_pos 32)
  rw [validateAndSetStripTags_eq hImage hAligned] at hStrips
  generalize rowLength width bitsPerSample samplesPerPixel % 2 ^ 32 = row at *
  rcases rowsPerChunk_bounds hRow with ⟨hRows, hRowsFit, hChunk⟩
  dsimp only at hStrips
  rw [stripLayout_eq height hPositive hRow, Option.map_some, Option.some.injEq, mul32,
    Nat.mod_eq_of_lt hChunk] at hStrips
  dsimp only at hStrips
  split at hStrips
  · cases hStrips
  rename_i hLimit
  split at hStrips
  · rename_i added hAdded
    cases hStrips
    rcases Ifd.getEntry_addEntries hAdded (show TAG_STRIPBYTECOUNTS ≠ TAG_ROWSPERSTRIP by decide)
        (show TAG_ROWSPERSTRIP ≠ TAG_STRIPOFFSETS by decide)
        (show TAG_STRIPBYTECOUNTS ≠ TAG_STRIPOFFSETS by decide) with
      ⟨hCountsEntry, hRowsEntry, hOffsetsEntry⟩
    have hCounts : ∀ count ∈ (stripRows (rowsPerChunk row) height).map (· * row), count < 2 ^ 32 := by
      intro count hMember
      rcases List.mem_map.mp hMember with ⟨n, hn, rfl⟩
      apply Nat.lt_of_le_of_lt _ hChunk
      rw [Nat.mul_comm]
      exact Nat.mul_le_mul_left _ (stripRows_bounds height hRows n hn).2
    exact
      ⟨hAligned, row, rfl, hPositive, Nat.not_lt.mp hLimit,
        Ifd.words_longEntry hRowsEntry (by simpa using hRowsFit), _, rfl, hCounts, hCountsEntry,
        hOffsetsEntry⟩
  · cases hStrips

/- The bits of an image whose samples are whole bytes. -/
theorem imageLength_eq (width height samplesPerPixel : Nat) {bitsPerSample : Nat}
    (hAligned : bitsPerSample % 8 = 0) :
    height * width * samplesPerPixel * bitsPerSample / 8 =
      height * rowLength width bitsPerSample samplesPerPixel := by
  rw [Nat.mul_div_assoc _ (Nat.dvd_of_mod_eq_zero hAligned), rowLength]
  ring

theorem covers_iff (hImage : Image ifd width height bitsPerSample samplesPerPixel)
    (hStrips : ifd.validateAndSetStripTags = some (.OK, stripped)) :
    (∃ rows perStrip,
        Covers stripped (rowLength width bitsPerSample samplesPerPixel)
          (height * width * samplesPerPixel * bitsPerSample / 8) rows perStrip) ↔
      rowLength width bitsPerSample samplesPerPixel < 2 ^ 32 ∨ height = 0 := by
  rcases validateAndSetStripTags_ok hImage hStrips with
    ⟨hAligned, row, hRow, hPositive, hLimit, hPerStrip, _, rfl, hFit, hCountsEntry, hOffsetsEntry⟩
  have hCounts := Ifd.words_longEntry hCountsEntry hFit
  have hOffsets := Ifd.words_longEntry hOffsetsEntry (by simp)
  have hLess := hRow ▸ Nat.mod_lt _ (Nat.two_pow_pos 32)
  rw [imageLength_eq width height samplesPerPixel hAligned]
  generalize rowLength width bitsPerSample samplesPerPixel = length at *
  constructor
  · rintro ⟨rows, perStrip, hCovers⟩
    have hSum := hCovers.sum
    rw [← Option.some.inj (hCounts.symm.trans hCovers.byteCounts), stripRows_sum_mul] at hSum
    by_cases hZero : height = 0
    · exact .inr hZero
    · rw [← Nat.eq_of_mul_eq_mul_left (Nat.pos_of_ne_zero hZero) hSum]
      exact .inl hLess
  · rintro (hFits | hZero)
    · have hSame : length = row := by rw [hRow, Nat.mod_eq_of_lt hFits]
      have hRows := stripRows_bounds height (rowsPerChunk_bounds hLess).1
      subst hSame
      refine ⟨_, _, hPerStrip, hCounts, ?_, fun n hn => (hRows n hn).1, ?_, ?_, ?_⟩
      · rw [hOffsets, Option.map_some, List.length_replicate, List.length_map]
      · intro n hn
        apply Nat.le_trans _ hLimit
        rw [Nat.mul_comm]
        exact Nat.mul_le_mul_left _ (hRows n hn).2
      · intro n hn
        rw [stripRows_dropLast_eq height (rowsPerChunk_bounds hLess).1] at hn
        exact (List.mem_replicate.mp hn).2
      · exact stripRows_sum_mul _ height _
    · subst hZero
      have hNone : stripRows (rowsPerChunk row) 0 = [] := by
        rw [stripRows, Nat.zero_div, Nat.zero_mod]
        rfl
      rw [hNone, List.map_nil] at hCounts hOffsets
      refine ⟨[], _, hPerStrip, hCounts, ?_, nofun, nofun, nofun, ?_⟩
      · rw [hOffsets]
        rfl
      · rw [Nat.zero_mul]
        rfl

/- Offsets are set as the byte counts say, in 32 bits. -/
theorem setStripOffset_ok {placed : Ifd} {byteCounts values : List Nat} {offset : Nat}
    (hFit : ∀ count ∈ byteCounts, count < 2 ^ 32) (hOffset : offset < 2 ^ 32)
    (hCounts : stripped.getEntry TAG_STRIPBYTECOUNTS = some (longEntry TAG_STRIPBYTECOUNTS byteCounts))
    (hOffsets : stripped.getEntry TAG_STRIPOFFSETS = some (longEntry TAG_STRIPOFFSETS values))
    (hLength : values.length = byteCounts.length)
    (hPlaced : stripped.setStripOffset offset = some (.OK, placed)) :
    placed.words TAG_STRIPBYTECOUNTS = some byteCounts ∧
      placed.words TAG_STRIPOFFSETS = some (stripOffsets offset byteCounts) := by
  unfold Ifd.setStripOffset at hPlaced
  rw [hCounts, hOffsets] at hPlaced
  dsimp only at hPlaced
  rw [longEntry_words _ hFit, Option.map_some, show (longEntry TAG_STRIPOFFSETS values).getCount =
    byteCounts.length from hLength, List.take_length] at hPlaced
  split at hPlaced
  · cases hPlaced
  · split at hPlaced
    · rename_i next hNext
      cases hPlaced
      constructor
      · apply Ifd.words_longEntry _ hFit
        rw [Ifd.getEntry_addEntry hNext, longEntry_tag, if_neg (by decide), hCounts]
      · apply Ifd.words_longEntry _ (stripOffsets_lt _ hOffset)
        rw [Ifd.getEntry_addEntry hNext, longEntry_tag, if_pos rfl]
    · cases hPlaced

theorem contiguous_iff {placed : Ifd} {offset : Nat} (hOffset : offset < 2 ^ 32)
    (hImage : Image ifd width height bitsPerSample samplesPerPixel)
    (hStrips : ifd.validateAndSetStripTags = some (.OK, stripped))
    (hPlaced : stripped.setStripOffset offset = some (.OK, placed)) :
    Contiguous placed offset ↔
      offset + lastStrip (rowLength width bitsPerSample samplesPerPixel % 2 ^ 32) height < 2 ^ 32 := by
  rcases validateAndSetStripTags_ok hImage hStrips with
    ⟨-, row, hRow, -, -, -, counts, hLayout, hFit, hCountsEntry, hOffsetsEntry⟩
  rcases setStripOffset_ok hFit hOffset hCountsEntry hOffsetsEntry List.length_replicate hPlaced
    with ⟨hCounts, hOffsets⟩
  have hLess := hRow ▸ Nat.mod_lt _ (Nat.two_pow_pos 32)
  rw [← hRow, ← dropLast_sum height (rowsPerChunk_bounds hLess).1, ← hLayout,
    ← stripOffsets_eq_iff counts hOffset]
  constructor
  · rintro ⟨found, hFound, hContiguous⟩
    cases hCounts.symm.trans hFound
    exact Option.some.inj (hOffsets.symm.trans hContiguous)
  · intro hEq
    exact ⟨counts, hCounts, hEq ▸ hOffsets⟩

end Strips

/-
  Zero does not divide, the strips cover the image, and each starts where the one in front of it
  ends, exactly as long as 32 bits hold the length of a row and the offset of the last strip.
-/
theorem strips_cover_iff {ifd : Ifd} {width height bitsPerSample samplesPerPixel : Nat}
    (hImage : Image ifd width height bitsPerSample samplesPerPixel) :
    (ifd.validateAndSetStripTags.isSome ↔
      bitsPerSample % 8 ≠ 0 ∨ rowLength width bitsPerSample samplesPerPixel % 2 ^ 32 ≠ 0) ∧
    ∀ stripped, ifd.validateAndSetStripTags = some (.OK, stripped) →
      ((∃ rows perStrip,
        Covers stripped (rowLength width bitsPerSample samplesPerPixel)
          (height * width * samplesPerPixel * bitsPerSample / 8) rows perStrip) ↔
        rowLength width bitsPerSample samplesPerPixel < 2 ^ 32 ∨ height = 0) ∧
      ∀ offset placed, offset < 2 ^ 32 → stripped.setStripOffset offset = some (.OK, placed) →
        (Contiguous placed offset ↔
          offset + lastStrip (rowLength width bitsPerSample samplesPerPixel % 2 ^ 32) height <
            2 ^ 32) :=
  ⟨validateAndSetStripTags_isSome hImage, fun _ hStrips =>
    ⟨covers_iff hImage hStrips, fun _ _ hOffset hPlaced =>
      contiguous_iff hOffset hImage hStrips hPlaced⟩⟩

def shortEntry (tag : Tag) (value : Nat) : Entry :=
  .values (.new tag .SHORT 1 .UNDEFINED_ENDIAN .uint16 (fun _ => BitVec.ofNat 16 value) rfl)

def imageIfd (width height bitsPerSample samplesPerPixel : Nat) : Ifd :=
  ((Ifd.new 0).addEntries
    [longEntry TAG_IMAGEWIDTH [width], longEntry TAG_IMAGELENGTH [height],
      shortEntry TAG_BITSPERSAMPLE bitsPerSample,
      shortEntry TAG_SAMPLESPERPIXEL samplesPerPixel]).2

/- Three rows of two pixels: one strip, of six bytes. -/
theorem strips_cover_iff_pixels :
    Image (imageIfd 2 3 8 1) 2 3 8 1 ∧ (imageIfd 2 3 8 1).validateAndSetStripTags.isSome :=
  have hImage : Image (imageIfd 2 3 8 1) 2 3 8 1 := ⟨rfl, rfl, rfl, rfl⟩
  ⟨hImage, (strips_cover_iff hImage).1.mpr (.inr (by decide))⟩

/- No pixels in a row: zero divides. 65534 of 2^32 + 65534 bytes. -/
theorem strips_not_covered :
    (imageIfd 0 3 8 1).validateAndSetStripTags = none ∧
      rowLength 32769 16 65535 = 2 ^ 32 + 65534 ∧
        ((imageIfd 32769 1 16 65535).validateAndSetStripTags.map fun (status, stripped) =>
          (status, stripped.words TAG_STRIPBYTECOUNTS)) = some (.OK, some [65534]) := by
  decide

end Tiff

end FrameworksAv
