import FrameworksAv.Tiff.Entries

/-
  The entries for the strips of an image (`TiffIfd::validateAndSetStripTags`).

  Main declarations:
    * `longEntry`, `stripLayout`
    * `Ifd.validateAndSetStripTags`
-/

--
-- Strips
--

namespace FrameworksAv

namespace Tiff

def TAG_IMAGEWIDTH : Tag := 0x0100
def TAG_IMAGELENGTH : Tag := 0x0101
def TAG_BITSPERSAMPLE : Tag := 0x0102
def TAG_STRIPOFFSETS : Tag := 0x0111
def TAG_SAMPLESPERPIXEL : Tag := 0x0115
def TAG_ROWSPERSTRIP : Tag := 0x0116
def TAG_STRIPBYTECOUNTS : Tag := 0x0117

/- An entry of the numbers that `data` leads to. -/
def Values.new (tag : Tag) (type : TagType) (count : Nat) (e : Endianness) (element : ElementType)
    (data : Nat → BitVec (8 * element.size))
    (hType : element.forceValidType type = true) : Values where
  mTag := tag
  mType := type
  mCount := count
  mEnd := e
  element := element
  mData := (List.range (type.elements count)).map data
  hData := by rw [List.length_map, List.length_range]
  hType := hType

/- `uncheckedBuildEntry` with `LONG` values. -/
def longEntry (tag : Tag) (values : List Nat) : Entry :=
  .values
    (.new tag .LONG values.length .UNDEFINED_ENDIAN .uint32
      (fun i => BitVec.ofNat 32 (values.getD i 0)) rfl)

/- `*getData<T>()`; there is no result without a value. -/
def Entry.first (element : ElementType) : Entry → Option Nat
| .values v =>
  if element.forceValidType v.mType then v.numbers.head?
  else none
| .subIfds _ _ => none

/- `a * b`, `a + b` of `uint32_t` -/
def mul32 (a b : Nat) : Nat := (a * b) % 2 ^ 32
def add32 (a b : Nat) : Nat := (a + b) % 2 ^ 32

/- The byte counts of the strips, and the rows of each. -/
def stripLayout (rowLengthBytes height : Nat) : Option (Nat × List Nat) :=
  if rowLengthBytes = 0 then none
  else
    let rowsPerChunk := 8192 / rowLengthBytes
    let rowsPerChunk := if rowsPerChunk = 0 then 1 else rowsPerChunk
    let actualChunkSize := mul32 rowLengthBytes rowsPerChunk
    let lastChunkRows := height % rowsPerChunk
    let lastChunkSize := mul32 lastChunkRows rowLengthBytes
    some
      (rowsPerChunk,
        List.replicate (height / rowsPerChunk) actualChunkSize ++
          if 0 < lastChunkRows then [lastChunkSize] else [])

namespace Ifd

/- Entries, until one cannot be added. -/
def addEntries (ifd : Ifd) : List Entry → Status × Ifd
| [] => (.OK, ifd)
| entry :: entries =>
  match ifd.addEntry entry with
  | (.OK, ifd) => ifd.addEntries entries
  | (_, ifd) => (.BAD_VALUE, ifd)

/- Without a result a number is read where there is none. -/
def validateAndSetStripTags (ifd : Ifd) : Option (Status × Ifd) :=
  match ifd.getEntry TAG_IMAGEWIDTH, ifd.getEntry TAG_IMAGELENGTH, ifd.getEntry TAG_SAMPLESPERPIXEL,
      ifd.getEntry TAG_BITSPERSAMPLE with
  | some widthEntry, some heightEntry, some samplesEntry, some bitsEntry =>
    (widthEntry.first .uint32).bind fun width =>
    (heightEntry.first .uint32).bind fun height =>
    (bitsEntry.first .uint16).bind fun bitsPerSample =>
    (samplesEntry.first .uint16).bind fun samplesPerPixel =>
      if bitsPerSample % 8 ≠ 0 then some (.BAD_VALUE, ifd)
      else
        let bytesPerSample := bitsPerSample / 8
        let rowLengthBytes := mul32 (mul32 bytesPerSample samplesPerPixel) width
        (stripLayout rowLengthBytes height).map fun (rowsPerChunk, byteCounts) =>
            if 65536 < mul32 rowLengthBytes rowsPerChunk then (.BAD_VALUE, ifd)
            else
              let numStrips := byteCounts.length
              match
                ifd.addEntries
                  [longEntry TAG_STRIPBYTECOUNTS byteCounts,
                    longEntry TAG_ROWSPERSTRIP [rowsPerChunk],
                    longEntry TAG_STRIPOFFSETS (List.replicate numStrips 0)]
              with
              | (.OK, ifd) =>
                (.OK,
                  { ifd with
                    mStripOffsetsInitialized := true })
              | (_, ifd) => (.BAD_VALUE, ifd)
  | _, _, _, _ => some (.BAD_VALUE, ifd)

end Ifd

end Tiff

end FrameworksAv
