import ViOS.Config
import ViOS.Fs.Fat16Layout
import ViOS.Lib.Grid

/-! # Reading bitmaps

`bmp_img_load` turns a bitmap file in memory into an array of pixels.  It checks that the
first header is there, but not the second one, and it takes the pixel rows from the end of
the file of a picture with a positive height.

* `bmpImgLoad` — the code, with the offsets it reads and the pixels it writes.
* `EncodesBmp`, `LoadsRaster` — the file of a picture, and the image that shows it.
* `loadsRaster_iff` — the pictures that are loaded as they are.
* `BmpSafe`, `bmpSafe_iff` — the files that are read without a fault.
-/

namespace ViOS.Graphics

open ViOS.Lib
open ViOS.Fs (littleEndian)

/-! ## The code -/

/-- `union image_pixel_data`. -/
structure ImagePixelData where
  r : UInt8
  g : UInt8
  b : UInt8
  a : UInt8
  deriving DecidableEq

/-- `struct image`. -/
structure Image where
  width : Nat
  height : Nat
  data : Nat → ImagePixelData

/-- The bytes in and around a buffer, by their offset from its start. -/
abbrev FileBytes := Int → UInt8

/-- An `int` as a `size_t`. -/
def sizeT (value : Int) : Nat := (value % 2 ^ 64).toNat

/-- `struct bmp_header`: the fields that are read. -/
structure BmpHeader where
  bfType : UInt8 × UInt8
  bfOffbits : Nat

/-- `struct bmp_image_header`: the fields that are read. -/
structure BmpImageHeader where
  biWidth : Int
  biHeight : Int
  biBitsPerPixel : Nat
  biCompression : Nat

def BmpHeader.ofBytes (memory : FileBytes) : BmpHeader where
  bfType := (memory 0, memory 1)
  bfOffbits := littleEndian (fun i => memory i) 10 4

def BmpImageHeader.ofBytes (memory : FileBytes) : BmpImageHeader where
  biWidth := asInt (littleEndian (fun i => memory i) 18 4)
  biHeight := asInt (littleEndian (fun i => memory i) 22 4)
  biBitsPerPixel := littleEndian (fun i => memory i) 28 2
  biCompression := littleEndian (fun i => memory i) 30 4

/-- `sizeof(struct bmp_header)`. -/
def bmpHeaderSize : Nat := 14

/-- `sizeof(struct bmp_image_header)`. -/
def bmpImageHeaderSize : Nat := 40

/-- `BMP_SIGNATURE`. -/
def bmpSignature : UInt8 × UInt8 := (0x42, 0x4d)

/-- `BMP_COMPRESSION_UNCOMPRESSED`. -/
def bmpCompressionUncompressed : Nat := 0

/-- The offsets of a field. -/
def fieldReads (offset count : Nat) : List Int := (List.range count).map fun i => ((offset + i : Nat) : Int)

/-- What a load does: the offsets it reads in the file, the size of the pixel array it allocates and the
pixels it writes there, whether the `int` of some address overflows, and the result. -/
structure BmpLoad where
  reads : List Int
  allocated : Nat
  writes : List Nat
  addressOverflow : Bool
  image : Option Image

/-- A load that returns `NULL`. -/
def BmpLoad.fails (reads : List Int) : BmpLoad := ⟨reads, 0, [], false, none⟩

/-- The numbers the loops over the rows start with. -/
structure BmpRows where
  offbits : Nat
  width : Int
  height : Int
  bottomUp : Bool

namespace BmpRows

variable (rows : BmpRows)

def rawRowSize : Nat := sizeT rows.width * 3 % addressSpace

/-- `(raw_row_size + 3) & ~3`. -/
def paddedRowSize : Nat := (rows.rawRowSize + 3) % addressSpace / 4 * 4

def pixelDataSize : Nat := sizeT rows.width * sizeT rows.height % addressSpace * 4 % addressSpace

/-- The end of the last row in the file. -/
def dataEnd : Nat := (rows.offbits + rows.paddedRowSize * sizeT rows.height % addressSpace) % addressSpace

/-- `dest_row`; the rows are below `height`, so this does not overflow. -/
def destRow (row : Nat) : Int := if rows.bottomUp then rows.height - 1 - row else row

/-- The offset of `bmp_pixel`. -/
def pixelOffset (row col : Nat) : Int :=
  rows.offbits + (row * rows.paddedRowSize % addressSpace : Nat) + toInt32 (col * 3)

def pixelIndex (row col : Nat) : Nat :=
  (sizeT (rows.destRow row) * sizeT rows.width % addressSpace + col) % addressSpace

/-- The rounds of the two loops, in their order. -/
def rounds : List (Nat × Nat) := List.range rows.height.toNat ×ˢ List.range rows.width.toNat

end BmpRows

/-- The pixel at an offset, with its alpha cleared. -/
def bmpPixel (memory : FileBytes) (offset : Int) : ImagePixelData :=
  ⟨memory (offset + 2), memory (offset + 1), memory offset, 0⟩

/-- The loops of `bmp_img_load`, on an array of zeros. -/
def loadRows (memory : FileBytes) (rows : BmpRows) : Nat → ImagePixelData :=
  rows.rounds.foldl (fun data round => Function.update data (rows.pixelIndex round.1 round.2)
    (bmpPixel memory (rows.pixelOffset round.1 round.2))) fun _ => ⟨0, 0, 0, 0⟩

/-- The fields of the headers that are read before the dimensions are checked, in their order. -/
def headerReads : List Int :=
  fieldReads 0 2 ++ fieldReads 10 4 ++ fieldReads 30 4 ++ fieldReads 28 2 ++ fieldReads 22 4 ++ fieldReads 18 4

/-- `height`, `width` and `bottom_up` as the headers give them.  The negation of the least `int` is that
number again. -/
def BmpRows.ofBytes (memory : FileBytes) : BmpRows where
  offbits := (BmpHeader.ofBytes memory).bfOffbits
  width := (BmpImageHeader.ofBytes memory).biWidth
  height := if (BmpImageHeader.ofBytes memory).biHeight > 0 then (BmpImageHeader.ofBytes memory).biHeight
    else toInt32 (-(BmpImageHeader.ofBytes memory).biHeight)
  bottomUp := (BmpImageHeader.ofBytes memory).biHeight > 0

/-- What the loops over the rows do. -/
def BmpLoad.ofRows (memory : FileBytes) (rows : BmpRows) : BmpLoad where
  reads := headerReads ++ rows.rounds.flatMap fun round =>
    [rows.pixelOffset round.1 round.2, rows.pixelOffset round.1 round.2 + 1, rows.pixelOffset round.1 round.2 + 2]
  allocated := rows.pixelDataSize
  writes := rows.rounds.map fun round => rows.pixelIndex round.1 round.2
  addressOverflow := rows.rounds.any fun round => 2 ^ 31 ≤ round.2 * 3
  image := some ⟨rows.width.toNat, rows.height.toNat, loadRows memory rows⟩

/-- `bmp_img_load`; `imgAlloc` and `dataAlloc` say whether there is memory for the image and for its
pixels. -/
def bmpImgLoad (memory : FileBytes) (size : Nat) (imgAlloc dataAlloc : Bool) : BmpLoad :=
  if size < bmpHeaderSize then .fails []
  else
    let header := BmpHeader.ofBytes memory
    if header.bfType ≠ bmpSignature then .fails (fieldReads 0 2)
    else if header.bfOffbits ≥ size then .fails (fieldReads 0 2 ++ fieldReads 10 4)
    else if ¬ imgAlloc then .fails (fieldReads 0 2 ++ fieldReads 10 4)
    else
      let imageHeader := BmpImageHeader.ofBytes memory
      if imageHeader.biCompression ≠ bmpCompressionUncompressed then
        .fails (fieldReads 0 2 ++ fieldReads 10 4 ++ fieldReads 30 4)
      else if imageHeader.biBitsPerPixel ≠ 24 then
        .fails (fieldReads 0 2 ++ fieldReads 10 4 ++ fieldReads 30 4 ++ fieldReads 28 2)
      else
        let rows := BmpRows.ofBytes memory
        if rows.width ≤ 0 ∨ rows.height ≤ 0 then .fails headerReads
        else if ¬ dataAlloc then .fails headerReads
        else if rows.dataEnd > size then .fails headerReads
        else .ofRows memory rows

/-! ## Sizes -/

theorem sizeT_of_nonneg {value : Int} (nonneg : 0 ≤ value) (small : value < 2 ^ 64) : sizeT value = value.toNat := by
  rw [sizeT, Int.emod_eq_of_lt nonneg small]

theorem toInt32_of_lt {value : Nat} (small : value < 2 ^ 31) : toInt32 value = value := by
  unfold toInt32
  omega

theorem toInt32_lt (value : Int) : toInt32 value < 2 ^ 31 := by
  unfold toInt32
  omega

theorem asInt_lt {value : Nat} (small : value < 2 ^ 32) : -2 ^ 31 ≤ asInt value ∧ asInt value < 2 ^ 31 := by
  unfold asInt
  split <;> omega

theorem littleEndian_lt (buffer : Nat → UInt8) (pos count : Nat) : littleEndian buffer pos count < 256 ^ count := by
  induction count with
  | zero => exact Nat.zero_lt_one
  | succ count ih =>
    have byte := (buffer (pos + count)).toNat_lt
    have last : 256 ^ count * (buffer (pos + count)).toNat ≤ 256 ^ count * 255 := Nat.mul_le_mul_left _ (by omega)
    rw [littleEndian, Nat.pow_succ]
    omega

/-- The dimensions that pass the checks. -/
structure BmpRows.Valid (rows : BmpRows) : Prop where
  width_pos : 0 < rows.width
  width_lt : rows.width < 2 ^ 31
  height_pos : 0 < rows.height
  height_lt : rows.height < 2 ^ 31
  offbits_lt : rows.offbits < 2 ^ 32

/-- The length of a row in a file, filled up to a multiple of four bytes. -/
def bmpStride (width : Nat) : Nat := (3 * width + 3) / 4 * 4

theorem le_bmpStride (width : Nat) : 3 * width ≤ bmpStride width := by
  unfold bmpStride
  omega

theorem BmpRows.destRow_range {rows : BmpRows} {row : Nat} (inHeight : row < rows.height.toNat) :
    0 ≤ rows.destRow row ∧ rows.destRow row < rows.height := by
  unfold destRow
  split <;> omega

namespace BmpRows.Valid

variable {rows : BmpRows} (valid : rows.Valid)

include valid

theorem sizeT_width : sizeT rows.width = rows.width.toNat := by
  have := valid.width_pos
  have := valid.width_lt
  exact sizeT_of_nonneg (by omega) (by omega)

theorem sizeT_height : sizeT rows.height = rows.height.toNat := by
  have := valid.height_pos
  have := valid.height_lt
  exact sizeT_of_nonneg (by omega) (by omega)

theorem rawRowSize_eq : rows.rawRowSize = rows.width.toNat * 3 := by
  have := valid.width_lt
  rw [rawRowSize, valid.sizeT_width, addressSpace]
  omega

theorem paddedRowSize_eq : rows.paddedRowSize = bmpStride rows.width.toNat := by
  have := valid.width_lt
  have noWrap : (rows.width.toNat * 3 + 3) % 2 ^ 64 = 3 * rows.width.toNat + 3 := by omega
  rw [paddedRowSize, valid.rawRowSize_eq, bmpStride, addressSpace, noWrap]

theorem stride_le : bmpStride rows.width.toNat ≤ 3 * 2 ^ 31 := by
  have := valid.width_lt
  unfold bmpStride
  omega

/-- The rows before one of the file's rows. -/
theorem rows_le {row : Nat} (inHeight : row ≤ rows.height.toNat) :
    row * bmpStride rows.width.toNat ≤ 2 ^ 31 * (3 * 2 ^ 31) := by
  have := valid.height_lt
  exact Nat.mul_le_mul (by omega) valid.stride_le

theorem dataEnd_eq : rows.dataEnd = rows.offbits + rows.height.toNat * bmpStride rows.width.toNat := by
  have all := valid.rows_le (Nat.le_refl _)
  have := valid.offbits_lt
  rw [dataEnd, valid.paddedRowSize_eq, valid.sizeT_height, Nat.mul_comm, addressSpace]
  omega

theorem pixels_lt : rows.width.toNat * rows.height.toNat < 2 ^ 31 * 2 ^ 31 := by
  have := valid.width_lt
  have := valid.height_lt
  exact Nat.mul_lt_mul'' (by omega) (by omega)

theorem pixelDataSize_eq : rows.pixelDataSize = rows.width.toNat * rows.height.toNat * 4 := by
  have all := valid.pixels_lt
  have noWrap : rows.width.toNat * rows.height.toNat % 2 ^ 64 = rows.width.toNat * rows.height.toNat :=
    Nat.mod_eq_of_lt (by omega)
  rw [pixelDataSize, valid.sizeT_width, valid.sizeT_height, addressSpace, noWrap]
  exact Nat.mod_eq_of_lt (by omega)

theorem pixelOffset_eq {row col : Nat} (inHeight : row < rows.height.toNat) (noOverflow : col * 3 < 2 ^ 31) :
    rows.pixelOffset row col = (rows.offbits + row * bmpStride rows.width.toNat + col * 3 : Nat) := by
  have before := valid.rows_le (Nat.le_of_lt inHeight)
  have column : toInt32 (col * 3) = (col * 3 : Nat) := toInt32_of_lt noOverflow
  rw [pixelOffset, valid.paddedRowSize_eq, column, addressSpace, Nat.mod_eq_of_lt (by omega)]
  omega

theorem pixelIndex_eq {row col : Nat} (inHeight : row < rows.height.toNat) (inWidth : col < rows.width.toNat) :
    rows.pixelIndex row col = gridIndex rows.width.toNat col (rows.destRow row).toNat := by
  obtain ⟨nonneg, below⟩ := rows.destRow_range inHeight
  have := valid.height_lt
  have all := valid.pixels_lt
  have inArray := gridIndex_lt inWidth (show (rows.destRow row).toNat < rows.height.toNat by omega)
  unfold gridIndex at inArray ⊢
  rw [pixelIndex, valid.sizeT_width, sizeT_of_nonneg nonneg (by omega), addressSpace]
  omega

end BmpRows.Valid

/-! ## The checks -/

section Checks

variable (memory : FileBytes) (size : Nat) (imgAlloc dataAlloc : Bool)

/-- The load ends before the second header is looked at. -/
def BmpRejectedEarly : Prop :=
  size < bmpHeaderSize ∨ (BmpHeader.ofBytes memory).bfType ≠ bmpSignature ∨
    size ≤ (BmpHeader.ofBytes memory).bfOffbits ∨ imgAlloc = false

instance : Decidable (BmpRejectedEarly memory size imgAlloc) := inferInstanceAs (Decidable (_ ∨ _))

/-- What is asked of the second header and of the rows. -/
structure BmpAccepted : Prop where
  uncompressed : (BmpImageHeader.ofBytes memory).biCompression = bmpCompressionUncompressed
  colors : (BmpImageHeader.ofBytes memory).biBitsPerPixel = 24
  width_pos : 0 < (BmpRows.ofBytes memory).width
  height_pos : 0 < (BmpRows.ofBytes memory).height
  allocated : dataAlloc = true
  dataFits : (BmpRows.ofBytes memory).dataEnd ≤ size

end Checks

section Branches

variable {memory : FileBytes} {size : Nat} {imgAlloc dataAlloc : Bool}

theorem mem_fieldReads {offset count : Nat} {read : Int} :
    read ∈ fieldReads offset count ↔ (offset : Int) ≤ read ∧ read < (offset + count : Nat) := by
  simp only [fieldReads, List.mem_map, List.mem_range]
  constructor
  · rintro ⟨i, inField, rfl⟩
    omega
  · rintro ⟨lower, upper⟩
    exact ⟨read.toNat - offset, by omega, by omega⟩

/-- An early rejection has read the first header at most. -/
theorem bmpImgLoad_early (early : BmpRejectedEarly memory size imgAlloc) :
    ∃ reads, bmpImgLoad memory size imgAlloc dataAlloc = .fails reads ∧
      ∀ read ∈ reads, 0 ≤ read ∧ read < (size : Int) := by
  unfold bmpImgLoad
  by_cases short : size < bmpHeaderSize
  · exact ⟨[], if_pos short, by simp⟩
  · rw [if_neg short]
    unfold bmpHeaderSize at short
    dsimp only
    split
    next foreign =>
      refine ⟨_, rfl, fun read member => ?_⟩
      rw [mem_fieldReads] at member
      omega
    next signed =>
      have firstHeader : ∀ read ∈ fieldReads 0 2 ++ fieldReads 10 4, 0 ≤ read ∧ read < (size : Int) := by
        intro read member
        rw [List.mem_append, mem_fieldReads, mem_fieldReads] at member
        omega
      split
      · exact ⟨_, rfl, firstHeader⟩
      next inFile =>
        have noMemory : imgAlloc = false := by
          rcases early with short' | foreign | behind | noMemory
          · exact absurd short' short
          · exact absurd foreign signed
          · exact absurd behind inFile
          · exact noMemory
        rw [if_pos (by simp [noMemory])]
        exact ⟨_, rfl, firstHeader⟩

/-- A later rejection has read the second header up to the compression. -/
theorem bmpImgLoad_late (late : ¬ BmpRejectedEarly memory size imgAlloc)
    (rejected : ¬ BmpAccepted memory size dataAlloc) :
    ∃ reads, bmpImgLoad memory size imgAlloc dataAlloc = .fails reads ∧ 33 ∈ reads ∧
      ∀ read ∈ reads, 0 ≤ read ∧ read < 34 := by
  unfold BmpRejectedEarly at late
  simp only [not_or, Decidable.not_not, Bool.not_eq_false] at late
  obtain ⟨long, signed, inFile, memory'⟩ := late
  unfold bmpImgLoad
  rw [if_neg long]
  dsimp only
  rw [if_neg (not_not_intro signed), if_neg inFile, if_neg (by simp [memory'])]
  have reads : ∀ read ∈ headerReads, 0 ≤ read ∧ read < 34 := by decide
  split
  · exact ⟨_, rfl, by decide, by decide⟩
  next uncompressed =>
    split
    · exact ⟨_, rfl, by decide, by decide⟩
    next colors =>
      split
      · exact ⟨_, rfl, by decide, reads⟩
      next dimensions =>
        split
        · exact ⟨_, rfl, by decide, reads⟩
        next allocated =>
          split
          · exact ⟨_, rfl, by decide, reads⟩
          next dataFits =>
            refine absurd ⟨not_not.mp uncompressed, not_not.mp colors, by omega, by omega, ?_, by omega⟩ rejected
            simpa using allocated

theorem bmpImgLoad_accepted (late : ¬ BmpRejectedEarly memory size imgAlloc)
    (accepted : BmpAccepted memory size dataAlloc) :
    bmpImgLoad memory size imgAlloc dataAlloc = .ofRows memory (BmpRows.ofBytes memory) := by
  unfold BmpRejectedEarly at late
  simp only [not_or, Decidable.not_not, Bool.not_eq_false] at late
  obtain ⟨long, signed, inFile, memory'⟩ := late
  have widthPos := accepted.width_pos
  have heightPos := accepted.height_pos
  unfold bmpImgLoad
  rw [if_neg long]
  dsimp only
  rw [if_neg (not_not_intro signed), if_neg inFile, if_neg (by simp [memory']),
    if_neg (not_not_intro accepted.uncompressed), if_neg (not_not_intro accepted.colors), if_neg (by omega),
    if_neg (by simp [accepted.allocated]), if_neg (Nat.not_lt.mpr accepted.dataFits)]

/-- The dimensions of a header have 32 bits. -/
theorem valid_ofBytes (widthPos : 0 < (BmpRows.ofBytes memory).width)
    (heightPos : 0 < (BmpRows.ofBytes memory).height) : (BmpRows.ofBytes memory).Valid where
  width_pos := widthPos
  width_lt := (asInt_lt (littleEndian_lt _ _ 4)).2
  height_pos := heightPos
  height_lt := by
    have small := asInt_lt (littleEndian_lt (fun i => memory i) 22 4)
    by_cases positive : (BmpImageHeader.ofBytes memory).biHeight > 0
    · rw [BmpRows.ofBytes, if_pos positive]
      exact small.2
    · rw [BmpRows.ofBytes, if_neg positive]
      exact toInt32_lt _
  offbits_lt := littleEndian_lt _ _ 4

end Branches

/-! ## The rows -/

section Rows

variable {memory : FileBytes} {rows : BmpRows}

theorem mem_rounds_bmp {row col : Nat} :
    (row, col) ∈ rows.rounds ↔ row < rows.height.toNat ∧ col < rows.width.toNat := by
  rw [BmpRows.rounds, List.mem_product, List.mem_range, List.mem_range]

theorem destRow_inj {row row' : Nat} (same : rows.destRow row = rows.destRow row') : row = row' := by
  unfold BmpRows.destRow at same
  split at same <;> omega

theorem loadRows_eq_revise (memory : FileBytes) (rows : BmpRows) : loadRows memory rows =
    rows.rounds.foldl (revise (fun round => rows.pixelIndex round.1 round.2)
      fun round _ => bmpPixel memory (rows.pixelOffset round.1 round.2)) fun _ => ⟨0, 0, 0, 0⟩ := rfl

theorem pixelIndex_inj (valid : rows.Valid) {round other : Nat × Nat} (isRound : round ∈ rows.rounds)
    (isOther : other ∈ rows.rounds) (same : rows.pixelIndex other.1 other.2 = rows.pixelIndex round.1 round.2) :
    other = round := by
  obtain ⟨inHeight, inWidth⟩ := mem_rounds_bmp.mp isRound
  obtain ⟨inHeight', inWidth'⟩ := mem_rounds_bmp.mp isOther
  rw [valid.pixelIndex_eq inHeight inWidth, valid.pixelIndex_eq inHeight' inWidth'] at same
  obtain ⟨sameCol, sameRow⟩ := gridIndex_inj inWidth' inWidth same
  have nonneg := (rows.destRow_range inHeight).1
  have nonneg' := (rows.destRow_range inHeight').1
  have sameDest : rows.destRow other.1 = rows.destRow round.1 := by
    rw [← Int.toNat_of_nonneg nonneg, ← Int.toNat_of_nonneg nonneg', sameRow]
  exact Prod.ext (destRow_inj sameDest) sameCol

/-- Each round writes a pixel of its own. -/
theorem loadRows_pixel (valid : rows.Valid) {row col : Nat} (inHeight : row < rows.height.toNat)
    (inWidth : col < rows.width.toNat) :
    loadRows memory rows (gridIndex rows.width.toNat col (rows.destRow row).toNat) =
      bmpPixel memory (rows.pixelOffset row col) := by
  have isRound : (row, col) ∈ rows.rounds := mem_rounds_bmp.mpr ⟨inHeight, inWidth⟩
  have nodup : rows.rounds.Nodup := List.nodup_range.product List.nodup_range
  rw [← valid.pixelIndex_eq inHeight inWidth, loadRows_eq_revise]
  exact foldl_revise_at nodup isRound rfl (fun other isOther => pixelIndex_inj valid isRound isOther) _

end Rows

/-! ## Pictures -/

/-- A picture without an alpha channel, line by line from the top. -/
structure Raster where
  width : Nat
  height : Nat
  red : Nat → Nat → UInt8
  green : Nat → Nat → UInt8
  blue : Nat → Nat → UInt8

/-- The row of a file a line of the picture is in. -/
def Raster.fileRow (raster : Raster) (topDown : Bool) (y : Nat) : Nat :=
  if topDown then y else raster.height - 1 - y

/-- A bitmap file of 24 bits a pixel.  All that is not said here may be any bytes. -/
structure EncodesBmp (raster : Raster) (topDown : Bool) (memory : FileBytes) (size : Nat) : Prop where
  signature : memory 0 = 0x42 ∧ memory 1 = 0x4d
  width : asInt (littleEndian (fun i => memory i) 18 4) = raster.width
  height : asInt (littleEndian (fun i => memory i) 22 4) = if topDown then -(raster.height : Int) else raster.height
  colors : littleEndian (fun i => memory i) 28 2 = 24
  uncompressed : littleEndian (fun i => memory i) 30 4 = 0
  behindHeaders : 54 ≤ littleEndian (fun i => memory i) 10 4
  inFile : littleEndian (fun i => memory i) 10 4 + raster.height * bmpStride raster.width ≤ size
  pixels : ∀ x < raster.width, ∀ y < raster.height,
    memory (littleEndian (fun i => memory i) 10 4 + raster.fileRow topDown y * bmpStride raster.width + x * 3 : Nat) =
        raster.blue x y ∧
      memory (littleEndian (fun i => memory i) 10 4 + raster.fileRow topDown y * bmpStride raster.width +
        x * 3 + 1 : Nat) = raster.green x y ∧
      memory (littleEndian (fun i => memory i) 10 4 + raster.fileRow topDown y * bmpStride raster.width +
        x * 3 + 2 : Nat) = raster.red x y

/-- The image shows the picture. -/
def LoadsRaster (raster : Raster) (load : BmpLoad) : Prop :=
  ∃ image, load.image = some image ∧ image.width = raster.width ∧ image.height = raster.height ∧
    ∀ x < raster.width, ∀ y < raster.height, image.data (gridIndex raster.width x y) =
      ⟨raster.red x y, raster.green x y, raster.blue x y, 0⟩

/-- No size is reduced modulo `2^64`. -/
structure BmpRows.SizesExact (rows : BmpRows) : Prop where
  rawRowSize : (rows.rawRowSize : Int) = rows.width * 3
  paddedRowSize : rows.paddedRowSize = (rows.rawRowSize + 3) / 4 * 4
  pixelDataSize : (rows.pixelDataSize : Int) = rows.width * rows.height * 4
  dataEnd : (rows.dataEnd : Int) = rows.offbits + rows.height * rows.paddedRowSize

theorem BmpRows.Valid.sizesExact {rows : BmpRows} (valid : rows.Valid) : rows.SizesExact := by
  have widthNat := Int.toNat_of_nonneg (Int.le_of_lt valid.width_pos)
  have heightNat := Int.toNat_of_nonneg (Int.le_of_lt valid.height_pos)
  refine ⟨?_, ?_, ?_, ?_⟩
  · rw [valid.rawRowSize_eq, Int.natCast_mul, widthNat]
    rfl
  · rw [valid.paddedRowSize_eq, valid.rawRowSize_eq, bmpStride, Nat.mul_comm 3]
  · rw [valid.pixelDataSize_eq, Int.natCast_mul, Int.natCast_mul, widthNat, heightNat]
    rfl
  · rw [valid.dataEnd_eq, valid.paddedRowSize_eq, Int.natCast_add, Int.natCast_mul, heightNat]

section Encoded

variable {raster : Raster} {topDown : Bool} {memory : FileBytes} {size : Nat}
  (encodes : EncodesBmp raster topDown memory size) (hasRows : 1 ≤ raster.height)

include encodes hasRows

theorem EncodesBmp.not_early (hasColumns : 1 ≤ raster.width) : ¬ BmpRejectedEarly memory size true := by
  have rowsEnd : 1 * 4 ≤ raster.height * bmpStride raster.width := by
    refine Nat.mul_le_mul hasRows ?_
    unfold bmpStride
    omega
  have inFile := encodes.inFile
  have behind := encodes.behindHeaders
  have signed : (BmpHeader.ofBytes memory).bfType = bmpSignature := Prod.ext encodes.signature.1 encodes.signature.2
  unfold BmpRejectedEarly
  simp only [not_or, Decidable.not_not, Bool.true_eq_false, not_false_eq_true, and_true, bmpHeaderSize]
  refine ⟨by omega, signed, ?_⟩
  change ¬ size ≤ littleEndian (fun i => memory i) 10 4
  omega

/-- The height that the negation of the field gives. -/
theorem EncodesBmp.rows_height (small : raster.height < 2 ^ 31) :
    (BmpRows.ofBytes memory).height = raster.height ∧ (BmpRows.ofBytes memory).bottomUp = !topDown := by
  have height : (BmpImageHeader.ofBytes memory).biHeight =
      if topDown then -(raster.height : Int) else raster.height := encodes.height
  unfold BmpRows.ofBytes
  rw [height]
  cases topDown with
  | true =>
    rw [if_pos rfl, if_neg (by omega), Int.neg_neg]
    exact ⟨toInt32_of_lt small, by simp⟩
  | false =>
    rw [if_neg Bool.false_ne_true, if_pos (by omega)]
    exact ⟨rfl, by simp; omega⟩

theorem EncodesBmp.valid (hasColumns : 1 ≤ raster.width) (small : raster.height < 2 ^ 31) :
    (BmpRows.ofBytes memory).Valid := by
  have width : (BmpRows.ofBytes memory).width = raster.width := encodes.width
  have height := (encodes.rows_height hasRows small).1
  exact valid_ofBytes (by omega) (by omega)

/-- A file whose height can be negated is accepted. -/
theorem EncodesBmp.accepted (hasColumns : 1 ≤ raster.width) (small : raster.height < 2 ^ 31) :
    BmpAccepted memory size true := by
  have valid := encodes.valid hasRows hasColumns small
  have width : (BmpRows.ofBytes memory).width = raster.width := encodes.width
  have height := (encodes.rows_height hasRows small).1
  refine ⟨encodes.uncompressed, encodes.colors, valid.width_pos, valid.height_pos, rfl, ?_⟩
  rw [valid.dataEnd_eq, width, height]
  exact encodes.inFile

/-- The line `y` of the picture is loaded from its row of the file. -/
theorem EncodesBmp.data (hasColumns : 1 ≤ raster.width) (small : raster.height < 2 ^ 31)
    (noOverflow : 3 * raster.width < 2 ^ 31) {x y : Nat} (inWidth : x < raster.width) (inHeight : y < raster.height) :
    loadRows memory (BmpRows.ofBytes memory) (gridIndex raster.width x y) =
      ⟨raster.red x y, raster.green x y, raster.blue x y, 0⟩ := by
  have valid := encodes.valid hasRows hasColumns small
  have width : (BmpRows.ofBytes memory).width.toNat = raster.width := congrArg Int.toNat encodes.width
  obtain ⟨heightInt, direction⟩ := encodes.rows_height hasRows small
  have height : (BmpRows.ofBytes memory).height.toNat = raster.height := congrArg Int.toNat heightInt
  have inFile : raster.fileRow topDown y < (BmpRows.ofBytes memory).height.toNat := by
    rw [height]
    unfold Raster.fileRow
    split <;> omega
  have dest : ((BmpRows.ofBytes memory).destRow (raster.fileRow topDown y)).toNat = y := by
    rw [BmpRows.destRow, direction, heightInt]
    cases topDown with
    | true => rfl
    | false =>
      simp only [Raster.fileRow, Bool.not_false, if_true, Bool.false_eq_true, if_false]
      omega
  have loaded := @loadRows_pixel memory _ valid _ x inFile (width ▸ inWidth)
  rw [dest, width, valid.pixelOffset_eq inFile (by omega), width] at loaded
  obtain ⟨blue, green, red⟩ := encodes.pixels x inWidth y inHeight
  rw [loaded, bmpPixel, ImagePixelData.mk.injEq]
  exact ⟨red, green, blue, rfl⟩

theorem EncodesBmp.image_eq (hasColumns : 1 ≤ raster.width) (small : raster.height < 2 ^ 31) :
    (bmpImgLoad memory size true true).image =
      some ⟨raster.width, raster.height, loadRows memory (BmpRows.ofBytes memory)⟩ := by
  rw [bmpImgLoad_accepted (encodes.not_early hasRows hasColumns) (encodes.accepted hasRows hasColumns small),
    BmpLoad.ofRows]
  have width : (BmpRows.ofBytes memory).width.toNat = raster.width := congrArg Int.toNat encodes.width
  have height : (BmpRows.ofBytes memory).height.toNat = raster.height :=
    congrArg Int.toNat (encodes.rows_height hasRows small).1
  rw [width, height]

omit hasRows in
/-- The least height is refused: its negation is the least `int` again. -/
theorem EncodesBmp.least_refused (late : ¬ BmpRejectedEarly memory size true) (isTopDown : topDown = true)
    (least : raster.height = 2 ^ 31) : (bmpImgLoad memory size true true).image = none := by
  have negative : (BmpImageHeader.ofBytes memory).biHeight = -2 ^ 31 := by
    refine encodes.height.trans ?_
    rw [isTopDown, if_pos rfl, least]
    rfl
  have height : (BmpRows.ofBytes memory).height = -2 ^ 31 := by
    rw [BmpRows.ofBytes, negative]
    rfl
  have rejected : ¬ BmpAccepted memory size true := by
    intro accepted
    have positive := accepted.height_pos
    omega
  obtain ⟨reads, fails, -⟩ := bmpImgLoad_late late rejected
  rw [fails, BmpLoad.fails]

end Encoded

/-- A bitmap is loaded as the picture it is of, unless its height is the one that cannot be negated. -/
theorem loadsRaster_iff (raster : Raster) (topDown : Bool) (memory : FileBytes) (size : Nat)
    (encodes : EncodesBmp raster topDown memory size) (hasColumns : 1 ≤ raster.width)
    (noOverflow : 3 * raster.width < 2 ^ 31) (hasRows : 1 ≤ raster.height) :
    LoadsRaster raster (bmpImgLoad memory size true true) ∧ (BmpRows.ofBytes memory).SizesExact ↔
      ¬ (topDown = true ∧ raster.height = 2 ^ 31) := by
  have late := encodes.not_early hasRows hasColumns
  have range := asInt_lt (littleEndian_lt (fun i => memory i) 22 4)
  rw [encodes.height] at range
  constructor
  · rintro ⟨⟨image, loaded, -⟩, -⟩ ⟨isTopDown, least⟩
    rw [encodes.least_refused late isTopDown least] at loaded
    cases loaded
  · intro notLeast
    have small : raster.height < 2 ^ 31 := by
      cases topDown with
      | true =>
        rw [if_pos rfl] at range
        have := not_and.mp notLeast rfl
        omega
      | false =>
        rw [if_neg Bool.false_ne_true] at range
        omega
    refine ⟨⟨_, encodes.image_eq hasRows hasColumns small, rfl, rfl, ?_⟩,
      (encodes.valid hasRows hasColumns small).sizesExact⟩
    exact fun x inWidth y inHeight => encodes.data hasRows hasColumns small noOverflow inWidth inHeight

/-- A black line of pixels from the top to the bottom. -/
def blackLine (height : Nat) : Raster := ⟨1, height, fun _ _ => 0, fun _ _ => 0, fun _ _ => 0⟩

/-- A bitmap of one black column; two bytes of the height are given. -/
def blackBmp (low high : UInt8) : FileBytes := fun i =>
  if i = 0 then 0x42 else if i = 1 then 0x4d
  else if i = 10 then 54
  else if i = 18 then 1
  else if i = 22 then low else if i = 25 then high
  else if i = 28 then 24
  else 0

theorem blackBmp_pixel (low high : UInt8) {i : Nat} (behind : 54 ≤ i) : blackBmp low high i = 0 := by
  unfold blackBmp
  rw [if_neg (by omega), if_neg (by omega), if_neg (by omega), if_neg (by omega), if_neg (by omega),
    if_neg (by omega), if_neg (by omega)]

theorem blackBmp_offset (low high : UInt8) : littleEndian (fun i => blackBmp low high i) 10 4 = 54 := rfl

theorem blackBmp_encodes {low high : UInt8} {height : Nat} {topDown : Bool}
    (field : asInt (littleEndian (fun i => blackBmp low high i) 22 4) =
      if topDown then -(height : Int) else height) :
    EncodesBmp (blackLine height) topDown (blackBmp low high) (54 + height * 4) where
  signature := ⟨rfl, rfl⟩
  width := rfl
  height := field
  colors := rfl
  uncompressed := rfl
  behindHeaders := Nat.le_refl 54
  inFile := by
    have stride : bmpStride 1 = 4 := by decide
    rw [blackBmp_offset]
    change 54 + height * bmpStride 1 ≤ 54 + height * 4
    rw [stride]
  pixels x _ y _ := by
    rw [blackBmp_offset]
    exact ⟨blackBmp_pixel low high (by omega), blackBmp_pixel low high (by omega),
      blackBmp_pixel low high (by omega)⟩

theorem loadsRaster_pixel : LoadsRaster (blackLine 1) (bmpImgLoad (blackBmp 1 0) 58 true true) :=
  ((loadsRaster_iff (blackLine 1) false (blackBmp 1 0) 58 (blackBmp_encodes rfl) (by decide) (by decide)
    (by decide)).mpr (by decide)).1

/-- The column of `2^31` pixels that is stored from the top is a bitmap, but it is not loaded. -/
theorem loadsRaster_least : EncodesBmp (blackLine (2 ^ 31)) true (blackBmp 0 0x80) (54 + 2 ^ 31 * 4) ∧
    ¬ LoadsRaster (blackLine (2 ^ 31)) (bmpImgLoad (blackBmp 0 0x80) (54 + 2 ^ 31 * 4) true true) := by
  have encodes : EncodesBmp (blackLine (2 ^ 31)) true (blackBmp 0 0x80) (54 + 2 ^ 31 * 4) := blackBmp_encodes rfl
  refine ⟨encodes, ?_⟩
  rintro ⟨image, loaded, -⟩
  rw [encodes.least_refused (encodes.not_early (by decide) (by decide)) rfl rfl] at loaded
  cases loaded

/-! ## Any files -/

/-- The end of the pixel data, as the fields of the file say. -/
def bmpDataEnd (memory : FileBytes) : Nat :=
  (BmpHeader.ofBytes memory).bfOffbits + (BmpImageHeader.ofBytes memory).biHeight.natAbs *
    bmpStride (BmpImageHeader.ofBytes memory).biWidth.toNat

structure BmpSafe (memory : FileBytes) (size : Nat) (load : BmpLoad) : Prop where
  reads : ∀ read ∈ load.reads, 0 ≤ read ∧ read < (size : Int)
  array : ∀ image, load.image = some image → load.allocated = image.width * image.height * 4
  writes : ∀ index ∈ load.writes, index * 4 + 4 ≤ load.allocated
  noOverflow : load.addressOverflow = false
  fits : size < bmpHeaderSize + bmpImageHeaderSize ∨ size < bmpDataEnd memory → load.image = none

theorem BmpSafe.of_fails {memory : FileBytes} {size : Nat} {reads : List Int}
    (inFile : ∀ read ∈ reads, 0 ≤ read ∧ read < (size : Int)) : BmpSafe memory size (.fails reads) where
  reads := inFile
  array _ loaded := by cases loaded
  writes _ member := by cases member
  noOverflow := rfl
  fits _ := rfl

section Accepted

variable {memory : FileBytes} {size : Nat} {dataAlloc : Bool} (accepted : BmpAccepted memory size dataAlloc)

include accepted

theorem BmpAccepted.valid : (BmpRows.ofBytes memory).Valid := valid_ofBytes accepted.width_pos accepted.height_pos

/-- An accepted height has been negated if need be. -/
theorem BmpAccepted.height_eq :
    (BmpRows.ofBytes memory).height = (BmpImageHeader.ofBytes memory).biHeight.natAbs := by
  have positive := accepted.height_pos
  have range : -2 ^ 31 ≤ (BmpImageHeader.ofBytes memory).biHeight :=
    (asInt_lt (littleEndian_lt (fun i => memory i) 22 4)).1
  by_cases bottomUp : (BmpImageHeader.ofBytes memory).biHeight > 0
  · rw [BmpRows.ofBytes, if_pos bottomUp]
    dsimp only
    omega
  · rw [BmpRows.ofBytes, if_neg bottomUp] at positive ⊢
    dsimp only at positive ⊢
    unfold toInt32 at positive ⊢
    omega

/-- The pixel data of an accepted file ends in the file. -/
theorem BmpAccepted.dataEnd_le : bmpDataEnd memory ≤ size := by
  have inFile := accepted.dataFits
  rw [accepted.valid.dataEnd_eq, accepted.height_eq] at inFile
  exact inFile

theorem addressOverflow_eq_false_iff : (BmpLoad.ofRows memory (BmpRows.ofBytes memory)).addressOverflow = false ↔
    3 * ((BmpRows.ofBytes memory).width.toNat - 1) < 2 ^ 31 := by
  have widthPos := accepted.width_pos
  have heightPos := accepted.height_pos
  rw [BmpLoad.ofRows, List.any_eq_false]
  simp only [decide_eq_true_eq, Nat.not_le]
  constructor
  · intro small
    have last := small (0, (BmpRows.ofBytes memory).width.toNat - 1) (mem_rounds_bmp.mpr ⟨by omega, by omega⟩)
    omega
  · rintro small ⟨row, col⟩ member
    obtain ⟨-, inWidth⟩ := mem_rounds_bmp.mp member
    dsimp only
    omega

/-- The bytes of a pixel lie before the end of the last row. -/
theorem pixelReads_inFile (small : 3 * ((BmpRows.ofBytes memory).width.toNat - 1) < 2 ^ 31) {row col : Nat}
    (inHeight : row < (BmpRows.ofBytes memory).height.toNat) (inWidth : col < (BmpRows.ofBytes memory).width.toNat) :
    0 ≤ (BmpRows.ofBytes memory).pixelOffset row col ∧
      (BmpRows.ofBytes memory).pixelOffset row col + 2 < (size : Int) := by
  have inFile := accepted.dataFits
  have rowsEnd : (row + 1) * bmpStride (BmpRows.ofBytes memory).width.toNat ≤
      (BmpRows.ofBytes memory).height.toNat * bmpStride (BmpRows.ofBytes memory).width.toNat :=
    Nat.mul_le_mul_right _ inHeight
  have stride := le_bmpStride (BmpRows.ofBytes memory).width.toNat
  rw [accepted.valid.dataEnd_eq] at inFile
  rw [accepted.valid.pixelOffset_eq inHeight (by omega)]
  rw [Nat.succ_mul] at rowsEnd
  omega

/-- An accepted file is safe when both headers are there and no column overflows. -/
theorem BmpAccepted.safe_iff (inHeaders : 34 ≤ size) :
    BmpSafe memory size (.ofRows memory (BmpRows.ofBytes memory)) ↔
      54 ≤ size ∧ 3 * ((BmpRows.ofBytes memory).width.toNat - 1) < 2 ^ 31 := by
  have valid := accepted.valid
  constructor
  · intro safe
    refine ⟨?_, (addressOverflow_eq_false_iff accepted).mp safe.noOverflow⟩
    by_contra short
    have refused := safe.fits (.inl (show size < 14 + 40 by omega))
    cases refused
  · rintro ⟨headers, small⟩
    refine ⟨?_, ?_, ?_, (addressOverflow_eq_false_iff accepted).mpr small, ?_⟩
    · intro read member
      cases List.mem_append.mp member with
      | inl inHeader =>
        have bound : ∀ read ∈ headerReads, 0 ≤ read ∧ read < 34 := by decide
        have := bound read inHeader
        omega
      | inr inRows =>
        obtain ⟨⟨row, col⟩, isRound, isRead⟩ := List.mem_flatMap.mp inRows
        obtain ⟨inHeight, inWidth⟩ := mem_rounds_bmp.mp isRound
        have inFile := pixelReads_inFile accepted small inHeight inWidth
        simp only [List.mem_cons, List.not_mem_nil, or_false] at isRead
        rcases isRead with isRead | isRead | isRead <;> omega
    · intro image loaded
      obtain rfl := Option.some.inj loaded
      exact valid.pixelDataSize_eq
    · intro index member
      obtain ⟨⟨row, col⟩, isRound, rfl⟩ := List.mem_map.mp member
      obtain ⟨inHeight, inWidth⟩ := mem_rounds_bmp.mp isRound
      obtain ⟨nonneg, below⟩ := (BmpRows.ofBytes memory).destRow_range inHeight
      have inArray := gridIndex_lt inWidth
        (show ((BmpRows.ofBytes memory).destRow row).toNat < (BmpRows.ofBytes memory).height.toNat by omega)
      change (BmpRows.ofBytes memory).pixelIndex row col * 4 + 4 ≤ (BmpRows.ofBytes memory).pixelDataSize
      rw [valid.pixelIndex_eq inHeight inWidth, valid.pixelDataSize_eq]
      omega
    · have inFile := accepted.dataEnd_le
      unfold bmpHeaderSize bmpImageHeaderSize
      omega

end Accepted

/-- A file is read safely just when it is refused for its first header, or it reaches to the fields that
are read and, if it is accepted, behind both headers, with rows of less than `2^31` bytes. -/
theorem bmpSafe_iff (memory : FileBytes) (size : Nat) (imgAlloc dataAlloc : Bool) :
    BmpSafe memory size (bmpImgLoad memory size imgAlloc dataAlloc) ↔
      BmpRejectedEarly memory size imgAlloc ∨
        34 ≤ size ∧ (BmpAccepted memory size dataAlloc →
          54 ≤ size ∧ 3 * ((BmpRows.ofBytes memory).width.toNat - 1) < 2 ^ 31) := by
  by_cases early : BmpRejectedEarly memory size imgAlloc
  · obtain ⟨reads, fails, inFile⟩ := @bmpImgLoad_early memory size imgAlloc dataAlloc early
    rw [fails]
    exact iff_of_true (.of_fails inFile) (.inl early)
  rw [or_iff_right early]
  by_cases accepted : BmpAccepted memory size dataAlloc
  · rw [bmpImgLoad_accepted early accepted]
    constructor
    · intro safe
      have lastRead := safe.reads 33 (List.mem_append_left _ (by decide))
      have inHeaders : 34 ≤ size := by omega
      exact ⟨inHeaders, fun _ => (accepted.safe_iff inHeaders).mp safe⟩
    · rintro ⟨inHeaders, fits⟩
      exact (accepted.safe_iff inHeaders).mpr (fits accepted)
  · obtain ⟨reads, fails, lastRead, inHeaders⟩ := bmpImgLoad_late early accepted
    rw [fails]
    constructor
    · intro safe
      have := safe.reads 33 lastRead
      exact ⟨by omega, fun isAccepted => absurd isAccepted accepted⟩
    · rintro ⟨long, -⟩
      refine .of_fails fun read member => ?_
      have := inHeaders read member
      omega

/-- A file of 15 bytes whose pixels would start at the last one. -/
def shortBmp : FileBytes := fun i => if i = 0 then 0x42 else if i = 1 then 0x4d else if i = 10 then 14 else 0

/-- The second header of a short file is read behind its end. -/
theorem shortBmp_unsafe : ¬ BmpSafe shortBmp 15 (bmpImgLoad shortBmp 15 true true) := by
  intro safe
  have outside := safe.reads 33 (by decide)
  omega

end ViOS.Graphics
