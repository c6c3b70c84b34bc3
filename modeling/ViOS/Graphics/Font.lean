import ViOS.Graphics.Bmp
import ViOS.Graphics.PixelCopy
import ViOS.Lib.BitArray

/-! # Fonts

`font_load_from_image` cuts a picture into cells and packs the pixels of each cell that are not
black into bits; `font_draw_from_index` draws the bits of one cell.

* `fontLoadFromImage`, `fontDrawFromIndex`, `fontDraw` — the code, with the bytes of the
  character data that it writes and reads.
* `IsLoaded` — the images that come from files.
* `fontDraw_pixel` — a glyph is drawn as its cell in the picture.
* `FontSafe`, `fontSafe_iff` — whether only allocated bytes are used.
-/

namespace ViOS.Graphics

open ViOS.Lib
open ViOS.Fs (littleEndian)

/-! ## Loading -/

/-- The images that `graphics_image_load` returns: `filesize` of a file has 32 bits. -/
def IsLoaded (image : Image) : Prop :=
  ∃ (memory : FileBytes) (filesize : UInt32) (imgAlloc dataAlloc : Bool),
    (bmpImgLoad memory filesize.toNat imgAlloc dataAlloc).image = some image

/-- `graphics_image_get_pixel`; the index is a `uint32_t`. -/
def graphicsImageGetPixel (image : Image) (x y : Nat) : ImagePixelData :=
  image.data ((y * image.width + x) % 2 ^ 32)

/-- `struct font`, without the name of its file. -/
structure Font where
  characterCount : Nat
  characterData : Nat → UInt8
  bitsWidthPerCharacter : Nat
  bitsHeightPerCharacter : Nat
  subtractFromAsciiCharIndexForDrawing : Nat

def fontImageDrawSubtractFromIndex : Nat := 32
def fontImageCharacterWidthPixelSize : Nat := 9
def fontImageCharacterHeightPixelSize : Nat := 16

/-- Bits in bytes, rounded up. -/
def bytesForBits (bits : Nat) : Nat := if bits % 8 ≠ 0 then bits / 8 + 1 else bits / 8

/-- `total_required_bytes_per_character`. -/
def bytesPerCharacter (width height : Nat) : Nat := bytesForBits (width * height % addressSpace)

/-- The byte and the bit of a pixel of a cell; loading and drawing use the same `bit_index` and
`byte_index`. -/
def glyphPlace (width height index x y : Nat) : Nat × Nat :=
  let bitIndex := (y * width + x) % addressSpace
  ((index * bytesPerCharacter width height + bitIndex / 8) % addressSpace, bitIndex % 8)

/-- A pixel that is not black. -/
def ImagePixelData.isSet (pixel : ImagePixelData) : Bool := pixel.r ≠ 0 ∨ pixel.b ≠ 0 ∨ pixel.g ≠ 0

section Packing

variable (image : Image) (pixelWidth pixelHeight yOffsetPerCharacter : Nat)

def charactersPerRow : Nat := image.width / pixelWidth

def totalRows : Nat := image.height / pixelHeight

/-- `total_characters`, at most 255. -/
def totalCharacters : Nat :=
  if totalRows image pixelHeight * charactersPerRow image pixelWidth > 255 then 255
  else totalRows image pixelHeight * charactersPerRow image pixelWidth

/-- `total_required_bytes_for_character_set`. -/
def characterSetBytes : Nat :=
  bytesForBits (totalCharacters image pixelWidth pixelHeight * pixelWidth * pixelHeight % addressSpace)

/-- A round of the packing loops: the row and the column of the cell, and the pixel in it. -/
abbrev PackRound := (Nat × Nat) × (Nat × Nat)

/-- The rounds of the four loops, in their order. -/
def packRounds : List PackRound :=
  (List.range (totalRows image pixelHeight) ×ˢ List.range (charactersPerRow image pixelWidth)) ×ˢ
    (List.range pixelWidth ×ˢ List.range' yOffsetPerCharacter (pixelHeight - yOffsetPerCharacter))

/-- The pixel of the image is not black. -/
def isPacked (round : PackRound) : Bool :=
  (graphicsImageGetPixel image (round.1.2 * pixelWidth + round.2.1) (round.1.1 * pixelHeight + round.2.2)).isSet

/-- Where the pixel goes. -/
def packPlace (round : PackRound) : Nat × Nat :=
  glyphPlace pixelWidth pixelHeight (round.1.1 * charactersPerRow image pixelWidth + round.1.2) round.2.1 round.2.2

/-- `character_data` after the loops; it is zeroed before them. -/
def packCharacters : Nat → UInt8 :=
  (packRounds image pixelWidth pixelHeight yOffsetPerCharacter).foldl (fun bytes round =>
    if isPacked image pixelWidth pixelHeight round then
      setBit bytes (packPlace image pixelWidth pixelHeight round).1 (packPlace image pixelWidth pixelHeight round).2
    else bytes) fun _ => 0

/-- The bytes the loops write. -/
def packWrites : List Nat :=
  ((packRounds image pixelWidth pixelHeight yOffsetPerCharacter).filter
    (isPacked image pixelWidth pixelHeight)).map fun round => (packPlace image pixelWidth pixelHeight round).1

end Packing

/-- What a load does: the size of the character data, the bytes it writes there, and the font. -/
structure FontLoad where
  allocated : Nat
  writes : List Nat
  font : Option Font

/-- `font_load_from_image` behind `graphics_image_load`; `none` is a division by zero.  `charAlloc` and
`fontAlloc` say whether there is memory for the character data and for the font. -/
def fontLoadFromImage (imgFont : Option Image) (pixelWidth pixelHeight yOffsetPerCharacter : Nat)
    (charAlloc fontAlloc : Bool) : Option FontLoad :=
  match imgFont with
  | none => some ⟨0, [], none⟩
  | some image =>
    if pixelWidth = 0 ∨ pixelHeight = 0 then none
    else if ¬ charAlloc then some ⟨0, [], none⟩
    else
      some
        { allocated := characterSetBytes image pixelWidth pixelHeight
          writes := packWrites image pixelWidth pixelHeight yOffsetPerCharacter
          font :=
            if ¬ fontAlloc then none
            else
              some
                { characterCount := totalCharacters image pixelWidth pixelHeight
                  characterData := packCharacters image pixelWidth pixelHeight yOffsetPerCharacter
                  bitsWidthPerCharacter := pixelWidth
                  bitsHeightPerCharacter := pixelHeight
                  subtractFromAsciiCharIndexForDrawing := fontImageDrawSubtractFromIndex } }

/-! ## Drawing -/

section Drawing

variable (info : GraphicsInfo) (ignoreColor : FramebufferPixel)

/-- The colour is left out; black ignores nothing. -/
def isIgnored (pixel : FramebufferPixel) : Bool :=
  ignoreColor ≠ noTransparencyColor ∧ ignoreColor = pixel

/-- `graphics_draw_pixel`. -/
def graphicsDrawPixel (pixels : UInt32 → FramebufferPixel) (x y : UInt32) (pixel : FramebufferPixel) :
    UInt32 → FramebufferPixel :=
  if isIgnored ignoreColor pixel then pixels
  else if x < info.width ∧ y < info.height then Function.update pixels (y * info.width + x) pixel
  else pixels

/-- A pixel of the surface, counted from `screen_x` or `screen_y`, as the `uint32_t` it is passed as. -/
def absCoordinate (screen : Int) (offset : Nat) : UInt32 := .ofInt (screen + offset)

/-- The rounds of the drawing loops, column by column. -/
def drawRounds (font : Font) : List (Nat × Nat) :=
  List.range font.bitsWidthPerCharacter ×ˢ List.range font.bitsHeightPerCharacter

/-- The place of a pixel of a character. -/
def drawPlace (font : Font) (indexCharacter : Nat) (round : Nat × Nat) : Nat × Nat :=
  glyphPlace font.bitsWidthPerCharacter font.bitsHeightPerCharacter indexCharacter round.1 round.2

/-- What drawing a character does: the bytes it reads in the character data, and the pixels it leaves. -/
structure FontDraw where
  reads : List Nat
  pixels : UInt32 → FramebufferPixel

/-- `font_draw_from_index`, without the copy to the screen at its end.  An index is compared as a
`size_t`. -/
def fontDrawFromIndex (font : Font) (screenX screenY indexCharacter : Int) (fontColor : FramebufferPixel)
    (pixels : UInt32 → FramebufferPixel) : FontDraw :=
  if sizeT indexCharacter > font.characterCount then ⟨[], pixels⟩
  else
    { reads := (drawRounds font).map fun round => (drawPlace font (sizeT indexCharacter) round).1
      pixels := (drawRounds font).foldl (fun pixels round =>
        if bitAt font.characterData (drawPlace font (sizeT indexCharacter) round).1
            (drawPlace font (sizeT indexCharacter) round).2 then
          graphicsDrawPixel info ignoreColor pixels (absCoordinate screenX round.1) (absCoordinate screenY round.2)
            fontColor
        else pixels) pixels }

/-- `font_draw`. -/
def fontDraw (font : Font) (screenX screenY character : Int) (fontColor : FramebufferPixel)
    (pixels : UInt32 → FramebufferPixel) : FontDraw :=
  fontDrawFromIndex info ignoreColor font screenX screenY
    (toInt32 (character - font.subtractFromAsciiCharIndexForDrawing)) fontColor pixels

end Drawing

/-! ## Images from files -/

/-- The dimensions of an image from a file: its pixels need more bytes than the file has. -/
theorem IsLoaded.small {image : Image} (loaded : IsLoaded image) :
    image.width < 2 ^ 31 ∧ image.height < 2 ^ 31 ∧ image.width * image.height < 2 ^ 32 := by
  obtain ⟨memory, filesize, imgAlloc, dataAlloc, loaded⟩ := loaded
  have late : ¬ BmpRejectedEarly memory filesize.toNat imgAlloc := by
    intro early
    obtain ⟨reads, fails, -⟩ := @bmpImgLoad_early memory filesize.toNat imgAlloc dataAlloc early
    rw [fails] at loaded
    cases loaded
  have accepted : BmpAccepted memory filesize.toNat dataAlloc := by
    by_contra rejected
    obtain ⟨reads, fails, -⟩ := bmpImgLoad_late late rejected
    rw [fails] at loaded
    cases loaded
  rw [bmpImgLoad_accepted late accepted] at loaded
  obtain rfl := Option.some.inj loaded
  have valid := accepted.valid
  have inFile := accepted.dataFits
  have fileLt := filesize.toNat_lt
  have widthLt := valid.width_lt
  have heightLt := valid.height_lt
  rw [valid.dataEnd_eq] at inFile
  have rowBytes : (BmpRows.ofBytes memory).height.toNat * (BmpRows.ofBytes memory).width.toNat ≤
      (BmpRows.ofBytes memory).height.toNat * bmpStride (BmpRows.ofBytes memory).width.toNat := by
    refine Nat.mul_le_mul_left _ ?_
    have := le_bmpStride (BmpRows.ofBytes memory).width.toNat
    omega
  refine ⟨by dsimp only; omega, by dsimp only; omega, ?_⟩
  dsimp only
  rw [Nat.mul_comm]
  omega

theorem graphicsImageGetPixel_eq {image : Image} (loaded : IsLoaded image) {x y : Nat} (inWidth : x < image.width)
    (inHeight : y < image.height) :
    graphicsImageGetPixel image x y = image.data (gridIndex image.width x y) := by
  have inImage := gridIndex_lt inWidth inHeight
  have small := loaded.small.2.2
  unfold gridIndex at inImage ⊢
  rw [graphicsImageGetPixel, Nat.mod_eq_of_lt (by omega)]

/-! ## Glyphs of 9 by 16 pixels -/

/-- The characters of such a font have 18 bytes each, and its pixels all have a bit of their own. -/
theorem glyphPlace_eq {i x y : Nat} (small : i < 2 ^ 32) (inWidth : x < 9) (inHeight : y < 16) :
    glyphPlace 9 16 i x y = (i * 18 + (y * 9 + x) / 8, (y * 9 + x) % 8) := by
  have bytes : bytesPerCharacter 9 16 = 18 := by decide
  have bit : (y * 9 + x) % 2 ^ 64 = y * 9 + x := by omega
  rw [glyphPlace, bytes, addressSpace, bit, Nat.mod_eq_of_lt (by omega)]

theorem glyphPlace_inj {i j x y x' y' : Nat} (small : i < 2 ^ 32) (small' : j < 2 ^ 32) (inWidth : x < 9)
    (inHeight : y < 16) (inWidth' : x' < 9) (inHeight' : y' < 16)
    (same : glyphPlace 9 16 i x y = glyphPlace 9 16 j x' y') : i = j ∧ x = x' ∧ y = y' := by
  rw [glyphPlace_eq small inWidth inHeight, glyphPlace_eq small' inWidth' inHeight', Prod.mk.injEq] at same
  -- Eight times the byte and the bit is the number of the pixel in the font.
  have number : i * 144 + (y * 9 + x) = j * 144 + (y' * 9 + x') := by omega
  have sameCharacter : i = j := by omega
  subst sameCharacter
  exact ⟨rfl, by omega, by omega⟩

section Glyphs

variable {image : Image} {yOffset : Nat}

theorem mem_packRounds {width height : Nat} {row col x y : Nat} :
    ((row, col), (x, y)) ∈ packRounds image width height yOffset ↔
      (row < totalRows image height ∧ col < charactersPerRow image width) ∧
        x < width ∧ yOffset ≤ y ∧ y < height := by
  rw [packRounds, List.mem_product, List.mem_product, List.mem_product, List.mem_range, List.mem_range,
    List.mem_range, List.mem_range'_1]
  omega

/-- The cells of an image have less than 32 bits. -/
theorem cell_lt (loaded : IsLoaded image) {width height row col : Nat} (inRows : row < totalRows image height)
    (inColumns : col < charactersPerRow image width) : row * charactersPerRow image width + col < 2 ^ 32 := by
  have inCells := gridIndex_lt inColumns inRows
  have cells : charactersPerRow image width * totalRows image height ≤ image.width * image.height :=
    Nat.mul_le_mul (Nat.div_le_self _ _) (Nat.div_le_self _ _)
  have small := loaded.small.2.2
  unfold gridIndex at inCells
  omega

/-- The pixel of the image that a pixel of a character comes from. -/
def glyphPixel (image : Image) (k x y : Nat) : ImagePixelData :=
  image.data (gridIndex image.width (k % charactersPerRow image 9 * 9 + x) (k / charactersPerRow image 9 * 16 + y))

/-- A bit of a character says whether its pixel in the image is not black, below the offset. -/
theorem packCharacters_bit (loaded : IsLoaded image) {k x y : Nat} (inFont : k < totalCharacters image 9 16)
    (inWidth : x < 9) (inHeight : y < 16) :
    bitAt (packCharacters image 9 16 yOffset) (glyphPlace 9 16 k x y).1 (glyphPlace 9 16 k x y).2 =
      (decide (yOffset ≤ y) && (glyphPixel image k x y).isSet) := by
  have inCells : k < totalRows image 16 * charactersPerRow image 9 := by
    unfold totalCharacters at inFont
    split at inFont <;> omega
  have someColumns : 0 < charactersPerRow image 9 := by
    by_contra none
    simp [Nat.eq_zero_of_not_pos none] at inCells
  have inColumns : k % charactersPerRow image 9 < charactersPerRow image 9 := Nat.mod_lt _ someColumns
  have inRows : k / charactersPerRow image 9 < totalRows image 16 := Nat.div_lt_of_lt_mul (Nat.mul_comm _ _ ▸ inCells)
  have isCell : k / charactersPerRow image 9 * charactersPerRow image 9 + k % charactersPerRow image 9 = k :=
    Nat.div_add_mod' k _
  have smallCell := cell_lt loaded inRows inColumns
  have inImageX : k % charactersPerRow image 9 * 9 + x < image.width := by
    unfold charactersPerRow at inColumns ⊢
    omega
  have inImageY : k / charactersPerRow image 9 * 16 + y < image.height := by
    unfold totalRows at inRows
    omega
  have small : ∀ round ∈ packRounds image 9 16 yOffset, (packPlace image 9 16 round).2 < 8 :=
    fun _ _ => Nat.mod_lt _ (by decide)
  have bit : (glyphPlace 9 16 k x y).2 < 8 := Nat.mod_lt _ (by decide)
  rw [packCharacters, bitAt_foldl_setBit small _ bit]
  have zero : bitAt (fun _ => 0) (glyphPlace 9 16 k x y).1 (glyphPlace 9 16 k x y).2 = false := by
    simp [bitAt]
  rw [zero, Bool.false_or, Bool.eq_iff_iff, List.any_eq_true, Bool.and_eq_true, decide_eq_true_eq]
  have pixel : isPacked image 9 16 ((k / charactersPerRow image 9, k % charactersPerRow image 9), (x, y)) =
      (glyphPixel image k x y).isSet := by
    rw [isPacked, graphicsImageGetPixel_eq loaded inImageX inImageY, glyphPixel]
  constructor
  · rintro ⟨⟨⟨row, col⟩, ⟨x', y'⟩⟩, isRound, sets⟩
    obtain ⟨⟨inRows', inColumns'⟩, inWidth', behind, inHeight'⟩ := mem_packRounds.mp isRound
    obtain ⟨packed, place⟩ := Bool.and_eq_true_iff.mp sets
    have same := of_decide_eq_true place
    obtain ⟨sameCell, rfl, rfl⟩ := glyphPlace_inj (cell_lt loaded inRows' inColumns') (by omega) inWidth' inHeight'
      inWidth inHeight same
    -- The number of a cell determines its row and its column.
    rw [← isCell] at sameCell
    obtain ⟨rfl, rfl⟩ := gridIndex_inj inColumns' inColumns sameCell
    exact ⟨behind, pixel ▸ packed⟩
  · rintro ⟨behind, isSet⟩
    refine ⟨((k / charactersPerRow image 9, k % charactersPerRow image 9), (x, y)),
      mem_packRounds.mpr ⟨⟨inRows, inColumns⟩, inWidth, behind, inHeight⟩, ?_⟩
    rw [pixel, isSet, packPlace, isCell, Bool.true_and, decide_eq_true_eq]

end Glyphs

/-! ## Pixels of a surface -/

section Surface

variable {info : GraphicsInfo} {ignoreColor : FramebufferPixel}

/-- The index of a pixel of a surface. -/
def surfaceIndex (info : GraphicsInfo) (x y : Int) : UInt32 :=
  .ofNat (gridIndex info.width.toNat x.toNat y.toNat)

/-- The pixel is one of the surface. -/
def OnSurface (info : GraphicsInfo) (x y : Int) : Prop :=
  (0 ≤ x ∧ x < info.width.toNat) ∧ 0 ≤ y ∧ y < info.height.toNat

instance (info : GraphicsInfo) (x y : Int) : Decidable (OnSurface info x y) := inferInstanceAs (Decidable (_ ∧ _))

theorem ofInt_toNat (value : Int) : ((UInt32.ofInt value).toNat : Int) = value % 2 ^ 32 := by
  have small := Int.emod_lt_of_pos value (show (0 : Int) < 2 ^ 32 by decide)
  have nonneg := Int.emod_nonneg value (show (2 : Int) ^ 32 ≠ 0 by decide)
  rw [UInt32.ofInt, UInt32.toNat_ofNat']
  omega

/-- Pixels of a surface have different indices. -/
theorem surfaceIndex_eq_iff (hasPixels : info.HasPixels) {x y : UInt32} (inSurface : x < info.width ∧ y < info.height)
    {x' y' : Int} (onSurface : OnSurface info x' y') :
    y * info.width + x = surfaceIndex info x' y' ↔ (x.toNat : Int) = x' ∧ (y.toNat : Int) = y' := by
  obtain ⟨⟨nonnegX, inWidth⟩, nonnegY, inHeight⟩ := onSurface
  rw [UInt32.lt_iff_toNat_lt, UInt32.lt_iff_toNat_lt] at inSurface
  have here := gridIndex_lt inSurface.1 inSurface.2
  have there := gridIndex_lt (show x'.toNat < info.width.toNat by omega) (show y'.toNat < info.height.toNat by omega)
  have small : ∀ {index}, index < info.width.toNat * info.height.toNat → index < 2 ^ 32 :=
    fun inside => Nat.lt_of_lt_of_le inside hasPixels
  have index : (y * info.width + x).toNat = gridIndex info.width.toNat x.toNat y.toNat := by
    rw [UInt32.toNat_add, UInt32.toNat_mul, Nat.mod_add_mod]
    exact Nat.mod_eq_of_lt (small here)
  rw [← UInt32.toNat_inj, index, surfaceIndex, UInt32.toNat_ofNat', Nat.mod_eq_of_lt (small there)]
  constructor
  · intro same
    obtain ⟨sameX, sameY⟩ := gridIndex_inj inSurface.1 (by omega) same
    omega
  · rintro ⟨rfl, rfl⟩
    rw [Int.toNat_natCast, Int.toNat_natCast]

/-- The colour a round of the drawing loops writes. -/
def drawnColor (info : GraphicsInfo) (ignoreColor : FramebufferPixel) (font : Font) (screenX screenY : Int)
    (index : Nat) (fontColor : FramebufferPixel) (round : Nat × Nat) : Option FramebufferPixel :=
  if bitAt font.characterData (drawPlace font index round).1 (drawPlace font index round).2 = true ∧
      isIgnored ignoreColor fontColor = false ∧ absCoordinate screenX round.1 < info.width ∧
      absCoordinate screenY round.2 < info.height then
    some fontColor
  else none

theorem fontDrawFromIndex_pixels {font : Font} {screenX screenY : Int} {k : Nat} (small : k < 2 ^ 64)
    (inFont : k ≤ font.characterCount) (fontColor : FramebufferPixel) (pixels : UInt32 → FramebufferPixel) :
    (fontDrawFromIndex info ignoreColor font screenX screenY k fontColor pixels).pixels =
      (drawRounds font).foldl (writeRound
        (fun round => absCoordinate screenY round.2 * info.width + absCoordinate screenX round.1)
        (drawnColor info ignoreColor font screenX screenY k fontColor)) pixels := by
  have index : sizeT k = k := sizeT_of_nonneg (by omega) (by omega)
  rw [fontDrawFromIndex, index, if_neg (by omega)]
  dsimp only
  congr 1
  funext pixels round
  simp only [writeRound, drawnColor, graphicsDrawPixel]
  split
  next set =>
    cases ignored : isIgnored ignoreColor fontColor with
    | true => simp
    | false =>
      by_cases inSurface : absCoordinate screenX round.1 < info.width ∧ absCoordinate screenY round.2 < info.height
      · simp [inSurface, set]
      · simp [inSurface]
  next clear => simp [clear]

/-- A pixel of the cell has the font's colour just when its bit is set. -/
theorem fontDrawFromIndex_at {font : Font} {screenX screenY : Int} {k : Nat} (small : k < 2 ^ 64)
    (inFont : k ≤ font.characterCount) (cellWidth : font.bitsWidthPerCharacter ≤ 2 ^ 32)
    (cellHeight : font.bitsHeightPerCharacter ≤ 2 ^ 32) (hasPixels : info.HasPixels) (fontColor : FramebufferPixel)
    (pixels : UInt32 → FramebufferPixel) {x y : Nat} (inWidth : x < font.bitsWidthPerCharacter)
    (inHeight : y < font.bitsHeightPerCharacter) (onSurface : OnSurface info (screenX + x) (screenY + y)) :
    (fontDrawFromIndex info ignoreColor font screenX screenY k fontColor pixels).pixels
        (surfaceIndex info (screenX + x) (screenY + y)) =
      if bitAt font.characterData (drawPlace font k (x, y)).1 (drawPlace font k (x, y)).2 = true ∧
          isIgnored ignoreColor fontColor = false then fontColor
      else pixels (surfaceIndex info (screenX + x) (screenY + y)) := by
  have agrees : ∀ round ∈ drawRounds font, absCoordinate screenY round.2 * info.width + absCoordinate screenX round.1 =
      surfaceIndex info (screenX + x) (screenY + y) → ∀ other,
        drawnColor info ignoreColor font screenX screenY k fontColor round = some other → other = fontColor := by
    intro round _ _ other drawn
    unfold drawnColor at drawn
    split at drawn
    · exact (Option.some.inj drawn).symm
    · cases drawn
  rw [fontDrawFromIndex_pixels small inFont, foldl_write_at agrees]
  refine if_congr ?_ rfl rfl
  have widthLt := info.width.toNat_lt
  have heightLt := info.height.toNat_lt
  constructor
  · rintro ⟨⟨x', y'⟩, isRound, here, isDrawn⟩
    obtain ⟨inWidth', inHeight'⟩ := List.mem_product.mp isRound
    rw [List.mem_range] at inWidth' inHeight'
    unfold drawnColor at isDrawn
    split at isDrawn
    next drawn =>
      obtain ⟨bit, visible, inSurface⟩ := drawn
      obtain ⟨sameX, sameY⟩ := (surfaceIndex_eq_iff hasPixels inSurface onSurface).mp here
      obtain ⟨⟨nonnegX, belowX⟩, nonnegY, belowY⟩ := onSurface
      rw [absCoordinate, ofInt_toNat] at sameX sameY
      have isX : x' = x := by omega
      have isY : y' = y := by omega
      subst isX isY
      exact ⟨bit, visible⟩
    · cases isDrawn
  · rintro ⟨bit, visible⟩
    have atX := ofInt_toNat (screenX + x)
    have atY := ofInt_toNat (screenY + y)
    obtain ⟨⟨nonnegX, belowX⟩, nonnegY, belowY⟩ := onSurface
    rw [Int.emod_eq_of_lt nonnegX (by omega)] at atX
    rw [Int.emod_eq_of_lt nonnegY (by omega)] at atY
    have inSurface : absCoordinate screenX x < info.width ∧ absCoordinate screenY y < info.height := by
      rw [UInt32.lt_iff_toNat_lt, UInt32.lt_iff_toNat_lt]
      unfold absCoordinate
      omega
    refine ⟨(x, y), List.mem_product.mpr ⟨List.mem_range.mpr inWidth, List.mem_range.mpr inHeight⟩, ?_, ?_⟩
    · exact (surfaceIndex_eq_iff hasPixels inSurface ⟨⟨nonnegX, belowX⟩, nonnegY, belowY⟩).mpr ⟨atX, atY⟩
    · rw [drawnColor, if_pos ⟨bit, visible, inSurface⟩]
      rfl

end Surface

/-! ## Drawn glyphs -/

/-- The font that is loaded. -/
theorem fontLoadFromImage_font {image : Image} {width height yOffset : Nat} {charAlloc fontAlloc : Bool} {font : Font}
    (created : (fontLoadFromImage (some image) width height yOffset charAlloc fontAlloc).bind FontLoad.font =
      some font) :
    font = ⟨totalCharacters image width height, packCharacters image width height yOffset, width, height,
      fontImageDrawSubtractFromIndex⟩ := by
  unfold fontLoadFromImage at created
  dsimp only at created
  split at created
  · cases created
  · split at created
    · cases created
    · dsimp only [Option.bind_some] at created
      split at created
      · cases created
      · exact (Option.some.inj created).symm

/-- Each glyph of a font of 9 by 16 pixels is drawn as its cell in the image, below the offset. -/
theorem fontDraw_pixel (image : Image) (loaded : IsLoaded image) (yOffset : Nat) (charAlloc fontAlloc : Bool)
    (font : Font) (created : (fontLoadFromImage (some image) fontImageCharacterWidthPixelSize
      fontImageCharacterHeightPixelSize yOffset charAlloc fontAlloc).bind FontLoad.font = some font)
    (info : GraphicsInfo) (hasPixels : info.HasPixels) (ignoreColor fontColor : FramebufferPixel)
    (pixels : UInt32 → FramebufferPixel) (screenX screenY : Int) (k : Nat) (inFont : k < font.characterCount)
    (x y : Nat) (inWidth : x < 9) (inHeight : y < 16) (onSurface : OnSurface info (screenX + x) (screenY + y)) :
    (fontDrawFromIndex info ignoreColor font screenX screenY k fontColor pixels).pixels
        (surfaceIndex info (screenX + x) (screenY + y)) =
      if isIgnored ignoreColor fontColor = false ∧ yOffset ≤ y ∧ (glyphPixel image k x y).isSet = true then fontColor
      else pixels (surfaceIndex info (screenX + x) (screenY + y)) := by
  obtain rfl := fontLoadFromImage_font created
  have few : k < 255 := by
    refine Nat.lt_of_lt_of_le inFont ?_
    change totalCharacters image _ _ ≤ 255
    unfold totalCharacters
    split <;> omega
  rw [fontDrawFromIndex_at (by omega) (Nat.le_of_lt inFont) (show 9 ≤ 2 ^ 32 by decide) (show 16 ≤ 2 ^ 32 by decide)
    hasPixels fontColor pixels inWidth inHeight onSurface]
  refine if_congr ?_ rfl rfl
  change bitAt (packCharacters image 9 16 yOffset) (glyphPlace 9 16 k x y).1 (glyphPlace 9 16 k x y).2 = true ∧ _ ↔ _
  rw [packCharacters_bit loaded inFont inWidth inHeight, Bool.and_eq_true, decide_eq_true_eq]
  exact and_comm

/-- A white cell. -/
def whiteCell : Raster := ⟨9, 16, fun _ _ => 255, fun _ _ => 255, fun _ _ => 255⟩

/-- Its bitmap. -/
def whiteBmp : FileBytes := fun i =>
  if i = 0 then 0x42 else if i = 1 then 0x4d
  else if i = 10 then 54
  else if i = 18 then 9
  else if i = 22 then 16
  else if i = 28 then 24
  else if i < 54 then 0
  else 255

theorem whiteBmp_encodes : EncodesBmp whiteCell false whiteBmp 502 where
  signature := ⟨rfl, rfl⟩
  width := rfl
  height := rfl
  colors := rfl
  uncompressed := rfl
  behindHeaders := Nat.le_refl 54
  inFile := by decide
  pixels x _ y _ := by
    have offset : littleEndian (fun i => whiteBmp i) 10 4 = 54 := rfl
    have white : ∀ i : Nat, 54 ≤ i → whiteBmp i = 255 := by
      intro i behind
      unfold whiteBmp
      rw [if_neg (by omega), if_neg (by omega), if_neg (by omega), if_neg (by omega), if_neg (by omega),
        if_neg (by omega), if_neg (by omega)]
    rw [offset]
    exact ⟨white _ (by omega), white _ (by omega), white _ (by omega)⟩

/-- The image of a white cell. -/
def whiteImage : Image := ⟨9, 16, loadRows whiteBmp (BmpRows.ofBytes whiteBmp)⟩

theorem whiteImage_loaded : IsLoaded whiteImage :=
  ⟨whiteBmp, 502, true, true, whiteBmp_encodes.image_eq (by decide) (by decide) (by decide)⟩

/-- The font with this glyph only. -/
def whiteFont : Font := ⟨1, packCharacters whiteImage 9 16 4, 9, 16, 32⟩

theorem fontDraw_pixel_white : (fontDrawFromIndex (square noTransparencyColor) noTransparencyColor whiteFont 0 (-4) 0
    ⟨9, 9, 9, 0⟩ fun _ => noTransparencyColor).pixels (surfaceIndex (square noTransparencyColor) 0 0) =
      ⟨9, 9, 9, 0⟩ := by
  have drawn := fontDraw_pixel whiteImage whiteImage_loaded 4 true true whiteFont rfl (square noTransparencyColor)
    (square_hasPixels _) noTransparencyColor ⟨9, 9, 9, 0⟩ (fun _ => noTransparencyColor) 0 (-4) 0 (by decide) 0 4
    (by decide) (by decide) (by decide)
  have white : (glyphPixel whiteImage 0 0 4).isSet = true := by
    have pixel := whiteBmp_encodes.data (by decide) (by decide) (by decide) (by decide)
      (show 0 < whiteCell.width by decide) (show 4 < whiteCell.height by decide)
    have place : gridIndex whiteImage.width (0 % charactersPerRow whiteImage 9 * 9 + 0)
        (0 / charactersPerRow whiteImage 9 * 16 + 4) = gridIndex whiteCell.width 0 4 := by decide
    rw [glyphPixel, place, whiteImage]
    dsimp only
    rw [pixel]
    rfl
  rw [if_pos ⟨by decide, by decide, white⟩] at drawn
  exact drawn

/-! ## Bytes of the character data -/

/-- Only bytes of the character data are written by a load, and only such bytes are read by `font_draw` for
any character, with the font that is returned. -/
structure FontSafe (load : Option FontLoad) : Prop where
  returns : load.isSome
  writes : ∀ result, load = some result → ∀ byte ∈ result.writes, byte < result.allocated
  reads : ∀ result, load = some result → ∀ font, result.font = some font →
    ∀ (info : GraphicsInfo) (ignoreColor : FramebufferPixel) (screenX screenY character : Int)
      (fontColor : FramebufferPixel) (pixels : UInt32 → FramebufferPixel),
      -2 ^ 31 ≤ character → character < 2 ^ 31 →
        ∀ byte ∈ (fontDraw info ignoreColor font screenX screenY character fontColor pixels).reads,
          byte < result.allocated

/-- The pixels of the cells that are not black belong to bytes of the character data. -/
def PacksInside (image : Image) (pixelWidth pixelHeight yOffset : Nat) : Prop :=
  ∀ row < totalRows image pixelHeight, ∀ col < charactersPerRow image pixelWidth, ∀ x < pixelWidth,
    ∀ y < pixelHeight, yOffset ≤ y →
      (graphicsImageGetPixel image (col * pixelWidth + x) (row * pixelHeight + y)).isSet = true →
        (glyphPlace pixelWidth pixelHeight (row * charactersPerRow image pixelWidth + col) x y).1 <
          characterSetBytes image pixelWidth pixelHeight

section Bytes

variable {image : Image} {width height yOffset : Nat}

theorem packWrites_inside_iff :
    (∀ byte ∈ packWrites image width height yOffset, byte < characterSetBytes image width height) ↔
      PacksInside image width height yOffset := by
  rw [packWrites, List.forall_mem_map]
  constructor
  · intro inside row inRows col inColumns x inWidth y inHeight behind isSet
    have isRound : ((row, col), (x, y)) ∈ packRounds image width height yOffset :=
      mem_packRounds.mpr ⟨⟨inRows, inColumns⟩, inWidth, behind, inHeight⟩
    exact inside ((row, col), (x, y)) (List.mem_filter.mpr ⟨isRound, isSet⟩)
  · rintro inside ⟨⟨row, col⟩, ⟨x, y⟩⟩ member
    obtain ⟨isRound, isSet⟩ := List.mem_filter.mp member
    obtain ⟨⟨inRows, inColumns⟩, inWidth, behind, inHeight⟩ := mem_packRounds.mp isRound
    exact inside row inRows col inColumns x inWidth y inHeight behind isSet

/-- A whole number of bytes for each character is at least what all of them need. -/
theorem bytesForBits_mul_le (count bits : Nat) : bytesForBits (count * bits) ≤ count * bytesForBits bits := by
  have covers : bits ≤ 8 * bytesForBits bits := by
    unfold bytesForBits
    split <;> omega
  have all : count * bits ≤ 8 * (count * bytesForBits bits) := by
    calc count * bits ≤ count * (8 * bytesForBits bits) := Nat.mul_le_mul_left _ covers
      _ = 8 * (count * bytesForBits bits) := Nat.mul_left_comm _ _ _
  unfold bytesForBits at all ⊢
  split <;> omega

/-- The character behind the last one starts at the end of the character data, or behind it. -/
theorem characterSetBytes_le (loaded : IsLoaded image) :
    characterSetBytes image width height ≤
      totalCharacters image width height * bytesPerCharacter width height % addressSpace := by
  by_cases none : totalCharacters image width height = 0
  · rw [characterSetBytes, none, Nat.zero_mul, Nat.zero_mul, Nat.zero_mul, Nat.zero_mod]
    decide
  -- With at least one character, a cell is not larger than the image.
  have few : totalCharacters image width height ≤ totalRows image height * charactersPerRow image width := by
    unfold totalCharacters
    split <;> omega
  have small := loaded.small.2.2
  have cells : totalCharacters image width height * (width * height) ≤ image.width * image.height := by
    calc totalCharacters image width height * (width * height)
        ≤ totalRows image height * charactersPerRow image width * (width * height) := Nat.mul_le_mul_right _ few
      _ = charactersPerRow image width * width * (totalRows image height * height) := by ring
      _ ≤ image.width * image.height := Nat.mul_le_mul (Nat.div_mul_le_self _ _) (Nat.div_mul_le_self _ _)
  have cell : width * height ≤ totalCharacters image width height * (width * height) :=
    Nat.le_mul_of_pos_left _ (Nat.pos_of_ne_zero none)
  have atMost : totalCharacters image width height ≤ 255 := by
    unfold totalCharacters
    split <;> omega
  have bytes : bytesForBits (width * height) ≤ 2 ^ 32 := by
    unfold bytesForBits
    split <;> omega
  have allBytes := Nat.mul_le_mul atMost bytes
  rw [characterSetBytes, bytesPerCharacter, addressSpace, Nat.mul_assoc, Nat.mod_eq_of_lt (by omega),
    Nat.mod_eq_of_lt (show width * height < 2 ^ 64 by omega), Nat.mod_eq_of_lt (by omega)]
  exact bytesForBits_mul_le _ _

/-- The index behind the last character passes the check of `font_draw_from_index`. -/
theorem fontDraw_reads_behind (loaded : IsLoaded image) (someWidth : 0 < width) (someHeight : 0 < height)
    (bytes : Nat → UInt8) (info : GraphicsInfo) (ignoreColor fontColor : FramebufferPixel)
    (pixels : UInt32 → FramebufferPixel) :
    ∃ byte ∈ (fontDraw info ignoreColor ⟨totalCharacters image width height, bytes, width, height,
        fontImageDrawSubtractFromIndex⟩ 0 0 (totalCharacters image width height + 32) fontColor pixels).reads,
      characterSetBytes image width height ≤ byte := by
  have atMost : totalCharacters image width height ≤ 255 := by
    unfold totalCharacters
    split <;> omega
  have index : sizeT (toInt32 (totalCharacters image width height + 32 - fontImageDrawSubtractFromIndex)) =
      totalCharacters image width height := by
    unfold sizeT toInt32 fontImageDrawSubtractFromIndex
    omega
  refine ⟨totalCharacters image width height * bytesPerCharacter width height % addressSpace, ?_,
    characterSetBytes_le loaded⟩
  rw [fontDraw, fontDrawFromIndex, index, if_neg (Nat.lt_irrefl _)]
  refine List.mem_map.mpr ⟨(0, 0), List.mem_product.mpr
    ⟨List.mem_range.mpr someWidth, List.mem_range.mpr someHeight⟩, ?_⟩
  simp only [drawPlace, glyphPlace, Nat.zero_mul, Nat.zero_mod, Nat.zero_div, Nat.add_zero]

/-- A font that is returned is not safe: the character behind its last one is drawn. -/
theorem not_fontSafe_of_font (loaded : IsLoaded image) (someWidth : width ≠ 0) (someHeight : height ≠ 0) :
    ¬ FontSafe (fontLoadFromImage (some image) width height yOffset true true) := by
  intro safe
  rw [fontLoadFromImage, if_neg (not_or.mpr ⟨someWidth, someHeight⟩)] at safe
  obtain ⟨byte, isRead, behind⟩ := fontDraw_reads_behind loaded (Nat.pos_of_ne_zero someWidth)
    (Nat.pos_of_ne_zero someHeight) (packCharacters image width height yOffset) (square noTransparencyColor)
    noTransparencyColor noTransparencyColor fun _ => noTransparencyColor
  have atMost : totalCharacters image width height ≤ 255 := by
    unfold totalCharacters
    split <;> omega
  have inside := safe.reads _ rfl _ rfl (square noTransparencyColor) noTransparencyColor 0 0
    (totalCharacters image width height + 32) noTransparencyColor (fun _ => noTransparencyColor)
    (by omega) (by omega) byte isRead
  exact absurd inside (Nat.not_lt.mpr behind)

end Bytes

/-- A load without a font reads nothing. -/
theorem FontSafe.of_no_font {allocated : Nat} {writes : List Nat} (inside : ∀ byte ∈ writes, byte < allocated) :
    FontSafe (some ⟨allocated, writes, none⟩) where
  returns := rfl
  writes result isResult := by
    obtain rfl := Option.some.inj isResult
    exact inside
  reads result isResult font isFont := by
    obtain rfl := Option.some.inj isResult
    cases isFont

/-- No font that is returned is safe.  When none is returned the load is safe if it does not divide by zero, and
if there is no memory for the character data, or else the cells fit into it. -/
theorem fontSafe_iff (imgFont : Option Image) (loaded : ∀ image, imgFont = some image → IsLoaded image)
    (pixelWidth pixelHeight yOffset : Nat) (charAlloc fontAlloc : Bool) :
    FontSafe (fontLoadFromImage imgFont pixelWidth pixelHeight yOffset charAlloc fontAlloc) ↔
      ∀ image, imgFont = some image → (pixelWidth ≠ 0 ∧ pixelHeight ≠ 0) ∧
        (charAlloc = false ∨ fontAlloc = false ∧ PacksInside image pixelWidth pixelHeight yOffset) := by
  cases imgFont with
  | none => exact iff_of_true (.of_no_font (by simp)) fun image isImage => by cases isImage
  | some image =>
    by_cases noCell : pixelWidth = 0 ∨ pixelHeight = 0
    · rw [fontLoadFromImage, if_pos noCell]
      refine iff_of_false (fun safe => ?_) fun fits => ?_
      · cases safe.returns
      · exact absurd noCell (not_or.mpr (fits image rfl).1)
    obtain ⟨someWidth, someHeight⟩ := not_or.mp noCell
    cases charAlloc with
    | false =>
      rw [fontLoadFromImage, if_neg noCell]
      exact iff_of_true (.of_no_font (by simp)) fun _ _ => ⟨⟨someWidth, someHeight⟩, .inl rfl⟩
    | true =>
      cases fontAlloc with
      | true =>
        refine iff_of_false (not_fontSafe_of_font (loaded image rfl) someWidth someHeight) fun fits => ?_
        cases (fits image rfl).2 with
        | inl none => cases none
        | inr none => cases none.1
      | false =>
        rw [fontLoadFromImage, if_neg noCell]
        constructor
        · intro safe image' isImage
          obtain rfl := Option.some.inj isImage
          exact ⟨⟨someWidth, someHeight⟩, .inr ⟨rfl, packWrites_inside_iff.mp (safe.writes _ rfl)⟩⟩
        · intro fits
          have inside := ((fits image rfl).2.resolve_left Bool.noConfusion).2
          exact .of_no_font (packWrites_inside_iff.mpr inside)

/-- The white cell fits into the bytes of its only character. -/
theorem fontSafe_white : FontSafe (fontLoadFromImage (some whiteImage) 9 16 4 true false) := by
  refine (fontSafe_iff (some whiteImage) ?_ 9 16 4 true false).mpr ?_
  · intro image isImage
    exact Option.some.inj isImage ▸ whiteImage_loaded
  · intro image isImage
    obtain rfl := Option.some.inj isImage
    refine ⟨by decide, .inr ⟨rfl, fun row inRows col inColumns x inWidth y inHeight _ _ => ?_⟩⟩
    have bytes : characterSetBytes whiteImage 9 16 = 18 := by decide
    have cells : totalRows whiteImage 16 = 1 ∧ charactersPerRow whiteImage 9 = 1 := by decide
    rw [cells.1] at inRows
    rw [cells.2] at inColumns ⊢
    rw [glyphPlace_eq (by omega) inWidth inHeight, bytes]
    omega

/-- A font of one character: `!` is drawn from the bytes behind it. -/
theorem fontSafe_behind_last : IsLoaded whiteImage ∧
    ¬ FontSafe (fontLoadFromImage (some whiteImage) 9 16 4 true true) :=
  ⟨whiteImage_loaded, not_fontSafe_of_font whiteImage_loaded (by decide) (by decide)⟩

end ViOS.Graphics
