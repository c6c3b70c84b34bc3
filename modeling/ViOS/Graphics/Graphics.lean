import ViOS.Lib.Painting
import Mathlib.Data.UInt
import Mathlib.Tactic.SplitIfs

/-! # Redrawing the screen

`graphics.c` keeps a tree of graphics nodes, each with its own pixels, and copies them to
the framebuffer: the whole tree with `graphics_redraw_all`, or a rectangle of it with
`graphics_redraw_region`, which clips the rectangle to each child it overlaps.

* `graphicsPastePixelsToFramebuffer`, `graphicsRedraw`, `graphicsRedrawRegion` — the code.
* `Screen`, `Nested` — the screen that `graphics_setup` leaves, and the trees under it.
* `layers` — a tree as a stack of layers, in painter's order.
* `graphicsRedraw_eq_paintAll`, `graphicsRedrawRegion_eq_paintAll` — both ways of drawing paint
  the layers, the second one clipped.
* `graphicsRedrawRegion_eq_redrawAll` — a region is redrawn as the whole screen would be.
-/

namespace ViOS.Graphics

open ViOS.Lib

/-! ## The nodes -/

/-- `struct framebuffer_pixel`. -/
structure FramebufferPixel where
  blue : UInt8
  green : UInt8
  red : UInt8
  reserved : UInt8
  deriving DecidableEq, Repr

/-- The fields of `struct graphics_info` that drawing reads.  `pixels` and the framebuffer are
indexed by `uint32_t` expressions. -/
structure GraphicsInfo where
  horizontalResolution : UInt32
  verticalResolution : UInt32
  pixelsPerScanline : UInt32
  pixels : UInt32 → FramebufferPixel
  width : UInt32
  height : UInt32
  startingX : UInt32
  startingY : UInt32
  transparencyKey : FramebufferPixel

/-- A `struct graphics_info` pointer, with the children behind it in the order of their vector. -/
inductive GraphicsTree where
  | null
  | node (info : GraphicsInfo) (children : List GraphicsTree)

/-- The contents of the framebuffer. -/
abbrev Framebuffer := UInt32 → FramebufferPixel

/-! ## Drawing -/

/-- No pixel of this colour is transparent. -/
def noTransparencyColor : FramebufferPixel := ⟨0, 0, 0, 0⟩

/-- The pixel is left out of the drawing. -/
def isTransparent (info : GraphicsInfo) (p : FramebufferPixel) : Bool :=
  info.transparencyKey ≠ noTransparencyColor ∧ p = info.transparencyKey

/-- One round of the copying loops. -/
def pastePixel (screen srcInfo : GraphicsInfo) (srcX srcY dstAbsX dstAbsY : UInt32)
    (framebuffer : Framebuffer) (ly lx : UInt32) : Framebuffer :=
  let p := srcInfo.pixels ((srcY + ly) * srcInfo.width + (srcX + lx))
  if isTransparent srcInfo p then framebuffer
  else Function.update framebuffer ((dstAbsY + ly) * screen.pixelsPerScanline + (dstAbsX + lx)) p

/-- The loops of `graphics_paste_pixels_to_framebuffer`, line by line. -/
def pasteLines (screen srcInfo : GraphicsInfo) (srcX srcY dstAbsX dstAbsY clippedW clippedH : UInt32)
    (framebuffer : Framebuffer) : Framebuffer :=
  (List.range clippedH.toNat).foldl (fun framebuffer ly =>
    (List.range clippedW.toNat).foldl (fun framebuffer lx =>
      pastePixel screen srcInfo srcX srcY dstAbsX dstAbsY framebuffer (.ofNat ly) (.ofNat lx))
      framebuffer) framebuffer

/-- `graphics_paste_pixels_to_framebuffer`. -/
def graphicsPastePixelsToFramebuffer (screen srcInfo : GraphicsInfo)
    (srcX srcY width height dstAbsX dstAbsY : UInt32) (framebuffer : Framebuffer) : Framebuffer :=
  let srcXEnd := if srcX + width > srcInfo.width then srcInfo.width else srcX + width
  let srcYEnd := if srcY + height > srcInfo.height then srcInfo.height else srcY + height
  let finalW := srcXEnd - srcX
  let finalH := srcYEnd - srcY
  if finalW = 0 ∨ finalH = 0 then framebuffer
  else
    let screenW := screen.horizontalResolution
    let screenH := screen.verticalResolution
    if dstAbsX ≥ screenW ∨ dstAbsY ≥ screenH then framebuffer
    else
      let dstXEnd := if dstAbsX + finalW > screenW then screenW else dstAbsX + finalW
      let dstYEnd := if dstAbsY + finalH > screenH then screenH else dstAbsY + finalH
      let clippedW := dstXEnd - dstAbsX
      let clippedH := dstYEnd - dstAbsY
      if clippedW = 0 ∨ clippedH = 0 then framebuffer
      else pasteLines screen srcInfo srcX srcY dstAbsX dstAbsY clippedW clippedH framebuffer

/-- `graphics_redraw_only`. -/
def graphicsRedrawOnly (screen g : GraphicsInfo) (framebuffer : Framebuffer) : Framebuffer :=
  graphicsPastePixelsToFramebuffer screen g 0 0 g.width g.height g.startingX g.startingY framebuffer

mutual

/-- `graphics_redraw`. -/
def graphicsRedraw (screen : GraphicsInfo) : GraphicsTree → Framebuffer → Framebuffer
  | .null, framebuffer => framebuffer
  | .node g children, framebuffer =>
    graphicsRedrawChildren screen children (graphicsRedrawOnly screen g framebuffer)

/-- `graphics_redraw_children`. -/
def graphicsRedrawChildren (screen : GraphicsInfo) : List GraphicsTree → Framebuffer → Framebuffer
  | [], framebuffer => framebuffer
  | child :: rest, framebuffer =>
    graphicsRedrawChildren screen rest (graphicsRedraw screen child framebuffer)

end

/-- `graphics_redraw_all`, with the tree of `graphics_screen_info`. -/
def graphicsRedrawAll (screen : GraphicsInfo) (children : List GraphicsTree) (framebuffer : Framebuffer) :
    Framebuffer :=
  graphicsRedraw screen (.node screen children) framebuffer

/-- A rectangle of the screen, as `graphics_redraw_region` passes it to the children. -/
structure RegionAbs where
  left : UInt32
  top : UInt32
  right : UInt32
  bottom : UInt32

mutual

/-- `graphics_redraw_region`. -/
def graphicsRedrawRegion (screen : GraphicsInfo) :
    GraphicsTree → UInt32 → UInt32 → UInt32 → UInt32 → Framebuffer → Framebuffer
  | .null, _, _, _, _, framebuffer => framebuffer
  | .node g children, localX, localY, width, height, framebuffer =>
    if localX ≥ g.width ∨ localY ≥ g.height then framebuffer
    else
      let width := if localX + width > g.width then g.width - localX else width
      let height := if localY + height > g.height then g.height - localY else height
      let dstAbsX := g.startingX + localX
      let dstAbsY := g.startingY + localY
      redrawRegionChildren screen ⟨dstAbsX, dstAbsY, dstAbsX + width, dstAbsY + height⟩ children
        (graphicsPastePixelsToFramebuffer screen g localX localY width height dstAbsX dstAbsY
          framebuffer)

/-- The loop of `graphics_redraw_region` over the children. -/
def redrawRegionChildren (screen : GraphicsInfo) (region : RegionAbs) :
    List GraphicsTree → Framebuffer → Framebuffer
  | [], framebuffer => framebuffer
  | .null :: rest, framebuffer => redrawRegionChildren screen region rest framebuffer
  | .node child grandchildren :: rest, framebuffer =>
    let intersectLeft := max child.startingX region.left
    let intersectTop := max child.startingY region.top
    let intersectRight := min (child.startingX + child.width) region.right
    let intersectBottom := min (child.startingY + child.height) region.bottom
    redrawRegionChildren screen region rest
      (if intersectRight > intersectLeft ∧ intersectBottom > intersectTop then
        graphicsRedrawRegion screen (.node child grandchildren) (intersectLeft - child.startingX)
          (intersectTop - child.startingY) (intersectRight - intersectLeft)
          (intersectBottom - intersectTop) framebuffer
      else framebuffer)

end

/-! ## The screen and the trees under it -/

/-- The part of `graphics_setup` that places the screen. -/
def graphicsSetup (mainGraphicsInfo : GraphicsInfo) : GraphicsInfo :=
  { mainGraphicsInfo with
    width := mainGraphicsInfo.horizontalResolution
    height := mainGraphicsInfo.verticalResolution
    startingX := 0
    startingY := 0 }

/-- The screen of `graphics_screen_info`.  `scanline` and `indexed` are about the video mode of the
firmware: a line of the framebuffer holds a line of pixels, and every pixel has its own index. -/
structure Screen where
  info : GraphicsInfo
  startsLeft : info.startingX = 0
  startsTop : info.startingY = 0
  wide : info.width = info.horizontalResolution
  high : info.height = info.verticalResolution
  scanline : info.horizontalResolution.toNat ≤ info.pixelsPerScanline.toNat
  indexed : info.verticalResolution.toNat * info.pixelsPerScanline.toNat ≤ 2 ^ 32

/-- `graphics_setup` leaves a screen, in any such video mode. -/
def Screen.setup (mode : GraphicsInfo)
    (scanline : mode.horizontalResolution.toNat ≤ mode.pixelsPerScanline.toNat)
    (indexed : mode.verticalResolution.toNat * mode.pixelsPerScanline.toNat ≤ 2 ^ 32) : Screen :=
  ⟨graphicsSetup mode, rfl, rfl, rfl, rfl, scanline, indexed⟩

/-- A rectangle of the screen. -/
structure Rect where
  left : Nat
  right : Nat
  top : Nat
  bottom : Nat

/-- The absolute rectangle of a node. -/
def infoRect (info : GraphicsInfo) : Rect where
  left := info.startingX.toNat
  right := info.startingX.toNat + info.width.toNat
  top := info.startingY.toNat
  bottom := info.startingY.toNat + info.height.toNat

/-- One rectangle lies inside another. -/
structure Rect.Inside (inner outer : Rect) : Prop where
  left : outer.left ≤ inner.left
  right : inner.right ≤ outer.right
  top : outer.top ≤ inner.top
  bottom : inner.bottom ≤ outer.bottom

mutual

/-- The rectangle of every node of the tree lies inside its parent's, the root's inside `outer`. -/
def Nested (outer : Rect) : GraphicsTree → Prop
  | .null => True
  | .node info children => (infoRect info).Inside outer ∧ NestedAll (infoRect info) children

def NestedAll (outer : Rect) : List GraphicsTree → Prop
  | [] => True
  | child :: rest => Nested outer child ∧ NestedAll outer rest

end

/-! ## Positions in the framebuffer -/

def column (screen : GraphicsInfo) (index : UInt32) : Nat :=
  index.toNat % screen.pixelsPerScanline.toNat

def row (screen : GraphicsInfo) (index : UInt32) : Nat :=
  index.toNat / screen.pixelsPerScanline.toNat

/-- The framebuffer pixel at an index is in the rectangle. -/
def Rect.Covers (rect : Rect) (screen : GraphicsInfo) (index : UInt32) : Prop :=
  rect.left ≤ column screen index ∧ column screen index < rect.right ∧
    rect.top ≤ row screen index ∧ row screen index < rect.bottom

instance (rect : Rect) (screen : GraphicsInfo) : DecidablePred (rect.Covers screen) := fun _ =>
  inferInstanceAs (Decidable (_ ∧ _))

/-- The framebuffer index of a position on the screen. -/
def pixelIndex (screen : GraphicsInfo) (x y : Nat) : UInt32 :=
  .ofNat (y * screen.pixelsPerScanline.toNat + x)

theorem pixelIndex_column_row (screen : GraphicsInfo) (index : UInt32) :
    pixelIndex screen (column screen index) (row screen index) = index := by
  rw [pixelIndex, column, row, Nat.mul_comm, Nat.div_add_mod, UInt32.ofNat_toNat]

section OnScreen

variable (screen : Screen) {x y : Nat} (onScreenX : x < screen.info.horizontalResolution.toNat)
  (onScreenY : y < screen.info.verticalResolution.toNat)

include onScreenX onScreenY

theorem pixelIndex_toNat :
    (pixelIndex screen.info x y).toNat = y * screen.info.pixelsPerScanline.toNat + x := by
  have inLine : x < screen.info.pixelsPerScanline.toNat := Nat.lt_of_lt_of_le onScreenX screen.scanline
  have lines : (y + 1) * screen.info.pixelsPerScanline.toNat ≤
      screen.info.verticalResolution.toNat * screen.info.pixelsPerScanline.toNat :=
    Nat.mul_le_mul_right _ onScreenY
  have indexed := screen.indexed
  rw [Nat.add_mul, Nat.one_mul] at lines
  rw [pixelIndex, UInt32.toNat_ofNat']
  exact Nat.mod_eq_of_lt (by omega)

theorem column_pixelIndex : column screen.info (pixelIndex screen.info x y) = x := by
  have inLine : x < screen.info.pixelsPerScanline.toNat := Nat.lt_of_lt_of_le onScreenX screen.scanline
  rw [column, pixelIndex_toNat screen onScreenX onScreenY, Nat.mul_add_mod_self_right,
    Nat.mod_eq_of_lt inLine]

theorem row_pixelIndex : row screen.info (pixelIndex screen.info x y) = y := by
  have inLine : x < screen.info.pixelsPerScanline.toNat := Nat.lt_of_lt_of_le onScreenX screen.scanline
  rw [row, pixelIndex_toNat screen onScreenX onScreenY, Nat.mul_comm, Nat.mul_add_div (by omega),
    Nat.div_eq_of_lt inLine, Nat.add_zero]

end OnScreen

/-! ## A tree as a stack of layers -/

/-- What a node paints. -/
def infoLayer (screen info : GraphicsInfo) : Layer UInt32 FramebufferPixel := fun index =>
  if (infoRect info).Covers screen index then
    let p := info.pixels (.ofNat ((row screen index - info.startingY.toNat) * info.width.toNat +
      (column screen index - info.startingX.toNat)))
    if isTransparent info p then none else some p
  else none

mutual

def layers (screen : GraphicsInfo) : GraphicsTree → List (Layer UInt32 FramebufferPixel)
  | .null => []
  | .node info children => infoLayer screen info :: layersAll screen children

def layersAll (screen : GraphicsInfo) : List GraphicsTree → List (Layer UInt32 FramebufferPixel)
  | [] => []
  | child :: rest => layers screen child ++ layersAll screen rest

end

theorem infoLayer_covers {screen info : GraphicsInfo} {index : UInt32}
    (painted : infoLayer screen info index ≠ none) : (infoRect info).Covers screen index := by
  unfold infoLayer at painted
  split at painted
  · assumption
  · exact absurd rfl painted

theorem Rect.Inside.covers {inner outer : Rect} (inside : inner.Inside outer) {screen : GraphicsInfo}
    {index : UInt32} (covers : inner.Covers screen index) : outer.Covers screen index :=
  ⟨Nat.le_trans inside.left covers.1, Nat.lt_of_lt_of_le covers.2.1 inside.right,
    Nat.le_trans inside.top covers.2.2.1, Nat.lt_of_lt_of_le covers.2.2.2 inside.bottom⟩

mutual

/-- The layers of a nested tree stay inside the rectangle it is nested in. -/
theorem layers_covers {screen : GraphicsInfo} {outer : Rect} : ∀ {tree : GraphicsTree},
    Nested outer tree → ∀ layer ∈ layers screen tree, ∀ index, layer index ≠ none →
      outer.Covers screen index
  | .null, _, layer, isLayer, _, _ => absurd isLayer List.not_mem_nil
  | .node info children, nested, layer, isLayer, index, painted => by
    rw [Nested] at nested
    rw [layers] at isLayer
    refine nested.1.covers ?_
    rcases List.mem_cons.mp isLayer with rfl | below
    · exact infoLayer_covers painted
    · exact layersAll_covers nested.2 layer below index painted

theorem layersAll_covers {screen : GraphicsInfo} {outer : Rect} : ∀ {trees : List GraphicsTree},
    NestedAll outer trees → ∀ layer ∈ layersAll screen trees, ∀ index, layer index ≠ none →
      outer.Covers screen index
  | [], _, layer, isLayer, _, _ => absurd isLayer List.not_mem_nil
  | child :: rest, nested, layer, isLayer, index, painted => by
    rw [NestedAll] at nested
    rw [layersAll] at isLayer
    rcases List.mem_append.mp isLayer with inChild | inRest
    · exact layers_covers nested.1 layer inChild index painted
    · exact layersAll_covers nested.2 layer inRest index painted

end

/-! ## Pasting paints a layer -/

/-- The rectangle of a part of a node. -/
def partRect (info : GraphicsInfo) (localX localY width height : UInt32) : Rect where
  left := info.startingX.toNat + localX.toNat
  right := info.startingX.toNat + localX.toNat + width.toNat
  top := info.startingY.toNat + localY.toNat
  bottom := info.startingY.toNat + localY.toNat + height.toNat

/-- The rounds of the copying loops, line by line. -/
def rounds (width height : UInt32) : List (Nat × Nat) :=
  (List.range height.toNat).flatMap fun ly => (List.range width.toNat).map fun lx => (ly, lx)

theorem mem_rounds {width height : UInt32} {ly lx : Nat} :
    (ly, lx) ∈ rounds width height ↔ ly < height.toNat ∧ lx < width.toNat := by
  simp [rounds]

/-- The pixel a node draws at one of its positions. -/
def drawnPixel (info : GraphicsInfo) (x y : Nat) : Option FramebufferPixel :=
  let p := info.pixels (.ofNat (y * info.width.toNat + x))
  if isTransparent info p then none else some p

theorem infoLayer_eq (screen info : GraphicsInfo) (index : UInt32) : infoLayer screen info index =
    if (infoRect info).Covers screen index then
      drawnPixel info (column screen index - info.startingX.toNat)
        (row screen index - info.startingY.toNat)
    else none := rfl

/-- A sum of `uint32_t` values is the index of the sum. -/
theorem ofNat_index (y x width : UInt32) (ly lx : Nat) :
    (y + .ofNat ly) * width + (x + .ofNat lx) =
      .ofNat ((y.toNat + ly) * width.toNat + (x.toNat + lx)) := by
  simp only [UInt32.ofNat_add, UInt32.ofNat_mul, UInt32.ofNat_toNat]

theorem pasteLines_eq_foldl (screen src : GraphicsInfo) (srcX srcY dstAbsX dstAbsY width height : UInt32)
    (framebuffer : Framebuffer) :
    pasteLines screen src srcX srcY dstAbsX dstAbsY width height framebuffer =
      (rounds width height).foldl (writeRound
        (fun (ly, lx) => pixelIndex screen (dstAbsX.toNat + lx) (dstAbsY.toNat + ly))
        (fun (ly, lx) => drawnPixel src (srcX.toNat + lx) (srcY.toNat + ly))) framebuffer := by
  rw [rounds, List.foldl_flatMap]
  simp only [List.foldl_map]
  unfold pasteLines
  congr 1
  funext framebuffer ly
  congr 1
  funext framebuffer lx
  simp only [pastePixel, writeRound, drawnPixel, pixelIndex, ofNat_index]
  split
  · simp_all
  · simp_all

theorem pasteLines_empty {screen src : GraphicsInfo} {srcX srcY dstAbsX dstAbsY width height : UInt32}
    {framebuffer : Framebuffer} (empty : width = 0 ∨ height = 0) :
    pasteLines screen src srcX srcY dstAbsX dstAbsY width height framebuffer = framebuffer := by
  rw [pasteLines_eq_foldl]
  have noRounds : rounds width height = [] := by
    rcases empty with rfl | rfl <;> simp [rounds]
  rw [noRounds, List.foldl_nil]

theorem add_toNat_of_le {a b bound : UInt32} (fits : a.toNat + b.toNat ≤ bound.toNat) :
    (a + b).toNat = a.toNat + b.toNat := by
  rw [UInt32.toNat_add]
  exact Nat.mod_eq_of_lt (Nat.lt_of_le_of_lt fits bound.toNat_lt)

/-- A length that fits is not clipped. -/
theorem length_of_le {start length bound : UInt32} (fits : start.toNat + length.toNat ≤ bound.toNat) :
    (if start + length > bound then bound else start + length) - start = length := by
  rw [if_neg, UInt32.add_comm, UInt32.add_sub_cancel]
  rw [gt_iff_lt, UInt32.lt_iff_toNat_lt, add_toNat_of_le fits]
  omega

section Paste

variable (screen : Screen) (src : GraphicsInfo) (inside : (infoRect src).Inside (infoRect screen.info))
  {srcX srcY width height : UInt32} (fitsX : srcX.toNat + width.toNat ≤ src.width.toNat)
  (fitsY : srcY.toNat + height.toNat ≤ src.height.toNat)

include inside fitsX fitsY

/-- The part of a node that is pasted lies on the screen. -/
theorem part_onScreen :
    src.startingX.toNat + srcX.toNat + width.toNat ≤ screen.info.horizontalResolution.toNat ∧
      src.startingY.toNat + srcY.toNat + height.toNat ≤ screen.info.verticalResolution.toNat := by
  have right := inside.right
  have bottom := inside.bottom
  simp only [infoRect, screen.startsLeft, screen.startsTop, screen.wide, screen.high,
    UInt32.toNat_zero] at right bottom
  omega

theorem pasteLines_eq_paint (framebuffer : Framebuffer) :
    pasteLines screen.info src srcX srcY (src.startingX + srcX) (src.startingY + srcY) width height
        framebuffer =
      paint (clip ((partRect src srcX srcY width height).Covers screen.info)
        (infoLayer screen.info src)) framebuffer := by
  obtain ⟨onScreenX, onScreenY⟩ := part_onScreen screen src inside fitsX fitsY
  have dstX := add_toNat_of_le (Nat.le_trans (Nat.le_add_right _ _) onScreenX)
  have dstY := add_toNat_of_le (Nat.le_trans (Nat.le_add_right _ _) onScreenY)
  rw [pasteLines_eq_foldl, dstX, dstY]
  apply foldl_write_eq_paint
  · rintro ⟨ly, lx⟩ isRound
    obtain ⟨inHeight, inWidth⟩ := mem_rounds.mp isRound
    have atColumn := column_pixelIndex screen
      (show src.startingX.toNat + srcX.toNat + lx < _ by omega)
      (show src.startingY.toNat + srcY.toNat + ly < _ by omega)
    have atRow := row_pixelIndex screen
      (show src.startingX.toNat + srcX.toNat + lx < _ by omega)
      (show src.startingY.toNat + srcY.toNat + ly < _ by omega)
    have covers : (partRect src srcX srcY width height).Covers screen.info
        (pixelIndex screen.info (src.startingX.toNat + srcX.toNat + lx)
          (src.startingY.toNat + srcY.toNat + ly)) := by
      simp only [Rect.Covers, partRect, atColumn, atRow]
      omega
    have coversNode : (infoRect src).Covers screen.info
        (pixelIndex screen.info (src.startingX.toNat + srcX.toNat + lx)
          (src.startingY.toNat + srcY.toNat + ly)) := by
      simp only [Rect.Covers, infoRect, atColumn, atRow]
      omega
    rw [clip, if_pos covers, infoLayer_eq, if_pos coversNode, atColumn, atRow]
    congr 1 <;> omega
  · -- every pixel of the part is the round of its own row and column
    intro index painted
    have covers : (partRect src srcX srcY width height).Covers screen.info index := by
      by_contra outside
      exact painted (if_neg outside)
    obtain ⟨left, right, top, bottom⟩ := covers
    simp only [partRect] at left right top bottom
    refine ⟨(row screen.info index - (src.startingY.toNat + srcY.toNat),
      column screen.info index - (src.startingX.toNat + srcX.toNat)), mem_rounds.mpr ?_, ?_⟩
    · omega
    · dsimp only
      rw [Nat.add_sub_of_le left, Nat.add_sub_of_le top]
      exact pixelIndex_column_row screen.info index

/-- Nothing of the part is clipped away, so the early returns are for empty loops. -/
theorem graphicsPastePixelsToFramebuffer_eq_paint (framebuffer : Framebuffer) :
    graphicsPastePixelsToFramebuffer screen.info src srcX srcY width height (src.startingX + srcX)
        (src.startingY + srcY) framebuffer =
      paint (clip ((partRect src srcX srcY width height).Covers screen.info)
        (infoLayer screen.info src)) framebuffer := by
  obtain ⟨onScreenX, onScreenY⟩ := part_onScreen screen src inside fitsX fitsY
  rw [← pasteLines_eq_paint screen src inside fitsX fitsY]
  have dstX := add_toNat_of_le (Nat.le_trans (Nat.le_add_right _ _) onScreenX)
  have dstY := add_toNat_of_le (Nat.le_trans (Nat.le_add_right _ _) onScreenY)
  rw [← dstX] at onScreenX
  rw [← dstY] at onScreenY
  unfold graphicsPastePixelsToFramebuffer
  simp only [length_of_le fitsX, length_of_le fitsY, length_of_le onScreenX, length_of_le onScreenY]
  by_cases empty : width = 0 ∨ height = 0
  · rw [if_pos empty, pasteLines_empty empty]
  · rw [if_neg empty, if_neg, if_neg empty]
    rw [not_or, ← UInt32.toNat_inj, ← UInt32.toNat_inj] at empty
    rw [ge_iff_le, ge_iff_le, UInt32.le_iff_toNat_le, UInt32.le_iff_toNat_le]
    simp only [UInt32.toNat_zero] at empty
    omega

end Paste

/-! ## Redrawing the whole tree -/

theorem Rect.Inside.refl (rect : Rect) : rect.Inside rect :=
  ⟨Nat.le_refl _, Nat.le_refl _, Nat.le_refl _, Nat.le_refl _⟩

theorem Rect.Inside.trans {inner middle outer : Rect} (first : inner.Inside middle)
    (second : middle.Inside outer) : inner.Inside outer where
  left := Nat.le_trans second.left first.left
  right := Nat.le_trans first.right second.right
  top := Nat.le_trans second.top first.top
  bottom := Nat.le_trans first.bottom second.bottom

theorem graphicsRedrawOnly_eq_paint (screen : Screen) {info : GraphicsInfo}
    (inside : (infoRect info).Inside (infoRect screen.info)) (framebuffer : Framebuffer) :
    graphicsRedrawOnly screen.info info framebuffer =
      paint (infoLayer screen.info info) framebuffer := by
  have pasted := graphicsPastePixelsToFramebuffer_eq_paint screen info inside
    (show (0 : UInt32).toNat + info.width.toNat ≤ info.width.toNat by simp)
    (show (0 : UInt32).toNat + info.height.toNat ≤ info.height.toNat by simp) framebuffer
  simp only [UInt32.add_zero] at pasted
  rw [graphicsRedrawOnly, pasted, clip_eq_self]
  intro index painted
  exact infoLayer_covers painted

mutual

theorem graphicsRedraw_eq_paintAll (screen : Screen) {outer : Rect}
    (onScreen : outer.Inside (infoRect screen.info)) : ∀ {tree : GraphicsTree},
    Nested outer tree → ∀ framebuffer, graphicsRedraw screen.info tree framebuffer =
      paintAll (layers screen.info tree) framebuffer
  | .null, _, framebuffer => by
    rw [graphicsRedraw, layers, paintAll_nil]
  | .node info children, nested, framebuffer => by
    rw [Nested] at nested
    have inside := nested.1.trans onScreen
    rw [graphicsRedraw, graphicsRedrawChildren_eq_paintAll screen inside nested.2,
      graphicsRedrawOnly_eq_paint screen inside, layers, paintAll_cons]

theorem graphicsRedrawChildren_eq_paintAll (screen : Screen) {outer : Rect}
    (onScreen : outer.Inside (infoRect screen.info)) : ∀ {children : List GraphicsTree},
    NestedAll outer children → ∀ framebuffer,
      graphicsRedrawChildren screen.info children framebuffer =
        paintAll (layersAll screen.info children) framebuffer
  | [], _, framebuffer => by
    rw [graphicsRedrawChildren, layersAll, paintAll_nil]
  | child :: rest, nested, framebuffer => by
    rw [NestedAll] at nested
    rw [graphicsRedrawChildren, graphicsRedrawChildren_eq_paintAll screen onScreen nested.2,
      graphicsRedraw_eq_paintAll screen onScreen nested.1, layersAll, paintAll_append]

end

/-! ## Redrawing a region -/

/-- The rectangle of a region that is passed to the children. -/
def RegionAbs.rect (region : RegionAbs) : Rect :=
  ⟨region.left.toNat, region.right.toNat, region.top.toNat, region.bottom.toNat⟩

/-- The rectangle of a part of a tree. -/
def treePart : GraphicsTree → UInt32 → UInt32 → UInt32 → UInt32 → Rect
  | .null, _, _, _, _ => ⟨0, 0, 0, 0⟩
  | .node info _, localX, localY, width, height => partRect info localX localY width height

theorem map_clip_congr {stack : List (Layer UInt32 FramebufferPixel)} {screen : GraphicsInfo}
    {outer region other : Rect}
    (within : ∀ layer ∈ stack, ∀ index, layer index ≠ none → outer.Covers screen index)
    (same : ∀ index, outer.Covers screen index → (region.Covers screen index ↔ other.Covers screen index)) :
    stack.map (clip (region.Covers screen)) = stack.map (clip (other.Covers screen)) :=
  List.map_congr_left fun layer isLayer =>
    clip_congr fun index painted => same index (within layer isLayer index painted)

theorem paintAll_map_clip_outside {stack : List (Layer UInt32 FramebufferPixel)} {screen : GraphicsInfo}
    {outer region : Rect}
    (within : ∀ layer ∈ stack, ∀ index, layer index ≠ none → outer.Covers screen index)
    (apart : ∀ index, outer.Covers screen index → ¬ region.Covers screen index)
    (framebuffer : Framebuffer) :
    paintAll (stack.map (clip (region.Covers screen))) framebuffer = framebuffer := by
  refine paintAll_of_none ?_ framebuffer
  intro clipped isClipped index
  obtain ⟨layer, isLayer, rfl⟩ := List.mem_map.mp isClipped
  exact clip_eq_none (fun index painted => apart index (within layer isLayer index painted)) index

theorem toNat_max (a b : UInt32) : (max a b).toNat = max a.toNat b.toNat := by
  change (if a ≤ b then b else a).toNat = _
  split_ifs with order <;> rw [UInt32.le_iff_toNat_le] at order <;> omega

theorem toNat_min (a b : UInt32) : (min a b).toNat = min a.toNat b.toNat := by
  change (if a ≤ b then a else b).toNat = _
  split_ifs with order <;> rw [UInt32.le_iff_toNat_le] at order <;> omega

/-- The extent of a region after it is clipped to a node. -/
theorem clipped_toNat {start length bound : UInt32} (inside : start.toNat < bound.toNat)
    (noWrap : start.toNat + length.toNat < 2 ^ 32) :
    (if start + length > bound then bound - start else length).toNat =
      min length.toNat (bound.toNat - start.toNat) := by
  have sum : (start + length).toNat = start.toNat + length.toNat := by
    rw [UInt32.toNat_add]
    exact Nat.mod_eq_of_lt noWrap
  split_ifs with exceeds
  · rw [gt_iff_lt, UInt32.lt_iff_toNat_lt, sum] at exceeds
    rw [UInt32.toNat_sub_of_le _ _ (UInt32.le_iff_toNat_le.mpr (by omega))]
    omega
  · rw [gt_iff_lt, UInt32.lt_iff_toNat_lt, sum] at exceeds
    omega

section Intersection

variable {start length bound low high : UInt32} (fits : start.toNat + length.toNat ≤ bound.toNat)

include fits

theorem overlaps_iff : min (start + length) high > max start low ↔
    max start.toNat low.toNat < min (start.toNat + length.toNat) high.toNat := by
  rw [gt_iff_lt, UInt32.lt_iff_toNat_lt, toNat_max, toNat_min, add_toNat_of_le fits]

/-- The two ends of an intersection that is not empty. -/
theorem intersect_toNat (overlaps : min (start + length) high > max start low) :
    start.toNat + (max start low - start).toNat = max start.toNat low.toNat ∧
      start.toNat + (max start low - start).toNat +
        (min (start + length) high - max start low).toNat =
          min (start.toNat + length.toNat) high.toNat := by
  have order := (overlaps_iff fits).mp overlaps
  have left : start ≤ max start low := by
    rw [UInt32.le_iff_toNat_le, toNat_max]
    omega
  have right : max start low ≤ min (start + length) high := UInt32.le_of_lt overlaps
  rw [UInt32.toNat_sub_of_le _ _ left, UInt32.toNat_sub_of_le _ _ right, toNat_max, toNat_min,
    add_toNat_of_le fits]
  omega

end Intersection

mutual

/-- A region of a tree is drawn by the clipped layers of the tree.  The induction is on the tree;
the region shrinks on the way down, but only where the tree below it has no layers. -/
theorem graphicsRedrawRegion_eq_paintAll (screen : Screen) {outer : Rect}
    (onScreen : outer.Inside (infoRect screen.info)) : ∀ {tree : GraphicsTree}, Nested outer tree →
    ∀ {localX localY width height : UInt32}, localX.toNat + width.toNat < 2 ^ 32 →
      localY.toNat + height.toNat < 2 ^ 32 → ∀ framebuffer,
      graphicsRedrawRegion screen.info tree localX localY width height framebuffer =
        paintAll ((layers screen.info tree).map
          (clip ((treePart tree localX localY width height).Covers screen.info))) framebuffer
  | .null, _, _, _, _, _, _, _, framebuffer => by
    rw [graphicsRedrawRegion, layers, List.map_nil, paintAll_nil]
  | .node info children, nested, localX, localY, width, height, noWrapX, noWrapY, framebuffer => by
    rw [Nested] at nested
    have inside := nested.1.trans onScreen
    have within : ∀ layer ∈ layers screen.info (.node info children), ∀ index, layer index ≠ none →
        (infoRect info).Covers screen.info index :=
      layers_covers ⟨.refl _, nested.2⟩
    rw [graphicsRedrawRegion]
    dsimp only
    split
    · rename_i outside
      rw [ge_iff_le, ge_iff_le, UInt32.le_iff_toNat_le, UInt32.le_iff_toNat_le] at outside
      refine (paintAll_map_clip_outside within ?_ framebuffer).symm
      intro index inNode inPart
      simp only [Rect.Covers, infoRect, treePart, partRect] at inNode inPart
      omega
    · rename_i startsInside
      rw [ge_iff_le, ge_iff_le, UInt32.le_iff_toNat_le, UInt32.le_iff_toNat_le] at startsInside
      have clippedW := @clipped_toNat localX width info.width (by omega) noWrapX
      have clippedH := @clipped_toNat localY height info.height (by omega) noWrapY
      generalize (if localX + width > info.width then info.width - localX else width) = finalW at *
      generalize (if localY + height > info.height then info.height - localY else height) = finalH at *
      have fitsX : localX.toNat + finalW.toNat ≤ info.width.toNat := by omega
      have fitsY : localY.toNat + finalH.toNat ≤ info.height.toNat := by omega
      obtain ⟨onScreenX, onScreenY⟩ := part_onScreen screen info inside fitsX fitsY
      have dstX := add_toNat_of_le (Nat.le_trans (Nat.le_add_right _ _) onScreenX)
      have dstY := add_toNat_of_le (Nat.le_trans (Nat.le_add_right _ _) onScreenY)
      have endX := add_toNat_of_le (dstX ▸ onScreenX)
      have endY := add_toNat_of_le (dstY ▸ onScreenY)
      rw [redrawRegionChildren_eq_paintAll screen inside _ nested.2,
        graphicsPastePixelsToFramebuffer_eq_paint screen info inside fitsX fitsY, ← paintAll_cons]
      -- both clippings are the given region, inside the node
      have own : clip ((partRect info localX localY finalW finalH).Covers screen.info)
            (infoLayer screen.info info) =
          clip ((partRect info localX localY width height).Covers screen.info)
            (infoLayer screen.info info) := by
        refine clip_congr fun index painted => ?_
        have inNode := infoLayer_covers painted
        simp only [Rect.Covers, infoRect, partRect] at inNode ⊢
        omega
      have below := @map_clip_congr (layersAll screen.info children) screen.info (infoRect info)
        (RegionAbs.rect ⟨info.startingX + localX, info.startingY + localY,
          info.startingX + localX + finalW, info.startingY + localY + finalH⟩)
        (partRect info localX localY width height) (layersAll_covers nested.2) (by
          intro index inNode
          simp only [Rect.Covers, infoRect, partRect, RegionAbs.rect, endX, endY, dstX, dstY]
            at inNode ⊢
          omega)
      rw [own, below, layers, List.map_cons]
      rfl

theorem redrawRegionChildren_eq_paintAll (screen : Screen) {outer : Rect}
    (onScreen : outer.Inside (infoRect screen.info)) (region : RegionAbs) :
    ∀ {children : List GraphicsTree}, NestedAll outer children → ∀ framebuffer,
      redrawRegionChildren screen.info region children framebuffer =
        paintAll ((layersAll screen.info children).map
          (clip (region.rect.Covers screen.info))) framebuffer
  | [], _, framebuffer => by
    rw [redrawRegionChildren, layersAll, List.map_nil, paintAll_nil]
  | .null :: rest, nested, framebuffer => by
    rw [NestedAll] at nested
    rw [redrawRegionChildren, redrawRegionChildren_eq_paintAll screen onScreen region nested.2,
      layersAll, layers, List.nil_append]
  | .node child grandchildren :: rest, nested, framebuffer => by
    rw [NestedAll] at nested
    rw [redrawRegionChildren, redrawRegionChildren_eq_paintAll screen onScreen region nested.2,
      layersAll, List.map_append, paintAll_append]
    congr 1
    have onScreenChild := nested.1
    rw [Nested] at onScreenChild
    have inside := onScreenChild.1.trans onScreen
    obtain ⟨fitsX, fitsY⟩ := @part_onScreen screen child inside 0 0 child.width child.height
      (by simp) (by simp)
    simp only [UInt32.toNat_zero, Nat.add_zero] at fitsX fitsY
    have within : ∀ layer ∈ layers screen.info (.node child grandchildren), ∀ index,
        layer index ≠ none → (infoRect child).Covers screen.info index :=
      layers_covers ⟨.refl _, onScreenChild.2⟩
    split
    · rename_i overlaps
      -- inside the child, its part of the region covers what the region covers
      obtain ⟨left, right⟩ := intersect_toNat fitsX overlaps.1
      obtain ⟨top, bottom⟩ := intersect_toNat fitsY overlaps.2
      have noWrapX := screen.info.horizontalResolution.toNat_lt
      have noWrapY := screen.info.verticalResolution.toNat_lt
      rw [graphicsRedrawRegion_eq_paintAll screen onScreen nested.1 (by omega) (by omega)]
      congr 1
      refine map_clip_congr within fun index inChild => ?_
      simp only [Rect.Covers, infoRect, treePart, partRect, RegionAbs.rect] at inChild ⊢
      omega
    · rename_i apart
      rw [overlaps_iff fitsX, overlaps_iff fitsY] at apart
      -- a child apart from the region has no layer in it
      refine (paintAll_map_clip_outside within ?_ framebuffer).symm
      intro index inChild inRegion
      simp only [Rect.Covers, infoRect, RegionAbs.rect] at inChild inRegion
      omega

end

/-! ## A region of the screen -/

/-- A region, clipped to the screen. -/
def screenRegion (screen : Screen) (x y width height : UInt32) : Rect where
  left := x.toNat
  right := min (x.toNat + width.toNat) screen.info.width.toNat
  top := y.toNat
  bottom := min (y.toNat + height.toNat) screen.info.height.toNat

/-- Inside the region `graphics_redraw_region` leaves what `graphics_redraw_all` would, and it
leaves the rest of the framebuffer alone. -/
theorem graphicsRedrawRegion_eq_redrawAll (screen : Screen) (children : List GraphicsTree)
    (nested : NestedAll (infoRect screen.info) children) (x y width height : UInt32)
    (noWrapX : x.toNat + width.toNat < 2 ^ 32) (noWrapY : y.toNat + height.toNat < 2 ^ 32)
    (framebuffer : Framebuffer) (index : UInt32) :
    graphicsRedrawRegion screen.info (.node screen.info children) x y width height framebuffer index =
      if (screenRegion screen x y width height).Covers screen.info index then
        graphicsRedrawAll screen.info children framebuffer index
      else framebuffer index := by
  have nestedScreen : Nested (infoRect screen.info) (.node screen.info children) := ⟨.refl _, nested⟩
  rw [graphicsRedrawRegion_eq_paintAll screen (.refl _) nestedScreen noWrapX noWrapY,
    @map_clip_congr _ _ _ _ (screenRegion screen x y width height) (layers_covers nestedScreen),
    paintAll_clip, graphicsRedrawAll, graphicsRedraw_eq_paintAll screen (.refl _) nestedScreen]
  intro index onScreen
  simp only [Rect.Covers, infoRect, treePart, partRect, screenRegion, screen.startsLeft,
    screen.startsTop, UInt32.toNat_zero] at onScreen ⊢
  omega

/-- A screen of four by three pixels, with one unused pixel in each line of the framebuffer. -/
def smallScreen : Screen :=
  .setup ⟨4, 3, 5, fun _ => ⟨1, 1, 1, 0⟩, 0, 0, 0, 0, noTransparencyColor⟩ (by decide) (by decide)

/-- A window whose first pixel is transparent, with a button in its corner. -/
def smallWindow : GraphicsTree :=
  .node ⟨4, 3, 5, fun i => ⟨2, i.toUInt8, 0, 0⟩, 2, 2, 1, 1, ⟨2, 0, 0, 0⟩⟩
    [.node ⟨4, 3, 5, fun _ => ⟨3, 0, 0, 0⟩, 1, 1, 2, 2, noTransparencyColor⟩ []]

theorem graphicsRedrawRegion_smallScreen :
    NestedAll (infoRect smallScreen.info) [smallWindow] ∧
      graphicsRedrawRegion smallScreen.info (.node smallScreen.info [smallWindow]) 2 1 5 5
          (fun _ => noTransparencyColor) 12 =
        graphicsRedrawAll smallScreen.info [smallWindow] (fun _ => noTransparencyColor) 12 ∧
      graphicsRedrawRegion smallScreen.info (.node smallScreen.info [smallWindow]) 2 1 5 5
          (fun _ => noTransparencyColor) 6 = noTransparencyColor := by
  have nested : NestedAll (infoRect smallScreen.info) [smallWindow] := by
    refine ⟨⟨⟨?_, ?_, ?_, ?_⟩, ⟨⟨?_, ?_, ?_, ?_⟩, trivial⟩, trivial⟩, trivial⟩ <;> decide
  refine ⟨nested, ?_, ?_⟩
  · rw [graphicsRedrawRegion_eq_redrawAll smallScreen [smallWindow] nested 2 1 5 5 (by decide)
      (by decide), if_pos (by decide)]
  · rw [graphicsRedrawRegion_eq_redrawAll smallScreen [smallWindow] nested 2 1 5 5 (by decide)
      (by decide), if_neg (by decide)]

end ViOS.Graphics
