import ViOS.Graphics.PixelCopy

/-! # The accesses of a redrawn region

`graphics_redraw_region` clips a region to a node, to the screen and, on the way down, to
each child, always with 32-bit sums.  Here each round of the copying loops is an access:
a pixel of a node that is read and a place of the framebuffer that may be written.

* `regionAccesses`, `graphicsRedrawRegion_eq_accesses` — the accesses, and that they are what
  the code does.
* `PixelAccess.InRange` — the pixel is one of the node, the place one of the screen.
* `childrenAccesses_inRange` — the intersections with the children never leave them.
* `RegionFits`, `redrawRegion_inRange_iff` — the regions that stay in range.
-/

namespace ViOS.Graphics

open ViOS.Lib

/-! ## The accesses -/

/-- The arguments of `graphics_paste_pixels_to_framebuffer`. -/
structure PasteCall where
  srcInfo : GraphicsInfo
  srcX : UInt32
  srcY : UInt32
  width : UInt32
  height : UInt32
  dstAbsX : UInt32
  dstAbsY : UInt32

/-- One round of the copying loops. -/
structure PixelAccess where
  srcInfo : GraphicsInfo
  srcX : UInt32
  srcY : UInt32
  dstX : UInt32
  dstY : UInt32

namespace PixelAccess

variable (screen : GraphicsInfo) (access : PixelAccess)

def readIndex : UInt32 := access.srcY * access.srcInfo.width + access.srcX

def pixel : FramebufferPixel := access.srcInfo.pixels access.readIndex

def writeIndex : UInt32 := access.dstY * screen.pixelsPerScanline + access.dstX

def perform (framebuffer : Framebuffer) : Framebuffer :=
  if isTransparent access.srcInfo access.pixel then framebuffer
  else Function.update framebuffer (access.writeIndex screen) access.pixel

end PixelAccess

section Accesses

variable (screen : GraphicsInfo)

/-- `clipped_w` and `clipped_h` of a call; no rounds when it returns before the loops. -/
def pasteExtent (call : PasteCall) : UInt32 × UInt32 :=
  let finalW := finalLength call.srcX call.width call.srcInfo.width
  let finalH := finalLength call.srcY call.height call.srcInfo.height
  if finalW = 0 ∨ finalH = 0 then (0, 0)
  else if call.dstAbsX ≥ screen.horizontalResolution ∨ call.dstAbsY ≥ screen.verticalResolution then (0, 0)
  else (finalLength call.dstAbsX finalW screen.horizontalResolution,
    finalLength call.dstAbsY finalH screen.verticalResolution)

/-- The access of the round `(ly, lx)`. -/
def roundAccess (call : PasteCall) (round : Nat × Nat) : PixelAccess where
  srcInfo := call.srcInfo
  srcX := call.srcX + .ofNat round.2
  srcY := call.srcY + .ofNat round.1
  dstX := call.dstAbsX + .ofNat round.2
  dstY := call.dstAbsY + .ofNat round.1

def pasteAccesses (call : PasteCall) : List PixelAccess :=
  (rounds (pasteExtent screen call).1 (pasteExtent screen call).2).map (roundAccess call)

mutual

/-- The accesses of `graphics_redraw_region`. -/
def regionAccesses : GraphicsTree → UInt32 → UInt32 → UInt32 → UInt32 → List PixelAccess
  | .null, _, _, _, _ => []
  | .node g children, localX, localY, width, height =>
    if localX ≥ g.width ∨ localY ≥ g.height then []
    else
      let width := if localX + width > g.width then g.width - localX else width
      let height := if localY + height > g.height then g.height - localY else height
      let dstAbsX := g.startingX + localX
      let dstAbsY := g.startingY + localY
      pasteAccesses screen ⟨g, localX, localY, width, height, dstAbsX, dstAbsY⟩ ++
        childrenAccesses ⟨dstAbsX, dstAbsY, dstAbsX + width, dstAbsY + height⟩ children

/-- The accesses of its loop over the children. -/
def childrenAccesses (region : RegionAbs) : List GraphicsTree → List PixelAccess
  | [] => []
  | .null :: rest => childrenAccesses region rest
  | .node child grandchildren :: rest =>
    let intersectLeft := max child.startingX region.left
    let intersectTop := max child.startingY region.top
    let intersectRight := min (child.startingX + child.width) region.right
    let intersectBottom := min (child.startingY + child.height) region.bottom
    (if intersectRight > intersectLeft ∧ intersectBottom > intersectTop then
      regionAccesses (.node child grandchildren) (intersectLeft - child.startingX)
        (intersectTop - child.startingY) (intersectRight - intersectLeft) (intersectBottom - intersectTop)
    else []) ++ childrenAccesses region rest

end

end Accesses

/-! ## The accesses are what the code does -/

section Performed

variable (screen : GraphicsInfo)

theorem pasteLines_eq_accesses (call : PasteCall) (width height : UInt32) (framebuffer : Framebuffer) :
    pasteLines screen call.srcInfo call.srcX call.srcY call.dstAbsX call.dstAbsY width height framebuffer =
      ((rounds width height).map (roundAccess call)).foldl
        (fun framebuffer access => access.perform screen framebuffer) framebuffer := by
  rw [rounds, List.map_flatMap, List.foldl_flatMap]
  simp only [List.map_map, List.foldl_map]
  rfl

/-- The loops are skipped in three places, each time because they would have no rounds. -/
theorem graphicsPastePixelsToFramebuffer_eq_lines (call : PasteCall) (framebuffer : Framebuffer) :
    graphicsPastePixelsToFramebuffer screen call.srcInfo call.srcX call.srcY call.width call.height call.dstAbsX
        call.dstAbsY framebuffer =
      pasteLines screen call.srcInfo call.srcX call.srcY call.dstAbsX call.dstAbsY (pasteExtent screen call).1
        (pasteExtent screen call).2 framebuffer := by
  unfold pasteExtent
  change (if finalLength call.srcX call.width call.srcInfo.width = 0 ∨
      finalLength call.srcY call.height call.srcInfo.height = 0 then framebuffer
    else if call.dstAbsX ≥ screen.horizontalResolution ∨ call.dstAbsY ≥ screen.verticalResolution then framebuffer
    else if finalLength call.dstAbsX (finalLength call.srcX call.width call.srcInfo.width)
          screen.horizontalResolution = 0 ∨
        finalLength call.dstAbsY (finalLength call.srcY call.height call.srcInfo.height)
          screen.verticalResolution = 0 then framebuffer
    else pasteLines screen call.srcInfo call.srcX call.srcY call.dstAbsX call.dstAbsY
      (finalLength call.dstAbsX (finalLength call.srcX call.width call.srcInfo.width) screen.horizontalResolution)
      (finalLength call.dstAbsY (finalLength call.srcY call.height call.srcInfo.height) screen.verticalResolution)
      framebuffer) = _
  generalize finalLength call.srcX call.width call.srcInfo.width = finalW
  generalize finalLength call.srcY call.height call.srcInfo.height = finalH
  by_cases empty : finalW = 0 ∨ finalH = 0
  · rw [if_pos empty, if_pos empty, pasteLines_empty (.inl rfl)]
  · rw [if_neg empty, if_neg empty]
    by_cases offScreen : call.dstAbsX ≥ screen.horizontalResolution ∨ call.dstAbsY ≥ screen.verticalResolution
    · rw [if_pos offScreen, if_pos offScreen, pasteLines_empty (.inl rfl)]
    · rw [if_neg offScreen, if_neg offScreen]
      by_cases clipped : finalLength call.dstAbsX finalW screen.horizontalResolution = 0 ∨
          finalLength call.dstAbsY finalH screen.verticalResolution = 0
      · rw [if_pos clipped, pasteLines_empty clipped]
      · rw [if_neg clipped]

theorem graphicsPastePixelsToFramebuffer_eq_accesses (call : PasteCall) (framebuffer : Framebuffer) :
    graphicsPastePixelsToFramebuffer screen call.srcInfo call.srcX call.srcY call.width call.height call.dstAbsX
        call.dstAbsY framebuffer =
      (pasteAccesses screen call).foldl (fun framebuffer access => access.perform screen framebuffer)
        framebuffer := by
  rw [graphicsPastePixelsToFramebuffer_eq_lines, pasteLines_eq_accesses, pasteAccesses]

mutual

theorem graphicsRedrawRegion_eq_accesses : ∀ (tree : GraphicsTree) (localX localY width height : UInt32)
    (framebuffer : Framebuffer), graphicsRedrawRegion screen tree localX localY width height framebuffer =
      (regionAccesses screen tree localX localY width height).foldl
        (fun framebuffer access => access.perform screen framebuffer) framebuffer
  | .null, _, _, _, _, framebuffer => by
    rw [graphicsRedrawRegion, regionAccesses, List.foldl_nil]
  | .node g children, localX, localY, width, height, framebuffer => by
    rw [graphicsRedrawRegion, regionAccesses]
    dsimp only
    split
    · rfl
    · rw [redrawRegionChildren_eq_accesses, List.foldl_append, ← graphicsPastePixelsToFramebuffer_eq_accesses]

theorem redrawRegionChildren_eq_accesses (region : RegionAbs) : ∀ (children : List GraphicsTree)
    (framebuffer : Framebuffer), redrawRegionChildren screen region children framebuffer =
      (childrenAccesses screen region children).foldl
        (fun framebuffer access => access.perform screen framebuffer) framebuffer
  | [], framebuffer => by
    rw [redrawRegionChildren, childrenAccesses, List.foldl_nil]
  | .null :: rest, framebuffer => by
    rw [redrawRegionChildren, childrenAccesses, redrawRegionChildren_eq_accesses]
  | .node child grandchildren :: rest, framebuffer => by
    rw [redrawRegionChildren, childrenAccesses, redrawRegionChildren_eq_accesses, List.foldl_append]
    split
    · rw [graphicsRedrawRegion_eq_accesses]
    · rfl

end

end Performed

/-! ## Accesses in range -/

/-- A round reads a pixel of the node.  It may only leave out a place that is not on the screen when that
pixel is transparent. -/
structure PixelAccess.InRange (screen : GraphicsInfo) (access : PixelAccess) : Prop where
  column : access.srcX.toNat < access.srcInfo.width.toNat
  row : access.srcY.toNat < access.srcInfo.height.toNat
  inBuffer : access.readIndex.toNat < access.srcInfo.width.toNat * access.srcInfo.height.toNat
  onScreen : isTransparent access.srcInfo access.pixel = false →
    access.dstX.toNat < screen.horizontalResolution.toNat ∧
      access.dstY.toNat < screen.verticalResolution.toNat ∧
      (access.writeIndex screen).toNat < screen.pixelsPerScanline.toNat * screen.verticalResolution.toNat

/-- A length that is clipped to a bound, but not when the end of the region needs more than 32 bits. -/
def clipLength (start length bound : Nat) : Nat :=
  if start + length < 2 ^ 32 then min length (bound - start) else length

section Regions

variable (screen g : GraphicsInfo) (localX localY width height : UInt32)

/-- The columns of a region that are copied. -/
def regionColumns : Nat :=
  clipLength (g.startingX + localX).toNat (clipLength localX.toNat width.toNat g.width.toNat)
    screen.horizontalResolution.toNat

/-- The rows of a region that are copied. -/
def regionRows : Nat :=
  clipLength (g.startingY + localY).toNat (clipLength localY.toNat height.toNat g.height.toNat)
    screen.verticalResolution.toNat

/-- Nothing of the node itself is copied. -/
def RegionSkipped : Prop :=
  g.width.toNat ≤ localX.toNat ∨ g.height.toNat ≤ localY.toNat ∨ width.toNat = 0 ∨ height.toNat = 0 ∨
    screen.horizontalResolution.toNat ≤ (g.startingX + localX).toNat ∨
    screen.verticalResolution.toNat ≤ (g.startingY + localY).toNat

instance : Decidable (RegionSkipped screen g localX localY width height) :=
  inferInstanceAs (Decidable (_ ∨ _))

/-- The copied rectangle is one of the node, and what comes to lie beside the screen is transparent. -/
structure RegionCopied : Prop where
  columns : localX.toNat + regionColumns screen g localX width ≤ g.width.toNat
  rows : localY.toNat + regionRows screen g localY height ≤ g.height.toNat
  beside : ∀ lx < regionColumns screen g localX width, ∀ ly < regionRows screen g localY height,
    screen.horizontalResolution.toNat ≤ ((g.startingX + localX).toNat + lx) % 2 ^ 32 ∨
        screen.verticalResolution.toNat ≤ ((g.startingY + localY).toNat + ly) % 2 ^ 32 →
      isTransparent g (g.pixelAt (localX.toNat + lx) (localY.toNat + ly)) = true

end Regions

/-- The regions that are redrawn in range. -/
def RegionFits (screen : GraphicsInfo) : GraphicsTree → UInt32 → UInt32 → UInt32 → UInt32 → Prop
  | .null, _, _, _, _ => True
  | .node g _, localX, localY, width, height =>
    RegionSkipped screen g localX localY width height ∨ RegionCopied screen g localX localY width height

theorem finalLength_eq_clipLength {start length bound : UInt32} (inBound : start.toNat < bound.toNat) :
    (finalLength start length bound).toNat = clipLength start.toNat length.toNat bound.toNat := by
  have lengthLt := length.toNat_lt
  have boundLt := bound.toNat_lt
  rw [finalLength_toNat]
  unfold loopLength clipLength
  split <;> omega

/-- The clipping of `graphics_redraw_region` itself is the same one. -/
theorem regionLength_toNat {start length bound : UInt32} (inBound : start.toNat < bound.toNat) :
    (if start + length > bound then bound - start else length).toNat =
      clipLength start.toNat length.toNat bound.toNat := by
  have lengthLt := length.toNat_lt
  have boundLt := bound.toNat_lt
  unfold clipLength
  split
  next exceeds =>
    rw [gt_iff_lt, UInt32.lt_iff_toNat_lt, UInt32.toNat_add] at exceeds
    rw [UInt32.toNat_sub]
    split <;> omega
  next inside =>
    rw [gt_iff_lt, UInt32.lt_iff_toNat_lt, UInt32.toNat_add] at inside
    split <;> omega

/-- Clipping a second time changes nothing. -/
theorem clipLength_clipLength {start length bound : Nat} (inBound : start < bound) :
    clipLength start (clipLength start length bound) bound = clipLength start length bound := by
  unfold clipLength
  split_ifs <;> omega

theorem clipLength_pos {start length bound : Nat} (inBound : start < bound) (positive : length ≠ 0) :
    clipLength start length bound ≠ 0 := by
  unfold clipLength
  split <;> omega

theorem clipLength_zero (start bound : Nat) : clipLength start 0 bound = 0 := by
  unfold clipLength
  split <;> omega

/-! ## The rounds of a region -/

/-- The call of `graphics_redraw_region` for the node itself. -/
def regionCall (g : GraphicsInfo) (localX localY width height : UInt32) : PasteCall :=
  ⟨g, localX, localY, if localX + width > g.width then g.width - localX else width,
    if localY + height > g.height then g.height - localY else height, g.startingX + localX, g.startingY + localY⟩

section Rounds

variable {screen g : GraphicsInfo} {localX localY width height : UInt32}

theorem forall_mem_pasteAccesses {call : PasteCall} {P : PixelAccess → Prop} :
    (∀ access ∈ pasteAccesses screen call, P access) ↔
      ∀ lx < (pasteExtent screen call).1.toNat, ∀ ly < (pasteExtent screen call).2.toNat,
        P (roundAccess call (ly, lx)) := by
  rw [pasteAccesses, List.forall_mem_map]
  constructor
  · intro all lx inX ly inY
    exact all _ (mem_rounds.mpr ⟨inY, inX⟩)
  · rintro all ⟨ly, lx⟩ isRound
    obtain ⟨inY, inX⟩ := mem_rounds.mp isRound
    exact all lx inX ly inY

/-- The source is clipped once, although the code does it twice. -/
theorem regionCall_finalLength {start length bound : UInt32} (inBound : start.toNat < bound.toNat) :
    (finalLength start (if start + length > bound then bound - start else length) bound).toNat =
      clipLength start.toNat length.toNat bound.toNat := by
  rw [finalLength_eq_clipLength inBound, regionLength_toNat inBound, clipLength_clipLength inBound]

theorem pasteExtent_of_onScreen {call : PasteCall}
    (nonempty : finalLength call.srcX call.width call.srcInfo.width ≠ 0 ∧
      finalLength call.srcY call.height call.srcInfo.height ≠ 0)
    (onScreen : call.dstAbsX < screen.horizontalResolution ∧ call.dstAbsY < screen.verticalResolution) :
    pasteExtent screen call =
      (finalLength call.dstAbsX (finalLength call.srcX call.width call.srcInfo.width) screen.horizontalResolution,
        finalLength call.dstAbsY (finalLength call.srcY call.height call.srcInfo.height)
          screen.verticalResolution) := by
  rw [pasteExtent, if_neg (not_or.mpr nonempty), if_neg]
  exact not_or.mpr ⟨UInt32.not_le.mpr onScreen.1, UInt32.not_le.mpr onScreen.2⟩

theorem pasteExtent_of_skipped {call : PasteCall}
    (skipped : (finalLength call.srcX call.width call.srcInfo.width = 0 ∨
        finalLength call.srcY call.height call.srcInfo.height = 0) ∨
      (call.dstAbsX ≥ screen.horizontalResolution ∨ call.dstAbsY ≥ screen.verticalResolution)) :
    pasteExtent screen call = (0, 0) := by
  rw [pasteExtent]
  by_cases empty : finalLength call.srcX call.width call.srcInfo.width = 0 ∨
      finalLength call.srcY call.height call.srcInfo.height = 0
  · rw [if_pos empty]
  · rw [if_neg empty, if_pos (skipped.resolve_left empty)]

/-- The loops run over the columns and rows of the region, unless it is skipped. -/
theorem pasteExtent_regionCall (copied : ¬ RegionSkipped screen g localX localY width height) :
    (pasteExtent screen (regionCall g localX localY width height)).1.toNat = regionColumns screen g localX width ∧
      (pasteExtent screen (regionCall g localX localY width height)).2.toNat =
        regionRows screen g localY height := by
  unfold RegionSkipped at copied
  simp only [not_or, Nat.not_le] at copied
  obtain ⟨inX, inY, hasWidth, hasHeight, onScreenX, onScreenY⟩ := copied
  have finalW := @regionCall_finalLength localX width g.width inX
  have finalH := @regionCall_finalLength localY height g.height inY
  have nonemptyX : (finalLength localX _ g.width).toNat ≠ 0 := finalW ▸ clipLength_pos inX hasWidth
  have nonemptyY : (finalLength localY _ g.height).toNat ≠ 0 := finalH ▸ clipLength_pos inY hasHeight
  rw [pasteExtent_of_onScreen]
  · constructor
    · exact (finalLength_eq_clipLength onScreenX).trans (congrArg (clipLength _ · _) finalW)
    · exact (finalLength_eq_clipLength onScreenY).trans (congrArg (clipLength _ · _) finalH)
  · exact ⟨fun none => nonemptyX (congrArg UInt32.toNat none), fun none => nonemptyY (congrArg UInt32.toNat none)⟩
  · exact ⟨UInt32.lt_iff_toNat_lt.mpr onScreenX, UInt32.lt_iff_toNat_lt.mpr onScreenY⟩

/-- A skipped region has no rounds. -/
theorem pasteExtent_skipped (inX : localX.toNat < g.width.toNat) (inY : localY.toNat < g.height.toNat)
    (skipped : RegionSkipped screen g localX localY width height) :
    pasteExtent screen (regionCall g localX localY width height) = (0, 0) := by
  have finalW := @regionCall_finalLength localX width g.width inX
  have finalH := @regionCall_finalLength localY height g.height inY
  apply pasteExtent_of_skipped
  rcases skipped with behindX | behindY | noWidth | noHeight | offScreenX | offScreenY
  · omega
  · omega
  · rw [noWidth, clipLength_zero] at finalW
    exact .inl (.inl (UInt32.toNat_inj.mp finalW))
  · rw [noHeight, clipLength_zero] at finalH
    exact .inl (.inr (UInt32.toNat_inj.mp finalH))
  · exact .inr (.inl (UInt32.le_iff_toNat_le.mpr offScreenX))
  · exact .inr (.inr (UInt32.le_iff_toNat_le.mpr offScreenY))

end Rounds

/-! ## Regions in range -/

section InRange

variable {screen g : GraphicsInfo} {localX localY width height : UInt32}

theorem roundAccess_pixel (call : PasteCall) (lx ly : Nat) : (roundAccess call (ly, lx)).pixel =
    call.srcInfo.pixelAt (call.srcX.toNat + lx) (call.srcY.toNat + ly) := by
  rw [PixelAccess.pixel, PixelAccess.readIndex, roundAccess, ofNat_index]
  rfl

/-- Coordinates in range give an index in range, whatever the 32 bits cut off. -/
theorem index_lt {columns rows : Nat} {x y lineLength : UInt32} (inX : x.toNat < columns) (inY : y.toNat < rows)
    (line : columns ≤ lineLength.toNat) : (y * lineLength + x).toNat < lineLength.toNat * rows := by
  rw [UInt32.toNat_add, UInt32.toNat_mul, Nat.mod_add_mod]
  exact Nat.lt_of_le_of_lt (Nat.mod_le _ _) (gridIndex_lt (Nat.lt_of_lt_of_le inX line) inY)

/-- The first round behind the bound is found when the loop runs past it. -/
theorem add_le_of_rounds {start bound : UInt32} {length : Nat} (inBound : start.toNat < bound.toNat)
    (inside : ∀ i < length, (start + .ofNat i).toNat < bound.toNat) : start.toNat + length ≤ bound.toNat := by
  by_contra outside
  have first := inside (bound.toNat - start.toNat) (by omega)
  have boundLt := bound.toNat_lt
  rw [add_ofNat_toNat (by omega)] at first
  omega

theorem toNat_add_ofNat (a : UInt32) (i : Nat) : (a + .ofNat i).toNat = (a.toNat + i) % 2 ^ 32 := by
  rw [UInt32.toNat_add, UInt32.toNat_ofNat', Nat.add_mod_mod]

/-- The accesses of the node itself. -/
theorem regionCall_inRange_iff (scanline : screen.horizontalResolution.toNat ≤ screen.pixelsPerScanline.toNat)
    (inX : localX.toNat < g.width.toNat) (inY : localY.toNat < g.height.toNat) :
    (∀ access ∈ pasteAccesses screen (regionCall g localX localY width height), access.InRange screen) ↔
      RegionSkipped screen g localX localY width height ∨ RegionCopied screen g localX localY width height := by
  rw [forall_mem_pasteAccesses]
  by_cases skipped : RegionSkipped screen g localX localY width height
  · rw [pasteExtent_skipped inX inY skipped]
    simp [skipped]
  obtain ⟨columns, rows⟩ := pasteExtent_regionCall skipped
  rw [columns, rows]
  constructor
  · intro inRange
    have someColumns : 0 < regionColumns screen g localX width := by
      unfold RegionSkipped at skipped
      exact Nat.pos_of_ne_zero (clipLength_pos (by omega) (clipLength_pos inX (by omega)))
    have someRows : 0 < regionRows screen g localY height := by
      unfold RegionSkipped at skipped
      exact Nat.pos_of_ne_zero (clipLength_pos (by omega) (clipLength_pos inY (by omega)))
    refine .inr ⟨?_, ?_, ?_⟩
    · exact add_le_of_rounds inX fun lx inColumns => (inRange lx inColumns 0 someRows).column
    · exact add_le_of_rounds inY fun ly inRows => (inRange 0 someColumns ly inRows).row
    · intro lx inColumns ly inRows beside
      have here := (inRange lx inColumns ly inRows).onScreen
      rw [roundAccess_pixel] at here
      by_contra drawn
      obtain ⟨onScreenX, onScreenY, -⟩ := here (Bool.eq_false_iff.mpr drawn)
      simp only [roundAccess, regionCall, toNat_add_ofNat] at onScreenX onScreenY
      omega
  · intro fits lx inColumns ly inRows
    have copied := fits.resolve_left skipped
    have widthLt := g.width.toNat_lt
    have heightLt := g.height.toNat_lt
    have endX := copied.columns
    have endY := copied.rows
    have column : (roundAccess (regionCall g localX localY width height) (ly, lx)).srcX.toNat < g.width.toNat := by
      change (localX + .ofNat lx).toNat < g.width.toNat
      rw [add_ofNat_toNat (by omega)]
      omega
    have row : (roundAccess (regionCall g localX localY width height) (ly, lx)).srcY.toNat < g.height.toNat := by
      change (localY + .ofNat ly).toNat < g.height.toNat
      rw [add_ofNat_toNat (by omega)]
      omega
    refine ⟨column, row, index_lt column row (Nat.le_refl _), fun drawn => ?_⟩
    rw [roundAccess_pixel] at drawn
    -- A pixel that is drawn is not beside the screen.
    have onScreen : ((g.startingX + localX).toNat + lx) % 2 ^ 32 < screen.horizontalResolution.toNat ∧
        ((g.startingY + localY).toNat + ly) % 2 ^ 32 < screen.verticalResolution.toNat := by
      by_contra beside
      have transparent := copied.beside lx inColumns ly inRows (by omega)
      exact Bool.noConfusion (drawn.symm.trans transparent)
    rw [← toNat_add_ofNat, ← toNat_add_ofNat] at onScreen
    exact ⟨onScreen.1, onScreen.2, index_lt onScreen.1 onScreen.2 scanline⟩

/-- A region whose end on the screen has a 32-bit coordinate is in range. -/
theorem regionFits_of_end (endX : g.startingX.toNat + localX.toNat + width.toNat < 2 ^ 32)
    (endY : g.startingY.toNat + localY.toNat + height.toNat < 2 ^ 32) :
    RegionSkipped screen g localX localY width height ∨ RegionCopied screen g localX localY width height := by
  refine Classical.or_iff_not_imp_left.mpr fun copied => ?_
  unfold RegionSkipped at copied
  have dstX : (g.startingX + localX).toNat = g.startingX.toNat + localX.toNat := by
    rw [UInt32.toNat_add]
    omega
  have dstY : (g.startingY + localY).toNat = g.startingY.toNat + localY.toNat := by
    rw [UInt32.toNat_add]
    omega
  have columns : regionColumns screen g localX width = min (min width.toNat (g.width.toNat - localX.toNat))
      (screen.horizontalResolution.toNat - (g.startingX + localX).toNat) := by
    unfold regionColumns clipLength
    rw [if_pos (show localX.toNat + width.toNat < 2 ^ 32 by omega), if_pos (by omega)]
  have rows : regionRows screen g localY height = min (min height.toNat (g.height.toNat - localY.toNat))
      (screen.verticalResolution.toNat - (g.startingY + localY).toNat) := by
    unfold regionRows clipLength
    rw [if_pos (show localY.toNat + height.toNat < 2 ^ 32 by omega), if_pos (by omega)]
  refine ⟨by omega, by omega, fun lx inColumns ly inRows beside => ?_⟩
  have resolutionX := screen.horizontalResolution.toNat_lt
  have resolutionY := screen.verticalResolution.toNat_lt
  omega

end InRange

/-! ## The children -/

/-- The part of a child in a region ends where a 32-bit coordinate says. -/
theorem intersection_end {start low end' : UInt32} (overlaps : end' > max start low) :
    start.toNat + (max start low - start).toNat + (end' - max start low).toNat < 2 ^ 32 := by
  have endLt := end'.toNat_lt
  have left : start ≤ max start low := by
    rw [UInt32.le_iff_toNat_le, toNat_max]
    omega
  rw [gt_iff_lt, UInt32.lt_iff_toNat_lt, toNat_max] at overlaps
  rw [UInt32.toNat_sub_of_le _ _ left, UInt32.toNat_sub_of_le, toNat_max]
  · omega
  · rw [UInt32.le_iff_toNat_le, toNat_max]
    omega

mutual

/-- A node whose region ends at a 32-bit coordinate is redrawn in range, with all nodes below it. -/
theorem regionAccesses_inRange_of_end {screen : GraphicsInfo}
    (scanline : screen.horizontalResolution.toNat ≤ screen.pixelsPerScanline.toNat) : ∀ (tree : GraphicsTree)
    {localX localY width height : UInt32},
    (∀ g children, tree = .node g children → g.startingX.toNat + localX.toNat + width.toNat < 2 ^ 32 ∧
      g.startingY.toNat + localY.toNat + height.toNat < 2 ^ 32) →
        ∀ access ∈ regionAccesses screen tree localX localY width height, access.InRange screen
  | .null, localX, localY, width, height, ends, access, member => by
    rw [regionAccesses] at member
    cases member
  | .node g children, localX, localY, width, height, ends, access, member => by
    obtain ⟨endX, endY⟩ := ends g children rfl
    rw [regionAccesses] at member
    split at member
    · cases member
    next inside =>
      simp only [not_or, ge_iff_le, UInt32.le_iff_toNat_le, Nat.not_le] at inside
      cases List.mem_append.mp member with
      | inl own => exact (regionCall_inRange_iff scanline inside.1 inside.2).mpr (regionFits_of_end endX endY) _ own
      | inr below => exact childrenAccesses_inRange scanline _ children _ below

/-- The children are redrawn in range, whatever the region is. -/
theorem childrenAccesses_inRange {screen : GraphicsInfo}
    (scanline : screen.horizontalResolution.toNat ≤ screen.pixelsPerScanline.toNat) (region : RegionAbs) :
    ∀ (children : List GraphicsTree),
    ∀ access ∈ childrenAccesses screen region children, access.InRange screen
  | [], access, member => by
    rw [childrenAccesses] at member
    cases member
  | .null :: rest, access, member => by
    rw [childrenAccesses] at member
    exact childrenAccesses_inRange scanline region rest access member
  | .node child grandchildren :: rest, access, member => by
    rw [childrenAccesses] at member
    cases List.mem_append.mp member with
    | inl here =>
      split at here
      next overlaps =>
        refine regionAccesses_inRange_of_end scanline (.node child grandchildren) (fun g children same => ?_) access here
        cases same
        exact ⟨intersection_end overlaps.1, intersection_end overlaps.2⟩
      · cases here
    | inr later => exact childrenAccesses_inRange scanline region rest access later

end

/-! ## The redraw -/

/-- A region is redrawn in range just when nothing is copied, or the clipped region is one of the node and
only transparent pixels of it lie beside the screen. -/
theorem redrawRegion_inRange_iff (screen : GraphicsInfo)
    (scanline : screen.horizontalResolution.toNat ≤ screen.pixelsPerScanline.toNat) (tree : GraphicsTree)
    (localX localY width height : UInt32) :
    (∀ access ∈ regionAccesses screen tree localX localY width height, access.InRange screen) ↔
      RegionFits screen tree localX localY width height := by
  cases tree with
  | null => simp [regionAccesses, RegionFits]
  | node g children =>
    rw [regionAccesses, RegionFits]
    by_cases outside : localX ≥ g.width ∨ localY ≥ g.height
    · rw [if_pos outside]
      simp only [ge_iff_le, UInt32.le_iff_toNat_le] at outside
      have skipped : RegionSkipped screen g localX localY width height := by
        unfold RegionSkipped
        omega
      simp [skipped]
    · rw [if_neg outside]
      simp only [not_or, ge_iff_le, UInt32.le_iff_toNat_le, Nat.not_le] at outside
      rw [List.forall_mem_append, ← regionCall_inRange_iff scanline outside.1 outside.2]
      exact and_iff_left (childrenAccesses_inRange scanline _ children)

theorem redrawRegion_inRange_smallScreen : smallScreen.info.horizontalResolution.toNat ≤
      smallScreen.info.pixelsPerScanline.toNat ∧
    ∀ access ∈ regionAccesses smallScreen.info smallWindow 0 0 2 2, access.InRange smallScreen.info :=
  ⟨by decide, (redrawRegion_inRange_iff smallScreen.info (by decide) smallWindow 0 0 2 2).mpr
    (regionFits_of_end (by decide) (by decide))⟩

/-- A width of `-1` is not clipped, and the loop runs through the rows of the window and out of them. -/
theorem redrawRegion_negative_width : smallScreen.info.horizontalResolution.toNat ≤
      smallScreen.info.pixelsPerScanline.toNat ∧
    ¬ ∀ access ∈ regionAccesses smallScreen.info smallWindow 1 0 (-1) 1, access.InRange smallScreen.info := by
  refine ⟨by decide, fun inRange => ?_⟩
  rw [smallWindow, regionAccesses, if_neg (by decide)] at inRange
  have own := (regionCall_inRange_iff (by decide) (by decide) (by decide)).mp
    (List.forall_mem_append.mp inRange).1
  cases own with
  | inl skipped => exact absurd skipped (by decide)
  | inr copied => exact absurd copied.columns (by decide)

end ViOS.Graphics
