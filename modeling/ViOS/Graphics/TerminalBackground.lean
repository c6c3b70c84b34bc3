import ViOS.Graphics.Terminal
import ViOS.Memory.Vector

/-! # The background of a terminal

A terminal keeps a copy of pixels of its node, to put them back under a character that is
deleted.  The copy is made of the first pixels of the node, as many as the terminal has, and a
pixel of a rectangle is put back from its place in the rectangle.

* `terminalBackgroundSave`, `terminalRestoreBackground` — the code.
* `SaveRestores` — what was saved is put back, and nothing else is touched.
* `saveRestores_iff` — the rectangles for which this is so.
-/

namespace ViOS.Graphics

open ViOS.Lib
open ViOS.Memory (memcpyLength)

/-! ## The code -/

/-- The memory behind `terminal_background`; `allocated` counts bytes. -/
structure Background where
  allocated : Nat
  pixels : Nat → FramebufferPixel

/-- A save: `terminal_background`, and the number of bytes that were copied. -/
structure BackgroundSave where
  background : Option Background
  copied : Nat

/-- The arguments of `terminal_restore_background`. -/
structure RestoreRect where
  sx : Int
  sy : Int
  width : Int
  height : Int

/-- A restore: the pixels read in the saved copy, the pixels written in the node, and what it leaves there. -/
structure BackgroundRestore where
  reads : List Nat
  writes : List UInt32
  pixels : UInt32 → FramebufferPixel

def sizeofFramebufferPixel : Nat := 4

section Code

variable (terminal : Terminal)

def backgroundSize : Nat := terminal.width * terminal.height % addressSpace * sizeofFramebufferPixel % addressSpace

/-- The bytes behind `terminal_background` when there are any; `kzalloc` clears new ones. -/
def backgroundBuffer (alloc : Bool) (background : Option Background) : Option Background :=
  match background with
  | some buffer => some buffer
  | none => if alloc then some ⟨backgroundSize terminal, fun _ => noTransparencyColor⟩ else none

/-- `terminal_background_save`.  `alloc` says whether there is memory; a `memcpy` of a negative length does not
end. -/
def terminalBackgroundSave (alloc : Bool) (background : Option Background) (pixels : UInt32 → FramebufferPixel) :
    Option BackgroundSave :=
  match backgroundBuffer terminal alloc background with
  | none => some ⟨none, 0⟩
  | some buffer =>
    (memcpyLength (backgroundSize terminal)).map fun length =>
      { background := some
          { buffer with
            pixels := fun i => if i < length / sizeofFramebufferPixel then pixels (.ofNat i) else buffer.pixels i }
        copied := length }

/-- A coordinate of the loops, as a `size_t`. -/
def restoreCoordinate (abs : Nat) (start : Int) (offset : Nat) : Nat := sizeT (abs + start + offset)

section Restore

variable (rect : RestoreRect)

/-- The rounds of the loops, column by column. -/
def restoreRounds : List (Nat × Nat) := List.range rect.width.toNat ×ˢ List.range rect.height.toNat

/-- The round is passed over. -/
def isPassedOver (round : Nat × Nat) : Bool :=
  restoreCoordinate terminal.absX rect.sx round.1 > terminal.width ∨
    restoreCoordinate terminal.absY rect.sy round.2 > terminal.height

/-- The pixel of the saved copy a round reads. -/
def backgroundIndex (round : Nat × Nat) : Nat := (round.2 * terminal.width + round.1) % addressSpace

/-- What is behind `terminal_background`; behind `NULL` no read is in range. -/
def backgroundPixel (background : Option Background) (index : Nat) : FramebufferPixel :=
  match background with
  | none => noTransparencyColor
  | some buffer => buffer.pixels index

/-- The coordinates a round passes to `graphics_draw_pixel`. -/
def restoreX (round : Nat × Nat) : UInt32 := .ofNat (restoreCoordinate terminal.absX rect.sx round.1)

def restoreY (round : Nat × Nat) : UInt32 := .ofNat (restoreCoordinate terminal.absY rect.sy round.2)

/-- `terminal_restore_background`, without the copy to the screen at its end. -/
def terminalRestoreBackground (info : GraphicsInfo) (ignoreColor : FramebufferPixel) (background : Option Background)
    (pixels : UInt32 → FramebufferPixel) : BackgroundRestore where
  reads := ((restoreRounds rect).filter fun round => ¬ isPassedOver terminal rect round).map (backgroundIndex terminal)
  writes := ((restoreRounds rect).filter fun round => ¬ isPassedOver terminal rect round ∧
    restoreX terminal rect round < info.width ∧ restoreY terminal rect round < info.height).map
      fun round => restoreY terminal rect round * info.width + restoreX terminal rect round
  pixels := (restoreRounds rect).foldl (fun pixels round =>
    if isPassedOver terminal rect round then pixels
    else graphicsDrawPixel info ignoreColor pixels (restoreX terminal rect round) (restoreY terminal rect round)
      (backgroundPixel background (backgroundIndex terminal round))) pixels

end Restore

end Code

/-! ## What a save and a restore are for -/

/-- The bounds of the terminal lie on the node. -/
def Terminal.OnNode (terminal : Terminal) (info : GraphicsInfo) : Prop :=
  terminal.absX + terminal.width ≤ info.width.toNat ∧ terminal.absY + terminal.height ≤ info.height.toNat

/-- The rectangle lies in the bounds. -/
structure RestoreRect.InBounds (rect : RestoreRect) (terminal : Terminal) : Prop where
  left : 0 ≤ rect.sx
  top : 0 ≤ rect.sy
  someWidth : 0 ≤ rect.width
  someHeight : 0 ≤ rect.height
  right : rect.sx + rect.width ≤ terminal.width
  bottom : rect.sy + rect.height ≤ terminal.height

/-- The index in the node of a pixel of the rectangle. -/
def rectIndex (info : GraphicsInfo) (terminal : Terminal) (rect : RestoreRect) (x y : Nat) : UInt32 :=
  surfaceIndex info (terminal.absX + rect.sx + x) (terminal.absY + rect.sy + y)

def allocatedBytes (background : Option Background) : Nat :=
  match background with
  | none => 0
  | some buffer => buffer.allocated

/-- The copy and the accesses stay in range, the pixels of the rectangle are those of the save, and the others
those before the restore. -/
structure Restores (info : GraphicsInfo) (terminal : Terminal) (rect : RestoreRect)
    (before current : UInt32 → FramebufferPixel) (save : BackgroundSave) (restore : BackgroundRestore) : Prop where
  savedInside : save.copied ≤ allocatedBytes save.background ∧
    save.copied ≤ info.width.toNat * info.height.toNat * sizeofFramebufferPixel
  readsInside : ∀ index ∈ restore.reads, (index + 1) * sizeofFramebufferPixel ≤ allocatedBytes save.background
  writesInside : ∀ index ∈ restore.writes, index.toNat < info.width.toNat * info.height.toNat
  restored : ∀ x y : Nat, x < rect.width → y < rect.height →
    restore.pixels (rectIndex info terminal rect x y) = before (rectIndex info terminal rect x y)
  kept : ∀ index, (∀ x y : Nat, x < rect.width → y < rect.height → index ≠ rectIndex info terminal rect x y) →
    restore.pixels index = current index

/-- The save ends, and the restore puts back what was there, whatever was drawn in between. -/
def SaveRestores (info : GraphicsInfo) (terminal : Terminal) (alloc : Bool) (background : Option Background)
    (rect : RestoreRect) : Prop :=
  ∀ before current, ∃ save, terminalBackgroundSave terminal alloc background before = some save ∧
    Restores info terminal rect before current save
      (terminalRestoreBackground terminal rect info noTransparencyColor save.background current)

/-- There is memory for the copy, its length is an `int` that is not negative, the rectangle begins at the origin
of the node, its rows follow one another there as in the copy, and the copy reaches its last pixel. -/
structure RestoresFrom (info : GraphicsInfo) (terminal : Terminal) (alloc : Bool) (background : Option Background)
    (rect : RestoreRect) : Prop where
  saves : background.isSome ∨ alloc
  atOrigin : terminal.absX = 0 ∧ terminal.absY = 0
  fromStart : rect.sx = 0 ∧ rect.sy = 0
  rows : terminal.width = info.width.toNat ∨ rect.height = 1
  reached : ((rect.height - 1) * terminal.width + rect.width) * 4 ≤ (backgroundSize terminal % 2 ^ 32 : Nat)

/-! ## The rounds -/

section Rounds

variable {info : GraphicsInfo} {terminal : Terminal} {rect : RestoreRect} {x y : Nat}

theorem mem_restoreRounds : (x, y) ∈ restoreRounds rect ↔ (x : Int) < rect.width ∧ (y : Int) < rect.height := by
  rw [restoreRounds, List.mem_product, List.mem_range, List.mem_range]
  omega

theorem restoreCoordinate_eq {abs offset : Nat} {start : Int} (nonneg : 0 ≤ start)
    (small : abs + start + offset < 2 ^ 64) : (restoreCoordinate abs start offset : Int) = abs + start + offset := by
  rw [restoreCoordinate, sizeT_of_nonneg (by omega) small]
  omega

variable (onNode : terminal.OnNode info) (inBounds : rect.InBounds terminal)
include onNode inBounds

/-- The coordinates of a round are those of a pixel of the node. -/
theorem restore_coordinates (inWidth : (x : Int) < rect.width) (inHeight : (y : Int) < rect.height) :
    ((restoreCoordinate terminal.absX rect.sx x : Int) = terminal.absX + rect.sx + x ∧
      (restoreCoordinate terminal.absY rect.sy y : Int) = terminal.absY + rect.sy + y) ∧
    OnSurface info (terminal.absX + rect.sx + x) (terminal.absY + rect.sy + y) := by
  obtain ⟨left, top, -, -, right, bottom⟩ := inBounds
  obtain ⟨nodeX, nodeY⟩ := onNode
  have width := info.width.toNat_lt
  have height := info.height.toNat_lt
  exact ⟨⟨restoreCoordinate_eq left (by omega), restoreCoordinate_eq top (by omega)⟩, by unfold OnSurface; omega⟩

theorem restoreXY_toNat (inWidth : (x : Int) < rect.width) (inHeight : (y : Int) < rect.height) :
    ((restoreX terminal rect (x, y)).toNat : Int) = terminal.absX + rect.sx + x ∧
      ((restoreY terminal rect (x, y)).toNat : Int) = terminal.absY + rect.sy + y := by
  obtain ⟨⟨atX, atY⟩, ⟨nonnegX, belowX⟩, nonnegY, belowY⟩ := restore_coordinates onNode inBounds inWidth inHeight
  have width := info.width.toNat_lt
  have height := info.height.toNat_lt
  have smallX : restoreCoordinate terminal.absX rect.sx x < 2 ^ 32 := by omega
  have smallY : restoreCoordinate terminal.absY rect.sy y < 2 ^ 32 := by omega
  rw [restoreX, restoreY, UInt32.toNat_ofNat_of_lt' smallX, UInt32.toNat_ofNat_of_lt' smallY]
  exact ⟨atX, atY⟩

theorem restore_inSurface (inWidth : (x : Int) < rect.width) (inHeight : (y : Int) < rect.height) :
    restoreX terminal rect (x, y) < info.width ∧ restoreY terminal rect (x, y) < info.height := by
  obtain ⟨-, ⟨-, belowX⟩, -, belowY⟩ := restore_coordinates onNode inBounds inWidth inHeight
  obtain ⟨atX, atY⟩ := restoreXY_toNat onNode inBounds inWidth inHeight
  rw [UInt32.lt_iff_toNat_lt, UInt32.lt_iff_toNat_lt]
  omega

variable (hasPixels : info.HasPixels)
include hasPixels

/-- The rounds have their own pixels. -/
theorem restore_target_iff {x' y' : Nat} (inWidth : (x : Int) < rect.width) (inHeight : (y : Int) < rect.height)
    (inWidth' : (x' : Int) < rect.width) (inHeight' : (y' : Int) < rect.height) :
    restoreY terminal rect (x', y') * info.width + restoreX terminal rect (x', y') = rectIndex info terminal rect x y ↔
      (x', y') = (x, y) := by
  obtain ⟨-, onSurface⟩ := restore_coordinates onNode inBounds inWidth inHeight
  obtain ⟨atX, atY⟩ := restoreXY_toNat onNode inBounds inWidth' inHeight'
  rw [rectIndex, surfaceIndex_eq_iff hasPixels (restore_inSurface onNode inBounds inWidth' inHeight') onSurface, atX, atY,
    Prod.mk.injEq]
  omega

end Rounds

/-! ## The pixels a restore leaves -/

section Pixels

variable {info : GraphicsInfo} {terminal : Terminal} {rect : RestoreRect} {background : Option Background}
  {current : UInt32 → FramebufferPixel}

/-- The colour a round writes. -/
def restoredColor (info : GraphicsInfo) (terminal : Terminal) (rect : RestoreRect) (background : Option Background)
    (round : Nat × Nat) : Option FramebufferPixel :=
  if isPassedOver terminal rect round = false ∧ restoreX terminal rect round < info.width ∧
      restoreY terminal rect round < info.height then
    some (backgroundPixel background (backgroundIndex terminal round))
  else none

theorem restore_pixels (info : GraphicsInfo) (terminal : Terminal) (rect : RestoreRect) (background : Option Background)
    (current : UInt32 → FramebufferPixel) :
    (terminalRestoreBackground terminal rect info noTransparencyColor background current).pixels =
      (restoreRounds rect).foldl (writeRound
        (fun round => restoreY terminal rect round * info.width + restoreX terminal rect round)
        (restoredColor info terminal rect background)) current := by
  have shown : ∀ pixel, isIgnored noTransparencyColor pixel = false := fun _ => by simp [isIgnored]
  rw [terminalRestoreBackground]
  dsimp only
  congr 1
  funext pixels round
  rw [graphicsDrawPixel, shown, writeRound, restoredColor]
  cases isPassedOver terminal rect round with
  | true => simp
  | false =>
    by_cases inSurface : restoreX terminal rect round < info.width ∧ restoreY terminal rect round < info.height
    · simp [inSurface]
    · simp [inSurface]

variable (onNode : terminal.OnNode info) (inBounds : rect.InBounds terminal) (hasPixels : info.HasPixels)
include onNode inBounds hasPixels

theorem restore_at {x y : Nat} (inWidth : (x : Int) < rect.width) (inHeight : (y : Int) < rect.height) :
    (terminalRestoreBackground terminal rect info noTransparencyColor background current).pixels
        (rectIndex info terminal rect x y) =
      if isPassedOver terminal rect (x, y) = false then backgroundPixel background (backgroundIndex terminal (x, y))
      else current (rectIndex info terminal rect x y) := by
  have own : ∀ round ∈ restoreRounds rect, restoreY terminal rect round * info.width + restoreX terminal rect round =
      rectIndex info terminal rect x y → round = (x, y) := by
    rintro ⟨x', y'⟩ isRound here
    obtain ⟨inWidth', inHeight'⟩ := mem_restoreRounds.mp isRound
    exact (restore_target_iff onNode inBounds hasPixels inWidth inHeight inWidth' inHeight').mp here
  have agrees : ∀ round ∈ restoreRounds rect, restoreY terminal rect round * info.width + restoreX terminal rect round =
      rectIndex info terminal rect x y → ∀ other, restoredColor info terminal rect background round = some other →
        other = backgroundPixel background (backgroundIndex terminal (x, y)) := by
    intro round isRound here other isColor
    rw [own round isRound here, restoredColor] at isColor
    split at isColor
    · exact (Option.some.inj isColor).symm
    · cases isColor
  rw [restore_pixels, foldl_write_at agrees]
  refine if_congr ⟨?_, ?_⟩ rfl rfl
  · rintro ⟨round, isRound, here, isColor⟩
    rw [own round isRound here, restoredColor] at isColor
    split at isColor
    next drawn => exact drawn.1
    · cases isColor
  · intro drawn
    refine ⟨(x, y), mem_restoreRounds.mpr ⟨inWidth, inHeight⟩,
      (restore_target_iff onNode inBounds hasPixels inWidth inHeight inWidth inHeight).mpr rfl, ?_⟩
    rw [restoredColor, if_pos ⟨drawn, restore_inSurface onNode inBounds inWidth inHeight⟩]
    rfl

theorem restore_other {index : UInt32}
    (outside : ∀ x y : Nat, x < rect.width → y < rect.height → index ≠ rectIndex info terminal rect x y) :
    (terminalRestoreBackground terminal rect info noTransparencyColor background current).pixels index =
      current index := by
  have apart : ∀ round ∈ restoreRounds rect,
      restoreY terminal rect round * info.width + restoreX terminal rect round ≠ index := by
    rintro ⟨x, y⟩ isRound here
    obtain ⟨inWidth, inHeight⟩ := mem_restoreRounds.mp isRound
    exact outside x y inWidth inHeight (here.symm.trans
      ((restore_target_iff onNode inBounds hasPixels inWidth inHeight inWidth inHeight).mpr rfl))
  have agrees : ∀ round ∈ restoreRounds rect, restoreY terminal rect round * info.width + restoreX terminal rect round =
      index → ∀ other, restoredColor info terminal rect background round = some other → other = noTransparencyColor :=
    fun round isRound here => absurd here (apart round isRound)
  rw [restore_pixels, foldl_write_at agrees, if_neg]
  rintro ⟨round, isRound, here, -⟩
  exact apart round isRound here

end Pixels

/-! ## The saved copy -/

section Save

variable {info : GraphicsInfo} {terminal : Terminal} {rect : RestoreRect}

theorem drawnIndex_lt {x y : UInt32} (inSurface : x < info.width ∧ y < info.height) :
    (y * info.width + x).toNat < info.width.toNat * info.height.toNat := by
  rw [UInt32.lt_iff_toNat_lt, UInt32.lt_iff_toNat_lt] at inSurface
  have inside := gridIndex_lt inSurface.1 inSurface.2
  rw [UInt32.toNat_add, UInt32.toNat_mul, Nat.mod_add_mod]
  exact lt_of_le_of_lt (Nat.mod_le _ _) inside

theorem surfaceIndex_toNat (hasPixels : info.HasPixels) {x y : Int} (onSurface : OnSurface info x y) :
    (surfaceIndex info x y).toNat = gridIndex info.width.toNat x.toNat y.toNat := by
  obtain ⟨⟨nonnegX, inWidth⟩, nonnegY, inHeight⟩ := onSurface
  have inside := gridIndex_lt (show x.toNat < info.width.toNat by omega) (show y.toNat < info.height.toNat by omega)
  exact UInt32.toNat_ofNat_of_lt' (Nat.lt_of_lt_of_le inside hasPixels)

section OnNode

variable (onNode : terminal.OnNode info) (hasPixels : info.HasPixels)
include onNode

theorem area_le : terminal.width * terminal.height ≤ info.width.toNat * info.height.toNat :=
  Nat.mul_le_mul (Nat.le_of_add_left_le onNode.1) (Nat.le_of_add_left_le onNode.2)

include hasPixels

theorem backgroundSize_eq : backgroundSize terminal = terminal.width * terminal.height * sizeofFramebufferPixel := by
  have small := (area_le onNode).trans hasPixels
  have area : terminal.width * terminal.height % addressSpace = terminal.width * terminal.height :=
    Nat.mod_eq_of_lt (by unfold addressSpace; omega)
  rw [backgroundSize, area]
  exact Nat.mod_eq_of_lt (by unfold addressSpace sizeofFramebufferPixel; omega)

theorem backgroundIndex_eq (inBounds : rect.InBounds terminal) {x y : Nat} (inWidth : (x : Int) < rect.width)
    (inHeight : (y : Int) < rect.height) : backgroundIndex terminal (x, y) = gridIndex terminal.width x y ∧
      gridIndex terminal.width x y < terminal.width * terminal.height := by
  obtain ⟨left, top, -, -, right, bottom⟩ := inBounds
  have small := (area_le onNode).trans hasPixels
  have inside := gridIndex_lt (show x < terminal.width by omega) (show y < terminal.height by omega)
  exact ⟨Nat.mod_eq_of_lt (show gridIndex terminal.width x y < addressSpace by unfold addressSpace; omega), inside⟩

end OnNode

/-- A pixel of the copy after a save of `length` bytes. -/
def savedPixel (before : UInt32 → FramebufferPixel) (buffer : Background) (length : Nat) (i : Nat) : FramebufferPixel :=
  if i < length / sizeofFramebufferPixel then before (.ofNat i) else buffer.pixels i

theorem terminalBackgroundSave_some {alloc : Bool} {background : Option Background} {buffer : Background}
    (isBuffer : backgroundBuffer terminal alloc background = some buffer)
    (short : backgroundSize terminal % 2 ^ 32 < 2 ^ 31) (before : UInt32 → FramebufferPixel) :
    terminalBackgroundSave terminal alloc background before =
      some ⟨some ⟨buffer.allocated, savedPixel before buffer (backgroundSize terminal % 2 ^ 32)⟩,
        backgroundSize terminal % 2 ^ 32⟩ := by
  rw [terminalBackgroundSave, isBuffer, memcpyLength, if_pos short]
  rfl

theorem terminalBackgroundSave_none {alloc : Bool} {background : Option Background}
    (noBuffer : backgroundBuffer terminal alloc background = none) (before : UInt32 → FramebufferPixel) :
    terminalBackgroundSave terminal alloc background before = some ⟨none, 0⟩ := by
  rw [terminalBackgroundSave, noBuffer]

theorem short_of_save {alloc : Bool} {background : Option Background} {buffer : Background}
    (isBuffer : backgroundBuffer terminal alloc background = some buffer) {before : UInt32 → FramebufferPixel}
    {save : BackgroundSave} (saved : terminalBackgroundSave terminal alloc background before = some save) :
    backgroundSize terminal % 2 ^ 32 < 2 ^ 31 := by
  by_contra long
  rw [terminalBackgroundSave, isBuffer, memcpyLength, if_neg long] at saved
  cases saved

/-- There is a buffer, as large as the terminal, just when there was one or there is memory. -/
theorem backgroundBuffer_cases {background : Option Background} (alloc : Bool)
    (sized : ∀ buffer, background = some buffer → buffer.allocated = backgroundSize terminal) :
    ¬ (background.isSome ∨ alloc) ∧ backgroundBuffer terminal alloc background = none ∨
      (background.isSome ∨ alloc) ∧ ∃ buffer, backgroundBuffer terminal alloc background = some buffer ∧
        buffer.allocated = backgroundSize terminal := by
  cases background with
  | some buffer => exact .inr ⟨.inl rfl, buffer, rfl, sized buffer rfl⟩
  | none =>
    cases alloc with
    | true => exact .inr ⟨.inr rfl, _, rfl, rfl⟩
    | false => exact .inl ⟨by decide, rfl⟩

end Save

instance : Nontrivial FramebufferPixel := ⟨⟨0, 0, 0, 0⟩, ⟨1, 0, 0, 0⟩, by decide⟩

/-! ## When the pixels come back -/

section Exact

variable {info : GraphicsInfo} {terminal : Terminal} {rect : RestoreRect} {alloc : Bool}
  {background : Option Background} (onNode : terminal.OnNode info) (inBounds : rect.InBounds terminal)
  (hasPixels : info.HasPixels)
include onNode inBounds hasPixels

/-- The accesses of a restore stay in a buffer of the terminal's size and in the node. -/
theorem restore_inside (current : UInt32 → FramebufferPixel) :
    (∀ index ∈ (terminalRestoreBackground terminal rect info noTransparencyColor background current).reads,
      (index + 1) * sizeofFramebufferPixel ≤ backgroundSize terminal) ∧
    ∀ index ∈ (terminalRestoreBackground terminal rect info noTransparencyColor background current).writes,
      index.toNat < info.width.toNat * info.height.toNat := by
  constructor
  · intro index isRead
    obtain ⟨⟨x, y⟩, isRound, rfl⟩ := List.mem_map.mp isRead
    obtain ⟨inWidth, inHeight⟩ := mem_restoreRounds.mp (List.mem_filter.mp isRound).1
    obtain ⟨isIndex, inside⟩ := backgroundIndex_eq onNode hasPixels inBounds inWidth inHeight
    rw [isIndex, backgroundSize_eq onNode hasPixels]
    exact Nat.mul_le_mul_right _ inside
  · intro index isWrite
    obtain ⟨⟨x, y⟩, isRound, rfl⟩ := List.mem_map.mp isWrite
    obtain ⟨inWidth, inHeight⟩ := mem_restoreRounds.mp (List.mem_filter.mp isRound).1
    exact drawnIndex_lt (restore_inSurface onNode inBounds inWidth inHeight)

theorem rectIndex_toNat {x y : Nat} (inWidth : (x : Int) < rect.width) (inHeight : (y : Int) < rect.height) :
    (rectIndex info terminal rect x y).toNat =
      gridIndex info.width.toNat (terminal.absX + rect.sx.toNat + x) (terminal.absY + rect.sy.toNat + y) := by
  have left := inBounds.left
  have top := inBounds.top
  rw [rectIndex, surfaceIndex_toNat hasPixels (restore_coordinates onNode inBounds inWidth inHeight).2]
  congr 1 <;> omega

/-- A pixel that comes back whatever the contents is read from its own place in the copy. -/
theorem pixel_exact {buffer : Background} {copied x y : Nat} (inWidth : (x : Int) < rect.width)
    (inHeight : (y : Int) < rect.height)
    (exact : ∀ before current : UInt32 → FramebufferPixel,
      (terminalRestoreBackground terminal rect info noTransparencyColor
        (some ⟨buffer.allocated, savedPixel before buffer copied⟩) current).pixels (rectIndex info terminal rect x y) =
      before (rectIndex info terminal rect x y)) :
    gridIndex terminal.width x y < copied / sizeofFramebufferPixel ∧
      UInt32.ofNat (gridIndex terminal.width x y) = rectIndex info terminal rect x y := by
  simp only [restore_at onNode inBounds hasPixels inWidth inHeight] at exact
  have notPassed : isPassedOver terminal rect (x, y) = false := by
    by_contra passed
    obtain ⟨p, q, different⟩ := exists_pair_ne FramebufferPixel
    have same := exact (fun _ => p) (fun _ => q)
    rw [if_neg passed] at same
    exact different same.symm
  simp only [if_pos notPassed, (backgroundIndex_eq onNode hasPixels inBounds inWidth inHeight).1, backgroundPixel,
    savedPixel] at exact
  have isCopied : gridIndex terminal.width x y < copied / sizeofFramebufferPixel := by
    by_contra behind
    obtain ⟨p, different⟩ := exists_ne (buffer.pixels (gridIndex terminal.width x y))
    have same := exact (fun _ => p) (fun _ => p)
    rw [if_neg behind] at same
    exact different same.symm
  simp only [if_pos isCopied] at exact
  refine ⟨isCopied, ?_⟩
  by_contra elsewhere
  obtain ⟨p, q, different⟩ := exists_pair_ne FramebufferPixel
  have same := exact (fun index => if index = rectIndex info terminal rect x y then p else q) (fun _ => p)
  rw [if_neg elsewhere, if_pos rfl] at same
  exact different same.symm

/-- The places agree at every pixel just when they do at the corners. -/
theorem restoresFrom_of_exact (buffer : Background) (saves : background.isSome ∨ alloc) (someWidth : 0 < rect.width)
    (someHeight : 0 < rect.height)
    (exact : ∀ x y : Nat, x < rect.width → y < rect.height → ∀ before current : UInt32 → FramebufferPixel,
      (terminalRestoreBackground terminal rect info noTransparencyColor
        (some ⟨buffer.allocated, savedPixel before buffer (backgroundSize terminal % 2 ^ 32)⟩) current).pixels
          (rectIndex info terminal rect x y) = before (rectIndex info terminal rect x y)) :
    RestoresFrom info terminal alloc background rect := by
  have place : ∀ x y : Nat, x < rect.width → y < rect.height →
      gridIndex terminal.width x y < backgroundSize terminal % 2 ^ 32 / sizeofFramebufferPixel ∧
      gridIndex terminal.width x y =
        gridIndex info.width.toNat (terminal.absX + rect.sx.toNat + x) (terminal.absY + rect.sy.toNat + y) := by
    intro x y inWidth inHeight
    obtain ⟨isCopied, same⟩ := pixel_exact onNode inBounds hasPixels inWidth inHeight (exact x y inWidth inHeight)
    refine ⟨isCopied, ?_⟩
    have small : gridIndex terminal.width x y < 2 ^ 32 := by
      have modulus := Nat.mod_lt (backgroundSize terminal) (show 0 < 2 ^ 32 by decide)
      have quotient := Nat.div_le_self (backgroundSize terminal % 2 ^ 32) sizeofFramebufferPixel
      omega
    rw [← rectIndex_toNat onNode inBounds hasPixels inWidth inHeight, ← same, UInt32.toNat_ofNat_of_lt' small]
  obtain ⟨left, top, -, -, right, bottom⟩ := inBounds
  obtain ⟨nodeX, nodeY⟩ := onNode
  obtain ⟨-, first⟩ := place 0 0 someWidth someHeight
  rw [gridIndex, gridIndex, Nat.zero_mul, Nat.add_zero, Nat.add_zero, Nat.add_zero, eq_comm, Nat.add_eq_zero_iff,
    Nat.mul_eq_zero, or_iff_left (show info.width.toNat ≠ 0 by omega)] at first
  obtain ⟨zeroY, zeroX⟩ := first
  refine ⟨saves, ⟨by omega, by omega⟩, ⟨by omega, by omega⟩, ?_, ?_⟩
  · by_cases oneRow : rect.height = 1
    · exact .inr oneRow
    · obtain ⟨-, second⟩ := place 0 1 someWidth (by omega)
      rw [zeroX, zeroY] at second
      exact .inl (by simpa [gridIndex] using second)
  · obtain ⟨last, -⟩ := place (rect.width.toNat - 1) (rect.height.toNat - 1) (by omega) (by omega)
    rw [Nat.lt_iff_add_one_le, Nat.le_div_iff_mul_le (by decide)] at last
    have rows : ((rect.height.toNat - 1 : Nat) : Int) = rect.height - 1 := by omega
    have cols : ((rect.width.toNat - 1 : Nat) : Int) + 1 = rect.width := by omega
    rw [← rows, ← cols, ← Int.add_assoc]
    exact_mod_cast last

theorem RestoresFrom.exact (restores : RestoresFrom info terminal alloc background rect) {buffer : Background}
    (before current : UInt32 → FramebufferPixel) {x y : Nat} (inWidth : (x : Int) < rect.width)
    (inHeight : (y : Int) < rect.height) :
    (terminalRestoreBackground terminal rect info noTransparencyColor
        (some ⟨buffer.allocated, savedPixel before buffer (backgroundSize terminal % 2 ^ 32)⟩) current).pixels
          (rectIndex info terminal rect x y) = before (rectIndex info terminal rect x y) := by
  obtain ⟨-, ⟨zeroX, zeroY⟩, ⟨startX, startY⟩, rows, reached⟩ := restores
  obtain ⟨⟨atX, atY⟩, -⟩ := restore_coordinates onNode inBounds inWidth inHeight
  have right := inBounds.right
  have bottom := inBounds.bottom
  have notPassed : isPassedOver terminal rect (x, y) = false := by
    refine decide_eq_false ?_
    dsimp only
    omega
  have stride : gridIndex info.width.toNat x y = gridIndex terminal.width x y := by
    rcases rows with same | oneRow
    · rw [same]
    · have isFirst : y = 0 := by omega
      rw [isFirst, gridIndex, gridIndex, Nat.zero_mul, Nat.zero_mul]
  have place : (rectIndex info terminal rect x y).toNat = gridIndex terminal.width x y := by
    rw [rectIndex_toNat onNode inBounds hasPixels inWidth inHeight, zeroX, zeroY, startX, startY]
    simpa using stride
  have isCopied : gridIndex terminal.width x y < backgroundSize terminal % 2 ^ 32 / sizeofFramebufferPixel := by
    rw [Nat.lt_iff_add_one_le, Nat.le_div_iff_mul_le (by decide)]
    have above : (y : Int) * terminal.width ≤ (rect.height - 1) * terminal.width :=
      Int.mul_le_mul_of_nonneg_right (by omega) (Int.natCast_nonneg _)
    have inCopy : ((gridIndex terminal.width x y + 1) * 4 : Int) ≤ (backgroundSize terminal % 2 ^ 32 : Nat) := by
      rw [gridIndex, Nat.cast_add, Nat.cast_mul]
      omega
    exact_mod_cast inCopy
  rw [restore_at onNode inBounds hasPixels inWidth inHeight, if_pos notPassed,
    (backgroundIndex_eq onNode hasPixels inBounds inWidth inHeight).1]
  show savedPixel before buffer (backgroundSize terminal % 2 ^ 32) (gridIndex terminal.width x y) = _
  rw [savedPixel, if_pos isCopied, ← place, UInt32.ofNat_toNat]

/-- Nothing is read behind `NULL`, so that no pixel is put back. -/
theorem saveRestores_noBuffer (noBuffer : backgroundBuffer terminal alloc background = none) :
    SaveRestores info terminal alloc background rect ↔ ¬ (0 < rect.width ∧ 0 < rect.height) := by
  constructor
  · rintro saveRestores ⟨someWidth, someHeight⟩
    obtain ⟨p, q, different⟩ := exists_pair_ne FramebufferPixel
    obtain ⟨save, saved, restores⟩ := saveRestores (fun _ => p) (fun _ => q)
    rw [terminalBackgroundSave_none noBuffer] at saved
    cases saved
    have restored := restores.restored 0 0 someWidth someHeight
    rw [restore_at onNode inBounds hasPixels someWidth someHeight] at restored
    split at restored
    next notPassed =>
      have read := restores.readsInside (backgroundIndex terminal (0, 0)) (List.mem_map_of_mem
        (List.mem_filter.mpr ⟨mem_restoreRounds.mpr ⟨someWidth, someHeight⟩, by rw [notPassed]; rfl⟩))
      exact absurd read (by simp [allocatedBytes, sizeofFramebufferPixel])
    next => exact absurd restored.symm different
  · intro empty before current
    refine ⟨_, terminalBackgroundSave_none noBuffer before, ⟨Nat.zero_le _, Nat.zero_le _⟩, ?_, ?_, ?_, ?_⟩
    · intro index isRead
      obtain ⟨⟨x, y⟩, isRound, -⟩ := List.mem_map.mp isRead
      obtain ⟨inWidth, inHeight⟩ := mem_restoreRounds.mp (List.mem_filter.mp isRound).1
      exact absurd ⟨by omega, by omega⟩ empty
    · exact (restore_inside onNode inBounds hasPixels current).2
    · exact fun x y inWidth inHeight => absurd ⟨by omega, by omega⟩ empty
    · exact fun index outside => restore_other onNode inBounds hasPixels outside

theorem saveRestores_buffer {buffer : Background} (isBuffer : backgroundBuffer terminal alloc background = some buffer)
    (sized : buffer.allocated = backgroundSize terminal) (saves : background.isSome ∨ alloc) :
    SaveRestores info terminal alloc background rect ↔ backgroundSize terminal % 2 ^ 32 < 2 ^ 31 ∧
      (0 < rect.width → 0 < rect.height → RestoresFrom info terminal alloc background rect) := by
  constructor
  · intro saveRestores
    obtain ⟨_, someSave, -⟩ := saveRestores (fun _ => noTransparencyColor) (fun _ => noTransparencyColor)
    have short := short_of_save isBuffer someSave
    refine ⟨short, fun someWidth someHeight =>
      restoresFrom_of_exact onNode inBounds hasPixels buffer saves someWidth someHeight ?_⟩
    intro x y inWidth inHeight before current
    obtain ⟨save, saved, restores⟩ := saveRestores before current
    rw [terminalBackgroundSave_some isBuffer short] at saved
    cases saved
    exact restores.restored x y inWidth inHeight
  · rintro ⟨short, restoresFrom⟩ before current
    refine ⟨_, terminalBackgroundSave_some isBuffer short before, ⟨?_, ?_⟩, ?_, ?_, ?_, ?_⟩
    · exact (Nat.mod_le _ _).trans sized.ge
    · refine (Nat.mod_le _ _).trans ?_
      rw [backgroundSize_eq onNode hasPixels]
      exact Nat.mul_le_mul_right _ (area_le onNode)
    · exact fun index isRead => ((restore_inside onNode inBounds hasPixels current).1 index isRead).trans sized.ge
    · exact (restore_inside onNode inBounds hasPixels current).2
    · exact fun x y inWidth inHeight => (restoresFrom (by omega) (by omega)).exact onNode inBounds hasPixels before current
        inWidth inHeight
    · exact fun index outside => restore_other onNode inBounds hasPixels outside

end Exact

/-- What was saved is put back, and nothing else touched, just when the copy's length is an `int` that is not
negative and a rectangle with pixels begins at the node's origin, in rows that follow one another as in the copy. -/
theorem saveRestores_iff (info : GraphicsInfo) (hasPixels : info.HasPixels) (terminal : Terminal)
    (onNode : terminal.OnNode info) (alloc : Bool) (background : Option Background)
    (sized : ∀ buffer, background = some buffer → buffer.allocated = backgroundSize terminal) (rect : RestoreRect)
    (inBounds : rect.InBounds terminal) :
    SaveRestores info terminal alloc background rect ↔
      (background.isSome ∨ alloc → backgroundSize terminal % 2 ^ 32 < 2 ^ 31) ∧
        (0 < rect.width → 0 < rect.height → RestoresFrom info terminal alloc background rect) := by
  rcases backgroundBuffer_cases alloc sized with ⟨without, noBuffer⟩ | ⟨saves, buffer, isBuffer, allocated⟩
  · rw [saveRestores_noBuffer onNode inBounds hasPixels noBuffer]
    constructor
    · exact fun empty => ⟨fun saves => absurd saves without, fun someWidth someHeight =>
        absurd ⟨someWidth, someHeight⟩ empty⟩
    · exact fun ⟨_, restoresFrom⟩ ⟨someWidth, someHeight⟩ => without (restoresFrom someWidth someHeight).saves
  · rw [saveRestores_buffer onNode inBounds hasPixels isBuffer allocated saves]
    exact and_congr_left' ⟨fun short _ => short, fun short => short saves⟩

/-- A terminal of two by two pixels on a node of the same size. -/
def squareTerminal : Terminal := ⟨0, 0, 2, 2, whiteFont, terminalFlagBackspaceAllowed⟩

theorem squareTerminal_onNode : squareTerminal.OnNode (square noTransparencyColor) :=
  ⟨show 0 + 2 ≤ 2 by decide, show 0 + 2 ≤ 2 by decide⟩

theorem saveRestores_wholeSquare : SaveRestores (square noTransparencyColor) squareTerminal true none ⟨0, 0, 2, 2⟩ :=
  (saveRestores_iff (square noTransparencyColor) (square_hasPixels _) squareTerminal squareTerminal_onNode true none
    (fun _ isBuffer => by cases isBuffer) ⟨0, 0, 2, 2⟩ (by constructor <;> decide)).mpr
    ⟨fun _ => by decide, fun _ _ => ⟨.inr rfl, by decide, by decide, .inl rfl, by decide⟩⟩

/-- The last of four pixels, which is read from the first place of the copy. -/
theorem saveRestores_lastPixel : RestoreRect.InBounds ⟨1, 1, 1, 1⟩ squareTerminal ∧
    ¬ SaveRestores (square noTransparencyColor) squareTerminal true none ⟨1, 1, 1, 1⟩ := by
  have inBounds : RestoreRect.InBounds ⟨1, 1, 1, 1⟩ squareTerminal := by constructor <;> decide
  refine ⟨inBounds, fun saveRestores => ?_⟩
  have isBuffer : backgroundBuffer squareTerminal true none = some ⟨16, fun _ => noTransparencyColor⟩ := rfl
  have fromStart := ((saveRestores_buffer squareTerminal_onNode inBounds (square_hasPixels _) isBuffer rfl
    (.inr rfl)).mp saveRestores).2 (by decide) (by decide)
  exact absurd fromStart.fromStart (by decide)

end ViOS.Graphics
