import ViOS.Graphics.Font
import ViOS.Lib.Run

/-! # The cursor of a terminal

A terminal draws characters in a grid of cells.  The numbers of rows and columns are quotients
of `size_t` values that are returned as `int`, and the place of a cell on the screen is passed
to `font_draw` as an `int`.

* `terminalWrite`, `terminalPrint`, `terminalBackspace`, `terminalCursorSet` — the code.
* `InGrid`, `CellInside` — the cursor is in the grid, a cell in the bounds of the terminal.
* `terminal_inside_iff` — the terminals whose runs keep to both.
-/

namespace ViOS.Graphics

open ViOS.Lib

/-! ## The code -/

/-- The fields of `struct terminal` that do not change: `bounds`, `font` and `flags`. -/
structure Terminal where
  absX : Nat
  absY : Nat
  width : Nat
  height : Nat
  font : Font
  flags : UInt32

/-- `text` of `struct terminal`. -/
structure TextCursor where
  row : Nat
  col : Nat
  deriving DecidableEq

/-- The arguments of a call of `font_draw`. -/
structure GlyphCell where
  screenX : Int
  screenY : Int
  character : Int

/-- The cursor, and the cells that were drawn. -/
structure TerminalState where
  cursor : TextCursor
  drawn : List GlyphCell

def terminalFlagBackspaceAllowed : UInt32 := 0b00000001

section Code

variable (terminal : Terminal)

def terminalTotalCols : Int := toInt32 (terminal.width / terminal.font.bitsWidthPerCharacter : Nat)

def terminalTotalRows : Int := toInt32 (terminal.height / terminal.font.bitsHeightPerCharacter : Nat)

/-- `terminal_handle_newline`; the number of rows is compared as a `size_t`. -/
def terminalHandleNewline (cursor : TextCursor) : TextCursor :=
  let row := (cursor.row + 1) % addressSpace
  ⟨if row ≥ sizeT (terminalTotalRows terminal) then 0 else row, 0⟩

/-- `terminal_update_position_after_draw`. -/
def terminalUpdatePositionAfterDraw (cursor : TextCursor) : TextCursor :=
  let col := (cursor.col + 1) % addressSpace
  let moved : TextCursor :=
    if col ≥ sizeT (terminalTotalCols terminal) then ⟨(cursor.row + 1) % addressSpace, 0⟩ else ⟨cursor.row, col⟩
  if moved.row ≥ sizeT (terminalTotalRows terminal) then ⟨0, 0⟩ else moved

/-- `terminal_cursor_set`: the cursor stays when the place is not in the grid. -/
def terminalCursorSet (cursor : TextCursor) (row col : Int) : TextCursor :=
  if col < 0 ∨ sizeT col ≥ sizeT (terminalTotalCols terminal) then cursor
  else if row < 0 ∨ sizeT row ≥ sizeT (terminalTotalRows terminal) then cursor
  else ⟨sizeT row, sizeT col⟩

section Wraps

variable (totalRows totalCols : Int)

/-- The four conditions of `terminal_backspace` on the row and the column, in their order. -/
def wrapLeft (place : Int × Int) : Int × Int :=
  if place.2 < 0 then (toInt32 (place.1 - 1), toInt32 (totalCols - 1)) else place

def wrapTop (place : Int × Int) : Int × Int :=
  if place.1 < 0 then (toInt32 (totalRows - 1), 0) else place

def wrapRight (place : Int × Int) : Int × Int :=
  if place.2 ≥ totalCols then (toInt32 (place.1 + 1), 0) else place

def wrapBottom (place : Int × Int) : Int × Int :=
  if place.1 ≥ totalRows then (0, 0) else place

/-- The row and the column `terminal_backspace` sets the cursor to. -/
def backspacePlace (cursor : TextCursor) : Int × Int :=
  wrapBottom totalRows (wrapRight totalCols (wrapTop totalRows
    (wrapLeft totalCols (toInt32 cursor.row, toInt32 (toInt32 cursor.col - 1)))))

end Wraps

/-- `terminal_backspace`, without the background that it restores. -/
def terminalBackspace (cursor : TextCursor) : TextCursor :=
  if terminal.flags &&& terminalFlagBackspaceAllowed = 0 then cursor
  else
    let place := backspacePlace (terminalTotalRows terminal) (terminalTotalCols terminal) cursor
    terminalCursorSet terminal cursor place.1 place.2

/-- `terminal_abs_x_for_next_character` and `terminal_abs_y_for_next_character`, passed on as `int`. -/
def nextCell (cursor : TextCursor) (c : Int) : GlyphCell where
  screenX := toInt32 ((terminal.absX + cursor.col * terminal.font.bitsWidthPerCharacter) % addressSpace : Nat)
  screenY := toInt32 ((terminal.absY + cursor.row * terminal.font.bitsHeightPerCharacter) % addressSpace : Nat)
  character := c

/-- `terminal_write`. -/
def terminalWrite (state : TerminalState) (c : Int) : TerminalState :=
  if c = 0x0a then { state with cursor := terminalHandleNewline terminal state.cursor }
  else if c = 0x08 ∧ terminal.flags &&& terminalFlagBackspaceAllowed ≠ 0 then
    { state with cursor := terminalBackspace terminal state.cursor }
  else ⟨terminalUpdatePositionAfterDraw terminal state.cursor, state.drawn ++ [nextCell terminal state.cursor c]⟩

/-- `terminal_print`, with the characters before the end of the message. -/
def terminalPrint (state : TerminalState) (message : List Int8) : TerminalState :=
  message.foldl (fun state c => terminalWrite terminal state c.toInt) state

/-- The calls that move the cursor. -/
inductive TerminalOp where
  | write (c : Int)
  | print (message : List Int8)
  | backspace
  | cursorSet (row col : Int)

def TerminalOp.apply (state : TerminalState) : TerminalOp → TerminalState
  | .write c => terminalWrite terminal state c
  | .print message => terminalPrint terminal state message
  | .backspace => { state with cursor := terminalBackspace terminal state.cursor }
  | .cursorSet row col => { state with cursor := terminalCursorSet terminal state.cursor row col }

def TerminalStep (state : TerminalState) (op : TerminalOp) (after : TerminalState) : Prop :=
  after = op.apply terminal state

/-- The state `terminal_create` leaves. -/
def terminalCreated : TerminalState := ⟨⟨0, 0⟩, []⟩

end Code

/-! ## The grid -/

/-- The cursor is in the grid, as the functions of the terminal count rows and columns. -/
def InGrid (terminal : Terminal) (cursor : TextCursor) : Prop :=
  (cursor.row : Int) < terminalTotalRows terminal ∧ (cursor.col : Int) < terminalTotalCols terminal

instance (terminal : Terminal) (cursor : TextCursor) : Decidable (InGrid terminal cursor) :=
  inferInstanceAs (Decidable (_ ∧ _))

section Grid

variable {terminal : Terminal} {cursor : TextCursor}

/-- The number of columns of a terminal whose cursor is in the grid. -/
theorem totalCols_small (terminal : Terminal) : terminalTotalCols terminal < 2 ^ 31 := toInt32_lt _

theorem totalRows_small (terminal : Terminal) : terminalTotalRows terminal < 2 ^ 31 := toInt32_lt _

theorem toInt32_eq_self {value : Int} (lower : -2 ^ 31 ≤ value) (upper : value < 2 ^ 31) : toInt32 value = value := by
  unfold toInt32
  omega

theorem sizeT_lt_iff {a b : Int} (nonneg : 0 ≤ a) (small : a < 2 ^ 63) (nonneg' : 0 ≤ b) (small' : b < 2 ^ 63) :
    sizeT a < sizeT b ↔ a < b := by
  rw [sizeT_of_nonneg nonneg (by omega), sizeT_of_nonneg nonneg' (by omega)]
  omega

theorem newline_eq (inGrid : InGrid terminal cursor) : terminalHandleNewline terminal cursor =
    if (cursor.row : Int) + 1 < terminalTotalRows terminal then ⟨cursor.row + 1, 0⟩ else ⟨0, 0⟩ := by
  have rows := totalRows_small terminal
  obtain ⟨inRows, -⟩ := inGrid
  have size : sizeT (terminalTotalRows terminal) = (terminalTotalRows terminal).toNat :=
    sizeT_of_nonneg (by omega) (by omega)
  have row : (cursor.row + 1) % addressSpace = cursor.row + 1 := Nat.mod_eq_of_lt (by unfold addressSpace; omega)
  rw [terminalHandleNewline, row, size]
  by_cases last : (cursor.row : Int) + 1 < terminalTotalRows terminal
  · rw [if_pos last, if_neg (by omega)]
  · rw [if_neg last, if_pos (by omega)]

theorem updatePosition_eq (inGrid : InGrid terminal cursor) : terminalUpdatePositionAfterDraw terminal cursor =
    if (cursor.col : Int) + 1 < terminalTotalCols terminal then ⟨cursor.row, cursor.col + 1⟩
    else if (cursor.row : Int) + 1 < terminalTotalRows terminal then ⟨cursor.row + 1, 0⟩ else ⟨0, 0⟩ := by
  have cols := totalCols_small terminal
  have rows := totalRows_small terminal
  obtain ⟨inRows, inCols⟩ := inGrid
  have sizeRows : sizeT (terminalTotalRows terminal) = (terminalTotalRows terminal).toNat :=
    sizeT_of_nonneg (by omega) (by omega)
  have sizeCols : sizeT (terminalTotalCols terminal) = (terminalTotalCols terminal).toNat :=
    sizeT_of_nonneg (by omega) (by omega)
  have row : (cursor.row + 1) % addressSpace = cursor.row + 1 := Nat.mod_eq_of_lt (by unfold addressSpace; omega)
  have col : (cursor.col + 1) % addressSpace = cursor.col + 1 := Nat.mod_eq_of_lt (by unfold addressSpace; omega)
  rw [terminalUpdatePositionAfterDraw, row, col, sizeRows, sizeCols]
  by_cases lastCol : (cursor.col : Int) + 1 < terminalTotalCols terminal
  · rw [if_pos lastCol, if_neg (show ¬ cursor.col + 1 ≥ (terminalTotalCols terminal).toNat by omega),
      if_neg (show ¬ cursor.row ≥ (terminalTotalRows terminal).toNat by omega)]
  · rw [if_neg lastCol, if_pos (show cursor.col + 1 ≥ (terminalTotalCols terminal).toNat by omega)]
    by_cases lastRow : (cursor.row : Int) + 1 < terminalTotalRows terminal
    · rw [if_pos lastRow, if_neg (show ¬ cursor.row + 1 ≥ (terminalTotalRows terminal).toNat by omega)]
    · rw [if_neg lastRow, if_pos (show cursor.row + 1 ≥ (terminalTotalRows terminal).toNat by omega)]

/-- The cursor is set to the place, if that is in the grid. -/
theorem cursorSet_eq (inGrid : InGrid terminal cursor) {row col : Int} (smallRow : row < 2 ^ 31)
    (smallCol : col < 2 ^ 31) : terminalCursorSet terminal cursor row col =
      if (0 ≤ row ∧ row < terminalTotalRows terminal) ∧ 0 ≤ col ∧ col < terminalTotalCols terminal then
        ⟨row.toNat, col.toNat⟩
      else cursor := by
  have cols := totalCols_small terminal
  have rows := totalRows_small terminal
  obtain ⟨inRows, inCols⟩ := inGrid
  unfold terminalCursorSet
  by_cases negCol : col < 0
  · rw [if_pos (.inl negCol), if_neg (by omega)]
  by_cases negRow : row < 0
  · rw [if_pos (show row < 0 ∨ _ from .inl negRow), ite_self, if_neg (by omega)]
  have colIff := @sizeT_lt_iff col (terminalTotalCols terminal) (by omega) (by omega) (by omega) (by omega)
  have rowIff := @sizeT_lt_iff row (terminalTotalRows terminal) (by omega) (by omega) (by omega) (by omega)
  by_cases inside : (0 ≤ row ∧ row < terminalTotalRows terminal) ∧ 0 ≤ col ∧ col < terminalTotalCols terminal
  · rw [if_pos inside, if_neg (by omega), if_neg (by omega), sizeT_of_nonneg (by omega) (by omega),
      sizeT_of_nonneg (by omega) (by omega)]
  · rw [if_neg inside]
    by_cases behindCol : sizeT col ≥ sizeT (terminalTotalCols terminal)
    · rw [if_pos (.inr behindCol)]
    · rw [if_neg (by omega), if_pos (by omega)]

section Wraps

variable {totalRows totalCols row col : Int}

theorem wrapLeft_of_neg (left : col < 0) :
    wrapLeft totalCols (row, col) = (toInt32 (row - 1), toInt32 (totalCols - 1)) := if_pos left

theorem wrapLeft_of_nonneg (inside : 0 ≤ col) : wrapLeft totalCols (row, col) = (row, col) :=
  if_neg (Int.not_lt.mpr inside)

theorem wrapTop_of_neg (above : row < 0) : wrapTop totalRows (row, col) = (toInt32 (totalRows - 1), 0) :=
  if_pos above

theorem wrapTop_of_nonneg (inside : 0 ≤ row) : wrapTop totalRows (row, col) = (row, col) :=
  if_neg (Int.not_lt.mpr inside)

theorem wrapRight_of_lt (inside : col < totalCols) : wrapRight totalCols (row, col) = (row, col) :=
  if_neg (Int.not_le.mpr inside)

theorem wrapBottom_of_lt (inside : row < totalRows) : wrapBottom totalRows (row, col) = (row, col) :=
  if_neg (Int.not_le.mpr inside)

end Wraps

/-- From a cell of the grid, a backspace goes to the cell before, and from the first cell to the first one of the
last row. -/
theorem backspacePlace_eq {totalRows totalCols : Int} (inRows : cursor.row < totalRows)
    (inCols : cursor.col < totalCols) (rows : totalRows < 2 ^ 31) (cols : totalCols < 2 ^ 31) :
    backspacePlace totalRows totalCols cursor =
      if cursor.col ≠ 0 then ((cursor.row : Int), (cursor.col : Int) - 1)
      else if cursor.row ≠ 0 then ((cursor.row : Int) - 1, totalCols - 1)
      else (totalRows - 1, 0) := by
  have col : toInt32 (toInt32 cursor.col - 1) = (cursor.col : Int) - 1 := by
    rw [toInt32_of_lt (show cursor.col < 2 ^ 31 by omega), toInt32_eq_self (by omega) (by omega)]
  have row : toInt32 cursor.row = cursor.row := toInt32_of_lt (by omega)
  rw [backspacePlace, col, row]
  by_cases firstCol : cursor.col = 0
  · have rowBefore : toInt32 ((cursor.row : Int) - 1) = (cursor.row : Int) - 1 :=
      toInt32_eq_self (by omega) (by omega)
    have lastCol : toInt32 (totalCols - 1) = totalCols - 1 := toInt32_eq_self (by omega) (by omega)
    rw [wrapLeft_of_neg (by omega), rowBefore, lastCol, if_neg (not_not_intro firstCol)]
    by_cases firstRow : cursor.row = 0
    · have lastRow : toInt32 (totalRows - 1) = totalRows - 1 := toInt32_eq_self (by omega) (by omega)
      rw [wrapTop_of_neg (by omega), lastRow, wrapRight_of_lt (by omega), wrapBottom_of_lt (by omega),
        if_neg (not_not_intro firstRow)]
    · rw [wrapTop_of_nonneg (by omega), wrapRight_of_lt (by omega), wrapBottom_of_lt (by omega), if_pos firstRow]
  · rw [wrapLeft_of_nonneg (by omega), wrapTop_of_nonneg (by omega), wrapRight_of_lt (by omega),
      wrapBottom_of_lt (by omega), if_pos firstCol]

/-! ## The cursor stays in the grid -/

/-- From a cell of the grid, a backspace is allowed to go to the cell before. -/
theorem backspace_eq (allowed : terminal.flags &&& terminalFlagBackspaceAllowed ≠ 0) (inGrid : InGrid terminal cursor) :
    terminalBackspace terminal cursor =
      if cursor.col ≠ 0 then ⟨cursor.row, cursor.col - 1⟩
      else if cursor.row ≠ 0 then ⟨cursor.row - 1, (terminalTotalCols terminal).toNat - 1⟩
      else ⟨(terminalTotalRows terminal).toNat - 1, 0⟩ := by
  have rows := totalRows_small terminal
  have cols := totalCols_small terminal
  rw [terminalBackspace, if_neg allowed, backspacePlace_eq inGrid.1 inGrid.2 rows cols]
  obtain ⟨inRows, inCols⟩ := inGrid
  by_cases firstCol : cursor.col = 0
  · by_cases firstRow : cursor.row = 0
    · rw [if_neg (not_not_intro firstCol), if_neg (not_not_intro firstRow), if_neg (not_not_intro firstCol),
        if_neg (not_not_intro firstRow), cursorSet_eq ⟨inRows, inCols⟩ (by omega) (by omega), if_pos (by omega)]
      simp only [TextCursor.mk.injEq]
      omega
    · rw [if_neg (not_not_intro firstCol), if_pos firstRow, if_neg (not_not_intro firstCol), if_pos firstRow,
        cursorSet_eq ⟨inRows, inCols⟩ (by omega) (by omega), if_pos (by omega)]
      simp only [TextCursor.mk.injEq]
      omega
  · rw [if_pos firstCol, if_pos firstCol, cursorSet_eq ⟨inRows, inCols⟩ (by omega) (by omega), if_pos (by omega)]
    simp only [TextCursor.mk.injEq]
    omega

theorem inGrid_of {row col : Nat} (inRows : (row : Int) < terminalTotalRows terminal)
    (inCols : (col : Int) < terminalTotalCols terminal) : InGrid terminal ⟨row, col⟩ := ⟨inRows, inCols⟩

theorem newline_inGrid (inGrid : InGrid terminal cursor) : InGrid terminal (terminalHandleNewline terminal cursor) := by
  rw [newline_eq inGrid]
  obtain ⟨inRows, inCols⟩ := inGrid
  split
  next notLast => exact inGrid_of (by omega) (by omega)
  next => exact inGrid_of (by omega) (by omega)

theorem updatePosition_inGrid (inGrid : InGrid terminal cursor) :
    InGrid terminal (terminalUpdatePositionAfterDraw terminal cursor) := by
  rw [updatePosition_eq inGrid]
  obtain ⟨inRows, inCols⟩ := inGrid
  split
  next => exact inGrid_of inRows (by omega)
  next =>
    split
    next => exact inGrid_of (by omega) (by omega)
    next => exact inGrid_of (by omega) (by omega)

theorem cursorSet_inGrid (inGrid : InGrid terminal cursor) (row col : Int) :
    InGrid terminal (terminalCursorSet terminal cursor row col) := by
  have cols := totalCols_small terminal
  have rows := totalRows_small terminal
  unfold terminalCursorSet
  split
  next => exact inGrid
  next inCols =>
    split
    next => exact inGrid
    next inRows =>
      obtain ⟨inRows', inCols'⟩ := inGrid
      have sizeRows : sizeT (terminalTotalRows terminal) = (terminalTotalRows terminal).toNat :=
        sizeT_of_nonneg (by omega) (by omega)
      have sizeCols : sizeT (terminalTotalCols terminal) = (terminalTotalCols terminal).toNat :=
        sizeT_of_nonneg (by omega) (by omega)
      rw [sizeCols] at inCols
      rw [sizeRows] at inRows
      exact inGrid_of (by omega) (by omega)

theorem backspace_inGrid (inGrid : InGrid terminal cursor) : InGrid terminal (terminalBackspace terminal cursor) := by
  unfold terminalBackspace
  split
  · exact inGrid
  · exact cursorSet_inGrid inGrid _ _

end Grid

/-! ## The cells along an axis -/

/-- The cells of an axis are counted by a positive `int`, and, unless the axis starts at 0, the last one ends
before coordinates of 32 bits wrap. -/
def CellsFit (start length glyph : Nat) : Prop :=
  (0 < length / glyph % 2 ^ 32 ∧ length / glyph % 2 ^ 32 < 2 ^ 31) ∧
    (start = 0 ∨ start + length / glyph % 2 ^ 32 * glyph ≤ 2 ^ 32)

section Axis

variable {start length glyph : Nat}

/-- The coordinate a pixel of a cell is drawn at. -/
def cellCoordinate (start glyph cell offset : Nat) : Nat :=
  (absCoordinate (toInt32 ((start + cell * glyph) % addressSpace : Nat)) offset).toNat

theorem toInt32_pos_iff (count : Nat) : 0 < toInt32 count ↔ 0 < count % 2 ^ 32 ∧ count % 2 ^ 32 < 2 ^ 31 := by
  unfold toInt32
  omega

theorem toInt32_of_pos {count : Nat} (positive : 0 < toInt32 count) : toInt32 count = (count % 2 ^ 32 : Nat) := by
  unfold toInt32 at positive ⊢
  omega

theorem cellCoordinate_eq (start glyph cell offset : Nat) :
    cellCoordinate start glyph cell offset = (start + cell * glyph + offset) % 2 ^ 32 := by
  have value := ofInt_toNat (toInt32 ((start + cell * glyph) % addressSpace : Nat) + offset)
  unfold cellCoordinate absCoordinate
  unfold toInt32 addressSpace at *
  omega

theorem cellCoordinate_inside (fits : CellsFit start length glyph) {cell offset : Nat}
    (inAxis : (cell : Int) < toInt32 (length / glyph : Nat)) (inCell : offset < glyph) :
    start ≤ cellCoordinate start glyph cell offset ∧ cellCoordinate start glyph cell offset < start + length := by
  obtain ⟨count, room⟩ := fits
  rw [toInt32_of_pos ((toInt32_pos_iff _).mpr count)] at inAxis
  have before : cell * glyph + offset < length / glyph % 2 ^ 32 * glyph := by
    calc cell * glyph + offset < (cell + 1) * glyph := by rw [Nat.succ_mul]; omega
      _ ≤ length / glyph % 2 ^ 32 * glyph := Nat.mul_le_mul_right glyph (by omega)
  have inLength : length / glyph % 2 ^ 32 * glyph ≤ length :=
    (Nat.mul_le_mul_right glyph (Nat.mod_le _ _)).trans (Nat.div_mul_le_self length glyph)
  rw [cellCoordinate_eq]
  rcases room with zero | room
  · have small := Nat.mod_le (start + cell * glyph + offset) (2 ^ 32)
    omega
  · rw [Nat.mod_eq_of_lt (by omega)]
    omega

/-- A pixel that wraps to coordinate 0 lies before a terminal that starts behind 0. -/
theorem cellsFit_of_inside (someGlyph : 0 < glyph) (positive : 0 < toInt32 (length / glyph : Nat))
    (inside : ∀ cell offset : Nat, (cell : Int) < toInt32 (length / glyph : Nat) → offset < glyph →
      start ≤ cellCoordinate start glyph cell offset) : CellsFit start length glyph := by
  have count := (toInt32_pos_iff _).mp positive
  rw [toInt32_of_pos positive] at inside
  refine ⟨count, ?_⟩
  by_contra outside
  rw [not_or, Nat.not_le] at outside
  obtain ⟨late, wraps⟩ := outside
  by_cases onScreen : start < 2 ^ 32
  · have cell : (2 ^ 32 - start) / glyph < length / glyph % 2 ^ 32 :=
      (Nat.div_lt_iff_lt_mul someGlyph).mpr (by omega)
    have above := inside ((2 ^ 32 - start) / glyph) ((2 ^ 32 - start) % glyph) (by omega) (Nat.mod_lt _ someGlyph)
    have split := Nat.div_add_mod' (2 ^ 32 - start) glyph
    rw [cellCoordinate_eq, Nat.add_assoc, split, Nat.add_sub_of_le (by omega), Nat.mod_self] at above
    omega
  · have above := inside 0 0 (by omega) someGlyph
    have small : cellCoordinate start glyph 0 0 < 2 ^ 32 := UInt32.toNat_lt _
    omega

end Axis

/-! ## Runs -/

/-- The terminal is at least one glyph wide and high. -/
structure OneGlyph (terminal : Terminal) : Prop where
  someWidth : 0 < terminal.font.bitsWidthPerCharacter
  oneWide : terminal.font.bitsWidthPerCharacter ≤ terminal.width
  someHeight : 0 < terminal.font.bitsHeightPerCharacter
  oneHigh : terminal.font.bitsHeightPerCharacter ≤ terminal.height

/-- Every pixel of the cell lies in the bounds of the terminal. -/
def CellInside (terminal : Terminal) (cell : GlyphCell) : Prop :=
  ∀ x < terminal.font.bitsWidthPerCharacter, ∀ y < terminal.font.bitsHeightPerCharacter,
    (terminal.absX ≤ (absCoordinate cell.screenX x).toNat ∧
      (absCoordinate cell.screenX x).toNat < terminal.absX + terminal.width) ∧
    terminal.absY ≤ (absCoordinate cell.screenY y).toNat ∧
      (absCoordinate cell.screenY y).toNat < terminal.absY + terminal.height

/-- The cursor is in the grid, and every cell that was drawn in the bounds. -/
def KeepsInside (terminal : Terminal) (state : TerminalState) : Prop :=
  InGrid terminal state.cursor ∧ ∀ cell ∈ state.drawn, CellInside terminal cell

section Runs

variable {terminal : Terminal} {state : TerminalState}

theorem keepsInside_of {cursor : TextCursor} {drawn : List GlyphCell} (inGrid : InGrid terminal cursor)
    (inside : ∀ cell ∈ drawn, CellInside terminal cell) : KeepsInside terminal ⟨cursor, drawn⟩ := ⟨inGrid, inside⟩

theorem nextCell_inside
    (fitsX : CellsFit terminal.absX terminal.width terminal.font.bitsWidthPerCharacter)
    (fitsY : CellsFit terminal.absY terminal.height terminal.font.bitsHeightPerCharacter) {cursor : TextCursor}
    (inGrid : InGrid terminal cursor) (c : Int) : CellInside terminal (nextCell terminal cursor c) :=
  fun _ inWidth _ inHeight =>
    ⟨cellCoordinate_inside fitsX inGrid.2 inWidth, cellCoordinate_inside fitsY inGrid.1 inHeight⟩

section Fits

variable (fitsX : CellsFit terminal.absX terminal.width terminal.font.bitsWidthPerCharacter)
  (fitsY : CellsFit terminal.absY terminal.height terminal.font.bitsHeightPerCharacter)
include fitsX fitsY

theorem write_keepsInside (keeps : KeepsInside terminal state) (c : Int) :
    KeepsInside terminal (terminalWrite terminal state c) := by
  obtain ⟨inGrid, drawn⟩ := keeps
  unfold terminalWrite
  split
  · exact ⟨newline_inGrid inGrid, drawn⟩
  · split
    · exact ⟨backspace_inGrid inGrid, drawn⟩
    · refine keepsInside_of (updatePosition_inGrid inGrid) ?_
      intro cell member
      rcases List.mem_append.mp member with before | last
      · exact drawn cell before
      · rw [List.mem_singleton.mp last]
        exact nextCell_inside fitsX fitsY inGrid c

theorem print_keepsInside (keeps : KeepsInside terminal state) (message : List Int8) :
    KeepsInside terminal (terminalPrint terminal state message) := by
  unfold terminalPrint
  induction message generalizing state with
  | nil => exact keeps
  | cons c rest ih => exact ih (write_keepsInside fitsX fitsY keeps c.toInt)

theorem apply_keepsInside (keeps : KeepsInside terminal state) (op : TerminalOp) :
    KeepsInside terminal (op.apply terminal state) := by
  cases op with
  | write c => exact write_keepsInside fitsX fitsY keeps c
  | print message => exact print_keepsInside fitsX fitsY keeps message
  | backspace => exact ⟨backspace_inGrid keeps.1, keeps.2⟩
  | cursorSet row col => exact ⟨cursorSet_inGrid keeps.1 row col, keeps.2⟩

end Fits

/-- A cell of the grid that is drawn after the cursor was set to it. -/
theorem drawnCell_inside (run : ∀ run, IsRun (TerminalStep terminal) terminalCreated run →
    ∀ state ∈ runStates terminalCreated run, KeepsInside terminal state) {row col : Nat}
    (inGrid : InGrid terminal ⟨row, col⟩) : CellInside terminal (nextCell terminal ⟨row, col⟩ 65) := by
  have rows := totalRows_small terminal
  have cols := totalCols_small terminal
  have created : InGrid terminal terminalCreated.cursor := (run [] trivial terminalCreated (List.mem_singleton_self _)).1
  have set : terminalCursorSet terminal terminalCreated.cursor row col = ⟨row, col⟩ := by
    obtain ⟨inRows, inCols⟩ := inGrid
    dsimp only at inRows inCols
    rw [cursorSet_eq created (by omega) (by omega), if_pos (by omega)]
    rfl
  have written := run [(.cursorSet row col, ⟨⟨row, col⟩, []⟩), (.write 65, terminalWrite terminal ⟨⟨row, col⟩, []⟩ 65)]
    ⟨congrArg (TerminalState.mk · []) set.symm, rfl, trivial⟩ _
    (List.mem_cons_of_mem _ (List.mem_cons_of_mem _ (List.mem_singleton_self _)))
  exact written.2 _ (List.mem_singleton_self _)

end Runs

/-- Every run keeps the cursor in the grid and draws inside the bounds just when both axes fit. -/
theorem terminal_inside_iff (terminal : Terminal) (oneGlyph : OneGlyph terminal) :
    (∀ run, IsRun (TerminalStep terminal) terminalCreated run →
      ∀ state ∈ runStates terminalCreated run, KeepsInside terminal state) ↔
    CellsFit terminal.absX terminal.width terminal.font.bitsWidthPerCharacter ∧
      CellsFit terminal.absY terminal.height terminal.font.bitsHeightPerCharacter := by
  constructor
  · intro inside
    have created : InGrid terminal terminalCreated.cursor :=
      (inside [] trivial terminalCreated (List.mem_singleton_self _)).1
    refine ⟨cellsFit_of_inside oneGlyph.someWidth created.2 fun cell offset inAxis inCell => ?_,
      cellsFit_of_inside oneGlyph.someHeight created.1 fun cell offset inAxis inCell => ?_⟩
    · exact (drawnCell_inside inside (inGrid_of created.1 inAxis) offset inCell 0 oneGlyph.someHeight).1.1
    · exact (drawnCell_inside inside (inGrid_of inAxis created.2) 0 oneGlyph.someWidth offset inCell).2.1
  · rintro ⟨fitsX, fitsY⟩ run isRun
    have created : InGrid terminal terminalCreated.cursor :=
      inGrid_of ((toInt32_pos_iff _).mpr fitsY.1) ((toInt32_pos_iff _).mpr fitsX.1)
    have allOk : EveryStep (fun _ _ => True) terminalCreated run :=
      everyStep_of_inv (fun _ _ _ _ _ => trivial) (fun _ _ _ _ _ => trivial) isRun trivial
    refine inv_of_everyStep (fun state op after step _ keeps => ?_) isRun allOk
      ⟨created, fun _ member => absurd member List.not_mem_nil⟩
    rw [step]
    exact apply_keepsInside fitsX fitsY keeps op

/-- Two rows and two columns of glyphs. -/
def smallTerminal : Terminal := ⟨0, 0, 18, 32, whiteFont, terminalFlagBackspaceAllowed⟩

theorem terminal_inside_small : KeepsInside smallTerminal (terminalPrint smallTerminal terminalCreated [72, 105]) := by
  have fitsX : CellsFit 0 18 9 := ⟨by omega, .inl rfl⟩
  have fitsY : CellsFit 0 32 16 := ⟨by omega, .inl rfl⟩
  exact (terminal_inside_iff smallTerminal ⟨by decide, by decide, by decide, by decide⟩).mpr ⟨fitsX, fitsY⟩
    [(.print [72, 105], terminalPrint smallTerminal terminalCreated [72, 105])] ⟨rfl, trivial⟩ _
    (List.mem_cons_of_mem _ (List.mem_singleton_self _))

/-- A terminal with `2^31` columns, whose number is negative as an `int`. -/
def wideTerminal : Terminal := ⟨0, 0, 9 * 2 ^ 31, 16, whiteFont, terminalFlagBackspaceAllowed⟩

theorem terminal_inside_wide : OneGlyph wideTerminal ∧
    ¬ ∀ run, IsRun (TerminalStep wideTerminal) terminalCreated run →
      ∀ state ∈ runStates terminalCreated run, KeepsInside wideTerminal state := by
  refine ⟨⟨by decide, by decide, by decide, by decide⟩, fun inside => ?_⟩
  have created : InGrid wideTerminal terminalCreated.cursor :=
    (inside [] trivial terminalCreated (List.mem_singleton_self _)).1
  exact absurd created (by decide)

end ViOS.Graphics
