import ViOS.Graphics.Terminal
import ViOS.Lib.Grid

/-! # Backspaces after printable characters

The cells of the grid are counted row by row.  A printable character moves the cursor to the
next cell, from the last one to the first.  A backspace moves it to the cell before, but from
the first one to the first cell of the last row.

* `cellIndex` — the number of the cursor's cell.
* `stepBack` — the backspace on these numbers.
* `writeBackspace_iff` — when backspaces take back what was written.
-/

namespace ViOS.Graphics

open ViOS.Lib

/-! ## Steps back on numbers -/

/-- A step to the number before, from 0 to `last`. -/
def stepBack (last index : Nat) : Nat := if index ≠ 0 then index - 1 else last

section StepBack

variable {last index count cols : Nat}

theorem stepBack_iterate_of_le (before : count ≤ index) : (stepBack last)^[count] index = index - count := by
  induction count with
  | zero => rfl
  | succ count ih => rw [Function.iterate_succ_apply', ih (by omega), stepBack, if_pos (by omega), Nat.sub_sub]

theorem stepBack_iterate_wrap (last index count : Nat) :
    (stepBack last)^[count + (index + 1)] index = (stepBack last)^[count] last := by
  rw [Function.iterate_add_apply, Function.iterate_succ_apply', stepBack_iterate_of_le le_rfl, Nat.sub_self, stepBack,
    if_neg (not_not_intro rfl)]

theorem stepBack_iterate_zero (index count : Nat) : (stepBack 0)^[count] index = index - count := by
  induction count with
  | zero => rfl
  | succ count ih =>
    rw [Function.iterate_succ_apply', ih, stepBack]
    split <;> omega

/-- Steps back undo as many steps forward in a cycle of `last + cols` cells, if these do not pass the end, or if
the last row has one cell, or if that is the only row and they go round. -/
theorem stepBack_round_iff (someCols : 0 < cols) (rows : last = 0 ∨ cols ≤ last) (inGrid : index < last + cols)
    (few : count ≤ last + cols) : (stepBack last)^[count] ((index + count) % (last + cols)) = index ↔
      index + count < last + cols ∨ cols = 1 ∨ last = 0 ∧ index = 0 := by
  by_cases inside : index + count < last + cols
  · rw [Nat.mod_eq_of_lt inside, stepBack_iterate_of_le (Nat.le_add_left _ _), Nat.add_sub_cancel]
    exact iff_of_true rfl (.inl inside)
  · have wrapped : (index + count) % (last + cols) = index + count - (last + cols) := by
      rw [Nat.mod_eq_sub_mod (by omega), Nat.mod_eq_of_lt (by omega)]
    -- The steps that are left when the first cell was passed.
    obtain ⟨passed, first⟩ : ∃ passed, index + count - (last + cols) = passed := ⟨_, rfl⟩
    have steps : count = (last + cols - index - 1) + (passed + 1) := by omega
    rw [wrapped, first, steps, stepBack_iterate_wrap]
    by_cases onward : last + cols - index - 1 ≤ last
    · rw [stepBack_iterate_of_le onward]
      omega
    · rcases rows with oneRow | rows
      · rw [oneRow, stepBack_iterate_zero]
        omega
      · have again : last + cols - index - 1 = (cols - index - 2) + (last + 1) := by omega
        rw [again, stepBack_iterate_wrap, stepBack_iterate_of_le (by omega)]
        omega

end StepBack

/-! ## Cells by their numbers -/

/-- The number of the cursor's cell, row by row. -/
def cellIndex (terminal : Terminal) (cursor : TextCursor) : Nat :=
  gridIndex (terminalTotalCols terminal).toNat cursor.col cursor.row

/-- The first cell of the last row. -/
def lastRowStart (terminal : Terminal) : Nat :=
  ((terminalTotalRows terminal).toNat - 1) * (terminalTotalCols terminal).toNat

/-- A character of the printable range of ASCII. -/
def IsPrintable (c : Int) : Prop := 0x20 ≤ c ∧ c ≤ 0x7e

instance : DecidablePred IsPrintable := fun _ => inferInstanceAs (Decidable (_ ∧ _))

section Cells

variable {terminal : Terminal} {cursor cursor' : TextCursor}

theorem cellIndex_inj (inGrid : InGrid terminal cursor) (inGrid' : InGrid terminal cursor') :
    cellIndex terminal cursor = cellIndex terminal cursor' ↔ cursor = cursor' := by
  obtain ⟨inRows, inCols⟩ := inGrid
  obtain ⟨inRows', inCols'⟩ := inGrid'
  constructor
  · intro same
    obtain ⟨sameCol, sameRow⟩ := gridIndex_inj (by omega) (by omega) same
    cases cursor
    cases cursor'
    exact congrArg₂ TextCursor.mk sameRow sameCol
  · exact congrArg (cellIndex terminal)

/-- The number of cells. -/
theorem cells_eq (inGrid : InGrid terminal cursor) :
    (terminalTotalRows terminal).toNat * (terminalTotalCols terminal).toNat =
      lastRowStart terminal + (terminalTotalCols terminal).toNat := by
  obtain ⟨inRows, -⟩ := inGrid
  rw [lastRowStart, ← Nat.succ_mul, Nat.succ_eq_add_one, Nat.sub_add_cancel (by omega)]

theorem cellIndex_lt (inGrid : InGrid terminal cursor) :
    cellIndex terminal cursor < lastRowStart terminal + (terminalTotalCols terminal).toNat := by
  rw [← cells_eq inGrid, Nat.mul_comm]
  obtain ⟨inRows, inCols⟩ := inGrid
  exact gridIndex_lt (by omega) (by omega)

theorem toNat_of_last {total : Int} {count : Nat} (inside : count < total) (last : ¬ (count : Int) + 1 < total) :
    total.toNat = count + 1 := by omega

theorem cellIndex_mk (terminal : Terminal) (row col : Nat) :
    cellIndex terminal ⟨row, col⟩ = row * (terminalTotalCols terminal).toNat + col := rfl

theorem cellIndex_updatePosition (inGrid : InGrid terminal cursor) :
    cellIndex terminal (terminalUpdatePositionAfterDraw terminal cursor) =
      (cellIndex terminal cursor + 1) % (lastRowStart terminal + (terminalTotalCols terminal).toNat) := by
  have cells := cells_eq inGrid
  have movedBelow := cellIndex_lt (updatePosition_inGrid inGrid)
  have here := cellIndex_mk terminal cursor.row cursor.col
  rw [updatePosition_eq inGrid] at movedBelow ⊢
  obtain ⟨inRows, inCols⟩ := inGrid
  rw [here]
  by_cases notLastCol : (cursor.col : Int) + 1 < terminalTotalCols terminal
  · rw [if_pos notLastCol, cellIndex_mk] at movedBelow ⊢
    rw [Nat.add_assoc, Nat.mod_eq_of_lt movedBelow]
  · have atEnd : cursor.row * (terminalTotalCols terminal).toNat + cursor.col + 1 =
        (cursor.row + 1) * (terminalTotalCols terminal).toNat := by
      rw [Nat.succ_mul]
      omega
    rw [if_neg notLastCol, atEnd] at *
    by_cases notLastRow : (cursor.row : Int) + 1 < terminalTotalRows terminal
    · rw [if_pos notLastRow, cellIndex_mk, Nat.add_zero] at movedBelow ⊢
      rw [Nat.mod_eq_of_lt movedBelow]
    · rw [if_neg notLastRow, cellIndex_mk, ← cells, toNat_of_last inRows notLastRow, Nat.mod_self, Nat.zero_mul]

theorem cellIndex_backspace (allowed : terminal.flags &&& terminalFlagBackspaceAllowed ≠ 0)
    (inGrid : InGrid terminal cursor) : cellIndex terminal (terminalBackspace terminal cursor) =
      stepBack (lastRowStart terminal) (cellIndex terminal cursor) := by
  have here := cellIndex_mk terminal cursor.row cursor.col
  rw [backspace_eq allowed inGrid, here]
  obtain ⟨inRows, inCols⟩ := inGrid
  by_cases firstCol : cursor.col = 0
  · by_cases firstRow : cursor.row = 0
    · rw [if_neg (not_not_intro firstCol), if_neg (not_not_intro firstRow), cellIndex_mk, firstCol, firstRow,
        Nat.zero_mul, stepBack, if_neg (not_not_intro rfl), lastRowStart, Nat.add_zero]
    · have rowBefore : cursor.row * (terminalTotalCols terminal).toNat =
          (cursor.row - 1) * (terminalTotalCols terminal).toNat + (terminalTotalCols terminal).toNat := by
        rw [← Nat.succ_mul, Nat.succ_eq_add_one, Nat.sub_add_cancel (by omega)]
      rw [if_neg (not_not_intro firstCol), if_pos firstRow, cellIndex_mk, firstCol, rowBefore, stepBack,
        if_pos (by omega)]
      omega
  · rw [if_pos firstCol, cellIndex_mk, stepBack, if_pos (by omega)]
    omega

end Cells

/-! ## Runs of characters and backspaces -/

section Runs

variable {terminal : Terminal} {state : TerminalState} {cursor : TextCursor}

theorem write_printable {c : Int} (printable : IsPrintable c) :
    (terminalWrite terminal state c).cursor = terminalUpdatePositionAfterDraw terminal state.cursor := by
  obtain ⟨lower, upper⟩ := printable
  rw [terminalWrite, if_neg (by omega), if_neg (fun backspace => by omega)]

theorem foldl_write_printable (inGrid : InGrid terminal state.cursor) {chars : List Int}
    (printable : ∀ c ∈ chars, IsPrintable c) :
    InGrid terminal (chars.foldl (terminalWrite terminal) state).cursor ∧
      cellIndex terminal (chars.foldl (terminalWrite terminal) state).cursor =
        (cellIndex terminal state.cursor + chars.length) %
          (lastRowStart terminal + (terminalTotalCols terminal).toNat) := by
  induction chars generalizing state with
  | nil =>
    rw [List.foldl_nil, List.length_nil, Nat.add_zero, Nat.mod_eq_of_lt (cellIndex_lt inGrid)]
    exact ⟨inGrid, rfl⟩
  | cons c rest ih =>
    obtain ⟨first, others⟩ := List.forall_mem_cons.mp printable
    have moved : (terminalWrite terminal state c).cursor = terminalUpdatePositionAfterDraw terminal state.cursor :=
      write_printable first
    have inGrid' : InGrid terminal (terminalWrite terminal state c).cursor := by
      rw [moved]
      exact updatePosition_inGrid inGrid
    obtain ⟨inGridAfter, indexAfter⟩ := ih inGrid' others
    refine ⟨inGridAfter, ?_⟩
    rw [List.foldl_cons, indexAfter, moved, cellIndex_updatePosition inGrid, Nat.mod_add_mod, List.length_cons,
      Nat.add_assoc, Nat.add_comm 1]

theorem iterate_backspace (allowed : terminal.flags &&& terminalFlagBackspaceAllowed ≠ 0)
    (inGrid : InGrid terminal cursor) (count : Nat) :
    InGrid terminal ((terminalBackspace terminal)^[count] cursor) ∧
      cellIndex terminal ((terminalBackspace terminal)^[count] cursor) =
        (stepBack (lastRowStart terminal))^[count] (cellIndex terminal cursor) := by
  induction count with
  | zero => exact ⟨inGrid, rfl⟩
  | succ count ih =>
    obtain ⟨inGridBefore, indexBefore⟩ := ih
    rw [Function.iterate_succ_apply', Function.iterate_succ_apply']
    refine ⟨backspace_inGrid inGridBefore, ?_⟩
    rw [cellIndex_backspace allowed inGridBefore, indexBefore]

end Runs

/-- Backspaces take back as many printable characters just when these do not go on past the last cell, or the
grid has one column, or the cursor went once round a grid of one row from its first cell. -/
theorem writeBackspace_iff (terminal : Terminal) (allowed : terminal.flags &&& terminalFlagBackspaceAllowed ≠ 0)
    (state : TerminalState) (inGrid : InGrid terminal state.cursor) (chars : List Int)
    (printable : ∀ c ∈ chars, IsPrintable c)
    (few : chars.length ≤ (terminalTotalRows terminal).toNat * (terminalTotalCols terminal).toNat) :
    (terminalBackspace terminal)^[chars.length] (chars.foldl (terminalWrite terminal) state).cursor = state.cursor ↔
      cellIndex terminal state.cursor + chars.length <
          (terminalTotalRows terminal).toNat * (terminalTotalCols terminal).toNat ∨
        terminalTotalCols terminal = 1 ∨ terminalTotalRows terminal = 1 ∧ state.cursor = ⟨0, 0⟩ := by
  obtain ⟨written, indexWritten⟩ := foldl_write_printable inGrid printable
  obtain ⟨back, indexBack⟩ := iterate_backspace allowed written chars.length
  have someRows : 0 < terminalTotalRows terminal := lt_of_le_of_lt (Int.natCast_nonneg _) inGrid.1
  have someCols : 0 < terminalTotalCols terminal := lt_of_le_of_lt (Int.natCast_nonneg _) inGrid.2
  have first : InGrid terminal ⟨0, 0⟩ := ⟨someRows, someCols⟩
  have cols : 0 < (terminalTotalCols terminal).toNat := Int.lt_toNat.mpr someCols
  have oneCol : (terminalTotalCols terminal).toNat = 1 ↔ terminalTotalCols terminal = 1 := by
    generalize terminalTotalCols terminal = cols
    omega
  have oneRow : lastRowStart terminal = 0 ↔ terminalTotalRows terminal = 1 := by
    rw [lastRowStart, Nat.mul_eq_zero, or_iff_left cols.ne', Nat.sub_eq_zero_iff_le]
    generalize terminalTotalRows terminal = rows at someRows
    omega
  have firstCell : cellIndex terminal state.cursor = 0 ↔ state.cursor = ⟨0, 0⟩ := by
    rw [← cellIndex_inj inGrid first, cellIndex_mk terminal 0 0, Nat.zero_mul]
  have rows : lastRowStart terminal = 0 ∨ (terminalTotalCols terminal).toNat ≤ lastRowStart terminal := by
    rcases Nat.eq_zero_or_pos ((terminalTotalRows terminal).toNat - 1) with none | some
    · exact .inl (by rw [lastRowStart, none, Nat.zero_mul])
    · exact .inr (Nat.le_mul_of_pos_left _ some)
  rw [cells_eq inGrid] at few ⊢
  rw [← cellIndex_inj back inGrid, indexBack, indexWritten, stepBack_round_iff cols rows (cellIndex_lt inGrid) few, oneCol,
    oneRow, firstCell]

theorem writeBackspace_small :
    (terminalBackspace smallTerminal)^[2] ([72, 105].foldl (terminalWrite smallTerminal) terminalCreated).cursor =
      ⟨0, 0⟩ :=
  (writeBackspace_iff smallTerminal (by decide) terminalCreated (by decide) [72, 105] (by decide) (by decide)).mpr
    (.inl (by decide))

/-- In the last cell of two rows and two columns, a character and a backspace lead to the row's first cell. -/
theorem writeBackspace_lastCell : InGrid smallTerminal ⟨1, 1⟩ ∧
    terminalBackspace smallTerminal (terminalWrite smallTerminal ⟨⟨1, 1⟩, []⟩ 65).cursor = ⟨1, 0⟩ := by
  decide

end ViOS.Graphics
