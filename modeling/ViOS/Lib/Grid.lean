import Mathlib.Data.List.Nodup
import Mathlib.Data.List.ProdSigma
import Mathlib.Logic.Function.Basic
import Mathlib.Tactic.Ring

/-! # Grids

Cells in rows, one row behind the other in a linear memory, and loops over cells.

* `gridIndex` — where a cell is stored.
* `revise` — one round of a loop that revises the value at one place.
* `foldl_revise_at`, `foldl_revise_other` — what such a loop leaves when no two rounds share
  a place.
-/

namespace ViOS.Lib

/-! ## Cells -/

/-- The index of the cell in column `x` and row `y`. -/
def gridIndex (width x y : Nat) : Nat := y * width + x

section Cells

variable {width height x y x' y' : Nat}

theorem gridIndex_lt (inWidth : x < width) (inHeight : y < height) :
    gridIndex width x y < width * height := by
  calc y * width + x < y * width + width := Nat.add_lt_add_left inWidth _
    _ = (y + 1) * width := by ring
    _ ≤ height * width := Nat.mul_le_mul_right _ inHeight
    _ = width * height := Nat.mul_comm _ _

theorem gridIndex_div (inWidth : x < width) : gridIndex width x y / width = y := by
  have positive : 0 < width := Nat.zero_lt_of_lt inWidth
  rw [gridIndex, Nat.mul_comm, Nat.mul_add_div positive, Nat.div_eq_of_lt inWidth, Nat.add_zero]

theorem gridIndex_mod (inWidth : x < width) : gridIndex width x y % width = x := by
  rw [gridIndex, Nat.mul_comm, Nat.mul_add_mod, Nat.mod_eq_of_lt inWidth]

/-- Different cells are stored at different places. -/
theorem gridIndex_inj (inWidth : x < width) (inWidth' : x' < width)
    (same : gridIndex width x y = gridIndex width x' y') : x = x' ∧ y = y' := by
  constructor
  · rw [← gridIndex_mod inWidth (y := y), same, gridIndex_mod inWidth']
  · rw [← gridIndex_div inWidth (y := y), same, gridIndex_div inWidth']

end Cells

/-! ## Loops -/

section Loops

variable {Key Place Value : Type} [DecidableEq Place] (place : Key → Place) (value : Key → Value → Value)

/-- One round: the value at the round's place is replaced, depending on what is there. -/
def revise (memory : Place → Value) (key : Key) : Place → Value :=
  Function.update memory (place key) (value key (memory (place key)))

variable {place value}

theorem foldl_revise_other {keys : List Key} {p : Place} (apart : ∀ key ∈ keys, place key ≠ p)
    (memory : Place → Value) : keys.foldl (revise place value) memory p = memory p := by
  induction keys generalizing memory with
  | nil => rfl
  | cons key rest ih =>
    rw [List.foldl_cons, ih fun other inRest => apart other (List.mem_cons_of_mem _ inRest), revise,
      Function.update_of_ne (apart key List.mem_cons_self).symm]

/-- A round whose place is its own finds there what was there before the loop. -/
theorem foldl_revise_at {keys : List Key} (nodup : keys.Nodup) {key : Key} (member : key ∈ keys) {p : Place}
    (here : place key = p) (own : ∀ other ∈ keys, place other = p → other = key) (memory : Place → Value) :
    keys.foldl (revise place value) memory p = value key (memory p) := by
  induction keys generalizing memory with
  | nil => cases member
  | cons first rest ih =>
    obtain ⟨notInRest, nodupRest⟩ := List.nodup_cons.mp nodup
    rw [List.foldl_cons]
    cases List.mem_cons.mp member with
    | inl isFirst =>
      subst isFirst
      rw [foldl_revise_other, revise, here, Function.update_self]
      intro other inRest same
      rw [own other (List.mem_cons_of_mem _ inRest) same] at inRest
      exact notInRest inRest
    | inr inRest =>
      have apart : p ≠ place first := by
        intro same
        rw [own first List.mem_cons_self same.symm] at notInRest
        exact notInRest inRest
      rw [ih nodupRest inRest fun other later => own other (List.mem_cons_of_mem _ later), revise,
        Function.update_of_ne apart]

end Loops

end ViOS.Lib
