import Mathlib.Data.List.GetD
import Mathlib.Data.Nat.ModEq

/-! # Ring buffers that mark free cells with a blank

A ring has no count of its elements: a cell is free when it holds the blank.
`RingHolds` says that the cells from the head on hold a queue and that all the
others are blank; the head is any number, taken modulo the length of the ring.

* `RingHolds.read`, `RingHolds.drained` — the cell at the head.
* `RingHolds.push`, `RingHolds.pop`, `RingHolds.unpush` — the three writes.
-/

namespace ViOS.Lib

variable {α : Type*} {blank x : α} {cells queue : List α} {head : Nat}

/-- The cells from `head` on hold the queue, and blanks behind it. -/
structure RingHolds (blank : α) (cells : List α) (head : Nat) (queue : List α) : Prop where
  fits : queue.length ≤ cells.length
  solid : blank ∉ queue
  cell : ∀ i < cells.length, cells.getD ((head + i) % cells.length) blank = queue.getD i blank

/-- Two positions of a ring that are less than a turn apart are different cells. -/
theorem ring_index_inj {n i j : Nat} (hi : i < n) (hj : j < n) :
    (head + i) % n = (head + j) % n ↔ i = j := by
  constructor
  · intro same
    have : i ≡ j [MOD n] := Nat.ModEq.add_left_cancel' head same
    rwa [Nat.ModEq, Nat.mod_eq_of_lt hi, Nat.mod_eq_of_lt hj] at this
  · intro same
    rw [same]

/-- What a ring reads after a write less than a turn from the head. -/
theorem ring_getD_set {k i : Nat} (hk : k < cells.length) (hi : i < cells.length) (x : α) :
    (cells.set ((head + k) % cells.length) x).getD ((head + i) % cells.length) blank =
      if k = i then x else cells.getD ((head + i) % cells.length) blank := by
  have inside : (head + i) % cells.length < cells.length := Nat.mod_lt _ (by omega)
  simp only [List.getD_eq_getElem?_getD, List.getElem?_set, ring_index_inj hk hi]
  by_cases here : k = i
  · subst here
    simp [inside]
  · simp [here]

namespace RingHolds

theorem congr (holds : RingHolds blank cells head queue) {other : Nat}
    (same : other % cells.length = head % cells.length) : RingHolds blank cells other queue := by
  refine ⟨holds.fits, holds.solid, fun i below => ?_⟩
  rw [Nat.add_mod, same, ← Nat.add_mod]
  exact holds.cell i below

theorem of_blank (all : ∀ c ∈ cells, c = blank) : RingHolds blank cells head [] := by
  refine ⟨by simp, by simp, fun i below => ?_⟩
  have inside : (head + i) % cells.length < cells.length := Nat.mod_lt _ (by omega)
  rw [List.getD_eq_getElem _ _ inside]
  simpa using all _ (List.getElem_mem inside)

/-- The cell at the head is the first element of the queue, or blank. -/
theorem read (holds : RingHolds blank cells head queue) (some_cell : 0 < cells.length) :
    cells.getD (head % cells.length) blank = queue.getD 0 blank := by
  simpa using holds.cell 0 some_cell

/-- The queue is empty exactly when the cell at the head is blank. -/
theorem drained (holds : RingHolds blank cells head queue) :
    queue.getD 0 blank = blank ↔ queue = [] := by
  cases queue with
  | nil => simp
  | cons first rest =>
    simp only [List.getD_cons_zero, reduceCtorEq, iff_false]
    rintro rfl
    exact holds.solid List.mem_cons_self

/-- A write in the cell behind the queue appends to it. -/
theorem push (holds : RingHolds blank cells head queue) (room : queue.length < cells.length)
    (solid : x ≠ blank) :
    RingHolds blank (cells.set ((head + queue.length) % cells.length) x) head (queue ++ [x]) := by
  refine ⟨by simp only [List.length_append, List.length_set, List.length_singleton]; omega, ?_,
    fun i below => ?_⟩
  · simp [holds.solid, Ne.symm solid]
  · rw [List.length_set] at below ⊢
    rw [ring_getD_set room below]
    by_cases here : queue.length = i
    · simp [here]
    · rw [if_neg here, holds.cell i below]
      -- Positions other than the new one read the same in both queues.
      simp only [List.getD_eq_getElem?_getD, List.getElem?_append]
      split
      · rfl
      · rw [List.getElem?_eq_none (by omega), List.getElem?_eq_none (by simp; omega)]

/-- Blanking the cell at the head takes the first element. -/
theorem pop (holds : RingHolds blank cells head (x :: queue)) :
    RingHolds blank (cells.set (head % cells.length) blank) (head + 1) queue := by
  have some_cell : 0 < cells.length := lt_of_lt_of_le (by simp) holds.fits
  have fits : queue.length < cells.length := by
    have := holds.fits
    simp only [List.length_cons] at this
    omega
  refine ⟨by simpa using fits.le, fun member => holds.solid (List.mem_cons_of_mem _ member),
    fun i below => ?_⟩
  rw [List.length_set] at below ⊢
  rw [Nat.add_assoc, Nat.add_comm 1 i]
  by_cases last : i + 1 < cells.length
  · have kept := @ring_getD_set _ blank cells head 0 (i + 1) some_cell last blank
    rw [Nat.add_zero] at kept
    rw [kept, if_neg (by omega), holds.cell (i + 1) last, List.getD_cons_succ]
  -- The last position is the cell just blanked, one turn further.
  · have turn : i + 1 = cells.length := by omega
    have blanked := @ring_getD_set _ blank cells head 0 0 some_cell some_cell blank
    rw [Nat.add_zero, if_pos rfl] at blanked
    rw [turn, Nat.add_mod_right, blanked, List.getD_eq_default _ _ (by omega)]

/-- Blanking the cell of the last element takes it back. -/
theorem unpush (holds : RingHolds blank cells head (queue ++ [x])) :
    RingHolds blank (cells.set ((head + queue.length) % cells.length) blank) head queue := by
  have fits : queue.length < cells.length := by
    have := holds.fits
    simp only [List.length_append, List.length_singleton] at this
    omega
  refine ⟨by simpa using fits.le, fun member => holds.solid (List.mem_append_left _ member),
    fun i below => ?_⟩
  rw [List.length_set] at below ⊢
  rw [ring_getD_set fits below]
  by_cases here : queue.length = i
  · rw [if_pos here, List.getD_eq_default _ _ (by omega)]
  · rw [if_neg here, holds.cell i below]
    simp only [List.getD_eq_getElem?_getD, List.getElem?_append]
    split
    · rfl
    · rw [List.getElem?_eq_none (by simp; omega), List.getElem?_eq_none (by omega)]

end RingHolds

end ViOS.Lib
