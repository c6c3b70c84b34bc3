import ViOS.Memory.HeapLayout
import Mathlib.Order.Bounds.Basic

/-! # `heap_malloc` is first-fit

One pass over the table keeps the start and the length of the run of free entries it is
in, and stops at the first run that is long enough.  The length it looks for comes from
a size that is rounded up in 64 bits, so that the largest sizes ask for no blocks at all.

* `startBlockLoop_finds` — the pass misses no run.
* `heapMalloc_firstFit` — the least run of free blocks is taken; without one, and for
  sizes that round to nothing, the heap is left as it is.
-/

namespace ViOS.Memory

/-- The `count` blocks from `start` on are in the table and free. -/
def FreeAt (heap : Heap) (count start : Nat) : Prop :=
  start + count ≤ heap.table.total ∧ ∀ j, start ≤ j → j < start + count →
    heapGetEntryType (heap.table.entries j) = heapBlockTableEntryFree

/-- No run that starts behind the current one is missed, and none before it is left out. -/
theorem startBlockLoop_finds (entries : Nat → UInt8) (count rest i bc start : Nat)
    (here : i = start + bc) (short : bc < count) {target : Nat}
    (free : ∀ j, target ≤ j → j < target + count →
      heapGetEntryType (entries j) = heapBlockTableEntryFree)
    (behind : start ≤ target) (room : target + count ≤ i + rest) :
    (startBlockLoop entries count rest i bc (if bc = 0 then -1 else start)).1 = count ∧
      (startBlockLoop entries count rest i bc (if bc = 0 then -1 else start)).2 ≤ target := by
  induction rest generalizing i bc start with
  | zero => omega
  | succ rest ih =>
    rw [startBlockLoop]
    by_cases taken : heapGetEntryType (entries i) ≠ heapBlockTableEntryFree
    · rw [if_pos taken]
      -- the target cannot contain a taken block, so it starts after this one
      have later : i + 1 ≤ target := by
        by_contra before
        exact taken (free i (by omega) (by omega))
      have found := ih (i + 1) 0 (i + 1) rfl (by omega) later (by omega)
      rwa [if_pos rfl] at found
    · rw [if_neg taken]
      have bs : (if (if bc = 0 then (-1 : Int) else start) = -1 then (i : Int)
          else if bc = 0 then -1 else start) = start := by
        by_cases empty : bc = 0
        · simp only [empty, if_true]
          omega
        · simp only [empty, if_false]
          exact if_neg (by omega)
      simp only [bs]
      by_cases full : bc + 1 = count
      · rw [if_pos full]
        exact ⟨full, by omega⟩
      · rw [if_neg full]
        have found := ih (i + 1) (bc + 1) start (by omega) (by omega) behind (by omega)
        rwa [if_neg (Nat.succ_ne_zero bc)] at found

/-- A run that is there is found, or an earlier one. -/
theorem heapGetStartBlock_finds {heap : Heap} {count start : Nat} (positive : 0 < count)
    (free : FreeAt heap count start) :
    0 ≤ heapGetStartBlock heap count ∧ heapGetStartBlock heap count ≤ start := by
  have found := startBlockLoop_finds heap.table.entries count heap.table.total 0 0 0 rfl positive free.2
    (Nat.zero_le start) (by have := free.1; omega)
  rw [if_pos rfl] at found
  have result : heapGetStartBlock heap count =
      (startBlockLoop heap.table.entries count heap.table.total 0 0 (-1)).2 := by
    unfold heapGetStartBlock
    simp only
    rw [if_neg (not_not.mpr found.1)]
  rw [result]
  refine ⟨?_, found.2⟩
  -- a search that ends with a run long enough has a start
  obtain ⟨s, startEq, -⟩ := startBlockLoop_spec heap.table.entries count heap.table.total 0 0 0 rfl
    ⟨by omega, .inl rfl⟩ positive found.1
  rw [if_pos rfl] at startEq
  omega

/-! ## Sizes -/

/-- The number of blocks of a size, rounded up. -/
def ceilBlocks (size : Nat) : Nat := (size + (viosHeapBlockSize - 1)) / viosHeapBlockSize

/-- The code rounds up as well, unless the sum wraps. -/
theorem blocksForSize_eq_ceil {size : Nat} (isSize : size < addressSpace) :
    blocksForSize size = ceilBlocks size ∨ (blocksForSize size = 0 ∧ 2 ^ 52 ≤ ceilBlocks size) := by
  unfold blocksForSize heapAlignValueToUpper ceilBlocks viosHeapBlockSize
  unfold addressSpace at *
  split
  · omega
  · omega

/-- No table is as long as the sizes that wrap. -/
theorem not_freeAt_of_long {heap : Heap} {count start : Nat} (long : 2 ^ 52 ≤ count) :
    ¬ FreeAt heap count start := by
  intro free
  have := heap.table.total_le
  have := free.1
  omega

/-! ## First fit -/

/-- What a call that succeeds does: it returns the block's address and marks the run. -/
structure Allocates (heap : Heap) (count start : Nat) (result : Nat × Heap) : Prop where
  ptr : result.1 = heap.saddr + start * viosHeapBlockSize
  taken : ∀ j, start ≤ j → j < start + count →
    heapGetEntryType (result.2.table.entries j) = heapBlockTableEntryTaken
  kept : ∀ j, ¬ (start ≤ j ∧ j < start + count) →
    result.2.table.entries j = heap.table.entries j

/-- The run that was found is the least one. -/
theorem heapGetStartBlock_isLeast {heap : Heap} {count start : Nat} (positive : 0 < count)
    (found : heapGetStartBlock heap count = start) : IsLeast {s | FreeAt heap count s} start := by
  obtain ⟨-, s, sEq, run, inside⟩ := heapGetStartBlock_spec (show 0 ≤ heapGetStartBlock heap count by omega)
  have same : s = start := by omega
  subst same
  refine ⟨⟨inside, run.free⟩, fun other free => ?_⟩
  have := (heapGetStartBlock_finds positive free).2
  omega

theorem heapMalloc_firstFit (heap : Heap) (size : Nat) (isSize : size < addressSpace)
    (saddrPos : 0 < heap.saddr)
    (fits : heap.saddr + heap.table.total * viosHeapBlockSize ≤ addressSpace) :
    ((0 < ceilBlocks size ∧ ∃ s, FreeAt heap (ceilBlocks size) s) →
      ∃ s, IsLeast {s | FreeAt heap (ceilBlocks size) s} s ∧ heap.saddr + s * viosHeapBlockSize ≠ 0 ∧
        Allocates heap (ceilBlocks size) s (heapMalloc heap size)) ∧
    (¬ (0 < ceilBlocks size ∧ ∃ s, FreeAt heap (ceilBlocks size) s) →
      heapMalloc heap size = (0, heap)) := by
  constructor
  · rintro ⟨positive, s, free⟩
    have count : blocksForSize size = ceilBlocks size := by
      rcases blocksForSize_eq_ceil isSize with same | ⟨-, long⟩
      · exact same
      · exact absurd free (not_freeAt_of_long long)
    rcases heapMalloc_cases heap size with ⟨-, failed⟩ | found
    · rw [count] at failed
      have := (heapGetStartBlock_finds positive free).1
      omega
    · obtain ⟨start, entries, effects, startEq, -, -, inside, marked, result⟩ := found
      rw [count] at startEq inside marked
      have before : start * viosHeapBlockSize < heap.table.total * viosHeapBlockSize :=
        Nat.mul_lt_mul_of_pos_right (by omega) (by decide)
      refine ⟨start, heapGetStartBlock_isLeast positive startEq, by omega, ?_⟩
      rw [result]
      constructor
      case ptr => exact Nat.mod_eq_of_lt (by omega)
      case taken =>
        intro j lower upper
        change heapGetEntryType (entries j) = _
        rw [marked j, if_pos ⟨lower, upper⟩]
        exact chainEntry_taken _ _
      case kept =>
        intro j outside
        change entries j = _
        rw [marked j, if_neg outside]
  · intro none
    rcases heapMalloc_cases heap size with ⟨failed, -⟩ | found
    · exact failed
    · obtain ⟨start, -, -, -, positive, run, inside, -, -⟩ := found
      -- a size that rounds up to 2^64 asks for no blocks
      rcases blocksForSize_eq_ceil isSize with same | ⟨zero, -⟩
      · rw [same] at positive run inside
        exact absurd ⟨positive, start, inside, run.free⟩ none
      · omega

/-- Six blocks, of which the first and the third are taken. -/
def gapHeap : Heap where
  table := ⟨fun j => if j = 0 ∨ j = 2 then 0x41 else 0, 6, by decide⟩
  saddr := 0x1000
  eaddr := 0x7000
  totalBlocks := 6
  freeBlocks := 4
  usedBlocks := 2
  blockAllocatedCallback := false
  blockFreeCallback := false
  effects := []

/-- Two blocks do not fit into the first gap. -/
theorem heapMalloc_gapHeap :
    0 < gapHeap.saddr ∧ Allocates gapHeap 2 3 (heapMalloc gapHeap 8000) := by
  have least : IsLeast {s | FreeAt gapHeap (ceilBlocks 8000) s} 3 :=
    heapGetStartBlock_isLeast (by decide) (by decide)
  obtain ⟨s, isLeast, -, allocates⟩ := (heapMalloc_firstFit gapHeap 8000 (by decide) (by decide)
    (by decide)).1 ⟨by decide, 3, least.1⟩
  obtain rfl := isLeast.unique least
  exact ⟨by decide, allocates⟩

end ViOS.Memory
