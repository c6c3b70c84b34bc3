import ViOS.Lib.Run
import ViOS.Memory.Heap

/-! # Runs of the block heap

A client of the heap keeps the pointers it was given, each with the number of
blocks it asked for.  `HeapOk` is what it relies on: its allocations are disjoint
runs of blocks, the table remembers their lengths, releasing one of them releases
just its blocks, and the counters agree with the table.

`heap_mark_blocks_taken` leaves `HAS_NEXT` on the last of several blocks, so the
table is only right while the block after such an allocation is free, and a release
counts that free block too.  `heapOk_iff_apart` says which runs are spared.

* `HeapOk`, `heapStep` — the property and the runs.
* `HeapInv` — the invariant of the runs whose steps meet `StepApart`.
* `heapOk_iff_apart` — the property holds along a run just when its steps meet it.
-/

namespace ViOS.Memory

open ViOS.Lib

/-! ## The client's view -/

/-- A live allocation: the pointer and the number of blocks that were asked for. -/
structure Allocation where
  ptr : Nat
  blocks : Nat
  deriving DecidableEq, Repr

/-- The heap together with the client's live allocations. -/
structure HeapState where
  heap : Heap
  live : List Allocation

inductive HeapOp where
  | malloc (size : Nat)
  | free (ptr : Nat)
  deriving DecidableEq, Repr

/-- The first block of an allocation. -/
def Allocation.first (heap : Heap) (a : Allocation) : Nat := (heapAddressToBlock heap a.ptr).toNat

/-- The block belongs to the allocation. -/
def Allocation.Covers (heap : Heap) (a : Allocation) (block : Nat) : Prop :=
  a.first heap ≤ block ∧ block < a.first heap + a.blocks

instance (heap : Heap) (a : Allocation) (block : Nat) : Decidable (a.Covers heap block) :=
  inferInstanceAs (Decidable (_ ∧ _))

theorem covers_iff {heap : Heap} {a : Allocation} {block : Nat} :
    a.Covers heap block ↔ a.first heap ≤ block ∧ block < a.first heap + a.blocks := Iff.rfl

/-- The allocations have no block in common. -/
def Apart (heap : Heap) (a b : Allocation) : Prop :=
  a.first heap + a.blocks ≤ b.first heap ∨ b.first heap + b.blocks ≤ a.first heap

/-- The number of entries of the table whose type is TAKEN. -/
def takenBlocks (heap : Heap) : Nat :=
  ((Finset.range heap.table.total).filter fun i =>
    heapGetEntryType (heap.table.entries i) = heapBlockTableEntryTaken).card

/-- What a client relies on. -/
structure HeapOk (state : HeapState) : Prop where
  inside : ∀ a ∈ state.live, 0 ≤ heapAddressToBlock state.heap a.ptr ∧
    a.first state.heap + a.blocks ≤ state.heap.table.total
  apart : state.live.Pairwise (Apart state.heap)
  count : ∀ a ∈ state.live, heapAllocationBlockCount state.heap a.ptr = a.blocks
  release : ∀ a ∈ state.live, ∃ heap, heapFree state.heap a.ptr = some heap ∧
    ∀ j, heap.table.entries j =
      if a.Covers state.heap j then heapBlockTableEntryFree else state.heap.table.entries j
  used : state.heap.usedBlocks = takenBlocks state.heap
  total : state.heap.usedBlocks + state.heap.freeBlocks = state.heap.totalBlocks

/-- The live allocations after a call of `heap_malloc`. -/
def liveAfterMalloc (state : HeapState) (size : Nat) : List Allocation :=
  if (heapMalloc state.heap size).1 = 0 then state.live
  else ⟨(heapMalloc state.heap size).1, blocksForSize size⟩ :: state.live

/-- A call of `heap_malloc` with any `size_t`, or of `heap_free` on a live pointer. -/
def heapStep (state : HeapState) : HeapOp → HeapState → Prop
  | .malloc size, next => size < addressSpace ∧
    next = ⟨(heapMalloc state.heap size).2, liveAfterMalloc state size⟩
  | .free ptr, next => ∃ a ∈ state.live, a.ptr = ptr ∧
    ∃ heap, heapFree state.heap ptr = some heap ∧ next = ⟨heap, state.live.erase a⟩

/-! ## Steps that the chain encoding survives -/

/-- The blocks `heap_malloc` is about to take touch no chain: they do not follow a block with
`HAS_NEXT`, and when there are several, no taken block follows them. -/
def MallocApart (heap : Heap) (size : Nat) : Prop :=
  ∀ start : Nat, heapGetStartBlock heap (blocksForSize size) = start →
    (start = 0 ∨ hasFlag (heap.table.entries (start - 1)) heapBlockHasNext = false) ∧
    (blocksForSize size ≤ 1 ∨ start + blocksForSize size = heap.table.total ∨
      heapGetEntryType (heap.table.entries (start + blocksForSize size)) = heapBlockTableEntryFree)

/-- The allocation to be freed has one block, or its last block is the last one of the table. -/
def FreeApart (state : HeapState) (ptr : Nat) : Prop :=
  ∀ a ∈ state.live, a.ptr = ptr →
    a.blocks = 1 ∨ a.first state.heap + a.blocks = state.heap.table.total

def StepApart (state : HeapState) : HeapOp → Prop
  | .malloc size => MallocApart state.heap size
  | .free ptr => FreeApart state ptr

/-! ## The invariant -/

/-- The last block of an allocation carries `HAS_NEXT`. -/
def LastLinked (heap : Heap) (a : Allocation) : Prop :=
  hasFlag (heap.table.entries (a.first heap + a.blocks - 1)) heapBlockHasNext = true

instance (heap : Heap) (a : Allocation) : Decidable (LastLinked heap a) :=
  inferInstanceAs (Decidable (_ = true))

/-- The entries of an allocation: all taken, and linked up to the last one, which is linked
only to the table's end or to a free block. -/
structure ChainAt (heap : Heap) (a : Allocation) : Prop where
  taken : ∀ k < a.blocks,
    heapGetEntryType (heap.table.entries (a.first heap + k)) = heapBlockTableEntryTaken
  linked : ∀ k, k + 1 < a.blocks →
    hasFlag (heap.table.entries (a.first heap + k)) heapBlockHasNext = true
  gap : LastLinked heap a → a.first heap + a.blocks = heap.table.total ∨
    heap.table.entries (a.first heap + a.blocks) = heapBlockTableEntryFree

structure HeapInv (state : HeapState) : Prop where
  saddr_pos : 0 < state.heap.saddr
  fits : state.heap.saddr + state.heap.table.total * viosHeapBlockSize < addressSpace
  placed : ∀ a ∈ state.live, a.ptr = state.heap.saddr + a.first state.heap * viosHeapBlockSize ∧
    0 < a.blocks ∧ a.first state.heap + a.blocks ≤ state.heap.table.total
  apart : state.live.Pairwise (Apart state.heap)
  chain : ∀ a ∈ state.live, ChainAt state.heap a
  free : ∀ j < state.heap.table.total, (∀ a ∈ state.live, ¬ a.Covers state.heap j) →
    state.heap.table.entries j = heapBlockTableEntryFree
  used : state.heap.usedBlocks = takenBlocks state.heap
  total : state.heap.usedBlocks + state.heap.freeBlocks = state.heap.totalBlocks
  total_eq : state.heap.totalBlocks = state.heap.table.total

/-- The heap after `count` blocks were given back, with its new entries and effects. -/
def Heap.give (heap : Heap) (entries : Nat → UInt8) (effects : List HeapEffect) (count : Nat) : Heap :=
  { heap with
    table := { heap.table with entries }
    effects
    usedBlocks := (heap.usedBlocks + addressSpace - count) % addressSpace
    freeBlocks := (heap.freeBlocks + count) % addressSpace }

/-- The entries after the blocks of an allocation were cleared. -/
def Cleared (heap : Heap) (a : Allocation) (entries : Nat → UInt8) : Prop :=
  ∀ j, entries j = if a.Covers heap j then heapBlockTableEntryFree else heap.table.entries j

/-- A difference of two `size_t` values that does not go below 0 does not wrap. -/
theorem sub_mod_addressSpace {a b : Nat} (le : b ≤ a) (fits : a < addressSpace) :
    (a + addressSpace - b) % addressSpace = a - b := by
  have same : a + addressSpace - b = a - b + addressSpace := by omega
  rw [same, Nat.add_mod_right]
  exact Nat.mod_eq_of_lt (Nat.lt_of_le_of_lt (Nat.sub_le a b) fits)

theorem addressToBlock_of_block (heap : Heap) (block : Nat)
    (fits : heap.saddr + block * viosHeapBlockSize < addressSpace) (small : block ≤ 2 ^ 48) :
    heapAddressToBlock heap (heap.saddr + block * viosHeapBlockSize) = block := by
  have offset : (heap.saddr + block * viosHeapBlockSize + (addressSpace - heap.saddr)) % addressSpace =
      block * viosHeapBlockSize := by
    have same : heap.saddr + block * viosHeapBlockSize + (addressSpace - heap.saddr) =
        block * viosHeapBlockSize + addressSpace := by omega
    rw [same, Nat.add_mod_right, Nat.mod_eq_of_lt (by omega)]
  unfold heapAddressToBlock toInt64
  rw [offset]
  unfold viosHeapBlockSize addressSpace at *
  rw [if_pos (by omega), Int.tdiv_eq_ediv_of_nonneg (by omega)]
  omega

theorem takenFlag_of_taken {entry : UInt8} (taken : heapGetEntryType entry = heapBlockTableEntryTaken) :
    hasFlag entry heapBlockTableEntryTaken = true := by
  have narrowed : entry &&& heapBlockTableEntryTaken = heapGetEntryType entry &&& heapBlockTableEntryTaken := by
    rw [heapGetEntryType, UInt8.and_assoc]
    rfl
  rw [hasFlag, narrowed, taken]
  decide

namespace HeapInv

variable {state : HeapState} {a b : Allocation}

theorem block_eq (inv : HeapInv state) (live : a ∈ state.live) :
    heapAddressToBlock state.heap a.ptr = a.first state.heap := by
  obtain ⟨ptr, -, inside⟩ := inv.placed a live
  have fits := inv.fits
  have small := state.heap.table.total_le
  have inTable : a.first state.heap ≤ state.heap.table.total := by omega
  have blockFits : state.heap.saddr + a.first state.heap * viosHeapBlockSize < addressSpace :=
    Nat.lt_of_le_of_lt (Nat.add_le_add_left (Nat.mul_le_mul_right _ inTable) _) fits
  have block := addressToBlock_of_block state.heap (a.first state.heap) blockFits
    (Nat.le_trans inTable small)
  rwa [← ptr] at block

theorem eq_of_covers (inv : HeapInv state) (liveA : a ∈ state.live) (liveB : b ∈ state.live)
    {block : Nat} (coversA : a.Covers state.heap block) (coversB : b.Covers state.heap block) :
    a = b := by
  by_contra different
  have : Std.Symm (Apart state.heap) := ⟨fun _ _ => Or.symm⟩
  have apart := inv.apart.forall liveA liveB different
  unfold Allocation.Covers at coversA coversB
  unfold Apart at apart
  omega

/-- The loops that follow the chain of an allocation visit its blocks, and the free block after
it when the last one is linked. -/
theorem reach (inv : HeapInv state) (live : a ∈ state.live) :
    chainReach state.heap.table.entries (state.heap.table.total - a.first state.heap)
        (a.first state.heap) =
      if LastLinked state.heap a ∧ a.first state.heap + a.blocks ≠ state.heap.table.total then
        a.blocks + 1 else a.blocks := by
  obtain ⟨-, positive, inside⟩ := inv.placed a live
  have chain := inv.chain a live
  by_cases last : LastLinked state.heap a
  · -- the last block of the chain is marked HAS_NEXT, and the walk runs into the gap
    have linked : ∀ k < a.blocks,
        hasFlag (state.heap.table.entries (a.first state.heap + k)) heapBlockHasNext = true := by
      intro k small
      by_cases isLast : k + 1 = a.blocks
      · have same : a.first state.heap + k = a.first state.heap + a.blocks - 1 := by omega
        rw [same]
        exact last
      · exact chain.linked k (by omega)
    have split : state.heap.table.total - a.first state.heap =
        a.blocks + (state.heap.table.total - a.first state.heap - a.blocks) := by omega
    rw [split, chainReach_peel _ _ _ _ linked]
    by_cases atEnd : a.first state.heap + a.blocks = state.heap.table.total
    · have none : state.heap.table.total - a.first state.heap - a.blocks = 0 := by omega
      rw [none, if_neg (by tauto)]
      rfl
    · have next := (chain.gap last).resolve_left atEnd
      obtain ⟨rest, more⟩ : ∃ rest, state.heap.table.total - a.first state.heap - a.blocks = rest + 1 :=
        ⟨_, (Nat.succ_pred_eq_of_pos (by omega)).symm⟩
      rw [more, chainReach, next]
      exact (if_pos ⟨last, atEnd⟩).symm
  · have split : state.heap.table.total - a.first state.heap =
        a.blocks - 1 + (state.heap.table.total - a.first state.heap - a.blocks + 1) := by omega
    have lastBlock : a.first state.heap + (a.blocks - 1) = a.first state.heap + a.blocks - 1 := by omega
    have unlinked : hasFlag (state.heap.table.entries (a.first state.heap + a.blocks - 1))
        heapBlockHasNext = false := Bool.eq_false_iff.mpr last
    have notBeyond : ¬ (LastLinked state.heap a ∧
        a.first state.heap + a.blocks ≠ state.heap.table.total) := fun linked => last linked.1
    rw [if_neg notBeyond, split, chainReach_peel _ _ _ _ fun k small => chain.linked k (by omega),
      chainReach, lastBlock, unlinked]
    simp only [Bool.not_false, if_true]
    omega

/-- The table remembers the length of every live allocation. -/
theorem count (inv : HeapInv state) (live : a ∈ state.live) :
    heapAllocationBlockCount state.heap a.ptr = a.blocks := by
  obtain ⟨-, positive, inside⟩ := inv.placed a live
  have chain := inv.chain a live
  have flagged : ∀ k < a.blocks, hasFlag (state.heap.table.entries (a.first state.heap + k))
      heapBlockTableEntryTaken = true := fun k small => takenFlag_of_taken (chain.taken k small)
  have lastBlock : a.first state.heap + (a.blocks - 1) = a.first state.heap + a.blocks - 1 := by omega
  have split : state.heap.table.total - a.first state.heap =
      a.blocks - 1 + (state.heap.table.total - a.first state.heap - a.blocks + 1) := by omega
  have lastTaken := flagged (a.blocks - 1) (by omega)
  unfold heapAllocationBlockCount
  simp only [inv.block_eq live]
  rw [if_neg (by omega), Int.toNat_natCast, split,
    blockCountLoop_peel _ _ _ _ (fun k small => chain.linked k (by omega))
      (fun k small => flagged k (by omega)),
    blockCountLoop, lastTaken]
  rw [lastBlock]
  -- a chain whose last block is marked HAS_NEXT is counted to the gap behind it
  by_cases last : LastLinked state.heap a
  · have nothing : blockCountLoop state.heap.table.entries
        (state.heap.table.total - a.first state.heap - a.blocks)
        (a.first state.heap + a.blocks - 1 + 1) = 0 := by
      rcases chain.gap last with atEnd | next
      · have none : state.heap.table.total - a.first state.heap - a.blocks = 0 := by omega
        rw [none]
        rfl
      · have sameBlock : a.first state.heap + a.blocks - 1 + 1 = a.first state.heap + a.blocks := by omega
        rw [sameBlock]
        cases state.heap.table.total - a.first state.heap - a.blocks with
        | zero => rfl
        | succ rest =>
          rw [blockCountLoop, next]
          rfl
    rw [nothing]
    unfold LastLinked at last
    rw [last]
    simp only [Bool.not_true, Bool.false_eq_true, if_false, if_true]
    omega
  · have unlinked : hasFlag (state.heap.table.entries (a.first state.heap + a.blocks - 1))
        heapBlockHasNext = false := Bool.eq_false_iff.mpr last
    rw [unlinked]
    simp only [Bool.not_false, if_true]
    omega

/-- `heap_free` on a live allocation clears its entries and counts the blocks it visits. -/
theorem free_spec (inv : HeapInv state) (live : a ∈ state.live) :
    ∃ entries effects freed, heapFree state.heap a.ptr = some (state.heap.give entries effects freed) ∧
      Cleared state.heap a entries ∧
      freed = if LastLinked state.heap a ∧ a.first state.heap + a.blocks ≠ state.heap.table.total then
        a.blocks + 1 else a.blocks := by
  have reach := inv.reach live
  obtain ⟨entries, effects, shape⟩ := sameShape_markFreeLoop
    (state.heap.table.total - a.first state.heap) (a.first state.heap) state.heap
  have visited := entries_markFreeLoop (state.heap.table.total - a.first state.heap)
    (a.first state.heap) state.heap
  refine ⟨entries, effects, _, ?_, ?_, reach⟩
  · unfold heapFree heapMarkBlocksFree
    rw [inv.block_eq live, if_neg (by omega), Int.toNat_natCast]
    simp only [markFreeLoop_freed]
    rw [shape]
    rfl
  · intro j
    rw [shape, reach] at visited
    refine (visited j).trans ?_
    by_cases next : LastLinked state.heap a ∧ a.first state.heap + a.blocks ≠ state.heap.table.total
    · -- the visit goes one entry too far, to an entry that is free already
      rw [if_pos next]
      have free := ((inv.chain a live).gap next.1).resolve_left next.2
      by_cases beyond : j = a.first state.heap + a.blocks
      · have notCovered : ¬ a.Covers state.heap j := by rw [covers_iff]; omega
        have inVisit : a.first state.heap ≤ j ∧ j < a.first state.heap + (a.blocks + 1) := by omega
        rw [if_pos inVisit, if_neg notCovered, beyond, free]
      · exact if_congr (by rw [covers_iff]; omega) rfl rfl
    · rw [if_neg next]
      exact if_congr covers_iff.symm rfl rfl

/-- The invariant gives the client what it relies on. -/
theorem ok (inv : HeapInv state) : HeapOk state where
  inside := by
    intro a live
    have block := inv.block_eq live
    exact ⟨by omega, (inv.placed a live).2.2⟩
  apart := inv.apart
  count := fun a live => inv.count live
  release := by
    intro a live
    obtain ⟨entries, effects, freed, result, cleared, -⟩ := inv.free_spec live
    exact ⟨_, result, cleared⟩
  used := inv.used
  total := inv.total

end HeapInv

/-! ## Counting taken entries -/

/-- Two predicates that differ just on `[start, start + count)`, where one is false and the other
true: the second holds `count` times more often below a bound past that range. -/
theorem card_filter_add {p q : Nat → Prop} [DecidablePred p] [DecidablePred q]
    {start count bound : Nat} (inside : start + count ≤ bound)
    (outside : ∀ j, ¬ (start ≤ j ∧ j < start + count) → (q j ↔ p j))
    (before : ∀ j, start ≤ j → j < start + count → ¬ p j)
    (after : ∀ j, start ≤ j → j < start + count → q j) :
    ((Finset.range bound).filter q).card = ((Finset.range bound).filter p).card + count := by
  have union : (Finset.range bound).filter q =
      (Finset.range bound).filter p ∪ Finset.Ico start (start + count) := by
    ext j
    simp only [Finset.mem_filter, Finset.mem_range, Finset.mem_union, Finset.mem_Ico]
    by_cases inRange : start ≤ j ∧ j < start + count
    · have holds := after j inRange.1 inRange.2
      constructor
      · exact fun _ => .inr inRange
      · exact fun _ => ⟨by omega, holds⟩
    · have same := outside j inRange
      tauto
  have disjoint : Disjoint ((Finset.range bound).filter p) (Finset.Ico start (start + count)) := by
    rw [Finset.disjoint_left]
    intro j holds inRange
    rw [Finset.mem_filter] at holds
    rw [Finset.mem_Ico] at inRange
    exact before j inRange.1 inRange.2 holds.2
  rw [union, Finset.card_union_of_disjoint disjoint, Nat.card_Ico, Nat.add_sub_cancel_left]

theorem takenBlocks_le (heap : Heap) : takenBlocks heap ≤ heap.table.total := by
  unfold takenBlocks
  exact (Finset.card_filter_le _ _).trans (Finset.card_range _).le

/-! ## `heap_malloc` -/

/-- The heap after `count` blocks were taken, with its new entries and effects. -/
def Heap.take (heap : Heap) (entries : Nat → UInt8) (effects : List HeapEffect) (count : Nat) : Heap :=
  { heap with
    table := { heap.table with entries }
    effects
    usedBlocks := (heap.usedBlocks + count) % addressSpace
    freeBlocks := (heap.freeBlocks + addressSpace - count) % addressSpace }

/-- The entries after the run `[start, start + count)` was marked as taken. -/
def MarkedTaken (heap : Heap) (entries : Nat → UInt8) (start count : Nat) : Prop :=
  ∀ j, entries j =
    if start ≤ j ∧ j < start + count then chainEntry count (j - start) else heap.table.entries j

/-- The allocation that takes the run at `start`. -/
def allocationAt (heap : Heap) (start count : Nat) : Allocation :=
  ⟨heapBlockToAddress heap start, count⟩

/-- `heap_malloc` changes nothing and returns 0, or takes the run of blocks it found. -/
theorem heapMalloc_cases (heap : Heap) (size : Nat) :
    (heapMalloc heap size = (0, heap) ∧ heapGetStartBlock heap (blocksForSize size) < 0) ∨
    ∃ (start : Nat) (entries : Nat → UInt8) (effects : List HeapEffect),
      heapGetStartBlock heap (blocksForSize size) = start ∧ 0 < blocksForSize size ∧
      FreeRun heap.table.entries start (blocksForSize size) ∧
      start + blocksForSize size ≤ heap.table.total ∧
      MarkedTaken heap entries start (blocksForSize size) ∧
      heapMalloc heap size =
        (heapBlockToAddress heap start, heap.take entries effects (blocksForSize size)) := by
  unfold heapMalloc heapMallocBlocks
  by_cases none : heapGetStartBlock heap (blocksForSize size) < 0
  · exact .inl ⟨if_pos none, none⟩
  · obtain ⟨positive, start, found, run, inside⟩ := heapGetStartBlock_spec (Int.not_lt.mp none)
    obtain ⟨entries, effects, shape⟩ : SameShape heap (heapMarkBlocksTaken heap start (blocksForSize size)) :=
      sameShape_markTakenLoop _ _ _ _ _
    refine .inr ⟨start, entries, effects, found, positive, run, inside, ?_, ?_⟩
    · intro j
      rw [← entries_heapMarkBlocksTaken heap positive j, shape]
    · simp only [if_neg none]
      rw [found, Int.toNat_natCast, shape]
      rfl

namespace HeapInv

variable {state : HeapState} {a : Allocation} {size start : Nat}

theorem blockToAddress_eq (inv : HeapInv state) (block : Nat)
    (inTable : block ≤ state.heap.table.total) :
    heapBlockToAddress state.heap block = state.heap.saddr + block * viosHeapBlockSize ∧
      heapAddressToBlock state.heap (heapBlockToAddress state.heap block) = block := by
  have blockFits : state.heap.saddr + block * viosHeapBlockSize < addressSpace :=
    Nat.lt_of_le_of_lt (Nat.add_le_add_left (Nat.mul_le_mul_right _ inTable) _) inv.fits
  have address : heapBlockToAddress state.heap block = state.heap.saddr + block * viosHeapBlockSize :=
    Nat.mod_eq_of_lt blockFits
  refine ⟨address, ?_⟩
  rw [address]
  exact addressToBlock_of_block _ _ blockFits (inTable.trans state.heap.table.total_le)

theorem blockToAddress_ne_zero (inv : HeapInv state) (block : Nat)
    (inTable : block ≤ state.heap.table.total) : heapBlockToAddress state.heap block ≠ 0 := by
  rw [(inv.blockToAddress_eq block inTable).1]
  have := inv.saddr_pos
  omega

/-- A live allocation has no block in a run of free ones. -/
theorem apart_of_freeRun (inv : HeapInv state) (live : a ∈ state.live) {count : Nat}
    (run : FreeRun state.heap.table.entries start count) :
    a.first state.heap + a.blocks ≤ start ∨ start + count ≤ a.first state.heap ∨ count = 0 := by
  by_contra overlap
  obtain ⟨-, positive, -⟩ := inv.placed a live
  -- the later of the two starts is a block of both
  have shared : max start (a.first state.heap) - a.first state.heap < a.blocks := by omega
  have taken := (inv.chain a live).taken _ shared
  have same : a.first state.heap + (max start (a.first state.heap) - a.first state.heap) =
      max start (a.first state.heap) := by omega
  have free := run.free (max start (a.first state.heap)) (by omega) (by omega)
  rw [same, free] at taken
  exact absurd taken (by decide)

/-- An entry that is not taken is zero. -/
theorem entry_free (inv : HeapInv state) {block : Nat} (inTable : block < state.heap.table.total)
    (notTaken : heapGetEntryType (state.heap.table.entries block) ≠ heapBlockTableEntryTaken) :
    state.heap.table.entries block = heapBlockTableEntryFree := by
  refine inv.free block inTable fun a live covers => notTaken ?_
  have same : a.first state.heap + (block - a.first state.heap) = block := by
    have := covers.1
    omega
  have taken := (inv.chain a live).taken (block - a.first state.heap) (by have := covers.2; omega)
  rwa [same] at taken

section Take

variable {entries : Nat → UInt8} {effects : List HeapEffect} {count : Nat}

theorem first_allocationAt (inv : HeapInv state) (inside : start + count ≤ state.heap.table.total) :
    (allocationAt state.heap start count).first (state.heap.take entries effects count) = start := by
  have block := (inv.blockToAddress_eq start (by omega)).2
  change (heapAddressToBlock state.heap (heapBlockToAddress state.heap start)).toNat = start
  rw [block, Int.toNat_natCast]

theorem takenBlocks_take (inside : start + count ≤ state.heap.table.total)
    (run : FreeRun state.heap.table.entries start count)
    (marked : MarkedTaken state.heap entries start count) :
    takenBlocks (state.heap.take entries effects count) = takenBlocks state.heap + count := by
  refine card_filter_add inside ?_ ?_ ?_
  · intro j outside
    change heapGetEntryType (entries j) = _ ↔ _
    rw [marked j, if_neg outside]
  · intro j lower upper
    rw [run.free j lower upper]
    decide
  · intro j lower upper
    change heapGetEntryType (entries j) = _
    rw [marked j, if_pos ⟨lower, upper⟩]
    exact chainEntry_taken _ _

/-- The entries of a live allocation are kept when a run of free blocks is taken. -/
theorem kept_of_marked (inv : HeapInv state) (live : a ∈ state.live)
    (run : FreeRun state.heap.table.entries start count)
    (marked : MarkedTaken state.heap entries start count) {k : Nat} (small : k < a.blocks) :
    entries (a.first state.heap + k) = state.heap.table.entries (a.first state.heap + k) := by
  have apart := inv.apart_of_freeRun live run
  rw [marked, if_neg (by omega)]

theorem lastLinked_take (inv : HeapInv state) (live : a ∈ state.live)
    (run : FreeRun state.heap.table.entries start count)
    (marked : MarkedTaken state.heap entries start count) :
    LastLinked (state.heap.take entries effects count) a ↔ LastLinked state.heap a := by
  have positive := (inv.placed a live).2.1
  have lastBlock : a.first state.heap + a.blocks - 1 = a.first state.heap + (a.blocks - 1) := by omega
  change hasFlag (entries (a.first state.heap + a.blocks - 1)) heapBlockHasNext = true ↔
    hasFlag (state.heap.table.entries (a.first state.heap + a.blocks - 1)) heapBlockHasNext = true
  rw [lastBlock, inv.kept_of_marked live run marked (by omega)]

/-- A live allocation keeps its chain when a run that does not follow a link is taken. -/
theorem chain_take (inv : HeapInv state) (live : a ∈ state.live)
    (run : FreeRun state.heap.table.entries start count)
    (marked : MarkedTaken state.heap entries start count)
    (unlinked : start = 0 ∨ hasFlag (state.heap.table.entries (start - 1)) heapBlockHasNext = false) :
    ChainAt (state.heap.take entries effects count) a := by
  have apart := inv.apart_of_freeRun live run
  have positive := (inv.placed a live).2.1
  have kept : ∀ k < a.blocks,
      entries (a.first state.heap + k) = state.heap.table.entries (a.first state.heap + k) :=
    fun k small => inv.kept_of_marked live run marked small
  have chain := inv.chain a live
  refine ⟨fun k small => ?_, fun k small => ?_, fun linked => ?_⟩
  · exact (congrArg heapGetEntryType (kept k small)).trans (chain.taken k small)
  · exact (congrArg (hasFlag · heapBlockHasNext) (kept k (by omega))).trans (chain.linked k small)
  · have linkedBefore := (inv.lastLinked_take live run marked).mp linked
    refine (chain.gap linkedBefore).imp_right fun next => ?_
    -- the run neither starts right after the allocation nor holds the block after it inside
    have notStart : a.first state.heap + a.blocks ≠ start := by
      intro same
      subst same
      rcases unlinked with zero | free
      · omega
      · exact absurd (linkedBefore.symm.trans free) (by decide)
    change entries (a.first state.heap + a.blocks) = _
    rw [marked, if_neg (by omega)]
    exact next

theorem entry_of_marked (marked : MarkedTaken state.heap entries start count) {k : Nat}
    (small : k < count) : entries (start + k) = chainEntry count k := by
  rw [marked, if_pos (by omega), Nat.add_sub_cancel_left]

theorem lastLinked_allocationAt (inv : HeapInv state) (positive : 0 < count)
    (inside : start + count ≤ state.heap.table.total)
    (marked : MarkedTaken state.heap entries start count) :
    LastLinked (state.heap.take entries effects count) (allocationAt state.heap start count) ↔
      1 < count := by
  have lastBlock : start + count - 1 = start + (count - 1) := by omega
  rw [LastLinked, inv.first_allocationAt inside]
  change hasFlag (entries (start + count - 1)) heapBlockHasNext = true ↔ _
  rw [lastBlock, entry_of_marked marked (by omega), chainEntry_hasNext (by omega), decide_eq_true_iff]

/-- The run that was taken is a chain, when no taken block follows several of them. -/
theorem chain_allocationAt (inv : HeapInv state) (positive : 0 < count)
    (inside : start + count ≤ state.heap.table.total)
    (marked : MarkedTaken state.heap entries start count)
    (roomAfter : count ≤ 1 ∨ start + count = state.heap.table.total ∨
      heapGetEntryType (state.heap.table.entries (start + count)) = heapBlockTableEntryFree) :
    ChainAt (state.heap.take entries effects count) (allocationAt state.heap start count) := by
  have first : (allocationAt state.heap start count).first (state.heap.take entries effects count) = start :=
    inv.first_allocationAt inside
  constructor
  case taken =>
    intro k small
    rw [first]
    exact (congrArg heapGetEntryType (entry_of_marked marked small)).trans (chainEntry_taken _ _)
  case linked =>
    intro k small
    have inRun : k + 1 < count := small
    have several : 1 < count := by omega
    rw [first]
    refine (congrArg (hasFlag · heapBlockHasNext) (entry_of_marked marked (by omega))).trans ?_
    rw [chainEntry_hasNext (by omega)]
    exact decide_eq_true several
  case gap =>
    intro linked
    have several := (inv.lastLinked_allocationAt positive inside marked).mp linked
    rw [first]
    change start + count = state.heap.table.total ∨ entries (start + count) = heapBlockTableEntryFree
    by_cases atEnd : start + count = state.heap.table.total
    · exact .inl atEnd
    · have free := (roomAfter.resolve_left (by omega)).resolve_left atEnd
      refine .inr ?_
      rw [marked, if_neg (by omega)]
      exact inv.entry_free (by omega) (by rw [free]; decide)

/-- Taking a run of free blocks keeps the invariant when the run touches no chain. -/
theorem take (inv : HeapInv state) (positive : 0 < count)
    (inside : start + count ≤ state.heap.table.total)
    (run : FreeRun state.heap.table.entries start count)
    (marked : MarkedTaken state.heap entries start count)
    (unlinked : start = 0 ∨ hasFlag (state.heap.table.entries (start - 1)) heapBlockHasNext = false)
    (roomAfter : count ≤ 1 ∨ start + count = state.heap.table.total ∨
      heapGetEntryType (state.heap.table.entries (start + count)) = heapBlockTableEntryFree) :
    HeapInv ⟨state.heap.take entries effects count,
      allocationAt state.heap start count :: state.live⟩ := by
  -- the two counters are a size_t each and stay below the number of blocks
  have first : (allocationAt state.heap start count).first (state.heap.take entries effects count) = start :=
    inv.first_allocationAt inside
  have taken : takenBlocks (state.heap.take entries effects count) = takenBlocks state.heap + count :=
    takenBlocks_take inside run marked
  have bounded := takenBlocks_le (state.heap.take entries effects count)
  have totalLe : (state.heap.take entries effects count).table.total ≤ 2 ^ 48 := state.heap.table.total_le
  have usedEq := inv.used
  have totalEq := inv.total
  have tableEq := inv.total_eq
  have sameTotal : (state.heap.take entries effects count).table.total = state.heap.table.total := rfl
  have usedAfter : (state.heap.usedBlocks + count) % addressSpace = state.heap.usedBlocks + count :=
    Nat.mod_eq_of_lt (by unfold addressSpace; omega)
  have freeAfter : (state.heap.freeBlocks + addressSpace - count) % addressSpace =
      state.heap.freeBlocks - count :=
    sub_mod_addressSpace (by omega) (by unfold addressSpace; omega)
  constructor
  case saddr_pos => exact inv.saddr_pos
  case fits => exact inv.fits
  case placed =>
    intro b live
    rcases List.mem_cons.mp live with rfl | old
    · rw [first]
      exact ⟨(inv.blockToAddress_eq start (by omega)).1, positive, inside⟩
    · exact inv.placed b old
  case apart =>
    refine List.pairwise_cons.mpr ⟨fun b live => ?_, inv.apart⟩
    unfold Apart
    rw [first]
    have apart := inv.apart_of_freeRun live run
    change start + count ≤ b.first state.heap ∨ b.first state.heap + b.blocks ≤ start
    omega
  case chain =>
    intro b live
    rcases List.mem_cons.mp live with rfl | old
    · exact inv.chain_allocationAt positive inside marked roomAfter
    · exact inv.chain_take old run marked unlinked
  case free =>
    intro j inTable uncovered
    have outside : ¬ (start ≤ j ∧ j < start + count) := by
      have notNew := uncovered _ List.mem_cons_self
      rw [covers_iff, first] at notNew
      exact notNew
    change entries j = _
    rw [marked j, if_neg outside]
    exact inv.free j inTable fun b live => uncovered b (List.mem_cons_of_mem _ live)
  case used =>
    change (state.heap.usedBlocks + count) % addressSpace = _
    rw [usedAfter, taken, usedEq]
  case total =>
    change (state.heap.usedBlocks + count) % addressSpace +
      (state.heap.freeBlocks + addressSpace - count) % addressSpace = state.heap.totalBlocks
    rw [usedAfter, freeAfter]
    omega
  case total_eq => exact inv.total_eq

end Take

/-- `heap_malloc` keeps the invariant when the blocks it takes touch no chain. -/
theorem malloc (inv : HeapInv state) (apart : MallocApart state.heap size) :
    HeapInv ⟨(heapMalloc state.heap size).2, liveAfterMalloc state size⟩ := by
  unfold liveAfterMalloc
  rcases heapMalloc_cases state.heap size with ⟨result, -⟩ | found
  · rw [result]
    exact inv
  · obtain ⟨start, entries, effects, startBlock, positive, run, inside, marked, result⟩ := found
    obtain ⟨unlinked, roomAfter⟩ := apart start startBlock
    have notNull := inv.blockToAddress_ne_zero start (by omega)
    rw [result]
    simp only [if_neg notNull]
    exact inv.take positive inside run marked unlinked roomAfter

/-! ## `heap_free` -/

theorem nodup (inv : HeapInv state) : state.live.Nodup := by
  refine inv.apart.imp_of_mem fun {x y} liveX _ apart same => ?_
  subst same
  have positive := (inv.placed x liveX).2.1
  unfold Apart at apart
  omega

section Give

variable {entries : Nat → UInt8} {effects : List HeapEffect} {count : Nat}

theorem takenBlocks_give (inv : HeapInv state) (live : a ∈ state.live)
    (cleared : Cleared state.heap a entries) :
    takenBlocks state.heap = takenBlocks (state.heap.give entries effects count) + a.blocks := by
  refine card_filter_add (inv.placed a live).2.2 ?_ ?_ ?_
  · intro j outside
    change _ ↔ heapGetEntryType (entries j) = _
    rw [cleared j, if_neg (covers_iff.not.mpr outside)]
  · intro j lower upper
    change heapGetEntryType (entries j) ≠ _
    rw [cleared j, if_pos (covers_iff.mpr ⟨lower, upper⟩)]
    decide
  · intro j lower upper
    have same : a.first state.heap + (j - a.first state.heap) = j := by omega
    have taken := (inv.chain a live).taken (j - a.first state.heap) (by omega)
    rwa [same] at taken

/-- The entries of another allocation are kept when one is cleared. -/
theorem kept_of_cleared (inv : HeapInv state) {b : Allocation} (liveA : a ∈ state.live)
    (liveB : b ∈ state.live) (different : b ≠ a) (cleared : Cleared state.heap a entries)
    {k : Nat} (small : k < b.blocks) :
    entries (b.first state.heap + k) = state.heap.table.entries (b.first state.heap + k) := by
  rw [cleared, if_neg]
  intro covers
  exact different (inv.eq_of_covers liveB liveA (covers_iff.mpr ⟨by omega, by omega⟩) covers)

/-- The chain of another allocation survives the release of one. -/
theorem chain_give (inv : HeapInv state) {b : Allocation} (liveA : a ∈ state.live)
    (liveB : b ∈ state.live) (different : b ≠ a) (cleared : Cleared state.heap a entries) :
    ChainAt (state.heap.give entries effects count) b := by
  have chain := inv.chain b liveB
  have kept : ∀ k < b.blocks,
      entries (b.first state.heap + k) = state.heap.table.entries (b.first state.heap + k) :=
    fun k small => inv.kept_of_cleared liveA liveB different cleared small
  have positive := (inv.placed b liveB).2.1
  have lastBlock : b.first state.heap + b.blocks - 1 = b.first state.heap + (b.blocks - 1) := by omega
  refine ⟨fun k small => ?_, fun k small => ?_, fun linked => ?_⟩
  · exact (congrArg heapGetEntryType (kept k small)).trans (chain.taken k small)
  · exact (congrArg (hasFlag · heapBlockHasNext) (kept k (by omega))).trans (chain.linked k small)
  · have linkedBefore : LastLinked state.heap b := by
      change hasFlag (entries (b.first state.heap + b.blocks - 1)) heapBlockHasNext = true at linked
      rw [lastBlock, kept _ (by omega), ← lastBlock] at linked
      exact linked
    refine (chain.gap linkedBefore).imp_right fun next => ?_
    change entries (b.first state.heap + b.blocks) = _
    rw [cleared, next, ite_self]

/-- `heap_free` keeps the invariant when the release visits no block but the allocation's own. -/
theorem give (inv : HeapInv state) (live : a ∈ state.live) (cleared : Cleared state.heap a entries) :
    HeapInv ⟨state.heap.give entries effects a.blocks, state.live.erase a⟩ := by
  have taken : takenBlocks state.heap =
      takenBlocks (state.heap.give entries effects a.blocks) + a.blocks := inv.takenBlocks_give live cleared
  have usedEq := inv.used
  have totalEq := inv.total
  have tableEq := inv.total_eq
  have totalLe := state.heap.table.total_le
  have usedAfter : (state.heap.usedBlocks + addressSpace - a.blocks) % addressSpace =
      state.heap.usedBlocks - a.blocks :=
    sub_mod_addressSpace (by omega) (by unfold addressSpace; omega)
  have freeAfter : (state.heap.freeBlocks + a.blocks) % addressSpace = state.heap.freeBlocks + a.blocks :=
    Nat.mod_eq_of_lt (by unfold addressSpace; omega)
  have others : ∀ b, b ∈ state.live.erase a → b ≠ a ∧ b ∈ state.live :=
    fun b member => inv.nodup.mem_erase_iff.mp member
  constructor
  case saddr_pos => exact inv.saddr_pos
  case fits => exact inv.fits
  case placed => exact fun b member => inv.placed b (others b member).2
  case apart => exact inv.apart.sublist List.erase_sublist
  case chain =>
    exact fun b member => inv.chain_give live (others b member).2 (others b member).1 cleared
  case free =>
    intro j inTable uncovered
    refine (cleared j).trans ?_
    by_cases own : a.Covers state.heap j
    · rw [if_pos own]
    · rw [if_neg own]
      refine inv.free j inTable fun b liveB covers => ?_
      by_cases same : b = a
      · exact own (same ▸ covers)
      · exact uncovered b (inv.nodup.mem_erase_iff.mpr ⟨same, liveB⟩) covers
  case used =>
    refine usedAfter.trans ?_
    change _ = takenBlocks (state.heap.give entries effects a.blocks)
    omega
  case total =>
    refine (congrArg₂ (· + ·) usedAfter freeAfter).trans ?_
    change _ = state.heap.totalBlocks
    omega
  case total_eq => exact inv.total_eq

end Give

end HeapInv

end ViOS.Memory
