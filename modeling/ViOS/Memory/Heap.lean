import ViOS.Config
import Mathlib.Data.Finset.Card
import Mathlib.Order.Interval.Finset.Nat
import Mathlib.Logic.Function.Basic
import Mathlib.Tactic.Basic

/-! # The block heap

`heap.c` hands out runs of 4096-byte blocks.  Nothing but one byte per block in a
table records where an allocation starts and how far it reaches: the first block
carries `IS_FIRST`, and `HAS_NEXT` means that the following block belongs to the
same allocation.

The table's bytes are a function on block indices; the bytes past its end are the
memory that follows it.  What the heap does outside its table (a call of a callback,
a `memset`, a `memcpy`) is recorded in order, as its effects.

* `heapCreate`, `heapMalloc`, `heapFree`, `heapAllocationBlockCount`, `heapRealloc`
  and the functions they call — the code.
* `heapGetStartBlock_spec`, `entries_heapMarkBlocksTaken`, `entries_markFreeLoop`,
  `blockCountLoop_peel` — one specification for each loop.
-/

namespace ViOS.Memory

/-! ## The table -/

def heapBlockTableEntryTaken : UInt8 := 0x01
def heapBlockTableEntryFree : UInt8 := 0x00
def heapBlockHasNext : UInt8 := 0b10000000
def heapBlockIsFirst : UInt8 := 0b01000000

/-- `struct heap_table`.  Its entries lie in the 48-bit address space. -/
structure HeapTable where
  entries : Nat → UInt8
  total : Nat
  total_le : total ≤ 2 ^ 48

/-- What a heap function does outside the heap's own fields. -/
inductive HeapEffect where
  | blockAllocated (address : Nat) (size : Nat)
  | blockFreed (address : Nat)
  | memset (address : Nat) (size : Nat)
  | memcpy (dest src : Nat) (size : Nat)
  deriving DecidableEq, Repr

/-- `struct heap`, with its table and the effects so far. -/
structure Heap where
  table : HeapTable
  saddr : Nat
  eaddr : Nat
  totalBlocks : Nat
  freeBlocks : Nat
  usedBlocks : Nat
  blockAllocatedCallback : Bool
  blockFreeCallback : Bool
  effects : List HeapEffect

/-- An assignment to one entry of the table. -/
def Heap.setEntry (heap : Heap) (block : Nat) (entry : UInt8) : Heap :=
  { heap with table := { heap.table with entries := Function.update heap.table.entries block entry } }

/-- One more effect. -/
def Heap.effect (heap : Heap) (effect : HeapEffect) : Heap :=
  { heap with effects := heap.effects ++ [effect] }

/-- A call of `block_allocated_callback`, if it is set. -/
def Heap.notifyAllocated (heap : Heap) (address : Nat) : Heap :=
  if heap.blockAllocatedCallback then heap.effect (.blockAllocated address viosHeapBlockSize) else heap

/-- A call of `block_free_callback`, if it is set. -/
def Heap.notifyFreed (heap : Heap) (address : Nat) : Heap :=
  if heap.blockFreeCallback then heap.effect (.blockFreed address) else heap

/-- `heap_get_entry_type`. -/
def heapGetEntryType (entry : UInt8) : UInt8 := entry &&& 0x0f

/-- The entry has one of the bits of `flag` set. -/
def hasFlag (entry flag : UInt8) : Bool := entry &&& flag ≠ 0

/-! ## Creation -/

/-- The value of a 64-bit word read as a signed number. -/
def toInt64 (word : Nat) : Int :=
  if word % addressSpace < 2 ^ 63 then (word % addressSpace : Nat)
  else (word % addressSpace : Nat) - (addressSpace : Int)

/-- The difference of two pointers, undefined when it does not fit `ptrdiff_t`. -/
def pointerDifference (p q : Nat) : Option Int :=
  let difference := (p : Int) - q
  if -(2 ^ 63) ≤ difference ∧ difference < 2 ^ 63 then some difference else none

/-- `heap_validate_alignment`. -/
def heapValidateAlignment (ptr : Nat) : Bool := ptr % viosHeapBlockSize = 0

/-- `heap_validate_table`, on a pool of `difference` bytes. -/
def heapValidateTable (difference : Int) (table : HeapTable) : Int :=
  let tableSize := (difference % addressSpace).toNat
  if table.total ≠ tableSize / viosHeapBlockSize then -einvarg else viosAllOk

/-- `heap_create`: the status and the heap, which was `heap` before.  The `int` that counts the bytes
in `memset` does not get past the entries of a heap of 8 TiB. -/
def heapCreate (heap : Heap) (ptr endPtr : Nat) (table : HeapTable) : Option (Int × Heap) :=
  if !heapValidateAlignment ptr || !heapValidateAlignment endPtr then some (-einvarg, heap)
  else
    match pointerDifference endPtr ptr with
    | none => none
    | some difference =>
      let heap : Heap :=
        { table, saddr := ptr, eaddr := endPtr, totalBlocks := table.total, freeBlocks := table.total,
          usedBlocks := 0, blockAllocatedCallback := false, blockFreeCallback := false, effects := [] }
      let res := heapValidateTable difference table
      if res < 0 then some (res, heap)
      else if 2 ^ 31 ≤ table.total then none
      else
        let entries := fun i => if i < table.total then heapBlockTableEntryFree else table.entries i
        some (res, { heap with table := { table with entries } })

/-! ## Sizes and addresses -/

/-- `heap_align_value_to_upper`. -/
def heapAlignValueToUpper (val : Nat) : Nat :=
  if val % viosHeapBlockSize = 0 then val
  else (val - val % viosHeapBlockSize + viosHeapBlockSize) % addressSpace

/-- `heap_block_to_address`. -/
def heapBlockToAddress (heap : Heap) (block : Nat) : Nat :=
  (heap.saddr + block * viosHeapBlockSize) % addressSpace

/-- `heap_address_to_block`. -/
def heapAddressToBlock (heap : Heap) (address : Nat) : Int :=
  (toInt64 (address + (addressSpace - heap.saddr))).tdiv viosHeapBlockSize

/-- `heap_is_address_within_heap`: the end address counts as well. -/
def heapIsAddressWithinHeap (heap : Heap) (ptr : Nat) : Bool :=
  heap.saddr ≤ ptr ∧ ptr ≤ heap.eaddr

/-! ## Allocation -/

/-- The loop of `heap_get_start_block` over `rest` entries from `i` on. -/
def startBlockLoop (entries : Nat → UInt8) (totalBlocks : Nat) :
    (rest i bc : Nat) → (bs : Int) → Nat × Int
  | 0, _, bc, bs => (bc, bs)
  | rest + 1, i, bc, bs =>
    if heapGetEntryType (entries i) ≠ heapBlockTableEntryFree then
      startBlockLoop entries totalBlocks rest (i + 1) 0 (-1)
    else
      let bs := if bs = -1 then (i : Int) else bs
      let bc := bc + 1
      if bc = totalBlocks then (bc, bs)
      else startBlockLoop entries totalBlocks rest (i + 1) bc bs

/-- `heap_get_start_block`. -/
def heapGetStartBlock (heap : Heap) (totalBlocks : Nat) : Int :=
  let (bc, bs) := startBlockLoop heap.table.entries totalBlocks heap.table.total 0 0 (-1)
  if bc ≠ totalBlocks then -enomem else bs

/-- The loop of `heap_mark_blocks_taken`, with `rest` blocks to go. -/
def markTakenLoop (endBlock : Nat) : (rest i : Nat) → (entry : UInt8) → Heap → Heap
  | 0, _, _, heap => heap
  | rest + 1, i, entry, heap =>
    let heap := heap.setEntry i entry
    let entry := if i ≠ endBlock then heapBlockTableEntryTaken ||| heapBlockHasNext
      else heapBlockTableEntryTaken
    markTakenLoop endBlock rest (i + 1) entry (heap.notifyAllocated (heapBlockToAddress heap i))

/-- `heap_mark_blocks_taken`. -/
def heapMarkBlocksTaken (heap : Heap) (startBlock totalBlocks : Nat) : Heap :=
  let endBlock := startBlock + totalBlocks - 1
  let entry := heapBlockTableEntryTaken ||| heapBlockIsFirst
  let entry := if totalBlocks > 1 then entry ||| heapBlockHasNext else entry
  markTakenLoop endBlock totalBlocks startBlock entry heap

/-- `heap_malloc_blocks`. -/
def heapMallocBlocks (heap : Heap) (totalBlocks : Nat) : Nat × Heap :=
  let startBlock := heapGetStartBlock heap totalBlocks
  if startBlock < 0 then (0, heap)
  else
    let address := heapBlockToAddress heap startBlock.toNat
    let heap := heapMarkBlocksTaken heap startBlock.toNat totalBlocks
    (address, { heap with
      usedBlocks := (heap.usedBlocks + totalBlocks) % addressSpace
      freeBlocks := (heap.freeBlocks + addressSpace - totalBlocks) % addressSpace })

/-- The number of blocks `heap_malloc` asks for. -/
def blocksForSize (size : Nat) : Nat := heapAlignValueToUpper size / viosHeapBlockSize

/-- `heap_malloc`. -/
def heapMalloc (heap : Heap) (size : Nat) : Nat × Heap := heapMallocBlocks heap (blocksForSize size)

/-! ## Release and size of an allocation -/

/-- The loop of `heap_mark_blocks_free` over at most `rest` entries: the number of blocks freed. -/
def markFreeLoop : (rest i : Nat) → Heap → Nat × Heap
  | 0, _, heap => (0, heap)
  | rest + 1, i, heap =>
    let entry := heap.table.entries i
    let heap := heap.setEntry i heapBlockTableEntryFree
    let heap := heap.notifyFreed (heapBlockToAddress heap i)
    if !hasFlag entry heapBlockHasNext then (1, heap)
    else
      let (freed, heap) := markFreeLoop rest (i + 1) heap
      (freed + 1, heap)

/-- `heap_mark_blocks_free`.  A negative block lies before the table. -/
def heapMarkBlocksFree (heap : Heap) (startingBlock : Int) : Option Heap :=
  if startingBlock < 0 then none
  else
    let start := startingBlock.toNat
    let (freed, heap) := markFreeLoop (heap.table.total - start) start heap
    some { heap with
      usedBlocks := (heap.usedBlocks + addressSpace - freed) % addressSpace
      freeBlocks := (heap.freeBlocks + freed) % addressSpace }

/-- `heap_free`. -/
def heapFree (heap : Heap) (ptr : Nat) : Option Heap :=
  heapMarkBlocksFree heap (heapAddressToBlock heap ptr)

/-- The loop of `heap_allocation_block_count`. -/
def blockCountLoop (entries : Nat → UInt8) : (rest i : Nat) → Nat
  | 0, _ => 0
  | rest + 1, i =>
    let here := if hasFlag (entries i) heapBlockTableEntryTaken then 1 else 0
    if !hasFlag (entries i) heapBlockHasNext then here
    else here + blockCountLoop entries rest (i + 1)

/-- `heap_allocation_block_count`. -/
def heapAllocationBlockCount (heap : Heap) (startingAddress : Nat) : Nat :=
  let startingBlock := heapAddressToBlock heap startingAddress
  if startingBlock < 0 then 0
  else
    let start := startingBlock.toNat
    blockCountLoop heap.table.entries (heap.table.total - start) start

/-- `heap_is_block_range_free`. -/
def heapIsBlockRangeFree (heap : Heap) (startingBlock endingBlock : Nat) : Bool :=
  (List.range' startingBlock (endingBlock + 1 - startingBlock)).all fun i =>
    !hasFlag (heap.table.entries i) heapBlockTableEntryTaken

/-- `heap_zalloc`. -/
def heapZalloc (heap : Heap) (size : Nat) : Nat × Heap :=
  let (ptr, heap) := heapMalloc heap size
  if ptr = 0 then (0, heap) else (ptr, heap.effect (.memset ptr size))

/-- The loop of `heap_realloc` that marks the blocks of an extension but its last. -/
def extendLoop : (rest i : Nat) → Heap → Heap
  | 0, _, heap => heap
  | rest + 1, i, heap =>
    extendLoop rest (i + 1) (heap.setEntry i (heapBlockTableEntryTaken ||| heapBlockHasNext))

/-- The branch of `heap_realloc` that gives blocks back. -/
def reallocShrink (heap : Heap) (oldPtr : Nat) (startingBlock : Int) (current newTotal : Nat) :
    Option (Nat × Heap) :=
  match heapMarkBlocksFree heap (startingBlock + newTotal) with
  | none => none
  | some heap =>
    let last := (startingBlock + newTotal - 1).toNat
    let heap := if newTotal > 0 then
        heap.setEntry last (heap.table.entries last &&& ~~~heapBlockHasNext)
      else heap
    -- the counters were already adjusted by `heap_mark_blocks_free`
    let freed := current - newTotal
    some (oldPtr, { heap with
      usedBlocks := (heap.usedBlocks + addressSpace - freed) % addressSpace
      freeBlocks := (heap.freeBlocks + freed) % addressSpace })

/-- The branch of `heap_realloc` that takes the blocks after the allocation. -/
def reallocExtend (heap : Heap) (oldPtr : Nat) (extensionStart extra : Nat) : Nat × Heap :=
  let extensionEnd := extensionStart + extra - 1
  let heap := extendLoop (extra - 1) extensionStart heap
  let heap := heap.setEntry extensionEnd heapBlockTableEntryTaken
  let endingBlock := extensionStart - 1
  let heap := heap.setEntry endingBlock (heap.table.entries endingBlock ||| heapBlockHasNext)
  (oldPtr, { heap with
    usedBlocks := (heap.usedBlocks + extra) % addressSpace
    freeBlocks := (heap.freeBlocks + addressSpace - extra) % addressSpace })

/-- The branch of `heap_realloc` that moves the allocation. -/
def reallocMove (heap : Heap) (oldPtr : Nat) (current newSizeAligned : Nat) : Option (Nat × Heap) :=
  let (newAddr, heap) := heapZalloc heap newSizeAligned
  if newAddr = 0 then some (0, heap)
  else
    let heap := heap.effect (.memcpy newAddr oldPtr (current * viosHeapBlockSize))
    (heapFree heap oldPtr).map fun heap => (newAddr, heap)

/-- `heap_realloc`; undefined when it reads or writes an entry before the table. -/
def heapRealloc (heap : Heap) (oldPtr : Nat) (newSize : Nat) : Option (Nat × Heap) :=
  if oldPtr = 0 then some (heapMalloc heap newSize)
  else if newSize = 0 then (heapFree heap oldPtr).map fun heap => (0, heap)
  else
    let current := heapAllocationBlockCount heap oldPtr
    let startingBlock := heapAddressToBlock heap oldPtr
    let newSizeAligned := heapAlignValueToUpper newSize
    let newTotal := newSizeAligned / viosHeapBlockSize
    if current = newTotal then some (oldPtr, heap)
    else if newTotal < current then reallocShrink heap oldPtr startingBlock current newTotal
    else if startingBlock < 0 then none
    else
      let extensionStart := startingBlock.toNat + current
      let extra := newTotal - current
      if heapIsBlockRangeFree heap extensionStart (extensionStart + extra - 1) then
        if extensionStart = 0 then none
        else some (reallocExtend heap oldPtr extensionStart extra)
      else reallocMove heap oldPtr current newSizeAligned

/-! ## What the loops leave alone -/

/-- The two heaps differ at most in the table's entries and in the effects. -/
def SameShape (heap heap' : Heap) : Prop :=
  ∃ entries effects, heap' = { heap with table := { heap.table with entries }, effects }

theorem SameShape.refl (heap : Heap) : SameShape heap heap := ⟨_, _, rfl⟩

theorem SameShape.trans {a b c : Heap} (ab : SameShape a b) (bc : SameShape b c) : SameShape a c := by
  obtain ⟨_, _, rfl⟩ := ab
  obtain ⟨entries, effects, rfl⟩ := bc
  exact ⟨entries, effects, rfl⟩

theorem sameShape_setEntry (heap : Heap) (block : Nat) (entry : UInt8) :
    SameShape heap (heap.setEntry block entry) := ⟨_, _, rfl⟩

theorem sameShape_notifyAllocated (heap : Heap) (address : Nat) :
    SameShape heap (heap.notifyAllocated address) := by
  unfold Heap.notifyAllocated
  split
  · exact ⟨_, _, rfl⟩
  · exact .refl heap

theorem sameShape_notifyFreed (heap : Heap) (address : Nat) :
    SameShape heap (heap.notifyFreed address) := by
  unfold Heap.notifyFreed
  split
  · exact ⟨_, _, rfl⟩
  · exact .refl heap

@[simp] theorem entries_setEntry (heap : Heap) (block : Nat) (entry : UInt8) :
    (heap.setEntry block entry).table.entries = Function.update heap.table.entries block entry := rfl

@[simp] theorem entries_notifyAllocated (heap : Heap) (address : Nat) :
    (heap.notifyAllocated address).table.entries = heap.table.entries := by
  unfold Heap.notifyAllocated
  split <;> rfl

@[simp] theorem entries_notifyFreed (heap : Heap) (address : Nat) :
    (heap.notifyFreed address).table.entries = heap.table.entries := by
  unfold Heap.notifyFreed
  split <;> rfl

theorem sameShape_markTakenLoop (endBlock : Nat) (rest i : Nat) (entry : UInt8) (heap : Heap) :
    SameShape heap (markTakenLoop endBlock rest i entry heap) := by
  induction rest generalizing i entry heap with
  | zero => exact .refl heap
  | succ rest ih =>
    exact ((sameShape_setEntry heap i entry).trans (sameShape_notifyAllocated _ _)).trans (ih _ _ _)

theorem sameShape_markFreeLoop (rest i : Nat) (heap : Heap) :
    SameShape heap (markFreeLoop rest i heap).2 := by
  induction rest generalizing i heap with
  | zero => exact .refl heap
  | succ rest ih =>
    have cleared := (sameShape_setEntry heap i heapBlockTableEntryFree).trans
      (sameShape_notifyFreed _ (heapBlockToAddress (heap.setEntry i heapBlockTableEntryFree) i))
    simp only [markFreeLoop]
    split
    · exact cleared
    · exact cleared.trans (ih _ _)

/-! ## The search for a run of free blocks -/

/-- `[start, start + count)` is a run of free entries that no free entry precedes. -/
structure FreeRun (entries : Nat → UInt8) (start count : Nat) : Prop where
  free : ∀ j, start ≤ j → j < start + count → heapGetEntryType (entries j) = heapBlockTableEntryFree
  maximal : start = 0 ∨ heapGetEntryType (entries (start - 1)) ≠ heapBlockTableEntryFree

theorem FreeRun.extend {entries : Nat → UInt8} {start count : Nat} (run : FreeRun entries start count)
    (free : heapGetEntryType (entries (start + count)) = heapBlockTableEntryFree) :
    FreeRun entries start (count + 1) where
  free := by
    intro j lower upper
    by_cases last : j = start + count
    · exact last ▸ free
    · exact run.free j lower (by omega)
  maximal := run.maximal

/-- The loop keeps `bc` free entries before `i` and their start in `bs`. -/
theorem startBlockLoop_spec (entries : Nat → UInt8) (totalBlocks rest i bc start : Nat)
    (here : i = start + bc) (run : FreeRun entries start bc) (short : bc < totalBlocks)
    (found : (startBlockLoop entries totalBlocks rest i bc (if bc = 0 then -1 else start)).1 =
      totalBlocks) :
    ∃ s : Nat, (startBlockLoop entries totalBlocks rest i bc (if bc = 0 then -1 else start)).2 = s ∧
      FreeRun entries s totalBlocks ∧ s + totalBlocks ≤ i + rest := by
  induction rest generalizing i bc start with
  | zero =>
    rw [startBlockLoop] at found
    omega
  | succ rest ih =>
    rw [startBlockLoop] at found ⊢
    by_cases taken : heapGetEntryType (entries i) ≠ heapBlockTableEntryFree
    · rw [if_pos taken] at found ⊢
      have restart : FreeRun entries (i + 1) 0 := ⟨by omega, .inr taken⟩
      obtain ⟨s, result, freeRun, inside⟩ :=
        ih (i + 1) 0 (i + 1) rfl restart (by omega) (by simpa using found)
      exact ⟨s, by simpa using result, freeRun, by omega⟩
    · have free : heapGetEntryType (entries i) = heapBlockTableEntryFree := not_not.mp taken
      rw [if_neg taken] at found ⊢
      have longer := run.extend (by rw [← here]; exact free)
      have bs : (if (if bc = 0 then (-1 : Int) else start) = -1 then (i : Int)
          else if bc = 0 then -1 else start) = start := by
        by_cases empty : bc = 0
        · simp only [empty, if_true]
          omega
        · simp only [empty, if_false]
          exact if_neg (by omega)
      simp only [bs] at found ⊢
      by_cases full : bc + 1 = totalBlocks
      · rw [if_pos full] at found ⊢
        exact ⟨start, rfl, full ▸ longer, by omega⟩
      · rw [if_neg full] at found ⊢
        obtain ⟨s, result, freeRun, inside⟩ :=
          ih (i + 1) (bc + 1) start (by omega) longer (by omega) (by simpa using found)
        exact ⟨s, by simpa using result, freeRun, by omega⟩

/-- A search for no blocks never succeeds. -/
theorem startBlockLoop_zero (entries : Nat → UInt8) (rest i bc : Nat) (bs : Int)
    (none : bc = 0 → bs = -1) :
    (startBlockLoop entries 0 rest i bc bs).1 = 0 → (startBlockLoop entries 0 rest i bc bs).2 = -1 := by
  induction rest generalizing i bc bs with
  | zero => exact none
  | succ rest ih =>
    rw [startBlockLoop]
    split
    · exact ih _ _ _ fun _ => rfl
    · rw [if_neg (Nat.succ_ne_zero bc)]
      exact ih _ _ _ (by omega)

theorem heapGetStartBlock_spec {heap : Heap} {totalBlocks : Nat}
    (found : 0 ≤ heapGetStartBlock heap totalBlocks) :
    0 < totalBlocks ∧ ∃ s : Nat, heapGetStartBlock heap totalBlocks = s ∧
      FreeRun heap.table.entries s totalBlocks ∧ s + totalBlocks ≤ heap.table.total := by
  unfold heapGetStartBlock at found ⊢
  simp only at found ⊢
  by_cases same : (startBlockLoop heap.table.entries totalBlocks heap.table.total 0 0 (-1)).1 = totalBlocks
  · rw [if_neg (not_not.mpr same)] at found ⊢
    have positive : 0 < totalBlocks := by
      rcases Nat.eq_zero_or_pos totalBlocks with zero | positive
      · subst zero
        have := startBlockLoop_zero heap.table.entries heap.table.total 0 0 (-1) (fun _ => rfl) same
        omega
      · exact positive
    refine ⟨positive, ?_⟩
    have empty : FreeRun heap.table.entries 0 0 := ⟨by omega, .inl rfl⟩
    simpa using startBlockLoop_spec heap.table.entries totalBlocks heap.table.total 0 0 0 rfl empty
      positive same
  · rw [if_pos same] at found
    exact absurd found (by decide)

/-! ## The entries of an allocation -/

/-- The entry of block `k` of an allocation of `count` blocks, as `heap_mark_blocks_taken` writes it:
the last of several blocks carries `HAS_NEXT` as well. -/
def chainEntry (count k : Nat) : UInt8 :=
  if k = 0 then
    if count > 1 then heapBlockTableEntryTaken ||| heapBlockIsFirst ||| heapBlockHasNext
    else heapBlockTableEntryTaken ||| heapBlockIsFirst
  else heapBlockTableEntryTaken ||| heapBlockHasNext

theorem chainEntry_taken (count k : Nat) :
    heapGetEntryType (chainEntry count k) = heapBlockTableEntryTaken := by
  unfold chainEntry
  split_ifs <;> decide

theorem chainEntry_hasNext {count k : Nat} (member : k < count) :
    hasFlag (chainEntry count k) heapBlockHasNext = decide (1 < count) := by
  unfold chainEntry
  by_cases first : k = 0
  · by_cases several : 1 < count <;> simp [first, several] <;> decide
  · have several : 1 < count := by omega
    simp [first, several]
    decide

theorem entries_markTakenLoop (endBlock rest i : Nat) (entry : UInt8) (heap : Heap)
    (reaches : i + rest = endBlock + 1) (j : Nat) :
    (markTakenLoop endBlock rest i entry heap).table.entries j =
      if i ≤ j ∧ j < i + rest then
        if j = i then entry else heapBlockTableEntryTaken ||| heapBlockHasNext
      else heap.table.entries j := by
  induction rest generalizing i entry heap with
  | zero => rw [if_neg (by omega)]; rfl
  | succ rest ih =>
    rw [markTakenLoop, ih (i + 1) _ _ (by omega), entries_notifyAllocated, entries_setEntry]
    by_cases here : j = i
    · subst here
      rw [if_neg (by omega), if_pos (by omega), if_pos rfl, Function.update_self]
    · rw [Function.update_of_ne here]
      by_cases later : i + 1 ≤ j ∧ j < i + 1 + rest
      · have notLast : i ≠ endBlock := by omega
        have inside : i ≤ j ∧ j < i + (rest + 1) := by omega
        rw [if_pos later, if_pos notLast, ite_self, if_pos inside, if_neg here]
      · rw [if_neg later, if_neg (by omega)]

theorem entries_heapMarkBlocksTaken (heap : Heap) {start count : Nat} (positive : 0 < count) (j : Nat) :
    (heapMarkBlocksTaken heap start count).table.entries j =
      if start ≤ j ∧ j < start + count then chainEntry count (j - start)
      else heap.table.entries j := by
  rw [heapMarkBlocksTaken, entries_markTakenLoop _ _ _ _ _ (by omega)]
  by_cases inside : start ≤ j ∧ j < start + count
  · rw [if_pos inside, if_pos inside, chainEntry]
    by_cases first : j = start
    · have zero : j - start = 0 := by omega
      rw [if_pos first, if_pos zero]
    · have later : j - start ≠ 0 := by omega
      rw [if_neg first, if_neg later]
  · rw [if_neg inside, if_neg inside]

/-! ## The loops that follow `HAS_NEXT` -/

/-- How many entries the loops of `heap_mark_blocks_free` and `heap_allocation_block_count` visit. -/
def chainReach (entries : Nat → UInt8) : (rest i : Nat) → Nat
  | 0, _ => 0
  | rest + 1, i =>
    if !hasFlag (entries i) heapBlockHasNext then 1 else chainReach entries rest (i + 1) + 1

theorem chainReach_congr {entries entries' : Nat → UInt8} (rest i : Nat)
    (same : ∀ j, i ≤ j → entries j = entries' j) :
    chainReach entries rest i = chainReach entries' rest i := by
  induction rest generalizing i with
  | zero => rfl
  | succ rest ih =>
    rw [chainReach, chainReach, same i (Nat.le_refl i), ih (i + 1) fun j later => same j (by omega)]

theorem markFreeLoop_freed (rest i : Nat) (heap : Heap) :
    (markFreeLoop rest i heap).1 = chainReach heap.table.entries rest i := by
  induction rest generalizing i heap with
  | zero => rfl
  | succ rest ih =>
    simp only [markFreeLoop, chainReach]
    split
    · rfl
    · simp only [ih, entries_notifyFreed, entries_setEntry]
      rw [chainReach_congr rest (i + 1) fun j later => Function.update_of_ne (by omega) _ _]

theorem entries_markFreeLoop (rest i : Nat) (heap : Heap) (j : Nat) :
    (markFreeLoop rest i heap).2.table.entries j =
      if i ≤ j ∧ j < i + chainReach heap.table.entries rest i then heapBlockTableEntryFree
      else heap.table.entries j := by
  induction rest generalizing i heap with
  | zero => rw [if_neg (by simp only [chainReach]; omega)]; rfl
  | succ rest ih =>
    have cleared : Function.update heap.table.entries i heapBlockTableEntryFree j =
        if j = i then heapBlockTableEntryFree else heap.table.entries j := by
      rw [Function.update_apply]
    simp only [markFreeLoop, chainReach]
    split
    · simp only [entries_notifyFreed, entries_setEntry, cleared]
      exact if_congr (by omega) rfl rfl
    · simp only [ih, entries_notifyFreed, entries_setEntry, cleared]
      have untouched : ∀ j, i + 1 ≤ j →
          Function.update heap.table.entries i heapBlockTableEntryFree j = heap.table.entries j :=
        fun j later => Function.update_of_ne (by omega) _ _
      rw [chainReach_congr rest (i + 1) untouched]
      split_ifs <;> first | rfl | omega

theorem chainReach_peel (entries : Nat → UInt8) (count rest i : Nat)
    (linked : ∀ k < count, hasFlag (entries (i + k)) heapBlockHasNext = true) :
    chainReach entries (count + rest) i = count + chainReach entries rest (i + count) := by
  induction count generalizing i with
  | zero => simp
  | succ count ih =>
    have first : hasFlag (entries i) heapBlockHasNext = true := linked 0 (by omega)
    have later := ih (i + 1) fun k small => by
      have := linked (k + 1) (by omega)
      rwa [← Nat.add_assoc, Nat.add_right_comm] at this
    rw [Nat.add_right_comm, chainReach, first, Bool.not_true, if_neg Bool.false_ne_true, later,
      Nat.add_right_comm i 1 count, Nat.add_assoc i]
    omega

theorem blockCountLoop_peel (entries : Nat → UInt8) (count rest i : Nat)
    (linked : ∀ k < count, hasFlag (entries (i + k)) heapBlockHasNext = true)
    (taken : ∀ k < count, hasFlag (entries (i + k)) heapBlockTableEntryTaken = true) :
    blockCountLoop entries (count + rest) i = count + blockCountLoop entries rest (i + count) := by
  induction count generalizing i with
  | zero => simp
  | succ count ih =>
    have firstLinked : hasFlag (entries i) heapBlockHasNext = true := linked 0 (by omega)
    have firstTaken : hasFlag (entries i) heapBlockTableEntryTaken = true := taken 0 (by omega)
    have shift : ∀ {flag : UInt8}, (∀ k < count + 1, hasFlag (entries (i + k)) flag = true) →
        ∀ k < count, hasFlag (entries (i + 1 + k)) flag = true := by
      intro flag all k small
      have := all (k + 1) (by omega)
      rwa [← Nat.add_assoc, Nat.add_right_comm] at this
    rw [Nat.add_right_comm, blockCountLoop, firstLinked, firstTaken, Bool.not_true,
      if_neg Bool.false_ne_true, if_pos rfl, ih (i + 1) (shift linked) (shift taken),
      Nat.add_right_comm i 1 count, Nat.add_assoc i]
    omega

end ViOS.Memory
