import ViOS.Task.ProcessPages

/-! # `process_realloc` of a pointer the process does not own

`process_allocation_exists` says "not found" only when it looked at no record at all.
With any record in the vector an unknown pointer is taken for the owner of record 0,
and the block behind it is resized, mapped and entered there.

* `ProcessReady` — what a process brings to a call.
* `LeavesAlone` — the call changes nothing, or adds what `process_malloc` would add.
* `heapMarkBlocksFree_same_iff` — when freeing the blocks of any address leaves the table alone.
* `processRealloc_unknown_iff` — when the call leaves the process alone.
-/

namespace ViOS.Process

open ViOS.Lib ViOS.Memory

/-! ## The property -/

/-- The records can be read and point to taken blocks, and the tables of the heap's pages are in
place. -/
structure ProcessReady (process : ProcessMemory) : Prop where
  pool : Pool process.paging.alloc
  tree : PagingTree (fun _ => True) process.paging.mem process.desc.pml
  tables : ∀ block < process.paging.alloc.table.total,
    Radix.walk childTable process.paging.mem process.desc.pml
      (wordOf (blockAddress process.paging.alloc block)) ≠ none
  read : process.allocations.read = some process.allocations.elems
  records : ∀ a ∈ process.allocations.elems, a.ptr ≠ 0 →
    ∃ block, a.ptr = blockAddress process.paging.alloc block ∧ TakenAt process.paging.alloc block

/-- What the tables of a process say about a page. -/
def pageMapping (process : ProcessMemory) (page : Nat) : Mapping :=
  leafMapping (leafOf process.paging.mem process.desc.pml (page * pagingPageSize))

/-- Nothing of the process changed: its records, the heap's table, its mappings. -/
structure Unchanged (process next : ProcessMemory) : Prop where
  records : next.allocations.elems = process.allocations.elems
  table : next.paging.alloc.table.entries = process.paging.alloc.table.entries
  mappings : ∀ page < 2 ^ 36, pageMapping next page = pageMapping process page

/-- At most an allocation of `size` bytes at `ptr` was added: live records, taken blocks and the
other pages are as before. -/
structure AddsAtMost (process next : ProcessMemory) (ptr size : Nat) : Prop where
  records : ∀ (i : Nat) a, process.allocations.elems[i]? = some a → a.ptr ≠ 0 →
    next.allocations.elems[i]? = some a
  table : ∀ block, TakenAt process.paging.alloc block →
    next.paging.alloc.table.entries block = process.paging.alloc.table.entries block
  mappings : ∀ page < 2 ^ 36, (ptr = 0 ∨ page < ptr / pagingPageSize ∨
    rangeEnd ptr size / pagingPageSize ≤ page) → pageMapping next page = pageMapping process page

/-- `process_realloc` of a pointer that is not the process's own leaves the process alone; for the
null pointer it may add an allocation. -/
def LeavesAlone (process : ProcessMemory) (q size : Nat) : Prop :=
  ∃ ptr next, processRealloc process q size = some (ptr, next) ∧
    if q = 0 then AddsAtMost process next ptr size else Unchanged process next

/-! ## The condition -/

/-- `krealloc` takes the address for one of the heap. -/
def OfHeap (heap : Heap) (ptr : Nat) : Prop :=
  let realPhysAddr := if heap.eaddr ≤ ptr then ptr - heap.eaddr else ptr
  heap.saddr ≤ realPhysAddr ∧ realPhysAddr ≤ heap.eaddr

/-- The range of record 0 is mapped for user code as `process_allocation_set_map` would map it, and
record 0 says so already; or the address is refused because it is not that of a page. -/
def SetMapIdle (process : ProcessMemory) (ptr size : Nat) : Prop :=
  ptr % pagingPageSize ≠ 0 ∨
    (process.allocations.elems[0]? = some ⟨ptr, (ptr + size) % addressSpace, size⟩ ∧
      ∀ page < 2 ^ 36, ptr / pagingPageSize ≤ page → page < rangeEnd ptr size / pagingPageSize →
        pageMapping process page = mappingOf page userFlags)

/-- `heap_realloc` has nothing to change: no block to free, no room to move to, or as many blocks as
are asked for, in a range that is recorded and mapped already. -/
def NothingToResize (process : ProcessMemory) (ptr size : Nat) : Prop :=
  let heap := process.paging.alloc
  let start := (ptr - heap.saddr) / viosHeapBlockSize
  let current := heapAllocationBlockCount heap ptr
  let wanted := blocksForSize size
  if size = 0 then heap.table.total ≤ start ∨ heap.table.entries start = heapBlockTableEntryFree
  else (current = wanted ∧ SetMapIdle process ptr size) ∨
    (current < wanted ∧
      heapIsBlockRangeFree heap (start + current) (start + wanted - 1) = false ∧
      heapGetStartBlock heap wanted < 0)

/-- The calls that do no harm. -/
def ReallocHarmless (process : ProcessMemory) (q size : Nat) : Prop :=
  let heap := process.paging.alloc
  let phys := pagingGetPhysicalAddress process.paging.mem process.desc q
  process.allocations.elems = [] ∨
    if q = 0 then
      (∃ a ∈ process.allocations.elems, a.ptr = 0) ∨ heapGetStartBlock heap (blocksForSize size) < 0
    else
      phys = 0 ∨ (OfHeap heap phys ∧ NothingToResize process phys size) ∨
        (¬ OfHeap heap phys ∧ heapGetStartBlock heap (blocksForSize size) < 0)

/-! ## `heap_realloc` of any address -/

section Heap

variable {heap : Heap} {ptr start current wanted : Nat}

/-- The block an address of the heap, or one taken for such, lies in. -/
theorem heapAddressToBlock_of_ge (lower : heap.saddr ≤ ptr) (upper : ptr < 2 ^ 63) :
    heapAddressToBlock heap ptr = ((ptr - heap.saddr) / viosHeapBlockSize : Nat) := by
  have offset : (ptr + (addressSpace - heap.saddr)) % addressSpace = ptr - heap.saddr := by
    unfold addressSpace
    omega
  have small : ptr - heap.saddr < 2 ^ 63 := by omega
  unfold heapAddressToBlock toInt64
  rw [offset, if_pos small]
  rfl

theorem ofHeap_bounds (pool : Pool heap) (ofHeap : OfHeap heap ptr) :
    heap.saddr ≤ ptr ∧ ptr < 2 ^ 50 := by
  have fits := pool.fits
  have ending := pool.eaddr_eq
  unfold OfHeap at ofHeap
  simp only at ofHeap
  split at ofHeap <;> omega

theorem chainReach_pos {entries : Nat → UInt8} {total : Nat} (inTable : start < total) :
    0 < chainReach entries (total - start) start := by
  obtain ⟨rest, more⟩ : ∃ rest, total - start = rest + 1 := ⟨total - start - 1, by omega⟩
  rw [more, chainReach]
  split <;> omega

/-- Freeing what starts at a block leaves the table alone just when the block is free or outside. -/
theorem heapMarkBlocksFree_same_iff (heap : Heap) (start : Nat) :
    ∃ heap', heapMarkBlocksFree heap start = some heap' ∧ SamePool heap heap' ∧
      (heap'.table.entries = heap.table.entries ↔
        heap.table.total ≤ start ∨ heap.table.entries start = heapBlockTableEntryFree) := by
  obtain ⟨heap', result, same, entries⟩ := heapMarkBlocksFree_reach heap start
  refine ⟨heap', result, same, ?_⟩
  constructor
  · intro unchanged
    by_contra both
    obtain ⟨inTable, notFree⟩ := not_or.mp both
    have visited := @chainReach_pos _ heap.table.entries _ (not_le.mp inTable)
    have here := entries start
    rw [if_pos ⟨Nat.le_refl _, by omega⟩, unchanged] at here
    exact notFree here
  · intro either
    funext j
    rw [entries j]
    by_cases visited : start ≤ j ∧
        j < start + chainReach heap.table.entries (heap.table.total - start) start
    · rw [if_pos visited]
      rcases either with outside | free
      · rw [show heap.table.total - start = 0 by omega, chainReach] at visited
        omega
      · -- a free entry has no `HAS_NEXT`, so it is the only one visited
        have one : chainReach heap.table.entries (heap.table.total - start) start ≤ 1 := by
          cases heap.table.total - start with
          | zero => exact Nat.zero_le _
          | succ rest =>
            rw [chainReach, free]
            exact Nat.le_refl _
        have here : j = start := by omega
        rw [here, free]
    · rw [if_neg visited]

theorem blockCountLoop_le (entries : Nat → UInt8) (rest i : Nat) : blockCountLoop entries rest i ≤ rest := by
  induction rest generalizing i with
  | zero => exact Nat.le_refl _
  | succ rest ih =>
    have later := ih (i + 1)
    rw [blockCountLoop]
    split_ifs <;> omega

/-- An entry the count has not stopped before is not free. -/
theorem blockCountLoop_used (entries : Nat → UInt8) (rest i j : Nat)
    (counted : j < blockCountLoop entries rest i) : entries (i + j) ≠ heapBlockTableEntryFree := by
  induction rest generalizing i j with
  | zero => exact absurd counted (Nat.not_lt_zero _)
  | succ rest ih =>
    intro free
    rw [blockCountLoop] at counted
    cases j with
    | zero =>
      rw [Nat.add_zero] at free
      rw [free] at counted
      simp [hasFlag, heapBlockTableEntryFree] at counted
    | succ j =>
      rw [← Nat.add_assoc, Nat.add_right_comm] at free
      cases linked : hasFlag (entries i) heapBlockHasNext with
      | false =>
        rw [linked] at counted
        simp only [Bool.not_false, if_true] at counted
        split at counted <;> omega
      | true =>
        rw [linked] at counted
        simp only [Bool.not_true, Bool.false_eq_true, if_false] at counted
        refine ih (i + 1) j ?_ free
        split at counted <;> omega

/-- The branch that gives blocks back frees the first block past the new size, which was in use. -/
theorem reallocShrink_changes (counted : heapAllocationBlockCount heap ptr = current)
    (block : heapAddressToBlock heap ptr = start) (shrinks : wanted < current) :
    start + current ≤ heap.table.total ∧
      ∃ heap', reallocShrink heap ptr start current wanted = some (ptr, heap') ∧ SamePool heap heap' ∧
        heap'.table.entries ≠ heap.table.entries := by
  unfold heapAllocationBlockCount at counted
  simp only [block] at counted
  rw [if_neg (by omega), Int.toNat_natCast] at counted
  have inTable := blockCountLoop_le heap.table.entries (heap.table.total - start) start
  have used := blockCountLoop_used heap.table.entries (heap.table.total - start) start wanted (by omega)
  refine ⟨by omega, ?_⟩
  obtain ⟨freed, result, same, entries⟩ := heapMarkBlocksFree_reach heap (start + wanted)
  have visited := @chainReach_pos (start + wanted) heap.table.entries heap.table.total (by omega)
  have cleared := entries (start + wanted)
  rw [if_pos ⟨Nat.le_refl _, by omega⟩] at cleared
  unfold reallocShrink
  rw [show (start : Int) + wanted = ((start + wanted : Nat) : Int) by omega, result]
  simp only
  by_cases some : wanted > 0
  · rw [if_pos some]
    refine ⟨_, rfl, ⟨same.saddr, same.eaddr, same.total⟩, fun unchanged => used ?_⟩
    have here := congrFun unchanged (start + wanted)
    simp only [entries_setEntry] at here
    rw [Function.update_of_ne (by omega), cleared] at here
    exact here.symm
  · rw [if_neg some]
    refine ⟨_, rfl, ⟨same.saddr, same.eaddr, same.total⟩, fun unchanged => used ?_⟩
    rw [← cleared]
    exact (congrFun unchanged (start + wanted)).symm

/-- The branch that extends takes a block that was not taken. -/
theorem reallocExtend_takes (positive : 0 < start + current) (grows : current < wanted)
    (free : heapIsBlockRangeFree heap (start + current) (start + wanted - 1) = true) :
    ¬ TakenAt heap (start + current) ∧
      TakenAt (reallocExtend heap ptr (start + current) (wanted - current)).2 (start + current) := by
  constructor
  · intro isTaken
    have clear := rangeFree_iff.mp free (start + current) (Nat.le_refl _) (by omega)
    rw [takenFlag_of_taken isTaken] at clear
    exact absurd clear (by decide)
  · unfold TakenAt
    rw [entries_reallocExtend heap ptr _ _ _ positive (by omega), if_neg (by omega)]
    split_ifs
    · rfl
    · rfl
    · omega

/-- The branch that moves fails for want of room, or changes the table. -/
theorem reallocMove_changes (pool : Pool heap) (block : heapAddressToBlock heap ptr = start)
    (free : heapIsBlockRangeFree heap (start + current) (start + wanted - 1) = false)
    {size : Nat} (isWanted : blocksForSize size = wanted) (counted : heapAllocationBlockCount heap ptr = current) :
    (reallocMove heap ptr current size = some (0, heap) ∧ heapGetStartBlock heap wanted < 0) ∨
    (0 ≤ heapGetStartBlock heap wanted ∧ ∃ new heap', reallocMove heap ptr current size =
      some (blockAddress heap new, heap') ∧ SamePool heap heap' ∧ new + wanted ≤ heap.table.total ∧
        heap'.table.entries ≠ heap.table.entries) := by
  unfold reallocMove heapZalloc
  rcases pool.malloc size with ⟨none, negative⟩ | ⟨new, allocated, result, found, taken⟩
  · rw [none]
    exact .inl ⟨by simp, isWanted ▸ negative⟩
  · rw [isWanted] at taken found
    have positive := taken.positive
    have inside := taken.inside
    have block' : ∀ effects, heapAddressToBlock { allocated with effects } ptr = start := by
      intro effects
      rw [← block]
      unfold heapAddressToBlock
      rw [taken.same.saddr]
    refine .inr ⟨by omega, new, ?_⟩
    rw [result]
    simp only [blockAddress_ne_zero pool new, if_false, Heap.effect]
    obtain ⟨heap', freed, same, entries⟩ := heapFree_reach (block' _)
    rw [freed]
    refine ⟨heap', rfl, taken.same.trans ⟨same.saddr, same.eaddr, same.total⟩, taken.inside, fun unchanged => ?_⟩
    rw [unchanged] at entries
    simp only [taken.same.total] at entries
    have newFree := not_taken_of_free (taken.run.free new (Nat.le_refl _) (by omega))
    have newTaken := (taken.taken_iff new).mpr (.inr ⟨Nat.le_refl _, by omega⟩)
    have visited : start ≤ new ∧
        new < start + chainReach allocated.table.entries (heap.table.total - start) start := by
      by_contra notVisited
      have here := entries new
      rw [if_neg notVisited] at here
      unfold TakenAt at newFree newTaken
      rw [here] at newFree
      exact newFree newTaken
    have inTable : start < heap.table.total := by
      by_contra outside
      rw [show heap.table.total - start = 0 by omega, chainReach] at visited
      omega
    -- the first block of the old allocation was freed, so it was free before
    have startFree : heap.table.entries start = heapBlockTableEntryFree := by
      rw [entries start, if_pos ⟨Nat.le_refl _, by omega⟩]
    have none : current = 0 := by
      unfold heapAllocationBlockCount at counted
      simp only [block] at counted
      rw [if_neg (by omega), Int.toNat_natCast] at counted
      by_contra some
      exact blockCountLoop_used heap.table.entries (heap.table.total - start) start 0 (by omega) startFree
    have behind : new ≠ start := by
      rintro rfl
      have clear : heapIsBlockRangeFree heap (new + current) (new + wanted - 1) = true := by
        refine rangeFree_iff.mpr fun j lower upper => ?_
        have isFree := taken.run.free j (by omega) (by omega)
        have entry := pool.free_of_not_taken (show j < heap.table.total by omega) (not_taken_of_free isFree)
        rw [entry]
        rfl
      rw [clear] at free
      exact absurd free (by decide)
    -- so the old chain is that free block alone
    have alone : allocated.table.entries start = heapBlockTableEntryFree := by
      rw [taken.marked, if_neg (by omega), startFree]
    obtain ⟨rest, more⟩ : ∃ rest, heap.table.total - start = rest + 1 :=
      ⟨heap.table.total - start - 1, by omega⟩
    rw [more, chainReach, alone] at visited
    have one : new < start + 1 := visited.2
    omega

/-- The table changed, and mapping the range that is returned cannot undo it: a block was taken, or
the range is one of the heap's. -/
def Changes (heap heap' : Heap) (ptr size : Nat) : Prop :=
  SamePool heap heap' ∧
    ((∃ block, ¬ TakenAt heap block ∧ TakenAt heap' block) ∨
      (heap.saddr ≤ ptr ∧ ptr < 2 ^ 50 ∧
        (ptr - heap.saddr) / viosHeapBlockSize + blocksForSize size ≤ heap.table.total ∧
        heap'.table.entries ≠ heap.table.entries))

theorem blockOf_blockAddress (heap : Heap) (block : Nat) :
    (blockAddress heap block - heap.saddr) / viosHeapBlockSize = block := by
  unfold blockAddress viosHeapBlockSize
  omega

/-- `heap_realloc` of an address the heap is asked about, to a size that is not zero. -/
theorem heapRealloc_ofHeap (pool : Pool heap) (notNull : ptr ≠ 0) (ofHeap : OfHeap heap ptr) {size : Nat}
    (notZero : size ≠ 0) (isStart : (ptr - heap.saddr) / viosHeapBlockSize = start)
    (counted : heapAllocationBlockCount heap ptr = current) (isWanted : blocksForSize size = wanted) :
    if current = wanted then heapRealloc heap ptr size = some (ptr, heap)
    else if current < wanted ∧ heapIsBlockRangeFree heap (start + current) (start + wanted - 1) = false ∧
        heapGetStartBlock heap wanted < 0 then
      heapRealloc heap ptr size = some (0, heap)
    else ∀ new heap', heapRealloc heap ptr size = some (new, heap') → new ≠ 0 ∧ Changes heap heap' new size := by
  obtain ⟨lower, upper⟩ := ofHeap_bounds pool ofHeap
  have block := heapAddressToBlock_of_ge lower (show ptr < 2 ^ 63 by omega)
  rw [isStart] at block
  have wantedEq : heapAlignValueToUpper size / viosHeapBlockSize = wanted := isWanted
  unfold heapRealloc
  rw [if_neg notNull, if_neg notZero]
  simp only [counted, block, wantedEq]
  by_cases same : current = wanted
  · rw [if_pos same, if_pos same]
  rw [if_neg same]
  simp only [if_neg same]
  -- the three branches of heap_realloc: shrink, extend in place, move
  rcases Nat.lt_or_ge wanted current with shrinks | grows
  · obtain ⟨inside, shrunk, result, samePool, changed⟩ := reallocShrink_changes counted block shrinks
    rw [if_pos shrinks, result, if_neg fun grows => absurd grows.1 (by omega)]
    intro new heap' isResult
    obtain ⟨rfl, rfl⟩ := Prod.mk.inj (Option.some.inj isResult)
    exact ⟨notNull, samePool, .inr ⟨lower, upper, by rw [isStart, isWanted]; omega, changed⟩⟩
  have more : current < wanted := by omega
  rw [if_neg (not_lt.mpr grows), if_neg (show ¬ (start : Int) < 0 by omega), Int.toNat_natCast,
    show start + current + (wanted - current) - 1 = start + wanted - 1 by omega]
  by_cases free : heapIsBlockRangeFree heap (start + current) (start + wanted - 1) = true
  · rw [if_pos free, if_neg fun full => absurd free (by rw [full.2.1]; simp)]
    intro new heap' isResult
    -- the extension marks the block before the new ones, so there has to be one
    by_cases atStart : start + current = 0
    · rw [if_pos atStart] at isResult
      exact absurd isResult (by simp)
    · rw [if_neg atStart] at isResult
      obtain ⟨rfl, rfl⟩ := Prod.mk.inj (Option.some.inj isResult)
      exact ⟨notNull, samePool_reallocExtend heap ptr _ _,
        .inl ⟨_, @reallocExtend_takes heap ptr start current wanted (Nat.pos_of_ne_zero atStart) more free⟩⟩
  · rw [if_neg free]
    have notFree := Bool.not_eq_true _ ▸ free
    have aligned := (blocksForSize_aligned size).trans isWanted
    rcases reallocMove_changes pool block notFree aligned counted with ⟨result, noRoom⟩ |
      ⟨room, new, moved, result, samePool, inside, changed⟩
    · rw [if_pos ⟨more, notFree, noRoom⟩, result]
    · rw [if_neg fun full => absurd full.2.2 (by omega), result]
      intro new' heap' isResult
      obtain ⟨rfl, rfl⟩ := Prod.mk.inj (Option.some.inj isResult)
      have bound := pool.blockAddress_lt (show new ≤ heap.table.total by omega)
      refine ⟨blockAddress_ne_zero pool new, samePool, .inr ⟨Nat.le_add_right _ _, by omega, ?_, changed⟩⟩
      rw [blockOf_blockAddress, isWanted]
      exact inside

end Heap

/-! ## `process_allocation_set_map` -/

/-- The process with another state of the heap. -/
def ProcessMemory.withHeap (process : ProcessMemory) (heap : Heap) : ProcessMemory :=
  { process with paging := { process.paging with alloc := heap } }

/-- The record at `index` became that of the range, whose pages are mapped for user code. -/
structure SetsMap (process next : ProcessMemory) (index ptr size : Nat) : Prop where
  records : next.allocations.elems =
    process.allocations.elems.set index ⟨ptr, (ptr + size) % addressSpace, size⟩
  alloc : next.paging.alloc = process.paging.alloc
  mappings : ∀ page < 2 ^ 36, pageMapping next page =
    if ptr / pagingPageSize ≤ page ∧ page < rangeEnd ptr size / pagingPageSize then mappingOf page userFlags
    else pageMapping process page

/-- The end of a range of blocks, and of the empty range that a wrapped size asks for. -/
theorem rangeEnd_pages {ptr size : Nat} (aligned : ptr % pagingPageSize = 0) (lower : pagingPageSize ≤ ptr)
    (small : size < addressSpace)
    (fits : ptr + blocksForSize size * pagingPageSize < 2 ^ 63) :
    rangeEnd ptr size = ptr + blocksForSize size * pagingPageSize := by
  unfold rangeEnd pagingAlignAddress
  unfold blocksForSize heapAlignValueToUpper at *
  unfold viosHeapBlockSize pagingPageSize addressSpace at *
  split_ifs at fits ⊢ <;> omega

section SetMap

variable {process : ProcessMemory} {index ptr size : Nat}

/-- An address that is not that of a page is refused. -/
theorem setMap_unaligned (notPage : ptr % pagingPageSize ≠ 0) :
    Unchanged process (processAllocationSetMap process index ptr size).2 := by
  have refused : (mapRangeOf process ptr size userFlags).1 = -einvarg ∧
      (mapRangeOf process ptr size userFlags).2.paging = process.paging := by
    unfold mapRangeOf pagingMapTo
    rw [if_pos notPage]
    exact ⟨rfl, rfl⟩
  unfold processAllocationSetMap
  simp only [refused.1, show (-einvarg : Int) < 0 by decide, if_true]
  refine ⟨rfl, by rw [refused.2], fun page _ => ?_⟩
  unfold pageMapping
  rw [refused.2]
  rfl

/-- `kzalloc` gives no block back, nor do the calls that build page tables with it. -/
theorem processAllocationSetMap_taken {block : Nat} (isTaken : TakenAt process.paging.alloc block) :
    TakenAt (processAllocationSetMap process index ptr size).2.paging.alloc block := by
  have keeps : ∀ heap bytes, TakenAt heap block → TakenAt (kzalloc heap bytes).2 block := by
    intro heap bytes isTaken
    unfold kzalloc heapZalloc
    rcases heapMalloc_cases heap bytes with ⟨none, -⟩ | ⟨start, entries, effects, -, -, -, -, marked, result⟩
    · rw [none]
      exact isTaken
    · rw [result]
      have still : heapGetEntryType (entries block) = heapBlockTableEntryTaken := by
        rw [marked block]
        split
        · exact chainEntry_taken _ _
        · exact isTaken
      simp only
      split <;> exact still
  have mapped := pagingMapTo_alloc keeps process.desc ptr ptr (rangeEnd ptr size) userFlags isTaken
  unfold processAllocationSetMap
  simp only
  split
  · exact mapped
  · split <;> exact mapped

end SetMap

namespace ProcessReady

variable {process : ProcessMemory} {heap : Heap} {index ptr size : Nat}

/-- Mapping a range of blocks to itself. -/
theorem mapRange (ready : ProcessReady process) (heap : Heap) {start : Nat}
    (isPtr : ptr = blockAddress process.paging.alloc start)
    (ending : rangeEnd ptr size = ptr + blocksForSize size * pagingPageSize)
    (inside : blocksForSize size = 0 ∨ start + blocksForSize size ≤ process.paging.alloc.table.total) :
    (mapRangeOf (process.withHeap heap) ptr size userFlags).1 = 0 ∧
      OnlyPages (process.withHeap heap) (mapRangeOf (process.withHeap heap) ptr size userFlags).2 ∧
      ∀ page < 2 ^ 36, pageMapping (mapRangeOf (process.withHeap heap) ptr size userFlags).2 page =
        if ptr / pagingPageSize ≤ page ∧ page < rangeEnd ptr size / pagingPageSize then
          mappingOf page userFlags
        else pageMapping process page := by
  have pool := ready.pool
  have aligned : ptr % pagingPageSize = 0 := by
    rw [isPtr, blockAddress_eq_page pool]
    exact Nat.mul_mod_left _ _
  rw [ending]
  unfold mapRangeOf
  rw [ending]
  rcases inside with none | inside
  · -- the range has no pages
    rw [none, Nat.zero_mul, Nat.add_zero]
    have nothing : pagingMapTo kzalloc process.desc ptr ptr ptr userFlags (process.withHeap heap).paging =
        (0, (process.withHeap heap).paging) := by
      simp [pagingMapTo, pagingMapRange, mapRangeLoop, aligned]
    change (pagingMapTo kzalloc process.desc _ _ _ _ _).1 = 0 ∧ _
    simp only [ProcessMemory.withHeap] at nothing ⊢
    rw [nothing]
    refine ⟨rfl, ⟨rfl, rfl, rfl⟩, fun page _ => ?_⟩
    rw [if_neg (by omega)]
    rfl
  · have fits := pool.blockAddress_lt inside
    rw [blockAddress_add, ← isPtr] at fits
    have tables : ∀ i < blocksForSize size, Radix.walk childTable (process.withHeap heap).paging.mem
        process.desc.pml (wordOf (ptr + i * pagingPageSize)) ≠ none := by
      intro i inRange
      rw [isPtr, ← blockAddress_add]
      exact ready.tables (start + i) (by omega)
    have mapped := @pagingMapTo_mapped Heap kzalloc _ process.desc _ (blocksForSize size) userFlags
      (process.withHeap heap).paging aligned fits ready.tree tables
    refine ⟨mapped.1, ⟨rfl, mapped.2.alloc, rfl⟩, fun page isPage => ?_⟩
    have run := rangeCovers_run pool inside userFlags isPage
    have inRun : InRun process.paging.alloc start (blocksForSize size) page ↔
        ptr / pagingPageSize ≤ page ∧
          page < (ptr + blocksForSize size * pagingPageSize) / pagingPageSize := by
      rw [isPtr, blockAddress_eq_page pool]
      unfold InRun pagingPageSize
      omega
    rw [← isPtr] at run
    have leaf := mapped.2.leaves (page * pagingPageSize)
    rw [pageNumber_page isPage] at leaf
    refine leaf.trans ?_
    by_cases covered : InRun process.paging.alloc start (blocksForSize size) page
    · rw [run.1 covered, if_pos (inRun.mp covered)]
      rfl
    · rw [run.2 covered, if_neg (mt inRun.mpr covered)]
      rfl

/-- `process_allocation_set_map` of the address of a page and the blocks behind it. -/
theorem setMap (ready : ProcessReady process) (aligned : ptr % pagingPageSize = 0)
    (lower : process.paging.alloc.saddr ≤ ptr) (upper : ptr < 2 ^ 50)
    (inside : blocksForSize size = 0 ∨
      (ptr - process.paging.alloc.saddr) / viosHeapBlockSize + blocksForSize size ≤
        process.paging.alloc.table.total)
    (small : size < addressSpace) (inList : index < process.allocations.elems.length) :
    ∃ next, processAllocationSetMap (process.withHeap heap) index ptr size = (0, next) ∧
      SetsMap (process.withHeap heap) next index ptr size := by
  have pool := ready.pool
  have saddrPage := pool.aligned
  have saddrPos := pool.saddr_pos
  have fits := pool.fits
  generalize isStart : (ptr - process.paging.alloc.saddr) / viosHeapBlockSize = start at inside
  have isPtr : ptr = blockAddress process.paging.alloc start := by
    unfold blockAddress viosHeapBlockSize pagingPageSize at *
    omega
  have ending : rangeEnd ptr size = ptr + blocksForSize size * pagingPageSize := by
    refine rangeEnd_pages aligned ?_ small ?_ <;>
      unfold viosHeapBlockSize pagingPageSize at * <;> omega
  obtain ⟨result, only, mappings⟩ := ready.mapRange heap isPtr ending inside
  unfold processAllocationSetMap
  have inList' : ¬ (process.withHeap heap).allocations.elems.length ≤ index := not_le.mpr inList
  simp only [result, lt_irrefl, if_false, only.allocations, if_neg inList']
  exact ⟨_, rfl, rfl, only.alloc, mappings⟩

/-- A change of the table is still seen after the range was mapped. -/
theorem setMap_changes (ready : ProcessReady process)
    (changes : Changes process.paging.alloc heap ptr size) (small : size < addressSpace) (inList : index < process.allocations.elems.length) :
    (processAllocationSetMap (process.withHeap heap) index ptr size).2.paging.alloc.table.entries ≠
      process.paging.alloc.table.entries := by
  rcases changes with ⟨-, ⟨block, before, after⟩ | ⟨lower, upper, inside, changed⟩⟩
  · intro unchanged
    have still : TakenAt (processAllocationSetMap (process.withHeap heap) index ptr size).2.paging.alloc
        block := processAllocationSetMap_taken after
    unfold TakenAt at before still
    rw [unchanged] at still
    exact before still
  · by_cases aligned : ptr % pagingPageSize = 0
    · obtain ⟨next, result, sets⟩ := ready.setMap aligned lower upper (.inr inside) small inList
      rw [result, sets.alloc]
      exact changed
    · rw [(setMap_unaligned aligned).table]
      exact changed

end ProcessReady

/-! ## The call -/

section Call

variable {process : ProcessMemory} {q size : Nat}

theorem krealloc_ofHeap {heap : Heap} {ptr : Nat} (ofHeap : OfHeap heap ptr) :
    krealloc heap ptr size = heapRealloc heap ptr size := if_pos ofHeap

theorem krealloc_outside {heap : Heap} {ptr : Nat} (outside : ¬ OfHeap heap ptr) :
    krealloc heap ptr size = some (heapMalloc heap size) := if_neg outside

/-- The last step of `process_realloc`: what `krealloc` returned is entered at `index`. -/
def entered (process : ProcessMemory) (index size : Nat) : Option (Nat × Heap) → Option (Nat × ProcessMemory)
  | none => none
  | some (ptr, heap) =>
    if ptr = 0 then some (0, process.withHeap heap)
    else some (ptr, (processAllocationSetMap (process.withHeap heap) index ptr size).2)

/-- A pointer that no record has is entered at record 0. -/
theorem processRealloc_unknown (ready : ProcessReady process) (notNull : q ≠ 0)
    (unknown : ∀ a ∈ process.allocations.elems, a.ptr ≠ q) :
    processRealloc process q size =
      if process.allocations.elems = [] then some (0, process)
      else if pagingGetPhysicalAddress process.paging.mem process.desc q = 0 then some (0, process)
      else entered process 0 size
        (krealloc process.paging.alloc (pagingGetPhysicalAddress process.paging.mem process.desc q) size) := by
  have notFound : process.allocations.elems.findIdx? (fun a => a.ptr = q) = none := by
    rw [List.findIdx?_eq_none_iff]
    intro a member
    exact decide_eq_false (unknown a member)
  unfold processRealloc processAllocationExists
  rw [ready.read]
  simp only [notFound]
  by_cases empty : process.allocations.elems = []
  · rw [if_pos empty, if_pos empty]
    rfl
  · rw [if_neg empty, if_neg empty]
    simp only [lt_irrefl, if_false, notNull, ne_eq, not_false_eq_true, true_and]
    split
    · rfl
    · cases krealloc process.paging.alloc
        (pagingGetPhysicalAddress process.paging.mem process.desc q) size with
      | none => rfl
      | some result => rfl

theorem Unchanged.refl (process : ProcessMemory) : Unchanged process process := ⟨rfl, rfl, fun _ _ => rfl⟩

/-- A record that is there is not changed when it is written again. -/
theorem set_eq_self_iff {elems : List ProcessAllocation} {index : Nat} {record : ProcessAllocation}
    (inList : index < elems.length) : elems.set index record = elems ↔ elems[index]? = some record := by
  constructor
  · intro same
    rw [← same, List.getElem?_set_self (by simpa using inList)]
  · intro here
    obtain ⟨inside, isRecord⟩ := List.getElem?_eq_some_iff.mp here
    rw [← isRecord]
    exact List.set_getElem_self inside

/-- The range behind an address of the heap, of as many blocks as the heap counts there. -/
theorem counted_inside {heap : Heap} {ptr start : Nat} (lower : heap.saddr ≤ ptr) (upper : ptr < 2 ^ 63)
    (isStart : (ptr - heap.saddr) / viosHeapBlockSize = start) :
    heapAllocationBlockCount heap ptr = 0 ∨ start + heapAllocationBlockCount heap ptr ≤ heap.table.total := by
  have block := heapAddressToBlock_of_ge lower upper
  rw [isStart] at block
  unfold heapAllocationBlockCount
  simp only [block]
  rw [if_neg (by omega), Int.toNat_natCast]
  have inTable := blockCountLoop_le heap.table.entries (heap.table.total - start) start
  omega

/-- The address stays, and its range is entered at record 0. -/
theorem unchanged_setMap_iff (ready : ProcessReady process) {ptr : Nat}
    (ofHeap : OfHeap process.paging.alloc ptr) (small : size < addressSpace)
    (notEmpty : process.allocations.elems ≠ [])
    (counted : heapAllocationBlockCount process.paging.alloc ptr = blocksForSize size) :
    Unchanged process (processAllocationSetMap process 0 ptr size).2 ↔ SetMapIdle process ptr size := by
  obtain ⟨lower, upper⟩ := ofHeap_bounds ready.pool ofHeap
  by_cases aligned : ptr % pagingPageSize = 0
  · have inList := List.length_pos_iff.mpr notEmpty
    have inside := counted_inside lower (show ptr < 2 ^ 63 by omega) rfl
    rw [counted] at inside
    obtain ⟨next, result, sets⟩ := ready.setMap aligned lower upper inside small inList
    change processAllocationSetMap process 0 ptr size = (0, next) at result
    rw [result]
    constructor
    · intro unchanged
      refine .inr ⟨(set_eq_self_iff inList).mp (sets.records.symm.trans unchanged.records), ?_⟩
      intro page isPage above below
      have mapped := sets.mappings page isPage
      rw [if_pos ⟨above, below⟩] at mapped
      exact (unchanged.mappings page isPage).symm.trans mapped
    · intro idle
      obtain ⟨here, mapped⟩ := idle.resolve_left (not_not.mpr aligned)
      refine ⟨sets.records.trans ((set_eq_self_iff inList).mpr here), by rw [sets.alloc]; rfl, ?_⟩
      intro page isPage
      rw [sets.mappings page isPage]
      by_cases inRange : ptr / pagingPageSize ≤ page ∧ page < rangeEnd ptr size / pagingPageSize
      · rw [if_pos inRange]
        exact (mapped page isPage inRange.1 inRange.2).symm
      · rw [if_neg inRange]
        rfl
  · exact ⟨fun _ => .inl aligned, fun _ => setMap_unaligned aligned⟩

theorem leavesAlone_iff (notNull : q ≠ 0) : LeavesAlone process q size ↔
    ∃ ptr next, processRealloc process q size = some (ptr, next) ∧ Unchanged process next := by
  unfold LeavesAlone
  simp only [notNull, if_false]

/-- The resize of the block behind a pointer that is not the process's own. -/
theorem resized_iff (ready : ProcessReady process) {ptr : Nat} (ptrNotNull : ptr ≠ 0)
    (ofHeap : OfHeap process.paging.alloc ptr) (small : size < addressSpace)
    (notEmpty : process.allocations.elems ≠ []) :
    (∃ new next, entered process 0 size (heapRealloc process.paging.alloc ptr size) = some (new, next) ∧
      Unchanged process next) ↔ NothingToResize process ptr size := by
  obtain ⟨lower, upper⟩ := ofHeap_bounds ready.pool ofHeap
  unfold NothingToResize
  simp only
  by_cases zero : size = 0
  · subst zero
    -- a size of 0 frees the blocks, and nothing is left to be freed when the entry was not taken
    rw [if_pos rfl]
    have block := heapAddressToBlock_of_ge lower (show ptr < 2 ^ 63 by omega)
    obtain ⟨freed, result, same, unchangedIff⟩ := heapMarkBlocksFree_same_iff process.paging.alloc
      ((ptr - process.paging.alloc.saddr) / viosHeapBlockSize)
    rw [← unchangedIff]
    unfold heapRealloc heapFree
    rw [if_neg ptrNotNull, if_pos rfl, block, result]
    constructor
    · rintro ⟨new, next, isResult, unchanged⟩
      obtain ⟨rfl, rfl⟩ := Prod.mk.inj (Option.some.inj isResult)
      exact unchanged.table
    · intro unchanged
      exact ⟨0, process.withHeap freed, rfl, rfl, unchanged, fun _ _ => rfl⟩
  · rw [if_neg zero]
    have outcome := heapRealloc_ofHeap ready.pool ptrNotNull ofHeap zero rfl rfl rfl
    split at outcome
    · -- the number of blocks is right already: only the record is written
      rename_i counted
      have settled := unchanged_setMap_iff ready ofHeap small notEmpty counted
      rw [outcome]
      unfold entered
      simp only [ptrNotNull, if_false, counted, true_and, lt_irrefl, false_and, or_false]
      rw [← settled]
      constructor
      · rintro ⟨new, next, isResult, unchanged⟩
        obtain ⟨rfl, rfl⟩ := Prod.mk.inj (Option.some.inj isResult)
        exact unchanged
      · exact fun unchanged => ⟨_, _, rfl, unchanged⟩
    · rename_i different
      split at outcome
      · rename_i full
        rw [outcome]
        refine iff_of_true ⟨0, process, rfl, .refl process⟩ (.inr full)
      · -- every other outcome of krealloc marks a block
        rename_i changes
        refine iff_of_false ?_ fun nothing => nothing.elim (fun idle => different idle.1) changes
        rintro ⟨new, next, isResult, unchanged⟩
        cases krealloced : heapRealloc process.paging.alloc ptr size with
        | none =>
          rw [krealloced] at isResult
          exact absurd isResult (by simp [entered])
        | some result =>
          obtain ⟨newPtr, heap⟩ := result
          obtain ⟨newNotNull, changed⟩ := outcome newPtr heap krealloced
          rw [krealloced] at isResult
          unfold entered at isResult
          simp only [newNotNull, if_false] at isResult
          obtain ⟨rfl, rfl⟩ := Prod.mk.inj (Option.some.inj isResult)
          exact ready.setMap_changes changed small (List.length_pos_iff.mpr notEmpty) unchanged.table

/-- `heap_malloc` takes blocks, or fails for want of room. -/
theorem heapMalloc_changes {heap : Heap} (pool : Pool heap) (size : Nat) :
    (heapMalloc heap size = (0, heap) ∧ heapGetStartBlock heap (blocksForSize size) < 0) ∨
    (0 ≤ heapGetStartBlock heap (blocksForSize size) ∧ ∃ start heap',
      heapMalloc heap size = (blockAddress heap start, heap') ∧ Taken heap start (blocksForSize size) heap' ∧
        Changes heap heap' (blockAddress heap start) size) := by
  rcases pool.malloc size with failed | ⟨start, heap', result, found, taken⟩
  · exact .inl failed
  · have positive := taken.positive
    refine .inr ⟨by omega, start, heap', result, taken, taken.same, .inl ⟨start, ?_, ?_⟩⟩
    · exact not_taken_of_free (taken.run.free start (Nat.le_refl _) (by omega))
    · exact (taken.taken_iff start).mpr (.inr ⟨Nat.le_refl _, by omega⟩)

/-- A pointer to something that is not the heap's is answered with new memory. -/
theorem allocated_iff (ready : ProcessReady process) (small : size < addressSpace)
    (notEmpty : process.allocations.elems ≠ []) :
    (∃ new next, entered process 0 size (some (heapMalloc process.paging.alloc size)) = some (new, next) ∧
      Unchanged process next) ↔ heapGetStartBlock process.paging.alloc (blocksForSize size) < 0 := by
  rcases heapMalloc_changes ready.pool size with ⟨result, noRoom⟩ | ⟨room, start, heap, result, -, changes⟩
  · rw [result]
    exact iff_of_true ⟨0, process, rfl, .refl process⟩ noRoom
  · rw [result]
    refine iff_of_false ?_ (by omega)
    rintro ⟨new, next, isResult, unchanged⟩
    unfold entered at isResult
    simp only [blockAddress_ne_zero ready.pool start, if_false] at isResult
    obtain ⟨rfl, rfl⟩ := Prod.mk.inj (Option.some.inj isResult)
    exact ready.setMap_changes changes small (List.length_pos_iff.mpr notEmpty) unchanged.table

/-- The null pointer is found in a cleared slot, and taken for that of record 0 when there is none. -/
theorem processRealloc_null (ready : ProcessReady process) (notEmpty : process.allocations.elems ≠ []) :
    ∃ index < process.allocations.elems.length,
      processRealloc process 0 size = entered process index size (some (heapMalloc process.paging.alloc size)) ∧
        if ∃ a ∈ process.allocations.elems, a.ptr = 0 then
          ∀ a, process.allocations.elems[index]? = some a → a.ptr = 0
        else index = 0 := by
  have found : ∀ index, processAllocationExists process.allocations.elems 0 = (0, index) →
      processRealloc process 0 size =
        entered process index size (some (heapMalloc process.paging.alloc size)) := by
    intro index isIndex
    unfold processRealloc
    rw [ready.read]
    simp only [isIndex, lt_irrefl, if_false, if_true, ne_eq, not_true, false_and,
      krealloc_null ready.pool]
    rfl
  unfold processAllocationExists at found
  cases search : process.allocations.elems.findIdx? fun a => a.ptr = 0 with
  | some index =>
    obtain ⟨inList, isNull, -⟩ := List.findIdx?_eq_some_iff_getElem.mp search
    have isNull : process.allocations.elems[index].ptr = 0 := of_decide_eq_true isNull
    rw [search] at found
    refine ⟨index, inList, found index rfl, ?_⟩
    rw [if_pos ⟨_, List.getElem_mem inList, isNull⟩]
    intro a isA
    rw [List.getElem?_eq_getElem inList] at isA
    exact Option.some.inj isA ▸ isNull
  | none =>
    have noneNull := List.findIdx?_eq_none_iff.mp search
    rw [search] at found
    refine ⟨0, List.length_pos_iff.mpr notEmpty, found 0 (if_neg notEmpty), ?_⟩
    rw [if_neg]
    rintro ⟨a, member, isNull⟩
    exact of_decide_eq_false (noneNull a member) isNull

/-- The call for the null pointer. -/
theorem leavesAlone_null_iff (ready : ProcessReady process) (small : size < addressSpace)
    (notEmpty : process.allocations.elems ≠ []) :
    LeavesAlone process 0 size ↔ (∃ a ∈ process.allocations.elems, a.ptr = 0) ∨
      heapGetStartBlock process.paging.alloc (blocksForSize size) < 0 := by
  obtain ⟨index, inList, isEntered, isIndex⟩ := @processRealloc_null _ size ready notEmpty
  unfold LeavesAlone
  rw [isEntered]
  simp only [if_true]
  rcases heapMalloc_changes ready.pool size with ⟨result, noRoom⟩ | ⟨room, start, heap, result, taken, -⟩
  · rw [result]
    exact iff_of_true ⟨0, process, rfl, fun _ _ here _ => here, fun _ _ => rfl, fun _ _ _ => rfl⟩
      (.inr noRoom)
  have inside := taken.inside
  have bound := ready.pool.blockAddress_lt (show start ≤ process.paging.alloc.table.total by omega)
  have aligned : blockAddress process.paging.alloc start % pagingPageSize = 0 := by
    rw [blockAddress_eq_page ready.pool]
    exact Nat.mul_mod_left _ _
  obtain ⟨next, written, sets⟩ := @ProcessReady.setMap _ heap _ _ _ ready aligned (Nat.le_add_right _ _)
    (show blockAddress process.paging.alloc start < 2 ^ 50 by omega)
    (.inr (by rw [blockOf_blockAddress]; exact inside)) small inList
  have isResult : entered process index size (some (heapMalloc process.paging.alloc size)) =
      some (blockAddress process.paging.alloc start, next) := by
    rw [result]
    unfold entered
    simp only [blockAddress_ne_zero ready.pool start, if_false]
    rw [written]
  rw [isResult]
  by_cases cleared : ∃ a ∈ process.allocations.elems, a.ptr = 0
  · rw [if_pos cleared] at isIndex
    refine iff_of_true ⟨_, _, rfl, ?_, ?_, ?_⟩ (.inl cleared)
    · intro i a here live
      rw [sets.records]
      by_cases same : i = index
      · exact absurd (isIndex a (same ▸ here)) live
      · exact (List.getElem?_set_ne (Ne.symm same)).trans here
    · intro block isTaken
      rw [sets.alloc]
      refine (taken.marked block).trans (if_neg fun inRun => ?_)
      exact not_taken_of_free (taken.run.free block inRun.1 inRun.2) isTaken
    · intro page isPage outside
      rw [sets.mappings page isPage, if_neg (by have := blockAddress_ne_zero ready.pool start; omega)]
      rfl
  · rw [if_neg cleared] at isIndex
    subst isIndex
    refine iff_of_false ?_ (not_or.mpr ⟨cleared, by omega⟩)
    rintro ⟨_, _, same, adds⟩
    obtain ⟨rfl, rfl⟩ := Prod.mk.inj (Option.some.inj same)
    have member := List.getElem_mem inList
    have live := fun isNull => cleared ⟨_, member, isNull⟩
    have kept := adds.records 0 _ (List.getElem?_eq_getElem inList) live
    rw [sets.records, List.getElem?_set_self (show 0 < (process.withHeap heap).allocations.elems.length
      from inList)] at kept
    -- record 0 now has the new block, which was free, and had a taken one
    obtain ⟨block, isBlock, isTaken⟩ := ready.records _ member live
    rw [← Option.some.inj kept] at isBlock
    obtain rfl := blockAddress_inj isBlock
    exact not_taken_of_free (taken.run.free start (Nat.le_refl _) (by have := taken.positive; omega)) isTaken

theorem leavesAlone_of_empty (ready : ProcessReady process) (empty : process.allocations.elems = []) :
    LeavesAlone process q size := by
  have refused : processRealloc process q size = some (0, process) := by
    unfold processRealloc processAllocationExists
    rw [ready.read, empty]
    rfl
  refine ⟨0, process, refused, ?_⟩
  split
  · exact ⟨fun _ _ here _ => here, fun _ _ => rfl, fun _ _ _ => rfl⟩
  · exact .refl process

/-- `process_realloc` of a pointer that is not the start of a live allocation of the process leaves the
process alone just when the call does no harm. -/
theorem processRealloc_unknown_iff (process : ProcessMemory) (ready : ProcessReady process) (q size : Nat)
    (small : size < addressSpace)
    (unknown : ∀ a ∈ process.allocations.elems, a.ptr ≠ 0 → a.ptr ≠ q) :
    LeavesAlone process q size ↔ ReallocHarmless process q size := by
  unfold ReallocHarmless
  simp only
  by_cases empty : process.allocations.elems = []
  · exact iff_of_true (leavesAlone_of_empty ready empty) (.inl empty)
  rw [or_iff_right empty]
  by_cases null : q = 0
  · subst null
    rw [if_pos rfl]
    exact leavesAlone_null_iff ready small empty
  rw [if_neg null, leavesAlone_iff null, processRealloc_unknown ready null, if_neg empty]
  · by_cases untranslated : pagingGetPhysicalAddress process.paging.mem process.desc q = 0
    · rw [if_pos untranslated]
      exact iff_of_true ⟨0, process, rfl, .refl process⟩ (.inl untranslated)
    rw [if_neg untranslated, or_iff_right untranslated]
    by_cases ofHeap : OfHeap process.paging.alloc (pagingGetPhysicalAddress process.paging.mem process.desc q)
    · rw [krealloc_ofHeap ofHeap, resized_iff ready untranslated ofHeap small empty]
      simp only [ofHeap, true_and, not_true, false_and, or_false]
    · rw [krealloc_outside ofHeap, allocated_iff ready small empty]
      simp only [ofHeap, false_and, not_false_eq_true, true_and, false_or]
  · intro a member isQ
    exact unknown a member (isQ ▸ null) isQ

end Call

/-- A process whose calls so far were those of `MemoryOp.Keeps` is ready. -/
theorem MemoryInv.ready {process : ProcessMemory} (inv : MemoryInv process) : ProcessReady process where
  pool := inv.held.pool
  tree := inv.pages.tree
  tables := inv.pages.tables
  read := inv.held.read_eq
  records := by
    intro a member live
    rcases inv.held.records a member with rfl | ⟨start, record⟩
    · exact absurd rfl live
    · have positive := record.run.positive
      exact ⟨start, record.ptr, record.run.taken start (Nat.le_refl _) (by omega)⟩

/-- One page is allocated. -/
theorem afterMalloc_inv : MemoryInv (afterMalloc smallProcess 4096) := by
  have result : processMalloc smallProcess 4096 = some (0x10000, afterMalloc smallProcess 4096) :=
    eq_stateAfter (by decide +kernel)
  refine (MemoryInv.of_start smallProcess_start).malloc (by decide) (fun _ _ _ => ?_) result
  change 0 ≤ heapGetStartBlock _ _
  decide +kernel

/-- The null pointer is reallocated when the only slot holds a live record. -/
theorem nullRealloc_overwrites :
    ¬ ∀ (process : ProcessMemory) (q size : Nat), ProcessReady process → size < addressSpace →
      (∀ a ∈ process.allocations.elems, a.ptr ≠ 0 → a.ptr ≠ q) → LeavesAlone process q size := by
  intro all
  obtain ⟨ptr, next, result, adds⟩ := all (afterMalloc smallProcess 4096) 0 4096 afterMalloc_inv.ready
    (by decide) fun _ _ live => live
  rw [if_pos rfl] at adds
  have kept := adds.records 0 ⟨0x10000, 0x11000, 4096⟩ (by decide +kernel) (by decide)
  have overwritten : (stateAfter (afterMalloc smallProcess 4096)
      (processRealloc (afterMalloc smallProcess 4096) 0 4096)).allocations.elems[0]? =
        some ⟨0x12000, 0x13000, 4096⟩ := by decide +kernel
  rw [result] at overwritten
  exact absurd (kept.symm.trans overwritten) (by decide)

/-- The same call when the page was freed before: the cleared slot takes the new record. -/
theorem nullRealloc_adds :
    LeavesAlone (afterFree (afterMalloc smallProcess 4096) 0x10000) 0 4096 := by
  have found : (processFree (afterMalloc smallProcess 4096) 0x10000).isSome := by decide +kernel
  obtain ⟨next, result⟩ := Option.isSome_iff_exists.mp found
  have isNext : afterFree (afterMalloc smallProcess 4096) 0x10000 = next := by
    unfold afterFree
    rw [result]
    rfl
  have inv : MemoryInv (afterFree (afterMalloc smallProcess 4096) 0x10000) :=
    isNext ▸ afterMalloc_inv.free result
  refine (processRealloc_unknown_iff _ inv.ready 0 4096 (by decide) fun _ _ live => live).mpr (.inr ?_)
  rw [if_pos rfl]
  exact .inl ⟨.cleared, by decide +kernel, rfl⟩

end ViOS.Process
