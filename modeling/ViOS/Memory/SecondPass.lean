import ViOS.Memory.HeapChains
import ViOS.Memory.PagingReady

/-! # The second pass

`multiheap_alloc_second_pass` takes addresses from a paging heap when the heap behind it
counts enough free blocks, and then takes the blocks one at a time.  Between two of them
it calls `paging_map`, which may need memory itself.  After `multiheap_ready` it needs
none: the page tables are there, so that the blocks that were counted are all left for
the loop.

* `heapZalloc_block` — one block of a heap that has one.
* `MapsBlocks`, `mapBlocksLoop_spec` — the loop.
* `allocPagingLoop_cases` — the choice of the heap.
* `secondPass_served` — the second pass in any state after `multiheap_ready`.
-/

namespace ViOS.Memory

open ViOS.Lib

/-! ## One block -/

/-- The block is taken, and no other entry of the table changes. -/
structure TakesBlock (heap : Heap) (block : Nat) (heap' : Heap) : Prop where
  inTable : block < heap.table.total
  free : ¬ UsedAt heap block
  used : UsedAt heap' block
  kept : ∀ j, j ≠ block → heap'.table.entries j = heap.table.entries j

theorem exists_free {heap : Heap} (some : 0 < freeEntries heap) : ∃ block, FreeAt heap 1 block := by
  obtain ⟨block, member⟩ := Finset.card_pos.mp some
  obtain ⟨inTable, free⟩ := Finset.mem_filter.mp member
  refine ⟨block, Finset.mem_range.mp inTable, fun j lower upper => ?_⟩
  obtain rfl : j = block := by omega
  exact free

theorem freeEntries_pos {heap : Heap} {block : Nat} (inTable : block < heap.table.total)
    (free : ¬ UsedAt heap block) : 0 < freeEntries heap :=
  Finset.card_pos.mpr ⟨block, Finset.mem_filter.mpr ⟨Finset.mem_range.mpr inTable, not_not.mp free⟩⟩

/-- Only the table decides which block was taken. -/
theorem TakesBlock.of_table {heap heap' heap'' : Heap} {block : Nat} (takes : TakesBlock heap block heap')
    (same : heap''.table = heap'.table) : TakesBlock heap block heap'' where
  inTable := takes.inTable
  free := takes.free
  used := by
    have used := takes.used
    unfold UsedAt at used ⊢
    rwa [same]
  kept := by
    rw [same]
    exact takes.kept

theorem TakesBlock.not_used {heap heap' : Heap} {taken block : Nat} (takes : TakesBlock heap taken heap')
    (free : ¬ UsedAt heap block) (other : block ≠ taken) : ¬ UsedAt heap' block := by
  unfold UsedAt at free ⊢
  rwa [takes.kept block other]

/-- `heap_malloc` of one block succeeds while the heap has a free one. -/
theorem heapMalloc_block {heap : Heap} (range : PoolRange heap) (saddrPos : 0 < heap.saddr)
    (some : 0 < freeEntries heap) : ∃ block,
      (heapMalloc heap viosHeapBlockSize).1 = blockAddress heap block ∧
      (heapMalloc heap viosHeapBlockSize).1 ≠ 0 ∧
      TakesBlock heap block (heapMalloc heap viosHeapBlockSize).2 ∧
      freeEntries heap = freeEntries (heapMalloc heap viosHeapBlockSize).2 + 1 := by
  have fits : heap.saddr + heap.table.total * viosHeapBlockSize ≤ addressSpace := by
    have := range.low
    have := range.eaddr_eq
    omega
  have one : ceilBlocks viosHeapBlockSize = 1 := by decide
  obtain ⟨block, least, notNull, allocates⟩ := (heapMalloc_firstFit heap viosHeapBlockSize (by decide)
    saddrPos fits).1 ⟨by decide, by rw [one]; exact exists_free some⟩
  rw [one] at least allocates
  have inTable := least.1.1
  have total : (heapMalloc heap viosHeapBlockSize).2.table.total = heap.table.total :=
    (samePool_heapMalloc heap viosHeapBlockSize).total
  have marked := allocates.taken block (Nat.le_refl _) (Nat.lt_succ_self _)
  have free := least.1.2 block (Nat.le_refl _) (Nat.lt_succ_self _)
  refine ⟨block, allocates.ptr, ?_, ⟨inTable, not_not.mpr free, ?_, fun j other => ?_⟩, ?_⟩
  · rw [allocates.ptr]
    exact notNull
  · unfold UsedAt
    rw [marked]
    decide
  · exact allocates.kept j (by omega)
  · refine (@counts_take heap _ block 1 total inTable ?_ least.1.2 allocates.taken).2
    intro j _ outside
    rw [allocates.kept j outside]

/-- `heap_zalloc` of one block succeeds while the heap has a free one. -/
theorem heapZalloc_block {heap : Heap} (range : PoolRange heap) (saddrPos : 0 < heap.saddr)
    (some : 0 < freeEntries heap) : ∃ block,
      (heapZalloc heap viosHeapBlockSize).1 = blockAddress heap block ∧
      TakesBlock heap block (heapZalloc heap viosHeapBlockSize).2 ∧
      freeEntries heap = freeEntries (heapZalloc heap viosHeapBlockSize).2 + 1 := by
  obtain ⟨block, ptr, served, takes, counts⟩ := heapMalloc_block range saddrPos some
  have same := heapZalloc_table heap viosHeapBlockSize
  refine ⟨block, ?_, takes.of_table same, ?_⟩
  · simp only [heapZalloc, if_neg served]
    exact ptr
  · rw [counts, freeEntries, freeEntries, same]

/-! ## One page -/

/-- What a page of the second pass is mapped to. -/
def blockMapping (heap : Heap) (block : Nat) : Mapping :=
  mappingOf (blockAddress heap block / pagingPageSize) (pagingIsWriteable ||| pagingIsPresent)

/-- One block of the heap is taken and the page mapped to it; no other memory is taken, and no
other page changes. -/
structure MapsBlock (desc : PagingDesc) (name addr : Nat) (before after : KernelMemory) (block : Nat) :
    Prop where
  keeps : Keeps before.alloc after.alloc
  takes : TakesBlock (before.alloc.heapAt name) block (after.alloc.heapAt name)
  counts : freeEntries (before.alloc.heapAt name) = freeEntries (after.alloc.heapAt name) + 1
  others : ∀ other, other ≠ name → after.alloc.heapAt other = before.alloc.heapAt other
  grows : Grows Frames InUse desc.pml before after
  leaves : ∀ virt, leafMapping (leafOf after.mem desc.pml virt) =
    if pageNumber virt = pageNumber addr then blockMapping (before.alloc.heapAt name) block
    else leafMapping (leafOf before.mem desc.pml virt)

/-- One round of the loop.  The page has a table, so that `paging_map` takes no memory. -/
theorem mapBlock_spec {desc : PagingDesc} {name addr : Nat} {memory : KernelMemory}
    (inv : PagingInv Frames InUse desc.pml memory) (listed : name ∈ memory.alloc.names)
    (some : 0 < freeEntries (memory.alloc.heapAt name)) (there : HasTable memory.mem desc.pml addr) :
    (memory.alloc.zalloc name viosHeapBlockSize).1 ≠ 0 ∧ ∃ block,
      MapsBlock desc name addr memory (pagingMap multiheapAlloc desc addr
        (memory.alloc.zalloc name viosHeapBlockSize).1 (pagingIsWriteable ||| pagingIsPresent)
        { memory with alloc := (memory.alloc.zalloc name viosHeapBlockSize).2 }).2 block := by
  obtain ⟨-, range, mappable⟩ := inv.allocValid.node listed
  obtain ⟨block, ptr, takes, counts⟩ := heapZalloc_block range mappable.saddr_pos some
  obtain ⟨-, small, notNull⟩ := inv.allocValid.frame listed takes.inTable
  have kept := Keeps.zalloc memory.alloc name viosHeapBlockSize
  have ptrEq : (memory.alloc.zalloc name viosHeapBlockSize).1 = blockAddress (memory.alloc.heapAt name) block :=
    ptr
  have grows := Grows.of_alloc inv (inv.allocValid.keeps kept) fun address used =>
    used.zalloc inv.allocValid name viosHeapBlockSize
  have remaps := @pagingMap_mapped _ multiheapAlloc _ desc addr (blockAddress (memory.alloc.heapAt name) block)
    (pagingIsWriteable ||| pagingIsPresent) _ grows.inv.tree there
  have stored : (memory.alloc.zalloc name viosHeapBlockSize).2.heapAt name =
      (heapZalloc (memory.alloc.heapAt name) viosHeapBlockSize).2 := Function.update_self _ _ _
  rw [ptrEq]
  refine ⟨notNull, block, ?_⟩
  constructor
  case keeps =>
    rw [remaps.alloc]
    exact kept
  case takes =>
    rw [remaps.alloc, stored]
    exact takes
  case counts =>
    rw [remaps.alloc, stored]
    exact counts
  -- the call of paging_map finds every table, so no heap but this one changes
  case others =>
    intro other different
    rw [remaps.alloc]
    exact Function.update_of_ne different _ _
  case grows =>
    refine ⟨⟨?_, ?_⟩, fun virt reached => ?_⟩
    · rw [remaps.alloc]
      exact remaps.tree
    · rw [remaps.alloc]
      exact inv.allocValid.keeps kept
    · unfold HasTable
      rw [remaps.tables _ (by simp [wordOf])]
      exact reached
  case leaves =>
    intro virt
    rw [remaps.leaves, blockMapping, addressField_eq small]
    split_ifs <;> rfl

/-! ## The loop -/

/-- As many blocks, all of them different, are taken, and no other entry of the table changes. -/
structure TakesBlocks (heap : Heap) (count : Nat) (block : Nat → Nat) (heap' : Heap) : Prop where
  inTable : ∀ i < count, block i < heap.table.total
  distinct : ∀ i < count, ∀ j < count, block i = block j → i = j
  free : ∀ i < count, ¬ UsedAt heap (block i)
  used : ∀ i < count, UsedAt heap' (block i)
  kept : ∀ j, (∀ i < count, block i ≠ j) → heap'.table.entries j = heap.table.entries j

/-- The pages from `addr` on are mapped to as many blocks of the heap; no other memory is taken, and
no other page changes. -/
structure MapsBlocks (desc : PagingDesc) (name addr count : Nat) (before after : KernelMemory)
    (block : Nat → Nat) : Prop where
  takes : TakesBlocks (before.alloc.heapAt name) count block (after.alloc.heapAt name)
  others : ∀ other, other ≠ name → after.alloc.heapAt other = before.alloc.heapAt other
  pages : ∀ i < count, leafMapping (leafOf after.mem desc.pml (addr + i * pagingPageSize)) =
    blockMapping (before.alloc.heapAt name) (block i)
  otherPages : ∀ virt, (∀ i < count, pageNumber virt ≠ pageNumber (addr + i * pagingPageSize)) →
    leafMapping (leafOf after.mem desc.pml virt) = leafMapping (leafOf before.mem desc.pml virt)

/-- The first block, then the others. -/
def consBlock (first : Nat) (rest : Nat → Nat) : Nat → Nat
  | 0 => first
  | i + 1 => rest i

theorem TakesBlock.cons {heap middle heap' : Heap} {count first : Nat} {rest : Nat → Nat}
    (one : TakesBlock heap first middle) (more : TakesBlocks middle count rest heap')
    (total : middle.table.total = heap.table.total) :
    TakesBlocks heap (count + 1) (consBlock first rest) heap' := by
  -- the first block was taken when the others were free
  have notFirst : ∀ i < count, rest i ≠ first := fun i small same => more.free i small (same ▸ one.used)
  constructor
  case inTable =>
    intro i small
    cases i with
    | zero => exact one.inTable
    | succ i => exact total ▸ more.inTable i (by omega)
  case distinct =>
    intro i small j small' same
    cases i with
    | zero =>
      cases j with
      | zero => rfl
      | succ j => exact absurd same.symm (notFirst j (by omega))
    | succ i =>
      cases j with
      | zero => exact absurd same (notFirst i (by omega))
      | succ j => rw [more.distinct i (by omega) j (by omega) same]
  case free =>
    intro i small
    cases i with
    | zero => exact one.free
    | succ i =>
      have free := more.free i (by omega)
      unfold UsedAt at free ⊢
      rwa [one.kept _ (notFirst i (by omega))] at free
  case used =>
    intro i small
    cases i with
    | zero =>
      have used := one.used
      unfold UsedAt at used ⊢
      rwa [consBlock, more.kept first notFirst]
    | succ i => exact more.used i (by omega)
  case kept =>
    intro j other
    rw [more.kept j fun i small => other (i + 1) (by omega)]
    exact one.kept j (other 0 (by omega)).symm

theorem pageNumber_ne {addr i j : Nat} (different : i ≠ j) (small : i < 2 ^ 36) (small' : j < 2 ^ 36) :
    pageNumber (addr + i * pagingPageSize) ≠ pageNumber (addr + j * pagingPageSize) := by
  unfold pageNumber pagingPageSize
  omega

theorem blockMapping_same {heap heap' : Heap} (same : SamePool heap heap') (block : Nat) :
    blockMapping heap' block = blockMapping heap block := by
  rw [blockMapping, blockMapping, blockAddress, blockAddress, same.saddr]

/-- A page and the pages behind it. -/
theorem MapsBlock.cons {desc : PagingDesc} {name addr count first : Nat} {before middle after : KernelMemory}
    {rest : Nat → Nat} (one : MapsBlock desc name addr before middle first)
    (more : MapsBlocks desc name (addr + pagingPageSize) count middle after rest)
    (named : name < before.alloc.created) (short : count + 1 ≤ 2 ^ 36) :
    MapsBlocks desc name addr (count + 1) before after (consBlock first rest) := by
  have pool := one.keeps.pools name named
  have shift : ∀ i, addr + pagingPageSize + i * pagingPageSize = addr + (i + 1) * pagingPageSize := by
    intro i
    unfold pagingPageSize
    omega
  constructor
  case takes => exact one.takes.cons more.takes pool.total
  case others =>
    intro other different
    rw [more.others other different, one.others other different]
  case pages =>
    intro i small
    cases i with
    | zero =>
      rw [Nat.zero_mul, Nat.add_zero]
      have untouched := more.otherPages addr fun i small => by
        rw [shift]
        have different := @pageNumber_ne addr 0 (i + 1) (by omega) (by decide) (by omega)
        rwa [Nat.zero_mul, Nat.add_zero] at different
      rw [untouched, one.leaves, if_pos rfl]
      rfl
    | succ i =>
      rw [← shift, more.pages i (by omega), blockMapping_same pool]
      rfl
  case otherPages =>
    intro virt outside
    have notFirstPage : pageNumber virt ≠ pageNumber addr := by
      have different := outside 0 (by omega)
      rwa [Nat.zero_mul, Nat.add_zero] at different
    rw [more.otherPages virt fun i small => by rw [shift]; exact outside (i + 1) (by omega), one.leaves,
      if_neg notFirstPage]

/-- The loop ends without the panic when the heap has the blocks. -/
theorem mapBlocksLoop_spec {desc : PagingDesc} {name : Nat} (rest : Nat) :
    ∀ {addr : Nat} {memory : KernelMemory}, PagingInv Frames InUse desc.pml memory →
      name ∈ memory.alloc.names → rest ≤ freeEntries (memory.alloc.heapAt name) →
      addr + rest * viosHeapBlockSize < addressSpace → rest ≤ 2 ^ 36 →
      (∀ i < rest, HasTable memory.mem desc.pml (addr + i * pagingPageSize)) →
      ∃ after block, mapBlocksLoop desc name rest addr memory = some after ∧
        MapsBlocks desc name addr rest memory after block ∧
        Keeps memory.alloc after.alloc ∧ Grows Frames InUse desc.pml memory after := by
  induction rest with
  | zero =>
    intro addr memory inv _ _ _ _ _
    have takes : TakesBlocks (memory.alloc.heapAt name) 0 (fun _ => 0) (memory.alloc.heapAt name) := by
      constructor
      case kept => exact fun _ _ => rfl
      all_goals exact fun i small => absurd small (Nat.not_lt_zero i)
    exact ⟨memory, fun _ => 0, rfl, ⟨takes, fun _ _ => rfl, fun i small => absurd small (Nat.not_lt_zero i),
      fun _ _ => rfl⟩, .refl _, .refl inv⟩
  | succ rest ih =>
    intro addr memory inv listed enough fits short there
    have here := there 0 (Nat.succ_pos rest)
    rw [Nat.zero_mul, Nat.add_zero] at here
    obtain ⟨notNull, first, one⟩ := mapBlock_spec inv listed (by omega) here
    have next : (addr + viosHeapBlockSize) % addressSpace = addr + pagingPageSize := by
      unfold pagingPageSize
      unfold viosHeapBlockSize at *
      exact Nat.mod_eq_of_lt (by omega)
    obtain ⟨after, blocks, looped, more, kept, grows⟩ := @ih (addr + pagingPageSize) _ one.grows.inv
      (one.keeps.sameHeaps.sameNames.symm ▸ listed) (by have := one.counts; omega)
      (by unfold pagingPageSize; unfold viosHeapBlockSize at *; omega) (by omega) fun i small => by
        have later := one.grows.tables _ (there (i + 1) (by omega))
        rwa [Nat.succ_mul, Nat.add_comm _ pagingPageSize, ← Nat.add_assoc] at later
    refine ⟨after, consBlock first blocks, ?_, one.cons more (inv.allocValid.node listed).1 short,
      one.keeps.trans kept, one.grows.trans grows⟩
    rw [mapBlocksLoop]
    simp only [if_neg notNull, next]
    exact looped

/-! ## The choice of the heap -/

theorem Heaps.set_self (heaps : Heaps) (name : Nat) : heaps.set name (heaps.heapAt name) = heaps := by
  rw [Heaps.set, Function.update_eq_self]

/-- The heap the entry points to as its paging heap. -/
structure PagingHeapOf (heaps : Heaps) (node : MultiheapSingleHeap) (name : Nat) : Prop where
  pointer : node.pagingHeap = some name
  shifted : Shifted heaps.multiheap.maxEndDataAddr (heaps.heapAt node.heap) (heaps.heapAt name)
  range : (heaps.heapAt name).eaddr =
    (heaps.heapAt name).saddr + (heaps.heapAt name).table.total * viosHeapBlockSize
  low : (heaps.heapAt name).eaddr < addressSpace
  saddr_pos : 0 < (heaps.heapAt name).saddr
  apart : name ∉ heaps.names

theorem Ready.pagingHeapOf {heaps : Heaps} (ready : Ready heaps) (frames : Frames heaps)
    {node : MultiheapSingleHeap} (member : node ∈ heaps.multiheap.heaps)
    (allows : multiheapHeapAllowsPaging node = true) : ∃ name, PagingHeapOf heaps node name := by
  obtain ⟨name, pointer, -, shifted⟩ := ready.paging node member allows
  have range := (frames.ok.ranges node member).eaddr_eq
  have above := ready.above node member
  have low := ready.low
  have positive := (frames.mappable _ (List.mem_map_of_mem member)).saddr_pos
  refine ⟨name, pointer, shifted, ?_, ?_, ?_, fun listed => ?_⟩
  · rw [shifted.eaddr, shifted.saddr, shifted.total, range, Nat.add_assoc]
  · rw [shifted.eaddr]
    omega
  · rw [shifted.saddr]
    omega
  · -- a paging heap starts above the end of every heap of the list
    obtain ⟨other, otherMember, same⟩ := List.mem_map.mp listed
    have ordered := (frames.ok.ranges other otherMember).ordered
    have otherAbove := ready.above other otherMember
    rw [same, shifted.saddr] at ordered
    rw [same] at otherAbove
    omega

/-- An allocation of a paging heap that fails changes nothing. -/
theorem PagingHeapOf.malloc_failed {heaps : Heaps} {node : MultiheapSingleHeap} {name size : Nat}
    (paging : PagingHeapOf heaps node name) (failed : (heaps.malloc name size).1 = 0) :
    (heaps.malloc name size).2 = heaps := by
  rcases heapMalloc_cases (heaps.heapAt name) size with ⟨none, -⟩ | ⟨start, _, _, -, positive, -, inside, -, result⟩
  · change heaps.set name (heapMalloc (heaps.heapAt name) size).2 = heaps
    rw [none]
    exact heaps.set_self name
  · have inRange := blockToAddress_mem paging.range paging.low (show start < _ by omega)
    have ptr : (heaps.malloc name size).1 = heapBlockToAddress (heaps.heapAt name) start := congrArg Prod.fst result
    rw [← ptr, failed] at inRange
    have saddrPos := paging.saddr_pos
    have lower := inRange.1
    omega

/-- The loop takes addresses of a paging heap behind which enough blocks were counted, or nothing. -/
theorem allocPagingLoop_cases {heaps : Heaps} (ready : Ready heaps) (frames : Frames heaps) (size required : Nat)
    (nodes : List MultiheapSingleHeap) (listed : ∀ node ∈ nodes, node ∈ heaps.multiheap.heaps) :
    allocPagingLoop size required nodes heaps = some (0, none, heaps) ∨
    ∃ owner ∈ nodes, ∃ name, multiheapHeapAllowsPaging owner = true ∧ PagingHeapOf heaps owner name ∧
      required ≤ (heaps.heapAt owner.heap).freeBlocks ∧ (heaps.malloc name size).1 ≠ 0 ∧
      allocPagingLoop size required nodes heaps =
        some ((heaps.malloc name size).1, some owner, (heaps.malloc name size).2) := by
  induction nodes with
  | nil => exact .inl rfl
  | cons current rest ih =>
    -- the next entry, when this one does not serve
    have skip : allocPagingLoop size required (current :: rest) heaps = allocPagingLoop size required rest heaps →
        allocPagingLoop size required (current :: rest) heaps = some (0, none, heaps) ∨
        ∃ owner ∈ current :: rest, ∃ name, multiheapHeapAllowsPaging owner = true ∧
          PagingHeapOf heaps owner name ∧ required ≤ (heaps.heapAt owner.heap).freeBlocks ∧
          (heaps.malloc name size).1 ≠ 0 ∧ allocPagingLoop size required (current :: rest) heaps =
            some ((heaps.malloc name size).1, some owner, (heaps.malloc name size).2) := by
      intro same
      rw [same]
      cases ih fun node member => listed node (List.mem_cons_of_mem _ member) with
      | inl none => exact .inl none
      | inr found =>
        obtain ⟨owner, member, served⟩ := found
        exact .inr ⟨owner, List.mem_cons_of_mem _ member, served⟩
    cases allows : multiheapHeapAllowsPaging current with
    | false =>
      apply skip
      rw [allocPagingLoop, allows]
      rfl
    | true =>
      obtain ⟨name, paging⟩ := ready.pagingHeapOf frames (listed current List.mem_cons_self) allows
      by_cases few : (heaps.heapAt current.heap).freeBlocks < required
      · apply skip
        rw [allocPagingLoop, allows, if_neg (by decide), if_pos few]
      · have reached : allocPagingLoop size required (current :: rest) heaps =
            if (heaps.malloc name size).1 ≠ 0 then
              some ((heaps.malloc name size).1, some current, (heaps.malloc name size).2)
            else allocPagingLoop size required rest (heaps.malloc name size).2 := by
          rw [allocPagingLoop, allows, if_neg (by decide), if_neg few]
          simp only [paging.pointer]
        by_cases failed : (heaps.malloc name size).1 = 0
        · apply skip
          rw [reached, if_neg (not_not.mpr failed), paging.malloc_failed failed]
        · rw [reached, if_pos failed]
          exact .inr ⟨current, List.mem_cons_self, name, allows, paging, Nat.le_of_not_lt few, failed, rfl⟩

/-! ## The second pass -/

/-- The allocation took a run of a paging heap, and mapped each of its pages to a block of its own of
the heap behind it.  Nothing else was taken of any heap. -/
structure ServedBy (desc : PagingDesc) (size ptr : Nat) (before after : KernelMemory)
    (owner : MultiheapSingleHeap) (paging : Nat) (block : Nat → Nat) : Prop where
  listed : owner ∈ before.alloc.multiheap.heaps
  allows : multiheapHeapAllowsPaging owner = true
  pagingHeap : owner.pagingHeap = some paging
  run : heapMalloc (before.alloc.heapAt paging) (heapAlignValueToUpper size) =
    (ptr, after.alloc.heapAt paging)
  takes : TakesBlocks (before.alloc.heapAt owner.heap) (blocksForSize size) block
    (after.alloc.heapAt owner.heap)
  others : ∀ other, other ≠ owner.heap → other ≠ paging →
    after.alloc.heapAt other = before.alloc.heapAt other
  pages : ∀ i < blocksForSize size,
    (hardwareWalk after.mem desc.pml (ptr + i * pagingPageSize)).map Prod.snd =
      some (blockMapping (before.alloc.heapAt owner.heap) (block i))

theorem blocksForSize_align (size : Nat) : blocksForSize (heapAlignValueToUpper size) = blocksForSize size := by
  have aligned : heapAlignValueToUpper size % viosHeapBlockSize = 0 := by
    unfold heapAlignValueToUpper viosHeapBlockSize addressSpace
    split
    · assumption
    · omega
  unfold blocksForSize
  rw [heapAlignValueToUpper, if_pos aligned]

/-- The run of a paging heap has its page tables, and there are no more than a table has entries. -/
theorem PagingReady.run_tables {desc : PagingDesc} {memory : KernelMemory} (ready : PagingReady desc memory)
    {owner : MultiheapSingleHeap} {name size : Nat} (member : owner ∈ memory.alloc.multiheap.heaps)
    (allows : multiheapHeapAllowsPaging owner = true) (paging : PagingHeapOf memory.alloc owner name)
    (served : (memory.alloc.malloc name size).1 ≠ 0) :
    (memory.alloc.malloc name size).1 + blocksForSize size * viosHeapBlockSize < addressSpace ∧
      blocksForSize size ≤ 2 ^ 36 ∧ ∀ i < blocksForSize size,
        HasTable memory.mem desc.pml ((memory.alloc.malloc name size).1 + i * pagingPageSize) := by
  rcases heapMalloc_cases (memory.alloc.heapAt name) size with
    ⟨failed, -⟩ | ⟨start, _, _, -, positive, -, inside, -, result⟩
  · exact absurd (congrArg Prod.fst failed) served
  · have range := paging.range
    have low := paging.low
    have total := paging.shifted.total
    have few := (ready.inv.allocValid.mappable _ (List.mem_map_of_mem member)).total_lt
    have ptr : (memory.alloc.malloc name size).1 =
        (memory.alloc.heapAt name).saddr + start * viosHeapBlockSize := by
      have address : (memory.alloc.malloc name size).1 = heapBlockToAddress (memory.alloc.heapAt name) start :=
        congrArg Prod.fst result
      rw [address, heapBlockToAddress]
      refine Nat.mod_eq_of_lt ?_
      unfold viosHeapBlockSize at *
      omega
    rw [ptr]
    refine ⟨?_, by omega, fun i small => ?_⟩
    · unfold viosHeapBlockSize at *
      omega
    · have there := ready.tables owner member allows (start + i) (by omega)
      have same : memory.alloc.multiheap.maxEndDataAddr +
          blockAddress (memory.alloc.heapAt owner.heap) (start + i) =
          (memory.alloc.heapAt name).saddr + start * viosHeapBlockSize + i * pagingPageSize := by
        rw [paging.shifted.saddr]
        unfold blockAddress viosHeapBlockSize pagingPageSize
        omega
      rwa [same] at there

/-- The second pass in a ready state whose counters are right: it returns, and the state is ready. -/
theorem PagingReady.secondPass {desc : PagingDesc} {memory : KernelMemory} (ready : PagingReady desc memory)
    (counted : ∀ node ∈ memory.alloc.multiheap.heaps,
      (memory.alloc.heapAt node.heap).freeBlocks = freeEntries (memory.alloc.heapAt node.heap)) (size : Nat) :
    ∃ ptr after, multiheapAllocSecondPass (some desc) memory size = some (ptr, after) ∧
      PagingReady desc after ∧ (ptr = 0 ∧ after = memory ∨
        ptr ≠ 0 ∧ ∃ owner paging block, ServedBy desc size ptr memory after owner paging block) := by
  have frames := ready.inv.allocValid
  cases allocPagingLoop_cases ready.ready frames (heapAlignValueToUpper size) (blocksForSize size)
      memory.alloc.multiheap.heaps fun _ => id with
  | inl none =>
    refine ⟨0, memory, ?_, ready, .inl ⟨rfl, rfl⟩⟩
    have nothing : multiheapAllocPaging memory.alloc (heapAlignValueToUpper size) = some (0, .none, memory.alloc) :=
      none
    simp [multiheapAllocSecondPass, nothing]
  | inr found =>
    obtain ⟨owner, member, name, allows, paging, enough, served, found⟩ := found
    have addresses : multiheapAllocPaging memory.alloc (heapAlignValueToUpper size) =
        some ((memory.alloc.malloc name (heapAlignValueToUpper size)).1, some owner,
          (memory.alloc.malloc name (heapAlignValueToUpper size)).2) := found
    have ownerListed : owner.heap ∈ memory.alloc.names := List.mem_map_of_mem member
    have different : owner.heap ≠ name := fun same => paging.apart (same ▸ ownerListed)
    obtain ⟨fits, short, there⟩ := ready.run_tables member allows paging served
    rw [blocksForSize_align] at fits short there
    have kept := Keeps.malloc memory.alloc name (heapAlignValueToUpper size)
    have grows := Grows.of_alloc ready.inv (frames.keeps kept) fun address used =>
      used.malloc frames name (heapAlignValueToUpper size)
    -- the heap behind the paging heap is as it was
    have ownerSame : (memory.alloc.malloc name (heapAlignValueToUpper size)).2.heapAt owner.heap =
        memory.alloc.heapAt owner.heap := Function.update_of_ne different _ _
    obtain ⟨after, block, looped, maps, keptLoop, growsLoop⟩ := mapBlocksLoop_spec (blocksForSize size)
      grows.inv (kept.sameHeaps.sameNames.symm ▸ ownerListed)
      (by rw [ownerSame, ← counted owner member]; exact enough) fits short there
    have growsAll := grows.trans growsLoop
    refine ⟨(memory.alloc.malloc name (heapAlignValueToUpper size)).1, after, ?_,
      ready.later (kept.trans keptLoop) growsAll, .inr ⟨served, owner, name, block, ?_⟩⟩
    · simp only [multiheapAllocSecondPass, addresses, Option.bind_eq_bind, Option.bind_some, if_neg served]
      change (mapBlocksLoop desc owner.heap (blocksForSize size) _ _).bind _ = _
      rw [looped]
      rfl
    · constructor
      case listed => exact member
      case allows => exact allows
      case pagingHeap => exact paging.pointer
      case run =>
        rw [maps.others name different.symm]
        refine Prod.ext rfl ?_
        exact (Function.update_self name _ memory.alloc.heapAt).symm
      case takes =>
        have takes := maps.takes
        simp only [ownerSame] at takes
        exact takes
      case others =>
        intro other notOwner notPaging
        rw [maps.others other notOwner]
        exact Function.update_of_ne notPaging _ _
      case pages =>
        intro i small
        rw [hardwareWalk_of_hasTable growsAll.inv.tree (growsLoop.tables _ (there i small)), maps.pages i small]
        simp only [ownerSame]

/-- In every state after `multiheap_ready` in which the heaps count their free blocks right, and for
every size, the second pass ends without its panic: it finds no addresses and changes nothing, or it
maps each page of the addresses it returns to a block of its own of the heap behind them, and takes no
other memory. -/
theorem secondPass_served {desc : PagingDesc} {before ready : KernelMemory}
    (inv : PagingInv Frames InUse desc.pml before)
    (provided : ReadyProvided desc (multiheapGetMaxMemoryEndAddress before.alloc)
      before.alloc.multiheap.heaps before)
    (readied : multiheapReady (some desc) before = some ready)
    {run : List (KernelOp × KernelMemory)} (isRun : IsRun (KernelStep desc) ready run)
    {memory : KernelMemory} (reached : memory ∈ runStates ready run)
    (counted : ∀ node ∈ memory.alloc.multiheap.heaps,
      (memory.alloc.heapAt node.heap).freeBlocks = freeEntries (memory.alloc.heapAt node.heap)) (size : Nat) :
    ∃ ptr after, multiheapAllocSecondPass (some desc) memory size = some (ptr, after) ∧
      (ptr = 0 ∧ after = memory ∨
        ptr ≠ 0 ∧ ∃ owner paging block, ServedBy desc size ptr memory after owner paging block) := by
  have pagingReady := (multiheapReady_pagingReady inv provided readied).run isRun memory reached
  obtain ⟨ptr, after, result, -, served⟩ := pagingReady.secondPass counted size
  exact ⟨ptr, after, result, served⟩

/-! ## Two blocks -/

/-- A heap for the structures, whose first block is the top table of the descriptor, and a heap of three
blocks with a paging heap. -/
def twoHeaps : Heaps where
  heapAt := fun name =>
    if name = 0 then
      { oneBlock 0x1000 0 with
        table := ⟨fun block => if block = 0 then 0x41 else 0, 7, by decide⟩, eaddr := 0x8000,
        totalBlocks := 7, freeBlocks := 6, usedBlocks := 1 }
    else
      { oneBlock 0x8000 0 with
        table := ⟨fun _ => 0, 3, by decide⟩, eaddr := 0xB000, totalBlocks := 3, freeBlocks := 3 }
  created := 2
  multiheap := ⟨0, [⟨0, none, multiheapHeapFlagExternallyOwned⟩,
    ⟨1, none, multiheapHeapFlagDefragmentWithPaging⟩], 0, 0, 2⟩

def twoHeapsDesc : PagingDesc := ⟨0x1000, 4⟩

/-- The descriptor is new. -/
def twoHeapsMemory : KernelMemory := ⟨fun _ _ => nullDesc, twoHeaps⟩

theorem twoHeaps_inv : PagingInv Frames InUse twoHeapsDesc.pml twoHeapsMemory := by
  have lower : PoolRange (twoHeaps.heapAt 0) := ⟨by decide, by decide, by decide⟩
  have upper : PoolRange (twoHeaps.heapAt 1) := ⟨by decide, by decide, by decide⟩
  have apart : Disjoint (twoHeaps.heapAt 0).range (twoHeaps.heapAt 1).range := by
    refine Set.disjoint_left.mpr fun address inLower inUpper => ?_
    have below : address < 0x8000 := inLower.2
    have above : 0x8000 ≤ address := inUpper.1
    omega
  have ok : MultiheapOk twoHeaps :=
    ⟨by simpa [twoHeaps] using ⟨lower, upper⟩, by simpa [twoHeaps] using apart, by decide⟩
  have mappable : ∀ name ∈ twoHeaps.names, Mappable (twoHeaps.heapAt name) := by
    intro name listed
    simp only [Heaps.names, twoHeaps, List.map_cons, List.map_nil, List.mem_cons, List.not_mem_nil,
      or_false] at listed
    rcases listed with rfl | rfl
    · exact ⟨by decide, by decide, by decide⟩
    · exact ⟨by decide, by decide, by decide⟩
  have root : InUse twoHeaps 0x1000 := ⟨0, by decide, 0, by decide, by unfold UsedAt; decide, by decide⟩
  exact ⟨pagingTree_of_cleared (fun _ => rfl) root, ok, mappable⟩

/-- The memory after `multiheap_alloc` of one page. -/
def afterAlloc (memory : KernelMemory) : KernelMemory :=
  { memory with alloc := (multiheapAlloc memory.alloc 4096).2 }

/-- After a page was taken, two pages are served by the two blocks that are left. -/
theorem secondPass_twoBlocks : ∃ ready after,
    multiheapReady (some twoHeapsDesc) twoHeapsMemory = some ready ∧
    multiheapAllocSecondPass (some twoHeapsDesc) (afterAlloc ready) 8000 = some (0x13000, after) ∧
    ∃ owner paging block, ServedBy twoHeapsDesc 8000 0x13000 (afterAlloc ready) after owner paging block := by
  obtain ⟨ready, readied⟩ := Option.isSome_iff_exists.mp
    (show (multiheapReady (some twoHeapsDesc) twoHeapsMemory).isSome = true by decide +kernel)
  have counts : (multiheapReady (some twoHeapsDesc) twoHeapsMemory).all (fun memory =>
      (afterAlloc memory).alloc.multiheap.heaps.all fun node => decide
        (((afterAlloc memory).alloc.heapAt node.heap).freeBlocks =
          freeEntries ((afterAlloc memory).alloc.heapAt node.heap))) = true := by
    decide +kernel
  have ptrs : (multiheapReady (some twoHeapsDesc) twoHeapsMemory).bind (fun memory =>
      (multiheapAllocSecondPass (some twoHeapsDesc) (afterAlloc memory) 8000).map Prod.fst) =
        some 0x13000 := by
    decide +kernel
  have provided : ReadyProvided twoHeapsDesc (multiheapGetMaxMemoryEndAddress twoHeapsMemory.alloc)
      twoHeapsMemory.alloc.multiheap.heaps twoHeapsMemory := by
    decide +kernel
  have pagingReady := multiheapReady_pagingReady twoHeaps_inv provided readied
  rw [readied] at counts ptrs
  obtain ⟨ptr, after, result, served⟩ := secondPass_served twoHeaps_inv provided readied
    (show IsRun (KernelStep twoHeapsDesc) ready [(.other, afterAlloc ready)] from
      ⟨multiheapAlloc_leaves pagingReady.inv.allocValid 4096, trivial⟩)
    (List.mem_cons_of_mem _ List.mem_cons_self) (by simpa using counts) 8000
  obtain rfl : ptr = 0x13000 := by simpa [result] using ptrs
  rcases served with ⟨null, -⟩ | ⟨-, served⟩
  · exact absurd null (by decide)
  · exact ⟨ready, after, readied, result, served⟩

end ViOS.Memory
