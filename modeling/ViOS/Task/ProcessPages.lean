import ViOS.Task.ProcessBlocks
import ViOS.Memory.HeapRuns
import ViOS.Memory.PagingGet

/-! # The pages a process can reach

`process_free` unmaps what it gives up; `process_realloc` maps the new range and forgets
the old one.  The pages mapped for user code are those of the records as long as no
call of `process_realloc` gives pages up, and as long as the heap below does what its
clients expect.

* `PagesOk` — the state of the page tables, against a set of pages.
* `MemoryOp.Keeps` — the condition on a call.
* `MemoryInv` — the invariant, and `MemoryInv.malloc`, `MemoryInv.realloc`, `MemoryInv.free`.
* `pagesExact_of_keeps` — the property in every run whose calls meet the condition.
-/

namespace ViOS.Process

open ViOS.Lib ViOS.Memory

/-! ## The page tables -/

/-- The last-level entry of a page lets user code in. -/
def UserPage (mem : Nat → Nat → PagingDescEntry) (pml page : Nat) : Prop :=
  (leafMapping (leafOf mem pml (page * pagingPageSize))).present = true ∧
    (leafMapping (leafOf mem pml (page * pagingPageSize))).user = true

/-- The flags let user code in. -/
def UserFlags (flags : Nat) : Prop := flags &&& pagingIsPresent ≠ 0 ∧ flags &&& pagingAccessFromAll ≠ 0

/-- The page is one of `count` pages of blocks from `start` on. -/
def InRun (heap : Heap) (start count page : Nat) : Prop :=
  blockPage heap start ≤ page ∧ page < blockPage heap start + count

/-- The tables for the heap's pages are in place, and the touched pages that user code can reach are
those in `user`. -/
structure PagesOk (process : ProcessMemory) (user : Nat → Prop) : Prop where
  tree : PagingTree (fun _ => True) process.paging.mem process.desc.pml
  tables : ∀ block < process.paging.alloc.table.total,
    Radix.walk childTable process.paging.mem process.desc.pml
      (wordOf (blockAddress process.paging.alloc block)) ≠ none
  touched : ∀ page < 2 ^ 36, Touched process.history page →
    ∃ block < process.paging.alloc.table.total, page = blockPage process.paging.alloc block
  own : ∀ page < 2 ^ 36, Touched process.history page →
    (leafMapping (leafOf process.paging.mem process.desc.pml (page * pagingPageSize))).frame = page
  exact : ∀ page < 2 ^ 36, (Touched process.history page ∧
    UserPage process.paging.mem process.desc.pml page) ↔ user page

theorem PagesOk.congr {process : ProcessMemory} {user user' : Nat → Prop} (pages : PagesOk process user)
    (same : ∀ page < 2 ^ 36, user' page ↔ user page) : PagesOk process user' where
  tree := pages.tree
  tables := pages.tables
  touched := pages.touched
  own := pages.own
  exact := fun page isPage => (pages.exact page isPage).trans (same page isPage).symm

/-- Only the heap and the records changed. -/
theorem PagesOk.transfer {process : ProcessMemory} {user : Nat → Prop} (pages : PagesOk process user)
    {heap : Heap} (same : SamePool process.paging.alloc heap) (allocations : RecordVector) :
    PagesOk { process with paging := { process.paging with alloc := heap }, allocations } user where
  tree := pages.tree
  tables := by
    intro block inTable
    change block < heap.table.total at inTable
    rw [same.total] at inTable
    rw [blockAddress_same same]
    exact pages.tables block inTable
  touched := by
    intro page isPage isTouched
    obtain ⟨block, inTable, isBlock⟩ := pages.touched page isPage isTouched
    exact ⟨block, same.total ▸ inTable, isBlock.trans (blockPage_same same block).symm⟩
  own := pages.own
  exact := pages.exact

theorem pageNumber_page {page : Nat} (isPage : page < 2 ^ 36) : pageNumber (page * pagingPageSize) = page := by
  unfold pageNumber pagingPageSize
  omega

theorem blockPage_lt {heap : Heap} (pool : Pool heap) {block : Nat} (inTable : block ≤ heap.table.total) :
    blockPage heap block ≤ 2 ^ 36 := by
  have bound := pool.blockAddress_lt inTable
  rw [blockAddress_eq_page pool] at bound
  unfold pagingPageSize at bound
  omega

/-- What mapping a run of blocks to itself puts at a page. -/
theorem rangeCovers_run {heap : Heap} (pool : Pool heap) {start count : Nat}
    (inside : start + count ≤ heap.table.total) (flags : Nat) {page : Nat} (isPage : page < 2 ^ 36) :
    (InRun heap start count page → rangeCovers (blockAddress heap start) (blockAddress heap start) count
      flags page = some (mappingOf page flags)) ∧
    (¬ InRun heap start count page → rangeCovers (blockAddress heap start) (blockAddress heap start) count
      flags page = none) := by
  have bound := blockPage_lt pool inside
  have bound' : blockPage heap start + count ≤ 2 ^ 36 := by
    unfold blockPage at *
    omega
  unfold rangeCovers InRun
  rw [blockAddress_eq_page pool, Nat.mul_div_cancel _ (by decide)]
  generalize blockPage heap start = first at *
  have number : pageNumber (first * pagingPageSize) = first % 2 ^ 36 := by
    unfold pageNumber pagingPageSize
    omega
  rw [number]
  constructor
  · rintro ⟨lower, upper⟩
    have offset : (page + 2 ^ 36 - first % 2 ^ 36) % 2 ^ 36 = page - first := by omega
    simp only [offset]
    rw [if_pos (by omega), show first + (page - first) = page by omega]
  · intro outside
    simp only
    exact if_neg (by omega)

theorem touched_append (history : List PagingCall) (call : PagingCall) (page : Nat) :
    Touched (history ++ [call]) page ↔ Touched history page ∨ call.covers page ≠ none := by
  unfold Touched
  simp only [List.mem_append, List.mem_singleton]
  constructor
  · rintro ⟨c, member | rfl, covers⟩
    · exact .inl ⟨c, member, covers⟩
    · exact .inr covers
  · rintro (⟨c, member, covers⟩ | covers)
    · exact ⟨c, .inl member, covers⟩
    · exact ⟨call, .inr rfl, covers⟩

/-- What a call that maps or unmaps a range leaves alone. -/
structure OnlyPages (process next : ProcessMemory) : Prop where
  desc : next.desc = process.desc
  alloc : next.paging.alloc = process.paging.alloc
  allocations : next.allocations = process.allocations

/-- A call that maps pages of blocks to themselves. -/
theorem PagesOk.remapped {process : ProcessMemory} {user : Nat → Prop} {paging : PagingState Heap}
    {covered : Nat → Option Mapping} {call : PagingCall} (pages : PagesOk process user) (flags : Nat)
    (remaps : Remaps (fun _ => True) process.desc.pml covered process.paging paging)
    (covers : ∀ page, call.covers page = covered page)
    (blocks : ∀ page < 2 ^ 36, covered page = none ∨ (covered page = some (mappingOf page flags) ∧
      ∃ block < process.paging.alloc.table.total, page = blockPage process.paging.alloc block)) :
    PagesOk { process with paging, history := process.history ++ [call] } fun page =>
      (covered page ≠ none ∧ UserFlags flags) ∨ (covered page = none ∧ user page) := by
  have leaf : ∀ page < 2 ^ 36, leafMapping (leafOf paging.mem process.desc.pml (page * pagingPageSize)) =
      (covered page).getD
        (leafMapping (leafOf process.paging.mem process.desc.pml (page * pagingPageSize))) := by
    intro page isPage
    rw [remaps.leaves, pageNumber_page isPage]
  have touchedIff : ∀ page, Touched (process.history ++ [call]) page ↔
      Touched process.history page ∨ covered page ≠ none := by
    intro page
    rw [touched_append, covers]
  refine ⟨remaps.tree, ?_, ?_, ?_, ?_⟩
  · intro block inTable
    simp only [remaps.alloc] at inTable ⊢
    rw [remaps.tables _ (by simp [wordOf])]
    exact pages.tables block inTable
  · intro page isPage isTouched
    simp only [remaps.alloc]
    -- a page that the call covers maps a block of the heap, the others are as they were
    rcases blocks page isPage with none | ⟨-, isBlock⟩
    · exact pages.touched page isPage (((touchedIff page).mp isTouched).resolve_right (not_not.mpr none))
    · exact isBlock
  · intro page isPage isTouched
    simp only [leaf page isPage]
    rcases blocks page isPage with none | ⟨mapped, -⟩
    · rw [none]
      exact pages.own page isPage (((touchedIff page).mp isTouched).resolve_right (not_not.mpr none))
    · rw [mapped]
      rfl
  · intro page isPage
    have before := pages.exact page isPage
    unfold UserPage at before ⊢
    simp only [leaf page isPage, touchedIff]
    rcases blocks page isPage with none | ⟨mapped, -⟩
    · rw [none]
      simpa using before
    · rw [mapped]
      simp [mappingOf, UserFlags]

theorem blockAddress_add (heap : Heap) (start count : Nat) :
    blockAddress heap (start + count) = blockAddress heap start + count * pagingPageSize := by
  unfold blockAddress pagingPageSize viosHeapBlockSize
  omega

/-- Mapping a run of blocks to itself: its pages get the flags, other pages keep theirs. -/
theorem mapRangeOf_spec {process : ProcessMemory} {user : Nat → Prop} {start count ptr size : Nat}
    (pages : PagesOk process user) (pool : Pool process.paging.alloc)
    (inside : start + count ≤ process.paging.alloc.table.total)
    (isStart : ptr = blockAddress process.paging.alloc start)
    (isEnd : rangeEnd ptr size = blockAddress process.paging.alloc (start + count)) (flags : Nat) :
    (mapRangeOf process ptr size flags).1 = 0 ∧ OnlyPages process (mapRangeOf process ptr size flags).2 ∧
      PagesOk (mapRangeOf process ptr size flags).2 fun page =>
        (InRun process.paging.alloc start count page ∧ UserFlags flags) ∨
          (¬ InRun process.paging.alloc start count page ∧ user page) := by
  subst isStart
  rw [blockAddress_add] at isEnd
  have aligned : blockAddress process.paging.alloc start % pagingPageSize = 0 := by
    rw [blockAddress_eq_page pool]
    exact Nat.mul_mod_left _ _
  have fits := pool.blockAddress_lt inside
  rw [blockAddress_add] at fits
  have tables : ∀ i < count, Radix.walk childTable process.paging.mem process.desc.pml
      (wordOf (blockAddress process.paging.alloc start + i * pagingPageSize)) ≠ none := by
    intro i inRange
    rw [← blockAddress_add]
    exact pages.tables (start + i) (by omega)
  have mapped := @pagingMapTo_mapped Heap kzalloc _ process.desc _ count flags process.paging aligned fits
    pages.tree tables
  have covers : ∀ page, PagingCall.covers (.mapTo (blockAddress process.paging.alloc start)
      (blockAddress process.paging.alloc start)
      (blockAddress process.paging.alloc start + count * pagingPageSize) flags) page =
      rangeCovers (blockAddress process.paging.alloc start) (blockAddress process.paging.alloc start)
        count flags page := by
    intro page
    rw [PagingCall.covers, if_pos ⟨aligned, aligned, by rw [Nat.add_mul_mod_self_right, aligned], by omega⟩,
      Nat.add_sub_cancel_left, Nat.mul_div_cancel _ (by decide)]
  have run := fun page (isPage : page < 2 ^ 36) => rangeCovers_run pool inside flags isPage
  unfold mapRangeOf
  rw [isEnd]
  refine ⟨mapped.1, ⟨rfl, mapped.2.alloc, rfl⟩, ?_⟩
  have remapped := pages.remapped flags mapped.2 covers fun page isPage => by
    by_cases inRun : InRun process.paging.alloc start count page
    · refine .inr ⟨(run page isPage).1 inRun, page - blockPage process.paging.alloc 0, ?_, ?_⟩ <;>
        unfold InRun blockPage at * <;> omega
    · exact .inl ((run page isPage).2 inRun)
  refine remapped.congr fun page isPage => ?_
  by_cases inRun : InRun process.paging.alloc start count page
  · simp [inRun, (run page isPage).1 inRun]
  · simp [inRun, (run page isPage).2 inRun]

/-! ## The invariant -/

structure MemoryInv (process : ProcessMemory) : Prop where
  held : Held process.paging.alloc process.allocations fun _ => False
  pages : PagesOk process (Recorded process.allocations.elems)

theorem RecordAt.pageIn_iff_inRun {heap : Heap} (pool : Pool heap) {a : ProcessAllocation} {start : Nat}
    (record : RecordAt heap a start) (page : Nat) :
    PageIn a page ↔ InRun heap start (blocksForSize a.size) page := by
  rw [record.pageIn_iff pool]
  unfold InRun blockPage
  constructor
  · rintro ⟨j, lower, upper, rfl⟩
    omega
  · rintro ⟨lower, upper⟩
    exact ⟨page - heap.saddr / pagingPageSize, by omega, by omega, by omega⟩

theorem Held.read_eq {heap : Heap} {vec : RecordVector} {spare : Nat → Prop} (held : Held heap vec spare) :
    vec.read = some vec.elems := by
  refine if_neg ?_
  rintro ⟨null, notEmpty⟩
  rcases held.vector with isNew | ⟨start, vector, -⟩
  · exact notEmpty isNew.elems
  · exact blockAddress_ne_zero held.pool start (vector.memory ▸ null)

theorem userFlags_user : UserFlags userFlags := by
  unfold UserFlags
  decide

/-- `process_allocation_set_map` of a run made of the blocks of the old record and spare ones. -/
theorem setMap_spec {process : ProcessMemory} {spare : Nat → Prop} {index start size : Nat}
    {old : ProcessAllocation} (held : Held process.paging.alloc process.allocations spare)
    (pages : PagesOk process (Recorded process.allocations.elems))
    (atIndex : process.allocations.elems[index]? = some old) (small : size < addressSpace)
    (run : RunAt process.paging.alloc start (blocksForSize size))
    (contains : ∀ page, PageIn old page → InRun process.paging.alloc start (blocksForSize size) page)
    (within : ∀ page, InRun process.paging.alloc start (blocksForSize size) page →
      PageIn old page ∨ ∃ j, spare j ∧ page = blockPage process.paging.alloc j) :
    ∃ next, processAllocationSetMap process index (blockAddress process.paging.alloc start) size =
      (0, next) ∧ SamePool process.paging.alloc next.paging.alloc ∧ MemoryInv next ∧
      ∀ page, Recorded next.allocations.elems page ↔ Recorded process.allocations.elems page ∨
        InRun process.paging.alloc start (blocksForSize size) page := by
  have record := RecordAt.of_run held.pool small run
    ((blockAddress process.paging.alloc start + size) % addressSpace)
  obtain ⟨result, only, mapped⟩ := mapRangeOf_spec pages held.pool run.inside rfl record.ending userFlags
  have inList := (List.getElem?_eq_some_iff.mp atIndex).1
  unfold processAllocationSetMap
  simp only [result, lt_irrefl, if_false, only.allocations, if_neg (Nat.not_le.mpr inList)]
  have written := held.setRecord atIndex (.inr ⟨start, record⟩) fun page inNew =>
    within page ((record.pageIn_iff_inRun held.pool page).mp inNew)
  have same : SamePool process.paging.alloc (mapRangeOf process (blockAddress process.paging.alloc start)
      size userFlags).2.paging.alloc := by
    rw [only.alloc]
    exact .refl _
  refine ⟨_, rfl, same, ⟨?_, ?_⟩, fun page => ?_⟩
  · change Held (mapRangeOf _ _ _ _).2.paging.alloc _ _
    rw [only.alloc]
    exact written
  · have recorded := mapped.transfer (.refl _) { process.allocations with
      elems := process.allocations.elems.set index
        ⟨blockAddress process.paging.alloc start,
          (blockAddress process.paging.alloc start + size) % addressSpace, size⟩ }
    refine recorded.congr fun page _ => ?_
    rw [held.recorded_set atIndex, record.pageIn_iff_inRun held.pool]
    have inOld := contains page
    have flags := userFlags_user
    by_cases inRun : InRun process.paging.alloc start (blocksForSize size) page
    · simp [inRun, flags]
    · simp [inRun, mt inOld inRun]
  · -- the pages of the old record are among the new one's
    have inOld := contains page
    simp only [held.recorded_set atIndex, record.pageIn_iff_inRun held.pool]
    tauto

/-! ## The calls -/

/-- `process_realloc` neither gives pages of the record up nor moves it: the chain of its blocks is
right, and the heap keeps it in place or has no room at all. -/
def StaysInPlace (heap : Heap) (a : ProcessAllocation) (newSize : Nat) : Prop :=
  let start := (heapAddressToBlock heap a.ptr).toNat
  let wanted := blocksForSize newSize
  ChainRight heap start (blocksForSize a.size) wanted ∧
    (blocksForSize a.size = wanted ∨
      heapIsBlockRangeFree heap (start + blocksForSize a.size) (start + wanted - 1) = true ∨
      heapGetStartBlock heap wanted < 0)

/-- The condition on a call: when a record needs a new slot and the vector is full, the vector can
grow; an allocation the kernel can translate is resized in place. -/
def MemoryOp.Keeps (process : ProcessMemory) : MemoryOp → Prop
  | .malloc size =>
    let (ptr, heap) := kzalloc process.paging.alloc size
    ptr ≠ 0 → (∀ a ∈ process.allocations.elems, a.ptr ≠ 0) →
      process.allocations.tmElems ≤ process.allocations.elems.length + 1 → GrowthOk heap process.allocations
  | .realloc ptr newSize => pagingGetPhysicalAddress process.paging.mem process.desc ptr ≠ 0 →
    ∀ a ∈ process.allocations.elems, a.ptr = ptr → StaysInPlace process.paging.alloc a newSize
  | .free _ => True

/-- `process_find_free_allocation_index`: a cleared slot. -/
theorem findFreeIndex_spec {process : ProcessMemory} {spare : Nat → Prop}
    (held : Held process.paging.alloc process.allocations spare)
    (pages : PagesOk process (Recorded process.allocations.elems))
    (growth : (∀ a ∈ process.allocations.elems, a.ptr ≠ 0) →
      process.allocations.tmElems ≤ process.allocations.elems.length + 1 →
        GrowthOk process.paging.alloc process.allocations) :
    ∃ (index : Nat) (next : ProcessMemory), processFindFreeAllocationIndex process = some ((index : Int), next) ∧
      SamePool process.paging.alloc next.paging.alloc ∧
      next.allocations.elems[index]? = some .cleared ∧
      Held next.paging.alloc next.allocations spare ∧
      PagesOk next (Recorded next.allocations.elems) ∧
      ∀ page, Recorded next.allocations.elems page ↔ Recorded process.allocations.elems page := by
  unfold processFindFreeAllocationIndex
  rw [held.read_eq]
  simp only
  cases found : process.allocations.elems.findIdx? fun a => a.ptr = 0 with
  | some index =>
    obtain ⟨inList, isNull, -⟩ := List.findIdx?_eq_some_iff_getElem.mp found
    refine ⟨index, process, rfl, .refl _, ?_, held, pages, fun _ => .rfl⟩
    rw [List.getElem?_eq_getElem inList]
    rcases held.records _ (List.getElem_mem inList) with isCleared | ⟨start, record⟩
    · rw [isCleared]
    · have null := of_decide_eq_true isNull
      rw [record.ptr] at null
      exact absurd null (blockAddress_ne_zero held.pool start)
  | none =>
    have allUsed : ∀ a ∈ process.allocations.elems, a.ptr ≠ 0 := fun a member null =>
      absurd (List.findIdx?_eq_none_iff.mp found a member) (by simp [null])
    obtain ⟨vec, heap, result, elems, same, held'⟩ := held.push (growth allUsed)
    simp only [result]
    have recorded : ∀ page, Recorded vec.elems page ↔ Recorded process.allocations.elems page := by
      intro page
      rw [elems, recorded_append_cleared]
    exact ⟨_, _, rfl, same, by simp [elems], held',
      (pages.transfer same vec).congr fun page _ => recorded page, recorded⟩

/-- `process_malloc` of blocks that the heap has: they are recorded besides the pages that were. -/
theorem MemoryInv.malloc_spec {process : ProcessMemory} {size start : Nat} {heap : Heap}
    (inv : MemoryInv process) (small : size < addressSpace)
    (keeps : (MemoryOp.malloc size).Keeps process)
    (result : kzalloc process.paging.alloc size = (blockAddress process.paging.alloc start, heap))
    (taken : Taken process.paging.alloc start (blocksForSize size) heap) :
    ∃ next, processMalloc process size = some (blockAddress process.paging.alloc start, next) ∧
      SamePool process.paging.alloc next.paging.alloc ∧ MemoryInv next ∧
      ∀ page, Recorded next.allocations.elems page ↔ Recorded process.allocations.elems page ∨
        InRun process.paging.alloc start (blocksForSize size) page := by
  have notNull := blockAddress_ne_zero inv.held.pool start
  simp only [MemoryOp.Keeps, result] at keeps
  unfold processMalloc
  simp only [result, notNull, if_false]
  have held := inv.held.zalloc taken
  have pages := inv.pages.transfer taken.same process.allocations
  obtain ⟨index, found, isFound, same, atIndex, held', pages', keptRecords⟩ :=
    findFreeIndex_spec held pages (keeps notNull)
  have samePool := taken.same.trans same
  rw [isFound]
  have run : RunAt found.paging.alloc start (blocksForSize size) := by
    refine ⟨taken.positive, ?_, fun j lower upper => (held'.spareTaken j ⟨lower, upper⟩).2⟩
    rw [same.total]
    exact taken.same.total ▸ taken.inside
  have written := setMap_spec held' pages' atIndex small run
    (fun page inCleared => absurd inCleared (not_pageIn_cleared page)) fun page inRun => .inr
      ⟨page - blockPage found.paging.alloc 0, by unfold InRun blockPage at *; omega,
        by unfold InRun blockPage at *; omega⟩
  rw [blockAddress_same samePool] at written
  obtain ⟨last, isWritten, sameLast, inv', recorded⟩ := written
  simp only [Int.toNat_natCast, isWritten]
  rw [if_neg (by omega), if_neg (by omega)]
  refine ⟨last, rfl, samePool.trans sameLast, inv', fun page => ?_⟩
  rw [recorded, keptRecords, InRun, InRun, blockPage_same samePool]

theorem MemoryInv.malloc {process next : ProcessMemory} {size ptr : Nat} (inv : MemoryInv process)
    (small : size < addressSpace) (keeps : (MemoryOp.malloc size).Keeps process)
    (step : processMalloc process size = some (ptr, next)) : MemoryInv next := by
  rcases kzalloc_spec inv.held.pool size with none | ⟨start, heap, result, taken⟩
  · unfold processMalloc at step
    rw [none] at step
    simp only [if_true, Option.some.injEq, Prod.mk.injEq] at step
    exact step.2 ▸ inv
  · obtain ⟨last, isLast, -, inv', -⟩ := inv.malloc_spec small keeps result taken
    rw [isLast] at step
    simp only [Option.some.injEq, Prod.mk.injEq] at step
    exact step.2 ▸ inv'

/-- The kernel translates the pointer of a record to itself, if it can. -/
theorem MemoryInv.physical_eq {process : ProcessMemory} (inv : MemoryInv process) {a : ProcessAllocation}
    {start : Nat} (member : a ∈ process.allocations.elems)
    (record : RecordAt process.paging.alloc a start)
    (found : pagingGetPhysicalAddress process.paging.mem process.desc a.ptr ≠ 0) :
    pagingGetPhysicalAddress process.paging.mem process.desc a.ptr = a.ptr := by
  have pool := inv.held.pool
  have inside := record.run.inside
  have positive := record.run.positive
  have isPage : blockPage process.paging.alloc start < 2 ^ 36 := by
    have bound := blockPage_lt pool inside
    unfold blockPage at *
    omega
  have isTouched : Touched process.history (blockPage process.paging.alloc start) := by
    refine ((inv.pages.exact _ isPage).mpr ⟨a, member, ?_⟩).1
    exact (record.pageIn_iff pool _).mpr ⟨start, Nat.le_refl _, by omega, rfl⟩
  have own := inv.pages.own _ isPage isTouched
  rw [← blockAddress_eq_page pool, ← record.ptr] at own
  have table := inv.pages.tables start (by omega)
  rw [← record.ptr] at table
  obtain ⟨pt, reached⟩ := Option.ne_none_iff_exists'.mp table
  have leaf : leafOf process.paging.mem process.desc.pml a.ptr = process.paging.mem pt (ptIndex a.ptr) := by
    rw [leafOf, Radix.leafAt, reached]
  unfold pagingGetPhysicalAddress at found ⊢
  rw [pagingGet_eq reached] at found ⊢
  split_ifs at found ⊢
  · simp only [← leaf]
    rw [physicalAddress_eq rfl (by rw [own]; omega), own, record.ptr, blockAddress_eq_page pool,
      Nat.mul_mod_left, Nat.add_zero]
  · exact absurd rfl found

theorem processAllocationExists_spec {elems : List ProcessAllocation} {a : ProcessAllocation}
    (member : a ∈ elems) : ∃ index b, processAllocationExists elems a.ptr = (0, index) ∧
      elems[index]? = some b ∧ b.ptr = a.ptr := by
  unfold processAllocationExists
  cases found : elems.findIdx? fun b => b.ptr = a.ptr with
  | none => exact absurd (List.findIdx?_eq_none_iff.mp found a member) (by simp)
  | some index =>
    obtain ⟨inList, same, -⟩ := List.findIdx?_eq_some_iff_getElem.mp found
    exact ⟨index, elems[index], rfl, List.getElem?_eq_getElem inList, of_decide_eq_true same⟩

theorem MemoryInv.realloc {process next : ProcessMemory} {newSize new : Nat} {a : ProcessAllocation}
    (inv : MemoryInv process) (notNull : a.ptr ≠ 0) (live : a ∈ process.allocations.elems)
    (positive : 0 < newSize) (small : newSize < addressSpace)
    (keeps : (MemoryOp.realloc a.ptr newSize).Keeps process)
    (step : processRealloc process a.ptr newSize = some (new, next)) : MemoryInv next := by
  obtain ⟨index, b, exists_, atIndex, same⟩ := processAllocationExists_spec live
  have pool := inv.held.pool
  have member := List.mem_of_getElem? atIndex
  simp only [MemoryOp.Keeps] at keeps
  unfold processRealloc at step
  rw [inv.held.read_eq] at step
  simp only [exists_, lt_irrefl, if_false, notNull, ne_eq, not_false_eq_true, true_and] at step
  rw [← same] at step keeps notNull
  by_cases unknown : pagingGetPhysicalAddress process.paging.mem process.desc b.ptr = 0
  · rw [if_pos unknown] at step
    simp only [Option.some.injEq, Prod.mk.injEq] at step
    exact step.2 ▸ inv
  · rw [if_neg unknown] at step
    obtain ⟨start, record⟩ := (inv.held.records b member).resolve_left fun isCleared =>
      notNull (isCleared ▸ rfl)
    have inside := record.run.inside
    have recordPositive := record.run.positive
    obtain ⟨right, place⟩ := keeps unknown b member rfl
    rw [inv.physical_eq member record unknown, record.ptr, krealloc_block pool (by omega)] at step
    rw [record.ptr, pool.addressToBlock_eq (by omega), Int.toNat_natCast] at right place
    rcases pool.realloc recordPositive inside record.run.taken (by omega) right with
      ⟨heap, result, stays, -⟩ | ⟨result, -⟩ | ⟨moved, heap, -, found, -, notEqual, notFree⟩
    · -- resized in place: the record keeps its start and its pages are mapped anew
      rw [result] at step
      simp only [blockAddress_ne_zero pool start, if_false] at step
      have roomInside := stays.inside
      have grows := right.grows
      have run : RunAt heap start (blocksForSize newSize) :=
        ⟨by omega, stays.same.total ▸ roomInside,
          fun j lower upper => (stays.taken_iff j (by omega)).mpr (.inr ⟨lower, upper⟩)⟩
      have old : ∀ page, PageIn b page ↔ InRun heap start (blocksForSize b.size) page := by
        intro page
        rw [record.pageIn_iff_inRun pool, InRun, InRun, blockPage_same stays.same]
      -- the old pages are among the new ones, and what is new lies behind them
      have contains : ∀ page, PageIn b page → InRun heap start (blocksForSize newSize) page := by
        intro page inOld
        have inRun := (old page).mp inOld
        unfold InRun at *
        omega
      have within : ∀ page, InRun heap start (blocksForSize newSize) page → PageIn b page ∨
          ∃ j, (start + blocksForSize b.size ≤ j ∧ j < start + blocksForSize newSize) ∧
            page = blockPage heap j := by
        intro page inRun
        rw [old]
        unfold InRun blockPage at *
        by_cases inOld : page < heap.saddr / pagingPageSize + start + blocksForSize b.size
        · exact .inl ⟨inRun.1, inOld⟩
        · exact .inr ⟨page - heap.saddr / pagingPageSize, by omega, by omega⟩
      have written := @setMap_spec { process with paging := { process.paging with alloc := heap } }
        _ _ _ _ _ (inv.held.extended stays) (inv.pages.transfer stays.same process.allocations) atIndex
        small run contains within
      obtain ⟨last, isWritten, -, inv', -⟩ := written
      rw [blockAddress_same stays.same] at isWritten
      simp only [Option.some.injEq, Prod.mk.injEq] at step
      rw [isWritten] at step
      exact step.2 ▸ inv'
    · rw [result] at step
      simp only [if_true, Option.some.injEq, Prod.mk.injEq] at step
      exact step.2 ▸ inv
    · -- a move is what the request excludes: there is no room, or the blocks behind are free
      rcases place with equal | free | none
      · exact absurd equal notEqual
      · exact absurd free notFree
      · omega

/-- The null pointer is found in a cleared slot, and an empty range is unmapped. -/
theorem MemoryInv.free_null {process : ProcessMemory} (inv : MemoryInv process) :
    (mapRangeOf process 0 0 0).1 = 0 ∧
      MemoryInv (processAllocationUnjoin (mapRangeOf process 0 0 0).2 0) := by
  have ending : rangeEnd 0 0 = 0 := by simp [rangeEnd, pagingAlignAddress]
  have nothing : pagingMapTo kzalloc process.desc 0 0 0 0 process.paging = (0, process.paging) := by
    simp [pagingMapTo, pagingMapRange, mapRangeLoop]
  have covers : ∀ page, PagingCall.covers (.mapTo 0 0 0 0) page = none := by
    simp [PagingCall.covers, rangeCovers]
  have unjoined : (process.allocations.elems.map fun a => if a.ptr = 0 then .cleared else a) =
      process.allocations.elems := by
    refine List.map_congr_left (fun a member => ?_) |>.trans (List.map_id _)
    rcases inv.held.records a member with rfl | ⟨start, record⟩
    · exact if_pos rfl
    · exact if_neg (record.ptr ▸ blockAddress_ne_zero inv.held.pool start)
  have pages := inv.pages.remapped 0 (Remaps.refl inv.pages.tree) covers fun page _ => .inl rfl
  unfold mapRangeOf processAllocationUnjoin
  rw [ending, nothing]
  simp only [unjoined]
  exact ⟨trivial, inv.held, pages.congr fun page _ => by simp⟩

theorem MemoryInv.free {process next : ProcessMemory} {ptr : Nat} (inv : MemoryInv process)
    (step : processFree process ptr = some next) : MemoryInv next := by
  unfold processFree at step
  rw [inv.held.read_eq] at step
  simp only at step
  cases found : process.allocations.elems.find? fun a => a.ptr = ptr with
  | none =>
    rw [found] at step
    exact Option.some.inj step ▸ inv
  | some a =>
    rw [found] at step
    have member := List.mem_of_find?_eq_some found
    have isPtr : a.ptr = ptr := by simpa using List.find?_some found
    subst isPtr
    simp only at step
    rcases inv.held.records a member with rfl | ⟨start, record⟩
    · -- ptr is NULL and the first cleared record answers for it: an empty range is mapped
      obtain ⟨result, inv'⟩ := inv.free_null
      change (if (mapRangeOf process 0 0 0).1 < 0 then some (mapRangeOf process 0 0 0).2
        else some (processAllocationUnjoin (mapRangeOf process 0 0 0).2 0)) = some next at step
      rw [result, if_neg (lt_irrefl _)] at step
      exact Option.some.inj step ▸ inv'
    · obtain ⟨index, atIndex⟩ := List.getElem?_of_mem member
      have notNull : a.ptr ≠ 0 := by
        rw [record.ptr]
        exact blockAddress_ne_zero inv.held.pool start
      obtain ⟨result, only, mapped⟩ :=
        mapRangeOf_spec inv.pages inv.held.pool record.run.inside record.ptr record.ending 0
      rw [result, if_neg (lt_irrefl _)] at step
      obtain rfl := Option.some.inj step
      -- the pages of the record lose the user flag, and the record is cleared
      have cleared := inv.held.setRecord atIndex (.inl rfl) fun page inCleared =>
        absurd inCleared (not_pageIn_cleared page)
      rw [← inv.held.unjoin_eq atIndex notNull] at cleared
      unfold processAllocationUnjoin
      rw [only.allocations]
      refine ⟨?_, ?_⟩
      · change Held (mapRangeOf _ _ _ _).2.paging.alloc _ _
        rw [only.alloc]
        exact cleared
      · have recorded := mapped.transfer (.refl _) { process.allocations with
          elems := process.allocations.elems.map fun b => if b.ptr = a.ptr then .cleared else b }
        refine recorded.congr fun page _ => ?_
        change Recorded (process.allocations.elems.map _) page ↔ _
        rw [inv.held.unjoin_eq atIndex notNull, inv.held.recorded_set atIndex,
          record.pageIn_iff_inRun inv.held.pool]
        have noFlags : ¬ UserFlags 0 := fun flags => flags.1 rfl
        simp [not_pageIn_cleared, noFlags, and_comm]

/-! ## The property -/

/-- A process whose calls begin: the vector is new, and the descriptor has the tables of all heap
pages, which `paging_map_e820_memory_regions` mapped. -/
structure ProcessStart (process : ProcessMemory) : Prop where
  pool : Pool process.paging.alloc
  tree : PagingTree (fun _ => True) process.paging.mem process.desc.pml
  tables : ∀ block < process.paging.alloc.table.total,
    Radix.walk childTable process.paging.mem process.desc.pml
      (wordOf (blockAddress process.paging.alloc block)) ≠ none
  vector : VectorNew process.allocations
  history : process.history = []

/-- The calls that make a descriptor leave it ready for the process, if they cover the heap. -/
theorem ProcessStart.of_calls {α : Type*} {zalloc : α → Nat → Nat × α} {valid : α → Prop}
    {taken : α → Nat → Prop} (contract : BlockContract zalloc valid taken)
    {before created : PagingState α} {level : Nat} {desc : PagingDesc} (beforeValid : valid before.alloc)
    (new : pagingDescNew zalloc before level = (some desc, created)) (provided : desc.pml ≠ 0)
    {calls : List PagingCall} (legal : ∀ call ∈ calls, call.Legal) (ok : RunOk zalloc desc calls created)
    {heap : Heap} (pool : Pool heap)
    (covered : ∀ block < heap.table.total, lastWriter calls (pageNumber (blockAddress heap block)) ≠ none) :
    ProcessStart ⟨⟨(runCalls zalloc desc calls created).mem, heap⟩, desc, ⟨0, [], 0⟩, []⟩ := by
  obtain ⟨inv, simulates, -⟩ := pagingDescNew_spec contract beforeValid new provided
  obtain ⟨invEnd, simulatesEnd⟩ := runCalls_simulates contract calls legal ok inv simulates
  refine ⟨pool, ⟨invEnd.tree.unshared, fun _ _ _ _ => trivial, invEnd.tree.good⟩, ?_, ⟨rfl, rfl, rfl⟩, rfl⟩
  intro block inTable
  obtain ⟨mapping, isMapped⟩ := Option.ne_none_iff_exists'.mp (covered block inTable)
  exact (simulatesEnd.mapped _ mapping (by rw [overlay, isMapped]; rfl)).1

theorem MemoryInv.of_start {process : ProcessMemory} (start : ProcessStart process) : MemoryInv process := by
  have noElems := start.vector.elems
  have noHistory : ∀ page, ¬ Touched process.history page := by
    rintro page ⟨call, member, -⟩
    rw [start.history] at member
    exact absurd member List.not_mem_nil
  refine ⟨⟨start.pool, ?_, ?_, .inl start.vector, by simp, by simp⟩, ⟨start.tree, start.tables, ?_, ?_, ?_⟩⟩
  · simp [noElems]
  · simp [noElems]
  · exact fun page _ isTouched => absurd isTouched (noHistory page)
  · exact fun page _ isTouched => absurd isTouched (noHistory page)
  · intro page _
    simp [noHistory, noElems, Recorded]

theorem MemoryInv.step {process next : ProcessMemory} {op : MemoryOp} (step : memoryStep process op next)
    (keeps : op.Keeps process) (inv : MemoryInv process) : MemoryInv next := by
  cases op with
  | malloc size =>
    obtain ⟨small, ptr, result⟩ := step
    exact inv.malloc small keeps result
  | realloc ptr newSize =>
    obtain ⟨notNull, ⟨a, live, rfl⟩, positive, small, new, result⟩ := step
    exact inv.realloc notNull live positive small keeps result
  | free ptr => exact inv.free step

theorem MemoryInv.userAccessible_iff {process : ProcessMemory} (inv : MemoryInv process) {virt : Nat}
    (isTouched : Touched process.history (pageNumber virt)) :
    UserAccessible process.paging.mem process.desc.pml virt ↔
      UserPage process.paging.mem process.desc.pml (pageNumber virt) := by
  have isPage := pageNumber_lt virt
  obtain ⟨block, inTable, isBlock⟩ := inv.pages.touched _ isPage isTouched
  have sameBlock : pageNumber virt = pageNumber (pageNumber virt * pagingPageSize) :=
    (pageNumber_page isPage).symm
  obtain ⟨sameWord, sameIndex⟩ := sameWord_iff.mpr sameBlock
  have table := inv.pages.tables block inTable
  rw [blockAddress_eq_page inv.held.pool, ← isBlock, ← sameWord] at table
  rw [Memory.userAccessible_iff inv.pages.tree table, UserPage]
  unfold leafOf
  rw [← sameWord, ← sameIndex]

theorem MemoryInv.pagesExact {process : ProcessMemory} (inv : MemoryInv process) : PagesExact process where
  exact := by
    intro virt _
    rw [← Recorded, ← inv.pages.exact _ (pageNumber_lt virt)]
    exact and_congr_right fun isTouched => inv.userAccessible_iff isTouched
  disjoint := by
    rw [List.pairwise_iff_getElem]
    intro i j inI inJ before page
    exact inv.held.apart i j _ _ (List.getElem?_eq_getElem inI) (List.getElem?_eq_getElem inJ) (by omega) page

/-- In every run whose calls meet the condition, the pages mapped for user code are those of the
records in every state. -/
theorem pagesExact_of_keeps {process : ProcessMemory} (start : ProcessStart process)
    {run : List (MemoryOp × ProcessMemory)} (isRun : IsRun memoryStep process run)
    (keeps : EveryStep (fun state op => op.Keeps state) process run) :
    ∀ state ∈ runStates process run, PagesExact state := by
  intro state member
  have preserves : ∀ s op t, memoryStep s op t → op.Keeps s → MemoryInv s → MemoryInv t :=
    fun _ _ _ => MemoryInv.step
  exact (inv_of_everyStep preserves isRun keeps (MemoryInv.of_start start) state member).pagesExact

/-- A process with a heap of four blocks at 0x10000, which its descriptor maps. -/
def smallProcess : ProcessMemory :=
  ⟨⟨(runCalls bumpAlloc bumpDesc [.mapRange 0x10000 0x10000 4 3] bumpCreated).mem,
    freshHeap 0x10000 0x14000 fourEntries⟩, bumpDesc, ⟨0, [], 0⟩, []⟩

theorem smallProcess_start : ProcessStart smallProcess := by
  refine .of_calls bumpAlloc_contract trivial bumpDesc_created (by decide) ?_ ?_ ?_ ?_
  · intro call member
    obtain rfl := List.mem_singleton.mp member
    exact ⟨by decide, by decide⟩
  · exact ⟨⟨⟨by decide, by decide, by decide⟩, ⟨by decide +kernel, by decide +kernel, by decide +kernel⟩,
      ⟨by decide +kernel, by decide +kernel, by decide +kernel⟩,
      ⟨by decide +kernel, by decide +kernel, by decide +kernel⟩, trivial⟩, trivial⟩
  · exact ⟨by decide, by decide, by decide, by decide, fun j inTable => .inl (if_pos inTable)⟩
  · decide +kernel

/-- The process after a call that returns a pointer. -/
def stateAfter (process : ProcessMemory) (result : Option (Nat × ProcessMemory)) : ProcessMemory :=
  (result.map Prod.snd).getD process

theorem eq_stateAfter {process : ProcessMemory} {result : Option (Nat × ProcessMemory)} {ptr : Nat}
    (found : result.map Prod.fst = some ptr) : result = some (ptr, stateAfter process result) := by
  cases result with
  | none => exact absurd found (by simp)
  | some pair => exact congrArg some (Prod.ext (Option.some.inj found) rfl)

def afterMalloc (process : ProcessMemory) (size : Nat) : ProcessMemory :=
  stateAfter process (processMalloc process size)

def afterFree (process : ProcessMemory) (ptr : Nat) : ProcessMemory :=
  (processFree process ptr).getD process

/-- A page is allocated and freed. -/
def freeRun : List (MemoryOp × ProcessMemory) :=
  let allocated := afterMalloc smallProcess 4096
  [(.malloc 4096, allocated), (.free 0x10000, afterFree allocated 0x10000)]

theorem pagesExact_freeRun : IsRun memoryStep smallProcess freeRun ∧
    ∀ state ∈ runStates smallProcess freeRun, PagesExact state := by
  have isRun : IsRun memoryStep smallProcess freeRun := by
    refine ⟨⟨by decide, 0x10000, eq_stateAfter (by decide +kernel)⟩, ?_, trivial⟩
    have found : (processFree (afterMalloc smallProcess 4096) 0x10000).isSome := by decide +kernel
    obtain ⟨next, result⟩ := Option.isSome_iff_exists.mp found
    change processFree _ _ = some ((processFree _ _).getD _)
    rw [result]
    rfl
  refine ⟨isRun, pagesExact_of_keeps smallProcess_start isRun ⟨fun _ _ _ => ?_, trivial, trivial⟩⟩
  change 0 ≤ heapGetStartBlock _ _
  decide +kernel

/-- Two pages of a second allocation are reduced to one. -/
def shrinkRun : List (MemoryOp × ProcessMemory) :=
  let one := afterMalloc smallProcess 4096
  let two := afterMalloc one 8192
  [(.malloc 4096, one), (.malloc 8192, two),
    (.realloc 0x12000 4096, stateAfter two (processRealloc two 0x12000 4096))]

/-- The page that was given up can still be reached. -/
theorem shrinkRun_not_exact : ProcessStart smallProcess ∧ IsRun memoryStep smallProcess shrinkRun ∧
    ¬ ∀ state ∈ runStates smallProcess shrinkRun, PagesExact state := by
  refine ⟨smallProcess_start, ⟨⟨by decide, 0x10000, eq_stateAfter (by decide +kernel)⟩,
    ⟨by decide, 0x12000, eq_stateAfter (by decide +kernel)⟩, ⟨by decide, by decide +kernel, by decide,
    by decide, 0x12000, eq_stateAfter (by decide +kernel)⟩, trivial⟩, fun allExact => ?_⟩
  have final := (allExact _ (List.mem_cons_of_mem _ (List.mem_cons_of_mem _ (List.mem_cons_of_mem _
    List.mem_cons_self)))).exact 0x13000 (by decide)
  have recorded := final.mp ⟨⟨.mapTo 0x12000 0x12000 0x14000 7, by decide +kernel, by decide +kernel⟩,
    (0x5000, 19), ⟨19, true, true, true⟩, by decide +kernel, rfl, rfl⟩
  revert recorded
  unfold PageIn
  decide +kernel

end ViOS.Process
