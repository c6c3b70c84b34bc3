import ViOS.Lib.Run
import ViOS.Memory.HeapRealloc
import ViOS.Memory.PagingMapped
import ViOS.Task.ValidateMemory

/-! # The memory of a process

`process_malloc`, `process_realloc` and `process_free` hand blocks of the kernel heap
to a user program.  Each keeps three things in step: the heap, the process's page
tables, where the blocks are mapped at their own addresses, and the records in
`process->allocations`, a vector that grows in the kernel heap as well.

The kernel heap is the one heap of `kernel_multiheap`: `multiheap_add` passes a table
without entries to `heap_create`, which refuses it.  `kfree` does nothing.  Elements of
a vector whose memory was lost are undefined, and then so is the call that reads them.

* `processMalloc`, `processRealloc`, `processFree` — the code.
* `PagesExact` — the pages mapped for user code are those of the records.
* `StaysInPlace`, `GrowthOk` — the calls that keep it.
-/

namespace ViOS.Process

open ViOS.Lib ViOS.Memory

/-! ## The kernel's allocator -/

/-- `kzalloc`. -/
def kzalloc (heap : Heap) (size : Nat) : Nat × Heap := heapZalloc heap size

/-- `krealloc`, i.e. `multiheap_realloc` with one heap and no paging heap. -/
def krealloc (heap : Heap) (oldPtr newSize : Nat) : Option (Nat × Heap) :=
  let realPhysAddr := if heap.eaddr ≤ oldPtr then oldPtr - heap.eaddr else oldPtr
  if heap.saddr ≤ realPhysAddr ∧ realPhysAddr ≤ heap.eaddr then heapRealloc heap oldPtr newSize
  else some (heapMalloc heap newSize)

/-! ## The vector of records -/

/-- `sizeof(struct process_allocation)`. -/
def allocationSize : Nat := 24

/-- `t_reserved_elements` of the vector that `process_init` makes. -/
def reservedElements : Nat := 10

/-- `struct vector` for the records: `elems` are the `t_elems` elements at `memory`. -/
structure RecordVector where
  memory : Nat
  elems : List ProcessAllocation
  tmElems : Nat

/-- The elements, undefined when they were stored in memory that is lost. -/
def RecordVector.read (vec : RecordVector) : Option (List ProcessAllocation) :=
  if vec.memory = 0 ∧ vec.elems ≠ [] then none else some vec.elems

/-- The bytes `vector_resize` asks for when the vector is to hold one more element. -/
def growthBytes (vec : RecordVector) : Nat := (reservedElements + (vec.elems.length + 1)) * allocationSize

/-- `vector_resize` for one more element. -/
def vectorResize (vec : RecordVector) (heap : Heap) : Option (Int × RecordVector × Heap) :=
  if vec.tmElems > vec.elems.length + 1 then some (0, vec, heap)
  else
    match krealloc heap vec.memory (growthBytes vec) with
    | none => none
    | some (memory, heap) =>
      if memory = 0 then some (-enomem, { vec with memory }, heap)
      else some (0, { vec with memory, tmElems := reservedElements + (vec.elems.length + 1) }, heap)

/-- `vector_push`. -/
def vectorPush (vec : RecordVector) (elem : ProcessAllocation) (heap : Heap) :
    Option (Int × RecordVector × Heap) :=
  match vectorResize vec heap with
  | none => none
  | some (res, vec, heap) =>
    if res < 0 then some (res, vec, heap)
    else some (vec.elems.length, { vec with elems := vec.elems ++ [elem] }, heap)

/-! ## The process -/

/-- The memory of a process, and the calls of `paging_map_to` made for it. -/
structure ProcessMemory where
  paging : PagingState Heap
  desc : PagingDesc
  allocations : RecordVector
  history : List PagingCall

/-- The page after the last byte of `size` bytes at `ptr`. -/
def rangeEnd (ptr size : Nat) : Nat := pagingAlignAddress ((ptr + size) % addressSpace)

/-- A call of `paging_map_to` that maps a range of the process at its own address. -/
def mapRangeOf (process : ProcessMemory) (ptr size flags : Nat) : Int × ProcessMemory :=
  let (res, paging) := pagingMapTo kzalloc process.desc ptr ptr (rangeEnd ptr size) flags process.paging
  (res, { process with
    paging, history := process.history ++ [.mapTo ptr ptr (rangeEnd ptr size) flags] })

/-- `process_find_free_allocation_index`. -/
def processFindFreeAllocationIndex (process : ProcessMemory) : Option (Int × ProcessMemory) :=
  match process.allocations.read with
  | none => none
  | some elems =>
    match elems.findIdx? fun a => a.ptr = 0 with
    | some index => some (index, process)
    | none =>
      match vectorPush process.allocations .cleared process.paging.alloc with
      | none => none
      | some (res, allocations, alloc) =>
        some (res, { process with allocations, paging := { process.paging with alloc } })

/-- The flags of user memory. -/
def userFlags : Nat := pagingIsWriteable ||| pagingIsPresent ||| pagingAccessFromAll

/-- `process_allocation_set_map`. -/
def processAllocationSetMap (process : ProcessMemory) (index ptr size : Nat) : Int × ProcessMemory :=
  let (res, process) := mapRangeOf process ptr size userFlags
  if res < 0 then (res, process)
  else if process.allocations.elems.length ≤ index then (-einvarg, process)
  else
    let record := ⟨ptr, (ptr + size) % addressSpace, size⟩
    (0, { process with allocations := { process.allocations with
      elems := process.allocations.elems.set index record } })

/-- `process_malloc`: the pointer and the process. -/
def processMalloc (process : ProcessMemory) (size : Nat) : Option (Nat × ProcessMemory) :=
  let (ptr, alloc) := kzalloc process.paging.alloc size
  let process := { process with paging := { process.paging with alloc } }
  if ptr = 0 then some (0, process)
  else
    match processFindFreeAllocationIndex process with
    | none => none
    | some (index, process) =>
      if index < 0 then some (0, process)
      else
        let (res, process) := processAllocationSetMap process index.toNat ptr size
        if res < 0 then some (0, process) else some (ptr, process)

/-- `process_allocation_exists`: the status and the index, which stays 0 when the pointer is not
found; then the status is that of the last `vector_at`. -/
def processAllocationExists (elems : List ProcessAllocation) (ptr : Nat) : Int × Nat :=
  match elems.findIdx? fun a => a.ptr = ptr with
  | some index => (0, index)
  | none => if elems = [] then (-enotfound, 0) else (0, 0)

/-- `process_realloc`. -/
def processRealloc (process : ProcessMemory) (oldVirtPtr newSize : Nat) : Option (Nat × ProcessMemory) :=
  match process.allocations.read with
  | none => none
  | some elems =>
    let (res, index) := processAllocationExists elems oldVirtPtr
    if res < 0 then some (0, process)
    else
      let oldPhysPtr := if oldVirtPtr = 0 then 0
        else pagingGetPhysicalAddress process.paging.mem process.desc oldVirtPtr
      if oldVirtPtr ≠ 0 ∧ oldPhysPtr = 0 then some (0, process)
      else
        match krealloc process.paging.alloc oldPhysPtr newSize with
        | none => none
        | some (newPtr, alloc) =>
          let process := { process with paging := { process.paging with alloc } }
          if newPtr = 0 then some (0, process)
          else some (newPtr, (processAllocationSetMap process index newPtr newSize).2)

/-- `process_allocation_unjoin`. -/
def processAllocationUnjoin (process : ProcessMemory) (ptr : Nat) : ProcessMemory :=
  { process with allocations := { process.allocations with
    elems := process.allocations.elems.map fun a => if a.ptr = ptr then .cleared else a } }

/-- `process_free`. -/
def processFree (process : ProcessMemory) (ptr : Nat) : Option ProcessMemory :=
  match process.allocations.read with
  | none => none
  | some elems =>
    match elems.find? fun a => a.ptr = ptr with
    | none => some process
    | some allocation =>
      let (res, process) := mapRangeOf process allocation.ptr allocation.size 0
      if res < 0 then some process else some (processAllocationUnjoin process ptr)

/-! ## Runs -/

inductive MemoryOp where
  | malloc (size : Nat)
  | realloc (ptr newSize : Nat)
  | free (ptr : Nat)
  deriving DecidableEq, Repr

/-- A call of one of the three functions; `process_realloc` is called on a recorded pointer with
a size that is not zero. -/
def memoryStep (process : ProcessMemory) : MemoryOp → ProcessMemory → Prop
  | .malloc size, next => size < addressSpace ∧ ∃ ptr, processMalloc process size = some (ptr, next)
  | .realloc ptr newSize, next => ptr ≠ 0 ∧ (∃ a ∈ process.allocations.elems, a.ptr = ptr) ∧
    0 < newSize ∧ newSize < addressSpace ∧ ∃ new, processRealloc process ptr newSize = some (new, next)
  | .free ptr, next => processFree process ptr = some next

/-! ## The property -/

/-- The page belongs to the range of a record. -/
def PageIn (a : ProcessAllocation) (page : Nat) : Prop :=
  a.ptr / pagingPageSize ≤ page ∧ page < rangeEnd a.ptr a.size / pagingPageSize

/-- Some call made for the process mapped or unmapped the page. -/
def Touched (history : List PagingCall) (page : Nat) : Prop := ∃ call ∈ history, call.covers page ≠ none

/-- The pages the calls made accessible to user code are those of the recorded allocations, which
have no page in common. -/
structure PagesExact (process : ProcessMemory) : Prop where
  exact : ∀ virt < 2 ^ 48,
    (Touched process.history (pageNumber virt) ∧
      UserAccessible process.paging.mem process.desc.pml virt) ↔
    ∃ a ∈ process.allocations.elems, PageIn a (pageNumber virt)
  disjoint : process.allocations.elems.Pairwise fun a b => ∀ page, ¬ (PageIn a page ∧ PageIn b page)

end ViOS.Process
