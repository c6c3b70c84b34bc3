import ViOS.Memory.Heap
import ViOS.Memory.Paging
import Mathlib.Data.List.Basic

/-! # Several heaps as one

`multiheap.c` strings heaps together.  An allocation takes the first heap that has
room.  Once paging runs, a heap that allows it gets a second heap, its paging heap, of
virtual addresses: an allocation no heap has a run of blocks for can then be put
together from single blocks, mapped next to each other.

A `struct heap` is named by a number, since the heap the structures come from is one of
the heaps of the list.  The result `none` stands for a panic and for the use of a null
pointer.  `kzalloc` is `multiheap_alloc` of the same multiheap, so that `paging_map`
takes its tables from it.

* `multiheapAdd`, `multiheapAddExistingHeap`, `multiheapReady` — the list is made.
* `multiheapAlloc`, `multiheapPalloc` — one pass, or two.
* `multiheapGetHeapForAddress`, `multiheapGetPagingHeapForAddress` — whose a pointer is.
* `multiheapFree`, `multiheapRealloc` — what is done with the answer.
-/

namespace ViOS.Memory

/-! ## The list of heaps -/

def multiheapHeapFlagExternallyOwned : Nat := 0b00000001
def multiheapHeapFlagDefragmentWithPaging : Nat := 0b00000010
def multiheapFlagIsReady : Nat := 0x01

/-- `struct multiheap_single_heap`. -/
structure MultiheapSingleHeap where
  heap : Nat
  pagingHeap : Option Nat
  flags : Nat
  deriving DecidableEq, Repr

/-- `struct multiheap`, with its list. -/
structure Multiheap where
  startingHeap : Nat
  heaps : List MultiheapSingleHeap
  maxEndDataAddr : Nat
  flags : Nat
  totalHeaps : Nat
  deriving DecidableEq, Repr

/-- The multiheap of the kernel and the heaps made so far. -/
structure Heaps where
  heapAt : Nat → Heap
  created : Nat
  multiheap : Multiheap

def Heaps.set (heaps : Heaps) (name : Nat) (heap : Heap) : Heaps :=
  { heaps with heapAt := Function.update heaps.heapAt name heap }

/-- A new `struct heap`: its name. -/
def Heaps.new (heaps : Heaps) (heap : Heap) : Nat × Heaps :=
  (heaps.created, { heaps.set heaps.created heap with created := heaps.created + 1 })

/-- `heap_malloc` of one of the heaps. -/
def Heaps.malloc (heaps : Heaps) (name size : Nat) : Nat × Heaps :=
  let (ptr, heap) := heapMalloc (heaps.heapAt name) size
  (ptr, heaps.set name heap)

/-- `heap_zalloc` of one of the heaps. -/
def Heaps.zalloc (heaps : Heaps) (name size : Nat) : Nat × Heaps :=
  let (ptr, heap) := heapZalloc (heaps.heapAt name) size
  (ptr, heaps.set name heap)

/-- `heap_free` of one of the heaps that has no callbacks. -/
def Heaps.free (heaps : Heaps) (name ptr : Nat) : Option Heaps :=
  (heapFree (heaps.heapAt name) ptr).map (heaps.set name)

def sizeofHeap : Nat := 64
def sizeofHeapTable : Nat := 16
def sizeofMultiheapSingleHeap : Nat := 32
def sizeofMultiheap : Nat := 40

/-- A zeroed `struct heap_table`. -/
def zeroTable : HeapTable := ⟨fun _ => heapBlockTableEntryFree, 0, by decide⟩

/-- A zeroed `struct heap`. -/
def zeroHeap : Heap := ⟨zeroTable, 0, 0, 0, 0, 0, false, false, []⟩

/-- `multiheap_new`; a null pointer when the starting heap is full. -/
def multiheapNew (heapAt : Nat → Heap) (created startingHeap : Nat) : Option Heaps :=
  let heaps : Heaps := ⟨heapAt, created, ⟨startingHeap, [], 0, 0, 0⟩⟩
  let (multiheap, heaps) := heaps.zalloc startingHeap sizeofMultiheap
  if multiheap = 0 then none else some heaps

/-- `multiheap_heap_allows_paging`. -/
def multiheapHeapAllowsPaging (heap : MultiheapSingleHeap) : Bool :=
  heap.flags &&& multiheapHeapFlagDefragmentWithPaging ≠ 0

/-- `multiheap_get_max_memory_end_address`. -/
def multiheapGetMaxMemoryEndAddress (heaps : Heaps) : Nat :=
  heaps.multiheap.heaps.foldl (fun maxAddr current =>
    let eaddr := (heaps.heapAt current.heap).eaddr
    if maxAddr ≤ eaddr then eaddr else maxAddr) 0

/-- `multiheap_is_ready`. -/
def multiheapIsReady (heaps : Heaps) : Bool := heaps.multiheap.flags &&& multiheapFlagIsReady ≠ 0

/-- `multiheap_can_add_heap`. -/
def multiheapCanAddHeap (heaps : Heaps) : Bool := !multiheapIsReady heaps

/-- `multiheap_add_heap`. -/
def multiheapAddHeap (heaps : Heaps) (heap flags : Nat) : Int × Heaps :=
  if !multiheapCanAddHeap heaps then (-einvarg, heaps)
  else
    let (newHeap, heaps) := heaps.zalloc heaps.multiheap.startingHeap sizeofMultiheapSingleHeap
    if newHeap = 0 then (-enomem, heaps)
    else
      (0, { heaps with multiheap := { heaps.multiheap with
        heaps := heaps.multiheap.heaps ++ [{ heap, pagingHeap := none, flags }]
        totalHeaps := heaps.multiheap.totalHeaps + 1 } })

/-- `multiheap_add_existing_heap`. -/
def multiheapAddExistingHeap (heaps : Heaps) (heap flags : Nat) : Int × Heaps :=
  multiheapAddHeap heaps heap (flags ||| multiheapHeapFlagExternallyOwned)

/-- `multiheap_add`: the table of the new heap is zeroed, so it has no entries. -/
def multiheapAdd (heaps : Heaps) (saddr eaddr flags : Nat) : Option (Int × Heaps) :=
  let (heap, heaps) := heaps.zalloc heaps.multiheap.startingHeap sizeofHeap
  let (table, heaps) := heaps.zalloc heaps.multiheap.startingHeap sizeofHeapTable
  if heap = 0 ∨ table = 0 then some (-enomem, heaps)
  else
    match heapCreate zeroHeap saddr eaddr zeroTable with
    | none => none
    | some (res, created) =>
      if res < 0 then do
        let heaps ← heaps.free heaps.multiheap.startingHeap heap
        let heaps ← heaps.free heaps.multiheap.startingHeap table
        return (res, heaps)
      else
        let (name, heaps) := heaps.new created
        some (multiheapAddHeap heaps name flags)

/-! ## Whose a pointer is -/

/-- `multiheap_get_heap_for_address`. -/
def multiheapGetHeapForAddress (heaps : Heaps) (address : Nat) : Option MultiheapSingleHeap :=
  heaps.multiheap.heaps.find? fun current =>
    heapIsAddressWithinHeap (heaps.heapAt current.heap) address

/-- `multiheap_is_address_virtual`. -/
def multiheapIsAddressVirtual (heaps : Heaps) (ptr : Nat) : Bool :=
  heaps.multiheap.maxEndDataAddr ≤ ptr

/-- `multiheap_virtual_address_to_physical`. -/
def multiheapVirtualAddressToPhysical (heaps : Heaps) (ptr : Nat) : Nat :=
  (ptr + (addressSpace - heaps.multiheap.maxEndDataAddr)) % addressSpace

/-- The loop of `multiheap_get_paging_heap_for_address`. -/
def pagingHeapLoop (heapAt : Nat → Heap) (address : Nat) :
    List MultiheapSingleHeap → Option (Option MultiheapSingleHeap)
  | [] => some none
  | current :: rest =>
    if !multiheapHeapAllowsPaging current then pagingHeapLoop heapAt address rest
    else
      match current.pagingHeap with
      | none => none
      | some pagingHeap =>
        if heapIsAddressWithinHeap (heapAt pagingHeap) address then some (some current)
        else pagingHeapLoop heapAt address rest

/-- `multiheap_get_paging_heap_for_address`. -/
def multiheapGetPagingHeapForAddress (heaps : Heaps) (address : Nat) :
    Option (Option MultiheapSingleHeap) :=
  pagingHeapLoop heaps.heapAt address heaps.multiheap.heaps

/-- What `multiheap_get_heap_and_paging_heap_for_address` writes. -/
structure HeapsForAddress where
  heap : Option MultiheapSingleHeap
  pagingHeap : Option MultiheapSingleHeap
  realPhysAddr : Nat
  deriving DecidableEq, Repr

/-- `multiheap_get_heap_and_paging_heap_for_address`. -/
def multiheapGetHeapAndPagingHeapForAddress (heaps : Heaps) (ptr : Nat) : Option HeapsForAddress :=
  if multiheapIsAddressVirtual heaps ptr then do
    let pagingHeap ← multiheapGetPagingHeapForAddress heaps ptr
    let realAddr := multiheapVirtualAddressToPhysical heaps ptr
    return ⟨multiheapGetHeapForAddress heaps realAddr, pagingHeap, realAddr⟩
  else some ⟨multiheapGetHeapForAddress heaps ptr, none, ptr⟩

/-! ## Allocation -/

/-- The loop of `multiheap_alloc_first_pass`. -/
def firstPassLoop (size : Nat) : List MultiheapSingleHeap → Heaps → Nat × Heaps
  | [], heaps => (0, heaps)
  | current :: rest, heaps =>
    let (allocationPtr, heaps) := heaps.malloc current.heap size
    if allocationPtr ≠ 0 then (allocationPtr, heaps) else firstPassLoop size rest heaps

/-- `multiheap_alloc_first_pass`. -/
def multiheapAllocFirstPass (heaps : Heaps) (size : Nat) : Nat × Heaps :=
  firstPassLoop size heaps.multiheap.heaps heaps

/-- `multiheap_alloc`. -/
def multiheapAlloc (heaps : Heaps) (size : Nat) : Nat × Heaps := multiheapAllocFirstPass heaps size

/-- The tables of the kernel and the heaps. -/
abbrev KernelMemory := PagingState Heaps

/-- The loop of `multiheap_alloc_paging`: the pointer, and the heap it belongs to. -/
def allocPagingLoop (size totalRequiredBlocks : Nat) :
    List MultiheapSingleHeap → Heaps → Option (Nat × Option MultiheapSingleHeap × Heaps)
  | [], heaps => some (0, none, heaps)
  | current :: rest, heaps =>
    if !multiheapHeapAllowsPaging current then allocPagingLoop size totalRequiredBlocks rest heaps
    else if (heaps.heapAt current.heap).freeBlocks < totalRequiredBlocks then
      allocPagingLoop size totalRequiredBlocks rest heaps
    else
      match current.pagingHeap with
      | none => none
      | some pagingHeap =>
        let (allocationPtr, heaps) := heaps.malloc pagingHeap size
        if allocationPtr ≠ 0 then some (allocationPtr, some current, heaps)
        else allocPagingLoop size totalRequiredBlocks rest heaps

/-- `multiheap_alloc_paging`. -/
def multiheapAllocPaging (heaps : Heaps) (size : Nat) :
    Option (Nat × Option MultiheapSingleHeap × Heaps) :=
  allocPagingLoop size (size / viosHeapBlockSize) heaps.multiheap.heaps heaps

/-- The loop of `multiheap_alloc_second_pass`, with `rest` blocks to go. -/
def mapBlocksLoop (desc : PagingDesc) (realHeap : Nat) :
    (rest currentAddr : Nat) → KernelMemory → Option KernelMemory
  | 0, _, memory => some memory
  | rest + 1, currentAddr, memory =>
    let (blockAddr, heaps) := memory.alloc.zalloc realHeap viosHeapBlockSize
    if blockAddr = 0 then none
    else
      let memory := { memory with alloc := heaps }
      let memory := (pagingMap multiheapAlloc desc currentAddr blockAddr
        (pagingIsWriteable ||| pagingIsPresent) memory).2
      mapBlocksLoop desc realHeap rest ((currentAddr + viosHeapBlockSize) % addressSpace) memory

/-- `multiheap_alloc_second_pass`. -/
def multiheapAllocSecondPass (pagingCurrentDescriptor : Option PagingDesc) (memory : KernelMemory)
    (size : Nat) : Option (Nat × KernelMemory) := do
  let desc ← pagingCurrentDescriptor
  let size := heapAlignValueToUpper size
  let totalBlocks := size / viosHeapBlockSize
  let (saddr, chosenRealHeap, heaps) ← multiheapAllocPaging memory.alloc size
  let memory := { memory with alloc := heaps }
  if saddr = 0 then return (0, memory)
  else
    let chosenRealHeap ← chosenRealHeap
    let memory ← mapBlocksLoop desc chosenRealHeap.heap totalBlocks saddr memory
    return (saddr, memory)

/-- `multiheap_palloc`. -/
def multiheapPalloc (pagingCurrentDescriptor : Option PagingDesc) (memory : KernelMemory) (size : Nat) :
    Option (Nat × KernelMemory) :=
  let (allocationPtr, heaps) := multiheapAllocFirstPass memory.alloc size
  let memory := { memory with alloc := heaps }
  if allocationPtr ≠ 0 then some (allocationPtr, memory)
  else multiheapAllocSecondPass pagingCurrentDescriptor memory size

/-! ## Release -/

/-- What one effect of a heap does to the tables: `multiheap_paging_heap_free_block` is the only
callback there is. -/
def multiheapPagingHeapFreeBlock (desc : PagingDesc) (memory : KernelMemory) :
    HeapEffect → KernelMemory
  | .blockFreed ptr => (pagingMap multiheapAlloc desc ptr 0 0 memory).2
  | _ => memory

/-- `heap_free` of one of the heaps, then the calls of its callback. -/
def freeIn (pagingCurrentDescriptor : Option PagingDesc) (name ptr : Nat) (memory : KernelMemory) :
    Option KernelMemory := do
  let before := memory.alloc.heapAt name
  let heap ← heapFree before ptr
  let memory := { memory with alloc := memory.alloc.set name heap }
  let effects := heap.effects.drop before.effects.length
  if effects = [] then return memory
  else
    let desc ← pagingCurrentDescriptor
    return effects.foldl (multiheapPagingHeapFreeBlock desc) memory

/-- The loop of `multiheap_free` over `rest` blocks from `i` on: each is released through
`freeBlock` at the address the tables give for it. -/
def freeBlocksLoop (freeBlock : Nat → KernelMemory → Option KernelMemory) (desc : PagingDesc)
    (ptr : Nat) : (rest i : Nat) → KernelMemory → Option KernelMemory
  | 0, _, memory => some memory
  | rest + 1, i, memory => do
    let virtualAddressForBlock := (ptr + i * viosHeapBlockSize) % addressSpace
    let dataPhysAddr := pagingGetPhysicalAddress memory.mem desc virtualAddressForBlock
    let memory ← freeBlock dataPhysAddr memory
    freeBlocksLoop freeBlock desc ptr rest (i + 1) memory

/-- The branch of `multiheap_free` for a pointer of a paging heap.  The blocks are counted from the
start of the heap, and their addresses from the pointer. -/
def freePaging (freeBlock : Nat → KernelMemory → Option KernelMemory)
    (pagingCurrentDescriptor : Option PagingDesc) (pagingHeap ptr : Nat) (memory : KernelMemory) :
    Option KernelMemory := do
  let heap := memory.alloc.heapAt pagingHeap
  let totalBlocks := heapAllocationBlockCount heap ptr
  let startingBlock := (heapAddressToBlock heap ptr).toNat
  let memory ← if totalBlocks = 0 then some memory else do
    let desc ← pagingCurrentDescriptor
    freeBlocksLoop freeBlock desc ptr totalBlocks startingBlock memory
  freeIn pagingCurrentDescriptor pagingHeap ptr memory

/-- `multiheap_free`, which calls itself at most `fuel` levels deep. -/
def multiheapFree (pagingCurrentDescriptor : Option PagingDesc) :
    (fuel ptr : Nat) → KernelMemory → Option KernelMemory
  | 0, _, _ => none
  | fuel + 1, ptr, memory => do
    let found ← multiheapGetHeapAndPagingHeapForAddress memory.alloc ptr
    match found.pagingHeap, found.heap with
    | some paging, _ =>
      let pagingHeap ← paging.pagingHeap
      freePaging (multiheapFree pagingCurrentDescriptor fuel) pagingCurrentDescriptor pagingHeap ptr
        memory
    | none, some phys => freeIn pagingCurrentDescriptor phys.heap found.realPhysAddr memory
    | none, none => return memory

/-- `heap_realloc` of one of the heaps, none of which has callbacks. -/
def reallocIn (name ptr newSize : Nat) (heaps : Heaps) : Option (Nat × Heaps) :=
  (heapRealloc (heaps.heapAt name) ptr newSize).map fun result => (result.1, heaps.set name result.2)

/-- `multiheap_realloc`: it panics on a pointer of a paging heap. -/
def multiheapRealloc (heaps : Heaps) (oldPtr newSize : Nat) : Option (Nat × Heaps) := do
  let found ← multiheapGetHeapAndPagingHeapForAddress heaps oldPtr
  match found.pagingHeap, found.heap with
  | some _, _ => none
  | none, some heapToUse => reallocIn heapToUse.heap oldPtr newSize heaps
  | none, none => return multiheapAlloc heaps newSize

/-! ## The paging heaps -/

/-- The part of `multiheap_ready` for one heap that allows paging: the name of its paging heap. -/
def makePagingHeap (desc : PagingDesc) (maxEndAddr heap : Nat) (memory : KernelMemory) :
    Option (Nat × KernelMemory) := do
  let current := memory.alloc.heapAt heap
  let startingAddress := (maxEndAddr + current.saddr) % addressSpace
  let endingAddress := (maxEndAddr + current.eaddr) % addressSpace
  let total := current.table.total
  let startingHeap := memory.alloc.multiheap.startingHeap
  let (table, heaps) := memory.alloc.zalloc startingHeap sizeofHeapTable
  if table = 0 then none
  else
    let (entries, heaps) := heaps.zalloc startingHeap total
    let (pagingHeap, heaps) := heaps.zalloc startingHeap sizeofHeap
    -- `heap_create` clears the structure and the entries
    if pagingHeap = 0 ∨ entries = 0 ∧ total ≠ 0 then none
    else
      let zeroed : HeapTable := ⟨fun _ => heapBlockTableEntryFree, total, current.table.total_le⟩
      let (_, created) ← heapCreate zeroHeap startingAddress endingAddress zeroed
      let (name, heaps) := heaps.new { created with blockFreeCallback := true }
      let memory := { memory with alloc := heaps }
      return (name, (pagingMapTo multiheapAlloc desc startingAddress startingAddress endingAddress 0
        memory).2)

/-- The loop of `multiheap_ready`: the list with its paging heaps. -/
def readyLoop (desc : PagingDesc) (maxEndAddr : Nat) :
    List MultiheapSingleHeap → KernelMemory → Option (List MultiheapSingleHeap × KernelMemory)
  | [], memory => some ([], memory)
  | current :: rest, memory => do
    if !multiheapHeapAllowsPaging current then
      let (rest, memory) ← readyLoop desc maxEndAddr rest memory
      return (current :: rest, memory)
    else
      let (pagingHeap, memory) ← makePagingHeap desc maxEndAddr current.heap memory
      let (rest, memory) ← readyLoop desc maxEndAddr rest memory
      return ({ current with pagingHeap := some pagingHeap } :: rest, memory)

/-- `multiheap_ready`. -/
def multiheapReady (pagingCurrentDescriptor : Option PagingDesc) (memory : KernelMemory) :
    Option KernelMemory := do
  let desc ← pagingCurrentDescriptor
  let maxEndAddr := multiheapGetMaxMemoryEndAddress memory.alloc
  let (heaps, memory) ← readyLoop desc maxEndAddr memory.alloc.multiheap.heaps memory
  return { memory with alloc := { memory.alloc with multiheap := { memory.alloc.multiheap with
    flags := memory.alloc.multiheap.flags ||| multiheapFlagIsReady
    maxEndDataAddr := maxEndAddr
    heaps } } }

end ViOS.Memory
