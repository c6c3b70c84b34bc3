import ViOS.Lib.Run
import ViOS.Memory.MultiheapOwner
import ViOS.Memory.PagingMapped

/-! # The page tables of the paging heaps

`multiheap_ready` maps every page of the paging heaps it makes, with no flags.  What
matters of that is the page tables, which come from the same multiheap: from then on
they are there, in blocks that are in use, and mapping a page of a paging heap takes no
memory.

* `InUse`, `multiheapAlloc_contract` — `multiheap_alloc` as the `kzalloc` of the tables.
* `ReadyProvided` — no table that `multiheap_ready` asks for is a null pointer.
* `PagingReady` — what it leaves behind, and `KernelStep`, which keeps it.
-/

namespace ViOS.Memory

open ViOS.Lib

/-! ## The blocks in use -/

/-- The names of the heaps of the list. -/
def Heaps.names (heaps : Heaps) : List Nat := heaps.multiheap.heaps.map (·.heap)

/-- The entry of the block is not free. -/
def UsedAt (heap : Heap) (block : Nat) : Prop :=
  heapGetEntryType (heap.table.entries block) ≠ heapBlockTableEntryFree

/-- The address is one of a block in use of a heap of the list. -/
def InUse (heaps : Heaps) (address : Nat) : Prop :=
  ∃ name ∈ heaps.names, ∃ block < (heaps.heapAt name).table.total,
    UsedAt (heaps.heapAt name) block ∧ address = blockAddress (heaps.heapAt name) block

/-- The blocks are frames, none of them at address zero, and the counter of `paging_map_range`, an
`int`, can count them. -/
structure Mappable (heap : Heap) : Prop where
  saddr_pos : 0 < heap.saddr
  eaddr_le : heap.eaddr ≤ 2 ^ 52
  total_lt : heap.table.total < 2 ^ 31

/-- Disjoint heaps of blocks that are frames. -/
structure Frames (heaps : Heaps) : Prop where
  ok : MultiheapOk heaps
  mappable : ∀ name ∈ heaps.names, Mappable (heaps.heapAt name)

theorem Mappable.of_same {heap heap' : Heap} (mappable : Mappable heap) (same : SamePool heap heap') :
    Mappable heap' where
  saddr_pos := same.saddr ▸ mappable.saddr_pos
  eaddr_le := same.eaddr ▸ mappable.eaddr_le
  total_lt := same.total ▸ mappable.total_lt

theorem SameHeaps.sameNames {heaps later : Heaps} (same : SameHeaps heaps later) :
    later.names = heaps.names := same.names

theorem UsedAt.malloc {heap : Heap} {block : Nat} (used : UsedAt heap block) (size : Nat) :
    UsedAt (heapMalloc heap size).2 block := by
  rcases heapMalloc_cases heap size with ⟨failed, -⟩ | ⟨start, entries, effects, -, -, run, -, marked, result⟩
  · rw [failed]
    exact used
  · have outside : ¬ (start ≤ block ∧ block < start + blocksForSize size) :=
      fun inside => used (run.free block inside.1 inside.2)
    rw [result]
    change heapGetEntryType (entries block) ≠ _
    rw [marked block, if_neg outside]
    exact used

theorem UsedAt.zalloc {heap : Heap} {block : Nat} (used : UsedAt heap block) (size : Nat) :
    UsedAt (heapZalloc heap size).2 block := by
  rw [UsedAt, heapZalloc_table]
  exact used.malloc size

namespace Frames

variable {heaps later : Heaps} {name : Nat}

theorem node (frames : Frames heaps) (listed : name ∈ heaps.names) :
    name < heaps.created ∧ PoolRange (heaps.heapAt name) ∧ Mappable (heaps.heapAt name) := by
  obtain ⟨node, member, rfl⟩ := List.mem_map.mp listed
  exact ⟨frames.ok.named node member, frames.ok.ranges node member, frames.mappable _ listed⟩

theorem sameHeaps (frames : Frames heaps) (same : SameHeaps heaps later) : Frames later where
  ok := frames.ok.sameHeaps same
  mappable := by
    intro name listed
    rw [same.sameNames] at listed
    obtain ⟨made, -, mappable⟩ := frames.node listed
    exact mappable.of_same (same.pools name made)

theorem keeps (frames : Frames heaps) (kept : Keeps heaps later) : Frames later :=
  frames.sameHeaps kept.sameHeaps

/-- Blocks of listed heaps with the same address are the same block. -/
theorem block_eq (frames : Frames heaps) {other block block' : Nat} (listed : name ∈ heaps.names)
    (otherListed : other ∈ heaps.names) (inTable : block < (heaps.heapAt name).table.total)
    (inOther : block' < (heaps.heapAt other).table.total)
    (same : blockAddress (heaps.heapAt name) block = blockAddress (heaps.heapAt other) block') :
    name = other ∧ block = block' := by
  have inRange : ∀ {name block}, name ∈ heaps.names → block < (heaps.heapAt name).table.total →
      blockAddress (heaps.heapAt name) block ∈ (heaps.heapAt name).range := by
    intro name block listed inTable
    have range := (frames.node listed).2.1.eaddr_eq
    have before := Nat.mul_lt_mul_of_pos_right inTable (show 0 < viosHeapBlockSize by decide)
    refine ⟨Nat.le_add_right _ _, ?_⟩
    unfold blockAddress
    omega
  have sameName : name = other := by
    by_contra different
    obtain ⟨first, firstMember, rfl⟩ := List.mem_map.mp listed
    obtain ⟨second, secondMember, rfl⟩ := List.mem_map.mp otherListed
    have symm : Std.Symm fun first second : MultiheapSingleHeap =>
        Disjoint (heaps.heapAt first.heap).range (heaps.heapAt second.heap).range :=
      ⟨fun _ _ disjoint => disjoint.symm⟩
    have apart := frames.ok.disjoint.forall firstMember secondMember
      fun sameNode => different (congrArg MultiheapSingleHeap.heap sameNode)
    exact Set.disjoint_left.mp apart (inRange listed inTable) (same ▸ inRange otherListed inOther)
  refine ⟨sameName, ?_⟩
  subst sameName
  unfold blockAddress viosHeapBlockSize at same
  omega

theorem blockToAddress (frames : Frames heaps) (listed : name ∈ heaps.names) {block : Nat}
    (inTable : block < (heaps.heapAt name).table.total) :
    heapBlockToAddress (heaps.heapAt name) block = blockAddress (heaps.heapAt name) block := by
  obtain ⟨-, range, mappable⟩ := frames.node listed
  have eaddr := range.eaddr_eq
  have low := mappable.eaddr_le
  refine Nat.mod_eq_of_lt ?_
  unfold viosHeapBlockSize addressSpace at *
  omega

/-- The address of a block is one of a frame. -/
theorem frame (frames : Frames heaps) (listed : name ∈ heaps.names) {block : Nat}
    (inTable : block < (heaps.heapAt name).table.total) :
    blockAddress (heaps.heapAt name) block % pagingPageSize = 0 ∧
      blockAddress (heaps.heapAt name) block < 2 ^ 52 ∧ blockAddress (heaps.heapAt name) block ≠ 0 := by
  obtain ⟨-, range, mappable⟩ := frames.node listed
  have aligned := range.aligned
  have eaddr := range.eaddr_eq
  have low := mappable.eaddr_le
  have positive := mappable.saddr_pos
  unfold blockAddress viosHeapBlockSize pagingPageSize at *
  omega

end Frames

namespace InUse

variable {heaps later : Heaps} {address name : Nat}

/-- A block stays in use while its entry does. -/
theorem keeps (used : InUse heaps address) (frames : Frames heaps) (same : SameHeaps heaps later)
    (entries : ∀ name ∈ heaps.names, ∀ block, UsedAt (heaps.heapAt name) block →
      UsedAt (later.heapAt name) block) : InUse later address := by
  obtain ⟨name, listed, block, inTable, usedAt, rfl⟩ := used
  have pool := same.pools name (frames.node listed).1
  refine ⟨name, same.sameNames ▸ listed, block, pool.total ▸ inTable, entries name listed block usedAt, ?_⟩
  rw [blockAddress, blockAddress, pool.saddr]

theorem set (used : InUse heaps address) (frames : Frames heaps) {heap : Heap}
    (same : SamePool (heaps.heapAt name) heap)
    (entries : ∀ block, UsedAt (heaps.heapAt name) block → UsedAt heap block) :
    InUse (heaps.set name heap) address := by
  refine used.keeps frames (Keeps.set same).sameHeaps fun other _ block usedAt => ?_
  by_cases this : other = name
  · subst this
    simpa [Heaps.set] using entries block usedAt
  · simpa [Heaps.set, this] using usedAt

theorem malloc (used : InUse heaps address) (frames : Frames heaps) (name size : Nat) :
    InUse (heaps.malloc name size).2 address :=
  used.set frames (samePool_heapMalloc _ _) fun _ usedAt => usedAt.malloc size

theorem zalloc (used : InUse heaps address) (frames : Frames heaps) (name size : Nat) :
    InUse (heaps.zalloc name size).2 address :=
  used.set frames (samePool_heapZalloc _ _) fun _ usedAt => usedAt.zalloc size

theorem new (used : InUse heaps address) (frames : Frames heaps) (heap : Heap) :
    InUse (heaps.new heap).2 address := by
  refine used.keeps frames (Keeps.new heaps heap).sameHeaps fun name listed block usedAt => ?_
  have other : name ≠ heaps.created := (frames.node listed).1.ne
  simpa [Heaps.new, Heaps.set, other] using usedAt

end InUse

/-! ## `multiheap_alloc` as an allocator of tables -/

/-- A heap of the list that does not fail hands out a block that was not in use. -/
theorem malloc_fresh {heaps : Heaps} {name size : Nat} (frames : Frames heaps)
    (listed : name ∈ heaps.names) (provided : (heaps.malloc name size).1 ≠ 0) :
    Fresh (InUse heaps) (InUse (heaps.malloc name size).2) (heaps.malloc name size).1 := by
  rcases heapMalloc_cases (heaps.heapAt name) size with
    ⟨failed, -⟩ | ⟨start, entries, effects, -, positive, run, inside, marked, result⟩
  · exact absurd (congrArg Prod.fst failed) provided
  · have inTable : start < (heaps.heapAt name).table.total := by omega
    have ptr : (heaps.malloc name size).1 = blockAddress (heaps.heapAt name) start := by
      rw [← frames.blockToAddress listed inTable]
      exact congrArg Prod.fst result
    have pool := samePool_heapMalloc (heaps.heapAt name) size
    obtain ⟨aligned, small, -⟩ := frames.frame listed inTable
    rw [ptr]
    constructor
    case aligned => exact aligned
    case small => exact small
    case fresh =>
      rintro ⟨other, otherListed, block, inOther, used, same⟩
      obtain ⟨rfl, rfl⟩ := frames.block_eq listed otherListed inTable inOther same
      exact used (run.free start (Nat.le_refl _) (by omega))
    case keeps => exact fun address used => used.malloc frames name size
    case takes =>
      have stored : (heaps.malloc name size).2.heapAt name = (heapMalloc (heaps.heapAt name) size).2 :=
        Function.update_self _ _ _
      refine ⟨name, listed, start, ?_, ?_, ?_⟩
      · rw [stored, pool.total]
        exact inTable
      · rw [stored, result]
        change heapGetEntryType (entries start) ≠ _
        rw [marked start, if_pos ⟨Nat.le_refl _, by omega⟩, chainEntry_taken]
        decide
      · rw [stored, blockAddress, blockAddress, pool.saddr]

theorem firstPassLoop_fresh {size : Nat} (nodes : List MultiheapSingleHeap) :
    ∀ {heaps : Heaps}, Frames heaps → (∀ node ∈ nodes, node.heap ∈ heaps.names) →
      (∀ address, InUse heaps address → InUse (firstPassLoop size nodes heaps).2 address) ∧
      ((firstPassLoop size nodes heaps).1 ≠ 0 →
        Fresh (InUse heaps) (InUse (firstPassLoop size nodes heaps).2) (firstPassLoop size nodes heaps).1) := by
  induction nodes with
  | nil =>
    intro heaps _ _
    exact ⟨fun _ used => used, fun provided => absurd rfl provided⟩
  | cons current rest ih =>
    intro heaps frames listed
    have kept := Keeps.malloc heaps current.heap size
    have grows := fun address (used : InUse heaps address) => used.malloc frames current.heap size
    simp only [firstPassLoop]
    split
    · exact ⟨grows, malloc_fresh frames (listed current List.mem_cons_self)⟩
    · obtain ⟨restGrows, restFresh⟩ := ih (frames.keeps kept) fun node member =>
        kept.sameHeaps.sameNames.symm ▸ listed node (List.mem_cons_of_mem _ member)
      refine ⟨fun address used => restGrows address (grows address used), fun provided => ?_⟩
      have fresh := restFresh provided
      exact ⟨fresh.aligned, fresh.small, fun used => fresh.fresh (grows _ used),
        fun address used => fresh.keeps address (grows address used), fresh.takes⟩

theorem multiheapAlloc_contract : BlockContract multiheapAlloc Frames InUse where
  stays := fun heaps size frames => frames.keeps (Keeps.alloc heaps size)
  keeps := fun heaps _ address frames used =>
    (firstPassLoop_fresh heaps.multiheap.heaps frames fun _ member =>
      List.mem_map_of_mem member).1 address used
  fresh := fun heaps _ frames provided =>
    (firstPassLoop_fresh heaps.multiheap.heaps frames fun _ member =>
      List.mem_map_of_mem member).2 provided

/-! ## Tables stay -/

section Contract

variable {α : Type*} {kzalloc : α → Nat → Nat × α} {valid : α → Prop} {taken : α → Nat → Prop}
  {pml : Nat} {a b c : PagingState α}

/-- The tables below `pml` are there still, in a tree of blocks that are taken. -/
structure Grows (valid : α → Prop) (taken : α → Nat → Prop) (pml : Nat) (state next : PagingState α) :
    Prop where
  inv : PagingInv valid taken pml next
  tables : ∀ virt, HasTable state.mem pml virt → HasTable next.mem pml virt

theorem Grows.refl (inv : PagingInv valid taken pml a) : Grows valid taken pml a a :=
  ⟨inv, fun _ => id⟩

theorem Grows.trans (ab : Grows valid taken pml a b) (bc : Grows valid taken pml b c) :
    Grows valid taken pml a c where
  inv := bc.inv
  tables := fun virt there => bc.tables virt (ab.tables virt there)

/-- The allocator was used for something else. -/
theorem Grows.of_alloc {alloc : α} (inv : PagingInv valid taken pml a) (isValid : valid alloc)
    (grows : ∀ block, taken a.alloc block → taken alloc block) :
    Grows valid taken pml a { a with alloc } where
  inv := ⟨(inv.tree.congr fun word table short reached =>
    ⟨rfl, grows table (inv.tree.owned word table short reached)⟩).2, isValid⟩
  tables := fun _ => id

theorem pagingMap_grows (contract : BlockContract kzalloc valid taken) {desc : PagingDesc}
    {virt : Nat} (phys flags : Nat) (inv : PagingInv valid taken desc.pml a)
    (ok : TablesOk kzalloc desc.pml virt a) :
    Grows valid taken desc.pml a (pagingMap kzalloc desc virt phys flags a).2 ∧
      HasTable (pagingMap kzalloc desc virt phys flags a).2.mem desc.pml virt := by
  obtain ⟨invAfter, maps, -⟩ : _ ∧ Maps desc.pml virt phys flags a _ ∧ _ :=
    pagingMap_spec contract inv ok
  refine ⟨⟨invAfter, fun va there => (maps.tables _ (by simp [wordOf])).mpr (.inl there)⟩, ?_⟩
  exact (maps.tables _ (by simp [wordOf])).mpr (.inr List.prefix_rfl)

theorem mapRangeLoop_grows (contract : BlockContract kzalloc valid taken) {desc : PagingDesc} {flags : Nat}
    (count : Nat) : ∀ {virt phys : Nat} {res : Int} {state : PagingState α},
      RangeOk kzalloc desc flags count virt phys state → PagingInv valid taken desc.pml state →
      Grows valid taken desc.pml state (mapRangeLoop kzalloc desc flags count virt phys res state).2 ∧
        (virt + count * pagingPageSize < addressSpace → ∀ i < count,
          HasTable (mapRangeLoop kzalloc desc flags count virt phys res state).2.mem desc.pml
            (virt + i * pagingPageSize)) := by
  induction count with
  | zero =>
    intro virt phys res state _ inv
    exact ⟨.refl inv, fun _ i small => absurd small (Nat.not_lt_zero i)⟩
  | succ count ih =>
    intro virt phys res state ok inv
    obtain ⟨grows, there⟩ := pagingMap_grows contract phys flags inv ok.1
    obtain ⟨restGrows, restThere⟩ := @ih _ _ 0 _ ok.2 grows.inv
    -- `paging_map` returns 0, so that the loop goes on
    have result : mapRangeLoop kzalloc desc flags (count + 1) virt phys res state =
        mapRangeLoop kzalloc desc flags count ((virt + pagingPageSize) % addressSpace)
          ((phys + pagingPageSize) % addressSpace) 0 (pagingMap kzalloc desc virt phys flags state).2 := by
      rw [mapRangeLoop]
      rfl
    rw [result]
    refine ⟨grows.trans restGrows, fun fits i small => ?_⟩
    cases i with
    | zero =>
      rw [Nat.zero_mul, Nat.add_zero]
      exact restGrows.tables _ there
    | succ i =>
      have next : (virt + pagingPageSize) % addressSpace = virt + pagingPageSize := by
        refine Nat.mod_eq_of_lt ?_
        unfold pagingPageSize at *
        omega
      have shift : virt + (i + 1) * pagingPageSize = virt + pagingPageSize + i * pagingPageSize := by
        unfold pagingPageSize
        omega
      have restFits : virt + pagingPageSize + count * pagingPageSize < addressSpace := by
        unfold pagingPageSize at *
        omega
      rw [next] at restThere ⊢
      rw [shift]
      exact restThere restFits i (Nat.lt_of_succ_lt_succ small)

end Contract

/-! ## The state after `multiheap_ready` -/

/-- What `multiheap_ready` does for one heap before it maps the pages of the paging heap. -/
def newPagingHeap (maxEndAddr heap : Nat) (heaps : Heaps) : Option (Nat × Heaps) := do
  let current := heaps.heapAt heap
  let total := current.table.total
  let startingHeap := heaps.multiheap.startingHeap
  let (table, heaps) := heaps.zalloc startingHeap sizeofHeapTable
  if table = 0 then none
  else
    let (entries, heaps) := heaps.zalloc startingHeap total
    let (pagingHeap, heaps) := heaps.zalloc startingHeap sizeofHeap
    if pagingHeap = 0 ∨ entries = 0 ∧ total ≠ 0 then none
    else
      let zeroed : HeapTable := ⟨fun _ => heapBlockTableEntryFree, total, current.table.total_le⟩
      let (_, created) ← heapCreate zeroHeap ((maxEndAddr + current.saddr) % addressSpace)
        ((maxEndAddr + current.eaddr) % addressSpace) zeroed
      return heaps.new { created with blockFreeCallback := true }

/-- The call of `paging_map_to` for the paging heap of a heap. -/
def mapPagingHeap (maxEndAddr : Nat) (heap : Heap) : PagingCall :=
  .mapTo ((maxEndAddr + heap.saddr) % addressSpace) ((maxEndAddr + heap.saddr) % addressSpace)
    ((maxEndAddr + heap.eaddr) % addressSpace) 0

theorem makePagingHeap_eq (desc : PagingDesc) (maxEndAddr heap : Nat) (memory : KernelMemory) :
    makePagingHeap desc maxEndAddr heap memory =
      (newPagingHeap maxEndAddr heap memory.alloc).map fun made =>
        (made.1, runCall multiheapAlloc desc { memory with alloc := made.2 }
          (mapPagingHeap maxEndAddr (memory.alloc.heapAt heap))) := by
  simp only [makePagingHeap, newPagingHeap]
  split
  · rfl
  · split
    · rfl
    · cases heapCreate zeroHeap ((maxEndAddr + (memory.alloc.heapAt heap).saddr) % addressSpace)
        ((maxEndAddr + (memory.alloc.heapAt heap).eaddr) % addressSpace)
        ⟨fun _ => heapBlockTableEntryFree, (memory.alloc.heapAt heap).table.total,
          (memory.alloc.heapAt heap).table.total_le⟩ <;> rfl

/-- No table that `multiheap_ready` asks `kzalloc` for is a null pointer: in its loop over the heaps,
each call of `paging_map_to` finds the tables it needs or is provided with them. -/
def ReadyProvided (desc : PagingDesc) (maxEndAddr : Nat) : List MultiheapSingleHeap → KernelMemory → Prop
  | [], _ => True
  | current :: rest, memory =>
    if !multiheapHeapAllowsPaging current then ReadyProvided desc maxEndAddr rest memory
    else
      ∀ made ∈ newPagingHeap maxEndAddr current.heap memory.alloc,
        CallOk multiheapAlloc desc { memory with alloc := made.2 }
            (mapPagingHeap maxEndAddr (memory.alloc.heapAt current.heap)) ∧
          ReadyProvided desc maxEndAddr rest (runCall multiheapAlloc desc { memory with alloc := made.2 }
            (mapPagingHeap maxEndAddr (memory.alloc.heapAt current.heap)))

instance (state : KernelMemory) (table index : Nat) : Decidable (NextTableOk multiheapAlloc state table index) :=
  inferInstanceAs (Decidable (_ → _))

instance (pml virt : Nat) (state : KernelMemory) : Decidable (TablesOk multiheapAlloc pml virt state) :=
  inferInstanceAs (Decidable (_ ∧ _ ∧ _))

instance decidableRangeOk (desc : PagingDesc) (flags : Nat) :
    ∀ (count virt phys : Nat) (state : KernelMemory),
      Decidable (RangeOk multiheapAlloc desc flags count virt phys state)
  | 0, _, _, _ => isTrue trivial
  | count + 1, _, _, _ =>
    have := decidableRangeOk desc flags count
    inferInstanceAs (Decidable (_ ∧ _))

instance (desc : PagingDesc) (state : KernelMemory) (virt phys physEnd flags : Nat) :
    Decidable (CallOk multiheapAlloc desc state (.mapTo virt phys physEnd flags)) :=
  inferInstanceAs (Decidable (_ → _))

instance decidableReadyProvided (desc : PagingDesc) (maxEndAddr : Nat) :
    ∀ (nodes : List MultiheapSingleHeap) (memory : KernelMemory),
      Decidable (ReadyProvided desc maxEndAddr nodes memory)
  | [], _ => isTrue trivial
  | current :: rest, memory =>
    have := decidableReadyProvided desc maxEndAddr rest
    have (made : Nat × Heaps) : Decidable (CallOk multiheapAlloc desc { memory with alloc := made.2 }
        (mapPagingHeap maxEndAddr (memory.alloc.heapAt current.heap))) :=
      inferInstanceAs (Decidable (CallOk _ _ _ (.mapTo _ _ _ _)))
    inferInstanceAs (Decidable (if !multiheapHeapAllowsPaging current then
        ReadyProvided desc maxEndAddr rest memory
      else ∀ made ∈ newPagingHeap maxEndAddr current.heap memory.alloc,
        CallOk multiheapAlloc desc { memory with alloc := made.2 }
            (mapPagingHeap maxEndAddr (memory.alloc.heapAt current.heap)) ∧
          ReadyProvided desc maxEndAddr rest _))

/-- The paging heap of a heap has a page table for each of its pages. -/
def PagesHaveTables (mem : Nat → Nat → PagingDescEntry) (pml maxEnd : Nat) (heap : Heap) : Prop :=
  ∀ block < heap.table.total, HasTable mem pml (maxEnd + blockAddress heap block)

theorem PagesHaveTables.of_same {mem mem' : Nat → Nat → PagingDescEntry} {pml maxEnd : Nat}
    {heap heap' : Heap} (there : PagesHaveTables mem pml maxEnd heap) (same : SamePool heap heap')
    (stay : ∀ virt, HasTable mem pml virt → HasTable mem' pml virt) :
    PagesHaveTables mem' pml maxEnd heap' := by
  intro block inTable
  rw [blockAddress, same.saddr]
  exact stay _ (there block (same.total ▸ inTable))

/-- The structures of a paging heap are made without harm to the heaps that are there. -/
theorem newPagingHeap_spec {maxEnd heap name : Nat} {heaps later : Heaps} (frames : Frames heaps)
    (made : newPagingHeap maxEnd heap heaps = some (name, later)) :
    Keeps heaps later ∧ ∀ address, InUse heaps address → InUse later address := by
  simp only [newPagingHeap] at made
  split at made
  · exact absurd made (by simp)
  · split at made
    · exact absurd made (by simp)
    · simp only [Option.bind_eq_bind, Option.bind_eq_some_iff, Prod.exists] at made
      obtain ⟨res, created, -, result⟩ := made
      have laterEq := (Prod.mk.inj (Option.some.inj result)).2
      have first := Keeps.zalloc heaps heaps.multiheap.startingHeap sizeofHeapTable
      have second := first.trans (Keeps.zalloc _ heaps.multiheap.startingHeap (heaps.heapAt heap).table.total)
      have third := second.trans (Keeps.zalloc _ heaps.multiheap.startingHeap sizeofHeap)
      subst laterEq
      refine ⟨third.trans (Keeps.new _ _), fun address used => ?_⟩
      have one := used.zalloc frames heaps.multiheap.startingHeap sizeofHeapTable
      have two := one.zalloc (frames.keeps first) heaps.multiheap.startingHeap (heaps.heapAt heap).table.total
      have three := two.zalloc (frames.keeps second) heaps.multiheap.startingHeap sizeofHeap
      exact three.new (frames.keeps third) _

theorem mapPagingHeap_grows {desc : PagingDesc} {maxEnd : Nat} {heap : Heap} {memory : KernelMemory}
    (range : PoolRange heap) (maxAligned : maxEnd % viosHeapBlockSize = 0)
    (maxLow : 2 * maxEnd < addressSpace) (inv : PagingInv Frames InUse desc.pml memory)
    (ok : CallOk multiheapAlloc desc memory (mapPagingHeap maxEnd heap)) :
    Grows Frames InUse desc.pml memory (runCall multiheapAlloc desc memory (mapPagingHeap maxEnd heap)) ∧
      PagesHaveTables (runCall multiheapAlloc desc memory (mapPagingHeap maxEnd heap)).mem desc.pml
        maxEnd heap := by
  have low := range.low
  have eaddr := range.eaddr_eq
  have aligned := range.aligned
  have saddrEq : (maxEnd + heap.saddr) % addressSpace = maxEnd + heap.saddr := Nat.mod_eq_of_lt (by omega)
  have eaddrEq : (maxEnd + heap.eaddr) % addressSpace = maxEnd + heap.eaddr := Nat.mod_eq_of_lt (by omega)
  have valid : MapToValid (maxEnd + heap.saddr) (maxEnd + heap.saddr) (maxEnd + heap.eaddr) := by
    unfold MapToValid pagingPageSize
    unfold viosHeapBlockSize at *
    omega
  have count : (maxEnd + heap.eaddr - (maxEnd + heap.saddr)) / pagingPageSize = heap.table.total := by
    unfold pagingPageSize
    unfold viosHeapBlockSize at *
    omega
  simp only [mapPagingHeap, saddrEq, eaddrEq, CallOk, runCall] at ok ⊢
  have provided := ok valid
  have result : pagingMapTo multiheapAlloc desc (maxEnd + heap.saddr) (maxEnd + heap.saddr)
      (maxEnd + heap.eaddr) 0 memory = mapRangeLoop multiheapAlloc desc 0 heap.table.total
        (maxEnd + heap.saddr) (maxEnd + heap.saddr) 0 memory := by
    obtain ⟨virtOk, physOk, endOk, ordered⟩ := valid
    rw [pagingMapTo, if_neg (by omega), if_neg (by omega), if_neg (by omega), if_neg (by omega),
      pagingMapRange, count]
  rw [count] at provided
  obtain ⟨grows, there⟩ := @mapRangeLoop_grows _ _ _ _ multiheapAlloc_contract desc 0 heap.table.total
    (maxEnd + heap.saddr) (maxEnd + heap.saddr) 0 memory provided inv
  have fits : maxEnd + heap.saddr + heap.table.total * pagingPageSize < addressSpace := by
    unfold viosHeapBlockSize at eaddr
    unfold pagingPageSize
    omega
  rw [result]
  refine ⟨grows, fun block inTable => ?_⟩
  have here := there fits block inTable
  rwa [Nat.add_assoc] at here

/-- The loop leaves page tables for the pages of every paging heap it makes. -/
theorem readyLoop_tables {desc : PagingDesc} {maxEnd : Nat} (maxAligned : maxEnd % viosHeapBlockSize = 0)
    (maxLow : 2 * maxEnd < addressSpace) (nodes : List MultiheapSingleHeap) :
    ∀ {nodes' : List MultiheapSingleHeap} {memory later : KernelMemory},
      (∀ node ∈ nodes, node.heap ∈ memory.alloc.names) → PagingInv Frames InUse desc.pml memory →
      ReadyProvided desc maxEnd nodes memory → readyLoop desc maxEnd nodes memory = some (nodes', later) →
      Keeps memory.alloc later.alloc ∧ Grows Frames InUse desc.pml memory later ∧
        ∀ node ∈ nodes, multiheapHeapAllowsPaging node = true →
          PagesHaveTables later.mem desc.pml maxEnd (memory.alloc.heapAt node.heap) := by
  induction nodes with
  | nil =>
    intro nodes' memory later _ inv _ looped
    obtain ⟨-, rfl⟩ := Prod.mk.inj (Option.some.inj looped)
    exact ⟨.refl _, .refl inv, fun node member => absurd member List.not_mem_nil⟩
  | cons current rest ih =>
    intro nodes' memory later listed inv provided looped
    have restListed := fun node member => listed node (List.mem_cons_of_mem current member)
    rw [readyLoop] at looped
    rw [ReadyProvided] at provided
    -- a node that does not allow paging gets no paging heap
    cases allows : multiheapHeapAllowsPaging current with
    | false =>
      simp only [allows, Bool.not_false, if_true] at looped provided
      simp only [Option.bind_eq_bind, Option.bind_eq_some_iff, Prod.exists] at looped
      obtain ⟨rest', memory', restLooped, result⟩ := looped
      obtain ⟨-, rfl⟩ := Prod.mk.inj (Option.some.inj result)
      obtain ⟨kept, grows, there⟩ := ih restListed inv provided restLooped
      refine ⟨kept, grows, fun node member nodeAllows => ?_⟩
      cases List.mem_cons.mp member with
      | inl same => exact absurd (same ▸ nodeAllows) (by rw [allows]; decide)
      | inr later => exact there node later nodeAllows
    | true =>
      simp only [allows, Bool.not_true, Bool.false_eq_true, if_false] at looped provided
      simp only [makePagingHeap_eq, Option.bind_eq_bind, Option.bind_eq_some_iff, Option.map_eq_some_iff,
        Prod.exists] at looped
      obtain ⟨name, middle, ⟨made, heaps, madeEq, middleEq⟩, rest', memory', restLooped, result⟩ := looped
      obtain ⟨-, rfl⟩ := Prod.mk.inj (Option.some.inj result)
      obtain ⟨-, rfl⟩ := Prod.mk.inj middleEq
      have provided := provided (made, heaps) madeEq
      obtain ⟨keptFirst, usedFirst⟩ := newPagingHeap_spec inv.allocValid madeEq
      have growsFirst := Grows.of_alloc inv (inv.allocValid.keeps keptFirst) usedFirst
      obtain ⟨currentMade, range, -⟩ := inv.allocValid.node (listed current List.mem_cons_self)
      obtain ⟨growsMap, thereMap⟩ := mapPagingHeap_grows range maxAligned maxLow growsFirst.inv provided.1
      -- the tables of this node stay while the later nodes are mapped
      have keptMap : Keeps memory.alloc (runCall multiheapAlloc desc { memory with alloc := heaps }
          (mapPagingHeap maxEnd (memory.alloc.heapAt current.heap))).alloc :=
        Keeps.mapTo desc _ _ _ _ keptFirst
      obtain ⟨keptRest, growsRest, thereRest⟩ := ih
        (fun node member => keptMap.sameHeaps.sameNames.symm ▸ restListed node member)
        growsMap.inv provided.2 restLooped
      refine ⟨keptMap.trans keptRest, (growsFirst.trans growsMap).trans growsRest, fun node member nodeAllows => ?_⟩
      cases List.mem_cons.mp member with
      | inl same =>
        subst same
        exact thereMap.of_same (.refl _) growsRest.tables
      | inr later =>
        have pool := keptMap.pools _ (inv.allocValid.node (restListed node later)).1
        have there := thereRest node later nodeAllows
        intro block inTable
        have here := there block (pool.total.symm ▸ inTable)
        rwa [blockAddress, pool.saddr] at here

/-- The multiheap is ready, and the descriptor has a page table for each page of its paging heaps. -/
structure PagingReady (desc : PagingDesc) (memory : KernelMemory) : Prop where
  inv : PagingInv Frames InUse desc.pml memory
  ready : Ready memory.alloc
  tables : ∀ node ∈ memory.alloc.multiheap.heaps, multiheapHeapAllowsPaging node = true →
    PagesHaveTables memory.mem desc.pml memory.alloc.multiheap.maxEndDataAddr
      (memory.alloc.heapAt node.heap)

theorem SameHeaps.node {heaps later : Heaps} (same : SameHeaps heaps later) {node : MultiheapSingleHeap}
    (member : node ∈ later.multiheap.heaps) :
    ∃ old ∈ heaps.multiheap.heaps, old.heap = node.heap ∧ old.flags = node.flags := by
  have inOld : node.member ∈ heaps.multiheap.heaps.map (·.member) := by
    rw [← same.members]
    exact List.mem_map_of_mem member
  obtain ⟨old, oldMember, sameMember⟩ := List.mem_map.mp inOld
  exact ⟨old, oldMember, congrArg Prod.fst sameMember, congrArg Prod.snd sameMember⟩

theorem multiheapReady_pagingReady {desc : PagingDesc} {before ready : KernelMemory}
    (inv : PagingInv Frames InUse desc.pml before)
    (provided : ReadyProvided desc (multiheapGetMaxMemoryEndAddress before.alloc)
      before.alloc.multiheap.heaps before)
    (readied : multiheapReady (some desc) before = some ready) : PagingReady desc ready := by
  obtain ⟨same, isReady⟩ := multiheapReady_spec inv.allocValid.ok readied
  simp only [multiheapReady, Option.bind_eq_bind, Option.bind_eq_some_iff, Prod.exists] at readied
  obtain ⟨_, descEq, nodes, later, looped, result⟩ := readied
  obtain rfl := Option.some.inj descEq
  obtain ⟨kept, grows, there⟩ := readyLoop_tables (maxEnd_aligned inv.allocValid.ok)
    (maxEnd_low inv.allocValid.ok) before.alloc.multiheap.heaps (fun node member => List.mem_map_of_mem member) inv provided looped
  obtain rfl := Option.some.inj result
  have frames := inv.allocValid.sameHeaps same
  -- only the list's pointers to the paging heaps change after the loop
  have sameLater : SameHeaps later.alloc { later.alloc with multiheap := { later.alloc.multiheap with
      flags := before.alloc.multiheap.flags ||| multiheapFlagIsReady
      maxEndDataAddr := multiheapGetMaxMemoryEndAddress before.alloc
      heaps := nodes } } :=
    ⟨by rw [kept.multiheap]; exact same.members, Nat.le_refl _, fun _ _ => .refl _⟩
  have tree := (grows.inv.tree.congr fun word table short reached =>
    ⟨rfl, (grows.inv.tree.owned word table short reached).keeps grows.inv.allocValid sameLater
      fun _ _ _ used => used⟩).2
  refine ⟨⟨tree, frames⟩, isReady, fun node member allows => ?_⟩
  obtain ⟨old, oldMember, sameName, sameFlags⟩ := same.node member
  have oldAllows : multiheapHeapAllowsPaging old = true := by
    rw [multiheapHeapAllowsPaging, sameFlags]
    exact allows
  rw [← sameName]
  exact (there old oldMember oldAllows).of_same
    (kept.pools _ (inv.allocValid.ok.named old oldMember)) fun _ => id

/-! ## What the kernel does later -/

/-- The tables below `pml` are left as they are, and their blocks are not released. -/
structure LeavesTables (pml : Nat) (memory next : KernelMemory) : Prop where
  keeps : Keeps memory.alloc next.alloc
  tables : ∀ path table, path.length ≤ 3 → Radix.walk childTable memory.mem pml path = some table →
    next.mem table = memory.mem table ∧ (InUse memory.alloc table → InUse next.alloc table)

/-- What happens between `multiheap_ready` and an allocation. -/
inductive KernelOp where
  | map (virt phys flags : Nat)
  | other
  deriving DecidableEq, Repr

/-- Pages are mapped in the descriptor; its tables are left alone by all else, be it the use of the
heaps or of other descriptors. -/
def KernelStep (desc : PagingDesc) (memory : KernelMemory) : KernelOp → KernelMemory → Prop
  | .map virt phys flags, next => TablesOk multiheapAlloc desc.pml virt memory ∧
    next = (pagingMap multiheapAlloc desc virt phys flags memory).2
  | .other, next => LeavesTables desc.pml memory next

theorem LeavesTables.grows {pml : Nat} {memory next : KernelMemory} (leaves : LeavesTables pml memory next)
    (inv : PagingInv Frames InUse pml memory) : Grows Frames InUse pml memory next := by
  obtain ⟨walks, tree⟩ := inv.tree.congr fun word table short reached => by
    obtain ⟨same, stays⟩ := leaves.tables word table short reached
    exact ⟨same, stays (inv.tree.owned word table short reached)⟩
  refine ⟨⟨tree, inv.allocValid.keeps leaves.keeps⟩, fun virt there => ?_⟩
  unfold HasTable
  rwa [walks _ (by simp [wordOf])]

/-- `multiheap_alloc` is such a use of the heaps. -/
theorem multiheapAlloc_leaves {pml : Nat} {memory : KernelMemory} (frames : Frames memory.alloc)
    (size : Nat) : LeavesTables pml memory { memory with alloc := (multiheapAlloc memory.alloc size).2 } where
  keeps := Keeps.alloc memory.alloc size
  tables := fun _ table _ _ => ⟨rfl, multiheapAlloc_contract.keeps memory.alloc size table frames⟩

namespace PagingReady

variable {desc : PagingDesc} {memory next : KernelMemory}

theorem later (ready : PagingReady desc memory) (kept : Keeps memory.alloc next.alloc)
    (grows : Grows Frames InUse desc.pml memory next) : PagingReady desc next where
  inv := grows.inv
  ready := ready.ready.keeps ready.inv.allocValid.ok kept
  tables := by
    intro node member allows
    rw [kept.multiheap] at member ⊢
    exact (ready.tables node member allows).of_same
      (kept.pools _ (ready.inv.allocValid.ok.named node member)) grows.tables

theorem step {op : KernelOp} (ready : PagingReady desc memory) (stepped : KernelStep desc memory op next) :
    PagingReady desc next := by
  cases op with
  | map virt phys flags =>
    obtain ⟨ok, rfl⟩ := stepped
    refine ready.later ?_ (pagingMap_grows multiheapAlloc_contract phys flags ready.inv ok).1
    exact pagingMap_alloc (fun heaps size kept => kept.trans (Keeps.alloc heaps size)) desc virt phys flags
      (Keeps.refl memory.alloc)
  | other => exact ready.later stepped.keeps (stepped.grows ready.inv)

theorem run {run : List (KernelOp × KernelMemory)} (ready : PagingReady desc memory)
    (isRun : IsRun (KernelStep desc) memory run) : ∀ later ∈ runStates memory run, PagingReady desc later := by
  have allOk : EveryStep (fun _ _ => True) memory run :=
    everyStep_of_inv (fun _ _ _ stepped ready => ready.step stepped) (fun _ _ _ _ _ => trivial) isRun ready
  exact inv_of_everyStep (fun _ _ _ stepped _ ready => ready.step stepped) isRun allOk ready

end PagingReady

end ViOS.Memory
