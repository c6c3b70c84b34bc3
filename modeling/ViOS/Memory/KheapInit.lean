import ViOS.Memory.HeapRuns
import ViOS.Memory.Kheap
import ViOS.Memory.MultiheapOwner

/-! # Which memory the kernel gets to use

After it has laid out its first heap, `kheap_init` walks the memory map once more and
passes every other usable region to `multiheap_add`.  That function makes a block table
for the new heap and leaves it zeroed: a table without entries, which `heap_create`
compares with the blocks of the region and refuses.  Its status is ignored.

* `kheapInit` — the code.
* `Booted` — the state it keeps: one heap, whose first block is taken.
* `everyRegionPresent_iff` — the other regions are in the multiheap just when there are none.
-/

namespace ViOS.Memory

/-! ## `kheap_init` -/

/-- The range of a region after it was cut to whole pages above the minimal heap's address. -/
def regionRange (current : E820Entry) : Nat × Nat :=
  let baseAddr := current.baseAddr.toNat
  let endAddr := current.endAddr % addressSpace
  let baseAddr := if !pagingIsAligned baseAddr then pagingAlignAddress baseAddr else baseAddr
  let endAddr := if !pagingIsAligned endAddr then pagingAlignToLowerPage endAddr else endAddr
  let baseAddr := if baseAddr < viosMinimalHeapAddress then viosMinimalHeapAddress else baseAddr
  (baseAddr, endAddr)

/-- The last loop of `kheap_init`, over the entries from index `i` on. -/
def addRegionsLoop (usedEntry : Nat) : (i : Nat) → List E820Entry → Heaps → Option Heaps
  | _, [], heaps => some heaps
  | i, current :: rest, heaps =>
    if i ≠ usedEntry ∧ current.type = 1 then
      let (baseAddr, endAddr) := regionRange current
      if endAddr ≤ baseAddr then addRegionsLoop usedEntry (i + 1) rest heaps
      else
        match multiheapAdd heaps baseAddr endAddr multiheapHeapFlagDefragmentWithPaging with
        | none => none
        | some (_, heaps) => addRegionsLoop usedEntry (i + 1) rest heaps
    else addRegionsLoop usedEntry (i + 1) rest heaps

/-- `kheap_init`.  `tableBytes` is the memory at the address of the table; the heap `0` is
`kernel_minimal_heap`. -/
def kheapInit (tableBytes : Nat → UInt8) (map : List E820Entry) : Option Heaps := do
  let usedEntry ← kheapGetAllowableMemoryRegionForMinimalHeap map
  let entry ← map[usedEntry]?
  let layout := kheapLayout entry
  if fits : layout.totalTableEntries ≤ 2 ^ 48 then
    let table : HeapTable := ⟨tableBytes, layout.totalTableEntries, fits⟩
    let (res, minimalHeap) ← heapCreate zeroHeap layout.heapAddress layout.heapEndAddress table
    if res < 0 then none
    else
      let heaps ← multiheapNew (fun _ => minimalHeap) 1 0
      let heaps := (multiheapAddExistingHeap heaps 0 multiheapHeapFlagExternallyOwned).2
      addRegionsLoop usedEntry 0 map heaps
  else none

/-! ## What it should have done -/

/-- The region is a heap of its own, with one free entry for each of its blocks. -/
def RegionPresent (heaps : Heaps) (range : Nat × Nat) : Prop :=
  ∃ node ∈ heaps.multiheap.heaps,
    (heaps.heapAt node.heap).saddr = range.1 ∧ (heaps.heapAt node.heap).eaddr = range.2 ∧
    (heaps.heapAt node.heap).table.total = (range.2 - range.1) / viosHeapBlockSize ∧
    ∀ j < (heaps.heapAt node.heap).table.total,
      (heaps.heapAt node.heap).table.entries j = heapBlockTableEntryFree

/-- The entry is a usable region other than the chosen one, and something of it is left. -/
structure OtherRegion (map : List E820Entry) (entry : E820Entry) : Prop where
  listed : ∃ index, map[index]? = some entry ∧
    kheapGetAllowableMemoryRegionForMinimalHeap map ≠ some index
  usable : entry.type = 1
  nonempty : (regionRange entry).1 < (regionRange entry).2

/-- Every usable region is present. -/
def EveryRegionPresent (map : List E820Entry) (heaps : Heaps) : Prop :=
  ∀ entry, OtherRegion map entry → RegionPresent heaps (regionRange entry)

/-! ## A heap of single blocks -/

/-- The entry of an allocation of one block. -/
def singleEntry : UInt8 := heapBlockTableEntryTaken ||| heapBlockIsFirst

/-- All allocations have one block, and the first block is one of them. -/
structure SingleBlocks (heap : Heap) : Prop where
  fits : heap.saddr + heap.table.total * viosHeapBlockSize < addressSpace
  single : ∀ j < heap.table.total,
    heap.table.entries j = heapBlockTableEntryFree ∨ heap.table.entries j = singleEntry
  first : 0 < heap.table.total ∧ heap.table.entries 0 = singleEntry

/-- The pointer is an allocation of one block, other than the first one. -/
def HoldsBlock (heap : Heap) (ptr start : Nat) : Prop :=
  0 < start ∧ start < heap.table.total ∧ ptr = heap.saddr + start * viosHeapBlockSize ∧
    heap.table.entries start = singleEntry

theorem SingleBlocks.of_entries {heap heap' : Heap} (blocks : SingleBlocks heap)
    (same : SamePool heap heap') {start : Nat} {entry : UInt8} (notFirst : start ≠ 0)
    (entryOk : entry = heapBlockTableEntryFree ∨ entry = singleEntry)
    (entries : heap'.table.entries = Function.update heap.table.entries start entry) :
    SingleBlocks heap' where
  fits := by
    rw [same.saddr, same.total]
    exact blocks.fits
  single := by
    intro j inTable
    rw [same.total] at inTable
    rw [entries]
    by_cases this : j = start
    · subst this
      rwa [Function.update_self]
    · rw [Function.update_of_ne this]
      exact blocks.single j inTable
  first := by
    rw [same.total, entries, Function.update_of_ne notFirst.symm]
    exact blocks.first

theorem SingleBlocks.blockAddress_lt {heap : Heap} (blocks : SingleBlocks heap) {block : Nat}
    (inTable : block < heap.table.total) :
    heap.saddr + block * viosHeapBlockSize < addressSpace := by
  have before := Nat.mul_le_mul_right viosHeapBlockSize inTable.le
  have fits := blocks.fits
  omega

theorem SingleBlocks.zalloc {heap : Heap} (blocks : SingleBlocks heap) {size : Nat}
    (one : blocksForSize size = 1) :
    SingleBlocks (heapZalloc heap size).2 ∧
      (∀ ptr start, HoldsBlock heap ptr start → HoldsBlock (heapZalloc heap size).2 ptr start) ∧
      ((heapZalloc heap size).1 ≠ 0 → ∃ start,
        heap.table.entries start = heapBlockTableEntryFree ∧
        HoldsBlock (heapZalloc heap size).2 (heapZalloc heap size).1 start) := by
  rcases heapMalloc_cases heap size with ⟨failed, -⟩ | ⟨start, entries, effects, -, -, run, inside, marked, taken⟩
  · have result : heapZalloc heap size = (0, heap) := by simp [heapZalloc, failed]
    rw [result]
    exact ⟨blocks, fun _ _ held => held, fun served => absurd rfl served⟩
  · rw [one] at run inside marked
    have wasFree : heap.table.entries start = heapBlockTableEntryFree := by
      have free := run.free start le_rfl (by omega)
      refine (blocks.single start (by omega)).resolve_right fun held => ?_
      rw [held] at free
      exact absurd free (by decide)
    -- the multiheap itself holds the first block
    have notFirst : start ≠ 0 := by
      rintro rfl
      rw [blocks.first.2] at wasFree
      exact absurd wasFree (by decide)
    have updated : (heapZalloc heap size).2.table.entries =
        Function.update heap.table.entries start singleEntry := by
      have inTable : (heapZalloc heap size).2.table.entries = entries := by
        rw [heapZalloc_table, taken]
        rfl
      funext j
      rw [inTable, marked j, Function.update_apply]
      by_cases this : j = start
      · subst this
        rw [if_pos (by omega), if_pos rfl, Nat.sub_self]
        rfl
      · rw [if_neg (by omega), if_neg this]
    have same := samePool_heapZalloc heap size
    have address : heapBlockToAddress heap start = heap.saddr + start * viosHeapBlockSize :=
      Nat.mod_eq_of_lt (blocks.blockAddress_lt (by omega))
    refine ⟨blocks.of_entries same notFirst (.inr rfl) updated, ?_, fun served => ⟨start, wasFree, ?_⟩⟩
    · rintro ptr other ⟨positive, inTable, ptrEq, held⟩
      -- a block that is held is not the free one that was taken
      have different : other ≠ start := by
        rintro rfl
        rw [wasFree] at held
        exact absurd held (by decide)
      refine ⟨positive, by rw [same.total]; exact inTable, by rw [same.saddr]; exact ptrEq, ?_⟩
      rw [updated, Function.update_of_ne different]
      exact held
    · have ptrEq : (heapZalloc heap size).1 = heapBlockToAddress heap start := by
        simp only [heapZalloc, taken] at served ⊢
        split at served
        · exact absurd rfl served
        · rename_i notNull
          rw [if_neg notNull]
      refine ⟨Nat.pos_of_ne_zero notFirst, by rw [same.total]; omega, ?_, ?_⟩
      · rw [ptrEq, address, same.saddr]
      · rw [updated, Function.update_self]

theorem SingleBlocks.free {heap heap' : Heap} (blocks : SingleBlocks heap) {ptr start : Nat}
    (holds : HoldsBlock heap ptr start) (freed : heapFree heap ptr = some heap') :
    SingleBlocks heap' ∧ SamePool heap heap' ∧
      ∀ other otherStart, otherStart ≠ start → HoldsBlock heap other otherStart →
        HoldsBlock heap' other otherStart := by
  obtain ⟨positive, inTable, rfl, entry⟩ := holds
  have total := heap.table.total_le
  have block : heapAddressToBlock heap (heap.saddr + start * viosHeapBlockSize) = start := by
    exact addressToBlock_of_block heap start (blocks.blockAddress_lt inTable) (by omega)
  obtain ⟨result, resultEq, same, cleared⟩ := heapFree_reach block
  rw [freed, Option.some.injEq] at resultEq
  subst resultEq
  have reach : chainReach heap.table.entries (heap.table.total - start) start = 1 := by
    obtain ⟨rest, restEq⟩ := Nat.exists_eq_add_of_lt inTable
    have more : heap.table.total - start = rest + 1 := by omega
    have last : hasFlag singleEntry heapBlockHasNext = false := by decide
    rw [more, chainReach, entry, last]
    rfl
  have updated : heap'.table.entries =
      Function.update heap.table.entries start heapBlockTableEntryFree := by
    funext j
    rw [cleared j, reach, Function.update_apply]
    exact if_congr (by omega) rfl rfl
  refine ⟨blocks.of_entries same (Nat.pos_iff_ne_zero.mp positive) (.inl rfl) updated, same, ?_⟩
  rintro other otherStart different ⟨otherPositive, otherInTable, otherEq, held⟩
  refine ⟨otherPositive, by rw [same.total]; exact otherInTable, by rw [same.saddr]; exact otherEq, ?_⟩
  rw [updated, Function.update_of_ne different]
  exact held

/-! ## The state `kheap_init` keeps -/

/-- No other heap than the minimal one is in the list, and its first block is taken. -/
structure Booted (heaps : Heaps) : Prop where
  listed : ∀ node ∈ heaps.multiheap.heaps, node.heap = 0
  starting : heaps.multiheap.startingHeap = 0
  blocks : SingleBlocks (heaps.heapAt 0)

theorem blocksForSize_small {size : Nat} (positive : 0 < size) (small : size ≤ viosHeapBlockSize) :
    blocksForSize size = 1 := by
  unfold blocksForSize heapAlignValueToUpper addressSpace
  unfold viosHeapBlockSize at *
  split <;> omega

theorem Booted.set {heaps : Heaps} (booted : Booted heaps) {heap : Heap} (blocks : SingleBlocks heap) :
    Booted (heaps.set 0 heap) :=
  ⟨booted.listed, booted.starting, by simpa [Heaps.set] using blocks⟩

theorem Booted.zalloc {heaps : Heaps} (booted : Booted heaps) {size : Nat}
    (one : blocksForSize size = 1) :
    Booted (heaps.zalloc 0 size).2 ∧
      (∀ ptr start, HoldsBlock (heaps.heapAt 0) ptr start →
        HoldsBlock ((heaps.zalloc 0 size).2.heapAt 0) ptr start) ∧
      ((heaps.zalloc 0 size).1 ≠ 0 → ∃ start,
        (heaps.heapAt 0).table.entries start = heapBlockTableEntryFree ∧
        HoldsBlock ((heaps.zalloc 0 size).2.heapAt 0) (heaps.zalloc 0 size).1 start) := by
  obtain ⟨blocks, kept, new⟩ := booted.blocks.zalloc one
  refine ⟨booted.set blocks, ?_, ?_⟩
  · simpa [Heaps.zalloc, Heaps.set] using kept
  · simpa [Heaps.zalloc, Heaps.set] using new

theorem Booted.free {heaps heaps' : Heaps} (booted : Booted heaps) {ptr start : Nat}
    (holds : HoldsBlock (heaps.heapAt 0) ptr start) (freed : heaps.free 0 ptr = some heaps') :
    Booted heaps' ∧ Keeps heaps heaps' ∧ ∀ other otherStart, otherStart ≠ start →
      HoldsBlock (heaps.heapAt 0) other otherStart → HoldsBlock (heaps'.heapAt 0) other otherStart := by
  obtain ⟨heap, heapEq, rfl⟩ := Option.map_eq_some_iff.mp freed
  obtain ⟨blocks, same, kept⟩ := booted.blocks.free holds heapEq
  exact ⟨booted.set blocks, Keeps.set same, by simpa [Heaps.set] using kept⟩

theorem heapValidateTable_cases (difference : Int) (table : HeapTable) :
    heapValidateTable difference table = -einvarg ∨ heapValidateTable difference table = viosAllOk := by
  unfold heapValidateTable
  dsimp only
  split
  · exact .inl rfl
  · exact .inr rfl

theorem heapCreate_status {before heap : Heap} {ptr endPtr : Nat} {table : HeapTable} {res : Int}
    (created : heapCreate before ptr endPtr table = some (res, heap)) : res < 0 ∨ res = 0 := by
  unfold heapCreate at created
  split at created
  · rw [← (Prod.mk.inj (Option.some.inj created)).1]
    exact .inl (by decide)
  · split at created
    · exact absurd created (by simp)
    · rename_i difference _
      have status : res = heapValidateTable difference table := by
        dsimp only at created
        split_ifs at created <;> exact (Prod.mk.inj (Option.some.inj created)).1.symm
      rcases heapValidateTable_cases difference table with failed | passed
      · rw [status, failed]
        exact .inl (by decide)
      · rw [status, passed]
        exact .inr rfl

/-- An empty table is refused for a region that is not empty. -/
theorem heapCreate_zeroTable {saddr eaddr : Nat} {res : Int} {heap : Heap} (nonempty : saddr < eaddr)
    (created : heapCreate zeroHeap saddr eaddr zeroTable = some (res, heap)) : res < 0 := by
  refine (heapCreate_status created).resolve_right fun accepted => ?_
  rw [accepted] at created
  have region := (heapCreate_ok created).1
  have empty : zeroTable.total * viosHeapBlockSize = 0 := rfl
  omega

/-- `multiheap_add` never adds a region: the table it made is refused and given back. -/
theorem Booted.add {heaps heaps' : Heaps} (booted : Booted heaps) {saddr eaddr flags : Nat} {res : Int}
    (nonempty : saddr < eaddr) (added : multiheapAdd heaps saddr eaddr flags = some (res, heaps')) :
    Booted heaps' ∧ Keeps heaps heaps' := by
  have oneHeap : blocksForSize sizeofHeap = 1 := blocksForSize_small (by decide) (by decide)
  have oneTable : blocksForSize sizeofHeapTable = 1 := blocksForSize_small (by decide) (by decide)
  obtain ⟨withHeap, -, newHeap⟩ := booted.zalloc oneHeap
  obtain ⟨withTable, kept, newTable⟩ := withHeap.zalloc oneTable
  have taken : Keeps heaps ((heaps.zalloc 0 sizeofHeap).2.zalloc 0 sizeofHeapTable).2 :=
    (Keeps.zalloc heaps 0 sizeofHeap).trans (Keeps.zalloc _ 0 sizeofHeapTable)
  simp only [multiheapAdd, booted.starting, withHeap.starting, withTable.starting] at added
  split at added
  · obtain ⟨-, rfl⟩ := Prod.mk.inj (Option.some.inj added)
    exact ⟨withTable, taken⟩
  · rename_i bothMade
    obtain ⟨heapMade, tableMade⟩ := not_or.mp bothMade
    obtain ⟨heapStart, -, heapHeld⟩ := newHeap heapMade
    obtain ⟨tableStart, tableWasFree, tableHeld⟩ := newTable tableMade
    have different : tableStart ≠ heapStart := by
      rintro rfl
      rw [heapHeld.2.2.2] at tableWasFree
      exact absurd tableWasFree (by decide)
    split at added
    · exact absurd added (by simp)
    · rename_i status created createdEq
      rw [if_pos (heapCreate_zeroTable nonempty createdEq)] at added
      simp only [Option.bind_eq_bind, Option.bind_eq_some_iff] at added
      obtain ⟨first, firstFreed, second, secondFreed, result⟩ := added
      obtain ⟨-, rfl⟩ := Prod.mk.inj (Option.some.inj result)
      obtain ⟨firstBooted, firstKept, stillHeld⟩ := withTable.free (kept _ _ heapHeld) firstFreed
      rw [firstBooted.starting] at secondFreed
      obtain ⟨secondBooted, secondKept, -⟩ :=
        firstBooted.free (stillHeld _ _ different tableHeld) secondFreed
      exact ⟨secondBooted, (taken.trans firstKept).trans secondKept⟩

theorem Booted.addRegionsLoop {usedEntry : Nat} (entries : List E820Entry) :
    ∀ {i : Nat} {heaps heaps' : Heaps}, Booted heaps →
      addRegionsLoop usedEntry i entries heaps = some heaps' → Booted heaps' ∧ Keeps heaps heaps' := by
  induction entries with
  | nil =>
    intro i heaps heaps' booted looped
    obtain rfl := Option.some.inj looped
    exact ⟨booted, .refl heaps⟩
  | cons current rest ih =>
    intro i heaps heaps' booted looped
    simp only [Memory.addRegionsLoop] at looped
    split at looped
    · split at looped
      · exact ih booted looped
      · rename_i nonempty
        split at looped
        · exact absurd looped (by simp)
        · rename_i added
          obtain ⟨bootedNext, kept⟩ := booted.add (not_le.mp nonempty) added
          obtain ⟨bootedLast, keptRest⟩ := ih bootedNext looped
          exact ⟨bootedLast, kept.trans keptRest⟩
    · exact ih booted looped

/-- The first block is the multiheap's own structure. -/
theorem multiheapNew_blocks {heap : Heap} {heaps : Heaps}
    (free : ∀ j < heap.table.total, heap.table.entries j = heapBlockTableEntryFree)
    (fits : heap.saddr + heap.table.total * viosHeapBlockSize < addressSpace)
    (made : multiheapNew (fun _ => heap) 1 0 = some heaps) :
    SingleBlocks (heaps.heapAt 0) ∧ heaps.multiheap = ⟨0, [], 0, 0, 0⟩ := by
  have one : blocksForSize sizeofMultiheap = 1 := blocksForSize_small (by decide) (by decide)
  unfold multiheapNew at made
  dsimp only at made
  split at made
  · exact absurd made (by simp)
  · rename_i served
    obtain rfl := Option.some.inj made
    change ¬ (heapZalloc heap sizeofMultiheap).1 = 0 at served
    refine ⟨?_, rfl⟩
    have own : ∀ rest : Nat → Heap, Function.update rest 0 (heapZalloc heap sizeofMultiheap).2 0 =
        (heapZalloc heap sizeofMultiheap).2 := fun rest => Function.update_self _ _ _
    simp only [Heaps.zalloc, Heaps.set, own]
    rcases heapMalloc_cases heap sizeofMultiheap with ⟨failed, -⟩ |
      ⟨start, entries, effects, -, -, run, inside, marked, taken⟩
    · simp [heapZalloc, failed] at served
    · rw [one] at run inside marked
      -- the first run of an empty table starts at its first entry
      have first : start = 0 := by
        refine run.maximal.resolve_right fun taken => taken ?_
        rw [free _ (by omega)]
        rfl
      subst first
      have inTable : (heapZalloc heap sizeofMultiheap).2.table.entries = entries := by
        rw [heapZalloc_table, taken]
        rfl
      have same := samePool_heapZalloc heap sizeofMultiheap
      constructor
      case fits =>
        rw [same.saddr, same.total]
        exact fits
      case single =>
        intro j inside
        rw [same.total] at inside
        rw [inTable, marked j]
        split
        · rename_i zero
          have : j = 0 := by omega
          subst this
          exact .inr rfl
        · exact .inl (free j inside)
      case first =>
        rw [same.total, inTable, marked 0]
        exact ⟨by omega, rfl⟩

theorem multiheapAddExistingHeap_booted {heaps : Heaps} (blocks : SingleBlocks (heaps.heapAt 0))
    (empty : heaps.multiheap = ⟨0, [], 0, 0, 0⟩) (flags : Nat) :
    Booted (multiheapAddExistingHeap heaps 0 flags).2 := by
  have one : blocksForSize sizeofMultiheapSingleHeap = 1 := blocksForSize_small (by decide) (by decide)
  have booted : Booted heaps := ⟨by simp [empty], by rw [empty], blocks⟩
  have taken := (booted.zalloc one).1
  have canAdd : multiheapCanAddHeap heaps = true := by
    rw [multiheapCanAddHeap, multiheapIsReady, empty]
    decide
  simp only [multiheapAddExistingHeap, multiheapAddHeap, canAdd, booted.starting, Bool.not_true,
    Bool.false_eq_true, if_false]
  split
  · exact taken
  · refine ⟨?_, taken.starting, taken.blocks⟩
    rw [List.forall_mem_append]
    exact ⟨taken.listed, by simp⟩

/-- Adding a heap to the list leaves the heaps where they are. -/
theorem multiheapAddExistingHeap_pools (heaps : Heaps) (heap flags : Nat) :
    heaps.created ≤ (multiheapAddExistingHeap heaps heap flags).2.created ∧
      ∀ name < heaps.created, SamePool (heaps.heapAt name)
        ((multiheapAddExistingHeap heaps heap flags).2.heapAt name) := by
  have kept := Keeps.zalloc heaps heaps.multiheap.startingHeap sizeofMultiheapSingleHeap
  unfold multiheapAddExistingHeap multiheapAddHeap
  split
  · exact ⟨Nat.le_refl _, fun name _ => .refl _⟩
  · dsimp only
    split
    · exact ⟨kept.created, kept.pools⟩
    · exact ⟨kept.created, kept.pools⟩

/-- The minimal heap is where the layout of its region puts it. -/
structure LaidOut (layout : KheapLayout) (heaps : Heaps) : Prop where
  created : 0 < heaps.created
  saddr : (heaps.heapAt 0).saddr = layout.heapAddress
  eaddr : (heaps.heapAt 0).eaddr = layout.heapEndAddress
  aligned : (heaps.heapAt 0).saddr % viosHeapBlockSize = 0
  oneEach : (heaps.heapAt 0).eaddr =
    (heaps.heapAt 0).saddr + (heaps.heapAt 0).table.total * viosHeapBlockSize

theorem LaidOut.later {layout : KheapLayout} {heaps later : Heaps} (laidOut : LaidOut layout heaps)
    (created : heaps.created ≤ later.created)
    (pools : ∀ name < heaps.created, SamePool (heaps.heapAt name) (later.heapAt name)) :
    LaidOut layout later := by
  have same := pools 0 laidOut.created
  constructor
  case created => exact laidOut.created.trans_le created
  case saddr => exact same.saddr.trans laidOut.saddr
  case eaddr => exact same.eaddr.trans laidOut.eaddr
  case aligned =>
    rw [same.saddr]
    exact laidOut.aligned
  case oneEach =>
    rw [same.eaddr, same.saddr, same.total]
    exact laidOut.oneEach

theorem heapCreate_aligned {before heap : Heap} {ptr endPtr : Nat} {table : HeapTable}
    (created : heapCreate before ptr endPtr table = some (0, heap)) : ptr % viosHeapBlockSize = 0 := by
  by_contra unaligned
  have refused : (!heapValidateAlignment ptr || !heapValidateAlignment endPtr) = true := by
    simp [heapValidateAlignment, unaligned]
  rw [heapCreate, if_pos refused] at created
  have status : (-einvarg : Int) = 0 := congrArg Prod.fst (Option.some.inj created)
  exact absurd status (by decide)

/-- `multiheap_new` around a heap that `heap_create` accepted. -/
theorem multiheapNew_laidOut {before heap : Heap} {layout : KheapLayout} {table : HeapTable} {heaps : Heaps}
    (created : heapCreate before layout.heapAddress layout.heapEndAddress table = some (0, heap))
    (made : multiheapNew (fun _ => heap) 1 0 = some heaps) : LaidOut layout heaps := by
  obtain ⟨region, heapEq⟩ := heapCreate_ok created
  have fresh : LaidOut layout ⟨fun _ => heap, 1, ⟨0, [], 0, 0, 0⟩⟩ := by
    subst heapEq
    exact ⟨Nat.one_pos, rfl, rfl, heapCreate_aligned created, region.symm⟩
  have kept := Keeps.zalloc ⟨fun _ => heap, 1, ⟨0, [], 0, 0, 0⟩⟩ 0 sizeofMultiheap
  unfold multiheapNew at made
  dsimp only at made
  split at made
  · exact absurd made (by simp)
  · obtain rfl := Option.some.inj made
    exact fresh.later kept.created kept.pools

/-- What `kheap_init` leaves behind: the one heap, in the region that was chosen. -/
theorem kheapInit_spec {tableBytes : Nat → UInt8} {map : List E820Entry} {heaps : Heaps}
    (init : kheapInit tableBytes map = some heaps) : Booted heaps ∧ ∃ index entry,
      kheapGetAllowableMemoryRegionForMinimalHeap map = some index ∧ map[index]? = some entry ∧
      LaidOut (kheapLayout entry) heaps := by
  simp only [kheapInit, Option.bind_eq_bind, Option.bind_eq_some_iff] at init
  obtain ⟨usedEntry, chosen, entry, found, init⟩ := init
  split at init
  · rename_i fits
    simp only [Option.bind_eq_some_iff, Prod.exists] at init
    obtain ⟨res, minimalHeap, created, init⟩ := init
    split at init
    · exact absurd init (by simp)
    · rename_i accepted
      simp only [Option.bind_eq_some_iff] at init
      obtain ⟨made, madeEq, looped⟩ := init
      rw [(heapCreate_status created).resolve_left accepted] at created
      have laidOut := multiheapNew_laidOut created madeEq
      obtain ⟨region, rfl⟩ := heapCreate_ok created
      have inSpace : (kheapLayout entry).heapEndAddress < addressSpace := by
        have cut : entry.endAddr % addressSpace < addressSpace := Nat.mod_lt _ (by decide)
        simp only [kheapLayout, alignToLowerPage_eq]
        omega
      obtain ⟨blocks, empty⟩ := multiheapNew_blocks (fun j inTable => if_pos inTable)
        (by rw [← region] at inSpace; exact inSpace) madeEq
      obtain ⟨booted, kept⟩ := (multiheapAddExistingHeap_booted blocks empty
        multiheapHeapFlagExternallyOwned).addRegionsLoop map looped
      have added := multiheapAddExistingHeap_pools made 0 multiheapHeapFlagExternallyOwned
      exact ⟨booted, usedEntry, entry, chosen, found,
        (laidOut.later added.1 added.2).later kept.created kept.pools⟩
  · exact absurd init (by simp)

theorem kheapInit_booted {tableBytes : Nat → UInt8} {map : List E820Entry} {heaps : Heaps}
    (init : kheapInit tableBytes map = some heaps) : Booted heaps :=
  (kheapInit_spec init).1

/-- The one heap there is has a taken block, so it does not pass for another region. -/
theorem Booted.not_present {heaps : Heaps} (booted : Booted heaps) (range : Nat × Nat) :
    ¬ RegionPresent heaps range := by
  rintro ⟨node, listed, -, -, -, free⟩
  rw [booted.listed node listed] at free
  have firstFree := free 0 booted.blocks.first.1
  rw [booted.blocks.first.2] at firstFree
  exact absurd firstFree (by decide)

/-- No other region is ever added, so the regions are all there just when there are no others. -/
theorem everyRegionPresent_iff (tableBytes : Nat → UInt8) (map : List E820Entry) (heaps : Heaps)
    (init : kheapInit tableBytes map = some heaps) :
    EveryRegionPresent map heaps ↔ ∀ entry, ¬ OtherRegion map entry := by
  have booted := kheapInit_booted init
  constructor
  · intro present entry other
    exact booted.not_present _ (present entry other)
  · intro none entry other
    exact absurd other (none entry)

/-- The low memory of this machine lies below the minimal heap's address. -/
def oneRegion : List E820Entry := [⟨0, 0x9FC00, 1⟩, ⟨0x100000, 0x7EE0000, 1⟩]

theorem everyRegionPresent_oneRegion :
    ∃ heaps, kheapInit (fun _ => 0) oneRegion = some heaps ∧ EveryRegionPresent oneRegion heaps := by
  have boots : (kheapInit (fun _ => 0) oneRegion).isSome = true := by decide +kernel
  obtain ⟨heaps, init⟩ := Option.isSome_iff_exists.mp boots
  refine ⟨heaps, init, (everyRegionPresent_iff _ _ _ init).mpr fun entry other => ?_⟩
  obtain ⟨index, found, notUsed⟩ := other.listed
  have used : kheapGetAllowableMemoryRegionForMinimalHeap oneRegion = some 1 := by decide
  rw [used, ne_eq, Option.some.injEq] at notUsed
  have first : index = 0 := by
    have inMap := (List.getElem?_eq_some_iff.mp found).1
    change index < 2 at inMap
    omega
  subst first
  obtain rfl := Option.some.inj found
  exact absurd other.nonempty (by decide)

/-- A machine with 1 GiB more above the first 4 GiB. -/
def twoRegions : List E820Entry := [⟨0x100000, 0x7EE0000, 1⟩, ⟨0x100000000, 0x40000000, 1⟩]

/-- The second region of this machine is dropped. -/
theorem twoRegions_dropped :
    ∃ heaps, kheapInit (fun _ => 0) twoRegions = some heaps ∧
      OtherRegion twoRegions ⟨0x100000000, 0x40000000, 1⟩ ∧
      regionRange ⟨0x100000000, 0x40000000, 1⟩ = (0x100000000, 0x140000000) ∧
      ¬ EveryRegionPresent twoRegions heaps := by
  have boots : (kheapInit (fun _ => 0) twoRegions).isSome = true := by decide +kernel
  obtain ⟨heaps, init⟩ := Option.isSome_iff_exists.mp boots
  have other : OtherRegion twoRegions ⟨0x100000000, 0x40000000, 1⟩ :=
    ⟨⟨1, rfl, by decide⟩, rfl, by decide⟩
  refine ⟨heaps, init, other, by decide, fun present => ?_⟩
  exact (kheapInit_booted init).not_present _ (present _ other)

end ViOS.Memory
