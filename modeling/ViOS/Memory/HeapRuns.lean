import ViOS.Memory.HeapLayout

/-! # Which runs of the heap keep its promises

A run starts from a heap made by `heap_create` and calls `heap_malloc` and
`heap_free` in any order.  Every allocation of several blocks is linked past its
end, so a step spoils the table or the counters just when it puts a taken block
after such an allocation, or frees one that does not end with the table.

* `RunInv` — `HeapInv`, and which allocations are linked past their end.
* `heapCreate_inv` — a new heap satisfies it.
* `heapOk_iff_apart` — the exact condition.
-/

namespace ViOS.Memory

open ViOS.Lib

/-- The invariant of the runs of `heap_malloc` and `heap_free`. -/
structure RunInv (state : HeapState) : Prop extends HeapInv state where
  lastLinked : ∀ a ∈ state.live, LastLinked state.heap a ↔ 1 < a.blocks

/-! ## A new heap -/

/-- The heap `heap_create` sets up. -/
def freshHeap (ptr endPtr : Nat) (table : HeapTable) : Heap where
  table := { table with
    entries := fun i => if i < table.total then heapBlockTableEntryFree else table.entries i }
  saddr := ptr
  eaddr := endPtr
  totalBlocks := table.total
  freeBlocks := table.total
  usedBlocks := 0
  blockAllocatedCallback := false
  blockFreeCallback := false
  effects := []

/-- A table with one entry per block excludes a pool that ends before it starts: its size would
be read as more than `2 ^ 63` bytes. -/
theorem heapCreate_ok {before heap : Heap} {ptr endPtr : Nat} {table : HeapTable}
    (created : heapCreate before ptr endPtr table = some (0, heap)) :
    ptr + table.total * viosHeapBlockSize = endPtr ∧ heap = freshHeap ptr endPtr table := by
  have totalLe := table.total_le
  unfold heapCreate at created
  split at created
  · have status : (-einvarg : Int) = 0 := congrArg Prod.fst (Option.some.inj created)
    exact absurd status (by decide)
  · rename_i aligned
    simp only [heapValidateAlignment, Bool.or_eq_true, Bool.not_eq_true', decide_eq_false_iff_not,
      not_or, not_not] at aligned
    unfold pointerDifference at created
    simp only at created
    split at created
    · exact absurd created (by simp)
    · rename_i difference defined
      split at defined
      · rename_i representable
        obtain rfl := Option.some.inj defined
        split at created
        · rename_i failed
          have status := congrArg Prod.fst (Option.some.inj created)
          simp only at status
          omega
        · rename_i valid
          have blocks : table.total = (((endPtr : Int) - ptr) % addressSpace).toNat / viosHeapBlockSize := by
            by_contra different
            refine valid ?_
            rw [heapValidateTable, if_pos different]
            decide
          split at created
          · exact absurd created (by simp)
          · refine ⟨?_, (congrArg Prod.snd (Option.some.inj created)).symm⟩
            unfold viosHeapBlockSize addressSpace at *
            omega
      · exact absurd defined (by simp)

theorem heapCreate_inv {before heap : Heap} {ptr endPtr : Nat} {table : HeapTable}
    (ptrPos : 0 < ptr) (endFits : endPtr < addressSpace)
    (created : heapCreate before ptr endPtr table = some (0, heap)) : RunInv ⟨heap, []⟩ := by
  obtain ⟨poolEnd, rfl⟩ := heapCreate_ok created
  have nothingTaken : ∀ j, heapGetEntryType
      (if j < table.total then heapBlockTableEntryFree else table.entries j) =
        heapBlockTableEntryTaken → ¬ j < table.total := by
    intro j taken inTable
    rw [if_pos inTable] at taken
    exact absurd taken (by decide)
  constructor
  case lastLinked => simp
  constructor
  case saddr_pos => exact ptrPos
  case fits => exact poolEnd ▸ endFits
  case placed => simp
  case apart => exact List.Pairwise.nil
  case chain => simp
  case free => exact fun j inTable _ => if_pos inTable
  case used =>
    refine (Finset.card_eq_zero.mpr (Finset.filter_eq_empty_iff.mpr fun j member taken => ?_)).symm
    exact nothingTaken j taken (Finset.mem_range.mp member)
  case total => exact Nat.zero_add _
  case total_eq => rfl

/-! ## Steps that meet the condition -/

/-- An allocation is linked past its end just when it has several blocks. -/
theorem lastLinked_malloc {state : HeapState} {size : Nat} (inv : RunInv state) :
    ∀ a ∈ liveAfterMalloc state size, LastLinked (heapMalloc state.heap size).2 a ↔ 1 < a.blocks := by
  unfold liveAfterMalloc
  rcases heapMalloc_cases state.heap size with ⟨result, -⟩ | found
  · rw [result]
    exact inv.lastLinked
  · obtain ⟨start, entries, effects, -, positive, run, inside, marked, result⟩ := found
    have notNull := inv.toHeapInv.blockToAddress_ne_zero start (by omega)
    rw [result]
    simp only [if_neg notNull]
    intro a member
    rcases List.mem_cons.mp member with rfl | live
    · exact inv.toHeapInv.lastLinked_allocationAt positive inside marked
    · exact (inv.toHeapInv.lastLinked_take live run marked).trans (inv.lastLinked a live)

theorem step_preserves (state : HeapState) (op : HeapOp) (next : HeapState)
    (step : heapStep state op next) (apart : StepApart state op) (inv : RunInv state) : RunInv next := by
  cases op with
  | malloc size =>
    obtain ⟨-, rfl⟩ := step
    exact ⟨inv.toHeapInv.malloc apart, lastLinked_malloc inv⟩
  | free ptr =>
    obtain ⟨a, live, rfl, heap, result, rfl⟩ := step
    obtain ⟨entries, effects, freed, spec, cleared, freedEq⟩ := inv.toHeapInv.free_spec live
    have notBeyond : ¬ (LastLinked state.heap a ∧
        a.first state.heap + a.blocks ≠ state.heap.table.total) := by
      rintro ⟨linked, notEnd⟩
      have several := (inv.lastLinked a live).mp linked
      rcases apart a live rfl with one | atEnd
      · omega
      · exact notEnd atEnd
    rw [if_neg notBeyond] at freedEq
    subst freedEq
    obtain rfl := Option.some.inj (spec.symm.trans result)
    refine ⟨inv.toHeapInv.give live cleared, fun b member => ?_⟩
    obtain ⟨different, liveB⟩ := inv.toHeapInv.nodup.mem_erase_iff.mp member
    rw [← inv.lastLinked b liveB]
    have positive := (inv.placed b liveB).2.1
    have lastBlock : b.first state.heap + b.blocks - 1 = b.first state.heap + (b.blocks - 1) := by omega
    have kept : entries (b.first state.heap + b.blocks - 1) =
        state.heap.table.entries (b.first state.heap + b.blocks - 1) := by
      rw [lastBlock]
      exact inv.toHeapInv.kept_of_cleared live liveB different cleared (by omega)
    change hasFlag (entries (b.first state.heap + b.blocks - 1)) heapBlockHasNext = true ↔ _
    rw [kept]
    rfl

/-! ## Steps that do not -/

/-- An allocation of linked blocks that a taken block follows is counted too long. -/
theorem count_too_long (heap : Heap) {a : Allocation}
    (block : heapAddressToBlock heap a.ptr = a.first heap)
    (linked : ∀ k < a.blocks, hasFlag (heap.table.entries (a.first heap + k)) heapBlockHasNext = true)
    (taken : ∀ k ≤ a.blocks,
      heapGetEntryType (heap.table.entries (a.first heap + k)) = heapBlockTableEntryTaken)
    (inTable : a.first heap + a.blocks < heap.table.total) :
    heapAllocationBlockCount heap a.ptr ≠ a.blocks := by
  obtain ⟨rest, more⟩ : ∃ rest, heap.table.total - a.first heap = a.blocks + (rest + 1) :=
    ⟨heap.table.total - a.first heap - a.blocks - 1, by omega⟩
  have next := takenFlag_of_taken (taken a.blocks (Nat.le_refl _))
  unfold heapAllocationBlockCount
  simp only [block]
  rw [if_neg (by omega), Int.toNat_natCast, more,
    blockCountLoop_peel _ _ _ _ linked fun k small => takenFlag_of_taken (taken k (by omega)),
    blockCountLoop, next, if_pos rfl]
  split <;> omega

/-- Taking the blocks after a linked allocation spoils its count. -/
theorem malloc_after_link {state : HeapState} {start count : Nat} {entries : Nat → UInt8}
    {effects : List HeapEffect} {live : List Allocation} (inv : RunInv state) (positive : 0 < count)
    (run : FreeRun state.heap.table.entries start count)
    (inside : start + count ≤ state.heap.table.total)
    (marked : MarkedTaken state.heap entries start count)
    (link : hasFlag (state.heap.table.entries (start - 1)) heapBlockHasNext = true)
    (old : ∀ a ∈ state.live, a ∈ live) :
    ¬ HeapOk ⟨state.heap.take entries effects count, live⟩ := by
  intro ok
  obtain ⟨a, liveA, covers⟩ : ∃ a ∈ state.live, a.Covers state.heap (start - 1) := by
    by_contra uncovered
    have free := inv.free (start - 1) (by omega) fun a liveA covers => uncovered ⟨a, liveA, covers⟩
    rw [free] at link
    exact absurd link (by decide)
  have apart := inv.toHeapInv.apart_of_freeRun liveA run
  have ends : a.first state.heap + a.blocks = start := by
    have lower := covers.1
    have upper := covers.2
    omega
  have kept : ∀ k < a.blocks,
      entries (a.first state.heap + k) = state.heap.table.entries (a.first state.heap + k) :=
    fun k small => inv.toHeapInv.kept_of_marked liveA run marked small
  refine count_too_long (state.heap.take entries effects count) (inv.toHeapInv.block_eq liveA)
    ?_ ?_ (by change a.first state.heap + a.blocks < state.heap.table.total; omega) (ok.count a (old a liveA))
  · intro k small
    change hasFlag (entries (a.first state.heap + k)) heapBlockHasNext = true
    rw [kept k small]
    by_cases last : k + 1 = a.blocks
    · have same : a.first state.heap + k = start - 1 := by omega
      rw [same]
      exact link
    · exact (inv.chain a liveA).linked k (by omega)
  · intro k small
    change heapGetEntryType (entries (a.first state.heap + k)) = heapBlockTableEntryTaken
    by_cases last : k = a.blocks
    · rw [last, ends, ← Nat.add_zero start, HeapInv.entry_of_marked marked positive]
      exact chainEntry_taken _ _
    · rw [kept k (by omega)]
      exact (inv.chain a liveA).taken k (by omega)

/-- Several blocks that a taken block follows are counted too long. -/
theorem malloc_before_taken {state : HeapState} {start count : Nat} {entries : Nat → UInt8}
    {effects : List HeapEffect} {live : List Allocation} (inv : RunInv state)
    (inside : start + count < state.heap.table.total)
    (marked : MarkedTaken state.heap entries start count) (several : 1 < count)
    (next : heapGetEntryType (state.heap.table.entries (start + count)) ≠ heapBlockTableEntryFree)
    (new : allocationAt state.heap start count ∈ live) :
    ¬ HeapOk ⟨state.heap.take entries effects count, live⟩ := by
  intro ok
  have first : (allocationAt state.heap start count).first (state.heap.take entries effects count) = start :=
    inv.toHeapInv.first_allocationAt (by omega)
  have nextTaken : heapGetEntryType (state.heap.table.entries (start + count)) =
      heapBlockTableEntryTaken := by
    by_contra notTaken
    rw [inv.toHeapInv.entry_free inside notTaken] at next
    exact next rfl
  refine count_too_long (state.heap.take entries effects count) ?_ ?_ ?_ ?_ (ok.count _ new)
  · rw [first]
    exact (inv.toHeapInv.blockToAddress_eq start (by omega)).2
  · intro k small
    have inRun : k < count := small
    rw [first]
    refine (congrArg (hasFlag · heapBlockHasNext) (HeapInv.entry_of_marked marked inRun)).trans ?_
    rw [chainEntry_hasNext inRun]
    exact decide_eq_true several
  · intro k small
    rw [first]
    change heapGetEntryType (entries (start + k)) = heapBlockTableEntryTaken
    by_cases last : k = count
    · rw [last, marked, if_neg (by omega)]
      exact nextTaken
    · have inRun : k < count := Nat.lt_of_le_of_ne small last
      rw [HeapInv.entry_of_marked marked inRun]
      exact chainEntry_taken _ _
  · rw [first]
    exact inside

/-- Releasing a linked allocation before the table's end counts one block too many. -/
theorem free_of_linked {state : HeapState} {a : Allocation} {heap : Heap} (inv : RunInv state)
    (live : a ∈ state.live) (several : 1 < a.blocks)
    (notEnd : a.first state.heap + a.blocks ≠ state.heap.table.total)
    (result : heapFree state.heap a.ptr = some heap) : ¬ HeapOk ⟨heap, state.live.erase a⟩ := by
  intro ok
  obtain ⟨entries, effects, freed, spec, cleared, freedEq⟩ := inv.toHeapInv.free_spec live
  rw [if_pos ⟨(inv.lastLinked a live).mpr several, notEnd⟩] at freedEq
  obtain rfl := Option.some.inj (spec.symm.trans result)
  have taken : takenBlocks state.heap =
      takenBlocks (state.heap.give entries effects freed) + a.blocks :=
    inv.toHeapInv.takenBlocks_give live cleared
  have used : (state.heap.usedBlocks + addressSpace - freed) % addressSpace =
      takenBlocks (state.heap.give entries effects freed) := ok.used
  have usedBefore := inv.used
  have bounded := takenBlocks_le state.heap
  have totalLe := state.heap.table.total_le
  unfold addressSpace at used
  omega

theorem step_spoils (state : HeapState) (op : HeapOp) (next : HeapState)
    (step : heapStep state op next) (notApart : ¬ StepApart state op) (inv : RunInv state) :
    ¬ HeapOk next := by
  cases op with
  | malloc size =>
    obtain ⟨-, rfl⟩ := step
    obtain ⟨start, startBlock, touches⟩ : ∃ start : Nat,
        heapGetStartBlock state.heap (blocksForSize size) = start ∧ ¬ (_ ∧ _) := by
      simpa only [StepApart, MallocApart, not_forall, exists_prop] using notApart
    unfold liveAfterMalloc
    rcases heapMalloc_cases state.heap size with ⟨-, negative⟩ | found
    · omega
    · obtain ⟨start', entries, effects, startBlock', positive, run, inside, marked, result⟩ := found
      obtain rfl : start = start' := by omega
      have notNull := inv.toHeapInv.blockToAddress_ne_zero start (by omega)
      rw [result]
      simp only [if_neg notNull]
      rcases not_and_or.mp touches with link | taken
      · rw [not_or, Bool.not_eq_false] at link
        exact malloc_after_link inv positive run inside marked link.2
          fun a live => List.mem_cons_of_mem _ live
      · rw [not_or, not_or] at taken
        exact malloc_before_taken inv (by omega) marked (by omega) taken.2.2 List.mem_cons_self
  | free ptr =>
    obtain ⟨a, live, rfl, heap, result, rfl⟩ := step
    obtain ⟨b, liveB, samePtr, notOne, notEnd⟩ : ∃ b ∈ state.live, b.ptr = a.ptr ∧ b.blocks ≠ 1 ∧
        b.first state.heap + b.blocks ≠ state.heap.table.total := by
      simpa only [StepApart, FreeApart, not_forall, exists_prop, not_or] using notApart
    have sameFirst : b.first state.heap = a.first state.heap := by
      unfold Allocation.first
      rw [samePtr]
    have positiveA := (inv.placed a live).2.1
    have positiveB := (inv.placed b liveB).2.1
    obtain rfl : b = a := inv.toHeapInv.eq_of_covers liveB live
      (covers_iff.mpr ⟨Nat.le_refl _, by omega⟩) (covers_iff.mpr ⟨by omega, by omega⟩)
    exact free_of_linked inv live (by omega) notEnd result

/-- The property of a run of the heap. -/
theorem heapOk_iff_apart {before heap : Heap} {ptr endPtr : Nat} {table : HeapTable}
    (ptrPos : 0 < ptr) (endFits : endPtr < addressSpace)
    (created : heapCreate before ptr endPtr table = some (0, heap))
    {run : List (HeapOp × HeapState)} (isRun : IsRun heapStep ⟨heap, []⟩ run) :
    (∀ state ∈ runStates ⟨heap, []⟩ run, HeapOk state) ↔ EveryStep StepApart ⟨heap, []⟩ run :=
  good_iff_everyStep (fun _ inv => inv.toHeapInv.ok) step_preserves step_spoils isRun
    (heapCreate_inv ptrPos endFits created)

/-! ## Two runs -/

/-- A table of four entries. -/
def fourEntries : HeapTable := ⟨fun _ => 0, 4, by decide⟩

/-- A heap of four blocks. -/
def fourBlocks : Heap := freshHeap 0x1000 0x5000 fourEntries

theorem fourBlocks_created : heapCreate fourBlocks 0x1000 0x5000 fourEntries = some (0, fourBlocks) := rfl

/-- The state after a call of `heap_malloc`. -/
def mallocState (state : HeapState) (size : Nat) : HeapState :=
  ⟨(heapMalloc state.heap size).2, liveAfterMalloc state size⟩

/-- The state after `heap_free` of the first block. -/
def freeFirstState (state : HeapState) : HeapState :=
  ⟨(heapFree state.heap 0x1000).getD state.heap, state.live.erase ⟨0x1000, 1⟩⟩

/-- One block is taken and given back. -/
def oneBlockRun : List (HeapOp × HeapState) :=
  let taken := mallocState ⟨fourBlocks, []⟩ 4096
  [(.malloc 4096, taken), (.free 0x1000, freeFirstState taken)]

theorem heapOk_oneBlockRun : IsRun heapStep ⟨fourBlocks, []⟩ oneBlockRun ∧
    ∀ state ∈ runStates ⟨fourBlocks, []⟩ oneBlockRun, HeapOk state := by
  have isRun : IsRun heapStep ⟨fourBlocks, []⟩ oneBlockRun :=
    ⟨⟨by decide, rfl⟩, ⟨⟨0x1000, 1⟩, by decide, rfl, _, rfl, rfl⟩, trivial⟩
  refine ⟨isRun,
    (heapOk_iff_apart (by decide) (by decide) fourBlocks_created isRun).mpr ⟨?_, ?_, trivial⟩⟩
  · intro start found
    have first : heapGetStartBlock fourBlocks (blocksForSize 4096) = 0 := rfl
    have zero : start = 0 := by
      rw [first] at found
      omega
    exact ⟨.inl zero, .inl (by decide)⟩
  · intro a live _
    have only : a = ⟨0x1000, 1⟩ := List.mem_singleton.mp live
    exact .inl (only ▸ rfl)

/-- Two blocks are taken, then the one after them. -/
def adjacentRun : List (HeapOp × HeapState) :=
  let two := mallocState ⟨fourBlocks, []⟩ 8192
  [(.malloc 8192, two), (.malloc 4096, mallocState two 4096)]

/-- The table then says that the first allocation has three blocks. -/
theorem adjacentRun_not_ok : IsRun heapStep ⟨fourBlocks, []⟩ adjacentRun ∧
    ¬ ∀ state ∈ runStates ⟨fourBlocks, []⟩ adjacentRun, HeapOk state := by
  refine ⟨⟨⟨by decide, rfl⟩, ⟨by decide, rfl⟩, trivial⟩, fun allOk => ?_⟩
  have ok := allOk _ (List.mem_cons_of_mem _ (List.mem_cons_of_mem _ List.mem_cons_self))
  have count := ok.count ⟨0x1000, 2⟩ (by decide)
  exact absurd count (by decide)

end ViOS.Memory
