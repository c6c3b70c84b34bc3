import ViOS.Memory.HeapLayout

/-! # `heap_realloc` on the set of taken blocks

The kernel heap serves page tables, vectors and user memory at once, and only
`heap_realloc` ever gives a block back.  What its users need to know of a call is
which blocks are taken afterwards.  That is only clear when the chain of the old
allocation has the length its owner thinks it has, since a chain that runs into its
neighbour takes the neighbour's blocks with it.

* `Pool`, `TakenAt` — a heap in the address space, and its taken blocks.
* `Pool.malloc` — `heap_malloc` takes a run of blocks nobody had.
* `reach_of_count` — a chain of the right length is released as that.
* `Pool.realloc` — what `heap_realloc` does to an allocation whose chain is right.
-/

namespace ViOS.Memory

/-! ## Pools -/

/-- The block is taken. -/
def TakenAt (heap : Heap) (block : Nat) : Prop :=
  heapGetEntryType (heap.table.entries block) = heapBlockTableEntryTaken

/-- A heap inside the 48-bit address space, each of whose entries is free or taken. -/
structure Pool (heap : Heap) : Prop where
  saddr_pos : 0 < heap.saddr
  aligned : heap.saddr % viosHeapBlockSize = 0
  fits : heap.saddr + heap.table.total * viosHeapBlockSize ≤ 2 ^ 48
  eaddr_eq : heap.eaddr = heap.saddr + heap.table.total * viosHeapBlockSize
  typed : ∀ j < heap.table.total, heap.table.entries j = heapBlockTableEntryFree ∨ TakenAt heap j

/-- The two heaps are the same region of memory. -/
structure SamePool (heap heap' : Heap) : Prop where
  saddr : heap'.saddr = heap.saddr
  eaddr : heap'.eaddr = heap.eaddr
  total : heap'.table.total = heap.table.total

theorem SamePool.refl (heap : Heap) : SamePool heap heap := ⟨rfl, rfl, rfl⟩

theorem SamePool.trans {a b c : Heap} (ab : SamePool a b) (bc : SamePool b c) : SamePool a c :=
  ⟨bc.saddr.trans ab.saddr, bc.eaddr.trans ab.eaddr, bc.total.trans ab.total⟩

/-- The address of a block. -/
def blockAddress (heap : Heap) (block : Nat) : Nat := heap.saddr + block * viosHeapBlockSize

namespace Pool

variable {heap heap' : Heap} {start count size : Nat}

theorem of_same (pool : Pool heap) (same : SamePool heap heap')
    (typed : ∀ j < heap.table.total, heap'.table.entries j = heapBlockTableEntryFree ∨ TakenAt heap' j) :
    Pool heap' where
  saddr_pos := same.saddr ▸ pool.saddr_pos
  aligned := same.saddr ▸ pool.aligned
  fits := by rw [same.saddr, same.total]; exact pool.fits
  eaddr_eq := by rw [same.eaddr, same.saddr, same.total]; exact pool.eaddr_eq
  typed := by rw [same.total]; exact typed

theorem blockAddress_lt (pool : Pool heap) {block : Nat} (inTable : block ≤ heap.table.total) :
    blockAddress heap block ≤ 2 ^ 48 :=
  Nat.le_trans (Nat.add_le_add_left (Nat.mul_le_mul_right _ inTable) _) pool.fits

theorem blockToAddress_eq (pool : Pool heap) {block : Nat} (inTable : block ≤ heap.table.total) :
    heapBlockToAddress heap block = blockAddress heap block := by
  have bound := pool.blockAddress_lt inTable
  refine Nat.mod_eq_of_lt ?_
  unfold blockAddress addressSpace at *
  omega

theorem addressToBlock_eq (pool : Pool heap) {block : Nat} (inTable : block ≤ heap.table.total) :
    heapAddressToBlock heap (blockAddress heap block) = block := by
  have bound := pool.blockAddress_lt inTable
  have small := heap.table.total_le
  refine addressToBlock_of_block heap block ?_ (by omega)
  unfold blockAddress addressSpace at *
  omega

theorem free_of_not_taken (pool : Pool heap) {block : Nat} (inTable : block < heap.table.total)
    (notTaken : ¬ TakenAt heap block) : heap.table.entries block = heapBlockTableEntryFree :=
  (pool.typed block inTable).resolve_right notTaken

end Pool

theorem not_taken_of_free {heap : Heap} {block : Nat}
    (free : heapGetEntryType (heap.table.entries block) = heapBlockTableEntryFree) : ¬ TakenAt heap block := by
  unfold TakenAt
  rw [free]
  decide

theorem not_taken_of_zero {heap : Heap} {block : Nat}
    (free : heap.table.entries block = heapBlockTableEntryFree) : ¬ TakenAt heap block :=
  not_taken_of_free (by rw [free]; rfl)

/-! ## `heap_malloc` -/

/-- What `heap_malloc` does when it succeeds: the run `[start, start + count)`, free before, is taken. -/
structure Taken (heap : Heap) (start count : Nat) (heap' : Heap) : Prop where
  pool : Pool heap'
  same : SamePool heap heap'
  inside : start + count ≤ heap.table.total
  positive : 0 < count
  run : FreeRun heap.table.entries start count
  marked : MarkedTaken heap heap'.table.entries start count

theorem Taken.taken_iff {heap heap' : Heap} {start count : Nat} (taken : Taken heap start count heap')
    (block : Nat) : TakenAt heap' block ↔ TakenAt heap block ∨ (start ≤ block ∧ block < start + count) := by
  unfold TakenAt
  rw [taken.marked block]
  by_cases inside : start ≤ block ∧ block < start + count
  · rw [if_pos inside]
    exact ⟨fun _ => .inr inside, fun _ => chainEntry_taken _ _⟩
  · rw [if_neg inside]
    exact ⟨.inl, fun either => either.resolve_right inside⟩

theorem Pool.malloc {heap : Heap} (pool : Pool heap) (size : Nat) :
    (heapMalloc heap size = (0, heap) ∧ heapGetStartBlock heap (blocksForSize size) < 0) ∨
    ∃ start heap', heapMalloc heap size = (blockAddress heap start, heap') ∧
      heapGetStartBlock heap (blocksForSize size) = start ∧
      Taken heap start (blocksForSize size) heap' := by
  rcases heapMalloc_cases heap size with none | found
  · exact .inl none
  · obtain ⟨start, entries, effects, startBlock, positive, run, inside, marked, result⟩ := found
    refine .inr ⟨start, heap.take entries effects (blocksForSize size), ?_, startBlock, ?_⟩
    · rw [result, pool.blockToAddress_eq (by omega)]
    · have same : SamePool heap (heap.take entries effects (blocksForSize size)) := ⟨rfl, rfl, rfl⟩
      refine ⟨pool.of_same same fun j inTable => ?_, same, inside, positive, run, marked⟩
      change entries j = heapBlockTableEntryFree ∨ heapGetEntryType (entries j) = heapBlockTableEntryTaken
      rw [marked j]
      by_cases inRun : start ≤ j ∧ j < start + blocksForSize size
      · rw [if_pos inRun]
        exact .inr (chainEntry_taken _ _)
      · rw [if_neg inRun]
        exact pool.typed j inTable

/-! ## Chains of the right length -/

theorem chainReach_local (entries entries' : Nat → UInt8) (rest i : Nat)
    (same : ∀ j, i ≤ j → j < i + chainReach entries rest i → entries' j = entries j) :
    chainReach entries' rest i = chainReach entries rest i := by
  induction rest generalizing i with
  | zero => rfl
  | succ rest ih =>
    have reachPos : 0 < chainReach entries (rest + 1) i := by
      rw [chainReach]
      split <;> omega
    have here : entries' i = entries i := same i (Nat.le_refl i) (by omega)
    rw [chainReach] at same
    rw [chainReach, chainReach, here]
    split
    · rfl
    · rename_i linked
      rw [if_neg linked] at same
      rw [ih (i + 1) fun j later inReach => same j (by omega) (by omega)]

/-- A chain that is counted as long as its run of taken blocks is released as that run, and with it
at most a free block after it. -/
theorem reach_of_count (entries : Nat → UInt8) (count rest i : Nat) (positive : 0 < count)
    (short : count ≤ rest)
    (typed : ∀ j, i ≤ j → j < i + rest → entries j = heapBlockTableEntryFree ∨
      heapGetEntryType (entries j) = heapBlockTableEntryTaken)
    (taken : ∀ j, i ≤ j → j < i + count → heapGetEntryType (entries j) = heapBlockTableEntryTaken)
    (exact : blockCountLoop entries rest i = count) :
    chainReach entries rest i = count ∨
      (chainReach entries rest i = count + 1 ∧ count < rest ∧
        entries (i + count) = heapBlockTableEntryFree) := by
  induction count generalizing rest i with
  | zero => omega
  | succ count ih =>
    obtain ⟨rest, rfl⟩ : ∃ r, rest = r + 1 := ⟨rest - 1, by omega⟩
    have here := takenFlag_of_taken (taken i (Nat.le_refl i) (by omega))
    rw [blockCountLoop, here] at exact
    rw [chainReach]
    cases linked : hasFlag (entries i) heapBlockHasNext with
    | false =>
      rw [linked] at exact
      simp only [Bool.not_false, if_true] at exact ⊢
      exact .inl (by omega)
    | true =>
      rw [linked] at exact
      simp only [Bool.not_true, Bool.false_eq_true, if_false, if_true] at exact ⊢
      have later : blockCountLoop entries rest (i + 1) = count := by omega
      rcases Nat.eq_zero_or_pos count with zero | countPos
      · subst zero
        -- the chain goes on after its only block, so the next one is not taken
        cases rest with
        | zero => exact .inl rfl
        | succ rest =>
          have next : entries (i + 1) = heapBlockTableEntryFree := by
            refine (typed (i + 1) (by omega) (by omega)).resolve_right fun nextTaken => ?_
            rw [blockCountLoop, takenFlag_of_taken nextTaken] at later
            split at later <;> simp at later
          refine .inr ⟨?_, by omega, next⟩
          rw [chainReach, next]
          rfl
      · rcases ih rest (i + 1) countPos (by omega)
          (fun j lower upper => typed j (by omega) (by omega))
          (fun j lower upper => taken j (by omega) (by omega)) later with reach | ⟨reach, inRest, free⟩
        · exact .inl (by omega)
        · refine .inr ⟨by omega, by omega, ?_⟩
          rwa [Nat.add_right_comm, Nat.add_assoc] at free

/-- `heap_mark_blocks_free` clears what its loop visits. -/
theorem heapMarkBlocksFree_reach (heap : Heap) (start : Nat) :
    ∃ heap', heapMarkBlocksFree heap start = some heap' ∧ SamePool heap heap' ∧
      ∀ j, heap'.table.entries j =
        if start ≤ j ∧ j < start + chainReach heap.table.entries (heap.table.total - start) start then
          heapBlockTableEntryFree
        else heap.table.entries j := by
  have visited := entries_markFreeLoop (heap.table.total - start) start heap
  obtain ⟨entries, effects, shape⟩ := sameShape_markFreeLoop (heap.table.total - start) start heap
  unfold heapMarkBlocksFree
  rw [if_neg (by omega), Int.toNat_natCast]
  simp only
  rw [shape] at visited ⊢
  exact ⟨_, rfl, ⟨rfl, rfl, rfl⟩, visited⟩

theorem heapFree_reach {heap : Heap} {ptr start : Nat} (block : heapAddressToBlock heap ptr = start) :
    ∃ heap', heapFree heap ptr = some heap' ∧ SamePool heap heap' ∧
      ∀ j, heap'.table.entries j =
        if start ≤ j ∧ j < start + chainReach heap.table.entries (heap.table.total - start) start then
          heapBlockTableEntryFree
        else heap.table.entries j := by
  unfold heapFree
  rw [block]
  exact heapMarkBlocksFree_reach heap start

/-! ## `heap_realloc` -/

theorem blocksForSize_aligned (size : Nat) :
    blocksForSize (heapAlignValueToUpper size) = blocksForSize size := by
  have aligned : heapAlignValueToUpper size % viosHeapBlockSize = 0 := by
    unfold heapAlignValueToUpper
    split
    · assumption
    · unfold viosHeapBlockSize addressSpace
      omega
  have unchanged : heapAlignValueToUpper (heapAlignValueToUpper size) = heapAlignValueToUpper size := by
    conv_lhs => rw [heapAlignValueToUpper, if_pos aligned]
  unfold blocksForSize
  rw [unchanged]

theorem rangeFree_iff {heap : Heap} {first last : Nat} :
    heapIsBlockRangeFree heap first last = true ↔
      ∀ j, first ≤ j → j ≤ last → hasFlag (heap.table.entries j) heapBlockTableEntryTaken = false := by
  simp only [heapIsBlockRangeFree, List.all_eq_true, List.mem_range'_1, Bool.not_eq_true']
  constructor
  · intro all j lower upper
    exact all j ⟨lower, by omega⟩
  · intro all j member
    exact all j member.1 (by omega)

/-- The allocation of `count` blocks at `start` has a chain of that length, and `heap_realloc` to
`wanted` blocks neither shrinks it nor looks for room past the table. -/
structure ChainRight (heap : Heap) (start count wanted : Nat) : Prop where
  exact : heapAllocationBlockCount heap (blockAddress heap start) = count
  grows : count ≤ wanted
  bounded : count < wanted →
    heapIsBlockRangeFree heap (start + count) (start + wanted - 1) = true →
    start + wanted ≤ heap.table.total

/-- The allocation stays where it is and has `wanted` blocks. -/
structure StaysAt (heap : Heap) (start count wanted : Nat) (heap' : Heap) : Prop where
  pool : Pool heap'
  same : SamePool heap heap'
  inside : start + wanted ≤ heap.table.total
  room : ∀ j, start + count ≤ j → j < start + wanted → ¬ TakenAt heap j
  taken_iff : ∀ j, j < heap.table.total →
    (TakenAt heap' j ↔ TakenAt heap j ∨ (start ≤ j ∧ j < start + wanted))

/-- The allocation moves to a run of `wanted` blocks nobody had, and its old blocks are free. -/
structure MovesTo (heap : Heap) (start count wanted new : Nat) (heap' : Heap) : Prop where
  pool : Pool heap'
  same : SamePool heap heap'
  inside : new + wanted ≤ heap.table.total
  room : ∀ j, new ≤ j → j < new + wanted → ¬ TakenAt heap j
  taken_iff : ∀ j, j < heap.table.total →
    (TakenAt heap' j ↔ (TakenAt heap j ∧ ¬ (start ≤ j ∧ j < start + count)) ∨
      (new ≤ j ∧ j < new + wanted))

theorem sameShape_extendLoop (rest i : Nat) (heap : Heap) : SameShape heap (extendLoop rest i heap) := by
  induction rest generalizing i heap with
  | zero => exact .refl heap
  | succ rest ih => exact (sameShape_setEntry heap i _).trans (ih _ _)

theorem entries_extendLoop (rest i : Nat) (heap : Heap) (j : Nat) :
    (extendLoop rest i heap).table.entries j =
      if i ≤ j ∧ j < i + rest then heapBlockTableEntryTaken ||| heapBlockHasNext
      else heap.table.entries j := by
  induction rest generalizing i heap with
  | zero => rw [if_neg (by omega)]; rfl
  | succ rest ih =>
    rw [extendLoop, ih, entries_setEntry, Function.update_apply]
    split_ifs <;> first | rfl | omega

/-- The entries of an allocation extended by `[first, first + extra)`. -/
theorem entries_reallocExtend (heap : Heap) (oldPtr first extra j : Nat) (positive : 0 < first)
    (more : 0 < extra) :
    (reallocExtend heap oldPtr first extra).2.table.entries j =
      if j = first - 1 then heap.table.entries j ||| heapBlockHasNext
      else if j = first + extra - 1 then heapBlockTableEntryTaken
      else if first ≤ j ∧ j < first + extra then heapBlockTableEntryTaken ||| heapBlockHasNext
      else heap.table.entries j := by
  have before : ¬ (first ≤ first - 1 ∧ first - 1 < first + (extra - 1)) := by omega
  have notLast : first - 1 ≠ first + extra - 1 := by omega
  simp only [reallocExtend, entries_setEntry, Function.update_apply, entries_extendLoop, if_neg before,
    if_neg notLast]
  by_cases ending : j = first - 1
  · subst ending
    rw [if_pos rfl, if_pos rfl]
  · rw [if_neg ending, if_neg ending]
    by_cases last : j = first + extra - 1
    · rw [if_pos last, if_pos last]
    · rw [if_neg last, if_neg last]
      exact if_congr (by omega) rfl rfl

theorem entryType_hasNext (entry : UInt8) :
    heapGetEntryType (entry ||| heapBlockHasNext) = heapGetEntryType entry := by
  unfold heapGetEntryType heapBlockHasNext
  refine UInt8.eq_of_toBitVec_eq ?_
  rw [UInt8.toBitVec_and, UInt8.toBitVec_or, BitVec.and_or_distrib_right, UInt8.toBitVec_and]
  exact BitVec.or_zero

theorem samePool_reallocExtend (heap : Heap) (oldPtr first extra : Nat) :
    SamePool heap (reallocExtend heap oldPtr first extra).2 := by
  unfold reallocExtend
  obtain ⟨entries, effects, shape⟩ := sameShape_extendLoop (extra - 1) first heap
  rw [shape]
  exact ⟨rfl, rfl, rfl⟩

namespace Pool

variable {heap : Heap} {start count wanted size : Nat}

/-- The branch of `heap_realloc` that extends the allocation. -/
theorem extend (pool : Pool heap) (positive : 0 < count)
    (taken : ∀ j, start ≤ j → j < start + count → TakenAt heap j) (more : count < wanted)
    (free : heapIsBlockRangeFree heap (start + count) (start + wanted - 1) = true)
    (bounded : start + wanted ≤ heap.table.total) (oldPtr : Nat) :
    StaysAt heap start count wanted (reallocExtend heap oldPtr (start + count) (wanted - count)).2 := by
  have entries := fun j =>
    entries_reallocExtend heap oldPtr (start + count) (wanted - count) j (by omega) (by omega)
  have same := samePool_reallocExtend heap oldPtr (start + count) (wanted - count)
  have room : ∀ j, start + count ≤ j → j < start + wanted → ¬ TakenAt heap j := by
    intro j lower upper isTaken
    have flag := rangeFree_iff.mp free j lower (by omega)
    rw [takenFlag_of_taken isTaken] at flag
    exact absurd flag (by decide)
  have taken_iff : ∀ j, TakenAt (reallocExtend heap oldPtr (start + count) (wanted - count)).2 j ↔
      TakenAt heap j ∨ (start ≤ j ∧ j < start + wanted) := by
    intro j
    unfold TakenAt
    rw [entries j]
    split_ifs with ending last inExtension
    · have isTaken := taken j (by omega) (by omega)
      rw [entryType_hasNext]
      exact ⟨.inl, fun _ => isTaken⟩
    · exact ⟨fun _ => .inr (by omega), fun _ => by decide⟩
    · exact ⟨fun _ => .inr (by omega), fun _ => by decide⟩
    · refine ⟨.inl, fun either => either.elim id fun inRun => ?_⟩
      exact taken j inRun.1 (by omega)
  refine ⟨pool.of_same same fun j inTable => ?_, same, bounded, room, fun j _ => taken_iff j⟩
  by_cases isTaken : TakenAt (reallocExtend heap oldPtr (start + count) (wanted - count)).2 j
  · exact .inr isTaken
  · refine .inl ?_
    have notBefore : ¬ TakenAt heap j := fun before => isTaken ((taken_iff j).mpr (.inl before))
    have outside : ¬ (start ≤ j ∧ j < start + wanted) := fun inRun => isTaken ((taken_iff j).mpr (.inr inRun))
    rw [entries j, if_neg (by omega), if_neg (by omega), if_neg (by omega)]
    exact pool.free_of_not_taken inTable notBefore

/-- The run that was found for a moved allocation lies apart from it and from the block after it. -/
theorem run_apart (pool : Pool heap) (positive : 0 < count)
    (taken : ∀ j, start ≤ j → j < start + count → TakenAt heap j) (more : count < wanted)
    (notFree : heapIsBlockRangeFree heap (start + count) (start + wanted - 1) ≠ true)
    {new : Nat} {heap' : Heap} (takenRun : Taken heap new wanted heap') :
    start + count < new ∨ new + wanted ≤ start := by
  have free : ∀ j, new ≤ j → j < new + wanted → ¬ TakenAt heap j :=
    fun j lower upper => not_taken_of_free (takenRun.run.free j lower upper)
  by_contra overlap
  have first := fun lower => free start lower
  have firstTaken := taken start (Nat.le_refl _) (by omega)
  have lastTaken := taken (start + count - 1) (by omega) (by omega)
  have starts : new = start + count := by
    by_contra different
    have newTaken := taken new
    have newFree := free new (Nat.le_refl _) (by omega)
    by_cases before : new < start
    · exact first (by omega) (by omega) firstTaken
    · exact newFree (newTaken (by omega) (by omega))
  refine notFree (rangeFree_iff.mpr fun j lower upper => ?_)
  have inTable := takenRun.inside
  have notTaken := free j (by omega) (by omega)
  rw [pool.free_of_not_taken (by omega) notTaken]
  rfl

/-- Releasing the old blocks after the new ones were taken. -/
theorem release_old (pool : Pool heap) (positive : 0 < count) (inside : start + count ≤ heap.table.total)
    (taken : ∀ j, start ≤ j → j < start + count → TakenAt heap j)
    (exact : heapAllocationBlockCount heap (blockAddress heap start) = count)
    {new : Nat} {allocated : Heap} (takenRun : Taken heap new wanted allocated)
    (apart : start + count < new ∨ new + wanted ≤ start) (more : List HeapEffect) :
    ∃ heap', heapFree { allocated with effects := allocated.effects ++ more } (blockAddress heap start) =
      some heap' ∧ MovesTo heap start count wanted new heap' := by
  have block : heapAddressToBlock { allocated with effects := allocated.effects ++ more }
      (blockAddress heap start) = start := by
    rw [← pool.addressToBlock_eq (show start ≤ heap.table.total by omega)]
    unfold heapAddressToBlock
    rw [takenRun.same.saddr]
  obtain ⟨heap', result, same, entries⟩ := heapFree_reach block
  have counted : blockCountLoop heap.table.entries (heap.table.total - start) start = count := by
    unfold heapAllocationBlockCount at exact
    simp only [pool.addressToBlock_eq (show start ≤ heap.table.total by omega)] at exact
    rwa [if_neg (by omega), Int.toNat_natCast] at exact
  have reach := reach_of_count heap.table.entries count (heap.table.total - start) start positive
    (by omega) (fun j _ upper => pool.typed j (by omega)) taken counted
  have sameReach : chainReach allocated.table.entries (heap.table.total - start) start =
      chainReach heap.table.entries (heap.table.total - start) start := by
    refine chainReach_local _ _ _ _ fun j lower upper => ?_
    rw [takenRun.marked, if_neg (by omega)]
  change ∀ j, heap'.table.entries j = if start ≤ j ∧ j < start + chainReach allocated.table.entries
    (allocated.table.total - start) start then _ else allocated.table.entries j at entries
  rw [takenRun.same.total, sameReach] at entries
  have samePool : SamePool heap heap' := takenRun.same.trans ⟨same.saddr, same.eaddr, same.total⟩
  have taken_iff : ∀ j, j < heap.table.total → (TakenAt heap' j ↔
      (TakenAt heap j ∧ ¬ (start ≤ j ∧ j < start + count)) ∨ (new ≤ j ∧ j < new + wanted)) := by
    intro j inTable
    by_cases visited : start ≤ j ∧ j < start + chainReach heap.table.entries (heap.table.total - start) start
    · have notTaken : ¬ TakenAt heap' j := not_taken_of_zero (by rw [entries j, if_pos visited])
      refine ⟨fun isTaken => absurd isTaken notTaken, fun either => ?_⟩
      rcases either with ⟨before, outside⟩ | inNew
      · -- the one visited block that is not the allocation's own was free before
        obtain ⟨-, -, free⟩ := reach.resolve_left (by omega)
        have same : j = start + count := by omega
        exact absurd before (same ▸ not_taken_of_zero free)
      · omega
    · have kept : TakenAt heap' j ↔ TakenAt allocated j := by
        unfold TakenAt
        rw [entries j, if_neg visited]
      rw [kept, takenRun.taken_iff]
      have outside : ¬ (start ≤ j ∧ j < start + count) := by omega
      exact or_congr_left (and_iff_left outside).symm
  refine ⟨heap', result, ⟨pool.of_same samePool fun j inTable => ?_, samePool, takenRun.inside,
    fun j lower upper => not_taken_of_free (takenRun.run.free j lower upper), taken_iff⟩⟩
  have typed := takenRun.pool.typed j (takenRun.same.total ▸ inTable)
  unfold TakenAt at typed ⊢
  rw [entries j]
  split_ifs
  · exact .inl rfl
  · exact typed

/-- The branch of `heap_realloc` that moves the allocation. -/
theorem move (pool : Pool heap) (positive : 0 < count) (inside : start + count ≤ heap.table.total)
    (taken : ∀ j, start ≤ j → j < start + count → TakenAt heap j)
    (exact : heapAllocationBlockCount heap (blockAddress heap start) = count)
    (more : count < wanted)
    (notFree : heapIsBlockRangeFree heap (start + count) (start + wanted - 1) ≠ true)
    (wantedEq : blocksForSize size = wanted) :
    (reallocMove heap (blockAddress heap start) count size = some (0, heap) ∧
      heapGetStartBlock heap wanted < 0) ∨
    ∃ (new : Nat) (heap' : Heap), reallocMove heap (blockAddress heap start) count size =
      some (blockAddress heap new, heap') ∧ heapGetStartBlock heap wanted = new ∧
      MovesTo heap start count wanted new heap' := by
  unfold reallocMove heapZalloc
  rcases pool.malloc size with ⟨none, negative⟩ | ⟨new, allocated, result, found, takenRun⟩
  · rw [none]
    exact .inl ⟨by simp, wantedEq ▸ negative⟩
  · rw [wantedEq] at takenRun found
    refine .inr ⟨new, ?_⟩
    have notNull : blockAddress heap new ≠ 0 := by
      have := pool.saddr_pos
      unfold blockAddress
      omega
    have apart := pool.run_apart positive taken more notFree takenRun
    obtain ⟨heap', released, moves⟩ := pool.release_old positive inside taken exact takenRun apart
      [.memset (blockAddress heap new) size,
        .memcpy (blockAddress heap new) (blockAddress heap start) (count * viosHeapBlockSize)]
    refine ⟨heap', ?_, found, moves⟩
    rw [result]
    simp only [notNull, if_false, Heap.effect, List.append_assoc, List.cons_append, List.nil_append]
    rw [released]
    rfl

/-- `heap_realloc` of an allocation whose chain is right: it stays, fails, or moves. -/
theorem realloc (pool : Pool heap) (positive : 0 < count) (inside : start + count ≤ heap.table.total)
    (taken : ∀ j, start ≤ j → j < start + count → TakenAt heap j) (notZero : size ≠ 0)
    (right : ChainRight heap start count (blocksForSize size)) :
    (∃ heap', heapRealloc heap (blockAddress heap start) size = some (blockAddress heap start, heap') ∧
      StaysAt heap start count (blocksForSize size) heap' ∧
      (count = blocksForSize size ∨
        heapIsBlockRangeFree heap (start + count) (start + blocksForSize size - 1) = true)) ∨
    (heapRealloc heap (blockAddress heap start) size = some (0, heap) ∧
      heapGetStartBlock heap (blocksForSize size) < 0 ∧ count ≠ blocksForSize size ∧
      heapIsBlockRangeFree heap (start + count) (start + blocksForSize size - 1) ≠ true) ∨
    ∃ (new : Nat) (heap' : Heap), heapRealloc heap (blockAddress heap start) size =
      some (blockAddress heap new, heap') ∧ heapGetStartBlock heap (blocksForSize size) = new ∧
      MovesTo heap start count (blocksForSize size) new heap' ∧ count ≠ blocksForSize size ∧
      heapIsBlockRangeFree heap (start + count) (start + blocksForSize size - 1) ≠ true := by
  have notNull : blockAddress heap start ≠ 0 := by
    have := pool.saddr_pos
    unfold blockAddress
    omega
  have block := pool.addressToBlock_eq (show start ≤ heap.table.total by omega)
  have grows := right.grows
  have wanted : heapAlignValueToUpper size / viosHeapBlockSize = blocksForSize size := rfl
  unfold heapRealloc
  rw [if_neg notNull, if_neg notZero]
  simp only [right.exact, block, wanted]
  by_cases equal : count = blocksForSize size
  · rw [if_pos equal]
    refine .inl ⟨heap, rfl, ⟨pool, .refl heap, by omega, by omega, fun j _ => ?_⟩, .inl equal⟩
    exact ⟨.inl, fun either => either.elim id fun inRun => taken j inRun.1 (by omega)⟩
  · rw [if_neg equal, if_neg (by omega), if_neg (by omega), Int.toNat_natCast]
    -- the chain is not shortened, so it is extended in place or moved
    have last : start + count + (blocksForSize size - count) - 1 = start + blocksForSize size - 1 := by omega
    rw [last]
    by_cases free : heapIsBlockRangeFree heap (start + count) (start + blocksForSize size - 1) = true
    · rw [if_pos free, if_neg (by omega)]
      exact .inl ⟨_, rfl, pool.extend positive taken (by omega) free (right.bounded (by omega) free)
        (blockAddress heap start), .inr free⟩
    · rw [if_neg free]
      refine .inr ((pool.move positive inside taken right.exact (by omega) free
        (blocksForSize_aligned size)).imp ?_ ?_)
      · exact fun failed => ⟨failed.1, failed.2, equal, free⟩
      · rintro ⟨new, heap', result, found, moves⟩
        exact ⟨new, heap', result, found, moves, equal, free⟩

end Pool

end ViOS.Memory
