import ViOS.Memory.HeapFirstFit
import ViOS.Memory.HeapRealloc
import ViOS.Memory.Vector

/-! # `heap_realloc` on well-formed chains

A chain is well formed when its first block carries `IS_FIRST` and all of its blocks but
the last carry `HAS_NEXT`.  On a table of such chains `heap_realloc` shrinks and grows in
place as it should, but a chain that moves ends with `HAS_NEXT`, the check for room in
front of a chain runs past the table when the table ends first, and a shrink adjusts the
counters twice.

* `Extent`, `ChainLayout` — disjoint well-formed chains, everything else free.
* `heapReallocTouches` — the entries of the table that a call reads or writes.
* `realloc_exact_iff` — when the table and the bytes are as they should be.
* `realloc_counters_iff` — when the counters are.
-/

namespace ViOS.Memory

/-! ## Chains -/

/-- A run of blocks. -/
structure Extent where
  start : Nat
  count : Nat
  deriving DecidableEq, Repr

namespace Extent

/-- The block belongs to the run. -/
def Covers (c : Extent) (block : Nat) : Prop := c.start ≤ block ∧ block < c.start + c.count

instance (c : Extent) (block : Nat) : Decidable (c.Covers block) := inferInstanceAs (Decidable (_ ∧ _))

/-- The runs have no block in common. -/
def Apart (c d : Extent) : Prop := c.start + c.count ≤ d.start ∨ d.start + d.count ≤ c.start

/-- The pointer to the run. -/
def ptr (heap : Heap) (c : Extent) : Nat := blockAddress heap c.start

theorem covers_mk {start count block : Nat} :
    Covers ⟨start, count⟩ block ↔ start ≤ block ∧ block < start + count := Iff.rfl

theorem apart_mk {start count : Nat} {d : Extent} :
    Apart ⟨start, count⟩ d ↔ start + count ≤ d.start ∨ d.start + d.count ≤ start := Iff.rfl

theorem Apart.symm {c d : Extent} (apart : c.Apart d) : d.Apart c := Or.symm apart

theorem Apart.not_covers {c d : Extent} (apart : c.Apart d) {block : Nat} (covers : c.Covers block) :
    ¬ d.Covers block := by
  unfold Apart Covers at *
  omega

end Extent

/-- A well-formed chain of the table. -/
structure WellFormed (heap : Heap) (c : Extent) : Prop where
  positive : 0 < c.count
  inside : c.start + c.count ≤ heap.table.total
  taken : ∀ block, c.Covers block → TakenAt heap block
  first : hasFlag (heap.table.entries c.start) heapBlockIsFirst = true
  linked : ∀ block, c.Covers block →
    (hasFlag (heap.table.entries block) heapBlockHasNext = true ↔ block + 1 < c.start + c.count)

/-- A table of disjoint well-formed chains, in a pool that ends below 2^64 and is not at address zero. -/
structure ChainLayout (heap : Heap) (live : Set Extent) : Prop where
  saddr_pos : 0 < heap.saddr
  fits : heap.saddr + heap.table.total * viosHeapBlockSize < addressSpace
  chain : ∀ c ∈ live, WellFormed heap c
  apart : ∀ c ∈ live, ∀ d ∈ live, c ≠ d → c.Apart d
  free : ∀ j < heap.table.total, (∀ c ∈ live, ¬ c.Covers j) →
    heap.table.entries j = heapBlockTableEntryFree

/-! ## What a call reads and writes -/

/-- The entries that the loops visit which follow `HAS_NEXT` from a block to the end of the table. -/
def chainTouches (table : HeapTable) (start : Nat) : List Nat :=
  List.range' start (chainReach table.entries (table.total - start) start)

/-- The entries that `heap_is_block_range_free` reads, of `rest` from `i` on. -/
def rangeFreeTouches (entries : Nat → UInt8) : (rest i : Nat) → List Nat
  | 0, _ => []
  | rest + 1, i =>
    i :: if hasFlag (entries i) heapBlockTableEntryTaken then [] else rangeFreeTouches entries rest (i + 1)

/-- The entries that `heap_get_start_block` reads. -/
def startBlockTouches (entries : Nat → UInt8) (totalBlocks : Nat) : (rest i bc : Nat) → List Nat
  | 0, _, _ => []
  | rest + 1, i, bc =>
    i :: if heapGetEntryType (entries i) ≠ heapBlockTableEntryFree then
        startBlockTouches entries totalBlocks rest (i + 1) 0
      else if bc + 1 = totalBlocks then []
      else startBlockTouches entries totalBlocks rest (i + 1) (bc + 1)

/-- The entries of the table that `heap_malloc_blocks` reads and writes. -/
def mallocTouches (heap : Heap) (totalBlocks : Nat) : List Nat :=
  let startBlock := heapGetStartBlock heap totalBlocks
  startBlockTouches heap.table.entries totalBlocks heap.table.total 0 0 ++
    if startBlock < 0 then [] else List.range' startBlock.toNat totalBlocks

/-- The entries of the table that `heap_realloc` reads and writes for a pointer into the heap and a
size that are not zero. -/
def heapReallocTouches (heap : Heap) (oldPtr newSize : Nat) : List Nat :=
  let start := (heapAddressToBlock heap oldPtr).toNat
  let current := heapAllocationBlockCount heap oldPtr
  let newTotal := blocksForSize newSize
  chainTouches heap.table start ++
    if current = newTotal then []
    else if newTotal < current then
      chainTouches heap.table (start + newTotal) ++
        if newTotal > 0 then [start + newTotal - 1] else []
    else
      let extensionStart := start + current
      let extra := newTotal - current
      rangeFreeTouches heap.table.entries extra extensionStart ++
        if heapIsBlockRangeFree heap extensionStart (extensionStart + extra - 1) then
          -- the extension, and the last block of the old chain
          List.range' extensionStart extra ++ [extensionStart - 1]
        else
          mallocTouches heap newTotal ++
            if heapGetStartBlock heap newTotal < 0 then []
            else chainTouches (heapMalloc heap (heapAlignValueToUpper newSize)).2.table start

/-! ## The bytes -/

/-- What an effect does to the bytes of memory; `none` when a counter of type `int` overflows.  The
callbacks change page tables only. -/
def HeapEffect.run (ram : Bytes) : HeapEffect → Option Bytes
  | .memset address size => (ViOS.Memory.memset (fun i => ram (address + i)) 0 size).map fun bytes a =>
      if address ≤ a then bytes (a - address) else ram a
  | .memcpy dest src size => (memcpyLength size).map fun len => moveLoop len ram dest src
  | .blockAllocated _ _ => some ram
  | .blockFreed _ => some ram

/-- The bytes of memory after some effects. -/
def runEffects (ram : Bytes) (effects : List HeapEffect) : Option Bytes := effects.foldlM HeapEffect.run ram

/-- The first `count` bytes at `p` are at `q` after the effects that one call added. -/
def HoldsBytes (heap heap' : Heap) (p q count : Nat) : Prop :=
  ∀ ram, ∃ ram', runEffects ram (heap'.effects.drop heap.effects.length) = some ram' ∧
    ∀ i < count, ram' (q + i) = ram (p + i)

/-! ## The property -/

/-- The chain that a call returned in place of another one. -/
structure Replaces (heap : Heap) (live : Set Extent) (c : Extent) (size : Nat) (heap' : Heap)
    (d : Extent) : Prop where
  count : d.count = ceilBlocks size
  new : d ∉ live \ {c}
  layout : ChainLayout heap' (insert d (live \ {c}))
  bytes : HoldsBytes heap heap' (c.ptr heap) (d.ptr heap) (min (c.count * viosHeapBlockSize) size)

/-- A call stays inside the table, and fails without a change or returns a chain of the right size
with the bytes of the old one. -/
def ReallocExact (heap : Heap) (live : Set Extent) (c : Extent) (size : Nat) : Prop :=
  (∀ i ∈ heapReallocTouches heap (c.ptr heap) size, i < heap.table.total) ∧
    ∃ q heap', heapRealloc heap (c.ptr heap) size = some (q, heap') ∧
      (q = 0 → heap' = heap) ∧
      (q ≠ 0 → ∃ d : Extent, q = d.ptr heap ∧ Replaces heap live c size heap' d)

/-! ## Entries -/

section Entries

/-- What `&= ~HEAP_BLOCK_HAS_NEXT` does to an entry. -/
theorem entry_unlink (entry : UInt8) :
    heapGetEntryType (entry &&& ~~~heapBlockHasNext) = heapGetEntryType entry ∧
      hasFlag (entry &&& ~~~heapBlockHasNext) heapBlockIsFirst = hasFlag entry heapBlockIsFirst ∧
      hasFlag (entry &&& ~~~heapBlockHasNext) heapBlockHasNext = false := by
  have all : ∀ n : Fin 256, heapGetEntryType (UInt8.ofFin n &&& ~~~heapBlockHasNext) =
        heapGetEntryType (UInt8.ofFin n) ∧
      hasFlag (UInt8.ofFin n &&& ~~~heapBlockHasNext) heapBlockIsFirst =
        hasFlag (UInt8.ofFin n) heapBlockIsFirst ∧
      hasFlag (UInt8.ofFin n &&& ~~~heapBlockHasNext) heapBlockHasNext = false := by decide +kernel
  exact all entry.toFin

/-- What `|= HEAP_BLOCK_HAS_NEXT` does to an entry. -/
theorem entry_link (entry : UInt8) :
    hasFlag (entry ||| heapBlockHasNext) heapBlockIsFirst = hasFlag entry heapBlockIsFirst ∧
      hasFlag (entry ||| heapBlockHasNext) heapBlockHasNext = true := by
  have all : ∀ n : Fin 256, hasFlag (UInt8.ofFin n ||| heapBlockHasNext) heapBlockIsFirst =
        hasFlag (UInt8.ofFin n) heapBlockIsFirst ∧
      hasFlag (UInt8.ofFin n ||| heapBlockHasNext) heapBlockHasNext = true := by decide +kernel
  exact all entry.toFin

end Entries

/-! ## Following a well-formed chain -/

namespace WellFormed

variable {heap heap' : Heap} {c : Extent}

theorem congr (wellFormed : WellFormed heap c) (total : heap'.table.total = heap.table.total)
    (same : ∀ block, c.Covers block → heap'.table.entries block = heap.table.entries block) :
    WellFormed heap' c where
  positive := wellFormed.positive
  inside := total ▸ wellFormed.inside
  taken := by
    intro block covers
    unfold TakenAt
    rw [same block covers]
    exact wellFormed.taken block covers
  first := by
    rw [same c.start ⟨Nat.le_refl _, Nat.lt_add_of_pos_right wellFormed.positive⟩]
    exact wellFormed.first
  linked := by
    intro block covers
    rw [same block covers]
    exact wellFormed.linked block covers

/-- The loops that follow the chain from one of its blocks stop at its end. -/
theorem reach (wellFormed : WellFormed heap c) {m : Nat} (small : m < c.count) :
    chainReach heap.table.entries (heap.table.total - (c.start + m)) (c.start + m) = c.count - m := by
  have inside := wellFormed.inside
  have linked : ∀ k < c.count - 1 - m,
      hasFlag (heap.table.entries (c.start + m + k)) heapBlockHasNext = true := by
    intro k below
    exact (wellFormed.linked (c.start + m + k) ⟨by omega, by omega⟩).mpr (by omega)
  have last : hasFlag (heap.table.entries (c.start + m + (c.count - 1 - m))) heapBlockHasNext = false := by
    by_contra linked
    have more := (wellFormed.linked (c.start + m + (c.count - 1 - m)) ⟨by omega, by omega⟩).mp
      (Bool.not_eq_false _ ▸ linked)
    omega
  have split : heap.table.total - (c.start + m) =
      c.count - 1 - m + (heap.table.total - (c.start + c.count) + 1) := by omega
  rw [split, chainReach_peel _ _ _ _ linked, chainReach, last]
  simp only [Bool.not_false, if_true]
  omega

end WellFormed

namespace ChainLayout

variable {heap : Heap} {live : Set Extent} {c : Extent}

theorem ptr_ne_zero (layout : ChainLayout heap live) (c : Extent) : c.ptr heap ≠ 0 := by
  have positive := layout.saddr_pos
  unfold Extent.ptr blockAddress
  omega

theorem address_lt (layout : ChainLayout heap live) {block : Nat} (inTable : block ≤ heap.table.total) :
    blockAddress heap block < addressSpace :=
  Nat.lt_of_le_of_lt (Nat.add_le_add_left (Nat.mul_le_mul_right _ inTable) _) layout.fits

theorem addressToBlock (layout : ChainLayout heap live) {block : Nat} (inTable : block ≤ heap.table.total) :
    heapAddressToBlock heap (blockAddress heap block) = block :=
  addressToBlock_of_block heap block (layout.address_lt inTable) (Nat.le_trans inTable heap.table.total_le)

theorem block_eq (layout : ChainLayout heap live) (member : c ∈ live) :
    heapAddressToBlock heap (c.ptr heap) = c.start :=
  layout.addressToBlock (by have := (layout.chain c member).inside; omega)

/-- `heap_allocation_block_count` of a live pointer. -/
theorem count (layout : ChainLayout heap live) (member : c ∈ live) :
    heapAllocationBlockCount heap (c.ptr heap) = c.count := by
  have wellFormed := layout.chain c member
  have inside := wellFormed.inside
  have positive := wellFormed.positive
  have linked : ∀ k < c.count - 1, hasFlag (heap.table.entries (c.start + k)) heapBlockHasNext = true :=
    fun k below => (wellFormed.linked (c.start + k) ⟨by omega, by omega⟩).mpr (by omega)
  have flagged : ∀ k < c.count, hasFlag (heap.table.entries (c.start + k)) heapBlockTableEntryTaken = true :=
    fun k below => takenFlag_of_taken (wellFormed.taken (c.start + k) ⟨by omega, by omega⟩)
  have last : hasFlag (heap.table.entries (c.start + (c.count - 1))) heapBlockHasNext = false := by
    by_contra linked
    have more := (wellFormed.linked (c.start + (c.count - 1)) ⟨by omega, by omega⟩).mp
      (Bool.not_eq_false _ ▸ linked)
    omega
  have split : heap.table.total - c.start =
      c.count - 1 + (heap.table.total - (c.start + c.count) + 1) := by omega
  unfold heapAllocationBlockCount
  simp only [layout.block_eq member]
  rw [if_neg (by omega), Int.toNat_natCast, split,
    blockCountLoop_peel _ _ _ _ linked fun k below => flagged k (by omega), blockCountLoop,
    flagged (c.count - 1) (by omega), last]
  simp only [Bool.not_false, if_true]
  omega

/-- A block of the table is taken just when it belongs to a chain. -/
theorem taken_iff (layout : ChainLayout heap live) {block : Nat} (inTable : block < heap.table.total) :
    TakenAt heap block ↔ ∃ c ∈ live, c.Covers block := by
  constructor
  · intro taken
    by_contra none
    have free := layout.free block inTable fun c member covers => none ⟨c, member, covers⟩
    exact not_taken_of_zero free taken
  · intro ⟨c, member, covers⟩
    exact (layout.chain c member).taken block covers

theorem free_of_not_taken (layout : ChainLayout heap live) {block : Nat} (inTable : block < heap.table.total)
    (notTaken : ¬ TakenAt heap block) : heap.table.entries block = heapBlockTableEntryFree :=
  layout.free block inTable fun c member covers =>
    notTaken ((layout.taken_iff inTable).mpr ⟨c, member, covers⟩)

/-- One chain is replaced by another run of blocks, and no other chain is touched. -/
theorem replace {heap' : Heap} {d : Extent} (layout : ChainLayout heap live) (member : c ∈ live)
    (saddr : heap'.saddr = heap.saddr) (total : heap'.table.total = heap.table.total)
    (wellFormed : WellFormed heap' d) (apart : ∀ e ∈ live, e ≠ c → d.Apart e)
    (kept : ∀ block, ¬ c.Covers block → ¬ d.Covers block →
      heap'.table.entries block = heap.table.entries block)
    (cleared : ∀ block, c.Covers block → ¬ d.Covers block →
      heap'.table.entries block = heapBlockTableEntryFree) :
    ChainLayout heap' (insert d (live \ {c})) where
  saddr_pos := saddr ▸ layout.saddr_pos
  fits := by
    rw [saddr, total]
    exact layout.fits
  chain := by
    intro e inNew
    cases inNew with
    | inl isNew => exact isNew ▸ wellFormed
    | inr old =>
      refine (layout.chain e old.1).congr total fun block covers => kept block ?_ ?_
      · exact (layout.apart e old.1 c member old.2).not_covers covers
      · exact (apart e old.1 old.2).symm.not_covers covers
  apart := by
    intro e inNew f inNew' different
    cases inNew with
    | inl isNew =>
      cases inNew' with
      | inl isNew' => exact absurd (isNew.trans isNew'.symm) different
      | inr old => exact isNew ▸ apart f old.1 old.2
    | inr old =>
      cases inNew' with
      | inl isNew => exact isNew ▸ (apart e old.1 old.2).symm
      | inr old' => exact layout.apart e old.1 f old'.1 different
  free := by
    intro j inTable uncovered
    rw [total] at inTable
    have notNew := uncovered d (.inl rfl)
    -- a block that no chain covers now was free before, or belonged to the chain that left
    by_cases inOld : c.Covers j
    · exact cleared j inOld notNew
    · rw [kept j inOld notNew]
      refine layout.free j inTable fun e live covers => ?_
      by_cases same : e = c
      · exact inOld (same ▸ covers)
      · exact uncovered e (.inr ⟨live, same⟩) covers

/-- A well-formed chain in place of another, apart from the rest, is not among the rest. -/
theorem not_mem_of_apart {heap' : Heap} {d : Extent} (wellFormed : WellFormed heap' d)
    (apart : ∀ e ∈ live, e ≠ c → d.Apart e) : d ∉ live \ {c} := by
  intro member
  have self := apart d member.1 member.2
  have positive := wellFormed.positive
  unfold Extent.Apart at self
  omega

end ChainLayout

/-! ## Effects -/

/-- Only callbacks were called. -/
def CallbacksOnly (heap heap' : Heap) : Prop :=
  ∃ more, heap'.effects = heap.effects ++ more ∧ ∀ effect ∈ more, ∃ address, effect = .blockFreed address

theorem CallbacksOnly.refl (heap : Heap) : CallbacksOnly heap heap :=
  ⟨[], (List.append_nil _).symm, fun _ member => absurd member List.not_mem_nil⟩

theorem callbacksOnly_markFreeLoop (rest i : Nat) (heap : Heap) :
    CallbacksOnly heap (markFreeLoop rest i heap).2 := by
  induction rest generalizing i heap with
  | zero => exact .refl heap
  | succ rest ih =>
    have here : CallbacksOnly heap ((heap.setEntry i heapBlockTableEntryFree).notifyFreed
        (heapBlockToAddress (heap.setEntry i heapBlockTableEntryFree) i)) := by
      unfold Heap.notifyFreed
      split
      · refine ⟨_, rfl, fun effect member => ?_⟩
        exact ⟨_, List.mem_singleton.mp member⟩
      · exact .refl heap
    simp only [markFreeLoop]
    split
    · exact here
    · obtain ⟨more, effects, callbacks⟩ := here
      obtain ⟨later, effects', callbacks'⟩ := ih (i + 1) ((heap.setEntry i heapBlockTableEntryFree).notifyFreed
        (heapBlockToAddress (heap.setEntry i heapBlockTableEntryFree) i))
      refine ⟨more ++ later, ?_, fun effect member => ?_⟩
      · rw [effects', effects, List.append_assoc]
      · cases List.mem_append.mp member with
        | inl first => exact callbacks effect first
        | inr second => exact callbacks' effect second

/-- Callbacks leave the bytes of memory alone. -/
theorem CallbacksOnly.holdsBytes {heap heap' : Heap} (only : CallbacksOnly heap heap') (p count : Nat) :
    HoldsBytes heap heap' p p count := by
  obtain ⟨more, effects, callbacks⟩ := only
  intro ram
  refine ⟨ram, ?_, fun _ _ => rfl⟩
  rw [effects, List.drop_left]
  clear effects
  induction more with
  | nil => rfl
  | cons effect rest ih =>
    obtain ⟨address, rfl⟩ := callbacks effect List.mem_cons_self
    exact ih fun other member => callbacks other (List.mem_cons_of_mem _ member)

/-! ## The branches -/

theorem Heap.effects_extendLoop (rest i : Nat) (heap : Heap) : (extendLoop rest i heap).effects = heap.effects := by
  induction rest generalizing i heap with
  | zero => rfl
  | succ rest ih => exact ih _ _

/-- The heap after a chain was cut to `n` blocks.  The counters were adjusted twice. -/
structure Shrunk (heap : Heap) (c : Extent) (n : Nat) (heap' : Heap) : Prop where
  saddr : heap'.saddr = heap.saddr
  total : heap'.table.total = heap.table.total
  entries : ∀ j, heap'.table.entries j =
    if c.start + n ≤ j ∧ j < c.start + c.count then heapBlockTableEntryFree
    else if 0 < n ∧ j = c.start + n - 1 then heap.table.entries j &&& ~~~heapBlockHasNext
    else heap.table.entries j
  used : heap'.usedBlocks =
    ((heap.usedBlocks + addressSpace - (c.count - n)) % addressSpace + addressSpace - (c.count - n)) % addressSpace
  free : heap'.freeBlocks = ((heap.freeBlocks + (c.count - n)) % addressSpace + (c.count - n)) % addressSpace
  effects : CallbacksOnly heap heap'

/-- The heap after a chain was lengthened to `n` blocks in place, as far as the bytes go. -/
structure Extended (heap : Heap) (c : Extent) (n : Nat) (heap' : Heap) : Prop where
  saddr : heap'.saddr = heap.saddr
  total : heap'.table.total = heap.table.total
  entries : ∀ j, heap'.table.entries j =
    if j = c.start + c.count - 1 then heap.table.entries j ||| heapBlockHasNext
    else if j = c.start + n - 1 then heapBlockTableEntryTaken
    else if c.start + c.count ≤ j ∧ j < c.start + n then heapBlockTableEntryTaken ||| heapBlockHasNext
    else heap.table.entries j
  used : heap'.usedBlocks = (heap.usedBlocks + (n - c.count)) % addressSpace
  free : heap'.freeBlocks = (heap.freeBlocks + addressSpace - (n - c.count)) % addressSpace
  effects : heap'.effects = heap.effects

/-- The heap after a chain moved to a run of `n` blocks at `new`. -/
structure Moved (heap : Heap) (c : Extent) (n new : Nat) (heap' : Heap) : Prop where
  saddr : heap'.saddr = heap.saddr
  total : heap'.table.total = heap.table.total
  inside : new + n ≤ heap.table.total
  room : ∀ j, new ≤ j → j < new + n → ¬ TakenAt heap j
  entries : ∀ j, heap'.table.entries j =
    if c.Covers j then heapBlockTableEntryFree
    else if new ≤ j ∧ j < new + n then chainEntry n (j - new)
    else heap.table.entries j
  used : heap'.usedBlocks = ((heap.usedBlocks + n) % addressSpace + addressSpace - c.count) % addressSpace
  free : heap'.freeBlocks = ((heap.freeBlocks + addressSpace - n) % addressSpace + c.count) % addressSpace

section Branches

variable {heap : Heap} {live : Set Extent} {c : Extent} {size n : Nat}

theorem heapRealloc_live (layout : ChainLayout heap live) (member : c ∈ live) (notZero : size ≠ 0) :
    heapRealloc heap (c.ptr heap) size =
      if c.count = blocksForSize size then some (c.ptr heap, heap)
      else if blocksForSize size < c.count then
        reallocShrink heap (c.ptr heap) c.start c.count (blocksForSize size)
      else if heapIsBlockRangeFree heap (c.start + c.count) (c.start + blocksForSize size - 1) then
        some (reallocExtend heap (c.ptr heap) (c.start + c.count) (blocksForSize size - c.count))
      else reallocMove heap (c.ptr heap) c.count (heapAlignValueToUpper size) := by
  have positive := (layout.chain c member).positive
  have wanted : heapAlignValueToUpper size / viosHeapBlockSize = blocksForSize size := rfl
  unfold heapRealloc
  rw [if_neg (layout.ptr_ne_zero c), if_neg notZero]
  simp only [layout.count member, layout.block_eq member, wanted]
  by_cases equal : c.count = blocksForSize size
  · rw [if_pos equal, if_pos equal]
  · rw [if_neg equal, if_neg equal]
    by_cases shrinks : blocksForSize size < c.count
    · rw [if_pos shrinks, if_pos shrinks]
    · have last : c.start + c.count + (blocksForSize size - c.count) - 1 =
          c.start + blocksForSize size - 1 := by omega
      rw [if_neg shrinks, if_neg shrinks, if_neg (by omega), Int.toNat_natCast, last]
      by_cases free : heapIsBlockRangeFree heap (c.start + c.count) (c.start + blocksForSize size - 1) = true
      · rw [if_pos free, if_pos free, if_neg (by omega)]
      · rw [if_neg free, if_neg free]

theorem shrink_spec (layout : ChainLayout heap live) (member : c ∈ live) (shrinks : n < c.count) :
    ∃ heap', reallocShrink heap (c.ptr heap) c.start c.count n = some (c.ptr heap, heap') ∧
      Shrunk heap c n heap' := by
  have reach := (layout.chain c member).reach shrinks
  have block : (c.start : Int) + n = ((c.start + n : Nat) : Int) := by omega
  have lastBlock : ((c.start : Int) + n - 1).toNat = c.start + n - 1 := by omega
  have visited := entries_markFreeLoop (heap.table.total - (c.start + n)) (c.start + n) heap
  have freed := markFreeLoop_freed (heap.table.total - (c.start + n)) (c.start + n) heap
  have callbacks := callbacksOnly_markFreeLoop (heap.table.total - (c.start + n)) (c.start + n) heap
  obtain ⟨entries, effects, shape⟩ := sameShape_markFreeLoop (heap.table.total - (c.start + n)) (c.start + n) heap
  rw [reach] at visited freed
  rw [shape] at visited callbacks
  unfold reallocShrink heapMarkBlocksFree
  rw [block, if_neg (by omega), Int.toNat_natCast]
  simp only [freed, shape]
  refine ⟨_, rfl, ?_⟩
  have sameRange : ∀ j, (c.start + n ≤ j ∧ j < c.start + n + (c.count - n)) ↔
      (c.start + n ≤ j ∧ j < c.start + c.count) := by omega
  simp only [sameRange] at visited
  by_cases some : 0 < n
  · simp only [if_pos some]
    refine ⟨rfl, rfl, fun j => ?_, rfl, rfl, callbacks⟩
    change Function.update entries _ _ j = _
    have outside : ¬ (c.start + n ≤ c.start + n - 1 ∧ c.start + n - 1 < c.start + c.count) := by omega
    rw [show ((c.start + n : Nat) : Int) - 1 = ((c.start + n - 1 : Nat) : Int) by omega, Int.toNat_natCast,
      Function.update_apply]
    by_cases last : j = c.start + n - 1
    · rw [if_pos last, last, if_neg outside, if_pos ⟨some, rfl⟩]
      exact congrArg (· &&& _) ((visited _).trans (if_neg outside))
    · rw [if_neg last]
      refine (visited j).trans ?_
      simp only [last, and_false, if_false]
  · simp only [if_neg some]
    refine ⟨rfl, rfl, fun j => ?_, rfl, rfl, callbacks⟩
    refine (visited j).trans ?_
    simp only [some, false_and, if_false]

theorem extend_spec (wellFormed : WellFormed heap c) (grows : c.count < n) :
    (reallocExtend heap (c.ptr heap) (c.start + c.count) (n - c.count)).1 = c.ptr heap ∧
      Extended heap c n (reallocExtend heap (c.ptr heap) (c.start + c.count) (n - c.count)).2 := by
  have positive := wellFormed.positive
  have entries := fun j =>
    entries_reallocExtend heap (c.ptr heap) (c.start + c.count) (n - c.count) j (by omega) (by omega)
  have same := samePool_reallocExtend heap (c.ptr heap) (c.start + c.count) (n - c.count)
  refine ⟨rfl, same.saddr, same.total, fun j => ?_, ?_, ?_, ?_⟩
  · rw [entries j]
    have whole : c.start + c.count + (n - c.count) = c.start + n := by omega
    rw [whole]
  · unfold reallocExtend
    obtain ⟨entries', effects, shape⟩ := sameShape_extendLoop (n - c.count - 1) (c.start + c.count) heap
    simp only [shape]
    rfl
  · unfold reallocExtend
    obtain ⟨entries', effects, shape⟩ := sameShape_extendLoop (n - c.count - 1) (c.start + c.count) heap
    simp only [shape]
    rfl
  · unfold reallocExtend
    exact Heap.effects_extendLoop _ _ _

/-- `heap_free` of a chain of a heap whose entries are those of a well-formed chain. -/
theorem free_spec {other : Heap} (layout : ChainLayout heap live) (member : c ∈ live)
    (saddr : other.saddr = heap.saddr) (total : other.table.total = heap.table.total)
    (same : ∀ block, c.Covers block → other.table.entries block = heap.table.entries block) :
    ∃ heap', heapFree other (c.ptr heap) = some heap' ∧ heap'.saddr = heap.saddr ∧
      heap'.table.total = heap.table.total ∧
      (∀ j, heap'.table.entries j =
        if c.Covers j then heapBlockTableEntryFree else other.table.entries j) ∧
      heap'.usedBlocks = (other.usedBlocks + addressSpace - c.count) % addressSpace ∧
      heap'.freeBlocks = (other.freeBlocks + c.count) % addressSpace := by
  have wellFormed := (layout.chain c member).congr total same
  have block : heapAddressToBlock other (c.ptr heap) = c.start := by
    rw [← layout.block_eq member]
    unfold heapAddressToBlock
    rw [saddr]
  have reach := wellFormed.reach wellFormed.positive
  rw [Nat.add_zero, Nat.sub_zero] at reach
  have visited := entries_markFreeLoop (other.table.total - c.start) c.start other
  have freed := markFreeLoop_freed (other.table.total - c.start) c.start other
  obtain ⟨entries, effects, shape⟩ := sameShape_markFreeLoop (other.table.total - c.start) c.start other
  rw [reach] at visited freed
  rw [shape] at visited
  unfold heapFree heapMarkBlocksFree
  rw [block, if_neg (by omega), Int.toNat_natCast]
  simp only [freed, shape]
  exact ⟨_, rfl, saddr, total, visited, rfl, rfl⟩

theorem move_spec (layout : ChainLayout heap live) (member : c ∈ live) :
    (reallocMove heap (c.ptr heap) c.count (heapAlignValueToUpper size) = some (0, heap) ∧
      heapGetStartBlock heap (blocksForSize size) < 0) ∨
    ∃ (new : Nat) (heap' : Heap), reallocMove heap (c.ptr heap) c.count (heapAlignValueToUpper size) =
      some (blockAddress heap new, heap') ∧ heapGetStartBlock heap (blocksForSize size) = new ∧
      Moved heap c (blocksForSize size) new heap' := by
  have aligned := blocksForSize_aligned size
  have inside := (layout.chain c member).inside
  unfold reallocMove heapZalloc
  cases heapMalloc_cases heap (heapAlignValueToUpper size) with
  | inl none =>
    rw [none.1]
    exact .inl ⟨by simp, aligned ▸ none.2⟩
  | inr found =>
    obtain ⟨new, entries, effects, startBlock, positive, run, fits, marked, result⟩ := found
    rw [aligned] at startBlock positive run fits marked result
    have address : heapBlockToAddress heap new = blockAddress heap new :=
      Nat.mod_eq_of_lt (layout.address_lt (by omega))
    have notNull : blockAddress heap new ≠ 0 := layout.ptr_ne_zero ⟨new, 0⟩
    have notTaken : ∀ j, new ≤ j → j < new + blocksForSize size → ¬ TakenAt heap j :=
      fun j lower upper => not_taken_of_free (run.free j lower upper)
    -- the blocks that are taken were free, so the old chain is as it was when it is freed
    have kept : ∀ block, c.Covers block → entries block = heap.table.entries block := by
      intro block covers
      rw [marked block, if_neg fun inNew =>
        notTaken block inNew.1 inNew.2 ((layout.chain c member).taken block covers)]
    obtain ⟨heap', freed, saddr, total, cleared, used, free⟩ := @free_spec heap live c
      { heap.take entries effects (blocksForSize size) with effects := effects ++
        [.memset (blockAddress heap new) (heapAlignValueToUpper size),
          .memcpy (blockAddress heap new) (c.ptr heap) (c.count * viosHeapBlockSize)] }
      layout member rfl rfl kept
    refine .inr ⟨new, heap', ?_, startBlock, saddr, total, fits, notTaken, fun j => ?_, used, free⟩
    · rw [result, address]
      simp only [notNull, if_false, Heap.effect, Heap.take, List.append_assoc, List.cons_append,
        List.nil_append] at freed ⊢
      rw [freed]
      rfl
    · rw [cleared j]
      exact if_congr Iff.rfl rfl (marked j)

end Branches

/-! ## The table and the bytes -/

/-- The blocks in front of the chain that `n` blocks need are in the table and not taken. -/
def RoomAfter (heap : Heap) (c : Extent) (n : Nat) : Prop :=
  c.start + n ≤ heap.table.total ∧ ∀ j, c.start + c.count ≤ j → j < c.start + n → ¬ TakenAt heap j

/-- A block that a chain of `n` blocks would grow over is taken. -/
def Blocked (heap : Heap) (c : Extent) (n : Nat) : Prop :=
  ∃ j < heap.table.total, c.start + c.count ≤ j ∧ j < c.start + n ∧ TakenAt heap j

/-- The size can be rounded up, and the chain stays where it is, or there is no room for it at all and
the table does not end before the block that is in its way. -/
def ReallocFits (heap : Heap) (c : Extent) (size : Nat) : Prop :=
  size + viosHeapBlockSize ≤ addressSpace ∧
    (ceilBlocks size ≤ c.count ∨ RoomAfter heap c (ceilBlocks size) ∨
      Blocked heap c (ceilBlocks size) ∧ ∀ start, ¬ FreeAt heap (ceilBlocks size) start)

section Table

variable {heap heap' : Heap} {live : Set Extent} {c : Extent} {size : Nat}

theorem chainTouches_inside (wellFormed : WellFormed heap c) {m : Nat} (small : m < c.count) :
    ∀ i ∈ chainTouches heap.table (c.start + m), i < heap.table.total := by
  intro i touched
  have inside := wellFormed.inside
  unfold chainTouches at touched
  rw [wellFormed.reach small, List.mem_range'_1] at touched
  omega

theorem rangeFreeTouches_inside (entries : Nat → UInt8) (total rest i : Nat)
    (stops : i + rest ≤ total ∨ ∃ j < total, i ≤ j ∧ hasFlag (entries j) heapBlockTableEntryTaken = true) :
    ∀ k ∈ rangeFreeTouches entries rest i, k < total := by
  induction rest generalizing i with
  | zero => simp [rangeFreeTouches]
  | succ rest ih =>
    intro k touched
    have here : i < total := by
      cases stops with
      | inl bounded => omega
      | inr taken =>
        obtain ⟨j, inTable, lower, -⟩ := taken
        omega
    unfold rangeFreeTouches at touched
    cases List.mem_cons.mp touched with
    | inl same => exact same ▸ here
    | inr later =>
      by_cases flag : hasFlag (entries i) heapBlockTableEntryTaken = true
      · rw [if_pos flag] at later
        exact absurd later List.not_mem_nil
      · rw [if_neg flag] at later
        refine ih (i + 1) ?_ k later
        cases stops with
        | inl bounded => exact .inl (by omega)
        | inr taken =>
          obtain ⟨j, inTable, lower, isTaken⟩ := taken
          have different : j ≠ i := fun same => flag (same ▸ isTaken)
          exact .inr ⟨j, inTable, by omega, isTaken⟩

/-- Without a taken block before it, the check for room reads the entry behind the table. -/
theorem rangeFreeTouches_behind (entries : Nat → UInt8) (total rest i : Nat) (lower : i ≤ total)
    (beyond : total < i + rest)
    (none : ∀ j, i ≤ j → j < total → hasFlag (entries j) heapBlockTableEntryTaken = false) :
    total ∈ rangeFreeTouches entries rest i := by
  induction rest generalizing i with
  | zero => omega
  | succ rest ih =>
    unfold rangeFreeTouches
    by_cases here : i = total
    · exact here ▸ List.mem_cons_self
    · refine List.mem_cons_of_mem _ ?_
      rw [none i (Nat.le_refl i) (by omega)]
      exact ih (i + 1) (by omega) (by omega) fun j lower => none j (by omega)

theorem rangeFree_notTaken {first last j : Nat} (free : heapIsBlockRangeFree heap first last = true)
    (lower : first ≤ j) (upper : j ≤ last) : ¬ TakenAt heap j := by
  intro isTaken
  have flag := rangeFree_iff.mp free j lower upper
  rw [takenFlag_of_taken isTaken] at flag
  exact absurd flag (by decide)

theorem startBlockTouches_inside (entries : Nat → UInt8) (totalBlocks rest i bc : Nat) :
    ∀ k ∈ startBlockTouches entries totalBlocks rest i bc, k < i + rest := by
  induction rest generalizing i bc with
  | zero => simp [startBlockTouches]
  | succ rest ih =>
    intro k touched
    unfold startBlockTouches at touched
    cases List.mem_cons.mp touched with
    | inl same => omega
    | inr later =>
      split_ifs at later
      · have := ih (i + 1) 0 k later
        omega
      · exact absurd later List.not_mem_nil
      · have := ih (i + 1) (bc + 1) k later
        omega

theorem replaces_self (layout : ChainLayout heap live) (member : c ∈ live) (count : c.count = ceilBlocks size) :
    Replaces heap live c size heap c where
  count := count
  new := fun inRest => inRest.2 rfl
  layout := layout.replace member rfl rfl (layout.chain c member)
    (fun e inLive different => layout.apart c member e inLive different.symm) (fun _ _ _ => rfl)
    fun _ covers notCovers => absurd covers notCovers
  bytes := (CallbacksOnly.refl heap).holdsBytes _ _

theorem Shrunk.wellFormed {n : Nat} (shrunk : Shrunk heap c n heap') (wellFormed : WellFormed heap c)
    (positive : 0 < n) (shrinks : n < c.count) : WellFormed heap' ⟨c.start, n⟩ where
  positive := positive
  inside := by
    have inside := wellFormed.inside
    rw [shrunk.total]
    change c.start + n ≤ _
    omega
  taken := by
    intro block covers
    rw [Extent.covers_mk] at covers
    have isTaken := wellFormed.taken block ⟨covers.1, by omega⟩
    unfold TakenAt at *
    rw [shrunk.entries block, if_neg (by omega)]
    split_ifs
    · exact (entry_unlink _).1.trans isTaken
    · exact isTaken
  first := by
    change hasFlag (heap'.table.entries c.start) heapBlockIsFirst = true
    rw [shrunk.entries c.start, if_neg (by omega)]
    split_ifs
    · exact (entry_unlink _).2.1.trans wellFormed.first
    · exact wellFormed.first
  linked := by
    intro block covers
    have linked := wellFormed.linked block
    rw [Extent.covers_mk] at covers
    unfold Extent.Covers at linked
    change _ ↔ block + 1 < c.start + n
    rw [shrunk.entries block, if_neg (by omega)]
    by_cases last : block = c.start + n - 1
    · rw [if_pos ⟨positive, last⟩, (entry_unlink _).2.2]
      exact iff_of_false (by decide) (by omega)
    · rw [if_neg fun isLast => last isLast.2, linked (by omega)]
      omega

theorem Extended.wellFormed {n : Nat} (extended : Extended heap c n heap') (wellFormed : WellFormed heap c)
    (grows : c.count < n) (inTable : c.start + n ≤ heap.table.total) : WellFormed heap' ⟨c.start, n⟩ where
  positive := Nat.lt_of_le_of_lt (Nat.zero_le _) grows
  inside := extended.total ▸ inTable
  taken := by
    intro block covers
    have positive := wellFormed.positive
    have isTaken := wellFormed.taken block
    rw [Extent.covers_mk] at covers
    unfold Extent.Covers TakenAt at *
    rw [extended.entries block]
    by_cases ending : block = c.start + c.count - 1
    · rw [if_pos ending, entryType_hasNext]
      exact isTaken (by omega)
    · rw [if_neg ending]
      split_ifs
      · rfl
      · rfl
      · exact isTaken (by omega)
  first := by
    have positive := wellFormed.positive
    change hasFlag (heap'.table.entries c.start) heapBlockIsFirst = true
    rw [extended.entries c.start]
    -- the entry that ended the chain is linked to what comes behind it
    by_cases ending : c.start = c.start + c.count - 1
    · rw [if_pos ending]
      exact (entry_link _).1.trans wellFormed.first
    · rw [if_neg ending, if_neg (by omega), if_neg (by omega)]
      exact wellFormed.first
  linked := by
    intro block covers
    have positive := wellFormed.positive
    have linked := wellFormed.linked block
    rw [Extent.covers_mk] at covers
    unfold Extent.Covers at linked
    change _ ↔ block + 1 < c.start + n
    rw [extended.entries block]
    by_cases ending : block = c.start + c.count - 1
    · rw [if_pos ending]
      exact iff_of_true (entry_link _).2 (by omega)
    · rw [if_neg ending]
      by_cases last : block = c.start + n - 1
      · rw [if_pos last]
        exact iff_of_false (by decide) (by omega)
      · rw [if_neg last]
        by_cases added : c.start + c.count ≤ block ∧ block < c.start + n
        · rw [if_pos added]
          exact iff_of_true (by decide) (by omega)
        · rw [if_neg added, linked (by omega)]
          omega

/-- A chain that was cut keeps the place of the old one. -/
theorem Shrunk.replaces (layout : ChainLayout heap live) (member : c ∈ live)
    (shrunk : Shrunk heap c (ceilBlocks size) heap') (positive : 0 < ceilBlocks size)
    (shrinks : ceilBlocks size < c.count) : Replaces heap live c size heap' ⟨c.start, ceilBlocks size⟩ := by
  have wellFormed := shrunk.wellFormed (layout.chain c member) positive shrinks
  have apart : ∀ e ∈ live, e ≠ c → Extent.Apart ⟨c.start, ceilBlocks size⟩ e := by
    intro e inLive different
    have whole := layout.apart c member e inLive different.symm
    rw [Extent.apart_mk]
    unfold Extent.Apart at whole
    omega
  refine ⟨rfl, ChainLayout.not_mem_of_apart wellFormed apart,
    layout.replace member shrunk.saddr shrunk.total wellFormed apart ?_ ?_, shrunk.effects.holdsBytes _ _⟩
  · intro block notOld notNew
    rw [Extent.covers_mk] at notNew
    unfold Extent.Covers at notOld
    rw [shrunk.entries block, if_neg (by omega), if_neg (by omega)]
  · intro block inOld notNew
    rw [Extent.covers_mk] at notNew
    unfold Extent.Covers at inOld
    rw [shrunk.entries block, if_pos (by omega)]

/-- A chain that grew in place takes blocks that were free. -/
theorem Extended.replaces (layout : ChainLayout heap live) (member : c ∈ live)
    (extended : Extended heap c (ceilBlocks size) heap') (grows : c.count < ceilBlocks size)
    (room : RoomAfter heap c (ceilBlocks size)) :
    Replaces heap live c size heap' ⟨c.start, ceilBlocks size⟩ := by
  have old := layout.chain c member
  have positive := old.positive
  have wellFormed := extended.wellFormed old grows room.1
  have apart : ∀ e ∈ live, e ≠ c → Extent.Apart ⟨c.start, ceilBlocks size⟩ e := by
    intro e inLive different
    have whole := layout.apart c member e inLive different.symm
    have other := layout.chain e inLive
    have nonempty := other.positive
    -- the first block of the other chain is taken
    have notFirst : ¬ (c.start + c.count ≤ e.start ∧ e.start < c.start + ceilBlocks size) :=
      fun between => room.2 e.start between.1 between.2
        (other.taken e.start ⟨Nat.le_refl _, Nat.lt_add_of_pos_right nonempty⟩)
    rw [Extent.apart_mk]
    unfold Extent.Apart at whole
    omega
  have effects : CallbacksOnly heap heap' :=
    ⟨[], extended.effects.trans (List.append_nil _).symm, fun _ member => absurd member List.not_mem_nil⟩
  refine ⟨rfl, ChainLayout.not_mem_of_apart wellFormed apart,
    layout.replace member extended.saddr extended.total wellFormed apart ?_ ?_, effects.holdsBytes _ _⟩
  · intro block notOld notNew
    rw [Extent.covers_mk] at notNew
    unfold Extent.Covers at notOld
    rw [extended.entries block, if_neg (by omega), if_neg (by omega), if_neg (by omega)]
  · intro block inOld notNew
    rw [Extent.covers_mk] at notNew
    unfold Extent.Covers at inOld
    omega

/-- The last block of a chain that moved carries `HAS_NEXT`. -/
theorem Moved.not_replaces {n new : Nat} (moved : Moved heap c n new heap') (several : 1 < n)
    (layout : ChainLayout heap live) (member : c ∈ live) {d : Extent} (here : d.start = new) (count : d.count = n) :
    ¬ WellFormed heap' d := by
  intro wellFormed
  have last : d.Covers (new + n - 1) := by
    unfold Extent.Covers
    omega
  have notOld : ¬ c.Covers (new + n - 1) := fun covers =>
    moved.room (new + n - 1) (by omega) (by omega) ((layout.chain c member).taken _ covers)
  have entry := moved.entries (new + n - 1)
  rw [if_neg notOld, if_pos (by omega)] at entry
  have flag := chainEntry_hasNext (show new + n - 1 - new < n by omega)
  rw [decide_eq_true several, ← entry] at flag
  have more := (wellFormed.linked _ last).mp flag
  omega

theorem blocksForSize_lt {size : Nat} (isSize : size < addressSpace) : blocksForSize size < 2 ^ 52 := by
  have aligned : heapAlignValueToUpper size < addressSpace := by
    unfold heapAlignValueToUpper
    split_ifs
    · exact isSize
    · exact Nat.mod_lt _ (by decide)
  have spaces : addressSpace = viosHeapBlockSize * 2 ^ 52 := by decide
  exact Nat.div_lt_of_lt_mul (spaces ▸ aligned)

/-- The number of blocks is right for the sizes that can be rounded up, and zero for the others. -/
theorem blocksForSize_cases {size : Nat} (isSize : size < addressSpace) (notZero : size ≠ 0) :
    (size + viosHeapBlockSize ≤ addressSpace ∧ blocksForSize size = ceilBlocks size ∧ 0 < ceilBlocks size) ∨
      (¬ size + viosHeapBlockSize ≤ addressSpace ∧ blocksForSize size = 0 ∧ 2 ^ 52 ≤ ceilBlocks size) := by
  unfold blocksForSize heapAlignValueToUpper ceilBlocks viosHeapBlockSize
  unfold addressSpace at *
  split
  · omega
  · omega

/-- What a call reads and writes in front of the decision between the branches. -/
theorem reallocTouches_live (layout : ChainLayout heap live) (member : c ∈ live) (size : Nat) :
    heapReallocTouches heap (c.ptr heap) size =
      chainTouches heap.table c.start ++
        if c.count = blocksForSize size then []
        else if blocksForSize size < c.count then
          chainTouches heap.table (c.start + blocksForSize size) ++
            if blocksForSize size > 0 then [c.start + blocksForSize size - 1] else []
        else
          rangeFreeTouches heap.table.entries (blocksForSize size - c.count) (c.start + c.count) ++
            if heapIsBlockRangeFree heap (c.start + c.count)
                (c.start + c.count + (blocksForSize size - c.count) - 1) then
              List.range' (c.start + c.count) (blocksForSize size - c.count) ++ [c.start + c.count - 1]
            else
              mallocTouches heap (blocksForSize size) ++
                if heapGetStartBlock heap (blocksForSize size) < 0 then []
                else chainTouches (heapMalloc heap (heapAlignValueToUpper size)).2.table c.start := by
  unfold heapReallocTouches
  simp only [layout.count member, layout.block_eq member, Int.toNat_natCast]

/-- A size that wraps frees the whole chain and returns its pointer. -/
theorem not_exact_of_wrap (layout : ChainLayout heap live) (member : c ∈ live) (notZero : size ≠ 0)
    (none : blocksForSize size = 0) (long : 2 ^ 52 ≤ ceilBlocks size) : ¬ ReallocExact heap live c size := by
  have positive := (layout.chain c member).positive
  have small := heap.table.total_le
  obtain ⟨heap', result, shrunk⟩ := @shrink_spec heap live c 0 layout member positive
  unfold ReallocExact
  rw [heapRealloc_live layout member notZero, none, if_neg (by omega), if_pos positive, result]
  rintro ⟨-, q, other, result', -, returned⟩
  obtain ⟨rfl, rfl⟩ := Prod.mk.inj (Option.some.inj result')
  obtain ⟨d, -, replaces⟩ := returned (layout.ptr_ne_zero c)
  have bounded := (replaces.layout.chain d (.inl rfl)).inside
  have count := replaces.count
  rw [shrunk.total] at bounded
  omega

theorem exact_of_same (layout : ChainLayout heap live) (member : c ∈ live) (notZero : size ≠ 0)
    (blocks : blocksForSize size = ceilBlocks size) (same : c.count = ceilBlocks size) :
    ReallocExact heap live c size := by
  have wellFormed := layout.chain c member
  unfold ReallocExact
  rw [heapRealloc_live layout member notZero, reallocTouches_live layout member, blocks, if_pos same, if_pos same,
    List.append_nil]
  exact ⟨chainTouches_inside wellFormed wellFormed.positive, _, _, rfl,
    fun null => absurd null (layout.ptr_ne_zero c), fun _ => ⟨c, rfl, replaces_self layout member same⟩⟩

theorem exact_of_shrink (layout : ChainLayout heap live) (member : c ∈ live) (notZero : size ≠ 0)
    (blocks : blocksForSize size = ceilBlocks size) (some : 0 < ceilBlocks size)
    (shrinks : ceilBlocks size < c.count) : ReallocExact heap live c size := by
  have wellFormed := layout.chain c member
  have inside := wellFormed.inside
  obtain ⟨heap', result, shrunk⟩ := shrink_spec layout member shrinks
  unfold ReallocExact
  have different : ¬ c.count = ceilBlocks size := Nat.ne_of_gt shrinks
  rw [heapRealloc_live layout member notZero, reallocTouches_live layout member, blocks, if_neg different,
    if_neg different, if_pos shrinks, if_pos shrinks, if_pos some]
  refine ⟨?_, _, _, result, fun null => absurd null (layout.ptr_ne_zero c), fun _ =>
    ⟨⟨c.start, ceilBlocks size⟩, rfl, shrunk.replaces layout member some shrinks⟩⟩
  intro i touched
  rw [List.mem_append, List.mem_append, List.mem_singleton] at touched
  obtain first | cut | last := touched
  · exact chainTouches_inside wellFormed wellFormed.positive i first
  · exact chainTouches_inside wellFormed shrinks i cut
  · omega

theorem exact_of_room (layout : ChainLayout heap live) (member : c ∈ live) (notZero : size ≠ 0)
    (blocks : blocksForSize size = ceilBlocks size) (grows : c.count < ceilBlocks size)
    (room : RoomAfter heap c (ceilBlocks size)) : ReallocExact heap live c size := by
  have wellFormed := layout.chain c member
  have inside := room.1
  have last : c.start + c.count + (ceilBlocks size - c.count) - 1 = c.start + ceilBlocks size - 1 := by omega
  have free : heapIsBlockRangeFree heap (c.start + c.count) (c.start + ceilBlocks size - 1) = true :=
    rangeFree_iff.mpr fun j lower upper => by
      have entry := layout.free_of_not_taken (show j < heap.table.total by omega) (room.2 j lower (by omega))
      rw [entry]
      decide
  obtain ⟨same, extended⟩ := extend_spec wellFormed grows
  unfold ReallocExact
  have different : ¬ c.count = ceilBlocks size := Nat.ne_of_lt grows
  have notCut : ¬ ceilBlocks size < c.count := Nat.lt_asymm grows
  rw [heapRealloc_live layout member notZero, reallocTouches_live layout member, blocks, if_neg different,
    if_neg different, if_neg notCut, if_neg notCut, last, if_pos free, if_pos free]
  refine ⟨?_, _, _, rfl, fun null => ?_, fun _ => ?_⟩
  · intro i touched
    simp only [List.mem_append, List.mem_singleton, List.mem_range'_1] at touched
    obtain first | checked | added | linked := touched
    · exact chainTouches_inside wellFormed wellFormed.positive i first
    · exact rangeFreeTouches_inside _ _ _ _ (.inl (by omega)) i checked
    · omega
    · omega
  · exact absurd (same.symm.trans null) (layout.ptr_ne_zero c)
  · exact ⟨⟨c.start, ceilBlocks size⟩, rfl, extended.replaces layout member grows room⟩

theorem exact_of_blocked (layout : ChainLayout heap live) (member : c ∈ live) (notZero : size ≠ 0)
    (blocks : blocksForSize size = ceilBlocks size) (grows : c.count < ceilBlocks size)
    (blocked : Blocked heap c (ceilBlocks size)) :
    ReallocExact heap live c size ↔ ∀ start, ¬ FreeAt heap (ceilBlocks size) start := by
  have wellFormed := layout.chain c member
  have positive := wellFormed.positive
  obtain ⟨j, inTable, lower, upper, isTaken⟩ := blocked
  have last : c.start + c.count + (ceilBlocks size - c.count) - 1 = c.start + ceilBlocks size - 1 := by omega
  have notFree : ¬ heapIsBlockRangeFree heap (c.start + c.count) (c.start + ceilBlocks size - 1) = true :=
    fun free => rangeFree_notTaken free lower (by omega) isTaken
  unfold ReallocExact
  have different : ¬ c.count = ceilBlocks size := Nat.ne_of_lt grows
  have notCut : ¬ ceilBlocks size < c.count := Nat.lt_asymm grows
  rw [heapRealloc_live layout member notZero, reallocTouches_live layout member, blocks, if_neg different,
    if_neg different, if_neg notCut, if_neg notCut, last, if_neg notFree, if_neg notFree]
  have moves := @move_spec heap live c size layout member
  rw [blocks] at moves
  cases moves with
  | inl none =>
    obtain ⟨result, negative⟩ := none
    rw [result, if_pos negative]
    -- nothing is free for a move: the call fails, and reads inside the table only
    refine iff_of_true ⟨?_, _, _, rfl, fun _ => rfl, fun notNull => absurd rfl notNull⟩ fun start free => ?_
    · intro i touched
      unfold mallocTouches at touched
      simp only [if_pos negative, List.append_nil, List.mem_append] at touched
      obtain first | checked | searched := touched
      · exact chainTouches_inside wellFormed positive i first
      · exact rangeFreeTouches_inside _ _ _ _
          (.inr ⟨j, inTable, lower, takenFlag_of_taken isTaken⟩) i checked
      · have := startBlockTouches_inside _ _ _ _ _ i searched
        omega
    · have found := heapGetStartBlock_finds (Nat.lt_of_le_of_lt (Nat.zero_le _) grows) free
      omega
  | inr some =>
    obtain ⟨new, heap', result, startBlock, moved⟩ := some
    rw [result]
    -- a move leaves the HAS_NEXT of the run it took on its last block
    refine iff_of_false ?_ fun none => ?_
    · rintro ⟨-, q, other, result', -, returned⟩
      obtain ⟨rfl, rfl⟩ := Prod.mk.inj (Option.some.inj result')
      obtain ⟨d, here, replaces⟩ := returned (layout.ptr_ne_zero ⟨new, 0⟩)
      have start : d.start = new := by
        unfold Extent.ptr blockAddress viosHeapBlockSize at here
        omega
      exact moved.not_replaces (by omega) layout member start replaces.count (replaces.layout.chain d (.inl rfl))
    · obtain ⟨-, s, sEq, run, fits⟩ := heapGetStartBlock_spec
        (show 0 ≤ heapGetStartBlock heap (ceilBlocks size) by omega)
      exact none s ⟨fits, run.free⟩

/-- The check for room reads the entry behind the table. -/
theorem not_exact_of_short (layout : ChainLayout heap live) (member : c ∈ live)
    (blocks : blocksForSize size = ceilBlocks size) (grows : c.count < ceilBlocks size)
    (short : heap.table.total < c.start + ceilBlocks size) (notBlocked : ¬ Blocked heap c (ceilBlocks size)) :
    ¬ ReallocExact heap live c size := by
  have inside := (layout.chain c member).inside
  intro ⟨touches, _⟩
  have free : ∀ j, c.start + c.count ≤ j → j < heap.table.total →
      hasFlag (heap.table.entries j) heapBlockTableEntryTaken = false := by
    intro j lower inTable
    have entry := layout.free_of_not_taken inTable fun isTaken =>
      notBlocked ⟨j, inTable, lower, by omega, isTaken⟩
    rw [entry]
    decide
  have behind := rangeFreeTouches_behind heap.table.entries heap.table.total (ceilBlocks size - c.count)
    (c.start + c.count) inside (by omega) free
  rw [reallocTouches_live layout member, blocks, if_neg (by omega), if_neg (by omega)] at touches
  exact Nat.lt_irrefl _ (touches heap.table.total
    (List.mem_append_right _ (List.mem_append_left _ behind)))

/-- `heap_realloc` on a live pointer stays inside the table and returns a well-formed chain with the old
bytes, or `NULL` and changes nothing, exactly for the chains and sizes of `ReallocFits`. -/
theorem realloc_exact_iff (heap : Heap) (live : Set Extent) (layout : ChainLayout heap live) (c : Extent)
    (member : c ∈ live) (size : Nat) (notZero : size ≠ 0) (isSize : size < addressSpace) :
    ReallocExact heap live c size ↔ ReallocFits heap c size := by
  unfold ReallocFits
  cases blocksForSize_cases isSize notZero with
  | inr wraps =>
    obtain ⟨tooLong, none, long⟩ := wraps
    exact iff_of_false (not_exact_of_wrap layout member notZero none long) fun fits => tooLong fits.1
  | inl rounds =>
    obtain ⟨fits, blocks, some⟩ := rounds
    obtain shrinks | same | grows := Nat.lt_trichotomy (ceilBlocks size) c.count
    · exact iff_of_true (exact_of_shrink layout member notZero blocks some shrinks) ⟨fits, .inl shrinks.le⟩
    · exact iff_of_true (exact_of_same layout member notZero blocks same.symm) ⟨fits, .inl same.le⟩
    · have notCut : ¬ ceilBlocks size ≤ c.count := Nat.not_le.mpr grows
      by_cases blocked : Blocked heap c (ceilBlocks size)
      · rw [exact_of_blocked layout member notZero blocks grows blocked]
        constructor
        · exact fun none => ⟨fits, .inr (.inr ⟨blocked, none⟩)⟩
        · intro ⟨_, condition⟩
          obtain ⟨j, inTable, lower, upper, isTaken⟩ := blocked
          obtain cut | room | none := condition
          · exact absurd cut notCut
          · exact absurd isTaken (room.2 j lower upper)
          · exact none.2
      · by_cases short : heap.table.total < c.start + ceilBlocks size
        · refine iff_of_false (not_exact_of_short layout member blocks grows short blocked) fun fits => ?_
          obtain cut | room | none := fits.2
          · exact notCut cut
          · exact absurd room.1 (Nat.not_le.mpr short)
          · exact blocked none.1
        · have room : RoomAfter heap c (ceilBlocks size) :=
            ⟨Nat.not_lt.mp short, fun j lower upper isTaken => blocked ⟨j, by omega, lower, upper, isTaken⟩⟩
          exact iff_of_true (exact_of_room layout member notZero blocks grows room) ⟨fits, .inr (.inl room)⟩

theorem sixBlocks_le : 6 ≤ 2 ^ 48 := by decide

/-- A chain of two blocks, a chain of one, and three free blocks. -/
def chainsHeap : Heap where
  table := ⟨fun j => if j = 0 then 0xc1 else if j = 1 then 0x01 else if j = 2 then 0x41 else 0, 6, sixBlocks_le⟩
  saddr := 0x1000
  eaddr := 0x7000
  totalBlocks := 6
  freeBlocks := 3
  usedBlocks := 3
  blockAllocatedCallback := false
  blockFreeCallback := false
  effects := []

/-- The chains of `chainsHeap`. -/
def chainsLive : Set Extent := {⟨0, 2⟩, ⟨2, 1⟩}

theorem chainsHeap_layout : ChainLayout chainsHeap chainsLive where
  saddr_pos := by decide
  fits := by decide
  chain := by
    -- what the tables of the two chains hold
    have taken : ∀ block < 3, heapGetEntryType (chainsHeap.table.entries block) = heapBlockTableEntryTaken := by decide
    have linked : ∀ block < 2, hasFlag (chainsHeap.table.entries block) heapBlockHasNext = true ↔ block + 1 < 2 := by
      decide
    have two : WellFormed chainsHeap ⟨0, 2⟩ := by
      refine ⟨by decide, by decide, fun block covers => ?_, by decide, fun block covers => ?_⟩
      · rw [Extent.covers_mk] at covers
        exact taken block (by omega)
      · rw [Extent.covers_mk] at covers
        change _ ↔ block + 1 < 0 + 2
        rw [linked block (by omega)]
    have one : WellFormed chainsHeap ⟨2, 1⟩ := by
      refine ⟨by decide, by decide, fun block covers => ?_, by decide, fun block covers => ?_⟩
      · rw [Extent.covers_mk] at covers
        exact taken block (by omega)
      · rw [Extent.covers_mk] at covers
        obtain rfl : block = 2 := by omega
        decide
    rintro c (rfl | rfl)
    · exact two
    · exact one
  apart := by
    rintro c (rfl | rfl) d (rfl | rfl) different
    · exact absurd rfl different
    · exact .inl (by decide)
    · exact .inr (by decide)
    · exact absurd rfl different
  free := by
    intro j inTable uncovered
    have two := uncovered ⟨0, 2⟩ (.inl rfl)
    have one := uncovered ⟨2, 1⟩ (.inr rfl)
    rw [Extent.covers_mk] at one two
    change (if j = 0 then (0xc1 : UInt8) else if j = 1 then 0x01 else if j = 2 then 0x41 else 0) = 0
    rw [if_neg (by omega), if_neg (by omega), if_neg (by omega)]

/-- The first chain, grown to three blocks, moves and ends with `HAS_NEXT`. -/
theorem move_leaves_link :
    ChainLayout chainsHeap chainsLive ∧ ⟨0, 2⟩ ∈ chainsLive ∧ ¬ ReallocExact chainsHeap chainsLive ⟨0, 2⟩ 12288 := by
  have blocked : Blocked chainsHeap ⟨0, 2⟩ (ceilBlocks 12288) :=
    ⟨2, by decide, by decide, by decide, by unfold TakenAt; decide⟩
  have room : FreeAt chainsHeap (ceilBlocks 12288) 3 := by
    have free : ∀ j < 6, 3 ≤ j → heapGetEntryType (chainsHeap.table.entries j) = heapBlockTableEntryFree := by decide
    exact ⟨by decide, fun j lower upper => free j upper lower⟩
  refine ⟨chainsHeap_layout, .inl rfl, fun exact => ?_⟩
  exact (exact_of_blocked chainsHeap_layout (.inl rfl) (by decide) (by decide) (by decide) blocked).mp exact 3 room

/-- Cut to one block, it stays well formed. -/
theorem shrink_exact :
    ReallocFits chainsHeap ⟨0, 2⟩ 4096 ∧ ReallocExact chainsHeap chainsLive ⟨0, 2⟩ 4096 := by
  have fits : ReallocFits chainsHeap ⟨0, 2⟩ 4096 := ⟨by decide, .inl (by decide)⟩
  exact ⟨fits, (realloc_exact_iff chainsHeap chainsLive chainsHeap_layout ⟨0, 2⟩ (.inl rfl) 4096 (by decide)
    (by decide)).mpr fits⟩

end Table

/-! ## The counters -/

/-- The number of entries of the table whose type is FREE. -/
def freeEntries (heap : Heap) : Nat :=
  ((Finset.range heap.table.total).filter fun i =>
    heapGetEntryType (heap.table.entries i) = heapBlockTableEntryFree).card

/-- The counters of the heap agree with its table. -/
def CountersRight (heap : Heap) : Prop :=
  heap.usedBlocks = takenBlocks heap ∧ heap.freeBlocks = freeEntries heap

/-- The counters are right after a call. -/
def ReallocCounters (heap : Heap) (c : Extent) (size : Nat) : Prop :=
  ∃ q heap', heapRealloc heap (c.ptr heap) size = some (q, heap') ∧ CountersRight heap'

/-- The call frees the chain, or does not cut it and takes no room for its end that is not there. -/
def CountersFit (heap : Heap) (c : Extent) (size : Nat) : Prop :=
  size = 0 ∨ c.count ≤ blocksForSize size ∧
    (c.count < blocksForSize size →
      heapIsBlockRangeFree heap (c.start + c.count) (c.start + blocksForSize size - 1) = true →
      c.start + blocksForSize size ≤ heap.table.total)

section Counters

variable {heap heap' : Heap} {live : Set Extent} {c : Extent} {size : Nat}

/-- A run of free entries is taken. -/
theorem counts_take {start count : Nat} (total : heap'.table.total = heap.table.total)
    (inside : start + count ≤ heap.table.total)
    (outside : ∀ j < heap.table.total, ¬ (start ≤ j ∧ j < start + count) →
      heapGetEntryType (heap'.table.entries j) = heapGetEntryType (heap.table.entries j))
    (before : ∀ j, start ≤ j → j < start + count →
      heapGetEntryType (heap.table.entries j) = heapBlockTableEntryFree)
    (after : ∀ j, start ≤ j → j < start + count →
      heapGetEntryType (heap'.table.entries j) = heapBlockTableEntryTaken) :
    takenBlocks heap' = takenBlocks heap + count ∧ freeEntries heap = freeEntries heap' + count := by
  have different : heapBlockTableEntryTaken ≠ heapBlockTableEntryFree := by decide
  have below : ∀ (p : Nat → Prop) [DecidablePred p],
      ((Finset.range heap.table.total).filter p).card =
        ((Finset.range heap.table.total).filter fun j => p j ∧ j < heap.table.total).card := by
    intro p _
    congr 1
    ext j
    simp only [Finset.mem_filter, Finset.mem_range]
    tauto
  unfold takenBlocks freeEntries
  rw [total]
  constructor
  · rw [below fun j => heapGetEntryType (heap'.table.entries j) = _,
      below fun j => heapGetEntryType (heap.table.entries j) = _]
    refine card_filter_add inside (fun j notIn => ?_) (fun j lower upper isTaken => ?_)
      fun j lower upper => ⟨after j lower upper, by omega⟩
    · constructor
      · exact fun here => ⟨(outside j here.2 notIn).symm.trans here.1, here.2⟩
      · exact fun here => ⟨(outside j here.2 notIn).trans here.1, here.2⟩
    · exact different (isTaken.1.symm.trans (before j lower upper))
  · rw [below fun j => heapGetEntryType (heap'.table.entries j) = _,
      below fun j => heapGetEntryType (heap.table.entries j) = _]
    refine card_filter_add inside (fun j notIn => ?_) (fun j lower upper isFree => ?_)
      fun j lower upper => ⟨before j lower upper, by omega⟩
    · constructor
      · exact fun here => ⟨(outside j here.2 notIn).trans here.1, here.2⟩
      · exact fun here => ⟨(outside j here.2 notIn).symm.trans here.1, here.2⟩
    · exact different ((after j lower upper).symm.trans isFree.1)

theorem freeEntries_le (heap : Heap) : freeEntries heap ≤ heap.table.total := by
  unfold freeEntries
  exact (Finset.card_filter_le _ _).trans (Finset.card_range _).le

theorem entryType_of_clear {entry : UInt8} (clear : entry = heapBlockTableEntryFree) :
    heapGetEntryType entry = heapBlockTableEntryFree := by
  rw [clear]
  rfl

theorem counts_shrink (layout : ChainLayout heap live) (member : c ∈ live) {n : Nat} (shrinks : n < c.count)
    (shrunk : Shrunk heap c n heap') :
    takenBlocks heap = takenBlocks heap' + (c.count - n) ∧ freeEntries heap' = freeEntries heap + (c.count - n) := by
  have wellFormed := layout.chain c member
  have inside := wellFormed.inside
  refine @counts_take heap' heap (c.start + n) (c.count - n) shrunk.total.symm
    (by rw [shrunk.total]; omega) ?_ ?_ ?_
  · intro j _ outside
    rw [shrunk.entries j, if_neg (by omega)]
    split_ifs
    · exact (entry_unlink _).1.symm
    · rfl
  · intro j lower upper
    rw [shrunk.entries j, if_pos (by omega)]
    rfl
  · exact fun j lower upper => wellFormed.taken j ⟨by omega, by omega⟩

/-- The chain grew by the free entries in front of it, up to `last`. -/
theorem counts_extend (layout : ChainLayout heap live) (member : c ∈ live) {n last : Nat}
    (grows : c.count < n) (extended : Extended heap c n heap') (inTable : last ≤ heap.table.total)
    (isLast : last = c.start + n ∨ last = heap.table.total ∧ heap.table.total < c.start + n)
    (reaches : c.start + c.count ≤ last)
    (room : ∀ j, c.start + c.count ≤ j → j < last → ¬ TakenAt heap j) :
    takenBlocks heap' = takenBlocks heap + (last - (c.start + c.count)) ∧
      freeEntries heap = freeEntries heap' + (last - (c.start + c.count)) := by
  have wellFormed := layout.chain c member
  have positive := wellFormed.positive
  refine @counts_take heap heap' (c.start + c.count) (last - (c.start + c.count)) extended.total (by omega) ?_ ?_ ?_
  · intro j _ outside
    rw [extended.entries j]
    by_cases ending : j = c.start + c.count - 1
    · rw [if_pos ending, entryType_hasNext]
    · rw [if_neg ending, if_neg (by omega), if_neg (by omega)]
  · intro j lower upper
    exact entryType_of_clear (layout.free_of_not_taken (by omega) (room j lower (by omega)))
  · intro j lower upper
    rw [extended.entries j, if_neg (by omega)]
    split_ifs
    · rfl
    · rfl
    · omega

theorem counts_move (layout : ChainLayout heap live) (member : c ∈ live) {n new : Nat}
    (moved : Moved heap c n new heap') :
    takenBlocks heap' + c.count = takenBlocks heap + n ∧ freeEntries heap' + n = freeEntries heap + c.count := by
  have wellFormed := layout.chain c member
  have inside := wellFormed.inside
  have fits := moved.inside
  have notBoth : ∀ j, c.Covers j → ¬ (new ≤ j ∧ j < new + n) :=
    fun j covers inNew => moved.room j inNew.1 inNew.2 (wellFormed.taken j covers)
  -- the heap between the two steps: the new run is taken and the old one not yet free
  obtain ⟨mid, midTotal, midEntries⟩ : ∃ mid : Heap, mid.table.total = heap.table.total ∧
      ∀ j, mid.table.entries j =
        if new ≤ j ∧ j < new + n then chainEntry n (j - new) else heap.table.entries j :=
    ⟨{ heap with table := { heap.table with entries := fun j =>
      if new ≤ j ∧ j < new + n then chainEntry n (j - new) else heap.table.entries j } }, rfl, fun _ => rfl⟩
  have taken := @counts_take heap mid new n midTotal fits
    (fun j _ outside => by rw [midEntries j, if_neg outside])
    (fun j lower upper => entryType_of_clear (layout.free_of_not_taken (by omega) (moved.room j lower upper)))
    (fun j lower upper => by
      rw [midEntries j, if_pos ⟨lower, upper⟩]
      exact chainEntry_taken _ _)
  have released := @counts_take heap' mid c.start c.count (midTotal.trans moved.total.symm)
    (by rw [moved.total]; exact inside)
    (fun j _ outside => by
      rw [moved.entries j, midEntries j]
      exact (congrArg heapGetEntryType (if_neg outside)).symm)
    (fun j lower upper => by
      rw [moved.entries j]
      exact entryType_of_clear (if_pos ⟨lower, upper⟩))
    (fun j lower upper => by
      rw [midEntries j, if_neg (notBoth j ⟨lower, upper⟩)]
      exact wellFormed.taken j ⟨lower, upper⟩)
  omega

/-- A chain that is freed. -/
theorem counters_of_zero (layout : ChainLayout heap live) (counters : CountersRight heap) (member : c ∈ live) :
    ReallocCounters heap c 0 := by
  have wellFormed := layout.chain c member
  have inside := wellFormed.inside
  have small := heap.table.total_le
  obtain ⟨used, unused⟩ := counters
  obtain ⟨heap', freed, -, total, cleared, used', free'⟩ := @free_spec heap live c heap layout member rfl rfl
    fun _ _ => rfl
  have counts := @counts_take heap' heap c.start c.count total.symm (by rw [total]; exact inside)
    (fun j _ outside => by
      rw [cleared j]
      exact (congrArg heapGetEntryType (if_neg outside)).symm)
    (fun j lower upper => by
      rw [cleared j]
      exact entryType_of_clear (if_pos ⟨lower, upper⟩))
    (fun j lower upper => wellFormed.taken j ⟨lower, upper⟩)
  have taken := takenBlocks_le heap
  have freeSmall := freeEntries_le heap'
  have result : heapRealloc heap (c.ptr heap) 0 = some (0, heap') := by
    unfold heapRealloc
    rw [if_neg (layout.ptr_ne_zero c), if_pos rfl, freed]
    rfl
  unfold addressSpace at used' free'
  exact ⟨0, heap', result, by omega, by omega⟩

/-- A chain that is cut: both counters are off by the number of its blocks that were freed. -/
theorem not_counters_of_shrinks (layout : ChainLayout heap live) (counters : CountersRight heap)
    (member : c ∈ live) (zero : size ≠ 0) (shrinks : blocksForSize size < c.count) :
    ¬ ReallocCounters heap c size := by
  have inside := (layout.chain c member).inside
  have taken := takenBlocks_le heap
  have small := heap.table.total_le
  obtain ⟨heap', result, shrunk⟩ := shrink_spec layout member shrinks
  have counts := counts_shrink layout member shrinks shrunk
  have used' := shrunk.used
  have used := counters.1
  intro ⟨q, other, result', right⟩
  rw [heapRealloc_live layout member zero, if_neg (by omega), if_pos shrinks, result] at result'
  obtain rfl := (Prod.mk.inj (Option.some.inj result')).2
  have right' := right.1
  unfold addressSpace at used'
  omega

/-- A chain that grows in place counts the blocks it was given, of which the table has those up to
its end. -/
theorem counters_of_extends (layout : ChainLayout heap live) (counters : CountersRight heap)
    (member : c ∈ live) (zero : size ≠ 0) (isSize : size < addressSpace) (grows : c.count < blocksForSize size)
    (room : heapIsBlockRangeFree heap (c.start + c.count) (c.start + blocksForSize size - 1) = true) :
    ReallocCounters heap c size ↔ c.start + blocksForSize size ≤ heap.table.total := by
  have wellFormed := layout.chain c member
  have inside := wellFormed.inside
  have free := freeEntries_le heap
  have small := heap.table.total_le
  have longest := blocksForSize_lt isSize
  obtain ⟨used, unused⟩ := counters
  obtain ⟨-, extended⟩ := @extend_spec heap c (blocksForSize size) wellFormed grows
  have notTaken : ∀ j, c.start + c.count ≤ j → j < c.start + blocksForSize size → ¬ TakenAt heap j :=
    fun j lower upper => rangeFree_notTaken room lower (by omega)
  unfold ReallocCounters
  rw [heapRealloc_live layout member zero, if_neg (by omega), if_neg (by omega), if_pos room]
  generalize (reallocExtend heap (c.ptr heap) (c.start + c.count) (blocksForSize size - c.count)) = result
    at extended ⊢
  have used' := extended.used
  have free' := extended.free
  have total := extended.total
  have takenSmall := takenBlocks_le result.2
  unfold addressSpace at used' free'
  constructor
  · intro ⟨q, other, result', right⟩
    by_contra bounded
    obtain rfl := (Prod.mk.inj (Option.some.inj result')).2
    -- only the entries up to the end of the table were taken
    have counts := counts_extend layout member grows extended (Nat.le_refl _)
      (.inr ⟨rfl, by omega⟩) (by omega) fun j lower upper => notTaken j lower (by omega)
    have right' := right.1
    omega
  · intro bounded
    have counts := counts_extend layout member grows extended bounded (.inl rfl) (by omega) notTaken
    exact ⟨_, _, rfl, by omega, by omega⟩

/-- A chain that moves, or cannot. -/
theorem counters_of_blocked (layout : ChainLayout heap live) (counters : CountersRight heap)
    (member : c ∈ live) (zero : size ≠ 0) (grows : c.count < blocksForSize size)
    (blocked : ¬ heapIsBlockRangeFree heap (c.start + c.count) (c.start + blocksForSize size - 1) = true) :
    ReallocCounters heap c size := by
  have inside := (layout.chain c member).inside
  have free := freeEntries_le heap
  have taken := takenBlocks_le heap
  have small := heap.table.total_le
  obtain ⟨used, unused⟩ := counters
  unfold ReallocCounters
  rw [heapRealloc_live layout member zero, if_neg (by omega), if_neg (by omega), if_neg blocked]
  cases @move_spec heap live c size layout member with
  | inl none =>
    rw [none.1]
    exact ⟨_, _, rfl, used, unused⟩
  | inr some =>
    obtain ⟨new, heap', result, -, moved⟩ := some
    have counts := counts_move layout member moved
    have used' := moved.used
    have free' := moved.free
    have fits := moved.inside
    have freeSmall := freeEntries_le heap'
    have total := moved.total
    rw [result]
    unfold addressSpace at used' free'
    exact ⟨_, _, rfl, by omega, by omega⟩

/-- `heap_realloc` keeps the counters right exactly when it does not cut the chain and does not find
room for it past the end of the table. -/
theorem realloc_counters_iff (heap : Heap) (live : Set Extent) (layout : ChainLayout heap live)
    (counters : CountersRight heap) (c : Extent) (member : c ∈ live) (size : Nat)
    (isSize : size < addressSpace) :
    ReallocCounters heap c size ↔ CountersFit heap c size := by
  by_cases zero : size = 0
  · subst zero
    exact iff_of_true (counters_of_zero layout counters member) (.inl rfl)
  · by_cases shrinks : blocksForSize size < c.count
    · refine iff_of_false (not_counters_of_shrinks layout counters member zero shrinks) fun fits => ?_
      cases fits with
      | inl isZero => exact zero isZero
      | inr grows => omega
    · by_cases equal : c.count = blocksForSize size
      · refine iff_of_true ?_ (.inr ⟨by omega, fun grows => by omega⟩)
        unfold ReallocCounters
        rw [heapRealloc_live layout member zero, if_pos equal]
        exact ⟨_, _, rfl, counters⟩
      · have grows : c.count < blocksForSize size := by omega
        by_cases room : heapIsBlockRangeFree heap (c.start + c.count) (c.start + blocksForSize size - 1) = true
        · rw [counters_of_extends layout counters member zero isSize grows room]
          constructor
          · exact fun bounded => .inr ⟨grows.le, fun _ _ => bounded⟩
          · exact fun fits => (fits.resolve_left zero).2 grows room
        · exact iff_of_true (counters_of_blocked layout counters member zero grows room)
            (.inr ⟨grows.le, fun _ isFree => absurd isFree room⟩)

theorem chainsHeap_counters : CountersRight chainsHeap := by
  unfold CountersRight
  decide

/-- Cutting the first chain by one block counts that block twice. -/
theorem shrink_counts_twice :
    ChainLayout chainsHeap chainsLive ∧ ⟨0, 2⟩ ∈ chainsLive ∧ CountersRight chainsHeap ∧
      ¬ ReallocCounters chainsHeap ⟨0, 2⟩ 4096 := by
  refine ⟨chainsHeap_layout, .inl rfl, chainsHeap_counters, ?_⟩
  rintro ⟨q, heap', result, right⟩
  obtain ⟨other, result', shrunk⟩ := @shrink_spec chainsHeap chainsLive ⟨0, 2⟩ 1 chainsHeap_layout (.inl rfl) (by decide)
  have counts := counts_shrink chainsHeap_layout (.inl rfl) (by decide) shrunk
  have whole : heapRealloc chainsHeap (Extent.ptr chainsHeap ⟨0, 2⟩) 4096 = some (Extent.ptr chainsHeap ⟨0, 2⟩, other) :=
    result'
  rw [whole] at result
  obtain rfl := (Prod.mk.inj (Option.some.inj result)).2
  have used : other.usedBlocks = 1 := shrunk.used
  have taken : takenBlocks chainsHeap = 3 := by decide
  have right := right.1
  have cut : takenBlocks chainsHeap = takenBlocks other + 1 := counts.1
  omega

/-- Grown to three blocks, it moves, and the counters stay right. -/
theorem move_counters :
    CountersFit chainsHeap ⟨0, 2⟩ 12288 ∧ ReallocCounters chainsHeap ⟨0, 2⟩ 12288 := by
  have notFree : ¬ heapIsBlockRangeFree chainsHeap (0 + 2) (0 + blocksForSize 12288 - 1) = true := by decide
  have fits : CountersFit chainsHeap ⟨0, 2⟩ 12288 := .inr ⟨by decide, fun _ free => absurd free notFree⟩
  exact ⟨fits, (realloc_counters_iff chainsHeap chainsLive chainsHeap_layout chainsHeap_counters ⟨0, 2⟩ (.inl rfl)
    12288 (by decide)).mpr fits⟩

end Counters

end ViOS.Memory
