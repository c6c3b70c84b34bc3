import ViOS.Fs.File
import ViOS.Memory.KheapInit
import ViOS.Memory.SecondPass
import Mathlib.Algebra.Order.BigOperators.Group.List
import Mathlib.Algebra.Order.Group.Nat

/-! # Errors in pointers

`ERROR` puts a negative status code in a pointer, and `ISERR` narrows a pointer to 32
bits and tests the sign.  The codes come out as they went in.  An object of `kzalloc` is
taken for an error when bit 31 of its address is set.  Which addresses there are depends
on the memory map alone: as long as a heap has a free block, some run of the kernel gets it.

* `KzallocReturns` — the pointers `kzalloc` returns in all runs of the kernel.
* `kzallocReturns_iff` — they are the blocks that were free at the start.
* `encodingUnambiguous_iff` — the exact condition on these blocks.
-/

namespace ViOS.Fs

open ViOS.Lib ViOS.Memory

/-! ## The code -/

/-- The error codes of `status.h`. -/
def statusCodes : List Int :=
  [eio, einvarg, enomem, ebadpath, efsnotus, erdonly, eunimp, eistkn, einformat, eoutofrange, enotfound,
    etimeout]

/-- `kmalloc`. -/
def kmalloc (heaps : Heaps) (size : Nat) : Nat × Heaps := multiheapAlloc heaps size

/-- `kzalloc`.  What it clears are bytes of the object. -/
def kzalloc (heaps : Heaps) (size : Nat) : Nat × Heaps :=
  let (ptr, heaps) := kmalloc heaps size
  if ptr = 0 then (0, heaps) else (ptr, heaps)

/-! ## What it is to be unambiguous -/

/-- The heaps are where they were, and what was in use at `boot` is in use. -/
structure KeepsHeld (boot heaps next : Heaps) : Prop where
  same : SameHeaps heaps next
  held : ∀ name ∈ boot.names, ∀ block, UsedAt (boot.heapAt name) block → UsedAt (next.heapAt name) block

/-- What the kernel does with its heaps. -/
inductive AllocOp where
  | kzalloc (size : Nat)
  | other
  deriving DecidableEq, Repr

/-- Everything but `kzalloc` may take and release blocks as it likes, save those of the multiheap
itself, which are in use at `boot`. -/
def AllocStep (boot heaps : Heaps) : AllocOp → Heaps → Prop
  | .kzalloc size, next => next = (kzalloc heaps size).2
  | .other, next => KeepsHeld boot heaps next

/-- Some run of the kernel gets the pointer from `kzalloc`. -/
def KzallocReturns (boot : Heaps) (p : Ptr) : Prop :=
  ∃ run : List (AllocOp × Heaps), IsRun (AllocStep boot) boot run ∧
    ∃ heaps ∈ runStates boot run, ∃ size, (kzalloc heaps size).1 = p

/-- Every code is recognised and comes out as it went in, no object is taken for an error, and no
error is an object; a file that the filesystem opened gets its descriptor. -/
structure EncodingUnambiguous (boot : Heaps) : Prop where
  codes : ∀ e ∈ statusCodes, isErr (errorPtr (-e)) = true ∧ errorCode (errorPtr (-e)) = -e
  objects : ∀ p, KzallocReturns boot p → isErr p = false
  apart : ∀ e ∈ statusCodes, ¬ KzallocReturns boot (errorPtr (-e))
  opened : ∀ {φ : Type} (env : FileEnv φ) (st : FileState φ) (memory : Nat → Bool) (filename modeStr : CStr) (drive : Nat)
    (parts : List CStr) (mode : FileMode) (p : Ptr) (volumes : φ) (i : Nat), KzallocReturns boot p →
    fopenTarget env memory filename modeStr = some (drive, parts, mode) →
    env.fs.openFile st.volumes drive parts mode = (some p, volumes) →
    fileFreeSlot st.descriptors = some i → (fopen env st memory filename modeStr).1 = some ((i + 1 : Nat) : Int)

/-- The heaps of the list as `heap_create` accepts them, none of them at address zero. -/
def Pooled (heaps : Heaps) : Prop :=
  ∀ name ∈ heaps.names, name < heaps.created ∧ PoolRange (heaps.heapAt name) ∧
    0 < (heaps.heapAt name).saddr

/-- Bit 31 of the address of a free block is never set. -/
def FreeBlocksLow (heaps : Heaps) : Prop :=
  ∀ name ∈ heaps.names, ∀ block < (heaps.heapAt name).table.total,
    ¬ UsedAt (heaps.heapAt name) block → blockAddress (heaps.heapAt name) block % 2 ^ 32 < 2 ^ 31

/-! ## The codes -/

theorem statusCodes_carried :
    ∀ e ∈ statusCodes, isErr (errorPtr (-e)) = true ∧ errorCode (errorPtr (-e)) = -e := by
  decide

/-- `fopen` of a file that the filesystem opened, while there is a free descriptor. -/
theorem fopen_opened {φ : Type} {env : FileEnv φ} {st : FileState φ} {memory : Nat → Bool} {filename modeStr : CStr} {drive i : Nat}
    {parts : List CStr} {mode : FileMode} {p : Ptr} {volumes : φ} (valid : isErr p = false)
    (target : fopenTarget env memory filename modeStr = some (drive, parts, mode))
    (opened : env.fs.openFile st.volumes drive parts mode = (some p, volumes))
    (room : fileFreeSlot st.descriptors = some i) :
    (fopen env st memory filename modeStr).1 = some ((i + 1 : Nat) : Int) := by
  simp [fopen, target, opened, valid, room]

/-! ## One call -/

theorem kzalloc_eq (heaps : Heaps) (size : Nat) :
    kzalloc heaps size = firstPassLoop size heaps.multiheap.heaps heaps := by
  have same : kmalloc heaps size = firstPassLoop size heaps.multiheap.heaps heaps := rfl
  simp only [kzalloc, same]
  split
  · rename_i null
    exact Prod.ext null.symm rfl
  · rfl

/-- An allocation that fails changes nothing, and one that succeeds starts at a free block. -/
theorem heapMalloc_served {heap : Heap} {size : Nat} (range : PoolRange heap) (saddrPos : 0 < heap.saddr) :
    heapMalloc heap size = (0, heap) ∨
    (heapMalloc heap size).1 ≠ 0 ∧ ∃ block < heap.table.total, ¬ UsedAt heap block ∧
      (heapMalloc heap size).1 = blockAddress heap block := by
  rcases heapMalloc_cases heap size with ⟨failed, -⟩ | ⟨start, _, _, -, positive, run, inside, -, result⟩
  · exact .inl failed
  · have inTable : start < heap.table.total := by omega
    have before := Nat.mul_lt_mul_of_pos_right inTable (show 0 < viosHeapBlockSize by decide)
    have ptr : (heapMalloc heap size).1 = blockAddress heap start := by
      have eaddr := range.eaddr_eq
      have low := range.low
      rw [result]
      exact Nat.mod_eq_of_lt (by omega)
    refine .inr ⟨?_, start, inTable, not_not.mpr (run.free start (Nat.le_refl _) (by omega)), ptr⟩
    rw [ptr, blockAddress]
    omega

/-- The first pass stops at the first heap that serves it, and changes no other. -/
theorem firstPassLoop_cases (size : Nat) (heaps : Heaps) (nodes : List MultiheapSingleHeap)
    (pools : ∀ node ∈ nodes, PoolRange (heaps.heapAt node.heap) ∧ 0 < (heaps.heapAt node.heap).saddr) :
    (firstPassLoop size nodes heaps = (0, heaps) ∧ ∀ node ∈ nodes, (heaps.malloc node.heap size).1 = 0) ∨
    ∃ node ∈ nodes, (heaps.malloc node.heap size).1 ≠ 0 ∧
      firstPassLoop size nodes heaps = heaps.malloc node.heap size := by
  induction nodes with
  | nil => exact .inl ⟨rfl, fun node member => absurd member List.not_mem_nil⟩
  | cons current rest ih =>
    obtain ⟨range, saddrPos⟩ := pools current List.mem_cons_self
    rcases @heapMalloc_served _ size range saddrPos with failed | ⟨served, -⟩
    · -- the heap is stored as it was
      have unchanged : heaps.malloc current.heap size = (0, heaps) := by
        simp only [Heaps.malloc, failed, Heaps.set_self]
      have next : firstPassLoop size (current :: rest) heaps = firstPassLoop size rest heaps := by
        simp only [firstPassLoop, unchanged, ne_eq, not_true_eq_false, if_false]
      rw [next]
      rcases ih fun node member => pools node (List.mem_cons_of_mem _ member) with
        ⟨allFailed, none⟩ | ⟨node, member, served, result⟩
      · exact .inl ⟨allFailed, List.forall_mem_cons.mpr ⟨congrArg Prod.fst unchanged, none⟩⟩
      · exact .inr ⟨node, List.mem_cons_of_mem _ member, served, result⟩
    · refine .inr ⟨current, List.mem_cons_self, served, ?_⟩
      have stops : (heaps.malloc current.heap size).1 ≠ 0 := served
      simp only [firstPassLoop, if_pos stops]

/-- A pointer that is not null is the address of a free block. -/
theorem kzalloc_block {heaps : Heaps} (pooled : Pooled heaps) {size : Nat}
    (served : (kzalloc heaps size).1 ≠ 0) :
    ∃ name ∈ heaps.names, ∃ block < (heaps.heapAt name).table.total, ¬ UsedAt (heaps.heapAt name) block ∧
      (kzalloc heaps size).1 = blockAddress (heaps.heapAt name) block := by
  have pools := fun node (member : node ∈ heaps.multiheap.heaps) =>
    (pooled node.heap (List.mem_map_of_mem member)).2
  rw [kzalloc_eq] at served ⊢
  rcases firstPassLoop_cases size heaps _ pools with ⟨failed, -⟩ | ⟨node, member, notNull, result⟩
  · rw [failed] at served
    exact absurd rfl served
  · obtain ⟨range, saddrPos⟩ := pools node member
    rcases @heapMalloc_served _ size range saddrPos with failed | ⟨-, block, inTable, free, ptr⟩
    · exact absurd (congrArg Prod.fst failed) notNull
    · refine ⟨node.heap, List.mem_map_of_mem member, block, inTable, free, ?_⟩
      rw [result]
      exact ptr

/-- While a heap has a free block, `kzalloc` of one block takes one. -/
theorem kzalloc_takes {heaps : Heaps} (pooled : Pooled heaps)
    (some : ∃ name ∈ heaps.names, 0 < freeEntries (heaps.heapAt name)) :
    ∃ name ∈ heaps.names, ∃ block heap',
      (kzalloc heaps viosHeapBlockSize).1 = blockAddress (heaps.heapAt name) block ∧
      (kzalloc heaps viosHeapBlockSize).2 = heaps.set name heap' ∧
      TakesBlock (heaps.heapAt name) block heap' ∧
      freeEntries (heaps.heapAt name) = freeEntries heap' + 1 := by
  have pools := fun node (member : node ∈ heaps.multiheap.heaps) =>
    (pooled node.heap (List.mem_map_of_mem member)).2
  rw [kzalloc_eq]
  rcases firstPassLoop_cases viosHeapBlockSize heaps _ pools with ⟨-, allFailed⟩ |
    ⟨node, member, notNull, result⟩
  · obtain ⟨name, listed, hasFree⟩ := some
    obtain ⟨node, member, rfl⟩ := List.mem_map.mp listed
    obtain ⟨range, saddrPos⟩ := pools node member
    obtain ⟨-, -, served, -⟩ := heapMalloc_block range saddrPos hasFree
    exact absurd (allFailed node member) served
  · obtain ⟨range, saddrPos⟩ := pools node member
    have hasFree : 0 < freeEntries (heaps.heapAt node.heap) := by
      rcases @heapMalloc_served _ viosHeapBlockSize range saddrPos with
        failed | ⟨-, block, inTable, free, -⟩
      · exact absurd (congrArg Prod.fst failed) notNull
      · exact freeEntries_pos inTable free
    obtain ⟨block, ptr, -, takes, counts⟩ := heapMalloc_block range saddrPos hasFree
    refine ⟨node.heap, List.mem_map_of_mem member, block, _, ?_, ?_, takes, counts⟩
    · rw [result]
      exact ptr
    · rw [result]
      rfl

/-! ## All runs -/

theorem Pooled.later {heaps later : Heaps} (pooled : Pooled heaps) (same : SameHeaps heaps later) :
    Pooled later := by
  intro name listed
  rw [same.sameNames] at listed
  obtain ⟨made, range, saddrPos⟩ := pooled name listed
  have pool := same.pools name made
  refine ⟨made.trans_le same.created, range.of_same pool, ?_⟩
  rw [pool.saddr]
  exact saddrPos

/-- A block in use stays in use when another is allocated. -/
theorem usedAt_firstPassLoop {name block size : Nat} (nodes : List MultiheapSingleHeap) {heaps : Heaps}
    (used : UsedAt (heaps.heapAt name) block) :
    UsedAt ((firstPassLoop size nodes heaps).2.heapAt name) block := by
  induction nodes generalizing heaps with
  | nil => exact used
  | cons current rest ih =>
    have after : UsedAt ((heaps.malloc current.heap size).2.heapAt name) block := by
      by_cases this : name = current.heap
      · subst this
        simpa [Heaps.malloc, Heaps.set] using used.malloc size
      · simpa [Heaps.malloc, Heaps.set, this] using used
    simp only [firstPassLoop]
    split
    · exact after
    · exact ih after

/-- `kzalloc` is one of the uses of the heaps that release nothing. -/
theorem kzalloc_keepsHeld {boot heaps : Heaps} (size : Nat) (kept : KeepsHeld boot boot heaps) :
    KeepsHeld boot boot (kzalloc heaps size).2 where
  same := by
    rw [kzalloc_eq]
    exact kept.same.trans (Keeps.alloc heaps size).sameHeaps
  held := by
    intro name listed block used
    rw [kzalloc_eq]
    exact usedAt_firstPassLoop _ (kept.held name listed block used)

theorem keepsHeld_step {boot heaps next : Heaps} {op : AllocOp} (stepped : AllocStep boot heaps op next)
    (kept : KeepsHeld boot boot heaps) : KeepsHeld boot boot next := by
  cases op with
  | kzalloc size =>
    rw [AllocStep] at stepped
    rw [stepped]
    exact kzalloc_keepsHeld size kept
  | other => exact ⟨kept.same.trans stepped.same, stepped.held⟩

theorem keepsHeld_run {boot : Heaps} {run : List (AllocOp × Heaps)} (isRun : IsRun (AllocStep boot) boot run) :
    ∀ heaps ∈ runStates boot run, KeepsHeld boot boot heaps := by
  have start : KeepsHeld boot boot boot := ⟨.refl boot, fun _ _ _ used => used⟩
  have allowed : EveryStep (fun _ _ => True) boot run :=
    everyStep_of_inv (fun _ _ _ stepped kept => keepsHeld_step stepped kept) (fun _ _ _ _ _ => trivial) isRun start
  exact inv_of_everyStep (fun _ _ _ stepped _ kept => keepsHeld_step stepped kept) isRun allowed start

/-- Without null, `kzalloc` returns addresses of blocks that were free at the start. -/
theorem returned_free {boot : Heaps} (pooled : Pooled boot) {p : Ptr} (notNull : p ≠ 0)
    (returned : KzallocReturns boot p) :
    ∃ name ∈ boot.names, ∃ block < (boot.heapAt name).table.total, ¬ UsedAt (boot.heapAt name) block ∧
      p = blockAddress (boot.heapAt name) block := by
  obtain ⟨run, isRun, heaps, reached, size, rfl⟩ := returned
  have kept := keepsHeld_run isRun heaps reached
  obtain ⟨name, listed, block, inTable, free, ptr⟩ := kzalloc_block (pooled.later kept.same) notNull
  rw [kept.same.sameNames] at listed
  have pool := kept.same.pools name (pooled name listed).1
  refine ⟨name, listed, block, pool.total ▸ inTable, fun used => free (kept.held name listed block used), ?_⟩
  rw [ptr, blockAddress, blockAddress, pool.saddr]

/-- The free entries of the listed heaps. -/
def freeInHeaps (heaps : Heaps) : Nat := (heaps.names.map fun name => freeEntries (heaps.heapAt name)).sum

/-- A block taken from one heap. -/
theorem freeInHeaps_set {heaps : Heaps} {name : Nat} {heap : Heap} (listed : name ∈ heaps.names)
    (counts : freeEntries (heaps.heapAt name) = freeEntries heap + 1) :
    freeInHeaps (heaps.set name heap) < freeInHeaps heaps := by
  have names : (heaps.set name heap).names = heaps.names := rfl
  rw [freeInHeaps, freeInHeaps, names]
  apply List.sum_lt_sum
  · intro other _
    by_cases this : other = name
    · subst this
      simp [Heaps.set, counts]
    · simp [Heaps.set, this]
  · exact ⟨name, listed, by simp [Heaps.set, counts]⟩

/-- Blocks are taken one at a time until it is the turn of this one. -/
theorem run_takes {boot : Heaps} {name block : Nat} (bound : Nat) :
    ∀ {heaps : Heaps}, Pooled heaps → freeInHeaps heaps < bound → name ∈ heaps.names →
      block < (heaps.heapAt name).table.total → ¬ UsedAt (heaps.heapAt name) block →
      ∃ run : List (AllocOp × Heaps), IsRun (AllocStep boot) heaps run ∧
        ∃ later ∈ runStates heaps run,
          (kzalloc later viosHeapBlockSize).1 = blockAddress (heaps.heapAt name) block := by
  induction bound with
  | zero =>
    intro heaps _ below
    exact absurd below (Nat.not_lt_zero _)
  | succ bound ih =>
    intro heaps pooled below listed inTable isFree
    obtain ⟨served, servedListed, taken, heap', ptr, next, takes, counts⟩ :=
      kzalloc_takes pooled ⟨name, listed, freeEntries_pos inTable isFree⟩
    by_cases itsTurn : served = name ∧ taken = block
    · obtain ⟨rfl, rfl⟩ := itsTurn
      exact ⟨[], trivial, heaps, List.mem_cons_self, ptr⟩
    · have same : SameHeaps heaps (kzalloc heaps viosHeapBlockSize).2 := by
        rw [kzalloc_eq]
        exact (Keeps.alloc heaps viosHeapBlockSize).sameHeaps
      have pool := same.pools name (pooled name listed).1
      have fewer : freeInHeaps (kzalloc heaps viosHeapBlockSize).2 < freeInHeaps heaps := by
        rw [next]
        exact freeInHeaps_set servedListed counts
      -- the block that was taken is another one, so this one is still free
      have stillFree : ¬ UsedAt ((kzalloc heaps viosHeapBlockSize).2.heapAt name) block := by
        rw [next]
        by_cases this : name = served
        · subst this
          have different : block ≠ taken := fun same => itsTurn ⟨rfl, same.symm⟩
          simpa [Heaps.set] using takes.not_used isFree different
        · simpa [Heaps.set, this] using isFree
      obtain ⟨run, isRun, later, reached, result⟩ := ih (pooled.later same) (by omega)
        (same.sameNames.symm ▸ listed) (pool.total.symm ▸ inTable) stillFree
      refine ⟨(.kzalloc viosHeapBlockSize, (kzalloc heaps viosHeapBlockSize).2) :: run, ⟨rfl, isRun⟩,
        later, List.mem_cons_of_mem _ reached, ?_⟩
      rw [result, blockAddress, blockAddress, pool.saddr]

/-- Without null, `kzalloc` returns just the addresses of the blocks that were free at the start. -/
theorem kzallocReturns_iff {boot : Heaps} (pooled : Pooled boot) {p : Ptr} (notNull : p ≠ 0) :
    KzallocReturns boot p ↔ ∃ name ∈ boot.names, ∃ block < (boot.heapAt name).table.total,
      ¬ UsedAt (boot.heapAt name) block ∧ p = blockAddress (boot.heapAt name) block := by
  constructor
  · exact returned_free pooled notNull
  · rintro ⟨name, listed, block, inTable, free, rfl⟩
    obtain ⟨run, isRun, later, reached, result⟩ :=
      @run_takes boot name block _ boot pooled (Nat.lt_succ_self _) listed inTable free
    exact ⟨run, isRun, later, reached, viosHeapBlockSize, result⟩

/-! ## When it is unambiguous -/

theorem objects_iff {boot : Heaps} (pooled : Pooled boot) :
    (∀ p, KzallocReturns boot p → isErr p = false) ↔ FreeBlocksLow boot := by
  constructor
  · intro objects name listed block inTable free
    have saddrPos := (pooled name listed).2.2
    have notNull : blockAddress (boot.heapAt name) block ≠ 0 := by
      rw [blockAddress]
      omega
    rw [← isErr_eq_false_iff]
    exact objects _ ((kzallocReturns_iff pooled notNull).mpr ⟨name, listed, block, inTable, free, rfl⟩)
  · intro low p returned
    by_cases null : p = 0
    · rw [null]
      decide
    · obtain ⟨name, listed, block, inTable, free, rfl⟩ := (kzallocReturns_iff pooled null).mp returned
      rw [isErr_eq_false_iff]
      exact low name listed block inTable free

/-- For every list of heaps and every run of the kernel, no object is taken for an error and the
other way round just when bit 31 is clear in the addresses of the blocks that are free at the start. -/
theorem encodingUnambiguous_iff {boot : Heaps} (pooled : Pooled boot) :
    EncodingUnambiguous boot ↔ FreeBlocksLow boot := by
  rw [← objects_iff pooled]
  constructor
  · exact EncodingUnambiguous.objects
  · intro objects
    constructor
    case codes => exact statusCodes_carried
    case objects => exact objects
    case apart =>
      intro e member returned
      have isError := (statusCodes_carried e member).1
      rw [objects _ returned] at isError
      exact absurd isError (by decide)
    case opened =>
      intro φ env st memory filename modeStr drive parts mode p volumes i returned target opened room
      exact fopen_opened (objects p returned) target opened room

/-! ## After `kheap_init` -/

/-- What `kheap_init` sets up is such a list of heaps. -/
theorem kheapInit_pooled {tableBytes : Nat → UInt8} {map : List E820Entry} {boot : Heaps}
    (init : kheapInit tableBytes map = some boot) (inMemory : ∀ entry ∈ map, entry.endAddr ≤ 2 ^ 52) :
    Pooled boot := by
  obtain ⟨booted, index, entry, chosen, found, laidOut⟩ := kheapInit_spec init
  have small := inMemory entry (List.mem_of_getElem? found)
  have placed := kheapLayout_placed (chosen_long chosen found) (by unfold addressSpace; omega)
  intro name listed
  obtain ⟨node, member, rfl⟩ := List.mem_map.mp listed
  rw [booted.listed node member]
  refine ⟨laidOut.created, ⟨laidOut.aligned, laidOut.oneEach, ?_⟩, ?_⟩
  · rw [laidOut.eaddr, placed.heapEndAddress]
    unfold addressSpace
    omega
  · rw [laidOut.saddr, placed.heapAddress, placed.heapTableAddress]
    unfold viosMinimalHeapTableAddress
    omega

/-- A layout below 2 GiB has no address with bit 31. -/
theorem kheapInit_low {tableBytes : Nat → UInt8} {map : List E820Entry} {boot : Heaps}
    (init : kheapInit tableBytes map = some boot) (low : ∀ entry ∈ map, (kheapLayout entry).heapEndAddress ≤ 2 ^ 31) :
    FreeBlocksLow boot := by
  obtain ⟨booted, index, entry, -, found, laidOut⟩ := kheapInit_spec init
  have below := low entry (List.mem_of_getElem? found)
  intro name listed block inTable _
  obtain ⟨node, member, rfl⟩ := List.mem_map.mp listed
  rw [booted.listed node member] at inTable ⊢
  have inside := Nat.mul_lt_mul_of_pos_right inTable (show 0 < viosHeapBlockSize by decide)
  have region := laidOut.oneEach
  rw [← laidOut.eaddr] at below
  rw [blockAddress]
  omega

/-- The heap of this machine ends below 128 MiB. -/
theorem encodingUnambiguous_oneRegion :
    ∃ boot, kheapInit (fun _ => 0) oneRegion = some boot ∧ EncodingUnambiguous boot := by
  have boots : (kheapInit (fun _ => 0) oneRegion).isSome = true := by decide +kernel
  obtain ⟨boot, init⟩ := Option.isSome_iff_exists.mp boots
  have pooled : Pooled boot := kheapInit_pooled init (by decide)
  exact ⟨boot, init, (encodingUnambiguous_iff pooled).mpr (kheapInit_low init (by decide))⟩

/-- All the memory of this machine that is large enough for a heap lies above 2 GiB. -/
def highRegion : List E820Entry := [⟨0, 0x9FC00, 1⟩, ⟨0x80000000, 0x7EE0000, 1⟩]

/-- The first object after `kheap_init` is taken for an error. -/
theorem highRegion_mistaken :
    ∃ boot, kheapInit (fun _ => 0) highRegion = some boot ∧ (kzalloc boot 16).1 = 0x8000A000 ∧
      ¬ EncodingUnambiguous boot := by
  have first : (kheapInit (fun _ => 0) highRegion).map (fun boot => (kzalloc boot 16).1) =
      some 0x8000A000 := by decide +kernel
  obtain ⟨boot, init, ptr⟩ := Option.map_eq_some_iff.mp first
  refine ⟨boot, init, ptr, fun unambiguous => ?_⟩
  have returned : KzallocReturns boot 0x8000A000 := ⟨[], trivial, boot, List.mem_cons_self, 16, ptr⟩
  exact absurd (unambiguous.objects _ returned) (by decide)

end ViOS.Fs
