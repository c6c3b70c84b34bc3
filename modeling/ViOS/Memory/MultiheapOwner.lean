import ViOS.Memory.HeapRealloc
import ViOS.Memory.Multiheap
import Mathlib.Data.List.Forall2
import Mathlib.Data.Set.BooleanAlgebra
import Mathlib.Order.CompletePartialOrder
import Mathlib.Order.Interval.Set.Disjoint

/-! # Whose a pointer of the multiheap is

No pointer carries the heap it came from.  `multiheap_free` and `multiheap_realloc` look
for the first heap of the list whose range holds the pointer, and the range they test
includes its end address.  So a heap answers for the first block of a neighbour that
starts where it ends, when it comes first in the list.

* `Keeps` — what an operation may do to the heaps: none of them moves.
* `readyLoop_spec` — `multiheap_ready` gives each heap that allows it a shifted copy.
* `firstPassOwner` — the heap that served an allocation.
* `owner_iff_noneEndsAt` — the owner is found just when no heap listed before it ends at
  the pointer, and the same for the paging heaps.
-/

namespace ViOS.Memory

/-! ## No operation moves a heap -/

theorem samePool_heapMalloc (heap : Heap) (size : Nat) : SamePool heap (heapMalloc heap size).2 := by
  rcases heapMalloc_cases heap size with ⟨failed, -⟩ | ⟨_, entries, effects, -, -, -, -, -, taken⟩
  · rw [failed]
    exact .refl heap
  · rw [taken]
    exact ⟨rfl, rfl, rfl⟩

/-- Clearing the block does not touch the table. -/
theorem heapZalloc_table (heap : Heap) (size : Nat) :
    (heapZalloc heap size).2.table = (heapMalloc heap size).2.table := by
  simp only [heapZalloc]
  split <;> rfl

theorem samePool_heapZalloc (heap : Heap) (size : Nat) : SamePool heap (heapZalloc heap size).2 := by
  have malloc := samePool_heapMalloc heap size
  simp only [heapZalloc]
  split
  · exact malloc
  · exact malloc.trans ⟨rfl, rfl, rfl⟩

/-- Heaps may have been made, and those that were there are where they were. -/
structure Keeps (heaps later : Heaps) : Prop where
  multiheap : later.multiheap = heaps.multiheap
  created : heaps.created ≤ later.created
  pools : ∀ name < heaps.created, SamePool (heaps.heapAt name) (later.heapAt name)

namespace Keeps

variable {heaps middle later : Heaps}

theorem refl (heaps : Heaps) : Keeps heaps heaps := ⟨rfl, le_rfl, fun _ _ => .refl _⟩

theorem trans (first : Keeps heaps middle) (second : Keeps middle later) : Keeps heaps later where
  multiheap := second.multiheap.trans first.multiheap
  created := first.created.trans second.created
  pools := fun name made =>
    (first.pools name made).trans (second.pools name (made.trans_le first.created))

theorem set {name : Nat} {heap : Heap} (same : SamePool (heaps.heapAt name) heap) :
    Keeps heaps (heaps.set name heap) where
  multiheap := rfl
  created := le_rfl
  pools := by
    intro other _
    by_cases this : other = name
    · subst this
      simpa [Heaps.set] using same
    · simpa [Heaps.set, this] using SamePool.refl _

theorem malloc (heaps : Heaps) (name size : Nat) : Keeps heaps (heaps.malloc name size).2 :=
  set (samePool_heapMalloc _ _)

theorem zalloc (heaps : Heaps) (name size : Nat) : Keeps heaps (heaps.zalloc name size).2 :=
  set (samePool_heapZalloc _ _)

theorem new (heaps : Heaps) (heap : Heap) : Keeps heaps (heaps.new heap).2 where
  multiheap := rfl
  created := Nat.le_succ _
  pools := by
    intro name made
    have other : name ≠ heaps.created := made.ne
    simpa [Heaps.new, Heaps.set, other] using SamePool.refl _

theorem firstPassLoop (size : Nat) (nodes : List MultiheapSingleHeap) (heaps : Heaps) :
    Keeps heaps (firstPassLoop size nodes heaps).2 := by
  induction nodes generalizing heaps with
  | nil => exact refl heaps
  | cons current rest ih =>
    simp only [Memory.firstPassLoop]
    split
    · exact malloc heaps _ _
    · exact (malloc heaps _ _).trans (ih _)

theorem alloc (heaps : Heaps) (size : Nat) : Keeps heaps (multiheapAlloc heaps size).2 :=
  firstPassLoop size _ heaps

theorem mapTo {memory : KernelMemory} (desc : PagingDesc) (virt phys physEnd flags : Nat)
    (kept : Keeps heaps memory.alloc) :
    Keeps heaps (pagingMapTo multiheapAlloc desc virt phys physEnd flags memory).2.alloc :=
  pagingMapTo_alloc (fun later size kept => kept.trans (alloc later size)) desc virt phys physEnd flags
    kept

end Keeps

/-! ## `multiheap_ready` -/

/-- The heap's range as `heap_create` accepts it, below half of the address space. -/
structure PoolRange (heap : Heap) : Prop where
  aligned : heap.saddr % viosHeapBlockSize = 0
  eaddr_eq : heap.eaddr = heap.saddr + heap.table.total * viosHeapBlockSize
  low : 2 * heap.eaddr < addressSpace

theorem PoolRange.of_same {heap heap' : Heap} (range : PoolRange heap) (same : SamePool heap heap') :
    PoolRange heap' where
  aligned := by rw [same.saddr]; exact range.aligned
  eaddr_eq := by rw [same.eaddr, same.saddr, same.total]; exact range.eaddr_eq
  low := by rw [same.eaddr]; exact range.low

theorem PoolRange.end_aligned {heap : Heap} (range : PoolRange heap) :
    heap.eaddr % viosHeapBlockSize = 0 := by
  rw [range.eaddr_eq, Nat.add_mul_mod_self_right]
  exact range.aligned

/-- The paging heap of a heap: the same blocks, `maxEnd` further up. -/
structure Shifted (maxEnd : Nat) (heap paging : Heap) : Prop where
  saddr : paging.saddr = maxEnd + heap.saddr
  eaddr : paging.eaddr = maxEnd + heap.eaddr
  total : paging.table.total = heap.table.total

theorem Shifted.of_same {maxEnd : Nat} {heap paging heap' paging' : Heap}
    (shifted : Shifted maxEnd heap paging) (same : SamePool heap heap')
    (samePaging : SamePool paging paging') : Shifted maxEnd heap' paging' where
  saddr := by rw [samePaging.saddr, same.saddr, shifted.saddr]
  eaddr := by rw [samePaging.eaddr, same.eaddr, shifted.eaddr]
  total := by rw [samePaging.total, same.total, shifted.total]

/-- A heap that allows paging has its paging heap. -/
structure Readied (heaps : Heaps) (maxEnd : Nat) (old new : MultiheapSingleHeap) : Prop where
  heap : new.heap = old.heap
  flags : new.flags = old.flags
  paging : multiheapHeapAllowsPaging old = true → ∃ name, new.pagingHeap = some name ∧
    name < heaps.created ∧ Shifted maxEnd (heaps.heapAt old.heap) (heaps.heapAt name)

theorem Readied.keeps {heaps later : Heaps} {maxEnd : Nat} {old new : MultiheapSingleHeap}
    (readied : Readied heaps maxEnd old new) (kept : Keeps heaps later)
    (named : old.heap < heaps.created) : Readied later maxEnd old new where
  heap := readied.heap
  flags := readied.flags
  paging := by
    intro allows
    obtain ⟨name, paging, made, shifted⟩ := readied.paging allows
    exact ⟨name, paging, made.trans_le kept.created,
      shifted.of_same (kept.pools _ named) (kept.pools _ made)⟩

/-- `heap_create` of an aligned region sets the region, whatever it thinks of the table. -/
theorem heapCreate_range {before heap : Heap} {ptr endPtr : Nat} {table : HeapTable} {res : Int}
    (aligned : ptr % viosHeapBlockSize = 0) (endAligned : endPtr % viosHeapBlockSize = 0)
    (created : heapCreate before ptr endPtr table = some (res, heap)) :
    heap.saddr = ptr ∧ heap.eaddr = endPtr ∧ heap.table.total = table.total := by
  unfold heapCreate at created
  have accepted : ¬(!heapValidateAlignment ptr || !heapValidateAlignment endPtr) = true := by
    simp [heapValidateAlignment, aligned, endAligned]
  rw [if_neg accepted] at created
  split at created
  · exact absurd created (by simp)
  · dsimp only at created
    split_ifs at created <;>
    · obtain ⟨-, rfl⟩ := Prod.mk.inj (Option.some.inj created)
      exact ⟨rfl, rfl, rfl⟩

/-- A new heap whose pages are then mapped. -/
theorem newHeap_mapped (heaps : Heaps) (heap : Heap) {name : Nat} {desc : PagingDesc}
    {mem : Nat → Nat → PagingDescEntry} {virt phys physEnd flags : Nat} {later : KernelMemory}
    (nameEq : (heaps.new heap).1 = name)
    (laterEq : (pagingMapTo multiheapAlloc desc virt phys physEnd flags
      ⟨mem, (heaps.new heap).2⟩).2 = later) :
    Keeps heaps later.alloc ∧ name < later.alloc.created ∧ SamePool heap (later.alloc.heapAt name) := by
  have mapped : Keeps (heaps.new heap).2 later.alloc := by
    rw [← laterEq]
    exact Keeps.mapTo desc virt phys physEnd flags (Keeps.refl (heaps.new heap).2)
  have nameMade : name < (heaps.new heap).2.created := by
    rw [← nameEq]
    exact Nat.lt_succ_self heaps.created
  have stored : (heaps.new heap).2.heapAt name = heap := by
    rw [← nameEq]
    exact Function.update_self _ _ _
  refine ⟨(Keeps.new heaps heap).trans mapped, nameMade.trans_le mapped.created, ?_⟩
  have same := mapped.pools name nameMade
  rwa [stored] at same

theorem makePagingHeap_spec {desc : PagingDesc} {maxEnd heap name : Nat} {memory later : KernelMemory}
    (range : PoolRange (memory.alloc.heapAt heap)) (named : heap < memory.alloc.created)
    (maxAligned : maxEnd % viosHeapBlockSize = 0) (maxLow : 2 * maxEnd < addressSpace)
    (made : makePagingHeap desc maxEnd heap memory = some (name, later)) :
    Keeps memory.alloc later.alloc ∧ name < later.alloc.created ∧
      Shifted maxEnd (later.alloc.heapAt heap) (later.alloc.heapAt name) := by
  have ordered : (memory.alloc.heapAt heap).saddr ≤ (memory.alloc.heapAt heap).eaddr := by
    rw [range.eaddr_eq]
    exact Nat.le_add_right _ _
  have low := range.low
  have saddr : (maxEnd + (memory.alloc.heapAt heap).saddr) % addressSpace =
      maxEnd + (memory.alloc.heapAt heap).saddr := Nat.mod_eq_of_lt (by omega)
  have eaddr : (maxEnd + (memory.alloc.heapAt heap).eaddr) % addressSpace =
      maxEnd + (memory.alloc.heapAt heap).eaddr := Nat.mod_eq_of_lt (by omega)
  simp only [makePagingHeap, saddr, eaddr] at made
  split at made
  · exact absurd made (by simp)
  · split at made
    · exact absurd made (by simp)
    · simp only [Option.bind_eq_bind, Option.bind_eq_some_iff, Prod.exists] at made
      obtain ⟨res, created, createdEq, result⟩ := made
      obtain ⟨nameEq, laterEq⟩ := Prod.mk.inj (Option.some.inj result)
      have aligned : (maxEnd + (memory.alloc.heapAt heap).saddr) % viosHeapBlockSize = 0 := by
        rw [Nat.add_mod, maxAligned, range.aligned]
        rfl
      have endAligned : (maxEnd + (memory.alloc.heapAt heap).eaddr) % viosHeapBlockSize = 0 := by
        rw [Nat.add_mod, maxAligned, range.end_aligned]
        rfl
      obtain ⟨rangeStart, rangeEnd, total⟩ := heapCreate_range aligned endAligned createdEq
      have structures : Keeps memory.alloc _ :=
        ((Keeps.zalloc memory.alloc memory.alloc.multiheap.startingHeap sizeofHeapTable).trans
          (Keeps.zalloc _ memory.alloc.multiheap.startingHeap
            (memory.alloc.heapAt heap).table.total)).trans
          (Keeps.zalloc _ memory.alloc.multiheap.startingHeap sizeofHeap)
      obtain ⟨kept, nameMade, same⟩ := newHeap_mapped _ { created with blockFreeCallback := true }
        nameEq laterEq
      refine ⟨structures.trans kept, nameMade, ?_⟩
      have shifted : Shifted maxEnd (memory.alloc.heapAt heap)
          { created with blockFreeCallback := true } := ⟨rangeStart, rangeEnd, total⟩
      exact shifted.of_same ((structures.trans kept).pools _ named) same

/-- The loop keeps the heaps it has served, and serves the next one. -/
theorem readyLoop_spec {desc : PagingDesc} {maxEnd : Nat} (maxAligned : maxEnd % viosHeapBlockSize = 0)
    (maxLow : 2 * maxEnd < addressSpace) (nodes : List MultiheapSingleHeap) :
    ∀ {nodes' : List MultiheapSingleHeap} {memory later : KernelMemory},
      (∀ node ∈ nodes, node.heap < memory.alloc.created) →
      (∀ node ∈ nodes, PoolRange (memory.alloc.heapAt node.heap)) →
      readyLoop desc maxEnd nodes memory = some (nodes', later) →
      Keeps memory.alloc later.alloc ∧ List.Forall₂ (Readied later.alloc maxEnd) nodes nodes' := by
  induction nodes with
  | nil =>
    intro nodes' memory later _ _ looped
    obtain ⟨rfl, rfl⟩ := Prod.mk.inj (Option.some.inj looped)
    exact ⟨.refl _, .nil⟩
  | cons current rest ih =>
    intro nodes' memory later named ranges looped
    have currentNamed := named current List.mem_cons_self
    rw [readyLoop] at looped
    split at looped
    · rename_i refuses
      simp only [Option.bind_eq_bind, Option.bind_eq_some_iff, Prod.exists] at looped
      obtain ⟨rest', memory', restLooped, result⟩ := looped
      obtain ⟨rfl, rfl⟩ := Prod.mk.inj (Option.some.inj result)
      obtain ⟨kept, readied⟩ := ih (fun node member => named node (List.mem_cons_of_mem _ member))
        (fun node member => ranges node (List.mem_cons_of_mem _ member)) restLooped
      refine ⟨kept, .cons ⟨rfl, rfl, fun allows => ?_⟩ readied⟩
      rw [allows] at refuses
      exact absurd refuses (by decide)
    · simp only [Option.bind_eq_bind, Option.bind_eq_some_iff, Prod.exists] at looped
      obtain ⟨name, middle, made, rest', memory', restLooped, result⟩ := looped
      obtain ⟨rfl, rfl⟩ := Prod.mk.inj (Option.some.inj result)
      obtain ⟨keptFirst, nameMade, shifted⟩ := makePagingHeap_spec
        (ranges current List.mem_cons_self) currentNamed maxAligned maxLow made
      obtain ⟨keptRest, readied⟩ := ih
        (fun node member => (named node (List.mem_cons_of_mem _ member)).trans_le keptFirst.created)
        (fun node member => (ranges node (List.mem_cons_of_mem _ member)).of_same
          (keptFirst.pools _ (named node (List.mem_cons_of_mem _ member)))) restLooped
      have first : Readied middle.alloc maxEnd current { current with pagingHeap := some name } :=
        ⟨rfl, rfl, fun _ => ⟨name, rfl, nameMade, shifted⟩⟩
      exact ⟨keptFirst.trans keptRest,
        .cons (first.keeps keptRest (currentNamed.trans_le keptFirst.created)) readied⟩

/-! ## Before and after -/

/-- The addresses of a heap's blocks. -/
def Heap.range (heap : Heap) : Set Nat := Set.Ico heap.saddr heap.eaddr

theorem SamePool.range {heap heap' : Heap} (same : SamePool heap heap') : heap'.range = heap.range := by
  rw [Heap.range, Heap.range, same.saddr, same.eaddr]

/-- The heaps of the list have disjoint ranges. -/
structure MultiheapOk (heaps : Heaps) : Prop where
  ranges : ∀ node ∈ heaps.multiheap.heaps, PoolRange (heaps.heapAt node.heap)
  disjoint : heaps.multiheap.heaps.Pairwise fun first second =>
    Disjoint (heaps.heapAt first.heap).range (heaps.heapAt second.heap).range
  named : ∀ node ∈ heaps.multiheap.heaps, node.heap < heaps.created

/-- A heap of the list and whether it allows paging: what `multiheap_ready` leaves as it is. -/
def MultiheapSingleHeap.member (node : MultiheapSingleHeap) : Nat × Nat := (node.heap, node.flags)

/-- A later state with the same list of heaps. -/
structure SameHeaps (heaps later : Heaps) : Prop where
  members : later.multiheap.heaps.map (·.member) = heaps.multiheap.heaps.map (·.member)
  created : heaps.created ≤ later.created
  pools : ∀ name < heaps.created, SamePool (heaps.heapAt name) (later.heapAt name)

theorem SameHeaps.names {heaps later : Heaps} (same : SameHeaps heaps later) :
    later.multiheap.heaps.map (·.heap) = heaps.multiheap.heaps.map (·.heap) := by
  have first := congrArg (List.map Prod.fst) same.members
  rwa [List.map_map, List.map_map] at first

theorem Keeps.sameHeaps {heaps later : Heaps} (kept : Keeps heaps later) : SameHeaps heaps later :=
  ⟨by rw [kept.multiheap], kept.created, kept.pools⟩

theorem SameHeaps.refl (heaps : Heaps) : SameHeaps heaps heaps := (Keeps.refl heaps).sameHeaps

theorem SameHeaps.trans {heaps middle later : Heaps} (first : SameHeaps heaps middle)
    (second : SameHeaps middle later) : SameHeaps heaps later where
  members := second.members.trans first.members
  created := first.created.trans second.created
  pools := fun name made =>
    (first.pools name made).trans (second.pools name (made.trans_le first.created))

/-- Nothing has a paging heap, and every address counts as virtual. -/
structure Unready (heaps : Heaps) : Prop where
  maxEnd : heaps.multiheap.maxEndDataAddr = 0
  noPaging : ∀ node ∈ heaps.multiheap.heaps, node.pagingHeap = none

/-- The paging heaps lie above all heaps. -/
structure Ready (heaps : Heaps) : Prop where
  above : ∀ node ∈ heaps.multiheap.heaps,
    (heaps.heapAt node.heap).eaddr ≤ heaps.multiheap.maxEndDataAddr
  low : 2 * heaps.multiheap.maxEndDataAddr < addressSpace
  paging : ∀ node ∈ heaps.multiheap.heaps, multiheapHeapAllowsPaging node = true →
    ∃ name, node.pagingHeap = some name ∧ name < heaps.created ∧
      Shifted heaps.multiheap.maxEndDataAddr (heaps.heapAt node.heap) (heaps.heapAt name)

/-- No heap of the list allows paging. -/
def NoPaging (heaps : Heaps) : Prop :=
  ∀ node ∈ heaps.multiheap.heaps, multiheapHeapAllowsPaging node = false

theorem MultiheapOk.sameHeaps {heaps later : Heaps} (ok : MultiheapOk heaps)
    (same : SameHeaps heaps later) : MultiheapOk later := by
  have names := same.names
  have earlier : ∀ node ∈ later.multiheap.heaps, ∃ old ∈ heaps.multiheap.heaps, old.heap = node.heap := by
    intro node member
    have : node.heap ∈ heaps.multiheap.heaps.map (·.heap) := names ▸ List.mem_map_of_mem member
    exact List.mem_map.mp this
  constructor
  case ranges =>
    intro node member
    obtain ⟨old, oldMember, sameName⟩ := earlier node member
    rw [← sameName]
    exact (ok.ranges old oldMember).of_same (same.pools _ (ok.named old oldMember))
  case disjoint =>
    have old : (heaps.multiheap.heaps.map (·.heap)).Pairwise fun first second =>
        Disjoint (later.heapAt first).range (later.heapAt second).range := by
      refine List.pairwise_map.mpr (ok.disjoint.imp_of_mem fun {first second} inFirst inSecond apart => ?_)
      rw [(same.pools _ (ok.named first inFirst)).range, (same.pools _ (ok.named second inSecond)).range]
      exact apart
    rw [← names, List.pairwise_map] at old
    exact old
  case named =>
    intro node member
    obtain ⟨old, oldMember, sameName⟩ := earlier node member
    rw [← sameName]
    exact (ok.named old oldMember).trans_le same.created

theorem Ready.keeps {heaps later : Heaps} (ready : Ready heaps) (ok : MultiheapOk heaps)
    (kept : Keeps heaps later) : Ready later := by
  constructor
  case above =>
    intro node member
    rw [kept.multiheap] at member ⊢
    rw [(kept.pools _ (ok.named node member)).eaddr]
    exact ready.above node member
  case low =>
    rw [kept.multiheap]
    exact ready.low
  case paging =>
    intro node member allows
    rw [kept.multiheap] at member ⊢
    obtain ⟨name, paging, made, shifted⟩ := ready.paging node member allows
    exact ⟨name, paging, made.trans_le kept.created,
      shifted.of_same (kept.pools _ (ok.named node member)) (kept.pools _ made)⟩

/-! ## The highest end address -/

theorem le_maxEnd (eaddr : MultiheapSingleHeap → Nat) (nodes : List MultiheapSingleHeap) (start : Nat) :
    let maxAddr := nodes.foldl (fun maxAddr current =>
      if maxAddr ≤ eaddr current then eaddr current else maxAddr) start
    start ≤ maxAddr ∧ (∀ node ∈ nodes, eaddr node ≤ maxAddr) ∧
      (maxAddr = start ∨ ∃ node ∈ nodes, maxAddr = eaddr node) := by
  induction nodes generalizing start with
  | nil => simp
  | cons current rest ih =>
    simp only [List.foldl_cons]
    split
    · rename_i higher
      obtain ⟨above, all, attained⟩ := ih (eaddr current)
      refine ⟨higher.trans above, List.forall_mem_cons.mpr ⟨above, all⟩, .inr ?_⟩
      rcases attained with this | ⟨node, member, this⟩
      · exact ⟨current, List.mem_cons_self, this⟩
      · exact ⟨node, List.mem_cons_of_mem _ member, this⟩
    · rename_i lower
      obtain ⟨above, all, attained⟩ := ih start
      refine ⟨above, List.forall_mem_cons.mpr ⟨by omega, all⟩, ?_⟩
      rcases attained with this | ⟨node, member, this⟩
      · exact .inl this
      · exact .inr ⟨node, List.mem_cons_of_mem _ member, this⟩

/-- The highest end address is zero or the end of a heap. -/
theorem maxEnd_attained (heaps : Heaps) : multiheapGetMaxMemoryEndAddress heaps = 0 ∨
    ∃ node ∈ heaps.multiheap.heaps,
      multiheapGetMaxMemoryEndAddress heaps = (heaps.heapAt node.heap).eaddr :=
  (le_maxEnd (fun node => (heaps.heapAt node.heap).eaddr) heaps.multiheap.heaps 0).2.2

theorem maxEnd_aligned {heaps : Heaps} (ok : MultiheapOk heaps) :
    multiheapGetMaxMemoryEndAddress heaps % viosHeapBlockSize = 0 := by
  cases maxEnd_attained heaps with
  | inl zero =>
    rw [zero]
    rfl
  | inr found =>
    obtain ⟨node, member, same⟩ := found
    rw [same]
    exact (ok.ranges node member).end_aligned

theorem maxEnd_low {heaps : Heaps} (ok : MultiheapOk heaps) :
    2 * multiheapGetMaxMemoryEndAddress heaps < addressSpace := by
  cases maxEnd_attained heaps with
  | inl zero =>
    rw [zero]
    decide
  | inr found =>
    obtain ⟨node, member, same⟩ := found
    rw [same]
    exact (ok.ranges node member).low

theorem forall₂_source {α β : Type*} {R : α → β → Prop} {as : List α} {bs : List β}
    (pairs : List.Forall₂ R as bs) : ∀ b ∈ bs, ∃ a ∈ as, R a b := by
  induction pairs with
  | nil => simp
  | cons first _ ih =>
    refine List.forall_mem_cons.mpr ⟨⟨_, List.mem_cons_self, first⟩, fun b member => ?_⟩
    obtain ⟨a, inAs, related⟩ := ih b member
    exact ⟨a, List.mem_cons_of_mem _ inAs, related⟩

theorem members_of_readied {heaps : Heaps} {maxEnd : Nat} {olds news : List MultiheapSingleHeap}
    (pairs : List.Forall₂ (Readied heaps maxEnd) olds news) :
    news.map (·.member) = olds.map (·.member) := by
  induction pairs with
  | nil => rfl
  | cons first _ ih =>
    rw [List.map_cons, List.map_cons, ih, MultiheapSingleHeap.member, first.heap, first.flags]
    rfl

theorem multiheapReady_spec {current : Option PagingDesc} {mem : Nat → Nat → PagingDescEntry}
    {heaps : Heaps} {memory : KernelMemory} (ok : MultiheapOk heaps)
    (readied : multiheapReady current ⟨mem, heaps⟩ = some memory) :
    SameHeaps heaps memory.alloc ∧ Ready memory.alloc := by
  obtain ⟨-, above, -⟩ := le_maxEnd (fun node => (heaps.heapAt node.heap).eaddr) heaps.multiheap.heaps 0
  have maxLow := maxEnd_low ok
  simp only [multiheapReady, Option.bind_eq_bind, Option.bind_eq_some_iff, Prod.exists] at readied
  obtain ⟨desc, -, nodes, later, looped, result⟩ := readied
  obtain rfl := Option.some.inj result
  obtain ⟨kept, pairs⟩ := readyLoop_spec (maxEnd_aligned ok) maxLow _ ok.named ok.ranges looped
  refine ⟨⟨members_of_readied pairs, kept.created, kept.pools⟩, ?_, maxLow, ?_⟩
  · intro node member
    obtain ⟨old, oldMember, pair⟩ := forall₂_source pairs node member
    have eaddr := (kept.pools _ (ok.named old oldMember)).eaddr
    simp only [pair.heap, eaddr]
    exact above old oldMember
  · intro node member allows
    obtain ⟨old, oldMember, pair⟩ := forall₂_source pairs node member
    have oldAllows : multiheapHeapAllowsPaging old = true := by
      rw [multiheapHeapAllowsPaging, ← pair.flags]
      exact allows
    obtain ⟨name, paging, made, shifted⟩ := pair.paging oldAllows
    refine ⟨name, paging, made, ?_⟩
    rw [pair.heap]
    exact shifted

/-! ## Who allocated -/

/-- The heap that ends the first pass, with the heaps that were tried before it. -/
def firstPassOwner (size : Nat) :
    List MultiheapSingleHeap → Heaps → Option (List MultiheapSingleHeap × MultiheapSingleHeap)
  | [], _ => none
  | current :: rest, heaps =>
    let (allocationPtr, heaps) := heaps.malloc current.heap size
    if allocationPtr ≠ 0 then some ([], current)
    else (firstPassOwner size rest heaps).map fun found => (current :: found.1, found.2)

/-- There is an owner just when the allocation succeeds. -/
theorem firstPassOwner_isSome (size : Nat) (nodes : List MultiheapSingleHeap) (heaps : Heaps) :
    (firstPassOwner size nodes heaps).isSome = true ↔ (firstPassLoop size nodes heaps).1 ≠ 0 := by
  induction nodes generalizing heaps with
  | nil => simp [firstPassOwner, firstPassLoop]
  | cons current rest ih =>
    simp only [firstPassOwner, firstPassLoop]
    split
    · rename_i served
      simp [served]
    · rw [Option.isSome_map]
      exact ih _

/-- The address of a block lies in the heap. -/
theorem blockToAddress_mem {heap : Heap} (eaddr : heap.eaddr = heap.saddr + heap.table.total * viosHeapBlockSize)
    (low : heap.eaddr < addressSpace) {block : Nat} (inTable : block < heap.table.total) :
    heapBlockToAddress heap block ∈ heap.range := by
  have before : block * viosHeapBlockSize < heap.table.total * viosHeapBlockSize :=
    Nat.mul_lt_mul_of_pos_right inTable (by decide)
  rw [heapBlockToAddress, Nat.mod_eq_of_lt (by omega)]
  exact ⟨Nat.le_add_right _ _, by omega⟩

theorem heapMalloc_mem {heap : Heap} (eaddr : heap.eaddr = heap.saddr + heap.table.total * viosHeapBlockSize)
    (low : heap.eaddr < addressSpace) {size : Nat} (served : (heapMalloc heap size).1 ≠ 0) :
    (heapMalloc heap size).1 ∈ heap.range := by
  rcases heapMalloc_cases heap size with ⟨failed, -⟩ | ⟨start, _, _, -, positive, -, inside, -, taken⟩
  · rw [failed] at served
    exact absurd rfl served
  · rw [taken]
    exact blockToAddress_mem eaddr low (by omega)

/-- The owner is in the list behind the heaps tried before it, and the pointer in its range. -/
theorem firstPassOwner_spec {size : Nat} (nodes : List MultiheapSingleHeap) :
    ∀ {heaps : Heaps} {before : List MultiheapSingleHeap} {owner : MultiheapSingleHeap},
      (∀ node ∈ nodes, node.heap < heaps.created ∧ PoolRange (heaps.heapAt node.heap)) →
      firstPassOwner size nodes heaps = some (before, owner) →
      (∃ after, nodes = before ++ owner :: after) ∧
        (firstPassLoop size nodes heaps).1 ∈ (heaps.heapAt owner.heap).range := by
  induction nodes with
  | nil =>
    intro heaps before owner _ found
    exact absurd found (by simp [firstPassOwner])
  | cons current rest ih =>
    intro heaps before owner placed found
    simp only [firstPassOwner, firstPassLoop] at found ⊢
    split at found
    · rename_i served
      obtain ⟨rfl, rfl⟩ := Prod.mk.inj (Option.some.inj found)
      rw [if_pos served]
      have range := (placed current List.mem_cons_self).2
      have low := range.low
      exact ⟨⟨rest, rfl⟩, heapMalloc_mem range.eaddr_eq (by omega) served⟩
    · rename_i failed
      rw [if_neg failed]
      obtain ⟨⟨tried, served⟩, restFound, same⟩ := Option.map_eq_some_iff.mp found
      obtain ⟨rfl, rfl⟩ := Prod.mk.inj same
      have kept := Keeps.malloc heaps current.heap size
      obtain ⟨⟨after, rfl⟩, inRange⟩ := ih (fun node member => by
        obtain ⟨named, range⟩ := placed node (List.mem_cons_of_mem _ member)
        exact ⟨named.trans_le kept.created, range.of_same (kept.pools _ named)⟩) restFound
      refine ⟨⟨after, rfl⟩, ?_⟩
      have named := (placed served (List.mem_cons_of_mem _
        (List.mem_append_right _ List.mem_cons_self))).1
      rw [← (kept.pools _ named).range]
      exact inRange

/-! ## Who is found -/

/-- No heap of the list ends at the pointer. -/
def NoneEndsAt (heaps : Heaps) (nodes : List MultiheapSingleHeap) (ptr : Nat) : Prop :=
  ∀ node ∈ nodes, (heaps.heapAt node.heap).eaddr ≠ ptr

/-- The first match is `owner` just when none comes before it, unless `owner` itself does. -/
theorem find?_append_owner {α : Type*} {p : α → Bool} {before after : List α} {owner : α}
    (matches_ : p owner = true) (other : ∀ a ∈ before, p a = true → a ≠ owner) :
    (before ++ owner :: after).find? p = some owner ↔ ∀ a ∈ before, p a = false := by
  rw [List.find?_append]
  constructor
  · intro found a member
    by_contra holds
    have some : (before.find? p).isSome = true := List.find?_isSome.mpr ⟨a, member, by simpa using holds⟩
    obtain ⟨first, firstEq⟩ := Option.isSome_iff_exists.mp some
    rw [firstEq, Option.some_or] at found
    obtain rfl := Option.some.inj found
    exact other first (List.mem_of_find?_eq_some firstEq) (List.find?_some firstEq) rfl
  · intro none
    rw [List.find?_eq_none.mpr (by simpa using none), Option.none_or, List.find?_cons_of_pos matches_]

theorem withinHeap_iff_of_disjoint {heap owner : Heap} {ptr : Nat} (owned : ptr ∈ owner.range)
    (disjoint : Disjoint heap.range owner.range) (ordered : heap.saddr ≤ heap.eaddr) :
    heapIsAddressWithinHeap heap ptr = true ↔ heap.eaddr = ptr := by
  have outside : ptr ∉ heap.range := fun inHeap => Set.disjoint_left.mp disjoint inHeap owned
  simp only [heapIsAddressWithinHeap, decide_eq_true_eq]
  constructor
  · rintro ⟨lower, upper⟩
    by_contra notEnd
    exact outside ⟨lower, by omega⟩
  · rintro rfl
    exact ⟨ordered, le_rfl⟩

theorem PoolRange.ordered {heap : Heap} (range : PoolRange heap) : heap.saddr ≤ heap.eaddr := by
  rw [range.eaddr_eq]
  exact Nat.le_add_right _ _

theorem within_of_mem {heap : Heap} {ptr : Nat} (inside : ptr ∈ heap.range) :
    heapIsAddressWithinHeap heap ptr = true := by
  simp only [heapIsAddressWithinHeap, decide_eq_true_eq]
  exact ⟨inside.1, inside.2.le⟩

/-- Of disjoint heaps, the search by address finds the owner unless an earlier heap ends there. -/
theorem findName_iff {heapAt : Nat → Heap} {before after : List Nat} {owner ptr : Nat}
    (owned : ptr ∈ (heapAt owner).range)
    (disjoint : ∀ name ∈ before, Disjoint (heapAt name).range (heapAt owner).range)
    (ordered : ∀ name ∈ before, (heapAt name).saddr ≤ (heapAt name).eaddr) :
    (before ++ owner :: after).find? (fun name => heapIsAddressWithinHeap (heapAt name) ptr) =
      some owner ↔ ∀ name ∈ before, (heapAt name).eaddr ≠ ptr := by
  have within := fun name member =>
    withinHeap_iff_of_disjoint owned (disjoint name member) (ordered name member)
  have other : ∀ name ∈ before, heapIsAddressWithinHeap (heapAt name) ptr = true → name ≠ owner := by
    rintro name member found rfl
    exact owned.2.ne' ((within name member).mp found)
  refine (find?_append_owner (p := fun name => heapIsAddressWithinHeap (heapAt name) ptr)
    (within_of_mem owned) other).trans (forall₂_congr fun name member => ?_)
  rw [ne_eq, ← within name member, Bool.not_eq_true]

/-- `multiheap_get_heap_for_address`, at any time after the allocation. -/
theorem found_iff {heaps later : Heaps} (ok : MultiheapOk heaps) (same : SameHeaps heaps later)
    {before after : List MultiheapSingleHeap} {owner : MultiheapSingleHeap} {ptr : Nat}
    (listed : heaps.multiheap.heaps = before ++ owner :: after)
    (owned : ptr ∈ (heaps.heapAt owner.heap).range) :
    (multiheapGetHeapForAddress later ptr).map (·.heap) = some owner.heap ↔
      NoneEndsAt heaps before ptr := by
  have inList : ∀ node ∈ before, node ∈ heaps.multiheap.heaps := by
    intro node member
    rw [listed]
    exact List.mem_append_left _ member
  have ownerInList : owner ∈ heaps.multiheap.heaps := by
    rw [listed]
    exact List.mem_append_right _ List.mem_cons_self
  have sameOwner := same.pools _ (ok.named owner ownerInList)
  have samePool := fun node member => same.pools _ (ok.named node (inList node member))
  have apart : ∀ node ∈ before, Disjoint (heaps.heapAt node.heap).range (heaps.heapAt owner.heap).range := by
    have pairwise := ok.disjoint
    rw [listed] at pairwise
    exact fun node member => (List.pairwise_append.mp pairwise).2.2 node member owner List.mem_cons_self
  have byName : (multiheapGetHeapForAddress later ptr).map (·.heap) =
      (later.multiheap.heaps.map (·.heap)).find?
        fun name => heapIsAddressWithinHeap (later.heapAt name) ptr := by
    rw [List.find?_map]
    rfl
  rw [byName, same.names, listed, List.map_append, List.map_cons,
    findName_iff (by rw [sameOwner.range]; exact owned)]
  · rw [NoneEndsAt, List.forall_mem_map]
    exact forall₂_congr fun node member => by rw [(samePool node member).eaddr]
  · rw [List.forall_mem_map]
    intro node member
    rw [(samePool node member).range, sameOwner.range]
    exact apart node member
  · rw [List.forall_mem_map]
    intro node member
    exact ((ok.ranges node (inList node member)).of_same (samePool node member)).ordered

/-! ## What is done with a pointer of a heap -/

/-- `multiheap_free` and `multiheap_realloc` work on the heap with this name. -/
structure ActsOn (heaps : Heaps) (name ptr : Nat) : Prop where
  resolved : (multiheapGetHeapForAddress heaps ptr).map (·.heap) = some name
  free : ∀ current fuel mem,
    multiheapFree current (fuel + 1) ptr ⟨mem, heaps⟩ = freeIn current name ptr ⟨mem, heaps⟩
  realloc : ∀ newSize, multiheapRealloc heaps ptr newSize = reallocIn name ptr newSize heaps

theorem actsOn_of_found {heaps : Heaps} {name ptr : Nat}
    (resolved : (multiheapGetHeapForAddress heaps ptr).map (·.heap) = some name)
    (found : multiheapGetHeapAndPagingHeapForAddress heaps ptr =
      some ⟨multiheapGetHeapForAddress heaps ptr, none, ptr⟩) : ActsOn heaps name ptr := by
  obtain ⟨node, nodeFound, rfl⟩ := Option.map_eq_some_iff.mp resolved
  refine ⟨resolved, fun current fuel mem => ?_, fun newSize => ?_⟩
  · simp [multiheapFree, found, nodeFound]
  · simp [multiheapRealloc, found, nodeFound]

theorem foundForAddress_ready {heaps : Heaps} (ready : Ready heaps) {node : MultiheapSingleHeap}
    {ptr : Nat} (listed : node ∈ heaps.multiheap.heaps)
    (owned : ptr ∈ (heaps.heapAt node.heap).range) :
    multiheapGetHeapAndPagingHeapForAddress heaps ptr =
      some ⟨multiheapGetHeapForAddress heaps ptr, none, ptr⟩ := by
  have physical : ¬ multiheapIsAddressVirtual heaps ptr = true := by
    have := owned.2
    have := ready.above node listed
    simp only [multiheapIsAddressVirtual, decide_eq_true_eq]
    omega
  rw [multiheapGetHeapAndPagingHeapForAddress, if_neg physical]

theorem pagingHeapLoop_noPaging {heapAt : Nat → Heap} {address : Nat} {nodes : List MultiheapSingleHeap}
    (noPaging : ∀ node ∈ nodes, multiheapHeapAllowsPaging node = false) :
    pagingHeapLoop heapAt address nodes = some none := by
  induction nodes with
  | nil => rfl
  | cons current rest ih =>
    rw [pagingHeapLoop, noPaging current List.mem_cons_self, Bool.not_false, if_pos rfl]
    exact ih fun node member => noPaging node (List.mem_cons_of_mem _ member)

theorem pagingHeapLoop_unready {heapAt : Nat → Heap} {address : Nat} {nodes : List MultiheapSingleHeap}
    (noHeap : ∀ node ∈ nodes, node.pagingHeap = none)
    (allows : ∃ node ∈ nodes, multiheapHeapAllowsPaging node = true) :
    pagingHeapLoop heapAt address nodes = none := by
  induction nodes with
  | nil => simp at allows
  | cons current rest ih =>
    rw [pagingHeapLoop]
    split
    · rename_i refuses
      refine ih (fun node member => noHeap node (List.mem_cons_of_mem _ member)) ?_
      obtain ⟨node, member, nodeAllows⟩ := allows
      rcases List.mem_cons.mp member with rfl | later
      · rw [nodeAllows] at refuses
        exact absurd refuses (by decide)
      · exact ⟨node, later, nodeAllows⟩
    · rw [noHeap current List.mem_cons_self]

theorem foundForAddress_unready {heaps : Heaps} (unready : Unready heaps) (noPaging : NoPaging heaps)
    {ptr : Nat} (inSpace : ptr < addressSpace) :
    multiheapGetHeapAndPagingHeapForAddress heaps ptr =
      some ⟨multiheapGetHeapForAddress heaps ptr, none, ptr⟩ := by
  have isVirtual : multiheapIsAddressVirtual heaps ptr = true := by
    simp [multiheapIsAddressVirtual, unready.maxEnd]
  have physical : multiheapVirtualAddressToPhysical heaps ptr = ptr := by
    rw [multiheapVirtualAddressToPhysical, unready.maxEnd, Nat.sub_zero, Nat.add_mod_right,
      Nat.mod_eq_of_lt inSpace]
  rw [multiheapGetHeapAndPagingHeapForAddress, if_pos isVirtual, multiheapGetPagingHeapForAddress,
    pagingHeapLoop_noPaging noPaging, physical]
  rfl

/-- `heap_realloc` to no bytes gives a pointer of the heap back. -/
theorem reallocIn_zero {heaps : Heaps} {name ptr : Nat} (range : PoolRange (heaps.heapAt name))
    (owned : ptr ∈ (heaps.heapAt name).range) (notNull : ptr ≠ 0) :
    reallocIn name ptr 0 heaps ≠ none := by
  have inHeap := owned.2
  have fromStart := owned.1
  have low := range.low
  have block : 0 ≤ heapAddressToBlock (heaps.heapAt name) ptr := by
    have offset : ptr + (addressSpace - (heaps.heapAt name).saddr) =
        (ptr - (heaps.heapAt name).saddr) + addressSpace := by omega
    have small : (ptr - (heaps.heapAt name).saddr) % addressSpace < 2 ^ 63 := by
      rw [Nat.mod_eq_of_lt (by omega)]
      unfold addressSpace at low
      omega
    rw [heapAddressToBlock, offset, toInt64, Nat.add_mod_right, if_pos small]
    exact Int.tdiv_nonneg (Int.natCast_nonneg _) (Int.natCast_nonneg _)
  simp [reallocIn, heapRealloc, notNull, heapFree, heapMarkBlocksFree, not_lt.mpr block]

/-- Before `multiheap_ready` a heap that allows paging has a null pointer for its paging heap, and
the search for a virtual address follows it. -/
theorem not_actsOn_unready {heaps : Heaps} (unready : Unready heaps) (paging : ¬ NoPaging heaps)
    {name ptr : Nat} (range : PoolRange (heaps.heapAt name))
    (owned : ptr ∈ (heaps.heapAt name).range) (notNull : ptr ≠ 0) : ¬ ActsOn heaps name ptr := by
  intro acts
  have allows : ∃ node ∈ heaps.multiheap.heaps, multiheapHeapAllowsPaging node = true := by
    simpa [NoPaging] using paging
  have isVirtual : multiheapIsAddressVirtual heaps ptr = true := by
    simp [multiheapIsAddressVirtual, unready.maxEnd]
  have undefined : multiheapGetHeapAndPagingHeapForAddress heaps ptr = none := by
    rw [multiheapGetHeapAndPagingHeapForAddress, if_pos isVirtual, multiheapGetPagingHeapForAddress,
      pagingHeapLoop_unready unready.noPaging allows]
    rfl
  refine reallocIn_zero range owned notNull ?_
  rw [← acts.realloc 0, multiheapRealloc, undefined]
  rfl

theorem SameHeaps.listed {heaps later : Heaps} (same : SameHeaps heaps later)
    {node : MultiheapSingleHeap} (member : node ∈ heaps.multiheap.heaps) :
    ∃ new ∈ later.multiheap.heaps, new.heap = node.heap := by
  have : node.heap ∈ later.multiheap.heaps.map (·.heap) := same.names ▸ List.mem_map_of_mem member
  exact List.mem_map.mp this

/-- The owner is worked on when it is found and the paging heaps can be told. -/
theorem actsOn_iff {heaps later : Heaps} (ok : MultiheapOk heaps) (same : SameHeaps heaps later)
    (phase : Unready later ∨ Ready later) {before after : List MultiheapSingleHeap}
    {owner : MultiheapSingleHeap} {ptr : Nat} (listed : heaps.multiheap.heaps = before ++ owner :: after)
    (owned : ptr ∈ (heaps.heapAt owner.heap).range) (notNull : ptr ≠ 0) :
    ActsOn later owner.heap ptr ↔ NoneEndsAt heaps before ptr ∧ (Ready later ∨ NoPaging later) := by
  have ownerInList : owner ∈ heaps.multiheap.heaps := by
    rw [listed]
    exact List.mem_append_right _ List.mem_cons_self
  have sameOwner := same.pools _ (ok.named owner ownerInList)
  have ownedLater : ptr ∈ (later.heapAt owner.heap).range := by
    rw [sameOwner.range]
    exact owned
  have range := (ok.ranges owner ownerInList).of_same sameOwner
  constructor
  · intro acts
    refine ⟨(found_iff ok same listed owned).mp acts.resolved, ?_⟩
    rcases phase with unready | ready
    · by_contra neither
      exact not_actsOn_unready unready (fun noPaging => neither (.inr noPaging)) range ownedLater notNull acts
    · exact .inl ready
  · rintro ⟨noneEnds, told⟩
    have resolved := (found_iff ok same listed owned).mpr noneEnds
    refine actsOn_of_found resolved ?_
    have inReady : Ready later → multiheapGetHeapAndPagingHeapForAddress later ptr =
        some ⟨multiheapGetHeapForAddress later ptr, none, ptr⟩ := by
      intro ready
      obtain ⟨node, member, sameName⟩ := same.listed ownerInList
      exact foundForAddress_ready ready member (sameName ▸ ownedLater)
    rcases told with ready | noPaging
    · exact inReady ready
    · rcases phase with unready | ready
      · have low := range.low
        have := ownedLater.2
        exact foundForAddress_unready unready noPaging (by omega)
      · exact inReady ready

/-! ## The pointers of the paging heaps -/

/-- The heap's paging heap answers for the address. -/
def answersVirtual (heapAt : Nat → Heap) (address : Nat) (node : MultiheapSingleHeap) : Bool :=
  multiheapHeapAllowsPaging node &&
    node.pagingHeap.any fun name => heapIsAddressWithinHeap (heapAt name) address

theorem pagingHeapLoop_eq_find {heapAt : Nat → Heap} {address : Nat} {nodes : List MultiheapSingleHeap}
    (paging : ∀ node ∈ nodes, multiheapHeapAllowsPaging node = true → node.pagingHeap ≠ none) :
    pagingHeapLoop heapAt address nodes = some (nodes.find? (answersVirtual heapAt address)) := by
  induction nodes with
  | nil => rfl
  | cons current rest ih =>
    have restFound := ih fun node member => paging node (List.mem_cons_of_mem _ member)
    rw [pagingHeapLoop, List.find?_cons, answersVirtual]
    cases allows : multiheapHeapAllowsPaging current with
    | false => simpa using restFound
    | true =>
      obtain ⟨name, nameEq⟩ := Option.ne_none_iff_exists'.mp (paging current List.mem_cons_self allows)
      simp only [nameEq, Bool.not_true, Bool.false_eq_true, if_false, Bool.true_and, Option.any_some]
      cases heapIsAddressWithinHeap (heapAt name) address with
      | false => simpa using restFound
      | true => rfl

/-- The heap's paging heap, if it needs one, is a region of the address space. -/
def PagingPlaced (heaps : Heaps) (node : MultiheapSingleHeap) : Prop :=
  multiheapHeapAllowsPaging node = true → ∃ name, node.pagingHeap = some name ∧ name < heaps.created ∧
    (heaps.heapAt name).eaddr =
      (heaps.heapAt name).saddr + (heaps.heapAt name).table.total * viosHeapBlockSize ∧
    (heaps.heapAt name).eaddr < addressSpace

theorem PagingPlaced.keeps {heaps later : Heaps} {node : MultiheapSingleHeap}
    (placed : PagingPlaced heaps node) (kept : Keeps heaps later) : PagingPlaced later node := by
  intro allows
  obtain ⟨name, nameEq, made, eaddr, low⟩ := placed allows
  have same := kept.pools name made
  refine ⟨name, nameEq, made.trans_le kept.created, ?_, ?_⟩
  · rw [same.eaddr, same.saddr, same.total, eaddr]
  · rw [same.eaddr]
    exact low

theorem Ready.pagingPlaced {heaps : Heaps} (ready : Ready heaps) (ok : MultiheapOk heaps)
    {node : MultiheapSingleHeap} (member : node ∈ heaps.multiheap.heaps) : PagingPlaced heaps node := by
  intro allows
  obtain ⟨name, nameEq, made, shifted⟩ := ready.paging node member allows
  have above := ready.above node member
  have low := ready.low
  have range := (ok.ranges node member).eaddr_eq
  refine ⟨name, nameEq, made, ?_, ?_⟩
  · rw [shifted.eaddr, shifted.saddr, shifted.total, range, Nat.add_assoc]
  · rw [shifted.eaddr]
    omega

theorem allocPagingLoop_spec {size required : Nat} (nodes : List MultiheapSingleHeap) :
    ∀ {heaps later : Heaps} {ptr : Nat} {owner : MultiheapSingleHeap},
      (∀ node ∈ nodes, PagingPlaced heaps node) →
      allocPagingLoop size required nodes heaps = some (ptr, some owner, later) →
      Keeps heaps later ∧ owner ∈ nodes ∧ multiheapHeapAllowsPaging owner = true ∧
        ∀ name, owner.pagingHeap = some name → ptr ∈ (heaps.heapAt name).range := by
  induction nodes with
  | nil =>
    intro heaps later ptr owner _ looped
    exact absurd looped (by simp [allocPagingLoop])
  | cons current rest ih =>
    intro heaps later ptr owner placed looped
    have restPlaced := fun node member => placed node (List.mem_cons_of_mem current member)
    -- a node that is passed over leaves the answer to the rest of the list
    have inRest : allocPagingLoop size required rest heaps = some (ptr, some owner, later) →
        Keeps heaps later ∧ owner ∈ current :: rest ∧ multiheapHeapAllowsPaging owner = true ∧
          ∀ name, owner.pagingHeap = some name → ptr ∈ (heaps.heapAt name).range := by
      intro restLooped
      obtain ⟨kept, member, found⟩ := ih restPlaced restLooped
      exact ⟨kept, List.mem_cons_of_mem _ member, found⟩
    rw [allocPagingLoop] at looped
    split at looped
    · exact inRest looped
    · rename_i allows
      rw [Bool.not_eq_true, Bool.not_eq_false'] at allows
      split at looped
      · exact inRest looped
      · obtain ⟨name, nameEq, made, eaddr, low⟩ := placed current List.mem_cons_self allows
        rw [nameEq] at looped
        dsimp only at looped
        have kept := Keeps.malloc heaps name size
        split at looped
        · rename_i served
          simp only [Option.some.injEq, Prod.mk.injEq] at looped
          obtain ⟨rfl, rfl, rfl⟩ := looped
          refine ⟨kept, List.mem_cons_self, allows, fun name' same => ?_⟩
          rw [nameEq, Option.some.injEq] at same
          subst same
          exact heapMalloc_mem eaddr low served
        · -- the paging heap of this node has no room, and the search goes on
          obtain ⟨keptRest, member, ownerAllows, found⟩ := ih
            (fun node member => (restPlaced node member).keeps kept) looped
          refine ⟨kept.trans keptRest, List.mem_cons_of_mem _ member, ownerAllows, ?_⟩
          intro ownerName ownerEq
          obtain ⟨_, sameName, ownerMade, -⟩ := restPlaced owner member ownerAllows
          rw [ownerEq, Option.some.injEq] at sameName
          rw [← (kept.pools ownerName (sameName ▸ ownerMade)).range]
          exact found ownerName ownerEq

/-- `multiheap_get_paging_heap_for_address` finds the entry, and `multiheap_free` works on its
paging heap. -/
structure PagingActsOn (heaps : Heaps) (owner : MultiheapSingleHeap) (ptr : Nat) : Prop where
  resolved : multiheapGetPagingHeapForAddress heaps ptr = some (some owner)
  free : ∀ name, owner.pagingHeap = some name → ∀ current fuel mem,
    multiheapFree current (fuel + 1) ptr ⟨mem, heaps⟩ =
      freePaging (multiheapFree current fuel) current name ptr ⟨mem, heaps⟩

/-- No paging heap of the list ends at the pointer. -/
def NonePagingEndsAt (heaps : Heaps) (nodes : List MultiheapSingleHeap) (ptr : Nat) : Prop :=
  ∀ node ∈ nodes, multiheapHeapAllowsPaging node = true → ∀ name, node.pagingHeap = some name →
    (heaps.heapAt name).eaddr ≠ ptr

section PagingPointers

variable {heaps : Heaps} {before after : List MultiheapSingleHeap} {owner : MultiheapSingleHeap}
  {ptr name : Nat} (ok : MultiheapOk heaps) (ready : Ready heaps)
  (listed : heaps.multiheap.heaps = before ++ owner :: after)
  (allows : multiheapHeapAllowsPaging owner = true) (ownerName : owner.pagingHeap = some name)
  (owned : ptr ∈ (heaps.heapAt name).range)

include ok ready listed allows ownerName owned

/-- Disjoint heaps have disjoint paging heaps, so that an earlier one answers only at its end. -/
theorem answersVirtual_iff {node : MultiheapSingleHeap} (member : node ∈ before)
    (nodeAllows : multiheapHeapAllowsPaging node = true) {nodeName : Nat}
    (nodeEq : node.pagingHeap = some nodeName) :
    answersVirtual heaps.heapAt ptr node = true ↔ (heaps.heapAt nodeName).eaddr = ptr := by
  have ownerInList : owner ∈ heaps.multiheap.heaps := by
    rw [listed]
    exact List.mem_append_right _ List.mem_cons_self
  have nodeInList : node ∈ heaps.multiheap.heaps := by
    rw [listed]
    exact List.mem_append_left _ member
  have shiftOf : ∀ {node nodeName}, node ∈ heaps.multiheap.heaps →
      multiheapHeapAllowsPaging node = true → node.pagingHeap = some nodeName →
      Shifted heaps.multiheap.maxEndDataAddr (heaps.heapAt node.heap) (heaps.heapAt nodeName) := by
    intro node nodeName inList allows nodeEq
    obtain ⟨found, foundEq, -, shifted⟩ := ready.paging node inList allows
    rw [nodeEq, Option.some.injEq] at foundEq
    exact foundEq ▸ shifted
  have shifted := shiftOf nodeInList nodeAllows nodeEq
  have ownerShifted := shiftOf ownerInList allows ownerName
  have apart : Disjoint (heaps.heapAt node.heap).range (heaps.heapAt owner.heap).range := by
    have pairwise := ok.disjoint
    rw [listed] at pairwise
    exact (List.pairwise_append.mp pairwise).2.2 node member owner List.mem_cons_self
  have lower := owned.1
  have upper := owned.2
  rw [ownerShifted.saddr] at lower
  rw [ownerShifted.eaddr] at upper
  have ownedBelow : ptr - heaps.multiheap.maxEndDataAddr ∈ (heaps.heapAt owner.heap).range :=
    ⟨by omega, by omega⟩
  have within := withinHeap_iff_of_disjoint ownedBelow apart (ok.ranges node nodeInList).ordered
  rw [answersVirtual, nodeAllows, nodeEq, Bool.true_and, Option.any_some]
  simp only [heapIsAddressWithinHeap, decide_eq_true_eq] at within ⊢
  rw [shifted.saddr, shifted.eaddr]
  constructor
  · intro inside
    have := within.mp ⟨by omega, by omega⟩
    omega
  · intro atEnd
    have := within.mpr (by omega)
    omega

theorem pagingActsOn_iff :
    multiheapIsAddressVirtual heaps ptr = true ∧
      (PagingActsOn heaps owner ptr ↔ NonePagingEndsAt heaps before ptr) := by
  have ownerInList : owner ∈ heaps.multiheap.heaps := by
    rw [listed]
    exact List.mem_append_right _ List.mem_cons_self
  have isVirtual : multiheapIsAddressVirtual heaps ptr = true := by
    obtain ⟨found, foundEq, -, shifted⟩ := ready.paging owner ownerInList allows
    rw [ownerName, Option.some.injEq] at foundEq
    subst foundEq
    have := owned.1
    rw [shifted.saddr] at this
    simp only [multiheapIsAddressVirtual, decide_eq_true_eq]
    omega
  have answers := fun {node : MultiheapSingleHeap} (member : node ∈ before) =>
    answersVirtual_iff ok ready listed allows ownerName owned member
  have pagingNamed : ∀ node ∈ heaps.multiheap.heaps, multiheapHeapAllowsPaging node = true →
      node.pagingHeap ≠ none := by
    intro node inList nodeAllows
    obtain ⟨found, foundEq, -⟩ := ready.paging node inList nodeAllows
    rw [foundEq]
    exact Option.some_ne_none found
  have ownerAnswers : answersVirtual heaps.heapAt ptr owner = true := by
    rw [answersVirtual, allows, ownerName, Bool.true_and, Option.any_some]
    exact within_of_mem owned
  -- the owner itself does not answer for a pointer at its end
  have other : ∀ node ∈ before, answersVirtual heaps.heapAt ptr node = true → node ≠ owner := by
    rintro node member found rfl
    exact owned.2.ne' ((answers member allows ownerName).mp found)
  -- the list is searched in order: the owner is found unless a heap before it answers
  have resolved : multiheapGetPagingHeapForAddress heaps ptr = some (some owner) ↔
      NonePagingEndsAt heaps before ptr := by
    rw [multiheapGetPagingHeapForAddress, pagingHeapLoop_eq_find pagingNamed, Option.some.injEq, listed,
      find?_append_owner ownerAnswers other]
    refine forall₂_congr fun node member => ?_
    constructor
    · intro silent nodeAllows nodeName nodeEq atEnd
      have := (answers member nodeAllows nodeEq).mpr atEnd
      rw [silent] at this
      exact absurd this (by decide)
    · intro noneEnds
      by_contra found
      rw [Bool.not_eq_false] at found
      obtain ⟨nodeAllows, -⟩ := Bool.and_eq_true_iff.mp found
      have nodeInList : node ∈ heaps.multiheap.heaps := listed ▸ List.mem_append_left _ member
      obtain ⟨nodeName, nodeEq⟩ :=
        Option.ne_none_iff_exists'.mp (pagingNamed node nodeInList nodeAllows)
      exact noneEnds nodeAllows nodeName nodeEq ((answers member nodeAllows nodeEq).mp found)
  refine ⟨isVirtual, fun acts => resolved.mp acts.resolved, fun noneEnds => ⟨resolved.mpr noneEnds, ?_⟩⟩
  intro found foundEq current fuel mem
  have byAddress : multiheapGetHeapAndPagingHeapForAddress heaps ptr =
      some ⟨multiheapGetHeapForAddress heaps (multiheapVirtualAddressToPhysical heaps ptr), some owner,
        multiheapVirtualAddressToPhysical heaps ptr⟩ := by
    rw [multiheapGetHeapAndPagingHeapForAddress, if_pos isVirtual, resolved.mpr noneEnds]
    rfl
  simp [multiheapFree, byAddress, foundEq]

end PagingPointers

/-! ## The owner is found -/

/-- The heap that served an allocation is found again, at any later time, just when no heap listed
before it ends at the pointer.  To release or to resize the allocation it must also be possible to
search the paging heaps: either they exist or there are none to search.  The pointers of the paging
heaps that `multiheap_ready` makes are virtual, and found under the same condition. -/
theorem owner_iff_noneEndsAt (heaps : Heaps) (ok : MultiheapOk heaps) :
    (∀ size before owner later,
      firstPassOwner size heaps.multiheap.heaps heaps = some (before, owner) →
      SameHeaps heaps later → Unready later ∨ Ready later →
      let ptr := (multiheapAlloc heaps size).1
      ((multiheapGetHeapForAddress later ptr).map (·.heap) = some owner.heap ↔
        NoneEndsAt heaps before ptr) ∧
      (ActsOn later owner.heap ptr ↔
        NoneEndsAt heaps before ptr ∧ (Ready later ∨ NoPaging later))) ∧
    (∀ current mem memory, multiheapReady current ⟨mem, heaps⟩ = some memory →
      SameHeaps heaps memory.alloc ∧ MultiheapOk memory.alloc ∧ Ready memory.alloc) ∧
    (Ready heaps → ∀ size ptr owner served,
      multiheapAllocPaging heaps size = some (ptr, some owner, served) →
      owner ∈ heaps.multiheap.heaps ∧
      ∀ before after later, heaps.multiheap.heaps = before ++ owner :: after → Keeps served later →
        multiheapIsAddressVirtual later ptr = true ∧
        (PagingActsOn later owner ptr ↔ NonePagingEndsAt later before ptr)) := by
  refine ⟨?_, ?_, ?_⟩
  · intro size before owner later found same phase
    have placed := fun node member => And.intro (ok.named node member) (ok.ranges node member)
    obtain ⟨⟨after, listed⟩, owned⟩ := firstPassOwner_spec heaps.multiheap.heaps placed found
    have notNull : (multiheapAlloc heaps size).1 ≠ 0 :=
      (firstPassOwner_isSome size _ heaps).mp (by rw [found]; rfl)
    exact ⟨found_iff ok same listed owned, actsOn_iff ok same phase listed owned notNull⟩
  · intro current mem memory readied
    obtain ⟨same, ready⟩ := multiheapReady_spec ok readied
    exact ⟨same, ok.sameHeaps same, ready⟩
  · intro ready size ptr owner served allocated
    obtain ⟨kept, member, allows, owned⟩ := allocPagingLoop_spec heaps.multiheap.heaps
      (fun node member => ready.pagingPlaced ok member) allocated
    refine ⟨member, fun before after later listed keptLater => ?_⟩
    have keptAll := kept.trans keptLater
    obtain ⟨name, nameEq, made, -⟩ := ready.pagingPlaced ok member allows
    refine pagingActsOn_iff (ok.sameHeaps keptAll.sameHeaps) (ready.keeps ok keptAll)
      (keptAll.multiheap ▸ listed) allows nameEq ?_
    rw [(keptAll.pools name made).range]
    exact owned name nameEq

/-! ## Two neighbours -/

/-- A heap of one block, which is taken or free. -/
def oneBlock (saddr : Nat) (entry : UInt8) : Heap where
  table := ⟨fun _ => entry, 1, by decide⟩
  saddr
  eaddr := saddr + viosHeapBlockSize
  totalBlocks := 1
  freeBlocks := if entry = 0 then 1 else 0
  usedBlocks := if entry = 0 then 0 else 1
  blockAllocatedCallback := false
  blockFreeCallback := false
  effects := []

def lowerNode : MultiheapSingleHeap := ⟨0, none, multiheapHeapFlagExternallyOwned⟩
def upperNode : MultiheapSingleHeap := ⟨1, none, multiheapHeapFlagExternallyOwned⟩

/-- A full heap at `0x1000` and an empty one behind it. -/
def neighbours (nodes : List MultiheapSingleHeap) : Heaps where
  heapAt := fun name => if name = 0 then oneBlock 0x1000 0x41 else oneBlock 0x2000 0
  created := 2
  multiheap := ⟨0, nodes, 0, 0, 2⟩

theorem neighbours_ok {nodes : List MultiheapSingleHeap}
    (both : nodes = [lowerNode, upperNode] ∨ nodes = [upperNode, lowerNode]) :
    MultiheapOk (neighbours nodes) := by
  have lower : PoolRange (oneBlock 0x1000 0x41) := ⟨by decide, by decide, by decide⟩
  have upper : PoolRange (oneBlock 0x2000 0) := ⟨by decide, by decide, by decide⟩
  have apart : Disjoint (oneBlock 0x1000 0x41).range (oneBlock 0x2000 0).range := by
    refine Set.disjoint_left.mpr fun address inLower inUpper => ?_
    have below : address < 0x2000 := inLower.2
    have above : 0x2000 ≤ address := inUpper.1
    omega
  rcases both with rfl | rfl
  · exact ⟨by simpa [neighbours, lowerNode, upperNode] using ⟨lower, upper⟩,
      by simpa [neighbours, lowerNode, upperNode] using apart, by decide⟩
  · exact ⟨by simpa [neighbours, lowerNode, upperNode] using ⟨upper, lower⟩,
      by simpa [neighbours, lowerNode, upperNode] using apart.symm, by decide⟩

/-- With the upper heap first in the list, its block is found to be its own. -/
theorem actsOn_upperFirst :
    let heaps := neighbours [upperNode, lowerNode]
    MultiheapOk heaps ∧ ActsOn (multiheapAlloc heaps 4096).2 1 0x2000 := by
  have ok := neighbours_ok (.inr rfl)
  have unready : Unready (multiheapAlloc (neighbours [upperNode, lowerNode]) 4096).2 :=
    ⟨by decide, by decide⟩
  have noPaging : NoPaging (multiheapAlloc (neighbours [upperNode, lowerNode]) 4096).2 := by
    unfold NoPaging
    decide
  have acts := ((owner_iff_noneEndsAt (neighbours [upperNode, lowerNode]) ok).1 4096 [] upperNode _
    (by decide) (Keeps.alloc _ 4096).sameHeaps (.inl unready)).2
  exact ⟨ok, acts.mpr ⟨by simp [NoneEndsAt], .inr noPaging⟩⟩

/-- With the lower heap first, it answers for the block of the upper one. -/
theorem wrongOwner_lowerFirst :
    let heaps := neighbours [lowerNode, upperNode]
    MultiheapOk heaps ∧
      firstPassOwner 4096 heaps.multiheap.heaps heaps = some ([lowerNode], upperNode) ∧
      (multiheapAlloc heaps 4096).1 = 0x2000 ∧
      multiheapGetHeapForAddress (multiheapAlloc heaps 4096).2 0x2000 = some lowerNode ∧
      lowerNode ≠ upperNode :=
  ⟨neighbours_ok (.inl rfl), by decide, by decide, by decide, by decide⟩

end ViOS.Memory
