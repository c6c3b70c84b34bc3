import ViOS.Task.ProcessPages
import ViOS.Loader.Elf
import ViOS.Memory.KheapInit

/-! # The address space of a process

`process_map_memory` gives a process the usable memory of the machine at its own addresses, for the
kernel only, and puts the program and the stack over it.  `process_malloc` and its companions change
these tables later, page by page, as the calls of the program ask for.

The regions of the memory map end below 8 TiB.

* `pagingMapE820MemoryRegions`, `processMapMemory` — the code.
* `programSpace` — the pages of a new process.
* `processMapMemory_translates` — the processor finds these.
* `accessible_iff` — what user code can reach in every state of a run.
-/

namespace ViOS.Process

open ViOS.Lib ViOS.Memory ViOS.Loader

/-! ## The code -/

/-- A program in memory, by `process->filetype`. -/
inductive ProgramImage where
  | elf (mem : Ram) (file : ElfFile)
  | binary (ptr size : Nat)

section Map

variable {α : Type*} (kzalloc : α → Nat → Nat × α) (desc : PagingDesc)

/-- The loop of `paging_map_e820_memory_regions`. -/
def mapE820Loop : List E820Entry → PagingState α → PagingState α
  | [], state => state
  | entry :: rest, state =>
    if entry.type = 1 then
      let baseAddr := entry.baseAddr.toNat
      let endAddr := entry.endAddr % addressSpace
      let baseAddr := if !pagingIsAligned baseAddr then pagingAlignAddress baseAddr else baseAddr
      let endAddr := if !pagingIsAligned endAddr then pagingAlignToLowerPage endAddr else endAddr
      let (_, state) := pagingMapTo kzalloc desc baseAddr baseAddr endAddr
        (pagingIsWriteable ||| pagingIsPresent) state
      mapE820Loop rest state
    else mapE820Loop rest state

/-- `paging_map_e820_memory_regions`. -/
def pagingMapE820MemoryRegions (map : List E820Entry) (state : PagingState α) : Int × PagingState α :=
  let (_, state) := pagingMapTo kzalloc desc 0 0 0x100000 (pagingIsWriteable ||| pagingIsPresent) state
  (0, mapE820Loop kzalloc desc map state)

/-- `process_map_binary`. -/
def processMapBinary (ptr size : Nat) (state : PagingState α) : Int × PagingState α :=
  let (_, state) := pagingMapTo kzalloc desc viosProgramVirtualAddress ptr (rangeEnd ptr size) userFlags
    state
  (0, state)

/-- `process_map_memory`; `stack` is `process->stack`. -/
def processMapMemory (map : List E820Entry) (image : ProgramImage) (stack : Nat)
    (state : PagingState α) : Int × PagingState α :=
  let (_, state) := pagingMapE820MemoryRegions kzalloc desc map state
  let (res, state) := match image with
    | .elf mem file => processMapElf kzalloc desc mem file state
    | .binary ptr size => processMapBinary kzalloc desc ptr size state
  if res < 0 then (res, state)
  else
    let (_, state) := pagingMapTo kzalloc desc viosProgramVirtualStackAddressEnd stack
      (rangeEnd stack viosUserProgramStackSize) userFlags state
    (res, state)

end Map

/-! ## The calls of `paging_map_to` -/

/-- The call for a region. -/
def regionCall (entry : E820Entry) : PagingCall :=
  let baseAddr := entry.baseAddr.toNat
  let endAddr := entry.endAddr % addressSpace
  let baseAddr := if !pagingIsAligned baseAddr then pagingAlignAddress baseAddr else baseAddr
  let endAddr := if !pagingIsAligned endAddr then pagingAlignToLowerPage endAddr else endAddr
  .mapTo baseAddr baseAddr endAddr (pagingIsWriteable ||| pagingIsPresent)

/-- The calls for the memory of the machine. -/
def e820Calls (map : List E820Entry) : List PagingCall :=
  .mapTo 0 0 0x100000 (pagingIsWriteable ||| pagingIsPresent) ::
    (map.filter fun entry => entry.type = 1).map regionCall

/-- The calls for a program. -/
def ProgramImage.calls : ProgramImage → List PagingCall
  | .elf mem file => ((elfPheaders mem file).map (elfRange file)).map fun range =>
      .mapTo range.virt range.phys range.physEnd range.flags
  | .binary ptr size => [.mapTo viosProgramVirtualAddress ptr (rangeEnd ptr size) userFlags]

/-- The calls for a program and its stack. -/
def programCalls (image : ProgramImage) (stack : Nat) : List PagingCall :=
  image.calls ++ [.mapTo viosProgramVirtualStackAddressEnd stack
    (rangeEnd stack viosUserProgramStackSize) userFlags]

section Calls

variable {α : Type*} {kzalloc : α → Nat → Nat × α} {desc : PagingDesc}

theorem runCalls_append (first second : List PagingCall) (state : PagingState α) :
    runCalls kzalloc desc (first ++ second) state =
      runCalls kzalloc desc second (runCalls kzalloc desc first state) := by
  induction first generalizing state with
  | nil => rfl
  | cons call rest ih => simp only [List.cons_append, runCalls, ih]

theorem mapE820Loop_calls (map : List E820Entry) (state : PagingState α) :
    mapE820Loop kzalloc desc map state =
      runCalls kzalloc desc ((map.filter fun entry => entry.type = 1).map regionCall) state := by
  induction map generalizing state with
  | nil => rfl
  | cons entry rest ih =>
    by_cases usable : entry.type = 1
    · simp only [mapE820Loop, List.filter_cons, usable, decide_true, if_true,
        List.map_cons, runCalls, ih]
      rfl
    · simp only [mapE820Loop, List.filter_cons, usable, decide_false, ih]
      rfl

theorem pagingMapE820MemoryRegions_calls (map : List E820Entry) (state : PagingState α) :
    (pagingMapE820MemoryRegions kzalloc desc map state).2 =
      runCalls kzalloc desc (e820Calls map) state := by
  simp only [pagingMapE820MemoryRegions, mapE820Loop_calls]
  rfl

/-- `process_map_elf` makes all its calls unless it fails. -/
theorem mapElfLoop_calls (file : ElfFile) (phdrs : List Elf64Phdr) (res : Int) (state : PagingState α)
    (succeeds : ¬ (mapElfLoop kzalloc desc file phdrs res state).1 < 0) :
    (mapElfLoop kzalloc desc file phdrs res state).2 =
      runCalls kzalloc desc ((phdrs.map (elfRange file)).map fun range =>
        .mapTo range.virt range.phys range.physEnd range.flags) state := by
  induction phdrs generalizing res state with
  | nil => rfl
  | cons phdr rest ih =>
    simp only [mapElfLoop] at succeeds ⊢
    split at succeeds
    case isTrue refused => exact absurd refused succeeds
    case isFalse accepted =>
      rw [if_neg accepted, ih _ _ succeeds]
      rfl

theorem processMapMemory_calls {map : List E820Entry} {image : ProgramImage} {stack : Nat}
    {state : PagingState α} (succeeds : ¬ (processMapMemory kzalloc desc map image stack state).1 < 0) :
    (processMapMemory kzalloc desc map image stack state).2 =
      runCalls kzalloc desc (e820Calls map ++ programCalls image stack) state := by
  rw [programCalls, runCalls_append, runCalls_append, ← pagingMapE820MemoryRegions_calls]
  cases image with
  | binary ptr size =>
    simp only [processMapMemory, processMapBinary, ProgramImage.calls, runCalls, runCall, lt_irrefl,
      if_false]
  | elf mem file =>
    simp only [processMapMemory] at succeeds ⊢
    split at succeeds
    case isTrue refused => exact absurd refused succeeds
    case isFalse accepted =>
      rw [if_neg accepted, processMapElf, mapElfLoop_calls _ _ _ _ accepted]
      rfl

end Calls

/-! ## The pages of a new process -/

/-- The whole page is memory that the machine can use. -/
def RamPage (map : List E820Entry) (page : Nat) : Prop :=
  page < 0x100 ∨ ∃ entry ∈ map, entry.type = 1 ∧ entry.baseAddr.toNat ≤ page * pagingPageSize ∧
    (page + 1) * pagingPageSize ≤ entry.endAddr

instance (map : List E820Entry) (page : Nat) : Decidable (RamPage map page) :=
  inferInstanceAs (Decidable (_ ∨ _))

/-- Memory at its own address, for the kernel only. -/
def ramMapping (map : List E820Entry) (page : Nat) : Option Mapping :=
  if RamPage map page then some ⟨page, true, true, false⟩ else none

/-- What `process_map_memory` makes of a page: the program or the stack, or else memory of the machine. -/
def programSpace (map : List E820Entry) (image : ProgramImage) (stack page : Nat) : Option Mapping :=
  (lastWriter (programCalls image stack) page).or (ramMapping map page)

/-- The regions end below 8 TiB. -/
def InReach (map : List E820Entry) : Prop := ∀ entry ∈ map, entry.endAddr < 2 ^ 43

theorem lastWriter_append (first second : List PagingCall) (page : Nat) :
    lastWriter (first ++ second) page = (lastWriter second page).or (lastWriter first page) := by
  induction first with
  | nil => simp [lastWriter]
  | cons call rest ih => rw [List.cons_append, lastWriter_cons, lastWriter_cons, ih, Option.or_assoc]

/-- When all calls put the same at a page, it is there if one of them covers the page. -/
theorem lastWriter_agree {calls : List PagingCall} {page : Nat} {mapping : Mapping}
    (agree : ∀ call ∈ calls, call.covers page = none ∨ call.covers page = some mapping) :
    lastWriter calls page =
      if ∃ call ∈ calls, call.covers page ≠ none then some mapping else none := by
  induction calls with
  | nil => simp [lastWriter]
  | cons call rest ih =>
    rw [lastWriter_cons, ih fun other member => agree other (List.mem_cons_of_mem _ member)]
    cases agree call List.mem_cons_self with
    | inl none => simp [none]
    | inr some =>
      simp only [some, List.exists_mem_cons_iff, ne_eq, reduceCtorEq, not_false_eq_true, true_or,
        if_true]
      split <;> rfl

theorem lastWriter_eq_none {calls : List PagingCall} {page : Nat} :
    lastWriter calls page = none ↔ ¬ Touched calls page := by
  simp [lastWriter, Touched]

/-- Pages that are mapped at their own addresses. -/
theorem identity_covers {first last : Nat} (ordered : first ≤ last) (small : last ≤ 2 ^ 36)
    (flags : Nat) {page : Nat} (isPage : page < 2 ^ 36) :
    PagingCall.covers (.mapTo (first * pagingPageSize) (first * pagingPageSize)
      (last * pagingPageSize) flags) page =
      if first ≤ page ∧ page < last then some (mappingOf page flags) else none := by
  have valid : MapToValid (first * pagingPageSize) (first * pagingPageSize) (last * pagingPageSize) :=
    ⟨Nat.mul_mod_left _ _, Nat.mul_mod_left _ _, Nat.mul_mod_left _ _, Nat.mul_le_mul_right _ ordered⟩
  have count : (last * pagingPageSize - first * pagingPageSize) / pagingPageSize = last - first := by
    rw [← Nat.sub_mul, Nat.mul_div_cancel _ (by decide)]
  have number : pageNumber (first * pagingPageSize) = first % 2 ^ 36 := by
    rw [pageNumber, Nat.mul_div_cancel _ (by decide)]
  simp only [PagingCall.covers, if_pos valid, rangeCovers, count, number,
    Nat.mul_div_cancel _ (show 0 < pagingPageSize by decide)]
  by_cases inside : first ≤ page ∧ page < last
  · have offset : (page + 2 ^ 36 - first % 2 ^ 36) % 2 ^ 36 = page - first := by omega
    rw [if_pos inside, offset, if_pos (by omega), show first + (page - first) = page by omega]
  · rw [if_neg inside, if_neg (by omega)]

/-- A region gives its whole pages. -/
theorem regionCall_covers {entry : E820Entry} (small : entry.endAddr < 2 ^ 43) {page : Nat}
    (isPage : page < 2 ^ 36) :
    (regionCall entry).covers page =
      if entry.baseAddr.toNat ≤ page * pagingPageSize ∧ (page + 1) * pagingPageSize ≤ entry.endAddr then
        some ⟨page, true, true, false⟩
      else none := by
  have base : entry.baseAddr.toNat ≤ entry.endAddr := Nat.le_add_right _ _
  obtain ⟨first, isFirst⟩ : ∃ first, entry.baseAddr.toNat +
      (pagingPageSize - entry.baseAddr.toNat % pagingPageSize) % pagingPageSize =
        first * pagingPageSize :=
    ⟨(entry.baseAddr.toNat + (pagingPageSize - 1)) / pagingPageSize, by
      unfold pagingPageSize
      omega⟩
  obtain ⟨last, isLast⟩ : ∃ last, entry.endAddr - entry.endAddr % pagingPageSize =
      last * pagingPageSize :=
    ⟨entry.endAddr / pagingPageSize, by
      unfold pagingPageSize
      omega⟩
  have call : regionCall entry = .mapTo (first * pagingPageSize) (first * pagingPageSize)
      (last * pagingPageSize) 3 := by
    simp only [regionCall]
    rw [alignAddress_eq (by unfold pagingPageSize addressSpace; omega), alignToLowerPage_eq,
      Nat.mod_eq_of_lt (show entry.endAddr < addressSpace by unfold addressSpace; omega), isFirst, isLast]
    rfl
  have mapping : mappingOf page 3 = ⟨page, true, true, false⟩ := by
    simp [mappingOf, pagingIsPresent, pagingIsWriteable, pagingAccessFromAll]
  rw [call]
  by_cases ordered : first ≤ last
  · rw [identity_covers ordered (by unfold pagingPageSize at isLast; omega) 3 isPage, mapping]
    apply if_congr _ rfl rfl
    unfold pagingPageSize at *
    omega
  · -- the region lies within one page: `paging_map_to` refuses it
    have refused : ¬ MapToValid (first * pagingPageSize) (first * pagingPageSize)
        (last * pagingPageSize) := by
      intro valid
      have := valid.2.2.2
      unfold pagingPageSize at this
      omega
    rw [PagingCall.covers, if_neg refused, if_neg]
    unfold pagingPageSize at *
    omega

theorem e820_lastWriter {map : List E820Entry} (inReach : InReach map) {page : Nat}
    (isPage : page < 2 ^ 36) : lastWriter (e820Calls map) page = ramMapping map page := by
  have mapping : mappingOf page 3 = ⟨page, true, true, false⟩ := by
    simp [mappingOf, pagingIsPresent, pagingIsWriteable, pagingAccessFromAll]
  have low : PagingCall.covers (.mapTo 0 0 0x100000 (pagingIsWriteable ||| pagingIsPresent)) page =
      if page < 0x100 then some ⟨page, true, true, false⟩ else none := by
    have identity := @identity_covers 0 0x100 (by omega) (by omega) 3 page isPage
    rw [Nat.zero_mul, mapping, show 0x100 * pagingPageSize = 0x100000 from rfl] at identity
    change PagingCall.covers (.mapTo 0 0 0x100000 3) page = _
    simpa using identity
  have region : ∀ entry ∈ map, (regionCall entry).covers page = _ :=
    fun entry member => regionCall_covers (inReach entry member) isPage
  have agree : ∀ call ∈ e820Calls map,
      call.covers page = none ∨ call.covers page = some ⟨page, true, true, false⟩ := by
    intro call member
    cases List.mem_cons.mp member with
    | inl first =>
      subst first
      rw [low]
      split <;> simp
    | inr later =>
      obtain ⟨entry, inMap, rfl⟩ := List.mem_map.mp later
      rw [region entry (List.mem_filter.mp inMap).1]
      split <;> simp
  rw [lastWriter_agree agree, ramMapping]
  apply if_congr _ rfl rfl
  simp only [e820Calls, List.exists_mem_cons_iff, List.mem_map, List.mem_filter,
    exists_exists_and_eq_and, decide_eq_true_eq, RamPage]
  apply or_congr
  · rw [low]
    simp
  · apply exists_congr
    intro entry
    rw [and_assoc, and_congr_right_iff, and_congr_right_iff]
    intro inMap usable
    rw [region entry inMap]
    simp

theorem e820Calls_legal {map : List E820Entry} (inReach : InReach map) :
    ∀ call ∈ e820Calls map, call.Legal := by
  intro call member
  cases List.mem_cons.mp member with
  | inl first =>
    subst first
    intro valid
    refine ⟨by unfold pagingPageSize; omega, ?_⟩
    intro i below
    unfold pagingPageSize at *
    omega
  | inr later =>
    obtain ⟨entry, inMap, rfl⟩ := List.mem_map.mp later
    have small := inReach entry (List.mem_filter.mp inMap).1
    have base : entry.baseAddr.toNat ≤ entry.endAddr := Nat.le_add_right _ _
    simp only [regionCall]
    rw [alignAddress_eq (by unfold pagingPageSize addressSpace; omega), alignToLowerPage_eq,
      Nat.mod_eq_of_lt (show entry.endAddr < addressSpace by unfold addressSpace; omega)]
    intro valid
    have ordered := valid.2.2.2
    refine ⟨by unfold pagingPageSize at *; omega, ?_⟩
    intro i below
    unfold pagingPageSize at *
    omega

section Contract

variable {α : Type*} {zalloc : α → Nat → Nat × α} {valid : α → Prop} {taken : α → Nat → Prop}
  {desc : PagingDesc} {before created : PagingState α} {map : List E820Entry} {image : ProgramImage}
  {stack : Nat}

/-- The descriptor of a process is made, its memory is mapped, and no table is missing. -/
structure LoadsProcess (zalloc : α → Nat → Nat × α) (desc : PagingDesc) (map : List E820Entry)
    (image : ProgramImage) (stack : Nat) (before created : PagingState α) : Prop where
  new : pagingDescNew zalloc before pagingMapLevel4 = (some desc, created)
  provided : desc.pml ≠ 0
  succeeds : ¬ (processMapMemory zalloc desc map image stack created).1 < 0
  tables : RunOk zalloc desc (e820Calls map ++ programCalls image stack) created

/-- In the tables of a new process the processor finds the stack and the program, and around them the
memory of the machine, which is out of reach for user code. -/
theorem processMapMemory_translates (contract : BlockContract zalloc valid taken)
    (inReach : InReach map) (beforeValid : valid before.alloc)
    (loads : LoadsProcess zalloc desc map image stack before created)
    (legal : ∀ call ∈ programCalls image stack, call.Legal) (virt : Nat) :
    Translates (processMapMemory zalloc desc map image stack created).2.mem desc.pml virt
      (programSpace map image stack (pageNumber virt)) := by
  have allLegal : ∀ call ∈ e820Calls map ++ programCalls image stack, call.Legal := by
    intro call member
    cases List.mem_append.mp member with
    | inl first => exact e820Calls_legal inReach call first
    | inr second => exact legal call second
  rw [processMapMemory_calls loads.succeeds, programSpace,
    ← e820_lastWriter inReach (pageNumber_lt virt), ← lastWriter_append]
  exact hardwareWalk_refines_lastWriter contract beforeValid loads.new loads.provided allLegal
    loads.tables virt

end Contract

/-! ## What user code can reach at the start -/

theorem lastWriter_mem {calls : List PagingCall} {page : Nat} {mapping : Mapping}
    (last : lastWriter calls page = some mapping) : ∃ call ∈ calls, call.covers page = some mapping := by
  obtain ⟨call, member, covers⟩ := List.exists_of_findSome?_eq_some last
  exact ⟨call, List.mem_reverse.mp member, covers⟩

theorem rangeCovers_flags {virt phys count flags page : Nat} {mapping : Mapping}
    (covers : rangeCovers virt phys count flags page = some mapping) :
    ∃ frame, mapping = mappingOf frame flags := by
  simp only [rangeCovers] at covers
  split at covers
  · exact ⟨_, (Option.some.inj covers).symm⟩
  · exact absurd covers (by simp)

/-- A call of `paging_map_to` with flags for user code. -/
theorem mapTo_user {virt phys physEnd flags page : Nat} {mapping : Mapping} (user : UserFlags flags)
    (covers : PagingCall.covers (.mapTo virt phys physEnd flags) page = some mapping) :
    mapping.present = true ∧ mapping.user = true := by
  simp only [PagingCall.covers] at covers
  split at covers
  · obtain ⟨frame, rfl⟩ := rangeCovers_flags covers
    exact ⟨decide_eq_true user.1, decide_eq_true user.2⟩
  · exact absurd covers (by simp)

theorem elfRange_user (file : ElfFile) (phdr : Elf64Phdr) : UserFlags (elfRange file phdr).flags := by
  simp only [elfRange]
  split <;> exact ⟨by decide, by decide⟩

/-- The pages of the program and of the stack are there for user code. -/
theorem programCalls_user {image : ProgramImage} {stack : Nat} :
    ∀ call ∈ programCalls image stack, ∀ page mapping, call.covers page = some mapping →
      mapping.present = true ∧ mapping.user = true := by
  intro call member page mapping covers
  cases List.mem_append.mp member with
  | inr last =>
    obtain rfl := List.mem_singleton.mp last
    exact mapTo_user userFlags_user covers
  | inl program =>
    cases image with
    | binary ptr size =>
      obtain rfl := List.mem_singleton.mp program
      exact mapTo_user userFlags_user covers
    | elf mem file =>
      obtain ⟨range, inRanges, rfl⟩ := List.mem_map.mp program
      obtain ⟨phdr, -, rfl⟩ := List.mem_map.mp inRanges
      exact mapTo_user (elfRange_user file phdr) covers

/-- User code reaches the pages of its program and of its stack, and no others. -/
theorem userAccessible_programSpace {mem : Nat → Nat → PagingDescEntry} {pml virt : Nat}
    {map : List E820Entry} {image : ProgramImage} {stack : Nat}
    (translates : Translates mem pml virt (programSpace map image stack (pageNumber virt))) :
    UserAccessible mem pml virt ↔ Touched (programCalls image stack) (pageNumber virt) := by
  cases last : lastWriter (programCalls image stack) (pageNumber virt) with
  | some mapping =>
    have touched : Touched (programCalls image stack) (pageNumber virt) := by
      by_contra untouched
      rw [lastWriter_eq_none.mpr untouched] at last
      exact absurd last (by simp)
    obtain ⟨call, member, covers⟩ := lastWriter_mem last
    obtain ⟨present, user⟩ := programCalls_user call member _ _ covers
    simp only [programSpace, last, Option.some_or, Translates, Option.map_eq_some_iff,
      Prod.exists, exists_eq_right] at translates
    obtain ⟨table, index, found⟩ := translates
    exact ⟨fun _ => touched, fun _ => ⟨(table, index), mapping, found, present, user⟩⟩
  | none =>
    have untouched := lastWriter_eq_none.mp last
    simp only [untouched, iff_false]
    intro ⟨location, mapping, found, present, user⟩
    have walk : (hardwareWalk mem pml virt).map Prod.snd = some mapping := by rw [found]; rfl
    simp only [programSpace, last, Option.none_or, ramMapping] at translates
    split at translates
    · -- memory of the machine is for the kernel
      rw [Translates, walk, Option.some.injEq] at translates
      rw [translates] at user
      exact absurd user (by simp)
    · exact absurd (translates mapping walk) (by simp [present])

/-! ## What a call of the program leaves alone -/

theorem samePool_of_sameShape {heap heap' : Heap} (same : SameShape heap heap') :
    SamePool heap heap' := by
  obtain ⟨entries, effects, rfl⟩ := same
  exact ⟨rfl, rfl, rfl⟩

theorem heapMarkBlocksFree_samePool {heap heap' : Heap} {block : Int}
    (freed : heapMarkBlocksFree heap block = some heap') : SamePool heap heap' := by
  simp only [heapMarkBlocksFree] at freed
  split at freed
  · exact absurd freed (by simp)
  · obtain rfl := Option.some.inj freed
    exact (samePool_of_sameShape (sameShape_markFreeLoop _ _ heap)).trans ⟨rfl, rfl, rfl⟩

theorem sameShape_extendLoop (rest i : Nat) (heap : Heap) : SameShape heap (extendLoop rest i heap) := by
  induction rest generalizing i heap with
  | zero => exact .refl heap
  | succ rest ih => exact (sameShape_setEntry heap i _).trans (ih _ _)

theorem reallocShrink_samePool {heap heap' : Heap} {oldPtr current newTotal ptr : Nat}
    {startingBlock : Int}
    (result : reallocShrink heap oldPtr startingBlock current newTotal = some (ptr, heap')) :
    SamePool heap heap' := by
  simp only [reallocShrink] at result
  cases freed : heapMarkBlocksFree heap (startingBlock + newTotal) with
  | none =>
    rw [freed] at result
    exact absurd result (by simp)
  | some left =>
    rw [freed] at result
    obtain ⟨-, rfl⟩ := Prod.mk.inj (Option.some.inj result)
    have same := heapMarkBlocksFree_samePool freed
    split <;> exact same.trans ⟨rfl, rfl, rfl⟩

theorem reallocMove_samePool {heap heap' : Heap} {oldPtr current newSizeAligned ptr : Nat}
    (result : reallocMove heap oldPtr current newSizeAligned = some (ptr, heap')) :
    SamePool heap heap' := by
  have zalloc := samePool_heapZalloc heap newSizeAligned
  simp only [reallocMove] at result
  split at result
  · obtain ⟨-, rfl⟩ := Prod.mk.inj (Option.some.inj result)
    exact zalloc
  · obtain ⟨freed, free, same⟩ := Option.map_eq_some_iff.mp result
    obtain ⟨-, rfl⟩ := Prod.mk.inj same
    have left := heapMarkBlocksFree_samePool free
    exact zalloc.trans ⟨left.saddr, left.eaddr, left.total⟩

/-- `heap_realloc` does not move the heap. -/
theorem heapRealloc_samePool {heap heap' : Heap} {oldPtr newSize ptr : Nat}
    (result : heapRealloc heap oldPtr newSize = some (ptr, heap')) : SamePool heap heap' := by
  simp only [heapRealloc] at result
  split_ifs at result with null empty equal shrinks before room atZero
  · have malloc := samePool_heapMalloc heap newSize
    rwa [Option.some.inj result] at malloc
  · obtain ⟨freed, free, same⟩ := Option.map_eq_some_iff.mp result
    obtain ⟨-, rfl⟩ := Prod.mk.inj same
    exact heapMarkBlocksFree_samePool free
  · obtain ⟨-, rfl⟩ := Prod.mk.inj (Option.some.inj result)
    exact .refl heap
  · exact reallocShrink_samePool result
  · obtain ⟨-, rfl⟩ := Prod.mk.inj (Option.some.inj result)
    exact (samePool_of_sameShape (sameShape_extendLoop _ _ heap)).trans ⟨rfl, rfl, rfl⟩
  · exact reallocMove_samePool result

theorem krealloc_samePool {heap heap' : Heap} {oldPtr newSize ptr : Nat}
    (result : krealloc heap oldPtr newSize = some (ptr, heap')) : SamePool heap heap' := by
  simp only [krealloc] at result
  generalize (if heap.eaddr ≤ oldPtr then oldPtr - heap.eaddr else oldPtr) = address at result
  split at result
  · exact heapRealloc_samePool result
  · have malloc := samePool_heapMalloc heap newSize
    rwa [Option.some.inj result] at malloc

/-- What the calls of a program do to its memory: the heap and the records change, and ranges are
mapped. -/
inductive Evolves (process : ProcessMemory) : ProcessMemory → Prop
  | refl : Evolves process process
  | heap {next : ProcessMemory} {alloc : Heap} (evolves : Evolves process next)
    (same : SamePool next.paging.alloc alloc) (allocations : RecordVector) :
    Evolves process { next with paging := { next.paging with alloc }, allocations }
  | mapped {next : ProcessMemory} (evolves : Evolves process next) (ptr size flags : Nat) :
    Evolves process (mapRangeOf next ptr size flags).2

theorem vectorPush_samePool {vec vec' : RecordVector} {elem : ProcessAllocation} {heap heap' : Heap}
    {res : Int} (result : vectorPush vec elem heap = some (res, vec', heap')) : SamePool heap heap' := by
  simp only [vectorPush, vectorResize] at result
  split_ifs at result
  · simp only [lt_irrefl, if_false, Option.some.injEq, Prod.mk.injEq] at result
    exact result.2.2 ▸ .refl heap
  · cases grown : krealloc heap vec.memory (growthBytes vec) with
    | none =>
      rw [grown] at result
      exact absurd result (by simp)
    | some pair =>
      have same := krealloc_samePool grown
      rw [grown] at result
      by_cases none : pair.1 = 0
      · simp only [none, if_true, show (-enomem : Int) < 0 by decide, Option.some.injEq,
          Prod.mk.injEq] at result
        exact result.2.2 ▸ same
      · simp only [none, if_false, lt_irrefl, Option.some.injEq, Prod.mk.injEq] at result
        exact result.2.2 ▸ same

theorem Evolves.findFreeIndex {process next next' : ProcessMemory} {index : Int}
    (evolves : Evolves process next)
    (result : processFindFreeAllocationIndex next = some (index, next')) : Evolves process next' := by
  simp only [processFindFreeAllocationIndex] at result
  split at result
  · exact absurd result (by simp)
  · split at result
    · obtain ⟨-, rfl⟩ := Prod.mk.inj (Option.some.inj result)
      exact evolves
    · split at result
      · exact absurd result (by simp)
      · rename_i pushed
        obtain ⟨-, rfl⟩ := Prod.mk.inj (Option.some.inj result)
        exact evolves.heap (vectorPush_samePool pushed) _

theorem Evolves.setMap {process next : ProcessMemory} (evolves : Evolves process next)
    (index ptr size : Nat) : Evolves process (processAllocationSetMap next index ptr size).2 := by
  have mapped := evolves.mapped ptr size userFlags
  simp only [processAllocationSetMap]
  split_ifs
  · exact mapped
  · exact mapped
  · exact mapped.heap (.refl _) _

theorem Evolves.malloc {process next : ProcessMemory} {size ptr : Nat}
    (result : processMalloc process size = some (ptr, next)) : Evolves process next := by
  have zalloc := Evolves.refl.heap (samePool_heapZalloc process.paging.alloc size) process.allocations
  simp only [processMalloc] at result
  split at result
  · obtain ⟨-, rfl⟩ := Prod.mk.inj (Option.some.inj result)
    exact zalloc
  · split at result
    · exact absurd result (by simp)
    · rename_i found
      have slot := zalloc.findFreeIndex found
      split_ifs at result
      · obtain ⟨-, rfl⟩ := Prod.mk.inj (Option.some.inj result)
        exact slot
      · obtain ⟨-, rfl⟩ := Prod.mk.inj (Option.some.inj result)
        exact slot.setMap _ _ _
      · obtain ⟨-, rfl⟩ := Prod.mk.inj (Option.some.inj result)
        exact slot.setMap _ _ _

theorem Evolves.realloc {process next : ProcessMemory} {ptr newSize new : Nat}
    (result : processRealloc process ptr newSize = some (new, next)) : Evolves process next := by
  simp only [processRealloc] at result
  generalize (if ptr = 0 then 0 else pagingGetPhysicalAddress process.paging.mem process.desc ptr) =
    oldPhysPtr at result
  split at result
  · exact absurd result (by simp)
  · split at result
    · obtain ⟨-, rfl⟩ := Prod.mk.inj (Option.some.inj result)
      exact .refl
    · split at result
      · obtain ⟨-, rfl⟩ := Prod.mk.inj (Option.some.inj result)
        exact .refl
      · split at result
        · exact absurd result (by simp)
        · rename_i resized
          have heap := Evolves.refl.heap (krealloc_samePool resized) process.allocations
          split at result
          · obtain ⟨-, rfl⟩ := Prod.mk.inj (Option.some.inj result)
            exact heap
          · obtain ⟨-, rfl⟩ := Prod.mk.inj (Option.some.inj result)
            exact heap.setMap _ _ _

theorem Evolves.free {process next : ProcessMemory} {ptr : Nat}
    (result : processFree process ptr = some next) : Evolves process next := by
  simp only [processFree] at result
  split at result
  · exact absurd result (by simp)
  · split at result
    · exact Option.some.inj result ▸ .refl
    · rename_i allocation _
      have mapped := (@Evolves.refl process).mapped allocation.ptr allocation.size 0
      split at result
      · exact Option.some.inj result ▸ mapped
      · exact Option.some.inj result ▸ mapped.heap (.refl _) _

/-- The calls of a program. -/
theorem Evolves.step {process next : ProcessMemory} {op : MemoryOp}
    (step : memoryStep process op next) : Evolves process next := by
  cases op with
  | malloc size =>
    obtain ⟨-, ptr, result⟩ := step
    exact .malloc result
  | realloc ptr newSize =>
    obtain ⟨-, -, -, -, new, result⟩ := step
    exact .realloc result
  | free ptr => exact .free step

/-! ## Pages that are not touched -/

section Untouched

variable {α : Type*} {kzalloc : α → Nat → Nat × α} {taken : Nat → Prop} {desc : PagingDesc}
  {flags : Nat}

/-- The loop of `paging_map_range` over pages that have tables changes these pages only. -/
theorem mapRangeLoop_remaps (count : Nat) : ∀ {virt phys : Nat} {res : Int} {state : PagingState α},
    PagingTree taken state.mem desc.pml →
    (∀ i < count, Radix.walk childTable state.mem desc.pml
      (wordOf ((pageNumber virt + i) % 2 ^ 36 * pagingPageSize)) ≠ none) →
    ∃ covered, Remaps taken desc.pml covered state
        (mapRangeLoop kzalloc desc flags count virt phys res state).2 ∧
      ∀ page, covered page ≠ none → ∃ i < count, page = (pageNumber virt + i) % 2 ^ 36 := by
  induction count with
  | zero =>
    intro virt phys res state tree _
    exact ⟨_, .refl tree, fun page covered => absurd rfl covered⟩
  | succ count ih =>
    intro virt phys res state tree mapped
    have bound := pageNumber_lt virt
    have first := mapped 0 (by omega)
    rw [Nat.add_zero, Nat.mod_eq_of_lt bound, (sameWord_iff.mpr (pageNumber_page bound)).1] at first
    have remaps : Remaps taken desc.pml _ state (pagingMap kzalloc desc virt phys flags state).2 :=
      pagingMap_mapped tree first
    have next := pageNumber_next virt
    obtain ⟨covered, rest, pages⟩ := @ih ((virt + pagingPageSize) % addressSpace)
      ((phys + pagingPageSize) % addressSpace) 0 _ remaps.tree (fun i below => by
        rw [remaps.tables _ (by simp [wordOf]), next, Nat.mod_add_mod, Nat.add_assoc, Nat.add_comm 1]
        exact mapped (i + 1) (by omega))
    refine ⟨_, remaps.trans rest, ?_⟩
    intro page isCovered
    cases later : covered page with
    | none =>
      rw [overlay, later, Option.none_or] at isCovered
      have isFirst : page = pageNumber virt := by
        by_contra other
        exact isCovered (if_neg other)
      exact ⟨0, by omega, by omega⟩
    | some mapping =>
      obtain ⟨i, below, isPage⟩ := pages page (by simp [later])
      rw [next] at isPage
      exact ⟨i + 1, by omega, by omega⟩

/-- A call of `paging_map_to` over pages that have tables changes the pages it covers only. -/
theorem pagingMapTo_remaps {virt phys physEnd : Nat} {state : PagingState α}
    (tree : PagingTree taken state.mem desc.pml)
    (mapped : ∀ page < 2 ^ 36, PagingCall.covers (.mapTo virt phys physEnd flags) page ≠ none →
      Radix.walk childTable state.mem desc.pml (wordOf (page * pagingPageSize)) ≠ none) :
    ∃ covered, Remaps taken desc.pml covered state
        (pagingMapTo kzalloc desc virt phys physEnd flags state).2 ∧
      ∀ page, covered page ≠ none → PagingCall.covers (.mapTo virt phys physEnd flags) page ≠ none := by
  by_cases accepted : MapToValid virt phys physEnd
  · obtain ⟨virtAligned, physAligned, endAligned, ordered⟩ := accepted
    simp only [PagingCall.covers, if_pos (show MapToValid virt phys physEnd from
      ⟨virtAligned, physAligned, endAligned, ordered⟩)] at mapped ⊢
    have bound := pageNumber_lt virt
    have inRange : ∀ i < (physEnd - phys) / pagingPageSize,
        rangeCovers virt phys ((physEnd - phys) / pagingPageSize) flags
          ((pageNumber virt + i) % 2 ^ 36) ≠ none := by
      intro i below
      simp only [rangeCovers]
      rw [if_pos]
      · simp
      · have offset : ((pageNumber virt + i) % 2 ^ 36 + 2 ^ 36 - pageNumber virt) % 2 ^ 36 =
            i % 2 ^ 36 := by omega
        rw [offset]
        exact (Nat.mod_le _ _).trans_lt below
    simp only [pagingMapTo, pagingMapRange, virtAligned, physAligned, endAligned,
      if_neg (Nat.not_lt.mpr ordered), ne_eq, not_true_eq_false, if_false]
    obtain ⟨covered, remaps, pages⟩ := @mapRangeLoop_remaps α kzalloc taken desc flags _ virt phys 0
      state tree fun i below => mapped _ (Nat.mod_lt _ (by decide)) (inRange i below)
    refine ⟨covered, remaps, fun page isCovered => ?_⟩
    obtain ⟨i, below, rfl⟩ := pages page isCovered
    exact inRange i below
  · have refused : (pagingMapTo kzalloc desc virt phys physEnd flags state).2 = state := by
      simp only [pagingMapTo]
      split_ifs with virtOff physOff endOff order
      iterate 4 rfl
      exact absurd ⟨not_not.mp virtOff, not_not.mp physOff, not_not.mp endOff, Nat.not_lt.mp order⟩
        accepted
    rw [refused]
    exact ⟨_, .refl tree, fun page covered => absurd rfl covered⟩

end Untouched

/-- The pages that no call has touched are as they were at the start. -/
structure Framed (start next : ProcessMemory) : Prop where
  desc : next.desc = start.desc
  tree : PagingTree (fun _ => True) next.paging.mem start.desc.pml
  tables : ∀ path, path.length ≤ 3 → Radix.walk childTable next.paging.mem start.desc.pml path =
    Radix.walk childTable start.paging.mem start.desc.pml path
  leaves : ∀ virt, ¬ Touched next.history (pageNumber virt) →
    leafMapping (leafOf next.paging.mem start.desc.pml virt) =
      leafMapping (leafOf start.paging.mem start.desc.pml virt)

theorem Framed.refl {start : ProcessMemory}
    (tree : PagingTree (fun _ => True) start.paging.mem start.desc.pml) : Framed start start :=
  ⟨rfl, tree, fun _ _ => rfl, fun _ _ => rfl⟩

theorem Framed.mapRange {start next : ProcessMemory} (framed : Framed start next) {ptr size flags : Nat}
    (tables : ∀ page < 2 ^ 36, Touched (mapRangeOf next ptr size flags).2.history page →
      Radix.walk childTable start.paging.mem start.desc.pml (wordOf (page * pagingPageSize)) ≠ none) :
    Framed start (mapRangeOf next ptr size flags).2 := by
  have history : (mapRangeOf next ptr size flags).2.history =
      next.history ++ [.mapTo ptr ptr (rangeEnd ptr size) flags] := rfl
  have paging : (mapRangeOf next ptr size flags).2.paging =
      (pagingMapTo kzalloc start.desc ptr ptr (rangeEnd ptr size) flags next.paging).2 := by
    rw [← framed.desc]
    rfl
  rw [history] at tables
  obtain ⟨covered, remaps, pages⟩ := @pagingMapTo_remaps Heap kzalloc (fun _ => True) start.desc flags
    ptr ptr (rangeEnd ptr size) next.paging framed.tree (fun page isPage covers => by
      rw [framed.tables _ (by simp [wordOf])]
      exact tables page isPage ((touched_append _ _ _).mpr (.inr covers)))
  refine ⟨framed.desc, ?_, ?_, ?_⟩
  · rw [paging]
    exact remaps.tree
  · intro path short
    rw [paging, remaps.tables path short, framed.tables path short]
  · intro virt untouched
    rw [history, touched_append, not_or, not_not] at untouched
    have outside : covered (pageNumber virt) = none := by
      by_contra isCovered
      exact pages _ isCovered untouched.2
    rw [paging, remaps.leaves, outside, Option.getD_none, framed.leaves virt untouched.1]

/-- The calls that a program makes over heap pages leave the others alone. -/
theorem Evolves.framed {process next : ProcessMemory} (evolves : Evolves process next) :
    ∀ {start : ProcessMemory}, Framed start process →
      (∀ page < 2 ^ 36, Touched next.history page →
        Radix.walk childTable start.paging.mem start.desc.pml (wordOf (page * pagingPageSize)) ≠ none) →
      Framed start next := by
  induction evolves with
  | refl =>
    intro start framed _
    exact framed
  | heap _ _ allocations ih =>
    intro start framed tables
    have before := ih framed tables
    exact ⟨before.desc, before.tree, before.tables, before.leaves⟩
  | mapped _ ptr size flags ih =>
    intro start framed tables
    apply (ih framed ?_).mapRange tables
    intro page isPage touched
    exact tables page isPage ((touched_append _ _ _).mpr (.inl touched))

theorem Evolves.samePool {process next : ProcessMemory} (evolves : Evolves process next) :
    SamePool process.paging.alloc next.paging.alloc := by
  induction evolves with
  | refl => exact .refl _
  | heap _ same _ ih => exact ih.trans same
  | @mapped next _ ptr size flags ih =>
    have stays : ∀ (alloc : Heap) (size : Nat), SamePool next.paging.alloc alloc →
        SamePool next.paging.alloc (kzalloc alloc size).2 :=
      fun alloc size same => same.trans (samePool_heapZalloc alloc size)
    have mapped := @pagingMapTo_alloc Heap kzalloc (SamePool next.paging.alloc) stays next.desc ptr ptr
      (rangeEnd ptr size) flags next.paging (.refl _)
    exact ih.trans mapped

/-! ## The runs of a program -/

/-- The blocks of the kernel's heap are whole pages of usable memory. -/
theorem kheapInit_ramPage {tableBytes : Nat → UInt8} {map : List E820Entry} {heaps : Heaps}
    (init : kheapInit tableBytes map = some heaps) (inReach : InReach map) {heap : Heap}
    (same : SamePool (heaps.heapAt 0) heap) {block : Nat} (inTable : block < heap.table.total) :
    RamPage map (pageNumber (blockAddress heap block)) := by
  obtain ⟨-, index, entry, chosen, found, laidOut⟩ := kheapInit_spec init
  have listed := List.mem_of_getElem? found
  have small := inReach entry listed
  have placed := kheapLayout_placed (chosen_long chosen found) (by unfold addressSpace; omega)
  obtain ⟨inMap, fits, -⟩ := List.findIdx?_eq_some_iff_getElem.mp chosen
  rw [List.getElem?_eq_getElem inMap, Option.some.injEq] at found
  rw [found] at fits
  have usable : entry.type = 1 := (of_decide_eq_true fits).1
  have start := laidOut.saddr
  have last := laidOut.eaddr
  have aligned := laidOut.aligned
  have oneEach := laidOut.oneEach
  rw [placed.heapAddress, placed.heapTableAddress] at start
  rw [placed.heapEndAddress] at last
  rw [same.total] at inTable
  have below : (block + 1) * viosHeapBlockSize ≤ (heaps.heapAt 0).table.total * viosHeapBlockSize :=
    Nat.mul_le_mul_right _ inTable
  have base := Nat.le_max_left entry.baseAddr.toNat viosMinimalHeapTableAddress
  have lower : entry.baseAddr.toNat ≤ (heaps.heapAt 0).saddr := by omega
  have upper : (heaps.heapAt 0).saddr + (block + 1) * viosHeapBlockSize ≤ entry.endAddr := by omega
  have page : pageNumber (blockAddress heap block) * pagingPageSize =
      (heaps.heapAt 0).saddr + block * viosHeapBlockSize := by
    rw [blockAddress, same.saddr, pageNumber]
    unfold viosHeapBlockSize pagingPageSize at *
    omega
  refine .inr ⟨entry, listed, usable, by omega, ?_⟩
  rw [Nat.succ_mul, page]
  rw [Nat.succ_mul] at upper
  exact (Nat.add_assoc _ _ _).trans_le upper

/-- The pages seen by user code are the same where the tables and the last entries are. -/
theorem userAccessible_congr {taken taken' : Nat → Prop} {mem mem' : Nat → Nat → PagingDescEntry}
    {pml virt : Nat} (tree : PagingTree taken mem pml) (tree' : PagingTree taken' mem' pml)
    (tables : Radix.walk childTable mem' pml (wordOf virt) = Radix.walk childTable mem pml (wordOf virt))
    (leaves : leafMapping (leafOf mem' pml virt) = leafMapping (leafOf mem pml virt)) :
    UserAccessible mem' pml virt ↔ UserAccessible mem pml virt := by
  by_cases there : Radix.walk childTable mem pml (wordOf virt) = none
  · simp [UserAccessible, hardwareWalk_eq tree, hardwareWalk_eq tree', tables, there]
  · rw [userAccessible_iff tree there, userAccessible_iff tree' (by rwa [tables]), leaves]

/-- What a run keeps. -/
structure RunKept (start process : ProcessMemory) : Prop where
  inv : MemoryInv process
  same : SamePool start.paging.alloc process.paging.alloc
  framed : Framed start process

theorem RunKept.step {start process next : ProcessMemory} {op : MemoryOp} (begins : MemoryInv start)
    (kept : RunKept start process) (step : memoryStep process op next) (keeps : op.Keeps process) :
    RunKept start next := by
  have inv := kept.inv.step step keeps
  have evolves := Evolves.step step
  have same := kept.same.trans evolves.samePool
  refine ⟨inv, same, evolves.framed kept.framed ?_⟩
  intro page isPage touched
  obtain ⟨block, inTable, isBlock⟩ := inv.pages.touched page isPage touched
  rw [same.total] at inTable
  rw [isBlock, blockPage_same same, ← blockAddress_eq_page begins.held.pool]
  exact begins.pages.tables block inTable

section Loaded

variable {α : Type*} {zalloc : α → Nat → Nat × α} {valid : α → Prop} {taken : α → Nat → Prop}
  {desc : PagingDesc} {before created : PagingState α} {map : List E820Entry} {image : ProgramImage}
  {stack : Nat} {tableBytes : Nat → UInt8} {heaps : Heaps} {heap : Heap}

/-- A process whose memory has been mapped, with the kernel's heap as it is then. -/
def loadedProcess (zalloc : α → Nat → Nat × α) (desc : PagingDesc) (map : List E820Entry)
    (image : ProgramImage) (stack : Nat) (created : PagingState α) (heap : Heap) : ProcessMemory :=
  ⟨⟨(processMapMemory zalloc desc map image stack created).2.mem, heap⟩, desc, ⟨0, [], 0⟩, []⟩

/-- Such a process is ready for the calls of its program. -/
theorem loadedProcess_start (contract : BlockContract zalloc valid taken)
    (beforeValid : valid before.alloc) (init : kheapInit tableBytes map = some heaps)
    (inReach : InReach map) (loads : LoadsProcess zalloc desc map image stack before created)
    (legal : ∀ call ∈ programCalls image stack, call.Legal) (pool : Pool heap)
    (same : SamePool (heaps.heapAt 0) heap) :
    ProcessStart (loadedProcess zalloc desc map image stack created heap) := by
  have allLegal : ∀ call ∈ e820Calls map ++ programCalls image stack, call.Legal := by
    intro call member
    cases List.mem_append.mp member with
    | inl first => exact e820Calls_legal inReach call first
    | inr second => exact legal call second
  rw [loadedProcess, processMapMemory_calls loads.succeeds]
  apply ProcessStart.of_calls contract beforeValid loads.new loads.provided allLegal loads.tables pool
  intro block inTable
  rw [lastWriter_append, e820_lastWriter inReach (pageNumber_lt _), ramMapping,
    if_pos (kheapInit_ramPage init inReach same inTable)]
  cases lastWriter (programCalls image stack) (pageNumber (blockAddress heap block)) <;> simp

/-- From the load on, in every state of every run of memory calls, user code reaches the pages of the
recorded allocations, and those pages of the program and of the stack that no call has touched. -/
theorem accessible_iff (contract : BlockContract zalloc valid taken) (beforeValid : valid before.alloc)
    (init : kheapInit tableBytes map = some heaps) (inReach : InReach map)
    (loads : LoadsProcess zalloc desc map image stack before created)
    (legal : ∀ call ∈ programCalls image stack, call.Legal) (pool : Pool heap)
    (same : SamePool (heaps.heapAt 0) heap) {run : List (MemoryOp × ProcessMemory)}
    (isRun : IsRun memoryStep (loadedProcess zalloc desc map image stack created heap) run)
    (keeps : EveryStep (fun state op => op.Keeps state)
      (loadedProcess zalloc desc map image stack created heap) run) :
    ∀ state ∈ runStates (loadedProcess zalloc desc map image stack created heap) run, ∀ virt,
      UserAccessible state.paging.mem state.desc.pml virt ↔
        Recorded state.allocations.elems (pageNumber virt) ∨
          (¬ Touched state.history (pageNumber virt) ∧
            Touched (programCalls image stack) (pageNumber virt)) := by
  have start := loadedProcess_start contract beforeValid init inReach loads legal pool same
  have begins := MemoryInv.of_start start
  intro state member virt
  have preserves : ∀ s op t, memoryStep s op t → op.Keeps s →
      RunKept (loadedProcess zalloc desc map image stack created heap) s →
      RunKept (loadedProcess zalloc desc map image stack created heap) t :=
    fun _ _ _ step allowed kept => kept.step begins step allowed
  have kept := inv_of_everyStep preserves isRun keeps ⟨begins, .refl _, .refl start.tree⟩ state member
  have isPage := pageNumber_lt virt
  have exact := kept.inv.pages.exact _ isPage
  by_cases touched : Touched state.history (pageNumber virt)
  · rw [kept.inv.userAccessible_iff touched, ← exact]
    simp [touched]
  · have unrecorded : ¬ Recorded state.allocations.elems (pageNumber virt) :=
      fun recorded => touched (exact.mpr recorded).1
    have translates := processMapMemory_translates contract inReach beforeValid loads legal virt
    rw [kept.framed.desc, userAccessible_congr start.tree kept.framed.tree
      (kept.framed.tables _ (by simp [wordOf])) (kept.framed.leaves virt touched)]
    simp only [unrecorded, touched, not_false_eq_true, true_and, false_or, loadedProcess]
    exact userAccessible_programSpace translates

end Loaded

/-! ## A process of 128 MiB of memory -/

theorem nextTable_bump (state : PagingState Nat) (table index : Nat) :
    state.alloc ≤ (nextTable bumpAlloc state table index).2.alloc ∧
      (nextTable bumpAlloc state table index).2.alloc ≤ state.alloc + 1 := by
  simp only [nextTable, newTable, bumpAlloc]
  split_ifs <;> simp

/-- A page takes at most three tables. -/
theorem tablesOk_bump {state : PagingState Nat} (positive : 0 < state.alloc)
    (room : state.alloc + 3 ≤ 0x10000000000) (desc : PagingDesc) (virt phys flags : Nat) :
    TablesOk bumpAlloc desc.pml virt state ∧
      0 < (pagingMap bumpAlloc desc virt phys flags state).2.alloc ∧
      (pagingMap bumpAlloc desc virt phys flags state).2.alloc ≤ state.alloc + 3 := by
  have provides : ∀ (s : PagingState Nat) table index, 0 < s.alloc → s.alloc < 0x10000000000 →
      NextTableOk bumpAlloc s table index := by
    intro s table index pos below _
    simp only [bumpAlloc, if_pos below, pagingPageSize]
    omega
  have pdpt := nextTable_bump state desc.pml (pml4Index virt)
  have pd := nextTable_bump (nextTable bumpAlloc state desc.pml (pml4Index virt)).2
    (nextTable bumpAlloc state desc.pml (pml4Index virt)).1 (pdptIndex virt)
  have pt := nextTable_bump (nextTable bumpAlloc
    (nextTable bumpAlloc state desc.pml (pml4Index virt)).2
    (nextTable bumpAlloc state desc.pml (pml4Index virt)).1 (pdptIndex virt)).2
    (nextTable bumpAlloc (nextTable bumpAlloc state desc.pml (pml4Index virt)).2
      (nextTable bumpAlloc state desc.pml (pml4Index virt)).1 (pdptIndex virt)).1 (pdIndex virt)
  refine ⟨⟨provides _ _ _ (by omega) (by omega), provides _ _ _ (by omega) (by omega),
    provides _ _ _ (by omega) (by omega)⟩, ?_, ?_⟩ <;> simp only [pagingMap, pageTableOf] <;> omega

theorem rangeOk_bump (desc : PagingDesc) (flags count : Nat) : ∀ (virt phys : Nat) (res : Int)
    (state : PagingState Nat), 0 < state.alloc → state.alloc + 3 * count ≤ 0x10000000000 →
    RangeOk bumpAlloc desc flags count virt phys state ∧
      0 < (mapRangeLoop bumpAlloc desc flags count virt phys res state).2.alloc ∧
      (mapRangeLoop bumpAlloc desc flags count virt phys res state).2.alloc ≤ state.alloc + 3 * count := by
  induction count with
  | zero =>
    intro virt phys res state positive room
    exact ⟨trivial, positive, le_rfl⟩
  | succ count ih =>
    intro virt phys res state positive room
    obtain ⟨tables, positive', bound⟩ := tablesOk_bump positive (by omega) desc virt phys flags
    obtain ⟨rest, positive'', bound'⟩ := ih ((virt + pagingPageSize) % addressSpace)
      ((phys + pagingPageSize) % addressSpace) 0 _ positive' (by omega)
    refine ⟨⟨tables, rest⟩, positive'', ?_⟩
    exact bound'.trans (by omega)

/-- The pages of a call of `paging_map_to`. -/
def callPages : PagingCall → Nat
  | .map _ _ _ => 1
  | .mapRange _ _ count _ => count
  | .mapTo _ phys physEnd _ => (physEnd - phys) / pagingPageSize

/-- Calls with fewer pages than a third of the blocks find all their tables. -/
theorem runOk_bump (desc : PagingDesc) (calls : List PagingCall) : ∀ (state : PagingState Nat),
    0 < state.alloc → state.alloc + 3 * (calls.map callPages).sum ≤ 0x10000000000 →
    RunOk bumpAlloc desc calls state := by
  induction calls with
  | nil =>
    intro state _ _
    trivial
  | cons call rest ih =>
    intro state positive room
    rw [List.map_cons, List.sum_cons] at room
    have step : CallOk bumpAlloc desc state call ∧ 0 < (runCall bumpAlloc desc state call).alloc ∧
        (runCall bumpAlloc desc state call).alloc ≤ state.alloc + 3 * callPages call := by
      cases call with
      | map virt phys flags => exact tablesOk_bump positive (by simp only [callPages] at room; omega) _ _ _ _
      | mapRange virt phys count flags =>
        exact rangeOk_bump desc flags count virt phys 0 state positive
          (by simp only [callPages] at room; omega)
      | mapTo virt phys physEnd flags =>
        obtain ⟨range, positive', bound⟩ := rangeOk_bump desc flags ((physEnd - phys) / pagingPageSize)
          virt phys 0 state positive (by simp only [callPages] at room; omega)
        refine ⟨fun _ => range, ?_⟩
        simp only [runCall, pagingMapTo]
        split_ifs
        iterate 4 exact ⟨positive, Nat.le_add_right _ _⟩
        exact ⟨positive', bound⟩
    exact ⟨step.1, ih _ step.2.1 (by omega)⟩

/-- The heap that `kheap_init` makes has whole blocks of usable memory. -/
theorem kheapInit_pool {tableBytes : Nat → UInt8} {map : List E820Entry} {heaps : Heaps}
    (init : kheapInit tableBytes map = some heaps) (inReach : InReach map) : Pool (heaps.heapAt 0) := by
  obtain ⟨booted, index, entry, chosen, found, laidOut⟩ := kheapInit_spec init
  have small := inReach entry (List.mem_of_getElem? found)
  have placed := kheapLayout_placed (chosen_long chosen found) (by unfold addressSpace; omega)
  have start := laidOut.saddr
  have last := laidOut.eaddr
  have oneEach := laidOut.oneEach
  rw [placed.heapAddress, placed.heapTableAddress] at start
  rw [placed.heapEndAddress] at last
  have low := Nat.le_max_right entry.baseAddr.toNat viosMinimalHeapTableAddress
  have positive : 0 < viosMinimalHeapTableAddress := by decide
  refine ⟨by omega, laidOut.aligned, by omega, oneEach, ?_⟩
  intro block inTable
  cases booted.blocks.single block inTable with
  | inl free => exact .inl free
  | inr taken =>
    right
    rw [TakenAt, taken]
    decide

/-- The mapping of a flat program is not looked at. -/
theorem processMapMemory_binary {α : Type*} (zalloc : α → Nat → Nat × α) (desc : PagingDesc)
    (map : List E820Entry) (ptr size stack : Nat) (state : PagingState α) :
    (processMapMemory zalloc desc map (.binary ptr size) stack state).1 = 0 := by
  simp only [processMapMemory, processMapBinary, lt_irrefl, if_false]

/-- A flat program of one page at 32 MiB, with its stack at 48 MiB. -/
def flatProgram : ProgramImage := .binary 0x2000000 0x1000

theorem flatProgram_loads : LoadsProcess bumpAlloc bumpDesc oneRegion flatProgram 0x3000000
    ⟨fun _ _ => nullDesc, 1⟩ bumpCreated where
  new := bumpDesc_created
  provided := by decide
  succeeds := by
    rw [flatProgram, processMapMemory_binary]
    decide
  tables := runOk_bump _ _ _ (by decide) (by decide)

theorem flatProgram_legal : ∀ call ∈ programCalls flatProgram 0x3000000, call.Legal := by
  intro call member
  simp only [programCalls, flatProgram, ProgramImage.calls, List.cons_append, List.nil_append,
    List.mem_cons, List.not_mem_nil, or_false] at member
  cases member with
  | inl program =>
    subst program
    exact fun _ => ⟨by decide, by decide⟩
  | inr last =>
    subst last
    exact fun _ => ⟨by decide, by decide⟩

theorem oneRegion_inReach : InReach oneRegion := by
  unfold InReach
  decide

/-- The address of the program is that of its page. -/
theorem flatProgram_translates :
    (hardwareWalk (processMapMemory bumpAlloc bumpDesc oneRegion flatProgram 0x3000000 bumpCreated).2.mem
      bumpDesc.pml 0x400010).map Prod.snd = some ⟨0x2000, true, true, true⟩ :=
  processMapMemory_translates bumpAlloc_contract oneRegion_inReach trivial flatProgram_loads
    flatProgram_legal 0x400010

/-- This process. -/
def flatProcess (heap : Heap) : ProcessMemory :=
  loadedProcess bumpAlloc bumpDesc oneRegion flatProgram 0x3000000 bumpCreated heap

/-- After `process_malloc` the program reaches its stack and the page it was given, and not the page
behind, where the kernel keeps the records of its allocations. -/
theorem flatProgram_accessible : ∃ heaps next, kheapInit (fun _ => 0) oneRegion = some heaps ∧
    processMalloc (flatProcess (heaps.heapAt 0)) 4096 = some (0x1009000, next) ∧
    UserAccessible next.paging.mem next.desc.pml 0x1009010 ∧
    UserAccessible next.paging.mem next.desc.pml 0x3FEFF8 ∧
    ¬ UserAccessible next.paging.mem next.desc.pml 0x100A000 := by
  have booted : (kheapInit (fun _ => 0) oneRegion).map (fun heaps =>
      ((heaps.heapAt 0).saddr, (kzalloc (heaps.heapAt 0) 4096).1,
        heapGetStartBlock (kzalloc (heaps.heapAt 0) 4096).2 1)) = some (0x1007000, 0x1009000, 3) := by
    decide +kernel
  obtain ⟨heaps, init, values⟩ := Option.map_eq_some_iff.mp booted
  obtain ⟨saddr, provided, room⟩ : _ ∧ _ ∧ _ := by simpa only [Prod.mk.injEq] using values
  have pool := kheapInit_pool init oneRegion_inReach
  have start := loadedProcess_start bumpAlloc_contract trivial init oneRegion_inReach
    flatProgram_loads flatProgram_legal pool (.refl _)
  -- the first free block is the third one
  rcases kzalloc_spec pool 4096 with none | ⟨block, heap, result, taken⟩
  · rw [none] at provided
    exact absurd (show 0 = 0x1009000 from provided) (by decide)
  have isThird : block = 2 := by
    rw [result, blockAddress, saddr] at provided
    simp only [viosHeapBlockSize] at provided
    omega
  subst isThird
  have keeps : (MemoryOp.malloc 4096).Keeps (flatProcess (heaps.heapAt 0)) := by
    have found : kzalloc (flatProcess (heaps.heapAt 0)).paging.alloc 4096 = (_, heap) := result
    rw [result] at room
    simp only [MemoryOp.Keeps, found]
    intro _ _ _
    -- the records take one block
    have one : blocksForSize (growthBytes ⟨0, [], 0⟩) = 1 := by decide
    change 0 ≤ heapGetStartBlock heap (blocksForSize (growthBytes ⟨0, [], 0⟩))
    rw [one]
    simp only at room
    omega
  obtain ⟨next, isNext, same, inv, recorded⟩ :=
    (MemoryInv.of_start start).malloc_spec (by decide) keeps result taken
  have inRun : ∀ page, InRun (heaps.heapAt 0) 2 (blocksForSize 4096) page ↔ page = 0x1009 := by
    intro page
    have one : blocksForSize 4096 = 1 := by decide
    simp only [InRun, blockPage, saddr, one, pagingPageSize]
    omega
  have onlyGiven : ∀ page, Recorded next.allocations.elems page ↔ page = 0x1009 := by
    intro page
    refine (recorded page).trans ((or_iff_right ?_).trans (inRun page))
    rintro ⟨_, member, -⟩
    exact absurd member List.not_mem_nil
  have given : processMalloc (flatProcess (heaps.heapAt 0)) 4096 = some (0x1009000, next) := by
    rw [← provided, result]
    exact isNext
  have isRun : IsRun memoryStep (flatProcess (heaps.heapAt 0)) [(.malloc 4096, next)] :=
    ⟨⟨by decide, 0x1009000, given⟩, trivial⟩
  have reaches := accessible_iff bumpAlloc_contract trivial init oneRegion_inReach flatProgram_loads
    flatProgram_legal pool (.refl _) isRun ⟨keeps, trivial⟩ next
    (List.mem_cons_of_mem _ List.mem_cons_self)
  refine ⟨heaps, next, init, given, (reaches _).mpr (.inl ((onlyGiven _).mpr (by decide))),
    (reaches _).mpr (.inr ⟨fun touched => ?_, _, List.mem_cons_of_mem _ List.mem_cons_self, by decide⟩),
    fun reached => ?_⟩
  · -- the calls touch pages of the heap only
    obtain ⟨block, -, isBlock⟩ := inv.pages.touched _ (pageNumber_lt _) touched
    have low : pageNumber 0x3FEFF8 = 0x3FE := by decide
    have above : next.paging.alloc.saddr = 0x1007000 := same.saddr.trans saddr
    rw [low, blockPage, above, pagingPageSize] at isBlock
    omega
  · rcases (reaches _).mp reached with isRecorded | ⟨-, call, member, covers⟩
    · exact absurd ((onlyGiven _).mp isRecorded) (by decide)
    · revert call
      decide

end ViOS.Process
