import ViOS.Memory.HeapRuns
import ViOS.Task.ProcessBlocks

/-! # Loading and mapping ELF files

`elf_load` reads a file into a block of the kernel heap, checks the ELF header and
walks the program headers; `process_map_elf` then maps every program header for user
code.  The header is the only part that is checked.

The physical memory is a function on addresses, since the loader clears memory behind
a segment and may overwrite the headers it has yet to read.

* `elfLoad`, `processMapElf` — the code.
* `PageWrite`, `elfWrites` — the calls of `paging_map` it makes, in order.
* `elf_confined_iff` — when all of them stay in the program's space and in the image.
-/

namespace ViOS.Loader

open ViOS.Memory ViOS.Process

/-! ## The file format -/

def ptLoad : Nat := 1
def pfW : Nat := 0x02
def etExec : Nat := 2

/-- The bytes of memory. -/
abbrev Ram := Nat → UInt8

/-- A little-endian number of `size` bytes. -/
def readLE (mem : Ram) (address : Nat) : (size : Nat) → Nat
  | 0 => 0
  | size + 1 => (mem address).toNat + 256 * readLE mem (address + 1) size

/-- The fields of `struct elf_header` that the loader reads. -/
structure ElfHeader where
  signature : List UInt8
  identClass : UInt8
  identData : UInt8
  eType : Nat
  eEntry : Nat
  ePhoff : Nat
  ePhnum : Nat
  deriving DecidableEq, Repr

/-- `elf_header`. -/
def elfHeader (mem : Ram) (elfMemory : Nat) : ElfHeader where
  signature := (List.range 4).map fun i => mem (elfMemory + i)
  identClass := mem (elfMemory + 4)
  identData := mem (elfMemory + 5)
  eType := readLE mem (elfMemory + 16) 2
  eEntry := readLE mem (elfMemory + 24) 8
  ePhoff := readLE mem (elfMemory + 32) 8
  ePhnum := readLE mem (elfMemory + 56) 2

/-- The fields of `struct elf64_phdr` that the loader reads. -/
structure Elf64Phdr where
  pType : Nat
  pFlags : Nat
  pOffset : Nat
  pVaddr : Nat
  pFilesz : Nat
  pMemsz : Nat
  deriving DecidableEq, Repr

/-- `sizeof(struct elf64_phdr)`. -/
def elf64PhdrSize : Nat := 56

/-- `elf_pheader`. -/
def elfPheader (mem : Ram) (elfMemory : Nat) : Nat :=
  let header := elfHeader mem elfMemory
  if header.ePhoff = 0 then 0 else (elfMemory + header.ePhoff) % addressSpace

/-- `elf_program_header`. -/
def elfProgramHeader (mem : Ram) (elfMemory index : Nat) : Elf64Phdr :=
  let address := (elfPheader mem elfMemory + index * elf64PhdrSize) % addressSpace
  { pType := readLE mem address 4
    pFlags := readLE mem (address + 4) 4
    pOffset := readLE mem (address + 8) 8
    pVaddr := readLE mem (address + 16) 8
    pFilesz := readLE mem (address + 32) 8
    pMemsz := readLE mem (address + 40) 8 }

/-! ## `elf_load` -/

/-- `struct elf_file`. -/
structure ElfFile where
  elfMemory : Nat
  virtualBaseAddress : Nat
  virtualEndAddress : Nat
  physicalBaseAddress : Nat
  physicalEndAddress : Nat
  deriving DecidableEq, Repr

def elfValidSignature (header : ElfHeader) : Bool := header.signature = [0x7f, 0x45, 0x4c, 0x46]

def elfValidClass (header : ElfHeader) : Bool := header.identClass = 0 || header.identClass = 2

def elfValidEncoding (header : ElfHeader) : Bool := header.identData = 0 || header.identData = 1

/-- `elf_is_executable`. -/
def elfIsExecutable (header : ElfHeader) : Bool :=
  header.eType = etExec && viosProgramVirtualAddress ≤ header.eEntry

def elfHasProgramHeader (header : ElfHeader) : Bool := header.ePhoff ≠ 0

/-- `elf_validate_loaded`. -/
def elfValidateLoaded (header : ElfHeader) : Int :=
  if elfValidSignature header && elfValidClass header && elfValidEncoding header &&
      elfHasProgramHeader header && elfIsExecutable header then viosAllOk
  else -einformat

/-- `memset` in memory; its counter is an `int`. -/
def memsetRam (mem : Ram) (address : Nat) (size : Nat) : Option Ram :=
  if size < 2 ^ 31 then
    some fun a => if (a + (addressSpace - address % addressSpace)) % addressSpace < size then 0 else mem a
  else none

/-- `elf_phdr_phys_address`. -/
def elfPhdrPhysAddress (file : ElfFile) (phdr : Elf64Phdr) : Nat :=
  (file.elfMemory + phdr.pOffset) % addressSpace

/-- `elf_process_phdr_pt_load`. -/
def elfProcessPhdrPtLoad (mem : Ram) (file : ElfFile) (phdr : Elf64Phdr) : Option (Ram × ElfFile) :=
  let file :=
    if phdr.pVaddr ≤ file.virtualBaseAddress ∨ file.virtualBaseAddress = 0 then
      { file with
        virtualBaseAddress := phdr.pVaddr
        physicalBaseAddress := elfPhdrPhysAddress file phdr }
    else file
  let endVirtualAddress := (phdr.pVaddr + phdr.pFilesz) % addressSpace
  let file :=
    if file.virtualEndAddress ≤ endVirtualAddress ∨ file.virtualEndAddress = 0 then
      { file with
        virtualEndAddress := endVirtualAddress
        physicalEndAddress := (elfPhdrPhysAddress file phdr + phdr.pFilesz) % addressSpace }
    else file
  if phdr.pFilesz < phdr.pMemsz then
    (memsetRam mem (file.physicalBaseAddress + phdr.pFilesz) (phdr.pMemsz - phdr.pFilesz)).map
      fun mem => (mem, file)
  else some (mem, file)

/-- `elf_process_pheader`. -/
def elfProcessPheader (mem : Ram) (file : ElfFile) (phdr : Elf64Phdr) : Option (Ram × ElfFile) :=
  if phdr.pType = ptLoad then elfProcessPhdrPtLoad mem file phdr else some (mem, file)

/-- The loop of `elf_process_pheaders`; the number of headers is read again each time, and is a
`uint16_t`. -/
def pheadersLoop : (fuel i : Nat) → Ram → ElfFile → Option (Ram × ElfFile)
  | 0, _, mem, file => some (mem, file)
  | fuel + 1, i, mem, file =>
    if i < (elfHeader mem file.elfMemory).ePhnum then
      match elfProcessPheader mem file (elfProgramHeader mem file.elfMemory i) with
      | none => none
      | some (mem, file) => pheadersLoop fuel (i + 1) mem file
    else some (mem, file)

/-- `elf_process_loaded`. -/
def elfProcessLoaded (mem : Ram) (file : ElfFile) : Option (Int × Ram × ElfFile) :=
  let res := elfValidateLoaded (elfHeader mem file.elfMemory)
  if res < 0 then some (res, mem, file)
  else (pheadersLoop (2 ^ 16) 0 mem file).map fun (mem, file) => (0, mem, file)

/-- The memory once the contents of the file were read to `elfMemory`. -/
def readInto (contents : List UInt8) (mem : Ram) (elfMemory : Nat) : Ram := fun a =>
  if elfMemory ≤ a ∧ a < elfMemory + contents.length then contents.getD (a - elfMemory) 0 else mem a

/-- `elf_load`, once the block for the file is allocated: the status, the memory and the loaded
file. -/
def elfLoad (contents : List UInt8) (mem : Ram) (elfMemory : Nat) : Option (Int × Ram × ElfFile) :=
  elfProcessLoaded (readInto contents mem elfMemory) ⟨elfMemory, 0, 0, 0, 0⟩

/-! ## `process_map_elf` -/

/-- The arguments of `paging_map_to` for a program header. -/
structure ElfRange where
  virt : Nat
  phys : Nat
  physEnd : Nat
  flags : Nat
  deriving DecidableEq, Repr

/-- The range that `process_map_elf` maps for a program header, whatever its type. -/
def elfRange (file : ElfFile) (phdr : Elf64Phdr) : ElfRange :=
  let phdrPhysAddress := elfPhdrPhysAddress file phdr
  let flags := pagingIsPresent ||| pagingAccessFromAll
  { virt := pagingAlignToLowerPage phdr.pVaddr
    phys := pagingAlignToLowerPage phdrPhysAddress
    physEnd := pagingAlignAddress ((phdrPhysAddress + phdr.pMemsz) % addressSpace)
    flags := if phdr.pFlags &&& pfW ≠ 0 then flags ||| pagingIsWriteable else flags }

/-- The program headers of a loaded file. -/
def elfPheaders (mem : Ram) (file : ElfFile) : List Elf64Phdr :=
  (List.range (elfHeader mem file.elfMemory).ePhnum).map (elfProgramHeader mem file.elfMemory)

section Map

variable {α : Type*} (kzalloc : α → Nat → Nat × α) (desc : PagingDesc)

/-- The loop of `process_map_elf`. -/
def mapElfLoop (file : ElfFile) : List Elf64Phdr → (res : Int) → PagingState α → Int × PagingState α
  | [], res, state => (res, state)
  | phdr :: rest, _, state =>
    let range := elfRange file phdr
    let (res, state) := pagingMapTo kzalloc desc range.virt range.phys range.physEnd range.flags state
    if res < 0 then (res, state) else mapElfLoop file rest res state

/-- `process_map_elf`. -/
def processMapElf (mem : Ram) (file : ElfFile) (state : PagingState α) : Int × PagingState α :=
  mapElfLoop kzalloc desc file (elfPheaders mem file) 0 state

end Map

/-! ## The pages that are mapped -/

/-- A call of `paging_map`. -/
structure PageWrite where
  virt : Nat
  phys : Nat
  flags : Nat
  deriving DecidableEq, Repr

/-- The calls of `paging_map` for `count` pages. -/
def rangeWrites (virt phys count flags : Nat) : List PageWrite :=
  (List.range count).map fun i =>
    ⟨(virt + i * pagingPageSize) % addressSpace, (phys + i * pagingPageSize) % addressSpace, flags⟩

/-- The number of pages of a range. -/
def ElfRange.pages (range : ElfRange) : Nat := (range.physEnd - range.phys) / pagingPageSize

/-- The calls of `paging_map` for a range. -/
def ElfRange.writes (range : ElfRange) : List PageWrite :=
  rangeWrites range.virt range.phys range.pages range.flags

/-- `paging_map_to` accepts the range. -/
def ElfRange.accepted (range : ElfRange) : Bool := range.phys ≤ range.physEnd

/-- The ranges that are mapped: those before the first that `paging_map_to` refuses. -/
def elfRanges (mem : Ram) (file : ElfFile) : List ElfRange :=
  ((elfPheaders mem file).map (elfRange file)).takeWhile ElfRange.accepted

/-- The calls of `paging_map` that `process_map_elf` makes. -/
def elfWrites (mem : Ram) (file : ElfFile) : List PageWrite := (elfRanges mem file).flatMap ElfRange.writes

/-- The page lies in the program's space and its frame in the block `[start, start + size)`. -/
def PageWrite.Confined (write : PageWrite) (start size : Nat) : Prop :=
  viosProgramVirtualAddress ≤ pageNumber write.virt * pagingPageSize ∧
    start ≤ addressField write.phys * pagingPageSize ∧
    (addressField write.phys + 1) * pagingPageSize ≤ start + size

/-- The range is empty, or its pages, cut to the 48 bits of a virtual address, lie in the program's
space, and its frames, cut to the 52 bits of a physical address, in the block. -/
def ElfRange.Fits (range : ElfRange) (start size : Nat) : Prop :=
  range.pages = 0 ∨
    viosProgramVirtualAddress ≤ range.virt % 2 ^ 48 ∧
      range.virt % 2 ^ 48 + range.pages * pagingPageSize ≤ 2 ^ 48 ∧
      start ≤ range.phys % 2 ^ 52 ∧ range.phys % 2 ^ 52 + range.pages * pagingPageSize ≤ start + size

section Writes

variable {α : Type*} (kzalloc : α → Nat → Nat × α) (desc : PagingDesc)

/-- A call of `paging_map`. -/
def applyWrite (state : PagingState α) (write : PageWrite) : PagingState α :=
  (pagingMap kzalloc desc write.virt write.phys write.flags state).2

theorem rangeWrites_succ {virt phys count flags : Nat} (virtSmall : virt < addressSpace)
    (physSmall : phys < addressSpace) :
    rangeWrites virt phys (count + 1) flags = ⟨virt, phys, flags⟩ ::
      rangeWrites ((virt + pagingPageSize) % addressSpace) ((phys + pagingPageSize) % addressSpace)
        count flags := by
  have later : ∀ base i, ((base + pagingPageSize) % addressSpace + i * pagingPageSize) % addressSpace =
      (base + (i + 1) * pagingPageSize) % addressSpace := by
    intro base i
    rw [Nat.mod_add_mod]
    congr 1
    rw [Nat.succ_mul]
    omega
  unfold rangeWrites
  rw [List.range_succ_eq_map, List.map_cons, List.map_map]
  simp only [Nat.zero_mul, Nat.add_zero, Nat.mod_eq_of_lt virtSmall, Nat.mod_eq_of_lt physSmall,
    Function.comp_def, later]

theorem mapRangeLoop_writes (flags count : Nat) : ∀ {virt phys : Nat} {state : PagingState α},
    virt < addressSpace → phys < addressSpace →
    mapRangeLoop kzalloc desc flags count virt phys 0 state =
      (0, (rangeWrites virt phys count flags).foldl (applyWrite kzalloc desc) state) := by
  induction count with
  | zero =>
    intro virt phys state _ _
    rfl
  | succ count ih =>
    intro virt phys state virtSmall physSmall
    have wraps : ∀ n, n % addressSpace < addressSpace := fun n => Nat.mod_lt _ (by decide)
    rw [rangeWrites_succ virtSmall physSmall, List.foldl_cons, ← ih (wraps _) (wraps _)]
    rfl

/-- What `elfRange` gives to `paging_map_to`: addresses of pages. -/
structure ElfRange.Paged (range : ElfRange) : Prop where
  virt : range.virt % pagingPageSize = 0
  phys : range.phys % pagingPageSize = 0
  physEnd : range.physEnd % pagingPageSize = 0
  virtSmall : range.virt < addressSpace
  physSmall : range.phys < addressSpace

theorem pagingMapTo_writes {range : ElfRange} (paged : range.Paged) (accepted : range.accepted = true)
    (state : PagingState α) :
    pagingMapTo kzalloc desc range.virt range.phys range.physEnd range.flags state =
      (0, range.writes.foldl (applyWrite kzalloc desc) state) := by
  have ordered : ¬ range.physEnd < range.phys := Nat.not_lt.mpr (of_decide_eq_true accepted)
  rw [pagingMapTo, if_neg (not_not.mpr paged.virt), if_neg (not_not.mpr paged.phys),
    if_neg (not_not.mpr paged.physEnd), if_neg ordered, pagingMapRange,
    mapRangeLoop_writes kzalloc desc _ _ paged.virtSmall paged.physSmall]
  rfl

theorem pagingMapTo_refused {range : ElfRange} (paged : range.Paged)
    (refused : range.accepted = false) (state : PagingState α) :
    pagingMapTo kzalloc desc range.virt range.phys range.physEnd range.flags state =
      (-einvarg, state) := by
  have ordered : range.physEnd < range.phys := Nat.not_le.mp (of_decide_eq_false refused)
  rw [pagingMapTo, if_neg (not_not.mpr paged.virt), if_neg (not_not.mpr paged.phys),
    if_neg (not_not.mpr paged.physEnd), if_pos ordered]

/-- The loop makes the calls of the ranges before the first that is refused. -/
theorem mapElfLoop_writes (file : ElfFile) (phdrs : List Elf64Phdr)
    (paged : ∀ phdr ∈ phdrs, (elfRange file phdr).Paged) : ∀ (res : Int) (state : PagingState α),
    (mapElfLoop kzalloc desc file phdrs res state).2 =
      (((phdrs.map (elfRange file)).takeWhile ElfRange.accepted).flatMap ElfRange.writes).foldl
        (applyWrite kzalloc desc) state := by
  induction phdrs with
  | nil =>
    intro res state
    rfl
  | cons phdr rest ih =>
    intro res state
    have here := paged phdr List.mem_cons_self
    rw [mapElfLoop, List.map_cons, List.takeWhile_cons]
    cases decision : (elfRange file phdr).accepted with
    | false =>
      simp only [pagingMapTo_refused kzalloc desc here decision, if_pos (by decide : -einvarg < 0)]
      rfl
    | true =>
      simp only [pagingMapTo_writes kzalloc desc here decision, Int.lt_irrefl, if_false, if_true,
        List.flatMap_cons, List.foldl_append]
      exact ih (fun phdr member => paged phdr (List.mem_cons_of_mem _ member)) _ _

end Writes

theorem readLE_lt (mem : Ram) (size : Nat) : ∀ address, readLE mem address size < 256 ^ size := by
  induction size with
  | zero => simp [readLE]
  | succ size ih =>
    intro address
    have byte : (mem address).toNat < 256 := UInt8.toNat_lt _
    have rest := ih (address + 1)
    rw [readLE, Nat.pow_succ]
    omega

theorem elfRange_paged {file : ElfFile} {phdr : Elf64Phdr} (small : phdr.pVaddr < addressSpace) :
    (elfRange file phdr).Paged := by
  have physSmall : elfPhdrPhysAddress file phdr < addressSpace := Nat.mod_lt _ (by decide)
  constructor <;> simp only [elfRange, pagingAlignToLowerPage, pagingAlignAddress]
  case virtSmall => omega
  case physSmall => omega
  case physEnd =>
    unfold pagingPageSize addressSpace
    split <;> omega
  all_goals
    unfold pagingPageSize
    omega

/-- `process_map_elf` is this sequence of calls of `paging_map`. -/
theorem processMapElf_writes {α : Type*} (kzalloc : α → Nat → Nat × α) (desc : PagingDesc) (mem : Ram)
    (file : ElfFile) (state : PagingState α) :
    (processMapElf kzalloc desc mem file state).2 =
      (elfWrites mem file).foldl (applyWrite kzalloc desc) state := by
  refine mapElfLoop_writes kzalloc desc file _ ?_ 0 state
  intro phdr member
  obtain ⟨i, -, rfl⟩ := List.mem_map.mp member
  exact elfRange_paged (readLE_lt mem 8 _)

/-! ## When they are confined -/

/-- Consecutive numbers modulo `m` lie between two bounds exactly when they do without wrapping. -/
theorem wrapped_between_iff {m first count low high : Nat} (small : first < m) (positive : 0 < low)
    (fits : high ≤ m) :
    (∀ i < count, low ≤ (first + i) % m ∧ (first + i) % m < high) ↔
      count = 0 ∨ low ≤ first ∧ first + count ≤ high := by
  constructor
  · intro all
    rcases Nat.eq_zero_or_pos count with empty | nonempty
    · exact .inl empty
    -- numbers that run over the end reach zero
    have noWrap : first + count ≤ m := by
      by_contra beyond
      have zero := (all (m - first) (by omega)).1
      rw [Nat.add_sub_cancel' small.le, Nat.mod_self] at zero
      omega
    have atFirst := (all 0 nonempty).1
    have atLast := (all (count - 1) (by omega)).2
    rw [Nat.add_zero, Nat.mod_eq_of_lt small] at atFirst
    rw [Nat.mod_eq_of_lt (by omega)] at atLast
    exact .inr ⟨atFirst, by omega⟩
  · rintro (empty | ⟨lower, upper⟩) i inside
    · omega
    · rw [Nat.mod_eq_of_lt (by omega)]
      omega

theorem confined_iff_fits {range : ElfRange} (paged : range.Paged) {start size : Nat}
    (positive : 0 < start) (aligned : start % pagingPageSize = 0) (whole : size % pagingPageSize = 0)
    (fits : start + size ≤ 2 ^ 52) :
    (∀ write ∈ range.writes, write.Confined start size) ↔ range.Fits start size := by
  have virt := paged.virt
  have phys := paged.phys
  -- both page numbers wrap: the virtual one after 36 bits, the physical one after 40
  have confined : ∀ i, PageWrite.Confined ⟨(range.virt + i * pagingPageSize) % addressSpace,
      (range.phys + i * pagingPageSize) % addressSpace, range.flags⟩ start size ↔
      (0x400 ≤ (range.virt % 2 ^ 48 / pagingPageSize + i) % 2 ^ 36 ∧
        (range.virt % 2 ^ 48 / pagingPageSize + i) % 2 ^ 36 < 2 ^ 36) ∧
      (start / pagingPageSize ≤ (range.phys % 2 ^ 52 / pagingPageSize + i) % 2 ^ 40 ∧
        (range.phys % 2 ^ 52 / pagingPageSize + i) % 2 ^ 40 < (start + size) / pagingPageSize) := by
    intro i
    have page : pageNumber ((range.virt + i * pagingPageSize) % addressSpace) =
        (range.virt % 2 ^ 48 / pagingPageSize + i) % 2 ^ 36 := by
      unfold pageNumber addressSpace pagingPageSize at *
      omega
    have frame : addressField ((range.phys + i * pagingPageSize) % addressSpace) =
        (range.phys % 2 ^ 52 / pagingPageSize + i) % 2 ^ 40 := by
      unfold addressField addressSpace pagingPageSize at *
      rw [Nat.shiftRight_eq_div_pow]
      omega
    rw [PageWrite.Confined, page, frame]
    generalize range.virt % 2 ^ 48 / pagingPageSize = first
    generalize range.phys % 2 ^ 52 / pagingPageSize = firstFrame
    unfold viosProgramVirtualAddress pagingPageSize at *
    omega
  have virtSmall : range.virt % 2 ^ 48 / pagingPageSize < 2 ^ 36 := by
    unfold pagingPageSize
    omega
  have physSmall : range.phys % 2 ^ 52 / pagingPageSize < 2 ^ 40 := by
    unfold pagingPageSize
    omega
  have blockEnd : (start + size) / pagingPageSize ≤ 2 ^ 40 := by
    unfold pagingPageSize
    omega
  have blockStart : 0 < start / pagingPageSize := by
    unfold pagingPageSize at *
    omega
  simp only [ElfRange.writes, rangeWrites, List.forall_mem_map, List.mem_range, confined]
  rw [forall₂_and, wrapped_between_iff virtSmall (by decide) le_rfl,
    wrapped_between_iff physSmall blockStart blockEnd, ElfRange.Fits, ← or_and_left]
  refine or_congr_right ?_
  generalize range.pages = pages
  unfold viosProgramVirtualAddress pagingPageSize at *
  omega

theorem pheadersLoop_elfMemory (fuel : Nat) : ∀ {i : Nat} {mem mem' : Ram} {file file' : ElfFile},
    pheadersLoop fuel i mem file = some (mem', file') → file'.elfMemory = file.elfMemory := by
  induction fuel with
  | zero =>
    intro i mem mem' file file' result
    obtain ⟨-, rfl⟩ := Prod.mk.inj (Option.some.inj result)
    rfl
  | succ fuel ih =>
    intro i mem mem' file file' result
    rw [pheadersLoop] at result
    split at result
    · split at result
      · exact absurd result (by simp)
      · rename_i mem'' file'' header
        refine (ih result).trans ?_
        unfold elfProcessPheader elfProcessPhdrPtLoad at header
        simp only at header
        repeat' split at header
        all_goals
          simp only [Option.map_eq_some_iff, Option.some.injEq, Prod.mk.injEq] at header
          grind
    · obtain ⟨-, rfl⟩ := Prod.mk.inj (Option.some.inj result)
      rfl

theorem elfLoad_elfMemory {contents : List UInt8} {mem mem' : Ram} {elfMemory : Nat} {file : ElfFile}
    (accepted : elfLoad contents mem elfMemory = some (0, mem', file)) :
    file.elfMemory = elfMemory := by
  unfold elfLoad elfProcessLoaded at accepted
  simp only at accepted
  split at accepted
  · have same := congrArg (fun result => result.2.2.elfMemory) (Option.some.inj accepted)
    exact same.symm
  · obtain ⟨⟨mem'', file''⟩, looped, same⟩ := Option.map_eq_some_iff.mp accepted
    obtain ⟨-, rfl, rfl⟩ := same
    exact pheadersLoop_elfMemory _ looped

/-- The bytes of the block that `kzalloc` hands out for a size. -/
def blockBytes (size : Nat) : Nat := blocksForSize size * viosHeapBlockSize

/-- Every page that `process_map_elf` maps for an accepted file lies in the program's space and in
the block of the image exactly when every range it maps does. -/
theorem elf_confined_iff {α : Type*} (alloc : α → Nat → Nat × α) (desc : PagingDesc)
    (state : PagingState α) (heap heap' : Heap) (contents : List UInt8) (mem mem' : Ram)
    (elfMemory : Nat) (file : ElfFile) (pool : Pool heap) (provided : elfMemory ≠ 0)
    (allocated : kzalloc heap contents.length = (elfMemory, heap'))
    (accepted : elfLoad contents mem elfMemory = some (0, mem', file)) :
    (processMapElf alloc desc mem' file state).2 =
        (elfWrites mem' file).foldl (applyWrite alloc desc) state ∧
      ((∀ write ∈ elfWrites mem' file, write.Confined file.elfMemory (blockBytes contents.length)) ↔
        ∀ range ∈ elfRanges mem' file, range.Fits file.elfMemory (blockBytes contents.length)) := by
  refine ⟨processMapElf_writes alloc desc mem' file state, ?_⟩
  rw [elfLoad_elfMemory accepted]
  have block : 0 < elfMemory ∧ elfMemory % pagingPageSize = 0 ∧
      elfMemory + blockBytes contents.length ≤ 2 ^ 52 := by
    rcases kzalloc_spec pool contents.length with none | ⟨start, heap'', result, taken⟩
    · rw [none] at allocated
      exact absurd (congrArg Prod.fst allocated).symm provided
    · have address : blockAddress heap start = elfMemory :=
        congrArg Prod.fst (result.symm.trans allocated)
      have bound := pool.blockAddress_lt taken.inside
      have aligned := pool.aligned
      rw [← address]
      unfold blockAddress blockBytes viosHeapBlockSize pagingPageSize at *
      omega
  have whole : blockBytes contents.length % pagingPageSize = 0 := Nat.mul_mod_left _ _
  rw [elfWrites, List.forall_mem_flatMap]
  refine forall_congr' fun range => forall_congr' fun member => ?_
  have paged : range.Paged := by
    obtain ⟨phdr, isHeader, rfl⟩ := List.mem_map.mp (List.takeWhile_subset _ member)
    obtain ⟨i, -, rfl⟩ := List.mem_map.mp isHeader
    exact elfRange_paged (readLE_lt mem' 8 _)
  exact confined_iff_fits paged block.1 block.2.1 whole block.2.2

/-- A number in little-endian order. -/
def leBytes : (size value : Nat) → List UInt8
  | 0, _ => []
  | size + 1, value => UInt8.ofNat value :: leBytes size (value / 256)

@[simp] theorem length_leBytes (size value : Nat) : (leBytes size value).length = size := by
  induction size generalizing value with
  | zero => rfl
  | succ size ih => rw [leBytes, List.length_cons, ih]

/-- An executable with one program header, the 120 bytes of the file as a segment at `vaddr`. -/
def smallElf (vaddr : Nat) : List UInt8 :=
  [0x7f, 0x45, 0x4c, 0x46, 2, 1] ++ leBytes 10 0 ++ leBytes 2 etExec ++ leBytes 6 0 ++
    leBytes 8 0x400000 ++ leBytes 8 64 ++ leBytes 16 0 ++ leBytes 2 1 ++ leBytes 6 0 ++
    leBytes 4 ptLoad ++ leBytes 4 5 ++ leBytes 8 0 ++ leBytes 8 vaddr ++ leBytes 8 0 ++
    leBytes 8 120 ++ leBytes 8 120 ++ leBytes 8 0

def smallImage (vaddr : Nat) : Ram := readInto (smallElf vaddr) (fun _ => 0) 0x1000

/-- Where the segment of the file ends up. -/
def smallFile (vaddr : Nat) : ElfFile := ⟨0x1000, vaddr, vaddr + 120, 0x1000, 0x1078⟩

def smallHeader : ElfHeader := ⟨[0x7f, 0x45, 0x4c, 0x46], 2, 1, etExec, 0x400000, 64, 1⟩

/-- One program header without bytes to clear. -/
theorem smallElf_loaded {vaddr : Nat} (small : vaddr + 120 < addressSpace)
    (header : elfHeader (smallImage vaddr) 0x1000 = smallHeader)
    (phdr : elfProgramHeader (smallImage vaddr) 0x1000 0 = ⟨ptLoad, 5, 0, vaddr, 120, 120⟩) :
    elfLoad (smallElf vaddr) (fun _ => 0) 0x1000 =
      some (0, smallImage vaddr, smallFile vaddr) := by
  have valid : elfValidateLoaded smallHeader = 0 := by decide
  have first : elfProcessPheader (smallImage vaddr) ⟨0x1000, 0, 0, 0, 0⟩
      ⟨ptLoad, 5, 0, vaddr, 120, 120⟩ = some (smallImage vaddr, smallFile vaddr) := by
    simp [elfProcessPheader, elfProcessPhdrPtLoad, elfPhdrPhysAddress, smallFile, addressSpace]
    exact small
  have looped : pheadersLoop (65534 + 1 + 1) 0 (smallImage vaddr) ⟨0x1000, 0, 0, 0, 0⟩ =
      some (smallImage vaddr, smallFile vaddr) := by
    rw [pheadersLoop]
    simp only [header, phdr, first]
    rw [if_pos (by decide), pheadersLoop]
    simp only [smallFile, header]
    rw [if_neg (by decide)]
  rw [elfLoad, ← smallImage, elfProcessLoaded]
  have fuel : 2 ^ 16 = 65534 + 1 + 1 := by decide
  simp only [header, valid, Int.lt_irrefl, if_false]
  rw [fuel, looped]
  rfl

theorem fourBlocks_pool : Pool fourBlocks where
  saddr_pos := by decide
  aligned := by decide
  fits := by decide
  eaddr_eq := by decide
  typed := fun _ inTable => .inl (if_pos inTable)

theorem fourBlocks_kzalloc (vaddr : Nat) :
    kzalloc fourBlocks (smallElf vaddr).length = (0x1000, (kzalloc fourBlocks 120).2) := by
  have length : (smallElf vaddr).length = 120 := by
    simp [smallElf]
  rw [length]
  exact Prod.ext (by decide) rfl

/-- A segment at the start of the program's space. -/
theorem smallElf_confined :
    elfLoad (smallElf 0x400000) (fun _ => 0) 0x1000 = some (0, smallImage 0x400000, smallFile 0x400000) ∧
    ∀ write ∈ elfWrites (smallImage 0x400000) (smallFile 0x400000),
      write.Confined (smallFile 0x400000).elfMemory (blockBytes (smallElf 0x400000).length) := by
  have loaded := @smallElf_loaded 0x400000 (by decide) (by decide +kernel) (by decide +kernel)
  refine ⟨loaded, (elf_confined_iff bumpAlloc bumpDesc bumpCreated fourBlocks
    (kzalloc fourBlocks 120).2 (smallElf 0x400000) (fun _ => 0) (smallImage 0x400000) 0x1000
    (smallFile 0x400000) fourBlocks_pool (by decide) (fourBlocks_kzalloc 0x400000) loaded).2.mpr ?_⟩
  have ranges : elfRanges (smallImage 0x400000) (smallFile 0x400000) =
      [⟨0x400000, 0x1000, 0x2000, 5⟩] := by decide +kernel
  have bytes : blockBytes (smallElf 0x400000).length = 0x1000 := by decide +kernel
  rw [ranges, List.forall_mem_singleton, bytes]
  exact .inr ⟨by decide, by decide, by decide, by decide⟩

/-- A segment at address zero: the first page of memory becomes a page of the program. -/
theorem smallElf_maps_zero :
    elfLoad (smallElf 0) (fun _ => 0) 0x1000 = some (0, smallImage 0, smallFile 0) ∧
      (kzalloc fourBlocks (smallElf 0).length).1 = 0x1000 ∧
      ¬ ∀ write ∈ elfWrites (smallImage 0) (smallFile 0),
        write.Confined 0x1000 (blockBytes (smallElf 0).length) := by
  refine ⟨smallElf_loaded (by decide) (by decide +kernel) (by decide +kernel),
    by rw [fourBlocks_kzalloc], fun confined => ?_⟩
  have writes : elfWrites (smallImage 0) (smallFile 0) = [⟨0, 0x1000, 5⟩] := by decide +kernel
  have low := (confined ⟨0, 0x1000, 5⟩ (by rw [writes]; exact List.mem_singleton_self _)).1
  exact absurd low (by decide)

end ViOS.Loader
