import ViOS.Loader.Elf

/-! # What `elf_process_pheaders` clears

`elf_process_phdr_pt_load` clears the part of a segment that the file does not hold.  It
counts from `physical_base_address`, the start of the segment with the lowest virtual
address so far, and not from the start of the segment itself.

* `SegmentsRight` — the memory of the segments as the headers describe it.
* `bssRanges`, `clearedRanges` — what should be cleared, and what is.
* `pheadersLoop_iff_fold` — the loop reads the headers of the file, as long as it does
  not change them.
* `pheaders_right_iff` — when the memory is right afterwards.
-/

namespace ViOS.Loader

open ViOS.Memory ViOS.Process

/-! ## The property -/

/-- The file as `elf_load` hands it to `elf_process_loaded`. -/
def loadedAt (elfMemory : Nat) : ElfFile := ⟨elfMemory, 0, 0, 0, 0⟩

/-- `elf_process_pheaders`. -/
def elfProcessPheaders (mem : Ram) (file : ElfFile) : Option (Ram × ElfFile) :=
  pheadersLoop (2 ^ 16) 0 mem file

/-- The PT_LOAD headers of a list. -/
def loadsOf (phdrs : List Elf64Phdr) : List Elf64Phdr := phdrs.filter fun phdr => phdr.pType = ptLoad

/-- The PT_LOAD headers of a file, in their order. -/
def elfLoads (mem : Ram) (elfMemory : Nat) : List Elf64Phdr := loadsOf (elfPheaders mem (loadedAt elfMemory))

/-- An offset lies in one of the ranges, given as offset and size. -/
def InRanges (ranges : List (Nat × Nat)) (offset : Nat) : Prop :=
  ∃ range ∈ ranges, range.1 ≤ offset ∧ offset < range.1 + range.2

/-- The ranges of the segments that the file does not hold. -/
def bssRanges (loads : List Elf64Phdr) : List (Nat × Nat) :=
  loads.map fun phdr => (phdr.pOffset + phdr.pFilesz, phdr.pMemsz - phdr.pFilesz)

/-- The byte belongs to the ELF header or to the table of program headers. -/
def HeaderByte (mem : Ram) (elfMemory a : Nat) : Prop :=
  (elfMemory ≤ a ∧ a < elfMemory + 64) ∨
    (elfMemory + (elfHeader mem elfMemory).ePhoff ≤ a ∧
      a < elfMemory + (elfHeader mem elfMemory).ePhoff + (elfHeader mem elfMemory).ePhnum * elf64PhdrSize)

/-- A valid image of `size` bytes at `elfMemory`: the header is accepted, the headers and the segments'
ranges lie in the buffer, no two ranges overlap, and no header is to be cleared. -/
structure ValidImage (mem : Ram) (elfMemory size : Nat) : Prop where
  fits : elfMemory + size ≤ 2 ^ 48
  accepted : elfValidateLoaded (elfHeader mem elfMemory) = viosAllOk
  header : 64 ≤ size
  table : (elfHeader mem elfMemory).ePhoff + (elfHeader mem elfMemory).ePhnum * elf64PhdrSize ≤ size
  sizes : ∀ phdr ∈ elfLoads mem elfMemory, phdr.pFilesz ≤ phdr.pMemsz
  inside : ∀ phdr ∈ elfLoads mem elfMemory, phdr.pOffset + phdr.pMemsz ≤ size
  disjoint : (elfLoads mem elfMemory).Pairwise fun p q => ∀ offset,
    ¬ ((p.pOffset ≤ offset ∧ offset < p.pOffset + p.pMemsz) ∧
      (q.pOffset ≤ offset ∧ offset < q.pOffset + q.pMemsz))
  headersKept : ∀ offset, HeaderByte mem elfMemory (elfMemory + offset) →
    InRanges (bssRanges (elfLoads mem elfMemory)) offset → mem (elfMemory + offset) = 0

/-- Each segment holds its bytes of the file and zeros behind them, and nothing else changed. -/
structure SegmentsRight (mem mem' : Ram) (elfMemory : Nat) : Prop where
  file : ∀ phdr ∈ elfLoads mem elfMemory, ∀ i < phdr.pFilesz,
    mem' (elfMemory + phdr.pOffset + i) = mem (elfMemory + phdr.pOffset + i)
  bss : ∀ phdr ∈ elfLoads mem elfMemory, ∀ i, phdr.pFilesz ≤ i → i < phdr.pMemsz →
    mem' (elfMemory + phdr.pOffset + i) = 0
  outside : ∀ a < addressSpace,
    (a < elfMemory ∨ ¬ InRanges (bssRanges (elfLoads mem elfMemory)) (a - elfMemory)) → mem' a = mem a

/-! ## The condition -/

/-- The lowest virtual address so far and the offset of its segment; an address 0 counts as none. -/
def lowerBase (base : Nat × Nat) (phdr : Elf64Phdr) : Nat × Nat :=
  if phdr.pVaddr ≤ base.1 ∨ base.1 = 0 then (phdr.pVaddr, phdr.pOffset) else base

/-- The bytes a header has cleared: those of its own size, at the segment with the lowest virtual
address so far. -/
def clearedRanges : Nat × Nat → List Elf64Phdr → List (Nat × Nat)
  | _, [] => []
  | base, phdr :: rest =>
    ((lowerBase base phdr).2 + phdr.pFilesz, phdr.pMemsz - phdr.pFilesz) ::
      clearedRanges (lowerBase base phdr) rest

/-- No size is too large for `memset`, and a byte that is cleared by mistake, or left by mistake, is zero
in the file. -/
def ClearsRight (mem : Ram) (elfMemory : Nat) : Prop :=
  (∀ range ∈ bssRanges (elfLoads mem elfMemory), range.2 < 2 ^ 31) ∧
    ∀ offset, ¬ (InRanges (bssRanges (elfLoads mem elfMemory)) offset ↔
      InRanges (clearedRanges (0, 0) (elfLoads mem elfMemory)) offset) → mem (elfMemory + offset) = 0

/-! ## What one header does -/

/-- The bytes of the memory stay or become zero. -/
def OnlyZeroed (mem mem' : Ram) : Prop := ∀ a, mem' a = mem a ∨ mem' a = 0

theorem OnlyZeroed.refl (mem : Ram) : OnlyZeroed mem mem := fun _ => .inl rfl

theorem OnlyZeroed.trans {a b c : Ram} (ab : OnlyZeroed a b) (bc : OnlyZeroed b c) : OnlyZeroed a c := by
  intro address
  rcases bc address with same | zero
  · rw [same]
    exact ab address
  · exact .inr zero

/-- What has its old value in the end has it in between. -/
theorem OnlyZeroed.between {before mem mem' : Ram} (first : OnlyZeroed before mem)
    (second : OnlyZeroed mem mem') {a : Nat} (kept : mem' a = before a) : mem a = before a := by
  rcases first a with same | zero
  · exact same
  · rcases second a with still | cleared
    · rw [← kept, still]
    · rw [zero, ← kept, cleared]

theorem memsetRam_onlyZeroed {mem mem' : Ram} {address size : Nat}
    (result : memsetRam mem address size = some mem') : OnlyZeroed mem mem' := by
  unfold memsetRam at result
  split at result
  · obtain rfl := Option.some.inj result
    intro a
    simp only
    split
    · exact .inr rfl
    · exact .inl rfl
  · exact absurd result (by simp)

theorem memsetRam_apply {mem : Ram} {address size : Nat} (fits : address + size ≤ addressSpace)
    (small : size < 2 ^ 31) : ∃ mem', memsetRam mem address size = some mem' ∧
      ∀ a < addressSpace, mem' a = if address ≤ a ∧ a < address + size then 0 else mem a := by
  unfold memsetRam
  rw [if_pos small]
  refine ⟨_, rfl, fun a inSpace => if_congr ?_ rfl rfl⟩
  unfold addressSpace at *
  omega

section Step

variable {mem mem' : Ram} {file file' : ElfFile} {phdr : Elf64Phdr}

/-- The base that the header sees or sets, and the bytes behind it that are cleared. -/
theorem elfProcessPhdrPtLoad_eq (mem : Ram) (file : ElfFile) (phdr : Elf64Phdr) :
    ∃ file', file'.elfMemory = file.elfMemory ∧
      (file'.virtualBaseAddress, file'.physicalBaseAddress) =
        (if phdr.pVaddr ≤ file.virtualBaseAddress ∨ file.virtualBaseAddress = 0 then
          (phdr.pVaddr, elfPhdrPhysAddress file phdr)
        else (file.virtualBaseAddress, file.physicalBaseAddress)) ∧
      elfProcessPhdrPtLoad mem file phdr =
        if phdr.pFilesz < phdr.pMemsz then
          (memsetRam mem (file'.physicalBaseAddress + phdr.pFilesz) (phdr.pMemsz - phdr.pFilesz)).map
            fun mem => (mem, file')
        else some (mem, file') := by
  unfold elfProcessPhdrPtLoad
  by_cases lower : phdr.pVaddr ≤ file.virtualBaseAddress ∨ file.virtualBaseAddress = 0 <;>
    by_cases upper : file.virtualEndAddress ≤ (phdr.pVaddr + phdr.pFilesz) % addressSpace ∨
      file.virtualEndAddress = 0 <;>
    simp only [lower, upper, if_true, if_false] <;>
    refine ⟨_, ?_, ?_, rfl⟩ <;>
    rfl

theorem elfProcessPheader_onlyZeroed (result : elfProcessPheader mem file phdr = some (mem', file')) :
    OnlyZeroed mem mem' ∧ file'.elfMemory = file.elfMemory := by
  unfold elfProcessPheader at result
  split at result
  · obtain ⟨after, sameMemory, -, eq⟩ := elfProcessPhdrPtLoad_eq mem file phdr
    rw [eq] at result
    split at result
    · obtain ⟨cleared, isCleared, same⟩ := Option.map_eq_some_iff.mp result
      obtain ⟨rfl, rfl⟩ := Prod.mk.inj same
      exact ⟨memsetRam_onlyZeroed isCleared, sameMemory⟩
    · obtain ⟨rfl, rfl⟩ := Prod.mk.inj (Option.some.inj result)
      exact ⟨.refl mem, sameMemory⟩
  · obtain ⟨rfl, rfl⟩ := Prod.mk.inj (Option.some.inj result)
    exact ⟨.refl mem, rfl⟩

end Step

/-! ## The loop as a fold over the headers of the file -/

theorem readLE_congr {mem mem' : Ram} (size : Nat) : ∀ {address : Nat},
    (∀ a, address ≤ a → a < address + size → mem' a = mem a) →
    readLE mem' address size = readLE mem address size := by
  induction size with
  | zero =>
    intro address _
    rfl
  | succ size ih =>
    intro address same
    have first := same address (Nat.le_refl _) (by omega)
    have rest := @ih (address + 1) fun a lower upper => same a (by omega) (by omega)
    rw [readLE, readLE, first, rest]

section Headers

variable {mem mem' : Ram} {elfMemory : Nat}

/-- The headers of the file are as they were. -/
def SameHeaders (mem : Ram) (elfMemory : Nat) (mem' : Ram) : Prop :=
  ∀ a, HeaderByte mem elfMemory a → mem' a = mem a

theorem elfHeader_congr (same : SameHeaders mem elfMemory mem') :
    elfHeader mem' elfMemory = elfHeader mem elfMemory := by
  have early : ∀ offset size, offset + size ≤ 64 →
      readLE mem' (elfMemory + offset) size = readLE mem (elfMemory + offset) size := by
    intro offset size inside
    exact readLE_congr size fun a lower upper => same a (.inl (by omega))
  have byte : ∀ offset < 64, mem' (elfMemory + offset) = mem (elfMemory + offset) :=
    fun offset inside => same _ (.inl (by omega))
  unfold elfHeader
  rw [early 16 2 (by decide), early 24 8 (by decide), early 32 8 (by decide), early 56 2 (by decide),
    byte 4 (by decide), byte 5 (by decide)]
  congr 1
  refine List.map_congr_left fun i member => byte i ?_
  have := List.mem_range.mp member
  omega

/-- The address of a header of the table. -/
theorem elfProgramHeader_congr (same : SameHeaders mem elfMemory mem')
    (provided : (elfHeader mem elfMemory).ePhoff ≠ 0)
    (fits : elfMemory + (elfHeader mem elfMemory).ePhoff +
      (elfHeader mem elfMemory).ePhnum * elf64PhdrSize ≤ addressSpace)
    {i : Nat} (inTable : i < (elfHeader mem elfMemory).ePhnum) :
    elfProgramHeader mem' elfMemory i = elfProgramHeader mem elfMemory i := by
  have address : (elfPheader mem elfMemory + i * elf64PhdrSize) % addressSpace =
      elfMemory + (elfHeader mem elfMemory).ePhoff + i * elf64PhdrSize := by
    unfold elfPheader elf64PhdrSize at *
    simp only
    rw [if_neg provided]
    unfold addressSpace at *
    omega
  have sameTable : elfPheader mem' elfMemory = elfPheader mem elfMemory := by
    unfold elfPheader
    rw [elfHeader_congr same]
  have field : ∀ offset size, offset + size ≤ 56 →
      readLE mem' (elfMemory + (elfHeader mem elfMemory).ePhoff + i * elf64PhdrSize + offset) size =
        readLE mem (elfMemory + (elfHeader mem elfMemory).ePhoff + i * elf64PhdrSize + offset) size := by
    intro offset size inside
    refine readLE_congr size fun a lower upper => same a (.inr ?_)
    unfold elf64PhdrSize at *
    omega
  have first := field 0 4 (by decide)
  rw [Nat.add_zero] at first
  unfold elfProgramHeader
  rw [sameTable, address]
  simp only
  rw [first, field 4 4 (by decide), field 8 8 (by decide), field 16 8 (by decide), field 32 8 (by decide),
    field 40 8 (by decide)]

end Headers

section Loop

variable {mem : Ram} {elfMemory : Nat}

/-- The headers of the file, one after the other. -/
def processPheaders (phdrs : List Elf64Phdr) (state : Ram × ElfFile) : Option (Ram × ElfFile) :=
  phdrs.foldlM (fun state phdr => elfProcessPheader state.1 state.2 phdr) state

theorem processPheaders_onlyZeroed {phdrs : List Elf64Phdr} : ∀ {before after : Ram} {file file' : ElfFile},
    processPheaders phdrs (before, file) = some (after, file') → OnlyZeroed before after := by
  induction phdrs with
  | nil =>
    intro before after file file' result
    obtain ⟨rfl, rfl⟩ := Prod.mk.inj (Option.some.inj result)
    exact .refl before
  | cons phdr rest ih =>
    intro before after file file' result
    unfold processPheaders at result
    rw [List.foldlM_cons] at result
    obtain ⟨⟨between, fileBetween⟩, first, later⟩ := Option.bind_eq_some_iff.mp result
    exact (elfProcessPheader_onlyZeroed first).1.trans (ih later)

theorem pheadersLoop_onlyZeroed (fuel : Nat) : ∀ {i : Nat} {before after : Ram} {file file' : ElfFile},
    pheadersLoop fuel i before file = some (after, file') → OnlyZeroed before after := by
  induction fuel with
  | zero =>
    intro i before after file file' result
    obtain ⟨rfl, rfl⟩ := Prod.mk.inj (Option.some.inj result)
    exact .refl before
  | succ fuel ih =>
    intro i before after file file' result
    rw [pheadersLoop] at result
    split at result
    · split at result
      · exact absurd result (by simp)
      · rename_i between fileBetween first
        exact (elfProcessPheader_onlyZeroed first).1.trans (ih result)
    · obtain ⟨rfl, rfl⟩ := Prod.mk.inj (Option.some.inj result)
      exact .refl before

/-- A memory with the headers of the file comes out of the loop just when it comes out of the headers of
the file. -/
theorem pheadersLoop_iff_fold (provided : (elfHeader mem elfMemory).ePhoff ≠ 0)
    (fits : elfMemory + (elfHeader mem elfMemory).ePhoff +
      (elfHeader mem elfMemory).ePhnum * elf64PhdrSize ≤ addressSpace)
    {after : Ram} {file' : ElfFile} (kept : SameHeaders mem elfMemory after) (fuel : Nat) :
    ∀ {i : Nat} {before : Ram} {file : ElfFile}, (elfHeader mem elfMemory).ePhnum ≤ i + fuel →
      file.elfMemory = elfMemory → OnlyZeroed mem before → SameHeaders mem elfMemory before →
      (pheadersLoop fuel i before file = some (after, file') ↔
        processPheaders ((elfPheaders mem (loadedAt elfMemory)).drop i) (before, file) =
          some (after, file')) := by
  have length : (elfPheaders mem (loadedAt elfMemory)).length = (elfHeader mem elfMemory).ePhnum := by
    simp [elfPheaders, loadedAt]
  have finished : ∀ i, (elfHeader mem elfMemory).ePhnum ≤ i →
      (elfPheaders mem (loadedAt elfMemory)).drop i = [] :=
    fun i beyond => List.drop_eq_nil_of_le (length ▸ beyond)
  induction fuel with
  | zero =>
    intro i before file enough _ _ _
    rw [finished i (by omega), pheadersLoop]
    rfl
  | succ fuel ih =>
    intro i before file enough isFile zeroed same
    rw [pheadersLoop, isFile, elfHeader_congr same]
    by_cases inTable : i < (elfHeader mem elfMemory).ePhnum
    · have listed : i < (elfPheaders mem (loadedAt elfMemory)).length := length ▸ inTable
      rw [if_pos inTable, elfProgramHeader_congr same provided fits inTable, List.drop_eq_getElem_cons listed]
      have header : (elfPheaders mem (loadedAt elfMemory))[i] = elfProgramHeader mem elfMemory i := by
        simp [elfPheaders, loadedAt]
      unfold processPheaders
      rw [header, List.foldlM_cons]
      cases processed : elfProcessPheader before file (elfProgramHeader mem elfMemory i) with
      | none => simp
      | some next =>
        obtain ⟨between, fileBetween⟩ := next
        obtain ⟨stepZeroed, stepFile⟩ := elfProcessPheader_onlyZeroed processed
        have zeroed' := zeroed.trans stepZeroed
        by_cases keeps : SameHeaders mem elfMemory between
        · exact ih (by omega) (stepFile.trans isFile) zeroed' keeps
        · -- a header byte that was cleared stays cleared
          have lost : ¬ OnlyZeroed between after := fun later =>
            keeps fun a isHeader => zeroed'.between later (kept a isHeader)
          exact iff_of_false (fun looped => lost (pheadersLoop_onlyZeroed fuel looped))
            (fun folded => lost (processPheaders_onlyZeroed folded))
    · rw [if_neg inTable, finished i (by omega)]
      rfl

end Loop

/-! ## What the headers clear -/

/-- The memory with the ranges of a buffer cleared. -/
structure ClearsRanges (elfMemory : Nat) (ranges : List (Nat × Nat)) (mem mem' : Ram) : Prop where
  cleared : ∀ a < addressSpace, elfMemory ≤ a → InRanges ranges (a - elfMemory) → mem' a = 0
  kept : ∀ a < addressSpace, (a < elfMemory ∨ ¬ InRanges ranges (a - elfMemory)) → mem' a = mem a

theorem inRanges_cons {range : Nat × Nat} {ranges : List (Nat × Nat)} {offset : Nat} :
    InRanges (range :: ranges) offset ↔
      (range.1 ≤ offset ∧ offset < range.1 + range.2) ∨ InRanges ranges offset := by
  unfold InRanges
  simp only [List.mem_cons, exists_eq_or_imp]

theorem ClearsRanges.nil (elfMemory : Nat) (mem : Ram) : ClearsRanges elfMemory [] mem mem :=
  ⟨fun _ _ _ inNone => absurd inNone (by simp [InRanges]), fun _ _ _ => rfl⟩

theorem ClearsRanges.cons {elfMemory : Nat} {range : Nat × Nat} {ranges : List (Nat × Nat)}
    {before between after : Ram}
    (first : ∀ a < addressSpace, between a =
      if elfMemory + range.1 ≤ a ∧ a < elfMemory + range.1 + range.2 then 0 else before a)
    (later : ClearsRanges elfMemory ranges between after) :
    ClearsRanges elfMemory (range :: ranges) before after where
  cleared := by
    intro a inSpace lower inRanges
    by_cases inLater : InRanges ranges (a - elfMemory)
    · exact later.cleared a inSpace lower inLater
    · have inFirst := (inRanges_cons.mp inRanges).resolve_right inLater
      rw [later.kept a inSpace (.inr inLater), first a inSpace, if_pos (by omega)]
  kept := by
    intro a inSpace outside
    have notLater : a < elfMemory ∨ ¬ InRanges ranges (a - elfMemory) :=
      outside.imp_right fun notIn inLater => notIn (inRanges_cons.mpr (.inr inLater))
    have notFirst : ¬ (elfMemory + range.1 ≤ a ∧ a < elfMemory + range.1 + range.2) := by
      rintro ⟨lower, upper⟩
      rcases outside with before | notIn
      · omega
      · exact notIn (inRanges_cons.mpr (.inl ⟨by omega, by omega⟩))
    rw [later.kept a inSpace notLater, first a inSpace, if_neg notFirst]

/-- The file's base addresses are those of the lowest segment so far. -/
structure TracksBase (file : ElfFile) (base : Nat × Nat) : Prop where
  virtualBase : file.virtualBaseAddress = base.1
  physicalBase : base.1 ≠ 0 → file.physicalBaseAddress = (file.elfMemory + base.2) % addressSpace

/-- A PT_LOAD header: the lowest segment so far, and the bytes behind it that are cleared. -/
theorem elfProcessPheader_load {mem : Ram} {file : ElfFile} {phdr : Elf64Phdr} {base : Nat × Nat}
    (isLoad : phdr.pType = ptLoad) (tracks : TracksBase file base) :
    ∃ file', file'.elfMemory = file.elfMemory ∧ TracksBase file' (lowerBase base phdr) ∧
      elfProcessPheader mem file phdr =
        if phdr.pFilesz < phdr.pMemsz then
          (memsetRam mem ((file.elfMemory + (lowerBase base phdr).2) % addressSpace + phdr.pFilesz)
            (phdr.pMemsz - phdr.pFilesz)).map fun mem => (mem, file')
        else some (mem, file') := by
  obtain ⟨file', sameMemory, bases, result⟩ := elfProcessPhdrPtLoad_eq mem file phdr
  have physical : file'.virtualBaseAddress = (lowerBase base phdr).1 ∧
      file'.physicalBaseAddress = (file.elfMemory + (lowerBase base phdr).2) % addressSpace := by
    unfold lowerBase
    rw [tracks.virtualBase] at bases
    by_cases lower : phdr.pVaddr ≤ base.1 ∨ base.1 = 0
    · rw [if_pos lower] at bases ⊢
      exact Prod.mk.inj bases
    · rw [if_neg lower] at bases ⊢
      obtain ⟨sameBase, same⟩ := Prod.mk.inj bases
      exact ⟨sameBase, same.trans (tracks.physicalBase fun zero => lower (.inr zero))⟩
  refine ⟨file', sameMemory, ⟨physical.1, fun _ => sameMemory ▸ physical.2⟩, ?_⟩
  unfold elfProcessPheader
  rw [if_pos isLoad, result, physical.2]

section Fold

variable {elfMemory size : Nat} {phdrs : List Elf64Phdr}

theorem processPheaders_skip {phdr : Elf64Phdr} (notLoad : phdr.pType ≠ ptLoad) (state : Ram × ElfFile) :
    processPheaders (phdr :: phdrs) state = processPheaders phdrs state := by
  have same : elfProcessPheader state.1 state.2 phdr = some state := if_neg notLoad
  unfold processPheaders
  rw [List.foldlM_cons, same]
  rfl

theorem lowerBase_le {base : Nat × Nat} {phdr : Elf64Phdr} (small : base.2 ≤ size)
    (inside : phdr.pOffset ≤ size) : (lowerBase base phdr).2 ≤ size := by
  unfold lowerBase
  split
  · exact inside
  · exact small

/-- The headers clear the ranges behind the lowest segments. -/
theorem processPheaders_spec (fits : elfMemory + size ≤ 2 ^ 48)
    (inside : ∀ phdr ∈ loadsOf phdrs, phdr.pOffset + phdr.pMemsz ≤ size)
    (small : ∀ range ∈ bssRanges (loadsOf phdrs), range.2 < 2 ^ 31) :
    ∀ {mem : Ram} {file : ElfFile} {base : Nat × Nat}, TracksBase file base → file.elfMemory = elfMemory →
      base.2 ≤ size → ∃ mem' file', processPheaders phdrs (mem, file) = some (mem', file') ∧
        ClearsRanges elfMemory (clearedRanges base (loadsOf phdrs)) mem mem' := by
  induction phdrs with
  | nil =>
    intro mem file base _ _ _
    exact ⟨mem, file, rfl, .nil elfMemory mem⟩
  | cons phdr rest ih =>
    intro mem file base tracks isFile baseSmall
    by_cases isLoad : phdr.pType = ptLoad
    · have loads : loadsOf (phdr :: rest) = phdr :: loadsOf rest := List.filter_cons_of_pos (by simpa using isLoad)
      rw [loads] at inside small ⊢
      have here := inside phdr List.mem_cons_self
      have ihRest := @ih (fun p member => inside p (List.mem_cons_of_mem _ member))
        (fun range member => small range (List.mem_cons_of_mem _ member))
      have nextSmall : (lowerBase base phdr).2 ≤ size := lowerBase_le baseSmall (by omega)
      obtain ⟨file', sameMemory, tracks', result⟩ := @elfProcessPheader_load mem _ _ _ isLoad tracks
      -- the base of the file only gets lower, so it stays inside the image
      have noWrap : (file.elfMemory + (lowerBase base phdr).2) % addressSpace =
          elfMemory + (lowerBase base phdr).2 := by
        rw [isFile]
        unfold addressSpace
        omega
      rw [noWrap] at result
      unfold processPheaders
      rw [List.foldlM_cons, result]
      by_cases some : phdr.pFilesz < phdr.pMemsz
      · have setSmall := small _ List.mem_cons_self
        obtain ⟨between, isSet, apply⟩ := @memsetRam_apply mem
          (elfMemory + (lowerBase base phdr).2 + phdr.pFilesz) (phdr.pMemsz - phdr.pFilesz)
          (by unfold addressSpace; omega) setSmall
        rw [if_pos some, isSet]
        obtain ⟨mem', fileEnd, folded, clears⟩ := @ihRest between file' _ tracks'
          (sameMemory.trans isFile) nextSmall
        refine ⟨mem', fileEnd, folded, .cons (fun a inSpace => ?_) clears⟩
        rw [apply a inSpace]
        exact if_congr (by simp only; omega) rfl rfl
      · rw [if_neg some]
        obtain ⟨mem', fileEnd, folded, clears⟩ := @ihRest mem file' _ tracks' (sameMemory.trans isFile) nextSmall
        refine ⟨mem', fileEnd, folded, .cons (fun a _ => (if_neg ?_).symm) clears⟩
        simp only
        omega
    · have loads : loadsOf (phdr :: rest) = loadsOf rest := List.filter_cons_of_neg (by simpa using isLoad)
      rw [loads] at inside small ⊢
      rw [processPheaders_skip isLoad]
      exact ih inside small tracks isFile baseSmall

/-- A size that `memset` cannot count to. -/
theorem processPheaders_large (large : ∃ range ∈ bssRanges (loadsOf phdrs), 2 ^ 31 ≤ range.2) :
    ∀ state : Ram × ElfFile, processPheaders phdrs state = none := by
  induction phdrs with
  | nil => exact absurd large (by simp [loadsOf, bssRanges])
  | cons phdr rest ih =>
    intro state
    by_cases isLoad : phdr.pType = ptLoad
    · have loads : loadsOf (phdr :: rest) = phdr :: loadsOf rest := List.filter_cons_of_pos (by simpa using isLoad)
      rw [loads] at large
      unfold processPheaders
      rw [List.foldlM_cons]
      cases first : elfProcessPheader state.1 state.2 phdr with
      | none => rfl
      | some next =>
        obtain ⟨range, member, isLarge⟩ := large
        rcases List.mem_cons.mp member with rfl | later
        · obtain ⟨file', -, -, result⟩ := elfProcessPhdrPtLoad_eq state.1 state.2 phdr
          have tooLarge : ∀ address, memsetRam state.1 address (phdr.pMemsz - phdr.pFilesz) = none :=
            fun address => if_neg (not_lt.mpr isLarge)
          unfold elfProcessPheader at first
          simp only at isLarge
          rw [if_pos isLoad, result, if_pos (by omega), tooLarge] at first
          exact absurd first (by simp)
        · exact ih ⟨range, later, isLarge⟩ next
    · have loads : loadsOf (phdr :: rest) = loadsOf rest := List.filter_cons_of_neg (by simpa using isLoad)
      rw [loads] at large
      rw [processPheaders_skip isLoad]
      exact ih large state

end Fold

/-! ## When the memory is right -/

section Right

variable {mem mem' : Ram} {elfMemory size : Nat}

namespace ValidImage

theorem table_fits (valid : ValidImage mem elfMemory size) :
    elfMemory + (elfHeader mem elfMemory).ePhoff +
      (elfHeader mem elfMemory).ePhnum * elf64PhdrSize ≤ addressSpace := by
  have fits := valid.fits
  have table := valid.table
  unfold addressSpace
  omega

theorem provided (valid : ValidImage mem elfMemory size) : (elfHeader mem elfMemory).ePhoff ≠ 0 := by
  intro zero
  have accepted := valid.accepted
  unfold elfValidateLoaded elfHasProgramHeader at accepted
  simp [zero] at accepted
  exact absurd accepted (by decide)

theorem headerByte_lt (valid : ValidImage mem elfMemory size) {a : Nat} (isHeader : HeaderByte mem elfMemory a) :
    elfMemory ≤ a ∧ a < elfMemory + size := by
  have header := valid.header
  have table := valid.table
  unfold HeaderByte at isHeader
  omega

/-- A byte of the file in a segment is in no range to be cleared. -/
theorem file_not_bss (valid : ValidImage mem elfMemory size) {phdr : Elf64Phdr}
    (member : phdr ∈ elfLoads mem elfMemory) {i : Nat} (inFile : i < phdr.pFilesz) :
    ¬ InRanges (bssRanges (elfLoads mem elfMemory)) (phdr.pOffset + i) := by
  rintro ⟨range, isRange, lower, upper⟩
  obtain ⟨other, isOther, rfl⟩ := List.mem_map.mp isRange
  have sizes := valid.sizes phdr member
  simp only at lower upper
  by_cases same : phdr = other
  · subst same
    omega
  · have symmetric : Std.Symm fun p q : Elf64Phdr => ∀ offset,
        ¬ ((p.pOffset ≤ offset ∧ offset < p.pOffset + p.pMemsz) ∧
          (q.pOffset ≤ offset ∧ offset < q.pOffset + q.pMemsz)) :=
      ⟨fun p q apart offset both => apart offset both.symm⟩
    exact valid.disjoint.forall member isOther same (phdr.pOffset + i)
      ⟨⟨by omega, by omega⟩, by omega, by omega⟩

theorem segmentsRight_iff (valid : ValidImage mem elfMemory size) :
    SegmentsRight mem mem' elfMemory ↔
      ClearsRanges elfMemory (bssRanges (elfLoads mem elfMemory)) mem mem' := by
  have fits := valid.fits
  constructor
  · intro right
    refine ⟨fun a inSpace lower inBss => ?_, right.outside⟩
    obtain ⟨range, isRange, above, below⟩ := inBss
    obtain ⟨phdr, member, rfl⟩ := List.mem_map.mp isRange
    simp only at above below
    have sizes := valid.sizes phdr member
    have here := right.bss phdr member (a - elfMemory - phdr.pOffset) (by omega) (by omega)
    rwa [show elfMemory + phdr.pOffset + (a - elfMemory - phdr.pOffset) = a by omega] at here
  · intro clears
    refine ⟨fun phdr member i inFile => ?_, fun phdr member i lower upper => ?_, clears.kept⟩
    · have inside := valid.inside phdr member
      have sizes := valid.sizes phdr member
      refine clears.kept _ (by unfold addressSpace; omega) (.inr ?_)
      rw [show elfMemory + phdr.pOffset + i - elfMemory = phdr.pOffset + i by omega]
      exact valid.file_not_bss member inFile
    · have inside := valid.inside phdr member
      refine clears.cleared _ (by unfold addressSpace; omega) (by omega) ?_
      refine ⟨_, List.mem_map_of_mem member, ?_, ?_⟩
      · simp only
        omega
      · simp only
        omega

/-- The headers are there afterwards when the memory is right. -/
theorem sameHeaders (valid : ValidImage mem elfMemory size)
    (clears : ClearsRanges elfMemory (bssRanges (elfLoads mem elfMemory)) mem mem') :
    SameHeaders mem elfMemory mem' := by
  intro a isHeader
  obtain ⟨lower, upper⟩ := valid.headerByte_lt isHeader
  have inSpace : a < addressSpace := by
    have fits := valid.fits
    unfold addressSpace
    omega
  have address : elfMemory + (a - elfMemory) = a := by omega
  by_cases inBss : InRanges (bssRanges (elfLoads mem elfMemory)) (a - elfMemory)
  · have zero := valid.headersKept (a - elfMemory) (address.symm ▸ isHeader) inBss
    rw [clears.cleared a inSpace lower inBss, ← zero, address]
  · exact clears.kept a inSpace (.inr inBss)

end ValidImage

/-- Two lists of ranges leave the same memory just when the bytes in one of them only are zero. -/
theorem clearsRanges_iff {ranges ranges' : List (Nat × Nat)} (clears : ClearsRanges elfMemory ranges' mem mem')
    (bounded : ∀ offset, InRanges ranges offset ∨ InRanges ranges' offset → elfMemory + offset < addressSpace) :
    ClearsRanges elfMemory ranges mem mem' ↔
      ∀ offset, ¬ (InRanges ranges offset ↔ InRanges ranges' offset) → mem (elfMemory + offset) = 0 := by
  have offsetOf : ∀ offset, elfMemory + offset - elfMemory = offset := fun offset => by omega
  constructor
  · -- where the two disagree, one clears the byte and the other keeps it
    intro both offset different
    by_cases inRanges : InRanges ranges offset
    · have notIn : ¬ InRanges ranges' offset := fun inOther => different (iff_of_true inRanges inOther)
      have inSpace := bounded offset (.inl inRanges)
      rw [← clears.kept _ inSpace (.inr (by rwa [offsetOf]))]
      exact both.cleared _ inSpace (by omega) (by rwa [offsetOf])
    · have isIn : InRanges ranges' offset := by
        by_contra notIn
        exact different (iff_of_false inRanges notIn)
      have inSpace := bounded offset (.inr isIn)
      rw [← both.kept _ inSpace (.inr (by rwa [offsetOf]))]
      exact clears.cleared _ inSpace (by omega) (by rwa [offsetOf])
  · intro same
    constructor
    · intro a inSpace lower inRanges
      by_cases inOther : InRanges ranges' (a - elfMemory)
      · exact clears.cleared a inSpace lower inOther
      · rw [clears.kept a inSpace (.inr inOther)]
        have zero := same (a - elfMemory) fun iff => inOther (iff.mp inRanges)
        rwa [Nat.add_sub_cancel' lower] at zero
    · intro a inSpace outside
      rcases outside with before | notIn
      · exact clears.kept a inSpace (.inl before)
      · by_cases inOther : elfMemory ≤ a ∧ InRanges ranges' (a - elfMemory)
        · have zero := same (a - elfMemory) fun iff => notIn (iff.mpr inOther.2)
          rw [Nat.add_sub_cancel' inOther.1] at zero
          rw [clears.cleared a inSpace inOther.1 inOther.2, zero]
        · refine clears.kept a inSpace ?_
          by_cases lower : elfMemory ≤ a
          · exact .inr fun isIn => inOther ⟨lower, isIn⟩
          · exact .inl (by omega)

theorem clearedRanges_bounded {loads : List Elf64Phdr} (inside : ∀ p ∈ loads, p.pOffset + p.pMemsz ≤ size)
    (sizes : ∀ p ∈ loads, p.pFilesz ≤ p.pMemsz) : ∀ {base : Nat × Nat}, base.2 ≤ size → ∀ {offset : Nat},
      InRanges (clearedRanges base loads) offset → offset < size + size := by
  induction loads with
  | nil =>
    rintro base _ offset ⟨range, isRange, -⟩
    exact absurd isRange (by simp [clearedRanges])
  | cons phdr rest ih =>
    intro base small offset inRanges
    have here := inside phdr List.mem_cons_self
    have sizesHere := sizes phdr List.mem_cons_self
    have next : (lowerBase base phdr).2 ≤ size := lowerBase_le small (by omega)
    rcases inRanges_cons.mp inRanges with ⟨-, upper⟩ | later
    · simp only at upper
      omega
    · exact ih (fun p member => inside p (List.mem_cons_of_mem _ member))
        (fun p member => sizes p (List.mem_cons_of_mem _ member)) next later

/-- After the headers of a valid image were processed the memory of its segments is right just when what
was cleared by mistake, or left by mistake, is zero in the file. -/
theorem pheaders_right_iff (mem : Ram) (elfMemory size : Nat) (valid : ValidImage mem elfMemory size) :
    (∃ mem' file', elfProcessPheaders mem (loadedAt elfMemory) = some (mem', file') ∧
      SegmentsRight mem mem' elfMemory) ↔ ClearsRight mem elfMemory := by
  have fits := valid.fits
  have enough : (elfHeader mem elfMemory).ePhnum ≤ 0 + 2 ^ 16 := by
    have small := readLE_lt mem 2 (elfMemory + 56)
    change readLE mem (elfMemory + 56) 2 ≤ 0 + 2 ^ 16
    omega
  have start : TracksBase (loadedAt elfMemory) (0, 0) := ⟨rfl, fun notZero => absurd rfl notZero⟩
  have bounded : ∀ offset, InRanges (bssRanges (elfLoads mem elfMemory)) offset ∨
      InRanges (clearedRanges (0, 0) (elfLoads mem elfMemory)) offset → elfMemory + offset < addressSpace := by
    intro offset either
    unfold addressSpace
    rcases either with ⟨range, isRange, lower, upper⟩ | cleared
    · obtain ⟨phdr, member, rfl⟩ := List.mem_map.mp isRange
      have inside := valid.inside phdr member
      have sizes := valid.sizes phdr member
      simp only at lower upper
      omega
    · have bound := clearedRanges_bounded valid.inside valid.sizes (Nat.zero_le size) cleared
      omega
  -- as long as the headers stay, the loop that reads them from memory is a fold over the list
  have loop : ∀ {after : Ram} {file' : ElfFile}, SameHeaders mem elfMemory after →
      (elfProcessPheaders mem (loadedAt elfMemory) = some (after, file') ↔
        processPheaders (elfPheaders mem (loadedAt elfMemory)) (mem, loadedAt elfMemory) =
          some (after, file')) := by
    intro after file' kept
    have looped := @pheadersLoop_iff_fold mem elfMemory valid.provided valid.table_fits after file' kept
      (2 ^ 16) 0 mem (loadedAt elfMemory) enough rfl (.refl mem) fun _ _ => rfl
    rwa [List.drop_zero] at looped
  unfold ClearsRight
  constructor
  · rintro ⟨mem', file', processed, right⟩
    have clears := valid.segmentsRight_iff.mp right
    have folded := (loop (valid.sameHeaders clears)).mp processed
    have small : ∀ range ∈ bssRanges (elfLoads mem elfMemory), range.2 < 2 ^ 31 := by
      intro range member
      by_contra large
      have failed := processPheaders_large ⟨range, member, not_lt.mp large⟩ (mem, loadedAt elfMemory)
      rw [failed] at folded
      exact absurd folded (by simp)
    obtain ⟨mem'', file'', folded', clears'⟩ := processPheaders_spec fits valid.inside small start rfl
      (Nat.zero_le size)
    obtain ⟨rfl, rfl⟩ := Prod.mk.inj (Option.some.inj (folded.symm.trans folded'))
    exact ⟨small, (clearsRanges_iff clears' bounded).mp clears⟩
  · rintro ⟨small, same⟩
    obtain ⟨mem', file', folded, clears'⟩ := processPheaders_spec fits valid.inside small start rfl
      (Nat.zero_le size)
    have clears := (clearsRanges_iff clears' bounded).mpr same
    exact ⟨mem', file', (loop (valid.sameHeaders clears)).mpr folded, valid.segmentsRight_iff.mpr clears⟩

end Right

/-- Where each segment with bytes to clear is the lowest so far, its own bytes are cleared. -/
theorem inRanges_cleared_iff {loads : List Elf64Phdr} {offset : Nat} : ∀ {base : Nat × Nat},
    (∀ (i : Nat) phdr, loads[i]? = some phdr → phdr.pFilesz < phdr.pMemsz →
      (∀ before ∈ loads.take i, phdr.pVaddr ≤ before.pVaddr) ∧ (phdr.pVaddr ≤ base.1 ∨ base.1 = 0)) →
    (InRanges (bssRanges loads) offset ↔ InRanges (clearedRanges base loads) offset) := by
  induction loads with
  | nil =>
    intro base _
    rfl
  | cons phdr rest ih =>
    intro base lowest
    have later := @ih (lowerBase base phdr) fun i p atIndex some => by
      obtain ⟨before, orBase⟩ := lowest (i + 1) p atIndex some
      refine ⟨fun q member => before q (List.mem_cons_of_mem _ member), ?_⟩
      unfold lowerBase
      split
      · exact .inl (before phdr List.mem_cons_self)
      · exact orBase
    change InRanges ((phdr.pOffset + phdr.pFilesz, phdr.pMemsz - phdr.pFilesz) :: bssRanges rest) offset ↔ _
    rw [clearedRanges, inRanges_cons, inRanges_cons, later]
    refine or_congr_left ?_
    by_cases some : phdr.pFilesz < phdr.pMemsz
    · have isLowest : lowerBase base phdr = (phdr.pVaddr, phdr.pOffset) :=
        if_pos (lowest 0 phdr rfl some).2
      rw [isLowest]
    · simp only
      omega

theorem clearsRight_of_lowest {mem : Ram} {elfMemory : Nat}
    (small : ∀ range ∈ bssRanges (elfLoads mem elfMemory), range.2 < 2 ^ 31)
    (lowest : ∀ (i : Nat) phdr, (elfLoads mem elfMemory)[i]? = some phdr → phdr.pFilesz < phdr.pMemsz →
      ∀ before ∈ (elfLoads mem elfMemory).take i, phdr.pVaddr ≤ before.pVaddr) :
    ClearsRight mem elfMemory := by
  refine ⟨small, fun offset different => absurd (inRanges_cleared_iff fun i phdr atIndex some => ?_) different⟩
  exact ⟨lowest i phdr atIndex some, .inr rfl⟩

/-- An executable of 192 bytes: a text segment, and eight bytes of data at `vaddr` with eight more to be
cleared, which hold something else in the file. -/
def dataElf (vaddr : Nat) : List UInt8 :=
  [0x7f, 0x45, 0x4c, 0x46, 2, 1] ++ leBytes 10 0 ++ leBytes 2 etExec ++ leBytes 6 0 ++
    leBytes 8 0x400000 ++ leBytes 8 64 ++ leBytes 16 0 ++ leBytes 2 2 ++ leBytes 6 0 ++
    leBytes 4 ptLoad ++ leBytes 4 5 ++ leBytes 8 0 ++ leBytes 8 0x400000 ++ leBytes 8 0 ++
    leBytes 8 176 ++ leBytes 8 176 ++ leBytes 8 0 ++
    leBytes 4 ptLoad ++ leBytes 4 6 ++ leBytes 8 176 ++ leBytes 8 vaddr ++ leBytes 8 0 ++
    leBytes 8 8 ++ leBytes 8 16 ++ leBytes 8 0 ++ List.replicate 16 1

def dataImage (vaddr : Nat) : Ram := readInto (dataElf vaddr) (fun _ => 0) 0x1000

/-- The headers of the two segments. -/
def dataLoads (vaddr : Nat) : List Elf64Phdr :=
  [⟨ptLoad, 5, 0, 0x400000, 176, 176⟩, ⟨ptLoad, 6, 176, vaddr, 8, 16⟩]

theorem dataImage_valid {vaddr : Nat}
    (header : elfHeader (dataImage vaddr) 0x1000 = ⟨[0x7f, 0x45, 0x4c, 0x46], 2, 1, etExec, 0x400000, 64, 2⟩)
    (loads : elfLoads (dataImage vaddr) 0x1000 = dataLoads vaddr) :
    ValidImage (dataImage vaddr) 0x1000 192 where
  fits := by decide
  accepted := by
    rw [header]
    decide
  header := by decide
  table := by
    rw [header]
    decide
  sizes := by
    rw [loads]
    intro phdr member
    simp only [dataLoads, List.mem_cons, List.not_mem_nil, or_false] at member
    rcases member with rfl | rfl <;> simp
  inside := by
    rw [loads]
    intro phdr member
    simp only [dataLoads, List.mem_cons, List.not_mem_nil, or_false] at member
    rcases member with rfl | rfl <;> simp
  disjoint := by
    rw [loads]
    unfold dataLoads
    simp only [List.pairwise_cons, List.mem_singleton, forall_eq, List.not_mem_nil, false_imp_iff,
      implies_true, List.Pairwise.nil, and_true]
    omega
  headersKept := by
    intro offset isHeader
    rw [loads]
    rintro ⟨range, isRange, lower, upper⟩
    unfold HeaderByte elf64PhdrSize at isHeader
    rw [header] at isHeader
    simp only [bssRanges, dataLoads, List.map_cons, List.map_nil, List.mem_cons, List.not_mem_nil,
      or_false] at isRange
    rcases isRange with rfl | rfl
    · simp only at lower upper isHeader
      omega
    · simp only at lower upper isHeader
      omega

/-- A data segment below the text: its own bytes are cleared. -/
theorem dataBelow_right : ∃ mem' file',
    elfProcessPheaders (dataImage 0x3ff000) (loadedAt 0x1000) = some (mem', file') ∧
      SegmentsRight (dataImage 0x3ff000) mem' 0x1000 := by
  have loads : elfLoads (dataImage 0x3ff000) 0x1000 = dataLoads 0x3ff000 := by decide +kernel
  refine (pheaders_right_iff _ 0x1000 192 (dataImage_valid (by decide +kernel) loads)).mpr
    (clearsRight_of_lowest ?_ ?_)
  · rw [loads]
    decide
  · rw [loads]
    intro i phdr atIndex some before member
    match i, atIndex, member with
    | 0, _, member => exact absurd member (by simp)
    | 1, atIndex, member =>
      obtain rfl := Option.some.inj atIndex
      obtain rfl := List.mem_singleton.mp member
      decide
    | i + 2, atIndex, _ => exact absurd atIndex (by simp [dataLoads])

/-- A data segment above the text: bytes of the ELF header are cleared in place of its own. -/
theorem dataAbove_keeps_garbage : ¬ ∀ (mem : Ram) (elfMemory size : Nat), ValidImage mem elfMemory size →
    ∃ mem' file', elfProcessPheaders mem (loadedAt elfMemory) = some (mem', file') ∧
      SegmentsRight mem mem' elfMemory := by
  intro all
  have header : elfHeader (dataImage 0x401000) 0x1000 =
      ⟨[0x7f, 0x45, 0x4c, 0x46], 2, 1, etExec, 0x400000, 64, 2⟩ := by decide +kernel
  have loads : elfLoads (dataImage 0x401000) 0x1000 = dataLoads 0x401000 := by decide +kernel
  obtain ⟨mem', file', processed, right⟩ := all _ 0x1000 192 (dataImage_valid header loads)
  have cleared := right.bss ⟨ptLoad, 6, 176, 0x401000, 8, 16⟩ (by rw [loads]; simp [dataLoads]) 8
    (by decide) (by decide)
  have kept : ((pheadersLoop (65533 + 1 + 1 + 1) 0 (dataImage 0x401000) (loadedAt 0x1000)).map
      fun result => result.1 (0x1000 + 176 + 8)) = some 1 := by decide +kernel
  have looped : pheadersLoop (65533 + 1 + 1 + 1) 0 (dataImage 0x401000) (loadedAt 0x1000) =
      some (mem', file') := processed
  rw [looped] at kept
  exact absurd (cleared.symm.trans (Option.some.inj kept)) (by decide)

end ViOS.Loader
