import ViOS.Loader.ElfSegments

/-! # The memory that `elf_process_loaded` touches

Nothing of a file is checked against its length.  The offsets and sizes of the headers
are used as they are, so whether the loader stays in the buffer depends on each header
it reaches, and on the memory at that time, since the loader may clear a header before
it reads it.

* `loadedTouches` — the bytes that are read and written, in order.
* `StaysInside` — all of them lie in the buffer.
* `HeaderFits`, `FileFits` — what the file has to satisfy, header by header.
* `loaded_inside_iff` — that is exactly what it takes.
-/

namespace ViOS.Loader

open ViOS.Memory ViOS.Process

/-! ## The bytes that are touched -/

/-- An access to `size` bytes at `address`. -/
structure Touch where
  address : Nat
  size : Nat
  deriving DecidableEq, Repr

/-- The access stays in the buffer of `length` bytes at `elfMemory`. -/
def Touch.Inside (touch : Touch) (elfMemory length : Nat) : Prop :=
  elfMemory ≤ touch.address ∧ touch.address + touch.size ≤ elfMemory + length

/-- `memcmp` with a constant: it ends at the first byte that differs. -/
def memcmpTouches (mem : Ram) : (expected : List UInt8) → (address : Nat) → List Touch
  | [], _ => []
  | byte :: rest, address =>
    ⟨address, 1⟩ :: if mem address = byte then memcmpTouches mem rest (address + 1) else []

/-- `elf_signature`. -/
def elfSignature : List UInt8 := [0x7f, 0x45, 0x4c, 0x46]

/-- `elf_validate_loaded`: each test is made only if those before it succeeded. -/
def validateTouches (mem : Ram) (elfMemory : Nat) : List Touch :=
  let header := elfHeader mem elfMemory
  memcmpTouches mem elfSignature elfMemory ++
    if elfValidSignature header then
      ⟨elfMemory + 4, 1⟩ ::
        if elfValidClass header then
          ⟨elfMemory + 5, 1⟩ ::
            if elfValidEncoding header then
              ⟨elfMemory + 32, 8⟩ ::
                if elfHasProgramHeader header then
                  ⟨elfMemory + 16, 2⟩ :: if header.eType = etExec then [⟨elfMemory + 24, 8⟩] else []
                else []
            else []
        else []
    else []

/-- The address of a program header. -/
def pheaderAddress (mem : Ram) (elfMemory i : Nat) : Nat :=
  (elfPheader mem elfMemory + i * elf64PhdrSize) % addressSpace

/-- The start of the segment that the header's bytes are cleared behind. -/
def clearBase (file : ElfFile) (phdr : Elf64Phdr) : Nat :=
  if phdr.pVaddr ≤ file.virtualBaseAddress ∨ file.virtualBaseAddress = 0 then elfPhdrPhysAddress file phdr
  else file.physicalBaseAddress

/-- `elf_process_phdr_pt_load` of the header at `address`. -/
def ptLoadTouches (file : ElfFile) (phdr : Elf64Phdr) (address : Nat) : List Touch :=
  let lower := phdr.pVaddr ≤ file.virtualBaseAddress ∨ file.virtualBaseAddress = 0
  let endVirtualAddress := (phdr.pVaddr + phdr.pFilesz) % addressSpace
  let upper := file.virtualEndAddress ≤ endVirtualAddress ∨ file.virtualEndAddress = 0
  [⟨address + 16, 8⟩] ++ (if lower then [⟨address + 8, 8⟩] else []) ++
    [⟨address + 32, 8⟩] ++ (if upper then [⟨address + 8, 8⟩] else []) ++
    [⟨address + 40, 8⟩] ++
    if phdr.pFilesz < phdr.pMemsz then
      [⟨(clearBase file phdr + phdr.pFilesz) % addressSpace, phdr.pMemsz - phdr.pFilesz⟩]
    else []

/-- `elf_program_header` and `elf_process_pheader` of header `i`. -/
def pheaderTouches (mem : Ram) (file : ElfFile) (i : Nat) : List Touch :=
  let phdr := elfProgramHeader mem file.elfMemory i
  let address := pheaderAddress mem file.elfMemory i
  ⟨file.elfMemory + 32, 8⟩ :: ⟨address, 4⟩ ::
    if phdr.pType = ptLoad then ptLoadTouches file phdr address else []

/-- The loop of `elf_process_pheaders`. -/
def pheadersTouches : (fuel i : Nat) → Ram → ElfFile → List Touch
  | 0, _, _, _ => []
  | fuel + 1, i, mem, file =>
    ⟨file.elfMemory + 56, 2⟩ ::
      if i < (elfHeader mem file.elfMemory).ePhnum then
        pheaderTouches mem file i ++
          match elfProcessPheader mem file (elfProgramHeader mem file.elfMemory i) with
          | none => []
          | some (mem, file) => pheadersTouches fuel (i + 1) mem file
      else []

/-- `elf_process_loaded`. -/
def loadedTouches (mem : Ram) (file : ElfFile) : List Touch :=
  validateTouches mem file.elfMemory ++
    if elfValidateLoaded (elfHeader mem file.elfMemory) < 0 then [] else pheadersTouches (2 ^ 16) 0 mem file

/-- Loading the contents is defined and touches the buffer only: a file whose headers cannot be
processed there is refused with `-EINFORMAT`. -/
structure StaysInside (contents : List UInt8) (mem : Ram) (elfMemory : Nat) : Prop where
  defined : ∃ res mem' file', elfLoad contents mem elfMemory = some (res, mem', file') ∧
    (res = viosAllOk ∨ res = -einformat)
  touches : ∀ touch ∈ loadedTouches (readInto contents mem elfMemory) (loadedAt elfMemory),
    touch.Inside elfMemory contents.length

/-! ## The condition -/

/-- The bytes of the buffer that `elf_validate_loaded` looks at, up to the test that fails. -/
def validationNeeds (mem : Ram) (elfMemory : Nat) : Nat :=
  let header := elfHeader mem elfMemory
  if elfValidSignature header then
    if elfValidClass header then if elfValidEncoding header then 40 else 6 else 5
  else (memcmpTouches mem elfSignature elfMemory).length

/-- A header that is reached lies in the buffer, as far as it is read, and so do the bytes to be cleared,
which `memset` can count. -/
def HeaderFits (length : Nat) (mem : Ram) (file : ElfFile) (i : Nat) : Prop :=
  let phdr := elfProgramHeader mem file.elfMemory i
  let address := pheaderAddress mem file.elfMemory i
  if phdr.pType = ptLoad then
    Touch.Inside ⟨address, 48⟩ file.elfMemory length ∧
      (phdr.pFilesz < phdr.pMemsz → phdr.pMemsz - phdr.pFilesz < 2 ^ 31 ∧
        Touch.Inside ⟨(clearBase file phdr + phdr.pFilesz) % addressSpace, phdr.pMemsz - phdr.pFilesz⟩
          file.elfMemory length)
  else Touch.Inside ⟨address, 4⟩ file.elfMemory length

/-- Every header that the loop reaches fits, in the memory it then finds. -/
def HeadersFit (length : Nat) : (fuel i : Nat) → Ram → ElfFile → Prop
  | 0, _, _, _ => True
  | fuel + 1, i, mem, file =>
    i < (elfHeader mem file.elfMemory).ePhnum →
      HeaderFits length mem file i ∧
        ∀ next ∈ elfProcessPheader mem file (elfProgramHeader mem file.elfMemory i),
          HeadersFit length fuel (i + 1) next.1 next.2

/-- The file is long enough for the tests of its header, and when they succeed for the header's last field
that is read and for every program header. -/
def FileFits (contents : List UInt8) (mem : Ram) (elfMemory : Nat) : Prop :=
  let image := readInto contents mem elfMemory
  validationNeeds image elfMemory ≤ contents.length ∧
    (elfValidateLoaded (elfHeader image elfMemory) = viosAllOk →
      58 ≤ contents.length ∧ HeadersFit contents.length (2 ^ 16) 0 image (loadedAt elfMemory))

/-! ## The header -/

section Bounds

variable {mem : Ram} {elfMemory length : Nat}

theorem inside_offset {offset size : Nat} :
    Touch.Inside ⟨elfMemory + offset, size⟩ elfMemory length ↔ offset + size ≤ length := by
  unfold Touch.Inside
  simp only
  omega

theorem memcmpTouches_inside (expected : List UInt8) : ∀ {offset : Nat},
    (∀ touch ∈ memcmpTouches mem expected (elfMemory + offset), touch.Inside elfMemory length) ↔
      (memcmpTouches mem expected (elfMemory + offset)).length = 0 ∨
        offset + (memcmpTouches mem expected (elfMemory + offset)).length ≤ length := by
  induction expected with
  | nil => simp [memcmpTouches]
  | cons byte rest ih =>
    intro offset
    have later := @ih (offset + 1)
    rw [← Nat.add_assoc] at later
    rw [memcmpTouches, List.forall_mem_cons, inside_offset]
    by_cases same : mem (elfMemory + offset) = byte
    · rw [if_pos same, later, List.length_cons]
      omega
    · rw [if_neg same]
      simp

/-- The signature is right when the comparison gets to its end. -/
theorem memcmpTouches_signature (valid : elfValidSignature (elfHeader mem elfMemory) = true) :
    (memcmpTouches mem elfSignature elfMemory).length = 4 := by
  have bytes : [mem elfMemory, mem (elfMemory + 1), mem (elfMemory + 2), mem (elfMemory + 3)] = elfSignature :=
    of_decide_eq_true valid
  unfold elfSignature at bytes ⊢
  simp only [List.cons.injEq, and_true] at bytes
  obtain ⟨first, second, third, fourth⟩ := bytes
  simp [memcmpTouches, first, second, third, fourth]

theorem memcmpTouches_pos : 0 < (memcmpTouches mem elfSignature elfMemory).length := by
  unfold elfSignature
  rw [memcmpTouches]
  exact Nat.succ_pos _

theorem validateTouches_inside :
    (∀ touch ∈ validateTouches mem elfMemory, touch.Inside elfMemory length) ↔
      validationNeeds mem elfMemory ≤ length := by
  have compared := @memcmpTouches_inside mem elfMemory length elfSignature 0
  have positive := @memcmpTouches_pos mem elfMemory
  rw [Nat.add_zero, Nat.zero_add, or_iff_right (by omega)] at compared
  unfold validateTouches validationNeeds
  simp only
  rw [List.forall_mem_append, compared]
  by_cases signature : elfValidSignature (elfHeader mem elfMemory) = true
  · rw [if_pos signature, if_pos signature, memcmpTouches_signature signature, List.forall_mem_cons,
      inside_offset]
    by_cases cls : elfValidClass (elfHeader mem elfMemory) = true
    · rw [if_pos cls, if_pos cls, List.forall_mem_cons, inside_offset]
      by_cases encoding : elfValidEncoding (elfHeader mem elfMemory) = true
      · rw [if_pos encoding, if_pos encoding, List.forall_mem_cons, inside_offset]
        -- what is read after `e_phoff` lies before it
        have rest : 40 ≤ length → ∀ touch ∈ (if elfHasProgramHeader (elfHeader mem elfMemory) = true then
            ⟨elfMemory + 16, 2⟩ :: if (elfHeader mem elfMemory).eType = etExec then [⟨elfMemory + 24, 8⟩] else []
            else []), Touch.Inside touch elfMemory length := by
          intro long
          split
          · rw [List.forall_mem_cons, inside_offset]
            refine ⟨by omega, ?_⟩
            split
            · rw [List.forall_mem_singleton, inside_offset]
              omega
            · simp
          · simp
        constructor
        · rintro ⟨-, -, -, long, -⟩
          exact long
        · intro long
          exact ⟨by omega, by omega, by omega, long, rest long⟩
      · rw [if_neg encoding, if_neg encoding]
        simp
        omega
    · rw [if_neg cls, if_neg cls]
      simp
      omega
  · rw [if_neg signature, if_neg signature]
    simp

end Bounds

/-! ## The program headers -/

section Headers

variable {length : Nat} {mem : Ram} {file : ElfFile} {phdr : Elf64Phdr} {address : Nat}

/-- The fields that are read lie between the first and the last of them. -/
theorem ptLoadTouches_inside {elfMemory : Nat} (isType : Touch.Inside ⟨address, 4⟩ elfMemory length) :
    (∀ touch ∈ ptLoadTouches file phdr address, touch.Inside elfMemory length) ↔
      Touch.Inside ⟨address, 48⟩ elfMemory length ∧
        (phdr.pFilesz < phdr.pMemsz →
          Touch.Inside ⟨(clearBase file phdr + phdr.pFilesz) % addressSpace, phdr.pMemsz - phdr.pFilesz⟩
            elfMemory length) := by
  have field : Touch.Inside ⟨address, 48⟩ elfMemory length → ∀ offset, offset ≤ 40 →
      Touch.Inside ⟨address + offset, 8⟩ elfMemory length := by
    intro inside offset small
    unfold Touch.Inside at *
    simp only at *
    omega
  have optional : ∀ (p : Prop) [Decidable p], Touch.Inside ⟨address, 48⟩ elfMemory length →
      ∀ touch ∈ (if p then [(⟨address + 8, 8⟩ : Touch)] else []), Touch.Inside touch elfMemory length := by
    intro p _ inside touch member
    split at member
    · rw [List.mem_singleton.mp member]
      exact field inside 8 (by decide)
    · exact absurd member List.not_mem_nil
  unfold ptLoadTouches
  simp only [List.forall_mem_append, List.forall_mem_singleton]
  constructor
  · rintro ⟨⟨⟨-, -⟩, last⟩, clear⟩
    refine ⟨?_, fun some => ?_⟩
    · unfold Touch.Inside at *
      simp only at *
      omega
    · rw [if_pos some] at clear
      exact clear _ (List.mem_singleton_self _)
  · rintro ⟨inside, clear⟩
    refine ⟨⟨⟨⟨⟨field inside 16 (by decide), optional _ inside⟩, field inside 32 (by decide)⟩,
      optional _ inside⟩, field inside 40 (by decide)⟩, ?_⟩
    intro touch member
    split at member
    · rename_i some
      rw [List.mem_singleton.mp member]
      exact clear some
    · exact absurd member List.not_mem_nil

theorem elfProcessPheader_isSome : (elfProcessPheader mem file phdr).isSome ↔
    (phdr.pType = ptLoad → phdr.pFilesz < phdr.pMemsz → phdr.pMemsz - phdr.pFilesz < 2 ^ 31) := by
  unfold elfProcessPheader
  by_cases isLoad : phdr.pType = ptLoad
  · obtain ⟨file', -, -, result⟩ := elfProcessPhdrPtLoad_eq mem file phdr
    rw [if_pos isLoad, result]
    by_cases some : phdr.pFilesz < phdr.pMemsz
    · rw [if_pos some, Option.isSome_map]
      unfold memsetRam
      by_cases small : phdr.pMemsz - phdr.pFilesz < 2 ^ 31
      · rw [if_pos small]
        exact iff_of_true rfl fun _ _ => small
      · rw [if_neg small]
        exact iff_of_false Bool.false_ne_true fun all => small (all isLoad some)
    · simp [some]
  · simp [isLoad]

/-- One header: it is processed inside the buffer just when it fits. -/
theorem pheaderTouches_inside {i : Nat} (long : 40 ≤ length) :
    ((elfProcessPheader mem file (elfProgramHeader mem file.elfMemory i)).isSome ∧
      ∀ touch ∈ pheaderTouches mem file i, touch.Inside file.elfMemory length) ↔
      HeaderFits length mem file i := by
  have offsets : Touch.Inside ⟨file.elfMemory + 32, 8⟩ file.elfMemory length := inside_offset.mpr (by omega)
  unfold pheaderTouches HeaderFits
  simp only [List.forall_mem_cons, offsets, true_and]
  rw [elfProcessPheader_isSome]
  generalize elfProgramHeader mem file.elfMemory i = phdr
  generalize pheaderAddress mem file.elfMemory i = address
  by_cases isLoad : phdr.pType = ptLoad
  · simp only [isLoad, if_true, true_imp_iff]
    have whole : Touch.Inside ⟨address, 48⟩ file.elfMemory length →
        Touch.Inside ⟨address, 4⟩ file.elfMemory length := by
      unfold Touch.Inside
      simp only
      omega
    constructor
    · rintro ⟨small, isType, fields⟩
      obtain ⟨inside, clear⟩ := (ptLoadTouches_inside isType).mp fields
      exact ⟨inside, fun some => ⟨small some, clear some⟩⟩
    · rintro ⟨inside, clear⟩
      exact ⟨fun some => (clear some).1, whole inside,
        (ptLoadTouches_inside (whole inside)).mpr ⟨inside, fun some => (clear some).2⟩⟩
  · simp [isLoad]

/-- The loop, header by header. -/
theorem pheadersTouches_inside (long : 58 ≤ length) (fuel : Nat) : ∀ {i : Nat} {mem : Ram} {file : ElfFile},
    ((pheadersLoop fuel i mem file).isSome ∧
      ∀ touch ∈ pheadersTouches fuel i mem file, touch.Inside file.elfMemory length) ↔
      HeadersFit length fuel i mem file := by
  induction fuel with
  | zero =>
    intro i mem file
    simp [pheadersLoop, pheadersTouches, HeadersFit]
  | succ fuel ih =>
    intro i mem file
    have number : Touch.Inside ⟨file.elfMemory + 56, 2⟩ file.elfMemory length := inside_offset.mpr long
    rw [pheadersLoop, pheadersTouches, HeadersFit, List.forall_mem_cons]
    by_cases inTable : i < (elfHeader mem file.elfMemory).ePhnum
    · have header := @pheaderTouches_inside length mem file i (by omega)
      simp only [inTable, if_true, true_imp_iff, number, true_and, List.forall_mem_append]
      rw [← header]
      cases processed : elfProcessPheader mem file (elfProgramHeader mem file.elfMemory i) with
      | none => simp
      | some next =>
        obtain ⟨mem', file'⟩ := next
        have sameMemory := (elfProcessPheader_onlyZeroed processed).2
        have rest := @ih (i + 1) mem' file'
        rw [sameMemory] at rest
        simp only [Option.isSome_some, true_and, Option.mem_def, Option.some.injEq, forall_eq']
        rw [← rest]
        exact and_left_comm
    · simp [inTable, number]

end Headers

/-! ## The file -/

theorem elfValidateLoaded_cases (header : ElfHeader) :
    elfValidateLoaded header = viosAllOk ∨ elfValidateLoaded header = -einformat := by
  unfold elfValidateLoaded
  split
  · exact .inl rfl
  · exact .inr rfl

/-- Loading is defined when the header is refused or the loop is. -/
theorem elfLoad_defined (contents : List UInt8) (mem : Ram) (elfMemory : Nat) :
    (∃ res mem' file', elfLoad contents mem elfMemory = some (res, mem', file') ∧
      (res = viosAllOk ∨ res = -einformat)) ↔
      (elfValidateLoaded (elfHeader (readInto contents mem elfMemory) elfMemory) = viosAllOk →
        (pheadersLoop (2 ^ 16) 0 (readInto contents mem elfMemory) (loadedAt elfMemory)).isSome) := by
  have differ : (-einformat : Int) ≠ viosAllOk := by decide
  unfold elfLoad elfProcessLoaded loadedAt
  simp only
  rcases elfValidateLoaded_cases (elfHeader (readInto contents mem elfMemory) elfMemory) with
    accepted | refused
  · rw [accepted, if_neg (by decide)]
    simp only [true_imp_iff]
    cases pheadersLoop (2 ^ 16) 0 (readInto contents mem elfMemory) ⟨elfMemory, 0, 0, 0, 0⟩ with
    | none => simp
    | some result => exact iff_of_true ⟨0, result.1, result.2, rfl, .inl rfl⟩ rfl
  · rw [refused, if_pos (by decide)]
    exact iff_of_true ⟨_, _, _, rfl, .inr rfl⟩ fun accepted => absurd accepted differ

/-- The header's tests, and the program headers of a file that passes them. -/
theorem loadedTouches_inside {mem : Ram} {elfMemory length : Nat} :
    (∀ touch ∈ loadedTouches mem (loadedAt elfMemory), touch.Inside elfMemory length) ↔
      validationNeeds mem elfMemory ≤ length ∧
        (elfValidateLoaded (elfHeader mem elfMemory) = viosAllOk →
          ∀ touch ∈ pheadersTouches (2 ^ 16) 0 mem (loadedAt elfMemory), touch.Inside elfMemory length) := by
  change (∀ touch ∈ validateTouches mem elfMemory ++
    (if elfValidateLoaded (elfHeader mem elfMemory) < 0 then []
      else pheadersTouches (2 ^ 16) 0 mem (loadedAt elfMemory)), _) ↔ _
  rw [List.forall_mem_append, validateTouches_inside]
  refine and_congr_right fun _ => ?_
  rcases elfValidateLoaded_cases (elfHeader mem elfMemory) with accepted | refused
  · rw [accepted, if_neg (by decide)]
    simp only [true_imp_iff]
  · have differ : (-einformat : Int) ≠ viosAllOk := by decide
    rw [refused, if_pos (by decide)]
    simp [differ]

/-- `elf_process_loaded` stays inside the buffer of the file just when the file fits. -/
theorem loaded_inside_iff (contents : List UInt8) (mem : Ram) (elfMemory : Nat) :
    StaysInside contents mem elfMemory ↔ FileFits contents mem elfMemory := by
  have parts : StaysInside contents mem elfMemory ↔ _ ∧ _ :=
    ⟨fun inside => ⟨inside.defined, inside.touches⟩, fun both => ⟨both.1, both.2⟩⟩
  rw [parts, elfLoad_defined, loadedTouches_inside]
  unfold FileFits
  simp only
  generalize readInto contents mem elfMemory = image
  rw [and_left_comm, ← forall_and]
  refine and_congr_right fun _ => forall_congr' fun _ => ?_
  by_cases long : 58 ≤ contents.length
  · rw [and_iff_right long]
    exact pheadersTouches_inside long (2 ^ 16)
  · -- the loop reads `e_phnum` before anything else
    refine iff_of_false (fun both => ?_) fun both => long both.1
    have number := both.2 ⟨elfMemory + 56, 2⟩ (by
      rw [show 2 ^ 16 = 65535 + 1 from rfl, pheadersTouches]
      exact List.mem_cons_self)
    exact long (inside_offset.mp number)

/-- One segment that starts with the file and asks for `memsz` bytes. -/
def bssElf (memsz : Nat) : List UInt8 :=
  [0x7f, 0x45, 0x4c, 0x46, 2, 1] ++ leBytes 10 0 ++ leBytes 2 etExec ++ leBytes 6 0 ++
    leBytes 8 0x400000 ++ leBytes 8 64 ++ leBytes 16 0 ++ leBytes 2 1 ++ leBytes 6 0 ++
    leBytes 4 ptLoad ++ leBytes 4 6 ++ leBytes 8 0 ++ leBytes 8 0x400000 ++ leBytes 8 0 ++
    leBytes 8 120 ++ leBytes 8 memsz ++ leBytes 8 0

/-- A segment larger than the file: the memory behind the buffer is cleared. -/
theorem bssElf_writes_outside : ¬ ∀ (contents : List UInt8) (mem : Ram) (elfMemory : Nat),
    StaysInside contents mem elfMemory := by
  intro all
  have inside := (all (bssElf 0x2000) (fun _ => 0) 0x1000).touches ⟨0x1078, 0x1f88⟩ (by
    have accepted : ¬ elfValidateLoaded
        (elfHeader (readInto (bssElf 0x2000) (fun _ => 0) 0x1000) 0x1000) < 0 := by decide +kernel
    have written : (⟨0x1078, 0x1f88⟩ : Touch) ∈ pheadersTouches (65535 + 1) 0
        (readInto (bssElf 0x2000) (fun _ => 0) 0x1000) (loadedAt 0x1000) := by
      rw [pheadersTouches, if_pos (by decide +kernel)]
      refine List.mem_cons_of_mem _ (List.mem_append_left _ ?_)
      decide +kernel
    refine List.mem_append_right _ ?_
    change _ ∈ if elfValidateLoaded
      (elfHeader (readInto (bssElf 0x2000) (fun _ => 0) 0x1000) 0x1000) < 0 then [] else _
    rw [if_neg accepted]
    exact written)
  have length : (bssElf 0x2000).length = 120 := by decide +kernel
  rw [length] at inside
  exact absurd inside.2 (by decide)

end ViOS.Loader
