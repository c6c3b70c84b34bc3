import ViOS.Fs.Fat16
import ViOS.Memory.PagingMapped
import ViOS.Task.ProcessFiles
import Mathlib.Order.Interval.Set.Basic

/-! # The buffers of `process_fread` and `process_fwrite`

Both calls translate the first address of the user's buffer and go on with physical
addresses.  `process_fread` has the buffer checked before; `process_fwrite` does not, and
hands whatever follows the first byte in physical memory to the filesystem.

* `fat16Read_stores_le`, `processFread_stores_le` — a read stores no more bytes than were
  checked, although the product is computed modulo 2^64 there and modulo 2^32 here.
* `processFwriteHands` — the addresses of the bytes that a write is made of.
* `processFwrite_reads` — nothing else of the memory matters to the call.
* `processFwriteHands_user_iff` — when all of them belong to the process.
-/

namespace ViOS.Process

open ViOS.Fs ViOS.Memory

/-! ## What a read stores -/

section Stores

variable (volume : FatVolume)

theorem readPart_length (store : ByteStore) (pos : Int) (total : Nat) :
    (store.readPart pos total).length ≤ total := by
  unfold ByteStore.readPart
  split
  · rw [List.length_map, List.length_range]
    exact Nat.min_le_left _ _
  · exact Nat.zero_le _

theorem readLoop_length (cluster : Int) (fuel : Nat) (offset : Int) (total : Nat) :
    (readLoop volume cluster fuel offset total).2.length ≤ total := by
  induction fuel generalizing offset total with
  | zero => exact Nat.zero_le _
  | succ fuel ih =>
    rw [readLoop]
    by_cases done : total = 0
    · rw [if_pos done]
      exact Nat.zero_le _
    · rw [if_neg done]
      by_cases failed : fat16GetClusterForOffset volume cluster offset < 0
      · simp only [if_pos failed]
        exact Nat.zero_le _
      · simp only [if_neg failed]
        -- the turn asks for at most what is left
        have asked := Nat.min_le_right (volume.header.clusterSize - offset.tmod volume.header.clusterSize).toNat total
        split
        · exact (readPart_length _ _ _).trans asked
        · have later := ih (offset + (min (volume.header.clusterSize -
            offset.tmod volume.header.clusterSize).toNat total : Nat))
            (total - min (volume.header.clusterSize - offset.tmod volume.header.clusterSize).toNat total)
          simp only [List.length_append, List.length_map, List.length_range]
          omega

theorem fat16ReadInternal_length (cluster offset : Int) (size : Nat) :
    (fat16ReadInternal volume cluster offset (asInt size)).2.length ≤ size := by
  have stored := readLoop_length volume cluster (asInt size).toNat offset (asInt size).toNat
  have cut : (asInt size).toNat ≤ size := by
    unfold asInt
    split
    · omega
    · omega
  unfold fat16ReadInternal
  simp only
  split
  · exact stored.trans cut
  · exact stored.trans cut

theorem readItemsLoop_length (firstCluster : Int) (size items offset : Nat) :
    (readItemsLoop volume firstCluster size items offset).2.length ≤ items * size := by
  induction items generalizing offset with
  | zero => exact Nat.zero_le _
  | succ items ih =>
    have first := fat16ReadInternal_length volume firstCluster (asInt offset) size
    have rest := ih ((offset + size) % 2 ^ 32)
    rw [readItemsLoop, Nat.succ_mul]
    simp only
    split
    · exact first.trans (Nat.le_add_left _ _)
    · rw [List.length_append]
      omega

theorem itemsToRead_mul_le (item : FatDirectoryItem) (pos size nmemb : Nat) :
    itemsToRead item pos size nmemb * size ≤ size * nmemb % 2 ^ 32 :=
  (Nat.div_mul_le_self _ _).trans (Nat.min_le_left _ _)

theorem fat16Read_stores_le (state : FatState) (ptr : Ptr) (size nmemb : Nat) :
    (fat16Read state ptr size nmemb).2.1.length ≤ size * nmemb % 2 ^ 32 := by
  unfold fat16Read
  cases state.descriptors ptr with
  | none => exact Nat.zero_le _
  | some descriptor =>
    simp only
    cases descriptor.item.data with
    | directory => exact Nat.zero_le _
    | file item =>
      have whole := itemsToRead_mul_le item descriptor.pos size nmemb
      have stored := readItemsLoop_length state.volume (asInt (fat16GetFirstCluster item)) size
        (itemsToRead item descriptor.pos size nmemb) descriptor.pos
      simp only
      split
      · exact Nat.zero_le _
      · split
        · exact stored.trans whole
        · exact stored.trans whole

end Stores

/-- The product of the truncated factors, modulo 2^32, is at most the product modulo 2^64. -/
theorem truncated_product_le (size nmemb : Nat) :
    size % 2 ^ 32 * (nmemb % 2 ^ 32) % 2 ^ 32 ≤ size * nmemb % addressSpace := by
  have space : addressSpace = 2 ^ 32 * 2 ^ 32 := by decide
  calc size % 2 ^ 32 * (nmemb % 2 ^ 32) % 2 ^ 32 = size * nmemb % 2 ^ 32 := (Nat.mul_mod _ _ _).symm
    _ = size * nmemb % addressSpace % 2 ^ 32 := by rw [space, Nat.mod_mul_right_mod]
    _ ≤ size * nmemb % addressSpace := Nat.mod_le _ _

/-- What `process_fread` stores in a file's buffer was checked, and is no more than what was checked. -/
theorem processFread_stores_le (disks : List Bool) (primaryFsDisk : Option Nat) (memory : UserMemory)
    (virtPtr size nmemb : Nat) (fd : Int) (files : FileState FatState) (fileHandles : List Int) :
    let stored := (processFread ⟨fat16Fs, disks, primaryFsDisk⟩ memory virtPtr size nmemb fd files fileHandles).result.data
    stored.length ≤ size * nmemb % addressSpace ∧
      (stored ≠ [] →
        0 ≤ (processValidateMemoryOrTerminate memory.allocations virtPtr (size * nmemb % addressSpace)).1) := by
  intro stored
  suffices bounded : stored = [] ∨ stored.length ≤ size % 2 ^ 32 * (nmemb % 2 ^ 32) % 2 ^ 32 ∧
      0 ≤ (processValidateMemoryOrTerminate memory.allocations virtPtr (size * nmemb % addressSpace)).1 by
    cases bounded with
    | inl nothing =>
      rw [nothing]
      exact ⟨Nat.zero_le _, fun some => absurd rfl some⟩
    | inr bounded => exact ⟨bounded.1.trans (truncated_product_le size nmemb), fun _ => bounded.2⟩
  subst stored
  unfold processFread
  cases processFileHandleGet fileHandles fd with
  | none => exact .inl rfl
  | some handle =>
    simp only
    split
    · exact .inl rfl
    · rename_i accepted
      split
      · exact .inl rfl
      · refine .inr ⟨?_, Int.not_lt.mp accepted⟩
        unfold fread
        split
        · exact Nat.zero_le _
        · cases fileGetDescriptor files.descriptors handle with
          | none => exact Nat.zero_le _
          | some desc => exact fat16Read_stores_le files.volumes desc.privateData _ _

/-! ## What a write is made of -/

/-- `task_virtual_address_to_physical`. -/
def taskVirtualAddressToPhysical (mem : Nat → Nat → PagingDescEntry) (desc : PagingDesc)
    (virtualAddress : Nat) : Nat := pagingGetPhysicalAddress mem desc virtualAddress

/-- The bytes at the pointer that `fat16_write` asks for: `total` is used as an `int`. -/
def fwriteCount (size nmemb : Nat) : Nat := (asInt (size * nmemb % 2 ^ 32)).toNat

section Write

variable {φ : Type}

/-- The addresses of the bytes that `fwrite` hands to the filesystem. -/
def fwriteHands (files : FileState φ) (ptr size nmemb : Nat) (fd : Int) : Set Nat :=
  if size = 0 ∨ nmemb = 0 ∨ fd < 1 then ∅
  else
    match fileGetDescriptor files.descriptors fd with
    | none => ∅
    | some _ => Set.Ico ptr (ptr + fwriteCount size nmemb)

/-- The addresses of the bytes that `process_fwrite` hands to the filesystem. -/
def processFwriteHands (mem : Nat → Nat → PagingDescEntry) (desc : PagingDesc) (virtPtr size nmemb : Nat)
    (fd : Int) (files : FileState φ) (fileHandles : List Int) : Set Nat :=
  match processFileHandleGet fileHandles fd with
  | none => ∅
  | some fd =>
    let physPtr := taskVirtualAddressToPhysical mem desc virtPtr
    if physPtr = 0 then ∅ else fwriteHands files physPtr size nmemb fd

/-- `process_fwrite` of a process with page tables, in a machine with the given memory. -/
def processFwriteFrom (env : FileEnv φ) (ram : Nat → UInt8) (allocations : List ProcessAllocation)
    (mem : Nat → Nat → PagingDescEntry) (desc : PagingDesc) (virtPtr size nmemb : Nat) (fd : Int)
    (files : FileState φ) (fileHandles : List Int) : FileOutcome φ :=
  let physPtr := taskVirtualAddressToPhysical mem desc virtPtr
  processFwrite env ⟨allocations, taskVirtualAddressToPhysical mem desc⟩ virtPtr
    ((List.range (fwriteCount size nmemb)).map fun i => ram (physPtr + i)) size nmemb fd files fileHandles

/-- The bytes that are handed over are the only ones that matter. -/
theorem processFwrite_reads (env : FileEnv φ) (allocations : List ProcessAllocation)
    (mem : Nat → Nat → PagingDescEntry) (desc : PagingDesc) (virtPtr size nmemb : Nat) (fd : Int)
    (files : FileState φ) (fileHandles : List Int) {ram ram' : Nat → UInt8}
    (same : ∀ address ∈ processFwriteHands mem desc virtPtr size nmemb fd files fileHandles,
      ram' address = ram address) :
    processFwriteFrom env ram' allocations mem desc virtPtr size nmemb fd files fileHandles =
      processFwriteFrom env ram allocations mem desc virtPtr size nmemb fd files fileHandles := by
  unfold processFwriteFrom processFwrite
  unfold processFwriteHands at same
  cases owned : processFileHandleGet fileHandles fd with
  | none => rfl
  | some handle =>
    simp only [owned] at same ⊢
    by_cases unmapped : taskVirtualAddressToPhysical mem desc virtPtr = 0
    · rw [if_pos unmapped, if_pos unmapped]
    · rw [if_neg unmapped, if_neg unmapped]
      rw [if_neg unmapped] at same
      unfold fwriteHands at same
      unfold fwrite
      by_cases refused : size = 0 ∨ nmemb = 0 ∨ handle < 1
      · rw [if_pos refused, if_pos refused]
      · rw [if_neg refused, if_neg refused]
        rw [if_neg refused] at same
        cases opened : fileGetDescriptor files.descriptors handle with
        | none => rfl
        | some open_ =>
          simp only [opened] at same
          have data : (List.range (fwriteCount size nmemb)).map
                (fun i => ram' (taskVirtualAddressToPhysical mem desc virtPtr + i)) =
              (List.range (fwriteCount size nmemb)).map
                fun i => ram (taskVirtualAddressToPhysical mem desc virtPtr + i) := by
            apply List.map_congr_left
            intro i inRange
            exact same _ ⟨Nat.le_add_right _ _, Nat.add_lt_add_left (List.mem_range.mp inRange) _⟩
          rw [data]

end Write

/-! ## Whose bytes they are -/

/-- Some page of the process that user code can reach is mapped to the frame. -/
def UserFrame (mem : Nat → Nat → PagingDescEntry) (pml frame : Nat) : Prop :=
  ∃ virt location mapping, hardwareWalk mem pml virt = some (location, mapping) ∧
    mapping.present = true ∧ mapping.user = true ∧ mapping.frame = frame

/-- The call gets as far as the filesystem with at least one byte. -/
def FwriteStarts {φ : Type} (mem : Nat → Nat → PagingDescEntry) (desc : PagingDesc) (virtPtr size nmemb : Nat)
    (fd : Int) (files : FileState φ) (fileHandles : List Int) : Prop :=
  fd ∈ fileHandles ∧ taskVirtualAddressToPhysical mem desc virtPtr ≠ 0 ∧ 1 ≤ fd ∧
    fileGetDescriptor files.descriptors fd ≠ none ∧ 0 < fwriteCount size nmemb

/-- The frames from the one of the first byte to the one of the last byte are the process's. -/
def FramesOwned (mem : Nat → Nat → PagingDescEntry) (desc : PagingDesc) (virtPtr size nmemb : Nat) : Prop :=
  let first := taskVirtualAddressToPhysical mem desc virtPtr
  ∀ frame, first / pagingPageSize ≤ frame → frame ≤ (first + fwriteCount size nmemb - 1) / pagingPageSize →
    UserFrame mem desc.pml frame

section Owned

variable {φ : Type} {mem : Nat → Nat → PagingDescEntry} {desc : PagingDesc} {virtPtr size nmemb : Nat} {fd : Int}
  {files : FileState φ} {fileHandles : List Int}

theorem processFileHandleGet_eq (fileHandles : List Int) (fd : Int) :
    processFileHandleGet fileHandles fd = if fd ∈ fileHandles then some fd else none := by
  unfold processFileHandleGet
  by_cases owned : fd ∈ fileHandles
  · rw [if_pos owned]
    cases found : fileHandles.find? (· = fd) with
    | none =>
      have missing := List.find?_eq_none.mp found fd owned
      simp at missing
    | some other =>
      have same := List.find?_some found
      simp only [decide_eq_true_eq] at same
      rw [same]
  · rw [if_neg owned]
    refine List.find?_eq_none.mpr fun other member same => ?_
    simp only [decide_eq_true_eq] at same
    exact owned (same ▸ member)

theorem fwriteCount_zero (zero : size = 0 ∨ nmemb = 0) : fwriteCount size nmemb = 0 := by
  have none : size * nmemb = 0 := Nat.mul_eq_zero.mpr zero
  unfold fwriteCount
  rw [none]
  rfl

theorem hands_of_starts (starts : FwriteStarts mem desc virtPtr size nmemb fd files fileHandles) :
    processFwriteHands mem desc virtPtr size nmemb fd files fileHandles =
      Set.Ico (taskVirtualAddressToPhysical mem desc virtPtr)
        (taskVirtualAddressToPhysical mem desc virtPtr + fwriteCount size nmemb) := by
  obtain ⟨owned, mapped, positive, opened, some⟩ := starts
  obtain ⟨open_, found⟩ := Option.ne_none_iff_exists'.mp opened
  have notEmpty : ¬ (size = 0 ∨ nmemb = 0 ∨ fd < 1) := by
    rintro (zero | zero | small)
    · rw [fwriteCount_zero (.inl zero)] at some
      exact absurd some (Nat.lt_irrefl 0)
    · rw [fwriteCount_zero (.inr zero)] at some
      exact absurd some (Nat.lt_irrefl 0)
    · omega
  unfold processFwriteHands fwriteHands
  rw [processFileHandleGet_eq, if_pos owned]
  simp only [if_neg mapped, if_neg notEmpty, found]

theorem hands_of_not_starts (stops : ¬ FwriteStarts mem desc virtPtr size nmemb fd files fileHandles) :
    processFwriteHands mem desc virtPtr size nmemb fd files fileHandles = ∅ := by
  unfold processFwriteHands fwriteHands
  rw [processFileHandleGet_eq]
  by_cases owned : fd ∈ fileHandles
  · rw [if_pos owned]
    simp only
    by_cases unmapped : taskVirtualAddressToPhysical mem desc virtPtr = 0
    · rw [if_pos unmapped]
    · rw [if_neg unmapped]
      by_cases refused : size = 0 ∨ nmemb = 0 ∨ fd < 1
      · rw [if_pos refused]
      · rw [if_neg refused]
        cases found : fileGetDescriptor files.descriptors fd with
        | none => rfl
        | some open_ =>
          have nothing : fwriteCount size nmemb = 0 := by
            by_contra some
            exact stops ⟨owned, unmapped, by omega, by rw [found]; exact Option.some_ne_none _, by omega⟩
          simp only [nothing, Nat.add_zero, Set.Ico_self]
  · rw [if_neg owned]

end Owned

/-- The bytes that `process_fwrite` hands to the filesystem are all in frames that the process can reach
exactly when the call stops before, or the frames behind the first address are the process's. -/
theorem processFwriteHands_user_iff {φ : Type} (mem : Nat → Nat → PagingDescEntry) (desc : PagingDesc)
    (virtPtr size nmemb : Nat) (fd : Int) (files : FileState φ) (fileHandles : List Int) :
    (∀ address ∈ processFwriteHands mem desc virtPtr size nmemb fd files fileHandles,
        UserFrame mem desc.pml (address / pagingPageSize)) ↔
      ¬ FwriteStarts mem desc virtPtr size nmemb fd files fileHandles ∨ FramesOwned mem desc virtPtr size nmemb := by
  by_cases starts : FwriteStarts mem desc virtPtr size nmemb fd files fileHandles
  · have some := starts.2.2.2.2
    rw [hands_of_starts starts]
    constructor
    · intro user
      refine .inr fun frame lower upper => ?_
      -- a byte of the buffer in this frame: the first one, or the first of the frame
      have inside := user (max (taskVirtualAddressToPhysical mem desc virtPtr) (frame * pagingPageSize)) (by
        rw [Set.mem_Ico]
        unfold pagingPageSize at *
        omega)
      have sameFrame : max (taskVirtualAddressToPhysical mem desc virtPtr) (frame * pagingPageSize) / pagingPageSize =
          frame := by
        unfold pagingPageSize at *
        omega
      rwa [sameFrame] at inside
    · intro condition address handed
      have frames := condition.resolve_left (not_not.mpr starts)
      rw [Set.mem_Ico] at handed
      refine frames (address / pagingPageSize) (Nat.div_le_div_right handed.1) (Nat.div_le_div_right ?_)
      omega
  · rw [hands_of_not_starts starts]
    exact iff_of_true (fun address handed => absurd handed (Set.notMem_empty _)) (.inl starts)

/-- The tables of a process in which the kernel's page 5 is mapped onto itself, without the user bit. -/
def kernelPage (table index : Nat) : PagingDescEntry :=
  if index = 0 ∧ (table = 0x1000 ∨ table = 0x2000 ∨ table = 0x3000) then
    { nullDesc with present := true, readWrite := true, userSupervisor := true, address := table / 0x1000 + 1 }
  else if table = 0x4000 ∧ index = 5 then { nullDesc with present := true, readWrite := true, address := 5 }
  else nullDesc

theorem kernelPage_child {table index next : Nat} (isTable : table = 0x1000 ∨ table = 0x2000 ∨ table = 0x3000)
    (followed : follow (kernelPage table index) = some next) : next = table + 0x1000 := by
  by_cases first : index = 0
  · subst first
    obtain rfl | rfl | rfl := isTable
    · exact (Option.some.inj ((by decide : follow (kernelPage 0x1000 0) = some 0x2000).symm.trans followed)).symm
    · exact (Option.some.inj ((by decide : follow (kernelPage 0x2000 0) = some 0x3000).symm.trans followed)).symm
    · exact (Option.some.inj ((by decide : follow (kernelPage 0x3000 0) = some 0x4000).symm.trans followed)).symm
  · have null : kernelPage table index = nullDesc := by
      unfold kernelPage
      rw [if_neg fun isFirst => first isFirst.1, if_neg (by omega)]
    have stops : follow nullDesc = none := by decide
    rw [null, stops] at followed
    exact absurd followed (Option.some_ne_none next).symm

theorem kernelPage_not_user (frame : Nat) : ¬ UserFrame kernelPage 0x1000 frame := by
  rintro ⟨virt, location, mapping, walk, -, user, -⟩
  simp only [hardwareWalk, Option.bind_eq_bind, Option.bind_eq_some_iff, Option.pure_def, Option.some.injEq,
    Prod.mk.injEq] at walk
  obtain ⟨pdpt, toPdpt, pd, toPd, pt, toPt, -, rfl⟩ := walk
  obtain rfl := kernelPage_child (.inl rfl) toPdpt
  obtain rfl := kernelPage_child (.inr (.inl rfl)) toPd
  obtain rfl := kernelPage_child (.inr (.inr rfl)) toPt
  -- the leaf table grants nothing to user code
  have leaf : (kernelPage 0x4000 (ptIndex virt)).userSupervisor = false := by
    unfold kernelPage
    rw [if_neg (by omega)]
    split
    · rfl
    · rfl
  rw [Bool.and_eq_true] at user
  exact absurd (user.2.symm.trans leaf) (by decide)

/-- A process that owns descriptor 1 writes 16 bytes of the kernel's page to its file. -/
theorem kernelPage_written :
    0x5000 ∈ processFwriteHands kernelPage ⟨0x1000, 4⟩ 0x5000 16 1 1
        (⟨fun i => if i = 0 then some ⟨1, 0x9000, 0⟩ else none, ()⟩ : FileState Unit) [1] ∧
      ¬ UserFrame kernelPage 0x1000 (0x5000 / pagingPageSize) := by
  refine ⟨?_, kernelPage_not_user _⟩
  have starts : FwriteStarts kernelPage ⟨0x1000, 4⟩ 0x5000 16 1 1
      (⟨fun i => if i = 0 then some ⟨1, 0x9000, 0⟩ else none, ()⟩ : FileState Unit) [1] :=
    ⟨List.mem_singleton.mpr rfl, by decide, by decide, by decide, by decide⟩
  rw [hands_of_starts starts, Set.mem_Ico]
  decide

end ViOS.Process
