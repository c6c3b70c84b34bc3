import ViOS.Fs.BootSector
import ViOS.Fs.ShortNames
import ViOS.Lib.Run

/-! # Divisions of the driver

`fat16_resolve` looks at one byte of the boot sector, the signature; the driver divides by
what other bytes say.  Every function that divides has a list of the divisors it evaluates,
in order, up to its return; the lists follow the control flow of the functions.  Divisions
by constants inside the stream and the string functions are left out.

* `lookupDivisors`, …, `fat16OpenDivisors`, `fat16ReadDivisors`, `fat16WriteDivisors`,
  `fat16TruncateDivisors` — the divisors.
* `write_header`, …, `writeInternal_header` — no call changes the header.
* `FatCall`, `FatStep` — the calls that reach the driver.
* `DividesSafely`, `resolved_dividesSafely` — the runs without a division by zero.
-/

namespace ViOS.Fs

open ViOS.Lib

/-! ## The divisors -/

section Divisors

variable (volume : FatVolume)

/-- `fat16_get_cluster_for_offset`. -/
def lookupDivisors : List Nat := [volume.header.clusterSize]

/-- The loop of `fat16_read_internal_from_stream`. -/
def readLoopDivisors (cluster : Int) : (fuel : Nat) → (offset : Int) → (total : Nat) → List Nat
  | 0, _, _ => []
  | fuel + 1, offset, total =>
    if total = 0 then []
    else
      let res := fat16GetClusterForOffset volume cluster offset
      if res < 0 then lookupDivisors volume
      else
        let offsetFromCluster := offset.tmod volume.header.clusterSize
        let startingPos := volume.clusterPosition res + offsetFromCluster
        let totalToRead := min (volume.header.clusterSize - offsetFromCluster).toNat total
        lookupDivisors volume ++ volume.header.clusterSize ::
          if (volume.store.read startingPos totalToRead).isSome then
            readLoopDivisors cluster fuel (offset + totalToRead) (total - totalToRead)
          else []

/-- `fat16_load_fat_directory`. -/
def loadDirectoryDivisors (item : FatDirectoryItem) : List Nat :=
  let cluster : Int := asInt (fat16GetFirstCluster item)
  let total := totalItemsLoop volume.store (volume.store.size + 1) (volume.clusterPosition cluster)
  readLoopDivisors volume cluster (total.getD 0 * directoryItemSize) 0 (total.getD 0 * directoryItemSize)

/-- The `fresh_item` of `fat16_find_item_in_directory`. -/
def freshItem (directory : FatDirectory) (i : Nat) : FatDirectoryItem :=
  let (sector, offset) := entryLocation directory i
  match volume.store.read (sector * viosSectorSize + offset) directoryItemSize with
  | none => .zero
  | some buffer => .ofBytes buffer

/-- `fat16_find_item_in_directory`. -/
def findItemDivisors (directory : FatDirectory) (name : CStr) : List Nat :=
  match findItemLoop name 0 directory.item with
  | none => []
  | some i => [viosSectorSize, viosSectorSize] ++
      if (freshItem volume directory i).attr &&& fatFileSubdirectory ≠ 0 then
        loadDirectoryDivisors volume (freshItem volume directory i)
      else []

/-- The loop of `fat16_get_directory_entry`. -/
def directoryEntryDivisors : Option FatItem → List CStr → List Nat
  | _, [] => []
  | none, _ :: _ => []
  | some currentItem, part :: rest =>
    match currentItem.data with
    | .file _ => []
    | .directory directory =>
      findItemDivisors volume directory part ++
        directoryEntryDivisors (fat16FindItemInDirectory volume directory part) rest

/-- `fat16_get_directory_entry`. -/
def getDirectoryEntryDivisors : List CStr → List Nat
  | [] => []
  | part :: rest =>
    findItemDivisors volume volume.rootDirectory part ++
      match fat16FindItemInDirectory volume volume.rootDirectory part with
      | none => []
      | some rootItem => directoryEntryDivisors volume (some rootItem) rest

/-- `fat16_create_file_in_root`. -/
def createDivisors : List Nat :=
  if (volume.rootDirectory.item.findIdx? fun item => item.mark = 0 ∨ item.mark = 0xE5).isSome then
    [viosSectorSize, viosSectorSize]
  else []

/-- `fat16_truncate`. -/
def fat16TruncateDivisors (item : FatDirectoryItem) (size : Nat) : List Nat :=
  if item.attr &&& fatFileReadOnly ≠ 0 ∨ size = 0 then [] else [volume.header.clusterSize]

/-- `fat16_open`; it truncates to 0, which divides by nothing. -/
def fat16OpenDivisors (path : List CStr) (mode : FileMode) : List Nat :=
  getDirectoryEntryDivisors volume path ++
    match fat16GetDirectoryEntry volume path with
    | some none => if (mode = .write ∨ mode = .append) ∧ path.length = 1 then createDivisors volume else []
    | _ => []

/-- The loop of `fat16_read`. -/
def readItemsDivisors (firstCluster : Int) (size : Nat) : (items offset : Nat) → List Nat
  | 0, _ => []
  | items + 1, offset =>
    readLoopDivisors volume firstCluster (asInt size).toNat (asInt offset) (asInt size).toNat ++
      if (fat16ReadInternal volume firstCluster (asInt offset) (asInt size)).1 < 0 then []
      else readItemsDivisors firstCluster size items ((offset + size) % 2 ^ 32)

/-- `fat16_read`. -/
def fat16ReadDivisors (descriptor : FatFileDescriptor) (size nmemb : Nat) : List Nat :=
  size :: match descriptor.item.data with
    | .directory _ => []
    | .file item => readItemsDivisors volume (asInt (fat16GetFirstCluster item)) size
        (itemsToRead item descriptor.pos size nmemb) descriptor.pos

/-- `fat16_allocate_cluster`, in its search for a free cluster. -/
def allocateDivisors : List Nat := [volume.header.sectorsPerCluster]

end Divisors

/-- The loop of `fat16_write_internal`. -/
def writeLoopDivisors : (fuel : Nat) → (cluster : Int) → (offsetInCluster : Nat) → List UInt8 →
    FatVolume → List Nat
  | 0, _, _, _, _ => []
  | fuel + 1, cluster, offsetInCluster, data, volume =>
    if data = [] then []
    else
      let clusterPosition := volume.clusterPosition cluster + offsetInCluster
      let toWrite := min (volume.header.clusterSize - offsetInCluster) data.length
      let (res, volume) := volume.write clusterPosition toWrite fun i => data.getD i 0
      if res < 0 ∨ data.drop toWrite = [] then []
      else
        let nextCluster := fat16GetFatEntry volume cluster
        if 0xFFF8 ≤ nextCluster then
          let allocated := fat16AllocateCluster volume cluster
          allocateDivisors volume ++
            if allocated.1 < 0 then []
            else writeLoopDivisors fuel allocated.1 0 (data.drop toWrite) allocated.2
        else writeLoopDivisors fuel nextCluster 0 (data.drop toWrite) volume

/-- `fat16_write_internal`. -/
def writeInternalDivisors (volume : FatVolume) (startingCluster : Int) (offset : Nat) (data : List UInt8) :
    List Nat :=
  let cluster := fat16GetClusterForOffset volume startingCluster (asInt offset)
  if cluster < 0 then lookupDivisors volume
  else lookupDivisors volume ++ volume.header.clusterSize ::
    writeLoopDivisors data.length cluster (offset % volume.header.clusterSize) data volume

/-- `fat16_write`. -/
def fat16WriteDivisors (volume : FatVolume) (descriptor : FatFileDescriptor) (data : List UInt8)
    (size nmemb : Nat) : List Nat :=
  match descriptor.item.data with
  | .directory _ => []
  | .file item =>
    if item.attr &&& fatFileReadOnly ≠ 0 then []
    else
      let bytes := bytesAt data (asInt (size * nmemb % 2 ^ 32)).toNat
      let (startingCluster, _, started) := writeStart volume item
      (if fat16GetFirstCluster item = 0 then allocateDivisors volume else []) ++
        writeInternalDivisors started (asInt startingCluster) descriptor.pos bytes ++
        if (fat16WriteInternal started (asInt startingCluster) descriptor.pos bytes).1 < 0 ∨ size = 0 then []
        else [size]

/-! ## The header stays -/

section Header

variable (volume : FatVolume)

theorem write_header (pos : Int) (total : Nat) (buffer : Nat → UInt8) :
    (volume.write pos total buffer).2.header = volume.header := rfl

theorem setFatCopies_header (pos : Int) (value rest : Nat) :
    ∀ (i : Nat) (res : Int) (volume : FatVolume),
      (setFatCopies pos value rest i res volume).2.header = volume.header := by
  induction rest with
  | zero => exact fun _ _ _ => rfl
  | succ rest ih =>
    intro i res volume
    rw [setFatCopies]
    have kept := write_header volume (pos + i * volume.header.sectorsPerFat * viosSectorSize)
      fat16FatEntrySize (byteOf value)
    simp only
    split
    · exact kept
    · rw [ih]
      exact kept

theorem setFatEntry_header (cluster : Int) (value : Nat) :
    (fat16SetFatEntry volume cluster value).2.header = volume.header := by
  have kept := write_header volume (volume.fatEntryPosition cluster) fat16FatEntrySize (byteOf value)
  unfold fat16SetFatEntry
  simp only
  split
  · exact kept
  · rw [setFatCopies_header]
    exact kept

theorem allocateCluster_header (previous : Int) :
    (fat16AllocateCluster volume previous).2.header = volume.header := by
  unfold fat16AllocateCluster
  simp only
  have marked := setFatEntry_header volume (fat16FindFreeCluster volume) 0xFFFF
  split
  · rfl
  · split
    · exact marked
    · split
      · have linked := setFatEntry_header (fat16SetFatEntry volume (fat16FindFreeCluster volume) 0xFFFF).2
          previous (fat16FindFreeCluster volume).toNat
        split
        · rw [setFatEntry_header, linked, marked]
        · rw [linked, marked]
      · exact marked

theorem freeChainLoop_header (fuel : Nat) :
    ∀ (cluster res : Int) (volume : FatVolume),
      (freeChainLoop fuel cluster res volume).2.header = volume.header := by
  induction fuel with
  | zero => exact fun _ _ _ => rfl
  | succ fuel ih =>
    intro cluster res volume
    rw [freeChainLoop]
    have freed := setFatEntry_header volume cluster fat16Unused
    split
    · simp only
      split
      · rfl
      · split
        · exact freed
        · rw [ih]
          exact freed
    · rfl

theorem freeClusterChain_header (start : Int) :
    (fat16FreeClusterChain volume start).2.header = volume.header := by
  unfold fat16FreeClusterChain
  split
  · rfl
  · exact freeChainLoop_header _ _ _ _

theorem writeLoop_header (fuel : Nat) :
    ∀ (cluster : Int) (offset written : Nat) (data : List UInt8) (volume : FatVolume),
      (writeLoop fuel cluster offset written data volume).2.header = volume.header := by
  induction fuel with
  | zero => exact fun _ _ _ _ _ => rfl
  | succ fuel ih =>
    intro cluster offset written data volume
    rw [writeLoop]
    split
    · rfl
    · have stored := write_header volume (volume.clusterPosition cluster + offset)
        (min (volume.header.clusterSize - offset) data.length) (fun i => data.getD i 0)
      simp only
      split
      · exact stored
      · split
        · exact stored
        · split
          · have allocated := allocateCluster_header (volume.write (volume.clusterPosition cluster + offset)
              (min (volume.header.clusterSize - offset) data.length) (fun i => data.getD i 0)).2 cluster
            split
            · rw [allocated, stored]
            · rw [ih, allocated, stored]
          · rw [ih, stored]

theorem writeInternal_header (start : Int) (offset : Nat) (data : List UInt8) :
    (fat16WriteInternal volume start offset data).2.header = volume.header := by
  unfold fat16WriteInternal
  simp only
  split
  · rfl
  · exact writeLoop_header _ _ _ _ _ _

theorem createFileInRoot_header (filename : CStr) :
    (fat16CreateFileInRoot volume filename).2.header = volume.header := by
  unfold fat16CreateFileInRoot
  simp only
  split
  · rfl
  · exact write_header _ _ _ _

theorem truncate_header (item : FatDirectoryItem) (pos size : Nat) :
    (fat16Truncate volume item pos size).2.2.2.header = volume.header := by
  unfold fat16Truncate
  -- The header does not depend on the first cluster, whose `2 ^ 16` would be slow to compare.
  obtain ⟨first, isFirst⟩ : ∃ first, fat16GetFirstCluster item = first := ⟨_, rfl⟩
  rw [isFirst]
  split
  · rfl
  · simp only
    split
    · exact freeClusterChain_header _ _
    · split
      · rfl
      · split
        · rw [setFatEntry_header]
          split
          · exact freeClusterChain_header _ _
          · rfl
        · rfl

theorem openItem_header (path : List CStr) (mode : FileMode) :
    (openItem volume path mode).2.header = volume.header := by
  unfold openItem
  split
  · rfl
  · rfl
  · split
    · split
      · rename_i part _
        have created := createFileInRoot_header volume part
        split
        · rename_i next result
          rw [result] at created
          exact created
        · rename_i item next result
          rw [result] at created
          exact created
      · rfl
    · rfl

theorem openDescriptor_header (item : FatItem) (mode : FileMode) :
    (openDescriptor volume item mode).2.header = volume.header := by
  unfold openDescriptor
  split
  · exact truncate_header _ _ _ _
  · rfl
  · rfl

theorem writeStart_header (item : FatDirectoryItem) :
    (writeStart volume item).2.2.header = volume.header := by
  unfold writeStart
  simp only
  split
  · exact allocateCluster_header _ _
  · rfl

theorem extendFile_header (fatItem : FatItem) (item : FatDirectoryItem) (newSize : Nat) :
    (fat16ExtendFile volume fatItem item newSize).2.header = volume.header := by
  unfold fat16ExtendFile
  split
  · rfl
  · exact write_header _ _ _ _

theorem writeFileItem_header (descriptor : FatFileDescriptor) (item : FatDirectoryItem) (data : List UInt8)
    (size nmemb : Nat) : (writeFileItem volume descriptor item data size nmemb).2.2.header = volume.header := by
  have started := writeStart_header volume item
  rcases start : writeStart volume item with ⟨cluster, entry, next⟩
  rw [start] at started
  have written := writeInternal_header next (asInt cluster) descriptor.pos
    (bytesAt data (asInt (size * nmemb % 2 ^ 32)).toNat)
  rcases internal : fat16WriteInternal next (asInt cluster) descriptor.pos
    (bytesAt data (asInt (size * nmemb % 2 ^ 32)).toNat) with ⟨res, stored⟩
  rw [internal] at written
  have kept : stored.header = volume.header := written.trans started
  rw [writeFileItem_eq start internal]
  split
  · exact kept
  · exact (extendFile_header _ _ _ _).trans kept

end Header

/-! ## The divisors come from the header -/

theorem mem_unless {guarded : Prop} [Decidable guarded] {l : List Nat} {divisor : Nat}
    (member : divisor ∈ if guarded then [] else l) : ¬ guarded ∧ divisor ∈ l := by
  split at member
  · exact absurd member List.not_mem_nil
  · exact ⟨by assumption, member⟩

/-- Sizes of a cluster, in bytes or sectors, and of a sector. -/
def FromHeader (header : FatHeader) (divisors : List Nat) : Prop :=
  ∀ divisor ∈ divisors, divisor = header.clusterSize ∨ divisor = header.sectorsPerCluster ∨
    divisor = viosSectorSize

theorem FromHeader.ne_zero {header : FatHeader} {divisors : List Nat} (fromHeader : FromHeader header divisors)
    (positive : header.sectorsPerCluster ≠ 0) : ∀ divisor ∈ divisors, divisor ≠ 0 := by
  intro divisor member
  rcases fromHeader divisor member with rfl | rfl | rfl
  · exact Nat.mul_ne_zero positive (by decide)
  · exact positive
  · decide

section FromHeader

variable {header : FatHeader} {l m : List Nat}

@[simp] theorem fromHeader_nil : FromHeader header [] := fun _ member => absurd member List.not_mem_nil

@[simp] theorem fromHeader_append : FromHeader header (l ++ m) ↔ FromHeader header l ∧ FromHeader header m :=
  List.forall_mem_append

@[simp] theorem fromHeader_cons {divisor : Nat} : FromHeader header (divisor :: l) ↔
    (divisor = header.clusterSize ∨ divisor = header.sectorsPerCluster ∨ divisor = viosSectorSize) ∧
      FromHeader header l :=
  List.forall_mem_cons

theorem fromHeader_lookup (volume : FatVolume) : FromHeader volume.header (lookupDivisors volume) := by
  simp [lookupDivisors]

theorem fromHeader_readLoop (volume : FatVolume) (cluster : Int) (fuel : Nat) :
    ∀ (offset : Int) (total : Nat),
      FromHeader volume.header (readLoopDivisors volume cluster fuel offset total) := by
  induction fuel with
  | zero => exact fun _ _ => fromHeader_nil
  | succ fuel ih =>
    intro offset total
    rw [readLoopDivisors]
    have lookup := fromHeader_lookup volume
    split
    · exact fromHeader_nil
    · simp only
      split
      · exact lookup
      · apply fromHeader_append.mpr
        refine ⟨lookup, fromHeader_cons.mpr ⟨.inl rfl, ?_⟩⟩
        split
        · exact ih _ _
        · exact fromHeader_nil

theorem fromHeader_findItem (volume : FatVolume) (directory : FatDirectory) (name : CStr) :
    FromHeader volume.header (findItemDivisors volume directory name) := by
  unfold findItemDivisors
  cases findItemLoop name 0 directory.item with
  | none => exact fromHeader_nil
  | some i =>
    apply fromHeader_append.mpr
    refine ⟨by simp, ?_⟩
    split
    · exact fromHeader_readLoop _ _ _ _ _
    · exact fromHeader_nil

theorem fromHeader_directoryEntry (volume : FatVolume) (path : List CStr) :
    ∀ item : Option FatItem, FromHeader volume.header (directoryEntryDivisors volume item path) := by
  induction path with
  | nil =>
    intro item
    cases item with
    | none => exact fromHeader_nil
    | some item => exact fromHeader_nil
  | cons part rest ih =>
    intro item
    cases item with
    | none => exact fromHeader_nil
    | some item =>
      rw [directoryEntryDivisors]
      split
      · exact fromHeader_nil
      · exact fromHeader_append.mpr ⟨fromHeader_findItem _ _ _, ih _⟩

theorem fromHeader_open (volume : FatVolume) (path : List CStr) (mode : FileMode) :
    FromHeader volume.header (fat16OpenDivisors volume path mode) := by
  have found : FromHeader volume.header (getDirectoryEntryDivisors volume path) := by
    cases path with
    | nil => exact fromHeader_nil
    | cons part rest =>
      rw [getDirectoryEntryDivisors]
      apply fromHeader_append.mpr
      refine ⟨fromHeader_findItem _ _ _, ?_⟩
      split
      · exact fromHeader_nil
      · exact fromHeader_directoryEntry _ _ _
  have created : FromHeader volume.header (createDivisors volume) := by
    unfold createDivisors
    split
    · simp
    · exact fromHeader_nil
  unfold fat16OpenDivisors
  apply fromHeader_append.mpr
  refine ⟨found, ?_⟩
  split
  · split
    · exact created
    · exact fromHeader_nil
  · exact fromHeader_nil

theorem fromHeader_readItems (volume : FatVolume) (first : Int) (size items : Nat) :
    ∀ offset, FromHeader volume.header (readItemsDivisors volume first size items offset) := by
  induction items with
  | zero => exact fun _ => fromHeader_nil
  | succ items ih =>
    intro offset
    rw [readItemsDivisors]
    apply fromHeader_append.mpr
    refine ⟨fromHeader_readLoop _ _ _ _ _, ?_⟩
    split
    · exact fromHeader_nil
    · exact ih _

theorem fromHeader_writeLoop (fuel : Nat) :
    ∀ (cluster : Int) (offset : Nat) (data : List UInt8) (volume : FatVolume),
      FromHeader volume.header (writeLoopDivisors fuel cluster offset data volume) := by
  induction fuel with
  | zero => exact fun _ _ _ _ => fromHeader_nil
  | succ fuel ih =>
    intro cluster offset data volume
    rw [writeLoopDivisors]
    split
    · exact fromHeader_nil
    · have stored := write_header volume (volume.clusterPosition cluster + offset)
        (min (volume.header.clusterSize - offset) data.length) (fun i => data.getD i 0)
      simp only
      obtain ⟨next, isNext⟩ : ∃ v, v = (volume.write (volume.clusterPosition cluster + offset)
        (min (volume.header.clusterSize - offset) data.length) (fun i => data.getD i 0)).2 := ⟨_, rfl⟩
      rw [← isNext] at stored ⊢
      rw [← stored]
      split
      · exact fromHeader_nil
      · split
        · -- the cluster behind the last one is searched for
          have allocated := allocateCluster_header next cluster
          apply fromHeader_append.mpr
          refine ⟨by simp [allocateDivisors], ?_⟩
          split
          · exact fromHeader_nil
          · rw [← allocated]
            exact ih _ _ _ _
        · exact ih _ _ _ _

theorem fromHeader_writeInternal (volume : FatVolume) (start : Int) (offset : Nat) (data : List UInt8) :
    FromHeader volume.header (writeInternalDivisors volume start offset data) := by
  have lookup := fromHeader_lookup volume
  unfold writeInternalDivisors
  simp only
  split
  · exact lookup
  · exact fromHeader_append.mpr ⟨lookup, fromHeader_cons.mpr ⟨.inl rfl, fromHeader_writeLoop _ _ _ _ _⟩⟩

end FromHeader

/-! ## Calls -/

/-- The calls of the driver's functions; `ftruncate` stands for `fat16_truncate` of an open file, which
only `fat16_open` calls. -/
inductive FatCall where
  | fopen (path : List CStr) (mode : FileMode)
  | fread (ptr : Ptr) (size nmemb : Nat)
  | fwrite (ptr : Ptr) (data : List UInt8) (size nmemb : Nat)
  | ftruncate (ptr : Ptr) (size : Nat)
  | fseek (ptr : Ptr) (offset whence : Nat)
  | fstat (ptr : Ptr)
  | fclose (ptr : Ptr)

/-- The state after `fat16_truncate` of an open file. -/
def truncateCall (state : FatState) (ptr : Ptr) (size : Nat) : FatState :=
  match state.descriptors ptr with
  | none => state
  | some descriptor =>
    match descriptor.item.data with
    | .directory _ => state
    | .file item =>
      let (_, item, pos, volume) := fat16Truncate state.volume item descriptor.pos size
      state.set ptr (some ⟨{ descriptor.item with data := .file item }, pos⟩) volume

/-- The state after a call. -/
def FatCall.next (state : FatState) : FatCall → FatState
  | .fopen path mode => (fat16Open state path mode).2
  | .fread ptr size nmemb => (fat16Read state ptr size nmemb).2.2
  | .fwrite ptr data size nmemb => (fat16Write state ptr data size nmemb).2
  | .ftruncate ptr size => truncateCall state ptr size
  | .fseek ptr offset whence => (fat16Seek state ptr offset whence).2
  | .fstat _ => state
  | .fclose ptr => (fat16Close state ptr).2

/-- The divisors a call evaluates. -/
def FatCall.divisors (state : FatState) : FatCall → List Nat
  | .fopen path mode => fat16OpenDivisors state.volume path mode
  | .fread ptr size nmemb => (state.descriptors ptr).elim [] fun descriptor =>
      fat16ReadDivisors state.volume descriptor size nmemb
  | .fwrite ptr data size nmemb => (state.descriptors ptr).elim [] fun descriptor =>
      fat16WriteDivisors state.volume descriptor data size nmemb
  | .ftruncate ptr size => (state.descriptors ptr).elim [] fun descriptor =>
      match descriptor.item.data with
      | .directory _ => []
      | .file item => fat16TruncateDivisors state.volume item size
  | .fseek _ _ _ => []
  | .fstat _ => []
  | .fclose _ => []

/-- A call that reaches the driver: `fread` refuses items of no size. -/
def FatStep (state : FatState) (call : FatCall) (next : FatState) : Prop :=
  (∀ ptr size nmemb, call = .fread ptr size nmemb → size ≠ 0) ∧ next = call.next state

/-- A disk that was just mounted. -/
def mountState (volume : FatVolume) : FatState := ⟨volume, fun _ => none, 0⟩

/-- No call of any run divides by zero. -/
def DividesSafely (volume : FatVolume) : Prop :=
  ∀ run, IsRun FatStep (mountState volume) run →
    EveryStep (fun state call => ∀ divisor ∈ call.divisors state, divisor ≠ 0) (mountState volume) run

theorem DividesSafely.second {volume : FatVolume} (safe : DividesSafely volume) {first second : FatCall}
    {opened : FatState} (opens : FatStep (mountState volume) first opened)
    (calls : FatStep opened second (second.next opened)) : ∀ divisor ∈ second.divisors opened, divisor ≠ 0 :=
  (safe [(first, opened), (second, second.next opened)] ⟨opens, calls, trivial⟩).2.1

theorem next_header (state : FatState) (call : FatCall) :
    (call.next state).volume.header = state.volume.header := by
  cases call with
  | fopen path mode =>
    change (fat16Open state path mode).2.volume.header = _
    -- Making a missing file and opening the descriptor both leave the header.
    have opened := openItem_header state.volume path mode
    unfold fat16Open
    rcases result : openItem state.volume path mode with ⟨item, volume⟩
    rw [result] at opened
    match item with
    | none => exact opened
    | some (.error code) => exact opened
    | some (.ok item) => exact (openDescriptor_header volume item mode).trans opened
  | fread ptr size nmemb =>
    change (fat16Read state ptr size nmemb).2.2.volume.header = _
    unfold fat16Read
    split
    · rfl
    · split
      · rfl
      · rename_i item _
        obtain ⟨first, isFirst⟩ : ∃ first, fat16GetFirstCluster item = first := ⟨_, rfl⟩
        rw [isFirst]
        dsimp only
        split
        · rfl
        · split
          · rfl
          · rfl
  | fwrite ptr data size nmemb =>
    change (fat16Write state ptr data size nmemb).2.volume.header = _
    rcases fat16Write_cases state ptr data size nmemb with same | ⟨descriptor, item, -, -, written⟩
    · rw [same]
    · rw [written, FatState.set_volume, writeFileItem_header]
  | ftruncate ptr size =>
    change (truncateCall state ptr size).volume.header = _
    unfold truncateCall
    split
    · rfl
    · split
      · rfl
      · exact truncate_header _ _ _ _
  | fseek ptr offset whence =>
    change (fat16Seek state ptr offset whence).2.volume.header = _
    unfold fat16Seek
    split
    · rfl
    · split
      · rfl
      · split
        · rfl
        · split
          · rfl
          · rfl
          · rfl
          · rfl
  | fstat ptr => rfl
  | fclose ptr =>
    change (fat16Close state ptr).2.volume.header = _
    unfold fat16Close
    split
    · rfl
    · rfl

section Safe

variable {volume : FatVolume} {descriptor : FatFileDescriptor}

theorem readDivisors_ne_zero (positive : volume.header.sectorsPerCluster ≠ 0) {size : Nat} (sizePos : size ≠ 0)
    (nmemb : Nat) : ∀ divisor ∈ fat16ReadDivisors volume descriptor size nmemb, divisor ≠ 0 := by
  intro divisor member
  unfold fat16ReadDivisors at member
  cases List.mem_cons.mp member with
  | inl isSize => exact isSize ▸ sizePos
  | inr later =>
    cases isData : descriptor.item.data with
    | directory directory =>
      rw [isData] at later
      exact absurd later List.not_mem_nil
    | file item =>
      rw [isData] at later
      exact (fromHeader_readItems _ _ _ _ _).ne_zero positive divisor later

theorem writeDivisors_ne_zero (positive : volume.header.sectorsPerCluster ≠ 0) (data : List UInt8)
    (size nmemb : Nat) : ∀ divisor ∈ fat16WriteDivisors volume descriptor data size nmemb, divisor ≠ 0 := by
  unfold fat16WriteDivisors
  split
  · exact fun _ member => absurd member List.not_mem_nil
  · split
    · exact fun _ member => absurd member List.not_mem_nil
    · rename_i item _ _
      have started := writeStart_header volume item
      rcases start : writeStart volume item with ⟨cluster, entry, next⟩
      rw [start] at started
      intro divisor member
      cases List.mem_append.mp member with
      | inl before =>
        cases List.mem_append.mp before with
        | inl first =>
          have fromHeader : FromHeader volume.header
              (if fat16GetFirstCluster item = 0 then allocateDivisors volume else []) := by
            split
            · simp [allocateDivisors]
            · exact fromHeader_nil
          exact fromHeader.ne_zero positive divisor first
        | inr inner =>
          have fromHeader := fromHeader_writeInternal next (asInt cluster) descriptor.pos
            (bytesAt data (asInt (size * nmemb % 2 ^ 32)).toNat)
          rw [started] at fromHeader
          exact fromHeader.ne_zero positive divisor inner
      | inr last =>
        -- the number of items, which is computed only for items of some size
        obtain ⟨unguarded, isSize⟩ := mem_unless last
        rw [List.mem_singleton.mp isSize]
        exact fun zero => unguarded (.inr zero)

theorem truncateDivisors_ne_zero (positive : volume.header.sectorsPerCluster ≠ 0) (item : FatDirectoryItem)
    (size : Nat) : ∀ divisor ∈ fat16TruncateDivisors volume item size, divisor ≠ 0 := by
  have fromHeader : FromHeader volume.header (fat16TruncateDivisors volume item size) := by
    unfold fat16TruncateDivisors
    split
    · exact fromHeader_nil
    · simp
  exact fromHeader.ne_zero positive

end Safe

/-- No divisor of a call is zero if a cluster has sectors. -/
theorem divisors_ne_zero {state next : FatState} {call : FatCall} (step : FatStep state call next)
    (positive : state.volume.header.sectorsPerCluster ≠ 0) : ∀ divisor ∈ call.divisors state, divisor ≠ 0 := by
  have nothing : ∀ divisor ∈ ([] : List Nat), divisor ≠ 0 := fun _ member => absurd member List.not_mem_nil
  cases call with
  | fopen path mode => exact (fromHeader_open _ _ _).ne_zero positive
  | fread ptr size nmemb =>
    simp only [FatCall.divisors]
    cases state.descriptors ptr with
    | none => exact nothing
    | some descriptor => exact readDivisors_ne_zero positive (step.1 ptr size nmemb rfl) nmemb
  | fwrite ptr data size nmemb =>
    simp only [FatCall.divisors]
    cases state.descriptors ptr with
    | none => exact nothing
    | some descriptor => exact writeDivisors_ne_zero positive data size nmemb
  | ftruncate ptr size =>
    simp only [FatCall.divisors]
    cases state.descriptors ptr with
    | none => exact nothing
    | some descriptor =>
      simp only [Option.elim_some]
      split
      · exact nothing
      · exact truncateDivisors_ne_zero positive _ size
  | fseek ptr offset whence => exact nothing
  | fstat ptr => exact nothing
  | fclose ptr => exact nothing

/-! ## Mounted disks -/

section Mounted

variable {store : ByteStore} {volume : FatVolume}

theorem resolveDisk_header (accepted : fat16ResolveDisk store = some volume) :
    volume.header = (BootSector.ofBytes store.bytes).toFatHeader := by
  unfold fat16ResolveDisk at accepted
  cases read : store.read 0 fatHeaderSize with
  | none =>
    rw [read] at accepted
    exact absurd accepted (by simp)
  | some buffer =>
    have isBuffer : buffer = store.bytes := by
      unfold ByteStore.read at read
      split at read
      · rw [← Option.some.inj read]
        funext i
        simp
      · exact absurd read (by simp)
    rw [read, isBuffer] at accepted
    simp only at accepted
    split at accepted
    · exact absurd accepted (by simp)
    · split at accepted
      · exact absurd accepted (by simp)
      · exact (mountedAs_of_resolve accepted).1.header

/-- The name of an entry has no space. -/
theorem fullName_head (item : FatDirectoryItem) :
    (fat16GetFullRelativeFilename item).headD 0 ≠ charSpace := by
  have part : ∀ input : List UInt8, (fat16ToProperString input).headD 0 ≠ charSpace := by
    intro input
    cases input with
    | nil => decide
    | cons c rest =>
      unfold fat16ToProperString
      rw [List.takeWhile_cons]
      split
      · rename_i allowed
        simp only [ne_eq, decide_eq_true_eq] at allowed
        exact allowed.2
      · decide
  unfold fat16GetFullRelativeFilename
  cases name : fat16ToProperString (List.ofFn item.filename) with
  | nil =>
    rw [List.nil_append]
    split
    · exact (by decide : charDot ≠ charSpace)
    · decide
  | cons c rest =>
    have head := part (List.ofFn item.filename)
    rw [name] at head
    exact head

/-- No entry is found under the name that is a space. -/
theorem findItemLoop_space (items : List FatDirectoryItem) :
    ∀ i, findItemLoop [charSpace] i items = none := by
  induction items with
  | nil => exact fun _ => rfl
  | cons item rest ih =>
    intro i
    have head := fullName_head item
    have differs : istrncmp (fat16GetFullRelativeFilename item) [charSpace] viosMaxPath ≠ 0 := by
      rw [show viosMaxPath = 107 + 1 from rfl, istrncmp]
      have lower : toLower ((fat16GetFullRelativeFilename item).headD 0) ≠ toLower charSpace := fun same =>
        head ((toLower_eq_iff (d := charSpace) (by decide) _).mp (same.trans (by decide)))
      have both : (fat16GetFullRelativeFilename item).headD 0 ≠ [charSpace].headD 0 ∧
          toLower ((fat16GetFullRelativeFilename item).headD 0) ≠ toLower ([charSpace].headD 0) := ⟨head, lower⟩
      rw [if_pos both, List.headD_cons]
      intro zero
      have same : ((fat16GetFullRelativeFilename item).headD 0).toNat = charSpace.toNat := by omega
      exact head (UInt8.toNat.inj same)
    rw [findItemLoop]
    split
    · rfl
    · split
      · exact ih _
      · exact ih _

/-- A new file can be opened, and has no cluster. -/
theorem open_new_file (room : RootHasRoom volume) :
    ∃ descriptor item, ((FatCall.fopen [[charSpace]] .write).next (mountState volume)).descriptors
        (mountState volume).newPtr = some descriptor ∧ descriptor.item.data = .file item ∧
      fat16GetFirstCluster item = 0 ∧ item.attr &&& fatFileReadOnly = 0 := by
  -- The root holds no file of this name, so the call makes one.
  have notFound : fat16GetDirectoryEntry volume [[charSpace]] = some none := by
    have none := findItemLoop_space volume.rootDirectory.item 0
    simp only [fat16GetDirectoryEntry, fat16FindItemInDirectory, none, Option.map_none]
  obtain ⟨slot, isSlot⟩ := room.freeSlot
  have notDirectory := newItem_file [charSpace]
  obtain ⟨created, result, isFile⟩ : ∃ created, (fat16CreateFileInRoot volume [charSpace]).1 = some created ∧
      created.data = .file (newItem [charSpace]) := by
    unfold fat16CreateFileInRoot
    simp only [isSlot]
    refine ⟨_, rfl, ?_⟩
    unfold fat16NewFatItemForDirectoryItem
    rw [if_neg (not_not.mpr notDirectory)]
  -- In write mode a missing file is made, and the open goes on with it.
  have opened : openItem volume [[charSpace]] .write =
      (some (.ok created), (fat16CreateFileInRoot volume [charSpace]).2) := by
    unfold openItem
    rw [notFound]
    simp only [true_or, if_true]
    rcases both : fat16CreateFileInRoot volume [charSpace] with ⟨item, next⟩
    rw [both] at result
    obtain rfl : item = some created := result
    rfl
  have state : (FatCall.fopen [[charSpace]] .write).next (mountState volume) =
      { ((mountState volume).set (mountState volume).newPtr
          (some (openDescriptor (fat16CreateFileInRoot volume [charSpace]).2 created .write).1)
          (openDescriptor (fat16CreateFileInRoot volume [charSpace]).2 created .write).2) with
        next := (mountState volume).next + 1 } := by
    change (fat16Open (mountState volume) [[charSpace]] .write).2 = _
    unfold fat16Open
    rw [show (mountState volume).volume = volume from rfl, opened]
  rw [state]
  refine ⟨(openDescriptor (fat16CreateFileInRoot volume [charSpace]).2 created .write).1,
    { (newItem [charSpace]).withFirstCluster 0 with filesize := 0 }, ?_, ?_, ?_, ?_⟩
  · simp [FatState.set]
  · unfold openDescriptor
    rw [isFile]
    rfl
  · simp [fat16GetFirstCluster, FatDirectoryItem.withFirstCluster]
  · exact (by decide : fatFileArchived &&& fatFileReadOnly = 0)

/-- The first write to a file searches for a free cluster. -/
theorem mem_writeDivisors {descriptor : FatFileDescriptor} {item : FatDirectoryItem}
    (isFile : descriptor.item.data = .file item) (writable : item.attr &&& fatFileReadOnly = 0)
    (noCluster : fat16GetFirstCluster item = 0) (data : List UInt8) (size nmemb : Nat) :
    volume.header.sectorsPerCluster ∈ fat16WriteDivisors volume descriptor data size nmemb := by
  have searched : volume.header.sectorsPerCluster ∈
      (if fat16GetFirstCluster item = 0 then allocateDivisors volume else []) := by
    rw [if_pos noCluster, allocateDivisors]
    exact List.mem_cons_self
  rw [fat16WriteDivisors]
  split
  next directory isDirectory => exact absurd (isFile.symm.trans isDirectory) (by simp)
  next other isOther =>
    obtain rfl := FatItemData.file.inj (isFile.symm.trans isOther)
    rw [if_neg (not_not.mpr writable)]
    rcases writeStart volume item with ⟨cluster, entry, next⟩
    exact List.mem_append_left _ (List.mem_append_left _ searched)

/-- If a cluster has no sectors and the root has room, a new file is written to. -/
theorem not_dividesSafely (room : RootHasRoom volume) (zero : volume.header.sectorsPerCluster = 0) :
    ¬ DividesSafely volume := by
  intro safe
  obtain ⟨descriptor, item, isOpen, isFile, noCluster, writable⟩ := open_new_file room
  obtain ⟨opened, isOpened⟩ : ∃ s, s = (FatCall.fopen [[charSpace]] .write).next (mountState volume) :=
    ⟨_, rfl⟩
  rw [← isOpened] at isOpen
  have notZero := @DividesSafely.second _ safe _ (.fwrite (mountState volume).newPtr [0] 1 1) _
    ⟨by simp, isOpened⟩ ⟨by simp, rfl⟩
  have kept : opened.volume.header.sectorsPerCluster = 0 := by
    rw [isOpened, next_header]
    exact zero
  -- the first cluster of the file is searched for, among total_sectors / 0 clusters
  refine notZero 0 ?_ rfl
  simp only [FatCall.divisors, isOpen, Option.elim_some]
  rw [← kept]
  exact mem_writeDivisors isFile writable noCluster [0] 1 1

/-- After a disk was accepted, no run divides by zero if a cluster has sectors; and if the root directory
has room, only then. -/
theorem resolved_dividesSafely (accepted : fat16ResolveDisk store = some volume) :
    (store.bytes 13 ≠ 0 → DividesSafely volume) ∧
      (RootHasRoom volume → DividesSafely volume → store.bytes 13 ≠ 0) := by
  have header := resolveDisk_header accepted
  have isByte : volume.header.sectorsPerCluster = (store.bytes 13).toNat := by
    rw [header]
    rfl
  constructor
  · intro positive run isRun
    have initial : (mountState volume).volume.header.sectorsPerCluster ≠ 0 := by
      change volume.header.sectorsPerCluster ≠ 0
      rw [isByte]
      exact fun zero => positive (UInt8.toNat.inj zero)
    have preserves : ∀ state call next, FatStep state call next →
        state.volume.header.sectorsPerCluster ≠ 0 → next.volume.header.sectorsPerCluster ≠ 0 := by
      intro state call next step kept
      rw [step.2, next_header]
      exact kept
    exact everyStep_of_inv preserves (fun state call next step kept => divisors_ne_zero step kept) isRun initial
  · intro room safe zero
    refine not_dividesSafely room ?_ safe
    rw [isByte, zero]
    rfl

end Mounted

/-! ## Two boot sectors -/

/-- A disk of 16 sectors with an empty root directory, and the given number of sectors in a cluster. -/
def bootStore (sectorsPerCluster : UInt8) : ByteStore where
  size := 16 * viosSectorSize
  bytes := fun pos => ([(13, sectorsPerCluster), (14, 1), (16, 1), (17, 16), (19, 16), (22, 1),
    (38, 0x29)].lookup pos).getD 0

/-- Its volume. -/
def bootVolume (sectorsPerCluster : UInt8) : FatVolume :=
  (BootSector.ofBytes (bootStore sectorsPerCluster).bytes).volumeOn (bootStore sectorsPerCluster)

theorem bootVolume_accepted (sectorsPerCluster : UInt8) :
    fat16ResolveDisk (bootStore sectorsPerCluster) = some (bootVolume sectorsPerCluster) := by
  have header : (bootStore sectorsPerCluster).read 0 fatHeaderSize =
      some (bootStore sectorsPerCluster).bytes := by
    rw [ByteStore.read, if_pos ⟨by decide, by simp [bootStore, fatHeaderSize, viosSectorSize]⟩]
    simp
  have signature : (BootSector.ofBytes (bootStore sectorsPerCluster).bytes).signature = fat16Signature := rfl
  have entries : (BootSector.ofBytes (bootStore sectorsPerCluster).bytes).rootDirEntries = 16 := rfl
  have root : (BootSector.ofBytes (bootStore sectorsPerCluster).bytes).toFatHeader.rootDirSectorPos = 2 := rfl
  unfold fat16ResolveDisk
  rw [header]
  simp only [signature, entries, ne_eq, not_true_eq_false, if_false]
  rw [if_neg (by decide), bootVolume, resolve_volumeOn]
  rw [root, entries]
  exact (by decide : 2 * viosSectorSize + 16 * directoryItemSize ≤ 16 * viosSectorSize)

theorem bootVolume_dividesSafely : DividesSafely (bootVolume 1) :=
  (resolved_dividesSafely (bootVolume_accepted 1)).1 (by decide)

/-- With no sectors in a cluster, the first write to a new file divides by zero. -/
theorem bootVolume_divides_by_zero :
    fat16ResolveDisk (bootStore 0) = some (bootVolume 0) ∧ ¬ DividesSafely (bootVolume 0) := by
  refine ⟨bootVolume_accepted 0, not_dividesSafely ?_ rfl⟩
  exact ⟨_, List.get_mem (bootVolume 0).rootDirectory.item ⟨0, by decide⟩, .inl (by decide)⟩

end ViOS.Fs
