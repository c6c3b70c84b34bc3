import ViOS.Fs.Fat16Layout

/-! # Boot sectors

The header of a FAT16 volume as it lies on the disk, what the format allows in it, and
where the format puts the table, the root directory and the clusters.  The driver computes
the same positions in the C type `int`, from sectors of 512 bytes.

* `BootSector`, `BootSector.ofBytes`, `fat16ResolveDisk` — the header and its acceptance.
* `BootSector.Valid` — the headers of FAT16 volumes.
* `BootSector.fatByte`, `rootByte`, `dataByte` — the positions of the format.
* `getFatEntryPosition`, `setFatEntryPosition`, `rootSlotPosition`, `dataPosition` — those of the driver.
* `positions_right_iff` — when they are the same.
-/

namespace ViOS.Fs

/-! ## The header -/

/-- `struct fat_h`: the fields the driver reads, and the size of a sector, which it does not. -/
structure BootSector extends FatHeader where
  bytesPerSector : Nat
  signature : Nat
  deriving DecidableEq, Repr

/-- `sizeof(struct fat_h)`. -/
def fatHeaderSize : Nat := 62

/-- `VIOS_FAT16_SIGNATURE`. -/
def fat16Signature : Nat := 0x29

/-- The header in a buffer. -/
def BootSector.ofBytes (buffer : Nat → UInt8) : BootSector where
  bytesPerSector := littleEndian buffer 11 2
  sectorsPerCluster := (buffer 13).toNat
  reservedSectors := littleEndian buffer 14 2
  fatCopies := (buffer 16).toNat
  rootDirEntries := littleEndian buffer 17 2
  numberOfSectors := littleEndian buffer 19 2
  sectorsPerFat := littleEndian buffer 22 2
  sectorsBig := littleEndian buffer 32 4
  signature := (buffer 38).toNat

/-- `fat16_resolve`.  A root directory without entries is not accepted: `kzalloc(0)` returns no
memory for it. -/
def fat16ResolveDisk (store : ByteStore) : Option FatVolume :=
  match store.read 0 fatHeaderSize with
  | none => none
  | some buffer =>
    let boot := BootSector.ofBytes buffer
    if boot.signature ≠ fat16Signature then none
    else if boot.rootDirEntries * directoryItemSize = 0 then none
    else fat16Resolve store boot.toFatHeader

namespace BootSector

variable (boot : BootSector)

/-- The sectors of the root directory, rounded up. -/
def rootSectors : Nat :=
  (boot.rootDirEntries * directoryItemSize + (boot.bytesPerSector - 1)) / boot.bytesPerSector

/-- The first sector of the clusters. -/
def firstDataSector : Nat := boot.reservedSectors + boot.fatCopies * boot.sectorsPerFat + boot.rootSectors

/-- The number of clusters. -/
def clusterCount : Nat := (boot.totalSectors - boot.firstDataSector) / boot.sectorsPerCluster

/-- The position of the entry of a cluster in a copy of the table. -/
def fatByte (copy cluster : Nat) : Nat :=
  (boot.reservedSectors + copy * boot.sectorsPerFat) * boot.bytesPerSector + cluster * fat16FatEntrySize

/-- The position of a slot of the root directory. -/
def rootByte (slot : Nat) : Nat :=
  (boot.reservedSectors + boot.fatCopies * boot.sectorsPerFat) * boot.bytesPerSector +
    slot * directoryItemSize

/-- The position of a byte of a cluster. -/
def dataByte (cluster offset : Nat) : Nat :=
  (boot.firstDataSector + (cluster - 2) * boot.sectorsPerCluster) * boot.bytesPerSector + offset

/-- The end of the last cluster. -/
def dataEnd : Nat :=
  (boot.firstDataSector + boot.clusterCount * boot.sectorsPerCluster) * boot.bytesPerSector

/-- The headers of FAT16 volumes. -/
structure Valid : Prop where
  bytesPerSector : boot.bytesPerSector ∈ [512, 1024, 2048, 4096]
  sectorsPerCluster : boot.sectorsPerCluster ∈ [1, 2, 4, 8, 16, 32, 64, 128]
  reserved : 0 < boot.reservedSectors ∧ boot.reservedSectors < 2 ^ 16
  copies : 0 < boot.fatCopies ∧ boot.fatCopies < 2 ^ 8
  root : 0 < boot.rootDirEntries ∧ boot.rootDirEntries < 2 ^ 16
  table : boot.sectorsPerFat < 2 ^ 16
  sectors : boot.numberOfSectors < 2 ^ 16 ∧ boot.sectorsBig < 2 ^ 32
  regions : boot.firstDataSector ≤ boot.totalSectors
  clusters : 4085 ≤ boot.clusterCount ∧ boot.clusterCount ≤ 65524
  tableRoom : (boot.clusterCount + 2) * fat16FatEntrySize ≤ boot.sectorsPerFat * boot.bytesPerSector

end BootSector

namespace BootSector.Valid

variable {boot : BootSector} (valid : boot.Valid)

include valid

theorem bytesPerSector_ge : viosSectorSize ≤ boot.bytesPerSector := by
  have size := valid.bytesPerSector
  simp only [List.mem_cons, List.not_mem_nil, or_false] at size
  unfold viosSectorSize
  omega

theorem bytesPerSector_le : boot.bytesPerSector ≤ 4096 := by
  have size := valid.bytesPerSector
  simp only [List.mem_cons, List.not_mem_nil, or_false] at size
  omega

theorem sectorsPerCluster_pos : 0 < boot.sectorsPerCluster ∧ boot.sectorsPerCluster ≤ 128 := by
  have size := valid.sectorsPerCluster
  simp only [List.mem_cons, List.not_mem_nil, or_false] at size
  omega

/-- The clusters end inside the volume. -/
theorem clusters_inside : boot.firstDataSector + boot.clusterCount * boot.sectorsPerCluster ≤ boot.totalSectors := by
  have regions := valid.regions
  have quotient := Nat.div_mul_le_self (boot.totalSectors - boot.firstDataSector) boot.sectorsPerCluster
  unfold clusterCount
  omega

theorem tables_small : boot.fatCopies * boot.sectorsPerFat < 2 ^ 24 := by
  have product := Nat.mul_le_mul (Nat.le_of_lt_succ valid.copies.2) (Nat.le_of_lt_succ valid.table)
  omega

end BootSector.Valid

/-- The driver's root directory is that of the format if the volume has the driver's sectors. -/
theorem BootSector.rootSectors_eq {boot : BootSector} (sectorSize : boot.bytesPerSector = viosSectorSize) :
    boot.toFatHeader.rootDirSectors = boot.rootSectors := by
  unfold FatHeader.rootDirSectors rootSectors
  rw [sectorSize]
  unfold viosSectorSize directoryItemSize
  simp only
  split <;> omega

theorem BootSector.dataSector_eq {boot : BootSector} (sectorSize : boot.bytesPerSector = viosSectorSize) :
    boot.toFatHeader.dataSector = boot.firstDataSector := by
  unfold FatHeader.dataSector FatHeader.rootDirSectorPos firstDataSector
  rw [rootSectors_eq sectorSize]
  omega

/-- A valid volume with the driver's sectors, on a disk that an `int` can address, is one the driver
works on. -/
theorem BootSector.Valid.consistent {boot : BootSector} (valid : boot.Valid)
    (sectorSize : boot.bytesPerSector = viosSectorSize) {size : Nat}
    (onDisk : boot.totalSectors * viosSectorSize ≤ size) (small : size < 2 ^ 31) :
    boot.toFatHeader.Consistent size := by
  have room := valid.tableRoom
  have clusters := valid.clusters
  have clusterEnd : boot.toFatHeader.clusterEnd = boot.clusterCount + 2 := by
    unfold FatHeader.clusterEnd clusterCount
    rw [dataSector_eq sectorSize]
  refine ⟨valid.sectorsPerCluster_pos.1, valid.copies.1, ?_, onDisk, small, ?_, ?_⟩
  · rw [dataSector_eq sectorSize]
    exact valid.regions
  · rw [clusterEnd, ← sectorSize]
    exact room
  · rw [clusterEnd]
    omega

/-- The volume that `fat16_resolve` makes of a disk with this header. -/
structure BootSector.MountedAs (boot : BootSector) (volume : FatVolume) : Prop where
  header : volume.header = boot.toFatHeader
  sectorPos : volume.rootDirectory.sectorPos = boot.toFatHeader.rootDirSectorPos
  endingSectorPos : volume.rootDirectory.endingSectorPos = boot.toFatHeader.dataSector

/-- The volume of a disk with this header, as `fat16_resolve` reads it. -/
def BootSector.volumeOn (boot : BootSector) (store : ByteStore) : FatVolume where
  store := store
  header := boot.toFatHeader
  rootDirectory :=
    { item := directoryItems boot.rootDirEntries fun i =>
        store.bytes (boot.toFatHeader.rootDirSectorPos * viosSectorSize + i)
      sectorPos := boot.toFatHeader.rootDirSectorPos
      endingSectorPos := boot.toFatHeader.dataSector }

theorem mountedAs_of_resolve {store : ByteStore} {boot : BootSector} {volume : FatVolume}
    (resolved : fat16Resolve store boot.toFatHeader = some volume) :
    boot.MountedAs volume ∧ volume.store = store := by
  unfold fat16Resolve fat16GetRootDirectory at resolved
  rw [ByteStore.read_stream] at resolved
  cases read : store.read (boot.toFatHeader.rootDirSectorPos * viosSectorSize)
      (boot.rootDirEntries * directoryItemSize) with
  | none =>
    rw [read] at resolved
    exact absurd resolved (by simp)
  | some buffer =>
    rw [read] at resolved
    obtain rfl := Option.some.inj resolved
    exact ⟨⟨rfl, rfl, rfl⟩, rfl⟩

theorem BootSector.volumeOn_mountedAs (boot : BootSector) (store : ByteStore) :
    boot.MountedAs (boot.volumeOn store) := ⟨rfl, rfl, rfl⟩

/-- A disk that holds the root directory is accepted. -/
theorem resolve_volumeOn {boot : BootSector} {store : ByteStore}
    (fits : boot.toFatHeader.rootDirSectorPos * viosSectorSize + boot.rootDirEntries * directoryItemSize ≤
      store.size) :
    fat16Resolve store boot.toFatHeader = some (boot.volumeOn store) := by
  unfold fat16Resolve fat16GetRootDirectory
  rw [← Nat.cast_mul, ByteStore.read_stream, read_eq fits]
  rfl

/-! ## The positions of the driver -/

/-- Signed arithmetic of the type `int`, which is undefined when it overflows. -/
def checkedInt (value : Int) : Option Int :=
  if -(2 ^ 31) ≤ value ∧ value < 2 ^ 31 then some value else none

theorem checkedInt_natCast {value : Nat} (small : value < 2 ^ 31) : checkedInt value = some (value : Int) :=
  if_pos (by omega)

theorem checkedInt_eq_some {value result : Int} (defined : checkedInt value = some result) :
    result = value ∧ result < 2 ^ 31 := by
  unfold checkedInt at defined
  split at defined
  · obtain rfl := Option.some.inj defined
    exact ⟨rfl, by omega⟩
  · exact absurd defined (by simp)

section Positions

variable (boot : BootSector)

/-- The position `fat16_get_fat_entry` seeks to.  That of the table is unsigned, and so is the sum. -/
def getFatEntryPosition (cluster : Nat) : Option Int := do
  let offset ← checkedInt (cluster * fat16FatEntrySize)
  some (asInt ((boot.reservedSectors * viosSectorSize + offset) % 2 ^ 32).toNat)

/-- The positions `fat16_set_fat_entry` seeks to, one for each copy of the table. -/
def setFatEntryPosition (copy cluster : Nat) : Option Int := do
  let offset ← checkedInt (cluster * fat16FatEntrySize)
  let position ← checkedInt (asInt (boot.reservedSectors * viosSectorSize % 2 ^ 32) + offset)
  if copy = 0 then some position
  else
    let sectors ← checkedInt (copy * boot.sectorsPerFat)
    let bytes ← checkedInt (sectors * viosSectorSize)
    checkedInt (position + bytes)

/-- `root_dir_sector_pos`. -/
def rootSectorPosition : Option Int := do
  let tables ← checkedInt (boot.fatCopies * boot.sectorsPerFat)
  checkedInt (tables + boot.reservedSectors)

/-- The position of a slot of the root directory. -/
def rootSlotPosition (slot : Nat) : Option Int := do
  let start ← rootSectorPosition boot
  let sector ← checkedInt (start + (slot * directoryItemSize / viosSectorSize : Nat))
  let bytes ← checkedInt (sector * viosSectorSize)
  checkedInt (bytes + (slot * directoryItemSize % viosSectorSize : Nat))

/-- `ending_sector_pos`. -/
def endingSectorPosition : Option Int := do
  let start ← rootSectorPosition boot
  checkedInt (start + boot.toFatHeader.rootDirSectors)

/-- The position of a byte of a cluster. -/
def dataPosition (cluster offset : Nat) : Option Int := do
  let ending ← endingSectorPosition boot
  let sectors ← checkedInt ((cluster - 2 : Int) * boot.sectorsPerCluster)
  let sector ← checkedInt (ending + sectors)
  let bytes ← checkedInt (sector * viosSectorSize)
  checkedInt (bytes + offset)

end Positions

/-- The driver seeks to the positions of the format, and no `int` overflows on the way. -/
structure PositionsRight (boot : BootSector) : Prop where
  getEntry : ∀ cluster < boot.clusterCount + 2,
    getFatEntryPosition boot cluster = some (boot.fatByte 0 cluster : Int)
  setEntry : ∀ copy < boot.fatCopies, ∀ cluster < boot.clusterCount + 2,
    setFatEntryPosition boot copy cluster = some (boot.fatByte copy cluster : Int)
  rootSlot : ∀ slot < boot.rootDirEntries, rootSlotPosition boot slot = some (boot.rootByte slot : Int)
  data : ∀ cluster offset, 2 ≤ cluster → cluster < boot.clusterCount + 2 →
    offset < boot.sectorsPerCluster * boot.bytesPerSector →
    dataPosition boot cluster offset = some (boot.dataByte cluster offset : Int)

section Right

variable {boot : BootSector}

/-- The position of the table is small enough on every volume. -/
theorem getFatEntryPosition_eq (valid : boot.Valid) {cluster : Nat} (inTable : cluster < boot.clusterCount + 2) :
    getFatEntryPosition boot cluster =
      some ((boot.reservedSectors * viosSectorSize + cluster * fat16FatEntrySize : Nat) : Int) := by
  have few := valid.clusters.2
  have reserved := valid.reserved.2
  have offset : checkedInt ((cluster : Int) * fat16FatEntrySize) = some ((cluster * fat16FatEntrySize : Nat) : Int) := by
    rw [← Nat.cast_mul]
    exact checkedInt_natCast (by unfold fat16FatEntrySize; omega)
  have sum : (((boot.reservedSectors : Int) * viosSectorSize + (cluster * fat16FatEntrySize : Nat)) % 2 ^ 32).toNat =
      boot.reservedSectors * viosSectorSize + cluster * fat16FatEntrySize := by
    unfold fat16FatEntrySize viosSectorSize
    omega
  unfold getFatEntryPosition
  rw [offset, Option.bind_eq_bind, Option.bind_some, sum]
  unfold asInt
  rw [if_pos (by unfold fat16FatEntrySize viosSectorSize; omega)]

/-- The position in a copy of the table. -/
theorem setFatEntryPosition_eq (valid : boot.Valid) {copy cluster : Nat} (inTable : cluster < boot.clusterCount + 2)
    (small : (boot.reservedSectors + copy * boot.sectorsPerFat) * viosSectorSize +
      cluster * fat16FatEntrySize < 2 ^ 31) :
    setFatEntryPosition boot copy cluster =
      some (((boot.reservedSectors + copy * boot.sectorsPerFat) * viosSectorSize +
        cluster * fat16FatEntrySize : Nat) : Int) := by
  have few := valid.clusters.2
  have reserved := valid.reserved.2
  -- No step of the arithmetic leaves the range of an int.
  have offset : checkedInt ((cluster : Int) * fat16FatEntrySize) = some ((cluster * fat16FatEntrySize : Nat) : Int) := by
    rw [← Nat.cast_mul]
    exact checkedInt_natCast (by unfold fat16FatEntrySize; omega)
  have table : asInt (boot.reservedSectors * viosSectorSize % 2 ^ 32) =
      ((boot.reservedSectors * viosSectorSize : Nat) : Int) := by
    rw [Nat.mod_eq_of_lt (by unfold viosSectorSize; omega)]
    exact if_pos (by unfold viosSectorSize; omega)
  rw [Nat.add_mul] at small
  have position : checkedInt (((boot.reservedSectors * viosSectorSize : Nat) : Int) +
      (cluster * fat16FatEntrySize : Nat)) =
      some ((boot.reservedSectors * viosSectorSize + cluster * fat16FatEntrySize : Nat) : Int) := by
    rw [← Nat.cast_add]
    exact checkedInt_natCast (by omega)
  unfold setFatEntryPosition
  rw [offset, Option.bind_eq_bind, Option.bind_some, table, position, Option.bind_some]
  by_cases isFirst : copy = 0
  · rw [if_pos isFirst, isFirst, Nat.zero_mul, Nat.add_zero]
  · have bound : copy * boot.sectorsPerFat < 2 ^ 31 := by
      unfold viosSectorSize at small
      omega
    have sectors : checkedInt ((copy : Int) * boot.sectorsPerFat) =
        some ((copy * boot.sectorsPerFat : Nat) : Int) := by
      rw [← Nat.cast_mul]
      exact checkedInt_natCast bound
    have bytes : checkedInt (((copy * boot.sectorsPerFat : Nat) : Int) * viosSectorSize) =
        some ((copy * boot.sectorsPerFat * viosSectorSize : Nat) : Int) := by
      rw [← Nat.cast_mul]
      exact checkedInt_natCast (by omega)
    rw [if_neg isFirst, sectors, Option.bind_some, bytes, Option.bind_some, ← Nat.cast_add,
      checkedInt_natCast (by omega), Nat.add_mul, Nat.add_right_comm]

theorem rootSectorPosition_eq (valid : boot.Valid) :
    rootSectorPosition boot = some ((boot.reservedSectors + boot.fatCopies * boot.sectorsPerFat : Nat) : Int) := by
  have tables := valid.tables_small
  have reserved := valid.reserved.2
  have product : checkedInt ((boot.fatCopies : Int) * boot.sectorsPerFat) =
      some ((boot.fatCopies * boot.sectorsPerFat : Nat) : Int) := by
    rw [← Nat.cast_mul]
    exact checkedInt_natCast (by omega)
  unfold rootSectorPosition
  rw [product, Option.bind_eq_bind, Option.bind_some, ← Nat.cast_add, checkedInt_natCast (by omega), Nat.add_comm]

theorem rootSlotPosition_eq (valid : boot.Valid) {slot : Nat}
    (small : (boot.reservedSectors + boot.fatCopies * boot.sectorsPerFat) * viosSectorSize +
      slot * directoryItemSize < 2 ^ 31) :
    rootSlotPosition boot slot =
      some (((boot.reservedSectors + boot.fatCopies * boot.sectorsPerFat) * viosSectorSize +
        slot * directoryItemSize : Nat) : Int) := by
  obtain ⟨start, isStart⟩ : ∃ n, n = boot.reservedSectors + boot.fatCopies * boot.sectorsPerFat := ⟨_, rfl⟩
  have place := Nat.div_add_mod' (slot * directoryItemSize) viosSectorSize
  rw [← isStart] at small ⊢
  have whole : (start + slot * directoryItemSize / viosSectorSize) * viosSectorSize +
      slot * directoryItemSize % viosSectorSize = start * viosSectorSize + slot * directoryItemSize := by
    rw [Nat.add_mul]
    omega
  have bytes : checkedInt (((start + slot * directoryItemSize / viosSectorSize : Nat) : Int) * viosSectorSize) =
      some (((start + slot * directoryItemSize / viosSectorSize) * viosSectorSize : Nat) : Int) := by
    rw [← Nat.cast_mul]
    exact checkedInt_natCast (by omega)
  have sector : start + slot * directoryItemSize / viosSectorSize < 2 ^ 31 := by
    unfold viosSectorSize at *
    omega
  unfold rootSlotPosition
  rw [rootSectorPosition_eq valid, ← isStart, Option.bind_eq_bind, Option.bind_some, ← Nat.cast_add,
    checkedInt_natCast sector, Option.bind_some, bytes, Option.bind_some, ← Nat.cast_add, checkedInt_natCast (by omega), whole]

theorem endingSectorPosition_eq (valid : boot.Valid) :
    endingSectorPosition boot = some (boot.toFatHeader.dataSector : Int) := by
  have tables := valid.tables_small
  have reserved := valid.reserved.2
  have root := valid.root.2
  have sectors : boot.toFatHeader.rootDirSectors ≤ 2 ^ 16 := by
    unfold FatHeader.rootDirSectors directoryItemSize viosSectorSize
    simp only
    split <;> omega
  unfold endingSectorPosition FatHeader.dataSector FatHeader.rootDirSectorPos
  rw [rootSectorPosition_eq valid, Option.bind_eq_bind, Option.bind_some, ← Nat.cast_add,
    checkedInt_natCast (by omega), Nat.add_comm boot.reservedSectors]

theorem dataPosition_eq (valid : boot.Valid) {cluster offset : Nat} (lower : 2 ≤ cluster)
    (small : (boot.toFatHeader.dataSector + (cluster - 2) * boot.sectorsPerCluster) * viosSectorSize +
      offset < 2 ^ 31) :
    dataPosition boot cluster offset =
      some (((boot.toFatHeader.dataSector + (cluster - 2) * boot.sectorsPerCluster) * viosSectorSize +
        offset : Nat) : Int) := by
  obtain ⟨start, isStart⟩ : ∃ n, n = boot.toFatHeader.dataSector := ⟨_, rfl⟩
  rw [← isStart] at small ⊢
  have bound : start + (cluster - 2) * boot.sectorsPerCluster < 2 ^ 31 := by
    unfold viosSectorSize at small
    omega
  have sectors : checkedInt ((cluster - 2 : Int) * boot.sectorsPerCluster) =
      some (((cluster - 2) * boot.sectorsPerCluster : Nat) : Int) := by
    rw [show ((cluster : Int) - 2) = ((cluster - 2 : Nat) : Int) by omega, ← Nat.cast_mul]
    exact checkedInt_natCast (by omega)
  have bytes : checkedInt (((start + (cluster - 2) * boot.sectorsPerCluster : Nat) : Int) * viosSectorSize) =
      some (((start + (cluster - 2) * boot.sectorsPerCluster) * viosSectorSize : Nat) : Int) := by
    rw [← Nat.cast_mul]
    exact checkedInt_natCast (by omega)
  unfold dataPosition
  rw [endingSectorPosition_eq valid, ← isStart, Option.bind_eq_bind, Option.bind_some, sectors,
    Option.bind_some, ← Nat.cast_add, checkedInt_natCast bound, Option.bind_some, bytes, Option.bind_some, ← Nat.cast_add, checkedInt_natCast small]

/-- The last thing computed is a position an `int` holds. -/
theorem dataPosition_lt {cluster offset : Nat} {position : Int}
    (defined : dataPosition boot cluster offset = some position) : position < 2 ^ 31 := by
  unfold dataPosition at defined
  obtain ⟨ending, -, defined⟩ := Option.bind_eq_some_iff.mp defined
  obtain ⟨sectors, -, defined⟩ := Option.bind_eq_some_iff.mp defined
  obtain ⟨sector, -, defined⟩ := Option.bind_eq_some_iff.mp defined
  obtain ⟨bytes, -, defined⟩ := Option.bind_eq_some_iff.mp defined
  exact (checkedInt_eq_some defined).2

/-- Where they are defined, these are the positions of the model, which does not bound its integers. -/
theorem positions_of_volume (valid : boot.Valid) {volume : FatVolume} (mountedAs : boot.MountedAs volume) :
    (∀ cluster < boot.clusterCount + 2,
      getFatEntryPosition boot cluster = some (volume.fatEntryPosition cluster)) ∧
    (∀ slot position, rootSlotPosition boot slot = some position →
      position = (entryLocation volume.rootDirectory slot).1 * viosSectorSize +
        (entryLocation volume.rootDirectory slot).2) ∧
    ∀ (cluster offset : Nat) (position : Int), dataPosition boot cluster offset = some position →
      position = volume.clusterPosition cluster + offset := by
  refine ⟨fun cluster inTable => ?_, fun slot position defined => ?_, fun cluster offset position defined => ?_⟩
  · rw [getFatEntryPosition_eq valid inTable, FatVolume.fatEntryPosition, mountedAs.header]
    push_cast
    rfl
  · unfold rootSlotPosition at defined
    rw [rootSectorPosition_eq valid, Option.bind_eq_bind, Option.bind_some] at defined
    obtain ⟨sector, isSector, defined⟩ := Option.bind_eq_some_iff.mp defined
    obtain ⟨bytes, isBytes, defined⟩ := Option.bind_eq_some_iff.mp defined
    rw [(checkedInt_eq_some defined).1, (checkedInt_eq_some isBytes).1, (checkedInt_eq_some isSector).1]
    unfold entryLocation
    rw [mountedAs.sectorPos, FatHeader.rootDirSectorPos, Nat.add_comm boot.reservedSectors]
    push_cast
    rfl
  · unfold dataPosition at defined
    rw [endingSectorPosition_eq valid, Option.bind_eq_bind, Option.bind_some] at defined
    obtain ⟨sectors, isSectors, defined⟩ := Option.bind_eq_some_iff.mp defined
    obtain ⟨sector, isSector, defined⟩ := Option.bind_eq_some_iff.mp defined
    obtain ⟨bytes, isBytes, defined⟩ := Option.bind_eq_some_iff.mp defined
    rw [(checkedInt_eq_some defined).1, (checkedInt_eq_some isBytes).1, (checkedInt_eq_some isSector).1,
      (checkedInt_eq_some isSectors).1, FatVolume.clusterPosition, mountedAs.header, mountedAs.endingSectorPos]

/-- The regions of the volume, with the driver's sectors. -/
theorem region_ends (boot : BootSector) :
    (boot.reservedSectors + boot.fatCopies * boot.sectorsPerFat) * viosSectorSize +
      boot.rootDirEntries * directoryItemSize ≤ boot.toFatHeader.dataSector * viosSectorSize := by
  unfold FatHeader.dataSector FatHeader.rootDirSectorPos FatHeader.rootDirSectors directoryItemSize viosSectorSize
  simp only
  split <;> omega

/-- The driver's positions are those of the format exactly on volumes with sectors of 512 bytes
whose clusters end below 2^31. -/
theorem positions_right_iff (valid : boot.Valid) :
    PositionsRight boot ↔ boot.bytesPerSector = viosSectorSize ∧ boot.dataEnd ≤ 2 ^ 31 := by
  constructor
  · intro right
    have positive := valid.sectorsPerCluster_pos.1
    have some := valid.clusters.1
    constructor
    · -- entry 0 of the table is where the reserved sectors end
      have entry := right.getEntry 0 (by omega)
      rw [getFatEntryPosition_eq valid (by omega), Option.some.injEq, Int.natCast_inj, BootSector.fatByte] at entry
      have reserved := valid.reserved.1
      simp only [Nat.zero_mul, Nat.add_zero] at entry
      exact (Nat.eq_of_mul_eq_mul_left reserved entry).symm
    · -- the last byte of the last cluster
      have room : 0 < boot.sectorsPerCluster * boot.bytesPerSector :=
        Nat.mul_pos positive (Nat.lt_of_lt_of_le (by decide) valid.bytesPerSector_ge)
      have last := right.data (boot.clusterCount + 1) (boot.sectorsPerCluster * boot.bytesPerSector - 1)
        (by omega) (by omega) (by omega)
      have below := dataPosition_lt last
      have ends : boot.dataByte (boot.clusterCount + 1) (boot.sectorsPerCluster * boot.bytesPerSector - 1) + 1 =
          boot.dataEnd := by
        have shape : boot.clusterCount * boot.sectorsPerCluster =
            (boot.clusterCount - 1) * boot.sectorsPerCluster + boot.sectorsPerCluster := by
          rw [← Nat.succ_mul, Nat.succ_eq_add_one, Nat.sub_add_cancel (by omega)]
        unfold BootSector.dataByte BootSector.dataEnd
        rw [shape, show boot.clusterCount + 1 - 2 = boot.clusterCount - 1 by omega, ← Nat.add_assoc,
          Nat.add_mul _ boot.sectorsPerCluster]
        omega
      omega
  · rintro ⟨sectorSize, small⟩
    have data := BootSector.dataSector_eq sectorSize
    have room := valid.tableRoom
    have regions := region_ends boot
    unfold BootSector.dataEnd at small
    rw [sectorSize] at small room
    rw [Nat.add_mul] at small
    rw [data] at regions
    refine ⟨fun cluster inTable => ?_, fun copy isCopy cluster inTable => ?_, fun slot inRoot => ?_,
      fun cluster offset lower upper inCluster => ?_⟩
    · rw [getFatEntryPosition_eq valid inTable, BootSector.fatByte, sectorSize, Nat.zero_mul, Nat.add_zero]
    · have entry : cluster * fat16FatEntrySize + fat16FatEntrySize ≤ boot.sectorsPerFat * viosSectorSize := by
        unfold fat16FatEntrySize at *
        omega
      have copies := Nat.mul_le_mul_right (boot.sectorsPerFat * viosSectorSize) (Nat.succ_le_of_lt isCopy)
      rw [Nat.succ_mul, ← Nat.mul_assoc, ← Nat.mul_assoc] at copies
      rw [Nat.add_mul] at regions
      rw [setFatEntryPosition_eq valid inTable (by rw [Nat.add_mul]; unfold fat16FatEntrySize at *; omega),
        BootSector.fatByte, sectorSize]
    · have slotEnd := Nat.mul_le_mul_right directoryItemSize (Nat.succ_le_of_lt inRoot)
      rw [Nat.succ_mul] at slotEnd
      rw [rootSlotPosition_eq valid (by unfold directoryItemSize at *; omega), BootSector.rootByte, sectorSize]
    · rw [sectorSize] at inCluster
      have before := Nat.mul_le_mul_right (boot.sectorsPerCluster * viosSectorSize)
        (show cluster - 2 + 1 ≤ boot.clusterCount by omega)
      rw [Nat.succ_mul, ← Nat.mul_assoc, ← Nat.mul_assoc] at before
      rw [dataPosition_eq valid lower (by rw [data, Nat.add_mul]; omega), data, BootSector.dataByte, sectorSize]

end Right

/-! ## Three volumes -/

/-- A small volume with the driver's sectors. -/
def smallBoot : BootSector := ⟨⟨1, 1, 2, 512, 4267, 17, 0⟩, 512, 0x29⟩

theorem smallBoot_valid : smallBoot.Valid :=
  ⟨by decide, by decide, by decide, by decide, by decide, by decide, by decide, by decide, by decide, by decide⟩

theorem smallBoot_positions : PositionsRight smallBoot :=
  (positions_right_iff smallBoot_valid).mpr ⟨by decide, by decide⟩

/-- A volume of 65524 clusters of 64 KiB. -/
def largeBoot : BootSector := ⟨⟨128, 1, 2, 512, 0, 256, 8387617⟩, 512, 0x29⟩

/-- A small volume with sectors of 1024 bytes. -/
def wideBoot : BootSector := ⟨⟨1, 1, 2, 512, 4235, 9, 0⟩, 1024, 0x29⟩

/-- The products overflow on the large volume, and entry 2 is sought in a wrong sector on the one with
wide sectors. -/
theorem largeBoot_overflows :
    (largeBoot.Valid ∧ dataPosition largeBoot 65525 0 = none ∧ ¬ PositionsRight largeBoot) ∧
      wideBoot.Valid ∧ getFatEntryPosition wideBoot 2 = some 516 ∧ wideBoot.fatByte 0 2 = 1028 ∧
        ¬ PositionsRight wideBoot := by
  have overflows : dataPosition largeBoot 65525 0 = none := by decide
  have sought : getFatEntryPosition wideBoot 2 = some 516 := by decide
  refine ⟨⟨?_, overflows, fun right => ?_⟩, ?_, sought, by decide, fun right => ?_⟩
  · exact ⟨by decide, by decide, by decide, by decide, by decide, by decide, by decide, by decide, by decide,
      by decide⟩
  · have last := right.data 65525 0 (by decide) (by decide) (by decide)
    rw [overflows] at last
    exact absurd last (by simp)
  · exact ⟨by decide, by decide, by decide, by decide, by decide, by decide, by decide, by decide, by decide,
      by decide⟩
  · have entry := right.getEntry 2 (by decide)
    rw [sought] at entry
    exact absurd entry (by decide)

end ViOS.Fs
