import ViOS.Fs.Fat16
import Mathlib.Data.Nat.Log
import Mathlib.Tactic.Ring

/-! # The three regions of a FAT16 volume

On a volume whose header is consistent the driver's accesses fall into three regions
that do not meet: the copies of the allocation table, the root directory, and the
clusters.  Each region has a view, and each write of the driver changes one view at one
place.

* `FatHeader.Consistent`, `Mounted` — the volumes, and the volumes in use.
* `FatVolume.fat`, `FatVolume.entry`, `FatVolume.byteAt` — the views.
* `TableWrite` — what `fat16_set_fat_entry` does to all copies of the table.
* `EntryWrite`, `DataWrite` — what the other writes do to the views, with one lemma each.
-/

namespace ViOS.Fs

/-! ## Consistent headers -/

namespace FatHeader

/-- The first sector of the clusters. -/
def dataSector (header : FatHeader) : Nat := header.rootDirSectorPos + header.rootDirSectors

/-- The clusters of the volume have the numbers from 2 up to this one. -/
def clusterEnd (header : FatHeader) : Nat :=
  (header.totalSectors - header.dataSector) / header.sectorsPerCluster + 2

/-- The regions lie on the disk, below 2^31, and the table has an entry for each cluster; a volume
with more than 65524 clusters is not FAT16. -/
structure Consistent (header : FatHeader) (size : Nat) : Prop where
  clusterPos : 0 < header.sectorsPerCluster
  copiesPos : 0 < header.fatCopies
  regions : header.dataSector ≤ header.totalSectors
  onDisk : header.totalSectors * viosSectorSize ≤ size
  small : size < 2 ^ 31
  tableRoom : header.clusterEnd * fat16FatEntrySize ≤ header.sectorsPerFat * viosSectorSize
  fat16 : header.clusterEnd ≤ 65526

end FatHeader

/-- A volume the driver has mounted. -/
structure Mounted (volume : FatVolume) : Prop where
  consistent : volume.header.Consistent volume.store.size
  sectorPos : volume.rootDirectory.sectorPos = volume.header.rootDirSectorPos
  endingSectorPos : volume.rootDirectory.endingSectorPos = volume.header.dataSector
  length : volume.rootDirectory.item.length = volume.header.rootDirEntries

theorem mounted_of_resolve {store : ByteStore} {header : FatHeader} {volume : FatVolume}
    (resolved : fat16Resolve store header = some volume) (consistent : header.Consistent store.size) :
    Mounted volume ∧ volume.store = store ∧ volume.header = header := by
  unfold fat16Resolve fat16GetRootDirectory at resolved
  rw [ByteStore.read_stream] at resolved
  cases read : store.read (header.rootDirSectorPos * viosSectorSize)
      (header.rootDirEntries * directoryItemSize) with
  | none =>
    rw [read] at resolved
    exact absurd resolved (by simp)
  | some buffer =>
    rw [read] at resolved
    obtain rfl := Option.some.inj resolved
    exact ⟨⟨consistent, rfl, rfl, by simp [directoryItems]⟩, rfl, rfl⟩

/-! ## The views -/

namespace FatVolume

section Regions

variable {σ : Type} (volume : FatVolume σ)

def tablePos : Nat := volume.header.reservedSectors * viosSectorSize
def rootPos : Nat := volume.header.rootDirSectorPos * viosSectorSize
def dataPos : Nat := volume.header.dataSector * viosSectorSize

/-- The clusters of the volume. -/
def IsCluster (cluster : Nat) : Prop := 2 ≤ cluster ∧ cluster < volume.header.clusterEnd

end Regions

variable (volume : FatVolume)

/-- The entry of a cluster in the first copy of the table. -/
def fat (cluster : Nat) : Nat :=
  littleEndian (fun i => volume.store.bytes (volume.tablePos + cluster * fat16FatEntrySize + i)) 0 2

/-- An entry of the root directory. -/
def entry (slot : Nat) : FatDirectoryItem :=
  .ofBytes fun i => volume.store.bytes (volume.rootPos + slot * directoryItemSize + i)

/-- A byte of a cluster. -/
def byteAt (cluster offset : Nat) : UInt8 :=
  volume.store.bytes (volume.dataPos + (cluster - 2) * volume.header.clusterSize + offset)

end FatVolume

/-! ## Encodings -/

theorem littleEndian_two (buffer : Nat → UInt8) (pos : Nat) :
    littleEndian buffer pos 2 = (buffer pos).toNat + 256 * (buffer (pos + 1)).toNat := by
  simp [littleEndian]

theorem littleEndian_four (buffer : Nat → UInt8) (pos : Nat) :
    littleEndian buffer pos 4 = (buffer pos).toNat + 256 * (buffer (pos + 1)).toNat +
      65536 * (buffer (pos + 2)).toNat + 16777216 * (buffer (pos + 3)).toNat := by
  simp [littleEndian]

theorem littleEndian_congr {buffer buffer' : Nat → UInt8} {pos count : Nat}
    (same : ∀ i, pos ≤ i → i < pos + count → buffer' i = buffer i) :
    littleEndian buffer' pos count = littleEndian buffer pos count := by
  induction count with
  | zero => rfl
  | succ count ih =>
    rw [littleEndian, littleEndian, ih fun i lower upper => same i lower (by omega),
      same (pos + count) (by omega) (by omega)]

theorem byteOf_toNat (value i : Nat) : (byteOf value i).toNat = value / 256 ^ i % 256 := by
  simp [byteOf]

theorem ofBytes_congr {buffer buffer' : Nat → UInt8}
    (same : ∀ i < directoryItemSize, buffer' i = buffer i) :
    FatDirectoryItem.ofBytes buffer' = FatDirectoryItem.ofBytes buffer := by
  have number : ∀ {pos count}, pos + count ≤ directoryItemSize →
      littleEndian buffer' pos count = littleEndian buffer pos count :=
    fun inside => littleEndian_congr fun i _ upper => same i (by omega)
  unfold FatDirectoryItem.ofBytes
  rw [number (by decide), number (by decide), number (by decide), number (by decide), number (by decide),
    number (by decide), number (by decide), number (by decide), same 11 (by decide), same 12 (by decide),
    same 13 (by decide)]
  simp only [FatDirectoryItem.mk.injEq, and_true]
  exact ⟨funext fun i => same i (by unfold directoryItemSize; omega),
    funext fun i => same (8 + i) (by unfold directoryItemSize; omega)⟩

/-- An item is read back from its bytes. -/
theorem FatDirectoryItem.ofBytes_toBytes (item : FatDirectoryItem) : ofBytes item.toBytes = item := by
  have word : ∀ (value : UInt16) (pos : Nat), item.toBytes pos = byteOf value.toNat 0 →
      item.toBytes (pos + 1) = byteOf value.toNat 1 → UInt16.ofNat (littleEndian item.toBytes pos 2) = value := by
    intro value pos low high
    have small := value.toNat_lt
    rw [littleEndian_two, low, high, byteOf_toNat, byteOf_toNat]
    refine UInt16.toNat.inj ?_
    rw [UInt16.toNat_ofNat']
    omega
  have long : UInt32.ofNat (littleEndian item.toBytes 28 4) = item.filesize := by
    have small := item.filesize.toNat_lt
    have bytes : ∀ i < 4, item.toBytes (28 + i) = byteOf item.filesize.toNat i := by
      intro i inside
      unfold toBytes
      rw [dif_neg (by omega), dif_neg (by omega)]
      simp only [show ¬ 28 + i = 11 by omega, show ¬ 28 + i = 12 by omega, show ¬ 28 + i = 13 by omega,
        show ¬ 28 + i < 16 by omega, show ¬ 28 + i < 18 by omega, show ¬ 28 + i < 20 by omega,
        show ¬ 28 + i < 22 by omega, show ¬ 28 + i < 24 by omega, show ¬ 28 + i < 26 by omega,
        show ¬ 28 + i < 28 by omega, if_false, Nat.add_sub_cancel_left]
    rw [littleEndian_four, bytes 1 (by omega), bytes 2 (by omega), bytes 3 (by omega),
      show item.toBytes 28 = byteOf item.filesize.toNat 0 from bytes 0 (by omega),
      byteOf_toNat, byteOf_toNat, byteOf_toNat, byteOf_toNat]
    refine UInt32.toNat.inj ?_
    rw [UInt32.toNat_ofNat']
    omega
  cases item with
  | mk filename ext attr reserved tenths creationTime creationDate lastAccess high modTime modDate low filesize =>
    have name : ∀ i : Fin 8, toBytes ⟨filename, ext, attr, reserved, tenths, creationTime, creationDate,
        lastAccess, high, modTime, modDate, low, filesize⟩ i = filename i :=
      fun i => dif_pos i.isLt
    have extension : ∀ i : Fin 3, toBytes ⟨filename, ext, attr, reserved, tenths, creationTime, creationDate,
        lastAccess, high, modTime, modDate, low, filesize⟩ (8 + i) = ext i := by
      intro i
      unfold toBytes
      rw [dif_neg (by omega), dif_pos (by omega)]
      simp
    unfold ofBytes
    simp only [mk.injEq]
    exact ⟨funext name, funext extension, rfl, rfl, rfl, word creationTime 14 rfl rfl,
      word creationDate 16 rfl rfl, word lastAccess 18 rfl rfl, word high 20 rfl rfl,
      word modTime 22 rfl rfl, word modDate 24 rfl rfl, word low 26 rfl rfl, long⟩

theorem firstCluster_withFirstCluster {item : FatDirectoryItem} {cluster : Nat} (small : cluster < 2 ^ 32) :
    fat16GetFirstCluster (item.withFirstCluster cluster) = cluster := by
  unfold fat16GetFirstCluster FatDirectoryItem.withFirstCluster
  simp only [UInt16.toNat_ofNat']
  omega

/-! ## The regions -/

theorem FatVolume.rootPos_eq {σ : Type} (volume : FatVolume σ) : volume.rootPos =
    volume.tablePos + volume.header.fatCopies * (volume.header.sectorsPerFat * viosSectorSize) := by
  unfold FatVolume.rootPos FatVolume.tablePos FatHeader.rootDirSectorPos
  ring

theorem FatVolume.entry_inside {volume : FatVolume} {slot : Nat}
    (inRoot : slot < volume.header.rootDirEntries) :
    volume.rootPos + slot * directoryItemSize + directoryItemSize ≤ volume.dataPos := by
  unfold FatVolume.rootPos FatVolume.dataPos FatHeader.dataSector FatHeader.rootDirSectors
  unfold directoryItemSize viosSectorSize
  simp only
  split <;> omega

theorem FatVolume.rootPos_le {σ : Type} (volume : FatVolume σ) : volume.rootPos ≤ volume.dataPos := by
  unfold FatVolume.rootPos FatVolume.dataPos FatHeader.dataSector viosSectorSize
  omega

theorem FatHeader.Consistent.cluster_inside {header : FatHeader} {size cluster : Nat}
    (consistent : header.Consistent size) (lower : 2 ≤ cluster) (upper : cluster < header.clusterEnd) :
    header.dataSector * viosSectorSize + (cluster - 2) * header.clusterSize + header.clusterSize ≤ size := by
  have onDisk := consistent.onDisk
  have count : cluster - 2 + 1 ≤ (header.totalSectors - header.dataSector) / header.sectorsPerCluster := by
    unfold FatHeader.clusterEnd at upper
    omega
  have sectors := (Nat.le_div_iff_mul_le consistent.clusterPos).mp count
  rw [Nat.succ_mul] at sectors
  have bytes := Nat.mul_le_mul_right viosSectorSize sectors
  have dataFits := Nat.mul_le_mul_right viosSectorSize consistent.regions
  rw [Nat.add_mul, Nat.mul_assoc, Nat.sub_mul header.totalSectors] at bytes
  unfold FatHeader.clusterSize
  omega

namespace Mounted

variable {volume : FatVolume} (mounted : Mounted volume)

include mounted

theorem cluster_inside {cluster : Nat} (isCluster : volume.IsCluster cluster) :
    volume.dataPos + (cluster - 2) * volume.header.clusterSize + volume.header.clusterSize ≤
      volume.store.size :=
  mounted.consistent.cluster_inside isCluster.1 isCluster.2

theorem clusterSize_pos : 0 < volume.header.clusterSize :=
  Nat.mul_pos mounted.consistent.clusterPos (by decide)

theorem dataPos_le : volume.dataPos ≤ volume.store.size :=
  Nat.le_trans (Nat.mul_le_mul_right _ mounted.consistent.regions) mounted.consistent.onDisk

end Mounted

/-! ## Writes -/

/-- The two volumes differ in the bytes of the disk only. -/
structure SameVolume (volume volume' : FatVolume) : Prop where
  size : volume'.store.size = volume.store.size
  header : volume'.header = volume.header
  rootDirectory : volume'.rootDirectory = volume.rootDirectory

theorem SameVolume.trans {a b c : FatVolume} (ab : SameVolume a b) (bc : SameVolume b c) : SameVolume a c :=
  ⟨bc.size.trans ab.size, bc.header.trans ab.header, bc.rootDirectory.trans ab.rootDirectory⟩

theorem SameVolume.mounted {volume volume' : FatVolume} (same : SameVolume volume volume')
    (mounted : Mounted volume) : Mounted volume' where
  consistent := by rw [same.header, same.size]; exact mounted.consistent
  sectorPos := by rw [same.header, same.rootDirectory]; exact mounted.sectorPos
  endingSectorPos := by rw [same.header, same.rootDirectory]; exact mounted.endingSectorPos
  length := by rw [same.header, same.rootDirectory]; exact mounted.length

/-- The bytes of the buffer replace those at the position. -/
structure Overwrites (volume : FatVolume) (pos total : Nat) (buffer : Nat → UInt8) (volume' : FatVolume) :
    Prop where
  same : SameVolume volume volume'
  inside : ∀ i < total, volume'.store.bytes (pos + i) = buffer i
  outside : ∀ p, p < pos ∨ pos + total ≤ p → volume'.store.bytes p = volume.store.bytes p

theorem write_spec {volume : FatVolume} {pos total : Nat} (fits : pos + total ≤ volume.store.size)
    (buffer : Nat → UInt8) :
    ∃ volume', volume.write (pos : Int) total buffer = (0, volume') ∧
      Overwrites volume pos total buffer volume' := by
  have allowed : (0 : Int) ≤ (pos : Int) ∧ (pos : Int) + (total : Int) ≤ (volume.store.size : Int) := by omega
  rw [FatVolume.write_store, ByteStore.write, if_pos allowed]
  refine ⟨_, rfl, ⟨rfl, rfl, rfl⟩, fun i inside => ?_, fun p outside => ?_⟩
  · simp [inside]
  · simp only [Int.toNat_natCast]
    exact if_neg (by omega)

theorem read_eq {store : ByteStore} {pos total : Nat} (fits : pos + total ≤ store.size) :
    store.read (pos : Int) total = some fun i => store.bytes (pos + i) := by
  have allowed : (0 : Int) ≤ (pos : Int) ∧ (pos : Int) + (total : Int) ≤ (store.size : Int) := by omega
  unfold ByteStore.read
  rw [if_pos allowed, Int.toNat_natCast]

section Frames

variable {volume volume' : FatVolume}

theorem SameVolume.tablePos (same : SameVolume volume volume') : volume'.tablePos = volume.tablePos := by
  unfold FatVolume.tablePos
  rw [same.header]

theorem SameVolume.rootPos (same : SameVolume volume volume') : volume'.rootPos = volume.rootPos := by
  unfold FatVolume.rootPos
  rw [same.header]

theorem SameVolume.dataPos (same : SameVolume volume volume') : volume'.dataPos = volume.dataPos := by
  unfold FatVolume.dataPos
  rw [same.header]

theorem fat_congr (same : SameVolume volume volume') {cluster : Nat}
    (bytes : ∀ i < fat16FatEntrySize,
      volume'.store.bytes (volume.tablePos + cluster * fat16FatEntrySize + i) =
        volume.store.bytes (volume.tablePos + cluster * fat16FatEntrySize + i)) :
    volume'.fat cluster = volume.fat cluster := by
  unfold FatVolume.fat
  rw [same.tablePos]
  exact littleEndian_congr fun i _ upper => bytes i (by unfold fat16FatEntrySize; omega)

theorem entry_congr (same : SameVolume volume volume') {slot : Nat}
    (bytes : ∀ i < directoryItemSize,
      volume'.store.bytes (volume.rootPos + slot * directoryItemSize + i) =
        volume.store.bytes (volume.rootPos + slot * directoryItemSize + i)) :
    volume'.entry slot = volume.entry slot := by
  have at_ := fun i inside => bytes i inside
  unfold FatVolume.entry
  rw [same.rootPos]
  exact ofBytes_congr at_

end Frames

/-- One entry of the root directory changed. -/
structure EntryWrite (volume : FatVolume) (slot : Nat) (item : FatDirectoryItem) (volume' : FatVolume) :
    Prop where
  same : SameVolume volume volume'
  fat : ∀ c < volume.header.clusterEnd, volume'.fat c = volume.fat c
  entry : ∀ s < volume.header.rootDirEntries, volume'.entry s = if s = slot then item else volume.entry s
  byteAt : ∀ c offset, volume'.byteAt c offset = volume.byteAt c offset

/-- Bytes of a cluster changed. -/
structure DataWrite (volume : FatVolume) (cluster offset total : Nat) (buffer : Nat → UInt8)
    (volume' : FatVolume) : Prop where
  same : SameVolume volume volume'
  fat : ∀ c < volume.header.clusterEnd, volume'.fat c = volume.fat c
  entry : ∀ slot < volume.header.rootDirEntries, volume'.entry slot = volume.entry slot
  byteAt : ∀ c o, volume.IsCluster c → o < volume.header.clusterSize → volume'.byteAt c o =
    if c = cluster ∧ offset ≤ o ∧ o < offset + total then buffer (o - offset) else volume.byteAt c o

theorem SameVolume.byteAt_congr {volume volume' : FatVolume} (same : SameVolume volume volume')
    {cluster offset : Nat}
    (byte : volume'.store.bytes (volume.dataPos + (cluster - 2) * volume.header.clusterSize + offset) =
      volume.store.bytes (volume.dataPos + (cluster - 2) * volume.header.clusterSize + offset)) :
    volume'.byteAt cluster offset = volume.byteAt cluster offset := by
  unfold FatVolume.byteAt
  rw [same.dataPos, same.header]
  exact byte

namespace Overwrites

variable {volume volume' : FatVolume} {pos total : Nat} {buffer : Nat → UInt8}

theorem byteAt_of_below (writes : Overwrites volume pos total buffer volume')
    (below : pos + total ≤ volume.dataPos) (cluster offset : Nat) :
    volume'.byteAt cluster offset = volume.byteAt cluster offset :=
  writes.same.byteAt_congr (writes.outside _ (by omega))

/-- A write behind the first copy of the table. -/
theorem fat_of_above (writes : Overwrites volume pos total buffer volume')
    (above : volume.tablePos + volume.header.sectorsPerFat * viosSectorSize ≤ pos)
    (room : volume.header.clusterEnd * fat16FatEntrySize ≤ volume.header.sectorsPerFat * viosSectorSize)
    {cluster : Nat} (inTable : cluster < volume.header.clusterEnd) :
    volume'.fat cluster = volume.fat cluster := by
  refine fat_congr writes.same fun i inside => writes.outside _ (.inl ?_)
  unfold fat16FatEntrySize at *
  omega

end Overwrites

/-! ## The allocation table -/

namespace FatHeader

/-- The bytes of one copy of the table. -/
def tableSize (header : FatHeader) : Nat := header.sectorsPerFat * viosSectorSize

/-- The entries of one copy of the table. -/
def tableEntries (header : FatHeader) : Nat := header.tableSize / fat16FatEntrySize

end FatHeader

/-- The copies of the table are on the disk. -/
structure TableOnDisk (volume : FatVolume) : Prop where
  copiesPos : 0 < volume.header.fatCopies
  onDisk : volume.rootPos ≤ volume.store.size

/-- A byte of copy `i` of the table. -/
def FatVolume.copyByte (volume : FatVolume) (i offset : Nat) : UInt8 :=
  volume.store.bytes (volume.tablePos + i * volume.header.tableSize + offset)

/-- All copies of the table hold the same bytes. -/
def CopiesEqual (volume : FatVolume) : Prop :=
  ∀ i < volume.header.fatCopies, ∀ offset < volume.header.tableSize,
    volume.copyByte i offset = volume.copyByte 0 offset

section Table

variable {volume volume' : FatVolume}

theorem entry_inside_table {header : FatHeader} {cluster : Nat} (inTable : cluster < header.tableEntries) :
    cluster * fat16FatEntrySize + fat16FatEntrySize ≤ header.tableSize := by
  unfold FatHeader.tableEntries fat16FatEntrySize at *
  omega

theorem copy_inside_root {σ : Type} {volume : FatVolume σ} {i : Nat} (isCopy : i < volume.header.fatCopies) :
    volume.tablePos + i * volume.header.tableSize + volume.header.tableSize ≤ volume.rootPos := by
  have copies := Nat.mul_le_mul_right volume.header.tableSize (Nat.succ_le_of_lt isCopy)
  rw [Nat.succ_mul] at copies
  rw [volume.rootPos_eq]
  unfold FatHeader.tableSize at *
  omega

/-- An entry, from the bytes of the first copy. -/
theorem fat_eq_copyByte (volume : FatVolume) (cluster : Nat) :
    volume.fat cluster = (volume.copyByte 0 (cluster * fat16FatEntrySize)).toNat +
      256 * (volume.copyByte 0 (cluster * fat16FatEntrySize + 1)).toNat := by
  unfold FatVolume.fat FatVolume.copyByte
  rw [littleEndian_two]
  simp [Nat.add_assoc]

theorem SameVolume.tableOnDisk (same : SameVolume volume volume') (ok : TableOnDisk volume) :
    TableOnDisk volume' where
  copiesPos := by rw [same.header]; exact ok.copiesPos
  onDisk := by rw [same.rootPos, same.size]; exact ok.onDisk

theorem fatEntryPosition_eq {σ : Type} (volume : FatVolume σ) (cluster : Nat) :
    volume.fatEntryPosition cluster = ((volume.tablePos + cluster * fat16FatEntrySize : Nat) : Int) := by
  unfold FatVolume.fatEntryPosition FatVolume.tablePos
  push_cast
  rfl

/-- The entry of a cluster is on the disk. -/
def FatVolume.EntryOnDisk (volume : FatVolume) (cluster : Nat) : Prop :=
  volume.tablePos + cluster * fat16FatEntrySize + fat16FatEntrySize ≤ volume.store.size

theorem FatVolume.EntryOnDisk.mono {cluster c : Nat} (onDisk : volume.EntryOnDisk cluster)
    (below : c ≤ cluster) : volume.EntryOnDisk c := by
  unfold EntryOnDisk fat16FatEntrySize at *
  omega

theorem getFatEntry_onDisk {cluster : Nat} (onDisk : volume.EntryOnDisk cluster) :
    fat16GetFatEntry volume cluster = volume.fat cluster := by
  unfold fat16GetFatEntry
  rw [fatEntryPosition_eq, ByteStore.read_stream, read_eq onDisk]
  rfl

theorem TableOnDisk.entryOnDisk (ok : TableOnDisk volume) {cluster : Nat}
    (inTable : cluster < volume.header.tableEntries) : volume.EntryOnDisk cluster := by
  have inside := entry_inside_table inTable
  have inCopy := copy_inside_root ok.copiesPos
  have onDisk := ok.onDisk
  unfold FatVolume.EntryOnDisk
  omega

theorem getFatEntry_table (ok : TableOnDisk volume) {cluster : Nat}
    (inTable : cluster < volume.header.tableEntries) :
    fat16GetFatEntry volume cluster = volume.fat cluster :=
  getFatEntry_onDisk (ok.entryOnDisk inTable)

/-- The first `count` copies have the value in the entry of a cluster, and nothing else changed. -/
structure CopiesWritten (volume : FatVolume) (cluster value count : Nat) (volume' : FatVolume) : Prop where
  same : SameVolume volume volume'
  bytes : ∀ i < volume.header.fatCopies, ∀ offset < volume.header.tableSize, volume'.copyByte i offset =
    if i < count ∧ cluster * fat16FatEntrySize ≤ offset ∧
        offset < cluster * fat16FatEntrySize + fat16FatEntrySize then
      byteOf value (offset - cluster * fat16FatEntrySize)
    else volume.copyByte i offset
  outside : ∀ p, volume.rootPos ≤ p → volume'.store.bytes p = volume.store.bytes p

/-- A write of one more copy. -/
theorem CopiesWritten.next {current : FatVolume} {cluster value i : Nat} (ok : TableOnDisk volume)
    (written : CopiesWritten volume cluster value i current) (isCopy : i < volume.header.fatCopies)
    (inTable : cluster < volume.header.tableEntries) :
    ∃ next, current.write ((volume.tablePos + cluster * fat16FatEntrySize +
          i * volume.header.sectorsPerFat * viosSectorSize : Nat) : Int) fat16FatEntrySize (byteOf value) =
        (0, next) ∧ CopiesWritten volume cluster value (i + 1) next := by
  have inside := entry_inside_table inTable
  have inRoot := copy_inside_root isCopy
  have onDisk := ok.onDisk
  have size := written.same.size
  have position : volume.tablePos + cluster * fat16FatEntrySize +
      i * volume.header.sectorsPerFat * viosSectorSize =
      volume.tablePos + i * volume.header.tableSize + cluster * fat16FatEntrySize := by
    unfold FatHeader.tableSize
    ring
  rw [position]
  obtain ⟨next, result, writes⟩ := @write_spec current
    (volume.tablePos + i * volume.header.tableSize + cluster * fat16FatEntrySize) fat16FatEntrySize
    (by omega) (byteOf value)
  refine ⟨next, result, written.same.trans writes.same, ?_, ?_⟩
  · intro j isCopy' offset below
    have before := written.bytes j isCopy' offset below
    unfold FatVolume.copyByte at before ⊢
    rw [writes.same.tablePos, writes.same.header]
    rw [written.same.tablePos, written.same.header] at before ⊢
    by_cases here : j = i ∧ cluster * fat16FatEntrySize ≤ offset ∧
        offset < cluster * fat16FatEntrySize + fat16FatEntrySize
    · -- the two bytes just written
      obtain ⟨rfl, lower, upper⟩ := here
      have byte := writes.inside (offset - cluster * fat16FatEntrySize) (by omega)
      have place : volume.tablePos + j * volume.header.tableSize + cluster * fat16FatEntrySize +
          (offset - cluster * fat16FatEntrySize) =
          volume.tablePos + j * volume.header.tableSize + offset := by omega
      rw [place] at byte
      rw [if_pos ⟨Nat.lt_succ_self j, lower, upper⟩, byte]
    · have apart : volume.tablePos + j * volume.header.tableSize + offset <
            volume.tablePos + i * volume.header.tableSize + cluster * fat16FatEntrySize ∨
          volume.tablePos + i * volume.header.tableSize + cluster * fat16FatEntrySize + fat16FatEntrySize ≤
            volume.tablePos + j * volume.header.tableSize + offset := by
        cases Nat.lt_trichotomy j i with
        | inl earlier =>
          -- copies of the table do not overlap, so the write into one misses the others
          have copies := Nat.mul_le_mul_right volume.header.tableSize (Nat.succ_le_of_lt earlier)
          rw [Nat.succ_mul] at copies
          omega
        | inr later =>
          cases later with
          | inl same =>
            subst same
            omega
          | inr later =>
            have copies := Nat.mul_le_mul_right volume.header.tableSize (Nat.succ_le_of_lt later)
            rw [Nat.succ_mul] at copies
            omega
      have alike : (j < i ∧ cluster * fat16FatEntrySize ≤ offset ∧
            offset < cluster * fat16FatEntrySize + fat16FatEntrySize) ↔
          (j < i + 1 ∧ cluster * fat16FatEntrySize ≤ offset ∧
            offset < cluster * fat16FatEntrySize + fat16FatEntrySize) := by omega
      rw [writes.outside _ apart, before]
      simp only [alike]
  · intro p above
    rw [writes.outside p (.inr (by omega)), written.outside p above]

/-- The loop of `fat16_set_fat_entry` writes the copies that are left. -/
theorem setFatCopies_table {cluster value : Nat} (ok : TableOnDisk volume)
    (inTable : cluster < volume.header.tableEntries) (rest : Nat) :
    ∀ {i : Nat} {current : FatVolume}, CopiesWritten volume cluster value i current →
      i + rest = volume.header.fatCopies →
      ∃ volume', setFatCopies (volume.tablePos + cluster * fat16FatEntrySize : Nat) value rest i 0 current =
        (0, volume') ∧ CopiesWritten volume cluster value volume.header.fatCopies volume' := by
  induction rest with
  | zero =>
    intro i current written all
    obtain rfl : i = volume.header.fatCopies := by omega
    exact ⟨current, rfl, written⟩
  | succ rest ih =>
    intro i current written count
    obtain ⟨next, result, writtenNext⟩ := written.next ok (by omega) inTable
    obtain ⟨volume', result', writtenAll⟩ := ih writtenNext (by omega)
    refine ⟨volume', ?_, writtenAll⟩
    push_cast at result result' ⊢
    rw [setFatCopies, written.same.header]
    simp only [result, lt_irrefl, if_false]
    exact result'

/-- One entry of the table changed, in all copies. -/
structure TableWrite (volume : FatVolume) (cluster value : Nat) (volume' : FatVolume) : Prop where
  same : SameVolume volume volume'
  copies : CopiesEqual volume → CopiesEqual volume'
  fat : ∀ c < volume.header.tableEntries, volume'.fat c =
    if c = cluster then value % 2 ^ 16 else volume.fat c
  outside : ∀ p, volume.rootPos ≤ p → volume'.store.bytes p = volume.store.bytes p

theorem CopiesWritten.tableWrite {cluster value : Nat} (ok : TableOnDisk volume)
    (written : CopiesWritten volume cluster value volume.header.fatCopies volume') :
    TableWrite volume cluster value volume' := by
  refine ⟨written.same, fun equal i isCopy offset below => ?_, fun c inTable => ?_, written.outside⟩
  · rw [written.same.header] at isCopy below
    rw [written.bytes i isCopy offset below, written.bytes 0 ok.copiesPos offset below,
      equal i isCopy offset below]
    simp only [isCopy, ok.copiesPos, true_and]
  · have inside := entry_inside_table inTable
    rw [fat_eq_copyByte, fat_eq_copyByte volume,
      written.bytes 0 ok.copiesPos _ (by unfold fat16FatEntrySize at *; omega),
      written.bytes 0 ok.copiesPos _ (by unfold fat16FatEntrySize at *; omega)]
    unfold fat16FatEntrySize
    by_cases here : c = cluster
    · subst here
      rw [if_pos ⟨ok.copiesPos, by omega, by omega⟩, if_pos ⟨ok.copiesPos, by omega, by omega⟩, if_pos rfl,
        byteOf_toNat, byteOf_toNat, Nat.sub_self, show c * 2 + 1 - c * 2 = 1 by omega]
      omega
    · rw [if_neg (by omega), if_neg (by omega), if_neg here]

/-- `fat16_set_fat_entry`. -/
theorem setFatEntry_table {cluster : Nat} (ok : TableOnDisk volume)
    (inTable : cluster < volume.header.tableEntries) (value : Nat) :
    ∃ volume', fat16SetFatEntry volume cluster value = (0, volume') ∧ TableWrite volume cluster value volume' := by
  have none : CopiesWritten volume cluster value 0 volume :=
    ⟨⟨rfl, rfl, rfl⟩, fun i _ offset _ => by simp, fun _ _ => rfl⟩
  obtain ⟨first, result, written⟩ := none.next ok ok.copiesPos inTable
  obtain ⟨volume', result', all⟩ := setFatCopies_table ok inTable (volume.header.fatCopies - 1) written
    (by have := ok.copiesPos; omega)
  refine ⟨volume', ?_, all.tableWrite ok⟩
  simp only [Nat.zero_mul, Nat.add_zero] at result
  unfold fat16SetFatEntry
  simp only [fatEntryPosition_eq, result, lt_irrefl, if_false, written.same.header]
  exact result'

theorem Mounted.tableOnDisk (mounted : Mounted volume) : TableOnDisk volume :=
  ⟨mounted.consistent.copiesPos, Nat.le_trans volume.rootPos_le mounted.dataPos_le⟩

theorem Mounted.lt_tableEntries (mounted : Mounted volume) {cluster : Nat}
    (inTable : cluster < volume.header.clusterEnd) : cluster < volume.header.tableEntries := by
  have room := mounted.consistent.tableRoom
  unfold FatHeader.tableEntries FatHeader.tableSize fat16FatEntrySize at *
  omega

theorem getFatEntry_eq (mounted : Mounted volume) {cluster : Nat}
    (inTable : cluster < volume.header.clusterEnd) :
    fat16GetFatEntry volume cluster = volume.fat cluster :=
  getFatEntry_table mounted.tableOnDisk (mounted.lt_tableEntries inTable)

end Table

/-! ## The root directory -/

/-- Where an entry of the root directory is on the disk. -/
theorem entryLocation_pos {volume : FatVolume} (mounted : Mounted volume) (slot : Nat) :
    (entryLocation volume.rootDirectory slot).1 * viosSectorSize +
      (entryLocation volume.rootDirectory slot).2 = volume.rootPos + slot * directoryItemSize := by
  have split := Nat.div_add_mod (slot * directoryItemSize) viosSectorSize
  unfold entryLocation FatVolume.rootPos
  rw [mounted.sectorPos, Nat.add_mul]
  rw [Nat.mul_comm viosSectorSize] at split
  omega

theorem readEntry_eq {volume : FatVolume} (mounted : Mounted volume) {slot : Nat}
    (inRoot : slot < volume.header.rootDirEntries) :
    volume.store.read ((volume.rootPos + slot * directoryItemSize : Nat) : Int) directoryItemSize =
      some fun i => volume.store.bytes (volume.rootPos + slot * directoryItemSize + i) := by
  have inside := volume.entry_inside inRoot
  have onDisk := mounted.dataPos_le
  exact read_eq (by omega)

theorem writeEntry_spec {volume : FatVolume} (mounted : Mounted volume) {slot : Nat}
    (inRoot : slot < volume.header.rootDirEntries) (item : FatDirectoryItem) :
    ∃ volume', volume.write ((volume.rootPos + slot * directoryItemSize : Nat) : Int) directoryItemSize
      item.toBytes = (0, volume') ∧ EntryWrite volume slot item volume' := by
  have inside := volume.entry_inside inRoot
  have onDisk := mounted.dataPos_le
  have afterTable := volume.rootPos_eq
  have copies : volume.header.sectorsPerFat * viosSectorSize ≤
      volume.header.fatCopies * (volume.header.sectorsPerFat * viosSectorSize) :=
    Nat.le_mul_of_pos_left _ mounted.consistent.copiesPos
  obtain ⟨volume', result, writes⟩ := @write_spec volume (volume.rootPos + slot * directoryItemSize)
    directoryItemSize (by omega) item.toBytes
  refine ⟨volume', result, writes.same, ?_, ?_, ?_⟩
  · exact fun c inRange => writes.fat_of_above (by omega) mounted.consistent.tableRoom inRange
  · intro s _
    by_cases here : s = slot
    · subst here
      rw [if_pos rfl]
      have stored : volume'.entry s = FatDirectoryItem.ofBytes item.toBytes := by
        unfold FatVolume.entry
        rw [writes.same.rootPos]
        exact ofBytes_congr writes.inside
      rw [stored, FatDirectoryItem.ofBytes_toBytes]
    · rw [if_neg here]
      refine entry_congr writes.same fun i inEntry => writes.outside _ ?_
      unfold directoryItemSize at *
      omega
  · exact fun c offset => writes.byteAt_of_below (by omega) c offset

/-! ## Clusters -/

theorem clusterPosition_of_ending {σ : Type} {volume : FatVolume σ}
    (ending : volume.rootDirectory.endingSectorPos = volume.header.dataSector) {cluster : Nat}
    (lower : 2 ≤ cluster) (offset : Nat) :
    volume.clusterPosition cluster + offset =
      ((volume.dataPos + (cluster - 2) * volume.header.clusterSize + offset : Nat) : Int) := by
  unfold FatVolume.clusterPosition FatVolume.dataPos FatHeader.clusterSize
  rw [ending]
  push_cast
  rw [Nat.cast_sub lower]
  push_cast
  ring

theorem clusterPosition_eq {volume : FatVolume} (mounted : Mounted volume) {cluster : Nat}
    (lower : 2 ≤ cluster) (offset : Nat) :
    volume.clusterPosition cluster + offset =
      ((volume.dataPos + (cluster - 2) * volume.header.clusterSize + offset : Nat) : Int) :=
  clusterPosition_of_ending mounted.endingSectorPos lower offset

/-- Bytes of different clusters are at different places. -/
theorem cluster_apart {size a b x y : Nat} (different : a ≠ b) (inA : x < size) (inB : y < size) :
    a * size + x ≠ b * size + y := by
  intro same
  refine different ?_
  have quotient := congrArg (· / size) same
  simpa [Nat.add_comm _ x, Nat.add_comm _ y, Nat.add_mul_div_right _ _ (show 0 < size by omega),
    Nat.div_eq_of_lt inA, Nat.div_eq_of_lt inB] using quotient

theorem writeData_spec {volume : FatVolume} (mounted : Mounted volume) {cluster offset total : Nat}
    (isCluster : volume.IsCluster cluster) (inside : offset + total ≤ volume.header.clusterSize)
    (buffer : Nat → UInt8) :
    ∃ volume', volume.write (volume.clusterPosition cluster + offset) total buffer = (0, volume') ∧
      DataWrite volume cluster offset total buffer volume' := by
  have onDisk := mounted.cluster_inside isCluster
  have afterTable := volume.rootPos_eq
  have afterRoot := volume.rootPos_le
  have copies : volume.header.sectorsPerFat * viosSectorSize ≤
      volume.header.fatCopies * (volume.header.sectorsPerFat * viosSectorSize) :=
    Nat.le_mul_of_pos_left _ mounted.consistent.copiesPos
  obtain ⟨volume', result, writes⟩ := @write_spec volume
    (volume.dataPos + (cluster - 2) * volume.header.clusterSize + offset) total (by omega) buffer
  rw [clusterPosition_eq mounted isCluster.1]
  refine ⟨volume', result, writes.same, ?_, ?_, ?_⟩
  · exact fun c inRange => writes.fat_of_above (by omega) mounted.consistent.tableRoom inRange
  · intro slot inRoot
    have before := volume.entry_inside inRoot
    exact entry_congr writes.same fun i inEntry => writes.outside _ (by omega)
  · intro c o otherCluster inCluster
    unfold FatVolume.byteAt
    rw [writes.same.dataPos, writes.same.header]
    by_cases here : c = cluster
    · subst here
      by_cases written : offset ≤ o ∧ o < offset + total
      · rw [if_pos ⟨rfl, written⟩]
        have stored := writes.inside (o - offset) (by omega)
        rwa [Nat.add_assoc, Nat.add_sub_cancel' written.1] at stored
      · rw [if_neg fun both => written both.2]
        exact writes.outside _ (by omega)
    · rw [if_neg fun both => here both.1]
      have lower := isCluster.1
      have lower' := otherCluster.1
      by_contra changed
      -- a byte that changed would be in both clusters
      have touched : ¬ (volume.dataPos + (c - 2) * volume.header.clusterSize + o <
          volume.dataPos + (cluster - 2) * volume.header.clusterSize + offset ∨
          volume.dataPos + (cluster - 2) * volume.header.clusterSize + offset + total ≤
            volume.dataPos + (c - 2) * volume.header.clusterSize + o) :=
        fun outside => changed (writes.outside _ outside)
      refine @cluster_apart volume.header.clusterSize (c - 2) (cluster - 2) o
        ((c - 2) * volume.header.clusterSize + o - (cluster - 2) * volume.header.clusterSize)
        (by omega) inCluster (by omega) (by omega)

end ViOS.Fs
