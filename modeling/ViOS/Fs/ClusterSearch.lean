import ViOS.Fs.BootSector
import ViOS.Fs.ClusterWalk

/-! # Where the search for a free cluster ends

`fat16_find_free_cluster` looks at the clusters below the number of sectors of the volume
divided by the sectors of a cluster.  The clusters of the volume end elsewhere: the
reserved sectors, the table and the root directory come before them, and their numbers
begin at 2.

* `BootSector.InVolume` — the clusters whose entry and sectors are in the volume.
* `findFreeCluster_cases` — the search finds the lowest entry that is zero.
* `findsInVolume_iff` — when it finds the right clusters.
-/

namespace ViOS.Fs

/-! ## The clusters of the volume -/

/-- `fat16_cluster_to_sector`. -/
def FatVolume.clusterSector (volume : FatVolume) (cluster : Int) : Int :=
  volume.rootDirectory.endingSectorPos + (cluster - 2) * volume.header.sectorsPerCluster

namespace BootSector

variable (boot : BootSector)

/-- The entry of the cluster is in the first copy of the table, and its sectors are in the volume. -/
def InVolume (volume : FatVolume) (cluster : Nat) : Prop :=
  2 ≤ cluster ∧
    cluster * fat16FatEntrySize + fat16FatEntrySize ≤ boot.sectorsPerFat * boot.bytesPerSector ∧
    volume.clusterSector cluster + boot.sectorsPerCluster ≤ boot.totalSectors

/-- The entry of a cluster, where the format has it. -/
def tableEntry (store : ByteStore) (cluster : Nat) : Nat :=
  littleEndian (fun i => store.bytes (boot.fatByte 0 cluster + i)) 0 2

/-- The search ends at this cluster. -/
def searchEnd : Nat := boot.totalSectors / boot.sectorsPerCluster

/-- The clusters of the volume end at this one. -/
def volumeEnd : Nat :=
  min (boot.sectorsPerFat * boot.bytesPerSector / fat16FatEntrySize)
    ((boot.totalSectors - boot.toFatHeader.dataSector) / boot.sectorsPerCluster + 2)

/-- What the search is for: a cluster that is found is in the volume, and when none is found, all
clusters of the volume are in use. -/
structure FindsInVolume (volume : FatVolume) : Prop where
  found : ∀ cluster : Nat, fat16FindFreeCluster volume = cluster → boot.InVolume volume cluster
  full : fat16FindFreeCluster volume = -enomem →
    ∀ cluster, boot.InVolume volume cluster → boot.tableEntry volume.store cluster ≠ 0

/-- If the search has a free cluster to find, it has one in the volume; if it has none, the volume has
none. -/
structure SearchFits (volume : FatVolume) : Prop where
  found : (∃ cluster, 2 ≤ cluster ∧ cluster < boot.searchEnd ∧ volume.fat cluster = 0) →
    ∃ cluster, 2 ≤ cluster ∧ cluster < min boot.searchEnd boot.volumeEnd ∧ volume.fat cluster = 0
  full : (∀ cluster, 2 ≤ cluster → cluster < boot.searchEnd → volume.fat cluster ≠ 0) →
    ∀ cluster, 2 ≤ cluster → cluster < boot.volumeEnd → boot.tableEntry volume.store cluster ≠ 0

end BootSector

section Search

variable {volume : FatVolume} {boot : BootSector}

/-- The search finds the lowest entry that is zero. -/
theorem findFreeCluster_cases (onDisk : ∀ cluster < volume.header.totalClusters, volume.EntryOnDisk cluster) :
    (∃ cluster : Nat, fat16FindFreeCluster volume = cluster ∧ 2 ≤ cluster ∧
      cluster < volume.header.totalClusters ∧ volume.fat cluster = 0 ∧
      ∀ other, 2 ≤ other → other < volume.header.totalClusters → volume.fat other = 0 → cluster ≤ other) ∨
    (fat16FindFreeCluster volume = -enomem ∧
      ∀ cluster, 2 ≤ cluster → cluster < volume.header.totalClusters → volume.fat cluster ≠ 0) := by
  by_cases free : ∃ cluster, 2 ≤ cluster ∧ cluster < volume.header.totalClusters ∧ volume.fat cluster = 0
  · obtain ⟨known, lower, scanned, isFree⟩ := free
    obtain ⟨least, found, lower', upper, leastFree, below⟩ :=
      findFreeCluster_least lower scanned (onDisk known scanned) isFree
    apply Or.inl
    refine ⟨least, found, lower', Nat.lt_of_le_of_lt upper scanned, leastFree, ?_⟩
    intro other isLower inside zero
    exact below other isLower (onDisk other inside) zero
  · have used : ∀ cluster, 2 ≤ cluster → cluster < volume.header.totalClusters → volume.fat cluster ≠ 0 :=
      fun cluster lower upper zero => free ⟨cluster, lower, upper, zero⟩
    exact .inr ⟨findFreeCluster_none onDisk used, used⟩

/-- The number of sectors of a valid volume is an `int`. -/
theorem BootSector.Valid.totalClusters_eq (valid : boot.Valid) :
    boot.toFatHeader.totalClusters = boot.searchEnd := by
  obtain ⟨positive, atMost⟩ := valid.sectorsPerCluster_pos
  have tables := valid.tables_small
  have reserved := valid.reserved.2
  have root := valid.root.2
  have rootSectors : boot.rootSectors < 2 ^ 22 := by
    have bytes := valid.bytesPerSector_le
    apply Nat.lt_of_le_of_lt (Nat.div_le_self _ _)
    unfold directoryItemSize
    omega
  have rest : boot.totalSectors - boot.firstDataSector < (boot.clusterCount + 1) * boot.sectorsPerCluster := by
    have place := Nat.div_add_mod' (boot.totalSectors - boot.firstDataSector) boot.sectorsPerCluster
    have remainder := Nat.mod_lt (boot.totalSectors - boot.firstDataSector) positive
    rw [Nat.succ_mul]
    unfold BootSector.clusterCount
    omega
  have product := Nat.mul_le_mul (show boot.clusterCount + 1 ≤ 65525 by have := valid.clusters.2; omega) atMost
  unfold FatHeader.totalClusters BootSector.searchEnd
  apply if_pos
  unfold BootSector.firstDataSector at rest
  omega

/-- The entries the search looks at are on the disk, though not all in the first copy of the table. -/
theorem BootSector.Valid.searched_onDisk (valid : boot.Valid) (mountedAs : boot.MountedAs volume)
    (size : boot.totalSectors * boot.bytesPerSector ≤ volume.store.size) :
    ∀ cluster < volume.header.totalClusters, volume.EntryOnDisk cluster := by
  intro cluster searched
  rw [mountedAs.header, valid.totalClusters_eq] at searched
  have bytes := Nat.mul_le_mul_left boot.totalSectors valid.bytesPerSector_ge
  have reserved := valid.reserved.2
  have inside := valid.clusters_inside
  have few := valid.clusters.1
  have clusters := Nat.le_mul_of_pos_right boot.clusterCount valid.sectorsPerCluster_pos.1
  have below : cluster < boot.totalSectors := Nat.lt_of_lt_of_le searched (Nat.div_le_self _ _)
  have room : boot.reservedSectors + 4085 ≤ boot.totalSectors := by
    unfold BootSector.firstDataSector at inside
    omega
  unfold FatVolume.EntryOnDisk FatVolume.tablePos
  rw [mountedAs.header]
  have entries : boot.reservedSectors * viosSectorSize + cluster * fat16FatEntrySize + fat16FatEntrySize ≤
      boot.totalSectors * viosSectorSize := by
    unfold fat16FatEntrySize viosSectorSize
    omega
  exact Nat.le_trans entries (Nat.le_trans bytes size)

theorem inVolume_iff (valid : boot.Valid) (mountedAs : boot.MountedAs volume) {cluster : Nat} :
    boot.InVolume volume cluster ↔ 2 ≤ cluster ∧ cluster < boot.volumeEnd := by
  have positive := valid.sectorsPerCluster_pos.1
  obtain ⟨start, isStart⟩ : ∃ n, n = boot.toFatHeader.dataSector := ⟨_, rfl⟩
  have sectors : 2 ≤ cluster →
      (volume.clusterSector cluster + boot.sectorsPerCluster ≤ boot.totalSectors ↔
        cluster < (boot.totalSectors - start) / boot.sectorsPerCluster + 2) := by
    intro lower
    have shape : volume.clusterSector cluster + boot.sectorsPerCluster =
        ((start + (cluster - 2 + 1) * boot.sectorsPerCluster : Nat) : Int) := by
      unfold FatVolume.clusterSector
      rw [mountedAs.endingSectorPos, mountedAs.header, ← isStart, Nat.succ_mul]
      push_cast [Nat.cast_sub lower]
      ring
    have quotient : cluster - 2 + 1 ≤ (boot.totalSectors - start) / boot.sectorsPerCluster ↔
        (cluster - 2 + 1) * boot.sectorsPerCluster ≤ boot.totalSectors - start :=
      Nat.le_div_iff_mul_le positive
    have some : 0 < (cluster - 2 + 1) * boot.sectorsPerCluster := Nat.mul_pos (by omega) positive
    rw [shape, Int.ofNat_le]
    omega
  unfold BootSector.InVolume BootSector.volumeEnd
  rw [← isStart]
  unfold fat16FatEntrySize
  constructor
  · rintro ⟨lower, entry, inside⟩
    have below := (sectors lower).mp inside
    exact ⟨lower, by omega⟩
  · rintro ⟨lower, below⟩
    exact ⟨lower, by omega, (sectors lower).mpr (by omega)⟩

/-- The search is right exactly where its end makes no difference. -/
theorem findsInVolume_iff (valid : boot.Valid) (mountedAs : boot.MountedAs volume)
    (size : boot.totalSectors * boot.bytesPerSector ≤ volume.store.size) :
    boot.FindsInVolume volume ↔ boot.SearchFits volume := by
  have cases := findFreeCluster_cases (valid.searched_onDisk mountedAs size)
  rw [mountedAs.header, valid.totalClusters_eq] at cases
  cases cases with
  | inl some =>
    obtain ⟨least, result, lower, searched, zero, below⟩ := some
    constructor
    · intro finds
      have inVolume := (inVolume_iff valid mountedAs).mp (finds.found least result)
      refine ⟨fun _ => ⟨least, lower, by omega, zero⟩, fun none => absurd zero (none least lower searched)⟩
    · intro fits
      obtain ⟨known, knownLower, inside, knownZero⟩ := fits.found ⟨least, lower, searched, zero⟩
      -- The least free entry is no later than the one in the volume.
      have first := below known knownLower (by omega) knownZero
      refine ⟨fun cluster isFound => ?_, fun failed => ?_⟩
      · obtain rfl : least = cluster := Int.natCast_inj.mp (result.symm.trans isFound)
        exact (inVolume_iff valid mountedAs).mpr ⟨lower, by omega⟩
      · rw [result] at failed
        have negative : -enomem < 0 := by decide
        omega
  | inr none =>
    obtain ⟨result, allUsed⟩ := none
    constructor
    · intro finds
      refine ⟨?_, fun _ cluster lower upper => ?_⟩
      · rintro ⟨cluster, lower, searched, zero⟩
        exact absurd zero (allUsed cluster lower searched)
      · exact finds.full result cluster ((inVolume_iff valid mountedAs).mpr ⟨lower, upper⟩)
    · intro fits
      refine ⟨fun cluster isFound => ?_, fun _ cluster inVolume => ?_⟩
      · rw [result] at isFound
        have negative : -enomem < 0 := by decide
        omega
      · obtain ⟨lower, upper⟩ := (inVolume_iff valid mountedAs).mp inVolume
        exact fits.full allUsed cluster lower upper

end Search

/-! ## Volumes that are nearly full -/

/-- A disk whose table, behind one reserved sector, has its first entries in use and no others. -/
def usedStore (sectors used : Nat) : ByteStore where
  size := sectors * viosSectorSize
  bytes := fun pos =>
    if viosSectorSize ≤ pos ∧ pos < viosSectorSize + used * fat16FatEntrySize then 0xFF else 0

theorem usedStore_fat (boot : BootSector) (reserved : boot.reservedSectors = 1) (sectors used cluster : Nat) :
    (boot.volumeOn (usedStore sectors used)).fat cluster = if cluster < used then 0xFFFF else 0 := by
  have position : (boot.volumeOn (usedStore sectors used)).tablePos = viosSectorSize := by
    unfold FatVolume.tablePos BootSector.volumeOn
    rw [reserved, Nat.one_mul]
  have entry : ∀ i < 2, (usedStore sectors used).bytes (viosSectorSize + cluster * fat16FatEntrySize + i) =
      if cluster < used then 0xFF else 0 := by
    intro i inEntry
    unfold usedStore fat16FatEntrySize
    by_cases inUse : cluster < used
    · rw [if_pos inUse]
      exact if_pos (by omega)
    · rw [if_neg inUse]
      exact if_neg (by omega)
  have low := entry 0 (by decide)
  have high := entry 1 (by decide)
  unfold FatVolume.fat
  rw [littleEndian_two, position]
  change UInt8.toNat ((usedStore sectors used).bytes _) + 256 * UInt8.toNat ((usedStore sectors used).bytes _) = _
  rw [low, high]
  split <;> rfl

theorem smallBoot_finds : smallBoot.FindsInVolume (smallBoot.volumeOn (usedStore 4267 100)) := by
  have fat := usedStore_fat smallBoot rfl 4267 100
  have free : (smallBoot.volumeOn (usedStore 4267 100)).fat 100 = 0 := by
    rw [fat]
    rfl
  refine (findsInVolume_iff smallBoot_valid (smallBoot.volumeOn_mountedAs _) (by decide)).mpr ⟨fun _ => ?_, fun none => ?_⟩
  · exact ⟨100, by decide, by decide, free⟩
  · exact absurd free (none 100 (by decide) (by decide))

/-- A volume with few clusters of 64 KiB. -/
def coarseBoot : BootSector := ⟨⟨128, 1, 1, 512, 0, 16, 522929⟩, 512, 0x29⟩

theorem coarseBoot_valid : coarseBoot.Valid :=
  ⟨by decide, by decide, by decide, by decide, by decide, by decide, by decide, by decide, by decide, by decide⟩

/-- On the small volume the search goes on behind the last cluster, and on the coarse one it stops in
front of the last two. -/
theorem searchEnd_wrong :
    (fat16FindFreeCluster (smallBoot.volumeOn (usedStore 4267 4202)) = 4202 ∧
      (smallBoot.volumeOn (usedStore 4267 4202)).clusterSector 4202 = smallBoot.totalSectors ∧
      ¬ smallBoot.FindsInVolume (smallBoot.volumeOn (usedStore 4267 4202))) ∧
    fat16FindFreeCluster (coarseBoot.volumeOn (usedStore 522929 4085)) = -enomem ∧
      coarseBoot.InVolume (coarseBoot.volumeOn (usedStore 522929 4085)) 4085 ∧
      ¬ coarseBoot.FindsInVolume (coarseBoot.volumeOn (usedStore 522929 4085)) := by
  -- Every entry below the second argument is in use.
  have small := usedStore_fat smallBoot rfl 4267 4202
  have coarse := usedStore_fat coarseBoot rfl 522929 4085
  have behind : fat16FindFreeCluster (smallBoot.volumeOn (usedStore 4267 4202)) = 4202 := by
    have cases := findFreeCluster_cases
      (smallBoot_valid.searched_onDisk (smallBoot.volumeOn_mountedAs (usedStore 4267 4202)) (by decide))
    have free := small 4202
    rw [if_neg (by decide)] at free
    have searched : 4202 < (smallBoot.volumeOn (usedStore 4267 4202)).header.totalClusters := by decide
    rcases cases with ⟨least, result, lower, inside, zero, below⟩ | ⟨-, allUsed⟩
    · have upper := below 4202 (by decide) searched free
      rw [small least] at zero
      split at zero
      · exact absurd zero (by decide)
      · obtain rfl : least = 4202 := by omega
        exact result
    · exact absurd free (allUsed 4202 (by decide) searched)
  have full : fat16FindFreeCluster (coarseBoot.volumeOn (usedStore 522929 4085)) = -enomem := by
    have cases := findFreeCluster_cases
      (coarseBoot_valid.searched_onDisk (coarseBoot.volumeOn_mountedAs (usedStore 522929 4085)) (by decide))
    have ending : (coarseBoot.volumeOn (usedStore 522929 4085)).header.totalClusters = 4085 := by decide
    rcases cases with ⟨least, -, -, inside, zero, -⟩ | ⟨result, -⟩
    · rw [coarse least, if_pos (by omega)] at zero
      exact absurd zero (by decide)
    · exact result
  have inVolume : coarseBoot.InVolume (coarseBoot.volumeOn (usedStore 522929 4085)) 4085 :=
    ⟨by decide, by decide, by decide⟩
  refine ⟨⟨behind, by decide, fun finds => ?_⟩, full, inVolume, fun finds => ?_⟩
  · have inside := (finds.found 4202 behind).2.2
    exact absurd inside (by decide)
  · have used := finds.full full 4085 inVolume
    refine used ?_
    exact (coarse 4085).trans rfl

end ViOS.Fs
