import ViOS.Disk.StreamFrame
import ViOS.Fs.Fat16Layout

/-! # The driver on the stream of `streamer.c`

The exact store is what `streamer.h` promises.  Here the driver's stream calls are those of
`streamer.c`: a write takes whole sectors, fills the rest of a sector it starts at the
first byte of from a local buffer that nothing has initialised, and goes on to the next
sector when it ends on a sector boundary.

What C leaves undefined, a position that is no `int` or a copy outside of the local buffer,
is a failure here; no position on a volume below 2^31 bytes leads there.

* `StreamedDisk` — the device behind the stream, and the local buffers of the writes to come.
* `StreamMounted` — the volumes.
* `SectorsKept`, `write_status`, `write_sectorsKept` — what a write of the driver returns and leaves alone.
* `readStream_congr`, `getFatEntry_congr` — what is read in front of the sectors that were touched.
-/

namespace ViOS.Fs

open ViOS.Storage

/-! ## The stream -/

/-- A disk behind its stream.  `garbage n` is what the local buffers of write `n` hold, one for each depth
of its recursion; `writes` is the number of the next write. -/
structure StreamedDisk where
  dev : Device
  disk : Disk
  garbage : Nat → Nat → Sector
  writes : Nat

namespace StreamedDisk

/-- `diskstreamer_seek` and `diskstreamer_read`: the status and the bytes that are stored. -/
def readStream (store : StreamedDisk) (pos : Int) (total : Nat) : Int × List UInt8 :=
  match diskstreamerRead store.dev (diskstreamerSeek ⟨0, store.disk⟩ pos) total with
  | none => (-eio, [])
  | some (res, bytes, _) => (res, bytes)

/-- `diskstreamer_seek` and `diskstreamer_write`: the status and the disk. -/
def writeStream (store : StreamedDisk) (pos : Int) (total : Nat) (buffer : Nat → UInt8) : Int × StreamedDisk :=
  match diskstreamerWrite (store.garbage store.writes) 0 store.dev (diskstreamerSeek ⟨0, store.disk⟩ pos)
      ((List.range total).map buffer) with
  | none => (-eio, { store with writes := store.writes + 1 })
  | some (res, dev, _) => (res, { store with dev, writes := store.writes + 1 })

end StreamedDisk

instance : ByteStream StreamedDisk where
  size _ := 2 ^ 31
  read store pos total :=
    let (res, bytes) := store.readStream pos total
    if res < 0 then none else some fun i => bytes.getD i 0
  readPart store pos total := (store.readStream pos total).2
  write := StreamedDisk.writeStream

/-! ## Volumes -/

/-- A volume on a stream, as the driver has mounted it. -/
structure StreamMounted (volume : FatVolume StreamedDisk) : Prop where
  consistent : volume.header.Consistent (2 ^ 31 - 1)
  endingSectorPos : volume.rootDirectory.endingSectorPos = volume.header.dataSector

namespace StreamMounted

variable {volume : FatVolume StreamedDisk} (mounted : StreamMounted volume)

include mounted

theorem clusterSize_pos : 0 < volume.header.clusterSize :=
  Nat.mul_pos mounted.consistent.clusterPos (by decide)

/-- The table has an entry of each cluster, in front of the clusters. -/
theorem entry_inside {cluster : Nat} (inTable : cluster < volume.header.clusterEnd) :
    volume.tablePos + cluster * fat16FatEntrySize + fat16FatEntrySize ≤ volume.dataPos := by
  have firstCopy : volume.tablePos + 0 * volume.header.tableSize + volume.header.tableSize ≤ volume.rootPos :=
    copy_inside_root mounted.consistent.copiesPos
  have entries : cluster * fat16FatEntrySize + fat16FatEntrySize ≤ volume.header.clusterEnd * fat16FatEntrySize := by
    rw [← Nat.succ_mul]
    exact Nat.mul_le_mul_right _ inTable
  have room := entries.trans mounted.consistent.tableRoom
  have root := volume.rootPos_le
  unfold FatHeader.tableSize at firstCopy
  omega

end StreamMounted

/-! ## What a write leaves alone -/

/-- The two volumes differ in the given sectors only. -/
structure SectorsKept (touched : Set Nat) (volume volume' : FatVolume StreamedDisk) : Prop where
  header : volume'.header = volume.header
  rootDirectory : volume'.rootDirectory = volume.rootDirectory
  disk : volume'.store.disk = volume.store.disk
  dev : WritesOnly volume.store.disk touched volume.store.dev volume'.store.dev

namespace SectorsKept

variable {touched touched' : Set Nat} {volume volume' volume'' : FatVolume StreamedDisk}

theorem refl : SectorsKept touched volume volume := ⟨rfl, rfl, rfl, .refl⟩

theorem trans (a : SectorsKept touched volume volume') (b : SectorsKept touched volume' volume'') :
    SectorsKept touched volume volume'' where
  header := b.header.trans a.header
  rootDirectory := b.rootDirectory.trans a.rootDirectory
  disk := b.disk.trans a.disk
  dev := a.dev.trans (a.disk ▸ b.dev)

theorem mono (kept : SectorsKept touched volume volume') (more : touched ⊆ touched') :
    SectorsKept touched' volume volume' := ⟨kept.header, kept.rootDirectory, kept.disk, kept.dev.mono more⟩

theorem mounted (kept : SectorsKept touched volume volume') (mounted : StreamMounted volume) :
    StreamMounted volume' where
  consistent := kept.header ▸ mounted.consistent
  endingSectorPos := by
    rw [kept.header, kept.rootDirectory]
    exact mounted.endingSectorPos

theorem isCluster (kept : SectorsKept touched volume volume') {cluster : Nat} :
    volume'.IsCluster cluster ↔ volume.IsCluster cluster := by
  unfold FatVolume.IsCluster
  rw [kept.header]

end SectorsKept

theorem write_status (volume : FatVolume StreamedDisk) (pos : Int) (total : Nat) (buffer : Nat → UInt8) :
    (volume.write pos total buffer).1 = 0 ∨ (volume.write pos total buffer).1 = -eio := by
  change (volume.store.writeStream pos total buffer).1 = 0 ∨ (volume.store.writeStream pos total buffer).1 = -eio
  unfold StreamedDisk.writeStream
  split
  · exact .inr rfl
  next res dev stream result => exact diskstreamerWrite_status _ _ _ _ _ result

/-- A write of the driver touches the sectors up to the first byte behind it only. -/
theorem write_sectorsKept (volume : FatVolume StreamedDisk) {pos : Nat} (posFits : pos < 2 ^ 31) (total : Nat)
    (buffer : Nat → UInt8) :
    SectorsKept (touchedSectors pos total) volume (volume.write (pos : Int) total buffer).2 := by
  change SectorsKept _ volume { volume with store := (volume.store.writeStream pos total buffer).2 }
  unfold StreamedDisk.writeStream
  split
  · exact ⟨rfl, rfl, rfl, .refl⟩
  next res dev stream result =>
    have writes := diskstreamerWrite_writesOnly _ volume.store.disk _ 0 volume.store.dev pos posFits result
    rw [List.length_map, List.length_range] at writes
    exact ⟨rfl, rfl, rfl, writes⟩

/-- A range in front of the sectors that were touched reads the same. -/
theorem readStream_congr {touched : Set Nat} {volume volume' : FatVolume StreamedDisk}
    (kept : SectorsKept touched volume volume') {pos total first : Nat} (posFits : pos < 2 ^ 31)
    (inFront : pos + total ≤ first * viosSectorSize)
    (behind : ∀ k ∈ touched, first ≤ k ∧ k < 2 ^ 28) :
    volume'.store.readStream pos total = volume.store.readStream pos total := by
  have same : diskstreamerRead volume'.store.dev ⟨pos, volume.store.disk⟩ total =
      diskstreamerRead volume.store.dev ⟨pos, volume.store.disk⟩ total := by
    refine diskstreamerRead_congr kept.dev.readError total pos posFits fun i inRange => kept.dev.sector _ ?_
    intro k member sameSector
    obtain ⟨lower, upper⟩ := behind k member
    have inData : (pos + i) / viosSectorSize < first := by
      rw [Nat.div_lt_iff_lt_mul (by decide)]
      omega
    rw [deviceLba_injective (by omega) upper sameSector] at inData
    omega
  unfold StreamedDisk.readStream diskstreamerSeek
  rw [kept.disk, same]

theorem read_of_readStream {store store' : StreamedDisk} {pos : Int} {total : Nat}
    (same : store'.readStream pos total = store.readStream pos total) :
    ByteStream.read store' pos total = ByteStream.read store pos total := by
  change (if (store'.readStream pos total).1 < 0 then none
      else some fun i => (store'.readStream pos total).2.getD i 0) =
    if (store.readStream pos total).1 < 0 then none else some fun i => (store.readStream pos total).2.getD i 0
  rw [same]

theorem getFatEntry_of_read {σ : Type} [ByteStream σ] {volume volume' : FatVolume σ} {cluster : Int}
    (same : ByteStream.read volume'.store (volume'.fatEntryPosition cluster) fat16FatEntrySize =
      ByteStream.read volume.store (volume.fatEntryPosition cluster) fat16FatEntrySize) :
    fat16GetFatEntry volume' cluster = fat16GetFatEntry volume cluster := by
  unfold fat16GetFatEntry
  rw [same]

/-- An entry in front of the clusters reads the same when sectors of the clusters were touched only. -/
theorem getFatEntry_congr {touched : Set Nat} {volume volume' : FatVolume StreamedDisk}
    (kept : SectorsKept touched volume volume') (mounted : StreamMounted volume)
    (behind : ∀ k ∈ touched, volume.header.dataSector ≤ k ∧ k < 2 ^ 28) {cluster : Nat}
    (inFront : volume.tablePos + cluster * fat16FatEntrySize + fat16FatEntrySize ≤ volume.dataPos) :
    fat16GetFatEntry volume' cluster = fat16GetFatEntry volume cluster := by
  have dataFits : volume.header.dataSector * viosSectorSize ≤ 2 ^ 31 - 1 :=
    (Nat.mul_le_mul_right _ mounted.consistent.regions).trans mounted.consistent.onDisk
  have tablePos : volume'.tablePos = volume.tablePos := by
    unfold FatVolume.tablePos
    rw [kept.header]
  refine getFatEntry_of_read ?_
  rw [fatEntryPosition_eq, fatEntryPosition_eq, tablePos]
  refine read_of_readStream (readStream_congr kept ?_ inFront behind)
  unfold FatVolume.dataPos at inFront
  omega

end ViOS.Fs
