import ViOS.Fs.ChainRead
import ViOS.Fs.StreamedDisk
import Mathlib.Data.List.Find

/-! # Writes that run out of clusters

`fat16_write` gives an empty file its first cluster, and `fat16_write_internal` lengthens the
chain while it writes.  When a cluster cannot be allocated, nothing of what was done before
is taken back, and the status of the first allocation is stored without a sign.  Before the
driver asks for another cluster it has filled one to its end, and there the stream goes on
to the sector behind it.

* `WriteEvent`, `fat16WriteEvents` — what a call writes, and what its allocations return.
* `FatVolume.fillClusters`, `FillsAndAsks` — the part of a write that goes to clusters of the file.
* `WriteFailsClean`, `writeFailsClean_iff` — the failures without traces.
* `findFree_withOwnData` — the data that is written does not change what the search finds.
-/

namespace ViOS.Fs

open ViOS.Lib ViOS.Storage

/-! ## What a call does -/

/-- A write of `fat16_write_internal`, of `fat16_set_fat_entry` or of `fat16_extend_file`, also one that fails,
or the result of `fat16_allocate_cluster`. -/
inductive WriteEvent
  | data (pos : Int) (total : Nat)
  | table (cluster : Int)
  | entry
  | allocation (res : Int)
  deriving DecidableEq

section Events

variable {σ : Type} [ByteStream σ]

/-- The events of `fat16_allocate_cluster`. -/
def allocateEvents (volume : FatVolume σ) (previousCluster : Int) : List WriteEvent :=
  let newCluster := fat16FindFreeCluster volume
  if newCluster < 0 then [.allocation newCluster]
  else
    let (res, volume) := fat16SetFatEntry volume newCluster 0xFFFF
    if res < 0 then [.table newCluster, .allocation res]
    else if 0 ≤ previousCluster then
      let (res, _) := fat16SetFatEntry volume previousCluster newCluster.toNat
      if res < 0 then [.table newCluster, .table previousCluster, .table newCluster, .allocation res]
      else [.table newCluster, .table previousCluster, .allocation newCluster]
    else [.table newCluster, .allocation newCluster]

/-- The events of the loop of `fat16_write_internal`. -/
def writeLoopEvents : (fuel : Nat) → (cluster : Int) → (offsetInCluster : Nat) → List UInt8 →
    FatVolume σ → List WriteEvent
  | 0, _, _, _, _ => []
  | fuel + 1, cluster, offsetInCluster, data, volume =>
    if data = [] then []
    else
      let clusterPosition := volume.clusterPosition cluster + offsetInCluster
      let toWrite := min (volume.header.clusterSize - offsetInCluster) data.length
      let (res, volume) := volume.write clusterPosition toWrite fun i => data.getD i 0
      .data clusterPosition toWrite ::
        if res < 0 then []
        else
          let data := data.drop toWrite
          if data = [] then []
          else
            let nextCluster := fat16GetFatEntry volume cluster
            if 0xFFF8 ≤ nextCluster then
              allocateEvents volume cluster ++
                let (nextCluster, volume) := fat16AllocateCluster volume cluster
                if nextCluster < 0 then [] else writeLoopEvents fuel nextCluster 0 data volume
            else writeLoopEvents fuel nextCluster 0 data volume

/-- The events of `fat16_write_internal`. -/
def writeInternalEvents (volume : FatVolume σ) (startingCluster : Int) (offset : Nat) (data : List UInt8) :
    List WriteEvent :=
  let cluster := fat16GetClusterForOffset volume startingCluster (asInt offset)
  if cluster < 0 then []
  else writeLoopEvents data.length cluster (offset % volume.header.clusterSize) data volume

/-- The bytes a request is for. -/
def requestBytes (data : List UInt8) (size nmemb : Nat) : List UInt8 :=
  bytesAt data (asInt (size * nmemb % 2 ^ 32)).toNat

/-- The events of `fat16_write` to a file that is not read-only. -/
def writeFileEvents (volume : FatVolume σ) (descriptor : FatFileDescriptor) (item : FatDirectoryItem)
    (data : List UInt8) (size nmemb : Nat) : List WriteEvent :=
  let data := requestBytes data size nmemb
  let start := if fat16GetFirstCluster item = 0 then allocateEvents volume (-1) else []
  let (startingCluster, item, volume) := writeStart volume item
  let res := (fat16WriteInternal volume (asInt startingCluster) descriptor.pos data).1
  start ++ writeInternalEvents volume (asInt startingCluster) descriptor.pos data ++
    if res < 0 then []
    else if item.filesize.toNat < (descriptor.pos + res.toNat) % 2 ^ 32 then [.entry] else []

/-- The events of `fat16_write`. -/
def fat16WriteEvents (state : FatState σ) (ptr : Ptr) (data : List UInt8) (size nmemb : Nat) : List WriteEvent :=
  match state.descriptors ptr with
  | none => []
  | some descriptor =>
    match descriptor.item.data with
    | .directory _ => []
    | .file item =>
      if item.attr &&& fatFileReadOnly ≠ 0 then []
      else writeFileEvents state.volume descriptor item data size nmemb

end Events

/-! ## The sectors of a file -/

namespace FatHeader

/-- The first sector of a cluster. -/
def clusterSector (header : FatHeader) (cluster : Nat) : Nat :=
  header.dataSector + (cluster - 2) * header.sectorsPerCluster

/-- The sector belongs to one of the clusters. -/
def InClusters (header : FatHeader) (l : List Nat) (k : Nat) : Prop :=
  ∃ cluster ∈ l, header.clusterSector cluster ≤ k ∧ k < header.clusterSector cluster + header.sectorsPerCluster

/-- The sectors of the clusters, and for each cluster the one behind it. -/
def filledSectors (header : FatHeader) (l : List Nat) : Set Nat :=
  {k | ∃ cluster ∈ l, header.clusterSector cluster ≤ k ∧ k ≤ header.clusterSector cluster + header.sectorsPerCluster}

end FatHeader

/-- The event is not a write, or it writes data, and to sectors of the clusters only. -/
def WriteEvent.Own (header : FatHeader) (l : List Nat) : WriteEvent → Prop
  | .data pos total => ∀ k : Nat, pos / viosSectorSize ≤ k → (k : Int) ≤ (pos + total) / viosSectorSize →
      header.InClusters l k
  | .table _ => False
  | .entry => False
  | .allocation _ => True

section Sectors

variable {header : FatHeader} {size : Nat} {l m : List Nat}

theorem clusterSector_mul (header : FatHeader) (cluster : Nat) :
    header.clusterSector cluster * viosSectorSize =
      header.dataSector * viosSectorSize + (cluster - 2) * header.clusterSize := by
  unfold FatHeader.clusterSector FatHeader.clusterSize
  rw [Nat.add_mul, Nat.mul_assoc]

theorem clusterSector_succ {cluster : Nat} (lower : 2 ≤ cluster) :
    header.clusterSector (cluster + 1) = header.clusterSector cluster + header.sectorsPerCluster := by
  unfold FatHeader.clusterSector
  rw [show cluster + 1 - 2 = cluster - 2 + 1 by omega, Nat.succ_mul, Nat.add_assoc]

/-- The first sector of a cluster is in no other one. -/
theorem clusterSector_inClusters_iff (clusterPos : 0 < header.sectorsPerCluster) (clusters : ∀ c ∈ l, 2 ≤ c)
    {cluster : Nat} (lower : 2 ≤ cluster) : header.InClusters l (header.clusterSector cluster) ↔ cluster ∈ l := by
  constructor
  · rintro ⟨c, member, above, below⟩
    have lowerC := clusters c member
    unfold FatHeader.clusterSector at above below
    have notAbove : c - 2 ≤ cluster - 2 := Nat.le_of_mul_le_mul_right (Nat.le_of_add_le_add_left above) clusterPos
    have notBelow : cluster - 2 < c - 2 + 1 := by
      rw [Nat.add_assoc, ← Nat.succ_mul] at below
      exact Nat.lt_of_mul_lt_mul_right (Nat.lt_of_add_lt_add_left below)
    rwa [show cluster = c by omega]
  · exact fun member => ⟨cluster, member, Nat.le_refl _, Nat.lt_add_of_pos_right clusterPos⟩

theorem filledSectors_mono (sublist : ∀ c ∈ l, c ∈ m) : header.filledSectors l ⊆ header.filledSectors m := by
  rintro k ⟨c, member, inside⟩
  exact ⟨c, sublist c member, inside⟩

/-- What is filled lies behind the table and the root directory, below 2^28 sectors. -/
theorem filledSectors_behind (consistent : header.Consistent (2 ^ 31 - 1))
    (clusters : ∀ c ∈ l, 2 ≤ c ∧ c < header.clusterEnd) :
    ∀ k ∈ header.filledSectors l, header.dataSector ≤ k ∧ k < 2 ^ 28 := by
  rintro k ⟨c, member, above, below⟩
  have inside := consistent.cluster_inside (clusters c member).1 (clusters c member).2
  rw [← clusterSector_mul] at inside
  have first : header.dataSector ≤ header.clusterSector c := Nat.le_add_right _ _
  unfold FatHeader.clusterSize viosSectorSize at inside
  omega

/-- When the cluster behind each one is among the clusters, nothing else is filled. -/
theorem inClusters_of_filled (clusters : ∀ c ∈ l, 2 ≤ c) (clusterPos : 0 < header.sectorsPerCluster)
    (sublist : ∀ c ∈ m, c ∈ l) (next : ∀ c ∈ m, c + 1 ∈ l) {k : Nat} (filled : k ∈ header.filledSectors m) :
    header.InClusters l k := by
  obtain ⟨c, member, above, below⟩ := filled
  by_cases atEnd : k = header.clusterSector c + header.sectorsPerCluster
  · refine ⟨c + 1, next c member, ?_⟩
    rw [atEnd, clusterSector_succ (clusters c (sublist c member))]
    exact ⟨Nat.le_refl _, Nat.lt_add_of_pos_right clusterPos⟩
  · exact ⟨c, sublist c member, above, by omega⟩

end Sectors

/-! ## Writing to clusters of the file -/

/-- The volume with the data in the given clusters, from an offset in the first one on. -/
def FatVolume.fillClusters {σ : Type} [ByteStream σ] (volume : FatVolume σ) :
    List Nat → (offset : Nat) → List UInt8 → FatVolume σ
  | [], _, _ => volume
  | cluster :: rest, offset, data =>
    let toWrite := min (volume.header.clusterSize - offset) data.length
    FatVolume.fillClusters
      (volume.write (volume.clusterPosition cluster + offset) toWrite fun i => data.getD i 0).2 rest 0
      (data.drop toWrite)

/-- The writes of data that fills the clusters. -/
def fillEvents (header : FatHeader) : List Nat → (offset : Nat) → List WriteEvent
  | [], _ => []
  | cluster :: rest, offset =>
    .data (header.clusterSector cluster * viosSectorSize + offset : Nat) (header.clusterSize - offset) ::
      fillEvents header rest 0

section Fill

variable {volume : FatVolume StreamedDisk}

theorem clusterPosition_sector (mounted : StreamMounted volume) {cluster : Nat} (lower : 2 ≤ cluster) (offset : Nat) :
    volume.clusterPosition cluster + offset =
      ((volume.header.clusterSector cluster * viosSectorSize + offset : Nat) : Int) := by
  rw [clusterPosition_of_ending mounted.endingSectorPos lower, clusterSector_mul]
  rfl

/-- A write to a cluster. -/
theorem writeCluster_kept (mounted : StreamMounted volume) {cluster offset total : Nat}
    (isCluster : volume.IsCluster cluster) (inside : offset + total ≤ volume.header.clusterSize)
    (buffer : Nat → UInt8) :
    SectorsKept (volume.header.filledSectors [cluster]) volume
      (volume.write (volume.clusterPosition cluster + offset) total buffer).2 := by
  have onDisk := mounted.consistent.cluster_inside isCluster.1 isCluster.2
  rw [← clusterSector_mul] at onDisk
  rw [clusterPosition_sector mounted isCluster.1]
  refine (write_sectorsKept volume (by omega) total buffer).mono ?_
  rintro k ⟨above, below⟩
  have size : volume.header.clusterSize = volume.header.sectorsPerCluster * viosSectorSize := rfl
  unfold viosSectorSize at *
  exact ⟨cluster, List.mem_cons_self, by omega, by omega⟩

/-- Filling clusters of a volume touches their sectors, and the ones behind them. -/
theorem fillClusters_kept {l : List Nat} :
    ∀ {volume : FatVolume StreamedDisk} {offset : Nat} {data : List UInt8}, StreamMounted volume →
      (∀ cluster ∈ l, volume.IsCluster cluster) → offset ≤ volume.header.clusterSize →
      SectorsKept (volume.header.filledSectors l) volume (volume.fillClusters l offset data) := by
  induction l with
  | nil => exact fun _ _ _ => .refl
  | cons cluster rest ih =>
    intro volume offset data mounted clusters inCluster
    have first := writeCluster_kept mounted (clusters cluster List.mem_cons_self)
      (show offset + min (volume.header.clusterSize - offset) data.length ≤ volume.header.clusterSize by omega)
      fun i => data.getD i 0
    have others := @ih _ 0 (data.drop (min (volume.header.clusterSize - offset) data.length))
      (first.mounted mounted) (fun c member => first.isCluster.mpr (clusters c (List.mem_cons_of_mem _ member)))
      (Nat.zero_le _)
    rw [first.header] at others
    rw [FatVolume.fillClusters]
    refine (first.mono ?_).trans (others.mono ?_)
    · exact filledSectors_mono fun c member => List.mem_singleton.mp member ▸ List.mem_cons_self
    · exact filledSectors_mono fun c member => List.mem_cons_of_mem _ member

end Fill

/-! ## Allocations -/

section Allocate

variable {volume : FatVolume StreamedDisk}

/-- Without a free cluster nothing is written. -/
theorem allocate_none (noFree : fat16FindFreeCluster volume < 0) (previous : Int) :
    fat16AllocateCluster volume previous = (fat16FindFreeCluster volume, volume) ∧
      allocateEvents volume previous = [.allocation (fat16FindFreeCluster volume)] := by
  unfold fat16AllocateCluster allocateEvents
  exact ⟨if_pos noFree, if_pos noFree⟩

/-- A cluster that is found is marked in the table. -/
theorem table_mem_allocateEvents (found : 0 ≤ fat16FindFreeCluster volume) (previous : Int) :
    .table (fat16FindFreeCluster volume) ∈ allocateEvents volume previous := by
  unfold allocateEvents
  rw [if_neg (by omega)]
  split
  split
  · exact List.mem_cons_self
  · split
    · split
      split
      · exact List.mem_cons_self
      · exact List.mem_cons_self
    · exact List.mem_cons_self

theorem setFatCopies_status (pos : Int) (value rest : Nat) :
    ∀ (i : Nat) (volume : FatVolume StreamedDisk), (setFatCopies pos value rest i 0 volume).1 = 0 ∨
      (setFatCopies pos value rest i 0 volume).1 = -eio := by
  induction rest with
  | zero => exact fun _ _ => .inl rfl
  | succ rest ih =>
    intro i volume
    have status := write_status volume (pos + i * volume.header.sectorsPerFat * viosSectorSize)
      fat16FatEntrySize (byteOf value)
    rw [setFatCopies]
    cases written : volume.write (pos + i * volume.header.sectorsPerFat * viosSectorSize)
        fat16FatEntrySize (byteOf value) with
    | mk res stored =>
      rw [written] at status
      cases status with
      | inl isOk =>
        obtain rfl : res = 0 := isOk
        exact ih (i + 1) stored
      | inr failed =>
        obtain rfl : res = -eio := failed
        exact .inr rfl

theorem setFatEntry_status (volume : FatVolume StreamedDisk) (cluster : Int) (value : Nat) :
    (fat16SetFatEntry volume cluster value).1 = 0 ∨ (fat16SetFatEntry volume cluster value).1 = -eio := by
  have status := write_status volume (volume.fatEntryPosition cluster) fat16FatEntrySize (byteOf value)
  unfold fat16SetFatEntry
  cases written : volume.write (volume.fatEntryPosition cluster) fat16FatEntrySize (byteOf value) with
  | mk res stored =>
    rw [written] at status
    simp only [written]
    cases status with
    | inl isOk =>
      obtain rfl : res = 0 := isOk
      exact setFatCopies_status _ _ _ _ _
    | inr failed =>
      obtain rfl : res = -eio := failed
      exact .inr rfl

theorem findFree_status (volume : FatVolume StreamedDisk) :
    fat16FindFreeCluster volume = -enomem ∨
      2 ≤ fat16FindFreeCluster volume ∧ fat16FindFreeCluster volume < 2 ^ 31 := by
  unfold fat16FindFreeCluster
  split
  · rename_i cluster found
    have inRange := List.mem_range'_1.mp (List.mem_of_find?_eq_some found)
    have bound : volume.header.totalClusters < 2 ^ 31 := by
      unfold FatHeader.totalClusters
      split
      · rename_i small
        exact Nat.lt_of_le_of_lt (Nat.div_le_self _ _) small
      · decide
    exact .inr ⟨by omega, by omega⟩
  · exact .inl rfl

/-- No result of an allocation is a zero, as an `uint32_t`. -/
theorem allocate_status (volume : FatVolume StreamedDisk) (previous : Int) :
    (fat16AllocateCluster volume previous).1 % 2 ^ 32 ≠ 0 := by
  have found := findFree_status volume
  have foundNotZero : fat16FindFreeCluster volume % 2 ^ 32 ≠ 0 := by
    unfold enomem at found
    omega
  have marked := setFatEntry_status volume (fat16FindFreeCluster volume) 0xFFFF
  unfold fat16AllocateCluster
  by_cases noFree : fat16FindFreeCluster volume < 0
  · simp only [noFree, if_true]
    exact foundNotZero
  · have linked := setFatEntry_status (fat16SetFatEntry volume (fat16FindFreeCluster volume) 0xFFFF).2 previous
      (fat16FindFreeCluster volume).toNat
    unfold eio at marked linked
    simp only [noFree, if_false]
    split
    · change (fat16SetFatEntry volume (fat16FindFreeCluster volume) 0xFFFF).1 % 2 ^ 32 ≠ 0
      omega
    · split
      · split
        · change (fat16SetFatEntry (fat16SetFatEntry volume (fat16FindFreeCluster volume) 0xFFFF).2 previous
            (fat16FindFreeCluster volume).toNat).1 % 2 ^ 32 ≠ 0
          omega
        · exact foundNotZero
      · exact foundNotZero

end Allocate

/-! ## The chain of a file -/

/-- What the driver reads of the table. -/
def FatVolume.readEntry {σ : Type} [ByteStream σ] (volume : FatVolume σ) (cluster : Nat) : Nat :=
  (fat16GetFatEntry volume cluster).toNat

/-- The clusters of a file with the given first cluster, as the driver reads them. -/
structure ReadChain (volume : FatVolume StreamedDisk) (head : Nat) (l : List Nat) : Prop where
  head : l.headD 0 = head
  links : Chain volume.readEntry IsEoc l
  clusters : ∀ cluster ∈ l, volume.IsCluster cluster

section Chain

variable {volume : FatVolume StreamedDisk} {l : List Nat}

theorem getFatEntry_cases {σ : Type} [ByteStream σ] (volume : FatVolume σ) (cluster : Int) :
    fat16GetFatEntry volume cluster = -eio ∨
      0 ≤ fat16GetFatEntry volume cluster ∧ fat16GetFatEntry volume cluster < 2 ^ 16 := by
  unfold fat16GetFatEntry
  split
  · exact .inl rfl
  next buffer _ =>
    have low := (buffer 0).toNat_lt
    have high := (buffer (0 + 1)).toNat_lt
    rw [littleEndian_two]
    exact .inr ⟨by omega, by omega⟩

/-- Entries of a chain are not zero, so they were read. -/
theorem getFatEntry_chain (chain : Chain volume.readEntry IsEoc l) (clusters : ∀ c ∈ l, volume.IsCluster c)
    {cluster : Nat} (member : cluster ∈ l) :
    fat16GetFatEntry volume cluster = (volume.readEntry cluster : Nat) ∧ volume.readEntry cluster < 2 ^ 16 := by
  have positive : 0 < volume.readEntry cluster := by
    rcases chain.next_mem member with isNext | isEnd
    · exact Nat.lt_of_lt_of_le (by decide) (clusters _ isNext).1
    · exact Nat.lt_of_lt_of_le (by decide) isEnd
  unfold FatVolume.readEntry at *
  rcases getFatEntry_cases volume cluster with failed | ⟨lower, upper⟩
  · rw [failed] at positive
    exact absurd positive (by decide)
  · omega

theorem ReadChain.length_pos {head : Nat} (chain : ReadChain volume head l) (notZero : head ≠ 0) : 0 < l.length := by
  cases l with
  | nil => exact absurd chain.head.symm notZero
  | cons first rest => exact Nat.succ_pos _

theorem ReadChain.getElem_zero {head : Nat} (chain : ReadChain volume head l) (notEmpty : 0 < l.length) :
    l[0] = head := by
  cases l with
  | nil => exact absurd notEmpty (by simp)
  | cons first rest => exact chain.head

theorem ReadChain.head_lt {head : Nat} (chain : ReadChain volume head l) (mounted : StreamMounted volume)
    (notZero : head ≠ 0) : head < 65526 := by
  have notEmpty := chain.length_pos notZero
  have isCluster := chain.clusters _ (List.getElem_mem notEmpty)
  rw [chain.getElem_zero notEmpty] at isCluster
  exact Nat.lt_of_lt_of_le isCluster.2 mounted.consistent.fat16

/-- Filling clusters leaves the table as it was. -/
theorem readEntry_kept {volume' : FatVolume StreamedDisk} {m : List Nat} (mounted : StreamMounted volume)
    (kept : SectorsKept (volume.header.filledSectors m) volume volume') (clusters : ∀ c ∈ m, volume.IsCluster c)
    {cluster : Nat} (inTable : cluster < volume.header.clusterEnd) :
    fat16GetFatEntry volume' cluster = fat16GetFatEntry volume cluster :=
  getFatEntry_congr kept mounted (filledSectors_behind mounted.consistent clusters) (mounted.entry_inside inTable)

end Chain

/-! ## The loop -/

/-- The loop from the first cluster of the list on, when it comes to an allocation: it fills the list, and
asks for a cluster behind the last one. -/
structure FillsAndAsks (volume : FatVolume StreamedDisk) (l : List Nat) (fuel offset written : Nat)
    (data : List UInt8) : Prop where
  events : ∃ later, writeLoopEvents fuel (l.headD 0 : Nat) offset data volume =
      fillEvents volume.header l offset ++
        (allocateEvents (volume.fillClusters l offset data) (l.getLastD 0 : Nat) ++ later) ∧
    (fat16FindFreeCluster (volume.fillClusters l offset data) < 0 → later = [])
  stops : fat16FindFreeCluster (volume.fillClusters l offset data) < 0 →
    writeLoop fuel (l.headD 0 : Nat) offset written data volume =
      (fat16FindFreeCluster (volume.fillClusters l offset data), volume.fillClusters l offset data)

/-- A turn that fills its cluster, with data left over. -/
structure WriteTurn (volume : FatVolume StreamedDisk) (cluster offset : Nat) (data : List UInt8)
    (stored : FatVolume StreamedDisk) : Prop where
  notEmpty : data ≠ []
  isMin : volume.header.clusterSize - offset = min (volume.header.clusterSize - offset) data.length
  more : data.drop (volume.header.clusterSize - offset) ≠ []
  result : volume.write (volume.clusterPosition cluster + offset) (volume.header.clusterSize - offset)
    (fun i => data.getD i 0) = (0, stored)

/-- A turn behind which a cluster is allocated has filled its own one. -/
theorem writeTurn_of_allocation {volume : FatVolume StreamedDisk} {fuel cluster offset : Nat} {data : List UInt8}
    {code : Int} (inCluster : offset < volume.header.clusterSize)
    (allocation : .allocation code ∈ writeLoopEvents (fuel + 1) cluster offset data volume) :
    ∃ stored, WriteTurn volume cluster offset data stored := by
  rw [writeLoopEvents] at allocation
  split at allocation
  · exact absurd allocation List.not_mem_nil
  next notEmpty =>
    have status := write_status volume (volume.clusterPosition cluster + offset)
      (min (volume.header.clusterSize - offset) data.length) fun i => data.getD i 0
    cases written : volume.write (volume.clusterPosition cluster + offset)
        (min (volume.header.clusterSize - offset) data.length) (fun i => data.getD i 0) with
    | mk res stored =>
      rw [written] at status
      simp only [written] at allocation
      have inRest := (List.mem_cons.mp allocation).resolve_left (by simp)
      split at inRest
      · exact absurd inRest List.not_mem_nil
      next succeeds =>
        split at inRest
        · exact absurd inRest List.not_mem_nil
        next more =>
          have isOk : res = 0 := status.resolve_right fun failed => succeeds (failed.trans_lt (by decide))
          have left := List.length_pos_iff.mpr more
          rw [List.length_drop] at left
          have isMin : volume.header.clusterSize - offset =
              min (volume.header.clusterSize - offset) data.length := by omega
          rw [← isMin, isOk] at written
          rw [← isMin] at more
          exact ⟨stored, notEmpty, isMin, more, written⟩

namespace WriteTurn

variable {volume stored : FatVolume StreamedDisk} {cluster next offset written fuel : Nat} {data : List UInt8}
  {rest : List Nat}

theorem events (turn : WriteTurn volume cluster offset data stored) (mounted : StreamMounted volume)
    (lower : 2 ≤ cluster) (fuel : Nat) :
    writeLoopEvents (fuel + 1) cluster offset data volume =
      .data (volume.header.clusterSector cluster * viosSectorSize + offset : Nat)
          (volume.header.clusterSize - offset) ::
        if 0xFFF8 ≤ fat16GetFatEntry stored cluster then
          allocateEvents stored cluster ++
            if (fat16AllocateCluster stored cluster).1 < 0 then []
            else writeLoopEvents fuel (fat16AllocateCluster stored cluster).1 0
              (data.drop (volume.header.clusterSize - offset)) (fat16AllocateCluster stored cluster).2
        else writeLoopEvents fuel (fat16GetFatEntry stored cluster) 0
          (data.drop (volume.header.clusterSize - offset)) stored := by
  rw [writeLoopEvents, if_neg turn.notEmpty]
  simp only [← turn.isMin, turn.result, lt_irrefl, if_false, turn.more]
  rw [clusterPosition_sector mounted lower]

theorem fill (turn : WriteTurn volume cluster offset data stored) :
    volume.fillClusters (cluster :: rest) offset data =
      stored.fillClusters rest 0 (data.drop (volume.header.clusterSize - offset)) := by
  rw [FatVolume.fillClusters, ← turn.isMin, turn.result]

theorem kept (turn : WriteTurn volume cluster offset data stored) (mounted : StreamMounted volume)
    (isCluster : volume.IsCluster cluster) (inCluster : offset < volume.header.clusterSize) :
    SectorsKept (volume.header.filledSectors [cluster]) volume stored := by
  have kept := writeCluster_kept mounted isCluster
    (show offset + (volume.header.clusterSize - offset) ≤ volume.header.clusterSize by omega) fun i => data.getD i 0
  rwa [turn.result] at kept

/-- The chain ends here. -/
theorem fillsAndAsks_last (turn : WriteTurn volume cluster offset data stored) (mounted : StreamMounted volume)
    (lower : 2 ≤ cluster) (isEnd : 0xFFF8 ≤ fat16GetFatEntry stored cluster) :
    FillsAndAsks volume [cluster] (fuel + 1) offset written data := by
  have fill : volume.fillClusters [cluster] offset data = stored := turn.fill
  have events := turn.events mounted lower fuel
  rw [if_pos isEnd] at events
  constructor
  · rw [fill, List.headD_cons, events]
    refine ⟨_, rfl, fun noFree => if_pos ?_⟩
    rw [(allocate_none noFree cluster).1]
    exact noFree
  · rw [fill]
    intro noFree
    have allocated := (allocate_none noFree cluster).1
    rw [List.headD_cons, writeLoop_turn turn.more turn.isMin turn.result, if_pos isEnd, allocated, if_pos noFree]

/-- The data goes on in the next cluster of the chain. -/
theorem fillsAndAsks_next (turn : WriteTurn volume cluster offset data stored) (mounted : StreamMounted volume)
    (lower : 2 ≤ cluster) (header : stored.header = volume.header)
    (isNext : fat16GetFatEntry stored cluster = (next : Nat)) (notEnd : next < 0xFFF8)
    (others : FillsAndAsks stored (next :: rest) fuel 0 (written + (volume.header.clusterSize - offset))
      (data.drop (volume.header.clusterSize - offset))) :
    FillsAndAsks volume (cluster :: next :: rest) (fuel + 1) offset written data := by
  have events := turn.events mounted lower fuel
  have goesOn : ¬ (0xFFF8 : Int) ≤ (next : Nat) := by omega
  rw [isNext, if_neg goesOn] at events
  obtain ⟨⟨later, restEvents, noLater⟩, stops⟩ := others
  rw [header] at restEvents
  constructor
  · rw [turn.fill, List.headD_cons, events]
    rw [List.headD_cons] at restEvents
    exact ⟨later, by rw [restEvents]; rfl, noLater⟩
  · rw [turn.fill]
    intro noFree
    rw [List.headD_cons, writeLoop_turn turn.more turn.isMin turn.result, isNext, if_neg goesOn]
    exact stops noFree

end WriteTurn

/-- The loop along the chain of a file: only data that does not fit comes to an allocation. -/
theorem writeLoop_fillsAndAsks {l : List Nat} :
    ∀ {volume : FatVolume StreamedDisk} {fuel offset written : Nat} {data : List UInt8} {code : Int},
      StreamMounted volume → (∀ c ∈ l, volume.IsCluster c) → Chain volume.readEntry IsEoc l → l ≠ [] →
      offset < volume.header.clusterSize →
      .allocation code ∈ writeLoopEvents fuel (l.headD 0 : Nat) offset data volume →
      FillsAndAsks volume l fuel offset written data := by
  induction l with
  | nil => exact fun _ _ _ notEmpty => absurd rfl notEmpty
  | cons cluster rest ih =>
    intro volume fuel offset written data code mounted clusters chain _ inCluster allocation
    have isCluster := clusters cluster List.mem_cons_self
    obtain ⟨fuel, rfl⟩ : ∃ f, fuel = f + 1 := by
      cases fuel with
      | zero => exact absurd allocation List.not_mem_nil
      | succ fuel => exact ⟨fuel, rfl⟩
    rw [List.headD_cons] at allocation
    obtain ⟨stored, turn⟩ := writeTurn_of_allocation inCluster allocation
    have kept := turn.kept mounted isCluster inCluster
    have single : ∀ c ∈ [cluster], volume.IsCluster c := fun c member => List.mem_singleton.mp member ▸ isCluster
    have entry : fat16GetFatEntry stored cluster = (volume.readEntry cluster : Nat) :=
      (readEntry_kept mounted kept single isCluster.2).trans (getFatEntry_chain chain clusters List.mem_cons_self).1
    cases rest with
    | nil =>
      have isEnd : 0xFFF8 ≤ volume.readEntry cluster := chain
      exact turn.fillsAndAsks_last mounted isCluster.1 (by omega)
    | cons next rest =>
      have isNext := clusters next (List.mem_cons_of_mem _ List.mem_cons_self)
      have small := Nat.lt_of_lt_of_le isNext.2 mounted.consistent.fat16
      rw [chain.1] at entry
      have storedMounted := kept.mounted mounted
      -- the other clusters are linked as they were
      have storedClusters : ∀ c ∈ next :: rest, stored.IsCluster c := fun c member =>
        kept.isCluster.mpr (clusters c (List.mem_cons_of_mem _ member))
      have storedChain : Chain stored.readEntry IsEoc (next :: rest) := chain.2.congr fun c member =>
        congrArg Int.toNat
          (readEntry_kept mounted kept single (clusters c (List.mem_cons_of_mem _ member)).2)
      have later : .allocation code ∈ writeLoopEvents fuel (next : Nat) 0
          (data.drop (volume.header.clusterSize - offset)) stored := by
        have goesOn : ¬ (0xFFF8 : Int) ≤ (next : Nat) := by omega
        rw [turn.events mounted isCluster.1, entry, if_neg goesOn] at allocation
        exact (List.mem_cons.mp allocation).resolve_left (by simp)
      exact turn.fillsAndAsks_next mounted isCluster.1 kept.header entry (by omega)
        (ih storedMounted storedClusters storedChain (List.cons_ne_nil _ _) storedMounted.clusterSize_pos later)

/-! ## The call -/

/-- The volume with the part of the data that fits into the clusters of a file, from its position on. -/
def FatVolume.withOwnData {σ : Type} [ByteStream σ] (volume : FatVolume σ) (l : List Nat) (pos : Nat)
    (data : List UInt8) : FatVolume σ :=
  volume.fillClusters (l.drop ((asInt pos).toNat / volume.header.clusterSize)) (pos % volume.header.clusterSize)
    data

/-- What a failed write should leave behind: a negative status, the entry and the position as they were, the
free clusters free, and no sector written outside the clusters of the file. -/
structure WriteFailsClean (state : FatState StreamedDisk) (ptr : Ptr) (descriptor : FatFileDescriptor)
    (item : FatDirectoryItem) (l : List Nat) (data : List UInt8) (size nmemb : Nat) : Prop where
  negative : ∃ res < 0, (fat16Write state ptr data size nmemb).1 = some res
  kept : ∃ descriptor' item', (fat16Write state ptr data size nmemb).2.descriptors ptr = some descriptor' ∧
    descriptor'.item.data = .file item' ∧ descriptor'.pos = descriptor.pos ∧
    fat16GetFirstCluster item' = fat16GetFirstCluster item ∧ item'.filesize = item.filesize
  free : ∀ c, state.volume.IsCluster c → fat16GetFatEntry state.volume c = 0 →
    fat16GetFatEntry (fat16Write state ptr data size nmemb).2.volume c = 0
  own : ∀ event ∈ fat16WriteEvents state ptr data size nmemb, event.Own state.volume.header l
  outside : ∀ n, (∀ k, state.volume.header.InClusters l k → n ≠ deviceLba state.volume.store.disk k) →
    (fat16Write state ptr data size nmemb).2.volume.store.dev.sector n = state.volume.store.dev.sector n

section Call

variable {volume : FatVolume StreamedDisk} {item : FatDirectoryItem} {l : List Nat} {pos : Nat} {data : List UInt8}

theorem extendFile_first (volume : FatVolume StreamedDisk) (fatItem : FatItem) (item : FatDirectoryItem)
    (newSize : Nat) :
    fat16GetFirstCluster (fat16ExtendFile volume fatItem item newSize).1 = fat16GetFirstCluster item := by
  unfold fat16ExtendFile
  split
  · rfl
  · rfl

/-- The entry that is written through has its first cluster from the start of the call. -/
theorem writeFileItem_first (volume : FatVolume StreamedDisk) (descriptor : FatFileDescriptor)
    (item : FatDirectoryItem) (data : List UInt8) (size nmemb : Nat) :
    ∃ item', (writeFileItem volume descriptor item data size nmemb).2.1.item.data = .file item' ∧
      fat16GetFirstCluster item' = fat16GetFirstCluster (writeStart volume item).2.1 := by
  rcases start : writeStart volume item with ⟨cluster, entry, started⟩
  rcases internal : fat16WriteInternal started (asInt cluster) descriptor.pos
    (bytesAt data (asInt (size * nmemb % 2 ^ 32)).toNat) with ⟨res, stored⟩
  rw [writeFileItem_eq start internal]
  split
  · exact ⟨entry, rfl, rfl⟩
  · exact ⟨_, rfl, extendFile_first _ _ _ _⟩

/-- An empty file has another first cluster afterwards. -/
theorem writeStart_first (empty : fat16GetFirstCluster item = 0) :
    fat16GetFirstCluster (writeStart volume item).2.1 ≠ 0 := by
  have status := allocate_status volume (-1)
  unfold writeStart
  simp only [empty, if_true]
  rw [firstCluster_withFirstCluster (by omega)]
  omega

/-- The lookup of the position: it fails, or the write begins in a cluster of the file. -/
theorem writeInternal_cases (mounted : StreamMounted volume) {first : Nat} (chain : ReadChain volume first l)
    (notZero : first ≠ 0) (pos : Nat) (data : List UInt8) :
    (writeInternalEvents volume first pos data = []) ∨
      ∃ suffix, suffix ≠ [] ∧ l.drop ((asInt pos).toNat / volume.header.clusterSize) = suffix ∧
        writeInternalEvents volume first pos data = writeLoopEvents data.length (suffix.headD 0 : Nat)
          (pos % volume.header.clusterSize) data volume ∧
        fat16WriteInternal volume first pos data = writeLoop data.length (suffix.headD 0 : Nat)
          (pos % volume.header.clusterSize) 0 data volume := by
  have notEmpty := chain.length_pos notZero
  have small := chain.head_lt mounted notZero
  have reads : ∀ c ∈ l, toUInt16 (fat16GetFatEntry volume c) = volume.readEntry c := by
    intro c member
    obtain ⟨entry, fits⟩ := getFatEntry_chain chain.links chain.clusters member
    rw [entry, toUInt16_eq fits]
  have lookup : fat16GetClusterForOffset volume first (asInt pos) =
      clusterWalk volume ((asInt pos).toNat / volume.header.clusterSize) l[0] := by
    rw [chain.getElem_zero notEmpty, fat16GetClusterForOffset, toUInt16_eq (by omega)]
  unfold writeInternalEvents fat16WriteInternal
  rw [lookup]
  rcases clusterWalk_onChain chain.links reads ((asInt pos).toNat / volume.header.clusterSize) notEmpty with
    failed | ⟨reached, found⟩
  · exact .inl (if_pos failed)
  · rw [Nat.zero_add] at reached
    simp only [Nat.zero_add] at found
    have split := List.drop_eq_getElem_cons reached
    have notNegative : ¬ ((l[(asInt pos).toNat / volume.header.clusterSize] : Nat) : Int) < 0 := by omega
    refine .inr ⟨_, List.cons_ne_nil _ _, split, ?_, ?_⟩
    · rw [found]
      exact if_neg notNegative
    · rw [found]
      exact if_neg notNegative

theorem writeStart_started (notZero : fat16GetFirstCluster item ≠ 0) :
    writeStart volume item = (fat16GetFirstCluster item, item, volume) := by
  unfold writeStart
  exact if_neg notZero

/-- The events of a write to a file with a first cluster. -/
theorem writeFileEvents_started (notZero : fat16GetFirstCluster item ≠ 0)
    (descriptor : FatFileDescriptor) (data : List UInt8) (size nmemb : Nat) :
    ∃ ending, writeFileEvents volume descriptor item data size nmemb =
        writeInternalEvents volume (asInt (fat16GetFirstCluster item)) descriptor.pos
          (requestBytes data size nmemb) ++ ending ∧
      (∀ event ∈ ending, event = .entry) ∧
      ((fat16WriteInternal volume (asInt (fat16GetFirstCluster item)) descriptor.pos
        (requestBytes data size nmemb)).1 < 0 → ending = []) := by
  rw [writeFileEvents, writeStart_started notZero, if_neg notZero]
  refine ⟨_, rfl, fun event member => ?_, fun failed => if_pos failed⟩
  split at member
  · exact absurd member List.not_mem_nil
  · split at member
    · exact List.mem_singleton.mp member
    · exact absurd member List.not_mem_nil

/-- A write whose loop fails. -/
theorem writeFileItem_failed (notZero : fat16GetFirstCluster item ≠ 0) (descriptor : FatFileDescriptor)
    {data : List UInt8} {size nmemb : Nat} {res : Int} {stored : FatVolume StreamedDisk} (failed : res < 0)
    (internal : fat16WriteInternal volume (asInt (fat16GetFirstCluster item)) descriptor.pos
      (requestBytes data size nmemb) = (res, stored)) :
    writeFileItem volume descriptor item data size nmemb =
      (res, { descriptor with item := { descriptor.item with data := .file item } }, stored) := by
  rw [writeFileItem_eq (writeStart_started notZero) internal, if_pos failed]

/-- What a call does that needs another cluster: it fills those of the file behind its position, and then
asks for one, or ends when there is none. -/
structure AsksAtEnd (volume : FatVolume StreamedDisk) (descriptor : FatFileDescriptor) (item : FatDirectoryItem)
    (suffix : List Nat) (data : List UInt8) (size nmemb : Nat) (full : FatVolume StreamedDisk) : Prop where
  events : ∃ later, writeFileEvents volume descriptor item data size nmemb =
      fillEvents volume.header suffix (descriptor.pos % volume.header.clusterSize) ++
        (allocateEvents full (suffix.getLastD 0 : Nat) ++ later) ∧
    (fat16FindFreeCluster full < 0 → later = [])
  stops : fat16FindFreeCluster full < 0 → writeFileItem volume descriptor item data size nmemb =
    (fat16FindFreeCluster full, { descriptor with item := { descriptor.item with data := .file item } }, full)

theorem asksAtEnd (mounted : StreamMounted volume) (chain : ReadChain volume (fat16GetFirstCluster item) l)
    (notZero : fat16GetFirstCluster item ≠ 0) {descriptor : FatFileDescriptor} {size nmemb : Nat} {code : Int}
    (allocation : .allocation code ∈ writeFileEvents volume descriptor item data size nmemb) :
    AsksAtEnd volume descriptor item (l.drop ((asInt descriptor.pos).toNat / volume.header.clusterSize)) data
      size nmemb (volume.withOwnData l descriptor.pos (requestBytes data size nmemb)) := by
  have isFirst : asInt (fat16GetFirstCluster item) = (fat16GetFirstCluster item : Nat) :=
    asInt_eq (Nat.lt_trans (chain.head_lt mounted notZero) (by decide))
  obtain ⟨ending, split, onlyEntry, noEnding⟩ :=
    @writeFileEvents_started volume item notZero descriptor data size nmemb
  have internal : .allocation code ∈ writeInternalEvents volume (fat16GetFirstCluster item : Nat)
      descriptor.pos (requestBytes data size nmemb) := by
    rw [split, isFirst] at allocation
    cases List.mem_append.mp allocation with
    | inl inside => exact inside
    | inr atEnd => cases onlyEntry _ atEnd
  rcases writeInternal_cases mounted chain notZero descriptor.pos (requestBytes data size nmemb) with
    noEvents | ⟨suffix, notEmpty, isSuffix, loopEvents, loop⟩
  · rw [noEvents] at internal
    exact absurd internal List.not_mem_nil
  · have clusters : ∀ c ∈ suffix, volume.IsCluster c := fun c member =>
      chain.clusters c (List.mem_of_mem_drop (isSuffix ▸ member))
    have suffixChain : Chain volume.readEntry IsEoc suffix := by
      have whole := chain.links
      rw [← List.take_append_drop ((asInt descriptor.pos).toNat / volume.header.clusterSize) l, isSuffix] at whole
      exact whole.suffix
    have inCluster := Nat.mod_lt descriptor.pos mounted.clusterSize_pos
    rw [loopEvents] at internal
    obtain ⟨⟨later, isEvents, noLater⟩, stops⟩ := @writeLoop_fillsAndAsks suffix volume
      (requestBytes data size nmemb).length (descriptor.pos % volume.header.clusterSize) 0
      (requestBytes data size nmemb) code mounted clusters suffixChain notEmpty inCluster internal
    rw [FatVolume.withOwnData, isSuffix]
    have ends : fat16WriteInternal volume (asInt (fat16GetFirstCluster item)) descriptor.pos
        (requestBytes data size nmemb) = writeLoop (requestBytes data size nmemb).length (suffix.headD 0 : Nat)
          (descriptor.pos % volume.header.clusterSize) 0 (requestBytes data size nmemb) volume := by
      rw [isFirst]
      exact loop
    constructor
    case events =>
      refine ⟨later ++ ending, ?_, fun noFree => ?_⟩
      · rw [split, isFirst, loopEvents, isEvents]
        simp only [List.append_assoc]
      · rw [noLater noFree, noEnding (by rw [ends, stops noFree]; exact noFree), List.append_nil]
    case stops => exact fun noFree => writeFileItem_failed notZero descriptor noFree (ends.trans (stops noFree))

/-- The writes that fill clusters of the file stay in it, when the cluster behind each of them is its own. -/
theorem fillEvents_own_iff (mounted : StreamMounted volume) (clusters : ∀ c ∈ l, 2 ≤ c) {suffix : List Nat} :
    ∀ {offset : Nat}, offset < volume.header.clusterSize → (∀ c ∈ suffix, c ∈ l) →
      ((∀ event ∈ fillEvents volume.header suffix offset, event.Own volume.header l) ↔ ∀ c ∈ suffix, c + 1 ∈ l) := by
  have clusterPos := mounted.consistent.clusterPos
  have size : volume.header.clusterSize = volume.header.sectorsPerCluster * viosSectorSize := rfl
  induction suffix with
  | nil =>
    intro _ _ _
    exact iff_of_true (fun _ member => absurd member List.not_mem_nil) fun _ member => absurd member List.not_mem_nil
  | cons cluster rest ih =>
    intro offset inCluster sublist
    have lower := clusters cluster (sublist cluster List.mem_cons_self)
    have others := @ih 0 mounted.clusterSize_pos fun c member => sublist c (List.mem_cons_of_mem _ member)
    rw [fillEvents, List.forall_mem_cons, List.forall_mem_cons, others]
    refine and_congr_left fun _ => ?_
    rw [← clusterSector_inClusters_iff clusterPos clusters (Nat.le_succ_of_le lower), clusterSector_succ lower]
    constructor
    · intro own
      exact own _ (by unfold viosSectorSize at *; omega) (by unfold viosSectorSize at *; omega)
    · intro next k above below
      by_cases atEnd : k = volume.header.clusterSector cluster + volume.header.sectorsPerCluster
      · exact atEnd ▸ next
      · exact ⟨cluster, sublist cluster List.mem_cons_self, by unfold viosSectorSize at *; omega,
          by unfold viosSectorSize at *; omega⟩

end Call

section Write

variable {state : FatState StreamedDisk} {ptr : Ptr} {descriptor : FatFileDescriptor} {item : FatDirectoryItem}
  {l : List Nat} {data : List UInt8} {size nmemb : Nat}

theorem fat16Write_file (isOpen : state.descriptors ptr = some descriptor)
    (isFile : descriptor.item.data = .file item) (writable : ¬ item.attr &&& fatFileReadOnly ≠ 0) :
    fat16Write state ptr data size nmemb =
        (some (writeFileItem state.volume descriptor item data size nmemb).1,
          state.set ptr (some (writeFileItem state.volume descriptor item data size nmemb).2.1)
            (writeFileItem state.volume descriptor item data size nmemb).2.2) ∧
      fat16WriteEvents state ptr data size nmemb = writeFileEvents state.volume descriptor item data size nmemb := by
  refine ⟨fat16Write_writable isOpen isFile writable, ?_⟩
  unfold fat16WriteEvents
  rw [isOpen]
  simp only [isFile, writable, if_false]

/-- Only a call on a file that can be written does anything. -/
theorem writable_of_event {event : WriteEvent} (isOpen : state.descriptors ptr = some descriptor)
    (isFile : descriptor.item.data = .file item) (member : event ∈ fat16WriteEvents state ptr data size nmemb) :
    ¬ item.attr &&& fatFileReadOnly ≠ 0 := by
  intro readOnly
  unfold fat16WriteEvents at member
  rw [isOpen] at member
  simp only [isFile] at member
  rw [if_pos readOnly] at member
  exact List.not_mem_nil member

/-- A write to an empty file changes its first cluster, whatever comes of it. -/
theorem not_clean_of_empty (isOpen : state.descriptors ptr = some descriptor)
    (isFile : descriptor.item.data = .file item) (writable : ¬ item.attr &&& fatFileReadOnly ≠ 0)
    (zero : fat16GetFirstCluster item = 0) : ¬ WriteFailsClean state ptr descriptor item l data size nmemb := by
  intro clean
  obtain ⟨result, -⟩ := @fat16Write_file state ptr descriptor item data size nmemb isOpen isFile writable
  obtain ⟨descriptor', item', isOpen', isFile', -, sameFirst, -⟩ := clean.kept
  obtain ⟨written, isWritten, first⟩ := writeFileItem_first state.volume descriptor item data size nmemb
  rw [result] at isOpen'
  obtain rfl : (writeFileItem state.volume descriptor item data size nmemb).2.1 = descriptor' :=
    Option.some.inj ((set_descriptor ..).symm.trans isOpen')
  obtain rfl : written = item' := FatItemData.file.inj (isWritten.symm.trans isFile')
  exact absurd (first.symm.trans (sameFirst.trans zero)) (writeStart_first zero)

/-- A write that cannot allocate a cluster leaves no traces exactly if the file has a first cluster, no
cluster can be allocated from the start, and behind each cluster that is filled lies another one of the file. -/
theorem writeFailsClean_iff (mounted : StreamMounted state.volume)
    (isOpen : state.descriptors ptr = some descriptor) (isFile : descriptor.item.data = .file item)
    (chain : ReadChain state.volume (fat16GetFirstCluster item) l)
    (fails : ∃ res < 0, .allocation res ∈ fat16WriteEvents state ptr data size nmemb) :
    WriteFailsClean state ptr descriptor item l data size nmemb ↔
      fat16GetFirstCluster item ≠ 0 ∧
        fat16FindFreeCluster (state.volume.withOwnData l descriptor.pos (requestBytes data size nmemb)) < 0 ∧
        ∀ c ∈ l.drop ((asInt descriptor.pos).toNat / state.volume.header.clusterSize), c + 1 ∈ l := by
  obtain ⟨code, negative, allocation⟩ := fails
  have writable := writable_of_event isOpen isFile allocation
  obtain ⟨result, events⟩ := @fat16Write_file state ptr descriptor item data size nmemb isOpen isFile writable
  have clusters : ∀ c ∈ l, 2 ≤ c := fun c member => (chain.clusters c member).1
  have sublist : ∀ c ∈ l.drop ((asInt descriptor.pos).toNat / state.volume.header.clusterSize), c ∈ l :=
    fun c member => List.mem_of_mem_drop member
  have inCluster := Nat.mod_lt descriptor.pos mounted.clusterSize_pos
  by_cases notZero : fat16GetFirstCluster item ≠ 0
  · rw [events] at allocation
    obtain ⟨⟨later, isEvents, noLater⟩, stops⟩ := asksAtEnd mounted chain notZero allocation
    rw [isEvents] at events
    have filling := @fillEvents_own_iff state.volume l mounted clusters _ _ inCluster sublist
    constructor
    · intro clean
      have own := clean.own
      rw [events] at own
      refine ⟨notZero, ?_, filling.mp fun event member => own event (List.mem_append_left _ member)⟩
      by_contra found
      -- the cluster that is found is marked in the table
      exact own _ (List.mem_append_right _ (List.mem_append_left _
        (table_mem_allocateEvents (Int.not_lt.mp found) _)))
    · rintro ⟨-, noFree, next⟩
      have kept : SectorsKept _ state.volume
          (state.volume.withOwnData l descriptor.pos (requestBytes data size nmemb)) :=
        fillClusters_kept mounted (fun c member => chain.clusters c (sublist c member)) inCluster.le
      rw [stops noFree] at result
      constructor
      case negative => exact ⟨_, noFree, by rw [result]⟩
      case kept =>
        refine ⟨{ descriptor with item := { descriptor.item with data := .file item } }, item, ?_, rfl, rfl, rfl, rfl⟩
        rw [result]
        exact set_descriptor ..
      case free =>
        intro c isCluster isFree
        rw [result]
        exact (readEntry_kept mounted kept (fun c member => chain.clusters c (sublist c member))
          isCluster.2).trans isFree
      case own =>
        rw [events, noLater noFree, List.append_nil, (allocate_none noFree _).2]
        intro event member
        cases List.mem_append.mp member with
        | inl isFilling => exact filling.mpr next event isFilling
        | inr isAllocation => exact List.mem_singleton.mp isAllocation ▸ trivial
      case outside =>
        intro n outside
        rw [result]
        exact kept.dev.sector n fun k filled => outside k
          (inClusters_of_filled clusters mounted.consistent.clusterPos sublist next filled)
  · constructor
    · intro clean
      exact absurd clean (not_clean_of_empty isOpen isFile writable (not_not.mp notZero))
    · rintro ⟨isFirst, -⟩
      exact absurd isFirst notZero

end Write

/-- Where the entries that are looked at lie in front of the clusters, it makes no difference for the search
that the data was written. -/
theorem findFree_withOwnData {volume : FatVolume StreamedDisk} {l : List Nat} (mounted : StreamMounted volume)
    (clusters : ∀ c ∈ l, volume.IsCluster c)
    (inFront : volume.tablePos + volume.header.totalClusters * fat16FatEntrySize ≤ volume.dataPos)
    (pos : Nat) (data : List UInt8) :
    fat16FindFreeCluster (volume.withOwnData l pos data) = fat16FindFreeCluster volume := by
  have filled : ∀ c ∈ l.drop ((asInt pos).toNat / volume.header.clusterSize), volume.IsCluster c :=
    fun c member => clusters c (List.mem_of_mem_drop member)
  have kept : SectorsKept _ volume (volume.withOwnData l pos data) :=
    fillClusters_kept mounted filled (Nat.mod_lt _ mounted.clusterSize_pos).le
  have entries : ∀ c ∈ List.range' 2 (volume.header.totalClusters - 2),
      fat16GetFatEntry (volume.withOwnData l pos data) (c : Nat) = fat16GetFatEntry volume (c : Nat) := by
    intro c scanned
    have inRange := List.mem_range'_1.mp scanned
    refine getFatEntry_congr kept mounted (filledSectors_behind mounted.consistent filled) ?_
    unfold fat16FatEntrySize at *
    omega
  have sameSearch :
      (List.range' 2 (volume.header.totalClusters - 2)).find? (fun (c : Nat) =>
          fat16GetFatEntry (volume.withOwnData l pos data) c = fat16Unused) =
        (List.range' 2 (volume.header.totalClusters - 2)).find? fun (c : Nat) =>
          fat16GetFatEntry volume c = fat16Unused :=
    List.find?_congr fun c scanned => by rw [entries c scanned]
  unfold fat16FindFreeCluster
  rw [kept.header, sameSearch]

/-! ## Four writes -/

/-- A disk of eight sectors, with five clusters and the given table. -/
def smallDisk (table : Nat → UInt8) : FatVolume StreamedDisk where
  store :=
    { dev := ⟨fun n i => if n = 1 then table i else 0, fun _ => false, fun _ => false⟩
      disk := wholeDisk
      garbage := fun _ _ _ => 7
      writes := 0 }
  header := ⟨1, 1, 1, 16, 8, 1, 0⟩
  rootDirectory := ⟨List.replicate 16 .zero, 2, 3⟩

/-- No cluster is free, and cluster 3 is linked to cluster 2. -/
def fullDisk : FatVolume StreamedDisk := smallDisk fun i => if i = 6 then 2 else if i = 7 then 0 else 0xFF

/-- Cluster 3 is free. -/
def oneFreeDisk : FatVolume StreamedDisk := smallDisk fun i => if i = 6 ∨ i = 7 then 0 else 0xFF

theorem smallDisk_consistent : FatHeader.Consistent ⟨1, 1, 1, 16, 8, 1, 0⟩ (2 ^ 31 - 1) := by
  constructor
  all_goals decide

theorem smallDisk_mounted (table : Nat → UInt8) : StreamMounted (smallDisk table) where
  consistent := smallDisk_consistent
  endingSectorPos := (by decide : 3 = FatHeader.dataSector ⟨1, 1, 1, 16, 8, 1, 0⟩)

/-- The second cluster of a file is filled, and the first one lies behind it on the disk. -/
theorem fullDisk_failsClean :
    WriteFailsClean (oneFileState fullDisk { openFileAt 3 1024 with pos := 512 }) 4096
      { openFileAt 3 1024 with pos := 512 }
      { FatDirectoryItem.zero.withFirstCluster 3 with filesize := 1024 } [3, 2] [] 513 1 := by
  have links : Chain fullDisk.readEntry IsEoc [3, 2] :=
    ⟨by decide +kernel, show 0xFFF8 ≤ fullDisk.readEntry 2 by decide +kernel⟩
  have clusters : ∀ c ∈ [3, 2], fullDisk.IsCluster c := by
    intro c member
    rcases List.mem_pair.mp member with rfl | rfl
    · exact ⟨by decide, by decide⟩
    · exact ⟨by decide, by decide⟩
  have isFirst : fat16GetFirstCluster { FatDirectoryItem.zero.withFirstCluster 3 with filesize := 1024 } = 3 := by
    decide +kernel
  have chain : ReadChain (oneFileState fullDisk { openFileAt 3 1024 with pos := 512 }).volume
      (fat16GetFirstCluster { FatDirectoryItem.zero.withFirstCluster 3 with filesize := 1024 }) [3, 2] :=
    ⟨isFirst.symm, links, clusters⟩
  exact (writeFailsClean_iff (smallDisk_mounted _) rfl rfl chain ⟨-enomem, by decide, by decide +kernel⟩).mpr
    ⟨by decide +kernel, by decide +kernel, by decide +kernel⟩

/-- An empty file gets the status of the allocation as its first cluster, a cluster that was allocated before
another one fails stays allocated, and the sector behind a cluster that was filled is overwritten. -/
theorem failedWrites_leaveTraces :
    (.allocation (-enomem) ∈
        fat16WriteEvents (oneFileState fullDisk (openFileAt 0 0)) 4096 [] 1 1 ∧
      ¬ WriteFailsClean (oneFileState fullDisk (openFileAt 0 0)) 4096 (openFileAt 0 0)
        { FatDirectoryItem.zero.withFirstCluster 0 with filesize := 0 } [] [] 1 1) ∧
    (.allocation (-enomem) ∈
        fat16WriteEvents (oneFileState oneFreeDisk (openFileAt 2 512)) 4096 [] 1025 1 ∧
      ¬ WriteFailsClean (oneFileState oneFreeDisk (openFileAt 2 512)) 4096 (openFileAt 2 512)
        { FatDirectoryItem.zero.withFirstCluster 2 with filesize := 512 } [2] [] 1025 1) ∧
    (.allocation (-enomem) ∈
        fat16WriteEvents (oneFileState fullDisk (openFileAt 2 512)) 4096 [] 513 1 ∧
      ¬ WriteFailsClean (oneFileState fullDisk (openFileAt 2 512)) 4096 (openFileAt 2 512)
        { FatDirectoryItem.zero.withFirstCluster 2 with filesize := 512 } [2] [] 513 1) := by
  refine ⟨⟨by decide +kernel, fun clean => ?_⟩, ⟨by decide +kernel, fun clean => ?_⟩, by decide +kernel,
    fun clean => ?_⟩
  · obtain ⟨descriptor, item, isOpen, isFile, -, first, -⟩ := clean.kept
    have changed : (((fat16Write (oneFileState fullDisk (openFileAt 0 0)) 4096 [] 1 1).2.descriptors 4096).map
        fun descriptor => match descriptor.item.data with
          | .directory _ => 0
          | .file item => fat16GetFirstCluster item) = some (2 ^ 32 - 3) := by
      decide +kernel
    rw [isOpen, Option.map_some, isFile] at changed
    exact absurd (first.symm.trans (Option.some.inj changed)) (by decide +kernel)
  · have isFree := clean.free 3 ⟨by decide, by decide⟩ (by decide +kernel)
    have leaked : fat16GetFatEntry
        (fat16Write (oneFileState oneFreeDisk (openFileAt 2 512)) 4096 [] 1025 1).2.volume (3 : Nat) = 0xFFFF := by
      decide +kernel
    rw [isFree] at leaked
    exact absurd leaked (by decide)
  · -- sector 4 is the one of cluster 3
    have unchanged := clean.outside 4 (by
      rintro k ⟨c, member, above, below⟩
      obtain rfl := List.mem_singleton.mp member
      have here : k = 3 := Nat.le_antisymm (Nat.le_of_lt_succ below) above
      rw [here]
      decide)
    have spoiled : (fat16Write (oneFileState fullDisk (openFileAt 2 512)) 4096 [] 513 1).2.volume.store.dev.sector 4
        0 = 7 := by
      decide +kernel
    rw [unchanged] at spoiled
    exact absurd spoiled (by decide)

end ViOS.Fs
