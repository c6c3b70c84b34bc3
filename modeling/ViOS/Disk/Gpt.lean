import ViOS.Disk.Partition
import ViOS.Disk.StreamRead
import Mathlib.Data.Nat.Digits.Defs

/-! # Mounting a GPT disk

`gpt_mount_partitions` streams the partition array from the primary disk, one entry
after the other, and creates a virtual disk for every entry that is in use.  The
array is found at a byte position of type `int`; the bounds of an entry pass through
two `int` parameters; the last sector of a partition is its end for the entry, but
the first one behind it for the bounds check.

The filesystem of a new disk is left out, and allocations succeed.

* `diskCreateNew`, `gptMountPartitions` — the code.
* `MountsArray` — the disks that the array asks for.
* `mountsArray_iff` — which arrays are mounted so.
* `acceptsInside_iff` — which blocks of a partition are accepted as its entry says.
-/

namespace ViOS.Storage

/-! ## The code -/

/-- The fields of `struct gpt_partition_table_header` that mounting reads. -/
structure GptPartitionTableHeader where
  guidArrayLbaStart : UInt64
  totalArrayEntries : UInt32
  arrayEntrySize : UInt32
  deriving DecidableEq, Repr

def viosDiskTypeReal : Nat := 0
def viosDiskTypePartition : Nat := 1

/-- `struct disk`, less its filesystem. -/
structure MountedDisk extends Disk where
  type : Nat
  id : Int
  sectorSize : Nat
  deriving DecidableEq, Repr

/-- `disk_create_new`, with `disk_vector` before and after.  The bounds and the number of the disk
are of type `int` on their way. -/
def diskCreateNew (diskVector : List MountedDisk) (type : Nat) (startingLba endingLba : Int) (sectorSize : Nat) :
    List MountedDisk :=
  diskVector ++
    [{ startingLba := (startingLba % addressSpace).toNat
       endingLba := (endingLba % addressSpace).toNat
       type
       id := asInt (diskVector.length % 2 ^ 32)
       sectorSize }]

/-- `disk_vector` after `disk_search_and_init`. -/
def diskSearchAndInit : List MountedDisk := diskCreateNew [] viosDiskTypeReal 0 0 viosSectorSize

/-- A little-endian field of eight bytes. -/
def lbaAt (buffer : List UInt8) (offset : Nat) : UInt64 :=
  .ofNat (Nat.ofDigits 256 (((buffer.drop offset).take 8).map UInt8.toNat))

/-- The bounds in the bytes of a `struct gpt_partition_entry`. -/
def gptPartitionEntry (buffer : List UInt8) : GptPartitionEntry := ⟨lbaAt buffer 32, lbaAt buffer 40⟩

/-- `memcmp` of the type GUID with zeros. -/
def entryUsed (buffer : List UInt8) : Bool := buffer.take 16 ≠ List.replicate 16 0

/-- The `diskstreamer_read` of an entry.  A size that is a negative `int` leaves the buffer as it was,
and the entry in it is undefined. -/
def readEntry (dev : Device) (streamer : DiskStream) (entrySize : Nat) : Option (Int × List UInt8 × DiskStream) :=
  if entrySize < 2 ^ 31 then diskstreamerRead dev streamer entrySize
  else
    match diskReadBlock dev streamer.disk (toUInt32 (streamer.pos.tdiv viosSectorSize)) with
    | .error res => some (res, [], streamer)
    | .ok _ => none

/-- The loop of `gpt_mount_partitions`: the status and `disk_vector`. -/
def mountLoop (dev : Device) (entrySize sectorSize : Nat) :
    (rest : Nat) → DiskStream → List MountedDisk → Option (Int × List MountedDisk)
  | 0, _, diskVector => some (0, diskVector)
  | rest + 1, streamer, diskVector =>
    match readEntry dev streamer entrySize with
    | none => none
    | some (res, buffer, streamer) =>
      if res < 0 then some (res, diskVector)
      else if entryUsed buffer then
        let entry := gptPartitionEntry buffer
        mountLoop dev entrySize sectorSize rest streamer
          (diskCreateNew diskVector viosDiskTypePartition (asInt (entry.startingLba.toNat % 2 ^ 32))
            (asInt (entry.endingLba.toNat % 2 ^ 32)) sectorSize)
      else mountLoop dev entrySize sectorSize rest streamer diskVector

/-- `gpt_mount_partitions`, whose primary disk is the first one. -/
def gptMountPartitions (dev : Device) (diskVector : List MountedDisk) (partitionHeader : GptPartitionTableHeader) :
    Option (Int × List MountedDisk) :=
  match diskVector.head? with
  | none => some (-einvarg, diskVector)
  | some primary =>
    let startingByte := partitionHeader.guidArrayLbaStart * .ofNat primary.sectorSize
    let streamer := diskstreamerSeek ⟨0, primary.toDisk⟩ (asInt (startingByte.toNat % 2 ^ 32))
    mountLoop dev partitionHeader.arrayEntrySize.toNat primary.sectorSize partitionHeader.totalArrayEntries.toNat
      streamer diskVector

/-! ## What mounting should do -/

/-- The bytes of the device from a position on. -/
def deviceBytes (dev : Device) (pos total : Nat) : List UInt8 :=
  (List.range total).map fun i => dev.sector ((pos + i) / viosSectorSize) ((pos + i) % viosSectorSize)

namespace GptPartitionTableHeader

variable (header : GptPartitionTableHeader)

/-- The byte position of the partition array. -/
def arrayStart : Nat := header.guidArrayLbaStart.toNat * viosSectorSize

/-- The byte position behind the partition array. -/
def arrayEnd : Nat := header.arrayStart + header.totalArrayEntries.toNat * header.arrayEntrySize.toNat

end GptPartitionTableHeader

/-- Entries that follow each other on the device. -/
def entriesFrom (dev : Device) (entrySize : Nat) : (rest pos : Nat) → List (List UInt8)
  | 0, _ => []
  | rest + 1, pos => deviceBytes dev pos entrySize :: entriesFrom dev entrySize rest (pos + entrySize)

/-- The partition array. -/
def partitionArray (dev : Device) (header : GptPartitionTableHeader) : List (List UInt8) :=
  entriesFrom dev header.arrayEntrySize.toNat header.totalArrayEntries.toNat header.arrayStart

/-- The entries in use. -/
def usedEntries (entries : List (List UInt8)) : List GptPartitionEntry :=
  (entries.filter entryUsed).map gptPartitionEntry

/-- The bounds of an entry as it has them. -/
def GptPartitionEntry.window (entry : GptPartitionEntry) : Disk :=
  ⟨entry.startingLba.toNat, entry.endingLba.toNat⟩

/-- Behind the primary disk, `disk_vector` holds one disk for each entry in use, in the order of the
array, with its index as `id` and the entry's own bounds. -/
def MountsArray (dev : Device) (header : GptPartitionTableHeader) : Prop :=
  ∃ res created, gptMountPartitions dev diskSearchAndInit header = some (res, diskSearchAndInit ++ created) ∧
    created.map MountedDisk.toDisk = (usedEntries (partitionArray dev header)).map GptPartitionEntry.window ∧
    ∀ i, (isCreated : i < created.length) → created[i].id = (diskSearchAndInit.length + i : Nat)

/-! ## The entries that the stream delivers -/

/-- The buffers of the loop, up to the first read that fails. -/
def streamedEntries (dev : Device) (entrySize : Nat) : (rest : Nat) → DiskStream → Option (List (List UInt8))
  | 0, _ => some []
  | rest + 1, streamer =>
    match readEntry dev streamer entrySize with
    | none => none
    | some (res, buffer, streamer) =>
      if res < 0 then some [] else (streamedEntries dev entrySize rest streamer).map (buffer :: ·)

/-- Disks for some entries, the first one with the given index. -/
def createdDisks (sectorSize : Nat) : (index : Nat) → List GptPartitionEntry → List MountedDisk
  | _, [] => []
  | index, entry :: rest =>
    { toDisk := partitionDisk entry, type := viosDiskTypePartition, id := asInt (index % 2 ^ 32), sectorSize } ::
      createdDisks sectorSize (index + 1) rest

theorem createdDisks_toDisk (sectorSize index : Nat) (entries : List GptPartitionEntry) :
    (createdDisks sectorSize index entries).map MountedDisk.toDisk = entries.map partitionDisk := by
  induction entries generalizing index with
  | nil => rfl
  | cons entry rest ih => rw [createdDisks, List.map_cons, List.map_cons, ih]

theorem createdDisks_length (sectorSize index : Nat) (entries : List GptPartitionEntry) :
    (createdDisks sectorSize index entries).length = entries.length := by
  induction entries generalizing index with
  | nil => rfl
  | cons entry rest ih => rw [createdDisks, List.length_cons, List.length_cons, ih]

theorem createdDisks_id (sectorSize : Nat) (entries : List GptPartitionEntry) :
    ∀ (index i : Nat) (isCreated : i < (createdDisks sectorSize index entries).length),
      (createdDisks sectorSize index entries)[i].id = asInt ((index + i) % 2 ^ 32) := by
  induction entries with
  | nil => exact fun _ _ isCreated => absurd isCreated (Nat.not_lt_zero _)
  | cons entry rest ih =>
    intro index i isCreated
    cases i with
    | zero => rfl
    | succ i =>
      have inRest : i < (createdDisks sectorSize (index + 1) rest).length := by
        rwa [createdDisks, List.length_cons, Nat.succ_lt_succ_iff] at isCreated
      have next := ih (index + 1) i inRest
      rw [Nat.add_right_comm] at next
      exact next

/-- The loop creates a disk for every entry in use that is delivered. -/
theorem mountLoop_eq (dev : Device) (entrySize sectorSize rest : Nat) :
    ∀ (streamer : DiskStream) (diskVector : List MountedDisk),
      (mountLoop dev entrySize sectorSize rest streamer diskVector).map Prod.snd =
        (streamedEntries dev entrySize rest streamer).map fun entries =>
          diskVector ++ createdDisks sectorSize diskVector.length (usedEntries entries) := by
  induction rest with
  | zero =>
    intro streamer diskVector
    rw [mountLoop, streamedEntries, Option.map_some, Option.map_some, usedEntries, List.filter_nil, List.map_nil,
      createdDisks, List.append_nil]
  | succ rest ih =>
    intro streamer diskVector
    rw [mountLoop, streamedEntries]
    cases readEntry dev streamer entrySize with
    | none => rfl
    | some read =>
      obtain ⟨res, buffer, streamer⟩ := read
      simp only
      by_cases failed : res < 0
      · rw [if_pos failed, if_pos failed, Option.map_some, Option.map_some, usedEntries, List.filter_nil,
          List.map_nil, createdDisks, List.append_nil]
      · -- An entry in use becomes a disk with the next id, another one leaves the vector as it is.
        rw [if_neg failed, if_neg failed, Option.map_map]
        cases used : entryUsed buffer with
        | false =>
          rw [if_neg Bool.false_ne_true, ih]
          refine congrFun (congrArg _ (funext fun entries => ?_)) _
          rw [Function.comp_apply, usedEntries, usedEntries, List.filter_cons_of_neg (by simp [used])]
        | true =>
          rw [if_pos rfl, ih]
          refine congrFun (congrArg _ (funext fun entries => ?_)) _
          rw [Function.comp_apply, usedEntries, usedEntries, List.filter_cons_of_pos used, List.map_cons,
            createdDisks, diskCreateNew, List.append_assoc, List.length_append, List.length_singleton]
          rfl

/-- A read that succeeds leaves the stream behind the bytes that were read. -/
theorem diskstreamerRead_pos {dev : Device} (total : Nat) : ∀ {stream after : DiskStream} {res : Int}
    {bytes : List UInt8}, diskstreamerRead dev stream total = some (res, bytes, after) → ¬ res < 0 →
      after.pos = stream.pos + total ∧ fitsInt after.pos = true := by
  induction total using Nat.strongRecOn with
  | ind total ih =>
    intro stream after res bytes result succeeds
    rw [diskstreamerRead] at result
    simp only at result
    split at result
    · cases result
    · split at result
      next code failed =>
        rw [Option.some.injEq, Prod.mk.injEq] at result
        obtain ⟨rfl, -⟩ := result
        exact absurd (diskReadBlock_error_neg failed) succeeds
      next buf _ =>
        split at result
        · cases result
        · split at result
          · cases result
          next fits =>
            simp only [Bool.not_eq_true', Bool.not_eq_false] at fits
            split at result
            next overflow =>
              -- The call for the rest has the last word on the position.
              have reaches := of_decide_eq_true overflow
              have shorter := chunk_shorter _ _ reaches
              rw [overflow] at fits result shorter
              split at result
              · cases result
              next rest _ last _ recursion =>
                rw [Option.some.injEq, Prod.mk.injEq, Prod.mk.injEq] at result
                obtain ⟨rfl, -, rfl⟩ := result
                obtain ⟨sum, inInt⟩ := ih _ shorter recursion succeeds
                refine ⟨?_, inInt⟩
                have inTotal : chunkLength (stream.pos.tmod viosSectorSize) true total ≤ total := by
                  rw [chunkLength, if_pos rfl]
                  omega
                simp only at sum
                omega
            next inSector =>
              rw [Option.some.injEq, Prod.mk.injEq, Prod.mk.injEq] at result
              obtain ⟨-, -, rfl⟩ := result
              have whole : chunkLength (stream.pos.tmod viosSectorSize)
                  (decide ((viosSectorSize : Int) ≤ stream.pos.tmod viosSectorSize + total)) total = total := by
                rw [Bool.not_eq_true] at inSector
                rw [chunkLength, inSector, if_neg Bool.false_ne_true]
              rw [whole] at fits
              exact ⟨by rw [whole], by simpa only [whole] using fits⟩

/-- The stream stops before its position leaves the range of an `int`. -/
theorem streamedEntries_length {dev : Device} {entrySize : Nat} (rest : Nat) :
    ∀ {streamer : DiskStream} {entries : List (List UInt8)}, streamer.pos < 2 ^ 31 →
      streamedEntries dev entrySize rest streamer = some entries →
      streamer.pos + entries.length * entrySize < 2 ^ 31 := by
  induction rest with
  | zero =>
    intro streamer entries inInt result
    rw [streamedEntries, Option.some.injEq] at result
    subst result
    simpa using inInt
  | succ rest ih =>
    intro streamer entries inInt result
    rw [streamedEntries] at result
    split at result
    · cases result
    next res buffer after read =>
      split at result
      · rw [Option.some.injEq] at result
        subst result
        simpa using inInt
      next succeeds =>
        obtain ⟨later, delivered, rfl⟩ := Option.map_eq_some_iff.mp result
        -- With a negative size nothing is copied, so an entry that was delivered has a positive one.
        have small : entrySize < 2 ^ 31 := by
          by_contra large
          rw [readEntry, if_neg large] at read
          split at read
          next code failed =>
            rw [Option.some.injEq, Prod.mk.injEq] at read
            obtain ⟨rfl, -⟩ := read
            exact absurd (diskReadBlock_error_neg failed) succeeds
          · cases read
        rw [readEntry, if_pos small] at read
        obtain ⟨sum, fits⟩ := diskstreamerRead_pos entrySize read succeeds
        rw [fitsInt, decide_eq_true_eq] at fits
        have bound := ih fits.2 delivered
        rw [List.length_cons, Nat.cast_succ, Int.add_mul]
        omega

/-! ## Which arrays are mounted -/

/-- The stream at the start of the array, as the code seeks it. -/
def GptPartitionTableHeader.arrayStream (header : GptPartitionTableHeader) : DiskStream :=
  ⟨asInt ((header.guidArrayLbaStart * .ofNat viosSectorSize).toNat % 2 ^ 32), wholeDisk⟩

/-- The entries in use that the stream delivers are those of the array, and their bounds survive the
narrowing. -/
def StreamDelivers (dev : Device) (header : GptPartitionTableHeader) : Prop :=
  ∃ delivered, streamedEntries dev header.arrayEntrySize.toNat header.totalArrayEntries.toNat header.arrayStream =
      some delivered ∧
    (usedEntries delivered).map partitionDisk =
      (usedEntries (partitionArray dev header)).map GptPartitionEntry.window

/-- The array ends in front of byte `2 ^ 31`, and its sectors and the one that holds the first byte
behind it can be read. -/
structure ArrayInReach (dev : Device) (header : GptPartitionTableHeader) : Prop where
  inRange : header.arrayEnd < 2 ^ 31
  readable : ∀ lba, header.arrayStart / viosSectorSize ≤ lba → lba ≤ header.arrayEnd / viosSectorSize →
    SectorReadable dev wholeDisk lba

/-- A bound that is the value of an `int`. -/
def LbaFits (lba : Nat) : Prop := lba < 2 ^ 31 ∨ 2 ^ 64 - 2 ^ 31 ≤ lba

instance (lba : Nat) : Decidable (LbaFits lba) := inferInstanceAs (Decidable (_ ∨ _))

theorem lbaField_eq_iff {lba : Nat} (isLba : lba < 2 ^ 64) : lbaField lba = lba ↔ LbaFits lba := by
  have narrowed := lbaField_narrowed lba
  unfold Narrowed at narrowed
  unfold LbaFits
  omega

theorem partitionDisk_eq_iff (entry : GptPartitionEntry) :
    partitionDisk entry = entry.window ↔ LbaFits entry.startingLba.toNat ∧ LbaFits entry.endingLba.toNat := by
  rw [← lbaField_eq_iff entry.startingLba.toNat_lt, ← lbaField_eq_iff entry.endingLba.toNat_lt, partitionDisk,
    GptPartitionEntry.window, Disk.mk.injEq]

theorem gptMountPartitions_eq (dev : Device) (header : GptPartitionTableHeader) :
    (gptMountPartitions dev diskSearchAndInit header).map Prod.snd =
      (streamedEntries dev header.arrayEntrySize.toNat header.totalArrayEntries.toNat header.arrayStream).map
        fun entries => diskSearchAndInit ++ createdDisks viosSectorSize 1 (usedEntries entries) :=
  mountLoop_eq dev _ viosSectorSize _ header.arrayStream diskSearchAndInit

theorem mountsArray_iff_delivers (dev : Device) (header : GptPartitionTableHeader)
    (sized : 128 ≤ header.arrayEntrySize.toNat) : MountsArray dev header ↔ StreamDelivers dev header := by
  have mounted := gptMountPartitions_eq dev header
  constructor
  · rintro ⟨res, created, result, bounds, -⟩
    rw [result, Option.map_some] at mounted
    obtain ⟨delivered, stream, same⟩ := Option.map_eq_some_iff.mp mounted.symm
    refine ⟨delivered, stream, ?_⟩
    rw [← bounds, ← List.append_cancel_left same, createdDisks_toDisk]
  · rintro ⟨delivered, stream, bounds⟩
    rw [stream, Option.map_some] at mounted
    obtain ⟨⟨res, diskVector⟩, result, rfl⟩ := Option.map_eq_some_iff.mp mounted
    refine ⟨res, _, result, ?_, ?_⟩
    · rw [createdDisks_toDisk, bounds]
    · -- An entry has 128 bytes or more, so there are too few of them for an index that is no int.
      intro i isCreated
      have small : header.arrayStream.pos < 2 ^ 31 := by
        unfold GptPartitionTableHeader.arrayStream asInt
        simp only
        split <;> omega
      have atLeast : -(2 ^ 31) ≤ header.arrayStream.pos := by
        unfold GptPartitionTableHeader.arrayStream asInt
        simp only
        split <;> omega
      have length := streamedEntries_length _ small stream
      have few : (delivered.length : Int) * 128 ≤ delivered.length * header.arrayEntrySize.toNat :=
        Int.mul_le_mul_of_nonneg_left (by omega) (by omega)
      have used : (usedEntries delivered).length ≤ delivered.length := by
        rw [usedEntries, List.length_map]
        exact List.length_filter_le _ _
      have inUsed : i < (usedEntries delivered).length := by rwa [createdDisks_length] at isCreated
      have index : 1 + i < 2 ^ 31 := by omega
      rw [createdDisks_id, Nat.mod_eq_of_lt (by omega), asInt, if_pos index]
      rfl

/-- The stream reads an array in reach entry by entry. -/
theorem streamedEntries_inReach {dev : Device} {entrySize : Nat} (rest : Nat) :
    ∀ {pos : Nat}, pos + rest * entrySize < 2 ^ 31 →
      (∀ lba, pos / viosSectorSize ≤ lba → lba ≤ (pos + rest * entrySize) / viosSectorSize →
        SectorReadable dev wholeDisk lba) →
      streamedEntries dev entrySize rest ⟨pos, wholeDisk⟩ = some (entriesFrom dev entrySize rest pos) := by
  induction rest with
  | zero => exact fun _ _ => rfl
  | succ rest ih =>
    intro pos inRange readable
    rw [Nat.succ_mul, Nat.add_comm _ entrySize, ← Nat.add_assoc] at inRange readable
    have endFits : pos + entrySize < 2 ^ 31 := by omega
    have readableTo : ∀ i ≤ entrySize, SectorReadable dev wholeDisk ((pos + i) / viosSectorSize) := fun i inEntry =>
      readable _ (Nat.div_le_div_right (by omega)) (Nat.div_le_div_right (by omega))
    -- The sector behind the entry is read too; it is the one of the next entry, or behind the array.
    have exact := (diskstreamerRead_exact dev wholeDisk entrySize pos (by omega)
      fun i inEntry => readableTo i (by omega)).mpr ⟨endFits, readableTo entrySize (Nat.le_refl _)⟩
    rw [streamedEntries, readEntry, if_pos (by omega)]
    cases result : diskstreamerRead dev ⟨pos, wholeDisk⟩ entrySize with
    | none =>
      rw [result] at exact
      exact exact.elim
    | some out =>
      obtain ⟨res, bytes, after, disk⟩ := out
      rw [result] at exact
      obtain ⟨rfl, rfl, position, rfl⟩ := exact
      have entry : diskBytes dev wholeDisk pos entrySize = deviceBytes dev pos entrySize := by
        refine List.map_congr_left fun i member => ?_
        have inEntry := List.mem_range.mp member
        have address : deviceLba wholeDisk ((pos + i) / viosSectorSize) = (pos + i) / viosSectorSize := by
          have small : (pos + i) / viosSectorSize < 2 ^ 28 := by
            unfold viosSectorSize
            omega
          rw [deviceLba, show wholeDisk.startingLba = 0 from rfl, Nat.zero_add, ataAddress,
            Nat.mod_eq_of_lt (Nat.lt_trans small (by decide)), Nat.mod_eq_of_lt (Nat.lt_trans small (by decide)),
            Nat.mod_eq_of_lt small]
        rw [diskByte, address]
      have next := @ih (pos + entrySize) inRange fun lba lower upper =>
        readable lba (Nat.le_trans (Nat.div_le_div_right (by omega)) lower) upper
      simp only at position
      subst position
      simp only [Int.lt_irrefl, if_false]
      rw [← Nat.cast_add, next, Option.map_some, entry, entriesFrom]

theorem arrayStream_inReach {dev : Device} {header : GptPartitionTableHeader} (inReach : ArrayInReach dev header) :
    header.arrayStream = ⟨header.arrayStart, wholeDisk⟩ := by
  have inRange := inReach.inRange
  unfold GptPartitionTableHeader.arrayEnd at inRange
  have small : header.arrayStart < 2 ^ 31 := by omega
  have product : (header.guidArrayLbaStart * .ofNat viosSectorSize).toNat = header.arrayStart := by
    rw [UInt64.toNat_mul]
    exact Nat.mod_eq_of_lt (Nat.lt_trans small (by decide))
  unfold GptPartitionTableHeader.arrayStream
  rw [product, Nat.mod_eq_of_lt (Nat.lt_trans small (by decide)), asInt, if_pos small]

theorem mountsArray_iff_fits {dev : Device} {header : GptPartitionTableHeader}
    (sized : 128 ≤ header.arrayEntrySize.toNat) (inReach : ArrayInReach dev header) :
    MountsArray dev header ↔ ∀ entry ∈ usedEntries (partitionArray dev header),
      LbaFits entry.startingLba.toNat ∧ LbaFits entry.endingLba.toNat := by
  have stream : streamedEntries dev header.arrayEntrySize.toNat header.totalArrayEntries.toNat header.arrayStream =
      some (partitionArray dev header) := by
    rw [arrayStream_inReach inReach]
    exact streamedEntries_inReach _ inReach.inRange inReach.readable
  rw [mountsArray_iff_delivers dev header sized, StreamDelivers, stream]
  simp only [Option.some.injEq, exists_eq_left', List.map_inj_left, partitionDisk_eq_iff]

/-- The partitions of a disk are mounted as the array says just when the stream delivers the array and
the bounds survive the narrowing.  The stream does deliver an array in reach. -/
theorem mountsArray_iff (dev : Device) (header : GptPartitionTableHeader)
    (sized : 128 ≤ header.arrayEntrySize.toNat) :
    (MountsArray dev header ↔ StreamDelivers dev header) ∧
      (ArrayInReach dev header → (MountsArray dev header ↔ ∀ entry ∈ usedEntries (partitionArray dev header),
        LbaFits entry.startingLba.toNat ∧ LbaFits entry.endingLba.toNat)) :=
  ⟨mountsArray_iff_delivers dev header sized, fun inReach => mountsArray_iff_fits sized inReach⟩

/-- A disk of zeros but for the start of its third sector. -/
def tableDevice (table : List UInt8) : Device where
  sector := fun lba i => if lba = 2 then table.getD i 0 else 0
  readError := fun _ => false
  writeError := fun _ => false

/-- An array of one entry in the third sector. -/
def oneEntryHeader : GptPartitionTableHeader := ⟨2, 1, 128⟩

/-- An entry in use, with the given bytes for its bounds. -/
def entryBytes (firstLba lastLba : List UInt8) : List UInt8 := 1 :: List.replicate 31 0 ++ firstLba ++ lastLba

theorem oneEntry_inReach (table : List UInt8) : ArrayInReach (tableDevice table) oneEntryHeader where
  inRange := by decide
  readable lba _ _ := ⟨(tableDevice table).sector (deviceLba wholeDisk lba), by
    simp [diskReadBlock, blockAllowed, wholeDisk, tableDevice]⟩

/-- A partition from sector 2048 to sector 4095. -/
theorem mountsArray_oneEntry :
    MountsArray (tableDevice (entryBytes [0, 8, 0, 0, 0, 0, 0, 0] [255, 15, 0, 0, 0, 0, 0, 0])) oneEntryHeader :=
  ((mountsArray_iff _ oneEntryHeader (by decide)).2 (oneEntry_inReach _)).mpr (by decide +kernel)

/-- A partition that starts at sector `2 ^ 31` gets the sign of an `int`. -/
theorem farEntry_not_mounted :
    ¬ MountsArray (tableDevice (entryBytes [0, 0, 0, 128, 0, 0, 0, 0] [0, 16, 0, 128, 0, 0, 0, 0]))
      oneEntryHeader := by
  rw [mountsArray_iff_fits (by decide) (oneEntry_inReach _)]
  decide +kernel

/-! ## The last sector of a partition -/

/-- A call for one sector is accepted: it fails only when the device does. -/
structure Accepted (disk : Disk) (lba : Nat) : Prop where
  read : ∀ dev : Device, dev.readError (deviceLba disk lba) = false → ∃ buf, diskReadBlock dev disk lba = .ok buf
  write : ∀ (dev : Device) (buf : Sector), dev.writeError (deviceLba disk lba) = false →
    ∃ after, diskWriteBlock dev disk lba buf = .ok after

/-- A call for one sector is refused, whatever the device does. -/
structure Refused (disk : Disk) (lba : Nat) : Prop where
  read : ∀ dev : Device, diskReadBlock dev disk lba = .error (-eio)
  write : ∀ (dev : Device) (buf : Sector), diskWriteBlock dev disk lba buf = .error (-eio)

theorem accepted_of_allowed {disk : Disk} {lba : Nat} (allowed : blockAllowed disk lba = true) :
    Accepted disk lba where
  read dev works := ⟨_, by rw [diskReadBlock, if_pos allowed, works, if_neg Bool.false_ne_true]⟩
  write dev buf works := ⟨_, by rw [diskWriteBlock, if_pos allowed, works, if_neg Bool.false_ne_true]⟩

theorem refused_of_not_allowed {disk : Disk} {lba : Nat} (refused : ¬ blockAllowed disk lba = true) :
    Refused disk lba where
  read dev := by rw [diskReadBlock, if_neg refused]
  write dev buf := by rw [diskWriteBlock, if_neg refused]

/-- The single-sector calls for block `k` of a partition are accepted just when its entry has the block. -/
def AcceptsInside (entry : GptPartitionEntry) (k : UInt32) : Prop :=
  if entry.startingLba.toNat + k.toNat ≤ entry.endingLba.toNat then Accepted (partitionDisk entry) k.toNat
  else Refused (partitionDisk entry) k.toNat

theorem acceptsInside_iff_allowed (entry : GptPartitionEntry) (k : UInt32) :
    AcceptsInside entry k ↔ (blockAllowed (partitionDisk entry) k.toNat = true ↔
      entry.startingLba.toNat + k.toNat ≤ entry.endingLba.toNat) := by
  unfold AcceptsInside
  by_cases allowed : blockAllowed (partitionDisk entry) k.toNat = true
  · have notRefused : ¬ Refused (partitionDisk entry) k.toNat := by
      intro refused
      obtain ⟨buf, result⟩ := (accepted_of_allowed allowed).read blankDevice rfl
      rw [refused.read blankDevice] at result
      cases result
    split
    next inside => exact ⟨fun _ => ⟨fun _ => inside, fun _ => allowed⟩, fun _ => accepted_of_allowed allowed⟩
    next outside => exact ⟨fun refused => absurd refused notRefused, fun same => absurd (same.mp allowed) outside⟩
  · have refused := refused_of_not_allowed allowed
    split
    next inside =>
      refine ⟨fun accepted => ?_, fun same => absurd (same.mpr inside) allowed⟩
      obtain ⟨buf, result⟩ := accepted.read blankDevice rfl
      rw [refused.read blankDevice] at result
      cases result
    next outside =>
      exact ⟨fun _ => ⟨fun isAllowed => absurd isAllowed allowed, fun inside => absurd inside outside⟩,
        fun _ => refused⟩

/-- The comparison of the check, by the low halves of bounds that are not both positive `int`s. -/
def NarrowedPasses (first last k : Nat) : Prop :=
  if first < 2 ^ 31 then 2 ^ 31 ≤ last ∨ first + k + 1 ≤ last
  else if last < 2 ^ 31 then 2 ^ 32 ≤ first + k + 1 ∧ first + k + 1 ≤ last + 2 ^ 32
  else first + k + 1 ≤ last ∨ 2 ^ 32 ≤ first + k + 1

/-- The blocks for which the check is right.

* A bound that is narrowed to 0 switches the check off, and every block is accepted.
* Between bounds that are positive `int`s it is wrong for the last block only.
* Other bounds change when they are narrowed, and the comparison of what is left of them has to agree
  with the one of the bounds. -/
def BlockJudged (first last k : Nat) : Prop :=
  if first % 2 ^ 32 = 0 ∨ last % 2 ^ 32 = 0 then first + k ≤ last
  else if first < 2 ^ 31 ∧ last < 2 ^ 31 then first + k ≠ last
  else NarrowedPasses (first % 2 ^ 32) (last % 2 ^ 32) k ↔ first + k ≤ last

/-- The comparison of the check, by what the narrowing leaves of the bounds. -/
theorem narrowedPasses_iff {first last start ending k : Nat} (narrowStart : Narrowed first start)
    (narrowEnd : Narrowed last ending) (checked : ¬ (first % 2 ^ 32 = 0 ∨ last % 2 ^ 32 = 0)) (isUInt32 : k < 2 ^ 32) :
    (((start + k) % addressSpace + 1) % addressSpace ≤ ending ∨ start = 0 ∨ ending = 0) ↔
      NarrowedPasses (first % 2 ^ 32) (last % 2 ^ 32) k := by
  unfold Narrowed at narrowStart narrowEnd
  have firstLow : first % 2 ^ 32 < 2 ^ 32 := Nat.mod_lt _ (by decide)
  have lastLow : last % 2 ^ 32 < 2 ^ 32 := Nat.mod_lt _ (by decide)
  unfold NarrowedPasses addressSpace
  generalize first % 2 ^ 32 = low at *
  generalize last % 2 ^ 32 = high at *
  split
  · omega
  · split <;> omega

theorem allowed_iff_passes (entry : GptPartitionEntry) (k : UInt32)
    (checked : ¬ (entry.startingLba.toNat % 2 ^ 32 = 0 ∨ entry.endingLba.toNat % 2 ^ 32 = 0)) :
    blockAllowed (partitionDisk entry) k.toNat = true ↔
      NarrowedPasses (entry.startingLba.toNat % 2 ^ 32) (entry.endingLba.toNat % 2 ^ 32) k.toNat := by
  rw [← narrowedPasses_iff (lbaField_narrowed _) (lbaField_narrowed _) checked k.toNat_lt, blockAllowed,
    decide_eq_true_eq, partitionDisk]

/-- The calls for a block of a partition go by its entry just when the check judges the block right:
never for the last sector of a partition with bounds that are positive `int`s. -/
theorem acceptsInside_iff (entry : GptPartitionEntry) (k : UInt32) :
    AcceptsInside entry k ↔ BlockJudged entry.startingLba.toNat entry.endingLba.toNat k.toNat := by
  rw [acceptsInside_iff_allowed]
  unfold BlockJudged
  split
  next unchecked =>
    have allowed : blockAllowed (partitionDisk entry) k.toNat = true := by
      have narrowStart := lbaField_narrowed entry.startingLba.toNat
      have narrowEnd := lbaField_narrowed entry.endingLba.toNat
      unfold Narrowed at narrowStart narrowEnd
      rw [blockAllowed, decide_eq_true_eq]
      change _ ∨ lbaField entry.startingLba.toNat = 0 ∨ lbaField entry.endingLba.toNat = 0
      omega
    exact ⟨fun same => same.mp allowed, fun inside => ⟨fun _ => inside, fun _ => allowed⟩⟩
  next checked =>
    rw [allowed_iff_passes entry k checked]
    split
    next positive =>
      rw [Nat.mod_eq_of_lt (by omega), Nat.mod_eq_of_lt (by omega), NarrowedPasses, if_pos positive.1]
      omega
    · exact Iff.rfl

/-- The EFI partition of `create_gpt.py`: its last sector is refused. -/
theorem efiPartition_last_refused : ¬ AcceptsInside ⟨2048, 718847⟩ 716799 := by
  rw [acceptsInside_iff_allowed]
  decide

end ViOS.Storage
