import ViOS.Disk.Streamer

/-! # Which reads of a stream are exact

`diskstreamer_read` takes a range that ends on a sector boundary for one that goes on,
and recurses with no bytes left.  The recursion reads a sector before it looks at the
number of bytes, so the sector behind the range has to be readable, too.

* `ReadExact` — what the stream's header promises of a read.
* `diskstreamerRead_exact_iff` — which reads keep the promise.
-/

namespace ViOS.Storage

/-! ## What a read should do -/

/-- `disk_read_block` succeeds on a sector of the disk. -/
def SectorReadable (dev : Device) (disk : Disk) (lba : Nat) : Prop := ∃ buf, diskReadBlock dev disk lba = .ok buf

/-- The bytes of the disk from a position on. -/
def diskBytes (dev : Device) (disk : Disk) (pos total : Nat) : List UInt8 :=
  (List.range total).map fun i => diskByte dev disk (pos + i)

/-- The read returned 0, stored the bytes at `[pos, pos + total)` and advanced the stream by `total`. -/
def ReadExact (dev : Device) (disk : Disk) (pos total : Nat) : Option (Int × List UInt8 × DiskStream) → Prop
  | none => False
  | some (res, bytes, stream) =>
    res = 0 ∧ bytes = diskBytes dev disk pos total ∧ stream.pos = pos + total ∧ stream.disk = disk

theorem diskReadBlock_readable {dev : Device} {disk : Disk} {lba : Nat} (readable : SectorReadable dev disk lba) :
    diskReadBlock dev disk lba = .ok (dev.sector (deviceLba disk lba)) := by
  obtain ⟨buf, result⟩ := readable
  unfold diskReadBlock at result ⊢
  cases allowed : blockAllowed disk lba with
  | false => simp [allowed] at result
  | true =>
    cases error : dev.readError (deviceLba disk lba) with
    | true => simp [allowed, error] at result
    | false => simp

theorem diskReadBlock_not_readable {dev : Device} {disk : Disk} {lba : Nat}
    (notReadable : ¬ SectorReadable dev disk lba) : ∃ res, diskReadBlock dev disk lba = .error res := by
  cases result : diskReadBlock dev disk lba with
  | error res => exact ⟨res, rfl⟩
  | ok buf => exact absurd ⟨buf, result⟩ notReadable

theorem diskReadBlock_error {dev : Device} {disk : Disk} {lba : Nat} {res : Int}
    (result : diskReadBlock dev disk lba = .error res) : res = -eio := by
  unfold diskReadBlock at result
  split at result
  · split at result
    · exact (Except.error.inj result).symm
    · cases result
  · exact (Except.error.inj result).symm

theorem diskReadBlock_error_neg {dev : Device} {disk : Disk} {lba : Nat} {res : Int}
    (result : diskReadBlock dev disk lba = .error res) : res < 0 := by
  rw [diskReadBlock_error result]
  decide

theorem diskBytes_add (dev : Device) (disk : Disk) (pos a b : Nat) :
    diskBytes dev disk pos (a + b) = diskBytes dev disk pos a ++ diskBytes dev disk (pos + a) b := by
  unfold diskBytes
  rw [List.range_add, List.map_append, List.map_map]
  refine congrArg _ (List.map_congr_left fun i _ => ?_)
  rw [Function.comp_apply, Nat.add_assoc]

/-! ## One level of the recursion -/

theorem firstChunk_le (pos total : Nat) : firstChunk pos total ≤ total := by
  unfold firstChunk
  split <;> omega

/-- The bytes of the first chunk lie in one sector. -/
theorem firstChunk_fits (pos total : Nat) : pos % viosSectorSize + firstChunk pos total ≤ viosSectorSize := by
  have small : pos % viosSectorSize < viosSectorSize := Nat.mod_lt _ (by decide)
  unfold firstChunk
  split <;> omega

/-- The copying loop stores bytes of the disk. -/
theorem copyOut_eq (dev : Device) (disk : Disk) {pos count : Nat}
    (fits : pos % viosSectorSize + count ≤ viosSectorSize) :
    copyOut (dev.sector (deviceLba disk (pos / viosSectorSize))) (pos % viosSectorSize : Nat) count =
      some (diskBytes dev disk pos count) := by
  unfold copyOut
  by_cases empty : count = 0
  · rw [if_pos empty, empty]
    rfl
  · have inside : (0 : Int) ≤ (pos % viosSectorSize : Nat) ∧
        ((pos % viosSectorSize : Nat) : Int) + count ≤ viosSectorSize := by omega
    rw [if_neg empty, if_pos inside, diskBytes]
    refine congrArg some (List.map_congr_left fun i member => ?_)
    have inCount := List.mem_range.mp member
    have sector : (pos + i) / viosSectorSize = pos / viosSectorSize := by
      unfold viosSectorSize at fits ⊢
      omega
    have offset : (pos + i) % viosSectorSize = pos % viosSectorSize + i := by
      unfold viosSectorSize at fits ⊢
      omega
    rw [diskByte, sector, offset, Int.toNat_natCast]

section Read

variable {dev : Device} {disk : Disk} {pos total : Nat}

/-- What the code computes from a position that is not negative. -/
theorem streamPos_eq (posFits : pos < 2 ^ 31) :
    (pos : Int).tdiv viosSectorSize = (pos / viosSectorSize : Nat) ∧
      (pos : Int).tmod viosSectorSize = (pos % viosSectorSize : Nat) ∧
      toUInt32 ((pos / viosSectorSize : Nat) : Int) = pos / viosSectorSize := by
  refine ⟨?_, ?_, ?_⟩
  · rw [Int.tdiv_eq_ediv_of_nonneg (by omega)]
    rfl
  · rw [Int.tmod_eq_emod_of_nonneg (by omega)]
    rfl
  · unfold toUInt32 viosSectorSize
    omega

theorem fitsInt_iff_of_nonneg {value : Int} (nonneg : 0 ≤ value) : fitsInt value = true ↔ value < 2 ^ 31 := by
  rw [fitsInt, decide_eq_true_eq]
  omega

theorem diskstreamerRead_overflows (posFits : pos < 2 ^ 31) (overflows : 2 ^ 31 ≤ pos % viosSectorSize + total) :
    diskstreamerRead dev ⟨pos, disk⟩ total = none := by
  obtain ⟨-, offset, -⟩ := streamPos_eq posFits
  have noInt : fitsInt (((pos % viosSectorSize : Nat) : Int) + total) = false := by
    rw [← Bool.not_eq_true, fitsInt_iff_of_nonneg (by omega)]
    omega
  rw [diskstreamerRead]
  simp only [offset, noInt, Bool.not_false, if_true]

variable (posFits : pos < 2 ^ 31) (reachFits : pos % viosSectorSize + total < 2 ^ 31)

include posFits reachFits

theorem diskstreamerRead_unreadable (notReadable : ¬ SectorReadable dev disk (pos / viosSectorSize)) :
    diskstreamerRead dev ⟨pos, disk⟩ total = some (-eio, [], ⟨pos, disk⟩) := by
  obtain ⟨sector, offset, index⟩ := streamPos_eq posFits
  obtain ⟨res, failed⟩ := diskReadBlock_not_readable notReadable
  have reachOk : fitsInt (((pos % viosSectorSize : Nat) : Int) + total) = true :=
    (fitsInt_iff_of_nonneg (by omega)).mpr (by omega)
  rw [diskReadBlock_error failed] at failed
  rw [diskstreamerRead]
  simp only [sector, offset, index, reachOk, failed, Bool.not_true, Bool.false_eq_true, if_false]

theorem diskstreamerRead_step (readable : SectorReadable dev disk (pos / viosSectorSize)) :
    diskstreamerRead dev ⟨pos, disk⟩ total =
      if pos + firstChunk pos total < 2 ^ 31 then
        if viosSectorSize ≤ pos % viosSectorSize + total then
          (diskstreamerRead dev ⟨(pos + firstChunk pos total : Nat), disk⟩ (total - firstChunk pos total)).map
            fun (res, rest, stream) => (res, diskBytes dev disk pos (firstChunk pos total) ++ rest, stream)
        else some (0, diskBytes dev disk pos (firstChunk pos total), ⟨(pos + firstChunk pos total : Nat), disk⟩)
      else none := by
  obtain ⟨sector, offset, index⟩ := streamPos_eq posFits
  have reachOk : fitsInt (((pos % viosSectorSize : Nat) : Int) + total) = true :=
    (fitsInt_iff_of_nonneg (by omega)).mpr (by omega)
  have overflow : decide ((viosSectorSize : Int) ≤ (pos % viosSectorSize : Nat) + (total : Int)) =
      decide (viosSectorSize ≤ pos % viosSectorSize + total) := by
    rw [decide_eq_decide]
    omega
  rw [diskstreamerRead]
  simp only [sector, offset, index, reachOk, overflow, diskReadBlock_readable readable,
    chunkLength_eq_firstChunk, copyOut_eq dev disk (firstChunk_fits pos total), Bool.not_true,
    Bool.false_eq_true, if_false]
  by_cases posOk : pos + firstChunk pos total < 2 ^ 31
  · have fits : fitsInt ((pos : Int) + firstChunk pos total) = true :=
      (fitsInt_iff_of_nonneg (by omega)).mpr (by omega)
    simp only [fits, Bool.not_true, Bool.false_eq_true, if_false, posOk, if_true]
    by_cases reaches : viosSectorSize ≤ pos % viosSectorSize + total
    · simp only [reaches, decide_true, dite_true, if_true]
      rw [Int.natCast_add]
      cases diskstreamerRead dev ⟨(pos : Int) + firstChunk pos total, disk⟩ (total - firstChunk pos total) with
      | none => rfl
      | some result => rfl
    · simp only [reaches, decide_false, Bool.false_eq_true, dite_false, if_false]
      rfl
  · have noInt : fitsInt ((pos : Int) + firstChunk pos total) = false := by
      rw [← Bool.not_eq_true, fitsInt_iff_of_nonneg (by omega)]
      omega
    simp only [noInt, Bool.not_false, if_true, posOk, if_false]

end Read

/-! ## Which reads are exact -/

/-- A chunk in front leaves the promise to the rest of the read. -/
theorem readExact_chunk {dev : Device} {disk : Disk} {pos count rest : Nat}
    {result : Option (Int × List UInt8 × DiskStream)} :
    ReadExact dev disk pos (count + rest)
        (result.map fun (res, bytes, stream) => (res, diskBytes dev disk pos count ++ bytes, stream)) ↔
      ReadExact dev disk (pos + count) rest result := by
  cases result with
  | none => exact Iff.rfl
  | some out =>
    obtain ⟨res, bytes, stream⟩ := out
    simp only [Option.map_some, ReadExact, diskBytes_add, List.append_cancel_left_eq, Int.natCast_add, Int.add_assoc]

theorem diskstreamerRead_exact (dev : Device) (disk : Disk) (total : Nat) : ∀ (pos : Nat), pos < 2 ^ 31 →
    (∀ i < total, SectorReadable dev disk ((pos + i) / viosSectorSize)) →
    (ReadExact dev disk pos total (diskstreamerRead dev ⟨pos, disk⟩ total) ↔
      pos + total < 2 ^ 31 ∧ SectorReadable dev disk ((pos + total) / viosSectorSize)) := by
  -- each level but the last reads the rest of a sector, so there is less left to read
  induction total using Nat.strongRecOn with
  | ind total ih =>
    intro pos posFits inRange
    by_cases reachFits : pos % viosSectorSize + total < 2 ^ 31
    · by_cases readable : SectorReadable dev disk (pos / viosSectorSize)
      · rw [diskstreamerRead_step posFits reachFits readable]
        have chunk := firstChunk_le pos total
        by_cases posOk : pos + firstChunk pos total < 2 ^ 31
        · rw [if_pos posOk]
          by_cases reaches : viosSectorSize ≤ pos % viosSectorSize + total
          · have shorter : total - firstChunk pos total < total := by
              have small : pos % viosSectorSize < viosSectorSize := Nat.mod_lt _ (by decide)
              rw [firstChunk, if_pos reaches]
              omega
            have split : total = firstChunk pos total + (total - firstChunk pos total) := by omega
            have sameEnd : pos + firstChunk pos total + (total - firstChunk pos total) = pos + total := by omega
            have rest := ih _ shorter (pos + firstChunk pos total) posOk (by
              intro i inRest
              rw [Nat.add_assoc]
              exact inRange _ (by omega))
            rw [sameEnd] at rest
            rw [if_pos reaches, ← rest]
            nth_rewrite 1 [split]
            exact readExact_chunk
          · have whole : firstChunk pos total = total := if_neg reaches
            have sameSector : (pos + total) / viosSectorSize = pos / viosSectorSize := by
              unfold viosSectorSize at reaches ⊢
              omega
            rw [whole] at posOk ⊢
            rw [if_neg reaches, sameSector]
            exact ⟨fun _ => ⟨posOk, readable⟩, fun _ => ⟨rfl, rfl, Int.natCast_add _ _, rfl⟩⟩
        · rw [if_neg posOk]
          exact ⟨False.elim, fun fits => posOk (by omega)⟩
      · -- The first sector may only be unreadable when the range is empty.
        have empty : total = 0 := by
          by_contra notEmpty
          exact readable (inRange 0 (by omega))
        rw [diskstreamerRead_unreadable posFits reachFits readable, empty, Nat.add_zero]
        exact ⟨fun exact => absurd exact.1 (by decide), fun both => absurd both.2 readable⟩
    · have offset := Nat.mod_le pos viosSectorSize
      rw [diskstreamerRead_overflows posFits (by omega)]
      exact ⟨False.elim, fun fits => reachFits (by omega)⟩

/-- A read of sectors that can all be read keeps its promise just when its end is an `int`, and the
sector that holds the first byte behind the range can be read as well. -/
theorem diskstreamerRead_exact_iff (dev : Device) (disk : Disk) (pos total : Nat) (posFits : pos < 2 ^ 31)
    (inRange : ∀ i < total, SectorReadable dev disk ((pos + i) / viosSectorSize)) :
    ReadExact dev disk pos total (diskstreamerRead dev ⟨pos, disk⟩ total) ↔
      pos + total < 2 ^ 31 ∧ SectorReadable dev disk ((pos + total) / viosSectorSize) :=
  diskstreamerRead_exact dev disk total pos posFits inRange

theorem wholeDisk_readable (lba : Nat) : SectorReadable blankDevice wholeDisk lba :=
  (wholeDisk_accessible lba).1

theorem diskstreamerRead_exact_two_sectors :
    ReadExact blankDevice wholeDisk 500 100 (diskstreamerRead blankDevice ⟨(500 : Nat), wholeDisk⟩ 100) :=
  (diskstreamerRead_exact_iff blankDevice wholeDisk 500 100 (by decide) fun _ _ => wholeDisk_readable _).mpr
    ⟨by decide, wholeDisk_readable _⟩

/-- On a partition of one sector, that sector cannot be read whole. -/
theorem lastSector_not_exact :
    (∀ i < 512, SectorReadable blankDevice ⟨2048, 2049⟩ ((0 + i) / viosSectorSize)) ∧
      ¬ ReadExact blankDevice ⟨2048, 2049⟩ 0 512
        (diskstreamerRead blankDevice ⟨(0 : Nat), ⟨2048, 2049⟩⟩ 512) := by
  have inRange : ∀ i < 512, SectorReadable blankDevice ⟨2048, 2049⟩ ((0 + i) / viosSectorSize) := by
    intro i inSector
    have sector : (0 + i) / viosSectorSize = 0 := by
      unfold viosSectorSize
      omega
    rw [sector]
    exact ⟨_, rfl⟩
  refine ⟨inRange, fun exact => ?_⟩
  rw [diskstreamerRead_step (by decide) (by decide) (inRange 0 (by decide)), if_pos (by decide),
    if_pos (by decide)] at exact
  -- The sector was read whole, and the call for the other zero bytes reads the one behind it.
  have behind : ¬ SectorReadable blankDevice ⟨2048, 2049⟩ (512 / viosSectorSize) := by
    rintro ⟨buf, result⟩
    cases result
  change ReadExact _ _ _ _ ((diskstreamerRead blankDevice ⟨((512 : Nat) : Int), ⟨2048, 2049⟩⟩ 0).map _) at exact
  rw [diskstreamerRead_unreadable (by decide) (by decide) behind] at exact
  exact absurd exact.1 (by decide)

end ViOS.Storage
