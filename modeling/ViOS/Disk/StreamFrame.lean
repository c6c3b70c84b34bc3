import ViOS.Disk.StreamRead
import Mathlib.Order.Interval.Set.Basic

/-! # What the stream functions leave alone

`diskstreamer_write` writes whole sectors: those that hold the data, and the sector behind
a range that ends on a sector boundary, since it recurses there with no bytes left.  No
other sector changes, also when the call fails on its way.  `diskstreamer_read` looks at
the sectors of its range only.

* `WritesOnly` — the device after writes to the given sectors of a disk.
* `diskstreamerWrite_status`, `diskstreamerWrite_writesOnly` — a write, whatever comes of it.
* `diskstreamerRead_congr` — a read of sectors that hold the same.
-/

namespace ViOS.Storage

/-! ## Writes -/

/-- Only the given sectors of the disk have changed. -/
structure WritesOnly (disk : Disk) (touched : Set Nat) (dev dev' : Device) : Prop where
  readError : dev'.readError = dev.readError
  writeError : dev'.writeError = dev.writeError
  sector : ∀ n, (∀ k ∈ touched, n ≠ deviceLba disk k) → dev'.sector n = dev.sector n

namespace WritesOnly

variable {disk : Disk} {touched touched' : Set Nat} {dev dev' dev'' : Device}

theorem refl : WritesOnly disk touched dev dev := ⟨rfl, rfl, fun _ _ => rfl⟩

theorem trans (a : WritesOnly disk touched dev dev') (b : WritesOnly disk touched dev' dev'') :
    WritesOnly disk touched dev dev'' where
  readError := b.readError.trans a.readError
  writeError := b.writeError.trans a.writeError
  sector n outside := (b.sector n outside).trans (a.sector n outside)

theorem mono (writes : WritesOnly disk touched dev dev') (more : touched ⊆ touched') :
    WritesOnly disk touched' dev dev' where
  readError := writes.readError
  writeError := writes.writeError
  sector n outside := writes.sector n fun k member => outside k (more member)

theorem writeBlock {lba : Nat} {buf : Sector} (written : diskWriteBlock dev disk lba buf = .ok dev') :
    WritesOnly disk {lba} dev dev' := by
  unfold diskWriteBlock at written
  split at written
  · split at written
    · cases written
    · obtain rfl := Except.ok.inj written
      exact ⟨rfl, rfl, fun n outside => Function.update_of_ne (outside lba rfl) _ _⟩
  · cases written

end WritesOnly

theorem diskWriteBlock_error {dev : Device} {disk : Disk} {lba : Nat} {buf : Sector} {res : Int}
    (result : diskWriteBlock dev disk lba buf = .error res) : res = -eio := by
  unfold diskWriteBlock at result
  split at result
  · split at result
    · exact (Except.error.inj result).symm
    · cases result
  · exact (Except.error.inj result).symm

/-- The sectors from the first byte of a range to the first byte behind it. -/
def touchedSectors (pos total : Nat) : Set Nat := Set.Icc (pos / viosSectorSize) ((pos + total) / viosSectorSize)

theorem diskstreamerWrite_status (garbage : Nat → Sector) (depth : Nat) (dev : Device) (stream : DiskStream)
    (data : List UInt8) {res : Int} {dev' : Device} {stream' : DiskStream}
    (result : diskstreamerWrite garbage depth dev stream data = some (res, dev', stream')) :
    res = 0 ∨ res = -eio := by
  fun_induction diskstreamerWrite garbage depth dev stream data with
  | case1 => cases result
  | case2 depth dev stream data sector offset _ overflow buf code failed =>
    obtain ⟨rfl, -⟩ := Prod.mk.inj (Option.some.inj result)
    by_cases reads : readsFirst offset overflow data.length = true
    · rw [show buf = diskReadBlock dev stream.disk (toUInt32 sector) from if_pos reads] at failed
      exact .inr (diskReadBlock_error failed)
    · rw [show buf = .ok (garbage depth) from if_neg reads] at failed
      cases failed
  | case3 => cases result
  | case4 _ _ _ _ _ _ _ _ _ _ _ _ _ _ code failed =>
    obtain ⟨rfl, -⟩ := Prod.mk.inj (Option.some.inj result)
    exact .inr (diskWriteBlock_error failed)
  | case5 => cases result
  | case6 _ _ _ _ _ _ _ _ _ _ _ _ _ _ _ _ _ _ _ ih => exact ih result
  | case7 => exact .inl (Prod.mk.inj (Option.some.inj result)).1.symm

/-- A write, whatever comes of it, changes the sectors up to the first byte behind it only. -/
theorem diskstreamerWrite_writesOnly (garbage : Nat → Sector) (disk : Disk) :
    ∀ (data : List UInt8) (depth : Nat) (dev : Device) (pos : Nat) {res : Int} {dev' : Device}
      {stream' : DiskStream}, pos < 2 ^ 31 →
      diskstreamerWrite garbage depth dev ⟨pos, disk⟩ data = some (res, dev', stream') →
      WritesOnly disk (touchedSectors pos data.length) dev dev' := by
  intro data
  -- the rest of the data is shorter, since a chunk that reaches the end of its sector is not empty
  induction hlen : data.length using Nat.strongRecOn generalizing data with
  | ind total ih =>
    subst hlen
    intro depth dev pos res dev' stream' posFits result
    obtain ⟨sector, offset, index⟩ := streamPos_eq posFits
    have overflow : decide ((viosSectorSize : Int) ≤ (pos % viosSectorSize : Nat) + (data.length : Int)) =
        decide (viosSectorSize ≤ pos % viosSectorSize + data.length) := by
      rw [decide_eq_decide]
      omega
    have first : pos / viosSectorSize ≤ (pos + firstChunk pos data.length) / viosSectorSize :=
      Nat.div_le_div_right (Nat.le_add_right _ _)
    rw [diskstreamerWrite] at result
    simp only [sector, offset, index, overflow, chunkLength_eq_firstChunk,
      copyIn_eq (firstChunk_inside pos data)] at result
    split at result
    · cases result
    · split at result
      next =>
        obtain ⟨-, rfl, -⟩ := Prod.mk.inj (Option.some.inj result)
        exact .refl
      next buf found =>
        split at result
        next =>
          obtain ⟨-, rfl, -⟩ := Prod.mk.inj (Option.some.inj result)
          exact .refl
        next written isWritten =>
          have inRange : pos / viosSectorSize ∈ touchedSectors pos data.length :=
            ⟨Nat.le_refl _, Nat.div_le_div_right (Nat.le_add_right _ _)⟩
          have here := (WritesOnly.writeBlock isWritten).mono (Set.singleton_subset_iff.mpr inRange)
          split at result
          · cases result
          next fits =>
            have posOk : pos + firstChunk pos data.length < 2 ^ 31 := by
              rw [Bool.not_eq_true', Bool.not_eq_false, fitsInt_iff_of_nonneg (by omega)] at fits
              omega
            split at result
            next reaches =>
              have isMore := of_decide_eq_true reaches
              have chunk : firstChunk pos data.length = viosSectorSize - pos % viosSectorSize := if_pos isMore
              have small : pos % viosSectorSize < viosSectorSize := Nat.mod_lt _ (by decide)
              have dropped : (data.drop (firstChunk pos data.length)).length =
                  data.length - firstChunk pos data.length := List.length_drop
              have rest := ih _ (by omega) _ dropped (depth + 1) written (pos + firstChunk pos data.length) posOk
                result
              unfold touchedSectors at here rest ⊢
              rw [show pos + firstChunk pos data.length + (data.length - firstChunk pos data.length) =
                pos + data.length by omega] at rest
              exact here.trans (rest.mono (Set.Icc_subset_Icc_left first))
            next =>
              obtain ⟨-, rfl, -⟩ := Prod.mk.inj (Option.some.inj result)
              exact here

/-! ## Reads -/

section Read

variable {dev dev' : Device} {disk : Disk}

theorem sectorReadable_congr (errors : dev'.readError = dev.readError) (lba : Nat) :
    SectorReadable dev' disk lba ↔ SectorReadable dev disk lba := by
  unfold SectorReadable diskReadBlock
  rw [errors]
  cases blockAllowed disk lba with
  | false => simp
  | true =>
    cases dev.readError (deviceLba disk lba) with
    | false => simp
    | true => simp

theorem diskBytes_congr {pos total : Nat} (same : ∀ i < total,
      dev'.sector (deviceLba disk ((pos + i) / viosSectorSize)) =
        dev.sector (deviceLba disk ((pos + i) / viosSectorSize))) :
    diskBytes dev' disk pos total = diskBytes dev disk pos total :=
  List.map_congr_left fun i member => congrFun (same i (List.mem_range.mp member)) _

/-- A read tells two devices apart by its own sectors only. -/
theorem diskstreamerRead_congr (errors : dev'.readError = dev.readError) (total : Nat) :
    ∀ (pos : Nat), pos < 2 ^ 31 →
      (∀ i < total, dev'.sector (deviceLba disk ((pos + i) / viosSectorSize)) =
        dev.sector (deviceLba disk ((pos + i) / viosSectorSize))) →
      diskstreamerRead dev' ⟨pos, disk⟩ total = diskstreamerRead dev ⟨pos, disk⟩ total := by
  induction total using Nat.strongRecOn with
  | ind total ih =>
    intro pos posFits same
    by_cases reachFits : pos % viosSectorSize + total < 2 ^ 31
    · by_cases readable : SectorReadable dev disk (pos / viosSectorSize)
      · have chunk := firstChunk_le pos total
        rw [diskstreamerRead_step posFits reachFits readable,
          diskstreamerRead_step posFits reachFits ((sectorReadable_congr errors _).mpr readable),
          diskBytes_congr fun i inChunk => same i (Nat.lt_of_lt_of_le inChunk chunk)]
        by_cases posOk : pos + firstChunk pos total < 2 ^ 31
        · rw [if_pos posOk, if_pos posOk]
          by_cases reaches : viosSectorSize ≤ pos % viosSectorSize + total
          · have shorter : total - firstChunk pos total < total := by
              have small : pos % viosSectorSize < viosSectorSize := Nat.mod_lt _ (by decide)
              rw [firstChunk, if_pos reaches]
              omega
            rw [if_pos reaches, if_pos reaches, ih _ shorter (pos + firstChunk pos total) posOk fun i inRest => by
              rw [Nat.add_assoc]
              exact same _ (by omega)]
          · rw [if_neg reaches, if_neg reaches]
        · rw [if_neg posOk, if_neg posOk]
      · rw [diskstreamerRead_unreadable posFits reachFits readable,
          diskstreamerRead_unreadable posFits reachFits fun other =>
            readable ((sectorReadable_congr errors _).mp other)]
    · have offset := Nat.mod_le pos viosSectorSize
      rw [diskstreamerRead_overflows posFits (by omega), diskstreamerRead_overflows posFits (by omega)]

end Read

end ViOS.Storage
