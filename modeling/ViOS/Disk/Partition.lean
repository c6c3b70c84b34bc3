import ViOS.Disk.Streamer
import Mathlib.Data.UInt

/-! # The sectors of a partition

A partition is a disk of its own, with the bounds of its entry in the partition table.
The bounds are 64-bit numbers on the disk, `int` parameters of `disk_create_new` and
`size_t` fields of the disk; a sector then reaches the device as 28 bits.  `fat16.c` and
every other user of a partition work through streams, so the runs here are arbitrary
sequences of stream calls, with any number of streams.

* `partitionDisk` — what `gpt_mount_partitions` makes of an entry.
* `diskstreamerReadCommands`, `diskstreamerWriteCommands` — the commands a call sends.
* `Confined` — the bounds that survive the narrowing.
* `partitionIsolated_iff_confined` — no run leaves the partition just when they do.
-/

namespace ViOS.Storage

/-! ## The disk of a partition -/

/-- The fields of `struct gpt_partition_entry` that bound the partition. -/
structure GptPartitionEntry where
  startingLba : UInt64
  endingLba : UInt64
  deriving DecidableEq, Repr

/-- A bound on its way through the `int` parameter of `disk_create_new` into a `size_t` field. -/
def lbaField (lba : Nat) : Nat := (asInt (lba % 2 ^ 32) % addressSpace).toNat

/-- The virtual disk of `gpt_mount_partitions`. -/
def partitionDisk (entry : GptPartitionEntry) : Disk :=
  ⟨lbaField entry.startingLba.toNat, lbaField entry.endingLba.toNat⟩

/-! ## The commands of a stream call -/

/-- A command sent to the device, with the sector in its task file. -/
inductive AtaCommand where
  | read (address : Nat)
  | write (address : Nat)
  deriving DecidableEq, Repr

def AtaCommand.address : AtaCommand → Nat
  | .read address | .write address => address

/-- The command of `disk_read_block`. -/
def readBlockCommands (disk : Disk) (lba : Nat) : List AtaCommand :=
  if blockAllowed disk lba then [.read (deviceLba disk lba)] else []

/-- The command of `disk_write_block`. -/
def writeBlockCommands (disk : Disk) (lba : Nat) : List AtaCommand :=
  if blockAllowed disk lba then [.write (deviceLba disk lba)] else []

/-- The commands of `diskstreamer_read`. -/
def diskstreamerReadCommands (dev : Device) (stream : DiskStream) (total : Nat) : List AtaCommand :=
  let sector := stream.pos.tdiv viosSectorSize
  let offset := stream.pos.tmod viosSectorSize
  if !fitsInt (offset + total) then []
  else
    let overflow : Bool := (viosSectorSize : Int) ≤ offset + total
    let sent := readBlockCommands stream.disk (toUInt32 sector)
    match diskReadBlock dev stream.disk (toUInt32 sector) with
    | .error _ => sent
    | .ok buf =>
      let count := chunkLength offset overflow total
      match copyOut buf offset count with
      | none => sent
      | some _ =>
        if !fitsInt (stream.pos + count) then sent
        else if _h : overflow = true then
          sent ++ diskstreamerReadCommands dev { stream with pos := stream.pos + count } (total - count)
        else sent
termination_by total
decreasing_by exact chunk_shorter _ _ (of_decide_eq_true _h)

/-- The commands of `diskstreamer_write`. -/
def diskstreamerWriteCommands (garbage : Nat → Sector) (depth : Nat) (dev : Device)
    (stream : DiskStream) (data : List UInt8) : List AtaCommand :=
  let sector := stream.pos.tdiv viosSectorSize
  let offset := stream.pos.tmod viosSectorSize
  if !fitsInt (offset + data.length) then []
  else
    let overflow : Bool := (viosSectorSize : Int) ≤ offset + data.length
    let reads := readsFirst offset overflow data.length
    let sent := if reads then readBlockCommands stream.disk (toUInt32 sector) else []
    let buf := if reads then diskReadBlock dev stream.disk (toUInt32 sector) else .ok (garbage depth)
    match buf with
    | .error _ => sent
    | .ok buf =>
      let count := chunkLength offset overflow data.length
      match copyIn buf offset (data.take count) with
      | none => sent
      | some buf =>
        let sent := sent ++ writeBlockCommands stream.disk (toUInt32 sector)
        match diskWriteBlock dev stream.disk (toUInt32 sector) buf with
        | .error _ => sent
        | .ok dev =>
          if !fitsInt (stream.pos + count) then sent
          else if _h : overflow = true then
            sent ++ diskstreamerWriteCommands garbage (depth + 1) dev
              { stream with pos := stream.pos + count } (data.drop count)
          else sent
termination_by data.length
decreasing_by
  rw [List.length_drop]
  exact chunk_shorter _ _ (of_decide_eq_true _h)

/-! ## Runs -/

/-- The device, and the positions of the streams on the partition. -/
structure PartitionState where
  dev : Device
  pos : Nat → Int32

/-- A call on one of the streams.  The lengths are `int`; a negative one copies nothing and moves the
position back. -/
inductive StreamCall where
  | seek (stream : Nat) (pos : Int32)
  | read (stream : Nat) (total : Int32)
  | write (stream : Nat) (total : Int32) (bytes : Nat → UInt8)

/-- The position after a call of a negative length. -/
def moveBack (pos total : Int32) : Option Int32 :=
  if fitsInt (pos.toInt + total.toInt) then some (.ofInt (pos.toInt + total.toInt)) else none

/-- `diskstreamer_read` with a negative length. -/
def readBackwards (disk : Disk) (state : PartitionState) (stream : Nat) (total : Int32) :
    List AtaCommand × Option PartitionState :=
  let pos := state.pos stream
  let lba := toUInt32 (pos.toInt.tdiv viosSectorSize)
  if !fitsInt (pos.toInt.tmod viosSectorSize + total.toInt) then ([], none)
  else
    match diskReadBlock state.dev disk lba with
    | .error _ => (readBlockCommands disk lba, some state)
    | .ok _ => (readBlockCommands disk lba, (moveBack pos total).map fun pos =>
        { state with pos := Function.update state.pos stream pos })

/-- `diskstreamer_write` with a negative length: it writes the buffer as it is. -/
def writeBackwards (garbage : Sector) (disk : Disk) (state : PartitionState) (stream : Nat)
    (total : Int32) : List AtaCommand × Option PartitionState :=
  let pos := state.pos stream
  let lba := toUInt32 (pos.toInt.tdiv viosSectorSize)
  let offset := pos.toInt.tmod viosSectorSize
  if !fitsInt (offset + total.toInt) then ([], none)
  else
    let sent := if offset ≠ 0 then readBlockCommands disk lba else []
    let buf := if offset ≠ 0 then diskReadBlock state.dev disk lba else .ok garbage
    match buf with
    | .error _ => (sent, some state)
    | .ok buf =>
      let sent := sent ++ writeBlockCommands disk lba
      match diskWriteBlock state.dev disk lba buf with
      | .error _ => (sent, some state)
      | .ok dev => (sent, (moveBack pos total).map fun pos =>
          ⟨dev, Function.update state.pos stream pos⟩)

/-- A call: the commands it sends and the state it leaves, unless its behaviour is undefined. -/
def streamCall (garbage : Nat → Sector) (disk : Disk) (state : PartitionState) :
    StreamCall → List AtaCommand × Option PartitionState
  | .seek stream pos => ([], some { state with pos := Function.update state.pos stream pos })
  | .read stream total =>
    if total < 0 then readBackwards disk state stream total
    else
      let start : DiskStream := ⟨(state.pos stream).toInt, disk⟩
      let total := total.toInt.toNat
      (diskstreamerReadCommands state.dev start total,
        (diskstreamerRead state.dev start total).map fun (_, _, after) =>
          { state with pos := Function.update state.pos stream (.ofInt after.pos) })
  | .write stream total bytes =>
    if total < 0 then writeBackwards (garbage 0) disk state stream total
    else
      let start : DiskStream := ⟨(state.pos stream).toInt, disk⟩
      let data := (List.range total.toInt.toNat).map bytes
      (diskstreamerWriteCommands garbage 0 state.dev start data,
        (diskstreamerWrite garbage 0 state.dev start data).map fun (_, dev, after) =>
          ⟨dev, Function.update state.pos stream (.ofInt after.pos)⟩)

/-- The commands of a sequence of calls.  `garbage` gives the local buffers of each call. -/
def partitionRun (garbage : Nat → Nat → Sector) (disk : Disk) :
    PartitionState → List StreamCall → List AtaCommand
  | _, [] => []
  | state, call :: rest =>
    let (sent, after) := streamCall (garbage rest.length) disk state call
    match after with
    | none => sent
    | some state => sent ++ partitionRun garbage disk state rest

/-! ## Isolation -/

/-- The sector belongs to the partition. -/
def Inside (entry : GptPartitionEntry) (address : Nat) : Prop :=
  entry.startingLba.toNat ≤ address ∧ address ≤ entry.endingLba.toNat

/-- No command of a run is for a sector outside the partition, and no call changes one. -/
structure PartitionIsolated (entry : GptPartitionEntry) : Prop where
  commands : ∀ garbage state calls,
    ∀ command ∈ partitionRun garbage (partitionDisk entry) state calls, Inside entry command.address
  sectors : ∀ garbage state call after,
    (streamCall garbage (partitionDisk entry) state call).2 = some after →
    ∀ address, ¬ Inside entry address → after.dev.sector address = state.dev.sector address

/-- The bounds that survive: a stream reaches `2 ^ 22` sectors, an ATA command `2 ^ 28`.

* A partition that starts at sector 0 is not checked at all, so it must hold all sectors.
* A partition that starts among the first `2 ^ 28` sectors needs an end that is a positive `int` and
  must not be reachable past these sectors.
* Any other partition must not be reachable at all: no block of it passes the check. -/
def Confined (first last : Nat) : Prop :=
  if first = 0 then 2 ^ 28 ≤ last + 1
  else 0 < last % 2 ^ 32 ∧ last % 2 ^ 32 < 2 ^ 31 ∧
    if first < 2 ^ 28 then last % 2 ^ 32 ≤ 2 ^ 28 ∨ first + 2 ^ 22 ≤ 2 ^ 28
    else 0 < first % 2 ^ 32 ∧
      if first % 2 ^ 32 < 2 ^ 31 then last % 2 ^ 32 ≤ first % 2 ^ 32
      else first % 2 ^ 32 < 2 ^ 32 - 2 ^ 22 ∧ last % 2 ^ 32 + 2 ^ 22 ≤ first % 2 ^ 32

instance (first last : Nat) : Decidable (Confined first last) := by
  unfold Confined
  infer_instance

/-! ## The arithmetic of the bounds -/

/-- A bound as the disk keeps it: its low 32 bits, read as an `int`. -/
def Narrowed (lba field : Nat) : Prop :=
  (field = lba % 2 ^ 32 ∧ lba % 2 ^ 32 < 2 ^ 31) ∨
    (field = lba % 2 ^ 32 + (2 ^ 64 - 2 ^ 32) ∧ 2 ^ 31 ≤ lba % 2 ^ 32)

theorem lbaField_narrowed (lba : Nat) : Narrowed lba (lbaField lba) := by
  unfold Narrowed lbaField asInt addressSpace
  split <;> omega

/-- The check and the address, by the absolute sector number. -/
theorem blockAllowed_iff {disk : Disk} {lba absolute : Nat} (fits : absolute < 2 ^ 64)
    (sum : disk.startingLba + lba = absolute ∨ disk.startingLba + lba = absolute + 2 ^ 64) :
    deviceLba disk lba = absolute % 2 ^ 28 ∧ (blockAllowed disk lba = true ↔
      absolute + 1 ≤ disk.endingLba ∨ absolute + 1 = 2 ^ 64 ∨ disk.startingLba = 0 ∨
        disk.endingLba = 0) := by
  have reduced : (disk.startingLba + lba) % addressSpace = absolute := by
    unfold addressSpace
    omega
  constructor
  · rw [deviceLba, reduced, ataAddress, Nat.mod_mod_of_dvd absolute (by decide : 2 ^ 28 ∣ 2 ^ 32)]
  · simp only [blockAllowed, reduced, decide_eq_true_eq]
    unfold addressSpace
    by_cases wraps : absolute + 1 = 2 ^ 64
    · rw [wraps, Nat.mod_self]
      simp
    · rw [Nat.mod_eq_of_lt (by omega)]
      simp only [wraps, false_or]

/-- The sector numbers a stream can ask for. -/
def Reachable (lba : Nat) : Prop := lba < 2 ^ 22 ∨ (2 ^ 32 - 2 ^ 22 ≤ lba ∧ lba < 2 ^ 32)

section Bounds

variable {first last start ending : Nat} (narrowStart : Narrowed first start)
  (narrowEnd : Narrowed last ending)

include narrowStart narrowEnd

/-- Confined bounds keep every block that passes the check inside. -/
theorem inside_of_confined (confined : Confined first last) {lba absolute : Nat}
    (reachable : Reachable lba) (fits : absolute < 2 ^ 64)
    (sum : start + lba = absolute ∨ start + lba = absolute + 2 ^ 64)
    (passes : absolute + 1 ≤ ending ∨ absolute + 1 = 2 ^ 64 ∨ start = 0 ∨ ending = 0) :
    first ≤ absolute % 2 ^ 28 ∧ absolute % 2 ^ 28 ≤ last := by
  unfold Confined at confined
  unfold Reachable at reachable
  unfold Narrowed at narrowStart narrowEnd
  split at confined
  · omega
  · obtain ⟨positive, isInt, confined⟩ := confined
    have endingEq : ending = last % 2 ^ 32 := by omega
    split at confined
    · omega
    · obtain ⟨startNonzero, confined⟩ := confined
      exfalso
      split at confined
      · omega
      · omega

/-- Bounds that keep every block that passes the check inside are confined. -/
theorem confined_of_inside (inside : ∀ lba absolute, Reachable lba → absolute < 2 ^ 64 →
      (start + lba = absolute ∨ start + lba = absolute + 2 ^ 64) →
      (absolute + 1 ≤ ending ∨ absolute + 1 = 2 ^ 64 ∨ start = 0 ∨ ending = 0) →
      first ≤ absolute % 2 ^ 28 ∧ absolute % 2 ^ 28 ≤ last) : Confined first last := by
  unfold Reachable at inside
  unfold Narrowed at narrowStart narrowEnd
  unfold Confined
  split
  · rename_i zero
    have := inside (2 ^ 32 - 1) (2 ^ 32 - 1) (by omega) (by omega) (by omega) (by omega)
    omega
  · rename_i notZero
    -- a block before the start, when the end is no bound or reads as a negative number
    have isInt : 0 < last % 2 ^ 32 ∧ last % 2 ^ 32 < 2 ^ 31 := by
      by_contra noBound
      rcases narrowStart with ⟨startEq, _⟩ | ⟨startEq, _⟩
      · have := inside (2 ^ 32 - 1) (start + (2 ^ 32 - 1)) (by omega) (by omega) (by omega) (by omega)
        omega
      · have := inside (2 ^ 32 - 1) (first % 2 ^ 32 - 1) (by omega) (by omega) (by omega) (by omega)
        omega
    have endingEq : ending = last % 2 ^ 32 := by omega
    refine ⟨isInt.1, isInt.2, ?_⟩
    split
    · -- the block whose address is cut to zero
      by_contra reachesOver
      have := inside (2 ^ 28 - first) (2 ^ 28) (by omega) (by omega) (by omega) (by omega)
      omega
    · have startNonzero : 0 < first % 2 ^ 32 := by
        by_contra unchecked
        have := inside 0 start (by omega) (by omega) (by omega) (by omega)
        omega
      refine ⟨startNonzero, ?_⟩
      split
      · by_contra reachable
        have := inside 0 start (by omega) (by omega) (by omega) (by omega)
        omega
      · rename_i negative
        have startEq : start = first % 2 ^ 32 + (2 ^ 64 - 2 ^ 32) := by omega
        constructor
        · -- the block before the one where the sum starts again from zero
          by_contra wraps
          have := inside (2 ^ 32 - first % 2 ^ 32 - 1) (2 ^ 64 - 1) (by omega) (by omega) (by omega)
            (by omega)
          omega
        · by_contra reachable
          have := inside (2 ^ 32 - 2 ^ 22) (first % 2 ^ 32 - 2 ^ 22) (by omega) (by omega) (by omega)
            (by omega)
          omega

end Bounds

/-! ## The sectors a stream asks for -/

/-- The sector number of a stream position. -/
def lbaOf (pos : Int) : Nat := toUInt32 (pos.tdiv viosSectorSize)

theorem reachable_lbaOf {pos : Int} (fits : fitsInt pos = true) : Reachable (lbaOf pos) := by
  simp only [fitsInt, decide_eq_true_eq] at fits
  unfold lbaOf toUInt32 viosSectorSize Reachable
  rcases Int.le_total 0 pos with nonneg | negative
  · rw [Int.tdiv_eq_ediv_of_nonneg nonneg]
    omega
  · obtain ⟨n, rfl⟩ : ∃ n : Int, pos = -n := ⟨-pos, by omega⟩
    rw [Int.neg_tdiv, Int.tdiv_eq_ediv_of_nonneg (by omega)]
    omega

/-- The command is for a block a stream can ask for and that passes the check. -/
def SentFor (disk : Disk) (command : AtaCommand) : Prop :=
  ∃ lba, Reachable lba ∧ blockAllowed disk lba = true ∧ command.address = deviceLba disk lba

theorem readBlockCommands_sentFor {disk : Disk} {pos : Int} (fits : fitsInt pos = true) :
    ∀ command ∈ readBlockCommands disk (lbaOf pos), SentFor disk command := by
  intro command sent
  unfold readBlockCommands at sent
  split at sent
  · rename_i allowed
    obtain rfl := List.mem_singleton.mp sent
    exact ⟨lbaOf pos, reachable_lbaOf fits, allowed, rfl⟩
  · exact absurd sent List.not_mem_nil

theorem writeBlockCommands_sentFor {disk : Disk} {pos : Int} (fits : fitsInt pos = true) :
    ∀ command ∈ writeBlockCommands disk (lbaOf pos), SentFor disk command := by
  intro command sent
  unfold writeBlockCommands at sent
  split at sent
  · rename_i allowed
    obtain rfl := List.mem_singleton.mp sent
    exact ⟨lbaOf pos, reachable_lbaOf fits, allowed, rfl⟩
  · exact absurd sent List.not_mem_nil

/-- What a write sends before it writes. -/
theorem readFirstCommands_sentFor {disk : Disk} {pos : Int} (fits : fitsInt pos = true)
    (reads : Prop) [Decidable reads] :
    ∀ command ∈ (if reads then readBlockCommands disk (lbaOf pos) else []), SentFor disk command := by
  split
  · exact readBlockCommands_sentFor fits
  · exact fun command sent => absurd sent List.not_mem_nil

theorem mem_append_sentFor {disk : Disk} {before after : List AtaCommand}
    (first : ∀ command ∈ before, SentFor disk command)
    (second : ∀ command ∈ after, SentFor disk command) :
    ∀ command ∈ before ++ after, SentFor disk command :=
  fun command sent => (List.mem_append.mp sent).elim (first command) (second command)

/-- The position stays an `int` from one sector to the next. -/
theorem diskstreamerReadCommands_sentFor (dev : Device) (disk : Disk) (total : Nat) :
    ∀ pos : Int, fitsInt pos = true →
      ∀ command ∈ diskstreamerReadCommands dev ⟨pos, disk⟩ total, SentFor disk command := by
  induction total using Nat.strongRecOn with
  | ind total ih =>
    intro pos fits command sent
    have here := @readBlockCommands_sentFor disk pos fits
    rw [diskstreamerReadCommands] at sent
    simp only at sent
    split at sent
    · exact absurd sent List.not_mem_nil
    · split at sent
      · exact here command sent
      · split at sent
        · exact here command sent
        · split at sent
          · exact here command sent
          · rename_i nextFits
            split at sent
            · rename_i overflow
              rcases List.mem_append.mp sent with now | later
              · exact here command now
              · exact ih _ (chunk_shorter _ _ (of_decide_eq_true overflow)) _
                  (by simpa using nextFits) command later
            · exact here command sent

theorem diskstreamerWriteCommands_sentFor (garbage : Nat → Sector) (disk : Disk)
    (data : List UInt8) : ∀ (depth : Nat) (dev : Device) (pos : Int), fitsInt pos = true →
      ∀ command ∈ diskstreamerWriteCommands garbage depth dev ⟨pos, disk⟩ data,
        SentFor disk command := by
  induction hlen : data.length using Nat.strongRecOn generalizing data with
  | ind length ih =>
    subst hlen
    intro depth dev pos fits command sent
    rw [diskstreamerWriteCommands] at sent
    simp only at sent
    split at sent
    · exact absurd sent List.not_mem_nil
    · have before := @readFirstCommands_sentFor disk pos fits
        (readsFirst (pos.tmod viosSectorSize)
          ((viosSectorSize : Int) ≤ pos.tmod viosSectorSize + data.length) data.length = true)
      have here := mem_append_sentFor before (writeBlockCommands_sentFor fits)
      split at sent
      · exact before command sent
      · split at sent
        · exact before command sent
        · split at sent
          · exact here command sent
          · split at sent
            · exact here command sent
            · rename_i nextFits
              split at sent
              · rename_i overflow
                rcases List.mem_append.mp sent with now | later
                · exact here command now
                · refine ih _ ?_ _ rfl _ _ _ (by simpa using nextFits) command later
                  rw [List.length_drop]
                  exact chunk_shorter _ _ (of_decide_eq_true overflow)
              · exact here command sent

theorem fitsInt_toInt (pos : Int32) : fitsInt pos.toInt = true := by
  have lower := pos.le_toInt
  have upper := pos.toInt_lt
  simp only [fitsInt, decide_eq_true_eq]
  omega

theorem readBackwards_sentFor (disk : Disk) (state : PartitionState) (stream : Nat) (total : Int32) :
    ∀ command ∈ (readBackwards disk state stream total).1, SentFor disk command := by
  have here := @readBlockCommands_sentFor disk _ (fitsInt_toInt (state.pos stream))
  unfold readBackwards
  dsimp only
  split
  · exact fun command sent => absurd sent List.not_mem_nil
  · split
    · exact here
    · exact here

theorem writeBackwards_sentFor (garbage : Sector) (disk : Disk) (state : PartitionState)
    (stream : Nat) (total : Int32) :
    ∀ command ∈ (writeBackwards garbage disk state stream total).1, SentFor disk command := by
  have fits := fitsInt_toInt (state.pos stream)
  have before := @readFirstCommands_sentFor disk _ fits
    ((state.pos stream).toInt.tmod viosSectorSize ≠ 0)
  have here := mem_append_sentFor before (writeBlockCommands_sentFor fits)
  unfold writeBackwards
  dsimp only
  split
  · exact fun command sent => absurd sent List.not_mem_nil
  · split
    · exact before
    · split
      · exact here
      · exact here

theorem streamCall_sentFor (garbage : Nat → Sector) (disk : Disk) (state : PartitionState)
    (call : StreamCall) : ∀ command ∈ (streamCall garbage disk state call).1, SentFor disk command := by
  cases call with
  | seek stream pos => exact fun command sent => absurd sent List.not_mem_nil
  | read stream total =>
    unfold streamCall
    dsimp only
    split
    · exact readBackwards_sentFor disk state stream total
    · exact diskstreamerReadCommands_sentFor _ _ _ _ (fitsInt_toInt _)
  | write stream total bytes =>
    unfold streamCall
    dsimp only
    split
    · exact writeBackwards_sentFor _ disk state stream total
    · exact diskstreamerWriteCommands_sentFor _ _ _ _ _ _ (fitsInt_toInt _)

theorem partitionRun_sentFor (garbage : Nat → Nat → Sector) (disk : Disk) (calls : List StreamCall) :
    ∀ state, ∀ command ∈ partitionRun garbage disk state calls, SentFor disk command := by
  induction calls with
  | nil => exact fun state command sent => absurd sent List.not_mem_nil
  | cons call rest ih =>
    intro state
    have now := streamCall_sentFor (garbage rest.length) disk state call
    unfold partitionRun
    dsimp only
    split
    · exact now
    · exact mem_append_sentFor now (ih _)

/-! ## The sectors a call changes -/

/-- Only sectors that a write of the stream can be for have changed. -/
def ChangesReached (disk : Disk) (before after : Device) : Prop :=
  ∀ address, (∀ lba, Reachable lba → blockAllowed disk lba = true → deviceLba disk lba ≠ address) →
    after.sector address = before.sector address

theorem ChangesReached.refl (disk : Disk) (dev : Device) : ChangesReached disk dev dev :=
  fun _ _ => rfl

theorem ChangesReached.trans {disk : Disk} {first second third : Device}
    (before : ChangesReached disk first second) (after : ChangesReached disk second third) :
    ChangesReached disk first third :=
  fun address untouched => (after address untouched).trans (before address untouched)

theorem diskWriteBlock_changes {dev after : Device} {disk : Disk} {pos : Int} {buf : Sector}
    (fits : fitsInt pos = true) (written : diskWriteBlock dev disk (lbaOf pos) buf = .ok after) :
    ChangesReached disk dev after := by
  intro address untouched
  unfold diskWriteBlock at written
  split at written
  · rename_i allowed
    split at written
    · cases written
    · cases written
      exact Function.update_of_ne (untouched _ (reachable_lbaOf fits) allowed).symm _ _
  · cases written

theorem diskstreamerWrite_changes (garbage : Nat → Sector) (disk : Disk) (data : List UInt8) :
    ∀ (depth : Nat) (dev : Device) (pos res : Int) (after : Device) (stream : DiskStream),
      fitsInt pos = true →
      diskstreamerWrite garbage depth dev ⟨pos, disk⟩ data = some (res, after, stream) →
      ChangesReached disk dev after := by
  induction hlen : data.length using Nat.strongRecOn generalizing data with
  | ind length ih =>
    subst hlen
    intro depth dev pos res after stream fits result
    rw [diskstreamerWrite] at result
    simp only at result
    split at result
    · cases result
    · split at result
      · cases result
        exact .refl disk dev
      · split at result
        · cases result
        · split at result
          · cases result
            exact .refl disk dev
          · rename_i written
            have first := diskWriteBlock_changes fits written
            split at result
            · cases result
            · rename_i nextFits
              split at result
              · rename_i overflow
                refine first.trans (ih _ ?_ _ rfl _ _ _ _ _ _ (by simpa using nextFits) result)
                rw [List.length_drop]
                exact chunk_shorter _ _ (of_decide_eq_true overflow)
              · cases result
                exact first

theorem writeBackwards_changes {garbage : Sector} {disk : Disk} {state after : PartitionState}
    {stream : Nat} {total : Int32}
    (result : (writeBackwards garbage disk state stream total).2 = some after) :
    ChangesReached disk state.dev after.dev := by
  unfold writeBackwards at result
  dsimp only at result
  split at result
  · cases result
  · split at result
    · cases result
      exact .refl disk _
    · split at result
      · cases result
        exact .refl disk _
      · rename_i written
        obtain ⟨pos, -, rfl⟩ := Option.map_eq_some_iff.mp result
        exact diskWriteBlock_changes (fitsInt_toInt _) written

theorem readBackwards_dev {disk : Disk} {state after : PartitionState} {stream : Nat} {total : Int32}
    (result : (readBackwards disk state stream total).2 = some after) : after.dev = state.dev := by
  unfold readBackwards at result
  dsimp only at result
  split at result
  · cases result
  · split at result
    · cases result
      rfl
    · obtain ⟨pos, -, rfl⟩ := Option.map_eq_some_iff.mp result
      rfl

theorem streamCall_changes {garbage : Nat → Sector} {disk : Disk} {state after : PartitionState}
    {call : StreamCall} (result : (streamCall garbage disk state call).2 = some after) :
    ChangesReached disk state.dev after.dev := by
  cases call with
  | seek stream pos =>
    cases result
    exact .refl disk _
  | read stream total =>
    unfold streamCall at result
    dsimp only at result
    split at result
    · rw [readBackwards_dev result]
      exact .refl disk _
    · obtain ⟨_, -, rfl⟩ := Option.map_eq_some_iff.mp result
      exact .refl disk _
  | write stream total bytes =>
    unfold streamCall at result
    dsimp only at result
    split at result
    · exact writeBackwards_changes result
    · obtain ⟨_, written, rfl⟩ := Option.map_eq_some_iff.mp result
      exact diskstreamerWrite_changes _ _ _ _ _ _ _ _ _ (fitsInt_toInt _) written

/-! ## Every sector in reach is asked for -/

theorem exists_pos {lba : Nat} (reachable : Reachable lba) :
    ∃ pos : Int32, lbaOf pos.toInt = lba ∧ pos.toInt.tmod viosSectorSize = 0 := by
  unfold Reachable at reachable
  -- a sector number that reads as a negative `int` belongs to a negative position
  obtain ⟨sector, sectorEq, lower, upper⟩ : ∃ sector : Int,
      sector % 2 ^ 32 = lba ∧ -(2 ^ 22) ≤ sector ∧ sector < 2 ^ 22 := by
    rcases reachable with low | high
    · exact ⟨lba, by omega, by omega, by omega⟩
    · exact ⟨lba - 2 ^ 32, by omega, by omega, by omega⟩
  refine ⟨.ofInt (sector * viosSectorSize), ?_⟩
  have position : (Int32.ofInt (sector * viosSectorSize)).toInt = sector * viosSectorSize := by
    unfold viosSectorSize
    exact Int32.toInt_ofInt_of_le (by omega) (by omega)
  rw [position, Int.mul_tmod_left, lbaOf, Int.mul_tdiv_cancel _ (by decide), toUInt32, sectorEq]
  exact ⟨rfl, rfl⟩

/-- The first sector of a read is asked for, whatever becomes of the rest. -/
theorem mem_diskstreamerReadCommands {dev : Device} {disk : Disk} {pos : Int} {total : Nat}
    (fits : fitsInt (pos.tmod viosSectorSize + total) = true) {command : AtaCommand}
    (sent : command ∈ readBlockCommands disk (lbaOf pos)) :
    command ∈ diskstreamerReadCommands dev ⟨pos, disk⟩ total := by
  rw [diskstreamerReadCommands]
  simp only [fits, Bool.not_true, Bool.false_eq_true, if_false]
  split
  · exact sent
  · split
    · exact sent
    · split
      · exact sent
      · split
        · exact List.mem_append_left _ sent
        · exact sent

/-- A seek and a read of one byte. -/
def probe (pos : Int32) : List StreamCall := [.seek 0 pos, .read 0 1]

theorem mem_partitionRun_probe (garbage : Nat → Nat → Sector) (disk : Disk) (state : PartitionState)
    {lba : Nat} {pos : Int32} (reads : lbaOf pos.toInt = lba)
    (aligned : pos.toInt.tmod viosSectorSize = 0) (allowed : blockAllowed disk lba = true) :
    .read (deviceLba disk lba) ∈ partitionRun garbage disk state (probe pos) := by
  have here : .read (deviceLba disk lba) ∈ (streamCall (garbage 0) disk
      { state with pos := Function.update state.pos 0 pos } (.read 0 1)).1 := by
    have notNegative : ¬ (1 : Int32) < 0 := by decide
    simp only [streamCall, notNegative, if_false, Function.update_self]
    refine mem_diskstreamerReadCommands ?_ ?_
    · rw [aligned]
      decide
    · rw [reads, readBlockCommands, if_pos allowed]
      exact List.mem_singleton_self _
  simp only [probe, partitionRun, streamCall, List.nil_append] at here ⊢
  split
  · exact here
  · exact List.mem_append_left _ here

/-! ## Which partitions are isolated -/

/-- The absolute sector number of a block. -/
theorem exists_absolute (start lba : Nat) (startFits : start < 2 ^ 64) (lbaFits : lba < 2 ^ 32) :
    ∃ absolute < 2 ^ 64, start + lba = absolute ∨ start + lba = absolute + 2 ^ 64 := by
  by_cases wraps : start + lba < 2 ^ 64
  · exact ⟨start + lba, wraps, .inl rfl⟩
  · exact ⟨start + lba - 2 ^ 64, by omega, .inr (by omega)⟩

theorem Reachable.lt {lba : Nat} (reachable : Reachable lba) : lba < 2 ^ 32 := by
  unfold Reachable at reachable
  omega

theorem lbaField_lt (lba : Nat) : lbaField lba < 2 ^ 64 := by
  have narrowed := lbaField_narrowed lba
  unfold Narrowed at narrowed
  omega

/-- Every block that a stream can ask for and that passes the check belongs to the partition. -/
def AllowedInside (entry : GptPartitionEntry) : Prop :=
  ∀ lba, Reachable lba → blockAllowed (partitionDisk entry) lba = true →
    Inside entry (deviceLba (partitionDisk entry) lba)

theorem allowedInside_iff_confined (entry : GptPartitionEntry) :
    AllowedInside entry ↔ Confined entry.startingLba.toNat entry.endingLba.toNat := by
  have narrowStart := lbaField_narrowed entry.startingLba.toNat
  have narrowEnd := lbaField_narrowed entry.endingLba.toNat
  constructor
  · intro inside
    refine confined_of_inside narrowStart narrowEnd ?_
    intro lba absolute reachable fits sum passes
    obtain ⟨address, allowed⟩ := @blockAllowed_iff (partitionDisk entry) lba absolute fits sum
    have result := inside lba reachable (allowed.mpr passes)
    rwa [address] at result
  · intro confined lba reachable allowed
    obtain ⟨absolute, fits, sum⟩ := exists_absolute (lbaField entry.startingLba.toNat) lba
      (lbaField_lt _) reachable.lt
    obtain ⟨address, passes⟩ := @blockAllowed_iff (partitionDisk entry) lba absolute fits sum
    unfold Inside
    rw [address]
    exact inside_of_confined narrowStart narrowEnd confined reachable fits sum (passes.mp allowed)

/-- Streams on a partition stay in it, in every run, just when its bounds are confined. -/
theorem partitionIsolated_iff_confined (entry : GptPartitionEntry) :
    PartitionIsolated entry ↔ Confined entry.startingLba.toNat entry.endingLba.toNat := by
  rw [← allowedInside_iff_confined]
  constructor
  · intro isolated lba reachable allowed
    obtain ⟨pos, reads, aligned⟩ := exists_pos reachable
    have sent := mem_partitionRun_probe (fun _ _ _ => 0) (partitionDisk entry)
      ⟨blankDevice, fun _ => 0⟩ reads aligned allowed
    exact isolated.commands _ _ _ _ sent
  · intro inside
    constructor
    · intro garbage state calls command sent
      obtain ⟨lba, reachable, allowed, address⟩ := partitionRun_sentFor garbage _ calls state command sent
      rw [address]
      exact inside lba reachable allowed
    · intro garbage state call after result address outside
      refine streamCall_changes result address fun lba reachable allowed same => outside ?_
      rw [← same]
      exact inside lba reachable allowed

/-- A partition that starts past the sectors of a 28-bit address. -/
def farPartition : GptPartitionEntry := ⟨2 ^ 28, 2 ^ 28 + 2 ^ 20⟩

/-- Its first sector is read from the first sector of the device. -/
theorem farPartition_not_isolated : ¬ PartitionIsolated farPartition := by
  intro isolated
  have sent := mem_partitionRun_probe (fun _ _ _ => 0) (partitionDisk farPartition)
    ⟨blankDevice, fun _ => 0⟩ (show lbaOf (0 : Int32).toInt = 0 by decide) (by decide) (by decide)
  exact absurd (isolated.commands _ _ _ _ sent) (by unfold Inside; decide)

end ViOS.Storage
