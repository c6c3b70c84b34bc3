import ViOS.Config
import Mathlib.Data.List.Basic
import Mathlib.Logic.Function.Basic
import Mathlib.Tactic.Basic

/-! # The disk and its byte stream

`disk.c` reads and writes 512-byte sectors of an ATA device through a window of
logical block addresses; `streamer.c` puts a byte position on top of it.  Every
caller of the block functions asks for one sector, so they are modelled for
`total = 1`.

The C type `int` is modelled by `Int`; where the program's behaviour is undefined
(a signed sum that overflows, an index outside a local buffer) the result is
`none`.  A local buffer starts with arbitrary contents, which the stream functions
take as an argument, one buffer for each level of their recursion.

* `diskReadBlock`, `diskWriteBlock`, `diskstreamerRead`, `diskstreamerWrite` — the code.
* `WriteExact` — what the stream's header promises of a write.
* `diskstreamerWrite_exact_iff` — which writes keep the promise.
-/

namespace ViOS.Storage

/-! ## The device -/

/-- The contents of a sector, or of a 512-byte local buffer. -/
abbrev Sector := Nat → UInt8

/-- An ATA device: its sectors, and the addresses at which it raises the error bit. -/
structure Device where
  sector : Nat → Sector
  readError : Nat → Bool
  writeError : Nat → Bool

/-- The fields of `struct disk` that bound the accesses to it. -/
structure Disk where
  startingLba : Nat
  endingLba : Nat
  deriving DecidableEq, Repr

/-- The sector a command addresses: an `int` sent as 28 bits through the task file. -/
def ataAddress (lba : Nat) : Nat := lba % 2 ^ 32 % 2 ^ 28

/-- The bounds check shared by `disk_read_block` and `disk_write_block`.  It is skipped
when either bound is zero. -/
def blockAllowed (disk : Disk) (lba : Nat) : Bool :=
  let absoluteLba := (disk.startingLba + lba) % addressSpace
  let absoluteEndingLba := (absoluteLba + 1) % addressSpace
  absoluteEndingLba ≤ disk.endingLba ∨ disk.startingLba = 0 ∨ disk.endingLba = 0

/-- The device sector behind sector `lba` of a disk. -/
def deviceLba (disk : Disk) (lba : Nat) : Nat :=
  ataAddress ((disk.startingLba + lba) % addressSpace)

/-- `disk_read_block` of one sector. -/
def diskReadBlock (dev : Device) (disk : Disk) (lba : Nat) : Except Int Sector :=
  if blockAllowed disk lba then
    if dev.readError (deviceLba disk lba) then .error (-eio)
    else .ok (dev.sector (deviceLba disk lba))
  else .error (-eio)

/-- `disk_write_block` of one sector. -/
def diskWriteBlock (dev : Device) (disk : Disk) (lba : Nat) (buf : Sector) : Except Int Device :=
  if blockAllowed disk lba then
    if dev.writeError (deviceLba disk lba) then .error (-eio)
    else .ok { dev with sector := Function.update dev.sector (deviceLba disk lba) buf }
  else .error (-eio)

/-! ## The stream -/

/-- `struct disk_stream`. -/
structure DiskStream where
  pos : Int
  disk : Disk

/-- The value fits the C type `int`. -/
def fitsInt (value : Int) : Bool := -(2 ^ 31) ≤ value ∧ value < 2 ^ 31

/-- The argument of an `unsigned int` parameter. -/
def toUInt32 (value : Int) : Nat := (value % 2 ^ 32).toNat

/-- Bytes copied into a buffer from index `offset` on. -/
def bufferWrite (buf : Sector) (offset : Nat) (data : List UInt8) : Sector := fun i =>
  if offset ≤ i then (data[i - offset]?).getD (buf i) else buf i

/-- The copying loop of `diskstreamer_write`; undefined when it leaves the buffer. -/
def copyIn (buf : Sector) (offset : Int) (data : List UInt8) : Option Sector :=
  if data = [] then some buf
  else if 0 ≤ offset ∧ offset + data.length ≤ viosSectorSize then
    some (bufferWrite buf offset.toNat data)
  else none

/-- The copying loop of `diskstreamer_read`. -/
def copyOut (buf : Sector) (offset : Int) (count : Nat) : Option (List UInt8) :=
  if count = 0 then some []
  else if 0 ≤ offset ∧ offset + count ≤ viosSectorSize then
    some ((List.range count).map fun i => buf (offset.toNat + i))
  else none

/-- `diskstreamer_seek`. -/
def diskstreamerSeek (stream : DiskStream) (pos : Int) : DiskStream := { stream with pos := pos }

/-- The decision of `diskstreamer_write` to read a sector before changing it. -/
def readsFirst (offset : Int) (overflow : Bool) (total : Nat) : Bool :=
  offset ≠ 0 ∨ (overflow ∧ total < viosSectorSize)

/-- The part of the data that goes into the first sector. -/
def chunkLength (offset : Int) (overflow : Bool) (total : Nat) : Nat :=
  if overflow then ((viosSectorSize : Int) - offset).toNat else total

/-- A chunk that fills the rest of a sector is not empty, so the recursion ends. -/
theorem chunk_shorter (pos : Int) (total : Nat)
    (reaches : (viosSectorSize : Int) ≤ pos.tmod viosSectorSize + total) :
    total - chunkLength (pos.tmod viosSectorSize)
      (decide ((viosSectorSize : Int) ≤ pos.tmod viosSectorSize + total)) total < total := by
  have small : pos.tmod viosSectorSize < viosSectorSize := Int.tmod_lt_of_pos _ (by decide)
  rw [chunkLength, decide_eq_true reaches, if_pos rfl]
  omega

/-- `diskstreamer_write`: the status, the device and the stream.  `garbage depth` is what
the local buffer holds at the given depth of the recursion. -/
def diskstreamerWrite (garbage : Nat → Sector) (depth : Nat) (dev : Device) (stream : DiskStream)
    (data : List UInt8) : Option (Int × Device × DiskStream) :=
  let sector := stream.pos.tdiv viosSectorSize
  let offset := stream.pos.tmod viosSectorSize
  if !fitsInt (offset + data.length) then none
  else
    let overflow : Bool := (viosSectorSize : Int) ≤ offset + data.length
    let buf := if readsFirst offset overflow data.length then
        diskReadBlock dev stream.disk (toUInt32 sector)
      else .ok (garbage depth)
    match buf with
    | .error res => some (res, dev, stream)
    | .ok buf =>
      let count := chunkLength offset overflow data.length
      match copyIn buf offset (data.take count) with
      | none => none
      | some buf =>
        match diskWriteBlock dev stream.disk (toUInt32 sector) buf with
        | .error res => some (res, dev, stream)
        | .ok dev =>
          if !fitsInt (stream.pos + count) then none
          else
            let stream := { stream with pos := stream.pos + count }
            if h : overflow = true then
              diskstreamerWrite garbage (depth + 1) dev stream (data.drop count)
            else some (0, dev, stream)
termination_by data.length
decreasing_by
  rw [List.length_drop]
  exact chunk_shorter _ _ (of_decide_eq_true h)

/-- `diskstreamer_read`: the status, the bytes stored at the output pointer and the stream. -/
def diskstreamerRead (dev : Device) (stream : DiskStream) (total : Nat) :
    Option (Int × List UInt8 × DiskStream) :=
  let sector := stream.pos.tdiv viosSectorSize
  let offset := stream.pos.tmod viosSectorSize
  if !fitsInt (offset + total) then none
  else
    let overflow : Bool := (viosSectorSize : Int) ≤ offset + total
    match diskReadBlock dev stream.disk (toUInt32 sector) with
    | .error res => some (res, [], stream)
    | .ok buf =>
      let count := chunkLength offset overflow total
      match copyOut buf offset count with
      | none => none
      | some out =>
        if !fitsInt (stream.pos + count) then none
        else
          let stream := { stream with pos := stream.pos + count }
          if _h : overflow = true then
            match diskstreamerRead dev stream (total - count) with
            | none => none
            | some (res, rest, stream) => some (res, out ++ rest, stream)
          else some (0, out, stream)
termination_by total
decreasing_by exact chunk_shorter _ _ (of_decide_eq_true _h)

/-! ## What a write should do -/

/-- The byte of the device behind a byte position of the disk. -/
def diskByte (dev : Device) (disk : Disk) (position : Nat) : UInt8 :=
  dev.sector (deviceLba disk (position / viosSectorSize)) (position % viosSectorSize)

/-- The write returned 0 and advanced the stream by the length of the data; the bytes at
`[pos, pos + data.length)` are the data, and no other byte of the device changed. -/
def WriteExact (dev : Device) (disk : Disk) (pos : Nat) (data : List UInt8) :
    Option (Int × Device × DiskStream) → Prop
  | none => False
  | some (res, dev', stream) =>
    res = 0 ∧ stream.pos = pos + data.length ∧ stream.disk = disk ∧
      (∀ i, (inData : i < data.length) → diskByte dev' disk (pos + i) = data[i]) ∧
      ∀ lba off, off < viosSectorSize →
        (∀ i < data.length, lba = deviceLba disk ((pos + i) / viosSectorSize) →
          off ≠ (pos + i) % viosSectorSize) →
        dev'.sector lba off = dev.sector lba off

/-- Both block functions succeed on a sector of the disk. -/
def SectorAccessible (dev : Device) (disk : Disk) (lba : Nat) : Prop :=
  (∃ buf, diskReadBlock dev disk lba = .ok buf) ∧ ∀ buf, ∃ dev', diskWriteBlock dev disk lba buf = .ok dev'

theorem sectorAccessible_iff {dev : Device} {disk : Disk} {lba : Nat} :
    SectorAccessible dev disk lba ↔ blockAllowed disk lba = true ∧
      dev.readError (deviceLba disk lba) = false ∧ dev.writeError (deviceLba disk lba) = false := by
  unfold SectorAccessible diskReadBlock diskWriteBlock
  cases blockAllowed disk lba <;> cases dev.readError (deviceLba disk lba) <;>
    cases dev.writeError (deviceLba disk lba) <;> simp

/-! ## One level of the recursion -/

theorem copyIn_eq {buf : Sector} {offset : Nat} {data : List UInt8}
    (fits : offset + data.length ≤ viosSectorSize) :
    copyIn buf offset data = some (bufferWrite buf offset data) := by
  by_cases empty : data = []
  · subst empty
    have unchanged : bufferWrite buf offset [] = buf := by
      funext i
      simp [bufferWrite]
    rw [copyIn, if_pos rfl, unchanged]
  · have inside : (0 : Int) ≤ offset ∧ (offset : Int) + data.length ≤ viosSectorSize := by omega
    rw [copyIn, if_neg empty, if_pos inside, Int.toNat_natCast]

/-- The length of the first chunk of a write at `pos`. -/
def firstChunk (pos total : Nat) : Nat :=
  if viosSectorSize ≤ pos % viosSectorSize + total then viosSectorSize - pos % viosSectorSize else total

/-- What the first sector's buffer holds before the data is copied into it. -/
def bufferBefore (garbage : Sector) (dev : Device) (disk : Disk) (pos : Nat) : Sector :=
  -- an aligned start reaches the end of the sector only with a full sector of data, so it never reads
  if pos % viosSectorSize = 0 then garbage else dev.sector (deviceLba disk (pos / viosSectorSize))

/-- The device after the first chunk is written. -/
def deviceAfterChunk (garbage : Sector) (dev : Device) (disk : Disk) (pos : Nat) (data : List UInt8) :
    Device :=
  let buf := bufferWrite (bufferBefore garbage dev disk pos) (pos % viosSectorSize)
    (data.take (firstChunk pos data.length))
  { dev with sector := Function.update dev.sector (deviceLba disk (pos / viosSectorSize)) buf }

theorem chunkLength_eq_firstChunk (pos total : Nat) :
    chunkLength ((pos % viosSectorSize : Nat) : Int)
      (decide (viosSectorSize ≤ pos % viosSectorSize + total)) total = firstChunk pos total := by
  have small : pos % viosSectorSize < viosSectorSize := Nat.mod_lt _ (by decide)
  unfold chunkLength firstChunk
  by_cases reaches : viosSectorSize ≤ pos % viosSectorSize + total
  · simp only [reaches, decide_true, if_true]
    omega
  · simp [reaches]

theorem firstChunk_inside (pos : Nat) (data : List UInt8) :
    pos % viosSectorSize + (data.take (firstChunk pos data.length)).length ≤ viosSectorSize := by
  have small : pos % viosSectorSize < viosSectorSize := Nat.mod_lt _ (by decide)
  rw [List.length_take, firstChunk]
  split <;> omega

/-- The buffer of the first chunk is read from the device exactly when the start is unaligned. -/
theorem readsFirst_eq_bufferBefore {dev : Device} {disk : Disk} {pos : Nat} (garbage : Sector)
    (total : Nat) (accessible : SectorAccessible dev disk (pos / viosSectorSize)) :
    (if readsFirst ((pos % viosSectorSize : Nat) : Int)
      (decide (viosSectorSize ≤ pos % viosSectorSize + total)) total = true then
        diskReadBlock dev disk (pos / viosSectorSize) else .ok garbage) =
      (.ok (bufferBefore garbage dev disk pos) : Except Int Sector) := by
  obtain ⟨allowed, readable, -⟩ := sectorAccessible_iff.mp accessible
  by_cases aligned : pos % viosSectorSize = 0
  · have notRead : readsFirst ((pos % viosSectorSize : Nat) : Int)
        (decide (viosSectorSize ≤ pos % viosSectorSize + total)) total = false := by
      simp [readsFirst, aligned]
    rw [notRead]
    simp [bufferBefore, aligned]
  · have read : readsFirst ((pos % viosSectorSize : Nat) : Int)
        (decide (viosSectorSize ≤ pos % viosSectorSize + total)) total = true := by
      simp only [readsFirst, decide_eq_true_eq]
      left
      omega
    rw [if_pos read]
    simp [bufferBefore, aligned, diskReadBlock, allowed, readable]

theorem diskstreamerWrite_step (garbage : Nat → Sector) (depth : Nat) (dev : Device) (disk : Disk)
    (pos : Nat) (data : List UInt8) (posFits : pos < 2 ^ 31)
    (reachFits : pos % viosSectorSize + data.length < 2 ^ 31)
    (accessible : SectorAccessible dev disk (pos / viosSectorSize)) :
    diskstreamerWrite garbage depth dev ⟨pos, disk⟩ data =
      if pos + firstChunk pos data.length < 2 ^ 31 then
        if viosSectorSize ≤ pos % viosSectorSize + data.length then
          diskstreamerWrite garbage (depth + 1) (deviceAfterChunk (garbage depth) dev disk pos data)
            ⟨(pos + firstChunk pos data.length : Nat), disk⟩ (data.drop (firstChunk pos data.length))
        else some (0, deviceAfterChunk (garbage depth) dev disk pos data,
          ⟨(pos + firstChunk pos data.length : Nat), disk⟩)
      else none := by
  obtain ⟨allowed, -, writable⟩ := sectorAccessible_iff.mp accessible
  -- A position is not negative, so C's division and remainder are those of Nat.
  have sector : (pos : Int).tdiv viosSectorSize = (pos / viosSectorSize : Nat) := by
    rw [Int.tdiv_eq_ediv_of_nonneg (by omega)]
    rfl
  have offset : (pos : Int).tmod viosSectorSize = (pos % viosSectorSize : Nat) := by
    rw [Int.tmod_eq_emod_of_nonneg (by omega)]
    rfl
  have index : toUInt32 ((pos / viosSectorSize : Nat) : Int) = pos / viosSectorSize := by
    unfold toUInt32 viosSectorSize
    omega
  have overflow : decide ((viosSectorSize : Int) ≤ (pos % viosSectorSize : Nat) + (data.length : Int)) =
      decide (viosSectorSize ≤ pos % viosSectorSize + data.length) := by
    rw [decide_eq_decide]
    omega
  have reachOk : fitsInt (((pos % viosSectorSize : Nat) : Int) + data.length) = true := by
    simp only [fitsInt, decide_eq_true_eq]
    omega
  rw [diskstreamerWrite]
  simp only [sector, offset, index, overflow, chunkLength_eq_firstChunk,
    readsFirst_eq_bufferBefore (garbage depth) data.length accessible, reachOk, Bool.not_true,
    Bool.false_eq_true, if_false, copyIn_eq (firstChunk_inside pos data)]
  simp only [diskWriteBlock, allowed, writable, if_true, Bool.false_eq_true, if_false]
  by_cases posOk : pos + firstChunk pos data.length < 2 ^ 31
  · have fits : fitsInt ((pos : Int) + firstChunk pos data.length) = true := by
      simp only [fitsInt, decide_eq_true_eq]
      omega
    simp only [fits, Bool.not_true, Bool.false_eq_true, if_false, posOk, if_true]
    by_cases reaches : viosSectorSize ≤ pos % viosSectorSize + data.length
    · simp only [reaches, decide_true, dite_true, if_true]
      rfl
    · simp only [reaches, decide_false, Bool.false_eq_true, dite_false, if_false]
      rfl
  · -- stream->pos would leave the range of an int
    have overflows : fitsInt ((pos : Int) + firstChunk pos data.length) = false := by
      simp only [fitsInt, decide_eq_false_iff_not]
      omega
    simp only [overflows, Bool.not_false, if_true, posOk, if_false]

theorem sectorAccessible_afterChunk {garbage : Sector} {dev : Device} {disk : Disk} {pos lba : Nat}
    {data : List UInt8} (accessible : SectorAccessible dev disk lba) :
    SectorAccessible (deviceAfterChunk garbage dev disk pos data) disk lba := by
  rw [sectorAccessible_iff] at accessible ⊢
  exact accessible

theorem bufferWrite_inside (buf : Sector) {offset i : Nat} {data : List UInt8}
    (inData : i < data.length) : bufferWrite buf offset data (offset + i) = data[i] := by
  simp [bufferWrite, inData]

theorem bufferWrite_outside (buf : Sector) {offset i : Nat} {data : List UInt8}
    (outside : i < offset ∨ offset + data.length ≤ i) : bufferWrite buf offset data i = buf i := by
  unfold bufferWrite
  split
  · rw [List.getElem?_eq_none (by omega)]
    rfl
  · rfl

/-- Sectors that an `int` position can reach lie behind different device sectors. -/
theorem deviceLba_injective {disk : Disk} {k l : Nat} (kSmall : k < 2 ^ 28) (lSmall : l < 2 ^ 28)
    (same : deviceLba disk k = deviceLba disk l) : k = l := by
  unfold deviceLba ataAddress addressSpace at same
  omega

/-! ## Writes that stay strictly inside a sector -/

theorem diskstreamerWrite_inside (garbage : Nat → Sector) (dev : Device) (disk : Disk) (pos : Nat)
    (data : List UInt8) (posFits : pos < 2 ^ 31)
    (accessible : SectorAccessible dev disk (pos / viosSectorSize))
    (unaligned : pos % viosSectorSize ≠ 0)
    (inside : pos % viosSectorSize + data.length < viosSectorSize) :
    WriteExact dev disk pos data (diskstreamerWrite garbage 0 dev ⟨pos, disk⟩ data) := by
  have chunk : firstChunk pos data.length = data.length := if_neg (by omega)
  have reachFits : pos % viosSectorSize + data.length < 2 ^ 31 :=
    Nat.lt_trans inside (by decide)
  have endFits : pos + data.length < 2 ^ 31 := by
    unfold viosSectorSize at inside
    omega
  rw [diskstreamerWrite_step garbage 0 dev disk pos data posFits reachFits accessible, chunk,
    if_pos endFits, if_neg (by omega)]
  have before : bufferBefore (garbage 0) dev disk pos =
      dev.sector (deviceLba disk (pos / viosSectorSize)) := if_neg unaligned
  refine ⟨rfl, by push_cast; rfl, rfl, ?written, ?kept⟩
  case written =>
    intro i inData
    have sameSector : (pos + i) / viosSectorSize = pos / viosSectorSize := by
      unfold viosSectorSize at inside ⊢
      omega
    have shifted : (pos + i) % viosSectorSize = pos % viosSectorSize + i := by
      unfold viosSectorSize at inside ⊢
      omega
    rw [diskByte, sameSector, shifted, deviceAfterChunk, chunk, List.take_length]
    simp only [Function.update_self]
    exact bufferWrite_inside _ inData
  case kept =>
    intro lba off offSmall untouched
    rw [deviceAfterChunk, chunk, List.take_length, before]
    by_cases sameLba : lba = deviceLba disk (pos / viosSectorSize)
    · subst sameLba
      simp only [Function.update_self]
      -- a byte of the buffer outside the data is the byte that was read
      apply bufferWrite_outside
      by_contra overlap
      have index : off - pos % viosSectorSize < data.length := by omega
      refine untouched _ index ?_ ?_
      · congr 1
        unfold viosSectorSize at *
        omega
      · unfold viosSectorSize at *
        omega
    · simp only [Function.update_of_ne sameLba]

/-! ## Every other write spoils a byte

An aligned write shorter than a sector starts from an uninitialised buffer, and a write
that ends on a sector boundary is followed by an empty aligned write to the next sector.
-/

/-- The write, from buffers filled with `filler`, is undefined or leaves `filler` in the last
byte of the last sector it touches. -/
def LeavesFiller (filler : UInt8) (disk : Disk) (last : Nat) :
    Option (Int × Device × DiskStream) → Prop
  | none => True
  | some (_, dev, _) => dev.sector (deviceLba disk last) (viosSectorSize - 1) = filler

theorem diskstreamerWrite_aligned_leavesFiller (filler : UInt8) (disk : Disk) :
    ∀ (data : List UInt8) (depth : Nat) (dev : Device) (pos : Nat),
      pos < 2 ^ 31 → data.length < 2 ^ 31 → pos % viosSectorSize = 0 →
      (∀ k, pos / viosSectorSize ≤ k → k ≤ (pos + data.length) / viosSectorSize →
        SectorAccessible dev disk k) →
      LeavesFiller filler disk ((pos + data.length) / viosSectorSize)
        (diskstreamerWrite (fun _ _ => filler) depth dev ⟨pos, disk⟩ data) := by
  intro data
  -- each level but the last writes one full sector, so the data gets shorter
  induction hlen : data.length using Nat.strongRecOn generalizing data with
  | ind total ih =>
    intro depth dev pos posFits lengthFits aligned accessible
    subst hlen
    have reachFits : pos % viosSectorSize + data.length < 2 ^ 31 := by omega
    have first : pos / viosSectorSize ≤ (pos + data.length) / viosSectorSize :=
      Nat.div_le_div_right (by omega)
    rw [diskstreamerWrite_step _ depth dev disk pos data posFits reachFits
      (accessible _ (Nat.le_refl _) first)]
    by_cases posOk : pos + firstChunk pos data.length < 2 ^ 31
    · rw [if_pos posOk]
      by_cases reaches : viosSectorSize ≤ pos % viosSectorSize + data.length
      · have chunk : firstChunk pos data.length = viosSectorSize := by
          rw [firstChunk, if_pos reaches, aligned, Nat.sub_zero]
        rw [if_pos reaches]
        rw [chunk] at posOk ⊢
        have dropped : (data.drop viosSectorSize).length = data.length - viosSectorSize :=
          List.length_drop
        have sameEnd : pos + viosSectorSize + (data.length - viosSectorSize) = pos + data.length := by
          omega
        have shorter : data.length - viosSectorSize < data.length := by
          unfold viosSectorSize at reaches ⊢
          omega
        have result := ih _ shorter _ dropped (depth + 1)
          (deviceAfterChunk (fun _ => filler) dev disk pos data) (pos + viosSectorSize) posOk
          (by omega) (by rw [Nat.add_mod_right, aligned])
        rw [sameEnd] at result
        refine result fun k lower upper => sectorAccessible_afterChunk (accessible k ?_ upper)
        exact Nat.le_trans (Nat.div_le_div_right (Nat.le_add_right _ _)) lower
      · have chunk : firstChunk pos data.length = data.length := if_neg reaches
        have sameSector : (pos + data.length) / viosSectorSize = pos / viosSectorSize := by
          unfold viosSectorSize at reaches aligned ⊢
          omega
        have before : bufferBefore (fun _ => filler) dev disk pos = fun _ => filler := if_pos aligned
        rw [if_neg reaches, LeavesFiller, deviceAfterChunk, chunk, List.take_length, before, sameSector]
        simp only [Function.update_self]
        exact bufferWrite_outside _ (.inr (by omega))
    · rw [if_neg posOk]
      trivial

theorem diskstreamerWrite_leavesFiller (filler : UInt8) (dev : Device) (disk : Disk) (pos : Nat)
    (data : List UInt8) (posFits : pos < 2 ^ 31)
    (reachFits : pos % viosSectorSize + data.length < 2 ^ 31)
    (accessible : ∀ k, pos / viosSectorSize ≤ k → k ≤ (pos + data.length) / viosSectorSize →
      SectorAccessible dev disk k)
    (notInside : pos % viosSectorSize = 0 ∨ viosSectorSize ≤ pos % viosSectorSize + data.length) :
    LeavesFiller filler disk ((pos + data.length) / viosSectorSize)
      (diskstreamerWrite (fun _ _ => filler) 0 dev ⟨pos, disk⟩ data) := by
  by_cases aligned : pos % viosSectorSize = 0
  · exact diskstreamerWrite_aligned_leavesFiller filler disk data 0 dev pos posFits (by omega) aligned
      accessible
  · have reaches : viosSectorSize ≤ pos % viosSectorSize + data.length := by tauto
    have first : pos / viosSectorSize ≤ (pos + data.length) / viosSectorSize :=
      Nat.div_le_div_right (by omega)
    have chunk : firstChunk pos data.length = viosSectorSize - pos % viosSectorSize := if_pos reaches
    rw [diskstreamerWrite_step _ 0 dev disk pos data posFits reachFits
      (accessible _ (Nat.le_refl _) first), if_pos reaches]
    by_cases posOk : pos + firstChunk pos data.length < 2 ^ 31
    · rw [if_pos posOk]
      rw [chunk] at posOk ⊢
      have sameEnd : pos + (viosSectorSize - pos % viosSectorSize) +
          (data.drop (viosSectorSize - pos % viosSectorSize)).length = pos + data.length := by
        rw [List.length_drop]
        omega
      have result := diskstreamerWrite_aligned_leavesFiller filler disk
        (data.drop (viosSectorSize - pos % viosSectorSize)) 1
        (deviceAfterChunk (fun _ => filler) dev disk pos data)
        (pos + (viosSectorSize - pos % viosSectorSize)) posOk
        (by rw [List.length_drop]; omega) (by unfold viosSectorSize; omega)
      rw [sameEnd] at result
      refine result fun k lower upper => sectorAccessible_afterChunk (accessible k ?_ upper)
      exact Nat.le_trans (Nat.div_le_div_right (Nat.le_add_right _ _)) lower
    · rw [if_neg posOk]
      trivial

/-! ## Which writes are exact -/

/-- A write keeps its promise, whatever its local buffers hold, just when it starts after the
first byte of a sector and ends before the last byte of that sector is filled. -/
theorem diskstreamerWrite_exact_iff (dev : Device) (disk : Disk) (pos : Nat) (data : List UInt8)
    (posFits : pos < 2 ^ 31) (lengthFits : data.length < 2 ^ 31)
    (accessible : ∀ k, pos / viosSectorSize ≤ k → k ≤ (pos + data.length) / viosSectorSize →
      SectorAccessible dev disk k) :
    (∀ garbage, WriteExact dev disk pos data (diskstreamerWrite garbage 0 dev ⟨pos, disk⟩ data)) ↔
      pos % viosSectorSize ≠ 0 ∧ pos % viosSectorSize + data.length < viosSectorSize := by
  have first : pos / viosSectorSize ≤ (pos + data.length) / viosSectorSize :=
    Nat.div_le_div_right (by omega)
  constructor
  · intro exact
    by_contra notInside
    -- fill the buffers with something else than the last byte of the last sector holds
    set last := (pos + data.length) / viosSectorSize
    set filler := dev.sector (deviceLba disk last) (viosSectorSize - 1) + 1 with fillerEq
    have exactHere := exact fun _ _ => filler
    by_cases reachFits : pos % viosSectorSize + data.length < 2 ^ 31
    · have leaves := diskstreamerWrite_leavesFiller filler dev disk pos data posFits reachFits accessible
        (by omega)
      cases result : diskstreamerWrite (fun _ _ => filler) 0 dev ⟨pos, disk⟩ data with
      | none => rw [result] at exactHere; exact exactHere
      | some out =>
        rw [result] at exactHere leaves
        obtain ⟨-, -, -, -, kept⟩ := exactHere
        have unchanged := kept (deviceLba disk last) (viosSectorSize - 1) (by decide) (by
          intro i inData sameLba lastByte
          have lastSmall : last < 2 ^ 28 := by
            simp only [last, viosSectorSize]
            omega
          have sameSector := deviceLba_injective lastSmall (by unfold viosSectorSize; omega) sameLba
          simp only [last, viosSectorSize] at sameSector lastByte
          omega)
        have spoiled := leaves.symm.trans unchanged
        rw [fillerEq] at spoiled
        simp at spoiled
    · rw [diskstreamerWrite] at exactHere
      have overflows : fitsInt ((pos : Int).tmod viosSectorSize + data.length) = false := by
        rw [Int.tmod_eq_emod_of_nonneg (by omega)]
        unfold viosSectorSize at reachFits ⊢
        simp only [fitsInt, decide_eq_false_iff_not]
        omega
      simp only [overflows, Bool.not_false, if_true] at exactHere
      exact exactHere
  · rintro ⟨unaligned, inside⟩ garbage
    exact diskstreamerWrite_inside garbage dev disk pos data posFits
      (accessible _ (Nat.le_refl _) first) unaligned inside

/-- A disk of zeros whose every sector can be read and written. -/
def blankDevice : Device where
  sector := fun _ _ => 0
  readError := fun _ => false
  writeError := fun _ => false

/-- The window of a disk that covers the whole device. -/
def wholeDisk : Disk := ⟨0, 0⟩

theorem wholeDisk_accessible (lba : Nat) : SectorAccessible blankDevice wholeDisk lba := by
  rw [sectorAccessible_iff]
  simp [blockAllowed, wholeDisk, blankDevice]

theorem diskstreamerWrite_exact_two_bytes :
    WriteExact blankDevice wholeDisk 10 [1, 2]
      (diskstreamerWrite (fun _ _ => 7) 0 blankDevice ⟨(10 : Nat), wholeDisk⟩ [1, 2]) :=
  (diskstreamerWrite_exact_iff blankDevice wholeDisk 10 [1, 2] (by decide) (by decide)
    fun k _ _ => wholeDisk_accessible k).mpr (by decide) fun _ _ => 7

/-- One byte written at the start of the disk takes the rest of the first sector with it. -/
theorem diskstreamerWrite_aligned_byte_not_exact :
    ¬ WriteExact blankDevice wholeDisk 0 [1]
      (diskstreamerWrite (fun _ _ => 7) 0 blankDevice ⟨(0 : Nat), wholeDisk⟩ [1]) := by
  rw [diskstreamerWrite_step _ 0 blankDevice wholeDisk 0 [1] (by decide) (by decide)
    (wholeDisk_accessible _), if_pos (by decide), if_neg (by decide)]
  rintro ⟨-, -, -, -, kept⟩
  exact absurd (kept 0 1 (by decide) (by decide)) (by decide)

end ViOS.Storage
