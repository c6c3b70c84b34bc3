import ViOS.Fs.Divisors

/-! # The position of an open file

A read stops at the end of the file, a write moves the end along, and a seek is refused
when its offset is not in the file.  A relative seek adds the offset to the position
and does not look at the sum.

* `PositionCall` — the calls that move a position.
* `DescriptorInFile` — the position is not behind the end of the file.
* `positions_inFile_iff` — the runs that keep it there.
-/

namespace ViOS.Fs

open ViOS.Lib

/-! ## The calls -/

/-- `fat16_read`, `fat16_write` and `fat16_seek`, with their 32-bit arguments. -/
inductive PositionCall where
  | read (ptr : Ptr) (size nmemb : UInt32)
  | write (ptr : Ptr) (data : List UInt8) (size nmemb : UInt32)
  | seek (ptr : Ptr) (offset whence : UInt32)

/-- The status of a call and the state behind it. -/
def PositionCall.result (state : FatState) : PositionCall → Option Int × FatState
  | .read ptr size nmemb =>
    let (res, _, after) := fat16Read state ptr size.toNat nmemb.toNat
    (res, after)
  | .write ptr data size nmemb => fat16Write state ptr data size.toNat nmemb.toNat
  | .seek ptr offset whence => fat16Seek state ptr offset.toNat whence.toNat

/-- A call and the state behind it.  A read of items of no size divides by zero and does not return;
it is left in, as a call that changes nothing. -/
def PositionStep (state : FatState) (call : PositionCall) (after : FatState) : Prop :=
  after = (call.result state).2

/-- The position of a descriptor is in its file, or at its end. -/
def DescriptorInFile (descriptor : FatFileDescriptor) : Prop :=
  ∀ item, descriptor.item.data = .file item → descriptor.pos ≤ item.filesize.toNat

/-- The same of the descriptor at a pointer. -/
def InFile (p : Ptr) (state : FatState) : Prop :=
  ∀ descriptor, state.descriptors p = some descriptor → DescriptorInFile descriptor

/-- What a call should do: the position stays in the file, and a seek that fails does not move it. -/
structure PositionKept (p : Ptr) (state : FatState) (call : PositionCall) (after : FatState) : Prop where
  inFile : InFile p after
  failed : ∀ ptr offset whence res, call = .seek ptr offset whence → (call.result state).1 = some res → res < 0 →
    (after.descriptors ptr).map FatFileDescriptor.pos = (state.descriptors ptr).map FatFileDescriptor.pos

/-- A relative seek that is not refused ends in the file. -/
def SeekFits (p : Ptr) (state : FatState) : PositionCall → Prop
  | .seek ptr offset whence => ptr = p → whence = 1 → ∀ descriptor item,
      state.descriptors p = some descriptor → descriptor.item.data = .file item →
      offset.toNat < item.filesize.toNat → (descriptor.pos + offset.toNat) % 2 ^ 32 ≤ item.filesize.toNat
  | _ => True

/-! ## What a call does to a position -/

section Calls

variable {p ptr : Ptr} {state : FatState} {volume : FatVolume} {descriptor : FatFileDescriptor}

theorem InFile.set (inFile : InFile p state) (kept : ptr = p → DescriptorInFile descriptor) :
    InFile p (state.set ptr (some descriptor) volume) := by
  intro found isFound
  change Function.update state.descriptors ptr (some descriptor) p = some found at isFound
  by_cases here : p = ptr
  · subst here
    rw [Function.update_self, Option.some.injEq] at isFound
    exact isFound ▸ kept rfl
  · rw [Function.update_of_ne here] at isFound
    exact inFile found isFound

/-- The items of a read are in the file. -/
theorem itemsToRead_mul_le (item : FatDirectoryItem) (pos size nmemb : Nat) :
    itemsToRead item pos size nmemb * size ≤ item.filesize.toNat - pos :=
  (Nat.div_mul_le_self _ _).trans (Nat.min_le_right _ _)

theorem read_inFile (inFile : InFile p state) (size nmemb : Nat) :
    InFile p (fat16Read state ptr size nmemb).2.2 := by
  unfold fat16Read
  cases stored : state.descriptors ptr with
  | none => exact inFile
  | some descriptor =>
    cases data : descriptor.item.data with
    | directory directory => simpa only [data] using inFile
    | file item =>
      simp only [data]
      split
      · exact inFile
      · split
        · exact inFile
        · refine inFile.set fun here other isFile => ?_
          have before := inFile descriptor (here ▸ stored) item data
          have items := itemsToRead_mul_le item descriptor.pos size nmemb
          obtain rfl : item = other := FatItemData.file.inj (data.symm.trans isFile)
          exact (Nat.mod_le _ _).trans (by omega)

theorem writeStart_filesize (volume : FatVolume) (item : FatDirectoryItem) :
    (writeStart volume item).2.1.filesize = item.filesize := by
  unfold writeStart
  simp only
  split <;> rfl

/-- A write behind the end of the file makes the file longer. -/
theorem extended_covers {volume : FatVolume} {fatItem : FatItem} {item : FatDirectoryItem} {pos : Nat}
    (isUInt32 : pos < 2 ^ 32) : pos ≤ (fat16ExtendFile volume fatItem item pos).1.filesize.toNat := by
  rw [fat16ExtendFile]
  split
  next inside => exact inside
  next behind => exact (UInt32.toNat_ofNat_of_lt' isUInt32).ge

theorem writeFileItem_inFile {item : FatDirectoryItem} (inFile : descriptor.pos ≤ item.filesize.toNat)
    (data : List UInt8) (size nmemb : Nat) :
    DescriptorInFile (writeFileItem volume descriptor item data size nmemb).2.1 := by
  have filesize := congrArg UInt32.toNat (writeStart_filesize volume item)
  have isUInt32 : ∀ n, n % 2 ^ 32 < 2 ^ 32 := fun n => Nat.mod_lt n (by decide)
  rcases start : writeStart volume item with ⟨cluster, entry, started⟩
  rw [start] at filesize
  rcases internal : fat16WriteInternal started (asInt cluster) descriptor.pos
    (bytesAt data (asInt (size * nmemb % 2 ^ 32)).toNat) with ⟨res, stored⟩
  rw [writeFileItem_eq start internal]
  split
  · intro other isFile
    obtain rfl := FatItemData.file.inj isFile
    exact inFile.trans_eq filesize.symm
  · intro other isFile
    obtain rfl := FatItemData.file.inj isFile
    exact extended_covers (isUInt32 _)

theorem write_inFile (inFile : InFile p state) (data : List UInt8) (size nmemb : Nat) :
    InFile p (fat16Write state ptr data size nmemb).2 := by
  rcases fat16Write_cases state ptr data size nmemb with same | ⟨descriptor, item, stored, kind, written⟩
  · rw [same]
    exact inFile
  · rw [written]
    refine inFile.set fun here => ?_
    exact writeFileItem_inFile (inFile descriptor (here ▸ stored) item kind) data size nmemb

theorem seek_inFile (inFile : InFile p state) {offset whence : UInt32}
    (fits : SeekFits p state (.seek ptr offset whence)) :
    InFile p (fat16Seek state ptr offset.toNat whence.toNat).2 := by
  unfold fat16Seek
  cases stored : state.descriptors ptr with
  | none => exact inFile
  | some descriptor =>
    cases kind : descriptor.item.data with
    | directory directory => simpa only [kind] using inFile
    | file item =>
      simp only [kind]
      split
      · exact inFile
      next inside =>
        split
        next isSet =>
          refine inFile.set fun _ other isFile => ?_
          obtain rfl : item = other := FatItemData.file.inj (kind.symm.trans isFile)
          exact (Nat.not_le.mp inside).le
        next isCur =>
          -- Only the offset was compared with the size; the condition is about the sum.
          refine inFile.set fun here other isFile => ?_
          obtain rfl : item = other := FatItemData.file.inj (kind.symm.trans isFile)
          exact fits here (UInt32.toNat_inj.mp isCur) descriptor item (here ▸ stored) kind (Nat.not_le.mp inside)
        · exact inFile
        · exact inFile

/-- A seek that fails changes nothing. -/
theorem seek_failed {offset whence : Nat} {res : Int}
    (result : (fat16Seek state ptr offset whence).1 = some res) (negative : res < 0) :
    (fat16Seek state ptr offset whence).2 = state := by
  unfold fat16Seek at result ⊢
  cases stored : state.descriptors ptr with
  | none => rfl
  | some descriptor =>
    cases kind : descriptor.item.data with
    | directory directory => simp only [kind]
    | file item =>
      simp only [stored, kind] at result ⊢
      by_cases outside : item.filesize.toNat ≤ offset
      · rw [if_pos outside]
      · rw [if_neg outside] at result ⊢
        -- The two seeks that move the position return zero.
        split at result
        · obtain rfl := Option.some.inj result
          exact absurd negative (Int.lt_irrefl 0)
        · obtain rfl := Option.some.inj result
          exact absurd negative (Int.lt_irrefl 0)
        · rfl
        · rfl

theorem seek_outside {offset whence : UInt32} (spoils : ¬ SeekFits p state (.seek ptr offset whence)) :
    ¬ InFile p (fat16Seek state ptr offset.toNat whence.toNat).2 := by
  intro inFile
  refine spoils fun here isCur descriptor item stored kind inside => ?_
  subst here isCur
  have moved : (fat16Seek state ptr offset.toNat (1 : UInt32).toNat).2 = state.set ptr
      (some { descriptor with pos := (descriptor.pos + offset.toNat) % 2 ^ 32 }) state.volume := by
    simp only [fat16Seek, stored, kind, if_neg (Nat.not_le.mpr inside)]
    rfl
  rw [moved] at inFile
  exact inFile { descriptor with pos := (descriptor.pos + offset.toNat) % 2 ^ 32 }
    (Function.update_self ..) item kind

end Calls

/-! ## Opening -/

theorem openItem_error {volume after : FatVolume} {path : List CStr} {mode : FileMode} {code : Int}
    (result : openItem volume path mode = (some (.error code), after)) : code = -eio ∨ code = -enomem := by
  unfold openItem at result
  split at result
  · cases result
  · cases result
  · split at result
    · split at result
      · split at result
        · simp only [Prod.mk.injEq, Option.some.injEq, Except.error.injEq] at result
          exact .inr result.1.symm
        · cases result
      · simp only [Prod.mk.injEq, Option.some.injEq, Except.error.injEq] at result
        exact .inl result.1.symm
    · simp only [Prod.mk.injEq, Option.some.injEq, Except.error.injEq] at result
      exact .inl result.1.symm

/-- A file that is cut to nothing is at its start. -/
theorem truncate_zero (volume : FatVolume) (item : FatDirectoryItem) :
    (fat16Truncate volume item 0 0).2.2.1 = 0 := by
  obtain ⟨startingCluster, isFirst⟩ : ∃ c, asInt (fat16GetFirstCluster item) = c := ⟨_, rfl⟩
  unfold fat16Truncate
  rw [isFirst]
  split
  · rfl
  · rfl

/-- Every mode starts in the file: at its start, or at its end. -/
theorem openDescriptor_inFile (volume : FatVolume) (item : FatItem) (mode : FileMode) :
    DescriptorInFile (openDescriptor volume item mode).1 := by
  intro entry isFile
  unfold openDescriptor at isFile ⊢
  split at isFile
  next truncated kind =>
    have atStart := truncate_zero volume truncated
    rcases cut : fat16Truncate volume truncated 0 0 with ⟨res, item', pos, freed⟩
    rw [cut] at atStart
    obtain rfl : pos = 0 := atStart
    exact Nat.zero_le _
  next appended kind =>
    obtain rfl : appended = entry := FatItemData.file.inj (kind.symm.trans isFile)
    exact Nat.le_refl _
  · exact Nat.zero_le _

theorem open_inFile {state after : FatState} {path : List CStr} {mode : FileMode}
    (opened : fat16Open state path mode = (some state.newPtr, after)) : InFile state.newPtr after := by
  unfold fat16Open at opened
  split at opened
  · cases opened
  next code volume result =>
    rw [Prod.mk.injEq, Option.some.injEq] at opened
    have isError := opened.1
    -- An error code is no multiple of the block size.
    have notPtr : ∀ n : Nat, 18446744073709551615 ≠ 4096 * (n + 1) ∧ 18446744073709551613 ≠ 4096 * (n + 1) := by
      omega
    cases openItem_error result with
    | inl isIo =>
      rw [isIo] at isError
      exact absurd isError (notPtr state.next).1
    | inr noMemory =>
      rw [noMemory] at isError
      exact absurd isError (notPtr state.next).2
  next item volume result =>
    rw [Prod.mk.injEq] at opened
    obtain ⟨-, rfl⟩ := opened
    intro descriptor stored
    simp only [FatState.set, Function.update_self, Option.some.injEq] at stored
    exact stored ▸ openDescriptor_inFile volume item mode

/-! ## Every run -/

theorem positionStep_kept {p : Ptr} {state after : FatState} {call : PositionCall}
    (step : PositionStep state call after) (fits : SeekFits p state call) (inFile : InFile p state) :
    PositionKept p state call after := by
  subst step
  cases call with
  | read ptr size nmemb => exact ⟨read_inFile inFile _ _, fun _ _ _ _ isSeek => by cases isSeek⟩
  | write ptr data size nmemb => exact ⟨write_inFile inFile _ _ _, fun _ _ _ _ isSeek => by cases isSeek⟩
  | seek ptr offset whence =>
    refine ⟨seek_inFile inFile fits, fun other offset whence res isSeek result negative => ?_⟩
    cases isSeek
    exact congrArg (fun after : FatState => (after.descriptors ptr).map FatFileDescriptor.pos)
      (seek_failed result negative)

theorem positionStep_spoils {p : Ptr} {state after : FatState} {call : PositionCall}
    (step : PositionStep state call after) (spoils : ¬ SeekFits p state call) :
    ¬ PositionKept p state call after := by
  subst step
  intro kept
  cases call with
  | read ptr size nmemb => exact spoils trivial
  | write ptr data size nmemb => exact spoils trivial
  | seek ptr offset whence => exact seek_outside spoils kept.inFile

/-- However a file was opened, its position stays in the file over a run of reads, writes and seeks,
on any descriptors, just when each relative seek on it that is not refused ends in the file. -/
theorem positions_inFile_iff (state : FatState) (path : List CStr) (mode : FileMode) (after : FatState)
    (opened : fat16Open state path mode = (some state.newPtr, after)) (run : List (PositionCall × FatState))
    (isRun : IsRun PositionStep after run) :
    InFile state.newPtr after ∧ StepsMeet (PositionKept state.newPtr) after run ↔
      EveryStep (SeekFits state.newPtr) after run := by
  have initial := open_inFile opened
  rw [and_iff_right initial]
  have meets : ∀ s call t, PositionStep s call t → SeekFits state.newPtr s call → InFile state.newPtr s →
      PositionKept state.newPtr s call t :=
    fun s call t step fits inFile => positionStep_kept step fits inFile
  have fails : ∀ s call t, PositionStep s call t → ¬ SeekFits state.newPtr s call → InFile state.newPtr s →
      ¬ PositionKept state.newPtr s call t :=
    fun s call t step spoils _ => positionStep_spoils step spoils
  exact stepsMeet_iff_everyStep meets (fun s call t kept => kept.inFile) fails isRun initial

/-! ## Two relative seeks -/

/-- The bytes of the entry of a file `A` of 10 bytes that are not zero. -/
def entryBytes : List (Nat × UInt8) :=
  (0, 0x41) :: (28, 10) :: (List.range 10).map fun i => (i + 1, charSpace)

/-- A volume with that file. -/
def fileVolume : FatVolume :=
  let entry := FatDirectoryItem.ofBytes fun i => (entryBytes.lookup i).getD 0
  let table := entryBytes.map (Prod.map (64 * viosSectorSize + ·) id)
  { tableVolume table with rootDirectory := ⟨entry :: List.replicate 15 .zero, 65, 66⟩ }

/-- The file opened for reading. -/
def fileOpened : FatState := (fat16Open (mountState fileVolume) [[0x41]] .read).2

/-- The position of an open file, and its size. -/
def FatState.position (state : FatState) (p : Ptr) : Option (Nat × Nat) :=
  (state.descriptors p).bind fun descriptor =>
    match descriptor.item.data with
    | .file item => some (descriptor.pos, item.filesize.toNat)
    | .directory _ => none

theorem position_eq_some {state : FatState} {p : Ptr} {pos size : Nat} (found : state.position p = some (pos, size)) :
    ∃ descriptor item, state.descriptors p = some descriptor ∧ descriptor.item.data = .file item ∧
      descriptor.pos = pos ∧ item.filesize.toNat = size := by
  obtain ⟨descriptor, stored, isFile⟩ := Option.bind_eq_some_iff.mp found
  cases kind : descriptor.item.data with
  | directory directory => rw [kind] at isFile; cases isFile
  | file item =>
    simp only [kind, Option.some.injEq, Prod.mk.injEq] at isFile
    exact ⟨descriptor, item, stored, kind, isFile⟩

theorem fileOpened_position :
    (fat16Open (mountState fileVolume) [[0x41]] .read).1 = some (mountState fileVolume).newPtr ∧
      fileOpened.position (mountState fileVolume).newPtr = some (0, 10) := by
  decide +kernel

/-- A relative seek moves the position by its offset, if that is inside the file. -/
theorem seek_position {state : FatState} {p : Ptr} {pos size offset : Nat}
    (found : state.position p = some (pos, size)) (inside : offset < size) (small : pos + offset < 2 ^ 32) :
    (fat16Seek state p offset 1).2.position p = some (pos + offset, size) := by
  obtain ⟨descriptor, item, stored, kind, rfl, rfl⟩ := position_eq_some found
  have moved : (fat16Seek state p offset 1).2 = state.set p
      (some { descriptor with pos := (descriptor.pos + offset) % 2 ^ 32 }) state.volume := by
    simp only [fat16Seek, stored, kind, if_neg (Nat.not_le.mpr inside)]
  simp only [FatState.position, moved, FatState.set, Function.update_self, Option.bind_some, kind,
    Nat.mod_eq_of_lt small]

/-- A relative seek by 6 bytes. -/
def seekSix : PositionCall := .seek (mountState fileVolume).newPtr 6 1

theorem seekSix_fits :
    fat16Open (mountState fileVolume) [[0x41]] .read = (some (mountState fileVolume).newPtr, fileOpened) ∧
      IsRun PositionStep fileOpened [(seekSix, (seekSix.result fileOpened).2)] ∧
      (InFile (mountState fileVolume).newPtr fileOpened ∧
        StepsMeet (PositionKept (mountState fileVolume).newPtr) fileOpened
          [(seekSix, (seekSix.result fileOpened).2)]) := by
  have opened := Prod.ext fileOpened_position.1 (rfl : _ = fileOpened)
  have isRun : IsRun PositionStep fileOpened [(seekSix, (seekSix.result fileOpened).2)] := ⟨rfl, trivial⟩
  refine ⟨opened, isRun, (positions_inFile_iff _ _ _ _ opened _ isRun).mpr ⟨?_, trivial⟩⟩
  intro _ _ descriptor item stored kind _
  obtain ⟨opened, entry, isOpened, isEntry, atStart, size⟩ := position_eq_some fileOpened_position.2
  obtain rfl := Option.some.inj (stored.symm.trans isOpened)
  obtain rfl := FatItemData.file.inj (kind.symm.trans isEntry)
  rw [atStart, size]
  decide

/-- The second of two relative seeks by 6 bytes leaves the file. -/
theorem secondSeek_leaves_file :
    ∃ after later, fat16Open (mountState fileVolume) [[0x41]] .read = (some (mountState fileVolume).newPtr, after) ∧
      IsRun PositionStep after [(seekSix, later), (seekSix, (seekSix.result later).2)] ∧
      ¬ (InFile (mountState fileVolume).newPtr after ∧
        StepsMeet (PositionKept (mountState fileVolume).newPtr) after
          [(seekSix, later), (seekSix, (seekSix.result later).2)]) := by
  refine ⟨fileOpened, (seekSix.result fileOpened).2, Prod.ext fileOpened_position.1 rfl, ⟨rfl, rfl, trivial⟩, ?_⟩
  rintro ⟨-, -, second, -⟩
  have first := seek_position fileOpened_position.2 (show 6 < 10 by decide) (by decide)
  have moved := seek_position first (show 6 < 10 by decide) (by decide)
  obtain ⟨descriptor, entry, stored, isEntry, pos, size⟩ := position_eq_some moved
  have inFile := second.inFile descriptor stored entry isEntry
  omega

end ViOS.Fs
