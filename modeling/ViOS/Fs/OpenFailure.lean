import ViOS.Fs.Descriptors
import ViOS.Fs.Fat16

/-! # Opens that fail

One cleanup block of `fopen` serves every step that can fail.  It closes whatever the
filesystem's open returned, unless that is NULL; an error code carried in the pointer is
not NULL, and is passed to the filesystem's close as if it were private data.

* `logged` — a filesystem that records the calls of its open and close.
* `FopenFails`, `FailsClean` — the failures of `fopen`, and what they should leave behind.
* `fat16Fs_lawful` — the FAT16 driver is a filesystem as `file.c` expects it.
* `fopen_failsClean_iff` — which failures are clean.
-/

namespace ViOS.Fs

variable {φ : Type}

/-! ## The calls of a filesystem -/

/-- A call of a filesystem's open, with its result, or of its close. -/
inductive FsCall where
  | opened (result : Option Ptr)
  | closed (p : Ptr)
  deriving DecidableEq, Repr

/-- The filesystem, with the list of the calls of its open and close as part of its state. -/
def logged (fs : Filesystem φ) : Filesystem (φ × List FsCall) where
  openFile := fun (v, calls) drive parts mode =>
    let (result, v) := fs.openFile v drive parts mode
    (result, v, calls ++ [.opened result])
  readFile := fun (v, calls) disk p size nmemb =>
    let (res, bytes, v) := fs.readFile v disk p size nmemb
    (res, bytes, v, calls)
  writeFile := fun (v, calls) disk p data size nmemb =>
    let (res, v) := fs.writeFile v disk p data size nmemb
    (res, v, calls)
  seekFile := fun (v, calls) p offset whence =>
    let (res, v) := fs.seekFile v p offset whence
    (res, v, calls)
  statFile := fun (v, _) disk p => fs.statFile v disk p
  closeFile := fun (v, calls) p =>
    let (res, v) := fs.closeFile v p
    (res, v, calls ++ [.closed p])

/-- The environment with its filesystem logged. -/
def FileEnv.logged (env : FileEnv φ) : FileEnv (φ × List FsCall) :=
  ⟨Fs.logged env.fs, env.disks, env.primaryFsDisk⟩

/-- The calls of the filesystem's open and close that an `fopen` makes. -/
def fopenCalls (env : FileEnv φ) (st : FileState φ) (memory : Nat → Bool) (filename modeStr : CStr) : List FsCall :=
  (fopen env.logged ⟨st.descriptors, (st.volumes, [])⟩ memory filename modeStr).2.volumes.2

/-- The pointers an `fopen` passes to the filesystem's close. -/
def fopenCloses (env : FileEnv φ) (st : FileState φ) (memory : Nat → Bool) (filename modeStr : CStr) : List Ptr :=
  (fopenCalls env st memory filename modeStr).filterMap fun
    | .opened _ => none
    | .closed p => some p

/-- One of the steps of `fopen` fails: before the filesystem is asked, in the filesystem's open,
or since no descriptor is free. -/
def FopenFails (env : FileEnv φ) (st : FileState φ) (memory : Nat → Bool) (filename modeStr : CStr) : Prop :=
  match fopenTarget env memory filename modeStr with
  | none => True
  | some (drive, parts, mode) => ∃ p, (env.fs.openFile st.volumes drive parts mode).1 = some p ∧
      (isErr p = true ∨ fileFreeSlot st.descriptors = none)

/-- What an `fopen` that fails should leave behind: it returns 0, stores nothing, and releases
what the filesystem's open handed out, and only that, at most once. -/
structure FailsClean (env : FileEnv φ) (st : FileState φ) (memory : Nat → Bool) (filename modeStr : CStr) : Prop where
  status : (fopen env st memory filename modeStr).1 = some 0
  table : (fopen env st memory filename modeStr).2.descriptors = st.descriptors
  once : (fopenCloses env st memory filename modeStr).length ≤ 1
  own : ∀ p ∈ fopenCloses env st memory filename modeStr,
    .opened (some p) ∈ fopenCalls env st memory filename modeStr ∧ isErr p = false

/-- The filesystem's open, if it is called and returns, returns no error code. -/
def OpensWithoutError (env : FileEnv φ) (st : FileState φ) (memory : Nat → Bool) (filename modeStr : CStr) : Prop :=
  ∀ drive parts mode p, fopenTarget env memory filename modeStr = some (drive, parts, mode) →
    (env.fs.openFile st.volumes drive parts mode).1 = some p → isErr p = false

/-! ## The cleanup -/

section Cleanup

variable {env : FileEnv φ} {st : FileState φ} {memory : Nat → Bool} {filename modeStr : CStr}

theorem fopenTarget_logged (env : FileEnv φ) (memory : Nat → Bool) (filename modeStr : CStr) :
    fopenTarget env.logged memory filename modeStr = fopenTarget env memory filename modeStr := rfl

/-- Without a target nothing is called. -/
theorem fopenCalls_of_noTarget (none : fopenTarget env memory filename modeStr = none) :
    fopenCalls env st memory filename modeStr = [] := by
  unfold fopenCalls fopen
  rw [fopenTarget_logged, none]

/-- The calls of a failed `fopen` whose filesystem returned `p`. -/
theorem fopenCalls_of_failed {drive : Nat} {parts : List CStr} {mode : FileMode} {p : Ptr} {v : φ}
    (target : fopenTarget env memory filename modeStr = some (drive, parts, mode))
    (opened : env.fs.openFile st.volumes drive parts mode = (some p, v))
    (fails : isErr p = true ∨ fileFreeSlot st.descriptors = none) :
    fopenCalls env st memory filename modeStr =
      if p = 0 then [.opened (some p)] else [.opened (some p), .closed p] := by
  have cleanup : (fopenCleanup env.logged ⟨st.descriptors, (v, [.opened (some p)])⟩ p).2.volumes.2 =
      if p = 0 then [.opened (some p)] else [.opened (some p), .closed p] := by
    unfold fopenCleanup
    split
    · rfl
    · rcases closed : env.fs.closeFile v p with ⟨res, v'⟩
      cases res <;> simp [FileEnv.logged, Fs.logged, closed]
  unfold fopenCalls fopen
  rw [fopenTarget_logged, target]
  simp only [FileEnv.logged, Fs.logged, opened, List.nil_append]
  cases isError : isErr p with
  | true => exact cleanup
  | false =>
    rw [fails.resolve_left (by simp [isError])]
    exact cleanup

/-- The result of a failed `fopen` whose filesystem returned `p`. -/
theorem fopen_of_failed {drive : Nat} {parts : List CStr} {mode : FileMode} {p : Ptr} {v : φ}
    (target : fopenTarget env memory filename modeStr = some (drive, parts, mode))
    (opened : env.fs.openFile st.volumes drive parts mode = (some p, v))
    (fails : isErr p = true ∨ fileFreeSlot st.descriptors = none) :
    fopen env st memory filename modeStr = fopenCleanup env ⟨st.descriptors, v⟩ p := by
  unfold fopen
  rw [target]
  simp only [opened]
  cases isError : isErr p with
  | true => rfl
  | false =>
    have full := fails.resolve_left (by simp [isError])
    simp only [Bool.false_eq_true, if_false, full]

/-- What a failed `fopen` closes is what the filesystem returned. -/
theorem fopenCloses_of_failed {drive : Nat} {parts : List CStr} {mode : FileMode} {p : Ptr} {v : φ}
    (target : fopenTarget env memory filename modeStr = some (drive, parts, mode))
    (opened : env.fs.openFile st.volumes drive parts mode = (some p, v))
    (fails : isErr p = true ∨ fileFreeSlot st.descriptors = none) :
    fopenCloses env st memory filename modeStr = if p = 0 then [] else [p] := by
  rw [fopenCloses, fopenCalls_of_failed target opened fails]
  split <;> rfl

/-- The cleanup of what was opened: the filesystem's close returns. -/
theorem fopenCleanup_opened {Opened : φ → Ptr → Prop} (lawful : LawfulFilesystem env.fs Opened)
    {st : FileState φ} {p : Ptr} (isOpen : Opened st.volumes p) :
    (fopenCleanup env st p).1 = some 0 ∧ (fopenCleanup env st p).2.descriptors = st.descriptors := by
  have closes := lawful.close_opened st.volumes p isOpen
  rcases closed : env.fs.closeFile st.volumes p with ⟨res, v⟩
  rw [closed] at closes
  obtain rfl : res = some viosAllOk := closes
  unfold fopenCleanup
  split
  · exact ⟨rfl, rfl⟩
  · rw [closed]
    exact ⟨rfl, rfl⟩

theorem failsClean_of_noTarget (target : fopenTarget env memory filename modeStr = none) :
    FailsClean env st memory filename modeStr := by
  have closes : fopenCloses env st memory filename modeStr = [] := by
    rw [fopenCloses, fopenCalls_of_noTarget target]
    rfl
  constructor
  case status => rw [fopen, target]
  case table => rw [fopen, target]
  case once =>
    rw [closes]
    exact Nat.zero_le 1
  case own =>
    intro p isClosed
    rw [closes] at isClosed
    exact absurd isClosed List.not_mem_nil

theorem failsClean_of_failed {Opened : φ → Ptr → Prop} (lawful : LawfulFilesystem env.fs Opened)
    {drive : Nat} {parts : List CStr} {mode : FileMode} {p : Ptr} {v : φ}
    (target : fopenTarget env memory filename modeStr = some (drive, parts, mode))
    (opened : env.fs.openFile st.volumes drive parts mode = (some p, v))
    (fails : isErr p = true ∨ fileFreeSlot st.descriptors = none) (valid : isErr p = false) :
    FailsClean env st memory filename modeStr := by
  have calls := fopenCalls_of_failed target opened fails
  have closes := fopenCloses_of_failed target opened fails
  have result := fopen_of_failed target opened fails
  -- what is closed was opened just now
  have isOpen := (lawful.open_opened _ _ _ _ _ _ opened valid).1
  have cleanup := @fopenCleanup_opened _ env _ lawful ⟨st.descriptors, v⟩ p isOpen
  constructor
  case status =>
    rw [result]
    exact cleanup.1
  case table =>
    rw [result]
    exact cleanup.2
  case once =>
    rw [closes]
    split
    · exact Nat.zero_le 1
    · exact Nat.le_refl 1
  case own =>
    intro q isClosed
    rw [closes] at isClosed
    split at isClosed
    · exact absurd isClosed List.not_mem_nil
    · rename_i notNull
      rw [List.mem_singleton.mp isClosed, calls, if_neg notNull]
      exact ⟨List.mem_cons_self, valid⟩

theorem isErr_zero : isErr 0 = false := by decide

end Cleanup

/-- A failed `fopen` cleans up behind itself unless the filesystem's open returned an error code,
which is then closed like private data. -/
theorem fopen_failsClean_iff {env : FileEnv φ} {Opened : φ → Ptr → Prop}
    (lawful : LawfulFilesystem env.fs Opened) (st : FileState φ) (memory : Nat → Bool) (filename modeStr : CStr) :
    (FopenFails env st memory filename modeStr → FailsClean env st memory filename modeStr) ↔
      OpensWithoutError env st memory filename modeStr := by
  constructor
  · intro clean drive parts mode p target returned
    cases isError : isErr p with
    | false => rfl
    | true =>
      have opened : env.fs.openFile st.volumes drive parts mode =
          (some p, (env.fs.openFile st.volumes drive parts mode).2) := by rw [← returned]
      have fails : FopenFails env st memory filename modeStr := by
        rw [FopenFails, target]
        exact ⟨p, returned, .inl isError⟩
      have notNull : p ≠ 0 := by
        rintro rfl
        rw [isErr_zero] at isError
        exact Bool.false_ne_true isError
      -- an error code is not null, so it is closed
      have closes : p ∈ fopenCloses env st memory filename modeStr := by
        rw [fopenCloses_of_failed target opened (.inl isError), if_neg notNull]
        exact List.mem_singleton_self p
      have own := (clean fails).own p closes
      exact isError.symm.trans own.2
  · intro noError fails
    rw [FopenFails] at fails
    cases target : fopenTarget env memory filename modeStr with
    | none => exact failsClean_of_noTarget target
    | some triple =>
      obtain ⟨drive, parts, mode⟩ := triple
      rw [target] at fails
      obtain ⟨p, returned, failed⟩ := fails
      have valid := noError drive parts mode p target returned
      rcases opened : env.fs.openFile st.volumes drive parts mode with ⟨result, v⟩
      rw [opened] at returned
      obtain rfl : result = some p := returned
      exact failsClean_of_failed lawful target opened failed valid

/-! ## FAT16 -/

/-- A descriptor that the driver has handed out and not closed. -/
def FatState.Opened (state : FatState) (p : Ptr) : Prop :=
  state.descriptors p ≠ none ∧ p ≤ viosHeapBlockSize * state.next

namespace FatState

variable {state : FatState} {p q : Ptr} {volume : FatVolume}

theorem Opened.set {descriptor : FatFileDescriptor} (isOpen : state.Opened q) :
    (state.set p (some descriptor) volume).Opened q := by
  refine ⟨?_, isOpen.2⟩
  unfold FatState.set
  by_cases here : q = p
  · simp [here]
  · simpa [here] using isOpen.1

theorem Opened.lt_newPtr (isOpen : state.Opened q) : q < state.newPtr := by
  have next : viosHeapBlockSize * state.next < viosHeapBlockSize * (state.next + 1) :=
    Nat.mul_lt_mul_of_pos_left (Nat.lt_succ_self _) (by decide)
  exact Nat.lt_of_le_of_lt isOpen.2 next

end FatState

/-- The codes `fat16_open` returns are errors, and private data is where no file was open. -/
theorem fat16Open_cases (state : FatState) (path : List CStr) (mode : FileMode) :
    (∃ volume, fat16Open state path mode = (none, { state with volume })) ∨
    (∃ code volume, isErr (errorPtr code) = true ∧
      fat16Open state path mode = (some (errorPtr code), { state with volume, next := state.next + 1 })) ∨
    ∃ descriptor volume, fat16Open state path mode = (some state.newPtr,
      { (state.set state.newPtr (some descriptor) volume) with next := state.next + 1 }) := by
  have codes : ∀ volume code, (openItem state.volume path mode) = (some (.error code), volume) →
      isErr (errorPtr code) = true := by
    intro volume code result
    have notFound : isErr (errorPtr (-eio)) = true := by decide
    have full : isErr (errorPtr (-enomem)) = true := by decide
    unfold openItem at result
    split at result
    · simp at result
    · simp at result
    · split at result
      · split at result
        · split at result
          · obtain ⟨⟨rfl⟩, -⟩ := by simpa using result
            exact full
          · simp at result
        · obtain ⟨⟨rfl⟩, -⟩ := by simpa using result
          exact notFound
      · obtain ⟨⟨rfl⟩, -⟩ := by simpa using result
        exact notFound
  unfold fat16Open
  rcases opened : openItem state.volume path mode with ⟨result, volume⟩
  match result with
  | none => exact .inl ⟨volume, rfl⟩
  | some (.error code) => exact .inr (.inl ⟨code, volume, codes volume code opened, rfl⟩)
  | some (.ok item) => exact .inr (.inr ⟨_, _, rfl⟩)

theorem fat16Fs_lawful : LawfulFilesystem fat16Fs FatState.Opened where
  open_opened state _ path mode p after opened valid := by
    change fat16Open state path mode = (some p, after) at opened
    rcases fat16Open_cases state path mode with ⟨volume, fails⟩ | ⟨code, volume, isError, failed⟩ |
      ⟨descriptor, volume, succeeds⟩
    · rw [fails] at opened
      simp at opened
    · -- An error pointer is answered, which the caller takes for a failure.
      rw [failed, Prod.mk.injEq, Option.some.injEq] at opened
      rw [← opened.1, isError] at valid
      exact absurd valid (by decide)
    · rw [succeeds, Prod.mk.injEq, Option.some.injEq] at opened
      obtain ⟨rfl, rfl⟩ := opened
      refine ⟨⟨?_, Nat.le_refl _⟩, fun isOpen => Nat.lt_irrefl _ isOpen.lt_newPtr⟩
      simp [FatState.set]
  open_keeps state _ path mode q isOpen := by
    change (fat16Open state path mode).2.Opened q
    -- The allocation cursor only moves forward.
    have later : q ≤ viosHeapBlockSize * (state.next + 1) :=
      Nat.le_trans isOpen.2 (Nat.mul_le_mul_left _ (Nat.le_succ _))
    rcases fat16Open_cases state path mode with ⟨volume, fails⟩ | ⟨code, volume, -, failed⟩ |
      ⟨descriptor, volume, succeeds⟩
    · rw [fails]
      exact isOpen
    · rw [failed]
      exact ⟨isOpen.1, later⟩
    · rw [succeeds]
      have kept : (state.set state.newPtr (some descriptor) volume).Opened q := isOpen.set
      exact ⟨kept.1, later⟩
  read_keeps state _ p size nmemb q isOpen := by
    change (fat16Read state p size nmemb).2.2.Opened q
    unfold fat16Read
    split
    · exact isOpen
    · split
      · exact isOpen
      · dsimp only
        split
        · exact isOpen
        · split
          · exact isOpen
          · exact isOpen.set
  write_keeps state _ p data size nmemb q isOpen := by
    change (fat16Write state p data size nmemb).2.Opened q
    rcases fat16Write_cases state p data size nmemb with same | ⟨descriptor, item, -, -, written⟩
    · rw [same]
      exact isOpen
    · rw [written]
      exact isOpen.set
  seek_keeps state p offset whence q isOpen := by
    change (fat16Seek state p offset whence).2.Opened q
    unfold fat16Seek
    split
    · exact isOpen
    · split
      · exact isOpen
      · split
        · exact isOpen
        · split
          · exact isOpen.set
          · exact isOpen.set
          · exact isOpen
          · exact isOpen
  close_opened state p isOpen := by
    change (fat16Close state p).1 = some viosAllOk
    unfold fat16Close
    cases stored : state.descriptors p with
    | none => exact absurd stored isOpen.1
    | some descriptor => rfl
  close_keeps state p q other isOpen := by
    change (fat16Close state p).2.Opened q
    unfold fat16Close
    split
    · exact isOpen
    · refine ⟨?_, isOpen.2⟩
      unfold FatState.set
      simpa [other] using isOpen.1

/-! ## A small volume -/

/-- The header of a volume of 16 sectors: one of the table, one of the root directory. -/
def smallHeader : FatHeader := ⟨1, 1, 1, 16, 16, 1, 0⟩

/-- The volume with an empty root directory. -/
def smallState : FatState where
  volume :=
    { store := ⟨16 * 512, fun _ => 0⟩
      header := smallHeader
      rootDirectory := ⟨List.replicate 16 .zero, 2, 3⟩ }
  descriptors := fun _ => none
  next := 0

/-- The disk with the volume. -/
def smallEnv : FileEnv FatState := ⟨fat16Fs, [true], some 0⟩

/-- No file is open, and the descriptor table is full. -/
def fullTable : FileState FatState := ⟨fun i => some ⟨i + 1, 4096, 0⟩, smallState⟩

/-- The mode `w`. -/
def modeW : CStr := [0x77]

theorem fullTable_failsClean :
    FopenFails smallEnv fullTable allServed pathA modeW ∧ fopenCloses smallEnv fullTable allServed pathA modeW = [4096] ∧
      FailsClean smallEnv fullTable allServed pathA modeW := by
  have target : fopenTarget smallEnv allServed pathA modeW = some (0, [[0x61]], .write) := by decide
  have opened : (fat16Open smallState [[0x61]] .write).1 = some 4096 := by decide +kernel
  have full : fileFreeSlot fullTable.descriptors = none := by decide +kernel
  have fails : FopenFails smallEnv fullTable allServed pathA modeW := by
    rw [FopenFails, target]
    exact ⟨4096, opened, .inr full⟩
  refine ⟨fails, ?_, (fopen_failsClean_iff fat16Fs_lawful fullTable allServed pathA modeW).mpr ?_ fails⟩
  · rw [fopenCloses_of_failed target (v := (fat16Open smallState [[0x61]] .write).2)
      (by rw [← opened]; rfl) (.inr full)]
    decide
  · intro drive parts mode p target' returned
    rw [target, Option.some.injEq, Prod.mk.injEq, Prod.mk.injEq] at target'
    obtain ⟨rfl, rfl, rfl⟩ := target'
    obtain rfl : 4096 = p := Option.some.inj (opened.symm.trans returned)
    decide

/-- A file that is not there: the error code is closed, and the driver does not come back. -/
theorem missingFile_closesError :
    FopenFails smallEnv (fsInit smallState) allServed pathA modeR ∧
      fopenCloses smallEnv (fsInit smallState) allServed pathA modeR = [errorPtr (-eio)] ∧
      ¬ FailsClean smallEnv (fsInit smallState) allServed pathA modeR := by
  have target : fopenTarget smallEnv allServed pathA modeR = some (0, [[0x61]], .read) := by decide
  have opened : (fat16Open smallState [[0x61]] .read).1 = some (errorPtr (-eio)) := by decide +kernel
  have isError : isErr (errorPtr (-eio)) = true := by decide
  have closes : fopenCloses smallEnv (fsInit smallState) allServed pathA modeR = [errorPtr (-eio)] := by
    rw [fopenCloses_of_failed target (v := (fat16Open smallState [[0x61]] .read).2)
      (by rw [← opened]; rfl) (.inl isError)]
    decide
  refine ⟨?_, closes, fun clean => ?_⟩
  · rw [FopenFails, target]
    exact ⟨_, opened, .inl isError⟩
  · have valid := (clean.own (errorPtr (-eio)) (by rw [closes]; exact List.mem_cons_self)).2
    rw [isError] at valid
    exact absurd valid (by decide)

end ViOS.Fs
