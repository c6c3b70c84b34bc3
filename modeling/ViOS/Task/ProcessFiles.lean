import ViOS.Fs.Descriptors
import ViOS.Memory.VectorElements
import ViOS.Task.ValidateMemory

/-! # The files of a process

The descriptors of `file.c` are numbers that all processes share.  What keeps a process
away from the files of the others is its vector `file_handles`: `process.c` looks every
number up there before it passes it on.  `process_fstat` does not.

The vector is a list of the numbers it holds.  Allocations may fail and are part of the call.

* `processFopen`, `processFread`, `processFwrite`, `processFseek`, `processFstat`,
  `processFclose` — the code.
* `Isolated` — a call for a number the process does not hold is refused, and no result
  depends on what stands behind such a number.
* `isolated_iff_guarded` — over every run, the steps that are isolated.
-/

namespace ViOS.Process

open ViOS.Fs ViOS.Lib

/-! ## The code -/

/-- What a call uses of the process's memory: its records, and `task_virtual_address_to_physical`,
which is zero for an address without a page. -/
structure UserMemory where
  allocations : List ProcessAllocation
  toPhysical : Nat → Nat

/-- What a call returns and stores in the process's memory. -/
structure FileResult where
  res : Option Int
  data : List UInt8
  stat : Option FileStat
  deriving DecidableEq, Repr

/-- A call that returns a status and stores nothing. -/
def FileResult.status (res : Option Int) : FileResult := ⟨res, [], none⟩

/-- The state after a call; the process has no handles any more when it was terminated. -/
structure FileOutcome (φ : Type) where
  result : FileResult
  files : FileState φ
  fileHandles : Option (List Int)

def sizeofFileStat : Nat := 8

section Calls

variable {φ : Type} (env : FileEnv φ)

/-- `process_file_handle_get`. -/
def processFileHandleGet (fileHandles : List Int) (fd : Int) : Option Int :=
  fileHandles.find? (· = fd)

/-- `process_close_file_handles`. -/
def processCloseFileHandles (files : FileState φ) (fileHandles : List Int) : FileState φ :=
  fileHandles.foldl (fun files fd => (fclose env files fd).2) files

/-- A call whose buffer was refused: the process is terminated. -/
def terminated (res : Int) (files : FileState φ) (fileHandles : List Int) : FileOutcome φ :=
  ⟨.status (some res), processCloseFileHandles env files fileHandles, none⟩

/-- `process_fstat`. -/
def processFstat (memory : UserMemory) (fd : Int) (virtFilestatAddr : Nat) (files : FileState φ)
    (fileHandles : List Int) : FileOutcome φ :=
  let res := (processValidateMemoryOrTerminate memory.allocations virtFilestatAddr sizeofFileStat).1
  if res < 0 then terminated env res files fileHandles
  else if memory.toPhysical virtFilestatAddr = 0 then ⟨.status (some (-einvarg)), files, some fileHandles⟩
  else
    let (res, stat) := fstat env files fd
    ⟨⟨res, [], stat⟩, files, some fileHandles⟩

/-- `process_fseek`. -/
def processFseek (fd offset : Int) (whence : Nat) (files : FileState φ) (fileHandles : List Int) :
    FileOutcome φ :=
  match processFileHandleGet fileHandles fd with
  | none => ⟨.status (some (-eio)), files, some fileHandles⟩
  | some fd =>
    let (res, files) := fseek env files fd offset whence
    ⟨.status res, files, some fileHandles⟩

/-- `process_fread`; `fread` takes the sizes as `uint32_t`. -/
def processFread (memory : UserMemory) (virtPtr size nmemb : Nat) (fd : Int) (files : FileState φ)
    (fileHandles : List Int) : FileOutcome φ :=
  match processFileHandleGet fileHandles fd with
  | none => ⟨.status (some (-eio)), files, some fileHandles⟩
  | some fd =>
    let trueSize := size * nmemb % addressSpace
    let res := (processValidateMemoryOrTerminate memory.allocations virtPtr trueSize).1
    if res < 0 then terminated env res files fileHandles
    else if memory.toPhysical virtPtr = 0 then ⟨.status (some res), files, some fileHandles⟩
    else
      let (res, data, files) := fread env files (size % 2 ^ 32) (nmemb % 2 ^ 32) fd
      ⟨⟨res, data, none⟩, files, some fileHandles⟩

/-- `process_fwrite`, with the bytes at the pointer. -/
def processFwrite (memory : UserMemory) (virtPtr : Nat) (data : List UInt8) (size nmemb : Nat) (fd : Int)
    (files : FileState φ) (fileHandles : List Int) : FileOutcome φ :=
  match processFileHandleGet fileHandles fd with
  | none => ⟨.status (some (-eio)), files, some fileHandles⟩
  | some fd =>
    if memory.toPhysical virtPtr = 0 then ⟨.status (some (-eio)), files, some fileHandles⟩
    else
      let (res, files) := fwrite env files data size nmemb fd
      ⟨.status res, files, some fileHandles⟩

/-- `process_fclose`.  `vector_pop_element` needs a buffer to compare with, and keeps the handle
when it gets none. -/
def processFclose (fd : Int) (tmpAllocated : Bool) (files : FileState φ) (fileHandles : List Int) :
    FileOutcome φ :=
  match processFileHandleGet fileHandles fd with
  | none => ⟨.status (some (-einvarg)), files, some fileHandles⟩
  | some fd =>
    let (res, files) := fclose env files fd
    ⟨.status (res.map fun _ => 0), files,
      some (Elements.vectorPopElement tmpAllocated fileHandles fd)⟩

/-- What the allocations of `process_fopen` find: those of the path parser, the handle, and the
growth of the vector. -/
structure OpenMemory where
  path : Nat → Bool
  handle : Bool
  push : Elements.Growth Int

/-- `process_fopen`.  It does not look at what `vector_push` returns. -/
def processFopen (path mode : CStr) (memory : OpenMemory) (files : FileState φ)
    (fileHandles : List Int) : FileOutcome φ :=
  match fopen env files memory.path path mode with
  | (none, files) => ⟨.status none, files, some fileHandles⟩
  | (some fd, files) =>
    if 0 < fd ∧ memory.handle then
      ⟨.status (some fd), files, some (Elements.vectorPush memory.push fileHandles fd)⟩
    else
      let res := if fd ≤ 0 then -eio else -enomem
      let (closed, files) := fclose env files fd
      ⟨.status (closed.map fun _ => res), files, some fileHandles⟩

/-- A call of one of the six functions. -/
inductive ProcessCall where
  | fopen (path mode : CStr) (memory : OpenMemory)
  | fread (memory : UserMemory) (virtPtr size nmemb : Nat) (fd : Int)
  | fwrite (memory : UserMemory) (virtPtr : Nat) (data : List UInt8) (size nmemb : Nat) (fd : Int)
  | fseek (fd offset : Int) (whence : Nat)
  | fstat (memory : UserMemory) (fd : Int) (virtFilestatAddr : Nat)
  | fclose (fd : Int) (tmpAllocated : Bool)

/-- The number the call is for. -/
def ProcessCall.fd : ProcessCall → Option Int
  | .fopen _ _ _ => none
  | .fread _ _ _ _ fd | .fwrite _ _ _ _ _ fd | .fseek fd _ _ | .fstat _ fd _ | .fclose fd _ => some fd

def processCall (files : FileState φ) (fileHandles : List Int) : ProcessCall → FileOutcome φ
  | .fopen path mode memory => processFopen env path mode memory files fileHandles
  | .fread memory virtPtr size nmemb fd =>
    processFread env memory virtPtr size nmemb fd files fileHandles
  | .fwrite memory virtPtr data size nmemb fd =>
    processFwrite env memory virtPtr data size nmemb fd files fileHandles
  | .fseek fd offset whence => processFseek env fd offset whence files fileHandles
  | .fstat memory fd virtFilestatAddr => processFstat env memory fd virtFilestatAddr files fileHandles
  | .fclose fd tmpAllocated => processFclose env fd tmpAllocated files fileHandles

end Calls

/-! ## The runs -/

/-- The open files, and the handles of every process there is. -/
structure ProcessFiles (φ : Type) where
  files : FileState φ
  fileHandles : Nat → Option (List Int)

variable {φ : Type}

/-- A call of the process with the given number. -/
def processStep (env : FileEnv φ) (s : ProcessFiles φ) (op : Nat × ProcessCall) (t : ProcessFiles φ) :
    Prop :=
  ∃ fileHandles, s.fileHandles op.1 = some fileHandles ∧
    t.files = (processCall env s.files fileHandles op.2).files ∧
    t.fileHandles = Function.update s.fileHandles op.1
      (processCall env s.files fileHandles op.2).fileHandles

/-- The call failed without a word about the file: it left the files alone, or the process was
terminated and its own files were closed. -/
structure Refused (env : FileEnv φ) (files : FileState φ) (fileHandles : List Int) (fd : Int)
    (outcome : FileOutcome φ) : Prop where
  failed : ∃ code : Int, code < 0 ∧ outcome.result = .status (some code)
  kept : (outcome.files = files ∧ outcome.fileHandles = some fileHandles) ∨
    (outcome.files = processCloseFileHandles env files fileHandles ∧ outcome.fileHandles = none)
  descriptor : fileGetDescriptor outcome.files.descriptors fd = fileGetDescriptor files.descriptors fd

/-- The two states differ only in the files behind numbers that are not among the handles. -/
structure SameOwnFiles (fileHandles : List Int) (files files' : FileState φ) : Prop where
  volumes : files'.volumes = files.volumes
  inUse : ∀ i, (files'.descriptors i).isSome = (files.descriptors i).isSome
  own : ∀ fd ∈ fileHandles,
    fileGetDescriptor files'.descriptors fd = fileGetDescriptor files.descriptors fd

/-- A number that is not among the handles gets the process nowhere, and nothing it is told depends
on the files behind such numbers. -/
structure Isolated (env : FileEnv φ) (s : ProcessFiles φ) (op : Nat × ProcessCall) : Prop where
  refused : ∀ fileHandles, s.fileHandles op.1 = some fileHandles → ∀ fd, op.2.fd = some fd →
    fd ∉ fileHandles → Refused env s.files fileHandles fd (processCall env s.files fileHandles op.2)
  blind : ∀ fileHandles, s.fileHandles op.1 = some fileHandles → ∀ other,
    SameOwnFiles fileHandles s.files other →
    (processCall env other fileHandles op.2).result = (processCall env s.files fileHandles op.2).result

/-- A `process_fstat` is for one of the process's own handles, or for a number that is not in use, or
fails before it gets to the file. -/
def Guarded (s : ProcessFiles φ) : Nat × ProcessCall → Prop
  | (pid, .fstat memory fd virtFilestatAddr) =>
    ∀ fileHandles, s.fileHandles pid = some fileHandles →
      fd ∈ fileHandles ∨ fileGetDescriptor s.files.descriptors fd = none ∨
      (processValidateMemoryOrTerminate memory.allocations virtFilestatAddr sizeofFileStat).1 < 0 ∨
      memory.toPhysical virtFilestatAddr = 0
  | _ => True

/-! ## Closing files -/

/-- Every descriptor carries the number of its slot. -/
def IndexOk (files : FileState φ) : Prop :=
  ∀ i desc, files.descriptors i = some desc → desc.index = i + 1

/-- `fclose` leaves the table alone, or it clears the slot of its number. -/
theorem fclose_descriptors (env : FileEnv φ) {files : FileState φ} (indexed : IndexOk files) (fd : Int) :
    (fclose env files fd).2.descriptors = files.descriptors ∨
      (0 < fd ∧ (fclose env files fd).2.descriptors =
        Function.update files.descriptors (fd - 1).toNat none) := by
  unfold fclose
  cases found : fileGetDescriptor files.descriptors fd with
  | none => exact .inl rfl
  | some desc =>
    obtain ⟨positive, stored⟩ := fileGetDescriptor_eq_some found
    have index := indexed _ _ stored
    dsimp only
    split
    · split
      · refine .inr ⟨positive, ?_⟩
        simp only [fileFreeDescriptor, index, Nat.add_sub_cancel]
      · exact .inl rfl
    · exact .inl rfl

theorem fclose_indexOk (env : FileEnv φ) {files : FileState φ} (indexed : IndexOk files) (fd : Int) :
    IndexOk (fclose env files fd).2 := by
  intro i desc stored
  rcases fclose_descriptors env indexed fd with same | ⟨-, cleared⟩
  · exact indexed i desc (same ▸ stored)
  · rw [cleared, Function.update_apply] at stored
    split at stored
    · exact absurd stored (by simp)
    · exact indexed i desc stored

/-- Closing one number leaves what every other number stands for. -/
theorem fclose_other (env : FileEnv φ) {files : FileState φ} (indexed : IndexOk files) {fd other : Int}
    (different : other ≠ fd) :
    fileGetDescriptor (fclose env files fd).2.descriptors other =
      fileGetDescriptor files.descriptors other := by
  rcases fclose_descriptors env indexed fd with same | ⟨positive, cleared⟩
  · rw [same]
  · rw [cleared]
    unfold fileGetDescriptor
    split
    · rfl
    · rename_i inside
      rw [Function.update_of_ne (by omega)]

theorem closeFileHandles_indexOk (env : FileEnv φ) (fileHandles : List Int) {files : FileState φ}
    (indexed : IndexOk files) : IndexOk (processCloseFileHandles env files fileHandles) := by
  induction fileHandles generalizing files with
  | nil => exact indexed
  | cons fd rest ih => exact ih (fclose_indexOk env indexed fd)

theorem closeFileHandles_other (env : FileEnv φ) {fileHandles : List Int} {files : FileState φ}
    (indexed : IndexOk files) {other : Int} (notOwn : other ∉ fileHandles) :
    fileGetDescriptor (processCloseFileHandles env files fileHandles).descriptors other =
      fileGetDescriptor files.descriptors other := by
  induction fileHandles generalizing files with
  | nil => rfl
  | cons fd rest ih =>
    rw [List.mem_cons, not_or] at notOwn
    obtain ⟨different, notInRest⟩ := notOwn
    exact (ih (fclose_indexOk env indexed fd) notInRest).trans (fclose_other env indexed different)

/-! ## The invariant of the runs -/

theorem fopen_indexOk (env : FileEnv φ) {files : FileState φ} (indexed : IndexOk files)
    (memory : Nat → Bool) (path mode : CStr) : IndexOk (fopen env files memory path mode).2 := by
  rcases fopen_cases env files memory path mode with ⟨same, -⟩ | ⟨drive, parts, fileMode, p, v, i, -, -, -, -, opened⟩
  · intro j desc stored
    exact indexed j desc (same ▸ stored)
  · rw [opened]
    intro j desc stored
    simp only [Function.update_apply] at stored
    split at stored
    · rename_i here
      obtain rfl := Option.some.inj stored
      rw [here]
    · exact indexed j desc stored

theorem terminated_indexOk (env : FileEnv φ) {files : FileState φ} (indexed : IndexOk files) (res : Int)
    (fileHandles : List Int) : IndexOk (terminated env res files fileHandles).files :=
  closeFileHandles_indexOk env fileHandles indexed

theorem processCall_indexOk (env : FileEnv φ) {files : FileState φ} (indexed : IndexOk files)
    (fileHandles : List Int) (call : ProcessCall) :
    IndexOk (processCall env files fileHandles call).files := by
  cases call with
  | fopen path mode memory =>
    have opened := fopen_indexOk env indexed memory.path path mode
    simp only [processCall, processFopen]
    split
    · rename_i files' result
      rw [result] at opened
      exact opened
    · rename_i fd files' result
      rw [result] at opened
      split
      · exact opened
      · exact fclose_indexOk env opened fd
  | fread memory virtPtr size nmemb fd =>
    simp only [processCall, processFread]
    split
    · exact indexed
    · split
      · exact terminated_indexOk env indexed _ fileHandles
      · split
        · exact indexed
        · unfold fread
          split
          · exact indexed
          · split <;> exact indexed
  | fwrite memory virtPtr data size nmemb fd =>
    simp only [processCall, processFwrite]
    split
    · exact indexed
    · split
      · exact indexed
      · unfold fwrite
        split
        · exact indexed
        · split <;> exact indexed
  | fseek fd offset whence =>
    simp only [processCall, processFseek]
    split
    · exact indexed
    · unfold fseek
      split <;> exact indexed
  | fstat memory fd virtFilestatAddr =>
    simp only [processCall, processFstat]
    split
    · exact terminated_indexOk env indexed _ fileHandles
    · split <;> exact indexed
  | fclose fd tmpAllocated =>
    simp only [processCall, processFclose]
    split
    · exact indexed
    · exact fclose_indexOk env indexed _

/-! ## A number that is not among the handles -/

theorem processFileHandleGet_none {fileHandles : List Int} {fd : Int} (notOwn : fd ∉ fileHandles) :
    processFileHandleGet fileHandles fd = none := by
  refine List.find?_eq_none.mpr fun handle member same => notOwn ?_
  obtain rfl : handle = fd := by simpa using same
  exact member

theorem processFileHandleGet_some {fileHandles : List Int} {fd handle : Int}
    (found : processFileHandleGet fileHandles fd = some handle) : handle = fd ∧ fd ∈ fileHandles := by
  have same : handle = fd := by simpa using List.find?_some found
  exact ⟨same, same ▸ List.mem_of_find?_eq_some found⟩

theorem refused_unchanged (env : FileEnv φ) (files : FileState φ) (fileHandles : List Int) (fd : Int)
    {code : Int} (negative : code < 0) :
    Refused env files fileHandles fd ⟨.status (some code), files, some fileHandles⟩ :=
  ⟨⟨code, negative, rfl⟩, .inl ⟨rfl, rfl⟩, rfl⟩

theorem refused_terminated (env : FileEnv φ) {files : FileState φ} (indexed : IndexOk files)
    {fileHandles : List Int} {fd : Int} (notOwn : fd ∉ fileHandles) {code : Int} (negative : code < 0) :
    Refused env files fileHandles fd (terminated env code files fileHandles) :=
  ⟨⟨code, negative, rfl⟩, .inr ⟨rfl, rfl⟩, closeFileHandles_other env indexed notOwn⟩

/-- Five of the six functions look the number up first. -/
theorem refused_of_notOwn (env : FileEnv φ) {s : ProcessFiles φ} (indexed : IndexOk s.files) {pid : Nat}
    {call : ProcessCall} (guarded : Guarded s (pid, call)) {fileHandles : List Int}
    (running : s.fileHandles pid = some fileHandles) {fd : Int} (named : call.fd = some fd)
    (notOwn : fd ∉ fileHandles) :
    Refused env s.files fileHandles fd (processCall env s.files fileHandles call) := by
  have unknown := processFileHandleGet_none notOwn
  cases call with
  | fopen path mode memory => exact absurd named (by simp [ProcessCall.fd])
  | fread memory virtPtr size nmemb handle =>
    obtain rfl : handle = fd := Option.some.inj named
    simp only [processCall, processFread, unknown]
    exact refused_unchanged env _ _ _ (by decide)
  | fwrite memory virtPtr data size nmemb handle =>
    obtain rfl : handle = fd := Option.some.inj named
    simp only [processCall, processFwrite, unknown]
    exact refused_unchanged env _ _ _ (by decide)
  | fseek handle offset whence =>
    obtain rfl : handle = fd := Option.some.inj named
    simp only [processCall, processFseek, unknown]
    exact refused_unchanged env _ _ _ (by decide)
  | fclose handle tmpAllocated =>
    obtain rfl : handle = fd := Option.some.inj named
    simp only [processCall, processFclose, unknown]
    exact refused_unchanged env _ _ _ (by decide)
  | fstat memory handle virtFilestatAddr =>
    obtain rfl : handle = fd := Option.some.inj named
    have early := (guarded fileHandles running).resolve_left notOwn
    simp only [processCall, processFstat]
    split
    · rename_i rejected
      exact refused_terminated env indexed notOwn rejected
    · rename_i accepted
      split
      · exact refused_unchanged env _ _ _ (by decide)
      · rename_i mapped
        have unused : fileGetDescriptor s.files.descriptors handle = none :=
          early.resolve_right (not_or.mpr ⟨accepted, mapped⟩)
        simp only [fstat, unused]
        exact refused_unchanged env _ _ _ (by decide)

/-- A `process_fstat` that gets to the file of another process tells what it found. -/
theorem not_refused_of_unguarded (env : FileEnv φ) {s : ProcessFiles φ} {pid : Nat} {call : ProcessCall}
    (unguarded : ¬ Guarded s (pid, call)) : ¬ Isolated env s (pid, call) := by
  intro isolated
  cases call with
  | fstat memory fd virtFilestatAddr =>
    simp only [Guarded, not_forall, not_or] at unguarded
    obtain ⟨fileHandles, running, notOwn, inUse, accepted, mapped⟩ := unguarded
    obtain ⟨desc, found⟩ := Option.ne_none_iff_exists'.mp inUse
    obtain ⟨code, -, result⟩ := (isolated.refused fileHandles running fd rfl notOwn).failed
    simp only [processCall, processFstat, if_neg accepted, if_neg mapped, fstat, found] at result
    exact absurd (congrArg FileResult.stat result) (by simp [FileResult.status])
  | fopen | fread | fwrite | fseek | fclose => exact unguarded trivial

/-! ## What a call does not depend on -/

/-- The status of `fclose` depends on the descriptor and on the filesystem. -/
theorem fclose_status_congr (env : FileEnv φ) {files other : FileState φ} {fd : Int}
    (volumes : other.volumes = files.volumes)
    (descriptor : fileGetDescriptor other.descriptors fd = fileGetDescriptor files.descriptors fd) :
    (fclose env other fd).1 = (fclose env files fd).1 := by
  unfold fclose
  rw [descriptor, volumes]
  cases fileGetDescriptor files.descriptors fd with
  | none => rfl
  | some desc =>
    rcases closed : env.fs.closeFile files.volumes desc.privateData with ⟨res, volumes⟩
    cases res with
    | none => simp only [closed]
    | some res =>
      simp only [closed]
      split <;> rfl

/-- What stands behind a number that is in use elsewhere plays no part in `fopen`. -/
theorem fopen_congr (env : FileEnv φ) {files other : FileState φ} (memory : Nat → Bool) (path mode : CStr)
    (volumes : other.volumes = files.volumes)
    (freeSlot : fileFreeSlot other.descriptors = fileFreeSlot files.descriptors) :
    (fopen env other memory path mode).1 = (fopen env files memory path mode).1 ∧
      (fopen env other memory path mode).2.volumes = (fopen env files memory path mode).2.volumes ∧
      ∀ fd, (fopen env files memory path mode).1 = some fd →
        fileGetDescriptor (fopen env other memory path mode).2.descriptors fd =
          fileGetDescriptor (fopen env files memory path mode).2.descriptors fd := by
  have cleanup : ∀ (st st' : FileState φ) p, st'.volumes = st.volumes →
      (fopenCleanup env st' p).1 = (fopenCleanup env st p).1 ∧
        (fopenCleanup env st' p).2.volumes = (fopenCleanup env st p).2.volumes ∧
        ∀ fd, (fopenCleanup env st p).1 = some fd →
          fileGetDescriptor (fopenCleanup env st' p).2.descriptors fd =
            fileGetDescriptor (fopenCleanup env st p).2.descriptors fd := by
    intro st st' p same
    unfold fopenCleanup
    rw [same]
    split
    · exact ⟨rfl, same, by simp [fileGetDescriptor]⟩
    · split
      · exact ⟨rfl, rfl, by simp⟩
      · exact ⟨rfl, rfl, by simp [fileGetDescriptor]⟩
  unfold fopen
  cases fopenTarget env memory path mode with
  | none => exact ⟨rfl, volumes, by simp [fileGetDescriptor]⟩
  | some target =>
    obtain ⟨drive, parts, fileMode⟩ := target
    rw [volumes]
    rcases opened : env.fs.openFile files.volumes drive parts fileMode with ⟨privateData, volumes'⟩
    cases privateData with
    | none => simp [opened]
    | some privateData =>
      simp only [opened]
      split
      · exact cleanup _ _ privateData rfl
      · rw [freeSlot]
        cases fileFreeSlot files.descriptors with
        | none => exact cleanup _ _ privateData rfl
        | some i =>
          refine ⟨rfl, rfl, ?_⟩
          rintro fd returned
          obtain rfl := Option.some.inj returned
          simp [fileGetDescriptor]

namespace SameOwnFiles

variable {fileHandles : List Int} {files other : FileState φ}

theorem freeSlot (same : SameOwnFiles fileHandles files other) :
    fileFreeSlot other.descriptors = fileFreeSlot files.descriptors := by
  have isNone : ∀ i, (other.descriptors i).isNone = (files.descriptors i).isNone := by
    intro i
    rw [← Option.not_isSome, same.inUse, Option.not_isSome]
  simp only [fileFreeSlot, isNone]

theorem unused (same : SameOwnFiles fileHandles files other) {fd : Int}
    (none : fileGetDescriptor files.descriptors fd = none) :
    fileGetDescriptor other.descriptors fd = Option.none := by
  unfold fileGetDescriptor at none ⊢
  split at none
  · rename_i outside
    rw [if_pos outside]
  · rename_i inside
    rw [if_neg inside]
    have inUse := same.inUse (fd - 1).toNat
    rw [none] at inUse
    exact Option.not_isSome_iff_eq_none.mp (by rw [inUse]; simp)

/-- The result of a guarded call is the same. -/
theorem result (env : FileEnv φ) (same : SameOwnFiles fileHandles files other) {call : ProcessCall}
    (guarded : Guarded ⟨files, fun _ => some fileHandles⟩ (0, call)) :
    (processCall env other fileHandles call).result = (processCall env files fileHandles call).result := by
  cases call with
  | fopen path mode memory =>
    obtain ⟨status, volumes, descriptor⟩ := fopen_congr env memory.path path mode same.volumes same.freeSlot
    simp only [processCall, processFopen]
    rcases opened : fopen env files memory.path path mode with ⟨fd, files'⟩
    rcases openedOther : fopen env other memory.path path mode with ⟨fd', other'⟩
    rw [opened, openedOther] at status volumes descriptor
    obtain rfl : fd' = fd := status
    cases fd' with
    | none => rfl
    | some fd =>
      dsimp only
      split
      · rfl
      · rw [fclose_status_congr env volumes (descriptor fd rfl)]
  | fread memory virtPtr size nmemb fd =>
    simp only [processCall, processFread]
    cases found : processFileHandleGet fileHandles fd with
    | none => rfl
    | some handle =>
      obtain ⟨rfl, own⟩ := processFileHandleGet_some found
      dsimp only
      split
      · rfl
      · split
        · rfl
        · simp only [fread, same.own handle own, same.volumes]
          split
          · rfl
          · cases fileGetDescriptor files.descriptors handle <;> rfl
  | fwrite memory virtPtr data size nmemb fd =>
    simp only [processCall, processFwrite]
    cases found : processFileHandleGet fileHandles fd with
    | none => rfl
    | some handle =>
      obtain ⟨rfl, own⟩ := processFileHandleGet_some found
      dsimp only
      split
      · rfl
      · simp only [fwrite, same.own handle own, same.volumes]
        split
        · rfl
        · cases fileGetDescriptor files.descriptors handle <;> rfl
  | fseek fd offset whence =>
    simp only [processCall, processFseek]
    cases found : processFileHandleGet fileHandles fd with
    | none => rfl
    | some handle =>
      obtain ⟨rfl, own⟩ := processFileHandleGet_some found
      simp only [fseek, same.own handle own, same.volumes]
      cases fileGetDescriptor files.descriptors handle <;> rfl
  | fclose fd tmpAllocated =>
    simp only [processCall, processFclose]
    cases found : processFileHandleGet fileHandles fd with
    | none => rfl
    | some handle =>
      obtain ⟨rfl, own⟩ := processFileHandleGet_some found
      dsimp only
      rw [fclose_status_congr env same.volumes (same.own handle own)]
  | fstat memory fd virtFilestatAddr =>
    simp only [processCall, processFstat]
    split
    · rfl
    · rename_i accepted
      split
      · rfl
      · rename_i mapped
        simp only [fstat]
        rcases guarded fileHandles rfl with own | none | rejected | unmapped
        · rw [same.own fd own, same.volumes]
        · change fileGetDescriptor files.descriptors fd = Option.none at none
          rw [same.unused none, none]
        · exact absurd rejected accepted
        · exact absurd unmapped mapped

end SameOwnFiles

/-! ## Every run -/

theorem isolated_of_guarded (env : FileEnv φ) {s : ProcessFiles φ} (indexed : IndexOk s.files)
    {op : Nat × ProcessCall} (guarded : Guarded s op) : Isolated env s op := by
  obtain ⟨pid, call⟩ := op
  refine ⟨fun fileHandles running fd named notOwn =>
    refused_of_notOwn env indexed guarded running named notOwn, ?_⟩
  intro fileHandles running other same
  refine same.result env ?_
  cases call with
  | fstat memory fd virtFilestatAddr =>
    intro fileHandles' running'
    obtain rfl := Option.some.inj running'
    exact guarded fileHandles running
  | fopen | fread | fwrite | fseek | fclose => trivial

/-- From the boot on, whatever calls are made by whatever processes: all steps are isolated just when
every `process_fstat` is guarded. -/
theorem isolated_iff_guarded (env : FileEnv φ) (volumes : φ) (fileHandles : Nat → Option (List Int))
    (run : List ((Nat × ProcessCall) × ProcessFiles φ))
    (isRun : IsRun (processStep env) ⟨fsInit volumes, fileHandles⟩ run) :
    EveryStep (Isolated env) ⟨fsInit volumes, fileHandles⟩ run ↔
      EveryStep Guarded ⟨fsInit volumes, fileHandles⟩ run := by
  have stepwise : EveryStep (fun s op => Isolated env s op ↔ Guarded s op)
      ⟨fsInit volumes, fileHandles⟩ run := by
    refine everyStep_of_inv
      (?_ : ∀ s op t, processStep env s op t → IndexOk s.files → IndexOk t.files) ?_ isRun ?_
    · rintro s op t ⟨handles, -, files, -⟩ indexed
      rw [files]
      exact processCall_indexOk env indexed handles op.2
    · intro s op t _ indexed
      exact ⟨fun isolated => by_contra fun unguarded => not_refused_of_unguarded env unguarded isolated,
        isolated_of_guarded env indexed⟩
    · intro i desc stored
      exact absurd stored (by simp [fsInit])
  exact everyStep_congr stepwise

/-! ## Two processes -/

/-- The state after a call. -/
def ProcessFiles.after (env : FileEnv φ) (s : ProcessFiles φ) (op : Nat × ProcessCall) :
    ProcessFiles φ :=
  match s.fileHandles op.1 with
  | none => s
  | some fileHandles =>
    let outcome := processCall env s.files fileHandles op.2
    ⟨outcome.files, Function.update s.fileHandles op.1 outcome.fileHandles⟩

theorem processStep_after {env : FileEnv φ} {s : ProcessFiles φ} {op : Nat × ProcessCall}
    {fileHandles : List Int} (running : s.fileHandles op.1 = some fileHandles) :
    processStep env s op (s.after env op) := by
  refine ⟨fileHandles, running, ?_, ?_⟩ <;> rw [ProcessFiles.after, running]

/-- Processes 0 and 1 run and hold nothing. -/
def twoProcesses : ProcessFiles Nat := ⟨fsInit 0, fun pid => if pid < 2 then some [] else none⟩

/-- A process whose stack is mapped. -/
def stackMemory : UserMemory := ⟨[], fun virt => virt⟩

/-- There is memory for all. -/
def enoughMemory : OpenMemory := ⟨allServed, true, .room⟩

/-- Process 0 opens a file. -/
def openFirst : Nat × ProcessCall := (0, .fopen pathA modeR enoughMemory)

/-- Process `pid` asks for the status of descriptor 1, into its stack. -/
def statFirst (pid : Nat) : Nat × ProcessCall :=
  (pid, .fstat stackMemory 1 viosProgramVirtualStackAddressEnd)

theorem openFirst_running :
    (twoProcesses.after countingEnv openFirst).fileHandles 0 = some [1] ∧
      (twoProcesses.after countingEnv openFirst).fileHandles 1 = some [] := by
  decide +kernel

/-- The process that opened the file may ask for its status. -/
theorem isolated_ownStat :
    let opened := twoProcesses.after countingEnv openFirst
    EveryStep (Isolated countingEnv) twoProcesses
      [(openFirst, opened), (statFirst 0, opened.after countingEnv (statFirst 0))] := by
  have isRun : IsRun (processStep countingEnv) twoProcesses
      [(openFirst, twoProcesses.after countingEnv openFirst),
        (statFirst 0, (twoProcesses.after countingEnv openFirst).after countingEnv (statFirst 0))] :=
    ⟨@processStep_after _ _ twoProcesses openFirst [] rfl, processStep_after openFirst_running.1, trivial⟩
  refine (isolated_iff_guarded countingEnv 0 _ _ isRun).mpr ⟨trivial, ?_, trivial⟩
  intro fileHandles running
  change (twoProcesses.after countingEnv openFirst).fileHandles 0 = some fileHandles at running
  rw [openFirst_running.1] at running
  obtain rfl := Option.some.inj running
  exact .inl List.mem_cons_self

/-- The other process gets the status as well. -/
theorem otherStat_not_isolated :
    let opened := twoProcesses.after countingEnv openFirst
    IsRun (processStep countingEnv) twoProcesses
      [(openFirst, opened), (statFirst 1, opened.after countingEnv (statFirst 1))] ∧
    opened.fileHandles 1 = some [] ∧
    (processCall countingEnv opened.files [] (statFirst 1).2).result.res = some 0 ∧
    (processCall countingEnv opened.files [] (statFirst 1).2).result.stat ≠ none ∧
    ¬ EveryStep (Isolated countingEnv) twoProcesses
      [(openFirst, opened), (statFirst 1, opened.after countingEnv (statFirst 1))] := by
  refine ⟨⟨@processStep_after _ _ twoProcesses openFirst [] rfl, processStep_after openFirst_running.2, trivial⟩,
    openFirst_running.2, by decide +kernel, by decide +kernel, ?_⟩
  rintro ⟨-, isolated, -⟩
  refine not_refused_of_unguarded countingEnv (fun guarded => ?_) isolated
  rcases guarded [] openFirst_running.2 with own | unused | rejected | unmapped
  · exact absurd own (by simp)
  · exact absurd unused (by decide +kernel)
  · exact absurd rejected (by decide +kernel)
  · exact absurd unmapped (by decide +kernel)

end ViOS.Process
