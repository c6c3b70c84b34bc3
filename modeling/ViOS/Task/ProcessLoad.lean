import ViOS.Task.List

/-! # The failure points of `process_load_for_slot`

`process_load_for_slot` builds a process in seven steps, each of which may fail, and has
one label for the cleanup.  What the cleanup finds depends on the step: the pointer to
the new process is not initialised before the second step, and the task's pointer may
be a status code.

The functions of other files are taken by what they return, which may be anything;
reading through a pointer that was never set, or through the null pointer, is undefined.

* `processLoadForSlot`, `processFreeProcess` and the functions they call — the code.
* `FailsClean` — a failed call leaves nothing behind.
* `FailureHandled` — the failures of which that is true.
* `processLoadForSlot_clean_iff` — these and no others.
-/

namespace ViOS.Tasking

/-! ## The code -/

/-- `PROCESS_FILETYPE`. -/
inductive ProcessFiletype where
  | elf
  | binary
  deriving DecidableEq, Repr

/-- The fields of `struct process` that loading sets; `program` is the union of `ptr` and `elf_file`. -/
structure ProcessFields where
  id : Nat
  task : Ptr
  pagingDesc : Ptr
  allocations : Ptr
  fileHandles : Ptr
  filetype : ProcessFiletype
  program : Ptr
  stack : Ptr
  size : Nat
  deriving DecidableEq, Repr

/-- What the functions that are called return, in the order of the calls. -/
structure LoadCalls where
  /-- `kzalloc` of the process. -/
  process : Ptr
  /-- `vector_new`, for the allocations and for the file handles. -/
  allocations : Ptr
  fileHandles : Ptr
  /-- `elf_load`: the status and the loaded file, with its entry point. -/
  elfLoad : Int
  elfFile : Ptr
  elfEntry : Nat
  /-- `fopen`, `fstat`, `kzalloc` and `fread` of `process_load_binary`. -/
  fopen : Int
  fstat : Int
  filesize : Nat
  programData : Ptr
  fread : Int
  /-- `kzalloc` of the stack. -/
  stack : Ptr
  /-- `paging_desc_new`. -/
  pagingDesc : Ptr
  /-- `process_map_elf`. -/
  mapElf : Int
  /-- `kzalloc` of the task. -/
  task : Ptr

/-- The kernel's data: the process vector, the caller's `*process`, the processes and the tasks. -/
structure LoadState where
  slots : List Ptr
  processOut : Ptr
  processes : Ptr → ProcessFields
  tasks : TaskGlobals

/-- `process_get`. -/
def processGet (slots : List Ptr) (slot : Int) : Ptr :=
  if slot < 0 then errorPtr einvarg else (slots[slot.toNat]?).getD (errorPtr einvarg)

/-- `process_init`. -/
def processInit (calls : LoadCalls) : ProcessFields where
  id := 0
  task := 0
  pagingDesc := 0
  allocations := calls.allocations
  fileHandles := calls.fileHandles
  filetype := .elf
  program := 0
  stack := 0
  size := 0

/-- `process_load_binary`. -/
def processLoadBinary (calls : LoadCalls) (process : ProcessFields) : Int × ProcessFields :=
  if calls.fopen = 0 then (-eio, process)
  else if calls.fstat ≠ viosAllOk then (calls.fstat, process)
  else if calls.programData = 0 then (-enomem, process)
  else if calls.fread ≠ 1 then (-eio, process)
  else (calls.fstat,
    { process with filetype := .binary, program := calls.programData, size := calls.filesize % 2 ^ 32 })

/-- `process_load_elf`. -/
def processLoadElf (calls : LoadCalls) (process : ProcessFields) : Int × ProcessFields :=
  if calls.elfLoad < 0 then (calls.elfLoad, process)
  else (calls.elfLoad, { process with filetype := .elf, program := calls.elfFile })

/-- `process_load_data`. -/
def processLoadData (calls : LoadCalls) (process : ProcessFields) : Int × ProcessFields :=
  let (res, process) := processLoadElf calls process
  if res = -einformat then processLoadBinary calls process else (res, process)

/-- `process_map_memory`; the stack's mapping is not looked at. -/
def processMapMemory (calls : LoadCalls) (process : ProcessFields) : Option Int :=
  match process.filetype with
  | .elf => if process.program = 0 then none else some calls.mapElf
  | .binary => some 0

/-- `process_free_process`, of a process without allocations and open files. -/
def processFreeProcess (process : ProcessFields) (tasks : TaskGlobals) : Option TaskGlobals :=
  -- `vector_count` reads through both pointers
  if process.allocations = 0 ∨ process.fileHandles = 0 then none
  else some (if process.task = 0 then tasks else taskFree tasks process.task)

/-- The label `out`; `contents` is what `_process` points to, if it points to a process. -/
def loadOut (res : Int) (process : Ptr) (contents : Option ProcessFields) (state : LoadState) :
    Option (Int × LoadState) :=
  if res < 0 ∧ process ≠ 0 then
    match contents with
    | none => none
    | some fields => (processFreeProcess fields state.tasks).map fun tasks =>
        (res, { state with tasks, processOut := 0 })
  else some (res, state)

/-- `*_process = fields`. -/
def LoadState.store (state : LoadState) (process : Ptr) (fields : ProcessFields) : LoadState :=
  { state with processes := Function.update state.processes process fields }

/-- The process once its program and its stack are loaded. -/
def loadedFields (calls : LoadCalls) (slot : Int) : ProcessFields :=
  { (processLoadData calls (processInit calls)).2 with
    stack := calls.stack, id := (slot % 2 ^ 16).toNat, pagingDesc := calls.pagingDesc }

/-- What `task_init` reads of the process. -/
def processImage (calls : LoadCalls) (fields : ProcessFields) : ProcessImage :=
  ⟨calls.process, if fields.filetype = .elf then some calls.elfEntry else none⟩

/-- The end of `process_load_for_slot`, from `task_new` on; `res` is the status so far. -/
def loadTask (calls : LoadCalls) (slot : Int) (fields : ProcessFields) (res : Int) (state : LoadState) :
    Option (Int × LoadState) :=
  let (task, tasks) := taskNew state.tasks (processImage calls fields) calls.task
  let state := { state with tasks }
  if errorCode task = 0 then
    let fields := { fields with task := 0 }
    loadOut (errorCode task) calls.process (some fields) (state.store calls.process fields)
  else
    let state := state.store calls.process { fields with task }
    loadOut res calls.process (some { fields with task })
      { state with processOut := calls.process, slots := state.slots.set slot.toNat calls.process }

/-- `process_load_for_slot`; `stale` is what the variable `_process` holds before it is set. -/
def processLoadForSlot (calls : LoadCalls) (stale : Ptr) (slot : Int) (state : LoadState) :
    Option (Int × LoadState) :=
  if processGet state.slots slot ≠ 0 then loadOut (-eistkn) stale none state
  else if calls.process = 0 then loadOut (-enomem) 0 none state
  else
    let (res, loaded) := processLoadData calls (processInit calls)
    if res < 0 then loadOut res calls.process (some loaded) (state.store calls.process loaded)
    else
      let fields := { loaded with stack := calls.stack }
      if calls.stack = 0 then
        loadOut (-enomem) calls.process (some fields) (state.store calls.process fields)
      else
        let fields := loadedFields calls slot
        if calls.pagingDesc = 0 then
          loadOut (-eio) calls.process (some fields) (state.store calls.process fields)
        else
          match processMapMemory calls fields with
          | none => none
          | some res =>
            if res < 0 then loadOut res calls.process (some fields) (state.store calls.process fields)
            else loadTask calls slot fields res state

/-! ## The property -/

/-- Some step fails, or `task_new` returns what is taken for a failure. -/
def Fails (calls : LoadCalls) (slot : Int) (state : LoadState) : Prop :=
  processGet state.slots slot ≠ 0 ∨ calls.process = 0 ∨
    (processLoadData calls (processInit calls)).1 < 0 ∨ calls.stack = 0 ∨ calls.pagingDesc = 0 ∨
    (∃ res, processMapMemory calls (loadedFields calls slot) = some res ∧ res < 0) ∨
    errorCode calls.task = 0

/-- The pointer carries a negative status code. -/
def ErrorEncoded (ptr : Ptr) : Prop := ∃ code : Int, -2 ^ 31 ≤ code ∧ code < 0 ∧ ptr = errorPtr code

/-- The call returns a negative code; `*process` is null, the process vector and the task list are as
before, and no status code was stored as the pointer of a task. -/
def FailsClean (calls : LoadCalls) (stale : Ptr) (slot : Int) (state : LoadState) : Prop :=
  ∃ res next, processLoadForSlot calls stale slot state = some (res, next) ∧ res < 0 ∧
    next.processOut = 0 ∧ next.slots = state.slots ∧ next.tasks = state.tasks ∧
    ∀ process, ErrorEncoded (next.processes process).task → ErrorEncoded (state.processes process).task

/-- The failures that are handled: a slot that is taken when `_process` happens to be null, and no memory
for the process, both only when `*process` is null already; after that every step up to the mapping, when
`process_init` got its vectors. -/
def FailureHandled (calls : LoadCalls) (stale : Ptr) (slot : Int) (state : LoadState) : Prop :=
  if processGet state.slots slot ≠ 0 then stale = 0 ∧ state.processOut = 0
  else if calls.process = 0 then state.processOut = 0
  else ((processLoadData calls (processInit calls)).1 < 0 ∨ calls.stack = 0 ∨ calls.pagingDesc = 0 ∨
      ∃ res, processMapMemory calls (loadedFields calls slot) = some res ∧ res < 0) ∧
    calls.allocations ≠ 0 ∧ calls.fileHandles ≠ 0

/-! ## The label `out` -/

section Out

variable {calls : LoadCalls} {stale : Ptr} {slot res : Int} {state next : LoadState} {fields : ProcessFields}

/-- Loading the program neither creates a task nor touches the vectors. -/
theorem processLoadData_keeps (calls : LoadCalls) (process : ProcessFields) :
    (processLoadData calls process).2.task = process.task ∧
      (processLoadData calls process).2.allocations = process.allocations ∧
      (processLoadData calls process).2.fileHandles = process.fileHandles := by
  have elf : (processLoadElf calls process).2.task = process.task ∧
      (processLoadElf calls process).2.allocations = process.allocations ∧
      (processLoadElf calls process).2.fileHandles = process.fileHandles := by
    unfold processLoadElf
    split <;> exact ⟨rfl, rfl, rfl⟩
  have binary : ∀ p : ProcessFields, (processLoadBinary calls p).2.task = p.task ∧
      (processLoadBinary calls p).2.allocations = p.allocations ∧
      (processLoadBinary calls p).2.fileHandles = p.fileHandles := by
    intro p
    unfold processLoadBinary
    split_ifs <;> exact ⟨rfl, rfl, rfl⟩
  unfold processLoadData
  simp only
  split
  · obtain ⟨task, allocations, fileHandles⟩ := binary (processLoadElf calls process).2
    exact ⟨task.trans elf.1, allocations.trans elf.2.1, fileHandles.trans elf.2.2⟩
  · exact elf

/-- What a result of the call says when the call fails cleanly. -/
theorem failsClean_iff (result : processLoadForSlot calls stale slot state = some (res, next)) :
    FailsClean calls stale slot state ↔ res < 0 ∧ next.processOut = 0 ∧ next.slots = state.slots ∧
      next.tasks = state.tasks ∧
      ∀ process, ErrorEncoded (next.processes process).task → ErrorEncoded (state.processes process).task := by
  unfold FailsClean
  rw [result]
  constructor
  · rintro ⟨res', next', same, clean⟩
    obtain ⟨rfl, rfl⟩ := Prod.mk.inj (Option.some.inj same)
    exact clean
  · exact fun clean => ⟨res, next, rfl, clean⟩

theorem not_failsClean (undefined : processLoadForSlot calls stale slot state = none) :
    ¬ FailsClean calls stale slot state := by
  rintro ⟨res, next, result, -⟩
  rw [undefined] at result
  exact absurd result (by simp)

theorem not_errorEncoded_zero : ¬ ErrorEncoded 0 := by
  rintro ⟨code, lower, negative, isZero⟩
  change 0 = (code % 18446744073709551616).toNat at isZero
  omega

/-- The cleanup of a process without a task undoes the call when the process has its vectors. -/
theorem failsClean_out_iff (noTask : fields.task = 0) (negative : res < 0) (provided : calls.process ≠ 0)
    (result : processLoadForSlot calls stale slot state =
      loadOut res calls.process (some fields) (state.store calls.process fields)) :
    FailsClean calls stale slot state ↔ fields.allocations ≠ 0 ∧ fields.fileHandles ≠ 0 := by
  unfold loadOut processFreeProcess at result
  rw [if_pos ⟨negative, provided⟩] at result
  by_cases lost : fields.allocations = 0 ∨ fields.fileHandles = 0
  · simp only [if_pos lost, Option.map_none] at result
    exact iff_of_false (not_failsClean result) (by tauto)
  · simp only [if_neg lost, noTask, if_true, Option.map_some] at result
    rw [failsClean_iff result]
    refine iff_of_true ⟨negative, rfl, rfl, rfl, fun process encoded => ?_⟩ (not_or.mp lost)
    change ErrorEncoded ((Function.update state.processes calls.process fields) process).task at encoded
    by_cases same : process = calls.process
    · rw [same, Function.update_self, noTask] at encoded
      exact absurd encoded not_errorEncoded_zero
    · rwa [Function.update_of_ne same] at encoded

/-- From `task_new` on the status is never negative. -/
theorem loadTask_status {final : Int} (notNegative : 0 ≤ res)
    (result : loadTask calls slot fields res state = some (final, next)) : 0 ≤ final := by
  unfold loadTask loadOut at result
  simp only at result
  split at result
  · rename_i zero
    rw [zero, if_neg (by omega)] at result
    obtain ⟨rfl, -⟩ := Prod.mk.inj (Option.some.inj result)
    exact Int.le_refl _
  · rw [if_neg (by omega)] at result
    obtain ⟨rfl, -⟩ := Prod.mk.inj (Option.some.inj result)
    exact notNegative

end Out

/-- A call that takes an error exit leaves nothing behind just when the failure is one that is handled. -/
theorem failsClean_iff_handled (calls : LoadCalls) (stale : Ptr) (slot : Int) (state : LoadState) :
    FailsClean calls stale slot state ↔ FailureHandled calls stale slot state := by
  unfold FailureHandled
  obtain ⟨noTask, allocations, fileHandles⟩ := processLoadData_keeps calls (processInit calls)
  by_cases taken : processGet state.slots slot ≠ 0
  · -- `_process` was never set
    have result : processLoadForSlot calls stale slot state = loadOut (-eistkn) stale none state :=
      if_pos taken
    rw [if_pos taken]
    unfold loadOut at result
    by_cases null : stale = 0
    · rw [if_neg fun both => both.2 null] at result
      rw [failsClean_iff result]
      exact ⟨fun clean => ⟨null, clean.2.1⟩, fun clean => ⟨by decide, clean.2, rfl, rfl, fun _ same => same⟩⟩
    · rw [if_pos ⟨by decide, null⟩] at result
      exact iff_of_false (not_failsClean result) fun clean => null clean.1
  rw [if_neg taken]
  by_cases noProcess : calls.process = 0
  · have result : processLoadForSlot calls stale slot state = some (-enomem, state) := by
      unfold processLoadForSlot loadOut
      rw [if_neg taken, if_pos noProcess, if_neg fun both => both.2 rfl]
    rw [if_pos noProcess, failsClean_iff result]
    exact ⟨fun clean => clean.2.1, fun null => ⟨by decide, null, rfl, rfl, fun _ same => same⟩⟩
  rw [if_neg noProcess]
  have steps : processLoadForSlot calls stale slot state = _ := (if_neg taken).trans (if_neg noProcess)
  simp only at steps
  by_cases unloaded : (processLoadData calls (processInit calls)).1 < 0
  · rw [if_pos unloaded] at steps
    rw [failsClean_out_iff noTask unloaded noProcess steps, allocations, fileHandles]
    exact (and_iff_right (.inl unloaded)).symm
  rw [if_neg unloaded] at steps
  rw [or_iff_right unloaded] 
  by_cases noStack : calls.stack = 0
  · rw [if_pos noStack] at steps
    have stillNone : ({ (processLoadData calls (processInit calls)).2 with stack := calls.stack } :
        ProcessFields).task = 0 := noTask
    have cleaned := failsClean_out_iff stillNone (show -enomem < 0 by decide) noProcess steps
    simp only [allocations, fileHandles] at cleaned
    rw [cleaned]
    exact (and_iff_right (.inl noStack)).symm
  rw [if_neg noStack] at steps
  rw [or_iff_right noStack] 
  have loaded : (loadedFields calls slot).task = 0 ∧
      (loadedFields calls slot).allocations = calls.allocations ∧
      (loadedFields calls slot).fileHandles = calls.fileHandles := ⟨noTask, allocations, fileHandles⟩
  by_cases noDesc : calls.pagingDesc = 0
  · rw [if_pos noDesc] at steps
    rw [failsClean_out_iff loaded.1 (show -eio < 0 by decide) noProcess steps, loaded.2.1, loaded.2.2]
    exact (and_iff_right (.inl noDesc)).symm
  rw [if_neg noDesc] at steps
  rw [or_iff_right noDesc] 
  cases mapped : processMapMemory calls (loadedFields calls slot) with
  | none =>
    simp only [mapped] at steps
    refine iff_of_false (not_failsClean steps) ?_
    simp
  | some res =>
    simp only [mapped, Option.some.injEq, exists_eq_left'] at steps ⊢
    by_cases unmapped : res < 0
    · rw [if_pos unmapped] at steps
      rw [failsClean_out_iff loaded.1 unmapped noProcess steps, loaded.2.1, loaded.2.2]
      exact (and_iff_right unmapped).symm
    · -- the failure of `task_new` is taken for a success, or a success for a failure
      rw [if_neg unmapped] at steps
      refine iff_of_false ?_ fun handled => unmapped handled.1
      rintro ⟨final, next, result, negative, -⟩
      have := loadTask_status (Int.not_lt.mp unmapped) (steps.symm.trans result)
      omega

/-- Every failing call of `process_load_for_slot` leaves nothing behind just when every failure is one that
is handled. -/
theorem processLoadForSlot_clean_iff (calls : LoadCalls) (stale : Ptr) (slot : Int) (state : LoadState) :
    (Fails calls slot state → FailsClean calls stale slot state) ↔
      (Fails calls slot state → FailureHandled calls stale slot state) :=
  imp_congr_right fun _ => failsClean_iff_handled calls stale slot state

/-- An ELF file that loads, with everything provided but the task. -/
def noTaskCalls : LoadCalls where
  process := 0x2000
  allocations := 0x3000
  fileHandles := 0x4000
  elfLoad := 0
  elfFile := 0x5000
  elfEntry := 0x400000
  fopen := 1
  fstat := 0
  filesize := 0
  programData := 0
  fread := 0
  stack := 0x6000
  pagingDesc := 0x7000
  mapElf := 0
  task := 0

/-- One free slot and no task. -/
def freeSlot : LoadState where
  slots := [0]
  processOut := 0
  processes := fun _ => processInit noTaskCalls
  tasks := .boot fun _ => ⟨.zero, 0, 0, 0⟩

/-- There is no memory for the task, and the call succeeds with a status code as its task. -/
theorem noTask_succeeds : ¬ ∀ (calls : LoadCalls) (stale : Ptr) (slot : Int) (state : LoadState),
    Fails calls slot state → FailsClean calls stale slot state := by
  intro all
  obtain ⟨res, next, result, negative, -⟩ := all noTaskCalls 0 0 freeSlot
    (.inr (.inr (.inr (.inr (.inr (.inr (by decide)))))))
  have succeeds : (processLoadForSlot noTaskCalls 0 0 freeSlot).map Prod.fst = some 0 := by decide
  rw [result] at succeeds
  obtain rfl := Option.some.inj succeeds
  exact absurd negative (by decide)

example : (processLoadForSlot noTaskCalls 0 0 freeSlot).map (fun result =>
    ((result.2.processes 0x2000).task, result.2.slots)) = some (errorPtr (-enomem), [0x2000]) := by decide

end ViOS.Tasking
