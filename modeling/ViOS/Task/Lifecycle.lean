import ViOS.Task.List
import Mathlib.Data.List.GetD

/-! # The life of a process

A running program starts another one with `vios_system` or `vios_process_load_start` and ends with
`vios_exit`; the timer interrupt is switched off, so that these are the only points at which another
task gets the processor.  Three globals say who is in front: `current_process` gets the keyboard,
`current_task` has the page tables, and the registers in the processor are those of the task that the
kernel returned to last.

Memory is as for the task list.  The processes that are loaded are those in `process_vector`, and a
slot that is not in use holds zero.

* `processGetFreeSlot`, `processLoad`, `processLoadSwitch`, `processTerminate`, `taskNext` — the code.
* `ProcessStep` — the steps of the system.
* `InFront` — the three globals name one process.
* `inFront_iff` — the runs in which they do.
-/

namespace ViOS.Tasking

open ViOS.Lib

/-! ## The code -/

/-- `process_vector`, `current_process`, and the fields `id` and `task` of the processes; the task
whose registers are in the processor. -/
structure Processes where
  tasks : TaskGlobals
  slots : List Ptr
  currentProcess : Ptr
  id : Ptr → Nat
  task : Ptr → Ptr
  executing : Ptr

/-- `process_get_free_slot`: the slot, and the vector, which grows when all slots are in use. -/
def processGetFreeSlot (slots : List Ptr) : Nat × List Ptr :=
  match slots.findIdx? (· = 0) with
  | some slot => (slot, slots)
  | none => (slots.length, slots ++ [0])

/-- `process_load`, when it succeeds, with the addresses of the process and of its task. -/
def processLoad (s : Processes) (image : ProcessImage) (task : Ptr) : Processes :=
  let (slot, slots) := processGetFreeSlot s.slots
  let (task, tasks) := taskNew s.tasks image task
  { s with
    tasks
    slots := slots.set slot image.address
    id := Function.update s.id image.address slot
    task := Function.update s.task image.address task }

/-- `process_load_switch`. -/
def processLoadSwitch (s : Processes) (image : ProcessImage) (task : Ptr) : Processes :=
  { processLoad s image task with currentProcess := image.address }

/-- `task_switch` and `task_return`. -/
def taskSwitchReturn (s : Processes) (task : Ptr) : Processes :=
  { s with tasks := { s.tasks with currentTask := task }, executing := task }

/-- `process_switch_to_any`; there is no state when it panics. -/
def processSwitchToAny (s : Processes) : Option Processes :=
  (s.slots.find? (· ≠ 0)).map fun process => { s with currentProcess := process }

/-- `process_unlink`. -/
def processUnlink (s : Processes) (process : Ptr) : Option Processes :=
  let s := { s with slots := s.slots.set (s.id process) 0 }
  if s.currentProcess = process then processSwitchToAny s else some s

/-- `process_terminate`; of the process's own parts only the task is shared with others. -/
def processTerminate (s : Processes) (process : Ptr) : Option Processes :=
  (processUnlink s process).map fun s => { s with tasks := taskFree s.tasks (s.task process) }

/-- `task_next`. -/
def taskNext (s : Processes) : Option Processes :=
  let next := taskGetNext s.tasks
  if next = 0 then none else some (taskSwitchReturn s next)

/-- The process of the current task. -/
def Processes.running (s : Processes) : Ptr := (s.tasks.mem s.tasks.currentTask).process

/-- `isr80h_command9_exit`. -/
def isr80hExitCommand (s : Processes) : Option Processes :=
  (processTerminate s s.running).bind taskNext

/-! ## The steps -/

/-- What the running program makes the kernel do. -/
inductive ProcessEvent where
  /-- A program is started. -/
  | launch (image : ProcessImage) (task : Ptr)
  /-- A program is loaded, but its arguments cannot be copied: the caller goes on. -/
  | uninjected (image : ProcessImage) (task : Ptr)
  /-- A program cannot be loaded, and its task has not been made; a slot may have been added. -/
  | failedLoad
  | exit
  /-- `process_validate_memory_or_terminate` refuses a buffer: the process is terminated, and the call
  returns to it. -/
  | refuse

/-- The addresses are not in use. -/
structure Fresh (s : Processes) (image : ProcessImage) (task : Ptr) : Prop where
  process : image.address ≠ 0 ∧ image.address ∉ s.slots
  task : task ≠ 0 ∧ ∀ process ∈ s.slots, process ≠ 0 → s.task process ≠ task

inductive ProcessStep : Processes → ProcessEvent → Processes → Prop
  | launch {s : Processes} {image : ProcessImage} {task : Ptr} (fresh : Fresh s image task) :
    ProcessStep s (.launch image task) (taskSwitchReturn (processLoadSwitch s image task) task)
  | uninjected {s : Processes} {image : ProcessImage} {task : Ptr} (fresh : Fresh s image task) :
    ProcessStep s (.uninjected image task) (processLoadSwitch s image task)
  | failedLoad {s : Processes} :
    ProcessStep s .failedLoad { s with slots := (processGetFreeSlot s.slots).2 }
  | exit {s t : Processes} (ends : isr80hExitCommand s = some t) : ProcessStep s .exit t
  | refuse {s t : Processes} (ends : processTerminate s s.running = some t) : ProcessStep s .refuse t

/-- `process_system_init`. -/
def noProcesses (mem : Ptr → Task) : Processes := ⟨.boot mem, [], 0, fun _ => 0, fun _ => 0, 0⟩

/-- `kernel_main` loads the first program, and `task_run_first_ever_task` returns to it. -/
def bootProcesses (mem : Ptr → Task) (image : ProcessImage) (task : Ptr) : Processes :=
  let s := processLoadSwitch (noProcesses mem) image task
  taskSwitchReturn s s.tasks.taskHead

/-- One process has the keyboard, the page tables and the processor. -/
structure InFront (s : Processes) : Prop where
  registers : s.executing = s.tasks.currentTask
  keyboard : s.currentProcess = s.running

/-- An exit leaves exactly one process, and nothing is loaded or terminated halfway. -/
def OneLeft (s : Processes) : ProcessEvent → Prop
  | .launch _ _ | .failedLoad => True
  | .exit => (s.slots.filter (· ≠ 0)).length = 2
  | .uninjected _ _ | .refuse => False

/-! ## The processes that are loaded -/

/-- The processes and their tasks, oldest first, are in the first slots and in the task list. -/
structure Loaded (s : Processes) (stack : List (Ptr × Ptr)) : Prop where
  list : TaskListOk s.tasks (stack.map Prod.snd)
  tasks : (stack.map Prod.snd).Nodup
  processes : (stack.map Prod.fst).Nodup
  nonzero : ∀ entry ∈ stack, entry.1 ≠ 0
  slots : ∃ free, s.slots = stack.map Prod.fst ++ List.replicate free 0
  id : ∀ i (below : i < stack.length), s.id stack[i].1 = i
  task : ∀ entry ∈ stack, s.task entry.1 = entry.2 ∧ (s.tasks.mem entry.2).process = entry.1

theorem Loaded.filter_slots {s : Processes} {stack : List (Ptr × Ptr)} (loaded : Loaded s stack) :
    s.slots.filter (· ≠ 0) = stack.map Prod.fst := by
  obtain ⟨free, slots⟩ := loaded.slots
  have used : (stack.map Prod.fst).filter (· ≠ 0) = stack.map Prod.fst := by
    apply List.filter_eq_self.mpr
    intro process member
    obtain ⟨entry, inStack, rfl⟩ := List.mem_map.mp member
    simpa using loaded.nonzero entry inStack
  have unused : (List.replicate free 0).filter (· ≠ 0) = ([] : List Ptr) := by
    apply List.filter_eq_nil_iff.mpr
    intro process member
    simp [List.eq_of_mem_replicate member]
  rw [slots, List.filter_append, used, unused, List.append_nil]

/-- The free slot is the one behind the processes. -/
theorem Loaded.freeSlot {s : Processes} {stack : List (Ptr × Ptr)} (loaded : Loaded s stack) :
    ∃ free, processGetFreeSlot s.slots =
      (stack.length, stack.map Prod.fst ++ List.replicate (free + 1) 0) := by
  obtain ⟨free, slots⟩ := loaded.slots
  have used : ∀ process ∈ stack.map Prod.fst, process ≠ 0 := by
    intro process member
    obtain ⟨entry, inStack, rfl⟩ := List.mem_map.mp member
    exact loaded.nonzero entry inStack
  have skip : (stack.map Prod.fst).findIdx? (· = 0) = none := by
    apply List.findIdx?_eq_none_iff.mpr
    intro process member
    simpa using used process member
  rw [slots]
  cases free with
  | zero =>
    refine ⟨0, ?_⟩
    simp only [processGetFreeSlot, List.replicate_zero, List.append_nil, skip, List.length_map]
    rfl
  | succ free =>
    refine ⟨free, ?_⟩
    have found : (stack.map Prod.fst ++ List.replicate (free + 1) 0).findIdx? (· = 0) =
        some stack.length := by
      rw [List.findIdx?_append, skip]
      simp [List.replicate_succ, List.findIdx?_cons]
    simp only [processGetFreeSlot, found]

/-! ## Loading and terminating -/

theorem taskNew_fst {ts : TaskGlobals} {image : ProcessImage} {task : Ptr} (allocated : task ≠ 0) :
    (taskNew ts image task).1 = task := by
  simp only [taskNew, if_neg allocated]
  split <;> rfl

/-- A new task belongs to its process, and the others to theirs. -/
theorem taskNew_process {ts : TaskGlobals} {image : ProcessImage} {task : Ptr} (allocated : task ≠ 0)
    (other : Ptr) : ((taskNew ts image task).2.mem other).process =
      if other = task then image.address else (ts.mem other).process := by
  have linked : ∀ (ts : TaskGlobals) p value q, ((ts.setNext p value).mem q).process =
      (ts.mem q).process := by
    intro ts p value q
    by_cases same : q = p
    · subst same
      simp [TaskGlobals.setNext]
    · simp [TaskGlobals.setNext, same]
  have linkedBack : ∀ (ts : TaskGlobals) p value q, ((ts.setPrev p value).mem q).process =
      (ts.mem q).process := by
    intro ts p value q
    by_cases same : q = p
    · subst same
      simp [TaskGlobals.setPrev]
    · simp [TaskGlobals.setPrev, same]
  simp only [taskNew, if_neg allocated]
  by_cases new : other = task
  · subst new
    split <;> simp [linked, linkedBack, taskInit]
  · split <;> simp [linked, linkedBack, new]

theorem Fresh.task_new {s : Processes} {stack : List (Ptr × Ptr)} (loaded : Loaded s stack)
    {image : ProcessImage} {task : Ptr} (fresh : Fresh s image task) :
    task ∉ stack.map Prod.snd ∧ image.address ∉ stack.map Prod.fst := by
  obtain ⟨free, slots⟩ := loaded.slots
  have inSlots : ∀ entry ∈ stack, entry.1 ∈ s.slots := by
    intro entry member
    rw [slots]
    exact List.mem_append_left _ (List.mem_map_of_mem member)
  constructor
  · intro member
    obtain ⟨entry, inStack, same⟩ := List.mem_map.mp member
    apply fresh.task.2 entry.1 (inSlots entry inStack) (loaded.nonzero entry inStack)
    rw [(loaded.task entry inStack).1, same]
  · intro member
    obtain ⟨entry, inStack, same⟩ := List.mem_map.mp member
    exact fresh.process.2 (same ▸ inSlots entry inStack)

/-- A program that is loaded is the youngest. -/
theorem Loaded.load {s : Processes} {stack : List (Ptr × Ptr)} (loaded : Loaded s stack)
    {image : ProcessImage} {task : Ptr} (fresh : Fresh s image task) :
    Loaded (processLoad s image task) (stack ++ [(image.address, task)]) := by
  obtain ⟨newTask, newProcess⟩ := fresh.task_new loaded
  obtain ⟨free, slot⟩ := loaded.freeSlot
  have result : processLoad s image task =
      { s with
        tasks := (taskNew s.tasks image task).2
        slots := (stack.map Prod.fst ++ List.replicate (free + 1) 0).set stack.length image.address
        id := Function.update s.id image.address stack.length
        task := Function.update s.task image.address task } := by
    simp only [processLoad, slot, taskNew_fst fresh.task.1]
  have old : ∀ entry ∈ stack, entry.1 ≠ image.address ∧ entry.2 ≠ task := by
    intro entry member
    constructor
    · intro same
      exact newProcess (same ▸ List.mem_map_of_mem member)
    · intro same
      exact newTask (same ▸ List.mem_map_of_mem member)
  rw [result]
  constructor
  case list =>
    rw [List.map_append]
    exact taskNew_ok loaded.list loaded.tasks fresh.task.1 newTask
  case tasks =>
    rw [List.map_append]
    apply loaded.tasks.append (List.nodup_singleton _)
    simpa using newTask
  case processes =>
    rw [List.map_append]
    apply loaded.processes.append (List.nodup_singleton _)
    simpa using newProcess
  case nonzero =>
    intro entry member
    cases List.mem_append.mp member with
    | inl before => exact loaded.nonzero entry before
    | inr last =>
      obtain rfl := List.mem_singleton.mp last
      exact fresh.process.1
  case slots =>
    refine ⟨free, ?_⟩
    simp [List.replicate_succ]
  case id =>
    intro i below
    rw [List.length_append, List.length_singleton] at below
    by_cases last : i = stack.length
    · subst last
      simp
    · have before : i < stack.length := by omega
      simp only [List.getElem_append_left before]
      rw [Function.update_of_ne (old _ (List.getElem_mem before)).1, loaded.id i before]
  case task =>
    intro entry member
    cases List.mem_append.mp member with
    | inl before =>
      obtain ⟨otherProcess, otherTask⟩ := old entry before
      obtain ⟨taskOf, processOf⟩ := loaded.task entry before
      simp only [Function.update_of_ne otherProcess, taskNew_process fresh.task.1, if_neg otherTask]
      exact ⟨taskOf, processOf⟩
    | inr last =>
      obtain rfl := List.mem_singleton.mp last
      simp [taskNew_process fresh.task.1]

theorem Loaded.getElem_last {s : Processes} {stack : List (Ptr × Ptr)} {top : Ptr × Ptr}
    (loaded : Loaded s (stack ++ [top])) : s.id top.1 = stack.length := by
  have last := loaded.id stack.length (by simp)
  simpa using last

/-- When the youngest process is terminated, the oldest one gets the page tables, and the keyboard if
the youngest had it. -/
theorem Loaded.terminate {s : Processes} {first top : Ptr × Ptr} {stack : List (Ptr × Ptr)}
    (loaded : Loaded s (first :: stack ++ [top])) (current : s.tasks.currentTask = top.2)
    (front : s.currentProcess = top.1) :
    ∃ t, processTerminate s top.1 = some t ∧ Loaded t (first :: stack) ∧
      t.tasks.currentTask = first.2 ∧ t.currentProcess = first.1 ∧ t.executing = s.executing := by
  obtain ⟨free, slots⟩ := loaded.slots
  have id : s.id top.1 = (first :: stack).length := loaded.getElem_last
  have topIn : top ∈ first :: stack ++ [top] := by simp
  have topTask : s.task top.1 = top.2 := (loaded.task top topIn).1
  have firstNonzero : first.1 ≠ 0 := loaded.nonzero first (by simp)
  have cleared : s.slots.set (s.id top.1) 0 =
      (first :: stack).map Prod.fst ++ List.replicate (free + 1) 0 := by
    rw [slots, id]
    simp [List.replicate_succ]
  have any : (s.slots.set (s.id top.1) 0).find? (· ≠ 0) = some first.1 := by
    rw [cleared]
    simp [firstNonzero]
  have result : processTerminate s top.1 = some
      { s with
        slots := s.slots.set (s.id top.1) 0
        currentProcess := first.1
        tasks := taskFree s.tasks top.2 } := by
    simp only [processTerminate, processUnlink, front, if_true, processSwitchToAny, any, topTask,
      Option.map_some]
  -- the youngest task is the tail of the list
  have tasks := loaded.tasks
  have list := loaded.list
  rw [List.map_append, List.map_singleton] at tasks list
  have fresh : top.2 ∉ (first :: stack).map Prod.snd := by
    intro member
    exact (List.nodup_append.mp tasks).2.2 top.2 member top.2 (by simp) rfl
  have atTail : top.2 = s.tasks.taskTail := by
    rw [list.tail, List.getLastD_concat]
  have freed := taskFree_tail_ok list tasks (by simp) atTail
  rw [List.erase_append_right _ fresh, List.erase_cons_head, List.append_nil] at freed
  have head : s.tasks.taskHead = first.2 := list.next.1
  obtain ⟨mid, -, -, -, nextZero⟩ := nextPath_append.mp list.next
  replace nextZero : (s.tasks.mem top.2).next = 0 := nextZero
  have notSelf : (s.tasks.mem top.2).prev ≠ top.2 := by
    obtain ⟨-, prev, -⟩ := prevPath_append.mp list.prev
    rw [prev]
    intro same
    have inFront : ((first :: stack).map Prod.snd).getLastD 0 ∈ (first :: stack).map Prod.snd := by
      rw [List.map_cons, List.getLastD_cons]
      exact List.getLastD_mem_cons
    exact fresh (same ▸ inFront)
  have otherHead : top.2 ≠ first.2 := by
    intro same
    exact fresh (by simp [same])
  have next : (taskFree s.tasks top.2).currentTask = first.2 := by
    rw [(taskFree_head_current s.tasks top.2 notSelf).2, if_pos current.symm, if_pos nextZero, head,
      if_neg otherHead]
  have process : ∀ p, ((taskFree s.tasks top.2).mem p).process = (s.tasks.mem p).process := by
    intro p
    rw [taskFree_mem, unlinkFromPrev]
    split
    · by_cases same : p = (s.tasks.mem top.2).prev
      · subst same
        simp [TaskGlobals.setNext]
      · simp [TaskGlobals.setNext, same]
    · rfl
  refine ⟨_, result, ?_, next, rfl, rfl⟩
  constructor
  case list => exact freed
  case tasks => exact (List.nodup_append.mp tasks).1
  case processes =>
    have processes := loaded.processes
    rw [List.map_append] at processes
    exact (List.nodup_append.mp processes).1
  case nonzero => exact fun entry member => loaded.nonzero entry (List.mem_append_left _ member)
  case slots => exact ⟨free + 1, cleared⟩
  case id =>
    intro i below
    have same := loaded.id i (by simp at below ⊢; omega)
    rwa [List.getElem_append_left below] at same
  case task =>
    intro entry member
    rw [process]
    exact loaded.task entry (List.mem_append_left _ member)

/-! ## One process in front -/

/-- The youngest process is in front. -/
def YoungestInFront (s : Processes) (older : List (Ptr × Ptr)) (top : Ptr × Ptr) : Prop :=
  Loaded s (older ++ [top]) ∧ s.tasks.currentTask = top.2 ∧ s.currentProcess = top.1 ∧
    s.executing = top.2

/-- The invariant of the runs. -/
def LifecycleInv (s : Processes) : Prop := ∃ older top, YoungestInFront s older top

theorem Loaded.running_of_current {s : Processes} {stack : List (Ptr × Ptr)} (loaded : Loaded s stack)
    {entry : Ptr × Ptr} (member : entry ∈ stack) (current : s.tasks.currentTask = entry.2) :
    s.running = entry.1 := by
  simp only [Processes.running, current, (loaded.task entry member).2]

theorem LifecycleInv.inFront {s : Processes} (inv : LifecycleInv s) : InFront s := by
  obtain ⟨older, top, loaded, current, front, executing⟩ := inv
  constructor
  · rw [executing, current]
  · rw [front, loaded.running_of_current (by simp) current]

/-- Another task is switched to. -/
theorem Loaded.switchTo {s : Processes} {stack : List (Ptr × Ptr)} (loaded : Loaded s stack)
    {entry : Ptr × Ptr} (member : entry ∈ stack) : Loaded (taskSwitchReturn s entry.2) stack where
  list := .of_paths loaded.list.next loaded.list.prev loaded.list.tail
    (Or.inl (List.mem_map_of_mem member))
  tasks := loaded.tasks
  processes := loaded.processes
  nonzero := loaded.nonzero
  slots := loaded.slots
  id := loaded.id
  task := loaded.task

theorem Loaded.launch {s : Processes} {stack : List (Ptr × Ptr)} (loaded : Loaded s stack)
    {image : ProcessImage} {task : Ptr} (fresh : Fresh s image task) :
    YoungestInFront (taskSwitchReturn (processLoadSwitch s image task) task) stack
      (image.address, task) := by
  have load := loaded.load fresh
  have switched : Loaded (processLoadSwitch s image task) (stack ++ [(image.address, task)]) :=
    ⟨load.list, load.tasks, load.processes, load.nonzero, load.slots, load.id, load.task⟩
  have last : (image.address, task) ∈ stack ++ [(image.address, task)] := by simp
  exact ⟨switched.switchTo last, rfl, rfl, rfl⟩

theorem loaded_noProcesses (mem : Ptr → Task) : Loaded (noProcesses mem) [] where
  list := (taskRunInv_boot mem).2
  tasks := List.nodup_nil
  processes := List.nodup_nil
  nonzero := by simp
  slots := ⟨0, rfl⟩
  id := by simp
  task := by simp

theorem lifecycleInv_boot (mem : Ptr → Task) {image : ProcessImage} {task : Ptr}
    (process : image.address ≠ 0) (allocated : task ≠ 0) :
    LifecycleInv (bootProcesses mem image task) := by
  have fresh : Fresh (noProcesses mem) image task :=
    ⟨⟨process, by simp [noProcesses]⟩, allocated, by simp [noProcesses]⟩
  have head : (processLoadSwitch (noProcesses mem) image task).tasks.taskHead = task :=
    ((loaded_noProcesses mem).load fresh).list.next.1
  simp only [bootProcesses, head]
  exact ⟨[], _, (loaded_noProcesses mem).launch fresh⟩

theorem Loaded.failedLoad {s : Processes} {stack : List (Ptr × Ptr)} (loaded : Loaded s stack) :
    Loaded { s with slots := (processGetFreeSlot s.slots).2 } stack := by
  obtain ⟨free, slot⟩ := loaded.freeSlot
  exact ⟨loaded.list, loaded.tasks, loaded.processes, loaded.nonzero, ⟨free + 1, by rw [slot]⟩,
    loaded.id, loaded.task⟩

/-- The last process cannot be terminated. -/
theorem Loaded.terminate_last {s : Processes} {top : Ptr × Ptr} (loaded : Loaded s [top])
    (front : s.currentProcess = top.1) : processTerminate s top.1 = none := by
  obtain ⟨free, slots⟩ := loaded.slots
  have id : s.id top.1 = 0 := loaded.id 0 (by simp)
  have none : (s.slots.set (s.id top.1) 0).find? (· ≠ 0) = none := by
    rw [slots, id]
    apply List.find?_eq_none.mpr
    intro process member
    replace member : process ∈ (0 : Ptr) :: List.replicate free 0 := member
    rw [← List.replicate_succ] at member
    simp [List.eq_of_mem_replicate member]
  simp only [processTerminate, processUnlink, front, if_true, processSwitchToAny, none,
    Option.map_none]

/-- With one process left `task_next` returns to it. -/
theorem taskNext_one {s : Processes} {first : Ptr × Ptr} (loaded : Loaded s [first])
    (current : s.tasks.currentTask = first.2) : taskNext s = some (taskSwitchReturn s first.2) := by
  obtain ⟨head, nonzero, last⟩ := loaded.list.next
  replace last : (s.tasks.mem first.2).next = 0 := last
  have next : taskGetNext s.tasks = first.2 := by
    rw [taskGetNext, current, if_pos last, head]
  simp only [taskNext, next, if_neg nonzero]

/-- With more, it goes past the task that `task_list_remove` has made the current one. -/
theorem taskNext_more {s : Processes} {first second : Ptr × Ptr} {stack : List (Ptr × Ptr)}
    (loaded : Loaded s (first :: second :: stack)) (current : s.tasks.currentTask = first.2) :
    taskNext s = some (taskSwitchReturn s second.2) := by
  obtain ⟨-, -, link, nonzero, -⟩ := loaded.list.next
  replace link : (s.tasks.mem first.2).next = second.2 := link
  have next : taskGetNext s.tasks = second.2 := by
    rw [taskGetNext, current, link, if_neg nonzero]
  simp only [taskNext, next, if_neg nonzero]

theorem lifecycle_preserves (s : Processes) (event : ProcessEvent) (t : Processes)
    (step : ProcessStep s event t) (allowed : OneLeft s event) (inv : LifecycleInv s) :
    LifecycleInv t := by
  obtain ⟨older, top, loaded, current, front, executing⟩ := inv
  cases step with
  | launch fresh => exact ⟨_, _, loaded.launch fresh⟩
  | uninjected => exact absurd allowed id
  | refuse => exact absurd allowed id
  | failedLoad => exact ⟨older, top, loaded.failedLoad, current, front, executing⟩
  | exit ends =>
    have two : (older ++ [top]).length = 2 := by
      rw [← List.length_map Prod.fst, ← loaded.filter_slots]
      exact allowed
    match older with
    | [] => simp at two
    | _ :: _ :: _ => simp at two
    | [first] =>
      have running : s.running = top.1 := loaded.running_of_current (by simp) current
      obtain ⟨u, terminated, left, next, keyboard, -⟩ := loaded.terminate current front
      simp only [isr80hExitCommand, running, terminated, Option.bind_some, taskNext_one left next,
        Option.some.injEq] at ends
      subst ends
      exact ⟨[], first, left.switchTo (by simp), rfl, keyboard, rfl⟩

/-- Loading a program does not change the current task. -/
theorem taskNew_current {ts : TaskGlobals} {image : ProcessImage} {task : Ptr} (allocated : task ≠ 0)
    (head : ts.taskHead ≠ 0) : (taskNew ts image task).2.currentTask = ts.currentTask := by
  simp [taskNew, allocated, head, TaskGlobals.setNext, TaskGlobals.setPrev]

theorem lifecycle_spoils (s : Processes) (event : ProcessEvent) (t : Processes)
    (step : ProcessStep s event t) (forbidden : ¬ OneLeft s event) (inv : LifecycleInv s) :
    ¬ InFront t := by
  obtain ⟨older, top, loaded, current, front, executing⟩ := inv
  have running : s.running = top.1 := loaded.running_of_current (by simp) current
  intro inFront
  cases step with
  | launch => exact forbidden trivial
  | failedLoad => exact forbidden trivial
  | @uninjected image task fresh =>
    -- the new process has the keyboard, and the caller runs on
    have load := loaded.load fresh
    have head := loaded.list.head_ne_zero (by simp)
    have same : (processLoad s image task).tasks.currentTask = top.2 := by
      simp only [processLoad]
      rw [taskNew_current fresh.task.1 head, current]
    have caller : (processLoad s image task).running = top.1 :=
      load.running_of_current (by simp) same
    have keyboard : image.address = top.1 := inFront.keyboard.trans caller
    apply (fresh.task_new loaded).2
    simp [keyboard]
  | refuse ends =>
    rw [running] at ends
    cases older with
    | nil =>
      rw [loaded.terminate_last front] at ends
      exact absurd ends (by simp)
    | cons first stack =>
      -- the registers are those of a task that is gone
      obtain ⟨u, terminated, left, next, -, gone⟩ := loaded.terminate current front
      obtain rfl : u = t := by simpa [terminated] using ends
      have same : top.2 = first.2 := by
        rw [← executing, ← gone, inFront.registers, next]
      have tasks := loaded.tasks
      rw [List.map_append] at tasks
      exact (List.nodup_append.mp tasks).2.2 first.2 (by simp) top.2 (by simp) same.symm
  | exit ends =>
    rw [isr80hExitCommand, running] at ends
    match older with
    | [] =>
      rw [loaded.terminate_last front] at ends
      exact absurd ends (by simp)
    | [first] =>
      apply forbidden
      simp only [OneLeft, loaded.filter_slots]
      rfl
    | first :: second :: stack =>
      obtain ⟨u, terminated, left, next, keyboard, -⟩ := loaded.terminate current front
      simp only [terminated, Option.bind_some, taskNext_more left next, Option.some.injEq] at ends
      subst ends
      have runs : (taskSwitchReturn u second.2).running = second.1 :=
        (left.switchTo (by simp)).running_of_current (by simp) rfl
      have same : first.1 = second.1 := by
        rw [← keyboard, ← runs]
        exact inFront.keyboard
      have processes := left.processes
      simp [same] at processes

/-- The shell starts a program, and the program ends. -/
def shellThenProgram : List (ProcessEvent × Processes) :=
  let boot := bootProcesses blankTasks ⟨0x10, none⟩ 0x1000
  let started := taskSwitchReturn (processLoadSwitch boot ⟨0x20, none⟩ 0x2000) 0x2000
  [(.launch ⟨0x20, none⟩ 0x2000, started), (.exit, (isr80hExitCommand started).getD started)]

/-- The shell starts a program, which starts another one.  When that one ends the second program runs
on, and the shell has the keyboard. -/
example :
    let boot := bootProcesses blankTasks ⟨0x10, none⟩ 0x1000
    let second := taskSwitchReturn (processLoadSwitch boot ⟨0x20, none⟩ 0x2000) 0x2000
    let third := taskSwitchReturn (processLoadSwitch second ⟨0x30, none⟩ 0x3000) 0x3000
    (isr80hExitCommand third).map (fun s => (s.running, s.currentProcess)) = some (0x20, 0x10) := by
  decide

end ViOS.Tasking
