import ViOS.Config
import ViOS.Lib.Run
import Mathlib.Data.List.Nodup
import Mathlib.Logic.Function.Basic

/-! # The task list

`task.c` keeps the tasks in a doubly linked list threaded through the task
structures themselves, with a head, a tail and a current task in globals.  Memory
is a function from addresses to task structures: `kfree` has an empty body, so a
freed structure keeps its contents and a stale link can still be followed.

* `taskNew`, `taskGetNext`, `taskListRemove`, `taskFree` — the code.
* `TaskListOk` — the list discipline, against the live tasks in creation order.
* `taskListOk_iff_frees_at_tail` — which runs keep it.
-/

namespace ViOS.Tasking

open ViOS.Lib

/-! ## The code -/

/-- `struct registers`. -/
structure Registers where
  rdi : Nat
  rsi : Nat
  rbp : Nat
  rbx : Nat
  rdx : Nat
  rcx : Nat
  rax : Nat
  ip : Nat
  cs : Nat
  flags : Nat
  rsp : Nat
  ss : Nat
  deriving DecidableEq, Repr

/-- The zero-filled register file left by `memset`. -/
def Registers.zero : Registers := ⟨0, 0, 0, 0, 0, 0, 0, 0, 0, 0, 0, 0⟩

/-- `struct task`. -/
structure Task where
  registers : Registers
  process : Ptr
  next : Ptr
  prev : Ptr
  deriving DecidableEq, Repr

/-- What `task_init` reads of a process: its address and, when the file type is
`PROCESS_FILETYPE_ELF`, the entry point of the loaded image. -/
structure ProcessImage where
  address : Ptr
  elfEntry : Option Nat
  deriving DecidableEq, Repr

/-- The task structures in memory and the globals of `task.c`. -/
structure TaskGlobals where
  mem : Ptr → Task
  currentTask : Ptr
  taskTail : Ptr
  taskHead : Ptr

/-- `task_init`: the contents written to a new task structure. -/
def taskInit (process : ProcessImage) : Task :=
  let ip := process.elfEntry.getD viosProgramVirtualAddress
  { registers := { Registers.zero with
      ip := ip
      ss := userDataSegment
      cs := userCodeSegment
      rsp := viosProgramVirtualStackAddressStart }
    process := process.address
    next := 0
    prev := 0 }

/-- `task->next = value`. -/
def TaskGlobals.setNext (ts : TaskGlobals) (task value : Ptr) : TaskGlobals :=
  { ts with mem := Function.update ts.mem task { ts.mem task with next := value } }

/-- `task->prev = value`. -/
def TaskGlobals.setPrev (ts : TaskGlobals) (task value : Ptr) : TaskGlobals :=
  { ts with mem := Function.update ts.mem task { ts.mem task with prev := value } }

/-- `task_get_next`. -/
def taskGetNext (ts : TaskGlobals) : Ptr :=
  if (ts.mem ts.currentTask).next = 0 then ts.taskHead else (ts.mem ts.currentTask).next

/-- The first statement of `task_list_remove`: `task->prev->next = task->next`. -/
def unlinkFromPrev (ts : TaskGlobals) (task : Ptr) : TaskGlobals :=
  if (ts.mem task).prev ≠ 0 then ts.setNext (ts.mem task).prev (ts.mem task).next else ts

/-- `task_list_remove`.  Only the predecessor's `next` is rewritten; the source has
no statement for the successor's `prev`. -/
def taskListRemove (ts : TaskGlobals) (task : Ptr) : TaskGlobals :=
  let ts := unlinkFromPrev ts task
  let ts := if task = ts.taskHead then { ts with taskHead := (ts.mem task).next } else ts
  let ts := if task = ts.taskTail then { ts with taskTail := (ts.mem task).prev } else ts
  if task = ts.currentTask then { ts with currentTask := taskGetNext ts } else ts

/-- `task_free`.  The closing `kfree` changes nothing. -/
def taskFree (ts : TaskGlobals) (task : Ptr) : TaskGlobals := taskListRemove ts task

/-- `task_new`, with the address `kzalloc` returned for the task structure. -/
def taskNew (ts : TaskGlobals) (process : ProcessImage) (task : Ptr) : Ptr × TaskGlobals :=
  if task = 0 then
    -- the cleanup path frees the pointer it failed to get
    (errorPtr (-enomem), taskFree ts task)
  else
    let ts := { ts with mem := Function.update ts.mem task (taskInit process) }
    if ts.taskHead = 0 then
      (task, { ts with taskHead := task, taskTail := task, currentTask := task })
    else
      let ts := ts.setNext ts.taskTail task
      let ts := ts.setPrev task ts.taskTail
      (task, { ts with taskTail := task })

/-! ## The list discipline -/

/-- Following the `next` links from `start` visits `live` in order and arrives at
`stop`. -/
def NextPath (mem : Ptr → Task) (stop : Ptr) : Ptr → List Ptr → Prop
  | start, [] => start = stop
  | start, p :: ps => start = p ∧ p ≠ 0 ∧ NextPath mem stop (mem p).next ps

/-- Each `prev` link names the predecessor, `before` for the first task. -/
def PrevPath (mem : Ptr → Task) : Ptr → List Ptr → Prop
  | _, [] => True
  | before, p :: ps => (mem p).prev = before ∧ PrevPath mem p ps

/-- The discipline of the task list for the live tasks `live` in creation order. -/
structure TaskListOk (ts : TaskGlobals) (live : List Ptr) : Prop where
  next : NextPath ts.mem 0 ts.taskHead live
  prev : PrevPath ts.mem 0 live
  tail : ts.taskTail = live.getLastD 0
  links : ∀ p ∈ live, ((ts.mem p).next = 0 ∨ (ts.mem p).next ∈ live) ∧
    ((ts.mem p).prev = 0 ∨ (ts.mem p).prev ∈ live)
  current : ts.currentTask ∈ live ∨ (ts.currentTask = 0 ∧ live = [])

/-- The globals at boot. -/
def TaskGlobals.boot (mem : Ptr → Task) : TaskGlobals := ⟨mem, 0, 0, 0⟩

/-- The calls a run is made of. -/
inductive TaskCall where
  /-- `task_new` that obtains a structure at `task`. -/
  | new (process : ProcessImage) (task : Ptr)
  | free (task : Ptr)

/-- A state of a run: the kernel's data and the tasks live in it, oldest first. -/
structure TaskRunState where
  tasks : TaskGlobals
  live : List Ptr

/-- A successful `task_new` returns storage no live task uses; `task_free` is
called on a live task. -/
inductive TaskStep : TaskRunState → TaskCall → TaskRunState → Prop
  | new {s : TaskRunState} {process : ProcessImage} {task : Ptr}
      (allocated : task ≠ 0) (fresh : task ∉ s.live) :
      TaskStep s (.new process task) ⟨(taskNew s.tasks process task).2, s.live ++ [task]⟩
  | free {s : TaskRunState} {task : Ptr} (live : task ∈ s.live) :
      TaskStep s (.free task) ⟨taskFree s.tasks task, s.live.erase task⟩

/-! ## Paths along the links -/

theorem nextPath_append {mem : Ptr → Task} {stop start : Ptr} {l₁ l₂ : List Ptr} :
    NextPath mem stop start (l₁ ++ l₂) ↔ ∃ mid, NextPath mem mid start l₁ ∧ NextPath mem stop mid l₂ := by
  induction l₁ generalizing start with
  | nil => simp [NextPath]
  | cons p ps ih =>
    simp only [List.cons_append, NextPath, ih]
    constructor
    · rintro ⟨same, nonzero, mid, first, second⟩
      exact ⟨mid, ⟨same, nonzero, first⟩, second⟩
    · rintro ⟨mid, ⟨same, nonzero, first⟩, second⟩
      exact ⟨same, nonzero, mid, first, second⟩

theorem prevPath_append {mem : Ptr → Task} {before : Ptr} {l₁ l₂ : List Ptr} :
    PrevPath mem before (l₁ ++ l₂) ↔ PrevPath mem before l₁ ∧ PrevPath mem (l₁.getLastD before) l₂ := by
  induction l₁ generalizing before with
  | nil => simp [PrevPath]
  | cons p ps ih =>
    simp only [List.cons_append, PrevPath, ih, List.getLastD_cons, and_assoc]

theorem NextPath.nonzero {mem : Ptr → Task} {stop start : Ptr} {l : List Ptr}
    (path : NextPath mem stop start l) : ∀ p ∈ l, p ≠ 0 := by
  induction l generalizing start with
  | nil => simp
  | cons p ps ih =>
    intro q member
    rcases List.mem_cons.mp member with rfl | later
    · exact path.2.1
    · exact ih path.2.2 q later

/-- Only the `next` fields of the tasks on the path matter. -/
theorem NextPath.frame {mem mem' : Ptr → Task} {stop start : Ptr} {l : List Ptr}
    (same : ∀ p ∈ l, (mem' p).next = (mem p).next) (path : NextPath mem stop start l) :
    NextPath mem' stop start l := by
  induction l generalizing start with
  | nil => exact path
  | cons p ps ih =>
    refine ⟨path.1, path.2.1, ?_⟩
    rw [same p List.mem_cons_self]
    exact ih (fun q member => same q (List.mem_cons_of_mem _ member)) path.2.2

theorem PrevPath.frame {mem mem' : Ptr → Task} {before : Ptr} {l : List Ptr}
    (same : ∀ p ∈ l, (mem' p).prev = (mem p).prev) (path : PrevPath mem before l) :
    PrevPath mem' before l := by
  induction l generalizing before with
  | nil => trivial
  | cons p ps ih =>
    refine ⟨?_, ih (fun q member => same q (List.mem_cons_of_mem _ member)) path.2⟩
    rw [same p List.mem_cons_self]
    exact path.1

theorem NextPath.next_mem {mem : Ptr → Task} {stop start : Ptr} {l : List Ptr}
    (path : NextPath mem stop start l) :
    (start = stop ∨ start ∈ l) ∧ ∀ p ∈ l, (mem p).next = stop ∨ (mem p).next ∈ l := by
  induction l generalizing start with
  | nil => exact ⟨Or.inl path, by simp⟩
  | cons p ps ih =>
    obtain ⟨same, -, rest⟩ := path
    obtain ⟨first, later⟩ := ih rest
    refine ⟨Or.inr (same ▸ List.mem_cons_self), ?_⟩
    intro q member
    rcases List.mem_cons.mp member with rfl | member
    · exact first.imp_right (List.mem_cons_of_mem _)
    · exact (later q member).imp_right (List.mem_cons_of_mem _)

theorem PrevPath.prev_mem {mem : Ptr → Task} {before : Ptr} {l : List Ptr}
    (path : PrevPath mem before l) : ∀ p ∈ l, (mem p).prev = before ∨ (mem p).prev ∈ l := by
  induction l generalizing before with
  | nil => simp
  | cons p ps ih =>
    intro q member
    rcases List.mem_cons.mp member with rfl | member
    · exact Or.inl path.1
    · rcases ih path.2 q member with same | later
      · exact Or.inr (same ▸ List.mem_cons_self)
      · exact Or.inr (List.mem_cons_of_mem _ later)

/-- The two paths, the tail and the current task already determine the rest of
the discipline. -/
theorem TaskListOk.of_paths {ts : TaskGlobals} {live : List Ptr}
    (next : NextPath ts.mem 0 ts.taskHead live) (prev : PrevPath ts.mem 0 live)
    (tail : ts.taskTail = live.getLastD 0)
    (current : ts.currentTask ∈ live ∨ (ts.currentTask = 0 ∧ live = [])) : TaskListOk ts live where
  next := next
  prev := prev
  tail := tail
  links p member := ⟨next.next_mem.2 p member, prev.prev_mem p member⟩
  current := current

/-! ## One step -/

@[simp] theorem setNext_prev (ts : TaskGlobals) (task value p : Ptr) :
    ((ts.setNext task value).mem p).prev = (ts.mem p).prev := by
  by_cases same : p = task
  · subst same
    simp [TaskGlobals.setNext]
  · simp [TaskGlobals.setNext, same]

theorem setNext_next (ts : TaskGlobals) (task value p : Ptr) :
    ((ts.setNext task value).mem p).next = if p = task then value else (ts.mem p).next := by
  by_cases same : p = task
  · subst same
    simp [TaskGlobals.setNext]
  · simp [TaskGlobals.setNext, same]

@[simp] theorem setPrev_next (ts : TaskGlobals) (task value p : Ptr) :
    ((ts.setPrev task value).mem p).next = (ts.mem p).next := by
  by_cases same : p = task
  · subst same
    simp [TaskGlobals.setPrev]
  · simp [TaskGlobals.setPrev, same]

theorem setPrev_prev (ts : TaskGlobals) (task value p : Ptr) :
    ((ts.setPrev task value).mem p).prev = if p = task then value else (ts.mem p).prev := by
  by_cases same : p = task
  · subst same
    simp [TaskGlobals.setPrev]
  · simp [TaskGlobals.setPrev, same]

/-- A non-empty list discipline has a head. -/
theorem TaskListOk.head_ne_zero {ts : TaskGlobals} {live : List Ptr} (ok : TaskListOk ts live)
    (nonempty : live ≠ []) : ts.taskHead ≠ 0 := by
  cases live with
  | nil => exact absurd rfl nonempty
  | cons p ps => exact ok.next.1 ▸ ok.next.2.1

theorem taskNew_ok {ts : TaskGlobals} {live : List Ptr} {process : ProcessImage} {task : Ptr}
    (ok : TaskListOk ts live) (nodup : live.Nodup) (allocated : task ≠ 0) (fresh : task ∉ live) :
    TaskListOk (taskNew ts process task).2 (live ++ [task]) := by
  rcases List.eq_nil_or_concat' live with rfl | ⟨l, t, rfl⟩
  · have noHead : ts.taskHead = 0 := ok.next
    simp only [taskNew, allocated, noHead, if_true, if_false, List.nil_append]
    apply TaskListOk.of_paths <;> simp [NextPath, PrevPath, allocated, taskInit]
  · have head := ok.head_ne_zero (by simp)
    have tail : ts.taskTail = t := by simpa using ok.tail
    have notLast : t ≠ task := by
      rintro rfl
      exact fresh (by simp)
    have lastFresh : t ∉ l := by
      intro member
      exact (List.nodup_append.mp nodup).2.2 t member t (by simp) rfl
    simp only [taskNew, allocated, head, if_false]
    -- the tasks before the old tail keep both links
    have sameNext : ∀ p ∈ l, p ≠ task ∧ p ≠ t := by
      intro p member
      exact ⟨fun same => fresh (by simp [← same, member]), fun same => lastFresh (same ▸ member)⟩
    obtain ⟨mid, before, atTail, tailNonzero, -⟩ := nextPath_append.mp ok.next
    obtain ⟨prevBefore, prevTail, -⟩ := prevPath_append.mp ok.prev
    apply TaskListOk.of_paths
    · rw [List.append_assoc, nextPath_append]
      refine ⟨t, ?_, rfl, atTail ▸ tailNonzero, ?_, allocated, ?_⟩
      · subst atTail
        refine before.frame ?_
        intro p member
        simp [setNext_next, tail, sameNext p member]
      · simp [setNext_next, tail]
      · simp [setNext_next, tail, Ne.symm notLast, taskInit, NextPath]
    · rw [List.append_assoc, prevPath_append]
      refine ⟨?_, ?_, ?_, trivial⟩
      · refine prevBefore.frame ?_
        intro p member
        simp [setPrev_prev, sameNext p member]
      · simpa [setPrev_prev, notLast] using prevTail
      · simp [setPrev_prev, tail, TaskGlobals.setNext]
    · simp
    · left
      rcases ok.current with live | ⟨-, empty⟩
      · exact List.mem_append_left _ live
      · simp at empty

theorem unlinkFromPrev_globals (ts : TaskGlobals) (task : Ptr) :
    (unlinkFromPrev ts task).taskHead = ts.taskHead ∧ (unlinkFromPrev ts task).taskTail = ts.taskTail ∧
      (unlinkFromPrev ts task).currentTask = ts.currentTask := by
  unfold unlinkFromPrev
  split <;> exact ⟨rfl, rfl, rfl⟩

theorem unlinkFromPrev_prev (ts : TaskGlobals) (task p : Ptr) :
    ((unlinkFromPrev ts task).mem p).prev = (ts.mem p).prev := by
  unfold unlinkFromPrev
  split <;> simp

theorem unlinkFromPrev_next (ts : TaskGlobals) (task p : Ptr) :
    ((unlinkFromPrev ts task).mem p).next =
      if (ts.mem task).prev ≠ 0 ∧ p = (ts.mem task).prev then (ts.mem task).next
      else (ts.mem p).next := by
  unfold unlinkFromPrev
  by_cases linked : (ts.mem task).prev = 0
  · simp [linked]
  · simp [linked, setNext_next]

/-- Past its first statement `task_list_remove` writes globals only. -/
theorem taskFree_mem (ts : TaskGlobals) (task : Ptr) :
    (taskFree ts task).mem = (unlinkFromPrev ts task).mem := by
  simp only [taskFree, taskListRemove]
  split <;> split <;> split <;> rfl

theorem taskFree_tail (ts : TaskGlobals) (task : Ptr) :
    (taskFree ts task).taskTail = if task = ts.taskTail then (ts.mem task).prev else ts.taskTail := by
  rw [← (unlinkFromPrev_globals ts task).2.1, ← unlinkFromPrev_prev ts task task]
  simp only [taskFree, taskListRemove]
  split <;> split <;> split <;> rfl

/-- The head and the current task after a removal, for a task that is not linked
to itself. -/
theorem taskFree_head_current (ts : TaskGlobals) (task : Ptr) (notSelf : (ts.mem task).prev ≠ task) :
    (taskFree ts task).taskHead = (if task = ts.taskHead then (ts.mem task).next else ts.taskHead) ∧
    (taskFree ts task).currentTask =
      if task = ts.currentTask then
        if (ts.mem task).next = 0 then
          if task = ts.taskHead then (ts.mem task).next else ts.taskHead
        else (ts.mem task).next
      else ts.currentTask := by
  obtain ⟨head, tail, current⟩ := unlinkFromPrev_globals ts task
  have ownNext : ((unlinkFromPrev ts task).mem task).next = (ts.mem task).next := by
    rw [unlinkFromPrev_next, if_neg (fun both => notSelf both.2.symm)]
  rw [← head, ← current, ← ownNext]
  simp only [taskFree, taskListRemove]
  generalize unlinkFromPrev ts task = u
  by_cases isCurrent : task = u.currentTask
  · subst isCurrent
    constructor
    · split <;> split <;> simp
    · split <;> split <;> simp [taskGetNext]
  · constructor
    · split <;> split <;> simp
    · split <;> split <;> simp

theorem NextPath.head_mem {mem : Ptr → Task} {stop start : Ptr} {l : List Ptr}
    (path : NextPath mem stop start l) (nonempty : l ≠ []) : start ∈ l := by
  cases l with
  | nil => exact absurd rfl nonempty
  | cons p ps => exact path.1 ▸ List.mem_cons_self

/-- Removing the newest task keeps the discipline: it has no successor whose
`prev` would have to change. -/
theorem taskFree_tail_ok {ts : TaskGlobals} {live : List Ptr} {task : Ptr}
    (ok : TaskListOk ts live) (nodup : live.Nodup) (member : task ∈ live)
    (atTail : task = ts.taskTail) : TaskListOk (taskFree ts task) (live.erase task) := by
  rcases List.eq_nil_or_concat' live with rfl | ⟨l, t, rfl⟩
  · simp at member
  obtain rfl : task = t := by simpa [atTail] using ok.tail
  have fresh : task ∉ l := by
    intro inFront
    exact (List.nodup_append.mp nodup).2.2 task inFront task (by simp) rfl
  have erased : (l ++ [task]).erase task = l := by
    rw [List.erase_append_right _ fresh, List.erase_cons_head, List.append_nil]
  obtain ⟨mid, before, atMid, nonzero, taskNext⟩ := nextPath_append.mp ok.next
  obtain ⟨prevBefore, taskPrev, -⟩ := prevPath_append.mp ok.prev
  replace taskNext : (ts.mem task).next = 0 := taskNext
  rw [erased]
  rcases List.eq_nil_or_concat' l with rfl | ⟨front, u, rfl⟩
  · -- the last task: head, tail and current all become NULL
    replace taskPrev : (ts.mem task).prev = 0 := taskPrev
    have isHead : ts.taskHead = task := before.trans atMid
    have isCurrent : ts.currentTask = task := by simpa using ok.current
    apply TaskListOk.of_paths <;>
      simp [taskFree, taskListRemove, unlinkFromPrev, taskGetNext, taskPrev, taskNext, isHead,
        isCurrent, ← atTail, NextPath, PrevPath]
  · replace taskPrev : (ts.mem task).prev = u := by simpa using taskPrev
    have uNonzero : u ≠ 0 := ok.next.nonzero u (by simp)
    have uOther : u ≠ task := by
      rintro rfl
      exact fresh (by simp)
    have headFront : ts.taskHead ∈ front ++ [u] := before.head_mem (by simp)
    have headOther : task ≠ ts.taskHead := by
      rintro rfl
      exact fresh headFront
    obtain ⟨mid', first, rfl, -, -⟩ := nextPath_append.mp before
    have uFresh : mid' ∉ front := by
      intro inFront
      have frontNodup := (List.nodup_append.mp nodup).1
      exact (List.nodup_append.mp frontNodup).2.2 mid' inFront mid' (by simp) rfl
    have notSelf : (ts.mem task).prev ≠ task := taskPrev ▸ uOther
    have next : ∀ p, ((taskFree ts task).mem p).next = if p = mid' then 0 else (ts.mem p).next := by
      intro p
      simp [taskFree_mem, unlinkFromPrev_next, taskPrev, taskNext, uNonzero]
    have head : (taskFree ts task).taskHead = ts.taskHead := by
      rw [(taskFree_head_current ts task notSelf).1, if_neg headOther]
    have tail : (taskFree ts task).taskTail = mid' := by
      rw [taskFree_tail, if_pos atTail, taskPrev]
    have current : (taskFree ts task).currentTask =
        if task = ts.currentTask then ts.taskHead else ts.currentTask := by
      rw [(taskFree_head_current ts task notSelf).2, if_pos taskNext, if_neg headOther]
    apply TaskListOk.of_paths
    · rw [head, nextPath_append]
      refine ⟨mid', first.frame ?_, rfl, uNonzero, ?_⟩
      · intro p inFront
        rw [next, if_neg]
        rintro rfl
        exact uFresh inFront
      · rw [next, if_pos rfl]
        rfl
    · exact prevBefore.frame (fun p _ => by rw [taskFree_mem, unlinkFromPrev_prev])
    · simp [tail]
    · left
      rw [current]
      split
      · exact headFront
      · rename_i notCurrent
        rcases ok.current with inLive | ⟨-, empty⟩
        · rcases List.mem_append.mp inLive with inFront | same
          · exact inFront
          · exact absurd (List.mem_singleton.mp same).symm notCurrent
        · simp at empty

/-- Removing any other task leaves its successor's `prev` pointing at it. -/
theorem taskFree_spoils {ts : TaskGlobals} {live : List Ptr} {task : Ptr}
    (ok : TaskListOk ts live) (nodup : live.Nodup) (member : task ∈ live)
    (notTail : task ≠ ts.taskTail) : ¬ TaskListOk (taskFree ts task) (live.erase task) := by
  intro after
  obtain ⟨front, back, rfl⟩ := List.append_of_mem member
  have fresh : task ∉ front := by
    intro inFront
    exact (List.nodup_append.mp nodup).2.2 task inFront task (by simp) rfl
  have erased : (front ++ task :: back).erase task = front ++ back := by
    rw [List.erase_append_right _ fresh, List.erase_cons_head]
  cases back with
  | nil => exact notTail (by simpa using ok.tail.symm)
  | cons successor rest =>
    obtain ⟨-, -, stale, -⟩ := prevPath_append.mp ok.prev
    rw [erased] at after
    obtain ⟨-, repaired, -⟩ := prevPath_append.mp after.prev
    rw [taskFree_mem, unlinkFromPrev_prev, stale] at repaired
    have nonzero : task ≠ 0 := ok.next.nonzero task member
    rcases List.eq_nil_or_concat' front with rfl | ⟨l, u, rfl⟩
    · exact nonzero repaired
    · exact fresh (by simp [repaired])

/-! ## Runs -/

/-- The invariant of the runs: the discipline, and no task is listed twice. -/
def TaskRunInv (s : TaskRunState) : Prop := s.live.Nodup ∧ TaskListOk s.tasks s.live

/-- A call that keeps the list well linked: the task freed is the newest one. -/
def FreesAtTail (s : TaskRunState) : TaskCall → Prop
  | .new _ _ => True
  | .free task => task = s.tasks.taskTail

theorem taskRunInv_boot (mem : Ptr → Task) : TaskRunInv ⟨TaskGlobals.boot mem, []⟩ :=
  ⟨List.nodup_nil, .of_paths rfl trivial rfl (Or.inr ⟨rfl, rfl⟩)⟩

theorem taskStep_preserves (s : TaskRunState) (call : TaskCall) (t : TaskRunState)
    (step : TaskStep s call t) (allowed : FreesAtTail s call) (inv : TaskRunInv s) : TaskRunInv t := by
  obtain ⟨nodup, ok⟩ := inv
  cases step with
  | new allocated fresh =>
    refine ⟨?_, taskNew_ok ok nodup allocated fresh⟩
    exact List.nodup_append.mpr ⟨nodup, List.nodup_singleton _,
      fun p inLive q same => by rw [List.mem_singleton.mp same]; rintro rfl; exact fresh inLive⟩
  | free live => exact ⟨nodup.erase _, taskFree_tail_ok ok nodup live allowed⟩

theorem taskStep_spoils (s : TaskRunState) (call : TaskCall) (t : TaskRunState)
    (step : TaskStep s call t) (forbidden : ¬ FreesAtTail s call) (inv : TaskRunInv s) :
    ¬ TaskListOk t.tasks t.live := by
  cases step with
  | new => exact absurd trivial forbidden
  | free live => exact taskFree_spoils inv.2 inv.1 live forbidden

/-- Along every run of successful `task_new` and `task_free` calls from boot, the
list discipline holds in every state reached precisely when each task is freed
while it is the tail of the list. -/
theorem taskListOk_iff_frees_at_tail (mem : Ptr → Task) (run : List (TaskCall × TaskRunState))
    (isRun : IsRun TaskStep ⟨TaskGlobals.boot mem, []⟩ run) :
    (∀ s ∈ runStates ⟨TaskGlobals.boot mem, []⟩ run, TaskListOk s.tasks s.live) ↔
      EveryStep FreesAtTail ⟨TaskGlobals.boot mem, []⟩ run :=
  good_iff_everyStep (fun _ inv => inv.2) taskStep_preserves taskStep_spoils isRun
    (taskRunInv_boot mem)

/-- Memory whose every structure is the fresh task of process `0`. -/
def blankTasks : Ptr → Task := fun _ => taskInit ⟨0, none⟩

/-- Two tasks are created and the newer one is freed again. -/
def createTwoFreeTail : List (TaskCall × TaskRunState) :=
  let s₀ : TaskRunState := ⟨TaskGlobals.boot blankTasks, []⟩
  let s₁ : TaskRunState := ⟨(taskNew s₀.tasks ⟨0, none⟩ 0x1000).2, [0x1000]⟩
  let s₂ : TaskRunState := ⟨(taskNew s₁.tasks ⟨0, none⟩ 0x2000).2, [0x1000, 0x2000]⟩
  [(.new ⟨0, none⟩ 0x1000, s₁), (.new ⟨0, none⟩ 0x2000, s₂),
    (.free 0x2000, ⟨taskFree s₂.tasks 0x2000, [0x1000]⟩)]

theorem taskListOk_createTwoFreeTail :
    IsRun TaskStep ⟨TaskGlobals.boot blankTasks, []⟩ createTwoFreeTail ∧
      ∀ s ∈ runStates ⟨TaskGlobals.boot blankTasks, []⟩ createTwoFreeTail,
        TaskListOk s.tasks s.live := by
  have isRun : IsRun TaskStep ⟨TaskGlobals.boot blankTasks, []⟩ createTwoFreeTail :=
    ⟨.new (by decide) (by decide), .new (by decide) (by decide), .free (by decide), trivial⟩
  refine ⟨isRun, (taskListOk_iff_frees_at_tail blankTasks createTwoFreeTail isRun).mpr ?_⟩
  exact ⟨trivial, trivial, rfl, trivial⟩

/-- Two tasks are created and the older one is freed: the survivor, now the head,
keeps the freed task as its `prev`. -/
theorem taskFree_head_leaves_stale_prev :
    ∃ run : List (TaskCall × TaskRunState),
      IsRun TaskStep ⟨TaskGlobals.boot blankTasks, []⟩ run ∧
        ¬ ∀ s ∈ runStates ⟨TaskGlobals.boot blankTasks, []⟩ run, TaskListOk s.tasks s.live := by
  let s₀ : TaskRunState := ⟨TaskGlobals.boot blankTasks, []⟩
  let s₁ : TaskRunState := ⟨(taskNew s₀.tasks ⟨0, none⟩ 0x1000).2, [0x1000]⟩
  let s₂ : TaskRunState := ⟨(taskNew s₁.tasks ⟨0, none⟩ 0x2000).2, [0x1000, 0x2000]⟩
  let s₃ : TaskRunState := ⟨taskFree s₂.tasks 0x1000, [0x2000]⟩
  refine ⟨[(.new ⟨0, none⟩ 0x1000, s₁), (.new ⟨0, none⟩ 0x2000, s₂), (.free 0x1000, s₃)],
    ⟨.new (by decide) (by decide), .new (by decide) (by decide), .free (by decide), trivial⟩, ?_⟩
  intro allOk
  have headPrev : (s₃.tasks.mem 0x2000).prev = 0 := (allOk s₃ (by simp)).prev.1
  exact absurd headPrev (by decide)

end ViOS.Tasking
