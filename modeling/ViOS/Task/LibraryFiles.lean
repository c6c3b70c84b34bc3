import ViOS.Task.ProcessFiles
import ViOS.Task.SystemCalls
import Mathlib.Data.List.Perm.Subperm

/-! # The files a program opens

A program opens and closes files through `vios_fopen` and `vios_fclose`.  The kernel's
`process_fclose` frees a descriptor, but `vios_fclose` never asks for it, so that what a program
has opened stays open until its process is terminated.

The kernel is any that serves the six file functions as `process.c` does, with memory for the
vector of handles, and whose other functions leave the files of the process alone.  Between the
calls the rest of the system runs.

* `FileFunction`, `ServesFiles` — what is assumed of the kernel.
* `ProgramEvent`, `programStep` — a program's calls, and what happens elsewhere.
* `library_never_closes` — after every run the process holds exactly the numbers that `vios_fopen`
  has answered, and each of them is still in use.
-/

namespace ViOS.SystemCalls

open ViOS.ContextSwitch ViOS.Fs ViOS.Process ViOS.Lib

variable {σ φ : Type}

/-! ## The kernel -/

/-- The six functions and their arguments. -/
inductive FileFunction where
  | processFopen (path mode : Qword)
  | processFclose (fd : BitVec 32)
  | processFread (virtPtr size nmemb : Qword) (fd : BitVec 32)
  | processFseek (fd offset whence : BitVec 32)
  | processFstat (fd : BitVec 32) (virtFilestatAddr : Qword)
  | processFwrite (virtPtr : Qword) (size nmemb fd : BitVec 32)

def FileFunction.service : FileFunction → Service (BitVec 32)
  | .processFopen path mode => .processFopen path mode
  | .processFclose fd => .processFclose fd
  | .processFread virtPtr size nmemb fd => .processFread virtPtr size nmemb fd
  | .processFseek fd offset whence => .processFseek fd offset whence
  | .processFstat fd virtFilestatAddr => .processFstat fd virtFilestatAddr
  | .processFwrite virtPtr size nmemb fd => .processFwrite virtPtr size nmemb fd

/-- The call of `process.c` behind a function.  What the process's memory holds is left open, and of
the allocations only the growth of the vector of handles has to succeed. -/
inductive FileFunction.Makes : FileFunction → ProcessCall → Prop where
  | fopen {path mode : Qword} (pathString modeString : CStr) (memory : OpenMemory)
    (grows : memory.push = .room) :
    Makes (.processFopen path mode) (.fopen pathString modeString memory)
  | fclose {fd : BitVec 32} (tmpAllocated : Bool) :
    Makes (.processFclose fd) (.fclose fd.toInt tmpAllocated)
  | fread {virtPtr size nmemb : Qword} {fd : BitVec 32} (memory : UserMemory) :
    Makes (.processFread virtPtr size nmemb fd)
      (.fread memory virtPtr.toNat size.toNat nmemb.toNat fd.toInt)
  | fseek {fd offset whence : BitVec 32} :
    Makes (.processFseek fd offset whence) (.fseek fd.toInt offset.toInt whence.toNat)
  | fstat {fd : BitVec 32} {virtFilestatAddr : Qword} (memory : UserMemory) :
    Makes (.processFstat fd virtFilestatAddr) (.fstat memory fd.toInt virtFilestatAddr.toNat)
  | fwrite {virtPtr : Qword} {size nmemb fd : BitVec 32} (memory : UserMemory) (data : List UInt8) :
    Makes (.processFwrite virtPtr size nmemb fd)
      (.fwrite memory virtPtr.toNat data size.toNat nmemb.toNat fd.toInt)

/-- One of the file functions. -/
def Service.isFile {α : Type} : Service α → Bool
  | .processFopen _ _ | .processFclose _ | .processFread _ _ _ _ | .processFseek _ _ _
  | .processFstat _ _ | .processFwrite _ _ _ _ => true
  | _ => false

def Service.isTerminate {α : Type} : Service α → Bool
  | .processTerminate => true
  | _ => false

/-- The process has its handles, and the files behind them, as before. -/
structure OwnFilesKept (pid : Nat) (s t : ProcessFiles φ) : Prop where
  handles : t.fileHandles pid = s.fileHandles pid
  files : ∀ fileHandles, s.fileHandles pid = some fileHandles → ∀ fd ∈ fileHandles,
    t.files.descriptors (fd - 1).toNat = s.files.descriptors (fd - 1).toNat

/-- The file functions are those of `process.c`, `process_terminate` ends the process, and no other
function touches its files. -/
structure ServesFiles (env : FileEnv φ) (pid : Nat) (kernel : Kernel σ) (files : σ → ProcessFiles φ) :
    Prop where
  file : ∀ (function : FileFunction) s fileHandles, (files s).fileHandles pid = some fileHandles →
    ∃ call, function.Makes call ∧
      processStep env (files s) (pid, call) (files (kernel.serve function.service s).2) ∧
      (processCall env (files s).files fileHandles call).result.res =
        some (kernel.serve function.service s).1.toInt
  terminate : ∀ s, (files (kernel.serve .processTerminate s).2).fileHandles pid = none
  others : ∀ {α : Type} (service : Service α) s, service.isFile = false →
    service.isTerminate = false → OwnFilesKept pid (files s) (files (kernel.serve service s).2)

/-! ## The program -/

/-- The program calls a stub, or the rest of the system runs. -/
inductive ProgramEvent where
  | call (stub : Stub) (rsp0 : Qword) (m : Machine)
  | elsewhere

/-- The state of the kernel behind an event.  The rest of the system leaves the process its files. -/
def programStep (handler : Handler σ) (files : σ → ProcessFiles φ) (pid : Nat) (s : σ) :
    ProgramEvent → σ → Prop
  | .call stub rsp0 m, t =>
    (∀ i < stub.arity, ¬ InFrame rsp0 (m.reg .rsp - BitVec.ofNat 64 (8 * (i + 1)))) ∧
      t = (runStub handler rsp0 stub m s).2
  | .elsewhere, t => OwnFilesKept pid (files s) (files t)

/-- The number of a file that the event has opened: a positive answer of `vios_fopen`. -/
def openedNumber (handler : Handler σ) (s : σ) : ProgramEvent → Option Int
  | .call .viosFopen rsp0 m =>
    match (runStub handler rsp0 .viosFopen m s).1 with
    | some m' => if 0 < (m'.reg .rax).toInt then some (m'.reg .rax).toInt else none
    | none => none
  | _ => none

/-- The numbers that `vios_fopen` has answered in a run, in turn. -/
def openedNumbers (handler : Handler σ) : σ → List (ProgramEvent × σ) → List Int
  | _, [] => []
  | s, (event, t) :: rest => (openedNumber handler s event).toList ++ openedNumbers handler t rest

/-- The state at the end of a run. -/
def lastState : σ → List (ProgramEvent × σ) → σ
  | s, [] => s
  | _, (_, t) :: rest => lastState t rest

/-! ## One call of `process.c` -/

/-- The calls that read and write keep the table of descriptors and the handles. -/
theorem processCall_keeps (env : FileEnv φ) {files : FileState φ} {fileHandles : List Int}
    {call : ProcessCall} (noOpen : ∀ path mode allocated, call ≠ .fopen path mode allocated)
    (noClose : ∀ fd allocated, call ≠ .fclose fd allocated) {fileHandles' : List Int}
    (running : (processCall env files fileHandles call).fileHandles = some fileHandles') :
    (processCall env files fileHandles call).files.descriptors = files.descriptors ∧
      fileHandles' = fileHandles := by
  cases call with
  | fopen path mode allocated => exact absurd rfl (noOpen path mode allocated)
  | fclose fd allocated => exact absurd rfl (noClose fd allocated)
  | fseek fd offset whence =>
    simp only [processCall, processFseek] at running ⊢
    cases found : processFileHandleGet fileHandles fd with
    | none => simpa [found, eq_comm] using running
    | some handle =>
      simp only [found, Option.some.injEq] at running ⊢
      refine ⟨?_, running.symm⟩
      simp only [fseek]
      split <;> rfl
  | fread memory virtPtr size nmemb fd =>
    simp only [processCall, processFread] at running ⊢
    cases found : processFileHandleGet fileHandles fd with
    | none => simpa [found, eq_comm] using running
    | some handle =>
      simp only [found] at running ⊢
      split at running
      · simp [terminated] at running
      · rename_i accepted
        simp only [if_neg accepted]
        split at running
        · rename_i unmapped
          simpa [unmapped, eq_comm] using running
        · rename_i mapped
          simp only [if_neg mapped]
          refine ⟨?_, by simpa [eq_comm] using running⟩
          simp only [fread]
          split
          · rfl
          · split <;> rfl
  | fwrite memory virtPtr data size nmemb fd =>
    simp only [processCall, processFwrite] at running ⊢
    cases found : processFileHandleGet fileHandles fd with
    | none => simpa [found, eq_comm] using running
    | some handle =>
      simp only [found] at running ⊢
      split at running
      · rename_i unmapped
        simpa [unmapped, eq_comm] using running
      · rename_i mapped
        simp only [if_neg mapped]
        refine ⟨?_, by simpa [eq_comm] using running⟩
        simp only [fwrite]
        split
        · rfl
        · split <;> rfl
  | fstat memory fd virtFilestatAddr =>
    simp only [processCall, processFstat] at running ⊢
    split at running
    · simp [terminated] at running
    · rename_i accepted
      simp only [if_neg accepted]
      split at running
      · rename_i unmapped
        simpa [unmapped, eq_comm] using running
      · rename_i mapped
        simp only [if_neg mapped]
        exact ⟨trivial, by simpa [eq_comm] using running⟩

/-- An opened file: its number was free, is in use now, and is the last handle. -/
structure OpenedFile (files files' : FileState φ) (fileHandles fileHandles' : List Int) (fd : Int) :
    Prop where
  positive : 0 < fd
  bound : fd ≤ viosMaxFileDescriptors
  free : files.descriptors (fd - 1).toNat = none
  inUse : files'.descriptors (fd - 1).toNat ≠ none
  handles : fileHandles' = fileHandles ++ [fd]

/-- `process_fopen` keeps the files there are; its positive answers are the files it opens. -/
theorem processFopen_progress (env : FileEnv φ) (files : FileState φ) (fileHandles : List Int)
    (path mode : CStr) {memory : OpenMemory} (grows : memory.push = .room) :
    let outcome := processFopen env path mode memory files fileHandles
    (∀ i, files.descriptors i ≠ none → outcome.files.descriptors i = files.descriptors i) ∧
      ∃ fileHandles', outcome.fileHandles = some fileHandles' ∧
        ((∀ fd, outcome.result.res = some fd → fd ≤ 0) ∧ fileHandles' = fileHandles ∨
          ∃ fd, outcome.result.res = some fd ∧
            OpenedFile files outcome.files fileHandles fileHandles' fd) := by
  intro outcome
  cases fopen_cases env files memory.path path mode with
  | inl unopened =>
    obtain ⟨same, zero⟩ := unopened
    cases result : fopen env files memory.path path mode with
    | mk answer files' =>
      rw [result] at same zero
      cases answer with
      | none =>
        have failed : outcome = ⟨.status none, files', some fileHandles⟩ := by
          simp only [outcome, processFopen, result]
        rw [failed]
        exact ⟨fun i _ => by rw [same], fileHandles, rfl, .inl ⟨by simp [FileResult.status], rfl⟩⟩
      | some fd =>
        obtain rfl := zero fd rfl
        -- closing number 0 closes nothing
        have failed : outcome = ⟨.status (some (-eio)), files', some fileHandles⟩ := by
          simp [outcome, processFopen, result, fclose, fileGetDescriptor]
        rw [failed]
        refine ⟨fun i _ => by rw [same], fileHandles, rfl, .inl ⟨?_, rfl⟩⟩
        intro fd answered
        obtain rfl : -eio = fd := by simpa [FileResult.status] using answered
        decide
  | inr opens =>
    obtain ⟨drive, parts, fileMode, p, v, i, -, -, -, slot, result⟩ := opens
    obtain ⟨inRange, free, -⟩ := fileFreeSlot_eq_some slot
    have other : ∀ j, files.descriptors j ≠ none → j ≠ i := by
      rintro j used rfl
      exact used free
    cases handle : memory.handle with
    | true =>
      have opened : outcome = ⟨.status (some ((i + 1 : Nat) : Int)),
          ⟨Function.update files.descriptors i (some ⟨i + 1, p, drive⟩), v⟩,
          some (fileHandles ++ [((i + 1 : Nat) : Int)])⟩ := by
        simp only [outcome, processFopen, result, handle, grows, Elements.vectorPush_room]
        rw [if_pos ⟨by omega, trivial⟩]
      have number : (((i + 1 : Nat) : Int) - 1).toNat = i := by omega
      rw [opened]
      refine ⟨fun j used => Function.update_of_ne (other j used) _ _, _, rfl,
        .inr ⟨((i + 1 : Nat) : Int), rfl, ?_⟩⟩
      constructor
      case positive => omega
      case bound =>
        simp only [viosMaxFileDescriptors] at inRange ⊢
        omega
      case free => rw [number, free]
      case inUse =>
        rw [number]
        simp
      case handles => rfl
    | false =>
      set files' : FileState φ :=
        ⟨Function.update files.descriptors i (some ⟨i + 1, p, drive⟩), v⟩ with filesDef
      have failed : outcome = ⟨.status ((fclose env files' ((i + 1 : Nat) : Int)).1.map
          fun _ => -enomem), (fclose env files' ((i + 1 : Nat) : Int)).2, some fileHandles⟩ := by
        simp only [outcome, processFopen, result, handle]
        rw [if_neg (by simp), if_neg (by omega)]
      -- the descriptor is closed again, unless it is the last one
      have closed : ∀ j, j ≠ i →
          (fclose env files' ((i + 1 : Nat) : Int)).2.descriptors j = files.descriptors j := by
        intro j different
        have stored : files'.descriptors j = files.descriptors j :=
          Function.update_of_ne different _ _
        simp only [fclose]
        split
        · exact stored
        · rename_i desc found
          have index : desc.index = i + 1 := by
            have slotOf : (((i + 1 : Nat) : Int) - 1).toNat = i := by omega
            simp only [fileGetDescriptor, slotOf, filesDef] at found
            split at found
            · cases found
            · rw [Function.update_self, Option.some.injEq] at found
              rw [← found]
          split
          · split
            · simp only [fileFreeDescriptor, index, Nat.add_sub_cancel,
                Function.update_of_ne different]
              exact stored
            · exact stored
          · exact stored
      rw [failed]
      refine ⟨fun j used => closed j (other j used), fileHandles, rfl, .inl ⟨?_, rfl⟩⟩
      intro fd answered
      simp only [FileResult.status, Option.map_eq_some_iff] at answered
      obtain ⟨-, -, rfl⟩ := answered
      decide

/-! ## One event -/

/-- The process holds the numbers, each once, and a file stands behind each. -/
structure Holds (pid : Nat) (s : ProcessFiles φ) (numbers : List Int) : Prop where
  handles : s.fileHandles pid = some numbers
  nodup : numbers.Nodup
  inRange : ∀ fd ∈ numbers, 0 < fd ∧ fd ≤ viosMaxFileDescriptors
  inUse : ∀ fd ∈ numbers, s.files.descriptors (fd - 1).toNat ≠ none

theorem Holds.kept {pid : Nat} {s t : ProcessFiles φ} {numbers : List Int}
    (holds : Holds pid s numbers) (kept : OwnFilesKept pid s t) : Holds pid t numbers where
  handles := kept.handles.trans holds.handles
  nodup := holds.nodup
  inRange := holds.inRange
  inUse := by
    intro fd member
    rw [kept.files numbers holds.handles fd member]
    exact holds.inUse fd member

theorem Holds.opened {pid : Nat} {s t : ProcessFiles φ} {numbers numbers' : List Int} {fd : Int}
    (holds : Holds pid s numbers) (handles : t.fileHandles pid = some numbers')
    (kept : ∀ i, s.files.descriptors i ≠ none → t.files.descriptors i = s.files.descriptors i)
    (opened : OpenedFile s.files t.files numbers numbers' fd) : Holds pid t (numbers ++ [fd]) := by
  have fresh : fd ∉ numbers := fun member => holds.inUse fd member opened.free
  constructor
  case handles => rw [handles, opened.handles]
  case nodup =>
    apply holds.nodup.append (List.nodup_singleton fd)
    simpa using fresh
  case inRange =>
    intro other member
    cases List.mem_append.mp member with
    | inl old => exact holds.inRange other old
    | inr new =>
      obtain rfl := List.mem_singleton.mp new
      exact ⟨opened.positive, opened.bound⟩
  case inUse =>
    intro other member
    cases List.mem_append.mp member with
    | inl old =>
      rw [kept _ (holds.inUse other old)]
      exact holds.inUse other old
    | inr new =>
      obtain rfl := List.mem_singleton.mp new
      exact opened.inUse

theorem OwnFilesKept.refl (pid : Nat) (s : ProcessFiles φ) : OwnFilesKept pid s s :=
  ⟨rfl, fun _ _ _ _ => rfl⟩

theorem OwnFilesKept.trans {pid : Nat} {s t u : ProcessFiles φ} (first : OwnFilesKept pid s t)
    (second : OwnFilesKept pid t u) : OwnFilesKept pid s u where
  handles := second.handles.trans first.handles
  files := by
    intro fileHandles running fd member
    rw [second.files fileHandles (first.handles.trans running) fd member,
      first.files fileHandles running fd member]

section Served

variable {env : FileEnv φ} {pid : Nat} {kernel : Kernel σ} {files : σ → ProcessFiles φ}

/-- Reading and writing leave the process its numbers. -/
theorem ServesFiles.reads (serves : ServesFiles env pid kernel files) {s : σ} {numbers : List Int}
    (holds : Holds pid (files s) numbers) (function : FileFunction)
    (noOpen : ∀ path mode, function ≠ .processFopen path mode)
    (noClose : ∀ fd, function ≠ .processFclose fd)
    (running : (files (kernel.serve function.service s).2).fileHandles pid ≠ none) :
    Holds pid (files (kernel.serve function.service s).2) numbers := by
  obtain ⟨call, made, ⟨fileHandles, held, after, handles⟩, -⟩ :=
    serves.file function s numbers holds.handles
  obtain rfl : numbers = fileHandles := Option.some.inj (holds.handles.symm.trans held)
  rw [handles, Function.update_self] at running
  obtain ⟨numbers', still⟩ := Option.ne_none_iff_exists'.mp running
  have callOpens : ∀ path mode allocated, call ≠ .fopen path mode allocated := by
    rintro path mode allocated rfl
    cases made
    exact noOpen _ _ rfl
  have callCloses : ∀ fd allocated, call ≠ .fclose fd allocated := by
    rintro fd allocated rfl
    cases made
    exact noClose _ rfl
  obtain ⟨descriptors, same⟩ := processCall_keeps env callOpens callCloses still
  apply holds.kept
  constructor
  case handles => rw [handles, Function.update_self, holds.handles, still, same]
  case files =>
    intro _ _ fd _
    rw [after, descriptors]

/-- `process_fopen` adds its number, if it is positive. -/
theorem ServesFiles.opens (serves : ServesFiles env pid kernel files) {s : σ} {numbers : List Int}
    (holds : Holds pid (files s) numbers) (path mode : Qword) :
    let fd := (kernel.serve (.processFopen path mode) s).1.toInt
    Holds pid (files (kernel.serve (.processFopen path mode) s).2)
      (numbers ++ (if 0 < fd then some fd else none).toList) := by
  intro fd
  obtain ⟨call, made, ⟨fileHandles, held, after, handles⟩, answer⟩ :=
    serves.file (.processFopen path mode) s numbers holds.handles
  obtain rfl : numbers = fileHandles := Option.some.inj (holds.handles.symm.trans held)
  cases made with
  | fopen pathString modeString memory grows =>
    obtain ⟨kept, numbers', still, cases⟩ :=
      processFopen_progress env (files s).files numbers pathString modeString grows
    simp only [processCall, FileFunction.service] at after handles answer
    rw [still] at handles
    cases cases with
    | inl failed =>
      have negative : ¬ 0 < fd := Int.not_lt.mpr (failed.1 fd answer)
      rw [if_neg negative, Option.toList_none, List.append_nil]
      apply holds.kept
      constructor
      case handles => rw [handles, Function.update_self, failed.2, holds.handles]
      case files =>
        intro own running other member
        obtain rfl : numbers = own := Option.some.inj (holds.handles.symm.trans running)
        rw [after, kept _ (holds.inUse other member)]
    | inr success =>
      obtain ⟨number, result, opened⟩ := success
      obtain rfl : fd = number := Option.some.inj (answer.symm.trans result)
      rw [if_pos opened.positive, Option.toList_some]
      rw [← after] at opened kept
      exact holds.opened (by rw [handles, Function.update_self]) kept opened

/-- The number that a call of `vios_fopen` opens, by its answer. -/
def answeredNumber : Stub → Option Qword → Option Int
  | .viosFopen, some value => if 0 < value.toInt then some value.toInt else none
  | _, _ => none

/-- The commands of the stubs that enter the kernel: the process keeps its numbers, and
`vios_fopen` adds the one it answers. -/
theorem ServesFiles.command (serves : ServesFiles env pid kernel files) {s : σ} {numbers : List Int}
    (holds : Holds pid (files s) numbers) {stub : Stub} (enters : stub ≠ .viosFclose)
    (item : Nat → Qword)
    (running : (files (stub.command kernel item s).2).fileHandles pid ≠ none) :
    Holds pid (files (stub.command kernel item s).2)
      (numbers ++ (answeredNumber stub (stub.command kernel item s).1).toList) := by
  have quiet : ∀ {α : Type} (service : Service α), service.isFile = false →
      service.isTerminate = false → ∀ s,
      OwnFilesKept pid (files s) (files (kernel.serve service s).2) :=
    fun service notFile notTerminate s => serves.others service s notFile notTerminate
  have loads := fun path => quiet (.processLoadSwitch path) rfl rfl
  have injects := fun process root => quiet (.processInjectArguments process root) rfl rfl
  have switches := fun process => quiet (.taskSwitch process) rfl rfl
  cases stub with
  | viosFclose => exact absurd rfl enters
  | viosPrint =>
    simp only [answeredNumber, Option.toList_none, List.append_nil]
    exact holds.kept ((quiet _ rfl rfl s).trans (quiet (.print _) rfl rfl _))
  | viosGetkey =>
    simp only [answeredNumber, Option.toList_none, List.append_nil]
    exact holds.kept (quiet .keyboardPop rfl rfl s)
  | viosPutchar =>
    simp only [answeredNumber, Option.toList_none, List.append_nil]
    exact holds.kept (quiet (.terminalWritechar _ _) rfl rfl s)
  | viosMalloc =>
    simp only [answeredNumber, Option.toList_none, List.append_nil]
    exact holds.kept (quiet (.processMalloc _) rfl rfl s)
  | viosFree =>
    simp only [answeredNumber, Option.toList_none, List.append_nil]
    exact holds.kept (quiet (.processFree _) rfl rfl s)
  | viosRealloc =>
    simp only [answeredNumber, Option.toList_none, List.append_nil]
    exact holds.kept (quiet (.processRealloc _ _) rfl rfl s)
  | viosProcessGetArguments =>
    simp only [answeredNumber, Option.toList_none, List.append_nil]
    exact holds.kept (quiet (.processGetArguments _) rfl rfl s)
  | viosProcessLoadStart =>
    simp only [answeredNumber, Option.toList_none, List.append_nil]
    apply holds.kept
    simp only [Stub.command, isr80hCommand6ProcessLoadStart]
    have copied := quiet (.copyStringFromTask (item 0) viosMaxPath) rfl rfl s
    split
    · exact copied
    · have loaded := copied.trans (loads ([0x30, 0x3A, 0x2F] ++
        (kernel.serve (.copyStringFromTask (item 0) viosMaxPath) s).1.2) _)
      split
      · exact loaded
      · exact loaded.trans (switches _ _)
  | viosSystem =>
    simp only [answeredNumber, Option.toList_none, List.append_nil]
    apply holds.kept
    simp only [Stub.command, isr80hCommand7InvokeSystemCommand]
    split
    · exact OwnFilesKept.refl pid _
    · have loaded := loads ([0x40, 0x3A, 0x2F] ++
        kernel.stringAt (kernel.taskVirtualAddressToPhysical (item 0) s) s) s
      split
      · exact loaded
      · split
        · exact loaded.trans (injects _ _ _)
        · exact (loaded.trans (injects _ _ _)).trans (switches _ _)
  | viosExit =>
    -- a process that has exited has no handles
    have ended := serves.terminate s
    have next := (quiet .taskNext rfl rfl (kernel.serve .processTerminate s).2).handles
    exact absurd (next.trans ended) running
  | viosFopen =>
    simp only [Stub.command, isr80hCommand10Fopen] at running ⊢
    have refusal : answeredNumber .viosFopen (some (error (-1))) = none := by decide
    split
    · simpa only [refusal, Option.toList_none, List.append_nil] using holds
    · split
      · simpa only [refusal, Option.toList_none, List.append_nil] using holds
      · have opens := serves.opens holds (kernel.taskVirtualAddressToPhysical (item 0) s)
          (kernel.taskVirtualAddressToPhysical (item 1) s)
        simpa only [answeredNumber, BitVec.toInt_signExtend_of_le (by decide : 32 ≤ 64)] using opens
  | viosFread =>
    simp only [answeredNumber, Option.toList_none, List.append_nil]
    exact serves.reads holds (.processFread _ _ _ _) (by simp) (by simp) running
  | viosFseek =>
    simp only [answeredNumber, Option.toList_none, List.append_nil]
    exact serves.reads holds (.processFseek _ _ _) (by simp) (by simp) running
  | viosFstat =>
    simp only [answeredNumber, Option.toList_none, List.append_nil]
    exact serves.reads holds (.processFstat _ _) (by simp) (by simp) running
  | viosFwrite =>
    simp only [answeredNumber, Option.toList_none, List.append_nil]
    exact serves.reads holds (.processFwrite _ _ _ _) (by simp) (by simp) running

variable {commands : Isr80hCommands σ} {handler : Handler σ}

/-- An event leaves the process its numbers, and a positive answer of `vios_fopen` is added. -/
theorem programStep_holds (registered : isr80hRegisterCommands kernel = some commands)
    (compiled : Compiled commands handler) (serves : ServesFiles env pid kernel files) {s t : σ}
    {event : ProgramEvent} (step : programStep handler files pid s event t) {numbers : List Int}
    (holds : Holds pid (files s) numbers) (running : (files t).fileHandles pid ≠ none) :
    Holds pid (files t) (numbers ++ (openedNumber handler s event).toList) := by
  cases event with
  | elsewhere =>
    have unopened : openedNumber handler s .elsewhere = none := rfl
    rw [unopened, Option.toList_none, List.append_nil]
    exact holds.kept step
  | call stub rsp0 m =>
    obtain ⟨apart, rfl⟩ := step
    by_cases closes : stub = .viosFclose
    · subst closes
      obtain ⟨m', ran, -⟩ := runStub_fclose handler rsp0 m s
      have unopened : openedNumber handler s (.call .viosFclose rsp0 m) = none := rfl
      rw [ran, unopened, Option.toList_none, List.append_nil]
      exact holds
    · obtain ⟨state, answered⟩ := runStub_calls registered compiled closes apart s
      have number : openedNumber handler s (.call stub rsp0 m) =
          answeredNumber stub (stub.command kernel (argument m) s).1 := by
        cases stub with
        | viosFopen =>
          cases answer : (Stub.viosFopen.command kernel (argument m) s).1 with
          | none =>
            rw [answer] at answered
            rw [openedNumber, answered]
            rfl
          | some value =>
            rw [answer] at answered
            obtain ⟨m', ran, returned⟩ := answered
            rw [openedNumber, ran]
            simp only [returned.result, answeredNumber]
        | _ => rfl
      rw [state] at running ⊢
      rw [number]
      exact serves.command holds closes (argument m) running

theorem run_holds (registered : isr80hRegisterCommands kernel = some commands)
    (compiled : Compiled commands handler) (serves : ServesFiles env pid kernel files) {s : σ}
    {run : List (ProgramEvent × σ)} (isRun : IsRun (programStep handler files pid) s run)
    (running : ∀ t ∈ runStates s run, (files t).fileHandles pid ≠ none) {numbers : List Int}
    (holds : Holds pid (files s) numbers) :
    Holds pid (files (lastState s run)) (numbers ++ openedNumbers handler s run) := by
  induction run generalizing s numbers with
  | nil => simpa [lastState, openedNumbers] using holds
  | cons head rest ih =>
    obtain ⟨event, t⟩ := head
    rw [runStates_cons] at running
    have alive : (files t).fileHandles pid ≠ none :=
      running t (List.mem_cons_of_mem _ (by cases rest <;> simp [runStates]))
    have next := programStep_holds registered compiled serves isRun.1 holds alive
    have later := ih isRun.2 (fun u member => running u (List.mem_cons_of_mem _ member)) next
    rwa [List.append_assoc] at later

theorem Holds.length_le {s : ProcessFiles φ} {numbers : List Int} (holds : Holds pid s numbers) :
    numbers.length ≤ viosMaxFileDescriptors := by
  have inside : numbers ⊆ (List.range viosMaxFileDescriptors).map fun i => ((i + 1 : Nat) : Int) := by
    intro fd member
    obtain ⟨positive, bound⟩ := holds.inRange fd member
    exact List.mem_map.mpr ⟨(fd - 1).toNat, List.mem_range.mpr (by omega), by omega⟩
  have shorter := (List.subperm_of_subset holds.nodup inside).length_le
  rwa [List.length_map, List.length_range] at shorter

/-- In every run of a fresh process through the stubs, while it is not terminated, the process holds
exactly the numbers that `vios_fopen` has answered, whatever it has closed: they are distinct, each is
still in use, and so there are never more of them than descriptors. -/
theorem library_never_closes (registered : isr80hRegisterCommands kernel = some commands)
    (compiled : Compiled commands handler) (serves : ServesFiles env pid kernel files) {s : σ}
    (fresh : (files s).fileHandles pid = some []) {run : List (ProgramEvent × σ)}
    (isRun : IsRun (programStep handler files pid) s run)
    (running : ∀ t ∈ runStates s run, (files t).fileHandles pid ≠ none) :
    Holds pid (files (lastState s run)) (openedNumbers handler s run) ∧
      (openedNumbers handler s run).length ≤ viosMaxFileDescriptors := by
  have start : Holds pid (files s) [] := ⟨fresh, List.nodup_nil, by simp, by simp⟩
  have holds := run_holds registered compiled serves isRun running start
  rw [List.nil_append] at holds
  exact ⟨holds, holds.length_le⟩

end Served

/-! ## A program that opens, closes and opens -/

/-- No address of the program has a page. -/
def noMemory : UserMemory := ⟨[], fun _ => 0⟩

/-- A file function for process 0. -/
def serveFile (call : ProcessCall) (s : ProcessFiles Nat) : BitVec 32 × ProcessFiles Nat :=
  let outcome := processCall countingEnv s.files ((s.fileHandles 0).getD []) call
  (BitVec.ofInt 32 (outcome.result.res.getD 0),
    ⟨outcome.files, Function.update s.fileHandles 0 outcome.fileHandles⟩)

/-- A kernel with the files of process 0, on which every path is that of one file. -/
def filesKernel : Kernel (ProcessFiles Nat) where
  taskVirtualAddressToPhysical address _ := address
  stringAt _ _ := []
  serve
    | .copyStringFromTask _ _ => fun s => ((0, []), s)
    | .print _ | .terminalWritechar _ _ | .processFree _ | .taskSwitch _ | .processGetArguments _
    | .taskNext => fun s => ((), s)
    | .processTerminate => fun s => ((), ⟨s.files, Function.update s.fileHandles 0 none⟩)
    | .keyboardPop => fun s => (0, s)
    | .processMalloc _ | .processRealloc _ _ => fun s => (0, s)
    | .processLoadSwitch _ => fun s => ((0, 0), s)
    | .processInjectArguments _ _ => fun s => (0, s)
    | .processFopen _ _ => serveFile (.fopen pathA modeR enoughMemory)
    | .processFclose fd => serveFile (.fclose fd.toInt true)
    | .processFread virtPtr size nmemb fd =>
      serveFile (.fread noMemory virtPtr.toNat size.toNat nmemb.toNat fd.toInt)
    | .processFseek fd offset whence => serveFile (.fseek fd.toInt offset.toInt whence.toNat)
    | .processFstat fd virtFilestatAddr =>
      serveFile (.fstat noMemory fd.toInt virtFilestatAddr.toNat)
    | .processFwrite virtPtr size nmemb fd =>
      serveFile (.fwrite noMemory virtPtr.toNat [] size.toNat nmemb.toNat fd.toInt)

/-- The answers fit the `int` they are returned as. -/
theorem fopen_answers (files : FileState Nat) :
    ∃ fd : Int, (fopen countingEnv files allServed pathA modeR).1 = some fd ∧ 0 ≤ fd ∧
      fd ≤ viosMaxFileDescriptors := by
  have target : fopenTarget countingEnv allServed pathA modeR = some (0, [[0x61]], .read) := by decide
  have cleaned : ∀ st p, (fopenCleanup countingEnv st p).1 = some 0 := by
    intro st p
    simp only [fopenCleanup, countingEnv, countingFs]
    split <;> rfl
  simp only [fopen, target]
  split
  · rename_i opened
    simp [countingEnv, countingFs] at opened
  · split
    · exact ⟨0, cleaned _ _, by decide, by decide⟩
    · split
      · exact ⟨0, cleaned _ _, by decide, by decide⟩
      · rename_i i slot
        obtain ⟨inRange, -, -⟩ := fileFreeSlot_eq_some slot
        refine ⟨_, rfl, by omega, ?_⟩
        simp only [viosMaxFileDescriptors] at inRange ⊢
        omega

/-- The call answers an `int`. -/
def Answers (call : ProcessCall) : Prop :=
  ∀ files fileHandles, ∃ res : Int,
    (processCall countingEnv files fileHandles call).result.res = some res ∧
      -2 ^ 31 ≤ res ∧ res < 2 ^ 31

theorem validate_answers (virtAddr spaceNeeded : Nat) :
    -2 ^ 31 ≤ (processValidateMemoryOrTerminate [] virtAddr spaceNeeded).1 ∧
      (processValidateMemoryOrTerminate [] virtAddr spaceNeeded).1 < 2 ^ 31 := by
  have found : (processGetAllocationByAddr [] virtAddr).1 = 0 ∨
      (processGetAllocationByAddr [] virtAddr).1 = -eio := by
    rw [processGetAllocationByAddr]
    split
    · exact .inl rfl
    · exact .inr rfl
  have status : (processValidateMemoryOrTerminate [] virtAddr spaceNeeded).1 =
        (processGetAllocationByAddr [] virtAddr).1 ∨
      (processValidateMemoryOrTerminate [] virtAddr spaceNeeded).1 = -einvarg := by
    simp only [processValidateMemoryOrTerminate]
    split
    · exact .inl rfl
    · split
      · exact .inr rfl
      · exact .inl rfl
  cases status with
  | inl same =>
    rw [same]
    cases found with
    | inl accepted => simp [accepted]
    | inr refused => simp [refused, eio]
  | inr short => simp [short, einvarg]

theorem fopen_call_answers {path mode : CStr}
    (answers : ∀ files, ∃ fd : Int, (fopen countingEnv files allServed path mode).1 = some fd ∧ 0 ≤ fd ∧
      fd ≤ viosMaxFileDescriptors) :
    Answers (.fopen path mode enoughMemory) := by
  intro files fileHandles
  obtain ⟨fd, result, nonneg, bound⟩ := answers files
  simp only [viosMaxFileDescriptors] at bound
  simp only [processCall, processFopen, enoughMemory]
  cases opened : fopen countingEnv files allServed path mode with
  | mk answer files' =>
    rw [opened] at result
    obtain rfl : answer = some fd := result
    simp only [and_true]
    split
    · exact ⟨fd, rfl, by omega, by omega⟩
    · obtain rfl : fd = 0 := by omega
      exact ⟨-eio, by simp [fclose, fileGetDescriptor, FileResult.status], by decide, by decide⟩

theorem fread_call_answers (virtPtr size nmemb : Nat) (fd : Int) :
    Answers (.fread noMemory virtPtr size nmemb fd) := by
  intro files fileHandles
  simp only [processCall, processFread]
  split
  · exact ⟨-eio, rfl, by decide, by decide⟩
  · split
    · exact ⟨_, rfl, validate_answers _ _⟩
    · exact ⟨_, rfl, validate_answers _ _⟩

theorem fwrite_call_answers (virtPtr size nmemb : Nat) (fd : Int) :
    Answers (.fwrite noMemory virtPtr [] size nmemb fd) := by
  intro files fileHandles
  simp only [processCall, processFwrite]
  split <;> exact ⟨-eio, rfl, by decide, by decide⟩

theorem fstat_call_answers (fd : Int) (virtFilestatAddr : Nat) :
    Answers (.fstat noMemory fd virtFilestatAddr) := by
  intro files fileHandles
  simp only [processCall, processFstat]
  split
  · exact ⟨_, rfl, validate_answers _ _⟩
  · exact ⟨-einvarg, rfl, by decide, by decide⟩

theorem fseek_call_answers (fd offset : Int) (whence : Nat) : Answers (.fseek fd offset whence) := by
  intro files fileHandles
  simp only [processCall, processFseek, fseek]
  split
  · exact ⟨-eio, rfl, by decide, by decide⟩
  · split
    · exact ⟨-eio, rfl, by decide, by decide⟩
    · exact ⟨0, rfl, by decide, by decide⟩

theorem fclose_call_answers (fd : Int) : Answers (.fclose fd true) := by
  intro files fileHandles
  simp only [processCall, processFclose, fclose]
  split
  · exact ⟨-einvarg, rfl, by decide, by decide⟩
  · split
    · exact ⟨0, rfl, by decide, by decide⟩
    · exact ⟨0, rfl, by decide, by decide⟩

theorem serveFile_serves {call : ProcessCall} (answers : Answers call) {s : ProcessFiles Nat}
    {fileHandles : List Int} (held : s.fileHandles 0 = some fileHandles) :
    processStep countingEnv s (0, call) (serveFile call s).2 ∧
      (processCall countingEnv s.files fileHandles call).result.res =
        some (serveFile call s).1.toInt := by
  obtain ⟨res, result, low, high⟩ := answers s.files fileHandles
  simp only [serveFile, held, Option.getD_some, result]
  refine ⟨⟨fileHandles, held, rfl, rfl⟩, ?_⟩
  rw [BitVec.toInt_ofInt_eq_self (by decide) (by simpa using low) (by simpa using high)]

theorem filesKernel_serves : ServesFiles countingEnv 0 filesKernel fun s => s where
  file := by
    intro function s fileHandles held
    cases function with
    | processFopen path mode => exact ⟨_, .fopen pathA modeR enoughMemory rfl, serveFile_serves (fopen_call_answers fopen_answers) held⟩
    | processFclose fd => exact ⟨_, .fclose true, serveFile_serves (fclose_call_answers _) held⟩
    | processFread virtPtr size nmemb fd =>
      exact ⟨_, .fread noMemory, serveFile_serves (fread_call_answers _ _ _ _) held⟩
    | processFseek fd offset whence =>
      exact ⟨_, .fseek, serveFile_serves (fseek_call_answers _ _ _) held⟩
    | processFstat fd virtFilestatAddr =>
      exact ⟨_, .fstat noMemory, serveFile_serves (fstat_call_answers _ _) held⟩
    | processFwrite virtPtr size nmemb fd =>
      exact ⟨_, .fwrite noMemory [], serveFile_serves (fwrite_call_answers _ _ _ _) held⟩
  terminate := fun s => by simp [filesKernel]
  others := by
    intro α service s notFile notTerminate
    cases service with
    | processFopen | processFclose | processFread | processFseek | processFstat | processFwrite =>
      cases notFile
    | processTerminate => cases notTerminate
    | _ => exact OwnFilesKept.refl 0 s

/-- A program with its arguments below the top of its stack. -/
def filesCaller : Machine :=
  ((idleKernel.setReg .rsp 0x3FF000).setReg .rdi 0x400100).setReg .rsi 0x400200

/-- The files of process 0, before it opens one. -/
def freshProcess : ProcessFiles Nat := ⟨fsInit 0, fun pid => if pid = 0 then some [] else none⟩

/-- The program opens a file, closes it and opens it again. -/
def openCloseOpen : List (ProgramEvent × ProcessFiles Nat) :=
  let handler := answering fun id => (systemCommands filesKernel)[id]?
  let first := (runStub handler 0x600000 .viosFopen filesCaller freshProcess).2
  let second := (runStub handler 0x600000 .viosFclose (filesCaller.setReg .rdi 1) first).2
  let third := (runStub handler 0x600000 .viosFopen filesCaller second).2
  [(.call .viosFopen 0x600000 filesCaller, first),
    (.call .viosFclose 0x600000 (filesCaller.setReg .rdi 1), second),
    (.call .viosFopen 0x600000 filesCaller, third)]

/-- The stack of the program is apart from the kernel's. -/
theorem filesCaller_apart {m : Machine} (rsp : m.reg .rsp = 0x3FF000) (stub : Stub) :
    ∀ i < stub.arity, ¬ InFrame 0x600000 (m.reg .rsp - BitVec.ofNat 64 (8 * (i + 1))) := by
  intro i below ⟨j, positive, few, same⟩
  have four : stub.arity ≤ 4 := by cases stub <;> decide
  rw [rsp] at same
  bv_omega

/-- `vios_fopen` does not end the process. -/
theorem viosFopen_running (s : ProcessFiles Nat) (running : s.fileHandles 0 ≠ none) :
    (runStub (answering fun id => (systemCommands filesKernel)[id]?) 0x600000 .viosFopen filesCaller
      s).2.fileHandles 0 ≠ none := by
  obtain ⟨state, -⟩ := runStub_calls (isr80hRegisterCommands_eq filesKernel) (answering_compiled _)
    (by decide : Stub.viosFopen ≠ .viosFclose)
    (@filesCaller_apart filesCaller rfl .viosFopen) s
  rw [state]
  simp only [Stub.command, isr80hCommand10Fopen]
  split
  · exact running
  · split
    · exact running
    · obtain ⟨-, fileHandles, still, -⟩ := processFopen_progress countingEnv s.files
        ((s.fileHandles 0).getD []) pathA modeR (show enoughMemory.push = .room from rfl)
      simp [filesKernel, serveFile, processCall, still]

theorem openCloseOpen_never_closes :
    Holds 0 (lastState freshProcess openCloseOpen)
      (openedNumbers (answering fun id => (systemCommands filesKernel)[id]?) freshProcess
        openCloseOpen) ∧
      (openedNumbers (answering fun id => (systemCommands filesKernel)[id]?) freshProcess
        openCloseOpen).length ≤ viosMaxFileDescriptors := by
  apply library_never_closes (isr80hRegisterCommands_eq filesKernel) (answering_compiled _)
    filesKernel_serves
  · rfl
  · exact ⟨⟨filesCaller_apart rfl _, rfl⟩, ⟨filesCaller_apart rfl _, rfl⟩,
      ⟨filesCaller_apart rfl _, rfl⟩, trivial⟩
  · have start : freshProcess.fileHandles 0 ≠ none := by simp [freshProcess]
    have first := viosFopen_running freshProcess start
    obtain ⟨m', closed, -⟩ := runStub_fclose
      (answering fun id => (systemCommands filesKernel)[id]?) 0x600000 (filesCaller.setReg .rdi 1)
      (runStub (answering fun id => (systemCommands filesKernel)[id]?) 0x600000 .viosFopen
        filesCaller freshProcess).2
    intro t member
    simp only [openCloseOpen, closed, runStates_cons, runStates_nil, List.mem_cons,
      List.not_mem_nil, or_false] at member
    rcases member with rfl | rfl | rfl | rfl
    · exact start
    · exact first
    · exact first
    · exact viosFopen_running _ first

end ViOS.SystemCalls
