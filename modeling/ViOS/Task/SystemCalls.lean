import ViOS.Config
import ViOS.Task.Registers
import Mathlib.Data.List.Induction

/-! # System calls

A program calls the kernel through the stubs of `vios.asm`, which push the C arguments, put the
number of a command into `rax` and execute `int 0x80`.  `isr80h_wrapper` saves the registers,
`isr80h_handler` copies them into the task and calls the command of that number, and the command
reads its arguments from the stack of the task with `task_get_stack_item`.  Nothing but the numbers
and the order of the pushes ties the two sides together.

* `Service`, `Kernel` — the functions that the commands call, with their C types.
* `isr80hCommand0Sum`, …, `isr80hRegisterCommands`, `isr80hHandler` — the kernel's side.
* `Stub`, `Stub.code`, `runStub` — the program's side, on the machine of `idt.asm`.
* `runStub_calls` — a stub that enters the kernel is a call of its command on the C arguments.
* `runStub_answers` — the answer of every stub; `vios_fclose` never enters the kernel.
-/

namespace ViOS.SystemCalls

open ViOS.ContextSwitch

variable {σ : Type}

/-! ## The commands -/

/-- The functions that the commands call, by the type of their result.  The parameters have the
width of the C parameters, and an `int` is a `BitVec 32`. -/
inductive Service : Type → Type where
  /-- `copy_string_from_task`: the status and the string in the buffer. -/
  | copyStringFromTask (virtual : Qword) (max : Nat) : Service (BitVec 32 × List UInt8)
  | print (message : List UInt8) : Service Unit
  | keyboardPop : Service (BitVec 8)
  | terminalWritechar (c : BitVec 8) (colour : Nat) : Service Unit
  | processMalloc (size : Qword) : Service Qword
  | processFree (ptr : Qword) : Service Unit
  | processRealloc (oldVirtPtr newSize : Qword) : Service Qword
  /-- `process_load_switch`: the status and the process. -/
  | processLoadSwitch (path : List UInt8) : Service (BitVec 32 × Qword)
  | processInjectArguments (process rootArgument : Qword) : Service (BitVec 32)
  | taskSwitch (process : Qword) : Service Unit
  | processGetArguments (arguments : Qword) : Service Unit
  | processTerminate : Service Unit
  | taskNext : Service Unit
  | processFopen (path mode : Qword) : Service (BitVec 32)
  | processFclose (fd : BitVec 32) : Service (BitVec 32)
  | processFread (virtPtr size nmemb : Qword) (fd : BitVec 32) : Service (BitVec 32)
  | processFseek (fd offset whence : BitVec 32) : Service (BitVec 32)
  | processFstat (fd : BitVec 32) (virtFilestatAddr : Qword) : Service (BitVec 32)
  | processFwrite (virtPtr : Qword) (size nmemb fd : BitVec 32) : Service (BitVec 32)

/-- The kernel under the commands, for the current task. -/
structure Kernel (σ : Type) where
  taskVirtualAddressToPhysical : Qword → σ → Qword
  /-- The string at a physical address. -/
  stringAt : Qword → σ → List UInt8
  serve : {α : Type} → Service α → σ → α × σ

/-- A command, given the stack items of the current task.  There is no answer when the kernel goes
on with another task. -/
abbrev Command (σ : Type) := (Nat → Qword) → σ → Option Qword × σ

/-- `ERROR(value)`. -/
def error (value : Int) : Qword := BitVec.ofInt 64 value

section Commands

variable (kernel : Kernel σ)

def isr80hCommand0Sum : Command σ := fun item s =>
  let v2 := item 1
  let v1 := item 0
  (some (v1 + v2), s)

def isr80hCommand1Print : Command σ := fun item s =>
  let ((_, buf), s) := kernel.serve (.copyStringFromTask (item 0) 1024) s
  (some 0, (kernel.serve (.print buf) s).2)

/-- `char` is signed. -/
def isr80hCommand2Getkey : Command σ := fun _ s =>
  let (c, s) := kernel.serve .keyboardPop s
  (some (c.signExtend 64), s)

def isr80hCommand3Putchar : Command σ := fun item s =>
  (some 0, (kernel.serve (.terminalWritechar ((item 0).setWidth 8) 15) s).2)

def isr80hCommand4Malloc : Command σ := fun item s =>
  let (address, s) := kernel.serve (.processMalloc (item 0)) s
  (some address, s)

def isr80hCommand5Free : Command σ := fun item s =>
  (some 0, (kernel.serve (.processFree (item 0)) s).2)

def isr80hCommand6ProcessLoadStart : Command σ := fun item s =>
  let ((res, filename), s) := kernel.serve (.copyStringFromTask (item 0) viosMaxPath) s
  if res.toInt < 0 then (some 0, s)
  else
    -- "0:/"
    let ((res, process), s) := kernel.serve (.processLoadSwitch ([0x30, 0x3A, 0x2F] ++ filename)) s
    if res.toInt < 0 then (some 0, s)
    else (none, (kernel.serve (.taskSwitch process) s).2)

def isr80hCommand7InvokeSystemCommand : Command σ := fun item s =>
  let arguments := kernel.taskVirtualAddressToPhysical (item 0) s
  if arguments = 0 ∨ kernel.stringAt arguments s = [] then (some (error (-einvarg)), s)
  else
    let programName := kernel.stringAt arguments s
    -- "@:/"
    let ((res, process), s) := kernel.serve (.processLoadSwitch ([0x40, 0x3A, 0x2F] ++ programName)) s
    if res.toInt < 0 then (some (error res.toInt), s)
    else
      let (res, s) := kernel.serve (.processInjectArguments process arguments) s
      if res.toInt < 0 then (some (error res.toInt), s)
      else (none, (kernel.serve (.taskSwitch process) s).2)

def isr80hCommand8GetProgramArguments : Command σ := fun item s =>
  let arguments := kernel.taskVirtualAddressToPhysical (item 0) s
  (some 0, (kernel.serve (.processGetArguments arguments) s).2)

def isr80hCommand9Exit : Command σ := fun _ s =>
  let (_, s) := kernel.serve .processTerminate s
  (none, (kernel.serve .taskNext s).2)

def isr80hCommand10Fopen : Command σ := fun item s =>
  let filename := kernel.taskVirtualAddressToPhysical (item 0) s
  if filename = 0 then (some (error (-1)), s)
  else
    let mode := kernel.taskVirtualAddressToPhysical (item 1) s
    if mode = 0 then (some (error (-1)), s)
    else
      let (fd, s) := kernel.serve (.processFopen filename mode) s
      (some (fd.signExtend 64), s)

def isr80hCommand11Fclose : Command σ := fun item s =>
  (some 0, (kernel.serve (.processFclose ((item 0).setWidth 32)) s).2)

def isr80hCommand12Fread : Command σ := fun item s =>
  let (res, s) := kernel.serve (.processFread (item 0) (item 1) (item 2) ((item 3).setWidth 32)) s
  (some (res.signExtend 64), s)

def isr80hCommand13Fseek : Command σ := fun item s =>
  let (res, s) := kernel.serve
    (.processFseek ((item 0).setWidth 32) ((item 1).setWidth 32) ((item 2).setWidth 32)) s
  (some (res.signExtend 64), s)

def isr80hCommand14Fstat : Command σ := fun item s =>
  let (res, s) := kernel.serve (.processFstat ((item 0).setWidth 32) (item 1)) s
  (some (res.signExtend 64), s)

def isr80hCommand15Realloc : Command σ := fun item s =>
  let (address, s) := kernel.serve (.processRealloc (item 0) (item 1)) s
  (some address, s)

def isr80hCommand16Fwrite : Command σ := fun item s =>
  let (res, s) := kernel.serve
    (.processFwrite (item 0) ((item 1).setWidth 32) ((item 2).setWidth 32) ((item 3).setWidth 32)) s
  (some (res.signExtend 64), s)

end Commands

/-! ## `idt.c` -/

def viosMaxIsr80hCommands : Nat := 1024

/-- `isr80h_commands`. -/
abbrev Isr80hCommands (σ : Type) := Nat → Option (Command σ)

/-- `isr80h_register_command`; `none` is `panic`. -/
def isr80hRegisterCommand (commands : Isr80hCommands σ) (commandId : Nat × Command σ) :
    Option (Isr80hCommands σ) :=
  if commandId.1 ≥ viosMaxIsr80hCommands then none
  else if (commands commandId.1).isSome then none
  else some (Function.update commands commandId.1 (some commandId.2))

/-- `isr80h_register_commands`, with the values of `enum SystemCommands`. -/
def isr80hRegisterCommands (kernel : Kernel σ) : Option (Isr80hCommands σ) :=
  [(0, isr80hCommand0Sum), (1, isr80hCommand1Print kernel), (2, isr80hCommand2Getkey kernel),
    (3, isr80hCommand3Putchar kernel), (4, isr80hCommand4Malloc kernel),
    (5, isr80hCommand5Free kernel), (6, isr80hCommand6ProcessLoadStart kernel),
    (7, isr80hCommand7InvokeSystemCommand kernel), (8, isr80hCommand8GetProgramArguments kernel),
    (9, isr80hCommand9Exit kernel), (10, isr80hCommand10Fopen kernel),
    (11, isr80hCommand11Fclose kernel), (12, isr80hCommand12Fread kernel),
    (13, isr80hCommand13Fseek kernel), (14, isr80hCommand14Fstat kernel),
    (15, isr80hCommand15Realloc kernel), (16, isr80hCommand16Fwrite kernel)].foldlM
      isr80hRegisterCommand fun _ => none

/-- `isr80h_handle_command`. -/
def isr80hHandleCommand (commands : Isr80hCommands σ) (command : Int) : Command σ := fun item s =>
  if command < 0 ∨ command ≥ viosMaxIsr80hCommands then (some 0, s)
  else
    match commands command.toNat with
    | none => (some 0, s)
    | some commandFunc => commandFunc item s

/-- `task_get_stack_item`, in the memory of the task. -/
def taskGetStackItem (registers : Registers) (mem : Qword → Qword) (index : Nat) : Qword :=
  mem (registers.rsp + BitVec.ofNat 64 (8 * index))

/-- `isr80h_handler`: the registers are saved before the command reads the stack. -/
def isr80hHandler (commands : Isr80hCommands σ) (command : BitVec 32) (frame : InterruptFrame)
    (mem : Qword → Qword) (s : σ) : Option Qword × σ :=
  let registers := taskSaveState frame
  isr80hHandleCommand commands command.toInt (taskGetStackItem registers mem) s

/-- The compiled handler, from its call by `isr80h_wrapper` to its return. -/
abbrev Handler (σ : Type) := Machine → σ → Option Machine × σ

/-- The handler follows the System V calling convention and computes `isr80h_handler`: `edi` and
`rsi` are its arguments and `rax` is its result. -/
structure Compiled (commands : Isr80hCommands σ) (handler : Handler σ) : Prop where
  calleeSaved : ∀ m s m', (handler m s).1 = some m' →
    ∀ r ∈ [Reg.rbx, .rsp, .rbp, .r12, .r13, .r14, .r15], m'.reg r = m.reg r
  frame : ∀ m s m', (handler m s).1 = some m' →
    frameAt m'.mem (m.reg .rsp) = frameAt m.mem (m.reg .rsp)
  answer : ∀ m s, (handler m s).1.map (·.reg .rax) =
    (isr80hHandler commands ((m.reg .rdi).setWidth 32) m.frame m.mem s).1
  state : ∀ m s, (handler m s).2 =
    (isr80hHandler commands ((m.reg .rdi).setWidth 32) m.frame m.mem s).2

/-! ## `vios.asm` -/

/-- The instructions of the stubs. -/
inductive UserInstr where
  | instr (i : Instr)
  /-- `int 0x80` -/
  | int80
  | addRsp (bytes : Qword)
  | ret

/-- One instruction of the program.  An interrupt switches to the kernel's stack at `rsp0`. -/
def UserInstr.exec (handler : Handler σ) (rsp0 : Qword) (m : Machine) (s : σ) :
    UserInstr → Option Machine × σ
  | .instr i => (some (i.exec m), s)
  | .int80 =>
    match handler (ContextSwitch.exec isr80hEntry (m.interrupt rsp0)) s with
    | (none, s) => (none, s)
    | (some returned, s) =>
      let left := ContextSwitch.exec isr80hExit returned
      (some { left with toCpu := left.iretq }, s)
  | .addRsp bytes => (some (m.setReg .rsp (m.reg .rsp + bytes)), s)
  | .ret => (some { m.drop with rip := m.stack 0 }, s)

/-- A sequence of instructions, which ends early when the kernel goes on with another task. -/
def runCode (handler : Handler σ) (rsp0 : Qword) : List UserInstr → Machine → σ → Option Machine × σ
  | [], m, s => (some m, s)
  | instr :: code, m, s =>
    match instr.exec handler rsp0 m s with
    | (none, s) => (none, s)
    | (some m, s) => runCode handler rsp0 code m s

/-- The functions of `vios.asm`. -/
inductive Stub where
  | viosPrint | viosGetkey | viosPutchar | viosMalloc | viosFree | viosProcessLoadStart | viosSystem
  | viosProcessGetArguments | viosExit | viosFopen | viosFclose | viosFread | viosFseek | viosFstat
  | viosRealloc | viosFwrite
  deriving DecidableEq, Repr

def pushReg (r : Reg) : UserInstr := .instr (.push (.place (.reg r)))

def movRax (value : Qword) : UserInstr := .instr (.mov (.reg .rax) (.imm value))

/-- The code of a stub. -/
def Stub.code : Stub → List UserInstr
  | .viosPrint => [pushReg .rdi, movRax 1, .int80, .addRsp 8, .ret]
  | .viosGetkey => [movRax 2, .int80, .ret]
  | .viosPutchar => [movRax 3, pushReg .rdi, .int80, .addRsp 8, .ret]
  | .viosMalloc => [movRax 4, pushReg .rdi, .int80, .addRsp 8, .ret]
  | .viosFree => [movRax 5, pushReg .rdi, .int80, .addRsp 8, .ret]
  | .viosProcessLoadStart => [movRax 6, pushReg .rdi, .int80, .addRsp 8, .ret]
  | .viosSystem => [movRax 7, pushReg .rdi, .int80, .addRsp 8, .ret]
  | .viosProcessGetArguments => [movRax 8, pushReg .rdi, .int80, .addRsp 8, .ret]
  | .viosExit => [movRax 9, .int80, .ret]
  | .viosFopen => [movRax 10, pushReg .rsi, pushReg .rdi, .int80, .addRsp 16, .ret]
  -- the interrupt is missing
  | .viosFclose => [movRax 11, pushReg .rdi, .addRsp 8, .ret]
  | .viosFread =>
    [movRax 12, pushReg .rcx, pushReg .rdx, pushReg .rsi, pushReg .rdi, .int80, .addRsp 32, .ret]
  | .viosFseek => [movRax 13, pushReg .rdx, pushReg .rsi, pushReg .rdi, .int80, .addRsp 24, .ret]
  | .viosFstat => [movRax 14, pushReg .rsi, pushReg .rdi, .int80, .addRsp 16, .ret]
  | .viosRealloc => [movRax 15, pushReg .rsi, pushReg .rdi, .int80, .addRsp 16, .ret]
  | .viosFwrite =>
    [movRax 16, pushReg .rcx, pushReg .rdx, pushReg .rsi, pushReg .rdi, .int80, .addRsp 32, .ret]

/-- A call of a stub, up to the instruction behind its `ret`. -/
def runStub (handler : Handler σ) (rsp0 : Qword) (stub : Stub) (m : Machine) (s : σ) :
    Option Machine × σ := runCode handler rsp0 stub.code m s

/-! ## What a call should do -/

/-- The C arguments of a call. -/
def argument (m : Machine) : Nat → Qword
  | 0 => m.reg .rdi
  | 1 => m.reg .rsi
  | 2 => m.reg .rdx
  | _ => m.reg .rcx

/-- The number of C parameters. -/
def Stub.arity : Stub → Nat
  | .viosGetkey | .viosExit => 0
  | .viosPrint | .viosPutchar | .viosMalloc | .viosFree | .viosProcessLoadStart | .viosSystem
  | .viosProcessGetArguments | .viosFclose => 1
  | .viosFopen | .viosFstat | .viosRealloc => 2
  | .viosFseek => 3
  | .viosFread | .viosFwrite => 4

/-- The command that carries out the function. -/
def Stub.command (kernel : Kernel σ) : Stub → Command σ
  | .viosPrint => isr80hCommand1Print kernel
  | .viosGetkey => isr80hCommand2Getkey kernel
  | .viosPutchar => isr80hCommand3Putchar kernel
  | .viosMalloc => isr80hCommand4Malloc kernel
  | .viosFree => isr80hCommand5Free kernel
  | .viosProcessLoadStart => isr80hCommand6ProcessLoadStart kernel
  | .viosSystem => isr80hCommand7InvokeSystemCommand kernel
  | .viosProcessGetArguments => isr80hCommand8GetProgramArguments kernel
  | .viosExit => isr80hCommand9Exit kernel
  | .viosFopen => isr80hCommand10Fopen kernel
  | .viosFclose => isr80hCommand11Fclose kernel
  | .viosFread => isr80hCommand12Fread kernel
  | .viosFseek => isr80hCommand13Fseek kernel
  | .viosFstat => isr80hCommand14Fstat kernel
  | .viosRealloc => isr80hCommand15Realloc kernel
  | .viosFwrite => isr80hCommand16Fwrite kernel

/-- What a call answers, and the state of the kernel behind it.  `vios_fclose` only puts its number
into `rax`. -/
def Stub.answer (kernel : Kernel σ) (stub : Stub) (m : Machine) (s : σ) : Option Qword × σ :=
  if stub = .viosFclose then (some 11, s) else stub.command kernel (argument m) s

/-- What the caller finds behind a call: the result, its stack and its registers, but for those that
a C function may change.  It goes on at the return address, as the call has left it. -/
structure Returned (m : Machine) (value : Qword) (m' : Machine) : Prop where
  result : m'.reg .rax = value
  stack : m'.reg .rsp = m.reg .rsp + 8
  address : m'.rip = m'.mem (m.reg .rsp)
  kept : ∀ r, r ∉ [Reg.rax, .rsp] ++ scratch → m'.reg r = m.reg r

/-! ## The table of commands -/

/-- Commands registered in turn are found under their positions. -/
theorem register_list (commands : List (Command σ))
    (small : commands.length ≤ viosMaxIsr80hCommands) :
    ((List.range commands.length).zip commands).foldlM isr80hRegisterCommand (fun _ => none) =
      some fun id => commands[id]? := by
  induction commands using List.reverseRecOn with
  | nil => rfl
  | append_singleton commands command ih =>
    rw [List.length_append, List.length_singleton] at small ⊢
    have free : ¬ commands.length ≥ viosMaxIsr80hCommands := by omega
    have registered : Function.update (fun id => commands[id]?) commands.length (some command) =
        fun id => (commands ++ [command])[id]? := by
      funext id
      rcases Nat.lt_trichotomy id commands.length with below | rfl | above
      · rw [Function.update_of_ne (by omega), List.getElem?_append_left below]
      · simp
      · rw [Function.update_of_ne (by omega), List.getElem?_eq_none (by omega),
          List.getElem?_eq_none (by simp; omega)]
    rw [List.range_succ, List.zip_append (by simp), List.foldlM_append, ih (by omega)]
    simp [isr80hRegisterCommand, free, registered]

/-- The number a stub passes in `rax`. -/
def Stub.number : Stub → Nat
  | .viosPrint => 1
  | .viosGetkey => 2
  | .viosPutchar => 3
  | .viosMalloc => 4
  | .viosFree => 5
  | .viosProcessLoadStart => 6
  | .viosSystem => 7
  | .viosProcessGetArguments => 8
  | .viosExit => 9
  | .viosFopen => 10
  | .viosFclose => 11
  | .viosFread => 12
  | .viosFseek => 13
  | .viosFstat => 14
  | .viosRealloc => 15
  | .viosFwrite => 16

/-- The commands by their numbers. -/
def systemCommands (kernel : Kernel σ) : List (Command σ) :=
  [isr80hCommand0Sum, isr80hCommand1Print kernel, isr80hCommand2Getkey kernel,
    isr80hCommand3Putchar kernel, isr80hCommand4Malloc kernel, isr80hCommand5Free kernel,
    isr80hCommand6ProcessLoadStart kernel, isr80hCommand7InvokeSystemCommand kernel,
    isr80hCommand8GetProgramArguments kernel, isr80hCommand9Exit kernel,
    isr80hCommand10Fopen kernel, isr80hCommand11Fclose kernel, isr80hCommand12Fread kernel,
    isr80hCommand13Fseek kernel, isr80hCommand14Fstat kernel, isr80hCommand15Realloc kernel,
    isr80hCommand16Fwrite kernel]

/-- The registration does not panic. -/
theorem isr80hRegisterCommands_eq (kernel : Kernel σ) :
    isr80hRegisterCommands kernel = some fun id => (systemCommands kernel)[id]? := by
  have count : (systemCommands kernel).length = 17 := rfl
  have listed := register_list (systemCommands kernel) (by rw [count]; decide)
  rw [count] at listed
  exact listed

/-- Each number leads to the command that its stub asks for. -/
theorem handleCommand_stub (kernel : Kernel σ) (stub : Stub) :
    isr80hHandleCommand (fun id => (systemCommands kernel)[id]?) stub.number =
      stub.command kernel := by
  have inRange : ¬ ((stub.number : Int) < 0 ∨ (stub.number : Int) ≥ viosMaxIsr80hCommands) := by
    cases stub <;> decide
  have found : (systemCommands kernel)[stub.number]? = some (stub.command kernel) := by
    cases stub <;> rfl
  funext item s
  rw [isr80hHandleCommand, if_neg inRange]
  simp only [Int.toNat_natCast, found]

/-- A command reads no more stack items than its function has parameters. -/
theorem command_congr (kernel : Kernel σ) (stub : Stub) {item item' : Nat → Qword}
    (same : ∀ i < stub.arity, item i = item' i) (s : σ) :
    stub.command kernel item s = stub.command kernel item' s := by
  cases stub with
  | viosGetkey | viosExit => rfl
  | viosPrint => simp only [Stub.command, isr80hCommand1Print, same 0 (by decide)]
  | viosPutchar => simp only [Stub.command, isr80hCommand3Putchar, same 0 (by decide)]
  | viosMalloc => simp only [Stub.command, isr80hCommand4Malloc, same 0 (by decide)]
  | viosFree => simp only [Stub.command, isr80hCommand5Free, same 0 (by decide)]
  | viosProcessLoadStart =>
    simp only [Stub.command, isr80hCommand6ProcessLoadStart, same 0 (by decide)]
  | viosSystem => simp only [Stub.command, isr80hCommand7InvokeSystemCommand, same 0 (by decide)]
  | viosProcessGetArguments =>
    simp only [Stub.command, isr80hCommand8GetProgramArguments, same 0 (by decide)]
  | viosFopen =>
    simp only [Stub.command, isr80hCommand10Fopen, same 0 (by decide), same 1 (by decide)]
  | viosFclose => simp only [Stub.command, isr80hCommand11Fclose, same 0 (by decide)]
  | viosFread =>
    simp only [Stub.command, isr80hCommand12Fread, same 0 (by decide), same 1 (by decide),
      same 2 (by decide), same 3 (by decide)]
  | viosFseek =>
    simp only [Stub.command, isr80hCommand13Fseek, same 0 (by decide), same 1 (by decide),
      same 2 (by decide)]
  | viosFstat =>
    simp only [Stub.command, isr80hCommand14Fstat, same 0 (by decide), same 1 (by decide)]
  | viosRealloc =>
    simp only [Stub.command, isr80hCommand15Realloc, same 0 (by decide), same 1 (by decide)]
  | viosFwrite =>
    simp only [Stub.command, isr80hCommand16Fwrite, same 0 (by decide), same 1 (by decide),
      same 2 (by decide), same 3 (by decide)]

/-! ## Before the interrupt -/

/-- The code of a stub before the interrupt. -/
def Stub.prologue (stub : Stub) : List Instr :=
  stub.code.filterMap fun
    | .instr i => some i
    | _ => none

/-- The code behind it. -/
def Stub.epilogue (stub : Stub) : List UserInstr :=
  if stub.arity = 0 then [.ret] else [.addRsp (BitVec.ofNat 64 (8 * stub.arity)), .ret]

/-- The registers of the arguments, in the order of the parameters. -/
def Stub.registers (stub : Stub) : List Reg := [Reg.rdi, .rsi, .rdx, .rcx].take stub.arity

def pushes (registers : List Reg) : List Instr :=
  registers.reverse.map fun r => .push (.place (.reg r))

theorem code_eq {stub : Stub} (enters : stub ≠ .viosFclose) :
    stub.code = stub.prologue.map .instr ++ .int80 :: stub.epilogue := by
  cases stub with
  | viosFclose => exact absurd rfl enters
  | _ => rfl

theorem runCode_instrs (handler : Handler σ) (rsp0 : Qword) (instrs : List Instr)
    (code : List UserInstr) (m : Machine) (s : σ) :
    runCode handler rsp0 (instrs.map .instr ++ code) m s =
      runCode handler rsp0 code (exec instrs m) s := by
  induction instrs generalizing m with
  | nil => rfl
  | cons instr instrs ih => exact ih (instr.exec m)

/-- What the pushes leave: the arguments on the stack, the first one on top. -/
structure PushedArguments (registers : List Reg) (m m' : Machine) : Prop where
  stack : m'.reg .rsp = m.reg .rsp - BitVec.ofNat 64 (8 * registers.length)
  item : ∀ i, ∀ below : i < registers.length, m'.stack i = m.reg registers[i]
  kept : ∀ r, r ≠ .rsp → m'.reg r = m.reg r

theorem exec_pushes {registers : List Reg} (general : .rsp ∉ registers)
    (few : registers.length < 2 ^ 60) (m : Machine) :
    PushedArguments registers m (exec (pushes registers) m) := by
  induction registers with
  | nil => exact ⟨by simp [pushes, exec], fun i below => absurd below (Nat.not_lt_zero i),
      fun _ _ => rfl⟩
  | cons r registers ih =>
    simp only [List.mem_cons, not_or] at general
    rw [List.length_cons] at few
    have pushed := ih general.2 (by omega)
    have last : exec (pushes (r :: registers)) m =
        (exec (pushes registers) m).push ((exec (pushes registers) m).reg r) := by
      simp [pushes, exec, Instr.exec, Machine.read]
    rw [last]
    constructor
    case stack =>
      simp only [Machine.push, Function.update_self, pushed.stack, List.length_cons]
      bv_omega
    case item =>
      intro i below
      cases i with
      | zero => rw [stack_push_zero, pushed.kept r (Ne.symm general.1)]; rfl
      | succ i =>
        rw [List.length_cons] at below
        rw [stack_push_succ _ _ _ (by omega), pushed.item i (by omega)]
        rfl
    case kept =>
      intro r' other
      rw [reg_push _ _ other, pushed.kept r' other]

/-- The program when it executes `int 0x80`. -/
structure Prepared (stub : Stub) (m m' : Machine) : Prop where
  number : m'.reg .rax = BitVec.ofNat 64 stub.number
  stack : m'.reg .rsp = m.reg .rsp - BitVec.ofNat 64 (8 * stub.arity)
  item : ∀ i < stub.arity, m'.stack i = argument m i
  kept : ∀ r, r ∉ [Reg.rax, .rsp] → m'.reg r = m.reg r

theorem registers_spec (stub : Stub) :
    stub.registers.length = stub.arity ∧ .rsp ∉ stub.registers ∧ .rax ∉ stub.registers := by
  cases stub <;> decide

theorem argument_register (stub : Stub) (m : Machine) {i : Nat} (below : i < stub.registers.length) :
    m.reg stub.registers[i] = argument m i := by
  have four : i < 4 := by
    rw [Stub.registers, List.length_take] at below
    exact Nat.lt_of_lt_of_le below (Nat.min_le_right _ _)
  simp only [Stub.registers, List.getElem_take]
  match i, four with
  | 0, _ | 1, _ | 2, _ | 3, _ => rfl

/-- The number goes into `rax` before or behind the pushes, which do not use it. -/
theorem prologue_prepares (stub : Stub) (m : Machine) : Prepared stub m (exec stub.prologue m) := by
  obtain ⟨count, noRsp, noRax⟩ := registers_spec stub
  have few : stub.registers.length < 2 ^ 60 := by
    rw [count]
    cases stub <;> decide
  have shape : stub.prologue =
        .mov (.reg .rax) (.imm (BitVec.ofNat 64 stub.number)) :: pushes stub.registers ∨
      stub.prologue =
        pushes stub.registers ++ [.mov (.reg .rax) (.imm (BitVec.ofNat 64 stub.number))] := by
    cases stub with
    | viosPrint => exact .inr rfl
    | _ => exact .inl rfl
  cases shape with
  | inl first =>
    set numbered := m.setReg .rax (BitVec.ofNat 64 stub.number) with numberedDef
    have same : ∀ r, r ≠ .rax → numbered.reg r = m.reg r := fun r other =>
      Function.update_of_ne other _ _
    have pushed := exec_pushes noRsp few numbered
    have code : exec stub.prologue m = exec (pushes stub.registers) numbered := by
      rw [first]
      rfl
    rw [code]
    constructor
    case number => rw [pushed.kept .rax (by decide), numberedDef, reg_setReg, Function.update_self]
    case stack => rw [pushed.stack, count, same .rsp (by decide)]
    case item =>
      intro i below
      rw [← count] at below
      rw [pushed.item i below, ← argument_register stub m below]
      apply same
      intro isRax
      exact noRax (isRax ▸ List.getElem_mem below)
    case kept =>
      intro r other
      simp only [List.mem_cons, List.not_mem_nil, or_false, not_or] at other
      rw [pushed.kept r other.2, same r other.1]
  | inr last =>
    have pushed := exec_pushes noRsp few m
    have code : exec stub.prologue m =
        (exec (pushes stub.registers) m).setReg .rax (BitVec.ofNat 64 stub.number) := by
      rw [last]
      simp [exec, Instr.exec, Machine.write, Machine.read]
    rw [code]
    constructor
    case number => rw [reg_setReg, Function.update_self]
    case stack => rw [reg_setReg, Function.update_of_ne (by decide), pushed.stack, count]
    case item =>
      intro i below
      rw [← count] at below
      rw [stack_setReg _ _ _ (by decide), pushed.item i below, argument_register stub m below]
    case kept =>
      intro r other
      simp only [List.mem_cons, List.not_mem_nil, or_false, not_or] at other
      rw [reg_setReg, Function.update_of_ne other.1, pushed.kept r other.2]

/-! ## Inside the kernel -/

/-- The address is in the frame that the interrupt and `pushad_macro` push below `rsp0`. -/
def InFrame (rsp0 address : Qword) : Prop :=
  ∃ j, 1 ≤ j ∧ j ≤ 13 ∧ address = rsp0 - BitVec.ofNat 64 (8 * j)

/-- `n` quadwords have been pushed below `rsp0`, and the address has kept its contents. -/
structure PushedBelow (rsp0 address : Qword) (n : Nat) (m m' : Machine) : Prop where
  rsp : m'.reg .rsp = rsp0 - BitVec.ofNat 64 (8 * n)
  mem : m'.mem address = m.mem address

theorem PushedBelow.push {rsp0 address : Qword} {n : Nat} {m m' : Machine}
    (pushed : PushedBelow rsp0 address n m m') (few : n < 13) (apart : ¬ InFrame rsp0 address)
    (value : Qword) : PushedBelow rsp0 address (n + 1) m (m'.push value) := by
  have next : m'.reg .rsp - 8 = rsp0 - BitVec.ofNat 64 (8 * (n + 1)) := by
    rw [pushed.rsp]
    bv_omega
  constructor
  case rsp => simp only [Machine.push, Function.update_self, next]
  case mem =>
    rw [mem_push_of_ne, pushed.mem]
    rw [next]
    intro same
    exact apart ⟨n + 1, by omega, by omega, same⟩

/-- The registers of `isr80h_wrapper` when it calls the handler. -/
theorem exec_isr80hEntry (m : Machine) :
    exec isr80hEntry m = ((exec pushadMacro m).setReg .rsi ((exec pushadMacro m).reg .rsp)).setReg
      .rdi ((exec pushadMacro m).reg .rax) := by
  simp [exec, isr80hEntry, Instr.exec, Machine.write, Machine.read, Machine.setReg]

theorem isr80hEntry_rdi (m : Machine) (rsp0 : Qword) :
    (exec isr80hEntry (m.interrupt rsp0)).reg .rdi = m.reg .rax := by
  rw [exec_isr80hEntry, reg_setReg, Function.update_self, pushad_reg _ (by decide),
    interrupt_reg _ _ (by decide)]

/-- The wrapper writes nothing but the frame. -/
theorem isr80hEntry_mem {m : Machine} {rsp0 address : Qword} (apart : ¬ InFrame rsp0 address) :
    (exec isr80hEntry (m.interrupt rsp0)).mem address = m.mem address := by
  have start : PushedBelow rsp0 address 0 m (m.setReg .rsp rsp0) := ⟨by simp, rfl⟩
  have interrupted : PushedBelow rsp0 address 5 m (m.interrupt rsp0) :=
    ((((start.push (by decide) apart _).push (by decide) apart _).push (by decide) apart _).push
      (by decide) apart _).push (by decide) apart _
  have stored : PushedBelow rsp0 address 5 m
      { m.interrupt rsp0 with tempRspStorage := (m.interrupt rsp0).reg .rsp } :=
    ⟨interrupted.rsp, interrupted.mem⟩
  have saved : PushedBelow rsp0 address 13 m (exec pushadMacro (m.interrupt rsp0)) := by
    rw [exec_pushad]
    exact (((((((stored.push (by decide) apart _).push (by decide) apart _).push (by decide) apart
      _).push (by decide) apart _).push (by decide) apart _).push (by decide) apart _).push
      (by decide) apart _).push (by decide) apart _
  rw [exec_isr80hEntry, mem_setReg, mem_setReg]
  exact saved.mem

section Kernel

variable {kernel : Kernel σ} {commands : Isr80hCommands σ} {handler : Handler σ}

/-- The handler calls the command on the arguments that the stub has pushed. -/
theorem handler_command (registered : isr80hRegisterCommands kernel = some commands) {stub : Stub}
    {m prepared : Machine} (ready : Prepared stub m prepared) {rsp0 : Qword}
    (apart : ∀ i < stub.arity, ¬ InFrame rsp0 (prepared.reg .rsp + BitVec.ofNat 64 (8 * i)))
    (s : σ) :
    let called := exec isr80hEntry (prepared.interrupt rsp0)
    isr80hHandler commands ((called.reg .rdi).setWidth 32) called.frame called.mem s =
      stub.command kernel (argument m) s := by
  intro called
  have entered := isr80hEntry_entered prepared rsp0
  have rsp : (taskSaveState called.frame).rsp = prepared.reg .rsp := by
    rw [Machine.frame, entered.argument, entered.frame]
    rfl
  have number : ((called.reg .rdi).setWidth 32).toInt = stub.number := by
    rw [isr80hEntry_rdi, ready.number]
    cases stub <;> rfl
  have table : commands = fun id => (systemCommands kernel)[id]? :=
    Option.some.inj (registered.symm.trans (isr80hRegisterCommands_eq kernel))
  rw [isr80hHandler, number, table, handleCommand_stub]
  apply command_congr
  intro i below
  rw [taskGetStackItem, rsp, isr80hEntry_mem (apart i below)]
  exact ready.item i below

/-- The program behind `int 0x80`: its registers, with the answer in `rax`. -/
structure Answered (m : Machine) (value : Qword) (m' : Machine) : Prop where
  result : m'.reg .rax = value
  kept : ∀ r, r ∉ Reg.rax :: scratch → m'.reg r = m.reg r

/-- `int 0x80` calls the handler and comes back with its answer, if there is one. -/
theorem int80_answered (compiled : Compiled commands handler) (rsp0 : Qword) (m : Machine) (s : σ) :
    let called := exec isr80hEntry (m.interrupt rsp0)
    let answer := isr80hHandler commands ((called.reg .rdi).setWidth 32) called.frame called.mem s
    let after := UserInstr.int80.exec handler rsp0 m s
    after.2 = answer.2 ∧
      match answer.1 with
      | none => after.1 = none
      | some value => ∃ m', after.1 = some m' ∧ Answered m value m' := by
  intro called answer after
  have value : (handler called s).1.map (·.reg .rax) = answer.1 := compiled.answer called s
  have state : (handler called s).2 = answer.2 := compiled.state called s
  simp only [after, UserInstr.exec]
  cases returns : (handler called s).1 with
  | none =>
    have left : handler called s = (none, answer.2) := Prod.ext returns state
    rw [returns, Option.map_none] at value
    rw [left, ← value]
    exact ⟨rfl, rfl⟩
  | some returned =>
    have left : handler called s = (some returned, answer.2) := Prod.ext returns state
    rw [returns, Option.map_some] at value
    rw [left, ← value]
    refine ⟨rfl, _, rfl, ?_⟩
    have entered := isr80hEntry_entered m rsp0
    have saved := compiled.calleeSaved called s returned returns
    have rsp : returned.reg .rsp = called.reg .rsp := saved .rsp (by decide)
    have frame : frameAt returned.mem (returned.reg .rsp) =
        userFrame m.toCpu (returned.reg .rsp + 64) := by
      rw [rsp, compiled.frame called s returned returns, entered.frame]
    have resumed := isr80hExit_resumes frame
    constructor
    case result =>
      simp only [resumed, Cpu.setReg, Function.update_self]
    case kept =>
      intro r other
      simp only [List.mem_cons, not_or] at other
      simp only [resumed, Cpu.setReg, Function.update_of_ne other.1, Cpu.mix]
      split
      · rename_i member
        have callee : ∀ r ∈ unsaved, r ∉ scratch → r ∈ [Reg.rbx, .rsp, .rbp, .r12, .r13, .r14, .r15] :=
          by decide
        rw [saved r (callee r member other.2), entered.kept r member]
      · rfl

/-- `ret`, with the stack as the call found it. -/
theorem ret_returns (handler : Handler σ) (rsp0 : Qword) {m m' : Machine} {value : Qword}
    (result : m'.reg .rax = value) (stack : m'.reg .rsp = m.reg .rsp)
    (kept : ∀ r, r ∉ [Reg.rax, .rsp] ++ scratch → m'.reg r = m.reg r) (s : σ) :
    ∃ last, runCode handler rsp0 [.ret] m' s = (some last, s) ∧ Returned m value last := by
  refine ⟨_, rfl, ?_⟩
  constructor
  case result =>
    rw [← result]
    exact reg_drop m' (by decide : Reg.rax ≠ .rsp)
  case stack => simp only [Machine.drop, reg_setReg, Function.update_self, stack]
  case address => simp only [Machine.stack, Machine.drop, mem_setReg, stack]; simp
  case kept =>
    intro r other
    have general : r ≠ .rsp := by
      intro isRsp
      exact other (by simp [isRsp])
    rw [← kept r other]
    exact reg_drop m' general

/-- The stub takes its arguments from the stack and returns. -/
theorem epilogue_returns (handler : Handler σ) (stub : Stub) (rsp0 : Qword) {m m' : Machine}
    {value : Qword}
    (result : m'.reg .rax = value)
    (stack : m'.reg .rsp = m.reg .rsp - BitVec.ofNat 64 (8 * stub.arity))
    (kept : ∀ r, r ∉ [Reg.rax, .rsp] ++ scratch → m'.reg r = m.reg r) (s : σ) :
    ∃ last, runCode handler rsp0 stub.epilogue m' s = (some last, s) ∧ Returned m value last := by
  rw [Stub.epilogue]
  split
  · rename_i noArguments
    apply ret_returns handler rsp0 result _ kept
    rw [stack, noArguments]
    simp
  · set raised := m'.setReg .rsp (m'.reg .rsp + BitVec.ofNat 64 (8 * stub.arity)) with raisedDef
    have others : ∀ r, r ≠ .rsp → raised.reg r = m'.reg r := fun r other =>
      Function.update_of_ne other _ _
    have rsp : raised.reg .rsp = m.reg .rsp := by
      rw [raisedDef, reg_setReg, Function.update_self, stack]
      bv_omega
    apply ret_returns handler rsp0 ((others .rax (by decide)).trans result) rsp
    intro r other
    have general : r ≠ .rsp := by
      intro isRsp
      exact other (by simp [isRsp])
    rw [← kept r other, others r general]

/-! ## The calls -/

/-- A stub that enters the kernel is a call of its command on the C arguments: the kernel is in the
state the command leaves, and the caller goes on with the command's answer, if there is one.  The
kernel's stack must not be where the arguments are. -/
theorem runStub_calls (registered : isr80hRegisterCommands kernel = some commands)
    (compiled : Compiled commands handler) {stub : Stub} (enters : stub ≠ .viosFclose)
    {rsp0 : Qword} {m : Machine}
    (apart : ∀ i < stub.arity, ¬ InFrame rsp0 (m.reg .rsp - BitVec.ofNat 64 (8 * (i + 1))))
    (s : σ) :
    let answer := stub.command kernel (argument m) s
    let after := runStub handler rsp0 stub m s
    after.2 = answer.2 ∧
      match answer.1 with
      | none => after.1 = none
      | some value => ∃ m', after.1 = some m' ∧ Returned m value m' := by
  intro answer after
  set prepared := exec stub.prologue m with preparedDef
  have ready : Prepared stub m prepared := prologue_prepares stub m
  have apartPrepared : ∀ i < stub.arity,
      ¬ InFrame rsp0 (prepared.reg .rsp + BitVec.ofNat 64 (8 * i)) := by
    intro i below
    have slot : prepared.reg .rsp + BitVec.ofNat 64 (8 * i) =
        m.reg .rsp - BitVec.ofNat 64 (8 * (stub.arity - 1 - i + 1)) := by
      have few : stub.arity ≤ 4 := by cases stub <;> decide
      rw [ready.stack]
      bv_omega
    rw [slot]
    exact apart (stub.arity - 1 - i) (by omega)
  have calls := handler_command registered ready apartPrepared s
  obtain ⟨state, answered⟩ := int80_answered compiled rsp0 prepared s
  simp only [calls] at state answered
  have code : after =
      match UserInstr.int80.exec handler rsp0 prepared s with
      | (none, s) => (none, s)
      | (some m, s) => runCode handler rsp0 stub.epilogue m s := by
    rw [preparedDef]
    simp only [after, runStub, code_eq enters, runCode_instrs, runCode]
  rw [code]
  cases result : answer.1 with
  | none =>
    rw [result] at answered
    have left : UserInstr.int80.exec handler rsp0 prepared s = (none, answer.2) :=
      Prod.ext answered state
    rw [left]
    exact ⟨rfl, rfl⟩
  | some value =>
    rw [result] at answered
    obtain ⟨behind, returned, spec⟩ := answered
    have left : UserInstr.int80.exec handler rsp0 prepared s = (some behind, answer.2) :=
      Prod.ext returned state
    have stack : behind.reg .rsp = m.reg .rsp - BitVec.ofNat 64 (8 * stub.arity) := by
      rw [spec.kept .rsp (by decide), ready.stack]
    have kept : ∀ r, r ∉ [Reg.rax, .rsp] ++ scratch → behind.reg r = m.reg r := by
      intro r other
      simp only [List.mem_append, not_or] at other
      have notRax : r ≠ .rax := by
        intro isRax
        exact other.1 (by simp [isRax])
      rw [spec.kept r (by simp [notRax, other.2]), ready.kept r other.1]
    obtain ⟨last, ran, final⟩ := epilogue_returns handler stub rsp0 spec.result stack kept
      answer.2
    rw [left]
    simp only [ran]
    exact ⟨trivial, last, rfl, final⟩

/-- `vios_fclose` leaves the kernel alone: the caller finds the number of the command in `rax`. -/
theorem runStub_fclose (handler : Handler σ) (rsp0 : Qword) (m : Machine) (s : σ) :
    ∃ m', runStub handler rsp0 .viosFclose m s = (some m', s) ∧ Returned m 11 m' := by
  have ready : Prepared .viosFclose m (exec (Stub.prologue .viosFclose) m) := prologue_prepares _ m
  apply epilogue_returns handler .viosFclose rsp0 ready.number ready.stack
  intro r other
  simp only [List.mem_append, not_or] at other
  exact ready.kept r other.1

end Kernel

/-- A handler that only computes its answer. -/
def answering (commands : Isr80hCommands σ) : Handler σ := fun m s =>
  let answer := isr80hHandler commands ((m.reg .rdi).setWidth 32) m.frame m.mem s
  (answer.1.map (m.setReg .rax), answer.2)

theorem answering_compiled (commands : Isr80hCommands σ) : Compiled commands (answering commands) where
  calleeSaved := by
    intro m s m' returns r member
    obtain ⟨value, -, rfl⟩ := Option.map_eq_some_iff.mp returns
    apply Function.update_of_ne
    revert r
    decide
  frame := by
    intro m s m' returns
    obtain ⟨value, -, rfl⟩ := Option.map_eq_some_iff.mp returns
    rfl
  answer := by
    intro m s
    have result : (fun m' : Machine => m'.reg .rax) ∘ m.setReg .rax = id :=
      funext fun value => by simp
    simp only [answering, Option.map_map, result, Option.map_id, id]
  state := fun _ _ => rfl

/-- A kernel that hands out memory from an address on, and does nothing else. -/
def memoryKernel : Kernel Qword where
  taskVirtualAddressToPhysical address _ := address
  stringAt _ _ := []
  serve
    | .copyStringFromTask _ _ => fun s => ((0, []), s)
    | .print _ | .terminalWritechar _ _ | .processFree _ | .taskSwitch _ | .processGetArguments _
    | .processTerminate | .taskNext => fun s => ((), s)
    | .keyboardPop => fun s => (0, s)
    | .processMalloc size => fun s => (s, s + size)
    | .processRealloc _ newSize => fun s => (s, s + newSize)
    | .processLoadSwitch _ => fun s => ((0, 0), s)
    | .processInjectArguments _ _ | .processFopen _ _ | .processFclose _ | .processFread _ _ _ _
    | .processFseek _ _ _ | .processFstat _ _ | .processFwrite _ _ _ _ => fun s => (0, s)

/-- A program that asks for 64 bytes in place of those at 4096. -/
def reallocCaller : Machine :=
  ((idleKernel.setReg .rsp 0x3FF000).setReg .rdi 4096).setReg .rsi 64

end ViOS.SystemCalls
