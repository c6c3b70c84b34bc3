import ViOS.Lib.Run
import Mathlib.Algebra.Group.Nat.Defs
import Mathlib.Logic.Function.Basic
import Mathlib.Tactic.Basic

/-! # The registers of an interrupted task

An interrupt or a system call finds a user task at any instruction.  `idt.asm` pushes
registers behind what the processor pushed, and the C code sees the result as a
`struct interrupt_frame`; `task_save_state` copies the frame into the task's
`struct registers`.  The task goes on either by the pops of the same wrapper, or much
later by `task_return`, which reads `struct registers` at fixed offsets.

The instructions are data with a small interpreter, so that the macros and routines
are written down as in the source.  Stack accesses are aligned quadwords.

* `Instr`, `exec` — the instructions the wrappers are made of.
* `pushadMacro`, `interruptEntry`, `interruptExit`, `isr80hEntry`, `isr80hExit`,
  `taskReturn` — the code.
* `InterruptFrame`, `Registers`, `taskSaveState` — the two structures in between.
* `resumes_iff_keepsUnsaved` — in every run, a task gets all its registers back
  exactly when the code in between left alone those that nothing saves.
-/

namespace ViOS.ContextSwitch

open ViOS.Lib

/-! ## The processor -/

abbrev Qword := BitVec 64

/-- The general-purpose registers. -/
inductive Reg where
  | rax | rcx | rdx | rbx | rsp | rbp | rsi | rdi
  | r8 | r9 | r10 | r11 | r12 | r13 | r14 | r15
  deriving DecidableEq, Repr

/-- The registers of a program. -/
structure Cpu where
  reg : Reg → Qword
  rip : Qword
  rflags : Qword
  cs : BitVec 16
  ss : BitVec 16

/-- `struct interrupt_frame`. -/
structure InterruptFrame where
  rdi : Qword
  rsi : Qword
  rbp : Qword
  reserved : Qword
  rbx : Qword
  rdx : Qword
  rcx : Qword
  rax : Qword
  ip : Qword
  cs : Qword
  flags : Qword
  rsp : Qword
  ss : Qword
  deriving DecidableEq, Repr

/-- `struct registers`. -/
structure Registers where
  rdi : Qword
  rsi : Qword
  rbp : Qword
  rbx : Qword
  rdx : Qword
  rcx : Qword
  rax : Qword
  ip : Qword
  cs : Qword
  flags : Qword
  rsp : Qword
  ss : Qword
  deriving DecidableEq, Repr

/-- The quadword at an offset of the structure. -/
def Registers.at (regs : Registers) (offset : Nat) : Qword :=
  [regs.rdi, regs.rsi, regs.rbp, regs.rbx, regs.rdx, regs.rcx, regs.rax, regs.ip, regs.cs, regs.flags,
    regs.rsp, regs.ss].getD (offset / 8) 0

/-- The processor in the kernel: its registers, the stack memory, the two variables of the wrappers
and the structure that `rdi` points to in `task_return`. -/
structure Machine extends Cpu where
  mem : Qword → Qword
  tempRspStorage : Qword
  tmpRes : Qword
  registers : Registers

/-! ## Instructions -/

/-- A place an instruction can write. -/
inductive Place where
  | reg (r : Reg)
  | tempRspStorage
  | tmpRes

/-- A value an instruction can read. -/
inductive Operand where
  | place (p : Place)
  | imm (value : Qword)
  /-- `[rdi + offset]` -/
  | rdiOffset (offset : Nat)

inductive Instr where
  | push (source : Operand)
  | pop (target : Place)
  | mov (target : Place) (source : Operand)
  | or (target : Place) (source : Operand)
  /-- A call of an assembly routine. -/
  | call (returnAddress : Qword)
  | ret

def Machine.setReg (m : Machine) (r : Reg) (value : Qword) : Machine :=
  { m with reg := Function.update m.reg r value }

def Machine.read (m : Machine) : Operand → Qword
  | .place (.reg r) => m.reg r
  | .place .tempRspStorage => m.tempRspStorage
  | .place .tmpRes => m.tmpRes
  | .imm value => value
  | .rdiOffset offset => m.registers.at offset

def Machine.write (m : Machine) (value : Qword) : Place → Machine
  | .reg r => m.setReg r value
  | .tempRspStorage => { m with tempRspStorage := value }
  | .tmpRes => { m with tmpRes := value }

/-- A push: the stack pointer goes down by eight. -/
def Machine.push (m : Machine) (value : Qword) : Machine :=
  { m with
    reg := Function.update m.reg .rsp (m.reg .rsp - 8)
    mem := Function.update m.mem (m.reg .rsp - 8) value }

/-- The stack pointer goes up by eight. -/
def Machine.drop (m : Machine) : Machine := m.setReg .rsp (m.reg .rsp + 8)

/-- The quadword `k` places above the stack pointer. -/
def Machine.stack (m : Machine) (k : Nat) : Qword := m.mem (m.reg .rsp + BitVec.ofNat 64 (8 * k))

/-- One instruction. -/
def Instr.exec (m : Machine) : Instr → Machine
  | .push source => m.push (m.read source)
  | .pop target => m.drop.write (m.stack 0) target
  | .mov target source => m.write (m.read source) target
  | .or target source => m.write (m.read (.place target) ||| m.read source) target
  | .call returnAddress => m.push returnAddress
  | .ret => m.drop

/-- A sequence of instructions. -/
def exec (code : List Instr) (m : Machine) : Machine := code.foldl Instr.exec m

/-- What the processor does when an interrupt reaches it: it switches to the stack at `rsp0` and
pushes where the program was. -/
def Machine.interrupt (m : Machine) (rsp0 : Qword) : Machine :=
  let user := m.toCpu
  let m := m.setReg .rsp rsp0
  ((((m.push (user.ss.setWidth 64)).push (user.reg .rsp)).push user.rflags).push
    (user.cs.setWidth 64)).push user.rip

/-- `iretq`. -/
def Machine.iretq (m : Machine) : Cpu where
  reg := Function.update m.reg .rsp (m.stack 3)
  rip := m.stack 0
  cs := (m.stack 1).setWidth 16
  rflags := m.stack 2
  ss := (m.stack 4).setWidth 16

/-! ## `idt.asm` and `task.asm` -/

/-- `pushad_macro`. -/
def pushadMacro : List Instr :=
  [.mov .tempRspStorage (.place (.reg .rsp)),
   .push (.place (.reg .rax)), .push (.place (.reg .rcx)), .push (.place (.reg .rdx)),
   .push (.place (.reg .rbx)), .push (.place .tempRspStorage), .push (.place (.reg .rbp)),
   .push (.place (.reg .rsi)), .push (.place (.reg .rdi))]

/-- `popad_macro`. -/
def popadMacro : List Instr :=
  [.pop (.reg .rdi), .pop (.reg .rsi), .pop (.reg .rbp), .pop .tempRspStorage, .pop (.reg .rbx),
   .pop (.reg .rdx), .pop (.reg .rcx), .pop (.reg .rax),
   .mov (.reg .rsp) (.place .tempRspStorage)]

/-- `int%1` up to the call of `interrupt_handler`. -/
def interruptEntry (interrupt : Qword) : List Instr :=
  pushadMacro ++ [.mov (.reg .rdi) (.imm interrupt), .mov (.reg .rsi) (.place (.reg .rsp))]

/-- `int%1` after the call, up to `iretq`. -/
def interruptExit : List Instr := popadMacro

/-- `isr80h_wrapper` up to the call of `isr80h_handler`. -/
def isr80hEntry : List Instr :=
  pushadMacro ++
    [.mov (.reg .rsi) (.place (.reg .rsp)), .mov (.reg .rdi) (.place (.reg .rax))]

/-- `isr80h_wrapper` after the call, up to `iretq`. -/
def isr80hExit : List Instr :=
  [.mov .tmpRes (.place (.reg .rax))] ++ popadMacro ++ [.mov (.reg .rax) (.place .tmpRes)]

/-- `restore_general_purpose_registers`. -/
def restoreGeneralPurposeRegisters : List Instr :=
  [.mov (.reg .rsi) (.rdiOffset 8), .mov (.reg .rbp) (.rdiOffset 16), .mov (.reg .rbx) (.rdiOffset 24),
   .mov (.reg .rdx) (.rdiOffset 32), .mov (.reg .rcx) (.rdiOffset 40), .mov (.reg .rax) (.rdiOffset 48),
   .mov (.reg .rdi) (.rdiOffset 0), .ret]

/-- `task_return` up to `iretq`. -/
def taskReturn (returnAddress : Qword) : List Instr :=
  [.push (.rdiOffset 88), .push (.rdiOffset 80), .mov (.reg .rax) (.rdiOffset 72),
   .or (.reg .rax) (.imm 0x200), .push (.place (.reg .rax)), .push (.rdiOffset 64),
   .push (.rdiOffset 56), .call returnAddress] ++ restoreGeneralPurposeRegisters

/-! ## `task.c` -/

/-- The frame at an address, `struct interrupt_frame` being packed. -/
def frameAt (mem : Qword → Qword) (address : Qword) : InterruptFrame :=
  let field (k : Nat) := mem (address + BitVec.ofNat 64 (8 * k))
  { rdi := field 0, rsi := field 1, rbp := field 2, reserved := field 3, rbx := field 4,
    rdx := field 5, rcx := field 6, rax := field 7, ip := field 8, cs := field 9, flags := field 10,
    rsp := field 11, ss := field 12 }

/-- The frame that the second argument of the handlers points to. -/
def Machine.frame (m : Machine) : InterruptFrame := frameAt m.mem (m.reg .rsi)

/-- `task_save_state`. -/
def taskSaveState (frame : InterruptFrame) : Registers :=
  { ip := frame.ip, cs := frame.cs, flags := frame.flags, rsp := frame.rsp, ss := frame.ss,
    rax := frame.rax, rbp := frame.rbp, rbx := frame.rbx, rcx := frame.rcx, rdi := frame.rdi,
    rdx := frame.rdx, rsi := frame.rsi }

/-! ## The stack -/

theorem mem_push_of_ne {m : Machine} {value : Qword} {address : Qword}
    (other : address ≠ m.reg .rsp - 8) : (m.push value).mem address = m.mem address :=
  Function.update_of_ne other _ _

@[simp] theorem stack_push_zero (m : Machine) (value : Qword) : (m.push value).stack 0 = value := by
  simp [Machine.stack, Machine.push]

theorem stack_push_succ (m : Machine) (value : Qword) (k : Nat) (small : k < 2 ^ 60) :
    (m.push value).stack (k + 1) = m.stack k := by
  have address : (m.push value).reg .rsp + BitVec.ofNat 64 (8 * (k + 1)) =
      m.reg .rsp + BitVec.ofNat 64 (8 * k) := by
    simp only [Machine.push, Function.update_self]
    bv_omega
  have other : m.reg .rsp + BitVec.ofNat 64 (8 * k) ≠ m.reg .rsp - 8 := by bv_omega
  rw [Machine.stack, address, mem_push_of_ne other, Machine.stack]

theorem stack_drop (m : Machine) (k : Nat) : m.drop.stack k = m.stack (k + 1) := by
  have address : m.drop.reg .rsp + BitVec.ofNat 64 (8 * k) =
      m.reg .rsp + BitVec.ofNat 64 (8 * (k + 1)) := by
    simp only [Machine.drop, Machine.setReg, Function.update_self]
    bv_omega
  rw [Machine.stack, address]
  rfl

@[simp] theorem reg_setReg (m : Machine) (r : Reg) (value : Qword) :
    (m.setReg r value).reg = Function.update m.reg r value := rfl

@[simp] theorem mem_setReg (m : Machine) (r : Reg) (value : Qword) :
    (m.setReg r value).mem = m.mem := rfl

theorem stack_setReg (m : Machine) {r : Reg} (value : Qword) (k : Nat) (other : r ≠ .rsp) :
    (m.setReg r value).stack k = m.stack k := by
  rw [Machine.stack, reg_setReg, Function.update_of_ne (Ne.symm other)]
  rfl

/-! ## Saving -/

/-- The frame of an interrupted program; `reserved` is the kernel's stack pointer behind it. -/
def userFrame (user : Cpu) (kernelRsp : Qword) : InterruptFrame where
  rdi := user.reg .rdi
  rsi := user.reg .rsi
  rbp := user.reg .rbp
  reserved := kernelRsp
  rbx := user.reg .rbx
  rdx := user.reg .rdx
  rcx := user.reg .rcx
  rax := user.reg .rax
  ip := user.rip
  cs := user.cs.setWidth 64
  flags := user.rflags
  rsp := user.reg .rsp
  ss := user.ss.setWidth 64

/-- The registers that no wrapper pushes. -/
def unsaved : List Reg := [.r8, .r9, .r10, .r11, .r12, .r13, .r14, .r15]

/-- What a handler finds when it is called: the frame on top of the stack, and `frame` pointing
to it. -/
structure Entered (user : Cpu) (m : Machine) : Prop where
  frame : frameAt m.mem (m.reg .rsp) = userFrame user (m.reg .rsp + 64)
  argument : m.reg .rsi = m.reg .rsp
  kept : ∀ r ∈ unsaved, m.reg r = user.reg r

theorem interrupt_stack (m : Machine) (rsp0 : Qword) :
    (m.interrupt rsp0).stack 0 = m.rip ∧ (m.interrupt rsp0).stack 1 = m.cs.setWidth 64 ∧
      (m.interrupt rsp0).stack 2 = m.rflags ∧ (m.interrupt rsp0).stack 3 = m.reg .rsp ∧
      (m.interrupt rsp0).stack 4 = m.ss.setWidth 64 := by
  simp (disch := decide) only [Machine.interrupt, stack_push_zero, stack_push_succ, and_self]

theorem interrupt_reg (m : Machine) (rsp0 : Qword) {r : Reg} (other : r ≠ .rsp) :
    (m.interrupt rsp0).reg r = m.reg r := by
  simp [Machine.interrupt, Machine.push, Machine.setReg, Function.update_of_ne other]

theorem exec_pushad (m : Machine) :
    exec pushadMacro m =
      (((((((({ m with tempRspStorage := m.reg .rsp } : Machine).push (m.reg .rax)).push
        (m.reg .rcx)).push (m.reg .rdx)).push (m.reg .rbx)).push (m.reg .rsp)).push
        (m.reg .rbp)).push (m.reg .rsi)).push (m.reg .rdi) := rfl

theorem pushad_stack (m : Machine) :
    let m' := exec pushadMacro m
    m'.stack 0 = m.reg .rdi ∧ m'.stack 1 = m.reg .rsi ∧ m'.stack 2 = m.reg .rbp ∧
      m'.stack 3 = m.reg .rsp ∧ m'.stack 4 = m.reg .rbx ∧ m'.stack 5 = m.reg .rdx ∧
      m'.stack 6 = m.reg .rcx ∧ m'.stack 7 = m.reg .rax := by
  simp (disch := decide) only [exec_pushad, stack_push_zero, stack_push_succ, and_self]

theorem pushad_stack_below (m : Machine) {k : Nat} (small : k < 5) :
    (exec pushadMacro m).stack (k + 8) = m.stack k := by
  have bound : ∀ j, j < 8 → k + j < 2 ^ 60 := fun j _ => by omega
  rw [exec_pushad, stack_push_succ _ _ (k + 7) (bound 7 (by decide)),
    stack_push_succ _ _ (k + 6) (bound 6 (by decide)), stack_push_succ _ _ (k + 5) (bound 5 (by decide)),
    stack_push_succ _ _ (k + 4) (bound 4 (by decide)), stack_push_succ _ _ (k + 3) (bound 3 (by decide)),
    stack_push_succ _ _ (k + 2) (bound 2 (by decide)), stack_push_succ _ _ (k + 1) (bound 1 (by decide)),
    stack_push_succ _ _ k (bound 0 (by decide))]
  rfl

theorem pushad_reg (m : Machine) {r : Reg} (other : r ≠ .rsp) :
    (exec pushadMacro m).reg r = m.reg r := by
  simp only [exec_pushad, Machine.push, Function.update_of_ne other]

theorem pushad_rsp (m : Machine) : (exec pushadMacro m).reg .rsp + 64 = m.reg .rsp := by
  simp only [exec_pushad, Machine.push, Function.update_self]
  bv_omega

/-- The pushes put the whole frame on the stack. -/
theorem pushad_frame (m : Machine) (rsp0 : Qword) :
    let m' := exec pushadMacro (m.interrupt rsp0)
    frameAt m'.mem (m'.reg .rsp) = userFrame m.toCpu (m'.reg .rsp + 64) := by
  intro m'
  obtain ⟨rip, cs, rflags, rsp, ss⟩ := interrupt_stack m rsp0
  obtain ⟨rdi, rsi, rbp, reserved, rbx, rdx, rcx, rax⟩ := pushad_stack (m.interrupt rsp0)
  have below : ∀ k < 5, m'.stack (k + 8) = (m.interrupt rsp0).stack k :=
    fun k small => pushad_stack_below _ small
  rw [userFrame, pushad_rsp]
  simp only [frameAt, InterruptFrame.mk.injEq]
  refine ⟨rdi.trans ?_, rsi.trans ?_, rbp.trans ?_, reserved, rbx.trans ?_, rdx.trans ?_,
    rcx.trans ?_, rax.trans ?_, (below 0 (by decide)).trans rip, (below 1 (by decide)).trans cs,
    (below 2 (by decide)).trans rflags, (below 3 (by decide)).trans rsp,
    (below 4 (by decide)).trans ss⟩ <;> exact interrupt_reg m rsp0 (by decide)

/-- The wrappers may still change the registers they have pushed. -/
theorem entered_of_pushad (m : Machine) (rsp0 rdi : Qword) :
    let pushed := exec pushadMacro (m.interrupt rsp0)
    Entered m.toCpu ((pushed.setReg .rdi rdi).setReg .rsi (pushed.reg .rsp)) := by
  intro pushed
  set called := (pushed.setReg .rdi rdi).setReg .rsi (pushed.reg .rsp) with calledDef
  have rsp : called.reg .rsp = pushed.reg .rsp := by simp [calledDef, Machine.setReg]
  constructor
  case frame =>
    rw [rsp]
    exact pushad_frame m rsp0
  case argument =>
    rw [rsp]
    simp [calledDef, Machine.setReg]
  case kept =>
    intro r member
    have saved : r ≠ .rsi ∧ r ≠ .rdi ∧ r ≠ .rsp := by
      revert r
      decide
    rw [calledDef, reg_setReg, reg_setReg, Function.update_of_ne saved.1,
      Function.update_of_ne saved.2.1, pushad_reg _ saved.2.2, interrupt_reg m rsp0 saved.2.2]

theorem interruptEntry_entered (m : Machine) (rsp0 interrupt : Qword) :
    Entered m.toCpu (exec (interruptEntry interrupt) (m.interrupt rsp0)) := by
  have code : exec (interruptEntry interrupt) (m.interrupt rsp0) =
      ((exec pushadMacro (m.interrupt rsp0)).setReg .rdi interrupt).setReg .rsi
        ((exec pushadMacro (m.interrupt rsp0)).reg .rsp) := by
    simp [exec, interruptEntry, Instr.exec, Machine.write, Machine.read, Machine.setReg]
  rw [code]
  exact entered_of_pushad m rsp0 interrupt

theorem isr80hEntry_entered (m : Machine) (rsp0 : Qword) :
    Entered m.toCpu (exec isr80hEntry (m.interrupt rsp0)) := by
  have code : exec isr80hEntry (m.interrupt rsp0) =
      ((exec pushadMacro (m.interrupt rsp0)).setReg .rdi
        ((exec pushadMacro (m.interrupt rsp0)).reg .rax)).setReg .rsi
        ((exec pushadMacro (m.interrupt rsp0)).reg .rsp) := by
    simp [exec, isr80hEntry, Instr.exec, Machine.write, Machine.read, Machine.setReg]
    exact Function.update_comm (by decide) _ _ _
  rw [code]
  exact entered_of_pushad m rsp0 _

/-! ## Restoring -/

section Write

variable (m : Machine) (value : Qword)

@[simp] theorem stack_write_reg {r : Reg} (k : Nat) (other : r ≠ .rsp) :
    (m.write value (.reg r)).stack k = m.stack k := stack_setReg m value k other

@[simp] theorem stack_write_temp (k : Nat) : (m.write value .tempRspStorage).stack k = m.stack k := rfl

@[simp] theorem reg_write_reg (r : Reg) :
    (m.write value (.reg r)).reg = Function.update m.reg r value := rfl

@[simp] theorem reg_write_temp : (m.write value .tempRspStorage).reg = m.reg := rfl

@[simp] theorem temp_write_reg (r : Reg) :
    (m.write value (.reg r)).tempRspStorage = m.tempRspStorage := rfl

@[simp] theorem temp_write_temp : (m.write value .tempRspStorage).tempRspStorage = value := rfl

@[simp] theorem temp_drop : m.drop.tempRspStorage = m.tempRspStorage := rfl

@[simp] theorem registers_write_reg (r : Reg) :
    (m.write value (.reg r)).registers = m.registers := rfl

@[simp] theorem registers_push : (m.push value).registers = m.registers := rfl

theorem reg_drop {r : Reg} (other : r ≠ .rsp) : m.drop.reg r = m.reg r :=
  Function.update_of_ne other _ _

theorem reg_push {r : Reg} (other : r ≠ .rsp) : (m.push value).reg r = m.reg r :=
  Function.update_of_ne other _ _

end Write

/-- `popad_macro` reads the pushed registers in turn; the stack pointer comes from its slot. -/
theorem exec_popad (m : Machine) :
    (exec popadMacro m).mem = m.mem ∧ (exec popadMacro m).reg = fun r =>
      match r with
      | .rdi => m.stack 0
      | .rsi => m.stack 1
      | .rbp => m.stack 2
      | .rsp => m.stack 3
      | .rbx => m.stack 4
      | .rdx => m.stack 5
      | .rcx => m.stack 6
      | .rax => m.stack 7
      | r => m.reg r := by
  refine ⟨rfl, funext fun r => ?_⟩
  cases r <;>
    simp (disch := decide) [exec, popadMacro, Instr.exec, Machine.read, stack_drop, reg_drop]

/-- The program goes on with its own registers, but for those that nothing saves. -/
def Cpu.mix (user later : Cpu) : Cpu :=
  { user with reg := fun r => if r ∈ unsaved then later.reg r else user.reg r }

def Cpu.setReg (cpu : Cpu) (r : Reg) (value : Qword) : Cpu :=
  { cpu with reg := Function.update cpu.reg r value }

/-- What the System V calling convention leaves alone, together with the frame on the stack. -/
structure SysV (call : Machine → Machine) : Prop where
  calleeSaved : ∀ m, ∀ r ∈ [Reg.rbx, .rsp, .rbp, .r12, .r13, .r14, .r15], (call m).reg r = m.reg r
  frame : ∀ m, frameAt (call m).mem (m.reg .rsp) = frameAt m.mem (m.reg .rsp)

/-- The pops of a wrapper and `iretq`, after any C code. -/
theorem popad_resumes {user : Cpu} {m : Machine}
    (frame : frameAt m.mem (m.reg .rsp) = userFrame user (m.reg .rsp + 64)) :
    (exec popadMacro m).iretq = user.mix m.toCpu := by
  obtain ⟨mem, reg⟩ := exec_popad m
  simp only [frameAt, userFrame, InterruptFrame.mk.injEq] at frame
  obtain ⟨rdi, rsi, rbp, reserved, rbx, rdx, rcx, rax, ip, cs, flags, rsp, ss⟩ := frame
  have above : ∀ k < 5, (exec popadMacro m).stack k = m.stack (k + 8) := by
    intro k small
    have slot : (exec popadMacro m).reg .rsp = m.reg .rsp + 64 := by rw [reg]; exact reserved
    rw [Machine.stack, mem, slot, Machine.stack]
    congr 1
    bv_omega
  have selector : ∀ w : BitVec 16, (w.setWidth 64).setWidth 16 = w := fun w => by simp
  simp only [Machine.iretq, Cpu.mix, Cpu.mk.injEq, above 0 (by decide), above 1 (by decide),
    above 2 (by decide), above 3 (by decide), above 4 (by decide)]
  refine ⟨funext fun r => ?_, ip, flags, ?_, ?_⟩
  · rw [reg]
    cases r with
    | rdi => exact rdi
    | rsi => exact rsi
    | rbp => exact rbp
    | rsp => exact rsp
    | rbx => exact rbx
    | rdx => exact rdx
    | rcx => exact rcx
    | rax => exact rax
    | _ => rfl
  · exact (congrArg (BitVec.setWidth 16) cs).trans (selector _)
  · exact (congrArg (BitVec.setWidth 16) ss).trans (selector _)

/-- `task_return` and `iretq`, from any state of the kernel. -/
theorem taskReturn_resumes (m : Machine) (returnAddress : Qword) :
    (exec (taskReturn returnAddress) m).iretq =
      { reg := fun r =>
          match r with
          | .rdi => m.registers.rdi
          | .rsi => m.registers.rsi
          | .rbp => m.registers.rbp
          | .rsp => m.registers.rsp
          | .rbx => m.registers.rbx
          | .rdx => m.registers.rdx
          | .rcx => m.registers.rcx
          | .rax => m.registers.rax
          | r => m.reg r
        rip := m.registers.ip
        rflags := m.registers.flags ||| 0x200
        cs := m.registers.cs.setWidth 16
        ss := m.registers.ss.setWidth 16 } := by
  set m' := exec (taskReturn returnAddress) m with finalDef
  have stack : m'.stack 0 = m.registers.ip ∧ m'.stack 1 = m.registers.cs ∧
      m'.stack 2 = m.registers.flags ||| 0x200 ∧ m'.stack 3 = m.registers.rsp ∧
      m'.stack 4 = m.registers.ss := by
    simp (disch := decide) only [finalDef, exec, taskReturn, restoreGeneralPurposeRegisters,
      List.cons_append, List.nil_append, List.foldl_cons, List.foldl_nil, Instr.exec, Machine.read,
      stack_drop, stack_push_succ, stack_push_zero, stack_write_reg, reg_write_reg, registers_push,
      registers_write_reg, Function.update_self]
    exact ⟨rfl, rfl, rfl, rfl, rfl⟩
  obtain ⟨ip, cs, flags, rsp, ss⟩ := stack
  simp only [Machine.iretq, Cpu.mk.injEq, ip, cs, flags, rsp, ss, and_true]
  refine funext fun r => ?_
  cases r <;>
    simp (disch := decide) [finalDef, exec, taskReturn, restoreGeneralPurposeRegisters, Instr.exec,
      Machine.read, reg_drop, reg_push] <;> rfl

/-! ## The tasks -/

/-- The two ways into the kernel. -/
inductive Entry where
  | interrupt (number : Qword)
  | isr80h

/-- The code before the handler is called. -/
def Entry.before : Entry → List Instr
  | .interrupt number => interruptEntry number
  | .isr80h => isr80hEntry

/-- The code after it returned. -/
def Entry.after : Entry → List Instr
  | .interrupt _ => interruptExit
  | .isr80h => isr80hExit

/-- The registers that carry a result to the program. -/
def Entry.result : Entry → List Reg
  | .interrupt _ => []
  | .isr80h => [.rax]

/-- How the kernel goes on: the handler returns, having saved the state or not, or it switches to a
task; `later` is the kernel's state when it calls `task_return`. -/
inductive Outcome where
  | returns (saves : Bool) (handler : Machine → Machine)
  | switchTo (task : Nat) (later : Machine) (returnAddress : Qword)

/-- The current task computes, or it is interrupted. -/
inductive Event where
  | run (cpu : Cpu)
  | trap (entry : Entry) (rsp0 : Qword) (kernel : Machine) (outcome : Outcome)

/-- The tasks: the registers of the current one, what `task_save_state` has saved for each, and
where each was last saved. -/
structure System where
  cpu : Cpu
  current : Nat
  saved : Nat → Registers
  left : Nat → Option Cpu

/-- The state in which the handler is called. -/
def called (cpu : Cpu) (entry : Entry) (rsp0 : Qword) (kernel : Machine) : Machine :=
  exec entry.before (({ kernel with toCpu := cpu } : Machine).interrupt rsp0)

/-- `task_current_save_state`. -/
def System.save (s : System) (frame : InterruptFrame) : System :=
  { s with
    saved := Function.update s.saved s.current (taskSaveState frame)
    left := Function.update s.left s.current (some s.cpu) }

/-- What an event leads to. -/
def System.next (s : System) : Event → System
  | .run cpu => { s with cpu }
  | .trap entry rsp0 kernel (.returns saves handler) =>
    let m := called s.cpu entry rsp0 kernel
    let s' := if saves then s.save m.frame else s
    { s' with cpu := (exec entry.after (handler m)).iretq }
  | .trap entry rsp0 kernel (.switchTo task later returnAddress) =>
    let s' := s.save (called s.cpu entry rsp0 kernel).frame
    { s' with
      cpu := (exec (taskReturn returnAddress) { later with registers := s'.saved task }).iretq
      current := task }

/-- A handler that returns is C code. -/
def Event.Legal : Event → Prop
  | .trap _ _ _ (.returns _ handler) => SysV handler
  | _ => True

/-- The step relation. -/
def taskStep (s : System) (event : Event) (t : System) : Prop := event.Legal ∧ t = s.next event

/-- The program has its registers back, but for the given ones and the interrupt flag. -/
structure Restored (except : List Reg) (user resumed : Cpu) : Prop where
  reg : ∀ r, r ∉ except → resumed.reg r = user.reg r
  rip : resumed.rip = user.rip
  rflags : resumed.rflags ||| 0x200 = user.rflags ||| 0x200
  cs : resumed.cs = user.cs
  ss : resumed.ss = user.ss

/-- The event resumes a task that was interrupted, and the task has its registers back. -/
def ResumesIntact (s : System) : Event → Prop
  | .run _ => True
  | .trap entry rsp0 kernel (.returns saves handler) =>
    Restored entry.result s.cpu (s.next (.trap entry rsp0 kernel (.returns saves handler))).cpu
  | .trap entry rsp0 kernel (.switchTo task later returnAddress) =>
    let t := s.next (.trap entry rsp0 kernel (.switchTo task later returnAddress))
    ∀ user, t.left task = some user → Restored [] user t.cpu

/-- The registers a C function may change and no wrapper pushes. -/
def scratch : List Reg := [.r8, .r9, .r10, .r11]

/-- The code that ran in between left alone the registers that nothing saves: a handler the
scratch registers among them, and a switch all of them. -/
def KeepsUnsaved (s : System) : Event → Prop
  | .run _ => True
  | .trap entry rsp0 kernel (.returns _ handler) =>
    ∀ r ∈ scratch, (handler (called s.cpu entry rsp0 kernel)).reg r = s.cpu.reg r
  | .trap _ _ _ (.switchTo task later _) =>
    ∀ user, Function.update s.left s.current (some s.cpu) task = some user →
      ∀ r ∈ unsaved, later.reg r = user.reg r

/-- What is saved for a task is the state it was left in. -/
def SavedRight (s : System) : Prop :=
  ∀ task user, s.left task = some user → s.saved task = taskSaveState (userFrame user 0)

/-! ## Every resumption -/

theorem called_entered (cpu : Cpu) (entry : Entry) (rsp0 : Qword) (kernel : Machine) :
    Entered cpu (called cpu entry rsp0 kernel) := by
  cases entry with
  | interrupt number =>
    exact interruptEntry_entered ({ kernel with toCpu := cpu } : Machine) rsp0 number
  | isr80h => exact isr80hEntry_entered ({ kernel with toCpu := cpu } : Machine) rsp0

theorem Entered.savedState {user : Cpu} {m : Machine} (entered : Entered user m) :
    taskSaveState m.frame = taskSaveState (userFrame user 0) := by
  rw [Machine.frame, entered.argument, entered.frame]
  rfl

theorem SavedRight.save {s : System} (right : SavedRight s) {m : Machine}
    (entered : Entered s.cpu m) : SavedRight (s.save m.frame) := by
  intro task user left
  simp only [System.save] at left ⊢
  by_cases same : task = s.current
  · subst same
    rw [Function.update_self] at left ⊢
    obtain rfl := Option.some.inj left
    exact entered.savedState
  · rw [Function.update_of_ne same] at left ⊢
    exact right task user left

theorem savedRight_next {s : System} (right : SavedRight s) (event : Event) :
    SavedRight (s.next event) := by
  cases event with
  | run cpu => exact right
  | trap entry rsp0 kernel outcome =>
    have saved := right.save (called_entered s.cpu entry rsp0 kernel)
    cases outcome with
    | returns saves handler =>
      cases saves with
      | false => exact right
      | true => exact saved
    | switchTo task later returnAddress => exact saved

/-- A program resumed with the registers of another is intact when the two agree on those that
nothing saves. -/
theorem restored_mix_iff {except : List Reg} {user later : Cpu}
    (disjoint : ∀ r ∈ unsaved, r ∉ except) :
    Restored except user (user.mix later) ↔ ∀ r ∈ unsaved, later.reg r = user.reg r := by
  constructor
  · intro restored r member
    have same := restored.reg r (disjoint r member)
    simp only [Cpu.mix, if_pos member] at same
    exact same
  · intro same
    refine ⟨fun r _ => ?_, rfl, rfl, rfl, rfl⟩
    simp only [Cpu.mix]
    split
    · rename_i member
      exact same r member
    · rfl

theorem restored_setReg_iff {user resumed : Cpu} {r : Reg} {value : Qword} :
    Restored [r] user (resumed.setReg r value) ↔ Restored [r] user resumed := by
  have same : ∀ r', r' ∉ [r] → (resumed.setReg r value).reg r' = resumed.reg r' :=
    fun r' other => Function.update_of_ne (by simpa using other) _ _
  constructor <;> intro restored
  · exact ⟨fun r' other => (same r' other).symm.trans (restored.reg r' other), restored.rip,
      restored.rflags, restored.cs, restored.ss⟩
  · exact ⟨fun r' other => (same r' other).trans (restored.reg r' other), restored.rip,
      restored.rflags, restored.cs, restored.ss⟩

theorem iretq_setReg (m : Machine) {r : Reg} (value : Qword) (other : r ≠ .rsp) :
    (m.setReg r value).iretq = m.iretq.setReg r value := by
  simp only [Machine.iretq, stack_setReg m value _ other, Cpu.setReg, reg_setReg,
    Function.update_comm other]

theorem isr80hExit_resumes {user : Cpu} {m : Machine}
    (frame : frameAt m.mem (m.reg .rsp) = userFrame user (m.reg .rsp + 64)) :
    (exec isr80hExit m).iretq = (user.mix m.toCpu).setReg .rax (m.reg .rax) := by
  have resumed : (exec popadMacro (m.write (m.reg .rax) .tmpRes)).iretq = user.mix m.toCpu :=
    popad_resumes (m := m.write (m.reg .rax) .tmpRes) frame
  have code : exec isr80hExit m =
      (exec popadMacro (m.write (m.reg .rax) .tmpRes)).setReg .rax (m.reg .rax) := by
    simp only [isr80hExit, exec, List.foldl_append]
    rfl
  rw [code, iretq_setReg _ _ (by decide), resumed]

/-- A handler returns to the wrapper that called it. -/
theorem Entered.resumes_iff {user : Cpu} {m : Machine} (entered : Entered user m)
    {handler : Machine → Machine} (sysV : SysV handler) (entry : Entry) :
    Restored entry.result user (exec entry.after (handler m)).iretq ↔
      ∀ r ∈ scratch, (handler m).reg r = user.reg r := by
  have rsp : (handler m).reg .rsp = m.reg .rsp := sysV.calleeSaved m .rsp (by decide)
  have frame : frameAt (handler m).mem ((handler m).reg .rsp) =
      userFrame user ((handler m).reg .rsp + 64) := by
    rw [rsp, sysV.frame, entered.frame]
  have others : ∀ r ∈ [Reg.r12, .r13, .r14, .r15], (handler m).reg r = user.reg r := by
    intro r member
    have saved : r ∈ [Reg.rbx, .rsp, .rbp, .r12, .r13, .r14, .r15] ∧ r ∈ unsaved := by
      revert r
      decide
    rw [sysV.calleeSaved m r saved.1, entered.kept r saved.2]
  have scratchEnough : (∀ r ∈ unsaved, (handler m).reg r = user.reg r) ↔
      ∀ r ∈ scratch, (handler m).reg r = user.reg r := by
    have split : unsaved = scratch ++ [Reg.r12, .r13, .r14, .r15] := rfl
    rw [split, List.forall_mem_append]
    exact and_iff_left others
  rw [← scratchEnough]
  cases entry with
  | interrupt number =>
    rw [Entry.after, interruptExit, popad_resumes frame]
    exact restored_mix_iff fun r _ => List.not_mem_nil
  | isr80h =>
    rw [Entry.after, isr80hExit_resumes frame, Entry.result, restored_setReg_iff,
      restored_mix_iff (by decide : ∀ r ∈ unsaved, r ∉ [Reg.rax])]

/-- `task_return` of what was saved. -/
theorem taskReturn_resumes_iff {user : Cpu} {later : Machine} (returnAddress : Qword)
    (saved : later.registers = taskSaveState (userFrame user 0)) :
    Restored [] user (exec (taskReturn returnAddress) later).iretq ↔
      ∀ r ∈ unsaved, later.reg r = user.reg r := by
  have resumed : (exec (taskReturn returnAddress) later).iretq =
      { user.mix later.toCpu with rflags := user.rflags ||| 0x200 } := by
    have selector : ∀ w : BitVec 16, (w.setWidth 64).setWidth 16 = w := fun w => by simp
    rw [taskReturn_resumes, saved]
    simp only [taskSaveState, userFrame, selector, Cpu.mix, Cpu.mk.injEq, and_true]
    refine funext fun r => ?_
    cases r <;> rfl
  rw [resumed, ← restored_mix_iff (by decide : ∀ r ∈ unsaved, r ∉ [])]
  constructor
  · intro restored
    exact ⟨restored.reg, restored.rip, rfl, restored.cs, restored.ss⟩
  · intro restored
    refine ⟨restored.reg, restored.rip, ?_, restored.cs, restored.ss⟩
    rw [BitVec.or_assoc, BitVec.or_self]

/-- A program with all registers zero, in user mode. -/
def idleCpu : Cpu where
  reg := fun _ => 0
  rip := 0x400000
  rflags := 0x202
  cs := 0x2B
  ss := 0x33

def idleKernel : Machine where
  toCpu := idleCpu
  mem := fun _ => 0
  tempRspStorage := 0
  tmpRes := 0
  registers := ⟨0, 0, 0, 0, 0, 0, 0, 0, 0, 0, 0, 0⟩

def idleSystem : System where
  cpu := idleCpu
  current := 0
  saved := fun _ => idleKernel.registers
  left := fun _ => none

/-- A handler that computes in `r8`. -/
def usesR8 (m : Machine) : Machine := m.setReg .r8 1

/-- A handler that computes in `rax`. -/
def usesRax (m : Machine) : Machine := m.setReg .rax 1

theorem setReg_sysV {r : Reg} (value : Qword)
    (other : ∀ r' ∈ [Reg.rbx, .rsp, .rbp, .r12, .r13, .r14, .r15], r' ≠ r) :
    SysV fun m => m.setReg r value where
  calleeSaved := fun _ r' member => Function.update_of_ne (other r' member) _ _
  frame := fun _ => rfl

theorem usesR8_sysV : SysV usesR8 := setReg_sysV 1 (by decide)

theorem usesRax_sysV : SysV usesRax := setReg_sysV 1 (by decide)

def timer : Event := .trap (.interrupt 0x20) 0x600000 idleKernel (.returns true usesRax)

def keyPress : Event := .trap (.interrupt 0x21) 0x600000 idleKernel (.returns true usesR8)

/-- A switch of the only task to itself. -/
def yield : Event := .trap .isr80h 0x600000 idleKernel (.switchTo 0 idleKernel 0)

end ViOS.ContextSwitch
