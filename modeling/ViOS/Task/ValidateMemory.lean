import ViOS.Config
import Mathlib.Data.List.Basic
import Mathlib.Tactic.Basic

/-! # Validating a user buffer

`process_validate_memory_or_terminate` is what stands between an (address,
length) pair given by a user program and a kernel write at the translated
address.  It looks the address up in the process's allocation records and in the
stack range, and compares the length with the bytes left there.

* `processGetAllocationByAddr`, `processValidateMemoryOrTerminate` — the code.
* `BufferCovered` — what acceptance is meant to guarantee.
* `validate_sound_iff` — for which processes and buffers it does.
-/

namespace ViOS.Process

/-! ## The code -/

/-- `struct process_allocation`; `endPtr` is its field `end`. -/
structure ProcessAllocation where
  ptr : Nat
  endPtr : Nat
  size : Nat
  deriving DecidableEq, Repr

/-- The all-zero record: pushed for a new slot, written back by `process_free`. -/
def ProcessAllocation.cleared : ProcessAllocation := ⟨0, 0, 0⟩

/-- A record as `process.c` writes it: cleared, or the range of a live allocation,
which lies in the address space. -/
def ProcessAllocation.WellFormed (a : ProcessAllocation) : Prop :=
  a = .cleared ∨ (a.ptr ≠ 0 ∧ a.endPtr = a.ptr + a.size ∧ a.endPtr < addressSpace)

/-- The vector `process->allocations`. -/
structure AllocationVector where
  records : List ProcessAllocation
  wellFormed : ∀ a ∈ records, a.WellFormed

/-- The anonymous `peek` member of `struct process_allocation_request`. -/
structure AllocationPeek where
  addr : Nat
  endPtr : Nat
  totalBytesLeft : Nat
  deriving DecidableEq, Repr

/-- `struct process_allocation_request`. -/
structure ProcessAllocationRequest where
  allocation : ProcessAllocation
  flags : Nat
  peek : AllocationPeek
  deriving DecidableEq, Repr

def processAllocationRequestIsStackMemory : Nat := 0b00000001

/-- The request after the `memset` that opens `process_get_allocation_by_addr`. -/
def ProcessAllocationRequest.null : ProcessAllocationRequest :=
  ⟨.cleared, 0, ⟨0, 0, 0⟩⟩

/-- `process_is_stack_memory`. -/
def processIsStackMemory (addr : Nat) : Bool :=
  viosProgramVirtualStackAddressEnd ≤ addr ∧ addr ≤ viosProgramVirtualStackAddressStart

/-- The test the loop of `process_get_allocation_by_addr` makes on a record. -/
def holdsAddr (addr : Nat) (a : ProcessAllocation) : Bool := a.ptr ≤ addr ∧ addr ≤ a.endPtr

/-- `bytes_left` of the loop: `end - (addr - ptr)` in 64-bit arithmetic. -/
def bytesLeft (a : ProcessAllocation) (addr : Nat) : Nat :=
  (a.endPtr + addressSpace - (addr - a.ptr)) % addressSpace

/-- `process_get_allocation_by_addr`: the status and the request filled in. -/
def processGetAllocationByAddr (allocations : List ProcessAllocation) (addr : Nat) :
    Int × ProcessAllocationRequest :=
  if processIsStackMemory addr then
    (0, { allocation := ⟨viosProgramVirtualStackAddressEnd, viosProgramVirtualStackAddressStart,
            viosUserProgramStackSize⟩
          flags := processAllocationRequestIsStackMemory
          peek := ⟨addr, viosProgramVirtualStackAddressStart,
            viosProgramVirtualStackAddressStart - addr⟩ })
  else
    match allocations.find? (holdsAddr addr) with
    | some a => (0, { allocation := a, flags := 0, peek := ⟨addr, a.endPtr, bytesLeft a addr⟩ })
    | none => (-eio, .null)

/-- `process_validate_memory_or_terminate`: the status, and whether the process
was terminated. -/
def processValidateMemoryOrTerminate (allocations : List ProcessAllocation) (virtAddr : Nat)
    (spaceNeeded : Nat) : Int × Bool :=
  let (res, request) := processGetAllocationByAddr allocations virtAddr
  let res := if res < 0 then res
    else if request.peek.totalBytesLeft < spaceNeeded then -einvarg else res
  (res, decide (res < 0))

/-! ## What acceptance should mean -/

/-- Every address of `[addr, addr + n)` lies in `[lo, hi)`; the sums are exact. -/
def RangeInside (addr n lo hi : Nat) : Prop := ∀ a, addr ≤ a → a < addr + n → lo ≤ a ∧ a < hi

/-- The buffer lies inside one live allocation of the process or inside its stack. -/
def BufferCovered (allocations : List ProcessAllocation) (addr : Nat) (n : Nat) : Prop :=
  (∃ a ∈ allocations, a.ptr ≠ 0 ∧ RangeInside addr n a.ptr (a.ptr + a.size)) ∨
    RangeInside addr n viosProgramVirtualStackAddressEnd viosProgramVirtualStackAddressStart

/-- The over-estimate `bytesLeft` does no harm to this buffer: it starts in the stack,
or the first record that holds its address either has room for it, or is exceeded even
by the over-estimate, or some other live record has room for it. -/
def OverestimateHarmless (allocations : List ProcessAllocation) (addr : Nat) (n : Nat) : Prop :=
  processIsStackMemory addr = true ∨ ∀ a, allocations.find? (holdsAddr addr) = some a →
    n ≤ a.endPtr - addr ∨ bytesLeft a addr < n ∨
      ∃ b ∈ allocations, b.ptr ≠ 0 ∧ b.ptr ≤ addr ∧ addr + n ≤ b.endPtr

theorem rangeInside_iff {addr n lo hi : Nat} :
    RangeInside addr n lo hi ↔ n = 0 ∨ (lo ≤ addr ∧ addr + n ≤ hi) := by
  constructor
  · intro inside
    rcases Nat.eq_zero_or_pos n with empty | positive
    · exact Or.inl empty
    · have first := inside addr (Nat.le_refl _) (by omega)
      have last := inside (addr + n - 1) (by omega) (by omega)
      exact Or.inr ⟨first.1, by omega⟩
  · intro bounds a above below
    omega

/-- The call accepts a buffer outside the stack precisely when some record holds its
address and the over-estimate covers its length. -/
theorem validate_accepts_iff (allocations : List ProcessAllocation) (addr : Nat) (n : Nat)
    (notStack : processIsStackMemory addr = false) :
    0 ≤ (processValidateMemoryOrTerminate allocations addr n).1 ↔
      ∃ a, allocations.find? (holdsAddr addr) = some a ∧ n ≤ bytesLeft a addr := by
  simp only [processValidateMemoryOrTerminate, processGetAllocationByAddr, notStack]
  cases found : allocations.find? (holdsAddr addr) with
  | none => simp [eio]
  | some a =>
    by_cases short : bytesLeft a addr < n
    · simp [einvarg, short]
    · simp only [Bool.false_eq_true, if_false, short]
      simp [Nat.le_of_not_lt short]

theorem validate_stack_covered (allocations : List ProcessAllocation) (addr : Nat) (n : Nat)
    (isStack : processIsStackMemory addr = true)
    (accepted : 0 ≤ (processValidateMemoryOrTerminate allocations addr n).1) :
    BufferCovered allocations addr n := by
  right
  rw [rangeInside_iff]
  have bounds := isStack
  simp only [processIsStackMemory, decide_eq_true_eq] at bounds
  simp only [processValidateMemoryOrTerminate, processGetAllocationByAddr, isStack, if_true] at accepted
  by_cases short : viosProgramVirtualStackAddressStart - addr < n
  · simp [short, einvarg] at accepted
  · omega

/-- A live record with room for the buffer covers it, and a non-empty covered buffer
outside the stack has such a record. -/
theorem bufferCovered_iff {vec : AllocationVector} {addr n : Nat}
    (notStack : processIsStackMemory addr = false) (nonempty : n ≠ 0) :
    BufferCovered vec.records addr n ↔
      ∃ b ∈ vec.records, b.ptr ≠ 0 ∧ b.ptr ≤ addr ∧ addr + n ≤ b.endPtr := by
  have endPtr : ∀ b ∈ vec.records, b.ptr ≠ 0 → b.endPtr = b.ptr + b.size := by
    intro b member live
    rcases vec.wellFormed b member with rfl | ⟨-, same, -⟩
    · exact absurd rfl live
    · exact same
  constructor
  · rintro (⟨b, member, live, inside⟩ | inside)
    · rcases rangeInside_iff.mp inside with empty | ⟨low, high⟩
      · exact absurd empty nonempty
      · exact ⟨b, member, live, low, endPtr b member live ▸ high⟩
    · rcases rangeInside_iff.mp inside with empty | ⟨low, high⟩
      · exact absurd empty nonempty
      · simp only [processIsStackMemory, decide_eq_false_iff_not, not_and, Nat.not_le] at notStack
        have above := notStack low
        omega
  · rintro ⟨b, member, live, low, high⟩
    exact Or.inl ⟨b, member, live, rangeInside_iff.mpr (Or.inr ⟨low, endPtr b member live ▸ high⟩)⟩

/-- Acceptance guarantees that the buffer is covered precisely when the over-estimate
of the bytes left does no harm. -/
theorem validate_sound_iff (vec : AllocationVector) (addr : Nat) (n : Nat) :
    (0 ≤ (processValidateMemoryOrTerminate vec.records addr n).1 →
      BufferCovered vec.records addr n) ↔ OverestimateHarmless vec.records addr n := by
  cases isStack : processIsStackMemory addr with
  | true => exact ⟨fun _ => Or.inl isStack, fun _ => validate_stack_covered _ _ _ isStack⟩
  | false =>
    rw [validate_accepts_iff _ _ _ isStack]
    rcases Nat.eq_zero_or_pos n with rfl | positive
    · exact ⟨fun _ => Or.inr fun a _ => Or.inl (Nat.zero_le _),
        fun _ _ => Or.inr (rangeInside_iff.mpr (Or.inl rfl))⟩
    · rw [bufferCovered_iff isStack (by omega)]
      constructor
      · intro sound
        refine Or.inr fun a found => ?_
        by_cases rejected : bytesLeft a addr < n
        · exact Or.inr (Or.inl rejected)
        · exact Or.inr (Or.inr (sound ⟨a, found, by omega⟩))
      · rintro harmless ⟨a, found, accepted⟩
        have holds : a.ptr ≤ addr ∧ addr ≤ a.endPtr := by
          simpa [holdsAddr] using List.find?_some found
        have member := List.mem_of_find?_eq_some found
        rcases harmless with stack | harmless
        · simp [isStack] at stack
        rcases harmless a found with room | rejected | other
        · -- a cleared record has no room for a non-empty buffer
          rcases vec.wellFormed a member with rfl | ⟨live, -, -⟩
          · simp only [ProcessAllocation.cleared] at room
            omega
          · exact ⟨a, member, live, holds.1, by omega⟩
        · omega
        · exact other

/-- One page allocated at 32 MiB. -/
def onePage : AllocationVector where
  records := [⟨0x2000000, 0x2001000, 4096⟩]
  wellFormed := by
    intro a member
    rw [List.mem_singleton.mp member]
    exact Or.inr (by decide)

/-- A process with one 4096-byte allocation gets an 8192-byte buffer accepted at its
start. -/
theorem validate_accepts_overrun :
    ¬ (0 ≤ (processValidateMemoryOrTerminate onePage.records 0x2000000 8192).1 →
      BufferCovered onePage.records 0x2000000 8192) := by
  intro sound
  have covered := sound (by decide)
  rw [bufferCovered_iff (by decide) (by decide)] at covered
  revert covered
  decide

end ViOS.Process
