import ViOS.Config
import ViOS.Lib.Radix
import Mathlib.Data.Nat.Bitwise

/-! # Four-level page tables

`paging.c` builds the page tables of the kernel and of each process.  A table is a
4096-byte block of 512 entries, named by its address; the tables are the memory the
code works on, and `kzalloc` is a parameter with a state of its own.

* `PagingDescEntry`, `pagingMap`, `pagingMapRange`, `pagingMapTo` — building the tables.
* `pagingGet`, `pagingGetPhysicalAddress` — the kernel's own walk.
* `hardwareWalk` — the walk of the processor.
* `BlockContract` — what `kzalloc` does when it does not fail.
-/

namespace ViOS.Memory

open ViOS.Lib

/-! ## Entries -/

def pagingAccessFromAll : Nat := 0b00000100
def pagingIsWriteable : Nat := 0b00000010
def pagingIsPresent : Nat := 0b00000001
def pagingTotalEntriesPerTable : Nat := 512
def pagingPageSize : Nat := 4096
def pagingMapLevel4 : Nat := 4

/-- `struct paging_desc_entry`. -/
structure PagingDescEntry where
  present : Bool
  readWrite : Bool
  userSupervisor : Bool
  pwt : Bool
  pcd : Bool
  accessed : Bool
  ignored : Bool
  reserved0 : Bool
  reserved1 : Nat
  address : Nat
  available : Nat
  executeDisable : Bool
  deriving DecidableEq, Repr

/-- The entry of a zeroed table. -/
def nullDesc : PagingDescEntry :=
  ⟨false, false, false, false, false, false, false, false, 0, 0, 0, false⟩

/-- `paging_null_entry`. -/
def pagingNullEntry (entry : PagingDescEntry) : Bool := entry = nullDesc

/-- An assignment to the `address` field, which has 40 bits. -/
def addressField (pointer : Nat) : Nat := (pointer >>> 12) % 2 ^ 40

/-- The table, or the frame, an entry points to. -/
def PagingDescEntry.target (entry : PagingDescEntry) : Nat := entry.address <<< 12

/-- The tables in memory, and the state of the allocator. -/
structure PagingState (α : Type*) where
  mem : Nat → Nat → PagingDescEntry
  alloc : α

/-- `struct paging_desc`. -/
structure PagingDesc where
  pml : Nat
  level : Nat
  deriving DecidableEq, Repr

/-! ## The indices of an address -/

def pml4Index (va : Nat) : Nat := (va >>> 39) &&& 0x1FF
def pdptIndex (va : Nat) : Nat := (va >>> 30) &&& 0x1FF
def pdIndex (va : Nat) : Nat := (va >>> 21) &&& 0x1FF
def ptIndex (va : Nat) : Nat := (va >>> 12) &&& 0x1FF

/-! ## Pages -/

/-- `paging_is_aligned`. -/
def pagingIsAligned (addr : Nat) : Bool := addr % pagingPageSize = 0

/-- `paging_align_address`. -/
def pagingAlignAddress (ptr : Nat) : Nat :=
  if ptr % pagingPageSize ≠ 0 then
    (ptr + pagingPageSize - ptr % pagingPageSize) % addressSpace
  else ptr

/-- `paging_align_to_lower_page`. -/
def pagingAlignToLowerPage (addr : Nat) : Nat := addr - addr % pagingPageSize

/-! ## Building the tables -/

section Map

variable {α : Type*} (kzalloc : α → Nat → Nat × α)

/-- `kzalloc` of a table: the block is zeroed unless the allocation failed. -/
def newTable (state : PagingState α) : Nat × PagingState α :=
  let (new, alloc) := kzalloc state.alloc (8 * pagingTotalEntriesPerTable)
  (new, { mem := if new = 0 then state.mem else Radix.clearTable state.mem new nullDesc, alloc })

/-- `paging_desc_new`. -/
def pagingDescNew (state : PagingState α) (rootMapLevel : Nat) :
    Option PagingDesc × PagingState α :=
  if rootMapLevel ≠ pagingMapLevel4 then (none, state)
  else
    let (desc, alloc) := kzalloc state.alloc 9
    let state := { state with alloc }
    if desc = 0 then (none, state)
    else
      let (pml, state) := newTable kzalloc state
      (some { pml, level := rootMapLevel }, state)

/-- One level of `paging_map`: the table behind an entry, made when the entry is null. -/
def nextTable (state : PagingState α) (table index : Nat) : Nat × PagingState α :=
  if pagingNullEntry (state.mem table index) then
    let (new, state) := newTable kzalloc state
    let entry := { state.mem table index with
      address := addressField new, present := true, readWrite := true, userSupervisor := true }
    (entry.target, { state with mem := Radix.setEntry state.mem table index entry })
  else ((state.mem table index).target, state)

/-- The three table levels of `paging_map`: the page table of an address. -/
def pageTableOf (state : PagingState α) (pml virt : Nat) : Nat × PagingState α :=
  let (pdpt, state) := nextTable kzalloc state pml (pml4Index virt)
  let (pd, state) := nextTable kzalloc state pdpt (pdptIndex virt)
  nextTable kzalloc state pd (pdIndex virt)

/-- The last assignments of `paging_map`. -/
def leafEntry (entry : PagingDescEntry) (phys flags : Nat) : PagingDescEntry :=
  { entry with
    address := addressField phys
    present := flags &&& pagingIsPresent ≠ 0
    readWrite := flags &&& pagingIsWriteable ≠ 0
    userSupervisor := flags &&& pagingAccessFromAll ≠ 0 }

/-- `paging_map`. -/
def pagingMap (desc : PagingDesc) (virt phys flags : Nat) (state : PagingState α) :
    Int × PagingState α :=
  let (pt, state) := pageTableOf kzalloc state desc.pml virt
  let entry := leafEntry (state.mem pt (ptIndex virt)) phys flags
  (0, { state with mem := Radix.setEntry state.mem pt (ptIndex virt) entry })

/-- The loop of `paging_map_range`, with `count` pages to go. -/
def mapRangeLoop (desc : PagingDesc) (flags : Nat) :
    (count virt phys : Nat) → (res : Int) → PagingState α → Int × PagingState α
  | 0, _, _, res, state => (res, state)
  | count + 1, virt, phys, _, state =>
    let (res, state) := pagingMap kzalloc desc virt phys flags state
    if res < 0 then (res, state)
    else mapRangeLoop desc flags count ((virt + pagingPageSize) % addressSpace)
      ((phys + pagingPageSize) % addressSpace) res state

/-- `paging_map_range`. -/
def pagingMapRange (desc : PagingDesc) (virt phys count flags : Nat) (state : PagingState α) :
    Int × PagingState α :=
  mapRangeLoop kzalloc desc flags count virt phys 0 state

/-- `paging_map_to`. -/
def pagingMapTo (desc : PagingDesc) (virt phys physEnd flags : Nat) (state : PagingState α) :
    Int × PagingState α :=
  if virt % pagingPageSize ≠ 0 then (-einvarg, state)
  else if phys % pagingPageSize ≠ 0 then (-einvarg, state)
  else if physEnd % pagingPageSize ≠ 0 then (-einvarg, state)
  else if physEnd < phys then (-einvarg, state)
  else pagingMapRange kzalloc desc virt phys ((physEnd - phys) / pagingPageSize) flags state

end Map

section AllocatorState

variable {α : Type*} {kzalloc : α → Nat → Nat × α} {P : α → Prop}
  (stays : ∀ alloc size, P alloc → P (kzalloc alloc size).2)

include stays

theorem nextTable_alloc {state : PagingState α} (table index : Nat) (holds : P state.alloc) :
    P (nextTable kzalloc state table index).2.alloc := by
  unfold nextTable
  split
  · exact stays _ _ holds
  · exact holds

/-- What `kzalloc` keeps true of its state holds after the tables were built. -/
theorem pagingMap_alloc {state : PagingState α} (desc : PagingDesc) (virt phys flags : Nat)
    (holds : P state.alloc) : P (pagingMap kzalloc desc virt phys flags state).2.alloc :=
  nextTable_alloc stays _ _ (nextTable_alloc stays _ _ (nextTable_alloc stays _ _ holds))

theorem mapRangeLoop_alloc (desc : PagingDesc) (flags count virt phys : Nat) (res : Int)
    {state : PagingState α} (holds : P state.alloc) :
    P (mapRangeLoop kzalloc desc flags count virt phys res state).2.alloc := by
  induction count generalizing virt phys res state with
  | zero => exact holds
  | succ count ih =>
    have mapped := pagingMap_alloc stays desc virt phys flags holds
    simp only [mapRangeLoop]
    split
    · exact mapped
    · exact ih _ _ _ mapped

theorem pagingMapTo_alloc (desc : PagingDesc) (virt phys physEnd flags : Nat)
    {state : PagingState α} (holds : P state.alloc) :
    P (pagingMapTo kzalloc desc virt phys physEnd flags state).2.alloc := by
  unfold pagingMapTo
  split_ifs
  iterate 4 exact holds
  exact mapRangeLoop_alloc stays desc flags _ virt phys 0 holds

end AllocatorState

/-! ## The kernel's walk -/

/-- `paging_get`: the table and the index of the entry it returns. -/
def pagingGet (mem : Nat → Nat → PagingDescEntry) (desc : PagingDesc) (virt : Nat) :
    Option (Nat × Nat) :=
  let pml4Entry := mem desc.pml (pml4Index virt)
  if pagingNullEntry pml4Entry then none
  else
    let pdptEntries := pml4Entry.target
    -- the entry at the start of the table, not the one of the address
    if pagingNullEntry (mem pdptEntries 0) then none
    else
      let pdptEntry := mem pdptEntries (pdptIndex virt)
      if pagingNullEntry pdptEntry then none
      else
        let pdEntries := pdptEntry.target
        if pagingNullEntry (mem pdEntries 0) then none
        else
          let pdEntry := mem pdEntries (pdIndex virt)
          if pagingNullEntry pdEntry then none
          else
            let ptEntries := pdEntry.target
            -- the source repeats the test of `pd_entries` here
            if pagingNullEntry (mem pdEntries 0) then none
            else some (ptEntries, ptIndex virt)

/-- `paging_get_physical_address`. -/
def pagingGetPhysicalAddress (mem : Nat → Nat → PagingDescEntry) (desc : PagingDesc) (virt : Nat) : Nat :=
  match pagingGet mem desc virt with
  | none => 0
  | some (table, index) => ((mem table index).target + (virt &&& 0xFFF)) % addressSpace

/-! ## The processor's walk -/

/-- What a walk finds for a page. -/
structure Mapping where
  frame : Nat
  present : Bool
  writable : Bool
  user : Bool
  deriving DecidableEq, Repr

/-- The processor follows an entry to a table: present, and not a large page. -/
def follow (entry : PagingDescEntry) : Option Nat :=
  if entry.present ∧ ¬ entry.reserved0 then some entry.target else none

/-- The tables the processor passes on its way, with their entries for the address: it ends at
the last-level entry.  The permissions are those all levels grant. -/
def hardwareWalk (mem : Nat → Nat → PagingDescEntry) (pml virt : Nat) :
    Option ((Nat × Nat) × Mapping) := do
  let pml4Entry := mem pml (pml4Index virt)
  let pdpt ← follow pml4Entry
  let pdptEntry := mem pdpt (pdptIndex virt)
  let pd ← follow pdptEntry
  let pdEntry := mem pd (pdIndex virt)
  let pt ← follow pdEntry
  let ptEntry := mem pt (ptIndex virt)
  return ((pt, ptIndex virt), {
    frame := ptEntry.address
    present := ptEntry.present
    writable := pml4Entry.readWrite && pdptEntry.readWrite && pdEntry.readWrite && ptEntry.readWrite
    user := pml4Entry.userSupervisor && pdptEntry.userSupervisor && pdEntry.userSupervisor &&
      ptEntry.userSupervisor })

/-! ## What `kzalloc` does -/

/-- A block of page size that nobody had. -/
structure Fresh (taken taken' : Nat → Prop) (new : Nat) : Prop where
  aligned : new % pagingPageSize = 0
  small : new < 2 ^ 52
  fresh : ¬ taken new
  keeps : ∀ block, taken block → taken' block
  takes : taken' new

/-- The contract of `kzalloc`, over the blocks that each state of the allocator has handed out.
It may fail, and then returns the null pointer. -/
structure BlockContract {α : Type*} (kzalloc : α → Nat → Nat × α) (valid : α → Prop)
    (taken : α → Nat → Prop) : Prop where
  stays : ∀ alloc size, valid alloc → valid (kzalloc alloc size).2
  keeps : ∀ alloc size block, valid alloc → taken alloc block → taken (kzalloc alloc size).2 block
  fresh : ∀ alloc size, valid alloc → (kzalloc alloc size).1 ≠ 0 →
    Fresh (taken alloc) (taken (kzalloc alloc size).2) (kzalloc alloc size).1

end ViOS.Memory
