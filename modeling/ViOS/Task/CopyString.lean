import ViOS.Memory.PagingGet
import ViOS.Memory.PagingMapped

/-! # `copy_string_from_task`

The kernel reads a string of a task through a buffer of its own heap, which it maps into
the task's tables for the time of the copy.  It keeps the entry that was there before,
and afterwards maps its frame again with flags that it makes from three bits of the entry
by `|`: the result is one bit, and `paging_map` takes it for `PAGING_IS_PRESENT`.

`kzalloc` and `kfree` are parameters.  A 40-bit field is shifted in a type of `width` bits,
40 or 64 as the compiler has it.

* `copyStringFromTask` — the code.
* `pagingMap_twice` — two calls of `paging_map` for a page whose tables exist.
* `copyStringFromTask_restores_iff` — when the tables are what they were.
-/

namespace ViOS.Process

open ViOS.Lib ViOS.Memory

/-! ## The code -/

/-- How many bytes `strncpy` copies before the NUL. -/
def strncpyLength (src : Nat → UInt8) (count : Nat) : Nat :=
  ((List.range count).takeWhile fun i => src i ≠ 0).length

/-- `strncpy`. -/
def strncpy (ram : Nat → UInt8) (dest : Nat) (src : Nat → UInt8) (count : Nat) : Nat → UInt8 := fun address =>
  let length := strncpyLength src count
  if address = dest + length then 0
  else if dest ≤ address ∧ address < dest + length then src (address - dest)
  else ram address

/-- The page tables and the bytes of memory. -/
structure CopyState (α : Type*) where
  paging : PagingState α
  ram : Nat → UInt8

/-- `old_entry_flags`: the value of `read_write | present | user_supervisor`. -/
def oldEntryFlags (oldEntry : PagingDescEntry) : Nat :=
  oldEntry.readWrite.toNat ||| oldEntry.present.toNat ||| oldEntry.userSupervisor.toNat

/-- `old_entry.address << 12`. -/
def oldEntryFrame (width : Nat) (oldEntry : PagingDescEntry) : Nat := (oldEntry.address <<< 12) % 2 ^ width

section Copy

variable {α : Type*} (kzalloc : α → Nat → Nat × α) (kfree : α → Nat → α) (width : Nat)

/-- `copy_string_from_task`; `string` are the bytes that the task's tables show at its pointer.  There is
no result when `memcpy` reads the entry from a null pointer. -/
def copyStringFromTask (kernelDesc taskDesc : PagingDesc) (string : Nat → UInt8) (phys : Nat) (max : Int)
    (state : CopyState α) : Option (Int × CopyState α) :=
  if (pagingPageSize : Int) ≤ max then some (-einvarg, state)
  else
    let (tmp, alloc) := kzalloc state.paging.alloc (max % addressSpace).toNat
    let paging := { state.paging with alloc }
    if tmp = 0 then some (-enomem, { state with paging })
    else
      let physTmp := pagingGetPhysicalAddress paging.mem kernelDesc tmp
      match pagingGet paging.mem taskDesc physTmp with
      | none => none
      | some (table, index) =>
        let oldEntry := paging.mem table index
        let paging := (pagingMap kzalloc taskDesc physTmp physTmp
          (pagingIsWriteable ||| pagingIsPresent ||| pagingAccessFromAll) paging).2
        -- on the pages of the task, then on those of the kernel
        let ram := strncpy state.ram physTmp string max.toNat
        let ram := strncpy ram phys (fun i => ram (physTmp + i)) max.toNat
        let paging := (pagingMap kzalloc taskDesc physTmp (oldEntryFrame width oldEntry) (oldEntryFlags oldEntry)
          paging).2
        some (0, { paging := { paging with alloc := kfree paging.alloc tmp }, ram })

/-- The call returns, and the tables are what they were. -/
def Restores (kernelDesc taskDesc : PagingDesc) (string : Nat → UInt8) (phys : Nat) (max : Int)
    (state : CopyState α) : Prop :=
  ∃ res state', copyStringFromTask kzalloc kfree width kernelDesc taskDesc string phys max state =
    some (res, state') ∧ state'.paging.mem = state.paging.mem

/-- The size is refused or there is no buffer, or `paging_get` finds an entry for the buffer that is neither
writable nor open to the user, and whose address is not cut by the shift. -/
def RestoreFits (kernelDesc taskDesc : PagingDesc) (max : Int) (state : CopyState α) : Prop :=
  let tmp := (kzalloc state.paging.alloc (max % addressSpace).toNat).1
  (pagingPageSize : Int) ≤ max ∨ tmp = 0 ∨
    ∃ table index, pagingGet state.paging.mem taskDesc
        (pagingGetPhysicalAddress state.paging.mem kernelDesc tmp) = some (table, index) ∧
      (state.paging.mem table index).readWrite = false ∧
      (state.paging.mem table index).userSupervisor = false ∧
      (state.paging.mem table index).address <<< 12 < 2 ^ width

end Copy

/-! ## The entry -/

/-- The flags hold one bit, whatever the entry was. -/
theorem oldEntryFlags_eq (oldEntry : PagingDescEntry) :
    oldEntryFlags oldEntry = (oldEntry.readWrite || oldEntry.present || oldEntry.userSupervisor).toNat := by
  unfold oldEntryFlags
  cases oldEntry.readWrite <;> cases oldEntry.present <;> cases oldEntry.userSupervisor <;> rfl

theorem addressField_frame (width : Nat) {oldEntry : PagingDescEntry} (isField : oldEntry.address < 2 ^ 40) :
    addressField (oldEntryFrame width oldEntry) = oldEntry.address ↔ oldEntry.address <<< 12 < 2 ^ width := by
  have whole : oldEntry.address <<< 12 >>> 12 % 2 ^ 40 = oldEntry.address := by
    rw [Nat.shiftLeft_shiftRight, Nat.mod_eq_of_lt isField]
  constructor
  · intro same
    by_contra long
    -- the shifted value is cut below itself, and so is what is read back from it
    have cut : oldEntryFrame width oldEntry < oldEntry.address <<< 12 :=
      (Nat.mod_lt _ (Nat.two_pow_pos width)).trans_le (Nat.not_lt.mp long)
    unfold addressField at same
    rw [Nat.shiftRight_eq_div_pow] at same
    rw [Nat.shiftLeft_eq] at cut
    have below : oldEntryFrame width oldEntry / 2 ^ 12 < oldEntry.address := Nat.div_lt_of_lt_mul (by omega)
    have kept := Nat.mod_le (oldEntryFrame width oldEntry / 2 ^ 12) (2 ^ 40)
    omega
  · intro fits
    unfold addressField oldEntryFrame
    rw [Nat.mod_eq_of_lt fits, whole]

/-- The entry after both calls is the old one exactly when it was neither writable nor open to the user,
and its address was not cut. -/
theorem leafEntry_restored_iff (width phys flags : Nat) {oldEntry : PagingDescEntry} (isField : oldEntry.address < 2 ^ 40) :
    leafEntry (leafEntry oldEntry phys flags) (oldEntryFrame width oldEntry) (oldEntryFlags oldEntry) = oldEntry ↔
      oldEntry.readWrite = false ∧ oldEntry.userSupervisor = false ∧ oldEntry.address <<< 12 < 2 ^ width := by
  rw [← addressField_frame width isField]
  have flagBits : ∀ b : Bool, decide (b.toNat &&& pagingIsPresent ≠ 0) = b ∧
      decide (b.toNat &&& pagingIsWriteable ≠ 0) = false ∧
      decide (b.toNat &&& pagingAccessFromAll ≠ 0) = false := by decide
  obtain ⟨present, writable, user⟩ :=
    flagBits (oldEntry.readWrite || oldEntry.present || oldEntry.userSupervisor)
  unfold leafEntry
  rw [oldEntryFlags_eq]
  simp only [present, writable, user]
  constructor
  · intro same
    have writableSame := congrArg PagingDescEntry.readWrite same
    have userSame := congrArg PagingDescEntry.userSupervisor same
    have addressSame := congrArg PagingDescEntry.address same
    exact ⟨writableSame.symm, userSame.symm, addressSame⟩
  · intro ⟨writableOld, userOld, addressSame⟩
    rw [addressSame, writableOld, userOld, Bool.false_or, Bool.or_false]
    cases oldEntry
    simp_all

/-! ## The tables -/

section Tables

variable {α : Type*} {kzalloc : α → Nat → Nat × α} {taken : Nat → Prop} {desc : PagingDesc} {virt : Nat}

/-- What `paging_get` returns is the leaf of the tree. -/
theorem walk_of_pagingGet {mem : Nat → Nat → PagingDescEntry} {table index : Nat}
    (found : pagingGet mem desc virt = some (table, index)) :
    Radix.walk childTable mem desc.pml (wordOf virt) = some table ∧ index = ptIndex virt := by
  cases reached : Radix.walk childTable mem desc.pml (wordOf virt) with
  | none =>
    have empty := pathEmpty_iff.mpr reached
    unfold PathEmpty at empty
    unfold pagingGet pagingNullEntry at found
    simp only [decide_eq_true_eq] at found
    obtain null4 | null3 | null2 := empty
    · rw [if_pos null4] at found
      exact absurd found (by simp)
    · simp only [if_pos null3] at found
      split_ifs at found
    · simp only [if_pos null2] at found
      split_ifs at found
  | some pt =>
    rw [pagingGet_eq reached] at found
    split_ifs at found
    obtain ⟨rfl, rfl⟩ := Prod.mk.inj (Option.some.inj found)
    exact ⟨rfl, rfl⟩

theorem pagingMap_of_walk {state : PagingState α} {pt phys flags : Nat}
    (reached : Radix.walk childTable state.mem desc.pml (wordOf virt) = some pt) :
    (pagingMap kzalloc desc virt phys flags state).2 = ⟨Radix.setEntry state.mem pt (ptIndex virt)
      (leafEntry (state.mem pt (ptIndex virt)) phys flags), state.alloc⟩ := by
  unfold pagingMap
  rw [pageTableOf_mapped reached]

/-- A page whose tables exist is mapped twice: only its leaf is written. -/
theorem pagingMap_twice {state : PagingState α} (tree : PagingTree taken state.mem desc.pml) {pt : Nat}
    (reached : Radix.walk childTable state.mem desc.pml (wordOf virt) = some pt) (phys flags phys' flags' : Nat) :
    (pagingMap kzalloc desc virt phys' flags' (pagingMap kzalloc desc virt phys flags state).2).2 =
      ⟨Radix.setEntry state.mem pt (ptIndex virt)
        (leafEntry (leafEntry (state.mem pt (ptIndex virt)) phys flags) phys' flags'), state.alloc⟩ := by
  have full : (wordOf virt).length = 3 := rfl
  have again : Radix.walk childTable (Radix.setEntry state.mem pt (ptIndex virt)
      (leafEntry (state.mem pt (ptIndex virt)) phys flags)) desc.pml (wordOf virt) = some pt := by
    rw [Radix.walk_write tree reached full full.le]
    exact reached
  rw [pagingMap_of_walk reached, pagingMap_of_walk again]
  simp only [Radix.setEntry_self, Radix.setEntry_setEntry]

/-- Every entry's `address` fits its field. -/
def AddressFields (mem : Nat → Nat → PagingDescEntry) : Prop := ∀ table index, (mem table index).address < 2 ^ 40

theorem addressField_lt (pointer : Nat) : addressField pointer < 2 ^ 40 := Nat.mod_lt _ (by decide)

theorem AddressFields.setEntry {mem : Nat → Nat → PagingDescEntry} (fields : AddressFields mem) (table index : Nat)
    {entry : PagingDescEntry} (isField : entry.address < 2 ^ 40) : AddressFields (Radix.setEntry mem table index entry) := by
  intro other position
  by_cases sameTable : other = table
  · subst sameTable
    by_cases sameIndex : position = index
    · subst sameIndex
      rw [Radix.setEntry_self]
      exact isField
    · rw [Radix.setEntry_of_ne_index _ _ _ sameIndex]
      exact fields other position
  · rw [Radix.setEntry_of_ne_table _ _ _ sameTable]
    exact fields other position

theorem AddressFields.newTable {state : PagingState α} (fields : AddressFields state.mem) :
    AddressFields (newTable kzalloc state).2.mem := by
  intro table index
  unfold Memory.newTable
  simp only
  split
  · exact fields table index
  · by_cases same : table = (kzalloc state.alloc (8 * pagingTotalEntriesPerTable)).1
    · rw [same, Radix.clearTable_self]
      decide
    · rw [Radix.clearTable_of_ne _ _ same]
      exact fields table index

theorem AddressFields.nextTable {state : PagingState α} (fields : AddressFields state.mem) (table index : Nat) :
    AddressFields (nextTable kzalloc state table index).2.mem := by
  unfold Memory.nextTable
  split
  · exact fields.newTable.setEntry table index (addressField_lt _)
  · exact fields

theorem AddressFields.pagingMap {state : PagingState α} (fields : AddressFields state.mem) (desc : PagingDesc)
    (virt phys flags : Nat) : AddressFields (pagingMap kzalloc desc virt phys flags state).2.mem :=
  (((fields.nextTable _ _).nextTable _ _).nextTable _ _).setEntry _ _ (addressField_lt _)

theorem AddressFields.mapCalls {state : PagingState α} (fields : AddressFields state.mem) (desc : PagingDesc)
    (calls : List MapCall) : AddressFields (mapCalls kzalloc desc calls state).mem := by
  induction calls generalizing state with
  | nil => exact fields
  | cons call rest ih => exact ih (fields.pagingMap desc call.virt call.phys call.flags)

theorem AddressFields.pagingDescNew {state : PagingState α} (fields : AddressFields state.mem) (level : Nat) :
    AddressFields (pagingDescNew kzalloc state level).2.mem := by
  unfold Memory.pagingDescNew
  simp only
  split
  · exact fields
  · split
    · exact fields
    · exact AddressFields.newTable fields

end Tables

/-- `copy_string_from_task` leaves the tables as they were exactly when `RestoreFits`. -/
theorem copyStringFromTask_restores_iff {α : Type*} (kzalloc : α → Nat → Nat × α) (kfree : α → Nat → α)
    (width : Nat) (kernelDesc taskDesc : PagingDesc) (string : Nat → UInt8) (phys : Nat) (max : Int)
    (state : CopyState α) {taken : Nat → Prop} (tree : PagingTree taken state.paging.mem taskDesc.pml)
    (fields : AddressFields state.paging.mem) :
    Restores kzalloc kfree width kernelDesc taskDesc string phys max state ↔
      RestoreFits kzalloc width kernelDesc taskDesc max state := by
  unfold Restores RestoreFits copyStringFromTask
  by_cases long : (pagingPageSize : Int) ≤ max
  · rw [if_pos long]
    exact iff_of_true ⟨_, _, rfl, rfl⟩ (.inl long)
  · rw [if_neg long]
    obtain ⟨tmp, alloc⟩ := kzalloc state.paging.alloc (max % addressSpace).toNat
    simp only [long, false_or]
    by_cases noBuffer : tmp = 0
    · rw [if_pos noBuffer]
      exact iff_of_true ⟨_, _, rfl, rfl⟩ (.inl noBuffer)
    · rw [if_neg noBuffer]
      simp only [noBuffer, false_or]
      generalize pagingGetPhysicalAddress state.paging.mem kernelDesc tmp = physTmp
      cases found : pagingGet state.paging.mem taskDesc physTmp with
      | none =>
        -- `memcpy` of the entry has nothing to read
        refine iff_of_false ?_ ?_
        · rintro ⟨res, state', result, -⟩
          exact absurd result (by simp)
        · rintro ⟨table, index, result, -⟩
          exact absurd result (by simp)
      | some entry =>
        obtain ⟨table, index⟩ := entry
        obtain ⟨reached, rfl⟩ := walk_of_pagingGet found
        have restored := leafEntry_restored_iff width physTmp
          (pagingIsWriteable ||| pagingIsPresent ||| pagingAccessFromAll) (fields table (ptIndex physTmp))
        have mapped := @pagingMap_twice α kzalloc taken taskDesc physTmp ⟨state.paging.mem, alloc⟩ tree table reached
        constructor
        · rintro ⟨res, state', result, same⟩
          obtain ⟨-, rfl⟩ := Prod.mk.inj (Option.some.inj result)
          simp only [mapped, Radix.setEntry_eq_iff] at same
          exact ⟨_, _, rfl, restored.mp same⟩
        · rintro ⟨table', index', here, fits⟩
          obtain ⟨rfl, rfl⟩ := Prod.mk.inj (Option.some.inj here)
          refine ⟨_, _, rfl, ?_⟩
          simp only [mapped, Radix.setEntry_eq_iff]
          exact restored.mpr fits

/-! ## Two tasks -/

/-- The kernel's tables, with the page that the allocator hands out after the task's tables were made. -/
def kernelMapped : PagingState Nat := mapCalls bumpAlloc bumpDesc [⟨0xb000, 0xb000, 3⟩] bumpCreated

/-- The tables of a new task. -/
def taskCreated : PagingState Nat := (pagingDescNew bumpAlloc kernelMapped pagingMapLevel4).2

def taskDesc : PagingDesc := ⟨0x7000, 4⟩

/-- The task's tables map that page with the given flags. -/
def taskMapped (flags : Nat) : CopyState Nat :=
  ⟨mapCalls bumpAlloc taskDesc [⟨0xb000, 0xb000, flags⟩] taskCreated, fun _ => 0⟩

theorem taskMapped_tree (flags : Nat) :
    PagingTree (fun block => block < (taskMapped flags).paging.alloc * pagingPageSize)
      (taskMapped flags).paging.mem taskDesc.pml := by
  have new : pagingDescNew bumpAlloc kernelMapped pagingMapLevel4 = (some taskDesc, taskCreated) := rfl
  obtain ⟨inv, simulates, -⟩ := pagingDescNew_spec bumpAlloc_contract trivial new (by decide)
  have ok : TablesOk bumpAlloc taskDesc.pml 0xb000 taskCreated :=
    ⟨by decide +kernel, by decide +kernel, by decide +kernel⟩
  exact (mapCalls_spec bumpAlloc_contract [⟨0xb000, 0xb000, flags⟩] ⟨ok, trivial⟩ inv simulates).1.tree

theorem taskMapped_fields (flags : Nat) : AddressFields (taskMapped flags).paging.mem := by
  have empty : AddressFields fun _ _ => nullDesc := fun _ _ => Nat.two_pow_pos 40
  exact (((empty.pagingDescNew pagingMapLevel4).mapCalls bumpDesc _).pagingDescNew pagingMapLevel4).mapCalls taskDesc _

/-- A page that is present and read-only is present and read-only again. -/
theorem readOnlyPage_restored :
    Restores bumpAlloc (fun alloc _ => alloc) 64 bumpDesc taskDesc (fun _ => 0) 0xc000 16 (taskMapped 1) :=
  (copyStringFromTask_restores_iff bumpAlloc (fun alloc _ => alloc) 64 bumpDesc taskDesc (fun _ => 0) 0xc000 16
    (taskMapped 1) (taskMapped_tree 1) (taskMapped_fields 1)).mpr
    (.inr (.inr ⟨0xa000, 11, by decide +kernel, by decide +kernel, by decide +kernel, by decide +kernel⟩))

/-- A page that is present and writable, as all of the kernel's heap is, becomes read-only. -/
theorem writablePage_lost :
    ((taskMapped 3).paging.mem 0xa000 11).readWrite = true ∧
      ¬ Restores bumpAlloc (fun alloc _ => alloc) 64 bumpDesc taskDesc (fun _ => 0) 0xc000 16 (taskMapped 3) := by
  have before : ((taskMapped 3).paging.mem 0xa000 11).readWrite = true := by decide +kernel
  have after : (copyStringFromTask bumpAlloc (fun alloc _ => alloc) 64 bumpDesc taskDesc (fun _ => 0) 0xc000 16
      (taskMapped 3)).map (fun result => (result.2.paging.mem 0xa000 11).readWrite) = some false := by decide +kernel
  refine ⟨before, ?_⟩
  rintro ⟨res, state', result, same⟩
  rw [result, Option.map_some, same, before] at after
  exact absurd after (by decide)

end ViOS.Process
