import ViOS.Memory.PagingRefinement

/-! # Mapping pages whose tables exist

A process's descriptor maps all memory when it is made, so that later calls for
addresses of the kernel heap find every table in place: they allocate nothing and
only rewrite leaves.

* `pagingMap_mapped` — one page.
* `Remaps`, `pagingMapTo_mapped` — a range: its pages get the frames and the flags of
  the call, and every other page keeps its own.
* `HasTable`, `hardwareWalk_of_hasTable` — where the processor's walk ends.
* `UserAccessible` — the processor lets user code reach the address.
-/

namespace ViOS.Memory

open ViOS.Lib

variable {α : Type*} {kzalloc : α → Nat → Nat × α}

theorem nextTable_of_child {state : PagingState α} {table index next : Nat}
    (child : childTable (state.mem table index) = some next) :
    nextTable kzalloc state table index = (next, state) := by
  unfold childTable at child
  split at child
  · exact absurd child (by simp)
  · rename_i notNull
    rw [nextTable, if_neg notNull, Option.some.inj child]

theorem pageTableOf_mapped {state : PagingState α} {pml virt pt : Nat}
    (reached : Radix.walk childTable state.mem pml (wordOf virt) = some pt) :
    pageTableOf kzalloc state pml virt = (pt, state) := by
  unfold wordOf at reached
  simp only [Radix.walk] at reached
  cases child4 : childTable (state.mem pml (pml4Index virt)) with
  | none =>
    rw [child4] at reached
    exact absurd reached (by simp)
  | some pdpt =>
    rw [child4] at reached
    simp only at reached
    cases child3 : childTable (state.mem pdpt (pdptIndex virt)) with
    | none =>
      rw [child3] at reached
      exact absurd reached (by simp)
    | some pd =>
      rw [child3] at reached
      simp only at reached
      cases child2 : childTable (state.mem pd (pdIndex virt)) with
      | none =>
        rw [child2] at reached
        exact absurd reached (by simp)
      | some table =>
        rw [child2] at reached
        obtain rfl := Option.some.inj reached
        unfold pageTableOf
        simp only [nextTable_of_child child4, nextTable_of_child child3, nextTable_of_child child2]

/-- The pages of a range were given new frames and flags, and nothing else changed. -/
structure Remaps (taken : Nat → Prop) (pml : Nat) (covered : Nat → Option Mapping)
    (state next : PagingState α) : Prop where
  alloc : next.alloc = state.alloc
  tree : PagingTree taken next.mem pml
  tables : ∀ path, path.length ≤ 3 →
    Radix.walk childTable next.mem pml path = Radix.walk childTable state.mem pml path
  leaves : ∀ virt, leafMapping (leafOf next.mem pml virt) =
    (covered (pageNumber virt)).getD (leafMapping (leafOf state.mem pml virt))

theorem Remaps.refl {taken : Nat → Prop} {pml : Nat} {state : PagingState α}
    (tree : PagingTree taken state.mem pml) : Remaps taken pml (fun _ => none) state state :=
  ⟨rfl, tree, fun _ _ => rfl, fun _ => rfl⟩

theorem Remaps.trans {taken : Nat → Prop} {pml : Nat} {a b c : PagingState α}
    {first second : Nat → Option Mapping} (ab : Remaps taken pml first a b)
    (bc : Remaps taken pml second b c) : Remaps taken pml (overlay second first) a c where
  alloc := bc.alloc.trans ab.alloc
  tree := bc.tree
  tables := fun path short => (bc.tables path short).trans (ab.tables path short)
  leaves := by
    intro virt
    rw [bc.leaves, ab.leaves, overlay]
    cases second (pageNumber virt) <;> rfl

theorem Remaps.congr {taken : Nat → Prop} {pml : Nat} {a b : PagingState α}
    {covered covered' : Nat → Option Mapping} (remaps : Remaps taken pml covered a b)
    (same : ∀ page < 2 ^ 36, covered' page = covered page) : Remaps taken pml covered' a b where
  alloc := remaps.alloc
  tree := remaps.tree
  tables := remaps.tables
  leaves := by
    intro virt
    rw [remaps.leaves, same _ (pageNumber_lt virt)]

theorem pagingMap_mapped {taken : Nat → Prop} {desc : PagingDesc} {virt phys flags : Nat}
    {state : PagingState α} (tree : PagingTree taken state.mem desc.pml)
    (mapped : Radix.walk childTable state.mem desc.pml (wordOf virt) ≠ none) :
    Remaps taken desc.pml
      (fun page => if page = pageNumber virt then some (mappingOf (addressField phys) flags) else none)
      state (pagingMap kzalloc desc virt phys flags state).2 := by
  obtain ⟨pt, reached⟩ := Option.ne_none_iff_exists'.mp mapped
  have full : ∀ va, (wordOf va).length = 3 := fun _ => rfl
  unfold pagingMap
  rw [pageTableOf_mapped reached]
  refine ⟨rfl, tree.write reached (full virt), fun path short =>
    Radix.walk_write tree reached (full virt) short, fun va => ?_⟩
  simp only [leafOf]
  rw [Radix.leafAt_write tree reached (full virt) (full va)]
  by_cases same : pageNumber va = pageNumber virt
  · rw [if_pos (sameWord_iff.mpr same), if_pos same]
    rfl
  · rw [if_neg (fun sameWord => same (sameWord_iff.mp sameWord)), if_neg same]
    rfl

theorem mapRangeLoop_mapped {taken : Nat → Prop} {desc : PagingDesc} {flags : Nat} (count : Nat) :
    ∀ {virt phys : Nat} {state : PagingState α},
      virt + count * pagingPageSize ≤ 2 ^ 48 → phys + count * pagingPageSize ≤ 2 ^ 48 →
      PagingTree taken state.mem desc.pml →
      (∀ i < count, Radix.walk childTable state.mem desc.pml (wordOf (virt + i * pagingPageSize)) ≠ none) →
      (mapRangeLoop kzalloc desc flags count virt phys 0 state).1 = 0 ∧
        Remaps taken desc.pml (rangeCovers virt phys count flags) state
          (mapRangeLoop kzalloc desc flags count virt phys 0 state).2 := by
  induction count with
  | zero =>
    intro virt phys state _ _ tree _
    refine ⟨rfl, (Remaps.refl tree).congr fun page _ => ?_⟩
    rw [rangeCovers, if_neg (by omega)]
  | succ count ih =>
    intro virt phys state virtFits physFits tree mapped
    have first := mapped 0 (by omega)
    rw [Nat.zero_mul, Nat.add_zero] at first
    have remapsFirst : Remaps taken desc.pml _ state (pagingMap kzalloc desc virt phys flags state).2 :=
      pagingMap_mapped tree first
    have small : phys < 2 ^ 52 := by unfold pagingPageSize at physFits; omega
    rw [addressField_eq small] at remapsFirst
    -- neither address wraps within the range
    have virtNext : (virt + pagingPageSize) % addressSpace = virt + pagingPageSize := by
      unfold pagingPageSize addressSpace at *
      omega
    have physNext : (phys + pagingPageSize) % addressSpace = phys + pagingPageSize := by
      unfold pagingPageSize addressSpace at *
      omega
    have rest := @ih (virt + pagingPageSize) (phys + pagingPageSize)
      (pagingMap kzalloc desc virt phys flags state).2
      (by unfold pagingPageSize at *; omega) (by unfold pagingPageSize at *; omega) remapsFirst.tree
      (fun i small => by
        have here := mapped (i + 1) (by omega)
        rw [remapsFirst.tables _ (by simp [wordOf])]
        rwa [Nat.succ_mul, Nat.add_comm _ pagingPageSize, ← Nat.add_assoc] at here)
    have result : mapRangeLoop kzalloc desc flags (count + 1) virt phys 0 state =
        mapRangeLoop kzalloc desc flags count (virt + pagingPageSize) (phys + pagingPageSize) 0
          (pagingMap kzalloc desc virt phys flags state).2 := by
      rw [mapRangeLoop, virtNext, physNext]
      rfl
    rw [result]
    refine ⟨rest.1, (remapsFirst.trans rest.2).congr fun page isPage => ?_⟩
    rw [rangeCovers_succ (by unfold pagingPageSize at virtFits; omega)
      (.inl (by unfold pagingPageSize addressSpace at *; omega)) isPage, virtNext, physNext]
    rfl

/-- `paging_map_to` of an address range onto itself. -/
theorem pagingMapTo_mapped {taken : Nat → Prop} {desc : PagingDesc} {first pages flags : Nat}
    {state : PagingState α} (aligned : first % pagingPageSize = 0)
    (fits : first + pages * pagingPageSize ≤ 2 ^ 48) (tree : PagingTree taken state.mem desc.pml)
    (mapped : ∀ i < pages,
      Radix.walk childTable state.mem desc.pml (wordOf (first + i * pagingPageSize)) ≠ none) :
    (pagingMapTo kzalloc desc first first (first + pages * pagingPageSize) flags state).1 = 0 ∧
      Remaps taken desc.pml (rangeCovers first first pages flags) state
        (pagingMapTo kzalloc desc first first (first + pages * pagingPageSize) flags state).2 := by
  have endAligned : (first + pages * pagingPageSize) % pagingPageSize = 0 := by
    unfold pagingPageSize at *
    omega
  have count : (first + pages * pagingPageSize - first) / pagingPageSize = pages := by
    unfold pagingPageSize
    omega
  unfold pagingMapTo pagingMapRange
  rw [if_neg (not_not.mpr aligned), if_neg (not_not.mpr aligned), if_neg (not_not.mpr endAligned),
    if_neg (by omega), count]
  exact mapRangeLoop_mapped pages fits fits tree mapped

/-- The address has a page table. -/
def HasTable (mem : Nat → Nat → PagingDescEntry) (pml virt : Nat) : Prop :=
  Radix.walk childTable mem pml (wordOf virt) ≠ none

/-- A page with a table is mapped as its leaf says. -/
theorem hardwareWalk_of_hasTable {taken : Nat → Prop} {mem : Nat → Nat → PagingDescEntry} {pml virt : Nat}
    (tree : PagingTree taken mem pml) (there : HasTable mem pml virt) :
    (hardwareWalk mem pml virt).map Prod.snd = some (leafMapping (leafOf mem pml virt)) := by
  obtain ⟨pt, reached⟩ := Option.ne_none_iff_exists'.mp there
  have leaf : leafOf mem pml virt = mem pt (ptIndex virt) := by
    rw [leafOf, Radix.leafAt, reached]
  rw [hardwareWalk_eq tree, reached, leaf]
  rfl

/-- User code can reach the address. -/
def UserAccessible (mem : Nat → Nat → PagingDescEntry) (pml virt : Nat) : Prop :=
  ∃ location mapping, hardwareWalk mem pml virt = some (location, mapping) ∧
    mapping.present = true ∧ mapping.user = true

theorem userAccessible_iff {taken : Nat → Prop} {mem : Nat → Nat → PagingDescEntry} {pml virt : Nat}
    (tree : PagingTree taken mem pml)
    (mapped : Radix.walk childTable mem pml (wordOf virt) ≠ none) :
    UserAccessible mem pml virt ↔ (leafMapping (leafOf mem pml virt)).present = true ∧
      (leafMapping (leafOf mem pml virt)).user = true := by
  obtain ⟨⟨location, mapping⟩, found, leaf⟩ := Option.map_eq_some_iff.mp (hardwareWalk_of_hasTable tree mapped)
  rw [← leaf]
  simp [UserAccessible, found]

end ViOS.Memory
