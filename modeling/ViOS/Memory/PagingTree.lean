import ViOS.Memory.Paging

/-! # The page tables form a tree

The tables that `paging_map` makes hang under entries that were null, in blocks
nobody else has, so they form a radix tree of depth three whose leaves are the
entries of the page tables.  Its inner entries grant everything, so a walk is
decided by the leaf alone.

* `PagingTree` — the tree below a descriptor.
* `nextTable_spec`, `pagingMap_spec` — what one level and one call do to it.
* `hardwareWalk_eq` — the processor's walk in terms of the tree.
-/

namespace ViOS.Memory

open ViOS.Lib

/-! ## The tree -/

/-- The table behind an entry that is not null. -/
def childTable (entry : PagingDescEntry) : Option Nat :=
  if pagingNullEntry entry then none else some entry.target

/-- An inner entry is null or restricts nothing. -/
def Permissive (entry : PagingDescEntry) : Prop :=
  entry = nullDesc ∨
    (entry.present = true ∧ entry.readWrite = true ∧ entry.userSupervisor = true ∧ entry.reserved0 = false)

/-- The tables below `pml` form a tree in blocks that are taken. -/
abbrev PagingTree (taken : Nat → Prop) (mem : Nat → Nat → PagingDescEntry) (pml : Nat) : Prop :=
  Radix.Tree childTable taken Permissive mem pml 3

/-- The three indices that lead to the page table of an address. -/
def wordOf (virt : Nat) : List Nat := [pml4Index virt, pdptIndex virt, pdIndex virt]

/-- The leaf of an address, null when it has no page table. -/
def leafOf (mem : Nat → Nat → PagingDescEntry) (pml virt : Nat) : PagingDescEntry :=
  Radix.leafAt childTable nullDesc mem pml (wordOf virt) (ptIndex virt)

theorem childTable_null : childTable nullDesc = none := by
  rw [childTable, if_pos (by decide)]

theorem childTable_of_ne {entry : PagingDescEntry} (notNull : entry ≠ nullDesc) :
    childTable entry = some entry.target := by
  rw [childTable, if_neg (by simpa [pagingNullEntry] using notNull)]

theorem target_addressField {new : Nat} (aligned : new % pagingPageSize = 0) (small : new < 2 ^ 52) :
    addressField new <<< 12 = new := by
  unfold addressField pagingPageSize at *
  rw [Nat.shiftLeft_eq, Nat.shiftRight_eq_div_pow]
  omega

/-! ## One level -/

section Contract

variable {α : Type*} {kzalloc : α → Nat → Nat × α} {valid : α → Prop} {taken : α → Nat → Prop}

/-- The table this level needs is there, or `kzalloc` provides it. -/
def NextTableOk (kzalloc : α → Nat → Nat × α) (state : PagingState α) (table index : Nat) : Prop :=
  state.mem table index = nullDesc → (kzalloc state.alloc (8 * pagingTotalEntriesPerTable)).1 ≠ 0

/-- The tables below `pml`, in a valid state of the allocator. -/
structure PagingInv (valid : α → Prop) (taken : α → Nat → Prop) (pml : Nat) (state : PagingState α) :
    Prop where
  tree : PagingTree (taken state.alloc) state.mem pml
  allocValid : valid state.alloc

/-- What one level does: the word is extended by a table, and no leaf changes. -/
structure Extends (pml : Nat) (state : PagingState α) (word : List Nat) (table : Nat)
    (next : PagingState α) : Prop where
  tables : ∀ path, path.length ≤ 3 →
    Radix.walk childTable next.mem pml path = if path = word then some table else Radix.walk childTable state.mem pml path
  leaves : ∀ path index, path.length = 3 →
    Radix.leafAt childTable nullDesc next.mem pml path index =
      Radix.leafAt childTable nullDesc state.mem pml path index

theorem nextTable_spec (contract : BlockContract kzalloc valid taken) {pml table index : Nat}
    {state : PagingState α} {word : List Nat} (inv : PagingInv valid taken pml state)
    (reached : Radix.walk childTable state.mem pml word = some table) (inner : word.length < 3)
    (ok : NextTableOk kzalloc state table index) :
    PagingInv valid taken pml (nextTable kzalloc state table index).2 ∧
      Extends pml state (word ++ [index]) (nextTable kzalloc state table index).1
        (nextTable kzalloc state table index).2 ∧
      ∀ block, taken state.alloc block → taken (nextTable kzalloc state table index).2.alloc block := by
  by_cases null : state.mem table index = nullDesc
  · -- an empty entry gets a new table, linked into the tree
    have provided := ok null
    have fresh := contract.fresh state.alloc (8 * pagingTotalEntriesPerTable) inv.allocValid provided
    have tableTaken := inv.tree.owned word table inner.le reached
    have different : table ≠ (kzalloc state.alloc (8 * pagingTotalEntriesPerTable)).1 :=
      fun same => fresh.fresh (same ▸ tableTaken)
    set new := (kzalloc state.alloc (8 * pagingTotalEntriesPerTable)).1 with newEq
    set entry : PagingDescEntry := { nullDesc with
      address := addressField new, present := true, readWrite := true, userSupervisor := true } with entryEq
    have result : nextTable kzalloc state table index = (new,
        { mem := Radix.link state.mem nullDesc table index entry new
          alloc := (kzalloc state.alloc (8 * pagingTotalEntriesPerTable)).2 }) := by
      unfold nextTable newTable
      rw [if_pos (by simp [pagingNullEntry, null])]
      simp only [← newEq, if_neg provided]
      have kept : Radix.clearTable state.mem new nullDesc table index = nullDesc := by
        rw [Radix.clearTable_of_ne _ _ different, null]
      rw [kept]
      refine Prod.ext ?_ rfl
      exact target_addressField fresh.aligned fresh.small
    have notNull : entry ≠ nullDesc := fun same =>
      Bool.false_ne_true (congrArg PagingDescEntry.present same).symm
    have points : childTable entry = some new := by
      rw [childTable_of_ne notNull]
      exact congrArg some (target_addressField fresh.aligned fresh.small)
    have can : Radix.Linkable childTable (taken state.alloc) state.mem pml table new 3 word index
        nullDesc entry :=
      { reached, inner, empty := by rw [null, childTable_null], fresh := fresh.fresh, points
        nullEmpty := childTable_null }
    rw [result]
    refine ⟨⟨?_, contract.stays _ _ inv.allocValid⟩, ⟨?_, ?_⟩, fresh.keeps⟩
    · exact inv.tree.link can fresh.keeps fresh.takes (.inr ⟨rfl, rfl, rfl, rfl⟩) (.inl rfl)
    · exact fun path short => Radix.walk_link inv.tree can short
    · exact fun path position full => Radix.leafAt_link inv.tree can full position
  · -- an entry that is set already points to the next table
    have result : nextTable kzalloc state table index = ((state.mem table index).target, state) := by
      rw [nextTable, if_neg (by simpa [pagingNullEntry] using null)]
    rw [result]
    refine ⟨inv, ⟨fun path short => ?_, fun _ _ _ => rfl⟩, fun _ => id⟩
    by_cases here : path = word ++ [index]
    · subst here
      rw [if_pos rfl, Radix.walk_concat]
      change (Radix.walk childTable state.mem pml word).bind (fun other => childTable (state.mem other index)) = _
      rw [reached, Option.bind_some, childTable_of_ne null]
    · rw [if_neg here]

/-! ## One page -/

/-- Every table `paging_map` needs for the address is there or is provided. -/
def TablesOk (kzalloc : α → Nat → Nat × α) (pml virt : Nat) (state : PagingState α) : Prop :=
  let pdpt := nextTable kzalloc state pml (pml4Index virt)
  let pd := nextTable kzalloc pdpt.2 pdpt.1 (pdptIndex virt)
  NextTableOk kzalloc state pml (pml4Index virt) ∧
    NextTableOk kzalloc pdpt.2 pdpt.1 (pdptIndex virt) ∧ NextTableOk kzalloc pd.2 pd.1 (pdIndex virt)

/-- What `paging_map` does to the tree: the tables on the way to the page exist, its leaf is
written, and no other leaf changes. -/
structure Maps (pml virt phys flags : Nat) (state next : PagingState α) : Prop where
  tables : ∀ path, path.length ≤ 3 → (Radix.walk childTable next.mem pml path ≠ none ↔
    Radix.walk childTable state.mem pml path ≠ none ∨ path <+: wordOf virt)
  leaves : ∀ path index, path.length = 3 →
    Radix.leafAt childTable nullDesc next.mem pml path index =
      if path = wordOf virt ∧ index = ptIndex virt then leafEntry (leafOf state.mem pml virt) phys flags
      else Radix.leafAt childTable nullDesc state.mem pml path index

theorem prefix_wordOf {virt : Nat} {path : List Nat} :
    path <+: wordOf virt ↔ path = [] ∨ path = [pml4Index virt] ∨
      path = [pml4Index virt, pdptIndex virt] ∨ path = wordOf virt := by
  unfold wordOf
  simp only [List.prefix_cons_iff, List.prefix_nil]
  constructor
  · rintro (rfl | ⟨_, rfl, rfl | ⟨_, rfl, rfl | ⟨_, rfl, rfl⟩⟩⟩)
    · exact .inl rfl
    · exact .inr (.inl rfl)
    · exact .inr (.inr (.inl rfl))
    · exact .inr (.inr (.inr rfl))
  · rintro (rfl | rfl | rfl | rfl)
    · exact .inl rfl
    · exact .inr ⟨_, rfl, .inl rfl⟩
    · exact .inr ⟨_, rfl, .inr ⟨_, rfl, .inl rfl⟩⟩
    · exact .inr ⟨_, rfl, .inr ⟨_, rfl, .inr ⟨_, rfl, rfl⟩⟩⟩

theorem pageTableOf_spec (contract : BlockContract kzalloc valid taken) {pml virt : Nat}
    {state : PagingState α} (inv : PagingInv valid taken pml state)
    (ok : TablesOk kzalloc pml virt state) :
    PagingInv valid taken pml (pageTableOf kzalloc state pml virt).2 ∧
      Radix.walk childTable (pageTableOf kzalloc state pml virt).2.mem pml (wordOf virt) =
        some (pageTableOf kzalloc state pml virt).1 ∧
      (∀ path, path.length ≤ 3 →
        (Radix.walk childTable (pageTableOf kzalloc state pml virt).2.mem pml path ≠ none ↔
          Radix.walk childTable state.mem pml path ≠ none ∨ path <+: wordOf virt)) ∧
      (∀ path index, path.length = 3 →
        Radix.leafAt childTable nullDesc (pageTableOf kzalloc state pml virt).2.mem pml path index =
          Radix.leafAt childTable nullDesc state.mem pml path index) ∧
      ∀ block, taken state.alloc block → taken (pageTableOf kzalloc state pml virt).2.alloc block := by
  obtain ⟨ok4, ok3, ok2⟩ := ok
  unfold pageTableOf
  simp only
  set first := nextTable kzalloc state pml (pml4Index virt)
  set second := nextTable kzalloc first.2 first.1 (pdptIndex virt)
  set third := nextTable kzalloc second.2 second.1 (pdIndex virt)
  -- three levels down: each table found is where the next step starts
  have reached4 : Radix.walk childTable state.mem pml [] = some pml := rfl
  obtain ⟨inv4, extends4, keeps4⟩ := nextTable_spec contract inv reached4 (by decide) ok4
  have reached3 : Radix.walk childTable first.2.mem pml [pml4Index virt] = some first.1 := by
    rw [extends4.tables _ (by simp)]
    exact if_pos rfl
  obtain ⟨inv3, extends3, keeps3⟩ := nextTable_spec contract inv4 reached3 (by simp) ok3
  have reached2 : Radix.walk childTable second.2.mem pml [pml4Index virt, pdptIndex virt] = some second.1 := by
    rw [extends3.tables _ (by simp)]
    exact if_pos rfl
  obtain ⟨inv2, extends2, keeps2⟩ := nextTable_spec contract inv3 reached2 (by simp) ok2
  refine ⟨inv2, ?_, fun path short => ?_, fun path index full => ?_, fun block isTaken => ?_⟩
  · rw [extends2.tables _ (by simp [wordOf])]
    exact if_pos rfl
  · rw [extends2.tables path short, extends3.tables path short, extends4.tables path short,
      prefix_wordOf]
    constructor
    · intro found
      -- no table appears on a path that is neither old nor a prefix of the word
      by_contra missing
      simp only [not_or, not_not] at missing
      obtain ⟨nowhere, -, not4, not3, not2⟩ := missing
      have not2' : path ≠ [pml4Index virt, pdptIndex virt] ++ [pdIndex virt] := not2
      have not3' : path ≠ [pml4Index virt] ++ [pdptIndex virt] := not3
      have not4' : path ≠ [] ++ [pml4Index virt] := not4
      rw [if_neg not2', if_neg not3', if_neg not4'] at found
      exact found nowhere
    · intro expected
      split_ifs with here2 here3 here4
      · exact Option.some_ne_none _
      · exact Option.some_ne_none _
      · exact Option.some_ne_none _
      · rcases expected with old | root | here | here | here
        · exact old
        · rw [root, reached4]
          exact Option.some_ne_none _
        · exact absurd here here4
        · exact absurd here here3
        · exact absurd here here2
  · rw [extends2.leaves path index full, extends3.leaves path index full, extends4.leaves path index full]
  · exact keeps2 _ (keeps3 _ (keeps4 _ isTaken))

theorem pagingMap_spec (contract : BlockContract kzalloc valid taken) {desc : PagingDesc}
    {virt phys flags : Nat} {state : PagingState α} (inv : PagingInv valid taken desc.pml state)
    (ok : TablesOk kzalloc desc.pml virt state) :
    PagingInv valid taken desc.pml (pagingMap kzalloc desc virt phys flags state).2 ∧
      Maps desc.pml virt phys flags state (pagingMap kzalloc desc virt phys flags state).2 ∧
      ∀ block, taken state.alloc block →
        taken (pagingMap kzalloc desc virt phys flags state).2.alloc block := by
  obtain ⟨invAfter, reached, tables, leaves, keeps⟩ := pageTableOf_spec contract inv ok
  unfold pagingMap
  simp only
  set after := pageTableOf kzalloc state desc.pml virt
  have full : (wordOf virt).length = 3 := rfl
  have oldLeaf : after.2.mem after.1 (ptIndex virt) = leafOf state.mem desc.pml virt := by
    rw [leafOf, ← leaves _ _ full, Radix.leafAt, reached]
  refine ⟨⟨invAfter.tree.write reached full, invAfter.allocValid⟩, ⟨fun path short => ?_, ?_⟩, keeps⟩
  · rw [← tables path short, Radix.walk_write invAfter.tree reached full short]
  · intro path index pathFull
    rw [Radix.leafAt_write invAfter.tree reached full pathFull, leaves path index pathFull, oldLeaf]

end Contract

/-! ## The processor's walk -/

theorem follow_eq {entry : PagingDescEntry} (permissive : Permissive entry) :
    follow entry = childTable entry := by
  rcases permissive with null | ⟨present, -, -, notLarge⟩
  · subst null
    rfl
  · have notNull : entry ≠ nullDesc := by
      rintro rfl
      exact absurd present (by decide)
    rw [childTable_of_ne notNull, follow, if_pos (by simp [present, notLarge])]

theorem grants_of_child {entry : PagingDescEntry} {table : Nat} (permissive : Permissive entry)
    (child : childTable entry = some table) :
    entry.readWrite = true ∧ entry.userSupervisor = true := by
  rcases permissive with null | ⟨-, write, user, -⟩
  · rw [null, childTable_null] at child
    exact absurd child (by simp)
  · exact ⟨write, user⟩

/-- What the processor finds at a leaf below entries that restrict nothing. -/
def leafMapping (entry : PagingDescEntry) : Mapping :=
  ⟨entry.address, entry.present, entry.readWrite, entry.userSupervisor⟩

/-- The processor reaches the leaf of the tree, and its flags decide. -/
theorem hardwareWalk_eq {taken : Nat → Prop} {mem : Nat → Nat → PagingDescEntry} {pml : Nat}
    (tree : PagingTree taken mem pml) (virt : Nat) :
    hardwareWalk mem pml virt = (Radix.walk childTable mem pml (wordOf virt)).map fun table =>
      ((table, ptIndex virt), leafMapping (mem table (ptIndex virt))) := by
  have root : Radix.walk childTable mem pml [] = some pml := rfl
  have good4 := tree.good [] pml (by decide) root (pml4Index virt)
  unfold hardwareWalk wordOf
  simp only [follow_eq good4, Radix.walk]
  cases level3 : childTable (mem pml (pml4Index virt)) with
  | none => rfl
  | some pdpt =>
    have good3 := tree.good [pml4Index virt] pdpt (by simp) (by simp [Radix.walk, level3]) (pdptIndex virt)
    obtain ⟨write4, user4⟩ := grants_of_child good4 level3
    simp only [Option.bind_eq_bind, Option.bind_some, follow_eq good3]
    cases level2 : childTable (mem pdpt (pdptIndex virt)) with
    | none => rfl
    | some pd =>
      have good2 := tree.good [pml4Index virt, pdptIndex virt] pd (by simp)
        (by simp [Radix.walk, level3, level2]) (pdIndex virt)
      obtain ⟨write3, user3⟩ := grants_of_child good3 level2
      simp only [Option.bind_some, follow_eq good2]
      cases level1 : childTable (mem pd (pdIndex virt)) with
      | none => rfl
      | some pt =>
        obtain ⟨write2, user2⟩ := grants_of_child good2 level1
        simp only [Option.bind_some, Option.map_some, write4, write3, write2, user4, user3, user2,
          Bool.and_self, Bool.true_and]
        rfl

end ViOS.Memory
