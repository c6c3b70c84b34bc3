import ViOS.Memory.PagingRefinement

/-! # The kernel's walk against the processor's

`paging_get` walks the tables as the processor does, but after the first two levels it
also looks at the first entry of the table it has reached, and gives up when that entry
is null.  So whether the kernel can translate an address depends on which other pages
are mapped, and the agreement holds for an address just when the first entry of both
tables on its way is in use.

* `GetAgrees` — the agreement, and `Neighbours`, the condition on the calls.
* `pagingGet_eq` — what `paging_get` finds in the table it reaches.
* `getAgrees_iff_neighbours` — the exact condition, for every sequence of calls.
-/

namespace ViOS.Memory

open ViOS.Lib

/-! ## Sequences of `paging_map` -/

/-- The arguments of a call of `paging_map`. -/
structure MapCall where
  virt : Nat
  phys : Nat
  flags : Nat
  deriving DecidableEq, Repr

/-- What the last call for a page asked for. -/
def lastMapping (calls : List MapCall) (page : Nat) : Option Mapping :=
  (calls.reverse.find? fun call => pageNumber call.virt = page).map fun call =>
    mappingOf (addressField call.phys) call.flags

section Runs

variable {α : Type*} (kzalloc : α → Nat → Nat × α) (desc : PagingDesc)

def mapCalls : List MapCall → PagingState α → PagingState α
  | [], state => state
  | call :: rest, state =>
    mapCalls rest (pagingMap kzalloc desc call.virt call.phys call.flags state).2

/-- No table allocation of the calls fails. -/
def MapCallsOk : List MapCall → PagingState α → Prop
  | [], _ => True
  | call :: rest, state => TablesOk kzalloc desc.pml call.virt state ∧
    MapCallsOk rest (pagingMap kzalloc desc call.virt call.phys call.flags state).2

end Runs

/-- Some entry on the way to the page table of the address is null. -/
def PathEmpty (mem : Nat → Nat → PagingDescEntry) (pml virt : Nat) : Prop :=
  let pml4Entry := mem pml (pml4Index virt)
  let pdptEntry := mem pml4Entry.target (pdptIndex virt)
  let pdEntry := mem pdptEntry.target (pdIndex virt)
  pml4Entry = nullDesc ∨ pdptEntry = nullDesc ∨ pdEntry = nullDesc

/-- For a mapped address the kernel's walk returns the entry the processor reaches, and the
physical address is the mapped frame with the offset; it gives up only on an empty path. -/
def GetAgrees (mem : Nat → Nat → PagingDescEntry) (desc : PagingDesc) (pages : Nat → Option Mapping)
    (virt : Nat) : Prop :=
  (∀ mapping, pages (pageNumber virt) = some mapping →
    ∃ location, hardwareWalk mem desc.pml virt = some (location, mapping) ∧
      pagingGet mem desc virt = some location ∧
      pagingGetPhysicalAddress mem desc virt =
        mapping.frame * pagingPageSize + virt % pagingPageSize) ∧
  (pagingGet mem desc virt = none → PathEmpty mem desc.pml virt)

/-- Some call mapped a page with the given three upper indices. -/
def MappedUnder (calls : List MapCall) (word : List Nat) : Prop := ∃ call ∈ calls, word <+: wordOf call.virt

/-- If a page under the same page table as the address was mapped, then so was one below the
first entry of its page-directory-pointer table and one below the first entry of its page directory. -/
def Neighbours (calls : List MapCall) (virt : Nat) : Prop :=
  MappedUnder calls (wordOf virt) →
    MappedUnder calls [pml4Index virt, 0] ∧ MappedUnder calls [pml4Index virt, pdptIndex virt, 0]

/-! ## `paging_get` on a tree -/

section Get

variable {mem : Nat → Nat → PagingDescEntry} {desc : PagingDesc} {virt : Nat}

theorem childTable_eq_none_iff {entry : PagingDescEntry} : childTable entry = none ↔ entry = nullDesc := by
  constructor
  · intro none
    by_contra notNull
    rw [childTable_of_ne notNull] at none
    exact absurd none (by simp)
  · rintro rfl
    exact childTable_null

theorem pathEmpty_iff :
    PathEmpty mem desc.pml virt ↔ Radix.walk childTable mem desc.pml (wordOf virt) = none := by
  unfold PathEmpty wordOf
  simp only [Radix.walk]
  by_cases null4 : mem desc.pml (pml4Index virt) = nullDesc
  · simp [null4, childTable_null]
  · rw [childTable_of_ne null4]
    simp only [null4, false_or]
    by_cases null3 : mem (mem desc.pml (pml4Index virt)).target (pdptIndex virt) = nullDesc
    · simp [null3, childTable_null]
    · rw [childTable_of_ne null3]
      simp only [null3, false_or]
      rw [← childTable_eq_none_iff]
      cases childTable (mem (mem (mem desc.pml (pml4Index virt)).target (pdptIndex virt)).target
        (pdIndex virt)) <;> simp

/-- On a path without a null entry `paging_get` finds the leaf just when the first entries of the
two tables in between are not null. -/
theorem pagingGet_eq {pt : Nat} (reached : Radix.walk childTable mem desc.pml (wordOf virt) = some pt) :
    pagingGet mem desc virt =
      if Radix.walk childTable mem desc.pml [pml4Index virt, 0] ≠ none ∧
          Radix.walk childTable mem desc.pml [pml4Index virt, pdptIndex virt, 0] ≠ none then
        some (pt, ptIndex virt) else none := by
  have notEmpty : ¬ PathEmpty mem desc.pml virt := by
    rw [pathEmpty_iff, reached]
    exact Option.some_ne_none _
  unfold PathEmpty at notEmpty
  simp only [not_or] at notEmpty
  obtain ⟨notNull4, notNull3, notNull2⟩ := notEmpty
  have isTable : pt =
      (mem (mem (mem desc.pml (pml4Index virt)).target (pdptIndex virt)).target (pdIndex virt)).target := by
    simpa [wordOf, Radix.walk, childTable_of_ne notNull4, childTable_of_ne notNull3,
      childTable_of_ne notNull2] using reached.symm
  -- paging_get tests the first entry of each table below the first, not the one it follows
  have first3 : Radix.walk childTable mem desc.pml [pml4Index virt, 0] = none ↔
      mem (mem desc.pml (pml4Index virt)).target 0 = nullDesc := by
    rw [← childTable_eq_none_iff]
    simp only [Radix.walk, childTable_of_ne notNull4]
    cases childTable (mem (mem desc.pml (pml4Index virt)).target 0) <;> simp
  have first2 : Radix.walk childTable mem desc.pml [pml4Index virt, pdptIndex virt, 0] = none ↔
      mem (mem (mem desc.pml (pml4Index virt)).target (pdptIndex virt)).target 0 = nullDesc := by
    rw [← childTable_eq_none_iff]
    simp only [Radix.walk, childTable_of_ne notNull4, childTable_of_ne notNull3]
    cases childTable (mem (mem (mem desc.pml (pml4Index virt)).target (pdptIndex virt)).target 0) <;> simp
  have noNull : ∀ {entry : PagingDescEntry}, entry ≠ nullDesc → pagingNullEntry entry = false :=
    fun notNull => decide_eq_false notNull
  unfold pagingGet
  simp only [noNull notNull4, noNull notNull3, noNull notNull2, Bool.false_eq_true, if_false]
  by_cases null3 : mem (mem desc.pml (pml4Index virt)).target 0 = nullDesc
  · have isNull : pagingNullEntry (mem (mem desc.pml (pml4Index virt)).target 0) = true :=
      decide_eq_true null3
    rw [if_pos isNull, if_neg fun both => both.1 (first3.mpr null3)]
  · rw [noNull null3]
    by_cases null2 : mem (mem (mem desc.pml (pml4Index virt)).target (pdptIndex virt)).target 0 = nullDesc
    · have isNull : pagingNullEntry
          (mem (mem (mem desc.pml (pml4Index virt)).target (pdptIndex virt)).target 0) = true :=
        decide_eq_true null2
      simp only [isNull, if_true, Bool.false_eq_true, if_false]
      rw [if_neg fun both => both.2 (first2.mpr null2)]
    · simp only [noNull null2, Bool.false_eq_true, if_false]
      rw [if_pos ⟨fun none => null3 (first3.mp none), fun none => null2 (first2.mp none)⟩, isTable]

end Get

/-! ## The tables after the calls -/

section Contract

variable {α : Type*} {kzalloc : α → Nat → Nat × α} {valid : α → Prop} {taken : α → Nat → Prop}
  {desc : PagingDesc}

/-- The tables that exist after the calls are those before them and those on the way to a mapped page. -/
def TablesFrom (before after : Nat → Nat → PagingDescEntry) (pml : Nat) (calls : List MapCall) : Prop :=
  ∀ path, path.length ≤ 3 → (Radix.walk childTable after pml path ≠ none ↔
    Radix.walk childTable before pml path ≠ none ∨ MappedUnder calls path)

theorem lastMapping_cons (call : MapCall) (rest : List MapCall) (page : Nat) :
    lastMapping (call :: rest) page = (lastMapping rest page).or
      (if page = pageNumber call.virt then some (mappingOf (addressField call.phys) call.flags) else none) := by
  unfold lastMapping
  rw [List.reverse_cons, List.find?_append]
  cases rest.reverse.find? fun call => pageNumber call.virt = page with
  | some found => rfl
  | none =>
    by_cases same : page = pageNumber call.virt
    · simp [same]
    · simp [same, Ne.symm same]

theorem mapCalls_spec (contract : BlockContract kzalloc valid taken) (calls : List MapCall) :
    ∀ {state : PagingState α} {pages : Nat → Option Mapping}, MapCallsOk kzalloc desc calls state →
      PagingInv valid taken desc.pml state → Simulates state.mem desc.pml pages →
      PagingInv valid taken desc.pml (mapCalls kzalloc desc calls state) ∧
        Simulates (mapCalls kzalloc desc calls state).mem desc.pml (overlay (lastMapping calls) pages) ∧
        TablesFrom state.mem (mapCalls kzalloc desc calls state).mem desc.pml calls := by
  induction calls with
  | nil =>
    intro state pages _ inv simulates
    refine ⟨inv, simulates.congr fun _ _ => rfl, fun path _ => ?_⟩
    simp [MappedUnder, mapCalls]
  | cons call rest ih =>
    intro state pages ok inv simulates
    obtain ⟨invNext, maps, -⟩ : _ ∧ Maps desc.pml call.virt call.phys call.flags state _ ∧ _ :=
      pagingMap_spec contract inv ok.1
    obtain ⟨invEnd, simulatesEnd, tables⟩ := ih ok.2 invNext (pagingMap_simulates maps simulates)
    refine ⟨invEnd, simulatesEnd.congr fun page _ => ?_, fun path short => ?_⟩
    · rw [overlay, overlay, lastMapping_cons, Option.or_assoc]
      congr 1
      split_ifs <;> rfl
    · rw [mapCalls, tables path short, maps.tables path short]
      simp only [MappedUnder, List.mem_cons, exists_eq_or_imp]
      tauto

/-- Which walks a new descriptor allows: only the empty one. -/
theorem walk_new {mem : Nat → Nat → PagingDescEntry} {pml : Nat}
    (cleared : ∀ index, mem pml index = nullDesc) {path : List Nat} :
    Radix.walk childTable mem pml path ≠ none ↔ path = [] := by
  cases path with
  | nil => simp [Radix.walk]
  | cons index rest => simp [Radix.walk, cleared, childTable_null]

theorem physicalAddress_eq {entry : PagingDescEntry} {mapping : Mapping} {virt : Nat}
    (leaf : leafMapping entry = mapping) (small : mapping.frame < 2 ^ 40) :
    (entry.target + (virt &&& 0xFFF)) % addressSpace =
      mapping.frame * pagingPageSize + virt % pagingPageSize := by
  have offset : virt &&& 0xFFF = virt % 2 ^ 12 := Nat.and_two_pow_sub_one_eq_mod virt 12
  subst leaf
  rw [PagingDescEntry.target, Nat.shiftLeft_eq, offset]
  unfold leafMapping at *
  unfold addressSpace pagingPageSize
  simp only at *
  omega

/-- A page with a last mapping was mapped by some call, with a frame of 40 bits. -/
theorem lastMapping_some {calls : List MapCall} {page : Nat} {mapping : Mapping}
    (found : lastMapping calls page = some mapping) :
    (∃ call ∈ calls, pageNumber call.virt = page) ∧ mapping.frame < 2 ^ 40 := by
  unfold lastMapping at found
  obtain ⟨call, isLast, rfl⟩ := Option.map_eq_some_iff.mp found
  refine ⟨⟨call, List.mem_reverse.mp (List.mem_of_find?_eq_some isLast), ?_⟩, Nat.mod_lt _ (by decide)⟩
  simpa using List.find?_some isLast

/-- After any calls of `paging_map` on a new descriptor, the kernel's walk agrees with the
processor's for an address just when the calls also mapped its neighbours. -/
theorem getAgrees_iff_neighbours (contract : BlockContract kzalloc valid taken)
    {before created : PagingState α} {level : Nat} (beforeValid : valid before.alloc)
    (new : pagingDescNew kzalloc before level = (some desc, created)) (provided : desc.pml ≠ 0)
    {calls : List MapCall} (ok : MapCallsOk kzalloc desc calls created) (virt : Nat) :
    GetAgrees (mapCalls kzalloc desc calls created).mem desc (lastMapping calls) virt ↔
      Neighbours calls virt := by
  obtain ⟨inv, simulates, cleared⟩ := pagingDescNew_spec contract beforeValid new provided
  obtain ⟨invEnd, simulatesEnd, tables⟩ := mapCalls_spec contract calls ok inv simulates
  have tree := invEnd.tree
  generalize (mapCalls kzalloc desc calls created).mem = mem at simulatesEnd tables tree ⊢
  have exists_iff : ∀ path, path.length ≤ 3 → path ≠ [] →
      (Radix.walk childTable mem desc.pml path ≠ none ↔ MappedUnder calls path) := by
    intro path short notRoot
    rw [tables path short, walk_new cleared]
    exact or_iff_right notRoot
  -- the entry is reached when a call mapped the same word, and paging_get looks at two more paths
  by_cases mapped : MappedUnder calls (wordOf virt)
  · obtain ⟨pt, reached⟩ := Option.ne_none_iff_exists'.mp
      ((exists_iff (wordOf virt) (by simp [wordOf]) (by simp [wordOf])).mpr mapped)
    have get := pagingGet_eq reached
    have firsts := and_congr (exists_iff [pml4Index virt, 0] (by simp) (by simp))
      (exists_iff [pml4Index virt, pdptIndex virt, 0] (by simp) (by simp))
    constructor
    · intro agrees _
      by_contra missing
      rw [if_neg (mt firsts.mp missing)] at get
      have empty := pathEmpty_iff.mp (agrees.2 get)
      rw [reached] at empty
      exact absurd empty (by simp)
    · intro neighbours
      rw [if_pos (firsts.mpr (neighbours mapped))] at get
      have leaf : ∀ mapping, lastMapping calls (pageNumber virt) = some mapping →
          leafMapping (mem pt (ptIndex virt)) = mapping := by
        intro mapping expected
        have found := (simulatesEnd.mapped virt mapping (by rw [overlay, expected]; rfl)).2
        rwa [leafOf, Radix.leafAt, reached] at found
      refine ⟨fun mapping expected => ⟨(pt, ptIndex virt), ?_, get, ?_⟩, fun none => ?_⟩
      · rw [hardwareWalk_eq tree, reached, Option.map_some, ← (leaf mapping expected)]
      · rw [pagingGetPhysicalAddress, get]
        exact physicalAddress_eq (leaf mapping expected) (lastMapping_some expected).2
      · rw [get] at none
        exact absurd none (by simp)
  · -- nothing was mapped under the word, and the walk of the hardware ends as well
    have nowhere : Radix.walk childTable mem desc.pml (wordOf virt) = none := by
      by_contra reached
      exact mapped ((exists_iff (wordOf virt) (by simp [wordOf]) (by simp [wordOf])).mp reached)
    refine ⟨fun _ under => absurd under mapped, fun _ => ⟨fun mapping expected => ?_, fun _ => ?_⟩⟩
    · obtain ⟨call, member, samePage⟩ := (lastMapping_some expected).1
      have sameWord := (sameWord_iff.mpr samePage).1
      exact absurd ⟨call, member, sameWord ▸ List.prefix_rfl⟩ mapped
    · exact pathEmpty_iff.mpr nowhere

end Contract

/-! ## Two address spaces -/

theorem getAgrees_with_first_pages :
    GetAgrees (mapCalls bumpAlloc bumpDesc [⟨0, 0, 3⟩, ⟨0x400000, 0x5000, 7⟩] bumpCreated).mem bumpDesc
      (lastMapping [⟨0, 0, 3⟩, ⟨0x400000, 0x5000, 7⟩]) 0x400123 := by
  refine (getAgrees_iff_neighbours bumpAlloc_contract trivial bumpDesc_created (by decide) ?_ _).mpr
    fun _ => ⟨⟨⟨0, 0, 3⟩, by decide, by decide⟩, ⟨⟨0, 0, 3⟩, by decide, by decide⟩⟩
  exact ⟨⟨by decide, by decide, by decide⟩, ⟨by decide, by decide, by decide⟩, trivial⟩

/-- With the program's page alone in its address space, the processor finds it and the kernel
does not. -/
theorem lone_page_not_found :
    ¬ GetAgrees (mapCalls bumpAlloc bumpDesc [⟨0x400000, 0x5000, 7⟩] bumpCreated).mem bumpDesc
      (lastMapping [⟨0x400000, 0x5000, 7⟩]) 0x400123 := by
  rintro ⟨found, -⟩
  obtain ⟨location, -, get, -⟩ := found ⟨5, true, true, true⟩ (by decide)
  have missing : pagingGet (mapCalls bumpAlloc bumpDesc [⟨0x400000, 0x5000, 7⟩] bumpCreated).mem bumpDesc
      0x400123 = none := by decide +kernel
  rw [missing] at get
  exact absurd get (by simp)

end ViOS.Memory
