import ViOS.Memory.PagingTree

/-! # The page tables refine a map of pages

A client of the page tables thinks of a map from virtual page numbers to frames with
permissions, in which the last call that covers a page decides.  `Simulates` ties the
tables to such a map; every mapping call keeps it, so after any sequence of calls the
processor's walk finds what the last call put there, and nothing elsewhere.

* `PagingCall`, `PagingCall.covers`, `lastWriter` — the calls and the abstract map.
* `Simulates` — the relation, and `pagingMap_simulates`, `mapRangeLoop_simulates`.
* `hardwareWalk_refines_lastWriter` — the refinement.
-/

namespace ViOS.Memory

open ViOS.Lib

/-! ## The abstract map -/

/-- The virtual page number: bits 12 to 47 of an address. -/
def pageNumber (virt : Nat) : Nat := virt / pagingPageSize % 2 ^ 36

/-- The frame and the permissions that a call asks for. -/
def mappingOf (frame flags : Nat) : Mapping :=
  ⟨frame, flags &&& pagingIsPresent ≠ 0, flags &&& pagingIsWriteable ≠ 0,
    flags &&& pagingAccessFromAll ≠ 0⟩

inductive PagingCall where
  | map (virt phys flags : Nat)
  | mapRange (virt phys count flags : Nat)
  | mapTo (virt phys physEnd flags : Nat)
  deriving DecidableEq, Repr

/-- What `count` pages from `virt` on put at a page. -/
def rangeCovers (virt phys count flags page : Nat) : Option Mapping :=
  let i := (page + 2 ^ 36 - pageNumber virt) % 2 ^ 36
  if i < count then some (mappingOf (phys / pagingPageSize + i) flags) else none

/-- `paging_map_to` accepts its arguments. -/
def MapToValid (virt phys physEnd : Nat) : Prop :=
  virt % pagingPageSize = 0 ∧ phys % pagingPageSize = 0 ∧ physEnd % pagingPageSize = 0 ∧ phys ≤ physEnd

instance (virt phys physEnd : Nat) : Decidable (MapToValid virt phys physEnd) :=
  inferInstanceAs (Decidable (_ ∧ _ ∧ _ ∧ _))

/-- What a call puts at a page, if it covers the page. -/
def PagingCall.covers : PagingCall → (page : Nat) → Option Mapping
  | .map virt phys flags, page => rangeCovers virt phys 1 flags page
  | .mapRange virt phys count flags, page => rangeCovers virt phys count flags page
  | .mapTo virt phys physEnd flags, page =>
    if MapToValid virt phys physEnd then
      rangeCovers virt phys ((physEnd - phys) / pagingPageSize) flags page
    else none

/-- The last call that covers a page decides. -/
def lastWriter (calls : List PagingCall) (page : Nat) : Option Mapping :=
  calls.reverse.findSome? fun call => call.covers page

/-- A range of fewer than 2^31 pages with physical addresses below 2^52. -/
def RangeLegal (phys count : Nat) : Prop := count < 2 ^ 31 ∧ ∀ i < count, phys + i * pagingPageSize < 2 ^ 52

def PagingCall.Legal : PagingCall → Prop
  | .map _ phys _ => RangeLegal phys 1
  | .mapRange _ phys count _ => RangeLegal phys count
  | .mapTo virt phys physEnd _ => MapToValid virt phys physEnd →
    RangeLegal phys ((physEnd - phys) / pagingPageSize)

/-- The walk finds the expected mapping; where none is expected, it ends in a page fault. -/
def Translates (mem : Nat → Nat → PagingDescEntry) (pml virt : Nat) : Option Mapping → Prop
  | some mapping => (hardwareWalk mem pml virt).map Prod.snd = some mapping
  | none => ∀ mapping, (hardwareWalk mem pml virt).map Prod.snd = some mapping → mapping.present = false

/-! ## Runs -/

section Runs

variable {α : Type*} (kzalloc : α → Nat → Nat × α) (desc : PagingDesc)

def runCall (state : PagingState α) : PagingCall → PagingState α
  | .map virt phys flags => (pagingMap kzalloc desc virt phys flags state).2
  | .mapRange virt phys count flags => (pagingMapRange kzalloc desc virt phys count flags state).2
  | .mapTo virt phys physEnd flags => (pagingMapTo kzalloc desc virt phys physEnd flags state).2

/-- Every table the loop of `paging_map_range` needs is there or is provided. -/
def RangeOk (flags : Nat) : (count virt phys : Nat) → PagingState α → Prop
  | 0, _, _, _ => True
  | count + 1, virt, phys, state => TablesOk kzalloc desc.pml virt state ∧
    RangeOk flags count ((virt + pagingPageSize) % addressSpace) ((phys + pagingPageSize) % addressSpace)
      (pagingMap kzalloc desc virt phys flags state).2

/-- Every table a call needs is there or is provided. -/
def CallOk (state : PagingState α) : PagingCall → Prop
  | .map virt _ _ => TablesOk kzalloc desc.pml virt state
  | .mapRange virt phys count flags => RangeOk kzalloc desc flags count virt phys state
  | .mapTo virt phys physEnd flags => MapToValid virt phys physEnd →
    RangeOk kzalloc desc flags ((physEnd - phys) / pagingPageSize) virt phys state

def runCalls : List PagingCall → PagingState α → PagingState α
  | [], state => state
  | call :: rest, state => runCalls rest (runCall kzalloc desc state call)

/-- No table allocation of the run fails. -/
def RunOk : List PagingCall → PagingState α → Prop
  | [], _ => True
  | call :: rest, state => CallOk kzalloc desc state call ∧ RunOk rest (runCall kzalloc desc state call)

end Runs

/-! ## Pages and words -/

theorem index_eq (virt shift : Nat) : (virt >>> shift) &&& 0x1FF = virt / 2 ^ shift % 512 := by
  rw [Nat.shiftRight_eq_div_pow, show (0x1FF : Nat) = 2 ^ 9 - 1 from rfl, Nat.and_two_pow_sub_one_eq_mod]

/-- The four indices are the digits of the page number. -/
theorem sameWord_iff {va vb : Nat} :
    (wordOf va = wordOf vb ∧ ptIndex va = ptIndex vb) ↔ pageNumber va = pageNumber vb := by
  simp only [wordOf, List.cons.injEq, and_true, pml4Index, pdptIndex, pdIndex, ptIndex, index_eq,
    pageNumber, pagingPageSize]
  omega

theorem pageNumber_lt (virt : Nat) : pageNumber virt < 2 ^ 36 := Nat.mod_lt _ (by decide)

theorem pageNumber_next (virt : Nat) :
    pageNumber ((virt + pagingPageSize) % addressSpace) = (pageNumber virt + 1) % 2 ^ 36 := by
  unfold pageNumber pagingPageSize addressSpace
  omega

/-- A range is its first page and the range that starts one page later. -/
theorem rangeCovers_succ {virt phys count flags page : Nat} (short : count + 1 ≤ 2 ^ 36)
    (small : phys + pagingPageSize < addressSpace ∨ count = 0) (isPage : page < 2 ^ 36) :
    rangeCovers virt phys (count + 1) flags page =
      (rangeCovers ((virt + pagingPageSize) % addressSpace) ((phys + pagingPageSize) % addressSpace)
        count flags page).or
        (if page = pageNumber virt then some (mappingOf (phys / pagingPageSize) flags) else none) := by
  have start := pageNumber_lt virt
  unfold rangeCovers
  simp only
  rw [pageNumber_next]
  generalize pageNumber virt = first at *
  by_cases same : page = first
  · have before : (page + 2 ^ 36 - first) % 2 ^ 36 = 0 := by omega
    have after : ¬ (page + 2 ^ 36 - (first + 1) % 2 ^ 36) % 2 ^ 36 < count := by omega
    rw [before, if_pos (by omega), if_neg after, if_pos same]
    rfl
  · have distance : (page + 2 ^ 36 - first) % 2 ^ 36 =
        (page + 2 ^ 36 - (first + 1) % 2 ^ 36) % 2 ^ 36 + 1 := by omega
    rw [distance, if_neg same, Option.or_none]
    generalize (page + 2 ^ 36 - (first + 1) % 2 ^ 36) % 2 ^ 36 = i
    by_cases inside : i < count
    · have fits : phys + pagingPageSize < addressSpace := small.resolve_right (by omega)
      have frame : (phys + pagingPageSize) / pagingPageSize + i = phys / pagingPageSize + (i + 1) := by
        unfold pagingPageSize
        omega
      rw [if_pos (by omega), if_pos inside, Nat.mod_eq_of_lt fits, frame]
    · rw [if_neg (by omega), if_neg inside]

/-! ## The simulation -/

/-- The tables hold what the abstract map says: where it is defined, the page table is there and
the leaf is as asked for; elsewhere the leaf is null. -/
structure Simulates (mem : Nat → Nat → PagingDescEntry) (pml : Nat) (pages : Nat → Option Mapping) :
    Prop where
  mapped : ∀ virt mapping, pages (pageNumber virt) = some mapping →
    Radix.walk childTable mem pml (wordOf virt) ≠ none ∧ leafMapping (leafOf mem pml virt) = mapping
  unmapped : ∀ virt, pages (pageNumber virt) = none → leafOf mem pml virt = nullDesc

/-- The simulation decides the processor's walk. -/
theorem Simulates.translates {taken : Nat → Prop} {mem : Nat → Nat → PagingDescEntry} {pml : Nat}
    {pages : Nat → Option Mapping} (simulates : Simulates mem pml pages) (tree : PagingTree taken mem pml)
    (virt : Nat) : Translates mem pml virt (pages (pageNumber virt)) := by
  rw [Translates.eq_def, hardwareWalk_eq tree]
  cases expected : pages (pageNumber virt) with
  | some mapping =>
    obtain ⟨reached, leaf⟩ := simulates.mapped virt mapping expected
    unfold leafOf Radix.leafAt at leaf
    cases table : Radix.walk childTable mem pml (wordOf virt) with
    | none => exact absurd table reached
    | some table =>
      rw [table] at leaf
      simpa using leaf
  | none =>
    intro mapping found
    have leaf := simulates.unmapped virt expected
    unfold leafOf Radix.leafAt at leaf
    cases table : Radix.walk childTable mem pml (wordOf virt) with
    | none =>
      rw [table] at found
      exact absurd found (by simp)
    | some table =>
      rw [table] at found leaf
      simp only [Option.map_some, Option.some.injEq] at found
      simp only at leaf
      rw [← found, leaf]
      rfl

section Contract

variable {α : Type*} {kzalloc : α → Nat → Nat × α} {valid : α → Prop} {taken : α → Nat → Prop}
  {desc : PagingDesc}

theorem addressField_eq {phys : Nat} (small : phys < 2 ^ 52) : addressField phys = phys / pagingPageSize := by
  unfold addressField pagingPageSize
  rw [Nat.shiftRight_eq_div_pow]
  omega

theorem pagingMap_simulates {state next : PagingState α} {pages : Nat → Option Mapping}
    {virt phys flags : Nat} (maps : Maps desc.pml virt phys flags state next)
    (simulates : Simulates state.mem desc.pml pages) :
    Simulates next.mem desc.pml fun page =>
      if page = pageNumber virt then some (mappingOf (addressField phys) flags) else pages page := by
  have full : ∀ va, (wordOf va).length = 3 := fun _ => rfl
  have leaf : ∀ va, leafOf next.mem desc.pml va =
      if pageNumber va = pageNumber virt then leafEntry (leafOf state.mem desc.pml virt) phys flags
      else leafOf state.mem desc.pml va := by
    intro va
    rw [leafOf, maps.leaves _ _ (full va)]
    exact if_congr sameWord_iff rfl rfl
  constructor
  case mapped =>
    intro va mapping expected
    rw [leaf, maps.tables _ (full va).le]
    split_ifs at expected ⊢ with same
    · obtain rfl := Option.some.inj expected
      have sameWord := (sameWord_iff.mpr same).1
      exact ⟨.inr (sameWord ▸ List.prefix_rfl), rfl⟩
    · obtain ⟨reached, old⟩ := simulates.mapped va mapping expected
      exact ⟨.inl reached, old⟩
  case unmapped =>
    intro va expected
    rw [leaf]
    split_ifs at expected ⊢ with same
    exact simulates.unmapped va expected

/-- A map of pages on top of another. -/
def overlay (upper lower : Nat → Option Mapping) (page : Nat) : Option Mapping :=
  (upper page).or (lower page)

theorem Simulates.congr {mem : Nat → Nat → PagingDescEntry} {pml : Nat} {pages pages' : Nat → Option Mapping}
    (simulates : Simulates mem pml pages) (same : ∀ page < 2 ^ 36, pages' page = pages page) :
    Simulates mem pml pages' where
  mapped := by
    intro virt mapping expected
    rw [same _ (pageNumber_lt virt)] at expected
    exact simulates.mapped virt mapping expected
  unmapped := by
    intro virt expected
    rw [same _ (pageNumber_lt virt)] at expected
    exact simulates.unmapped virt expected

theorem RangeLegal.tail {phys count : Nat} (legal : RangeLegal phys (count + 1)) :
    RangeLegal ((phys + pagingPageSize) % addressSpace) count := by
  refine ⟨by have := legal.1; omega, fun i small => ?_⟩
  have bound := legal.2 (i + 1) (by omega)
  unfold pagingPageSize addressSpace at *
  omega

theorem mapRangeLoop_simulates (contract : BlockContract kzalloc valid taken) (flags : Nat) (count : Nat) :
    ∀ (res : Int) {virt phys : Nat} {state : PagingState α} {pages : Nat → Option Mapping},
      RangeLegal phys count → RangeOk kzalloc desc flags count virt phys state →
      PagingInv valid taken desc.pml state → Simulates state.mem desc.pml pages →
      PagingInv valid taken desc.pml (mapRangeLoop kzalloc desc flags count virt phys res state).2 ∧
        Simulates (mapRangeLoop kzalloc desc flags count virt phys res state).2.mem desc.pml
          (overlay (rangeCovers virt phys count flags) pages) := by
  induction count with
  | zero =>
    intro res virt phys state pages _ _ inv simulates
    refine ⟨inv, simulates.congr fun page _ => ?_⟩
    rw [overlay, rangeCovers, if_neg (by omega)]
    rfl
  | succ count ih =>
    intro res virt phys state pages legal ok inv simulates
    obtain ⟨invNext, maps, -⟩ : _ ∧ Maps desc.pml virt phys flags state _ ∧ _ :=
      pagingMap_spec contract inv ok.1
    have small : phys < 2 ^ 52 := by simpa using legal.2 0 (by omega)
    have simulatesNext := pagingMap_simulates maps simulates
    rw [addressField_eq small] at simulatesNext
    obtain ⟨invEnd, simulatesEnd⟩ := ih _ legal.tail ok.2 invNext simulatesNext
    refine ⟨invEnd, simulatesEnd.congr fun page isPage => ?_⟩
    have short := legal.1
    rw [overlay, rangeCovers_succ (by omega) (by unfold pagingPageSize addressSpace; omega) isPage]
    simp only [overlay]
    cases rangeCovers ((virt + pagingPageSize) % addressSpace) ((phys + pagingPageSize) % addressSpace)
      count flags page with
    | some mapping => rfl
    | none =>
      simp only [Option.none_or]
      split_ifs <;> rfl

theorem runCall_simulates (contract : BlockContract kzalloc valid taken) {state : PagingState α}
    {pages : Nat → Option Mapping} {call : PagingCall} (legal : call.Legal)
    (ok : CallOk kzalloc desc state call) (inv : PagingInv valid taken desc.pml state)
    (simulates : Simulates state.mem desc.pml pages) :
    PagingInv valid taken desc.pml (runCall kzalloc desc state call) ∧
      Simulates (runCall kzalloc desc state call).mem desc.pml (overlay call.covers pages) := by
  cases call with
  | map virt phys flags =>
    -- one page is a range of one page
    exact mapRangeLoop_simulates contract flags 1 0 legal ⟨ok, trivial⟩ inv simulates
  | mapRange virt phys count flags =>
    exact mapRangeLoop_simulates contract flags count 0 legal ok inv simulates
  | mapTo virt phys physEnd flags =>
    simp only [runCall]
    by_cases accepted : MapToValid virt phys physEnd
    · have result : pagingMapTo kzalloc desc virt phys physEnd flags state =
          pagingMapRange kzalloc desc virt phys ((physEnd - phys) / pagingPageSize) flags state := by
        obtain ⟨virtOk, physOk, endOk, ordered⟩ := accepted
        rw [pagingMapTo, if_neg (by omega), if_neg (by omega), if_neg (by omega), if_neg (by omega)]
      rw [result]
      refine (mapRangeLoop_simulates contract flags _ 0 (legal accepted) (ok accepted) inv simulates).imp_right
        fun after => after.congr fun page _ => ?_
      rw [overlay, overlay, PagingCall.covers, if_pos accepted]
    · have result : (pagingMapTo kzalloc desc virt phys physEnd flags state).2 = state := by
        unfold pagingMapTo
        split_ifs with virtOk physOk endOk ordered
        · rfl
        · rfl
        · rfl
        · rfl
        · exact absurd ⟨by omega, by omega, by omega, by omega⟩ accepted
      rw [result]
      refine ⟨inv, simulates.congr fun page _ => ?_⟩
      rw [overlay, PagingCall.covers, if_neg accepted]
      rfl

theorem lastWriter_cons (call : PagingCall) (rest : List PagingCall) (page : Nat) :
    lastWriter (call :: rest) page = (lastWriter rest page).or (call.covers page) := by
  unfold lastWriter
  rw [List.reverse_cons, List.findSome?_append]
  simp

theorem runCalls_simulates (contract : BlockContract kzalloc valid taken) (calls : List PagingCall) :
    ∀ {state : PagingState α} {pages : Nat → Option Mapping},
      (∀ call ∈ calls, call.Legal) → RunOk kzalloc desc calls state →
      PagingInv valid taken desc.pml state → Simulates state.mem desc.pml pages →
      PagingInv valid taken desc.pml (runCalls kzalloc desc calls state) ∧
        Simulates (runCalls kzalloc desc calls state).mem desc.pml (overlay (lastWriter calls) pages) := by
  induction calls with
  | nil =>
    intro state pages _ _ inv simulates
    exact ⟨inv, simulates.congr fun page _ => rfl⟩
  | cons call rest ih =>
    intro state pages legal ok inv simulates
    obtain ⟨invNext, simulatesNext⟩ :=
      runCall_simulates contract (legal call List.mem_cons_self) ok.1 inv simulates
    obtain ⟨invEnd, simulatesEnd⟩ :=
      ih (fun other member => legal other (List.mem_cons_of_mem _ member)) ok.2 invNext simulatesNext
    refine ⟨invEnd, simulatesEnd.congr fun page _ => ?_⟩
    rw [overlay, overlay, overlay, lastWriter_cons, Option.or_assoc]

/-! ## A new descriptor -/

/-- From a cleared table a walk goes nowhere. -/
theorem walk_of_cleared {mem : Nat → Nat → PagingDescEntry} {pml : Nat}
    (cleared : ∀ index, mem pml index = nullDesc) (word : List Nat) (table : Nat)
    (reached : Radix.walk childTable mem pml word = some table) : word = [] ∧ table = pml := by
  cases word with
  | nil => exact ⟨rfl, (Option.some.inj reached).symm⟩
  | cons index rest =>
    rw [Radix.walk, cleared, childTable_null] at reached
    exact absurd reached (by simp)

/-- The tree below a cleared table is the table. -/
theorem pagingTree_of_cleared {taken : Nat → Prop} {mem : Nat → Nat → PagingDescEntry} {pml : Nat}
    (cleared : ∀ index, mem pml index = nullDesc) (isTaken : taken pml) : PagingTree taken mem pml where
  unshared := by
    intro p q table _ _ pReached qReached
    rw [(walk_of_cleared cleared p table pReached).1, (walk_of_cleared cleared q table qReached).1]
  owned := by
    intro word table _ reached
    rw [(walk_of_cleared cleared word table reached).2]
    exact isTaken
  good := by
    intro word table _ reached index
    rw [(walk_of_cleared cleared word table reached).2]
    exact .inl (cleared index)

theorem pagingDescNew_spec (contract : BlockContract kzalloc valid taken) {before state : PagingState α}
    {level : Nat} (beforeValid : valid before.alloc)
    (created : pagingDescNew kzalloc before level = (some desc, state)) (provided : desc.pml ≠ 0) :
    PagingInv valid taken desc.pml state ∧ (Simulates state.mem desc.pml fun _ => none) ∧
      ∀ index, state.mem desc.pml index = nullDesc := by
  unfold pagingDescNew at created
  dsimp only at created
  split_ifs at created with wrongLevel noDesc
  · exact absurd (congrArg Prod.fst created) (by simp)
  · exact absurd (congrArg Prod.fst created) (by simp)
  · have descEq := congrArg Prod.fst created
    have stateEq := congrArg Prod.snd created
    simp only [newTable, Option.some.injEq] at descEq stateEq
    have pmlEq := congrArg PagingDesc.pml descEq
    simp only at pmlEq
    have allocValid := contract.stays before.alloc 9 beforeValid
    rw [pmlEq, if_neg provided] at stateEq
    have fresh := contract.fresh _ (8 * pagingTotalEntriesPerTable) allocValid (by rw [pmlEq]; exact provided)
    rw [pmlEq] at fresh
    subst stateEq
    have cleared : ∀ index, Radix.clearTable before.mem desc.pml nullDesc desc.pml index = nullDesc :=
      fun index => Radix.clearTable_self _ _ _ _
    have nothing := walk_of_cleared cleared
    refine ⟨⟨pagingTree_of_cleared cleared fresh.takes, contract.stays _ _ allocValid⟩, ⟨?_, ?_⟩, cleared⟩
    · intro virt mapping expected
      exact absurd expected (by simp)
    · intro virt _
      unfold leafOf Radix.leafAt
      cases reached : Radix.walk childTable (Radix.clearTable before.mem desc.pml nullDesc) desc.pml
          (wordOf virt) with
      | none => rfl
      | some table => exact absurd (nothing _ table reached).1 (by simp [wordOf])

/-- After any calls on a new descriptor the processor finds, for every address, what the last
call that covers its page asked for, and no present page where no call covers it. -/
theorem hardwareWalk_refines_lastWriter (contract : BlockContract kzalloc valid taken)
    {before created : PagingState α} {level : Nat} (beforeValid : valid before.alloc)
    (new : pagingDescNew kzalloc before level = (some desc, created)) (provided : desc.pml ≠ 0)
    {calls : List PagingCall} (legal : ∀ call ∈ calls, call.Legal)
    (ok : RunOk kzalloc desc calls created) (virt : Nat) :
    Translates (runCalls kzalloc desc calls created).mem desc.pml virt
      (lastWriter calls (pageNumber virt)) := by
  obtain ⟨inv, simulates, -⟩ := pagingDescNew_spec contract beforeValid new provided
  obtain ⟨invEnd, simulatesEnd⟩ := runCalls_simulates contract calls legal ok inv simulates
  have found := simulatesEnd.translates invEnd.tree virt
  rwa [overlay, Option.or_none] at found

end Contract

/-! ## An allocator that meets the contract -/

/-- Blocks are handed out in order, from block `next` on, up to 2^52 bytes. -/
def bumpAlloc (next _size : Nat) : Nat × Nat :=
  if next < 0x10000000000 then (next * pagingPageSize, next + 1) else (0, next)

theorem bumpAlloc_contract :
    BlockContract bumpAlloc (fun _ => True) fun next block => block < next * pagingPageSize where
  stays := fun _ _ _ => trivial
  keeps := by
    intro next size block _ isTaken
    unfold bumpAlloc
    split
    · exact Nat.lt_of_lt_of_le isTaken (Nat.mul_le_mul_right _ (Nat.le_succ next))
    · exact isTaken
  fresh := by
    intro next size _ provided
    unfold bumpAlloc at provided ⊢
    split at provided
    · rename_i room
      rw [if_pos room]
      constructor
      case aligned => exact Nat.mul_mod_left _ _
      case small =>
        unfold pagingPageSize
        omega
      case fresh => exact Nat.lt_irrefl _
      case keeps =>
        exact fun block isTaken => Nat.lt_of_lt_of_le isTaken (Nat.mul_le_mul_right _ (Nat.le_succ next))
      case takes => exact Nat.mul_lt_mul_of_pos_right (Nat.lt_succ_self next) (by decide)
    · exact absurd rfl provided

/-- A descriptor made with it: the structure is in block 1, the top table in block 2. -/
def bumpDesc : PagingDesc := ⟨0x2000, 4⟩

def bumpCreated : PagingState Nat :=
  (pagingDescNew bumpAlloc ⟨fun _ _ => nullDesc, 1⟩ pagingMapLevel4).2

instance (state : PagingState Nat) (table index : Nat) : Decidable (NextTableOk bumpAlloc state table index) :=
  inferInstanceAs (Decidable (_ → _))

theorem bumpDesc_created : pagingDescNew bumpAlloc ⟨fun _ _ => nullDesc, 1⟩ pagingMapLevel4 =
    (some bumpDesc, bumpCreated) := rfl

theorem hardwareWalk_refines_remapped :
    Translates (runCalls bumpAlloc bumpDesc [.map 0x400000 0x9000 1, .mapRange 0x3ff000 0x5000 2 7]
      bumpCreated).mem bumpDesc.pml 0x400123 (some ⟨6, true, true, true⟩) := by
  refine hardwareWalk_refines_lastWriter bumpAlloc_contract trivial bumpDesc_created (by decide) ?_ ?_
    0x400123
  · intro call member
    simp only [List.mem_cons, List.not_mem_nil, or_false] at member
    rcases member with rfl | rfl
    · exact ⟨by decide, by decide⟩
    · exact ⟨by decide, by decide⟩
  · exact ⟨⟨by decide, by decide, by decide⟩, ⟨⟨by decide, by decide, by decide⟩,
      ⟨by decide +kernel, by decide +kernel, by decide +kernel⟩, trivial⟩, trivial⟩

end ViOS.Memory
