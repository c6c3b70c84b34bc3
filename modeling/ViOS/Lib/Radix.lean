import Mathlib.Data.List.Basic
import Mathlib.Data.List.Infix
import Mathlib.Logic.Function.Basic
import Mathlib.Tactic.Basic

/-! # Radix trees in a memory of tables

A memory holds tables; a table holds entries; an entry may point to another table.
A word of indices, read from a root, then names a table, and the last level of
tables holds the leaves.  Nothing in the memory itself keeps two words from naming
one table: that is `Unshared`, the invariant the operations rely on.

Two operations are enough to build such a tree.  `link` clears a new table and hangs
it under an empty entry; it changes no leaf.  `write` replaces one leaf and moves no
table.

* `walk`, `leafAt` — the table and the leaf a word of indices leads to.
* `Tree` — unshared tables, all owned, whose inner entries are all good.
* `walk_link`, `leafAt_link`, `Tree.link` — the effect of `link`.
* `walk_write`, `leafAt_write`, `Tree.write` — the effect of `write`.
-/

namespace ViOS.Lib.Radix

variable {T I E : Type*} [DecidableEq T] [DecidableEq I]

/-! ## Tables -/

/-- One entry of one table replaced. -/
def setEntry (mem : T → I → E) (table : T) (index : I) (entry : E) : T → I → E :=
  Function.update mem table (Function.update (mem table) index entry)

/-- All entries of one table set to `null`. -/
def clearTable (mem : T → I → E) (table : T) (null : E) : T → I → E :=
  Function.update mem table fun _ => null

@[simp] theorem setEntry_self (mem : T → I → E) (table : T) (index : I) (entry : E) :
    setEntry mem table index entry table index = entry := by
  simp [setEntry]

theorem setEntry_of_ne_table (mem : T → I → E) {table other : T} (index : I) (entry : E)
    (different : other ≠ table) : setEntry mem table index entry other = mem other := by
  simp [setEntry, different]

theorem setEntry_of_ne_index (mem : T → I → E) (table : T) {index other : I} (entry : E)
    (different : other ≠ index) : setEntry mem table index entry table other = mem table other := by
  simp [setEntry, different]

theorem setEntry_setEntry (mem : T → I → E) (table : T) (index : I) (entry entry' : E) :
    setEntry (setEntry mem table index entry) table index entry' = setEntry mem table index entry' := by
  simp [setEntry]

theorem setEntry_eq_iff (mem : T → I → E) (table : T) (index : I) (entry : E) :
    setEntry mem table index entry = mem ↔ entry = mem table index := by
  constructor
  · intro same
    have here := congrFun (congrFun same table) index
    rwa [setEntry_self] at here
  · rintro rfl
    simp [setEntry]

omit [DecidableEq I] in
@[simp] theorem clearTable_self (mem : T → I → E) (table : T) (null : E) (index : I) :
    clearTable mem table null table index = null := by
  simp [clearTable]

omit [DecidableEq I] in
theorem clearTable_of_ne (mem : T → I → E) {table other : T} (null : E) (different : other ≠ table) :
    clearTable mem table null other = mem other := by
  simp [clearTable, different]

/-! ## Walks -/

section Walk

variable (child : E → Option T)

/-- The table that a word of indices leads to. -/
def walk (mem : T → I → E) : T → List I → Option T
  | table, [] => some table
  | table, index :: rest =>
    match child (mem table index) with
    | none => none
    | some next => walk mem next rest

/-- The entry at an index of the table a word leads to, `null` when there is no such table. -/
def leafAt (null : E) (mem : T → I → E) (root : T) (word : List I) (index : I) : E :=
  match walk child mem root word with
  | none => null
  | some table => mem table index

/-- Words of at most `depth` indices lead to different tables. -/
def Unshared (mem : T → I → E) (root : T) (depth : Nat) : Prop :=
  ∀ p q table, p.length ≤ depth → q.length ≤ depth →
    walk child mem root p = some table → walk child mem root q = some table → p = q

variable {child} {mem mem' : T → I → E} {root : T} {depth : Nat}

omit [DecidableEq T] [DecidableEq I] in
theorem walk_concat (word : List I) (index : I) :
    walk child mem root (word ++ [index]) =
      (walk child mem root word).bind fun table => child (mem table index) := by
  induction word generalizing root with
  | nil =>
    simp only [List.nil_append, walk, Option.bind_some]
    cases child (mem root index) <;> rfl
  | cons first rest ih =>
    simp only [List.cons_append, walk]
    cases child (mem root first) with
    | none => rfl
    | some next => exact ih

omit [DecidableEq T] [DecidableEq I] in
/-- A walk only reads the tables on its way. -/
theorem walk_congr
    (same : ∀ word table, word.length < depth → walk child mem root word = some table →
      mem' table = mem table)
    {word : List I} (short : word.length ≤ depth) :
    walk child mem' root word = walk child mem root word := by
  induction word using List.reverseRecOn with
  | nil => rfl
  | append_singleton init last ih =>
    rw [List.length_append, List.length_singleton] at short
    rw [walk_concat, walk_concat, ih (by omega)]
    cases reached : walk child mem root init with
    | none => rfl
    | some table =>
      simp only [Option.bind_some]
      rw [same init table (by omega) reached]

end Walk

/-! ## Trees -/

/-- The tables that words of at most `depth` indices lead to are different and all owned, and
the entries of those above the last level are all good. -/
structure Tree (child : E → Option T) (owned : T → Prop) (good : E → Prop) (mem : T → I → E) (root : T)
    (depth : Nat) : Prop where
  unshared : Unshared child mem root depth
  owned : ∀ word table, word.length ≤ depth → walk child mem root word = some table → owned table
  good : ∀ word table, word.length < depth → walk child mem root word = some table →
    ∀ index, good (mem table index)

omit [DecidableEq T] [DecidableEq I] in
/-- A tree stays one while its tables are left as they are and stay owned. -/
theorem Tree.congr {child : E → Option T} {owned owned' : T → Prop} {good : E → Prop}
    {mem mem' : T → I → E} {root : T} {depth : Nat} (tree : Tree child owned good mem root depth)
    (same : ∀ word table, word.length ≤ depth → walk child mem root word = some table →
      mem' table = mem table ∧ owned' table) :
    (∀ word, word.length ≤ depth → walk child mem' root word = walk child mem root word) ∧
      Tree child owned' good mem' root depth := by
  have walks : ∀ word, word.length ≤ depth → walk child mem' root word = walk child mem root word :=
    fun word short => walk_congr (fun word table inner reached => (same word table inner.le reached).1) short
  refine ⟨walks, ?_, ?_, ?_⟩
  · intro p q table pShort qShort pReached qReached
    rw [walks p pShort] at pReached
    rw [walks q qShort] at qReached
    exact tree.unshared p q table pShort qShort pReached qReached
  · intro word table short reached
    rw [walks word short] at reached
    exact (same word table short reached).2
  · intro word table inner reached index
    rw [walks word inner.le] at reached
    rw [(same word table inner.le reached).1]
    exact tree.good word table inner reached index

/-- A new table is cleared and hung under an entry. -/
def link (mem : T → I → E) (null : E) (table : T) (index : I) (entry : E) (new : T) : T → I → E :=
  setEntry (clearTable mem new null) table index entry

section Link

variable {child : E → Option T} {owned owned' : T → Prop} {good : E → Prop} {mem : T → I → E}
  {root table new : T} {depth : Nat} {word : List I} {index : I} {null entry : E}

/-- Where `link` may be used: at an empty entry above the last level, with a table nobody owns. -/
structure Linkable (child : E → Option T) (owned : T → Prop) (mem : T → I → E) (root table new : T)
    (depth : Nat) (word : List I) (index : I) (null entry : E) : Prop where
  reached : walk child mem root word = some table
  inner : word.length < depth
  empty : child (mem table index) = none
  fresh : ¬ owned new
  points : child entry = some new
  nullEmpty : child null = none

omit [DecidableEq T] [DecidableEq I] in
/-- A word that leads past an empty entry leads nowhere. -/
theorem walk_past_empty
    (can : Linkable child owned mem root table new depth word index null entry)
    {longer : List I} (past : word ++ [index] <+: longer) : walk child mem root longer = none := by
  obtain ⟨rest, rfl⟩ := past
  induction rest using List.reverseRecOn with
  | nil => rw [List.append_nil, walk_concat, can.reached, Option.bind_some, can.empty]
  | append_singleton init last ih => rw [← List.append_assoc, walk_concat, ih, Option.bind_none]

theorem link_of_ne (different : table ≠ new) {other : T} (otherNew : other ≠ new) {position : I}
    (elsewhere : other = table → position ≠ index) :
    link mem null table index entry new other position = mem other position := by
  unfold link
  by_cases same : other = table
  · subst same
    rw [setEntry_of_ne_index _ _ _ (elsewhere rfl), clearTable_of_ne _ _ otherNew]
  · rw [setEntry_of_ne_table _ _ _ same, clearTable_of_ne _ _ otherNew]

theorem walk_link (tree : Tree child owned good mem root depth)
    (can : Linkable child owned mem root table new depth word index null entry)
    {path : List I} (short : path.length ≤ depth) :
    walk child (link mem null table index entry new) root path =
      if path = word ++ [index] then some new else walk child mem root path := by
  have tableOwned := tree.owned word table can.inner.le can.reached
  have different : table ≠ new := fun same => can.fresh (same ▸ tableOwned)
  -- the word grows at its end, so that each step reads one more table
  induction path using List.reverseRecOn with
  | nil => rw [if_neg (by simp)]; rfl
  | append_singleton init last ih =>
    rw [List.length_append, List.length_singleton] at short
    rw [walk_concat, ih (by omega)]
    by_cases atNew : init = word ++ [index]
    · have longer : init ++ [last] ≠ word ++ [index] := by
        intro same
        have lengths := congrArg List.length same
        rw [atNew] at lengths
        simp at lengths
      have nowhere : walk child mem root (init ++ [last]) = none :=
        walk_past_empty can ⟨[last], by rw [atNew]⟩
      have cleared : link mem null table index entry new new last = null := by
        unfold link
        rw [setEntry_of_ne_table _ _ _ different.symm, clearTable_self]
      rw [if_pos atNew, if_neg longer, nowhere, Option.bind_some, cleared, can.nullEmpty]
    · rw [if_neg atNew, walk_concat]
      cases reached : walk child mem root init with
      | none =>
        have notHere : init ++ [last] ≠ word ++ [index] := by
          intro same
          obtain rfl := (List.append_inj' same rfl).1
          rw [can.reached] at reached
          exact absurd reached (by simp)
        rw [if_neg notHere]
        rfl
      | some other =>
        have otherOwned := tree.owned init other (by omega) reached
        have otherNew : other ≠ new := fun same => can.fresh (same ▸ otherOwned)
        simp only [Option.bind_some]
        by_cases here : init ++ [last] = word ++ [index]
        · obtain ⟨rfl, sameLast⟩ := List.append_inj' here rfl
          obtain rfl : other = table := Option.some.inj (reached.symm.trans can.reached)
          obtain rfl : last = index := by simpa using sameLast
          rw [if_pos here]
          unfold link
          rw [setEntry_self, can.points]
        · rw [if_neg here, link_of_ne different otherNew]
          rintro rfl rfl
          have same := tree.unshared init word other (by omega) can.inner.le reached can.reached
          exact here (by rw [same])

theorem leafAt_link (tree : Tree child owned good mem root depth)
    (can : Linkable child owned mem root table new depth word index null entry)
    {path : List I} (full : path.length = depth) (position : I) :
    leafAt child null (link mem null table index entry new) root path position =
      leafAt child null mem root path position := by
  have tableOwned := tree.owned word table can.inner.le can.reached
  have different : table ≠ new := fun same => can.fresh (same ▸ tableOwned)
  unfold leafAt
  rw [walk_link tree can full.le]
  by_cases here : path = word ++ [index]
  · have nowhere : walk child mem root path = none := walk_past_empty can (here ▸ List.prefix_rfl)
    rw [if_pos here, nowhere]
    unfold link
    simp only
    rw [setEntry_of_ne_table _ _ _ different.symm, clearTable_self]
  · rw [if_neg here]
    cases reached : walk child mem root path with
    | none => rfl
    | some other =>
      have otherOwned := tree.owned path other full.le reached
      have otherNew : other ≠ new := fun same => can.fresh (same ▸ otherOwned)
      refine link_of_ne different otherNew fun same => ?_
      have inner := can.inner
      subst same
      have samePath := tree.unshared path word other full.le inner.le reached can.reached
      rw [samePath] at full
      omega

theorem Tree.link (tree : Tree child owned good mem root depth)
    (can : Linkable child owned mem root table new depth word index null entry)
    (grows : ∀ other, owned other → owned' other) (newOwned : owned' new)
    (entryGood : good entry) (nullGood : good null) :
    Tree child owned' good (Radix.link mem null table index entry new) root depth := by
  have tableOwned := tree.owned word table can.inner.le can.reached
  have different : table ≠ new := fun same => can.fresh (same ▸ tableOwned)
  have notNew : ∀ path, path.length ≤ depth → walk child mem root path ≠ some new :=
    fun path short reached => can.fresh (tree.owned path new short reached)
  constructor
  -- the new table is owned by nobody yet, so only the new path reaches it
  case unshared =>
    intro p q other pShort qShort pReached qReached
    rw [walk_link tree can pShort] at pReached
    rw [walk_link tree can qShort] at qReached
    split_ifs at pReached qReached with pNew qNew qNew
    · exact pNew.trans qNew.symm
    · exact absurd (qReached.trans pReached.symm) (notNew q qShort)
    · exact absurd (pReached.trans qReached.symm) (notNew p pShort)
    · exact tree.unshared p q other pShort qShort pReached qReached
  case owned =>
    intro path other short reached
    rw [walk_link tree can short] at reached
    split_ifs at reached with new
    · exact Option.some.inj reached ▸ newOwned
    · exact grows _ (tree.owned path other short reached)
  case good =>
    intro path other inner reached position
    rw [walk_link tree can inner.le] at reached
    by_cases atNew : other = new
    · subst atNew
      unfold Radix.link
      rw [setEntry_of_ne_table _ _ _ different.symm, clearTable_self]
      exact nullGood
    · split_ifs at reached with here
      · exact absurd (Option.some.inj reached).symm atNew
      · by_cases same : other = table ∧ position = index
        · obtain ⟨rfl, rfl⟩ := same
          unfold Radix.link
          rw [setEntry_self]
          exact entryGood
        · rw [link_of_ne different atNew fun sameTable samePosition => same ⟨sameTable, samePosition⟩]
          exact tree.good path other inner reached position

end Link

/-! ## Leaves -/

section Write

variable {child : E → Option T} {owned : T → Prop} {good : E → Prop} {mem : T → I → E}
  {root table : T} {depth : Nat} {word : List I} {index : I} {null entry : E}

/-- A leaf's table is not on the way to any table. -/
theorem write_untouched (tree : Tree child owned good mem root depth)
    (reached : walk child mem root word = some table) (full : word.length = depth)
    {path : List I} {other : T} (inner : path.length < depth)
    (otherReached : walk child mem root path = some other) :
    setEntry mem table index entry other = mem other := by
  refine setEntry_of_ne_table _ _ _ fun same => ?_
  subst same
  have samePath := tree.unshared path word other inner.le full.le otherReached reached
  rw [samePath] at inner
  omega

theorem walk_write (tree : Tree child owned good mem root depth)
    (reached : walk child mem root word = some table) (full : word.length = depth)
    {path : List I} (short : path.length ≤ depth) :
    walk child (setEntry mem table index entry) root path = walk child mem root path :=
  walk_congr (fun _ _ inner otherReached => write_untouched tree reached full inner otherReached) short

theorem leafAt_write (tree : Tree child owned good mem root depth)
    (reached : walk child mem root word = some table) (full : word.length = depth)
    {path : List I} (pathFull : path.length = depth) (position : I) :
    leafAt child null (setEntry mem table index entry) root path position =
      if path = word ∧ position = index then entry else leafAt child null mem root path position := by
  unfold leafAt
  rw [walk_write tree reached full pathFull.le]
  by_cases here : path = word ∧ position = index
  · obtain ⟨rfl, rfl⟩ := here
    rw [if_pos ⟨rfl, rfl⟩, reached]
    exact setEntry_self _ _ _ _
  · rw [if_neg here]
    cases otherReached : walk child mem root path with
    | none => rfl
    | some other =>
      simp only
      by_cases same : other = table
      · subst same
        have samePath := tree.unshared path word other pathFull.le full.le otherReached reached
        exact setEntry_of_ne_index _ _ _ fun sameIndex => here ⟨samePath, sameIndex⟩
      · rw [setEntry_of_ne_table _ _ _ same]

theorem Tree.write (tree : Tree child owned good mem root depth)
    (reached : walk child mem root word = some table) (full : word.length = depth) :
    Tree child owned good (setEntry mem table index entry) root depth := by
  constructor
  case unshared =>
    intro p q other pShort qShort pReached qReached
    rw [walk_write tree reached full pShort] at pReached
    rw [walk_write tree reached full qShort] at qReached
    exact tree.unshared p q other pShort qShort pReached qReached
  case owned =>
    intro path other short otherReached
    rw [walk_write tree reached full short] at otherReached
    exact tree.owned path other short otherReached
  case good =>
    intro path other inner otherReached position
    rw [walk_write tree reached full inner.le] at otherReached
    rw [write_untouched tree reached full inner otherReached]
    exact tree.good path other inner otherReached position

end Write

end ViOS.Lib.Radix
