import ViOS.Graphics.Nodes

/-! # Freeing nodes

`graphics_info_free` frees a node after its children.  Each child takes itself out of
the vector that the loop over the children walks through, so some children are left
behind; they keep pointing to a parent that is gone.  And a child for which
`vector_pop_element` has no memory stays in the vector although it is freed.

* `graphicsInfoFree` — the code.
* `Owned` — the way down is a forest; parents may be gone.
* `graphicsInfoFree_spec` — a node below is freed or left alone, and nothing else changes.
* `Freed.owned` — the way down is a forest again when the node was taken out of its
  parent's vector.
-/

namespace ViOS.Graphics

open ViOS.Lib
open scoped List

/-! ## The code -/

/-- The loop of `graphics_info_children_free`: the number of children is read once, and an index
behind the end of the vector is skipped. -/
def freeChildren (free : Nodes → Nat → Option Nodes) (graphicsInfo : Nat) (nodes : Nodes)
    (indices : List Nat) : Option Nodes :=
  indices.foldlM (fun nodes i =>
    match nodes graphicsInfo with
    | none => none
    | some node =>
      match node.children[i]? with
      | none => some nodes
      | some child => free nodes child) nodes

section Code

-- whether `vector_pop_element` has memory for its buffer when the node is taken out
variable (pops : Nat → Bool)

/-- `vector_pop_element(parent->children, &graphics_in)`, the result of which is not looked at. -/
def popChild (nodes : Nodes) (parent : Option Nat) (graphicsIn : Nat) : Option Nodes :=
  match parent with
  | none => some nodes
  | some parent =>
    (nodes parent).map fun parentNode =>
      nodes.set parent (parentNode.withChildren
        (Elements.vectorPopElement (pops graphicsIn) parentNode.children graphicsIn))

/-- `graphics_info_free`. -/
def graphicsInfoFree : Nat → Nodes → Nat → Nat → Option Nodes
  | 0, _, _, _ => none
  | fuel + 1, nodes, screen, graphicsIn =>
    match nodes graphicsIn with
    | none => none
    | some node =>
      match freeChildren (fun nodes child => graphicsInfoFree fuel nodes screen child) graphicsIn
        nodes (List.range node.children.length) with
      | none => none
      | some nodes =>
        (popChild pops nodes node.parent graphicsIn).map fun nodes =>
          -- The screen was not created here and stays.
          if graphicsIn = screen then nodes else Function.update nodes graphicsIn none

end Code

/-! ## Ownership -/

/-- `c` stands among the children of `p`. -/
def ChildOf (nodes : Nodes) (p c : Nat) : Prop := ∃ node, nodes p = some node ∧ c ∈ node.children

/-- The nodes reached from `p` on the way down. -/
def Descends (nodes : Nodes) : Nat → Nat → Prop := Relation.ReflTransGen (ChildOf nodes)

structure Owned (nodes : Nodes) (rank : Nat → Nat) : Prop where
  child : ∀ {p node c}, nodes p = some node → c ∈ node.children →
    ∃ childNode, nodes c = some childNode ∧ childNode.parent = some p
  nodup : ∀ {p node}, nodes p = some node → node.children.Nodup
  rank_lt : ∀ {p c}, ChildOf nodes p c → rank p < rank c

namespace Owned

variable {nodes : Nodes} {rank : Nat → Nat} (owned : Owned nodes rank) {p q c : Nat}
  {node : GraphicsNode}

include owned

theorem rank_le (below : Descends nodes p q) : rank p ≤ rank q := by
  induction below with
  | refl => exact Nat.le_refl _
  | tail _ child ih => exact Nat.le_trans ih (Nat.le_of_lt (owned.rank_lt child))

theorem not_descends_parent (child : ChildOf nodes p c) : ¬ Descends nodes c p := by
  intro below
  have := owned.rank_le below
  have := owned.rank_lt child
  omega

/-- A child of one node is not reached from another child of it. -/
theorem not_descends_sibling (first : ChildOf nodes p c) (second : ChildOf nodes p q)
    (apart : q ≠ c) : ¬ Descends nodes c q := by
  intro below
  rcases Relation.ReflTransGen.cases_tail below with same | ⟨r, above, ⟨node, live, member⟩⟩
  · exact apart same
  · obtain ⟨childNode, childLive, parent⟩ := owned.child live member
    obtain ⟨node', live', member'⟩ := second
    obtain ⟨childNode', childLive', parent'⟩ := owned.child live' member'
    rw [childLive, Option.some.injEq] at childLive'
    rw [← childLive', parent, Option.some.injEq] at parent'
    exact owned.not_descends_parent first (parent' ▸ above)

end Owned

/-- A node below another one is the other one, or one of its parents is below it, too. -/
theorem Descends.cases_parent {nodes : Nodes} {p c : Nat} (below : Descends nodes p c) :
    c = p ∨ ∃ q, Descends nodes p q ∧ ChildOf nodes q c := by
  rcases Relation.ReflTransGen.cases_tail below with same | ⟨q, above, child⟩
  · exact .inl same
  · exact .inr ⟨q, above, child⟩

namespace Owned

variable {nodes : Nodes} {rank : Nat → Nat} (owned : Owned nodes rank) {p q r c : Nat}

include owned

/-- A child has one parent. -/
theorem parent_unique (first : ChildOf nodes p c) (second : ChildOf nodes q c) : q = p := by
  obtain ⟨node, live, member⟩ := first
  obtain ⟨node', live', member'⟩ := second
  obtain ⟨childNode, childLive, parent⟩ := owned.child live member
  obtain ⟨childNode', childLive', parent'⟩ := owned.child live' member'
  obtain rfl := Option.some.inj (childLive.symm.trans childLive')
  exact Option.some.inj (parent'.symm.trans parent)

/-- A child below another node has its parent below it, unless it is that node. -/
theorem descends_of_child (below : Descends nodes p c) (child : ChildOf nodes q c) (apart : c ≠ p) :
    Descends nodes p q := by
  obtain ⟨q', above, child'⟩ := below.cases_parent.resolve_left apart
  exact owned.parent_unique child' child ▸ above

end Owned

/-! ## What is freed -/

/-- What freeing the node `p` with parent `r` does to the memory `now`, in which the nodes below `p`
are those of `nodes`. -/
structure Freed (pops : Nat → Bool) (nodes now after : Nodes) (p r : Nat) : Prop where
  gone : after p = none
  below : ∀ q, Descends nodes p q → after q = none ∨ after q = nodes q
  upward : ∀ {q c}, Descends nodes p q → ChildOf nodes q c → after c = none → after q = none
  frame : ∀ q, ¬ Descends nodes p q → q ≠ r → after q = now q
  popped : ∀ parentNode, now r = some parentNode → after r = some (parentNode.withChildren
    (Elements.vectorPopElement (pops p) parentNode.children p))

/-- The state of the loop over the children of `p`, which began in the memory `start`: below `p`
nodes were freed, each of them after those below it that are freed at all. -/
structure Freeing (nodes start now : Nodes) (p : Nat) (node : GraphicsNode) : Prop where
  here : ∃ children, now p = some (node.withChildren children) ∧ children <+ node.children
  below : ∀ q, Descends nodes p q → q ≠ p → now q = none ∨ now q = nodes q
  upward : ∀ {q c}, Descends nodes p q → q ≠ p → ChildOf nodes q c → now c = none → now q = none
  frame : ∀ q, ¬ Descends nodes p q → now q = start q

namespace Freeing

variable {pops : Nat → Bool} {nodes start now middle : Nodes} {rank : Nat → Nat} {p c : Nat}
  {node : GraphicsNode} (owned : Owned nodes rank) (freeing : Freeing nodes start now p node)

include owned

theorem start_of (live : nodes p = some node)
    (agrees : ∀ q, Descends nodes p q → now q = nodes q) : Freeing nodes now now p node := by
  refine ⟨⟨node.children, by rw [agrees p .refl, live]; rfl, .refl _⟩,
    fun q below _ => .inr (agrees q below), fun {q c} below _ child isGone => ?_, fun _ _ => rfl⟩
  obtain ⟨g, liveQ, member⟩ := child
  obtain ⟨childNode, childLive, -⟩ := owned.child liveQ member
  rw [agrees c (below.tail ⟨g, liveQ, member⟩), childLive] at isGone
  cases isGone

include freeing

/-- The nodes below a child that is still there are untouched. -/
theorem agrees (child : ChildOf nodes p c) (there : now c ≠ none) :
    ∀ q, Descends nodes c q → now q = nodes q := by
  have apart : ∀ {q}, Descends nodes c q → q ≠ p := by
    rintro q below rfl
    exact owned.not_descends_parent child below
  intro q below
  induction below with
  | refl => exact (freeing.below c (.single child) (apart .refl)).resolve_left there
  | @tail b q below isChild ih =>
    have belowHere : Descends nodes p q := .head child (below.tail isChild)
    refine (freeing.below q belowHere (apart (below.tail isChild))).resolve_left fun isGone => ?_
    have parentGone := freeing.upward (.head child below) (apart below) isChild isGone
    obtain ⟨g, liveB, -⟩ := isChild
    rw [ih, liveB] at parentGone
    cases parentGone

theorem freed (child : ChildOf nodes p c) (freed : Freed pops nodes now middle c p) :
    Freeing nodes start middle p node := by
  have notAbove := owned.not_descends_parent child
  refine ⟨?_, fun q below apart => ?_, fun {q d} below apart isChild isGone => ?_,
    fun q outside => ?_⟩
  · obtain ⟨children, here, sub⟩ := freeing.here
    exact ⟨_, freed.popped (node.withChildren children) here,
      (Elements.vectorPopElement_sublist _ _ _).trans sub⟩
  · by_cases inChild : Descends nodes c q
    · exact freed.below q inChild
    · rw [freed.frame q inChild apart]
      exact freeing.below q below apart
  · by_cases inChild : Descends nodes c q
    · exact freed.upward inChild isChild isGone
    · -- The child of a node outside is outside too, since only `c` hangs on `p`.
      have outside : ¬ Descends nodes c d := by
        intro belowChild
        by_cases same : d = c
        · exact apart (owned.parent_unique child (same ▸ isChild))
        · exact inChild (owned.descends_of_child belowChild isChild same)
      have notHere : d ≠ p := by
        rintro rfl
        exact owned.not_descends_parent isChild below
      rw [freed.frame d outside notHere] at isGone
      rw [freed.frame q inChild apart]
      exact freeing.upward below apart isChild isGone
  · have notHere : q ≠ p := by
      rintro rfl
      exact outside .refl
    rw [freed.frame q (fun below => outside (.head child below)) notHere, freeing.frame q outside]

end Freeing

theorem freeChildren_spec {pops : Nat → Bool} {nodes start : Nodes} {rank : Nat → Nat} {p : Nat}
    {node : GraphicsNode} {free : Nodes → Nat → Option Nodes} (owned : Owned nodes rank)
    (live : nodes p = some node)
    (each : ∀ now, Freeing nodes start now p node → ∀ c, ChildOf nodes p c → ∀ after,
      free now c = some after → Freed pops nodes now after c p)
    (indices : List Nat) {now after : Nodes} (freeing : Freeing nodes start now p node)
    (ran : freeChildren free p now indices = some after) : Freeing nodes start after p node := by
  induction indices generalizing now with
  | nil =>
    simp only [freeChildren, List.foldlM_nil, Option.pure_def, Option.some.injEq] at ran
    exact ran ▸ freeing
  | cons i indices ih =>
    obtain ⟨children, here, sub⟩ := freeing.here
    rw [freeChildren, List.foldlM_cons, here] at ran
    obtain ⟨middle, first, rest⟩ := Option.bind_eq_some_iff.mp ran
    refine ih ?_ rest
    cases index : (node.withChildren children).children[i]? with
    | none =>
      simp only [index, Option.some.injEq] at first
      exact first ▸ freeing
    | some c =>
      simp only [index] at first
      have child : ChildOf nodes p c := ⟨node, live, sub.subset (List.mem_of_getElem? index)⟩
      exact freeing.freed owned child (each now freeing c child middle first)

/-- A node that is freed was there. -/
theorem ne_none_of_free {pops : Nat → Bool} {fuel : Nat} {nodes after : Nodes} {screen p : Nat}
    (ran : graphicsInfoFree pops fuel nodes screen p = some after) : nodes p ≠ none := by
  intro isGone
  cases fuel with
  | zero => simp [graphicsInfoFree] at ran
  | succ fuel => simp [graphicsInfoFree, isGone] at ran

/-- The node after its children: it leaves its parent's vector and the memory. -/
theorem graphicsInfoFree_succ {pops : Nat → Bool} {fuel : Nat} {nodes after : Nodes}
    {screen p r : Nat} {node : GraphicsNode} (live : nodes p = some node)
    (parent : node.parent = some r) (notScreen : p ≠ screen)
    (ran : graphicsInfoFree pops (fuel + 1) nodes screen p = some after) :
    ∃ middle parentNode, freeChildren
        (fun nodes child => graphicsInfoFree pops fuel nodes screen child) p nodes
        (List.range node.children.length) = some middle ∧ middle r = some parentNode ∧
      after = Function.update (middle.set r (parentNode.withChildren
        (Elements.vectorPopElement (pops p) parentNode.children p))) p none := by
  simp only [graphicsInfoFree, live] at ran
  split at ran
  · cases ran
  next middle freedChildren =>
    obtain ⟨popped, isPopped, rfl⟩ := Option.map_eq_some_iff.mp ran
    simp only [popChild, parent] at isPopped
    obtain ⟨parentNode, parentNow, rfl⟩ := Option.map_eq_some_iff.mp isPopped
    exact ⟨middle, parentNode, freedChildren, parentNow, if_neg notScreen⟩

/-- The end of `graphics_info_free`, behind the loop over the children. -/
theorem Freeing.freed_self {pops : Nat → Bool} {nodes start middle : Nodes} {rank : Nat → Nat}
    {p r : Nat} {node parentNode : GraphicsNode} (owned : Owned nodes rank)
    (child : ChildOf nodes r p) (freeing : Freeing nodes start middle p node)
    (parentNow : middle r = some parentNode) :
    Freed pops nodes start (Function.update (middle.set r (parentNode.withChildren
      (Elements.vectorPopElement (pops p) parentNode.children p))) p none) p r := by
  have notBelow := owned.not_descends_parent child
  have apart : r ≠ p := by
    rintro rfl
    exact notBelow .refl
  generalize afterIs : Function.update (middle.set r (parentNode.withChildren
    (Elements.vectorPopElement (pops p) parentNode.children p))) p none = after
  have gone : after p = none := by rw [← afterIs, Function.update_self]
  have elsewhere : ∀ {q}, q ≠ p → q ≠ r → after q = middle q := by
    intro q notHere notParent
    rw [← afterIs, Function.update_of_ne notHere, Nodes.set, Function.update_of_ne notParent]
  have notParent : ∀ {q}, Descends nodes p q → q ≠ r := by
    rintro q below rfl
    exact notBelow below
  refine ⟨gone, fun q below => ?_, fun {q c} below isChild isGone => ?_, fun q outside other => ?_,
    fun g parentStart => ?_⟩
  · by_cases here : q = p
    · exact .inl (here ▸ gone)
    · rw [elsewhere here (notParent below)]
      exact freeing.below q below here
  · by_cases here : q = p
    · exact here ▸ gone
    · have notHere : c ≠ p := by
        rintro rfl
        exact owned.not_descends_parent isChild below
      rw [elsewhere notHere (notParent (below.tail isChild))] at isGone
      rw [elsewhere here (notParent below)]
      exact freeing.upward below here isChild isGone
  · have notHere : q ≠ p := by
      rintro rfl
      exact outside .refl
    rw [elsewhere notHere other, freeing.frame q outside]
  · rw [← freeing.frame r notBelow, parentNow, Option.some.injEq] at parentStart
    subst parentStart
    rw [← afterIs, Function.update_of_ne apart, Nodes.set, Function.update_self]

/-- `graphics_info_free` of a node among the children of `r`. -/
theorem graphicsInfoFree_spec {pops : Nat → Bool} {fuel : Nat} {nodes now after : Nodes}
    {rank : Nat → Nat} (owned : Owned nodes rank) {screen p r : Nat}
    (top : ∀ node, nodes screen = some node → node.parent = none) (child : ChildOf nodes r p)
    (agrees : ∀ q, Descends nodes p q → now q = nodes q)
    (ran : graphicsInfoFree pops fuel now screen p = some after) :
    Freed pops nodes now after p r := by
  induction fuel generalizing now after p r with
  | zero => simp [graphicsInfoFree] at ran
  | succ fuel ih =>
    obtain ⟨parentNode, parentLive, member⟩ := child
    obtain ⟨node, live, parent⟩ := owned.child parentLive member
    have notScreen : p ≠ screen := by
      rintro rfl
      simp [top node live] at parent
    obtain ⟨middle, parentNow, freedChildren, parentLiveNow, rfl⟩ :=
      graphicsInfoFree_succ (by rw [agrees p .refl, live]) parent notScreen ran
    -- The children first; a child that is freed has not been touched before.
    have freeing : Freeing nodes now middle p node := by
      refine @freeChildren_spec pops _ _ _ _ _ _ owned live ?_ _ _ _ (.start_of owned live agrees)
        freedChildren
      intro current freeing c child after ranChild
      exact ih child (freeing.agrees owned child (ne_none_of_free ranChild)) ranChild
    exact freeing.freed_self owned ⟨parentNode, parentLive, member⟩ parentLiveNow

section Left

variable {pops : Nat → Bool} {nodes after : Nodes} {rank : Nat → Nat} {p r q : Nat}
  {node' : GraphicsNode} (child : ChildOf nodes r p) (freed : Freed pops nodes nodes after p r)

include child freed

/-- A node that is left is as it was, or it is the parent with its new vector. -/
theorem Freed.left (live : after q = some node') :
    after q = nodes q ∨ (q = r ∧ ∃ parentNode, nodes r = some parentNode ∧
      node' = parentNode.withChildren
        (Elements.vectorPopElement (pops p) parentNode.children p)) := by
  by_cases below : Descends nodes p q
  · exact .inl ((freed.below q below).resolve_left (by simp [live]))
  by_cases isParent : q = r
  · subst isParent
    obtain ⟨parentNode, parentLive, -⟩ := child
    rw [freed.popped parentNode parentLive, Option.some.injEq] at live
    exact .inr ⟨rfl, parentNode, parentLive, live.symm⟩
  · exact .inl (freed.frame q below isParent)

/-- No node appears, and no child. -/
theorem Freed.before (live : after q = some node') :
    ∃ node, nodes q = some node ∧ node'.children <+ node.children := by
  rcases freed.left child live with same | ⟨rfl, parentNode, parentLive, rfl⟩
  · exact ⟨node', same ▸ live, .refl _⟩
  · exact ⟨parentNode, parentLive, Elements.vectorPopElement_sublist _ _ _⟩

/-- The children that are left in the vectors are there: a node whose child was freed is freed, too,
and the parent has lost the one that it had. -/
theorem Freed.owned (owned : Owned nodes rank) (served : pops p = true) : Owned after rank := by
  refine ⟨fun {q node' c} live member => ?_, fun {q node'} live => ?_, fun {q c} isChild => ?_⟩
  · obtain ⟨node, liveBefore, sub⟩ := freed.before child live
    have isChild : ChildOf nodes q c := ⟨node, liveBefore, sub.subset member⟩
    obtain ⟨childNode, childLive, parent⟩ := owned.child liveBefore (sub.subset member)
    have notHere : c ≠ p := by
      rintro rfl
      obtain rfl := owned.parent_unique child isChild
      rw [freed.popped node liveBefore, Option.some.injEq, served] at live
      rw [← live] at member
      exact (owned.nodup liveBefore).not_mem_erase member
    by_cases below : Descends nodes p c
    · have there : after c ≠ none := fun isGone => by
        have parentGone := freed.upward (owned.descends_of_child below isChild notHere) isChild isGone
        rw [live] at parentGone
        cases parentGone
      exact ⟨childNode, by rw [(freed.below c below).resolve_left there, childLive], parent⟩
    · by_cases isParent : c = r
      · subst isParent
        exact ⟨_, freed.popped childNode childLive, parent⟩
      · exact ⟨childNode, by rw [freed.frame c below isParent, childLive], parent⟩
  · obtain ⟨node, liveBefore, sub⟩ := freed.before child live
    exact sub.nodup (owned.nodup liveBefore)
  · obtain ⟨node', live, member⟩ := isChild
    obtain ⟨node, liveBefore, sub⟩ := freed.before child live
    exact owned.rank_lt ⟨node, liveBefore, sub.subset member⟩

end Left

end ViOS.Graphics
