import ViOS.Graphics.MoveBounds

/-! # Freeing a subtree

`graphics_info_children_free` walks through the vector of children with an index, while each
child it frees takes itself out of that vector.  The next child then stands at the index that
was just visited, and is passed over.  `vector_pop_element` asks for a buffer first, and
without it the child stays in the vector, and the next one is visited.  `kfree` has an empty
body, so the pixels that were freed just before do not make room for that buffer.

* `graphicsInfoFreeLogged` — the code, with a log of what is handed to `kfree`.
* `visited` — the children that the loop gets to.
* `graphicsInfoFreeLogged_spec` — what is freed is what is reached through such children.
* `freeSubtree_iff` — the subtrees that are freed as a whole.
-/

namespace ViOS.Graphics

open ViOS.Lib
open scoped List

/-! ## The code -/

/-- What `kfree` is called for. -/
inductive FreedBlock where
  | pixels (node : Nat)
  | node (node : Nat)
  deriving DecidableEq

/-- The memory, and what was freed so far. -/
abbrev FreeState := Nodes × List FreedBlock

/-- The loop of `graphics_info_children_free`. -/
def freeChildrenLogged (free : Nodes → Nat → Option FreeState) (graphicsInfo : Nat) (state : FreeState)
    (indices : List Nat) : Option FreeState :=
  indices.foldlM (fun state i =>
    match state.1 graphicsInfo with
    | none => none
    | some node =>
      match node.children[i]? with
      | none => some state
      | some child => (free state.1 child).map fun result => (result.1, state.2 ++ result.2)) state

/-- `graphics_info_free`.  No node has `GRAPHICS_FLAG_CLONED_FRAMEBUFFER`, so the framebuffer, which all
nodes share, is not freed. -/
def graphicsInfoFreeLogged (pops : Nat → Bool) : Nat → Nodes → Nat → Nat → Option FreeState
  | 0, _, _, _ => none
  | fuel + 1, nodes, screen, graphicsIn =>
    match nodes graphicsIn with
    | none => none
    | some node =>
      match freeChildrenLogged (fun nodes child => graphicsInfoFreeLogged pops fuel nodes screen child) graphicsIn
        (nodes, []) (List.range node.children.length) with
      | none => none
      | some (nodes, freed) =>
        (popChild pops nodes node.parent graphicsIn).map fun nodes =>
          if graphicsIn = screen then (nodes, freed ++ [.pixels graphicsIn])
          else (Function.update nodes graphicsIn none, freed ++ [.pixels graphicsIn, .node graphicsIn])

theorem freeChildrenLogged_nodes {freeLogged : Nodes → Nat → Option FreeState} {free : Nodes → Nat → Option Nodes}
    (same : ∀ nodes child, (freeLogged nodes child).map Prod.fst = free nodes child) (graphicsInfo : Nat)
    (indices : List Nat) (state : FreeState) :
    (freeChildrenLogged freeLogged graphicsInfo state indices).map Prod.fst =
      freeChildren free graphicsInfo state.1 indices := by
  induction indices generalizing state with
  | nil => rfl
  | cons i indices ih =>
    rw [freeChildrenLogged, freeChildren, List.foldlM_cons, List.foldlM_cons]
    cases state.1 graphicsInfo with
    | none => rfl
    | some node =>
      cases index : node.children[i]? with
      | none =>
        simp only [index]
        exact ih state
      | some child =>
        simp only [index]
        rw [← same]
        cases freeLogged state.1 child with
        | none => rfl
        | some result => exact ih (result.1, state.2 ++ result.2)

/-- The log is all that is added to the code. -/
theorem graphicsInfoFreeLogged_nodes (pops : Nat → Bool) (fuel : Nat) (nodes : Nodes) (screen p : Nat) :
    (graphicsInfoFreeLogged pops fuel nodes screen p).map Prod.fst = graphicsInfoFree pops fuel nodes screen p := by
  induction fuel generalizing nodes p with
  | zero => rfl
  | succ fuel ih =>
    rw [graphicsInfoFreeLogged, graphicsInfoFree]
    cases nodes p with
    | none => rfl
    | some node =>
      have loop := freeChildrenLogged_nodes (fun nodes child => ih nodes child) p (List.range node.children.length)
        (nodes, [])
      simp only
      rw [← loop]
      cases freeChildrenLogged _ p (nodes, []) (List.range node.children.length) with
      | none => rfl
      | some state =>
        simp only [Option.map_some, Option.map_map]
        congr 1
        funext nodes
        by_cases isScreen : p = screen
        · simp [isScreen]
        · simp [isScreen]

/-! ## What is asked of the code -/

/-- The blocks of some nodes, each of them once. -/
structure BlocksOf (nodes : Nat → Prop) (freed : List FreedBlock) : Prop where
  once : freed.Nodup
  of : ∀ block, block ∈ freed ↔ ∃ q, nodes q ∧ (block = .pixels q ∨ block = .node q)

/-- The node `p` is freed with everything below it, and taken out of the vector of `r`. -/
structure FreesSubtree (nodes after : Nodes) (freed : List FreedBlock) (p r : Nat) : Prop where
  blocks : BlocksOf (Descends nodes p) freed
  gone : ∀ q, Descends nodes p q → after q = none
  popped : ∀ parentNode, nodes r = some parentNode →
    after r = some (parentNode.withChildren (parentNode.children.erase p))
  frame : ∀ q, ¬ Descends nodes p q → q ≠ r → after q = nodes q

/-! ## The children that are visited -/

/-- The children that the loop gets to.  A child that is taken out of the vector makes it pass over
the next one. -/
def visited (pops : Nat → Bool) : Bool → List Nat → List Nat
  | _, [] => []
  | true, _ :: rest => visited pops false rest
  | false, c :: rest => c :: visited pops (pops c) rest

theorem visited_sublist (pops : Nat → Bool) (passes : Bool) (children : List Nat) :
    visited pops passes children <+ children := by
  induction children generalizing passes with
  | nil => exact .refl []
  | cons c rest ih =>
    cases passes with
    | true => exact (ih false).cons c
    | false => exact (ih (pops c)).cons_cons c

/-- All children are visited when all but the last stay in the vector. -/
theorem visited_all_iff {pops : Nat → Bool} {children : List Nat} (nodup : children.Nodup) :
    (∀ c ∈ children, c ∈ visited pops false children) ↔ ∀ c ∈ children.dropLast, pops c = false := by
  induction children with
  | nil => simp
  | cons c rest ih =>
    obtain ⟨fresh, nodupRest⟩ := List.nodup_cons.mp nodup
    cases rest with
    | nil => simp [visited]
    | cons d rest =>
      rw [List.dropLast_cons_cons, @List.forall_mem_cons _ (fun e => pops e = false)]
      cases isPopped : pops c with
      | true =>
        -- The next child is passed over, and it is not among the later ones.
        refine iff_of_false (fun all => ?_) (fun stay => nomatch stay.1)
        have missed := all d (by simp)
        simp only [visited, isPopped, List.mem_cons] at missed
        rcases missed with rfl | later
        · exact fresh List.mem_cons_self
        · exact (List.nodup_cons.mp nodupRest).1 ((visited_sublist pops false rest).subset later)
      | false =>
        rw [← ih nodupRest]
        have same : visited pops false (c :: d :: rest) = c :: visited pops false (d :: rest) := by
          rw [visited, isPopped]
        rw [same]
        constructor
        · refine fun all => ⟨rfl, fun e member => ?_⟩
          refine (List.mem_cons.mp (all e (List.mem_cons_of_mem c member))).resolve_left ?_
          rintro rfl
          exact fresh member
        · intro ⟨_, all⟩ e member
          cases List.mem_cons.mp member with
          | inl isFirst => exact isFirst ▸ List.mem_cons_self
          | inr later => exact List.mem_cons_of_mem c (all e later)

/-- The nodes reached from `p` through children that are visited. -/
def Reached (pops : Nat → Bool) (nodes : Nodes) : Nat → Nat → Prop :=
  Relation.ReflTransGen fun q c => ∃ node, nodes q = some node ∧ c ∈ visited pops false node.children

section Reached

variable {pops : Nat → Bool} {nodes : Nodes} {rank : Nat → Nat} {p q : Nat} {node : GraphicsNode}

theorem Reached.descends (reached : Reached pops nodes p q) : Descends nodes p q := by
  refine reached.lift id fun b c isVisited => ?_
  obtain ⟨node, live, member⟩ := isVisited
  exact ⟨node, live, (visited_sublist _ _ _).subset member⟩

theorem reached_iff (live : nodes p = some node) :
    Reached pops nodes p q ↔ q = p ∨ ∃ c ∈ visited pops false node.children, Reached pops nodes c q := by
  rw [Reached, Relation.ReflTransGen.cases_head_iff]
  refine or_congr eq_comm (exists_congr fun c => and_congr_left fun _ => ?_)
  constructor
  · rintro ⟨node', live', member⟩
    rw [live, Option.some.injEq] at live'
    exact live' ▸ member
  · exact fun member => ⟨node, live, member⟩

/-- Everything below a node is reached just when no child below it is passed over. -/
theorem Owned.reached_all_iff (owned : Owned nodes rank) :
    (∀ q, Descends nodes p q → Reached pops nodes p q) ↔
      ∀ q, Descends nodes p q → ∀ node, nodes q = some node → ∀ c ∈ node.children.dropLast, pops c = false := by
  constructor
  · intro all q below node live
    refine (visited_all_iff (owned.nodup live)).mp fun c member => ?_
    have isChild : ChildOf nodes q c := ⟨node, live, member⟩
    rcases Relation.ReflTransGen.cases_tail (all c (below.tail isChild)) with same | ⟨b, -, node', live', isVisited⟩
    · exact absurd below (same ▸ owned.not_descends_parent isChild)
    · -- The node above the child on that way is its parent.
      obtain rfl := owned.parent_unique isChild ⟨node', live', (visited_sublist _ _ _).subset isVisited⟩
      rw [live, Option.some.injEq] at live'
      exact live' ▸ isVisited
  · intro stay q below
    induction below with
    | refl => exact .refl
    | @tail b c below isChild ih =>
      obtain ⟨node, live, member⟩ := isChild
      exact ih.tail ⟨node, live, (visited_all_iff (owned.nodup live)).mpr (stay b below node live) c member⟩

end Reached

/-- No node is below two children of a node. -/
theorem Owned.sibling_unique {nodes : Nodes} {rank : Nat → Nat} (owned : Owned nodes rank) {p c d q : Nat}
    (first : ChildOf nodes p c) (second : ChildOf nodes p d) (belowFirst : Descends nodes c q)
    (belowSecond : Descends nodes d q) : c = d := by
  induction belowFirst with
  | refl =>
    by_contra apart
    exact owned.not_descends_sibling second first apart belowSecond
  | @tail b q belowFirst isChild ih =>
    by_cases isSecond : q = d
    · by_contra apart
      exact owned.not_descends_sibling first second (Ne.symm apart) (isSecond ▸ belowFirst.tail isChild)
    · exact ih (owned.descends_of_child belowSecond isChild isSecond)

/-! ## The loop -/

/-- A child is freed and its log appended. -/
def freeChild (free : Nodes → Nat → Option FreeState) (state : FreeState) (child : Nat) : Option FreeState :=
  (free state.1 child).map fun result => (result.1, state.2 ++ result.2)

/-- An index behind the end of the vector is skipped. -/
theorem freeChildrenLogged_beyond {free : Nodes → Nat → Option FreeState} {p : Nat} {state : FreeState}
    {node : GraphicsNode} (here : state.1 p = some node) {indices : List Nat}
    (beyond : ∀ i ∈ indices, node.children.length ≤ i) : freeChildrenLogged free p state indices = some state := by
  induction indices with
  | nil => rfl
  | cons i indices ih =>
    have index : node.children[i]? = none := List.getElem?_eq_none (beyond i List.mem_cons_self)
    rw [freeChildrenLogged, List.foldlM_cons, here]
    simp only [index]
    exact ih fun j member => beyond j (List.mem_cons_of_mem i member)

/-- What is asked of freeing one child, from a state of the loop over the children of `p`. -/
def FreesChildren (pops : Nat → Bool) (nodes start : Nodes) (p : Nat) (node : GraphicsNode)
    (free : Nodes → Nat → Option FreeState) : Prop :=
  ∀ now, Freeing nodes start now p node → ∀ c, ChildOf nodes p c → ∀ after freed,
    free now c = some (after, freed) → Freed pops nodes now after c p

section Loop

variable {pops : Nat → Bool} {nodes start now : Nodes} {rank : Nat → Nat} {p : Nat} {node : GraphicsNode}
  {free : Nodes → Nat → Option FreeState} (owned : Owned nodes rank) (live : nodes p = some node)
  (each : FreesChildren pops nodes start p node free)

include owned live each

/-- The loop frees the children that are visited.  The index is the number of children in front of it. -/
theorem freeChildrenLogged_visited (count : Nat) {front suffix : List Nat} (enough : suffix.length ≤ count)
    (freeing : Freeing nodes start now p node) (here : now p = some (node.withChildren (front ++ suffix)))
    (log : List FreedBlock) :
    freeChildrenLogged free p (now, log) (List.range' front.length count) =
      (visited pops false suffix).foldlM (freeChild free) (now, log) := by
  induction count generalizing now front suffix log with
  | zero =>
    obtain rfl := List.length_eq_zero_iff.mp (Nat.le_zero.mp enough)
    rfl
  | succ count ih =>
    cases suffix with
    | nil =>
      refine freeChildrenLogged_beyond here fun i member => ?_
      rw [List.append_nil]
      exact (List.mem_range'_1.mp member).1
    | cons c rest =>
      have inNode : front ++ c :: rest <+ node.children := by
        obtain ⟨children, hereToo, sub⟩ := freeing.here
        have same : children = front ++ c :: rest :=
          congrArg GraphicsNode.children (Option.some.inj (hereToo.symm.trans here))
        exact same ▸ sub
      have child : ChildOf nodes p c := ⟨node, live, inNode.subset (by simp)⟩
      have nodup := inNode.nodup (owned.nodup live)
      have index : (node.withChildren (front ++ c :: rest)).children[front.length]? = some c := by
        simp [GraphicsNode.withChildren]
      rw [List.range'_succ, freeChildrenLogged, List.foldlM_cons, visited, List.foldlM_cons, freeChild]
      simp only [here, index]
      cases result : free now c with
      | none => rfl
      | some state =>
        obtain ⟨middle, freed⟩ := state
        have freedChild := each now freeing c child middle freed result
        have popped := freedChild.popped _ here
        have freeingNext := freeing.freed owned child freedChild
        simp only [GraphicsNode.withChildren] at popped
        show freeChildrenLogged free p (middle, log ++ freed) (List.range' (front.length + 1) count) =
          (visited pops (pops c) rest).foldlM (freeChild free) (middle, log ++ freed)
        cases isPopped : pops c with
        | false =>
          rw [isPopped, Elements.vectorPopElement_false] at popped
          have hereNext : middle p = some (node.withChildren ((front ++ [c]) ++ rest)) := by
            rw [popped, List.append_assoc]
            rfl
          have next := ih (Nat.le_of_succ_le_succ enough) freeingNext hereNext (log ++ freed)
          rwa [List.length_append, List.length_singleton] at next
        | true =>
          have absent : c ∉ front := fun member => (List.nodup_append.mp nodup).2.2 c member c (by simp) rfl
          rw [isPopped, Elements.vectorPopElement_true, List.erase_append_right _ absent,
            List.erase_cons_head] at popped
          cases rest with
          | nil =>
            refine freeChildrenLogged_beyond popped fun i member => ?_
            rw [List.append_nil]
            exact Nat.le_of_lt (List.mem_range'_1.mp member).1
          | cons d rest =>
            -- The next child takes the place that was just visited.
            have hereNext : middle p = some (node.withChildren ((front ++ [d]) ++ rest)) := by
              rw [popped, List.append_assoc]
              rfl
            have next := ih (by simp only [List.length_cons] at enough; omega) freeingNext hereNext (log ++ freed)
            rwa [List.length_append, List.length_singleton] at next

end Loop

/-- The node `p` is gone with what is reached from it, and with nothing else below it. -/
structure FreesReached (pops : Nat → Bool) (nodes after : Nodes) (freed : List FreedBlock) (p : Nat) : Prop where
  gone : ∀ q, Descends nodes p q → (after q = none ↔ Reached pops nodes p q)
  blocks : BlocksOf (Reached pops nodes p) freed

theorem BlocksOf.nil {nodes : Nat → Prop} (none : ∀ q, ¬ nodes q) : BlocksOf nodes [] :=
  ⟨List.nodup_nil, fun _ => iff_of_false List.not_mem_nil fun ⟨q, isNode, _⟩ => none q isNode⟩

/-- The blocks of two groups of nodes. -/
theorem BlocksOf.append {first second : Nat → Prop} {freed later : List FreedBlock} (blocks : BlocksOf first freed)
    (laterBlocks : BlocksOf second later) (apart : ∀ q, first q → ¬ second q) {nodes : Nat → Prop}
    (both : ∀ q, nodes q ↔ first q ∨ second q) : BlocksOf nodes (freed ++ later) where
  once := by
    refine List.nodup_append.mpr ⟨blocks.once, laterBlocks.once, fun block inFirst other inSecond same => ?_⟩
    obtain ⟨q, isFirst, isBlock⟩ := (blocks.of block).mp inFirst
    obtain ⟨q', isSecond, isOther⟩ := (laterBlocks.of other).mp inSecond
    have sameNode : q = q' := by
      rw [same] at isBlock
      rcases isBlock with rfl | rfl
      · simpa [eq_comm] using isOther
      · simpa [eq_comm] using isOther
    exact apart q isFirst (sameNode ▸ isSecond)
  of block := by
    rw [List.mem_append, blocks.of, laterBlocks.of, ← exists_or]
    refine exists_congr fun q => ?_
    rw [both q]
    exact or_and_right.symm

/-- The two blocks of a node. -/
theorem BlocksOf.self (p : Nat) : BlocksOf (fun q => q = p) [.pixels p, .node p] :=
  ⟨by simp, fun block => by simp⟩

section Visited

variable {pops : Nat → Bool} {nodes start now : Nodes} {rank : Nat → Nat} {p : Nat} {node : GraphicsNode}
  {free : Nodes → Nat → Option FreeState} (owned : Owned nodes rank) (live : nodes p = some node)
  (each : FreesChildren pops nodes start p node free)
  (frees : ∀ now, Freeing nodes start now p node → ∀ c, ChildOf nodes p c → now c ≠ none →
    ∃ after freed, free now c = some (after, freed) ∧ FreesReached pops nodes after freed c)

include owned live each frees

/-- The children in a list are freed one behind the other, and the others are left alone. -/
theorem freeVisited_spec (children : List Nat) (sub : children <+ node.children)
    (freeing : Freeing nodes start now p node) (there : ∀ c ∈ children, now c ≠ none) (log : List FreedBlock) :
    ∃ after freed, children.foldlM (freeChild free) (now, log) = some (after, log ++ freed) ∧
      Freeing nodes start after p node ∧
      BlocksOf (fun q => ∃ c ∈ children, Reached pops nodes c q) freed ∧
      (∀ c ∈ children, ∀ q, Descends nodes c q → (after q = none ↔ Reached pops nodes c q)) ∧
      ∀ q, (∀ c ∈ children, ¬ Descends nodes c q) → q ≠ p → after q = now q := by
  induction children generalizing now log with
  | nil => exact ⟨now, [], by simp, freeing, .nil (by simp), by simp, fun _ _ _ => rfl⟩
  | cons c rest ih =>
    have childOf : ∀ d ∈ c :: rest, ChildOf nodes p d := fun d member => ⟨node, live, sub.subset member⟩
    have child := childOf c List.mem_cons_self
    have fresh : c ∉ rest := (List.nodup_cons.mp (sub.nodup (owned.nodup live))).1
    have apart : ∀ {d q}, d ∈ rest → Descends nodes d q → ¬ Descends nodes c q := by
      intro d q member below belowHere
      exact fresh (owned.sibling_unique child (childOf d (List.mem_cons_of_mem c member)) belowHere below ▸ member)
    have notHere : ∀ {d q}, d ∈ c :: rest → Descends nodes d q → q ≠ p := by
      rintro d q member below rfl
      exact owned.not_descends_parent (childOf d member) below
    obtain ⟨middle, freed, ran, freesFirst⟩ :=
      frees now freeing c child (there c List.mem_cons_self)
    have freedChild := each now freeing c child middle freed ran
    have thereNext : ∀ d ∈ rest, middle d ≠ none := by
      intro d member
      have inList := List.mem_cons_of_mem c member
      rw [freedChild.frame d (apart member .refl) (notHere inList .refl)]
      exact there d inList
    obtain ⟨after, later, ranRest, freeingAfter, blocks, gone, frame⟩ :=
      ih ((List.sublist_cons_self c rest).trans sub) (freeing.freed owned child freedChild) thereNext (log ++ freed)
    refine ⟨after, freed ++ later, ?_, freeingAfter, ?_, ?_, ?_⟩
    · rw [List.foldlM_cons, freeChild, ran, ← List.append_assoc]
      exact ranRest
    · refine freesFirst.blocks.append blocks (fun q reached => ?_) fun q => by simp
      rintro ⟨d, member, reachedLater⟩
      exact apart member reachedLater.descends reached.descends
    · intro d member q below
      cases List.mem_cons.mp member with
      | inl isFirst =>
        subst isFirst
        rw [frame q (fun e inRest belowLater => apart inRest belowLater below) (notHere member below)]
        exact freesFirst.gone q below
      | inr inRest => exact gone d inRest q below
    · intro q outside other
      rw [frame q (fun d member => outside d (List.mem_cons_of_mem c member)) other]
      exact freedChild.frame q (outside c List.mem_cons_self) other

end Visited

section Node

variable {pops : Nat → Bool} {nodes after : Nodes} {rank : Nat → Nat} {screen p r : Nat} {fuel : Nat}

/-- No node is above the screen. -/
def IsTop (nodes : Nodes) (screen : Nat) : Prop := ∀ node, nodes screen = some node → node.parent = none

/-- A child of `r`, with what its own vector says. -/
theorem Owned.node_of_child (owned : Owned nodes rank) (top : IsTop nodes screen) (child : ChildOf nodes r p) :
    ∃ node, nodes p = some node ∧ node.parent = some r ∧ p ≠ screen := by
  obtain ⟨parentNode, parentLive, member⟩ := child
  obtain ⟨node, live, parent⟩ := owned.child parentLive member
  refine ⟨node, live, parent, ?_⟩
  rintro rfl
  cases (top node live).symm.trans parent

theorem graphicsInfoFree_of_logged {now : Nodes} {freed : List FreedBlock}
    (ran : graphicsInfoFreeLogged pops fuel now screen p = some (after, freed)) :
    graphicsInfoFree pops fuel now screen p = some after := by
  rw [← graphicsInfoFreeLogged_nodes, ran, Option.map_some]

theorem freesChildren (owned : Owned nodes rank) (top : IsTop nodes screen) (start : Nodes) (node : GraphicsNode) :
    FreesChildren pops nodes start p node fun nodes child => graphicsInfoFreeLogged pops fuel nodes screen child := by
  intro now freeing c child after freed ran
  have ranNodes := graphicsInfoFree_of_logged ran
  exact graphicsInfoFree_spec owned top child (freeing.agrees owned child (ne_none_of_free ranNodes)) ranNodes

/-- With fuel for the ranks below the node, freeing it ends, and what is freed is what is reached. -/
theorem graphicsInfoFreeLogged_spec {bound : Nat} {now : Nodes} (owned : Owned nodes rank) (top : IsTop nodes screen)
    (bounded : ∀ q node, nodes q = some node → rank q < bound) (child : ChildOf nodes r p)
    (parentThere : now r ≠ none) (agrees : ∀ q, Descends nodes p q → now q = nodes q) (enough : bound ≤ fuel + rank p) :
    ∃ after freed, graphicsInfoFreeLogged pops fuel now screen p = some (after, freed) ∧
      FreesReached pops nodes after freed p := by
  induction fuel generalizing now p r with
  | zero =>
    obtain ⟨node, live, -⟩ := owned.node_of_child top child
    have := bounded p node live
    omega
  | succ fuel ih =>
    obtain ⟨node, live, parent, notScreen⟩ := owned.node_of_child top child
    have above := owned.not_descends_parent child
    have here : now p = some node := (agrees p .refl).trans live
    have start : Freeing nodes now now p node := .start_of owned live agrees
    have sub := visited_sublist pops false node.children
    have there : ∀ c ∈ visited pops false node.children, now c ≠ none := by
      intro c member
      obtain ⟨childNode, childLive, -⟩ := owned.child live (sub.subset member)
      rw [agrees c (.single ⟨node, live, sub.subset member⟩), childLive]
      exact Option.some_ne_none childNode
    have each : FreesChildren pops nodes now p node
        fun nodes child => graphicsInfoFreeLogged pops fuel nodes screen child := freesChildren owned top now node
    have frees : ∀ current, Freeing nodes now current p node → ∀ c, ChildOf nodes p c → current c ≠ none →
        ∃ after freed, graphicsInfoFreeLogged pops fuel current screen c = some (after, freed) ∧
          FreesReached pops nodes after freed c := by
      intro current freeing c child there
      obtain ⟨children, hereNow, -⟩ := freeing.here
      have deeper := owned.rank_lt child
      exact ih child (by simp [hereNow]) (freeing.agrees owned child there) (by omega)
    obtain ⟨middle, freed, ran, freeing, blocks, gone, frame⟩ :=
      freeVisited_spec owned live each frees _ sub start there []
    have loop : freeChildrenLogged (fun nodes child => graphicsInfoFreeLogged pops fuel nodes screen child) p (now, [])
        (List.range' 0 node.children.length) = _ :=
      @freeChildrenLogged_visited _ _ _ _ _ _ _ _ owned live each _ [] _ (Nat.le_refl _) start here []
    rw [← List.range_eq_range', ran, List.nil_append] at loop
    obtain ⟨parentNode, parentNow⟩ : ∃ parentNode, middle r = some parentNode := by
      rw [freeing.frame r above]
      exact Option.ne_none_iff_exists'.mp parentThere
    have isResult : graphicsInfoFreeLogged pops (fuel + 1) now screen p =
        some (Function.update (middle.set r (parentNode.withChildren (Elements.vectorPopElement (pops p)
          parentNode.children p))) p none, freed ++ [.pixels p, .node p]) := by
      simp only [graphicsInfoFreeLogged, here, loop, popChild, parent, parentNow, Option.map_some, if_neg notScreen]
    refine ⟨_, _, isResult, fun q below => ?_, ?_⟩
    · by_cases isNode : q = p
      · rw [isNode, Function.update_self]
        exact iff_of_true rfl .refl
      have notAbove : q ≠ r := by
        rintro rfl
        exact above below
      rw [Function.update_of_ne isNode, Nodes.set, Function.update_of_ne notAbove, reached_iff live]
      by_cases isVisited : ∃ c ∈ visited pops false node.children, Descends nodes c q
      · obtain ⟨c, member, belowChild⟩ := isVisited
        rw [gone c member q belowChild]
        refine ⟨fun reached => .inr ⟨c, member, reached⟩, fun reached => ?_⟩
        obtain ⟨d, member', reached⟩ := reached.resolve_left isNode
        exact owned.sibling_unique ⟨node, live, sub.subset member⟩ ⟨node, live, sub.subset member'⟩ belowChild
          reached.descends ▸ reached
      · rw [frame q (fun c member belowChild => isVisited ⟨c, member, belowChild⟩) isNode, agrees q below]
        obtain ⟨b, -, isChild⟩ := below.cases_parent.resolve_left isNode
        obtain ⟨g, liveParent, member⟩ := isChild
        obtain ⟨childNode, childLive, -⟩ := owned.child liveParent member
        refine iff_of_false (by simp [childLive]) fun reached => ?_
        obtain ⟨c, member, reached⟩ := reached.resolve_left isNode
        exact isVisited ⟨c, member, reached.descends⟩
    · refine blocks.append (.self p) (fun q reached isNode => ?_) fun q => by rw [reached_iff live, or_comm]
      obtain ⟨c, member, reached⟩ := reached
      exact owned.not_descends_parent ⟨node, live, sub.subset member⟩ (isNode ▸ reached.descends)

end Node

/-! ## The subtree of a node -/

theorem freeLogged_returns {nodes : Nodes} {rank : Nat → Nat} {screen p r : Nat} (pops : Nat → Bool)
    (owned : Owned nodes rank) (few : FewNodes nodes) (top : IsTop nodes screen) (child : ChildOf nodes r p) :
    ∃ bound, ∀ fuel ≥ bound, ∃ after freed,
      graphicsInfoFreeLogged pops fuel nodes screen p = some (after, freed) ∧
        Freed pops nodes nodes after p r ∧ FreesReached pops nodes after freed p := by
  obtain ⟨addresses, liveIn⟩ := few
  obtain ⟨bound, bounded⟩ := liveIn.bounded rank
  refine ⟨bound, fun fuel enough => ?_⟩
  have parentThere : nodes r ≠ none := by
    obtain ⟨parentNode, parentLive, -⟩ := child
    simp [parentLive]
  obtain ⟨after, freed, ran, frees⟩ := graphicsInfoFreeLogged_spec owned top bounded child parentThere
    (fun _ _ => rfl) (Nat.le_add_right_of_le enough)
  exact ⟨after, freed, ran, graphicsInfoFree_spec owned top child (fun _ _ => rfl) (graphicsInfoFree_of_logged ran),
    frees⟩

/-- Freeing a node ends.  It frees the subtree just when the node is taken out of its parent's vector and
no child in the subtree but the last one of its vector is. -/
theorem freeSubtree_iff (nodes : Nodes) (rank : Nat → Nat) (owned : Owned nodes rank) (few : FewNodes nodes)
    (screen p r : Nat) (top : IsTop nodes screen) (child : ChildOf nodes r p) (pops : Nat → Bool) :
    ∃ bound, ∀ fuel ≥ bound, ∃ after freed,
      graphicsInfoFreeLogged pops fuel nodes screen p = some (after, freed) ∧
        (FreesSubtree nodes after freed p r ↔ pops p = true ∧
          ∀ q, Descends nodes p q → ∀ node, nodes q = some node → ∀ c ∈ node.children.dropLast, pops c = false) := by
  obtain ⟨bound, returns⟩ := freeLogged_returns pops owned few top child
  refine ⟨bound, fun fuel enough => ?_⟩
  obtain ⟨after, freed, ran, spec, frees⟩ := returns fuel enough
  refine ⟨after, freed, ran, ?_⟩
  rw [← owned.reached_all_iff]
  constructor
  · intro whole
    refine ⟨?_, fun q below => (frees.gone q below).mp (whole.gone q below)⟩
    -- The node has left the vector of its parent.
    obtain ⟨parentNode, parentLive, member⟩ := child
    by_contra notPopped
    rw [Bool.not_eq_true] at notPopped
    have popped := spec.popped parentNode parentLive
    rw [whole.popped parentNode parentLive, notPopped] at popped
    have same := congrArg GraphicsNode.children (Option.some.inj popped)
    simp only [GraphicsNode.withChildren, Elements.vectorPopElement_false] at same
    exact (owned.nodup parentLive).not_mem_erase (same.symm ▸ member)
  · rintro ⟨isPopped, all⟩
    have same : Reached pops nodes p = Descends nodes p := by
      funext q
      exact propext ⟨Reached.descends, all q⟩
    refine ⟨same ▸ frees.blocks, fun q below => (frees.gone q below).mpr (all q below), ?_, spec.frame⟩
    intro parentNode parentLive
    rw [spec.popped parentNode parentLive, isPopped, Elements.vectorPopElement_true]

/-- A node of two by two pixels. -/
def linkedNode (parent : Option Nat) (children : List Nat) : GraphicsNode :=
  ⟨⟨4, 3, 5, fun _ => noTransparencyColor, 2, 2, 0, 0, noTransparencyColor⟩, 0, 0, parent, children, 1, false⟩

/-- A window under the screen `0`, with some parts. -/
def windowOver (parts : List Nat) : Nodes := fun p =>
  if p = 0 then some (linkedNode none [1])
  else if p = 1 then some (linkedNode (some 0) parts)
  else if p ∈ parts then some (linkedNode (some 1) [])
  else none

section WindowOver

variable {parts : List Nat} (numbered : ∀ p ∈ parts, 2 ≤ p) (nodup : parts.Nodup)

include numbered

theorem windowOver_part {p : Nat} (member : p ∈ parts) :
    windowOver parts p = some (linkedNode (some 1) []) := by
  have := numbered p member
  rw [windowOver, if_neg (by omega), if_neg (by omega), if_pos member]

/-- A node below another one has a greater address. -/
theorem windowOver_child {p : Nat} {node : GraphicsNode} (live : windowOver parts p = some node) {c : Nat}
    (member : c ∈ node.children) :
    p < c ∧ ∃ childNode, windowOver parts c = some childNode ∧ childNode.parent = some p := by
  unfold windowOver at live
  split_ifs at live with isScreen isWindow isPart
  · obtain rfl := Option.some.inj live
    rw [List.mem_singleton.mp member, isScreen]
    exact ⟨Nat.zero_lt_one, _, rfl, rfl⟩
  · obtain rfl := Option.some.inj live
    have := numbered c member
    exact ⟨by omega, _, windowOver_part numbered member, isWindow ▸ rfl⟩
  · obtain rfl := Option.some.inj live
    cases member

include nodup

theorem windowOver_owned : Owned (windowOver parts) id where
  child live member := (windowOver_child numbered live member).2
  nodup live := by
    unfold windowOver at live
    split_ifs at live
    · exact Option.some.inj live ▸ List.nodup_singleton 1
    · exact Option.some.inj live ▸ nodup
    · exact Option.some.inj live ▸ List.nodup_nil
  rank_lt child := by
    obtain ⟨node, live, member⟩ := child
    exact (windowOver_child numbered live member).1

end WindowOver

theorem windowOver_few (parts : List Nat) : FewNodes (windowOver parts) := by
  refine ⟨0 :: 1 :: parts, fun p node live => ?_⟩
  unfold windowOver at live
  split_ifs at live <;> simp_all

theorem windowOver_top (parts : List Nat) : IsTop (windowOver parts) 0 := by
  intro node live
  exact Option.some.inj live ▸ rfl

theorem windowOver_window (parts : List Nat) : ChildOf (windowOver parts) 0 1 :=
  ⟨linkedNode none [1], rfl, List.mem_cons_self⟩

/-- A window with one part is freed with it. -/
theorem freeSubtree_one_part : ∃ bound, ∀ fuel ≥ bound, ∃ after freed,
    graphicsInfoFreeLogged (fun _ => true) fuel (windowOver [2]) 0 1 = some (after, freed) ∧
      FreesSubtree (windowOver [2]) after freed 1 0 := by
  obtain ⟨bound, results⟩ := freeSubtree_iff (windowOver [2]) id (windowOver_owned (by simp) (by simp))
    (windowOver_few [2]) 0 1 0 (windowOver_top [2]) (windowOver_window [2]) fun _ => true
  refine ⟨bound, fun fuel enough => ?_⟩
  obtain ⟨after, freed, ran, iff⟩ := results fuel enough
  refine ⟨after, freed, ran, iff.mpr ⟨rfl, fun q _ node live => ?_⟩⟩
  unfold windowOver at live
  split_ifs at live
  all_goals
    obtain rfl := Option.some.inj live
    simp [linkedNode]

/-- The second part of a window stays behind. -/
theorem freeSubtree_two_parts : Owned (windowOver [2, 3]) id ∧ ChildOf (windowOver [2, 3]) 0 1 ∧
    ∃ bound, ∀ fuel ≥ bound, ∃ after freed,
      graphicsInfoFreeLogged (fun _ => true) fuel (windowOver [2, 3]) 0 1 = some (after, freed) ∧
        ¬ FreesSubtree (windowOver [2, 3]) after freed 1 0 := by
  have owned : Owned (windowOver [2, 3]) id := windowOver_owned (by simp) (by simp)
  have child := windowOver_window [2, 3]
  obtain ⟨bound, returns⟩ := freeLogged_returns (fun _ => true) owned (windowOver_few [2, 3]) (windowOver_top [2, 3])
    child
  refine ⟨owned, child, bound, fun fuel enough => ?_⟩
  obtain ⟨after, freed, ran, -, frees⟩ := returns fuel enough
  refine ⟨after, freed, ran, fun whole => ?_⟩
  have all := owned.reached_all_iff.mp fun q below => (frees.gone q below).mp (whole.gone q below)
  exact absurd (all 1 .refl (linkedNode (some 0) [2, 3]) rfl 2 (by simp [linkedNode])) (by simp)

end ViOS.Graphics
