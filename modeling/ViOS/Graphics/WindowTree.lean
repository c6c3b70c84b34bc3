import ViOS.Graphics.Windows

/-! # The nodes of windows

What the calls on windows do to the tree of nodes.  Parents may be gone after a close,
so the tree is only owned from above.

* `createParts_spec` — the creations below the root of a window.
* `stack`, `Restacked` — the children of the screen behind a new number for one of them.
* `recalculate_frame` — placing a root again stays below it.
-/

namespace ViOS.Graphics

open ViOS.Lib
open scoped List

/-! ## Links between nodes -/

/-- The same nodes with the same parents, and with the same children in some order. -/
def Relinked (nodes other : Nodes) : Prop :=
  ∀ q, Option.Rel (fun node node' => node'.parent = node.parent ∧ node'.children ~ node.children)
    (nodes q) (other q)

section Links

variable {nodes other : Nodes} {rank : Nat → Nat} {p q : Nat} {node : GraphicsNode}

theorem Relinked.refl (nodes : Nodes) : Relinked nodes nodes := by
  intro q
  cases nodes q with
  | none => exact .none
  | some node => exact .some ⟨rfl, .refl _⟩

theorem relinked_of_sameLinks (same : SameLinks nodes other) : Relinked nodes other := by
  intro q
  have links := same q
  cases live : nodes q with
  | none =>
    rw [live, Option.map_none, Option.map_eq_none_iff] at links
    rw [links]
    exact .none
  | some node =>
    obtain ⟨node', live', parent, children⟩ := same.exists_node live
    rw [live']
    exact .some ⟨parent, .of_eq children⟩

theorem Relinked.exists_node (relinked : Relinked nodes other) (live : nodes q = some node) :
    ∃ node', other q = some node' ∧ node'.parent = node.parent ∧
      node'.children ~ node.children := by
  have rel := relinked q
  rw [live] at rel
  cases after : other q with
  | none =>
    rw [after] at rel
    cases rel
  | some node' =>
    rw [after] at rel
    cases rel with
    | some same => exact ⟨node', rfl, same⟩

theorem Relinked.exists_before (relinked : Relinked nodes other) {node' : GraphicsNode}
    (live : other q = some node') :
    ∃ node, nodes q = some node ∧ node'.parent = node.parent ∧
      node'.children ~ node.children := by
  have rel := relinked q
  rw [live] at rel
  cases before : nodes q with
  | none =>
    rw [before] at rel
    cases rel
  | some node =>
    rw [before] at rel
    cases rel with
    | some same => exact ⟨node, rfl, same⟩

theorem Relinked.childOf_iff (relinked : Relinked nodes other) :
    ChildOf other p q ↔ ChildOf nodes p q := by
  constructor
  · rintro ⟨node', live', member⟩
    obtain ⟨node, live, -, children⟩ := relinked.exists_before live'
    exact ⟨node, live, children.mem_iff.mp member⟩
  · rintro ⟨node, live, member⟩
    obtain ⟨node', live', -, children⟩ := relinked.exists_node live
    exact ⟨node', live', children.mem_iff.mpr member⟩

theorem Relinked.owned (relinked : Relinked nodes other) (owned : Owned nodes rank) :
    Owned other rank where
  child := by
    intro p node' c live' member
    obtain ⟨node, live, -, children⟩ := relinked.exists_before live'
    obtain ⟨childNode, childLive, parent⟩ := owned.child live (children.mem_iff.mp member)
    obtain ⟨childNode', childLive', parent', -⟩ := relinked.exists_node childLive
    exact ⟨childNode', childLive', parent'.trans parent⟩
  nodup := by
    intro p node' live'
    obtain ⟨node, live, -, children⟩ := relinked.exists_before live'
    exact children.nodup_iff.mpr (owned.nodup live)
  rank_lt := by
    intro p c child
    exact owned.rank_lt (relinked.childOf_iff.mp child)

end Links

theorem sameLinks_clickHandler {nodes : Nodes} {p : Nat} {node : GraphicsNode}
    (live : nodes p = some node) (set : Bool) :
    SameLinks nodes (nodes.set p { node with mouseClick := set }) := by
  intro q
  by_cases here : q = p
  · simp [Nodes.set, here, live]
  · simp [Nodes.set, here]

/-- A new node is owned by its source. -/
theorem owned_addChild {nodes : Nodes} {sourceGraphics new : Nat} {source node : GraphicsNode}
    {alloc : NodeAlloc} (room : alloc.HasRoom) (live : nodes sourceGraphics = some source) (fresh : nodes new = none)
    (parent : node.parent = some sourceGraphics) (childless : node.children = [])
    {rank : Nat → Nat} (owned : Owned nodes rank) :
    ∃ rank, Owned (addChild nodes sourceGraphics source new node alloc) rank := by
  have apart := ne_of_fresh live fresh
  have notNew : ∀ {p g}, nodes p = some g → p ≠ new :=
    fun liveP => (ne_of_fresh liveP fresh).symm
  -- A child is an old one, or it is the new node.
  have childCases : ∀ {p c}, ChildOf (addChild nodes sourceGraphics source new node alloc) p c →
      ChildOf nodes p c ∨ (p = sourceGraphics ∧ c = new) := by
    rintro p c ⟨g, liveP, member⟩
    rcases addChild_cases apart liveP with ⟨rfl, rfl⟩ | ⟨rfl, rfl⟩ | ⟨-, -, liveP⟩
    · cases (mem_childrenWith room).mp member with
      | inl before => exact .inl ⟨source, live, before⟩
      | inr isNew => exact .inr ⟨rfl, isNew⟩
    · rw [childless] at member
      exact absurd member List.not_mem_nil
    · exact .inl ⟨g, liveP, member⟩
  have rankOld : ∀ {p g}, nodes p = some g →
      Function.update rank new (rank sourceGraphics + 1) p = rank p :=
    fun liveP => Function.update_of_ne (notNew liveP) _ _
  refine ⟨Function.update rank new (rank sourceGraphics + 1), ?_, ?_, ?_⟩
  · intro p g c liveP member
    cases childCases ⟨g, liveP, member⟩ with
    | inl child =>
      obtain ⟨before, liveBefore, inBefore⟩ := child
      obtain ⟨childNode, childLive, childParent⟩ := owned.child liveBefore inBefore
      obtain ⟨later, laterLive, -, sameParent, -⟩ := addChild_old live fresh childLive
      exact ⟨later, laterLive, sameParent.trans childParent⟩
    | inr isNew =>
      obtain ⟨rfl, rfl⟩ := isNew
      exact ⟨node, addChild_new apart, parent⟩
  · intro p g liveP
    rcases addChild_cases apart liveP with ⟨rfl, rfl⟩ | ⟨rfl, rfl⟩ | ⟨-, -, liveP⟩
    · have absent : new ∉ source.children := by
        intro member
        obtain ⟨childNode, childLive, -⟩ := owned.child live member
        simp [fresh] at childLive
      apply (childrenWith_perm room).nodup_iff.mpr
      rw [← List.concat_eq_append, List.nodup_concat]
      exact ⟨absent, owned.nodup live⟩
    · rw [childless]
      exact List.nodup_nil
    · exact owned.nodup liveP
  · intro p c child
    cases childCases child with
    | inl child =>
      have lower := owned.rank_lt child
      obtain ⟨before, liveBefore, inBefore⟩ := child
      obtain ⟨childNode, childLive, -⟩ := owned.child liveBefore inBefore
      rwa [rankOld liveBefore, rankOld childLive]
    | inr isNew =>
      obtain ⟨rfl, rfl⟩ := isNew
      rw [rankOld live, Function.update_self]
      exact Nat.lt_succ_self _

/-! ## The nodes of a new window -/

/-- What the creations below a root may change: the children of the root, and the new addresses. -/
structure PartsAdded (root : Nat) (rootNode : GraphicsNode) (addresses : List Nat)
    (nodes after : Nodes) : Prop where
  owned : ∃ rank, Owned after rank
  kept : ∃ children, after root = some (rootNode.withChildren children)
  frame : ∀ q, q ≠ root → q ∉ addresses → after q = nodes q

def PartSucceeds (rootNode : GraphicsNode) (part : WindowPart) : Prop :=
  CreateSucceeds rootNode part.x part.y part.width part.height 0 part.alloc

instance (rootNode : GraphicsNode) (part : WindowPart) : Decidable (PartSucceeds rootNode part) :=
  inferInstanceAs (Decidable (CreateSucceeds _ _ _ _ _ _ _))

/-- One part: its creation fails, or the loop goes on with the part among the root's children. -/
theorem createParts_cons {root : Nat} {nodes : Nodes} {rootNode : GraphicsNode}
    (owned : ∃ rank, Owned nodes rank) (live : nodes root = some rootNode) (part : WindowPart)
    (room : part.alloc.HasRoom) (fresh : ∀ new, part.alloc.newGraphics = some new → nodes new = none)
    (rest : List WindowPart) :
    (¬ PartSucceeds rootNode part ∧ createParts root nodes (part :: rest) = some (false, nodes)) ∨
      (PartSucceeds rootNode part ∧ ∃ new middle children, part.alloc.newGraphics = some new ∧
        createParts root nodes (part :: rest) = createParts root middle rest ∧
        (∃ rank, Owned middle rank) ∧ middle root = some (rootNode.withChildren children) ∧
        children.length = rootNode.children.length + 1 ∧
        ∀ q, q ≠ root → q ≠ new → middle q = nodes q) := by
  obtain ⟨rank, owned⟩ := owned
  rcases graphicsInfoCreateRelative_cases live part.x part.y part.width part.height 0 fresh with
    ⟨fails, failed⟩ | ⟨succeeds, new, buffer, isNew, -, created⟩
  · exact .inl ⟨fails, by simp only [createParts, failed]⟩
  · refine .inr ⟨succeeds, ?_⟩
    have apart : new ≠ root := by
      rintro rfl
      simp [fresh new isNew] at live
    rw [createdNodes_room room] at created
    have ownedNew : ∃ rank, Owned (addChild nodes root rootNode new (stackedNode rootNode root
        part.x part.y part.width part.height buffer (rootNode.children.length + 1)) part.alloc) rank :=
      owned_addChild room live (fresh new isNew) rfl rfl owned
    have atNew := @addChild_new nodes root new rootNode (stackedNode rootNode root part.x part.y
      part.width part.height buffer (rootNode.children.length + 1)) part.alloc apart
    have count : (childrenWith nodes rootNode new (stackedNode rootNode root part.x part.y
        part.width part.height buffer (rootNode.children.length + 1)) part.alloc).length =
          rootNode.children.length + 1 := by
      rw [(childrenWith_perm room).length_eq, List.length_append, List.length_singleton]
    cases handler : part.clickable with
    | false =>
      refine ⟨new, _, _, isNew, ?_, ownedNew, addChild_source, count, ?_⟩
      · simp [createParts, created, handler]
      · exact fun q notRoot notNew => addChild_other notRoot notNew
    | true =>
      -- the click handler is set in the new node, which keeps its links
      have same := sameLinks_clickHandler atNew true
      obtain ⟨rankNew, ownedNew⟩ := ownedNew
      refine ⟨new, _, _, isNew, ?_, ⟨rankNew, (relinked_of_sameLinks same).owned ownedNew⟩,
        ?_, count, ?_⟩
      · simp only [createParts, created, handler, if_true, graphicsClickHandlerSet, atNew,
          Option.map_some]
      · rw [Nodes.set, Function.update_of_ne (Ne.symm apart), addChild_source]
      · intro q notRoot notNew
        rw [Nodes.set, Function.update_of_ne notNew, addChild_other notRoot notNew]

/-- The creations below a root succeed when each of them does. -/
theorem createParts_spec {root : Nat} (parts : List WindowPart) {nodes : Nodes}
    {rootNode : GraphicsNode} (owned : ∃ rank, Owned nodes rank)
    (live : nodes root = some rootNode)
    (room : ∀ part ∈ parts, part.alloc.HasRoom)
    (fresh : ∀ p ∈ (parts.map WindowPart.alloc).filterMap NodeAlloc.newGraphics, nodes p = none)
    (nodup : ((parts.map WindowPart.alloc).filterMap NodeAlloc.newGraphics).Nodup) :
    ∃ ok after, createParts root nodes parts = some (ok, after) ∧
      PartsAdded root rootNode ((parts.map WindowPart.alloc).filterMap NodeAlloc.newGraphics)
        nodes after ∧
      (ok = true ↔ ∀ part ∈ parts, PartSucceeds rootNode part) ∧
      (ok = true → ∀ node, after root = some node →
        node.children.length = rootNode.children.length + parts.length) := by
  induction parts generalizing nodes rootNode with
  | nil =>
    refine ⟨true, nodes, rfl, ⟨owned, ⟨_, live⟩, fun _ _ _ => rfl⟩, by simp, ?_⟩
    intro _ node here
    rw [live, Option.some.injEq] at here
    rw [← here, List.length_nil, Nat.add_zero]
  | cons part rest ih =>
    have freshPart : ∀ new, part.alloc.newGraphics = some new → nodes new = none := by
      intro new isNew
      exact fresh new (by simp [isNew])
    have roomRest := fun other member => room other (List.mem_cons_of_mem part member)
    rcases createParts_cons owned live part (room part List.mem_cons_self) freshPart rest with
      ⟨fails, failed⟩ | ⟨succeeds, new, middle, children, isNew, continues, ownedMiddle, liveMiddle,
        count, frame⟩
    · -- the loop stops at the first part that fails
      refine ⟨false, nodes, failed, ⟨owned, ⟨_, live⟩, fun _ _ _ => rfl⟩, ?_, by simp⟩
      simp [fails]
    · have split : ((part :: rest).map WindowPart.alloc).filterMap NodeAlloc.newGraphics =
          new :: (rest.map WindowPart.alloc).filterMap NodeAlloc.newGraphics := by
        simp [isNew]
      rw [split] at fresh nodup ⊢
      have notAgain := (List.nodup_cons.mp nodup).1
      have freshRest : ∀ p ∈ (rest.map WindowPart.alloc).filterMap NodeAlloc.newGraphics,
          middle p = none := by
        intro p member
        have old := fresh p (List.mem_cons_of_mem _ member)
        rw [frame p, old]
        · rintro rfl
          simp [old] at live
        · rintro rfl
          exact notAgain member
      obtain ⟨ok, after, ran, added, meaning, counted⟩ :=
        ih ownedMiddle liveMiddle roomRest freshRest (List.nodup_cons.mp nodup).2
      refine ⟨ok, after, continues.trans ran, ⟨added.owned, ?_, ?_⟩, ?_, ?_⟩
      · obtain ⟨last, kept⟩ := added.kept
        exact ⟨last, kept⟩
      · intro q notRoot outside
        rw [List.mem_cons, not_or] at outside
        rw [added.frame q notRoot outside.2, frame q notRoot outside.1]
      · rw [meaning, List.forall_mem_cons]
        exact (and_iff_right succeeds).symm
      · intro isOk node here
        rw [counted isOk node here, List.length_cons, ← Nat.add_assoc, Nat.add_right_comm]
        exact congrArg (· + rest.length) count

/-! ## A root among the children of the screen -/

/-- The order of stacking numbers. -/
theorem graphicsReorder_iff {nodes : Nodes} {first second : Nat} :
    graphicsReorder nodes first second = true ↔ zIndexOf nodes second < zIndexOf nodes first := by
  rw [graphicsReorder, decide_eq_true_iff]

theorem graphicsReorder_asymm (nodes : Nodes) (first second : Nat)
    (greater : graphicsReorder nodes first second) : ¬ graphicsReorder nodes second first := by
  rw [graphicsReorder_iff] at greater ⊢
  exact UInt32.lt_asymm greater

theorem graphicsReorder_trans (nodes : Nodes) (first second third : Nat)
    (notFirst : ¬ graphicsReorder nodes first second)
    (notSecond : ¬ graphicsReorder nodes second third) : ¬ graphicsReorder nodes first third := by
  rw [graphicsReorder_iff, UInt32.not_lt] at *
  exact UInt32.le_trans notFirst notSecond

/-- A sorted list stays sorted when its numbers stay. -/
theorem pairwise_reorder_congr {nodes after : Nodes} {l : List Nat}
    (sorted : l.Pairwise fun p q => ¬ graphicsReorder nodes p q)
    (same : ∀ q ∈ l, zIndexOf after q = zIndexOf nodes q) :
    l.Pairwise fun p q => ¬ graphicsReorder after p q := by
  refine sorted.imp_of_mem ?_
  intro p q inP inQ ordered
  rwa [graphicsReorder_iff, same p inP, same q inQ, ← graphicsReorder_iff]

/-- The children of the screen, from the bottom up. -/
def stack (screen : Nat) (nodes : Nodes) : List Nat := ((nodes screen).map GraphicsNode.children).getD []

/-- The number `window_bring_to_top` gives: one more than the top child's, in 32 bits. -/
def topNumber (screen : Nat) (nodes : Nodes) : UInt32 :=
  match (stack screen nodes).getLast? with
  | none => 1
  | some child => zIndexOf nodes child + 1

/-- The root `p` got the number `z`, and the children of the screen were sorted again if there were
buffers for it. -/
structure Restacked (screen p : Nat) (z : UInt32) (buffers : Bool) (nodes after : Nodes) : Prop where
  top : ∀ node, nodes screen = some node → after screen = some (node.withChildren
    (Elements.vectorReorder buffers (graphicsReorder after) node.children))
  target : ∀ node, nodes p = some node → after p = some (node.withZIndex z)
  frame : ∀ q, q ≠ screen → q ≠ p → after q = nodes q

section Restack

variable {screen p q : Nat} {z : UInt32} {buffers : Bool} {nodes after : Nodes}
  {rank : Nat → Nat}

theorem stack_eq {node : GraphicsNode} (live : nodes screen = some node) :
    stack screen nodes = node.children := by
  rw [stack, live, Option.map_some, Option.getD_some]

theorem mem_stack_iff : p ∈ stack screen nodes ↔ ChildOf nodes screen p := by
  cases live : nodes screen with
  | none => simp [stack, live, ChildOf]
  | some node => simp [stack, live, ChildOf]

/-- Setting the number of a child of the screen. -/
theorem graphicsSetZIndex_restacked (owned : Owned nodes rank) (child : ChildOf nodes screen p)
    (z : UInt32) (buffers : Bool) : ∃ after, graphicsSetZIndex nodes p z buffers = some after ∧
      Restacked screen p z buffers nodes after := by
  have apart : screen ≠ p := by
    rintro rfl
    exact owned.not_descends_parent child .refl
  obtain ⟨screenNode, screenLive, member⟩ := child
  obtain ⟨node, live, parent⟩ := owned.child screenLive member
  refine ⟨_, graphicsSetZIndex_eq live parent screenLive apart z buffers, ?_, ?_, ?_⟩
  · intro node' live'
    rw [screenLive, Option.some.injEq] at live'
    subst live'
    rw [Nodes.set, Function.update_self]
    -- The screen's own number is not changed by new children.
    refine congrArg some (congrArg _ (congrArg (fun reorder => Elements.vectorReorder _ reorder _) ?_))
    apply Eq.symm
    apply graphicsReorder_congr
    intro q
    by_cases isScreen : q = screen
    · simp [zIndexOf, Nodes.set, isScreen, apart, screenLive, GraphicsNode.withChildren]
    · simp [zIndexOf, Nodes.set, isScreen]
  · intro node' live'
    rw [live, Option.some.injEq] at live'
    subst live'
    rw [Nodes.set, Function.update_of_ne (Ne.symm apart), Nodes.set, Function.update_self]
  · intro q notScreen notHere
    rw [Nodes.set, Function.update_of_ne notScreen, Nodes.set, Function.update_of_ne notHere]

namespace Restacked

variable (restacked : Restacked screen p z buffers nodes after) (owned : Owned nodes rank)
  (child : ChildOf nodes screen p)

include restacked child

theorem stack_eq_reorder :
    stack screen after = Elements.vectorReorder buffers (graphicsReorder after) (stack screen nodes) := by
  obtain ⟨screenNode, screenLive, -⟩ := child
  rw [stack_eq screenLive, stack_eq (restacked.top screenNode screenLive)]
  rfl

/-- The other nodes keep their numbers. -/
theorem zIndexOf_other (notHere : q ≠ p) : zIndexOf after q = zIndexOf nodes q := by
  obtain ⟨screenNode, screenLive, -⟩ := child
  by_cases isScreen : q = screen
  · subst isScreen
    rw [zIndexOf, restacked.top screenNode screenLive, zIndexOf, screenLive]
    rfl
  · rw [zIndexOf, restacked.frame q isScreen notHere, zIndexOf]

include owned

theorem relinked : Relinked nodes after := by
  have apart : screen ≠ p := by
    rintro rfl
    exact owned.not_descends_parent child .refl
  obtain ⟨screenNode, screenLive, member⟩ := child
  obtain ⟨node, live, -⟩ := owned.child screenLive member
  intro q
  by_cases isScreen : q = screen
  · subst isScreen
    rw [screenLive, restacked.top screenNode screenLive]
    exact .some ⟨rfl, Elements.vectorReorder_perm _ _ _⟩
  · by_cases here : q = p
    · subst here
      rw [live, restacked.target node live]
      exact .some ⟨rfl, .refl _⟩
    · rw [restacked.frame q isScreen here]
      exact Relinked.refl nodes q

theorem zIndexOf_target : zIndexOf after p = z := by
  obtain ⟨screenNode, screenLive, member⟩ := child
  obtain ⟨node, live, -⟩ := owned.child screenLive member
  rw [zIndexOf, restacked.target node live]
  rfl

end Restacked

end Restack

/-! ## Placing a root again -/

/-- A node that is placed again differs in its position only. -/
theorem recalculateNode_startAt {nodes : Nodes} {node moved : GraphicsNode}
    (ran : recalculateNode nodes node = some moved) : ∃ x y, moved = node.startAt x y := by
  cases parent : node.parent with
  | none =>
    simp only [recalculateNode, parent, Option.some.injEq] at ran
    exact ⟨node.info.startingX, node.info.startingY, ran.symm⟩
  | some q =>
    simp only [recalculateNode, parent] at ran
    obtain ⟨parentNode, -, rfl⟩ := Option.map_eq_some_iff.mp ran
    exact ⟨_, _, rfl⟩

/-- `graphics_info_recalculate` stays inside the nodes below, where parents may be gone
elsewhere. -/
theorem recalculate_frame {fuel : Nat} {nodes after : Nodes} {rank : Nat → Nat}
    (owned : Owned nodes rank) {p : Nat} {node : GraphicsNode} (live : nodes p = some node)
    (ran : graphicsInfoRecalculate fuel nodes p = some after) :
    SameShape nodes after ∧ (∀ q, ¬ Descends nodes p q → after q = nodes q) ∧
      after p = recalculateNode nodes node := by
  induction fuel generalizing nodes after p node with
  | zero => simp [graphicsInfoRecalculate] at ran
  | succ fuel ih =>
    simp only [graphicsInfoRecalculate, live] at ran
    cases movedEq : recalculateNode nodes node with
    | none => simp [movedEq] at ran
    | some moved =>
      simp only [movedEq] at ran
      obtain ⟨x, y, rfl⟩ := recalculateNode_startAt movedEq
      -- The loop over the children changes the nodes below them only.
      have loop : ∀ (children : List Nat) (now : Nodes),
          (∀ c ∈ children, ChildOf nodes p c) → SameShape nodes now →
          children.foldlM (fun nodes child => graphicsInfoRecalculate fuel nodes child) now =
            some after →
          SameShape now after ∧
            ∀ q, (∀ c ∈ children, ¬ Descends nodes c q) → after q = now q := by
        intro children
        induction children with
        | nil =>
          intro now _ _ done
          simp only [List.foldlM_nil, Option.pure_def, Option.some.injEq] at done
          exact done ▸ ⟨.refl now, fun _ _ => rfl⟩
        | cons c children ihLoop =>
          intro now isChild shape run
          rw [List.foldlM_cons] at run
          obtain ⟨middle, first, rest⟩ := Option.bind_eq_some_iff.mp run
          have relinked := relinked_of_sameLinks shape.links
          obtain ⟨childNode, childLive, -⟩ := (relinked.owned owned).child
            (relinked.childOf_iff.mpr (isChild c List.mem_cons_self)).choose_spec.1
            (relinked.childOf_iff.mpr (isChild c List.mem_cons_self)).choose_spec.2
          obtain ⟨shapeFirst, frameFirst, -⟩ := ih (relinked.owned owned) childLive first
          obtain ⟨shapeRest, frameRest⟩ := ihLoop middle
            (fun d member => isChild d (List.mem_cons_of_mem _ member))
            (shape.trans shapeFirst) rest
          refine ⟨shapeFirst.trans shapeRest, fun q outside => ?_⟩
          rw [frameRest q fun d member => outside d (List.mem_cons_of_mem _ member)]
          apply frameFirst
          intro below
          exact outside c List.mem_cons_self (below.lift id fun _ _ => relinked.childOf_iff.mp)
      have shapeMoved := sameShape_set live x y
      have children : ∀ c ∈ node.children, ChildOf nodes p c :=
        fun c member => ⟨node, live, member⟩
      obtain ⟨shape, frame⟩ := loop node.children _ children shapeMoved ran
      refine ⟨shapeMoved.trans shape, ?_, ?_⟩
      · intro q outside
        rw [frame q fun c member below => outside (.head (children c member) below), Nodes.set,
          Function.update_of_ne]
        rintro rfl
        exact outside .refl
      · rw [frame p fun c member => owned.not_descends_parent (children c member), Nodes.set,
          Function.update_self]

end ViOS.Graphics
