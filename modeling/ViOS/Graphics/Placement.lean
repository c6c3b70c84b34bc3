import ViOS.Graphics.Nodes
import ViOS.Lib.Run

/-! # Cached positions

Every node caches its position on the screen next to its offset in its parent.  New
nodes are placed when they are created, and moving a window places its root and then
the subtree of the root again.  A click that bubbles up adds the offsets, so with
placed nodes it reaches a handler with its position in the handler's own node.  A node
whose push found no room is in no subtree, and is left behind when its window moves.

* `windowPositionSet` — the code.
* `PlacementStep` — creations, moves and new click handlers, in any order.
* `HasRoomForChild` — the calls whose push, if there is one, finds room.
* `Placement` — the invariant; `placementStep_preserves` is its step lemma.
* `run_placed` — positions and clicks in every state of a run of such calls.
-/

namespace ViOS.Graphics

open ViOS.Lib
open scoped List

/-! ## Moving a window -/

/-- The fields of `struct window` that stacking and moving use; `rootGraphics` is the address of
the root node. -/
structure Window where
  rootGraphics : Nat
  x : UInt64
  y : UInt64
  width : UInt64
  height : UInt64
  zindex : UInt64

/-- The clamp of `window_position_set`, for either axis. -/
def clampPosition (screenSize size new : UInt64) : UInt64 :=
  if new + size > screenSize then screenSize - size - 1 else new

/-- The root node at its new place in the screen. -/
def GraphicsNode.moveTo (root : GraphicsNode) (x y : UInt64) : GraphicsNode :=
  { root.startAt x.toUInt32 y.toUInt32 with relativeX := x.toUInt32, relativeY := y.toUInt32 }

/-- `window_position_set`, up to the redrawing. -/
def windowPositionSet (fuel : Nat) (nodes : Nodes) (screen : Nat) (window : Window)
    (newX newY : UInt64) : Option (Window × Nodes) :=
  match nodes screen, nodes window.rootGraphics with
  | some screenNode, some root =>
    let newX := clampPosition screenNode.info.width.toUInt64 window.width newX
    let newY := clampPosition screenNode.info.height.toUInt64 window.height newY
    let nodes := nodes.set window.rootGraphics (root.moveTo newX newY)
    (graphicsInfoRecalculate fuel nodes window.rootGraphics).map fun nodes =>
      ({ window with x := newX, y := newY }, nodes)
  | _, _ => none

/-! ## Runs -/

/-- The calls that create and place nodes. -/
inductive PlacementOp where
  | create (sourceGraphics : Nat) (x y width height : UInt64) (flags : UInt32) (alloc : NodeAlloc)
  | positionSet (window : Window) (newX newY : UInt64)
  | clickHandlerSet (graphics : Nat) (set : Bool)

/-- One call: creation below any node of the tree, at an address that is free; a move of a
window whose root is a child of the screen; a click handler for any node. -/
def PlacementStep (screen : Nat) (nodes : Nodes) (op : PlacementOp) (after : Nodes) : Prop :=
  match op with
  | .create sourceGraphics x y width height flags alloc =>
    (nodes sourceGraphics).isSome ∧ (∀ new, alloc.newGraphics = some new → nodes new = none) ∧
      ∃ result, graphicsInfoCreateRelative nodes sourceGraphics x y width height flags alloc =
        some (result, after)
  | .positionSet window newX newY =>
    ParentOf nodes screen window.rootGraphics ∧
      ∃ fuel moved, windowPositionSet fuel nodes screen window newX newY = some (moved, after)
  | .clickHandlerSet graphics set => graphicsClickHandlerSet nodes graphics set = some after

/-- There is room among the children of the source for a node that is created. -/
def HasRoomForChild (nodes : Nodes) : PlacementOp → Prop
  | .create sourceGraphics x y width height flags alloc =>
    ∀ source, nodes sourceGraphics = some source →
      CreateSucceeds source x y width height flags alloc → alloc.HasRoom
  | .positionSet _ _ _ | .clickHandlerSet _ _ => True

/-- The screen's node as `graphics_setup` leaves it. -/
def screenNode (mode : GraphicsInfo) : GraphicsNode where
  info := graphicsSetup mode
  relativeX := 0
  relativeY := 0
  parent := none
  children := []
  zIndex := 0
  mouseClick := false

/-- The screen alone. -/
def setupNodes (screen : Nat) (mode : GraphicsInfo) : Nodes :=
  Nodes.set (fun _ => none) screen (screenNode mode)

/-- A tree rooted at the screen, with every other node placed. -/
structure Placement (screen : Nat) (nodes : Nodes) : Prop extends ScreenTree screen nodes where
  placed : ∀ p, PlacedAt nodes p

theorem placement_setup (screen : Nat) (mode : GraphicsInfo) :
    Placement screen (setupNodes screen mode) := by
  have only : ∀ {p node}, setupNodes screen mode p = some node →
      p = screen ∧ node = screenNode mode := by
    intro p node live
    by_cases here : p = screen
    · subst here
      simp only [setupNodes, Nodes.set, Function.update_self, Option.some.injEq] at live
      exact ⟨rfl, live.symm⟩
    · simp [setupNodes, Nodes.set, here] at live
  have noParent : ∀ {p node}, setupNodes screen mode p = some node → node.parent = none :=
    fun live => (only live).2 ▸ rfl
  refine ⟨⟨⟨fun _ => 0, 1, ?_, ?_, ?_, fun _ => Nat.one_pos⟩, ?_,
    fun live _ => (only live).1⟩, ?_⟩
  · intro p node q live parent
    exact absurd parent (by simp [noParent live])
  · intro p node c live member
    rw [(only live).2] at member
    exact absurd member List.not_mem_nil
  · intro p node q live parent
    exact absurd parent (by simp [noParent live])
  · exact ⟨screenNode mode, by simp [setupNodes, Nodes.set], rfl, rfl, rfl⟩
  · intro p node q parentNode live parent
    exact absurd parent (by simp [noParent live])

/-! ## One call -/

section AddChild

variable {nodes : Nodes} {sourceGraphics new : Nat} {source node : GraphicsNode}
  {alloc : NodeAlloc} (room : alloc.HasRoom)
  (live : nodes sourceGraphics = some source) (fresh : nodes new = none)
  (parent : node.parent = some sourceGraphics) (childless : node.children = [])

include room live fresh parent childless

theorem forest_addChild {rank : Nat → Nat} {bound : Nat} (forest : Forest nodes rank bound) :
    ∃ rank bound, Forest (addChild nodes sourceGraphics source new node alloc) rank bound := by
  have apart := ne_of_fresh live fresh
  have notNew : ∀ {p g}, nodes p = some g → p ≠ new :=
    fun liveP => (ne_of_fresh liveP fresh).symm
  -- The new node ranks behind its source; all other ranks stay.
  have rankOld : ∀ {p g}, nodes p = some g →
      Function.update rank new (rank sourceGraphics + 1) p = rank p :=
    fun liveP => Function.update_of_ne (notNew liveP) _ _
  refine ⟨Function.update rank new (rank sourceGraphics + 1),
    max bound (rank sourceGraphics + 2), ?_, ?_, ?_, ?_⟩
  · intro p g q liveP parentP
    -- An old node has its old parent, which may be the source.
    have old : ∀ g, nodes p = some g → g.parent = some q →
        ∃ parentNode, addChild nodes sourceGraphics source new node alloc q = some parentNode ∧
          p ∈ parentNode.children := by
      intro g liveP parentP
      obtain ⟨parentNode, parentLive, member⟩ := forest.parent liveP parentP
      obtain ⟨later, laterLive, -, -, children⟩ := addChild_old live fresh parentLive
      exact ⟨later, laterLive, children room p member⟩
    rcases addChild_cases apart liveP with ⟨rfl, rfl⟩ | ⟨rfl, rfl⟩ | ⟨-, -, liveP⟩
    · exact old source live parentP
    · rw [parent, Option.some.injEq] at parentP
      subst parentP
      exact ⟨_, addChild_source, (mem_childrenWith room).mpr (.inr rfl)⟩
    · exact old g liveP parentP
  · intro p g c liveP member
    have old : ∀ g, nodes p = some g → c ∈ g.children →
        ∃ childNode, addChild nodes sourceGraphics source new node alloc c = some childNode ∧
          childNode.parent = some p := by
      intro g liveP member
      obtain ⟨childNode, childLive, parentC⟩ := forest.child liveP member
      obtain ⟨later, laterLive, -, sameParent, -⟩ := addChild_old live fresh childLive
      exact ⟨later, laterLive, sameParent.trans parentC⟩
    rcases addChild_cases apart liveP with ⟨rfl, rfl⟩ | ⟨rfl, rfl⟩ | ⟨-, -, liveP⟩
    · cases (mem_childrenWith room).mp member with
      | inl before => exact old source live before
      | inr isNew => exact ⟨node, by rw [isNew, addChild_new apart], parent⟩
    · rw [childless] at member
      exact absurd member List.not_mem_nil
    · exact old g liveP member
  · intro p g q liveP parentP
    have old : ∀ g, nodes p = some g → g.parent = some q →
        Function.update rank new (rank sourceGraphics + 1) q <
          Function.update rank new (rank sourceGraphics + 1) p := by
      intro g liveP parentP
      obtain ⟨parentNode, parentLive, -⟩ := forest.parent liveP parentP
      rw [rankOld liveP, rankOld parentLive]
      exact forest.rank_lt liveP parentP
    rcases addChild_cases apart liveP with ⟨rfl, rfl⟩ | ⟨rfl, rfl⟩ | ⟨-, -, liveP⟩
    · exact old source live parentP
    · rw [parent, Option.some.injEq] at parentP
      rw [← parentP, rankOld live, Function.update_self]
      exact Nat.lt_succ_self _
    · exact old g liveP parentP
  · intro p g liveP
    rcases addChild_cases apart liveP with ⟨rfl, rfl⟩ | ⟨rfl, rfl⟩ | ⟨-, -, liveP⟩
    · have := forest.rank_bound live
      rw [rankOld live]
      omega
    · rw [Function.update_self]
      omega
    · have := forest.rank_bound liveP
      rw [rankOld liveP]
      omega

end AddChild

/-- A new node is placed in its source, and the others are where they were. -/
theorem placement_addChild {screen : Nat} {nodes : Nodes} {sourceGraphics new : Nat}
    {source node : GraphicsNode} {alloc : NodeAlloc} (room : alloc.HasRoom)
    (placement : Placement screen nodes)
    (live : nodes sourceGraphics = some source) (fresh : nodes new = none)
    (parent : node.parent = some sourceGraphics) (childless : node.children = [])
    (placed : node.info.startingX = source.info.startingX + node.relativeX ∧
      node.info.startingY = source.info.startingY + node.relativeY) :
    Placement screen (addChild nodes sourceGraphics source new node alloc) := by
  have apart := ne_of_fresh live fresh
  -- Every old node keeps its position, its offset and its parent.
  have old : ∀ {p g}, p ≠ new → addChild nodes sourceGraphics source new node alloc p = some g →
      ∃ g', nodes p = some g' ∧ g'.info = g.info ∧ g'.parent = g.parent ∧
        g'.relativeX = g.relativeX ∧ g'.relativeY = g.relativeY := by
    intro p g notNew liveP
    rcases addChild_cases apart liveP with ⟨rfl, rfl⟩ | ⟨isNew, -⟩ | ⟨-, -, liveP⟩
    · exact ⟨source, live, rfl, rfl, rfl, rfl⟩
    · exact absurd isNew notNew
    · exact ⟨g, liveP, rfl, rfl, rfl, rfl⟩
  obtain ⟨rank, bound, forest⟩ := placement.forest
  have notNew : ∀ {p g}, nodes p = some g → p ≠ new :=
    fun liveP => (ne_of_fresh liveP fresh).symm
  refine ⟨⟨forest_addChild room live fresh parent childless forest, ?_, ?_⟩, ?_⟩
  · obtain ⟨root, rootLive, rootParent, startX, startY⟩ := placement.root
    obtain ⟨later, laterLive, info, sameParent, -⟩ := addChild_old live fresh rootLive
    exact ⟨later, laterLive, sameParent.trans rootParent, by rw [info, startX], by rw [info, startY]⟩
  · intro p g liveP noParent
    by_cases isNew : p = new
    · subst isNew
      rw [addChild_new apart, Option.some.injEq] at liveP
      rw [← liveP, parent] at noParent
      exact absurd noParent (by simp)
    · obtain ⟨g', liveP', -, parent', -⟩ := old isNew liveP
      exact placement.rooted liveP' (parent'.trans noParent)
  · intro p g q parentNode liveP parentP parentLive
    by_cases isNew : p = new
    · subst isNew
      rw [addChild_new apart, Option.some.injEq] at liveP
      subst liveP
      rw [parent, Option.some.injEq] at parentP
      subst parentP
      rw [addChild_source, Option.some.injEq] at parentLive
      subst parentLive
      exact placed
    · obtain ⟨g', liveP', info, parent', relX, relY⟩ := old isNew liveP
      obtain ⟨before, beforeLive, -⟩ := forest.parent liveP' (parent'.trans parentP)
      obtain ⟨before', beforeLive', infoParent, -⟩ := old (notNew beforeLive) parentLive
      have := placement.placed p g' q before' liveP' (parent'.trans parentP) beforeLive'
      rwa [info, infoParent, relX, relY] at this

/-- The position of a new node, truncated from 64 bits, is its source's plus its offset. -/
theorem stackedNode_placed (source : GraphicsNode) (sourceGraphics : Nat)
    (x y width height : UInt64) (pixels : UInt32 → FramebufferPixel) (count : Nat) :
    let node := stackedNode source sourceGraphics x y width height pixels count
    node.info.startingX = source.info.startingX + node.relativeX ∧
      node.info.startingY = source.info.startingY + node.relativeY := by
  simp [stackedNode, newNode, GraphicsNode.withZIndex]

theorem placement_create {screen : Nat} {nodes after : Nodes} (placement : Placement screen nodes)
    {sourceGraphics : Nat} (live : (nodes sourceGraphics).isSome) {x y width height : UInt64}
    {flags : UInt32} {alloc : NodeAlloc}
    (fresh : ∀ new, alloc.newGraphics = some new → nodes new = none)
    (room : HasRoomForChild nodes (.create sourceGraphics x y width height flags alloc))
    {result : Option Nat}
    (created : graphicsInfoCreateRelative nodes sourceGraphics x y width height flags alloc =
      some (result, after)) : Placement screen after := by
  obtain ⟨source, live⟩ := Option.isSome_iff_exists.mp live
  rcases graphicsInfoCreateRelative_cases live x y width height flags fresh with
    ⟨-, failed⟩ | ⟨succeeds, new, buffer, isNew, -, succeeded⟩
  · rw [failed, Option.some.injEq, Prod.mk.injEq] at created
    exact created.2 ▸ placement
  · have hasRoom := room source live succeeds
    rw [succeeded, Option.some.injEq, Prod.mk.injEq, createdNodes_room hasRoom] at created
    rw [← created.2]
    exact placement_addChild hasRoom placement live (fresh new isNew) rfl rfl
      (stackedNode_placed source sourceGraphics x y width height buffer _)

theorem sameLinks_moveTo {nodes : Nodes} {p : Nat} {root : GraphicsNode}
    (live : nodes p = some root) (x y : UInt64) :
    SameLinks nodes (nodes.set p (root.moveTo x y)) := by
  intro q
  by_cases here : q = p
  · subst here
    simp [Nodes.set, live, GraphicsNode.moveTo, GraphicsNode.startAt]
  · simp [Nodes.set, here]

/-- A root placed anywhere in the screen and recalculated leaves everything placed. -/
theorem placement_moveTo {screen : Nat} {nodes after : Nodes} (placement : Placement screen nodes)
    {p : Nat} {root : GraphicsNode} (live : nodes p = some root)
    (parent : root.parent = some screen) (x y : UInt64)
    (shape : SameShape (nodes.set p (root.moveTo x y)) after)
    (frame : ∀ q, ¬ Below nodes p q → after q = nodes.set p (root.moveTo x y) q)
    (placed : ∀ q, Below nodes p q → PlacedAt after q) : Placement screen after := by
  obtain ⟨rank, bound, forest⟩ := placement.forest
  obtain ⟨top, topLive, topParent, topX, topY⟩ := placement.root
  have links := (sameLinks_moveTo live x y).trans shape.links
  have outside : ∀ {q}, ¬ Below nodes p q → after q = nodes q := by
    intro q notBelow
    have other : q ≠ p := by
      rintro rfl
      exact notBelow .refl
    rw [frame q notBelow, Nodes.set, Function.update_of_ne other]
  refine ⟨⟨⟨rank, bound, links.forest forest⟩, ⟨top, ?_, topParent, topX, topY⟩, ?_⟩, ?_⟩
  · rw [outside, topLive]
    intro below
    have := forest.rank_le_of_below below
    have := forest.rank_lt live parent
    omega
  · intro q g liveQ noParent
    obtain ⟨g', liveQ', parent', -⟩ := links.symm.exists_node liveQ
    exact placement.rooted liveQ' (parent'.trans noParent)
  · intro q
    by_cases below : Below nodes p q
    · exact placed q below
    -- Outside the subtree a node and its parent are as before.
    · intro g r parentNode liveQ parentQ parentLive
      rw [outside below] at liveQ
      have parentOutside : ¬ Below nodes p r := fun inside =>
        below (inside.tail ⟨g, liveQ, parentQ⟩)
      rw [outside parentOutside] at parentLive
      exact placement.placed q g r parentNode liveQ parentQ parentLive

/-- Moving a window places its root in the screen and then everything below the root. -/
theorem placement_positionSet {screen : Nat} {nodes after : Nodes}
    (placement : Placement screen nodes) {window moved : Window}
    (onScreen : ParentOf nodes screen window.rootGraphics) {fuel : Nat} {newX newY : UInt64}
    (set : windowPositionSet fuel nodes screen window newX newY = some (moved, after)) :
    Placement screen after := by
  obtain ⟨rank, bound, forest⟩ := placement.forest
  obtain ⟨root, rootLive, rootParent⟩ := onScreen
  obtain ⟨top, topLive, -⟩ := placement.root
  simp only [windowPositionSet, topLive, rootLive] at set
  obtain ⟨result, ran, eq⟩ := Option.map_eq_some_iff.mp set
  rw [Prod.mk.injEq] at eq
  obtain ⟨-, rfl⟩ := eq
  -- With enough fuel the run ends, and it ends in the same memory.
  have links := sameLinks_moveTo rootLive
    (clampPosition top.info.width.toUInt64 window.width newX)
    (clampPosition top.info.height.toUInt64 window.height newY)
  obtain ⟨spec, specRan, done⟩ := recalculate_spec forest links
    (Function.update_self window.rootGraphics _ nodes) (show bound ≤ bound + fuel + _ by omega)
  have same : result = spec := Option.some.inj
    ((recalculate_mono (by omega) ran).symm.trans specRan)
  rw [same]
  refine placement_moveTo placement rootLive rootParent _ _ done.shape ?_ ?_
  · exact fun q outside => done.frame q (by simpa using outside)
  · exact fun q below => done.placed q (.inr (by simpa using below))

/-- The move of a window returns. -/
theorem windowPositionSet_returns {screen : Nat} {nodes : Nodes}
    (placement : Placement screen nodes) {window : Window}
    (onScreen : ParentOf nodes screen window.rootGraphics) (newX newY : UInt64) :
    ∃ fuel moved after,
      windowPositionSet fuel nodes screen window newX newY = some (moved, after) := by
  obtain ⟨rank, bound, forest⟩ := placement.forest
  obtain ⟨root, rootLive, -⟩ := onScreen
  obtain ⟨top, topLive, -⟩ := placement.root
  have links := sameLinks_moveTo rootLive
    (clampPosition top.info.width.toUInt64 window.width newX)
    (clampPosition top.info.height.toUInt64 window.height newY)
  obtain ⟨spec, specRan, -⟩ := recalculate_spec forest links
    (Function.update_self window.rootGraphics _ nodes) (Nat.le_add_right bound _)
  refine ⟨bound, { window with
    x := clampPosition top.info.width.toUInt64 window.width newX
    y := clampPosition top.info.height.toUInt64 window.height newY }, spec, ?_⟩
  simp only [windowPositionSet, topLive, rootLive, specRan, Option.map_some]

/-- A click handler has nothing to do with positions. -/
theorem placement_clickHandlerSet {screen : Nat} {nodes after : Nodes}
    (placement : Placement screen nodes) {graphics : Nat} {set : Bool}
    (done : graphicsClickHandlerSet nodes graphics set = some after) : Placement screen after := by
  obtain ⟨node, live, rfl⟩ := Option.map_eq_some_iff.mp done
  have kept : ∀ {p g}, nodes.set graphics { node with mouseClick := set } p = some g →
      ∃ g', nodes p = some g' ∧ g'.info = g.info ∧ g'.parent = g.parent ∧
        g'.relativeX = g.relativeX ∧ g'.relativeY = g.relativeY := by
    intro p g liveP
    by_cases here : p = graphics
    · subst here
      rw [Nodes.set, Function.update_self, Option.some.injEq] at liveP
      subst liveP
      exact ⟨node, live, rfl, rfl, rfl, rfl⟩
    · rw [Nodes.set, Function.update_of_ne here] at liveP
      exact ⟨g, liveP, rfl, rfl, rfl, rfl⟩
  have links : SameLinks nodes (nodes.set graphics { node with mouseClick := set }) := by
    intro p
    by_cases here : p = graphics
    · simp [Nodes.set, here, live]
    · simp [Nodes.set, here]
  obtain ⟨rank, bound, forest⟩ := placement.forest
  refine ⟨⟨⟨rank, bound, links.forest forest⟩, ?_, ?_⟩, ?_⟩
  · obtain ⟨top, topLive, parent, startX, startY⟩ := placement.root
    obtain ⟨top', topLive', parent', -⟩ := links.exists_node topLive
    obtain ⟨top'', topLive'', info, -⟩ := kept topLive'
    rw [topLive, Option.some.injEq] at topLive''
    subst topLive''
    exact ⟨top', topLive', parent'.trans parent, info ▸ startX, info ▸ startY⟩
  · intro p g liveP noParent
    obtain ⟨g', liveP', -, parent, -⟩ := kept liveP
    exact placement.rooted liveP' (parent.trans noParent)
  · intro p g q parentNode liveP parentP parentLive
    obtain ⟨g', liveP', info, parent, relX, relY⟩ := kept liveP
    obtain ⟨before, beforeLive, infoParent, -⟩ := kept parentLive
    have := placement.placed p g' q before liveP' (parent.trans parentP) beforeLive
    rwa [info, infoParent, relX, relY] at this

theorem placementStep_preserves {screen : Nat} {nodes after : Nodes} {op : PlacementOp}
    (step : PlacementStep screen nodes op after) (room : HasRoomForChild nodes op)
    (placement : Placement screen nodes) : Placement screen after := by
  cases op with
  | create sourceGraphics x y width height flags alloc =>
    obtain ⟨live, fresh, result, created⟩ := step
    exact placement_create placement live fresh room created
  | positionSet window newX newY =>
    obtain ⟨onScreen, fuel, moved, set⟩ := step
    exact placement_positionSet placement onScreen set
  | clickHandlerSet graphics set => exact placement_clickHandlerSet placement step

/-! ## Clicks -/

/-- No position of a node wraps when it is computed from its parent's. -/
def NoWrap (nodes : Nodes) : Prop :=
  ∀ p node q parentNode, nodes p = some node → node.parent = some q → nodes q = some parentNode →
    parentNode.info.startingX.toNat + node.relativeX.toNat < 2 ^ 32 ∧
      parentNode.info.startingY.toNat + node.relativeY.toNat < 2 ^ 32

/-- The first node with a click handler on the way up from `p`. -/
inductive FirstHandler (nodes : Nodes) : Nat → Nat → Prop where
  | here {p : Nat} {node : GraphicsNode} (live : nodes p = some node)
      (handles : node.mouseClick = true) : FirstHandler nodes p p
  | above {p q h : Nat} {node : GraphicsNode} (live : nodes p = some node)
      (passes : node.mouseClick = false) (parent : node.parent = some q)
      (rest : FirstHandler nodes q h) : FirstHandler nodes p h

/-- One step of the bubbling: the offset of a node leads from its position to its parent's. -/
theorem bubble_offset {start parentStart relative : UInt32} (x : UInt64)
    (placed : start = parentStart + relative)
    (noWrap : parentStart.toNat + relative.toNat < 2 ^ 32) :
    relative.toUInt64 + (x - start.toUInt64) = x - parentStart.toUInt64 := by
  have widened : start.toUInt64 = parentStart.toUInt64 + relative.toUInt64 := by
    apply UInt64.toNat_inj.mp
    rw [placed, UInt64.toNat_add]
    simp only [UInt32.toNat_toUInt64, UInt32.toNat_add]
    omega
  rw [widened]
  grind

/-- A click at a position of the screen, passed on from node to node, reaches the first handler
with its position in the handler's node. -/
theorem graphicsMouseClick_bubbles {nodes : Nodes} {rank : Nat → Nat} {bound : Nat}
    (forest : Forest nodes rank bound) (placed : ∀ p, PlacedAt nodes p) (noWrap : NoWrap nodes)
    {p h : Nat} {node handler : GraphicsNode} (live : nodes p = some node)
    (reaches : FirstHandler nodes p h) (handlerLive : nodes h = some handler) (x y : UInt64)
    {fuel : Nat} (enough : rank p < fuel) :
    graphicsMouseClick fuel nodes p (x - node.info.startingX.toUInt64)
        (y - node.info.startingY.toUInt64) =
      some (some (h, x - handler.info.startingX.toUInt64, y - handler.info.startingY.toUInt64)) := by
  induction reaches generalizing node fuel with
  | @here p node' live' handles =>
    obtain ⟨fuel, rfl⟩ : ∃ k, fuel = k + 1 := ⟨fuel - 1, by omega⟩
    rw [live, Option.some.injEq] at live' handlerLive
    subst live' handlerLive
    simp only [graphicsMouseClick, live, handles, if_true]
  | @above p q h node' live' passes parent rest ih =>
    obtain ⟨fuel, rfl⟩ : ∃ k, fuel = k + 1 := ⟨fuel - 1, by omega⟩
    rw [live, Option.some.injEq] at live'
    subst live'
    obtain ⟨parentNode, parentLive, -⟩ := forest.parent live parent
    obtain ⟨placedX, placedY⟩ := placed p node q parentNode live parent parentLive
    obtain ⟨noWrapX, noWrapY⟩ := noWrap p node q parentNode live parent parentLive
    have lower := forest.rank_lt live parent
    simp only [graphicsMouseClick, live, passes, parent, Bool.false_eq_true, if_false]
    rw [bubble_offset x placedX noWrapX, bubble_offset y placedY noWrapY]
    exact ih parentLive handlerLive (by omega)

/-! ## Every state of a run -/

/-- The children that are created get their places in the vectors of their sources.  Then in every
state of the run each node but the screen is placed in its parent, and where no position wraps a click
at (x, y) on any node reaches the first handler above it with its position in the handler's node. -/
theorem run_placed (screen : Nat) (mode : GraphicsInfo) (run : List (PlacementOp × Nodes))
    (isRun : IsRun (PlacementStep screen) (setupNodes screen mode) run)
    (room : EveryStep HasRoomForChild (setupNodes screen mode) run) :
    ∀ nodes ∈ runStates (setupNodes screen mode) run,
      (∀ p node, nodes p = some node → p ≠ screen →
        ∃ q parentNode, node.parent = some q ∧ nodes q = some parentNode ∧
          node.info.startingX = parentNode.info.startingX + node.relativeX ∧
          node.info.startingY = parentNode.info.startingY + node.relativeY) ∧
      (NoWrap nodes → ∀ p node h handler, nodes p = some node → FirstHandler nodes p h →
        nodes h = some handler → ∃ enough, ∀ fuel ≥ enough, ∀ x y : UInt64,
          graphicsMouseClick fuel nodes p (x - node.info.startingX.toUInt64)
              (y - node.info.startingY.toUInt64) =
            some (some (h, x - handler.info.startingX.toUInt64,
              y - handler.info.startingY.toUInt64))) := by
  intro nodes reached
  have preserves : ∀ nodes op after, PlacementStep screen nodes op after → HasRoomForChild nodes op →
      Placement screen nodes → Placement screen after :=
    fun _ _ _ step room => placementStep_preserves step room
  have placement : Placement screen nodes :=
    inv_of_everyStep preserves isRun room (placement_setup screen mode) nodes reached
  obtain ⟨rank, bound, forest⟩ := placement.forest
  constructor
  · intro p node live notScreen
    cases parent : node.parent with
    | none => exact absurd (placement.rooted live parent) notScreen
    | some q =>
      obtain ⟨parentNode, parentLive, -⟩ := forest.parent live parent
      exact ⟨q, parentNode, rfl, parentLive, placement.placed p node q parentNode live parent
        parentLive⟩
  · intro noWrap p node h handler live reaches handlerLive
    exact ⟨rank p + 1, fun fuel enough x y => graphicsMouseClick_bubbles forest placement.placed
      noWrap live reaches handlerLive x y (by omega)⟩

/-! ## A window with a child -/

theorem eq_some_getD {α : Type} {result : Option α} (returns : result.isSome) (other : α) :
    result = some (result.getD other) := by
  obtain ⟨value, rfl⟩ := Option.isSome_iff_exists.mp returns
  rfl

def emptyMode : GraphicsInfo where
  horizontalResolution := 640
  verticalResolution := 480
  pixelsPerScanline := 640
  pixels := fun _ => noTransparencyColor
  width := 0
  height := 0
  startingX := 0
  startingY := 0
  transparencyKey := noTransparencyColor

/-- All the memory that is asked for. -/
def freeAlloc (newGraphics : Option Nat) : NodeAlloc where
  newGraphics
  pixels := some fun _ => noTransparencyColor
  push := .room
  buffers := true

theorem freeAlloc_room (newGraphics : Option Nat) : (freeAlloc newGraphics).HasRoom := rfl

/-- A window of 100 x 50 pixels at (10, 20). -/
def oneWindow : Nodes :=
  addChild (setupNodes 1 emptyMode) 1 (screenNode emptyMode) 2
    (stackedNode (screenNode emptyMode) 1 10 20 100 50 (fun _ => noTransparencyColor) 1) (freeAlloc (some 2))

theorem oneWindow_window : oneWindow 2 =
    some (stackedNode (screenNode emptyMode) 1 10 20 100 50 (fun _ => noTransparencyColor) 1) :=
  addChild_new (by decide)

theorem oneWindow_created :
    graphicsInfoCreateRelative (setupNodes 1 emptyMode) 1 10 20 100 50 0 (freeAlloc (some 2)) =
      some (some 2, oneWindow) :=
  graphicsInfoCreateRelative_succeeds rfl 10 20 100 50 0 rfl rfl rfl (by decide)

/-- The window is created. -/
theorem oneWindow_step : PlacementStep 1 (setupNodes 1 emptyMode)
    (.create 1 10 20 100 50 0 (freeAlloc (some 2))) oneWindow :=
  ⟨rfl, fun _ isNew => Option.some.inj isNew ▸ rfl, some 2, oneWindow_created⟩

/-- A window of 100 x 50 pixels is created at (10, 20) and moved to (30, 40). -/
theorem run_placed_window : ∃ run : List (PlacementOp × Nodes),
    run.map Prod.fst =
      [.create 1 10 20 100 50 0 (freeAlloc (some 2)), .positionSet ⟨2, 10, 20, 100, 50, 0⟩ 30 40] ∧
    IsRun (PlacementStep 1) (setupNodes 1 emptyMode) run ∧
    ∀ nodes ∈ runStates (setupNodes 1 emptyMode) run, ∀ p node, nodes p = some node → p ≠ 1 →
      ∃ q parentNode, node.parent = some q ∧ nodes q = some parentNode ∧
        node.info.startingX = parentNode.info.startingX + node.relativeX ∧
        node.info.startingY = parentNode.info.startingY + node.relativeY := by
  have room : HasRoomForChild (setupNodes 1 emptyMode) (.create 1 10 20 100 50 0 (freeAlloc (some 2))) :=
    fun _ _ _ => freeAlloc_room _
  have onScreen : ParentOf oneWindow 1 2 := ⟨_, oneWindow_window, rfl⟩
  obtain ⟨fuel, moved, after, set⟩ := @windowPositionSet_returns 1 oneWindow
    (placementStep_preserves oneWindow_step room (placement_setup 1 emptyMode)) ⟨2, 10, 20, 100, 50, 0⟩
    onScreen 30 40
  have isRun : IsRun (PlacementStep 1) (setupNodes 1 emptyMode)
      [(.create 1 10 20 100 50 0 (freeAlloc (some 2)), oneWindow),
        (.positionSet ⟨2, 10, 20, 100, 50, 0⟩ 30 40, after)] :=
    ⟨oneWindow_step, ⟨onScreen, fuel, moved, set⟩, trivial⟩
  exact ⟨_, rfl, isRun,
    fun nodes reached => (run_placed 1 emptyMode _ isRun ⟨room, trivial, trivial⟩ nodes reached).1⟩

/-- A child for which the vector of the window finds no room. -/
def lostAlloc : NodeAlloc := { freeAlloc (some 3) with push := .lost fun _ => 0 }

/-- The window, and the child at its place that it does not know of. -/
def lostChild : Nodes :=
  ((graphicsInfoCreateRelative oneWindow 2 5 6 10 10 0 lostAlloc).getD (none, oneWindow)).2

def movedWindow : Nodes :=
  ((windowPositionSet 2 lostChild 1 ⟨2, 10, 20, 100, 50, 0⟩ 30 40).getD (⟨2, 10, 20, 100, 50, 0⟩, lostChild)).2

def lostChildRun : List (PlacementOp × Nodes) :=
  [(.create 1 10 20 100 50 0 (freeAlloc (some 2)), oneWindow), (.create 2 5 6 10 10 0 lostAlloc, lostChild),
    (.positionSet ⟨2, 10, 20, 100, 50, 0⟩ 30 40, movedWindow)]

/-- The child stays at (15, 26) when its window moves to (30, 40). -/
theorem lost_child_stays : IsRun (PlacementStep 1) (setupNodes 1 emptyMode) lostChildRun ∧
    ∃ nodes ∈ runStates (setupNodes 1 emptyMode) lostChildRun, ∃ node parentNode, nodes 3 = some node ∧
      node.parent = some 2 ∧ nodes 2 = some parentNode ∧
      node.info.startingX ≠ parentNode.info.startingX + node.relativeX := by
  have child : PlacementStep 1 oneWindow (.create 2 5 6 10 10 0 lostAlloc) lostChild :=
    ⟨rfl, fun _ isNew => Option.some.inj isNew ▸ rfl, _, eq_some_getD (by decide +kernel) (none, oneWindow)⟩
  have moved : PlacementStep 1 lostChild (.positionSet ⟨2, 10, 20, 100, 50, 0⟩ 30 40) movedWindow :=
    ⟨⟨_, eq_some_getD (by decide +kernel) (screenNode emptyMode), by decide +kernel⟩, 2, _,
      eq_some_getD (by decide +kernel) (⟨2, 10, 20, 100, 50, 0⟩, lostChild)⟩
  refine ⟨⟨oneWindow_step, child, moved, trivial⟩, movedWindow, by simp [lostChildRun],
    _, _, eq_some_getD (by decide +kernel) (screenNode emptyMode), by decide +kernel,
    eq_some_getD (by decide +kernel) (screenNode emptyMode), by decide +kernel⟩

end ViOS.Graphics
