import ViOS.Graphics.Graphics
import ViOS.Memory.VectorElements
import Mathlib.Logic.Relation

/-! # The tree of graphics nodes in memory

Every `struct graphics_info` points to its parent and keeps a vector of pointers to
its children.  The memory is a partial map from addresses to nodes; `none` as the
result of a function is a read of an address without a node, or a recursion deeper
than the fuel.  Every allocation may fail, those that nothing checks too: the push of a
new child and the buffers of `vector_reorder`.  Only the vector of a new node's own
children is always there.  The contents of a new pixel buffer are a parameter.

* `graphicsInfoCreateRelative`, `graphicsSetZIndex`, `graphicsInfoRecalculate`,
  `graphicsMouseClick` — the code.
* `Forest` — parents and children agree, and a parent has a smaller rank.
* `recalculate_spec` — what `graphics_info_recalculate` does to a subtree.
-/

namespace ViOS.Graphics

open ViOS.Lib
open scoped List

/-! ## The code -/

/-- `struct graphics_info` with its links. -/
structure GraphicsNode where
  info : GraphicsInfo
  relativeX : UInt32
  relativeY : UInt32
  parent : Option Nat
  children : List Nat
  zIndex : UInt32
  /-- `event_handlers.mouse_click` is set. -/
  mouseClick : Bool

/-- The nodes in memory. -/
abbrev Nodes := Nat → Option GraphicsNode

def Nodes.set (nodes : Nodes) (p : Nat) (node : GraphicsNode) : Nodes :=
  Function.update nodes p (some node)

/-- `starting_x = x; starting_y = y`. -/
def GraphicsNode.startAt (node : GraphicsNode) (x y : UInt32) : GraphicsNode :=
  { node with info := { node.info with startingX := x, startingY := y } }

def GraphicsNode.withZIndex (node : GraphicsNode) (zIndex : UInt32) : GraphicsNode :=
  { node with zIndex }

def GraphicsNode.withChildren (node : GraphicsNode) (children : List Nat) : GraphicsNode :=
  { node with children }

def graphicsFlagAllowOutOfBounds : UInt32 := 0b00000001

/-- `graphics->z_index`; an address without a node reads as zero. -/
def zIndexOf (nodes : Nodes) (p : Nat) : UInt32 := ((nodes p).map GraphicsNode.zIndex).getD 0

/-- `graphics_reorder`, on two pointers. -/
def graphicsReorder (nodes : Nodes) (first second : Nat) : Bool :=
  zIndexOf nodes first > zIndexOf nodes second

/-- `graphics_set_z_index`.  `buffers` says whether `vector_reorder` gets its buffers. -/
def graphicsSetZIndex (nodes : Nodes) (graphicsInfo : Nat) (zIndex : UInt32) (buffers : Bool) :
    Option Nodes :=
  match nodes graphicsInfo with
  | none => none
  | some node =>
    let nodes := nodes.set graphicsInfo (node.withZIndex zIndex)
    match node.parent with
    | none => some nodes
    | some parent =>
      match nodes parent with
      | none => none
      | some parentNode =>
        some (nodes.set parent (parentNode.withChildren
          (Elements.vectorReorder buffers (graphicsReorder nodes) parentNode.children)))

/-- The fields `graphics_info_create_relative` sets in the zeroed node. -/
def newNode (source : GraphicsNode) (sourceGraphics : Nat) (x y width height : UInt64)
    (pixels : UInt32 → FramebufferPixel) : GraphicsNode where
  info :=
    { horizontalResolution := source.info.horizontalResolution
      verticalResolution := source.info.verticalResolution
      pixelsPerScanline := source.info.pixelsPerScanline
      pixels
      width := width.toUInt32
      height := height.toUInt32
      startingX := (source.info.startingX.toUInt64 + x).toUInt32
      startingY := (source.info.startingY.toUInt64 + y).toUInt32
      transparencyKey := noTransparencyColor }
  relativeX := x.toUInt32
  relativeY := y.toUInt32
  parent := some sourceGraphics
  children := []
  zIndex := 0
  mouseClick := false

/-- The check of `graphics_info_create_relative`: without `GRAPHICS_FLAG_ALLOW_OUT_OF_BOUNDS` the
new rectangle ends inside the resolution, counted from the source. -/
def outOfBounds (source : GraphicsNode) (x y width height : UInt64) (flags : UInt32) : Bool :=
  let parentX := source.info.startingX.toUInt64
  let parentY := source.info.startingY.toUInt64
  let endingX := parentX + x + width
  let endingY := parentY + y + height
  flags &&& graphicsFlagAllowOutOfBounds = 0 ∧
    (endingX > parentX + source.info.horizontalResolution.toUInt64 ∨
      endingY > parentY + source.info.verticalResolution.toUInt64)

/-- The memory that the creation of a node gets: `newGraphics` is the node `kzalloc` returns and
`pixels` the new pixel buffer after it was filled, or `none` when there is no memory; `push` is the
room among the children of the source, and `buffers` are those of `vector_reorder`. -/
structure NodeAlloc where
  newGraphics : Option Nat
  pixels : Option (UInt32 → FramebufferPixel)
  push : Elements.Growth Nat
  buffers : Bool

/-- `graphics_info_create_relative`.  The result is the new node, if there is one, and the memory.
What `vector_push` returns is not looked at. -/
def graphicsInfoCreateRelative (nodes : Nodes) (sourceGraphics : Nat) (x y width height : UInt64)
    (flags : UInt32) (alloc : NodeAlloc) : Option (Option Nat × Nodes) :=
  match alloc.newGraphics with
  | none => some (none, nodes)
  | some newGraphics =>
    match nodes sourceGraphics with
    | none => none
    | some source =>
      if outOfBounds source x y width height flags then some (none, nodes)
      else
        match alloc.pixels with
        | none => some (none, nodes)
        | some pixels =>
          let node := newNode source sourceGraphics x y width height pixels
          let children := Elements.vectorPush alloc.push source.children newGraphics
          let nodes :=
            (nodes.set newGraphics node).set sourceGraphics (source.withChildren children)
          (graphicsSetZIndex nodes newGraphics (.ofNat children.length) alloc.buffers).map
            fun nodes => (some newGraphics, nodes)

/-- The first part of `graphics_info_recalculate`: the node at its place in its parent. -/
def recalculateNode (nodes : Nodes) (node : GraphicsNode) : Option GraphicsNode :=
  match node.parent with
  | none => some node
  | some parent =>
    (nodes parent).map fun parentNode =>
      node.startAt (node.relativeX + parentNode.info.startingX)
        (node.relativeY + parentNode.info.startingY)

/-- `graphics_info_recalculate`. -/
def graphicsInfoRecalculate : Nat → Nodes → Nat → Option Nodes
  | 0, _, _ => none
  | fuel + 1, nodes, graphicsInfo =>
    match nodes graphicsInfo with
    | none => none
    | some node =>
      match recalculateNode nodes node with
      | none => none
      | some moved =>
        node.children.foldlM (fun nodes child => graphicsInfoRecalculate fuel nodes child)
          (nodes.set graphicsInfo moved)

/-- `graphics_click_handler_set`. -/
def graphicsClickHandlerSet (nodes : Nodes) (graphics : Nat) (set : Bool) : Option Nodes :=
  (nodes graphics).map fun node => nodes.set graphics { node with mouseClick := set }

/-- `graphics_mouse_click`: the node whose handler is called and the position it is given, or
`some none` when no handler is found. -/
def graphicsMouseClick : Nat → Nodes → Nat → UInt64 → UInt64 → Option (Option (Nat × UInt64 × UInt64))
  | 0, _, _, _, _ => none
  | fuel + 1, nodes, graphics, relXClicked, relYClicked =>
    match nodes graphics with
    | none => none
    | some node =>
      if node.mouseClick then some (some (graphics, relXClicked, relYClicked))
      else
        match node.parent with
        | none => some none
        | some parent =>
          graphicsMouseClick fuel nodes parent (node.relativeX.toUInt64 + relXClicked)
            (node.relativeY.toUInt64 + relYClicked)

/-! ## New nodes -/

/-- The new node with its stacking number, the number of children its source has then. -/
def stackedNode (source : GraphicsNode) (sourceGraphics : Nat) (x y width height : UInt64)
    (pixels : UInt32 → FramebufferPixel) (count : Nat) : GraphicsNode :=
  (newNode source sourceGraphics x y width height pixels).withZIndex (.ofNat count)

/-- The children of a source behind the creation of a node. -/
def childrenWith (nodes : Nodes) (source : GraphicsNode) (new : Nat) (node : GraphicsNode)
    (alloc : NodeAlloc) : List Nat :=
  Elements.vectorReorder alloc.buffers (graphicsReorder (nodes.set new node))
    (Elements.vectorPush alloc.push source.children new)

/-- The memory behind the creation of a node. -/
def addChild (nodes : Nodes) (sourceGraphics : Nat) (source : GraphicsNode) (new : Nat)
    (node : GraphicsNode) (alloc : NodeAlloc) : Nodes :=
  (nodes.set new node).set sourceGraphics
    (source.withChildren (childrenWith nodes source new node alloc))

/-- The vector of the children has room for the new node. -/
def NodeAlloc.HasRoom (alloc : NodeAlloc) : Prop := alloc.push = .room

theorem NodeAlloc.HasRoom.push_eq {alloc : NodeAlloc} (room : alloc.HasRoom) (children : List Nat)
    (new : Nat) : Elements.vectorPush alloc.push children new = children ++ [new] := by
  rw [room, Elements.vectorPush_room]

/-- Memory that is not in use is not a node in use. -/
theorem ne_of_fresh {nodes : Nodes} {p new : Nat} {node : GraphicsNode} (live : nodes p = some node)
    (fresh : nodes new = none) : new ≠ p := by
  rintro rfl
  cases live.symm.trans fresh

section AddChild

variable {nodes : Nodes} {sourceGraphics new p : Nat} {source node : GraphicsNode}
  {alloc : NodeAlloc}

theorem childrenWith_perm (room : alloc.HasRoom) :
    childrenWith nodes source new node alloc ~ source.children ++ [new] := by
  rw [childrenWith, room.push_eq]
  exact Elements.vectorReorder_perm _ _ _

theorem mem_childrenWith (room : alloc.HasRoom) {c : Nat} :
    c ∈ childrenWith nodes source new node alloc ↔ c ∈ source.children ∨ c = new := by
  rw [(childrenWith_perm room).mem_iff, List.mem_append, List.mem_singleton]

@[simp] theorem addChild_source :
    addChild nodes sourceGraphics source new node alloc sourceGraphics =
      some (source.withChildren (childrenWith nodes source new node alloc)) := by
  rw [addChild, Nodes.set, Function.update_self]

theorem addChild_new (apart : new ≠ sourceGraphics) :
    addChild nodes sourceGraphics source new node alloc new = some node := by
  rw [addChild, Nodes.set, Function.update_of_ne apart, Nodes.set, Function.update_self]

theorem addChild_other (notSource : p ≠ sourceGraphics) (notNew : p ≠ new) :
    addChild nodes sourceGraphics source new node alloc p = nodes p := by
  rw [addChild, Nodes.set, Function.update_of_ne notSource, Nodes.set,
    Function.update_of_ne notNew]

/-- A node behind a creation is the source, the new node or an old one. -/
theorem addChild_cases (apart : new ≠ sourceGraphics) {g : GraphicsNode}
    (live : addChild nodes sourceGraphics source new node alloc p = some g) :
    (p = sourceGraphics ∧ g = source.withChildren (childrenWith nodes source new node alloc)) ∨
      (p = new ∧ g = node) ∨ (p ≠ sourceGraphics ∧ p ≠ new ∧ nodes p = some g) := by
  by_cases isSource : p = sourceGraphics
  · subst isSource
    rw [addChild_source, Option.some.injEq] at live
    exact .inl ⟨rfl, live.symm⟩
  · by_cases isNew : p = new
    · subst isNew
      rw [addChild_new apart, Option.some.injEq] at live
      exact .inr (.inl ⟨rfl, live.symm⟩)
    · rw [addChild_other isSource isNew] at live
      exact .inr (.inr ⟨isSource, isNew, live⟩)

/-- An old node stays where it is. -/
theorem addChild_old (live : nodes sourceGraphics = some source) (fresh : nodes new = none)
    {g : GraphicsNode} (liveP : nodes p = some g) :
    ∃ g', addChild nodes sourceGraphics source new node alloc p = some g' ∧ g'.info = g.info ∧
      g'.parent = g.parent ∧ (alloc.HasRoom → ∀ c ∈ g.children, c ∈ g'.children) := by
  by_cases isSource : p = sourceGraphics
  · subst isSource
    rw [live, Option.some.injEq] at liveP
    subst liveP
    exact ⟨_, addChild_source, rfl, rfl,
      fun room c member => (mem_childrenWith room).mpr (.inl member)⟩
  · have notNew : p ≠ new := (ne_of_fresh liveP fresh).symm
    exact ⟨g, by rw [addChild_other isSource notNew, liveP], rfl, rfl, fun _ _ => id⟩

end AddChild

/-- The order of two nodes depends on their stacking numbers only. -/
theorem graphicsReorder_congr {nodes other : Nodes}
    (same : ∀ p, zIndexOf other p = zIndexOf nodes p) :
    graphicsReorder other = graphicsReorder nodes := by
  funext first second
  rw [graphicsReorder, graphicsReorder, same, same]

/-- `graphics_set_z_index` on a node with a parent. -/
theorem graphicsSetZIndex_eq {nodes : Nodes} {p q : Nat} {node parentNode : GraphicsNode}
    (live : nodes p = some node) (parent : node.parent = some q)
    (parentLive : nodes q = some parentNode) (apart : q ≠ p) (zIndex : UInt32) (buffers : Bool) :
    graphicsSetZIndex nodes p zIndex buffers =
      some ((nodes.set p (node.withZIndex zIndex)).set q (parentNode.withChildren
        (Elements.vectorReorder buffers (graphicsReorder (nodes.set p (node.withZIndex zIndex)))
          parentNode.children))) := by
  have after : nodes.set p (node.withZIndex zIndex) q = some parentNode := by
    rw [Nodes.set, Function.update_of_ne apart, parentLive]
  simp only [graphicsSetZIndex, live, parent, after]

/-- The memory for the new node and its pixels is there, and the rectangle is accepted. -/
def CreateSucceeds (source : GraphicsNode) (x y width height : UInt64) (flags : UInt32)
    (alloc : NodeAlloc) : Prop :=
  alloc.newGraphics.isSome ∧ outOfBounds source x y width height flags = false ∧ alloc.pixels.isSome

instance (source : GraphicsNode) (x y width height : UInt64) (flags : UInt32) (alloc : NodeAlloc) :
    Decidable (CreateSucceeds source x y width height flags alloc) :=
  inferInstanceAs (Decidable (_ ∧ _ ∧ _))

/-- The memory behind a creation that succeeds: the new node is pushed to the children of its source,
gets their number and is sorted in among them. -/
def createdNodes (nodes : Nodes) (sourceGraphics : Nat) (source : GraphicsNode) (new : Nat)
    (x y width height : UInt64) (pixels : UInt32 → FramebufferPixel) (alloc : NodeAlloc) : Nodes :=
  addChild nodes sourceGraphics source new
    (stackedNode source sourceGraphics x y width height pixels
      (Elements.vectorPush alloc.push source.children new).length) alloc

theorem createdNodes_room {alloc : NodeAlloc} (room : alloc.HasRoom) (nodes : Nodes)
    (sourceGraphics : Nat) (source : GraphicsNode) (new : Nat) (x y width height : UInt64)
    (pixels : UInt32 → FramebufferPixel) :
    createdNodes nodes sourceGraphics source new x y width height pixels alloc =
      addChild nodes sourceGraphics source new
        (stackedNode source sourceGraphics x y width height pixels (source.children.length + 1))
        alloc := by
  rw [createdNodes, room.push_eq, List.length_append, List.length_singleton]

section Create

variable {nodes : Nodes} {sourceGraphics : Nat} {source : GraphicsNode}
  (live : nodes sourceGraphics = some source) (x y width height : UInt64) (flags : UInt32)
  {alloc : NodeAlloc}

include live

theorem graphicsInfoCreateRelative_fails
    (fails : ¬ CreateSucceeds source x y width height flags alloc) :
    graphicsInfoCreateRelative nodes sourceGraphics x y width height flags alloc =
      some (none, nodes) := by
  unfold graphicsInfoCreateRelative
  cases isNew : alloc.newGraphics with
  | none => rfl
  | some new =>
    simp only [live]
    cases outside : outOfBounds source x y width height flags with
    | true => rw [if_pos rfl]
    | false =>
      cases isBuffer : alloc.pixels with
      | none => rfl
      | some buffer => exact absurd ⟨by rw [isNew]; rfl, outside, by rw [isBuffer]; rfl⟩ fails

/-- A new node is put among the children of its source. -/
theorem graphicsInfoCreateRelative_succeeds {new : Nat} (isNew : alloc.newGraphics = some new)
    (fresh : nodes new = none) {buffer : UInt32 → FramebufferPixel}
    (isBuffer : alloc.pixels = some buffer)
    (accepted : outOfBounds source x y width height flags = false) :
    graphicsInfoCreateRelative nodes sourceGraphics x y width height flags alloc =
      some (some new,
        createdNodes nodes sourceGraphics source new x y width height buffer alloc) := by
  have apart := ne_of_fresh live fresh
  simp only [graphicsInfoCreateRelative, isNew, live, isBuffer, createdNodes, addChild, childrenWith]
  generalize Elements.vectorPush alloc.push source.children new = children
  have atNew : ((nodes.set new (newNode source sourceGraphics x y width height buffer)).set
      sourceGraphics (source.withChildren children)) new =
      some (newNode source sourceGraphics x y width height buffer) := by
    simp [Nodes.set, apart]
  have atSource : ((nodes.set new (newNode source sourceGraphics x y width height buffer)).set
      sourceGraphics (source.withChildren children)) sourceGraphics =
      some (source.withChildren children) := by
    simp [Nodes.set]
  rw [if_neg (by simp [accepted]), graphicsSetZIndex_eq atNew rfl atSource (Ne.symm apart),
    Option.map_some, ← stackedNode]
  -- The children are compared by their stacking numbers, and the source has kept its own.
  have order : graphicsReorder (((nodes.set new
      (newNode source sourceGraphics x y width height buffer)).set sourceGraphics
        (source.withChildren children)).set new
          (stackedNode source sourceGraphics x y width height buffer children.length)) =
      graphicsReorder (nodes.set new
        (stackedNode source sourceGraphics x y width height buffer children.length)) := by
    apply graphicsReorder_congr
    intro p
    by_cases isNew : p = new
    · simp [zIndexOf, Nodes.set, isNew]
    · by_cases isSource : p = sourceGraphics
      · simp [zIndexOf, Nodes.set, isSource, Ne.symm apart, live, GraphicsNode.withChildren]
      · simp [zIndexOf, Nodes.set, isNew, isSource]
  rw [order]
  refine congrArg some (congrArg (Prod.mk _) (funext fun p => ?_))
  by_cases isSource : p = sourceGraphics
  · simp [Nodes.set, isSource, GraphicsNode.withChildren]
  · by_cases isNew : p = new
    · simp [Nodes.set, isNew, apart]
    · simp [Nodes.set, isSource, isNew]

/-- `graphics_info_create_relative` fails and changes nothing, or it adds a node to its source. -/
theorem graphicsInfoCreateRelative_cases
    (fresh : ∀ new, alloc.newGraphics = some new → nodes new = none) :
    (¬ CreateSucceeds source x y width height flags alloc ∧
      graphicsInfoCreateRelative nodes sourceGraphics x y width height flags alloc =
        some (none, nodes)) ∨
    (CreateSucceeds source x y width height flags alloc ∧
      ∃ new buffer, alloc.newGraphics = some new ∧ alloc.pixels = some buffer ∧
        graphicsInfoCreateRelative nodes sourceGraphics x y width height flags alloc =
          some (some new,
            createdNodes nodes sourceGraphics source new x y width height buffer alloc)) := by
  by_cases succeeds : CreateSucceeds source x y width height flags alloc
  · obtain ⟨new, isNew⟩ := Option.isSome_iff_exists.mp succeeds.1
    obtain ⟨buffer, isBuffer⟩ := Option.isSome_iff_exists.mp succeeds.2.2
    exact .inr ⟨succeeds, new, buffer, isNew, isBuffer,
      graphicsInfoCreateRelative_succeeds live x y width height flags isNew (fresh new isNew)
        isBuffer succeeds.2.1⟩
  · exact .inl ⟨succeeds,
      graphicsInfoCreateRelative_fails live x y width height flags succeeds⟩

end Create

/-! ## Forests -/

/-- Parents and children agree, and the rank grows from a parent to its children. -/
structure Forest (nodes : Nodes) (rank : Nat → Nat) (bound : Nat) : Prop where
  parent : ∀ {p node q}, nodes p = some node → node.parent = some q →
    ∃ parentNode, nodes q = some parentNode ∧ p ∈ parentNode.children
  child : ∀ {p node c}, nodes p = some node → c ∈ node.children →
    ∃ childNode, nodes c = some childNode ∧ childNode.parent = some p
  rank_lt : ∀ {p node q}, nodes p = some node → node.parent = some q → rank q < rank p
  rank_bound : ∀ {p node}, nodes p = some node → rank p < bound

/-- A tree rooted at the screen, which stands in the corner. -/
structure ScreenTree (screen : Nat) (nodes : Nodes) : Prop where
  forest : ∃ rank bound, Forest nodes rank bound
  root : ∃ node, nodes screen = some node ∧ node.parent = none ∧ node.info.startingX = 0 ∧
    node.info.startingY = 0
  rooted : ∀ {p node}, nodes p = some node → node.parent = none → p = screen

/-- `q` is the parent of `p`. -/
def ParentOf (nodes : Nodes) (q p : Nat) : Prop :=
  ∃ node, nodes p = some node ∧ node.parent = some q

/-- The nodes of the subtree of `p`. -/
def Below (nodes : Nodes) : Nat → Nat → Prop := Relation.ReflTransGen (ParentOf nodes)

/-- The cached position of a node is its parent's plus its own offset. -/
def PlacedAt (nodes : Nodes) (p : Nat) : Prop :=
  ∀ node q parentNode, nodes p = some node → node.parent = some q → nodes q = some parentNode →
    node.info.startingX = parentNode.info.startingX + node.relativeX ∧
      node.info.startingY = parentNode.info.startingY + node.relativeY

/-- Two memories hold the same nodes with the same parents and children. -/
def SameLinks (nodes other : Nodes) : Prop :=
  ∀ p, (other p).map (fun node => (node.parent, node.children)) =
    (nodes p).map (fun node => (node.parent, node.children))

/-- Two memories differ in the cached positions only. -/
def SameShape (nodes other : Nodes) : Prop :=
  ∀ p, (other p).map (·.startAt 0 0) = (nodes p).map (·.startAt 0 0)

section Shape

variable {nodes other third : Nodes} {p q c : Nat}

theorem SameLinks.symm (same : SameLinks nodes other) : SameLinks other nodes :=
  fun p => (same p).symm

theorem SameLinks.trans (first : SameLinks nodes other) (second : SameLinks other third) :
    SameLinks nodes third := fun p => (second p).trans (first p)

theorem SameShape.refl (nodes : Nodes) : SameShape nodes nodes := fun _ => rfl

theorem SameShape.trans (first : SameShape nodes other) (second : SameShape other third) :
    SameShape nodes third := fun p => (second p).trans (first p)

theorem SameShape.links (same : SameShape nodes other) : SameLinks nodes other := by
  intro p
  have links := congrArg (Option.map fun node => (node.parent, node.children)) (same p)
  rw [Option.map_map, Option.map_map] at links
  exact links

theorem SameLinks.exists_node (same : SameLinks nodes other) {node : GraphicsNode}
    (live : nodes p = some node) :
    ∃ node', other p = some node' ∧ node'.parent = node.parent ∧
      node'.children = node.children := by
  have links := same p
  rw [live, Option.map_some] at links
  obtain ⟨node', live', eq⟩ := Option.map_eq_some_iff.mp links
  exact ⟨node', live', congrArg Prod.fst eq, congrArg Prod.snd eq⟩

theorem sameShape_set {node : GraphicsNode} (live : nodes p = some node) (x y : UInt32) :
    SameShape nodes (nodes.set p (node.startAt x y)) := by
  intro q
  by_cases here : q = p
  · subst here
    simp [Nodes.set, live, GraphicsNode.startAt]
  · simp [Nodes.set, here]

theorem SameLinks.parentOf (same : SameLinks nodes other) (isParent : ParentOf nodes q p) :
    ParentOf other q p := by
  obtain ⟨node, live, parent⟩ := isParent
  obtain ⟨node', live', parent', -⟩ := same.exists_node live
  exact ⟨node', live', parent'.trans parent⟩

theorem SameLinks.below_iff (same : SameLinks nodes other) : Below other p q ↔ Below nodes p q :=
  ⟨fun below => below.lift id fun _ _ => same.symm.parentOf,
    fun below => below.lift id fun _ _ => same.parentOf⟩

theorem SameLinks.forest {rank : Nat → Nat} {bound : Nat} (same : SameLinks nodes other)
    (forest : Forest nodes rank bound) : Forest other rank bound where
  parent := by
    intro p node q live parent
    obtain ⟨node', live', parent', -⟩ := same.symm.exists_node live
    obtain ⟨parentNode, parentLive, member⟩ := forest.parent live' (parent'.trans parent)
    obtain ⟨parentNode', parentLive', -, children⟩ := same.exists_node parentLive
    exact ⟨parentNode', parentLive', children ▸ member⟩
  child := by
    intro p node c live member
    obtain ⟨node', live', -, children⟩ := same.symm.exists_node live
    obtain ⟨childNode, childLive, parent⟩ := forest.child live' (children ▸ member)
    obtain ⟨childNode', childLive', parent', -⟩ := same.exists_node childLive
    exact ⟨childNode', childLive', parent'.trans parent⟩
  rank_lt := by
    intro p node q live parent
    obtain ⟨node', live', parent', -⟩ := same.symm.exists_node live
    exact forest.rank_lt live' (parent'.trans parent)
  rank_bound := by
    intro p node live
    obtain ⟨node', live', -⟩ := same.symm.exists_node live
    exact forest.rank_bound live'

/-- The subtrees a node with a parent is in are its own and those its parent is in. -/
theorem below_parent_iff {node : GraphicsNode} (live : nodes p = some node) (parent : node.parent = some q) {i : Nat} :
    Below nodes i p ↔ i = p ∨ Below nodes i q := by
  constructor
  · intro below
    rcases Relation.ReflTransGen.cases_tail below with same | ⟨r, above, ⟨node', live', parent'⟩⟩
    · exact .inl same.symm
    · rw [live, Option.some.injEq] at live'
      subst live'
      rw [parent, Option.some.injEq] at parent'
      exact .inr (parent' ▸ above)
  · rintro (rfl | above)
    · exact .refl
    · exact above.tail ⟨node, live, parent⟩

/-- A node without a parent is in its own subtree only. -/
theorem below_root_iff {node : GraphicsNode} (live : nodes p = some node) (parent : node.parent = none) {i : Nat} :
    Below nodes i p ↔ i = p := by
  constructor
  · intro below
    rcases Relation.ReflTransGen.cases_tail below with same | ⟨r, -, ⟨node', live', parent'⟩⟩
    · exact same.symm
    · rw [live, Option.some.injEq] at live'
      rw [← live', parent] at parent'
      exact absurd parent' (by simp)
  · rintro rfl
    exact .refl

end Shape

namespace Forest

variable {nodes : Nodes} {rank : Nat → Nat} {bound : Nat} (forest : Forest nodes rank bound)
  {p q c : Nat} {node : GraphicsNode}

include forest

theorem rank_le_of_below (below : Below nodes p q) : rank p ≤ rank q := by
  induction below with
  | refl => exact Nat.le_refl _
  | tail _ isParent ih =>
    obtain ⟨node, live, parent⟩ := isParent
    exact Nat.le_trans ih (Nat.le_of_lt (forest.rank_lt live parent))

/-- The subtree of a node is the node and the subtrees of its children. -/
theorem below_iff (live : nodes p = some node) :
    Below nodes p q ↔ q = p ∨ ∃ c ∈ node.children, Below nodes c q := by
  constructor
  · intro below
    rcases Relation.ReflTransGen.cases_head below with rfl | ⟨c, ⟨childNode, childLive, parent⟩, rest⟩
    · exact .inl rfl
    · obtain ⟨parentNode, parentLive, member⟩ := forest.parent childLive parent
      rw [live, Option.some.injEq] at parentLive
      exact .inr ⟨c, parentLive ▸ member, rest⟩
  · rintro (rfl | ⟨c, member, rest⟩)
    · exact .refl
    · exact .head (forest.child live member) rest

/-- Every node is below the only one that has no parent. -/
theorem below_of_rooted {screen : Nat}
    (rooted : ∀ {p node}, nodes p = some node → node.parent = none → p = screen)
    (live : nodes p = some node) : Below nodes screen p := by
  induction ranked : rank p using Nat.strongRecOn generalizing p node with
  | ind r ih =>
    cases parent : node.parent with
    | none => exact rooted live parent ▸ .refl
    | some q =>
      obtain ⟨parentNode, parentLive, -⟩ := forest.parent live parent
      exact (ih (rank q) (ranked ▸ forest.rank_lt live parent) parentLive rfl).tail
        ⟨node, live, parent⟩

end Forest

/-! ## Recalculating a subtree -/

/-- A node outside a subtree stays placed when only the subtree changes: with its parent in the
subtree it would be in it too. -/
theorem placedAt_of_frame {nodes before after : Nodes} {c q : Nat} (same : SameLinks nodes before)
    (frame : ∀ q, ¬ Below nodes c q → after q = before q) (outside : ¬ Below nodes c q)
    (placed : PlacedAt before q) : PlacedAt after q := by
  intro node r parentNode live parent parentLive
  rw [frame q outside] at live
  have parentOutside : ¬ Below nodes c r := fun below =>
    outside (below.tail (same.symm.parentOf ⟨node, live, parent⟩))
  rw [frame r parentOutside] at parentLive
  exact placed node r parentNode live parent parentLive

/-- What recalculating a part of the memory has done: the shape is the same, nothing outside the
subtrees changed, and the subtrees are placed. -/
structure Recalculated (nodes before after : Nodes) (roots : List Nat) : Prop where
  shape : SameShape before after
  frame : ∀ q, (∀ c ∈ roots, ¬ Below nodes c q) → after q = before q
  placed : ∀ q, PlacedAt before q ∨ (∃ c ∈ roots, Below nodes c q) → PlacedAt after q

/-- One subtree after the other. -/
theorem recalculate_children {nodes : Nodes} {recalculate : Nodes → Nat → Option Nodes}
    {roots : List Nat}
    (each : ∀ c ∈ roots, ∀ before, SameLinks nodes before →
      ∃ after, recalculate before c = some after ∧ Recalculated nodes before after [c])
    (before : Nodes) (same : SameLinks nodes before) :
    ∃ after, roots.foldlM recalculate before = some after ∧
      Recalculated nodes before after roots := by
  induction roots generalizing before with
  | nil => exact ⟨before, rfl, .refl before, fun _ _ => rfl, fun q placed => by simpa using placed⟩
  | cons c roots ih =>
    obtain ⟨middle, first, done⟩ := each c List.mem_cons_self before same
    obtain ⟨after, rest, doneRest⟩ := ih (fun d member => each d (List.mem_cons_of_mem _ member))
      middle (same.trans done.shape.links)
    refine ⟨after, by simp [List.foldlM_cons, first, rest], done.shape.trans doneRest.shape, ?_, ?_⟩
    · intro q outside
      simp only [List.mem_cons, forall_eq_or_imp] at outside
      rw [doneRest.frame q outside.2, done.frame q (by simpa using outside.1)]
    · intro q placed
      simp only [List.mem_cons, exists_eq_or_imp] at placed
      rcases placed with already | now | later
      · exact doneRest.placed q (.inl (done.placed q (.inl already)))
      · exact doneRest.placed q (.inl (done.placed q (.inr (by simpa using now))))
      · exact doneRest.placed q (.inr later)

/-- The node itself is placed: its parent is another node, so moving it leaves the parent alone. -/
theorem recalculateNode_spec {nodes : Nodes} {rank : Nat → Nat} {bound : Nat}
    (forest : Forest nodes rank bound) {p : Nat} {node : GraphicsNode} (live : nodes p = some node) :
    ∃ moved x y, recalculateNode nodes node = some moved ∧ moved = node.startAt x y ∧
      PlacedAt (nodes.set p moved) p := by
  cases parent : node.parent with
  | none =>
    refine ⟨node, node.info.startingX, node.info.startingY, by simp [recalculateNode, parent], rfl, ?_⟩
    intro node' q parentNode live' parent' _
    simp only [Nodes.set, Function.update_self, Option.some.injEq] at live'
    rw [← live', parent] at parent'
    exact absurd parent' (by simp)
  | some q =>
    obtain ⟨parentNode, parentLive, -⟩ := forest.parent live parent
    have other : q ≠ p := by
      rintro rfl
      exact Nat.lt_irrefl _ (forest.rank_lt live parent)
    refine ⟨node.startAt (node.relativeX + parentNode.info.startingX)
      (node.relativeY + parentNode.info.startingY), _, _,
      by simp [recalculateNode, parent, parentLive], rfl, ?_⟩
    intro node' q' parentNode' live' parent' parentLive'
    simp only [Nodes.set, Function.update_self, Option.some.injEq] at live'
    subst live'
    have isParent : q = q' := Option.some.inj (parent.symm.trans parent')
    subst isParent
    simp only [Nodes.set, Function.update_of_ne other, parentLive, Option.some.injEq] at parentLive'
    subst parentLive'
    exact ⟨UInt32.add_comm _ _, UInt32.add_comm _ _⟩

/-- With enough fuel `graphics_info_recalculate` places the whole subtree and changes nothing
outside of it. -/
theorem recalculate_spec {nodes : Nodes} {rank : Nat → Nat} {bound : Nat}
    (forest : Forest nodes rank bound) {p : Nat} {before : Nodes} (same : SameLinks nodes before)
    {node : GraphicsNode} (live : before p = some node) {fuel : Nat}
    (enough : bound ≤ fuel + rank p) :
    ∃ after, graphicsInfoRecalculate fuel before p = some after ∧
      Recalculated nodes before after [p] := by
  induction fuel generalizing p before node with
  | zero =>
    have := (same.forest forest).rank_bound live
    omega
  | succ fuel ih =>
    have forestNow := same.forest forest
    obtain ⟨moved, x, y, movedEq, isMoved, placedHere⟩ := recalculateNode_spec forestNow live
    have sameMoved : SameShape before (before.set p moved) := isMoved ▸ sameShape_set live x y
    -- Then the subtrees of the children.
    have each : ∀ c ∈ node.children, ∀ now, SameLinks nodes now →
        ∃ after, graphicsInfoRecalculate fuel now c = some after ∧
          Recalculated nodes now after [c] := by
      intro c member now sameNow
      obtain ⟨childNode, childLive, parent⟩ := forestNow.child live member
      obtain ⟨childNow, childLiveNow, -⟩ := (same.symm.trans sameNow).exists_node childLive
      have := forestNow.rank_lt childLive parent
      exact ih sameNow childLiveNow (by omega)
    obtain ⟨after, ran, done⟩ := recalculate_children each _ (same.trans sameMoved.links)
    have frame : ∀ q, ¬ Below nodes p q → after q = before q := by
      intro q outside
      rw [← same.below_iff, forestNow.below_iff live, not_or] at outside
      have kept : after q = (before.set p moved) q := done.frame q fun c member below =>
        outside.2 ⟨c, member, same.below_iff.mpr below⟩
      rw [kept, Nodes.set, Function.update_of_ne outside.1]
    refine ⟨after, ?_, sameMoved.trans done.shape, ?_, ?_⟩
    · simp only [graphicsInfoRecalculate, live, movedEq]
      exact ran
    · exact fun q outside => frame q (outside p List.mem_cons_self)
    · intro q placed
      by_cases below : Below nodes p q
      · rw [← same.below_iff, forestNow.below_iff live] at below
        rcases below with rfl | ⟨c, member, inChild⟩
        · exact done.placed q (.inl placedHere)
        · exact done.placed q (.inr ⟨c, member, same.below_iff.mp inChild⟩)
      · refine placedAt_of_frame same frame below (placed.resolve_right ?_)
        rintro ⟨c, member, inside⟩
        exact below (List.mem_singleton.mp member ▸ inside)

/-- More fuel gives the same result. -/
theorem recalculate_mono {fuel more : Nat} (le : fuel ≤ more) {nodes after : Nodes} {p : Nat}
    (ran : graphicsInfoRecalculate fuel nodes p = some after) :
    graphicsInfoRecalculate more nodes p = some after := by
  induction fuel generalizing more nodes after p with
  | zero => simp [graphicsInfoRecalculate] at ran
  | succ fuel ih =>
    obtain ⟨more, rfl⟩ : ∃ k, more = k + 1 := ⟨more - 1, by omega⟩
    have loop : ∀ (roots : List Nat) (nodes : Nodes),
        roots.foldlM (fun nodes child => graphicsInfoRecalculate fuel nodes child) nodes =
          some after →
        roots.foldlM (fun nodes child => graphicsInfoRecalculate more nodes child) nodes =
          some after := by
      intro roots
      induction roots with
      | nil => exact fun _ ran => ran
      | cons c roots ihRoots =>
        intro nodes ran
        rw [List.foldlM_cons] at ran ⊢
        obtain ⟨middle, first, rest⟩ := Option.bind_eq_some_iff.mp ran
        rw [ih (Nat.le_of_succ_le_succ le) first]
        exact ihRoots middle rest
    simp only [graphicsInfoRecalculate] at ran ⊢
    split at ran
    · simp at ran
    · split at ran
      · simp at ran
      · exact loop _ _ ran

end ViOS.Graphics
