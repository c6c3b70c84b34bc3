import ViOS.Graphics.WindowTree
import ViOS.Lib.Run

/-! # The system of windows

* `WindowsOk` — every window has its own root among the children of the screen.
* `windowCreate_spec`, `WindowsOk.focus`, `WindowsOk.close`, `WindowsOk.move` — what the
  calls do to windows and roots.
* `windowStep_ok` — every call keeps the invariant.
-/

namespace ViOS.Graphics

open ViOS.Lib
open scoped List

/-! ## The invariant -/

/-- `win->root_graphics`; an address without a window has the root zero. -/
def rootOf (s : WindowSystem) (w : Nat) : Nat := ((s.window w).map Window.rootGraphics).getD 0

theorem rootOf_eq {s : WindowSystem} {w : Nat} {window : Window} (live : s.window w = some window) :
    rootOf s w = window.rootGraphics := by
  rw [rootOf, live, Option.map_some, Option.getD_some]

/-- Every window has a root of its own among the children of the screen. -/
structure WindowsOk (screen : Nat) (s : WindowSystem) : Prop where
  owned : ∃ rank, Owned s.nodes rank
  top : ∃ node, s.nodes screen = some node ∧ node.parent = none ∧ node.info.startingX = 0 ∧
    node.info.startingY = 0
  window : ∀ w ∈ s.windowsVector, ∃ window, s.window w = some window ∧ window.zindex = 0 ∧
    window.rootGraphics ∈ stack screen s.nodes
  distinct : ∀ v ∈ s.windowsVector, ∀ w ∈ s.windowsVector, rootOf s v = rootOf s w → v = w
  nodup : s.windowsVector.Nodup
  focused : ∀ w, s.focusedWindow = some w → w ∈ s.windowsVector

theorem windowsOk_setup (screen : Nat) (mode : GraphicsInfo) :
    WindowsOk screen (setupWindows screen mode) := by
  have screenLive : (setupWindows screen mode).nodes screen = some (screenNode mode) := by
    simp [setupWindows, setupNodes, Nodes.set]
  have only : ∀ {p node}, (setupWindows screen mode).nodes p = some node →
      node = screenNode mode := by
    intro p node live
    by_cases here : p = screen
    · subst here
      rw [screenLive, Option.some.injEq] at live
      exact live.symm
    · simp [setupWindows, setupNodes, Nodes.set, here] at live
  refine ⟨⟨fun _ => 0, ?_, ?_, ?_⟩, ⟨_, screenLive, rfl, rfl, rfl⟩, by simp [setupWindows],
    by simp [setupWindows], List.nodup_nil, by simp [setupWindows]⟩
  · intro p node c live member
    rw [only live] at member
    exact absurd member List.not_mem_nil
  · intro p node live
    rw [only live]
    exact List.nodup_nil
  · rintro p c ⟨node, live, member⟩
    rw [only live] at member
    exact absurd member List.not_mem_nil

namespace WindowsOk

variable {screen : Nat} {s : WindowSystem} (ok : WindowsOk screen s) {w p : Nat}

include ok

theorem stack_nodup : (stack screen s.nodes).Nodup := by
  obtain ⟨rank, owned⟩ := ok.owned
  obtain ⟨node, live, -⟩ := ok.top
  exact stack_eq live ▸ owned.nodup live

/-- The screen is not among its own children. -/
theorem screen_not_mem : screen ∉ stack screen s.nodes := by
  obtain ⟨rank, owned⟩ := ok.owned
  intro member
  exact owned.not_descends_parent (mem_stack_iff.mp member) .refl

theorem root_mem (member : w ∈ s.windowsVector) : rootOf s w ∈ stack screen s.nodes := by
  obtain ⟨window, live, -, onScreen⟩ := ok.window w member
  exact rootOf_eq live ▸ onScreen

/-- A child of the screen is a node. -/
theorem live_of_mem_stack (member : p ∈ stack screen s.nodes) :
    ∃ node, s.nodes p = some node ∧ node.parent = some screen := by
  obtain ⟨rank, owned⟩ := ok.owned
  obtain ⟨screenNode, live, inChildren⟩ := mem_stack_iff.mp member
  exact owned.child live inChildren

/-- A new node behind the children of the screen is not one of them. -/
theorem nodup_stack_new {new : Nat} (fresh : s.nodes new = none) : (stack screen s.nodes ++ [new]).Nodup := by
  have absent : new ∉ stack screen s.nodes := by
    intro member
    obtain ⟨node, live, -⟩ := ok.live_of_mem_stack member
    simp [fresh] at live
  rw [← List.concat_eq_append, List.nodup_concat]
  exact ⟨absent, ok.stack_nodup⟩

/-- The field `zindex` is zero in every window, so the vector stays as it is. -/
theorem windowsVector_sorted (buffers : Bool) :
    Elements.vectorReorder buffers (windowReorder s.window) s.windowsVector = s.windowsVector := by
  apply Elements.vectorReorder_eq_self
  apply List.pairwise_of_forall_mem_list
  intro v inV w inW
  obtain ⟨first, liveV, zeroV, -⟩ := ok.window v inV
  obtain ⟨second, liveW, zeroW, -⟩ := ok.window w inW
  simp [windowReorder, zindexOf, liveV, liveW, zeroV, zeroW]

/-- Another number for a child of the screen keeps everything, sorted or not. -/
theorem restack {z : UInt32} {buffers : Bool} {nodes : Nodes} (member : p ∈ stack screen s.nodes)
    (restacked : Restacked screen p z buffers s.nodes nodes) : WindowsOk screen { s with nodes } := by
  obtain ⟨rank, owned⟩ := ok.owned
  have child := mem_stack_iff.mp member
  have relinked := restacked.relinked owned child
  have same : ∀ q, q ∈ stack screen nodes ↔ q ∈ stack screen s.nodes := by
    intro q
    rw [mem_stack_iff, mem_stack_iff, relinked.childOf_iff]
  refine ⟨⟨rank, relinked.owned owned⟩, ?_, ?_, ok.distinct, ok.nodup, ok.focused⟩
  · obtain ⟨node, live, top⟩ := ok.top
    exact ⟨_, restacked.top node live, top⟩
  · intro w inVector
    obtain ⟨window, live, zero, onScreen⟩ := ok.window w inVector
    exact ⟨window, live, zero, (same _).mpr onScreen⟩

theorem setZIndex (member : w ∈ s.windowsVector) (zindex : Int32) (buffers : StackBuffers) :
    ∃ nodes, windowSetZIndex s w zindex buffers = some { s with nodes } ∧
      Restacked screen (rootOf s w) zindex.toUInt32 buffers.children s.nodes nodes := by
  obtain ⟨rank, owned⟩ := ok.owned
  obtain ⟨window, live, -⟩ := ok.window w member
  have onScreen := ok.root_mem member
  obtain ⟨nodes, set, restacked⟩ := graphicsSetZIndex_restacked owned (mem_stack_iff.mp onScreen)
    zindex.toUInt32 buffers.children
  refine ⟨nodes, ?_, restacked⟩
  rw [rootOf_eq live] at set
  simp only [windowSetZIndex, live, set, Option.map_some, ok.windowsVector_sorted]

theorem bringToTop (member : w ∈ s.windowsVector) (buffers : StackBuffers) :
    ∃ nodes, windowBringToTop screen s w buffers = some { s with nodes } ∧
      Restacked screen (rootOf s w) (topNumber screen s.nodes) buffers.children s.nodes nodes := by
  obtain ⟨screenNode, live, -⟩ := ok.top
  obtain ⟨nodes, set, restacked⟩ :=
    ok.setZIndex member (lastIndex s.nodes screenNode + 1).toUInt32.toInt32 buffers
  refine ⟨nodes, by simp only [windowBringToTop, live, set], ?_⟩
  have number : (lastIndex s.nodes screenNode + 1).toUInt32.toInt32.toUInt32 =
      topNumber screen s.nodes := by
    rw [lastIndex, topNumber, stack_eq live]
    cases screenNode.children.getLast? with
    | none => rfl
    | some child => exact (UInt32.toUInt32_toInt32 _).trans (by simp)
  exact number ▸ restacked

/-- The global variable alone. -/
theorem setFocused (member : w ∈ s.windowsVector) :
    WindowsOk screen { s with focusedWindow := some w } := by
  refine ⟨ok.owned, ok.top, ok.window, ok.distinct, ok.nodup, ?_⟩
  rintro v ⟨⟩
  exact member

theorem focus (member : w ∈ s.windowsVector) (buffers : StackBuffers) :
    (s.focusedWindow = some w ∧ windowFocus screen s w buffers = some s) ∨
      (s.focusedWindow ≠ some w ∧
        ∃ nodes, windowFocus screen s w buffers = some { s with nodes, focusedWindow := some w } ∧
          Restacked screen (rootOf s w) (topNumber screen s.nodes) buffers.children s.nodes nodes) := by
  by_cases already : s.focusedWindow = some w
  · exact .inl ⟨already, by rw [windowFocus, if_pos already]⟩
  · obtain ⟨nodes, brought, restacked⟩ := (ok.setFocused member).bringToTop member buffers
    exact .inr ⟨already, nodes, by rw [windowFocus, if_neg already, brought], restacked⟩

end WindowsOk

/-! ## Creating a window -/

/-- The nodes of a window were created, with `node` as the root, as far as there was memory. -/
structure RootAdded (screen new : Nat) (node : GraphicsNode) (alloc : NodeAlloc) (addresses : List Nat)
    (nodes after : Nodes) : Prop where
  owned : ∃ rank, Owned after rank
  top : ∀ screenNode, nodes screen = some screenNode →
    after screen = some (screenNode.withChildren (childrenWith nodes screenNode new node alloc))
  added : ∃ children, after new = some (node.withChildren children)
  frame : ∀ q, q ≠ screen → q ∉ addresses → after q = nodes q
  room : alloc.HasRoom

section RootAdded

variable {screen new q : Nat} {node : GraphicsNode} {alloc : NodeAlloc} {addresses : List Nat}
  {s : WindowSystem} {after : Nodes}
  (added : RootAdded screen new node alloc addresses s.nodes after)
  (ok : WindowsOk screen s) (fresh : ∀ p ∈ addresses, s.nodes p = none)

include added ok

theorem RootAdded.stack_eq_reorder : stack screen after = Elements.vectorReorder alloc.buffers
    (graphicsReorder (s.nodes.set new node)) (stack screen s.nodes ++ [new]) := by
  obtain ⟨screenNode, live, -⟩ := ok.top
  rw [stack_eq live, stack_eq (added.top screenNode live), ← added.room.push_eq]
  rfl

theorem RootAdded.mem_stack :
    q ∈ stack screen after ↔ q ∈ stack screen s.nodes ∨ q = new := by
  rw [added.stack_eq_reorder ok, (Elements.vectorReorder_perm _ _ _).mem_iff, List.mem_append,
    List.mem_singleton]

include fresh

/-- The other children of the screen are as before. -/
theorem RootAdded.other (member : q ∈ stack screen s.nodes) : after q = s.nodes q := by
  obtain ⟨g, live, -⟩ := ok.live_of_mem_stack member
  apply added.frame q
  · rintro rfl
    exact ok.screen_not_mem member
  · intro inAddresses
    simp [fresh q inAddresses] at live

theorem RootAdded.zIndexOf_other (member : q ∈ stack screen s.nodes) :
    zIndexOf after q = zIndexOf s.nodes q := by
  rw [zIndexOf, added.other ok fresh member, zIndexOf]

omit ok fresh in
theorem RootAdded.zIndexOf_new : zIndexOf after new = node.zIndex := by
  obtain ⟨children, live⟩ := added.added
  rw [zIndexOf, live]
  rfl

/-- The children of the screen are compared by the numbers they have in the end. -/
theorem RootAdded.zIndexOf_sorted (member : q ∈ stack screen after) :
    zIndexOf (s.nodes.set new node) q = zIndexOf after q := by
  by_cases isNew : q = new
  · rw [isNew, added.zIndexOf_new]
    simp [zIndexOf, Nodes.set]
  · have old := ((added.mem_stack ok).mp member).resolve_right isNew
    rw [added.zIndexOf_other ok fresh old, zIndexOf, Nodes.set, Function.update_of_ne isNew, zIndexOf]

/-- The order of the children of the screen, when they are sorted. -/
theorem RootAdded.before_iff (freshNew : s.nodes new = none) (sorts : alloc.buffers = true) {a b : Nat}
    (inA : a ∈ stack screen after) (inB : b ∈ stack screen after) (apart : a ≠ b) :
    [a, b] <+ stack screen after ↔ zIndexOf after a < zIndexOf after b ∨
      (¬ zIndexOf after b < zIndexOf after a ∧ [a, b] <+ stack screen s.nodes ++ [new]) := by
  have nodup := ok.nodup_stack_new freshNew
  have among : ∀ {q}, q ∈ stack screen after → q ∈ stack screen s.nodes ++ [new] := by
    intro q member
    simpa using (added.mem_stack ok).mp member
  rw [← added.zIndexOf_sorted ok fresh inA, ← added.zIndexOf_sorted ok fresh inB, ← graphicsReorder_iff,
    ← graphicsReorder_iff, added.stack_eq_reorder ok, sorts]
  exact before_bubbleSort_iff (graphicsReorder_asymm _) (graphicsReorder_trans _) nodup
    (among inA) (among inB) apart

omit fresh in
/-- The tree is in order behind a failed creation, too. -/
theorem RootAdded.windowsOk : WindowsOk screen { s with nodes := after } := by
  refine ⟨added.owned, ?_, ?_, ok.distinct, ok.nodup, ok.focused⟩
  · obtain ⟨screenNode, live, top⟩ := ok.top
    exact ⟨_, added.top screenNode live, top⟩
  · intro w inVector
    obtain ⟨window, live, zero, onScreen⟩ := ok.window w inVector
    exact ⟨window, live, zero, (added.mem_stack ok).mpr (.inl onScreen)⟩

end RootAdded

namespace WindowRequest

variable (request : WindowRequest)

/-- `window_create` gets as far as the root, for which there is room on the screen. -/
def RootSucceeds (screenNode : GraphicsNode) : Prop :=
  request.window.isSome ∧ request.eventHandlers = true ∧
    CreateSucceeds screenNode request.x request.y request.totalWidth request.totalHeight
      graphicsFlagDoNotCopyPixels request.root

/-- The root as it is created. -/
def rootNode (screen : Nat) (screenNode : GraphicsNode) : GraphicsNode :=
  stackedNode screenNode screen request.x request.y request.totalWidth request.totalHeight
    (request.root.pixels.getD fun _ => noTransparencyColor) (screenNode.children.length + 1)

/-- All that follows the root is created. -/
def PartsSucceed (screen : Nat) (screenNode : GraphicsNode) : Prop :=
  (∀ part ∈ request.parts, PartSucceeds (request.rootNode screen screenNode) part) ∧
    request.terminals = true

instance (screenNode : GraphicsNode) : Decidable (request.RootSucceeds screenNode) :=
  inferInstanceAs (Decidable (_ ∧ _ ∧ _))

instance (screen : Nat) (screenNode : GraphicsNode) :
    Decidable (request.PartsSucceed screen screenNode) :=
  inferInstanceAs (Decidable (_ ∧ _))

end WindowRequest

/-- A window that was never in the vector is dropped without a trace. -/
theorem dropWindow_eq {screen w : Nat} {s : WindowSystem} (ok : WindowsOk screen s)
    (fresh : s.window w = none) (nodes : Nodes) (pop : Bool) :
    dropWindow { s with nodes } w pop = { s with nodes } := by
  have absent : w ∉ s.windowsVector := by
    intro member
    obtain ⟨window, live, -⟩ := ok.window w member
    simp [fresh] at live
  have same : Function.update s.window w none = s.window := by
    rw [← fresh]
    exact Function.update_eq_self w s.window
  simp only [dropWindow, same, Elements.vectorPopElement_of_not_mem pop absent]

/-- The nodes of a window are created: the root first, then the parts below it. -/
theorem createParts_rootAdded {screen new : Nat} {s : WindowSystem} {screenNode : GraphicsNode}
    (ok : WindowsOk screen s) (screenLive : s.nodes screen = some screenNode)
    {request : WindowRequest} (served : request.Served) (fresh : request.Fresh s)
    (isNew : request.root.newGraphics = some new) :
    ∃ done nodes, createParts new (addChild s.nodes screen screenNode new
        (request.rootNode screen screenNode) request.root) request.parts = some (done, nodes) ∧
      RootAdded screen new (request.rootNode screen screenNode) request.root request.addresses s.nodes
        nodes ∧
      (done = true ↔
        ∀ part ∈ request.parts, PartSucceeds (request.rootNode screen screenNode) part) ∧
      (done = true → ∀ node, nodes new = some node →
        node.children.length = request.parts.length) := by
  have split : request.addresses =
      new :: (request.parts.map WindowPart.alloc).filterMap NodeAlloc.newGraphics := by
    simp [WindowRequest.addresses, WindowRequest.allocs, isNew]
  have freshAll := fresh.nodes
  have nodup := fresh.nodup
  rw [split] at freshAll nodup
  have freshNew := freshAll new List.mem_cons_self
  have apart : new ≠ screen := by
    rintro rfl
    simp [freshNew] at screenLive
  obtain ⟨rank, owned⟩ := ok.owned
  have roomRoot := served.nodes request.root List.mem_cons_self
  have roomParts : ∀ part ∈ request.parts, part.alloc.HasRoom := fun part member =>
    served.nodes _ (List.mem_cons_of_mem _ (List.mem_map_of_mem member))
  have ownedNew : ∃ rank, Owned (addChild s.nodes screen screenNode new
      (request.rootNode screen screenNode) request.root) rank :=
    owned_addChild roomRoot screenLive freshNew rfl rfl owned
  -- the root is in the tree now, so the parts are fresh in the tree with it
  have freshParts : ∀ p ∈ (request.parts.map WindowPart.alloc).filterMap NodeAlloc.newGraphics,
      addChild s.nodes screen screenNode new (request.rootNode screen screenNode) request.root p = none := by
    intro p member
    have old := freshAll p (List.mem_cons_of_mem _ member)
    rw [addChild_other, old]
    · rintro rfl
      simp [old] at screenLive
    · rintro rfl
      exact (List.nodup_cons.mp nodup).1 member
  have notScreen : screen ∉
      (request.parts.map WindowPart.alloc).filterMap NodeAlloc.newGraphics := by
    intro member
    simp [freshAll screen (List.mem_cons_of_mem _ member)] at screenLive
  obtain ⟨done, nodes, ran, parts, meaning, count⟩ := createParts_spec request.parts ownedNew
    (addChild_new apart) roomParts freshParts (List.nodup_cons.mp nodup).2
  refine ⟨done, nodes, ran, ⟨parts.owned, ?_, parts.kept, ?_, roomRoot⟩, meaning, ?_⟩
  · intro g live
    rw [screenLive, Option.some.injEq] at live
    subst live
    rw [parts.frame screen (Ne.symm apart) notScreen, addChild_source]
  · intro q notHere outside
    rw [split, List.mem_cons, not_or] at outside
    rw [parts.frame q outside.1 outside.2, addChild_other notHere outside.1]
  · intro isDone node live
    rw [count isDone node live]
    exact Nat.zero_add _

/-- `window_create` changes nothing, or it adds a root and fails, or it ends by pushing a window
with all its nodes. -/
theorem windowCreate_cases {screen : Nat} {s after : WindowSystem} {screenNode : GraphicsNode}
    (ok : WindowsOk screen s) (screenLive : s.nodes screen = some screenNode)
    {request : WindowRequest} (served : request.Served) (fresh : request.Fresh s)
    {result : Option Nat} (created : windowCreate screen s screen request = some (result, after)) :
    (¬ request.RootSucceeds screenNode ∧ after = s) ∨
      (request.RootSucceeds screenNode ∧ ∃ w new nodes, request.window = some w ∧
        request.root.newGraphics = some new ∧
        RootAdded screen new (request.rootNode screen screenNode) request.root request.addresses
          s.nodes nodes ∧
        ((¬ request.PartsSucceed screen screenNode ∧ after = { s with nodes }) ∨
          (request.PartsSucceed screen screenNode ∧
            (∀ node, nodes new = some node → node.children.length = request.parts.length) ∧
            pushWindow screen { s with nodes } w new request = some after))) := by
  rw [windowCreate] at created
  split at created
  · simp at created
  · cases isWindow : request.window with
    | none =>
      simp only [isWindow, Option.some.injEq, Prod.mk.injEq] at created
      refine .inl ⟨?_, created.2.symm⟩
      rintro ⟨hasWindow, -⟩
      simp [isWindow] at hasWindow
    | some w =>
      have freshW := fresh.window w isWindow
      simp only [isWindow] at created
      cases handlers : request.eventHandlers with
      | false =>
        simp only [handlers, if_true, Option.some.injEq, Prod.mk.injEq] at created
        refine .inl ⟨?_, created.2.symm.trans (dropWindow_eq ok freshW s.nodes _)⟩
        rintro ⟨-, hasHandlers, -⟩
        simp [handlers] at hasHandlers
      | true =>
        simp only [handlers, Bool.true_eq_false, if_false] at created
        have freshRoot : ∀ new, request.root.newGraphics = some new → s.nodes new = none := by
          intro new isNew
          exact fresh.root isNew
        rcases graphicsInfoCreateRelative_cases screenLive request.x request.y request.totalWidth
          request.totalHeight graphicsFlagDoNotCopyPixels freshRoot with
          ⟨fails, failed⟩ | ⟨succeeds, new, buffer, isNew, isBuffer, rootCreated⟩
        · simp only [failed, Option.some.injEq, Prod.mk.injEq] at created
          refine .inl ⟨?_, created.2.symm.trans (dropWindow_eq ok freshW s.nodes _)⟩
          rintro ⟨-, -, rootSucceeds⟩
          exact fails rootSucceeds
        · refine .inr ⟨⟨by simp [isWindow], handlers, succeeds⟩, ?_⟩
          have isRoot : stackedNode screenNode screen request.x request.y request.totalWidth
              request.totalHeight buffer (screenNode.children.length + 1) =
                request.rootNode screen screenNode := by
            rw [WindowRequest.rootNode, isBuffer, Option.getD_some]
          rw [createdNodes_room (served.nodes request.root List.mem_cons_self), isRoot] at rootCreated
          simp only [rootCreated] at created
          obtain ⟨done, nodes, ran, added, meaning, count⟩ :=
            createParts_rootAdded ok screenLive served fresh isNew
          refine ⟨w, new, nodes, rfl, isNew, added, ?_⟩
          simp only [ran] at created
          -- A part or the terminals may still fail: the window is dropped and its root stays.
          cases done with
          | false =>
            simp only [Option.some.injEq, Prod.mk.injEq] at created
            refine .inl ⟨?_, created.2.symm.trans (dropWindow_eq ok freshW nodes _)⟩
            rintro ⟨allParts, -⟩
            exact absurd (meaning.mpr allParts) (by simp)
          | true =>
            cases terminals : request.terminals with
            | false =>
              simp only [terminals, Bool.false_eq_true, if_false, Option.some.injEq,
                Prod.mk.injEq] at created
              refine .inl ⟨?_, created.2.symm.trans (dropWindow_eq ok freshW nodes _)⟩
              rintro ⟨-, hasTerminals⟩
              simp [terminals] at hasTerminals
            | true =>
              simp only [terminals, if_true] at created
              obtain ⟨pushed, isPushed, same⟩ := Option.map_eq_some_iff.mp created
              rw [Prod.mk.injEq] at same
              refine .inr ⟨⟨meaning.mp rfl, terminals⟩, ?_, same.2 ▸ isPushed⟩
              exact count rfl

/-- The system with one more window at the end of the vector. -/
def WindowSystem.push (s : WindowSystem) (w : Nat) (window : Window) : WindowSystem :=
  { s with
    window := Function.update s.window w (some window)
    windowsVector := s.windowsVector ++ [w] }

section Push

variable {screen : Nat} {s : WindowSystem} {w v : Nat} {window : Window}

theorem rootOf_push_self : rootOf (s.push w window) w = window.rootGraphics := by
  simp [rootOf, WindowSystem.push]

theorem rootOf_push_other (apart : v ≠ w) : rootOf (s.push w window) v = rootOf s v := by
  simp [rootOf, WindowSystem.push, apart]

variable (ok : WindowsOk screen s) (fresh : s.window w = none)

include ok fresh

theorem WindowsOk.not_mem_of_fresh : w ∉ s.windowsVector := by
  intro member
  obtain ⟨window, live, -⟩ := ok.window w member
  simp [fresh] at live

theorem WindowsOk.push (onScreen : window.rootGraphics ∈ stack screen s.nodes)
    (own : ∀ v ∈ s.windowsVector, rootOf s v ≠ window.rootGraphics) (zero : window.zindex = 0) :
    WindowsOk screen (s.push w window) := by
  have absent := ok.not_mem_of_fresh fresh
  have old : ∀ {v}, v ∈ s.windowsVector → v ≠ w := by
    rintro v member rfl
    exact absent member
  have memberCases : ∀ {v}, v ∈ (s.push w window).windowsVector →
      v ∈ s.windowsVector ∨ v = w := by
    intro v member
    simpa [WindowSystem.push] using member
  refine ⟨ok.owned, ok.top, ?_, ?_, ?_, ?_⟩
  · intro v member
    cases memberCases member with
    | inl before =>
      obtain ⟨window', live, rest⟩ := ok.window v before
      exact ⟨window', by rw [← live]; exact Function.update_of_ne (old before) _ _, rest⟩
    | inr isNew =>
      subst isNew
      exact ⟨window, Function.update_self _ _ _, zero, onScreen⟩
  · intro v inV v' inV' same
    -- the root of the new window is its own, and the older ones kept theirs
    cases memberCases inV with
    | inl before =>
      rw [rootOf_push_other (old before)] at same
      cases memberCases inV' with
      | inl before' =>
        rw [rootOf_push_other (old before')] at same
        exact ok.distinct v before v' before' same
      | inr isNew =>
        subst isNew
        rw [rootOf_push_self] at same
        exact absurd same (own v before)
    | inr isNew =>
      subst isNew
      rw [rootOf_push_self] at same
      cases memberCases inV' with
      | inl before' =>
        rw [rootOf_push_other (old before')] at same
        exact absurd same.symm (own v' before')
      | inr isNew' => exact isNew'.symm
  · show (s.windowsVector ++ [w]).Nodup
    rw [← List.concat_eq_append, List.nodup_concat]
    exact ⟨absent, ok.nodup⟩
  · intro v isFocused
    exact List.mem_append_left _ (ok.focused v isFocused)

end Push

/-- The window of a request, with its root. -/
def WindowRequest.newWindow (request : WindowRequest) (new : Nat) : Window :=
  ⟨new, request.x, request.y, request.width, request.height, 0⟩

/-- A pushed window is stacked by the number of its parts and then brought to the top. -/
theorem pushWindow_spec {screen w new : Nat} {s : WindowSystem} {rootNode : GraphicsNode}
    {request : WindowRequest} (ok : WindowsOk screen s) (fresh : s.window w = none)
    (live : s.nodes new = some rootNode) (onScreen : new ∈ stack screen s.nodes)
    (own : ∀ v ∈ s.windowsVector, rootOf s v ≠ new) (room : request.push = .room) :
    ∃ middle nodes,
      Restacked screen new (.ofNat (rootNode.children.length + 1)) request.zIndex.children s.nodes
        middle ∧
      WindowsOk screen ({ s with nodes := middle }.push w (request.newWindow new)) ∧
      Restacked screen new (topNumber screen middle) request.focus.children middle nodes ∧
      pushWindow screen s w new request =
        some ({ s with nodes, focusedWindow := some w }.push w (request.newWindow new)) := by
  have pushed : WindowsOk screen (s.push w (request.newWindow new)) :=
    ok.push fresh onScreen own rfl
  have inVector : w ∈ (s.push w (request.newWindow new)).windowsVector := by
    simp [WindowSystem.push]
  have isRoot : rootOf (s.push w (request.newWindow new)) w = new := rootOf_push_self
  obtain ⟨middle, set, restacked⟩ := pushed.setZIndex inVector
    (UInt64.ofNat (rootNode.children.length + 1)).toUInt32.toInt32 request.zIndex
  rw [isRoot] at restacked
  have number : (UInt64.ofNat (rootNode.children.length + 1)).toUInt32.toInt32.toUInt32 =
      .ofNat (rootNode.children.length + 1) := by
    rw [UInt32.toUInt32_toInt32]
    simp
  rw [number] at restacked
  have okMiddle := pushed.restack onScreen restacked
  have notFocused : s.focusedWindow ≠ some w := fun isFocused =>
    ok.not_mem_of_fresh fresh (ok.focused w isFocused)
  rcases okMiddle.focus inVector request.focus with ⟨already, -⟩ | ⟨-, nodes, focused, restackedAgain⟩
  · exact absurd already notFocused
  · refine ⟨middle, nodes, restacked, okMiddle, isRoot ▸ restackedAgain, ?_⟩
    rw [pushWindow, live, room, Elements.vectorPush_room]
    exact (congrArg (Option.bind · (windowFocus screen · w request.focus)) set).trans focused

/-- The window `w` was pushed over the nodes of its creation, stacked by the number of its parts
and brought to the top. -/
def Pushed (screen w new : Nat) (s : WindowSystem) (nodes : Nodes) (after : WindowSystem)
    (request : WindowRequest) : Prop :=
  ∃ middle last,
    Restacked screen new (.ofNat (request.parts.length + 1)) request.zIndex.children nodes middle ∧
    WindowsOk screen ({ s with nodes := middle }.push w (request.newWindow new)) ∧
    Restacked screen new (topNumber screen middle) request.focus.children middle last ∧
    after = { s with nodes := last, focusedWindow := some w }.push w (request.newWindow new)

/-- What follows a call of `window_create`. -/
theorem windowCreate_spec {screen : Nat} {s after : WindowSystem} {screenNode : GraphicsNode}
    (ok : WindowsOk screen s) (screenLive : s.nodes screen = some screenNode)
    {request : WindowRequest} (served : request.Served) (fresh : request.Fresh s)
    {result : Option Nat} (created : windowCreate screen s screen request = some (result, after)) :
    (¬ request.RootSucceeds screenNode ∧ after = s) ∨
      (request.RootSucceeds screenNode ∧ ∃ w new nodes, request.window = some w ∧
        request.root.newGraphics = some new ∧
        RootAdded screen new (request.rootNode screen screenNode) request.root request.addresses
          s.nodes nodes ∧
        WindowsOk screen { s with nodes } ∧
        ((¬ request.PartsSucceed screen screenNode ∧ after = { s with nodes }) ∨
          (request.PartsSucceed screen screenNode ∧ Pushed screen w new s nodes after request))) := by
  rcases windowCreate_cases ok screenLive served fresh created with unchanged | ⟨rootSucceeds, w, new,
    nodes, isWindow, isNew, added, ends⟩
  · exact .inl unchanged
  · have member := WindowRequest.mem_addresses isNew
    have okRoot := added.windowsOk ok
    refine .inr ⟨rootSucceeds, w, new, nodes, isWindow, isNew, added, okRoot, ?_⟩
    rcases ends with failed | ⟨partsSucceed, count, pushed⟩
    · exact .inl failed
    · obtain ⟨children, live⟩ := added.added
      have own : ∀ v ∈ s.windowsVector, rootOf s v ≠ new := by
        rintro v inVector rfl
        obtain ⟨g, liveRoot, -⟩ := ok.live_of_mem_stack (ok.root_mem inVector)
        simp [fresh.nodes _ member] at liveRoot
      obtain ⟨middle, last, restacked, okMiddle, restackedAgain, ran⟩ :=
        @pushWindow_spec _ _ _ _ _ request okRoot (fresh.window w isWindow) live
          ((added.mem_stack ok).mpr (.inr rfl)) own served.window
      rw [count _ live] at restacked
      rw [ran, Option.some.injEq] at pushed
      exact .inr ⟨partsSucceed, middle, last, restacked, okMiddle, restackedAgain, pushed.symm⟩

/-! ## Closing and moving -/

/-- A window was closed: its root has left the children of the screen. -/
structure Closed (screen w : Nat) (s after : WindowSystem) : Prop where
  vector : after.windowsVector = s.windowsVector.erase w
  window : ∀ v, v ≠ w → after.window v = s.window v
  popped : stack screen after.nodes = (stack screen s.nodes).erase (rootOf s w)
  frame : ∀ q ∈ stack screen s.nodes, q ≠ rootOf s w → after.nodes q = s.nodes q

/-- The nodes behind the closing of a window. -/
theorem WindowsOk.close_freed {screen fuel w : Nat} {s after : WindowSystem} {buffers : CloseBuffers}
    (ok : WindowsOk screen s) (member : w ∈ s.windowsVector)
    (closed : windowClose fuel screen s w buffers = some after) :
    ChildOf s.nodes screen (rootOf s w) ∧
      Freed buffers.nodes s.nodes s.nodes after.nodes (rootOf s w) screen := by
  obtain ⟨rank, owned⟩ := ok.owned
  obtain ⟨screenNode, screenLive, noParent, -⟩ := ok.top
  obtain ⟨window, live, -⟩ := ok.window w member
  have child := mem_stack_iff.mp (ok.root_mem member)
  simp only [windowClose, windowFree, live] at closed
  obtain ⟨nodes, ran, rfl⟩ := Option.map_eq_some_iff.mp closed
  rw [← rootOf_eq live] at ran
  refine ⟨child, graphicsInfoFree_spec owned (fun node here => ?_) child (fun _ _ => rfl) ran⟩
  rw [screenLive, Option.some.injEq] at here
  exact here ▸ noParent

theorem WindowsOk.close {screen fuel w : Nat} {s after : WindowSystem} {buffers : CloseBuffers}
    (ok : WindowsOk screen s) (served : Served s (.close w buffers)) (member : w ∈ s.windowsVector)
    (closed : windowClose fuel screen s w buffers = some after) :
    Closed screen w s after ∧ WindowsOk screen after := by
  obtain ⟨child, freed⟩ := ok.close_freed member closed
  obtain ⟨rank, owned⟩ := ok.owned
  obtain ⟨screenNode, screenLive, noParent, start⟩ := ok.top
  obtain ⟨window, live, -, onScreen⟩ := ok.window w member
  have isRoot := rootOf_eq live
  simp only [windowClose, windowFree, live] at closed
  obtain ⟨nodes, ran, rfl⟩ := Option.map_eq_some_iff.mp closed
  have servedRoot : buffers.nodes (rootOf s w) = true := isRoot ▸ served.2 window live
  have popped := freed.popped screenNode screenLive
  rw [servedRoot] at popped
  have stackAfter : stack screen nodes = (stack screen s.nodes).erase (rootOf s w) := by
    rw [stack_eq popped, stack_eq screenLive]
    rfl
  have frame : ∀ q ∈ stack screen s.nodes, q ≠ rootOf s w → nodes q = s.nodes q := by
    intro q inStack notRoot
    apply freed.frame q
    · exact owned.not_descends_sibling child (mem_stack_iff.mp inStack) notRoot
    · rintro rfl
      exact ok.screen_not_mem inStack
  have kept : ∀ {v}, v ≠ w → Function.update s.window w none v = s.window v :=
    fun apart => Function.update_of_ne apart _ _
  have stays : ∀ {v}, v ∈ s.windowsVector.erase w → v ∈ s.windowsVector ∧ v ≠ w := by
    intro v inErase
    exact ⟨List.mem_of_mem_erase inErase, fun same => ok.nodup.not_mem_erase (same ▸ inErase)⟩
  rw [served.1, Elements.vectorPopElement_true]
  refine ⟨⟨rfl, fun v apart => kept apart, stackAfter, frame⟩,
    ⟨rank, freed.owned child owned servedRoot⟩, ⟨_, popped, noParent, start⟩, ?_, ?_,
    ok.nodup.erase w, ?_⟩
  · intro v inErase
    obtain ⟨inVector, apart⟩ := stays inErase
    obtain ⟨window', live', zero, onScreen'⟩ := ok.window v inVector
    refine ⟨window', (kept apart).trans live', zero, ?_⟩
    show window'.rootGraphics ∈ stack screen nodes
    rw [stackAfter]
    apply (List.mem_erase_of_ne _).mpr onScreen'
    intro same
    exact apart (ok.distinct v inVector w member ((rootOf_eq live').trans same))
  · intro v inV v' inV' same
    obtain ⟨inVector, apart⟩ := stays inV
    obtain ⟨inVector', apart'⟩ := stays inV'
    simp only [rootOf, kept apart, kept apart'] at same
    exact ok.distinct v inVector v' inVector' same
  · -- window_free forgets the focus only when it was on this window
    intro v isFocused
    by_cases wasFocused : s.focusedWindow = some w
    · simp [wasFocused] at isFocused
    · simp only [if_neg wasFocused] at isFocused
      apply (List.mem_erase_of_ne _).mpr (ok.focused v isFocused)
      rintro rfl
      exact wasFocused isFocused

/-- Moving a root of the stack changes the positions below it, and places the root itself at the
coordinates it was given, since the screen starts at the origin. -/
theorem WindowsOk.moveRoot {screen fuel p : Nat} {s : WindowSystem} {nodes : Nodes}
    (ok : WindowsOk screen s) {screenNode root : GraphicsNode}
    (screenLive : s.nodes screen = some screenNode) (onScreen : p ∈ stack screen s.nodes)
    (rootLive : s.nodes p = some root) {x y : UInt64}
    (ran : graphicsInfoRecalculate fuel (s.nodes.set p (root.moveTo x y)) p = some nodes) :
    SameLinks s.nodes nodes ∧ nodes screen = some screenNode ∧
      nodes p = some (root.moveTo x y) ∧
      ∀ q ∈ stack screen s.nodes, q ≠ p → nodes q = s.nodes q := by
  obtain ⟨rank, owned⟩ := ok.owned
  obtain ⟨screenNode', screenLive', -, startX, startY⟩ := ok.top
  rw [screenLive, Option.some.injEq] at screenLive'
  subst screenLive'
  have notScreen : p ≠ screen := by
    rintro rfl
    exact ok.screen_not_mem onScreen
  obtain ⟨root', rootLive', rootParent⟩ := ok.live_of_mem_stack onScreen
  rw [rootLive, Option.some.injEq] at rootLive'
  subst rootLive'
  -- The links stay, so the tree is walked along the same children before and after.
  have links := sameLinks_moveTo rootLive x y
  have relinked := relinked_of_sameLinks links
  have here : s.nodes.set p (root.moveTo x y) p = some (root.moveTo x y) := by
    rw [Nodes.set, Function.update_self]
  obtain ⟨shape, frame, placed⟩ := recalculate_frame (relinked.owned owned) here ran
  have outside : ∀ q, ¬ Descends s.nodes p q → nodes q = s.nodes q := by
    intro q notBelow
    rw [frame q fun below => notBelow (below.lift id fun _ _ => relinked.childOf_iff.mp),
      Nodes.set, Function.update_of_ne]
    rintro rfl
    exact notBelow .refl
  refine ⟨links.trans shape.links, ?screen, ?root, ?others⟩
  case screen =>
    rw [outside screen (owned.not_descends_parent (mem_stack_iff.mp onScreen)), screenLive]
  case root =>
    have parent : (root.moveTo x y).parent = some screen := rootParent
    have screenStays : s.nodes.set p (root.moveTo x y) screen = some screenNode := by
      rw [Nodes.set, Function.update_of_ne (Ne.symm notScreen), screenLive]
    rw [placed]
    simp only [recalculateNode, parent, screenStays, Option.map_some, startX, startY]
    simp [GraphicsNode.moveTo, GraphicsNode.startAt]
  case others =>
    intro q inStack apart
    exact outside q (owned.not_descends_sibling (mem_stack_iff.mp onScreen)
      (mem_stack_iff.mp inStack) apart)

/-- A window was moved to (x, y), with its root. -/
structure Moved (screen w : Nat) (x y : UInt64) (s after : WindowSystem) : Prop where
  vector : after.windowsVector = s.windowsVector
  target : ∀ window, s.window w = some window → after.window w = some { window with x, y }
  window : ∀ v, v ≠ w → after.window v = s.window v
  root : ∀ node, s.nodes (rootOf s w) = some node →
    after.nodes (rootOf s w) = some (node.moveTo x y)
  same : stack screen after.nodes = stack screen s.nodes
  frame : ∀ q ∈ stack screen s.nodes, q ≠ rootOf s w → after.nodes q = s.nodes q

theorem Moved.rootOf_eq {screen w : Nat} {x y : UInt64} {s after : WindowSystem}
    (moved : Moved screen w x y s after) {window : Window} (live : s.window w = some window)
    (v : Nat) : rootOf after v = rootOf s v := by
  by_cases here : v = w
  · subst here
    rw [rootOf, moved.target window live, rootOf, live]
    rfl
  · rw [rootOf, moved.window v here, rootOf]

/-- A move keeps the stack, and every window its root. -/
theorem WindowsOk.of_moved {screen w : Nat} {x y : UInt64} {s after : WindowSystem}
    (ok : WindowsOk screen s) (moved : Moved screen w x y s after) {window : Window}
    (live : s.window w = some window) (member : w ∈ s.windowsVector)
    (links : SameLinks s.nodes after.nodes) (top : after.nodes screen = s.nodes screen)
    (focus : after.focusedWindow = s.focusedWindow) : WindowsOk screen after := by
  obtain ⟨rank, owned⟩ := ok.owned
  obtain ⟨screenNode, screenLive, noParent, start⟩ := ok.top
  refine ⟨⟨rank, (relinked_of_sameLinks links).owned owned⟩,
    ⟨screenNode, top.trans screenLive, noParent, start⟩, ?window, ?distinct,
    moved.vector ▸ ok.nodup, ?focused⟩
  case window =>
    intro v inVector
    rw [moved.vector] at inVector
    obtain ⟨window', live', zero, onScreen'⟩ := ok.window v inVector
    rw [moved.same]
    by_cases here : v = w
    · subst here
      exact ⟨_, moved.target window' live', zero, onScreen'⟩
    · exact ⟨window', (moved.window v here).trans live', zero, onScreen'⟩
  case distinct =>
    rw [moved.vector]
    intro v inV v' inV' same
    rw [moved.rootOf_eq live, moved.rootOf_eq live] at same
    exact ok.distinct v inV v' inV' same
  case focused =>
    rw [moved.vector, focus]
    exact ok.focused

theorem WindowsOk.move {screen fuel w : Nat} {s after : WindowSystem} (ok : WindowsOk screen s)
    (member : w ∈ s.windowsVector) {newX newY : UInt64} {screenNode : GraphicsNode}
    (screenLive : s.nodes screen = some screenNode) {window : Window}
    (live : s.window w = some window)
    (moved : windowMove fuel screen s w newX newY = some after) :
    Moved screen w (clampPosition screenNode.info.width.toUInt64 window.width newX)
        (clampPosition screenNode.info.height.toUInt64 window.height newY) s after ∧
      WindowsOk screen after := by
  have onScreen := ok.root_mem member
  have isRoot := rootOf_eq live
  rw [isRoot] at onScreen
  obtain ⟨root, rootLive, -⟩ := ok.live_of_mem_stack onScreen
  simp only [windowMove, live, windowPositionSet, screenLive, rootLive] at moved
  obtain ⟨result, set, rfl⟩ := Option.map_eq_some_iff.mp moved
  obtain ⟨nodes, ran, rfl⟩ := Option.map_eq_some_iff.mp set
  generalize hx : clampPosition screenNode.info.width.toUInt64 window.width newX = x at *
  generalize hy : clampPosition screenNode.info.height.toUInt64 window.height newY = y at *
  obtain ⟨links, screenKept, rootMoved, frame⟩ := ok.moveRoot screenLive onScreen rootLive ran
  have sameStack : stack screen nodes = stack screen s.nodes := by
    rw [stack_eq screenKept, stack_eq screenLive]
  have effect : Moved screen w x y s { s with
      nodes
      window := Function.update s.window w (some { window with x, y }) } := by
    refine ⟨rfl, ?_, fun v apart => Function.update_of_ne apart _ _, ?_, sameStack, isRoot ▸ frame⟩
    · intro window' live'
      rw [live, Option.some.injEq] at live'
      subst live'
      exact Function.update_self _ _ _
    · intro node liveRoot
      rw [isRoot] at liveRoot ⊢
      rw [rootLive, Option.some.injEq] at liveRoot
      subst liveRoot
      exact rootMoved
  exact ⟨effect, ok.of_moved effect live member links (screenKept.trans screenLive.symm) rfl⟩

/-! ## Every call -/

theorem windowStep_ok {screen : Nat} {s after : WindowSystem} {op : WindowOp}
    (step : WindowStep screen s op after) (ok : WindowsOk screen s) : WindowsOk screen after := by
  obtain ⟨screenNode, screenLive, -⟩ := ok.top
  obtain ⟨served, call⟩ := step
  cases op with
  | create request =>
    obtain ⟨fresh, result, created⟩ := call
    rcases windowCreate_spec ok screenLive served fresh created with ⟨-, rfl⟩ | ⟨-, w, new, nodes,
      isWindow, isNew, added, okRoot, ⟨-, rfl⟩ | ⟨-, middle, last, restacked, okMiddle,
        restackedAgain, rfl⟩⟩
    · exact ok
    · exact okRoot
    · have inVector : w ∈ ({ s with nodes := middle }.push w (request.newWindow new)).windowsVector := by
        simp [WindowSystem.push]
      have isRoot : rootOf ({ s with nodes := middle }.push w (request.newWindow new)) w = new :=
        rootOf_push_self
      exact (okMiddle.setFocused inVector).restack (isRoot ▸ okMiddle.root_mem inVector)
        restackedAgain
  | focus w buffers =>
    obtain ⟨member, focused⟩ := call
    rcases ok.focus member buffers with ⟨-, same⟩ | ⟨-, nodes, brought, restacked⟩
    · rw [same, Option.some.injEq] at focused
      exact focused ▸ ok
    · rw [brought, Option.some.injEq] at focused
      exact focused ▸ (ok.setFocused member).restack (ok.root_mem member) restacked
  | bringToTop w buffers =>
    obtain ⟨member, brought⟩ := call
    obtain ⟨nodes, set, restacked⟩ := ok.bringToTop member buffers
    rw [set, Option.some.injEq] at brought
    exact brought ▸ ok.restack (ok.root_mem member) restacked
  | setZIndex w zindex buffers =>
    obtain ⟨member, set⟩ := call
    obtain ⟨nodes, setEq, restacked⟩ := ok.setZIndex member zindex buffers
    rw [setEq, Option.some.injEq] at set
    exact set ▸ ok.restack (ok.root_mem member) restacked
  | positionSet w newX newY =>
    obtain ⟨member, fuel, moved⟩ := call
    obtain ⟨window, live, -⟩ := ok.window w member
    exact (ok.move member screenLive live moved).2
  | close w buffers =>
    obtain ⟨member, fuel, closed⟩ := call
    exact (ok.close served member closed).2

/-- Every state of a run. -/
theorem windowRun_ok {screen : Nat} {mode : GraphicsInfo} {run : List (WindowOp × WindowSystem)}
    (isRun : IsRun (WindowStep screen) (setupWindows screen mode) run) {s : WindowSystem}
    (reached : s ∈ runStates (setupWindows screen mode) run) : WindowsOk screen s :=
  inv_of_isRun (fun _ _ _ step => windowStep_ok step) isRun (windowsOk_setup screen mode) s reached

end ViOS.Graphics
