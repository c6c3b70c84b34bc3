import ViOS.Graphics.WindowSystem
import ViOS.Lib.Run

/-! # Moving a window inside the screen

`window_position_set` looks at the right and the lower edge of the window's own size, in 64-bit
sums that wrap, and stores the position in 32 bits.  The root is wider than the window by its
borders, and higher by its title bar.

* `RootInside` — the root of a window is inside the screen.
* `AxisFits` — the requests that keep it there, for either axis.
* `move_inside_iff` — every move in every state of a run.
-/

namespace ViOS.Graphics

open ViOS.Lib
open scoped List

/-! ## Placing a subtree again -/

theorem recalculateNode_returns {nodes : Nodes} (node : GraphicsNode)
    (parentLive : ∀ q, node.parent = some q → (nodes q).isSome) : ∃ moved, recalculateNode nodes node = some moved := by
  unfold recalculateNode
  cases parent : node.parent with
  | none => exact ⟨node, rfl⟩
  | some q =>
    obtain ⟨parentNode, here⟩ := Option.isSome_iff_exists.mp (parentLive q parent)
    simp only [here, Option.map_some]
    exact ⟨_, rfl⟩

/-- The walk over a subtree ends when the ranks are bounded: they grow on the way down. -/
theorem recalculate_returns {fuel bound : Nat} {nodes : Nodes} {rank : Nat → Nat} (owned : Owned nodes rank)
    (bounded : ∀ q node, nodes q = some node → rank q < bound) {p : Nat} {node : GraphicsNode}
    (live : nodes p = some node) (parentLive : ∀ q, node.parent = some q → (nodes q).isSome)
    (enough : bound ≤ fuel + rank p) : ∃ after, graphicsInfoRecalculate fuel nodes p = some after := by
  induction fuel generalizing nodes p node with
  | zero =>
    have := bounded p node live
    omega
  | succ fuel ih =>
    obtain ⟨moved, movedEq⟩ := recalculateNode_returns node parentLive
    obtain ⟨x, y, rfl⟩ := recalculateNode_startAt movedEq
    -- The children are moved one after the other, and no move changes the links the others follow.
    have loop : ∀ (children : List Nat) (now : Nodes), (∀ c ∈ children, ChildOf nodes p c) → SameShape nodes now →
        ∃ after, children.foldlM (fun nodes child => graphicsInfoRecalculate fuel nodes child) now = some after := by
      intro children
      induction children with
      | nil => exact fun now _ _ => ⟨now, rfl⟩
      | cons c children ihLoop =>
        intro now isChild shape
        have relinked := relinked_of_sameLinks shape.links
        have child := isChild c List.mem_cons_self
        obtain ⟨parentNow, parentNowLive, memberNow⟩ := relinked.childOf_iff.mpr child
        obtain ⟨childNode, childLive, childParent⟩ := (relinked.owned owned).child parentNowLive memberNow
        have boundedNow : ∀ q node, now q = some node → rank q < bound := by
          intro q nodeNow liveNow
          obtain ⟨before, liveBefore, -⟩ := relinked.exists_before liveNow
          exact bounded q before liveBefore
        -- A child ranks behind its parent, so it needs one step less.
        have below := owned.rank_lt child
        obtain ⟨middle, first⟩ := ih (relinked.owned owned) boundedNow childLive
          (fun q isParent => by
            obtain rfl := Option.some.inj (childParent.symm.trans isParent)
            exact Option.isSome_iff_exists.mpr ⟨parentNow, parentNowLive⟩)
          (by omega)
        have shapeFirst := (recalculate_frame (relinked.owned owned) childLive first).1
        obtain ⟨after, rest⟩ := ihLoop middle (fun d member => isChild d (List.mem_cons_of_mem _ member))
          (shape.trans shapeFirst)
        exact ⟨after, by rw [List.foldlM_cons, first]; exact rest⟩
    obtain ⟨after, ran⟩ := loop node.children _ (fun c member => ⟨node, live, member⟩) (sameShape_set live x y)
    refine ⟨after, ?_⟩
    simp only [graphicsInfoRecalculate, live, movedEq]
    exact ran

/-! ## The nodes in memory -/

/-- All nodes are at some of these addresses. -/
def LiveIn (addresses : List Nat) (nodes : Nodes) : Prop := ∀ p node, nodes p = some node → p ∈ addresses

theorem LiveIn.bounded {addresses : List Nat} {nodes : Nodes} (liveIn : LiveIn addresses nodes) (rank : Nat → Nat) :
    ∃ bound, ∀ q node, nodes q = some node → rank q < bound := by
  have bound : ∃ bound, ∀ q ∈ addresses, rank q < bound := by
    clear liveIn
    induction addresses with
    | nil => exact ⟨0, by simp⟩
    | cons p addresses ih =>
      obtain ⟨bound, below⟩ := ih
      refine ⟨max bound (rank p + 1), List.forall_mem_cons.mpr ⟨by omega, fun q member => ?_⟩⟩
      have := below q member
      omega
  obtain ⟨bound, below⟩ := bound
  exact ⟨bound, fun q node live => below q (liveIn q node live)⟩

/-- A finite number of nodes. -/
def FewNodes (nodes : Nodes) : Prop := ∃ addresses, LiveIn addresses nodes

theorem FewNodes.of_frame {nodes after : Nodes} (few : FewNodes nodes) (changed : List Nat)
    (frame : ∀ q, q ∉ changed → after q = nodes q) : FewNodes after := by
  obtain ⟨addresses, liveIn⟩ := few
  refine ⟨addresses ++ changed, fun p node live => ?_⟩
  by_cases isChanged : p ∈ changed
  · exact List.mem_append_right _ isChanged
  · rw [frame p isChanged] at live
    exact List.mem_append_left _ (liveIn p node live)

theorem FewNodes.of_live {nodes after : Nodes} (few : FewNodes nodes)
    (before : ∀ q node', after q = some node' → ∃ node, nodes q = some node) : FewNodes after := by
  obtain ⟨addresses, liveIn⟩ := few
  refine ⟨addresses, fun p node' live => ?_⟩
  obtain ⟨node, liveBefore⟩ := before p node' live
  exact liveIn p node liveBefore

theorem FewNodes.restacked {screen p : Nat} {z : UInt32} {buffers : Bool} {nodes after : Nodes}
    (few : FewNodes nodes) (restacked : Restacked screen p z buffers nodes after) : FewNodes after := by
  refine few.of_frame [screen, p] fun q outside => ?_
  simp only [List.mem_cons, List.not_mem_nil, or_false, not_or] at outside
  exact restacked.frame q outside.1 outside.2

theorem FewNodes.rootAdded {screen new : Nat} {node : GraphicsNode} {alloc : NodeAlloc} {addresses : List Nat}
    {nodes after : Nodes} (few : FewNodes nodes) (added : RootAdded screen new node alloc addresses nodes after) : FewNodes after := by
  refine few.of_frame (screen :: addresses) fun q outside => ?_
  rw [List.mem_cons, not_or] at outside
  exact added.frame q outside.1 outside.2

/-! ## One call -/

section Move

variable {screen fuel w : Nat} {s after : WindowSystem} (ok : WindowsOk screen s) (member : w ∈ s.windowsVector)
  {newX newY : UInt64} {screenNode root : GraphicsNode} {window : Window}
  (screenLive : s.nodes screen = some screenNode) (live : s.window w = some window)
  (rootLive : s.nodes window.rootGraphics = some root)

include ok member screenLive live rootLive

/-- A move leaves the screen where it is, and puts the root at the coordinates that are clamped. -/
theorem WindowsOk.move_nodes (moved : windowMove fuel screen s w newX newY = some after) :
    SameLinks s.nodes after.nodes ∧ after.nodes screen = some screenNode ∧
      after.nodes window.rootGraphics = some (root.moveTo
        (clampPosition screenNode.info.width.toUInt64 window.width newX)
        (clampPosition screenNode.info.height.toUInt64 window.height newY)) ∧
      rootOf after w = window.rootGraphics := by
  have onScreen := ok.root_mem member
  rw [rootOf_eq live] at onScreen
  simp only [windowMove, live, windowPositionSet, screenLive, rootLive] at moved
  obtain ⟨result, set, rfl⟩ := Option.map_eq_some_iff.mp moved
  obtain ⟨nodes, ran, rfl⟩ := Option.map_eq_some_iff.mp set
  obtain ⟨links, screenKept, rootMoved, -⟩ := ok.moveRoot screenLive onScreen rootLive ran
  refine ⟨links, screenKept, rootMoved, ?_⟩
  unfold rootOf
  simp only [Function.update_self, Option.map_some, Option.getD_some]

/-- The move returns. -/
theorem WindowsOk.move_returns (few : FewNodes s.nodes) (newX newY : UInt64) :
    ∃ fuel after, windowMove fuel screen s w newX newY = some after := by
  obtain ⟨rank, owned⟩ := ok.owned
  obtain ⟨addresses, liveIn⟩ := few
  obtain ⟨bound, bounded⟩ := liveIn.bounded rank
  have onScreen := ok.root_mem member
  rw [rootOf_eq live] at onScreen
  obtain ⟨root', rootLive', rootParent⟩ := ok.live_of_mem_stack onScreen
  obtain rfl := Option.some.inj (rootLive.symm.trans rootLive')
  have links := sameLinks_moveTo rootLive (clampPosition screenNode.info.width.toUInt64 window.width newX)
    (clampPosition screenNode.info.height.toUInt64 window.height newY)
  have relinked := relinked_of_sameLinks links
  obtain ⟨nodes, ran⟩ := @recalculate_returns (bound - rank window.rootGraphics) bound _ rank (relinked.owned owned)
    (fun q node here => by
      obtain ⟨before, liveBefore, -⟩ := relinked.exists_before here
      exact bounded q before liveBefore)
    window.rootGraphics _ (Function.update_self ..)
    (fun q isParent => by
      obtain rfl := Option.some.inj (rootParent.symm.trans isParent)
      obtain ⟨screenAfter, here, -⟩ := relinked.exists_node screenLive
      exact Option.isSome_iff_exists.mpr ⟨screenAfter, here⟩)
    (by omega)
  refine ⟨bound - rank window.rootGraphics, { s with
    nodes
    window := Function.update s.window w (some { window with
      x := clampPosition screenNode.info.width.toUInt64 window.width newX
      y := clampPosition screenNode.info.height.toUInt64 window.height newY }) }, ?_⟩
  simp only [windowMove, live, windowPositionSet, screenLive, rootLive, ran, Option.map_some]

end Move

/-- Every call leaves a finite number of nodes. -/
theorem windowStep_few {screen : Nat} {s after : WindowSystem} {op : WindowOp} (step : WindowStep screen s op after)
    (ok : WindowsOk screen s) (few : FewNodes s.nodes) : FewNodes after.nodes := by
  obtain ⟨screenNode, screenLive, -⟩ := ok.top
  obtain ⟨served, call⟩ := step
  cases op with
  | create request =>
    obtain ⟨fresh, result, created⟩ := call
    rcases windowCreate_spec ok screenLive served fresh created with ⟨-, rfl⟩ | ⟨-, w, new, nodes, -, -, added, -,
      ⟨-, rfl⟩ | ⟨-, middle, last, restacked, -, restackedAgain, rfl⟩⟩
    · exact few
    · exact few.rootAdded added
    · exact ((few.rootAdded added).restacked restacked).restacked restackedAgain
  | focus w buffers =>
    obtain ⟨member, focused⟩ := call
    rcases ok.focus member buffers with ⟨-, same⟩ | ⟨-, nodes, result, restacked⟩
    · obtain rfl := Option.some.inj (same.symm.trans focused)
      exact few
    · obtain rfl := Option.some.inj (result.symm.trans focused)
      exact few.restacked restacked
  | bringToTop w buffers =>
    obtain ⟨member, brought⟩ := call
    obtain ⟨nodes, result, restacked⟩ := ok.bringToTop member buffers
    obtain rfl := Option.some.inj (result.symm.trans brought)
    exact few.restacked restacked
  | setZIndex w zindex buffers =>
    obtain ⟨member, set⟩ := call
    obtain ⟨nodes, result, restacked⟩ := ok.setZIndex member zindex buffers
    obtain rfl := Option.some.inj (result.symm.trans set)
    exact few.restacked restacked
  | positionSet w newX newY =>
    obtain ⟨member, fuel, moved⟩ := call
    obtain ⟨window, live, -, onScreen⟩ := ok.window w member
    obtain ⟨root, rootLive, -⟩ := ok.live_of_mem_stack onScreen
    have relinked := relinked_of_sameLinks (ok.move_nodes member screenLive live rootLive moved).1
    refine few.of_live fun q node' here => ?_
    obtain ⟨node, before, -⟩ := relinked.exists_before here
    exact ⟨node, before⟩
  | close w buffers =>
    obtain ⟨member, fuel, closed⟩ := call
    obtain ⟨child, freed⟩ := ok.close_freed member closed
    refine few.of_live fun q node' here => ?_
    obtain ⟨node, before, -⟩ := freed.before child here
    exact ⟨node, before⟩

/-! ## Either axis -/

/-- The new position leaves room for the root, when it is kept; and when it is clamped, the root is
at most a pixel longer than the window, which is shorter than the screen. -/
def AxisFits (screenSize : UInt32) (size : UInt64) (rootSize : UInt32) (new : UInt64) : Prop :=
  if (new.toNat + size.toNat) % 2 ^ 64 ≤ screenSize.toNat then
    new.toNat % 2 ^ 32 + rootSize.toNat ≤ screenSize.toNat
  else
    size.toNat % 2 ^ 32 < screenSize.toNat ∧ rootSize.toNat ≤ size.toNat % 2 ^ 32 + 1 ∨
      size.toNat % 2 ^ 32 = 2 ^ 32 - 1 ∧ rootSize.toNat = 0

theorem clamp_fits_iff (screenSize : UInt32) (size : UInt64) (rootSize : UInt32) (new : UInt64) :
    (clampPosition screenSize.toUInt64 size new).toUInt32.toNat + rootSize.toNat ≤ screenSize.toNat ↔
      AxisFits screenSize size rootSize new := by
  have screenFits := screenSize.toNat_lt
  have sizeFits := size.toNat_lt
  have kept : new + size > screenSize.toUInt64 ↔ ¬ (new.toNat + size.toNat) % 2 ^ 64 ≤ screenSize.toNat := by
    rw [gt_iff_lt, UInt64.lt_iff_toNat_lt, UInt64.toNat_add, UInt32.toNat_toUInt64, Nat.not_le]
  unfold clampPosition AxisFits
  by_cases clamped : (new.toNat + size.toNat) % 2 ^ 64 ≤ screenSize.toNat
  · rw [if_neg (fun above => kept.mp above clamped), if_pos clamped, UInt64.toNat_toUInt32]
  · rw [if_pos (kept.mpr clamped), if_neg clamped, UInt64.toNat_toUInt32, UInt64.toNat_sub, UInt64.toNat_sub,
      UInt32.toNat_toUInt64, UInt64.toNat_one]
    omega

/-- A border in front of the content, and sizes below `2 ^ 32`: the request has to leave room for the
root, unless it is clamped and there is hardly a border. -/
theorem axisFits_iff_of_border {screenSize rootSize : UInt32} {size new : UInt64} (small : size.toNat < 2 ^ 32)
    (border : size.toNat ≤ rootSize.toNat) (positive : 0 < size.toNat) (fits : rootSize.toNat ≤ screenSize.toNat) :
    AxisFits screenSize size rootSize new ↔ new.toNat + rootSize.toNat ≤ screenSize.toNat ∨
      screenSize.toNat < (new.toNat + size.toNat) % 2 ^ 64 ∧ size.toNat < screenSize.toNat ∧
        rootSize.toNat ≤ size.toNat + 1 := by
  have screenFits := screenSize.toNat_lt
  have newFits := new.toNat_lt
  unfold AxisFits
  split
  · omega
  · omega

/-! ## Every run -/

/-- The root of a window is inside the screen. -/
def RootInside (screen : Nat) (s : WindowSystem) (w : Nat) : Prop :=
  ∃ screenNode root, s.nodes screen = some screenNode ∧ s.nodes (rootOf s w) = some root ∧
    root.info.startingX.toNat + root.info.width.toNat ≤ screenNode.info.width.toNat ∧
    root.info.startingY.toNat + root.info.height.toNat ≤ screenNode.info.height.toNat

theorem rootInside_iff {screen w : Nat} {s : WindowSystem} {screenNode root : GraphicsNode}
    (screenLive : s.nodes screen = some screenNode) (rootLive : s.nodes (rootOf s w) = some root) :
    RootInside screen s w ↔ root.info.startingX.toNat + root.info.width.toNat ≤ screenNode.info.width.toNat ∧
      root.info.startingY.toNat + root.info.height.toNat ≤ screenNode.info.height.toNat := by
  constructor
  · rintro ⟨screenNode', root', screenLive', rootLive', inside⟩
    obtain rfl := Option.some.inj (screenLive.symm.trans screenLive')
    obtain rfl := Option.some.inj (rootLive.symm.trans rootLive')
    exact inside
  · exact fun inside => ⟨screenNode, root, screenLive, rootLive, inside⟩

instance (screen : Nat) (s : WindowSystem) (w : Nat) : Decidable (RootInside screen s w) :=
  match screenLive : s.nodes screen, rootLive : s.nodes (rootOf s w) with
  | some _, some _ => decidable_of_iff _ (rootInside_iff screenLive rootLive).symm
  | none, _ => isFalse fun ⟨_, _, live, _⟩ => by cases screenLive.symm.trans live
  | some _, none => isFalse fun ⟨_, _, _, live, _⟩ => by cases rootLive.symm.trans live

/-- The request keeps the root on the screen. -/
def MoveFits (screen : Nat) (s : WindowSystem) (w : Nat) (newX newY : UInt64) : Prop :=
  ∃ screenNode window root, s.nodes screen = some screenNode ∧ s.window w = some window ∧
    s.nodes window.rootGraphics = some root ∧
    AxisFits screenNode.info.width window.width root.info.width newX ∧
    AxisFits screenNode.info.height window.height root.info.height newY

/-- In every state that calls on windows lead to, which get memory for what they push and pop, a
move returns, and it puts the root of the window inside the screen just when the request fits on
both axes. -/
theorem move_inside_iff (screen : Nat) (mode : GraphicsInfo) (run : List (WindowOp × WindowSystem))
    (isRun : IsRun (WindowStep screen) (setupWindows screen mode) run) (s : WindowSystem)
    (reached : s ∈ runStates (setupWindows screen mode) run) (w : Nat) (member : w ∈ s.windowsVector)
    (newX newY : UInt64) :
    (∃ fuel after, windowMove fuel screen s w newX newY = some after) ∧
      ∀ fuel after, windowMove fuel screen s w newX newY = some after →
        (RootInside screen after w ↔ MoveFits screen s w newX newY) := by
  have setup : WindowsOk screen (setupWindows screen mode) ∧ FewNodes (setupWindows screen mode).nodes := by
    refine ⟨windowsOk_setup screen mode, [screen], fun p node live => ?_⟩
    by_contra other
    rw [List.mem_singleton] at other
    simp [setupWindows, setupNodes, Nodes.set, other] at live
  -- In each state reached the windows are in order and only some addresses are in use.
  have preserves : ∀ s op t, WindowStep screen s op t → True → WindowsOk screen s ∧ FewNodes s.nodes →
      WindowsOk screen t ∧ FewNodes t.nodes :=
    fun s op t step _ inv => ⟨windowStep_ok step inv.1, windowStep_few step inv.1 inv.2⟩
  have allOk : EveryStep (fun _ _ => True) (setupWindows screen mode) run :=
    everyStep_of_inv (fun s op t step => preserves s op t step trivial) (fun _ _ _ _ _ => trivial) isRun setup
  obtain ⟨ok, few⟩ := inv_of_everyStep preserves isRun allOk setup s reached
  obtain ⟨screenNode, screenLive, -⟩ := ok.top
  obtain ⟨window, live, -, onScreen⟩ := ok.window w member
  obtain ⟨root, rootLive, -⟩ := ok.live_of_mem_stack onScreen
  refine ⟨ok.move_returns member screenLive live rootLive few newX newY, fun fuel after moved => ?_⟩
  obtain ⟨-, screenKept, rootMoved, sameRoot⟩ := ok.move_nodes member screenLive live rootLive moved
  have horizontal := clamp_fits_iff screenNode.info.width window.width root.info.width newX
  have vertical := clamp_fits_iff screenNode.info.height window.height root.info.height newY
  -- The root ends up where the clamp puts the window, so the axes can be judged apart.
  constructor
  · intro inside
    obtain ⟨insideX, insideY⟩ := (rootInside_iff screenKept (sameRoot ▸ rootMoved)).mp inside
    exact ⟨screenNode, window, root, screenLive, live, rootLive, horizontal.mp insideX, vertical.mp insideY⟩
  · rintro ⟨screenNode', window', root', screenLive', live', rootLive', fitsX, fitsY⟩
    obtain rfl := Option.some.inj (screenLive.symm.trans screenLive')
    obtain rfl := Option.some.inj (live.symm.trans live')
    obtain rfl := Option.some.inj (rootLive.symm.trans rootLive')
    exact (rootInside_iff screenKept (sameRoot ▸ rootMoved)).mpr ⟨horizontal.mpr fitsX, vertical.mpr fitsY⟩

/-! ## A window with borders -/

def borderedWindow : WindowSystem := createdOn (setupWindows 1 emptyMode) (windowRequest 100 200 20)

def borderedRun : List (WindowOp × WindowSystem) := [(.create (windowRequest 100 200 20), borderedWindow)]

theorem borderedRun_isRun : IsRun (WindowStep 1) (setupWindows 1 emptyMode) borderedRun :=
  ⟨windowStep_createdOn (windowRequest_served _ _ _) rfl (by decide +kernel) (by decide +kernel) (by decide +kernel) (by decide +kernel), trivial⟩

theorem borderedWindow_mem : borderedWindow ∈ runStates (setupWindows 1 emptyMode) borderedRun := by
  simp [borderedRun]

def movedTo (newX newY : UInt64) : WindowSystem := (windowMove 6 1 borderedWindow 200 newX newY).getD borderedWindow

theorem moveFits_of_inside : ∃ after, windowMove 6 1 borderedWindow 200 10 10 = some after ∧
    RootInside 1 after 200 ∧ MoveFits 1 borderedWindow 200 10 10 := by
  have moved : windowMove 6 1 borderedWindow 200 10 10 = some (movedTo 10 10) := eq_some_getD (by decide +kernel) _
  have inside : RootInside 1 (movedTo 10 10) 200 := by decide +kernel
  exact ⟨_, moved, inside, ((move_inside_iff 1 emptyMode borderedRun borderedRun_isRun borderedWindow borderedWindow_mem
    200 (by decide +kernel) 10 10).2 6 _ moved).mp inside⟩

/-- A window that is dragged over the right edge keeps its border outside. -/
theorem border_outside : borderedWindow ∈ runStates (setupWindows 1 emptyMode) borderedRun ∧
    IsRun (WindowStep 1) (setupWindows 1 emptyMode) borderedRun ∧ 200 ∈ borderedWindow.windowsVector ∧
    RootInside 1 borderedWindow 200 ∧ ∃ after, windowMove 6 1 borderedWindow 200 600 100 = some after ∧
      ¬ RootInside 1 after 200 :=
  ⟨borderedWindow_mem, borderedRun_isRun, by decide +kernel, by decide +kernel, movedTo 600 100,
    eq_some_getD (by decide +kernel) _, by decide +kernel⟩

end ViOS.Graphics
