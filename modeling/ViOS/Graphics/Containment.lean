import ViOS.Graphics.HitTest
import ViOS.Lib.Run

/-! # New nodes inside their parents

`graphics_info_create_relative` counts its bound from the source, but takes the resolution, which
every node inherits from the screen, for the size of the source; and it compares 64-bit sums, of
which a node keeps 32 bits.

* `FitsSource` — the request lies inside the source's own size.
* `create_inside_iff` — one call, for a source anywhere in a tree.
* `nestedNodes_iff_everyCreate` — runs of calls: everything stays inside its parent.
-/

namespace ViOS.Graphics

open ViOS.Lib

/-! ## Either axis -/

/-- The low halves of an offset and a length, which a node keeps, stay inside a parent. -/
def FitsAxis (start size : UInt32) (offset length : UInt64) : Prop :=
  start.toNat + offset.toNat % 2 ^ 32 < 2 ^ 32 ∧
    offset.toNat % 2 ^ 32 + length.toNat % 2 ^ 32 ≤ size.toNat

instance (start size : UInt32) (offset length : UInt64) : Decidable (FitsAxis start size offset length) :=
  inferInstanceAs (Decidable (_ ∧ _))

theorem inside_axis_iff (start size : UInt32) (offset length : UInt64) :
    start.toNat ≤ (start.toUInt64 + offset).toUInt32.toNat ∧
        (start.toUInt64 + offset).toUInt32.toNat + length.toUInt32.toNat ≤ start.toNat + size.toNat ↔
      FitsAxis start size offset length := by
  have startFits := start.toNat_lt
  have stored : (start.toUInt64 + offset).toUInt32.toNat = (start.toNat + offset.toNat % 2 ^ 32) % 2 ^ 32 := by
    rw [UInt64.toNat_toUInt32, UInt64.toNat_add, UInt32.toNat_toUInt64]
    omega
  rw [stored, UInt64.toNat_toUInt32]
  unfold FitsAxis
  omega

/-! ## One call -/

/-- The rectangle that is asked for lies inside the source. -/
def FitsSource (source : GraphicsNode) (x y width height : UInt64) : Prop :=
  FitsAxis source.info.startingX source.info.width x width ∧
    FitsAxis source.info.startingY source.info.height y height

instance (source : GraphicsNode) (x y width height : UInt64) : Decidable (FitsSource source x y width height) :=
  inferInstanceAs (Decidable (_ ∧ _))

theorem stackedNode_inside_iff (source : GraphicsNode) (sourceGraphics : Nat) (x y width height : UInt64)
    (buffer : UInt32 → FramebufferPixel) (count : Nat) :
    (infoRect (stackedNode source sourceGraphics x y width height buffer count).info).Inside (infoRect source.info) ↔
      FitsSource source x y width height := by
  unfold FitsSource
  rw [← inside_axis_iff, ← inside_axis_iff]
  constructor
  · rintro ⟨left, right, top, bottom⟩
    exact ⟨⟨left, right⟩, top, bottom⟩
  · rintro ⟨⟨left, right⟩, top, bottom⟩
    exact ⟨left, right, top, bottom⟩

/-- A source in the corner that is as large as the resolution, as the screen is: what is accepted there
fits, unless a sum wraps. -/
theorem fitsSource_of_screen {source : GraphicsNode} {x y width height : UInt64}
    (left : source.info.startingX = 0) (top : source.info.startingY = 0)
    (wide : source.info.horizontalResolution = source.info.width)
    (high : source.info.verticalResolution = source.info.height)
    (across : x.toNat + width.toNat < 2 ^ 64) (down : y.toNat + height.toNat < 2 ^ 64)
    (accepted : outOfBounds source x y width height 0 = false) : FitsSource source x y width height := by
  have widthFits := source.info.width.toNat_lt
  have heightFits := source.info.height.toNat_lt
  simp only [outOfBounds, left, top, wide, high, graphicsFlagAllowOutOfBounds, gt_iff_lt, UInt64.lt_iff_toNat_lt,
    UInt64.toNat_add, UInt32.toNat_toUInt64, decide_eq_false_iff_not] at accepted
  obtain ⟨inWidth, inHeight⟩ := not_or.mp fun outside => accepted ⟨by decide, outside⟩
  have corner : UInt32.toNat 0 = 0 := rfl
  unfold FitsSource FitsAxis
  rw [left, top]
  omega

/-- The call returns a node inside the source, or `NULL` with everything as before. -/
def CreatedInside (nodes : Nodes) (sourceGraphics : Nat) (x y width height : UInt64) (flags : UInt32)
    (alloc : NodeAlloc) : Prop :=
  ∃ result after,
    graphicsInfoCreateRelative nodes sourceGraphics x y width height flags alloc = some (result, after) ∧
      (result = none → after = nodes) ∧
      ∀ new, result = some new → ∃ node parent, after new = some node ∧ node.parent = some sourceGraphics ∧
        after sourceGraphics = some parent ∧ (infoRect node.info).Inside (infoRect parent.info)

/-- A call keeps the new node inside its parent just when it fails or when the request fits.  Without
`GRAPHICS_FLAG_ALLOW_OUT_OF_BOUNDS` it fails on what its own check refuses. -/
theorem create_inside_iff (nodes : Nodes) (sourceGraphics : Nat) (source : GraphicsNode)
    (live : nodes sourceGraphics = some source) (x y width height : UInt64) (flags : UInt32)
    (alloc : NodeAlloc) (fresh : ∀ new, alloc.newGraphics = some new → nodes new = none) :
    CreatedInside nodes sourceGraphics x y width height flags alloc ↔
      (CreateSucceeds source x y width height flags alloc → FitsSource source x y width height) := by
  rcases graphicsInfoCreateRelative_cases live x y width height flags fresh with
    ⟨fails, failed⟩ | ⟨succeeds, new, buffer, isNew, -, succeeded⟩
  · refine ⟨fun _ succeeds => absurd succeeds fails, fun _ => ⟨none, nodes, failed, fun _ => rfl, fun new isNew => ?_⟩⟩
    cases isNew
  have apart := ne_of_fresh live (fresh new isNew)
  rw [createdNodes] at succeeded
  generalize (Elements.vectorPush alloc.push source.children new).length = count at succeeded
  rw [← stackedNode_inside_iff source sourceGraphics x y width height buffer count]
  constructor
  · rintro ⟨result, after, called, -, inside⟩ -
    rw [succeeded, Option.some.injEq, Prod.mk.injEq] at called
    obtain ⟨rfl, rfl⟩ := called
    obtain ⟨node, parent, here, -, above, inside⟩ := inside new rfl
    rw [addChild_new apart, Option.some.injEq] at here
    rw [addChild_source, Option.some.injEq] at above
    subst here above
    exact inside
  · intro fits
    refine ⟨some new, _, succeeded, fun isNone => absurd isNone (Option.some_ne_none new),
      fun here isResult => ?_⟩
    obtain rfl := Option.some.inj isResult
    exact ⟨_, _, addChild_new apart, rfl, addChild_source, fits succeeds⟩

/-! ## Runs of calls -/

/-- A call, with what the allocator answers. -/
structure CreateCall where
  sourceGraphics : Nat
  x : UInt64
  y : UInt64
  width : UInt64
  height : UInt64
  alloc : NodeAlloc

/-- A call without `GRAPHICS_FLAG_ALLOW_OUT_OF_BOUNDS`, with room among the children of the source. -/
def CreateStep (nodes : Nodes) (call : CreateCall) (after : Nodes) : Prop :=
  (nodes call.sourceGraphics).isSome ∧ (∀ new, call.alloc.newGraphics = some new → nodes new = none) ∧
    call.alloc.HasRoom ∧
    ∃ result, graphicsInfoCreateRelative nodes call.sourceGraphics call.x call.y call.width call.height 0
      call.alloc = some (result, after)

/-- The call fails, or the request fits. -/
def CallFits (nodes : Nodes) (call : CreateCall) : Prop :=
  ∀ source, nodes call.sourceGraphics = some source →
    CreateSucceeds source call.x call.y call.width call.height 0 call.alloc →
      FitsSource source call.x call.y call.width call.height

/-- A node that is added inside its source leaves everything inside its parent. -/
theorem nestedNodes_addChild {screen sourceGraphics new : Nat} {nodes : Nodes} {source node : GraphicsNode}
    {alloc : NodeAlloc} (placement : Placement screen nodes) (nested : NestedNodes nodes) (live : nodes sourceGraphics = some source)
    (fresh : nodes new = none) (parent : node.parent = some sourceGraphics)
    (inside : (infoRect node.info).Inside (infoRect source.info)) :
    NestedNodes (addChild nodes sourceGraphics source new node alloc) := by
  obtain ⟨rank, bound, forest⟩ := placement.forest
  have apart := ne_of_fresh live fresh
  -- Every old node is in the rectangle it had, and no old node is below the new one.
  have oldParent : ∀ {p q g h}, nodes p = some g → g.parent = some q →
      addChild nodes sourceGraphics source new node alloc q = some h → (infoRect g.info).Inside (infoRect h.info) := by
    intro p q g h before parentQ after
    obtain ⟨parentNode, parentLive, -⟩ := forest.parent before parentQ
    obtain ⟨h', here, sameInfo, -⟩ := @addChild_old _ _ _ _ _ node alloc live fresh _ parentLive
    obtain rfl := Option.some.inj (here.symm.trans after)
    rw [sameInfo]
    exact nested p g q parentNode before parentQ parentLive
  intro p g q h here parentQ above
  rcases addChild_cases apart here with ⟨rfl, rfl⟩ | ⟨rfl, rfl⟩ | ⟨-, -, before⟩
  · exact oldParent (g := source) live parentQ above
  · obtain rfl := Option.some.inj (parent.symm.trans parentQ)
    rw [addChild_source, Option.some.injEq] at above
    subst above
    exact inside
  · exact oldParent before parentQ above

/-- In a tree grown from the screen by such calls every node stays inside its parent, at any depth, just
when each call fails or fits. -/
theorem nestedNodes_iff_everyCreate (screen : Nat) (mode : GraphicsInfo) (run : List (CreateCall × Nodes))
    (isRun : IsRun CreateStep (setupNodes screen mode) run) :
    (∀ nodes ∈ runStates (setupNodes screen mode) run, NestedNodes nodes) ↔
      EveryStep CallFits (setupNodes screen mode) run := by
  refine @good_iff_everyStep _ _ _ _ (fun nodes => Placement screen nodes ∧ NestedNodes nodes) NestedNodes
    (fun nodes inv => inv.2) ?_ ?_ _ _ isRun ⟨placement_setup screen mode, ?_⟩
  · rintro nodes call after ⟨isLive, fresh, room, result, created⟩ fits ⟨placement, nested⟩
    refine ⟨placement_create placement isLive fresh (fun _ _ _ => room) created, ?_⟩
    obtain ⟨source, live⟩ := Option.isSome_iff_exists.mp isLive
    rcases graphicsInfoCreateRelative_cases live call.x call.y call.width call.height 0 fresh with
      ⟨-, failed⟩ | ⟨succeeds, new, buffer, isNew, -, succeeded⟩
    · rw [failed, Option.some.injEq, Prod.mk.injEq] at created
      exact created.2 ▸ nested
    · rw [succeeded, Option.some.injEq, Prod.mk.injEq] at created
      rw [← created.2]
      exact nestedNodes_addChild placement nested live (fresh new isNew) rfl
        ((stackedNode_inside_iff _ _ _ _ _ _ _ _).mpr (fits source live succeeds))
  · -- A call that does not fit puts the new node beside its source.
    rintro nodes call after ⟨isLive, fresh, -, result, created⟩ misfit ⟨placement, nested⟩ nestedAfter
    refine misfit fun source live succeeds => ?_
    rcases graphicsInfoCreateRelative_cases live call.x call.y call.width call.height 0 fresh with
      ⟨fails, -⟩ | ⟨-, new, buffer, isNew, -, succeeded⟩
    · exact absurd succeeds fails
    · have apart := ne_of_fresh live (fresh new isNew)
      rw [succeeded, Option.some.injEq, Prod.mk.injEq] at created
      rw [← created.2] at nestedAfter
      have inside := nestedAfter new _ _ _ (addChild_new apart) rfl addChild_source
      exact (stackedNode_inside_iff _ _ _ _ _ _ _ _).mp inside
  · intro p node q parentNode live parent
    by_cases isScreen : p = screen
    · subst isScreen
      rw [setupNodes, Nodes.set, Function.update_self, Option.some.injEq] at live
      rw [← live] at parent
      cases parent
    · rw [setupNodes, Nodes.set, Function.update_of_ne isScreen] at live
      cases live

/-! ## A child of a window -/

theorem child_in_window : CreatedInside oneWindow 2 20 10 50 10 0 (freeAlloc (some 3)) :=
  (create_inside_iff oneWindow 2 _ oneWindow_window 20 10 50 10 0 (freeAlloc (some 3))
    fun new isNew => Option.some.inj isNew ▸ by decide).mpr fun _ => by decide

/-- A window of 100 x 50 pixels takes a child that is 50 wide in its column 90. -/
theorem child_beside_window :
    graphicsInfoCreateRelative (setupNodes 1 emptyMode) 1 10 20 100 50 0 (freeAlloc (some 2)) = some (some 2, oneWindow) ∧
      (∃ result after,
        graphicsInfoCreateRelative oneWindow 2 90 0 50 10 0 (freeAlloc (some 3)) = some (some result, after)) ∧
      ¬ CreatedInside oneWindow 2 90 0 50 10 0 (freeAlloc (some 3)) := by
  have child := @graphicsInfoCreateRelative_succeeds _ _ _ oneWindow_window 90 0 50 10 0 (freeAlloc (some 3)) 3 rfl
    (by decide) _ rfl (by decide)
  refine ⟨oneWindow_created, ⟨_, _, child⟩, ?_⟩
  rintro ⟨result, after, called, -, inside⟩
  rw [child, Option.some.injEq, Prod.mk.injEq] at called
  obtain ⟨rfl, rfl⟩ := called
  obtain ⟨node, parent, here, -, above, inside⟩ := inside 3 rfl
  rw [createdNodes, addChild_new (by decide), Option.some.injEq] at here
  rw [createdNodes, addChild_source, Option.some.injEq] at above
  subst here above
  exact absurd ((stackedNode_inside_iff _ _ _ _ _ _ _ _).mp inside) (by decide)

end ViOS.Graphics
