import ViOS.Graphics.Stacking

/-! # The window under a click

`window_get_at_position` takes the first window of the vector at a point, in the order in
which the windows were created.  The user sees the one whose root is drawn last.

* `DrawnLast` — the window the user sees at a point.
* `InStep` — overlapping windows stand in the vector in the order opposite to the one in
  which they are drawn; `getAtPosition_drawnLast` is what follows.
* `KeepsInStep` — the calls that keep the two orders in step.
* `getAtPosition_run` — a run of such calls.
-/

namespace ViOS.Graphics

open ViOS.Lib
open scoped List

/-- The point is one of the rectangle. -/
def Rect.HasPoint (rect : Rect) (x y : UInt64) : Prop :=
  rect.left ≤ x.toNat ∧ x.toNat < rect.right ∧ rect.top ≤ y.toNat ∧ y.toNat < rect.bottom

/-- A window other than the ignored one whose root rectangle contains the point. -/
structure Candidate (s : WindowSystem) (x y : UInt64) (ignored : Option Nat) (w : Nat) : Prop where
  member : w ∈ s.windowsVector
  notIgnored : ignored ≠ some w
  covers : CoversPoint s.nodes x y (rootOf s w)

/-- The window the user sees at a point, if there is one: the root of every other candidate is
drawn before its root, with no greater number. -/
def DrawnLast (screen : Nat) (s : WindowSystem) (x y : UInt64) (ignored : Option Nat)
    (result : Option Nat) : Prop :=
  match result with
  | none => ∀ v, ¬ Candidate s x y ignored v
  | some w => Candidate s x y ignored w ∧ ∀ v, Candidate s x y ignored v → v ≠ w →
    [rootOf s v, rootOf s w] <+ stack screen s.nodes ∧
      zIndexOf s.nodes (rootOf s v) ≤ zIndexOf s.nodes (rootOf s w)

/-- The roots of two windows share a point. -/
def Overlap (s : WindowSystem) (v w : Nat) : Prop :=
  ∃ x y, CoversPoint s.nodes x y (rootOf s v) ∧ CoversPoint s.nodes x y (rootOf s w)

/-- A window's own position is its root's. -/
def PlacedWindow (s : WindowSystem) (w : Nat) : Prop :=
  ∀ window root, s.window w = some window → s.nodes window.rootGraphics = some root →
    window.x = root.info.startingX.toUInt64 ∧ window.y = root.info.startingY.toUInt64

/-- Of two overlapping windows the one that is earlier in the vector is drawn later. -/
structure InStep (screen : Nat) (s : WindowSystem) : Prop extends SortedWindows screen s where
  placed : ∀ w ∈ s.windowsVector, PlacedWindow s w
  order : ∀ v w, [v, w] <+ s.windowsVector → Overlap s v w →
    [rootOf s w, rootOf s v] <+ stack screen s.nodes

/-- With the number `z` the window is drawn before the older windows it overlaps and after the
younger ones. -/
def Fits (screen : Nat) (s : WindowSystem) (w : Nat) (z : UInt32) : Prop :=
  ∀ v ∈ s.windowsVector, Overlap s v w →
    ([v, w] <+ s.windowsVector → z < zIndexOf s.nodes (rootOf s v) ∨
      (z = zIndexOf s.nodes (rootOf s v) ∧
        [rootOf s w, rootOf s v] <+ stack screen s.nodes)) ∧
    ([w, v] <+ s.windowsVector → zIndexOf s.nodes (rootOf s v) < z ∨
      (zIndexOf s.nodes (rootOf s v) = z ∧
        [rootOf s v, rootOf s w] <+ stack screen s.nodes))

/-- With the number `z` the root of the window stays where it is among the children of the screen. -/
def InPlace (screen : Nat) (s : WindowSystem) (w : Nat) (z : UInt32) : Prop :=
  ∀ q ∈ stack screen s.nodes,
    ([q, rootOf s w] <+ stack screen s.nodes → zIndexOf s.nodes q ≤ z) ∧
    ([rootOf s w, q] <+ stack screen s.nodes → z ≤ zIndexOf s.nodes q)

/-- The window gets the number `z` and need not be moved for it, or the children are sorted and it
fits where it gets to. -/
def Restacks (screen : Nat) (s : WindowSystem) (w : Nat) (z : UInt32) (buffers : StackBuffers) : Prop :=
  InPlace screen s w z ∨ (buffers.children = true ∧ Fits screen s w z)

/-- The calls that keep the two orders in step.  A new root is sorted in.  A new window comes to the top, so it may overlap
an older one only when the number for the top has wrapped to zero. -/
def KeepsInStep (screen : Nat) (s : WindowSystem) : WindowOp → Prop
  | .create request => ∀ screenNode, s.nodes screen = some screenNode →
    request.RootSucceeds screenNode → request.root.buffers = true ∧
      (request.PartsSucceed screen screenNode →
        request.zIndex.children = true ∧ request.focus.children = true ∧
        request.x.toNat < 2 ^ 32 ∧ request.y.toNat < 2 ^ 32 ∧
          ∀ v ∈ s.windowsVector, ∀ x y, CoversPoint s.nodes x y (rootOf s v) →
            (infoRect (request.rootNode screen screenNode).info).HasPoint x y →
              topNumber screen s.nodes < zIndexOf s.nodes (rootOf s v))
  | .focus w buffers => s.focusedWindow = some w ∨ Restacks screen s w (topNumber screen s.nodes) buffers
  | .bringToTop w buffers => Restacks screen s w (topNumber screen s.nodes) buffers
  | .setZIndex w zindex buffers => Restacks screen s w zindex.toUInt32 buffers
  | .positionSet w newX newY => ∀ screenNode window root, s.nodes screen = some screenNode →
    s.window w = some window → s.nodes window.rootGraphics = some root →
      let newX := clampPosition screenNode.info.width.toUInt64 window.width newX
      let newY := clampPosition screenNode.info.height.toUInt64 window.height newY
      newX.toNat < 2 ^ 32 ∧ newY.toNat < 2 ^ 32 ∧
        ∀ v ∈ s.windowsVector, v ≠ w → ∀ x y, CoversPoint s.nodes x y (rootOf s v) →
          (infoRect (root.moveTo newX newY).info).HasPoint x y →
            ([v, w] <+ s.windowsVector → [rootOf s w, rootOf s v] <+ stack screen s.nodes) ∧
            ([w, v] <+ s.windowsVector → [rootOf s v, rootOf s w] <+ stack screen s.nodes)
  | .close _ _ => True

/-! ## The first window of the vector -/

/-- The test of `window_get_at_position` is about the root rectangle. -/
theorem windowContains_iff {window : Window} {root : GraphicsInfo}
    (placedX : window.x = root.startingX.toUInt64) (placedY : window.y = root.startingY.toUInt64)
    (x y : UInt64) : windowContains window root x y = true ↔ (infoRect root).HasPoint x y := by
  have right : (root.startingX.toUInt64 + root.width.toUInt64).toNat =
      root.startingX.toNat + root.width.toNat := by
    have := root.startingX.toNat_lt
    have := root.width.toNat_lt
    rw [UInt64.toNat_add, UInt32.toNat_toUInt64, UInt32.toNat_toUInt64]
    omega
  have bottom : (root.startingY.toUInt64 + root.height.toUInt64).toNat =
      root.startingY.toNat + root.height.toNat := by
    have := root.startingY.toNat_lt
    have := root.height.toNat_lt
    rw [UInt64.toNat_add, UInt32.toNat_toUInt64, UInt32.toNat_toUInt64]
    omega
  simp only [windowContains, Rect.HasPoint, infoRect, placedX, placedY, ge_iff_le,
    UInt64.le_iff_toNat_le, UInt64.lt_iff_toNat_lt, UInt32.toNat_toUInt64, right, bottom,
    decide_eq_true_eq]

theorem visitWindow_spec {screen : Nat} {s : WindowSystem} (inStep : InStep screen s)
    (x y : UInt64) (ignored : Option Nat) {w : Nat} (member : w ∈ s.windowsVector) :
    ∃ result, visitWindow s x y ignored w = some result ∧
      LastOf (Candidate s x y ignored) [w] result := by
  obtain ⟨window, live, -, onScreen⟩ := inStep.window w member
  obtain ⟨root, rootLive, -⟩ := inStep.live_of_mem_stack onScreen
  obtain ⟨placedX, placedY⟩ := inStep.placed w member window root live rootLive
  have isRoot := rootOf_eq live
  have covers : CoversPoint s.nodes x y (rootOf s w) ↔
      windowContains window root.info x y = true := by
    rw [windowContains_iff placedX placedY, isRoot]
    constructor
    · rintro ⟨node, nodeLive, inside⟩
      rw [rootLive, Option.some.injEq] at nodeLive
      exact nodeLive ▸ inside
    · exact fun inside => ⟨root, rootLive, inside⟩
  by_cases isIgnored : ignored = some w
  · refine ⟨none, by rw [visitWindow, if_pos isIgnored], ?_⟩
    rintro v inList candidate
    rw [List.mem_singleton] at inList
    exact candidate.notIgnored (inList ▸ isIgnored)
  · cases contains : windowContains window root.info x y with
    | true =>
      refine ⟨some w, by simp [visitWindow, isIgnored, live, rootLive, contains],
        ⟨member, isIgnored, covers.mpr contains⟩, [], [], rfl, by simp⟩
    | false =>
      refine ⟨none, by simp [visitWindow, isIgnored, live, rootLive, contains], ?_⟩
      rintro v inList candidate
      rw [List.mem_singleton] at inList
      have := covers.mp (inList ▸ candidate.covers)
      simp [contains] at this

/-- With the orders in step the first window of the vector is the one drawn last. -/
theorem getAtPosition_drawnLast {screen : Nat} {s : WindowSystem} (inStep : InStep screen s)
    (x y : UInt64) (ignored : Option Nat) :
    ∃ result, windowGetAtPosition s x y ignored = some result ∧
      DrawnLast screen s x y ignored result := by
  obtain ⟨result, found, last⟩ := firstResult_lastOf
    (fun w member => visitWindow_spec inStep x y ignored member)
  refine ⟨result, found, ?_⟩
  have parts : s.windowsVector.reverse.flatMap (fun w => [w]) = s.windowsVector.reverse := by
    rw [List.flatMap_singleton']
  rw [parts] at last
  cases result with
  | none =>
    intro v candidate
    exact last v (List.mem_reverse.mpr candidate.member) candidate
  | some w =>
    obtain ⟨candidate, later, earlier, split, noneEarlier⟩ := last
    refine ⟨candidate, fun v other apart => ?_⟩
    have vector : s.windowsVector = earlier.reverse ++ w :: later.reverse := by
      rw [← List.reverse_reverse s.windowsVector, split]
      simp
    have inLater : v ∈ later.reverse := by
      have member := other.member
      rw [vector, List.mem_append, List.mem_cons] at member
      rcases member with inEarlier | same | inLater
      · exact absurd other (noneEarlier v (List.mem_reverse.mp inEarlier))
      · exact absurd same apart
      · exact inLater
    have before : [w, v] <+ s.windowsVector := by
      rw [vector]
      exact (List.Sublist.cons_cons w (List.singleton_sublist.mpr inLater)).trans
        (List.sublist_append_right _ _)
    have drawn := inStep.order w v before ⟨x, y, candidate.covers, other.covers⟩
    exact ⟨drawn, UInt32.not_lt.mp (inStep.toSortedWindows.not_lt_of_before drawn)⟩

/-! ## One call -/

theorem toUInt64_toUInt32 {x : UInt64} (small : x.toNat < 2 ^ 32) : x.toUInt32.toUInt64 = x := by
  apply UInt64.toNat_inj.mp
  rw [UInt32.toNat_toUInt64, UInt64.toNat_toUInt32]
  exact Nat.mod_eq_of_lt small

theorem coversPoint_congr {nodes after : Nodes} {x y : UInt64} {p : Nat}
    (same : (after p).map GraphicsNode.info = (nodes p).map GraphicsNode.info) :
    CoversPoint after x y p ↔ CoversPoint nodes x y p := by
  have oneWay : ∀ {nodes after : Nodes},
      (after p).map GraphicsNode.info = (nodes p).map GraphicsNode.info →
        CoversPoint nodes x y p → CoversPoint after x y p := by
    rintro nodes after same ⟨node, live, inside⟩
    rw [live, Option.map_some] at same
    obtain ⟨node', live', info⟩ := Option.map_eq_some_iff.mp same
    exact ⟨node', live', info.symm ▸ inside⟩
  exact ⟨oneWay same.symm, oneWay same⟩

theorem placedWindow_congr {s after : WindowSystem} {w : Nat}
    (sameWindow : after.window w = s.window w)
    (sameInfo : (after.nodes (rootOf s w)).map GraphicsNode.info =
      (s.nodes (rootOf s w)).map GraphicsNode.info) (placed : PlacedWindow s w) :
    PlacedWindow after w := by
  intro window root live rootLive
  rw [sameWindow] at live
  rw [rootOf_eq live, rootLive, Option.map_some] at sameInfo
  obtain ⟨node, nodeLive, info⟩ := Option.map_eq_some_iff.mp sameInfo.symm
  rw [← info]
  exact placed window node live nodeLive

/-- A call that leaves no window but old ones, where they were, has only the order to answer
for. -/
theorem InStep.of_kept {screen : Nat} {s after : WindowSystem} (inStep : InStep screen s)
    (okAfter : SortedWindows screen after) (sub : after.windowsVector <+ s.windowsVector)
    (sameWindow : ∀ v ∈ after.windowsVector, after.window v = s.window v)
    (sameInfo : ∀ v ∈ after.windowsVector, (after.nodes (rootOf s v)).map GraphicsNode.info =
      (s.nodes (rootOf s v)).map GraphicsNode.info)
    (order : ∀ a b, [a, b] <+ after.windowsVector → Overlap s a b →
      [rootOf s b, rootOf s a] <+ stack screen after.nodes) : InStep screen after := by
  have sameRoot : ∀ {v}, v ∈ after.windowsVector → rootOf after v = rootOf s v := by
    intro v inAfter
    rw [rootOf, sameWindow v inAfter, rootOf]
  refine ⟨okAfter, ?_, ?_⟩
  · intro v inAfter
    exact placedWindow_congr (sameWindow v inAfter) (sameInfo v inAfter)
      (inStep.placed v (sub.subset inAfter))
  · intro a b before overlap
    have inA : a ∈ after.windowsVector := before.subset (by simp)
    have inB : b ∈ after.windowsVector := before.subset (by simp)
    obtain ⟨x, y, coversA, coversB⟩ := overlap
    rw [sameRoot inA] at coversA ⊢
    rw [sameRoot inB] at coversB ⊢
    exact order a b before ⟨x, y, (coversPoint_congr (sameInfo a inA)).mp coversA,
      (coversPoint_congr (sameInfo b inB)).mp coversB⟩

/-- Neighbours in a vector are different windows with different roots. -/
theorem WindowsOk.apart_of_before {screen a b : Nat} {s : WindowSystem} (ok : WindowsOk screen s)
    (before : [a, b] <+ s.windowsVector) : a ∈ s.windowsVector ∧ b ∈ s.windowsVector ∧ a ≠ b ∧
      rootOf s b ≠ rootOf s a := by
  have inA : a ∈ s.windowsVector := before.subset (by simp)
  have inB : b ∈ s.windowsVector := before.subset (by simp)
  have apart : a ≠ b := by
    rintro rfl
    exact (List.nodup_cons.mp (before.nodup ok.nodup)).1 List.mem_cons_self
  exact ⟨inA, inB, apart, fun same => apart (ok.distinct b inB a inA same).symm⟩

theorem Restacked.info_eq {screen p q : Nat} {z : UInt32} {buffers : Bool} {s : WindowSystem} {after : Nodes}
    (restacked : Restacked screen q z buffers s.nodes after) (ok : WindowsOk screen s)
    (inStack : p ∈ stack screen s.nodes) :
    (after p).map GraphicsNode.info = (s.nodes p).map GraphicsNode.info := by
  by_cases here : p = q
  · subst here
    obtain ⟨node, live, -⟩ := ok.live_of_mem_stack inStack
    rw [restacked.target node live, live]
    rfl
  · rw [restacked.frame p (fun same => ok.screen_not_mem (same ▸ inStack)) here]

namespace InStep

variable {screen : Nat} {s : WindowSystem} (inStep : InStep screen s)

include inStep

/-- A root that stays in place keeps the stack as it is. -/
theorem stack_inPlace {w : Nat} {z : UInt32} {buffers : Bool} {after : Nodes} (member : w ∈ s.windowsVector)
    (inPlace : InPlace screen s w z) (restacked : Restacked screen (rootOf s w) z buffers s.nodes after) :
    stack screen after = stack screen s.nodes ∧
      (stack screen after).Pairwise fun p q => ¬ graphicsReorder after p q := by
  have ok := inStep.toWindowsOk
  obtain ⟨rank, owned⟩ := ok.owned
  have child := mem_stack_iff.mp (ok.root_mem member)
  have sorted : (stack screen s.nodes).Pairwise fun p q => ¬ graphicsReorder after p q := by
    apply List.pairwise_iff_forall_sublist.mpr
    intro a b before
    have inA : a ∈ stack screen s.nodes := before.subset (by simp)
    have inB : b ∈ stack screen s.nodes := before.subset (by simp)
    have apart : a ≠ b := by
      rintro rfl
      exact (List.nodup_cons.mp (before.nodup ok.stack_nodup)).1 List.mem_cons_self
    rw [graphicsReorder_iff, UInt32.not_lt]
    by_cases isFirst : a = rootOf s w
    · rw [isFirst, restacked.zIndexOf_target owned child,
        restacked.zIndexOf_other child fun same => apart (isFirst.trans same.symm)]
      exact (inPlace b inB).2 (isFirst ▸ before)
    · by_cases isSecond : b = rootOf s w
      · rw [isSecond, restacked.zIndexOf_target owned child, restacked.zIndexOf_other child isFirst]
        exact (inPlace a inA).1 (isSecond ▸ before)
      · rw [restacked.zIndexOf_other child isFirst, restacked.zIndexOf_other child isSecond]
        exact UInt32.not_lt.mp (inStep.toSortedWindows.not_lt_of_before before)
  have same : stack screen after = stack screen s.nodes := by
    rw [restacked.stack_eq_reorder child, Elements.vectorReorder_eq_self buffers sorted]
  exact ⟨same, same.symm ▸ sorted⟩

/-- With another number for the root of a window that fits, the windows are drawn in the order they had
to be drawn in. -/
theorem order_fits {w a b : Nat} {z : UInt32} {after : Nodes} (member : w ∈ s.windowsVector)
    (fits : Fits screen s w z) (restacked : Restacked screen (rootOf s w) z true s.nodes after)
    (before : [a, b] <+ s.windowsVector) (overlap : Overlap s a b) :
    [rootOf s b, rootOf s a] <+ stack screen after := by
  have ok := inStep.toWindowsOk
  obtain ⟨rank, owned⟩ := ok.owned
  have rootMem := ok.root_mem member
  have child := mem_stack_iff.mp rootMem
  have numberOther : ∀ {v}, v ∈ s.windowsVector → v ≠ w →
      zIndexOf after (rootOf s v) = zIndexOf s.nodes (rootOf s v) := by
    intro v inVector other
    exact restacked.zIndexOf_other child fun same => other (ok.distinct v inVector w member same)
  have number : zIndexOf after (rootOf s w) = z := restacked.zIndexOf_target owned child
  obtain ⟨inA, inB, apart, rootsApart⟩ := ok.apart_of_before before
  apply (ok.before_restack_iff rootMem restacked (ok.root_mem inB) (ok.root_mem inA)
    rootsApart).mpr
  by_cases isFirst : a = w
  · subst isFirst
    obtain ⟨x, y, coversA, coversB⟩ := overlap
    rw [number, numberOther inB (Ne.symm apart)]
    cases (fits b inB ⟨x, y, coversB, coversA⟩).2 before with
    | inl less => exact .inl less
    | inr same => exact .inr ⟨same.1 ▸ UInt32.lt_irrefl _, same.2⟩
  · by_cases isSecond : b = w
    · subst isSecond
      rw [number, numberOther inA isFirst]
      cases (fits a inA overlap).1 before with
      | inl less => exact .inl less
      | inr same => exact .inr ⟨same.1 ▸ UInt32.lt_irrefl _, same.2⟩
    -- Two other windows keep their order.
    · have drawn := inStep.order a b before overlap
      rw [numberOther inA isFirst, numberOther inB isSecond]
      exact .inr ⟨inStep.toSortedWindows.not_lt_of_before drawn, drawn⟩

/-- Another number for the root of a window. -/
theorem restack {w : Nat} {z : UInt32} {buffers : StackBuffers} {after : Nodes} (member : w ∈ s.windowsVector)
    (restacks : Restacks screen s w z buffers)
    (restacked : Restacked screen (rootOf s w) z buffers.children s.nodes after) :
    InStep screen { s with nodes := after } := by
  have ok := inStep.toWindowsOk
  have rootMem := ok.root_mem member
  have okAfter := ok.restack rootMem restacked
  have sameInfo : ∀ v ∈ s.windowsVector, (after (rootOf s v)).map GraphicsNode.info =
      (s.nodes (rootOf s v)).map GraphicsNode.info :=
    fun v inVector => restacked.info_eq ok (ok.root_mem inVector)
  cases restacks with
  | inl inPlace =>
    obtain ⟨same, sorted⟩ := inStep.stack_inPlace member inPlace restacked
    apply inStep.of_kept ⟨okAfter, sorted⟩ (.refl _) (fun _ _ => rfl) sameInfo
    intro a b before overlap
    exact same ▸ inStep.order a b before overlap
  | inr fits =>
    obtain ⟨sorts, fits⟩ := fits
    rw [sorts] at restacked
    exact inStep.of_kept ⟨okAfter, restacked.sorted (mem_stack_iff.mp rootMem)⟩ (.refl _) (fun _ _ => rfl) sameInfo
      fun a b before overlap => inStep.order_fits member fits restacked before overlap

theorem setFocused {w : Nat} (member : w ∈ s.windowsVector) :
    InStep screen { s with focusedWindow := some w } :=
  ⟨⟨inStep.toWindowsOk.setFocused member, inStep.sorted⟩, inStep.placed, inStep.order⟩

/-- A root that a failed creation leaves behind is no window's. -/
theorem rootAdded {new : Nat} {node : GraphicsNode} {alloc : NodeAlloc} {addresses : List Nat} {after : Nodes}
    (added : RootAdded screen new node alloc addresses s.nodes after)
    (fresh : ∀ p ∈ addresses, s.nodes p = none) (freshNew : s.nodes new = none) (sorts : alloc.buffers = true) :
    InStep screen { s with nodes := after } := by
  have ok := inStep.toWindowsOk
  apply inStep.of_kept ⟨added.windowsOk ok, added.sorted ok fresh sorts⟩ (.refl _) (fun _ _ => rfl)
    (fun v inVector => congrArg _ (added.other ok fresh (ok.root_mem inVector)))
  intro a b before overlap
  obtain ⟨inA, inB, -, rootsApart⟩ := ok.apart_of_before before
  have rootA := ok.root_mem inA
  have rootB := ok.root_mem inB
  have drawn := inStep.order a b before overlap
  apply (added.before_iff ok fresh freshNew sorts ((added.mem_stack ok).mpr (.inl rootB))
    ((added.mem_stack ok).mpr (.inl rootA)) rootsApart).mpr
  rw [added.zIndexOf_other ok fresh rootA, added.zIndexOf_other ok fresh rootB]
  exact .inr ⟨inStep.toSortedWindows.not_lt_of_before drawn, drawn.trans (List.sublist_append_left _ _)⟩

theorem close {fuel w : Nat} {buffers : CloseBuffers} {after : WindowSystem} (served : Served s (.close w buffers))
    (member : w ∈ s.windowsVector) (closed : windowClose fuel screen s w buffers = some after) :
    InStep screen after := by
  have ok := inStep.toWindowsOk
  obtain ⟨effect, okAfter⟩ := ok.close served member closed
  have stays : ∀ {v}, v ∈ after.windowsVector → v ∈ s.windowsVector ∧ v ≠ w := by
    intro v inAfter
    rw [effect.vector] at inAfter
    exact ⟨List.mem_of_mem_erase inAfter, fun same => ok.nodup.not_mem_erase (same ▸ inAfter)⟩
  have rootApart : ∀ {v}, v ∈ after.windowsVector → rootOf s v ≠ rootOf s w := by
    intro v inAfter same
    exact (stays inAfter).2 (ok.distinct v (stays inAfter).1 w member same)
  have sorted : (stack screen after.nodes).Pairwise fun p q => ¬ graphicsReorder after.nodes p q := by
    rw [effect.popped]
    refine pairwise_reorder_congr (inStep.sorted.sublist List.erase_sublist) fun q inErase => ?_
    have apart : q ≠ rootOf s w := fun same => ok.stack_nodup.not_mem_erase (same ▸ inErase)
    rw [zIndexOf, effect.frame q (List.mem_of_mem_erase inErase) apart, zIndexOf]
  apply inStep.of_kept ⟨okAfter, sorted⟩ (effect.vector ▸ List.erase_sublist)
    (fun v inAfter => effect.window v (stays inAfter).2)
    (fun v inAfter => congrArg _ (effect.frame _ (ok.root_mem (stays inAfter).1)
      (rootApart inAfter)))
  intro a b before overlap
  have inA : a ∈ after.windowsVector := before.subset (by simp)
  have inB : b ∈ after.windowsVector := before.subset (by simp)
  have drawn := inStep.order a b (before.trans (effect.vector ▸ List.erase_sublist)) overlap
  -- The closed root is neither of the two.
  have kept : [rootOf s b, rootOf s a].erase (rootOf s w) = [rootOf s b, rootOf s a] := by
    apply List.erase_of_not_mem
    simp [Ne.symm (rootApart inA), Ne.symm (rootApart inB)]
  rw [effect.popped]
  exact kept ▸ drawn.erase (rootOf s w)

/-- A moved window answers to its new rectangle. -/
theorem move {fuel w : Nat} {newX newY : UInt64} {after : WindowSystem}
    (member : w ∈ s.windowsVector) (keeps : KeepsInStep screen s (.positionSet w newX newY))
    (moved : windowMove fuel screen s w newX newY = some after) : InStep screen after := by
  have ok := inStep.toWindowsOk
  obtain ⟨screenNode, screenLive, -⟩ := ok.top
  obtain ⟨window, live, -, onScreen⟩ := ok.window w member
  obtain ⟨root, rootLive, -⟩ := ok.live_of_mem_stack onScreen
  obtain ⟨effect, okAfter⟩ := ok.move member screenLive live moved
  obtain ⟨smallX, smallY, fits⟩ := keeps screenNode window root screenLive live rootLive
  generalize clampPosition screenNode.info.width.toUInt64 window.width newX = x at *
  generalize clampPosition screenNode.info.height.toUInt64 window.height newY = y at *
  have isRoot := rootOf_eq live
  have rootAfter : after.nodes (rootOf s w) = some (root.moveTo x y) :=
    effect.root root (isRoot ▸ rootLive)
  have windowAfter : after.window w = some { window with x, y } := effect.target window live
  have sameRoot : ∀ {v}, rootOf after v = rootOf s v := effect.rootOf_eq live _
  have sameNode : ∀ {v}, v ∈ s.windowsVector → v ≠ w →
      after.nodes (rootOf s v) = s.nodes (rootOf s v) := by
    intro v inVector other
    exact effect.frame _ (ok.root_mem inVector) fun same =>
      other (ok.distinct v inVector w member same)
  have coversOther : ∀ {v} {x y : UInt64}, v ∈ s.windowsVector → v ≠ w →
      CoversPoint after.nodes x y (rootOf after v) → CoversPoint s.nodes x y (rootOf s v) := by
    intro v x y inVector other covers
    rw [sameRoot] at covers
    exact (coversPoint_congr (by rw [sameNode inVector other])).mp covers
  have coversMoved : ∀ {x' y' : UInt64}, CoversPoint after.nodes x' y' (rootOf after w) →
      (infoRect (root.moveTo x y).info).HasPoint x' y' := by
    rintro x' y' ⟨node, nodeLive, inside⟩
    rw [sameRoot, rootAfter, Option.some.injEq] at nodeLive
    exact nodeLive ▸ inside
  have numbers : ∀ q ∈ stack screen s.nodes, zIndexOf after.nodes q = zIndexOf s.nodes q := by
    intro q inStack
    by_cases here : q = rootOf s w
    · rw [here, zIndexOf, rootAfter, isRoot, zIndexOf, rootLive]
      rfl
    · rw [zIndexOf, effect.frame q inStack here, zIndexOf]
  refine ⟨⟨okAfter, effect.same ▸ pairwise_reorder_congr inStep.sorted numbers⟩, ?_, ?_⟩
  · intro v inAfter
    rw [effect.vector] at inAfter
    by_cases here : v = w
    · subst here
      intro window' root' live' rootLive'
      rw [windowAfter, Option.some.injEq] at live'
      subst live'
      rw [← isRoot, rootAfter, Option.some.injEq] at rootLive'
      subst rootLive'
      exact ⟨(toUInt64_toUInt32 smallX).symm, (toUInt64_toUInt32 smallY).symm⟩
    · exact placedWindow_congr (effect.window v here) (by rw [sameNode inAfter here])
        (inStep.placed v inAfter)
  · -- Two other windows overlap where they did; for the moved one the request keeps the order.
    intro a b before overlap
    rw [effect.vector] at before
    rw [sameRoot, sameRoot, effect.same]
    obtain ⟨inA, inB, apart, -⟩ := ok.apart_of_before before
    obtain ⟨x', y', coversA, coversB⟩ := overlap
    by_cases isFirst : a = w
    · subst isFirst
      exact (fits b inB (Ne.symm apart) x' y' (coversOther inB (Ne.symm apart) coversB)
        (coversMoved coversA)).2 before
    · by_cases isSecond : b = w
      · subst isSecond
        exact (fits a inA isFirst x' y' (coversOther inA isFirst coversA)
          (coversMoved coversB)).1 before
      · exact inStep.order a b before
          ⟨x', y', coversOther inA isFirst coversA, coversOther inB isSecond coversB⟩

/-- The number of a child of the screen is below the number for the top only without a wrap. -/
theorem topNumber_of_lt {p : Nat} (member : p ∈ stack screen s.nodes)
    (less : topNumber screen s.nodes < zIndexOf s.nodes p) :
    ∃ top ∈ stack screen s.nodes, topNumber screen s.nodes = zIndexOf s.nodes top + 1 ∧
      (zIndexOf s.nodes top).toNat = 2 ^ 32 - 1 := by
  cases last : (stack screen s.nodes).getLast? with
  | none =>
    rw [List.getLast?_eq_none_iff] at last
    simp [last] at member
  | some top =>
    have number := topNumber_of_last last
    refine ⟨top, List.mem_of_getLast? last, number, ?_⟩
    have notGreater := inStep.toSortedWindows.le_of_last last member
    rw [number] at less
    rw [UInt32.lt_iff_toNat_lt] at less
    rw [UInt32.le_iff_toNat_le] at notGreater
    rw [UInt32.toNat_add, UInt32.toNat_one] at less
    have := (zIndexOf s.nodes top).toNat_lt
    omega

end InStep

/-- Two neighbours in a vector with a new last element. -/
theorem before_append_singleton {l : List Nat} {a b w : Nat} (before : [a, b] <+ l ++ [w]) :
    [a, b] <+ l ∨ (a ∈ l ∧ b = w) := by
  obtain ⟨front, back, split, inFront, inBack⟩ := List.sublist_append_iff.mp before
  match front, back with
  | [], _ =>
    rw [List.nil_append] at split
    have := split ▸ inBack.length_le
    simp at this
  | [_], _ =>
    simp only [List.cons_append, List.nil_append, List.cons.injEq] at split
    obtain ⟨rfl, rfl⟩ := split
    exact .inr ⟨List.singleton_sublist.mp inFront, by simpa using inBack⟩
  | [_, _], _ =>
    simp only [List.cons_append, List.nil_append, List.cons.injEq] at split
    obtain ⟨rfl, rfl, -⟩ := split
    exact .inl inFront
  | _ :: _ :: _ :: _, _ => simp at split

/-- The screen stands in the corner, so a new root starts at the position asked for. -/
theorem WindowsOk.rootNode_start {screen : Nat} {s : WindowSystem} (ok : WindowsOk screen s)
    {screenNode : GraphicsNode} (screenLive : s.nodes screen = some screenNode)
    (request : WindowRequest) :
    (request.rootNode screen screenNode).info.startingX = request.x.toUInt32 ∧
      (request.rootNode screen screenNode).info.startingY = request.y.toUInt32 := by
  obtain ⟨screenNode', screenLive', -, startX, startY⟩ := ok.top
  rw [screenLive, Option.some.injEq] at screenLive'
  subst screenLive'
  constructor
  · show (screenNode.info.startingX.toUInt64 + request.x).toUInt32 = request.x.toUInt32
    rw [startX]
    exact congrArg UInt64.toUInt32 (UInt64.zero_add request.x)
  · show (screenNode.info.startingY.toUInt64 + request.y).toUInt32 = request.y.toUInt32
    rw [startY]
    exact congrArg UInt64.toUInt32 (UInt64.zero_add request.y)

section Create

variable {screen w new : Nat} {s after : WindowSystem} {screenNode : GraphicsNode}
  {request : WindowRequest} {nodes middle last : Nodes} (inStep : InStep screen s)
  (screenLive : s.nodes screen = some screenNode) (fresh : request.Fresh s)
  (isNew : request.root.newGraphics = some new)
  (added : RootAdded screen new (request.rootNode screen screenNode) request.root request.addresses
    s.nodes nodes)
  (restacked : Restacked screen new (.ofNat (request.parts.length + 1)) true nodes middle)
  (okMiddle : WindowsOk screen ({ s with nodes := middle }.push w (request.newWindow new)))
  (restackedAgain : Restacked screen new (topNumber screen middle) true middle last)

include inStep fresh isNew added restacked okMiddle restackedAgain

/-- The roots of the old windows behind the creation of a new one. -/
theorem pushed_old {q : Nat} (member : q ∈ stack screen s.nodes) : q ≠ new ∧
    zIndexOf middle q = zIndexOf s.nodes q ∧ zIndexOf last q = zIndexOf s.nodes q ∧
    last q = s.nodes q ∧ q ∈ stack screen middle := by
  have ok := inStep.toWindowsOk
  have inAddresses := WindowRequest.mem_addresses isNew
  have okAdded := added.windowsOk ok
  have newMem : new ∈ stack screen nodes := (added.mem_stack ok).mpr (.inr rfl)
  have oldMem : q ∈ stack screen nodes := (added.mem_stack ok).mpr (.inl member)
  obtain ⟨rank, owned⟩ := okAdded.owned
  have child := mem_stack_iff.mp newMem
  have relinked := restacked.relinked owned child
  have childMiddle := relinked.childOf_iff.mpr child
  have notNew : q ≠ new := by
    rintro rfl
    obtain ⟨g, live, -⟩ := ok.live_of_mem_stack member
    simp [fresh.nodes q inAddresses] at live
  have notScreen : q ≠ screen := fun same => ok.screen_not_mem (same ▸ member)
  have number : zIndexOf middle q = zIndexOf s.nodes q := by
    rw [restacked.zIndexOf_other child notNew, added.zIndexOf_other ok fresh.nodes member]
  refine ⟨notNew, number, ?_, ?_, ?_⟩
  · rw [restackedAgain.zIndexOf_other childMiddle notNew, number]
  · rw [restackedAgain.frame q notScreen notNew, restacked.frame q notScreen notNew,
      added.other ok fresh.nodes member]
  · exact mem_stack_iff.mpr (relinked.childOf_iff.mpr (mem_stack_iff.mp oldMem))

/-- The old roots keep their order. -/
theorem pushed_order (sorts : request.root.buffers = true) {a b : Nat} (apart : a ≠ b)
    (drawn : [a, b] <+ stack screen s.nodes) :
    [a, b] <+ stack screen last := by
  have ok := inStep.toWindowsOk
  have freshNew := fresh.root isNew
  have okAdded := added.windowsOk ok
  have newMem : new ∈ stack screen nodes := (added.mem_stack ok).mpr (.inr rfl)
  have oldMem : ∀ {q}, q ∈ stack screen s.nodes → q ∈ stack screen nodes :=
    fun member => (added.mem_stack ok).mpr (.inl member)
  have inA : a ∈ stack screen s.nodes := drawn.subset (by simp)
  have inB : b ∈ stack screen s.nodes := drawn.subset (by simp)
  have notGreater := inStep.toSortedWindows.not_lt_of_before drawn
  obtain ⟨-, middleA, lastA, -, memA⟩ :=
    pushed_old inStep fresh isNew added restacked okMiddle restackedAgain inA
  obtain ⟨-, middleB, lastB, -, memB⟩ :=
    pushed_old inStep fresh isNew added restacked okMiddle restackedAgain inB
  have inAdded : [a, b] <+ stack screen nodes := by
    apply (added.before_iff ok fresh.nodes freshNew sorts (oldMem inA) (oldMem inB) apart).mpr
    rw [added.zIndexOf_other ok fresh.nodes inA, added.zIndexOf_other ok fresh.nodes inB]
    exact .inr ⟨notGreater, drawn.trans (List.sublist_append_left _ _)⟩
  have inMiddle : [a, b] <+ stack screen middle := by
    apply (okAdded.before_restack_iff newMem restacked (oldMem inA) (oldMem inB) apart).mpr
    rw [middleA, middleB]
    exact .inr ⟨notGreater, inAdded⟩
  have newMiddle : new ∈ stack screen middle := by
    obtain ⟨rank, owned⟩ := okAdded.owned
    exact mem_stack_iff.mpr ((restacked.relinked owned (mem_stack_iff.mp newMem)).childOf_iff.mpr
      (mem_stack_iff.mp newMem))
  apply (okMiddle.before_restack_iff newMiddle restackedAgain memA memB apart).mpr
  rw [lastA, lastB]
  exact .inr ⟨notGreater, inMiddle⟩

/-- The new root, and the number for the top, which does not change where it has wrapped. -/
theorem pushed_new : (∃ node, last new = some node ∧
      node.info = (request.rootNode screen screenNode).info) ∧
    zIndexOf last new = topNumber screen middle ∧ new ∈ stack screen middle ∧
    ∀ p ∈ stack screen s.nodes, topNumber screen s.nodes < zIndexOf s.nodes p →
      topNumber screen middle < zIndexOf s.nodes p := by
  have ok := inStep.toWindowsOk
  have okAdded := added.windowsOk ok
  have newMem : new ∈ stack screen nodes := (added.mem_stack ok).mpr (.inr rfl)
  obtain ⟨rank, owned⟩ := okAdded.owned
  have child := mem_stack_iff.mp newMem
  have relinked := restacked.relinked owned child
  have childMiddle := relinked.childOf_iff.mpr child
  obtain ⟨children, live⟩ := added.added
  refine ⟨⟨_, restackedAgain.target _ (restacked.target _ live), rfl⟩,
    restackedAgain.zIndexOf_target (relinked.owned owned) childMiddle,
    mem_stack_iff.mpr childMiddle, ?_⟩
  intro p member less
  obtain ⟨top, topMem, number, greatest⟩ := inStep.topNumber_of_lt member less
  obtain ⟨-, sameTop, -, -, topMiddle⟩ :=
    pushed_old inStep fresh isNew added restacked okMiddle restackedAgain topMem
  have noneGreater : ∀ q ∈ stack screen middle, zIndexOf middle q ≤ zIndexOf middle top := by
    intro q _
    rw [sameTop, UInt32.le_iff_toNat_le, greatest]
    have := (zIndexOf middle q).toNat_lt
    omega
  have sortedMiddle : SortedWindows screen ({ s with nodes := middle }.push w (request.newWindow new)) :=
    ⟨okMiddle, restacked.sorted child⟩
  have numberMiddle : topNumber screen middle = zIndexOf middle top + 1 :=
    sortedMiddle.topNumber_eq topMiddle noneGreater
  rwa [numberMiddle, sameTop, ← number]

include screenLive

/-- A new window that overlaps no older one, or is drawn before those. -/
theorem InStep.create
    (sorts : request.root.buffers = true)
    (keeps : request.x.toNat < 2 ^ 32 ∧ request.y.toNat < 2 ^ 32 ∧
      ∀ v ∈ s.windowsVector, ∀ x y, CoversPoint s.nodes x y (rootOf s v) →
        (infoRect (request.rootNode screen screenNode).info).HasPoint x y →
          topNumber screen s.nodes < zIndexOf s.nodes (rootOf s v))
    (isAfter : after = { s with nodes := last, focusedWindow := some w }.push w
      (request.newWindow new)) (okAfter : WindowsOk screen after)
    (freshWindow : s.window w = none) : InStep screen after := by
  have ok := inStep.toWindowsOk
  have absent := ok.not_mem_of_fresh freshWindow
  obtain ⟨smallX, smallY, wrapped⟩ := keeps
  obtain ⟨⟨node, live, info⟩, numberNew, newMiddle, stillLess⟩ :=
    pushed_new inStep fresh isNew added restacked okMiddle restackedAgain
  have old : ∀ {v}, v ∈ s.windowsVector → _ := fun {v} inVector =>
    pushed_old inStep fresh isNew added restacked okMiddle restackedAgain (ok.root_mem inVector)
  have apart : ∀ {v}, v ∈ s.windowsVector → v ≠ w := by
    rintro v inVector rfl
    exact absent inVector
  have rootOld : ∀ {v}, v ∈ s.windowsVector → rootOf after v = rootOf s v := by
    intro v inVector
    rw [isAfter]
    exact rootOf_push_other (apart inVector)
  have rootNew : rootOf after w = new := by
    rw [isAfter]
    exact rootOf_push_self
  have nodesAfter : after.nodes = last := by
    rw [isAfter]
    rfl
  have vectorAfter : after.windowsVector = s.windowsVector ++ [w] := by
    rw [isAfter]
    rfl
  have coversOld : ∀ {v} {x y : UInt64}, v ∈ s.windowsVector →
      CoversPoint after.nodes x y (rootOf after v) → CoversPoint s.nodes x y (rootOf s v) := by
    intro v x y inVector covers
    rw [rootOld inVector, nodesAfter] at covers
    exact (coversPoint_congr (congrArg _ (old inVector).2.2.2.1)).mp covers
  have sorted : (stack screen after.nodes).Pairwise fun p q => ¬ graphicsReorder after.nodes p q := by
    rw [nodesAfter]
    exact restackedAgain.sorted (mem_stack_iff.mp newMiddle)
  refine ⟨⟨okAfter, sorted⟩, ?_, ?_⟩
  · intro v inAfter
    rw [vectorAfter, List.mem_append, List.mem_singleton] at inAfter
    cases inAfter with
    | inl inVector =>
      have sameWindow : after.window v = s.window v := by
        rw [isAfter]
        exact Function.update_of_ne (apart inVector) _ _
      exact placedWindow_congr sameWindow
        (by rw [nodesAfter, (old inVector).2.2.2.1]) (inStep.placed v inVector)
    | inr isWindow =>
      subst isWindow
      intro window root liveWindow liveRoot
      have isNewWindow : after.window v = some (request.newWindow new) := by
        rw [isAfter]
        exact Function.update_self _ _ _
      rw [isNewWindow, Option.some.injEq] at liveWindow
      subst liveWindow
      rw [nodesAfter] at liveRoot
      have isNode := live.symm.trans liveRoot
      rw [Option.some.injEq] at isNode
      obtain ⟨cornerX, cornerY⟩ := ok.rootNode_start screenLive request
      rw [← isNode, info, cornerX, cornerY]
      exact ⟨(toUInt64_toUInt32 smallX).symm, (toUInt64_toUInt32 smallY).symm⟩
  · intro a b before overlap
    rw [vectorAfter] at before
    rw [nodesAfter]
    obtain ⟨x, y, coversA, coversB⟩ := overlap
    cases before_append_singleton before with
    | inl before =>
      obtain ⟨inA, inB, -, rootsApart⟩ := ok.apart_of_before before
      rw [rootOld inA, rootOld inB]
      exact pushed_order inStep fresh isNew added restacked okMiddle restackedAgain sorts rootsApart
        (inStep.order a b before ⟨x, y, coversOld inA coversA, coversOld inB coversB⟩)
    | inr isLast =>
      -- The new window is drawn over an old one unless the count of the numbers has wrapped.
      obtain ⟨inA, rfl⟩ := isLast
      obtain ⟨notNew, -, numberA, -, middleA⟩ := old inA
      have inside : (infoRect (request.rootNode screen screenNode).info).HasPoint x y := by
        obtain ⟨node', live', inside⟩ := coversB
        rw [rootNew, nodesAfter, live, Option.some.injEq] at live'
        rw [← info, live']
        exact inside
      have less := stillLess _ (ok.root_mem inA) (wrapped a inA x y (coversOld inA coversA) inside)
      rw [rootNew, rootOld inA]
      apply (okMiddle.before_restack_iff newMiddle restackedAgain newMiddle middleA
        (Ne.symm notNew)).mpr
      rw [numberNew, numberA]
      exact .inl less

end Create

theorem windowStep_inStep {screen : Nat} {s after : WindowSystem} {op : WindowOp}
    (step : WindowStep screen s op after) (keeps : KeepsInStep screen s op)
    (inStep : InStep screen s) : InStep screen after := by
  have ok := inStep.toWindowsOk
  have okAfter := windowStep_ok step ok
  obtain ⟨screenNode, screenLive, -⟩ := ok.top
  obtain ⟨served, call⟩ := step
  cases op with
  | create request =>
    obtain ⟨fresh, result, created⟩ := call
    rcases windowCreate_spec ok screenLive served fresh created with ⟨-, rfl⟩ | ⟨rootSucceeds, w, new,
      nodes, isWindow, isNew, added, okRoot, ⟨-, rfl⟩ | ⟨partsSucceed, middle, last, restacked,
        okMiddle, restackedAgain, isAfter⟩⟩
    · exact inStep
    · exact inStep.rootAdded added fresh.nodes (fresh.root isNew) (keeps screenNode screenLive rootSucceeds).1
    · obtain ⟨sorts, keeps⟩ := keeps screenNode screenLive rootSucceeds
      obtain ⟨sortsFirst, sortsAgain, keeps⟩ := keeps partsSucceed
      rw [sortsFirst] at restacked
      rw [sortsAgain] at restackedAgain
      exact InStep.create inStep screenLive fresh isNew added restacked okMiddle restackedAgain sorts keeps
        isAfter okAfter (fresh.window w isWindow)
  | focus w buffers =>
    obtain ⟨member, focused⟩ := call
    rcases ok.focus member buffers with ⟨-, same⟩ | ⟨notFocused, nodes, brought, restacked⟩
    · rw [same, Option.some.injEq] at focused
      exact focused ▸ inStep
    · rw [brought, Option.some.injEq] at focused
      exact focused ▸ (inStep.setFocused member).restack member (keeps.resolve_left notFocused)
        restacked
  | bringToTop w buffers =>
    obtain ⟨member, brought⟩ := call
    obtain ⟨nodes, set, restacked⟩ := ok.bringToTop member buffers
    rw [set, Option.some.injEq] at brought
    exact brought ▸ inStep.restack member keeps restacked
  | setZIndex w zindex buffers =>
    obtain ⟨member, set⟩ := call
    obtain ⟨nodes, setEq, restacked⟩ := ok.setZIndex member zindex buffers
    rw [setEq, Option.some.injEq] at set
    exact set ▸ inStep.restack member keeps restacked
  | positionSet w newX newY =>
    obtain ⟨member, fuel, moved⟩ := call
    exact inStep.move member keeps moved
  | close w buffers =>
    obtain ⟨member, fuel, closed⟩ := call
    exact inStep.close served member closed

/-! ## Every run -/

theorem inStep_setup (screen : Nat) (mode : GraphicsInfo) :
    InStep screen (setupWindows screen mode) :=
  ⟨⟨windowsOk_setup screen mode, by simp [stack, setupWindows, setupNodes, Nodes.set, screenNode]⟩,
    by simp [setupWindows], by simp [setupWindows]⟩

/-- In a run of calls that get memory for what they push and pop and keep the two orders in step, `window_get_at_position` returns the
window the user sees, in every state and for every point and ignored window. -/
theorem getAtPosition_run (screen : Nat) (mode : GraphicsInfo)
    (run : List (WindowOp × WindowSystem))
    (isRun : IsRun (WindowCall screen) (setupWindows screen mode) run)
    (keeps : EveryStep (fun s op => Served s op ∧ KeepsInStep screen s op) (setupWindows screen mode) run) :
    ∀ s ∈ runStates (setupWindows screen mode) run, ∀ x y ignored,
      ∃ result, windowGetAtPosition s x y ignored = some result ∧
        DrawnLast screen s x y ignored result := by
  intro s reached x y ignored
  have preserves : ∀ s op t, WindowCall screen s op t → Served s op ∧ KeepsInStep screen s op →
      InStep screen s → InStep screen t :=
    fun _ _ _ call keeps inStep => windowStep_inStep ⟨keeps.1, call⟩ keeps.2 inStep
  have inStep := inv_of_everyStep preserves isRun keeps (inStep_setup screen mode) s reached
  exact getAtPosition_drawnLast inStep x y ignored

/-! ## Two windows -/

instance (rect : Rect) (x y : UInt64) : Decidable (rect.HasPoint x y) :=
  inferInstanceAs (Decidable (_ ∧ _ ∧ _ ∧ _))

theorem coversPoint_iff {nodes : Nodes} {x y : UInt64} {p : Nat} :
    (nodes p).any (fun node => decide ((infoRect node.info).HasPoint x y)) = true ↔
      CoversPoint nodes x y p := by
  cases live : nodes p with
  | none => simp [CoversPoint, live]
  | some node =>
    rw [Option.any_some, decide_eq_true_iff]
    constructor
    · exact fun inside => ⟨node, live, inside⟩
    · rintro ⟨node', live', inside⟩
      rw [live, Option.some.injEq] at live'
      exact live' ▸ inside

instance (nodes : Nodes) (x y : UInt64) (p : Nat) : Decidable (CoversPoint nodes x y p) :=
  decidable_of_iff _ coversPoint_iff

/-- The first window at (100, 100), and a second one at another column. -/
def firstSystem : WindowSystem :=
  createdOn (setupWindows 1 emptyMode) (windowRequest 100 200 20)

def secondSystem (x : UInt64) : WindowSystem := createdOn firstSystem (windowRequest x 300 30)

def twoWindows (x : UInt64) : List (WindowOp × WindowSystem) :=
  [(.create (windowRequest 100 200 20), firstSystem),
    (.create (windowRequest x 300 30), secondSystem x)]

theorem twoWindows_isRun {x : UInt64} (place : x = 150 ∨ x = 350) :
    IsRun (WindowCall 1) (setupWindows 1 emptyMode) (twoWindows x) := by
  have first : WindowStep 1 (setupWindows 1 emptyMode) (.create (windowRequest 100 200 20)) firstSystem :=
    windowStep_createdOn (windowRequest_served _ _ _) rfl (by decide +kernel) (by decide +kernel)
      (by decide +kernel) (by decide +kernel)
  have second : WindowStep 1 firstSystem (.create (windowRequest x 300 30)) (secondSystem x) := by
    cases place with
    | inl below =>
      subst below
      exact windowStep_createdOn (windowRequest_served _ _ _) rfl (by decide +kernel) (by decide +kernel)
        (by decide +kernel) (by decide +kernel)
    | inr beside =>
      subst beside
      exact windowStep_createdOn (windowRequest_served _ _ _) rfl (by decide +kernel) (by decide +kernel)
        (by decide +kernel) (by decide +kernel)
  exact ⟨first.2, second.2, trivial⟩

/-- The second window lies over a part of the first, and a click on it there goes to the first. -/
theorem click_goes_below : IsRun (WindowCall 1) (setupWindows 1 emptyMode) (twoWindows 150) ∧
    ∃ s ∈ runStates (setupWindows 1 emptyMode) (twoWindows 150),
      windowGetAtPosition s 200 200 none = some (some 200) ∧
      ¬ DrawnLast 1 s 200 200 none (some 200) ∧ DrawnLast 1 s 200 200 none (some 300) := by
  have isRun : IsRun (WindowCall 1) (setupWindows 1 emptyMode) (twoWindows 150) :=
    twoWindows_isRun (.inl rfl)
  have stacked : stack 1 (secondSystem 150).nodes = [20, 30] := by decide +kernel
  have rootFirst : rootOf (secondSystem 150) 200 = 20 := by decide +kernel
  have rootSecond : rootOf (secondSystem 150) 300 = 30 := by decide +kernel
  have vector : (secondSystem 150).windowsVector = [200, 300] := by decide +kernel
  have second : Candidate (secondSystem 150) 200 200 none 300 :=
    ⟨by simp [vector], by simp, by decide +kernel⟩
  refine ⟨isRun, secondSystem 150, by simp [twoWindows], by decide +kernel, ?_, second, ?_⟩
  · rintro ⟨-, last⟩
    have drawn := (last 300 second (by decide)).1
    rw [rootSecond, rootFirst, stacked] at drawn
    exact absurd drawn (by decide)
  · intro v candidate other
    have member := candidate.member
    rw [vector] at member
    have isFirst : v = 200 := by simpa [other] using member
    rw [isFirst, rootFirst, rootSecond, stacked]
    exact ⟨.refl _, by decide +kernel⟩

/-- Side by side, the windows get their own clicks. -/
theorem getAtPosition_run_twoWindows :
    IsRun (WindowCall 1) (setupWindows 1 emptyMode) (twoWindows 350) ∧
    ∀ s ∈ runStates (setupWindows 1 emptyMode) (twoWindows 350), ∀ x y ignored,
      ∃ result, windowGetAtPosition s x y ignored = some result ∧
        DrawnLast 1 s x y ignored result := by
  have isRun : IsRun (WindowCall 1) (setupWindows 1 emptyMode) (twoWindows 350) :=
    twoWindows_isRun (.inr rfl)
  refine ⟨isRun, getAtPosition_run 1 emptyMode (twoWindows 350) isRun ⟨?_, ?_, trivial⟩⟩
  · refine ⟨windowRequest_served _ _ _, fun screenNode _ _ => ⟨rfl, fun _ => ?_⟩⟩
    exact ⟨rfl, rfl, by decide, by decide, by simp [setupWindows]⟩
  · refine ⟨windowRequest_served _ _ _, fun screenNode live _ => ⟨rfl, fun _ => ?_⟩⟩
    refine ⟨rfl, rfl, by decide, by decide, ?_⟩
    have vector : firstSystem.windowsVector = [200] := by decide +kernel
    have root : rootOf firstSystem 200 = 20 := by decide +kernel
    have right : ((firstSystem.nodes 20).map fun node => (infoRect node.info).right) =
        some 304 := by decide +kernel
    have corner : ((firstSystem.nodes 1).map fun node => node.info.startingX) = some 0 := by
      decide +kernel
    intro v member x y covers inside
    rw [vector, List.mem_singleton] at member
    rw [member, root] at covers
    obtain ⟨node, nodeLive, -, before, -⟩ := covers
    rw [nodeLive, Option.map_some, Option.some.injEq] at right
    rw [live, Option.map_some, Option.some.injEq] at corner
    -- The first one ends before the second begins.
    have left : (infoRect ((windowRequest 350 300 30).rootNode 1 screenNode).info).left = 350 := by
      simp [infoRect, WindowRequest.rootNode, stackedNode, newNode, GraphicsNode.withZIndex,
        corner, windowRequest]
    have := inside.1
    omega

end ViOS.Graphics
