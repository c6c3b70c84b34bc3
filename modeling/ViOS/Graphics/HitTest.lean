import ViOS.Graphics.Placement

/-! # The node under the pointer

`graphics_get_at_screen_position` descends from the screen to the topmost node at a
point, leaving out one branch.  The children are looked at from the last one on, in
the order opposite to the one in which they are drawn.

* `graphicsGetChildAtPosition` — the code.
* `redrawOrder` — the nodes `graphics_redraw` hands to `graphics_redraw_only`, in order.
* `LastOf` — the last element of a list with a property.
* `getAtScreenPosition_lastOf` — the node found is the last one drawn over the point, and with
  nothing transparent its pixel is on the screen.
-/

namespace ViOS.Graphics

open ViOS.Lib

/-! ## The code -/

/-- `graphics_is_in_ignored_branch`. -/
def graphicsIsInIgnoredBranch : Nat → Nodes → Nat → Option Nat → Option Bool
  | _, _, _, none => some false
  | 0, _, _, some _ => none
  | fuel + 1, nodes, elem, some ignored =>
    if elem = ignored then some true
    else
      match nodes elem with
      | none => none
      | some node =>
        match node.parent with
        | none => some false
        | some parent => graphicsIsInIgnoredBranch fuel nodes parent (some ignored)

/-- The bounds check of a node; the sums are of type `uint32_t`. -/
def containsPoint (info : GraphicsInfo) (x y : UInt64) : Bool :=
  x ≥ info.startingX.toUInt64 ∧ x < (info.startingX + info.width).toUInt64 ∧
    y ≥ info.startingY.toUInt64 ∧ y < (info.startingY + info.height).toUInt64

/-- A loop over children that ends at the first one with a result. -/
def firstResult (visit : Nat → Option (Option Nat)) : List Nat → Option (Option Nat)
  | [] => some none
  | child :: rest =>
    match visit child with
    | none => none
    | some (some result) => some (some result)
    | some none => firstResult visit rest

/-- One turn of the loop of `graphics_get_child_at_position`; `descend` is the recursive call. -/
def visitChild (climb : Nat) (nodes : Nodes) (x y : UInt64) (ignored : Option Nat)
    (descend : Nat → Option (Option Nat)) (child : Nat) : Option (Option Nat) :=
  match graphicsIsInIgnoredBranch climb nodes child ignored with
  | none => none
  | some true => some none
  | some false =>
    match nodes child with
    | none => none
    | some childNode =>
      if containsPoint childNode.info x y then
        match descend child with
        | none => none
        | some (some result) => some (some result)
        | some none => some (some child)
      else some none

/-- `graphics_get_child_at_position`.  `climb` is the fuel of the walks to the screen. -/
def graphicsGetChildAtPosition (climb : Nat) :
    Nat → Nodes → Nat → UInt64 → UInt64 → Option Nat → Bool → Option (Option Nat)
  | 0, _, _, _, _, _, _ => none
  | fuel + 1, nodes, graphics, x, y, ignored, topFirst =>
    match graphicsIsInIgnoredBranch climb nodes graphics ignored with
    | none => none
    | some true => some none
    | some false =>
      match nodes graphics with
      | none => none
      | some node =>
        let visit := visitChild climb nodes x y ignored fun child =>
          graphicsGetChildAtPosition climb fuel nodes child x y ignored topFirst
        match firstResult visit (if topFirst then node.children.reverse else node.children) with
        | none => none
        | some (some result) => some (some result)
        -- No child qualifies: the node itself, if it contains the point.
        | some none => some (if containsPoint node.info x y then some graphics else none)

/-- `graphics_get_at_screen_position`. -/
def graphicsGetAtScreenPosition (fuel : Nat) (nodes : Nodes) (screen : Nat) (x y : UInt64)
    (ignored : Option Nat) (topFirst : Bool) : Option (Option Nat) :=
  graphicsGetChildAtPosition fuel fuel nodes screen x y ignored topFirst

/-! ## Drawing order -/

/-- The nodes `graphics_redraw` draws, in its order, leaving out a hidden branch. -/
def redrawOrder : Nat → Nodes → Option Nat → Nat → List Nat
  | 0, _, _, _ => []
  | fuel + 1, nodes, hidden, graphics =>
    if hidden = some graphics then []
    else
      match nodes graphics with
      | none => []
      | some node => graphics :: node.children.flatMap (redrawOrder fuel nodes hidden)

/-- The tree `graphics_redraw` walks through, without a hidden branch. -/
def visibleTree : Nat → Nodes → Option Nat → Nat → GraphicsTree
  | 0, _, _, _ => .null
  | fuel + 1, nodes, hidden, graphics =>
    if hidden = some graphics then .null
    else
      match nodes graphics with
      | none => .null
      | some node => .node node.info (node.children.map (visibleTree fuel nodes hidden))

/-- The node is in the ignored branch. -/
def InBranch (nodes : Nodes) (ignored : Option Nat) (p : Nat) : Prop :=
  ∃ i, ignored = some i ∧ Below nodes i p

/-- The rectangle of a node, as natural numbers, covers the point. -/
def CoversPoint (nodes : Nodes) (x y : UInt64) (p : Nat) : Prop :=
  ∃ node, nodes p = some node ∧
    (infoRect node.info).left ≤ x.toNat ∧ x.toNat < (infoRect node.info).right ∧
    (infoRect node.info).top ≤ y.toNat ∧ y.toNat < (infoRect node.info).bottom

/-- Each child's rectangle lies inside its parent's. -/
def NestedNodes (nodes : Nodes) : Prop :=
  ∀ p node q parentNode, nodes p = some node → node.parent = some q → nodes q = some parentNode →
    (infoRect node.info).Inside (infoRect parentNode.info)

/-! ## The last element with a property -/

/-- `result` is the last element of the list with the property, if there is one. -/
def LastOf (P : Nat → Prop) (l : List Nat) (result : Option Nat) : Prop :=
  match result with
  | none => ∀ q ∈ l, ¬ P q
  | some p => P p ∧ ∃ before after, l = before ++ p :: after ∧ ∀ q ∈ after, ¬ P q

section LastOf

variable {P Q : Nat → Prop} {l front back : List Nat} {result : Option Nat} {p : Nat}

theorem lastOf_append_some (last : LastOf P back (some p)) : LastOf P (front ++ back) (some p) := by
  obtain ⟨holds, before, after, split, none_after⟩ := last
  exact ⟨holds, front ++ before, after, by rw [split, List.append_assoc], none_after⟩

theorem lastOf_append_none (clear : LastOf P back none) (last : LastOf P front result) :
    LastOf P (front ++ back) result := by
  cases result with
  | none =>
    intro q member
    cases List.mem_append.mp member with
    | inl inFront => exact last q inFront
    | inr inBack => exact clear q inBack
  | some p =>
    obtain ⟨holds, before, after, split, none_after⟩ := last
    refine ⟨holds, before, after ++ back, by rw [split, List.append_assoc, List.cons_append], ?_⟩
    intro q member
    cases List.mem_append.mp member with
    | inl inAfter => exact none_after q inAfter
    | inr inBack => exact clear q inBack

/-- A loop from the last part of a list to the first finds the last element. -/
theorem firstResult_lastOf {visit : Nat → Option (Option Nat)} {parts : Nat → List Nat}
    {roots : List Nat}
    (each : ∀ c ∈ roots, ∃ result, visit c = some result ∧ LastOf P (parts c) result) :
    ∃ result, firstResult visit roots = some result ∧
      LastOf P (roots.reverse.flatMap parts) result := by
  induction roots with
  | nil => exact ⟨none, rfl, by simp [LastOf]⟩
  | cons c roots ih =>
    obtain ⟨first, visited, last⟩ := each c List.mem_cons_self
    obtain ⟨later, rest, lastRest⟩ := ih fun d member => each d (List.mem_cons_of_mem _ member)
    have split : (c :: roots).reverse.flatMap parts =
        roots.reverse.flatMap parts ++ parts c := by
      rw [List.reverse_cons, List.flatMap_append, List.flatMap_singleton]
    rw [split]
    cases first with
    | none => exact ⟨later, by simp [firstResult, visited, rest], lastOf_append_none last lastRest⟩
    | some p => exact ⟨some p, by simp [firstResult, visited], lastOf_append_some last⟩

end LastOf

/-! ## The parts of the descent -/

section Descent

variable {nodes : Nodes} {rank : Nat → Nat} {bound : Nat} (forest : Forest nodes rank bound)
  {p q : Nat} {node : GraphicsNode} {ignored : Option Nat} {x y : UInt64}

include forest in
/-- With enough fuel the walk to the screen finds out whether a node is in the branch. -/
theorem inIgnoredBranch_spec {climb : Nat} (enough : rank p < climb)
    (live : nodes p = some node) :
    ∃ answer, graphicsIsInIgnoredBranch climb nodes p ignored = some answer ∧
      (answer = true ↔ InBranch nodes ignored p) := by
  cases ignored with
  | none => exact ⟨false, by cases climb <;> rfl, by simp [InBranch]⟩
  | some i =>
    induction climb generalizing p node with
    | zero => omega
    | succ climb ih =>
      have inBranch : InBranch nodes (some i) p ↔ Below nodes i p := by simp [InBranch]
      by_cases same : p = i
      · subst same
        exact ⟨true, by simp [graphicsIsInIgnoredBranch], iff_of_true rfl (inBranch.mpr .refl)⟩
      · cases parent : node.parent with
        | none =>
          refine ⟨false, by simp [graphicsIsInIgnoredBranch, same, live, parent], ?_⟩
          simp [inBranch, below_root_iff live parent, Ne.symm same]
        | some q =>
          obtain ⟨parentNode, parentLive, -⟩ := forest.parent live parent
          have lower := forest.rank_lt live parent
          obtain ⟨answer, found, meaning⟩ := ih (by omega) parentLive
          refine ⟨answer, by simpa [graphicsIsInIgnoredBranch, same, live, parent] using found, ?_⟩
          rw [meaning, inBranch, below_parent_iff live parent, or_iff_right (Ne.symm same)]
          simp [InBranch]

/-- Without wrapping, the bounds check is about the rectangle. -/
theorem containsPoint_iff (live : nodes p = some node)
    (right : (infoRect node.info).right < 2 ^ 32) (bottom : (infoRect node.info).bottom < 2 ^ 32) :
    containsPoint node.info x y = true ↔ CoversPoint nodes x y p := by
  simp only [infoRect] at right bottom
  have sumX : (node.info.startingX + node.info.width).toNat =
      node.info.startingX.toNat + node.info.width.toNat := by
    rw [UInt32.toNat_add]
    exact Nat.mod_eq_of_lt right
  have sumY : (node.info.startingY + node.info.height).toNat =
      node.info.startingY.toNat + node.info.height.toNat := by
    rw [UInt32.toNat_add]
    exact Nat.mod_eq_of_lt bottom
  simp only [containsPoint, CoversPoint, live, infoRect, ge_iff_le, UInt64.le_iff_toNat_le,
    UInt64.lt_iff_toNat_lt, UInt32.toNat_toUInt64, sumX, sumY, decide_eq_true_eq,
    Option.some.injEq, exists_eq_left']

include forest

/-- The rectangle of a node contains those of its subtree. -/
theorem inside_of_below (nested : NestedNodes nodes) (below : Below nodes p q)
    {lower upper : GraphicsNode} (upperLive : nodes p = some upper)
    (lowerLive : nodes q = some lower) : (infoRect lower.info).Inside (infoRect upper.info) := by
  induction below generalizing lower with
  | refl =>
    rw [upperLive, Option.some.injEq] at lowerLive
    exact lowerLive ▸ .refl _
  | tail above isParent ih =>
    obtain ⟨node', live', parent⟩ := isParent
    rw [lowerLive, Option.some.injEq] at live'
    subst live'
    obtain ⟨middle, middleLive, -⟩ := forest.parent lowerLive parent
    exact (nested _ _ _ _ lowerLive parent middleLive).trans (ih middleLive)

/-- A point over a node of a subtree is over the subtree's root. -/
theorem coversPoint_of_below (nested : NestedNodes nodes) (below : Below nodes p q)
    {upper : GraphicsNode} (upperLive : nodes p = some upper) (covers : CoversPoint nodes x y q) :
    CoversPoint nodes x y p := by
  obtain ⟨lower, lowerLive, left, right, top, bottom⟩ := covers
  have inside := inside_of_below forest nested below upperLive lowerLive
  exact ⟨upper, upperLive, Nat.le_trans inside.left left, Nat.lt_of_lt_of_le right inside.right,
    Nat.le_trans inside.top top, Nat.lt_of_lt_of_le bottom inside.bottom⟩

/-- Everything drawn for a subtree is in it. -/
theorem below_of_mem_redrawOrder {fuel : Nat} {hidden : Option Nat}
    (member : q ∈ redrawOrder fuel nodes hidden p) : Below nodes p q := by
  induction fuel generalizing p with
  | zero => simp [redrawOrder] at member
  | succ fuel ih =>
    simp only [redrawOrder] at member
    split at member
    · simp at member
    · cases live : nodes p with
      | none => simp [live] at member
      | some node =>
        simp only [live, List.mem_cons, List.mem_flatMap] at member
        rcases member with rfl | ⟨c, isChild, inChild⟩
        · exact .refl
        · exact (forest.below_iff live).mpr (.inr ⟨c, isChild, ih inChild⟩)

omit forest in
theorem isSome_of_mem_redrawOrder {fuel : Nat} {hidden : Option Nat}
    (member : q ∈ redrawOrder fuel nodes hidden p) : (nodes q).isSome := by
  induction fuel generalizing p with
  | zero => simp [redrawOrder] at member
  | succ fuel ih =>
    simp only [redrawOrder] at member
    split at member
    · simp at member
    · cases live : nodes p with
      | none => simp [live] at member
      | some node =>
        simp only [live, List.mem_cons, List.mem_flatMap] at member
        rcases member with rfl | ⟨c, -, inChild⟩
        · simp [live]
        · exact ih inChild

/-- A child of a node outside the branch is in the branch only as its root. -/
theorem inBranch_child (live : nodes p = some node) (outside : ¬ InBranch nodes ignored p) {c : Nat}
    (member : c ∈ node.children) : InBranch nodes ignored c ↔ ignored = some c := by
  obtain ⟨childNode, childLive, parent⟩ := forest.child live member
  constructor
  · rintro ⟨i, isIgnored, below⟩
    rcases (below_parent_iff childLive parent).mp below with rfl | above
    · exact isIgnored
    · exact absurd ⟨i, isIgnored, above⟩ outside
  · intro isIgnored
    exact ⟨c, isIgnored, .refl⟩

end Descent

/-! ## The descent -/

/-- A node under the point and outside the branch: the descent from it ends at the last node of
its subtree that is drawn over the point. -/
theorem getChildAtPosition_lastOf {nodes : Nodes} {rank : Nat → Nat} {bound : Nat}
    (forest : Forest nodes rank bound) (nested : NestedNodes nodes)
    (small : ∀ p node, nodes p = some node →
      (infoRect node.info).right < 2 ^ 32 ∧ (infoRect node.info).bottom < 2 ^ 32)
    {ignored : Option Nat} {x y : UInt64} {climb fuel : Nat} (enoughClimb : bound ≤ climb) {p : Nat}
    (enough : bound ≤ fuel + rank p) (outside : ¬ InBranch nodes ignored p)
    (covers : CoversPoint nodes x y p) :
    ∃ result, graphicsGetChildAtPosition climb fuel nodes p x y ignored true =
        some (some result) ∧
      LastOf (CoversPoint nodes x y) (redrawOrder fuel nodes ignored p) (some result) := by
  obtain ⟨node, live, -⟩ := id covers
  induction fuel generalizing p node with
  | zero =>
    have := forest.rank_bound live
    omega
  | succ fuel ih =>
    have notHidden : ignored ≠ some p := fun same => outside ⟨p, same, .refl⟩
    have branchAnswer : ∀ {q g}, nodes q = some g → ∃ answer,
        graphicsIsInIgnoredBranch climb nodes q ignored = some answer ∧
          (answer = true ↔ InBranch nodes ignored q) := fun liveQ =>
      inIgnoredBranch_spec forest (Nat.lt_of_lt_of_le (forest.rank_bound liveQ) enoughClimb) liveQ
    have here : graphicsIsInIgnoredBranch climb nodes p ignored = some false := by
      obtain ⟨answer, found, meaning⟩ := branchAnswer live
      cases answer with
      | false => exact found
      | true => exact absurd (meaning.mp rfl) outside
    have contains : containsPoint node.info x y = true :=
      (containsPoint_iff live (small p node live).1 (small p node live).2).mpr covers
    -- Each child is visited with the last of its own nodes as the result.
    have each : ∀ c ∈ node.children.reverse, ∃ result,
        visitChild climb nodes x y ignored (fun child =>
          graphicsGetChildAtPosition climb fuel nodes child x y ignored true) c = some result ∧
        LastOf (CoversPoint nodes x y) (redrawOrder fuel nodes ignored c) result := by
      intro c member
      have isChild := List.mem_reverse.mp member
      obtain ⟨childNode, childLive, parent⟩ := forest.child live isChild
      obtain ⟨answer, found, meaning⟩ := branchAnswer childLive
      rw [inBranch_child forest live outside isChild] at meaning
      cases answer with
      | true =>
        refine ⟨none, by simp [visitChild, found], ?_⟩
        have hidden := meaning.mp rfl
        cases fuel <;> simp [redrawOrder, hidden, LastOf]
      | false =>
        have outsideChild : ¬ InBranch nodes ignored c := by
          rw [inBranch_child forest live outside isChild, ← meaning]
          simp
        by_cases coversChild : CoversPoint nodes x y c
        · have inChild := (containsPoint_iff childLive (small c childNode childLive).1
            (small c childNode childLive).2).mpr coversChild
          have lower := forest.rank_lt childLive parent
          obtain ⟨result, ran, last⟩ := ih (by omega) outsideChild coversChild childNode childLive
          exact ⟨some result, by simp [visitChild, found, childLive, inChild, ran], last⟩
        · have notInChild : containsPoint childNode.info x y = false := by
            rw [← Bool.not_eq_true, containsPoint_iff childLive (small c childNode childLive).1
              (small c childNode childLive).2]
            exact coversChild
          refine ⟨none, by simp [visitChild, found, childLive, notInChild], ?_⟩
          intro q inOrder coversQ
          exact coversChild (coversPoint_of_below forest nested
            (below_of_mem_redrawOrder forest inOrder) childLive coversQ)
    obtain ⟨found, scanned, last⟩ := firstResult_lastOf each
    rw [List.reverse_reverse] at last
    have order : redrawOrder (fuel + 1) nodes ignored p =
        [p] ++ node.children.flatMap (redrawOrder fuel nodes ignored) := by
      simp [redrawOrder, notHidden, live]
    rw [order]
    cases found with
    | some result =>
      refine ⟨result, ?_, lastOf_append_some last⟩
      simp only [graphicsGetChildAtPosition, here, live, if_true, scanned]
    | none =>
      refine ⟨p, ?_, lastOf_append_none last ⟨covers, [], [], rfl, by simp⟩⟩
      simp only [graphicsGetChildAtPosition, here, live, if_true, scanned, contains]

/-- Hiding a branch leaves out of the drawing order exactly the nodes in it. -/
theorem redrawOrder_hidden {nodes : Nodes} {rank : Nat → Nat} {bound : Nat}
    (forest : Forest nodes rank bound) {ignored : Option Nat}
    [DecidablePred (InBranch nodes ignored)] {fuel p : Nat} {node : GraphicsNode} (live : nodes p = some node)
    (root : InBranch nodes ignored p → ignored = some p) :
    redrawOrder fuel nodes ignored p =
      (redrawOrder fuel nodes none p).filter fun q => ¬ InBranch nodes ignored q := by
  induction fuel generalizing p node with
  | zero => rfl
  | succ fuel ih =>
    by_cases hidden : ignored = some p
    · have inside : ∀ q ∈ redrawOrder (fuel + 1) nodes none p, InBranch nodes ignored q :=
        fun q member => ⟨p, hidden, below_of_mem_redrawOrder forest member⟩
      have nothing : ((redrawOrder (fuel + 1) nodes none p).filter
          fun q => ¬ InBranch nodes ignored q) = [] := by
        rw [List.filter_eq_nil_iff]
        intro q member
        simpa using inside q member
      rw [nothing, redrawOrder, if_pos hidden]
    · have outside : ¬ InBranch nodes ignored p := fun inside => hidden (root inside)
      have children : ∀ c ∈ node.children, redrawOrder fuel nodes ignored c =
          (redrawOrder fuel nodes none c).filter fun q => ¬ InBranch nodes ignored q := by
        intro c member
        obtain ⟨childNode, childLive, -⟩ := forest.child live member
        exact ih childLive (inBranch_child forest live outside member).mp
      simp only [redrawOrder, hidden, live, if_false, reduceCtorEq]
      rw [List.filter_cons_of_pos (by simpa using outside), List.filter_flatMap]
      congr 1
      exact List.flatMap_congr children

theorem lastOf_of_filter {P Q : Nat → Prop} [DecidablePred Q] {l : List Nat} {result : Option Nat}
    (last : LastOf P (l.filter Q) result) : LastOf (fun q => Q q ∧ P q) l result := by
  cases result with
  | none =>
    intro q member both
    exact last q (List.mem_filter.mpr ⟨member, by simpa using both.1⟩) both.2
  | some p =>
    obtain ⟨holds, before, after, split, none_after⟩ := last
    obtain ⟨front, back, listSplit, -, backFilter⟩ := List.filter_eq_append_iff.mp split
    obtain ⟨skipped, rest, backSplit, -, kept, restFilter⟩ := List.filter_eq_cons_iff.mp backFilter
    refine ⟨⟨by simpa using kept, holds⟩, front ++ skipped, rest, ?_, ?_⟩
    · rw [listSplit, backSplit, List.append_assoc]
    · intro q member both
      refine none_after q ?_ both.2
      rw [← restFilter]
      exact List.mem_filter.mpr ⟨member, by simpa using both.1⟩

/-! ## What is drawn -/

theorem layersAll_map (screen : GraphicsInfo) (tree : Nat → GraphicsTree) (children : List Nat) :
    layersAll screen (children.map tree) = children.flatMap fun c => layers screen (tree c) := by
  induction children with
  | nil => rw [List.map_nil, layersAll, List.flatMap_nil]
  | cons c rest ih => rw [List.map_cons, layersAll, ih, List.flatMap_cons]

/-- What a node in memory paints. -/
def nodeLayer (screen : GraphicsInfo) (nodes : Nodes) (p : Nat) :
    Option (Layer UInt32 FramebufferPixel) :=
  (nodes p).map fun node => infoLayer screen node.info

theorem nodeLayer_eq {nodes : Nodes} {p : Nat} {node : GraphicsNode} (live : nodes p = some node)
    (screen : GraphicsInfo) : nodeLayer screen nodes p = some (infoLayer screen node.info) := by
  rw [nodeLayer, live, Option.map_some]

/-- The layers of the tree are those of the nodes in drawing order. -/
theorem layers_visibleTree (screen : GraphicsInfo) (nodes : Nodes) (hidden : Option Nat)
    (fuel p : Nat) :
    layers screen (visibleTree fuel nodes hidden p) =
      (redrawOrder fuel nodes hidden p).filterMap (nodeLayer screen nodes) := by
  induction fuel generalizing p with
  | zero => rw [visibleTree, layers, redrawOrder, List.filterMap_nil]
  | succ fuel ih =>
    rw [visibleTree, redrawOrder]
    split
    · rw [layers, List.filterMap_nil]
    · cases live : nodes p with
      | none => rw [layers, List.filterMap_nil]
      | some node =>
        dsimp only
        rw [layers, layersAll_map, List.filterMap_cons_some (nodeLayer_eq live screen),
          List.filterMap_flatMap]
        simp only [ih]

theorem nestedAll_map {outer : Rect} {tree : Nat → GraphicsTree} {children : List Nat}
    (each : ∀ c ∈ children, Nested outer (tree c)) : NestedAll outer (children.map tree) := by
  induction children with
  | nil => rw [List.map_nil, NestedAll]; trivial
  | cons c rest ih =>
    rw [List.map_cons, NestedAll]
    exact ⟨each c List.mem_cons_self, ih fun d member => each d (List.mem_cons_of_mem _ member)⟩

theorem nested_visibleTree {nodes : Nodes} {rank : Nat → Nat} {bound : Nat}
    (forest : Forest nodes rank bound) (nested : NestedNodes nodes) (hidden : Option Nat)
    (fuel : Nat) {p : Nat} {node : GraphicsNode} (live : nodes p = some node) {outer : Rect}
    (inside : (infoRect node.info).Inside outer) :
    Nested outer (visibleTree fuel nodes hidden p) := by
  induction fuel generalizing p node outer with
  | zero => rw [visibleTree, Nested]; trivial
  | succ fuel ih =>
    rw [visibleTree]
    split
    · rw [Nested]; trivial
    · simp only [live]
      rw [Nested]
      refine ⟨inside, nestedAll_map fun c member => ?_⟩
      obtain ⟨childNode, childLive, parent⟩ := forest.child live member
      exact ih childLive (nested c childNode p node childLive parent live)

/-- With enough fuel every node of a subtree is drawn. -/
theorem mem_redrawOrder_of_below {nodes : Nodes} {rank : Nat → Nat} {bound : Nat}
    (forest : Forest nodes rank bound) {fuel p q : Nat} {node : GraphicsNode}
    (live : nodes p = some node) (enough : bound ≤ fuel + rank p) (below : Below nodes p q) :
    q ∈ redrawOrder fuel nodes none p := by
  induction fuel generalizing p node with
  | zero =>
    have := forest.rank_bound live
    omega
  | succ fuel ih =>
    simp only [redrawOrder, reduceCtorEq, if_false, live, List.mem_cons, List.mem_flatMap]
    rcases (forest.below_iff live).mp below with same | ⟨c, member, inChild⟩
    · exact .inl same
    · obtain ⟨childNode, childLive, parent⟩ := forest.child live member
      have := forest.rank_lt childLive parent
      exact .inr ⟨c, member, ih childLive (by omega) inChild⟩

/-- A layer is clear where the node's rectangle does not cover the point. -/
theorem infoLayer_clear (screen : Screen) {nodes : Nodes} {x y : UInt64}
    (onScreenX : x.toNat < screen.info.horizontalResolution.toNat)
    (onScreenY : y.toNat < screen.info.verticalResolution.toNat) {p : Nat} {node : GraphicsNode}
    (live : nodes p = some node) (uncovered : ¬ CoversPoint nodes x y p) :
    infoLayer screen.info node.info (pixelIndex screen.info x.toNat y.toNat) = none := by
  rw [infoLayer_eq, if_neg]
  rintro ⟨left, right, top, bottom⟩
  rw [column_pixelIndex screen onScreenX onScreenY] at left right
  rw [row_pixelIndex screen onScreenX onScreenY] at top bottom
  exact uncovered ⟨node, live, left, right, top, bottom⟩

/-- The last node drawn over a point leaves its pixel there when it is not transparent. -/
theorem redraw_lastOf (screen : Screen) {nodes : Nodes} {rank : Nat → Nat} {bound : Nat}
    (forest : Forest nodes rank bound) (nested : NestedNodes nodes) {root p : Nat}
    {rootNode node : GraphicsNode} (rootLive : nodes root = some rootNode)
    (isScreen : rootNode.info = screen.info) (hidden : Option Nat) {x y : UInt64}
    (onScreenX : x.toNat < screen.info.horizontalResolution.toNat)
    (onScreenY : y.toNat < screen.info.verticalResolution.toNat) {fuel : Nat}
    (last : LastOf (CoversPoint nodes x y) (redrawOrder fuel nodes hidden root) (some p))
    (live : nodes p = some node) (solid : node.info.transparencyKey = noTransparencyColor)
    (framebuffer : Framebuffer) :
    graphicsRedraw screen.info (visibleTree fuel nodes hidden root) framebuffer
        (pixelIndex screen.info x.toNat y.toNat) =
      node.info.pixels (.ofNat ((y.toNat - node.info.startingY.toNat) * node.info.width.toNat +
        (x.toNat - node.info.startingX.toNat))) := by
  obtain ⟨⟨node', live', left, right, top, bottom⟩, before, after, split, none_after⟩ := last
  rw [live, Option.some.injEq] at live'
  subst live'
  have inside : Nested (infoRect screen.info) (visibleTree fuel nodes hidden root) :=
    nested_visibleTree forest nested hidden fuel rootLive (by rw [isScreen]; exact .refl _)
  rw [graphicsRedraw_eq_paintAll screen (.refl _) inside, layers_visibleTree, split,
    List.filterMap_append, paintAll_append,
    List.filterMap_cons_some (nodeLayer_eq live screen.info), paintAll_cons, paintAll_of_none_at]
  · have covers : (infoRect node.info).Covers screen.info
        (pixelIndex screen.info x.toNat y.toNat) := by
      rw [Rect.Covers, column_pixelIndex screen onScreenX onScreenY,
        row_pixelIndex screen onScreenX onScreenY]
      exact ⟨left, right, top, bottom⟩
    have shown : isTransparent node.info = fun _ => false := by
      funext p
      simp [isTransparent, solid]
    rw [paint, infoLayer_eq, if_pos covers, drawnPixel, shown,
      column_pixelIndex screen onScreenX onScreenY, row_pixelIndex screen onScreenX onScreenY]
    rfl
  · intro layer member
    obtain ⟨q, inAfter, isLayer⟩ := List.mem_filterMap.mp member
    obtain ⟨g, liveQ, rfl⟩ := Option.map_eq_some_iff.mp isLayer
    exact infoLayer_clear screen onScreenX onScreenY liveQ (none_after q inAfter)

/-- In a tree rooted at the screen whose rectangles are nested, `graphics_get_at_screen_position`
finds the last node that `graphics_redraw_all` draws over the point outside the ignored branch,
and nothing only when there is none.  When nothing is transparent, its pixel is the one that a
redraw without the ignored branch leaves on the screen. -/
theorem getAtScreenPosition_lastOf {nodes : Nodes} {screen : Nat} (tree : ScreenTree screen nodes)
    (nested : NestedNodes nodes) {screenNode : GraphicsNode} (live : nodes screen = some screenNode)
    (ignored : Option Nat) (x y : UInt64) (onScreenX : x < screenNode.info.width.toUInt64)
    (onScreenY : y < screenNode.info.height.toUInt64) :
    ∃ enough, ∀ fuel ≥ enough,
      (∀ q, q ∈ redrawOrder fuel nodes none screen ↔ (nodes q).isSome) ∧
      ∃ result, graphicsGetAtScreenPosition fuel nodes screen x y ignored true = some result ∧
        LastOf (fun q => ¬ InBranch nodes ignored q ∧ CoversPoint nodes x y q)
          (redrawOrder fuel nodes none screen) result ∧
        ∀ display : Screen, display.info = screenNode.info → ∀ p node, result = some p →
          nodes p = some node → node.info.transparencyKey = noTransparencyColor →
          ∀ framebuffer,
            graphicsRedraw display.info (visibleTree fuel nodes ignored screen) framebuffer
                (pixelIndex display.info x.toNat y.toNat) =
              node.info.pixels (.ofNat ((y.toNat - node.info.startingY.toNat) *
                node.info.width.toNat + (x.toNat - node.info.startingX.toNat))) := by
  obtain ⟨rank, bound, forest⟩ := tree.forest
  obtain ⟨root, rootLive, rootParent, originX, originY⟩ := tree.root
  rw [live, Option.some.injEq] at rootLive
  subst rootLive
  rw [UInt64.lt_iff_toNat_lt, UInt32.toNat_toUInt64] at onScreenX onScreenY
  have belowScreen : ∀ {q g}, nodes q = some g → Below nodes screen q := fun liveQ =>
    forest.below_of_rooted tree.rooted liveQ
  have small : ∀ q g, nodes q = some g →
      (infoRect g.info).right < 2 ^ 32 ∧ (infoRect g.info).bottom < 2 ^ 32 := by
    intro q g liveQ
    have inside := inside_of_below forest nested (belowScreen liveQ) live liveQ
    have right := inside.right
    have bottom := inside.bottom
    have := screenNode.info.width.toNat_lt
    have := screenNode.info.height.toNat_lt
    simp only [infoRect, originX, originY, UInt32.toNat_zero] at right bottom ⊢
    omega
  have covers : CoversPoint nodes x y screen := by
    refine ⟨screenNode, live, ?_⟩
    simp only [infoRect, originX, originY, UInt32.toNat_zero]
    omega
  refine ⟨bound + 1, fun fuel enough => ⟨fun q => ⟨fun member => ?_, fun liveQ => ?_⟩, ?_⟩⟩
  · exact isSome_of_mem_redrawOrder member
  · obtain ⟨g, liveQ⟩ := Option.isSome_iff_exists.mp liveQ
    exact mem_redrawOrder_of_below forest live (by omega) (belowScreen liveQ)
  · classical
    have order := @redrawOrder_hidden nodes rank bound forest ignored _ fuel screen screenNode live
      (by
        rintro ⟨i, isIgnored, below⟩
        rw [isIgnored, (below_root_iff live rootParent).mp below])
    obtain ⟨fuel, rfl⟩ : ∃ k, fuel = k + 1 := ⟨fuel - 1, by omega⟩
    by_cases hidden : ignored = some screen
    -- The whole screen is ignored.
    · refine ⟨none, ?_, ?_, by simp⟩
      · subst hidden
        simp [graphicsGetAtScreenPosition, graphicsGetChildAtPosition, graphicsIsInIgnoredBranch]
      · intro q member both
        exact both.1 ⟨screen, hidden, below_of_mem_redrawOrder forest member⟩
    · have outside : ¬ InBranch nodes ignored screen := by
        rintro ⟨i, isIgnored, below⟩
        rw [(below_root_iff live rootParent).mp below] at isIgnored
        exact hidden isIgnored
      obtain ⟨result, found, last⟩ := getChildAtPosition_lastOf forest nested small
        (show bound ≤ fuel + 1 by omega) (show bound ≤ fuel + 1 + rank screen by omega)
        outside covers
      refine ⟨some result, found, lastOf_of_filter (order ▸ last), ?_⟩
      rintro display isScreen p node ⟨⟩ liveP solid framebuffer
      refine redraw_lastOf display forest nested live isScreen.symm ignored ?_ ?_ last liveP solid
        framebuffer
      · rw [← display.wide, isScreen]
        exact onScreenX
      · rw [← display.high, isScreen]
        exact onScreenY

theorem getAtScreenPosition_oneWindow : ScreenTree 1 oneWindow ∧ NestedNodes oneWindow ∧
    ∃ enough, ∀ fuel ≥ enough, ∃ result,
      graphicsGetAtScreenPosition fuel oneWindow 1 30 40 none true = some result ∧
      LastOf (fun q => ¬ InBranch oneWindow none q ∧ CoversPoint oneWindow 30 40 q)
        (redrawOrder fuel oneWindow none 1) result := by
  have tree : ScreenTree 1 oneWindow :=
    (placement_addChild (freeAlloc_room _) (placement_setup 1 emptyMode) rfl rfl rfl rfl
      (stackedNode_placed _ _ _ _ _ _ _ _)).toScreenTree
  have nested : NestedNodes oneWindow := by
    intro p node q parentNode live parent parentLive
    -- Only the window has a parent, the screen.
    have isWindow : p = 2 := by
      by_contra other
      by_cases isScreen : p = 1
      · subst isScreen
        rw [oneWindow, addChild_source, Option.some.injEq] at live
        subst live
        simp [GraphicsNode.withChildren, screenNode] at parent
      · rw [oneWindow, addChild_other isScreen other] at live
        simp [setupNodes, Nodes.set, isScreen] at live
    subst isWindow
    rw [oneWindow, addChild_new (by decide), Option.some.injEq] at live
    subst live
    simp only [stackedNode, newNode, GraphicsNode.withZIndex, Option.some.injEq] at parent
    subst parent
    rw [oneWindow, addChild_source, Option.some.injEq] at parentLive
    subst parentLive
    refine ⟨?_, ?_, ?_, ?_⟩ <;> decide
  obtain ⟨enough, found⟩ := getAtScreenPosition_lastOf tree nested addChild_source none 30 40
    (by decide) (by decide)
  refine ⟨tree, nested, enough, fun fuel le => ?_⟩
  obtain ⟨result, ran, last, -⟩ := (found fuel le).2
  exact ⟨result, ran, last⟩

end ViOS.Graphics
