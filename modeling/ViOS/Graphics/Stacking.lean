import ViOS.Graphics.WindowSystem
import ViOS.Lib.Run

/-! # The cursor on top

`mouse_register` gives the window of the cursor the number `MOUSE_GRAPHIC_ZINDEX`.  A
window that is brought to the top gets one more than the last child of the screen, and
that child is the cursor's root.  Without memory the children are not sorted, and a new
root stays behind the cursor's whatever its number.

* `OnTop` — the root of a window is the last child of the screen.
* `SortedWindows` — the children of the screen are in the order of their numbers.
* `KeepsCursor` — the calls that leave the cursor on top.
* `cursor_onTop_run` — a run of such calls keeps the cursor on top, and no other run does
  in which the children are always sorted.
-/

namespace ViOS.Graphics

open ViOS.Lib
open scoped List

/-- `MOUSE_GRAPHIC_ZINDEX`. -/
def mouseGraphicZindex : Int32 := 100000

/-- The root of the window is the last child of the screen, the one drawn last. -/
def OnTop (screen cursor : Nat) (s : WindowSystem) : Prop :=
  (stack screen s.nodes).getLast? = some (rootOf s cursor)

/-- No child of the screen has a greater number. -/
def NoneAbove (screen cursor : Nat) (s : WindowSystem) : Prop :=
  ∀ q ∈ stack screen s.nodes, zIndexOf s.nodes q ≤ zIndexOf s.nodes (rootOf s cursor)

/-- A call that is not about the cursor's window, of the kinds that applications cause. -/
def OnOther (cursor : Nat) : WindowOp → Prop
  | .create _ => True
  | .focus w _ | .bringToTop w _ | .close w _ => w ≠ cursor
  | .setZIndex _ _ _ | .positionSet _ _ _ => False

def OtherCall (screen cursor : Nat) (s : WindowSystem) (op : WindowOp) (after : WindowSystem) :
    Prop :=
  OnOther cursor op ∧ WindowCall screen s op after

/-- The calls that leave the cursor on top: no window gets the focus, and a root that a failed
creation leaves behind has a smaller number and is sorted in. -/
def KeepsCursor (screen : Nat) (s : WindowSystem) : WindowOp → Prop
  | .create request => ∀ screenNode, s.nodes screen = some screenNode →
    request.RootSucceeds screenNode →
      ¬ request.PartsSucceed screen screenNode ∧ request.root.buffers = true ∧
        UInt32.ofNat (screenNode.children.length + 1) < mouseGraphicZindex.toUInt32
  | .focus w _ => s.focusedWindow = some w
  | .bringToTop _ _ => False
  | .setZIndex _ _ _ | .positionSet _ _ _ | .close _ _ => True

/-- The children of the screen are sorted where the call has them sorted. -/
def Sorts : WindowOp → Prop
  | .create request => request.root.buffers = true ∧ request.zIndex.children = true ∧
    request.focus.children = true
  | .focus _ buffers | .bringToTop _ buffers | .setZIndex _ _ buffers => buffers.children = true
  | .positionSet _ _ _ | .close _ _ => True

/-! ## The last of a sorted stack -/

/-- The last element stands behind every other one. -/
theorem getLast_iff {l : List Nat} (nodup : l.Nodup) {p : Nat} (member : p ∈ l) :
    l.getLast? = some p ↔ ∀ q ∈ l, q ≠ p → [q, p] <+ l := by
  constructor
  · intro last q inList apart
    obtain ⟨front, rfl⟩ := List.getLast?_eq_some_iff.mp last
    have inFront : q ∈ front := by simpa [apart] using inList
    exact (List.singleton_sublist.mpr inFront).append (.refl [p])
  · intro behind
    cases last : l.getLast? with
    | none =>
      rw [List.getLast?_eq_none_iff] at last
      simp [last] at member
    | some q =>
      by_cases same : q = p
      · rw [same]
      · obtain ⟨front, rfl⟩ := List.getLast?_eq_some_iff.mp last
        have inFront : p ∈ front := by simpa [Ne.symm same] using member
        have before : [p, q] <+ front ++ [q] :=
          (List.singleton_sublist.mpr inFront).append (.refl [q])
        exact absurd before (not_before_of_before nodup (behind q (by simp) same))

/-- The children of the screen stand in the order of their numbers. -/
structure SortedWindows (screen : Nat) (s : WindowSystem) : Prop extends WindowsOk screen s where
  sorted : (stack screen s.nodes).Pairwise fun p q => ¬ graphicsReorder s.nodes p q

theorem Restacked.sorted {screen p : Nat} {z : UInt32} {nodes after : Nodes}
    (restacked : Restacked screen p z true nodes after) (child : ChildOf nodes screen p) :
    (stack screen after).Pairwise fun p q => ¬ graphicsReorder after p q := by
  rw [restacked.stack_eq_reorder child]
  exact bubbleSort_pairwise (graphicsReorder_asymm after) (graphicsReorder_trans after) _

theorem RootAdded.sorted {screen new : Nat} {s : WindowSystem} {node : GraphicsNode} {alloc : NodeAlloc}
    {addresses : List Nat} {after : Nodes} (added : RootAdded screen new node alloc addresses s.nodes after)
    (ok : WindowsOk screen s) (fresh : ∀ p ∈ addresses, s.nodes p = none) (sorts : alloc.buffers = true) :
    (stack screen after).Pairwise fun p q => ¬ graphicsReorder after p q := by
  have sorted : (stack screen after).Pairwise fun p q => ¬ graphicsReorder (s.nodes.set new node) p q := by
    rw [added.stack_eq_reorder ok, sorts]
    exact bubbleSort_pairwise (graphicsReorder_asymm _) (graphicsReorder_trans _) _
  exact pairwise_reorder_congr sorted fun q member => (added.zIndexOf_sorted ok fresh member).symm

section Stack

variable {screen : Nat} {s : WindowSystem}

/-- The number for the next window is one more than that of the last child. -/
theorem topNumber_of_last {nodes : Nodes} {p : Nat} (last : (stack screen nodes).getLast? = some p) :
    topNumber screen nodes = zIndexOf nodes p + 1 := by
  rw [topNumber, last]

/-- The order of the children of the screen, when one of them gets another number. -/
theorem WindowsOk.before_restack_iff (ok : WindowsOk screen s) {p a b : Nat} {z : UInt32}
    {after : Nodes} (member : p ∈ stack screen s.nodes)
    (restacked : Restacked screen p z true s.nodes after)
    (inA : a ∈ stack screen s.nodes) (inB : b ∈ stack screen s.nodes) (apart : a ≠ b) :
    [a, b] <+ stack screen after ↔ zIndexOf after a < zIndexOf after b ∨
      (¬ zIndexOf after b < zIndexOf after a ∧ [a, b] <+ stack screen s.nodes) := by
  rw [restacked.stack_eq_reorder (mem_stack_iff.mp member), ← graphicsReorder_iff,
    ← graphicsReorder_iff]
  exact before_bubbleSort_iff (graphicsReorder_asymm _) (graphicsReorder_trans _) ok.stack_nodup
    inA inB apart

variable (ok : SortedWindows screen s)

include ok

/-- A node below another one has no greater number. -/
theorem SortedWindows.not_lt_of_before {p q : Nat} (before : [p, q] <+ stack screen s.nodes) :
    ¬ zIndexOf s.nodes q < zIndexOf s.nodes p := by
  rw [← graphicsReorder_iff]
  exact List.pairwise_iff_forall_sublist.mp ok.sorted before

/-- No child of the screen has a greater number than the last one. -/
theorem SortedWindows.le_of_last {p q : Nat} (last : (stack screen s.nodes).getLast? = some p)
    (member : q ∈ stack screen s.nodes) : zIndexOf s.nodes q ≤ zIndexOf s.nodes p := by
  by_cases same : q = p
  · rw [same]
    exact UInt32.le_refl _
  · have before := (getLast_iff ok.stack_nodup (List.mem_of_getLast? last)).mp last q member same
    exact UInt32.not_lt.mp (ok.not_lt_of_before before)

/-- The number for the next window is one more than the greatest one. -/
theorem SortedWindows.topNumber_eq {p : Nat} (member : p ∈ stack screen s.nodes)
    (greatest : ∀ q ∈ stack screen s.nodes, zIndexOf s.nodes q ≤ zIndexOf s.nodes p) :
    topNumber screen s.nodes = zIndexOf s.nodes p + 1 := by
  cases last : (stack screen s.nodes).getLast? with
  | none =>
    rw [List.getLast?_eq_none_iff] at last
    simp [last] at member
  | some q =>
    rw [topNumber_of_last last]
    exact congrArg (· + 1) (UInt32.le_antisymm (greatest q (List.mem_of_getLast? last))
      (ok.le_of_last last member))

end Stack

/-! ## One call -/

/-- The cursor's window is on top, with its number, which is the greatest. -/
structure CursorOnTop (screen cursor : Nat) (s : WindowSystem) : Prop
    extends WindowsOk screen s where
  member : cursor ∈ s.windowsVector
  number : zIndexOf s.nodes (rootOf s cursor) = mouseGraphicZindex.toUInt32
  last : OnTop screen cursor s
  greatest : NoneAbove screen cursor s

namespace CursorOnTop

variable {screen cursor : Nat} {s : WindowSystem} (onTop : CursorOnTop screen cursor s)

include onTop

theorem cursor_mem : rootOf s cursor ∈ stack screen s.nodes := onTop.root_mem onTop.member

theorem topNumber_eq : topNumber screen s.nodes = mouseGraphicZindex.toUInt32 + 1 := by
  rw [topNumber_of_last onTop.last, onTop.number]

end CursorOnTop

/-- A window that is brought to the top stands above the cursor. -/
theorem WindowsOk.restack_above {screen cursor w : Nat} {s : WindowSystem} {after : Nodes}
    (ok : WindowsOk screen s) (cursorMember : cursor ∈ s.windowsVector)
    (number : zIndexOf s.nodes (rootOf s cursor) = mouseGraphicZindex.toUInt32)
    (top : topNumber screen s.nodes = mouseGraphicZindex.toUInt32 + 1)
    (member : w ∈ s.windowsVector) (other : w ≠ cursor)
    (restacked : Restacked screen (rootOf s w) (topNumber screen s.nodes) true s.nodes after) :
    (stack screen after).getLast? ≠ some (rootOf s cursor) := by
  obtain ⟨rank, owned⟩ := ok.owned
  have inStack := ok.root_mem member
  have inCursor := ok.root_mem cursorMember
  have child := mem_stack_iff.mp inStack
  have apart : rootOf s cursor ≠ rootOf s w := fun same =>
    other (ok.distinct w member cursor cursorMember same.symm)
  have okAfter := ok.restack inStack restacked
  have above : [rootOf s cursor, rootOf s w] <+ stack screen after := by
    apply (ok.before_restack_iff inStack restacked inCursor inStack apart).mpr
    rw [restacked.zIndexOf_other child apart, restacked.zIndexOf_target owned child, number, top]
    exact .inl (by decide)
  intro last
  have inAfter : rootOf s w ∈ stack screen after := above.subset (by simp)
  have cursorAfter : rootOf s cursor ∈ stack screen after := above.subset (by simp)
  exact not_before_of_before okAfter.stack_nodup above
    ((getLast_iff okAfter.stack_nodup cursorAfter).mp last _ inAfter (Ne.symm apart))

section Create

variable {screen cursor new : Nat} {s : WindowSystem} {screenNode : GraphicsNode}
  {request : WindowRequest} {nodes : Nodes} (onTop : CursorOnTop screen cursor s)
  (fresh : request.Fresh s)
  (isNew : request.root.newGraphics = some new)
  (added : RootAdded screen new (request.rootNode screen screenNode) request.root request.addresses
    s.nodes nodes)

include onTop fresh isNew added

/-- A root that is left behind stands above the cursor, unless its number is smaller. -/
theorem rootAdded_onTop_iff (sorts : request.root.buffers = true) : (stack screen nodes).getLast? = some (rootOf s cursor) ↔
    UInt32.ofNat (screenNode.children.length + 1) < mouseGraphicZindex.toUInt32 := by
  have ok := onTop.toWindowsOk
  have freshNew := fresh.root isNew
  have okAfter := added.windowsOk ok
  have oldCursor := onTop.cursor_mem
  have cursorMem : rootOf s cursor ∈ stack screen nodes :=
    (added.mem_stack ok).mpr (.inl oldCursor)
  have newMem : new ∈ stack screen nodes := (added.mem_stack ok).mpr (.inr rfl)
  have apart : new ≠ rootOf s cursor := by
    intro same
    obtain ⟨g, live, -⟩ := ok.live_of_mem_stack oldCursor
    rw [← same, freshNew] at live
    exact absurd live (by simp)
  have numberNew : zIndexOf nodes new = .ofNat (screenNode.children.length + 1) :=
    added.zIndexOf_new
  have numberCursor : zIndexOf nodes (rootOf s cursor) = mouseGraphicZindex.toUInt32 := by
    rw [added.zIndexOf_other ok fresh.nodes oldCursor, onTop.number]
  rw [getLast_iff okAfter.stack_nodup cursorMem, ← numberNew, ← numberCursor]
  constructor
  · intro behind
    cases (added.before_iff ok fresh.nodes freshNew sorts newMem cursorMem apart).mp
      (behind new newMem apart) with
    | inl less => exact less
    | inr same =>
      -- The new root was added behind the cursor.
      have before : [rootOf s cursor, new] <+ stack screen s.nodes ++ [new] :=
        (List.singleton_sublist.mpr oldCursor).append (.refl [new])
      exact absurd same.2 (not_before_of_before (ok.nodup_stack_new freshNew) before)
  · intro less q inStack notCursor
    apply (added.before_iff ok fresh.nodes freshNew sorts inStack cursorMem notCursor).mpr
    cases (added.mem_stack ok).mp inStack with
    | inl old =>
      rw [added.zIndexOf_other ok fresh.nodes old, added.zIndexOf_other ok fresh.nodes oldCursor]
      refine .inr ⟨UInt32.not_lt.mpr (onTop.greatest q old), ?_⟩
      exact ((getLast_iff ok.stack_nodup oldCursor).mp onTop.last q old notCursor).trans
        (List.sublist_append_left _ _)
    | inr isNew => exact .inl (isNew ▸ less)

omit isNew in
/-- Nor is the new number the greatest then. -/
theorem rootAdded_noneAbove
    (small : UInt32.ofNat (screenNode.children.length + 1) < mouseGraphicZindex.toUInt32) :
    NoneAbove screen cursor { s with nodes } := by
  have ok := onTop.toWindowsOk
  intro q inStack
  show zIndexOf nodes q ≤ zIndexOf nodes (rootOf s cursor)
  rw [added.zIndexOf_other ok fresh.nodes onTop.cursor_mem]
  cases (added.mem_stack ok).mp inStack with
  | inl old =>
    rw [added.zIndexOf_other ok fresh.nodes old]
    exact onTop.greatest q old
  | inr isLast =>
    rw [isLast, onTop.number, added.zIndexOf_new]
    exact UInt32.le_of_lt small

/-- A new window covers the cursor. -/
theorem pushed_not_onTop {w : Nat} {after : WindowSystem} (isWindow : request.window = some w)
    (sorts : Sorts (.create request)) (pushed : Pushed screen w new s nodes after request) :
    ¬ OnTop screen cursor after := by
  obtain ⟨middle, last, restacked, okMiddle, restackedAgain, rfl⟩ := pushed
  obtain ⟨-, sortsFirst, sortsAgain⟩ := sorts
  rw [sortsFirst] at restacked
  rw [sortsAgain] at restackedAgain
  have ok := onTop.toWindowsOk
  have okAdded := added.windowsOk ok
  obtain ⟨rank, owned⟩ := okAdded.owned
  have newMem : new ∈ stack screen nodes := (added.mem_stack ok).mpr (.inr rfl)
  have child := mem_stack_iff.mp newMem
  have notCursor : w ≠ cursor := fun same =>
    ok.not_mem_of_fresh (fresh.window w isWindow) (same ▸ onTop.member)
  have rootNew : rootOf ({ s with nodes := middle }.push w (request.newWindow new)) w = new :=
    rootOf_push_self
  have rootCursor : rootOf ({ s with nodes := middle }.push w (request.newWindow new)) cursor =
      rootOf s cursor := rootOf_push_other (Ne.symm notCursor)
  have oldCursor := onTop.cursor_mem
  have apart : rootOf s cursor ≠ new := by
    intro same
    obtain ⟨g, live, -⟩ := ok.live_of_mem_stack oldCursor
    rw [same, fresh.root isNew] at live
    exact absurd live (by simp)
  -- Between the two calls that stack the window the cursor still has the greatest number.
  have number : ∀ {q}, q ∈ stack screen s.nodes → q ≠ new →
      zIndexOf middle q = zIndexOf s.nodes q := by
    intro q old notNew
    rw [restacked.zIndexOf_other child notNew, added.zIndexOf_other ok fresh.nodes old]
  have numberNew : zIndexOf middle new = .ofNat (request.parts.length + 1) :=
    restacked.zIndexOf_target owned child
  have cursorNumber : zIndexOf middle (rootOf s cursor) = mouseGraphicZindex.toUInt32 := by
    rw [number oldCursor apart, onTop.number]
  have sameChildren : ∀ {q}, q ∈ stack screen middle ↔ q ∈ stack screen nodes := by
    intro q
    rw [mem_stack_iff, (restacked.relinked owned child).childOf_iff, ← mem_stack_iff]
  have greatest : ∀ q ∈ stack screen middle,
      zIndexOf middle q ≤ zIndexOf middle (rootOf s cursor) := by
    intro q inStack
    by_cases isNew : q = new
    · rw [isNew, cursorNumber, numberNew]
      cases request.parts_length with
      | inl borderless => rw [borderless]; decide
      | inr bordered => rw [bordered]; decide
    · have old := ((added.mem_stack ok).mp (sameChildren.mp inStack)).resolve_right isNew
      rw [number oldCursor apart, number old isNew]
      exact onTop.greatest q old
  have sortedMiddle : SortedWindows screen ({ s with nodes := middle }.push w (request.newWindow new)) :=
    ⟨okMiddle, restacked.sorted child⟩
  have cursorMiddle : rootOf s cursor ∈ stack screen middle :=
    sameChildren.mpr ((added.mem_stack ok).mpr (.inl oldCursor))
  refine okMiddle.restack_above (List.mem_append_left _ onTop.member)
    (rootCursor.symm ▸ cursorNumber) ?_ (by simp [WindowSystem.push]) notCursor
    (rootNew.symm ▸ restackedAgain)
  exact (sortedMiddle.topNumber_eq cursorMiddle greatest).trans (congrArg (· + 1) cursorNumber)

end Create

section Step

variable {screen cursor : Nat} {s after : WindowSystem} {op : WindowOp}
  (call : OtherCall screen cursor s op after) (served : Served s op)
  (onTop : CursorOnTop screen cursor s)

include call served onTop

theorem otherCall_preserves (keeps : KeepsCursor screen s op) : CursorOnTop screen cursor after := by
  obtain ⟨other, call⟩ := call
  have okAfter := windowStep_ok ⟨served, call⟩ onTop.toWindowsOk
  obtain ⟨screenNode, screenLive, -⟩ := onTop.top
  cases op with
  | create request =>
    obtain ⟨fresh, result, created⟩ := call
    rcases windowCreate_spec onTop.toWindowsOk screenLive served fresh created with ⟨-, rfl⟩ |
      ⟨rootSucceeds, w, new, nodes, isWindow, isNew, added, okRoot, ⟨-, rfl⟩ | ⟨succeeds, -⟩⟩
    · exact onTop
    · obtain ⟨-, sorts, small⟩ := keeps screenNode screenLive rootSucceeds
      refine ⟨okAfter, onTop.member, ?_, (rootAdded_onTop_iff onTop fresh isNew added sorts).mpr small,
        rootAdded_noneAbove onTop fresh added small⟩
      exact (added.zIndexOf_other onTop.toWindowsOk fresh.nodes onTop.cursor_mem).trans onTop.number
    · exact absurd succeeds (keeps screenNode screenLive rootSucceeds).1
  | focus w buffers =>
    have already : s.focusedWindow = some w := keeps
    have same : some s = some after := by
      rw [← call.2, windowFocus, if_pos already]
    rw [Option.some.injEq] at same
    exact same ▸ onTop
  | bringToTop w buffers => exact keeps.elim
  | setZIndex w zindex buffers => exact other.elim
  | positionSet w newX newY => exact other.elim
  | close w buffers =>
    obtain ⟨member, fuel, closed⟩ := call
    obtain ⟨effect, -⟩ := onTop.toWindowsOk.close served member closed
    have notCursor : cursor ≠ w := Ne.symm other
    have sameRoot : rootOf after cursor = rootOf s cursor := by
      rw [rootOf, effect.window cursor notCursor, rootOf]
    have apart : rootOf s cursor ≠ rootOf s w := fun same =>
      notCursor (onTop.distinct cursor onTop.member w member same)
    have stays : cursor ∈ after.windowsVector := by
      rw [effect.vector]
      exact (List.mem_erase_of_ne notCursor).mpr onTop.member
    have old : ∀ {q}, q ∈ stack screen after.nodes → q ∈ stack screen s.nodes ∧ q ≠ rootOf s w := by
      intro q inStack
      rw [effect.popped] at inStack
      exact ⟨List.mem_of_mem_erase inStack, fun same => onTop.stack_nodup.not_mem_erase (same ▸ inStack)⟩
    have number : ∀ {q}, q ∈ stack screen s.nodes → q ≠ rootOf s w →
        zIndexOf after.nodes q = zIndexOf s.nodes q := by
      intro q inStack notClosed
      rw [zIndexOf, effect.frame q inStack notClosed, zIndexOf]
    refine ⟨okAfter, stays, ?_, ?_, fun q inStack => ?_⟩
    · rw [sameRoot, number onTop.cursor_mem apart, onTop.number]
    · rw [OnTop, sameRoot]
      apply (getLast_iff okAfter.stack_nodup (sameRoot ▸ okAfter.root_mem stays)).mpr
      intro q inStack notRoot
      obtain ⟨inBefore, notClosed⟩ := old inStack
      rw [effect.popped]
      have before := (getLast_iff onTop.stack_nodup onTop.cursor_mem).mp onTop.last q inBefore notRoot
      -- The closed root is neither of the two.
      have kept : [q, rootOf s cursor].erase (rootOf s w) = [q, rootOf s cursor] := by
        apply List.erase_of_not_mem
        simp [Ne.symm notClosed, Ne.symm apart]
      exact kept ▸ before.erase (rootOf s w)
    · obtain ⟨inBefore, notClosed⟩ := old inStack
      rw [sameRoot, number inBefore notClosed, number onTop.cursor_mem apart]
      exact onTop.greatest q inBefore

theorem otherCall_spoils (sorts : Sorts op) (spoils : ¬ KeepsCursor screen s op) :
    ¬ OnTop screen cursor after := by
  obtain ⟨other, call⟩ := call
  have ok := onTop.toWindowsOk
  obtain ⟨screenNode, screenLive, -⟩ := ok.top
  cases op with
  | create request =>
    obtain ⟨fresh, result, created⟩ := call
    rcases windowCreate_spec ok screenLive served fresh created with ⟨fails, -⟩ |
      ⟨-, w, new, nodes, isWindow, isNew, added, okRoot, ⟨fails, rfl⟩ | ⟨-, pushed⟩⟩
    · refine absurd ?_ spoils
      intro node live succeeds
      rw [screenLive, Option.some.injEq] at live
      exact absurd (live ▸ succeeds) fails
    · intro isLast
      have small := (rootAdded_onTop_iff onTop fresh isNew added sorts.1).mp isLast
      refine spoils ?_
      intro node live _
      rw [screenLive, Option.some.injEq] at live
      subst live
      exact ⟨fails, sorts.1, small⟩
    · exact pushed_not_onTop onTop fresh isNew added isWindow sorts pushed
  | focus w buffers =>
    obtain ⟨member, focused⟩ := call
    rcases ok.focus member buffers with ⟨already, -⟩ | ⟨-, nodes, brought, restacked⟩
    · exact absurd already spoils
    · rw [brought, Option.some.injEq] at focused
      subst focused
      rw [show buffers.children = true from sorts] at restacked
      exact ok.restack_above onTop.member onTop.number onTop.topNumber_eq member other restacked
  | bringToTop w buffers =>
    obtain ⟨member, brought⟩ := call
    obtain ⟨nodes, set, restacked⟩ := ok.bringToTop member buffers
    rw [set, Option.some.injEq] at brought
    subst brought
    rw [show buffers.children = true from sorts] at restacked
    exact ok.restack_above onTop.member onTop.number onTop.topNumber_eq member other restacked
  | setZIndex w zindex buffers => exact other.elim
  | positionSet w newX newY => exact other.elim
  | close w buffers => exact absurd trivial spoils

end Step

/-! ## Every run -/

/-- Behind any calls on windows, let the window of the cursor be given its number.  It is on top in
every later state, as long as the calls are about other windows, if it is on top to begin with, with
the greatest number, and each of the calls leaves it there.  Where the children of the screen are
always sorted, it is on top only then. -/
theorem cursor_onTop_run (screen : Nat) (mode : GraphicsInfo)
    (before : List (WindowOp × WindowSystem))
    (isBefore : IsRun (WindowStep screen) (setupWindows screen mode) before) (s : WindowSystem)
    (reached : s ∈ runStates (setupWindows screen mode) before) (cursor : Nat)
    (member : cursor ∈ s.windowsVector) (buffers : StackBuffers) (start : WindowSystem)
    (given : windowSetZIndex s cursor mouseGraphicZindex buffers = some start)
    (run : List (WindowOp × WindowSystem)) (isRun : IsRun (OtherCall screen cursor) start run) :
    (OnTop screen cursor start → NoneAbove screen cursor start →
      EveryStep (fun s op => Served s op ∧ KeepsCursor screen s op) start run →
        ∀ t ∈ runStates start run, OnTop screen cursor t) ∧
    (buffers.children = true → EveryStep (fun s op => Served s op ∧ Sorts op) start run →
      ((∀ t ∈ runStates start run, OnTop screen cursor t) ↔
        OnTop screen cursor start ∧ EveryStep (KeepsCursor screen) start run)) := by
  have ok := windowRun_ok isBefore reached
  obtain ⟨nodes, set, restacked⟩ := ok.setZIndex member mouseGraphicZindex buffers
  rw [set, Option.some.injEq] at given
  subst given
  have inStack := ok.root_mem member
  obtain ⟨rank, owned⟩ := ok.owned
  have okStart := ok.restack inStack restacked
  have initial : OnTop screen cursor { s with nodes } → NoneAbove screen cursor { s with nodes } →
      CursorOnTop screen cursor { s with nodes } := fun onTop greatest =>
    ⟨okStart, member, restacked.zIndexOf_target owned (mem_stack_iff.mp inStack), onTop, greatest⟩
  constructor
  · intro onTop greatest keeps t atT
    have preserves : ∀ s op t, OtherCall screen cursor s op t →
        Served s op ∧ KeepsCursor screen s op → CursorOnTop screen cursor s →
        CursorOnTop screen cursor t :=
      fun _ _ _ call keeps inv => otherCall_preserves call keeps.1 inv keeps.2
    exact (inv_of_everyStep preserves isRun keeps (initial onTop greatest) t atT).last
  · intro sorted allSort
    rw [sorted] at restacked
    have sortedStart : SortedWindows screen { s with nodes } :=
      ⟨okStart, restacked.sorted (mem_stack_iff.mp inStack)⟩
    -- The last of the sorted children has the greatest number.
    have onTopIff : OnTop screen cursor { s with nodes } →
        ((∀ t ∈ runStates { s with nodes } run, OnTop screen cursor t) ↔
          EveryStep (KeepsCursor screen) { s with nodes } run) := by
      intro onTop
      have preserves : ∀ s op t, (Served s op ∧ Sorts op) ∧ OtherCall screen cursor s op t →
          KeepsCursor screen s op → CursorOnTop screen cursor s → CursorOnTop screen cursor t :=
        fun _ _ _ step keeps inv => otherCall_preserves step.2 step.1.1 inv keeps
      have spoils : ∀ s op t, (Served s op ∧ Sorts op) ∧ OtherCall screen cursor s op t →
          ¬ KeepsCursor screen s op → CursorOnTop screen cursor s → ¬ OnTop screen cursor t :=
        fun _ _ _ step spoils inv => otherCall_spoils step.2 step.1.1 inv step.1.2 spoils
      exact good_iff_everyStep (fun _ inv => inv.last) preserves spoils
        (isRun_of_everyStep isRun allSort)
        (initial onTop fun q inStack => sortedStart.le_of_last onTop inStack)
    constructor
    · intro allOnTop
      have onTop : OnTop screen cursor { s with nodes } := allOnTop _ List.mem_cons_self
      exact ⟨onTop, (onTopIff onTop).mp allOnTop⟩
    · rintro ⟨onTop, allKeep⟩
      exact (onTopIff onTop).mpr allKeep

/-! ## The cursor and one other window -/

/-- The request of `mouse_register` in the middle of the screen. -/
def cursorRequest : WindowRequest where
  x := 320
  y := 240
  width := 10
  height := 10
  flags := 0b111
  window := some 100
  eventHandlers := true
  root := freeAlloc (some 10)
  titleBar := freeAlloc none
  borderLeft := freeAlloc none
  borderRight := freeAlloc none
  borderBottom := freeAlloc none
  body := freeAlloc (some 11)
  titleBarTerminal := false
  terminal := true
  push := .room
  zIndex := allBuffers
  focus := allBuffers
  pop := true

theorem cursorRequest_served : cursorRequest.Served where
  nodes alloc member := by
    have borderless : cursorRequest.borderless = true := by decide
    simp only [WindowRequest.allocs, WindowRequest.parts, borderless, if_true, List.map_cons, List.map_nil,
      List.mem_cons, List.not_mem_nil, or_false] at member
    rcases member with rfl | rfl
    all_goals exact freeAlloc_room _
  window := rfl

/-- A window at (100, 100), and the cursor. -/
def cursorSystem : WindowSystem :=
  createdOn (createdOn (setupWindows 1 emptyMode) (windowRequest 100 200 20)) cursorRequest

/-- The cursor has its number. -/
def mouseSystem : WindowSystem :=
  (windowSetZIndex cursorSystem 100 mouseGraphicZindex allBuffers).getD cursorSystem

def cursorRun : List (WindowOp × WindowSystem) :=
  [(.create (windowRequest 100 200 20),
      createdOn (setupWindows 1 emptyMode) (windowRequest 100 200 20)),
    (.create cursorRequest, cursorSystem)]

theorem isRun_cursorRun : IsRun (WindowStep 1) (setupWindows 1 emptyMode) cursorRun := by
  refine ⟨?_, ?_, trivial⟩
  · exact windowStep_createdOn (windowRequest_served _ _ _) rfl (by decide +kernel) (by decide +kernel)
      (by decide +kernel) (by decide +kernel)
  · exact windowStep_createdOn cursorRequest_served rfl (by decide +kernel) (by decide +kernel)
      (by decide +kernel) (by decide +kernel)

theorem cursorSystem_mem : cursorSystem ∈ runStates (setupWindows 1 emptyMode) cursorRun := by
  simp [cursorRun]

instance (screen cursor : Nat) (s : WindowSystem) : Decidable (OnTop screen cursor s) :=
  inferInstanceAs (Decidable (_ = _))

instance (screen cursor : Nat) (s : WindowSystem) : Decidable (NoneAbove screen cursor s) :=
  inferInstanceAs (Decidable (∀ _ ∈ _, _ ≤ _))

/-- A click on the other window covers the cursor. -/
theorem cursor_covered_by_focus : ∃ before s cursor start run,
    IsRun (WindowStep 1) (setupWindows 1 emptyMode) before ∧
    s ∈ runStates (setupWindows 1 emptyMode) before ∧ cursor ∈ s.windowsVector ∧
    windowSetZIndex s cursor mouseGraphicZindex allBuffers = some start ∧
    IsRun (OtherCall 1 cursor) start run ∧ run.map Prod.fst = [.focus 200 allBuffers] ∧
    OnTop 1 cursor start ∧ ∃ t ∈ runStates start run, ¬ OnTop 1 cursor t := by
  have focused : windowFocus 1 mouseSystem 200 allBuffers =
      some ((windowFocus 1 mouseSystem 200 allBuffers).getD mouseSystem) :=
    eq_some_getD (by decide +kernel) _
  refine ⟨cursorRun, cursorSystem, 100, mouseSystem,
    [(.focus 200 allBuffers, (windowFocus 1 mouseSystem 200 allBuffers).getD mouseSystem)], isRun_cursorRun,
    cursorSystem_mem, by decide +kernel, eq_some_getD (by decide +kernel) _,
    ⟨⟨by simp [OnOther], by decide +kernel, focused⟩, trivial⟩, rfl, by decide +kernel, ?_⟩
  exact ⟨(windowFocus 1 mouseSystem 200 allBuffers).getD mouseSystem, by simp, by decide +kernel⟩

def closeAll : CloseBuffers := ⟨true, fun _ => true⟩

/-- The cursor stays on top when the other window is closed. -/
theorem cursor_onTop_run_close : ∃ run : List (WindowOp × WindowSystem),
    run.map Prod.fst = [.close 200 closeAll] ∧ IsRun (OtherCall 1 100) mouseSystem run ∧
      ∀ t ∈ runStates mouseSystem run, OnTop 1 100 t := by
  have closed : windowClose 6 1 mouseSystem 200 closeAll =
      some ((windowClose 6 1 mouseSystem 200 closeAll).getD mouseSystem) :=
    eq_some_getD (by decide +kernel) _
  have isRun : IsRun (OtherCall 1 100) mouseSystem
      [(.close 200 closeAll, (windowClose 6 1 mouseSystem 200 closeAll).getD mouseSystem)] :=
    ⟨⟨by simp [OnOther], by decide +kernel, 6, closed⟩, trivial⟩
  refine ⟨_, rfl, isRun, ?_⟩
  exact (cursor_onTop_run 1 emptyMode cursorRun isRun_cursorRun cursorSystem cursorSystem_mem 100
    (by decide +kernel) allBuffers mouseSystem (eq_some_getD (by decide +kernel) _) _ isRun).1
    (by decide +kernel) (by decide +kernel) ⟨⟨⟨rfl, fun _ _ => rfl⟩, trivial⟩, trivial⟩

end ViOS.Graphics
