import ViOS.Graphics.Stacking

/-! # Focusing a window

`window_focus` gives the root of the window one more than the number of the last child of the
screen, in 32 bits, and has the children sorted again.  Without memory they are not, and the
root keeps its place.

* `FocusRaises` — the window is raised over the others, which stay in their order.
* `RoomOnTop` — the others are in order, and the root comes last.
* `focus_raises_iff` — the two are the same, in every state of a run.
-/

namespace ViOS.Graphics

open ViOS.Lib
open scoped List

/-- Creating, focusing and closing. -/
def OpensFocusesCloses : WindowOp → Prop
  | .create _ | .focus _ _ | .close _ _ => True
  | .bringToTop _ _ | .setZIndex _ _ _ | .positionSet _ _ _ => False

/-- One such call. -/
def FocusStep (screen : Nat) (s : WindowSystem) (op : WindowOp) (after : WindowSystem) : Prop :=
  OpensFocusesCloses op ∧ WindowStep screen s op after

/-- The children of the screen are sorted, the root of the window is drawn last, the others keep
their order, and the window has the focus. -/
structure FocusRaises (screen w : Nat) (s after : WindowSystem) : Prop where
  sorted : (stack screen after.nodes).Pairwise fun p q => zIndexOf after.nodes p ≤ zIndexOf after.nodes q
  last : OnTop screen w after
  others : (stack screen after.nodes).erase (rootOf s w) = (stack screen s.nodes).erase (rootOf s w)
  focused : after.focusedWindow = some w

/-- The other children are in order.  Each of them is below the new number, and the children are sorted,
or it is not above the new number and stands before the root already. -/
structure RoomOnTop (screen w : Nat) (buffers : StackBuffers) (s : WindowSystem) : Prop where
  others : ((stack screen s.nodes).erase (rootOf s w)).Pairwise
    fun p q => zIndexOf s.nodes p ≤ zIndexOf s.nodes q
  above : ∀ q ∈ stack screen s.nodes, q ≠ rootOf s w →
    (buffers.children = true ∧ zIndexOf s.nodes q < topNumber screen s.nodes) ∨
      (zIndexOf s.nodes q ≤ topNumber screen s.nodes ∧ [q, rootOf s w] <+ stack screen s.nodes)

/-! ## One call -/

section Restack

variable {screen p : Nat} {s : WindowSystem} {z : UInt32} {buffers : Bool} {after : Nodes}
  (ok : WindowsOk screen s) (member : p ∈ stack screen s.nodes)
  (restacked : Restacked screen p z buffers s.nodes after)

include ok member restacked

theorem WindowsOk.mem_restack {q : Nat} : q ∈ stack screen after ↔ q ∈ stack screen s.nodes := by
  obtain ⟨rank, owned⟩ := ok.owned
  rw [mem_stack_iff, (restacked.relinked owned (mem_stack_iff.mp member)).childOf_iff, ← mem_stack_iff]

/-- The children that are not renumbered. -/
theorem WindowsOk.erase_numbers : ∀ q ∈ (stack screen s.nodes).erase p, zIndexOf after q = zIndexOf s.nodes q := by
  intro q inErase
  apply restacked.zIndexOf_other (mem_stack_iff.mp member)
  rintro rfl
  exact ok.stack_nodup.not_mem_erase inErase

/-- Where the target stands behind another child. -/
theorem WindowsOk.behind_iff {q : Nat} (inStack : q ∈ stack screen s.nodes) (apart : q ≠ p) :
    [q, p] <+ stack screen after ↔ (buffers = true ∧ zIndexOf s.nodes q < z) ∨
      (¬ (buffers = true ∧ z < zIndexOf s.nodes q) ∧ [q, p] <+ stack screen s.nodes) := by
  obtain ⟨rank, owned⟩ := ok.owned
  have child := mem_stack_iff.mp member
  cases buffers with
  | false =>
    rw [restacked.stack_eq_reorder child]
    simp
  | true =>
    rw [ok.before_restack_iff member restacked inStack member apart, restacked.zIndexOf_target owned child,
      restacked.zIndexOf_other child apart]
    simp

/-- The children that are not renumbered keep their order, where it is that of their numbers. -/
theorem WindowsOk.restack_erase
    (others : ((stack screen s.nodes).erase p).Pairwise fun a b => zIndexOf s.nodes a ≤ zIndexOf s.nodes b) :
    (stack screen after).erase p = (stack screen s.nodes).erase p := by
  have child := mem_stack_iff.mp member
  have sorted : ((stack screen s.nodes).erase p).Pairwise fun a b => ¬ graphicsReorder after a b := by
    refine others.imp_of_mem fun {a b} inA inB inOrder => ?_
    rw [graphicsReorder_iff, ok.erase_numbers member restacked a inA, ok.erase_numbers member restacked b inB]
    exact UInt32.not_lt.mpr inOrder
  have perm := Elements.vectorReorder_perm buffers (graphicsReorder after) (stack screen s.nodes)
  have kept : (stack screen s.nodes).erase p <+ stack screen after := by
    rw [restacked.stack_eq_reorder child]
    cases buffers with
    | false => exact List.erase_sublist
    | true => exact bubbleSort_sublist _ sorted List.erase_sublist
  rw [← restacked.stack_eq_reorder child] at perm
  have inside := kept.erase p
  rw [List.erase_of_not_mem ok.stack_nodup.not_mem_erase] at inside
  exact (inside.eq_of_length (perm.erase p).length_eq.symm).symm

end Restack

section Window

variable {screen w : Nat} {s : WindowSystem} (ok : WindowsOk screen s) (member : w ∈ s.windowsVector)
  {buffers : StackBuffers} {nodes : Nodes}
  (restacked : Restacked screen (rootOf s w) (topNumber screen s.nodes) buffers.children s.nodes nodes)

include ok member restacked

theorem WindowsOk.room_of_raises (raises : FocusRaises screen w s { s with nodes, focusedWindow := some w }) :
    RoomOnTop screen w buffers s := by
  obtain ⟨rank, owned⟩ := ok.owned
  have rootMem := ok.root_mem member
  have child := mem_stack_iff.mp rootMem
  have okAfter := ok.restack rootMem restacked
  refine ⟨?others, fun q inStack apart => ?above⟩
  case others =>
    have sorted := raises.sorted.sublist (List.erase_sublist (a := rootOf s w))
    rw [raises.others] at sorted
    refine sorted.imp_of_mem fun {a b} inA inB inOrder => ?_
    rwa [ok.erase_numbers rootMem restacked a inA, ok.erase_numbers rootMem restacked b inB] at inOrder
  case above =>
    have behind := (getLast_iff okAfter.stack_nodup ((ok.mem_restack rootMem restacked).mpr rootMem)).mp
      raises.last q ((ok.mem_restack rootMem restacked).mpr inStack) apart
    have inOrder : zIndexOf nodes q ≤ zIndexOf nodes (rootOf s w) :=
      List.pairwise_iff_forall_sublist.mp raises.sorted behind
    rw [restacked.zIndexOf_other child apart, restacked.zIndexOf_target owned child] at inOrder
    exact ((ok.behind_iff rootMem restacked inStack apart).mp behind).imp_right fun stays => ⟨inOrder, stays.2⟩

theorem WindowsOk.raises_of_room (room : RoomOnTop screen w buffers s) :
    FocusRaises screen w s { s with nodes, focusedWindow := some w } := by
  obtain ⟨rank, owned⟩ := ok.owned
  have rootMem := ok.root_mem member
  have child := mem_stack_iff.mp rootMem
  have absent : rootOf s w ∉ (stack screen s.nodes).erase (rootOf s w) := ok.stack_nodup.not_mem_erase
  have same := ok.restack_erase rootMem restacked room.others
  have last : (stack screen nodes).getLast? = some (rootOf s w) := by
    rw [getLast_iff (ok.restack rootMem restacked).stack_nodup ((ok.mem_restack rootMem restacked).mpr rootMem)]
    intro q inAfter apart
    have inStack := (ok.mem_restack rootMem restacked).mp inAfter
    apply (ok.behind_iff rootMem restacked inStack apart).mpr
    exact (room.above q inStack apart).imp_right fun stays =>
      ⟨fun above => absurd above.2 (UInt32.not_lt.mpr stays.1), stays.2⟩
  refine ⟨?sorted, last, same, rfl⟩
  -- The root stands behind the others, which are as before.
  obtain ⟨front, split⟩ := List.getLast?_eq_some_iff.mp last
  have isFront : front = (stack screen s.nodes).erase (rootOf s w) := by
    have notInFront : rootOf s w ∉ front := by
      have nodup : (stack screen nodes).Nodup := (ok.restack rootMem restacked).stack_nodup
      rw [split, ← List.concat_eq_append, List.nodup_concat] at nodup
      exact nodup.1
    rw [← same, split, List.erase_append_right _ notInFront]
    simp
  show (stack screen nodes).Pairwise fun p q => zIndexOf nodes p ≤ zIndexOf nodes q
  rw [split, isFront, List.pairwise_append]
  refine ⟨?_, List.pairwise_singleton _ _, fun q inFront p isRoot => ?_⟩
  · refine room.others.imp_of_mem fun {a b} inA inB inOrder => ?_
    rwa [ok.erase_numbers rootMem restacked a inA, ok.erase_numbers rootMem restacked b inB]
  · have apart : q ≠ rootOf s w := fun same => absent (same ▸ inFront)
    rw [List.mem_singleton.mp isRoot, restacked.zIndexOf_other child apart, restacked.zIndexOf_target owned child]
    exact (room.above q (List.mem_of_mem_erase inFront) apart).elim (fun less => UInt32.le_of_lt less.2) And.left

end Window

theorem WindowsOk.focusRaises_iff {screen w : Nat} {s : WindowSystem} (ok : WindowsOk screen s)
    (member : w ∈ s.windowsVector) (notFocused : s.focusedWindow ≠ some w) (buffers : StackBuffers) :
    ∃ after, windowFocus screen s w buffers = some after ∧
      (FocusRaises screen w s after ↔ RoomOnTop screen w buffers s) := by
  rcases ok.focus member buffers with ⟨already, -⟩ | ⟨-, nodes, focused, restacked⟩
  · exact absurd already notFocused
  · exact ⟨_, focused, ok.room_of_raises member restacked, ok.raises_of_room member restacked⟩

/-! ## Every run -/

theorem focusRun_ok {screen : Nat} {mode : GraphicsInfo} {run : List (WindowOp × WindowSystem)}
    (isRun : IsRun (FocusStep screen) (setupWindows screen mode) run) {s : WindowSystem}
    (reached : s ∈ runStates (setupWindows screen mode) run) : WindowsOk screen s := by
  have preserves : ∀ s op t, FocusStep screen s op t → WindowsOk screen s → WindowsOk screen t :=
    fun _ _ _ step => windowStep_ok step.2
  exact inv_of_isRun preserves isRun (windowsOk_setup screen mode) s reached

/-- In every state that windows are created, focused and closed to, focusing another window raises it
just when there is room on top. -/
theorem focus_raises_iff (screen : Nat) (mode : GraphicsInfo) (run : List (WindowOp × WindowSystem))
    (isRun : IsRun (FocusStep screen) (setupWindows screen mode) run) (s : WindowSystem)
    (reached : s ∈ runStates (setupWindows screen mode) run) (w : Nat) (member : w ∈ s.windowsVector)
    (notFocused : s.focusedWindow ≠ some w) (buffers : StackBuffers) :
    ∃ after, windowFocus screen s w buffers = some after ∧
      (FocusRaises screen w s after ↔ RoomOnTop screen w buffers s) :=
  (focusRun_ok isRun reached).focusRaises_iff member notFocused buffers

def firstWindow : WindowSystem := createdOn (setupWindows 1 emptyMode) (windowRequest 100 200 20)

/-- The windows 200 and 300, the second of which has the focus. -/
def bothWindows : WindowSystem := createdOn firstWindow (windowRequest 400 300 30)

theorem firstWindow_step : FocusStep 1 (setupWindows 1 emptyMode) (.create (windowRequest 100 200 20)) firstWindow :=
  ⟨trivial, windowStep_createdOn (windowRequest_served _ _ _) rfl (by decide +kernel) (by decide +kernel)
    (by decide +kernel) (by decide +kernel)⟩

theorem bothWindows_step : FocusStep 1 firstWindow (.create (windowRequest 400 300 30)) bothWindows :=
  ⟨trivial, windowStep_createdOn (windowRequest_served _ _ _) rfl (by decide +kernel) (by decide +kernel)
    (by decide +kernel) (by decide +kernel)⟩

def creations : List (WindowOp × WindowSystem) :=
  [(.create (windowRequest 100 200 20), firstWindow), (.create (windowRequest 400 300 30), bothWindows)]

theorem creations_isRun : IsRun (FocusStep 1) (setupWindows 1 emptyMode) creations :=
  ⟨firstWindow_step, bothWindows_step, trivial⟩

theorem first_window_raised : ∃ after, windowFocus 1 bothWindows 200 allBuffers = some after ∧
    FocusRaises 1 200 bothWindows after := by
  obtain ⟨after, focused, raises⟩ := focus_raises_iff 1 emptyMode creations creations_isRun bothWindows
    (by simp [creations]) 200 (by decide +kernel) (by decide +kernel) allBuffers
  exact ⟨after, focused, raises.mpr ⟨by decide +kernel, by decide +kernel⟩⟩

/-- Without memory the window stays below the one that was created last. -/
theorem focus_withoutBuffers : IsRun (FocusStep 1) (setupWindows 1 emptyMode) creations ∧
    bothWindows ∈ runStates (setupWindows 1 emptyMode) creations ∧ 200 ∈ bothWindows.windowsVector ∧
    bothWindows.focusedWindow ≠ some 200 ∧
    ∃ after, windowFocus 1 bothWindows 200 ⟨false, true⟩ = some after ∧ ¬ FocusRaises 1 200 bothWindows after := by
  have ok := windowStep_ok bothWindows_step.2 (windowStep_ok firstWindow_step.2 (windowsOk_setup 1 emptyMode))
  obtain ⟨after, focused, raises⟩ := ok.focusRaises_iff (w := 200) (by decide +kernel) (by decide +kernel) ⟨false, true⟩
  refine ⟨creations_isRun, by simp [creations], by decide +kernel, by decide +kernel, after, focused, fun raised => ?_⟩
  have room := (raises.mp raised).above (rootOf bothWindows 300) (by decide +kernel) (by decide +kernel)
  exact absurd room (by decide +kernel)

end ViOS.Graphics
