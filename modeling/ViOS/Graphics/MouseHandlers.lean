import ViOS.Graphics.MoveBounds
import ViOS.Graphics.PixelCopy

/-! # Clicks and movements of the mouse

A click focuses the window below the cursor, and the node below the cursor gets the click: on
a title bar this closes the window, or the window follows the cursor from now on.  Both
searches leave out the window of the cursor, so none of this is about the cursor's own window.

Left out is the size of the icon in the title bar: `closeButton` is any test on a point of a
title bar.

* `ClickHandler.run`, `MoveHandler.run` — the code.
* `StepFrame` — what a call on windows leaves of the windows it is not about.
* `CursorOk` — the window of the cursor and the screen are as given; `CursorOk.click` and
  `CursorOk.movement` keep it.
-/

namespace ViOS.Graphics

open ViOS.Lib

/-! ## The code -/

/-- `(size_t)` of a value of type `int`. -/
def intSize (value : Int32) : UInt64 := value.toInt64.toUInt64

/-- `graphics_has_ancestor`. -/
def graphicsHasAncestor : Nat → Nodes → Nat → Nat → Option Bool
  | 0, _, _, _ => none
  | fuel + 1, nodes, graphicsChild, graphicsAncestor =>
    match nodes graphicsChild with
    | none => none
    | some node =>
      match node.parent with
      | none => some false
      | some parent =>
        if parent = graphicsAncestor then some true
        else graphicsHasAncestor fuel nodes parent graphicsAncestor

/-- `window_owns_graphics`. -/
def windowOwnsGraphics (fuel : Nat) (nodes : Nodes) (window : Window) (graphics : Nat) : Option Bool :=
  if graphics = window.rootGraphics then some true
  else graphicsHasAncestor fuel nodes graphics window.rootGraphics

/-- One turn of the loop of `window_get_from_graphics`. -/
def visitOwner (fuel : Nat) (s : WindowSystem) (graphics w : Nat) : Option (Option Nat) :=
  match s.window w with
  | none => none
  | some window => (windowOwnsGraphics fuel s.nodes window graphics).map fun owns => if owns then some w else none

/-- `window_get_from_graphics`. -/
def windowGetFromGraphics (fuel : Nat) (s : WindowSystem) (graphics : Nat) : Option (Option Nat) :=
  firstResult (visitOwner fuel s graphics) s.windowsVector

/-- The memory that the handlers of a click get. -/
structure ClickBuffers where
  focus : StackBuffers
  close : CloseBuffers

/-- A window that is closed is taken out of its vectors. -/
structure ClickBuffers.Served (buffers : ClickBuffers) : Prop where
  window : buffers.close.window = true
  nodes : ∀ p, buffers.close.nodes p = true

/-- `window_click_handler`.  `window_click` does nothing. -/
def windowClickHandler (screen : Nat) (s : WindowSystem) (cursor : Nat) (absX absY : Int32)
    (buffers : ClickBuffers) : Option WindowSystem :=
  match windowGetAtPosition s (intSize absX) (intSize absY) (some cursor) with
  | none => none
  | some none => some s
  | some (some w) => windowFocus screen s w buffers.focus

/-- `window_screen_mouse_move_handler`.  A window that is moved has a title bar, of its own width. -/
def windowScreenMouseMoveHandler (fuel screen : Nat) (s : WindowSystem) (movedToX movedToY : Int32) :
    Option WindowSystem :=
  match s.windowMoving with
  | none => some s
  | some w =>
    match s.window w with
    | none => none
    | some window =>
      windowMove fuel screen s w (movedToX.toUInt32 - window.width.toUInt32 / 2).toUInt64
        (movedToY.toUInt32 - windowTitleBarHeight.toUInt32 / 2).toUInt64

section Handlers

variable (closeButton : Window → UInt64 → UInt64 → Bool)

/-- `window_title_bar_clicked`. -/
def windowTitleBarClicked (fuel screen : Nat) (s : WindowSystem) (titleGraphics : Nat) (relX relY : UInt64)
    (buffers : ClickBuffers) : Option WindowSystem :=
  match windowGetFromGraphics fuel s titleGraphics with
  | none => none
  | some none => some s
  | some (some w) =>
    match s.window w with
    | none => none
    | some window =>
      if closeButton window relX relY then windowClose fuel screen s w buffers.close
      else some { s with windowMoving := if s.windowMoving = some w then none else some w }

/-- `graphics_mouse_click_handler`.  The title bars are the only nodes with a handler. -/
def graphicsMouseClickHandler (fuel screen : Nat) (s : WindowSystem) (cursor : Nat) (clickedX clickedY : Int32)
    (buffers : ClickBuffers) : Option WindowSystem :=
  match s.window cursor with
  | none => none
  | some window =>
    match graphicsGetAtScreenPosition fuel s.nodes screen (intSize clickedX) (intSize clickedY)
      (some window.rootGraphics) true with
    | none => none
    | some none => some s
    | some (some graphics) =>
      match s.nodes graphics with
      | none => none
      | some node =>
        if clickedX < node.info.startingX.toInt32 ∨ clickedY < node.info.startingY.toInt32 then some s
        else
          let relX := clickedX.toUInt32 - node.info.startingX
          let relY := clickedY.toUInt32 - node.info.startingY
          if graphicsBoundsCheck node.info relX.toInt32 relY.toInt32 then
            match graphicsMouseClick fuel s.nodes graphics relX.toUInt64 relY.toUInt64 with
            | none => none
            | some none => some s
            | some (some (titleGraphics, relX, relY)) =>
              windowTitleBarClicked closeButton fuel screen s titleGraphics relX relY buffers
          else some s

/-- The functions that are registered for clicks. -/
inductive ClickHandler where
  | windowClickHandler
  | graphicsMouseClickHandler

def ClickHandler.run (fuel screen cursor : Nat) (x y : Int32) (buffers : ClickBuffers) (s : WindowSystem) :
    ClickHandler → Option WindowSystem
  | .windowClickHandler => Graphics.windowClickHandler screen s cursor x y buffers
  | .graphicsMouseClickHandler => Graphics.graphicsMouseClickHandler closeButton fuel screen s cursor x y buffers

end Handlers

/-- The functions that are registered for movements. -/
inductive MoveHandler where
  | windowScreenMouseMoveHandler
  | graphicsMouseMoveHandler

/-- `graphics_mouse_move_handler` looks for the handler of a node, and the handler of a title bar
does nothing. -/
def MoveHandler.run (fuel screen : Nat) (x y : Int32) (s : WindowSystem) : MoveHandler → Option WindowSystem
  | .windowScreenMouseMoveHandler => Graphics.windowScreenMouseMoveHandler fuel screen s x y
  | .graphicsMouseMoveHandler => some s

/-! ## What a search leaves out -/

section Search

variable {nodes : Nodes} {climb fuel p q i : Nat} {x y : UInt64}

theorem firstResult_some {visit : Nat → Option (Option Nat)} {l : List Nat}
    (found : firstResult visit l = some (some q)) : ∃ c ∈ l, visit c = some (some q) := by
  induction l with
  | nil => simp [firstResult] at found
  | cons c rest ih =>
    unfold firstResult at found
    cases visited : visit c with
    | none => simp [visited] at found
    | some result =>
      cases result with
      | some r => exact ⟨c, List.mem_cons_self, by simpa [visited] using found⟩
      | none =>
        obtain ⟨d, member, here⟩ := ih (by simpa [visited] using found)
        exact ⟨d, List.mem_cons_of_mem _ member, here⟩

theorem not_below_of_notIgnored (searched : graphicsIsInIgnoredBranch climb nodes p (some i) = some false) :
    ¬ Below nodes i p := by
  induction climb generalizing p with
  | zero => simp [graphicsIsInIgnoredBranch] at searched
  | succ climb ih =>
    unfold graphicsIsInIgnoredBranch at searched
    split at searched
    · simp at searched
    · next apart =>
      cases live : nodes p with
      | none => simp [live] at searched
      | some node =>
        cases parent : node.parent with
        | none => exact fun below => apart ((below_root_iff live parent).mp below).symm
        | some r =>
          intro below
          rcases (below_parent_iff live parent).mp below with same | above
          · exact apart same.symm
          · exact ih (by simpa [live, parent] using searched) above

/-- A node that is found is not in the ignored branch. -/
theorem getChildAtPosition_not_below {topFirst : Bool}
    (found : graphicsGetChildAtPosition climb fuel nodes p x y (some i) topFirst = some (some q)) :
    ¬ Below nodes i q := by
  induction fuel generalizing p with
  | zero => simp [graphicsGetChildAtPosition] at found
  | succ fuel ih =>
    unfold graphicsGetChildAtPosition at found
    cases ignored : graphicsIsInIgnoredBranch climb nodes p (some i) with
    | none => simp [ignored] at found
    | some isIgnored =>
      cases isIgnored with
      | true => simp [ignored] at found
      | false =>
        cases live : nodes p with
        | none => simp [ignored, live] at found
        | some node =>
          simp only [ignored, live] at found
          split at found
          · simp at found
          · next result loop =>
            rw [Option.some.injEq, Option.some.injEq] at found
            subst found
            obtain ⟨c, -, visited⟩ := firstResult_some loop
            unfold visitChild at visited
            cases ignoredChild : graphicsIsInIgnoredBranch climb nodes c (some i) with
            | none => simp [ignoredChild] at visited
            | some isIgnoredChild =>
              cases isIgnoredChild with
              | true => simp [ignoredChild] at visited
              | false =>
                cases liveChild : nodes c with
                | none => simp [ignoredChild, liveChild] at visited
                | some childNode =>
                  simp only [ignoredChild, liveChild] at visited
                  split at visited
                  · split at visited
                    · simp at visited
                    · next deeper =>
                      rw [Option.some.injEq, Option.some.injEq] at visited
                      exact ih (visited ▸ deeper)
                    · rw [Option.some.injEq, Option.some.injEq] at visited
                      exact visited ▸ not_below_of_notIgnored ignoredChild
                  · simp at visited
          · split at found
            · rw [Option.some.injEq, Option.some.injEq] at found
              exact found ▸ not_below_of_notIgnored ignored
            · simp at found

/-- A click is passed on to a node above. -/
theorem below_of_mouseClick {relX relY : UInt64}
    (clicked : graphicsMouseClick fuel nodes p x y = some (some (q, relX, relY))) : Below nodes q p := by
  induction fuel generalizing p x y with
  | zero => simp [graphicsMouseClick] at clicked
  | succ fuel ih =>
    unfold graphicsMouseClick at clicked
    cases live : nodes p with
    | none => simp [live] at clicked
    | some node =>
      simp only [live] at clicked
      split at clicked
      · simp only [Option.some.injEq, Prod.mk.injEq] at clicked
        exact clicked.1 ▸ .refl
      · cases parent : node.parent with
        | none => simp [parent] at clicked
        | some r => exact (below_parent_iff live parent).mpr (.inr (ih (by simpa [parent] using clicked)))

theorem below_of_hasAncestor (has : graphicsHasAncestor fuel nodes p q = some true) : Below nodes q p := by
  induction fuel generalizing p with
  | zero => simp [graphicsHasAncestor] at has
  | succ fuel ih =>
    unfold graphicsHasAncestor at has
    cases live : nodes p with
    | none => simp [live] at has
    | some node =>
      cases parent : node.parent with
      | none => simp [live, parent] at has
      | some r =>
        refine (below_parent_iff live parent).mpr (.inr ?_)
        simp only [live, parent] at has
        split at has
        · next same => exact same ▸ .refl
        · exact ih has

theorem windowGetFromGraphics_owner {s : WindowSystem} {graphics w : Nat}
    (found : windowGetFromGraphics fuel s graphics = some (some w)) : w ∈ s.windowsVector ∧
      ∃ window, s.window w = some window ∧ Below s.nodes window.rootGraphics graphics := by
  obtain ⟨v, member, visited⟩ := firstResult_some found
  unfold visitOwner at visited
  cases live : s.window v with
  | none => simp [live] at visited
  | some window =>
    simp only [live] at visited
    obtain ⟨owns, owned, result⟩ := Option.map_eq_some_iff.mp visited
    cases owns with
    | false => simp at result
    | true =>
      obtain rfl : v = w := by simpa using result
      refine ⟨member, window, live, ?_⟩
      unfold windowOwnsGraphics at owned
      split at owned
      · next same => exact same ▸ .refl
      · exact below_of_hasAncestor owned

theorem windowGetAtPosition_found {s : WindowSystem} {ignored : Option Nat} {w : Nat}
    (found : windowGetAtPosition s x y ignored = some (some w)) : w ∈ s.windowsVector := by
  obtain ⟨v, member, visited⟩ := firstResult_some found
  unfold visitWindow at visited
  split at visited
  · simp at visited
  · split at visited
    · simp at visited
    · split at visited
      · simp at visited
      · split at visited
        · obtain rfl : v = w := by simpa using visited
          exact member
        · simp at visited

end Search

/-! ## The windows a call is not about -/

/-- The call neither moves nor closes the window. -/
def Spares (v : Nat) : WindowOp → Prop
  | .create _ | .focus _ _ | .bringToTop _ _ | .setZIndex _ _ _ => True
  | .positionSet w _ _ | .close w _ => w ≠ v

/-- The call closes the window. -/
def Closes (v : Nat) : WindowOp → Prop
  | .close w _ => w = v
  | .create _ | .focus _ _ | .bringToTop _ _ | .setZIndex _ _ _ | .positionSet _ _ _ => False

theorem Spares.not_closes {v : Nat} {op : WindowOp} (spares : Spares v op) : ¬ Closes v op := by
  cases op with
  | close w buffers => exact spares
  | create | focus | bringToTop | setZIndex | positionSet => exact id

/-- What a call leaves of the screen and of the windows it is not about. -/
structure StepFrame (screen : Nat) (op : WindowOp) (s after : WindowSystem) : Prop where
  screen : ∀ node, s.nodes screen = some node → ∃ node', after.nodes screen = some node' ∧ node'.info = node.info
  stays : ∀ v ∈ s.windowsVector, ¬ Closes v op → v ∈ after.windowsVector
  window : ∀ v ∈ s.windowsVector, Spares v op → after.window v = s.window v
  moving : ∀ v, after.windowMoving = some v → s.windowMoving = some v ∧ ¬ Closes v op

section StepFrame

variable {screen : Nat} {s after : WindowSystem} {op : WindowOp}

/-- A call that stacks a root again, and perhaps sets the focus. -/
theorem stepFrame_restacked {p : Nat} {z : UInt32} {buffers : Bool} {nodes : Nodes}
    (restacked : Restacked screen p z buffers s.nodes nodes) (focused : Option Nat) (notClose : ∀ v, ¬ Closes v op) :
    StepFrame screen op s { s with nodes, focusedWindow := focused } where
  screen node live := ⟨_, restacked.top node live, rfl⟩
  stays _ member _ := member
  window _ _ _ := rfl
  moving v isMoving := ⟨isMoving, notClose v⟩

theorem stepFrame_refl (notClose : ∀ v, ¬ Closes v op) : StepFrame screen op s s where
  screen node live := ⟨node, live, rfl⟩
  stays _ member _ := member
  window _ _ _ := rfl
  moving v isMoving := ⟨isMoving, notClose v⟩

theorem stepFrame_create {screenNode : GraphicsNode} (ok : WindowsOk screen s)
    (screenLive : s.nodes screen = some screenNode) {request : WindowRequest} (served : request.Served)
    (fresh : request.Fresh s) {result : Option Nat} (created : windowCreate screen s screen request = some (result, after)) :
    StepFrame screen (.create request) s after := by
  rcases windowCreate_spec ok screenLive served fresh created with ⟨-, rfl⟩ | ⟨-, w, new, nodes, isWindow, -, added, -,
    ⟨-, rfl⟩ | ⟨-, middle, last, restacked, -, restackedAgain, rfl⟩⟩
  · exact stepFrame_refl fun _ => id
  · exact ⟨fun node live => ⟨_, added.top node live, rfl⟩, fun _ member _ => member, fun _ _ _ => rfl,
      fun v isMoving => ⟨isMoving, id⟩⟩
  · refine ⟨fun node live => ?_, fun v member _ => List.mem_append_left _ member, fun v member _ => ?_,
      fun v isMoving => ⟨isMoving, id⟩⟩
    · exact ⟨_, restackedAgain.top _ (restacked.top _ (added.top node live)), rfl⟩
    · have apart : v ≠ w := by
        rintro rfl
        exact ok.not_mem_of_fresh (fresh.window v isWindow) member
      exact Function.update_of_ne apart _ _

theorem stepFrame_move {fuel w : Nat} {newX newY : UInt64} (ok : WindowsOk screen s) (member : w ∈ s.windowsVector)
    (moved : windowMove fuel screen s w newX newY = some after) : StepFrame screen (.positionSet w newX newY) s after := by
  obtain ⟨screenNode, screenLive, -⟩ := ok.top
  obtain ⟨window, live, -, onScreen⟩ := ok.window w member
  obtain ⟨root, rootLive, -⟩ := ok.live_of_mem_stack onScreen
  have screenKept := (ok.move_nodes member screenLive live rootLive moved).2.1
  obtain ⟨effect, -⟩ := ok.move member screenLive live moved
  have sameMoving : after.windowMoving = s.windowMoving := by
    simp only [windowMove, live] at moved
    obtain ⟨-, -, rfl⟩ := Option.map_eq_some_iff.mp moved
    rfl
  refine ⟨fun node here => ⟨node, ?_, rfl⟩, fun v inVector _ => effect.vector ▸ inVector,
    fun v _ spared => effect.window v (Ne.symm spared), fun v isMoving => ⟨sameMoving ▸ isMoving, id⟩⟩
  rw [screenKept, ← screenLive, here]

theorem stepFrame_close {fuel w : Nat} {buffers : CloseBuffers} (ok : WindowsOk screen s)
    (served : Served s (.close w buffers)) (member : w ∈ s.windowsVector)
    (closed : windowClose fuel screen s w buffers = some after) : StepFrame screen (.close w buffers) s after := by
  obtain ⟨-, freed⟩ := ok.close_freed member closed
  obtain ⟨window, live, -⟩ := ok.window w member
  obtain ⟨effect, -⟩ := ok.close served member closed
  simp only [windowClose, windowFree, live] at closed
  obtain ⟨nodes, -, rfl⟩ := Option.map_eq_some_iff.mp closed
  refine ⟨fun node here => ⟨_, freed.popped node here, rfl⟩, fun v inVector notClosed => ?_,
    fun v _ spared => effect.window v (Ne.symm spared), fun v isMoving => ?_⟩
  · rw [effect.vector]
    exact (List.mem_erase_of_ne fun same => notClosed same.symm).mpr inVector
  · by_cases wasMoving : s.windowMoving = some w
    · simp [wasMoving] at isMoving
    · simp only [if_neg wasMoving] at isMoving
      exact ⟨isMoving, fun (same : w = v) => wasMoving (same ▸ isMoving)⟩

theorem windowStep_frame (step : WindowStep screen s op after) (ok : WindowsOk screen s) :
    StepFrame screen op s after := by
  obtain ⟨screenNode, screenLive, -⟩ := ok.top
  obtain ⟨served, call⟩ := step
  cases op with
  | create request =>
    obtain ⟨fresh, result, created⟩ := call
    exact stepFrame_create ok screenLive served fresh created
  | focus w buffers =>
    obtain ⟨member, focused⟩ := call
    rcases ok.focus member buffers with ⟨-, same⟩ | ⟨-, nodes, result, restacked⟩
    · obtain rfl := Option.some.inj (same.symm.trans focused)
      exact stepFrame_refl fun _ => id
    · obtain rfl := Option.some.inj (result.symm.trans focused)
      exact stepFrame_restacked restacked _ fun _ => id
  | bringToTop w buffers =>
    obtain ⟨member, brought⟩ := call
    obtain ⟨nodes, result, restacked⟩ := ok.bringToTop member buffers
    obtain rfl := Option.some.inj (result.symm.trans brought)
    exact stepFrame_restacked restacked _ fun _ => id
  | setZIndex w zindex buffers =>
    obtain ⟨member, set⟩ := call
    obtain ⟨nodes, result, restacked⟩ := ok.setZIndex member zindex buffers
    obtain rfl := Option.some.inj (result.symm.trans set)
    exact stepFrame_restacked restacked _ fun _ => id
  | positionSet w newX newY =>
    obtain ⟨member, fuel, moved⟩ := call
    exact stepFrame_move ok member moved
  | close w buffers =>
    obtain ⟨member, fuel, closed⟩ := call
    exact stepFrame_close ok served member closed

end StepFrame

/-! ## The window of the cursor -/

/-- The screen keeps its size, and the window that is moved is in the vector. -/
structure ScreenOk (screen : Nat) (width height : UInt32) (s : WindowSystem) : Prop extends WindowsOk screen s where
  few : FewNodes s.nodes
  size : ∃ node, s.nodes screen = some node ∧ node.info.width = width ∧ node.info.height = height
  moving : ∀ w, s.windowMoving = some w → w ∈ s.windowsVector

/-- The window of the cursor is as given, and no handler moves it. -/
structure CursorOk (screen cursor : Nat) (width height : UInt32) (shown : Window) (s : WindowSystem) : Prop
    extends ScreenOk screen width height s where
  member : cursor ∈ s.windowsVector
  live : s.window cursor = some shown
  notMoving : s.windowMoving ≠ some cursor

theorem screenOk_setup (screen : Nat) (mode : GraphicsInfo) :
    ScreenOk screen (graphicsSetup mode).width (graphicsSetup mode).height (setupWindows screen mode) where
  toWindowsOk := windowsOk_setup screen mode
  few := by
    refine ⟨[screen], fun p node live => ?_⟩
    by_cases here : p = screen
    · exact List.mem_singleton.mpr here
    · simp [setupWindows, setupNodes, Nodes.set, here] at live
  size := ⟨screenNode mode, by simp [setupWindows, setupNodes, Nodes.set], rfl, rfl⟩
  moving _ isMoving := by cases isMoving

section CursorOk

variable {screen cursor : Nat} {width height : UInt32} {shown : Window} {s after : WindowSystem} {op : WindowOp}

theorem ScreenOk.step (ok : ScreenOk screen width height s) (step : WindowStep screen s op after) :
    ScreenOk screen width height after := by
  have frame := windowStep_frame step ok.toWindowsOk
  refine ⟨windowStep_ok step ok.toWindowsOk, windowStep_few step ok.toWindowsOk ok.few, ?_, fun w isMoving => ?_⟩
  · obtain ⟨node, live, isWidth, isHeight⟩ := ok.size
    obtain ⟨node', live', sameInfo⟩ := frame.screen node live
    exact ⟨node', live', by rw [sameInfo, isWidth], by rw [sameInfo, isHeight]⟩
  · obtain ⟨wasMoving, notClosed⟩ := frame.moving w isMoving
    exact frame.stays w (ok.moving w wasMoving) notClosed

theorem windowSetZIndex_window {w : Nat} {zindex : Int32} {buffers : StackBuffers}
    (set : windowSetZIndex s w zindex buffers = some after) :
    after.window = s.window := by
  unfold windowSetZIndex at set
  split at set
  · simp at set
  · obtain ⟨nodes, -, rfl⟩ := Option.map_eq_some_iff.mp set
    rfl

theorem windowFocus_window {w : Nat} {buffers : StackBuffers} (focused : windowFocus screen s w buffers = some after) :
    after.window = s.window := by
  unfold windowFocus at focused
  split at focused
  · rw [Option.some.inj focused]
  · unfold windowBringToTop at focused
    split at focused
    · simp at focused
    · have kept := windowSetZIndex_window focused
      exact kept

/-- A window that is created has the position and the size of its request. -/
theorem windowCreate_window {graphicsInfo w : Nat} {request : WindowRequest}
    (created : windowCreate screen s graphicsInfo request = some (some w, after)) :
    request.window = some w ∧ ∃ root, after.window w = some (request.newWindow root) := by
  unfold windowCreate at created
  split at created
  · simp at created
  · split at created
    · simp at created
    · next v isWindow =>
      split at created
      · simp at created
      · split at created
        · simp at created
        · simp at created
        · next root nodes _ =>
          split at created
          · simp at created
          · simp at created
          · split at created
            · obtain ⟨system, pushed, same⟩ := Option.map_eq_some_iff.mp created
              obtain ⟨isResult, rfl⟩ := Prod.mk.inj same
              obtain rfl := Option.some.inj isResult
              refine ⟨isWindow, root, ?_⟩
              unfold pushWindow at pushed
              split at pushed
              · simp at pushed
              · obtain ⟨stacked, set, focused⟩ := Option.bind_eq_some_iff.mp pushed
                rw [windowFocus_window focused, windowSetZIndex_window set]
                exact Function.update_self _ _ _
            · simp at created

/-- The window of the cursor, when it is created. -/
theorem ScreenOk.create (ok : ScreenOk screen width height s) {request : WindowRequest} (served : request.Served)
    (fresh : request.Fresh s) (created : windowCreate screen s screen request = some (some cursor, after)) :
    ∃ root, CursorOk screen cursor width height (request.newWindow root) after := by
  obtain ⟨isWindow, root, live⟩ := windowCreate_window created
  have step : WindowStep screen s (.create request) after := ⟨served, fresh, some cursor, created⟩
  have free := fresh.window cursor isWindow
  refine ⟨root, ok.step step, ?_, live, fun isMoving => ?_⟩
  · obtain ⟨node, screenLive, -⟩ := ok.size
    rcases windowCreate_spec ok.toWindowsOk screenLive served fresh created with ⟨-, rfl⟩ | ⟨-, w, new, nodes, isW, -, -, -,
      ⟨-, rfl⟩ | ⟨-, middle, last, -, -, -, rfl⟩⟩
    · simp [free] at live
    · simp [free] at live
    · obtain rfl := Option.some.inj (isWindow.symm.trans isW)
      simp [WindowSystem.push]
  · have wasMoving := ((windowStep_frame step ok.toWindowsOk).moving cursor isMoving).1
    exact ok.toWindowsOk.not_mem_of_fresh free (ok.moving cursor wasMoving)

/-- Every call that is about other windows. -/
theorem CursorOk.step (ok : CursorOk screen cursor width height shown s) (step : WindowStep screen s op after)
    (spares : Spares cursor op) : CursorOk screen cursor width height shown after := by
  have frame := windowStep_frame step ok.toWindowsOk
  exact ⟨ok.toScreenOk.step step, frame.stays cursor ok.member spares.not_closes,
    (frame.window cursor ok.member spares).trans ok.live, fun isMoving => ok.notMoving (frame.moving cursor isMoving).1⟩

/-- A move of the cursor itself. -/
theorem CursorOk.move (ok : CursorOk screen cursor width height shown s) {fuel : Nat} {newX newY : UInt64}
    (moved : windowMove fuel screen s cursor newX newY = some after) :
    CursorOk screen cursor width height { shown with
      x := clampPosition width.toUInt64 shown.width newX
      y := clampPosition height.toUInt64 shown.height newY } after := by
  obtain ⟨node, screenLive, isWidth, isHeight⟩ := ok.size
  have step : WindowStep screen s (.positionSet cursor newX newY) after := ⟨trivial, ok.member, fuel, moved⟩
  have frame := windowStep_frame step ok.toWindowsOk
  obtain ⟨effect, -⟩ := ok.toWindowsOk.move ok.member screenLive ok.live moved
  rw [isWidth, isHeight] at effect
  exact ⟨ok.toScreenOk.step step, frame.stays cursor ok.member id, effect.target shown ok.live,
    fun isMoving => ok.notMoving (frame.moving cursor isMoving).1⟩

/-- Only `window_moving` changes. -/
theorem CursorOk.setMoving (ok : CursorOk screen cursor width height shown s) (moving : Option Nat)
    (other : ∀ w, moving = some w → w ∈ s.windowsVector ∧ w ≠ cursor) :
    CursorOk screen cursor width height shown { s with windowMoving := moving } where
  toWindowsOk := ⟨ok.owned, ok.top, ok.window, ok.distinct, ok.nodup, ok.focused⟩
  few := ok.few
  size := ok.size
  moving w isMoving := (other w isMoving).1
  member := ok.member
  live := ok.live
  notMoving isMoving := (other cursor isMoving).2 rfl

/-- A click on a title bar that is not of the cursor's window. -/
theorem CursorOk.titleBarClicked (ok : CursorOk screen cursor width height shown s)
    (closeButton : Window → UInt64 → UInt64 → Bool) {fuel titleGraphics : Nat} {relX relY : UInt64}
    {buffers : ClickBuffers} (served : buffers.Served) (outside : ¬ Below s.nodes shown.rootGraphics titleGraphics)
    (clicked : windowTitleBarClicked closeButton fuel screen s titleGraphics relX relY buffers = some after) :
    CursorOk screen cursor width height shown after := by
  unfold windowTitleBarClicked at clicked
  split at clicked
  · simp at clicked
  · exact Option.some.inj clicked ▸ ok
  · next w found =>
    obtain ⟨member, owner, live, below⟩ := windowGetFromGraphics_owner found
    have other : w ≠ cursor := by
      rintro rfl
      rw [ok.live, Option.some.injEq] at live
      exact outside (live ▸ below)
    simp only [live] at clicked
    split at clicked
    · have step : WindowStep screen s (.close w buffers.close) after :=
        ⟨⟨served.window, fun _ _ => served.nodes _⟩, member, fuel, clicked⟩
      exact ok.step step other
    · rw [Option.some.injEq] at clicked
      subst clicked
      refine ok.setMoving _ fun v isMoving => ?_
      split at isMoving
      · simp at isMoving
      · obtain rfl := Option.some.inj isMoving
        exact ⟨member, other⟩

theorem CursorOk.click (ok : CursorOk screen cursor width height shown s)
    (closeButton : Window → UInt64 → UInt64 → Bool) {fuel : Nat} {x y : Int32} {buffers : ClickBuffers}
    (served : buffers.Served) (handler : ClickHandler)
    (clicked : handler.run closeButton fuel screen cursor x y buffers s = some after) :
    CursorOk screen cursor width height shown after := by
  cases handler with
  | windowClickHandler =>
    simp only [ClickHandler.run, windowClickHandler] at clicked
    split at clicked
    · simp at clicked
    · exact Option.some.inj clicked ▸ ok
    · next w found =>
      have step : WindowStep screen s (.focus w buffers.focus) after :=
        ⟨trivial, windowGetAtPosition_found found, clicked⟩
      exact ok.step step trivial
  | graphicsMouseClickHandler =>
    simp only [ClickHandler.run, graphicsMouseClickHandler, ok.live] at clicked
    split at clicked
    · simp at clicked
    · exact Option.some.inj clicked ▸ ok
    · next graphics found =>
      split at clicked
      · simp at clicked
      · split at clicked
        · exact Option.some.inj clicked ▸ ok
        · split at clicked
          · split at clicked
            · simp at clicked
            · exact Option.some.inj clicked ▸ ok
            · next titleGraphics relX relY bubbled =>
              -- The click starts outside the cursor's branch, and nodes above are outside, too.
              refine ok.titleBarClicked closeButton served (fun below => ?_) clicked
              exact getChildAtPosition_not_below found (below.trans (below_of_mouseClick bubbled))
          · exact Option.some.inj clicked ▸ ok

theorem CursorOk.movement (ok : CursorOk screen cursor width height shown s) {fuel : Nat} {x y : Int32}
    (handler : MoveHandler) (moved : handler.run fuel screen x y s = some after) :
    CursorOk screen cursor width height shown after := by
  cases handler with
  | windowScreenMouseMoveHandler =>
    simp only [MoveHandler.run, windowScreenMouseMoveHandler] at moved
    split at moved
    · exact Option.some.inj moved ▸ ok
    · next w isMoving =>
      split at moved
      · simp at moved
      · have other : w ≠ cursor := by
          rintro rfl
          exact ok.notMoving isMoving
        have step : WindowStep screen s (.positionSet w _ _) after := ⟨trivial, ok.moving w isMoving, fuel, moved⟩
        exact ok.step step other
  | graphicsMouseMoveHandler => exact Option.some.inj moved ▸ ok

end CursorOk

end ViOS.Graphics
