import ViOS.Graphics.HitTest
import ViOS.Graphics.Ownership

/-! # Windows

A window owns a root node among the screen's children, with the title bar, the borders
and the body below it.  The windows stand in a vector of their own, which is sorted by
`zindex`, a field nothing writes; the nodes are sorted by `z_index`.

Left out is the drawing, also the one through the pointers to the right and the lower
border, which `window_create` declares twice and leaves `NULL`: nodes keep their pixels,
and a terminal is either created or not.  The only event handler there is does nothing,
and its vector always has memory.

* `windowCreate`, `windowFocus`, `windowSetZIndex`, `windowClose`, `windowGetAtPosition` —
  the code.
* `WindowCall` — the calls, in any order and with any memory.
* `Served`, `WindowStep` — a call whose pushes and pops get their memory.
-/

namespace ViOS.Graphics

open ViOS.Lib
open scoped List

/-! ## The code -/

def windowBorderPixelSize : UInt64 := 2

def windowTitleBarHeight : UInt64 := 32

def windowFlagBorderless : UInt64 := 0b00000001

def graphicsFlagDoNotCopyPixels : UInt32 := 0b00001000

/-- The global variables of `window.c`, the windows and the nodes in memory. -/
structure WindowSystem where
  nodes : Nodes
  window : Nat → Option Window
  windowsVector : List Nat
  windowMoving : Option Nat
  focusedWindow : Option Nat

/-- `win->zindex`; an address without a window reads as zero. -/
def zindexOf (window : Nat → Option Window) (w : Nat) : UInt64 :=
  ((window w).map Window.zindex).getD 0

/-- `window_reorder`, on two pointers. -/
def windowReorder (window : Nat → Option Window) (first second : Nat) : Bool :=
  zindexOf window first < zindexOf window second

/-- Whether the two calls of `vector_reorder` get their buffers. -/
structure StackBuffers where
  children : Bool
  windows : Bool

/-- `window_set_z_index`. -/
def windowSetZIndex (s : WindowSystem) (w : Nat) (zindex : Int32) (buffers : StackBuffers) :
    Option WindowSystem :=
  match s.window w with
  | none => none
  | some window =>
    (graphicsSetZIndex s.nodes window.rootGraphics zindex.toUInt32 buffers.children).map
      fun nodes => { s with
        nodes
        windowsVector :=
          Elements.vectorReorder buffers.windows (windowReorder s.window) s.windowsVector }

/-- The number of the child drawn last, as `window_bring_to_top` reads it. -/
def lastIndex (nodes : Nodes) (screenNode : GraphicsNode) : UInt64 :=
  match screenNode.children.getLast? with
  | none => 0
  | some child => (zIndexOf nodes child).toUInt64

/-- `window_bring_to_top`.  The number is of type `int` on its way. -/
def windowBringToTop (screen : Nat) (s : WindowSystem) (w : Nat) (buffers : StackBuffers) :
    Option WindowSystem :=
  match s.nodes screen with
  | none => none
  | some screenNode =>
    windowSetZIndex s w (lastIndex s.nodes screenNode + 1).toUInt32.toInt32 buffers

/-- `window_focus`. -/
def windowFocus (screen : Nat) (s : WindowSystem) (w : Nat) (buffers : StackBuffers) :
    Option WindowSystem :=
  if s.focusedWindow = some w then some s
  else windowBringToTop screen { s with focusedWindow := some w } w buffers

/-- Whether `vector_pop_element` gets its buffer, for the window and for the nodes below it. -/
structure CloseBuffers where
  window : Bool
  nodes : Nat → Bool

/-- `window_free`. -/
def windowFree (fuel screen : Nat) (s : WindowSystem) (w : Nat) (buffers : CloseBuffers) :
    Option WindowSystem :=
  match s.window w with
  | none => none
  | some window =>
    (graphicsInfoFree buffers.nodes fuel s.nodes screen window.rootGraphics).map fun nodes =>
      { s with
        nodes
        window := Function.update s.window w none
        windowsVector := Elements.vectorPopElement buffers.window s.windowsVector w }

/-- `window_close`. -/
def windowClose (fuel screen : Nat) (s : WindowSystem) (w : Nat) (buffers : CloseBuffers) :
    Option WindowSystem :=
  windowFree fuel screen
    { s with
      focusedWindow := if s.focusedWindow = some w then none else s.focusedWindow
      windowMoving := if s.windowMoving = some w then none else s.windowMoving } w buffers

/-- `window_position_set` on a window of the system. -/
def windowMove (fuel screen : Nat) (s : WindowSystem) (w : Nat) (newX newY : UInt64) :
    Option WindowSystem :=
  match s.window w with
  | none => none
  | some window =>
    (windowPositionSet fuel s.nodes screen window newX newY).map fun moved =>
      { s with nodes := moved.2, window := Function.update s.window w (some moved.1) }

/-- A node that `window_create` creates below the root. -/
structure WindowPart where
  x : UInt64
  y : UInt64
  width : UInt64
  height : UInt64
  alloc : NodeAlloc
  /-- The part gets a click handler. -/
  clickable : Bool

/-- The arguments of `window_create`, the memory it gets and whether the terminals are created.
`push` is the room in the vector of the windows, and `pop` the buffer for taking the window out of it
again; `zIndex` and `focus` are for the two calls that stack the window. -/
structure WindowRequest where
  x : UInt64
  y : UInt64
  width : UInt64
  height : UInt64
  flags : UInt64
  window : Option Nat
  eventHandlers : Bool
  root : NodeAlloc
  titleBar : NodeAlloc
  borderLeft : NodeAlloc
  borderRight : NodeAlloc
  borderBottom : NodeAlloc
  body : NodeAlloc
  titleBarTerminal : Bool
  terminal : Bool
  push : Elements.Growth Nat
  zIndex : StackBuffers
  focus : StackBuffers
  pop : Bool

namespace WindowRequest

variable (request : WindowRequest)

def borderless : Bool := request.flags &&& windowFlagBorderless ≠ 0

/-- `total_window_width_bounds`. -/
def totalWidth : UInt64 :=
  if request.borderless then request.width else request.width + windowBorderPixelSize * 2

/-- `total_window_height_bounds`. -/
def totalHeight : UInt64 :=
  if request.borderless then request.height
  else request.height + (windowTitleBarHeight + windowBorderPixelSize)

/-- The nodes below the root, in the order of their creation. -/
def parts : List WindowPart :=
  if request.borderless then [⟨0, 0, request.width, request.height, request.body, false⟩]
  else
    [⟨windowBorderPixelSize, 0, request.width, windowTitleBarHeight, request.titleBar, true⟩,
      ⟨0, windowTitleBarHeight, windowBorderPixelSize, request.height, request.borderLeft, false⟩,
      ⟨request.totalWidth - windowBorderPixelSize, windowTitleBarHeight, windowBorderPixelSize,
        request.height, request.borderRight, false⟩,
      ⟨0, request.totalHeight - windowBorderPixelSize, request.width, windowBorderPixelSize,
        request.borderBottom, false⟩,
      ⟨windowBorderPixelSize, windowTitleBarHeight, request.width, request.height, request.body,
        false⟩]

theorem parts_length : request.parts.length = 1 ∨ request.parts.length = 5 := by
  cases isBorderless : request.borderless with
  | true => exact .inl (by simp [parts, isBorderless])
  | false => exact .inr (by simp [parts, isBorderless])

/-- A borderless window has no terminal in a title bar. -/
def terminals : Bool := (request.borderless || request.titleBarTerminal) && request.terminal

end WindowRequest

/-- The creations below the root; they end at the first one that fails. -/
def createParts (root : Nat) : Nodes → List WindowPart → Option (Bool × Nodes)
  | nodes, [] => some (true, nodes)
  | nodes, part :: rest =>
    match graphicsInfoCreateRelative nodes root part.x part.y part.width part.height 0
      part.alloc with
    | none => none
    | some (none, nodes) => some (false, nodes)
    | some (some graphics, nodes) =>
      if part.clickable then
        match graphicsClickHandlerSet nodes graphics true with
        | none => none
        | some nodes => createParts root nodes rest
      else createParts root nodes rest

/-- A failed `window_create` frees the `struct window`, but no node. -/
def dropWindow (s : WindowSystem) (w : Nat) (pop : Bool) : WindowSystem :=
  { s with
    windowsVector := Elements.vectorPopElement pop s.windowsVector w
    window := Function.update s.window w none }

/-- The end of `window_create`: the window with its nodes is pushed, stacked and focused. -/
def pushWindow (screen : Nat) (s : WindowSystem) (w root : Nat) (request : WindowRequest) :
    Option WindowSystem :=
  match s.nodes root with
  | none => none
  | some rootNode =>
    let window : Window := ⟨root, request.x, request.y, request.width, request.height, 0⟩
    let s := { s with
      window := Function.update s.window w (some window)
      windowsVector := Elements.vectorPush request.push s.windowsVector w }
    (windowSetZIndex s w (UInt64.ofNat (rootNode.children.length + 1)).toUInt32.toInt32
      request.zIndex).bind fun s => windowFocus screen s w request.focus

/-- `window_create`: the new window, if there is one, and the system. -/
def windowCreate (screen : Nat) (s : WindowSystem) (graphicsInfo : Nat) (request : WindowRequest) :
    Option (Option Nat × WindowSystem) :=
  -- The jump to `out` is before the declaration of `window`, which is returned uninitialised.
  if request.width < 1 ∨ request.height < 1 then none
  else
    match request.window with
    | none => some (none, s)
    | some w =>
      if request.eventHandlers = false then some (none, dropWindow s w request.pop)
      else
        match graphicsInfoCreateRelative s.nodes graphicsInfo request.x request.y
          request.totalWidth request.totalHeight graphicsFlagDoNotCopyPixels request.root with
        | none => none
        | some (none, nodes) => some (none, dropWindow { s with nodes } w request.pop)
        | some (some root, nodes) =>
          match createParts root nodes request.parts with
          | none => none
          | some (false, nodes) => some (none, dropWindow { s with nodes } w request.pop)
          | some (true, nodes) =>
            if request.terminals then
              (pushWindow screen { s with nodes } w root request).map fun s => (some w, s)
            else some (none, dropWindow { s with nodes } w request.pop)

/-- The test of `window_get_at_position`, in 64 bits. -/
def windowContains (window : Window) (root : GraphicsInfo) (absX absY : UInt64) : Bool :=
  absX ≥ window.x ∧ absX < root.startingX.toUInt64 + root.width.toUInt64 ∧
    absY ≥ window.y ∧ absY < root.startingY.toUInt64 + root.height.toUInt64

/-- One turn of the loop of `window_get_at_position`. -/
def visitWindow (s : WindowSystem) (absX absY : UInt64) (ignoreWindow : Option Nat) (w : Nat) :
    Option (Option Nat) :=
  if ignoreWindow = some w then some none
  else
    match s.window w with
    | none => none
    | some window =>
      match s.nodes window.rootGraphics with
      | none => none
      | some root =>
        if windowContains window root.info absX absY then some (some w) else some none

/-- `window_get_at_position`. -/
def windowGetAtPosition (s : WindowSystem) (absX absY : UInt64) (ignoreWindow : Option Nat) :
    Option (Option Nat) :=
  firstResult (visitWindow s absX absY ignoreWindow) s.windowsVector

/-! ## Runs -/

/-- The calls on windows, with the memory they get. -/
inductive WindowOp where
  | create (request : WindowRequest)
  | focus (w : Nat) (buffers : StackBuffers)
  | bringToTop (w : Nat) (buffers : StackBuffers)
  | setZIndex (w : Nat) (zindex : Int32) (buffers : StackBuffers)
  | positionSet (w : Nat) (newX newY : UInt64)
  | close (w : Nat) (buffers : CloseBuffers)

namespace WindowRequest

def allocs (request : WindowRequest) : List NodeAlloc :=
  request.root :: request.parts.map WindowPart.alloc

/-- The addresses of the nodes that the request may create. -/
def addresses (request : WindowRequest) : List Nat :=
  request.allocs.filterMap NodeAlloc.newGraphics

/-- The memory of the request is free, and no two of its nodes share an address. -/
structure Fresh (request : WindowRequest) (s : WindowSystem) : Prop where
  window : ∀ w, request.window = some w → s.window w = none
  nodes : ∀ p ∈ request.addresses, s.nodes p = none
  nodup : request.addresses.Nodup

/-- The root is among the nodes that the request may create. -/
theorem mem_addresses {request : WindowRequest} {new : Nat} (isNew : request.root.newGraphics = some new) :
    new ∈ request.addresses := by
  simp [addresses, allocs, isNew]

theorem Fresh.root {request : WindowRequest} {s : WindowSystem} (fresh : request.Fresh s) {new : Nat}
    (isNew : request.root.newGraphics = some new) : s.nodes new = none :=
  fresh.nodes new (mem_addresses isNew)

end WindowRequest

/-- One call.  Windows are created on the screen, and the others are calls on windows that are
there. -/
def WindowCall (screen : Nat) (s : WindowSystem) (op : WindowOp) (after : WindowSystem) : Prop :=
  match op with
  | .create request =>
    request.Fresh s ∧ ∃ result, windowCreate screen s screen request = some (result, after)
  | .focus w buffers => w ∈ s.windowsVector ∧ windowFocus screen s w buffers = some after
  | .bringToTop w buffers => w ∈ s.windowsVector ∧ windowBringToTop screen s w buffers = some after
  | .setZIndex w zindex buffers =>
    w ∈ s.windowsVector ∧ windowSetZIndex s w zindex buffers = some after
  | .positionSet w newX newY =>
    w ∈ s.windowsVector ∧ ∃ fuel, windowMove fuel screen s w newX newY = some after
  | .close w buffers =>
    w ∈ s.windowsVector ∧ ∃ fuel, windowClose fuel screen s w buffers = some after

/-- There is room for the window and for all its nodes. -/
structure WindowRequest.Served (request : WindowRequest) : Prop where
  nodes : ∀ alloc ∈ request.allocs, alloc.HasRoom
  window : request.push = .room

/-- What a call pushes finds room, and what it closes is taken out of its vectors.  Whether children
are sorted does not matter here. -/
def Served (s : WindowSystem) : WindowOp → Prop
  | .create request => request.Served
  | .focus _ _ | .bringToTop _ _ | .setZIndex _ _ _ | .positionSet _ _ _ => True
  | .close w buffers => buffers.window = true ∧
    ∀ window, s.window w = some window → buffers.nodes window.rootGraphics = true

/-- One call that gets memory for what it pushes and pops. -/
def WindowStep (screen : Nat) (s : WindowSystem) (op : WindowOp) (after : WindowSystem) : Prop :=
  Served s op ∧ WindowCall screen s op after

/-- The system as `window_system_initialize` leaves it, over the nodes of `graphics_setup`. -/
def setupWindows (screen : Nat) (mode : GraphicsInfo) : WindowSystem where
  nodes := setupNodes screen mode
  window := fun _ => none
  windowsVector := []
  windowMoving := none
  focusedWindow := none

/-! ## Requests that succeed -/

/-- Both vectors are sorted. -/
def allBuffers : StackBuffers := ⟨true, true⟩

/-- A window as the kernel opens it, at some column, with its memory. -/
def windowRequest (x : UInt64) (window root : Nat) : WindowRequest where
  x
  y := 100
  width := 200
  height := 200
  flags := 0
  window := some window
  eventHandlers := true
  root := freeAlloc (some root)
  titleBar := freeAlloc (some (root + 1))
  borderLeft := freeAlloc (some (root + 2))
  borderRight := freeAlloc (some (root + 3))
  borderBottom := freeAlloc (some (root + 4))
  body := freeAlloc (some (root + 5))
  titleBarTerminal := true
  terminal := true
  push := .room
  zIndex := allBuffers
  focus := allBuffers
  pop := true

theorem windowRequest_served (x : UInt64) (window root : Nat) : (windowRequest x window root).Served where
  nodes alloc member := by
    have bordered : (windowRequest x window root).borderless = false := by
      show decide ((0 : UInt64) &&& windowFlagBorderless ≠ 0) = false
      decide
    simp only [WindowRequest.allocs, WindowRequest.parts, bordered, Bool.false_eq_true, if_false, List.map_cons,
      List.map_nil, List.mem_cons, List.not_mem_nil, or_false] at member
    rcases member with rfl | rfl | rfl | rfl | rfl | rfl
    all_goals exact freeAlloc_room _
  window := rfl

def createdOn (s : WindowSystem) (request : WindowRequest) : WindowSystem :=
  ((windowCreate 1 s 1 request).getD (none, s)).2

theorem windowStep_createdOn {s : WindowSystem} {request : WindowRequest} {w : Nat}
    (served : request.Served) (isWindow : request.window = some w) (freshWindow : (s.window w).isNone)
    (freshNodes : ∀ p ∈ request.addresses, (s.nodes p).isNone) (nodup : request.addresses.Nodup)
    (succeeds : (windowCreate 1 s 1 request).isSome) :
    WindowStep 1 s (.create request) (createdOn s request) := by
  obtain ⟨⟨result, after⟩, created⟩ := Option.isSome_iff_exists.mp succeeds
  refine ⟨served, ⟨?_, ?_, nodup⟩, result, ?_⟩
  · intro w' isWindow'
    rw [isWindow, Option.some.injEq] at isWindow'
    exact isWindow' ▸ Option.isNone_iff_eq_none.mp freshWindow
  · intro p member
    exact Option.isNone_iff_eq_none.mp (freshNodes p member)
  · rw [createdOn, created, Option.getD_some]

end ViOS.Graphics
