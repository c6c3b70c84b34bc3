import ViOS.Graphics.MouseHandlers
import ViOS.Graphics.Stacking
import ViOS.Lib.Run

/-! # The PS/2 mouse

The driver gathers three or four bytes into a packet.  A byte without bit 3 does not begin a
packet, so a byte that is lost shifts the packets until such a byte is dropped.  The deltas move
the coordinates, which stay on the screen, and the window of the cursor moves with them.

The limits of the coordinates are unsigned differences, converted to `int`.

Left out are the ports, the buttons' meaning and the drawing of the cursor.  The vectors
of the handlers find memory, and so does what the windows push and pop.

* `ps2MouseHandleInterrupt`, `mouseRegister` — the code.
* `MouseStep` — interrupts, between them calls on other windows and handlers that are registered.
* `MouseOk` — the coordinates are those of the cursor's window, which is inside the screen.
* `mouse_ok_iff` — every run, behind any calls on windows.
-/

namespace ViOS.Mouse

open ViOS.Graphics ViOS.Lib

/-! ## The code -/

/-- `mouse->graphic`. -/
structure MouseGraphic where
  window : Nat
  width : Int32
  height : Int32

/-- The mouse, the static variables of the handler and the window system.  `actedUpon` are the
packets the handler has acted upon, which it does not keep. -/
structure Ps2Mouse where
  coordsX : Int32
  coordsY : Int32
  clickHandlers : List ClickHandler
  moveHandlers : List MoveHandler
  packet : Nat → UInt8
  packetByteCount : Nat
  system : WindowSystem
  actedUpon : List (Nat → UInt8)

/-- `mouse_position_set`. -/
def mousePositionSet (fuel screen : Nat) (graphic : MouseGraphic) (m : Ps2Mouse) (x y : UInt64) : Option Ps2Mouse :=
  (windowMove fuel screen m.system graphic.window x y).map fun system =>
    { m with coordsX := x.toUInt32.toInt32, coordsY := y.toUInt32.toInt32, system }

/-- `mouse_moved`. -/
def mouseMoved (fuel screen : Nat) (m : Ps2Mouse) : Option Ps2Mouse :=
  (m.moveHandlers.foldlM (MoveHandler.run fuel screen m.coordsX m.coordsY) m.system).map fun system =>
    { m with system }

/-- A new coordinate.  The limit is of type `uint32_t` and converted to `int`. -/
def moveAxis (coordinate : Int32) (delta : Int8) (screenSize : UInt32) (size : Int32) : Int32 :=
  let result := coordinate + delta.toInt32
  let result := if result < 0 then 0 else result
  if result > (screenSize - size.toUInt32).toInt32 then (screenSize - size.toUInt32).toInt32 else result

section Interrupt

-- the memory that each of the click handlers gets
variable (closeButton : Window → UInt64 → UInt64 → Bool) (memory : Nat → ClickBuffers)

/-- `mouse_click`. -/
def mouseClick (fuel screen : Nat) (graphic : MouseGraphic) (m : Ps2Mouse) : Option Ps2Mouse :=
  (m.clickHandlers.zipIdx.foldlM (fun system (handler, i) =>
    ClickHandler.run closeButton fuel screen graphic.window m.coordsX m.coordsY (memory i) system handler)
    m.system).map fun system => { m with system }

/-- The end of `ps2_mouse_handle_interrupt`, for a packet that is complete. -/
def actOnPacket (fuel screen : Nat) (graphic : MouseGraphic) (m : Ps2Mouse) : Option Ps2Mouse := do
  let dx := (m.packet 1).toInt8
  -- In eight bits -128 is its own negative.
  let dy := -(m.packet 2).toInt8
  let leftButton := m.packet 0 &&& 0x01
  let rightButton := (m.packet 0 >>> 1) &&& 0x01
  let screenNode ← m.system.nodes screen
  let m ← mousePositionSet fuel screen graphic m
    (intSize (moveAxis m.coordsX dx screenNode.info.width graphic.width))
    (intSize (moveAxis m.coordsY dy screenNode.info.height graphic.height))
  let m ← if leftButton ≠ 0 ∨ rightButton ≠ 0 then mouseClick closeButton memory fuel screen graphic m else some m
  if dx ≠ 0 ∨ dy ≠ 0 then mouseMoved fuel screen m else some m

/-- `ps2_mouse_handle_interrupt`, with what it reads from the two ports. -/
def ps2MouseHandleInterrupt (fuel screen packetSize : Nat) (graphic : MouseGraphic) (m : Ps2Mouse)
    (status data : UInt8) : Option Ps2Mouse :=
  if status &&& 0x20 = 0 then some m
  else if m.packetByteCount = 0 ∧ data &&& 0x08 = 0 then some m
  else
    let packet := Function.update m.packet m.packetByteCount data
    if m.packetByteCount + 1 < packetSize then some { m with packet, packetByteCount := m.packetByteCount + 1 }
    else
      actOnPacket closeButton memory fuel screen graphic
        { m with packet, packetByteCount := 0, actedUpon := packet :: m.actedUpon }

end Interrupt

/-- The request of `mouse_register` for the window of the cursor, with the memory it gets. -/
def cursorWindow (memory : WindowRequest) (x y width height : Int32) : WindowRequest :=
  { memory with x := intSize x, y := intSize y, width := intSize width, height := intSize height, flags := 0b111 }

/-- `mouse_register` behind the initialisation of the driver; `none` when it gives up.  `buffers` are
those for the number of the cursor. -/
def mouseRegister (screen : Nat) (s : WindowSystem) (width height : Int32) (memory : WindowRequest)
    (buffers : StackBuffers) : Option (MouseGraphic × Ps2Mouse) :=
  match s.nodes screen with
  | none => none
  | some screenNode =>
    let coordsX := (screenNode.info.width / 2).toInt32
    let coordsY := (screenNode.info.height / 2).toInt32
    if width ≤ 0 ∨ height ≤ 0 then none
    else
      match windowCreate screen s screen (cursorWindow memory coordsX coordsY width height) with
      | some (some window, s) =>
        (windowSetZIndex s window mouseGraphicZindex buffers).map fun system => (⟨window, width, height⟩,
          { coordsX, coordsY, clickHandlers := [], moveHandlers := [], packet := fun _ => 0, packetByteCount := 0,
            system, actedUpon := [] })
      | _ => none

/-- All the memory that is asked for. -/
def allClickBuffers : ClickBuffers := ⟨allBuffers, ⟨true, fun _ => true⟩⟩

theorem allClickBuffers_served : allClickBuffers.Served := ⟨rfl, fun _ => rfl⟩

/-! ## Runs -/

/-- What happens to the mouse. -/
inductive MouseEvent where
  | interrupt (status data : UInt8)
  | registerClickHandler (handler : ClickHandler)
  | registerMoveHandler (handler : MoveHandler)
  | call (op : WindowOp)

/-- One event.  Nothing but the mouse moves the window of the cursor, and nothing closes it. -/
def MouseStep (closeButton : Window → UInt64 → UInt64 → Bool) (screen packetSize : Nat) (graphic : MouseGraphic)
    (m : Ps2Mouse) (event : MouseEvent) (after : Ps2Mouse) : Prop :=
  match event with
  | .interrupt status data =>
    ∃ memory fuel, (∀ i, (memory i).Served) ∧
      ps2MouseHandleInterrupt closeButton memory fuel screen packetSize graphic m status data = some after
  | .registerClickHandler handler => after = { m with clickHandlers := m.clickHandlers ++ [handler] }
  | .registerMoveHandler handler => after = { m with moveHandlers := m.moveHandlers ++ [handler] }
  | .call op => Spares graphic.window op ∧ ∃ system, WindowStep screen m.system op system ∧ after = { m with system }

/-! ## Either axis -/

section Axis

variable {screenSize : UInt32} {size coordinate : Int32}

theorem toNat_intSize (nonneg : 0 ≤ coordinate.toInt) : (intSize coordinate).toNat = coordinate.toInt.toNat := by
  have le : (0 : Int64) ≤ coordinate.toInt64 := by
    rw [Int64.le_iff_toInt_le, Int32.toInt_toInt64]
    exact nonneg
  rw [intSize, Int64.toNat_toUInt64_of_le le, Int64.toNatClampNeg, Int32.toInt_toInt64]

theorem intSize_toInt32 (coordinate : Int32) : (intSize coordinate).toUInt32.toInt32 = coordinate := by
  have same := congrArg Int32.toBitVec (Int32.toInt32_toInt64 coordinate)
  rw [Int64.toBitVec_toInt32, BitVec.signExtend_eq_setWidth_of_le _ (by decide)] at same
  apply Int32.toBitVec_inj.mp
  simpa [intSize] using same

/-- The coordinate leaves room for the cursor on the screen. -/
def AxisInside (screenSize : UInt32) (size coordinate : Int32) : Prop :=
  0 ≤ coordinate.toInt ∧ coordinate.toInt ≤ screenSize.toNat - size.toInt

/-- The room for the cursor fits into an `int`. -/
def RoomFits (screenSize : UInt32) (size : Int32) : Prop := (screenSize.toNat : Int) - size.toInt < 2 ^ 31

instance (screenSize : UInt32) (size : Int32) : Decidable (RoomFits screenSize size) :=
  inferInstanceAs (Decidable (_ < _))

instance (screenSize : UInt32) (size coordinate : Int32) : Decidable (AxisInside screenSize size coordinate) :=
  inferInstanceAs (Decidable (_ ∧ _))

theorem toInt_limit (screenSize : UInt32) (size : Int32) :
    (screenSize - size.toUInt32).toInt32.toInt = (screenSize.toNat - size.toInt : Int).bmod (2 ^ 32) := by
  have wide : screenSize.toInt32.toInt = (screenSize.toNat : Int).bmod (2 ^ 32) := BitVec.toInt_eq_toNat_bmod _
  rw [UInt32.toInt32_sub, Int32.toInt32_toUInt32 size, Int32.toInt_sub, wide, Int.bmod_sub_bmod]

section Room

variable (positive : 0 < size.toInt) (room : 2 * size.toInt ≤ screenSize.toNat)

include positive room

/-- The limit is the room for the cursor, or negative. -/
theorem limit_cases :
    (RoomFits screenSize size ∧ (screenSize - size.toUInt32).toInt32.toInt = screenSize.toNat - size.toInt) ∨
      (¬ RoomFits screenSize size ∧ (screenSize - size.toUInt32).toInt32.toInt < 0) := by
  have small := screenSize.toNat_lt
  rw [RoomFits, toInt_limit, Int.bmod_def]
  omega

theorem moveAxis_inside_iff (coordinate : Int32) (delta : Int8) :
    AxisInside screenSize size (moveAxis coordinate delta screenSize size) ↔ RoomFits screenSize size := by
  have nonneg : 0 ≤ (if coordinate + delta.toInt32 < 0 then 0 else coordinate + delta.toInt32 : Int32).toInt := by
    split
    · decide
    · next notNegative => rwa [Int32.lt_iff_toInt_lt, Int32.toInt_zero, Int.not_lt] at notNegative
  simp only [AxisInside, moveAxis]
  generalize (if coordinate + delta.toInt32 < 0 then 0 else coordinate + delta.toInt32 : Int32) = result at nonneg ⊢
  rcases limit_cases positive room with ⟨fits, limit⟩ | ⟨tooWide, negative⟩
  · rw [iff_true_right fits]
    split
    · omega
    · next notAbove =>
      rw [gt_iff_lt, Int32.lt_iff_toInt_lt] at notAbove
      omega
  · rw [iff_false_right tooWide, if_pos (Int32.lt_iff_toInt_lt.mpr (by omega))]
    omega

/-- The middle of the screen leaves room. -/
theorem half_inside : AxisInside screenSize size (screenSize / 2).toInt32 := by
  have small := screenSize.toNat_lt
  have half : (screenSize / 2).toInt32.toInt = (screenSize.toNat / 2 : Nat) := by
    have wide : (screenSize / 2).toInt32.toInt = ((screenSize / 2).toNat : Int).bmod (2 ^ 32) :=
      BitVec.toInt_eq_toNat_bmod _
    rw [wide, UInt32.toNat_div]
    change Int.bmod ((screenSize.toNat / 2 : Nat) : Int) (2 ^ 32) = _
    rw [Int.bmod_def]
    omega
  rw [AxisInside, half]
  omega

end Room

/-- A position that leaves room is not clamped again. -/
theorem clampPosition_inside (positive : 0 < size.toInt) (inside : AxisInside screenSize size coordinate) :
    clampPosition screenSize.toUInt64 (intSize size) (intSize coordinate) = intSize coordinate := by
  obtain ⟨nonneg, below⟩ := inside
  have small := screenSize.toNat_lt
  rw [clampPosition, if_neg]
  rw [gt_iff_lt, UInt64.lt_iff_toNat_lt, UInt64.toNat_add, toNat_intSize nonneg, toNat_intSize positive.le,
    UInt32.toNat_toUInt64]
  omega

end Axis

/-! ## One packet -/

/-- The bytes of a packet begin with one that has bit 3 set. -/
def Synced (packet : Nat → UInt8) : Prop := packet 0 &&& 0x08 ≠ 0

/-- The cursor's window has the size of the graphic, and is at the coordinates. -/
structure CursorAt (screen : Nat) (graphic : MouseGraphic) (width height : UInt32) (shown : Window) (m : Ps2Mouse) :
    Prop extends CursorOk screen graphic.window width height shown m.system where
  width_eq : shown.width = intSize graphic.width
  height_eq : shown.height = intSize graphic.height
  x_eq : shown.x = intSize m.coordsX
  y_eq : shown.y = intSize m.coordsY

/-- Only the system and the coordinates matter. -/
theorem CursorAt.of_eq {screen : Nat} {graphic : MouseGraphic} {width height : UInt32} {shown : Window}
    {m after : Ps2Mouse} (at' : CursorAt screen graphic width height shown m) (system : after.system = m.system)
    (x : after.coordsX = m.coordsX) (y : after.coordsY = m.coordsY) :
    CursorAt screen graphic width height shown after where
  toCursorOk := system ▸ at'.toCursorOk
  width_eq := at'.width_eq
  height_eq := at'.height_eq
  x_eq := x ▸ at'.x_eq
  y_eq := y ▸ at'.y_eq

/-- What a packet that is acted upon leads to. -/
structure Acted (screen : Nat) (graphic : MouseGraphic) (width height : UInt32) (m after : Ps2Mouse) : Prop where
  coordsX : after.coordsX = moveAxis m.coordsX (m.packet 1).toInt8 width graphic.width
  coordsY : after.coordsY = moveAxis m.coordsY (-(m.packet 2).toInt8) height graphic.height
  count : after.packetByteCount = m.packetByteCount
  actedUpon : after.actedUpon = m.actedUpon
  cursor : ∀ shown, CursorAt screen graphic width height shown m → AxisInside width graphic.width after.coordsX →
    AxisInside height graphic.height after.coordsY → ∃ shown, CursorAt screen graphic width height shown after

/-- A loop over handlers keeps what each of them keeps. -/
theorem foldlM_keeps {α β : Type} {f : α → β → Option α} {P : α → Prop}
    (keeps : ∀ a b after, f a b = some after → P a → P after) {l : List β} {a after : α}
    (ran : l.foldlM f a = some after) (start : P a) : P after := by
  induction l generalizing a with
  | nil => exact Option.some.inj ran ▸ start
  | cons b l ih =>
    rw [List.foldlM_cons] at ran
    obtain ⟨middle, first, rest⟩ := Option.bind_eq_some_iff.mp ran
    exact ih rest (keeps a b middle first start)

/-- The handlers change the window system only, and not the cursor's window. -/
def Handled (screen : Nat) (graphic : MouseGraphic) (m after : Ps2Mouse) : Prop :=
  ∃ system, after = { m with system } ∧ ∀ width height shown,
    CursorOk screen graphic.window width height shown m.system →
      CursorOk screen graphic.window width height shown system

section Packet

variable {closeButton : Window → UInt64 → UInt64 → Bool} {memory : Nat → ClickBuffers}
  {fuel screen packetSize : Nat} {graphic : MouseGraphic} {width height : UInt32} {m after : Ps2Mouse}

theorem Handled.refl : Handled screen graphic m m := ⟨m.system, rfl, fun _ _ _ ok => ok⟩

theorem Handled.trans {middle : Ps2Mouse} (first : Handled screen graphic m middle)
    (second : Handled screen graphic middle after) : Handled screen graphic m after := by
  obtain ⟨system, rfl, keeps⟩ := first
  obtain ⟨last, rfl, keepsLast⟩ := second
  exact ⟨last, rfl, fun width height shown ok => keepsLast width height shown (keeps width height shown ok)⟩

theorem mouseClick_handled (served : ∀ i, (memory i).Served)
    (clicked : mouseClick closeButton memory fuel screen graphic m = some after) : Handled screen graphic m after := by
  obtain ⟨system, ran, rfl⟩ := Option.map_eq_some_iff.mp clicked
  exact ⟨system, rfl, fun _ _ _ =>
    foldlM_keeps (fun _ handler _ run ok => ok.click closeButton (served handler.2) handler.1 run) ran⟩

theorem mouseMoved_handled {p : Prop} [Decidable p]
    (moved : (if p then mouseMoved fuel screen m else some m) = some after) : Handled screen graphic m after := by
  split at moved
  · obtain ⟨system, ran, rfl⟩ := Option.map_eq_some_iff.mp moved
    exact ⟨system, rfl, fun _ _ _ => foldlM_keeps (fun _ handler _ run ok => ok.movement handler run) ran⟩
  · exact Option.some.inj moved ▸ .refl

theorem mousePositionSet_coords {x y : Int32}
    (moved : mousePositionSet fuel screen graphic m (intSize x) (intSize y) = some after) :
    after.coordsX = x ∧ after.coordsY = y ∧ after.packetByteCount = m.packetByteCount ∧
      after.actedUpon = m.actedUpon := by
  obtain ⟨system, ran, rfl⟩ := Option.map_eq_some_iff.mp moved
  exact ⟨intSize_toInt32 x, intSize_toInt32 y, rfl, rfl⟩

/-- Moving the cursor to coordinates that leave room for it. -/
theorem mousePositionSet_cursorAt {x y : Int32} {shown : Window} (at' : CursorAt screen graphic width height shown m)
    (moved : mousePositionSet fuel screen graphic m (intSize x) (intSize y) = some after)
    (positiveX : 0 < graphic.width.toInt) (positiveY : 0 < graphic.height.toInt)
    (insideX : AxisInside width graphic.width x) (insideY : AxisInside height graphic.height y) :
    ∃ shown, CursorAt screen graphic width height shown after := by
  obtain ⟨system, ran, rfl⟩ := Option.map_eq_some_iff.mp moved
  have ok := at'.toCursorOk.move ran
  rw [at'.width_eq, at'.height_eq, clampPosition_inside positiveX insideX, clampPosition_inside positiveY insideY] at ok
  exact ⟨_, ok, rfl, rfl, congrArg intSize (intSize_toInt32 x).symm, congrArg intSize (intSize_toInt32 y).symm⟩

theorem actOnPacket_acted (served : ∀ i, (memory i).Served)
    (acted : actOnPacket closeButton memory fuel screen graphic m = some after)
    (size : ∃ node, m.system.nodes screen = some node ∧ node.info.width = width ∧ node.info.height = height)
    (positiveX : 0 < graphic.width.toInt) (positiveY : 0 < graphic.height.toInt) :
    Acted screen graphic width height m after := by
  obtain ⟨node, screenLive, rfl, rfl⟩ := size
  simp only [actOnPacket, screenLive, Option.bind_eq_bind, Option.bind_some, Option.bind_eq_some_iff] at acted
  generalize xEq : moveAxis m.coordsX (m.packet 1).toInt8 node.info.width graphic.width = x at acted
  generalize yEq : moveAxis m.coordsY (-(m.packet 2).toInt8) node.info.height graphic.height = y at acted
  obtain ⟨placed, moved, handlers⟩ := acted
  have handled : Handled screen graphic placed after := by
    split at handlers
    · obtain ⟨clicked, click, movement⟩ := Option.bind_eq_some_iff.mp handlers
      exact (mouseClick_handled served click).trans (mouseMoved_handled movement)
    · exact mouseMoved_handled handlers
  obtain ⟨coordsX, coordsY, count, actedUpon⟩ := mousePositionSet_coords moved
  obtain ⟨system, rfl, keeps⟩ := handled
  refine ⟨coordsX.trans xEq.symm, coordsY.trans yEq.symm, count, actedUpon, fun shown at' insideX insideY => ?_⟩
  obtain ⟨shown', placedAt⟩ := mousePositionSet_cursorAt at' moved positiveX positiveY (coordsX ▸ insideX)
    (coordsY ▸ insideY)
  exact ⟨shown', keeps _ _ _ placedAt.toCursorOk, placedAt.width_eq, placedAt.height_eq, placedAt.x_eq, placedAt.y_eq⟩

/-- One more byte of a packet that is not complete. -/
def Ps2Mouse.gather (m : Ps2Mouse) (data : UInt8) : Ps2Mouse :=
  { m with packet := Function.update m.packet m.packetByteCount data, packetByteCount := m.packetByteCount + 1 }

/-- The last byte of a packet. -/
def Ps2Mouse.complete (m : Ps2Mouse) (data : UInt8) : Ps2Mouse :=
  { m with
    packet := Function.update m.packet m.packetByteCount data
    packetByteCount := 0
    actedUpon := Function.update m.packet m.packetByteCount data :: m.actedUpon }

/-- What an interrupt can do: nothing, gather a byte or act upon a packet. -/
theorem interrupt_cases {status data : UInt8}
    (handled : ps2MouseHandleInterrupt closeButton memory fuel screen packetSize graphic m status data = some after) :
    after = m ∨ (m.packetByteCount = 0 → data &&& 0x08 ≠ 0) ∧
      ((m.packetByteCount + 1 < packetSize ∧ after = m.gather data) ∨
        actOnPacket closeButton memory fuel screen graphic (m.complete data) = some after) := by
  unfold ps2MouseHandleInterrupt at handled
  split at handled
  · exact .inl (Option.some.inj handled).symm
  · split at handled
    · exact .inl (Option.some.inj handled).symm
    · next accepted =>
      refine .inr ⟨fun first bit => accepted ⟨first, bit⟩, ?_⟩
      split at handled
      · next more => exact .inl ⟨more, (Option.some.inj handled).symm⟩
      · exact .inr handled

end Packet

/-! ## Every run -/

/-- The bytes of the next packet are fewer than its size, the packets acted upon began with bit 3,
and the coordinates are those of the cursor's window and leave room for it. -/
structure MouseOk (packetSize : Nat) (graphic : MouseGraphic) (width height : UInt32) (m : Ps2Mouse) : Prop where
  count : m.packetByteCount < packetSize
  acted : ∀ packet ∈ m.actedUpon, Synced packet
  insideX : AxisInside width graphic.width m.coordsX
  insideY : AxisInside height graphic.height m.coordsY
  position : ∃ window, m.system.window graphic.window = some window ∧
    (window.x.toNat : Int) = m.coordsX.toInt ∧ (window.y.toNat : Int) = m.coordsY.toInt

/-- The invariant: the packet that is gathered begins with bit 3, too. -/
structure MouseInv (screen packetSize : Nat) (graphic : MouseGraphic) (width height : UInt32) (m : Ps2Mouse) :
    Prop where
  count : m.packetByteCount < packetSize
  first : m.packetByteCount ≠ 0 → Synced m.packet
  acted : ∀ packet ∈ m.actedUpon, Synced packet
  insideX : AxisInside width graphic.width m.coordsX
  insideY : AxisInside height graphic.height m.coordsY
  cursor : ∃ shown, CursorAt screen graphic width height shown m

/-- A screen at least twice as wide and as high as the cursor, which has a size. -/
structure CursorFits (graphic : MouseGraphic) (width height : UInt32) : Prop where
  positiveX : 0 < graphic.width.toInt
  positiveY : 0 < graphic.height.toInt
  roomX : 2 * graphic.width.toInt ≤ width.toNat
  roomY : 2 * graphic.height.toInt ≤ height.toNat

section Run

variable {closeButton : Window → UInt64 → UInt64 → Bool} {screen packetSize : Nat} {graphic : MouseGraphic}
  {width height : UInt32} {m after : Ps2Mouse}

theorem MouseInv.ok (inv : MouseInv screen packetSize graphic width height m) :
    MouseOk packetSize graphic width height m := by
  refine ⟨inv.count, inv.acted, inv.insideX, inv.insideY, ?_⟩
  obtain ⟨shown, at'⟩ := inv.cursor
  refine ⟨shown, at'.live, ?_, ?_⟩
  · rw [at'.x_eq, toNat_intSize inv.insideX.1, Int.toNat_of_nonneg inv.insideX.1]
  · rw [at'.y_eq, toNat_intSize inv.insideY.1, Int.toNat_of_nonneg inv.insideY.1]

theorem synced_update {data : UInt8} (inv : MouseInv screen packetSize graphic width height m)
    (accepted : m.packetByteCount = 0 → data &&& 0x08 ≠ 0) :
    Synced (Function.update m.packet m.packetByteCount data) := by
  by_cases isFirst : m.packetByteCount = 0
  · rw [Synced, isFirst, Function.update_self]
    exact accepted isFirst
  · rw [Synced, Function.update_of_ne (Ne.symm isFirst)]
    exact inv.first isFirst

theorem MouseInv.gather {data : UInt8} (inv : MouseInv screen packetSize graphic width height m)
    (accepted : m.packetByteCount = 0 → data &&& 0x08 ≠ 0) (more : m.packetByteCount + 1 < packetSize) :
    MouseInv screen packetSize graphic width height (m.gather data) := by
  obtain ⟨shown, at'⟩ := inv.cursor
  exact ⟨more, fun _ => synced_update inv accepted, inv.acted, inv.insideX, inv.insideY, shown, at'.of_eq rfl rfl rfl⟩

/-- The packet is acted upon, when the limits of the coordinates fit. -/
theorem MouseInv.interrupt {memory : Nat → ClickBuffers} (served : ∀ i, (memory i).Served) {fuel : Nat}
    {status data : UInt8} (fits : CursorFits graphic width height)
    (rooms : RoomFits width graphic.width ∧ RoomFits height graphic.height)
    (inv : MouseInv screen packetSize graphic width height m)
    (handled : ps2MouseHandleInterrupt closeButton memory fuel screen packetSize graphic m status data = some after) :
    MouseInv screen packetSize graphic width height after := by
  obtain ⟨shown, at'⟩ := inv.cursor
  rcases interrupt_cases handled with rfl | ⟨accepted, ⟨more, rfl⟩ | acted⟩
  · exact inv
  · exact inv.gather accepted more
  · have effect := actOnPacket_acted served acted at'.size fits.positiveX fits.positiveY
    have insideX : AxisInside width graphic.width after.coordsX := by
      rw [effect.coordsX, moveAxis_inside_iff fits.positiveX fits.roomX]
      exact rooms.1
    have insideY : AxisInside height graphic.height after.coordsY := by
      rw [effect.coordsY, moveAxis_inside_iff fits.positiveY fits.roomY]
      exact rooms.2
    have count : after.packetByteCount = 0 := effect.count
    have cursor := effect.cursor shown (at'.of_eq rfl rfl rfl) insideX insideY
    refine ⟨count ▸ Nat.zero_lt_of_lt inv.count, fun notZero => absurd count notZero, ?_, insideX, insideY, cursor⟩
    rw [effect.actedUpon]
    exact List.forall_mem_cons.mpr ⟨synced_update inv accepted, inv.acted⟩

theorem mouseStep_gather {data : UInt8} (accepted : m.packetByteCount = 0 → data &&& 0x08 ≠ 0)
    (more : m.packetByteCount + 1 < packetSize) :
    MouseStep closeButton screen packetSize graphic m (.interrupt 0x20 data) (m.gather data) := by
  refine ⟨fun _ => allClickBuffers, 0, fun _ => allClickBuffers_served, ?_⟩
  rw [ps2MouseHandleInterrupt, if_neg (by decide), if_neg (fun both => accepted both.1 both.2)]
  exact if_pos more

/-- The bytes so far are bit 3 alone and zeros behind it. -/
def Quiet (packet : Nat → UInt8) (count : Nat) : Prop := packet 0 = 0x08 ∧ ∀ i, i ≠ 0 → i < count → packet i = 0

theorem Quiet.update {packet : Nat → UInt8} {count : Nat} (quiet : Quiet packet count) (begun : count ≠ 0) :
    Quiet (Function.update packet count 0) (count + 1) := by
  refine ⟨by rw [Function.update_of_ne (Ne.symm begun), quiet.1], fun i notFirst before => ?_⟩
  by_cases isLast : i = count
  · rw [isLast, Function.update_self]
  · rw [Function.update_of_ne isLast]
    exact quiet.2 i notFirst (by omega)

/-- A packet without deltas and buttons is acted upon. -/
theorem MouseInv.act_returns {data : UInt8} {count : Nat} (inv : MouseInv screen packetSize graphic width height m)
    (quiet : Quiet (m.complete data).packet count) (atLeast : 3 ≤ count) :
    ∃ fuel after, actOnPacket closeButton (fun _ => allClickBuffers) fuel screen graphic (m.complete data) = some after := by
  obtain ⟨shown, at'⟩ := inv.cursor
  obtain ⟨node, screenLive, -⟩ := at'.size
  have onScreen := at'.root_mem at'.member
  rw [rootOf_eq at'.live] at onScreen
  obtain ⟨root, rootLive, -⟩ := at'.live_of_mem_stack onScreen
  obtain ⟨fuel, system, moved⟩ := at'.toWindowsOk.move_returns at'.member screenLive at'.live rootLive at'.few
    (intSize (moveAxis m.coordsX (0 : UInt8).toInt8 node.info.width graphic.width))
    (intSize (moveAxis m.coordsY (-(0 : UInt8).toInt8) node.info.height graphic.height))
  obtain ⟨placed, isPlaced⟩ : ∃ placed, mousePositionSet fuel screen graphic (m.complete data)
      (intSize (moveAxis m.coordsX (0 : UInt8).toInt8 node.info.width graphic.width))
      (intSize (moveAxis m.coordsY (-(0 : UInt8).toInt8) node.info.height graphic.height)) = some placed :=
    ⟨_, Option.map_eq_some_iff.mpr ⟨system, moved, rfl⟩⟩
  have dx := quiet.2 1 (by decide) (by omega)
  have dy := quiet.2 2 (by decide) (by omega)
  have sameSystem : (m.complete data).system = m.system := rfl
  refine ⟨fuel, placed, ?_⟩
  rw [actOnPacket, quiet.1, dx, dy, sameSystem, screenLive]
  exact Option.bind_eq_some_iff.mpr ⟨node, rfl, Option.bind_eq_some_iff.mpr ⟨placed, isPlaced, rfl⟩⟩

/-- Without room in an `int`, zeros behind the first byte of a packet take the cursor off the screen. -/
theorem MouseInv.zeros (fits : CursorFits graphic width height)
    (tooWide : ¬ (RoomFits width graphic.width ∧ RoomFits height graphic.height)) (atLeast : 3 ≤ packetSize)
    (missing : Nat) (inv : MouseInv screen packetSize graphic width height m) (begun : m.packetByteCount ≠ 0)
    (quiet : Quiet m.packet m.packetByteCount) (lacks : m.packetByteCount + missing + 1 = packetSize) :
    ∃ run, IsRun (MouseStep closeButton screen packetSize graphic) m run ∧
      ∃ t ∈ runStates m run, ¬ MouseOk packetSize graphic width height t := by
  induction missing generalizing m with
  | zero =>
    -- The last byte: the packet is acted upon.
    obtain ⟨fuel, after, acted⟩ := inv.act_returns (quiet.update begun) (by omega)
    obtain ⟨shown, at'⟩ := inv.cursor
    have effect := actOnPacket_acted (fun _ => allClickBuffers_served) acted at'.size fits.positiveX fits.positiveY
    have step : MouseStep closeButton screen packetSize graphic m (.interrupt 0x20 0) after := by
      refine ⟨fun _ => allClickBuffers, fuel, fun _ => allClickBuffers_served, ?_⟩
      rw [ps2MouseHandleInterrupt, if_neg (by decide), if_neg (fun both => begun both.1)]
      exact (if_neg (by omega)).trans acted
    refine ⟨[(_, after)], ⟨step, trivial⟩, after, by simp, fun ok => tooWide ⟨?_, ?_⟩⟩
    · have inside := ok.insideX
      rwa [effect.coordsX, moveAxis_inside_iff fits.positiveX fits.roomX] at inside
    · have inside := ok.insideY
      rwa [effect.coordsY, moveAxis_inside_iff fits.positiveY fits.roomY] at inside
  | succ missing ih =>
    have more : m.packetByteCount + 1 < packetSize := by omega
    have lacksLess : (m.gather 0).packetByteCount + missing + 1 = packetSize := by
      simp only [Ps2Mouse.gather]
      omega
    have accepted : m.packetByteCount = 0 → (0 : UInt8) &&& 0x08 ≠ 0 := fun isFirst => absurd isFirst begun
    obtain ⟨run, isRun, t, member, notOk⟩ := ih (inv.gather accepted more) (Nat.succ_ne_zero _) (quiet.update begun)
      lacksLess
    exact ⟨(_, m.gather 0) :: run, ⟨mouseStep_gather accepted more, isRun⟩, t, List.mem_cons_of_mem _ member, notOk⟩

/-- A packet of its first byte and zeros takes the cursor off the screen. -/
theorem MouseInv.exists_not_ok (fits : CursorFits graphic width height)
    (tooWide : ¬ (RoomFits width graphic.width ∧ RoomFits height graphic.height)) (atLeast : 3 ≤ packetSize)
    (inv : MouseInv screen packetSize graphic width height m) (empty : m.packetByteCount = 0) :
    ∃ run, IsRun (MouseStep closeButton screen packetSize graphic) m run ∧
      ∃ t ∈ runStates m run, ¬ MouseOk packetSize graphic width height t := by
  have more : m.packetByteCount + 1 < packetSize := by omega
  have isOne : (m.gather 0x08).packetByteCount = 1 := by rw [Ps2Mouse.gather, empty]
  have quiet : Quiet (m.gather 0x08).packet (m.gather 0x08).packetByteCount := by
    refine ⟨?_, by omega⟩
    show Function.update m.packet m.packetByteCount 0x08 0 = 0x08
    rw [empty, Function.update_self]
  have accepted : m.packetByteCount = 0 → (0x08 : UInt8) &&& 0x08 ≠ 0 := fun _ => by decide
  obtain ⟨run, isRun, t, member, notOk⟩ := (inv.gather accepted more).zeros fits tooWide atLeast (packetSize - 2)
    (by omega) quiet (by omega)
  exact ⟨(_, m.gather 0x08) :: run, ⟨mouseStep_gather accepted more, isRun⟩, t, List.mem_cons_of_mem _ member, notOk⟩

theorem mouseStep_inv (fits : CursorFits graphic width height)
    (rooms : RoomFits width graphic.width ∧ RoomFits height graphic.height) {event : MouseEvent}
    (step : MouseStep closeButton screen packetSize graphic m event after)
    (inv : MouseInv screen packetSize graphic width height m) :
    MouseInv screen packetSize graphic width height after := by
  obtain ⟨shown, at'⟩ := inv.cursor
  cases event with
  | interrupt status data =>
    obtain ⟨memory, fuel, served, handled⟩ := step
    exact inv.interrupt served fits rooms handled
  | registerClickHandler handler =>
    subst step
    exact ⟨inv.count, inv.first, inv.acted, inv.insideX, inv.insideY, shown, at'.of_eq rfl rfl rfl⟩
  | registerMoveHandler handler =>
    subst step
    exact ⟨inv.count, inv.first, inv.acted, inv.insideX, inv.insideY, shown, at'.of_eq rfl rfl rfl⟩
  | call op =>
    obtain ⟨spares, system, step, rfl⟩ := step
    exact ⟨inv.count, inv.first, inv.acted, inv.insideX, inv.insideY, shown, at'.toCursorOk.step step spares,
      at'.width_eq, at'.height_eq, at'.x_eq, at'.y_eq⟩

theorem mouseRegister_graphic {s : WindowSystem} {memory : WindowRequest} {cursorWidth cursorHeight : Int32}
    {buffers : StackBuffers} (registered : mouseRegister screen s cursorWidth cursorHeight memory buffers = some (graphic, m)) :
    graphic.width = cursorWidth ∧ graphic.height = cursorHeight ∧ 0 < cursorWidth.toInt ∧ 0 < cursorHeight.toInt ∧
      m.packetByteCount = 0 := by
  unfold mouseRegister at registered
  split at registered
  · simp at registered
  · dsimp only at registered
    split at registered
    · simp at registered
    · next positive =>
      simp only [Int32.le_iff_toInt_le, Int32.toInt_zero, not_or, Int.not_le] at positive
      split at registered
      · obtain ⟨system, -, same⟩ := Option.map_eq_some_iff.mp registered
        obtain ⟨rfl, rfl⟩ := Prod.mk.inj same
        exact ⟨rfl, rfl, positive.1, positive.2, rfl⟩
      · simp at registered

/-- The mouse as it is registered, behind any calls on windows. -/
theorem mouseRegister_inv {s : WindowSystem} (ok : ScreenOk screen width height s) {memory : WindowRequest}
    {cursorWidth cursorHeight : Int32} {buffers : StackBuffers} (positive : 0 < packetSize)
    (served : (cursorWindow memory (width / 2).toInt32 (height / 2).toInt32 cursorWidth cursorHeight).Served)
    (fresh : (cursorWindow memory (width / 2).toInt32 (height / 2).toInt32 cursorWidth cursorHeight).Fresh s)
    (registered : mouseRegister screen s cursorWidth cursorHeight memory buffers = some (graphic, m))
    (fits : CursorFits graphic width height) : MouseInv screen packetSize graphic width height m := by
  obtain ⟨node, screenLive, rfl, rfl⟩ := ok.size
  simp only [mouseRegister, screenLive] at registered
  split at registered
  · simp at registered
  · split at registered
    · next w created isCreated =>
      obtain ⟨system, set, same⟩ := Option.map_eq_some_iff.mp registered
      obtain ⟨rfl, rfl⟩ := Prod.mk.inj same
      obtain ⟨root, okCreated⟩ := ok.create served fresh isCreated
      have step : WindowStep screen created (.setZIndex w mouseGraphicZindex buffers) system :=
        ⟨trivial, okCreated.member, set⟩
      exact ⟨positive, fun notZero => absurd rfl notZero, by simp, half_inside fits.positiveX fits.roomX,
        half_inside fits.positiveY fits.roomY, _, okCreated.step step trivial, rfl, rfl, rfl, rfl⟩
    · simp at registered

end Run

/-- The state of the mouse, its coordinates and its window agree after every event of every run, if
and only if the room for the cursor on the screen fits into an `int`. -/
theorem mouse_ok_iff (closeButton : Window → UInt64 → UInt64 → Bool) (screen packetSize : Nat)
    (threeOrFour : packetSize = 3 ∨ packetSize = 4) (mode : GraphicsInfo) (before : List (WindowOp × WindowSystem))
    (isBefore : IsRun (WindowStep screen) (setupWindows screen mode) before) (s : WindowSystem)
    (reached : s ∈ runStates (setupWindows screen mode) before) (memory : WindowRequest)
    (cursorWidth cursorHeight : Int32) (buffers : StackBuffers)
    (served : (cursorWindow memory ((graphicsSetup mode).width / 2).toInt32 ((graphicsSetup mode).height / 2).toInt32
      cursorWidth cursorHeight).Served)
    (fresh : (cursorWindow memory ((graphicsSetup mode).width / 2).toInt32 ((graphicsSetup mode).height / 2).toInt32
      cursorWidth cursorHeight).Fresh s)
    (graphic : MouseGraphic) (start : Ps2Mouse)
    (registered : mouseRegister screen s cursorWidth cursorHeight memory buffers = some (graphic, start))
    (wide : 2 * cursorWidth.toInt ≤ (graphicsSetup mode).width.toNat)
    (high : 2 * cursorHeight.toInt ≤ (graphicsSetup mode).height.toNat) :
    (∀ run, IsRun (MouseStep closeButton screen packetSize graphic) start run → ∀ m ∈ runStates start run,
        MouseOk packetSize graphic (graphicsSetup mode).width (graphicsSetup mode).height m) ↔
      RoomFits (graphicsSetup mode).width cursorWidth ∧ RoomFits (graphicsSetup mode).height cursorHeight := by
  have ok : ScreenOk screen (graphicsSetup mode).width (graphicsSetup mode).height s :=
    inv_of_everyStep (fun _ _ _ step _ ok => ok.step step) isBefore
      (everyStep_of_inv (fun _ _ _ step ok => ScreenOk.step ok step) (fun _ _ _ _ _ => trivial) isBefore
        (screenOk_setup screen mode)) (screenOk_setup screen mode) s reached
  obtain ⟨rfl, rfl, positiveX, positiveY, empty⟩ := mouseRegister_graphic registered
  have fits : CursorFits graphic (graphicsSetup mode).width (graphicsSetup mode).height :=
    ⟨positiveX, positiveY, wide, high⟩
  have inv := mouseRegister_inv ok (show 0 < packetSize by omega) served fresh registered fits
  constructor
  · intro allOk
    by_contra tooWide
    obtain ⟨run, isRun, t, member, notOk⟩ := inv.exists_not_ok fits tooWide (by omega) empty
    exact notOk (allOk run isRun t member)
  · intro rooms run isRun m member
    have allOk : EveryStep (fun _ _ => True) start run :=
      everyStep_of_inv (fun _ _ _ step inv => mouseStep_inv fits rooms step inv) (fun _ _ _ _ _ => trivial) isRun inv
    exact (inv_of_everyStep (fun _ _ _ step _ inv => mouseStep_inv fits rooms step inv) isRun allOk inv m member).ok

/-! ## Two screens -/

/-- Title bars without a close button. -/
def noButton (_ : Window) (_ _ : UInt64) : Bool := false

/-- The mouse with the default graphic on an empty screen. -/
def registered (mode : GraphicsInfo) : Option (MouseGraphic × Ps2Mouse) :=
  mouseRegister 1 (setupWindows 1 mode) 10 10 cursorRequest allBuffers

theorem cursorWindow_borderless (x y : Int32) : (cursorWindow cursorRequest x y 10 10).borderless = true := by
  show decide ((0b111 : UInt64) &&& windowFlagBorderless ≠ 0) = true
  decide

theorem served_cursorWindow (x y : Int32) : (cursorWindow cursorRequest x y 10 10).Served where
  nodes alloc member := by
    simp only [WindowRequest.allocs, WindowRequest.parts, cursorWindow_borderless, if_true, List.map_cons, List.map_nil,
      List.mem_cons, List.not_mem_nil, or_false] at member
    rcases member with rfl | rfl
    all_goals exact freeAlloc_room _
  window := rfl

theorem fresh_setup (mode : GraphicsInfo) (x y : Int32) : (cursorWindow cursorRequest x y 10 10).Fresh
    (setupWindows 1 mode) := by
  have addresses : (cursorWindow cursorRequest x y 10 10).addresses = [10, 11] := by
    rw [WindowRequest.addresses, WindowRequest.allocs, WindowRequest.parts, if_pos (cursorWindow_borderless x y)]
    rfl
  refine ⟨fun _ _ => rfl, fun p member => ?_, by rw [addresses]; decide⟩
  rw [addresses] at member
  have apart : p ≠ 1 := by
    rintro rfl
    simp at member
  simp [setupWindows, setupNodes, Nodes.set, apart]

/-- On a screen of the usual size the mouse is never lost. -/
theorem mouse_ok_usual : ∃ graphic start, registered emptyMode = some (graphic, start) ∧
    ∀ run, IsRun (MouseStep noButton 1 3 graphic) start run → ∀ m ∈ runStates start run,
      MouseOk 3 graphic 640 480 m := by
  obtain ⟨⟨graphic, start⟩, isRegistered⟩ := Option.isSome_iff_exists.mp
    (show (registered emptyMode).isSome by decide +kernel)
  exact ⟨graphic, start, isRegistered, (mouse_ok_iff noButton 1 3 (.inl rfl) emptyMode [] trivial
    (setupWindows 1 emptyMode) (List.mem_singleton.mpr rfl) cursorRequest 10 10 allBuffers (served_cursorWindow _ _) (fresh_setup _ _ _)
    graphic start isRegistered (by decide) (by decide)).mpr ⟨by decide, by decide⟩⟩

/-- A screen more than `2 ^ 31` pixels wide. -/
def wideMode : GraphicsInfo := { emptyMode with horizontalResolution := 2 ^ 31 + 20, verticalResolution := 20 }

def wideMouse : MouseGraphic × Ps2Mouse := (registered wideMode).get (by decide +kernel)

/-- The wide screen's mouse behind the bytes 8, 0 and 0. -/
def wideMoved : Ps2Mouse :=
  (ps2MouseHandleInterrupt noButton (fun _ => allClickBuffers) 6 1 3 wideMouse.1 ((wideMouse.2.gather 0x08).gather 0) 0x20 0).getD wideMouse.2

/-- On the wide screen the first packet sets a negative coordinate. -/
theorem mouse_lost_wide : ∃ graphic start run, registered wideMode = some (graphic, start) ∧
    2 * graphic.width.toInt ≤ (graphicsSetup wideMode).width.toNat ∧
    2 * graphic.height.toInt ≤ (graphicsSetup wideMode).height.toNat ∧
    IsRun (MouseStep noButton 1 3 graphic) start run ∧
    run.map Prod.fst = [.interrupt 0x20 0x08, .interrupt 0x20 0, .interrupt 0x20 0] ∧
    ∃ t ∈ runStates start run, t.coordsX.toInt < 0 ∧
      ¬ MouseOk 3 graphic (graphicsSetup wideMode).width (graphicsSetup wideMode).height t := by
  have isRegistered : registered wideMode = some wideMouse := (Option.some_get (by decide +kernel)).symm
  have empty : wideMouse.2.packetByteCount = 0 := by decide +kernel
  have isOne : (wideMouse.2.gather 0x08).packetByteCount = 1 := by decide +kernel
  have first : MouseStep noButton 1 3 wideMouse.1 wideMouse.2 (.interrupt 0x20 0x08) (wideMouse.2.gather 0x08) :=
    mouseStep_gather (fun _ => by decide) (by omega)
  have second : MouseStep noButton 1 3 wideMouse.1 (wideMouse.2.gather 0x08) (.interrupt 0x20 0)
      ((wideMouse.2.gather 0x08).gather 0) := mouseStep_gather (by omega) (by omega)
  have third : MouseStep noButton 1 3 wideMouse.1 ((wideMouse.2.gather 0x08).gather 0) (.interrupt 0x20 0) wideMoved :=
    ⟨fun _ => allClickBuffers, 6, fun _ => allClickBuffers_served, eq_some_getD (by decide +kernel) _⟩
  have negative : wideMoved.coordsX.toInt < 0 := by decide +kernel
  refine ⟨wideMouse.1, wideMouse.2, [(_, wideMouse.2.gather 0x08), (_, (wideMouse.2.gather 0x08).gather 0),
    (_, wideMoved)], isRegistered, by decide +kernel, by decide +kernel, ⟨first, second, third, trivial⟩,
    rfl, wideMoved, by simp, negative, fun ok => ?_⟩
  have nonneg := ok.insideX.1
  omega

end ViOS.Mouse
