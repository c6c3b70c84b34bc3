import ViOS.Keyboard.Keyboard
import Mathlib.Algebra.Group.Nat.Even

/-! # The PS/2 keyboard

The interrupt of the keyboard reads one scan code.  The driver drops the codes of released keys,
turns the caps lock over, looks the character up in a table and pushes it into the buffer of the
current process; `vios_getkey` pops from the buffer of the process whose task runs.  The two are
chosen apart from each other.

The table has 82 characters and is read at index 82 too: the byte behind it is a parameter.

* `classicKeyboardScancodeToChar`, `classicKeyboardHandleInterrupt` — the driver.
* `keyboardEvent` — one event of the system: a key, a switch, or a call of `vios_getkey`.
* `typed`, `received` — what is typed for a process and what it gets.
* `keys_delivered` — in every run each process gets what was typed for it, in order.
-/

namespace ViOS.Keyboard

open scoped List

/-! ## The driver -/

/-- `KEYBOARD_CAPS_LOCK_STATE`. -/
inductive KeyboardCapsLockState where
  | off
  | on
  deriving DecidableEq, Repr

/-- `keyboard_scan_set_one`. -/
def keyboardScanSetOne : List UInt8 :=
  [0x00, 0x1B, 0x31, 0x32, 0x33, 0x34, 0x35,
    0x36, 0x37, 0x38, 0x39, 0x30, 0x2D, 0x3D,
    0x08, 0x09, 0x51, 0x57, 0x45, 0x52, 0x54,
    0x59, 0x55, 0x49, 0x4F, 0x50, 0x5B, 0x5D,
    0x0D, 0x00, 0x41, 0x53, 0x44, 0x46, 0x47,
    0x48, 0x4A, 0x4B, 0x4C, 0x3B, 0x27, 0x60,
    0x00, 0x5C, 0x5A, 0x58, 0x43, 0x56, 0x42,
    0x4E, 0x4D, 0x2C, 0x2E, 0x2F, 0x00, 0x2A,
    0x00, 0x20, 0x00, 0x00, 0x00, 0x00,
    0x00, 0x00, 0x00, 0x00, 0x00, 0x00,
    0x00, 0x37, 0x38, 0x39, 0x2D, 0x34, 0x35,
    0x36, 0x2B, 0x31, 0x32, 0x33, 0x30, 0x2E]

/-- `CLASSIC_KEYBOARD_KEY_RELEASED`. -/
def classicKeyboardKeyReleased : UInt8 := 0x80

/-- `CLASSIC_KEYBOARD_CAPSLOCK`. -/
def classicKeyboardCapslock : UInt8 := 0x3A

/-- `classic_keyboard_scancode_to_char`, with the byte behind the table. -/
def classicKeyboardScancodeToChar (beyond : UInt8) (capslock : KeyboardCapsLockState)
    (scancode : UInt8) : UInt8 :=
  if scancode.toNat > keyboardScanSetOne.length then 0
  else
    let c := (keyboardScanSetOne ++ [beyond]).getD scancode.toNat 0
    if capslock = .off ∧ 0x41 ≤ c ∧ c ≤ 0x5A then c + 32 else c

/-- The keyboard, `current_process`, the process of the current task, and the buffers. -/
structure KeyboardSystem where
  capslockState : KeyboardCapsLockState
  currentProcess : Option Nat
  taskProcess : Option Nat
  keyboards : Nat → KeyboardBuffer

/-- The state `classic_keyboard_init` leaves, before there is a process. -/
def KeyboardSystem.init : KeyboardSystem := ⟨.off, none, none, fun _ => .init⟩

/-- `keyboard_push`. -/
def KeyboardSystem.push (s : KeyboardSystem) (c : UInt8) : KeyboardSystem :=
  match s.currentProcess with
  | none => s
  | some process =>
    { s with
      keyboards := Function.update s.keyboards process (keyboardPush c (s.keyboards process)) }

/-- `classic_keyboard_handle_interrupt`, for the scan code at the port. -/
def classicKeyboardHandleInterrupt (beyond scancode : UInt8) (s : KeyboardSystem) : KeyboardSystem :=
  if scancode &&& classicKeyboardKeyReleased ≠ 0 then s
  else
    let s := if scancode = classicKeyboardCapslock then
        { s with capslockState := if s.capslockState = .on then .off else .on }
      else s
    let c := classicKeyboardScancodeToChar beyond s.capslockState scancode
    if c ≠ 0 then s.push c else s

/-- `keyboard_pop`. -/
def KeyboardSystem.pop (s : KeyboardSystem) : UInt8 × KeyboardSystem :=
  match s.taskProcess with
  | none => (0, s)
  | some process =>
    let (c, keyboard) := keyboardPop (s.keyboards process)
    (c, { s with keyboards := Function.update s.keyboards process keyboard })

/-! ## The runs -/

/-- A key is pressed or released, `process_switch` or `task_switch` chooses another process, or the
running program calls `vios_getkey`. -/
inductive KeyboardEvent where
  | interrupt (scancode : UInt8)
  | processSwitch (process : Nat)
  | taskSwitch (process : Option Nat)
  | getkey
  deriving DecidableEq

/-- What an event returns, if it is a call, and leads to. -/
def keyboardEvent (beyond : UInt8) (s : KeyboardSystem) : KeyboardEvent → Option UInt8 × KeyboardSystem
  | .interrupt scancode => (none, classicKeyboardHandleInterrupt beyond scancode s)
  | .processSwitch process => (none, { s with currentProcess := some process })
  | .taskSwitch process => (none, { s with taskProcess := process })
  | .getkey => (some s.pop.1, s.pop.2)

/-- The state behind a sequence of events. -/
def keyboardEvents (beyond : UInt8) : KeyboardSystem → List KeyboardEvent → KeyboardSystem
  | s, [] => s
  | s, event :: events => keyboardEvents beyond (keyboardEvent beyond s event).2 events

/-- The characters that the process gets by an event. -/
def receivedBy (beyond : UInt8) (process : Nat) (s : KeyboardSystem) (event : KeyboardEvent) :
    List UInt8 :=
  if s.taskProcess = some process then characters [(keyboardEvent beyond s event).1] else []

def received (beyond : UInt8) (process : Nat) : KeyboardSystem → List KeyboardEvent → List UInt8
  | _, [] => []
  | s, event :: events =>
    receivedBy beyond process s event ++
      received beyond process (keyboardEvent beyond s event).2 events

/-! ## What is typed -/

/-- The typist: how often the caps lock was pressed, and the process in front. -/
structure Typist where
  presses : Nat
  process : Option Nat

/-- The typist behind an event. -/
def Typist.after (typist : Typist) : KeyboardEvent → Typist
  | .interrupt scancode =>
    if scancode = classicKeyboardCapslock then { typist with presses := typist.presses + 1 } else typist
  | .processSwitch process => { typist with process := some process }
  | _ => typist

/-- Capital letters are on behind an odd number of presses. -/
def Typist.capslock (typist : Typist) : KeyboardCapsLockState :=
  if Even typist.presses then .off else .on

/-- The character of a key that is pressed; none for the other keys and for a key that is let go. -/
def Typist.glyph (beyond : UInt8) (typist : Typist) (scancode : UInt8) : List UInt8 :=
  let c := classicKeyboardScancodeToChar beyond typist.capslock scancode
  if scancode &&& classicKeyboardKeyReleased ≠ 0 ∨ c = 0 then [] else [c]

/-- What an event types for the process. -/
def typedBy (beyond : UInt8) (process : Nat) (typist : Typist) : KeyboardEvent → List UInt8
  | .interrupt scancode =>
    if typist.process = some process then
      (typist.after (.interrupt scancode)).glyph beyond scancode
    else []
  | _ => []

def typed (beyond : UInt8) (process : Nat) : Typist → List KeyboardEvent → List UInt8
  | _, [] => []
  | typist, event :: events =>
    typedBy beyond process typist event ++ typed beyond process (typist.after event) events

/-- No process has more than a full buffer unread at any time. -/
def Room (beyond : UInt8) (s : KeyboardSystem) (typist : Typist) (queue : Nat → List UInt8)
    (events : List KeyboardEvent) : Prop :=
  ∀ before, before <+: events → ∀ process,
    (queue process).length + (typed beyond process typist before).length ≤
      (received beyond process s before).length + viosKeyboardBufferSize

/-! ## One event -/

/-- The system agrees with the typist, and every buffer holds a queue of unread characters. -/
structure Related (s : KeyboardSystem) (typist : Typist) (queue : Nat → List UInt8) : Prop where
  capslock : s.capslockState = typist.capslock
  process : s.currentProcess = typist.process
  holds : ∀ process, Holds (s.keyboards process) (queue process)

theorem related_init : Related .init ⟨0, none⟩ fun _ => [] :=
  ⟨by simp [KeyboardSystem.init, Typist.capslock], rfl, fun _ => holds_init⟩

/-- A caps lock turned over is on behind an odd number of presses. -/
theorem capslock_toggle (typist : Typist) :
    (if typist.capslock = .on then KeyboardCapsLockState.off else .on) =
      ({ typist with presses := typist.presses + 1 } : Typist).capslock := by
  simp only [Typist.capslock, Nat.even_add_one]
  by_cases even : Even typist.presses <;> simp [even]

/-- A released key is not the caps lock. -/
theorem released_ne_capslock {scancode : UInt8}
    (released : scancode &&& classicKeyboardKeyReleased ≠ 0) :
    scancode ≠ classicKeyboardCapslock := by
  rintro rfl
  exact released (by decide)

/-- What one event delivers and leaves unread comes in order from what was unread and what it types. -/
def Delivers (received typed : Nat → List UInt8) (queue queue' : Nat → List UInt8) : Prop :=
  ∀ process, received process ++ queue' process = queue process ++ typed process

/-- A push into the buffer of the current process. -/
theorem push_related {s : KeyboardSystem} {typist : Typist} {queue : Nat → List UInt8}
    (related : Related s typist queue) {c : UInt8} (solid : c ≠ 0)
    (room : ∀ process, typist.process = some process →
      (queue process).length < viosKeyboardBufferSize) :
    ∃ queue', Related (s.push c) typist queue' ∧
      Delivers (fun _ => []) (fun process => if typist.process = some process then [c] else []) queue
        queue' := by
  cases current : typist.process with
  | none =>
    have same : s.push c = s := by simp [KeyboardSystem.push, related.process, current]
    rw [same]
    exact ⟨queue, related, fun process => by simp⟩
  | some front =>
    have pushed : s.push c =
        { s with
          keyboards := Function.update s.keyboards front (keyboardPush c (s.keyboards front)) } := by
      simp [KeyboardSystem.push, related.process, current]
    have held := keyboardPush_holds (related.holds front) solid (room front current)
    rw [pushed]
    refine ⟨Function.update queue front (queue front ++ [c]),
      ⟨related.capslock, related.process, ?_⟩, ?_⟩
    · intro process
      by_cases inFront : process = front
      · subst inFront
        simpa only [Function.update_self] using held
      · simpa only [Function.update_of_ne inFront] using related.holds process
    · intro process
      by_cases inFront : process = front
      · subst inFront
        simp
      · simp [Function.update_of_ne inFront, Ne.symm inFront]

/-- The interrupt of a key. -/
theorem interrupt_related {beyond : UInt8} {s : KeyboardSystem} {typist : Typist}
    {queue : Nat → List UInt8} (related : Related s typist queue) (scancode : UInt8)
    (room : ∀ process, (queue process).length +
      (typedBy beyond process typist (.interrupt scancode)).length ≤ viosKeyboardBufferSize) :
    ∃ queue', Related (classicKeyboardHandleInterrupt beyond scancode s)
        (typist.after (.interrupt scancode)) queue' ∧
      Delivers (fun _ => []) (fun process => typedBy beyond process typist (.interrupt scancode)) queue
        queue' := by
  by_cases released : scancode &&& classicKeyboardKeyReleased ≠ 0
  · have after : typist.after (.interrupt scancode) = typist :=
      if_neg (released_ne_capslock released)
    have silent : ∀ process, typedBy beyond process typist (.interrupt scancode) = [] := by
      intro process
      simp [typedBy, Typist.glyph, released]
    rw [classicKeyboardHandleInterrupt, if_pos released, after]
    exact ⟨queue, related, fun process => by simp [silent]⟩
  · -- the caps lock is turned over before the character is looked up
    set turned : KeyboardSystem := if scancode = classicKeyboardCapslock then
        { s with capslockState := if s.capslockState = .on then .off else .on }
      else s with turnedDef
    have relatedTurned : Related turned (typist.after (.interrupt scancode)) queue := by
      rw [turnedDef, Typist.after]
      split
      · refine ⟨?_, related.process, related.holds⟩
        rw [← capslock_toggle, ← related.capslock]
      · exact related
    have glyph : (typist.after (.interrupt scancode)).glyph beyond scancode =
        if classicKeyboardScancodeToChar beyond turned.capslockState scancode = 0 then []
        else [classicKeyboardScancodeToChar beyond turned.capslockState scancode] := by
      simp only [Typist.glyph, relatedTurned.capslock, released, false_or]
    have sameProcess : (typist.after (.interrupt scancode)).process = typist.process := by
      rw [← relatedTurned.process, turnedDef, ← related.process]
      split <;> rfl
    have handled : classicKeyboardHandleInterrupt beyond scancode s =
        if classicKeyboardScancodeToChar beyond turned.capslockState scancode ≠ 0 then
          turned.push (classicKeyboardScancodeToChar beyond turned.capslockState scancode)
        else turned := by
      rw [classicKeyboardHandleInterrupt, if_neg released]
    rw [handled]
    by_cases silent : classicKeyboardScancodeToChar beyond turned.capslockState scancode = 0
    · rw [if_neg (by simpa using silent)]
      refine ⟨queue, relatedTurned, fun process => ?_⟩
      simp [typedBy, glyph, silent]
    · rw [if_pos silent]
      have enough : ∀ process, (typist.after (.interrupt scancode)).process = some process →
          (queue process).length < viosKeyboardBufferSize := by
        intro process inFront
        have limit := room process
        rw [sameProcess] at inFront
        simp only [typedBy, inFront, if_true, glyph, if_neg silent, List.length_singleton] at limit
        omega
      obtain ⟨queue', relatedPush, delivers⟩ := push_related relatedTurned silent enough
      refine ⟨queue', relatedPush, fun process => ?_⟩
      rw [delivers process, sameProcess]
      simp only [typedBy, glyph, if_neg silent]

/-- A call of `vios_getkey`. -/
theorem getkey_related {beyond : UInt8} {s : KeyboardSystem} {typist : Typist}
    {queue : Nat → List UInt8} (related : Related s typist queue) :
    ∃ queue', Related s.pop.2 typist queue' ∧
      Delivers (fun process => receivedBy beyond process s .getkey) (fun _ => []) queue queue' ∧
      ∀ process, s.taskProcess = some process → s.pop.1 = (queue process).getD 0 0 := by
  cases running : s.taskProcess with
  | none =>
    have idle : s.pop = (0, s) := by simp [KeyboardSystem.pop, running]
    rw [idle]
    exact ⟨queue, related, fun process => by simp [receivedBy, running], fun _ other => nomatch other⟩
  | some reader =>
    obtain ⟨result, held⟩ := keyboardPop_holds (related.holds reader)
    have popped : s.pop = ((keyboardPop (s.keyboards reader)).1,
        { s with
          keyboards :=
            Function.update s.keyboards reader (keyboardPop (s.keyboards reader)).2 }) := by
      simp [KeyboardSystem.pop, running]
    -- the first unread character, if there is one, is returned
    have order := (queueStep_order (related.holds reader).ring.solid .pop).2 (by decide)
    simp only [queueStep, pushed, List.filterMap_cons, List.filterMap_nil, List.append_nil] at order
    rw [popped]
    refine ⟨Function.update queue reader (queue reader).tail,
      ⟨related.capslock, related.process, ?_⟩, ?_, ?_⟩
    · intro process
      by_cases reads : process = reader
      · subst reads
        simpa only [Function.update_self] using held
      · simpa only [Function.update_of_ne reads] using related.holds process
    · intro process
      by_cases reads : process = reader
      · subst reads
        simp only [receivedBy, running, if_true, keyboardEvent, popped, result, Function.update_self,
          order, List.append_nil]
      · simp [receivedBy, running, Function.update_of_ne reads, Ne.symm reads]
    · intro process same
      obtain rfl := Option.some.inj same
      exact result

/-- Every event delivers in order. -/
theorem keyboardEvent_related {beyond : UInt8} {s : KeyboardSystem} {typist : Typist}
    {queue : Nat → List UInt8} (related : Related s typist queue) (event : KeyboardEvent)
    (room : ∀ process, (queue process).length + (typedBy beyond process typist event).length ≤
      (receivedBy beyond process s event).length + viosKeyboardBufferSize) :
    ∃ queue', Related (keyboardEvent beyond s event).2 (typist.after event) queue' ∧
      Delivers (fun process => receivedBy beyond process s event)
        (fun process => typedBy beyond process typist event) queue queue' := by
  cases event with
  | interrupt scancode =>
    have nothing : ∀ process, receivedBy beyond process s (.interrupt scancode) = [] := by
      intro process
      simp [receivedBy, keyboardEvent, characters]
    simp only [nothing, List.length_nil, Nat.zero_add] at room ⊢
    exact interrupt_related related scancode room
  | processSwitch front =>
    refine ⟨queue, ⟨related.capslock, rfl, related.holds⟩, fun process => ?_⟩
    simp [receivedBy, keyboardEvent, characters, typedBy]
  | taskSwitch running =>
    refine ⟨queue, ⟨related.capslock, related.process, related.holds⟩, fun process => ?_⟩
    simp [receivedBy, keyboardEvent, characters, typedBy]
  | getkey =>
    obtain ⟨queue', relatedPop, delivers, -⟩ := @getkey_related beyond _ _ _ related
    exact ⟨queue', relatedPop, delivers⟩

/-! ## Whole runs -/

theorem Room.head {beyond : UInt8} {s : KeyboardSystem} {typist : Typist} {queue : Nat → List UInt8}
    {event : KeyboardEvent} {events : List KeyboardEvent}
    (room : Room beyond s typist queue (event :: events)) (process : Nat) :
    (queue process).length + (typedBy beyond process typist event).length ≤
      (receivedBy beyond process s event).length + viosKeyboardBufferSize := by
  have one := room [event] ⟨events, rfl⟩ process
  simpa [typed, received] using one

theorem Room.tail {beyond : UInt8} {s : KeyboardSystem} {typist : Typist}
    {queue queue' : Nat → List UInt8} {event : KeyboardEvent} {events : List KeyboardEvent}
    (room : Room beyond s typist queue (event :: events))
    (delivers : Delivers (fun process => receivedBy beyond process s event)
      (fun process => typedBy beyond process typist event) queue queue') :
    Room beyond (keyboardEvent beyond s event).2 (typist.after event) queue' events := by
  intro before begins process
  have more := room (event :: before) ((List.prefix_cons_inj event).mpr begins) process
  have lengths := congrArg List.length (delivers process)
  simp only [List.length_append] at lengths
  simp only [typed, received, List.length_append] at more
  omega

theorem keyboardEvents_related {beyond : UInt8} {events : List KeyboardEvent} {s : KeyboardSystem}
    {typist : Typist} {queue : Nat → List UInt8} (related : Related s typist queue)
    (room : Room beyond s typist queue events) :
    ∃ queue', Related (keyboardEvents beyond s events) (events.foldl Typist.after typist) queue' ∧
      Delivers (fun process => received beyond process s events)
        (fun process => typed beyond process typist events) queue queue' := by
  induction events generalizing s typist queue with
  | nil => exact ⟨queue, related, fun process => by simp [received, typed]⟩
  | cons event events ih =>
    obtain ⟨between, relatedNext, first⟩ := keyboardEvent_related related event room.head
    obtain ⟨queue', relatedEnd, rest⟩ := ih relatedNext (room.tail first)
    refine ⟨queue', relatedEnd, fun process => ?_⟩
    simp only [received, typed]
    rw [List.append_assoc, rest process, ← List.append_assoc, first process, List.append_assoc]

/-- In every run of keys, switches and calls in which no process has more than a full buffer unread,
each process gets exactly what was typed while it was in front, in order and each key once: what the
calls of its tasks have returned, followed by what is still in its buffer.  A call returns zero when
the process has got everything, and capital letters are on behind an odd number of presses of the caps
lock. -/
theorem keys_delivered (beyond : UInt8) {events : List KeyboardEvent}
    (room : Room beyond .init ⟨0, none⟩ (fun _ => []) events) :
    (∀ process, received beyond process .init events ++
        keyboardDrain viosKeyboardBufferSize ((keyboardEvents beyond .init events).keyboards process) =
      typed beyond process ⟨0, none⟩ events) ∧
    (keyboardEvents beyond .init events).capslockState =
      (events.foldl Typist.after ⟨0, none⟩).capslock ∧
    ∀ before after, events = before ++ .getkey :: after →
      ∀ process, (keyboardEvents beyond .init before).taskProcess = some process →
        ((keyboardEvents beyond .init before).pop.1 = 0 ↔
          received beyond process .init before = typed beyond process ⟨0, none⟩ before) := by
  refine ⟨?_, ?_, ?_⟩
  · intro process
    obtain ⟨queue, related, delivers⟩ := keyboardEvents_related related_init room
    have fits : (queue process).length ≤ viosKeyboardBufferSize := by
      rw [← ((keyboardEvents beyond .init events).keyboards process).size_eq]
      exact (related.holds process).ring.fits
    rw [keyboardDrain_eq (related.holds process) fits]
    exact delivers process
  · obtain ⟨queue, related, -⟩ := keyboardEvents_related related_init room
    exact related.capslock
  · intro before after split process running
    have begins : Room beyond .init ⟨0, none⟩ (fun _ => []) before := by
      intro shorter cut
      exact room shorter (cut.trans ⟨_, split.symm⟩)
    obtain ⟨queue, related, delivers⟩ := keyboardEvents_related related_init begins
    obtain ⟨-, -, -, result⟩ := @getkey_related beyond _ _ _ related
    have order := delivers process
    simp only [List.nil_append] at order
    rw [result process running, (related.holds process).ring.drained, ← order]
    simp

/-- A short run leaves room. -/
theorem room_of_short (beyond : UInt8) {events : List KeyboardEvent}
    (short : events.length ≤ viosKeyboardBufferSize) :
    Room beyond .init ⟨0, none⟩ (fun _ => []) events := by
  have one : ∀ process typist event, (typedBy beyond process typist event).length ≤ 1 := by
    intro process typist event
    cases event with
    | interrupt scancode =>
      simp only [typedBy, Typist.glyph]
      split
      · split <;> simp
      · simp
    | _ => simp [typedBy]
  have each : ∀ process typist events, (typed beyond process typist events).length ≤ events.length := by
    intro process typist events
    induction events generalizing typist with
    | nil => simp [typed]
    | cons event events ih =>
      have now := one process typist event
      have later := ih (typist.after event)
      simp only [typed, List.length_append, List.length_cons]
      omega
  intro before begins process
  have typedLength := each process ⟨0, none⟩ before
  have shorter := begins.length_le
  simp only [List.length_nil, Nat.zero_add]
  omega

/-- Process 1 is in front: the key of the A, the caps lock, the A again; then process 2 is. -/
def twoTypists : List KeyboardEvent :=
  [.processSwitch 1, .taskSwitch (some 1), .interrupt 0x1E, .interrupt 0x9E, .interrupt 0x3A,
    .interrupt 0x1E, .processSwitch 2, .interrupt 0x30, .getkey, .getkey, .getkey]

theorem twoTypists_delivered :
    received 0 1 .init twoTypists ++
        keyboardDrain viosKeyboardBufferSize ((keyboardEvents 0 .init twoTypists).keyboards 1) =
      [0x61, 0x41] ∧
    received 0 2 .init twoTypists ++
        keyboardDrain viosKeyboardBufferSize ((keyboardEvents 0 .init twoTypists).keyboards 2) =
      [0x42] := by
  obtain ⟨delivered, -, -⟩ := keys_delivered 0 (room_of_short 0 (by decide : twoTypists.length ≤ _))
  constructor
  · rw [delivered 1]
    decide
  · rw [delivered 2]
    decide

end ViOS.Keyboard
