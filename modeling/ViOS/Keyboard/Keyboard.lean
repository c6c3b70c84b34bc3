import ViOS.Config
import ViOS.Lib.Ring
import ViOS.Lib.Simulation
import Mathlib.Data.List.Infix

/-! # The keyboard buffer of a process

The buffer of `struct process` is a ring of bytes with a `head` and a `tail`
counter that are never reduced: they wrap as 32-bit integers, and every access
takes them modulo the size of the buffer.  A byte is unread while its cell is not
zero.  The abstract model is the queue of unread characters.

* `queueStep` — what the calls are for.
* `keyboardStep_simulates` — one call follows the queue when a push finds room and
  a backspace finds something to erase.
* `keyboard_pops_in_order`, `keyboard_confined_run` — whole sequences of calls.
-/

namespace ViOS.Keyboard

open ViOS.Lib
open scoped List

/-- `struct keyboard_buffer`. -/
structure KeyboardBuffer where
  buffer : List UInt8
  tail : Int32
  head : Int32
  size_eq : buffer.length = viosKeyboardBufferSize
  deriving DecidableEq

/-- The buffer `process_init` leaves: everything zero. -/
def KeyboardBuffer.init : KeyboardBuffer :=
  ⟨List.replicate viosKeyboardBufferSize 0, 0, 0, List.length_replicate⟩

/-- `counter % sizeof(process->keyboard.buffer)`: the operand is an `int`, the size a
`size_t`, so the counter is sign-extended to 64 bits and reduced without a sign. -/
def counterIndex (counter : Int32) : Nat :=
  (counter.toInt64.toUInt64 % UInt64.ofNat viosKeyboardBufferSize).toNat

/-- `keyboard_get_tail_index`. -/
def keyboardGetTailIndex (process : KeyboardBuffer) : Nat := counterIndex process.tail

/-- `buffer[i] = c`. -/
def KeyboardBuffer.write (process : KeyboardBuffer) (i : Nat) (c : UInt8) : KeyboardBuffer :=
  { process with buffer := process.buffer.set i c, size_eq := by simp [process.size_eq] }

/-- `keyboard_backspace`. -/
def keyboardBackspace (process : KeyboardBuffer) : KeyboardBuffer :=
  let process := { process with tail := process.tail - 1 }
  process.write (keyboardGetTailIndex process) 0

/-- `keyboard_push` on the current process. -/
def keyboardPush (c : UInt8) (process : KeyboardBuffer) : KeyboardBuffer :=
  if c = 0 then process
  else
    let process := process.write (keyboardGetTailIndex process) c
    { process with tail := process.tail + 1 }

/-- `keyboard_pop` on the process of the current task. -/
def keyboardPop (process : KeyboardBuffer) : UInt8 × KeyboardBuffer :=
  let realIndex := counterIndex process.head
  let c := process.buffer.getD realIndex 0
  -- Nothing to pop: return zero.
  if c = 0 then (0, process)
  else
    let process := process.write realIndex 0
    (c, { process with head := process.head + 1 })

inductive KeyboardOp
  | push (c : UInt8)
  | pop
  | backspace
  deriving DecidableEq

/-- One call and what it returns. -/
def keyboardStep (process : KeyboardBuffer) : KeyboardOp → Option UInt8 × KeyboardBuffer
  | .push c => (none, keyboardPush c process)
  | .pop => (some (keyboardPop process).1, (keyboardPop process).2)
  | .backspace => (none, keyboardBackspace process)

/-- The state of a fresh process after a sequence of calls. -/
def keyboardRun (ops : List KeyboardOp) : KeyboardBuffer :=
  (specOps keyboardStep KeyboardBuffer.init ops).2

/-- The characters among the results of calls: zero says that there is none. -/
def characters (results : List (Option UInt8)) : List UInt8 :=
  (results.filterMap id).filter (· ≠ 0)

/-- The characters the pops of a sequence of calls return. -/
def keyboardReturned (ops : List KeyboardOp) : List UInt8 :=
  characters (specOps keyboardStep KeyboardBuffer.init ops).1

/-- The characters pops return one after the other until one returns zero. -/
def keyboardDrain : Nat → KeyboardBuffer → List UInt8
  | 0, _ => []
  | fuel + 1, process =>
    if (keyboardPop process).1 = 0 then []
    else (keyboardPop process).1 :: keyboardDrain fuel (keyboardPop process).2

/-! ## The queue of unread characters -/

/-- A push appends, a pop takes the first, a backspace erases the last. -/
def queueStep (unread : List UInt8) : KeyboardOp → Option UInt8 × List UInt8
  | .push c => (none, if c = 0 then unread else unread ++ [c])
  | .pop => (some (unread.getD 0 0), unread.tail)
  | .backspace => (none, unread.dropLast)

/-- The characters pushed and neither popped nor erased. -/
def unread (ops : List KeyboardOp) : List UInt8 := (specOps queueStep [] ops).2

/-- The characters pushed; a zero is dropped at once. -/
def pushed (ops : List KeyboardOp) : List UInt8 :=
  ops.filterMap fun
    | .push c => if c = 0 then none else some c
    | _ => none

/-- A push finds room and a backspace something to erase. -/
def Confined (unread : List UInt8) : KeyboardOp → Prop
  | .push c => c = 0 ∨ unread.length < viosKeyboardBufferSize
  | .pop => True
  | .backspace => unread ≠ []

/-! ## The counters

The size of the buffer divides 2 ^ 32, so a counter that wraps stays on its cell. -/

theorem counterIndex_eq (counter : Int32) :
    (counterIndex counter : Int) = counter.toInt % 1024 := by
  have extended : (counter.toInt64.toUInt64.toNat : Int).bmod (2 ^ 64) = counter.toInt := by
    rw [← Int64.toNat_toBitVec, ← BitVec.toInt_eq_toNat_bmod, ← Int32.toInt_toInt64]
    rfl
  have reduced : counterIndex counter = counter.toInt64.toUInt64.toNat % 1024 := rfl
  rw [reduced, ← extended, Int.bmod]
  split <;> omega

theorem counterIndex_lt (counter : Int32) : counterIndex counter < viosKeyboardBufferSize := by
  have := counterIndex_eq counter
  simp only [viosKeyboardBufferSize]
  omega

theorem counterIndex_succ (counter : Int32) :
    counterIndex (counter + 1) = (counterIndex counter + 1) % viosKeyboardBufferSize := by
  have wrapped : (counter + 1).toInt = (counter.toInt + 1).bmod (2 ^ 32) := Int32.toInt_add _ _
  have next := counterIndex_eq (counter + 1)
  have this := counterIndex_eq counter
  rw [wrapped, Int.bmod] at next
  simp only [viosKeyboardBufferSize]
  split at next <;> omega

theorem counterIndex_pred (counter : Int32) :
    (counterIndex (counter - 1) + 1) % viosKeyboardBufferSize = counterIndex counter := by
  rw [← counterIndex_succ, Int32.sub_add_cancel]

/-! ## One call -/

/-- The ring holds the unread characters from the head on, and the tail is behind them. -/
structure Holds (process : KeyboardBuffer) (unread : List UInt8) : Prop where
  ring : RingHolds 0 process.buffer (counterIndex process.head) unread
  tail : counterIndex process.tail =
    (counterIndex process.head + unread.length) % viosKeyboardBufferSize

theorem holds_init : Holds KeyboardBuffer.init [] :=
  ⟨RingHolds.of_blank fun _ member => List.eq_of_mem_replicate member, rfl⟩

theorem keyboardPush_holds {process : KeyboardBuffer} {unread : List UInt8} {c : UInt8}
    (holds : Holds process unread) (solid : c ≠ 0)
    (room : unread.length < viosKeyboardBufferSize) :
    Holds (keyboardPush c process) (unread ++ [c]) := by
  have pushed := holds.ring.push (by rwa [process.size_eq]) solid
  rw [process.size_eq, ← holds.tail] at pushed
  simp only [keyboardPush, if_neg solid]
  refine ⟨pushed, ?_⟩
  simp only [KeyboardBuffer.write, counterIndex_succ, holds.tail, List.length_append,
    List.length_singleton, Nat.mod_add_mod, Nat.add_assoc]

theorem keyboardPop_holds {process : KeyboardBuffer} {unread : List UInt8}
    (holds : Holds process unread) :
    (keyboardPop process).1 = unread.getD 0 0 ∧ Holds (keyboardPop process).2 unread.tail := by
  have inside : counterIndex process.head % process.buffer.length = counterIndex process.head := by
    rw [process.size_eq]
    exact Nat.mod_eq_of_lt (counterIndex_lt _)
  have read : process.buffer.getD (counterIndex process.head) 0 = unread.getD 0 0 := by
    rw [← holds.ring.read (by rw [process.size_eq]; decide), inside]
  cases unread with
  | nil =>
    simp only [List.getD_nil] at read
    simp only [keyboardPop, read, if_true]
    exact ⟨rfl, holds⟩
  | cons c rest =>
    simp only [List.getD_cons_zero] at read
    have solid : c ≠ 0 := by
      rintro rfl
      exact holds.ring.solid List.mem_cons_self
    have popped := holds.ring.pop
    rw [inside] at popped
    simp only [keyboardPop, read, if_neg solid]
    refine ⟨rfl, popped.congr ?_, ?_⟩
    · simp only [KeyboardBuffer.write, List.length_set, process.size_eq, counterIndex_succ,
        Nat.mod_mod]
    · simp only [KeyboardBuffer.write, counterIndex_succ, holds.tail, List.length_cons,
        List.tail_cons, Nat.mod_add_mod, Nat.add_assoc, Nat.add_comm 1]

theorem keyboardBackspace_holds {process : KeyboardBuffer} {unread : List UInt8}
    (holds : Holds process unread) (some_unread : unread ≠ []) :
    Holds (keyboardBackspace process) unread.dropLast := by
  obtain ⟨kept, c, split⟩ : ∃ kept c, unread = kept ++ [c] :=
    ⟨_, _, (List.dropLast_append_getLast some_unread).symm⟩
  subst split
  rw [List.dropLast_concat]
  -- The tail goes back to the cell of the last character.
  have back : counterIndex (process.tail - 1) =
      (counterIndex process.head + kept.length) % viosKeyboardBufferSize := by
    have behind := holds.tail
    rw [List.length_append, List.length_singleton, ← counterIndex_pred] at behind
    have below := counterIndex_lt (process.tail - 1)
    simp only [viosKeyboardBufferSize] at behind below ⊢
    omega
  have erased := holds.ring.unpush
  rw [process.size_eq, ← back] at erased
  exact ⟨erased, back⟩

/-- A confined call follows the queue. -/
theorem keyboardStep_simulates (process : KeyboardBuffer) (unread : List UInt8) (op : KeyboardOp)
    (holds : Holds process unread) (confined : Confined unread op) :
    (keyboardStep process op).1 = (queueStep unread op).1 ∧
      Holds (keyboardStep process op).2 (queueStep unread op).2 := by
  cases op with
  | push c =>
    refine ⟨rfl, ?_⟩
    by_cases zero : c = 0
    · simp only [keyboardStep, queueStep, keyboardPush, zero, if_true]
      exact holds
    · simp only [keyboardStep, queueStep, if_neg zero]
      exact keyboardPush_holds holds zero (confined.resolve_left zero)
  | pop =>
    obtain ⟨same, popped⟩ := keyboardPop_holds holds
    exact ⟨congrArg some same, popped⟩
  | backspace => exact ⟨rfl, keyboardBackspace_holds holds confined⟩

/-! ## Whole sequences of calls -/

theorem keyboardRun_holds {ops : List KeyboardOp}
    (confined : EveryAllowed queueStep Confined [] ops) :
    (specOps keyboardStep KeyboardBuffer.init ops).1 = (specOps queueStep [] ops).1 ∧
      Holds (keyboardRun ops) (unread ops) :=
  specOps_refines keyboardStep_simulates ops holds_init confined

/-- Popping until zero reads the whole queue. -/
theorem keyboardDrain_eq {process : KeyboardBuffer} {unread : List UInt8}
    (holds : Holds process unread) {fuel : Nat} (enough : unread.length ≤ fuel) :
    keyboardDrain fuel process = unread := by
  induction fuel generalizing process unread with
  | zero =>
    rw [List.length_eq_zero_iff.mp (Nat.le_zero.mp enough)]
    rfl
  | succ fuel ih =>
    obtain ⟨same, popped⟩ := keyboardPop_holds holds
    have empty := holds.ring.drained
    cases unread with
    | nil => simp [keyboardDrain, same]
    | cons c rest =>
      simp only [List.getD_cons_zero] at same empty
      have solid : c ≠ 0 := by simp [empty]
      simp only [keyboardDrain, same, if_neg solid]
      rw [ih popped (by simpa using enough), List.tail_cons]

theorem characters_append (results more : List (Option UInt8)) :
    characters (results ++ more) = characters results ++ characters more := by
  simp [characters]

theorem pushed_cons (op : KeyboardOp) (ops : List KeyboardOp) :
    pushed (op :: ops) = pushed [op] ++ pushed ops := by
  cases op with
  | push c => by_cases zero : c = 0 <;> simp [pushed, zero]
  | pop => rfl
  | backspace => rfl

theorem queueStep_solid {unread : List UInt8} (solid : (0 : UInt8) ∉ unread) (op : KeyboardOp) :
    (0 : UInt8) ∉ (queueStep unread op).2 := by
  cases op with
  | push c =>
    by_cases zero : c = 0
    · simpa [queueStep, zero] using solid
    · simpa [queueStep, zero, Ne.symm zero] using solid
  | pop => exact fun member => solid (List.mem_of_mem_tail member)
  | backspace => exact fun member => solid (List.dropLast_subset _ member)

/-- What one call returns and leaves unread comes in order from what was unread and what it
pushes; without a backspace nothing is lost. -/
theorem queueStep_order {unread : List UInt8} (solid : (0 : UInt8) ∉ unread) (op : KeyboardOp) :
    characters [(queueStep unread op).1] ++ (queueStep unread op).2 <+ unread ++ pushed [op] ∧
    (op ≠ .backspace → characters [(queueStep unread op).1] ++ (queueStep unread op).2 =
      unread ++ pushed [op]) := by
  cases op with
  | push c =>
    have same : characters [(queueStep unread (.push c)).1] ++ (queueStep unread (.push c)).2 =
        unread ++ pushed [.push c] := by
      by_cases zero : c = 0 <;> simp [characters, queueStep, pushed, zero]
    exact ⟨same ▸ List.Sublist.refl _, fun _ => same⟩
  | pop =>
    have same : characters [(queueStep unread .pop).1] ++ (queueStep unread .pop).2 =
        unread ++ pushed [.pop] := by
      cases unread with
      | nil => rfl
      | cons c rest =>
        have notZero : c ≠ 0 := by
          rintro rfl
          exact solid List.mem_cons_self
        simp [characters, queueStep, pushed, notZero]
    exact ⟨same ▸ List.Sublist.refl _, fun _ => same⟩
  | backspace =>
    refine ⟨?_, fun other => absurd rfl other⟩
    simpa [characters, queueStep, pushed] using List.dropLast_sublist unread

theorem queue_order {unread : List UInt8} (solid : (0 : UInt8) ∉ unread) (ops : List KeyboardOp) :
    characters (specOps queueStep unread ops).1 ++ (specOps queueStep unread ops).2 <+
      unread ++ pushed ops ∧
    (.backspace ∉ ops → characters (specOps queueStep unread ops).1 ++
      (specOps queueStep unread ops).2 = unread ++ pushed ops) := by
  induction ops generalizing unread with
  | nil => simp [specOps, characters, pushed]
  | cons op ops ih =>
    obtain ⟨first, firstEq⟩ := queueStep_order solid op
    obtain ⟨later, laterEq⟩ := ih (queueStep_solid solid op)
    have split : characters (specOps queueStep unread (op :: ops)).1 =
        characters [(queueStep unread op).1] ++
          characters (specOps queueStep (queueStep unread op).2 ops).1 :=
      characters_append [_] _
    rw [split, pushed_cons, List.append_assoc, ← List.append_assoc unread]
    constructor
    · apply (later.append_left _).trans
      rw [← List.append_assoc]
      exact first.append_right _
    · intro without
      simp only [List.mem_cons, not_or] at without
      rw [← firstEq (Ne.symm without.1), List.append_assoc, ← laterEq without.2]
      rfl

/-- A push of a character, or a pop. -/
def KeyboardOp.Ordinary : KeyboardOp → Prop
  | .push c => c ≠ 0
  | .pop => True
  | .backspace => False

/-- Without backspaces and with at most a full buffer unread, the pops return the pushed
characters in order, each once, and zero exactly when nothing is unread. -/
theorem keyboard_pops_in_order (ops : List KeyboardOp) (ordinary : ∀ op ∈ ops, op.Ordinary)
    (backlog : ∀ before, before <+: ops → (unread before).length ≤ viosKeyboardBufferSize) :
    keyboardReturned ops ++ unread ops = pushed ops ∧
    ∀ before after, ops = before ++ .pop :: after →
      ((keyboardPop (keyboardRun before)).1 = 0 ↔ unread before = []) := by
  have confined : EveryAllowed queueStep Confined [] ops := by
    apply everyAllowed_of_forall
    intro before op after split
    cases op with
    | push c =>
      -- The push is part of a prefix with at most a full buffer unread.
      have solid : c ≠ 0 := ordinary (.push c) (by simp [split])
      have full := backlog (before ++ [.push c]) ⟨after, by simp [split]⟩
      simp only [unread, specOps_append, specOps, queueStep, if_neg solid, List.length_append,
        List.length_singleton] at full
      exact .inr full
    | pop => trivial
    | backspace => exact absurd (ordinary .backspace (by simp [split])) id
  constructor
  · have without : KeyboardOp.backspace ∉ ops := fun member => ordinary _ member
    have ordered := (queue_order (List.not_mem_nil) ops).2 without
    rw [keyboardReturned, (keyboardRun_holds confined).1]
    exact ordered
  · intro before after split
    rw [split, everyAllowed_append] at confined
    have holds := (keyboardRun_holds confined.1).2
    rw [(keyboardPop_holds holds).1, holds.ring.drained]

def charA : UInt8 := 0x61
def charB : UInt8 := 0x62

theorem keyboard_pops_in_order_two :
    keyboardReturned [.push charA, .push charB, .pop, .pop, .pop] = [charA, charB] ∧
    unread [.push charA, .push charB, .pop, .pop, .pop] = [] := by
  have ordered := keyboard_pops_in_order [.push charA, .push charB, .pop, .pop, .pop]
    (by simp [KeyboardOp.Ordinary, charA, charB])
    (by
      intro before begins
      rw [← List.mem_inits] at begins
      revert before
      decide)
  have empty : unread [.push charA, .push charB, .pop, .pop, .pop] = [] := by decide
  refine ⟨?_, empty⟩
  have all := ordered.1
  rw [empty, List.append_nil] at all
  exact all.trans (by decide)

/-- Every run in which a push finds room and a backspace something to erase: the characters
returned are pushed ones in order, a pop returns zero only when nothing is unread, and a
backspace takes the last unread character away and nothing else. -/
theorem keyboard_confined_run (ops : List KeyboardOp)
    (confined : EveryAllowed queueStep Confined [] ops) :
    keyboardReturned ops <+ pushed ops ∧
    (∀ before after, ops = before ++ .pop :: after →
      (keyboardPop (keyboardRun before)).1 = 0 → unread before = []) ∧
    (∀ before after, ops = before ++ .backspace :: after →
      keyboardDrain viosKeyboardBufferSize (keyboardRun before) = unread before ∧
      keyboardDrain viosKeyboardBufferSize (keyboardBackspace (keyboardRun before)) =
        (unread before).dropLast) := by
  refine ⟨?_, ?_, ?_⟩
  · rw [keyboardReturned, (keyboardRun_holds confined).1]
    exact (List.sublist_append_left _ _).trans (queue_order List.not_mem_nil ops).1
  · intro before after split
    rw [split, everyAllowed_append] at confined
    have holds := (keyboardRun_holds confined.1).2
    rw [(keyboardPop_holds holds).1, holds.ring.drained]
    exact id
  · intro before after split
    rw [split, everyAllowed_append] at confined
    have holds := (keyboardRun_holds confined.1).2
    have erased := keyboardBackspace_holds holds confined.2.1
    have fits : (unread before).length ≤ viosKeyboardBufferSize := by
      rw [← (keyboardRun before).size_eq]
      exact holds.ring.fits
    refine ⟨keyboardDrain_eq holds fits, keyboardDrain_eq erased ?_⟩
    rw [List.length_dropLast]
    omega

theorem keyboard_confined_run_erased :
    EveryAllowed queueStep Confined [] [.push charA, .push charB, .backspace, .pop] ∧
    keyboardReturned [.push charA, .push charB, .backspace, .pop] <+ [charA, charB] := by
  have confined :
      EveryAllowed queueStep Confined [] [.push charA, .push charB, .backspace, .pop] := by
    simp [EveryAllowed, Confined, queueStep, charA, charB, viosKeyboardBufferSize]
  exact ⟨confined, (keyboard_confined_run _ confined).1⟩

/-- A backspace on an empty buffer moves the tail before the head: the next character is
written where no pop looks, and a pop returns zero with the character unread. -/
theorem keyboard_backspace_empty :
    unread [.backspace, .push charA] = [charA] ∧
    (keyboardPop (keyboardRun [.backspace, .push charA])).1 = 0 := by
  decide +kernel

end ViOS.Keyboard
