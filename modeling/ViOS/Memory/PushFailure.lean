import ViOS.Lib.Simulation
import ViOS.Memory.Vector

/-! # A push without memory

`vector_resize` stores what `krealloc` returns before it looks at it.  When that is the
null pointer, the address of the block is lost, while the number of elements and the
capacity still describe it.

* `PlacedVector` — a vector with the address of its block.
* `placedStep_refines` — a call that gets its memory is the call on the block.
* `pushUndone_iff` — the failed pushes that leave no trace.
-/

namespace ViOS.Memory

open ViOS.Lib

/-- `struct vector` with its pointer, and the memory it points into. -/
structure PlacedVector where
  ram : Bytes
  memory : Ptr
  eSize : Nat
  tElems : Nat
  tmElems : Nat
  tReservedElements : Nat

/-- The vector with the block its pointer points to. -/
def PlacedVector.view (placed : PlacedVector) : VectorState where
  memory := ⟨fun i => placed.ram (placed.memory + i), placed.eSize * placed.tmElems⟩
  eSize := placed.eSize
  tElems := placed.tElems
  tmElems := placed.tmElems
  tReservedElements := placed.tReservedElements

/-- The fields of a vector, and its block written where the pointer points to. -/
def PlacedVector.put (placed : PlacedVector) (vec : VectorState) : PlacedVector where
  ram := fun a => if placed.memory ≤ a then vec.memory.bytes (a - placed.memory) else placed.ram a
  memory := placed.memory
  eSize := vec.eSize
  tElems := vec.tElems
  tmElems := vec.tmElems
  tReservedElements := vec.tReservedElements

section Calls

variable (krealloc : Bytes → Ptr → Nat → Option (Ptr × Bytes)) (kzalloc : Nat → Bool)

/-- The elements `vector_resize` asks for, with the reserve. -/
def PlacedVector.finalTotal (placed : PlacedVector) (totalNeededElements : Nat) : Nat :=
  (placed.tReservedElements + (placed.tElems + totalNeededElements) % addressSpace) % addressSpace

/-- `vector_resize`.  What `krealloc` returns, with the memory it leaves, goes into the vector; the
null pointer is zero. -/
def placedResize (placed : PlacedVector) (totalNeededElements : Nat) : Int × PlacedVector :=
  if placed.tmElems > (placed.tElems + totalNeededElements) % addressSpace then (0, placed)
  else
    let finalTotal := placed.finalTotal totalNeededElements
    match krealloc placed.ram placed.memory (finalTotal * placed.eSize % addressSpace) with
    | none => (-enomem, { placed with memory := 0 })
    | some (memory, ram) => (0, { placed with ram, memory, tmElems := finalTotal })

/-- `vector_push`. -/
def placedPush (placed : PlacedVector) (elem : Bytes) : Option (VectorOutput × PlacedVector) :=
  let (res, placed) := placedResize krealloc placed 1
  if res < 0 then some (⟨res, none, none⟩, placed)
  else do
    let (span, memory) ← vectorWrite placed.view placed.tElems elem
    return (⟨asInt (placed.tElems % 2 ^ 32), none, some span⟩,
      placed.put { placed.view with memory, tElems := (placed.tElems + 1) % addressSpace })

/-- A call; all but a push work on the block that is there. -/
def placedStep (placed : PlacedVector) : VectorOp → Option (VectorOutput × PlacedVector)
  | .push elem => placedPush krealloc placed elem
  | call => (vectorStep (fun _ _ => none) kzalloc placed.view call).map (Prod.map id placed.put)

/-- The push finds no room, and `krealloc` returns the null pointer. -/
def KreallocFails (placed : PlacedVector) : Prop :=
  placed.tmElems ≤ (placed.tElems + 1) % addressSpace ∧
    krealloc placed.ram placed.memory (placed.finalTotal 1 * placed.eSize % addressSpace) = none

/-- What a failed push should leave: a negative status and the vector as it was, so that what is read
from it and what later calls do are what they would have been without the push. -/
structure LeavesNoTrace (before : PlacedVector) (output : VectorOutput) (after : PlacedVector) : Prop where
  status : output.res < 0
  memory : after.memory = before.memory
  contents : ∀ index < before.tElems, ∀ dataOut size,
    vectorAt after.view index dataOut size = vectorAt before.view index dataOut size
  count : after.tElems = before.tElems
  capacity : after.tmElems = before.tmElems
  later : ∀ calls, runOps (placedStep krealloc kzalloc) after calls = runOps (placedStep krealloc kzalloc) before calls

/-- A push that is taken back. -/
def PushUndone (before : PlacedVector) (elem : Bytes) : Prop :=
  ∃ output after, placedPush krealloc before elem = some (output, after) ∧
    LeavesNoTrace krealloc kzalloc before output after

end Calls

/-! ## The block -/

section View

variable {placed : PlacedVector} {vec : VectorState}

@[simp] theorem PlacedVector.view_put (sized : vec.memory.size = vec.eSize * vec.tmElems) :
    (placed.put vec).view = vec := by
  have bytes : (fun i => if placed.memory ≤ placed.memory + i then vec.memory.bytes (placed.memory + i - placed.memory)
      else placed.ram (placed.memory + i)) = vec.memory.bytes := by
    funext i
    rw [if_pos (Nat.le_add_right _ _), Nat.add_sub_cancel_left]
  unfold PlacedVector.view PlacedVector.put
  simp only [bytes, ← sized]

theorem vectorWrite_size {index : Nat} {elem : Bytes} {span : Span} {memory : Block}
    (written : vectorWrite vec index elem = some (span, memory)) : memory.size = vec.memory.size := by
  unfold vectorWrite at written
  cases length : memcpyLength vec.eSize with
  | none =>
    rw [length] at written
    cases written
  | some len =>
    rw [length] at written
    obtain ⟨-, rfl⟩ := Prod.mk.inj (Option.some.inj written)
    rfl

/-- The calls that do not push keep the size of the block. -/
def SameSize (vec vec' : VectorState) : Prop :=
  vec'.memory.size = vec.memory.size ∧ vec'.eSize = vec.eSize ∧ vec'.tmElems = vec.tmElems

theorem SameSize.refl (vec : VectorState) : SameSize vec vec := ⟨rfl, rfl, rfl⟩

theorem overwrite_sameSize {index : Int32} {elem : Bytes} {elemSize : Nat} {output : VectorOutput} {vec' : VectorState}
    (result : vectorOverwrite vec index elem elemSize = some (output, vec')) : SameSize vec vec' := by
  unfold vectorOverwrite at result
  simp only at result
  split at result
  · obtain ⟨-, rfl⟩ := Prod.mk.inj (Option.some.inj result)
    exact .refl vec
  · split at result
    · obtain ⟨-, rfl⟩ := Prod.mk.inj (Option.some.inj result)
      exact .refl vec
    · obtain ⟨⟨span, memory⟩, written, result⟩ := Option.bind_eq_some_iff.mp result
      obtain ⟨-, rfl⟩ := Prod.mk.inj (Option.some.inj result)
      exact ⟨vectorWrite_size written, rfl, rfl⟩

theorem pop_sameSize (vec : VectorState) : SameSize vec (vectorPop vec).2 := by
  unfold vectorPop
  split
  · exact .refl vec
  · exact ⟨rfl, rfl, rfl⟩

theorem popElement_sameSize {kzalloc : Nat → Bool} {memVal : Bytes} {size : Nat} {output : VectorOutput}
    {vec' : VectorState} (result : vectorPopElement kzalloc vec memVal size = some (output, vec')) :
    SameSize vec vec' := by
  unfold vectorPopElement at result
  split at result
  · obtain ⟨-, rfl⟩ := Prod.mk.inj (Option.some.inj result)
    exact .refl vec
  · split at result
    · obtain ⟨-, rfl⟩ := Prod.mk.inj (Option.some.inj result)
      exact .refl vec
    · split at result
      · cases result
      · split at result
        · obtain ⟨-, rfl⟩ := Prod.mk.inj (Option.some.inj result)
          exact .refl vec
        · split at result
          · obtain ⟨-, rfl⟩ := Prod.mk.inj (Option.some.inj result)
            exact .refl vec
          · split at result
            · obtain ⟨-, rfl⟩ := Prod.mk.inj (Option.some.inj result)
              exact pop_sameSize vec
            · obtain ⟨len, -, result⟩ := Option.bind_eq_some_iff.mp result
              obtain ⟨-, rfl⟩ := Prod.mk.inj (Option.some.inj result)
              exact ⟨rfl, rfl, rfl⟩

theorem vectorStep_sameSize {krealloc : Block → Nat → Option Block} {kzalloc : Nat → Bool} {call : VectorOp}
    {output : VectorOutput} {vec' : VectorState} (notPush : ∀ elem, call ≠ .push elem)
    (result : vectorStep krealloc kzalloc vec call = some (output, vec')) : SameSize vec vec' := by
  cases call with
  | push elem => exact absurd rfl (notPush elem)
  | pop =>
    obtain ⟨-, rfl⟩ := Prod.mk.inj (Option.some.inj result)
    exact pop_sameSize vec
  | overwrite index elem => exact overwrite_sameSize result
  | readAt index dataOut =>
    obtain ⟨read, -, result⟩ := Option.map_eq_some_iff.mp result
    obtain ⟨-, rfl⟩ := Prod.mk.inj result
    exact .refl vec
  | back dataOut =>
    obtain ⟨read, -, result⟩ := Option.map_eq_some_iff.mp result
    obtain ⟨-, rfl⟩ := Prod.mk.inj result
    exact .refl vec
  | popElement memVal => exact popElement_sameSize result
  | count =>
    obtain ⟨-, rfl⟩ := Prod.mk.inj (Option.some.inj result)
    exact .refl vec

end View

/-! ## The calls on the block -/

section Push

variable {krealloc : Bytes → Ptr → Nat → Option (Ptr × Bytes)} {kzalloc : Nat → Bool} {placed grown : PlacedVector}

/-- The calls that do not push are the calls on the block. -/
theorem placedStep_view {call : VectorOp} (notPush : ∀ elem, call ≠ .push elem) :
    (placedStep krealloc kzalloc placed call).map (Prod.map id PlacedVector.view) =
      vectorStep (fun _ _ => none) kzalloc placed.view call := by
  have lifted : placedStep krealloc kzalloc placed call =
      (vectorStep (fun _ _ => none) kzalloc placed.view call).map (Prod.map id placed.put) := by
    cases call with
    | push elem => exact absurd rfl (notPush elem)
    | _ => rfl
  rw [lifted, Option.map_map]
  cases result : vectorStep (fun _ _ => none) kzalloc placed.view call with
  | none => rfl
  | some out =>
    obtain ⟨output, vec⟩ := out
    obtain ⟨size, eSize, tmElems⟩ := vectorStep_sameSize notPush result
    have sized : vec.memory.size = vec.eSize * vec.tmElems := by
      rw [size, eSize, tmElems]
      rfl
    simp only [Option.map_some, Function.comp_apply, Prod.map_apply, id_eq, PlacedVector.view_put sized]

/-- A resize that gets its memory is the resize of the block, where `krealloc` delivers that memory. -/
theorem placedResize_view (resized : placedResize krealloc placed 1 = (0, grown)) :
    vectorResize (fun _ _ => some grown.view.memory) placed.view 1 = (0, grown.view) := by
  unfold placedResize at resized
  unfold vectorResize
  by_cases room : placed.tmElems > (placed.tElems + 1) % addressSpace
  · rw [if_pos room] at resized
    obtain ⟨-, rfl⟩ := Prod.mk.inj resized
    exact if_pos room
  · rw [if_neg room] at resized
    cases result : krealloc placed.ram placed.memory (placed.finalTotal 1 * placed.eSize % addressSpace) with
    | none =>
      simp only [result] at resized
      exact absurd (Prod.mk.inj resized).1 (by decide)
    | some moved =>
      simp only [result] at resized
      obtain ⟨-, rfl⟩ := Prod.mk.inj resized
      exact if_neg room

/-- A push that gets its memory is the push on the block, where `krealloc` delivers that memory. -/
theorem placedPush_view (elem : Bytes) (resized : placedResize krealloc placed 1 = (0, grown)) :
    (placedPush krealloc placed elem).map (Prod.map id PlacedVector.view) =
      vectorPush (fun _ _ => some grown.view.memory) placed.view elem := by
  unfold placedPush vectorPush
  rw [resized, placedResize_view resized]
  simp only [Int.lt_irrefl, if_false]
  change Option.map _ (Option.bind _ _) = Option.bind _ _
  rw [Option.map_bind]
  refine Option.bind_congr fun write written => ?_
  obtain ⟨span, memory⟩ := write
  have sized : memory.size = grown.eSize * grown.tmElems := vectorWrite_size written
  simp only [Function.comp_apply]
  exact congrArg some (Prod.ext rfl (PlacedVector.view_put sized))

/-- A call on the vector is the call on its block, with the memory that `krealloc` delivers if the
call is a push; only a push that gets none is not. -/
theorem placedStep_refines {call : VectorOp}
    (delivers : ∀ elem, call = .push elem → placedResize krealloc placed 1 = (0, grown)) :
    (placedStep krealloc kzalloc placed call).map (Prod.map id PlacedVector.view) =
      vectorStep (fun _ _ => some grown.view.memory) kzalloc placed.view call := by
  cases call with
  | push elem => exact placedPush_view elem (delivers elem rfl)
  | _ => exact placedStep_view fun _ same => nomatch same

/-- A push that gets no memory loses the address of the block. -/
theorem placedPush_fails (elem : Bytes) (fails : KreallocFails krealloc placed) :
    placedPush krealloc placed elem = some (⟨-enomem, none, none⟩, { placed with memory := 0 }) := by
  have resized : placedResize krealloc placed 1 = (-enomem, { placed with memory := 0 }) := by
    unfold placedResize
    rw [if_neg (Nat.not_lt.mpr fails.1)]
    simp only [fails.2]
  unfold placedPush
  rw [resized]
  exact if_pos (by decide)

/-- A failed push leaves no trace just when nothing was allocated for the vector before. -/
theorem pushUndone_iff (krealloc : Bytes → Ptr → Nat → Option (Ptr × Bytes)) (kzalloc : Nat → Bool)
    (placed : PlacedVector) (elem : Bytes) (fails : KreallocFails krealloc placed) :
    PushUndone krealloc kzalloc placed elem ↔ placed.memory = 0 := by
  have result := placedPush_fails elem fails
  constructor
  · rintro ⟨output, after, pushed, noTrace⟩
    obtain ⟨-, rfl⟩ := Prod.mk.inj (Option.some.inj (result.symm.trans pushed))
    exact noTrace.memory.symm
  · intro nothing
    have same : ({ placed with memory := 0 } : PlacedVector) = placed := by rw [← nothing]
    rw [same] at result
    exact ⟨_, _, result, by decide, rfl, fun _ _ _ _ => rfl, rfl, rfl, fun _ => rfl⟩

end Push

/-! ## Two pushes -/

/-- A vector of one byte in a block at 4096, which is full. -/
def fullVector : PlacedVector := ⟨fun _ => 7, 4096, 1, 1, 1, 0⟩

/-- No memory is left. -/
def noMemory (_ : Bytes) (_ : Ptr) (_ : Nat) : Option (Ptr × Bytes) := none

/-- The first push on a new vector. -/
theorem firstPush_undone :
    KreallocFails noMemory { fullVector with memory := 0, tElems := 0, tmElems := 0 } ∧
      PushUndone noMemory (fun _ => true) { fullVector with memory := 0, tElems := 0, tmElems := 0 } fun _ => 1 :=
  have fails : KreallocFails noMemory { fullVector with memory := 0, tElems := 0, tmElems := 0 } :=
    ⟨by decide, rfl⟩
  ⟨fails, (pushUndone_iff noMemory (fun _ => true) _ (fun _ => 1) fails).mpr rfl⟩

theorem fullVector_lost :
    KreallocFails noMemory fullVector ∧ ¬ PushUndone noMemory (fun _ => true) fullVector fun _ => 1 := by
  have fails : KreallocFails noMemory fullVector := ⟨by decide, rfl⟩
  refine ⟨fails, ?_⟩
  rintro ⟨output, after, pushed, noTrace⟩
  obtain ⟨-, rfl⟩ := Prod.mk.inj (Option.some.inj ((placedPush_fails _ fails).symm.trans pushed))
  exact absurd noTrace.memory (by decide)

end ViOS.Memory
