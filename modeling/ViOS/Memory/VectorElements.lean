import ViOS.Memory.PushFailure
import ViOS.Memory.VectorReorder

/-! # The elements of a vector

The callers of `vector.c` see a list, and what the heap has left decides what becomes of it: a
push may find no room, and then the address of the elements is lost, and `vector_reorder` and
`vector_pop_element` do nothing without the buffers they work with.

* `vectorPush`, `vectorReorder`, `vectorPopElement` — the calls on the list, with the answer of
  the heap.
* `vectorPush_elements`, `vectorPush_renewed`, `vectorReorder_elements`, `vectorPopElement_elements` —
  what the calls do in memory.
-/

namespace ViOS.Elements

open ViOS.Lib ViOS.Memory

open scoped List

/-! ## The list -/

section Calls

variable {α : Type*}

/-- The room for one more element: it is there or is given by `krealloc`, or `krealloc` returns the
null pointer and the elements are from then on those read at address zero, until a later push gets a
new block, with whatever is in it. -/
inductive Growth (α : Type*) where
  | room
  | lost (atZero : Nat → α)
  | renewed (contents : Nat → α)

/-- `vector_push`.  A push without room does not change the number of elements. -/
def vectorPush (growth : Growth α) (elements : List α) (elem : α) : List α :=
  match growth with
  | .room => elements ++ [elem]
  | .lost atZero => (List.range elements.length).map atZero
  | .renewed contents => (List.range elements.length).map contents ++ [elem]

/-- `vector_reorder`.  `memory` says whether `kzalloc` has both buffers. -/
def vectorReorder (memory : Bool) (reorder : α → α → Bool) (elements : List α) : List α :=
  if memory then bubbleSort reorder elements else elements

/-- `vector_pop_element`.  `memory` says whether `kzalloc` has the buffer to compare with. -/
def vectorPopElement [DecidableEq α] (memory : Bool) (elements : List α) (elem : α) : List α :=
  if memory then elements.erase elem else elements

variable {memory : Bool} {reorder : α → α → Bool} {elements : List α} {elem : α}

@[simp] theorem vectorPush_room : vectorPush .room elements elem = elements ++ [elem] := rfl

@[simp] theorem vectorReorder_true : vectorReorder true reorder elements = bubbleSort reorder elements :=
  rfl

@[simp] theorem vectorReorder_false : vectorReorder false reorder elements = elements := rfl

theorem vectorReorder_perm (memory : Bool) (reorder : α → α → Bool) (elements : List α) :
    vectorReorder memory reorder elements ~ elements := by
  cases memory with
  | true => exact bubbleSort_perm elements
  | false => exact .refl elements

/-- Elements that are in order need no buffers. -/
theorem vectorReorder_eq_self (memory : Bool)
    (inOrder : elements.Pairwise fun a b => ¬ reorder a b) : vectorReorder memory reorder elements = elements := by
  cases memory with
  | true => exact bubbleSort_eq_self inOrder
  | false => rfl

variable [DecidableEq α]

@[simp] theorem vectorPopElement_true : vectorPopElement true elements elem = elements.erase elem := rfl

@[simp] theorem vectorPopElement_false : vectorPopElement false elements elem = elements := rfl

/-- What is not there needs no buffer. -/
theorem vectorPopElement_of_not_mem (memory : Bool) (absent : elem ∉ elements) :
    vectorPopElement memory elements elem = elements := by
  cases memory with
  | true => exact List.erase_of_not_mem absent
  | false => rfl

theorem vectorPopElement_sublist (memory : Bool) (elements : List α) (elem : α) :
    vectorPopElement memory elements elem <+ elements := by
  cases memory with
  | true => exact List.erase_sublist
  | false => exact .refl elements

end Calls

/-! ## The bytes -/

/-- A push that gets no block keeps the number of elements, which are read at address zero from then
on. -/
theorem vectorPush_elements {krealloc : Memory.Bytes → Ptr → Nat → Option (Ptr × Memory.Bytes)}
    {placed : PlacedVector} {e : Nat} {l : List (Element e)} (count : placed.tElems = l.length)
    (fails : KreallocFails krealloc placed) (elem : Memory.Bytes) :
    ∃ output after, placedPush krealloc placed elem = some (output, after) ∧ output.res < 0 ∧
      vectorPush (.lost fun i => element e placed.ram (e * i)) l (element e elem 0) =
        (List.range after.tElems).map fun i => element e after.view.memory.bytes (e * i) := by
  refine ⟨_, _, placedPush_fails elem fails, by decide, ?_⟩
  simp only [vectorPush, PlacedVector.view, Nat.zero_add, count]

/-- A push that gets a block for a vector that has lost its elements: what the block holds stands for
them. -/
theorem vectorPush_renewed {krealloc : Memory.Bytes → Ptr → Nat → Option (Ptr × Memory.Bytes)}
    {placed grown : PlacedVector} {e : Nat} {l : List (Element e)} (lengthFits : e < 2 ^ 31)
    (resized : placedResize krealloc placed 1 = (0, grown)) (eSize : grown.eSize = e)
    (count : grown.tElems = l.length) (room : l.length + 1 ≤ grown.tmElems)
    (small : e * grown.tmElems < 2 ^ 63) (few : l.length < 2 ^ 31) (elem : Memory.Bytes) :
    ∃ output after, placedPush krealloc placed elem = some (output, after) ∧
      Represents grown.tReservedElements after.view
        (vectorPush (.renewed fun i => element e grown.view.memory.bytes (e * i)) l (element e elem 0)) := by
  set contents := (List.range l.length).map fun i => element e grown.view.memory.bytes (e * i)
  have sameLength : contents.length = l.length := by simp [contents]
  have represents : Represents grown.tReservedElements grown.view contents := by
    refine ⟨eSize, rfl, count.trans sameLength.symm, by simp [contents], ?_, by rw [← eSize]; rfl, small, ?_⟩
    · rw [sameLength]
      exact Nat.mul_le_mul_left e (Nat.le_of_succ_le room)
    · rw [sameLength]
      exact few.le
  obtain ⟨output, vec, pushed, -, represents'⟩ := push_resized lengthFits (placedResize_view resized)
    represents (Nat.mul_le_mul_left e (by rwa [sameLength])) elem (by rwa [sameLength])
  rw [← placedPush_view elem resized, Option.map_eq_some_iff] at pushed
  obtain ⟨⟨res, after⟩, pushed, same⟩ := pushed
  obtain ⟨-, rfl⟩ := Prod.mk.inj same
  exact ⟨res, after, pushed, represents'⟩

section Bytes

variable {e reserve : Nat} {vec : VectorState} {l : List (Element e)}

/-- The sort in memory, with what the two calls of `kzalloc` return. -/
theorem vectorReorder_elements {cmp : Element e → Element e → Int} {elem1 elem2 : Option Memory.Bytes}
    (weak : IsStrictWeakOrder (Element e) fun a b => 0 < cmp a b) (contains : Contains vec l)
    (zeroed : ∀ elem, elem1 = some elem → Zeroed e elem) (lateAbove : LateAbove (isGreater cmp) l) :
    ∃ vec', Memory.vectorReorder (onBytes cmp) vec elem1 elem2 = some vec' ∧
      Contains vec' (vectorReorder (elem1.isSome && elem2.isSome) (isGreater cmp) l) := by
  have unserved : ∀ {first second : Option Memory.Bytes}, (first.isSome && second.isSome) = false →
      Memory.vectorReorder (onBytes cmp) vec first second = some vec := by
    intro first second missing
    unfold Memory.vectorReorder
    cases first <;> cases second <;> simp_all
  cases elem1 with
  | none => exact ⟨vec, unserved rfl, contains⟩
  | some first =>
    cases elem2 with
    | none => exact ⟨vec, unserved rfl, contains⟩
    | some second => exact vectorReorder_bubbleSort second weak contains (zeroed first rfl) lateAbove

/-- The search and the shift in memory. -/
theorem vectorPopElement_elements (kzalloc : Nat → Bool) (lengthFits : e < 2 ^ 31)
    (represents : Represents reserve vec l) (memVal : Memory.Bytes)
    (moved : (l.length - 1 - l.idxOf (element e memVal 0)) * e < 2 ^ 31) :
    ∃ output vec', Memory.vectorPopElement kzalloc vec memVal vec.eSize = some (output, vec') ∧
      Represents reserve vec' (vectorPopElement (kzalloc e) l (element e memVal 0)) := by
  cases buffer : kzalloc e with
  | true =>
    obtain ⟨output, vec', popped, -, represents'⟩ :=
      popElement_refines lengthFits buffer represents memVal moved
    refine ⟨output, vec', popped, ?_⟩
    simp only [listStep] at represents'
    by_cases present : element e memVal 0 ∈ l
    · rwa [if_pos present] at represents'
    · rw [if_neg present] at represents'
      rwa [vectorPopElement_true, List.erase_of_not_mem present]
  | false =>
    refine ⟨⟨-enomem, none, none⟩, vec, ?_, represents⟩
    simp [Memory.vectorPopElement, represents.eSize, buffer]

end Bytes

end ViOS.Elements
