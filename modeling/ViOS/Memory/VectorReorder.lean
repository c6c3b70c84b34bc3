import ViOS.Lib.BubbleSort
import ViOS.Memory.VectorRefinement
import Mathlib.Order.Defs.Unbundled

/-! # Reordering a vector

`vector_reorder` is a bubble sort in the vector's memory.  It reads the elements with
`vector_at`, whose index is a `size_t`, and writes them back with `vector_overwrite`,
whose index is an `int`.

* `vectorReorder` — the code.
* `Contains` — the elements of a vector, as a list.
* `Compared` — what one comparison does to the list.
* `reorderSorts_iff` — the vectors that are sorted.
-/

namespace ViOS.Memory

open ViOS.Lib

open scoped List

/-! ## The code -/

/-- The vector and the two buffers. -/
structure ReorderState where
  vec : VectorState
  elem1 : Bytes
  elem2 : Bytes

section Code

variable (reorderFunction : Bytes → Bytes → Int)

/-- The swap of two elements that were read. -/
def reorderSwap (state : ReorderState) (j : Nat) : Option (Bool × ReorderState) :=
  match vectorOverwrite state.vec (.ofNat j) state.elem2 state.vec.eSize with
  | none => none
  | some (output, vec) =>
    if output.res < 0 then some (false, { state with vec })
    else
      match vectorOverwrite vec (.ofNat (j + 1)) state.elem1 vec.eSize with
      | none => none
      | some (output, vec) => some (decide (0 ≤ output.res), { state with vec })

/-- One turn of the inner loop; `false` is the jump to `cleanup`. -/
def reorderStep (state : ReorderState) (j : Nat) : Option (Bool × ReorderState) :=
  match vectorAt state.vec j (some state.elem1) state.vec.eSize with
  | none => none
  | some (res, elem1) =>
    let state := { state with elem1 := elem1.getD state.elem1 }
    if res < 0 then some (false, state)
    else
      match vectorAt state.vec (j + 1) (some state.elem2) state.vec.eSize with
      | none => none
      | some (res, elem2) =>
        let state := { state with elem2 := elem2.getD state.elem2 }
        if res < 0 then some (false, state)
        else if reorderFunction state.elem1 state.elem2 > 0 then reorderSwap state j
        else some (true, state)

/-- The inner loop from `j` on, over `rest` turns. -/
def reorderInner : (rest j : Nat) → ReorderState → Option (Bool × ReorderState)
  | 0, _, state => some (true, state)
  | rest + 1, j, state =>
    match reorderStep reorderFunction state j with
    | none => none
    | some (going, state) => if going then reorderInner rest (j + 1) state else some (false, state)

/-- The outer loop from `i` on, over `rest` turns. -/
def reorderOuter (count : Nat) : (rest i : Nat) → ReorderState → Option (Bool × ReorderState)
  | 0, _, state => some (true, state)
  | rest + 1, i, state =>
    match reorderInner reorderFunction (count - i - 1) 0 state with
    | none => none
    | some (going, state) => if going then reorderOuter count rest (i + 1) state else some (false, state)

/-- `vector_reorder`, with what the two calls of `kzalloc` return. -/
def vectorReorder (vec : VectorState) (elem1 elem2 : Option Bytes) : Option VectorState :=
  let count := vectorCount vec
  if count < 2 then some vec
  else
    match elem1, elem2 with
    | some elem1, some elem2 =>
      (reorderOuter reorderFunction count (count - 1) 0 ⟨vec, elem1, elem2⟩).map fun result => result.2.vec
    | _, _ => some vec

end Code

/-- A buffer that `kzalloc` has zeroed. -/
def Zeroed (e : Nat) (elem : Bytes) : Prop := ∃ raw, memset raw 0 e = some elem

/-! ## The elements -/

/-- The elements of a vector, in a block of less than `2 ^ 63` bytes. -/
structure Contains {e : Nat} (vec : VectorState) (l : List (Element e)) : Prop where
  eSize : vec.eSize = e
  count : vec.tElems = l.length
  elements : ∀ i (inside : i < l.length), element e vec.memory.bytes (e * i) = l[i]
  small : e * l.length < 2 ^ 63

/-- The index `vector_overwrite` works with when it is given a `size_t`. -/
def overwriteIndex (index : Int32) : Nat := (index.toInt % addressSpace).toNat

section Elements

variable {e reserve : Nat} {vec : VectorState} {l : List (Element e)}

theorem overwriteIndex_of_lt {j : Nat} (small : j < 2 ^ 31) : overwriteIndex (.ofNat j) = j := by
  rw [overwriteIndex, Int32.toInt_ofNat_of_lt small]
  unfold addressSpace
  omega

/-- An `int` is an index of an `int`, or one behind every vector. -/
theorem overwriteIndex_lt {index : Int32} (inSpace : overwriteIndex index < 2 ^ 63) : overwriteIndex index < 2 ^ 31 := by
  have lower := Int32.le_toInt index
  have upper := Int32.toInt_lt index
  unfold overwriteIndex addressSpace at *
  omega

theorem vectorOverwrite_eq (vec : VectorState) (index : Int32) (elem : Bytes) :
    vectorOverwrite vec index elem vec.eSize =
      if vectorValidBounds vec (overwriteIndex index) < 0 then
        some (⟨vectorValidBounds vec (overwriteIndex index), none, none⟩, vec)
      else (vectorWrite vec (overwriteIndex index) elem).bind fun write =>
        some (⟨vectorValidBounds vec (overwriteIndex index), none, some write.1⟩, { vec with memory := write.2 }) := by
  unfold vectorOverwrite overwriteIndex
  simp only [if_neg (Nat.lt_irrefl vec.eSize)]
  rfl

theorem Represents.contains (represents : Represents reserve vec l) : Contains vec l where
  eSize := represents.eSize
  count := represents.count
  elements := represents.elements
  small := Nat.lt_of_le_of_lt represents.room represents.small

namespace Contains

theorem offset_eq (contains : Contains vec l) {index : Nat} (inside : index < l.length) :
    vectorOffset vec index = e * index := by
  rw [vectorOffset, contains.eSize]
  apply Nat.mod_eq_of_lt
  have bound := Nat.mul_le_mul_left e inside.le
  have := contains.small
  unfold addressSpace
  omega

theorem bounds_eq (contains : Contains vec l) (index : Nat) :
    vectorValidBounds vec index = if index < l.length then 0 else -einvarg := by
  rw [vectorValidBounds, contains.count]

theorem read (contains : Contains vec l) (lengthFits : e < 2 ^ 31) {index : Nat} (inside : index < l.length)
    (dataOut : Bytes) :
    ∃ bytes, vectorAt vec index (some dataOut) vec.eSize = some (0, some bytes) ∧ element e bytes 0 = l[index] := by
  have status : vectorAtStatus vec index (some dataOut) vec.eSize = 0 := by
    rw [vectorAtStatus, if_neg (Nat.lt_irrefl _), Option.isNone_some, if_neg Bool.false_ne_true,
      contains.bounds_eq, if_pos inside]
  unfold vectorAt
  simp only [status]
  rw [if_neg (Int.lt_irrefl 0), contains.eSize, memcpyLength_eq lengthFits, contains.offset_eq inside]
  refine ⟨_, rfl, ?_⟩
  rw [← contains.elements index inside]
  funext k
  rw [element, element, copyLoop_apply, if_pos ⟨by omega, by omega⟩]
  congr 1
  omega

/-- An overwrite of a slot of the vector. -/
theorem overwrite (contains : Contains vec l) (lengthFits : e < 2 ^ 31) (index : Int32) (elem : Bytes)
    (inside : overwriteIndex index < l.length) :
    ∃ output vec', vectorOverwrite vec index elem vec.eSize = some (output, vec') ∧ output.res = 0 ∧
      Contains vec' (l.set (overwriteIndex index) (element e elem 0)) := by
  have written : vectorWrite vec (overwriteIndex index) elem = some (⟨e * overwriteIndex index, e⟩,
      { vec.memory with bytes := copyLoop e vec.memory.bytes (e * overwriteIndex index) elem 0 }) := by
    rw [vectorWrite, contains.eSize, memcpyLength_eq lengthFits, contains.offset_eq inside]
    rfl
  rw [vectorOverwrite_eq, contains.bounds_eq, if_pos inside, if_neg (Int.lt_irrefl 0), written]
  refine ⟨_, _, rfl, rfl, contains.eSize, ?_, ?_, ?_⟩
  · rw [List.length_set]
    exact contains.count
  · intro i inList
    rw [List.length_set] at inList
    by_cases same : i = overwriteIndex index
    · subst same
      rw [List.getElem_set_self]
      exact element_copyLoop_same ..
    · rw [List.getElem_set_ne (Ne.symm same)]
      exact (element_copyLoop_other _ _ same).trans (contains.elements i inList)
  · rw [List.length_set]
    exact contains.small

theorem overwrite_outside (contains : Contains vec l) (index : Int32) (elem : Bytes)
    (outside : ¬ overwriteIndex index < l.length) :
    ∃ output, vectorOverwrite vec index elem vec.eSize = some (output, vec) ∧ output.res < 0 := by
  rw [vectorOverwrite_eq, contains.bounds_eq, if_neg outside, if_pos (by decide)]
  exact ⟨_, rfl, (by decide : -einvarg < 0)⟩

end Contains

theorem Zeroed.lengthFits {elem : Bytes} (zeroed : Zeroed e elem) : e < 2 ^ 31 := by
  obtain ⟨raw, result⟩ := zeroed
  unfold memset at result
  split at result
  · assumption
  · cases result

end Elements

/-! ## One comparison -/

/-- The same elements from index `2 ^ 31` on. -/
def SameLate {α : Type*} (l l' : List α) : Prop := l'.length = l.length ∧ l'.drop (2 ^ 31) = l.drop (2 ^ 31)

theorem SameLate.refl {α : Type*} (l : List α) : SameLate l l := ⟨rfl, rfl⟩

theorem SameLate.trans {α : Type*} {l l' l'' : List α} (first : SameLate l l') (second : SameLate l' l'') :
    SameLate l l'' :=
  ⟨second.1.trans first.1, second.2.trans first.2⟩

theorem SameLate.set {α : Type*} (l : List α) {i : Nat} (early : i < 2 ^ 31) (a : α) : SameLate l (l.set i a) :=
  ⟨List.length_set, by rw [List.drop_set_of_lt early]⟩

/-- What the comparison of two neighbours does: nothing when they are in order, a swap when both have
an index of type `int`, and else something in front of the index `2 ^ 31`. -/
inductive Compared {α : Type*} (greater : α → α → Bool) (front : List α) (a b : α) (rest : List α) :
    Bool → List α → Prop
  | keep (inOrder : ¬ greater a b) : Compared greater front a b rest true (front ++ a :: b :: rest)
  | swap (above : greater a b) (early : front.length + 1 < 2 ^ 31) :
    Compared greater front a b rest true (front ++ b :: a :: rest)
  | late {going : Bool} {l' : List α} (above : greater a b) (late : 2 ^ 31 ≤ front.length + 1)
    (same : SameLate (front ++ a :: b :: rest) l') : Compared greater front a b rest going l'

theorem set_neighbours {α : Type*} (front rest : List α) (a b : α) :
    ((front ++ a :: b :: rest).set front.length b).set (front.length + 1) a = front ++ b :: a :: rest := by
  rw [List.set_append_right _ _ (Nat.le_refl _), List.set_append_right _ _ (Nat.le_succ _), Nat.sub_self,
    Nat.succ_sub (Nat.le_refl _), Nat.sub_self]
  rfl

theorem Compared.sameLate {α : Type*} {greater : α → α → Bool} {front rest l' : List α} {a b : α} {going : Bool}
    (compared : Compared greater front a b rest going l') : SameLate (front ++ a :: b :: rest) l' := by
  cases compared with
  | keep inOrder => exact .refl _
  | swap above early =>
    have first := SameLate.set (front ++ a :: b :: rest) (show front.length < 2 ^ 31 by omega) b
    rw [← set_neighbours front rest a b]
    exact first.trans (.set _ early a)
  | late above late same => exact same

section Step

variable {e : Nat} {cmp : Element e → Element e → Int}

/-- A comparison function as `vector_reorder` gets it, which reads an element from each pointer. -/
def onBytes (cmp : Element e → Element e → Int) (first second : Bytes) : Int :=
  cmp (element e first 0) (element e second 0)

/-- The first element is greater than the second. -/
def isGreater (cmp : Element e → Element e → Int) (a b : Element e) : Bool := decide (0 < cmp a b)

theorem reorderSwap_spec (lengthFits : e < 2 ^ 31) {state : ReorderState} {front rest : List (Element e)}
    {a b : Element e} (contains : Contains state.vec (front ++ a :: b :: rest))
    (first : element e state.elem1 0 = a) (second : element e state.elem2 0 = b) (above : isGreater cmp a b)
    (apart : a ≠ b) :
    ∃ going state' l', reorderSwap state front.length = some (going, state') ∧ Contains state'.vec l' ∧
      Compared (isGreater cmp) front a b rest going l' := by
  have length : (front ++ a :: b :: rest).length = front.length + (rest.length + 2) := by simp
  -- Elements that differ have bytes.
  have positive : 0 < e := by
    by_contra none
    exact apart (funext fun k => absurd k.isLt (by omega))
  have inSpace : (front ++ a :: b :: rest).length < 2 ^ 63 :=
    Nat.lt_of_le_of_lt (Nat.le_mul_of_pos_left _ positive) contains.small
  unfold reorderSwap
  by_cases early : front.length + 1 < 2 ^ 31
  · have index := overwriteIndex_of_lt (show front.length < 2 ^ 31 by omega)
    obtain ⟨output, vec, result, success, written⟩ :=
      contains.overwrite lengthFits (.ofNat front.length) state.elem2 (by omega)
    obtain ⟨output', vec', result', success', written'⟩ :=
      written.overwrite lengthFits (.ofNat (front.length + 1)) state.elem1
        (by rw [overwriteIndex_of_lt early, List.length_set]; omega)
    rw [index, overwriteIndex_of_lt early, first, second, set_neighbours] at written'
    simp only [result, success, Int.lt_irrefl, if_false, result', success', Int.le_refl, decide_true]
    exact ⟨_, _, _, rfl, written', .swap above early⟩
  · by_cases inside : overwriteIndex (.ofNat front.length) < (front ++ a :: b :: rest).length
    · obtain ⟨output, vec, result, success, written⟩ := contains.overwrite lengthFits _ state.elem2 inside
      have same := SameLate.set (front ++ a :: b :: rest) (overwriteIndex_lt (Nat.lt_trans inside inSpace))
        (element e state.elem2 0)
      simp only [result, success, Int.lt_irrefl, if_false]
      by_cases inside' : overwriteIndex (.ofNat (front.length + 1)) < (front ++ a :: b :: rest).length
      · obtain ⟨output', vec', result', -, written'⟩ :=
          written.overwrite lengthFits _ state.elem1 (by rw [List.length_set]; exact inside')
        simp only [result']
        refine ⟨_, _, _, rfl, written', .late above (Nat.not_lt.mp early) (same.trans ?_)⟩
        exact .set _ (overwriteIndex_lt (Nat.lt_trans inside' inSpace)) _
      · obtain ⟨output', result', -⟩ :=
          written.overwrite_outside (.ofNat (front.length + 1)) state.elem1 (by rw [List.length_set]; exact inside')
        simp only [result']
        exact ⟨_, _, _, rfl, written, .late above (Nat.not_lt.mp early) same⟩
    · obtain ⟨output, result, failed⟩ := contains.overwrite_outside (.ofNat front.length) state.elem2 inside
      simp only [result, failed, if_true]
      exact ⟨_, _, _, rfl, contains, .late above (Nat.not_lt.mp early) (.refl _)⟩

/-- One comparison of the code. -/
theorem reorderStep_spec (lengthFits : e < 2 ^ 31) (irreflexive : ∀ a, ¬ isGreater cmp a a) {state : ReorderState}
    {front rest : List (Element e)} {a b : Element e} (contains : Contains state.vec (front ++ a :: b :: rest)) :
    ∃ going state' l', reorderStep (onBytes cmp) state front.length = some (going, state') ∧
      Contains state'.vec l' ∧ Compared (isGreater cmp) front a b rest going l' := by
  have length : (front ++ a :: b :: rest).length = front.length + (rest.length + 2) := by simp
  obtain ⟨elem1, read1, first⟩ := contains.read lengthFits (show front.length < _ by omega) state.elem1
  obtain ⟨elem2, read2, second⟩ := contains.read lengthFits (show front.length + 1 < _ by omega) state.elem2
  have first : element e elem1 0 = a := by simpa using first
  have second : element e elem2 0 = b := by simpa using second
  unfold reorderStep
  simp only [read1, read2, Option.getD_some, Int.lt_irrefl, if_false]
  by_cases above : isGreater cmp a b
  · have swaps : onBytes cmp elem1 elem2 > 0 := by
      rw [onBytes, first, second]
      exact of_decide_eq_true above
    rw [if_pos swaps]
    -- Two equal elements are not swapped, as none is above itself.
    refine reorderSwap_spec lengthFits contains first second above ?_
    rintro rfl
    exact irreflexive _ above
  · have stays : ¬ onBytes cmp elem1 elem2 > 0 := by
      rw [onBytes, first, second]
      exact fun swaps => above (decide_eq_true swaps)
    rw [if_neg stays]
    exact ⟨_, _, _, rfl, contains, .keep above⟩

end Step

/-! ## Elements behind the indices of an `int` -/

/-- From index `2 ^ 31` on no element is below an earlier one. -/
def LateAbove {α : Type*} (greater : α → α → Bool) (l : List α) : Prop :=
  ∀ j b, 2 ^ 31 ≤ j → l[j]? = some b → ∀ a ∈ l.take j, ¬ greater a b

section Late

variable {α : Type*} {greater : α → α → Bool} {l l' front rest : List α} {a b : α}

theorem LateAbove.of_length_le (few : l.length ≤ 2 ^ 31) : LateAbove greater l := by
  intro j b late atJ
  have inside := (List.getElem?_eq_some_iff.mp atJ).1
  omega

theorem LateAbove.not_greater (lateAbove : LateAbove greater (front ++ a :: b :: rest))
    (late : 2 ^ 31 ≤ front.length + 1) : ¬ greater a b := by
  refine lateAbove (front.length + 1) b late ?_ a ?_
  · rw [List.getElem?_append_right (Nat.le_add_right _ _), Nat.add_sub_cancel_left]
    rfl
  · rw [List.take_length_add_append]
    exact List.mem_append_right _ List.mem_cons_self

theorem LateAbove.swap (lateAbove : LateAbove greater (front ++ a :: b :: rest)) (early : front.length + 1 < 2 ^ 31) :
    LateAbove greater (front ++ b :: a :: rest) := by
  intro j y late atJ x member
  obtain ⟨k, rfl⟩ : ∃ k, j = front.length + (k + 2) := ⟨j - front.length - 2, by omega⟩
  refine lateAbove (front.length + (k + 2)) y late ?_ x ?_
  · rw [List.getElem?_append_right (Nat.le_add_right _ _), Nat.add_sub_cancel_left] at atJ ⊢
    exact atJ
  · rw [List.take_length_add_append] at member ⊢
    exact ((List.Perm.swap a b (rest.take k)).append_left front).mem_iff.mp member

/-- A list that was sorted without a change behind the index `2 ^ 31`. -/
theorem lateAbove_of_sorted (same : SameLate l l') (perm : l' ~ l) (sorted : l'.Pairwise fun a b => ¬ greater a b) :
    LateAbove greater l := by
  intro j b late atJ a member
  obtain ⟨k, rfl⟩ := Nat.exists_eq_add_of_le late
  have back : l'.drop (2 ^ 31 + k) = l.drop (2 ^ 31 + k) := by
    rw [← List.drop_drop, ← List.drop_drop, same.2]
  have front : l'.take (2 ^ 31 + k) ~ l.take (2 ^ 31 + k) := by
    rw [← List.perm_append_right_iff (l'.drop (2 ^ 31 + k)), List.take_append_drop, back, List.take_append_drop]
    exact perm
  have atBack : b ∈ l'.drop (2 ^ 31 + k) := by
    rw [back]
    refine List.mem_of_getElem? (i := 0) ?_
    rw [List.getElem?_drop]
    exact atJ
  rw [← List.take_append_drop (2 ^ 31 + k) l', List.pairwise_append] at sorted
  exact sorted.2.2 a (front.mem_iff.mpr member) b atBack

end Late

/-! ## The loops -/

section Loops

variable {e : Nat} {cmp : Element e → Element e → Int} {state : ReorderState} {l : List (Element e)}
variable (lengthFits : e < 2 ^ 31) (irreflexive : ∀ a, ¬ isGreater cmp a a)

include lengthFits irreflexive

/-- Whatever is compared, the elements behind the indices of an `int` stay. -/
theorem reorderInner_sameLate (rest j : Nat) (contains : Contains state.vec l) (inside : j + rest < l.length) :
    ∃ going state' l', reorderInner (onBytes cmp) rest j state = some (going, state') ∧
      Contains state'.vec l' ∧ SameLate l l' := by
  induction rest generalizing j state l with
  | zero => exact ⟨true, state, l, rfl, contains, .refl l⟩
  | succ rest ih =>
    obtain ⟨front, a, b, back, rfl, rfl⟩ : ∃ front a b back, l = front ++ a :: b :: back ∧ front.length = j := by
      refine ⟨l.take j, l[j], l[j + 1], l.drop (j + 2), ?_, by rw [List.length_take]; omega⟩
      rw [← List.drop_eq_getElem_cons, ← List.drop_eq_getElem_cons, List.take_append_drop]
    obtain ⟨going, next, l', result, contains', compared⟩ := reorderStep_spec lengthFits irreflexive contains
    have same := compared.sameLate
    simp only [reorderInner, result]
    cases going with
    | false => exact ⟨false, next, l', rfl, contains', same⟩
    | true =>
      obtain ⟨going, last, l'', result', contains'', same'⟩ := ih (front.length + 1) contains' (by rw [same.1]; omega)
      exact ⟨going, last, l'', result', contains'', same.trans same'⟩

theorem reorderOuter_sameLate (rest i : Nat) (contains : Contains state.vec l) (nonempty : 0 < l.length) :
    ∃ going state' l', reorderOuter (onBytes cmp) l.length rest i state = some (going, state') ∧
      Contains state'.vec l' ∧ SameLate l l' := by
  induction rest generalizing i state l with
  | zero => exact ⟨true, state, l, rfl, contains, .refl l⟩
  | succ rest ih =>
    obtain ⟨going, next, l', result, contains', same⟩ :=
      reorderInner_sameLate lengthFits irreflexive (l.length - i - 1) 0 contains (by omega)
    simp only [reorderOuter, result]
    cases going with
    | false => exact ⟨false, next, l', rfl, contains', same⟩
    | true =>
      obtain ⟨going, last, l'', result', contains'', same'⟩ := ih (i + 1) contains' (by rw [same.1]; exact nonempty)
      rw [same.1] at result'
      exact ⟨going, last, l'', result', contains'', same.trans same'⟩

/-- The inner loop is a bubble pass as long as no late element has to move. -/
theorem reorderInner_bubblePass (rest : Nat) {front back : List (Element e)}
    (contains : Contains state.vec (front ++ back)) (lateAbove : LateAbove (isGreater cmp) (front ++ back))
    (inside : rest < back.length) :
    ∃ state', reorderInner (onBytes cmp) rest front.length state = some (true, state') ∧
      Contains state'.vec (front ++ bubblePass (isGreater cmp) rest back) ∧
      LateAbove (isGreater cmp) (front ++ bubblePass (isGreater cmp) rest back) := by
  induction rest generalizing state front back with
  | zero =>
    have none : bubblePass (isGreater cmp) 0 back = back := by simp [bubblePass]
    rw [none]
    exact ⟨state, rfl, contains, lateAbove⟩
  | succ rest ih =>
    cases back with
    | nil => exact absurd inside (Nat.not_lt_zero _)
    | cons a back =>
      cases back with
      | nil => exact absurd inside (by simp)
      | cons b back =>
        obtain ⟨going, next, l', result, contains', compared⟩ := reorderStep_spec lengthFits irreflexive contains
        have inside' : rest < (b :: back).length := Nat.lt_of_succ_lt_succ inside
        simp only [reorderInner, result]
        cases compared with
        | keep inOrder =>
          rw [List.append_cons] at contains' lateAbove
          obtain ⟨last, result', contains'', lateAbove'⟩ := ih contains' lateAbove inside'
          rw [List.length_append, List.length_singleton] at result'
          rw [bubblePass, if_neg inOrder, List.append_cons]
          exact ⟨last, result', contains'', lateAbove'⟩
        | swap above early =>
          have swapped := lateAbove.swap early
          rw [List.append_cons] at contains' swapped
          obtain ⟨last, result', contains'', lateAbove'⟩ := ih contains' swapped inside'
          rw [List.length_append, List.length_singleton] at result'
          rw [bubblePass, if_pos above, List.append_cons]
          exact ⟨last, result', contains'', lateAbove'⟩
        -- a swap that would be refused is not asked for
        | late above late same => exact absurd above (lateAbove.not_greater late)

/-- The rounds of the outer loop are those of the bubble sort. -/
theorem reorderOuter_bubbleRounds (rest i : Nat) (contains : Contains state.vec (bubbleRounds (isGreater cmp) i l))
    (lateAbove : LateAbove (isGreater cmp) (bubbleRounds (isGreater cmp) i l)) (nonempty : 0 < l.length) :
    ∃ state', reorderOuter (onBytes cmp) l.length rest i state = some (true, state') ∧
      Contains state'.vec (bubbleRounds (isGreater cmp) (i + rest) l) := by
  induction rest generalizing i state with
  | zero => exact ⟨state, rfl, contains⟩
  | succ rest ih =>
    have length : (bubbleRounds (isGreater cmp) i l).length = l.length := (bubbleRounds_perm i l).length_eq
    rw [← List.nil_append (bubbleRounds _ i l)] at contains lateAbove
    obtain ⟨next, result, contains', lateAbove'⟩ := reorderInner_bubblePass lengthFits irreflexive
      (l.length - i - 1) contains lateAbove (by rw [length]; omega)
    rw [List.nil_append, ← length, ← bubbleRounds_succ] at contains' lateAbove'
    obtain ⟨last, result', contains''⟩ := ih (i + 1) contains' lateAbove'
    simp only [List.length_nil] at result
    simp only [reorderOuter, result]
    rw [show i + (rest + 1) = i + 1 + rest by omega]
    exact ⟨last, result', contains''⟩

end Loops

/-! ## The vectors that are sorted -/

/-- A stable sort: the same elements, none greater than a later one, and elements that compare neither
way in their former order. -/
structure StableSorted {α : Type*} (cmp : α → α → Int) (l l' : List α) : Prop where
  perm : l' ~ l
  sorted : l'.Pairwise fun a b => ¬ 0 < cmp a b
  stable : ∀ c, c <+ l → (c.Pairwise fun a b => ¬ 0 < cmp a b ∧ ¬ 0 < cmp b a) → c <+ l'

/-- `vector_reorder` leaves the elements of the list sorted. -/
def ReorderSorts {e : Nat} (cmp : Element e → Element e → Int) (vec : VectorState) (l : List (Element e))
    (elem1 elem2 : Bytes) : Prop :=
  ∃ vec' l', vectorReorder (onBytes cmp) vec (some elem1) (some elem2) = some vec' ∧ Contains vec' l' ∧
    StableSorted cmp l l'

section Sorted

variable {α : Type*} {cmp : α → α → Int}

theorem not_greater_trans (weak : IsStrictWeakOrder α fun a b => 0 < cmp a b) (a b c : α) (first : ¬ 0 < cmp a b)
    (second : ¬ 0 < cmp b c) : ¬ 0 < cmp a c := by
  intro greater
  have first' : ¬ 0 < cmp b a := fun back => second (weak.trans b a c back greater)
  have second' : ¬ 0 < cmp c b := fun back => first (weak.trans a c b greater back)
  exact (weak.incomp_trans a b c ⟨first, first'⟩ ⟨second, second'⟩).1 greater

theorem stableSorted_bubbleSort (weak : IsStrictWeakOrder α fun a b => 0 < cmp a b) (l : List α) :
    StableSorted cmp l (bubbleSort (fun a b => decide (0 < cmp a b)) l) where
  perm := bubbleSort_perm l
  sorted := by
    have asymm : ∀ a b, decide (0 < cmp a b) = true → ¬ decide (0 < cmp b a) = true := by
      simp only [decide_eq_true_eq]
      exact fun a b first second => weak.irrefl a (weak.trans a b a first second)
    have trans : ∀ a b c, ¬ decide (0 < cmp a b) = true → ¬ decide (0 < cmp b c) = true →
        ¬ decide (0 < cmp a c) = true := by
      simp only [decide_eq_true_eq]
      exact not_greater_trans weak
    exact (bubbleSort_pairwise asymm trans l).imp fun inOrder => by simpa only [decide_eq_true_eq] using inOrder
  stable := fun c sub ties =>
    bubbleSort_sublist l (ties.imp fun tie => by simpa only [decide_eq_true_eq] using tie.1) sub

end Sorted

section Whole

variable {e : Nat} {cmp : Element e → Element e → Int} {vec : VectorState} {l : List (Element e)}
variable {elem1 : Bytes} (elem2 : Bytes)

/-- `vector_reorder` always returns, with the elements behind the indices of an `int` in place. -/
theorem vectorReorder_sameLate (weak : IsStrictWeakOrder (Element e) fun a b => 0 < cmp a b)
    (contains : Contains vec l) (zeroed : Zeroed e elem1) :
    ∃ vec' l', vectorReorder (onBytes cmp) vec (some elem1) (some elem2) = some vec' ∧ Contains vec' l' ∧
      SameLate l l' := by
  have irreflexive : ∀ a, ¬ isGreater cmp a a := fun a above => weak.irrefl a (of_decide_eq_true above)
  unfold vectorReorder vectorCount
  rw [contains.count]
  by_cases short : l.length < 2
  · exact ⟨vec, l, if_pos short, contains, .refl l⟩
  · obtain ⟨going, state, l', result, contains', same⟩ := @reorderOuter_sameLate e cmp ⟨vec, elem1, elem2⟩ l
      zeroed.lengthFits irreflexive (l.length - 1) 0 contains (by omega)
    simp only [if_neg short, result]
    exact ⟨state.vec, l', rfl, contains', same⟩

/-- Without a late element that has to move, `vector_reorder` is the bubble sort. -/
theorem vectorReorder_bubbleSort (weak : IsStrictWeakOrder (Element e) fun a b => 0 < cmp a b)
    (contains : Contains vec l) (zeroed : Zeroed e elem1) (lateAbove : LateAbove (isGreater cmp) l) :
    ∃ vec', vectorReorder (onBytes cmp) vec (some elem1) (some elem2) = some vec' ∧
      Contains vec' (bubbleSort (isGreater cmp) l) := by
  have irreflexive : ∀ a, ¬ isGreater cmp a a := fun a above => weak.irrefl a (of_decide_eq_true above)
  unfold vectorReorder vectorCount
  rw [contains.count]
  by_cases short : l.length < 2
  · have single : bubbleSort (isGreater cmp) l = l := by
      rw [bubbleSort, show l.length - 1 = 0 by omega]
      rfl
    rw [single]
    exact ⟨vec, if_pos short, contains⟩
  · obtain ⟨state, result, contains'⟩ := @reorderOuter_bubbleRounds e cmp ⟨vec, elem1, elem2⟩ l
      zeroed.lengthFits irreflexive (l.length - 1) 0 contains lateAbove (by omega)
    simp only [if_neg short, result]
    rw [Nat.zero_add] at contains'
    exact ⟨state.vec, rfl, contains'⟩

/-- The elements of a vector are its bytes. -/
theorem Contains.unique {l' : List (Element e)} (contains : Contains vec l) (contains' : Contains vec l') : l = l' := by
  have length : l.length = l'.length := contains.count.symm.trans contains'.count
  refine List.ext_getElem length fun i inside inside' => ?_
  rw [← contains.elements i inside, ← contains'.elements i inside']

/-- The vector is sorted just when no element from index `2 ^ 31` on is below an earlier one. -/
theorem reorderSorts_iff (weak : IsStrictWeakOrder (Element e) fun a b => 0 < cmp a b) (contains : Contains vec l)
    (zeroed : Zeroed e elem1) : ReorderSorts cmp vec l elem1 elem2 ↔ LateAbove (isGreater cmp) l := by
  constructor
  · rintro ⟨vec', l', result, contains', sorts⟩
    obtain ⟨vec'', l'', result'', contains'', same⟩ := vectorReorder_sameLate elem2 weak contains zeroed
    obtain rfl := Option.some.inj (result.symm.trans result'')
    obtain rfl := contains'.unique contains''
    refine lateAbove_of_sorted same sorts.perm (sorts.sorted.imp fun inOrder => ?_)
    simpa only [isGreater, decide_eq_true_eq] using inOrder
  · intro lateAbove
    obtain ⟨vec', result, contains'⟩ := vectorReorder_bubbleSort elem2 weak contains zeroed lateAbove
    exact ⟨vec', _, result, contains', stableSorted_bubbleSort weak l⟩

end Whole

end ViOS.Memory
