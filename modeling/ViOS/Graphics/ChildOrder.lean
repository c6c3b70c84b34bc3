import ViOS.Graphics.WindowTree
import ViOS.Memory.VectorReorder

/-! # The children of a node in memory

The children of a node are a vector of pointers, which `graphics_set_z_index` hands to
`vector_reorder` with `graphics_reorder`.

* `pointerAt` — the pointer in eight bytes.
* `SetZIndexSorts` — the vector holds the children in the order of their numbers.
* `reorder_sorts_iff` — the vectors and the nodes whose elements are sorted.
-/

namespace ViOS.Graphics

open ViOS.Lib ViOS.Memory

open scoped List

/-! ## Pointers -/

/-- The pointer in an element of a vector of pointers. -/
def pointerAt (bytes : Element 8) : Nat :=
  (List.ofFn bytes).foldr (fun byte high => byte.toNat + 256 * high) 0

/-- `graphics_reorder`, on two elements. -/
def graphicsReorderElements (nodes : Nodes) (firstElement secondElement : Element 8) : Int :=
  if graphicsReorder nodes (pointerAt firstElement) (pointerAt secondElement) then 1 else 0

theorem isGreater_reorderElements (nodes : Nodes) :
    isGreater (graphicsReorderElements nodes) = fun a b => graphicsReorder nodes (pointerAt a) (pointerAt b) := by
  funext a b
  unfold isGreater graphicsReorderElements
  cases graphicsReorder nodes (pointerAt a) (pointerAt b) with
  | true => rfl
  | false => rfl

/-- Elements compared by a number. -/
theorem difference_weak {α : Type*} (number : α → Nat) :
    IsStrictWeakOrder α fun a b => 0 < (number a : Int) - number b where
  irrefl a := by omega
  trans a b c first second := by omega
  incomp_trans a b c first second := by omega

theorem reorderElements_weak (nodes : Nodes) :
    IsStrictWeakOrder (Element 8) fun a b => 0 < graphicsReorderElements nodes a b := by
  have byNumber : (fun a b => 0 < graphicsReorderElements nodes a b) = fun a b =>
      0 < ((zIndexOf nodes (pointerAt a)).toNat : Int) - (zIndexOf nodes (pointerAt b)).toNat := by
    funext a b
    have same := congrFun (congrFun (isGreater_reorderElements nodes) a) b
    rw [← decide_eq_true_iff (p := 0 < graphicsReorderElements nodes a b), ← isGreater, same, graphicsReorder_iff,
      UInt32.lt_iff_toNat_lt, Int.sub_pos, Int.ofNat_lt]
  rw [byNumber]
  exact difference_weak fun a => (zIndexOf nodes (pointerAt a)).toNat

/-! ## The children -/

/-- `graphics_set_z_index` on a node, with the children of its parent in a vector: the vector holds the
children afterwards, which are those it held before, in ascending order of their numbers, and equal
numbers in their former order. -/
def SetZIndexSorts (nodes : Nodes) (p : Nat) (zIndex : UInt32) (q : Nat) (vec : VectorState)
    (l : List (Element 8)) (elem1 elem2 : Bytes) : Prop :=
  ∃ node after parentNode vec' l', nodes p = some node ∧ graphicsSetZIndex nodes p zIndex true = some after ∧
    after q = some parentNode ∧
    Memory.vectorReorder (onBytes (graphicsReorderElements (nodes.set p (node.withZIndex zIndex)))) vec
      (some elem1) (some elem2) = some vec' ∧
    Contains vec' l' ∧ parentNode.children = l'.map pointerAt ∧
    StableSorted (fun a b => (zIndexOf after a).toNat - (zIndexOf after b).toNat) (l.map pointerAt) parentNode.children

theorem sameLate_map {α β : Type*} (f : α → β) {l l' : List α} (same : SameLate l l') : SameLate (l.map f) (l'.map f) := by
  refine ⟨by rw [List.length_map, List.length_map, same.1], ?_⟩
  rw [← List.map_drop, ← List.map_drop, same.2]

theorem lateAbove_of_map {α β : Type*} {f : α → β} {greater : β → β → Bool} {l : List α}
    (lateAbove : LateAbove greater (l.map f)) : LateAbove (fun a b => greater (f a) (f b)) l := by
  intro j b late atJ a member
  refine lateAbove j (f b) late ?_ (f a) ?_
  · rw [List.getElem?_map, atJ, Option.map_some]
  · rw [← List.map_take]
    exact List.mem_map_of_mem member

section SetZIndex

variable {nodes : Nodes} {p q : Nat} {zIndex : UInt32} {node parentNode : GraphicsNode}
variable {vec : VectorState} {l : List (Element 8)} {elem1 elem2 : Bytes}

/-- `graphics_set_z_index` leaves the sorted children with their parent. -/
theorem graphicsSetZIndex_parent (live : nodes p = some node) (parent : node.parent = some q)
    (parentLive : nodes.set p (node.withZIndex zIndex) q = some parentNode) :
    ∃ after, graphicsSetZIndex nodes p zIndex true = some after ∧
      after q = some (parentNode.withChildren
        (bubbleSort (graphicsReorder (nodes.set p (node.withZIndex zIndex))) parentNode.children)) ∧
      ∀ c, zIndexOf after c = zIndexOf (nodes.set p (node.withZIndex zIndex)) c := by
  refine ⟨(nodes.set p (node.withZIndex zIndex)).set q (parentNode.withChildren
    (bubbleSort (graphicsReorder (nodes.set p (node.withZIndex zIndex))) parentNode.children)), ?_,
    Function.update_self .., fun c => ?_⟩
  · simp only [graphicsSetZIndex, live, parent, parentLive]
    rfl
  unfold zIndexOf
  by_cases isParent : c = q
  · subst isParent
    rw [Nodes.set, Function.update_self, parentLive]
    rfl
  · rw [Nodes.set, Function.update_of_ne isParent]

theorem setZIndexSorts_iff (live : nodes p = some node) (parent : node.parent = some q)
    (parentLive : nodes.set p (node.withZIndex zIndex) q = some parentNode)
    (children : parentNode.children = l.map pointerAt) (contains : Contains vec l) (zeroed : Zeroed 8 elem1) :
    SetZIndexSorts nodes p zIndex q vec l elem1 elem2 ↔
      LateAbove (graphicsReorder (nodes.set p (node.withZIndex zIndex))) parentNode.children := by
  obtain ⟨after, set, afterParent, sameNumber⟩ := graphicsSetZIndex_parent live parent parentLive
  have weak := reorderElements_weak (nodes.set p (node.withZIndex zIndex))
  constructor
  · rintro ⟨node', after', parentNode', vec', l', live', set', afterParent', result, contains', children', sorts⟩
    obtain rfl := Option.some.inj (live.symm.trans live')
    obtain rfl := Option.some.inj (set.symm.trans set')
    obtain ⟨vec'', l'', result'', contains'', same⟩ := vectorReorder_sameLate elem2 weak contains zeroed
    obtain rfl := Option.some.inj (result.symm.trans result'')
    obtain rfl := contains'.unique contains''
    rw [children]
    have late := sameLate_map pointerAt same
    rw [← children'] at late
    refine lateAbove_of_sorted late sorts.perm (sorts.sorted.imp fun {a b} inOrder => ?_)
    rw [graphicsReorder_iff, ← sameNumber, ← sameNumber, UInt32.lt_iff_toNat_lt]
    omega
  · intro lateAbove
    rw [children] at lateAbove
    have lateElements := lateAbove_of_map lateAbove
    rw [← isGreater_reorderElements] at lateElements
    obtain ⟨vec', result, contains'⟩ := vectorReorder_bubbleSort elem2 weak contains zeroed lateElements
    have images := @bubbleSort_map _ (graphicsReorder (nodes.set p (node.withZIndex zIndex))) _ pointerAt l
    rw [← isGreater_reorderElements] at images
    refine ⟨node, after, _, vec', _, live, set, afterParent, result, contains', ?_, ?_⟩
    · rw [← images, ← children]
      rfl
    · -- The order is stated in the numbers the children have after the call.
      have byNumber : graphicsReorder (nodes.set p (node.withZIndex zIndex)) = fun a b =>
          decide (0 < ((zIndexOf after a).toNat : Int) - (zIndexOf after b).toNat) := by
        funext a b
        rw [Bool.eq_iff_iff, graphicsReorder_iff, decide_eq_true_iff, ← sameNumber, ← sameNumber,
          UInt32.lt_iff_toNat_lt, Int.sub_pos, Int.ofNat_lt]
      rw [← children, byNumber]
      exact stableSorted_bubbleSort (difference_weak fun a => (zIndexOf after a).toNat) parentNode.children

end SetZIndex

/-- `vector_reorder` sorts a vector just when no element from index `2 ^ 31` on is below an earlier one,
and `graphics_set_z_index` the children of a parent likewise. -/
theorem reorder_sorts_iff (e : Nat) (cmp : Element e → Element e → Int) (vec : VectorState) (l : List (Element e))
    (elem1 elem2 : Bytes) (weak : IsStrictWeakOrder (Element e) fun a b => 0 < cmp a b) (contains : Contains vec l)
    (zeroed : Zeroed e elem1) :
    (ReorderSorts cmp vec l elem1 elem2 ↔ LateAbove (isGreater cmp) l) ∧
    ∀ (nodes : Nodes) (p q : Nat) (zIndex : UInt32) (node parentNode : GraphicsNode) (vec : VectorState)
      (l : List (Element 8)) (elem1 elem2 : Bytes), nodes p = some node → node.parent = some q →
      nodes.set p (node.withZIndex zIndex) q = some parentNode → parentNode.children = l.map pointerAt →
      Contains vec l → Zeroed 8 elem1 →
      (SetZIndexSorts nodes p zIndex q vec l elem1 elem2 ↔
        LateAbove (graphicsReorder (nodes.set p (node.withZIndex zIndex))) parentNode.children) :=
  ⟨reorderSorts_iff _ weak contains zeroed,
    fun _ _ _ _ _ _ _ _ _ _ live parent parentLive children contains zeroed =>
      setZIndexSorts_iff live parent parentLive children contains zeroed⟩

/-! ## Two vectors -/

theorem zeroed_zero {e : Nat} (lengthFits : e < 2 ^ 31) : Zeroed e fun _ => 0 := by
  refine ⟨fun _ => 0, ?_⟩
  rw [memset, if_pos lengthFits]
  simp only [ite_self]

/-- Bytes in the order of their values. -/
def byByte (a b : Element 1) : Int := ((a 0).toNat : Int) - (b 0).toNat

/-- A vector of `early` times the byte 2, and then the byte 1. -/
def lateByte (early : Nat) : VectorState := ⟨⟨fun i => if i < early then 2 else 1, early + 1⟩, 1, early + 1, early + 1, 0⟩

theorem lateByte_contains {early : Nat} (inSpace : early < 2 ^ 62) :
    Contains (lateByte early) (List.replicate early (fun _ => 2) ++ [fun _ => 1] : List (Element 1)) := by
  refine ⟨rfl, by simp [lateByte], fun i inside => ?_, ?_⟩
  · rw [List.length_append, List.length_replicate, List.length_singleton] at inside
    funext k
    unfold element lateByte
    by_cases isEarly : i < early
    · rw [List.getElem_append_left (by rw [List.length_replicate]; exact isEarly), List.getElem_replicate]
      exact if_pos (by omega)
    · have isLast : i = early := by omega
      subst isLast
      simp
  · rw [List.length_append, List.length_replicate, List.length_singleton]
    omega

/-- A node without pixels. -/
def plainNode (parent : Option Nat) (children : List Nat) : GraphicsNode :=
  ⟨⟨0, 0, 0, fun _ => noTransparencyColor, 0, 0, 0, 0, noTransparencyColor⟩, 0, 0, parent, children, 0, false⟩

/-- A node at 8 with a sibling at 24. -/
def siblings : Nodes := fun p =>
  if p = 16 then some (plainNode none [8, 24]) else if p = 8 ∨ p = 24 then some (plainNode (some 16) []) else none

/-- Their pointers. -/
def siblingPointers : List (Element 8) := [fun k => if k.val = 0 then 8 else 0, fun k => if k.val = 0 then 24 else 0]

def siblingVector : VectorState :=
  ⟨⟨fun i => if i = 0 then 8 else if i = 8 then 24 else 0, 16⟩, 8, 2, 2, 0⟩

theorem siblingVector_contains : Contains siblingVector siblingPointers := by
  have slots : ∀ (i : Fin siblingPointers.length) (k : Fin 8),
      element 8 siblingVector.memory.bytes (8 * i.val) k = siblingPointers[i] k := by decide
  exact ⟨rfl, rfl, fun i inside => funext (slots ⟨i, inside⟩), by decide⟩

theorem small_vectors_sorted :
    ReorderSorts byByte (lateByte 1) [fun _ => 2, fun _ => 1] (fun _ => 0) (fun _ => 0) ∧
      SetZIndexSorts siblings 8 5 16 siblingVector siblingPointers (fun _ => 0) fun _ => 0 := by
  obtain ⟨bytes, children⟩ := reorder_sorts_iff 1 byByte (lateByte 1) _ (fun _ => 0) (fun _ => 0)
    (difference_weak fun a : Element 1 => (a 0).toNat) (lateByte_contains (by decide)) (zeroed_zero (by decide))
  constructor
  · exact bytes.mpr (.of_length_le (by decide))
  · exact (children siblings 8 16 5 (plainNode (some 16) []) (plainNode none [8, 24]) siblingVector siblingPointers _ _
      rfl rfl rfl rfl siblingVector_contains (zeroed_zero (by decide))).mpr (.of_length_le (by decide))

/-- The byte 1 behind as many bytes 2 as there are indices of type `int` stays there. -/
theorem lateByte_not_sorted :
    Contains (lateByte (2 ^ 31)) (List.replicate (2 ^ 31) (fun _ => 2) ++ [fun _ => 1] : List (Element 1)) ∧
      ¬ ReorderSorts byByte (lateByte (2 ^ 31)) (List.replicate (2 ^ 31) (fun _ => 2) ++ [fun _ => 1]) (fun _ => 0)
        fun _ => 0 := by
  have contains := @lateByte_contains (2 ^ 31) (by decide)
  refine ⟨contains, fun sorts => ?_⟩
  have lateAbove := (reorderSorts_iff _ (difference_weak fun a : Element 1 => (a 0).toNat) contains
    (zeroed_zero (by decide))).mp sorts
  refine lateAbove (2 ^ 31) (fun _ => 1) (Nat.le_refl _) ?_ (fun _ => 2) ?_ (by decide)
  · rw [List.getElem?_append_right (by rw [List.length_replicate]), List.length_replicate, Nat.sub_self]
    rfl
  · rw [List.take_append_of_le_length (by rw [List.length_replicate]), List.take_replicate, Nat.min_self]
    exact List.mem_replicate.mpr ⟨by decide, rfl⟩

end ViOS.Graphics
