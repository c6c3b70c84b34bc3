import ViOS.Lib.Simulation
import ViOS.Memory.Vector
import Mathlib.Data.Fintype.Basic
import Mathlib.Data.List.Basic

/-! # The vector is a list

An element is the bytes of the vector's element size.  As long as every length fits
the `int` of `memcpy` and no size wraps, each call returns what the list operation
returns and writes inside the block.

* `listStep` — the operations on the list.
* `Represents` — the vector stands for a list.
* `SizesFit` — the calls whose sizes fit.
* `vector_refines_list` — every sequence of such calls.
-/

namespace ViOS.Memory

open ViOS.Lib

/-! ## The list -/

/-- An element of `e` bytes. -/
abbrev Element (e : Nat) := Fin e → UInt8

/-- The element whose bytes start at an offset. -/
def element (e : Nat) (bytes : Bytes) (offset : Nat) : Element e := fun k => bytes (offset + k)

/-- What an operation on the list returns: its status, and the element a read delivers. -/
structure ListResult (e : Nat) where
  res : Int
  out : Option (Element e)

/-- The element a read delivers; a failed read delivers zeros. -/
def readResult {e : Nat} : Option (Element e) → ListResult e
  | some found => ⟨0, some found⟩
  | none => ⟨-einvarg, some fun _ => 0⟩

/-- The operations on the list. -/
def listStep {e : Nat} (l : List (Element e)) : VectorOp → ListResult e × List (Element e)
  | .push elem => (⟨l.length, none⟩, l ++ [element e elem 0])
  | .pop => if l = [] then (⟨-eio, none⟩, l) else (⟨0, none⟩, l.dropLast)
  | .overwrite index elem =>
    if 0 ≤ index.toInt ∧ index.toInt < l.length then
      (⟨0, none⟩, l.set index.toInt.toNat (element e elem 0))
    else (⟨-einvarg, none⟩, l)
  | .readAt index _ => (readResult l[index]?, l)
  | .back _ => (readResult l.getLast?, l)
  | .popElement memVal =>
    if element e memVal 0 ∈ l then (⟨0, none⟩, l.erase (element e memVal 0)) else (⟨-eio, none⟩, l)
  | .count => (⟨l.length, none⟩, l)

/-- The vector stands for the list, and its block is as long as it says. -/
structure Represents {e : Nat} (reserve : Nat) (vec : VectorState) (l : List (Element e)) : Prop where
  eSize : vec.eSize = e
  reserved : vec.tReservedElements = reserve
  count : vec.tElems = l.length
  elements : ∀ i (inside : i < l.length), element e vec.memory.bytes (e * i) = l[i]
  room : e * l.length ≤ e * vec.tmElems
  allocated : vec.memory.size = e * vec.tmElems
  small : e * vec.tmElems < 2 ^ 63
  few : l.length ≤ 2 ^ 31

/-- The call returns what the list operation returns, and what it writes lies in the block. -/
structure Agrees {e : Nat} (output : VectorOutput) (vec : VectorState) (result : ListResult e) : Prop where
  res : output.res = result.res
  out : ∀ x, result.out = some x → ∃ bytes, output.dataOut = some bytes ∧ element e bytes 0 = x
  inside : ∀ span, output.written = some span →
    span.offset + span.length ≤ vec.tmElems * vec.eSize ∧ vec.tmElems * vec.eSize ≤ vec.memory.size

/-- The sizes of a call fit the types of the code: the index that `vector_push` returns is an `int`,
the block is not longer than an offset can say, and the bytes that `vector_pop_element` moves are
counted by an `int`. -/
def SizesFit {e : Nat} (reserve : Nat) (l : List (Element e)) : VectorOp → Prop
  | .push _ => l.length < 2 ^ 31 ∧ (reserve + l.length + 1) * e < 2 ^ 63
  | .popElement memVal => (l.length - 1 - l.idxOf (element e memVal 0)) * e < 2 ^ 31
  | _ => True

instance {e : Nat} (reserve : Nat) (l : List (Element e)) (op : VectorOp) :
    Decidable (SizesFit reserve l op) :=
  match op with
  | .push _ => inferInstanceAs (Decidable (_ ∧ _))
  | .popElement _ => inferInstanceAs (Decidable (_ < _))
  | .pop | .overwrite _ _ | .readAt _ _ | .back _ | .count => inferInstanceAs (Decidable True)

/-- `krealloc` makes a block longer and keeps its contents. -/
def KeepsContents (krealloc : Block → Nat → Option Block) : Prop :=
  ∀ block size, block.size ≤ size → ∃ block', krealloc block size = some block' ∧
    block'.size = size ∧ ∀ i < block.size, block'.bytes i = block.bytes i

/-! ## The memory functions -/

theorem copyLoop_apply (len : Nat) (dest : Bytes) (d : Nat) (src : Bytes) (s i : Nat) :
    copyLoop len dest d src s i = if d ≤ i ∧ i < d + len then src (s + (i - d)) else dest i := by
  induction len generalizing dest d s with
  | zero => rw [copyLoop, if_neg (by omega)]
  | succ len ih =>
    rw [copyLoop, ih]
    by_cases here : i = d
    · subst here
      rw [if_neg (by omega), if_pos (by omega), Function.update_self, Nat.sub_self, Nat.add_zero]
    · rw [Function.update_of_ne here]
      by_cases later : d + 1 ≤ i ∧ i < d + 1 + len
      · rw [if_pos later, if_pos (by omega)]
        congr 1
        omega
      · rw [if_neg later, if_neg (by omega)]

/-- A forward copy to the left reads every byte before it is overwritten. -/
theorem moveLoop_apply (len : Nat) (bytes : Bytes) (d s i : Nat) (left : d ≤ s) :
    moveLoop len bytes d s i = if d ≤ i ∧ i < d + len then bytes (s + (i - d)) else bytes i := by
  induction len generalizing bytes d s with
  | zero => rw [moveLoop, if_neg (by omega)]
  | succ len ih =>
    rw [moveLoop, ih _ _ _ (by omega)]
    by_cases here : i = d
    · subst here
      rw [if_neg (by omega), if_pos (by omega), Function.update_self, Nat.sub_self, Nat.add_zero]
    · by_cases later : d + 1 ≤ i ∧ i < d + 1 + len
      · rw [if_pos later, if_pos (by omega), Function.update_of_ne (by omega)]
        congr 1
        omega
      · rw [if_neg later, if_neg (by omega), Function.update_of_ne here]

theorem memcpyLength_eq {len : Nat} (small : len < 2 ^ 31) : memcpyLength len = some len := by
  have same : len % 2 ^ 32 = len := Nat.mod_eq_of_lt (by omega)
  rw [memcpyLength, same, if_pos small]

theorem memcmpLoop_eq_zero (c1 c2 : Bytes) (count i : Nat) :
    memcmpLoop c1 c2 count i = 0 ↔ ∀ k < count, c1 (i + k) = c2 (i + k) := by
  induction count generalizing i with
  | zero => simp [memcmpLoop]
  | succ count ih =>
    rw [memcmpLoop]
    by_cases same : c1 i = c2 i
    · rw [if_neg (not_not.mpr same), ih]
      constructor
      · intro rest k small
        rcases k with _ | k
        · exact same
        · have := rest k (by omega)
          rwa [Nat.add_right_comm] at this
      · intro all k small
        have := all (k + 1) (by omega)
        rwa [← Nat.add_assoc, Nat.add_right_comm] at this
    · rw [if_pos same]
      constructor
      · intro zero
        split_ifs at zero
        exact absurd zero (by decide)
      · intro all
        exact absurd (all 0 (by omega)) same

theorem memcmp_eq_zero {e : Nat} (small : e < 2 ^ 31) (s1 s2 : Bytes) :
    memcmp s1 s2 e = 0 ↔ element e s1 0 = element e s2 0 := by
  have same : e % 2 ^ 32 = e := Nat.mod_eq_of_lt (by omega)
  rw [memcmp, same, if_pos small, memcmpLoop_eq_zero, funext_iff]
  exact ⟨fun all k => all k k.isLt, fun all k inside => all ⟨k, inside⟩⟩

/-! ## Offsets -/

/-- Different elements share no byte. -/
theorem slot_unique {e i j k : Nat} (byte : k < e) (lower : e * i ≤ e * j + k)
    (upper : e * j + k < e * i + e) : i = j := by
  have below : e * i < e * (j + 1) := by rw [Nat.mul_succ]; omega
  have above : e * j < e * (i + 1) := by rw [Nat.mul_succ]; omega
  have := Nat.lt_of_mul_lt_mul_left below
  have := Nat.lt_of_mul_lt_mul_left above
  omega

theorem slot_end {e i n : Nat} (inside : i < n) : e * i + e ≤ e * n := by
  rw [← Nat.mul_succ]
  exact Nat.mul_le_mul_left e inside

section Calls

variable {e reserve : Nat} {vec : VectorState} {l : List (Element e)}
variable {krealloc : Block → Nat → Option Block} {kzalloc : Nat → Bool}

namespace Represents

theorem offset_eq (represents : Represents reserve vec l) {index : Nat}
    (inRoom : e * index ≤ e * vec.tmElems) : vectorOffset vec index = e * index := by
  rw [vectorOffset, represents.eSize]
  apply Nat.mod_eq_of_lt
  have := represents.small
  unfold addressSpace
  omega

theorem bounds_eq (represents : Represents reserve vec l) (index : Nat) :
    vectorValidBounds vec index = if index < l.length then 0 else -einvarg := by
  rw [vectorValidBounds, represents.count]

/-- A `memcpy` of an element into a slot of the block. -/
theorem write_eq (represents : Represents reserve vec l) (lengthFits : e < 2 ^ 31) {index : Nat}
    (elem : Bytes) (inRoom : e * index + e ≤ e * vec.tmElems) :
    vectorWrite vec index elem = some (⟨e * index, e⟩,
      { vec.memory with bytes := copyLoop e vec.memory.bytes (e * index) elem 0 }) := by
  rw [vectorWrite, represents.eSize, memcpyLength_eq lengthFits,
    represents.offset_eq (Nat.le_trans (Nat.le_add_right _ _) inRoom)]
  rfl

end Represents

theorem element_copyLoop_same (bytes : Bytes) (offset : Nat) (elem : Bytes) :
    element e (copyLoop e bytes offset elem 0) offset = element e elem 0 := by
  funext k
  have inside : offset ≤ offset + k.val ∧ offset + k.val < offset + e := ⟨by omega, by omega⟩
  rw [element, copyLoop_apply, if_pos inside, element, Nat.add_sub_cancel_left]

theorem element_copyLoop_other (bytes : Bytes) (elem : Bytes) {index i : Nat} (other : i ≠ index) :
    element e (copyLoop e bytes (e * index) elem 0) (e * i) = element e bytes (e * i) := by
  funext k
  rw [element, copyLoop_apply, if_neg, element]
  rintro ⟨lower, upper⟩
  exact other (slot_unique k.isLt lower upper).symm

/-! ## The calls -/

/-- What `vector_push` starts from once there is room for one more element. -/
theorem resize_represents (keeps : KeepsContents krealloc) (represents : Represents reserve vec l)
    (few : l.length < 2 ^ 31) (fits : (reserve + l.length + 1) * e < 2 ^ 63) :
    ∃ vec', vectorResize krealloc vec 1 = (0, vec') ∧ Represents reserve vec' l ∧
      e * (l.length + 1) ≤ e * vec'.tmElems := by
  have required : (vec.tElems + 1) % addressSpace = l.length + 1 := by
    rw [represents.count]
    exact Nat.mod_eq_of_lt (by unfold addressSpace; omega)
  unfold vectorResize
  simp only [required]
  by_cases enough : vec.tmElems > l.length + 1
  · rw [if_pos enough]
    exact ⟨vec, rfl, represents, Nat.mul_le_mul_left e enough.le⟩
  · rw [if_neg enough, represents.eSize, represents.reserved]
    set finalTotal := (reserve + (l.length + 1)) % addressSpace with finalDef
    -- without bytes the count may wrap, and nothing depends on it
    have finalBytes : e * finalTotal = e * (reserve + (l.length + 1)) := by
      rcases Nat.eq_zero_or_pos e with rfl | positive
      · simp
      · have bound : reserve + l.length + 1 ≤ (reserve + l.length + 1) * e :=
          Nat.le_mul_of_pos_right _ positive
        rw [finalDef, Nat.mod_eq_of_lt]
        unfold addressSpace
        omega
    have finalFits : e * finalTotal < 2 ^ 63 := by
      rw [finalBytes, Nat.mul_comm, ← Nat.add_assoc]
      exact fits
    have bytes : finalTotal * e % addressSpace = e * finalTotal := by
      rw [Nat.mul_comm]
      exact Nat.mod_eq_of_lt (by unfold addressSpace; omega)
    have longer : vec.memory.size ≤ e * finalTotal := by
      rw [represents.allocated, finalBytes]
      exact Nat.mul_le_mul_left e (by omega)
    obtain ⟨memory, result, size, kept⟩ := keeps vec.memory (e * finalTotal) longer
    rw [bytes, result]
    refine ⟨_, rfl, ?_, ?_⟩
    · refine ⟨rfl, rfl, represents.count, ?_, ?_, size, finalFits, represents.few⟩
      · intro i inside
        rw [← represents.elements i inside]
        funext k
        refine kept _ ?_
        have := slot_end (e := e) inside
        have := represents.room
        have := represents.allocated
        omega
      · rw [finalBytes]
        exact Nat.mul_le_mul_left e (by omega)
    · simp only
      rw [finalBytes]
      exact Nat.mul_le_mul_left e (by omega)

/-- A call that succeeds or fails as the list operation does, and writes nothing. -/
theorem agrees_quiet (res : Int) (vec : VectorState) :
    Agrees (⟨res, none, none⟩ : VectorOutput) vec (⟨res, none⟩ : ListResult e) where
  res := rfl
  out := by simp
  inside := by simp

/-- A call that writes one slot of the block. -/
theorem Represents.agrees_write (represents : Represents reserve vec l) (res : Int)
    (offset len : Nat) (inRoom : offset + len ≤ e * vec.tmElems) :
    Agrees (⟨res, none, some ⟨offset, len⟩⟩ : VectorOutput) vec (⟨res, none⟩ : ListResult e) where
  res := rfl
  out := by simp
  inside := by
    rintro span ⟨⟩
    rw [represents.eSize, Nat.mul_comm, represents.allocated]
    exact ⟨inRoom, le_rfl⟩

/-- What `vector_push` makes of a block with room for one more element. -/
theorem push_resized {resized : VectorState} (lengthFits : e < 2 ^ 31)
    (result : vectorResize krealloc vec 1 = (0, resized)) (represents : Represents reserve resized l)
    (room : e * (l.length + 1) ≤ e * resized.tmElems) (elem : Bytes) (few : l.length < 2 ^ 31) :
    ∃ output vec', vectorPush krealloc vec elem = some (output, vec') ∧
      Agrees output vec' (⟨l.length, none⟩ : ListResult e) ∧
      Represents reserve vec' (l ++ [element e elem 0]) := by
  have inRoom : e * l.length + e ≤ e * resized.tmElems := by rwa [← Nat.mul_succ]
  have index : asInt (resized.tElems % 2 ^ 32) = l.length := by
    rw [represents.count, Nat.mod_eq_of_lt (by omega), asInt, if_pos few]
  have pushed : Represents reserve
      { resized with
        memory := { resized.memory with
          bytes := copyLoop e resized.memory.bytes (e * l.length) elem 0 }
        tElems := (resized.tElems + 1) % addressSpace } (l ++ [element e elem 0]) := by
    refine ⟨represents.eSize, represents.reserved, ?_, ?_, ?_, represents.allocated, represents.small,
      ?_⟩
    · simp only [List.length_append, List.length_singleton, represents.count]
      exact Nat.mod_eq_of_lt (by unfold addressSpace; omega)
    · intro i inside
      rw [List.length_append, List.length_singleton] at inside
      by_cases last : i = l.length
      · subst last
        rw [List.getElem_concat_length rfl, element_copyLoop_same]
      · rw [List.getElem_append_left (by omega), element_copyLoop_other _ _ last]
        exact represents.elements i (by omega)
    · rwa [List.length_append]
    · rw [List.length_append, List.length_singleton]
      omega
  refine ⟨⟨l.length, none, some ⟨e * l.length, e⟩⟩, _, ?_, pushed.agrees_write _ _ _ inRoom, pushed⟩
  simp only [vectorPush, result, if_neg (by decide : ¬ (0 : Int) < 0), index]
  rw [represents.count, represents.write_eq lengthFits elem inRoom]
  rfl

theorem push_refines (keeps : KeepsContents krealloc) (lengthFits : e < 2 ^ 31)
    (represents : Represents reserve vec l) (elem : Bytes) (few : l.length < 2 ^ 31)
    (fits : (reserve + l.length + 1) * e < 2 ^ 63) :
    ∃ output vec', vectorPush krealloc vec elem = some (output, vec') ∧
      Agrees output vec' (⟨l.length, none⟩ : ListResult e) ∧
      Represents reserve vec' (l ++ [element e elem 0]) := by
  obtain ⟨resized, result, represents, room⟩ := resize_represents keeps represents few fits
  exact push_resized lengthFits result represents room elem few

theorem pop_refines (represents : Represents reserve vec l) :
    (vectorPop vec).1 = (listStep l .pop).1.res ∧
      Represents reserve (vectorPop vec).2 (listStep l .pop).2 := by
  unfold vectorPop listStep
  rw [represents.count]
  by_cases empty : l = []
  · subst empty
    exact ⟨rfl, represents⟩
  · have positive : l.length ≠ 0 := fun zero => empty (List.eq_nil_of_length_eq_zero zero)
    rw [if_neg positive, if_neg empty]
    refine ⟨rfl, represents.eSize, represents.reserved, ?_, ?_, ?_, represents.allocated,
      represents.small, ?_⟩
    · exact List.length_dropLast.symm
    · intro i inside
      rw [List.getElem_dropLast]
      exact represents.elements i (by rw [List.length_dropLast] at inside; omega)
    · refine le_trans (Nat.mul_le_mul_left e ?_) represents.room
      rw [List.length_dropLast]
      omega
    · have := represents.few
      rw [List.length_dropLast]
      omega

theorem overwrite_refines (lengthFits : e < 2 ^ 31) (represents : Represents reserve vec l)
    (index : Int32) (elem : Bytes) :
    ∃ output vec', vectorOverwrite vec index elem vec.eSize = some (output, vec') ∧
      Agrees output vec' (listStep l (.overwrite index elem)).1 ∧
      Represents reserve vec' (listStep l (.overwrite index elem)).2 := by
  have few := represents.few
  have lower := index.le_toInt
  have upper := index.toInt_lt
  simp only [vectorOverwrite, listStep, represents.bounds_eq]
  by_cases inside : 0 ≤ index.toInt ∧ index.toInt < l.length
  · -- the index is not negative, so as a size_t it is itself
    have same : (index.toInt % addressSpace).toNat = index.toInt.toNat := by
      rw [Int.emod_eq_of_lt inside.1]
      unfold addressSpace
      omega
    have inList : index.toInt.toNat < l.length := by omega
    have inRoom : e * index.toInt.toNat + e ≤ e * vec.tmElems :=
      (slot_end inList).trans represents.room
    simp only [same, if_pos inside, if_pos inList, Nat.lt_irrefl, Int.lt_irrefl, if_false,
      represents.write_eq lengthFits elem inRoom]
    have written : Represents reserve
        { vec with memory := { vec.memory with
            bytes := copyLoop e vec.memory.bytes (e * index.toInt.toNat) elem 0 } }
        (l.set index.toInt.toNat (element e elem 0)) := by
      refine ⟨represents.eSize, represents.reserved, ?_, ?_, ?_, represents.allocated,
        represents.small, ?_⟩
      · rw [List.length_set]
        exact represents.count
      · intro i inside
        rw [List.length_set] at inside
        by_cases here : index.toInt.toNat = i
        · subst here
          rw [List.getElem_set_self, element_copyLoop_same]
        · rw [List.getElem_set_ne here, element_copyLoop_other _ _ (Ne.symm here)]
          exact represents.elements i inside
      · rw [List.length_set]
        exact represents.room
      · rwa [List.length_set]
    exact ⟨_, _, rfl, written.agrees_write _ _ _ inRoom, written⟩
  · -- a negative index becomes a size_t beyond every vector
    have outside : ¬ (index.toInt % addressSpace).toNat < l.length := by
      unfold addressSpace
      omega
    simp only [if_neg inside, if_neg outside, if_pos (by decide : -einvarg < 0)]
    exact ⟨_, _, rfl, agrees_quiet _ _, represents⟩

/-- A read of a slot. -/
theorem at_refines (lengthFits : e < 2 ^ 31) (represents : Represents reserve vec l)
    (index : Nat) (dataOut : Bytes) :
    ∃ bytes, vectorAt vec index (some dataOut) vec.eSize =
        some ((readResult l[index]?).res, some bytes) ∧
      (readResult l[index]?).out = some (element e bytes 0) := by
  have status : vectorAtStatus vec index (some dataOut) vec.eSize =
      if index < l.length then 0 else -einvarg := by
    rw [vectorAtStatus, if_neg (Nat.lt_irrefl _), Option.isNone_some, if_neg Bool.false_ne_true,
      represents.bounds_eq]
  unfold vectorAt
  simp only [status]
  by_cases inside : index < l.length
  · have inRoom : e * index ≤ e * vec.tmElems :=
      (Nat.mul_le_mul_left e inside.le).trans represents.room
    rw [List.getElem?_eq_getElem inside, if_pos inside, if_neg (Int.lt_irrefl 0), represents.eSize,
      memcpyLength_eq lengthFits, represents.offset_eq inRoom]
    refine ⟨_, rfl, ?_⟩
    rw [readResult, ← represents.elements index inside]
    refine congrArg some (funext fun k => ?_)
    rw [element, element, copyLoop_apply, if_pos ⟨by omega, by omega⟩]
    congr 1
    omega
  · have missing : l[index]? = none := List.getElem?_eq_none (by omega)
    rw [missing, if_neg inside, if_pos (by decide), represents.eSize, memset, if_pos lengthFits]
    refine ⟨_, rfl, ?_⟩
    refine congrArg some (funext fun k => ?_)
    rw [element, if_pos (by omega)]

theorem back_refines (lengthFits : e < 2 ^ 31) (represents : Represents reserve vec l)
    (dataOut : Bytes) :
    ∃ bytes, vectorBack vec (some dataOut) vec.eSize =
        some ((readResult l.getLast?).res, some bytes) ∧
      (readResult l.getLast?).out = some (element e bytes 0) := by
  have few := represents.few
  have last : l[(vec.tElems + addressSpace - 1) % addressSpace]? = l.getLast? := by
    rw [represents.count, List.getLast?_eq_getElem?]
    by_cases empty : l.length = 0
    · have beyond : l.length ≤ (l.length + addressSpace - 1) % addressSpace := by omega
      rw [List.getElem?_eq_none beyond, List.getElem?_eq_none (by omega)]
    · have index : (l.length + addressSpace - 1) % addressSpace = l.length - 1 := by
        unfold addressSpace
        omega
      rw [index]
  rw [← last]
  exact at_refines lengthFits represents _ dataOut

/-- The search finds the first element with the same bytes. -/
theorem findLoop_spec (lengthFits : e < 2 ^ 31) (represents : Represents reserve vec l)
    (memVal : Bytes) (rest i : Nat) (tmp : Bytes) (reaches : i + rest = l.length) :
    findLoop vec memVal e rest i (some tmp) =
      some (0, ((l.drop i).findIdx? (· == element e memVal 0)).map (· + i)) := by
  induction rest generalizing i tmp with
  | zero =>
    rw [List.drop_eq_nil_of_le (by omega)]
    rfl
  | succ rest ih =>
    have inside : i < l.length := by omega
    obtain ⟨bytes, read, delivered⟩ := at_refines lengthFits represents i tmp
    rw [List.getElem?_eq_getElem inside] at read delivered
    rw [represents.eSize] at read
    have found : element e bytes 0 = l[i] := (Option.some.inj delivered).symm
    rw [findLoop, read, List.drop_eq_getElem_cons inside, List.findIdx?_cons]
    simp only [readResult, Int.lt_irrefl, if_false, Option.getD_some,
      memcmp_eq_zero lengthFits, found]
    by_cases same : l[i] = element e memVal 0
    · simp [same]
    · rw [if_neg same, beq_false_of_ne same, if_neg Bool.false_ne_true,
        ih (i + 1) bytes (by omega), Option.map_map]
      congr 3
      funext k
      simp only [Function.comp_apply]
      omega

theorem element_moveLoop (bytes : Bytes) {index i n : Nat} (inside : i < n - 1) :
    element e (moveLoop ((n - 1 - index) * e) bytes (e * index) (e * index + e)) (e * i) =
      if i < index then element e bytes (e * i) else element e bytes (e * (i + 1)) := by
  funext k
  rw [element, moveLoop_apply _ _ _ _ _ (Nat.le_add_right _ _)]
  by_cases before : i < index
  · have ending := slot_end (e := e) before
    have outside : ¬ (e * index ≤ e * i + k.val ∧ e * i + k.val < e * index + (n - 1 - index) * e) := by
      omega
    rw [if_neg outside, if_pos before, element]
  · have ending := slot_end (e := e) (show i - index < n - 1 - index by omega)
    have split : e * i = e * index + e * (i - index) := by
      rw [← Nat.mul_add, Nat.add_sub_cancel' (by omega)]
    rw [Nat.mul_comm e (n - 1 - index)] at ending
    rw [if_pos ⟨by omega, by omega⟩, if_neg before, element, Nat.mul_succ]
    congr 1
    omega

/-- The bytes behind the removed element move one slot to the left. -/
theorem shift_refines (represents : Represents reserve vec l) {index : Nat}
    (notLast : index + 1 < l.length) (moved : (l.length - 1 - index) * e < 2 ^ 31) :
    ∃ output vec', vectorShift vec index e = some (output, vec') ∧
      Agrees output vec' (⟨0, none⟩ : ListResult e) ∧ Represents reserve vec' (l.eraseIdx index) := by
  have room := represents.room
  have small := represents.small
  have few := represents.few
  have lastSlot : e * index + e + (l.length - 1 - index) * e ≤ e * l.length := by
    rw [Nat.mul_comm _ e, ← Nat.mul_succ, ← Nat.mul_add]
    exact Nat.mul_le_mul_left e (by omega)
  have start : index * e % addressSpace = e * index := by
    rw [Nat.mul_comm]
    exact Nat.mod_eq_of_lt (by unfold addressSpace; omega)
  have next : (e * index + e) % addressSpace = e * index + e :=
    Nat.mod_eq_of_lt (by unfold addressSpace; omega)
  have bytes : (vec.tElems - index - 1) * e % addressSpace = (l.length - 1 - index) * e := by
    rw [represents.count, Nat.sub_right_comm]
    exact Nat.mod_eq_of_lt (by unfold addressSpace; omega)
  have length : (l.eraseIdx index).length = l.length - 1 := List.length_eraseIdx_of_lt (by omega)
  have shifted : Represents reserve
      { vec with
        memory := { vec.memory with
          bytes := moveLoop ((l.length - 1 - index) * e) vec.memory.bytes (e * index) (e * index + e) }
        tElems := vec.tElems - 1 } (l.eraseIdx index) := by
    refine ⟨represents.eSize, represents.reserved, ?_, ?_, ?_, represents.allocated, small, ?_⟩
    · rw [length, ← represents.count]
    · intro i inside
      rw [length] at inside
      refine (element_moveLoop _ (by omega)).trans ?_
      -- memcpy runs upwards over an overlapping region, which moves each element down
      by_cases before : i < index
      · rw [if_pos before, List.getElem_eraseIdx_of_lt _ before]
        exact represents.elements i (by omega)
      · rw [if_neg before, List.getElem_eraseIdx_of_ge _ (by omega)]
        exact represents.elements (i + 1) (by omega)
    · refine le_trans (Nat.mul_le_mul_left e ?_) room
      omega
    · omega
  have inRoom : e * index + (l.length - 1 - index) * e ≤ e * vec.tmElems := by omega
  refine ⟨_, _, ?_, shifted.agrees_write 0 _ _ inRoom, shifted⟩
  simp only [vectorShift, start, next, bytes, memcpyLength_eq moved]
  rfl

theorem popElement_refines (lengthFits : e < 2 ^ 31) (buffer : kzalloc e = true)
    (represents : Represents reserve vec l) (memVal : Bytes)
    (moved : (l.length - 1 - l.idxOf (element e memVal 0)) * e < 2 ^ 31) :
    ∃ output vec', vectorPopElement kzalloc vec memVal vec.eSize = some (output, vec') ∧
      Agrees output vec' (listStep l (.popElement memVal)).1 ∧
      Represents reserve vec' (listStep l (.popElement memVal)).2 := by
  have search := findLoop_spec lengthFits represents memVal l.length 0 (fun _ => 0) (by omega)
  rw [List.drop_zero] at search
  simp only [vectorPopElement, represents.eSize, ne_eq, not_true_eq_false, if_false, buffer,
    Bool.not_true, Bool.false_eq_true, vectorCount, represents.count, search, listStep, Int.lt_irrefl]
  cases found : l.findIdx? (· == element e memVal 0) with
  | none =>
    have absent : element e memVal 0 ∉ l := fun member => by
      have := List.findIdx?_eq_none_iff.mp found _ member
      simp at this
    rw [if_neg absent]
    exact ⟨_, _, rfl, agrees_quiet _ _, represents⟩
  | some index =>
    obtain ⟨inside, first⟩ := List.findIdx?_eq_some_iff_findIdx_eq.mp found
    have idxOf : l.idxOf (element e memVal 0) = index := first
    have present : element e memVal 0 ∈ l := by
      rw [← List.idxOf_lt_length_iff, idxOf]
      exact inside
    rw [idxOf] at moved
    rw [if_pos present, List.erase_eq_eraseIdx_of_idxOf idxOf]
    simp only [Option.map_some, Nat.add_zero]
    by_cases last : index = l.length - 1
    · obtain ⟨res, popped⟩ := pop_refines represents
      have nonempty : l ≠ [] := List.ne_nil_of_mem present
      simp only [listStep, if_neg nonempty] at res popped
      rw [if_pos last, List.eraseIdx_eq_dropLast (by omega)]
      refine ⟨_, _, rfl, ?_, popped⟩
      rw [res]
      exact agrees_quiet _ _
    · rw [if_neg last]
      exact shift_refines represents (by omega) moved

/-! ## Sequences of calls -/

/-- A call, with the vector it leaves as part of the result. -/
def vectorCall (krealloc : Block → Nat → Option Block) (kzalloc : Nat → Bool) (vec : VectorState)
    (op : VectorOp) : Option ((VectorOutput × VectorState) × VectorState) :=
  (vectorStep krealloc kzalloc vec op).map fun (output, vec) => ((output, vec), vec)

theorem step_refines (keeps : KeepsContents krealloc) (buffer : kzalloc e = true)
    (lengthFits : e < 2 ^ 31) (represents : Represents reserve vec l) (op : VectorOp)
    (fits : SizesFit reserve l op) :
    ∃ output vec', vectorStep krealloc kzalloc vec op = some (output, vec') ∧
      Agrees output vec' (listStep l op).1 ∧ Represents reserve vec' (listStep l op).2 := by
  have read : ∀ {status : Int} {bytes : Bytes} {found : Option (Element e)},
      status = (readResult found).res → (readResult found).out = some (element e bytes 0) →
      Agrees ⟨status, some bytes, none⟩ vec (readResult found) := by
    intro status bytes found res delivered
    refine ⟨res, fun x returned => ⟨bytes, rfl, ?_⟩, by simp⟩
    exact Option.some.inj (delivered.symm.trans returned)
  cases op with
  | push elem => exact push_refines keeps lengthFits represents elem fits.1 fits.2
  | pop =>
    obtain ⟨res, popped⟩ := pop_refines represents
    refine ⟨_, _, rfl, ?_, popped⟩
    rw [res, listStep]
    split <;> exact agrees_quiet _ _
  | overwrite index elem => exact overwrite_refines lengthFits represents index elem
  | readAt index dataOut =>
    obtain ⟨bytes, result, delivered⟩ := at_refines lengthFits represents index dataOut
    refine ⟨⟨_, some bytes, none⟩, vec, ?_, read rfl delivered, represents⟩
    rw [vectorStep, result]
    rfl
  | back dataOut =>
    obtain ⟨bytes, result, delivered⟩ := back_refines lengthFits represents dataOut
    refine ⟨⟨_, some bytes, none⟩, vec, ?_, read rfl delivered, represents⟩
    rw [vectorStep, result]
    rfl
  | popElement memVal => exact popElement_refines lengthFits buffer represents memVal fits
  | count =>
    refine ⟨_, _, rfl, ?_, represents⟩
    rw [vectorCount, represents.count]
    exact agrees_quiet _ _

end Calls

theorem vectorNew_represents (e reserve : Nat) (nowhere : Bytes) :
    Represents reserve (vectorNew nowhere e reserve) ([] : List (Element e)) where
  eSize := rfl
  reserved := rfl
  count := rfl
  elements := by simp
  room := Nat.le_refl _
  allocated := (Nat.mul_zero e).symm
  small := by simp [vectorNew]
  few := Nat.zero_le _

/-- Every sequence of calls on a new vector, with sizes that fit, behaves as on a list. -/
theorem vector_refines_list (e reserve : Nat) (nowhere : Bytes)
    (krealloc : Block → Nat → Option Block) (kzalloc : Nat → Bool) (ops : List VectorOp)
    (keeps : KeepsContents krealloc) (buffer : kzalloc e = true) (lengthFits : e < 2 ^ 31)
    (fits : EveryAllowed listStep (SizesFit reserve) ([] : List (Element e)) ops) :
    ∃ results vec, runOps (vectorCall krealloc kzalloc) (vectorNew nowhere e reserve) ops =
        some (results, vec) ∧
      List.Forall₂ (fun result expected => Agrees result.1 result.2 expected) results
        (specOps listStep ([] : List (Element e)) ops).1 ∧
      Represents reserve vec (specOps listStep ([] : List (Element e)) ops).2 := by
  refine runOps_refines ?_ ops (vectorNew_represents e reserve nowhere) fits
  intro vec l op represents allowed
  obtain ⟨output, vec', stepped, agrees, represents'⟩ :=
    step_refines keeps buffer lengthFits represents op allowed
  exact ⟨(output, vec'), vec', by rw [vectorCall, stepped]; rfl, agrees, represents'⟩

/-- A `krealloc` that makes the block longer where it is. -/
def extendInPlace (block : Block) (size : Nat) : Option Block := some ⟨block.bytes, size⟩

theorem extendInPlace_keeps : KeepsContents extendInPlace :=
  fun block size _ => ⟨⟨block.bytes, size⟩, rfl, rfl, fun _ _ => rfl⟩

/-- Two equal elements around another one: the first is removed. -/
def popFirst : List VectorOp :=
  [.push fun _ => 7, .push fun i => if i = 0 then 1 else 2, .push fun _ => 7,
    .popElement fun _ => 7, .readAt 0 fun _ => 0, .back fun _ => 0, .overwrite 5 fun _ => 0]

theorem popFirst_refines :
    ∃ results vec, runOps (vectorCall extendInPlace fun _ => true) (vectorNew (fun _ => 0) 2 0)
        popFirst = some (results, vec) ∧
      List.Forall₂ (fun result expected => Agrees result.1 result.2 expected) results
        (specOps listStep ([] : List (Element 2)) popFirst).1 ∧
      Represents 0 vec (specOps listStep ([] : List (Element 2)) popFirst).2 :=
  vector_refines_list 2 0 (fun _ => 0) extendInPlace (fun _ => true) popFirst extendInPlace_keeps rfl
    (by decide) ⟨by decide, by decide, by decide, by decide, trivial, trivial, trivial, trivial⟩

/-- `memcpy` cuts the length of an element of `2 ^ 32` bytes to zero, so nothing is stored. -/
theorem hugeElement_lost :
    KeepsContents extendInPlace ∧
    ¬ ∃ results vec, runOps (vectorCall extendInPlace fun _ => true)
        (vectorNew (fun _ => 0) (2 ^ 32) 1) [.push fun _ => 1, .readAt 0 fun _ => 0] =
          some (results, vec) ∧
      List.Forall₂ (fun result expected => Agrees result.1 result.2 expected) results
        (specOps listStep ([] : List (Element (2 ^ 32)))
          [.push fun _ => 1, .readAt 0 fun _ => 0]).1 := by
  refine ⟨extendInPlace_keeps, ?_⟩
  rintro ⟨results, vec, ran, agrees⟩
  have result : ∃ first second vec', runOps (vectorCall extendInPlace fun _ => true)
      (vectorNew (fun _ => 0) (2 ^ 32) 1) [.push fun _ => 1, .readAt 0 fun _ => 0] =
        some ([first, (⟨0, some fun _ => 0, none⟩, second)], vec') := ⟨_, _, _, rfl⟩
  obtain ⟨first, second, vec', expected⟩ := result
  obtain ⟨rfl, -⟩ := Prod.mk.inj (Option.some.inj (ran.symm.trans expected))
  cases agrees with
  | cons pushed rest =>
    cases rest with
    | cons read =>
      obtain ⟨bytes, out, delivered⟩ := read.out _ rfl
      obtain rfl := Option.some.inj out
      exact absurd (congrFun delivered 0) (by decide)

end ViOS.Memory
