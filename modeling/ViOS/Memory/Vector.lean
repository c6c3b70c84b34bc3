import ViOS.Config
import Mathlib.Logic.Function.Basic
import Mathlib.Tactic.Basic

/-! # The vector

`vector.c` keeps elements of one size in a block that only grows.  The number of
elements, the number the block has room for and the byte offsets are computed
separately, with `memcpy` and `memcmp`, whose lengths are of type `int`.

The bytes from a pointer on are a function.  `krealloc` and `kzalloc` are parameters:
the first may move the block, the second only provides the buffer that
`vector_pop_element` compares with.

* `copyLoop`, `moveLoop`, `memset`, `memcmp` — the memory functions.
* `vectorPush`, `vectorPop`, `vectorOverwrite`, `vectorAt`, `vectorBack`,
  `vectorPopElement` — the code.
* `vectorStep` — the calls as operations on one vector.
-/

namespace ViOS.Memory

/-! ## The memory functions -/

/-- The bytes from a pointer on. -/
abbrev Bytes := Nat → UInt8

/-- The length `memcpy` works with: its parameter is an `int`, and a negative one never counts down
to zero. -/
def memcpyLength (len : Nat) : Option Nat :=
  if len % 2 ^ 32 < 2 ^ 31 then some (len % 2 ^ 32) else none

/-- The loop of `memcpy` between two objects. -/
def copyLoop : (len : Nat) → (dest : Bytes) → (d : Nat) → (src : Bytes) → (s : Nat) → Bytes
  | 0, dest, _, _, _ => dest
  | len + 1, dest, d, src, s => copyLoop len (Function.update dest d (src s)) (d + 1) src (s + 1)

/-- The loop of `memcpy` inside one object. -/
def moveLoop : (len : Nat) → (bytes : Bytes) → (d s : Nat) → Bytes
  | 0, bytes, _, _ => bytes
  | len + 1, bytes, d, s => moveLoop len (Function.update bytes d (bytes s)) (d + 1) (s + 1)

/-- `memset`, whose counter is an `int`. -/
def memset (bytes : Bytes) (c : UInt8) (size : Nat) : Option Bytes :=
  if size < 2 ^ 31 then some fun i => if i < size then c else bytes i else none

/-- The loop of `memcmp`. -/
def memcmpLoop (c1 c2 : Bytes) : (count i : Nat) → Int
  | 0, _ => 0
  | count + 1, i =>
    if c1 i ≠ c2 i then if (c1 i).toInt8 < (c2 i).toInt8 then -1 else 1
    else memcmpLoop c1 c2 count (i + 1)

/-- `memcmp`: a negative `int` compares nothing. -/
def memcmp (s1 s2 : Bytes) (count : Nat) : Int :=
  memcmpLoop s1 s2 (if count % 2 ^ 32 < 2 ^ 31 then count % 2 ^ 32 else 0) 0

/-! ## The vector -/

/-- An allocated block and its size. -/
structure Block where
  bytes : Bytes
  size : Nat

/-- `struct vector`. -/
structure VectorState where
  memory : Block
  eSize : Nat
  tElems : Nat
  tmElems : Nat
  tReservedElements : Nat

/-- The bytes a `memcpy` into the vector's memory writes. -/
structure Span where
  offset : Nat
  length : Nat

/-- What a call returns: its status, the caller's buffer and the bytes it wrote in the vector. -/
structure VectorOutput where
  res : Int
  dataOut : Option Bytes
  written : Option Span

/-- `vector_new`; `nowhere` is what the null pointer points to. -/
def vectorNew (nowhere : Bytes) (elementSize totalReservedElementsPerResize : Nat) : VectorState where
  memory := ⟨nowhere, 0⟩
  eSize := elementSize
  tElems := 0
  tmElems := 0
  tReservedElements := totalReservedElementsPerResize

/-- `vector_offset`. -/
def vectorOffset (vec : VectorState) (index : Nat) : Nat := vec.eSize * index % addressSpace

/-- `vector_valid_bounds`. -/
def vectorValidBounds (vec : VectorState) (index : Nat) : Int :=
  if index < vec.tElems then 0 else -einvarg

/-- The `memcpy` of an element into the vector's memory. -/
def vectorWrite (vec : VectorState) (index : Nat) (elem : Bytes) : Option (Span × Block) := do
  let len ← memcpyLength vec.eSize
  let offset := vectorOffset vec index
  return (⟨offset, len⟩, { vec.memory with bytes := copyLoop len vec.memory.bytes offset elem 0 })

section Calls

variable (krealloc : Block → Nat → Option Block) (kzalloc : Nat → Bool)

/-- `vector_resize`. -/
def vectorResize (vec : VectorState) (totalNeededElements : Nat) : Int × VectorState :=
  let totalElementsRequired := (vec.tElems + totalNeededElements) % addressSpace
  if vec.tmElems > totalElementsRequired then (0, vec)
  else
    let finalTotal := (vec.tReservedElements + totalElementsRequired) % addressSpace
    match krealloc vec.memory (finalTotal * vec.eSize % addressSpace) with
    | none => (-enomem, { vec with memory := ⟨vec.memory.bytes, 0⟩ })
    | some memory => (0, { vec with memory, tmElems := finalTotal })

/-- `vector_push`. -/
def vectorPush (vec : VectorState) (elem : Bytes) : Option (VectorOutput × VectorState) :=
  let (res, vec) := vectorResize krealloc vec 1
  if res < 0 then some (⟨res, none, none⟩, vec)
  else do
    let (span, memory) ← vectorWrite vec vec.tElems elem
    return (⟨asInt (vec.tElems % 2 ^ 32), none, some span⟩,
      { vec with memory, tElems := (vec.tElems + 1) % addressSpace })

/-- `vector_overwrite`.  The index is an `int` that becomes a `size_t`. -/
def vectorOverwrite (vec : VectorState) (index : Int32) (elem : Bytes) (elemSize : Nat) :
    Option (VectorOutput × VectorState) :=
  let index := (index.toInt % addressSpace).toNat
  let res := vectorValidBounds vec index
  if res < 0 then some (⟨res, none, none⟩, vec)
  else if elemSize < vec.eSize then some (⟨-einvarg, none, none⟩, vec)
  else do
    let (span, memory) ← vectorWrite vec index elem
    return (⟨res, none, some span⟩, { vec with memory })

/-- `vector_pop`. -/
def vectorPop (vec : VectorState) : Int × VectorState :=
  if vec.tElems = 0 then (-eio, vec) else (0, { vec with tElems := vec.tElems - 1 })

/-- The checks of `vector_at`. -/
def vectorAtStatus (vec : VectorState) (index : Nat) (dataOut : Option Bytes) (size : Nat) : Int :=
  if size < vec.eSize then -einvarg
  else if dataOut.isNone then -einvarg
  else vectorValidBounds vec index

/-- `vector_at`: the status and the caller's buffer.  A failed call clears the buffer, also through
the null pointer. -/
def vectorAt (vec : VectorState) (index : Nat) (dataOut : Option Bytes) (size : Nat) :
    Option (Int × Option Bytes) :=
  let res := vectorAtStatus vec index dataOut size
  match dataOut with
  | none => if size = 0 then some (res, none) else none
  | some out =>
    if res < 0 then (memset out 0 size).map fun out => (res, some out)
    else do
      let len ← memcpyLength vec.eSize
      return (res, some (copyLoop len out 0 vec.memory.bytes (vectorOffset vec index)))

/-- `vector_back`. -/
def vectorBack (vec : VectorState) (dataOut : Option Bytes) (size : Nat) :
    Option (Int × Option Bytes) :=
  vectorAt vec ((vec.tElems + addressSpace - 1) % addressSpace) dataOut size

/-- `vector_count`. -/
def vectorCount (vec : VectorState) : Nat := vec.tElems

/-- The search of `vector_pop_element` over `rest` elements from `i` on: the last status and the
index of the match. -/
def findLoop (vec : VectorState) (memVal : Bytes) (size : Nat) :
    (rest i : Nat) → (tmp : Option Bytes) → Option (Int × Option Nat)
  | 0, _, _ => some (0, none)
  | rest + 1, i, tmp =>
    match vectorAt vec i tmp size with
    | none => none
    | some (res, tmp) =>
      if res < 0 then some (res, none)
      else if memcmp (tmp.getD memVal) memVal size = 0 then some (res, some i)
      else findLoop vec memVal size rest (i + 1) tmp

/-- The shift of `vector_pop_element`. -/
def vectorShift (vec : VectorState) (indexToRemove size : Nat) :
    Option (VectorOutput × VectorState) := do
  let elementToDelete := indexToRemove * size % addressSpace
  let nextElement := (elementToDelete + size) % addressSpace
  let totalElementsToCopy := vec.tElems - indexToRemove - 1
  let len ← memcpyLength (totalElementsToCopy * size % addressSpace)
  let bytes := moveLoop len vec.memory.bytes elementToDelete nextElement
  return (⟨0, none, some ⟨elementToDelete, len⟩⟩,
    { vec with memory := { vec.memory with bytes }, tElems := vec.tElems - 1 })

/-- `vector_pop_element`. -/
def vectorPopElement (vec : VectorState) (memVal : Bytes) (size : Nat) :
    Option (VectorOutput × VectorState) :=
  if size ≠ vec.eSize then some (⟨-einvarg, none, none⟩, vec)
  else if !kzalloc size then some (⟨-enomem, none, none⟩, vec)
  else
    match findLoop vec memVal size (vectorCount vec) 0 (some fun _ => 0) with
    | none => none
    | some (res, index) =>
      if res < 0 then some (⟨res, none, none⟩, vec)
      else
        match index with
        | none => some (⟨-eio, none, none⟩, vec)
        | some indexToRemove =>
          if indexToRemove = vectorCount vec - 1 then
            let (res, vec) := vectorPop vec
            some (⟨res, none, none⟩, vec)
          else vectorShift vec indexToRemove size

/-! ## Sequences of calls -/

/-- A call, with elements and buffers of the vector's element size. -/
inductive VectorOp where
  | push (elem : Bytes)
  | pop
  | overwrite (index : Int32) (elem : Bytes)
  | readAt (index : Nat) (dataOut : Bytes)
  | back (dataOut : Bytes)
  | popElement (memVal : Bytes)
  | count

/-- A call on the vector. -/
def vectorStep (vec : VectorState) : VectorOp → Option (VectorOutput × VectorState)
  | .push elem => vectorPush krealloc vec elem
  | .pop => some (⟨(vectorPop vec).1, none, none⟩, (vectorPop vec).2)
  | .overwrite index elem => vectorOverwrite vec index elem vec.eSize
  | .readAt index dataOut =>
    (vectorAt vec index (some dataOut) vec.eSize).map fun (res, out) => (⟨res, out, none⟩, vec)
  | .back dataOut =>
    (vectorBack vec (some dataOut) vec.eSize).map fun (res, out) => (⟨res, out, none⟩, vec)
  | .popElement memVal => vectorPopElement kzalloc vec memVal vec.eSize
  | .count => some (⟨vectorCount vec, none, none⟩, vec)

end Calls

end ViOS.Memory
