import Mathlib.Data.UInt
import Mathlib.Logic.Function.Basic

/-! # Bit arrays

Bits in an array of bytes, the lowest bit of a byte first.

* `bitAt`, `setBit` — a bit is read, and set.
* `bitAt_foldl_setBit` — the bits after a loop that sets some of them.
-/

namespace ViOS.Lib

def bitMask (bit : Nat) : UInt8 := 1 <<< UInt8.ofNat bit

def bitAt (bytes : Nat → UInt8) (byte bit : Nat) : Bool := bytes byte >>> UInt8.ofNat bit &&& 1 ≠ 0

def setBit (bytes : Nat → UInt8) (byte bit : Nat) : Nat → UInt8 :=
  Function.update bytes byte (bytes byte ||| bitMask bit)

theorem shiftRight_and_one (value : UInt8) {bit : Nat} (small : bit < 8) :
    decide (value >>> UInt8.ofNat bit &&& 1 ≠ 0) = value.toNat.testBit bit := by
  have all : ∀ (n : Fin 256) (i : Fin 8), decide (UInt8.ofFin n >>> UInt8.ofNat i &&& 1 ≠ 0) =
      (UInt8.ofFin n).toNat.testBit i := by decide +kernel
  exact all value.toFin ⟨bit, small⟩

theorem bitMask_testBit {bit other : Nat} (small : bit < 8) (small' : other < 8) :
    (bitMask bit).toNat.testBit other = decide (bit = other) := by
  have all : ∀ i j : Fin 8, (bitMask i).toNat.testBit j = decide (i.val = j.val) := by decide
  exact all ⟨bit, small⟩ ⟨other, small'⟩

theorem bitAt_setBit (bytes : Nat → UInt8) {byte bit byte' bit' : Nat} (small : bit < 8) (small' : bit' < 8) :
    bitAt (setBit bytes byte bit) byte' bit' = (bitAt bytes byte' bit' || decide (byte = byte' ∧ bit = bit')) := by
  unfold bitAt setBit
  rw [shiftRight_and_one _ small', shiftRight_and_one _ small']
  by_cases same : byte = byte'
  · subst same
    rw [Function.update_self, UInt8.toNat_or, Nat.testBit_or, bitMask_testBit small small']
    simp
  · rw [Function.update_of_ne (Ne.symm same)]
    simp [same]

/-- A bit is set after the loop when it was before, or when a round has set it. -/
theorem bitAt_foldl_setBit {Key : Type} {sets : Key → Bool} {place : Key → Nat × Nat} {keys : List Key}
    (small : ∀ key ∈ keys, (place key).2 < 8) (bytes : Nat → UInt8) {byte bit : Nat} (inByte : bit < 8) :
    bitAt (keys.foldl (fun bytes key => if sets key then setBit bytes (place key).1 (place key).2 else bytes) bytes)
        byte bit =
      (bitAt bytes byte bit || keys.any fun key => sets key && decide (place key = (byte, bit))) := by
  induction keys generalizing bytes with
  | nil => simp
  | cons key rest ih =>
    rw [List.foldl_cons, ih fun other inRest => small other (List.mem_cons_of_mem _ inRest), List.any_cons]
    cases sets key with
    | false => rw [if_neg Bool.false_ne_true, Bool.false_and, Bool.false_or]
    | true =>
      rw [if_pos rfl, bitAt_setBit bytes (small key List.mem_cons_self) inByte, Bool.true_and, Bool.or_assoc]
      congr 3
      rw [Prod.ext_iff]

end ViOS.Lib
