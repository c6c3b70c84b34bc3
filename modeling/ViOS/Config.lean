import Mathlib.Algebra.Group.Int.Defs
import Mathlib.Algebra.Group.Nat.Defs
import Mathlib.Data.Nat.Notation

/-! # Build-time constants and status codes

The constants of `config.h`, `status.h` and the section headers that the modelled
functions use, under the source's names.  Addresses and sizes are natural
numbers; a function that computes with fixed-width integers reduces explicitly.
-/

namespace ViOS

/-! ## Status codes (`status.h`) -/

def viosAllOk : Int := 0
def eio : Int := 1
def einvarg : Int := 2
def enomem : Int := 3
def ebadpath : Int := 4
def efsnotus : Int := 5
def erdonly : Int := 6
def eunimp : Int := 7
def eistkn : Int := 8
def einformat : Int := 9
def eoutofrange : Int := 10
def enotfound : Int := 11
def etimeout : Int := 12

/-! ## `config.h` -/

def viosHeapMinimumSizeBytes : Nat := 104857600
def viosHeapBlockSize : Nat := 4096
def viosMinimalHeapAddress : Nat := 0x01100000
def viosMinimalHeapTableAddress : Nat := 0x01000000
def viosSectorSize : Nat := 512
def viosMaxFileDescriptors : Nat := 512
def viosMaxPath : Nat := 108
def viosKeyboardBufferSize : Nat := 1024
def viosProgramVirtualAddress : Nat := 0x400000
def viosUserProgramStackSize : Nat := 1024 * 16
def viosProgramVirtualStackAddressStart : Nat := 0x3FF000
def viosProgramVirtualStackAddressEnd : Nat :=
  viosProgramVirtualStackAddressStart - viosUserProgramStackSize
def userDataSegment : Nat := 0x33
def userCodeSegment : Nat := 0x2B

/-! ## Pointers and the error encoding of `kernel.h` -/

/-- An address; `0` is `NULL`. -/
abbrev Ptr := Nat

/-- `2^64`, the modulus of addresses, `size_t` and `uintptr_t`. -/
def addressSpace : Nat := 2 ^ 64

/-- The value of the low 32 bits read as a signed `int`. -/
def toInt32 (value : Int) : Int := (value + 2 ^ 31) % 2 ^ 32 - 2 ^ 31

/-- The value of a `uint32_t` read as an `int`. -/
def asInt (value : Nat) : Int := if value < 2 ^ 31 then value else value - 2 ^ 32

/-- `ERROR(value)`: a status code carried in a pointer. -/
def errorPtr (value : Int) : Ptr := (value % (2 ^ 64 : Int)).toNat

/-- `ERROR_I(value)`: the status code carried in a pointer. -/
def errorCode (value : Ptr) : Int := toInt32 value

/-- `ISERR(value)`. -/
def isErr (value : Ptr) : Bool := toInt32 value < 0

/-- `ISERR` looks at bit 31. -/
theorem isErr_eq_false_iff (value : Nat) : isErr value = false ↔ value % 2 ^ 32 < 2 ^ 31 := by
  unfold isErr toInt32
  rw [decide_eq_false_iff_not]
  omega

end ViOS
