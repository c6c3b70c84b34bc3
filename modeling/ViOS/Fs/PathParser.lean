import ViOS.Config
import Mathlib.Data.List.Basic

/-! # The path parser

`pathparser_parse` turns a string such as `0:/dir/file.txt` into a drive number
and a list of components.  A C string is the list of its bytes before the
terminating NUL; which calls of `kzalloc` find memory is a parameter.
-/

namespace ViOS.Fs

/-- The bytes of a C string, without its terminator. -/
abbrev CStr := List UInt8

def charSlash : UInt8 := 0x2F
def charColon : UInt8 := 0x3A
def charAt : UInt8 := 0x40
def charDot : UInt8 := 0x2E
def charSpace : UInt8 := 0x20

/-- `isdigit`. -/
def isDigit (c : UInt8) : Bool := 48 ≤ c ∧ c ≤ 57

/-- `tonumericdigit`, on the digits it is used for. -/
def toNumericDigit (c : UInt8) : Nat := c.toNat - 48

/-- `struct path_root` with the `path_part` list it heads. -/
structure PathRoot where
  driveNo : Nat
  parts : List CStr
  deriving DecidableEq, Repr

/-- `pathparser_path_valid_format`. -/
def pathparserPathValidFormat (filename : CStr) : Bool :=
  match filename with
  | d :: c :: s :: _ => (isDigit d || d == charAt) && c == charColon && s == charSlash
  | _ => false

/-- `pathparser_get_drive_by_path`: the drive number, and the path behind the drive.
`primaryFsDisk` is the id of the disk `disk_primary_fs_disk` returns. -/
def pathparserGetDriveByPath (primaryFsDisk : Option Nat) (path : CStr) : Except Int (Nat × CStr) :=
  if !pathparserPathValidFormat path then .error (-ebadpath)
  else
    match path with
    | [] => .error (-ebadpath)
    | d :: _ =>
      if d == charAt then
        match primaryFsDisk with
        | none => .error (-eio)
        | some id => .ok (id, path.drop 3)
      else .ok (toNumericDigit d, path.drop 3)

/-- `pathparser_get_path_part`: the next component (empty when there is none) and the
rest of the path behind its slash. -/
def pathparserGetPathPart : CStr → CStr × CStr
  | [] => ([], [])
  | c :: rest =>
    if c == charSlash then ([], rest)
    else
      let (part, rest) := pathparserGetPathPart rest
      (c :: part, rest)

/-- `pathparser_parse_path_part`: the component and the rest of the path, or `none` for `NULL`.  The
calls of `kzalloc` are numbered, and `memory` says which of them find memory; the string is call
`n`, the `struct path_part` the one behind it. -/
def pathparserParsePathPart (memory : Nat → Bool) (n : Nat) (path : CStr) : Option (CStr × CStr) :=
  if memory n then
    match pathparserGetPathPart path with
    | ([], _) => none
    | (part, rest) => if memory (n + 1) then some (part, rest) else none
  else none

/-- The loop of `pathparser_parse`, from call `n` of `kzalloc` on.  It stops at the first `NULL`,
which stands for an empty component and for missing memory alike. -/
def pathparserParts (memory : Nat → Bool) : (fuel n : Nat) → CStr → List CStr
  | 0, _, _ => []
  | fuel + 1, n, path =>
    match pathparserParsePathPart memory n path with
    | none => []
    | some (part, rest) => part :: pathparserParts memory fuel (n + 2) rest

/-- `pathparser_parse`.  The first call of `kzalloc` is for the root.  Every component takes at
least one byte of the path, so its length bounds the number of turns of the loop. -/
def pathparserParse (memory : Nat → Bool) (primaryFsDisk : Option Nat) (path : CStr) :
    Option PathRoot :=
  if viosMaxPath < path.length then none
  else
    match pathparserGetDriveByPath primaryFsDisk path with
    | .error _ => none
    | .ok (driveNo, rest) =>
      if memory 0 then
        match pathparserParts memory path.length 1 rest with
        | [] => none
        | parts => some ⟨driveNo, parts⟩
      else none

/-- Every `kzalloc` finds memory. -/
def allServed (_ : Nat) : Bool := true

end ViOS.Fs
