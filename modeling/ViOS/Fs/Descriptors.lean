import ViOS.Fs.File
import Mathlib.Data.List.Nodup
import Mathlib.Data.List.Range

/-! # Runs of descriptor operations

The slot search, the index encoding and the range check of `file.c` disagree at
the upper end of the table: the search hands out slot 511 as descriptor 512, and
`file_get_descriptor` refuses 512.  This module shows that the disagreement is the
only defect of the table: in a run where no open ends in the last slot, the values
returned by `fopen` and not yet closed are distinct, resolve to what `fopen`
created, can be closed, and account for every slot in use.
-/

namespace ViOS.Fs

open ViOS.Lib

variable {φ : Type}

/-- What `file.c` relies on in a filesystem.  `Opened v p` says that `p` is the private
data of a file that is open in `v`: a successful open returns new private data, closing
open private data succeeds, and no other call ends an opening. -/
structure LawfulFilesystem (fs : Filesystem φ) (Opened : φ → Ptr → Prop) : Prop where
  open_opened : ∀ v drive parts mode p v', fs.openFile v drive parts mode = (some p, v') →
    isErr p = false → Opened v' p ∧ ¬ Opened v p
  open_keeps : ∀ v drive parts mode q, Opened v q → Opened (fs.openFile v drive parts mode).2 q
  read_keeps : ∀ v disk p size nmemb q, Opened v q → Opened (fs.readFile v disk p size nmemb).2.2 q
  write_keeps : ∀ v disk p data size nmemb q, Opened v q →
    Opened (fs.writeFile v disk p data size nmemb).2 q
  seek_keeps : ∀ v p offset whence q, Opened v q → Opened (fs.seekFile v p offset whence).2 q
  close_opened : ∀ v p, Opened v p → (fs.closeFile v p).1 = some viosAllOk
  close_keeps : ∀ v p q, q ≠ p → Opened v q → Opened (fs.closeFile v p).2 q

/-! ## The runs -/

/-- A call of the file interface. -/
inductive FileCall where
  | fopen (memory : Nat → Bool) (filename modeStr : CStr)
  | fread (size nmemb : Nat) (fd : Int)
  | fwrite (data : List UInt8) (size nmemb : Nat) (fd : Int)
  | fstat (fd : Int)
  | fseek (fd offset : Int) (whence : Nat)
  | fclose (fd : Int)

/-- The kernel's state, and the positive values `fopen` returned that were not yet
passed to `fclose`, each with the descriptor `fopen` stored for it. -/
structure FileRunState (φ : Type) where
  st : FileState φ
  handles : List (Int × FileDescriptor)

/-- One call of a run. -/
inductive FileStep (env : FileEnv φ) : FileRunState φ → FileCall → FileRunState φ → Prop
  | opened {s : FileRunState φ} {memory : Nat → Bool} {filename modeStr : CStr} {fd : Int} {desc : FileDescriptor}
      {st' : FileState φ} (returned : fopen env s.st memory filename modeStr = (some fd, st'))
      (positive : 0 < fd) (created : st'.descriptors (fd - 1).toNat = some desc) :
      FileStep env s (.fopen memory filename modeStr) ⟨st', (fd, desc) :: s.handles⟩
  | openFailed {s : FileRunState φ} {memory : Nat → Bool} {filename modeStr : CStr}
      (failed : ∀ fd, (fopen env s.st memory filename modeStr).1 = some fd → fd ≤ 0) :
      FileStep env s (.fopen memory filename modeStr) ⟨(fopen env s.st memory filename modeStr).2, s.handles⟩
  | read {s : FileRunState φ} {size nmemb : Nat} {fd : Int} :
      FileStep env s (.fread size nmemb fd) ⟨(fread env s.st size nmemb fd).2.2, s.handles⟩
  | write {s : FileRunState φ} {data : List UInt8} {size nmemb : Nat} {fd : Int} :
      FileStep env s (.fwrite data size nmemb fd) ⟨(fwrite env s.st data size nmemb fd).2, s.handles⟩
  | stat {s : FileRunState φ} {fd : Int} : FileStep env s (.fstat fd) s
  | seek {s : FileRunState φ} {fd offset : Int} {whence : Nat} :
      FileStep env s (.fseek fd offset whence) ⟨(fseek env s.st fd offset whence).2, s.handles⟩
  | closed {s : FileRunState φ} {fd : Int} :
      FileStep env s (.fclose fd)
        ⟨(fclose env s.st fd).2, s.handles.filter fun handle => handle.1 ≠ fd⟩

/-- The discipline of the descriptor table. -/
structure DescriptorsOk (env : FileEnv φ) (s : FileRunState φ) : Prop where
  distinct : (s.handles.map Prod.fst).Nodup
  resolved : ∀ handle ∈ s.handles, fileGetDescriptor s.st.descriptors handle.1 = some handle.2
  closable : ∀ handle ∈ s.handles, (fclose env s.st handle.1).1 = some viosAllOk ∧
    (fclose env s.st handle.1).2.descriptors (handle.1 - 1).toNat = none
  noneLost : ∀ i < viosMaxFileDescriptors, ∀ desc, s.st.descriptors i = some desc →
    (((i + 1 : Nat) : Int), desc) ∈ s.handles

/-- The filesystem would open the file. -/
def OpenSucceeds (env : FileEnv φ) (st : FileState φ) (memory : Nat → Bool) (filename modeStr : CStr) : Prop :=
  ∃ drive parts mode p, fopenTarget env memory filename modeStr = some (drive, parts, mode) ∧
    (env.fs.openFile st.volumes drive parts mode).1 = some p ∧ isErr p = false

/-- The call does not take the last slot of the table: unless the filesystem's open
fails, one of the first 511 slots is free, or none is. -/
def LeavesLastSlot (env : FileEnv φ) (s : FileRunState φ) : FileCall → Prop
  | .fopen memory filename modeStr => OpenSucceeds env s.st memory filename modeStr →
      (∃ i < viosMaxFileDescriptors - 1, s.st.descriptors i = none) ∨
        s.st.descriptors (viosMaxFileDescriptors - 1) ≠ none
  | _ => True

/-! ## The slot search -/

theorem fileFreeSlot_eq_some {descriptors : Nat → Option FileDescriptor} {i : Nat}
    (found : fileFreeSlot descriptors = some i) :
    i < viosMaxFileDescriptors ∧ descriptors i = none ∧ ∀ j < i, descriptors j ≠ none := by
  obtain ⟨free, inRange, earlier⟩ := List.find?_range_eq_some.mp found
  refine ⟨List.mem_range.mp inRange, by simpa using free, ?_⟩
  intro j below unused
  have taken := earlier j below
  simp [unused] at taken

theorem fileFreeSlot_isSome {descriptors : Nat → Option FileDescriptor} {i : Nat}
    (inRange : i < viosMaxFileDescriptors) (free : descriptors i = none) :
    ∃ j, fileFreeSlot descriptors = some j ∧ j ≤ i := by
  have some : (fileFreeSlot descriptors).isSome := by
    rw [fileFreeSlot, List.find?_isSome]
    exact ⟨i, List.mem_range.mpr inRange, by simp [free]⟩
  obtain ⟨j, found⟩ := Option.isSome_iff_exists.mp some
  refine ⟨j, found, ?_⟩
  by_contra above
  exact (fileFreeSlot_eq_some found).2.2 i (by omega) free

/-! ## What `fopen` can do -/

/-- `fopen` leaves the table alone, or it stores one descriptor in the first free slot. -/
theorem fopen_cases (env : FileEnv φ) (st : FileState φ) (memory : Nat → Bool) (filename modeStr : CStr) :
    ((fopen env st memory filename modeStr).2.descriptors = st.descriptors ∧
      ∀ fd, (fopen env st memory filename modeStr).1 = some fd → fd = 0) ∨
    ∃ drive parts mode p v i, fopenTarget env memory filename modeStr = some (drive, parts, mode) ∧
      env.fs.openFile st.volumes drive parts mode = (some p, v) ∧ isErr p = false ∧
      fileFreeSlot st.descriptors = some i ∧
      fopen env st memory filename modeStr = (some ((i + 1 : Nat) : Int),
        ⟨Function.update st.descriptors i (some ⟨i + 1, p, drive⟩), v⟩) := by
  have cleanup : ∀ (st' : FileState φ) p, st'.descriptors = st.descriptors →
      (fopenCleanup env st' p).2.descriptors = st.descriptors ∧
        ∀ fd, (fopenCleanup env st' p).1 = some fd → fd = 0 := by
    intro st' p same
    unfold fopenCleanup
    split
    · exact ⟨same, by simp⟩
    · split
      · exact ⟨same, by simp⟩
      · exact ⟨same, by simp⟩
  unfold fopen
  cases target : fopenTarget env memory filename modeStr with
  | none => exact Or.inl ⟨rfl, by simp⟩
  | some triple =>
    obtain ⟨drive, parts, mode⟩ := triple
    cases opened : env.fs.openFile st.volumes drive parts mode with
    | mk result v =>
      cases result with
      | none => exact Or.inl ⟨by simp [opened], by simp [opened]⟩
      | some p =>
        simp only [opened]
        cases failed : isErr p with
        | true => exact Or.inl (cleanup { st with volumes := v } p rfl)
        | false =>
          simp only [Bool.false_eq_true, if_false]
          cases slot : fileFreeSlot st.descriptors with
          | none => exact Or.inl (cleanup { st with volumes := v } p rfl)
          | some i => exact Or.inr ⟨drive, parts, mode, p, v, i, rfl, opened, failed, rfl, rfl⟩

/-- `fopen` ends no opening: what its cleanup closes is an error code, or private data
that was not open before the call. -/
theorem fopen_keeps {env : FileEnv φ} {Opened : φ → Ptr → Prop} (lawful : LawfulFilesystem env.fs Opened)
    (st : FileState φ) (memory : Nat → Bool) (filename modeStr : CStr) {q : Ptr} (valid : isErr q = false)
    (isOpen : Opened st.volumes q) : Opened (fopen env st memory filename modeStr).2.volumes q := by
  have cleanup : ∀ (st' : FileState φ) p, q ≠ p → Opened st'.volumes q →
      Opened (fopenCleanup env st' p).2.volumes q := by
    intro st' p other isOpen'
    have closed := lawful.close_keeps st'.volumes p q other isOpen'
    unfold fopenCleanup
    split
    · exact isOpen'
    · split <;> simp_all
  unfold fopen
  cases target : fopenTarget env memory filename modeStr with
  | none => exact isOpen
  | some triple =>
    obtain ⟨drive, parts, mode⟩ := triple
    have kept := lawful.open_keeps st.volumes drive parts mode q isOpen
    cases opened : env.fs.openFile st.volumes drive parts mode with
    | mk result v =>
      rw [opened] at kept
      cases result with
      | none => simpa only [opened] using kept
      | some p =>
        simp only [opened]
        cases failed : isErr p with
        | true =>
          refine cleanup { st with volumes := v } p ?_ kept
          rintro rfl
          simp [failed] at valid
        | false =>
          have fresh := (lawful.open_opened _ _ _ _ _ _ opened failed).2
          simp only [Bool.false_eq_true, if_false]
          split
          · refine cleanup { st with volumes := v } p ?_ kept
            rintro rfl
            exact fresh isOpen
          · exact kept

/-! ## The invariant -/

/-- The invariant of the runs that leave the last slot alone. -/
structure DescriptorInv (Opened : φ → Ptr → Prop) (s : FileRunState φ) : Prop where
  slots : ∀ i desc, s.st.descriptors i = some desc → i < viosMaxFileDescriptors - 1 ∧
    desc.index = i + 1 ∧ isErr desc.privateData = false ∧ Opened s.st.volumes desc.privateData
  privates : ∀ i j di dj, s.st.descriptors i = some di → s.st.descriptors j = some dj →
    di.privateData = dj.privateData → i = j
  handles : ∀ fd desc, (fd, desc) ∈ s.handles ↔ 0 < fd ∧ s.st.descriptors (fd - 1).toNat = some desc
  distinct : (s.handles.map Prod.fst).Nodup

theorem DescriptorInv.resolved {Opened : φ → Ptr → Prop} {s : FileRunState φ}
    (inv : DescriptorInv Opened s) {fd : Int} {desc : FileDescriptor}
    (member : (fd, desc) ∈ s.handles) : fileGetDescriptor s.st.descriptors fd = some desc := by
  obtain ⟨positive, stored⟩ := (inv.handles fd desc).mp member
  have inRange := (inv.slots _ _ stored).1
  have inside : ¬ (fd ≤ 0 ∨ (viosMaxFileDescriptors : Int) ≤ fd) := by
    unfold viosMaxFileDescriptors at *
    omega
  rw [fileGetDescriptor, if_neg inside, stored]

theorem fileGetDescriptor_eq_some {descriptors : Nat → Option FileDescriptor} {fd : Int}
    {desc : FileDescriptor} (found : fileGetDescriptor descriptors fd = some desc) :
    0 < fd ∧ descriptors (fd - 1).toNat = some desc := by
  unfold fileGetDescriptor at found
  split at found
  · cases found
  · exact ⟨by omega, found⟩

/-- Closing a resolved descriptor succeeds and empties its slot. -/
theorem fclose_resolved {env : FileEnv φ} {Opened : φ → Ptr → Prop}
    (lawful : LawfulFilesystem env.fs Opened) {s : FileRunState φ} (inv : DescriptorInv Opened s)
    {fd : Int} {desc : FileDescriptor} (found : fileGetDescriptor s.st.descriptors fd = some desc) :
    fclose env s.st fd = (some viosAllOk,
      ⟨Function.update s.st.descriptors (fd - 1).toNat none,
        (env.fs.closeFile s.st.volumes desc.privateData).2⟩) := by
  obtain ⟨positive, stored⟩ := fileGetDescriptor_eq_some found
  obtain ⟨-, index, -, isOpen⟩ := inv.slots _ _ stored
  have closes := lawful.close_opened _ _ isOpen
  unfold fclose
  rw [found]
  cases closed : env.fs.closeFile s.st.volumes desc.privateData with
  | mk result volumes =>
    rw [closed] at closes
    obtain rfl : result = some viosAllOk := closes
    simp [closed, fileFreeDescriptor, index]

theorem DescriptorInv.ok {env : FileEnv φ} {Opened : φ → Ptr → Prop}
    (lawful : LawfulFilesystem env.fs Opened) {s : FileRunState φ} (inv : DescriptorInv Opened s) :
    DescriptorsOk env s where
  distinct := inv.distinct
  resolved handle member := inv.resolved member
  closable handle member := by
    rw [fclose_resolved lawful inv (inv.resolved member)]
    simp
  noneLost i _ desc stored := by
    rw [inv.handles]
    exact ⟨by omega, by simpa using stored⟩

theorem descriptorInv_init (Opened : φ → Ptr → Prop) (volumes : φ) :
    DescriptorInv Opened ⟨fsInit volumes, []⟩ where
  slots i desc stored := by simp [fsInit] at stored
  privates i j di dj stored := by simp [fsInit] at stored
  handles fd desc := by simp [fsInit]
  distinct := List.nodup_nil

/-- A call that only changes the filesystem's state, without ending an opening. -/
theorem DescriptorInv.volumes {Opened : φ → Ptr → Prop} {s : FileRunState φ}
    (inv : DescriptorInv Opened s) {st' : FileState φ} (same : st'.descriptors = s.st.descriptors)
    (kept : ∀ q, isErr q = false → Opened s.st.volumes q → Opened st'.volumes q) :
    DescriptorInv Opened ⟨st', s.handles⟩ where
  slots i desc stored := by
    rw [same] at stored
    obtain ⟨inRange, index, valid, isOpen⟩ := inv.slots i desc stored
    exact ⟨inRange, index, valid, kept _ valid isOpen⟩
  privates := by simpa only [same] using inv.privates
  handles := by simpa only [same] using inv.handles
  distinct := inv.distinct

/-- Storing a newly opened descriptor in a free slot. -/
theorem DescriptorInv.store {Opened : φ → Ptr → Prop} {s : FileRunState φ}
    (inv : DescriptorInv Opened s) {i : Nat} {p : Ptr} {drive : Nat} {v : φ}
    (inRange : i < viosMaxFileDescriptors - 1) (free : s.st.descriptors i = none)
    (valid : isErr p = false) (isOpen : Opened v p) (fresh : ¬ Opened s.st.volumes p)
    (kept : ∀ q, isErr q = false → Opened s.st.volumes q → Opened v q) :
    DescriptorInv Opened ⟨⟨Function.update s.st.descriptors i (some ⟨i + 1, p, drive⟩), v⟩,
      (((i + 1 : Nat) : Int), ⟨i + 1, p, drive⟩) :: s.handles⟩ where
  slots j desc stored := by
    by_cases here : j = i
    · subst here
      simp only [Function.update_self, Option.some.injEq] at stored
      subst stored
      exact ⟨inRange, rfl, valid, isOpen⟩
    · simp only [Function.update_of_ne here] at stored
      obtain ⟨inRange', index, valid', isOpen'⟩ := inv.slots j desc stored
      exact ⟨inRange', index, valid', kept _ valid' isOpen'⟩
  privates := by
    have other : ∀ j dj, s.st.descriptors j = some dj → dj.privateData ≠ p := by
      rintro j dj stored rfl
      exact fresh (inv.slots j dj stored).2.2.2
    intro j k dj dk storedJ storedK same
    by_cases hj : j = i <;> by_cases hk : k = i
    · rw [hj, hk]
    · subst hj
      simp only [Function.update_self, Option.some.injEq] at storedJ
      simp only [Function.update_of_ne hk] at storedK
      subst storedJ
      exact absurd same.symm (other k dk storedK)
    · subst hk
      simp only [Function.update_self, Option.some.injEq] at storedK
      simp only [Function.update_of_ne hj] at storedJ
      subst storedK
      exact absurd same (other j dj storedJ)
    · simp only [Function.update_of_ne hj] at storedJ
      simp only [Function.update_of_ne hk] at storedK
      exact inv.privates j k dj dk storedJ storedK same
  handles fd desc := by
    rw [List.mem_cons, inv.handles]
    by_cases here : (fd - 1).toNat = i
    · by_cases positive : 0 < fd
      · obtain rfl : fd = ((i + 1 : Nat) : Int) := by omega
        simp only [here, Function.update_self, free, Option.some.injEq, Prod.mk.injEq]
        constructor
        · rintro (⟨-, rfl⟩ | ⟨-, impossible⟩)
          · exact ⟨positive, rfl⟩
          · cases impossible
        · rintro ⟨-, rfl⟩
          exact Or.inl ⟨trivial, rfl⟩
      · constructor
        · rintro (same | ⟨positive', -⟩)
          · have := congrArg Prod.fst same
            simp only at this
            omega
          · exact absurd positive' positive
        · rintro ⟨positive', -⟩
          exact absurd positive' positive
    · simp only [Function.update_of_ne here]
      constructor
      · rintro (same | stored)
        · have := congrArg Prod.fst same
          simp only at this
          omega
        · exact stored
      · exact Or.inr
  distinct := by
    rw [List.map_cons, List.nodup_cons]
    refine ⟨?_, inv.distinct⟩
    intro member
    obtain ⟨⟨fd, desc⟩, inHandles, same⟩ := List.mem_map.mp member
    simp only at same
    obtain ⟨-, stored⟩ := (inv.handles fd desc).mp inHandles
    rw [same, show (((i + 1 : Nat) : Int) - 1).toNat = i by omega, free] at stored
    cases stored

/-- Emptying the slot of a closed descriptor. -/
theorem DescriptorInv.clear {Opened : φ → Ptr → Prop} {s : FileRunState φ}
    (inv : DescriptorInv Opened s) {fd : Int} {desc : FileDescriptor} {v : φ} (positive : 0 < fd)
    (stored : s.st.descriptors (fd - 1).toNat = some desc)
    (kept : ∀ q, q ≠ desc.privateData → Opened s.st.volumes q → Opened v q) :
    DescriptorInv Opened ⟨⟨Function.update s.st.descriptors (fd - 1).toNat none, v⟩,
      s.handles.filter fun handle => handle.1 ≠ fd⟩ where
  slots i d stored' := by
    by_cases here : i = (fd - 1).toNat
    · subst here
      simp at stored'
    · simp only [Function.update_of_ne here] at stored'
      obtain ⟨inRange, index, valid, isOpen⟩ := inv.slots i d stored'
      refine ⟨inRange, index, valid, kept _ ?_ isOpen⟩
      intro same
      exact here (inv.privates _ _ _ _ stored' stored same)
  privates i j di dj storedI storedJ same := by
    by_cases hi : i = (fd - 1).toNat
    · subst hi
      simp at storedI
    · by_cases hj : j = (fd - 1).toNat
      · subst hj
        simp at storedJ
      · simp only [Function.update_of_ne hi] at storedI
        simp only [Function.update_of_ne hj] at storedJ
        exact inv.privates i j di dj storedI storedJ same
  handles fd' d := by
    rw [List.mem_filter, inv.handles]
    by_cases same : fd' = fd
    · subst same
      simp
    · by_cases positive' : 0 < fd'
      · have other : (fd' - 1).toNat ≠ (fd - 1).toNat := by omega
        have slot : Function.update s.st.descriptors (fd - 1).toNat none (fd' - 1).toNat =
            s.st.descriptors (fd' - 1).toNat := Function.update_of_ne other _ _
        simp only [slot, positive', same, true_and, ne_eq, not_false_eq_true, decide_true, and_true]
      · simp [positive']
  distinct := inv.distinct.sublist (List.filter_sublist.map _)

/-! ## One step -/

theorem fileStep_preserves {env : FileEnv φ} {Opened : φ → Ptr → Prop}
    (lawful : LawfulFilesystem env.fs Opened) (s : FileRunState φ) (call : FileCall)
    (t : FileRunState φ) (step : FileStep env s call t) (allowed : LeavesLastSlot env s call)
    (inv : DescriptorInv Opened s) : DescriptorInv Opened t := by
  cases step with
  | @opened memory filename modeStr fd desc st' returned positive created =>
    rcases fopen_cases env s.st memory filename modeStr with ⟨-, failed⟩ | stored
    · have : fd = 0 := failed fd (by rw [returned])
      omega
    · obtain ⟨drive, parts, mode, p, v, i, target, opens, valid, slot, result⟩ := stored
      obtain ⟨inTable, free, least⟩ := fileFreeSlot_eq_some slot
      have kept : ∀ q, isErr q = false → Opened s.st.volumes q → Opened v q := by
        intro q _ isOpen
        have := lawful.open_keeps s.st.volumes drive parts mode q isOpen
        rwa [opens] at this
      obtain ⟨isOpen, fresh⟩ := lawful.open_opened _ _ _ _ _ _ opens valid
      -- the least free slot is not the last one, by the condition on the call
      have inRange : i < viosMaxFileDescriptors - 1 := by
        rcases allowed ⟨drive, parts, mode, p, target, by rw [opens], valid⟩ with
          ⟨j, below, unused⟩ | lastUsed
        · by_contra above
          exact least j (by omega) unused
        · by_contra above
          have : i = viosMaxFileDescriptors - 1 := by omega
          exact lastUsed (this ▸ free)
      rw [result] at returned
      obtain ⟨sameFd, sameSt⟩ := Prod.mk.inj returned
      obtain rfl := Option.some.inj sameFd
      subst sameSt
      have sameDesc : (⟨i + 1, p, drive⟩ : FileDescriptor) = desc := by simpa using created
      subst sameDesc
      exact inv.store inRange free valid isOpen fresh kept
  | @openFailed memory filename modeStr failed =>
    rcases fopen_cases env s.st memory filename modeStr with ⟨same, -⟩ | stored
    · exact inv.volumes same (fun q valid isOpen => fopen_keeps lawful s.st memory filename modeStr valid isOpen)
    · obtain ⟨drive, parts, mode, p, v, i, -, -, -, -, result⟩ := stored
      have := failed ((i + 1 : Nat) : Int) (by rw [result])
      omega
  | @read size nmemb fd =>
    refine inv.volumes ?_ ?_
    · unfold fread
      split
      · rfl
      · split <;> rfl
    · intro q _ isOpen
      unfold fread
      split
      · exact isOpen
      · split
        · exact isOpen
        · exact lawful.read_keeps _ _ _ _ _ q isOpen
  | @write data size nmemb fd =>
    refine inv.volumes ?_ ?_
    · unfold fwrite
      split
      · rfl
      · split <;> rfl
    · intro q _ isOpen
      unfold fwrite
      split
      · exact isOpen
      · split
        · exact isOpen
        · exact lawful.write_keeps _ _ _ _ _ _ q isOpen
  | stat => exact inv
  | @seek fd offset whence =>
    refine inv.volumes ?_ ?_
    · unfold fseek
      split <;> rfl
    · intro q _ isOpen
      unfold fseek
      split
      · exact isOpen
      · exact lawful.seek_keeps _ _ _ _ q isOpen
  | @closed fd =>
    cases found : fileGetDescriptor s.st.descriptors fd with
    | none =>
      -- no handle has this value: a handle's slot is below the last one, so it resolves
      have noHandle : s.handles.filter (fun handle => decide (handle.1 ≠ fd)) = s.handles := by
        rw [List.filter_eq_self]
        rintro ⟨fd', desc⟩ member
        simp only [decide_eq_true_eq]
        rintro rfl
        rw [inv.resolved member] at found
        cases found
      have unchanged : (fclose env s.st fd).2 = s.st := by simp [fclose, found]
      rw [unchanged, noHandle]
      exact inv
    | some desc =>
      obtain ⟨positive, stored⟩ := fileGetDescriptor_eq_some found
      rw [fclose_resolved lawful inv found]
      exact inv.clear positive stored (fun q other isOpen => lawful.close_keeps _ _ q other isOpen)

/-- An open that takes the last slot returns a descriptor that does not resolve. -/
theorem fileStep_spoils {env : FileEnv φ} {Opened : φ → Ptr → Prop} (s : FileRunState φ)
    (call : FileCall) (t : FileRunState φ) (step : FileStep env s call t)
    (forbidden : ¬ LeavesLastSlot env s call) (_ : DescriptorInv Opened s) : ¬ DescriptorsOk env t := by
  have lastSlot : ∀ memory filename modeStr, ¬ LeavesLastSlot env s (.fopen memory filename modeStr) →
      (fopen env s.st memory filename modeStr).1 = some 512 := by
    intro memory filename modeStr forbidden
    simp only [LeavesLastSlot, Classical.not_imp, not_or, not_exists, not_and, not_not] at forbidden
    obtain ⟨⟨drive, parts, mode, p, target, opens, valid⟩, allUsed, lastFree⟩ := forbidden
    obtain ⟨i, slot, -⟩ := fileFreeSlot_isSome (by decide) lastFree
    obtain ⟨inTable, free, -⟩ := fileFreeSlot_eq_some slot
    have isLast : i = viosMaxFileDescriptors - 1 := by
      by_contra other
      exact allUsed i (by omega) free
    unfold fopen
    rw [target]
    cases opened : env.fs.openFile s.st.volumes drive parts mode with
    | mk result v =>
      rw [opened] at opens
      obtain rfl : result = some p := opens
      simp [opened, valid, slot, isLast, viosMaxFileDescriptors]
  intro ok
  cases step with
  | @opened memory filename modeStr fd desc st' returned positive created =>
    have result := lastSlot memory filename modeStr forbidden
    rw [returned] at result
    obtain rfl := Option.some.inj result
    have resolved := ok.resolved (512, desc) List.mem_cons_self
    simp [fileGetDescriptor, viosMaxFileDescriptors] at resolved
  | @openFailed memory filename modeStr failed =>
    have := failed 512 (lastSlot memory filename modeStr forbidden)
    omega
  | read | write | stat | seek | closed => exact forbidden trivial

/-- A filesystem in which every open succeeds, as FAT16's does on an existing file: the
state counts the openings, and each gets a page of its own for its private data. -/
def countingFs : Filesystem Nat where
  openFile v _ _ _ := (some (4096 * (v + 1)), v + 1)
  readFile v _ _ _ _ := (some 0, [], v)
  writeFile v _ _ _ _ nmemb := (some nmemb, v)
  seekFile v _ _ _ := (some 0, v)
  statFile _ _ _ := (some 0, ⟨0, 0⟩)
  closeFile v _ := (some 0, v)

/-- The private data handed out in the first `v` openings. -/
def countingOpened (v p : Nat) : Prop := p ≤ 4096 * v

theorem countingFs_lawful : LawfulFilesystem countingFs countingOpened where
  open_opened v _ _ _ p v' opened _ := by
    simp only [countingFs, Prod.mk.injEq, Option.some.injEq] at opened
    obtain ⟨rfl, rfl⟩ := opened
    change 4096 * (v + 1) ≤ 4096 * (v + 1) ∧ ¬ 4096 * (v + 1) ≤ 4096 * v
    omega
  open_keeps v _ _ _ q isOpen := by
    simp only [countingFs, countingOpened] at isOpen ⊢
    omega
  read_keeps _ _ _ _ _ _ isOpen := isOpen
  write_keeps _ _ _ _ _ _ _ isOpen := isOpen
  seek_keeps _ _ _ _ _ isOpen := isOpen
  close_opened _ _ _ := rfl
  close_keeps _ _ _ _ isOpen := isOpen

/-- One disk, with the counting filesystem mounted. -/
def countingEnv : FileEnv Nat := ⟨countingFs, [true], some 0⟩

/-- The path `0:/a`. -/
def pathA : CStr := [0x30, 0x3A, 0x2F, 0x61]

/-- The mode `r`. -/
def modeR : CStr := [0x72]

/-- The table after `n` opens: the first `n` slots are in use. -/
def filled (n : Nat) : FileRunState Nat where
  st := ⟨fun i => if i < n then some ⟨i + 1, 4096 * (i + 1), 0⟩ else none, n⟩
  handles := ((List.range n).map fun i =>
    (((i + 1 : Nat) : Int), (⟨i + 1, 4096 * (i + 1), 0⟩ : FileDescriptor))).reverse

theorem fopen_filled {n : Nat} (room : n < viosMaxFileDescriptors) :
    fopen countingEnv (filled n).st allServed pathA modeR = (some ((n + 1 : Nat) : Int), (filled (n + 1)).st) := by
  have slot : fileFreeSlot (filled n).st.descriptors = some n := by
    rw [fileFreeSlot, List.find?_range_eq_some]
    refine ⟨by simp [filled], List.mem_range.mpr room, ?_⟩
    intro j below
    simp [filled, below]
  have valid : isErr (4096 * (n + 1)) = false := by
    rw [isErr_eq_false_iff]
    unfold viosMaxFileDescriptors at room
    omega
  have target : fopenTarget countingEnv allServed pathA modeR = some (0, [[0x61]], .read) := by decide
  have table : Function.update (filled n).st.descriptors n
      (some ⟨n + 1, 4096 * ((filled n).st.volumes + 1), 0⟩) = (filled (n + 1)).st.descriptors := by
    funext i
    by_cases here : i = n
    · subst here
      simp [filled]
    · rw [Function.update_of_ne here]
      have : i < n ↔ i < n + 1 := by omega
      simp [filled, this]
  unfold fopen
  rw [target]
  simp only [countingEnv, countingFs]
  change (if isErr (4096 * (n + 1)) = true then _ else _) = _
  rw [valid]
  simp only [Bool.false_eq_true, if_false, slot]
  rw [table]
  rfl

/-- A file is opened and closed again. -/
def openClose : List (FileCall × FileRunState Nat) :=
  [(.fopen allServed pathA modeR, filled 1), (.fclose 1, ⟨(fclose countingEnv (filled 1).st 1).2, []⟩)]

/-- The run of `count` opens that starts with `n` slots in use. -/
def openMany : Nat → Nat → List (FileCall × FileRunState Nat)
  | _, 0 => []
  | n, count + 1 => (.fopen allServed pathA modeR, filled (n + 1)) :: openMany (n + 1) count

theorem isRun_openMany {n count : Nat} (room : n + count ≤ viosMaxFileDescriptors) :
    IsRun (FileStep countingEnv) (filled n) (openMany n count) := by
  induction count generalizing n with
  | zero => trivial
  | succ count ih =>
    refine ⟨?_, ih (by omega)⟩
    have step : FileStep countingEnv (filled n) (.fopen allServed pathA modeR)
        ⟨(filled (n + 1)).st, (((n + 1 : Nat) : Int), ⟨n + 1, 4096 * (n + 1), 0⟩) :: (filled n).handles⟩ :=
      .opened (fopen_filled (n := n) (by omega)) (by omega) (by simp [filled])
    have handles : (filled (n + 1)).handles =
        (((n + 1 : Nat) : Int), ⟨n + 1, 4096 * (n + 1), 0⟩) :: (filled n).handles := by
      simp [filled, List.range_succ]
    rw [← handles] at step
    exact step

theorem filled_mem_openMany {n count : Nat} :
    filled (n + count) ∈ runStates (filled n) (openMany n count) := by
  induction count generalizing n with
  | zero => simp [openMany]
  | succ count ih =>
    rw [openMany, runStates_cons, show n + (count + 1) = n + 1 + count by omega]
    exact List.mem_cons_of_mem _ ih

end ViOS.Fs
