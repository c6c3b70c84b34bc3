import ViOS.Fs.RoundTrip
import Mathlib.Algebra.BigOperators.Group.Finset.Piecewise

/-! # Several files open at the same time

The root directory as a store of files.  Any number of descriptors is open, and `fat16_open`,
`fat16_write`, `fat16_read` and `fat16_close` are called on them in any order.  Below the
driver is the exact store.

* `FileStore`, `storeCall` — files with their contents and clusters, the handles on them and
  the free clusters, and what each call does to them.
* `Shows` — the store that a state of the driver holds.
* `Kept`, `FileShown.kept` — a file that a call for another one leaves alone.
* `open_shows`, `write_shows`, `read_shows`, `close_shows` — one call.
* `fatCalls_refine`, `clusters_accounted` — all runs.
-/

namespace ViOS.Fs

open ViOS.Lib

/-! ## The store -/

/-- A file: what it contains, its clusters and those of them behind the first one.  Its entry on the
disk is behind if it was cut to nothing and not written since. -/
structure StoredFile where
  contents : List UInt8
  clusters : Finset Nat
  later : Finset Nat
  onDisk : Bool

/-- A descriptor: the slot of its file, its position, and whether it writes at the end or reads. -/
structure Handle where
  slot : Nat
  pos : Nat
  writes : Bool

/-- The names, the files by the slots of their entries, the descriptors that are open, and the clusters
that can be given to a file. -/
structure FileStore where
  directory : List FatDirectoryItem
  files : Nat → Option StoredFile
  handles : Ptr → Option Handle
  free : Finset Nat
  next : Nat

namespace FileStore

variable (store : FileStore)

/-- The slot that a name leads to. -/
def slotOf (name : CStr) : Option Nat := findItemLoop name 0 store.directory

/-- The slot that a new file gets. -/
def freeSlot : Option Nat :=
  store.directory.findIdx? fun item => item.mark = 0 ∨ item.mark = 0xE5

/-- The address of the next descriptor. -/
def newPtr : Ptr := viosHeapBlockSize * (store.next + 1)

/-- The file of a slot and the free clusters changed. -/
def put (slot : Nat) (file : Option StoredFile) (free : Finset Nat) : FileStore :=
  { store with files := Function.update store.files slot file, free }

/-- A descriptor changed. -/
def hold (ptr : Ptr) (handle : Option Handle) : FileStore :=
  { store with handles := Function.update store.handles ptr handle }

/-- A new descriptor. -/
def opened (handle : Handle) : Option (Int × List UInt8) × FileStore :=
  (some ((store.newPtr : Int), []), { store.hold store.newPtr (some handle) with next := store.next + 1 })

/-- The descriptor of a pointer, with its file. -/
def held (ptr : Ptr) : Option (Handle × StoredFile) :=
  (store.handles ptr).bind fun handle => (store.files handle.slot).map fun file => (handle, file)

end FileStore

/-- A file without contents. -/
def StoredFile.empty (onDisk : Bool) : StoredFile := ⟨[], ∅, ∅, onDisk⟩

/-- The file with data behind its contents: it takes the lowest free clusters that it needs. -/
def StoredFile.append (header : FatHeader) (free : Finset Nat) (file : StoredFile) (data : List UInt8) :
    StoredFile where
  contents := file.contents ++ data
  clusters := file.clusters ∪ free.filter fun c =>
    file.clusters.card + (belowIn free c).card < header.clustersFor (file.contents.length + data.length)
  later := file.later ∪ free.filter fun c => 0 < file.clusters.card + (belowIn free c).card ∧
    file.clusters.card + (belowIn free c).card < header.clustersFor (file.contents.length + data.length)
  onDisk := true

/-- The end of the file can be looked up. -/
def StoredFile.Grows (header : FatHeader) (file : StoredFile) : Prop :=
  file.contents.length = 0 ∨
    file.contents.length % header.clusterSize ≠ 0 ∧ ∀ c ∈ file.later, Walkable c

instance (header : FatHeader) (file : StoredFile) : Decidable (file.Grows header) :=
  inferInstanceAs (Decidable (_ ∨ _ ∧ _))

/-- The calls. -/
inductive StoreCall where
  | openFile (name : CStr) (mode : FileMode)
  | write (ptr : Ptr) (request : WriteRequest)
  | read (ptr : Ptr) (size nmemb : Nat)
  | close (ptr : Ptr)

/-- A file that is there is opened. -/
def storeOpen (header : FatHeader) (store : FileStore) (slot : Nat) (file : StoredFile) :
    FileMode → Option (Int × List UInt8) × FileStore
  | .write =>
    (store.put slot (some (.empty false))
      (store.free ∪ file.clusters.filter (· < header.totalClusters))).opened ⟨slot, 0, true⟩
  | .append => store.opened ⟨slot, file.contents.length, true⟩
  | _ => store.opened ⟨slot, 0, false⟩

/-- A new file is opened. -/
def storeCreate (store : FileStore) (name : CStr) (slot : Nat) : Option (Int × List UInt8) × FileStore :=
  (FileStore.put { store with directory := store.directory.set slot (newItem name) } slot
    (some (.empty true)) store.free).opened ⟨slot, 0, true⟩

/-- What a call answers and does.  An answer is missing where the driver returns a negative status. -/
def storeCall (header : FatHeader) (store : FileStore) : StoreCall → Option (Int × List UInt8) × FileStore
  | .openFile name mode =>
    match store.slotOf name with
    | some slot =>
      match store.files slot with
      | some file => storeOpen header store slot file mode
      | none => (none, store)
    | none =>
      if mode = .write ∨ mode = .append then
        match store.freeSlot with
        | some slot => storeCreate store name slot
        | none => (none, store)
      else (some ((errorPtr (-eio) : Int), []), { store with next := store.next + 1 })
  | .write ptr request =>
    match store.held ptr with
    | none => (none, store)
    | some (handle, file) =>
      if file.Grows header then
        let file := file.append header store.free request.data
        (some ((request.nmemb : Int), []),
          (store.put handle.slot (some file) (store.free \ file.clusters)).hold ptr
            (some { handle with pos := file.contents.length }))
      else (none, store)
  | .read ptr size nmemb =>
    match store.held ptr with
    | none => (none, store)
    | some (handle, file) =>
      let items := min nmemb ((file.contents.length - handle.pos) / size)
      (some ((items : Int), (file.contents.drop handle.pos).take (items * size)),
        store.hold ptr (some { handle with pos := handle.pos + items * size }))
  | .close ptr =>
    match store.held ptr with
    | none => (none, store)
    | some (handle, file) =>
      -- the entry of a file that was not written leads to clusters that are free
      let lost := handle.writes && !file.onDisk
      (some (0, []),
        (store.put handle.slot (if lost then none else some file) store.free).hold ptr none)

/-- An entry that is in use. -/
def FatDirectoryItem.Live (item : FatDirectoryItem) : Prop := item.mark ≠ 0 ∧ item.mark ≠ 0xE5

instance (item : FatDirectoryItem) : Decidable item.Live := inferInstanceAs (Decidable (_ ∧ _))

/-- The calls that the store describes: a file that is written has one descriptor, a write is for whole
data that fits, and a file that is read has no later cluster that the driver refuses. -/
def Allowed (header : FatHeader) (store : FileStore) : StoreCall → Prop
  | .openFile name mode =>
    mode ≠ .invalid ∧
      match store.slotOf name with
      | some slot => (store.files slot).isSome = true ∧
        ∀ ptr handle, store.handles ptr = some handle → handle.slot = slot → mode = .read ∧ handle.writes = false
      | none => mode = .read ∨ store.freeSlot.isSome = true ∧ (newItem name).Live
  | .write ptr request =>
    ∃ handle file, store.held ptr = some (handle, file) ∧ handle.writes = true ∧ request.Whole ∧
      header.clustersFor (file.contents.length + request.data.length) ≤ file.clusters.card + store.free.card
  | .read ptr size nmemb =>
    ∃ handle file, store.held ptr = some (handle, file) ∧ handle.writes = false ∧ 0 < size ∧
      size * nmemb < 2 ^ 32 ∧ ∀ c ∈ file.later, Walkable c
  | .close ptr => (store.held ptr).isSome = true

/-! ## The driver -/

/-- What the caller learns from a status. -/
def done (status : Option Int) (bytes : List UInt8) : Option (Int × List UInt8) :=
  status.bind fun res => if res < 0 then none else some (res, bytes)

theorem done_natCast (count : Nat) (bytes : List UInt8) :
    done (some (count : Int)) bytes = some ((count : Int), bytes) := by
  simp only [done, Option.bind_some]
  exact if_neg (Int.not_lt.mpr (Int.natCast_nonneg count))

theorem done_negative {res : Int} (negative : res < 0) (bytes : List UInt8) : done (some res) bytes = none := by
  simp only [done, Option.bind_some]
  exact if_pos negative

/-- The calls of the driver. -/
def fatCall (state : FatState) : StoreCall → Option (Int × List UInt8) × FatState
  | .openFile name mode =>
    let (ptr, state) := fat16Open state [name] mode
    (ptr.map fun ptr => ((ptr : Int), []), state)
  | .write ptr request =>
    let (status, state) := fat16Write state ptr request.data request.size request.nmemb
    (done status [], state)
  | .read ptr size nmemb =>
    let (status, bytes, state) := fat16Read state ptr size nmemb
    (done status bytes, state)
  | .close ptr =>
    let (status, state) := fat16Close state ptr
    (done status [], state)

/-- A file of the store on the volume: the entry that its descriptors have, and its clusters in order. -/
structure FileShown (volume : FatVolume) (slot : Nat) (file : StoredFile) (item : FatDirectoryItem)
    (l : List Nat) : Prop where
  inRoot : slot < volume.header.rootDirEntries
  live : ∀ entry, volume.rootDirectory.item[slot]? = some entry → entry.Live
  stands : FileAt volume item l file.contents
  clusters : file.clusters = l.toFinset
  later : file.later = l.tail.toFinset
  stored : file.onDisk = true → volume.entry slot = item
  cut : file.onDisk = false → file.contents = []
  writable : item.attr &&& fatFileReadOnly = 0
  isFile : item.attr &&& fatFileSubdirectory = 0

/-- A handle stands in its file, at the end if it writes. -/
structure Handle.Stands (handle : Handle) (file : StoredFile) : Prop where
  inFile : handle.pos ≤ file.contents.length
  atEnd : handle.writes = true → handle.pos = file.contents.length

/-- A handle of the store among the descriptors. -/
structure HandleShown (state : FatState) (store : FileStore) (ptr : Ptr) (handle : Handle)
    (item : FatDirectoryItem) : Prop where
  before : ptr < state.newPtr
  isOpen : state.descriptors ptr = some ⟨state.volume.slotItem handle.slot item, handle.pos⟩
  place : ∃ file, store.files handle.slot = some file ∧ handle.Stands file

/-- The store that a state holds, with the entry and the clusters of each file. -/
structure ShownBy (header : FatHeader) (state : FatState) (store : FileStore) (item : Nat → FatDirectoryItem)
    (l : Nat → List Nat) : Prop where
  header : state.volume.header = header
  mounted : Mounted state.volume
  directory : state.volume.rootDirectory.item = store.directory
  free : store.free = state.volume.freeClusters
  next : store.next = state.next
  files : ∀ slot file, store.files slot = some file → FileShown state.volume slot file (item slot) (l slot)
  apart : ∀ s t f g, store.files s = some f → store.files t = some g → s ≠ t → ∀ c ∈ l s, c ∉ l t
  handles : ∀ ptr handle, store.handles ptr = some handle →
    HandleShown state store ptr handle (item handle.slot)

/-- A file that is written has one descriptor, and an entry that is behind belongs to such a file. -/
structure FileStore.Sane (store : FileStore) : Prop where
  alone : ∀ p q g h, store.handles p = some g → store.handles q = some h → g.slot = h.slot →
    g.writes = true → p = q
  cutOpen : ∀ slot file, store.files slot = some file → file.onDisk = false →
    ∃ ptr handle, store.handles ptr = some handle ∧ handle.slot = slot ∧ handle.writes = true

/-- The store that a state holds. -/
structure Shows (header : FatHeader) (state : FatState) (store : FileStore) : Prop where
  sane : store.Sane
  shown : ∃ item l, ShownBy header state store item l

/-! ## Files that are left alone -/

/-- What a file needs of the volume did not change. -/
structure Kept (volume volume' : FatVolume) (slot : Nat) (l : List Nat) : Prop where
  header : volume'.header = volume.header
  entry : volume'.entry slot = volume.entry slot
  cached : volume'.rootDirectory.item[slot]? = volume.rootDirectory.item[slot]?
  fat : ∀ c ∈ l, volume'.fat c = volume.fat c
  bytes : ∀ c ∈ l, ∀ offset < volume.header.clusterSize, volume'.byteAt c offset = volume.byteAt c offset

section Kept

variable {volume volume' : FatVolume} {slot : Nat} {file : StoredFile} {item : FatDirectoryItem} {l m m' : List Nat}
  {contents : List UInt8}

theorem FileAt.kept (positive : 0 < volume.header.clusterSize) (stands : FileAt volume item l contents)
    (kept : Kept volume volume' slot l) : FileAt volume' item l contents where
  chain := by
    refine ⟨stands.chain.head, stands.chain.chain.congr kept.fat, stands.chain.nodup, fun c member => ?_⟩
    rw [FatVolume.IsCluster, kept.header]
    exact stands.chain.clusters c member
  length := by
    rw [kept.header]
    exact stands.length
  filesize := stands.filesize
  bytes := by
    intro k below
    have inFile := stands.inside positive below
    rw [← stands.bytes k below, FatVolume.chainByte, FatVolume.chainByte, kept.header,
      List.getD_eq_getElem _ _ inFile]
    exact kept.bytes _ (List.getElem_mem inFile) _ (Nat.mod_lt k positive)

theorem FileShown.kept (positive : 0 < volume.header.clusterSize) (shown : FileShown volume slot file item l)
    (kept : Kept volume volume' slot l) : FileShown volume' slot file item l where
  inRoot := by
    rw [kept.header]
    exact shown.inRoot
  live := by
    rw [kept.cached]
    exact shown.live
  stands := shown.stands.kept positive kept
  clusters := shown.clusters
  later := shown.later
  stored := by
    rw [kept.entry]
    exact shown.stored
  cut := shown.cut
  writable := shown.writable
  isFile := shown.isFile

theorem FileShown.card_clusters (shown : FileShown volume slot file item l) : file.clusters.card = l.length := by
  rw [shown.clusters, List.toFinset_card_of_nodup shown.stands.chain.nodup]

/-- Another file got more clusters. -/
theorem Lengthened.kept (lengthened : Lengthened volume m volume' m') (shown : FileShown volume slot file item l)
    (apart : ∀ c ∈ l, c ∉ m) (entry : volume'.entry slot = volume.entry slot) : Kept volume volume' slot l where
  header := lengthened.same.header
  entry := entry
  cached := by rw [lengthened.same.rootDirectory]
  fat := by
    intro c member
    have used := shown.stands.chain.fat_ne_zero member
    exact lengthened.fat c (shown.stands.chain.clusters c member).2 (lengthened.not_taken (apart c member) used)
  bytes := by
    intro c member
    have used := shown.stands.chain.fat_ne_zero member
    exact lengthened.bytes c (shown.stands.chain.clusters c member) (apart c member) used

/-- The clusters of another file were freed. -/
theorem Freed.kept (freed : Freed volume m volume') (shown : FileShown volume slot file item l)
    (apart : ∀ c ∈ l, c ∉ m) : Kept volume volume' slot l where
  header := freed.same.header
  entry := freed.entry slot shown.inRoot
  cached := by rw [freed.same.rootDirectory]
  fat := by
    intro c member
    rw [freed.fat c (shown.stands.chain.clusters c member).2, if_neg (apart c member)]
  bytes := fun c _ offset _ => freed.byteAt c offset

end Kept

/-! ## The free clusters -/

section Free

variable {volume volume' : FatVolume} {head head' : Nat} {l l' : List Nat}

/-- The clusters that were taken are those the rank among the free ones gives. -/
theorem Lengthened.mem_iff (before : ChainFrom volume head l) (lengthened : Lengthened volume l volume' l')
    (after : ChainFrom volume' head' l') {c : Nat} (isFree : c ∈ volume.freeClusters) :
    c ∈ l' ↔ l.length + (belowIn volume.freeClusters c).card < l'.length := by
  obtain ⟨new, rfl⟩ := lengthened.isPrefix
  obtain ⟨-, newNodup, apart⟩ := List.nodup_append.mp after.nodup
  have notOld : ∀ c ∈ new, c ∉ l := fun c isNew isOld => apart c isOld c isNew rfl
  have inside : new.toFinset ⊆ volume.freeClusters := fun c isNew =>
    lengthened.fresh c (List.mem_append_right l (List.mem_toFinset.mp isNew)) (notOld c (List.mem_toFinset.mp isNew))
  have lowest : ∀ c ∈ new.toFinset, ∀ other ∈ volume.freeClusters, other ∉ new.toFinset → c ≤ other := by
    intro c isNew other isOtherFree notNew
    rw [List.mem_toFinset] at isNew notNew
    apply lengthened.lowest c (List.mem_append_right l isNew) (notOld c isNew) other isOtherFree
    intro member
    exact (List.mem_append.mp member).elim (before.not_mem_of_free isOtherFree) notNew
  rw [List.mem_append, or_iff_right (before.not_mem_of_free isFree), ← List.mem_toFinset,
    mem_lowest_iff inside lowest isFree, List.toFinset_card_of_nodup newNodup, List.length_append]
  omega

/-- The free clusters are those that were free and not taken. -/
theorem Lengthened.freeClusters (lengthened : Lengthened volume l volume' l') (after : ChainFrom volume' head' l') :
    volume'.freeClusters = volume.freeClusters \ l'.toFinset := by
  ext c
  rw [Finset.mem_sdiff, List.mem_toFinset]
  by_cases member : c ∈ l'
  · have used := after.fat_ne_zero member
    simp [mem_freeClusters, used, member]
  · rw [freeClusters_congr lengthened.same fun inTable => lengthened.fat c inTable member]
    simp [member]

/-- The clusters of a chain that was freed can be given away, as far as the driver searches for them. -/
theorem Freed.freeClusters (before : ChainFrom volume head l) (freed : Freed volume l volume') :
    volume'.freeClusters =
      volume.freeClusters ∪ l.toFinset.filter (· < volume.header.totalClusters) := by
  have header := freed.same.header
  ext c
  rw [Finset.mem_union, Finset.mem_filter, List.mem_toFinset]
  by_cases member : c ∈ l
  · have isCluster := before.clusters c member
    have used := before.fat_ne_zero member
    simp only [mem_freeClusters, FatVolume.IsCluster, header] at isCluster ⊢
    rw [freed.fat c isCluster.2, if_pos member]
    simp [isCluster, member, used]
  · have same := freeClusters_congr freed.same fun inTable => by rw [freed.fat c inTable, if_neg member]
    simp [same, member]

end Free

/-! ## One change -/

/-- The descriptors that are left when one was closed. -/
theorem FileStore.handles_drop {store : FileStore} {ptr q : Ptr} {h : Handle}
    (isLeft : (store.hold ptr none).handles q = some h) : q ≠ ptr ∧ store.handles q = some h := by
  simp only [FileStore.hold, Function.update_apply] at isLeft
  by_cases here : q = ptr
  · rw [if_pos here] at isLeft
    exact absurd isLeft (by simp)
  · rw [if_neg here] at isLeft
    exact ⟨here, isLeft⟩

section Changes

variable {header : FatHeader} {state : FatState} {store : FileStore} {item : Nat → FatDirectoryItem}
  {l : Nat → List Nat}

/-- The items of an entry, where the directory is at the same place. -/
theorem slotItem_congr {volume volume' : FatVolume}
    (place : entryLocation volume'.rootDirectory = entryLocation volume.rootDirectory) (slot : Nat)
    (item : FatDirectoryItem) : volume'.slotItem slot item = volume.slotItem slot item := by
  simp only [FatVolume.slotItem, place]

/-- A descriptor is closed, or gets a place in a file. -/
theorem ShownBy.hold (shown : ShownBy header state store item l) {ptr : Ptr} (before : ptr < state.newPtr)
    (handle : Option Handle)
    (stands : ∀ h, handle = some h → ∃ file, store.files h.slot = some file ∧ h.Stands file) :
    ShownBy header
      (state.set ptr (handle.map fun h => ⟨state.volume.slotItem h.slot (item h.slot), h.pos⟩) state.volume)
      (store.hold ptr handle) item l where
  header := shown.header
  mounted := shown.mounted
  directory := shown.directory
  free := shown.free
  next := shown.next
  files := shown.files
  apart := shown.apart
  handles := by
    intro q h isHandle
    simp only [FileStore.hold, Function.update_apply] at isHandle
    by_cases here : q = ptr
    · subst here
      rw [if_pos rfl] at isHandle
      refine ⟨before, ?_, stands h isHandle⟩
      simp only [FatState.set, Function.update_self, isHandle, Option.map_some]
    · rw [if_neg here] at isHandle
      have old := shown.handles q h isHandle
      refine ⟨old.before, ?_, old.place⟩
      simp only [FatState.set, Function.update_of_ne here]
      exact old.isOpen

/-- An address is used up. -/
theorem ShownBy.count (shown : ShownBy header state store item l) :
    ShownBy header { state with next := state.next + 1 } { store with next := store.next + 1 } item l where
  header := shown.header
  mounted := shown.mounted
  directory := shown.directory
  free := shown.free
  next := congrArg (· + 1) shown.next
  files := shown.files
  apart := shown.apart
  handles := by
    intro q h isHandle
    have old := shown.handles q h isHandle
    exact ⟨Nat.lt_of_lt_of_le old.before (Nat.mul_le_mul_left _ (Nat.le_succ _)), old.isOpen, old.place⟩

/-- A file that has no descriptor changes, together with the volume. -/
theorem ShownBy.put (shown : ShownBy header state store item l) (slot : Nat) (file : Option StoredFile)
    (entry : FatDirectoryItem) (m : List Nat)
    (closed : ∀ ptr h, store.handles ptr = some h → h.slot ≠ slot) {volume : FatVolume} (mounted : Mounted volume)
    (sameHeader : volume.header = state.volume.header)
    (place : entryLocation volume.rootDirectory = entryLocation state.volume.rootDirectory)
    (kept : ∀ s f, store.files s = some f → s ≠ slot → Kept state.volume volume s (l s))
    (new : ∀ f, file = some f → FileShown volume slot f entry m)
    (apart : ∀ s f, store.files s = some f → s ≠ slot → ∀ c ∈ l s, c ∉ m) :
    ShownBy header { state with volume }
      { store.put slot file volume.freeClusters with directory := volume.rootDirectory.item }
      (Function.update item slot entry) (Function.update l slot m) where
  header := sameHeader.trans shown.header
  mounted := mounted
  directory := rfl
  free := rfl
  next := shown.next
  files := by
    intro s f isFile
    simp only [FileStore.put, Function.update_apply] at isFile ⊢
    by_cases here : s = slot
    · subst here
      simp only [if_true] at isFile ⊢
      exact new f isFile
    · simp only [here, if_false] at isFile ⊢
      exact (shown.files s f isFile).kept shown.mounted.clusterSize_pos (kept s f isFile here)
  apart := by
    intro s t f g isFile isOther different
    simp only [FileStore.put, Function.update_apply] at isFile isOther ⊢
    by_cases here : s = slot
    · have there : ¬ t = slot := fun same => different (here.trans same.symm)
      simp only [here, there, if_true, if_false] at isFile isOther ⊢
      exact fun c member other => apart t g isOther there c other member
    · by_cases there : t = slot
      · simp only [here, there, if_true, if_false] at isFile isOther ⊢
        exact apart s f isFile here
      · simp only [here, there, if_false] at isFile isOther ⊢
        exact shown.apart s t f g isFile isOther different
  handles := by
    intro q h isHandle
    have elsewhere := closed q h isHandle
    have old := shown.handles q h isHandle
    obtain ⟨f, isFile, stands⟩ := old.place
    refine ⟨old.before, ?_, f, ?_, stands⟩
    · rw [slotItem_congr place, Function.update_of_ne elsewhere]
      exact old.isOpen
    · simp only [FileStore.put, Function.update_of_ne elsewhere]
      exact isFile

/-- A file changes together with its only descriptor. -/
theorem ShownBy.change (shown : ShownBy header state store item l) {ptr : Ptr} (handle : Handle)
    (before : ptr < state.newPtr)
    (only : ∀ q h, store.handles q = some h → q ≠ ptr → h.slot ≠ handle.slot) {volume : FatVolume}
    {file : StoredFile} {entry : FatDirectoryItem} {m : List Nat} (mounted : Mounted volume)
    (sameHeader : volume.header = state.volume.header)
    (place : entryLocation volume.rootDirectory = entryLocation state.volume.rootDirectory)
    (kept : ∀ s f, store.files s = some f → s ≠ handle.slot → Kept state.volume volume s (l s))
    (new : FileShown volume handle.slot file entry m)
    (apart : ∀ s f, store.files s = some f → s ≠ handle.slot → ∀ c ∈ l s, c ∉ m) (stands : handle.Stands file) :
    ShownBy header (state.set ptr (some ⟨volume.slotItem handle.slot entry, handle.pos⟩) volume)
      ({ store.put handle.slot (some file) volume.freeClusters with
        directory := volume.rootDirectory.item }.hold ptr (some handle))
      (Function.update item handle.slot entry) (Function.update l handle.slot m) := by
  -- the descriptor is taken away, the file is changed, and the descriptor is put to its new place
  have dropped := shown.hold before none fun h isNone => absurd isNone (by simp)
  have changed := dropped.put handle.slot (some file) entry m (fun q h isLeft => by
      obtain ⟨other, isOther⟩ := FileStore.handles_drop isLeft
      exact only q h isOther other)
    mounted sameHeader place kept (fun f isNew => Option.some.inj isNew ▸ new) apart
  have placed := changed.hold before (some handle) fun h isHandle =>
    ⟨file, by simp only [← Option.some.inj isHandle, FileStore.put, Function.update_self],
      Option.some.inj isHandle ▸ stands⟩
  simp only [Option.map_some, Option.map_none, Function.update_self] at placed
  simpa only [FatState.set, FileStore.hold, FileStore.put, Function.update_idem] using placed

end Changes

/-! ## Handles and entries -/

namespace FileStore

variable {store : FileStore} {ptr : Ptr} {handle : Handle} {file : StoredFile}

theorem held_eq_some :
    store.held ptr = some (handle, file) ↔ store.handles ptr = some handle ∧ store.files handle.slot = some file := by
  simp only [held, Option.bind_eq_some_iff, Option.map_eq_some_iff, Prod.mk.injEq]
  constructor
  · intro ⟨_, isHandle, _, isFile, sameHandle, sameFile⟩
    subst sameHandle sameFile
    exact ⟨isHandle, isFile⟩
  · intro ⟨isHandle, isFile⟩
    exact ⟨handle, isHandle, file, isFile, rfl, rfl⟩

/-- The other descriptors are on other files than one that writes. -/
theorem Sane.others (sane : store.Sane) (isHandle : store.handles ptr = some handle) (writes : handle.writes = true) :
    ∀ q h, store.handles q = some h → q ≠ ptr → h.slot ≠ handle.slot :=
  fun q h isOther other same => other (sane.alone ptr q handle h isHandle isOther same.symm writes).symm

/-- A descriptor moved. -/
theorem Sane.move (sane : store.Sane) (isHandle : store.handles ptr = some handle) (pos : Nat) :
    (store.hold ptr (some { handle with pos })).Sane := by
  have old : ∀ {q h}, (store.hold ptr (some { handle with pos })).handles q = some h →
      ∃ g, store.handles q = some g ∧ g.slot = h.slot ∧ g.writes = h.writes := by
    intro q h isNew
    simp only [hold, Function.update_apply] at isNew
    by_cases here : q = ptr
    · rw [if_pos here] at isNew
      cases isNew
      exact ⟨handle, here ▸ isHandle, rfl, rfl⟩
    · rw [if_neg here] at isNew
      exact ⟨h, isNew, rfl, rfl⟩
  constructor
  · intro p q g h isFirst isSecond same writes
    obtain ⟨g', isFirst', slot, writes'⟩ := old isFirst
    obtain ⟨h', isSecond', slot', -⟩ := old isSecond
    exact sane.alone p q g' h' isFirst' isSecond' (by rw [slot, slot', same]) (by rw [writes', writes])
  · intro slot f isFile cut
    obtain ⟨q, h, isOld, place, writes⟩ := sane.cutOpen slot f isFile cut
    simp only [hold, Function.update_apply]
    by_cases here : q = ptr
    · rw [here, isHandle] at isOld
      cases isOld
      exact ⟨ptr, _, if_pos rfl, place, writes⟩
    · exact ⟨q, h, (if_neg here).trans isOld, place, writes⟩

/-- A file changed. -/
theorem Sane.put (sane : store.Sane) (slot : Nat) (changed : Option StoredFile) (free : Finset Nat)
    (cut : ∀ f, changed = some f → f.onDisk = false →
      ∃ ptr handle, store.handles ptr = some handle ∧ handle.slot = slot ∧ handle.writes = true) :
    (store.put slot changed free).Sane where
  alone := sane.alone
  cutOpen := by
    intro s f isFile isCut
    simp only [FileStore.put, Function.update_apply] at isFile
    by_cases here : s = slot
    · subst here
      rw [if_pos rfl] at isFile
      exact cut f isFile isCut
    · rw [if_neg here] at isFile
      exact sane.cutOpen s f isFile isCut

/-- A descriptor was opened, which writes only if it is the only one of its file. -/
theorem Sane.open (sane : store.Sane) (handle : Handle) (unused : store.handles ptr = none)
    (only : ∀ q h, store.handles q = some h → h.slot = handle.slot → handle.writes = false ∧ h.writes = false) :
    (store.hold ptr (some handle)).Sane := by
  constructor
  · intro p q g h isFirst isSecond same writes
    simp only [hold, Function.update_apply] at isFirst isSecond
    by_cases first : p = ptr
    · by_cases second : q = ptr
      · exact first.trans second.symm
      · rw [if_pos first] at isFirst
        rw [if_neg second] at isSecond
        cases isFirst
        have reads := (only q h isSecond same.symm).1
        rw [writes] at reads
        exact absurd reads (by simp)
    · rw [if_neg first] at isFirst
      by_cases second : q = ptr
      · rw [if_pos second] at isSecond
        cases isSecond
        have reads := (only p g isFirst same).2
        rw [writes] at reads
        exact absurd reads (by simp)
      · rw [if_neg second] at isSecond
        exact sane.alone p q g h isFirst isSecond same writes
  · intro slot f isFile cut
    obtain ⟨q, h, isOld, place, writes⟩ := sane.cutOpen slot f isFile cut
    have different : q ≠ ptr := by
      intro same
      rw [same, unused] at isOld
      exact absurd isOld (by simp)
    simp only [hold, Function.update_apply]
    exact ⟨q, h, (if_neg different).trans isOld, place, writes⟩

/-- A descriptor was closed, and a file whose entry is behind was given up with it. -/
theorem Sane.close (sane : store.Sane) (isHandle : store.handles ptr = some handle)
    (isFile : store.files handle.slot = some file) (free : Finset Nat) :
    ((store.put handle.slot (if (handle.writes && !file.onDisk) = true then none else some file) free).hold ptr
      none).Sane := by
  constructor
  · intro p q g h isFirst isSecond
    exact sane.alone p q g h (handles_drop isFirst).2 (handles_drop isSecond).2
  · intro slot f isFound cut
    simp only [hold, FileStore.put, Function.update_apply] at isFound ⊢
    -- the descriptor that writes a file with such an entry was not the one that is closed
    have found : store.files slot = some f ∧ ¬ (slot = handle.slot ∧ handle.writes = true) := by
      by_cases here : slot = handle.slot
      · rw [if_pos here] at isFound
        by_cases lost : (handle.writes && !file.onDisk) = true
        · rw [if_pos lost] at isFound
          exact absurd isFound (by simp)
        · rw [if_neg lost] at isFound
          cases isFound
          refine ⟨here ▸ isFile, fun both => lost ?_⟩
          rw [both.2, cut]
          rfl
      · rw [if_neg here] at isFound
        exact ⟨isFound, fun both => here both.1⟩
    obtain ⟨q, h, isOld, place, writes⟩ := sane.cutOpen slot f found.1 cut
    have different : q ≠ ptr := by
      intro same
      rw [same, isHandle] at isOld
      cases isOld
      exact found.2 ⟨place.symm, writes⟩
    exact ⟨q, h, (if_neg different).trans isOld, place, writes⟩

end FileStore

/-! ## The calls -/

/-- The driver answers a call as the store does, and holds the store that it leads to. -/
def Simulates (header : FatHeader) (state : FatState) (store : FileStore) (call : StoreCall) : Prop :=
  (fatCall state call).1 = (storeCall header store call).1 ∧
    Shows header (fatCall state call).2 (storeCall header store call).2

/-- A write changes one descriptor and the volume. -/
theorem fat16Write_sets (state : FatState) (ptr : Ptr) (data : List UInt8) (size nmemb : Nat) :
    (fat16Write state ptr data size nmemb).2 =
      state.set ptr ((fat16Write state ptr data size nmemb).2.descriptors ptr)
        (fat16Write state ptr data size nmemb).2.volume := by
  cases fat16Write_cases state ptr data size nmemb with
  | inl same =>
    rw [same, FatState.set, Function.update_eq_self]
  | inr stored =>
    obtain ⟨descriptor, item, -, -, result⟩ := stored
    rw [result, set_descriptor]
    simp only [FatState.set]

section Calls

variable {header : FatHeader} {state : FatState} {store : FileStore} {item : Nat → FatDirectoryItem}
  {l : Nat → List Nat} {ptr : Ptr} {handle : Handle} {file : StoredFile}

/-- A descriptor that writes is at the end of its file. -/
theorem ShownBy.written (shown : ShownBy header state store item l) (isHandle : store.handles ptr = some handle)
    (isFile : store.files handle.slot = some file) (writes : handle.writes = true) :
    WrittenAt state ptr handle.slot (item handle.slot) (l handle.slot) file.contents := by
  have fileShown := shown.files _ file isFile
  have handleShown := shown.handles ptr handle isHandle
  obtain ⟨other, isOther, stands⟩ := handleShown.place
  rw [isFile] at isOther
  cases isOther
  refine ⟨shown.mounted, fileShown.inRoot, ?_, fileShown.writable, fileShown.isFile, fileShown.stands, fun some => ?_⟩
  · rw [← stands.atEnd writes]
    exact handleShown.isOpen
  · apply fileShown.stored
    by_contra behind
    exact some (fileShown.cut (Bool.not_eq_true _ ▸ behind))

/-- The file that got data, on the volume. -/
theorem FileShown.appended {volume volume' : FatVolume} {slot : Nat} {entry entry' : FatDirectoryItem}
    {m m' : List Nat} {data : List UInt8} (shown : FileShown volume slot file entry m)
    (lengthened : Lengthened volume m volume' m') (stands : FileAt volume' entry' m' (file.contents ++ data))
    (stored : volume'.entry slot = entry') (writable : entry'.attr &&& fatFileReadOnly = 0)
    (isFile : entry'.attr &&& fatFileSubdirectory = 0) :
    FileShown volume' slot (file.append volume.header volume.freeClusters data) entry' m' := by
  have length := stands.length
  rw [lengthened.same.header, List.length_append] at length
  refine ⟨?_, ?_, stands, ?_, ?_, fun _ => stored, fun behind => ?_, writable, isFile⟩
  case refine_1 =>
    rw [lengthened.same.header]
    exact shown.inRoot
  case refine_2 =>
    rw [lengthened.same.rootDirectory]
    exact shown.live
  case refine_3 =>
    ext c
    simp only [StoredFile.append, Finset.mem_union, Finset.mem_filter, shown.card_clusters, ← length]
    rw [shown.clusters, List.mem_toFinset, List.mem_toFinset]
    constructor
    · intro member
      cases member with
      | inl old => exact lengthened.isPrefix.subset old
      | inr new => exact (lengthened.mem_iff shown.stands.chain stands.chain new.1).mpr new.2
    · intro member
      by_cases old : c ∈ m
      · exact .inl old
      · have isFree := lengthened.fresh c member old
        exact .inr ⟨isFree, (lengthened.mem_iff shown.stands.chain stands.chain isFree).mp member⟩
  case refine_4 =>
    ext c
    simp only [StoredFile.append, Finset.mem_union, Finset.mem_filter, shown.card_clusters, shown.later,
      List.mem_toFinset, ← length]
    rw [lengthened.mem_tail_iff shown.stands.chain stands.chain, mem_laterClusters]
  case refine_5 => exact absurd behind (by simp [StoredFile.append])

/-- `fat16_write`. -/
theorem write_shows (holds : Shows header state store) {request : WriteRequest}
    (allowed : Allowed header store (.write ptr request)) :
    Simulates header state store (.write ptr request) := by
  obtain ⟨handle, file, isHeld, writes, whole, room⟩ := allowed
  obtain ⟨isHandle, isFile⟩ := FileStore.held_eq_some.mp isHeld
  obtain ⟨item, l, shown⟩ := holds.shown
  have fileShown := shown.files _ file isFile
  have written := shown.written isHandle isFile writes
  have positive := shown.mounted.clusterSize_pos
  have isHeader := shown.header
  have roomBytes : file.contents.length + request.data.length ≤
      ((l handle.slot).length + state.volume.freeClusters.card) * state.volume.header.clusterSize := by
    have enough := le_clustersFor positive (file.contents.length + request.data.length)
    rw [fileShown.card_clusters, shown.free, ← isHeader] at room
    exact enough.trans (Nat.mul_le_mul_right _ room)
  have decides : Resumes state.volume (l handle.slot) file.contents.length ↔ file.Grows header := by
    simp only [Resumes, StoredFile.Grows, fileShown.later, List.mem_toFinset, isHeader]
  simp only [Simulates, fatCall, storeCall, isHeld]
  by_cases grows : file.Grows header
  · obtain ⟨state', entry, m, result, written', lengthened, others⟩ :=
      fat16Write_resumes written whole roomBytes (decides.mpr grows)
    have sets := fat16Write_sets state ptr request.data request.size request.nmemb
    rw [result] at sets ⊢
    rw [if_pos grows]
    have different : ∀ s f, store.files s = some f → s ≠ handle.slot → ∀ c ∈ l s, c ∉ l handle.slot :=
      fun s f isOther other => shown.apart s handle.slot f file isOther isFile other
    have new := fileShown.appended lengthened written'.file
      (written'.stored (by simp [whole.notEmpty])) written'.writable written'.isFile
    rw [isHeader, ← shown.free] at new
    have changed := shown.change { handle with pos := (file.contents ++ request.data).length }
      (shown.handles ptr handle isHandle).before
      (fun q h isOther other => holds.sane.others isHandle writes q h isOther other)
      written'.mounted lengthened.same.header (by rw [lengthened.same.rootDirectory])
      (fun s f isOther other => lengthened.kept (shown.files s f isOther) (different s f isOther other)
        (others s (shown.files s f isOther).inRoot other))
      new
      (fun s f isOther other c member => lengthened.not_taken (different s f isOther other c member)
        ((shown.files s f isOther).stands.chain.fat_ne_zero member))
      ⟨Nat.le_refl _, fun _ => rfl⟩
    have isFree : store.free \ (file.append header store.free request.data).clusters =
        state'.volume.freeClusters := by
      rw [new.clusters, shown.free, lengthened.freeClusters written'.file.chain]
    have isDirectory : state'.volume.rootDirectory.item = store.directory := by
      rw [lengthened.same.rootDirectory, shown.directory]
    rw [isDirectory, ← isFree, ← written'.isOpen, ← sets] at changed
    have sane := holds.sane.put handle.slot (some (file.append header store.free request.data))
      (store.free \ (file.append header store.free request.data).clusters) fun f isSome behind =>
        absurd behind (by simp [← Option.some.inj isSome, StoredFile.append])
    exact ⟨done_natCast _ _, sane.move isHandle _, _, _, changed⟩
  · obtain ⟨res, negative, result⟩ := fat16Write_stuck written whole roomBytes (mt decides.mp grows)
    rw [result, if_neg grows]
    exact ⟨done_negative negative _, holds⟩

end Calls

/-! ## Opening and closing -/

/-- The volume with a new name in the directory that is kept in memory. -/
def FatVolume.named (volume : FatVolume) (slot : Nat) (name : CStr) : FatVolume :=
  { volume with rootDirectory :=
    { volume.rootDirectory with item := volume.rootDirectory.item.set slot (newItem name) } }

/-- `fat16_create_file_in_root` changes the directory in memory, and one entry of it on the disk. -/
theorem createFile_writes {volume : FatVolume} (mounted : Mounted volume) {slot : Nat}
    (isSlot : volume.rootDirectory.item.findIdx? (fun item => item.mark = 0 ∨ item.mark = 0xE5) =
      some slot) (name : CStr) :
    ∃ volume', fat16CreateFileInRoot volume name = (some (volume'.slotItem slot (newItem name)), volume') ∧
      Mounted volume' ∧ EntryWrite (volume.named slot name) slot (newItem name) volume' := by
  obtain ⟨inRange, -⟩ := List.findIdx?_eq_some_iff_findIdx_eq.mp isSlot
  have namedMounted : Mounted (volume.named slot name) := ⟨mounted.consistent, mounted.sectorPos,
    mounted.endingSectorPos, (List.length_set ..).trans mounted.length⟩
  have inRoot : slot < (volume.named slot name).header.rootDirEntries := mounted.length ▸ inRange
  obtain ⟨volume', write, written⟩ := writeEntry_spec namedMounted inRoot (newItem name)
  have position : (entryLocation volume.rootDirectory slot).1 * viosSectorSize +
      (entryLocation volume.rootDirectory slot).2 = (volume.named slot name).rootPos + slot * directoryItemSize :=
    entryLocation_pos namedMounted slot
  have isFile : ¬ (newItem name).attr &&& fatFileSubdirectory ≠ 0 :=
    fun isDirectory => isDirectory (newItem_file name)
  refine ⟨volume', ?_, written.same.mounted namedMounted, written⟩
  simp only [fat16CreateFileInRoot, isSlot, ← Nat.cast_mul, ← Nat.cast_add, position]
  change (some (fat16NewFatItemForDirectoryItem ((volume.named slot name).write _ _ _).2 _ _ _),
    ((volume.named slot name).write _ _ _).2) = _
  rw [write, fat16NewFatItemForDirectoryItem, if_neg isFile, FatVolume.slotItem, written.same.rootDirectory]
  rfl

/-- A new entry stays as it is when it is cut to nothing. -/
theorem newItem_emptied (name : CStr) : (newItem name).emptied = newItem name := by
  simp [FatDirectoryItem.emptied, FatDirectoryItem.withFirstCluster, newItem, FatDirectoryItem.zero,
    FatDirectoryItem.ofBytes, littleEndian]

section Opens

variable {header : FatHeader} {state : FatState} {store : FileStore} {item : Nat → FatDirectoryItem}
  {l : Nat → List Nat} {ptr : Ptr} {slot : Nat} {file : StoredFile} {name : CStr} {mode : FileMode}

theorem ShownBy.newPtr (shown : ShownBy header state store item l) : store.newPtr = state.newPtr := by
  simp only [FileStore.newPtr, FatState.newPtr, shown.next]

theorem ShownBy.unused (shown : ShownBy header state store item l) : store.handles store.newPtr = none := by
  rw [shown.newPtr]
  cases isHandle : store.handles state.newPtr with
  | none => rfl
  | some handle => exact absurd (shown.handles _ handle isHandle).before (Nat.lt_irrefl _)

theorem newPtr_lt (state : FatState) : state.newPtr < ({ state with next := state.next + 1 } : FatState).newPtr :=
  Nat.mul_lt_mul_of_pos_left (Nat.lt_succ_self _) (by decide)

/-- A file is opened and stays as it is. -/
theorem ShownBy.openKept (shown : ShownBy header state store item l) (isFile : store.files slot = some file)
    (handle : Handle) (place : handle.slot = slot) (stands : handle.Stands file) :
    ShownBy header (state.opened ⟨state.volume.slotItem slot (item slot), handle.pos⟩ state.volume)
      (store.opened handle).2 item l := by
  subst place
  have opened := shown.count.hold (newPtr_lt state) (some handle) fun h isHandle => by
    cases isHandle
    exact ⟨file, isFile, stands⟩
  rw [FileStore.opened, shown.newPtr]
  exact opened

/-- A file that no other descriptor has is cut to nothing and opened. -/
theorem ShownBy.openCut (shown : ShownBy header state store item l) (isFile : store.files slot = some file)
    (closed : ∀ q h, store.handles q = some h → h.slot ≠ slot) {volume : FatVolume}
    (freed : Freed state.volume (l slot) volume) (onDisk : Bool)
    (stored : onDisk = true → volume.entry slot = (item slot).emptied) :
    ShownBy header (state.opened ⟨volume.slotItem slot (item slot).emptied, 0⟩ volume)
      ((store.put slot (some (.empty onDisk))
        (store.free ∪ file.clusters.filter (· < header.totalClusters))).opened ⟨slot, 0, true⟩).2
      (Function.update item slot (item slot).emptied) (Function.update l slot []) := by
  have fileShown := shown.files slot file isFile
  have mounted := freed.same.mounted shown.mounted
  have emptied : FileShown volume slot (.empty onDisk) (item slot).emptied [] := by
    refine ⟨?_, ?_, .emptied mounted.clusterSize_pos _, rfl, rfl, stored, fun _ => rfl, fileShown.writable,
      fileShown.isFile⟩
    · rw [freed.same.header]
      exact fileShown.inRoot
    · rw [freed.same.rootDirectory]
      exact fileShown.live
  have changed := shown.count.change ⟨slot, 0, true⟩ (newPtr_lt state)
    (fun q h isHandle _ => closed q h isHandle) mounted freed.same.header (by rw [freed.same.rootDirectory])
    (fun s f isOther other => freed.kept (shown.files s f isOther)
      (shown.apart s slot f file isOther isFile other))
    emptied (fun _ _ _ _ _ _ => List.not_mem_nil) ⟨Nat.le_refl _, fun _ => rfl⟩
  have isFree : store.free ∪ file.clusters.filter (· < header.totalClusters) = volume.freeClusters := by
    rw [fileShown.clusters, shown.free, freed.freeClusters fileShown.stands.chain, shown.header]
  have isDirectory : volume.rootDirectory.item = store.directory := by
    rw [freed.same.rootDirectory, shown.directory]
  rw [isDirectory, ← isFree] at changed
  have isNew : (store.put slot (some (.empty onDisk))
      (store.free ∪ file.clusters.filter (· < header.totalClusters))).newPtr = state.newPtr := shown.newPtr
  rw [FileStore.opened, isNew]
  exact changed

/-- The files of other entries, where an entry gets a new name. -/
theorem EntryWrite.kept_named {volume volume' : FatVolume} {s : Nat} {entry : FatDirectoryItem} {m : List Nat}
    (written : EntryWrite (volume.named slot name) slot (newItem name) volume')
    (shown : FileShown volume s file entry m) (other : s ≠ slot) : Kept volume volume' s m where
  header := written.same.header
  entry := by
    rw [written.entry s shown.inRoot, if_neg other]
    rfl
  cached := by
    rw [written.same.rootDirectory, FatVolume.named, List.getElem?_set_ne (Ne.symm other)]
  fat := fun c member => written.fat c (shown.stands.chain.clusters c member).2
  bytes := fun c _ offset _ => written.byteAt c offset

/-- The file of a new name. -/
theorem EntryWrite.created {volume volume' : FatVolume}
    (written : EntryWrite (volume.named slot name) slot (newItem name) volume') (before : Mounted volume)
    (mounted : Mounted volume') (inRange : slot < volume.rootDirectory.item.length) (live : (newItem name).Live) :
    FileShown volume' slot (.empty true) (newItem name) [] where
  inRoot := by
    rw [written.same.header]
    exact before.length ▸ inRange
  live := by
    intro entry isEntry
    rw [written.same.rootDirectory, FatVolume.named, List.getElem?_set_self inRange] at isEntry
    exact Option.some.inj isEntry ▸ live
  stands := .nil mounted.clusterSize_pos (newItem_empty name).1 (newItem_empty name).2
  clusters := rfl
  later := rfl
  stored := by
    intro _
    rw [written.entry slot (before.length ▸ inRange), if_pos rfl]
  cut := fun _ => rfl
  writable := (by decide : fatFileArchived &&& fatFileReadOnly = 0)
  isFile := newItem_file name

/-- No file has the slot that is free. -/
theorem ShownBy.vacant (shown : ShownBy header state store item l) (isSlot : store.freeSlot = some slot) :
    ∀ s f, store.files s = some f → s ≠ slot := by
  intro s f isFile same
  subst same
  rw [FileStore.freeSlot, ← shown.directory] at isSlot
  obtain ⟨below, unused, -⟩ := List.findIdx?_eq_some_iff_getElem.mp isSlot
  have live := (shown.files s f isFile).live _ (List.getElem?_eq_getElem below)
  exact (of_decide_eq_true unused).elim live.1 live.2

/-- No descriptor is on the slot that is free. -/
theorem ShownBy.closed (shown : ShownBy header state store item l) (isSlot : store.freeSlot = some slot) :
    ∀ q h, store.handles q = some h → h.slot ≠ slot := by
  intro q h isHandle
  obtain ⟨f, isFile, -⟩ := (shown.handles q h isHandle).place
  exact shown.vacant isSlot _ f isFile

/-- A file is created. -/
theorem ShownBy.create (shown : ShownBy header state store item l) (isSlot : store.freeSlot = some slot)
    (live : (newItem name).Live) {volume : FatVolume} (mounted : Mounted volume)
    (written : EntryWrite (state.volume.named slot name) slot (newItem name) volume) :
    ShownBy header { state with volume }
      (FileStore.put { store with directory := store.directory.set slot (newItem name) } slot
        (some (.empty true)) store.free)
      (Function.update item slot (newItem name)) (Function.update l slot []) := by
  have isSlot' := isSlot
  rw [FileStore.freeSlot, ← shown.directory] at isSlot'
  obtain ⟨inRange, -⟩ := List.findIdx?_eq_some_iff_findIdx_eq.mp isSlot'
  have items : volume.rootDirectory.item = state.volume.rootDirectory.item.set slot (newItem name) := by
    rw [written.same.rootDirectory]
    rfl
  have put := shown.put slot (some (.empty true)) (newItem name) []
    (shown.closed isSlot) mounted written.same.header (by rw [written.same.rootDirectory]; rfl)
    (fun s f isOther other => written.kept_named (shown.files s f isOther) other)
    (fun f isNew => Option.some.inj isNew ▸ written.created shown.mounted mounted inRange live)
    fun _ _ _ _ _ _ => List.not_mem_nil
  have isFree : volume.freeClusters = store.free := by
    rw [shown.free]
    exact Finset.ext fun c => freeClusters_congr written.same (written.fat c)
  rw [isFree, items, shown.directory] at put
  exact put

theorem ShownBy.create_sane (shown : ShownBy header state store item l) (sane : store.Sane)
    (isSlot : store.freeSlot = some slot) (name : CStr) : (storeCreate store name slot).2.Sane := by
  have opened := sane.open ⟨slot, 0, true⟩ shown.unused fun q h isHandle place =>
    absurd place (shown.closed isSlot q h isHandle)
  have put := opened.put slot (some (.empty true)) store.free fun f isNew behind =>
    absurd behind (by simp [← Option.some.inj isNew, StoredFile.empty])
  exact ⟨put.alone, put.cutOpen⟩

/-- `fat16_open` of a file that is there. -/
theorem open_found (holds : Shows header state store) (isSlot : store.slotOf name = some slot)
    (allowed : Allowed header store (.openFile name mode)) : Simulates header state store (.openFile name mode) := by
  obtain ⟨item, l, shown⟩ := holds.shown
  simp only [Allowed, isSlot] at allowed
  obtain ⟨valid, tracked, others⟩ := allowed
  obtain ⟨file, isFile⟩ := Option.isSome_iff_exists.mp tracked
  have fileShown := shown.files slot file isFile
  -- the entry is current, because nothing writes the file
  have current : state.volume.entry slot = item slot := by
    apply fileShown.stored
    by_contra behind
    obtain ⟨q, h, isHandle, place, writes⟩ := holds.sane.cutOpen slot file isFile (Bool.not_eq_true _ ▸ behind)
    have reads := (others q h isHandle place).2
    rw [writes] at reads
    exact absurd reads (by simp)
  have isFound : findItemLoop name 0 state.volume.rootDirectory.item = some slot := by
    rw [shown.directory]
    exact isSlot
  have isItem := openItem_found shown.mounted isFound (by rw [current]; exact fileShown.isFile) mode
  rw [current] at isItem
  have isNew := shown.newPtr
  have kept : ∀ handle : Handle, handle.slot = slot → handle.Stands file →
      (∀ q h, store.handles q = some h → h.slot = slot → handle.writes = false ∧ h.writes = false) →
      Shows header (state.opened ⟨state.volume.slotItem slot (item slot), handle.pos⟩ state.volume)
        (store.opened handle).2 := by
    intro handle place stands only
    have opened := holds.sane.open handle shown.unused fun q h isHandle same =>
      only q h isHandle (same.trans place)
    exact ⟨⟨opened.alone, opened.cutOpen⟩, item, l, shown.openKept isFile handle place stands⟩
  simp only [Simulates, fatCall, storeCall, isSlot, isFile]
  cases mode with
  | read =>
    have isOpen : openDescriptor state.volume (state.volume.slotItem slot (item slot)) .read =
        (⟨state.volume.slotItem slot (item slot), 0⟩, state.volume) := rfl
    rw [fat16Open_item isItem isOpen]
    refine ⟨by simp [storeOpen, FileStore.opened, isNew], kept ⟨slot, 0, false⟩ rfl ⟨Nat.zero_le _, ?_⟩ ?_⟩
    · exact fun writes => absurd writes (by simp)
    · exact fun q h isHandle place => ⟨rfl, (others q h isHandle place).2⟩
  | append =>
    have isOpen : openDescriptor state.volume (state.volume.slotItem slot (item slot)) .append =
        (⟨state.volume.slotItem slot (item slot), file.contents.length⟩, state.volume) := by
      simp only [openDescriptor, FatVolume.slotItem, fileShown.stands.filesize]
    rw [fat16Open_item isItem isOpen]
    refine ⟨by simp [storeOpen, FileStore.opened, isNew],
      kept ⟨slot, file.contents.length, true⟩ rfl ⟨Nat.le_refl _, fun _ => rfl⟩ fun q h isHandle place => ?_⟩
    exact absurd (others q h isHandle place).1 (by simp)
  | write =>
    obtain ⟨volume, result, freed⟩ := truncate_empty shown.mounted fileShown.writable fileShown.stands.chain 0
    have isOpen : openDescriptor state.volume (state.volume.slotItem slot (item slot)) .write =
        (⟨volume.slotItem slot (item slot).emptied, 0⟩, volume) := by
      simp only [openDescriptor, FatVolume.slotItem, result, freed.same.rootDirectory]
    rw [fat16Open_item isItem isOpen]
    have closed : ∀ q h, store.handles q = some h → h.slot ≠ slot := fun q h isHandle place =>
      absurd (others q h isHandle place).1 (by simp)
    refine ⟨?_, ?_, _, _, shown.openCut isFile closed freed false fun current => absurd current (by simp)⟩
    · have isNew' : (store.put slot (some (.empty false))
          (store.free ∪ file.clusters.filter (· < header.totalClusters))).newPtr = state.newPtr := isNew
      simp [storeOpen, FileStore.opened, isNew']
    · have opened := holds.sane.open ⟨slot, 0, true⟩ shown.unused fun q h isHandle place =>
        absurd place (closed q h isHandle)
      have cut := opened.put slot (some (.empty false))
        (store.free ∪ file.clusters.filter (· < header.totalClusters)) fun f _ _ =>
          ⟨store.newPtr, ⟨slot, 0, true⟩, by simp only [FileStore.hold, Function.update_self], rfl, rfl⟩
      exact ⟨cut.alone, cut.cutOpen⟩
  | invalid => exact absurd rfl valid

/-- `fat16_open` of a name that leads nowhere. -/
theorem open_absent (holds : Shows header state store) (isAbsent : store.slotOf name = none)
    (allowed : Allowed header store (.openFile name mode)) : Simulates header state store (.openFile name mode) := by
  obtain ⟨item, l, shown⟩ := holds.shown
  simp only [Allowed, isAbsent] at allowed
  obtain ⟨valid, room⟩ := allowed
  have absent : fat16FindItemInDirectory state.volume state.volume.rootDirectory name = none := by
    rw [FileStore.slotOf, ← shown.directory] at isAbsent
    rw [fat16FindItemInDirectory, isAbsent, Option.map_none]
  have isNew := shown.newPtr
  simp only [Simulates, fatCall, storeCall, isAbsent]
  by_cases creates : mode = .write ∨ mode = .append
  · have isRoom : store.freeSlot.isSome = true ∧ (newItem name).Live := by
      apply room.resolve_left
      intro reads
      rw [reads] at creates
      exact absurd creates (by decide)
    obtain ⟨isSome, live⟩ := isRoom
    obtain ⟨slot, isSlot⟩ := Option.isSome_iff_exists.mp isSome
    have isSlot' := isSlot
    rw [FileStore.freeSlot, ← shown.directory] at isSlot'
    obtain ⟨volume, result, mounted, written⟩ := createFile_writes shown.mounted isSlot' name
    have created := shown.create isSlot live mounted written
    have isItem : openItem state.volume [name] mode =
        (some (.ok (volume.slotItem slot (newItem name))), volume) := by
      simp only [openItem, fat16GetDirectoryEntry, absent, creates, if_true, result]
    have isFile : (FileStore.put { store with directory := store.directory.set slot (newItem name) } slot
        (some (.empty true)) store.free).files slot = some (.empty true) := Function.update_self ..
    have answer : (storeCreate store name slot).1 = some ((state.newPtr : Int), []) := by
      rw [← isNew]
      rfl
    have sane := shown.create_sane holds.sane isSlot name
    simp only [creates, if_true, isSlot]
    rw [answer]
    cases mode with
    | append =>
      have isOpen : openDescriptor volume (volume.slotItem slot (newItem name)) .append =
          (⟨volume.slotItem slot (newItem name), 0⟩, volume) := rfl
      rw [fat16Open_item isItem isOpen]
      have opened := created.openKept isFile ⟨slot, 0, true⟩ rfl ⟨Nat.le_refl _, fun _ => rfl⟩
      rw [Function.update_self] at opened
      exact ⟨rfl, sane, _, _, opened⟩
    | write =>
      have fileShown := created.files slot _ isFile
      have current : volume.entry slot = newItem name := by
        have stored := fileShown.stored rfl
        rwa [Function.update_self] at stored
      have inRoot := fileShown.inRoot
      have chain := fileShown.stands.chain
      have writable := fileShown.writable
      rw [Function.update_self] at chain writable
      obtain ⟨volume', cut, freed⟩ := truncate_empty mounted writable chain 0
      have isOpen : openDescriptor volume (volume.slotItem slot (newItem name)) .write =
          (⟨volume'.slotItem slot (newItem name).emptied, 0⟩, volume') := by
        simp only [openDescriptor, FatVolume.slotItem, cut, freed.same.rootDirectory]
      rw [fat16Open_item isItem isOpen]
      have opened := created.openCut isFile (shown.closed isSlot) freed true fun _ => by
        rw [freed.entry slot inRoot, Function.update_self, newItem_emptied, current]
      simp only [Function.update_self, FileStore.put, StoredFile.empty, Finset.filter_empty, Finset.union_empty,
        Function.update_idem] at opened
      exact ⟨rfl, sane, _, _, opened⟩
    | read => exact absurd creates (by decide)
    | invalid => exact absurd rfl valid
  · have isItem : openItem state.volume [name] mode = (some (.error (-eio)), state.volume) := by
      simp only [openItem, fat16GetDirectoryEntry, absent, creates, if_false]
    simp only [creates, if_false, fat16Open, isItem]
    exact ⟨rfl, ⟨holds.sane.alone, holds.sane.cutOpen⟩, item, l, shown.count⟩

end Opens

/-- A read moves one descriptor. -/
theorem fat16Read_moves {state : FatState} {ptr : Ptr} {descriptor : FatFileDescriptor}
    (isOpen : state.descriptors ptr = some descriptor) (size nmemb : Nat) :
    ∃ pos, (fat16Read state ptr size nmemb).2.2 = state.set ptr (some { descriptor with pos }) state.volume := by
  have unmoved : state = state.set ptr (some descriptor) state.volume := by
    rw [← isOpen, FatState.set, Function.update_eq_self]
  simp only [fat16Read, isOpen]
  cases descriptor.item.data with
  | directory _ => exact ⟨descriptor.pos, unmoved⟩
  | file item =>
    simp only
    split
    · exact ⟨descriptor.pos, unmoved⟩
    · split
      · exact ⟨descriptor.pos, unmoved⟩
      · exact ⟨_, rfl⟩

section Calls

variable {header : FatHeader} {state : FatState} {store : FileStore} {ptr : Ptr}

/-- `fat16_read`. -/
theorem read_shows (holds : Shows header state store) {size nmemb : Nat}
    (allowed : Allowed header store (.read ptr size nmemb)) :
    Simulates header state store (.read ptr size nmemb) := by
  obtain ⟨handle, file, isHeld, reads, sizePos, small, walkable⟩ := allowed
  obtain ⟨isHandle, isFile⟩ := FileStore.held_eq_some.mp isHeld
  obtain ⟨item, l, shown⟩ := holds.shown
  have fileShown := shown.files _ file isFile
  have handleShown := shown.handles ptr handle isHandle
  obtain ⟨other, isOther, stands⟩ := handleShown.place
  rw [isFile] at isOther
  cases isOther
  obtain ⟨state', result, isVolume, place, isOpen', -⟩ := fat16Read_contents shown.mounted fileShown.stands
    (fun c member => walkable c (by rw [fileShown.later]; exact List.mem_toFinset.mpr member))
    ⟨rfl, _, handleShown.isOpen, rfl⟩ stands.inFile sizePos small
  obtain ⟨pos, moved⟩ := fat16Read_moves handleShown.isOpen size nmemb
  rw [result] at moved
  simp only at moved
  rw [moved, set_descriptor] at isOpen'
  have isPos : pos = (readSpec file.contents handle.pos (size, nmemb)).2 :=
    congrArg FatFileDescriptor.pos (Option.some.inj isOpen')
  have opened := shown.hold handleShown.before (some { handle with pos }) fun h isMoved => by
    cases isMoved
    refine ⟨file, isFile, ?_, fun writes => ?_⟩
    · simp only [isPos]
      exact readSpec_inside size nmemb stands.inFile
    · simp only [reads] at writes
      exact absurd writes (by simp)
  simp only [Simulates, fatCall, storeCall, isHeld, result]
  simp only [Option.map_some, ← moved] at opened
  rw [isPos] at opened
  exact ⟨done_natCast _ _, holds.sane.move isHandle _, item, l, opened⟩

/-- `fat16_close`. -/
theorem close_shows (holds : Shows header state store) (allowed : Allowed header store (.close ptr)) :
    Simulates header state store (.close ptr) := by
  obtain ⟨⟨handle, file⟩, isHeld⟩ := Option.isSome_iff_exists.mp allowed
  obtain ⟨isHandle, isFile⟩ := FileStore.held_eq_some.mp isHeld
  obtain ⟨item, l, shown⟩ := holds.shown
  have handleShown := shown.handles ptr handle isHandle
  have dropped := shown.hold handleShown.before none fun h isNone => absurd isNone (by simp)
  simp only [Simulates, fatCall, storeCall, isHeld, fat16Close, handleShown.isOpen]
  refine ⟨rfl, holds.sane.close isHandle isFile store.free, ?_⟩
  by_cases lost : (handle.writes && !file.onDisk) = true
  · have writes := (Bool.and_eq_true_iff.mp lost).1
    rw [if_pos lost]
    have given := dropped.put handle.slot none (item handle.slot) [] (fun q h isLeft => by
        obtain ⟨other, isOther⟩ := FileStore.handles_drop isLeft
        exact holds.sane.others isHandle writes q h isOther other)
      shown.mounted rfl rfl (fun s f _ _ => ⟨rfl, rfl, rfl, fun _ _ => rfl, fun _ _ _ _ => rfl⟩)
      (fun f isNone => absurd isNone (by simp)) fun _ _ _ _ _ _ => List.not_mem_nil
    rw [shown.directory, ← shown.free] at given
    exact ⟨_, _, given⟩
  · rw [if_neg lost, FileStore.put, ← isFile, Function.update_eq_self]
    exact ⟨item, l, dropped⟩

/-- Every call that the store describes. -/
theorem call_shows (holds : Shows header state store) {call : StoreCall} (allowed : Allowed header store call) :
    Simulates header state store call := by
  cases call with
  | openFile name mode =>
    cases isSlot : store.slotOf name with
    | some slot => exact open_found holds isSlot allowed
    | none => exact open_absent holds isSlot allowed
  | write ptr request => exact write_shows holds allowed
  | read ptr size nmemb => exact read_shows holds allowed
  | close ptr => exact close_shows holds allowed

end Calls

/-! ## The space -/

/-- The clusters that are free or belong to a file. -/
def FileStore.space (header : FatHeader) (store : FileStore) : Nat :=
  store.free.card +
    ∑ slot ∈ Finset.range header.rootDirEntries, (store.files slot).elim 0 fun file => file.clusters.card

/-- The clusters of the files are among those that the driver searches. -/
def FileStore.Searched (header : FatHeader) (store : FileStore) : Prop :=
  ∀ slot file, store.files slot = some file → ∀ c ∈ file.clusters, c < header.totalClusters

section Space

variable {header : FatHeader} {state : FatState} {store : FileStore} {slot : Nat} {file : StoredFile}

theorem FileStore.space_put (inRoot : slot < header.rootDirEntries) (changed : Option StoredFile) (free : Finset Nat)
    (same : free.card + changed.elim 0 (fun file => file.clusters.card) =
      store.free.card + (store.files slot).elim 0 fun file => file.clusters.card) :
    (store.put slot changed free).space header = store.space header := by
  have member : slot ∈ Finset.range header.rootDirEntries := Finset.mem_range.mpr inRoot
  have others : ∀ s ∈ Finset.range header.rootDirEntries \ {slot},
      (Function.update store.files slot changed s).elim 0 (fun file => file.clusters.card) =
        (store.files s).elim 0 fun file => file.clusters.card := by
    intro s isOther
    have different : s ≠ slot := by simpa using (Finset.mem_sdiff.mp isOther).2
    rw [Function.update_of_ne different]
  simp only [FileStore.space, FileStore.put]
  rw [Finset.sum_eq_add_sum_sdiff_singleton_of_mem member, Finset.sum_eq_add_sum_sdiff_singleton_of_mem member,
    Function.update_self, Finset.sum_congr rfl others, ← Nat.add_assoc, same, Nat.add_assoc]

theorem FileStore.Searched.put (searched : store.Searched header) (slot : Nat) (changed : Option StoredFile)
    (free : Finset Nat) (inside : ∀ file, changed = some file → ∀ c ∈ file.clusters, c < header.totalClusters) :
    (store.put slot changed free).Searched header := by
  intro s f isFile
  simp only [FileStore.put, Function.update_apply] at isFile
  by_cases here : s = slot
  · rw [if_pos here] at isFile
    exact inside f isFile
  · rw [if_neg here] at isFile
    exact searched s f isFile

/-- The clusters of a file are as many as its contents need, and none of them is free. -/
theorem Shows.clusters (holds : Shows header state store) (isFile : store.files slot = some file) :
    slot < header.rootDirEntries ∧ file.clusters.card = header.clustersFor file.contents.length ∧
      Disjoint store.free file.clusters := by
  obtain ⟨item, l, shown⟩ := holds.shown
  have fileShown := shown.files slot file isFile
  refine ⟨?_, ?_, Finset.disjoint_left.mpr fun c isFree member => ?_⟩
  · rw [← shown.header]
    exact fileShown.inRoot
  · rw [fileShown.card_clusters, fileShown.stands.length, shown.header]
  · rw [shown.free] at isFree
    rw [fileShown.clusters, List.mem_toFinset] at member
    exact fileShown.stands.chain.not_mem_of_free isFree member

/-- A file that was cut has no clusters. -/
theorem Shows.no_clusters (holds : Shows header state store) (isFile : store.files slot = some file)
    (behind : file.onDisk = false) : file.clusters = ∅ := by
  obtain ⟨item, l, shown⟩ := holds.shown
  have fileShown := shown.files slot file isFile
  have length := fileShown.stands.length
  rw [fileShown.cut behind, List.length_nil, clustersFor_zero shown.mounted.clusterSize_pos] at length
  rw [fileShown.clusters, List.length_eq_zero_iff.mp length, List.toFinset_nil]

/-- The space, counted on the volume. -/
theorem Shows.space (holds : Shows header state store) :
    store.space header = state.volume.freeClusters.card + ∑ slot ∈ Finset.range header.rootDirEntries,
      (store.files slot).elim 0 fun file => header.clustersFor file.contents.length := by
  obtain ⟨item, l, shown⟩ := holds.shown
  rw [FileStore.space, shown.free]
  apply congrArg
  apply Finset.sum_congr rfl
  intro slot _
  cases isFile : store.files slot with
  | none => rfl
  | some file => exact (holds.clusters isFile).2.1

theorem Shows.freeSlot (holds : Shows header state store) (isSlot : store.freeSlot = some slot) :
    slot < header.rootDirEntries ∧ store.files slot = none := by
  obtain ⟨item, l, shown⟩ := holds.shown
  constructor
  · have inRange := (List.findIdx?_eq_some_iff_findIdx_eq.mp isSlot).1
    rwa [← shown.directory, shown.mounted.length, shown.header] at inRange
  · cases isFile : store.files slot with
    | none => rfl
    | some file => exact absurd rfl (shown.vacant isSlot slot file isFile)

theorem Shows.free_searched (holds : Shows header state store) {c : Nat} (isFree : c ∈ store.free) :
    c < header.totalClusters := by
  obtain ⟨item, l, shown⟩ := holds.shown
  rw [shown.free] at isFree
  rw [← shown.header]
  exact (mem_freeClusters.mp isFree).2.1

/-- Free clusters that are given to a file are counted there. -/
theorem card_taken {free owned taken : Finset Nat} (inside : taken ⊆ free) (disjoint : Disjoint free owned) :
    (free \ (owned ∪ taken)).card + (owned ∪ taken).card = free.card + owned.card := by
  rw [← Finset.card_union_of_disjoint Finset.sdiff_disjoint, Finset.sdiff_union_self_eq_union,
    ← Finset.card_union_of_disjoint disjoint, Finset.union_comm owned, ← Finset.union_assoc,
    Finset.union_eq_left.mpr inside]

/-- No call makes a cluster disappear. -/
theorem call_space (holds : Shows header state store) (searched : store.Searched header) {call : StoreCall}
    (allowed : Allowed header store call) :
    (storeCall header store call).2.space header = store.space header ∧
      (storeCall header store call).2.Searched header := by
  have empty : ∀ {onDisk : Bool} (file : StoredFile), some (.empty onDisk) = some file →
      ∀ c ∈ file.clusters, c < header.totalClusters := by
    intro onDisk file isNew c member
    cases isNew
    exact absurd member (Finset.notMem_empty c)
  cases call with
  | openFile name mode =>
    simp only [storeCall]
    cases isSlot : store.slotOf name with
    | none =>
      simp only
      by_cases creates : mode = .write ∨ mode = .append
      · simp only [creates, if_true]
        cases isFree : store.freeSlot with
        | none => exact ⟨rfl, searched⟩
        | some slot =>
          obtain ⟨inRoot, isNone⟩ := holds.freeSlot isFree
          exact ⟨FileStore.space_put inRoot (some (.empty true)) store.free (by simp [isNone, StoredFile.empty]),
            searched.put slot (some (.empty true)) store.free empty⟩
      · simp only [creates, if_false]
        exact ⟨rfl, searched⟩
    | some slot =>
      simp only
      cases isFile : store.files slot with
      | none => exact ⟨rfl, searched⟩
      | some file =>
        obtain ⟨inRoot, -, disjoint⟩ := holds.clusters isFile
        cases mode with
        | write =>
          have all : file.clusters.filter (· < header.totalClusters) = file.clusters :=
            Finset.filter_true_of_mem (searched slot file isFile)
          simp only [storeOpen, all]
          refine ⟨FileStore.space_put inRoot (some (.empty false)) (store.free ∪ file.clusters) ?_,
            searched.put slot (some (.empty false)) (store.free ∪ file.clusters) empty⟩
          rw [Finset.card_union_of_disjoint disjoint, isFile]
          simp [StoredFile.empty]
        | read => exact ⟨rfl, searched⟩
        | append => exact ⟨rfl, searched⟩
        | invalid => exact ⟨rfl, searched⟩
  | write ptr request =>
    obtain ⟨handle, file, isHeld, -⟩ := allowed
    obtain ⟨-, isFile⟩ := FileStore.held_eq_some.mp isHeld
    obtain ⟨inRoot, -, disjoint⟩ := holds.clusters isFile
    simp only [storeCall, isHeld]
    by_cases grows : file.Grows header
    · rw [if_pos grows]
      refine ⟨FileStore.space_put inRoot (some (file.append header store.free request.data)) _ ?_,
        searched.put handle.slot (some (file.append header store.free request.data))
          (store.free \ (file.append header store.free request.data).clusters) fun appended isNew c member => ?_⟩
      · rw [isFile]
        exact card_taken (Finset.filter_subset _ _) disjoint
      · cases isNew
        cases Finset.mem_union.mp member with
        | inl old => exact searched _ file isFile c old
        | inr taken => exact holds.free_searched (Finset.mem_filter.mp taken).1
    · rw [if_neg grows]
      exact ⟨rfl, searched⟩
  | read ptr size nmemb =>
    obtain ⟨handle, file, isHeld, -⟩ := allowed
    simp only [storeCall, isHeld]
    exact ⟨rfl, searched⟩
  | close ptr =>
    obtain ⟨⟨handle, file⟩, isHeld⟩ := Option.isSome_iff_exists.mp allowed
    obtain ⟨-, isFile⟩ := FileStore.held_eq_some.mp isHeld
    simp only [storeCall, isHeld]
    by_cases lost : (handle.writes && !file.onDisk) = true
    · rw [if_pos lost]
      refine ⟨FileStore.space_put (holds.clusters isFile).1 none store.free ?_,
        searched.put handle.slot none store.free fun f isNone => absurd isNone (by simp)⟩
      have behind : file.onDisk = false := by
        have both := Bool.and_eq_true_iff.mp lost
        simpa using both.2
      simp [isFile, holds.no_clusters isFile behind]
    · rw [if_neg lost, FileStore.put, ← isFile, Function.update_eq_self]
      exact ⟨rfl, searched⟩

end Space

/-! ## Runs -/

section Runs

variable {header : FatHeader} {state : FatState} {store : FileStore}

/-- On the exact store the driver answers every run of calls as the store of files does, and holds that store
of files at its end. -/
theorem fatCalls_refine (holds : Shows header state store) (calls : List StoreCall)
    (allowed : EveryAllowed (storeCall header) (Allowed header) store calls) :
    (specOps fatCall state calls).1 = (specOps (storeCall header) store calls).1 ∧
      Shows header (specOps fatCall state calls).2 (specOps (storeCall header) store calls).2 :=
  @specOps_refines _ _ _ _ fatCall (storeCall header) (Allowed header) (Shows header)
    (fun _ _ _ related isAllowed => call_shows related isAllowed) calls state store holds allowed

/-- The clusters that the driver can give away are, in every run, those that were free or in a file at the
start, less those that the contents of the files now need. -/
theorem clusters_accounted (holds : Shows header state store) (searched : store.Searched header)
    (calls : List StoreCall) (allowed : EveryAllowed (storeCall header) (Allowed header) store calls) :
    (specOps fatCall state calls).2.volume.freeClusters.card +
        (∑ slot ∈ Finset.range header.rootDirEntries,
          ((specOps (storeCall header) store calls).2.files slot).elim 0 fun file =>
            header.clustersFor file.contents.length) =
      state.volume.freeClusters.card +
        ∑ slot ∈ Finset.range header.rootDirEntries,
          (store.files slot).elim 0 fun file => header.clustersFor file.contents.length := by
  have run := @specOps_refines _ _ _ _ fatCall (storeCall header) (Allowed header)
    (fun state later => Shows header state later ∧ later.Searched header ∧ later.space header = store.space header)
    (fun s a call related isAllowed => by
      obtain ⟨isShown, isSearched, same⟩ := related
      obtain ⟨answer, isShown'⟩ := call_shows isShown isAllowed
      obtain ⟨same', isSearched'⟩ := call_space isShown isSearched isAllowed
      exact ⟨answer, isShown', isSearched', same'.trans same⟩)
    calls state store ⟨holds, searched, rfl⟩ allowed
  rw [← run.2.1.space, ← holds.space, run.2.2.2]

end Runs

/-! ## Two files -/

/-- The store of the volume with one file of three bytes. -/
def oneFileStore : FileStore where
  directory := oneFileVolume.rootDirectory.item
  files := fun slot => if slot = 0 then some ⟨[7, 7, 7], {2}, ∅, true⟩ else none
  handles := fun _ => none
  free := oneFileVolume.freeClusters
  next := 0

/-- The file is continued while a second one is written. -/
def twoFiles : List StoreCall :=
  [.openFile txtName .append, .openFile [0x42] .write, .write 4096 ⟨[8], 1, 1⟩, .write 8192 ⟨[9], 1, 1⟩]

theorem oneFileStore_shows : Shows oneFileVolume.header ⟨oneFileVolume, fun _ => none, 0⟩ oneFileStore where
  sane := ⟨fun _ _ _ _ isHandle => absurd isHandle (by simp [oneFileStore]), fun slot file isFile behind => by
    simp only [oneFileStore] at isFile
    split at isFile
    · cases isFile
      exact absurd behind (by simp)
    · exact absurd isFile (by simp)⟩
  shown := by
    refine ⟨oneFileVolume.entry, fun _ => [2], rfl, oneFileVolume_mounted, rfl, rfl, rfl, ?_, ?_, ?_⟩
    · intro slot file isFile
      simp only [oneFileStore] at isFile
      split at isFile
      next first =>
        subst first
        cases isFile
        exact ⟨by decide, fun entry isEntry => by cases isEntry; decide, oneFileVolume_file, rfl, rfl,
          fun _ => rfl, fun behind => absurd behind (by simp), oneFileVolume_entry.writable,
          oneFileVolume_entry.isFile⟩
      · exact absurd isFile (by simp)
    · intro s t f g isFile isOther different
      simp only [oneFileStore] at isFile isOther
      split at isFile
      next first =>
        split at isOther
        next second => exact absurd (first.trans second.symm) different
        · exact absurd isOther (by simp)
      · exact absurd isFile (by simp)
    · exact fun ptr handle isHandle => absurd isHandle (by simp [oneFileStore])

theorem twoFiles_allowed :
    EveryAllowed (storeCall oneFileVolume.header) (Allowed oneFileVolume.header) oneFileStore twoFiles := by
  have isFirst : oneFileStore.slotOf txtName = some 0 := by decide +kernel
  have isAbsent : (oneFileStore.opened ⟨0, 3, true⟩).2.slotOf [0x42] = none := by decide +kernel
  have isSecond : (oneFileStore.opened ⟨0, 3, true⟩).2.freeSlot = some 1 := by decide +kernel
  have opened : storeCall oneFileVolume.header oneFileStore (.openFile txtName .append) =
      oneFileStore.opened ⟨0, 3, true⟩ := by
    simp only [storeCall, isFirst]
    rfl
  have created : storeCall oneFileVolume.header (oneFileStore.opened ⟨0, 3, true⟩).2 (.openFile [0x42] .write) =
      storeCreate (oneFileStore.opened ⟨0, 3, true⟩).2 [0x42] 1 := by
    simp only [storeCall, isAbsent, isSecond, true_or, if_true]
  have isHeld : (storeCreate (oneFileStore.opened ⟨0, 3, true⟩).2 [0x42] 1).2.held 4096 =
      some (⟨0, 3, true⟩, ⟨[7, 7, 7], {2}, ∅, true⟩) := rfl
  have grows : StoredFile.Grows oneFileVolume.header ⟨[7, 7, 7], {2}, ∅, true⟩ := by decide
  simp only [twoFiles, EveryAllowed, opened, created]
  refine ⟨⟨by decide, ?_⟩, ⟨by decide, ?_⟩, ?_, ?_, trivial⟩
  · rw [isFirst]
    exact ⟨rfl, fun ptr handle isHandle => absurd isHandle (by simp [oneFileStore])⟩
  · rw [isAbsent, isSecond]
    exact .inr ⟨rfl, by decide⟩
  · exact ⟨_, _, isHeld, rfl, ⟨by decide, by decide, by decide⟩, by decide +kernel⟩
  · simp only [storeCall, isHeld, if_pos grows]
    exact ⟨⟨1, 0, true⟩, .empty true, rfl, rfl, ⟨by decide, by decide, by decide⟩, by decide +kernel⟩

theorem twoFiles_refine :
    (specOps fatCall ⟨oneFileVolume, fun _ => none, 0⟩ twoFiles).1 =
        (specOps (storeCall oneFileVolume.header) oneFileStore twoFiles).1 ∧
      Shows oneFileVolume.header (specOps fatCall ⟨oneFileVolume, fun _ => none, 0⟩ twoFiles).2
        (specOps (storeCall oneFileVolume.header) oneFileStore twoFiles).2 :=
  fatCalls_refine oneFileStore_shows twoFiles twoFiles_allowed

theorem twoFiles_accounted :
    (specOps fatCall ⟨oneFileVolume, fun _ => none, 0⟩ twoFiles).2.volume.freeClusters.card +
        (∑ slot ∈ Finset.range oneFileVolume.header.rootDirEntries,
          ((specOps (storeCall oneFileVolume.header) oneFileStore twoFiles).2.files slot).elim 0 fun file =>
            oneFileVolume.header.clustersFor file.contents.length) =
      oneFileVolume.freeClusters.card +
        ∑ slot ∈ Finset.range oneFileVolume.header.rootDirEntries,
          (oneFileStore.files slot).elim 0 fun file => oneFileVolume.header.clustersFor file.contents.length := by
  have searched : oneFileStore.Searched oneFileVolume.header := by
    intro slot file isFile c member
    simp only [oneFileStore] at isFile
    split at isFile
    · cases isFile
      rw [Finset.mem_singleton.mp member]
      decide
    · exact absurd isFile (by simp)
  exact clusters_accounted oneFileStore_shows searched twoFiles twoFiles_allowed

end ViOS.Fs
