import ViOS.Fs.AppendWrites
import ViOS.Fs.ChainRead
import ViOS.Fs.ShortNames

/-! # Files written and read back

A file of the root directory is opened for writing, written by a series of calls, closed,
opened again and read.  The entry is looked up in the directory that was cached at the mount
and read again from the disk, and the reads walk the chain from its first cluster.  The results
are about the driver on the exact store; below `streamer.c` a write also takes other bytes of
the sectors it touches with it, of the table and of other files among them.

* `readSpec`, `ReadsBack`, `readsBack_iff` — reading, against the contents.
* `OpensFor`, `open_written` — the files that can be opened for writing, and their descriptors.
* `reopen_read` — the lookup of the entry that was stored.
* `roundTrip_iff` — the series of writes that come back.
-/

namespace ViOS.Fs

open ViOS.Lib

/-! ## Reading -/

/-- What one `fat16_read` should do at a position of a file with the given contents. -/
def readSpec (contents : List UInt8) (pos : Nat) (request : Nat × Nat) : (Option Int × List UInt8) × Nat :=
  let items := min request.2 ((contents.length - pos) / request.1)
  ((some (items : Int), (contents.drop pos).take (items * request.1)), pos + items * request.1)

/-- Calls of `fat16_read` on one descriptor, one after the other: what they return and store. -/
def readAll (ptr : Ptr) (state : FatState) (requests : List (Nat × Nat)) :
    List (Option Int × List UInt8) × FatState :=
  specOps (fun state request =>
    let (status, bytes, state) := fat16Read state ptr request.1 request.2
    ((status, bytes), state)) state requests

/-- The reads of a descriptor return the contents, whatever sizes they are asked in. -/
def ReadsBack (state : FatState) (ptr : Ptr) (contents : List UInt8) : Prop :=
  ∀ requests : List (Nat × Nat), (∀ request ∈ requests, 0 < request.1 ∧ request.1 * request.2 < 2 ^ 32) →
    (readAll ptr state requests).1 = (specOps (readSpec contents) 0 requests).1

section Reads

variable {volume : FatVolume} {item : FatDirectoryItem} {l : List Nat} {contents : List UInt8}

/-- The table leads from the head of a chain to each of its clusters. -/
theorem ChainFrom.iterate {head : Nat} (chain : ChainFrom volume head l) (k : Nat) :
    ∀ inside : k < l.length, volume.fat^[k] head = l[k] := by
  induction k with
  | zero =>
    intro inside
    exact (chain.getElem_zero inside).symm
  | succ k ih =>
    intro inside
    rw [Function.iterate_succ_apply', ih (by omega), chain.chain.next_getElem inside]

theorem clusterOnDisk (mounted : Mounted volume) {cluster : Nat} (isCluster : volume.IsCluster cluster) :
    volume.ClusterOnDisk cluster := by
  have position := clusterPosition_eq mounted isCluster.1 0
  have inside := mounted.cluster_inside isCluster
  have small := mounted.consistent.small
  simp only [Nat.cast_zero, Int.add_zero, Nat.add_zero] at position
  exact ⟨by omega, by omega, by omega⟩

/-- The bytes of the chain, as the reads see them. -/
theorem streamByte_eq (mounted : Mounted volume) {head k : Nat} (chain : ChainFrom volume head l)
    (inside : k / volume.header.clusterSize < l.length) :
    volume.streamByte head k = volume.chainByte l k := by
  have isCluster := chain.clusters _ (List.getElem_mem inside)
  have position := clusterPosition_eq mounted isCluster.1 0
  simp only [Nat.cast_zero, Int.add_zero, Nat.add_zero] at position
  simp only [FatVolume.streamByte, FatVolume.chainByte, FatVolume.byteAt, FatVolume.clustersAhead]
  rw [chain.iterate _ inside, List.getD_eq_getElem _ _ inside, position, Int.toNat_natCast]

theorem FileAt.inside (positive : 0 < volume.header.clusterSize) (file : FileAt volume item l contents) {k : Nat}
    (below : k < contents.length) : k / volume.header.clusterSize < l.length := by
  apply (Nat.div_lt_iff_lt_mul positive).mpr
  rw [file.length]
  exact Nat.lt_of_lt_of_le below (le_clustersFor positive _)

/-- The first cluster is not changed on its way to the lookup. -/
theorem FileAt.first_eq (mounted : Mounted volume) (file : FileAt volume item l contents) :
    asInt (fat16GetFirstCluster item) = (fat16GetFirstCluster item : Nat) ∧
      toUInt16 (fat16GetFirstCluster item : Nat) = fat16GetFirstCluster item := by
  have small : fat16GetFirstCluster item < 65526 := by
    by_cases zero : fat16GetFirstCluster item = 0
    · omega
    · exact (file.chain.clusters _ (file.chain.head_mem zero)).lt mounted
  exact ⟨asInt_eq (by omega), toUInt16_eq (by omega)⟩

/-- The lookups inside the contents succeed if no later cluster is refused. -/
theorem FileAt.covers (mounted : Mounted volume) (file : FileAt volume item l contents)
    (walkable : ∀ c ∈ l.tail, Walkable c) {offset total : Nat} (inside : offset + total ≤ contents.length) :
    Covers volume (fat16GetFirstCluster item : Nat) offset total := by
  intro o lower upper
  have inFile := file.inside mounted.clusterSize_pos (show o < contents.length by omega)
  have notEmpty : 0 < l.length := Nat.lt_of_le_of_lt (Nat.zero_le _) inFile
  have walk := clusterWalk_eq mounted file.chain walkable (o / volume.header.clusterSize) notEmpty
    (by rw [Nat.zero_add]; exact inFile)
  simp only [Nat.zero_add] at walk
  refine ⟨l[o / volume.header.clusterSize], ?_, clusterOnDisk mounted (file.chain.clusters _ (List.getElem_mem _))⟩
  rw [getClusterForOffset_eq mounted file.chain notEmpty, walk]

/-- A slice of the chain is a slice of the contents. -/
theorem FileAt.slice (mounted : Mounted volume) (file : FileAt volume item l contents) {offset total : Nat}
    (inside : offset + total ≤ contents.length) :
    volume.streamSlice (fat16GetFirstCluster item) offset total = (contents.drop offset).take total := by
  apply List.ext_getElem
  · simp only [streamSlice_length, List.length_take, List.length_drop]
    omega
  · intro i inSlice inContents
    rw [streamSlice_length] at inSlice
    have below : offset + i < contents.length := by omega
    simp only [FatVolume.streamSlice, List.getElem_map, List.getElem_range, List.getElem_take, List.getElem_drop]
    rw [streamByte_eq mounted file.chain (file.inside mounted.clusterSize_pos below), file.bytes _ below,
      List.getD_eq_getElem _ _ below]

end Reads

/-- A descriptor of a file, at a position of its contents. -/
structure ReadAt (state : FatState) (ptr : Ptr) (volume : FatVolume) (item : FatDirectoryItem) (pos : Nat) :
    Prop where
  isVolume : state.volume = volume
  isOpen : ∃ place, state.descriptors ptr = some ⟨place, pos⟩ ∧ place.data = .file item

section Descriptor

variable {state : FatState} {ptr : Ptr} {volume : FatVolume} {item : FatDirectoryItem} {l : List Nat}
  {contents : List UInt8} {pos : Nat}

/-- One `fat16_read` of a file whose later clusters can be walked over. -/
theorem fat16Read_contents (mounted : Mounted volume) (file : FileAt volume item l contents)
    (walkable : ∀ c ∈ l.tail, Walkable c) (readAt : ReadAt state ptr volume item pos) (inFile : pos ≤ contents.length)
    {size nmemb : Nat} (sizePos : 0 < size) (small : size * nmemb < 2 ^ 32) :
    ∃ state', fat16Read state ptr size nmemb =
        ((readSpec contents pos (size, nmemb)).1.1, (readSpec contents pos (size, nmemb)).1.2, state') ∧
      ReadAt state' ptr volume item (readSpec contents pos (size, nmemb)).2 := by
  obtain ⟨isVolume, place, isOpen, isFile⟩ := readAt
  subst isVolume
  obtain ⟨items, isItems⟩ : ∃ n, n = itemsLeft item pos size nmemb := ⟨_, rfl⟩
  have isLeft : min nmemb ((contents.length - pos) / size) = items := by
    rw [isItems, itemsLeft, file.filesize]
  have inside : pos + items * size ≤ contents.length := by
    rw [isItems, ← file.filesize]
    exact itemsLeft_inside size nmemb (by rw [file.filesize]; exact inFile)
  have bytesLt := file.chain.bytes_lt mounted
  have long := le_clustersFor mounted.clusterSize_pos contents.length
  rw [← file.length] at long
  obtain ⟨isFirst, isHead⟩ := file.first_eq mounted
  have loop := @readItemsLoop_slice state.volume (fat16GetFirstCluster item : Nat) size mounted.clusterSize_pos
    items pos (by omega) (file.covers mounted walkable inside)
  rw [isHead, file.slice mounted inside] at loop
  have result := fat16Read_file isOpen isFile sizePos small
  rw [isFirst, ← isItems, loop] at result
  simp only [readSpec, isLeft]
  by_cases none : items = 0
  · refine ⟨state, ?_, rfl, place, ?_, isFile⟩
    · rw [result, if_pos none, none]
      simp
    · rw [none, isOpen]
      simp
  · refine ⟨state.set ptr (some ⟨place, (pos + items * size) % 2 ^ 32⟩) state.volume, ?_, rfl, place, ?_, isFile⟩
    · rw [result, if_neg none, if_neg (lt_irrefl 0)]
    · rw [set_descriptor, Nat.mod_eq_of_lt (by omega)]

/-- A read of everything fails if a later cluster is refused. -/
theorem fat16Read_refused (mounted : Mounted volume) (file : FileAt volume item l contents)
    (refused : ¬ ∀ c ∈ l.tail, Walkable c) (readAt : ReadAt state ptr volume item 0) :
    ∃ res < 0, (fat16Read state ptr 1 contents.length).1 = some res := by
  obtain ⟨isVolume, place, isOpen, isFile⟩ := readAt
  subst isVolume
  have positive := mounted.clusterSize_pos
  have bytesLt := file.chain.bytes_lt mounted
  have long := le_clustersFor positive contents.length
  rw [← file.length] at long
  have some : 0 < contents.length := by
    by_contra none
    have empty : l = [] := by
      apply List.length_eq_zero_iff.mp
      rw [file.length, show contents.length = 0 by omega, clustersFor_zero positive]
    exact refused (by simp [empty])
  obtain ⟨isFirst, -⟩ := file.first_eq mounted
  have isLeft : itemsLeft item 0 1 contents.length = contents.length := by
    simp only [itemsLeft, file.filesize, Nat.sub_zero, Nat.div_one, min_self]
  have notEmpty := file.chain.length_pos (file.first_ne_zero positive (by omega))
  -- the last byte is in the last cluster, behind the one that is refused
  have atEnd : l.length ≤ (contents.length - 1) / state.volume.header.clusterSize + 1 := by
    rw [file.length, clustersFor_eq positive some]
  have negative : fat16GetClusterForOffset state.volume (fat16GetFirstCluster item : Nat)
      (0 + contents.length * 1 - 1 : Nat) < 0 := by
    rw [getClusterForOffset_eq mounted file.chain notEmpty, Nat.zero_add, Nat.mul_one]
    by_contra found
    exact refused ((lookup_reaches_iff mounted file.chain notEmpty atEnd).mp (by omega)).2
  have fails := readItemsLoop_fails positive Nat.one_ne_zero contents.length (by omega) (by omega) negative
  refine ⟨_, fails, ?_⟩
  rw [fat16Read_file isOpen isFile Nat.one_pos (by omega)]
  simp only [isFirst, isLeft, show ¬ contents.length = 0 by omega, if_false]
  rw [if_pos fails]

theorem readSpec_inside (size nmemb : Nat) (inFile : pos ≤ contents.length) :
    (readSpec contents pos (size, nmemb)).2 ≤ contents.length := by
  have quotient := Nat.mul_le_mul_right size (Nat.min_le_right nmemb ((contents.length - pos) / size))
  have product := Nat.div_mul_le_self (contents.length - pos) size
  simp only [readSpec]
  omega

/-- The reads of a file return its contents exactly if no later cluster of the file is refused. -/
theorem readsBack_iff (mounted : Mounted volume) (file : FileAt volume item l contents)
    (readAt : ReadAt state ptr volume item 0) :
    ReadsBack state ptr contents ↔ ∀ c ∈ l.tail, Walkable c := by
  constructor
  · intro readsBack
    by_contra refused
    have bytesLt := file.chain.bytes_lt mounted
    have long := le_clustersFor mounted.clusterSize_pos contents.length
    rw [← file.length] at long
    obtain ⟨res, negative, result⟩ := fat16Read_refused mounted file refused readAt
    have right := readsBack [(1, contents.length)] (by
      intro request isIt
      rw [List.mem_singleton.mp isIt]
      exact ⟨Nat.one_pos, by omega⟩)
    simp only [readAll, specOps, readSpec, result, List.cons.injEq, Prod.mk.injEq, Option.some.injEq] at right
    omega
  · intro walkable requests
    have run : ∀ {state : FatState} {pos : Nat}, ReadAt state ptr volume item pos → pos ≤ contents.length →
        (∀ request ∈ requests, 0 < request.1 ∧ request.1 * request.2 < 2 ^ 32) →
        (readAll ptr state requests).1 = (specOps (readSpec contents) pos requests).1 := by
      induction requests with
      | nil => exact fun _ _ _ => rfl
      | cons request rest ih =>
        intro state pos readAt inFile small
        obtain ⟨sizePos, product⟩ := small request List.mem_cons_self
        obtain ⟨state', result, readAt'⟩ :=
          fat16Read_contents mounted file walkable readAt inFile sizePos product
        have rest' := ih readAt' (readSpec_inside _ _ inFile) fun r member => small r (List.mem_cons_of_mem _ member)
        simp only [readAll, specOps, result]
        exact congrArg _ rest'
    exact run readAt (Nat.zero_le _)

end Descriptor

/-! ## Opening for writing -/

/-- The name leads to an entry of a file that can be written. -/
structure WritableEntry (volume : FatVolume) (name : CStr) (slot : Nat) : Prop where
  found : findItemLoop name 0 volume.rootDirectory.item = some slot
  writable : (volume.entry slot).attr &&& fatFileReadOnly = 0
  isFile : (volume.entry slot).attr &&& fatFileSubdirectory = 0

/-- A file that is opened for writing, with the clusters and the contents the writes begin with. -/
inductive OpensFor (volume : FatVolume) (name : CStr) : FileMode → List Nat → List UInt8 → Prop
  | created {mode : FileMode} (writes : mode = .write ∨ mode = .append)
      (absent : fat16FindItemInDirectory volume volume.rootDirectory name = none)
      (room : RootHasRoom volume) (short : ShortName name) : OpensFor volume name mode [] []
  | truncated {slot : Nat} {l : List Nat} (entry : WritableEntry volume name slot)
      (chain : ChainFrom volume (fat16GetFirstCluster (volume.entry slot)) l) :
      OpensFor volume name .write [] []
  | continued {slot : Nat} {l : List Nat} {contents : List UInt8} (entry : WritableEntry volume name slot)
      (file : FileAt volume (volume.entry slot) l contents) : OpensFor volume name .append l contents

section Open

variable {volume : FatVolume} {name : CStr} {slot : Nat}

theorem lt_of_findItemLoop {items : List FatDirectoryItem} :
    ∀ {i slot : Nat}, findItemLoop name i items = some slot → slot < i + items.length := by
  induction items with
  | nil => exact fun isFound => absurd isFound (by simp [findItemLoop])
  | cons item rest ih =>
    intro i slot isFound
    rw [findItemLoop] at isFound
    rw [List.length_cons]
    split at isFound
    · exact absurd isFound (by simp)
    · split at isFound
      · have later := ih isFound
        omega
      · split at isFound
        · obtain rfl := Option.some.inj isFound
          omega
        · have later := ih isFound
          omega

theorem inRoot_of_found (mounted : Mounted volume)
    (isFound : findItemLoop name 0 volume.rootDirectory.item = some slot) :
    slot < volume.header.rootDirEntries := by
  have below := lt_of_findItemLoop isFound
  rwa [Nat.zero_add, mounted.length] at below

/-- The item that `fat16_open` works on, when the name leads to a file of the root directory. -/
theorem openItem_found (mounted : Mounted volume)
    (isFound : findItemLoop name 0 volume.rootDirectory.item = some slot)
    (isFile : (volume.entry slot).attr &&& fatFileSubdirectory = 0) (mode : FileMode) :
    openItem volume [name] mode = (some (.ok (volume.slotItem slot (volume.entry slot))), volume) := by
  have lookup := findItem_of_index mounted (inRoot_of_found mounted isFound) isFound
  rw [fat16NewFatItemForDirectoryItem, if_neg fun isDirectory => isDirectory isFile] at lookup
  simp only [openItem, fat16GetDirectoryEntry, lookup, directoryEntryLoop]
  rfl

/-- The new entry is the one its name leads to. -/
theorem Created.found {before after : List FatDirectoryItem} {volume' : FatVolume} (component : IsComponent name)
    (short : ShortName name) (absent : fat16FindItemInDirectory volume volume.rootDirectory name = none)
    (created : Created volume name before after volume') :
    findItemLoop name 0 volume'.rootDirectory.item = some before.length := by
  obtain ⟨old, split⟩ := created.old
  have notFound : findItemLoop name 0 (before ++ old :: after) = none := by
    rw [← split]
    exact Option.map_eq_none_iff.mp absent
  have passed := not_matches_of_findItemLoop created.used notFound
  have behind : findItemLoop name 0 (before ++ newItem name :: after) = some (0 + before.length) :=
    (findItemLoop_behind_iff (newItem_live component) created.used).mpr
      ⟨passed, (newItem_matches_iff component).mpr short⟩
  rwa [Nat.zero_add, ← created.new] at behind

/-- The entry of a file that was cut to nothing. -/
def FatDirectoryItem.emptied (item : FatDirectoryItem) : FatDirectoryItem :=
  { item.withFirstCluster 0 with filesize := 0 }

theorem emptied_first (item : FatDirectoryItem) : fat16GetFirstCluster item.emptied = 0 := by
  simp [fat16GetFirstCluster, FatDirectoryItem.emptied, FatDirectoryItem.withFirstCluster]

theorem emptied_filesize (item : FatDirectoryItem) : item.emptied.filesize = 0 := by
  simp only [FatDirectoryItem.emptied]

theorem newItem_empty (name : CStr) :
    fat16GetFirstCluster (newItem name) = 0 ∧ (newItem name).filesize = 0 := by
  simp [fat16GetFirstCluster, newItem, FatDirectoryItem.zero, FatDirectoryItem.ofBytes, littleEndian]

/-- A file without contents. -/
theorem FileAt.nil (positive : 0 < volume.header.clusterSize) {item : FatDirectoryItem}
    (first : fat16GetFirstCluster item = 0) (filesize : item.filesize = 0) : FileAt volume item [] [] where
  chain := ⟨first.symm, trivial, List.nodup_nil, fun _ member => absurd member List.not_mem_nil⟩
  length := (clustersFor_zero positive).symm
  filesize := by
    rw [filesize]
    rfl
  bytes := fun _ below => absurd below (Nat.not_lt_zero _)

theorem FileAt.emptied (positive : 0 < volume.header.clusterSize) (item : FatDirectoryItem) :
    FileAt volume item.emptied [] [] :=
  .nil positive (emptied_first item) (emptied_filesize item)

/-- `fat16_truncate` to nothing. -/
theorem truncate_empty {item : FatDirectoryItem} {l : List Nat} (mounted : Mounted volume)
    (writable : item.attr &&& fatFileReadOnly = 0) (chain : ChainFrom volume (fat16GetFirstCluster item) l)
    (pos : Nat) :
    ∃ volume', fat16Truncate volume item pos 0 = (0, item.emptied, 0, volume') ∧ Freed volume l volume' := by
  have small : fat16GetFirstCluster item < 2 ^ 31 := by
    by_cases zero : fat16GetFirstCluster item = 0
    · omega
    · have inTable := (chain.clusters _ (chain.head_mem zero)).lt mounted
      omega
  obtain ⟨volume', result, freed⟩ := freeClusterChain_spec mounted chain
  refine ⟨volume', ?_, freed⟩
  rw [fat16Truncate, if_neg fun readOnly => readOnly writable, asInt_eq small]
  simp only [if_true, result]
  rfl

end Open

section Opened

variable {state : FatState} {name : CStr} {slot : Nat} {item : FatDirectoryItem} {l : List Nat}
  {contents : List UInt8}

/-- The state behind a `fat16_open` that has found its item. -/
def FatState.opened (state : FatState) (descriptor : FatFileDescriptor) (volume : FatVolume) : FatState :=
  { state.set state.newPtr (some descriptor) volume with next := state.next + 1 }

theorem FatState.opened_descriptor (state : FatState) (descriptor : FatFileDescriptor) (volume : FatVolume) :
    (state.opened descriptor volume).descriptors state.newPtr = some descriptor := by
  simp only [FatState.opened, FatState.set, Function.update_self]

theorem fat16Open_item {path : List CStr} {mode : FileMode} {fatItem : FatItem} {found volume : FatVolume}
    {descriptor : FatFileDescriptor} (isItem : openItem state.volume path mode = (some (.ok fatItem), found))
    (isOpen : openDescriptor found fatItem mode = (descriptor, volume)) :
    fat16Open state path mode = (some state.newPtr, state.opened descriptor volume) := by
  simp only [fat16Open, isItem, isOpen]
  rfl

/-- The descriptor of an item that is opened for writing. -/
theorem written_of_descriptor {volume : FatVolume} (mounted : Mounted volume)
    (inRoot : slot < volume.header.rootDirEntries) (writable : item.attr &&& fatFileReadOnly = 0)
    (isFile : item.attr &&& fatFileSubdirectory = 0) (file : FileAt volume item l contents)
    (stored : contents ≠ [] → volume.entry slot = item) :
    WrittenAt (state.opened ⟨volume.slotItem slot item, contents.length⟩ volume) state.newPtr slot item l
      contents :=
  ⟨mounted, inRoot, state.opened_descriptor _ _, writable, isFile, file, stored⟩

theorem written_of_emptied {volume volume' : FatVolume} (mounted : Mounted volume) (freed : Freed volume l volume')
    (inRoot : slot < volume.header.rootDirEntries) (writable : item.attr &&& fatFileReadOnly = 0)
    (isFile : item.attr &&& fatFileSubdirectory = 0) :
    WrittenAt (state.opened ⟨volume'.slotItem slot item.emptied, 0⟩ volume') state.newPtr slot item.emptied
      [] [] := by
  have header := freed.same.header
  have positive := mounted.clusterSize_pos
  rw [← header] at inRoot positive
  exact @written_of_descriptor state slot item.emptied [] [] volume' (freed.same.mounted mounted) inRoot writable
    isFile (.emptied positive item) fun some => absurd rfl some

/-- Each of these files is open for writing at its end, and its name leads to its entry. -/
theorem open_written {mode : FileMode} (mounted : Mounted state.volume) (component : IsComponent name)
    (opens : OpensFor state.volume name mode l contents) :
    ∃ state' slot item, fat16Open state [name] mode = (some state.newPtr, state') ∧
      WrittenAt state' state.newPtr slot item l contents ∧
      findItemLoop name 0 state'.volume.rootDirectory.item = some slot := by
  cases opens with
  | created writes absent room short =>
    obtain ⟨before, after, volume', created⟩ := createFile_spec mounted room name
    have positive := created.mounted.clusterSize_pos
    have found := created.found component short absent
    have inRoot := inRoot_of_found created.mounted found
    have isItem : openItem state.volume [name] mode =
        (some (.ok (volume'.slotItem before.length (newItem name))), volume') := by
      simp only [openItem, fat16GetDirectoryEntry, absent, writes, if_true, created.result,
        FatVolume.slotItem, created.place]
    have writable : (newItem name).attr &&& fatFileReadOnly = 0 :=
      (by decide : fatFileArchived &&& fatFileReadOnly = 0)
    cases writes with
    | inl isWrite =>
      subst isWrite
      have chain : ChainFrom volume' (fat16GetFirstCluster (newItem name)) [] :=
        (FileAt.nil positive (newItem_empty name).1 (newItem_empty name).2).chain
      obtain ⟨volume'', result, freed⟩ := truncate_empty created.mounted writable chain 0
      have isOpen : openDescriptor volume' (volume'.slotItem before.length (newItem name)) .write =
          (⟨volume''.slotItem before.length (newItem name).emptied, 0⟩, volume'') := by
        simp only [openDescriptor, FatVolume.slotItem, result, freed.same.rootDirectory]
      refine ⟨_, before.length, (newItem name).emptied, fat16Open_item isItem isOpen, ?_, ?_⟩
      · exact written_of_emptied created.mounted freed inRoot writable (newItem_file name)
      · change findItemLoop name 0 volume''.rootDirectory.item = _
        rw [freed.same.rootDirectory, found]
    | inr isAppend =>
      subst isAppend
      have isOpen : openDescriptor volume' (volume'.slotItem before.length (newItem name)) .append =
          (⟨volume'.slotItem before.length (newItem name), 0⟩, volume') := rfl
      exact ⟨_, before.length, newItem name, fat16Open_item isItem isOpen,
        written_of_descriptor created.mounted inRoot writable (newItem_file name) (.nil positive (newItem_empty name).1 (newItem_empty name).2)
          fun some => absurd rfl some, found⟩
  | truncated entry chain =>
    rename_i slot l
    have inRoot := inRoot_of_found mounted entry.found
    obtain ⟨volume', result, freed⟩ := truncate_empty mounted entry.writable chain 0
    have isOpen : openDescriptor state.volume (state.volume.slotItem slot (state.volume.entry slot)) .write =
        (⟨volume'.slotItem slot (state.volume.entry slot).emptied, 0⟩, volume') := by
      simp only [openDescriptor, FatVolume.slotItem, result, freed.same.rootDirectory]
    refine ⟨_, slot, (state.volume.entry slot).emptied,
      fat16Open_item (openItem_found mounted entry.found entry.isFile .write) isOpen, ?_, ?_⟩
    · exact written_of_emptied mounted freed inRoot entry.writable entry.isFile
    · change findItemLoop name 0 volume'.rootDirectory.item = _
      rw [freed.same.rootDirectory, entry.found]
  | continued entry file =>
    rename_i slot
    have isOpen : openDescriptor state.volume (state.volume.slotItem slot (state.volume.entry slot)) .append =
        (⟨state.volume.slotItem slot (state.volume.entry slot), contents.length⟩, state.volume) := by
      simp only [openDescriptor, FatVolume.slotItem, file.filesize]
    exact ⟨_, slot, state.volume.entry slot,
      fat16Open_item (openItem_found mounted entry.found entry.isFile .append) isOpen,
      written_of_descriptor mounted (inRoot_of_found mounted entry.found) entry.writable entry.isFile file
        fun _ => rfl, entry.found⟩

end Opened

/-! ## The round trip -/

/-- The calls: the file is opened, the requests are written, and the descriptor is closed. -/
def writtenState (state : FatState) (name : CStr) (mode : FileMode) (requests : List WriteRequest) : FatState :=
  (fat16Close (writeAll state.newPtr (fat16Open state [name] mode).2 requests).2 state.newPtr).2

/-- All writes succeed; the file that is opened afterwards has the length of the old contents with the
data behind them, and is read as these. -/
structure RoundTrip (state : FatState) (name : CStr) (mode : FileMode) (contents : List UInt8)
    (requests : List WriteRequest) : Prop where
  returns : (writeAll state.newPtr (fat16Open state [name] mode).2 requests).1 =
    requests.map fun request => some (request.nmemb : Int)
  reads : ∃ ptr reopened, fat16Open (writtenState state name mode requests) [name] .read = (some ptr, reopened) ∧
    fat16Stat reopened ptr = (some 0, ⟨0, (contents ++ allData requests).length⟩) ∧
    ReadsBack reopened ptr (contents ++ allData requests)

/-- No request but a first one begins at the end of a cluster, and the driver refuses none of the
clusters that the file gets behind its first one. -/
structure RoundTripFits (volume : FatVolume) (l : List Nat) (contents : List UInt8)
    (requests : List WriteRequest) : Prop where
  splits : ∀ before request after, requests = before ++ request :: after →
    contents.length + (allData before).length = 0 ∨
      (contents.length + (allData before).length) % volume.header.clusterSize ≠ 0
  walkable : ∀ c ∈ volume.laterClusters l
    (volume.header.clustersFor (contents.length + (allData requests).length)), Walkable c

section RoundTrips

variable {state : FatState} {name : CStr} {l : List Nat} {contents : List UInt8} {requests : List WriteRequest}

/-- The requests that are written are all of them if each one finds the end of the file. -/
theorem appendedRequests_all_iff {volume : FatVolume} :
    ∀ {length : Nat}, appendedRequests volume l length requests = requests ↔
      ∀ before request after, requests = before ++ request :: after →
        AppendsAt volume l (length + (allData before).length) := by
  induction requests with
  | nil =>
    intro length
    exact ⟨fun _ before request after split => absurd split (by simp), fun _ => rfl⟩
  | cons first rest ih =>
    intro length
    rw [appendedRequests]
    by_cases appends : AppendsAt volume l length
    · rw [if_pos appends, List.cons.injEq, and_iff_right rfl, ih]
      constructor
      · intro each before request after split
        cases before with
        | nil =>
          rw [allData_nil, List.length_nil, Nat.add_zero]
          exact appends
        | cons b before =>
          obtain ⟨rfl, more⟩ := List.cons.inj split
          have next := each before request after more
          rwa [allData_cons, List.length_append, ← Nat.add_assoc]
      · intro each before request after split
        have next := each (first :: before) request after (by rw [split, List.cons_append])
        rwa [allData_cons, List.length_append, ← Nat.add_assoc] at next
    · rw [if_neg appends]
      constructor
      · intro same
        exact absurd same (by simp)
      · intro each
        have here := each [] first rest rfl
        rw [allData_nil, List.length_nil, Nat.add_zero] at here
        exact absurd here appends

theorem appendedRequests_begin {volume : FatVolume} :
    ∀ {length : Nat}, appendedRequests volume l length requests <+: requests := by
  induction requests with
  | nil => exact fun {_} => List.prefix_refl []
  | cons first rest ih =>
    intro length
    rw [appendedRequests]
    split
    · exact (List.cons_prefix_cons).mpr ⟨rfl, ih⟩
    · exact List.nil_prefix

/-- All writes succeed exactly if every request is written. -/
theorem WroteAll.returns_iff {volume : FatVolume} {slot : Nat} {ptr : Ptr} {after : FatState}
    {statuses : List (Option Int)} {length : Nat}
    (wrote : WroteAll volume l slot ptr requests (appendedRequests volume l length requests) contents after
      statuses) :
    statuses = requests.map (fun request => some (request.nmemb : Int)) ↔
      appendedRequests volume l length requests = requests := by
  obtain ⟨missing, split⟩ := @appendedRequests_begin l requests volume length
  obtain ⟨done, isDone⟩ : ∃ d, d = appendedRequests volume l length requests := ⟨_, rfl⟩
  rw [← isDone] at wrote split ⊢
  constructor
  · intro all
    cases missing with
    | nil => rwa [List.append_nil] at split
    | cons request more =>
      -- the first request that is missing has failed
      have member : some (request.nmemb : Int) ∈ statuses.drop done.length := by
        rw [all, ← split, List.map_append, List.drop_left' (List.length_map _), List.map_cons]
        exact List.mem_cons_self
      obtain ⟨res, negative, isRes⟩ := wrote.fail _ member
      have same := Option.some.inj isRes
      omega
  · intro all
    have succeed := wrote.succeed
    rw [all] at succeed
    rwa [List.take_of_length_le (by rw [wrote.count])] at succeed

/-- `fat16_close` frees the descriptor and leaves the volume. -/
theorem fat16Close_volume (state : FatState) (ptr : Ptr) : (fat16Close state ptr).2.volume = state.volume := by
  simp only [fat16Close]
  split
  · rfl
  · rfl

/-- A file is opened for reading with the entry that is on the disk. -/
theorem open_read {slot : Nat} (mounted : Mounted state.volume)
    (isFound : findItemLoop name 0 state.volume.rootDirectory.item = some slot)
    (isFile : (state.volume.entry slot).attr &&& fatFileSubdirectory = 0)
    (writable : (state.volume.entry slot).attr &&& fatFileReadOnly = 0) :
    ∃ reopened, fat16Open state [name] .read = (some state.newPtr, reopened) ∧
      fat16Stat reopened state.newPtr = (some 0, ⟨0, (state.volume.entry slot).filesize.toNat⟩) ∧
      ReadAt reopened state.newPtr state.volume (state.volume.entry slot) 0 := by
  have isOpen : openDescriptor state.volume (state.volume.slotItem slot (state.volume.entry slot)) .read =
      (⟨state.volume.slotItem slot (state.volume.entry slot), 0⟩, state.volume) := rfl
  refine ⟨_, fat16Open_item (openItem_found mounted isFound isFile .read) isOpen, ?_, rfl, _,
    FatState.opened_descriptor .., rfl⟩
  have notReadOnly := not_not.mpr writable
  simp only [fat16Stat, FatState.opened_descriptor, FatVolume.slotItem, notReadOnly, if_false]

/-- The file that was written is found again, with the entry that was stored. -/
theorem reopen_read {slot : Nat} {item : FatDirectoryItem} {ptr : Ptr} {m : List Nat}
    (written : WrittenAt state ptr slot item m contents) (notEmpty : contents ≠ []) {closed : FatState}
    (isVolume : closed.volume = state.volume)
    (isFound : findItemLoop name 0 state.volume.rootDirectory.item = some slot) :
    ∃ reopened, fat16Open closed [name] .read = (some closed.newPtr, reopened) ∧
      fat16Stat reopened closed.newPtr = (some 0, ⟨0, contents.length⟩) ∧
      ReadAt reopened closed.newPtr state.volume item 0 := by
  have stored := written.stored notEmpty
  have opens := @open_read closed name slot
  rw [isVolume, stored, written.file.filesize] at opens
  exact opens written.mounted isFound written.isFile written.writable

/-- On the exact store, what was written comes back exactly if no request but a first one begins at the end of
a cluster, and the driver refuses none of the later clusters of the file. -/
theorem roundTrip_iff {mode : FileMode} (mounted : Mounted state.volume) (component : IsComponent name)
    (opens : OpensFor state.volume name mode l contents) (notEmpty : requests ≠ [])
    (whole : ∀ request ∈ requests, request.Whole)
    (room : contents.length + (allData requests).length ≤
      (l.length + (fat16Open state [name] mode).2.volume.freeClusters.card) *
        (fat16Open state [name] mode).2.volume.header.clusterSize) :
    RoundTrip state name mode contents requests ↔
      RoundTripFits (fat16Open state [name] mode).2.volume l contents requests := by
  obtain ⟨opened, slot, item, isOpen, written, isFound⟩ := open_written mounted component opens
  have isOpened : (fat16Open state [name] mode).2 = opened := congrArg Prod.snd isOpen
  rw [isOpened] at room ⊢
  have wrote := writeAll_spec written.file.chain requests written
    (.of_table ⟨rfl, rfl, rfl⟩ (fun _ _ => rfl) fun _ _ => rfl) (fun _ _ _ => rfl) whole room
  have someData : contents ++ allData requests ≠ [] := by
    obtain ⟨first, rest, rfl⟩ := List.exists_cons_of_ne_nil notEmpty
    have data := (whole first List.mem_cons_self).notEmpty
    simp [data]
  -- what is found of the file behind the writes, when all of them are stored
  have reopens : appendedRequests opened.volume l contents.length requests = requests →
      ∃ ptr reopened, fat16Open (writtenState state name mode requests) [name] .read = (some ptr, reopened) ∧
        fat16Stat reopened ptr = (some 0, ⟨0, (contents ++ allData requests).length⟩) ∧
        (ReadsBack reopened ptr (contents ++ allData requests) ↔
          ∀ c ∈ opened.volume.laterClusters l
            (opened.volume.header.clustersFor (contents.length + (allData requests).length)), Walkable c) := by
    intro all
    obtain ⟨item', m, written', lengthened⟩ := wrote.written
    rw [all] at written'
    have isClosed : (writtenState state name mode requests).volume =
        (writeAll state.newPtr opened requests).2.volume := by
      rw [writtenState, fat16Close_volume, isOpened]
    obtain ⟨reopened, isReopened, stat, readAt⟩ := reopen_read written' someData isClosed (by
      rw [lengthened.same.rootDirectory]
      exact isFound)
    refine ⟨_, reopened, isReopened, stat, ?_⟩
    have length := written'.file.length
    rw [lengthened.same.header, List.length_append] at length
    rw [readsBack_iff written'.mounted written'.file readAt]
    simp only [lengthened.mem_tail_iff written.file.chain written'.file.chain, length]
  constructor
  · intro roundTrip
    have all := wrote.returns_iff.mp (isOpened ▸ roundTrip.returns)
    obtain ⟨ptr, reopened, isReopened, -, walkable⟩ := reopens all
    obtain ⟨ptr', reopened', isReopened', -, readsBack⟩ := roundTrip.reads
    rw [isReopened] at isReopened'
    cases isReopened'
    refine ⟨fun before request after split => ?_, walkable.mp readsBack⟩
    exact (appendedRequests_all_iff.mp all before request after split).imp_right And.left
  · intro fits
    have all : appendedRequests opened.volume l contents.length requests = requests := by
      apply appendedRequests_all_iff.mpr
      intro before request after split
      refine (fits.splits before request after split).imp_right fun inside => ⟨inside, fun c member => ?_⟩
      apply fits.walkable c
      apply laterClusters_mono _ member
      apply clustersFor_mono
      · exact written.mounted.clusterSize_pos
      · simp only [split, allData, List.flatMap_append, List.length_append]
        omega
    obtain ⟨ptr, reopened, isReopened, stat, walkable⟩ := reopens all
    exact ⟨by rw [isOpened]; exact wrote.returns_iff.mpr all,
      ptr, reopened, isReopened, stat, walkable.mpr fits.walkable⟩

/-- What any series of whole requests does behind the opening: the requests in front of the first one that
begins at the end of a cluster, or behind a cluster the driver refuses, are stored; that one and all
later ones fail, and change nothing. -/
theorem writes_after_open {mode : FileMode} (mounted : Mounted state.volume) (component : IsComponent name)
    (opens : OpensFor state.volume name mode l contents)
    (whole : ∀ request ∈ requests, request.Whole)
    (room : contents.length + (allData requests).length ≤
      (l.length + (fat16Open state [name] mode).2.volume.freeClusters.card) *
        (fat16Open state [name] mode).2.volume.header.clusterSize) :
    ∃ slot, WroteAll (fat16Open state [name] mode).2.volume l slot state.newPtr requests
      (appendedRequests (fat16Open state [name] mode).2.volume l contents.length requests) contents
      (writeAll state.newPtr (fat16Open state [name] mode).2 requests).2
      (writeAll state.newPtr (fat16Open state [name] mode).2 requests).1 := by
  obtain ⟨opened, slot, item, isOpen, written, -⟩ := open_written mounted component opens
  have isOpened : (fat16Open state [name] mode).2 = opened := congrArg Prod.snd isOpen
  rw [isOpened] at room ⊢
  exact ⟨slot, writeAll_spec written.file.chain requests written
    (.of_table ⟨rfl, rfl, rfl⟩ (fun _ _ => rfl) fun _ _ => rfl) (fun _ _ _ => rfl) whole room⟩

/-- On the exact store, a series of writes leaves every other file of the root directory as it is. -/
theorem writeAll_keeps_others {ptr : Ptr} {slot s : Nat} {item : FatDirectoryItem} {m : List Nat}
    {others : List UInt8} (written : WrittenAt state ptr slot item m contents)
    (whole : ∀ request ∈ requests, request.Whole)
    (room : contents.length + (allData requests).length ≤
      (m.length + state.volume.freeClusters.card) * state.volume.header.clusterSize)
    (inRoot : s < state.volume.header.rootDirEntries) (other : s ≠ slot)
    (file : FileAt state.volume (state.volume.entry s) l others) (apart : ∀ c ∈ l, c ∉ m) :
    (writeAll ptr state requests).2.volume.entry s = state.volume.entry s ∧
      FileAt (writeAll ptr state requests).2.volume (state.volume.entry s) l others := by
  have wrote := writeAll_spec written.file.chain requests written
    (.of_table ⟨rfl, rfl, rfl⟩ (fun _ _ => rfl) fun _ _ => rfl) (fun _ _ _ => rfl) whole room
  obtain ⟨-, m', -, lengthened⟩ := wrote.written
  have header := lengthened.same.header
  have table : ∀ c ∈ l, (writeAll ptr state requests).2.volume.fat c = state.volume.fat c := fun c member =>
    lengthened.fat c (file.chain.clusters c member).2
      (lengthened.not_taken (apart c member) (file.chain.fat_ne_zero member))
  refine ⟨wrote.others s inRoot other, file.chain.congr lengthened.same table, ?_, file.filesize, fun k below => ?_⟩
  · rw [header]
    exact file.length
  · have inFile := file.inside written.mounted.clusterSize_pos below
    have member := List.getElem_mem inFile
    have inCluster := Nat.mod_lt k written.mounted.clusterSize_pos
    rw [← file.bytes k below, FatVolume.chainByte, FatVolume.chainByte, header,
      List.getD_eq_getElem _ _ inFile]
    exact lengthened.bytes _ (file.chain.clusters _ member) (apart _ member) (file.chain.fat_ne_zero member) _
      inCluster

/-! ## A file that is opened for writing and closed -/

/-- The state behind an opening for writing and a `fat16_close`, with no write between them. -/
def unwrittenState (state : FatState) (name : CStr) : FatState :=
  (fat16Close (fat16Open state [name] .write).2 state.newPtr).2

/-- The entry of the file still has its size and its first cluster, and the clusters are free. -/
theorem unwritten_entry {slot : Nat} (mounted : Mounted state.volume)
    (entry : WritableEntry state.volume name slot)
    (chain : ChainFrom state.volume (fat16GetFirstCluster (state.volume.entry slot)) l) :
    Freed state.volume l (unwrittenState state name).volume := by
  obtain ⟨volume', result, freed⟩ := truncate_empty mounted entry.writable chain 0
  have isOpen : openDescriptor state.volume (state.volume.slotItem slot (state.volume.entry slot)) .write =
      (⟨volume'.slotItem slot (state.volume.entry slot).emptied, 0⟩, volume') := by
    simp only [openDescriptor, FatVolume.slotItem, result, freed.same.rootDirectory]
  have opened := fat16Open_item (openItem_found mounted entry.found entry.isFile .write) isOpen
  rw [unwrittenState, fat16Close_volume, opened]
  exact freed

/-- A lookup in the first cluster does not ask the table. -/
theorem freed_lookup_first {volume : FatVolume} {first : Nat} (small : first < 2 ^ 16) {offset : Nat}
    (inFirst : offset < volume.header.clusterSize) :
    fat16GetClusterForOffset volume (first : Nat) offset = (first : Nat) := by
  rw [fat16GetClusterForOffset, Int.toNat_natCast, Nat.div_eq_of_lt inFirst, toUInt16_eq small]
  rfl

/-- Behind the first cluster a lookup meets the entry of a free cluster. -/
theorem freed_lookup_behind {volume : FatVolume} {first : Nat} (mounted : Mounted volume)
    (isCluster : volume.IsCluster first) (isFree : volume.fat first = 0) {offset : Nat}
    (behind : volume.header.clusterSize ≤ offset) :
    fat16GetClusterForOffset volume (first : Nat) offset = -eio := by
  have small := isCluster.lt mounted
  obtain ⟨steps, isNext⟩ := Nat.exists_eq_succ_of_ne_zero
    (Nat.pos_iff_ne_zero.mp (Nat.div_pos behind mounted.clusterSize_pos))
  rw [fat16GetClusterForOffset, Int.toNat_natCast, isNext, toUInt16_eq (by omega),
    clusterWalk_succ mounted isCluster (fat_lt _ _), isFree]
  simp

/-- The bytes of the first cluster are read as before. -/
theorem freed_slice {volume volume' : FatVolume} {item : FatDirectoryItem} (mounted : Mounted volume)
    (file : FileAt volume item l contents) (freed : Freed volume l volume')
    (isCluster : volume.IsCluster (fat16GetFirstCluster item))
    (fits : contents.length ≤ volume.header.clusterSize) :
    volume'.streamSlice (fat16GetFirstCluster item) 0 contents.length = contents := by
  have old := file.slice mounted (show 0 + contents.length ≤ contents.length by omega)
  rw [List.drop_zero, List.take_length] at old
  conv_rhs => rw [← old]
  apply List.map_congr_left
  intro k inside
  have below := List.mem_range.mp inside
  have first : k / volume.header.clusterSize = 0 := Nat.div_eq_of_lt (by omega)
  have position := clusterPosition_eq mounted isCluster.1 0
  have position' := clusterPosition_eq (freed.same.mounted mounted) isCluster.1 0
  simp only [Nat.cast_zero, Int.add_zero, Nat.add_zero] at position position'
  have byte := freed.byteAt (fat16GetFirstCluster item) (k % volume.header.clusterSize)
  simp only [FatVolume.byteAt, freed.same.header, freed.same.dataPos] at byte
  simp only [FatVolume.streamByte, FatVolume.clustersAhead, freed.same.header, Nat.zero_add, first,
    Function.iterate_zero, id_eq, position, position', Int.toNat_natCast, freed.same.dataPos, byte]

/-- An existing file that is opened for writing and closed again keeps its old entry, and its clusters are
free.  Its name still leads to its old size; the old contents are read as long as they fit into one
cluster, and reading more of them fails. -/
theorem unwritten_reads_old {slot : Nat} (mounted : Mounted state.volume)
    (entry : WritableEntry state.volume name slot)
    (file : FileAt state.volume (state.volume.entry slot) l contents) (notEmpty : contents ≠ []) :
    ∃ ptr reopened, fat16Open (unwrittenState state name) [name] .read = (some ptr, reopened) ∧
      (∀ c ∈ l, reopened.volume.fat c = 0) ∧
      fat16Stat reopened ptr = (some 0, ⟨0, contents.length⟩) ∧
      (contents.length ≤ state.volume.header.clusterSize →
        ∃ after, fat16Read reopened ptr 1 contents.length = (some (contents.length : Int), contents, after)) ∧
      (state.volume.header.clusterSize < contents.length →
        ∃ res < 0, (fat16Read reopened ptr 1 contents.length).1 = some res) := by
  have freed := unwritten_entry mounted entry file.chain
  have closedMounted := freed.same.mounted mounted
  have header := freed.same.header
  have sameEntry := freed.entry slot (inRoot_of_found mounted entry.found)
  have positive := mounted.clusterSize_pos
  have some := List.length_pos_iff.mpr notEmpty
  have notZero := file.first_ne_zero positive (by omega)
  have isCluster := file.chain.clusters _ (file.chain.head_mem notZero)
  have isCluster' : (unwrittenState state name).volume.IsCluster
      (fat16GetFirstCluster (state.volume.entry slot)) := by
    rw [FatVolume.IsCluster, header]
    exact isCluster
  have small := isCluster.lt mounted
  have bytesLt := file.chain.bytes_lt mounted
  have long := le_clustersFor positive contents.length
  rw [← file.length] at long
  have opens := @open_read (unwrittenState state name) name slot closedMounted
    (by rw [freed.same.rootDirectory]; exact entry.found)
  rw [sameEntry, file.filesize] at opens
  obtain ⟨reopened, isReopened, stat, isVolume, place, isOpen, isFile⟩ := opens entry.isFile entry.writable
  have isFirst : asInt (fat16GetFirstCluster (state.volume.entry slot)) =
      (fat16GetFirstCluster (state.volume.entry slot) : Nat) := asInt_eq (by omega)
  have isLeft : itemsLeft (state.volume.entry slot) 0 1 contents.length = contents.length := by
    simp only [itemsLeft, file.filesize, Nat.sub_zero, Nat.div_one, min_self]
  have read := fat16Read_file isOpen isFile Nat.one_pos (show 1 * contents.length < 2 ^ 32 by omega)
  simp only [isFirst, isLeft, show ¬ contents.length = 0 by omega, if_false, isVolume] at read
  refine ⟨_, reopened, isReopened, fun c member => ?_, stat, fun fits => ?_, fun larger => ?_⟩
  · rw [isVolume, freed.fat c (file.chain.clusters c member).2, if_pos member]
  · -- everything is in the first cluster, which the reads do not look up
    have covers : Covers (unwrittenState state name).volume
        (fat16GetFirstCluster (state.volume.entry slot) : Nat) 0 (contents.length * 1) := by
      intro o _ below
      exact ⟨_, freed_lookup_first (by omega) (by rw [header]; omega), clusterOnDisk closedMounted isCluster'⟩
    have loop := @readItemsLoop_slice (unwrittenState state name).volume
      (fat16GetFirstCluster (state.volume.entry slot) : Nat) 1 closedMounted.clusterSize_pos contents.length 0
      (by omega) covers
    rw [toUInt16_eq (by omega), Nat.mul_one, freed_slice mounted file freed isCluster fits] at loop
    rw [loop, if_neg (lt_irrefl 0)] at read
    exact ⟨_, read⟩
  · have isFree : (unwrittenState state name).volume.fat (fat16GetFirstCluster (state.volume.entry slot)) = 0 := by
      rw [freed.fat _ isCluster.2, if_pos (file.chain.head_mem notZero)]
    have behind : (unwrittenState state name).volume.header.clusterSize ≤ 0 + contents.length * 1 - 1 := by
      rw [header]
      omega
    have failed := freed_lookup_behind closedMounted isCluster' isFree behind
    have fails := readItemsLoop_fails closedMounted.clusterSize_pos Nat.one_ne_zero contents.length (by omega)
      (show 0 + contents.length * 1 < 2 ^ 31 by omega) (by rw [failed]; simp [eio])
    rw [if_pos fails] at read
    exact ⟨_, fails, by rw [read]⟩

end RoundTrips

/-! ## Two volumes -/

/-- A volume of eight sectors, with five clusters and the given table. -/
def smallVolume (table : Nat → UInt8) : FatVolume where
  store := ⟨8 * viosSectorSize, fun pos =>
    if viosSectorSize ≤ pos ∧ pos < 2 * viosSectorSize then table (pos - viosSectorSize) else 0⟩
  header := ⟨1, 1, 1, 16, 8, 1, 0⟩
  rootDirectory := ⟨List.replicate 16 .zero, 2, 3⟩

theorem smallHeader_consistent : FatHeader.Consistent ⟨1, 1, 1, 16, 8, 1, 0⟩ (8 * viosSectorSize) := by
  constructor
  all_goals decide

theorem smallVolume_mounted (table : Nat → UInt8) : Mounted (smallVolume table) where
  consistent := smallHeader_consistent
  sectorPos := rfl
  endingSectorPos := (by decide : 3 = FatHeader.dataSector ⟨1, 1, 1, 16, 8, 1, 0⟩)
  length := List.length_replicate

/-- Nothing is open on an empty volume with five clusters. -/
def freshState : FatState := ⟨smallVolume fun _ => 0, fun _ => none, 0⟩

/-- A request for 300 bytes. -/
def piece (byte : UInt8) (size nmemb : Nat) : WriteRequest := ⟨List.replicate 300 byte, size, nmemb⟩

/-- Two writes that together need a second cluster. -/
def twoPieces : List WriteRequest := [piece 7 1 300, piece 8 100 3]

theorem piece_whole {size nmemb : Nat} (sizePos : 0 < size) (product : size * nmemb = 300) (byte : UInt8) :
    (piece byte size nmemb).Whole where
  sizePos := sizePos
  product := product.trans List.length_replicate.symm
  notEmpty := List.ne_nil_of_length_pos (Nat.lt_of_lt_of_eq (by decide) List.length_replicate.symm)

theorem twoPieces_whole : ∀ request ∈ twoPieces, request.Whole := by
  intro request member
  rcases List.mem_pair.mp member with rfl | rfl
  · exact piece_whole (by decide) (by decide) 7
  · exact piece_whole (by decide) (by decide) 8

theorem txtName_component : IsComponent txtName := ⟨by decide, by decide, by decide⟩

theorem freshState_opens : OpensFor freshState.volume txtName .write [] [] :=
  .created (.inl rfl) rfl ⟨.zero, List.mem_cons_self, Or.inl rfl⟩
    ⟨by decide, by decide, by decide, fun _ => by decide⟩

theorem freshState_room : ([] : List UInt8).length + (allData twoPieces).length ≤
    (([] : List Nat).length + (fat16Open freshState [txtName] .write).2.volume.freeClusters.card) *
      (fat16Open freshState [txtName] .write).2.volume.header.clusterSize := by
  decide +kernel

theorem twoPieces_roundTrip : RoundTrip freshState txtName .write [] twoPieces := by
  refine (roundTrip_iff (smallVolume_mounted fun _ => 0) txtName_component freshState_opens (by simp [twoPieces])
    twoPieces_whole freshState_room).mpr ⟨fun before request after split => ?_, by decide +kernel⟩
  cases before with
  | nil => exact .inl rfl
  | cons first rest =>
    obtain ⟨rfl, behind⟩ := List.cons.inj split
    cases rest with
    | nil => exact .inr (by decide +kernel)
    | cons second rest => exact absurd behind (by simp)

theorem twoPieces_written :
    ∃ slot, WroteAll (fat16Open freshState [txtName] .write).2.volume [] slot freshState.newPtr twoPieces
      (appendedRequests (fat16Open freshState [txtName] .write).2.volume [] ([] : List UInt8).length twoPieces) []
      (writeAll freshState.newPtr (fat16Open freshState [txtName] .write).2 twoPieces).2
      (writeAll freshState.newPtr (fat16Open freshState [txtName] .write).2 twoPieces).1 :=
  writes_after_open (smallVolume_mounted fun _ => 0) txtName_component freshState_opens twoPieces_whole
    freshState_room

/-- The entry of a file of three bytes in cluster 2. -/
def threeBytes : FatDirectoryItem := (newItem txtName).withFirstCluster 2 |>.withFilesize 3

/-- The volume with this file in its first entry. -/
def oneFileVolume : FatVolume where
  store := ⟨8 * viosSectorSize, fun pos =>
    if pos = viosSectorSize + 4 ∨ pos = viosSectorSize + 5 then 0xFF
    else if 2 * viosSectorSize ≤ pos ∧ pos < 2 * viosSectorSize + directoryItemSize then
      threeBytes.toBytes (pos - 2 * viosSectorSize)
    else if 3 * viosSectorSize ≤ pos then 7
    else 0⟩
  header := ⟨1, 1, 1, 16, 8, 1, 0⟩
  rootDirectory := ⟨threeBytes :: List.replicate 15 .zero, 2, 3⟩

theorem oneFileVolume_mounted : Mounted oneFileVolume where
  consistent := smallHeader_consistent
  sectorPos := rfl
  endingSectorPos := (by decide : 3 = FatHeader.dataSector ⟨1, 1, 1, 16, 8, 1, 0⟩)
  length := rfl

theorem oneFileVolume_file : FileAt oneFileVolume (oneFileVolume.entry 0) [2] [7, 7, 7] where
  chain := ⟨by decide +kernel, show 0xFFF8 ≤ oneFileVolume.fat 2 by decide +kernel, by decide,
    fun c member => List.mem_singleton.mp member ▸ ⟨by decide, by decide⟩⟩
  length := by decide
  filesize := by decide +kernel
  bytes := by decide +kernel

theorem oneFileVolume_entry : WritableEntry oneFileVolume txtName 0 where
  found := by decide +kernel
  writable := by decide +kernel
  isFile := by decide +kernel

theorem threeBytes_reads_old :
    ∃ ptr reopened, fat16Open (unwrittenState ⟨oneFileVolume, fun _ => none, 0⟩ txtName) [txtName] .read =
        (some ptr, reopened) ∧
      (∀ c ∈ [2], reopened.volume.fat c = 0) ∧
      fat16Stat reopened ptr = (some 0, ⟨0, 3⟩) ∧
      (3 ≤ oneFileVolume.header.clusterSize →
        ∃ after, fat16Read reopened ptr 1 3 = (some 3, [7, 7, 7], after)) ∧
      (oneFileVolume.header.clusterSize < 3 → ∃ res < 0, (fat16Read reopened ptr 1 3).1 = some res) :=
  @unwritten_reads_old ⟨oneFileVolume, fun _ => none, 0⟩ txtName [2] [7, 7, 7] 0 oneFileVolume_mounted
    oneFileVolume_entry oneFileVolume_file (by simp)

/-- A second, empty file is open. -/
def secondOpen : FatState :=
  ⟨oneFileVolume, fun ptr => if ptr = 4096 then some ⟨oneFileVolume.slotItem 1 threeBytes.emptied, 0⟩ else none, 1⟩

theorem secondOpen_written : WrittenAt secondOpen 4096 1 threeBytes.emptied [] [] where
  mounted := oneFileVolume_mounted
  inRoot := by decide
  isOpen := rfl
  writable := by decide
  isFile := by decide
  file := .emptied (by decide) threeBytes
  stored := fun notEmpty => absurd rfl notEmpty

theorem threeBytes_kept :
    (writeAll 4096 secondOpen twoPieces).2.volume.entry 0 = oneFileVolume.entry 0 ∧
      FileAt (writeAll 4096 secondOpen twoPieces).2.volume (oneFileVolume.entry 0) [2] [7, 7, 7] :=
  writeAll_keeps_others secondOpen_written twoPieces_whole (by decide +kernel) (by decide) (by decide)
    oneFileVolume_file (by simp)

end ViOS.Fs
