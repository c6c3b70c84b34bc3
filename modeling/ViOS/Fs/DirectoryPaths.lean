import ViOS.Fs.Subdirectory

/-! # Paths through directories

`fat16_get_directory_entry` looks for each component of a path in the directory the one before it
led to, and `fat16_find_item_in_directory` reads the entry it found again from the disk: at the
index of the entry, counted from the first sector of the directory.  The root directory has such a
sector.  The one of a subdirectory is zero, since it is not set when a subdirectory is loaded.

* `DiskDirectory`, `Leads` — the directories on a disk, and where a path leads to.
* `Answers` — what the driver should answer.
* `InPlace` — the entries that are read again from where they are.
* `answers_iff_inPlace` — the walk from a subdirectory, by induction on the path.
* `directoryEntry_answers_iff` — all paths from the root, and one path with those on the way.
-/

namespace ViOS.Fs

open ViOS.Lib

/-! ## Directories on the disk -/

/-- Where the slots of a directory are, and how many of them are in front of its end. -/
structure DiskDirectory where
  position : Nat → Nat
  stop : Nat

def FatDirectoryItem.IsDirectory (item : FatDirectoryItem) : Prop := item.attr &&& fatFileSubdirectory ≠ 0

instance (item : FatDirectoryItem) : Decidable item.IsDirectory := inferInstanceAs (Decidable (_ ≠ _))

namespace FatVolume

variable (volume : FatVolume)

/-- The entry at a position of the disk. -/
def itemAt (pos : Nat) : FatDirectoryItem := .ofBytes fun i => volume.store.bytes (pos + i)

/-- The root directory. -/
def rootOnDisk (stop : Nat) : DiskDirectory := ⟨fun k => volume.rootPos + k * directoryItemSize, stop⟩

/-- A subdirectory, along the chain that begins at the first cluster of its entry. -/
def subdirectoryOnDisk (item : FatDirectoryItem) (stop : Nat) : DiskDirectory where
  position := fun k => (volume.clusterPosition
    (volume.fat^[volume.clustersAhead (directoryItemSize * k)] (fat16GetFirstCluster item) : Nat)).toNat +
      directoryItemSize * k % volume.header.clusterSize
  stop

end FatVolume

/-- The root directory ends at a slot that begins with a zero, or behind its last slot. -/
structure RootEnds (volume : FatVolume) (stop : Nat) : Prop where
  inside : stop ≤ volume.header.rootDirEntries
  before : ∀ k < stop, (volume.entry k).mark ≠ 0
  ends : stop < volume.header.rootDirEntries → (volume.entry stop).mark = 0

/-- The slots of a subdirectory lie on a complete chain, and end likewise. -/
structure DirectoryChain (volume : FatVolume) (item : FatDirectoryItem) (l : List Nat) (stop : Nat) : Prop where
  head : l.headD 0 = fat16GetFirstCluster item
  path : FatPath volume l
  complete : IsEoc (volume.lastEntry l)
  onDisk : ∀ cluster ∈ l, volume.ClusterOnDisk cluster
  inside : directoryItemSize * stop ≤ l.length * volume.header.clusterSize
  before : ∀ k < stop, (volume.dirSlot (fat16GetFirstCluster item) k).mark ≠ 0
  ends : directoryItemSize * (stop + 1) ≤ l.length * volume.header.clusterSize →
    (volume.dirSlot (fat16GetFirstCluster item) stop).mark = 0

/-- `sub` is the directory of an entry. -/
def DirectoryOf (volume : FatVolume) (item : FatDirectoryItem) (sub : DiskDirectory) : Prop :=
  ∃ l stop, DirectoryChain volume item l stop ∧ sub = volume.subdirectoryOnDisk item stop

section Directories

variable {volume : FatVolume} {item : FatDirectoryItem} {l m : List Nat} {stop stop' : Nat}

theorem FatPath.unique (path : FatPath volume l) (path' : FatPath volume m) (same : l.headD 0 = m.headD 0) :
    l = m := by
  cases l with
  | nil => exact absurd rfl path.notEmpty
  | cons first rest =>
    cases m with
    | nil => exact absurd rfl path'.notEmpty
    | cons first' rest' =>
      obtain rfl : first = first' := same
      rw [path.links.unique path'.links
        (fun cluster member stops => stops (path.clusters cluster (List.mem_cons_of_mem _ member)))
        (fun cluster member stops => stops (path'.clusters cluster (List.mem_cons_of_mem _ member)))]

theorem FatPath.iterate (path : FatPath volume l) {i : Nat} (inside : i < l.length) :
    volume.fat^[i] (l.headD 0) = l[i] := by
  induction i with
  | zero => exact headD_eq_getElem inside
  | succ i ih => rw [Function.iterate_succ_apply', ih (by omega), path.links.next_getElem inside]

theorem DirectoryChain.stop_le (chain : DirectoryChain volume item l stop)
    (chain' : DirectoryChain volume item l stop') : stop ≤ stop' := by
  by_contra more
  have inside := chain.inside
  have next : directoryItemSize * (stop' + 1) ≤ directoryItemSize * stop := Nat.mul_le_mul_left _ (by omega)
  exact chain.before stop' (by omega) (chain'.ends (next.trans inside))

/-- An entry has one directory at most. -/
theorem DirectoryOf.unique {sub sub' : DiskDirectory} (isSub : DirectoryOf volume item sub)
    (isSub' : DirectoryOf volume item sub') : sub = sub' := by
  obtain ⟨l, stop, chain, rfl⟩ := isSub
  obtain ⟨m, stop', chain', rfl⟩ := isSub'
  obtain rfl := chain.path.unique chain'.path (chain.head.trans chain'.head.symm)
  rw [Nat.le_antisymm (chain.stop_le chain') (chain'.stop_le chain)]

/-- A slot lies in one cluster. -/
theorem slot_inside (volume : FatVolume) {k : Nat} (clusterPos : 0 < volume.header.clusterSize) :
    directoryItemSize * k % volume.header.clusterSize + directoryItemSize ≤ volume.header.clusterSize := by
  have size : volume.header.clusterSize = directoryItemSize * (volume.header.sectorsPerCluster * 16) := by
    unfold FatHeader.clusterSize viosSectorSize directoryItemSize
    omega
  have positive : 0 < volume.header.sectorsPerCluster * 16 := by
    by_contra zero
    rw [Nat.eq_zero_of_not_pos zero, Nat.mul_zero] at size
    omega
  have remainder := Nat.mod_lt k positive
  rw [size, Nat.mul_mod_mul_left, ← Nat.mul_succ]
  exact Nat.mul_le_mul_left _ remainder

theorem itemAt_subdirectory (clusterPos : 0 < volume.header.clusterSize) (item : FatDirectoryItem) (stop k : Nat) :
    volume.itemAt ((volume.subdirectoryOnDisk item stop).position k) =
      volume.dirSlot (fat16GetFirstCluster item) k := by
  have inside := slot_inside volume (k := k) clusterPos
  apply ofBytes_congr
  intro i inSlot
  have offset : (directoryItemSize * k + i) % volume.header.clusterSize =
      directoryItemSize * k % volume.header.clusterSize + i := by
    rw [Nat.add_mod, Nat.mod_eq_of_lt (by omega : i < volume.header.clusterSize), Nat.mod_eq_of_lt (by omega)]
  rw [FatVolume.streamByte, clustersAhead_slot volume inSlot, offset]
  unfold FatVolume.subdirectoryOnDisk
  rw [Nat.add_assoc]

/-- The slots in front of the end lie on the disk, and none of them ends the directory. -/
structure DiskDirectory.Stored (volume : FatVolume) (d : DiskDirectory) : Prop where
  onDisk : ∀ k < d.stop, d.position k + directoryItemSize ≤ volume.store.size
  live : ∀ k < d.stop, (volume.itemAt (d.position k)).mark ≠ 0

theorem RootEnds.stored (mounted : Mounted volume) (rootEnds : RootEnds volume stop) :
    (volume.rootOnDisk stop).Stored volume where
  onDisk := fun k below => by
    have inside := volume.entry_inside (Nat.lt_of_lt_of_le below rootEnds.inside)
    have onDisk := mounted.dataPos_le
    exact inside.trans onDisk
  live := rootEnds.before

theorem DirectoryOf.stored (clusterPos : 0 < volume.header.clusterSize) {sub : DiskDirectory}
    (isSub : DirectoryOf volume item sub) : sub.Stored volume := by
  obtain ⟨l, stop, chain, rfl⟩ := isSub
  refine ⟨fun k below => ?_, fun k below => ?_⟩
  · -- The slot lies in one of the clusters of the chain, and these are on the disk.
    have inSlot := slot_inside volume (k := k) clusterPos
    have room := chain.inside
    have next : directoryItemSize * (k + 1) ≤ directoryItemSize * stop := Nat.mul_le_mul_left _ below
    rw [Nat.mul_succ] at next
    have ahead : volume.clustersAhead (directoryItemSize * k) < l.length := by
      unfold FatVolume.clustersAhead
      rw [Nat.div_lt_iff_lt_mul clusterPos]
      have positive : 0 < directoryItemSize := by decide
      omega
    have cluster := chain.path.iterate ahead
    rw [chain.head] at cluster
    have onDisk := chain.onDisk _ (List.getElem_mem ahead)
    rw [← cluster] at onDisk
    have ending := onDisk.ending
    have start := onDisk.start
    unfold FatVolume.subdirectoryOnDisk
    simp only
    omega
  · rw [itemAt_subdirectory clusterPos]
    exact chain.before k below

end Directories

/-! ## Paths -/

/-- The first entry with a name is in slot `k`. -/
structure Names (volume : FatVolume) (d : DiskDirectory) (name : CStr) (k : Nat) : Prop where
  inside : k < d.stop
  named : Matches name (volume.itemAt (d.position k))
  first : ∀ j < k, ¬ Matches name (volume.itemAt (d.position j))

/-- A path leads from a directory to the entry at a position. -/
inductive Leads (volume : FatVolume) : DiskDirectory → List CStr → Nat → Prop where
  | last {d : DiskDirectory} {name : CStr} {k : Nat} (named : Names volume d name k) :
      Leads volume d [name] (d.position k)
  | down {d sub : DiskDirectory} {name : CStr} {k pos : Nat} {rest : List CStr} (named : Names volume d name k)
      (isDirectory : (volume.itemAt (d.position k)).IsDirectory)
      (isSub : DirectoryOf volume (volume.itemAt (d.position k)) sub) (below : Leads volume sub rest pos) :
      Leads volume d (name :: rest) pos

/-- An item was made from an entry: it has its attributes, first cluster and size, or holds the directory
that is loaded from it. -/
def FatItem.Describes (volume : FatVolume) (item : FatItem) (entry : FatDirectoryItem) : Prop :=
  match item.data with
  | .file data => ¬ entry.IsDirectory ∧ data.attr = entry.attr ∧
      fat16GetFirstCluster data = fat16GetFirstCluster entry ∧ data.filesize = entry.filesize
  | .directory directory => entry.IsDirectory ∧ directory = fat16LoadFatDirectory volume entry

/-- The sector and the offset of an item are those of a position. -/
structure FatItem.Locates (item : FatItem) (pos : Nat) : Prop where
  position : item.directorySector * viosSectorSize + item.directoryOffset = pos
  inSector : item.directoryOffset < viosSectorSize

/-- The answer to a path is the item of the entry the path leads to, or `NULL` when it leads to none. -/
def Answers (volume : FatVolume) (d : DiskDirectory) (path : List CStr) (answer : Option (Option FatItem)) : Prop :=
  ∃ result, answer = some result ∧
    (∀ pos, Leads volume d path pos →
      ∃ item, result = some item ∧ item.Describes volume (volume.itemAt pos) ∧ item.Locates pos) ∧
    ((∀ pos, ¬ Leads volume d path pos) → result = none)

/-- The slots that are loaded have the names of those on the disk, all entries are loaded, and the end of
the directory is the end of what is loaded. -/
structure HoldsNames (volume : FatVolume) (memory : FatDirectory) (d : DiskDirectory) : Prop where
  name : ∀ k < d.stop, ∀ item, memory.item[k]? = some item →
    item.filename = (volume.itemAt (d.position k)).filename ∧ item.ext = (volume.itemAt (d.position k)).ext
  loaded : ∀ k < d.stop, (volume.itemAt (d.position k)).mark ≠ 0xE5 → k < memory.item.length
  ends : ∀ item, memory.item[d.stop]? = some item → item.mark = 0

/-- The directory of an entry is on the disk, and is loaded completely. -/
structure Loads (volume : FatVolume) (item : FatDirectoryItem) : Prop where
  onDisk : ∃ sub, DirectoryOf volume item sub
  holds : ∀ sub, DirectoryOf volume item sub → HoldsNames volume (fat16LoadFatDirectory volume item) sub

/-- The directories on the way of a path are loaded completely. -/
def LoadsAlong (volume : FatVolume) : DiskDirectory → List CStr → Prop
  | _, [] => True
  | d, name :: rest => rest ≠ [] → ∀ k, Names volume d name k → (volume.itemAt (d.position k)).IsDirectory →
      Loads volume (volume.itemAt (d.position k)) ∧
        ∀ sub, DirectoryOf volume (volume.itemAt (d.position k)) sub → LoadsAlong volume sub rest

/-! ## Looking up a name -/

/-- An item that is in use and has another name is passed. -/
theorem findItemLoop_pass {name : CStr} {item : FatDirectoryItem} (live : item.mark ≠ 0) (passed : ¬ Matches name item)
    (rest : List FatDirectoryItem) (i : Nat) :
    findItemLoop name i (item :: rest) = findItemLoop name (i + 1) rest := by
  rw [findItemLoop, if_neg live]
  split
  · rfl
  · rename_i notDeleted
    rw [if_neg fun equal => passed ⟨notDeleted, equal⟩]

/-- The loop finds the first item with the name, in front of the end. -/
theorem findItemLoop_iff {name : CStr} {items : List FatDirectoryItem} : ∀ {i k : Nat},
    findItemLoop name i items = some (i + k) ↔
      (∃ item, items[k]? = some item ∧ item.mark ≠ 0 ∧ Matches name item) ∧
        ∀ j < k, ∀ item, items[j]? = some item → item.mark ≠ 0 ∧ ¬ Matches name item := by
  induction items with
  | nil =>
    intro i k
    simp [findItemLoop]
  | cons first rest ih =>
    -- The first item ends the search, or it is the one, or the search goes on behind it.
    intro i k
    by_cases isEnd : first.mark = 0
    · rw [findItemLoop, if_pos isEnd]
      refine ⟨(fun found => by cases found), ?_⟩
      rintro ⟨⟨item, here, live, -⟩, before⟩
      cases k with
      | zero =>
        obtain rfl := Option.some.inj here
        exact absurd isEnd live
      | succ k => exact absurd isEnd (before 0 (Nat.succ_pos k) first rfl).1
    · by_cases named : Matches name first
      · rw [findItemLoop, if_neg isEnd, if_neg named.1, if_pos named.2]
        cases k with
        | zero =>
          refine ⟨fun _ => ⟨⟨first, rfl, isEnd, named⟩, fun _ below => ?_⟩, fun _ => rfl⟩
          exact absurd below (Nat.not_lt_zero _)
        | succ k =>
          refine ⟨fun same => ?_, fun found => absurd named (found.2 0 (Nat.succ_pos k) first rfl).2⟩
          have equal := Option.some.inj same
          omega
      · rw [findItemLoop_pass isEnd named]
        cases k with
        | zero =>
          constructor
          · intro found
            exact absurd (le_of_findItemLoop found) (Nat.not_succ_le_self i)
          · rintro ⟨⟨item, here, -, matching⟩, -⟩
            obtain rfl := Option.some.inj here
            exact absurd matching named
        | succ k =>
          rw [show i + (k + 1) = i + 1 + k by omega, ih]
          refine and_congr Iff.rfl ⟨fun before j below item here => ?_, fun before j below item here => ?_⟩
          · cases j with
            | zero =>
              obtain rfl := Option.some.inj here
              exact ⟨isEnd, named⟩
            | succ j => exact before j (Nat.lt_of_succ_lt_succ below) item here
          · exact before (j + 1) (Nat.succ_lt_succ below) item here

section Lookup

variable {volume : FatVolume} {memory : FatDirectory} {d : DiskDirectory} {name : CStr} {k : Nat}

theorem matches_congr {item item' : FatDirectoryItem} (filename : item.filename = item'.filename)
    (ext : item.ext = item'.ext) : Matches name item ↔ Matches name item' := by
  unfold Matches fat16GetFullRelativeFilename
  rw [FatDirectoryItem.mark, filename, ext]

theorem Names.unique {j : Nat} (named : Names volume d name j) (named' : Names volume d name k) : j = k := by
  apply Nat.le_antisymm
  · by_contra more
    exact named.first k (by omega) named'.named
  · by_contra more
    exact named'.first j (by omega) named.named

/-- The loop finds what is on the disk. -/
theorem findItemLoop_holds (stored : d.Stored volume) (holds : HoldsNames volume memory d) :
    findItemLoop name 0 memory.item = some k ↔ Names volume d name k := by
  have same : ∀ {j item}, j < d.stop → memory.item[j]? = some item →
      item.mark ≠ 0 ∧ (Matches name item ↔ Matches name (volume.itemAt (d.position j))) := by
    intro j item below here
    obtain ⟨filename, ext⟩ := holds.name j below item here
    refine ⟨?_, matches_congr filename ext⟩
    have live := stored.live j below
    rwa [FatDirectoryItem.mark, ← filename] at live
  rw [← Nat.zero_add k, findItemLoop_iff, Nat.zero_add]
  constructor
  · rintro ⟨⟨item, here, live, named⟩, before⟩
    -- An item behind the end mark is not reached.
    have below : k < d.stop := by
      by_contra behind
      obtain ⟨inMemory, -⟩ := List.getElem?_eq_some_iff.mp here
      by_cases isStop : d.stop = k
      · exact live (holds.ends item (isStop ▸ here))
      · have atStop := List.getElem?_eq_getElem (show d.stop < memory.item.length by omega)
        exact (before d.stop (by omega) _ atStop).1 (holds.ends _ atStop)
    refine ⟨below, (same below here).2.mp named, fun j earlier matching => ?_⟩
    have index := List.getElem?_eq_getElem
      (show j < memory.item.length from earlier.trans (List.getElem?_eq_some_iff.mp here).1)
    exact (before j earlier _ index).2 ((same (earlier.trans below) index).2.mpr matching)
  · rintro ⟨below, named, first⟩
    have here := List.getElem?_eq_getElem (holds.loaded k below named.1)
    refine ⟨⟨_, here, (same below here).1, (same below here).2.mpr named⟩, fun j earlier item index => ?_⟩
    obtain ⟨live, iff⟩ := same (earlier.trans below) index
    exact ⟨live, fun matching => first j earlier (iff.mp matching)⟩

/-- The item that is made from an entry. -/
theorem describes_newItem (volume : FatVolume) (item : FatDirectoryItem) (sector offset : Nat) :
    (fat16NewFatItemForDirectoryItem volume item sector offset).Describes volume item := by
  unfold fat16NewFatItemForDirectoryItem FatItem.Describes
  by_cases isDirectory : item.attr &&& fatFileSubdirectory ≠ 0
  · rw [if_pos isDirectory]
    exact ⟨isDirectory, rfl⟩
  · rw [if_neg isDirectory]
    exact ⟨isDirectory, rfl, rfl, rfl⟩

/-- Where the driver reads the entry in slot `k` again. -/
def FatDirectory.placeOf (memory : FatDirectory) (k : Nat) : Nat :=
  memory.sectorPos * viosSectorSize + directoryItemSize * k

theorem entryLocation_place (memory : FatDirectory) (k : Nat) :
    (entryLocation memory k).1 * viosSectorSize + (entryLocation memory k).2 = memory.placeOf k := by
  have split := Nat.div_add_mod (k * directoryItemSize) viosSectorSize
  unfold entryLocation FatDirectory.placeOf
  rw [Nat.add_mul, Nat.mul_comm directoryItemSize]
  rw [Nat.mul_comm viosSectorSize] at split
  omega

theorem findItem_none (stored : d.Stored volume) (holds : HoldsNames volume memory d)
    (missing : ∀ k, ¬ Names volume d name k) : fat16FindItemInDirectory volume memory name = none := by
  unfold fat16FindItemInDirectory
  rw [Option.map_eq_none_iff]
  by_contra found
  obtain ⟨k, isFound⟩ := Option.ne_none_iff_exists'.mp found
  exact missing k ((findItemLoop_holds stored holds).mp isFound)

/-- The item that is read again from a position. -/
def FatVolume.freshItem (volume : FatVolume) (pos : Int) : FatDirectoryItem :=
  match volume.store.read pos directoryItemSize with
  | none => .zero
  | some buffer => .ofBytes buffer

theorem freshItem_eq {pos : Nat} (onDisk : pos + directoryItemSize ≤ volume.store.size) :
    volume.freshItem pos = volume.itemAt pos := by
  unfold FatVolume.freshItem
  rw [read_eq onDisk]
  rfl

/-- The item that is found is read again from the place of its slot, behind the sector of the directory. -/
theorem findItem_named (stored : d.Stored volume) (holds : HoldsNames volume memory d)
    (named : Names volume d name k) : fat16FindItemInDirectory volume memory name =
      some (fat16NewFatItemForDirectoryItem volume (volume.freshItem (memory.placeOf k : Nat))
        (entryLocation memory k).1 (entryLocation memory k).2) := by
  unfold fat16FindItemInDirectory
  rw [(findItemLoop_holds stored holds).mpr named, Option.map_some, ← entryLocation_place, Nat.cast_add, Nat.cast_mul]
  rfl

theorem newItem_locates (volume : FatVolume) (memory : FatDirectory) (item : FatDirectoryItem) (k : Nat) :
    (fat16NewFatItemForDirectoryItem volume item (entryLocation memory k).1
      (entryLocation memory k).2).Locates (memory.placeOf k) := by
  obtain ⟨sector, offset⟩ := newFatItem_place volume item (entryLocation memory k).1 (entryLocation memory k).2
  refine ⟨?_, ?_⟩
  · rw [sector, offset, entryLocation_place]
  · rw [offset]
    exact Nat.mod_lt _ (by decide)

end Lookup

/-! ## The walk -/

/-- `fat16_get_directory_entry`, from any directory that is loaded. -/
def walkFrom (volume : FatVolume) (memory : FatDirectory) : List CStr → Option (Option FatItem)
  | [] => none
  | name :: rest => directoryEntryLoop volume (fat16FindItemInDirectory volume memory name) rest

/-- The entries of the path are in the slots of the disk that the driver reads for them, with their own
indices from the first sector of the disk, and only the last one may be missing. -/
def InPlace (volume : FatVolume) : DiskDirectory → List CStr → Prop
  | _, [] => True
  | d, name :: rest => (rest ≠ [] → ∃ k, Names volume d name k) ∧ ∀ k, Names volume d name k →
      d.position k = directoryItemSize * k ∧
        ((volume.itemAt (d.position k)).IsDirectory →
          ∀ sub, DirectoryOf volume (volume.itemAt (d.position k)) sub → InPlace volume sub rest)

/-- The components below the root directory are in place. -/
def PathInPlace (volume : FatVolume) (root : DiskDirectory) : List CStr → Prop
  | [] => True
  | name :: rest => ∀ k, Names volume root name k → (volume.itemAt (root.position k)).IsDirectory →
      ∀ sub, DirectoryOf volume (volume.itemAt (root.position k)) sub → InPlace volume sub rest

section Walk

variable {volume : FatVolume} {memory : FatDirectory} {d sub : DiskDirectory} {name : CStr} {k : Nat}
  {path rest : List CStr} {answer : Option (Option FatItem)}

theorem leads_last_iff {pos : Nat} (named : Names volume d name k) :
    Leads volume d [name] pos ↔ pos = d.position k := by
  constructor
  · intro leads
    cases leads with
    | last named' => rw [named'.unique named]
    | down _ _ _ below => cases below
  · rintro rfl
    exact .last named

theorem not_leads_of_missing (missing : ∀ k, ¬ Names volume d name k) {pos : Nat} :
    ¬ Leads volume d (name :: rest) pos := by
  intro leads
  cases leads with
  | last named => exact missing _ named
  | down named => exact missing _ named

theorem leads_down_iff (named : Names volume d name k) (isDirectory : (volume.itemAt (d.position k)).IsDirectory)
    (isSub : DirectoryOf volume (volume.itemAt (d.position k)) sub) (more : rest ≠ []) {pos : Nat} :
    Leads volume d (name :: rest) pos ↔ Leads volume sub rest pos := by
  constructor
  · intro leads
    cases leads with
    | last named' => exact absurd rfl more
    | down named' _ isSub' below =>
      obtain rfl := named'.unique named
      exact isSub'.unique isSub ▸ below
  · exact .down named isDirectory isSub

theorem not_leads_through_file (named : Names volume d name k)
    (isFile : ¬ (volume.itemAt (d.position k)).IsDirectory) (more : rest ≠ []) {pos : Nat} :
    ¬ Leads volume d (name :: rest) pos := by
  intro leads
  cases leads with
  | last named' => exact more rfl
  | down named' isDirectory => exact isFile (named'.unique named ▸ isDirectory)

/-- The answers to a path through a directory are those to the rest of it. -/
theorem answers_down_iff (named : Names volume d name k)
    (isDirectory : (volume.itemAt (d.position k)).IsDirectory)
    (isSub : DirectoryOf volume (volume.itemAt (d.position k)) sub) (more : rest ≠ []) :
    Answers volume d (name :: rest) answer ↔ Answers volume sub rest answer := by
  unfold Answers
  simp only [leads_down_iff named isDirectory isSub more]

theorem forall_prefix_nil {p : List CStr → Prop} : ∀ q, q ≠ [] → q <+: [] → p q :=
  fun _ notEmpty isPrefix => absurd (List.prefix_nil.mp isPrefix) notEmpty

/-- The prefixes of a path begin with its first component. -/
theorem forall_prefix_cons {p : List CStr → Prop} :
    (∀ q, q ≠ [] → q <+: name :: rest → p q) ↔ ∀ q, q <+: rest → p (name :: q) := by
  constructor
  · exact fun all q isPrefix => all (name :: q) (List.cons_ne_nil _ _) (List.cons_prefix_cons.mpr ⟨rfl, isPrefix⟩)
  · intro all q notEmpty isPrefix
    cases q with
    | nil => exact absurd rfl notEmpty
    | cons first q =>
      obtain ⟨rfl, shorter⟩ := List.cons_prefix_cons.mp isPrefix
      exact all q shorter

section Step

variable (stored : d.Stored volume) (holds : HoldsNames volume memory d)

include stored holds

/-- A last component that is there is answered with its place in memory. -/
theorem answers_last_iff (named : Names volume d name k) :
    Answers volume d [name] (walkFrom volume memory [name]) ↔ d.position k = memory.placeOf k := by
  rw [walkFrom, findItem_named stored holds named, directoryEntryLoop]
  constructor
  · rintro ⟨result, answered, leads, -⟩
    obtain ⟨item, isItem, -, located⟩ := leads _ (.last named)
    obtain rfl := Option.some.inj answered
    obtain rfl := Option.some.inj isItem
    rw [← located.position]
    exact (newItem_locates volume memory _ k).position
  · intro inPlace
    have fresh := freshItem_eq (inPlace ▸ stored.onDisk k named.inside)
    refine ⟨_, rfl, fun pos leads => ⟨_, rfl, ?_⟩, fun missing => absurd (.last named) (missing _)⟩
    obtain rfl := (leads_last_iff named).mp leads
    rw [fresh, inPlace]
    exact ⟨describes_newItem _ _ _ _, newItem_locates _ _ _ _⟩

/-- The last component may be missing. -/
theorem answers_missing (missing : ∀ k, ¬ Names volume d name k) :
    Answers volume d [name] (walkFrom volume memory [name]) := by
  rw [walkFrom, findItem_none stored holds missing]
  exact ⟨none, rfl, fun pos leads => absurd leads (not_leads_of_missing missing), fun _ => rfl⟩

/-- A component that is missing in front of others is dereferenced. -/
theorem not_answers_of_missing (missing : ∀ k, ¬ Names volume d name k) (next : CStr) :
    ¬ Answers volume d [name, next] (walkFrom volume memory [name, next]) := by
  rw [walkFrom, findItem_none stored holds missing, directoryEntryLoop]
  rintro ⟨result, answered, -⟩
  cases answered

variable (named : Names volume d name k) (inPlace : d.position k = memory.placeOf k)

include named inPlace

theorem walk_named (next : CStr) (path : List CStr) :
    walkFrom volume memory (name :: next :: path) =
      if (volume.itemAt (d.position k)).IsDirectory then
        walkFrom volume (fat16LoadFatDirectory volume (volume.itemAt (d.position k))) (next :: path)
      else some none := by
  have fresh := freshItem_eq (inPlace ▸ stored.onDisk k named.inside)
  rw [walkFrom, findItem_named stored holds named, fresh, ← inPlace]
  unfold fat16NewFatItemForDirectoryItem
  by_cases isDirectory : (volume.itemAt (d.position k)).attr &&& fatFileSubdirectory ≠ 0
  · rw [if_pos isDirectory, if_pos (show FatDirectoryItem.IsDirectory _ from isDirectory)]
    rfl
  · rw [if_neg isDirectory, if_neg (show ¬ FatDirectoryItem.IsDirectory _ from isDirectory)]
    rfl

/-- The paths through a component in place are answered as the rest is from its directory. -/
theorem answers_prefixes_iff (loads : LoadsAlong volume d (name :: rest)) :
    (∀ q, q <+: rest → Answers volume d (name :: q) (walkFrom volume memory (name :: q))) ↔
      ((volume.itemAt (d.position k)).IsDirectory →
        ∀ sub, DirectoryOf volume (volume.itemAt (d.position k)) sub → ∀ q, q ≠ [] → q <+: rest →
          Answers volume sub q
            (walkFrom volume (fat16LoadFatDirectory volume (volume.itemAt (d.position k))) q)) := by
  constructor
  · intro all isDirectory sub isSub q notEmpty isPrefix
    have answers := all q isPrefix
    cases q with
    | nil => exact absurd rfl notEmpty
    | cons next q =>
      rw [walk_named stored holds named inPlace, if_pos isDirectory] at answers
      exact (answers_down_iff named isDirectory isSub notEmpty).mp answers
  · intro below q isPrefix
    cases q with
    | nil => exact (answers_last_iff stored holds named).mpr inPlace
    | cons next q =>
      have more : next :: q ≠ [] := List.cons_ne_nil _ _
      rw [walk_named stored holds named inPlace]
      by_cases isDirectory : (volume.itemAt (d.position k)).IsDirectory
      · obtain ⟨sub, isSub⟩ := (loads (isPrefix.ne_nil more) k named isDirectory).1.onDisk
        rw [if_pos isDirectory]
        exact (answers_down_iff named isDirectory isSub more).mpr (below isDirectory sub isSub _ more isPrefix)
      · rw [if_neg isDirectory]
        exact ⟨none, rfl, fun pos leads => absurd leads (not_leads_through_file named isDirectory more), fun _ => rfl⟩

end Step

end Walk

/-- From a subdirectory a path and all paths on its way are answered exactly if they are in place.  By
induction on the path. -/
theorem answers_iff_inPlace {volume : FatVolume} (clusterPos : 0 < volume.header.clusterSize) {path : List CStr} :
    ∀ {d : DiskDirectory} {memory : FatDirectory}, d.Stored volume → HoldsNames volume memory d →
      memory.sectorPos = 0 → LoadsAlong volume d path →
      ((∀ q, q ≠ [] → q <+: path → Answers volume d q (walkFrom volume memory q)) ↔ InPlace volume d path) := by
  induction path with
  | nil =>
    intro d memory _ _ _ _
    exact ⟨fun _ => trivial, fun _ => forall_prefix_nil⟩
  | cons name rest ih =>
    intro d memory stored holds atZero loads
    have place : ∀ k, memory.placeOf k = directoryItemSize * k := by
      intro k
      rw [FatDirectory.placeOf, atZero, Nat.zero_mul, Nat.zero_add]
    -- what is below a component in place, by the induction hypothesis
    have below : ∀ k, Names volume d name k → (volume.itemAt (d.position k)).IsDirectory →
        ∀ sub, DirectoryOf volume (volume.itemAt (d.position k)) sub → rest ≠ [] →
          ((∀ q, q ≠ [] → q <+: rest → Answers volume sub q
            (walkFrom volume (fat16LoadFatDirectory volume (volume.itemAt (d.position k))) q)) ↔
              InPlace volume sub rest) := by
      intro k named isDirectory sub isSub more
      obtain ⟨complete, later⟩ := loads more k named isDirectory
      exact ih (isSub.stored clusterPos) (complete.holds sub isSub) rfl (later sub isSub)
    rw [forall_prefix_cons, InPlace]
    constructor
    · intro all
      refine ⟨fun more => ?_, fun k named => ?_⟩
      · by_contra missing
        obtain ⟨next, tail, rfl⟩ := List.exists_cons_of_ne_nil more
        -- the path that ends with the next component reads it through the null pointer
        exact not_answers_of_missing stored holds (not_exists.mp missing) next (all [next] (List.prefix_append [next] tail))
      · have inPlace := (answers_last_iff stored holds named).mp (all [] List.nil_prefix)
        refine ⟨inPlace.trans (place k), fun isDirectory sub isSub => ?_⟩
        have answers := (answers_prefixes_iff stored holds named inPlace loads).mp all isDirectory sub isSub
        by_cases more : rest = []
        · subst more
          trivial
        · exact (below k named isDirectory sub isSub more).mp answers
    · rintro ⟨present, inPlace⟩
      by_cases missing : ∃ k, Names volume d name k
      · obtain ⟨k, named⟩ := missing
        obtain ⟨isPlace, later⟩ := inPlace k named
        refine (answers_prefixes_iff stored holds named (isPlace.trans (place k).symm) loads).mpr ?_
        intro isDirectory sub isSub q notEmpty isPrefix
        have answers := (below k named isDirectory sub isSub (isPrefix.ne_nil notEmpty)).mpr
        exact answers (later isDirectory sub isSub) q notEmpty isPrefix
      · intro q isPrefix
        obtain rfl : rest = [] := by
          by_contra more
          exact missing (present more)
        obtain rfl := List.prefix_nil.mp isPrefix
        exact answers_missing stored holds (not_exists.mp missing)

/-! ## From the root -/

/-- The root directory is on the disk, ends at `stop`, and is held in memory with the names it has there. -/
structure RootLoaded (volume : FatVolume) (stop : Nat) : Prop where
  mounted : Mounted volume
  ends : RootEnds volume stop
  holds : HoldsNames volume volume.rootDirectory (volume.rootOnDisk stop)

section Root

variable {volume : FatVolume} {stop : Nat}

/-- The driver mounts a volume with its root directory loaded. -/
theorem rootLoaded_of_resolve {store : ByteStore} {header : FatHeader}
    (resolved : fat16Resolve store header = some volume) (consistent : header.Consistent store.size)
    (ends : RootEnds volume stop) : RootLoaded volume stop := by
  obtain ⟨mounted, rfl, rfl⟩ := mounted_of_resolve resolved consistent
  refine ⟨mounted, ends, ?_⟩
  -- what is in memory was read from the disk
  have items : ∀ k item, volume.rootDirectory.item[k]? = some item →
      k < volume.header.rootDirEntries ∧ item = volume.entry k := by
    unfold fat16Resolve fat16GetRootDirectory at resolved
    rw [ByteStore.read_stream] at resolved
    cases read : volume.store.read (volume.header.rootDirSectorPos * viosSectorSize)
        (volume.header.rootDirEntries * directoryItemSize) with
    | none =>
      rw [read] at resolved
      cases resolved
    | some buffer =>
      rw [read] at resolved
      have rootDirectory := congrArg FatVolume.rootDirectory (Option.some.inj resolved)
      intro k item here
      rw [← rootDirectory, directoryItems_getElem?] at here
      unfold ByteStore.read at read
      split at read
      · obtain rfl := Option.some.inj read
        split at here
        · rename_i inRoot
          refine ⟨inRoot, (Option.some.inj here).symm.trans (ofBytes_congr fun i _ => ?_)⟩
          rw [← Nat.cast_mul, Int.toNat_natCast, FatVolume.rootPos, Nat.mul_comm directoryItemSize, Nat.add_assoc]
        · cases here
      · cases read
  refine ⟨fun k below item here => ?_, fun k below _ => ?_, fun item here => ?_⟩
  · rw [(items k item here).2]
    exact ⟨rfl, rfl⟩
  · rw [mounted.length]
    exact Nat.lt_of_lt_of_le below ends.inside
  · obtain ⟨inRoot, rfl⟩ := items stop item here
    exact ends.ends inRoot

theorem rootPlace (mounted : Mounted volume) (stop k : Nat) :
    (volume.rootOnDisk stop).position k = volume.rootDirectory.placeOf k := by
  unfold FatDirectory.placeOf
  rw [mounted.sectorPos, Nat.mul_comm directoryItemSize]
  rfl

/-- A path and all paths on its way are answered exactly if the components below the root are in place. -/
theorem root_answers_iff (loaded : RootLoaded volume stop) {path : List CStr}
    (loads : LoadsAlong volume (volume.rootOnDisk stop) path) :
    (∀ q, q ≠ [] → q <+: path → Answers volume (volume.rootOnDisk stop) q (fat16GetDirectoryEntry volume q)) ↔
      PathInPlace volume (volume.rootOnDisk stop) path := by
  have stored := loaded.ends.stored loaded.mounted
  have clusterPos : 0 < volume.header.clusterSize :=
    Nat.mul_pos loaded.mounted.consistent.clusterPos (by decide)
  cases path with
  | nil => exact ⟨fun _ => trivial, fun _ => forall_prefix_nil⟩
  | cons name rest =>
    rw [forall_prefix_cons]
    by_cases there : ∃ k, Names volume (volume.rootOnDisk stop) name k
    · obtain ⟨k, named⟩ := there
      have walk : ∀ q, fat16GetDirectoryEntry volume (name :: q) =
          walkFrom volume volume.rootDirectory (name :: q) := by
        intro q
        rw [fat16GetDirectoryEntry, walkFrom, findItem_named stored loaded.holds named]
      simp only [walk]
      -- The root has its sector, so an entry of the root is read from its own place.
      rw [answers_prefixes_iff stored loaded.holds named (rootPlace loaded.mounted stop k) loads]
      have unique : PathInPlace volume (volume.rootOnDisk stop) (name :: rest) ↔
          ((volume.itemAt ((volume.rootOnDisk stop).position k)).IsDirectory →
            ∀ sub, DirectoryOf volume (volume.itemAt ((volume.rootOnDisk stop).position k)) sub →
              InPlace volume sub rest) := by
        refine ⟨fun inPlace => inPlace k named, fun below j named' => ?_⟩
        rwa [named'.unique named]
      rw [unique]
      refine forall_congr' fun isDirectory => forall_congr' fun sub => forall_congr' fun isSub => ?_
      by_cases more : rest = []
      · subst more
        exact ⟨fun _ => trivial, fun _ => forall_prefix_nil⟩
      · obtain ⟨complete, later⟩ := loads more k named isDirectory
        exact answers_iff_inPlace clusterPos (isSub.stored clusterPos) (complete.holds sub isSub) rfl (later sub isSub)
    · have none : ∀ q, fat16GetDirectoryEntry volume (name :: q) = some none := by
        intro q
        rw [fat16GetDirectoryEntry, findItem_none stored loaded.holds (not_exists.mp there)]
      refine ⟨fun _ k named => absurd ⟨k, named⟩ there, fun _ q _ => ?_⟩
      rw [none]
      exact ⟨_, rfl, fun pos leads => absurd leads (not_leads_of_missing (not_exists.mp there)), fun _ => rfl⟩

/-- A name that is longer than the names of entries. -/
def longName : CStr := List.replicate 13 0x61

theorem not_names_longName (d : DiskDirectory) (k : Nat) : ¬ Names volume d longName k := by
  intro named
  have equal := (istrncmp_eq_zero_iff viosMaxPath (fullName_noNul _) (by decide) (fullName_length _)).mp named.named.2
  have lengths := congrArg List.length equal
  rw [List.length_map, List.length_map] at lengths
  exact absurd (lengths ▸ fullName_length_le _) (by decide)

/-- The driver answers all paths if no name leads to a directory in the root, and then only; and it answers
a path and all paths on its way exactly if the components below the root are in place. -/
theorem directoryEntry_answers_iff (volume : FatVolume) (stop : Nat) (loaded : RootLoaded volume stop) :
    ((∀ name k, Names volume (volume.rootOnDisk stop) name k →
        (volume.itemAt ((volume.rootOnDisk stop).position k)).IsDirectory →
          Loads volume (volume.itemAt ((volume.rootOnDisk stop).position k))) →
      ((∀ path, path ≠ [] → Answers volume (volume.rootOnDisk stop) path (fat16GetDirectoryEntry volume path)) ↔
        ∀ name k, Names volume (volume.rootOnDisk stop) name k →
          ¬ (volume.itemAt ((volume.rootOnDisk stop).position k)).IsDirectory)) ∧
    ∀ path, LoadsAlong volume (volume.rootOnDisk stop) path →
      ((∀ q, q ≠ [] → q <+: path →
          Answers volume (volume.rootOnDisk stop) q (fat16GetDirectoryEntry volume q)) ↔
        PathInPlace volume (volume.rootOnDisk stop) path) := by
  refine ⟨fun complete => ⟨fun all name k named isDirectory => ?_, fun noDirectory path notEmpty => ?_⟩,
    fun path loads => root_answers_iff loaded loads⟩
  · -- No entry has the name `longName`: below a directory of the root this path misses on its way.
    have loads : LoadsAlong volume (volume.rootOnDisk stop) [name, longName, longName] := by
      refine fun _ j named' isDirectory' => ⟨complete name j named' isDirectory', fun sub _ _ i named'' => ?_⟩
      exact absurd named'' (not_names_longName sub i)
    have inPlace := (root_answers_iff loaded loads).mp fun q notEmpty _ => all q notEmpty
    obtain ⟨sub, isSub⟩ := (complete name k named isDirectory).onDisk
    obtain ⟨i, named''⟩ := (inPlace k named isDirectory sub isSub).1 (List.cons_ne_nil _ _)
    exact not_names_longName sub i named''
  · cases path with
    | nil => exact absurd rfl notEmpty
    | cons name rest =>
      have loads : LoadsAlong volume (volume.rootOnDisk stop) (name :: rest) :=
        fun _ k named isDirectory => absurd isDirectory (noDirectory name k named)
      have inPlace : PathInPlace volume (volume.rootOnDisk stop) (name :: rest) :=
        fun k named isDirectory => absurd isDirectory (noDirectory name k named)
      exact (root_answers_iff loaded loads).mpr inPlace _ notEmpty (List.prefix_refl _)

end Root

/-! ## A subdirectory with one file -/

/-- The slots of a subdirectory that are loaded are those on the disk, if all entries are counted and no
cluster is taken for a bad one. -/
theorem Subdirectory.holdsNames {volume : FatVolume} {item : FatDirectoryItem} {l : List Nat} {stop : Nat}
    (directory : Subdirectory volume item l stop) (clusterPos : 0 < volume.header.clusterSize)
    (noBad : fat16BadSector ∉ l.tail) (counted : SlotsCounted volume item l stop) :
    HoldsNames volume (fat16LoadFatDirectory volume item) (volume.subdirectoryOnDisk item stop) := by
  -- As far as it goes the array holds the slots of the disk, the end mark included.
  have slots : ∀ k ≤ stop, ∀ slot, (fat16LoadFatDirectory volume item).item[k]? = some slot →
      slot = volume.dirSlot (fat16GetFirstCluster item) k := by
    intro k within slot here
    have isCounted : k < volume.loadCount item := by
      rw [directory.load_item, directoryItems_getElem?] at here
      by_contra behind
      rw [if_neg behind] at here
      cases here
    have loaded := directory.loaded clusterPos within isCounted fun bad => noBad ?_
    · exact Option.some.inj (here.symm.trans loaded)
    · obtain ⟨n, -, found⟩ := mem_tail_take.mp bad
      rw [← List.getElem?_tail] at found
      exact List.mem_of_getElem? found
  refine ⟨fun k below slot here => ?_, fun k below live => ?_, fun slot here => ?_⟩
  · rw [itemAt_subdirectory clusterPos, slots k below.le slot here]
    exact ⟨rfl, rfl⟩
  · rw [itemAt_subdirectory clusterPos] at live
    rw [directory.load_item]
    unfold directoryItems
    rw [List.length_map, List.length_range]
    exact lt_loadCount_iff.mpr (counted k below live).1
  · rw [slots stop (Nat.le_refl stop) slot here]
    exact directory.marker

theorem Subdirectory.chain {volume : FatVolume} {item : FatDirectoryItem} {l : List Nat} {stop : Nat}
    (directory : Subdirectory volume item l stop) : DirectoryChain volume item l stop where
  head := directory.head
  path := directory.path
  complete := directory.complete
  onDisk := directory.onDisk
  inside := (Nat.mul_le_mul_left _ (Nat.le_succ stop)).trans directory.inside
  before := directory.before
  ends := fun _ => directory.marker

/-- A root directory with the directory `D` in cluster 2, which has the file `A`. -/
def treeTable : List (Nat × UInt8) :=
  [(4, 0xFF), (5, 0xFF), (32768, 0x44), (32779, 0x10), (32794, 2), (33280, 0x41)]

/-- The volume of a table, as it is mounted. -/
def mountedTable (table : List (Nat × UInt8)) : FatVolume :=
  (fat16Resolve (tableVolume table).store (tableVolume table).header).getD (tableVolume table)

def treeVolume : FatVolume := mountedTable treeTable

def treeRoot : DiskDirectory := treeVolume.rootOnDisk 1

theorem mountedTable_resolved (table : List (Nat × UInt8)) :
    fat16Resolve (tableVolume table).store (tableVolume table).header = some (mountedTable table) := by
  have read : (tableVolume table).store.read (65 * viosSectorSize : Nat) (16 * directoryItemSize) = _ :=
    read_eq (by decide : 65 * viosSectorSize + 16 * directoryItemSize ≤ 8192 * viosSectorSize)
  unfold mountedTable fat16Resolve fat16GetRootDirectory
  rw [Nat.cast_mul] at read
  rw [show ((tableVolume table).header.rootDirSectorPos : Int) = (65 : Nat) from rfl,
    show (tableVolume table).header.rootDirEntries = 16 from rfl, ByteStore.read_stream, read]
  rfl

theorem treeVolume_loaded : RootLoaded treeVolume 1 := by
  refine rootLoaded_of_resolve (mountedTable_resolved treeTable) tableHeader_consistent ⟨by decide, fun k below => ?_, fun _ => ?_⟩
  · obtain rfl := Nat.lt_one_iff.mp below
    decide +kernel
  · decide +kernel

/-- The entry of `D`. -/
def treeDirectory : FatDirectoryItem := treeVolume.itemAt (treeRoot.position 0)

theorem treeDirectory_subdirectory : Subdirectory treeVolume treeDirectory [2] 1 :=
  ⟨by decide +kernel, by decide +kernel, ⟨by decide, by decide, by unfold FatVolume.EntryOnDisk; decide,
    show ¬ IsDataCluster (treeVolume.fat 2) by decide⟩, by unfold IsEoc; decide,
    fun _ member => List.mem_singleton.mp member ▸ ⟨by decide, by decide, by decide⟩, by decide,
    by decide +kernel, by decide +kernel⟩

theorem treeDirectory_of : DirectoryOf treeVolume treeDirectory (treeVolume.subdirectoryOnDisk treeDirectory 1) :=
  ⟨[2], 1, treeDirectory_subdirectory.chain, rfl⟩

theorem treeDirectory_loads : Loads treeVolume treeDirectory := by
  refine ⟨⟨_, treeDirectory_of⟩, fun sub isSub => ?_⟩
  rw [isSub.unique treeDirectory_of]
  refine treeDirectory_subdirectory.holdsNames (by decide) (by decide) fun k below _ => ?_
  obtain rfl := Nat.lt_one_iff.mp below
  exact ⟨⟨1, ⟨by decide +kernel, by decide +kernel, by decide +kernel⟩, by decide +kernel⟩, by decide⟩

theorem treeRoot_named : Names treeVolume treeRoot [0x44] 0 :=
  ⟨by decide, ⟨by decide +kernel, by decide +kernel⟩, nofun⟩

/-- The directories of the root load. -/
theorem treeRoot_loads (name : CStr) (k : Nat) (named : Names treeVolume treeRoot name k)
    (_ : (treeVolume.itemAt (treeRoot.position k)).IsDirectory) :
    Loads treeVolume (treeVolume.itemAt (treeRoot.position k)) := by
  obtain rfl := Nat.lt_one_iff.mp named.inside
  exact treeDirectory_loads

theorem treeDirectory_answered :
    Answers treeVolume treeRoot [[0x44]] (fat16GetDirectoryEntry treeVolume [[0x44]]) ∧
      ¬ ∀ path, path ≠ [] → Answers treeVolume treeRoot path (fat16GetDirectoryEntry treeVolume path) := by
  obtain ⟨allPaths, onePath⟩ := directoryEntry_answers_iff treeVolume 1 treeVolume_loaded
  refine ⟨?_, fun all => ?_⟩
  · refine (onePath [[0x44]] fun more => absurd rfl more).mpr ?_ _ (List.cons_ne_nil _ _) (List.prefix_refl _)
    exact fun _ _ _ _ _ => trivial
  · exact (allPaths treeRoot_loads).mp all [0x44] 0 treeRoot_named (by decide +kernel)

/-- The file is at byte 33792 of the disk, and the driver answers with an entry at byte 0. -/
theorem fileBelow_not_answered :
    RootLoaded treeVolume 1 ∧ Loads treeVolume treeDirectory ∧ Leads treeVolume treeRoot [[0x44], [0x41]] 33792 ∧
      (fat16GetDirectoryEntry treeVolume [[0x44], [0x41]]).map
        (Option.map fun item => (item.directorySector, item.directoryOffset)) = some (some (0, 0)) ∧
      ¬ Answers treeVolume treeRoot [[0x44], [0x41]] (fat16GetDirectoryEntry treeVolume [[0x44], [0x41]]) := by
  have leads : Leads treeVolume treeRoot [[0x44], [0x41]] 33792 := by
    have file : Names treeVolume (treeVolume.subdirectoryOnDisk treeDirectory 1) [0x41] 0 :=
      ⟨by decide, ⟨by decide +kernel, by decide +kernel⟩, nofun⟩
    have place : (treeVolume.subdirectoryOnDisk treeDirectory 1).position 0 = 33792 := by decide +kernel
    exact .down treeRoot_named (by decide +kernel) treeDirectory_of (place ▸ .last file)
  have answer : (fat16GetDirectoryEntry treeVolume [[0x44], [0x41]]).map
      (Option.map fun item => (item.directorySector, item.directoryOffset)) = some (some (0, 0)) := by decide +kernel
  refine ⟨treeVolume_loaded, treeDirectory_loads, leads, answer, ?_⟩
  rintro ⟨result, answered, right, -⟩
  obtain ⟨item, rfl, -, located⟩ := right 33792 leads
  rw [answered] at answer
  -- The location of the answer is the boot sector.
  have place := Option.some.inj (Option.some.inj answer)
  rw [Prod.mk.injEq] at place
  have position := located.position
  rw [place.1, place.2] at position
  exact absurd position (by decide)

end ViOS.Fs
