import ViOS.Fs.ChainRead
import ViOS.Fs.ShortNames

/-! # Loading a subdirectory

`fat16_load_fat_directory` goes over a directory twice.  It counts the entries on the
sectors that follow the first cluster, and leaves out the deleted ones; then it reads as
many slots, from the first one on, along the chain of the clusters.

* `RawEnd`, `ByteStore.countSlots` — the first pass, over sectors that follow each other.
* `FatVolume.dirSlot`, `readInternal_bytes`, `readInternal_ne_allOk` — the second one, along the chain.
* `Subdirectory`, `LoadsLive`, `SlotsCounted` — the directories, and when they are loaded.
-/

namespace ViOS.Fs

/-! ## Counting -/

/-- The slot of a table of items that begins at a position. -/
def ByteStore.slotAt (store : ByteStore) (pos k : Nat) : FatDirectoryItem :=
  .ofBytes fun i => store.bytes (pos + directoryItemSize * k + i)

/-- The first slot behind the position that ends a directory. -/
structure RawEnd (store : ByteStore) (pos stop : Nat) : Prop where
  onDisk : pos + directoryItemSize * (stop + 1) ≤ store.size
  marker : (store.slotAt pos stop).filename 0 = 0
  before : ∀ k < stop, (store.slotAt pos k).filename 0 ≠ 0

/-- The slots in front of the end that are not deleted. -/
def ByteStore.countSlots (store : ByteStore) (pos stop : Nat) : Nat :=
  (List.range stop).countP fun k => (store.slotAt pos k).mark ≠ 0xE5

section Count

variable {store : ByteStore}

theorem slotAt_next (pos k : Nat) :
    store.slotAt (pos + directoryItemSize) k = store.slotAt pos (k + 1) := by
  unfold ByteStore.slotAt
  rw [Nat.mul_succ, Nat.add_assoc pos, Nat.add_comm directoryItemSize]

theorem countSlots_next (pos stop : Nat) :
    store.countSlots pos (stop + 1) = if (store.slotAt pos 0).filename 0 = 0xE5 then
      store.countSlots (pos + directoryItemSize) stop
    else store.countSlots (pos + directoryItemSize) stop + 1 := by
  unfold ByteStore.countSlots
  rw [List.range_succ_eq_map, List.countP_cons, List.countP_map]
  have later : (fun k => decide ((store.slotAt pos k).filename 0 ≠ 0xE5)) ∘ Nat.succ =
      fun k => decide ((store.slotAt (pos + directoryItemSize) k).filename 0 ≠ 0xE5) := by
    funext k
    rw [slotAt_next]
    rfl
  rw [later]
  by_cases deleted : (store.slotAt pos 0).filename 0 = 0xE5
  · simp [deleted]
  · simp [deleted]

/-- One turn of the count. -/
theorem totalItemsLoop_turn {pos : Nat} (onDisk : pos + directoryItemSize ≤ store.size) (fuel : Nat) :
    totalItemsLoop store (fuel + 1) pos =
      if (store.slotAt pos 0).filename 0 = 0 then some 0
      else (totalItemsLoop store fuel (pos + directoryItemSize : Nat)).map fun count =>
        if (store.slotAt pos 0).filename 0 = 0xE5 then count else count + 1 := by
  rw [totalItemsLoop, ByteStore.read_stream, read_eq onDisk, Nat.cast_add]
  rfl

/-- The count ends at the first slot that ends a directory. -/
theorem totalItemsLoop_counts {stop : Nat} :
    ∀ {pos fuel : Nat}, RawEnd store pos stop → stop < fuel →
      totalItemsLoop store fuel pos = some (store.countSlots pos stop) := by
  induction stop with
  | zero =>
    intro pos fuel isEnd enough
    obtain ⟨fuel, rfl⟩ := Nat.exists_eq_succ_of_ne_zero enough.ne'
    rw [totalItemsLoop_turn isEnd.onDisk, if_pos isEnd.marker]
    rfl
  | succ stop ih =>
    intro pos fuel isEnd enough
    obtain ⟨fuel, rfl⟩ := Nat.exists_eq_succ_of_ne_zero (Nat.ne_zero_of_lt enough)
    have inside := isEnd.onDisk
    rw [Nat.mul_succ] at inside
    have rest : RawEnd store (pos + directoryItemSize) stop := by
      refine ⟨by omega, ?_, fun k below => ?_⟩
      · rw [slotAt_next]
        exact isEnd.marker
      · rw [slotAt_next]
        exact isEnd.before _ (Nat.succ_lt_succ below)
    have next := ih rest (Nat.lt_of_succ_lt_succ enough)
    rw [totalItemsLoop_turn (by omega), if_neg (isEnd.before 0 (Nat.succ_pos _)), next, Option.map_some,
      countSlots_next]

/-- A count that ends has found the end of a directory. -/
theorem rawEnd_of_totalItemsLoop {fuel : Nat} :
    ∀ {pos n : Nat}, totalItemsLoop store fuel pos = some n →
      ∃ stop < fuel, RawEnd store pos stop := by
  induction fuel with
  | zero => exact fun counted => nomatch counted
  | succ fuel ih =>
    intro pos n counted
    by_cases onDisk : pos + directoryItemSize ≤ store.size
    · rw [totalItemsLoop_turn onDisk] at counted
      by_cases marker : (store.slotAt pos 0).filename 0 = 0
      · exact ⟨0, Nat.succ_pos _, onDisk, marker, fun _ below => absurd below (Nat.not_lt_zero _)⟩
      · rw [if_neg marker] at counted
        obtain ⟨count, rest, -⟩ := Option.map_eq_some_iff.mp counted
        obtain ⟨stop, below, isEnd⟩ := ih rest
        have inside := isEnd.onDisk
        refine ⟨stop + 1, Nat.succ_lt_succ below, ?_, ?_, ?_⟩
        · rw [Nat.mul_succ]
          omega
        · rw [← slotAt_next]
          exact isEnd.marker
        · intro k below
          cases k with
          | zero => exact marker
          | succ k =>
            rw [← slotAt_next]
            exact isEnd.before k (Nat.lt_of_succ_lt_succ below)
    · rw [totalItemsLoop, ByteStore.read_stream, ByteStore.read, if_neg (by omega)] at counted
      cases counted

/-- What `fat16_get_total_items_for_directory` counts. -/
theorem totalItems_iff {pos n : Nat} :
    totalItemsLoop store (store.size + 1) pos = some n ↔
      ∃ stop, RawEnd store pos stop ∧ store.countSlots pos stop = n := by
  constructor
  · intro counted
    obtain ⟨stop, below, isEnd⟩ := rawEnd_of_totalItemsLoop counted
    refine ⟨stop, isEnd, ?_⟩
    rw [totalItemsLoop_counts isEnd below] at counted
    exact Option.some.inj counted
  · rintro ⟨stop, isEnd, rfl⟩
    have inside := isEnd.onDisk
    unfold directoryItemSize at inside
    exact totalItemsLoop_counts isEnd (by omega)

end Count

/-! ## Reading -/

/-- The slot of a directory, along the chain that begins at a cluster. -/
def FatVolume.dirSlot (volume : FatVolume) (first k : Nat) : FatDirectoryItem :=
  .ofBytes fun i => volume.streamByte first (directoryItemSize * k + i)

section Read

variable {volume : FatVolume} {start : Int}

/-- The bytes in front of the first lookup that fails are stored. -/
theorem readLoop_stored (clusterPos : 0 < volume.header.clusterSize) (fuel : Nat) :
    ∀ {offset total good i : Nat}, total ≤ fuel → good ≤ total → Covers volume start offset good →
      i < good → (readLoop volume start fuel offset total).2[i]? =
        some (volume.streamByte (toUInt16 start) (offset + i)) := by
  induction fuel with
  | zero => exact fun enough within _ inside => absurd inside (by omega)
  | succ fuel ih =>
    intro offset total good i enough within covers inside
    have more : total ≠ 0 := by omega
    have positive := pieceLength_pos clusterPos offset more
    have atMost := @pieceLength_le volume offset total
    have slice : (volume.streamSlice (toUInt16 start) offset (volume.pieceLength offset total)).length =
        volume.pieceLength offset total := streamSlice_length _ _ _
    have here : Covers volume start offset 1 := covers.mono (Nat.le_refl offset) (by omega)
    rw [readLoop_turn more clusterPos here]
    -- The byte is in the piece of this turn, or in what the later turns read.
    by_cases inPiece : i < volume.pieceLength offset total
    · rw [List.getElem?_append_left (by omega)]
      unfold FatVolume.streamSlice
      rw [List.getElem?_map, List.getElem?_range inPiece]
      rfl
    · have rest := @ih (offset + volume.pieceLength offset total)
        (total - volume.pieceLength offset total) (good - volume.pieceLength offset total)
        (i - volume.pieceLength offset total) (by omega) (by omega) (covers.mono (by omega) (by omega))
        (by omega)
      rw [List.getElem?_append_right (by omega), slice, rest]
      congr 2
      omega

theorem readPart_length (store : ByteStore) (pos : Int) (total : Nat) :
    (store.readPart pos total).length ≤ total := by
  unfold ByteStore.readPart
  split
  · rw [List.length_map, List.length_range]
    exact Nat.min_le_left _ _
  · exact Nat.zero_le _

/-- Nothing is stored from a cluster on whose lookup fails. -/
theorem readLoop_stops (clusterPos : 0 < volume.header.clusterSize) {k : Nat}
    (fails : fat16GetClusterForOffset volume start (k * volume.header.clusterSize : Nat) < 0) (fuel : Nat) :
    ∀ {offset total : Nat}, offset ≤ k * volume.header.clusterSize →
      (readLoop volume start fuel offset total).2.length ≤ k * volume.header.clusterSize - offset := by
  induction fuel with
  | zero => exact fun _ => Nat.zero_le _
  | succ fuel ih =>
    intro offset total before
    by_cases none : total = 0
    · subst none
      exact Nat.zero_le _
    · by_cases failsHere : fat16GetClusterForOffset volume start offset < 0
      · rw [readLoop, if_neg none]
        simp only [failsHere, if_true]
        exact Nat.zero_le _
      · obtain ⟨cluster, found⟩ : ∃ c : Nat, fat16GetClusterForOffset volume start offset = c :=
          ⟨_, (Int.toNat_of_nonneg (by omega)).symm⟩
        have atMost := @pieceLength_le volume offset total
        -- the piece ends in front of the cluster whose lookup fails
        have ends : offset + volume.pieceLength offset total ≤ k * volume.header.clusterSize := by
          have earlier : offset < k * volume.header.clusterSize := by
            apply lt_of_le_of_ne before
            rintro rfl
            exact failsHere fails
          have piece : volume.pieceLength offset total ≤
              volume.header.clusterSize - offset % volume.header.clusterSize := Nat.min_le_left _ _
          have remainder := Nat.mod_lt offset clusterPos
          have place := Nat.div_add_mod' offset volume.header.clusterSize
          have next := Nat.mul_le_mul_right volume.header.clusterSize
            (Nat.succ_le_of_lt (Nat.div_lt_of_lt_mul (Nat.mul_comm k _ ▸ earlier)))
          rw [Nat.succ_mul] at next
          omega
        rw [readLoop_found none clusterPos found]
        cases read : volume.store.read (volume.clusterPosition cluster +
            (offset % volume.header.clusterSize : Nat)) (volume.pieceLength offset total) with
        | none =>
          exact (readPart_length _ _ _).trans (by omega)
        | some buffer =>
          have rest := @ih (offset + volume.pieceLength offset total)
            (total - volume.pieceLength offset total) ends
          rw [List.length_append, List.length_map, List.length_range]
          omega

end Read

/-! ## Subdirectories -/

/-- A subdirectory: slots along a complete chain on the disk, the first one that begins with a zero
at index `stop`. -/
structure Subdirectory (volume : FatVolume) (item : FatDirectoryItem) (l : List Nat) (stop : Nat) : Prop where
  isDirectory : item.attr &&& fatFileSubdirectory ≠ 0
  head : l.headD 0 = fat16GetFirstCluster item
  path : FatPath volume l
  complete : IsEoc (volume.lastEntry l)
  onDisk : ∀ cluster ∈ l, volume.ClusterOnDisk cluster
  inside : directoryItemSize * (stop + 1) ≤ l.length * volume.header.clusterSize
  marker : (volume.dirSlot (fat16GetFirstCluster item) stop).filename 0 = 0
  before : ∀ k < stop, (volume.dirSlot (fat16GetFirstCluster item) k).filename 0 ≠ 0

/-- Every entry in front of the end is in the array that is loaded, at its index, and the search for its name
stops there, unless an earlier entry has the same name. -/
structure LoadsLive (volume : FatVolume) (item : FatDirectoryItem) (stop : Nat) : Prop where
  contains : ∀ k < stop, (volume.dirSlot (fat16GetFirstCluster item) k).filename 0 ≠ 0xE5 →
    (fat16LoadFatDirectory volume item).item[k]? = some (volume.dirSlot (fat16GetFirstCluster item) k)
  findable : ∀ k < stop, (volume.dirSlot (fat16GetFirstCluster item) k).filename 0 ≠ 0xE5 →
    (∀ j < k, ¬ Matches (fat16GetFullRelativeFilename (volume.dirSlot (fat16GetFirstCluster item) k))
      (volume.dirSlot (fat16GetFirstCluster item) j)) →
    findItemLoop (fat16GetFullRelativeFilename (volume.dirSlot (fat16GetFirstCluster item) k)) 0
      (fat16LoadFatDirectory volume item).item = some k

/-- Where the first cluster of a directory begins. -/
def FatVolume.dirPos (volume : FatVolume) (item : FatDirectoryItem) : Nat :=
  (volume.clusterPosition (fat16GetFirstCluster item : Nat)).toNat

/-- The index of each entry is less than the number of entries that are counted behind the start of the
first cluster, and no cluster up to the one with the entry has the number the driver takes for a bad
cluster. -/
def SlotsCounted (volume : FatVolume) (item : FatDirectoryItem) (l : List Nat) (stop : Nat) : Prop :=
  ∀ k < stop, (volume.dirSlot (fat16GetFirstCluster item) k).mark ≠ 0xE5 →
    (∃ rawStop, RawEnd volume.store (volume.dirPos item) rawStop ∧
      k < volume.store.countSlots (volume.dirPos item) rawStop) ∧
    fat16BadSector ∉ (l.take (volume.clustersAhead (directoryItemSize * k) + 1)).tail

section Load

variable {volume : FatVolume} {item : FatDirectoryItem} {l : List Nat} {stop : Nat}

theorem readInternal_bytes (volume : FatVolume) (start offset total : Int) :
    (fat16ReadInternal volume start offset total).2 =
      (readLoop volume start total.toNat offset total.toNat).2 := by
  unfold fat16ReadInternal
  cases readLoop volume start total.toNat offset total.toNat with
  | mk res bytes =>
    by_cases failed : res < 0
    · simp only [failed, if_true]
    · simp only [failed, if_false]

theorem directoryItems_getElem? (count k : Nat) (buffer : Nat → UInt8) :
    (directoryItems count buffer)[k]? =
      if k < count then some (.ofBytes fun offset => buffer (directoryItemSize * k + offset)) else none := by
  unfold directoryItems
  rw [List.getElem?_map]
  split
  · rename_i below
    rw [List.getElem?_range below]
    rfl
  · rename_i above
    rw [List.getElem?_eq_none (by rw [List.length_range]; omega)]
    rfl

/-- The number of items that are loaded. -/
def FatVolume.loadCount (volume : FatVolume) (item : FatDirectoryItem) : Nat :=
  (totalItemsLoop volume.store (volume.store.size + 1) (volume.dirPos item)).getD 0

/-- The bytes that are loaded. -/
def FatVolume.loadBytes (volume : FatVolume) (item : FatDirectoryItem) : List UInt8 :=
  (readLoop volume (fat16GetFirstCluster item : Nat) (volume.loadCount item * directoryItemSize) (0 : Nat)
    (volume.loadCount item * directoryItemSize)).2

theorem FatVolume.loadBytes_eq (volume : FatVolume) (item : FatDirectoryItem) :
    volume.loadBytes item = (readLoop volume (fat16GetFirstCluster item : Nat)
      (volume.loadCount item * directoryItemSize) (0 : Nat) (volume.loadCount item * directoryItemSize)).2 := by
  -- unfolded as a function: with its arguments the definition would be evaluated
  have asFunction : FatVolume.loadBytes = fun volume item => (readLoop volume (fat16GetFirstCluster item : Nat)
      (volume.loadCount item * directoryItemSize) (0 : Nat) (volume.loadCount item * directoryItemSize)).2 := rfl
  exact congrFun (congrFun asFunction volume) item

/-- The first cluster is where the directory begins. -/
theorem Subdirectory.begins (directory : Subdirectory volume item l stop) :
    volume.clusterPosition (fat16GetFirstCluster item : Nat) = (volume.dirPos item : Nat) := by
  have onDisk := directory.onDisk (l.headD 0) (by
    rw [headD_eq_getElem directory.path.length_pos]
    exact List.getElem_mem _)
  rw [directory.head] at onDisk
  exact (Int.toNat_of_nonneg onDisk.start).symm

theorem Subdirectory.load_item (directory : Subdirectory volume item l stop) :
    (fat16LoadFatDirectory volume item).item =
      directoryItems (volume.loadCount item) fun i => (volume.loadBytes item).getD i 0 := by
  have first := directory.path.first.1
  rw [directory.head] at first
  have load : (fat16LoadFatDirectory volume item).item = directoryItems (volume.loadCount item) fun i =>
      (fat16ReadInternal volume (fat16GetFirstCluster item : Nat) (0 : Nat)
        (volume.loadCount item * directoryItemSize)).2.getD i 0 := by
    unfold fat16LoadFatDirectory FatVolume.loadCount
    rw [← directory.begins, ← first, Nat.cast_zero]
    rfl
  rw [load, readInternal_bytes, ← Nat.cast_mul, Int.toNat_natCast, FatVolume.loadBytes_eq]

/-- A slot is inside a cluster. -/
theorem clustersAhead_slot (volume : FatVolume) {k i : Nat} (inSlot : i < directoryItemSize) :
    volume.clustersAhead (directoryItemSize * k + i) = volume.clustersAhead (directoryItemSize * k) := by
  have size : volume.header.clusterSize = directoryItemSize * (volume.header.sectorsPerCluster * 16) := by
    unfold FatHeader.clusterSize viosSectorSize directoryItemSize
    omega
  unfold FatVolume.clustersAhead
  rw [size, Nat.mul_div_mul_left _ _ (by decide : 0 < directoryItemSize), ← Nat.div_div_eq_div_mul,
    Nat.mul_add_div (by decide), Nat.div_eq_of_lt inSlot, Nat.add_zero]

/-- A slot that is counted is loaded, unless cluster 0xFF7 is met on the way. -/
theorem Subdirectory.loaded (directory : Subdirectory volume item l stop)
    (clusterPos : 0 < volume.header.clusterSize) {k : Nat} (inDirectory : k ≤ stop)
    (counted : k < volume.loadCount item)
    (noBad : fat16BadSector ∉ (l.take (volume.clustersAhead (directoryItemSize * k) + 1)).tail) :
    (fat16LoadFatDirectory volume item).item[k]? =
      some (volume.dirSlot (fat16GetFirstCluster item) k) := by
  have head := directory.path.first.2
  rw [directory.head] at head
  have room := directory.inside
  have atMost : directoryItemSize * (k + 1) ≤ directoryItemSize * (stop + 1) :=
    Nat.mul_le_mul_left _ (by omega)
  have toRead : directoryItemSize * (k + 1) ≤ volume.loadCount item * directoryItemSize := by
    rw [Nat.mul_comm directoryItemSize]
    exact Nat.mul_le_mul_right _ counted
  have covers : Covers volume (fat16GetFirstCluster item : Nat) 0 (directoryItemSize * (k + 1)) := by
    rw [← directory.head]
    apply directory.path.covers directory.onDisk clusterPos (by omega)
    have last : 0 + directoryItemSize * (k + 1) - 1 = directoryItemSize * k + (directoryItemSize - 1) := by
      rw [Nat.mul_succ]
      unfold directoryItemSize
      omega
    rwa [last, clustersAhead_slot volume (by decide)]
  rw [directory.load_item, directoryItems_getElem?, if_pos counted]
  congr 1
  apply ofBytes_congr
  intro i inSlot
  have stored := readLoop_stored clusterPos (volume.loadCount item * directoryItemSize) (Nat.le_refl _) toRead
    covers (i := directoryItemSize * k + i) (by rw [Nat.mul_succ]; omega)
  rw [head, Nat.zero_add] at stored
  rw [List.getD_eq_getElem?_getD, FatVolume.loadBytes_eq, stored, Option.getD_some]

/-- Behind cluster 0xFF7 nothing is loaded. -/
theorem Subdirectory.not_loaded (directory : Subdirectory volume item l stop)
    (clusterPos : 0 < volume.header.clusterSize) {k : Nat} (inDirectory : k < stop)
    (bad : fat16BadSector ∈ (l.take (volume.clustersAhead (directoryItemSize * k) + 1)).tail) :
    (fat16LoadFatDirectory volume item).item[k]? ≠
      some (volume.dirSlot (fat16GetFirstCluster item) k) := by
  intro loaded
  have fails : fat16GetClusterForOffset volume (fat16GetFirstCluster item : Nat)
      (volume.clustersAhead (directoryItemSize * k) * volume.header.clusterSize : Nat) < 0 := by
    have ahead : volume.clustersAhead
        (volume.clustersAhead (directoryItemSize * k) * volume.header.clusterSize) =
        volume.clustersAhead (directoryItemSize * k) := Nat.mul_div_cancel _ clusterPos
    rw [← directory.head, directory.path.lookup_eq, ahead, (clusterWalk_bad directory.path bad).1]
    decide
  -- The read ends in front of the cluster that cannot be looked up.
  have short := @readLoop_stops volume _ clusterPos _ fails (volume.loadCount item * directoryItemSize) 0
    (volume.loadCount item * directoryItemSize) (Nat.zero_le _)
  rw [← FatVolume.loadBytes_eq] at short
  have cluster := Nat.div_mul_le_self (directoryItemSize * k) volume.header.clusterSize
  have missing : (volume.loadBytes item).length ≤ directoryItemSize * k :=
    short.trans ((Nat.sub_le _ _).trans cluster)
  rw [directory.load_item, directoryItems_getElem?] at loaded
  split at loaded
  · -- What was not read is zero, and a slot in use does not start with zero.
    have first := congrArg (fun slot => slot.filename 0) (Option.some.inj loaded)
    have zero : (volume.loadBytes item).getD (directoryItemSize * k + 0) 0 = 0 := by
      rw [List.getD_eq_getElem?_getD, List.getElem?_eq_none (by omega), Option.getD_none]
    exact directory.before k inDirectory (first.symm.trans zero)
  · cases loaded

/-- The items are counted behind the start of the first cluster. -/
theorem lt_loadCount_iff {k : Nat} :
    k < volume.loadCount item ↔
      ∃ rawStop, RawEnd volume.store (volume.dirPos item) rawStop ∧
        k < volume.store.countSlots (volume.dirPos item) rawStop := by
  unfold FatVolume.loadCount
  constructor
  · intro counted
    cases total : totalItemsLoop volume.store (volume.store.size + 1) (volume.dirPos item) with
    | none =>
      rw [total] at counted
      exact absurd counted (Nat.not_lt_zero _)
    | some n =>
      rw [total] at counted
      obtain ⟨rawStop, isEnd, isCount⟩ := totalItems_iff.mp total
      exact ⟨rawStop, isEnd, isCount ▸ counted⟩
  · rintro ⟨rawStop, isEnd, counted⟩
    rw [totalItems_iff.mpr ⟨rawStop, isEnd, rfl⟩]
    exact counted

/-- The search for the name of an entry stops at it, when the entries in front of it are in use and have
other names. -/
theorem findItemLoop_self {items : List FatDirectoryItem} {k : Nat} {item : FatDirectoryItem}
    (here : items[k]? = some item) (live : item.filename 0 ≠ 0) (notDeleted : item.filename 0 ≠ 0xE5)
    (before : ∀ j < k, ∃ x, items[j]? = some x ∧ x.filename 0 ≠ 0 ∧
      ¬ Matches (fat16GetFullRelativeFilename item) x) :
    findItemLoop (fat16GetFullRelativeFilename item) 0 items = some k := by
  obtain ⟨inside, isItem⟩ := List.getElem?_eq_some_iff.mp here
  have same : istrncmp (fat16GetFullRelativeFilename item) (fat16GetFullRelativeFilename item) viosMaxPath = 0 :=
    (istrncmp_eq_zero_iff viosMaxPath (fullName_noNul item) (fullName_noNul item) (fullName_length item)).mpr rfl
  have earlier : ∀ x ∈ items.take k, x.filename 0 ≠ 0 ∧ ¬ Matches (fat16GetFullRelativeFilename item) x := by
    intro x member
    obtain ⟨j, index⟩ := List.mem_iff_getElem?.mp member
    rw [List.getElem?_take] at index
    split at index
    next below =>
      obtain ⟨y, isY, holds⟩ := before j below
      rw [isY] at index
      exact Option.some.inj index ▸ holds
    next => cases index
  have split : items = items.take k ++ item :: items.drop (k + 1) := by
    rw [← isItem, ← List.drop_eq_getElem_cons inside, List.take_append_drop]
  have found := (@findItemLoop_behind_iff _ item live (items.take k) (items.drop (k + 1)) 0
    fun x member => (earlier x member).1).mpr ⟨fun x member => (earlier x member).2, notDeleted, same⟩
  rwa [← split, Nat.zero_add, List.length_take, Nat.min_eq_left inside.le] at found

/-- The entries in front of the end are loaded and found exactly if they are counted. -/
theorem loadsLive_iff (clusterPos : 0 < volume.header.sectorsPerCluster)
    (directory : Subdirectory volume item l stop) :
    LoadsLive volume item stop ↔ SlotsCounted volume item l stop := by
  have bytesPos : 0 < volume.header.clusterSize := Nat.mul_pos clusterPos (by decide)
  constructor
  · intro loads k inDirectory live
    have loaded := loads.contains k inDirectory live
    refine ⟨lt_loadCount_iff.mp ?_, fun bad => directory.not_loaded bytesPos inDirectory bad loaded⟩
    rw [directory.load_item, directoryItems_getElem?] at loaded
    by_contra notCounted
    rw [if_neg notCounted] at loaded
    cases loaded
  · intro counted
    refine ⟨fun k inDirectory live => ?_, fun k inDirectory live isFirst => ?_⟩
    · obtain ⟨isCounted, noBad⟩ := counted k inDirectory live
      exact directory.loaded bytesPos inDirectory.le (lt_loadCount_iff.mpr isCounted) noBad
    · obtain ⟨isCounted, noBad⟩ := counted k inDirectory live
      have below := lt_loadCount_iff.mpr isCounted
      -- the slots up to this one are loaded, the deleted ones too
      have upTo : ∀ j ≤ k, (fat16LoadFatDirectory volume item).item[j]? =
          some (volume.dirSlot (fat16GetFirstCluster item) j) := by
        intro j earlier
        apply directory.loaded bytesPos (by omega) (by omega)
        intro bad
        obtain ⟨n, before, found⟩ := mem_tail_take.mp bad
        have ordered : volume.clustersAhead (directoryItemSize * j) ≤
            volume.clustersAhead (directoryItemSize * k) :=
          Nat.div_le_div_right (Nat.mul_le_mul_left _ earlier)
        exact noBad (mem_tail_take.mpr ⟨n, by omega, found⟩)
      exact findItemLoop_self (upTo k (Nat.le_refl k)) (directory.before k inDirectory) live fun j below =>
        ⟨_, upTo j below.le, directory.before j (by omega), isFirst j below⟩

/-- A read that stores a byte does not return `VIOS_ALL_OK`. -/
theorem readInternal_ne_allOk (volume : FatVolume) (start : Int) {total : Nat}
    (stored : 0 < (readLoop volume start total (0 : Nat) total).2.length) :
    (fat16ReadInternal volume start (0 : Nat) (total : Nat)).1 ≠ viosAllOk := by
  unfold fat16ReadInternal
  rw [Int.toNat_natCast]
  cases read : readLoop volume start total (0 : Nat) total with
  | mk res bytes =>
    rw [read] at stored
    change 0 < bytes.length at stored
    unfold viosAllOk
    by_cases failed : res < 0
    · simp only [failed, if_true]
      omega
    · simp only [failed, if_false]
      omega

/-- A directory with an item is freed before it is returned: the number of its bytes is taken for an
error.  The driver goes on with the memory that was freed. -/
theorem Subdirectory.freed (directory : Subdirectory volume item l stop)
    (clusterPos : 0 < volume.header.clusterSize) (counted : 0 < volume.loadCount item) :
    (fat16ReadInternal volume (fat16GetFirstCluster item : Nat) (0 : Nat)
      (volume.loadCount item * directoryItemSize : Nat)).1 ≠ viosAllOk := by
  have toRead : 1 ≤ volume.loadCount item * directoryItemSize := Nat.mul_pos counted (by decide)
  have covers : Covers volume (fat16GetFirstCluster item : Nat) 0 1 := by
    have room := Nat.mul_pos directory.path.length_pos clusterPos
    rw [← directory.head]
    apply directory.path.covers directory.onDisk clusterPos (by omega)
    have ahead : volume.clustersAhead (0 + 1 - 1) = 0 := Nat.zero_div _
    rw [ahead]
    cases l with
    | nil => exact List.not_mem_nil
    | cons c rest => exact List.not_mem_nil
  have stored := readLoop_stored clusterPos (volume.loadCount item * directoryItemSize) (Nat.le_refl _) toRead
    covers (Nat.zero_lt_one)
  obtain ⟨notEmpty, -⟩ := List.getElem?_eq_some_iff.mp stored
  exact readInternal_ne_allOk volume _ notEmpty

end Load

/-! ## Two directories -/

/-- The entry of a directory whose only cluster is 2. -/
def directoryAt2 : FatDirectoryItem := { FatDirectoryItem.zero.withFirstCluster 2 with attr := fatFileSubdirectory }

/-- A directory with one entry. -/
def oneEntry : FatVolume := tableVolume [(4, 0xFF), (5, 0xFF), (33280, 0x41)]

/-- A directory with a deleted entry in front of the one entry. -/
def entryBehindDeleted : FatVolume := tableVolume [(4, 0xFF), (5, 0xFF), (33280, 0xE5), (33312, 0x41)]

theorem oneEntry_directory : Subdirectory oneEntry directoryAt2 [2] 1 :=
  ⟨by decide, by decide, ⟨by decide, by decide, by unfold FatVolume.EntryOnDisk; decide,
    show ¬ IsDataCluster (oneEntry.fat 2) by decide⟩, by unfold IsEoc; decide,
    fun _ member => List.mem_singleton.mp member ▸ ⟨by decide, by decide, by decide⟩, by decide,
    by decide +kernel, by decide +kernel⟩

theorem oneEntry_loaded : LoadsLive oneEntry directoryAt2 1 := by
  refine (loadsLive_iff (by decide) oneEntry_directory).mpr fun k below _ => ?_
  obtain rfl := Nat.lt_one_iff.mp below
  exact ⟨⟨1, ⟨by decide, by decide +kernel, by decide +kernel⟩, by decide +kernel⟩, by decide⟩

theorem entryBehindDeleted_directory : Subdirectory entryBehindDeleted directoryAt2 [2] 2 :=
  ⟨by decide, by decide, ⟨by decide, by decide, by unfold FatVolume.EntryOnDisk; decide,
    show ¬ IsDataCluster (entryBehindDeleted.fat 2) by decide⟩, by unfold IsEoc; decide,
    fun _ member => List.mem_singleton.mp member ▸ ⟨by decide, by decide, by decide⟩, by decide,
    by decide +kernel, by decide +kernel⟩

/-- The entry in slot 1 is not loaded, since one entry was counted. -/
theorem entryBehindDeleted_lost :
    Subdirectory entryBehindDeleted directoryAt2 [2] 2 ∧
      (fat16LoadFatDirectory entryBehindDeleted directoryAt2).item.length = 1 ∧
      ¬ LoadsLive entryBehindDeleted directoryAt2 2 := by
  refine ⟨entryBehindDeleted_directory, by decide +kernel, fun loads => ?_⟩
  have loaded := loads.contains 1 (by decide) (by decide +kernel)
  have missing : (fat16LoadFatDirectory entryBehindDeleted directoryAt2).item[1]?.isNone = true := by
    decide +kernel
  rw [loaded] at missing
  cases missing

end ViOS.Fs
