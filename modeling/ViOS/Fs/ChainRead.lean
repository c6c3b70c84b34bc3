import ViOS.Fs.ClusterWalk
import Mathlib.Data.Finset.Max

/-! # Reading along a chain

`fat16_read` reads item by item, and `fat16_read_internal` reads each item cluster by
cluster, looking up the cluster of every piece from the start of the chain.  Together they
return one slice of the bytes of the chain, as long as the lookups succeed.

* `FatVolume.chainBytes` — the clusters of a chain, one behind the other.
* `Covers` — the lookups of a range succeed, and their clusters are on the disk.
* `readLoop_slice`, `readLoop_fails` — what one item reads, and when it fails.
* `FileChain`, `FatReads` — the files, and what reading should do.
-/

namespace ViOS.Fs

open ViOS.Lib

/-! ## The bytes of a chain -/

namespace FatVolume

variable (volume : FatVolume)

/-- A cluster on the disk, where an `int` holds every position. -/
structure ClusterOnDisk (cluster : Nat) : Prop where
  start : 0 ≤ volume.clusterPosition cluster
  ending : volume.clusterPosition cluster + volume.header.clusterSize ≤ volume.store.size
  small : volume.clusterPosition cluster + volume.header.clusterSize < 2 ^ 31

/-- The bytes of a cluster. -/
def clusterBytes (cluster : Nat) : List UInt8 :=
  (List.range volume.header.clusterSize).map fun i =>
    volume.store.bytes ((volume.clusterPosition cluster).toNat + i)

/-- The first clusters of the chain that begins at a cluster, one behind the other. -/
def chainBytes (first count : Nat) : List UInt8 :=
  (List.range count).flatMap fun i => volume.clusterBytes (volume.fat^[i] first)

/-- A byte of the chain. -/
def streamByte (first offset : Nat) : UInt8 :=
  volume.store.bytes
    ((volume.clusterPosition (volume.fat^[volume.clustersAhead offset] first : Nat)).toNat +
      offset % volume.header.clusterSize)

/-- The bytes of a range of the chain. -/
def streamSlice (first offset total : Nat) : List UInt8 :=
  (List.range total).map fun i => volume.streamByte first (offset + i)

end FatVolume

/-- The lookup succeeds at every offset of a range, and finds clusters on the disk. -/
def Covers (volume : FatVolume) (start : Int) (offset total : Nat) : Prop :=
  ∀ o, offset ≤ o → o < offset + total →
    ∃ cluster : Nat, fat16GetClusterForOffset volume start o = cluster ∧ volume.ClusterOnDisk cluster

section Bytes

variable {volume : FatVolume}

theorem chainBytes_eq (clusterPos : 0 < volume.header.clusterSize) (first count : Nat) :
    volume.chainBytes first count = volume.streamSlice first 0 (count * volume.header.clusterSize) := by
  induction count with
  | zero => simp [FatVolume.chainBytes, FatVolume.streamSlice]
  | succ count ih =>
    have split : volume.chainBytes first (count + 1) =
        volume.chainBytes first count ++ volume.clusterBytes (volume.fat^[count] first) := by
      unfold FatVolume.chainBytes
      rw [List.range_succ, List.flatMap_append, List.flatMap_cons, List.flatMap_nil, List.append_nil]
    rw [split, ih]
    unfold FatVolume.streamSlice FatVolume.clusterBytes
    rw [Nat.succ_mul, List.range_add, List.map_append, List.map_map]
    congr 1
    apply List.map_congr_left
    intro i inCluster
    have below := List.mem_range.mp inCluster
    have ahead : volume.clustersAhead (count * volume.header.clusterSize + i) = count := by
      unfold FatVolume.clustersAhead
      rw [Nat.mul_comm, Nat.mul_add_div clusterPos, Nat.div_eq_of_lt below, Nat.add_zero]
    have remainder : (count * volume.header.clusterSize + i) % volume.header.clusterSize = i := by
      rw [Nat.mul_comm, Nat.mul_add_mod, Nat.mod_eq_of_lt below]
    simp only [Function.comp_apply, FatVolume.streamByte, Nat.zero_add, ahead, remainder]

/-- A slice of the clusters of a chain. -/
theorem slice_eq (clusterPos : 0 < volume.header.clusterSize) (first : Nat) {offset total count : Nat}
    (inside : offset + total ≤ count * volume.header.clusterSize) :
    ((volume.chainBytes first count).drop offset).take total = volume.streamSlice first offset total := by
  rw [chainBytes_eq clusterPos]
  unfold FatVolume.streamSlice
  apply List.ext_getElem
  · simp only [List.length_take, List.length_drop, List.length_map, List.length_range]
    omega
  · intro i inSlice inRange
    simp

theorem streamSlice_length (first offset total : Nat) :
    (volume.streamSlice first offset total).length = total := by
  simp [FatVolume.streamSlice]

/-- A slice, cut in two. -/
theorem streamSlice_add (first offset a b : Nat) :
    volume.streamSlice first offset (a + b) =
      volume.streamSlice first offset a ++ volume.streamSlice first (offset + a) b := by
  unfold FatVolume.streamSlice
  rw [List.range_add, List.map_append, List.map_map]
  congr 1
  apply List.map_congr_left
  intro i _
  simp only [Function.comp_apply, Nat.add_assoc]

end Bytes

/-! ## The lookup -/

section Lookup

variable {volume : FatVolume}

/-- An entry that cannot be read counts as the end of the chain. -/
theorem toUInt16_entry_cases (volume : FatVolume) (cluster : Nat) :
    toUInt16 (fat16GetFatEntry volume cluster) = volume.fat cluster ∨
      toUInt16 (fat16GetFatEntry volume cluster) = 0xFFFF := by
  by_cases onDisk : volume.EntryOnDisk cluster
  · exact .inl (toUInt16_getFatEntry onDisk)
  · apply Or.inr
    unfold fat16GetFatEntry
    rw [fatEntryPosition_eq, ByteStore.read_stream, ByteStore.read, if_neg]
    · decide
    · unfold FatVolume.EntryOnDisk at onDisk
      omega

/-- A walk that succeeds has followed the table. -/
theorem clusterWalk_fat (steps : Nat) :
    ∀ {cluster : Nat}, 0 ≤ clusterWalk volume steps cluster →
      clusterWalk volume steps cluster = (volume.fat^[steps] cluster : Nat) := by
  induction steps with
  | zero => exact fun _ => rfl
  | succ steps ih =>
    intro cluster succeeds
    rw [clusterWalk] at succeeds ⊢
    cases toUInt16_entry_cases volume cluster with
    | inl isEntry =>
      rw [isEntry] at succeeds ⊢
      split_ifs at succeeds ⊢
      · exact absurd succeeds (by decide)
      · exact absurd succeeds (by decide)
      · rw [Function.iterate_succ_apply]
        exact ih succeeds
    | inr unreadable =>
      rw [unreadable, if_pos (by decide)] at succeeds
      exact absurd succeeds (by decide)

/-- The cluster of a covered offset. -/
theorem Covers.lookup {start : Int} {offset total o : Nat} (covers : Covers volume start offset total)
    (lower : offset ≤ o) (upper : o < offset + total) :
    ∃ cluster : Nat, fat16GetClusterForOffset volume start o = cluster ∧ volume.ClusterOnDisk cluster ∧
      cluster = volume.fat^[volume.clustersAhead o] (toUInt16 start) := by
  obtain ⟨cluster, found, onDisk⟩ := covers o lower upper
  refine ⟨cluster, found, onDisk, ?_⟩
  have walk : clusterWalk volume (volume.clustersAhead o) (toUInt16 start) = cluster := found
  have followed := clusterWalk_fat _ (walk ▸ Int.natCast_nonneg cluster)
  exact Int.natCast_inj.mp (walk.symm.trans followed)

theorem Covers.mono {start : Int} {offset total offset' total' : Nat}
    (covers : Covers volume start offset total) (lower : offset ≤ offset')
    (upper : offset' + total' ≤ offset + total) : Covers volume start offset' total' :=
  fun o after before => covers o (by omega) (by omega)

/-- The number of the first cluster fits in 16 bits. -/
theorem FatPath.first {l : List Nat} (path : FatPath volume l) :
    asInt (l.headD 0) = (l.headD 0 : Nat) ∧ toUInt16 (l.headD 0 : Nat) = l.headD 0 := by
  have isData : IsDataCluster (l.headD 0) := by
    rw [headD_eq_getElem path.length_pos]
    exact path.clusters _ (List.getElem_mem _)
  have small := isData.2
  exact ⟨asInt_eq (by omega), toUInt16_eq (by omega)⟩

/-- A path on the disk that is not broken by cluster 0xFF7 covers the offsets in front of its end. -/
theorem FatPath.covers {l : List Nat} (path : FatPath volume l)
    (onDisk : ∀ cluster ∈ l, volume.ClusterOnDisk cluster) (clusterPos : 0 < volume.header.clusterSize)
    {offset total : Nat} (inside : offset + total ≤ l.length * volume.header.clusterSize)
    (noBad : fat16BadSector ∉ (l.take (volume.clustersAhead (offset + total - 1) + 1)).tail) :
    Covers volume (l.headD 0 : Nat) offset total := by
  intro o _ upper
  have within : volume.clustersAhead o < l.length := by
    unfold FatVolume.clustersAhead
    exact (Nat.div_lt_iff_lt_mul clusterPos).mpr (by omega)
  have noBadHere : fat16BadSector ∉ (l.take (volume.clustersAhead o + 1)).tail := by
    intro bad
    obtain ⟨n, below, found⟩ := mem_tail_take.mp bad
    have ordered : volume.clustersAhead o ≤ volume.clustersAhead (offset + total - 1) :=
      Nat.div_le_div_right (by omega)
    exact noBad (mem_tail_take.mpr ⟨n, by omega, found⟩)
  have reached := (clusterWalk_along path _ within noBadHere 0).1
  refine ⟨l[volume.clustersAhead o], ?_, onDisk _ (List.getElem_mem within)⟩
  rw [path.lookup_eq]
  exact reached

end Lookup

/-! ## One item -/

section Item

variable {volume : FatVolume} {start : Int}

/-- The bytes that one turn reads: those up to the end of the cluster, or all that are left. -/
def FatVolume.pieceLength (volume : FatVolume) (offset total : Nat) : Nat :=
  min (volume.header.clusterSize - offset % volume.header.clusterSize) total

theorem pieceLength_pos (clusterPos : 0 < volume.header.clusterSize) (offset : Nat) {total : Nat}
    (more : total ≠ 0) : 0 < volume.pieceLength offset total := by
  have remainder := Nat.mod_lt offset clusterPos
  unfold FatVolume.pieceLength
  omega

theorem pieceLength_le (offset total : Nat) : volume.pieceLength offset total ≤ total := Nat.min_le_right _ _

/-- The offsets of a piece are in one cluster. -/
theorem clustersAhead_piece {offset total i : Nat}
    (inPiece : i < volume.pieceLength offset total) :
    volume.clustersAhead (offset + i) = volume.clustersAhead offset ∧
      (offset + i) % volume.header.clusterSize = offset % volume.header.clusterSize + i := by
  have bound : i < volume.header.clusterSize - offset % volume.header.clusterSize :=
    Nat.lt_of_lt_of_le inPiece (Nat.min_le_left _ _)
  have place := Nat.div_add_mod offset volume.header.clusterSize
  have shape : offset + i = volume.header.clusterSize * (offset / volume.header.clusterSize) +
      (offset % volume.header.clusterSize + i) := by omega
  have small : offset % volume.header.clusterSize + i < volume.header.clusterSize := by omega
  unfold FatVolume.clustersAhead
  constructor
  · rw [shape, Nat.mul_add_div (by omega), Nat.div_eq_of_lt small, Nat.add_zero]
  · rw [shape, Nat.mul_add_mod, Nat.mod_eq_of_lt small]

/-- A lookup that fails ends the loop. -/
theorem readLoop_lookup_fails {fuel offset total : Nat} (more : total ≠ 0)
    (fails : fat16GetClusterForOffset volume start offset < 0) :
    (readLoop volume start (fuel + 1) offset total).1 < 0 := by
  rw [readLoop, if_neg more]
  simp only [fails, if_true]

/-- A turn whose lookup succeeds: its read fails, or it reads a piece and goes on. -/
theorem readLoop_found {fuel offset total : Nat} {cluster : Nat} (more : total ≠ 0)
    (clusterPos : 0 < volume.header.clusterSize)
    (found : fat16GetClusterForOffset volume start offset = cluster) :
    readLoop volume start (fuel + 1) offset total =
      match volume.store.read (volume.clusterPosition cluster + (offset % volume.header.clusterSize : Nat))
          (volume.pieceLength offset total) with
      | none => (-eio, volume.store.readPart
          (volume.clusterPosition cluster + (offset % volume.header.clusterSize : Nat))
          (volume.pieceLength offset total))
      | some buffer =>
        ((readLoop volume start fuel (offset + volume.pieceLength offset total : Nat)
            (total - volume.pieceLength offset total)).1,
          (List.range (volume.pieceLength offset total)).map buffer ++
            (readLoop volume start fuel (offset + volume.pieceLength offset total : Nat)
              (total - volume.pieceLength offset total)).2) := by
  have remainder := Nat.mod_lt offset clusterPos
  have notNegative : ¬ (cluster : Int) < 0 := by omega
  have offsetFrom : ((offset : Nat) : Int).tmod volume.header.clusterSize =
      (offset % volume.header.clusterSize : Nat) := rfl
  have piece : min ((volume.header.clusterSize : Int) -
      (offset % volume.header.clusterSize : Nat)).toNat total = volume.pieceLength offset total := by
    unfold FatVolume.pieceLength
    congr 1
    omega
  rw [readLoop, if_neg more, found]
  simp only [notNegative, if_false, offsetFrom, piece]
  push_cast
  rfl

/-- The piece of a turn whose cluster is on the disk. -/
theorem readLoop_turn {fuel offset total : Nat} (more : total ≠ 0)
    (clusterPos : 0 < volume.header.clusterSize) (covers : Covers volume start offset 1) :
    readLoop volume start (fuel + 1) offset total =
      ((readLoop volume start fuel (offset + volume.pieceLength offset total : Nat)
          (total - volume.pieceLength offset total)).1,
        volume.streamSlice (toUInt16 start) offset (volume.pieceLength offset total) ++
          (readLoop volume start fuel (offset + volume.pieceLength offset total : Nat)
            (total - volume.pieceLength offset total)).2) := by
  obtain ⟨cluster, found, onDisk, isCluster⟩ := covers.lookup (Nat.le_refl offset) (Nat.lt_succ_self offset)
  have begins := onDisk.start
  have ends := onDisk.ending
  have remainder := Nat.mod_lt offset clusterPos
  obtain ⟨position, isPosition⟩ : ∃ p : Nat, volume.clusterPosition cluster = p :=
    ⟨_, (Int.toNat_of_nonneg begins).symm⟩
  have inside : position + offset % volume.header.clusterSize + volume.pieceLength offset total ≤
      volume.store.size := by
    unfold FatVolume.pieceLength
    omega
  have bytes : (List.range (volume.pieceLength offset total)).map (fun i =>
      volume.store.bytes (position + offset % volume.header.clusterSize + i)) =
      volume.streamSlice (toUInt16 start) offset (volume.pieceLength offset total) := by
    apply List.map_congr_left
    intro i inPiece
    obtain ⟨ahead, place⟩ := clustersAhead_piece (List.mem_range.mp inPiece)
    rw [FatVolume.streamByte, ahead, place, ← isCluster, isPosition, Int.toNat_natCast, Nat.add_assoc]
  rw [readLoop_found more clusterPos found, isPosition, ← Nat.cast_add, read_eq inside, ← bytes]

/-- The loop reads the slice it is asked for, however many turns it is allowed. -/
theorem readLoop_slice (clusterPos : 0 < volume.header.clusterSize) (fuel : Nat) :
    ∀ {offset total : Nat}, total ≤ fuel → Covers volume start offset total →
      readLoop volume start fuel offset total = (0, volume.streamSlice (toUInt16 start) offset total) := by
  induction fuel with
  | zero =>
    intro offset total enough _
    obtain rfl := Nat.le_zero.mp enough
    rfl
  | succ fuel ih =>
    intro offset total enough covers
    by_cases none : total = 0
    · subst none
      rfl
    · have positive := pieceLength_pos clusterPos offset none
      have atMost := @pieceLength_le volume offset total
      have rest := @ih (offset + volume.pieceLength offset total)
        (total - volume.pieceLength offset total) (by omega) (covers.mono (by omega) (by omega))
      have here : Covers volume start offset 1 := covers.mono (Nat.le_refl offset) (by omega)
      rw [readLoop_turn none clusterPos here, rest, ← streamSlice_add]
      congr 2
      omega

/-- The loop fails if the lookup of the last offset does. -/
theorem readLoop_fails (clusterPos : 0 < volume.header.clusterSize) (fuel : Nat) :
    ∀ {offset total : Nat}, total ≤ fuel → total ≠ 0 →
      fat16GetClusterForOffset volume start (offset + total - 1 : Nat) < 0 →
      (readLoop volume start fuel offset total).1 < 0 := by
  induction fuel with
  | zero => exact fun enough more _ => absurd (Nat.le_zero.mp enough) more
  | succ fuel ih =>
    intro offset total enough more lastFails
    by_cases fails : fat16GetClusterForOffset volume start offset < 0
    · exact readLoop_lookup_fails more fails
    · obtain ⟨cluster, found⟩ : ∃ c : Nat, fat16GetClusterForOffset volume start offset = c :=
        ⟨_, (Int.toNat_of_nonneg (by omega)).symm⟩
      have positive := pieceLength_pos clusterPos offset more
      have atMost := @pieceLength_le volume offset total
      have left : volume.pieceLength offset total < total := by
        by_contra all
        -- the last offset would be in the cluster that was found
        have ahead := (@clustersAhead_piece volume offset total (total - 1) (by omega)).1
        rw [← Nat.add_sub_assoc (by omega)] at ahead
        refine fails ?_
        unfold fat16GetClusterForOffset at lastFails ⊢
        rw [Int.toNat_natCast] at lastFails ⊢
        unfold FatVolume.clustersAhead at ahead
        rwa [← ahead]
      rw [readLoop_found more clusterPos found]
      cases read : volume.store.read (volume.clusterPosition cluster +
          (offset % volume.header.clusterSize : Nat)) (volume.pieceLength offset total) with
      | none => exact (by decide : -eio < 0)
      | some buffer =>
        refine @ih (offset + volume.pieceLength offset total) (total - volume.pieceLength offset total)
          (by omega) (by omega) ?_
        rwa [show offset + volume.pieceLength offset total + (total - volume.pieceLength offset total) - 1 =
          offset + total - 1 by omega]

/-- `fat16_read_internal` of a range that is covered. -/
theorem readInternal_slice (clusterPos : 0 < volume.header.clusterSize) {offset total : Nat}
    (covers : Covers volume start offset total) :
    fat16ReadInternal volume start offset total =
      ((total : Int), volume.streamSlice (toUInt16 start) offset total) := by
  unfold fat16ReadInternal
  rw [Int.toNat_natCast, readLoop_slice clusterPos total (Nat.le_refl _) covers]
  simp only [lt_irrefl, if_false, streamSlice_length]

theorem readInternal_fails (clusterPos : 0 < volume.header.clusterSize) {offset total : Nat}
    (more : total ≠ 0) (lastFails : fat16GetClusterForOffset volume start (offset + total - 1 : Nat) < 0) :
    (fat16ReadInternal volume start offset total).1 < 0 := by
  have fails := readLoop_fails clusterPos total (Nat.le_refl total) more lastFails
  unfold fat16ReadInternal
  rw [Int.toNat_natCast]
  simp only [fails, if_true]

end Item

/-! ## All items -/

section Items

variable {volume : FatVolume} {first : Int} {size : Nat}

/-- The loop of `fat16_read` over items that are covered. -/
theorem readItemsLoop_slice (clusterPos : 0 < volume.header.clusterSize) (items : Nat) :
    ∀ {offset : Nat}, offset + items * size < 2 ^ 31 → Covers volume first offset (items * size) →
      readItemsLoop volume first size items offset =
        (0, volume.streamSlice (toUInt16 first) offset (items * size)) := by
  induction items with
  | zero =>
    intro offset _ _
    rw [Nat.zero_mul]
    rfl
  | succ items ih =>
    intro offset small covers
    rw [Nat.succ_mul] at small covers ⊢
    have this := readInternal_slice clusterPos (covers.mono (Nat.le_refl offset) (show offset + size ≤ _ by omega))
    have rest := ih (show offset + size + items * size < 2 ^ 31 by omega)
      (covers.mono (Nat.le_add_right offset size) (by omega))
    have notNegative : ¬ (size : Int) < 0 := by omega
    rw [readItemsLoop, asInt_eq (by omega), asInt_eq (by omega), this]
    simp only [notNegative, if_false]
    rw [Nat.mod_eq_of_lt (by omega), rest, ← streamSlice_add, Nat.add_comm size]

/-- The loop fails if the lookup of its last offset does. -/
theorem readItemsLoop_fails (clusterPos : 0 < volume.header.clusterSize) (sizePos : size ≠ 0) (items : Nat) :
    ∀ {offset : Nat}, items ≠ 0 → offset + items * size < 2 ^ 31 →
      fat16GetClusterForOffset volume first (offset + items * size - 1 : Nat) < 0 →
      (readItemsLoop volume first size items offset).1 < 0 := by
  induction items with
  | zero => exact fun more => absurd rfl more
  | succ items ih =>
    intro offset _ small lastFails
    rw [Nat.succ_mul] at small lastFails
    rw [readItemsLoop, asInt_eq (by omega), asInt_eq (by omega)]
    by_cases fails : (fat16ReadInternal volume first offset size).1 < 0
    · simp only [fails, if_true]
    · have left : items ≠ 0 := by
        rintro rfl
        rw [Nat.zero_mul, Nat.zero_add] at lastFails
        exact fails (readInternal_fails clusterPos sizePos lastFails)
      simp only [fails, if_false]
      rw [Nat.mod_eq_of_lt (by omega)]
      apply ih left (by omega)
      rwa [show offset + size + items * size - 1 = offset + (items * size + size) - 1 by omega]

end Items

/-! ## Files -/

/-- The chain of a file: complete, on the disk, and long enough for the size of the file. -/
structure FileChain (volume : FatVolume) (item : FatDirectoryItem) (l : List Nat) : Prop where
  head : l.headD 0 = fat16GetFirstCluster item
  path : l ≠ [] → FatPath volume l
  complete : l ≠ [] → IsEoc (volume.lastEntry l)
  onDisk : ∀ cluster ∈ l, volume.ClusterOnDisk cluster
  long : item.filesize.toNat ≤ l.length * volume.header.clusterSize

/-- The items that a read can still return. -/
def itemsLeft (item : FatDirectoryItem) (pos size nmemb : Nat) : Nat :=
  min nmemb ((item.filesize.toNat - pos) / size)

/-- What reading should do.  A range whose lookups succeed is returned as a slice of the clusters of
its chain; a read of a file returns the items that are left, from the position of the descriptor on,
and moves the position behind them; a read that fails does not move it. -/
structure FatReads (state : FatState) (ptr : Ptr) (descriptor : FatFileDescriptor)
    (item : FatDirectoryItem) (size nmemb : Nat) : Prop where
  terminates : ∀ start offset total, Covers state.volume start offset total → ∀ fuel, total ≤ fuel →
    readLoop state.volume start fuel offset total = readLoop state.volume start total offset total
  slices : ∀ start offset total count, Covers state.volume start offset total →
    offset + total ≤ count * state.volume.header.clusterSize →
    fat16ReadInternal state.volume start offset total =
      ((total : Int), ((state.volume.chainBytes (toUInt16 start) count).drop offset).take total)
  items : ∀ count, item.filesize.toNat ≤ count * state.volume.header.clusterSize →
    fat16Read state ptr size nmemb =
      (some ((itemsLeft item descriptor.pos size nmemb : Nat) : Int),
        ((state.volume.chainBytes (fat16GetFirstCluster item) count).drop descriptor.pos).take
          (itemsLeft item descriptor.pos size nmemb * size),
        state.set ptr (some { descriptor with
          pos := descriptor.pos + itemsLeft item descriptor.pos size nmemb * size }) state.volume)
  failed : ∀ res, (fat16Read state ptr size nmemb).1 = some res → res < 0 →
    (fat16Read state ptr size nmemb).2.2 = state

/-- No cluster that is read has the number the driver takes for a bad cluster; the first cluster is
not looked up in the table. -/
def ReadFits (volume : FatVolume) (item : FatDirectoryItem) (l : List Nat) (pos size nmemb : Nat) : Prop :=
  itemsLeft item pos size nmemb = 0 ∨
    fat16BadSector ∉
      (l.take (volume.clustersAhead (pos + itemsLeft item pos size nmemb * size - 1) + 1)).tail

section Files

variable {volume : FatVolume} {item : FatDirectoryItem} {l : List Nat}

theorem itemsToRead_eq {pos size nmemb : Nat} (sizePos : 0 < size) (small : size * nmemb < 2 ^ 32) :
    itemsToRead item pos size nmemb = itemsLeft item pos size nmemb := by
  unfold itemsToRead itemsLeft
  rw [Nat.mod_eq_of_lt small]
  cases Nat.le_total (size * nmemb) (item.filesize.toNat - pos) with
  | inl short =>
    have quotient : nmemb ≤ (item.filesize.toNat - pos) / size := by
      rwa [Nat.le_div_iff_mul_le sizePos, Nat.mul_comm]
    rw [Nat.min_eq_left short, Nat.min_eq_left quotient, Nat.mul_div_cancel_left _ sizePos]
  | inr long =>
    have quotient := Nat.div_le_of_le_mul long
    rw [Nat.min_eq_right long, Nat.min_eq_right quotient]

/-- The items that are left end inside the file. -/
theorem itemsLeft_inside {pos : Nat} (size nmemb : Nat) (inFile : pos ≤ item.filesize.toNat) :
    pos + itemsLeft item pos size nmemb * size ≤ item.filesize.toNat := by
  have quotient := Nat.mul_le_mul_right size (Nat.min_le_right nmemb ((item.filesize.toNat - pos) / size))
  have product := Nat.div_mul_le_self (item.filesize.toNat - pos) size
  unfold itemsLeft
  omega

/-- The clusters of a chain are different ones of the disk, so they have less than 2^31 bytes. -/
theorem FileChain.bytes_lt (chain : FileChain volume item l) :
    l.length * volume.header.clusterSize < 2 ^ 31 := by
  by_cases empty : l = []
  · subst empty
    simp
  · have path := chain.path empty
    have nodup : l.Nodup := path.links.nodup fun cluster member notData => notData (path.clusters cluster member)
    have nonempty : l.toFinset.Nonempty := by rwa [List.toFinset_nonempty_iff]
    obtain ⟨low, lowMem, lowest⟩ := l.toFinset.exists_min_image id nonempty
    obtain ⟨high, highMem, highest⟩ := l.toFinset.exists_max_image id nonempty
    have inRange : l.toFinset ⊆ Finset.Icc low high := fun cluster member =>
      Finset.mem_Icc.mpr ⟨lowest cluster member, highest cluster member⟩
    have card := Finset.card_le_card inRange
    rw [List.toFinset_card_of_nodup nodup, Nat.card_Icc] at card
    have ordered : low ≤ high := lowest high highMem
    have begins := (chain.onDisk low (List.mem_toFinset.mp lowMem)).start
    have ends := (chain.onDisk high (List.mem_toFinset.mp highMem)).small
    have apart : volume.clusterPosition high =
        volume.clusterPosition low + ((high - low : Nat) : Int) * volume.header.clusterSize := by
      unfold FatVolume.clusterPosition FatHeader.clusterSize
      push_cast [Nat.cast_sub ordered]
      ring
    have product := Nat.mul_le_mul_right volume.header.clusterSize card
    have split : (high + 1 - low) * volume.header.clusterSize =
        (high - low) * volume.header.clusterSize + volume.header.clusterSize := by
      rw [Nat.succ_sub ordered, Nat.succ_mul]
    rw [split] at product
    have spread : (((high - low : Nat) : Int) * volume.header.clusterSize) =
        (((high - low) * volume.header.clusterSize : Nat) : Int) := by push_cast; ring
    omega

/-- The chain that is walked begins at the first cluster. -/
theorem FileChain.first (chain : FileChain volume item l) (notEmpty : l ≠ []) :
    ((fat16GetFirstCluster item : Nat) : Int) = (l.headD 0 : Nat) ∧
      asInt (fat16GetFirstCluster item) = (l.headD 0 : Nat) ∧ toUInt16 (l.headD 0 : Nat) = l.headD 0 := by
  rw [← chain.head]
  exact ⟨rfl, (chain.path notEmpty).first⟩

/-- A chain that is not broken by cluster 0xFF7 covers the offsets in front of its end. -/
theorem FileChain.covers (chain : FileChain volume item l) (clusterPos : 0 < volume.header.clusterSize)
    {offset total : Nat} (inside : offset + total ≤ l.length * volume.header.clusterSize) (more : total ≠ 0)
    (noBad : fat16BadSector ∉ (l.take (volume.clustersAhead (offset + total - 1) + 1)).tail) :
    Covers volume (l.headD 0 : Nat) offset total := by
  have notEmpty : l ≠ [] := by
    rintro rfl
    rw [List.length_nil, Nat.zero_mul] at inside
    omega
  exact (chain.path notEmpty).covers chain.onDisk clusterPos inside noBad

end Files

section Read

variable {state : FatState} {ptr : Ptr} {descriptor : FatFileDescriptor} {item : FatDirectoryItem}
  {l : List Nat} {size nmemb : Nat}

/-- `fat16_read` of an open file, up to the items that are left. -/
theorem fat16Read_file (isOpen : state.descriptors ptr = some descriptor)
    (isFile : descriptor.item.data = .file item) (sizePos : 0 < size) (small : size * nmemb < 2 ^ 32) :
    fat16Read state ptr size nmemb =
      if itemsLeft item descriptor.pos size nmemb = 0 then (some 0, [], state)
      else if (readItemsLoop state.volume (asInt (fat16GetFirstCluster item)) size
          (itemsLeft item descriptor.pos size nmemb) descriptor.pos).1 < 0 then
        (some (readItemsLoop state.volume (asInt (fat16GetFirstCluster item)) size
            (itemsLeft item descriptor.pos size nmemb) descriptor.pos).1,
          (readItemsLoop state.volume (asInt (fat16GetFirstCluster item)) size
            (itemsLeft item descriptor.pos size nmemb) descriptor.pos).2, state)
      else
        (some ((itemsLeft item descriptor.pos size nmemb : Nat) : Int),
          (readItemsLoop state.volume (asInt (fat16GetFirstCluster item)) size
            (itemsLeft item descriptor.pos size nmemb) descriptor.pos).2,
          state.set ptr (some { descriptor with
            pos := (descriptor.pos + itemsLeft item descriptor.pos size nmemb * size) % 2 ^ 32 })
            state.volume) := by
  unfold fat16Read
  rw [isOpen]
  simp only [isFile, itemsToRead_eq sizePos small]

theorem fat16Read_failed (isOpen : state.descriptors ptr = some descriptor)
    (isFile : descriptor.item.data = .file item) (sizePos : 0 < size) (small : size * nmemb < 2 ^ 32)
    {res : Int} (result : (fat16Read state ptr size nmemb).1 = some res) (fails : res < 0) :
    (fat16Read state ptr size nmemb).2.2 = state := by
  rw [fat16Read_file isOpen isFile sizePos small] at result ⊢
  split_ifs at result ⊢
  · rfl
  · rfl
  · obtain rfl := Option.some.inj result
    omega

/-- Reading a file is right exactly where the constant 0xFF7 makes no difference. -/
theorem fat16Read_right_iff (clusterPos : 0 < state.volume.header.sectorsPerCluster)
    (isOpen : state.descriptors ptr = some descriptor) (isFile : descriptor.item.data = .file item)
    (chain : FileChain state.volume item l) (inFile : descriptor.pos ≤ item.filesize.toNat)
    (sizePos : 0 < size) (small : size * nmemb < 2 ^ 32) :
    FatReads state ptr descriptor item size nmemb ↔
      ReadFits state.volume item l descriptor.pos size nmemb := by
  have bytesPos : 0 < state.volume.header.clusterSize := Nat.mul_pos clusterPos (by decide)
  have inside := itemsLeft_inside size nmemb inFile
  have long := chain.long
  have below := chain.bytes_lt
  have result := fat16Read_file isOpen isFile sizePos small
  obtain ⟨items, isItems⟩ : ∃ n, n = itemsLeft item descriptor.pos size nmemb := ⟨_, rfl⟩
  rw [← isItems] at inside result
  unfold ReadFits
  rw [← isItems]
  constructor
  · intro reads
    by_contra bad
    obtain ⟨more, bad⟩ := not_or.mp bad
    rw [not_not] at bad
    have right := reads.items l.length long
    have notEmpty : l ≠ [] := by
      rintro rfl
      exact absurd bad (by simp)
    -- the cluster of the last offset is behind the one that is taken for a bad one
    have path := chain.path notEmpty
    have lastFails : fat16GetClusterForOffset state.volume (l.headD 0 : Nat)
        (descriptor.pos + items * size - 1 : Nat) < 0 := by
      rw [path.lookup_eq, (clusterWalk_bad path bad).1]
      decide
    rw [← (chain.first notEmpty).2.1] at lastFails
    have fails := readItemsLoop_fails bytesPos (by omega) items more (by omega) lastFails
    rw [result, if_neg more, if_pos fails] at right
    have status := congrArg Prod.fst right
    rw [Option.some.injEq, ← isItems] at status
    omega
  · intro fits
    refine ⟨?_, ?_, ?_, fun res failed negative => fat16Read_failed isOpen isFile sizePos small failed negative⟩
    · intro start offset total covers fuel enough
      rw [readLoop_slice bytesPos fuel enough covers, readLoop_slice bytesPos total (Nat.le_refl _) covers]
    · intro start offset total count covers room
      rw [readInternal_slice bytesPos covers, slice_eq bytesPos _ room]
    · intro count room
      rw [← isItems, slice_eq bytesPos _ (by omega), result]
      by_cases none : items = 0
      · rw [if_pos none, none, Nat.zero_mul, Nat.add_zero]
        have same : state.set ptr (some descriptor) state.volume = state := by
          unfold FatState.set
          rw [← isOpen, Function.update_eq_self]
        exact congrArg (fun s => (some 0, [], s)) same.symm
      · have positive : items * size ≠ 0 := Nat.mul_ne_zero none (by omega)
        have notEmpty : l ≠ [] := by
          rintro rfl
          rw [List.length_nil, Nat.zero_mul] at long
          omega
        obtain ⟨-, isFirst, isHead⟩ := chain.first notEmpty
        have covers := chain.covers bytesPos (show descriptor.pos + items * size ≤ _ by omega) positive
          (fits.resolve_left none)
        have loop := readItemsLoop_slice bytesPos items (by omega) covers
        rw [isHead] at loop
        rw [if_neg none, isFirst, loop, chain.head, Nat.mod_eq_of_lt (by omega)]
        rfl

end Read

/-! ## Two files -/

/-- An open file of a volume, at its beginning. -/
def openFileAt (first : Nat) (filesize : UInt32) : FatFileDescriptor :=
  ⟨⟨.file { FatDirectoryItem.zero.withFirstCluster first with filesize }, 65, 0⟩, 0⟩

/-- The only open file is at 4096. -/
def oneFileState {σ : Type} (volume : FatVolume σ) (descriptor : FatFileDescriptor) : FatState σ :=
  ⟨volume, fun ptr => if ptr = 4096 then some descriptor else none, 1⟩

theorem twoClusters_read :
    FatReads (oneFileState twoClusters (openFileAt 2 700)) 4096 (openFileAt 2 700)
      { FatDirectoryItem.zero.withFirstCluster 2 with filesize := 700 } 100 9 := by
  have isOpen : (oneFileState twoClusters (openFileAt 2 700)).descriptors 4096 = some (openFileAt 2 700) := rfl
  have onDisk : ∀ cluster ∈ [2, 3], twoClusters.ClusterOnDisk cluster := by
    intro cluster member
    rcases List.mem_pair.mp member with rfl | rfl
    · exact ⟨by decide, by decide, by decide⟩
    · exact ⟨by decide, by decide, by decide⟩
  have chain : FileChain twoClusters { FatDirectoryItem.zero.withFirstCluster 2 with filesize := 700 } [2, 3] :=
    ⟨by decide, fun _ => twoClusters_path, fun _ => by unfold IsEoc; decide, onDisk, by decide⟩
  exact (fat16Read_right_iff (by decide) isOpen rfl chain (by decide) (by decide) (by decide)).mpr
    (.inr (by decide))

theorem chainOverFF7_read_fails :
    FileChain chainOverFF7 { FatDirectoryItem.zero.withFirstCluster 2 with filesize := 1024 } [2, 0xFF7] ∧
      (fat16Read (oneFileState chainOverFF7 (openFileAt 2 1024)) 4096 1024 1).1 = some (-eio) ∧
      ¬ FatReads (oneFileState chainOverFF7 (openFileAt 2 1024)) 4096 (openFileAt 2 1024)
        { FatDirectoryItem.zero.withFirstCluster 2 with filesize := 1024 } 1024 1 := by
  have onDisk : ∀ cluster ∈ [2, 0xFF7], chainOverFF7.ClusterOnDisk cluster := by
    intro cluster member
    rcases List.mem_pair.mp member with rfl | rfl
    · exact ⟨by decide, by decide, by decide⟩
    · exact ⟨by decide, by decide, by decide⟩
  have chain : FileChain chainOverFF7 { FatDirectoryItem.zero.withFirstCluster 2 with filesize := 1024 }
      [2, 0xFF7] :=
    ⟨by decide, fun _ => chainOverFF7_path, fun _ => by unfold IsEoc; decide, onDisk, by decide⟩
  have fails : (fat16Read (oneFileState chainOverFF7 (openFileAt 2 1024)) 4096 1024 1).1 = some (-eio) := by
    decide +kernel
  refine ⟨chain, fails, fun reads => ?_⟩
  have right := congrArg Prod.fst (reads.items 2 (by decide))
  rw [fails] at right
  exact absurd right (by decide)

end ViOS.Fs
