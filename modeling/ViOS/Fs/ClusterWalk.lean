import ViOS.Fs.Fat16Chains

/-! # Walking to an offset

`fat16_get_cluster_for_offset` walks a chain from its first cluster, and sorts the 16-bit
entries it meets into the next cluster, the end of the chain, and entries that are neither.
The chains here are the ones in the table; they need not be chains of a consistent volume,
only the entries that are read lie on the disk.

The bad-cluster marker of FAT16 is 0xFFF7.  The driver has 0xFF7 instead, which is the
number of a cluster like any other.

* `IsDataCluster`, `FatPath` — the clusters of a file, up to an entry that is no cluster.
* `clusterWalk_along` — the walk follows a path that does not enter cluster 0xFF7.
* `WalkRight`, `walkRight_iff` — what the walk should answer, and when it does.
-/

namespace ViOS.Fs

open ViOS.Lib

/-! ## Paths -/

/-- The cluster numbers an entry of a FAT16 table can link to. -/
def IsDataCluster (cluster : Nat) : Prop := 2 ≤ cluster ∧ cluster ≤ 0xFFEF

instance (cluster : Nat) : Decidable (IsDataCluster cluster) :=
  inferInstanceAs (Decidable (2 ≤ cluster ∧ cluster ≤ 0xFFEF))

/-- Data clusters linked one behind the other, up to an entry that links to none. -/
structure FatPath (volume : FatVolume) (l : List Nat) : Prop where
  notEmpty : l ≠ []
  clusters : ∀ cluster ∈ l, IsDataCluster cluster
  onDisk : ∀ cluster ∈ l, volume.EntryOnDisk cluster
  links : Chain volume.fat (fun entry => ¬ IsDataCluster entry) l

/-- The entry behind the last cluster of a path. -/
def FatVolume.lastEntry (volume : FatVolume) (l : List Nat) : Nat := volume.fat (l.getLastD 0)

/-- The cluster numbers a walk asks the table about, and the one it returns. -/
def walkedClusters (volume : FatVolume) : (clustersAhead cluster : Nat) → List Nat
  | 0, cluster => [cluster]
  | clustersAhead + 1, cluster =>
    let entry := toUInt16 (fat16GetFatEntry volume cluster)
    if 0xFFF8 ≤ entry then [cluster]
    else if entry = fat16BadSector ∨ (0xFFF0 ≤ entry ∧ entry ≤ 0xFFF6) ∨ entry = 0 then [cluster]
    else cluster :: walkedClusters volume clustersAhead entry

/-- The clusters in front of the one with an offset. -/
def FatVolume.clustersAhead (volume : FatVolume) (offset : Nat) : Nat :=
  offset / volume.header.clusterSize

/-- What the lookup of an offset should do.  On a complete chain it returns the cluster with the
offset, or that the chain is too short; a path that breaks off in front of that cluster is an error,
and the entry where it breaks off is not used as a cluster. -/
structure WalkRight (volume : FatVolume) (l : List Nat) (offset : Nat) : Prop where
  complete : IsEoc (volume.lastEntry l) →
    fat16GetClusterForOffset volume (l.headD 0 : Nat) offset =
      (l[volume.clustersAhead offset]?.map fun (cluster : Nat) => (cluster : Int)).getD (-eoutofrange)
  broken : ¬ IsEoc (volume.lastEntry l) → l.length ≤ volume.clustersAhead offset →
    fat16GetClusterForOffset volume (l.headD 0 : Nat) offset < 0 ∧
      ∀ cluster ∈ walkedClusters volume (volume.clustersAhead offset) (l.headD 0), IsDataCluster cluster

/-- The paths on which the driver's constant makes no difference: a complete chain does not enter
cluster 0xFF7 on the way, and a path that breaks off does so at an entry the driver knows, or
passes cluster 0xFF7 before. -/
def WalkFits (volume : FatVolume) (l : List Nat) (offset : Nat) : Prop :=
  (IsEoc (volume.lastEntry l) → fat16BadSector ∉ (l.take (volume.clustersAhead offset + 1)).tail) ∧
  (¬ IsEoc (volume.lastEntry l) → l.length ≤ volume.clustersAhead offset →
    fat16BadSector ∈ l.tail ∨ (volume.lastEntry l ≠ 1 ∧ volume.lastEntry l ≠ 0xFFF7))

/-! ## One turn -/

section Turn

variable {volume : FatVolume} {cluster : Nat}

theorem toUInt16_getFatEntry (onDisk : volume.EntryOnDisk cluster) :
    toUInt16 (fat16GetFatEntry volume cluster) = volume.fat cluster := by
  rw [getFatEntry_onDisk onDisk, toUInt16_eq (fat_lt _ _)]

/-- A link to another cluster is followed. -/
theorem clusterWalk_link (onDisk : volume.EntryOnDisk cluster)
    (isData : IsDataCluster (volume.fat cluster)) (notBad : volume.fat cluster ≠ fat16BadSector) (steps : Nat) :
    clusterWalk volume (steps + 1) cluster = clusterWalk volume steps (volume.fat cluster) ∧
      walkedClusters volume (steps + 1) cluster = cluster :: walkedClusters volume steps (volume.fat cluster) := by
  obtain ⟨lower, upper⟩ := isData
  have notEnd : ¬ 0xFFF8 ≤ volume.fat cluster := by omega
  have notReserved : ¬ (volume.fat cluster = fat16BadSector ∨
      (0xFFF0 ≤ volume.fat cluster ∧ volume.fat cluster ≤ 0xFFF6) ∨ volume.fat cluster = 0) := by omega
  rw [clusterWalk, walkedClusters, toUInt16_getFatEntry onDisk]
  simp only [notEnd, notReserved, if_false, and_self]

/-- At the end of the chain the offset is out of range. -/
theorem clusterWalk_end (onDisk : volume.EntryOnDisk cluster) (isEnd : IsEoc (volume.fat cluster))
    (steps : Nat) :
    clusterWalk volume (steps + 1) cluster = -eoutofrange ∧
      walkedClusters volume (steps + 1) cluster = [cluster] := by
  unfold IsEoc at isEnd
  rw [clusterWalk, walkedClusters, toUInt16_getFatEntry onDisk, if_pos isEnd, if_pos isEnd]
  exact ⟨rfl, rfl⟩

/-- The entries the driver refuses. -/
theorem clusterWalk_refused (onDisk : volume.EntryOnDisk cluster) (notEnd : ¬ IsEoc (volume.fat cluster))
    (refused : volume.fat cluster = fat16BadSector ∨
      (0xFFF0 ≤ volume.fat cluster ∧ volume.fat cluster ≤ 0xFFF6) ∨ volume.fat cluster = 0) (steps : Nat) :
    clusterWalk volume (steps + 1) cluster = -eio ∧ walkedClusters volume (steps + 1) cluster = [cluster] := by
  unfold IsEoc at notEnd
  rw [clusterWalk, walkedClusters, toUInt16_getFatEntry onDisk, if_neg notEnd, if_neg notEnd,
    if_pos refused, if_pos refused]
  exact ⟨rfl, rfl⟩

theorem mem_walkedClusters (volume : FatVolume) (steps cluster : Nat) :
    cluster ∈ walkedClusters volume steps cluster := by
  cases steps with
  | zero => exact List.mem_cons_self
  | succ steps =>
    rw [walkedClusters]
    split
    · exact List.mem_cons_self
    · split
      · exact List.mem_cons_self
      · exact List.mem_cons_self

/-- The entries 1 and 0xFFF7 are followed like a link. -/
theorem clusterWalk_missed (onDisk : volume.EntryOnDisk cluster)
    (missed : volume.fat cluster = 1 ∨ volume.fat cluster = 0xFFF7) (steps : Nat) :
    volume.fat cluster ∈ walkedClusters volume (steps + 1) cluster := by
  have notEnd : ¬ 0xFFF8 ≤ volume.fat cluster := by omega
  have notRefused : ¬ (volume.fat cluster = fat16BadSector ∨
      (0xFFF0 ≤ volume.fat cluster ∧ volume.fat cluster ≤ 0xFFF6) ∨ volume.fat cluster = 0) := by
    unfold fat16BadSector
    omega
  rw [walkedClusters, toUInt16_getFatEntry onDisk]
  simp only [notEnd, notRefused, if_false]
  exact List.mem_cons_of_mem _ (mem_walkedClusters volume steps _)

end Turn

/-! ## Along a path -/

section Path

variable {volume : FatVolume} {l : List Nat}

/-- The clusters behind the first one, up to index `k`. -/
theorem mem_tail_take {k cluster : Nat} :
    cluster ∈ (l.take (k + 1)).tail ↔ ∃ n < k, l[n + 1]? = some cluster := by
  cases l with
  | nil => simp
  | cons first rest =>
    rw [List.take_succ_cons, List.tail_cons, List.mem_iff_getElem?]
    constructor
    · rintro ⟨n, found⟩
      rw [List.getElem?_take] at found
      split at found
      · exact ⟨n, by assumption, by simpa using found⟩
      · exact absurd found (by simp)
    · rintro ⟨n, below, found⟩
      exact ⟨n, by rw [List.getElem?_take, if_pos below]; simpa using found⟩

theorem FatPath.length_pos (path : FatPath volume l) : 0 < l.length := List.length_pos_iff.mpr path.notEmpty

theorem headD_eq_getElem (inside : 0 < l.length) : l.headD 0 = l[0] := by
  cases l with
  | nil => exact absurd inside (by simp)
  | cons first rest => rfl

theorem getLastD_eq_getElem {i : Nat} (last : i + 1 = l.length) : l.getLastD 0 = l[i] := by
  rw [List.getLastD_eq_getLast?, List.getLast?_eq_getElem?, show l.length - 1 = i by omega,
    List.getElem?_eq_getElem (by omega), Option.getD_some]

/-- The walk reaches each cluster of a path, as long as it does not enter cluster 0xFF7. -/
theorem clusterWalk_along (path : FatPath volume l) (j : Nat) :
    ∀ (inside : j < l.length), fat16BadSector ∉ (l.take (j + 1)).tail → ∀ steps,
      clusterWalk volume (j + steps) (l.headD 0) = clusterWalk volume steps l[j] ∧
      walkedClusters volume (j + steps) (l.headD 0) = l.take j ++ walkedClusters volume steps l[j] := by
  induction j with
  | zero =>
    intro inside _ steps
    rw [Nat.zero_add, headD_eq_getElem inside, List.take_zero, List.nil_append]
    exact ⟨rfl, rfl⟩
  | succ j ih =>
    intro inside noBad steps
    have before : j < l.length := by omega
    have noBadBefore : fat16BadSector ∉ (l.take (j + 1)).tail := by
      intro member
      obtain ⟨n, below, found⟩ := mem_tail_take.mp member
      exact noBad (mem_tail_take.mpr ⟨n, by omega, found⟩)
    have isNext := path.links.next_getElem inside
    have isData := path.clusters _ (List.getElem_mem inside)
    have notBad : l[j + 1] ≠ fat16BadSector := by
      intro bad
      exact noBad (mem_tail_take.mpr ⟨j, by omega, by rw [List.getElem?_eq_getElem inside, bad]⟩)
    rw [← isNext] at isData notBad
    obtain ⟨reached, walked⟩ := ih before noBadBefore (steps + 1)
    obtain ⟨link, linkWalked⟩ :=
      clusterWalk_link (path.onDisk _ (List.getElem_mem before)) isData notBad steps
    rw [show j + 1 + steps = j + (steps + 1) by omega, reached, walked, link, linkWalked, isNext,
      ← List.take_append_getElem before, List.append_assoc, List.singleton_append]
    exact ⟨rfl, rfl⟩

/-- The walk stops at the first cluster 0xFF7 it would enter. -/
theorem clusterWalk_bad (path : FatPath volume l) {k : Nat}
    (bad : fat16BadSector ∈ (l.take (k + 1)).tail) :
    clusterWalk volume k (l.headD 0) = -eio ∧
      ∀ cluster ∈ walkedClusters volume k (l.headD 0), IsDataCluster cluster := by
  have exists_bad := mem_tail_take.mp bad
  obtain ⟨⟨below, found⟩, first⟩ := Nat.find_spec exists_bad, fun m => Nat.find_min (m := m) exists_bad
  obtain ⟨n, isFirst⟩ : ∃ n, n = Nat.find exists_bad := ⟨_, rfl⟩
  rw [← isFirst] at below found first
  have next : n + 1 < l.length := (List.getElem?_eq_some_iff.mp found).1
  have isBad : l[n + 1] = fat16BadSector := (List.getElem?_eq_some_iff.mp found).2
  have inside : n < l.length := by omega
  have noBadBefore : fat16BadSector ∉ (l.take (n + 1)).tail := by
    intro member
    obtain ⟨m, earlier, isBad⟩ := mem_tail_take.mp member
    exact first m earlier ⟨by omega, isBad⟩
  have isNext := path.links.next_getElem next
  have onDisk := path.onDisk _ (List.getElem_mem inside)
  obtain ⟨reached, walked⟩ := clusterWalk_along path n inside noBadBefore (k - n - 1 + 1)
  obtain ⟨refused, refusedWalked⟩ := clusterWalk_refused onDisk
    (by rw [isNext, isBad]; exact (by decide : ¬ 0xFFF8 ≤ 0xFF7)) (.inl (by rw [isNext, isBad])) (k - n - 1)
  rw [show n + (k - n - 1 + 1) = k by omega] at reached walked
  rw [reached, refused, walked, refusedWalked]
  refine ⟨rfl, fun cluster member => ?_⟩
  cases List.mem_append.mp member with
  | inl before => exact path.clusters cluster (List.mem_of_mem_take before)
  | inr last =>
    obtain rfl := List.mem_singleton.mp last
    exact path.clusters _ (List.getElem_mem inside)

/-- Behind the end of a path the walk goes on with the entry of the last cluster. -/
theorem clusterWalk_behind (path : FatPath volume l) (noBad : fat16BadSector ∉ l.tail) {k : Nat}
    (behind : l.length ≤ k) :
    clusterWalk volume k (l.headD 0) = clusterWalk volume (k - l.length + 1) (l.getLastD 0) ∧
      walkedClusters volume k (l.headD 0) =
        l.dropLast ++ walkedClusters volume (k - l.length + 1) (l.getLastD 0) := by
  have positive := path.length_pos
  have last : l.length - 1 < l.length := by omega
  have whole : l.take (l.length - 1 + 1) = l := List.take_of_length_le (by omega)
  have along := clusterWalk_along path (l.length - 1) last (by rwa [whole]) (k - l.length + 1)
  rw [show l.length - 1 + (k - l.length + 1) = k by omega] at along
  rw [List.dropLast_eq_take, getLastD_eq_getElem (i := l.length - 1) (by omega)]
  exact along

theorem FatPath.getLastD_mem (path : FatPath volume l) : l.getLastD 0 ∈ l := by
  have positive := path.length_pos
  rw [getLastD_eq_getElem (i := l.length - 1) (by omega)]
  exact List.getElem_mem _

theorem FatPath.lookup_eq (path : FatPath volume l) (offset : Nat) :
    fat16GetClusterForOffset volume (l.headD 0 : Nat) offset =
      clusterWalk volume (volume.clustersAhead offset) (l.headD 0) := by
  have isData : IsDataCluster (l.headD 0) := by
    rw [headD_eq_getElem path.length_pos]
    exact path.clusters _ (List.getElem_mem _)
  have small := isData.2
  rw [fat16GetClusterForOffset, toUInt16_eq (by omega), Int.toNat_natCast]
  rfl

end Path

/-! ## The lookup -/

section Lookup

variable {volume : FatVolume} {l : List Nat} {offset : Nat}

/-- The lookup of an offset of a complete chain. -/
theorem lookup_complete_iff (path : FatPath volume l) (isEnd : IsEoc (volume.lastEntry l)) :
    fat16GetClusterForOffset volume (l.headD 0 : Nat) offset =
        (l[volume.clustersAhead offset]?.map fun (cluster : Nat) => (cluster : Int)).getD (-eoutofrange) ↔
      fat16BadSector ∉ (l.take (volume.clustersAhead offset + 1)).tail := by
  rw [path.lookup_eq]
  obtain ⟨k, isAhead⟩ : ∃ k, k = volume.clustersAhead offset := ⟨_, rfl⟩
  rw [← isAhead]
  constructor
  · intro right bad
    rw [(clusterWalk_bad path bad).1] at right
    cases found : l[k]? with
    | none =>
      rw [found] at right
      exact absurd right (by decide)
    | some cluster =>
      rw [found] at right
      have negative : -eio < 0 := by decide
      simp only [Option.map_some, Option.getD_some] at right
      omega
  · intro noBad
    by_cases inside : k < l.length
    · have reached := (clusterWalk_along path k inside noBad 0).1
      rw [Nat.add_zero] at reached
      rw [reached, List.getElem?_eq_getElem inside]
      rfl
    · rw [List.take_of_length_le (by omega)] at noBad
      have onDisk := path.onDisk _ path.getLastD_mem
      rw [(clusterWalk_behind path noBad (by omega)).1, (clusterWalk_end onDisk isEnd _).1,
        List.getElem?_eq_none (by omega)]
      rfl

/-- The lookup of an offset behind a path that breaks off. -/
theorem lookup_broken_iff (path : FatPath volume l) (notEnd : ¬ IsEoc (volume.lastEntry l))
    (behind : l.length ≤ volume.clustersAhead offset) :
    (fat16GetClusterForOffset volume (l.headD 0 : Nat) offset < 0 ∧
        ∀ cluster ∈ walkedClusters volume (volume.clustersAhead offset) (l.headD 0), IsDataCluster cluster) ↔
      (fat16BadSector ∈ l.tail ∨ (volume.lastEntry l ≠ 1 ∧ volume.lastEntry l ≠ 0xFFF7)) := by
  rw [path.lookup_eq]
  obtain ⟨k, isAhead⟩ : ∃ k, k = volume.clustersAhead offset := ⟨_, rfl⟩
  rw [← isAhead] at behind ⊢
  have whole : l.take (k + 1) = l := List.take_of_length_le (by omega)
  have onDisk := path.onDisk _ path.getLastD_mem
  have negative : -eio < 0 := by decide
  by_cases bad : fat16BadSector ∈ l.tail
  · rw [← whole] at bad
    obtain ⟨failed, walked⟩ := clusterWalk_bad path bad
    rw [whole] at bad
    rw [failed]
    exact ⟨fun _ => .inl bad, fun _ => ⟨negative, walked⟩⟩
  · obtain ⟨result, walked⟩ := clusterWalk_behind path bad behind
    rw [result, walked]
    constructor
    · rintro ⟨-, isData⟩
      apply Or.inr
      by_contra missed
      -- the entry is used as a cluster, and it is none
      have entry : volume.fat (l.getLastD 0) = 1 ∨ volume.fat (l.getLastD 0) = 0xFFF7 := by
        unfold FatVolume.lastEntry at missed
        omega
      have used := isData _ (List.mem_append_right _ (clusterWalk_missed onDisk entry (k - l.length)))
      unfold IsDataCluster at used
      omega
    · intro known
      obtain ⟨notOne, notBad⟩ := known.resolve_left bad
      have noLink : ¬ IsDataCluster (volume.lastEntry l) := by
        have stops := path.links.stop_getLast path.notEmpty
        rwa [FatVolume.lastEntry, List.getLastD_eq_getLast?, List.getLast?_eq_some_getLast path.notEmpty,
          Option.getD_some]
      have refused : volume.lastEntry l = fat16BadSector ∨
          (0xFFF0 ≤ volume.lastEntry l ∧ volume.lastEntry l ≤ 0xFFF6) ∨ volume.lastEntry l = 0 := by
        unfold IsDataCluster at noLink
        unfold IsEoc at notEnd
        omega
      obtain ⟨failed, last⟩ := clusterWalk_refused onDisk notEnd refused (k - l.length)
      rw [failed, last]
      refine ⟨negative, fun cluster member => ?_⟩
      cases List.mem_append.mp member with
      | inl before => exact path.clusters cluster (List.mem_of_mem_dropLast before)
      | inr last =>
        obtain rfl := List.mem_singleton.mp last
        exact path.clusters _ path.getLastD_mem

/-- The lookup is right exactly where the constant 0xFF7 makes no difference. -/
theorem walkRight_iff (path : FatPath volume l) (offset : Nat) :
    WalkRight volume l offset ↔ WalkFits volume l offset := by
  constructor
  · intro right
    refine ⟨fun isEnd => ?_, fun notEnd behind => ?_⟩
    · exact (lookup_complete_iff path isEnd).mp (right.complete isEnd)
    · exact (lookup_broken_iff path notEnd behind).mp (right.broken notEnd behind)
  · intro fits
    refine ⟨fun isEnd => ?_, fun notEnd behind => ?_⟩
    · exact (lookup_complete_iff path isEnd).mpr (fits.1 isEnd)
    · exact (lookup_broken_iff path notEnd behind).mpr (fits.2 notEnd behind)

end Lookup

/-! ## Two volumes -/

/-- A volume of 8192 sectors whose table begins in sector 1 and has the given bytes. -/
def tableVolume (table : List (Nat × UInt8)) : FatVolume where
  store := ⟨8192 * viosSectorSize, fun pos => (table.lookup (pos - viosSectorSize)).getD 0⟩
  header := ⟨1, 1, 1, 16, 8192, 64, 0⟩
  rootDirectory := ⟨List.replicate 16 .zero, 65, 66⟩

theorem tableHeader_consistent :
    FatHeader.Consistent ⟨1, 1, 1, 16, 8192, 64, 0⟩ (8192 * viosSectorSize) := by
  constructor
  all_goals decide

theorem tableVolume_mounted (table : List (Nat × UInt8)) : Mounted (tableVolume table) where
  consistent := tableHeader_consistent
  sectorPos := (by decide : 65 = FatHeader.rootDirSectorPos ⟨1, 1, 1, 16, 8192, 64, 0⟩)
  endingSectorPos := (by decide : 66 = FatHeader.dataSector ⟨1, 1, 1, 16, 8192, 64, 0⟩)
  length := List.length_replicate

/-- A chain of the clusters 2, 3. -/
def twoClusters : FatVolume := tableVolume [(4, 3), (5, 0), (6, 0xFF), (7, 0xFF)]

theorem twoClusters_path : FatPath twoClusters [2, 3] :=
  ⟨by decide, by decide, by unfold FatVolume.EntryOnDisk; decide, by decide,
    show ¬ IsDataCluster (twoClusters.fat 3) by decide⟩

theorem twoClusters_lookup :
    FatPath twoClusters [2, 3] ∧ WalkFits twoClusters [2, 3] 600 ∧ WalkRight twoClusters [2, 3] 600 := by
  have path := twoClusters_path
  have fits : WalkFits twoClusters [2, 3] 600 := by
    refine ⟨fun _ => by decide, fun notEnd => ?_⟩
    exact absurd (show IsEoc (twoClusters.lastEntry [2, 3]) by unfold IsEoc; decide) notEnd
  exact ⟨path, fits, (walkRight_iff path 600).mpr fits⟩

/-- A chain of the clusters 2 and 0xFF7: the second one is taken for a bad one. -/
def chainOverFF7 : FatVolume := tableVolume [(4, 0xF7), (5, 0x0F), (8174, 0xFF), (8175, 0xFF)]

theorem chainOverFF7_path : FatPath chainOverFF7 [2, 0xFF7] :=
  ⟨by decide, by decide, by unfold FatVolume.EntryOnDisk; decide, by decide,
    show ¬ IsDataCluster (chainOverFF7.fat 0xFF7) by decide⟩

theorem chainOverFF7_fails :
    FatPath chainOverFF7 [2, 0xFF7] ∧ IsEoc (chainOverFF7.lastEntry [2, 0xFF7]) ∧
      fat16GetClusterForOffset chainOverFF7 2 512 = -eio ∧ ¬ WalkRight chainOverFF7 [2, 0xFF7] 512 := by
  have path := chainOverFF7_path
  have isEnd : IsEoc (chainOverFF7.lastEntry [2, 0xFF7]) := by unfold IsEoc; decide
  have fails : fat16GetClusterForOffset chainOverFF7 2 512 = -eio := by decide
  refine ⟨path, isEnd, fails, fun right => ?_⟩
  exact absurd (right.complete isEnd) (by decide)

end ViOS.Fs
