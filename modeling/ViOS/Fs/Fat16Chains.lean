import ViOS.Fs.Fat16Layout
import ViOS.Lib.Chain
import Mathlib.Data.Finset.Card
import Mathlib.Data.List.GetD
import Mathlib.Order.Interval.Finset.Nat

/-! # Cluster chains

What the functions of the driver that follow, lengthen and free chains do to the
allocation table and to the bytes of a file, stated over the views of the volume.

* `ChainFrom` — a chain of clusters from its head, the empty one from 0.
* `FatVolume.freeClusters` — the clusters the allocator can hand out.
* `allocateCluster_first`, `allocateCluster_behind`, `freeClusterChain_spec`,
  `clusterWalk_spec` — one lemma for each function.
* `Grown`, `writeLoop_spec` — writing through a chain, which is lengthened as needed.
-/

namespace ViOS.Fs

open ViOS.Lib

/-! ## Chains -/

/-- An entry that ends a chain. -/
def IsEoc (entry : Nat) : Prop := 0xFFF8 ≤ entry

/-- The clusters of a file with the given first cluster. -/
structure ChainFrom (volume : FatVolume) (head : Nat) (l : List Nat) : Prop where
  head : l.headD 0 = head
  chain : Chain volume.fat IsEoc l
  nodup : l.Nodup
  clusters : ∀ cluster ∈ l, volume.IsCluster cluster

theorem FatVolume.IsCluster.lt {volume : FatVolume} (mounted : Mounted volume) {cluster : Nat}
    (isCluster : volume.IsCluster cluster) : cluster < 65526 :=
  Nat.lt_of_lt_of_le isCluster.2 mounted.consistent.fat16

namespace ChainFrom

variable {volume volume' : FatVolume} {head : Nat} {l : List Nat}

theorem congr (chain : ChainFrom volume head l) (same : SameVolume volume volume')
    (fat : ∀ cluster ∈ l, volume'.fat cluster = volume.fat cluster) : ChainFrom volume' head l where
  head := chain.head
  chain := chain.chain.congr fat
  nodup := chain.nodup
  clusters := by
    intro cluster member
    unfold FatVolume.IsCluster
    rw [same.header]
    exact chain.clusters cluster member

/-- The clusters of a chain are in use. -/
theorem fat_ne_zero (chain : ChainFrom volume head l) {cluster : Nat} (member : cluster ∈ l) :
    volume.fat cluster ≠ 0 := by
  intro zero
  rcases chain.chain.next_mem member with isNext | isEnd
  · have lower := (chain.clusters _ isNext).1
    omega
  · unfold IsEoc at isEnd
    omega

theorem getElem_zero (chain : ChainFrom volume head l) (notEmpty : 0 < l.length) : l[0] = head := by
  cases l with
  | nil => exact absurd notEmpty (by simp)
  | cons first rest => exact chain.head

theorem eq_nil (chain : ChainFrom volume 0 l) : l = [] := by
  cases l with
  | nil => rfl
  | cons first rest =>
    have lower := (chain.clusters first List.mem_cons_self).1
    have isHead : first = 0 := chain.head
    omega

theorem length_pos (chain : ChainFrom volume head l) (notZero : head ≠ 0) : 0 < l.length := by
  cases l with
  | nil => exact absurd chain.head.symm notZero
  | cons first rest => exact Nat.succ_pos _

theorem head_mem (chain : ChainFrom volume head l) (notZero : head ≠ 0) : head ∈ l := by
  have notEmpty := chain.length_pos notZero
  rw [← chain.getElem_zero notEmpty]
  exact List.getElem_mem notEmpty

end ChainFrom

/-! ## The allocator -/

/-- The clusters of the volume that are free and that `fat16_find_free_cluster` looks at. -/
def FatVolume.freeClusters (volume : FatVolume) : Finset Nat :=
  (Finset.range (min volume.header.clusterEnd volume.header.totalClusters)).filter fun cluster =>
    2 ≤ cluster ∧ volume.fat cluster = 0

theorem mem_freeClusters {volume : FatVolume} {cluster : Nat} :
    cluster ∈ volume.freeClusters ↔
      volume.IsCluster cluster ∧ cluster < volume.header.totalClusters ∧ volume.fat cluster = 0 := by
  unfold FatVolume.freeClusters FatVolume.IsCluster
  simp only [Finset.mem_filter, Finset.mem_range, lt_min_iff]
  constructor
  · rintro ⟨⟨inTable, scanned⟩, lower, free⟩
    exact ⟨⟨lower, inTable⟩, scanned, free⟩
  · rintro ⟨⟨lower, inTable⟩, scanned, free⟩
    exact ⟨⟨inTable, scanned⟩, lower, free⟩

/-- A search from 2 on finds the least number below its end, if there is one. -/
theorem find_range_least {p : Nat → Bool} {ending x : Nat} (lower : 2 ≤ x) (upper : x < ending)
    (holds : p x = true) :
    ∃ least, (List.range' 2 (ending - 2)).find? p = some least ∧ 2 ≤ least ∧ least ≤ x ∧ p least = true ∧
      ∀ other, 2 ≤ other → p other = true → least ≤ other := by
  have member : x ∈ List.range' 2 (ending - 2) := List.mem_range'_1.mpr ⟨lower, by omega⟩
  cases found : (List.range' 2 (ending - 2)).find? p with
  | none => exact absurd holds (List.find?_eq_none.mp found x member)
  | some least =>
    obtain ⟨isLeast, inRange, before⟩ := List.find?_range'_eq_some.mp found
    have below : ∀ other, 2 ≤ other → p other = true → least ≤ other := by
      intro other isLower otherHolds
      by_contra earlier
      have not := before other isLower (by omega)
      rw [otherHolds] at not
      exact absurd not (by decide)
    exact ⟨least, rfl, (List.mem_range'_1.mp inRange).1, below x lower holds, isLeast, below⟩

theorem unused_iff {volume : FatVolume} {cluster : Nat} (onDisk : volume.EntryOnDisk cluster) :
    decide (fat16GetFatEntry volume cluster = fat16Unused) = true ↔ volume.fat cluster = 0 := by
  rw [getFatEntry_onDisk onDisk, decide_eq_true_iff]
  exact Int.natCast_inj

/-- When an entry in reach of the search is zero, the search finds the lowest such entry. -/
theorem findFreeCluster_least {volume : FatVolume} {known : Nat} (lower : 2 ≤ known)
    (scanned : known < volume.header.totalClusters) (onDisk : volume.EntryOnDisk known)
    (free : volume.fat known = 0) :
    ∃ least : Nat, fat16FindFreeCluster volume = least ∧ 2 ≤ least ∧ least ≤ known ∧ volume.fat least = 0 ∧
      ∀ other, 2 ≤ other → volume.EntryOnDisk other → volume.fat other = 0 → least ≤ other := by
  obtain ⟨least, found, lower', upper, unused, below⟩ :=
    @find_range_least (fun c => decide (fat16GetFatEntry volume c = fat16Unused)) _ _ lower scanned
      ((unused_iff onDisk).mpr free)
  refine ⟨least, ?_, lower', upper, (unused_iff (onDisk.mono upper)).mp unused, ?_⟩
  · unfold fat16FindFreeCluster
    rw [found]
  · intro other isLower otherOnDisk otherFree
    exact below other isLower ((unused_iff otherOnDisk).mpr otherFree)

theorem findFreeCluster_none {volume : FatVolume}
    (onDisk : ∀ cluster < volume.header.totalClusters, volume.EntryOnDisk cluster)
    (used : ∀ cluster, 2 ≤ cluster → cluster < volume.header.totalClusters → volume.fat cluster ≠ 0) :
    fat16FindFreeCluster volume = -enomem := by
  unfold fat16FindFreeCluster
  rw [List.find?_eq_none.mpr]
  intro cluster member unused
  obtain ⟨lower, upper⟩ := List.mem_range'_1.mp member
  have scanned : cluster < volume.header.totalClusters := by omega
  exact used cluster lower scanned ((unused_iff (onDisk cluster scanned)).mp unused)

/-- The search finds the lowest free cluster. -/
theorem findFreeCluster_spec {volume : FatVolume} (mounted : Mounted volume)
    (room : volume.freeClusters.Nonempty) :
    ∃ cluster ∈ volume.freeClusters, fat16FindFreeCluster volume = cluster ∧
      ∀ other ∈ volume.freeClusters, cluster ≤ other := by
  have onDisk : ∀ {c}, volume.IsCluster c → volume.EntryOnDisk c := fun isCluster =>
    mounted.tableOnDisk.entryOnDisk (mounted.lt_tableEntries isCluster.2)
  obtain ⟨known, member⟩ := room
  obtain ⟨isCluster, scanned, free⟩ := mem_freeClusters.mp member
  obtain ⟨least, found, lower, upper, leastFree, below⟩ :=
    findFreeCluster_least isCluster.1 scanned (onDisk isCluster) free
  have isLeast : volume.IsCluster least := ⟨lower, Nat.lt_of_le_of_lt upper isCluster.2⟩
  refine ⟨least, mem_freeClusters.mpr ⟨isLeast, Nat.lt_of_le_of_lt upper scanned, leastFree⟩, found, ?_⟩
  intro other otherFree
  obtain ⟨otherCluster, -, otherZero⟩ := mem_freeClusters.mp otherFree
  exact below other otherCluster.1 (onDisk otherCluster) otherZero

/-- A cluster ends a chain and is linked behind `previous`, if there is one, in all copies of the
table.  An entry holds 16 bits. -/
structure TableLinked (volume : FatVolume) (previous : Option Nat) (new : Nat) (volume' : FatVolume) :
    Prop where
  same : SameVolume volume volume'
  copies : CopiesEqual volume → CopiesEqual volume'
  fat : ∀ c < volume.header.tableEntries, volume'.fat c =
    if previous = some c then new % 2 ^ 16 else if c = new then 0xFFFF else volume.fat c
  outside : ∀ p, volume.rootPos ≤ p → volume'.store.bytes p = volume.store.bytes p

/-- `fat16_allocate_cluster` of the cluster that is found, without and with a previous one. -/
theorem allocateCluster_first_table {volume : FatVolume} (onDisk : TableOnDisk volume) {new : Nat}
    (found : fat16FindFreeCluster volume = (new : Int)) (inTable : new < volume.header.tableEntries) :
    ∃ volume', fat16AllocateCluster volume (-1) = ((new : Int), volume') ∧
      TableLinked volume none new volume' := by
  obtain ⟨volume', result, writes⟩ := setFatEntry_table onDisk inTable 0xFFFF
  have notNegative : ¬ (new : Int) < 0 := by omega
  refine ⟨volume', ?_, writes.same, writes.copies, ?_, writes.outside⟩
  · unfold fat16AllocateCluster
    simp only [found, result, notNegative, lt_irrefl, if_false]
    exact if_neg (by decide)
  · intro c inRange
    rw [writes.fat c inRange]
    simp

theorem allocateCluster_behind_table {volume : FatVolume} (onDisk : TableOnDisk volume) {previous new : Nat}
    (found : fat16FindFreeCluster volume = (new : Int)) (inTable : new < volume.header.tableEntries)
    (isPrevious : previous < volume.header.tableEntries) :
    ∃ volume', fat16AllocateCluster volume previous = ((new : Int), volume') ∧
      TableLinked volume (some previous) new volume' := by
  obtain ⟨marked, result, writes⟩ := setFatEntry_table onDisk inTable 0xFFFF
  rw [← writes.same.header] at isPrevious
  obtain ⟨volume', result', writes'⟩ :=
    setFatEntry_table (writes.same.tableOnDisk onDisk) isPrevious new
  have notNegative : ¬ (new : Int) < 0 := by omega
  have isBehind : (0 : Int) ≤ previous := by omega
  refine ⟨volume', ?_, writes.same.trans writes'.same, fun equal => writes'.copies (writes.copies equal), ?_, ?_⟩
  · unfold fat16AllocateCluster
    simp only [found, result, notNegative, isBehind, lt_irrefl, if_false, if_true, Int.toNat_natCast, result']
  · intro c inRange
    rw [writes'.fat c (by rw [writes.same.header]; exact inRange), writes.fat c inRange]
    by_cases here : c = previous
    · simp [here]
    · have elsewhere : ¬ previous = c := fun same => here same.symm
      simp [here, elsewhere]
  · intro p above
    rw [writes'.outside p (by rw [writes.same.rootPos]; exact above), writes.outside p above]

/-- A cluster was taken from the free ones and linked behind `previous`, if there is one. -/
structure Allocated (volume : FatVolume) (previous : Option Nat) (new : Nat) (volume' : FatVolume) :
    Prop where
  same : SameVolume volume volume'
  free : new ∈ volume.freeClusters
  least : ∀ other ∈ volume.freeClusters, new ≤ other
  fat : ∀ c < volume.header.clusterEnd, volume'.fat c =
    if previous = some c then new else if c = new then 0xFFFF else volume.fat c
  entry : ∀ slot < volume.header.rootDirEntries, volume'.entry slot = volume.entry slot
  byteAt : ∀ c offset, volume'.byteAt c offset = volume.byteAt c offset

theorem TableLinked.allocated {volume volume' : FatVolume} {previous : Option Nat} {new : Nat}
    (mounted : Mounted volume) (linked : TableLinked volume previous new volume')
    (free : new ∈ volume.freeClusters) (least : ∀ other ∈ volume.freeClusters, new ≤ other) :
    Allocated volume previous new volume' := by
  have below := volume.rootPos_le
  have small := (mem_freeClusters.mp free).1.lt mounted
  refine ⟨linked.same, free, least, fun c inTable => ?_, fun slot _ => ?_, fun c offset => ?_⟩
  · rw [linked.fat c (mounted.lt_tableEntries inTable), Nat.mod_eq_of_lt (by omega)]
  · exact entry_congr linked.same fun i _ => linked.outside _ (by omega)
  · exact linked.same.byteAt_congr (linked.outside _ (by omega))

theorem allocateCluster_first {volume : FatVolume} (mounted : Mounted volume)
    (room : volume.freeClusters.Nonempty) :
    ∃ (new : Nat) (volume' : FatVolume), fat16AllocateCluster volume (-1) = ((new : Int), volume') ∧
      Allocated volume none new volume' := by
  obtain ⟨new, free, found, least⟩ := findFreeCluster_spec mounted room
  have inTable := mounted.lt_tableEntries (mem_freeClusters.mp free).1.2
  obtain ⟨volume', result, linked⟩ := allocateCluster_first_table mounted.tableOnDisk found inTable
  exact ⟨new, volume', result, linked.allocated mounted free least⟩

theorem allocateCluster_behind {volume : FatVolume} (mounted : Mounted volume)
    (room : volume.freeClusters.Nonempty) {previous : Nat} (isPrevious : volume.IsCluster previous) :
    ∃ (new : Nat) (volume' : FatVolume), fat16AllocateCluster volume previous = ((new : Int), volume') ∧
      Allocated volume (some previous) new volume' := by
  obtain ⟨new, free, found, least⟩ := findFreeCluster_spec mounted room
  have inTable := mounted.lt_tableEntries (mem_freeClusters.mp free).1.2
  obtain ⟨volume', result, linked⟩ := allocateCluster_behind_table mounted.tableOnDisk found inTable
    (mounted.lt_tableEntries isPrevious.2)
  exact ⟨new, volume', result, linked.allocated mounted free least⟩

/-! ## Freeing a chain -/

/-- The clusters of a list are free. -/
structure Freed (volume : FatVolume) (l : List Nat) (volume' : FatVolume) : Prop where
  same : SameVolume volume volume'
  fat : ∀ c < volume.header.clusterEnd, volume'.fat c = if c ∈ l then 0 else volume.fat c
  entry : ∀ slot < volume.header.rootDirEntries, volume'.entry slot = volume.entry slot
  byteAt : ∀ c offset, volume'.byteAt c offset = volume.byteAt c offset

/-- The entries of a list are zero, in all copies of the table. -/
structure TableFreed (volume : FatVolume) (l : List Nat) (volume' : FatVolume) : Prop where
  same : SameVolume volume volume'
  copies : CopiesEqual volume → CopiesEqual volume'
  fat : ∀ c < volume.header.tableEntries, volume'.fat c = if c ∈ l then 0 else volume.fat c
  outside : ∀ p, volume.rootPos ≤ p → volume'.store.bytes p = volume.store.bytes p

theorem TableFreed.cons {a b c : FatVolume} {cluster : Nat} {rest : List Nat}
    (write : TableWrite a cluster fat16Unused b) (freed : TableFreed b rest c) :
    TableFreed a (cluster :: rest) c where
  same := write.same.trans freed.same
  copies := fun equal => freed.copies (write.copies equal)
  fat := by
    intro k inTable
    rw [freed.fat k (by rw [write.same.header]; exact inTable), write.fat k inTable]
    by_cases here : k = cluster
    · simp [here, fat16Unused]
    · simp only [List.mem_cons, here, false_or, if_false]
  outside := by
    intro p above
    rw [freed.outside p (by rw [write.same.rootPos]; exact above), write.outside p above]

theorem freeChainLoop_stops {volume : FatVolume} {fuel : Nat} {cluster res : Int}
    (stops : ¬ (2 ≤ cluster ∧ cluster < 0xFFF8)) : freeChainLoop fuel cluster res volume = (res, volume) := by
  cases fuel with
  | zero => rfl
  | succ fuel => rw [freeChainLoop, if_neg stops]

/-- The loop frees a chain whose clusters it does not take for the end. -/
theorem freeChainLoop_table (l : List Nat) :
    ∀ {volume : FatVolume} {fuel : Nat}, TableOnDisk volume → Chain volume.fat IsEoc l → l.Nodup →
      (∀ c ∈ l, 2 ≤ c ∧ c < volume.header.tableEntries ∧ c < 0xFFF8) → l ≠ [] → l.length < fuel →
      ∃ volume', freeChainLoop fuel (l.headD 0 : Nat) 0 volume = (0, volume') ∧
        TableFreed volume l volume' := by
  induction l with
  | nil => exact fun _ _ _ _ notEmpty => absurd rfl notEmpty
  | cons cluster rest ih =>
    intro volume fuel onDisk chain nodup clusters _ enough
    obtain ⟨fuel, rfl⟩ : ∃ f, fuel = f + 1 := ⟨fuel - 1, by simp at enough; omega⟩
    obtain ⟨lower, inTable, small⟩ := clusters cluster List.mem_cons_self
    obtain ⟨notLater, nodupRest⟩ := List.nodup_cons.mp nodup
    obtain ⟨freed, result, writes⟩ := setFatEntry_table onDisk inTable fat16Unused
    have inLoop : (2 : Int) ≤ cluster ∧ (cluster : Int) < 0xFFF8 := by omega
    have notNegative : ¬ ((volume.fat cluster : Nat) : Int) < 0 := by omega
    have turn : freeChainLoop (fuel + 1) ((cluster :: rest).headD 0 : Nat) 0 volume =
        freeChainLoop fuel (volume.fat cluster : Nat) 0 freed := by
      rw [List.headD_cons, freeChainLoop, if_pos inLoop, getFatEntry_table onDisk inTable]
      simp only [notNegative, result, lt_irrefl, if_false]
    rw [turn]
    cases rest with
    | nil =>
      -- the entry of the last cluster ends the loop
      have isEnd : IsEoc (volume.fat cluster) := chain
      refine ⟨freed, ?_, .cons writes ⟨⟨rfl, rfl, rfl⟩, id, fun c _ => by simp, fun _ _ => rfl⟩⟩
      exact freeChainLoop_stops (by unfold IsEoc at isEnd; omega)
    | cons succ rest =>
      rw [chain.1]
      have chainRest : Chain freed.fat IsEoc (succ :: rest) := by
        refine chain.2.congr fun c member => ?_
        have different : ¬ c = cluster := fun same => notLater (same ▸ member)
        rw [writes.fat c (clusters c (List.mem_cons_of_mem _ member)).2.1, if_neg different]
      obtain ⟨volume', result', freedRest⟩ := ih (writes.same.tableOnDisk onDisk) chainRest nodupRest
        (fun c member => by
          rw [writes.same.header]
          exact clusters c (List.mem_cons_of_mem _ member))
        (List.cons_ne_nil _ _) (by simp at enough ⊢; omega)
      exact ⟨volume', result', .cons writes freedRest⟩

theorem ChainFrom.length_le {volume : FatVolume} {head : Nat} {l : List Nat} (mounted : Mounted volume)
    (chain : ChainFrom volume head l) : l.length ≤ 65526 := by
  have inRange : l.toFinset ⊆ Finset.range 65526 := by
    intro cluster member
    exact Finset.mem_range.mpr ((chain.clusters cluster (List.mem_toFinset.mp member)).lt mounted)
  have card := Finset.card_le_card inRange
  rwa [List.toFinset_card_of_nodup chain.nodup, Finset.card_range] at card

/-- `fat16_free_cluster_chain`. -/
theorem freeClusterChain_spec {volume : FatVolume} {head : Nat} {l : List Nat} (mounted : Mounted volume)
    (chain : ChainFrom volume head l) :
    ∃ volume', fat16FreeClusterChain volume head = (0, volume') ∧ Freed volume l volume' := by
  unfold fat16FreeClusterChain
  by_cases zero : head = 0
  · subst zero
    obtain rfl := chain.eq_nil
    exact ⟨volume, rfl, ⟨rfl, rfl, rfl⟩, fun c _ => by simp, fun _ _ => rfl, fun _ _ => rfl⟩
  · have notZero : ¬ (head : Int) = 0 := by omega
    have length := chain.length_le mounted
    have below := volume.rootPos_le
    rw [if_neg notZero, ← chain.head]
    obtain ⟨volume', result, freed⟩ := freeChainLoop_table l mounted.tableOnDisk chain.chain chain.nodup
      (fun c member => by
        have isCluster := chain.clusters c member
        have small := isCluster.lt mounted
        exact ⟨isCluster.1, mounted.lt_tableEntries isCluster.2, by omega⟩)
      (List.ne_nil_of_length_pos (chain.length_pos zero)) (show l.length < 2 ^ 16 by omega)
    refine ⟨volume', result, freed.same, fun c inTable => freed.fat c (mounted.lt_tableEntries inTable),
      fun slot _ => ?_, fun c offset => ?_⟩
    · exact entry_congr freed.same fun i _ => freed.outside _ (by omega)
    · exact freed.same.byteAt_congr (freed.outside _ (by omega))

/-! ## Following a chain -/

/-- The cluster numbers that `fat16_get_cluster_for_offset` follows. -/
def Walkable (cluster : Nat) : Prop := cluster ≠ fat16BadSector ∧ cluster < 0xFFF0

theorem toUInt16_eq {value : Nat} (small : value < 2 ^ 16) : toUInt16 value = value := by
  unfold toUInt16
  omega

/-- One turn of the walk on a chain. -/
theorem clusterWalk_succ {volume : FatVolume} (mounted : Mounted volume) {cluster : Nat}
    (isCluster : volume.IsCluster cluster) (small : volume.fat cluster < 2 ^ 16) (steps : Nat) :
    clusterWalk volume (steps + 1) cluster =
      if 0xFFF8 ≤ volume.fat cluster then -eoutofrange
      else if volume.fat cluster = fat16BadSector ∨
          (0xFFF0 ≤ volume.fat cluster ∧ volume.fat cluster ≤ 0xFFF6) ∨ volume.fat cluster = 0 then -eio
      else clusterWalk volume steps (volume.fat cluster) := by
  rw [clusterWalk, getFatEntry_eq mounted isCluster.2, toUInt16_eq small]

theorem fat_lt (volume : FatVolume) (cluster : Nat) : volume.fat cluster < 2 ^ 16 := by
  unfold FatVolume.fat
  rw [littleEndian_two]
  have low := (volume.store.bytes (volume.tablePos + cluster * fat16FatEntrySize + 0)).toNat_lt
  have high := (volume.store.bytes (volume.tablePos + cluster * fat16FatEntrySize + (0 + 1))).toNat_lt
  omega

/-- The walk along a chain of the table that is read: it reaches the cluster, or fails. -/
theorem clusterWalk_onChain {σ : Type} [ByteStream σ] {volume : FatVolume σ} {fat : Nat → Nat} {l : List Nat}
    (chain : Chain fat IsEoc l) (reads : ∀ c ∈ l, toUInt16 (fat16GetFatEntry volume c) = fat c) (steps : Nat) :
    ∀ {i : Nat} (inside : i < l.length),
      clusterWalk volume steps l[i] < 0 ∨
        ∃ reached : i + steps < l.length, clusterWalk volume steps l[i] = l[i + steps] := by
  induction steps with
  | zero => exact fun inside => .inr ⟨inside, rfl⟩
  | succ steps ih =>
    intro i inside
    rw [clusterWalk, reads _ (List.getElem_mem inside)]
    split_ifs with isEnd isBad
    · exact .inl (by decide)
    · exact .inl (by decide)
    · have next : i + 1 < l.length := by
        by_contra last
        have isLast : l[i] = l.getLast (List.ne_nil_of_length_pos (by omega)) := by
          rw [List.getLast_eq_getElem]
          congr 1
          omega
        have ends := chain.stop_getLast (List.ne_nil_of_length_pos (by omega))
        rw [← isLast] at ends
        exact isEnd ends
      rw [chain.next_getElem next]
      rcases ih next with failed | ⟨reached, result⟩
      · exact .inl failed
      · refine .inr ⟨by omega, ?_⟩
        rw [result]
        congr 2
        omega

theorem clusterWalk_spec {volume : FatVolume} (mounted : Mounted volume) {head : Nat} {l : List Nat}
    (chain : ChainFrom volume head l) (steps : Nat) {i : Nat} (inside : i < l.length) :
    clusterWalk volume steps l[i] < 0 ∨
      ∃ reached : i + steps < l.length, clusterWalk volume steps l[i] = l[i + steps] :=
  clusterWalk_onChain chain.chain (fun c member => by
    rw [getFatEntry_eq mounted (chain.clusters c member).2, toUInt16_eq (fat_lt volume c)]) steps inside

/-- A walk over walkable clusters reaches its goal. -/
theorem clusterWalk_eq {volume : FatVolume} (mounted : Mounted volume) {head : Nat} {l : List Nat}
    (chain : ChainFrom volume head l) (walkable : ∀ cluster ∈ l.tail, Walkable cluster) (steps : Nat) :
    ∀ {i : Nat} (inside : i < l.length) (reached : i + steps < l.length),
      clusterWalk volume steps l[i] = l[i + steps] := by
  induction steps with
  | zero => exact fun _ _ => rfl
  | succ steps ih =>
    intro i inside reached
    have next : i + 1 < l.length := by omega
    have isNext : l[i + 1] ∈ l.tail := by
      have tail : l.tail[i]? = some l[i + 1] := by
        rw [List.getElem?_tail, List.getElem?_eq_getElem next]
      exact List.mem_of_getElem? tail
    obtain ⟨notBad, notReserved⟩ := walkable _ isNext
    have lower := (chain.clusters _ (List.getElem_mem next)).1
    rw [clusterWalk_succ mounted (chain.clusters _ (List.getElem_mem inside)) (fat_lt _ _),
      chain.chain.next_getElem next, if_neg (by omega), if_neg (by omega), ih next (by omega)]
    congr 2
    omega

/-! ## Lengthening a chain -/

/-- A chain was lengthened by the lowest free clusters; nothing else changed in the table and in the
root directory. -/
structure Grown (volume : FatVolume) (head : Nat) (l : List Nat) (volume' : FatVolume) (l' : List Nat) :
    Prop where
  same : SameVolume volume volume'
  isPrefix : l <+: l'
  chain : ChainFrom volume' head l'
  fat : ∀ c < volume.header.clusterEnd, c ∉ l' → volume'.fat c = volume.fat c
  fresh : ∀ c ∈ l', c ∉ l → c ∈ volume.freeClusters
  lowest : ∀ c ∈ l', c ∉ l → ∀ other ∈ volume.freeClusters, other ∉ l' → c ≤ other
  free : volume'.freeClusters.card + l'.length = volume.freeClusters.card + l.length
  entry : ∀ slot < volume.header.rootDirEntries, volume'.entry slot = volume.entry slot

theorem freeClusters_congr {volume volume' : FatVolume} (same : SameVolume volume volume')
    {cluster : Nat} (fat : cluster < volume.header.clusterEnd → volume'.fat cluster = volume.fat cluster) :
    cluster ∈ volume'.freeClusters ↔ cluster ∈ volume.freeClusters := by
  rw [mem_freeClusters, mem_freeClusters]
  unfold FatVolume.IsCluster
  rw [same.header]
  constructor
  · rintro ⟨isCluster, scanned, free⟩
    exact ⟨isCluster, scanned, fat isCluster.2 ▸ free⟩
  · rintro ⟨isCluster, scanned, free⟩
    exact ⟨isCluster, scanned, (fat isCluster.2).trans free⟩

namespace Grown

variable {a b c : FatVolume} {head : Nat} {l m n : List Nat}

/-- Only bytes of clusters changed. -/
theorem of_data (chain : ChainFrom a head l) (same : SameVolume a b)
    (fat : ∀ cluster < a.header.clusterEnd, b.fat cluster = a.fat cluster)
    (entry : ∀ slot < a.header.rootDirEntries, b.entry slot = a.entry slot) : Grown a head l b l where
  same := same
  isPrefix := List.prefix_refl l
  chain := chain.congr same fun cluster member => fat cluster (chain.clusters cluster member).2
  fat := fun cluster inTable _ => fat cluster inTable
  fresh := fun _ member notMember => absurd member notMember
  lowest := fun _ member notMember => absurd member notMember
  free := by
    have sets : b.freeClusters = a.freeClusters :=
      Finset.ext fun cluster => freeClusters_congr same (fat cluster)
    rw [sets]
  entry := entry

theorem trans (ab : Grown a head l b m) (bc : Grown b head m c n) : Grown a head l c n := by
  have notEarlier : ∀ {cluster}, cluster ∉ n → cluster ∉ m :=
    fun outside member => outside (bc.isPrefix.subset member)
  have stillFree : ∀ {cluster}, cluster ∉ m → (cluster ∈ b.freeClusters ↔ cluster ∈ a.freeClusters) :=
    fun outside => freeClusters_congr ab.same fun inTable => ab.fat _ inTable outside
  refine ⟨ab.same.trans bc.same, ab.isPrefix.trans bc.isPrefix, bc.chain, ?_, ?_, ?_, ?_, ?_⟩
  · intro cluster inTable outside
    rw [bc.fat cluster (by rw [ab.same.header]; exact inTable) outside,
      ab.fat cluster inTable (notEarlier outside)]
  · intro cluster member notMember
    by_cases earlier : cluster ∈ m
    · exact ab.fresh cluster earlier notMember
    · exact (stillFree earlier).mp (bc.fresh cluster member earlier)
  · intro cluster member notMember other isFree outside
    by_cases earlier : cluster ∈ m
    · exact ab.lowest cluster earlier notMember other isFree (notEarlier outside)
    · exact bc.lowest cluster member earlier other ((stillFree (notEarlier outside)).mpr isFree) outside
  · have first := ab.free
    have second := bc.free
    omega
  · intro slot inRoot
    rw [bc.entry slot (by rw [ab.same.header]; exact inRoot), ab.entry slot inRoot]

end Grown

theorem Allocated.freeClusters {volume volume' : FatVolume} {previous : Option Nat} {new : Nat}
    (allocated : Allocated volume previous new volume')
    (used : ∀ cluster, previous = some cluster → volume.fat cluster ≠ 0) :
    volume'.freeClusters = volume.freeClusters.erase new := by
  obtain ⟨isCluster, -, -⟩ := mem_freeClusters.mp allocated.free
  have lower := isCluster.1
  ext cluster
  rw [Finset.mem_erase, mem_freeClusters, mem_freeClusters]
  unfold FatVolume.IsCluster
  rw [allocated.same.header]
  constructor
  · rintro ⟨inRange, scanned, isZero⟩
    rw [allocated.fat cluster inRange.2] at isZero
    split_ifs at isZero with isPrevious isNew
    · omega
    · exact ⟨isNew, inRange, scanned, isZero⟩
  · rintro ⟨notNew, inRange, scanned, isZero⟩
    refine ⟨inRange, scanned, ?_⟩
    rw [allocated.fat cluster inRange.2, if_neg fun isPrevious => used cluster isPrevious isZero, if_neg notNew]
    exact isZero

/-- A free cluster is in no chain. -/
theorem ChainFrom.not_mem_of_free {volume : FatVolume} {head : Nat} {l : List Nat} {cluster : Nat}
    (chain : ChainFrom volume head l) (free : cluster ∈ volume.freeClusters) : cluster ∉ l :=
  fun member => chain.fat_ne_zero member (mem_freeClusters.mp free).2.2

/-- The allocator lengthens a chain by one cluster. -/
theorem grown_of_behind {volume volume' : FatVolume} {head last new : Nat} {l : List Nat}
    (chain : ChainFrom volume head (l ++ [last])) (allocated : Allocated volume (some last) new volume') :
    Grown volume head (l ++ [last]) volume' (l ++ [last, new]) := by
  have isLast : last ∈ l ++ [last] := List.mem_append_right _ List.mem_cons_self
  have notMember := chain.not_mem_of_free allocated.free
  have inChain : ∀ cluster, cluster ∈ l ++ [last, new] ↔ cluster ∈ l ++ [last] ∨ cluster = new := by
    intro cluster
    simp [or_assoc]
  have clusters : ∀ cluster ∈ l ++ [last, new], volume.IsCluster cluster := by
    intro cluster member
    rcases (inChain cluster).mp member with old | rfl
    · exact chain.clusters cluster old
    · exact (mem_freeClusters.mp allocated.free).1
  have linked := chain.chain.link chain.nodup notMember (show IsEoc 0xFFFF by unfold IsEoc; decide)
  -- the entry of the old last cluster points to the new one, which ends the chain
  have isChain : ChainFrom volume' head (l ++ [last, new]) := by
    refine ⟨?_, linked.congr fun cluster member => ?_, ?_, fun cluster member => ?_⟩
    · rw [← chain.head]
      cases l <;> rfl
    · rw [allocated.fat cluster (clusters cluster member).2]
      by_cases isPrevious : cluster = last
      · subst isPrevious
        rw [if_pos rfl, Function.update_self]
      · have notPrevious : ¬ some last = some cluster := fun same => isPrevious (Option.some.inj same).symm
        rw [if_neg notPrevious, Function.update_of_ne isPrevious]
        by_cases isNew : cluster = new
        · subst isNew
          rw [if_pos rfl, Function.update_self]
        · rw [if_neg isNew, Function.update_of_ne isNew]
    · rw [show l ++ [last, new] = (l ++ [last]) ++ [new] by simp]
      exact List.nodup_append.mpr ⟨chain.nodup, List.nodup_singleton new, fun a inOld b isNew same =>
        notMember (List.mem_singleton.mp isNew ▸ same ▸ inOld)⟩
    · unfold FatVolume.IsCluster
      rw [allocated.same.header]
      exact clusters cluster member
  refine ⟨allocated.same, ⟨[new], by simp⟩, isChain, ?_, ?_, ?_, ?_, allocated.entry⟩
  · intro cluster inTable outside
    have notOld : cluster ∉ l ++ [last] := fun member => outside ((inChain cluster).mpr (.inl member))
    have notNew : ¬ cluster = new := fun same => outside ((inChain cluster).mpr (.inr same))
    have notPrevious : ¬ some last = some cluster := fun same => notOld (Option.some.inj same ▸ isLast)
    rw [allocated.fat cluster inTable, if_neg notPrevious, if_neg notNew]
  · intro cluster member notOld
    rw [((inChain cluster).mp member).resolve_left notOld]
    exact allocated.free
  · intro cluster member notOld other isFree _
    rw [((inChain cluster).mp member).resolve_left notOld]
    exact allocated.least other isFree
  · have sets := allocated.freeClusters fun cluster isPrevious =>
      Option.some.inj isPrevious ▸ chain.fat_ne_zero isLast
    have positive := Finset.card_pos.mpr ⟨new, allocated.free⟩
    rw [sets, Finset.card_erase_of_mem allocated.free]
    simp only [List.length_append, List.length_cons, List.length_nil]
    omega

/-! ## Writing through a chain -/

/-- The byte at a position of a file with the given clusters. -/
def FatVolume.chainByte (volume : FatVolume) (l : List Nat) (k : Nat) : UInt8 :=
  volume.byteAt (l.getD (k / volume.header.clusterSize) 0) (k % volume.header.clusterSize)

theorem chainByte_isPrefix {volume volume' : FatVolume} {l l' : List Nat} {k : Nat}
    (same : SameVolume volume volume') (byteAt : ∀ c offset, volume'.byteAt c offset = volume.byteAt c offset)
    (isPrefix : l <+: l') (inside : k / volume.header.clusterSize < l.length) :
    volume'.chainByte l' k = volume.chainByte l k := by
  have longer := Nat.lt_of_lt_of_le inside isPrefix.length_le
  unfold FatVolume.chainByte
  rw [same.header, byteAt, List.getD_eq_getElem _ _ inside, List.getD_eq_getElem _ _ longer,
    isPrefix.getElem inside]

/-- Writing a part of one cluster of the chain. -/
theorem chainByte_dataWrite {volume volume' : FatVolume} {head i offset total k : Nat} {l : List Nat}
    {buffer : Nat → UInt8} (mounted : Mounted volume) (chain : ChainFrom volume head l) (inside : i < l.length)
    (fits : offset + total ≤ volume.header.clusterSize)
    (writes : DataWrite volume l[i] offset total buffer volume')
    (inFile : k / volume.header.clusterSize < l.length) :
    volume'.chainByte l k =
      if i * volume.header.clusterSize + offset ≤ k ∧ k < i * volume.header.clusterSize + offset + total then
        buffer (k - (i * volume.header.clusterSize + offset))
      else volume.chainByte l k := by
  have positive := mounted.clusterSize_pos
  have place := Nat.div_add_mod k volume.header.clusterSize
  have remainder := Nat.mod_lt k positive
  unfold FatVolume.chainByte
  rw [writes.same.header, List.getD_eq_getElem _ _ inFile,
    writes.byteAt _ _ (chain.clusters _ (List.getElem_mem inFile)) remainder]
  by_cases here : k / volume.header.clusterSize = i
  · rw [Nat.mul_comm, here] at place
    have sameCluster : l[k / volume.header.clusterSize] = l[i] := by simp only [here]
    by_cases written : offset ≤ k % volume.header.clusterSize ∧ k % volume.header.clusterSize < offset + total
    · rw [if_pos ⟨sameCluster, written⟩, if_pos (by omega)]
      congr 1
      omega
    · rw [if_neg fun both => written both.2, if_neg (by omega)]
  · have otherCluster : ¬ l[k / volume.header.clusterSize] = l[i] :=
      fun same => here ((List.Nodup.getElem_inj_iff chain.nodup).mp same)
    have outside : ¬ (i * volume.header.clusterSize + offset ≤ k ∧
        k < i * volume.header.clusterSize + offset + total) := by
      rintro ⟨lower, upper⟩
      refine here (Nat.div_eq_of_lt_le (by omega) ?_)
      rw [Nat.succ_mul]
      omega
    rw [if_neg fun both => otherCluster both.1, if_neg outside]

/-- What a write of `data` at position `start` of a chain leaves. -/
structure Written (volume : FatVolume) (head : Nat) (l : List Nat) (start : Nat) (data : List UInt8)
    (volume' : FatVolume) (l' : List Nat) : Prop where
  grown : Grown volume head l volume' l'
  long : start + data.length ≤ l'.length * volume.header.clusterSize
  bytes : ∀ k < start + data.length, volume'.chainByte l' k =
    if k < start then volume.chainByte l k else data.getD (k - start) 0

/-- The write of the first part of the data, in one cluster. -/
theorem Written.of_dataWrite {volume volume' : FatVolume} {head i offset : Nat} {l : List Nat}
    {data : List UInt8} {buffer : Nat → UInt8} (mounted : Mounted volume) (chain : ChainFrom volume head l)
    (inside : i < l.length) (fits : offset + data.length ≤ volume.header.clusterSize)
    (holds : ∀ j < data.length, buffer j = data.getD j 0)
    (writes : DataWrite volume l[i] offset data.length buffer volume') :
    Written volume head l (i * volume.header.clusterSize + offset) data volume' l := by
  have room : i * volume.header.clusterSize + volume.header.clusterSize ≤
      l.length * volume.header.clusterSize := by
    rw [← Nat.succ_mul]
    exact Nat.mul_le_mul_right _ inside
  refine ⟨.of_data chain writes.same writes.fat writes.entry, by omega, fun k below => ?_⟩
  have inFile : k / volume.header.clusterSize < l.length :=
    (Nat.div_lt_iff_lt_mul mounted.clusterSize_pos).mpr (by omega)
  rw [chainByte_dataWrite mounted chain inside fits writes inFile]
  by_cases before : k < i * volume.header.clusterSize + offset
  · rw [if_neg (by omega), if_pos before]
  · rw [if_pos (by omega), if_neg before]
    exact holds _ (by omega)

/-- Two writes, one behind the other. -/
theorem Written.trans {a b c : FatVolume} {head start : Nat} {l m n : List Nat} {first second : List UInt8}
    (ab : Written a head l start first b m) (bc : Written b head m (start + first.length) second c n) :
    Written a head l start (first ++ second) c n := by
  have header := ab.grown.same.header
  have long := bc.long
  rw [header] at long
  refine ⟨ab.grown.trans bc.grown, by rw [List.length_append]; omega, fun k below => ?_⟩
  rw [List.length_append] at below
  rw [bc.bytes k (by omega)]
  by_cases inFirst : k < start + first.length
  · rw [if_pos inFirst, ab.bytes k inFirst]
    by_cases before : k < start
    · rw [if_pos before, if_pos before]
    · rw [if_neg before, if_neg before, List.getD_append _ _ _ _ (by omega)]
  · rw [if_neg inFirst, if_neg (by omega), List.getD_append_right _ _ _ _ (by omega)]
    congr 1
    omega

/-- A write to a chain that was lengthened before. -/
theorem Written.of_grown {a b c : FatVolume} {head start : Nat} {l m n : List Nat} {data : List UInt8}
    (mounted : Mounted a) (ab : Grown a head l b m)
    (byteAt : ∀ cluster offset, b.byteAt cluster offset = a.byteAt cluster offset)
    (inside : start ≤ l.length * a.header.clusterSize) (bc : Written b head m start data c n) :
    Written a head l start data c n := by
  have long := bc.long
  rw [ab.same.header] at long
  refine ⟨ab.trans bc.grown, long, fun k below => ?_⟩
  rw [bc.bytes k below]
  by_cases before : k < start
  · have inFile : k / a.header.clusterSize < l.length :=
      (Nat.div_lt_iff_lt_mul mounted.clusterSize_pos).mpr (by omega)
    rw [if_pos before, if_pos before, chainByte_isPrefix ab.same byteAt ab.isPrefix inFile]
  · rw [if_neg before, if_neg before]

/-- A write of nothing. -/
theorem Written.nil {volume : FatVolume} {head start : Nat} {l : List Nat} (chain : ChainFrom volume head l)
    (inside : start ≤ l.length * volume.header.clusterSize) : Written volume head l start [] volume l :=
  ⟨.of_data chain ⟨rfl, rfl, rfl⟩ (fun _ _ => rfl) fun _ _ => rfl, inside, fun _ below => (if_pos below).symm⟩

/-- The chain has a cluster behind cluster `i`, or the allocator appends one. -/
theorem nextCluster_spec {volume : FatVolume} {head i : Nat} {l : List Nat} (mounted : Mounted volume)
    (chain : ChainFrom volume head l) (inside : i < l.length)
    (room : i + 1 < l.length ∨ volume.freeClusters.Nonempty) :
    (∃ next : i + 1 < l.length, fat16GetFatEntry volume l[i] = l[i + 1]) ∨
    (0xFFF8 ≤ fat16GetFatEntry volume l[i] ∧ i + 1 = l.length ∧
      ∃ (new : Nat) (volume' : FatVolume), fat16AllocateCluster volume l[i] = ((new : Int), volume') ∧
        Grown volume head l volume' (l ++ [new]) ∧
        ∀ c offset, volume'.byteAt c offset = volume.byteAt c offset) := by
  have isCluster := chain.clusters _ (List.getElem_mem inside)
  rw [getFatEntry_eq mounted isCluster.2]
  by_cases next : i + 1 < l.length
  · exact .inl ⟨next, by rw [chain.chain.next_getElem next]⟩
  · have notEmpty : l ≠ [] := List.ne_nil_of_length_pos (by omega)
    have isLast : l[i] = l.getLast notEmpty := by
      rw [List.getLast_eq_getElem]
      congr 1
      omega
    have ends := chain.chain.stop_getLast notEmpty
    rw [← isLast] at ends
    obtain ⟨new, volume', result, allocated⟩ :=
      allocateCluster_behind mounted (room.resolve_left next) isCluster
    refine .inr ⟨by unfold IsEoc at ends; omega, by omega, new, volume', result, ?_, allocated.byteAt⟩
    have shape : l.dropLast ++ [l[i]] = l := by rw [isLast, List.dropLast_append_getLast]
    rw [← shape] at chain
    have grown := grown_of_behind chain allocated
    rw [shape] at grown
    rwa [show l.dropLast ++ [l[i], new] = (l.dropLast ++ [l[i]]) ++ [new] by simp, shape] at grown

/-- A turn of the loop that fills its cluster goes on in the next one, which is allocated at the end
of the chain. -/
theorem writeLoop_turn {σ : Type} [ByteStream σ] {fuel cluster offset written toWrite : Nat} {data : List UInt8}
    {volume stored : FatVolume σ} (more : data.drop toWrite ≠ [])
    (isMin : toWrite = min (volume.header.clusterSize - offset) data.length)
    (result : volume.write (volume.clusterPosition cluster + offset) toWrite
      (fun i => data.getD i 0) = (0, stored)) :
    writeLoop (fuel + 1) cluster offset written data volume =
      if 0xFFF8 ≤ fat16GetFatEntry stored cluster then
        if (fat16AllocateCluster stored cluster).1 < 0 then fat16AllocateCluster stored cluster
        else writeLoop fuel (fat16AllocateCluster stored cluster).1 0 (written + toWrite)
          (data.drop toWrite) (fat16AllocateCluster stored cluster).2
      else writeLoop fuel (fat16GetFatEntry stored cluster) 0 (written + toWrite)
        (data.drop toWrite) stored := by
  have notEmpty : data ≠ [] := by
    rintro rfl
    exact more List.drop_nil
  rw [writeLoop, if_neg notEmpty]
  simp only [← isMin, result, lt_irrefl, if_false, more]

/-- The loop of `fat16_write_internal`, from cluster `i` of a chain on. -/
theorem writeLoop_spec {head : Nat} (fuel : Nat) :
    ∀ {volume : FatVolume} {l : List Nat} {i offset written : Nat} {data : List UInt8}
      (_ : Mounted volume) (_ : ChainFrom volume head l) (inside : i < l.length),
      offset < volume.header.clusterSize → data.length ≤ fuel →
      i * volume.header.clusterSize + offset + data.length ≤
        (l.length + volume.freeClusters.card) * volume.header.clusterSize →
      ∃ volume' l', writeLoop fuel (l[i] : Nat) offset written data volume =
        (((written + data.length : Nat) : Int), volume') ∧
        Written volume head l (i * volume.header.clusterSize + offset) data volume' l' := by
  induction fuel with
  | zero =>
    intro volume l i offset written data mounted chain inside inCluster enough room
    obtain rfl := List.length_eq_zero_iff.mp (Nat.le_zero.mp enough)
    refine ⟨volume, l, rfl, .nil chain ?_⟩
    have := Nat.mul_le_mul_right volume.header.clusterSize (Nat.succ_le_of_lt inside)
    rw [Nat.succ_mul] at this
    omega
  | succ fuel ih =>
    intro volume l i offset written data mounted chain inside inCluster enough room
    have clusterFits := Nat.mul_le_mul_right volume.header.clusterSize (Nat.succ_le_of_lt inside)
    rw [Nat.succ_mul] at clusterFits
    by_cases empty : data = []
    · subst empty
      refine ⟨volume, l, ?_, .nil chain (by omega)⟩
      rw [writeLoop, if_pos rfl]
      rfl
    · have isCluster := chain.clusters _ (List.getElem_mem inside)
      have positive := List.length_pos_iff.mpr empty
      obtain ⟨toWrite, isMin⟩ : ∃ n, n = min (volume.header.clusterSize - offset) data.length := ⟨_, rfl⟩
      have split : data.take toWrite ++ data.drop toWrite = data := List.take_append_drop toWrite data
      have length : (data.take toWrite).length = toWrite := by
        rw [List.length_take]
        omega
      obtain ⟨stored, result, writes⟩ := @writeData_spec volume mounted l[i] offset toWrite isCluster
        (by omega) fun j => data.getD j 0
      have first : Written volume head l (i * volume.header.clusterSize + offset) (data.take toWrite)
          stored l := by
        refine .of_dataWrite mounted chain inside (by omega) (fun j below => ?_) (length ▸ writes)
        rw [List.getD_eq_getElem?_getD, List.getD_eq_getElem?_getD, List.getElem?_take_of_lt (by omega)]
      have storedMounted := writes.same.mounted mounted
      have header := writes.same.header
      have free := first.grown.free
      by_cases done : data.drop toWrite = []
      · have all : data.take toWrite = data := by rwa [done, List.append_nil] at split
        refine ⟨stored, l, ?_, all ▸ first⟩
        rw [writeLoop, if_neg empty]
        simp only [← isMin, result, lt_irrefl, if_false, done, if_true]
        rw [← length, all]
      · -- the cluster is full, and the data goes on in the next one
        have full : toWrite = volume.header.clusterSize - offset := by
          have left := List.length_pos_iff.mpr done
          rw [List.length_drop] at left
          omega
        have restLength : (data.drop toWrite).length = data.length - toWrite := List.length_drop
        have position : i * volume.header.clusterSize + offset + (data.take toWrite).length =
            (i + 1) * volume.header.clusterSize := by
          rw [length, Nat.succ_mul]
          omega
        have total : written + toWrite + (data.drop toWrite).length = written + data.length := by omega
        -- the room that is asked for lies in the rest of the chain or in a free cluster
        have more : i + 1 < l.length ∨ stored.freeClusters.Nonempty := by
          by_contra none
          obtain ⟨last, noFree⟩ := not_or.mp none
          rw [Finset.not_nonempty_iff_eq_empty, ← Finset.card_eq_zero] at noFree
          have length : l.length = i + 1 := by omega
          rw [show volume.freeClusters.card = 0 by omega, length, Nat.add_zero, Nat.succ_mul] at room
          have left := List.length_pos_iff.mpr done
          omega
        rw [writeLoop_turn done isMin result]
        rcases nextCluster_spec storedMounted first.grown.chain inside more with
          ⟨next, isNext⟩ | ⟨isEnd, isLast, new, longer, allocated, grown, byteAt⟩
        · have small := (chain.clusters _ (List.getElem_mem next)).lt mounted
          rw [isNext, if_neg (by omega)]
          obtain ⟨volume', l', result', rest⟩ := @ih stored l (i + 1) 0 (written + toWrite)
            (data.drop toWrite) storedMounted first.grown.chain next (by rw [header]; omega) (by omega) (by
              rw [header, show stored.freeClusters.card = volume.freeClusters.card by omega]
              omega)
          rw [header, Nat.add_zero, ← position] at rest
          refine ⟨volume', l', by rw [result', total], ?_⟩
          have both := first.trans rest
          rwa [split] at both
        · have atEnd : (l ++ [new])[i + 1]? = some new := by simp [isLast]
          have inLonger : i + 1 < (l ++ [new]).length := by simp; omega
          have isNew : (l ++ [new])[i + 1] = new :=
            Option.some.inj ((List.getElem?_eq_getElem inLonger).symm.trans atEnd)
          have longerFree := grown.free
          rw [List.length_append, List.length_singleton] at longerFree
          rw [allocated, if_pos isEnd, if_neg (by simp)]
          obtain ⟨volume', l', result', rest⟩ := @ih longer (l ++ [new]) (i + 1) 0 (written + toWrite)
            (data.drop toWrite) (grown.same.mounted storedMounted) grown.chain inLonger
            (by rw [grown.same.header, header]; omega) (by omega) (by
              rw [grown.same.header, header, List.length_append, List.length_singleton,
                show l.length + 1 + longer.freeClusters.card = l.length + volume.freeClusters.card by omega]
              omega)
          rw [isNew] at result'
          rw [grown.same.header, header, Nat.add_zero, ← position] at rest
          refine ⟨volume', l', by rw [result', total], ?_⟩
          have both := first.trans (rest.of_grown storedMounted grown byteAt (by
            rw [position, header, isLast]))
          rwa [split] at both

/-- The bytes of a chain are on the disk. -/
theorem ChainFrom.bytes_lt {volume : FatVolume} {head : Nat} {l : List Nat} (mounted : Mounted volume)
    (chain : ChainFrom volume head l) : l.length * volume.header.clusterSize < 2 ^ 31 := by
  have inRange : l.toFinset ⊆ Finset.Ico 2 volume.header.clusterEnd := by
    intro cluster member
    exact Finset.mem_Ico.mpr (chain.clusters cluster (List.mem_toFinset.mp member))
  have card := Finset.card_le_card inRange
  rw [List.toFinset_card_of_nodup chain.nodup, Nat.card_Ico] at card
  have sectors : (volume.header.clusterEnd - 2) * volume.header.sectorsPerCluster ≤
      volume.header.totalSectors :=
    Nat.le_trans (Nat.div_mul_le_self _ _) (Nat.sub_le _ _)
  calc l.length * volume.header.clusterSize
      ≤ (volume.header.clusterEnd - 2) * volume.header.clusterSize := Nat.mul_le_mul_right _ card
    _ = (volume.header.clusterEnd - 2) * volume.header.sectorsPerCluster * viosSectorSize :=
      (Nat.mul_assoc _ _ _).symm
    _ ≤ volume.header.totalSectors * viosSectorSize := Nat.mul_le_mul_right _ sectors
    _ ≤ volume.store.size := mounted.consistent.onDisk
    _ < 2 ^ 31 := mounted.consistent.small

theorem asInt_eq {value : Nat} (small : value < 2 ^ 31) : asInt value = value := if_pos small

theorem getClusterForOffset_eq {volume : FatVolume} {head : Nat} {l : List Nat} (mounted : Mounted volume)
    (chain : ChainFrom volume head l) (notEmpty : 0 < l.length) (offset : Nat) :
    fat16GetClusterForOffset volume head offset =
      clusterWalk volume (offset / volume.header.clusterSize) l[0] := by
  have small := (chain.clusters _ (List.getElem_mem notEmpty)).lt mounted
  rw [chain.getElem_zero notEmpty] at small ⊢
  rw [fat16GetClusterForOffset, toUInt16_eq (by omega), Int.toNat_natCast]

/-- `fat16_write_internal`: nothing is written, or everything. -/
theorem writeInternal_spec {volume : FatVolume} {head pos : Nat} {l : List Nat} (mounted : Mounted volume)
    (chain : ChainFrom volume head l) (notEmpty : 0 < l.length) (data : List UInt8)
    (inside : pos ≤ l.length * volume.header.clusterSize)
    (room : pos + data.length ≤ (l.length + volume.freeClusters.card) * volume.header.clusterSize) :
    (∃ res < 0, fat16WriteInternal volume head pos data = (res, volume) ∧
      clusterWalk volume (pos / volume.header.clusterSize) l[0] = res) ∨
    ∃ volume' l', fat16WriteInternal volume head pos data = ((data.length : Int), volume') ∧
      Written volume head l pos data volume' l' := by
  have small := chain.bytes_lt mounted
  unfold fat16WriteInternal
  rw [asInt_eq (by omega), getClusterForOffset_eq mounted chain notEmpty]
  rcases clusterWalk_spec mounted chain (pos / volume.header.clusterSize) notEmpty with
    failed | ⟨reached, result⟩
  · exact .inl ⟨_, failed, if_pos failed, rfl⟩
  · have place := Nat.div_add_mod' pos volume.header.clusterSize
    rw [Nat.zero_add] at reached
    simp only [Nat.zero_add] at result
    rw [result]
    simp only [show ¬ ((l[pos / volume.header.clusterSize] : Nat) : Int) < 0 by omega, if_false]
    obtain ⟨volume', l', loop, written⟩ := @writeLoop_spec head data.length volume l
      (pos / volume.header.clusterSize) (pos % volume.header.clusterSize) 0 data mounted chain reached
      (Nat.mod_lt _ mounted.clusterSize_pos) (Nat.le_refl _) (by rw [place]; exact room)
    rw [place] at written
    refine .inr ⟨volume', l', ?_, written⟩
    rw [loop, Nat.zero_add]

end ViOS.Fs
