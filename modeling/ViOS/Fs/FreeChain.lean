import ViOS.Fs.Fat16Layout
import Mathlib.Data.Finset.Card
import Mathlib.Order.Interval.Finset.Nat

/-! # `fat16_free_cluster_chain`

The chain may be any walk through the table, with cycles and links that lead behind it.  The loop
zeroes an entry before it follows the link that was there; nothing but zeroes is written, so an
entry that is zero stays zero, and a cluster that is met again ends the loop.  The number of
entries that are not zero falls in every turn but the last.

* `FreesChain` — the loop, with the clusters it visits and without a bound on its turns.
* `OnlyZeroes` — a volume behind writes of zeroes.
* `usedEntries` — the measure.
* `freeClusterChain_frees` — the loop ends, and the entries of the visited clusters are free.
-/

namespace ViOS.Fs

/-! ## The loop -/

/-- The turns of the loop of `fat16_free_cluster_chain` from a cluster on, the clusters it visits, and how it ends. -/
inductive FreesChain : FatVolume → (currentCluster res : Int) → (visited : List Int) → Int × FatVolume → Prop
  | stops {volume : FatVolume} {currentCluster res : Int} : ¬ (2 ≤ currentCluster ∧ currentCluster < 0xFFF8) →
    FreesChain volume currentCluster res [] (res, volume)
  | readFails {volume : FatVolume} {currentCluster res : Int} : 2 ≤ currentCluster ∧ currentCluster < 0xFFF8 →
    fat16GetFatEntry volume currentCluster < 0 →
    FreesChain volume currentCluster res [currentCluster] (fat16GetFatEntry volume currentCluster, volume)
  | writeFails {volume : FatVolume} {currentCluster res : Int} : 2 ≤ currentCluster ∧ currentCluster < 0xFFF8 →
    0 ≤ fat16GetFatEntry volume currentCluster → (fat16SetFatEntry volume currentCluster fat16Unused).1 < 0 →
    FreesChain volume currentCluster res [currentCluster] (fat16SetFatEntry volume currentCluster fat16Unused)
  | next {volume : FatVolume} {currentCluster res : Int} {visited : List Int} {result : Int × FatVolume} :
    2 ≤ currentCluster ∧ currentCluster < 0xFFF8 → 0 ≤ fat16GetFatEntry volume currentCluster →
    0 ≤ (fat16SetFatEntry volume currentCluster fat16Unused).1 →
    FreesChain (fat16SetFatEntry volume currentCluster fat16Unused).2 (fat16GetFatEntry volume currentCluster)
      (fat16SetFatEntry volume currentCluster fat16Unused).1 visited result →
    FreesChain volume currentCluster res (currentCluster :: visited) result

/-- All copies of the entries that a cluster number can lead to are on the disk, so that each access succeeds. -/
def EntriesOnDisk (volume : FatVolume) : Prop :=
  ∀ cluster : Nat, 2 ≤ cluster → cluster < 0xFFF8 → ∀ i, i < volume.header.fatCopies ∨ i = 0 →
    volume.tablePos + cluster * fat16FatEntrySize + i * volume.header.sectorsPerFat * viosSectorSize +
      fat16FatEntrySize ≤ volume.store.size

/-! ## Writes of zeroes -/

/-- Nothing but zeroes was written. -/
structure OnlyZeroes (volume volume' : FatVolume) : Prop where
  same : SameVolume volume volume'
  zero : ∀ p, volume.store.bytes p = 0 → volume'.store.bytes p = 0

section Zeroes

variable {volume volume' : FatVolume}

theorem OnlyZeroes.refl (volume : FatVolume) : OnlyZeroes volume volume := ⟨⟨rfl, rfl, rfl⟩, fun _ zero => zero⟩

theorem OnlyZeroes.trans {volume'' : FatVolume} (first : OnlyZeroes volume volume') (second : OnlyZeroes volume' volume'') :
    OnlyZeroes volume volume'' :=
  ⟨first.same.trans second.same, fun p zero => second.zero p (first.zero p zero)⟩

theorem byteOf_unused (i : Nat) : byteOf fat16Unused i = 0 := by
  rw [byteOf, fat16Unused, Nat.zero_div]
  rfl

/-- A write of zeroes fails and changes nothing, or puts zeroes at its place. -/
theorem write_unused (volume : FatVolume) (pos : Int) (total : Nat) :
    OnlyZeroes volume (volume.write pos total (byteOf fat16Unused)).2 ∧
      (0 ≤ (volume.write pos total (byteOf fat16Unused)).1 →
        (volume.write pos total (byteOf fat16Unused)).1 = 0 ∧ 0 ≤ pos ∧ pos + total ≤ volume.store.size ∧
        ∀ i < total, (volume.write pos total (byteOf fat16Unused)).2.store.bytes (pos.toNat + i) = 0) := by
  rw [FatVolume.write_store, ByteStore.write]
  split
  next failed =>
    refine ⟨.refl volume, fun succeeds => ?_⟩
    exact absurd succeeds (show ¬ (0 : Int) ≤ -eio by decide)
  next store written =>
    split at written
    next inside =>
      cases written
      refine ⟨⟨⟨rfl, rfl, rfl⟩, fun p zero => ?_⟩, fun _ => ⟨rfl, inside.1, inside.2, fun i below => ?_⟩⟩
      · dsimp only
        split
        · exact byteOf_unused _
        · exact zero
      · dsimp only
        rw [if_pos ⟨Nat.le_add_right _ _, Nat.add_lt_add_left below _⟩]
        exact byteOf_unused _
    next => cases written

theorem setFatCopies_unused (pos : Int) (rest i : Nat) (res : Int) (volume : FatVolume) :
    OnlyZeroes volume (setFatCopies pos fat16Unused rest i res volume).2 := by
  induction rest generalizing i res volume with
  | zero => exact .refl volume
  | succ rest ih =>
    have here := (write_unused volume (pos + i * volume.header.sectorsPerFat * viosSectorSize) fat16FatEntrySize).1
    rw [setFatCopies]
    dsimp only
    split
    · exact here
    · exact here.trans (ih _ _ _)

theorem setFatEntry_unused (volume : FatVolume) (cluster : Int) :
    OnlyZeroes volume (fat16SetFatEntry volume cluster fat16Unused).2 := by
  have here := (write_unused volume (volume.fatEntryPosition cluster) fat16FatEntrySize).1
  unfold fat16SetFatEntry
  dsimp only
  split
  · exact here
  · exact here.trans (setFatCopies_unused _ _ _ _ _)

/-- An entry is free when its two bytes are on the disk and zero. -/
theorem getFatEntry_free_iff (volume : FatVolume) (cluster : Int) :
    fat16GetFatEntry volume cluster = fat16Unused ↔
      (0 ≤ volume.fatEntryPosition cluster ∧ volume.fatEntryPosition cluster + fat16FatEntrySize ≤ volume.store.size) ∧
        ∀ i < fat16FatEntrySize, volume.store.bytes ((volume.fatEntryPosition cluster).toNat + i) = 0 := by
  unfold fat16GetFatEntry
  rw [ByteStore.read_stream, ByteStore.read]
  split
  next failed =>
    refine iff_of_false (by decide) fun free => ?_
    rw [if_pos free.1] at failed
    cases failed
  next buffer found =>
    split at found
    next inside =>
      cases found
      rw [littleEndian_two, and_iff_right inside]
      generalize (volume.fatEntryPosition cluster).toNat = pos
      change (((volume.store.bytes (pos + 0)).toNat + 256 * (volume.store.bytes (pos + 1)).toNat : Nat) : Int) = _ ↔ _
      have zero : ∀ c : UInt8, c = 0 ↔ c.toNat = 0 := fun c => by rw [← UInt8.toNat_inj]; rfl
      constructor
      · intro free i below
        rw [zero]
        obtain rfl | rfl : i = 0 ∨ i = 1 := by unfold fat16FatEntrySize at below; omega
        · unfold fat16Unused at free
          omega
        · unfold fat16Unused at free
          omega
      · intro free
        have first := (zero _).mp (free 0 (by decide))
        have second := (zero _).mp (free 1 (by decide))
        unfold fat16Unused
        omega
    next => cases found

theorem SameVolume.fatEntryPosition (same : SameVolume volume volume') (cluster : Int) :
    volume'.fatEntryPosition cluster = volume.fatEntryPosition cluster := by
  unfold FatVolume.fatEntryPosition
  rw [same.header]

theorem OnlyZeroes.free (zeroes : OnlyZeroes volume volume') {cluster : Int}
    (free : fat16GetFatEntry volume cluster = fat16Unused) : fat16GetFatEntry volume' cluster = fat16Unused := by
  rw [getFatEntry_free_iff] at free ⊢
  rw [zeroes.same.fatEntryPosition, zeroes.same.size]
  exact ⟨free.1, fun i below => zeroes.zero _ (free.2 i below)⟩

/-- An entry that was freed reads as free. -/
theorem setFatEntry_frees {cluster : Int} (succeeds : 0 ≤ (fat16SetFatEntry volume cluster fat16Unused).1) :
    fat16GetFatEntry (fat16SetFatEntry volume cluster fat16Unused).2 cluster = fat16Unused := by
  obtain ⟨here, written⟩ := write_unused volume (volume.fatEntryPosition cluster) fat16FatEntrySize
  have first : 0 ≤ (volume.write (volume.fatEntryPosition cluster) fat16FatEntrySize (byteOf fat16Unused)).1 := by
    unfold fat16SetFatEntry at succeeds
    dsimp only at succeeds
    split at succeeds
    · exact succeeds
    · exact Int.not_lt.mp ‹_›
  obtain ⟨-, lower, upper, zero⟩ := written first
  have free : fat16GetFatEntry
      (volume.write (volume.fatEntryPosition cluster) fat16FatEntrySize (byteOf fat16Unused)).2 cluster = fat16Unused := by
    rw [getFatEntry_free_iff, here.same.fatEntryPosition, here.same.size]
    exact ⟨⟨lower, upper⟩, zero⟩
  unfold fat16SetFatEntry
  dsimp only
  rw [if_neg (Int.not_lt.mpr first)]
  exact (setFatCopies_unused _ _ _ _ _).free free

end Zeroes

/-! ## The measure -/

/-- The clusters whose entry is not free. -/
def usedEntries (volume : FatVolume) : Finset Nat :=
  (Finset.Ico 2 0xFFF8).filter fun cluster => fat16GetFatEntry volume cluster ≠ fat16Unused

section Measure

variable {volume volume' : FatVolume}

theorem usedEntries_subset (zeroes : OnlyZeroes volume volume') : usedEntries volume' ⊆ usedEntries volume := by
  intro cluster member
  rw [usedEntries, Finset.mem_filter] at member ⊢
  exact ⟨member.1, fun free => member.2 (zeroes.free free)⟩

theorem usedEntries_card_lt {cluster : Int} (isCluster : 2 ≤ cluster ∧ cluster < 0xFFF8)
    (used : fat16GetFatEntry volume cluster ≠ fat16Unused)
    (succeeds : 0 ≤ (fat16SetFatEntry volume cluster fat16Unused).1) :
    (usedEntries (fat16SetFatEntry volume cluster fat16Unused).2).card < (usedEntries volume).card := by
  obtain ⟨cluster, rfl⟩ := Int.eq_ofNat_of_zero_le (show 0 ≤ cluster by omega)
  refine Finset.card_lt_card (Finset.ssubset_iff_of_subset (usedEntries_subset (setFatEntry_unused volume cluster)) |>.mpr
    ⟨cluster, ?_, ?_⟩)
  · rw [usedEntries, Finset.mem_filter, Finset.mem_Ico]
    exact ⟨by omega, used⟩
  · rw [usedEntries, Finset.mem_filter, not_and_not_right]
    exact fun _ => setFatEntry_frees succeeds

theorem usedEntries_card_le (volume : FatVolume) : (usedEntries volume).card ≤ 65526 :=
  (Finset.card_filter_le _ _).trans (Nat.le_of_eq (Nat.card_Ico 2 0xFFF8))

/-- The loop ends in one turn for each entry that is not free, and two more. -/
theorem freeChainLoop_ends {fuel : Nat} (enough : (usedEntries volume).card + 2 ≤ fuel) (currentCluster res : Int) :
    ∃ visited, FreesChain volume currentCluster res visited (freeChainLoop fuel currentCluster res volume) := by
  induction fuel generalizing volume currentCluster res with
  | zero => omega
  | succ fuel ih =>
    rw [freeChainLoop]
    by_cases isCluster : 2 ≤ currentCluster ∧ currentCluster < 0xFFF8
    · rw [if_pos isCluster]
      dsimp only
      by_cases unread : fat16GetFatEntry volume currentCluster < 0
      · rw [if_pos unread]
        exact ⟨_, .readFails isCluster unread⟩
      · have read := Int.not_lt.mp unread
        rw [if_neg unread]
        by_cases unwritten : (fat16SetFatEntry volume currentCluster fat16Unused).1 < 0
        · rw [if_pos unwritten]
          exact ⟨_, .writeFails isCluster read unwritten⟩
        · have written := Int.not_lt.mp unwritten
          rw [if_neg unwritten]
          by_cases free : fat16GetFatEntry volume currentCluster = fat16Unused
          · -- the cluster was freed before, and its link is zero
            obtain ⟨fuel, rfl⟩ : ∃ rest, fuel = rest + 1 := ⟨fuel - 1, by omega⟩
            have ends : ¬ (2 ≤ fat16GetFatEntry volume currentCluster ∧
                fat16GetFatEntry volume currentCluster < 0xFFF8) := by
              rw [free]
              decide
            refine ⟨[currentCluster], .next isCluster read written ?_⟩
            rw [freeChainLoop, if_neg ends]
            exact .stops ends
          · have less := usedEntries_card_lt isCluster free written
            have enough' : (usedEntries (fat16SetFatEntry volume currentCluster fat16Unused).2).card + 2 ≤ fuel := by omega
            obtain ⟨visited, chain⟩ := ih enough' (fat16GetFatEntry volume currentCluster)
              (fat16SetFatEntry volume currentCluster fat16Unused).1
            exact ⟨_, .next isCluster read written chain⟩
    · rw [if_neg isCluster]
      exact ⟨_, .stops isCluster⟩

end Measure

/-! ## The visited clusters -/

section Visited

variable {volume : FatVolume} {currentCluster res : Int} {visited : List Int} {result : Int × FatVolume}

theorem FreesChain.onlyZeroes (chain : FreesChain volume currentCluster res visited result) :
    OnlyZeroes volume result.2 := by
  induction chain with
  | stops => exact .refl _
  | readFails => exact .refl _
  | writeFails => exact setFatEntry_unused _ _
  | next _ _ _ _ ih => exact (setFatEntry_unused _ _).trans ih

/-- When no access fails, each entry that was visited is free. -/
theorem FreesChain.frees (chain : FreesChain volume currentCluster res visited result) (succeeds : 0 ≤ result.1) :
    ∀ cluster ∈ visited, fat16GetFatEntry result.2 cluster = fat16Unused := by
  induction chain with
  | stops => exact List.forall_mem_nil _
  | readFails _ fails => exact absurd fails (Int.not_lt.mpr succeeds)
  | writeFails _ _ fails => exact absurd fails (Int.not_lt.mpr succeeds)
  | next _ _ written chain ih =>
    exact List.forall_mem_cons.mpr ⟨chain.onlyZeroes.free (setFatEntry_frees written), ih succeeds⟩

theorem EntriesOnDisk.keep {volume' : FatVolume} (onDisk : EntriesOnDisk volume) (same : SameVolume volume volume') :
    EntriesOnDisk volume' := by
  unfold EntriesOnDisk at *
  rw [same.header, same.size, same.tablePos]
  exact onDisk

theorem setFatCopies_succeeds {pos rest i : Nat} (res : Int)
    (onDisk : ∀ copy < i + rest, pos + copy * volume.header.sectorsPerFat * viosSectorSize + fat16FatEntrySize ≤
      volume.store.size) (before : res = 0) : (setFatCopies pos fat16Unused rest i res volume).1 = 0 := by
  induction rest generalizing i res volume with
  | zero => exact before
  | succ rest ih =>
    have room := onDisk i (by omega)
    obtain ⟨volume', ran, written⟩ := write_spec room (byteOf fat16Unused)
    rw [setFatCopies]
    push_cast at ran
    dsimp only
    rw [ran]
    dsimp only
    rw [if_neg (by decide)]
    refine ih 0 (fun copy below => ?_) rfl
    rw [written.same.header, written.same.size]
    exact onDisk copy (by omega)

theorem EntriesOnDisk.access (onDisk : EntriesOnDisk volume) (isCluster : 2 ≤ currentCluster ∧ currentCluster < 0xFFF8) :
    0 ≤ fat16GetFatEntry volume currentCluster ∧ (fat16SetFatEntry volume currentCluster fat16Unused).1 = 0 := by
  obtain ⟨cluster, rfl⟩ := Int.eq_ofNat_of_zero_le (show 0 ≤ currentCluster by omega)
  have copies := onDisk cluster (by omega) (by omega)
  have first := copies 0 (.inr rfl)
  rw [Nat.zero_mul, Nat.zero_mul, Nat.add_zero] at first
  refine ⟨?_, ?_⟩
  · rw [getFatEntry_onDisk first]
    exact Int.natCast_nonneg _
  · obtain ⟨volume', ran, written⟩ := write_spec first (byteOf fat16Unused)
    unfold fat16SetFatEntry
    dsimp only
    rw [fatEntryPosition_eq, ran]
    dsimp only
    rw [if_neg (by decide)]
    refine setFatCopies_succeeds 0 (fun copy below => ?_) rfl
    rw [written.same.header] at below ⊢
    rw [written.same.size]
    exact copies copy (by omega)

/-- Nothing fails on such a disk. -/
theorem FreesChain.succeeds (chain : FreesChain volume currentCluster res visited result) (onDisk : EntriesOnDisk volume)
    (before : res = 0) : result.1 = 0 := by
  induction chain with
  | stops => exact before
  | readFails isCluster fails => exact absurd fails (Int.not_lt.mpr (onDisk.access isCluster).1)
  | writeFails isCluster _ fails => exact absurd fails (by rw [(onDisk.access isCluster).2]; decide)
  | next isCluster _ _ _ ih => exact ih (onDisk.keep (setFatEntry_unused _ _).same) (onDisk.access isCluster).2

end Visited

/-- The loop ends from any cluster, within the turns of `fat16_free_cluster_chain`; accesses to entries on the disk
succeed, and when all accesses do, the entries of the visited clusters are free. -/
theorem freeClusterChain_frees (volume : FatVolume) (startingCluster : Int) :
    ∃ visited, FreesChain volume startingCluster 0 visited (fat16FreeClusterChain volume startingCluster) ∧
      (EntriesOnDisk volume → (fat16FreeClusterChain volume startingCluster).1 = 0) ∧
      (0 ≤ (fat16FreeClusterChain volume startingCluster).1 → ∀ cluster ∈ visited,
        fat16GetFatEntry (fat16FreeClusterChain volume startingCluster).2 cluster = fat16Unused) := by
  have ends : ∃ visited, FreesChain volume startingCluster 0 visited
      (fat16FreeClusterChain volume startingCluster) := by
    unfold fat16FreeClusterChain
    split
    next nothing => exact ⟨[], .stops (by omega)⟩
    next =>
      have entries := usedEntries_card_le volume
      exact freeChainLoop_ends (show (usedEntries volume).card + 2 ≤ 2 ^ 16 by omega) startingCluster 0
  obtain ⟨visited, chain⟩ := ends
  exact ⟨visited, chain, fun onDisk => chain.succeeds onDisk rfl, chain.frees⟩

end ViOS.Fs
