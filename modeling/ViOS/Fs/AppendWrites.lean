import ViOS.Fs.Fat16Chains
import ViOS.Lib.Simulation

/-! # Writing at the end of a file

What one `fat16_write` does to a file whose descriptor stands at its end, and what a series
of them leaves.  The lookup of the position decides: it starts at the first cluster again on
every call, stops at the numbers the driver refuses, and finds nothing where the contents end
with their last cluster.  The disk is the exact store: what `streamer.c` adds to a write is not
part of this.

* `clusterWalk_reaches_iff` — the lookups that succeed.
* `Lengthened`, `FatVolume.laterClusters` — the clusters a file gets, counted from the free ones.
* `FileAt`, `WrittenAt` — the file of an entry, and the state of a descriptor that writes it.
* `writeFileItem_resumes`, `writeFileItem_stuck` — one call.
* `writeAll_iff`, `writeAll_stuck` — a series of calls.
-/

namespace ViOS.Fs

open ViOS.Lib

/-! ## Lookups on a chain -/

/-- A walk along a chain reaches its goal if the chain is long enough and the walk enters no cluster
whose number the driver refuses. -/
theorem clusterWalk_reaches_iff {volume : FatVolume} (mounted : Mounted volume) {head : Nat} {l : List Nat}
    (chain : ChainFrom volume head l) (steps : Nat) :
    ∀ {i : Nat} (inside : i < l.length),
      0 ≤ clusterWalk volume steps l[i] ↔
        i + steps < l.length ∧ ∀ n, i < n → n ≤ i + steps → ∀ c, l[n]? = some c → Walkable c := by
  induction steps with
  | zero =>
    intro i inside
    have found : 0 ≤ clusterWalk volume 0 l[i] := Int.natCast_nonneg _
    exact ⟨fun _ => ⟨inside, fun n after before => absurd after (by omega)⟩, fun _ => found⟩
  | succ steps ih =>
    intro i inside
    rw [clusterWalk_succ mounted (chain.clusters _ (List.getElem_mem inside)) (fat_lt _ _)]
    by_cases next : i + 1 < l.length
    · have isNext := chain.chain.next_getElem next
      have isCluster := chain.clusters _ (List.getElem_mem next)
      have small := isCluster.lt mounted
      have lower := isCluster.1
      rw [isNext, if_neg (by omega)]
      by_cases walkable : Walkable l[i + 1]
      · have accepted : ¬ (l[i + 1] = fat16BadSector ∨ (0xFFF0 ≤ l[i + 1] ∧ l[i + 1] ≤ 0xFFF6) ∨
            l[i + 1] = 0) := by
          have ⟨notBad, notReserved⟩ := walkable
          omega
        rw [if_neg accepted, ih next]
        constructor
        · intro ⟨reached, later⟩
          refine ⟨by omega, fun n after before c isNth => ?_⟩
          -- the first cluster behind the start is the one just entered
          by_cases first : n = i + 1
          · subst first
            rw [List.getElem?_eq_getElem next] at isNth
            exact Option.some.inj isNth ▸ walkable
          · exact later n (by omega) (by omega) c isNth
        · intro ⟨reached, all⟩
          exact ⟨by omega, fun n after before => all n (by omega) (by omega)⟩
      · have refused : l[i + 1] = fat16BadSector ∨ (0xFFF0 ≤ l[i + 1] ∧ l[i + 1] ≤ 0xFFF6) ∨
            l[i + 1] = 0 := by
          simp only [Walkable] at walkable
          omega
        rw [if_pos refused]
        constructor
        · intro found
          exact absurd found (by simp [eio])
        · intro ⟨_, all⟩
          exact absurd (all (i + 1) (by omega) (by omega) _ (List.getElem?_eq_getElem next)) walkable
    · -- the entry of the last cluster ends the chain
      have notEmpty : l ≠ [] := List.ne_nil_of_length_pos (by omega)
      have isLast : l[i] = l.getLast notEmpty := by
        rw [List.getLast_eq_getElem]
        congr 1
        omega
      have ends := chain.chain.stop_getLast notEmpty
      rw [← isLast] at ends
      rw [if_pos (show 0xFFF8 ≤ volume.fat l[i] from ends)]
      constructor
      · intro found
        exact absurd found (by simp [eoutofrange])
      · intro ⟨reached, _⟩
        omega

/-- The clusters behind the first one, by their place. -/
theorem mem_tail_iff {l : List Nat} {c : Nat} : c ∈ l.tail ↔ ∃ n, 0 < n ∧ l[n]? = some c := by
  cases l with
  | nil => simp
  | cons first rest =>
    simp only [List.tail_cons, List.mem_iff_getElem?]
    constructor
    · intro ⟨n, isNth⟩
      exact ⟨n + 1, Nat.succ_pos n, by simpa using isNth⟩
    · intro ⟨n, positive, isNth⟩
      cases n with
      | zero => exact absurd positive (Nat.lt_irrefl 0)
      | succ n => exact ⟨n, by simpa using isNth⟩

/-- The lookup of a position of a chain, in its last cluster or at its end. -/
theorem lookup_reaches_iff {volume : FatVolume} (mounted : Mounted volume) {head : Nat} {l : List Nat}
    (chain : ChainFrom volume head l) (notEmpty : 0 < l.length) {pos : Nat}
    (atEnd : l.length ≤ pos / volume.header.clusterSize + 1) :
    (0 : Int) ≤ clusterWalk volume (pos / volume.header.clusterSize) l[0] ↔
      pos / volume.header.clusterSize < l.length ∧ ∀ c ∈ l.tail, Walkable c := by
  rw [clusterWalk_reaches_iff mounted chain _ notEmpty, Nat.zero_add]
  constructor
  · intro ⟨reached, all⟩
    refine ⟨reached, fun c member => ?_⟩
    obtain ⟨n, positive, isNth⟩ := mem_tail_iff.mp member
    have inside := (List.getElem?_eq_some_iff.mp isNth).1
    exact all n positive (by omega) c isNth
  · intro ⟨reached, all⟩
    exact ⟨reached, fun n positive _ c isNth => all c (mem_tail_iff.mpr ⟨n, positive, isNth⟩)⟩

/-! ## The lowest free clusters -/

/-- The members of a set below a number. -/
def belowIn (s : Finset Nat) (c : Nat) : Finset Nat := s.filter fun other => other < c

/-- A part of a set that holds no number above one it leaves out consists of the lowest numbers. -/
theorem mem_lowest_iff {s part : Finset Nat} (inside : part ⊆ s)
    (lowest : ∀ c ∈ part, ∀ other ∈ s, other ∉ part → c ≤ other) {c : Nat} (member : c ∈ s) :
    c ∈ part ↔ (belowIn s c).card < part.card := by
  constructor
  · intro inPart
    have below : belowIn s c ⊆ part.erase c := by
      intro other isBelow
      obtain ⟨inSet, less⟩ := Finset.mem_filter.mp isBelow
      apply Finset.mem_erase.mpr
      refine ⟨by omega, ?_⟩
      by_contra outside
      have order := lowest c inPart other inSet outside
      omega
    have card := Finset.card_le_card below
    have positive := Finset.card_pos.mpr ⟨c, inPart⟩
    rw [Finset.card_erase_of_mem inPart] at card
    omega
  · intro few
    by_contra outside
    have all : part ⊆ belowIn s c := by
      intro other inPart
      have order := lowest other inPart c member outside
      have different : other ≠ c := fun same => outside (same ▸ inPart)
      exact Finset.mem_filter.mpr ⟨inside inPart, by omega⟩
    have card := Finset.card_le_card all
    omega

/-- The clusters that are in use, and not in the list, keep their bytes. -/
def KeepsUsed (volume : FatVolume) (l : List Nat) (volume' : FatVolume) : Prop :=
  ∀ c, volume.IsCluster c → c ∉ l → volume.fat c ≠ 0 →
    ∀ offset < volume.header.clusterSize, volume'.byteAt c offset = volume.byteAt c offset

/-- A chain got the lowest free clusters, the least one first if it was empty. -/
structure Lengthened (volume : FatVolume) (l : List Nat) (volume' : FatVolume) (l' : List Nat) : Prop where
  same : SameVolume volume volume'
  isPrefix : l <+: l'
  fat : ∀ c < volume.header.clusterEnd, c ∉ l' → volume'.fat c = volume.fat c
  fresh : ∀ c ∈ l', c ∉ l → c ∈ volume.freeClusters
  lowest : ∀ c ∈ l', c ∉ l → ∀ other ∈ volume.freeClusters, other ∉ l' → c ≤ other
  least : l = [] → l' ≠ [] → ∀ other ∈ volume.freeClusters, l'.headD 0 ≤ other
  free : volume'.freeClusters.card + l'.length = volume.freeClusters.card + l.length
  bytes : KeepsUsed volume l volume'

namespace Lengthened

variable {a b c : FatVolume} {l m n : List Nat}

/-- The table did not change. -/
theorem of_table (same : SameVolume a b) (fat : ∀ cluster < a.header.clusterEnd, b.fat cluster = a.fat cluster)
    (byteAt : ∀ c offset, b.byteAt c offset = a.byteAt c offset) : Lengthened a l b l where
  same := same
  isPrefix := List.prefix_refl l
  fat := fun cluster inTable _ => fat cluster inTable
  fresh := fun _ member notMember => absurd member notMember
  lowest := fun _ member notMember => absurd member notMember
  least := fun empty notEmpty => absurd empty notEmpty
  free := by
    have sets : b.freeClusters = a.freeClusters :=
      Finset.ext fun cluster => freeClusters_congr same (fat cluster)
    rw [sets]
  bytes := fun c _ _ _ offset _ => byteAt c offset

/-- A chain that is not empty. -/
theorem of_grown {head : Nat} (grown : Grown a head l b m) (notEmpty : l ≠ []) (bytes : KeepsUsed a l b) :
    Lengthened a l b m where
  same := grown.same
  isPrefix := grown.isPrefix
  fat := grown.fat
  fresh := grown.fresh
  lowest := grown.lowest
  least := fun empty => absurd empty notEmpty
  free := grown.free
  bytes := bytes

/-- The first cluster of a file. -/
theorem of_first {new : Nat} (allocated : Allocated a none new b) : Lengthened a [] b [new] where
  same := allocated.same
  isPrefix := List.nil_prefix
  fat := by
    intro k inTable outside
    have different : ¬ k = new := fun same => outside (List.mem_singleton.mpr same)
    rw [allocated.fat k inTable, if_neg different]
    simp
  fresh := fun k member _ => List.mem_singleton.mp member ▸ allocated.free
  lowest := fun k member _ other isFree _ => List.mem_singleton.mp member ▸ allocated.least other isFree
  least := fun _ _ other isFree => allocated.least other isFree
  free := by
    have sets := allocated.freeClusters fun _ isPrevious => absurd isPrevious (by simp)
    have positive := Finset.card_pos.mpr ⟨new, allocated.free⟩
    rw [sets, Finset.card_erase_of_mem allocated.free]
    simp only [List.length_singleton, List.length_nil]
    omega
  bytes := fun c _ _ _ offset _ => allocated.byteAt c offset

/-- A cluster that is in use is not taken. -/
theorem not_taken (ab : Lengthened a l b m) {cluster : Nat} (outside : cluster ∉ l)
    (used : a.fat cluster ≠ 0) : cluster ∉ m :=
  fun member => used (mem_freeClusters.mp (ab.fresh cluster member outside)).2.2

theorem trans (ab : Lengthened a l b m) (bc : Lengthened b m c n) : Lengthened a l c n := by
  have notEarlier : ∀ {cluster}, cluster ∉ n → cluster ∉ m :=
    fun outside member => outside (bc.isPrefix.subset member)
  have stillFree : ∀ {cluster}, cluster ∉ m → (cluster ∈ b.freeClusters ↔ cluster ∈ a.freeClusters) :=
    fun outside => freeClusters_congr ab.same fun inTable => ab.fat _ inTable outside
  refine ⟨ab.same.trans bc.same, ab.isPrefix.trans bc.isPrefix, ?_, ?_, ?_, ?_, ?_, ?_⟩
  case refine_1 =>
    intro cluster inTable outside
    rw [bc.fat cluster (by rw [ab.same.header]; exact inTable) outside,
      ab.fat cluster inTable (notEarlier outside)]
  case refine_2 =>
    intro cluster member notMember
    by_cases earlier : cluster ∈ m
    · exact ab.fresh cluster earlier notMember
    · exact (stillFree earlier).mp (bc.fresh cluster member earlier)
  case refine_3 =>
    intro cluster member notMember other isFree outside
    by_cases earlier : cluster ∈ m
    · exact ab.lowest cluster earlier notMember other isFree (notEarlier outside)
    · exact bc.lowest cluster member earlier other ((stillFree (notEarlier outside)).mpr isFree) outside
  case refine_4 =>
    intro empty notEmpty other isFree
    cases m with
    | nil =>
      -- nothing was taken before
      exact bc.least rfl notEmpty other ((stillFree List.not_mem_nil).mpr isFree)
    | cons first rest =>
      obtain ⟨more, rfl⟩ := bc.isPrefix
      exact ab.least empty (List.cons_ne_nil _ _) other isFree
  case refine_5 =>
    have first := ab.free
    have second := bc.free
    omega
  case refine_6 =>
    intro cluster isCluster outside used offset inCluster
    have notTaken := ab.not_taken outside used
    have stillUsed : b.fat cluster ≠ 0 := by
      rw [ab.fat cluster isCluster.2 notTaken]
      exact used
    have header := ab.same.header
    rw [bc.bytes cluster (by simpa only [FatVolume.IsCluster, header] using isCluster) notTaken stillUsed offset
      (by rw [header]; exact inCluster), ab.bytes cluster isCluster outside used offset inCluster]

end Lengthened

/-- The clusters behind the first one of a chain that is lengthened from `l` to `count` clusters: a
free cluster gets the place behind `l` that its rank among the free ones gives it. -/
def FatVolume.laterClusters (volume : FatVolume) (l : List Nat) (count : Nat) : Finset Nat :=
  l.tail.toFinset ∪ volume.freeClusters.filter fun c =>
    0 < l.length + (belowIn volume.freeClusters c).card ∧
      l.length + (belowIn volume.freeClusters c).card < count

theorem mem_laterClusters {volume : FatVolume} {l : List Nat} {count c : Nat} :
    c ∈ volume.laterClusters l count ↔ c ∈ l.tail ∨ c ∈ volume.freeClusters ∧
      0 < l.length + (belowIn volume.freeClusters c).card ∧
      l.length + (belowIn volume.freeClusters c).card < count := by
  simp only [FatVolume.laterClusters, Finset.mem_union, List.mem_toFinset, Finset.mem_filter]

theorem laterClusters_mono {volume : FatVolume} {l : List Nat} {count more : Nat} (le : count ≤ more) :
    volume.laterClusters l count ⊆ volume.laterClusters l more := by
  intro c member
  rw [mem_laterClusters] at member ⊢
  exact member.imp_right fun ⟨isFree, first, below⟩ => ⟨isFree, first, by omega⟩

/-- The later clusters of a chain, from what was free before. -/
theorem Lengthened.mem_tail_iff {volume volume' : FatVolume} {head head' : Nat} {l l' : List Nat}
    (before : ChainFrom volume head l) (lengthened : Lengthened volume l volume' l')
    (after : ChainFrom volume' head' l') {c : Nat} :
    c ∈ l'.tail ↔ c ∈ volume.laterClusters l l'.length := by
  obtain ⟨new, rfl⟩ := lengthened.isPrefix
  have nodup := after.nodup
  obtain ⟨-, newNodup, apart⟩ := List.nodup_append.mp nodup
  have notOld : ∀ c ∈ new, c ∉ l := fun c isNew isOld => apart c isOld c isNew rfl
  have inside : new.toFinset ⊆ volume.freeClusters := fun c isNew =>
    lengthened.fresh c (List.mem_append_right l (List.mem_toFinset.mp isNew)) (notOld c (List.mem_toFinset.mp isNew))
  have lowest : ∀ c ∈ new.toFinset, ∀ other ∈ volume.freeClusters, other ∉ new.toFinset → c ≤ other := by
    intro c isNew other isFree notNew
    rw [List.mem_toFinset] at isNew notNew
    apply lengthened.lowest c (List.mem_append_right l isNew) (notOld c isNew) other isFree
    intro member
    exact (List.mem_append.mp member).elim (before.not_mem_of_free isFree) notNew
  have rank : c ∈ volume.freeClusters → (c ∈ new ↔ (belowIn volume.freeClusters c).card < new.length) := by
    intro isFree
    rw [← List.mem_toFinset, mem_lowest_iff inside lowest isFree, List.toFinset_card_of_nodup newNodup]
  rw [mem_laterClusters, List.length_append]
  cases l with
  | nil =>
    simp only [List.nil_append, List.tail_nil, List.not_mem_nil, false_or, List.length_nil, Nat.zero_add]
    cases new with
    | nil => simp
    | cons first rest =>
      have firstFree : first ∈ volume.freeClusters := inside (by simp)
      have leastFirst := lengthened.least rfl (List.cons_ne_nil _ _)
      simp only [List.nil_append, List.headD_cons] at leastFirst
      -- only the least free cluster has no free cluster below it
      have positive : c ∈ volume.freeClusters → (0 < (belowIn volume.freeClusters c).card ↔ c ≠ first) := by
        intro isFree
        rw [Finset.card_pos]
        constructor
        · intro ⟨other, isBelow⟩ same
          obtain ⟨otherFree, less⟩ := Finset.mem_filter.mp isBelow
          have order := leastFirst other otherFree
          omega
        · intro different
          have order := leastFirst c isFree
          exact ⟨first, Finset.mem_filter.mpr ⟨firstFree, by omega⟩⟩
      have firstNotLater := (List.nodup_cons.mp newNodup).1
      simp only [List.tail_cons]
      constructor
      · intro later
        have isFree : c ∈ volume.freeClusters := inside (by simp [later])
        have different : c ≠ first := fun same => firstNotLater (same ▸ later)
        exact ⟨isFree, (positive isFree).mpr different, (rank isFree).mp (List.mem_cons_of_mem _ later)⟩
      · intro ⟨isFree, above, few⟩
        have member := (rank isFree).mpr few
        exact (List.mem_cons.mp member).resolve_left ((positive isFree).mp above)
  | cons first rest =>
    simp only [List.cons_append, List.tail_cons, List.mem_append, List.length_cons]
    apply or_congr_right
    constructor
    · intro isNew
      have isFree : c ∈ volume.freeClusters := inside (List.mem_toFinset.mpr isNew)
      have few := (rank isFree).mp isNew
      exact ⟨isFree, by omega, by omega⟩
    · intro ⟨isFree, _, few⟩
      exact (rank isFree).mpr (by omega)

/-! ## The file of an entry -/

/-- The clusters that a number of bytes takes. -/
def FatHeader.clustersFor (header : FatHeader) (bytes : Nat) : Nat :=
  (bytes + header.clusterSize - 1) / header.clusterSize

/-- The clusters of an entry hold the contents, and no cluster is left over. -/
structure FileAt (volume : FatVolume) (item : FatDirectoryItem) (l : List Nat) (contents : List UInt8) :
    Prop where
  chain : ChainFrom volume (fat16GetFirstCluster item) l
  length : l.length = volume.header.clustersFor contents.length
  filesize : item.filesize.toNat = contents.length
  bytes : ∀ k < contents.length, volume.chainByte l k = contents.getD k 0

section Sizes

variable {header : FatHeader} (positive : 0 < header.clusterSize)

include positive

theorem clustersFor_zero : header.clustersFor 0 = 0 := by
  simp only [FatHeader.clustersFor, Nat.zero_add]
  exact Nat.div_eq_of_lt (by omega)

theorem clustersFor_eq {bytes : Nat} (some : 0 < bytes) :
    header.clustersFor bytes = (bytes - 1) / header.clusterSize + 1 := by
  simp only [FatHeader.clustersFor]
  rw [show bytes + header.clusterSize - 1 = bytes - 1 + header.clusterSize by omega,
    Nat.add_div_right _ positive]

theorem le_clustersFor (bytes : Nat) : bytes ≤ header.clustersFor bytes * header.clusterSize := by
  by_cases none : bytes = 0
  · omega
  · rw [clustersFor_eq positive (by omega)]
    have inside := Nat.lt_mul_div_succ (bytes - 1) positive
    rw [Nat.mul_comm] at inside
    omega

/-- The least number of clusters with room for the bytes. -/
theorem eq_clustersFor {bytes count : Nat} (some : 0 < bytes) (room : bytes ≤ count * header.clusterSize)
    (tight : count ≤ (bytes - 1) / header.clusterSize + 1) : count = header.clustersFor bytes := by
  rw [clustersFor_eq positive some]
  have below : (bytes - 1) / header.clusterSize < count :=
    (Nat.div_lt_iff_lt_mul positive).mpr (by omega)
  omega

theorem clustersFor_mono {bytes more : Nat} (le : bytes ≤ more) :
    header.clustersFor bytes ≤ header.clustersFor more := by
  simp only [FatHeader.clustersFor]
  exact Nat.div_le_div_right (by omega)

/-- The position at the end of the bytes lies in their last cluster, unless they fill it. -/
theorem end_in_last_iff {bytes : Nat} (some : 0 < bytes) :
    bytes / header.clusterSize < header.clustersFor bytes ↔ bytes % header.clusterSize ≠ 0 := by
  rw [clustersFor_eq positive some]
  have here := Nat.div_add_mod bytes header.clusterSize
  have before := Nat.div_add_mod (bytes - 1) header.clusterSize
  have small := Nat.mod_lt bytes positive
  have smallBefore := Nat.mod_lt (bytes - 1) positive
  constructor
  · intro inside full
    have order : bytes / header.clusterSize ≤ (bytes - 1) / header.clusterSize := by omega
    have product := Nat.mul_le_mul_left header.clusterSize order
    omega
  · intro left
    apply Nat.lt_succ_of_le
    apply (Nat.le_div_iff_mul_le positive).mpr
    rw [Nat.mul_comm]
    omega

end Sizes

/-- A file that is not empty has a first cluster. -/
theorem FileAt.first_ne_zero {volume : FatVolume} {item : FatDirectoryItem} {l : List Nat}
    {contents : List UInt8} (positive : 0 < volume.header.clusterSize) (file : FileAt volume item l contents)
    (some : contents.length ≠ 0) : fat16GetFirstCluster item ≠ 0 := by
  intro zero
  have chain := file.chain
  rw [zero] at chain
  have length := file.length
  rw [chain.eq_nil, clustersFor_eq positive (by omega)] at length
  exact absurd length (Nat.succ_ne_zero _).symm

/-! ## One write -/

section Loop

/-- What the loop takes, and what it leaves alone. -/
structure LoopFrame (volume : FatVolume) (l : List Nat) (turns : Nat) (volume' : FatVolume) : Prop where
  free : volume.freeClusters.card ≤ volume'.freeClusters.card + turns
  bytes : KeepsUsed volume l volume'

theorem LoopFrame.refl (volume : FatVolume) (l : List Nat) (turns : Nat) : LoopFrame volume l turns volume :=
  ⟨Nat.le_add_right _ _, fun _ _ _ _ _ _ => rfl⟩

/-- The bytes of another cluster are not written. -/
theorem DataWrite.keepsUsed {volume stored : FatVolume} {cluster offset total : Nat} {buffer : Nat → UInt8}
    {l : List Nat} (writes : DataWrite volume cluster offset total buffer stored) (member : cluster ∈ l) :
    KeepsUsed volume l stored := by
  intro c isCluster outside _ o inCluster
  have different : c ≠ cluster := fun same => outside (same ▸ member)
  rw [writes.byteAt c o isCluster inCluster, if_neg fun both => different both.1]

/-- The loop takes a free cluster for each cluster it enters behind the first one, at most, and writes to
no cluster that was in use by another file. -/
theorem writeLoop_frame {head : Nat} (fuel : Nat) :
    ∀ {volume : FatVolume} {l : List Nat} {i offset written : Nat} {data : List UInt8}
      (_ : Mounted volume) (_ : ChainFrom volume head l) (inside : i < l.length),
      offset < volume.header.clusterSize → data.length ≤ fuel →
      i * volume.header.clusterSize + offset + data.length ≤
        (l.length + volume.freeClusters.card) * volume.header.clusterSize →
      LoopFrame volume l ((offset + data.length - 1) / volume.header.clusterSize)
        (writeLoop fuel (l[i] : Nat) offset written data volume).2 := by
  induction fuel with
  | zero =>
    intro volume l i offset written data _ _ _ _ _ _
    rw [writeLoop]
    exact .refl volume l _
  | succ fuel ih =>
    intro volume l i offset written data mounted chain inside inCluster enough room
    by_cases empty : data = []
    · rw [writeLoop, if_pos empty]
      exact .refl volume l _
    · have isCluster := chain.clusters _ (List.getElem_mem inside)
      obtain ⟨toWrite, isMin⟩ : ∃ n, n = min (volume.header.clusterSize - offset) data.length := ⟨_, rfl⟩
      obtain ⟨stored, result, writes⟩ := @writeData_spec volume mounted l[i] offset toWrite isCluster
        (by omega) fun j => data.getD j 0
      have same : Grown volume head l stored l := .of_data chain writes.same writes.fat writes.entry
      have storedMounted := writes.same.mounted mounted
      have header := writes.same.header
      have free : stored.freeClusters.card = volume.freeClusters.card := by
        have kept := same.free
        omega
      have bytes := writes.keepsUsed (List.getElem_mem inside)
      by_cases done : data.drop toWrite = []
      · rw [writeLoop, if_neg empty]
        simp only [← isMin, result, lt_irrefl, if_false, done, if_true]
        exact ⟨by rw [free]; exact Nat.le_add_right _ _, bytes⟩
      · -- the rest of the data goes to the next cluster, and there is one turn less to count
        have left := List.length_pos_iff.mpr done
        have restLength : (data.drop toWrite).length = data.length - toWrite := List.length_drop
        have turns : (offset + data.length - 1) / volume.header.clusterSize =
            (0 + (data.drop toWrite).length - 1) / volume.header.clusterSize + 1 := by
          rw [show offset + data.length - 1 =
            0 + (data.drop toWrite).length - 1 + volume.header.clusterSize by omega,
            Nat.add_div_right _ mounted.clusterSize_pos]
        have next : (i + 1) * volume.header.clusterSize =
            i * volume.header.clusterSize + volume.header.clusterSize := Nat.succ_mul _ _
        have more : i + 1 < l.length ∨ stored.freeClusters.Nonempty := by
          by_contra none
          obtain ⟨last, noFree⟩ := not_or.mp none
          rw [Finset.not_nonempty_iff_eq_empty, ← Finset.card_eq_zero] at noFree
          have length : l.length = i + 1 := by omega
          rw [show volume.freeClusters.card = 0 by omega, length, Nat.add_zero] at room
          omega
        rw [writeLoop_turn done isMin result]
        rcases nextCluster_spec storedMounted same.chain inside more with
          ⟨inLonger, isNext⟩ | ⟨isEnd, isLast, new, longer, allocated, grown, byteAt⟩
        · have small := (chain.clusters _ (List.getElem_mem inLonger)).lt mounted
          have rest := @ih stored l (i + 1) 0 (written + toWrite) (data.drop toWrite) storedMounted same.chain
            inLonger (by rw [header]; omega) (by omega) (by rw [header, free]; omega)
          rw [isNext, if_neg (by omega)]
          refine ⟨?_, fun c inVolume outside used o inCluster => ?_⟩
          · have taken := rest.free
            rw [header] at taken
            omega
          · have stored_c := writes.fat c inVolume.2
            rw [rest.bytes c (by simpa only [FatVolume.IsCluster, header] using inVolume) outside
              (by rw [stored_c]; exact used) o (by rw [header]; exact inCluster),
              bytes c inVolume outside used o inCluster]
        · have inLonger : i + 1 < (l ++ [new]).length := by simp; omega
          have isNew : (l ++ [new])[i + 1] = new := by
            rw [List.getElem_append_right (by omega)]
            simp
          have taken := grown.free
          rw [List.length_append, List.length_singleton] at taken
          have rest := @ih longer (l ++ [new]) (i + 1) 0 (written + toWrite) (data.drop toWrite)
            (grown.same.mounted storedMounted) grown.chain inLonger
            (by rw [grown.same.header, header]; omega) (by omega) (by
              rw [grown.same.header, header, List.length_append, List.length_singleton,
                show l.length + 1 + longer.freeClusters.card = l.length + volume.freeClusters.card by omega]
              omega)
          rw [isNew] at rest
          rw [allocated, if_pos isEnd, if_neg (by simp)]
          refine ⟨?_, fun c inVolume outside used o inCluster => ?_⟩
          · have takenLater := rest.free
            rw [grown.same.header, header] at takenLater
            simp only at takenLater ⊢
            omega
          · have stored_c := writes.fat c inVolume.2
            have notNew : c ∉ l ++ [new] := by
              intro member
              have isFree := grown.fresh c member outside
              exact used (stored_c.symm.trans (mem_freeClusters.mp isFree).2.2)
            have longer_c := grown.fat c (by rw [header]; exact inVolume.2) notNew
            rw [rest.bytes c (by simpa only [FatVolume.IsCluster, grown.same.header, header] using inVolume)
              notNew (by rw [longer_c, stored_c]; exact used) o
              (by rw [grown.same.header, header]; exact inCluster), byteAt, bytes c inVolume outside used o inCluster]

/-- A write that begins in the last cluster of a chain lengthens it as little as it can. -/
theorem writeInternal_exact {volume : FatVolume} {head pos : Nat} {l : List Nat} (mounted : Mounted volume)
    (chain : ChainFrom volume head l) (atLast : pos / volume.header.clusterSize + 1 = l.length)
    (walkable : ∀ c ∈ l.tail, Walkable c) {data : List UInt8} (notEmpty : data ≠ [])
    (room : pos + data.length ≤ (l.length + volume.freeClusters.card) * volume.header.clusterSize) :
    ∃ volume' l', fat16WriteInternal volume head pos data = ((data.length : Int), volume') ∧
      Written volume head l pos data volume' l' ∧
      l'.length = volume.header.clustersFor (pos + data.length) ∧ KeepsUsed volume l volume' := by
  have positive := mounted.clusterSize_pos
  have inside : 0 < l.length := Nat.lt_of_lt_of_le (Nat.succ_pos _) atLast.le
  have some := List.length_pos_iff.mpr notEmpty
  have place := Nat.div_add_mod' pos volume.header.clusterSize
  have offset := Nat.mod_lt pos positive
  have long : pos ≤ l.length * volume.header.clusterSize := by
    rw [← atLast, Nat.succ_mul]
    omega
  have found := (lookup_reaches_iff mounted chain inside atLast.ge).mpr
    ⟨Nat.lt_of_succ_le atLast.le, walkable⟩
  cases writeInternal_spec mounted chain inside data long room with
  | inl failed =>
    obtain ⟨res, negative, -, walk⟩ := failed
    rw [walk] at found
    omega
  | inr done =>
    obtain ⟨volume', l', result, written⟩ := done
    have reached : pos / volume.header.clusterSize < l.length := by omega
    have small := chain.bytes_lt mounted
    have frame := @writeLoop_frame head data.length volume l (pos / volume.header.clusterSize)
      (pos % volume.header.clusterSize) 0 data mounted chain reached offset (Nat.le_refl _)
      (by rw [place]; exact room)
    -- the loop is the one `writeInternal_spec` speaks of
    have isLoop : (writeLoop data.length (l[pos / volume.header.clusterSize] : Nat)
        (pos % volume.header.clusterSize) 0 data volume).2 = volume' := by
      have walk := clusterWalk_eq mounted chain walkable (pos / volume.header.clusterSize) inside (by omega)
      rw [fat16WriteInternal, asInt_eq (by omega), getClusterForOffset_eq mounted chain inside, walk] at result
      simp only [Nat.zero_add, show ¬ ((l[pos / volume.header.clusterSize] : Nat) : Int) < 0 by omega,
        if_false] at result
      rw [result]
    rw [isLoop] at frame
    refine ⟨volume', l', result, written, ?_, frame.bytes⟩
    have taken := frame.free
    have free := written.grown.free
    have room' := written.long
    have quotient : (pos + data.length - 1) / volume.header.clusterSize =
        (pos % volume.header.clusterSize + data.length - 1) / volume.header.clusterSize +
          pos / volume.header.clusterSize := by
      rw [← Nat.add_mul_div_right _ _ positive]
      congr 1
      omega
    apply eq_clustersFor positive (by omega) room'
    omega

end Loop

/-- The entry with another size. -/
def FatDirectoryItem.withFilesize (item : FatDirectoryItem) (size : Nat) : FatDirectoryItem :=
  { item with filesize := .ofNat size }

/-- The item of an entry of the root directory. -/
def FatVolume.slotItem (volume : FatVolume) (slot : Nat) (item : FatDirectoryItem) : FatItem :=
  ⟨.file item, (entryLocation volume.rootDirectory slot).1, (entryLocation volume.rootDirectory slot).2⟩

/-- The data stands behind the contents of the file, whose entry is on the disk. -/
structure Appended (volume : FatVolume) (slot : Nat) (l : List Nat) (contents : List UInt8)
    (volume' : FatVolume) (item' : FatDirectoryItem) (l' : List Nat) : Prop where
  lengthened : Lengthened volume l volume' l'
  file : FileAt volume' item' l' contents
  entry : ∀ s < volume.header.rootDirEntries,
    volume'.entry s = if s = slot then item' else volume.entry s

/-- The position of a file with exact clusters can be looked up again. -/
def Resumes (volume : FatVolume) (l : List Nat) (length : Nat) : Prop :=
  length = 0 ∨ length % volume.header.clusterSize ≠ 0 ∧ ∀ c ∈ l.tail, Walkable c

section Call

variable {volume : FatVolume} {slot : Nat} {item : FatDirectoryItem} {l : List Nat} {contents data : List UInt8}

/-- `fat16_extend_file` stores the entry with its new size. -/
theorem extendFile_spec (mounted : Mounted volume) (inRoot : slot < volume.header.rootDirEntries)
    {newSize : Nat} (larger : item.filesize.toNat < newSize) :
    ∃ volume', fat16ExtendFile volume (volume.slotItem slot item) item newSize =
        (item.withFilesize newSize, volume') ∧ EntryWrite volume slot (item.withFilesize newSize) volume' := by
  obtain ⟨volume', result, writes⟩ := writeEntry_spec mounted inRoot (item.withFilesize newSize)
  refine ⟨volume', ?_, writes⟩
  have position := entryLocation_pos mounted slot
  rw [fat16ExtendFile, if_neg (by omega)]
  simp only [FatVolume.slotItem, ← Nat.cast_mul, ← Nat.cast_add, position]
  exact congrArg (Prod.mk _) (congrArg Prod.snd result)

/-- Clusters of the volume that are different from each other have less than 2^31 bytes. -/
theorem Mounted.clusters_bytes_lt (mounted : Mounted volume) {s : Finset Nat}
    (clusters : ∀ c ∈ s, volume.IsCluster c) : s.card * volume.header.clusterSize < 2 ^ 31 := by
  have inRange : s ⊆ Finset.Ico 2 volume.header.clusterEnd :=
    fun c member => Finset.mem_Ico.mpr (clusters c member)
  have card := Finset.card_le_card inRange
  rw [Nat.card_Ico] at card
  have sectors : (volume.header.clusterEnd - 2) * volume.header.sectorsPerCluster ≤
      volume.header.totalSectors :=
    Nat.le_trans (Nat.div_mul_le_self _ _) (Nat.sub_le _ _)
  calc s.card * volume.header.clusterSize
      ≤ (volume.header.clusterEnd - 2) * volume.header.clusterSize := Nat.mul_le_mul_right _ card
    _ = (volume.header.clusterEnd - 2) * volume.header.sectorsPerCluster * viosSectorSize :=
      (Nat.mul_assoc _ _ _).symm
    _ ≤ volume.header.totalSectors * viosSectorSize := Nat.mul_le_mul_right _ sectors
    _ ≤ volume.store.size := mounted.consistent.onDisk
    _ < 2 ^ 31 := mounted.consistent.small

/-- What a chain and the free clusters can hold. -/
theorem ChainFrom.room_lt {head : Nat} (mounted : Mounted volume) (chain : ChainFrom volume head l) :
    (l.length + volume.freeClusters.card) * volume.header.clusterSize < 2 ^ 31 := by
  have apart : Disjoint l.toFinset volume.freeClusters := by
    rw [Finset.disjoint_left]
    exact fun c inChain isFree => chain.not_mem_of_free isFree (List.mem_toFinset.mp inChain)
  have all := mounted.clusters_bytes_lt (s := l.toFinset ∪ volume.freeClusters) (by
    intro c member
    cases Finset.mem_union.mp member with
    | inl inChain => exact chain.clusters c (List.mem_toFinset.mp inChain)
    | inr isFree => exact (mem_freeClusters.mp isFree).1)
  rwa [Finset.card_union_of_disjoint apart, List.toFinset_card_of_nodup chain.nodup] at all

theorem bytesAt_all (data : List UInt8) : bytesAt data data.length = data := by
  simp [bytesAt]

/-- A request for all of the data. -/
theorem requestBytes_all {size nmemb : Nat} (product : size * nmemb = data.length)
    (small : data.length < 2 ^ 31) : bytesAt data (asInt (size * nmemb % 2 ^ 32)).toNat = data := by
  rw [product, Nat.mod_eq_of_lt (by omega), asInt_eq small, Int.toNat_natCast, bytesAt_all]

/-- The data goes behind the contents of a chain, and the entry gets its new size. -/
theorem writeChain_appends (mounted : Mounted volume) (inRoot : slot < volume.header.rootDirEntries)
    (chain : ChainFrom volume (fat16GetFirstCluster item) l) (filesize : item.filesize.toNat = contents.length)
    (bytes : ∀ k < contents.length, volume.chainByte l k = contents.getD k 0)
    (atLast : contents.length / volume.header.clusterSize + 1 = l.length)
    (walkable : ∀ c ∈ l.tail, Walkable c) (notEmpty : data ≠ [])
    (room : contents.length + data.length ≤
      (l.length + volume.freeClusters.card) * volume.header.clusterSize) :
    ∃ stored volume' l',
      fat16WriteInternal volume (asInt (fat16GetFirstCluster item)) contents.length data =
        ((data.length : Int), stored) ∧
      fat16ExtendFile stored (volume.slotItem slot item) item (contents.length + data.length) =
        (item.withFilesize (contents.length + data.length), volume') ∧
      Appended volume slot l (contents ++ data) volume'
        (item.withFilesize (contents.length + data.length)) l' := by
  have some := List.length_pos_iff.mpr notEmpty
  have inside : l ≠ [] := List.ne_nil_of_length_pos (Nat.lt_of_lt_of_le (Nat.succ_pos _) atLast.le)
  have chainPos := List.length_pos_iff.mpr inside
  have isFirst := chain.getElem_zero chainPos
  have small := (chain.clusters _ (List.getElem_mem chainPos)).lt mounted
  have roomSmall := chain.room_lt mounted
  obtain ⟨stored, l', result, written, isExact, bytesKept⟩ :=
    writeInternal_exact mounted chain atLast walkable notEmpty room
  have grown := written.grown
  have storedMounted := grown.same.mounted mounted
  obtain ⟨volume', extended, entryWrite⟩ := @extendFile_spec stored slot item storedMounted
    (by rw [grown.same.header]; exact inRoot) (contents.length + data.length) (by omega)
  have sameItem : stored.slotItem slot item = volume.slotItem slot item := by
    simp only [FatVolume.slotItem, grown.same.rootDirectory]
  rw [sameItem] at extended
  have positive := mounted.clusterSize_pos
  have sizeSmall := grown.chain.bytes_lt storedMounted
  have long := written.long
  rw [grown.same.header] at sizeSmall
  refine ⟨stored, volume', l', by rw [asInt_eq (by omega)]; exact result, extended, ?_, ?_, ?_⟩
  case refine_1 =>
    exact (Lengthened.of_grown grown inside bytesKept).trans
      (.of_table entryWrite.same entryWrite.fat entryWrite.byteAt)
  case refine_2 =>
    refine ⟨grown.chain.congr entryWrite.same ?_, ?_, ?_, fun k below => ?_⟩
    · exact fun c member => entryWrite.fat c (grown.chain.clusters c member).2
    · rw [entryWrite.same.header, grown.same.header, List.length_append, isExact]
    · simp only [FatDirectoryItem.withFilesize, UInt32.toNat_ofNat', List.length_append]
      omega
    · rw [List.length_append] at below
      have inFile : k / stored.header.clusterSize < l'.length := by
        rw [grown.same.header]
        exact (Nat.div_lt_iff_lt_mul positive).mpr (by omega)
      rw [chainByte_isPrefix entryWrite.same entryWrite.byteAt (List.prefix_refl l') inFile,
        written.bytes k below]
      by_cases old : k < contents.length
      · rw [if_pos old, bytes k old, List.getD_append _ _ _ _ old]
      · rw [if_neg old, List.getD_append_right _ _ _ _ (by omega)]
  case refine_3 =>
    intro s inRange
    rw [entryWrite.entry s (by rw [grown.same.header]; exact inRange), grown.entry s inRange]

/-- The result of a write whose loop stored everything. -/
theorem writeFileItem_stored {started stored volume' : FatVolume} {entry item' : FatDirectoryItem} {pos size nmemb : Nat}
    (start : writeStart volume item = (fat16GetFirstCluster entry, entry, started))
    (internal : fat16WriteInternal started (asInt (fat16GetFirstCluster entry)) pos data =
      ((data.length : Int), stored))
    (extended : fat16ExtendFile stored (volume.slotItem slot entry) entry (pos + data.length) = (item', volume'))
    (sizePos : 0 < size) (product : size * nmemb = data.length) (small : pos + data.length < 2 ^ 31) :
    writeFileItem volume ⟨volume.slotItem slot item, pos⟩ item data size nmemb =
      ((nmemb : Int), ⟨volume.slotItem slot item', pos + data.length⟩, volume') := by
  let descriptor : FatFileDescriptor := ⟨volume.slotItem slot item, pos⟩
  have asked : fat16WriteInternal started (asInt (fat16GetFirstCluster entry)) descriptor.pos
      (bytesAt data (asInt (size * nmemb % 2 ^ 32)).toNat) = ((data.length : Int), stored) := by
    rw [requestBytes_all product (by omega)]
    exact internal
  have result := writeFileItem_eq start asked
  have notNegative : ¬ (data.length : Int) < 0 := by omega
  have quotient : (data.length : Int) / (size : Int) = nmemb := by
    rw [← Int.natCast_ediv, ← product, Nat.mul_div_cancel_left _ sizePos]
  have position : (pos + data.length) % 2 ^ 32 = pos + data.length := Nat.mod_eq_of_lt (by omega)
  have isItem : { descriptor.item with data := .file entry } = volume.slotItem slot entry := rfl
  rw [if_neg notNegative, if_pos sizePos, quotient, Int.toNat_natCast, isItem] at result
  change writeFileItem volume descriptor item data size nmemb = (_, ⟨{ volume.slotItem slot entry with
    data := .file (fat16ExtendFile stored (volume.slotItem slot entry) entry ((pos + data.length) % 2 ^ 32)).1 },
    (pos + data.length) % 2 ^ 32⟩, (fat16ExtendFile stored (volume.slotItem slot entry) entry
      ((pos + data.length) % 2 ^ 32)).2) at result
  rw [position, extended] at result
  exact result

/-- `fat16_write` at the end of a file whose position can be looked up. -/
theorem writeFileItem_resumes (mounted : Mounted volume) (inRoot : slot < volume.header.rootDirEntries)
    (file : FileAt volume item l contents) {size nmemb : Nat} (sizePos : 0 < size)
    (product : size * nmemb = data.length) (notEmpty : data ≠ [])
    (room : contents.length + data.length ≤ (l.length + volume.freeClusters.card) * volume.header.clusterSize)
    (resumes : Resumes volume l contents.length) :
    ∃ item' volume' l', writeFileItem volume ⟨volume.slotItem slot item, contents.length⟩ item data size nmemb =
        ((nmemb : Int), ⟨volume.slotItem slot item', (contents ++ data).length⟩, volume') ∧
      Appended volume slot l (contents ++ data) volume' item' l' ∧ item'.attr = item.attr := by
  have positive := mounted.clusterSize_pos
  have some := List.length_pos_iff.mpr notEmpty
  have roomSmall := file.chain.room_lt mounted
  rw [List.length_append]
  by_cases empty : contents.length = 0
  · -- an empty file gets its first cluster
    have noClusters : l = [] := by
      apply List.length_eq_zero_iff.mp
      rw [file.length, empty, clustersFor_zero positive]
    subst noClusters
    have zero : fat16GetFirstCluster item = 0 := file.chain.head.symm
    have free : volume.freeClusters.Nonempty := by
      by_contra none
      rw [Finset.not_nonempty_iff_eq_empty] at none
      rw [none, Finset.card_empty, List.length_nil, Nat.zero_mul] at room
      omega
    obtain ⟨new, started, allocated, isFirst⟩ := allocateCluster_first mounted free
    have lengthened := Lengthened.of_first isFirst
    have isCluster := (mem_freeClusters.mp isFirst.free).1
    have newSmall := isCluster.lt mounted
    have entryFirst : fat16GetFirstCluster (item.withFirstCluster new) = new :=
      firstCluster_withFirstCluster (by omega)
    have start : writeStart volume item = (fat16GetFirstCluster (item.withFirstCluster new),
        item.withFirstCluster new, started) := by
      have word : ((new : Int) % 2 ^ 32).toNat = new := by omega
      simp only [writeStart, zero, if_true, allocated, word, entryFirst]
    have chain : ChainFrom started (fat16GetFirstCluster (item.withFirstCluster new)) [new] := by
      refine ⟨entryFirst.symm, ?_, List.nodup_singleton new, fun c member => ?_⟩
      · have ends : started.fat new = 0xFFFF := by
          rw [isFirst.fat new isCluster.2]
          simp
        rw [Chain, ends]
        simp [IsEoc]
      · rw [List.mem_singleton.mp member, FatVolume.IsCluster, isFirst.same.header]
        exact isCluster
    have count := lengthened.free
    rw [List.length_singleton, List.length_nil] at count
    obtain ⟨stored, volume', l', internal, extended, appended⟩ := @writeChain_appends started slot
      (item.withFirstCluster new) [new] contents data (isFirst.same.mounted mounted)
      (by rw [isFirst.same.header]; exact inRoot) chain file.filesize
      (fun k below => absurd below (by omega))
      (by rw [empty, Nat.zero_div, List.length_singleton]) (by simp) notEmpty (by
        rw [isFirst.same.header, List.length_singleton, Nat.add_comm 1, count]
        simpa only [List.length_nil, Nat.zero_add, Nat.add_zero] using room)
    have sameItem : started.slotItem slot (item.withFirstCluster new) =
        volume.slotItem slot (item.withFirstCluster new) := by
      simp only [FatVolume.slotItem, isFirst.same.rootDirectory]
    rw [sameItem] at extended
    refine ⟨_, volume', l', writeFileItem_stored start internal extended sizePos product (by omega),
      ⟨lengthened.trans appended.lengthened, appended.file, fun s inRange => ?_⟩, rfl⟩
    rw [appended.entry s (by rw [isFirst.same.header]; exact inRange), isFirst.entry s inRange]
  · obtain ⟨left, walkable⟩ := resumes.resolve_left empty
    have inLast := (end_in_last_iff positive (by omega)).mpr left
    have notZero := file.first_ne_zero positive empty
    have start : writeStart volume item = (fat16GetFirstCluster item, item, volume) := by
      simp only [writeStart, notZero, if_false]
    have tight : contents.length / volume.header.clusterSize + 1 = l.length := by
      rw [file.length]
      apply Nat.le_antisymm inLast
      rw [clustersFor_eq positive (by omega)]
      exact Nat.succ_le_succ (Nat.div_le_div_right (by omega))
    obtain ⟨stored, volume', l', internal, extended, appended⟩ := @writeChain_appends volume slot item l
      contents data mounted inRoot file.chain file.filesize file.bytes tight walkable notEmpty room
    exact ⟨_, volume', l', writeFileItem_stored start internal extended sizePos product (by omega), appended, rfl⟩

/-- `fat16_write` where the position cannot be looked up: nothing changes. -/
theorem writeFileItem_stuck (mounted : Mounted volume) (file : FileAt volume item l contents) {size nmemb : Nat}
    (product : size * nmemb = data.length)
    (room : contents.length + data.length ≤ (l.length + volume.freeClusters.card) * volume.header.clusterSize)
    (stuck : ¬ Resumes volume l contents.length) :
    ∃ res < 0, writeFileItem volume ⟨volume.slotItem slot item, contents.length⟩ item data size nmemb =
      (res, ⟨volume.slotItem slot item, contents.length⟩, volume) := by
  have positive := mounted.clusterSize_pos
  have roomSmall := file.chain.room_lt mounted
  obtain ⟨some, fails⟩ := not_or.mp stuck
  have notZero := file.first_ne_zero positive some
  have start : writeStart volume item = (fat16GetFirstCluster item, item, volume) := by
    simp only [writeStart, notZero, if_false]
  have inside := file.chain.length_pos notZero
  have isFirst := file.chain.getElem_zero inside
  have small := (file.chain.clusters _ (List.getElem_mem inside)).lt mounted
  have atEnd : l.length ≤ contents.length / volume.header.clusterSize + 1 := by
    rw [file.length, clustersFor_eq positive (by omega)]
    exact Nat.succ_le_succ (Nat.div_le_div_right (by omega))
  have negative : clusterWalk volume (contents.length / volume.header.clusterSize) l[0] < 0 := by
    by_contra found
    obtain ⟨reached, walkable⟩ := (lookup_reaches_iff mounted file.chain inside atEnd).mp (by omega)
    rw [file.length] at reached
    exact fails ⟨(end_in_last_iff positive (by omega)).mp reached, walkable⟩
  have internal : fat16WriteInternal volume (asInt (fat16GetFirstCluster item)) contents.length data =
      (clusterWalk volume (contents.length / volume.header.clusterSize) l[0], volume) := by
    rw [asInt_eq (by omega), fat16WriteInternal, asInt_eq (by omega),
      getClusterForOffset_eq mounted file.chain inside]
    exact if_pos negative
  refine ⟨_, negative, ?_⟩
  have asked : fat16WriteInternal volume (asInt (fat16GetFirstCluster item))
      (⟨volume.slotItem slot item, contents.length⟩ : FatFileDescriptor).pos
      (bytesAt data (asInt (size * nmemb % 2 ^ 32)).toNat) =
        (clusterWalk volume (contents.length / volume.header.clusterSize) l[0], volume) := by
    rw [requestBytes_all product (by omega)]
    exact internal
  rw [writeFileItem_eq start asked, if_pos negative]
  rfl

end Call

/-! ## A series of writes -/

/-- A descriptor of a file of the root directory that stands at its end.  The entry is on the disk as
soon as the file has contents. -/
structure WrittenAt (state : FatState) (ptr : Ptr) (slot : Nat) (item : FatDirectoryItem) (l : List Nat)
    (contents : List UInt8) : Prop where
  mounted : Mounted state.volume
  inRoot : slot < state.volume.header.rootDirEntries
  isOpen : state.descriptors ptr = some ⟨state.volume.slotItem slot item, contents.length⟩
  writable : item.attr &&& fatFileReadOnly = 0
  isFile : item.attr &&& fatFileSubdirectory = 0
  file : FileAt state.volume item l contents
  stored : contents ≠ [] → state.volume.entry slot = item

/-- The arguments of a `fat16_write`. -/
structure WriteRequest where
  data : List UInt8
  size : Nat
  nmemb : Nat

/-- The request is for its data, and there is some. -/
structure WriteRequest.Whole (request : WriteRequest) : Prop where
  sizePos : 0 < request.size
  product : request.size * request.nmemb = request.data.length
  notEmpty : request.data ≠ []

/-- The data of some requests, one behind the other. -/
def allData (requests : List WriteRequest) : List UInt8 := requests.flatMap WriteRequest.data

@[simp] theorem allData_nil : allData [] = [] := rfl

@[simp] theorem allData_cons (request : WriteRequest) (rest : List WriteRequest) :
    allData (request :: rest) = request.data ++ allData rest := rfl

/-- Calls of `fat16_write` on one descriptor, one after the other. -/
def writeAll (ptr : Ptr) (state : FatState) (requests : List WriteRequest) : List (Option Int) × FatState :=
  specOps (fun state request => fat16Write state ptr request.data request.size request.nmemb) state requests

instance (cluster : Nat) : Decidable (Walkable cluster) := inferInstanceAs (Decidable (_ ∧ _))

/-- A file of some length that began with the clusters `l` can be written at its end: it is empty, or the
lookup of its end stays inside its clusters and off the numbers the driver refuses. -/
def AppendsAt (volume : FatVolume) (l : List Nat) (length : Nat) : Prop :=
  length = 0 ∨ length % volume.header.clusterSize ≠ 0 ∧
    ∀ c ∈ volume.laterClusters l (volume.header.clustersFor length), Walkable c

instance (volume : FatVolume) (l : List Nat) (length : Nat) : Decidable (AppendsAt volume l length) :=
  inferInstanceAs (Decidable (_ ∨ _ ∧ _))

/-- The requests in front of the first one that finds the file where it cannot be written. -/
def appendedRequests (volume : FatVolume) (l : List Nat) : (length : Nat) → List WriteRequest → List WriteRequest
  | _, [] => []
  | length, request :: rest =>
    if AppendsAt volume l length then
      request :: appendedRequests volume l (length + request.data.length) rest
    else []

section Runs

variable {state : FatState} {ptr : Ptr} {slot : Nat} {item : FatDirectoryItem} {contents : List UInt8}
  {volume : FatVolume} {head : Nat} {l m : List Nat}

theorem resumes_iff (chain : ChainFrom volume head l) (lengthened : Lengthened volume l state.volume m)
    (written : WrittenAt state ptr slot item m contents) :
    Resumes state.volume m contents.length ↔ AppendsAt volume l contents.length := by
  simp only [Resumes, AppendsAt, lengthened.mem_tail_iff chain written.file.chain, written.file.length,
    lengthened.same.header]

/-- A call that finds the end of the file. -/
theorem fat16Write_resumes (written : WrittenAt state ptr slot item m contents) {request : WriteRequest}
    (whole : request.Whole)
    (room : contents.length + request.data.length ≤
      (m.length + state.volume.freeClusters.card) * state.volume.header.clusterSize)
    (resumes : Resumes state.volume m contents.length) :
    ∃ state' item' m', fat16Write state ptr request.data request.size request.nmemb =
        (some (request.nmemb : Int), state') ∧
      WrittenAt state' ptr slot item' m' (contents ++ request.data) ∧
      Lengthened state.volume m state'.volume m' ∧
      (∀ s < state.volume.header.rootDirEntries, s ≠ slot → state'.volume.entry s = state.volume.entry s) := by
  obtain ⟨item', volume', m', result, appended, attr⟩ := writeFileItem_resumes written.mounted written.inRoot
    written.file whole.sizePos whole.product whole.notEmpty room resumes
  have writable : ¬ item.attr &&& fatFileReadOnly ≠ 0 := not_not.mpr written.writable
  have same := appended.lengthened.same
  refine ⟨state.set ptr (some ⟨state.volume.slotItem slot item', (contents ++ request.data).length⟩) volume',
    item', m', ?_, ⟨?_, ?_, ?_, ?_, ?_, appended.file, ?_⟩, appended.lengthened, ?_⟩
  case refine_1 => rw [fat16Write_writable written.isOpen rfl writable, result]
  case refine_2 => exact same.mounted written.mounted
  case refine_3 =>
    rw [FatState.set_volume, same.header]
    exact written.inRoot
  case refine_4 =>
    have sameItem : volume'.slotItem slot item' = state.volume.slotItem slot item' := by
      simp only [FatVolume.slotItem, same.rootDirectory]
    rw [set_descriptor, FatState.set_volume, sameItem]
  case refine_5 => rw [attr, written.writable]
  case refine_6 => rw [attr, written.isFile]
  case refine_7 =>
    intro _
    rw [FatState.set_volume, appended.entry slot written.inRoot, if_pos rfl]
  case refine_8 =>
    intro s inRange other
    rw [FatState.set_volume, appended.entry s inRange, if_neg other]

/-- A call that does not find the end of the file fails and changes nothing. -/
theorem fat16Write_stuck (written : WrittenAt state ptr slot item m contents) {request : WriteRequest}
    (whole : request.Whole)
    (room : contents.length + request.data.length ≤
      (m.length + state.volume.freeClusters.card) * state.volume.header.clusterSize)
    (stuck : ¬ Resumes state.volume m contents.length) :
    ∃ res < 0, fat16Write state ptr request.data request.size request.nmemb = (some res, state) := by
  obtain ⟨res, negative, result⟩ := @writeFileItem_stuck state.volume slot item m contents request.data
    written.mounted written.file request.size request.nmemb whole.product room stuck
  have writable : ¬ item.attr &&& fatFileReadOnly ≠ 0 := not_not.mpr written.writable
  have unchanged : state.set ptr (some ⟨state.volume.slotItem slot item, contents.length⟩) state.volume =
      state := by
    rw [FatState.set, ← written.isOpen, Function.update_eq_self]
  exact ⟨res, negative, by rw [fat16Write_writable written.isOpen rfl writable, result, unchanged]⟩

/-- What a series of writes leaves: the requests up to the first one that does not find the end of the file
are stored, and no later one is. -/
structure WroteAll (volume : FatVolume) (l : List Nat) (slot : Nat) (ptr : Ptr) (requests done : List WriteRequest)
    (contents : List UInt8) (state : FatState) (statuses : List (Option Int)) : Prop where
  written : ∃ item m, WrittenAt state ptr slot item m (contents ++ allData done) ∧
    Lengthened volume l state.volume m
  others : ∀ s < volume.header.rootDirEntries, s ≠ slot → state.volume.entry s = volume.entry s
  succeed : statuses.take done.length = done.map fun request => some (request.nmemb : Int)
  fail : ∀ status ∈ statuses.drop done.length, ∃ res < 0, status = some res
  count : statuses.length = requests.length

theorem writeAll_spec (chain : ChainFrom volume head l) (requests : List WriteRequest) :
    ∀ {state : FatState} {item : FatDirectoryItem} {m : List Nat} {contents : List UInt8},
      WrittenAt state ptr slot item m contents → Lengthened volume l state.volume m →
      (∀ s < volume.header.rootDirEntries, s ≠ slot → state.volume.entry s = volume.entry s) →
      (∀ request ∈ requests, request.Whole) →
      contents.length + (allData requests).length ≤
        (l.length + volume.freeClusters.card) * volume.header.clusterSize →
      WroteAll volume l slot ptr requests (appendedRequests volume l contents.length requests) contents
        (writeAll ptr state requests).2 (writeAll ptr state requests).1 := by
  induction requests with
  | nil =>
    intro state item m contents written lengthened others _ _
    refine ⟨⟨item, m, ?_, lengthened⟩, others, rfl, fun status member => ?_, rfl⟩
    · rw [appendedRequests, allData_nil, List.append_nil]
      exact written
    · exact absurd member List.not_mem_nil
  | cons request rest ih =>
    intro state item m contents written lengthened others whole room
    have free := lengthened.free
    have header := lengthened.same.header
    have first := whole request List.mem_cons_self
    have later : ∀ r ∈ rest, r.Whole := fun r member => whole r (List.mem_cons_of_mem _ member)
    rw [allData_cons, List.length_append] at room
    have roomHere : contents.length + request.data.length ≤
        (m.length + state.volume.freeClusters.card) * state.volume.header.clusterSize := by
      rw [header, show m.length + state.volume.freeClusters.card =
        l.length + volume.freeClusters.card by omega]
      omega
    have decides := resumes_iff chain lengthened written
    by_cases appends : AppendsAt volume l contents.length
    · obtain ⟨state', item', m', result, written', lengthened', others'⟩ :=
        fat16Write_resumes written first roomHere (decides.mpr appends)
      have rest' := ih written' (lengthened.trans lengthened') (fun s inRange other => by
        rw [others' s (by rw [header]; exact inRange) other, others s inRange other]) later
        (by rw [List.length_append]; omega)
      rw [List.length_append] at rest'
      rw [appendedRequests, if_pos appends]
      simp only [writeAll, specOps, result]
      refine ⟨?_, rest'.others, ?_, rest'.fail, ?_⟩
      · obtain ⟨item'', m'', last⟩ := rest'.written
        refine ⟨item'', m'', ?_⟩
        rw [allData_cons, ← List.append_assoc]
        exact last
      · rw [List.length_cons, List.take_succ_cons, List.map_cons]
        exact congrArg _ rest'.succeed
      · exact congrArg Nat.succ rest'.count
    · obtain ⟨res, negative, result⟩ := fat16Write_stuck written first roomHere (mt decides.mp appends)
      -- the file is as it was, so the next call fails too
      have rest' := ih written lengthened others later (by omega)
      have none : ∀ requests, appendedRequests volume l contents.length requests = [] := by
        intro requests
        cases requests with
        | nil => rfl
        | cons r more => rw [appendedRequests, if_neg appends]
      rw [none] at rest' ⊢
      simp only [writeAll, specOps, result]
      refine ⟨rest'.written, rest'.others, rfl, fun status member => ?_, congrArg Nat.succ rest'.count⟩
      rw [List.length_nil, List.drop_zero] at member
      cases List.mem_cons.mp member with
      | inl same => exact ⟨res, negative, same⟩
      | inr later => exact rest'.fail status later

end Runs

end ViOS.Fs
