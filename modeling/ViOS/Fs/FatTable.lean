import ViOS.Fs.Fat16Chains
import ViOS.Lib.Run

/-! # The allocation table under any sequence of operations

The table is a shared array with several copies on the disk, and the chains in it are
linked lists.  Here the volume needs no consistent root directory and no clusters, only a
table that lies on the disk and has an entry for each cluster number the search looks at.

The number of clusters is not bounded by what an entry can hold: a cluster from 0xFFF8 on
is found by `fat16_find_free_cluster`, but as an entry its number reads as the end of a
chain, and `fat16_free_cluster_chain` does not begin at it.

* `TableOk`, `CopiesEqual` — the volumes, and what their copies have in common.
* `TableWrite` — what `fat16_set_fat_entry` does to all copies.
* `IsChain`, `ChainsOk` — a set of chains that do not meet.
* `ChainStep`, `ChainSpec` — the three operations, and what they are for.
-/

namespace ViOS.Fs

open ViOS.Lib

/-! ## The volumes -/

namespace FatHeader

/-- The clusters of the volume, by its sectors. -/
def clusters (header : FatHeader) : Nat := header.totalSectors / header.sectorsPerCluster

theorem totalClusters_le (header : FatHeader) : header.totalClusters ≤ header.clusters := by
  unfold totalClusters clusters
  split
  · exact Nat.le_refl _
  · exact Nat.zero_le _

end FatHeader

/-- The copies of the table are on the disk, where a stream can be positioned, and each has an
entry for every cluster. -/
structure TableOk (volume : FatVolume) : Prop extends TableOnDisk volume where
  clusterPos : 0 < volume.header.sectorsPerCluster
  room : volume.header.clusters ≤ volume.header.tableEntries
  addressable : volume.rootPos ≤ 2 ^ 31

theorem SameVolume.table {volume volume' : FatVolume} (same : SameVolume volume volume')
    (ok : TableOk volume) : TableOk volume' where
  toTableOnDisk := same.tableOnDisk ok.toTableOnDisk
  clusterPos := by rw [same.header]; exact ok.clusterPos
  room := by rw [same.header]; exact ok.room
  addressable := by rw [same.rootPos]; exact ok.addressable

/-! ## The search -/

section Search

variable {volume : FatVolume}

/-- A cluster of the volume whose entry is zero. -/
def FatVolume.IsFree (volume : FatVolume) (cluster : Nat) : Prop :=
  2 ≤ cluster ∧ cluster < volume.header.clusters ∧ volume.fat cluster = 0

/-- A free cluster below the end of the search. -/
def FatVolume.Found (volume : FatVolume) (cluster : Nat) : Prop :=
  volume.IsFree cluster ∧ cluster < volume.header.totalClusters

theorem findFreeCluster_table (ok : TableOk volume) :
    (∃ new, fat16FindFreeCluster volume = ((new : Nat) : Int) ∧ volume.Found new ∧
      ∀ other, volume.Found other → new ≤ other) ∨
    (fat16FindFreeCluster volume = -enomem ∧ ∀ cluster, ¬ volume.Found cluster) := by
  have onDisk : ∀ c < volume.header.totalClusters, volume.EntryOnDisk c := fun c below =>
    ok.toTableOnDisk.entryOnDisk
      (Nat.lt_of_lt_of_le below (Nat.le_trans volume.header.totalClusters_le ok.room))
  by_cases some : ∃ cluster, volume.Found cluster
  · obtain ⟨known, ⟨lower, -, free⟩, scanned⟩ := some
    obtain ⟨least, found, lower', upper, leastFree, below⟩ :=
      findFreeCluster_least lower scanned (onDisk known scanned) free
    have scanned' := Nat.lt_of_le_of_lt upper scanned
    apply Or.inl
    refine ⟨least, found, ⟨⟨lower', ?_, leastFree⟩, scanned'⟩, ?_⟩
    · exact Nat.lt_of_lt_of_le scanned' volume.header.totalClusters_le
    · intro other otherFound
      exact below other otherFound.1.1 (onDisk other otherFound.2) otherFound.1.2.2
  · have none := not_exists.mp some
    refine .inr ⟨findFreeCluster_none onDisk ?_, none⟩
    intro cluster lower scanned free
    exact none cluster ⟨⟨lower, Nat.lt_of_lt_of_le scanned volume.header.totalClusters_le, free⟩, scanned⟩

end Search

/-! ## Chains that do not meet -/

/-- A chain of the table.  No entry but the last one reads as the end of the chain. -/
structure IsChain (volume : FatVolume) (l : List Nat) : Prop where
  notEmpty : l ≠ []
  chain : Chain volume.fat IsEoc l
  nodup : l.Nodup
  clusters : ∀ cluster ∈ l, 2 ≤ cluster ∧ cluster < volume.header.tableEntries
  links : ∀ cluster ∈ l.tail, ¬ IsEoc cluster

/-- A volume with a set of chains in its table. -/
structure FatChains where
  volume : FatVolume
  chains : Set (List Nat)

/-- The copies agree, and the chains are chains and do not meet. -/
structure ChainsOk (state : FatChains) : Prop where
  table : TableOk state.volume
  copies : CopiesEqual state.volume
  isChain : ∀ l ∈ state.chains, IsChain state.volume l
  disjoint : ∀ l ∈ state.chains, ∀ l' ∈ state.chains, l ≠ l' → l.Disjoint l'

namespace IsChain

variable {volume volume' : FatVolume} {l : List Nat}

theorem congr (isChain : IsChain volume l) (same : SameVolume volume volume')
    (fat : ∀ cluster ∈ l, volume'.fat cluster = volume.fat cluster) : IsChain volume' l where
  notEmpty := isChain.notEmpty
  chain := isChain.chain.congr fat
  nodup := isChain.nodup
  clusters := by
    rw [same.header]
    exact isChain.clusters
  links := isChain.links

theorem fat_ne_zero (isChain : IsChain volume l) {cluster : Nat} (member : cluster ∈ l) :
    volume.fat cluster ≠ 0 := by
  intro zero
  cases isChain.chain.next_mem member with
  | inl isNext =>
    have lower := (isChain.clusters _ isNext).1
    omega
  | inr isEnd =>
    unfold IsEoc at isEnd
    omega

theorem headD_mem (isChain : IsChain volume l) : l.headD 0 ∈ l := by
  cases l with
  | nil => exact absurd rfl isChain.notEmpty
  | cons first rest => exact List.mem_cons_self

theorem getLast?_eq (isChain : IsChain volume l) : l.getLast? = some (l.getLastD 0) := by
  rw [List.getLastD_eq_getLast?, List.getLast?_eq_some_getLast isChain.notEmpty, Option.getD_some]

theorem dropLast_append (isChain : IsChain volume l) : l.dropLast ++ [l.getLastD 0] = l := by
  rw [List.getLastD_eq_getLast?, List.getLast?_eq_some_getLast isChain.notEmpty, Option.getD_some,
    List.dropLast_append_getLast]

theorem getLastD_mem (isChain : IsChain volume l) : l.getLastD 0 ∈ l := by
  have shape := isChain.dropLast_append
  rw [← shape]
  simp

/-- A chain of clusters that no entry takes for the end is short. -/
theorem length_lt (isChain : IsChain volume l) (small : l.headD 0 < 0xFFF8) :
    (∀ cluster ∈ l, cluster < 0xFFF8) ∧ l.length < 2 ^ 16 := by
  have below : ∀ cluster ∈ l, cluster < 0xFFF8 := by
    intro cluster member
    cases l with
    | nil => exact absurd member List.not_mem_nil
    | cons first rest =>
      cases List.mem_cons.mp member with
      | inl isFirst => exact isFirst ▸ small
      | inr later => exact Nat.lt_of_not_le (isChain.links cluster later)
  have inRange : l.toFinset ⊆ Finset.range 0xFFF8 := fun cluster member =>
    Finset.mem_range.mpr (below cluster (List.mem_toFinset.mp member))
  have card := Finset.card_le_card inRange
  rw [List.toFinset_card_of_nodup isChain.nodup, Finset.card_range] at card
  exact ⟨below, by omega⟩

end IsChain

/-! ## The operations -/

/-- The calls of the driver, with the chain they are about. -/
inductive ChainOp where
  | allocateBehind (chain : List Nat)
  | allocateFirst
  | freeChain (chain : List Nat)

/-- The chain that is changed; a new chain begins as the empty one, which is no chain of the table. -/
def ChainOp.chain : ChainOp → List Nat
  | .allocateBehind chain => chain
  | .allocateFirst => []
  | .freeChain chain => chain

/-- The chains after a call of `fat16_allocate_cluster` with the given result. -/
def FatChains.allocated (state : FatChains) (chain : List Nat) (result : Int × FatVolume) : FatChains :=
  if result.1 < 0 then ⟨result.2, state.chains⟩
  else ⟨result.2, insert (chain ++ [result.1.toNat]) (state.chains \ {chain})⟩

/-- A call of the driver. -/
def chainStep (state : FatChains) : ChainOp → FatChains
  | .allocateBehind chain =>
    state.allocated chain (fat16AllocateCluster state.volume (chain.getLastD 0 : Nat))
  | .allocateFirst => state.allocated [] (fat16AllocateCluster state.volume (-1))
  | .freeChain chain =>
    ⟨(fat16FreeClusterChain state.volume (chain.headD 0 : Nat)).2, state.chains \ {chain}⟩

/-- A call for a chain of the set, or for a new one. -/
def ChainStep (state : FatChains) (op : ChainOp) (next : FatChains) : Prop :=
  (op = .allocateFirst ∨ op.chain ∈ state.chains) ∧ next = chainStep state op

/-- A free cluster is appended to the chain; on a full volume nothing happens. -/
def AllocatedTo (state : FatChains) (chain : List Nat) (next : FatChains) : Prop :=
  (∃ new, state.volume.IsFree new ∧ next.chains = insert (chain ++ [new]) (state.chains \ {chain})) ∨
    (∀ cluster, ¬ state.volume.IsFree cluster) ∧ next = state

/-- What a call does to its chain. -/
def ChainOp.Effect (state next : FatChains) : ChainOp → Prop
  | .allocateBehind chain => AllocatedTo state chain next
  | .allocateFirst => AllocatedTo state [] next
  | .freeChain chain => next.chains = state.chains \ {chain} ∧
      ∀ cluster < state.volume.header.tableEntries,
        next.volume.fat cluster = if cluster ∈ chain then 0 else state.volume.fat cluster

/-- What a call is for: it has its effect, and the entries of the other chains are as before. -/
structure ChainSpec (state : FatChains) (op : ChainOp) (next : FatChains) : Prop where
  ok : ChainsOk next
  others : ∀ l ∈ state.chains, l ≠ op.chain → ∀ cluster ∈ l,
    next.volume.fat cluster = state.volume.fat cluster
  effect : op.Effect state next

/-- The search counts sectors in an `int`; a cluster that is linked to, or that begins a chain to be
freed, has a number an entry can hold. -/
def ChainFits (state : FatChains) : ChainOp → Prop
  | .allocateBehind _ => (∀ cluster, ¬ state.volume.IsFree cluster) ∨
      state.volume.header.totalSectors < 2 ^ 31 ∧ ∃ cluster < 0xFFF8, state.volume.IsFree cluster
  | .allocateFirst => (∀ cluster, ¬ state.volume.IsFree cluster) ∨
      state.volume.header.totalSectors < 2 ^ 31
  | .freeChain chain => chain.headD 0 < 0xFFF8

theorem found_iff {volume : FatVolume} {cluster : Nat} :
    volume.Found cluster ↔ volume.IsFree cluster ∧ volume.header.totalSectors < 2 ^ 31 := by
  unfold FatVolume.Found FatHeader.totalClusters
  by_cases small : volume.header.totalSectors < 2 ^ 31
  · rw [if_pos small]
    exact ⟨fun found => ⟨found.1, small⟩, fun found => ⟨found.1, found.1.2.1⟩⟩
  · rw [if_neg small]
    exact ⟨fun found => absurd found.2 (Nat.not_lt_zero _), fun found => absurd found.2 small⟩

section Allocate

variable {state : FatChains}

theorem IsChain.not_mem_of_free {volume : FatVolume} {l : List Nat} (isChain : IsChain volume l)
    {new : Nat} (free : volume.IsFree new) : new ∉ l :=
  fun member => isChain.fat_ne_zero member free.2.2

/-- An allocation takes the lowest cluster that is found, or nothing. -/
theorem chainStep_allocate (ok : ChainsOk state) {op : ChainOp}
    (isAllocation : op = .allocateFirst ∨ ∃ chain ∈ state.chains, op = .allocateBehind chain) :
    (∃ new volume', state.volume.Found new ∧ (∀ other, state.volume.Found other → new ≤ other) ∧
      TableLinked state.volume op.chain.getLast? new volume' ∧
      chainStep state op = ⟨volume', insert (op.chain ++ [new]) (state.chains \ {op.chain})⟩) ∨
    ((∀ cluster, ¬ state.volume.Found cluster) ∧ chainStep state op = state) := by
  have onDisk := ok.table.toTableOnDisk
  cases findFreeCluster_table ok.table with
  | inl some =>
    obtain ⟨new, found, isFound, least⟩ := some
    have inTable := Nat.lt_of_lt_of_le isFound.1.2.1 ok.table.room
    have notNegative : ¬ (new : Int) < 0 := by omega
    apply Or.inl
    cases isAllocation with
    | inl first =>
      subst first
      obtain ⟨volume', result, linked⟩ := allocateCluster_first_table onDisk found inTable
      refine ⟨new, volume', isFound, least, linked, ?_⟩
      simp only [chainStep, FatChains.allocated, result, if_neg notNegative, Int.toNat_natCast]
      rfl
    | inr behind =>
      obtain ⟨chain, member, rfl⟩ := behind
      have isChain := ok.isChain chain member
      obtain ⟨volume', result, linked⟩ := allocateCluster_behind_table onDisk found inTable
        (isChain.clusters _ isChain.getLastD_mem).2
      refine ⟨new, volume', isFound, least, ?_, ?_⟩
      · simp only [ChainOp.chain, isChain.getLast?_eq]
        exact linked
      · simp only [chainStep, FatChains.allocated, result, if_neg notNegative, Int.toNat_natCast]
        rfl
  | inr none =>
    obtain ⟨failed, noneFound⟩ := none
    -- a full table: the allocation fails before it writes
    have negative : (-enomem : Int) < 0 := by decide
    refine .inr ⟨noneFound, ?_⟩
    cases isAllocation with
    | inl first =>
      subst first
      simp only [chainStep, FatChains.allocated, fat16AllocateCluster, failed, negative, if_true]
    | inr behind =>
      obtain ⟨chain, member, rfl⟩ := behind
      simp only [chainStep, FatChains.allocated, fat16AllocateCluster, failed, negative, if_true]

/-- The cluster is linked behind the chain, or begins a new one. -/
theorem isChain_append {chain : List Nat} {new : Nat} {volume volume' : FatVolume}
    (isChain : chain ≠ [] → IsChain volume chain ∧ new < 0xFFF8) (free : volume.IsFree new)
    (inTable : new < volume.header.tableEntries)
    (linked : TableLinked volume chain.getLast? new volume') : IsChain volume' (chain ++ [new]) := by
  have fatNew : new ∉ chain → volume'.fat new = 0xFFFF := by
    intro notMember
    rw [linked.fat new inTable, if_neg, if_pos rfl]
    exact fun isLast => notMember (List.mem_of_getLast? isLast)
  by_cases empty : chain = []
  · subst empty
    refine ⟨List.cons_ne_nil _ _, ?_, List.nodup_singleton _, ?_, fun _ member => absurd member (by simp)⟩
    · change IsEoc (volume'.fat new)
      rw [fatNew List.not_mem_nil]
      exact (by decide : 0xFFF8 ≤ 0xFFFF)
    · intro cluster member
      obtain rfl := List.mem_singleton.mp member
      rw [linked.same.header]
      exact ⟨free.1, inTable⟩
  · obtain ⟨old, small⟩ := isChain empty
    have notMember := old.not_mem_of_free free
    have shape := old.dropLast_append
    have lastMember := old.getLastD_mem
    have last := old.getLast?_eq
    have clusters : ∀ cluster ∈ chain ++ [new], 2 ≤ cluster ∧ cluster < volume.header.tableEntries := by
      intro cluster member
      cases List.mem_append.mp member with
      | inl before => exact old.clusters cluster before
      | inr isNew =>
        obtain rfl := List.mem_singleton.mp isNew
        exact ⟨free.1, inTable⟩
    refine ⟨by simp, ?_, ?_, ?_, ?_⟩
    · -- the table is updated at the new cluster and at the last one
      have link : Chain (Function.update (Function.update volume.fat new 0xFFFF) (chain.getLastD 0) new) IsEoc
          (chain.dropLast ++ [chain.getLastD 0, new]) :=
        Chain.link (shape.symm ▸ old.chain) (shape.symm ▸ old.nodup) (shape.symm ▸ notMember)
          (show 0xFFF8 ≤ 0xFFFF by decide)
      have whole : chain.dropLast ++ [chain.getLastD 0, new] = chain ++ [new] := by
        conv_rhs => rw [← shape]
        simp
      rw [whole] at link
      refine link.congr fun cluster member => ?_
      rw [linked.fat cluster (clusters cluster member).2, last]
      by_cases isLast : cluster = chain.getLastD 0
      · rw [← isLast, if_pos rfl, Function.update_self, Nat.mod_eq_of_lt (by omega)]
      · rw [if_neg fun same => isLast (Option.some.inj same).symm, Function.update_of_ne isLast]
        by_cases isNew : cluster = new
        · rw [if_pos isNew, isNew, Function.update_self]
        · rw [if_neg isNew, Function.update_of_ne isNew]
    · exact List.nodup_append.mpr ⟨old.nodup, List.nodup_singleton _, fun a member b isNew same =>
        notMember (by rw [← List.mem_singleton.mp isNew, ← same]; exact member)⟩
    · rw [linked.same.header]
      exact clusters
    · rw [List.tail_append_of_ne_nil empty]
      intro cluster member
      cases List.mem_append.mp member with
      | inl before => exact old.links cluster before
      | inr isNew =>
        obtain rfl := List.mem_singleton.mp isNew
        exact Nat.not_le_of_lt small

end Allocate

/-! ## Exactness -/

section Exact

variable {state : FatChains}

/-- A cluster of one chain is in no other. -/
theorem ChainsOk.not_mem (ok : ChainsOk state) {l l' : List Nat} (member : l ∈ state.chains)
    (member' : l' ∈ state.chains) (different : l ≠ l') {cluster : Nat} (inChain : cluster ∈ l) :
    cluster ∉ l' :=
  fun inOther => ok.disjoint l member l' member' different inChain inOther

/-- Appending a free cluster to a chain, or beginning a chain with it. -/
theorem chainsOk_append (ok : ChainsOk state) {chain : List Nat} {new : Nat} {volume' : FatVolume}
    (ofState : chain ≠ [] → chain ∈ state.chains ∧ new < 0xFFF8) (free : state.volume.IsFree new)
    (linked : TableLinked state.volume chain.getLast? new volume') :
    ChainsOk ⟨volume', insert (chain ++ [new]) (state.chains \ {chain})⟩ ∧
      ∀ l ∈ state.chains, l ≠ chain → ∀ cluster ∈ l, volume'.fat cluster = state.volume.fat cluster := by
  have inTable := Nat.lt_of_lt_of_le free.2.1 ok.table.room
  have newChain := isChain_append
    (fun notEmpty => ⟨ok.isChain chain (ofState notEmpty).1, (ofState notEmpty).2⟩) free inTable linked
  have apart : ∀ l ∈ state.chains, l ≠ chain → ∀ cluster ∈ l, cluster ∉ chain ++ [new] := by
    intro l member different cluster inChain inNew
    have isChain := ok.isChain l member
    cases List.mem_append.mp inNew with
    | inl before =>
      exact ok.not_mem member (ofState (List.ne_nil_of_mem before)).1 different inChain before
    | inr isNew => exact isChain.not_mem_of_free free (List.mem_singleton.mp isNew ▸ inChain)
  -- only the old last cluster and the new one changed
  have others : ∀ l ∈ state.chains, l ≠ chain → ∀ cluster ∈ l,
      volume'.fat cluster = state.volume.fat cluster := by
    intro l member different cluster inChain
    have notChanged := apart l member different cluster inChain
    rw [linked.fat cluster ((ok.isChain l member).clusters cluster inChain).2, if_neg, if_neg]
    · rintro rfl
      exact notChanged (List.mem_append_right _ List.mem_cons_self)
    · exact fun isLast => notChanged (List.mem_append_left _ (List.mem_of_getLast? isLast))
  refine ⟨⟨linked.same.table ok.table, linked.copies ok.copies, ?_, ?_⟩, others⟩
  · intro l member
    cases member with
    | inl isNew => exact isNew ▸ newChain
    | inr old =>
      exact (ok.isChain l old.1).congr linked.same (others l old.1 old.2)
  · intro l member l' member' different
    cases member with
    | inl isNew =>
      cases member' with
      | inl isNew' => exact absurd (isNew.trans isNew'.symm) different
      | inr old => exact fun cluster inNew inOld => apart l' old.1 old.2 cluster inOld (isNew ▸ inNew)
    | inr old =>
      cases member' with
      | inl isNew => exact fun cluster inOld inNew => apart l old.1 old.2 cluster inOld (isNew ▸ inNew)
      | inr old' => exact ok.disjoint l old.1 l' old'.1 different

/-- An allocation that fits does what it is for. -/
theorem chainSpec_allocate (ok : ChainsOk state) {op : ChainOp}
    (isAllocation : op = .allocateFirst ∨ ∃ chain ∈ state.chains, op = .allocateBehind chain)
    (fits : ChainFits state op) : ChainSpec state op (chainStep state op) := by
  have effect : AllocatedTo state op.chain (chainStep state op) →
      op.Effect state (chainStep state op) := by
    intro allocated
    cases isAllocation with
    | inl first => exact first ▸ (first ▸ allocated : AllocatedTo state ChainOp.allocateFirst.chain _)
    | inr behind =>
      obtain ⟨chain, -, rfl⟩ := behind
      exact allocated
  cases chainStep_allocate ok isAllocation with
  | inl some =>
    obtain ⟨new, volume', found, least, linked, result⟩ := some
    have ofState : op.chain ≠ [] → op.chain ∈ state.chains ∧ new < 0xFFF8 := by
      intro notEmpty
      cases isAllocation with
      | inl first => exact absurd (by rw [first]; rfl) notEmpty
      | inr behind =>
        obtain ⟨chain, member, rfl⟩ := behind
        refine ⟨member, ?_⟩
        -- the search only counts the clusters below a limit, and the least it finds is below 0xFFF8
        cases fits with
        | inl full => exact absurd found.1 (full new)
        | inr room =>
          obtain ⟨counted, known, small, free⟩ := room
          exact Nat.lt_of_le_of_lt (least known (found_iff.mpr ⟨free, counted⟩)) small
    obtain ⟨okNext, others⟩ := chainsOk_append ok ofState found.1 linked
    rw [result] at effect ⊢
    exact ⟨okNext, others, effect (.inl ⟨new, found.1, rfl⟩)⟩
  | inr none =>
    obtain ⟨noneFound, result⟩ := none
    -- nothing was found, and the search would have found every free cluster
    have full : ∀ cluster, ¬ state.volume.IsFree cluster := by
      intro cluster free
      have counted : state.volume.header.totalSectors < 2 ^ 31 := by
        cases isAllocation with
        | inl first =>
          subst first
          exact fits.resolve_left fun none => none cluster free
        | inr behind =>
          obtain ⟨chain, -, rfl⟩ := behind
          exact (fits.resolve_left fun none => none cluster free).1
      exact noneFound cluster (found_iff.mpr ⟨free, counted⟩)
    rw [result] at effect ⊢
    exact ⟨ok, fun _ _ _ _ _ => rfl, effect (.inr ⟨full, rfl⟩)⟩

/-- A chain whose first cluster fits is freed, and nothing else. -/
theorem chainSpec_free (ok : ChainsOk state) {chain : List Nat} (member : chain ∈ state.chains)
    (fits : chain.headD 0 < 0xFFF8) :
    ChainSpec state (.freeChain chain) (chainStep state (.freeChain chain)) := by
  have isChain := ok.isChain chain member
  obtain ⟨below, short⟩ := isChain.length_lt fits
  have notZero : ¬ ((chain.headD 0 : Nat) : Int) = 0 := by
    have lower := (isChain.clusters _ isChain.headD_mem).1
    omega
  obtain ⟨volume', result, freed⟩ := freeChainLoop_table chain ok.table.toTableOnDisk isChain.chain
    isChain.nodup (fun c inChain => ⟨(isChain.clusters c inChain).1, (isChain.clusters c inChain).2,
      below c inChain⟩) isChain.notEmpty short
  have next : chainStep state (.freeChain chain) = ⟨volume', state.chains \ {chain}⟩ := by
    simp only [chainStep, fat16FreeClusterChain, if_neg notZero, result]
  have others : ∀ l ∈ state.chains, l ≠ chain → ∀ cluster ∈ l,
      volume'.fat cluster = state.volume.fat cluster := by
    intro l inSet different cluster inChain
    rw [freed.fat cluster ((ok.isChain l inSet).clusters cluster inChain).2,
      if_neg (ok.not_mem inSet member different inChain)]
  rw [next]
  refine ⟨⟨freed.same.table ok.table, freed.copies ok.copies, ?_, ?_⟩, others, rfl, freed.fat⟩
  · intro l old
    exact (ok.isChain l old.1).congr freed.same (others l old.1 old.2)
  · intro l old l' old'
    exact ok.disjoint l old.1 l' old'.1

/-- An allocation that does not fit: a cluster is free but not found, or it is found and its number
reads as the end of the chain it is linked to. -/
theorem not_chainSpec_allocate (ok : ChainsOk state) {op : ChainOp}
    (isAllocation : op = .allocateFirst ∨ ∃ chain ∈ state.chains, op = .allocateBehind chain)
    (fails : ¬ ChainFits state op) : ¬ ChainSpec state op (chainStep state op) := by
  intro spec
  have effect : AllocatedTo state op.chain (chainStep state op) := by
    have effect := spec.effect
    cases isAllocation with
    | inl first => exact first ▸ (first ▸ effect : ChainOp.Effect state _ .allocateFirst)
    | inr behind =>
      obtain ⟨chain, -, rfl⟩ := behind
      exact effect
  have someFree : ∃ cluster, state.volume.IsFree cluster := by
    by_contra none
    apply fails
    cases isAllocation with
    | inl first => exact first ▸ .inl (not_exists.mp none)
    | inr behind =>
      obtain ⟨chain, -, rfl⟩ := behind
      exact .inl (not_exists.mp none)
  cases chainStep_allocate ok isAllocation with
  | inl some =>
    obtain ⟨new, volume', found, least, linked, result⟩ := some
    have counted := (found_iff.mp found).2
    cases isAllocation with
    | inl first =>
      subst first
      exact fails (.inr counted)
    | inr behind =>
      obtain ⟨chain, member, rfl⟩ := behind
      have large : 0xFFF8 ≤ new := by
        by_contra small
        exact fails (.inr ⟨counted, new, by omega, found.1⟩)
      have isChain : IsChain volume' (chain ++ [new]) := by
        have okNext := spec.ok
        rw [result] at okNext
        exact okNext.isChain _ (.inl rfl)
      have inTail : new ∈ (chain ++ [new]).tail := by
        rw [List.tail_append_of_ne_nil (ok.isChain chain member).notEmpty]
        exact List.mem_append_right _ List.mem_cons_self
      exact isChain.links new inTail large
  | inr none =>
    -- the driver says that the volume is full
    obtain ⟨-, result⟩ := none
    rw [result] at effect
    cases effect with
    | inl appended =>
      obtain ⟨new, free, chains⟩ := appended
      have isOld : op.chain ++ [new] ∈ state.chains := by
        rw [chains]
        exact .inl rfl
      exact (ok.isChain _ isOld).not_mem_of_free free (List.mem_append_right _ List.mem_cons_self)
    | inr full =>
      obtain ⟨cluster, free⟩ := someFree
      exact full.1 cluster free

/-- A chain that begins above the end marks is not freed. -/
theorem not_chainSpec_free (ok : ChainsOk state) {chain : List Nat} (member : chain ∈ state.chains)
    (fails : ¬ chain.headD 0 < 0xFFF8) :
    ¬ ChainSpec state (.freeChain chain) (chainStep state (.freeChain chain)) := by
  intro spec
  have isChain := ok.isChain chain member
  have inTable := (isChain.clusters _ isChain.headD_mem).2
  have freed := spec.effect.2 (chain.headD 0) inTable
  have kept : (chainStep state (.freeChain chain)).volume = state.volume := by
    have notZero : ¬ ((chain.headD 0 : Nat) : Int) = 0 := by omega
    have stops : ¬ ((2 : Int) ≤ (chain.headD 0 : Nat) ∧ ((chain.headD 0 : Nat) : Int) < 0xFFF8) := by omega
    simp only [chainStep, fat16FreeClusterChain, if_neg notZero, freeChainLoop_stops stops]
  rw [kept, if_pos isChain.headD_mem] at freed
  exact isChain.fat_ne_zero isChain.headD_mem freed

theorem ChainStep.isAllocation {op : ChainOp} {next : FatChains} (step : ChainStep state op next) :
    (op = .allocateFirst ∨ ∃ chain ∈ state.chains, op = .allocateBehind chain) ∨
      ∃ chain ∈ state.chains, op = .freeChain chain := by
  cases op with
  | allocateBehind chain =>
    cases step.1 with
    | inl isFirst => exact absurd isFirst (by simp)
    | inr member => exact .inl (.inr ⟨chain, member, rfl⟩)
  | allocateFirst => exact .inl (.inl rfl)
  | freeChain chain =>
    cases step.1 with
    | inl isFirst => exact absurd isFirst (by simp)
    | inr member => exact .inr ⟨chain, member, rfl⟩

end Exact

/-- Along every sequence of calls, each call does what it is for precisely when each call fits. -/
theorem chains_run {state : FatChains} {run : List (ChainOp × FatChains)}
    (isRun : IsRun ChainStep state run) (ok : ChainsOk state) :
    StepsMeet ChainSpec state run ↔ EveryStep ChainFits state run := by
  refine stepsMeet_iff_everyStep ?_ (fun _ _ _ spec => spec.ok) ?_ isRun ok
  · intro s op t step fits ok
    rw [step.2]
    cases step.isAllocation with
    | inl isAllocation => exact chainSpec_allocate ok isAllocation fits
    | inr isFree =>
      obtain ⟨chain, member, rfl⟩ := isFree
      exact chainSpec_free ok member fits
  · intro s op t step fails ok
    rw [step.2]
    cases step.isAllocation with
    | inl isAllocation => exact not_chainSpec_allocate ok isAllocation fails
    | inr isFree =>
      obtain ⟨chain, member, rfl⟩ := isFree
      exact not_chainSpec_free ok member fails

/-! ## A volume with one free cluster, at 0xFFF8 -/

/-- Two copies of a table of 65792 entries, on a volume of 65600 clusters. -/
def crowdedHeader : FatHeader where
  sectorsPerCluster := 1
  reservedSectors := 1
  fatCopies := 2
  rootDirEntries := 0
  numberOfSectors := 0
  sectorsPerFat := 257
  sectorsBig := 65600

/-- Every entry ends a chain, but entry 0xFFF8 is zero. -/
def crowdedVolume : FatVolume where
  store := { size := 65600 * 512, bytes := fun p => if p % 131584 / 2 = 65784 then 0 else 255 }
  header := crowdedHeader
  rootDirectory := { item := [], sectorPos := 515, endingSectorPos := 515 }

/-- Two files of one cluster. -/
def crowded : FatChains := ⟨crowdedVolume, {[2], [3]}⟩

theorem crowdedVolume_fat {cluster : Nat} (inTable : cluster < 65792) :
    crowdedVolume.fat cluster = if cluster = 0xFFF8 then 0 else 0xFFFF := by
  have byte : ∀ i < 2, crowdedVolume.copyByte 0 (cluster * fat16FatEntrySize + i) =
      if cluster = 0xFFF8 then 0 else 255 := by
    intro i inside
    change (if (1 * 512 + 0 * (257 * 512) + (cluster * 2 + i)) % 131584 / 2 = 65784 then (0 : UInt8) else 255) = _
    have place : (1 * 512 + 0 * (257 * 512) + (cluster * 2 + i)) % 131584 / 2 = 65784 ↔ cluster = 0xFFF8 := by
      omega
    simp only [place]
  have low := byte 0 (by decide)
  rw [Nat.add_zero] at low
  rw [fat_eq_copyByte, low, byte 1 (by decide)]
  by_cases free : cluster = 0xFFF8
  · simp [free]
  · simp [free]

theorem crowded_ok : ChainsOk crowded where
  table :=
    { copiesPos := by decide
      onDisk := by decide
      clusterPos := by decide
      room := by decide
      addressable := by decide }
  copies := by
    intro i _ offset _
    change (if (1 * 512 + i * (257 * 512) + offset) % 131584 / 2 = 65784 then (0 : UInt8) else 255) =
      if (1 * 512 + 0 * (257 * 512) + offset) % 131584 / 2 = 65784 then 0 else 255
    have place : (1 * 512 + i * (257 * 512) + offset) % 131584 =
        (1 * 512 + 0 * (257 * 512) + offset) % 131584 := by
      omega
    rw [place]
  isChain := by
    have single : ∀ cluster, 2 ≤ cluster → cluster < 0xFFF8 → IsChain crowdedVolume [cluster] := by
      intro cluster lower upper
      refine ⟨List.cons_ne_nil _ _, ?_, List.nodup_singleton _, ?_, fun _ member => absurd member (by simp)⟩
      · change IsEoc (crowdedVolume.fat cluster)
        rw [crowdedVolume_fat (by omega), if_neg (by omega)]
        exact (show 0xFFF8 ≤ 0xFFFF by decide)
      · intro c member
        obtain rfl := List.mem_singleton.mp member
        exact ⟨lower, Nat.lt_trans upper (by decide)⟩
    intro l member
    cases member with
    | inl isFirst => exact isFirst ▸ single 2 (by decide) (by decide)
    | inr isSecond => exact isSecond ▸ single 3 (by decide) (by decide)
  disjoint := by
    have apart : ∀ a b : Nat, a ≠ b → [a].Disjoint [b] := by
      intro a b different c inA inB
      rw [List.mem_singleton] at inA inB
      exact different (inA.symm.trans inB)
    intro l member l' member' different
    cases member with
    | inl isFirst =>
      cases member' with
      | inl isFirst' => exact absurd (isFirst.trans isFirst'.symm) different
      | inr isSecond => exact isFirst ▸ isSecond ▸ apart 2 3 (by decide)
    | inr isSecond =>
      cases member' with
      | inl isFirst => exact isFirst ▸ isSecond ▸ apart 3 2 (by decide)
      | inr isSecond' => exact absurd (isSecond.trans isSecond'.symm) different

/-- Chain `[2]` is freed, and its cluster is appended to chain `[3]`. -/
def crowdedRun : List (ChainOp × FatChains) :=
  let freed := chainStep crowded (.freeChain [2])
  [(.freeChain [2], freed), (.allocateBehind [3], chainStep freed (.allocateBehind [3]))]

theorem crowded_free_then_append : StepsMeet ChainSpec crowded crowdedRun := by
  have isRun : IsRun ChainStep crowded crowdedRun := by
    have left : [3] ∈ (chainStep crowded (.freeChain [2])).chains :=
      ⟨.inr rfl, fun same => absurd (show [3] = [2] from same) (by decide)⟩
    exact ⟨⟨.inr (.inl rfl), rfl⟩, ⟨.inr left, rfl⟩, trivial⟩
  have fits : EveryStep ChainFits crowded crowdedRun := by
    have isFree : (chainStep crowded (.freeChain [2])).volume.IsFree 2 :=
      ⟨by decide, by decide +kernel, by decide +kernel⟩
    exact ⟨show 2 < 0xFFF8 by decide, .inr ⟨by decide +kernel, 2, by decide, isFree⟩, trivial⟩
  exact (chains_run isRun crowded_ok).mpr fits

/-- The cluster that is appended to `[2]` is 0xFFF8, and the link to it reads as the end. -/
theorem crowded_append_lost : ChainsOk crowded ∧
    ChainStep crowded (.allocateBehind [2]) (chainStep crowded (.allocateBehind [2])) ∧
    ¬ StepsMeet ChainSpec crowded [(.allocateBehind [2], chainStep crowded (.allocateBehind [2]))] := by
  refine ⟨crowded_ok, ⟨.inr (.inl rfl), rfl⟩, fun meets => ?_⟩
  refine not_chainSpec_allocate crowded_ok (.inr ⟨[2], .inl rfl, rfl⟩) ?_ meets.1
  have inTable : ∀ {cluster}, crowdedVolume.IsFree cluster → cluster < 65792 := by
    intro cluster free
    exact Nat.lt_trans (show cluster < 65600 from free.2.1) (by decide)
  intro fits
  cases fits with
  | inl full =>
    refine full 0xFFF8 ⟨by decide, by decide, ?_⟩
    change crowdedVolume.fat 0xFFF8 = 0
    rw [crowdedVolume_fat (by decide), if_pos rfl]
  | inr room =>
    obtain ⟨-, cluster, small, free⟩ := room
    have zero : crowdedVolume.fat cluster = 0 := free.2.2
    rw [crowdedVolume_fat (inTable free), if_neg (by omega)] at zero
    exact absurd zero (by decide)

end ViOS.Fs
