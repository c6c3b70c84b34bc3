import ViOS.Task.ProcessMemory

/-! # The heap blocks a process holds

The records of a process and the vector they are stored in are all runs of blocks of
one heap, and the property of the mapped pages rests on these runs staying apart.

* `RunAt`, `RecordAt`, `VectorAt` — a run of taken blocks, a record, the vector.
* `Held` — the runs are apart, and some blocks are spare: taken for a record that is
  about to be written.
* `Held.zalloc`, `Held.push`, `Held.setRecord`, `Held.extended` — what the calls do to it.
-/

namespace ViOS.Process

open ViOS.Memory

/-! ## Runs of blocks -/

/-- The page of a block. -/
def blockPage (heap : Heap) (block : Nat) : Nat := heap.saddr / pagingPageSize + block

/-- `count` taken blocks from `start` on. -/
structure RunAt (heap : Heap) (start count : Nat) : Prop where
  positive : 0 < count
  inside : start + count ≤ heap.table.total
  taken : ∀ j, start ≤ j → j < start + count → TakenAt heap j

/-- The record describes the run of blocks from `start` on. -/
structure RecordAt (heap : Heap) (a : ProcessAllocation) (start : Nat) : Prop where
  ptr : a.ptr = blockAddress heap start
  ending : rangeEnd a.ptr a.size = blockAddress heap (start + blocksForSize a.size)
  run : RunAt heap start (blocksForSize a.size)

/-- The blocks of the vector's memory. -/
def vectorBlocks (vec : RecordVector) : Nat := blocksForSize (vec.tmElems * allocationSize)

/-- The vector's memory is the run of blocks from `start` on. -/
structure VectorAt (heap : Heap) (vec : RecordVector) (start : Nat) : Prop where
  memory : vec.memory = blockAddress heap start
  run : RunAt heap start (vectorBlocks vec)

/-- The vector as `vector_new` made it. -/
structure VectorNew (vec : RecordVector) : Prop where
  memory : vec.memory = 0
  elems : vec.elems = []
  tmElems : vec.tmElems = 0

theorem RunAt.mono {heap heap' : Heap} {start count : Nat} (run : RunAt heap start count)
    (same : SamePool heap heap')
    (keeps : ∀ j, start ≤ j → j < start + count → TakenAt heap j → TakenAt heap' j) :
    RunAt heap' start count where
  positive := run.positive
  inside := same.total ▸ run.inside
  taken := fun j lower upper => keeps j lower upper (run.taken j lower upper)

theorem blockAddress_same {heap heap' : Heap} (same : SamePool heap heap') (block : Nat) :
    blockAddress heap' block = blockAddress heap block := by
  unfold blockAddress
  rw [same.saddr]

theorem blockPage_same {heap heap' : Heap} (same : SamePool heap heap') (block : Nat) :
    blockPage heap' block = blockPage heap block := by
  unfold blockPage
  rw [same.saddr]

theorem blockAddress_eq_page {heap : Heap} (pool : Pool heap) (block : Nat) :
    blockAddress heap block = blockPage heap block * pagingPageSize := by
  have aligned := pool.aligned
  unfold blockAddress blockPage pagingPageSize viosHeapBlockSize at *
  omega

theorem blockAddress_ne_zero {heap : Heap} (pool : Pool heap) (block : Nat) :
    blockAddress heap block ≠ 0 := by
  have := pool.saddr_pos
  unfold blockAddress
  omega

theorem blockAddress_inj {heap : Heap} {a b : Nat} (same : blockAddress heap a = blockAddress heap b) :
    a = b := by
  unfold blockAddress viosHeapBlockSize at same
  omega

theorem blocksForSize_bounds {size : Nat} (small : size < addressSpace) (positive : 0 < blocksForSize size) :
    size ≤ blocksForSize size * viosHeapBlockSize ∧
      blocksForSize size * viosHeapBlockSize < size + viosHeapBlockSize := by
  unfold blocksForSize heapAlignValueToUpper viosHeapBlockSize addressSpace at *
  split at positive
  · rename_i aligned
    rw [if_pos aligned]
    omega
  · rename_i unaligned
    rw [if_neg unaligned]
    omega

/-- A size that needs some blocks ends in the last of them. -/
theorem rangeEnd_block {heap : Heap} (pool : Pool heap) {start size : Nat} (small : size < addressSpace)
    (positive : 0 < blocksForSize size) (inside : start + blocksForSize size ≤ heap.table.total) :
    rangeEnd (blockAddress heap start) size = blockAddress heap (start + blocksForSize size) := by
  have aligned := pool.aligned
  have fits := pool.blockAddress_lt inside
  obtain ⟨lower, upper⟩ := blocksForSize_bounds small positive
  have noWrap : (blockAddress heap start + size) % addressSpace = blockAddress heap start + size := by
    unfold blockAddress viosHeapBlockSize addressSpace at *
    omega
  unfold rangeEnd pagingAlignAddress
  rw [noWrap]
  unfold blockAddress pagingPageSize viosHeapBlockSize addressSpace at *
  split <;> omega

theorem RecordAt.of_run {heap : Heap} (pool : Pool heap) {start size : Nat} (small : size < addressSpace)
    (run : RunAt heap start (blocksForSize size)) (endPtr : Nat) :
    RecordAt heap ⟨blockAddress heap start, endPtr, size⟩ start where
  ptr := rfl
  ending := rangeEnd_block pool small run.positive run.inside
  run := run

theorem RecordAt.mono {heap heap' : Heap} {a : ProcessAllocation} {start : Nat}
    (record : RecordAt heap a start) (same : SamePool heap heap')
    (keeps : ∀ j, start ≤ j → j < start + blocksForSize a.size → TakenAt heap j → TakenAt heap' j) :
    RecordAt heap' a start where
  ptr := record.ptr.trans (blockAddress_same same _).symm
  ending := record.ending.trans (blockAddress_same same _).symm
  run := record.run.mono same keeps

/-- The pages of a record are those of its blocks. -/
theorem RecordAt.pageIn_iff {heap : Heap} (pool : Pool heap) {a : ProcessAllocation} {start : Nat}
    (record : RecordAt heap a start) (page : Nat) :
    PageIn a page ↔ ∃ j, start ≤ j ∧ j < start + blocksForSize a.size ∧ page = blockPage heap j := by
  unfold PageIn
  rw [record.ending, record.ptr, blockAddress_eq_page pool, blockAddress_eq_page pool]
  rw [Nat.mul_div_cancel _ (by decide), Nat.mul_div_cancel _ (by decide)]
  unfold blockPage
  constructor
  · rintro ⟨lower, upper⟩
    exact ⟨page - heap.saddr / pagingPageSize, by omega, by omega, by omega⟩
  · rintro ⟨j, lower, upper, rfl⟩
    omega

theorem not_pageIn_cleared (page : Nat) : ¬ PageIn .cleared page := by
  rintro ⟨-, upper⟩
  exact Nat.not_lt_zero _ upper

/-! ## What a process holds -/

/-- The page belongs to some record. -/
def Recorded (elems : List ProcessAllocation) (page : Nat) : Prop := ∃ a ∈ elems, PageIn a page

/-- The blocks of the records, those of the vector and the spare ones are taken and apart. -/
structure Held (heap : Heap) (vec : RecordVector) (spare : Nat → Prop) : Prop where
  pool : Pool heap
  records : ∀ a ∈ vec.elems, a = .cleared ∨ ∃ start, RecordAt heap a start
  apart : ∀ (i j : Nat) a b, vec.elems[i]? = some a → vec.elems[j]? = some b → i ≠ j →
    ∀ page, ¬ (PageIn a page ∧ PageIn b page)
  vector : VectorNew vec ∨ ∃ start, VectorAt heap vec start ∧
    ∀ j, start ≤ j → j < start + vectorBlocks vec →
      ¬ Recorded vec.elems (blockPage heap j) ∧ ¬ spare j
  spareTaken : ∀ j, spare j → j < heap.table.total ∧ TakenAt heap j
  spareApart : ∀ j, spare j → ¬ Recorded vec.elems (blockPage heap j)

theorem Held.recorded_taken {heap : Heap} {vec : RecordVector} {spare : Nat → Prop}
    (held : Held heap vec spare) {j : Nat} (recorded : Recorded vec.elems (blockPage heap j)) :
    TakenAt heap j ∧ j < heap.table.total := by
  obtain ⟨a, member, pageIn⟩ := recorded
  rcases held.records a member with rfl | ⟨start, record⟩
  · exact absurd pageIn (not_pageIn_cleared _)
  · obtain ⟨k, lower, upper, same⟩ := (record.pageIn_iff held.pool _).mp pageIn
    have inside := record.run.inside
    have block : j = k := by
      unfold blockPage at same
      omega
    subst block
    exact ⟨record.run.taken j lower upper, by omega⟩

/-- A change of the heap that keeps the blocks of the records. -/
theorem Held.records_mono {heap heap' : Heap} {vec : RecordVector} {spare : Nat → Prop}
    (held : Held heap vec spare) (same : SamePool heap heap')
    (keeps : ∀ j, Recorded vec.elems (blockPage heap j) → TakenAt heap j → TakenAt heap' j) :
    ∀ a ∈ vec.elems, a = .cleared ∨ ∃ start, RecordAt heap' a start := by
  intro a member
  refine (held.records a member).imp id ?_
  rintro ⟨start, record⟩
  refine ⟨start, record.mono same fun j lower upper isTaken => keeps j ⟨a, member, ?_⟩ isTaken⟩
  exact (record.pageIn_iff held.pool _).mpr ⟨j, lower, upper, rfl⟩

/-- The vector's run after a change of the heap that keeps its blocks. -/
theorem Held.vector_mono {heap heap' : Heap} {vec : RecordVector} {spare spare' : Nat → Prop}
    (held : Held heap vec spare) (same : SamePool heap heap')
    (keeps : ∀ j < heap.table.total, TakenAt heap j → TakenAt heap' j)
    (apart : ∀ j < heap.table.total, TakenAt heap j → ¬ spare' j) :
    VectorNew vec ∨ ∃ start, VectorAt heap' vec start ∧
      ∀ j, start ≤ j → j < start + vectorBlocks vec →
        ¬ Recorded vec.elems (blockPage heap' j) ∧ ¬ spare' j := by
  refine held.vector.imp id ?_
  rintro ⟨start, vector, clear⟩
  have inside := vector.run.inside
  refine ⟨start, ⟨vector.memory.trans (blockAddress_same same _).symm,
    vector.run.mono same fun j _ upper => keeps j (by omega)⟩, fun j lower upper => ⟨?_, ?_⟩⟩
  · rw [blockPage_same same]
    exact (clear j lower upper).1
  · exact apart j (by omega) (vector.run.taken j lower upper)

/-- Blocks that nobody had are taken. -/
theorem Held.grow {heap heap' : Heap} {vec : RecordVector} {fresh : Nat → Prop}
    (held : Held heap vec fun _ => False) (pool : Pool heap') (same : SamePool heap heap')
    (keeps : ∀ j < heap.table.total, TakenAt heap j → TakenAt heap' j)
    (takes : ∀ j, fresh j → j < heap.table.total ∧ TakenAt heap' j) (free : ∀ j, fresh j → ¬ TakenAt heap j) :
    Held heap' vec fresh where
  pool := pool
  records := held.records_mono same fun j recorded isTaken =>
    keeps j (held.recorded_taken recorded).2 isTaken
  apart := held.apart
  vector := held.vector_mono same keeps fun j _ isTaken isFresh => free j isFresh isTaken
  spareTaken := fun j isFresh => ⟨same.total ▸ (takes j isFresh).1, (takes j isFresh).2⟩
  spareApart := by
    intro j isFresh recorded
    rw [blockPage_same same] at recorded
    exact free j isFresh (held.recorded_taken recorded).1

/-! ## `kzalloc` -/

theorem kzalloc_spec {heap : Heap} (pool : Pool heap) (size : Nat) :
    kzalloc heap size = (0, heap) ∨ ∃ start heap', kzalloc heap size = (blockAddress heap start, heap') ∧
      Taken heap start (blocksForSize size) heap' := by
  unfold kzalloc heapZalloc
  rcases pool.malloc size with ⟨none, -⟩ | ⟨start, heap', result, -, taken⟩
  · exact .inl (by rw [none]; simp)
  · refine .inr ⟨start, heap'.effect (.memset (blockAddress heap start) size), ?_, ?_⟩
    · rw [result]
      exact if_neg (blockAddress_ne_zero pool start)
    · exact ⟨⟨taken.pool.saddr_pos, taken.pool.aligned, taken.pool.fits, taken.pool.eaddr_eq,
        taken.pool.typed⟩, ⟨taken.same.saddr, taken.same.eaddr, taken.same.total⟩, taken.inside,
        taken.positive, taken.run, taken.marked⟩

theorem Held.zalloc {heap heap' : Heap} {vec : RecordVector} {start count : Nat}
    (held : Held heap vec fun _ => False) (taken : Taken heap start count heap') :
    Held heap' vec fun j => start ≤ j ∧ j < start + count := by
  have inside := taken.inside
  exact held.grow taken.pool taken.same (fun j _ isTaken => (taken.taken_iff j).mpr (.inl isTaken))
    (fun j inRun => ⟨by omega, (taken.taken_iff j).mpr (.inr inRun)⟩)
    (fun j inRun => not_taken_of_free (taken.run.free j inRun.1 inRun.2))

theorem Held.extended {heap heap' : Heap} {vec : RecordVector} {start count wanted : Nat}
    (held : Held heap vec fun _ => False) (stays : StaysAt heap start count wanted heap') :
    Held heap' vec fun j => start + count ≤ j ∧ j < start + wanted := by
  have inside := stays.inside
  refine held.grow stays.pool stays.same
    (fun j inTable isTaken => (stays.taken_iff j inTable).mpr (.inl isTaken))
    (fun j inRun => ?_) (fun j inRun => stays.room j inRun.1 inRun.2)
  exact ⟨by omega, (stays.taken_iff j (by omega)).mpr (.inr (by omega))⟩

/-! ## `vector_push` -/

/-- A resize of the vector to hold one more element gets its memory, and the chain of the memory it
has is right. -/
def GrowthOk (heap : Heap) (vec : RecordVector) : Prop :=
  let wanted := blocksForSize (growthBytes vec)
  let start := (heapAddressToBlock heap vec.memory).toNat
  if vec.memory = 0 then 0 ≤ heapGetStartBlock heap wanted
  else ChainRight heap start (vectorBlocks vec) wanted ∧
    (vectorBlocks vec = wanted ∨
      heapIsBlockRangeFree heap (start + vectorBlocks vec) (start + wanted - 1) = true ∨
      0 ≤ heapGetStartBlock heap wanted)

theorem krealloc_null {heap : Heap} (pool : Pool heap) (size : Nat) :
    krealloc heap 0 size = some (heapMalloc heap size) := by
  have positive := pool.saddr_pos
  unfold krealloc
  simp only [Nat.zero_sub, ite_self]
  exact if_neg (by omega)

theorem krealloc_block {heap : Heap} (pool : Pool heap) {start : Nat} (inside : start < heap.table.total)
    (size : Nat) : krealloc heap (blockAddress heap start) size =
      heapRealloc heap (blockAddress heap start) size := by
  have ending := pool.eaddr_eq
  have before : ¬ heap.eaddr ≤ blockAddress heap start := by
    unfold blockAddress viosHeapBlockSize at *
    omega
  unfold krealloc
  simp only [before, if_false]
  refine if_pos ⟨?_, by omega⟩
  unfold blockAddress
  omega

theorem growthBytes_ne_zero (vec : RecordVector) : growthBytes vec ≠ 0 := by
  unfold growthBytes reservedElements allocationSize
  omega

/-- The vector with memory for more elements. -/
def RecordVector.grown (vec : RecordVector) (memory : Nat) : RecordVector :=
  { vec with memory, tmElems := reservedElements + (vec.elems.length + 1) }

theorem vectorResize_grown {heap heap' : Heap} {vec : RecordVector} {memory : Nat}
    (full : ¬ vec.tmElems > vec.elems.length + 1) (notNull : memory ≠ 0)
    (result : krealloc heap vec.memory (growthBytes vec) = some (memory, heap')) :
    vectorResize vec heap = some (0, vec.grown memory, heap') := by
  unfold vectorResize
  rw [if_neg full, result]
  simp only [notNull, if_false]
  rfl

/-- A new run for the vector, with the records' and the spare blocks kept. -/
theorem Held.revector {heap heap' : Heap} {vec : RecordVector} {spare : Nat → Prop} {start : Nat}
    (held : Held heap vec spare) (pool : Pool heap') (same : SamePool heap heap')
    (keeps : ∀ j < heap.table.total, Recorded vec.elems (blockPage heap j) ∨ spare j →
      TakenAt heap j → TakenAt heap' j)
    (run : RunAt heap' start (blocksForSize (growthBytes vec)))
    (clear : ∀ j, start ≤ j → j < start + blocksForSize (growthBytes vec) →
      ¬ Recorded vec.elems (blockPage heap j) ∧ ¬ spare j) :
    Held heap' (vec.grown (blockAddress heap start)) spare where
  pool := pool
  records := held.records_mono same fun j recorded isTaken =>
    keeps j (held.recorded_taken recorded).2 (.inl recorded) isTaken
  apart := held.apart
  vector := by
    refine .inr ⟨start, ⟨(blockAddress_same same start).symm, run⟩, fun j lower upper => ?_⟩
    rw [blockPage_same same]
    exact clear j lower upper
  spareTaken := by
    intro j isSpare
    obtain ⟨inside, isTaken⟩ := held.spareTaken j isSpare
    exact ⟨same.total ▸ inside, keeps j inside (.inr isSpare) isTaken⟩
  spareApart := by
    intro j isSpare
    rw [blockPage_same same]
    exact held.spareApart j isSpare

/-- A block that was not taken holds nothing of the process. -/
theorem Held.clear_of_free {heap : Heap} {vec : RecordVector} {spare : Nat → Prop}
    (held : Held heap vec spare) {j : Nat} (free : ¬ TakenAt heap j) :
    ¬ Recorded vec.elems (blockPage heap j) ∧ ¬ spare j :=
  ⟨fun recorded => free (held.recorded_taken recorded).1, fun isSpare => free (held.spareTaken j isSpare).2⟩

/-- The vector gets its first memory. -/
theorem Held.resize_new {heap : Heap} {vec : RecordVector} {spare : Nat → Prop}
    (held : Held heap vec spare) (isNew : VectorNew vec) (growth : GrowthOk heap vec) :
    ∃ start heap', krealloc heap vec.memory (growthBytes vec) = some (blockAddress heap start, heap') ∧
      SamePool heap heap' ∧ Held heap' (vec.grown (blockAddress heap start)) spare := by
  unfold GrowthOk at growth
  rw [isNew.memory] at growth
  simp only [if_true] at growth
  rw [isNew.memory, krealloc_null held.pool]
  rcases held.pool.malloc (growthBytes vec) with ⟨-, negative⟩ | ⟨start, heap', result, -, taken⟩
  · omega
  · refine ⟨start, heap', by rw [result], taken.same, held.revector taken.pool taken.same ?_ ?_ ?_⟩
    · exact fun j _ _ isTaken => (taken.taken_iff j).mpr (.inl isTaken)
    · exact ⟨taken.positive, taken.same.total ▸ taken.inside,
        fun j lower upper => (taken.taken_iff j).mpr (.inr ⟨lower, upper⟩)⟩
    · exact fun j lower upper => held.clear_of_free (not_taken_of_free (taken.run.free j lower upper))

/-- The vector's memory grows. -/
theorem Held.resize_at {heap : Heap} {vec : RecordVector} {spare : Nat → Prop} {start : Nat}
    (held : Held heap vec spare) (vector : VectorAt heap vec start)
    (clear : ∀ j, start ≤ j → j < start + vectorBlocks vec →
      ¬ Recorded vec.elems (blockPage heap j) ∧ ¬ spare j)
    (growth : GrowthOk heap vec) :
    ∃ new heap', krealloc heap vec.memory (growthBytes vec) = some (blockAddress heap new, heap') ∧
      SamePool heap heap' ∧ Held heap' (vec.grown (blockAddress heap new)) spare := by
  have inside := vector.run.inside
  have positive := vector.run.positive
  unfold GrowthOk at growth
  rw [vector.memory, if_neg (blockAddress_ne_zero held.pool start),
    held.pool.addressToBlock_eq (by omega), Int.toNat_natCast] at growth
  obtain ⟨right, provided⟩ := growth
  rw [vector.memory, krealloc_block held.pool (by omega)]
  rcases held.pool.realloc positive inside vector.run.taken (growthBytes_ne_zero vec) right with
    ⟨heap', result, stays, -⟩ | ⟨-, negative, notEqual, notFree⟩ | ⟨new, heap', result, -, moves, -, -⟩
  · have roomInside := stays.inside
    have grows := right.grows
    refine ⟨start, heap', result, stays.same, held.revector stays.pool stays.same ?_ ?_ ?_⟩
    · exact fun j inTable _ isTaken => (stays.taken_iff j inTable).mpr (.inl isTaken)
    · exact ⟨by omega, stays.same.total ▸ roomInside,
        fun j lower upper => (stays.taken_iff j (by omega)).mpr (.inr ⟨lower, upper⟩)⟩
    · intro j lower upper
      by_cases old : j < start + vectorBlocks vec
      · exact clear j lower old
      · exact held.clear_of_free (stays.room j (by omega) upper)
  · -- krealloc fails only when the vector was promised no room
    rcases provided with equal | free | found
    · exact absurd equal notEqual
    · exact absurd free notFree
    · omega
  · have newInside := moves.inside
    refine ⟨new, heap', result, moves.same, held.revector moves.pool moves.same ?_ ?_ ?_⟩
    · intro j inTable holds isTaken
      refine (moves.taken_iff j inTable).mpr (.inl ⟨isTaken, fun inRun => ?_⟩)
      obtain ⟨notRecorded, notSpare⟩ := clear j inRun.1 inRun.2
      exact holds.elim notRecorded notSpare
    · exact ⟨by have := right.grows; omega, moves.same.total ▸ newInside,
        fun j lower upper => (moves.taken_iff j (by omega)).mpr (.inr ⟨lower, upper⟩)⟩
    · exact fun j lower upper => held.clear_of_free (moves.room j lower upper)

theorem Held.resize {heap : Heap} {vec : RecordVector} {spare : Nat → Prop} (held : Held heap vec spare)
    (growth : vec.tmElems ≤ vec.elems.length + 1 → GrowthOk heap vec) :
    ∃ vec' heap', vectorResize vec heap = some (0, vec', heap') ∧ vec'.elems = vec.elems ∧
      vec'.memory ≠ 0 ∧ SamePool heap heap' ∧ Held heap' vec' spare := by
  by_cases room : vec.tmElems > vec.elems.length + 1
  · refine ⟨vec, heap, if_pos room, rfl, ?_, .refl heap, held⟩
    rcases held.vector with isNew | ⟨start, vector, -⟩
    · have := isNew.tmElems
      omega
    · rw [vector.memory]
      exact blockAddress_ne_zero held.pool start
  · have growth := growth (by omega)
    have grown : ∃ start heap', krealloc heap vec.memory (growthBytes vec) =
        some (blockAddress heap start, heap') ∧ SamePool heap heap' ∧
          Held heap' (vec.grown (blockAddress heap start)) spare := by
      rcases held.vector with isNew | ⟨start, vector, clear⟩
      · exact held.resize_new isNew growth
      · exact held.resize_at vector clear growth
    obtain ⟨start, heap', result, same, held'⟩ := grown
    have notNull := blockAddress_ne_zero held.pool start
    exact ⟨_, heap', vectorResize_grown room notNull result, rfl, notNull, same, held'⟩

theorem recorded_append_cleared (elems : List ProcessAllocation) (page : Nat) :
    Recorded (elems ++ [.cleared]) page ↔ Recorded elems page := by
  unfold Recorded
  simp only [List.mem_append, List.mem_singleton]
  constructor
  · rintro ⟨a, member | rfl, pageIn⟩
    · exact ⟨a, member, pageIn⟩
    · exact absurd pageIn (not_pageIn_cleared page)
  · rintro ⟨a, member, pageIn⟩
    exact ⟨a, .inl member, pageIn⟩

theorem Held.append_cleared {heap : Heap} {vec : RecordVector} {spare : Nat → Prop}
    (held : Held heap vec spare) (notNull : vec.memory ≠ 0) :
    Held heap { vec with elems := vec.elems ++ [.cleared] } spare where
  pool := held.pool
  records := by
    intro a member
    rcases List.mem_append.mp member with member | isNew
    · exact held.records a member
    · exact .inl (List.mem_singleton.mp isNew)
  apart := by
    intro i j a b atI atJ different page both
    -- a record past the end of the old list is the cleared one
    have old : ∀ {k : Nat} {c}, (vec.elems ++ [ProcessAllocation.cleared])[k]? = some c → PageIn c page →
        vec.elems[k]? = some c := by
      intro k c atK pageIn
      rcases Nat.lt_or_ge k vec.elems.length with lt | ge
      · rwa [List.getElem?_append_left lt] at atK
      · rw [List.getElem?_append_right ge] at atK
        have isNew := List.mem_singleton.mp (List.mem_of_getElem? atK)
        exact absurd (isNew ▸ pageIn) (not_pageIn_cleared page)
    exact held.apart i j a b (old atI both.1) (old atJ both.2) different page both
  vector := by
    rcases held.vector with isNew | ⟨start, vector, clear⟩
    · exact absurd isNew.memory notNull
    · refine .inr ⟨start, ⟨vector.memory, vector.run⟩, fun j lower upper => ?_⟩
      rw [recorded_append_cleared]
      exact clear j lower upper
  spareTaken := held.spareTaken
  spareApart := by
    intro j isSpare
    rw [recorded_append_cleared]
    exact held.spareApart j isSpare

/-- `vector_push` of a cleared record. -/
theorem Held.push {heap : Heap} {vec : RecordVector} {spare : Nat → Prop} (held : Held heap vec spare)
    (growth : vec.tmElems ≤ vec.elems.length + 1 → GrowthOk heap vec) :
    ∃ vec' heap', vectorPush vec .cleared heap = some ((vec.elems.length : Int), vec', heap') ∧
      vec'.elems = vec.elems ++ [.cleared] ∧ SamePool heap heap' ∧ Held heap' vec' spare := by
  obtain ⟨vec', heap', result, elems, notNull, same, held'⟩ := held.resize growth
  refine ⟨{ vec' with elems := vec'.elems ++ [.cleared] }, heap', ?_, by rw [elems], same,
    held'.append_cleared notNull⟩
  unfold vectorPush
  rw [result]
  simp only [lt_irrefl, if_false, elems]

/-! ## Writing a record -/

/-- A record is written over an old one: its blocks are the old one's and spare ones. -/
theorem Held.setRecord {heap : Heap} {vec : RecordVector} {spare : Nat → Prop} {index : Nat}
    {old new : ProcessAllocation} (held : Held heap vec spare) (atIndex : vec.elems[index]? = some old)
    (isRecord : new = .cleared ∨ ∃ start, RecordAt heap new start)
    (within : ∀ page, PageIn new page → PageIn old page ∨ ∃ j, spare j ∧ page = blockPage heap j) :
    Held heap { vec with elems := vec.elems.set index new } fun _ => False where
  pool := held.pool
  records := by
    intro a member
    rcases List.mem_or_eq_of_mem_set member with member | rfl
    · exact held.records a member
    · exact isRecord
  apart := by
    -- the new record lies in the old one and in spare blocks, and both are apart from the others
    have apartNew : ∀ (k : Nat) c, vec.elems[k]? = some c → k ≠ index →
        ∀ page, PageIn c page → ¬ PageIn new page := by
      intro k c atK different page inC inNew
      rcases within page inNew with inOld | ⟨j, isSpare, rfl⟩
      · exact held.apart k index c old atK atIndex different page ⟨inC, inOld⟩
      · exact held.spareApart j isSpare ⟨c, List.mem_of_getElem? atK, inC⟩
    intro i j a b atI atJ different page both
    have written : ∀ {c}, (vec.elems.set index new)[index]? = some c → c = new := by
      intro c atSet
      rw [List.getElem?_set_self (List.getElem?_eq_some_iff.mp atIndex).1] at atSet
      exact (Option.some.inj atSet).symm
    by_cases isI : i = index
    · obtain rfl := written (isI ▸ atI)
      rw [List.getElem?_set_ne (by omega)] at atJ
      exact apartNew j b atJ (by omega) page both.2 both.1
    · rw [List.getElem?_set_ne (by omega)] at atI
      by_cases isJ : j = index
      · obtain rfl := written (isJ ▸ atJ)
        exact apartNew i a atI isI page both.1 both.2
      · rw [List.getElem?_set_ne (by omega)] at atJ
        exact held.apart i j a b atI atJ different page both
  vector := by
    rcases held.vector with isNew | ⟨start, vector, clear⟩
    · rw [isNew.elems] at atIndex
      exact absurd atIndex (by simp)
    · refine .inr ⟨start, ⟨vector.memory, vector.run⟩, fun j lower upper => ⟨?_, id⟩⟩
      rintro ⟨a, member, pageIn⟩
      obtain ⟨notRecorded, notSpare⟩ := clear j lower upper
      rcases List.mem_or_eq_of_mem_set member with member | rfl
      · exact notRecorded ⟨a, member, pageIn⟩
      · rcases within _ pageIn with inOld | ⟨k, isSpare, same⟩
        · exact notRecorded ⟨old, List.mem_of_getElem? atIndex, inOld⟩
        · have block : j = k := by
            unfold blockPage at same
            omega
          exact notSpare (block ▸ isSpare)
  spareTaken := by simp
  spareApart := by simp

/-- The pages of the records after one of them was written. -/
theorem Held.recorded_set {heap : Heap} {vec : RecordVector} {spare : Nat → Prop} {index : Nat}
    {old : ProcessAllocation} (held : Held heap vec spare) (atIndex : vec.elems[index]? = some old)
    (new : ProcessAllocation) (page : Nat) :
    Recorded (vec.elems.set index new) page ↔
      PageIn new page ∨ (Recorded vec.elems page ∧ ¬ PageIn old page) := by
  have inList := (List.getElem?_eq_some_iff.mp atIndex).1
  constructor
  · rintro ⟨a, member, pageIn⟩
    obtain ⟨k, atK⟩ := List.getElem?_of_mem member
    by_cases here : k = index
    · subst here
      rw [List.getElem?_set_self inList] at atK
      exact .inl (Option.some.inj atK ▸ pageIn)
    · rw [List.getElem?_set_ne (by omega)] at atK
      refine .inr ⟨⟨a, List.mem_of_getElem? atK, pageIn⟩, fun inOld => ?_⟩
      exact held.apart k index a old atK atIndex here page ⟨pageIn, inOld⟩
  · rintro (inNew | ⟨⟨a, member, pageIn⟩, notOld⟩)
    · exact ⟨new, List.mem_of_getElem? (List.getElem?_set_self inList), inNew⟩
    · obtain ⟨k, atK⟩ := List.getElem?_of_mem member
      have elsewhere : index ≠ k := by
        rintro rfl
        rw [atIndex] at atK
        exact notOld (Option.some.inj atK ▸ pageIn)
      rw [← List.getElem?_set_ne elsewhere] at atK
      exact ⟨a, List.mem_of_getElem? atK, pageIn⟩

/-- A pointer that is not null is recorded once. -/
theorem Held.record_unique {heap : Heap} {vec : RecordVector} {spare : Nat → Prop} {i j : Nat}
    {a b : ProcessAllocation} (held : Held heap vec spare) (atI : vec.elems[i]? = some a)
    (atJ : vec.elems[j]? = some b) (same : a.ptr = b.ptr) (notNull : a.ptr ≠ 0) : i = j := by
  by_contra different
  have first : ∀ c ∈ vec.elems, c.ptr ≠ 0 → PageIn c (c.ptr / pagingPageSize) := by
    intro c member notNull
    rcases held.records c member with rfl | ⟨start, record⟩
    · exact absurd rfl notNull
    · have positive := record.run.positive
      refine (record.pageIn_iff held.pool _).mpr ⟨start, Nat.le_refl _, by omega, ?_⟩
      rw [record.ptr, blockAddress_eq_page held.pool, Nat.mul_div_cancel _ (by decide)]
  refine held.apart i j a b atI atJ different (a.ptr / pagingPageSize) ⟨?_, ?_⟩
  · exact first a (List.mem_of_getElem? atI) notNull
  · rw [same]
    exact first b (List.mem_of_getElem? atJ) (same ▸ notNull)

/-- `process_allocation_unjoin` clears the one record of the pointer. -/
theorem Held.unjoin_eq {heap : Heap} {vec : RecordVector} {spare : Nat → Prop} {index : Nat}
    {a : ProcessAllocation} (held : Held heap vec spare) (atIndex : vec.elems[index]? = some a)
    (notNull : a.ptr ≠ 0) :
    (vec.elems.map fun b => if b.ptr = a.ptr then .cleared else b) = vec.elems.set index .cleared := by
  refine List.ext_getElem? fun k => ?_
  rw [List.getElem?_map]
  by_cases here : k = index
  · subst here
    rw [atIndex, List.getElem?_set_self (List.getElem?_eq_some_iff.mp atIndex).1]
    simp
  · rw [List.getElem?_set_ne (by omega)]
    cases atK : vec.elems[k]? with
    | none => rfl
    | some b =>
      have other : b.ptr ≠ a.ptr := fun same =>
        here (held.record_unique atK atIndex same (same ▸ notNull))
      simp [other]

end ViOS.Process
