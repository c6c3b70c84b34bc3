import ViOS.Memory.Paging
import Mathlib.Data.Set.BooleanAlgebra
import Mathlib.Order.CompletePartialOrder
import Mathlib.Order.Interval.Set.Basic
import Mathlib.Tactic.Basic

/-! # The layout of the kernel's heap

`kheap_init` takes the first usable memory region that is long enough, puts the
heap's block table at its start and the heap's blocks behind the table.  It sizes the
table in two steps: one byte for every block of the region, then one byte for every
block that these bytes leave.  The number of entries the table really has is computed
last, from the pages between the two aligned ends.

* `kheapLayout` — the layout as the code computes it.
* `LayoutSound` — what it has to satisfy.
* `layoutSound_iff_tableFits` — the exact condition on the region.
-/

namespace ViOS.Memory

/-! ## The memory map -/

/-- `struct e820_entry`. -/
structure E820Entry where
  baseAddr : UInt64
  length : UInt64
  type : UInt32
  deriving DecidableEq, Repr

/-- The address after the region's last byte, before it is cut to 64 bits. -/
def E820Entry.endAddr (entry : E820Entry) : Nat := entry.baseAddr.toNat + entry.length.toNat

/-- The addresses of the region. -/
def E820Entry.region (entry : E820Entry) : Set Nat := Set.Ico entry.baseAddr.toNat entry.endAddr

/-- `kheap_get_allowable_memory_region_for_minimal_heap`: the index of the entry. -/
def kheapGetAllowableMemoryRegionForMinimalHeap (map : List E820Entry) : Option Nat :=
  map.findIdx? fun current => current.type = 1 ∧ viosHeapMinimumSizeBytes < current.length.toNat

/-! ## The layout -/

/-- The difference of two pointers as a `size_t`. -/
def sizeBetween (endPtr ptr : Nat) : Nat := (endPtr + (addressSpace - ptr)) % addressSpace

/-- What `kheap_init` passes to `heap_create`. -/
structure KheapLayout where
  heapTableAddress : Nat
  heapAddress : Nat
  heapEndAddress : Nat
  totalTableEntries : Nat
  deriving DecidableEq, Repr

/-- The first part of `kheap_init`.  An entry of the table is one byte. -/
def kheapLayout (entry : E820Entry) : KheapLayout :=
  let address := entry.baseAddr.toNat
  let endAddress := entry.endAddr % addressSpace
  let heapTableAddress :=
    if address < viosMinimalHeapTableAddress then viosMinimalHeapTableAddress else address
  let totalHeapSize := sizeBetween endAddress heapTableAddress
  let totalHeapBlocks := totalHeapSize / viosHeapBlockSize
  let heapDataSize := totalHeapSize - totalHeapBlocks
  let totalHeapDataBlocks := heapDataSize / viosHeapBlockSize
  let heapAddress := (heapTableAddress + totalHeapDataBlocks) % addressSpace
  let heapAddress :=
    if !pagingIsAligned heapAddress then pagingAlignAddress heapAddress else heapAddress
  let heapEndAddress :=
    if !pagingIsAligned endAddress then pagingAlignToLowerPage endAddress else endAddress
  let size := sizeBetween heapEndAddress heapAddress
  { heapTableAddress, heapAddress, heapEndAddress, totalTableEntries := size / viosHeapBlockSize }

/-- The bytes of the block table. -/
def KheapLayout.table (layout : KheapLayout) : Set Nat :=
  Set.Ico layout.heapTableAddress (layout.heapTableAddress + layout.totalTableEntries)

/-- The bytes of the blocks. -/
def KheapLayout.data (layout : KheapLayout) : Set Nat :=
  Set.Ico layout.heapAddress layout.heapEndAddress

/-- The table and the blocks share no byte and lie in the region, and every block has its entry. -/
structure LayoutSound (entry : E820Entry) (layout : KheapLayout) : Prop where
  disjoint : Disjoint layout.table layout.data
  table : layout.table ⊆ entry.region
  data : layout.data ⊆ entry.region
  oneEach : layout.heapAddress + layout.totalTableEntries * viosHeapBlockSize = layout.heapEndAddress

/-! ## When it is sound -/

/-- The bytes from the start of the table to the end of the region. -/
def usableBytes (base endAddr : Nat) : Nat := endAddr - max base viosMinimalHeapTableAddress

/-- The blocks a table of one byte per block of the region leaves. -/
def reservedEntries (base endAddr : Nat) : Nat :=
  (usableBytes base endAddr - usableBytes base endAddr / viosHeapBlockSize) / viosHeapBlockSize

/-- The bytes from the end of the reserved entries to the next page. -/
def paddingBytes (base endAddr : Nat) : Nat :=
  (pagingPageSize - (max base viosMinimalHeapTableAddress + reservedEntries base endAddr) %
    pagingPageSize) % pagingPageSize

/-- The bytes of the region do not hold one block more than the table has room for, each with its
byte of the table. -/
def TableFits (entry : E820Entry) : Prop :=
  let base := entry.baseAddr.toNat
  let room := reservedEntries base entry.endAddr + paddingBytes base entry.endAddr
  usableBytes base entry.endAddr <
    (viosHeapBlockSize + 1) * room + viosHeapBlockSize + entry.endAddr % pagingPageSize

instance (entry : E820Entry) : Decidable (TableFits entry) :=
  inferInstanceAs (Decidable (_ < _))

theorem chosen_long {map : List E820Entry} {index : Nat} {entry : E820Entry}
    (chosen : kheapGetAllowableMemoryRegionForMinimalHeap map = some index)
    (found : map[index]? = some entry) : viosHeapMinimumSizeBytes < entry.length.toNat := by
  obtain ⟨inMap, accepted, -⟩ := List.findIdx?_eq_some_iff_getElem.mp chosen
  obtain ⟨-, rfl⟩ := List.getElem?_eq_some_iff.mp found
  exact (of_decide_eq_true accepted).2

theorem sizeBetween_eq {ptr endPtr : Nat} (ordered : ptr ≤ endPtr) (fits : endPtr < addressSpace) :
    sizeBetween endPtr ptr = endPtr - ptr := by
  have same : endPtr + (addressSpace - ptr) = (endPtr - ptr) + addressSpace := by omega
  rw [sizeBetween, same, Nat.add_mod_right, Nat.mod_eq_of_lt (by omega)]

theorem alignAddress_eq {ptr : Nat} (fits : ptr + pagingPageSize ≤ addressSpace) :
    (if !pagingIsAligned ptr then pagingAlignAddress ptr else ptr) =
      ptr + (pagingPageSize - ptr % pagingPageSize) % pagingPageSize := by
  unfold pagingIsAligned pagingAlignAddress pagingPageSize addressSpace at *
  by_cases aligned : ptr % 4096 = 0
  · simp [aligned]
  · simp only [aligned, decide_false, Bool.not_false, if_true, ne_eq, not_false_eq_true]
    omega

theorem alignToLowerPage_eq (addr : Nat) :
    (if !pagingIsAligned addr then pagingAlignToLowerPage addr else addr) =
      addr - addr % pagingPageSize := by
  unfold pagingIsAligned pagingAlignToLowerPage
  by_cases aligned : addr % pagingPageSize = 0 <;> simp [aligned]

theorem reservedEntries_le (base endAddr : Nat) :
    viosHeapBlockSize * reservedEntries base endAddr ≤ usableBytes base endAddr :=
  (Nat.mul_div_le _ _).trans (Nat.sub_le _ _)

theorem paddingBytes_lt (base endAddr : Nat) : paddingBytes base endAddr < pagingPageSize :=
  Nat.mod_lt _ (by decide)

/-- The addresses of the layout when the region is long enough and does not wrap. -/
structure Placed (entry : E820Entry) (layout : KheapLayout) : Prop where
  heapTableAddress : layout.heapTableAddress = max entry.baseAddr.toNat viosMinimalHeapTableAddress
  heapAddress : layout.heapAddress = layout.heapTableAddress +
    reservedEntries entry.baseAddr.toNat entry.endAddr + paddingBytes entry.baseAddr.toNat entry.endAddr
  heapEndAddress : layout.heapEndAddress = entry.endAddr - entry.endAddr % pagingPageSize
  ordered : layout.heapAddress < layout.heapEndAddress
  oneEach : layout.heapAddress + layout.totalTableEntries * viosHeapBlockSize = layout.heapEndAddress

/-- The blocks start behind the reserved entries and their padding, and end with the last full
page of the region. -/
theorem kheapLayout_placed {entry : E820Entry} (long : viosHeapMinimumSizeBytes < entry.length.toNat)
    (noWrap : entry.endAddr < addressSpace) : Placed entry (kheapLayout entry) := by
  set base := entry.baseAddr.toNat with baseDef
  set tableStart := max base viosMinimalHeapTableAddress with tableStartDef
  have start : (if base < viosMinimalHeapTableAddress then viosMinimalHeapTableAddress else base) =
      tableStart := by
    rw [tableStartDef, max_def]
    split_ifs <;> omega
  -- the minimum length leaves more than the reserved region and the table together
  have usable : viosHeapMinimumSizeBytes < viosMinimalHeapTableAddress + usableBytes base entry.endAddr ∧
      tableStart + usableBytes base entry.endAddr = entry.endAddr := by
    have : entry.endAddr = base + entry.length.toNat := rfl
    unfold usableBytes viosHeapMinimumSizeBytes viosMinimalHeapTableAddress at *
    omega
  have size : sizeBetween (entry.endAddr % addressSpace) tableStart = usableBytes base entry.endAddr := by
    rw [Nat.mod_eq_of_lt noWrap, sizeBetween_eq (by omega) noWrap]
    omega
  have reserved := reservedEntries_le base entry.endAddr
  have padding := paddingBytes_lt base entry.endAddr
  -- no sum of the layout wraps
  have behind : (tableStart + reservedEntries base entry.endAddr) % addressSpace =
      tableStart + reservedEntries base entry.endAddr := by
    apply Nat.mod_eq_of_lt
    unfold viosHeapBlockSize at reserved
    omega
  have heapAddress : (kheapLayout entry).heapAddress =
      tableStart + reservedEntries base entry.endAddr + paddingBytes base entry.endAddr := by
    simp only [kheapLayout, ← baseDef, start, size]
    rw [← reservedEntries, behind, alignAddress_eq]
    · rfl
    · unfold viosHeapBlockSize viosHeapMinimumSizeBytes viosMinimalHeapTableAddress pagingPageSize at *
      omega
  have heapEndAddress : (kheapLayout entry).heapEndAddress =
      entry.endAddr - entry.endAddr % pagingPageSize := by
    simp only [kheapLayout, Nat.mod_eq_of_lt noWrap]
    exact alignToLowerPage_eq entry.endAddr
  have ordered : (kheapLayout entry).heapAddress < (kheapLayout entry).heapEndAddress := by
    rw [heapAddress, heapEndAddress]
    unfold viosHeapBlockSize viosHeapMinimumSizeBytes viosMinimalHeapTableAddress pagingPageSize at *
    omega
  have entries : (kheapLayout entry).totalTableEntries =
      ((kheapLayout entry).heapEndAddress - (kheapLayout entry).heapAddress) / viosHeapBlockSize := by
    rw [← sizeBetween_eq ordered.le (by omega)]
    rfl
  refine ⟨start, ?_, heapEndAddress, ordered, ?_⟩
  · exact heapAddress.trans (by rw [← start]; rfl)
  · rw [entries]
    have aligned : (kheapLayout entry).heapAddress % viosHeapBlockSize = 0 := by
      rw [heapAddress]
      unfold paddingBytes viosHeapBlockSize pagingPageSize
      omega
    have endAligned : (kheapLayout entry).heapEndAddress % viosHeapBlockSize = 0 := by
      rw [heapEndAddress]
      unfold viosHeapBlockSize pagingPageSize
      omega
    unfold viosHeapBlockSize at aligned endAligned ⊢
    omega

/-- Only the size of the table can be wrong: it must end before the blocks start. -/
theorem layoutSound_iff_tableEnd {entry : E820Entry} {layout : KheapLayout}
    (placed : Placed entry layout) :
    LayoutSound entry layout ↔
      layout.heapTableAddress + layout.totalTableEntries ≤ layout.heapAddress := by
  have tableStart := placed.heapTableAddress
  have heapAddress := placed.heapAddress
  have heapEnd := placed.heapEndAddress
  have ordered := placed.ordered
  constructor
  · intro sound
    by_contra overlap
    have inTable : layout.heapAddress ∈ layout.table := ⟨by omega, by omega⟩
    have inData : layout.heapAddress ∈ layout.data := ⟨le_rfl, ordered⟩
    exact Set.disjoint_left.mp sound.disjoint inTable inData
  · intro apart
    constructor
    case disjoint =>
      refine Set.disjoint_left.mpr fun byte inTable inData => ?_
      have := inTable.2
      have := inData.1
      omega
    case table =>
      intro byte inTable
      exact ⟨by have := inTable.1; omega, by have := inTable.2; omega⟩
    case data =>
      intro byte inData
      exact ⟨by have := inData.1; omega, by have := inData.2; omega⟩
    case oneEach => exact placed.oneEach

/-- The layout is sound exactly when the padding takes up the entries that the reserved table
does not have room for. -/
theorem layoutSound_iff_tableFits (map : List E820Entry) (index : Nat) (entry : E820Entry)
    (chosen : kheapGetAllowableMemoryRegionForMinimalHeap map = some index)
    (found : map[index]? = some entry) (noWrap : entry.endAddr < addressSpace) :
    LayoutSound entry (kheapLayout entry) ↔ TableFits entry := by
  have long := chosen_long chosen found
  have placed := kheapLayout_placed long noWrap
  rw [layoutSound_iff_tableEnd placed, placed.heapAddress, TableFits]
  have usable : (kheapLayout entry).heapTableAddress +
      usableBytes entry.baseAddr.toNat entry.endAddr = entry.endAddr := by
    have ordered := placed.ordered
    rw [placed.heapAddress, placed.heapEndAddress] at ordered
    rw [usableBytes, ← placed.heapTableAddress]
    omega
  have blocks := placed.oneEach
  rw [placed.heapAddress, placed.heapEndAddress] at blocks
  unfold viosHeapBlockSize at blocks ⊢
  omega

theorem layoutSound_smallMachine :
    let entry : E820Entry := ⟨0x100000, 0x7EE0000, 1⟩
    LayoutSound entry (kheapLayout entry) :=
  (layoutSound_iff_tableFits [⟨0, 0x9FC00, 1⟩, ⟨0x100000, 0x7EE0000, 1⟩] 1 _ (by decide) rfl
    (by decide)).mpr (by decide)

/-- The table of this region has 28673 entries and room for 28672: the last one is the first byte
of the first block. -/
theorem layout_overlaps :
    let map : List E820Entry := [⟨0, 0x9FC00, 1⟩, ⟨0x1000000, 117473280, 1⟩]
    let entry : E820Entry := ⟨0x1000000, 117473280, 1⟩
    kheapGetAllowableMemoryRegionForMinimalHeap map = some 1 ∧ map[1]? = some entry ∧
      entry.endAddr < addressSpace ∧ ¬ LayoutSound entry (kheapLayout entry) := by
  refine ⟨by decide, rfl, by decide, fun sound => ?_⟩
  have inTable : 16805888 ∈ (kheapLayout ⟨0x1000000, 117473280, 1⟩).table := by
    exact ⟨by decide, by decide⟩
  have inData : 16805888 ∈ (kheapLayout ⟨0x1000000, 117473280, 1⟩).data := by
    exact ⟨by decide, by decide⟩
  exact Set.disjoint_left.mp sound.disjoint inTable inData

end ViOS.Memory
