import ViOS.Fs.File

/-! # The FAT16 driver

`fat16.c` over whatever carries out its stream calls.  Most results are about the exact
store, a disk that behaves as `streamer.h` documents: a read returns the bytes at its
position, a write replaces exactly those bytes, and an access past the end of the disk
fails and changes nothing.  The stream of `streamer.c` is not one, since its writes
take other bytes of the sectors they touch with them; `ViOS.Fs.StreamedDisk` is that
stream below the same driver.  The driver knows sectors of 512 bytes only.

Positions are `int` in the source; here they are integers, since the volumes that are
reasoned about end below 2^31.  `total` of a directory is the number of its items.
Allocations succeed, and `kfree` does nothing, so that a directory that was freed while
it was being loaded is still what the driver goes on with.

* `ByteStream`, `ByteStore` — the stream calls, and the exact store.
* `FatDirectoryItem`, `FatVolume` — what the driver keeps of a disk.
* `fat16GetFatEntry`, `fat16SetFatEntry`, `fat16AllocateCluster` — the allocation table.
* `fat16ReadInternal`, `fat16WriteInternal` — cluster chains.
* `fat16Open`, `fat16Read`, `fat16Write`, `fat16Close` — the entry points, and `fat16Fs`.
-/

namespace ViOS.Fs

/-! ## The disk -/

/-- What the driver does to a disk through its stream; each call seeks first.  No position that can be
read lies at `size` or behind it. -/
class ByteStream (σ : Type) where
  size : σ → Nat
  read : σ → (pos : Int) → (total : Nat) → Option (Nat → UInt8)
  readPart : σ → (pos : Int) → (total : Nat) → List UInt8
  write : σ → (pos : Int) → (total : Nat) → (buffer : Nat → UInt8) → Int × σ

/-- A disk of `size` bytes whose accesses are exact. -/
structure ByteStore where
  size : Nat
  bytes : Nat → UInt8

/-- `diskstreamer_seek` and `diskstreamer_read`: the buffer that is filled. -/
def ByteStore.read (store : ByteStore) (pos : Int) (total : Nat) : Option (Nat → UInt8) :=
  if 0 ≤ pos ∧ pos + total ≤ store.size then some fun i => store.bytes (pos.toNat + i) else none

/-- The bytes that a `diskstreamer_read` stores before it fails at the end of the disk. -/
def ByteStore.readPart (store : ByteStore) (pos : Int) (total : Nat) : List UInt8 :=
  if 0 ≤ pos then (List.range (min total (store.size - pos.toNat))).map fun i => store.bytes (pos.toNat + i)
  else []

/-- `diskstreamer_seek` and `diskstreamer_write` of the first `total` bytes of a buffer. -/
def ByteStore.write (store : ByteStore) (pos : Int) (total : Nat) (buffer : Nat → UInt8) :
    Option ByteStore :=
  if 0 ≤ pos ∧ pos + total ≤ store.size then
    some { store with bytes := fun p =>
      if pos.toNat ≤ p ∧ p < pos.toNat + total then buffer (p - pos.toNat) else store.bytes p }
  else none

instance : ByteStream ByteStore where
  size := ByteStore.size
  read := ByteStore.read
  readPart := ByteStore.readPart
  write store pos total buffer :=
    match store.write pos total buffer with
    | none => (-eio, store)
    | some store => (viosAllOk, store)

@[simp] theorem ByteStore.size_stream (store : ByteStore) : ByteStream.size store = store.size := rfl

@[simp] theorem ByteStore.read_stream (store : ByteStore) : ByteStream.read store = store.read := rfl

@[simp] theorem ByteStore.readPart_stream (store : ByteStore) : ByteStream.readPart store = store.readPart := rfl

/-- A little-endian number of `count` bytes. -/
def littleEndian (buffer : Nat → UInt8) (pos : Nat) : (count : Nat) → Nat
  | 0 => 0
  | count + 1 => littleEndian buffer pos count + 256 ^ count * (buffer (pos + count)).toNat

/-- The bytes of a number. -/
def byteOf (value i : Nat) : UInt8 := UInt8.ofNat (value / 256 ^ i)

/-! ## Structures of the volume -/

/-- `struct fat_directory_item`; `attr` is its field `attribute`. -/
structure FatDirectoryItem where
  filename : Fin 8 → UInt8
  ext : Fin 3 → UInt8
  attr : UInt8
  reserved : UInt8
  creationTimeTenthsOfASec : UInt8
  creationTime : UInt16
  creationDate : UInt16
  lastAccess : UInt16
  high16BitsFirstCluster : UInt16
  lastModTime : UInt16
  lastModDate : UInt16
  low16BitsFirstCluster : UInt16
  filesize : UInt32

/-- `sizeof(struct fat_directory_item)`. -/
def directoryItemSize : Nat := 32

/-- The item in a buffer of 32 bytes. -/
def FatDirectoryItem.ofBytes (buffer : Nat → UInt8) : FatDirectoryItem where
  filename := fun i => buffer i
  ext := fun i => buffer (8 + i)
  attr := buffer 11
  reserved := buffer 12
  creationTimeTenthsOfASec := buffer 13
  creationTime := .ofNat (littleEndian buffer 14 2)
  creationDate := .ofNat (littleEndian buffer 16 2)
  lastAccess := .ofNat (littleEndian buffer 18 2)
  high16BitsFirstCluster := .ofNat (littleEndian buffer 20 2)
  lastModTime := .ofNat (littleEndian buffer 22 2)
  lastModDate := .ofNat (littleEndian buffer 24 2)
  low16BitsFirstCluster := .ofNat (littleEndian buffer 26 2)
  filesize := .ofNat (littleEndian buffer 28 4)

/-- The bytes of an item. -/
def FatDirectoryItem.toBytes (item : FatDirectoryItem) (i : Nat) : UInt8 :=
  if name : i < 8 then item.filename ⟨i, name⟩
  else if ext : i - 8 < 3 then item.ext ⟨i - 8, ext⟩
  else if i = 11 then item.attr
  else if i = 12 then item.reserved
  else if i = 13 then item.creationTimeTenthsOfASec
  else if i < 16 then byteOf item.creationTime.toNat (i - 14)
  else if i < 18 then byteOf item.creationDate.toNat (i - 16)
  else if i < 20 then byteOf item.lastAccess.toNat (i - 18)
  else if i < 22 then byteOf item.high16BitsFirstCluster.toNat (i - 20)
  else if i < 24 then byteOf item.lastModTime.toNat (i - 22)
  else if i < 26 then byteOf item.lastModDate.toNat (i - 24)
  else if i < 28 then byteOf item.low16BitsFirstCluster.toNat (i - 26)
  else byteOf item.filesize.toNat (i - 28)

/-- The item of a zeroed buffer. -/
def FatDirectoryItem.zero : FatDirectoryItem := .ofBytes fun _ => 0

/-- The byte that marks an end or a deleted entry. -/
abbrev FatDirectoryItem.mark (item : FatDirectoryItem) : UInt8 := item.filename 0

def fileStatReadOnly : Nat := 1
def fatFileReadOnly : UInt8 := 0x01
def fatFileSubdirectory : UInt8 := 0x10
def fatFileArchived : UInt8 := 0x20

/-- The fields of `struct fat_header` the driver reads. -/
structure FatHeader where
  sectorsPerCluster : Nat
  reservedSectors : Nat
  fatCopies : Nat
  rootDirEntries : Nat
  numberOfSectors : Nat
  sectorsPerFat : Nat
  sectorsBig : Nat
  deriving DecidableEq, Repr

/-- `struct fat_directory`. -/
structure FatDirectory where
  item : List FatDirectoryItem
  sectorPos : Nat
  endingSectorPos : Nat

/-- The union in `struct fat_item`, with its `type`. -/
inductive FatItemData where
  | directory (directory : FatDirectory)
  | file (item : FatDirectoryItem)

/-- `struct fat_item`. -/
structure FatItem where
  data : FatItemData
  directorySector : Nat
  directoryOffset : Nat

/-- `struct fat_file_descriptor`. -/
structure FatFileDescriptor where
  item : FatItem
  pos : Nat

/-- A disk with its `struct fat_private`. -/
structure FatVolume (σ : Type := ByteStore) where
  store : σ
  header : FatHeader
  rootDirectory : FatDirectory

variable {σ : Type} [ByteStream σ]

/-! ## Mounting -/

/-- The first sector of the root directory. -/
def FatHeader.rootDirSectorPos (header : FatHeader) : Nat :=
  header.fatCopies * header.sectorsPerFat + header.reservedSectors

/-- The sectors of the root directory. -/
def FatHeader.rootDirSectors (header : FatHeader) : Nat :=
  let rootDirSize := header.rootDirEntries * directoryItemSize
  rootDirSize / viosSectorSize + if rootDirSize % viosSectorSize = 0 then 0 else 1

/-- The items in a buffer. -/
def directoryItems (count : Nat) (buffer : Nat → UInt8) : List FatDirectoryItem :=
  (List.range count).map fun i => .ofBytes fun offset => buffer (directoryItemSize * i + offset)

/-- `fat16_get_root_directory`. -/
def fat16GetRootDirectory (store : σ) (header : FatHeader) : Option FatDirectory :=
  match ByteStream.read store (header.rootDirSectorPos * viosSectorSize)
      (header.rootDirEntries * directoryItemSize) with
  | none => none
  | some buffer => some
    { item := directoryItems header.rootDirEntries buffer
      sectorPos := header.rootDirSectorPos
      endingSectorPos := header.rootDirSectorPos + header.rootDirSectors }

/-- `fat16_resolve` of a disk with the given header. -/
def fat16Resolve (store : σ) (header : FatHeader) : Option (FatVolume σ) :=
  (fat16GetRootDirectory store header).map fun rootDirectory => { store, header, rootDirectory }

/-! ## Names -/

/-- `tolower`. -/
def toLower (c : UInt8) : UInt8 := if 65 ≤ c ∧ c ≤ 90 then c + 32 else c

/-- `toupper`. -/
def toUpper (c : UInt8) : UInt8 := if 97 ≤ c ∧ c ≤ 122 then c - 32 else c

/-- `istrncmp`; behind the end of a string stands its NUL. -/
def istrncmp : CStr → CStr → (n : Nat) → Int
  | _, _, 0 => 0
  | s1, s2, n + 1 =>
    let u1 := s1.headD 0
    let u2 := s2.headD 0
    if u1 ≠ u2 ∧ toLower u1 ≠ toLower u2 then u1.toNat - u2.toNat
    else if u1 = 0 then 0
    else istrncmp s1.tail s2.tail n

/-- `fat16_to_proper_string`. -/
def fat16ToProperString (input : List UInt8) : CStr := input.takeWhile fun c => c ≠ 0 ∧ c ≠ charSpace

/-- `fat16_get_full_relative_filename`. -/
def fat16GetFullRelativeFilename (item : FatDirectoryItem) : CStr :=
  fat16ToProperString (List.ofFn item.filename) ++
    if item.ext 0 ≠ 0 ∧ item.ext 0 ≠ charSpace then
      charDot :: fat16ToProperString (List.ofFn item.ext)
    else []

/-- The two parts of a name that `fat16_create_file_in_root` copies. -/
def splitName (filename : CStr) : CStr × CStr :=
  let name := filename.takeWhile fun c => c ≠ charDot
  (name.take 8, (filename.drop (name.length + 1)).take 3)

/-- A part of a name in upper case, with spaces behind it. -/
def paddedName (part : CStr) (i : Nat) : UInt8 := toUpper (part.getD i charSpace)

/-! ## The allocation table -/

def fat16FatEntrySize : Nat := 2
def fat16BadSector : Nat := 0xFF7
def fat16Unused : Nat := 0

/-- The value of an `int` read as a `uint16_t`. -/
def toUInt16 (value : Int) : Nat := (value % 2 ^ 16).toNat

/-- `size_of_cluster_bytes`. -/
def FatHeader.clusterSize (header : FatHeader) : Nat := header.sectorsPerCluster * viosSectorSize

/-- `fat16_get_first_cluster`. -/
def fat16GetFirstCluster (item : FatDirectoryItem) : Nat :=
  item.high16BitsFirstCluster.toNat * 2 ^ 16 + item.low16BitsFirstCluster.toNat

namespace FatVolume

/-- `fat16_cluster_to_sector`, in bytes. -/
def clusterPosition {σ : Type} (volume : FatVolume σ) (cluster : Int) : Int :=
  (volume.rootDirectory.endingSectorPos + (cluster - 2) * volume.header.sectorsPerCluster) *
    viosSectorSize

/-- The position of an entry in the first copy of the table. -/
def fatEntryPosition {σ : Type} (volume : FatVolume σ) (cluster : Int) : Int :=
  volume.header.reservedSectors * viosSectorSize + cluster * fat16FatEntrySize

/-- A write to the disk: its status. -/
def write (volume : FatVolume σ) (pos : Int) (total : Nat) (buffer : Nat → UInt8) : Int × FatVolume σ :=
  let (res, store) := ByteStream.write volume.store pos total buffer
  (res, { volume with store })

theorem write_store (volume : FatVolume) (pos : Int) (total : Nat) (buffer : Nat → UInt8) :
    volume.write pos total buffer =
      match volume.store.write pos total buffer with
      | none => (-eio, volume)
      | some store => (viosAllOk, { volume with store }) := by
  rw [write]
  change (match (match volume.store.write pos total buffer with
    | none => (-eio, volume.store)
    | some store => (viosAllOk, store)) with
    | (res, store) => (res, { volume with store })) = _
  cases volume.store.write pos total buffer with
  | none => rfl
  | some store => rfl

end FatVolume

/-- `fat16_get_fat_entry`. -/
def fat16GetFatEntry (volume : FatVolume σ) (cluster : Int) : Int :=
  match ByteStream.read volume.store (volume.fatEntryPosition cluster) fat16FatEntrySize with
  | none => -eio
  | some buffer => littleEndian buffer 0 2

/-- The loop of `fat16_set_fat_entry` over the copies from `i` on. -/
def setFatCopies (pos : Int) (value : Nat) : (rest i : Nat) → Int → FatVolume σ → Int × FatVolume σ
  | 0, _, res, volume => (res, volume)
  | rest + 1, i, _, volume =>
    let copyPosition := pos + i * volume.header.sectorsPerFat * viosSectorSize
    let (res, volume) := volume.write copyPosition fat16FatEntrySize (byteOf value)
    if res < 0 then (res, volume) else setFatCopies pos value rest (i + 1) res volume

/-- `fat16_set_fat_entry`. -/
def fat16SetFatEntry (volume : FatVolume σ) (cluster : Int) (value : Nat) : Int × FatVolume σ :=
  let pos := volume.fatEntryPosition cluster
  let (res, volume) := volume.write pos fat16FatEntrySize (byteOf value)
  if res < 0 then (res, volume)
  else setFatCopies pos value (volume.header.fatCopies - 1) 1 res volume

/-- The sectors of the volume. -/
def FatHeader.totalSectors (header : FatHeader) : Nat :=
  if header.numberOfSectors = 0 then header.sectorsBig else header.numberOfSectors

/-- The clusters `fat16_find_free_cluster` looks at end here; the number of sectors is an `int`. -/
def FatHeader.totalClusters (header : FatHeader) : Nat :=
  if header.totalSectors < 2 ^ 31 then header.totalSectors / header.sectorsPerCluster else 0

/-- `fat16_find_free_cluster`. -/
def fat16FindFreeCluster (volume : FatVolume σ) : Int :=
  match (List.range' 2 (volume.header.totalClusters - 2)).find? fun (cluster : Nat) =>
      fat16GetFatEntry volume cluster = fat16Unused with
  | some cluster => (cluster : Int)
  | none => -enomem

/-- `fat16_allocate_cluster`. -/
def fat16AllocateCluster (volume : FatVolume σ) (previousCluster : Int) : Int × FatVolume σ :=
  let newCluster := fat16FindFreeCluster volume
  if newCluster < 0 then (newCluster, volume)
  else
    let (res, volume) := fat16SetFatEntry volume newCluster 0xFFFF
    if res < 0 then (res, volume)
    else if 0 ≤ previousCluster then
      let (res, volume) := fat16SetFatEntry volume previousCluster newCluster.toNat
      if res < 0 then (res, (fat16SetFatEntry volume newCluster fat16Unused).2)
      else (newCluster, volume)
    else (newCluster, volume)

/-- The loop of `fat16_free_cluster_chain`.  A cluster that was visited has a zero entry, which
ends the loop, so 2^16 turns are enough. -/
def freeChainLoop : (fuel : Nat) → (currentCluster : Int) → Int → FatVolume σ → Int × FatVolume σ
  | 0, _, res, volume => (res, volume)
  | fuel + 1, currentCluster, res, volume =>
    if 2 ≤ currentCluster ∧ currentCluster < 0xFFF8 then
      let nextCluster := fat16GetFatEntry volume currentCluster
      if nextCluster < 0 then (nextCluster, volume)
      else
        let (res, volume) := fat16SetFatEntry volume currentCluster fat16Unused
        if res < 0 then (res, volume) else freeChainLoop fuel nextCluster res volume
    else (res, volume)

/-- `fat16_free_cluster_chain`. -/
def fat16FreeClusterChain (volume : FatVolume σ) (startingCluster : Int) : Int × FatVolume σ :=
  if startingCluster = 0 then (0, volume) else freeChainLoop (2 ^ 16) startingCluster 0 volume

/-! ## Cluster chains -/

/-- The loop of `fat16_get_cluster_for_offset`. -/
def clusterWalk (volume : FatVolume σ) : (clustersAhead cluster : Nat) → Int
  | 0, cluster => cluster
  | clustersAhead + 1, cluster =>
    let entry := toUInt16 (fat16GetFatEntry volume cluster)
    if 0xFFF8 ≤ entry then -eoutofrange
    else if entry = fat16BadSector ∨ (0xFFF0 ≤ entry ∧ entry ≤ 0xFFF6) ∨ entry = 0 then -eio
    else clusterWalk volume clustersAhead entry

/-- `fat16_get_cluster_for_offset`; a negative offset is not ahead of any cluster. -/
def fat16GetClusterForOffset (volume : FatVolume σ) (startingCluster : Int) (offset : Int) : Int :=
  clusterWalk volume (offset.toNat / volume.header.clusterSize) (toUInt16 startingCluster)

/-- The loop of `fat16_read_internal_from_stream`: the status and the bytes stored.  Every turn
stores a byte, so `total` bounds their number. -/
def readLoop (volume : FatVolume σ) (cluster : Int) : (fuel : Nat) → (offset : Int) → (total : Nat) →
    Int × List UInt8
  | 0, _, _ => (viosAllOk, [])
  | fuel + 1, offset, total =>
    if total = 0 then (viosAllOk, [])
    else
      let res := fat16GetClusterForOffset volume cluster offset
      if res < 0 then (res, [])
      else
        let offsetFromCluster := offset.tmod volume.header.clusterSize
        let startingPos := volume.clusterPosition res + offsetFromCluster
        let totalToRead := min (volume.header.clusterSize - offsetFromCluster).toNat total
        match ByteStream.read volume.store startingPos totalToRead with
        | none => (-eio, ByteStream.readPart volume.store startingPos totalToRead)
        | some buffer =>
          let (res, rest) := readLoop volume cluster fuel (offset + totalToRead) (total - totalToRead)
          (res, (List.range totalToRead).map buffer ++ rest)

/-- `fat16_read_internal`; its `total` is an `int`. -/
def fat16ReadInternal (volume : FatVolume σ) (startingCluster : Int) (offset total : Int) :
    Int × List UInt8 :=
  let (res, bytes) := readLoop volume startingCluster total.toNat offset total.toNat
  if res < 0 then (res, bytes) else (bytes.length, bytes)

/-- The loop of `fat16_write_internal` over the bytes that are left. -/
def writeLoop : (fuel : Nat) → (cluster : Int) → (offsetInCluster written : Nat) → List UInt8 →
    FatVolume σ → Int × FatVolume σ
  | 0, _, _, written, _, volume => (written, volume)
  | fuel + 1, cluster, offsetInCluster, written, data, volume =>
    if data = [] then (written, volume)
    else
      let clusterPosition := volume.clusterPosition cluster + offsetInCluster
      let toWrite := min (volume.header.clusterSize - offsetInCluster) data.length
      let (res, volume) := volume.write clusterPosition toWrite fun i => data.getD i 0
      if res < 0 then (res, volume)
      else
        let data := data.drop toWrite
        if data = [] then ((written + toWrite : Nat), volume)
        else
          let nextCluster := fat16GetFatEntry volume cluster
          if 0xFFF8 ≤ nextCluster then
            let (nextCluster, volume) := fat16AllocateCluster volume cluster
            if nextCluster < 0 then (nextCluster, volume)
            else writeLoop fuel nextCluster 0 (written + toWrite) data volume
          else writeLoop fuel nextCluster 0 (written + toWrite) data volume

/-- `fat16_write_internal`; `data` are the `(int)total` bytes at `ptr`. -/
def fat16WriteInternal (volume : FatVolume σ) (startingCluster : Int) (offset : Nat) (data : List UInt8) :
    Int × FatVolume σ :=
  let cluster := fat16GetClusterForOffset volume startingCluster (asInt offset)
  if cluster < 0 then (cluster, volume)
  else writeLoop data.length cluster (offset % volume.header.clusterSize) 0 data volume

/-! ## Directories -/

/-- The loop of `fat16_get_total_items_for_directory`: the number of items, when the end of the
directory is found before the end of the disk. -/
def totalItemsLoop (store : σ) : (fuel : Nat) → (pos : Int) → Option Nat
  | 0, _ => none
  | fuel + 1, pos =>
    match ByteStream.read store pos directoryItemSize with
    | none => none
    | some buffer =>
      let item := FatDirectoryItem.ofBytes buffer
      if item.filename 0 = 0 then some 0
      else
        (totalItemsLoop store fuel (pos + directoryItemSize)).map fun count =>
          if item.filename 0 = 0xE5 then count else count + 1

/-- `fat16_load_fat_directory`.  Its `sector_pos` stays zero. -/
def fat16LoadFatDirectory (volume : FatVolume σ) (item : FatDirectoryItem) : FatDirectory :=
  let cluster : Int := asInt (fat16GetFirstCluster item)
  let total := totalItemsLoop volume.store (ByteStream.size volume.store + 1) (volume.clusterPosition cluster)
  let bytes := (fat16ReadInternal volume cluster 0 (total.getD 0 * directoryItemSize)).2
  { item := directoryItems (total.getD 0) fun i => bytes.getD i 0, sectorPos := 0, endingSectorPos := 0 }

/-- `fat16_new_fat_item_for_directory_item`. -/
def fat16NewFatItemForDirectoryItem (volume : FatVolume σ) (item : FatDirectoryItem)
    (directorySector directoryOffset : Nat) : FatItem :=
  if item.attr &&& fatFileSubdirectory ≠ 0 then
    ⟨.directory (fat16LoadFatDirectory volume item), directorySector, directoryOffset⟩
  else ⟨.file item, directorySector, directoryOffset⟩

/-- The loop of `fat16_find_item_in_directory` from index `i` on: the index of the item. -/
def findItemLoop (name : CStr) : (i : Nat) → List FatDirectoryItem → Option Nat
  | _, [] => none
  | i, item :: rest =>
    if item.filename 0 = 0 then none
    else if item.filename 0 = 0xE5 then findItemLoop name (i + 1) rest
    else if istrncmp (fat16GetFullRelativeFilename item) name viosMaxPath = 0 then some i
    else findItemLoop name (i + 1) rest

/-- The sector of an entry, and its offset there. -/
def entryLocation (directory : FatDirectory) (i : Nat) : Nat × Nat :=
  (directory.sectorPos + i * directoryItemSize / viosSectorSize, i * directoryItemSize % viosSectorSize)

/-- `fat16_find_item_in_directory`: the item is read again from the disk. -/
def fat16FindItemInDirectory (volume : FatVolume σ) (directory : FatDirectory) (name : CStr) :
    Option FatItem :=
  (findItemLoop name 0 directory.item).map fun i =>
    let (sector, offset) := entryLocation directory i
    let freshItem := match ByteStream.read volume.store (sector * viosSectorSize + offset) directoryItemSize with
      | none => .zero
      | some buffer => .ofBytes buffer
    fat16NewFatItemForDirectoryItem volume freshItem sector offset

/-- The loop of `fat16_get_directory_entry`.  An item that is missing with components left is
dereferenced: then the result is `none`. -/
def directoryEntryLoop (volume : FatVolume σ) : Option FatItem → List CStr → Option (Option FatItem)
  | currentItem, [] => some currentItem
  | none, _ :: _ => none
  | some currentItem, part :: rest =>
    match currentItem.data with
    | .file _ => some none
    | .directory directory =>
      directoryEntryLoop volume (fat16FindItemInDirectory volume directory part) rest

/-- `fat16_get_directory_entry`. -/
def fat16GetDirectoryEntry (volume : FatVolume σ) : List CStr → Option (Option FatItem)
  | [] => none
  | part :: rest =>
    match fat16FindItemInDirectory volume volume.rootDirectory part with
    | none => some none
    | some rootItem => directoryEntryLoop volume (some rootItem) rest

/-- The entry of a new file. -/
def newItem (filename : CStr) : FatDirectoryItem :=
  let (name, ext) := splitName filename
  { FatDirectoryItem.zero with
    filename := fun i => paddedName name i
    ext := fun i => paddedName ext i
    attr := fatFileArchived }

/-- `fat16_create_file_in_root`. -/
def fat16CreateFileInRoot (volume : FatVolume σ) (filename : CStr) : Option FatItem × FatVolume σ :=
  let rootDir := volume.rootDirectory
  match rootDir.item.findIdx? fun item => item.filename 0 = 0 ∨ item.filename 0 = 0xE5 with
  | none => (none, volume)
  | some freeSlot =>
    let item := newItem filename
    let volume := { volume with rootDirectory := { rootDir with item := rootDir.item.set freeSlot item } }
    let (sector, offset) := entryLocation rootDir freeSlot
    let (_, volume) := volume.write (sector * viosSectorSize + offset) directoryItemSize item.toBytes
    (some (fat16NewFatItemForDirectoryItem volume item sector offset), volume)

/-! ## Files -/

/-- The entry with another first cluster. -/
def FatDirectoryItem.withFirstCluster (item : FatDirectoryItem) (cluster : Nat) : FatDirectoryItem :=
  { item with low16BitsFirstCluster := .ofNat cluster, high16BitsFirstCluster := .ofNat (cluster / 2 ^ 16) }

/-- `fat16_truncate`: the status, and the entry and the position of the descriptor. -/
def fat16Truncate (volume : FatVolume σ) (item : FatDirectoryItem) (pos size : Nat) :
    Int × FatDirectoryItem × Nat × FatVolume σ :=
  if item.attr &&& fatFileReadOnly ≠ 0 then (-erdonly, item, pos, volume)
  else
    let startingCluster : Int := asInt (fat16GetFirstCluster item)
    if size = 0 then
      let (_, volume) := fat16FreeClusterChain volume startingCluster
      (0, { item.withFirstCluster 0 with filesize := 0 }, 0, volume)
    else
      let clustersNeeded := (size + volume.header.clusterSize - 1) % 2 ^ 32 / volume.header.clusterSize
      let cluster := (List.range (clustersNeeded - 1)).foldl (fun cluster _ =>
        if 2 ≤ cluster then fat16GetFatEntry volume cluster else cluster) startingCluster
      if cluster < 0 ∧ 2 ≤ startingCluster then (cluster, item, pos, volume)
      else
        let volume := if 2 ≤ cluster then
            let nextCluster := fat16GetFatEntry volume cluster
            let volume := if 2 ≤ nextCluster ∧ nextCluster < 0xFFF8 then
              (fat16FreeClusterChain volume nextCluster).2 else volume
            (fat16SetFatEntry volume cluster 0xFFFF).2
          else volume
        (0, { item with filesize := .ofNat size }, min pos size, volume)

/-- The volume and the descriptors that are allocated, by address; `next` counts the allocations. -/
structure FatState (σ : Type := ByteStore) where
  volume : FatVolume σ
  descriptors : Ptr → Option FatFileDescriptor
  next : Nat

/-- The address of the next descriptor. -/
def FatState.newPtr {σ : Type} (state : FatState σ) : Ptr := viosHeapBlockSize * (state.next + 1)

/-- The volume and one descriptor changed. -/
def FatState.set {σ : Type} (state : FatState σ) (ptr : Ptr) (descriptor : Option FatFileDescriptor)
    (volume : FatVolume σ) : FatState σ :=
  { state with volume, descriptors := Function.update state.descriptors ptr descriptor }

@[simp] theorem FatState.set_volume {σ : Type} (state : FatState σ) (ptr : Ptr) (descriptor : Option FatFileDescriptor)
    (volume : FatVolume σ) : (state.set ptr descriptor volume).volume = volume := rfl

theorem set_descriptor {σ : Type} (state : FatState σ) (ptr : Ptr) (descriptor : Option FatFileDescriptor)
    (volume : FatVolume σ) : (state.set ptr descriptor volume).descriptors ptr = descriptor := by
  unfold FatState.set
  exact Function.update_self ..

/-- The item `fat16_open` works on: the one that is found, or a new one. -/
def openItem (volume : FatVolume σ) (path : List CStr) (mode : FileMode) :
    Option (Except Int FatItem) × FatVolume σ :=
  match fat16GetDirectoryEntry volume path with
  | none => (none, volume)
  | some (some item) => (some (.ok item), volume)
  | some none =>
    if mode = .write ∨ mode = .append then
      match path with
      | [part] =>
        match fat16CreateFileInRoot volume part with
        | (none, volume) => (some (.error (-enomem)), volume)
        | (some item, volume) => (some (.ok item), volume)
      | _ => (some (.error (-eio)), volume)
    else (some (.error (-eio)), volume)

/-- The last part of `fat16_open`: the descriptor for the mode. -/
def openDescriptor (volume : FatVolume σ) (item : FatItem) (mode : FileMode) :
    FatFileDescriptor × FatVolume σ :=
  match item.data, mode with
  | .file entry, .write =>
    let (_, entry, pos, volume) := fat16Truncate volume entry 0 0
    (⟨{ item with data := .file entry }, pos⟩, volume)
  | .file entry, .append => (⟨item, entry.filesize.toNat⟩, volume)
  | _, _ => (⟨item, 0⟩, volume)

/-- `fat16_open`. -/
def fat16Open (state : FatState σ) (path : List CStr) (mode : FileMode) : Option Ptr × FatState σ :=
  match openItem state.volume path mode with
  | (none, volume) => (none, { state with volume })
  | (some (.error code), volume) => (some (errorPtr code), { state with volume, next := state.next + 1 })
  | (some (.ok item), volume) =>
    let (descriptor, volume) := openDescriptor volume item mode
    (some state.newPtr, { (state.set state.newPtr (some descriptor) volume) with next := state.next + 1 })

/-- `fat16_close`. -/
def fat16Close (state : FatState σ) (ptr : Ptr) : Option Int × FatState σ :=
  match state.descriptors ptr with
  | none => (none, state)
  | some _ => (some 0, state.set ptr none state.volume)

/-- `fat16_stat`. -/
def fat16Stat (state : FatState σ) (ptr : Ptr) : Option Int × FileStat :=
  match state.descriptors ptr with
  | none => (none, ⟨0, 0⟩)
  | some descriptor =>
    match descriptor.item.data with
    | .directory _ => (some (-einvarg), ⟨0, 0⟩)
    | .file item =>
      (some 0, ⟨if item.attr &&& fatFileReadOnly ≠ 0 then fileStatReadOnly else 0, item.filesize.toNat⟩)

/-- The loop of `fat16_read` over the items that are left. -/
def readItemsLoop (volume : FatVolume σ) (firstCluster : Int) (size : Nat) :
    (items offset : Nat) → Int × List UInt8
  | 0, _ => (viosAllOk, [])
  | items + 1, offset =>
    let (res, bytes) := fat16ReadInternal volume firstCluster (asInt offset) (asInt size)
    if res < 0 then (res, bytes)
    else
      let (res, rest) := readItemsLoop volume firstCluster size items ((offset + size) % 2 ^ 32)
      (res, bytes ++ rest)

/-- The number of items a read of an entry at a position is for. -/
def itemsToRead (item : FatDirectoryItem) (pos size nmemb : Nat) : Nat :=
  min (size * nmemb % 2 ^ 32) (item.filesize.toNat - pos) / size

/-- `fat16_read`: the status, the bytes stored and the state.  The entry of a directory is read
from the zeroed memory behind its structure, and has no bytes. -/
def fat16Read (state : FatState σ) (ptr : Ptr) (size nmemb : Nat) : Option Int × List UInt8 × FatState σ :=
  match state.descriptors ptr with
  | none => (none, [], state)
  | some descriptor =>
    match descriptor.item.data with
    | .directory _ => (some 0, [], state)
    | .file item =>
      let items := itemsToRead item descriptor.pos size nmemb
      if items = 0 then (some 0, [], state)
      else
        let first : Int := asInt (fat16GetFirstCluster item)
        let (res, bytes) := readItemsLoop state.volume first size items descriptor.pos
        if res < 0 then (some res, bytes, state)
        else
          let descriptor := { descriptor with pos := (descriptor.pos + items * size) % 2 ^ 32 }
          (some items, bytes, state.set ptr (some descriptor) state.volume)

/-- `fat16_seek`; `SEEK_SET`, `SEEK_CUR` and `SEEK_END` are 0, 1 and 2. -/
def fat16Seek (state : FatState σ) (ptr : Ptr) (offset whence : Nat) : Option Int × FatState σ :=
  match state.descriptors ptr with
  | none => (none, state)
  | some descriptor =>
    match descriptor.item.data with
    | .directory _ => (some (-einvarg), state)
    | .file item =>
      if item.filesize.toNat ≤ offset then (some (-eio), state)
      else
        match whence with
        | 0 => (some 0, state.set ptr (some { descriptor with pos := offset }) state.volume)
        | 1 =>
          let pos := (descriptor.pos + offset) % 2 ^ 32
          (some 0, state.set ptr (some { descriptor with pos }) state.volume)
        | 2 => (some (-eunimp), state)
        | _ => (some (-einvarg), state)

/-- The bytes at a pointer, of which the caller provides `data`. -/
def bytesAt (data : List UInt8) (count : Nat) : List UInt8 :=
  (data ++ List.replicate (count - data.length) 0).take count

/-- `fat16_extend_file`. -/
def fat16ExtendFile (volume : FatVolume σ) (fatItem : FatItem) (item : FatDirectoryItem) (newSize : Nat) :
    FatDirectoryItem × FatVolume σ :=
  if newSize ≤ item.filesize.toNat then (item, volume)
  else
    let item := { item with filesize := .ofNat newSize }
    (item, (volume.write (fatItem.directorySector * viosSectorSize + fatItem.directoryOffset)
      directoryItemSize item.toBytes).2)

/-- The start of `fat16_write`: the entry gets its first cluster.  A failed allocation is not
noticed, since its status is stored without a sign. -/
def writeStart (volume : FatVolume σ) (item : FatDirectoryItem) : Nat × FatDirectoryItem × FatVolume σ :=
  let startingCluster := fat16GetFirstCluster item
  if startingCluster = 0 then
    let (cluster, volume) := fat16AllocateCluster volume (-1)
    let startingCluster := (cluster % 2 ^ 32).toNat
    (startingCluster, item.withFirstCluster startingCluster, volume)
  else (startingCluster, item, volume)

/-- `fat16_write` to a file that is not read-only: the status, the descriptor and the volume. -/
def writeFileItem (volume : FatVolume σ) (descriptor : FatFileDescriptor) (item : FatDirectoryItem)
    (data : List UInt8) (size nmemb : Nat) : Int × FatFileDescriptor × FatVolume σ :=
  let totalToWrite := asInt (size * nmemb % 2 ^ 32)
  let (startingCluster, item, volume) := writeStart volume item
  let fatItem := { descriptor.item with data := .file item }
  let (res, volume) := fat16WriteInternal volume (asInt startingCluster) descriptor.pos
    (bytesAt data totalToWrite.toNat)
  if res < 0 then (res, { descriptor with item := fatItem }, volume)
  else
    let pos := (descriptor.pos + res.toNat) % 2 ^ 32
    let (item, volume) :=
      if item.filesize.toNat < pos then fat16ExtendFile volume fatItem item pos else (item, volume)
    (if 0 < size then res / size else res, ⟨{ fatItem with data := .file item }, pos⟩, volume)

/-- `fat16_write`. -/
def fat16Write (state : FatState σ) (ptr : Ptr) (data : List UInt8) (size nmemb : Nat) :
    Option Int × FatState σ :=
  match state.descriptors ptr with
  | none => (none, state)
  | some descriptor =>
    match descriptor.item.data with
    | .directory _ => (some (-einvarg), state)
    | .file item =>
      if item.attr &&& fatFileReadOnly ≠ 0 then (some (-erdonly), state)
      else
        let (res, descriptor, volume) := writeFileItem state.volume descriptor item data size nmemb
        (some res, state.set ptr (some descriptor) volume)

/-- Where a file is not extended, `fat16_extend_file` would do nothing. -/
theorem extendFile_guarded (volume : FatVolume σ) (fatItem : FatItem) (item : FatDirectoryItem) (newSize : Nat) :
    (if item.filesize.toNat < newSize then fat16ExtendFile volume fatItem item newSize else (item, volume)) =
      fat16ExtendFile volume fatItem item newSize := by
  split
  · rfl
  next covered => exact (if_pos (Nat.le_of_not_lt covered)).symm

/-- A write, from the first cluster that it starts with and the result of its loop. -/
theorem writeFileItem_eq {volume started stored : FatVolume σ} {descriptor : FatFileDescriptor}
    {item entry : FatDirectoryItem} {data : List UInt8} {cluster size nmemb : Nat} {res : Int}
    (start : writeStart volume item = (cluster, entry, started))
    (internal : fat16WriteInternal started (asInt cluster) descriptor.pos
      (bytesAt data (asInt (size * nmemb % 2 ^ 32)).toNat) = (res, stored)) :
    writeFileItem volume descriptor item data size nmemb =
      if res < 0 then (res, { descriptor with item := { descriptor.item with data := .file entry } }, stored)
      else
        (if 0 < size then res / size else res,
          ⟨{ descriptor.item with data := .file (fat16ExtendFile stored
              { descriptor.item with data := .file entry } entry ((descriptor.pos + res.toNat) % 2 ^ 32)).1 },
            (descriptor.pos + res.toNat) % 2 ^ 32⟩,
          (fat16ExtendFile stored { descriptor.item with data := .file entry } entry
            ((descriptor.pos + res.toNat) % 2 ^ 32)).2) := by
  rw [writeFileItem, start]
  simp only [internal, extendFile_guarded]

theorem fat16Write_writable {state : FatState σ} {ptr : Ptr} {descriptor : FatFileDescriptor}
    {item : FatDirectoryItem} {data : List UInt8} {size nmemb : Nat}
    (isOpen : state.descriptors ptr = some descriptor) (isFile : descriptor.item.data = .file item)
    (writable : ¬ item.attr &&& fatFileReadOnly ≠ 0) :
    fat16Write state ptr data size nmemb =
      (some (writeFileItem state.volume descriptor item data size nmemb).1,
        state.set ptr (some (writeFileItem state.volume descriptor item data size nmemb).2.1)
          (writeFileItem state.volume descriptor item data size nmemb).2.2) := by
  rw [fat16Write]
  split
  next closed => exact absurd (isOpen.symm.trans closed) (by simp)
  next other isOther =>
    obtain rfl := Option.some.inj (isOpen.symm.trans isOther)
    split
    next directory isDirectory => exact absurd (isFile.symm.trans isDirectory) (by simp)
    next entry isEntry =>
      obtain rfl := FatItemData.file.inj (isFile.symm.trans isEntry)
      rcases writeFileItem state.volume descriptor item data size nmemb with ⟨res, written, volume⟩
      exact if_neg writable

/-- A write leaves the state as it is, or stores what was written of a file that is open. -/
theorem fat16Write_cases (state : FatState σ) (ptr : Ptr) (data : List UInt8) (size nmemb : Nat) :
    (fat16Write state ptr data size nmemb).2 = state ∨
    ∃ descriptor item, state.descriptors ptr = some descriptor ∧ descriptor.item.data = .file item ∧
      (fat16Write state ptr data size nmemb).2 =
        state.set ptr (some (writeFileItem state.volume descriptor item data size nmemb).2.1)
          (writeFileItem state.volume descriptor item data size nmemb).2.2 := by
  rw [fat16Write]
  split
  · exact .inl rfl
  next descriptor isOpen =>
    split
    · exact .inl rfl
    next item isFile =>
      split
      · exact .inl rfl
      · refine .inr ⟨descriptor, item, isOpen, isFile, ?_⟩
        rcases writeFileItem state.volume descriptor item data size nmemb with ⟨res, written, volume⟩
        rfl

/-- `fat16_fs`, on the one disk that has a filesystem. -/
def fat16Fs : Filesystem (FatState σ) where
  openFile := fun state _ path mode => fat16Open state path mode
  readFile := fun state _ ptr size nmemb => fat16Read state ptr size nmemb
  writeFile := fun state _ ptr data size nmemb => fat16Write state ptr data size nmemb
  seekFile := fun state ptr offset whence => fat16Seek state ptr offset whence
  statFile := fun state _ ptr => fat16Stat state ptr
  closeFile := fun state ptr => fat16Close state ptr

end ViOS.Fs
