import SrvrOS.Exfat.Transaction

/-!
# Cluster allocation

The allocation bitmap is one cluster; the FAT links clusters of fragmented extents.
Allocation prefers one contiguous run and falls back to a FAT chain. Releasing an
extent spares clusters that another published record still owns.
-/

namespace SrvrOS.Exfat

open Lib Act

def bitmapBitIsSet (bitmap : Bytes) (index : Nat) : Bool :=
  ((bitmap[index / 8]?).getD 0).toNat / 2 ^ (index % 8) % 2 == 1

def bitmapSetBit (bitmap : Bytes) (index : Nat) : Bytes :=
  bitmap.modify (index / 8) fun byte =>
    if byte.toNat / 2 ^ (index % 8) % 2 = 1 then byte
    else UInt8.ofNat (byte.toNat + 2 ^ (index % 8))

def bitmapClearBit (bitmap : Bytes) (index : Nat) : Bytes :=
  bitmap.modify (index / 8) fun byte =>
    if byte.toNat / 2 ^ (index % 8) % 2 = 1 then
      UInt8.ofNat (byte.toNat - 2 ^ (index % 8))
    else byte

def allocationBitmapBytes (volume : Volume) : Nat :=
  let bytes := (volume.clusterCount + 7) / 8
  let bytes :=
    if volume.allocationBitmapSize ≠ 0 ∧ volume.allocationBitmapSize < bytes then
      volume.allocationBitmapSize
    else bytes
  min bytes volume.clusterSize

/-- `write_bitmap_span`: only the bytes that cover the changed bits. -/
def writeBitmapSpan (m offset : Nat) (bitmap : Bytes) (firstBit lastBit : Nat) :
    Driver Unit := do
  let volume ← gets (·.volume m)
  let bytes := allocationBitmapBytes volume
  require (bytes ≠ 0 ∧ firstBit ≤ lastBit ∧ lastBit / 8 < bytes)
  volumeWrite m (offset + firstBit / 8)
    ((bitmap.drop (firstBit / 8)).take (lastBit / 8 - firstBit / 8 + 1))

/-- Read the allocation bitmap: its offset and its cluster. -/
def readBitmap (m : Nat) : Driver (Nat × Bytes) := do
  let volume ← gets (·.volume m)
  let offset ← clusterBase m volume.allocationBitmapCluster
  let bitmap ← volumeRead m offset volume.clusterSize
  return (offset, bitmap)

/-- The number of clusters the allocator looks at. -/
def searchLimit (volume : Volume) : Nat :=
  min volume.clusterCount (allocationBitmapBytes volume * 8)

/-- The search loop of `allocate_contiguous_clusters_impl`: the first free run of `count` bits. -/
def findFreeRun (bitmap : Bytes) (count : Nat) : Nat → Nat → Nat → Nat → Option Nat
  | 0, _, _, _ => none
  | rest + 1, index, runStart, runLength =>
    if bitmapBitIsSet bitmap index then findFreeRun bitmap count rest (index + 1) runStart 0
    else
      let start := if runLength = 0 then index else runStart
      if runLength + 1 = count then some start
      else findFreeRun bitmap count rest (index + 1) start (runLength + 1)

def allocateContiguousClusters (m count : Nat) : Driver Nat := do
  let volume ← gets (·.volume m)
  require (2 ≤ volume.allocationBitmapCluster ∧ count ≠ 0)
  kmalloc
  let (offset, bitmap) ← readBitmap m
  require (count ≤ allocationBitmapBytes volume * 8)
  let start ← ofOption (findFreeRun bitmap count (searchLimit volume) 0 0 0)
  let marked := (List.range' start count).foldl bitmapSetBit bitmap
  fillFatRange m (start + 2) count 0xffffffff
  writeBitmapSpan m offset marked start (start + count - 1)
  return start + 2

/-- The search loop of `allocate_fragmented_clusters_impl`: the first `count` free
clusters. -/
def findFreeClusters (bitmap : Bytes) : Nat → Nat → Nat → List Nat
  | 0, _, _ => []
  | _ + 1, _, 0 => []
  | rest + 1, index, count + 1 =>
    if bitmapBitIsSet bitmap index then findFreeClusters bitmap rest (index + 1) (count + 1)
    else (index + 2) :: findFreeClusters bitmap rest (index + 1) count

/-- `clear_fat_entries`: best effort. -/
def clearFatEntries (m : Nat) : List Nat → Driver Unit
  | [] => pure ()
  | cluster :: rest => do
      ignore (writeFatEntry m cluster 0)
      clearFatEntries m rest

/-- The link loop of `allocate_fragmented_clusters_impl`; `linked` is cleared on a failure. -/
def linkClusters (m : Nat) : List Nat → List Nat → Driver Unit
  | _, [] => pure ()
  | linked, cluster :: rest => do
      onFailure (writeFatEntry m cluster (rest.head?.getD 0xffffffff))
        (clearFatEntries m linked)
      linkClusters m (linked ++ [cluster]) rest

def allocateFragmentedClusters (m count : Nat) : Driver Nat := do
  let volume ← gets (·.volume m)
  require (2 ≤ volume.allocationBitmapCluster ∧ count ≠ 0)
  let array ← attempt kmalloc
  let buffer ← attempt kmalloc
  require (array.isSome ∧ buffer.isSome)
  let (offset, bitmap) ← readBitmap m
  let clusters := findFreeClusters bitmap (searchLimit volume) 0 count
  require (clusters.length = count)
  let marked := (clusters.map (· - 2)).foldl bitmapSetBit bitmap
  linkClusters m [] clusters
  onFailure
    (writeBitmapSpan m offset marked (clusters.headD 0 - 2) (clusters.getLastD 0 - 2))
    (clearFatEntries m clusters)
  return clusters.headD 0

/-- `allocate_clusters`: the first cluster and whether the extent is contiguous. -/
def allocateClusters (m count : Nat) : Driver (Nat × Bool) := do
  let volume ← gets (·.volume m)
  require (count ≤ volume.clusterCount)
  if count = 0 then return (0, true)
  else
    match ← attempt (allocateContiguousClusters m count) with
    | some first => return (first, true)
    | none =>
      let volume ← gets (·.volume m)
      require (volume.writeBlocked = false)
      let first ← allocateFragmentedClusters m count
      return (first, false)

/-! ## Release -/

/-- Whether a published file still owns exactly this extent. -/
def extentAliased (mount : Mount) (file : ExfatFile) : Bool :=
  mount.files.any fun slot =>
    slot.path != [] && slot.file.firstCluster == file.firstCluster &&
      slot.file.allocatedClusters == file.allocatedClusters &&
      slot.file.noFatChain == file.noFatChain

/-- The loop of `free_file_clusters_impl` over the remaining clusters, with the touched bit range.
-/
def releaseLoop (m : Nat) (noFatChain : Bool) :
    Nat → Nat → Bytes → Option (Nat × Nat) → Driver (Bytes × Option (Nat × Nat))
  | 0, _, bitmap, span => pure (bitmap, span)
  | rest + 1, cluster, bitmap, span => do
      let volume ← gets (·.volume m)
      require (2 ≤ cluster ∧ cluster < volume.clusterCount + 2)
      let next ←
        (if !noFatChain && decide (rest ≠ 0) then nextCluster m cluster
        else pure (cluster + 1))
      let bit := cluster - 2
      let (bitmap, span) :=
        if bit < allocationBitmapBytes volume * 8 then
          (bitmapClearBit bitmap bit,
            match span with
            | none => some (bit, bit)
            | some (first, last) => some (min bit first, max bit last))
        else (bitmap, span)
      when (noFatChain = false) (writeFatEntry m cluster 0)
      releaseLoop m noFatChain rest (if noFatChain then cluster + 1 else next) bitmap span

def freeFileClusters (m : Nat) (file : ExfatFile) : Driver Unit := do
  let volume ← gets (·.volume m)
  let mount ← gets (·.mounts m)
  if volume.allocationBitmapCluster < 2 ∨ file.firstCluster < 2 ∨ file.allocatedClusters = 0 then
    pure ()
  else if extentAliased mount file then pure ()
  else
    kmalloc
    let (offset, bitmap) ← readBitmap m
    let (cleared, span) ←
      releaseLoop m file.noFatChain file.allocatedClusters file.firstCluster bitmap none
    when (file.noFatChain = true)
      (fillFatRange m file.firstCluster file.allocatedClusters 0)
    let (first, last) ← ofOption span
    writeBitmapSpan m offset cleared first last

/-- A descriptor of an extent that no record holds. -/
def scratchFile (firstCluster allocatedClusters size : Nat) (noFatChain : Bool) : ExfatFile :=
  { firstCluster, size, validSize := size, allocatedClusters, fileEntryOffset := 0,
    streamEntryOffset := 0, secondaryCount := 0, noFatChain }

def releaseCreatedClusters (m firstCluster count : Nat) : Driver Unit :=
  ignore (freeFileClusters m (scratchFile firstCluster count 0 true))

end SrvrOS.Exfat
