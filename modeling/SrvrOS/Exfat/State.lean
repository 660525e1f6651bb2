import SrvrOS.Exfat.EntrySet
import SrvrOS.Lib.Act
import SrvrOS.Lib.Crash

/-!
# State of the exFAT driver

The mount table of `kernel/src/fs/exfat.c`, the VFS nodes it publishes, the stream leases and the
disks behind the mounts. An environment fixes for every call whether the heap, a read, a write, a
flush, an admission or the clock behaves.

The block layer is used through its contract: a failed write leaves a part of its bytes changed. A
disk keeps the order of its writes and flushes. The read-through copies of an outer mutation, the
cost counters and image mounts, on which no mutation is admitted, are left out.
-/

namespace SrvrOS.Exfat

open Lib Act

/-! ## Disks -/

/-- A block device. `trace` lists its events, newest first, since it held `origin`. -/
structure Disk where
  size : Nat
  blockSize : Nat
  maxTransferBytes : Nat
  writable : Bool
  flushable : Bool
  origin : Store UInt8
  medium : Store UInt8
  trace : List (Event UInt8)

/-- The outcome of one write: complete, or only the first `reached` bytes. -/
structure WriteFault where
  ok : Bool
  reached : Nat

/-- The behaviour of everything outside the driver, by call number. -/
structure Env where
  heap : Nat → Bool
  read : Nat → Bool
  write : Nat → WriteFault
  flush : Nat → Bool
  online : Nat → Bool
  admitted : Nat → Bool
  claimed : Nat → Bool
  opened : Nat → Bool
  time : Nat → Nat

/-! ## VFS nodes -/

/-- `struct vfs_metadata`. -/
structure Metadata where
  inode : Nat
  mode : Nat
  nlink : Nat
  uid : Nat
  gid : Nat
  atime : Nat
  mtime : Nat
  ctime : Nat
  deriving DecidableEq

/-- `enum vfs_node_type`. -/
inductive NodeType where
  | file
  | directory
  deriving DecidableEq

/-- `struct vfs_node`; `data` is the mount and the slot of an exFAT file. -/
structure Node where
  path : Path
  type : NodeType
  size : Nat
  metadata : Metadata
  data : Option (Nat × Nat)

/-- The node table. `nodes` lists the used slots in slot order. -/
structure Vfs where
  capacity : Nat
  nodes : List (Nat × Node)
  nextInode : Nat

/-! ## Mounts -/

/-- `struct exfat_volume`. -/
structure Volume where
  device : Nat
  imageSize : Nat
  sectorSize : Nat
  clusterSize : Nat
  fatOffsetBytes : Nat
  clusterHeapOffsetBytes : Nat
  allocationBitmapCluster : Nat
  allocationBitmapSize : Nat
  upcaseTableCluster : Nat
  upcaseTableSize : Nat
  upcaseTableChecksum : Nat
  bitmapSeen : Bool
  upcaseSeen : Bool
  clusterCount : Nat
  rootDirectoryCluster : Nat
  flags : Nat
  writeBlocked : Bool
  mutationWritten : Bool
  mutationDepth : Nat

structure ExfatFile where
  firstCluster : Nat
  size : Nat
  validSize : Nat
  allocatedClusters : Nat
  fileEntryOffset : Nat
  streamEntryOffset : Nat
  secondaryCount : Nat
  noFatChain : Bool
  deriving DecidableEq

/-- `struct exfat_file_slot`; an empty path marks a free slot. -/
structure FileSlot where
  path : Path
  file : ExfatFile
  deriving DecidableEq

/-- `struct exfat_directory`; an empty path marks a free slot. -/
structure Directory where
  path : Path
  firstCluster : Nat
  dataLength : Nat
  allocatedClusters : Nat
  fileEntryOffset : Nat
  secondaryCount : Nat
  noFatChain : Bool
  deriving DecidableEq

/-- `struct exfat_mount`; the tables are as long as `file_count` and `dir_count`. -/
structure Mount where
  used : Bool
  volume : Volume
  files : List FileSlot
  dirs : List Directory
  fileCapacity : Nat
  dirCapacity : Nat
  metadataCapacity : Nat
  mountpoint : Path

/-- `struct stream_lease`. The record pointer is the pair of mount and slot. -/
structure StreamLease where
  mount : Option Nat
  slot : Nat
  inode : Nat
  generation : Nat
  entry : Nat
  cursorIndex : Nat
  cursorCluster : Nat
  active : Bool
  retired : Bool
  output : Bool
  failed : Bool
  cursorValid : Bool

/-- The driver's state and its surroundings. -/
structure World where
  mounts : Nat → Mount
  disks : Nat → Disk
  vfs : Vfs
  leases : Nat → StreamLease
  metadataSyncing : Bool
  streamMutationDepth : Nat
  fsOperations : Nat
  env : Env
  tick : Nat

def exfatMaxVolumes : Nat := 4

def exfatMaxFiles : Nat := 8192

def exfatMaxDirs : Nat := 2048

def exfatNodeBlock : Nat := 64

def exfatFatChainEnd : Nat := 0xfffffff8

def World.volume (world : World) (m : Nat) : Volume := (world.mounts m).volume

def World.disk (world : World) (m : Nat) : Disk := world.disks (world.volume m).device

def World.medium (world : World) (m : Nat) : Store UInt8 := (world.disk m).medium

abbrev Driver := Act World

/-! ## Calls into the environment -/

def draw {α : Type} (answer : Env → Nat → α) : Driver α := fun world =>
  (some (answer world.env world.tick), { world with tick := world.tick + 1 })

def kmalloc : Driver Unit := do
  require ((← draw Env.heap) = true)

def updateMount (m : Nat) (change : Mount → Mount) : Driver Unit :=
  modify fun world =>
    { world with mounts := Function.update world.mounts m (change (world.mounts m)) }

def updateVolume (m : Nat) (change : Volume → Volume) : Driver Unit :=
  updateMount m fun mount => { mount with volume := change mount.volume }

/-- Every touched block is one event that carries the block as it now stands. -/
def Disk.put (disk : Disk) (offset : Nat) (data : Bytes) : Disk :=
  { disk with
    medium := disk.medium.write offset data
    trace := writeEvents disk.blockSize disk.medium offset data ++ disk.trace }

def updateDisk (device : Nat) (change : Disk → Disk) : Driver Unit :=
  modify fun world =>
    { world with disks := Function.update world.disks device (change (world.disks device)) }

/-- `block_write` on the device of a mount. -/
def blockWrite (m offset : Nat) (data : Bytes) : Driver Bool := do
  let fault ← draw Env.write
  let volume ← gets (·.volume m)
  updateDisk volume.device
    (·.put offset (if fault.ok then data else data.take fault.reached))
  return fault.ok

def volumeRead (m offset length : Nat) : Driver Bytes := do
  let volume ← gets (·.volume m)
  require (offset ≤ volume.imageSize ∧ length ≤ volume.imageSize - offset)
  require ((← draw Env.read) = true)
  gets fun world => (world.medium m).read offset length

def volumeWrite (m offset : Nat) (data : Bytes) : Driver Unit := do
  let volume ← gets (·.volume m)
  require (offset ≤ volume.imageSize ∧ data.length ≤ volume.imageSize - offset)
  require (volume.writeBlocked = false)
  updateVolume m ({ · with mutationWritten := true })
  if (← blockWrite m offset data) then pure ()
  else
    updateVolume m ({ · with writeBlocked := true })
    fail

def volumeFlush (m : Nat) : Driver Unit := do
  let disk ← gets (·.disk m)
  let volume ← gets (·.volume m)
  if (← draw Env.flush) && disk.flushable then
    updateDisk volume.device fun disk => { disk with trace := .flush :: disk.trace }
  else
    updateVolume m ({ · with writeBlocked := true })
    fail

/-! ## Clusters -/

def clusterOffset (volume : Volume) (cluster : Nat) : Option Nat :=
  if cluster < 2 ∨ volume.clusterCount + 2 ≤ cluster then none
  else
    let result := volume.clusterHeapOffsetBytes + (cluster - 2) * volume.clusterSize
    if volume.imageSize ≤ result ∨ volume.imageSize - result < volume.clusterSize then none
    else some result

/-- `cluster_offset` as an action on a mount. -/
def clusterBase (m cluster : Nat) : Driver Nat := do
  let volume ← gets (·.volume m)
  ofOption (clusterOffset volume cluster)

def nextCluster (m cluster : Nat) : Driver Nat := do
  let volume ← gets (·.volume m)
  let bytes ← volumeRead m (volume.fatOffsetBytes + cluster * 4) 4
  return leValue bytes

def followChain (m cluster : Nat) : Driver Nat := do
  let next ← nextCluster m cluster
  require (next < exfatFatChainEnd)
  return next

def writeFatEntry (m cluster value : Nat) : Driver Unit := do
  let volume ← gets (·.volume m)
  volumeWrite m (volume.fatOffsetBytes + cluster * 4) (leBytes 4 value)

/-- The loop of `fill_fat_range`: at most one 512-byte window at a time. -/
def fillFatLoop (m value : Nat) : Nat → Nat → Nat → Driver Unit
  | 0, _, _ => pure ()
  | fuel + 1, offset, bytes =>
    if bytes = 0 then pure ()
    else do
      let chunk := min (512 - offset % 512) bytes
      volumeWrite m offset
        (((List.replicate 128 (leBytes 4 value)).flatten).take chunk)
      fillFatLoop m value fuel (offset + chunk) (bytes - chunk)

def fillFatRange (m first count value : Nat) : Driver Unit := do
  let volume ← gets (·.volume m)
  require (2 ≤ first ∧ first < volume.clusterCount + 2 ∧
    count ≤ volume.clusterCount - (first - 2))
  fillFatLoop m value (count * 4) (volume.fatOffsetBytes + first * 4) (count * 4)

def clustersForSize (volume : Volume) (size : Nat) : Nat :=
  size / volume.clusterSize + if size % volume.clusterSize = 0 then 0 else 1

end SrvrOS.Exfat
