import SrvrOS.Exfat.Directory

/-!
# Creating, writing and deleting files and directories

The bodies of the public mutations. Each of them ends by bringing the metadata
sidecar up to date, which is itself a sequence of mutations; that call is the
parameter `sync`, which `SrvrOS.Exfat.Operations` supplies.
-/

namespace SrvrOS.Exfat

open Lib Act

variable (sync : Nat → Driver Unit)

def exfatMetadataChanged (path : Path) : Driver Unit := do
  let world ← gets id
  match findMountForPath world path with
  | none => pure ()
  | some m =>
    if world.metadataSyncing ∨ metadataPathIsInternal (world.mounts m).mountpoint path then
      pure ()
    else sync m

/-! ## File data -/

def srvFileStreamChunk : Nat := 65536

def blockMaxBatchBytes : Nat := 16384

/-- The transfer buffer of `write_file_data_impl`. -/
def writeBufferBytes (world : World) (m : Nat) (noFatChain : Bool) : Nat :=
  let clusterSize := (world.volume m).clusterSize
  let limit := min (world.disk m).maxTransferBytes blockMaxBatchBytes
  let limit := if world.streamMutationDepth ≠ 0 then min limit srvFileStreamChunk else limit
  if noFatChain ∧ clusterSize < limit then limit - limit % clusterSize else clusterSize

/-- The loop of `write_file_data_impl` with `data` still to be written from `cluster`. -/
def writeDataLoop (m : Nat) (noFatChain : Bool) (bufferBytes : Nat) :
    Nat → Nat → Nat → Bytes → Driver Unit
  | 0, _, _, _ => pure ()
  | fuel + 1, clusters, cluster, data =>
    if clusters = 0 then pure ()
    else do
      let volume ← gets (·.volume m)
      let needed := (data.length + volume.clusterSize - 1) / volume.clusterSize
      let span := min (min (bufferBytes / volume.clusterSize) clusters) needed
      let offset ← clusterBase m cluster
      let _ ← clusterBase m (cluster + span - 1)
      let bytes := span * volume.clusterSize
      let chunk := min bytes data.length
      volumeWrite m offset (data.take chunk ++ List.replicate (bytes - chunk) 0)
      if data.length ≤ chunk then pure ()
      else
        let next ← (if noFatChain then pure (cluster + span) else followChain m cluster)
        writeDataLoop m noFatChain bufferBytes fuel (clusters - span) next (data.drop chunk)

def writeFileData (m : Nat) (file : ExfatFile) (data : Bytes) : Driver Unit := do
  if data = [] then pure ()
  else
    let world ← gets id
    require (data.length ≤ file.allocatedClusters * (world.volume m).clusterSize)
    kmalloc
    writeDataLoop m file.noFatChain (writeBufferBytes world m file.noFatChain)
      file.allocatedClusters file.allocatedClusters file.firstCluster data

/-! ## Appending in place -/

/-- Compare one cluster with the caller's data, 16 KiB at a time; false on a difference. -/
def compareCluster (m base : Nat) : Nat → Nat → Bytes → Driver Bool
  | 0, _, _ => pure true
  | fuel + 1, done, expected =>
    if expected = [] then pure true
    else do
      let count := min expected.length 16384
      let buffer ← volumeRead m (base + done) count
      if buffer = expected.take count then
        compareCluster m base fuel (done + count) (expected.drop count)
      else return false

/-- The proof loop of `append_file`: the last cluster, or `none` on a difference. -/
def provenPrefix (m : Nat) (noFatChain : Bool) : Nat → Nat → Bytes → Driver (Option Nat)
  | 0, last, _ => pure (some last)
  | fuel + 1, cluster, expected => do
      let volume ← gets (·.volume m)
      let base ← clusterBase m cluster
      let bytes := min expected.length volume.clusterSize
      if ← compareCluster m base bytes 0 (expected.take bytes) then
        if expected.length ≤ bytes then return some cluster
        else
          let next ← (if noFatChain then pure (cluster + 1) else followChain m cluster)
          provenPrefix m noFatChain fuel next (expected.drop bytes)
      else return none

/-- Link each cluster of a contiguous run to its successor, but not the last one. -/
def linkRun (m first count : Nat) : Driver Unit :=
  (List.range (count - 1)).forM fun i => writeFatEntry m (first + i) (first + i + 1)

/-- The data loop of `append_file` and `exfat_stream_append`: the cluster of the last byte. -/
def appendLoop (m first : Nat) (contiguous : Bool) :
    Nat → Nat → Nat → Bool → Bytes → Driver Nat
  | 0, cluster, _, _, _ => pure cluster
  | fuel + 1, cluster, within, oldTail, data =>
    if data = [] then pure cluster
    else do
      let volume ← gets (·.volume m)
      let bytes := min (volume.clusterSize - within) data.length
      let offset ← clusterBase m cluster
      volumeWrite m (offset + within) (data.take bytes)
      if data.length ≤ bytes then return cluster
      else
        let next ←
          (if oldTail then pure first
          else if contiguous then pure (cluster + 1)
          else followChain m cluster)
        appendLoop m first contiguous fuel next 0 false (data.drop bytes)

/-- Link new clusters to the old tail of a file and make the link durable. -/
def attachChain (m last first : Nat) : Driver Unit := do
  writeFatEntry m last first
  volumeFlush m

/-- Whether another published file starts at the same cluster. -/
def firstClusterShared (mount : Mount) (index firstCluster : Nat) : Bool :=
  mount.files.zipIdx.any fun (slot, i) =>
    i != index && slot.path != [] && slot.file.firstCluster == firstCluster

/-- `append_file`: `false` asks for the copying path instead. -/
def appendFile (m index : Nat) (path : Path) (data : Bytes) : Driver Bool := do
  let world ← gets id
  let volume := world.volume m
  let file := (← fileSlot m index).file
  let block := (world.disk m).blockSize
  if file.size = 0 ∨ data.length ≤ file.size ∨ file.validSize ≠ file.size ∨ block = 0 ∨
      volume.clusterSize % block ≠ 0 ∨ volume.clusterHeapOffsetBytes % block ≠ 0 ∨
      file.size % block ≠ 0 ∨ file.allocatedClusters ≠ clustersForSize volume file.size ∨
      firstClusterShared (world.mounts m) index file.firstCluster then
    return false
  kmalloc
  match ← provenPrefix m file.noFatChain file.allocatedClusters file.firstCluster
      (data.take file.size) with
  | none => return false
  | some last =>
    let clusters := clustersForSize volume data.length
    let added := clusters - file.allocatedClusters
    let (first, contiguous) ← allocateClusters m added
    when (contiguous = true) (linkRun m first added)
    when (added ≠ 0 ∧ file.noFatChain = true)
      (linkRun m file.firstCluster file.allocatedClusters)
    let within := file.size % volume.clusterSize
    let _ ← appendLoop m first contiguous data.length
      (if within ≠ 0 then last else first) within (within ≠ 0) (data.drop file.size)
    volumeFlush m
    when (added ≠ 0) (attachChain m last first)
    updateFile m index fun record =>
      { record with
        allocatedClusters := clusters
        noFatChain := if added ≠ 0 then false else record.noFatChain }
    onFailure (updateSlotLength m index path data.length)
      (updateFile m index fun record =>
        { record with
          allocatedClusters := file.allocatedClusters
          noFatChain := file.noFatChain })
    volumeFlush m
    exfatMetadataChanged sync path
    return true

/-! ## Overwriting -/

/-- Take the extent off a record. It is emptied first, so that its entry set is written with the new
fields, and gets its extent back when that fails. -/
def detachExtent (m index : Nat) (path : Path) : Driver ExfatFile := do
  let old := (← fileSlot m index).file
  updateFile m index
    ({ · with firstCluster := 0, allocatedClusters := 0, noFatChain := true })
  onFailure (updateSlotLength m index path 0)
    (updateFile m index fun record =>
      { record with
        firstCluster := old.firstCluster
        allocatedClusters := old.allocatedClusters
        noFatChain := old.noFatChain })
  return old

/-- The branch of `overwrite_file` for an empty file. -/
def truncateFile (m index : Nat) (path : Path) : Driver Unit := do
  let old ← detachExtent m index path
  volumeFlush m
  freeFileClusters m old
  exfatMetadataChanged sync path

/-- The copying branch of `overwrite_file`: the new data goes to new clusters. -/
def replaceContents (m index : Nat) (path : Path) (data : Bytes) : Driver Unit := do
  let volume ← gets (·.volume m)
  let old := (← fileSlot m index).file
  let count := clustersForSize volume data.length
  let (first, noFatChain) ← allocateClusters m count
  let scratch := scratchFile first count data.length noFatChain
  onFailure (writeFileData m scratch data) (ignore (freeFileClusters m scratch))
  volumeFlush m
  updateFile m index
    ({ · with firstCluster := first, allocatedClusters := count, noFatChain := noFatChain })
  onFailure (updateSlotLength m index path data.length) do
    updateFile m index fun record =>
      { record with
        firstCluster := old.firstCluster
        allocatedClusters := old.allocatedClusters
        noFatChain := old.noFatChain }
    ignore (freeFileClusters m scratch)
  volumeFlush m
  freeFileClusters m old
  exfatMetadataChanged sync path

def overwriteFile (path : Path) (data : Bytes) : Driver Unit := do
  let world ← gets id
  let (m, index) ← ofOption (findMountAndIndexForFile world path)
  if data = [] then truncateFile sync m index path
  else if ← appendFile sync m index path data then pure ()
  else replaceContents sync m index path data

/-! ## Registration -/

/-- Store a file record in the first free slot of the table. -/
def placeFile (slot : FileSlot) (files : List FileSlot) : Nat × List FileSlot :=
  match files.findIdx? (·.path = []) with
  | some index => (index, files.set index slot)
  | none => (files.length, files ++ [slot])

/-- Store a directory record in the first free slot of the table. -/
def placeDirectory (slot : Directory) (dirs : List Directory) : Nat × List Directory :=
  match dirs.findIdx? (·.path = []) with
  | some index => (index, dirs.set index slot)
  | none => (dirs.length, dirs ++ [slot])

/-- `register_file`; the slot stays free when the node cannot be published. -/
def registerFile (m : Nat) (parent : Path) (entries : Bytes) (offset : Nat) :
    Driver Unit := do
  let world ← gets id
  let stream := streamEntry entries
  require (leField entries 4 2 / 16 % 2 = 0 ∧
    ¬(stream.dataLength ≠ 0 ∧ stream.firstCluster < 2))
  let path ← ofOption (buildChildPath parent entries)
  require (nameConflicts world path none = false)
  let mount := world.mounts m
  let slot : FileSlot :=
    { path := path
      file :=
        { firstCluster := stream.firstCluster
          size := stream.dataLength
          validSize := stream.validDataLength
          allocatedClusters := clustersForSize mount.volume stream.dataLength
          fileEntryOffset := offset
          streamEntryOffset := offset + exfatEntrySize
          secondaryCount := leField entries 1 1
          noFatChain := stream.noFatChain } }
  let index := (placeFile slot mount.files).1
  require (index < exfatMaxFiles)
  reserveTables m (index + 1) mount.dirs.length
  vfsReserveNodes 1
  vfsRegister path .file stream.dataLength (some (m, index)) none
  updateMount m fun mount => { mount with files := (placeFile slot mount.files).2 }

def registerDirectory (m : Nat) (slot : Directory) : Driver Unit := do
  let world ← gets id
  require (slot.path ≠ [] ∧ nameConflicts world slot.path none = false)
  let mount := world.mounts m
  let index := (placeDirectory slot mount.dirs).1
  require (index < exfatMaxDirs)
  reserveTables m mount.files.length (index + 1)
  vfsReserveNodes 1
  vfsRegister slot.path .directory 0 none none
  updateMount m fun mount => { mount with dirs := (placeDirectory slot mount.dirs).2 }

/-- The record `register_directory` stores; its callers' paths fit the path buffer. -/
def directoryRecord (volume : Volume) (path : Path) (firstCluster : Nat) (noFatChain : Bool)
    (dataLength fileEntryOffset secondaryCount : Nat) : Directory :=
  { path, firstCluster, dataLength
    allocatedClusters := max 1 (clustersForSize volume dataLength)
    fileEntryOffset, secondaryCount, noFatChain }

/-- `initialize_mode`; `none` is the caller's `UINT64_MAX`. -/
def initializeMode (path : Path) (mode : Option Nat) : Driver Unit :=
  match mode with
  | none => pure ()
  | some mode => do
      let world ← gets id
      let node ← ofOption (vfsLookup world.vfs path)
      vfsSetMetadata path
        { node.metadata with mode := (node.metadata.mode &&& vfsModeIfmt) ||| (mode &&& 0o7777) }

/-- `exfat_sync_mount_metadata` after a change outside the sidecar; its result is
ignored. -/
def syncUnlessInternal (m : Nat) (path : Path) : Driver Unit := do
  let world ← gets id
  if metadataPathIsInternal (world.mounts m).mountpoint path then pure ()
  else ignore (sync m)

/-! ## Creation -/

/-- Write an entry set and hand its offset to `register`; the displaced entries are put back when
that fails. -/
def publishEntrySet (m parent : Nat) (entries : Bytes) (register : Nat → Driver Unit) :
    Driver Unit := do
  let count := entries.length / exfatEntrySize
  let offset ← directoryFreeOffset m parent count
  let displaced ← readEntryRun m offset count
  onFailure
    (do
      volumeWrite m offset entries
      register offset)
    (restoreEntryRun m offset displaced)

def createFile (path : Path) (data : Bytes) (mode : Option Nat) : Driver Unit := do
  let world ← gets id
  let (m, parent, name) ← ofOption (findMountAndParentDirectory world path)
  let mount := world.mounts m
  let directory ← ofOption mount.dirs[parent]?
  require ((mount.files.length < exfatMaxFiles ∨ mount.usedFiles < mount.files.length) ∧
    vfsLookup world.vfs path = none)
  let count := clustersForSize mount.volume data.length
  let (first, noFatChain) ← allocateClusters m count
  let scratch := scratchFile first count data.length noFatChain
  onFailure (writeFileData m scratch data) (ignore (freeFileClusters m scratch))
  volumeFlush m
  onFailure
    (do
      let entries ← ofOption (buildFileEntrySet
        { name := name, firstCluster := first, dataLength := data.length,
          validLength := data.length, attributes := 0x20, noFatChain := noFatChain })
      publishEntrySet m parent entries (registerFile m directory.path entries))
    (ignore (freeFileClusters m scratch))
  initializeMode path mode
  syncUnlessInternal sync m path

def exfatWriteFileImpl (path : Path) (data : Bytes) (mode : Option Nat) : Driver Unit := do
  let world ← gets id
  if (findMountAndIndexForFile world path).isSome then overwriteFile sync path data
  else createFile sync path data mode

def exfatCreateDirectoryImpl (path : Path) (mode : Option Nat) : Driver Unit := do
  let world ← gets id
  let (m, parent, name) ← ofOption (findMountAndParentDirectory world path)
  let volume := world.volume m
  require ((world.mounts m).usedDirs < exfatMaxDirs ∧ vfsLookup world.vfs path = none)
  let first ← allocateContiguousClusters m 1
  onFailure
    (do
      kmalloc
      writeFileData m (scratchFile first 1 volume.clusterSize true)
        (List.replicate volume.clusterSize 0))
    (releaseCreatedClusters m first 1)
  volumeFlush m
  onFailure
    (do
      let entries ← ofOption (buildFileEntrySet
        { name := name, firstCluster := first, dataLength := volume.clusterSize,
          validLength := volume.clusterSize, attributes := exfatAttrDirectory,
          noFatChain := true })
      publishEntrySet m parent entries fun offset =>
        registerDirectory m (directoryRecord volume path first true volume.clusterSize offset
          (entries.length / exfatEntrySize - 1)))
    (releaseCreatedClusters m first 1)
  initializeMode path mode
  syncUnlessInternal sync m path

end SrvrOS.Exfat
