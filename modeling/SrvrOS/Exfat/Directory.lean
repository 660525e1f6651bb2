import SrvrOS.Exfat.Allocation

/-!
# Directory records

Finding room for an entry set, growing a directory by a cluster, and rewriting,
deleting and restoring the sets of existing records.
-/

namespace SrvrOS.Exfat

open Lib Act

/-! ## Existing records -/

/-- An entry set with new stream fields, as `update_file_length` patches it. -/
def patchedEntrySet (entries : Bytes) (flags : UInt8) (firstCluster size : Nat) : Bytes :=
  let stream := exfatEntrySize
  let patched :=
    entries.take (stream + 1) ++ [flags] ++ (entries.drop (stream + 2)).take 6 ++
      leBytes 8 size ++ (entries.drop (stream + 16)).take 4 ++ leBytes 4 firstCluster ++
      leBytes 8 size ++ entries.drop (stream + 32)
  patched.take 2 ++ leBytes 2 (entrySetChecksum patched) ++ patched.drop 4

/-- `update_file_length` on the medium and in the VFS; the caller updates its record. -/
def updateFileLength (m : Nat) (file : ExfatFile) (path : Path) (size : Nat) :
    Driver Unit := do
  let count := file.secondaryCount + 1
  require (3 ≤ count ∧ count ≤ exfatMaxFileEntries ∧
    file.streamEntryOffset = file.fileEntryOffset + exfatEntrySize)
  let entries ← volumeRead m file.fileEntryOffset (count * exfatEntrySize)
  require (entries[0]? = some exfatEntryFile ∧
    leField entries 1 1 = file.secondaryCount ∧
    entries[exfatEntrySize]? = some exfatEntryStream)
  let flags := if file.noFatChain && size != 0 then 0x03 else 0x01
  volumeWrite m file.fileEntryOffset (patchedEntrySet entries flags file.firstCluster size)
  ignore (vfsUpdateFileSize path size)

/-- `update_file_length` on a file slot. -/
def updateSlotLength (m index : Nat) (path : Path) (size : Nat) : Driver Unit := do
  let slot ← fileSlot m index
  updateFileLength m slot.file path size
  updateFile m index ({ · with size := size, validSize := size })

def readEntryRun (m offset count : Nat) : Driver Bytes := do
  require (count ≠ 0 ∧ count ≤ exfatMaxFileEntries)
  volumeRead m offset (count * exfatEntrySize)

/-- `restore_entry_run`: best effort. -/
def restoreEntryRun (m offset : Nat) (entries : Bytes) : Driver Unit :=
  ignore (volumeWrite m offset entries)

def writeDeletedEntries (m offset secondaryCount : Nat) : Driver Unit := do
  require (3 ≤ secondaryCount + 1 ∧ secondaryCount + 1 ≤ exfatMaxFileEntries)
  volumeFlush m
  volumeWrite m offset (deletedEntries (secondaryCount + 1))

def writeInactiveEntryRun (m offset count : Nat) : Driver Unit :=
  if count = 0 ∨ exfatMaxFileEntries < count then pure ()
  else volumeWrite m offset (inactiveEntries count)

/-! ## Room for new records -/

/-- The loop of `scan_directory_cluster_for_free` over the remaining entries. -/
def freeEntryRun (buffer : Bytes) (clusterSize needed : Nat) :
    Nat → Nat → Nat → Nat → Option Nat
  | 0, _, _, _ => none
  | rest + 1, offset, runStart, runLength =>
    let kind := (buffer[offset]?).getD 0
    if rootEntryIsFree kind then
      let start := if runLength = 0 then offset else runStart
      if kind = exfatEntryEnd then
        if clusterSize - start < needed * exfatEntrySize then none else some start
      else if runLength + 1 = needed then some start
      else freeEntryRun buffer clusterSize needed rest (offset + exfatEntrySize) start
        (runLength + 1)
    else freeEntryRun buffer clusterSize needed rest (offset + exfatEntrySize) runStart 0

def scanDirectoryClusterForFree (buffer : Bytes) (clusterSize needed : Nat) : Option Nat :=
  if needed = 0 ∨ clusterSize / exfatEntrySize < needed then none
  else freeEntryRun buffer clusterSize needed (clusterSize / exfatEntrySize) 0 0 0

/-- The offset of the first END entry among the remaining ones. -/
def firstEnd (buffer : Bytes) : Nat → Nat → Option Nat
  | 0, _ => none
  | rest + 1, offset =>
    if (buffer[offset]?).getD 0 = exfatEntryEnd then some offset
    else firstEnd buffer rest (offset + exfatEntrySize)

/-- The per-cluster step of `prepare_directory_prefix`: whether END has been reached. -/
def prepareCluster (m base : Nat) (buffer : Bytes) (clusterSize : Nat) (isTarget : Bool)
    (reserved : Nat) (afterEnd : Bool) : Driver Bool := do
  let stop :=
    if afterEnd then some 0 else firstEnd buffer (clusterSize / exfatEntrySize) 0
  match stop with
  | none => return false
  | some stop =>
    if !isTarget || decide (stop < reserved) then
      let fill : UInt8 := if isTarget then 0 else 0x05
      if (buffer.drop stop).all (· == fill) then return true
      else
        volumeWrite m (base + stop) (List.replicate (clusterSize - stop) fill)
        volumeFlush m
        return true
    else return true

/-- The cluster loop of `prepare_directory_prefix`; `target` zero means past the end. -/
def preparePrefixLoop (m : Nat) (directory : Directory) (target reserved : Nat) :
    Nat → Nat → Nat → Bool → Driver Unit
  | 0, _, _, _ => fail
  | fuel + 1, visited, cluster, afterEnd => do
      let volume ← gets (·.volume m)
      let base ← clusterBase m cluster
      let buffer ← volumeRead m base volume.clusterSize
      let afterEnd ← prepareCluster m base buffer volume.clusterSize (cluster == target)
        reserved afterEnd
      if cluster = target then pure ()
      else if directory.noFatChain then
        if visited + 1 = directory.allocatedClusters then require (target = 0)
        else
          preparePrefixLoop m directory target reserved fuel (visited + 1) (cluster + 1) afterEnd
      else
        let next ← nextCluster m cluster
        if exfatFatChainEnd ≤ next then require (target = 0)
        else preparePrefixLoop m directory target reserved fuel (visited + 1) next afterEnd

/-- `prepare_directory_prefix` for `entries` entries at `slot` of cluster `target`. -/
def prepareDirectoryPrefix (m : Nat) (directory : Directory) (target slot entries : Nat) :
    Driver Unit := do
  let volume ← gets (·.volume m)
  preparePrefixLoop m directory target (slot + entries * exfatEntrySize) volume.clusterCount 0
    directory.firstCluster false

/-- Where the search of `directory_free_offset` ends: room in a cluster, or the last
cluster of the directory. -/
inductive FreeSearch where
  | room (cluster base offset : Nat)
  | full (last : Nat)

/-- The cluster loop of `directory_free_offset`. -/
def freeOffsetLoop (m : Nat) (directory : Directory) (needed : Nat) :
    Nat → Nat → Nat → Nat → Bool → Driver FreeSearch
  | 0, _, _, previous, _ => pure (.full previous)
  | fuel + 1, visited, cluster, previous, afterEnd =>
    if cluster < 2 ∨ exfatFatChainEnd ≤ cluster then pure (.full previous)
    else do
      let volume ← gets (·.volume m)
      let base ← clusterBase m cluster
      let read ← volumeRead m base volume.clusterSize
      let buffer := if afterEnd then List.replicate volume.clusterSize 0 else read
      match scanDirectoryClusterForFree buffer volume.clusterSize needed with
      | some offset => return .room cluster base offset
      | none =>
        let afterEnd := afterEnd ||
          (firstEnd buffer (volume.clusterSize / exfatEntrySize) 0).isSome
        let next ←
          (if directory.noFatChain then
            if directory.allocatedClusters ≤ visited + 1 then pure exfatFatChainEnd
            else pure (cluster + 1)
          else nextCluster m cluster)
        freeOffsetLoop m directory needed fuel (visited + 1) next cluster afterEnd

/-- The links of a contiguous directory that grows. -/
def linkContiguous (m : Nat) : Nat → Nat → Nat → Driver Unit
  | 0, _, _ => pure ()
  | rest + 1, cluster, last => do
      writeFatEntry m cluster (if rest = 0 then last else cluster + 1)
      linkContiguous m rest (cluster + 1) last

/-- The longer length of a directory in its own record, which the root has not. -/
def growDirectoryLength (m index : Nat) (directory : Directory) : Driver Unit := do
  let volume ← gets (·.volume m)
  updateFileLength m
    { scratchFile directory.firstCluster 0 0 false with
      fileEntryOffset := directory.fileEntryOffset
      streamEntryOffset := directory.fileEntryOffset + exfatEntrySize
      secondaryCount := directory.secondaryCount }
    directory.path (directory.dataLength + volume.clusterSize)
  updateDir m index fun directory =>
    { directory with dataLength := directory.dataLength + volume.clusterSize }

/-- The growing half of `directory_free_offset`: append a zeroed cluster. -/
def growDirectory (m index : Nat) (directory : Directory) (previous : Nat) : Driver Nat := do
  let volume ← gets (·.volume m)
  let newCluster ← allocateContiguousClusters m 1
  let base ← onFailure
    (do
      let base ← clusterBase m newCluster
      volumeWrite m base (List.replicate volume.clusterSize 0)
      volumeFlush m
      return base)
    (releaseCreatedClusters m newCluster 1)
  onFailure (prepareDirectoryPrefix m directory 0 0 0)
    (releaseCreatedClusters m newCluster 1)
  (if directory.noFatChain then
    linkContiguous m directory.allocatedClusters directory.firstCluster newCluster
  else writeFatEntry m previous newCluster)
  volumeFlush m
  when (directory.fileEntryOffset ≠ 0) (growDirectoryLength m index directory)
  updateDir m index fun directory =>
    { directory with
      allocatedClusters := directory.allocatedClusters + 1
      noFatChain := false }
  return base

/-- `directory_free_offset` for the directory in slot `index`. -/
def directoryFreeOffset (m index needed : Nat) : Driver Nat := do
  let volume ← gets (·.volume m)
  let directory ← dirSlot m index
  require (needed ≠ 0 ∧ needed ≤ volume.clusterSize / exfatEntrySize)
  kmalloc
  match ← freeOffsetLoop m directory needed volume.clusterCount 0 directory.firstCluster 0
      false with
  | .room cluster base offset =>
    prepareDirectoryPrefix m directory cluster offset needed
    return base + offset
  | .full previous =>
    require (2 ≤ previous ∧ needed * exfatEntrySize ≤ volume.clusterSize)
    growDirectory m index directory previous

end SrvrOS.Exfat
