import SrvrOS.Exfat.File

/-!
# Deleting, renaming and replacing

The namespace mutations. A rename keeps the record's extent; it rewrites the entry
set in place when the parent and the width allow it and moves it otherwise.
-/

namespace SrvrOS.Exfat

open Lib Act

variable (sync : Nat → Driver Unit)

/-! ## Deletion -/

/-- The record `clear_file_slot` leaves behind. -/
def zeroFile : ExfatFile :=
  { firstCluster := 0, size := 0, validSize := 0, allocatedClusters := 0, fileEntryOffset := 0,
    streamEntryOffset := 0, secondaryCount := 0, noFatChain := false }

/-- The record `clear_directory_slot` leaves behind. -/
def zeroDirectory : Directory :=
  { path := [], firstCluster := 0, dataLength := 0, allocatedClusters := 0, fileEntryOffset := 0,
    secondaryCount := 0, noFatChain := false }

/-- `clear_file_slot`: zero the slot and drop free slots from the end of the table. -/
def clearFileSlot (m index : Nat) : Driver Unit :=
  updateMount m fun mount =>
    { mount with
      files := (mount.files.set index { path := [], file := zeroFile }).rdropWhile
        fun slot => slot.path = [] }

def clearDirectorySlot (m index : Nat) : Driver Unit :=
  updateMount m fun mount =>
    { mount with
      dirs := (mount.dirs.set index zeroDirectory).rdropWhile fun slot => slot.path = [] }

def exfatDeleteFileImpl (path : Path) : Driver Unit := do
  let world ← gets id
  let (m, index) ← ofOption (findMountAndIndexForFile world path)
  let file := (← fileSlot m index).file
  let entries ← readEntryRun m file.fileEntryOffset (file.secondaryCount + 1)
  writeDeletedEntries m file.fileEntryOffset file.secondaryCount
  volumeFlush m
  onFailure (vfsUnregisterPath path) (restoreEntryRun m file.fileEntryOffset entries)
  clearFileSlot m index
  freeFileClusters m file
  syncUnlessInternal sync m path

def directoryIsEmpty (mount : Mount) (path : Path) : Bool :=
  (mount.files.all fun slot => slot.path == [] || !pathIsChildOf slot.path path) &&
    mount.dirs.all fun slot => slot.path == [] || !pathIsChildOf slot.path path

def exfatDeleteDirectoryImpl (path : Path) : Driver Unit := do
  let world ← gets id
  let (m, index) ← ofOption (findMountAndIndexForDirectory world path)
  let mount := world.mounts m
  require (path ≠ mount.mountpoint ∧ directoryIsEmpty mount path = true)
  let directory ← dirSlot m index
  let entries ← readEntryRun m directory.fileEntryOffset (directory.secondaryCount + 1)
  writeDeletedEntries m directory.fileEntryOffset directory.secondaryCount
  volumeFlush m
  onFailure (vfsUnregisterPath path) (restoreEntryRun m directory.fileEntryOffset entries)
  clearDirectorySlot m index
  freeFileClusters m
    (scratchFile directory.firstCluster directory.allocatedClusters 0 directory.noFatChain)
  syncUnlessInternal sync m path

/-! ## Renaming -/

/-- The part of a rename that files and directories share: the new offset, the entry count of the
set, and the action that puts the old bytes back. -/
def moveEntrySet (m : Nat) (oldPath newPath : Path) (oldOffset oldSecondaryCount : Nat)
    (fields : Path → EntryFields) : Driver (Nat × Nat × Driver Unit) := do
  let world ← gets id
  let (newMount, parent, name) ← ofOption (findMountAndParentDirectory world newPath)
  require (newMount = m ∧ vfsLookup world.vfs newPath = none)
  let (oldMount, oldParent, _) ← ofOption (findMountAndParentDirectory world oldPath)
  require (oldMount = m)
  let entries ← ofOption (buildFileEntrySet (fields name))
  let count := entries.length / exfatEntrySize
  let oldCount := oldSecondaryCount + 1
  let oldEntries ← readEntryRun m oldOffset oldCount
  let relocate := decide (parent ≠ oldParent) || decide (oldCount < count)
  let offset ← (if relocate then directoryFreeOffset m parent count else pure oldOffset)
  let displaced ← readEntryRun m offset (if relocate then count else oldCount)
  let undo : Driver Unit := do
    when (relocate = true) (restoreEntryRun m offset displaced)
    restoreEntryRun m oldOffset oldEntries
  let undoNew : Driver Unit :=
    if relocate then restoreEntryRun m offset displaced
    else restoreEntryRun m oldOffset oldEntries
  onFailure
    (do
      volumeWrite m offset entries
      if relocate then writeDeletedEntries m oldOffset oldSecondaryCount
      else writeInactiveEntryRun m (offset + count * exfatEntrySize) (oldCount - count))
    undoNew
  onFailure (vfsUnregisterPath oldPath) undo
  return (offset, count, undo)

def renameFileInMount (m index : Nat) (oldPath newPath : Path) : Driver Unit := do
  let world ← gets id
  let metadata := (vfsLookup world.vfs oldPath).map Node.metadata
  let old ← fileSlot m index
  let file := old.file
  let (offset, count, undo) ←
    moveEntrySet m oldPath newPath file.fileEntryOffset file.secondaryCount fun name =>
      { name := name, firstCluster := file.firstCluster, dataLength := file.size,
        validLength := file.validSize, attributes := 0x20, noFatChain := file.noFatChain }
  let store := fun slot => updateMount m fun mount =>
    { mount with files := mount.files.set index slot }
  store
    { path := newPath
      file :=
        { file with
          fileEntryOffset := offset
          streamEntryOffset := offset + exfatEntrySize
          secondaryCount := count - 1 } }
  onFailure (vfsRegister newPath .file file.size (some (m, index)) metadata) do
    undo
    store old
    ignore (vfsRegister old.path .file file.size (some (m, index)) metadata)
  ignore (sync m)

def renameEmptyDirectoryInMount (m index : Nat) (oldPath newPath : Path) : Driver Unit := do
  let world ← gets id
  require (directoryIsEmpty (world.mounts m) oldPath = true)
  let metadata := (vfsLookup world.vfs oldPath).map Node.metadata
  let old ← dirSlot m index
  let (offset, count, undo) ←
    moveEntrySet m oldPath newPath old.fileEntryOffset old.secondaryCount fun name =>
      { name := name, firstCluster := old.firstCluster, dataLength := old.dataLength,
        validLength := old.dataLength, attributes := exfatAttrDirectory,
        noFatChain := old.noFatChain }
  let store := fun path offset secondaryCount => updateDir m index fun directory =>
    { directory with
      path := path
      fileEntryOffset := offset
      secondaryCount := secondaryCount }
  store newPath offset (count - 1)
  onFailure (vfsRegister newPath .directory 0 none metadata) do
    undo
    store old.path old.fileEntryOffset old.secondaryCount
    ignore (vfsRegister old.path .directory 0 none metadata)
  ignore (sync m)

def exfatRenameImpl (oldPath newPath : Path) : Driver Unit := do
  let world ← gets id
  require (oldPath ≠ [] ∧ newPath ≠ [] ∧ vfsLookup world.vfs newPath = none)
  match findMountAndIndexForFile world oldPath with
  | some (m, index) => renameFileInMount sync m index oldPath newPath
  | none =>
    let (m, index) ← ofOption (findMountAndIndexForDirectory world oldPath)
    require (oldPath ≠ (world.mounts m).mountpoint)
    renameEmptyDirectoryInMount sync m index oldPath newPath

/-! ## Replacing -/

/-- What `exfat_replace_file` decides before its mutation. -/
structure ReplacePlan where
  mount : Nat
  sourceIndex : Nat
  targetIndex : Nat
  source : ExfatFile
  target : ExfatFile
  entries : Bytes

/-- The checks of `exfat_replace_file` before its mutation. -/
def replacePlan (world : World) (oldPath newPath : Path) : Option ReplacePlan := do
  let (m, sourceIndex) ← findMountAndIndexForFile world oldPath
  let (targetMount, targetIndex) ← findMountAndIndexForFile world newPath
  let source ← (world.mounts m).files[sourceIndex]?
  let target ← (world.mounts m).files[targetIndex]?
  let entries ← buildFileEntrySet
    { name := lastComponent newPath, firstCluster := source.file.firstCluster,
      dataLength := source.file.size, validLength := source.file.validSize, attributes := 0x20,
      noFatChain := source.file.noFatChain }
  if m = targetMount ∧ sourceIndex ≠ targetIndex ∧ validAsciiBasename newPath = true ∧
      entries.length / exfatEntrySize ≤ target.file.secondaryCount + 1 ∧
      source.file.secondaryCount + 1 ≤ exfatMaxFileEntries ∧
      target.file.secondaryCount + 1 ≤ exfatMaxFileEntries then
    return { mount := m, sourceIndex, targetIndex, source := source.file,
             target := target.file, entries }
  else none

/-- The body of `exfat_replace_file`. -/
def replaceBody (plan : ReplacePlan) (oldPath newPath : Path) : Driver Unit := do
  let m := plan.mount
  let source := plan.source
  let target := plan.target
  let count := plan.entries.length / exfatEntrySize
  let sourceEntries ← readEntryRun m source.fileEntryOffset (source.secondaryCount + 1)
  let targetEntries ← readEntryRun m target.fileEntryOffset (target.secondaryCount + 1)
  onFailure
    (do
      volumeWrite m target.fileEntryOffset plan.entries
      writeInactiveEntryRun m (target.fileEntryOffset + count * exfatEntrySize)
        (target.secondaryCount + 1 - count)
      volumeFlush m
      writeDeletedEntries m source.fileEntryOffset source.secondaryCount
      volumeFlush m
      vfsReplaceFilePath oldPath newPath)
    (do
      restoreEntryRun m target.fileEntryOffset targetEntries
      restoreEntryRun m source.fileEntryOffset sourceEntries)
  updateMount m fun mount =>
    { mount with
      files := mount.files.set plan.sourceIndex
        { path := newPath
          file :=
            { source with
              fileEntryOffset := target.fileEntryOffset
              streamEntryOffset := target.fileEntryOffset + exfatEntrySize
              secondaryCount := count - 1 } } }
  clearFileSlot m plan.targetIndex
  freeFileClusters m target
  sync m

end SrvrOS.Exfat
