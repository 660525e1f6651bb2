import SrvrOS.Exfat.Vfs

/-!
# Lookups, reservations and the mutation bracket

Every public mutation runs between `mutation_begin`, which reserves all table memory and marks the
volume dirty, and `mutation_end`, which publishes the clean marker or quarantines the volume.
-/

namespace SrvrOS.Exfat

open Lib Act

/-! ## Lookups -/

def findMount (world : World) (test : Nat → Mount → Bool) : Option Nat :=
  (List.range exfatMaxVolumes).find? fun m =>
    (world.mounts m).used && test m (world.mounts m)

def Mount.fileIndex (mount : Mount) (path : Path) : Option Nat :=
  mount.files.findIdx? fun slot => slot.path = path

/-- The slot of a path in the directory table: `find_directory_in_mount`. -/
def Mount.dirIndex (mount : Mount) (path : Path) : Option Nat :=
  mount.dirs.findIdx? fun slot => slot.path = path

def findMountAndIndexForFile (world : World) (path : Path) : Option (Nat × Nat) := do
  let m ← findMount world fun _ mount => (mount.fileIndex path).isSome
  let index ← (world.mounts m).fileIndex path
  return (m, index)

def findMountAndIndexForDirectory (world : World) (path : Path) : Option (Nat × Nat) := do
  let m ← findMount world fun _ mount => path != [] && (mount.dirIndex path).isSome
  let index ← (world.mounts m).dirIndex path
  return (m, index)

/-- `find_mount_and_parent_directory`: the mount, the slot of the parent and the name. -/
def findMountAndParentDirectory (world : World) (path : Path) :
    Option (Nat × Nat × Path) := do
  let parent ← parentPathOf path
  let name ← pathBasename path
  let m ← findMount world fun _ mount => (mount.dirIndex parent).isSome
  let index ← (world.mounts m).dirIndex parent
  return (m, index, name)

def findMountForPath (world : World) (path : Path) : Option Nat :=
  findMount world fun _ mount => pathInSubtree path mount.mountpoint

def nameConflicts (world : World) (path : Path) (ignored : Option Path) : Bool :=
  world.vfs.nodes.any fun entry =>
    decide (some entry.2.path ≠ ignored) && asciiCaseEqual entry.2.path path

def Mount.usedFiles (mount : Mount) : Nat := mount.files.countP fun slot => slot.path ≠ []

def Mount.usedDirs (mount : Mount) : Nat := mount.dirs.countP fun slot => slot.path ≠ []

def fileSlot (m index : Nat) : Driver FileSlot := do
  let mount ← gets (·.mounts m)
  ofOption mount.files[index]?

def dirSlot (m index : Nat) : Driver Directory := do
  let mount ← gets (·.mounts m)
  ofOption mount.dirs[index]?

def updateFile (m index : Nat) (change : ExfatFile → ExfatFile) : Driver Unit :=
  updateMount m fun mount =>
    { mount with
      files := mount.files.modify index fun slot => { slot with file := change slot.file } }

def updateDir (m index : Nat) (change : Directory → Directory) : Driver Unit :=
  updateMount m fun mount => { mount with dirs := mount.dirs.modify index change }

/-! ## Reservations -/

/-- The file half of `reserve_tables`. -/
def growFiles (m : Nat) : Nat → Nat → Driver Unit
  | 0, _ => pure ()
  | fuel + 1, files => do
      let mount ← gets (·.mounts m)
      if files ≤ mount.fileCapacity then pure ()
      else
        kmalloc
        updateMount m fun mount =>
          { mount with fileCapacity := mount.fileCapacity + exfatNodeBlock }
        growFiles m fuel files

/-- The directory half of `reserve_tables`. -/
def growDirs (m : Nat) : Nat → Nat → Driver Unit
  | 0, _ => pure ()
  | fuel + 1, dirs => do
      let mount ← gets (·.mounts m)
      if dirs ≤ mount.dirCapacity then pure ()
      else
        kmalloc
        updateMount m fun mount =>
          { mount with dirCapacity := mount.dirCapacity + exfatNodeBlock }
        growDirs m fuel dirs

def reserveTables (m files dirs : Nat) : Driver Unit := do
  require (files ≤ exfatMaxFiles ∧ dirs ≤ exfatMaxDirs)
  growFiles m files files
  growDirs m dirs dirs

def metadataRecordBytes : Nat := exfatMaxPath + 8 * 21 + 1

def exfatMetadataMaxBytes : Nat := (exfatMaxFiles + exfatMaxDirs) * metadataRecordBytes + 16

/-- The doubling loop of `reserve_metadata`. -/
def doubledCapacity (needed : Nat) : Nat → Nat → Nat
  | 0, capacity => capacity
  | fuel + 1, capacity =>
    if needed ≤ capacity then capacity
    else doubledCapacity needed fuel (min (capacity * 2) exfatMetadataMaxBytes)

def reserveMetadata (m nodes : Nat) : Driver Unit := do
  let needed := nodes * metadataRecordBytes + 16
  require (needed ≤ exfatMetadataMaxBytes)
  let mount ← gets (·.mounts m)
  if needed ≤ mount.metadataCapacity then pure ()
  else
    let start := if mount.metadataCapacity = 0 then 4096 else mount.metadataCapacity
    kmalloc
    updateMount m ({ · with metadataCapacity := doubledCapacity needed needed start })

/-- The extra nodes the sidecar may need for a change at `path`; `none` when its paths do not fit.
-/
def sidecarNodes (world : World) (mount : Mount) (path : Option Path) : Option (Nat × Nat) :=
  if (path.map (metadataPathIsInternal mount.mountpoint)).getD false then some (0, 0)
  else do
    let directory ← metadataDirectoryPath mount.mountpoint
    let file ← metadataFilePath mount.mountpoint
    let temp ← metadataTempPath mount.mountpoint
    let missing := fun name => if (vfsLookup world.vfs name).isNone then 1 else 0
    return (missing directory, missing file + missing temp)

def mutationCapacity (m : Nat) (path : Option Path) (files dirs : Nat) : Driver Unit := do
  let world ← gets id
  let mount := world.mounts m
  let (moreDirs, moreFiles) ← ofOption (sidecarNodes world mount path)
  require (files + moreFiles ≤ exfatMaxFiles - mount.usedFiles ∧
    dirs + moreDirs ≤ exfatMaxDirs - mount.usedDirs ∧
    files + moreFiles + (dirs + moreDirs) ≤ vfsMaxNodes - world.vfs.nodes.length)

def reserveMutation (m : Nat) (path : Option Path) (files dirs : Nat) : Driver Unit := do
  mutationCapacity m path files dirs
  let world ← gets id
  let mount := world.mounts m
  let (moreDirs, moreFiles) ← ofOption (sidecarNodes world mount path)
  let files := files + moreFiles
  let dirs := dirs + moreDirs
  let fileHoles := mount.files.length - mount.usedFiles
  let dirHoles := mount.dirs.length - mount.usedDirs
  reserveTables m (mount.files.length + (files - fileHoles))
    (mount.dirs.length + (dirs - dirHoles))
  vfsReserveNodes (files + dirs)
  if world.metadataSyncing then pure ()
  else reserveMetadata m (mount.usedFiles + mount.usedDirs + files + dirs)

/-! ## Admission -/

/-- `fs_enter`: the outermost operation may find another owner; nested ones hold the
ownership already. -/
def fsEnter : Driver Unit := do
  let depth ← gets World.fsOperations
  let admitted ← draw Env.admitted
  require (depth ≠ 0 ∨ admitted = true)
  modify fun world => { world with fsOperations := world.fsOperations + 1 }

def fsLeave : Driver Unit :=
  modify fun world => { world with fsOperations := world.fsOperations - 1 }

/-- Run a body under `fs_enter` and `fs_leave`. -/
def fsScope {α : Type} (body : Driver α) : Driver α := do
  fsEnter
  let outcome ← attempt body
  fsLeave
  ofOption outcome

/-! ## The mutation bracket -/

/-- Bit 1 of the volume flags: VolumeDirty. -/
def volumeDirty (flags : Nat) : Bool := flags / 2 % 2 == 1

def setDirty (flags : Nat) : Nat := if volumeDirty flags then flags else flags + 2

def clearDirty (flags : Nat) : Nat := if volumeDirty flags then flags - 2 else flags

/-- Clear bit 3 of the volume flags, ClearToZero. -/
def clearToZero (flags : Nat) : Nat := if flags / 8 % 2 = 1 then flags - 8 else flags

/-- `write_volume_flags`, which bypasses `volume_write`. -/
def writeVolumeFlags (m flags : Nat) : Driver Unit := do
  if (← blockWrite m 106 (leBytes 2 flags)) then
    updateVolume m ({ · with flags := flags })
    volumeFlush m
  else fail

/-- The outcome of `mutation_begin_result`: the mutation runs, or it is refused. -/
inductive BeginResult where
  | begun
  | refused (retryable : Bool)

/-- `mutation_begin_result`, after `fs_enter`. -/
def mutationAdmit (m : Nat) (path : Option Path) (files dirs : Nat) : Driver BeginResult := do
  let disk ← gets (·.disk m)
  let online ← draw Env.online
  let volume ← gets (·.volume m)
  if !online || !disk.writable || !disk.flushable || volume.writeBlocked then
    return .refused false
  match ← attempt (reserveMutation m path files dirs) with
  | none => return .refused (decide (volume.mutationDepth = 0) && !volumeDirty volume.flags)
  | some () =>
    if volume.mutationDepth = 0 then
      updateVolume m ({ · with mutationWritten := false })
      match ← attempt (writeVolumeFlags m (clearToZero (setDirty volume.flags))) with
      | none =>
        updateVolume m ({ · with writeBlocked := true })
        return .refused false
      | some () =>
        updateVolume m fun volume => { volume with mutationDepth := volume.mutationDepth + 1 }
        return .begun
    else
      updateVolume m fun volume => { volume with mutationDepth := volume.mutationDepth + 1 }
      return .begun

def mutationBeginResult (mount : Option Nat) (path : Option Path) (files dirs : Nat) :
    Driver BeginResult := do
  match ← attempt fsEnter with
  | none => return .refused false
  | some () =>
    match mount with
    | none =>
      fsLeave
      return .refused false
    | some m =>
      match ← mutationAdmit m path files dirs with
      | .begun => return .begun
      | .refused retryable =>
        fsLeave
        return .refused retryable

/-- Make the writes durable, then withdraw VolumeDirty; on a failure the volume is quarantined and
marked dirty again. -/
def publishClean (m : Nat) : Driver Unit := do
  let volume ← gets (·.volume m)
  match ← attempt (do
      volumeFlush m
      writeVolumeFlags m (clearDirty volume.flags)) with
  | some () => pure ()
  | none =>
    updateVolume m ({ · with writeBlocked := true })
    let volume ← gets (·.volume m)
    ignore (writeVolumeFlags m (setDirty volume.flags))

/-- `mutation_end_result`: whether the mutation stands and, if not, whether it may be
retried. -/
def mutationEndResult (m : Nat) (ok : Bool) : Driver (Bool × Bool) := do
  updateVolume m fun volume =>
    { volume with
      writeBlocked := volume.writeBlocked || (!ok && volume.mutationWritten)
      mutationDepth := volume.mutationDepth - 1 }
  let volume ← gets (·.volume m)
  when (volume.mutationDepth = 0 ∧ volume.writeBlocked = false) (publishClean m)
  let volume ← gets (·.volume m)
  let ok := ok && !volume.writeBlocked
  let online ← draw Env.online
  fsLeave
  return (ok, !ok && decide (volume.mutationDepth = 0) && !volume.mutationWritten &&
    !volume.writeBlocked && !volumeDirty volume.flags && online)

/-- A body between `mutation_begin_result` and `mutation_end_result`: its value when the mutation
stands, and whether a refusal may be retried. -/
def mutationResult {α : Type} (mount : Option Nat) (path : Option Path) (files dirs : Nat)
    (body : Driver α) : Driver (Option α × Bool) := do
  match ← mutationBeginResult mount path files dirs with
  | .refused retryable => return (none, retryable)
  | .begun =>
    let m ← ofOption mount
    let outcome ← attempt body
    let (ok, retryable) ← mutationEndResult m outcome.isSome
    return (if ok then outcome else none, retryable)

/-- A body between `mutation_begin` and `mutation_end`. -/
def mutation {α : Type} (mount : Option Nat) (path : Option Path) (files dirs : Nat)
    (body : Driver α) : Driver α := do
  let (outcome, _) ← mutationResult mount path files dirs body
  ofOption outcome

end SrvrOS.Exfat
