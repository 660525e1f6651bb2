import SrvrOS.Exfat.Rename

/-!
# Public mutations and the metadata sidecar

A mutation outside the sidecar directory ends by rewriting the sidecar `.srvros/meta` through the
same entry points; while that runs, `metadata_syncing` makes the nested sidecar call return at
once.
-/

namespace SrvrOS.Exfat

open Lib Act

/-! ## Leases seen from other operations -/

def streamSlots : Nat := 256

/-- The path of a file slot; empty outside the table. -/
def Mount.pathSlot (mount : Mount) (index : Nat) : Path :=
  (mount.files[index]?.map FileSlot.path).getD []

def exfatStreamBusy (world : World) (path : Path) (subtree : Bool) : Bool :=
  (List.range streamSlots).any fun i =>
    let lease := world.leases i
    match lease.mount with
    | none => false
    | some m =>
      let leased := (world.mounts m).pathSlot lease.slot
      lease.active && (world.mounts m).used &&
        if subtree then streamPrefix leased path else asciiCaseEqual leased path

/-! ## Entry points over a given sidecar call -/

def mutationShape (world : World) (path : Path) (size : Nat) : Bool :=
  match findMountForPath world path with
  | none => false
  | some m =>
    let volume := world.volume m
    decide (size ≤ volume.clusterCount * volume.clusterSize) &&
      decide (entriesForName (lastComponent path) * exfatEntrySize ≤ volume.clusterSize)

def validMode (mode : Option Nat) : Bool := (mode.map fun mode => decide (mode < 0o10000)).getD true

section EntryPoints

variable (sync : Nat → Driver Unit)

/-- `write_file_mode_result`: success and `*retryable`. -/
def writeFileModeResult (path : Path) (data : Bytes) (mode : Option Nat) :
    Driver (Bool × Bool) := do
  let world ← gets id
  let existing := (findMountAndIndexForFile world path).isSome
  if !validMode mode || exfatStreamBusy world path false || !validAsciiBasename path ||
      !mutationShape world path data.length ||
      (!existing && nameConflicts world path none) then
    return (false, false)
  let files := if existing then 0 else 1
  let (outcome, retryable) ← mutationResult (findMountForPath world path) (some path) files 0 do
    let m ← ofOption (findMountForPath world path)
    mutationCapacity m (some path) files 0
    exfatWriteFileImpl sync path data mode
  return (outcome.isSome, retryable)

def exfatWriteFileMode (path : Path) (data : Bytes) (mode : Option Nat) : Driver Unit := do
  let (ok, _) ← writeFileModeResult sync path data mode
  require (ok = true)

def exfatCreateDirectoryMode (path : Path) (mode : Option Nat) : Driver Unit := do
  let world ← gets id
  require (validMode mode = true ∧ exfatStreamBusy world path false = false ∧
    validAsciiBasename path = true ∧ mutationShape world path 0 = true ∧
    nameConflicts world path none = false)
  mutation (findMountForPath world path) (some path) 0 1 do
    let m ← ofOption (findMountForPath world path)
    mutationCapacity m (some path) 0 1
    exfatCreateDirectoryImpl sync path mode

def exfatDeleteFile (path : Path) : Driver Unit := do
  let world ← gets id
  require (exfatStreamBusy world path false = false)
  mutation (findMountForPath world path) (some path) 0 0 do
    let m ← ofOption (findMountForPath world path)
    mutationCapacity m (some path) 0 0
    exfatDeleteFileImpl sync path

def exfatDeleteDirectory (path : Path) : Driver Unit := do
  let world ← gets id
  require (exfatStreamBusy world path true = false)
  mutation (findMountForPath world path) (some path) 0 0 do
    let m ← ofOption (findMountForPath world path)
    mutationCapacity m (some path) 0 0
    exfatDeleteDirectoryImpl sync path

def exfatRename (oldPath newPath : Path) : Driver Unit := do
  let world ← gets id
  require (validAsciiBasename newPath = true ∧ mutationShape world newPath 0 = true ∧
    nameConflicts world newPath (some oldPath) = false ∧
    exfatStreamBusy world oldPath true = false ∧ exfatStreamBusy world newPath true = false)
  mutation (findMountForPath world oldPath) (some oldPath) 0 0 do
    let m ← ofOption (findMountForPath world oldPath)
    mutationCapacity m (some oldPath) 0 0
    exfatRenameImpl sync oldPath newPath

def exfatReplaceFile (oldPath newPath : Path) : Driver Unit := do
  let world ← gets id
  require (exfatStreamBusy world oldPath true = false ∧
    exfatStreamBusy world newPath true = false)
  let plan ← ofOption (replacePlan world oldPath newPath)
  mutation (some plan.mount) (some oldPath) 0 0 (replaceBody sync plan oldPath newPath)

end EntryPoints

/-! ## The sidecar -/

/-- `"SRVROSMETA1\n"`. -/
def metadataMagic : Bytes :=
  ascii ['S', 'R', 'V', 'R', 'O', 'S', 'M', 'E', 'T', 'A', '1', '\n']

/-- The decimal digits of `append_u64`, most significant first. -/
def decimalDigits : Nat → Nat → Bytes → Bytes
  | 0, _, tail => tail
  | fuel + 1, value, tail =>
    let digits := UInt8.ofNat (48 + value % 10) :: tail
    if value / 10 = 0 then digits else decimalDigits fuel (value / 10) digits

/-- `append_u64`. -/
def decimal (value : Nat) : Bytes := decimalDigits 21 value []

def serializeMetadataRecord (node : Node) : Bytes :=
  let field := fun value => decimal value ++ [9]
  node.path ++ [9] ++ field node.metadata.inode ++ field node.metadata.mode ++
    field node.metadata.nlink ++ field node.metadata.uid ++ field node.metadata.gid ++
    field node.metadata.atime ++ field node.metadata.mtime ++ decimal node.metadata.ctime ++ [10]

/-- Whether the sidecar of a mount describes a node. -/
def sidecarCovers (mount : Mount) (node : Node) : Bool :=
  pathInSubtree node.path mount.mountpoint &&
    !metadataPathIsInternal mount.mountpoint node.path

def serializeMetadata (world : World) (m : Nat) : Bytes :=
  metadataMagic ++
    ((world.vfs.nodes.map Prod.snd).filter (sidecarCovers (world.mounts m))).flatMap
      serializeMetadataRecord

/-- The sidecar call inside a sidecar update: `metadata_syncing` is set. -/
def syncSuspended : Nat → Driver Unit := fun _ => pure ()

/-- Set `metadata_syncing`. -/
def setSyncing (value : Bool) : Driver Unit :=
  modify fun world => { world with metadataSyncing := value }

/-- `exfat_sync_mount_metadata_impl` after `metadata_syncing` has been set. -/
def rewriteSidecar (m : Nat) : Driver Unit := do
  let mountpoint := (← gets (·.mounts m)).mountpoint
  let directory ← ofOption (metadataDirectoryPath mountpoint)
  let path ← ofOption (metadataFilePath mountpoint)
  let temp ← ofOption (metadataTempPath mountpoint)
  let vfs ← gets World.vfs
  when ((vfsLookup vfs directory).isNone = true)
    (exfatCreateDirectoryMode syncSuspended directory none)
  let world ← gets id
  let contents := serializeMetadata world m
  require (contents.length < (world.mounts m).metadataCapacity)
  when ((vfsLookup world.vfs temp).isSome = true) (exfatDeleteFile syncSuspended temp)
  exfatWriteFileMode syncSuspended temp contents none
  if (vfsLookup (← gets World.vfs) path).isSome then
    exfatReplaceFile syncSuspended temp path
  else exfatRename syncSuspended temp path

def exfatSyncMountMetadataImpl (m : Nat) : Driver Unit := do
  if (← gets World.metadataSyncing) then pure ()
  else
    setSyncing true
    let outcome ← attempt (rewriteSidecar m)
    setSyncing false
    ofOption outcome

def exfatSyncMountMetadata (m : Nat) : Driver Unit := do
  if (← gets World.metadataSyncing) then pure ()
  else
    mutation (some m) none 0 0 do
      mutationCapacity m none 0 0
      exfatSyncMountMetadataImpl m

end SrvrOS.Exfat
