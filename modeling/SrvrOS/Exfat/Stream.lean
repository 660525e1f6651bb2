import SrvrOS.Exfat.Operations

/-!
# Stream leases

`kernel/src/fs/exfat_stream.inc`: a lease binds a slot of the lease table to one file
record and hands out a token made of the slot and its generation. Read leases serve
positioned reads with a remembered chain position; output leases append.
-/

namespace SrvrOS.Exfat

open Lib Act World

/-- The error codes of the stream calls. -/
inductive StreamError where
  | inval | busy | noent | notsup | nfile | nomem | io | nospc | badf | exist | fbig
  deriving DecidableEq

abbrev StreamResult (α : Type) := Except StreamError α

def updateLease (i : Nat) (change : StreamLease → StreamLease) : Driver Unit :=
  modify fun world =>
    { world with leases := Function.update world.leases i (change (world.leases i)) }

/-- Run a stream call under `fs_enter` and `fs_leave`. -/
def streamScope {α : Type} (body : Driver (StreamResult α)) : Driver (StreamResult α) := do
  match ← attempt fsEnter with
  | none => return .error .busy
  | some () =>
    let result ← body
    fsLeave
    return result

def streamInternal (mount : Mount) (path : Path) : Bool :=
  match metadataDirectoryPath mount.mountpoint with
  | none => true
  | some directory => streamPrefix path directory

def streamLastGeneration : Nat := (2 ^ 63 - 1) / streamSlots - 1

/-- The loop of `stream_reserve` over the remaining slots. -/
def streamReserveFrom : Nat → Nat → Driver (Option Nat)
  | 0, _ => pure none
  | rest + 1, i => do
      let lease := (← gets leases) i
      if lease.active || lease.retired then streamReserveFrom rest (i + 1)
      else if streamLastGeneration ≤ lease.generation then do
        updateLease i ({ · with retired := true })
        streamReserveFrom rest (i + 1)
      else do
        updateLease i fun lease =>
          { lease with
            generation := lease.generation + 1
            active := true
            slot := 0
            mount := none
            output := false
            failed := false
            cursorValid := false }
        return some i

def streamReserve : Driver (Option Nat) := streamReserveFrom streamSlots 0

def streamToken (lease : StreamLease) (i : Nat) : Nat := lease.generation * streamSlots + i

/-- `stream_get`: the slot of the lease a token names. -/
def streamGet (world : World) (token : Nat) : Option Nat :=
  let i := token % streamSlots
  let lease := world.leases i
  match lease.mount with
  | none => none
  | some m =>
    let mount := world.mounts m
    match mount.files[lease.slot]? with
    | none => none
    | some slot =>
      match vfsLookup world.vfs slot.path with
      | none => none
      | some node =>
        if lease.active = true ∧ token / streamSlots ≠ 0 ∧
            lease.generation = token / streamSlots ∧ mount.used = true ∧
            slot.file.fileEntryOffset = lease.entry ∧ slot.path ≠ [] ∧
            node.type = .file ∧ node.data = some (m, lease.slot) ∧
            node.metadata.inode = lease.inode ∧ node.metadata.nlink = 1 then some i
        else none

def streamAlias (mount : Mount) (index : Nat) (file : ExfatFile) : Bool :=
  file.firstCluster != 0 && file.allocatedClusters != 0 &&
    mount.files.zipIdx.any fun (slot, i) =>
      i != index && slot.path != [] && slot.file.firstCluster == file.firstCluster &&
        slot.file.allocatedClusters != 0

def streamBind (i m index : Nat) (output : Bool) : Driver Unit := do
  let world ← gets id
  let mount := world.mounts m
  let slot ← ofOption mount.files[index]?
  let node ← ofOption (vfsLookup world.vfs slot.path)
  require (node.type = .file ∧ node.data = some (m, index) ∧ node.metadata.nlink = 1 ∧
    node.metadata.mode &&& vfsModeIfmt = vfsModeIfreg ∧
    streamAlias mount index slot.file = false)
  updateLease i fun lease =>
    { lease with
      mount := some m
      slot := index
      entry := slot.file.fileEntryOffset
      inode := node.metadata.inode
      output := output }

/-- Follow `count` links of a chain. -/
def walkChain (m : Nat) : Nat → Nat → Driver Nat
  | 0, cluster => pure cluster
  | count + 1, cluster => do
      let next ← followChain m cluster
      walkChain m count next

/-- `stream_cluster`: the `index`-th cluster of a leased file, from the cursor when that
is not past it. -/
def streamCluster (i m : Nat) (file : ExfatFile) (index : Nat) : Driver Nat := do
  require (index < file.allocatedClusters ∧ 2 ≤ file.firstCluster)
  let lease := (← gets leases) i
  let cluster ←
    (if file.noFatChain then do
      require (file.firstCluster + index < 2 ^ 32)
      pure (file.firstCluster + index)
    else if lease.cursorValid && decide (lease.cursorIndex ≤ index) then
      walkChain m (index - lease.cursorIndex) lease.cursorCluster
    else walkChain m index file.firstCluster)
  let _ ← clusterBase m cluster
  updateLease i
    ({ · with cursorValid := true, cursorIndex := index, cursorCluster := cluster })
  return cluster

/-- `stream_preflight`: an error code, or nothing. -/
def streamPreflight (m : Nat) (path : Path) (payload files : Nat) :
    Driver (Option StreamError) := do
  let volume ← gets (·.volume m)
  if volume.clusterSize = 0 ∨ srvFileStreamChunk < volume.clusterSize then
    return some .notsup
  match ← attempt (reserveMutation m (some path) files 0) with
  | none => return some .nomem
  | some () =>
    match clusterOffset volume volume.allocationBitmapCluster with
    | none => return some .io
    | some base =>
      match ← attempt kmalloc with
      | none => return some .nomem
      | some () =>
        match ← attempt (volumeRead m base volume.clusterSize) with
        | none => return some .io
        | some bits =>
          let free := (List.range (searchLimit volume)).countP fun bit =>
            !bitmapBitIsSet bits bit
          let need := clustersForSize volume exfatMetadataMaxBytes + 8 +
            clustersForSize volume payload + 1
          return if free < need then some .nospc else none

def exfatStreamOpenRead (path : Path) : Driver (StreamResult Nat) :=
  streamScope do
    let world ← gets id
    match findMountAndIndexForFile world path with
    | none =>
      return .error (if (vfsLookup world.vfs path).isSome then .notsup else .noent)
    | some (m, index) =>
      if streamInternal (world.mounts m) path ||
          decide (srvFileStreamChunk < (world.volume m).clusterSize) then
        return .error .notsup
      if exfatStreamBusy world path false || (← draw Env.opened) then
        return .error .busy
      match ← streamReserve with
      | none => return .error .nfile
      | some i =>
        match ← attempt (streamBind i m index false) with
        | none =>
          updateLease i ({ · with active := false })
          return .error .notsup
        | some () => return .ok (streamToken ((← gets leases) i) i)

/-- The loop of `exfat_stream_pread`. -/
def preadLoop (i m : Nat) (file : ExfatFile) : Nat → Nat → Nat → Driver Bytes
  | 0, _, _ => pure []
  | fuel + 1, position, length =>
    if length = 0 then pure []
    else if file.validSize ≤ position then pure (List.replicate length 0)
    else do
      let volume ← gets (·.volume m)
      let within := position % volume.clusterSize
      let count := min (min length (volume.clusterSize - within)) (file.validSize - position)
      let cluster ← streamCluster i m file (position / volume.clusterSize)
      let base ← clusterBase m cluster
      let bytes ← volumeRead m (base + within) count
      let rest ← preadLoop i m file fuel (position + count) (length - count)
      return bytes ++ rest

/-- `exfat_stream_pread`: the bytes read. -/
def exfatStreamPread (token length offset : Nat) : Driver (StreamResult Bytes) :=
  if srvFileStreamChunk < length then pure (.error .inval)
  else streamScope do
    let world ← gets id
    match streamGet world token with
    | none => return .error .badf
    | some i =>
      let lease := world.leases i
      match lease.mount, (lease.mount.bind fun m => (world.mounts m).files[lease.slot]?) with
      | some m, some slot =>
        if lease.output then return .error .badf
        if slot.file.size ≤ offset then return .ok []
        let length := min length (slot.file.size - offset)
        match ← attempt (preadLoop i m slot.file length offset length) with
        | none => return .error .io
        | some bytes => return .ok bytes
      | _, _ => return .error .badf

/-- Run a body with `stream_mutation_depth` raised. -/
def streamMutating {α : Type} (body : Driver α) : Driver α := do
  modify fun world => { world with streamMutationDepth := world.streamMutationDepth + 1 }
  let outcome ← attempt body
  modify fun world => { world with streamMutationDepth := world.streamMutationDepth - 1 }
  ofOption outcome

def exfatStreamCreate (path : Path) (mode : Nat) : Driver (StreamResult Nat) :=
  if 0o10000 ≤ mode then pure (.error .inval)
  else streamScope do
    let world ← gets id
    match findMountForPath world path with
    | none => return .error .inval
    | some m =>
      if !validAsciiBasename path || !mutationShape world path 0 then return .error .inval
      if streamInternal (world.mounts m) path then return .error .notsup
      if nameConflicts world path none then return .error .exist
      if exfatStreamBusy world path false || (← draw Env.opened) then return .error .busy
      match ← streamReserve with
      | none => return .error .nfile
      | some i =>
        match ← streamPreflight m path 0 1 with
        | some error =>
          updateLease i ({ · with active := false })
          return .error error
        | none =>
          let created ← attempt (streamMutating
            (mutation (some m) (some path) 1 0 do
              createFile exfatSyncMountMetadata path [] (some mode)
              require ((← gets (·.volume m)).writeBlocked = false)
              exfatSyncMountMetadata m))
          let bound ← attempt (do
            ofOption created
            let world ← gets id
            let (actual, index) ← ofOption (findMountAndIndexForFile world path)
            require (actual = m)
            streamBind i m index true)
          if bound.isNone then
            updateLease i ({ · with active := false })
            return .error .io
          return .ok (streamToken ((← gets leases) i) i)

/-- The body of the mutation in `exfat_stream_append`: returns the cluster that received
the last byte. -/
def streamAppendBody (m index : Nat) (file : ExfatFile) (path : Path) (last : Nat)
    (data : Bytes) : Driver Nat := do
  let volume ← gets (·.volume m)
  let total := clustersForSize volume (file.size + data.length)
  let added := total - file.allocatedClusters
  let (first, contiguous) ← allocateClusters m added
  when (contiguous = true) (linkRun m first added)
  when (added ≠ 0 ∧ file.allocatedClusters ≠ 0 ∧ file.noFatChain = true)
    (linkRun m file.firstCluster file.allocatedClusters)
  let within := file.size % volume.clusterSize
  let cluster ← appendLoop m first contiguous data.length
    (if within ≠ 0 then last else first) within (within ≠ 0) data
  volumeFlush m
  when (added ≠ 0 ∧ file.allocatedClusters ≠ 0) (attachChain m last first)
  updateFile m index fun record =>
    { record with
      firstCluster := if file.allocatedClusters = 0 then first else record.firstCluster
      allocatedClusters := total
      noFatChain := if added ≠ 0 then false else record.noFatChain }
  updateSlotLength m index path (file.size + data.length)
  volumeFlush m
  exfatMetadataChanged exfatSyncMountMetadata path
  return cluster

/-- `exfat_stream_append` once the lease is known to be a usable output lease. -/
def streamAppendLease (i m : Nat) (slot : FileSlot) (index : Nat) (data : Bytes) :
    Driver (StreamResult Nat) := do
  let volume ← gets (·.volume m)
  let file := slot.file
  match ← streamPreflight m slot.path data.length 0 with
  | some error => return .error error
  | none =>
    let total := clustersForSize volume (file.size + data.length)
    let tail ← attempt
      (if file.allocatedClusters ≠ 0 then streamCluster i m file (file.allocatedClusters - 1)
      else pure 0)
    match tail with
    | none => return .error .io
    | some last =>
      modify fun world =>
        { world with streamMutationDepth := world.streamMutationDepth + 1 }
      match ← mutationBeginResult (some m) (some slot.path) 0 0 with
      | .refused _ =>
        modify fun world =>
          { world with streamMutationDepth := world.streamMutationDepth - 1 }
        updateLease i ({ · with failed := true })
        return .error .io
      | .begun =>
        let outcome ← attempt (streamAppendBody m index file slot.path last data)
        let (ok, _) ← mutationEndResult m outcome.isSome
        modify fun world =>
          { world with streamMutationDepth := world.streamMutationDepth - 1 }
        match ok, outcome with
        | true, some cluster =>
          updateLease i ({ · with
            cursorValid := true, cursorIndex := total - 1, cursorCluster := cluster })
          return .ok data.length
        | _, _ =>
          updateLease i ({ · with cursorValid := false, failed := true })
          return .error .io

/-- `exfat_stream_append`: the number of bytes appended. -/
def exfatStreamAppend (token : Nat) (data : Bytes) : Driver (StreamResult Nat) :=
  if srvFileStreamChunk < data.length then pure (.error .inval)
  else streamScope do
    let world ← gets id
    match streamGet world token with
    | none => return .error .badf
    | some i =>
      let lease := world.leases i
      match lease.mount, (lease.mount.bind fun m => (world.mounts m).files[lease.slot]?) with
      | some m, some slot =>
        if !lease.output then return .error .badf
        if lease.failed || (world.volume m).writeBlocked then
          updateLease i ({ · with failed := true })
          return .error .io
        if data = [] then return .ok 0
        if 2 ^ 64 ≤ slot.file.size + data.length then return .error .fbig
        streamAppendLease i m slot lease.slot data
      | _, _ => return .error .badf

def exfatStreamSync (token : Nat) : Driver (StreamResult Unit) :=
  streamScope do
    let world ← gets id
    match streamGet world token with
    | none => return .error .badf
    | some i =>
      let lease := world.leases i
      match lease.mount with
      | none => return .error .badf
      | some m =>
        if lease.failed || (lease.output && (world.volume m).writeBlocked) then
          updateLease i ({ · with failed := true })
          return .error .io
        if lease.output then
          match ← attempt (volumeFlush m) with
          | some () => return .ok ()
          | none =>
            updateLease i ({ · with failed := true })
            return .error .io
        else return .ok ()

/-- The last flush of `exfat_stream_close`. -/
def streamFinish (world : World) (token : Nat) (lease : StreamLease) :
    Driver (StreamResult Unit) :=
  match streamGet world token, lease.mount with
  | some _, some m =>
    if lease.failed || (lease.output && (world.volume m).writeBlocked) then
      return .error .io
    else if lease.output then do
      match ← attempt (volumeFlush m) with
      | some () => return .ok ()
      | none => return .error .io
    else return .ok ()
  | _, _ => return .error .io

def exfatStreamClose (token : Nat) : Driver (StreamResult Unit) :=
  streamScope do
    let world ← gets id
    let i := token % streamSlots
    let lease := world.leases i
    if lease.active = false ∨ lease.generation ≠ token / streamSlots then
      return .error .badf
    let closed ← streamFinish world token lease
    updateLease i ({ · with active := false, mount := none })
    return closed

end SrvrOS.Exfat
