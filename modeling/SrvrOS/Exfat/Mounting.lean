import SrvrOS.Exfat.Check
import SrvrOS.Exfat.Stream
import SrvrOS.Lib.Word

/-!
# Mounting and unmounting

The boot region is validated against its checksum before its geometry is trusted; the
directory tree is imported into the live tables; the allocation check decides whether
the mount may be written; and the metadata sidecar is applied or completed.
-/

namespace SrvrOS.Exfat

open Lib Act World

/-! ## The boot region -/

def deviceRead (device size offset length : Nat) : Driver Bytes := do
  require (offset ≤ size ∧ length ≤ size - offset)
  require ((← draw Env.read) = true)
  gets fun world => (world.disks device).medium.read offset length

/-- `volume_from_boot` with its 64-bit operators; a shift of one is a product. -/
def volumeFromBootIn (arith : Word.Arith) (boot : Bytes) (device backingSize : Nat) :
    Option Volume :=
  let sectorShift := leField boot 108 1
  let clusterShift := leField boot 109 1
  let flags := leField boot 106 2
  let volumeLength := leField boot 72 8
  let fatOffset := leField boot 80 4
  let fatLength := leField boot 84 4
  let heapOffset := leField boot 88 4
  let count := leField boot 92 4
  let root := leField boot 96 4
  let sector := arith.mul 1 (2 ^ sectorShift)
  let sectorsPerCluster := arith.mul 1 (2 ^ clusterShift)
  let fatEnd := arith.add fatOffset fatLength
  let heapEnd := arith.add heapOffset (arith.mul count sectorsPerCluster)
  if sectorShift < 9 ∨ 12 < sectorShift ∨ 25 - sectorShift < clusterShift ∨
      leField boot 110 1 ≠ 1 ∨ flags % 2 = 1 ∨ leField boot 104 2 ≠ 0x100 then none
  else if volumeLength < 2 ^ 20 / sector ∨ backingSize / sector < volumeLength ∨ count = 0 ∨
      0xfffffff5 < count ∨ root < 2 ∨ arith.add count 2 ≤ root ∨ fatOffset < 24 ∨
      arith.mul fatLength sector < arith.mul (arith.add count 2) 4 ∨ heapOffset < fatEnd ∨
      volumeLength < heapEnd then none
  else some
    { device := device, imageSize := arith.mul volumeLength sector, sectorSize := sector,
      clusterSize := arith.mul sector sectorsPerCluster
      fatOffsetBytes := arith.mul fatOffset sector
      clusterHeapOffsetBytes := arith.mul heapOffset sector, allocationBitmapCluster := 0,
      allocationBitmapSize := 0, upcaseTableCluster := 0, upcaseTableSize := 0,
      upcaseTableChecksum := 0, bitmapSeen := false, upcaseSeen := false,
      clusterCount := count, rootDirectoryCluster := root, flags := flags,
      writeBlocked := flags / 2 % 4 != 0, mutationWritten := false, mutationDepth := 0 }

def volumeFromBoot : Bytes → Nat → Nat → Option Volume :=
  volumeFromBootIn Word.exact

def checksum32 (sum : Nat) (byte : UInt8) : Nat :=
  (sum / 2 + sum % 2 * 2 ^ 31 + byte.toNat) % 2 ^ 32

/-- One 512-byte chunk of the boot checksum; the volatile bytes of the boot sector are
skipped. -/
def bootChecksum (offset : Nat) (buffer : Bytes) (sum : Nat) : Nat :=
  buffer.zipIdx.foldl (fun sum (byte, i) =>
    if offset + i = 106 ∨ offset + i = 107 ∨ offset + i = 112 then sum
    else checksum32 sum byte) sum

/-- The chunk loop of `read_boot_region`. -/
def bootRegionLoop (device size base sector : Nat) (header : Bytes) :
    Nat → Nat → Nat → Driver Unit
  | 0, _, _ => pure ()
  | rest + 1, offset, sum => do
      let buffer ← (if offset = 0 then pure header else deviceRead device size (base + offset) 512)
      if offset < 11 * sector then
        require (¬(1 ≤ offset / sector ∧ offset / sector ≤ 8 ∧ (offset + 512) % sector = 0 ∧
          leField buffer 508 4 ≠ 0xaa550000))
        bootRegionLoop device size base sector header rest (offset + 512)
          (bootChecksum offset buffer sum)
      else
        require ((List.range 128).all (fun i => leField buffer (4 * i) 4 == sum) = true)
        bootRegionLoop device size base sector header rest (offset + 512) sum

/-- `read_boot_region`: the boot sector and the volume it describes. -/
def readBootRegion (device size base expectedShift : Nat) : Driver (Bytes × Volume) := do
  let boot ← deviceRead device size base 512
  require (leField boot 108 1 = expectedShift ∧ boot.take 3 = [0xeb, 0x76, 0x90] ∧
    (boot.drop 3).take 8 = ascii ['E', 'X', 'F', 'A', 'T', ' ', ' ', ' '] ∧
    leField boot 510 2 = 0xaa55 ∧ (leField boot 112 1 ≤ 100 ∨ leField boot 112 1 = 255))
  let volume ← ofOption (volumeFromBoot boot device size)
  require (((boot.drop 11).take 53).all (· == 0) = true ∧ base ≤ size ∧
    12 * volume.sectorSize ≤ size - base)
  bootRegionLoop device size base volume.sectorSize boot (12 * volume.sectorSize / 512) 0 0
  return (boot, volume)

def sameBootGeometry (left right : Bytes) : Bool :=
  (left.drop 64).take 42 == (right.drop 64).take 42 &&
    (left.drop 108).take 3 == (right.drop 108).take 3

/-- The fallback search of `select_boot`: how many regions are valid and the last of them. -/
def searchBackups (device size : Nat) : List Nat → Nat × Option Volume →
    Driver (Nat × Option Volume)
  | [], found => pure found
  | shift :: rest, found => do
      match ← attempt (readBootRegion device size (12 * 2 ^ shift) shift) with
      | none => searchBackups device size rest found
      | some (_, volume) => searchBackups device size rest (found.1 + 1, some volume)

def selectBoot (device size : Nat) : Driver Volume := do
  let main ← attempt (do
    let header ← deviceRead device size 0 512
    let shift := leField header 108 1
    require (9 ≤ shift ∧ shift ≤ 12)
    readBootRegion device size 0 shift)
  match main with
  | some (boot, volume) =>
    let backup ← attempt
      (readBootRegion device size (12 * volume.sectorSize) (leField boot 108 1))
    let trusted := (backup.map fun (copy, _) => sameBootGeometry boot copy).getD false
    return { volume with writeBlocked := volume.writeBlocked || !trusted }
  | none =>
    let (found, volume) ← searchBackups device size [9, 10, 11, 12] (0, none)
    require (found = 1)
    let volume ← ofOption volume
    return { volume with writeBlocked := true }

/-! ## Importing the directory tree -/

/-- What `scan_directory` checks of an accepted entry set before registering it. -/
def importable (volume : Volume) (entries : Bytes) : Bool :=
  let stream := streamEntry entries
  let directory := leField entries 4 2 / 16 % 2 == 1
  decide (stream.validDataLength ≤ stream.dataLength) &&
    decide (stream.dataLength ≤ volume.clusterCount * volume.clusterSize) &&
    (!directory || (stream.dataLength != 0 && stream.validDataLength == stream.dataLength &&
      stream.dataLength % volume.clusterSize == 0)) &&
    (stream.dataLength == 0 || (decide (2 ≤ stream.firstCluster) &&
      decide (stream.firstCluster < volume.clusterCount + 2) &&
      (!stream.noFatChain || decide (clustersForSize volume stream.dataLength ≤
        volume.clusterCount + 2 - stream.firstCluster))))

/-- The part of `scan_directory` for one entry that is neither END nor a file: `true`
when the scan goes on. -/
def scanSystemEntry (m depth : Nat) (entry : Bytes) : Driver Unit := do
  let volume ← gets (·.volume m)
  let kind := (entry[0]?).getD 0
  if kind = exfatEntryBitmap then
    require (depth = 0 ∧ volume.bitmapSeen = false ∧ leField entry 1 1 % 2 = 0)
    updateVolume m ({ · with
      bitmapSeen := true
      allocationBitmapCluster := leField entry 20 4
      allocationBitmapSize := leField entry 24 8 })
  else if kind = exfatEntryUpcase then
    require (depth = 0 ∧ volume.upcaseSeen = false)
    updateVolume m ({ · with
      upcaseSeen := true
      upcaseTableChecksum := leField entry 4 4
      upcaseTableCluster := leField entry 20 4
      upcaseTableSize := leField entry 24 8 })
  else
    require (¬(0x80 ≤ kind ∧ kind.toNat / 32 % 2 = 0 ∧ (kind ≠ 0x83 ∨ depth ≠ 0)))

/-- `register_directory` for a scanned set, then the scan of that directory. -/
def scanChild (recurse : Path → Nat → Bool → Nat → Driver Unit) (m : Nat) (path : Path)
    (entries : Bytes) (offset : Nat) : Driver Unit := do
  let volume ← gets (·.volume m)
  let stream := streamEntry entries
  if leField entries 4 2 / 16 % 2 = 1 then
    let child ← ofOption (buildChildPath path entries)
    registerDirectory m (directoryRecord volume child stream.firstCluster stream.noFatChain
      stream.dataLength offset (leField entries 1 1))
    recurse child stream.firstCluster stream.noFatChain stream.dataLength
  else registerFile m path entries offset

/-- The body of the entry loop of `scan_directory`: the bytes it takes up, or nothing at END. -/
def scanEntry (recurse : Path → Nat → Bool → Nat → Driver Unit) (m depth : Nat) (path : Path)
    (base offset : Nat) (entries : Bytes) : Driver (Option Nat) := do
  let kind := (entries[0]?).getD 0
  if kind = exfatEntryEnd then return none
  else if kind = exfatEntryFile then
    let volume ← gets (·.volume m)
    require (validImportEntrySet entries = true ∧ importable volume entries = true)
    scanChild recurse m path entries (base + offset)
    return some ((leField entries 1 1 + 1) * exfatEntrySize)
  else
    scanSystemEntry m depth (entries.take exfatEntrySize)
    return some exfatEntrySize

/-- The entry loop of `scan_directory` over one cluster; `true` when END was met. -/
def scanEntries (recurse : Path → Nat → Bool → Nat → Driver Unit) (m depth : Nat)
    (path : Path) (base : Nat) (buffer : Bytes) : Nat → Nat → Driver Bool
  | 0, _ => pure false
  | fuel + 1, offset =>
    if buffer.length < offset + exfatEntrySize then pure false
    else do
      match ← scanEntry recurse m depth path base offset (buffer.drop offset) with
      | none => return true
      | some size => scanEntries recurse m depth path base buffer fuel (offset + size)

/-- Brent's cycle detection: the anchor, the current power and the distance walked. -/
structure ChainWatch where
  anchor : Nat
  power : Nat
  distance : Nat

def ChainWatch.step (watch : ChainWatch) (cluster : Nat) : ChainWatch :=
  if watch.distance + 1 = watch.power then
    { anchor := cluster, power := watch.power * 2, distance := 0 }
  else { watch with distance := watch.distance + 1 }

/-- The cluster loop of `scan_directory`. -/
def scanClusters (recurse : Path → Nat → Bool → Nat → Driver Unit) (m depth : Nat)
    (path : Path) (noFatChain : Bool) (dataLength : Nat) :
    Nat → Nat → Nat → ChainWatch → Driver Unit
  | 0, _, _, _ => fail
  | fuel + 1, cluster, scanned, watch => do
      require (2 ≤ cluster ∧ cluster < exfatFatChainEnd)
      let volume ← gets (·.volume m)
      let base ← clusterBase m cluster
      let limit :=
        if dataLength ≠ 0 then min volume.clusterSize (dataLength - scanned)
        else volume.clusterSize
      let buffer ← volumeRead m base limit
      let ended ← scanEntries recurse m depth path base buffer limit 0
      if ended || (decide (dataLength ≠ 0) && decide (dataLength ≤ scanned + limit)) then pure ()
      else if noFatChain then
        scanClusters recurse m depth path noFatChain dataLength fuel (cluster + 1)
          (scanned + limit) watch
      else
        let next ← nextCluster m cluster
        if exfatFatChainEnd ≤ next then require (dataLength = 0)
        else
          require (2 ≤ next ∧ next < volume.clusterCount + 2 ∧ next ≠ watch.anchor)
          scanClusters recurse m depth path noFatChain dataLength fuel next (scanned + limit)
            (watch.step next)

/-- `scan_directory`; `levels` counts down from the nesting limit. -/
def scanDirectory (m : Nat) : Nat → Nat → Path → Nat → Bool → Nat → Driver Unit
  | 0, _, _, _, _, _ => fail
  | levels + 1, depth, path, firstCluster, noFatChain, dataLength => do
      kmalloc
      let volume ← gets (·.volume m)
      scanClusters (scanDirectory m levels (depth + 1)) m depth path noFatChain dataLength
        volume.clusterCount firstCluster 0
        { anchor := firstCluster, power := 1, distance := 0 }

/-! ## System streams -/

/-- The state of the up-case table decoder. -/
structure UpcaseState where
  checksum : Nat
  mapped : Nat
  skip : Bool

def upcaseUnit (state : UpcaseState) (value : Nat) : Option UpcaseState :=
  if state.skip then
    if value = 0 ∨ 65536 - state.mapped < value then none
    else if state.mapped < 123 ∧ 97 < state.mapped + value then none
    else some { state with mapped := state.mapped + value, skip := false }
  else if value = 0xffff ∧ state.mapped ≠ 65535 then some { state with skip := true }
  else if 65536 ≤ state.mapped ∨ (state.mapped < 128 ∧
      value ≠ if 97 ≤ state.mapped ∧ state.mapped ≤ 122 then state.mapped - 32
        else state.mapped) then none
  else some { state with mapped := state.mapped + 1 }

def upcaseChunk (buffer : Bytes) (state : UpcaseState) : Option UpcaseState :=
  ((List.range ((buffer.length + 1) / 2)).map fun i => leField buffer (2 * i) 2).foldlM
    upcaseUnit { state with checksum := buffer.foldl checksum32 state.checksum }

/-- The chunk loop over one cluster of the up-case table. -/
def upcaseCluster (m base : Nat) : Nat → Nat → Nat → UpcaseState → Driver UpcaseState
  | 0, _, _, state => pure state
  | fuel + 1, offset, bytes, state =>
    if bytes ≤ offset then pure state
    else do
      let count := min (bytes - offset) 512
      let buffer ← volumeRead m (base + offset) count
      let state ← ofOption (upcaseChunk buffer state)
      upcaseCluster m base fuel (offset + count) bytes state

/-- The loop of `validate_system_stream`. -/
def systemStreamLoop (m : Nat) (upcase : Bool) :
    Nat → Nat → Nat → UpcaseState → Driver Unit
  | 0, _, _, _ => fail
  | fuel + 1, cluster, remaining, state => do
      let volume ← gets (·.volume m)
      let base ← clusterBase m cluster
      let bytes := min remaining volume.clusterSize
      let state ← (if upcase then upcaseCluster m base bytes 0 bytes state else pure state)
      let next ← nextCluster m cluster
      if remaining ≤ bytes then
        require (exfatFatChainEnd ≤ next ∧ (upcase = false ∨ (state.skip = false ∧
          state.mapped = 65536 ∧ state.checksum = volume.upcaseTableChecksum)))
      else systemStreamLoop m upcase fuel next (remaining - bytes) state

def validateSystemStream (m cluster size : Nat) (upcase : Bool) : Driver Unit := do
  let volume ← gets (·.volume m)
  require (size ≠ 0 ∧ size ≤ volume.clusterCount * volume.clusterSize ∧
    (upcase = false ∨ (size % 2 = 0 ∧ size ≤ 131072)))
  systemStreamLoop m upcase size cluster size { checksum := 0, mapped := 0, skip := false }

def validateSystemStreams (m : Nat) : Driver Unit := do
  let volume ← gets (·.volume m)
  require (volume.bitmapSeen = true ∧ volume.upcaseSeen = true ∧
    volume.allocationBitmapSize = (volume.clusterCount + 7) / 8)
  validateSystemStream m volume.allocationBitmapCluster volume.allocationBitmapSize false
  validateSystemStream m volume.upcaseTableCluster volume.upcaseTableSize true

/-- The nesting limit of `scan_directory`. -/
def scanLevels : Nat := 9

def scanRootDirectory (m : Nat) : Driver Unit := do
  let mount ← gets (·.mounts m)
  let root := mount.volume.rootDirectoryCluster
  registerDirectory m (directoryRecord mount.volume mount.mountpoint root false 0 0 0)
  scanDirectory m scanLevels 0 mount.mountpoint root false 0
  validateSystemStreams m

/-! ## Reading a whole file -/

/-- The loop of `exfat_read_all_impl` with `remaining` valid bytes to go. -/
def readAllLoop (m : Nat) (noFatChain : Bool) : Nat → Nat → Nat → Driver Bytes
  | 0, _, _ => pure []
  | fuel + 1, cluster, remaining =>
    if remaining = 0 then pure []
    else do
      let volume ← gets (·.volume m)
      let base ← clusterBase m cluster
      let chunk := min volume.clusterSize remaining
      let bytes ← volumeRead m base chunk
      if remaining ≤ chunk then return bytes
      else
        let next ← (if noFatChain then pure (cluster + 1) else followChain m cluster)
        let rest ← readAllLoop m noFatChain fuel next (remaining - chunk)
        return bytes ++ rest

/-- `exfat_read_all_impl` on a record; allocated bytes past the valid length read as
zero. -/
def exfatReadAllImpl (m : Nat) (file : ExfatFile) : Driver Bytes := do
  require (file.validSize ≤ file.size)
  kmalloc
  let bytes ← readAllLoop m file.noFatChain file.validSize file.firstCluster file.validSize
  return bytes ++ List.replicate (file.size - file.validSize) 0

def exfatReadAll (node : Node) : Driver Bytes := do
  let world ← gets id
  require (exfatStreamBusy world node.path false = false)
  fsScope do
    let (m, index) ← ofOption node.data
    exfatReadAllImpl m (← fileSlot m index).file

/-- `vfs_lookup` and `vfs_read_all` of an exFAT file. -/
def vfsReadAll (path : Path) : Driver Bytes := do
  let vfs ← gets vfs
  let slot ← ofOption (vfsSlot vfs path)
  let node ← ofOption (vfsLookup vfs path)
  require (node.type = .file)
  let bytes ← exfatReadAll node
  let now ← metadataTime
  updateVfs (·.modifySlot slot fun node =>
    { node with metadata := { node.metadata with atime := now } })
  return bytes

/-! ## The metadata sidecar at mount time -/

def digitsValue (digits : Bytes) : Nat :=
  digits.foldl (fun value digit => value * 10 + (digit.toNat - 48)) 0

/-- `parse_u64_field`: the value and the bytes after the field. -/
def parseU64Field (data : Bytes) (finalField : Bool) : Option (Nat × Bytes) :=
  let digits := data.takeWhile fun byte => decide (48 ≤ byte) && decide (byte ≤ 57)
  let rest := data.drop digits.length
  if digits = [] ∨ word64 ≤ digitsValue digits then none
  else if finalField then
    match rest.dropWhile (· == 13) with
    | 10 :: rest => some (digitsValue digits, rest)
    | _ => none
  else
    match rest with
    | 9 :: rest => some (digitsValue digits, rest)
    | _ => none

def parseMetadata (data : Bytes) : Option (Metadata × Bytes) := do
  let (inode, data) ← parseU64Field data false
  let (mode, data) ← parseU64Field data false
  let (nlink, data) ← parseU64Field data false
  let (uid, data) ← parseU64Field data false
  let (gid, data) ← parseU64Field data false
  let (atime, data) ← parseU64Field data false
  let (mtime, data) ← parseU64Field data false
  let (ctime, data) ← parseU64Field data true
  return ({ inode, mode, nlink, uid, gid, atime, mtime, ctime }, data)

/-- The validating pass of `parse_metadata_records`. -/
def parseMetadataRecords (mountpoint : Path) : Nat → Bytes → Option (List (Path × Metadata))
  | 0, _ => none
  | fuel + 1, data =>
    match data.dropWhile fun byte => byte == 10 || byte == 13 with
    | [] => some []
    | data => do
        let path := data.takeWhile (· != 9)
        if exfatMaxPath ≤ path.length ∨ path.length = data.length ∨
            path.all (fun byte => decide (32 ≤ byte) && decide (byte ≤ 126)) = false ∨
            pathInSubtree path mountpoint = false ∨
            metadataPathIsInternal mountpoint path = true then none
        else
          let (metadata, rest) ← parseMetadata (data.drop (path.length + 1))
          let records ← parseMetadataRecords mountpoint fuel rest
          return (path, metadata) :: records

/-- The applying pass of `parse_metadata_records`. -/
def applyMetadataRecords : List (Path × Metadata) → Driver Unit
  | [] => pure ()
  | (path, metadata) :: rest => do
      match vfsLookup (← gets vfs) path with
      | none => applyMetadataRecords rest
      | some target =>
        let type := match target.type with
          | .directory => vfsModeIfdir
          | .file => vfsModeIfreg
        ignore (vfsSetMetadata path
          { metadata with mode := (metadata.mode - (metadata.mode &&& vfsModeIfmt)) ||| type })
        applyMetadataRecords rest

/-- `parse_metadata_file` with `apply` set. -/
def parseMetadataFile (m : Nat) (path : Path) : Driver Unit := do
  let mountpoint := (← gets (·.mounts m)).mountpoint
  let data ← vfsReadAll path
  require (metadataMagic.isPrefixOf data = true)
  let body := data.drop metadataMagic.length
  let records ← ofOption (parseMetadataRecords mountpoint (body.length + 1) body)
  applyMetadataRecords records

/-- Forget the registration times of the nodes of a mount. -/
def clearTimes (m : Nat) : List Nat → Driver Unit
  | [] => pure ()
  | slot :: rest => do
      let world ← gets id
      match world.vfs.nodes.find? fun entry => entry.1 = slot with
      | some (_, node) =>
        when (findMountForPath world node.path = some m)
          (ignore (vfsSetMetadata node.path
            { node.metadata with atime := 0, mtime := 0, ctime := 0 }))
        clearTimes m rest
      | none => clearTimes m rest

/-- `load_mount_metadata` while `metadata_syncing` is set. -/
def applySidecar (m : Nat) (path temp : Path) (clean : Bool) : Driver Unit := do
  clearTimes m ((← gets vfs).nodes.map Prod.fst)
  let world ← gets id
  if (world.volume m).writeBlocked then require (clean = false)
  else if clean then
    if nameConflicts world path none then parseMetadataFile m path else pure ()
  else
    match ← attempt (parseMetadataFile m temp) with
    | some () =>
      if (vfsLookup (← gets vfs) path).isSome then
        ignore (exfatReplaceFile syncSuspended temp path)
      else ignore (exfatRename syncSuspended temp path)
    | none => ignore (parseMetadataFile m path)

def loadMountMetadata (m : Nat) (clean : Bool) : Driver Unit := do
  let world ← gets id
  let mountpoint := (world.mounts m).mountpoint
  let path ← ofOption (metadataFilePath mountpoint)
  let temp ← ofOption (metadataTempPath mountpoint)
  require (clean = false ∨ nameConflicts world temp none = false)
  setSyncing true
  let outcome ← attempt (applySidecar m path temp clean)
  setSyncing false
  ofOption outcome

/-! ## Mounting and unmounting -/

def emptyVolume : Volume :=
  { device := 0, imageSize := 0, sectorSize := 0, clusterSize := 0, fatOffsetBytes := 0,
    clusterHeapOffsetBytes := 0, allocationBitmapCluster := 0, allocationBitmapSize := 0,
    upcaseTableCluster := 0, upcaseTableSize := 0, upcaseTableChecksum := 0,
    bitmapSeen := false, upcaseSeen := false, clusterCount := 0, rootDirectoryCluster := 0,
    flags := 0, writeBlocked := false, mutationWritten := false, mutationDepth := 0 }

/-- What `clear_mount` leaves behind. -/
def emptyMount : Mount :=
  { used := false, volume := emptyVolume, files := [], dirs := [], fileCapacity := 0,
    dirCapacity := 0, metadataCapacity := 0, mountpoint := [] }

def mountpointInUse (world : World) (mountpoint : Path) : Bool :=
  (findMount world fun _ mount => pathInSubtree mountpoint mount.mountpoint ||
    pathInSubtree mount.mountpoint mountpoint).isSome ||
  world.vfs.nodes.any fun entry => pathInSubtree entry.2.path mountpoint ||
    (entry.2.type != .directory && pathInSubtree mountpoint entry.2.path)

/-- The first unused mount: the search of `alloc_mount`. -/
def allocMount (world : World) : Option Nat :=
  (List.range exfatMaxVolumes).find? fun m => !(world.mounts m).used

def discardMount (m : Nat) (mountpoint : Path) : Driver Unit := do
  vfsUnregisterPrefix mountpoint
  updateMount m fun _ => emptyMount

/-- Decide whether a scanned mount may be written. -/
def establishOwnership (m : Nat) : Driver Unit := do
  let volume ← gets (·.volume m)
  let needed := (volume.clusterCount + 7) / 8
  when (volume.allocationBitmapSize ≠ needed ∨ volume.clusterSize < needed)
    (updateVolume m ({ · with writeBlocked := true }))
  if (← gets (·.volume m)).writeBlocked then pure ()
  else
    match ← attempt (checkMount m) with
    | some () => pure ()
    | none => updateVolume m ({ · with writeBlocked := true })

/-- `mount_block_device` after the claim. -/
def mountBlockDevice (mountpoint : Path) (device : Nat) (clean : Bool) : Driver Unit := do
  let world ← gets id
  let disk := world.disks device
  require (validMountpoint mountpoint = true ∧ 512 ≤ disk.size ∧
    mountpointInUse world mountpoint = false ∧
    (findMount world fun _ mount => mount.volume.device == device) = none)
  let volume ← selectBoot device disk.size
  let m ← ofOption (allocMount world)
  updateMount m fun _ =>
    { emptyMount with used := true, volume := volume, mountpoint := mountpoint }
  onFailure (scanRootDirectory m) (discardMount m mountpoint)
  establishOwnership m
  if clean then
    let online ← draw Env.online
    onFailure
      (do
        let volume ← gets (·.volume m)
        require (volume.writeBlocked = false ∧ online = true ∧ disk.writable = true ∧
          disk.flushable = true)
        loadMountMetadata m true)
      (discardMount m mountpoint)
  else ignore (loadMountMetadata m false)

/-- `exfat_mount_block_device` and, with `clean`, `exfat_mount_block_device_clean`. -/
def exfatMountBlockDevice (mountpoint : Path) (device : Nat) (clean : Bool) : Driver Unit :=
  fsScope do
    require ((← draw Env.claimed) = true)
    mountBlockDevice mountpoint device clean

def exfatUnmount (mountpoint : Path) : Driver Unit :=
  fsScope do
    let opened ← draw Env.opened
    let world ← gets id
    require (world.fsOperations = 1 ∧ validMountpoint mountpoint = true ∧ opened = false ∧
      exfatStreamBusy world mountpoint true = false)
    let m ← ofOption (findMount world fun _ mount => mount.mountpoint == mountpoint)
    discardMount m mountpoint

end SrvrOS.Exfat
