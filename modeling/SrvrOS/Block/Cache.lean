import SrvrOS.Block.Device
import SrvrOS.Lib.Prog
import SrvrOS.Lib.Run
import SrvrOS.Lib.Store

/-!
# The write-through block cache

The transfer path of `kernel/src/block.c`: single-block entries in front of the drivers, batched
transfers, and partition views that share the cache of their parent. By a fault schedule any driver
call may fail or declare the device lost, and a failed write may leave any prefix of its bytes on
the medium. Statistics and service checkpoints are left out.
-/

namespace SrvrOS.Block

open Lib Prog

def blockCacheEntries : Nat := 32

def blockCacheMaxBlockSize : Nat := 4096

def blockMaxBatchBytes : Nat := 16384

/-- `struct partition_block_device`. -/
structure Partition (ι : Type) where
  parent : ι
  offset : Nat
  size : Nat

/-- The fields of `struct block_device` that the transfer path reads. -/
structure Disk (ι : Type) extends Device ι where
  readable : Bool
  writable : Bool
  maxTransferBytes : Nat
  partition : Option (Partition ι)

/-- A registry as the partition scanners leave it: the parent of a view is a driver
device, and the view's backing link describes the same range as its private data. -/
structure Disks (ι : Type) where
  disk : ι → Disk ι
  parent_driver : ∀ name view, (disk name).partition = some view →
    (disk view.parent).partition = none
  backing_eq : ∀ name view, (disk name).partition = some view →
    (disk name).backing = some view.parent
  offset_eq : ∀ name view, (disk name).partition = some view →
    (disk name).backingOffset = view.offset
  size_eq : ∀ name view, (disk name).partition = some view →
    (disk name).bytes = view.size

/-- `struct block_cache_entry`. -/
structure CacheEntry (ι : Type) where
  valid : Bool := false
  device : Option ι := none
  blockIndex : Nat := 0
  lastUsed : Nat := 0
  data : List UInt8 := []

/-- What the driver does on one call: transfer everything or only the first `reached` bytes. -/
structure DriverFault where
  ok : Bool
  reached : Nat
  lost : Bool

/-- The mutable state of the block layer and the media behind it. -/
structure BlockState (ι : Type) where
  offline : ι → Bool
  media : ι → Store UInt8
  cache : List (CacheEntry ι)
  clock : Nat
  faults : Nat → DriverFault
  calls : Nat

/-- `block_init`: an empty cache over arbitrary media and any driver behaviour. -/
def BlockState.initial {ι : Type} (offline : ι → Bool) (media : ι → Store UInt8)
    (faults : Nat → DriverFault) : BlockState ι :=
  { offline, media, cache := List.replicate blockCacheEntries {}, clock := 0,
    faults, calls := 0 }

variable {ι : Type} [DecidableEq ι] (disks : Disks ι)

/-- The descriptors as they stand, with the current offline marks. -/
def BlockState.registry (state : BlockState ι) : Registry ι := fun name =>
  { (disks.disk name).toDevice with offline := state.offline name }

/-! ## Invalidation -/

/-- The root that `block_forget` compares against: the device itself when its range
does not resolve. -/
def forgetRoot (registry : Registry ι) (device : ι) : ι :=
  match blockRawRange registry (some device) 0 (blockDeviceSize registry (some device)) with
  | some (root, _) => root
  | none => device

/-- Whether `block_forget` of `device` drops the entries of `other`. -/
def sharesRoot (registry : Registry ι) (device : ι) (other : Option ι) : Bool :=
  decide (other = some device) ||
    match blockRawRange registry other 0 (blockDeviceSize registry other) with
    | some (root, _) => decide (root = forgetRoot registry device)
    | none => false

def blockForget (device : ι) (state : BlockState ι) : BlockState ι :=
  { state with
    cache := state.cache.map fun entry =>
      if entry.valid && sharesRoot (state.registry disks) device entry.device then
        { entry with valid := false }
      else entry }

/-- The loop of `block_invalidate`. -/
def invalidateWalk : Nat → Option ι → BlockState ι → BlockState ι
  | 0, _, state => state
  | _ + 1, none, state => state
  | depth + 1, some device, state =>
    let marked := { state with offline := Function.update state.offline device true }
    invalidateWalk depth (disks.disk device).backing (blockForget disks device marked)

def blockInvalidate (device : ι) (state : BlockState ι) : BlockState ι :=
  invalidateWalk disks blockMaxDevices (some device) state

/-! ## Driver calls -/

def nextFault (device : ι) : Prog (BlockState ι) DriverFault := fun state =>
  let fault := state.faults state.calls
  let counted := { state with calls := state.calls + 1 }
  (fault, if fault.lost then blockInvalidate disks device counted else counted)

/-- A driver's `read` callback. -/
def driverRead (device : ι) (offset length : Nat) :
    Prog (BlockState ι) (Option (List UInt8)) := do
  let fault ← nextFault disks device
  if fault.ok then
    gets fun state => some ((state.media device).read offset length)
  else pure none

/-- A driver's `write` callback. -/
def driverWrite (device : ι) (offset : Nat) (data : List UInt8) :
    Prog (BlockState ι) Bool := do
  let fault ← nextFault disks device
  let reached := if fault.ok then data else data.take fault.reached
  modify fun state =>
    { state with
      media := Function.update state.media device
        ((state.media device).write offset reached) }
  pure fault.ok

/-! ## The cache table -/

/-- `cache_lookup`: the slot holding a block. -/
def cacheLookup (cache : List (CacheEntry ι)) (device : ι) (blockIndex : Nat) :
    Option Nat :=
  cache.findIdx? fun entry =>
    entry.valid && decide (entry.device = some device) &&
      decide (entry.blockIndex = blockIndex)

/-- The loop of `cache_pick_victim`: the first invalid slot, else the least recently used one. -/
def pickVictimFrom : List (CacheEntry ι) → Nat → Nat × Nat → Nat
  | [], _, best => best.1
  | entry :: rest, slot, best =>
    if !entry.valid then slot
    else if entry.lastUsed < best.2 then
      pickVictimFrom rest (slot + 1) (slot, entry.lastUsed)
    else pickVictimFrom rest (slot + 1) best

def cachePickVictim (cache : List (CacheEntry ι)) : Nat :=
  pickVictimFrom cache 0 (0, (cache[0]?.map CacheEntry.lastUsed).getD 0)

/-- Store an entry for a block, stamped with the next clock value. -/
def fileEntry (slot : Nat) (device : ι) (blockIndex : Nat) (data : List UInt8) :
    Prog (BlockState ι) Unit :=
  modify fun state =>
    { state with
      cache := state.cache.set slot
        { valid := true, device := some device, blockIndex := blockIndex,
          lastUsed := state.clock + 1, data := data }
      clock := state.clock + 1 }

/-- `cache_get`: the slot of a block, loading it on a miss. -/
def cacheGet (device : ι) (blockIndex : Nat) : Prog (BlockState ι) (Option Nat) := do
  match ← gets fun state => cacheLookup state.cache device blockIndex with
  | some slot =>
    modify fun state =>
      { state with
        cache := state.cache.modify slot fun entry =>
          { entry with lastUsed := state.clock + 1 }
        clock := state.clock + 1 }
    pure (some slot)
  | none =>
    let slot ← gets fun state => cachePickVictim state.cache
    let blockSize := (disks.disk device).blockSize
    match ← driverRead disks device (blockIndex * blockSize) blockSize with
    | none =>
      modify fun state =>
        { state with
          cache := state.cache.modify slot fun entry => { entry with valid := false } }
      pure none
    | some data =>
      fileEntry slot device blockIndex data
      pure (some slot)

/-- `cache_publish`, over the remaining block count. -/
def cachePublish (device : ι) : Nat → Nat → List UInt8 → Prog (BlockState ι) Unit
  | 0, _, _ => pure ()
  | count + 1, first, data => do
      let blockSize := (disks.disk device).blockSize
      let slot ← gets fun state =>
        (cacheLookup state.cache device first).getD (cachePickVictim state.cache)
      fileEntry slot device first (data.take blockSize)
      cachePublish device count (first + 1) (data.drop blockSize)

def cacheInvalidateRange (device : ι) (first count : Nat) : Prog (BlockState ι) Unit :=
  modify fun state =>
    { state with
      cache := state.cache.map fun entry =>
        if entry.valid && decide (entry.device = some device) &&
            decide (first ≤ entry.blockIndex) &&
            decide (entry.blockIndex - first < count) then
          { entry with valid := false }
        else entry }

def batchBytes (disk : Disk ι) (remaining : Nat) : Nat :=
  let limit := min (min disk.maxTransferBytes blockMaxBatchBytes) remaining
  limit - limit % disk.blockSize

/-- The inner loop of `read_locked`: extend a batch up to the first cached block. -/
def uncachedBytes (cache : List (CacheEntry ι)) (device : ι)
    (blockIndex blockSize batch : Nat) : Nat → Nat → Nat
  | 0, bytes => bytes
  | fuel + 1, bytes =>
    if bytes < batch ∧
        (cacheLookup cache device (blockIndex + bytes / blockSize)).isNone then
      uncachedBytes cache device blockIndex blockSize batch fuel (bytes + blockSize)
    else bytes

/-! ## Transfers -/

/-- `block_device_online` in the current state. -/
def online (device : ι) : Prog (BlockState ι) Bool :=
  gets fun state => blockDeviceOnline (state.registry disks) (some device)

def blockRangeValid (registry : Registry ι) (device : ι) (offset length : Nat) : Bool :=
  let size := blockDeviceSize registry (some device)
  decide (offset ≤ size) && decide (length ≤ size - offset)

/-- `cache_supported`: partition views use the cache of their parent. -/
def cacheSupported (disk : Disk ι) : Bool :=
  disk.partition.isNone && decide (0 < disk.blockSize) &&
    decide (disk.blockSize ≤ blockCacheMaxBlockSize)

/-- The loop of `read_locked`, with `remaining` bytes to go from `absolute`. -/
def readLoop (device : ι) : Nat → Nat → Nat → Prog (BlockState ι) (Option (List UInt8))
  | 0, _, _ => pure (some [])
  | fuel + 1, absolute, remaining =>
    if remaining = 0 then pure (some [])
    else do
      if !(← online disks device) then return none
      let disk := disks.disk device
      let blockIndex := absolute / disk.blockSize
      let blockOffset := absolute % disk.blockSize
      let batch := if blockOffset = 0 then batchBytes disk remaining else 0
      let hit ← gets fun state => cacheLookup state.cache device blockIndex
      if batch ≠ 0 ∧ hit.isNone then
        let bytes ← gets fun state =>
          uncachedBytes state.cache device blockIndex disk.blockSize batch batch
            disk.blockSize
        match ← driverRead disks device absolute bytes with
        | none => return none
        | some data =>
          cachePublish disks device (bytes / disk.blockSize) blockIndex data
          match ← readLoop device fuel (absolute + bytes) (remaining - bytes) with
          | none => return none
          | some rest => return some (data ++ rest)
      else
        let chunk := min (disk.blockSize - blockOffset) remaining
        match ← cacheGet disks device blockIndex with
        | none => return none
        | some slot =>
          let data ← gets fun state =>
            (((state.cache[slot]?.map CacheEntry.data).getD []).drop blockOffset).take
              chunk
          match ← readLoop device fuel (absolute + chunk) (remaining - chunk) with
          | none => return none
          | some rest => return some (data ++ rest)

/-- The read-modify-write of one cached block, which is dropped if the driver call fails. -/
def patchBlock (device : ι) (blockIndex slot blockOffset : Nat)
    (patch : List UInt8) : Prog (BlockState ι) Bool := do
  modify fun state =>
    { state with
      cache := state.cache.modify slot fun entry =>
        { entry with data := entry.data.take blockOffset ++ patch ++
            entry.data.drop (blockOffset + patch.length) } }
  let block ← gets fun state => (state.cache[slot]?.map CacheEntry.data).getD []
  if !(← driverWrite disks device (blockIndex * (disks.disk device).blockSize) block) then
    modify fun state =>
      { state with
        cache := state.cache.modify slot fun entry => { entry with valid := false } }
    return false
  return true

/-- The loop of `write_locked`, with `data` still to be written at `absolute`. -/
def writeLoop (device : ι) : Nat → Nat → List UInt8 → Prog (BlockState ι) Bool
  | 0, _, _ => pure true
  | fuel + 1, absolute, data =>
    if data = [] then pure true
    else do
      if !(← online disks device) then return false
      let disk := disks.disk device
      let blockIndex := absolute / disk.blockSize
      let blockOffset := absolute % disk.blockSize
      let batch := if blockOffset = 0 then batchBytes disk data.length else 0
      if batch ≠ 0 then
        cacheInvalidateRange device blockIndex (batch / disk.blockSize)
        if !(← driverWrite disks device absolute (data.take batch)) then return false
        cachePublish disks device (batch / disk.blockSize) blockIndex (data.take batch)
        writeLoop device fuel (absolute + batch) (data.drop batch)
      else
        let chunk := min (disk.blockSize - blockOffset) data.length
        match ← cacheGet disks device blockIndex with
        | none => return false
        | some slot =>
          if !(← patchBlock disks device blockIndex slot blockOffset (data.take chunk)) then
            return false
          writeLoop device fuel (absolute + chunk) (data.drop chunk)

/-- `read_locked`, given what `device->read` does on an uncached device. -/
def readLocked (deviceRead : ι → Nat → Nat → Prog (BlockState ι) (Option (List UInt8)))
    (device : ι) (offset length : Nat) : Prog (BlockState ι) (Option (List UInt8)) := do
  if !(← online disks device) || !(disks.disk device).readable then return none
  if length = 0 then return some []
  if !(← gets fun state =>
      blockRangeValid (state.registry disks) device offset length) then return none
  if !cacheSupported (disks.disk device) then deviceRead device offset length
  else
    match ← readLoop disks device length offset length with
    | none => return none
    | some data => if ← online disks device then return some data else return none

/-- `write_locked`, given what `device->write` does on an uncached device. -/
def writeLocked (deviceWrite : ι → Nat → List UInt8 → Prog (BlockState ι) Bool)
    (device : ι) (offset : Nat) (data : List UInt8) : Prog (BlockState ι) Bool := do
  if !(← online disks device) || !(disks.disk device).writable then return false
  if data = [] then return true
  if !(← gets fun state =>
      blockRangeValid (state.registry disks) device offset data.length) then return false
  if !cacheSupported (disks.disk device) then deviceWrite device offset data
  else
    if !(← writeLoop disks device data.length offset data) then return false
    online disks device

/-- The `read` callback of a descriptor: the driver's, or `partition_read`. -/
def deviceRead (device : ι) (offset length : Nat) :
    Prog (BlockState ι) (Option (List UInt8)) :=
  match (disks.disk device).partition with
  | none => driverRead disks device offset length
  | some view =>
    if view.size < offset ∨ view.size - offset < length then pure none
    else readLocked disks (driverRead disks) view.parent
      (wrap64 (view.offset + offset)) length

/-- The `write` callback of a descriptor. -/
def deviceWrite (device : ι) (offset : Nat) (data : List UInt8) :
    Prog (BlockState ι) Bool :=
  match (disks.disk device).partition with
  | none => driverWrite disks device offset data
  | some view =>
    if !(disks.disk view.parent).writable then pure false
    else if view.size < offset ∨ view.size - offset < data.length then pure false
    else writeLocked disks (driverWrite disks) view.parent
      (wrap64 (view.offset + offset)) data

/-- `block_read`; `admitted` is the scheduler's answer to the ownership request. -/
def blockRead (admitted : Bool) (device : Option ι) (offset length : Nat) :
    Prog (BlockState ι) (Option (List UInt8)) :=
  match device with
  | none => pure none
  | some device =>
    if admitted then readLocked disks (deviceRead disks) device offset length
    else pure none

def blockWrite (admitted : Bool) (device : Option ι) (offset : Nat)
    (data : List UInt8) : Prog (BlockState ι) Bool :=
  match device with
  | none => pure false
  | some device =>
    if admitted then writeLocked disks (deviceWrite disks) device offset data
    else pure false

end SrvrOS.Block
