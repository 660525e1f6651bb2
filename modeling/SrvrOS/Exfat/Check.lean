import SrvrOS.Exfat.Operations

/-!
# The allocation check

`check_mount` walks every extent the live tables describe, requires each cluster to be
in range, marked in the bitmap and met only once, and then looks for marked clusters
that no extent reached.
-/

namespace SrvrOS.Exfat

open Lib Act

/-- The clusters met so far and the errors found. -/
structure CheckState where
  seen : List Nat
  errors : Nat

def CheckState.fault (state : CheckState) : CheckState :=
  { state with errors := state.errors + 1 }

/-- The bitmap a check runs against. -/
structure CheckBitmap where
  bitmap : Bytes
  bits : Nat
  seenBytes : Nat

def checkClusterAllocation (view : CheckBitmap) (cluster : Nat) (allowDuplicate : Bool)
    (state : CheckState) : CheckState :=
  let bit := cluster - 2
  let state :=
    if view.bits ≤ bit ∨ bitmapBitIsSet view.bitmap bit = false then state.fault else state
  let fresh := decide (bit / 8 < view.seenBytes) && !state.seen.contains bit
  let state := if !fresh && !allowDuplicate then state.fault else state
  if bit / 8 < view.seenBytes then { state with seen := bit :: state.seen } else state

/-- The loop of `check_file_clusters` over the remaining clusters. -/
def checkFileLoop (m : Nat) (view : CheckBitmap) (noFatChain isAlias : Bool) :
    Nat → Nat → CheckState → Driver CheckState
  | 0, _, state => pure state
  | rest + 1, cluster, state => do
      let volume ← gets (·.volume m)
      if cluster < 2 ∨ volume.clusterCount + 2 ≤ cluster then return state.fault
      let state := checkClusterAllocation view cluster isAlias state
      if rest = 0 then
        if noFatChain then return state
        match ← attempt (nextCluster m cluster) with
        | none => return state.fault
        | some next => return if next < exfatFatChainEnd then state.fault else state
      else if noFatChain then checkFileLoop m view noFatChain isAlias rest (cluster + 1) state
      else
        match ← attempt (nextCluster m cluster) with
        | none => return state.fault
        | some next => checkFileLoop m view noFatChain isAlias rest next state

def fileHasExistingAlias (files : List FileSlot) (index : Nat) (file : ExfatFile) : Bool :=
  (files.take index).any fun slot =>
    slot.path != [] && slot.file.firstCluster == file.firstCluster &&
      slot.file.size == file.size && slot.file.validSize == file.validSize &&
      slot.file.noFatChain == file.noFatChain &&
      slot.file.allocatedClusters == file.allocatedClusters

/-- `check_file_clusters` for a live slot. -/
def checkFileClusters (m : Nat) (view : CheckBitmap) (files : List FileSlot) (index : Nat)
    (file : ExfatFile) (state : CheckState) : Driver CheckState := do
  let volume ← gets (·.volume m)
  let expected := clustersForSize volume file.size
  let state := if file.allocatedClusters ≠ expected then state.fault else state
  if expected = 0 then return state
  if file.firstCluster < 2 ∨ volume.clusterCount + 2 ≤ file.firstCluster then
    return state.fault
  checkFileLoop m view file.noFatChain (fileHasExistingAlias files index file) expected
    file.firstCluster state

/-- The loop of `check_directory_clusters` over the remaining clusters. -/
def checkDirectoryLoop (m : Nat) (view : CheckBitmap) (noFatChain followToEnd : Bool) :
    Nat → Nat → CheckState → Driver CheckState
  | 0, _, state => pure state
  | rest + 1, cluster, state => do
      let volume ← gets (·.volume m)
      if cluster < 2 ∨ volume.clusterCount + 2 ≤ cluster then return state.fault
      let state := checkClusterAllocation view cluster false state
      if noFatChain then
        if rest = 0 then return state
        else checkDirectoryLoop m view noFatChain followToEnd rest (cluster + 1) state
      else
        match ← attempt (nextCluster m cluster) with
        | none => return state.fault
        | some next =>
          if followToEnd then
            if exfatFatChainEnd ≤ next then return state
            else checkDirectoryLoop m view noFatChain followToEnd rest next state
          else if rest = 0 then
            return if next < exfatFatChainEnd then state.fault else state
          else checkDirectoryLoop m view noFatChain followToEnd rest next state

/-- A record whose chain is followed to its end: the root directory. -/
def Directory.followToEnd (directory : Directory) : Bool :=
  directory.fileEntryOffset == 0 && directory.dataLength == 0 && !directory.noFatChain

def checkDirectoryClusters (m : Nat) (view : CheckBitmap) (directory : Directory)
    (state : CheckState) : Driver CheckState := do
  let volume ← gets (·.volume m)
  let expected :=
    if directory.followToEnd then volume.clusterCount else directory.allocatedClusters
  if directory.path = [] ∨ expected = 0 then return state
  if directory.firstCluster < 2 ∨ volume.clusterCount + 2 ≤ directory.firstCluster then
    return state.fault
  checkDirectoryLoop m view directory.noFatChain directory.followToEnd expected
    directory.firstCluster state

/-- The loop of `check_system_cluster_range` over the remaining clusters. -/
def checkSystemLoop (m : Nat) (view : CheckBitmap) :
    Nat → Nat → CheckState → Driver CheckState
  | 0, _, state => pure state
  | rest + 1, cluster, state => do
      let volume ← gets (·.volume m)
      if cluster < 2 ∨ volume.clusterCount + 2 ≤ cluster then return state.fault
      let state := checkClusterAllocation view cluster false state
      match ← attempt (nextCluster m cluster) with
      | none => return state.fault
      | some next =>
        if rest = 0 ∧ next < exfatFatChainEnd then return state.fault
        else checkSystemLoop m view rest next state

def checkSystemClusterRange (m : Nat) (view : CheckBitmap) (firstCluster byteLength : Nat)
    (state : CheckState) : Driver CheckState := do
  let volume ← gets (·.volume m)
  if firstCluster < 2 ∨ byteLength = 0 then return state
  checkSystemLoop m view (clustersForSize volume byteLength) firstCluster state

def checkBitmapLeaks (volume : Volume) (view : CheckBitmap) (state : CheckState) :
    CheckState :=
  let leaked := (List.range (min volume.clusterCount view.bits)).any fun bit =>
    bitmapBitIsSet view.bitmap bit &&
      !(decide (bit / 8 < view.seenBytes) && state.seen.contains bit)
  if leaked then state.fault else state

/-- The directory loop of `check_mount`. -/
def checkDirectories (m : Nat) (view : CheckBitmap) :
    List Directory → CheckState → Driver CheckState
  | [], state => pure state
  | directory :: rest, state => do
      let state ← checkDirectoryClusters m view directory state
      checkDirectories m view rest state

/-- The file loop of `check_mount`. -/
def checkFiles (m : Nat) (view : CheckBitmap) (files : List FileSlot) :
    List (FileSlot × Nat) → CheckState → Driver CheckState
  | [], state => pure state
  | (slot, index) :: rest, state => do
      let state ←
        (if slot.path = [] then pure state
        else checkFileClusters m view files index slot.file state)
      checkFiles m view files rest state

def checkMount (m : Nat) : Driver Unit := do
  let mount ← gets (·.mounts m)
  let volume := mount.volume
  let bytes := allocationBitmapBytes volume
  require (volume.clusterSize ≠ 0 ∧ volume.clusterCount ≠ 0 ∧
    2 ≤ volume.allocationBitmapCluster ∧
    volume.allocationBitmapSize ≤ volume.clusterSize)
  let offset ← clusterBase m volume.allocationBitmapCluster
  require (bytes ≠ 0)
  let first ← attempt kmalloc
  let second ← attempt kmalloc
  require (first.isSome ∧ second.isSome)
  let bitmap ← volumeRead m offset volume.clusterSize
  let view : CheckBitmap :=
    { bitmap := bitmap, bits := bytes * 8, seenBytes := (volume.clusterCount + 7) / 8 }
  let state ← checkSystemClusterRange m view volume.allocationBitmapCluster bytes
    { seen := [], errors := 0 }
  let state ← checkSystemClusterRange m view volume.upcaseTableCluster volume.upcaseTableSize
    state
  let state ← checkDirectories m view mount.dirs state
  let state ← checkFiles m view mount.files mount.files.zipIdx state
  require ((checkBitmapLeaks volume view state).errors = 0)

end SrvrOS.Exfat
