import SrvrOS.Exfat.Vfs
import SrvrOS.Lib.Packed
import SrvrOS.Lib.Run
import SrvrOS.Lib.Word

/-!
# The node table of the virtual file system

`kernel/src/vfs.c`: slots that never move, a packed array of the live slot numbers, and a counter
for inode numbers. The callers' paths do not change while a node holds them, so a node carries its
path.
-/

namespace SrvrOS.Vfs

open Lib Bool List
open Exfat (Metadata NodeType Path slash word64 vfsMaxNodes vfsNodeBlock vfsModeIfmt vfsModeIfdir
  vfsModeIfreg executableDefaultPath pathInSubtree)

/-- `struct vfs_node`. `data` is the private data with its callbacks; a directory and a
file without a read callback have none. -/
structure Node (δ : Type) where
  used : Bool
  path : Path
  type : NodeType
  size : Nat
  metadata : Metadata
  data : Option δ

def Node.zero (δ : Type) : Node δ where
  used := false
  path := []
  type := .file
  size := 0
  metadata := ⟨0, 0, 0, 0, 0, 0, 0, 0⟩
  data := none

/-- The static state of the node table. -/
structure Table (δ : Type) where
  slots : Store (Node δ)
  liveSlots : Store Nat
  nodeCount : Nat
  nodeCapacity : Nat
  nextInode : Nat

/-- The table that `vfs_init` starts from. -/
def Table.boot (δ : Type) : Table δ where
  slots := fun _ => Node.zero δ
  liveSlots := fun _ => 0
  nodeCount := 0
  nodeCapacity := vfsNodeBlock
  nextInode := 1

/-- What a call reads from outside: the time, allocations, and what the metadata callback answers.
-/
structure Env where
  now : Nat
  blocks : Nat
  accepted : Bool

variable {δ : Type}

def Table.grow (t : Table δ) : Table δ :=
  { t with
    slots := fun i =>
      if t.nodeCapacity ≤ i ∧ i < t.nodeCapacity + vfsNodeBlock then Node.zero δ else t.slots i
    nodeCapacity := t.nodeCapacity + vfsNodeBlock }

/-- The loop of `vfs_reserve_nodes`. -/
def reserveLoop (additional : Nat) : Nat → Table δ → Bool × Table δ
  | blocks, t =>
    if additional ≤ t.nodeCapacity - t.nodeCount then (true, t)
    else
      match blocks with
      | 0 => (false, t)
      | blocks + 1 => reserveLoop additional blocks t.grow

def vfsReserveNodes (env : Env) (additional : Nat) (t : Table δ) : Bool × Table δ :=
  if vfsMaxNodes - t.nodeCount < additional then (false, t)
  else reserveLoop additional env.blocks t

def Table.setSlot (t : Table δ) (slot : Nat) (node : Node δ) : Table δ :=
  { t with slots := Function.update t.slots slot node }

def publishSlot (slot : Nat) (t : Table δ) : Table δ :=
  { t with
    liveSlots := Packed.insert slot t.nodeCount t.liveSlots
    nodeCount := t.nodeCount + 1 }

def removeSlot (slot : Nat) (t : Table δ) : Table δ :=
  match (range t.nodeCount).find? fun i => t.liveSlots i == slot with
  | none => t
  | some i =>
    { t.setSlot slot { t.slots slot with used := false } with
      liveSlots := Packed.removeAt i t.nodeCount t.liveSlots
      nodeCount := Word.sub 64 t.nodeCount 1 }

/-- `inode_in_use`, apart from the node in slot `self`. -/
def inodeInUse (t : Table δ) (inode : Nat) (self : Option Nat) : Bool :=
  (range t.nodeCapacity).any fun i =>
    (t.slots i).used && decide (some i ≠ self) && (t.slots i).metadata.inode == inode

/-- The loop of `allocate_inode`. -/
def freeInode (t : Table δ) : Nat → Nat → Nat
  | 0, inode => inode
  | fuel + 1, inode =>
    if inode = 0 ∨ inodeInUse t inode none then freeInode t fuel ((inode + 1) % word64)
    else inode

/-- `allocate_inode`. Zero and the inodes in use are passed over, so two rounds more than
there are slots suffice. -/
def allocateInode (t : Table δ) : Nat × Table δ :=
  let inode := freeInode t (t.nodeCapacity + 2) t.nextInode
  (inode, { t with nextInode := (inode + 1) % word64 })

def importMetadata (metadata : Metadata) (self : Option Nat) (t : Table δ) :
    Metadata × Table δ :=
  let fresh :=
    if metadata.inode = 0 ∨ inodeInUse t metadata.inode self then allocateInode t
    else (metadata.inode, t)
  ({ metadata with inode := fresh.1 },
    if fresh.2.nextInode ≤ fresh.1 then
      { fresh.2 with nextInode := (fresh.1 + 1) % word64 }
    else fresh.2)

def defaultMetadata (env : Env) (path : Path) (type : NodeType) (t : Table δ) :
    Metadata × Table δ :=
  let fresh := allocateInode t
  let permissions :=
    if type = .file ∧ executableDefaultPath path then 0o755
    else if type = .directory then 0o755 else 0o644
  ({ inode := fresh.1
     mode := (if type = .directory then vfsModeIfdir else vfsModeIfreg) ||| permissions
     nlink := if type = .directory then 2 else 1
     uid := 0, gid := 0, atime := env.now, mtime := env.now, ctime := env.now },
    fresh.2)

/-- The slot that `mutable_lookup` finds. -/
def mutableLookup (t : Table δ) (path : Path) : Option Nat :=
  (range t.nodeCapacity).find? fun i => (t.slots i).used && (t.slots i).path == path

def firstUnused (t : Table δ) : Option Nat :=
  (range t.nodeCapacity).find? fun i => !(t.slots i).used

def newMetadata (env : Env) (path : Path) (type : NodeType) (metadata : Option Metadata)
    (t : Table δ) : Metadata × Table δ :=
  match metadata with
  | some metadata => importMetadata metadata none t
  | none => defaultMetadata env path type t

/-- The last part of both registrations: a new node in the first unused slot. -/
def registerNew (env : Env) (path : Path) (type : NodeType) (size : Nat) (data : Option δ)
    (metadata : Option Metadata) (t : Table δ) : Bool × Table δ :=
  let reserved := vfsReserveNodes env 1 t
  if ¬reserved.1 then (false, reserved.2)
  else
    match firstUnused reserved.2 with
    | none => (false, reserved.2)
    | some slot =>
      let fresh := newMetadata env path type metadata reserved.2
      (true, publishSlot slot (fresh.2.setSlot slot
        { used := true, path, type, size, metadata := fresh.1, data }))

/-- Import metadata, where there is some, into the node of a slot. -/
def importInto (slot : Nat) (metadata : Option Metadata) (t : Table δ) : Table δ :=
  match metadata with
  | none => t
  | some metadata =>
    let imported := importMetadata metadata (some slot) t
    imported.2.setSlot slot { t.slots slot with metadata := imported.1 }

def vfsRegisterDirectoryWithMetadata (env : Env) (path : Path) (metadata : Option Metadata)
    (t : Table δ) : Bool × Table δ :=
  match mutableLookup t path with
  | some slot => (true, importInto slot metadata t)
  | none => registerNew env path .directory 0 none metadata t

def vfsRegisterFileWithMetadata (env : Env) (path : Path) (size : Nat) (data : Option δ)
    (metadata : Option Metadata) (t : Table δ) : Bool × Table δ :=
  if data.isNone then (false, t)
  else
    match mutableLookup t path with
    | some slot =>
      if (t.slots slot).type ≠ .file then (false, t)
      else
        (true, importInto slot metadata
          (t.setSlot slot { t.slots slot with size := size, data := data }))
    | none => registerNew env path .file size data metadata t

def vfsSetMetadata (path : Path) (metadata : Option Metadata) (t : Table δ) : Bool × Table δ :=
  match mutableLookup t path, metadata with
  | some slot, some metadata => (true, importInto slot (some metadata) t)
  | _, _ => (false, t)

/-- Change the metadata of a node and keep the change only if the callback accepts it. -/
def notifyMetadataChanged (env : Env) (slot : Nat) (changed : Metadata) (t : Table δ) :
    Bool × Table δ :=
  if env.accepted then (true, t.setSlot slot { t.slots slot with metadata := changed })
  else (false, t.setSlot slot { t.slots slot with metadata := (t.slots slot).metadata })

def vfsChmod (env : Env) (path : Path) (mode : Nat) (t : Table δ) : Bool × Table δ :=
  match mutableLookup t path with
  | none => (false, t)
  | some slot =>
    let metadata := (t.slots slot).metadata
    notifyMetadataChanged env slot
      { metadata with
        mode := (metadata.mode &&& vfsModeIfmt) ||| (mode &&& 0o7777)
        ctime := env.now } t

/-- `SRV_TIME_OMIT`. -/
def timeOmit : Nat := 2 ^ 64 - 1

/-- `SRV_TIME_NOW`. -/
def timeNow : Nat := 2 ^ 64 - 2

def vfsMetadataUtime (now atime mtime : Nat) (metadata : Metadata) : Metadata :=
  if atime = timeOmit ∧ mtime = timeOmit then metadata
  else
    { metadata with
      atime := if atime = timeOmit then metadata.atime else if atime = timeNow then now else atime
      mtime := if mtime = timeOmit then metadata.mtime else if mtime = timeNow then now else mtime
      ctime := now }

def vfsUtime (env : Env) (path : Path) (atime mtime : Nat) (t : Table δ) : Bool × Table δ :=
  match mutableLookup t path with
  | none => (false, t)
  | some slot =>
    if atime = timeOmit ∧ mtime = timeOmit then (true, t)
    else
      notifyMetadataChanged env slot
        (vfsMetadataUtime env.now atime mtime (t.slots slot).metadata) t

/-- `vfs_unregister_path`. The retire callback only observes. -/
def vfsUnregisterPath (path : Path) (t : Table δ) : Bool × Table δ :=
  match mutableLookup t path with
  | none => (false, t)
  | some slot => (true, removeSlot slot t)

/-- `vfs_replace_file_path` with a path buffer of the given capacity. -/
def vfsReplaceFilePath (env : Env) (oldPath newPath : Path) (capacity : Nat) (t : Table δ) :
    Bool × Table δ :=
  match mutableLookup t oldPath, mutableLookup t newPath with
  | some source, some target =>
    if source = target ∨ (t.slots source).type ≠ .file ∨ (t.slots target).type ≠ .file then
      (false, t)
    else if capacity ≤ newPath.length then (false, t)
    else
      let unregistered := vfsUnregisterPath newPath t
      if ¬unregistered.1 then (false, unregistered.2)
      else
        let node := unregistered.2.slots source
        (true, unregistered.2.setSlot source
          { node with path := newPath, metadata := { node.metadata with ctime := env.now } })
  | _, _ => (false, t)

def pathUnderPrefix (path base : Path) : Bool :=
  if base = [] then false
  else if base = [slash] then path.head? == some slash
  else pathInSubtree path base

/-- One round of the sweep of `vfs_unregister_prefix`. -/
def sweepStep (base : Path) (state : Table δ × Nat) (i : Nat) : Table δ × Nat :=
  let slot := state.1.liveSlots i
  let node := state.1.slots slot
  if pathUnderPrefix node.path base then (state.1.setSlot slot { node with used := false }, state.2)
  else
    ({ state.1 with liveSlots := Function.update state.1.liveSlots state.2 slot }, state.2 + 1)

/-- `vfs_unregister_prefix`: the number of retired nodes. -/
def vfsUnregisterPrefix (base : Path) (t : Table δ) : Nat × Table δ :=
  let swept := (range t.nodeCount).foldl (sweepStep base) (t, 0)
  (Word.sub 64 t.nodeCount swept.2, { swept.1 with nodeCount := swept.2 })

/-- The calls that change the table. `vfs_register_file`, `vfs_register_file_with_release`
and `vfs_register_directory` are registrations without metadata. -/
inductive Call (δ : Type) where
  | registerDirectory (path : Path) (metadata : Option Metadata)
  | registerFile (path : Path) (size : Nat) (data : Option δ) (metadata : Option Metadata)
  | unregisterPath (path : Path)
  | unregisterPrefix (base : Path)
  | setMetadata (path : Path) (metadata : Option Metadata)
  | replaceFilePath (oldPath newPath : Path) (capacity : Nat)
  | chmod (path : Path) (mode : Nat)
  | utime (path : Path) (atime mtime : Nat)
  | reserveNodes (additional : Nat)

/-- One call; the answer is the source's return value. -/
def step (t : Table δ) : Env × Call δ → Nat × Table δ
  | (env, .registerDirectory path metadata) =>
    (vfsRegisterDirectoryWithMetadata env path metadata t).map toNat id
  | (env, .registerFile path size data metadata) =>
    (vfsRegisterFileWithMetadata env path size data metadata t).map toNat id
  | (_, .unregisterPath path) => (vfsUnregisterPath path t).map toNat id
  | (_, .unregisterPrefix base) => vfsUnregisterPrefix base t
  | (_, .setMetadata path metadata) => (vfsSetMetadata path metadata t).map toNat id
  | (env, .replaceFilePath oldPath newPath capacity) =>
    (vfsReplaceFilePath env oldPath newPath capacity t).map toNat id
  | (env, .chmod path mode) => (vfsChmod env path mode t).map toNat id
  | (env, .utime path atime mtime) => (vfsUtime env path atime mtime t).map toNat id
  | (env, .reserveNodes additional) => (vfsReserveNodes env additional t).map toNat id

end SrvrOS.Vfs
