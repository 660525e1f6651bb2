import SrvrOS.Exfat.State

/-!
# The VFS node table

The part of `kernel/src/vfs.c` that the exFAT driver calls: lookup and enumeration,
registration with stable slots, retirement, and metadata with one live inode space.
-/

namespace SrvrOS.Exfat

open Lib Act World

def vfsMaxNodes : Nat := 32768

def vfsNodeBlock : Nat := 256

def vfsModeIfmt : Nat := 0o170000

def vfsModeIfdir : Nat := 0o040000

def vfsModeIfreg : Nat := 0o100000

/-- One past the largest 64-bit value. -/
def word64 : Nat := 2 ^ 64

def vfsLookup (vfs : Vfs) (path : Path) : Option Node :=
  (vfs.nodes.find? fun entry => entry.2.path = path).map Prod.snd

/-- The slot `mutable_lookup` finds. -/
def vfsSlot (vfs : Vfs) (path : Path) : Option Nat :=
  (vfs.nodes.find? fun entry => entry.2.path = path).map Prod.fst

def Vfs.modifySlot (vfs : Vfs) (slot : Nat) (change : Node → Node) : Vfs :=
  { vfs with
    nodes := vfs.nodes.map fun entry =>
      if entry.1 = slot then (entry.1, change entry.2) else entry }

/-- Publish a node in the first free slot, keeping slot order. -/
def publishNode (node : Node) : Nat → List (Nat × Node) → List (Nat × Node)
  | slot, [] => [(slot, node)]
  | slot, entry :: rest =>
    if entry.1 = slot then entry :: publishNode node (slot + 1) rest
    else (slot, node) :: entry :: rest

/-- `inode_in_use`, apart from the node in slot `self`. -/
def inodeInUse (vfs : Vfs) (inode : Nat) (self : Option Nat) : Bool :=
  vfs.nodes.any fun entry => decide (some entry.1 ≠ self) && entry.2.metadata.inode == inode

/-- The loop of `allocate_inode`; one round more than there are nodes suffices. -/
def freeInode (vfs : Vfs) : Nat → Nat → Nat
  | 0, inode => inode
  | fuel + 1, inode =>
    if inode = 0 ∨ inodeInUse vfs inode none then freeInode vfs fuel ((inode + 1) % word64)
    else inode

def allocateInode (vfs : Vfs) : Nat × Vfs :=
  let inode := freeInode vfs (vfs.nodes.length + 2) vfs.nextInode
  (inode, { vfs with nextInode := (inode + 1) % word64 })

def importMetadata (vfs : Vfs) (metadata : Metadata) (self : Option Nat) : Metadata × Vfs :=
  let fresh :=
    if metadata.inode = 0 ∨ inodeInUse vfs metadata.inode self then allocateInode vfs
    else (metadata.inode, vfs)
  let result := { metadata with inode := fresh.1 }
  (result,
    if fresh.2.nextInode ≤ result.inode then
      { fresh.2 with nextInode := (result.inode + 1) % word64 }
    else fresh.2)

def executableDefaultPath (path : Path) : Bool :=
  (ascii ['/', 'f', 'a', 't', '/', 'b', 'i', 'n', '/']).isPrefixOf path ||
    path == ascii ['/', 'i', 'n', 'i', 't'] || path == ascii ['/', 's', 'h'] ||
    path == ascii ['/', 'l', 's'] || path == ascii ['/', 'e', 'c', 'h', 'o']

/-- `default_metadata` at time `now`. -/
def defaultMetadata (vfs : Vfs) (path : Path) (type : NodeType) (now : Nat) :
    Metadata × Vfs :=
  let fresh := allocateInode vfs
  let mode := match type with
    | .directory => vfsModeIfdir ||| 0o755
    | .file => vfsModeIfreg ||| if executableDefaultPath path then 0o755 else 0o644
  ({ inode := fresh.1, mode := mode,
     nlink := match type with
       | .directory => 2
       | .file => 1,
     uid := 0, gid := 0, atime := now, mtime := now, ctime := now }, fresh.2)

def updateVfs (change : Vfs → Vfs) : Driver Unit :=
  modify fun world => { world with vfs := change world.vfs }

/-- The growth loop of `vfs_reserve_nodes`. -/
def growNodes : Nat → Nat → Driver Unit
  | 0, _ => pure ()
  | fuel + 1, additional => do
      let vfs ← gets vfs
      if additional ≤ vfs.capacity - vfs.nodes.length then pure ()
      else
        kmalloc
        updateVfs fun vfs => { vfs with capacity := vfs.capacity + vfsNodeBlock }
        growNodes fuel additional

def vfsReserveNodes (additional : Nat) : Driver Unit := do
  let vfs ← gets vfs
  require (additional ≤ vfsMaxNodes - vfs.nodes.length)
  growNodes (vfs.nodes.length + additional) additional

def metadataTime : Driver Nat := draw Env.time

/-- `vfs_register_file_with_metadata` and `vfs_register_directory_with_metadata`: an
existing node of the path is taken over where its type allows it. -/
def vfsRegister (path : Path) (type : NodeType) (size : Nat) (data : Option (Nat × Nat))
    (metadata : Option Metadata) : Driver Unit := do
  let vfs ← gets vfs
  match vfsSlot vfs path, vfsLookup vfs path with
  | some slot, some existing =>
    require (type = .directory ∨ existing.type = .file)
    updateVfs fun vfs =>
      let imported := match metadata with
        | some metadata => importMetadata vfs metadata (some slot)
        | none => (existing.metadata, vfs)
      imported.2.modifySlot slot fun node =>
        match type with
        | .directory => { node with metadata := imported.1 }
        | .file => { node with size := size, data := data, metadata := imported.1 }
  | _, _ =>
    vfsReserveNodes 1
    let now ← metadataTime
    updateVfs fun vfs =>
      let fresh := match metadata with
        | some metadata => importMetadata vfs metadata none
        | none => defaultMetadata vfs path type now
      { fresh.2 with
        nodes := publishNode
          { path := path, type := type, size := size, metadata := fresh.1, data := data } 0
          fresh.2.nodes }

def vfsUnregisterPath (path : Path) : Driver Unit := do
  let vfs ← gets vfs
  let slot ← ofOption (vfsSlot vfs path)
  updateVfs fun vfs => { vfs with nodes := vfs.nodes.filter fun entry => entry.1 != slot }

/-- `vfs_unregister_prefix` for a path other than the root. -/
def vfsUnregisterPrefix (base : Path) : Driver Unit :=
  updateVfs fun vfs =>
    { vfs with nodes := vfs.nodes.filter fun entry => !pathInSubtree entry.2.path base }

def vfsSetMetadata (path : Path) (metadata : Metadata) : Driver Unit := do
  let vfs ← gets vfs
  let slot ← ofOption (vfsSlot vfs path)
  updateVfs fun vfs =>
    let imported := importMetadata vfs metadata (some slot)
    imported.2.modifySlot slot fun node => { node with metadata := imported.1 }

/-- `vfs_update_file_size` while the metadata callback is suppressed. -/
def vfsUpdateFileSize (path : Path) (size : Nat) : Driver Unit := do
  let vfs ← gets vfs
  let slot ← ofOption (vfsSlot vfs path)
  let now ← metadataTime
  updateVfs (·.modifySlot slot fun node =>
    { node with size := size, metadata := { node.metadata with mtime := now, ctime := now } })

/-- `vfs_replace_file_path`: the source node takes over the target's path. -/
def vfsReplaceFilePath (oldPath newPath : Path) : Driver Unit := do
  let vfs ← gets vfs
  let source ← ofOption (vfsSlot vfs oldPath)
  let target ← ofOption (vfsSlot vfs newPath)
  let sourceNode ← ofOption (vfsLookup vfs oldPath)
  let targetNode ← ofOption (vfsLookup vfs newPath)
  require (source ≠ target ∧ sourceNode.type = .file ∧ targetNode.type = .file ∧
    newPath.length < exfatMaxPath)
  vfsUnregisterPath newPath
  let now ← metadataTime
  updateVfs (·.modifySlot source fun node =>
    { node with path := newPath, metadata := { node.metadata with ctime := now } })

end SrvrOS.Exfat
