import SrvrOS.Exfat.Mounting
import SrvrOS.Lib.Run

/-!
# The driver as a system

Every public operation is a request; a run answers a sequence of them. The initial
world has nothing mounted, no lease, and arbitrary disks, foreign nodes and
environment.
-/

namespace SrvrOS.Exfat

open Lib Act World

/-! ## Metadata calls -/

def srvTimeNow : Nat := 2 ^ 64 - 2

def srvTimeOmit : Nat := 2 ^ 64 - 1

/-- The common part of `vfs_chmod` and `vfs_utime`: a change that the callback refuses is taken
back. -/
def vfsChange (path : Path) (change : Nat → Metadata → Metadata) : Driver Unit := do
  let vfs ← gets vfs
  let slot ← ofOption (vfsSlot vfs path)
  let before ← ofOption (vfsLookup vfs path)
  let now ← metadataTime
  updateVfs (·.modifySlot slot fun node => { node with metadata := change now node.metadata })
  onFailure (exfatMetadataChanged exfatSyncMountMetadata path)
    (updateVfs (·.modifySlot slot fun node => { node with metadata := before.metadata }))

def vfsChmod (path : Path) (mode : Nat) : Driver Unit :=
  vfsChange path fun now metadata =>
    { metadata with mode := metadata.mode &&& vfsModeIfmt ||| mode &&& 0o7777, ctime := now }

def vfsUtime (path : Path) (atime mtime : Nat) : Driver Unit := do
  let vfs ← gets vfs
  let _ ← ofOption (vfsLookup vfs path)
  if atime = srvTimeOmit ∧ mtime = srvTimeOmit then pure ()
  else
    vfsChange path fun now metadata =>
      let set (time old : Nat) :=
        if time = srvTimeOmit then old else if time = srvTimeNow then now else time
      { metadata with
        atime := set atime metadata.atime, mtime := set mtime metadata.mtime, ctime := now }

/-! ## Requests -/

/-- The public operations. -/
inductive Request where
  | writeFile (path : Path) (data : Bytes) (mode : Option Nat)
  | createDirectory (path : Path) (mode : Option Nat)
  | deleteFile (path : Path)
  | deleteDirectory (path : Path)
  | rename (oldPath newPath : Path)
  | replaceFile (oldPath newPath : Path)
  | streamOpenRead (path : Path)
  | streamCreate (path : Path) (mode : Nat)
  | streamPread (token length offset : Nat)
  | streamAppend (token : Nat) (data : Bytes)
  | streamSync (token : Nat)
  | streamClose (token : Nat)
  | readAll (path : Path)
  | chmod (path : Path) (mode : Nat)
  | utime (path : Path) (atime mtime : Nat)
  | mount (mountpoint : Path) (device : Nat) (clean : Bool)
  | unmount (mountpoint : Path)

/-- What an operation returns. `failed` is the `false` of the boolean operations. -/
inductive Response where
  | failed (retryable : Bool)
  | done
  | bytes (data : Bytes)
  | number (value : Nat)
  | error (code : StreamError)

def Response.ofUnit : Option Unit → Response
  | some () => .done
  | none => .failed false

/-- The response to a stream operation; the stream calls always return a code. -/
def Response.ofStream {α : Type} (wrap : α → Response) : Option (StreamResult α) → Response
  | some (.ok value) => wrap value
  | some (.error code) => .error code
  | none => .failed false

/-- The response to `write_file_mode_result`. -/
def Response.ofVerdict : Option (Bool × Bool) → Response
  | some (true, _) => .done
  | some (false, retryable) => .failed retryable
  | none => .failed false

def Response.ofBytes : Option Bytes → Response
  | some data => .bytes data
  | none => .failed false

def respond {α : Type} (wrap : Option α → Response) (act : Driver α) (world : World) :
    Response × World :=
  (wrap (act world).1, (act world).2)

def step (world : World) : Request → Response × World
  | .writeFile path data mode =>
    respond .ofVerdict (writeFileModeResult exfatSyncMountMetadata path data mode) world
  | .createDirectory path mode =>
    respond .ofUnit (exfatCreateDirectoryMode exfatSyncMountMetadata path mode) world
  | .deleteFile path => respond .ofUnit (exfatDeleteFile exfatSyncMountMetadata path) world
  | .deleteDirectory path =>
    respond .ofUnit (exfatDeleteDirectory exfatSyncMountMetadata path) world
  | .rename oldPath newPath =>
    respond .ofUnit (exfatRename exfatSyncMountMetadata oldPath newPath) world
  | .replaceFile oldPath newPath =>
    respond .ofUnit (exfatReplaceFile exfatSyncMountMetadata oldPath newPath) world
  | .streamOpenRead path => respond (.ofStream .number) (exfatStreamOpenRead path) world
  | .streamCreate path mode => respond (.ofStream .number) (exfatStreamCreate path mode) world
  | .streamPread token length offset =>
    respond (.ofStream .bytes) (exfatStreamPread token length offset) world
  | .streamAppend token data => respond (.ofStream .number) (exfatStreamAppend token data) world
  | .streamSync token => respond (.ofStream fun _ => .done) (exfatStreamSync token) world
  | .streamClose token => respond (.ofStream fun _ => .done) (exfatStreamClose token) world
  | .readAll path => respond .ofBytes (vfsReadAll path) world
  | .chmod path mode => respond .ofUnit (vfsChmod path mode) world
  | .utime path atime mtime => respond .ofUnit (vfsUtime path atime mtime) world
  | .mount mountpoint device clean =>
    respond .ofUnit (exfatMountBlockDevice mountpoint device clean) world
  | .unmount mountpoint => respond .ofUnit (exfatUnmount mountpoint) world

def emptyLease : StreamLease :=
  { mount := none, slot := 0, inode := 0, generation := 0, entry := 0, cursorIndex := 0,
    cursorCluster := 0, active := false, retired := false, output := false, failed := false,
    cursorValid := false }

/-- The world before the first operation. -/
structure Boot (world : World) : Prop where
  mounts : ∀ m, world.mounts m = emptyMount
  leases : ∀ i, world.leases i = emptyLease
  syncing : world.metadataSyncing = false
  streams : world.streamMutationDepth = 0
  operations : world.fsOperations = 0
  blocks : ∀ device, 0 < (world.disks device).blockSize
  origin : ∀ device, (world.disks device).medium = (world.disks device).origin
  trace : ∀ device, (world.disks device).trace = []
  foreign : ∀ entry ∈ world.vfs.nodes, entry.2.data = none
  slots : (world.vfs.nodes.map Prod.fst).Pairwise (· < ·)

def reach (world : World) (requests : List Request) : World := (run step world requests).2

/-- A world some sequence of operations leads to from power-on. -/
def Reachable (world : World) : Prop :=
  ∃ start requests, Boot start ∧ reach start requests = world

end SrvrOS.Exfat
