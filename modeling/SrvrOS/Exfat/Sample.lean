import SrvrOS.Exfat.System

/-!
# A small formatted volume

The smallest layout `volume_from_boot` accepts: 2048 sectors of 512 bytes and 32 clusters of one
sector. Cluster 2 is the root directory, cluster 3 the allocation bitmap and cluster 4 the up-case
table.
-/

namespace SrvrOS.Exfat

open Lib List

namespace Sample

/-- The fields of the boot sector that are not zero. -/
def bootByte (address : Nat) : UInt8 :=
  if address < 3 then ([0xeb, 0x76, 0x90] : Bytes).getD address 0
  else if address < 11 then
    (ascii ['E', 'X', 'F', 'A', 'T', ' ', ' ', ' ']).getD (address - 3) 0
  else match address with
    | 73 => 8
    | 80 => 24
    | 84 => 1
    | 88 => 25
    | 92 => 32
    | 96 => 2
    | 105 => 1
    | 108 => 9
    | 110 => 1
    | 112 => 255
    | 510 => 0x55
    | 511 => 0xaa
    | _ => 0

def bootSum : Nat := 311907242

/-- One of the two boot regions. -/
def regionByte (address : Nat) : UInt8 :=
  if address < 512 then bootByte address
  else if address < 512 * 9 then
    if address % 512 = 510 then 0x55 else if address % 512 = 511 then 0xaa else 0
  else if address < 512 * 11 then 0
  else UInt8.ofNat (bootSum / 256 ^ (address % 4) % 256)

/-- The up-case table: the letters, and runs of characters that stand for themselves. -/
def upcaseTable : Bytes :=
  leBytes 2 0xffff ++ leBytes 2 97 ++ (range 26).flatMap (fun i => leBytes 2 (65 + i)) ++
    leBytes 2 0xffff ++ leBytes 2 65413

/-- The root directory: the bitmap and the up-case table. -/
def rootDirectory : Bytes :=
  [0x81] ++ replicate 19 0 ++ leBytes 4 3 ++ leBytes 8 4 ++
    [0x82, 0, 0, 0] ++ leBytes 4 1312377569 ++ replicate 12 0 ++ leBytes 4 4 ++
    leBytes 8 60

def medium : Store UInt8 := fun address =>
  match address / 512 with
  | 24 => if 8 ≤ address % 512 ∧ address % 512 < 20 then 0xff else 0
  | 25 => rootDirectory.getD (address % 512) 0
  | 26 => if address % 512 = 0 then 7 else 0
  | 27 => upcaseTable.getD (address % 512) 0
  | sector =>
    if sector < 12 then regionByte address
    else if sector < 24 then regionByte (address - 12 * 512)
    else 0

def disk : Disk :=
  { size := 1048576, blockSize := 512, maxTransferBytes := 65536, writable := true,
    flushable := true, origin := medium, medium := medium, trace := [] }

/-- An environment in which everything works but the heap, at one call. -/
def environment (exhausted : Nat) : Env :=
  { heap := (· != exhausted), read := fun _ => true, write := fun _ => ⟨true, 0⟩,
    flush := fun _ => true, online := fun _ => true, admitted := fun _ => true,
    claimed := fun _ => true, opened := fun _ => false, time := fun _ => 0 }

def powerOn (exhausted : Nat) : World :=
  { mounts := fun _ => emptyMount, disks := fun _ => disk,
    vfs := { capacity := 0, nodes := [], nextInode := 1 }, leases := fun _ => emptyLease,
    metadataSyncing := false, streamMutationDepth := 0, fsOperations := 0,
    env := environment exhausted, tick := 0 }

theorem powerOn_boot {exhausted : Nat} : Boot (powerOn exhausted) where
  mounts _ := rfl
  leases _ := rfl
  syncing := rfl
  streams := rfl
  operations := rfl
  blocks _ := Nat.zero_lt_succ 511
  origin _ := rfl
  trace _ := rfl
  foreign _ member := absurd member not_mem_nil
  slots := Pairwise.nil

def mountpoint : Path := ascii ['/', 'm']

def mountRequest : Request := .mount mountpoint 0 false

def writeRequest : Request := .writeFile (mountpoint ++ ascii ['/', 'a']) [1] none

def mounted : World := reach (powerOn 1000) [mountRequest]

def written : World := reach (powerOn 1000) ([mountRequest] ++ [writeRequest])

/-- The write up to its last event, a flush. -/
def crashTrace : List (Event UInt8) := (written.disks 0).trace.tail

/-- What a crash at this point leaves if everything undecided has reached the medium. -/
def survivor : Store UInt8 :=
  let disk := mounted.disks 0
  replay disk.blockSize (replay disk.blockSize disk.origin (durable crashTrace))
    (undecided crashTrace)

end Sample

end SrvrOS.Exfat
