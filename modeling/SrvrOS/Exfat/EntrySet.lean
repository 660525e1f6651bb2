import SrvrOS.Exfat.Path

/-!
# Directory entry sets

A file or directory is one primary entry, one stream entry and a run of name
entries of 32 bytes each, covered by a checksum. This module builds such sets,
writes them off, and holds the importer's acceptance test.
-/

namespace SrvrOS.Exfat

open Lib List UInt8

variable {name : Bytes}

def exfatEntrySize : Nat := 32

def exfatMaxFileEntries : Nat := 19

def exfatAttrDirectory : Nat := 0x10

def exfatEntryEnd : UInt8 := 0x00

def exfatEntryBitmap : UInt8 := 0x81

def exfatEntryUpcase : UInt8 := 0x82

def exfatEntryFile : UInt8 := 0x85

def exfatEntryStream : UInt8 := 0xc0

def exfatEntryName : UInt8 := 0xc1

def checksumByte (sum : Nat) (byte : UInt8) : Nat :=
  ((if sum % 2 = 1 then 0x8000 else 0) + sum / 2 + byte.toNat) % 65536

/-- `entry_set_checksum`: every byte but the checksum field itself. -/
def entrySetChecksum (entries : Bytes) : Nat :=
  (entries.take 2 ++ entries.drop 4).foldl checksumByte 0

/-- One character of the hash in `build_file_entry_set`; the high byte of its unit is zero. -/
def nameHashByte (hash : UInt16) (byte : UInt8) : UInt16 :=
  let hash := hash >>> 1 ||| hash <<< 15
  let hash := hash + (asciiUpper byte).toUInt16
  hash >>> 1 ||| hash <<< 15

/-- The up-case name hash of the writer. -/
def nameHash (name : Bytes) : Nat := (name.foldl nameHashByte 0).toNat

/-- One unit of the hash in `valid_import_entry_set`. -/
def importHashUnit (hash unit : UInt16) : UInt16 :=
  let upper := if 97 ≤ unit ∧ unit ≤ 122 then unit - (97 - 65) else unit
  let hash := (hash >>> 1 ||| (hash &&& 1) <<< 15) + upper
  hash >>> 1 ||| (hash &&& 1) <<< 15

/-- The up-case name hash of the importer. -/
def importNameHash (units : List Nat) : Nat :=
  (units.foldl (fun hash unit => importHashUnit hash (.ofNat unit)) 0).toNat

/-- The name entries for the rest of a name, fifteen UTF-16 units each. -/
def nameEntries : Nat → Bytes → Bytes
  | 0, _ => []
  | count + 1, name =>
    let units := (name.take 15).flatMap fun byte => [byte, 0]
    [exfatEntryName, 0] ++ units ++ replicate (30 - units.length) 0 ++
      nameEntries count (name.drop 15)

/-- The fields of an entry set that the driver chooses. -/
structure EntryFields where
  name : Path
  firstCluster : Nat
  dataLength : Nat
  validLength : Nat
  attributes : Nat
  noFatChain : Bool

def entriesForName (name : Path) : Nat := 2 + (name.length + 14) / 15

def uncheckedEntrySet (fields : EntryFields) (checksum : Nat) : Bytes :=
  let count := entriesForName fields.name
  [exfatEntryFile, ofNat (count - 1)] ++ leBytes 2 checksum ++
    leBytes 2 fields.attributes ++ replicate 26 0 ++
  ([exfatEntryStream, if fields.noFatChain && fields.dataLength != 0 then 0x03 else 0x01, 0,
      ofNat fields.name.length] ++ leBytes 2 (nameHash fields.name) ++ [0, 0] ++
    leBytes 8 fields.validLength ++ [0, 0, 0, 0] ++ leBytes 4 fields.firstCluster ++
    leBytes 8 fields.dataLength) ++
  nameEntries ((fields.name.length + 14) / 15) fields.name

/-- `build_file_entry_set`, followed by the callers' replacement of the valid length
and of the checksum. -/
def buildFileEntrySet (fields : EntryFields) : Option Bytes :=
  if fields.name.length = 0 ∨ 255 < fields.name.length ∨
      exfatMaxFileEntries < entriesForName fields.name then none
  else if fields.name.all (fun byte => nameByte byte && byte != slash) then
    some (uncheckedEntrySet fields (entrySetChecksum (uncheckedEntrySet fields 0)))
  else none

/-- The entries `write_deleted_entries` leaves behind. -/
def deletedEntries (count : Nat) : Bytes :=
  (0x05 :: replicate 31 0) ++ (0x40 :: replicate 31 0) ++
    (replicate (count - 2) (0x41 :: replicate 31 0)).flatten

/-- The entries `write_inactive_entry_run` leaves behind. -/
def inactiveEntries (count : Nat) : Bytes :=
  (replicate count (0x01 :: replicate 31 0)).flatten

def entryAt (entries : Bytes) (index : Nat) : Bytes :=
  (entries.drop (index * exfatEntrySize)).take exfatEntrySize

def rootEntryIsFree (kind : UInt8) : Bool := kind == exfatEntryEnd || decide (kind < 0x80)

/-- The stream record of an entry set: `struct exfat_stream_entry`. -/
structure StreamEntry where
  flags : UInt8
  nameLength : Nat
  nameHash : Nat
  validDataLength : Nat
  firstCluster : Nat
  dataLength : Nat

def streamEntry (entries : Bytes) : StreamEntry :=
  let stream := entryAt entries 1
  { flags := (stream[1]?).getD 0
    nameLength := leField stream 3 1
    nameHash := leField stream 4 2
    validDataLength := leField stream 8 8
    firstCluster := leField stream 20 4
    dataLength := leField stream 24 8 }

/-- `NoFatChain` of a stream record. -/
def StreamEntry.noFatChain (stream : StreamEntry) : Bool := stream.flags.toNat / 2 % 2 == 1

/-- The UTF-16 units of a set's name, as `count` 16-bit values over its name entries. -/
def nameUnits (entries : Bytes) (count : Nat) : List Nat :=
  (range count).map fun i =>
    leField (entryAt entries (2 + i / 15)) (2 + 2 * (i % 15)) 2

def nameUnit (unit : Nat) : Bool :=
  decide (unit < 0x7f) && nameByte (ofNat unit) && ofNat unit != slash

/-- `valid_import_entry_set` on the bytes of the directory in the cluster from the entry on. -/
def validImportEntrySet (entries : Bytes) : Bool :=
  let count := leField entries 1 1 + 1
  let stream := streamEntry entries
  let names := (stream.nameLength + 14) / 15
  let units := nameUnits entries stream.nameLength
  decide (3 ≤ count) && decide (count ≤ exfatMaxFileEntries) &&
    decide (count * exfatEntrySize ≤ entries.length) &&
    leField entries 2 2 == entrySetChecksum (entries.take (count * exfatEntrySize)) &&
    (entryAt entries 1).head? == some exfatEntryStream && stream.nameLength != 0 &&
    count == 2 + names && stream.flags.toNat % 2 == 1 &&
    !(stream.dataLength == 0 && (stream.firstCluster != 0 || stream.noFatChain)) &&
    (range names).all (fun i =>
      (entryAt entries (2 + i)).head? == some exfatEntryName &&
        leField (entryAt entries (2 + i)) 1 1 % 4 == 0) &&
    units.all nameUnit && units != [46] && units != [46, 46] &&
    importNameHash units == stream.nameHash

/-- `build_child_path` for an accepted set. -/
def buildChildPath (parent : Path) (entries : Bytes) : Option Path :=
  let stream := streamEntry entries
  let separator := if parent ≠ [] ∧ parent.getLast? ≠ some slash then 1 else 0
  if stream.nameLength = 0 ∨
      exfatMaxPath ≤ parent.length + separator + stream.nameLength then none
  else some (appendMountPath parent ++
    (nameUnits entries stream.nameLength).map fun unit =>
      if 32 ≤ unit ∧ unit < 127 then ofNat unit else 63)

/-! ## Sizes -/

theorem utf16_length : (name.flatMap fun byte => [byte, (0 : UInt8)]).length = 2 * name.length := by
  induction name with
  | nil => rfl
  | cons byte rest ih =>
    rw [flatMap_cons, length_append]
    simp only [length_cons, length_nil]
    omega

/-- One name entry: the first fifteen characters of the rest of a name. -/
def nameRecord (name : Bytes) : Bytes :=
  let units := (name.take 15).flatMap fun byte => [byte, 0]
  [exfatEntryName, 0] ++ units ++ replicate (30 - units.length) 0

theorem nameRecord_length {name : Bytes} : (nameRecord name).length = exfatEntrySize := by
  have short := length_take_le 15 name
  simp only [nameRecord, length_append, length_cons, length_nil, length_replicate, utf16_length]
  unfold exfatEntrySize
  omega

theorem nameEntries_length (n : Nat) : (nameEntries n name).length = n * exfatEntrySize := by
  induction n generalizing name with
  | zero => rw [nameEntries, Nat.zero_mul, length_nil]
  | succ n ih =>
    change (nameRecord name ++ nameEntries n (name.drop 15)).length = _
    rw [length_append, nameRecord_length, ih, Nat.succ_mul, Nat.add_comm]

variable {fields : EntryFields} {entries : Bytes}

theorem uncheckedEntrySet_length {checksum : Nat} :
    (uncheckedEntrySet fields checksum).length = entriesForName fields.name * exfatEntrySize := by
  simp only [uncheckedEntrySet, length_append, length_cons, length_nil,
    length_replicate, leBytes_length, nameEntries_length]
  unfold entriesForName exfatEntrySize
  omega

theorem buildFileEntrySet_length (built : buildFileEntrySet fields = some entries) :
    entries.length = entriesForName fields.name * exfatEntrySize ∧
      3 ≤ entriesForName fields.name := by
  unfold buildFileEntrySet at built
  split at built
  · cases built
  next shape =>
    split at built
    · cases built
      refine ⟨uncheckedEntrySet_length, ?_⟩
      unfold entriesForName
      omega
    · cases built

theorem buildFileEntrySet_count (built : buildFileEntrySet fields = some entries) :
    entries.length / exfatEntrySize = entriesForName fields.name := by
  rw [(buildFileEntrySet_length built).1]
  exact Nat.mul_div_cancel _ (by decide)

end SrvrOS.Exfat
