import SrvrOS.Exfat.Directory

/-!
# Entry sets read back

The importer accepts what the driver writes for a record and reads the fields back from it, however
often the driver has rewritten the set in place.
-/

namespace SrvrOS.Exfat

open Lib List UInt8

variable {fields : EntryFields} {name : Path} {rest : Bytes}

/-! ## The parts of a set -/

def sealedEntrySet (fields : EntryFields) : Bytes :=
  uncheckedEntrySet fields (entrySetChecksum (uncheckedEntrySet fields 0))

theorem checksum_lt {entries : Bytes} : entrySetChecksum entries < 256 ^ 2 :=
  foldlRecOn (motive := (· < 256 ^ 2)) _ _ (by decide) fun _ _ _ _ => Nat.mod_lt _ (by decide)

theorem nameHash_lt {name : Bytes} : nameHash name < 256 ^ 2 := UInt16.toNat_lt _

theorem shiftLeft_lowBit (hash : UInt16) : (hash &&& 1) <<< 15 = hash <<< 15 := by
  apply UInt16.toBitVec_inj.mp
  ext i inside
  rcases Nat.lt_or_ge i 15 with low | high
  · simp [low]
  · obtain rfl : i = 15 := by omega
    simp

theorem importHashUnit_byte (hash : UInt16) (byte : UInt8) :
    importHashUnit hash (.ofNat byte.toNat) = nameHashByte hash byte := by
  have upper : ∀ byte : Fin 256, let unit := UInt16.ofNat byte
      (if 97 ≤ unit ∧ unit ≤ 122 then unit - (97 - 65) else unit) =
        (asciiUpper (ofFin byte)).toUInt16 := by decide +kernel
  simp only [importHashUnit, nameHashByte, shiftLeft_lowBit]
  rw [show byte.toNat = byte.toFin from rfl, upper]
  rfl

theorem importNameHash_bytes (name : Bytes) : importNameHash (name.map toNat) = nameHash name := by
  rw [importNameHash, foldl_map]
  simp only [importHashUnit_byte]
  rfl

theorem nameEntries_record {count i : Nat} (inside : i < count) :
    ((nameEntries count name ++ rest).drop (i * exfatEntrySize)).take exfatEntrySize =
      nameRecord (name.drop (15 * i)) := by
  induction count generalizing i name with
  | zero => exact absurd inside (Nat.not_lt_zero _)
  | succ count ih =>
    change (((nameRecord name ++ nameEntries count (name.drop 15)) ++ rest).drop _).take _ = _
    rw [append_assoc]
    cases i with
    | zero =>
      exact take_left' nameRecord_length
    | succ i =>
      rw [Nat.succ_mul, Nat.add_comm, ← drop_drop, drop_left' nameRecord_length,
        ih (Nat.lt_of_succ_lt_succ inside), drop_drop, Nat.mul_succ, Nat.add_comm]

variable {i : Nat}

theorem entryAt_sealed (inside : i < (fields.name.length + 14) / 15) :
    entryAt (sealedEntrySet fields ++ rest) (2 + i) =
      nameRecord (fields.name.drop (15 * i)) := by
  rw [entryAt, Nat.add_mul, ← drop_drop]
  exact nameEntries_record inside

/-! ## The name -/

variable {byte : UInt8}

theorem utf16_unit (hit : name[i]? = some byte) :
    (((name.flatMap fun byte => [byte, (0 : UInt8)]) ++ rest).drop (2 * i)).take 2 =
      [byte, 0] := by
  induction name generalizing i with
  | nil => cases hit
  | cons head tail ih =>
    cases i with
    | zero =>
      cases hit
      rfl
    | succ i => exact ih hit

theorem nameRecord_unit (short : i < 15) (hit : name[i]? = some byte) :
    leField (nameRecord name) (2 + 2 * i) 2 = byte.toNat := by
  have within : (name.take 15)[i]? = some byte := by rw [getElem?_take_of_lt short, hit]
  rw [leField, ← drop_drop]
  exact congrArg leValue (utf16_unit within)

theorem nameUnits_sealed :
    nameUnits (sealedEntrySet fields ++ rest) fields.name.length = fields.name.map toNat := by
  refine ext_getElem? fun i => ?_
  rw [nameUnits, getElem?_map, getElem?_map]
  cases hit : fields.name[i]? with
  | none =>
    have outside := getElem?_eq_none_iff.mp hit
    rw [getElem?_eq_none (by simpa using outside)]
    rfl
  | some byte =>
    have inside := (List.getElem?_eq_some_iff.mp hit).1
    have place := Nat.div_add_mod i 15
    rw [List.getElem?_range inside]
    simp only [Option.map_some]
    rw [entryAt_sealed (by omega), nameRecord_unit (Nat.mod_lt _ (by decide))]
    rw [getElem?_drop, place, hit]

/-! ## The importer -/

/-- Fields a record can have: an accepted name, the source's widths, no cluster without data. -/
structure EntryFields.Sound (fields : EntryFields) : Prop where
  short : fields.name.length ≤ 255
  named : validAsciiBasename fields.name = true
  attributes : fields.attributes < 2 ^ 16
  firstCluster : fields.firstCluster < 2 ^ 32
  validLength : fields.validLength < 2 ^ 64
  dataLength : fields.dataLength < 2 ^ 64
  empty : fields.dataLength = 0 → fields.firstCluster = 0

/-- The stream record that stands for the fields; a chain flag without data is dropped. -/
def EntryFields.stream (fields : EntryFields) : StreamEntry where
  flags := if fields.noFatChain && fields.dataLength != 0 then 0x03 else 0x01
  nameLength := fields.name.length
  nameHash := nameHash fields.name
  validDataLength := fields.validLength
  firstCluster := fields.firstCluster
  dataLength := fields.dataLength

theorem EntryFields.stream_noFatChain (fields : EntryFields) :
    fields.stream.noFatChain = (fields.noFatChain && fields.dataLength != 0) := by
  unfold StreamEntry.noFatChain EntryFields.stream
  cases fields.noFatChain && fields.dataLength != 0 <;> simp

/-- The importer takes the bytes, with anything behind them, for the set of the fields. -/
structure ReadsBack (fields : EntryFields) (entries : Bytes) : Prop where
  accepted : ∀ rest, validImportEntrySet (entries ++ rest) = true
  child : ∀ parent rest, (appendMountPath parent ++ fields.name).length < exfatMaxPath →
    buildChildPath parent (entries ++ rest) = some (appendMountPath parent ++ fields.name)
  attributes : leField entries 4 2 = fields.attributes
  stream : ∀ rest, streamEntry (entries ++ rest) = fields.stream
  chain : ∀ rest, (streamEntry (entries ++ rest)).noFatChain =
    (fields.noFatChain && fields.dataLength != 0)

theorem validAsciiBasename_plain (plain : slash ∉ name) (valid : validAsciiBasename name = true) :
    name ≠ [] ∧ name ≠ ascii ['.'] ∧ name ≠ ascii ['.', '.'] ∧
      ∀ byte ∈ name, nameByte byte = true := by
  have whole : lastComponent name = name := by
    rw [lastComponent, takeWhile_eq_self_iff.mpr, reverse_reverse]
    intro byte mem
    have differ : byte ≠ slash := by
      rintro rfl
      exact plain (mem_reverse.mp mem)
    simpa using differ
  simp only [validAsciiBasename, whole, Bool.and_eq_true, Bool.not_eq_true', decide_eq_true_eq,
    bne_iff_ne, isEmpty_eq_false_iff, all_eq_true, and_assoc] at valid
  exact valid.2

theorem nameUnit_byte (valid : nameByte byte = true) (plain : byte ≠ slash) :
    nameUnit byte.toNat = true := by
  have low : byte.toNat < 0x7f := by
    simp only [nameByte, Bool.and_eq_true, Bool.not_eq_true', decide_eq_true_eq] at valid
    exact lt_iff_toNat_lt.mp valid.1.2
  simp [nameUnit, low, valid, plain]

theorem streamEntry_sealed (sound : fields.Sound) :
    streamEntry (sealedEntrySet fields ++ rest) = fields.stream := by
  have decoded : streamEntry (sealedEntrySet fields ++ rest) =
      { fields.stream with
        nameLength := leValue (leBytes 1 fields.name.length)
        nameHash := leValue (leBytes 2 (nameHash fields.name))
        validDataLength := leValue (leBytes 8 fields.validLength)
        firstCluster := leValue (leBytes 4 fields.firstCluster)
        dataLength := leValue (leBytes 8 fields.dataLength) } := by
    have short := Nat.mod_eq_of_lt (Nat.lt_succ_of_le sound.short)
    rw [leBytes, short]
    rfl
  rw [decoded, leValue_leBytes_of_lt (Nat.lt_succ_of_le sound.short),
    leValue_leBytes_of_lt nameHash_lt, leValue_leBytes_of_lt sound.validLength,
    leValue_leBytes_of_lt sound.firstCluster, leValue_leBytes_of_lt sound.dataLength]
  rfl

section

variable (sound : fields.Sound) (plain : slash ∉ fields.name)

include sound plain

theorem sealedEntrySet_accepted
    (rest : Bytes) : validImportEntrySet (sealedEntrySet fields ++ rest) = true := by
  obtain ⟨ne, notDot, notDots, b⟩ := validAsciiBasename_plain plain sound.named
  have positive := length_pos_iff.mpr ne
  have short := sound.short
  have count : leField (sealedEntrySet fields ++ rest) 1 1 + 1 = entriesForName fields.name := by
    change leValue [ofNat (entriesForName fields.name - 1)] + 1 = _
    simp [leValue, entriesForName]
    omega
  have sum : leField (sealedEntrySet fields ++ rest) 2 2 =
      entrySetChecksum (sealedEntrySet fields) :=
    leValue_leBytes_of_lt checksum_lt
  have whole : (sealedEntrySet fields ++ rest).take (entriesForName fields.name * exfatEntrySize) =
      sealedEntrySet fields := take_left' uncheckedEntrySet_length
  have units : nameUnits (sealedEntrySet fields ++ rest) fields.stream.nameLength =
      fields.name.map toNat := nameUnits_sealed
  have differs {text : Path} (differ : fields.name ≠ text) :
      fields.name.map toNat ≠ text.map toNat := fun same =>
    differ (map_injective_iff.mpr (fun _ _ => UInt8.toNat_inj.mp) same)
  have size : 3 ≤ entriesForName fields.name ∧ entriesForName fields.name ≤ 19 := by
    unfold entriesForName
    omega
  simp only [validImportEntrySet, count, sum, whole, streamEntry_sealed sound, units,
    importNameHash_bytes, Bool.and_eq_true, decide_eq_true_eq, bne_iff_ne, all_eq_true,
    beq_self_eq_true, and_true]
  refine ⟨⟨⟨⟨⟨⟨⟨⟨⟨⟨⟨size, ?_⟩, rfl⟩, positive.ne'⟩, beq_self_eq_true _⟩, ?_⟩, ?_⟩, ?_⟩, ?_⟩,
    differs notDot⟩, differs notDots⟩, beq_self_eq_true _⟩
  · rw [length_append, sealedEntrySet, uncheckedEntrySet_length]
    exact Nat.le_add_right _ _
  · unfold EntryFields.stream
    cases fields.noFatChain && fields.dataLength != 0 <;> simp
  · rw [fields.stream_noFatChain]
    change (!(fields.dataLength == 0 && (fields.firstCluster != 0 || _))) = true
    have empty := sound.empty
    by_cases hollow : fields.dataLength = 0 <;> simp [hollow, empty]
  · intro i mem
    rw [entryAt_sealed (mem_range.mp mem)]
    exact ⟨rfl, rfl⟩
  intro unit mem
  obtain ⟨byte, hit, rfl⟩ := mem_map.mp mem
  exact nameUnit_byte (b byte hit) fun same => plain (same ▸ hit)

theorem sealedEntrySet_child {p : Path} (rest : Bytes)
    (fits : (appendMountPath p ++ fields.name).length < exfatMaxPath) :
    buildChildPath p (sealedEntrySet fields ++ rest) =
      some (appendMountPath p ++ fields.name) := by
  obtain ⟨ne, _, _, b⟩ := validAsciiBasename_plain plain sound.named
  have units : nameUnits (sealedEntrySet fields ++ rest) fields.stream.nameLength =
      fields.name.map toNat := nameUnits_sealed
  have room : p.length + (if p ≠ [] ∧ p.getLast? ≠ some slash then 1 else 0) ≤
      (appendMountPath p).length := by
    unfold appendMountPath
    split <;> split <;> simp_all
  rw [length_append] at fits
  simp only [buildChildPath, streamEntry_sealed sound, units]
  rw [if_neg]
  · rw [map_map, map_congr_left, map_id]
    intro byte mem
    have valid := b byte mem
    simp only [nameByte, Bool.and_eq_true, Bool.not_eq_true', decide_eq_true_eq] at valid
    exact (if_pos ⟨le_iff_toNat_le.mp valid.1.1, lt_iff_toNat_lt.mp valid.1.2⟩).trans
      UInt8.ofNat_toNat
  rintro (none | long)
  · exact ne (length_eq_zero_iff.mp none)
  change exfatMaxPath ≤ _ + fields.name.length at long
  omega

theorem sealedEntrySet_readsBack : ReadsBack fields (sealedEntrySet fields) where
  accepted := sealedEntrySet_accepted sound plain
  child := fun _ rest fits => sealedEntrySet_child sound plain rest fits
  attributes := leValue_leBytes_of_lt (show _ < 256 ^ 2 from sound.attributes)
  stream := fun _ => streamEntry_sealed sound
  chain := fun _ => (congrArg _ (streamEntry_sealed sound)).trans fields.stream_noFatChain

end

/-! ## Rewriting a set in place -/

/-- A set with another `ValidDataLength`, as a rename patches it. -/
def patchedValidLength (entries : Bytes) (validSize : Nat) : Bytes :=
  let stream := exfatEntrySize
  let patched := entries.take (stream + 8) ++ leBytes 8 validSize ++ entries.drop (stream + 16)
  patched.take 2 ++ leBytes 2 (entrySetChecksum patched) ++ patched.drop 4

/-- A rewrite of a set in place. -/
inductive Patch where
  /-- `update_file_length`, with the record's first cluster and chain flag. -/
  | length (firstCluster size : Nat) (noFatChain : Bool)
  | validLength (validSize : Nat)

namespace Patch

def apply (entries : Bytes) : Patch → Bytes
  | length firstCluster size noFatChain =>
    patchedEntrySet entries (if noFatChain && size != 0 then 0x03 else 0x01) firstCluster size
  | validLength validSize => patchedValidLength entries validSize

/-- The fields the set stands for after the rewrite. -/
def revise (fields : EntryFields) : Patch → EntryFields
  | length firstCluster size noFatChain =>
    { fields with firstCluster, dataLength := size, validLength := size, noFatChain }
  | validLength validSize => { fields with validLength := validSize }

/-- Values of the widths of the source's types, and no cluster without data. -/
def Sound : Patch → Prop
  | length firstCluster size _ =>
    firstCluster < 2 ^ 32 ∧ size < 2 ^ 64 ∧ (size = 0 → firstCluster = 0)
  | validLength validSize => validSize < 2 ^ 64

theorem revise_name (patch : Patch) : (patch.revise fields).name = fields.name := by
  cases patch <;> rfl

theorem revise_sound (patch : Patch) (sound : fields.Sound) (fits : patch.Sound) :
    (patch.revise fields).Sound := by
  cases patch with
  | length firstCluster size noFatChain =>
    obtain ⟨firstCluster, size, empty⟩ := fits
    exact { sound with firstCluster, dataLength := size, validLength := size, empty }
  | validLength validSize => exact { sound with validLength := fits }

theorem apply_sealed (patch : Patch) :
    patch.apply (sealedEntrySet fields) = sealedEntrySet (patch.revise fields) := by
  cases patch with
  | length firstCluster size noFatChain => rfl
  | validLength validSize => rfl

end Patch

theorem buildFileEntrySet_eq (sound : fields.Sound) :
    buildFileEntrySet fields =
      if slash ∈ fields.name then none else some (sealedEntrySet fields) := by
  unfold buildFileEntrySet
  by_cases divided : slash ∈ fields.name
  · split
    · rfl
    refine if_neg fun every => ?_
    simpa using all_eq_true.mp every slash divided
  obtain ⟨ne, _, _, b⟩ := validAsciiBasename_plain divided sound.named
  have short := sound.short
  have positive := length_pos_iff.mpr ne
  rw [if_neg divided, if_neg, if_pos]
  · rfl
  · refine all_eq_true.mpr fun byte mem => ?_
    rw [b byte mem, Bool.true_and, bne_iff_ne]
    exact fun same => divided (same ▸ mem)
  · unfold entriesForName exfatMaxFileEntries
    omega

/-- However often a set is rewritten, the importer accepts it, recovers the name and decodes the
fields, a chain flag only together with data. -/
theorem buildFileEntrySet_readsBack (sound : fields.Sound) :
    ((buildFileEntrySet fields).isSome ↔ slash ∉ fields.name) ∧
      ∀ entries, buildFileEntrySet fields = some entries →
        ∀ patches : List Patch, (∀ patch ∈ patches, patch.Sound) →
          (patches.foldl Patch.revise fields).name = fields.name ∧
            ReadsBack (patches.foldl Patch.revise fields) (patches.foldl Patch.apply entries) := by
  rw [buildFileEntrySet_eq sound]
  split
  next divided => exact ⟨by simp [divided], by simp⟩
  next plain =>
    refine ⟨by simp [plain], ?_⟩
    rintro entries ⟨rfl⟩ patches fit
    induction patches generalizing fields with
    | nil => exact ⟨rfl, sealedEntrySet_readsBack sound plain⟩
    | cons patch patches ih =>
      have name : (Patch.revise fields patch).name = fields.name := patch.revise_name
      rw [foldl_cons, foldl_cons, patch.apply_sealed, ← name]
      exact ih (patch.revise_sound sound (fit patch mem_cons_self)) (name ▸ plain)
        fun other member => fit other (mem_cons_of_mem _ member)

/-- An empty file as `create_file` describes it. -/
def emptyFile : EntryFields where
  name := ascii ['a']
  firstCluster := 0
  dataLength := 0
  validLength := 0
  attributes := 0x20
  noFatChain := true

/-- A file with data and a name of two name entries. -/
def longFile : EntryFields where
  name := replicate 16 97
  firstCluster := 5
  dataLength := 700
  validLength := 600
  attributes := 0x20
  noFatChain := true

theorem buildFileEntrySet_readsBack_long :
    longFile.Sound ∧ ∃ entries, buildFileEntrySet longFile = some entries ∧
      ReadsBack longFile entries ∧
      ReadsBack { longFile with firstCluster := 9, dataLength := 1400, validLength := 1000 }
        ([.length 9 1400 true, .validLength 1000].foldl Patch.apply entries) := by
  have sound : longFile.Sound :=
    ⟨by decide, by decide, by decide, by decide, by decide, by decide, by decide⟩
  have built : buildFileEntrySet longFile = some (sealedEntrySet longFile) :=
    (buildFileEntrySet_eq sound).trans (if_neg (by decide))
  have readsBack := (buildFileEntrySet_readsBack sound).2 _ built
  refine ⟨sound, _, built, (readsBack [] (by simp)).2,
    (readsBack [.length 9 1400 true, .validLength 1000] ?_).2⟩
  rintro patch (_ | ⟨_, _ | ⟨_, ⟨⟩⟩⟩) <;> simp [Patch.Sound]

/-- Without data the chain flag is not read back. -/
theorem emptyFile_chain_dropped :
    ∃ entries, buildFileEntrySet emptyFile = some entries ∧
      (streamEntry entries).noFatChain ≠ emptyFile.noFatChain :=
  ⟨sealedEntrySet emptyFile, rfl, by decide⟩

end SrvrOS.Exfat
