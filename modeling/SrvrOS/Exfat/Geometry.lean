import SrvrOS.Exfat.Frame
import SrvrOS.Exfat.Sample
import SrvrOS.Lib.Word

/-!
# The geometry of an accepted boot sector

`volume_from_boot` and the two address computations are read with the operators of the machine.
Every sum and product is in range, and an accepted volume keeps its boot regions, its FAT and its
clusters apart.
-/

namespace SrvrOS.Exfat

open Lib Nat Word Volume

/-! ## The machine's reading -/

section Reading

variable (narrow arith : Arith)

/-- `cluster_offset`; the end of the range is computed with 32 bits. -/
def clusterOffsetIn (volume : Volume) (cluster : Nat) : Option Nat :=
  if cluster < 2 ∨ narrow.add volume.clusterCount 2 ≤ cluster then none
  else
    let result := arith.add volume.clusterHeapOffsetBytes
      (arith.mul (arith.sub cluster 2) volume.clusterSize)
    if volume.imageSize ≤ result ∨ arith.sub volume.imageSize result < volume.clusterSize then none
    else some result

/-- The address that `next_cluster` reads and `write_fat_entry` writes. -/
def fatEntryOffsetIn (volume : Volume) (cluster : Nat) : Nat :=
  arith.add volume.fatOffsetBytes (arith.mul cluster 4)

end Reading

/-! ## What acceptance means -/

/-- The fields of an accepted boot sector. -/
structure Accepted (boot : Bytes) (backingSize : Nat) (volume : Volume) : Prop where
  shift : 9 ≤ leField boot 108 1 ∧ leField boot 108 1 ≤ 12 ∧
    leField boot 109 1 ≤ 25 - leField boot 108 1
  sector : volume.sectorSize = 2 ^ leField boot 108 1
  cluster : volume.clusterSize = volume.sectorSize * 2 ^ leField boot 109 1
  image : volume.imageSize = leField boot 72 8 * volume.sectorSize
  fat : volume.fatOffsetBytes = leField boot 80 4 * volume.sectorSize
  heap : volume.clusterHeapOffsetBytes = leField boot 88 4 * volume.sectorSize
  count : volume.clusterCount = leField boot 92 4
  backing : leField boot 72 8 ≤ backingSize / volume.sectorSize
  positive : 0 < volume.clusterCount
  limit : volume.clusterCount ≤ 0xfffffff5
  early : 24 ≤ leField boot 80 4
  entries : (volume.clusterCount + 2) * 4 ≤ leField boot 84 4 * volume.sectorSize
  behind : leField boot 80 4 + leField boot 84 4 ≤ leField boot 88 4
  inside : leField boot 88 4 + leField boot 92 4 * 2 ^ leField boot 109 1 ≤ leField boot 72 8

variable {boot : Bytes} {d backingSize : Nat} {v : Volume}

theorem volumeFromBoot_accepted (found : volumeFromBoot boot d backingSize = some v) :
    Accepted boot backingSize v := by
  simp only [volumeFromBoot, volumeFromBootIn, exact, Nat.one_mul] at found
  split at found
  · contradiction
  next shape =>
  split at found
  · contradiction
  next limits =>
  cases found
  simp only [not_or, not_lt] at shape limits
  obtain ⟨-, backing, some, limit, -, -, early, entries, behind, inside⟩ := limits
  exact
    { shift := ⟨shape.1, shape.2.1, shape.2.2.1⟩
      sector := rfl, cluster := rfl, image := rfl, fat := rfl, heap := rfl, count := rfl
      backing, positive := Nat.pos_of_ne_zero some, limit, early, entries, behind, inside }

namespace Accepted

variable (accepted : Accepted boot backingSize v)

include accepted

theorem sector_large : 512 ≤ v.sectorSize := by
  rw [accepted.sector]
  exact Nat.pow_le_pow_right (i := 9) Nat.two_pos accepted.shift.1

theorem boot_before_fat : 24 * v.sectorSize ≤ v.fatOffsetBytes := by
  rw [accepted.fat]
  exact mul_le_mul_right _ accepted.early

theorem fat_before_heap : v.fatOffsetBytes + leField boot 84 4 * v.sectorSize ≤
    v.clusterHeapOffsetBytes := by
  rw [accepted.fat, accepted.heap, ← Nat.add_mul]
  exact mul_le_mul_right _ accepted.behind

theorem heap_inside : v.clusterHeapOffsetBytes +
    v.clusterCount * v.clusterSize ≤ v.imageSize := by
  have fits := mul_le_mul_right v.sectorSize accepted.inside
  rw [Nat.add_mul, Nat.mul_assoc, Nat.mul_comm (2 ^ leField boot 109 1)] at fits
  rw [accepted.heap, accepted.count, accepted.cluster, accepted.image]
  exact fits

theorem image_backed : v.imageSize ≤ backingSize := by
  rw [accepted.image]
  exact (mul_le_mul_right _ accepted.backing).trans (div_mul_le_self _ _)

theorem laid : v.Laid := by
  have sector := accepted.sector_large
  have whole : 512 ∣ v.sectorSize := by
    rw [accepted.sector]
    exact Nat.pow_dvd_pow 2 accepted.shift.1
  refine ⟨?_, ?_, accepted.heap_inside, ?_, ?_, accepted.positive, accepted.limit⟩
  · have boot := accepted.boot_before_fat
    simp only [bootBytes]
    omega
  · exact (Nat.add_le_add_left accepted.entries _).trans accepted.fat_before_heap
  · rw [accepted.cluster]
    exact sector.trans (Nat.le_mul_of_pos_right _ (Nat.two_pow_pos _))
  · rw [accepted.cluster]
    exact Nat.mod_eq_zero_of_dvd (Nat.dvd_mul_right_of_dvd whole _)

end Accepted

/-! ## No operation wraps -/

theorem volumeFromBootIn_machine {boot : Bytes} {d : Nat} (word : backingSize < 2 ^ 64) :
    volumeFromBootIn (machine 64) boot d backingSize =
      volumeFromBoot boot d backingSize := by
  simp only [volumeFromBoot, volumeFromBootIn, exact, Nat.one_mul]
  by_cases shape : leField boot 108 1 < 9 ∨ 12 < leField boot 108 1 ∨
      25 - leField boot 108 1 < leField boot 109 1 ∨ leField boot 110 1 ≠ 1 ∨
      leField boot 106 2 % 2 = 1 ∨ leField boot 104 2 ≠ 0x100
  · rw [if_pos shape, if_pos shape]
  rw [if_neg shape, if_neg shape]
  have small : leField boot 108 1 ≤ 12 := by omega
  have spread : leField boot 109 1 ≤ 16 := by omega
  have sector : 2 ^ leField boot 108 1 ≤ 2 ^ 12 := Nat.pow_le_pow_right (by decide) small
  have clusters : 2 ^ leField boot 109 1 ≤ 2 ^ 16 := Nat.pow_le_pow_right (by decide) spread
  have mul {left right : Nat} (fits : left * right < 2 ^ 64) :
      (machine 64).mul left right = left * right := machine_mul fits
  have add {left right : Nat} (fits : left + right < 2 ^ 64) :
      (machine 64).add left right = left + right := machine_add fits
  have fat := leField_lt boot 80 4
  have length := leField_lt boot 84 4
  have heap := leField_lt boot 88 4
  have count := leField_lt boot 92 4
  have run := mul_lt (b := 48) count clusters (by decide)
  rw [mul (by omega : 1 * 2 ^ leField boot 108 1 < 2 ^ 64), Nat.one_mul,
    mul (by omega : 1 * 2 ^ leField boot 109 1 < 2 ^ 64), Nat.one_mul,
    mul (run.trans (by decide)), add (by omega), add (by omega), add (by omega),
    mul (mul_lt length sector (by decide)), mul (by omega)]
  split
  · rfl
  next limits =>
  simp only [not_or, not_lt] at limits
  have image := lt_of_le_of_lt ((mul_le_mul_right _ limits.2.1).trans
      (div_mul_le_self _ _)) word
  rw [mul image, mul (mul_lt (m := 13) (by omega) clusters (by decide)),
    mul (mul_lt fat sector (by decide)), mul (mul_lt heap sector (by decide))]

/-! ## Clusters -/

def Volume.clusterStart (volume : Volume) (cluster : Nat) : Nat :=
  volume.clusterHeapOffsetBytes + (cluster - 2) * volume.clusterSize

section Clusters

variable {c : Nat} (accepted : Accepted boot backingSize v)
  (low : 2 ≤ c) (high : c < v.clusterCount + 2)

include accepted low high

theorem Accepted.cluster_inside : v.clusterStart c + v.clusterSize ≤ v.imageSize := by
  have whole : (c - 2 + 1) * v.clusterSize ≤
      v.clusterCount * v.clusterSize := mul_le_mul_right _ (by omega)
  have inside := accepted.heap_inside
  rw [succ_mul] at whole
  rw [clusterStart]
  omega

/-- `cluster_offset` gives the start of every cluster, and nothing in it wraps. -/
theorem Accepted.clusterOffsetIn_machine (word : backingSize < 2 ^ 64) :
    clusterOffsetIn (machine 32) (machine 64) v c =
      some (v.clusterStart c) := by
  have inside := accepted.cluster_inside low high
  have backed := accepted.image_backed
  have limit := accepted.limit
  have positive := accepted.laid.cluster
  rw [clusterStart] at inside ⊢
  have narrow : (machine 32).add v.clusterCount 2 = v.clusterCount + 2 :=
    machine_add (by omega)
  have i : (machine 64).sub c 2 = c - 2 := machine_sub low (by omega)
  have product : (machine 64).mul (c - 2) v.clusterSize =
      (c - 2) * v.clusterSize := machine_mul (by omega)
  have start : (machine 64).add v.clusterHeapOffsetBytes
      ((c - 2) * v.clusterSize) = v.clusterHeapOffsetBytes +
        (c - 2) * v.clusterSize := machine_add (by omega)
  simp only [clusterOffsetIn, i, product, start]
  rw [if_neg (by omega), machine_sub (by omega) (by omega), if_neg]
  simp only [exact]
  omega

omit low in
theorem Accepted.fatEntryOffsetIn_machine (word : backingSize < 2 ^ 64) :
    fatEntryOffsetIn (machine 64) v c = v.fatOffsetBytes + c * 4 ∧
      v.fatOffsetBytes + c * 4 + 4 ≤
        v.fatOffsetBytes + leField boot 84 4 * v.sectorSize := by
  have entries := accepted.entries
  have before := accepted.fat_before_heap
  have inside := accepted.heap_inside
  have backed := accepted.image_backed
  refine ⟨?_, by omega⟩
  have product : (machine 64).mul c 4 = c * 4 := machine_mul (by omega)
  rw [fatEntryOffsetIn, product]
  exact machine_add (by omega)

end Clusters

theorem clusterStart_apart {v : Volume} {left right : Nat} (low : 2 ≤ left)
    (before : left < right) :
    v.clusterStart left + v.clusterSize ≤ v.clusterStart right := by
  have next : (left - 2 + 1) * v.clusterSize ≤ (right - 2) * v.clusterSize :=
    mul_le_mul_right _ (by omega)
  rw [succ_mul] at next
  rw [clusterStart, clusterStart]
  omega

/-- A boot sector that the machine accepts is accepted by the exact reading with the same result.
The clusters then pass `cluster_offset`, lie inside the image and do not overlap, their FAT entries
lie inside the FAT, and the boot regions, the FAT and the cluster heap follow each other within the
backing size. -/
theorem volumeFromBoot_safe {boot : Bytes} {device backingSize : Nat} {volume : Volume}
    (word : backingSize < 2 ^ 64)
    (found : volumeFromBootIn (machine 64) boot device backingSize = some volume) :
    volumeFromBootIn exact boot device backingSize = some volume ∧
      (∀ cluster, 2 ≤ cluster → cluster < volume.clusterCount + 2 →
        clusterOffsetIn (machine 32) (machine 64) volume cluster =
            some (volume.clusterStart cluster) ∧
          volume.clusterStart cluster + volume.clusterSize ≤ volume.imageSize ∧
          fatEntryOffsetIn (machine 64) volume cluster = volume.fatOffsetBytes + cluster * 4 ∧
          volume.fatOffsetBytes + cluster * 4 + 4 ≤
            volume.fatOffsetBytes + leField boot 84 4 * volume.sectorSize) ∧
      (∀ left right, 2 ≤ left → left < right → right < volume.clusterCount + 2 →
        volume.clusterStart left + volume.clusterSize ≤ volume.clusterStart right) ∧
      24 * volume.sectorSize ≤ volume.fatOffsetBytes ∧
      volume.fatOffsetBytes + leField boot 84 4 * volume.sectorSize ≤
        volume.clusterHeapOffsetBytes ∧
      volume.clusterHeapOffsetBytes + volume.clusterCount * volume.clusterSize ≤ volume.imageSize ∧
      volume.imageSize ≤ backingSize ∧ volume.clusterCount + 2 < 2 ^ 32 := by
  rw [volumeFromBootIn_machine word] at found
  have accepted := volumeFromBoot_accepted found
  have limit := accepted.limit
  refine ⟨found, ?_, ?_, accepted.boot_before_fat, accepted.fat_before_heap,
    accepted.heap_inside, accepted.image_backed, by omega⟩
  · intro cluster low high
    exact ⟨accepted.clusterOffsetIn_machine low high word, accepted.cluster_inside low high,
      accepted.fatEntryOffsetIn_machine high word⟩
  · intro left right low before _
    exact clusterStart_apart low before

/-- The smallest accepted volume. -/
theorem volumeFromBoot_safe_smallest :
    ∃ volume, volumeFromBootIn (machine 64) (Sample.medium.read 0 512) 0 1048576 =
        some volume ∧
      volume.clusterStart 33 + volume.clusterSize ≤ volume.imageSize ∧
      volume.imageSize ≤ 1048576 := by
  have small : (1048576 : Nat) < 2 ^ 64 := by decide
  obtain ⟨volume, found⟩ := Option.isSome_iff_exists.mp (by decide +kernel :
    (volumeFromBootIn (machine 64) (Sample.medium.read 0 512) 0 1048576).isSome = true)
  have count : volume.clusterCount = 32 := by
    have known : (volumeFromBootIn (machine 64) (Sample.medium.read 0 512) 0 1048576).map
        clusterCount = some 32 := by decide +kernel
    simpa [found] using known
  obtain ⟨-, clusters, -, -, -, -, backed, -⟩ := volumeFromBoot_safe small found
  exact ⟨volume, found, (clusters 33 (by decide) (by omega)).2.1, backed⟩

end SrvrOS.Exfat
