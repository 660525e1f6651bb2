import Mathlib

/-!
# Block device descriptors

The registry of `kernel/src/block.c` and the range resolution of `kernel/src/block_claim.c`. A
descriptor is an independent medium or a view of a byte range of another one; the backing graph may
have any shape, cycles included.

Every sum or product that the source forms without a check is reduced by `wrap64`.
-/

namespace SrvrOS.Block

def uint64Max : Nat := 2 ^ 64 - 1

/-- The value of an unsigned 64-bit expression. -/
def wrap64 (value : Nat) : Nat := value % 2 ^ 64

theorem wrap64_of_le {value : Nat} (bounded : value ≤ uint64Max) : wrap64 value = value := by
  apply Nat.mod_eq_of_lt
  simp only [uint64Max] at bounded
  omega

/-- `BLOCK_MAX_DEVICES`, also the bound on walks along backing links. -/
def blockMaxDevices : Nat := 32

/-- The fields of `struct block_device` that describe its geometry and lineage. -/
structure Device (ι : Type) where
  used : Bool
  offline : Bool
  blockSize : Nat
  blockCount : Nat
  backing : Option ι
  backingOffset : Nat
  deriving DecidableEq, Repr

/-- A descriptor table: what every device pointer points to. -/
abbrev Registry (ι : Type) := ι → Device ι

variable {ι : Type}

/-- The shape check made at each end of a backing edge. -/
def Device.sized (device : Device ι) : Bool :=
  device.used && device.blockSize != 0 &&
    decide (device.blockCount ≤ uint64Max / device.blockSize)

/-- Byte size of a descriptor; `size` and `total` of `block_raw_range`. -/
def Device.bytes (device : Device ι) : Nat := device.blockCount * device.blockSize

theorem Device.bytes_le {d : Device ι} (isSized : d.sized = true) : d.bytes ≤ uint64Max := by
  simp only [Device.sized, Bool.and_eq_true, decide_eq_true_eq] at isSized
  exact Nat.le_trans (Nat.mul_le_mul_right _ isSized.2) (Nat.div_mul_le_self _ _)

/-- `block_device_size`: zero for a null or unused descriptor. -/
def blockDeviceSize (registry : Registry ι) : Option ι → Nat
  | none => 0
  | some name =>
    if (registry name).used then
      wrap64 ((registry name).blockSize * (registry name).blockCount)
    else 0

/-- The loop of `block_raw_range`, counting the remaining iterations. -/
def rawRangeWalk (registry : Registry ι) (length : Nat) :
    Nat → Option ι → Nat → Option (ι × Nat)
  | 0, _, _ => none
  | _ + 1, none, _ => none
  | depth + 1, some name, offset =>
    let device := registry name
    if !device.sized then none
    else if device.bytes < offset ∨ device.bytes - offset < length then none
    else
      match device.backing with
      | none => some (name, offset)
      | some backing =>
        let total := (registry backing).bytes
        if !(registry backing).sized then none
        else if total < device.backingOffset ∨
            total - device.backingOffset < device.bytes then none
        else
          rawRangeWalk registry length depth (some backing)
            (wrap64 (offset + device.backingOffset))

/-- `block_raw_range`: the root medium and absolute offset of a byte range. -/
def blockRawRange (registry : Registry ι) (device : Option ι)
    (offset length : Nat) : Option (ι × Nat) :=
  if length = 0 then none
  else rawRangeWalk registry length blockMaxDevices device offset

/-- The second loop of `block_device_online`: no descriptor between the device and
its root is offline. -/
def onlineWalk [DecidableEq ι] (registry : Registry ι) (root : ι) :
    Nat → Option ι → Bool
  | 0, _ => false
  | _ + 1, none => false
  | depth + 1, some name =>
    if (registry name).offline then false
    else if name = root then true
    else onlineWalk registry root depth (registry name).backing

def blockDeviceOnline [DecidableEq ι] (registry : Registry ι)
    (device : Option ι) : Bool :=
  match blockRawRange registry device 0 (blockDeviceSize registry device) with
  | none => false
  | some (root, _) => onlineWalk registry root blockMaxDevices device

variable {r : Registry ι}

theorem rawRangeWalk_bounds {len : Nat} :
    {depth : Nat} → {d : Option ι} → {offset : Nat} → {root : ι} →
    {start : Nat} →
    rawRangeWalk r len depth d offset = some (root, start) →
    (r root).sized = true ∧ start + len ≤ (r root).bytes
  | 0, _, _, _, _, hit => by simp [rawRangeWalk] at hit
  | _ + 1, none, _, _, _, hit => by simp [rawRangeWalk] at hit
  | depth + 1, some name, offset, root, start, hit => by
    simp only [rawRangeWalk] at hit
    split at hit
    · contradiction
    next unsized =>
    split at hit
    · contradiction
    next inside =>
    split at hit
    · obtain ⟨rfl, rfl⟩ := hit
      have sized : (r name).sized = true := by simpa using unsized
      refine ⟨sized, ?_⟩
      omega
    next backing _ =>
      split at hit
      · contradiction
      split at hit
      · contradiction
      exact rawRangeWalk_bounds hit

theorem blockRawRange_bounds {d : Option ι} {offset len start : Nat} {root : ι}
    (hit : blockRawRange r d offset len = some (root, start)) :
    0 < len ∧ start + len ≤ (r root).bytes ∧ (r root).bytes ≤ uint64Max := by
  simp only [blockRawRange] at hit
  split at hit
  · contradiction
  next nonzero =>
    obtain ⟨sized, bound⟩ := rawRangeWalk_bounds hit
    exact ⟨Nat.pos_of_ne_zero nonzero, bound, Device.bytes_le sized⟩

theorem blockRawRange_window {name backing : ι} {offset len : Nat} {place : ι × Nat}
    (hit : blockRawRange r (some name) offset len = some place)
    (backed : (r name).backing = some backing) :
    (r name).backingOffset + (r name).bytes ≤ uint64Max := by
  simp only [blockRawRange] at hit
  split at hit
  · contradiction
  generalize blockMaxDevices = depth at hit
  cases depth with
  | zero => simp [rawRangeWalk] at hit
  | succ depth =>
    simp only [rawRangeWalk, backed] at hit
    split at hit
    · contradiction
    split at hit
    · contradiction
    split at hit
    · contradiction
    next sized =>
    split at hit
    · contradiction
    next window =>
      have total := Device.bytes_le (by simpa using sized)
      omega

end SrvrOS.Block
