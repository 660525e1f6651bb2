import SrvrOS.Exfat.Operations

/-!
# What every part of a mutation leaves alone

The body of a mutation touches its mount, that mount's disk and the VFS nodes. `Frame` lists what
stays. It also records three one-way facts: a blocked volume stays blocked and its medium
unchanged, `mutation_written` is never withdrawn, and until it is set nothing has changed.
-/

namespace SrvrOS.Exfat

open Lib Act

/-! ## Well-formed tables -/

def bootBytes : Nat := 12288

def Volume.layout (volume : Volume) : Volume :=
  { volume with
    flags := 0, writeBlocked := false, mutationWritten := false, mutationDepth := 0 }

/-- The geometry `volume_from_boot` accepts. -/
structure Volume.Laid (volume : Volume) : Prop where
  fat : bootBytes ≤ volume.fatOffsetBytes
  fatEnd : volume.fatOffsetBytes + (volume.clusterCount + 2) * 4 ≤ volume.clusterHeapOffsetBytes
  heapEnd : volume.clusterHeapOffsetBytes + volume.clusterCount * volume.clusterSize ≤
    volume.imageSize
  cluster : 512 ≤ volume.clusterSize
  aligned : volume.clusterSize % 512 = 0
  count : 0 < volume.clusterCount
  limit : volume.clusterCount ≤ 0xfffffff5

theorem clustersForSize_ne_zero {v : Volume} (laid : v.Laid) {size : Nat}
    (some_ : size ≠ 0) : clustersForSize v size ≠ 0 := by
  intro none
  rw [clustersForSize, Nat.add_eq_zero_iff, Nat.div_eq_zero_iff] at none
  have cluster := laid.cluster
  split at none
  · next even =>
    have whole := Nat.mod_eq_of_lt (none.1.resolve_left (by omega))
    omega
  · omega

/-- Where a record says its entry set is: past the boot regions, or nowhere. -/
def EntryPlace (offset secondaryCount : Nat) : Prop :=
  bootBytes ≤ offset ∨ (offset = 0 ∧ secondaryCount = 0)

/-- A file slot in order: its entry set has a place, and its path lies below the mountpoint. -/
structure FileSlot.Placed (slot : FileSlot) (base : Path) : Prop where
  entry : EntryPlace slot.file.fileEntryOffset slot.file.secondaryCount
  below : slot.path ≠ [] → pathInSubtree slot.path base = true

/-- A directory slot in order. -/
structure Directory.Placed (slot : Directory) (base : Path) : Prop where
  entry : EntryPlace slot.fileEntryOffset slot.secondaryCount
  below : slot.path ≠ [] → pathInSubtree slot.path base = true

/-- The tables of one mount. -/
structure Mount.Tidy (mount : Mount) : Prop where
  laid : mount.volume.Laid
  mountpoint : validMountpoint mount.mountpoint = true
  files : ∀ slot ∈ mount.files, slot.Placed mount.mountpoint
  dirs : ∀ slot ∈ mount.dirs, slot.Placed mount.mountpoint

/-- A disk whose medium is what its recorded events made of its origin. -/
structure Disk.Recorded (disk : Disk) : Prop where
  positive : 0 < disk.blockSize
  whole : ∀ event ∈ disk.trace, event.WholeBlock disk.blockSize
  medium : disk.medium = replay disk.blockSize disk.origin disk.trace

/-- The driver's tables between any two primitive steps. -/
structure Tidy (world : World) : Prop where
  bound : ∀ m, exfatMaxVolumes ≤ m → (world.mounts m).used = false
  mounts : ∀ m, (world.mounts m).used = true → (world.mounts m).Tidy
  devices : ∀ left right, (world.mounts left).used = true → (world.mounts right).used = true →
    (world.volume left).device = (world.volume right).device → left = right
  mountpoints : ∀ left right, (world.mounts left).used = true →
    (world.mounts right).used = true →
    pathInSubtree (world.mounts left).mountpoint (world.mounts right).mountpoint = true →
    left = right
  recorded : ∀ device, (world.disks device).Recorded

/-- A mutation on mount `m` is under way. -/
structure Inside (m : Nat) (base : Path) (world : World) : Prop where
  tidy : Tidy world
  used : (world.mounts m).used = true
  mountpoint : (world.mounts m).mountpoint = base
  depth : (world.volume m).mutationDepth ≠ 0

/-! ## Frames -/

/-- Two disks of the same device. -/
structure SameDevice (before after : Disk) : Prop where
  size : after.size = before.size
  blockSize : after.blockSize = before.blockSize
  maxTransferBytes : after.maxTransferBytes = before.maxTransferBytes
  writable : after.writable = before.writable
  flushable : after.flushable = before.flushable
  origin : after.origin = before.origin

/-- What a disk keeps during the body of a mutation. -/
structure DiskFrame (before after : Disk) : Prop extends SameDevice before after where
  low : after.medium 106 = before.medium 106
  high : after.medium 107 = before.medium 107
  events : ∃ newer, after.trace = newer ++ before.trace ∧
    ∀ event ∈ newer, event.Leaves before.blockSize 106 (· = before.medium 106)

/-- Nothing a caller could see has changed on mount `m`. -/
structure Untouched (m : Nat) (before after : World) : Prop where
  files : (after.mounts m).files = (before.mounts m).files
  dirs : (after.mounts m).dirs = (before.mounts m).dirs
  nodes : after.vfs.nodes = before.vfs.nodes
  medium : after.medium m = before.medium m

/-- What an operation on mount `m` leaves alone. -/
structure Passage (m : Nat) (before after : World) : Prop where
  env : after.env = before.env
  others : ∀ k, k ≠ m → after.mounts k = before.mounts k
  disks : ∀ device, device ≠ (before.volume m).device → after.disks device = before.disks device
  layout : (after.volume m).layout = (before.volume m).layout
  used : (after.mounts m).used = (before.mounts m).used
  mountpoint : (after.mounts m).mountpoint = (before.mounts m).mountpoint
  leases : after.leases = before.leases
  blocked : (before.volume m).writeBlocked = true → (after.volume m).writeBlocked = true

/-- What a mutation on mount `m` keeps at every point between its markers. -/
structure Outline (m : Nat) (before after : World) : Prop extends Passage m before after where
  flags : (after.volume m).flags = (before.volume m).flags
  disk : DiskFrame (before.disk m) (after.disk m)
  written : (before.volume m).mutationWritten = true →
    (after.volume m).mutationWritten = true
  stuck : (before.volume m).writeBlocked = true → after.medium m = before.medium m

/-- The global counters of two worlds. -/
structure Counters (before after : World) : Prop where
  operations : after.fsOperations = before.fsOperations
  syncing : after.metadataSyncing = before.metadataSyncing
  streams : after.streamMutationDepth = before.streamMutationDepth

/-- The nesting counters, which every completed part of a mutation restores. -/
structure Level (m : Nat) (before after : World) : Prop extends Counters before after where
  depth : (after.volume m).mutationDepth = (before.volume m).mutationDepth

/-- What a completed part of a mutation on mount `m` keeps. -/
structure Frame (m : Nat) (before after : World) : Prop extends
  Outline m before after, Level m before after where
  calm : (after.volume m).mutationWritten = false → Untouched m before after

variable {disk : Disk}

theorem SameDevice.refl : SameDevice disk disk := ⟨rfl, rfl, rfl, rfl, rfl, rfl⟩

variable {first second third : Disk}

theorem SameDevice.trans (left : SameDevice first second)
    (right : SameDevice second third) : SameDevice first third where
  size := right.size.trans left.size
  blockSize := right.blockSize.trans left.blockSize
  maxTransferBytes := right.maxTransferBytes.trans left.maxTransferBytes
  writable := right.writable.trans left.writable
  flushable := right.flushable.trans left.flushable
  origin := right.origin.trans left.origin

theorem DiskFrame.refl : DiskFrame disk disk :=
  ⟨.refl, rfl, rfl, [], rfl, fun _ mem => absurd mem List.not_mem_nil⟩

theorem DiskFrame.trans (left : DiskFrame first second)
    (right : DiskFrame second third) : DiskFrame first third where
  toSameDevice := left.toSameDevice.trans right.toSameDevice
  low := right.low.trans left.low
  high := right.high.trans left.high
  events := by
    obtain ⟨older, olderTrace, olderLeaves⟩ := left.events
    obtain ⟨newer, newerTrace, newerLeaves⟩ := right.events
    refine ⟨newer ++ older, by rw [newerTrace, olderTrace, List.append_assoc], ?_⟩
    intro event mem
    rcases List.mem_append.mp mem with mem | mem
    · have leaves := newerLeaves event mem
      rw [left.blockSize, left.low] at leaves
      exact leaves
    · exact olderLeaves event mem

section Composition

variable {m m : Nat} {old new first second third w : World}

theorem Untouched.refl : Untouched m w w := ⟨rfl, rfl, rfl, rfl⟩

theorem Untouched.trans (left : Untouched m first second) (right : Untouched m second third) :
    Untouched m first third :=
  ⟨right.files.trans left.files, right.dirs.trans left.dirs, right.nodes.trans left.nodes,
    right.medium.trans left.medium⟩

theorem Passage.of_layout {α : Type} (passage : Passage m old new) {read : Volume → α}
    (fixed : ∀ v, read v.layout = read v) :
    read (new.volume m) = read (old.volume m) := by
  rw [← fixed (new.volume m), passage.layout, fixed]

theorem Passage.device (passage : Passage m old new) :
    (new.volume m).device = (old.volume m).device :=
  passage.of_layout fun _ => rfl

theorem Passage.refl : Passage m w w :=
  ⟨rfl, fun _ _ => rfl, fun _ _ => rfl, rfl, rfl, rfl, rfl, id⟩

theorem Passage.trans (left : Passage m first second) (right : Passage m second third) :
    Passage m first third where
  env := right.env.trans left.env
  others k j := (right.others k j).trans (left.others k j)
  disks d j :=
    (right.disks d (by rw [left.device]; exact j)).trans (left.disks d j)
  layout := right.layout.trans left.layout
  used := right.used.trans left.used
  mountpoint := right.mountpoint.trans left.mountpoint
  leases := right.leases.trans left.leases
  blocked p := right.blocked (left.blocked p)

theorem Outline.refl : Outline m w w := ⟨.refl, rfl, .refl, id, fun _ => rfl⟩

theorem Outline.trans (left : Outline m first second) (right : Outline m second third) :
    Outline m first third where
  toPassage := left.toPassage.trans right.toPassage
  flags := right.flags.trans left.flags
  disk := left.disk.trans right.disk
  written p := right.written (left.written p)
  stuck p := (right.stuck (left.blocked p)).trans (left.stuck p)

theorem Outline.unwritten (outline : Outline m old new)
    (clear : (new.volume m).mutationWritten = false) :
    (old.volume m).mutationWritten = false := by
  by_contra written
  have kept := outline.written (Bool.not_eq_false _ ▸ written)
  cases kept.symm.trans clear

theorem Counters.refl : Counters w w := ⟨rfl, rfl, rfl⟩

theorem Counters.trans (left : Counters first second) (right : Counters second third) :
    Counters first third :=
  ⟨right.operations.trans left.operations, right.syncing.trans left.syncing,
    right.streams.trans left.streams⟩

theorem Level.refl : Level m w w := ⟨.refl, rfl⟩

theorem Level.trans (left : Level m first second) (right : Level m second third) :
    Level m first third :=
  ⟨left.toCounters.trans right.toCounters, right.depth.trans left.depth⟩

theorem Frame.refl : Frame m w w := ⟨.refl, .refl, fun _ => .refl⟩

theorem Frame.trans (left : Frame m first second) (right : Frame m second third) :
    Frame m first third :=
  ⟨left.toOutline.trans right.toOutline, left.toLevel.trans right.toLevel, fun clear =>
    (left.calm (right.toOutline.unwritten clear)).trans (right.calm clear)⟩

theorem Tidy.transfer (tidy : Tidy old)
    (eq : ∀ k, (new.mounts k).used = (old.mounts k).used ∧
      (new.mounts k).mountpoint = (old.mounts k).mountpoint ∧
      (new.volume k).device = (old.volume k).device)
    (mounts : ∀ k, (old.mounts k).used = true → (new.mounts k).Tidy)
    (recorded : ∀ d, (new.disks d).Recorded) : Tidy new := by
  refine ⟨fun k large => ?_, fun k inUse => ?_, fun left right => ?_, fun left right => ?_,
    recorded⟩
  · rw [(eq k).1]
    exact tidy.bound k large
  · exact mounts k ((eq k).1 ▸ inUse)
  · rw [(eq left).1, (eq right).1, (eq left).2.2, (eq right).2.2]
    exact tidy.devices left right
  · rw [(eq left).1, (eq right).1, (eq left).2.1, (eq right).2.1]
    exact tidy.mountpoints left right

end Composition

variable {old new : World} {b : Path}

theorem Inside.of_outline (inside : Inside m b old) (tidy : Tidy new)
    (outline : Outline m old new) (level : Level m old new) : Inside m b new where
  tidy := tidy
  used := outline.used.trans inside.used
  mountpoint := outline.mountpoint.trans inside.mountpoint
  depth := by
    rw [level.depth]
    exact inside.depth

theorem Inside.of_frame (inside : Inside m b old) (tidy : Tidy new) (f : Frame m old new) :
    Inside m b new :=
  inside.of_outline tidy f.toOutline f.toLevel

/-! ## Actions that keep the frame -/

/-- From inside a mutation the action keeps the tables tidy and stays in the frame. With `before` it
may rely on `mutation_written`; with `after` it has set that flag when it succeeds. -/
def Keeps {α : Type} (m : Nat) (base : Path) (before : Bool) (act : Driver α) (after : Bool)
    (post : α → Prop) : Prop :=
  ∀ world, Inside m base world →
    (before = true → (world.volume m).mutationWritten = true) →
    Tidy (act world).2 ∧ Frame m world (act world).2 ∧
      ∀ value, (act world).1 = some value →
        post value ∧ (after = true → ((act world).2.volume m).mutationWritten = true)

/-- The action keeps the frame and the flag. -/
abbrev Neutral {α : Type} (m : Nat) (base : Path) (before : Bool) (act : Driver α) : Prop :=
  Keeps m base before act before fun _ => True

/-- The action keeps the frame and has written when it succeeds. -/
abbrev Writes {α : Type} (m : Nat) (base : Path) (before : Bool) (act : Driver α) : Prop :=
  Keeps m base before act true fun _ => True

namespace Keeps

variable {α β : Type} {m : Nat} {b : Path} {old new final : Bool}
  {act : Driver α} {post : α → Prop} {v : α}

theorem weaken {weaker : α → Prop} (keeps : Keeps m b old act new post)
    (implies : ∀ v, post v → weaker v) : Keeps m b old act new weaker := by
  intro w start written
  obtain ⟨tidy, f, r⟩ := keeps w start written
  exact ⟨tidy, f, fun v hit =>
    ⟨implies v (r v hit).1, (r v hit).2⟩⟩

theorem relax (keeps : Keeps m b old act new post) : Keeps m b old act old post := by
  intro w start written
  obtain ⟨tidy, f, r⟩ := keeps w start written
  exact ⟨tidy, f, fun v hit =>
    ⟨(r v hit).1, fun set => f.written (written set)⟩⟩

theorem forget (keeps : Keeps m b old act true post) : Keeps m b old act final post := by
  intro w start written
  obtain ⟨tidy, f, r⟩ := keeps w start written
  exact ⟨tidy, f, fun v hit =>
    ⟨(r v hit).1, fun _ => (r v hit).2 rfl⟩⟩

theorem lift (keeps : Keeps m b false act new post) : Keeps m b old act old post := by
  apply relax
  exact fun w start _ => keeps w start (by simp)

theorem pure (p : post v) : Keeps m b old (Pure.pure v : Driver α) old post := by
  intro w start written
  refine ⟨start.tidy, Frame.refl, ?_⟩
  intro r hit
  obtain rfl : v = r := Option.some.inj hit
  exact ⟨p, written⟩

theorem fail : Keeps m b old (fail : Driver α) new post := by
  intro w start written
  exact ⟨start.tidy, Frame.refl, fun v hit => nomatch hit⟩

variable {read : World → α} {out : Option α}

theorem gets :
    Keeps m b old (gets read) old
      fun v => ∃ w, Inside m b w ∧ v = read w := by
  intro w start written
  refine ⟨start.tidy, Frame.refl, ?_⟩
  intro v hit
  obtain rfl : read w = v := Option.some.inj hit
  exact ⟨⟨w, start, rfl⟩, written⟩

theorem require {c : Prop} [Decidable c] : Keeps m b old (Act.require c) old fun _ => c := by
  unfold Act.require
  split
  next p => exact pure p
  · exact fail

theorem ofOption : Keeps m b old (ofOption out) old fun v => out = some v := by
  cases out with
  | none => exact fail
  | some v => exact pure rfl

variable {r : β → Prop}

theorem attemptBind {rest : Option α → Driver β} (first : Keeps m b old act new post)
    (success : ∀ v, post v → Keeps m b new (rest (some v)) final r)
    (failure : Keeps m b old (rest none) final r) :
    Keeps m b old (Act.attempt act >>= rest) final r := by
  intro w start written
  obtain ⟨tidy, f, values⟩ := first w start written
  rw [bind_run, attempt_run]
  rcases out : act w with ⟨_ | v, next⟩
  · rw [out] at tidy f
    obtain ⟨tidy', f', values'⟩ := failure next (start.of_frame tidy f)
      fun set => f.written (written set)
    exact ⟨tidy', f.trans f', values'⟩
  rw [out] at tidy f values
  have p := values v rfl
  obtain ⟨tidy', f', values'⟩ :=
    success v p.1 next (start.of_frame tidy f) p.2
  exact ⟨tidy', f.trans f', values'⟩

variable {rest : α → Driver β}

theorem bind (first : Keeps m b old act new post)
    (later : ∀ v, post v → Keeps m b new (rest v) final r) :
    Keeps m b old (act >>= rest) final r := by
  have eq : act >>= rest = Act.attempt act >>= fun out => out.elim Act.fail rest := by
    funext w
    simp only [bind_run, attempt_run]
    rcases act w with ⟨_ | v, next⟩ <;> rfl
  rw [eq]
  exact first.attemptBind later fail

variable {c : Prop}

theorem ite [Decidable c] {yes no : Driver α} (whenTrue : c → Keeps m b old yes new post)
    (whenFalse : ¬c → Keeps m b old no new post) :
    Keeps m b old (if c then yes else no) new post := by
  split
  next p => exact whenTrue p
  next fails => exact whenFalse fails

theorem attempt (keeps : Keeps m b old act new post) :
    Keeps m b old (attempt act) old
      fun out => ∀ v, out = some v → post v := by
  intro w start written
  obtain ⟨tidy, f, values⟩ := keeps w start written
  refine ⟨tidy, f, ?_⟩
  intro out hit
  obtain rfl : (act w).1 = out := Option.some.inj hit
  exact ⟨fun v known => (values v known).1, fun set => f.written (written set)⟩

theorem seq {rest : Driver β} (first : Keeps m b old act new post)
    (later : Keeps m b new rest final r) :
    Keeps m b old (act >>= fun _ => rest) final r :=
  first.bind fun _ _ => later

theorem check [Decidable c] {rest : Unit → Driver β} (later : c → Keeps m b old (rest ()) final r) :
    Keeps m b old (Act.require c >>= rest) final r :=
  require.bind fun _ p => later p

theorem found (later : ∀ v, out = some v → Keeps m b old (rest v) final r) :
    Keeps m b old (Act.ofOption out >>= rest) final r :=
  ofOption.bind later

theorem reads (later : ∀ v, Keeps m b old (rest v) final r) :
    Keeps m b old (Act.gets read >>= rest) final r :=
  gets.bind fun v _ => later v

theorem asks (later : ∀ w, Inside m b w → Keeps m b old (rest (read w)) final r) :
    Keeps m b old (Act.gets read >>= rest) final r := by
  refine gets.bind fun v seen => ?_
  obtain ⟨w, inside, rfl⟩ := seen
  exact later w inside

theorem stop [Decidable c] {no : Driver α} (later : ¬c → Neutral m b old no) :
    Neutral m b old (if c then Pure.pure v else no) :=
  ite (fun _ => pure trivial) later

theorem next (first : Neutral m b old act) (later : ∀ v, Keeps m b old (rest v) final r) :
    Keeps m b old (act >>= rest) final r :=
  first.bind fun v _ => later v

theorem when [Decidable c] {act : Driver Unit}
    {post : Unit → Prop} (keeps : c → Keeps m b old act new post) :
    Neutral m b old (Act.when c act) := by
  unfold Act.when
  split
  next p => exact (keeps p).relax.weaken fun _ _ => trivial
  · exact pure trivial

theorem ignore (keeps : Keeps m b old act new post) : Neutral m b old (ignore act) := by
  intro w start written
  obtain ⟨tidy, f, _⟩ := keeps w start written
  exact ⟨tidy, f, fun _ _ => ⟨trivial, fun set => f.written (written set)⟩⟩

theorem onFailure {cleanup : Driver Unit} {cleaned : Unit → Prop} {j : Bool}
    (keeps : Keeps m b old act new post) (undo : Keeps m b old cleanup j cleaned) :
    Keeps m b old (onFailure act cleanup) new post := by
  intro w start written
  obtain ⟨tidy, f, values⟩ := keeps w start written
  unfold Act.onFailure
  rcases out : act w with ⟨_ | v, next⟩
  · rw [out] at tidy f
    obtain ⟨tidy', f', _⟩ :=
      undo next (start.of_frame tidy f) fun set => f.written (written set)
    exact ⟨tidy', f.trans f', fun v hit => nomatch hit⟩
  · rw [out] at tidy f values
    exact ⟨tidy, f, values⟩

theorem guarded {step cleanup : Driver Unit} {rest : Unit → Driver β} (first : Writes m b old step)
    (undo : Neutral m b old cleanup) (later : Keeps m b true (rest ()) final r) :
    Keeps m b old (Act.onFailure step cleanup >>= rest) final r :=
  (first.onFailure undo).bind fun _ _ => later

end Keeps

end SrvrOS.Exfat
