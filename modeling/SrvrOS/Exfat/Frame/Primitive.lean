import SrvrOS.Exfat.Frame.Reserve

/-!
# The frame of the primitive steps

Calls into the environment, table updates, device reads and writes, and the VFS calls,
each with its frame. A table or node update is admissible once the mutation has
written; a device write is admissible where it misses the volume flags.
-/

namespace SrvrOS.Exfat

open Lib Function Act Nat World Keeps

variable {w : World} {off : Nat} {d : Bytes} {change : Vfs → Vfs} {path : Path}

/-! ## Replacing one component of the world -/

def World.setMount (world : World) (m : Nat) (mount : Mount) : World :=
  { world with mounts := update world.mounts m mount }

def World.setDisk (world : World) (device : Nat) (disk : Disk) : World :=
  { world with disks := update world.disks device disk }

def World.tock (world : World) : World := { world with tick := world.tick + 1 }

section Projections

variable {w : World} {m device : Nat} {mount : Mount} {disk : Disk}

@[simp] theorem setMount_self : (w.setMount m mount).mounts m = mount :=
  update_self ..

theorem setMount_other {k : Nat} (j : k ≠ m) : (w.setMount m mount).mounts k = w.mounts k :=
  update_of_ne j ..

@[simp] theorem setMount_volume : (w.setMount m mount).volume m = mount.volume := by
  rw [volume, setMount_self]

@[simp] theorem setMount_disks : (w.setMount m mount).disks = w.disks := (rfl)

@[simp] theorem setDisk_self : (w.setDisk device disk).disks device = disk :=
  update_self ..

theorem setDisk_other {j : Nat} (different : j ≠ device) :
    (w.setDisk device disk).disks j = w.disks j :=
  update_of_ne different ..

@[simp] theorem setDisk_volume : (w.setDisk device disk).volume = w.volume := (rfl)

@[simp] theorem tock_volume : w.tock.volume = w.volume := (rfl)

@[simp] theorem draw_run {α : Type} (a : Env → Nat → α) :
    draw a w = (some (a w.env w.tick), w.tock) := (rfl)

@[simp] theorem updateMount_run (change : Mount → Mount) :
    updateMount m change w = (some (), w.setMount m (change (w.mounts m))) := (rfl)

end Projections

/-! ## Environment calls -/

variable {m : Nat} {base : Path} {before : Bool}

theorem Reserved.tock (m : Nat) (w : World) : Reserved m w w.tock := draw_reserves Env.online w

variable {w : World}

theorem Tidy.tock (tidy : Tidy w) : Tidy w.tock := (Reserved.tock 0 w).tidy tidy

theorem Frame.tock (m : Nat) (w : World) : Frame m w w.tock := (Reserved.tock m w).frame

theorem draw_keeps {α : Type} {a : Env → Nat → α} : Neutral m base before (draw a) :=
  of_reserving (draw_reserves a)

theorem kmalloc_keeps : Neutral m base before kmalloc := of_reserving kmalloc_reserves

/-! ## Table updates -/

variable {mount : Mount}

theorem Tidy.setMount (tidy : Tidy w) (used : mount.used = (w.mounts m).used)
    (mountpoint : mount.mountpoint = (w.mounts m).mountpoint)
    (device : mount.volume.device = (w.volume m).device)
    (ordered : mount.used = true → mount.Tidy) : Tidy (w.setMount m mount) := by
  refine tidy.transfer (fun k => ?_) (fun k inUse => ?_) tidy.recorded
  · rcases eq_or_ne k m with rfl | j
    · rw [setMount_volume, setMount_self]
      exact ⟨used, mountpoint, device⟩
    · rw [volume, setMount_other j]
      exact ⟨rfl, rfl, rfl⟩
  rcases eq_or_ne k m with rfl | j
  · rw [setMount_self]
    exact ordered (used.trans inUse)
  · rw [setMount_other j]
    exact tidy.mounts k inUse

section

variable {mount : Mount} {w : World} (layout : mount.volume.layout = (w.volume m).layout)

include layout

theorem setMount_disk : (w.setMount m mount).disk m = w.disk m := by
  have device : mount.volume.device = (w.volume m).device := by
    have same : mount.volume.layout.device = (w.volume m).layout.device := by rw [layout]
    exact same
  rw [disk, setMount_volume, device]
  rfl

section

variable (used : mount.used = (w.mounts m).used)
  (mountpoint : mount.mountpoint = (w.mounts m).mountpoint)
include used mountpoint

theorem Passage.setMount
    (blocked : (w.volume m).writeBlocked = true → mount.volume.writeBlocked = true) :
    Passage m w (w.setMount m mount) := by
  refine ⟨rfl, fun k j => setMount_other j, fun _ _ => rfl, ?_, ?_, ?_, rfl, ?_⟩
  · rw [setMount_volume]
    exact layout
  · rw [setMount_self]
    exact used
  · rw [setMount_self]
    exact mountpoint
  · rw [setMount_volume]
    exact blocked

theorem Outline.setMount (flags : mount.volume.flags = (w.volume m).flags)
    (blocked : (w.volume m).writeBlocked = true → mount.volume.writeBlocked = true)
    (written : (w.volume m).mutationWritten = true → mount.volume.mutationWritten = true) :
    Outline m w (w.setMount m mount) := by
  have disk := setMount_disk layout
  refine ⟨.setMount layout used mountpoint blocked, ?_, ?_, ?_, fun _ => ?_⟩
  · rw [setMount_volume]
    exact flags
  · rw [disk]
    exact .refl
  · rw [setMount_volume]
    exact written
  · rw [medium, disk]
    rfl

end

theorem Untouched.setMount (files : mount.files = (w.mounts m).files)
    (dirs : mount.dirs = (w.mounts m).dirs) : Untouched m w (w.setMount m mount) := by
  refine ⟨?_, ?_, rfl, ?_⟩
  · rw [setMount_self]
    exact files
  · rw [setMount_self]
    exact dirs
  · rw [World.medium, setMount_disk layout]
    rfl

end

theorem Level.setMount (depth : mount.volume.mutationDepth = (w.volume m).mutationDepth) :
    Level m w (w.setMount m mount) :=
  ⟨⟨rfl, rfl, rfl⟩, by rw [setMount_volume]; exact depth⟩

theorem updateMount_keeps {change : Mount → Mount}
    (volume : ∀ mount, (change mount).volume = mount.volume)
    (used : ∀ mount, (change mount).used = mount.used)
    (mountpoint : ∀ mount, (change mount).mountpoint = mount.mountpoint)
    (tidy : ∀ mount, mount.mountpoint = base → mount.Tidy → (change mount).Tidy) :
    Neutral m base true (updateMount m change) := by
  intro w start written
  rw [updateMount_run]
  have set := written rfl
  refine ⟨start.tidy.setMount (used _) (mountpoint _) (by rw [volume]; rfl) ?_, ?_, ?_⟩
  · intro _
    exact tidy _ start.mountpoint (start.tidy.mounts m start.used)
  · refine ⟨Outline.setMount ?_ (used _) (mountpoint _) ?_ ?_ ?_, Level.setMount ?_, ?_⟩
    · rw [volume]
      rfl
    · rw [volume]
      rfl
    · rw [volume]
      exact id
    · rw [volume]
      exact id
    · rw [volume]
      rfl
    intro unwritten
    rw [setMount_volume, volume] at unwritten
    cases unwritten.symm.trans set
  intro _ _
  refine ⟨trivial, fun _ => ?_⟩
  rw [setMount_volume, volume]
  exact set

/-! ## Device access -/

/-- The world after `mutation_written` has been set. -/
def World.wrote (world : World) (m : Nat) : World :=
  world.setMount m
    { world.mounts m with volume := { world.volume m with mutationWritten := true } }

/-- The world after the volume has been quarantined. -/
def World.halt (world : World) (m : Nat) : World :=
  world.setMount m
    { world.mounts m with volume := { world.volume m with writeBlocked := true } }

/-- The world after `volume_write` has stored some bytes. -/
def World.stored (world : World) (m offset : Nat) (data : Bytes) : World :=
  (world.wrote m).tock.setDisk (world.volume m).device ((world.disk m).put offset data)

@[simp] theorem wrote_run :
    updateVolume m ({ · with mutationWritten := true }) w = (some (), w.wrote m) := (rfl)

@[simp] theorem halt_run :
    updateVolume m ({ · with writeBlocked := true }) w = (some (), w.halt m) := (rfl)

theorem blockWrite_run :
    blockWrite m off d w =
      (some (w.env.write w.tick).ok,
        w.tock.setDisk (w.volume m).device ((w.disk m).put off
          (if (w.env.write w.tick).ok then d
          else d.take (w.env.write w.tick).reached))) := (rfl)

variable {m : Nat} {w : World}

@[simp] theorem wrote_disk : (w.wrote m).disk m = w.disk m := by
  simp [wrote, disk]

@[simp] theorem wrote_device : ((w.wrote m).volume m).device = (w.volume m).device := by
  simp [wrote]

/-- `volume_write` refuses, stores everything, or stores a part and quarantines. -/
theorem volumeWrite_run :
    volumeWrite m off d w =
      if (off ≤ (w.volume m).imageSize ∧
          d.length ≤ (w.volume m).imageSize - off) ∧
          (w.volume m).writeBlocked = false then
        if (w.env.write w.tick).ok then (some (), w.stored m off d)
        else (none, (w.stored m off (d.take (w.env.write w.tick).reached)).halt m)
      else (none, w) := by
  have env : (w.wrote m).env.write (w.wrote m).tick = w.env.write w.tick := rfl
  by_cases fits : off ≤ (w.volume m).imageSize ∧
      d.length ≤ (w.volume m).imageSize - off
  · by_cases unblocked : (w.volume m).writeBlocked = false
    · rw [if_pos ⟨fits, unblocked⟩]
      simp only [volumeWrite, bind_run, gets_run, require_run, if_pos fits,
        if_pos unblocked, wrote_run, blockWrite_run, wrote_disk, wrote_device, env]
      cases (w.env.write w.tick).ok with
      | true => rfl
      | false => rfl
    · rw [if_neg fun both => unblocked both.2]
      simp [volumeWrite, bind_run, require_run, if_pos fits, if_neg unblocked]
  · rw [if_neg fun both => fits both.1]
    simp [volumeWrite, bind_run, require_run, if_neg fits]

variable {volume : Volume}

theorem Mount.Tidy.of_volume (tidy : mount.Tidy)
    (laid : volume.Laid) : { mount with volume := volume }.Tidy :=
  ⟨laid, tidy.mountpoint, tidy.files, tidy.dirs⟩

theorem Volume.Laid.of_layout {left right : Volume} (laid : left.Laid)
    (same : right.layout = left.layout) : right.Laid := by
  have moved : left.layout.Laid :=
    ⟨laid.fat, laid.fatEnd, laid.heapEnd, laid.cluster, laid.aligned, laid.count, laid.limit⟩
  rw [← same] at moved
  exact ⟨moved.fat, moved.fatEnd, moved.heapEnd, moved.cluster, moved.aligned, moved.count,
    moved.limit⟩

section

variable {w : World} (tidy : Tidy w)

include tidy

theorem Tidy.setVolume (layout : volume.layout = (w.volume m).layout) :
    Tidy (w.setMount m { w.mounts m with volume := volume }) := by
  have device : volume.device = (w.volume m).device := by
    have same : volume.layout.device = (w.volume m).layout.device := by rw [layout]
    exact same
  refine Tidy.setMount tidy ?_ ?_ ?_ ?_
  · rfl
  · rfl
  · exact device
  · intro used
    exact (tidy.mounts m used).of_volume ((tidy.mounts m used).laid.of_layout layout)

theorem Tidy.wrote : Tidy (w.wrote m) := tidy.setVolume rfl

theorem Tidy.halt : Tidy (w.halt m) := tidy.setVolume rfl

end

theorem Frame.wrote {m : Nat} : Frame m w (w.wrote m) :=
  ⟨Outline.setMount rfl rfl rfl rfl id fun _ => rfl, Level.setMount rfl,
    fun _ => Untouched.setMount rfl rfl rfl⟩

theorem Frame.halt {m : Nat} : Frame m w (w.halt m) :=
  ⟨Outline.setMount rfl rfl rfl rfl (fun _ => rfl) id, Level.setMount rfl,
    fun _ => Untouched.setMount rfl rfl rfl⟩

/-- A byte range that misses the volume flags. -/
def MissesFlags (offset length : Nat) : Prop := 108 ≤ offset ∨ offset + length ≤ 106

theorem MissesFlags.shorter {length shorter : Nat} (misses : MissesFlags off length)
    (fewer : shorter ≤ length) : MissesFlags off shorter := by
  cases misses with
  | inl above => exact .inl above
  | inr below => exact .inr (by omega)

variable {length : Nat}

theorem misses_of_boot (above : bootBytes ≤ off) : MissesFlags off length :=
  Or.inl (le_trans (by decide) above)

variable {disk : Disk}

theorem Disk.Recorded.put (logged : disk.Recorded) (off : Nat)
    (d : Bytes) : (disk.put off d).Recorded where
  positive := logged.positive
  whole := by
    intro e mem
    rcases List.mem_append.mp mem with new | old
    · exact writeEvents_wholeBlock new
    · exact logged.whole e old
  medium := by
    change disk.medium.write off d = replay disk.blockSize disk.origin
      (writeEvents disk.blockSize disk.medium off d ++ disk.trace)
    rw [replay_append, ← logged.medium, replay_writeEvents logged.positive]

theorem DiskFrame.put (logged : disk.Recorded)
    (misses : MissesFlags off d.length) : DiskFrame disk (disk.put off d) := by
  have kept : ∀ a, a = 106 ∨ a = 107 →
      disk.medium.write off d a = disk.medium a := by
    intro a place
    apply Store.write_outside
    unfold MissesFlags at misses
    omega
  exact ⟨⟨rfl, rfl, rfl, rfl, rfl, rfl⟩, kept 106 (.inl rfl), kept 107 (.inr rfl), _, rfl,
    fun e mem => writeEvents_leaves mem logged.positive (kept 106 (.inl rfl))⟩

theorem Tidy.setDisk (tidy : Tidy w) {device : Nat}
    (logged : disk.Recorded) : Tidy (w.setDisk device disk) := by
  refine ⟨tidy.bound, tidy.mounts, tidy.devices, tidy.mountpoints, ?_⟩
  intro j
  by_cases same : j = device
  · subst same
    rw [setDisk_self]
    exact logged
  · rw [setDisk_other same]
    exact tidy.recorded j

theorem Passage.setDisk {disk : Disk} : Passage m w (w.setDisk (w.volume m).device disk) :=
  ⟨rfl, fun _ _ => rfl, fun _ j => setDisk_other j, rfl, rfl, rfl, rfl, id⟩

theorem Frame.setDisk (f : DiskFrame (w.disk m) disk) (free : disk.medium = w.medium m ∨
      ((w.volume m).writeBlocked = false ∧ (w.volume m).mutationWritten = true)) :
    Frame m w (w.setDisk (w.volume m).device disk) := by
  have here : (w.setDisk (w.volume m).device disk).disk m = disk := by
    rw [World.disk, setDisk_volume, setDisk_self]
  refine ⟨⟨.setDisk, rfl, ?_, id, fun blocked => ?_⟩, ⟨⟨rfl, rfl, rfl⟩, rfl⟩,
    fun unwritten => ⟨rfl, rfl, rfl, ?_⟩⟩
  · rw [here]
    exact f
  · rw [medium, here]
    exact free.resolve_right fun open_ => nomatch blocked.symm.trans open_.1
  · rw [medium, here]
    exact free.resolve_right fun open_ => nomatch open_.2.symm.trans unwritten

theorem stored_keeps (tidy : Tidy w)
    (unblocked : (w.volume m).writeBlocked = false) (misses : MissesFlags off d.length) :
    Tidy (w.stored m off d) ∧ Frame m w (w.stored m off d) ∧
      ((w.stored m off d).volume m).mutationWritten = true := by
  have logged : (w.disk m).Recorded := tidy.recorded _
  have written : ((w.wrote m).volume m).mutationWritten = true := by simp [wrote]
  have open_ : ((w.wrote m).volume m).writeBlocked = false := by simpa [wrote] using unblocked
  refine ⟨tidy.wrote.tock.setDisk (logged.put off d), ?_, written⟩
  have last : Frame m (w.wrote m).tock (w.stored m off d) := by
    have device : ((w.wrote m).tock.volume m).device = (w.volume m).device := wrote_device
    rw [stored, ← device]
    apply Frame.setDisk
    · have disk : (w.wrote m).tock.disk m = w.disk m := wrote_disk
      rw [disk]
      exact DiskFrame.put logged misses
    · exact .inr ⟨open_, written⟩
  exact (Frame.wrote.trans (Frame.tock m _)).trans last

theorem volumeWrite_keeps (misses : MissesFlags off d.length) :
    Writes m base before (volumeWrite m off d) := by
  intro w start _
  rw [volumeWrite_run]
  by_cases admitted : (off ≤ (w.volume m).imageSize ∧
      d.length ≤ (w.volume m).imageSize - off) ∧
      (w.volume m).writeBlocked = false
  · rw [if_pos admitted]
    cases (w.env.write w.tick).ok with
    | true =>
      obtain ⟨tidy, f, written⟩ := stored_keeps start.tidy admitted.2 misses
      exact ⟨tidy, f, fun _ _ => ⟨trivial, fun _ => written⟩⟩
    | false =>
      obtain ⟨tidy, f, _⟩ := stored_keeps start.tidy admitted.2
        (misses.shorter (List.length_take_le' (w.env.write w.tick).reached d))
      exact ⟨tidy.halt, f.trans Frame.halt, nofun⟩
  · rw [if_neg admitted]
    exact ⟨start.tidy, Frame.refl, nofun⟩

theorem volumeRead_keeps {base : Path} :
    Keeps m base before (volumeRead m off length) before fun b => b.length = length := by
  refine .reads fun volume => ?_
  refine .check fun _ => ?_
  refine draw_keeps.bind fun _ _ => ?_
  refine check fun _ => ?_
  refine gets.weaken ?_
  rintro b ⟨w, _, rfl⟩
  exact Store.read_length ..

theorem volumeFlush_run :
    volumeFlush m w =
      if w.env.flush w.tick = true ∧ (w.disk m).flushable = true then
        (some (), w.tock.setDisk (w.volume m).device
          { w.disk m with trace := .flush :: (w.disk m).trace })
      else (none, w.tock.halt m) := by
  simp only [volumeFlush, bind_run, gets_run, draw_run, Bool.and_eq_true, ite_run]
  by_cases flushed : w.env.flush w.tick = true ∧ (w.disk m).flushable = true
  · rfl
  rw [if_neg flushed, if_neg flushed]
  simp [fail_run]

theorem volumeFlush_keeps : Neutral m base before (volumeFlush m) := by
  intro w start written
  rw [volumeFlush_run]
  have logged : (w.disk m).Recorded := start.tidy.recorded _
  split
  · refine ⟨start.tidy.tock.setDisk ⟨logged.positive, ?_, logged.medium⟩, ?_, ?_⟩
    · intro e mem
      rcases List.mem_cons.mp mem with rfl | old
      · trivial
      · exact logged.whole e old
    · refine (Frame.tock m w).trans (Frame.setDisk ?_ (.inl rfl))
      refine ⟨⟨rfl, rfl, rfl, rfl, rfl, rfl⟩, rfl, rfl, [.flush], rfl, fun e mem => ?_⟩
      cases List.mem_singleton.mp mem
      trivial
    · exact fun _ _ => ⟨trivial, written⟩
  · exact ⟨start.tidy.tock.halt, (Frame.tock m w).trans Frame.halt,
      nofun⟩

/-! ## Clusters and the FAT -/

theorem Volume.Laid.heap (laid : volume.Laid) : bootBytes ≤ volume.clusterHeapOffsetBytes :=
  laid.fat.trans ((le_add_right _ _).trans laid.fatEnd)

theorem Inside.laid (inside : Inside m base w) : (w.volume m).Laid :=
  (inside.tidy.mounts m inside.used).laid

variable {c size : Nat} {path : Path} {vfs : Vfs}

theorem clusterOffset_boot (laid : volume.Laid)
    (found : clusterOffset volume c = some off) : bootBytes ≤ off := by
  unfold clusterOffset at found
  split at found
  · cases found
  dsimp only at found
  split at found
  · cases found
  cases found
  exact laid.heap.trans (le_add_right _ _)

theorem volume_keeps : Keeps m base before (gets fun w => w.volume m) before Volume.Laid := by
  refine gets.weaken ?_
  rintro volume ⟨w, inside, rfl⟩
  exact inside.laid

theorem clusterBase_keeps :
    Keeps m base before (clusterBase m c) before fun off => bootBytes ≤ off := by
  refine volume_keeps.bind fun volume laid => ?_
  exact ofOption.weaken fun off found => clusterOffset_boot laid found

theorem nextCluster_keeps : Neutral m base before (nextCluster m c) :=
  of_reserving nextCluster_reserves

theorem writeFatEntry_keeps {c v : Nat} : Writes m base before (writeFatEntry m c v) := by
  refine volume_keeps.bind fun volume laid => ?_
  exact volumeWrite_keeps (misses_of_boot (laid.fat.trans (le_add_right _ _)))

theorem fillFatLoop_keeps {v fuel off b : Nat} (above : bootBytes ≤ off) :
    Neutral m base before (fillFatLoop m v fuel off b) := by
  induction fuel generalizing off b before with
  | zero => exact .pure trivial
  | succ fuel ih =>
    refine .stop fun _ => ?_
    refine (volumeWrite_keeps (misses_of_boot above)).relax.seq ?_
    exact ih (above.trans (le_add_right _ _))

theorem fillFatRange_keeps {first count v : Nat} :
    Neutral m base before (fillFatRange m first count v) := by
  refine volume_keeps.bind fun volume laid => ?_
  refine .check fun _ => ?_
  exact fillFatLoop_keeps (laid.fat.trans (le_add_right _ _))

/-! ## The node table -/

theorem Tidy.setVfs (tidy : Tidy w) : Tidy { w with vfs := vfs } :=
  ⟨tidy.bound, tidy.mounts, tidy.devices, tidy.mountpoints, tidy.recorded⟩

theorem Frame.setVfs (calm : (w.volume m).mutationWritten = false → vfs.nodes = w.vfs.nodes) :
    Frame m w { w with vfs := vfs } :=
  ⟨⟨⟨rfl, fun _ _ => rfl, fun _ _ => rfl, rfl, rfl, rfl, rfl, id⟩, rfl, .refl, id, fun _ => rfl⟩,
    ⟨⟨rfl, rfl, rfl⟩, rfl⟩, fun unwritten => ⟨rfl, rfl, calm unwritten, rfl⟩⟩

theorem updateVfs_keeps : Neutral m base true (updateVfs change) := by
  intro w start written
  refine ⟨start.tidy.setVfs, Frame.setVfs ?_, fun _ _ => ⟨trivial, written⟩⟩
  intro unwritten
  cases unwritten.symm.trans (written rfl)

theorem vfsReserveNodes_keeps {additional : Nat} :
    Neutral m base before (vfsReserveNodes additional) :=
  of_reserving vfsReserveNodes_reserves

theorem vfsRegister_keeps {type : NodeType} {d : Option (Nat × Nat)} {metadata : Option Metadata} :
    Neutral m base true (vfsRegister path type size d metadata) := by
  refine .reads fun vfs => ?_
  split
  · refine .check fun _ => ?_
    exact updateVfs_keeps
  refine vfsReserveNodes_keeps.seq ?_
  refine draw_keeps.bind fun _ _ => ?_
  exact updateVfs_keeps

theorem vfsUnregisterPath_keeps : Neutral m base true (vfsUnregisterPath path) := by
  refine .reads fun vfs => ?_
  refine .found fun _ _ => ?_
  exact updateVfs_keeps

theorem vfsSetMetadata_keeps {metadata : Metadata} :
    Neutral m base true (vfsSetMetadata path metadata) := by
  refine .reads fun vfs => ?_
  refine .found fun _ _ => ?_
  exact updateVfs_keeps

theorem vfsUpdateFileSize_keeps : Neutral m base true (vfsUpdateFileSize path size) := by
  refine .reads fun vfs => ?_
  refine .found fun _ _ => ?_
  refine draw_keeps.bind fun _ _ => ?_
  exact updateVfs_keeps

theorem vfsReplaceFilePath_keeps {oldPath newPath : Path} :
    Neutral m base true (vfsReplaceFilePath oldPath newPath) := by
  refine .reads fun vfs => ?_
  refine .found fun _ _ => ?_
  refine .found fun _ _ => ?_
  refine .found fun _ _ => ?_
  refine .found fun _ _ => ?_
  refine .check fun _ => ?_
  refine vfsUnregisterPath_keeps.seq ?_
  refine draw_keeps.bind fun _ _ => ?_
  exact updateVfs_keeps

end SrvrOS.Exfat
