import SrvrOS.Exfat.Served.Mount

/-!
# Reachable worlds

The step lemma of each request, put together, and the run lemma over a whole sequence: every
reachable world is at rest.
-/

namespace SrvrOS.Exfat

open Lib List Sample

theorem exfatSyncMountMetadata_syncs (m : Nat) (base : Path) :
    Neutral m base false (exfatSyncMountMetadata m) :=
  exfatSyncMountMetadata_keeps

variable {w start : World} {p : Path}

theorem exfatMetadataChanged_serves :
    Serves start (exfatMetadataChanged exfatSyncMountMetadata p) := by
  refine .asks fun w => ?_
  split
  · exact .done
  next m found =>
    refine .stop fun _ => .after .gets fun syncing => .stop fun _ => ?_
    exact mutation_serves_on (findMountForPath_some found).1
      (mutationCapacity_keeps.bind fun _ _ => exfatSyncMountMetadataImpl_keeps)

theorem vfsChange_serves {change : Nat → Metadata → Metadata} :
    Serves start (vfsChange p change) := by
  refine .after .gets fun vfs => .after .ofOption fun slot => .after .ofOption fun old => ?_
  refine .after (reserves_stays (m := 0) (draw_reserves _)) fun now => ?_
  exact .after updateVfs_stays fun _ => exfatMetadataChanged_serves.onFailure updateVfs_stays

theorem step_served (resting : Resting w) (r : Request) : Served w (step w r).2 := by
  cases r with
  | writeFile p data mode =>
    obtain ⟨verdict, next, run, served, _⟩ :=
      writeFileModeResult_served exfatSyncMountMetadata_syncs resting p data mode
    rw [step, respond, run]
    exact served
  | createDirectory p mode =>
    exact (exfatCreateDirectoryMode_serves exfatSyncMountMetadata_syncs).served resting
  | deleteFile p =>
    exact (exfatDeleteFile_serves exfatSyncMountMetadata_syncs).served resting
  | deleteDirectory p =>
    exact (exfatDeleteDirectory_serves exfatSyncMountMetadata_syncs).served resting
  | rename oldPath newPath =>
    exact (exfatRename_serves exfatSyncMountMetadata_syncs).served resting
  | replaceFile oldPath newPath =>
    exact (exfatReplaceFile_serves exfatSyncMountMetadata_syncs oldPath newPath).served resting
  | streamOpenRead p => exact (Serves.of_stays exfatStreamOpenRead_stays).served resting
  | streamCreate p mode => exact exfatStreamCreate_serves.served resting
  | streamPread token length offset =>
    exact (Serves.of_stays exfatStreamPread_stays).served resting
  | streamAppend token data => exact exfatStreamAppend_serves.served resting
  | streamSync token => exact exfatStreamSync_serves.served resting
  | streamClose token => exact exfatStreamClose_serves.served resting
  | readAll p => exact (Serves.of_stays vfsReadAll_stays).served resting
  | chmod p mode => exact vfsChange_serves.served resting
  | utime p atime mtime =>
    refine Serves.served (.after .gets fun vfs => .after .ofOption fun _ => ?_) resting
    exact .stop fun _ => vfsChange_serves
  | mount mountpoint d clean =>
    exact exfatMountBlockDevice_serves.served resting
  | unmount mountpoint => exact exfatUnmount_serves.served resting

theorem Boot.resting (boot : Boot w) : Resting w := by
  have unused : ∀ m, (w.mounts m).used = false := by
    intro m
    rw [boot.mounts]
    rfl
  have idle : ∀ {m : Nat}, (w.mounts m).used = true → False := by
    intro m used
    cases used.symm.trans (unused m)
  refine ⟨⟨fun m _ => unused m, fun m used => (idle used).elim, fun left _ used =>
    (idle used).elim, fun left _ used => (idle used).elim, ?_⟩, fun m used => (idle used).elim, ?_,
    fun m used => (idle used).elim⟩
  · intro d
    refine ⟨boot.blocks d, ?_, ?_⟩
    · intro e mem
      rw [boot.trace] at mem
      exact absurd mem not_mem_nil
    · rw [boot.trace, boot.origin]
      rfl
  intro d
  refine .inl ?_
  intro e mem
  rw [boot.trace] at mem
  exact absurd mem not_mem_nil

theorem reach_resting {start : World} (boot : Boot start) (requests : List Request) :
    Resting (reach start requests) :=
  run_invariant step Resting (fun _ r resting => (step_served resting r).resting)
    boot.resting requests

theorem Reachable.resting (reachable : Reachable w) : Resting w := by
  obtain ⟨start, requests, boot, rfl⟩ := reachable
  exact reach_resting boot requests

/-- The sample run, evaluated once for all that is said of it below. -/
theorem sample_run :
    ((mounted.mounts 0).used = true ∧ (mounted.volume 0).writeBlocked = false) ∧
      (mounted.disks 0).trace.length = 0 ∧ crashTrace.length = 20 ∧
      (undecided crashTrace).length = 1 ∧ ¬DirtyByte (survivor 106) := by
  decide +kernel

/-- Between operations no mutation is open, and an open volume is marked clean. -/
theorem mounts_rest (start : { w // Boot w }) (requests : List Request) :
    let w := reach start requests
    Tidy w ∧ ∀ m, (w.mounts m).used = true → (w.volume m).mutationDepth = 0 ∧
      ((w.volume m).writeBlocked = false → ¬DirtyByte (w.medium m 106)) := by
  have resting := reach_resting start.2 requests
  exact ⟨resting.tidy, fun m used => ⟨resting.depth m used, resting.clean m used⟩⟩

theorem mounts_rest_sample :
    (mounted.volume 0).mutationDepth = 0 ∧ ¬DirtyByte (mounted.medium 0 106) := by
  have rest := mounts_rest ⟨powerOn 1000, powerOn_boot⟩ [mountRequest]
  dsimp only at rest
  rw [← mounted] at rest
  obtain ⟨⟨used, writable⟩, -⟩ := sample_run
  obtain ⟨depth, clean⟩ := rest.2 0 used
  exact ⟨depth, clean writable⟩

/-!
## Retryable failures are atomic

`write_file_mode_result` reports a failure as retryable only when nothing but the volume
flags has been touched and the volume is clean and open again.
-/

/-- A failed write that may be tried again leaves everything but the two flag bytes as it was. -/
structure Unspoiled (m : Nat) (before after : World) : Prop where
  media : ∀ device address, ¬(device = (before.volume m).device ∧
    (address = 106 ∨ address = 107)) →
    (after.disks device).medium address = (before.disks device).medium address
  writable : (after.volume m).writeBlocked = false
  flags : volumeDirty (after.volume m).flags = false
  marker : ¬DirtyByte (after.medium m 106)
  files : ∀ k, (after.mounts k).files = (before.mounts k).files
  dirs : ∀ k, (after.mounts k).dirs = (before.mounts k).dirs
  nodes : after.vfs.nodes = before.vfs.nodes

theorem Quiet.media {m : Nat} {old after : World} (quiet : Quiet m old after) (d a : Nat)
    (outside : ¬(d = (old.volume m).device ∧ (a = 106 ∨ a = 107))) :
    (after.disks d).medium a = (old.disks d).medium a := by
  by_cases here : d = (old.volume m).device
  · have bytes := quiet.bytes a (fun low => outside ⟨here, .inl low⟩)
      fun high => outside ⟨here, .inr high⟩
    unfold World.medium World.disk at bytes
    rw [quiet.device, ← here] at bytes
    exact bytes
  · rw [quiet.disks d here]

/-- A refused write that is reported as retryable has left everything as it was. -/
theorem retryableWrite_atomic (world : World) (reachable : Reachable world) (path : Path)
    (data : Bytes) (mode : Option Nat)
    (retryable : (writeFileModeResult exfatSyncMountMetadata path data mode world).1 =
      some (false, true)) :
    ∃ m, findMountForPath world path = some m ∧ Unspoiled m world
      (writeFileModeResult exfatSyncMountMetadata path data mode world).2 := by
  obtain ⟨verdict, next, run, served, retry⟩ := writeFileModeResult_served
    exfatSyncMountMetadata_syncs reachable.resting path data mode
  rw [run] at retryable ⊢
  cases retryable
  obtain ⟨m, found, _, quiet, open_, clean⟩ := retry rfl
  have used := quiet.used.trans (findMountForPath_some found).1
  refine ⟨m, found, quiet.media, open_, clean, served.resting.clean m used open_, ?_, ?_,
    quiet.nodes⟩
  · intro k
    by_cases here : k = m
    · rw [here]
      exact quiet.files
    · rw [quiet.others k here]
  intro k
  by_cases here : k = m
  · rw [here]
    exact quiet.dirs
  · rw [quiet.others k here]

/-- On the sample volume, with the heap exhausted when the first write reserves its
tables. -/
theorem retryableWrite_atomic_sample :
    ∃ m, findMountForPath (reach (powerOn 43) [mountRequest])
        (mountpoint ++ ascii ['/', 'a']) = some m ∧
      Unspoiled m (reach (powerOn 43) [mountRequest])
        (writeFileModeResult exfatSyncMountMetadata (mountpoint ++ ascii ['/', 'a']) [1]
          none (reach (powerOn 43) [mountRequest])).2 :=
  retryableWrite_atomic _ ⟨_, _, powerOn_boot, rfl⟩ _ [1] none (by decide +kernel)

/-!
## No clean marker over unfinished work

A crash keeps what was flushed and any part of the later block writes. Whenever the
surviving medium does not carry the dirty flag, its other blocks are those of the state
before the operation in progress or of the state after it.
-/

/-- A medium a crash of this disk may leave once its trace has come to `trace`. -/
def Disk.Survives (disk : Disk) (trace : List (Event UInt8)) (store : Store UInt8) : Prop :=
  Survivor disk.blockSize disk.origin trace store

/-- The clean-marker step of an operation that ends with `result`: only flags are undecided, and the
rest of the medium is there. -/
def Disk.AtMarker (disk : Disk) (trace : List (Event UInt8)) (result : Store UInt8) : Prop :=
  Lib.Settled (FlagBlock disk.blockSize) trace ∧
    disk.Agree (replay disk.blockSize disk.origin trace) result

/-- A crash anywhere in a journal without the dirty flag exposes one of its two ends. -/
theorem Journal.survivor {old after : Disk} (journal : Journal old after) (recorded : old.Recorded)
    {trace : List (Event UInt8)} (lower : old.trace <:+ trace) (upper : trace <:+ after.trace)
    {store : Store UInt8} (survives : old.Survives trace store) (clean : ¬DirtyByte (store 106)) :
    old.Agree store old.medium ∨ old.AtMarker trace after.medium ∧
      old.Agree store after.medium := by
  have whole : ∀ e ∈ trace, e.WholeBlock old.blockSize := by
    intro e mem
    rw [← journal.device.blockSize]
    exact journal.recorded.whole e (upper.subset mem)
  rcases journal.through.between lower upper with covered | covered
  · exact .inl (covered.survivor recorded.positive whole survives clean)
  · have exposed := covered.survivor recorded.positive whole survives clean
    rcases covered with marked | settled
    · exact absurd (survives.leaves whole marked.2 marked.1 recorded.positive) clean
    · exact .inr ⟨settled, exposed⟩

/-- Over every run, at every crash point of its next operation, a surviving medium whose dirty flag
is clear has in every other sector what the medium held after the last operation, or, at the
clean-marker step of the one in progress, what it holds after that. -/
theorem cleanMarker_crashSafe (start : World) (boot : Boot start) (requests : List Request)
    (request : Request) (device : Nat) (trace : List (Event UInt8))
    (lower : ((reach start requests).disks device).trace <:+ trace)
    (upper : trace <:+ ((reach start (requests ++ [request])).disks device).trace)
    (store : Store UInt8) (survives : ((reach start requests).disks device).Survives trace store)
    (clean : ¬DirtyByte (store 106)) :
    ((reach start requests).disks device).Agree store ((reach start requests).disks device).medium ∨
      ((reach start requests).disks device).AtMarker trace
          ((reach start (requests ++ [request])).disks device).medium ∧
        ((reach start requests).disks device).Agree store
          ((reach start (requests ++ [request])).disks device).medium := by
  have resting := reach_resting boot requests
  have next : reach start (requests ++ [request]) = (step (reach start requests) request).2 :=
    run_append step start requests [request]
  rw [next] at upper ⊢
  exact ((step_served resting request).journal device).survivor
    (resting.tidy.recorded device) lower upper survives clean

/-- A crash in the first write to the sample volume: the clean marker is not flushed yet. -/
theorem cleanMarker_crashSafe_sample :
    ((mounted.disks 0).trace.length = 0 ∧ crashTrace.length = 20 ∧
      (undecided crashTrace).length = 1 ∧ ¬DirtyByte (survivor 106)) ∧
    ((mounted.disks 0).Agree survivor (mounted.disks 0).medium ∨
      (mounted.disks 0).AtMarker crashTrace (written.disks 0).medium ∧
        (mounted.disks 0).Agree survivor (written.disks 0).medium) := by
  obtain ⟨-, facts⟩ := sample_run
  have lower : (mounted.disks 0).trace <:+ crashTrace := by
    rw [length_eq_zero_iff.mp facts.1]
    exact nil_suffix
  have upper : crashTrace <:+ (written.disks 0).trace := tail_suffix (written.disks 0).trace
  have survives : (mounted.disks 0).Survives crashTrace survivor := ⟨_, .refl _, rfl⟩
  have safe := cleanMarker_crashSafe (powerOn 1000) powerOn_boot [mountRequest] writeRequest 0
    crashTrace
  rw [← mounted, ← written] at safe
  exact ⟨facts, safe lower upper survivor survives facts.2.2.2⟩

end SrvrOS.Exfat
