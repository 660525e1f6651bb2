import SrvrOS.Exfat.Marker

/-!
# The outermost mutation

An outermost mutation marks the volume dirty, runs its body, and publishes the clean marker or
leaves the volume quarantined. It ends with the tables tidy and the disk at rest, and a refusal
that may be retried has changed nothing but the flags.
-/

namespace SrvrOS.Exfat

open Lib Act World UInt8 Reserved

variable {w first second third : World} {disk : Disk}

/-! ## Between two operations -/

/-- The driver's tables and disks while no mutation is open. -/
structure Resting (world : World) : Prop where
  tidy : Tidy world
  depth : ∀ m, (world.mounts m).used = true → (world.volume m).mutationDepth = 0
  rest : ∀ device, (world.disks device).AtRest
  clean : ∀ m, (world.mounts m).used = true → (world.volume m).writeBlocked = false →
    ¬DirtyByte (world.medium m 106)

variable {m : Nat}

theorem Resting.settled (resting : Resting w) (used : (w.mounts m).used = true)
    (unblocked : (w.volume m).writeBlocked = false) : (w.disk m).Settled := by
  rcases resting.rest (w.volume m).device with settled | marked
  · exact settled
  · exact absurd (marked.dirty (resting.tidy.recorded _)) (resting.clean m used unblocked)

/-- An operation that changed nothing but the volume flags. -/
structure Quiet (m : Nat) (before after : World) : Prop extends Passage m before after where
  files : (after.mounts m).files = (before.mounts m).files
  dirs : (after.mounts m).dirs = (before.mounts m).dirs
  nodes : after.vfs.nodes = before.vfs.nodes
  bytes : ∀ address, address ≠ 106 → address ≠ 107 →
    after.medium m address = before.medium m address

variable {m : Nat} {base : Path} {old new w : World}

theorem Quiet.refl : Quiet m w w := ⟨Passage.refl, rfl, rfl, rfl, fun _ _ _ => rfl⟩

theorem Quiet.trans (left : Quiet m first second) (right : Quiet m second third) :
    Quiet m first third where
  toPassage := left.toPassage.trans right.toPassage
  files := right.files.trans left.files
  dirs := right.dirs.trans left.dirs
  nodes := right.nodes.trans left.nodes
  bytes a low high := (right.bytes a low high).trans (left.bytes a low high)

theorem Outline.quiet (outline : Outline m old new) (eq : Untouched m old new) : Quiet m old new :=
  ⟨outline.toPassage, eq.files, eq.dirs, eq.nodes, fun a _ _ => by rw [eq.medium]⟩

theorem SameCore.quiet (eq : SameCore m old new) : Quiet m old new :=
  eq.outline.quiet eq.untouched

theorem Quiet.setMount {mount : Mount} (layout : mount.volume.layout = (w.volume m).layout)
    (used : mount.used = (w.mounts m).used)
    (mountpoint : mount.mountpoint = (w.mounts m).mountpoint)
    (f : mount.files = (w.mounts m).files) (dirs : mount.dirs = (w.mounts m).dirs)
    (blocked : (w.volume m).writeBlocked = true → mount.volume.writeBlocked = true) :
    Quiet m w (w.setMount m mount) := by
  have eq : Untouched m w (w.setMount m mount) := .setMount layout f dirs
  exact ⟨.setMount layout used mountpoint blocked, eq.files, eq.dirs, eq.nodes,
    fun a _ _ => by rw [eq.medium]⟩

theorem Quiet.setDisk (bytes : ∀ a, a ≠ 106 → a ≠ 107 → disk.medium a = w.medium m a) :
    Quiet m w (w.setDisk (w.volume m).device disk) := by
  refine ⟨.setDisk, rfl, rfl, rfl, fun a low high => ?_⟩
  rw [World.medium, World.disk, setDisk_volume, setDisk_self]
  exact bytes a low high

theorem Quiet.tidy (quiet : Quiet m old new) (tidy : Tidy old)
    (logged : (new.disk m).Recorded) : Tidy new := by
  refine tidy.transfer (fun k => ?_) (fun k inUse => ?_) fun other => ?_
  · rcases eq_or_ne k m with rfl | apart
    · exact ⟨quiet.used, quiet.mountpoint, quiet.device⟩
    rw [volume, quiet.others k apart]
    exact ⟨rfl, rfl, rfl⟩
  · have ordered := tidy.mounts k inUse
    rcases eq_or_ne k m with rfl | apart
    · refine ⟨ordered.laid.of_layout quiet.layout, ?_, ?_, ?_⟩
      · rw [quiet.mountpoint]
        exact ordered.mountpoint
      · rw [quiet.files, quiet.mountpoint]
        exact ordered.files
      · rw [quiet.dirs, quiet.mountpoint]
        exact ordered.dirs
    · rw [quiet.others k apart]
      exact ordered
  by_cases here : other = (old.volume m).device
  · rw [here, ← quiet.device]
    exact logged
  · rw [quiet.disks other here]
    exact tidy.recorded other

/-! ## Writing the flags -/

/-- A step that changes nothing but the flags and the quarantine. -/
structure Marking (m : Nat) (before after : World) : Prop extends
  Quiet m before after, Counters before after where
  depth : (after.volume m).mutationDepth = (before.volume m).mutationDepth
  written : (after.volume m).mutationWritten = (before.volume m).mutationWritten

theorem Marking.refl : Marking m w w := ⟨Quiet.refl, Counters.refl, rfl, rfl⟩

theorem Marking.trans (left : Marking m first second) (right : Marking m second third) :
    Marking m first third :=
  ⟨left.toQuiet.trans right.toQuiet, left.toCounters.trans right.toCounters,
    right.depth.trans left.depth, right.written.trans left.written⟩

def World.putFlags (world : World) (m : Nat) (data : Bytes) : World :=
  world.tock.setDisk (world.volume m).device ((world.disk m).put 106 data)

def World.label (world : World) (m flags : Nat) : World :=
  world.setMount m
    { world.mounts m with volume := { world.volume m with flags := flags } }

def World.flush (world : World) (m : Nat) : World :=
  world.tock.setDisk (world.volume m).device (world.disk m).flushed

theorem putFlags_disk (data : Bytes) : (w.putFlags m data).disk m = (w.disk m).put 106 data := by
  exact setDisk_self

theorem flush_disk (w : World) (m : Nat) : (w.flush m).disk m = (w.disk m).flushed := by
  exact setDisk_self

theorem label_disk (flags : Nat) : (w.label m flags).disk m = w.disk m := setMount_disk rfl

theorem halt_disk : (w.halt m).disk m = w.disk m := setMount_disk rfl

theorem Marking.tock (m : Nat) (w : World) : Marking m w w.tock :=
  ⟨(Reserved.tock m w).quiet, ⟨rfl, rfl, rfl⟩, rfl, rfl⟩

theorem Marking.putFlags (w : World) {data : Bytes} (short : data.length ≤ 2) :
    Marking m w (w.putFlags m data) := by
  refine (Marking.tock m w).trans ⟨Quiet.setDisk ?_, ⟨rfl, rfl, rfl⟩, rfl, rfl⟩
  exact fun a low high => flagWrite_outside short ⟨low, high⟩

theorem Marking.flush (m : Nat) (w : World) : Marking m w (w.flush m) :=
  (Marking.tock m w).trans ⟨Quiet.setDisk fun _ _ _ => rfl, ⟨rfl, rfl, rfl⟩, rfl, rfl⟩

variable {w : World}

theorem Marking.label (m flags : Nat) : Marking m w (w.label m flags) := by
  refine ⟨Quiet.setMount rfl rfl rfl rfl rfl id, ⟨rfl, rfl, rfl⟩, ?_, ?_⟩
  · rw [World.label, setMount_volume]
  · rw [World.label, setMount_volume]

variable {m : Nat}

theorem Marking.halt : Marking m w (w.halt m) := by
  refine ⟨Quiet.setMount rfl rfl rfl rfl rfl fun _ => rfl, ⟨rfl, rfl, rfl⟩, ?_, ?_⟩
  · rw [World.halt, setMount_volume]
  · rw [World.halt, setMount_volume]

theorem halt_blocked : ((w.halt m).volume m).writeBlocked = true := by
  rw [halt, setMount_volume]

theorem flush_cases :
    volumeFlush m w = (some (), w.flush m) ∨
      volumeFlush m w = (none, w.tock.halt m) := by
  rw [volumeFlush_run]
  split
  · exact .inl rfl
  · exact .inr rfl

/-- `write_volume_flags` stores the flags durably, or some of their bytes and fails. -/
theorem writeVolumeFlags_cases {m flags : Nat} :
    ∃ next, Marking m w next ∧
      ((writeVolumeFlags m flags w = (some (), next) ∧
          next.disk m = ((w.disk m).put 106 (leBytes 2 flags)).flushed ∧
          (next.volume m).flags = flags ∧
          (next.volume m).writeBlocked = (w.volume m).writeBlocked) ∨
        (writeVolumeFlags m flags w = (none, next) ∧ ∃ n,
          next.disk m = (w.disk m).put 106 ((leBytes 2 flags).take n))) := by
  have full : (leBytes 2 flags).length ≤ 2 := leBytes_length.le
  simp only [writeVolumeFlags, bind_run, blockWrite_run]
  cases (w.env.write w.tick).ok with
  | false =>
    refine ⟨w.putFlags m ((leBytes 2 flags).take (w.env.write w.tick).reached),
      Marking.putFlags w ((List.length_take_le' ..).trans full),
      Or.inr ⟨rfl, _, putFlags_disk ..⟩⟩
  | true =>
    have start := (Marking.putFlags (m := m) w full).trans (Marking.label m flags)
    have stored : ((w.putFlags m (leBytes 2 flags)).label m flags).disk m =
        (w.disk m).put 106 (leBytes 2 flags) := by
      rw [label_disk, putFlags_disk]
    have shown : (((w.putFlags m (leBytes 2 flags)).label m flags).volume m).flags = flags := by
      rw [label, setMount_volume]
    have open_ : (((w.putFlags m (leBytes 2 flags)).label m flags).volume m).writeBlocked =
        (w.volume m).writeBlocked := by
      rw [label, setMount_volume]
      rfl
    rcases flush_cases with run | run
    · refine ⟨_, start.trans (Marking.flush m _), .inl ⟨run, ?_, shown, open_⟩⟩
      rw [flush_disk, stored]
    refine ⟨_, start.trans ((Marking.tock m _).trans Marking.halt), .inr ⟨run, 2, ?_⟩⟩
    rw [halt_disk]
    exact stored

theorem flagByte (store : Store UInt8) (flags n : Nat) :
    store.write 106 ((leBytes 2 flags).take n) 106 =
      if n = 0 then store 106 else ofNat (flags % 256) := by
  cases n with
  | zero => rw [if_pos rfl, List.take_zero, Store.write_nil]
  | succ n =>
    have first : ((leBytes 2 flags).take (n + 1))[0]? = some (ofNat (flags % 256)) := rfl
    exact Store.write_inside store first

theorem dirtyByte_ofNat {flags : Nat} :
    DirtyByte (ofNat (flags % 256)) ↔ volumeDirty flags = true := by
  have value : (ofNat (flags % 256)).toNat = flags % 256 := by simp
  unfold DirtyByte volumeDirty
  rw [beq_iff_eq]
  omega

theorem volumeDirty_setDirty {flags : Nat} : volumeDirty (setDirty flags) = true := by
  unfold setDirty
  split
  next dirty => exact dirty
  next clean =>
    unfold volumeDirty at clean ⊢
    rw [beq_iff_eq] at clean ⊢
    omega

theorem volumeDirty_clearDirty {flags : Nat} : volumeDirty (clearDirty flags) = false := by
  unfold clearDirty
  split
  next dirty =>
    unfold volumeDirty at dirty ⊢
    rw [beq_iff_eq] at dirty
    rw [beq_eq_false_iff_ne]
    omega
  next clean => exact Bool.eq_false_iff.mpr clean

theorem volumeDirty_clearToZero {flags : Nat} (dirty : volumeDirty flags = true) :
    volumeDirty (clearToZero flags) = true := by
  unfold clearToZero
  split
  · unfold volumeDirty at dirty ⊢
    rw [beq_iff_eq] at dirty ⊢
    omega
  · exact dirty

theorem SettledStep.flags (logged : disk.Recorded) (settled : disk.Settled) (flags n : Nat) :
    SettledStep disk (disk.put 106 ((leBytes 2 flags).take n)) :=
  SettledStep.put logged settled
    ((List.length_take_le' ..).trans leBytes_length.le)

theorem MarkedStep.flags (logged : disk.Recorded) (marked : disk.Marked) {flags : Nat}
    (dirty : volumeDirty flags = true) (n : Nat) :
    MarkedStep disk (disk.put 106 ((leBytes 2 flags).take n)) := by
  apply MarkedStep.put logged marked
  rw [flagByte]
  split
  · exact marked.dirty logged
  · exact dirtyByte_ofNat.mpr dirty

theorem writeVolumeFlags_settled (logged : (w.disk m).Recorded)
    (settled : (w.disk m).Settled) {flags : Nat} :
    SettledStep (w.disk m) ((writeVolumeFlags m flags w).2.disk m) := by
  obtain ⟨next, _, ⟨run, disk, _⟩ | ⟨run, n, disk⟩⟩ := writeVolumeFlags_cases
  · rw [run, disk]
    have stored := SettledStep.flags logged settled flags 2
    exact stored.trans (SettledStep.flushed stored.recorded stored.settled)
  · rw [run, disk]
    exact SettledStep.flags logged settled flags n

theorem writeVolumeFlags_marked (logged : (w.disk m).Recorded)
    (marked : (w.disk m).Marked) {flags : Nat} (dirty : volumeDirty flags = true) :
    MarkedStep (w.disk m) ((writeVolumeFlags m flags w).2.disk m) := by
  obtain ⟨next, _, ⟨run, disk, _⟩ | ⟨run, n, disk⟩⟩ := writeVolumeFlags_cases
  · rw [run, disk]
    have stored := MarkedStep.flags logged marked dirty 2
    exact stored.trans (MarkedStep.flushed stored.recorded stored.marked)
  · rw [run, disk]
    exact MarkedStep.flags logged marked dirty n

theorem writeVolumeFlags_marking (flags : Nat) : Marking m w (writeVolumeFlags m flags w).2 := by
  obtain ⟨next, marking, ⟨run, _⟩ | ⟨run, _⟩⟩ := writeVolumeFlags_cases
  · rw [run]
    exact marking
  · rw [run]
    exact marking

/-! ## Closing the outermost mutation -/

/-- The dirty marker again, after the clean one could not be published. -/
def World.condemn (world : World) (m : Nat) : World :=
  (writeVolumeFlags m (setDirty (world.volume m).flags) (world.halt m)).2

theorem Marking.condemn : Marking m w (w.condemn m) :=
  Marking.halt.trans (writeVolumeFlags_marking ..)

theorem condemn_blocked : ((w.condemn m).volume m).writeBlocked = true :=
  (writeVolumeFlags_marking ..).blocked halt_blocked

theorem halt_flags : ((w.halt m).volume m).flags = (w.volume m).flags := by
  rw [halt, setMount_volume]

theorem condemn_run :
    (do
      updateVolume m ({ · with writeBlocked := true })
      let volume ← gets (·.volume m)
      ignore (writeVolumeFlags m (setDirty volume.flags)) : Driver Unit) w =
        (some (), w.condemn m) := by
  rw [condemn, ← halt_flags]
  rfl

theorem publishClean_run :
    publishClean m w = (some (),
      match volumeFlush m w with
      | (none, next) => next.condemn m
      | (some (), next) =>
        match writeVolumeFlags m (clearDirty (w.volume m).flags) next with
        | (some (), last) => last
        | (none, last) => last.condemn m) := by
  simp only [publishClean, bind_run, gets_run, attempt_run]
  rcases volumeFlush m w with ⟨_ | _, next⟩
  · exact condemn_run
  dsimp only
  rcases writeVolumeFlags m (clearDirty (w.volume m).flags) next with ⟨_ | _, last⟩
  · exact condemn_run
  · rfl

section

variable (logged : (w.disk m).Recorded)

include logged

theorem condemn_settled (settled : (w.disk m).Settled) :
    SettledStep (w.disk m) ((w.condemn m).disk m) := by
  rw [← halt_disk] at logged settled ⊢
  exact writeVolumeFlags_settled logged settled

theorem condemn_marked (marked : (w.disk m).Marked) :
    MarkedStep (w.disk m) ((w.condemn m).disk m) := by
  rw [← halt_disk] at logged marked ⊢
  exact writeVolumeFlags_marked logged marked volumeDirty_setDirty

theorem publishClean_outer (marked : (w.disk m).Marked) :
    ∃ next, publishClean m w = (some (), next) ∧ Marking m w next ∧
      (∀ first, MarkedStep first (w.disk m) → Journal first (next.disk m)) ∧
      ((next.volume m).writeBlocked = false →
        ¬DirtyByte (next.medium m 106) ∧ volumeDirty (next.volume m).flags = false) := by
  refine ⟨_, publishClean_run, ?_⟩
  rcases flush_cases with flushed | flushed
  · rw [flushed]
    dsimp only
    have start := Marking.flush m w
    have disk₁ := flush_disk w m
    have marked₁ := MarkedStep.flushed logged marked
    have settled₁ := (Disk.flush_marks logged (marked.dirty logged)).2
    have step : SettledStep ((w.flush m).disk m) ((writeVolumeFlags m
        (clearDirty (w.volume m).flags) (w.flush m)).2.disk m) := by
      apply writeVolumeFlags_settled
      · rw [disk₁]
        exact marked₁.recorded
      · rw [disk₁]
        exact settled₁
    rw [disk₁] at step
    obtain ⟨next, marking, ⟨run, disk, flags, _⟩ | ⟨run, _⟩⟩ := writeVolumeFlags_cases
    · rw [run] at step ⊢
      refine ⟨start.trans marking, fun first work => (work.trans marked₁).settle step, ?_⟩
      rw [flags]
      have byte : next.medium m 106 = ofNat (clearDirty (w.volume m).flags % 256) := by
        rw [medium, disk]
        exact flagByte ((w.flush m).disk m).medium _ 2
      rw [byte, dirtyByte_ofNat, volumeDirty_clearDirty]
      simp
    rw [run] at step ⊢
    refine ⟨start.trans (marking.trans Marking.condemn), fun first work => ?_,
      fun open_ => absurd open_ (by rw [condemn_blocked]; simp)⟩
    exact (work.trans marked₁).settle (step.trans (condemn_settled step.recorded step.settled))
  rw [flushed]
  have disk₁ : (w.tock.halt m).disk m = w.disk m := halt_disk
  refine ⟨((Marking.tock m w).trans Marking.halt).trans Marking.condemn,
    fun first work => ?_, fun open_ => absurd open_ (by rw [condemn_blocked]; simp)⟩
  have again : MarkedStep (w.disk m) (((w.tock.halt m).condemn m).disk m) := by
    rw [← disk₁] at logged marked ⊢
    exact condemn_marked logged marked
  exact (work.trans again).journal

end

/-! ## Opening the outermost mutation -/

/-- The world in which the body of an outermost mutation starts. -/
structure Opened (m : Nat) (base : Path) (world opened : World) : Prop extends
  Quiet m world opened where
  inside : Inside m base opened
  level : (opened.volume m).mutationDepth = 1
  written : (opened.volume m).mutationWritten = false
  unblocked : (opened.volume m).writeBlocked = false
  step : SettledStep (world.disk m) (opened.disk m)
  marked : (opened.disk m).Marked
  operations : opened.fsOperations = world.fsOperations + 1
  syncing : opened.metadataSyncing = world.metadataSyncing
  streams : opened.streamMutationDepth = world.streamMutationDepth

/-- A mutation that was refused before its body. -/
structure Refused (m : Nat) (world next : World) (retryable : Bool) : Prop extends
  Quiet m world next, Counters world next where
  level : (next.volume m).mutationDepth = (world.volume m).mutationDepth
  journal : Journal (world.disk m) (next.disk m)
  idle : (next.volume m).writeBlocked = false ∨ (world.volume m).writeBlocked = true →
    next.disk m = world.disk m
  retry : retryable = true →
    (next.volume m).writeBlocked = false ∧ volumeDirty (next.volume m).flags = false

/-- The world with `mutation_written` withdrawn. -/
def World.unwritten (world : World) (m : Nat) : World :=
  world.setMount m
    { world.mounts m with volume := { world.volume m with mutationWritten := false } }

@[simp] theorem unwritten_run : updateVolume m ({ · with mutationWritten := false }) w =
      (some (), w.unwritten m) := (rfl)

theorem Quiet.unwritten : Quiet m w (w.unwritten m) := Quiet.setMount rfl rfl rfl rfl rfl id

theorem unwritten_disk : (w.unwritten m).disk m = w.disk m := setMount_disk rfl

theorem mutationAdmit_outer (resting : Resting w) (used : (w.mounts m).used = true)
    (p : Option Path) (f dirs : Nat) :
    (∃ next retryable, mutationAdmit m p f dirs w =
        (some (.refused retryable), next) ∧ Refused m w next retryable) ∨
      ∃ next, mutationAdmit m p f dirs w = (some .begun, next.deepen m) ∧
        Quiet m w next ∧ Counters w next ∧ (next.volume m).mutationDepth = 0 ∧
        (next.volume m).mutationWritten = false ∧ (next.volume m).writeBlocked = false ∧
        SettledStep (w.disk m) (next.disk m) ∧ (next.disk m).Marked := by
  have logged : (w.disk m).Recorded := resting.tidy.recorded _
  have shallow := resting.depth m used
  have calm : ∀ {next : World} {retryable : Bool}, Reserved m w next →
      (retryable = true → (w.volume m).writeBlocked = false ∧
        volumeDirty (w.volume m).flags = false) → Refused m w next retryable := by
    intro next retryable eq retry
    refine ⟨eq.quiet, eq.toCounters, by rw [eq.volume], ?_, fun _ => congrFun eq.disk m, ?_⟩
    · rw [eq.disk]
      exact Journal.refl logged (resting.rest _)
    · rw [eq.volume]
      exact retry
  have drawn := tock m w
  simp only [mutationAdmit, bind_run, gets_run, draw_run, tock_volume]
  by_cases denied : (!w.env.online w.tick || !(w.disk m).writable ||
      !(w.disk m).flushable || (w.volume m).writeBlocked) = true
  · rw [if_pos denied]
    exact .inl ⟨w.tock, false, rfl, calm drawn fun h => absurd h Bool.false_ne_true⟩
  rw [if_neg denied]
  have unblocked : (w.volume m).writeBlocked = false := by
    simp only [Bool.or_eq_true, Bool.not_eq_true', Bool.not_eq_true, Bool.not_eq_false,
      not_or] at denied
    exact denied.2
  have reserve : Reserved m w (reserveMutation m p f dirs w.tock).2 :=
    (reserving m).trans drawn (reserveMutation_reserves p w.tock)
  rcases out : reserveMutation m p f dirs w.tock with ⟨_ | value, next⟩
  · rw [out] at reserve
    refine .inl ⟨next, decide ((w.volume m).mutationDepth = 0) &&
      !volumeDirty (w.volume m).flags, ?_, calm reserve ?_⟩
    · simp only [bind_run, attempt_run, out]
      rfl
    intro retry
    rw [Bool.and_eq_true] at retry
    exact ⟨unblocked, by simpa using retry.2⟩
  rw [out] at reserve
  have quiet₁ := reserve.quiet.trans Quiet.unwritten
  have disk₁ : (next.unwritten m).disk m = w.disk m := by rw [unwritten_disk, reserve.disk]
  have depth₁ : ((next.unwritten m).volume m).mutationDepth = 0 := by
    rw [unwritten, setMount_volume, reserve.volume]
    exact shallow
  have written₁ : ((next.unwritten m).volume m).mutationWritten = false := by
    rw [unwritten, setMount_volume]
  have blocked₁ : ((next.unwritten m).volume m).writeBlocked = false := by
    rw [unwritten, setMount_volume, reserve.volume]
    exact unblocked
  have counters₁ : Counters w (next.unwritten m) := reserve.toCounters.trans ⟨rfl, rfl, rfl⟩
  have step : SettledStep (w.disk m) ((writeVolumeFlags m
      (clearToZero (setDirty (w.volume m).flags)) (next.unwritten m)).2.disk m) := by
    rw [← disk₁] at logged ⊢
    apply writeVolumeFlags_settled logged
    rw [disk₁]
    exact resting.settled used unblocked
  have dirty : volumeDirty (clearToZero (setDirty (w.volume m).flags)) = true :=
    volumeDirty_clearToZero volumeDirty_setDirty
  obtain ⟨last, marking, ⟨run, disk, _, open_⟩ | ⟨run, _⟩⟩ := writeVolumeFlags_cases
  · rw [run] at step
    refine .inr ⟨last, ?_, quiet₁.trans marking.toQuiet,
      counters₁.trans marking.toCounters, marking.depth.trans depth₁,
      marking.written.trans written₁, open_.trans blocked₁, step, ?_⟩
    · simp [bind_run, out, shallow, run]
    have byte : DirtyByte ((((next.unwritten m).disk m).put 106 (leBytes 2
        (clearToZero (setDirty (w.volume m).flags)))).medium 106) := by
      exact dirtyByte_ofNat.mpr dirty
    rw [disk]
    refine (Disk.flush_marks (Disk.Recorded.put ?_ 106 _) byte).1
    rw [disk₁]
    exact logged
  rw [run] at step
  refine .inl ⟨last.halt m, false, ?_, ⟨quiet₁.trans (marking.toQuiet.trans
    Marking.halt.toQuiet), counters₁.trans (marking.toCounters.trans ⟨rfl, rfl, rfl⟩),
    ?_, ?_, ?_, ?_⟩⟩
  · simp [bind_run, out, shallow, run]
  · rw [halt, setMount_volume, marking.depth, depth₁, shallow]
  · rw [halt_disk]
    exact step.journal
  · rintro (open_ | stuck)
    · exact absurd open_ (by rw [halt_blocked]; simp)
    · exact absurd stuck (by rw [unblocked]; simp)
  · rintro ⟨⟩

/-! ## The whole bracket -/

/-- What an operation on mount `m` has done once it is over. -/
structure Concluded (m : Nat) (before after : World) : Prop extends
  Passage m before after, Counters before after where
  tidy : Tidy after
  level : (after.volume m).mutationDepth = (before.volume m).mutationDepth
  journal : Journal (before.disk m) (after.disk m)
  stuck : (before.volume m).writeBlocked = true → after.disk m = before.disk m
  clean : (after.volume m).writeBlocked = false → ¬DirtyByte (after.medium m 106)

theorem Concluded.resting (concluded : Concluded m old new) (resting : Resting old)
    (used : (old.mounts m).used = true) : Resting new where
  tidy := concluded.tidy
  depth := by
    intro k inUse
    by_cases here : k = m
    · rw [here, concluded.level]
      exact resting.depth m used
    rw [volume, concluded.others k here]
    rw [concluded.others k here] at inUse
    exact resting.depth k inUse
  rest := by
    intro device
    by_cases here : device = (old.volume m).device
    · rw [here, ← concluded.device]
      exact concluded.journal.rest
    · rw [concluded.disks device here]
      exact resting.rest device
  clean := by
    intro k inUse unblocked
    by_cases here : k = m
    · subst here
      exact concluded.clean unblocked
    have eq := concluded.others k here
    have volume : new.volume k = old.volume k := congrArg Mount.volume eq
    rw [eq] at inUse
    rw [volume] at unblocked
    have foreign : (old.volume k).device ≠ (old.volume m).device :=
      fun shared => here (resting.tidy.devices k m inUse used shared)
    have medium : new.medium k = old.medium k := by
      rw [medium, disk, volume, concluded.disks _ foreign]
      rfl
    rw [medium]
    exact resting.clean k inUse unblocked

theorem Refused.concluded {next : World} {retryable : Bool} (refused : Refused m old next retryable)
    (resting : Resting old) (used : (old.mounts m).used = true) : Concluded m old next := by
  refine ⟨refused.toPassage, refused.toCounters, refused.toQuiet.tidy resting.tidy
    refused.journal.recorded, refused.level, refused.journal, fun stuck =>
    refused.idle (.inr stuck), fun unblocked => ?_⟩
  have open_ : (old.volume m).writeBlocked = false := by
    by_contra blocked
    exact absurd ((refused.blocked (Bool.not_eq_false _ ▸ blocked)).symm.trans unblocked)
      (by decide)
  rw [medium, refused.idle (.inl unblocked)]
  exact resting.clean m used open_

theorem Quiet.counted (w : World) {operations : Nat} : Quiet m w (w.counted operations) :=
  (SameCore.counted m w operations).quiet

variable {ok : Bool}

theorem Quiet.surface : Quiet m w (w.surface m ok) := Outline.surface.quiet Untouched.surface

theorem surface_disk (m : Nat) (w : World) (ok : Bool) : (w.surface m ok).disk m = w.disk m :=
  setMount_disk rfl

theorem mutationEndResult_outer {last : World} (deep : (last.volume m).mutationDepth = 1)
    (logged : (last.disk m).Recorded) (marked : (last.disk m).Marked) :
    ∃ verdict next, mutationEndResult m ok last = (some verdict, next) ∧ Quiet m last next ∧
      (next.volume m).mutationDepth = 0 ∧ next.fsOperations = last.fsOperations - 1 ∧
      next.metadataSyncing = last.metadataSyncing ∧
      next.streamMutationDepth = last.streamMutationDepth ∧
      (∀ first, MarkedStep first (last.disk m) → Journal first (next.disk m)) ∧
      ((next.volume m).writeBlocked = false → ¬DirtyByte (next.medium m 106)) ∧
      verdict.1 = (ok && !(next.volume m).writeBlocked) ∧
      (verdict.2 = true → ok = false ∧ (last.volume m).mutationWritten = false ∧
        (next.volume m).writeBlocked = false ∧ volumeDirty (next.volume m).flags = false) := by
  have depth₁ : ((last.surface m ok).volume m).mutationDepth = 0 := by rw [surface_depth, deep]
  have disk₁ := surface_disk m last ok
  have written₁ : ((last.surface m ok).volume m).mutationWritten =
      (last.volume m).mutationWritten := by
    rw [surface, setMount_volume]
  have published : ∃ middle, when (((last.surface m ok).volume m).mutationDepth = 0 ∧
        ((last.surface m ok).volume m).writeBlocked = false) (publishClean m)
        (last.surface m ok) = (some (), middle) ∧ Marking m (last.surface m ok) middle ∧
      (∀ first, MarkedStep first (last.disk m) → Journal first (middle.disk m)) ∧
      ((middle.volume m).writeBlocked = false →
        ¬DirtyByte (middle.medium m 106) ∧ volumeDirty (middle.volume m).flags = false) := by
    by_cases open_ : ((last.surface m ok).volume m).writeBlocked = false
    · rw [when, if_pos ⟨depth₁, open_⟩]
      rw [← disk₁] at logged marked ⊢
      exact publishClean_outer logged marked
    rw [when, if_neg fun both => open_ both.2]
    refine ⟨_, rfl, Marking.refl, fun first work => ?_, fun clear => absurd clear open_⟩
    rw [disk₁]
    exact work.journal
  obtain ⟨middle, run, marking, journal, clean⟩ := published
  have final : Quiet m middle (middle.tock.counted (middle.fsOperations - 1)) :=
    (Marking.tock m middle).toQuiet.trans (Quiet.counted _)
  refine ⟨(ok && !(middle.volume m).writeBlocked, !(ok && !(middle.volume m).writeBlocked) &&
    decide ((middle.volume m).mutationDepth = 0) && !(middle.volume m).mutationWritten &&
    !(middle.volume m).writeBlocked && !volumeDirty (middle.volume m).flags &&
    middle.env.online middle.tick), middle.tock.counted (middle.fsOperations - 1), ?_,
    (Quiet.surface.trans marking.toQuiet).trans final, marking.depth.trans depth₁,
    congrArg (· - 1) marking.operations, marking.syncing, marking.streams, journal,
    fun open_ => (clean open_).1, rfl, ?_⟩
  · simp only [mutationEndResult, bind_run, surface_run, gets_run, run, fsLeave_run]
    rfl
  intro retry
  simp only [Bool.and_eq_true, Bool.not_eq_true'] at retry
  obtain ⟨⟨⟨⟨⟨failed, _⟩, unwritten⟩, open_⟩, flags⟩, _⟩ := retry
  rw [open_, Bool.not_false, Bool.and_true] at failed
  exact ⟨failed, written₁ ▸ marking.written ▸ unwritten, open_, flags⟩

/-- Outside a mutation `mutation_begin_result` refuses or opens one. -/
theorem mutationBeginResult_outer (resting : Resting w) (used : (w.mounts m).used = true)
    (mountpoint : (w.mounts m).mountpoint = base) (p : Option Path) (f dirs : Nat) :
    (∃ next retryable, mutationBeginResult (some m) p f dirs w =
        (some (.refused retryable), next) ∧ Refused m w next retryable) ∨
      ∃ opened, mutationBeginResult (some m) p f dirs w = (some .begun, opened) ∧
        Opened m base w opened := by
  have entered := fsEnter_run w
  by_cases admitted : w.fsOperations ≠ 0 ∨ w.env.admitted w.tick = true
  · rw [if_pos admitted] at entered
    have core : SameCore m w (w.tock.counted (w.fsOperations + 1)) :=
      (tock m w).toSameCore.trans (SameCore.counted m _ _)
    have resting₁ : Resting (w.tock.counted (w.fsOperations + 1)) :=
      ⟨core.tidy resting.tidy, resting.depth, resting.rest, resting.clean⟩
    rcases mutationAdmit_outer resting₁ used p f dirs with
      ⟨next, retryable, granted, refused⟩ |
      ⟨next, granted, quiet, counters, depth, written, unblocked, step, marked⟩
    · have counter : next.fsOperations - 1 = w.fsOperations := by
        rw [refused.operations]
        exact Nat.add_sub_cancel ..
      refine .inl ⟨next.counted (next.fsOperations - 1), retryable, ?_,
        ⟨(core.quiet.trans refused.toQuiet).trans (Quiet.counted next),
          ⟨counter, refused.syncing, refused.streams⟩, refused.level, refused.journal,
          refused.idle, refused.retry⟩⟩
      simp [mutationBeginResult, bind_run, entered, granted]
    have quiet₁ := (core.quiet.trans quiet).trans (Outline.deepen.quiet (Untouched.deepen m next))
    have disk₁ : (next.deepen m).disk m = next.disk m := setMount_disk rfl
    have level₁ : ((next.deepen m).volume m).mutationDepth = 1 := by rw [deepen_depth, depth]
    have tidy₁ : Tidy (next.deepen m) := by
      apply quiet₁.tidy resting.tidy
      rw [disk₁]
      exact step.recorded
    refine .inr ⟨next.deepen m, ?_, ⟨quiet₁, ⟨tidy₁, quiet₁.used.trans used,
      quiet₁.mountpoint.trans mountpoint, ?_⟩, level₁, ?_, ?_, ?_, ?_, counters.operations,
      counters.syncing, counters.streams⟩⟩
    · simp [mutationBeginResult, bind_run, entered, granted]
    · rw [level₁]
      exact Nat.one_ne_zero
    · rw [deepen, setMount_volume]
      exact written
    · rw [deepen, setMount_volume]
      exact unblocked
    · rw [disk₁]
      exact step
    · rw [disk₁]
      exact marked
  rw [if_neg admitted] at entered
  have eq := tock m w
  refine .inl ⟨w.tock, false, ?_, ⟨eq.quiet, eq.toCounters, rfl,
    Journal.refl (resting.tidy.recorded _) (resting.rest _), fun _ => rfl,
    fun h => absurd h Bool.false_ne_true⟩⟩
  simp [mutationBeginResult, bind_run, entered]

/-- An opened mutation whose body kept the frame is concluded by `mutation_end_result`. -/
theorem Opened.close {opened last : World} (start : Opened m base w opened) (resting : Resting w)
    (used : (w.mounts m).used = true) (tidy : Tidy last) (frame : Frame m opened last) (ok : Bool) :
    ∃ verdict final, mutationEndResult m ok last = (some verdict, final) ∧
      Concluded m w final ∧ verdict.1 = (ok && !(final.volume m).writeBlocked) ∧
      (verdict.2 = true → ok = false ∧ Quiet m w final ∧
        (final.volume m).writeBlocked = false ∧
        volumeDirty (final.volume m).flags = false) := by
  have logged : (last.disk m).Recorded := tidy.recorded _
  have work := MarkedStep.frame start.marked frame.disk (start.inside.tidy.recorded _) logged
  obtain ⟨verdict, final, ended, quiet, depth, operations, syncing, streams, journal, clean,
    stands, retry⟩ := mutationEndResult_outer (frame.depth.trans start.level) logged work.marked
  have journal₁ := start.step.then (journal _ work)
  have counters : Counters w final := by
    refine ⟨?_, ?_, ?_⟩
    · rw [operations, frame.operations, start.operations, Nat.add_sub_cancel]
    · rw [syncing, frame.syncing, start.syncing]
    · rw [streams, frame.streams, start.streams]
  refine ⟨verdict, final, ended, ⟨(start.toPassage.trans frame.toPassage).trans
    quiet.toPassage, counters, quiet.tidy tidy journal₁.recorded,
    depth.trans (resting.depth m used).symm, journal₁, ?_, clean⟩, stands, ?_⟩
  · intro stuck
    cases (start.blocked stuck).symm.trans start.unblocked
  intro again
  obtain ⟨failed, clear, open_, flags⟩ := retry again
  exact ⟨failed, (start.toQuiet.trans (frame.toOutline.quiet (frame.calm clear))).trans quiet,
    open_, flags⟩

/-- An outermost mutation is refused, or its body runs in an opened world; either way it
is concluded. -/
theorem mutationResult_outer {α : Type} {body : Driver α} {flag : Bool} {post : α → Prop}
    (keeps : Keeps m base false body flag post) (resting : Resting w)
    (used : (w.mounts m).used = true) (mountpoint : (w.mounts m).mountpoint = base)
    {p : Option Path} {f dirs : Nat} :
    ∃ result next, mutationResult (some m) p f dirs body w = (some result, next) ∧
      Concluded m w next ∧
      (result.2 = true → result.1 = none ∧ Quiet m w next ∧
        (next.volume m).writeBlocked = false ∧ volumeDirty (next.volume m).flags = false) := by
  rcases mutationBeginResult_outer resting used mountpoint p f dirs with
    ⟨next, retryable, begin_, refused⟩ | ⟨opened, begin_, start⟩
  · refine ⟨(none, retryable), next, ?_, refused.concluded resting used,
      fun retry => ⟨rfl, refused.toQuiet, refused.retry retry⟩⟩
    simp [mutationResult, bind_run, begin_]
  obtain ⟨tidy, frame, _⟩ := keeps opened start.inside (by simp)
  rcases ran : body opened with ⟨out, last⟩
  rw [ran] at tidy frame
  obtain ⟨verdict, final, ended, concluded, stands, retry⟩ :=
    start.close resting used tidy frame out.isSome
  refine ⟨(if verdict.1 then out else none, verdict.2), final, ?_, concluded, ?_⟩
  · simp [mutationResult, bind_run, begin_, ofOption, ran, ended]
  intro again
  obtain ⟨failed, rest⟩ := retry again
  refine ⟨?_, rest⟩
  rw [stands, failed]
  simp

end SrvrOS.Exfat
