import SrvrOS.Exfat.Frame

/-!
# Reads and reservations

Reading the device and reserving table memory change nothing but the clock and the
reserved capacities, inside a mutation and outside of one.
-/

namespace SrvrOS.Exfat

open Lib Act Respects

variable {k n c : Nat}

def Mount.core (mount : Mount) : Mount :=
  { mount with fileCapacity := 0, dirCapacity := 0, metadataCapacity := 0 }

/-- Two worlds with the same disks and, apart from capacities, the same mounts. -/
structure Still (before after : World) : Prop where
  core : ∀ k, (after.mounts k).core = (before.mounts k).core
  disks : after.disks = before.disks

/-- Two worlds that differ in counters and in the reserved capacities of mount `m` only. -/
structure SameCore (m : Nat) (before after : World) : Prop extends Still before after where
  env : after.env = before.env
  others : ∀ k, k ≠ m → after.mounts k = before.mounts k
  nodes : after.vfs.nodes = before.vfs.nodes
  leases : after.leases = before.leases

/-- Two worlds that differ in the clock and the reserved capacities only. -/
structure Reserved (m : Nat) (before after : World) : Prop extends
  SameCore m before after, Counters before after

variable {m : Nat} {old new first second third : World}

namespace Still

theorem refl {w : World} : Still w w := ⟨fun _ => rfl, rfl⟩

theorem trans (left : Still first second) (right : Still second third) : Still first third :=
  ⟨fun k => (right.core k).trans (left.core k), right.disks.trans left.disks⟩

variable {α : Type} {k : Nat}

theorem part (still : Still old new) {read : Mount → α}
    (fixed : ∀ mount, read mount.core = read mount) :
    read (new.mounts k) = read (old.mounts k) := by
  rw [← fixed (new.mounts k), still.core, fixed]

section

variable (still : Still old new)

include still

theorem used (k : Nat) : (new.mounts k).used = (old.mounts k).used := still.part (fun _ => rfl)

theorem mountpoint : (new.mounts k).mountpoint = (old.mounts k).mountpoint :=
  still.part (fun _ => rfl)

theorem files : (new.mounts k).files = (old.mounts k).files := still.part (fun _ => rfl)

theorem dirs : (new.mounts k).dirs = (old.mounts k).dirs := still.part (fun _ => rfl)

theorem volume : new.volume = old.volume := by
  funext k
  exact still.part (fun _ => rfl)

theorem disk : new.disk = old.disk := by
  unfold World.disk
  rw [still.disks, still.volume]

theorem medium : new.medium = old.medium := by
  unfold World.medium
  rw [still.disk]

end

theorem tidy (still : Still old new) (tidy : Tidy old) : Tidy new := by
  refine tidy.transfer (fun k => ⟨still.used k, still.mountpoint, by rw [still.volume]⟩)
    (fun k used => ?_) (still.disks ▸ tidy.recorded)
  have ordered := tidy.mounts k used
  constructor
  · rw [← World.volume, still.volume]
    exact ordered.laid
  · rw [still.mountpoint]
    exact ordered.mountpoint
  · rw [still.files, still.mountpoint]
    exact ordered.files
  · rw [still.dirs, still.mountpoint]
    exact ordered.dirs

end Still

namespace SameCore

theorem refl {m : Nat} {w : World} : SameCore m w w := ⟨.refl, rfl, fun _ _ => rfl, rfl, rfl⟩

theorem trans (left : SameCore m first second) (right : SameCore m second third) :
    SameCore m first third :=
  ⟨left.toStill.trans right.toStill, right.env.trans left.env,
    fun k j => (right.others k j).trans (left.others k j),
    right.nodes.trans left.nodes, right.leases.trans left.leases⟩

theorem untouched (eq : SameCore m old new) : Untouched m old new :=
  ⟨eq.files, eq.dirs, eq.nodes, congrFun eq.medium m⟩

theorem outline (eq : SameCore m old new) : Outline m old new := by
  refine ⟨⟨eq.env, eq.others, fun device _ => ?_, ?_, eq.used m, eq.mountpoint,
    eq.leases, ?_⟩, ?_, ?_, ?_, fun _ => congrFun eq.medium m⟩
  · rw [eq.disks]
  · rw [eq.volume]
  · rw [eq.volume]
    exact id
  · rw [eq.volume]
  · rw [eq.disk]
    exact .refl
  · rw [eq.volume]
    exact id

end SameCore

/-- Reservations as an evolution of the world. -/
def reserving (m : Nat) : Evolution World where
  rel := Reserved m
  refl _ := ⟨.refl, .refl⟩
  trans left right :=
    ⟨left.toSameCore.trans right.toSameCore, left.toCounters.trans right.toCounters⟩

theorem Reserved.frame (eq : Reserved m old new) : Frame m old new :=
  ⟨eq.outline, ⟨eq.toCounters, by rw [eq.volume]⟩, fun _ => eq.untouched⟩

theorem Keeps.of_reserving {base : Path} {old : Bool} {act : Driver α}
    (reserves : Respects (reserving m) act) : Neutral m base old act := by
  intro w start written
  have eq := reserves w
  exact ⟨eq.tidy start.tidy, eq.frame, fun _ _ =>
    ⟨trivial, fun set => eq.frame.written (written set)⟩⟩

/-! ## Reservations -/

theorem draw_reserves (answer : Env → Nat → α) : Respects (reserving m) (draw answer) :=
  fun _ => ⟨⟨⟨fun _ => rfl, rfl⟩, rfl, fun _ _ => rfl, rfl, rfl⟩, ⟨rfl, rfl, rfl⟩⟩

theorem kmalloc_reserves : Respects (reserving m) kmalloc :=
  (draw_reserves _).bind fun _ => .require

theorem updateCapacity_reserves {change : Mount → Mount}
    (eq : ∀ mount, (change mount).core = mount.core) :
    Respects (reserving m) (updateMount m change) := by
  intro w
  have others (k : Nat) (j : k ≠ m) :
      (updateMount m change w).2.mounts k = w.mounts k := Function.update_of_ne j ..
  refine ⟨⟨⟨fun k => ?_, rfl⟩, rfl, others, rfl, rfl⟩, ⟨rfl, rfl, rfl⟩⟩
  rcases eq_or_ne k m with rfl | j
  · have here : (updateMount k change w).2.mounts k = change (w.mounts k) := Function.update_self ..
    rw [here]
    exact eq _
  · rw [others k j]

variable {additional : Nat}

theorem growNodes_reserves : Respects (reserving m) (growNodes n additional) := by
  induction n with
  | zero => exact pure
  | succ n ih =>
    refine .reads fun vfs => ite pure ?_
    refine kmalloc_reserves.bind fun _ => bind ?_ fun _ => ih
    exact fun _ => ⟨⟨⟨fun _ => rfl, rfl⟩, rfl, fun _ _ => rfl, rfl, rfl⟩, ⟨rfl, rfl, rfl⟩⟩

theorem vfsReserveNodes_reserves : Respects (reserving m) (vfsReserveNodes additional) :=
  .reads fun _ => .check <| growNodes_reserves

theorem growFiles_reserves {files : Nat} : Respects (reserving m) (growFiles m n files) := by
  induction n with
  | zero => exact pure
  | succ n ih =>
    refine .reads fun mount => ite pure ?_
    refine kmalloc_reserves.bind fun _ => (updateCapacity_reserves ?_).bind fun _ => ih
    exact fun _ => rfl

theorem growDirs_reserves {dirs : Nat} : Respects (reserving m) (growDirs m n dirs) := by
  induction n with
  | zero => exact pure
  | succ n ih =>
    refine .reads fun mount => ite pure ?_
    refine kmalloc_reserves.bind fun _ => (updateCapacity_reserves ?_).bind fun _ => ih
    exact fun _ => rfl

variable {files dirs : Nat}

theorem reserveTables_reserves : Respects (reserving m) (reserveTables m files dirs) :=
  .check <| growFiles_reserves.bind fun _ => growDirs_reserves

theorem reserveMetadata_reserves {nodes : Nat} :
    Respects (reserving m) (reserveMetadata m nodes) := by
  refine .check <| .reads fun mount => ?_
  refine ite pure (kmalloc_reserves.bind fun _ => ?_)
  apply updateCapacity_reserves
  exact fun _ => rfl

theorem mutationCapacity_reserves {path : Option Path} :
    Respects (reserving m) (mutationCapacity m path files dirs) :=
  .reads fun _ => .found fun _ => require

theorem reserveMutation_reserves (path : Option Path) :
    Respects (reserving m) (reserveMutation m path files dirs) := by
  refine mutationCapacity_reserves.bind fun _ => ?_
  refine .reads fun w => .found fun more => ?_
  refine reserveTables_reserves.bind fun _ => ?_
  refine vfsReserveNodes_reserves.bind fun _ => ?_
  exact ite pure reserveMetadata_reserves

/-! ## Reads -/

theorem volumeRead_reserves {offset length : Nat} :
    Respects (reserving m) (volumeRead k offset length) :=
  .reads fun _ => .check <| (draw_reserves _).bind fun _ => .check <| gets

theorem clusterBase_reserves : Respects (reserving m) (clusterBase k c) :=
  .reads fun _ => ofOption

theorem nextCluster_reserves {k c : Nat} : Respects (reserving m) (nextCluster k c) :=
  .reads fun _ => volumeRead_reserves.bind fun _ => pure

theorem followChain_reserves : Respects (reserving m) (followChain k c) :=
  nextCluster_reserves.bind fun _ => .check <| pure

end SrvrOS.Exfat
