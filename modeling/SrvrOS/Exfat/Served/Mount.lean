import SrvrOS.Exfat.Geometry
import SrvrOS.Exfat.Served.Stream

/-!
# Mounting and unmounting at rest

A mount reads the boot regions, imports the directory tree without writing, and may complete an
interrupted sidecar update by one outermost mutation. Its volume is open only when the medium
carries no dirty flag.
-/

namespace SrvrOS.Exfat

open Lib Act Bool Option Respects Maintains Served

variable {α : Type} {m k size c off n remaining i rest b d size : Nat}
  {base mountpoint p : Path} {ds : Nat → Disk} {v : Volume} {act : Driver α}
  {w : World} {view : CheckBitmap} {s : CheckState} {upcase : Bool}

/-! ## The volume record -/

/-- What `volume_from_boot` guarantees. -/
structure Volume.Fresh (volume : Volume) (device : Nat) : Prop extends volume.Laid where
  place : volume.device = device
  depth : volume.mutationDepth = 0

theorem volumeFromBoot_fresh {boot : Bytes}
    (hit : volumeFromBoot boot d size = some v) : v.Fresh d := by
  refine ⟨(volumeFromBoot_accepted hit).laid, ?_, ?_⟩ <;>
    simp only [volumeFromBoot, volumeFromBootIn, ite_none_left_eq_some, some.injEq] at hit <;>
    rw [← hit.2.2]

/-- The volume `volume_from_boot` leaves open carries no dirty flag. -/
theorem volumeFromBoot_clean {store : Store UInt8}
    (hit : volumeFromBoot (store.read 0 512) d size = some v)
    (unblocked : v.writeBlocked = false) : ¬DirtyByte (store 106) := by
  unfold volumeFromBoot volumeFromBootIn at hit
  dsimp only at hit
  split at hit
  · cases hit
  split at hit
  · cases hit
  cases hit
  have flags : leField (store.read 0 512) 106 2 = (store 106).toNat + 256 * (store 107).toNat := by
    rfl
  unfold DirtyByte
  simp only [bne_eq_false_iff_eq] at unblocked
  omega

/-! ## Selecting a boot region -/

variable {start : World} {d : Nat} {β : Type} {mount : Mount}

theorem draw_since {answer : Env → Nat → β} : Maintains (Still start) (draw answer) fun _ => True :=
  of_respects (draw_reserves (m := 0) answer) fun _ _ same still => still.trans same.toStill

theorem deviceRead_holds {length : Nat} :
    Maintains (Still start) (deviceRead d size off length)
      fun b => b = (start.disks d).medium.read off length := by
  refine .check fun _ => draw_since.bind fun _ _ => ?_
  refine .check fun _ => gets.weaken ?_
  rintro b ⟨w, still, rfl⟩
  rw [still.disks]

theorem bootRegionLoop_holds {sector : Nat} {header : Bytes} {sum : Nat} :
    Maintains (Still start) (bootRegionLoop d size i sector header rest off sum)
      fun _ => True := by
  induction rest generalizing off sum with
  | zero => exact .pure trivial
  | succ rest ih =>
    refine .bind (.ite (fun _ => .pure trivial) fun _ =>
      deviceRead_holds.weaken fun _ _ => trivial) fun buffer _ => ?_
    refine .ite (fun _ => ?_) fun _ => ?_
    · exact .check fun _ => ih
    · exact .check fun _ => ih

theorem readBootRegion_holds {shift : Nat} :
    Maintains (Still start) (readBootRegion d size i shift)
      fun region => region.1 = (start.disks d).medium.read i 512 ∧
        volumeFromBoot region.1 d size = some region.2 := by
  refine deviceRead_holds.bind fun boot read => ?_
  refine .check fun _ => .found fun v hit => ?_
  refine .check fun _ => ?_
  refine bootRegionLoop_holds.bind fun _ _ => ?_
  exact .pure ⟨read, hit⟩

theorem searchBackups_holds {size : Nat} {shifts : List Nat} {hit : Nat × Option Volume}
    (known : ∀ v, hit.2 = some v → v.Fresh d) :
    Maintains (Still start) (searchBackups d size shifts hit)
      fun result => ∀ v, result.2 = some v → v.Fresh d := by
  induction shifts generalizing hit with
  | nil => exact .pure known
  | cons shift rest ih =>
    refine readBootRegion_holds.attempt.bind fun region read => ?_
    cases region with
    | none => exact ih known
    | some region =>
      apply ih
      intro v same
      cases same
      exact volumeFromBoot_fresh (read region rfl).2

theorem selectBoot_holds :
    Maintains (Still start) (selectBoot d size)
      fun v => v.Fresh d ∧
        (v.writeBlocked = false → ¬DirtyByte ((start.disks d).medium 106)) := by
  have first : Maintains (Still start) (do
      let header ← deviceRead d size 0 512
      let shift := leField header 108 1
      Act.require (9 ≤ shift ∧ shift ≤ 12)
      readBootRegion d size 0 shift) fun region =>
        region.1 = (start.disks d).medium.read 0 512 ∧
          volumeFromBoot region.1 d size = some region.2 :=
    deviceRead_holds.bind fun _ _ => .check fun _ => readBootRegion_holds
  refine first.attempt.bind fun main known => ?_
  cases main with
  | some main =>
    obtain ⟨read, hit⟩ := known main rfl
    have fresh := volumeFromBoot_fresh hit
    refine readBootRegion_holds.attempt.bind fun backup _ => .pure ⟨?_, ?_⟩
    · exact { fresh with }
    intro unblocked
    rw [read] at hit
    exact volumeFromBoot_clean hit (or_eq_false_iff.mp unblocked).1
  | none =>
    refine (searchBackups_holds (by simp)).bind fun result known => ?_
    refine .check fun _ => .found fun v hit => ?_
    have fresh := known v hit
    exact pure ⟨{ fresh with }, nofun⟩

/-! ## Importing the directory tree -/

/-- A mount whose tables are being filled. -/
structure Importing (m : Nat) (base : Path) (disks : Nat → Disk) (world : World) : Prop where
  resting : Resting world
  used : (world.mounts m).used = true
  mountpoint : (world.mounts m).mountpoint = base
  disks : world.disks = disks

theorem Importing.still {next : World} (importing : Importing m base ds w)
    (still : Still w next) : Importing m base ds next :=
  ⟨still.resting importing.resting, (still.used m).trans importing.used,
    still.mountpoint.trans importing.mountpoint, still.disks.trans importing.disks⟩

theorem stays_imports (stays : Respects staying act) :
    Maintains (Importing m base ds) act fun _ => True :=
  of_respects stays fun _ _ still importing => importing.still still

theorem reserves_imports (reserves : Respects (reserving 0) act) :
    Maintains (Importing m base ds) act fun _ => True :=
  stays_imports (reserves_stays reserves)

theorem Importing.tidy (importing : Importing m base ds w) : (w.mounts m).Tidy :=
  importing.resting.tidy.mounts m importing.used

theorem Importing.valid (importing : Importing m base ds w) : validMountpoint base = true := by
  rw [← importing.mountpoint]
  exact importing.tidy.mountpoint

/-- A record that a world at rest may take as mount `m`. -/
structure Joins (world : World) (m : Nat) (mount : Mount) : Prop where
  bound : m < exfatMaxVolumes
  tidy : mount.Tidy
  depth : mount.volume.mutationDepth = 0
  clean : mount.volume.writeBlocked = false →
    ¬DirtyByte ((world.disks mount.volume.device).medium 106)
  apart : ∀ k, k ≠ m → (world.mounts k).used = true →
    (world.volume k).device ≠ mount.volume.device ∧
      pathInSubtree mount.mountpoint (world.mounts k).mountpoint = false ∧
      pathInSubtree (world.mounts k).mountpoint mount.mountpoint = false

theorem Resting.setMount (resting : Resting w)
    (joins : mount.used = true → Joins w m mount) : Resting (w.setMount m mount) := by
  have each (fact : Nat → Mount → Prop) (new : fact m mount)
      (old : ∀ k, fact k (w.mounts k)) : ∀ k, fact k ((w.setMount m mount).mounts k) :=
    (Function.forall_update_iff w.mounts fact).mpr ⟨new, fun k _ => old k⟩
  have pairs (related : Mount → Mount → Prop)
      (old : ∀ left right, (w.mounts left).used = true → (w.mounts right).used = true →
        related (w.mounts left) (w.mounts right) → left = right)
      (new : mount.used = true → ∀ k, k ≠ m → (w.mounts k).used = true →
        ¬related (w.mounts k) mount ∧ ¬related mount (w.mounts k)) :
      ∀ left right, ((w.setMount m mount).mounts left).used = true →
        ((w.setMount m mount).mounts right).used = true →
        related ((w.setMount m mount).mounts left) ((w.setMount m mount).mounts right) →
        left = right := by
    intro left right usedLeft usedRight both
    by_cases newLeft : left = m <;> by_cases newRight : right = m
    · rw [newLeft, newRight]
    · subst newLeft
      simp only [setMount_self, setMount_other newRight] at usedLeft usedRight both
      exact absurd both (new usedLeft right newRight usedRight).2
    · subst newRight
      simp only [setMount_self, setMount_other newLeft] at usedLeft usedRight both
      exact absurd both (new usedRight left newLeft usedLeft).1
    rw [setMount_other newLeft] at usedLeft both
    rw [setMount_other newRight] at usedRight both
    exact old left right usedLeft usedRight both
  refine ⟨⟨each (fun k mount => exfatMaxVolumes ≤ k → mount.used = false) ?_ resting.tidy.bound,
    each (fun _ mount => mount.used = true → mount.Tidy) (fun used => (joins used).tidy)
      resting.tidy.mounts,
    pairs (fun one two => one.volume.device = two.volume.device) resting.tidy.devices ?_,
    pairs (fun one two => pathInSubtree one.mountpoint two.mountpoint = true)
      resting.tidy.mountpoints ?_, resting.tidy.recorded⟩,
    each (fun _ mount => mount.used = true → mount.volume.mutationDepth = 0)
      (fun used => (joins used).depth) resting.depth, resting.rest,
    each (fun _ mount => mount.used = true → mount.volume.writeBlocked = false →
      ¬DirtyByte ((w.disks mount.volume.device).medium 106))
      (fun used => (joins used).clean) resting.clean⟩
  · intro large
    by_contra used
    exact Nat.not_lt.mpr large (joins (not_eq_false _ ▸ used)).bound
  · intro used k j inUse
    obtain ⟨d, -, -⟩ := (joins used).apart k j inUse
    exact ⟨d, d.symm⟩
  intro used k j inUse
  obtain ⟨-, below, above⟩ := (joins used).apart k j inUse
  exact ⟨eq_false_iff.mp above, eq_false_iff.mp below⟩

theorem Tidy.small (tidy : Tidy w) (used : (w.mounts m).used = true) : m < exfatMaxVolumes := by
  by_contra large
  cases used.symm.trans (tidy.bound m (not_lt.mp large))

theorem Importing.setMount (importing : Importing m base ds w) (used : mount.used = true)
    (mountpoint : mount.mountpoint = base) (d : mount.volume.device = (w.volume m).device)
    (depth : mount.volume.mutationDepth = (w.volume m).mutationDepth)
    (blocked : mount.volume.writeBlocked = false → (w.volume m).writeBlocked = false)
    (tidy : mount.Tidy) : Importing m base ds (w.setMount m mount) := by
  have resting := importing.resting
  have inUse := importing.used
  have point := mountpoint.trans importing.mountpoint.symm
  refine ⟨resting.setMount fun _ => ⟨resting.tidy.small inUse, tidy,
    depth.trans (resting.depth m inUse), ?_, ?_⟩, ?_, ?_, importing.disks⟩
  · rw [d]
    exact fun unblocked => resting.clean m inUse (blocked unblocked)
  · intro k j known
    rw [d, point]
    refine ⟨fun shared => j (resting.tidy.devices k m known inUse shared), ?_, ?_⟩
    · exact eq_false_iff.mpr fun nested =>
        j (resting.tidy.mountpoints m k inUse known nested).symm
    · exact eq_false_iff.mpr fun nested => j (resting.tidy.mountpoints k m known inUse nested)
  · rw [setMount_self]
    exact used
  · rw [setMount_self]
    exact mountpoint

theorem Still.vfs (w : World) {vfs : Vfs} : Still w { w with vfs := vfs } := ⟨fun _ => rfl, rfl⟩

theorem updateVfs_stays {change : Vfs → Vfs} : Respects staying (updateVfs change) :=
  fun w => Still.vfs w

theorem vfsRegister_stays {type : NodeType}
    {data : Option (Nat × Nat)} {metadata : Option Metadata} :
    Respects staying (vfsRegister p type size data metadata) := by
  refine .reads fun vfs => ?_
  split
  · exact .check <| updateVfs_stays
  refine (reserves_stays (m := 0) vfsReserveNodes_reserves).bind fun _ => ?_
  exact (reserves_stays (m := 0) (draw_reserves _)).bind fun _ => updateVfs_stays

theorem reserveTables_imports {files dirs : Nat} :
    Maintains (Importing m base ds) (reserveTables m files dirs) fun _ => True :=
  stays_imports (reserves_stays reserveTables_reserves)

variable {entries : Bytes}

theorem registerFile_imports {parent : Path} (below : pathInSubtree parent base = true)
    {off : Nat} (above : bootBytes ≤ off) :
    Maintains (Importing m base ds) (registerFile m parent entries off) fun _ => True := by
  refine gets.bind fun w seen => ?_
  obtain ⟨w, importing, rfl⟩ := seen
  refine .check fun _ => .found fun p hit => ?_
  refine .check fun _ => .check fun _ => ?_
  refine reserveTables_imports.bind fun _ _ => ?_
  refine (reserves_imports vfsReserveNodes_reserves).bind fun _ _ => ?_
  refine (stays_imports vfsRegister_stays).bind fun _ _ => ?_
  intro current importing'
  refine ⟨importing'.setMount importing'.used importing'.mountpoint rfl rfl (fun holds => holds) ?_,
    fun _ _ => trivial⟩
  have tidy := importing'.tidy
  have child := buildChildPath_subtree hit below (validMountpoint_last importing.valid)
  refine ⟨tidy.laid, tidy.mountpoint, fun slot member => ?_, tidy.dirs⟩
  rcases mem_placeFile member with old | rfl
  · exact tidy.files slot old
  refine ⟨.inl above, fun _ => ?_⟩
  rw [importing'.mountpoint]
  exact child

theorem registerDirectory_imports {slot : Directory} (below : pathInSubtree slot.path base = true)
    (i : EntryPlace slot.fileEntryOffset slot.secondaryCount) :
    Maintains (Importing m base ds) (registerDirectory m slot) fun _ => True := by
  refine gets.bind fun w _ => ?_
  refine .check fun _ => .check fun _ => ?_
  refine reserveTables_imports.bind fun _ _ => ?_
  refine (reserves_imports vfsReserveNodes_reserves).bind fun _ _ => ?_
  refine (stays_imports vfsRegister_stays).bind fun _ _ => ?_
  intro current importing
  refine ⟨importing.setMount importing.used importing.mountpoint rfl rfl (fun holds => holds) ?_,
    fun _ _ => trivial⟩
  have tidy := importing.tidy
  refine ⟨tidy.laid, tidy.mountpoint, tidy.files, fun j member => ?_⟩
  rcases mem_placeDirectory member with old | rfl
  · exact tidy.dirs j old
  refine ⟨i, fun _ => ?_⟩
  rw [importing.mountpoint]
  exact below

theorem setVolume_imports {change : Volume → Volume}
    (same : ∀ v, (change v).device = v.device ∧
      (change v).mutationDepth = v.mutationDepth ∧
      ((change v).writeBlocked = false → v.writeBlocked = false) ∧
      (v.Laid → (change v).Laid)) :
    Maintains (Importing m base ds) (updateVolume m change) fun _ => True := by
  intro w importing
  obtain ⟨d, depth, blocked, laid⟩ := same (w.volume m)
  have tidy := importing.tidy
  exact ⟨importing.setMount importing.used importing.mountpoint d depth blocked
    (tidy.of_volume (laid tidy.laid)), fun _ _ => trivial⟩

theorem volume_imports :
    Maintains (Importing m base ds) (Act.gets fun w => w.volume m) Volume.Laid := by
  refine gets.weaken ?_
  rintro v ⟨w, importing, rfl⟩
  exact importing.tidy.laid

theorem clusterBase_imports :
    Maintains (Importing m base ds) (clusterBase m c)
      fun off => bootBytes ≤ off := by
  refine volume_imports.bind fun v laid => ofOption.weaken ?_
  exact fun off hit => clusterOffset_boot laid hit

/-- A scan of a directory below the mountpoint keeps the import. -/
def ScanImports (m : Nat) (base : Path) (disks : Nat → Disk)
    (scan : Path → Nat → Bool → Nat → Driver Unit) : Prop :=
  ∀ path, pathInSubtree path base = true → ∀ cluster noFatChain length,
    Maintains (Importing m base disks) (scan path cluster noFatChain length) fun _ => True

variable {depth : Nat}

theorem scanSystemEntry_imports {entry : Bytes} :
    Maintains (Importing m base ds) (scanSystemEntry m depth entry) fun _ => True := by
  refine volume_imports.bind fun v _ => ?_
  refine .ite (fun _ => ?_) fun _ => .ite (fun _ => ?_) fun _ => ?_
  · refine .check fun _ => setVolume_imports fun v => ?_
    exact ⟨rfl, rfl, fun holds => holds, fun laid => { laid with }⟩
  · refine .check fun _ => setVolume_imports fun v => ?_
    exact ⟨rfl, rfl, fun holds => holds, fun laid => { laid with }⟩
  · exact require.weaken fun _ _ => trivial

section Scan

variable {scan : Path → Nat → Bool → Nat → Driver Unit} (scans : ScanImports m base ds scan)
  (valid : validMountpoint base = true) {p : Path} (below : pathInSubtree p base = true)
  {start : Nat}

include scans valid below

theorem scanChild_imports {off : Nat} (above : bootBytes ≤ off) :
    Maintains (Importing m base ds) (scanChild scan m p entries off) fun _ => True := by
  refine volume_imports.bind fun v _ => .ite (fun _ => ?_) fun _ => ?_
  · refine .found fun child hit => ?_
    have named := buildChildPath_subtree hit below (validMountpoint_last valid)
    exact (registerDirectory_imports named (.inl above)).bind fun _ _ => scans child named _ _ _
  · exact registerFile_imports below above

theorem scanEntry_imports (above : bootBytes ≤ start) :
    Maintains (Importing m base ds) (scanEntry scan m depth p start off entries)
      fun _ => True := by
  refine .ite (fun _ => .pure trivial) fun _ => ?_
  refine .ite (fun _ => ?_) fun _ => ?_
  · refine volume_imports.bind fun v _ => .check fun _ => ?_
    refine (scanChild_imports scans valid below
      (above.trans (Nat.le_add_right start off))).bind fun _ _ => ?_
    exact .pure trivial
  · exact scanSystemEntry_imports.bind fun _ _ => .pure trivial

theorem scanEntries_imports (above : bootBytes ≤ start) {buffer : Bytes} :
    Maintains (Importing m base ds) (scanEntries scan m depth p start buffer n off)
      fun _ => True := by
  induction n generalizing off with
  | zero => exact .pure trivial
  | succ n ih =>
    refine .ite (fun _ => .pure trivial) fun _ => ?_
    refine (scanEntry_imports scans valid below above).bind fun size _ => ?_
    cases size with
    | none => exact .pure trivial
    | some size => exact ih

theorem scanClusters_imports {noFatChain : Bool} {length n c scanned : Nat} {watch : ChainWatch} :
    Maintains (Importing m base ds)
      (scanClusters scan m depth p noFatChain length n c scanned watch)
      fun _ => True := by
  induction n generalizing c scanned watch with
  | zero => exact .fail
  | succ n ih =>
    refine .check fun _ => volume_imports.bind fun v _ => ?_
    refine clusterBase_imports.bind fun start above => ?_
    refine (reserves_imports volumeRead_reserves).bind fun buffer _ => ?_
    refine (scanEntries_imports scans valid below above).bind fun ended _ => ?_
    refine .ite (fun _ => .pure trivial) fun _ => ?_
    refine .ite (fun _ => ih) fun _ => ?_
    refine (reserves_imports nextCluster_reserves).bind fun next _ => ?_
    refine ite (fun _ => require.weaken fun _ _ => trivial) fun _ => ?_
    exact .check fun _ => ih

end Scan

theorem scanDirectory_imports (valid : validMountpoint base = true) {levels depth : Nat} :
    ScanImports m base ds (scanDirectory m levels depth) := by
  induction levels generalizing depth with
  | zero => exact fun _ _ _ _ _ => .fail
  | succ levels ih =>
    intro p below c noFatChain length
    refine (reserves_imports kmalloc_reserves).bind fun _ _ => ?_
    refine volume_imports.bind fun v _ => ?_
    exact scanClusters_imports ih valid below

theorem upcaseCluster_reserves {start : Nat} {s : UpcaseState} :
    Respects (reserving m) (upcaseCluster k start n off b s) := by
  induction n generalizing off s with
  | zero => exact .pure
  | succ n ih =>
    refine .ite .pure (volumeRead_reserves.bind fun _ => ?_)
    exact .found fun _ => ih

theorem systemStreamLoop_reserves {s : UpcaseState} :
    Respects (reserving m) (systemStreamLoop k upcase n c remaining s) := by
  induction n generalizing c remaining s with
  | zero => exact .fail
  | succ n ih =>
    refine .reads fun v => clusterBase_reserves.bind fun _ => ?_
    refine .bind (.ite upcaseCluster_reserves .pure)
      fun _ => nextCluster_reserves.bind fun _ => ?_
    exact .ite .require ih

theorem validateSystemStream_reserves :
    Respects (reserving m) (validateSystemStream k c size upcase) :=
  .reads fun _ => .check <| systemStreamLoop_reserves

variable {k : Nat}

theorem validateSystemStreams_reserves : Respects (reserving m) (validateSystemStreams k) :=
  .reads fun _ => .check <|
    validateSystemStream_reserves.bind fun _ => validateSystemStream_reserves

theorem scanRootDirectory_imports :
    Maintains (Importing m base ds) (scanRootDirectory m) fun _ => True := by
  refine gets.bind fun mount seen => ?_
  obtain ⟨w, importing, rfl⟩ := seen
  rw [importing.mountpoint]
  refine (registerDirectory_imports (pathInSubtree_refl base) (.inr ⟨rfl, rfl⟩)).bind fun _ _ => ?_
  refine (scanDirectory_imports importing.valid base (pathInSubtree_refl base) _ _ _).bind
    fun _ _ => ?_
  exact reserves_imports validateSystemStreams_reserves

/-! ## The allocation check reads only -/

section

variable {noFatChain isAlias toEnd : Bool} {files : List FileSlot}

theorem checkFileLoop_reserves :
    Respects (reserving m) (checkFileLoop k view noFatChain isAlias rest c s) := by
  induction rest generalizing c s with
  | zero => exact .pure
  | succ rest ih =>
    refine .reads fun v => ite pure ?_
    refine .ite (.ite .pure ?_) (.ite ih ?_)
    · exact nextCluster_reserves.attemptBind .pure fun _ => .pure
    · exact nextCluster_reserves.attemptBind .pure fun _ => ih

theorem checkFileClusters_reserves {i : Nat} {file : ExfatFile} :
    Respects (reserving m) (checkFileClusters k view files i file s) :=
  .reads fun _ => ite pure (.ite .pure checkFileLoop_reserves)

theorem checkDirectoryLoop_reserves :
    Respects (reserving m) (checkDirectoryLoop k view noFatChain toEnd rest c s) := by
  induction rest generalizing c s with
  | zero => exact .pure
  | succ rest ih =>
    refine .reads fun v => ite pure ?_
    refine .ite (.ite .pure ih) ?_
    refine nextCluster_reserves.attemptBind .pure fun _ => ?_
    exact .ite (.ite .pure ih) (.ite .pure ih)

theorem checkDirectoryClusters_reserves {directory : Directory} :
    Respects (reserving m) (checkDirectoryClusters k view directory s) :=
  .reads fun _ => ite pure (.ite .pure checkDirectoryLoop_reserves)

theorem checkSystemLoop_reserves : Respects (reserving m) (checkSystemLoop k view rest c s) := by
  induction rest generalizing c s with
  | zero => exact .pure
  | succ rest ih =>
    refine .reads fun v => ite pure ?_
    exact nextCluster_reserves.attemptBind .pure fun _ => .ite .pure ih

theorem checkSystemClusterRange_reserves {first : Nat} :
    Respects (reserving m) (checkSystemClusterRange k view first b s) :=
  .reads fun _ => ite pure checkSystemLoop_reserves

theorem checkDirectories_reserves {dirs : List Directory} :
    Respects (reserving m) (checkDirectories k view dirs s) := by
  induction dirs generalizing s with
  | nil => exact .pure
  | cons directory rest ih => exact checkDirectoryClusters_reserves.bind fun _ => ih

theorem checkFiles_reserves {slots : List (FileSlot × Nat)} :
    Respects (reserving m) (checkFiles k view files slots s) := by
  induction slots generalizing s with
  | nil => exact .pure
  | cons slot rest ih => exact .bind (.ite .pure checkFileClusters_reserves) fun _ => ih

end

theorem checkMount_reserves : Respects (reserving m) (checkMount k) :=
  .reads fun _ => .check <|
    clusterBase_reserves.bind fun _ => .check <|
      kmalloc_reserves.attempt.bind fun _ => kmalloc_reserves.attempt.bind fun _ =>
        .check <| volumeRead_reserves.bind fun _ =>
          checkSystemClusterRange_reserves.bind fun _ =>
            checkSystemClusterRange_reserves.bind fun _ =>
              checkDirectories_reserves.bind fun _ => checkFiles_reserves.bind fun _ => .require

theorem quarantine_imports :
    Maintains (Importing m base ds) (updateVolume m ({ · with writeBlocked := true }))
      fun _ => True :=
  setVolume_imports fun _ => ⟨rfl, rfl, nofun, fun laid => { laid with }⟩

theorem establishOwnership_imports :
    Maintains (Importing m base ds) (establishOwnership m) fun _ => True := by
  refine volume_imports.bind fun v _ => ?_
  refine (when fun _ => quarantine_imports).bind fun _ _ => ?_
  refine volume_imports.bind fun v _ => .ite (fun _ => .pure trivial) fun _ => ?_
  refine (reserves_imports checkMount_reserves.attempt).bind fun checked _ => ?_
  cases checked with
  | some _ => exact .pure trivial
  | none => exact quarantine_imports

/-! ## The sidecar at mount time -/

theorem readAllLoop_reserves {noFatChain : Bool} :
    Respects (reserving m) (readAllLoop k noFatChain n c remaining) := by
  induction n generalizing c remaining with
  | zero => exact .pure
  | succ n ih =>
    refine ite pure (.reads fun v => ?_)
    refine clusterBase_reserves.bind fun _ => volumeRead_reserves.bind fun _ => ?_
    refine .ite .pure ?_
    refine .bind (.ite .pure followChain_reserves) fun _ => ?_
    exact ih.bind fun _ => .pure

theorem fileSlot_reserves (k i : Nat) : Respects (reserving m) (fileSlot k i) :=
  .reads fun _ => ofOption

theorem exfatReadAllImpl_reserves (k : Nat) {file : ExfatFile} :
    Respects (reserving m) (exfatReadAllImpl k file) :=
  .check <| kmalloc_reserves.bind fun _ => readAllLoop_reserves.bind fun _ => .pure

variable {body : Driver α}

theorem fsScope_stays (stays : Respects staying body) : Respects staying (fsScope body) :=
  fsEnter_stays.bind fun _ => stays.attempt.bind fun _ => fsLeave_stays.bind fun _ => ofOption

theorem exfatReadAll_stays {node : Node} : Respects staying (exfatReadAll node) := by
  refine .reads fun w => .check <| ?_
  refine fsScope_stays (.found fun i => ?_)
  refine (reserves_stays (fileSlot_reserves (m := 0) _ _)).bind fun _ => ?_
  exact reserves_stays (exfatReadAllImpl_reserves (m := 0) _)

variable {p : Path}

theorem vfsReadAll_stays : Respects staying (vfsReadAll p) := by
  refine .reads fun vfs => .found fun _ => ?_
  refine .found fun _ => .check <| ?_
  refine exfatReadAll_stays.bind fun _ => ?_
  refine (reserves_stays (m := 0) (draw_reserves _)).bind fun _ => ?_
  exact updateVfs_stays.bind fun _ => .pure

theorem vfsSetMetadata_stays {metadata : Metadata} : Respects staying (vfsSetMetadata p metadata) :=
  .reads fun _ => .found fun _ => updateVfs_stays

theorem applyMetadataRecords_stays {records : List (Path × Metadata)} :
    Respects staying (applyMetadataRecords records) := by
  induction records with
  | nil => exact .pure
  | cons record rest ih =>
    refine .reads fun vfs => ?_
    split
    · exact ih
    · exact vfsSetMetadata_stays.ignore.bind fun _ => ih

theorem parseMetadataFile_stays : Respects staying (parseMetadataFile k p) :=
  .reads fun _ => vfsReadAll_stays.bind fun _ =>
    .check <| .found fun _ => applyMetadataRecords_stays

theorem clearTimes_stays {slots : List Nat} : Respects staying (clearTimes k slots) := by
  induction slots with
  | nil => exact .pure
  | cons slot rest ih =>
    refine .reads fun w => ?_
    split
    · refine .bind ?_ fun _ => ih
      exact .ite vfsSetMetadata_stays.ignore .pure
    · exact ih

theorem setSyncing_stays {v : Bool} : Respects staying (setSyncing v) :=
  fun _ => ⟨fun _ => rfl, rfl⟩

theorem syncSuspended_syncs (k : Nat) (base : Path) : Neutral k base false (syncSuspended k) :=
  syncSuspended_keeps

variable {clean : Bool} {m : Nat}

theorem applySidecar_serves {p temp : Path} : Serves w (applySidecar k p temp clean) := by
  refine .after .gets fun vfs => ?_
  refine .after clearTimes_stays fun _ => ?_
  refine .after .gets fun current => ?_
  refine .ite (fun _ => .of_stays .require) fun _ => ?_
  refine .ite (fun _ => ?_) fun _ => ?_
  · exact .of_stays (.ite parseMetadataFile_stays .pure)
  refine .after parseMetadataFile_stays.attempt fun parsed => ?_
  cases parsed with
  | none => exact .of_stays parseMetadataFile_stays.ignore
  | some _ =>
    refine .after .gets fun vfs => .ite (fun _ => ?_) fun _ => ?_
    · exact exfatReplaceFile_serves syncSuspended_syncs temp p
    · exact exfatRename_serves syncSuspended_syncs

theorem loadMountMetadata_serves : Serves w (loadMountMetadata k clean) := by
  refine .after .gets fun current => ?_
  refine .after .ofOption fun p => ?_
  refine .after .ofOption fun temp => ?_
  refine .after .require fun _ => ?_
  refine .after setSyncing_stays fun _ => ?_
  refine applySidecar_serves.attempt.before fun out => ?_
  exact setSyncing_stays.bind fun _ => .ofOption

/-! ## Mounting and unmounting -/

theorem Served.between {first second third fourth : World} (before : second.disks = first.disks)
    (served : Served second third) (after : fourth.disks = third.disks)
    (resting : Resting fourth) : Served first fourth := by
  refine ⟨resting, ?_⟩
  rw [after, ← before]
  exact served.journal

theorem discardMount_rests (resting : Resting w) :
    Resting (discardMount m p w).2 ∧ (discardMount m p w).2.disks = w.disks :=
  ⟨((Still.vfs w).resting resting).setMount fun used => absurd used false_ne_true, rfl⟩

theorem findMount_none {test : Nat → Mount → Bool} (missing : findMount w test = none)
    (small : k < exfatMaxVolumes) (used : (w.mounts k).used = true) :
    test k (w.mounts k) = false := by
  have fails := List.find?_eq_none.mp missing k (List.mem_range.mpr small)
  rw [used, not_eq_true] at fails
  exact fails

theorem allocMount_some (hit : allocMount w = some k) : k < exfatMaxVolumes := by
  exact List.mem_range.mp (List.mem_of_find?_eq_some hit)

/-- A device and a mountpoint that no mount has to do with. -/
def Unclaimed (world : World) (device : Nat) (mountpoint : Path) : Prop :=
  ∀ k, (world.mounts k).used = true → (world.volume k).device ≠ device ∧
    pathInSubtree mountpoint (world.mounts k).mountpoint = false ∧
    pathInSubtree (world.mounts k).mountpoint mountpoint = false

variable {d : Nat} {rest : α → Driver β} {post : α → Prop}

theorem Tidy.unclaimed (tidy : Tidy w) (apart : mountpointInUse w mountpoint = false)
    (missing : (findMount w fun _ mount => mount.volume.device == d) = none) :
    Unclaimed w d mountpoint := by
  intro k used
  have small := tidy.small used
  have noDevice := findMount_none missing small used
  have noPath : (findMount w fun _ mount => pathInSubtree mountpoint mount.mountpoint ||
      pathInSubtree mount.mountpoint mountpoint) = none := by
    unfold mountpointInUse at apart
    rw [or_eq_false_iff, isSome_eq_false_iff, isNone_iff_eq_none] at apart
    exact apart.1
  have noOverlap := findMount_none noPath small used
  rw [or_eq_false_iff] at noOverlap
  exact ⟨(by simpa using noDevice : (w.mounts k).volume.device ≠ d), noOverlap⟩

theorem Unclaimed.still {next : World}
    (unclaimed : Unclaimed w d mountpoint) (still : Still w next) :
    Unclaimed next d mountpoint := by
  intro k used
  rw [still.used] at used
  rw [still.volume, still.mountpoint]
  exact unclaimed k used

theorem Resting.openMount (resting : Resting w) (fresh : v.Fresh d)
    (clean : v.writeBlocked = false → ¬DirtyByte ((w.disks d).medium 106))
    (valid : validMountpoint mountpoint = true) (others : Unclaimed w d mountpoint)
    (free : m < exfatMaxVolumes) :
    Importing m mountpoint w.disks (w.setMount m
      { emptyMount with used := true, volume := v, mountpoint := mountpoint }) := by
  refine ⟨resting.setMount fun _ => ⟨free, ⟨fresh.toLaid, valid, ?_, ?_⟩, fresh.depth, ?_, ?_⟩,
    ?_, ?_, rfl⟩
  · simp [emptyMount]
  · simp [emptyMount]
  · rw [fresh.place]
    exact clean
  · rw [fresh.place]
    exact fun k _ used => others k used
  · rw [setMount_self]
  · rw [setMount_self]

theorem Serves.orDiscard (serves : Serves start act) :
    Serves start (Act.onFailure act (discardMount m p)) := by
  intro resting w still
  have served := serves resting w still
  unfold Act.onFailure
  rcases out : act w with ⟨_ | v, last⟩
  · rw [out] at served
    obtain ⟨rests, same⟩ := discardMount_rests served.resting
    exact between rfl served same rests
  · rw [out] at served
    exact served

theorem finishMount_serves (mountpoint : Path) (clean writable flushable : Bool) :
    Serves start (if clean then do
        let online ← draw Env.online
        Act.onFailure
          (do
            let v ← Act.gets (·.volume m)
            Act.require (v.writeBlocked = false ∧ online = true ∧ writable = true ∧
              flushable = true)
            loadMountMetadata m true)
          (discardMount m mountpoint)
      else Act.ignore (loadMountMetadata m false)) := by
  refine .ite (fun _ => ?_) fun _ => loadMountMetadata_serves
  refine .after (reserves_stays (m := 0) (draw_reserves _)) fun online => ?_
  refine .orDiscard (.after .gets fun v => ?_)
  exact .check fun _ => loadMountMetadata_serves

/-- Started in any world in which the mount is being imported, the operation is served. -/
def Completes (start : World) (m : Nat) (base : Path) (act : Driver α) : Prop :=
  ∀ world, Importing m base start.disks world → Served start (act world).2

theorem Importing.served (importing : Importing m base start.disks w)
    (resting : Resting start) : Served start w :=
  between rfl (refl resting) importing.disks importing.resting

section

variable (resting : Resting start) (imports : Maintains (Importing m base start.disks) act post)
include resting imports

theorem Completes.after (later : ∀ v, Completes start m base (rest v)) :
    Completes start m base (act >>= rest) := by
  intro w importing
  have kept := (imports w importing).1
  rw [Act.bind_run]
  rcases out : act w with ⟨_ | v, next⟩
  · rw [out] at kept
    exact kept.served resting
  · rw [out] at kept
    exact later v next kept

theorem Completes.orDiscard (p : Path) (later : ∀ v, Completes start m base (rest v)) :
    Completes start m base (Act.onFailure act (discardMount m p) >>= rest) := by
  intro w importing
  have kept := (imports w importing).1
  rw [Act.bind_run, Act.onFailure]
  rcases out : act w with ⟨_ | v, next⟩
  · rw [out] at kept
    obtain ⟨rests, same⟩ := discardMount_rests kept.resting
    exact between rfl (kept.served resting) same rests
  · rw [out] at kept
    exact later v next kept

end

variable {mountpoint : Path} {d : Nat}

theorem mountBlockDevice_serves : Serves start (mountBlockDevice mountpoint d clean) := by
  refine .asks fun w => .check fun admitted => ?_
  obtain ⟨valid, _, apart, missing⟩ := admitted
  refine .since selectBoot_holds fun v known => ?_
  obtain ⟨fresh, unmarked⟩ := known
  cases hit : allocMount w with
  | none => exact .of_stays .fail
  | some m =>
    intro resting next still
    have opened := (still.resting resting).openMount fresh (by rw [still.disks]; exact unmarked)
      valid ((resting.tidy.unclaimed apart missing).still still) (allocMount_some hit)
    rw [still.disks] at opened
    refine Completes.orDiscard resting scanRootDirectory_imports mountpoint (fun _ => ?_) _ opened
    refine Completes.after resting establishOwnership_imports fun _ last owned => ?_
    have served := finishMount_serves (m := m) mountpoint clean (w.disks d).writable
      (w.disks d).flushable owned.resting last Still.refl
    exact between owned.disks served rfl served.resting

theorem Serves.fsScope (serves : Serves start body) : Serves start (fsScope body) :=
  Serves.after fsEnter_stays fun _ => serves.attempt.before fun _ =>
    fsLeave_stays.bind fun _ => .ofOption

theorem exfatMountBlockDevice_serves : Serves start (exfatMountBlockDevice mountpoint d clean) := by
  refine .fsScope (.after (reserves_stays (m := 0) (draw_reserves _)) fun claimed => ?_)
  exact .check fun _ => mountBlockDevice_serves

theorem exfatUnmount_serves : Serves start (exfatUnmount mountpoint) := by
  refine .fsScope (.after (reserves_stays (m := 0) (draw_reserves _)) fun opened => ?_)
  refine .after .gets fun current => .check fun _ => ?_
  refine .after .ofOption fun m => .of fun w _ resting => ?_
  obtain ⟨rests, ds⟩ := discardMount_rests resting
  exact between rfl (refl resting) ds rests

end SrvrOS.Exfat
