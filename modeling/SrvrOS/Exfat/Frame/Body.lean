import SrvrOS.Exfat.Frame.Primitive

/-!
# The frame of the mutation bodies

Every function that runs between `mutation_begin` and `mutation_end` keeps the frame,
by composing the frames of its steps. The metadata sidecar is a parameter here as it
is in the model; a nested mutation keeps the frame when its body does.
-/

namespace SrvrOS.Exfat

open Lib Act List Option

variable
  {m k i off secondaryCount c fuel n reserved needed visited last first rest : Nat}
  {b p name : Path} {before afterEnd noFatChain : Bool} {w : World} {mount : Mount}
  {s : FileSlot} {entries expected bitmap : Bytes} {f : List FileSlot}
  {directory : Directory}

/-! ## Lookups -/

theorem findMount_some {test : Nat → Mount → Bool} (hit : findMount w test = some k) :
    (w.mounts k).used = true ∧ test k (w.mounts k) = true := by
  have holds := find?_some hit
  rw [Bool.and_eq_true] at holds
  exact holds

theorem fileIndex_some (hit : mount.fileIndex p = some i) :
    ∃ s, mount.files[i]? = some s ∧ s.path = p := by
  obtain ⟨inside, holds, _⟩ := findIdx?_eq_some_iff_getElem.mp hit
  exact ⟨mount.files[i], getElem?_eq_getElem inside, by simpa using holds⟩

theorem dirIndex_some (hit : mount.dirIndex p = some i) :
    ∃ s, mount.dirs[i]? = some s ∧ s.path = p := by
  obtain ⟨inside, holds, _⟩ := findIdx?_eq_some_iff_getElem.mp hit
  exact ⟨mount.dirs[i], getElem?_eq_getElem inside, by simpa using holds⟩

theorem findMountAndIndexForFile_some (hit : findMountAndIndexForFile w p = some (k, i)) :
    (w.mounts k).used = true ∧
      ∃ s, (w.mounts k).files[i]? = some s ∧ s.path = p := by
  obtain ⟨k', foundMount, hit⟩ := bind_eq_some_iff.mp hit
  obtain ⟨i', foundIndex, hit⟩ := bind_eq_some_iff.mp hit
  cases some.inj hit
  exact ⟨(findMount_some foundMount).1, fileIndex_some foundIndex⟩

theorem findMountAndIndexForDirectory_some (hit : findMountAndIndexForDirectory w p = some (k, i)) :
    (w.mounts k).used = true ∧ p ≠ [] ∧
      ∃ s, (w.mounts k).dirs[i]? = some s ∧ s.path = p := by
  obtain ⟨k', foundMount, hit⟩ := bind_eq_some_iff.mp hit
  obtain ⟨i', foundIndex, hit⟩ := bind_eq_some_iff.mp hit
  cases some.inj hit
  obtain ⟨used, test⟩ := findMount_some foundMount
  have named : p ≠ [] := by
    rw [Bool.and_eq_true] at test
    simpa using test.1
  exact ⟨used, named, dirIndex_some foundIndex⟩

theorem findMountAndParentDirectory_some
    (hit : findMountAndParentDirectory w p = some (k, i, name)) :
    (w.mounts k).used = true ∧ ∃ parent s, parentPathOf p = some parent ∧
        (w.mounts k).dirs[i]? = some s ∧ s.path = parent := by
  obtain ⟨parent, foundParent, hit⟩ := bind_eq_some_iff.mp hit
  obtain ⟨name', -, hit⟩ := bind_eq_some_iff.mp hit
  obtain ⟨k', foundMount, hit⟩ := bind_eq_some_iff.mp hit
  obtain ⟨i', foundIndex, hit⟩ := bind_eq_some_iff.mp hit
  cases hit
  obtain ⟨s, place, named⟩ := dirIndex_some foundIndex
  exact ⟨(findMount_some foundMount).1, parent, s, foundParent, place, named⟩

theorem Tidy.unique (tidy : Tidy w) {left right : Nat}
    (leftUsed : (w.mounts left).used = true) (rightUsed : (w.mounts right).used = true)
    (inLeft : pathInSubtree p (w.mounts left).mountpoint = true)
    (inRight : pathInSubtree p (w.mounts right).mountpoint = true) : left = right := by
  rcases pathInSubtree_linear inLeft inRight with nested | nested
  · exact tidy.mountpoints left right leftUsed rightUsed nested
  · exact (tidy.mountpoints right left rightUsed leftUsed nested).symm

theorem pathInSubtree_ne_nil {upper : Path} (below : pathInSubtree p upper = true)
    (ne : upper ≠ []) : p ≠ [] := by
  rcases pathInSubtree_iff.mp below with rfl | ⟨rest, rfl⟩
  · exact ne
  · simp

section

variable (inside : Inside m b w)

include inside

theorem Inside.unique (used : (w.mounts k).used = true)
    (below : pathInSubtree p (w.mounts k).mountpoint = true)
    (expected : pathInSubtree p b = true) : k = m :=
  inside.tidy.unique used inside.used below (by rw [inside.mountpoint]; exact expected)

theorem Inside.valid : validMountpoint b = true := by
  have named := (inside.tidy.mounts m inside.used).mountpoint
  rw [inside.mountpoint] at named
  exact named

theorem Inside.nonempty : b ≠ [] := validMountpoint_ne_nil inside.valid

theorem Inside.fileMount (hit : findMountAndIndexForFile w p = some (k, i))
    (below : pathInSubtree p b = true) : k = m := by
  obtain ⟨used, s, place, rfl⟩ := findMountAndIndexForFile_some hit
  exact inside.unique used (((inside.tidy.mounts k used).files s
    (mem_of_getElem? place)).below (pathInSubtree_ne_nil below inside.nonempty)) below

theorem Inside.dirMount (hit : findMountAndIndexForDirectory w p = some (k, i))
    (below : pathInSubtree p b = true) : k = m := by
  obtain ⟨used, named, s, place, rfl⟩ := findMountAndIndexForDirectory_some hit
  exact inside.unique used (((inside.tidy.mounts k used).dirs s
    (mem_of_getElem? place)).below named) below

theorem Inside.parentMount (hit : findMountAndParentDirectory w p = some (k, i, name))
    (below : pathInSubtree p b = true) : k = m := by
  obtain ⟨used, parent, s, split, place, rfl⟩ := findMountAndParentDirectory_some hit
  exact inside.unique used (pathInSubtree_trans (parentPathOf_subtree split)
    (((inside.tidy.mounts k used).dirs s (mem_of_getElem? place)).below
      (parentPathOf_ne_nil split))) below

section

variable (hit : findMountAndParentDirectory w p = some (m, i, name))

include hit

theorem Inside.childPath : pathInSubtree p b = true := by
  obtain ⟨used, parent, s, split, place, rfl⟩ := findMountAndParentDirectory_some hit
  rw [← inside.mountpoint]
  exact pathInSubtree_trans (parentPathOf_subtree split)
    (((inside.tidy.mounts m used).dirs s (mem_of_getElem? place)).below
      (parentPathOf_ne_nil split))

variable {directory : Directory}

theorem Inside.parentPath (place : (w.mounts m).dirs[i]? = some directory) :
    pathInSubtree directory.path b = true := by
  obtain ⟨used, parent, s, split, slotPlace, rfl⟩ := findMountAndParentDirectory_some hit
  obtain rfl := some.inj (slotPlace.symm.trans place)
  rw [← inside.mountpoint]
  exact ((inside.tidy.mounts m used).dirs s (mem_of_getElem? place)).below
    (parentPathOf_ne_nil split)

end

theorem Inside.pathMount
    (hit : findMountForPath w p = some k) (below : pathInSubtree p b = true) : k = m :=
  inside.unique (findMount_some hit).1 (findMount_some hit).2 below

end

theorem Tidy.located (tidy : Tidy w) (used : (w.mounts m).used = true)
    (below : pathInSubtree p (w.mounts m).mountpoint = true) :
    findMountForPath w p = some m := by
  have bounded : m < exfatMaxVolumes := by
    by_contra large
    rw [tidy.bound m (not_lt.mp large)] at used
    cases used
  cases hit : findMountForPath w p with
  | none =>
    have fails := find?_eq_none.mp hit m (mem_range.mpr bounded)
    exact absurd (Bool.and_eq_true_iff.mpr ⟨used, below⟩) fails
  | some k =>
    obtain ⟨kUsed, kBelow⟩ := findMount_some hit
    rw [tidy.unique kUsed used kBelow below]

theorem Inside.located (inside : Inside m b w) (below : pathInSubtree p b = true) :
    findMountForPath w p = some m :=
  inside.tidy.located inside.used (by rw [inside.mountpoint]; exact below)

/-! ## Slots -/

variable {i : Nat}

theorem fileSlot_keeps : Keeps m b before (fileSlot m i) before fun s => s.Placed b := by
  refine Keeps.asks fun w inside => Keeps.ofOption.weaken fun s hit => ?_
  rw [← inside.mountpoint]
  exact (inside.tidy.mounts m inside.used).files s (mem_of_getElem? hit)

theorem dirSlot_keeps : Keeps m b before (dirSlot m i) before fun s => s.Placed b := by
  refine Keeps.asks fun w inside => Keeps.ofOption.weaken fun s hit => ?_
  rw [← inside.mountpoint]
  exact (inside.tidy.mounts m inside.used).dirs s (mem_of_getElem? hit)

theorem setFiles_keeps {change : Mount → List FileSlot}
    (placed : ∀ mount, mount.mountpoint = b → mount.Tidy → ∀ s ∈ change mount, s.Placed b) :
    Neutral m b true (updateMount m fun mount => { mount with files := change mount }) := by
  apply updateMount_keeps
  · exact fun _ => rfl
  · exact fun _ => rfl
  · exact fun _ => rfl
  intro mount named tidy
  refine ⟨tidy.laid, tidy.mountpoint, ?_, tidy.dirs⟩
  rw [named]
  exact placed mount named tidy

theorem setDirs_keeps {change : Mount → List Directory}
    (placed : ∀ mount, mount.mountpoint = b → mount.Tidy → ∀ s ∈ change mount, s.Placed b) :
    Neutral m b true (updateMount m fun mount => { mount with dirs := change mount }) := by
  apply updateMount_keeps
  · exact fun _ => rfl
  · exact fun _ => rfl
  · exact fun _ => rfl
  intro mount named tidy
  refine ⟨tidy.laid, tidy.mountpoint, tidy.files, ?_⟩
  rw [named]
  exact placed mount named tidy

theorem Mount.Tidy.fileSlot (tidy : mount.Tidy) (named : mount.mountpoint = b)
    (mem : s ∈ mount.files) : s.Placed b :=
  named ▸ tidy.files s mem

theorem Mount.Tidy.dirSlot (tidy : mount.Tidy) (named : mount.mountpoint = b) {s : Directory}
    (mem : s ∈ mount.dirs) : s.Placed b :=
  named ▸ tidy.dirs s mem

variable {α : Type} {change : ExfatFile → ExfatFile} {p : Option Path}

theorem mem_modify {list : List α} {change : α → α} {v : α} (mem : v ∈ list.modify i change) :
    v ∈ list ∨ ∃ old ∈ list, v = change old := by
  obtain ⟨place, hit⟩ := mem_iff_getElem?.mp mem
  rw [getElem?_modify] at hit
  split at hit
  · obtain ⟨old, place, rfl⟩ := map_eq_some_iff.mp hit
    exact .inr ⟨old, mem_of_getElem? place, rfl⟩
  · have kept : list[place]? = some v := by simpa using hit
    exact .inl (mem_of_getElem? kept)

theorem updateFile_run (change : ExfatFile → ExfatFile) :
    updateFile m i change w = (some (), w.setMount m { w.mounts m with
      files := (w.mounts m).files.modify i
        fun s => { s with file := change s.file } }) := (rfl)

theorem updateFile_medium {m i : Nat} {w : World} :
    (updateFile m i change w).2.medium m = w.medium m := by
  rw [updateFile_run, World.medium, setMount_disk]
  · rfl
  · rfl

theorem updateFile_keeps (off : ∀ file, (change file).fileEntryOffset = file.fileEntryOffset)
    (n : ∀ file, (change file).secondaryCount = file.secondaryCount) :
    Neutral m b true (updateFile m i change) := by
  apply setFiles_keeps
  intro mount named tidy s mem
  rcases mem_modify mem with old | ⟨old, hit, rfl⟩
  · exact tidy.fileSlot named old
  have known := tidy.fileSlot named hit
  exact ⟨by rw [off, n]; exact known.entry, known.below⟩

theorem updateDir_keeps {change : Directory → Directory}
    (placed : ∀ directory, directory.Placed b → (change directory).Placed b) :
    Neutral m b true (updateDir m i change) := by
  apply setDirs_keeps
  intro mount named tidy s mem
  rcases mem_modify mem with old | ⟨old, hit, rfl⟩
  · exact tidy.dirSlot named old
  · exact placed old (tidy.dirSlot named hit)

/-! ## Reservations -/

theorem reserveTables_keeps {f dirs : Nat} : Neutral m b before (reserveTables m f dirs) :=
  Keeps.of_reserving reserveTables_reserves

theorem mutationCapacity_keeps {f dirs : Nat} : Neutral m b before (mutationCapacity m p f dirs) :=
  Keeps.of_reserving mutationCapacity_reserves

theorem reserveMutation_keeps {f dirs : Nat} : Neutral m b before (reserveMutation m p f dirs) :=
  Keeps.of_reserving (reserveMutation_reserves p)

/-! ## Allocation -/

theorem writeBitmapSpan_keeps (above : bootBytes ≤ off) {firstBit lastBit : Nat} :
    Writes m b before (writeBitmapSpan m off bitmap firstBit lastBit) := by
  refine .reads fun v => ?_
  refine .check fun _ => ?_
  exact volumeWrite_keeps (misses_of_boot (above.trans (Nat.le_add_right _ _)))

theorem readBitmap_keeps : Keeps m b before (readBitmap m) before fun hit => bootBytes ≤ hit.1 := by
  refine .reads fun v => ?_
  refine clusterBase_keeps.bind fun off above => ?_
  refine volumeRead_keeps.bind fun bitmap _ => ?_
  exact .pure above

variable {n : Nat}

theorem allocateContiguousClusters_keeps : Writes m b before (allocateContiguousClusters m n) := by
  refine .reads fun v => ?_
  refine .check fun _ => ?_
  refine kmalloc_keeps.seq ?_
  refine readBitmap_keeps.bind fun hit above => ?_
  refine .check fun _ => ?_
  refine .found fun start _ => ?_
  refine fillFatRange_keeps.seq ?_
  refine (writeBitmapSpan_keeps above).seq ?_
  exact .pure trivial

theorem clearFatEntries_keeps {clusters : List Nat} :
    Neutral m b before (clearFatEntries m clusters) := by
  induction clusters with
  | nil => exact .pure trivial
  | cons c rest ih => exact writeFatEntry_keeps.ignore.bind fun _ _ => ih

theorem linkClusters_keeps {linked clusters : List Nat} :
    Neutral m b before (linkClusters m linked clusters) := by
  induction clusters generalizing linked with
  | nil => exact Keeps.pure trivial
  | cons c rest ih =>
    refine (Keeps.onFailure writeFatEntry_keeps.relax clearFatEntries_keeps).seq ?_
    exact ih

theorem allocateFragmentedClusters_keeps : Writes m b before (allocateFragmentedClusters m n) := by
  refine .reads fun v => ?_
  refine .check fun _ => ?_
  refine kmalloc_keeps.attempt.bind fun _ _ => ?_
  refine kmalloc_keeps.attempt.bind fun _ _ => ?_
  refine .check fun _ => ?_
  refine readBitmap_keeps.bind fun hit above => ?_
  refine Keeps.check fun _ => ?_
  refine linkClusters_keeps.seq ?_
  refine (Keeps.onFailure (writeBitmapSpan_keeps above) clearFatEntries_keeps).seq ?_
  exact Keeps.pure trivial

theorem allocateClusters_keeps_some (pos : n ≠ 0) : Writes m b before (allocateClusters m n) := by
  refine .reads fun v => ?_
  refine .check fun _ => ?_
  refine .ite (fun zero => absurd zero pos) fun _ => ?_
  refine allocateContiguousClusters_keeps.attemptBind (fun first _ => .pure trivial) ?_
  refine .reads fun v => ?_
  refine .check fun _ => ?_
  refine allocateFragmentedClusters_keeps.bind fun first _ => ?_
  exact .pure trivial

theorem allocateClusters_keeps : Neutral m b before (allocateClusters m n) := by
  by_cases zero : n = 0
  · refine .reads fun v => ?_
    refine .check fun _ => ?_
    exact .stop fun pos => absurd zero pos
  · exact (allocateClusters_keeps_some zero).relax

theorem releaseLoop_keeps {span : Option (Nat × Nat)} :
    Neutral m b before (releaseLoop m noFatChain rest c bitmap span) := by
  induction rest generalizing c bitmap span with
  | zero => exact .pure trivial
  | succ rest ih =>
    refine .reads fun v => ?_
    refine .check fun _ => ?_
    refine .next
      (Keeps.ite (fun _ => nextCluster_keeps) fun _ => Keeps.pure trivial)
      fun next => ?_
    refine (Keeps.when fun _ => writeFatEntry_keeps).seq ?_
    exact ih

variable {file : ExfatFile}

theorem freeFileClusters_keeps : Neutral m b before (freeFileClusters m file) := by
  refine .reads fun v => ?_
  refine .reads fun mount => ?_
  refine .stop fun _ => ?_
  refine .stop fun _ => ?_
  refine kmalloc_keeps.seq ?_
  refine readBitmap_keeps.bind fun hit above => ?_
  refine releaseLoop_keeps.bind fun cleared _ => ?_
  refine (Keeps.when fun _ => fillFatRange_keeps).seq ?_
  refine Keeps.found fun span _ => ?_
  exact (writeBitmapSpan_keeps above).relax

theorem releaseCreatedClusters_keeps {first n : Nat} :
    Neutral m b before (releaseCreatedClusters m first n) :=
  freeFileClusters_keeps.ignore

/-! ## Directory records -/

theorem entryPlace_misses (place : EntryPlace off secondaryCount) {len : Nat}
    (short : secondaryCount = 0 → len ≤ 106) : MissesFlags off len := by
  rcases place with above | ⟨zero, none⟩
  · exact misses_of_boot above
  · exact .inr (by omega)

theorem entryPlace_boot (place : EntryPlace off secondaryCount) (several : secondaryCount ≠ 0) :
    bootBytes ≤ off := by
  rcases place with above | ⟨_, none⟩
  · exact above
  · exact absurd none several

variable {p : Path} {size : Nat}

theorem updateFileLength_keeps (place : EntryPlace file.fileEntryOffset file.secondaryCount) :
    Writes m b before (updateFileLength m file p size) := by
  refine .check fun shape => ?_
  refine volumeRead_keeps.bind fun entries _ => ?_
  refine .check fun _ => ?_
  have above := entryPlace_boot place (by omega)
  refine (volumeWrite_keeps (misses_of_boot above)).seq ?_
  exact vfsUpdateFileSize_keeps.ignore

theorem updateSlotLength_keeps : Writes m b before (updateSlotLength m i p size) := by
  refine fileSlot_keeps.bind fun s known => ?_
  refine (updateFileLength_keeps known.1).seq ?_
  exact updateFile_keeps (fun _ => rfl) fun _ => rfl

theorem readEntryRun_keeps :
    Keeps m b before (readEntryRun m off n) before
      fun entries => entries.length = n * exfatEntrySize := by
  refine .check fun _ => ?_
  exact volumeRead_keeps

theorem restoreEntryRun_keeps (misses : MissesFlags off entries.length) :
    Neutral m b before (restoreEntryRun m off entries) :=
  (volumeWrite_keeps misses).ignore

theorem writeDeletedEntries_keeps (place : EntryPlace off secondaryCount) :
    Writes m b before (writeDeletedEntries m off secondaryCount) := by
  refine .check fun shape => ?_
  refine volumeFlush_keeps.seq ?_
  exact volumeWrite_keeps (misses_of_boot (entryPlace_boot place (by omega)))

theorem writeInactiveEntryRun_keeps (above : bootBytes ≤ off) :
    Neutral m b before (writeInactiveEntryRun m off n) := by
  refine .stop fun _ => ?_
  exact (volumeWrite_keeps (misses_of_boot above)).relax

theorem prepareCluster_keeps (above : bootBytes ≤ off) {buffer : Bytes} {clusterSize : Nat}
    {isTarget : Bool} :
    Neutral m b before (prepareCluster m off buffer clusterSize isTarget reserved afterEnd) := by
  unfold prepareCluster
  cases (if afterEnd then some 0 else firstEnd buffer (clusterSize / exfatEntrySize) 0) with
  | none => exact .pure trivial
  | some stop =>
    refine .ite (fun _ => ?_) fun _ => .pure trivial
    refine .stop fun _ => ?_
    refine (volumeWrite_keeps (misses_of_boot
      (above.trans (Nat.le_add_right _ _)))).relax.seq ?_
    exact volumeFlush_keeps.bind fun _ _ => .pure trivial

theorem preparePrefixLoop_keeps {t : Nat} :
    Neutral m b before (preparePrefixLoop m directory t reserved fuel visited c afterEnd) := by
  induction fuel generalizing visited c afterEnd with
  | zero => exact .fail
  | succ fuel ih =>
    refine .reads fun v => ?_
    refine clusterBase_keeps.bind fun off above => ?_
    refine volumeRead_keeps.bind fun buffer _ => ?_
    refine (prepareCluster_keeps above).bind fun ended _ => ?_
    refine .stop fun _ => ?_
    refine Keeps.ite (fun _ => ?_) fun _ => ?_
    · refine Keeps.ite (fun _ => Keeps.require.weaken fun _ _ => trivial) fun _ => ?_
      exact ih
    refine nextCluster_keeps.bind fun next _ => ?_
    refine Keeps.ite (fun _ => Keeps.require.weaken fun _ _ => trivial) fun _ => ?_
    exact ih

theorem prepareDirectoryPrefix_keeps {t s entries : Nat} :
    Neutral m b before (prepareDirectoryPrefix m directory t s entries) := by
  refine .reads fun v => ?_
  exact preparePrefixLoop_keeps

theorem freeOffsetLoop_keeps {previous : Nat} :
    Keeps m b before (freeOffsetLoop m directory needed fuel visited c previous afterEnd)
      before fun hit => ∀ t off place, hit = .room t off place →
        bootBytes ≤ off := by
  induction fuel generalizing visited c previous afterEnd with
  | zero => exact Keeps.pure (by simp)
  | succ fuel ih =>
    refine Keeps.ite (fun _ => Keeps.pure (by simp)) fun _ => ?_
    refine .reads fun v => ?_
    refine clusterBase_keeps.bind fun off above => ?_
    refine volumeRead_keeps.bind fun buffer _ => ?_
    dsimp only
    cases scanDirectoryClusterForFree
        (if afterEnd then replicate v.clusterSize 0 else buffer)
        v.clusterSize needed with
    | some place =>
      refine .pure ?_
      intro t other place hit
      rw [FreeSearch.room.injEq] at hit
      rw [← hit.2.1]
      exact above
    | none =>
      refine .next ?_ fun next => ih
      refine .ite (fun _ => ?_) fun _ => nextCluster_keeps
      exact .stop fun _ => .pure trivial

theorem linkContiguous_keeps : Neutral m b before (linkContiguous m rest c last) := by
  induction rest generalizing c with
  | zero => exact .pure trivial
  | succ rest ih => exact writeFatEntry_keeps.relax.bind fun _ _ => ih

section

variable (place : EntryPlace directory.fileEntryOffset directory.secondaryCount)

include place

theorem growDirectoryLength_keeps : Writes m b before (growDirectoryLength m i directory) := by
  refine .reads fun v => ?_
  refine (updateFileLength_keeps place).seq ?_
  exact updateDir_keeps fun _ known => ⟨known.entry, known.below⟩

theorem growDirectory_keeps {previous : Nat} :
    Keeps m b before (growDirectory m i directory previous) true
      fun off => bootBytes ≤ off := by
  refine .reads fun v => ?_
  refine allocateContiguousClusters_keeps.bind fun newCluster _ => ?_
  have initialized : Keeps m b true (do
      let off ← clusterBase m newCluster
      volumeWrite m off (replicate v.clusterSize 0)
      volumeFlush m
      return off) true fun off => bootBytes ≤ off := by
    refine clusterBase_keeps.bind fun off above => ?_
    refine (volumeWrite_keeps (misses_of_boot above)).seq ?_
    exact volumeFlush_keeps.bind fun _ _ => .pure above
  refine (initialized.onFailure releaseCreatedClusters_keeps).bind fun off above => ?_
  refine (prepareDirectoryPrefix_keeps.onFailure
    releaseCreatedClusters_keeps).seq ?_
  refine Keeps.next (Keeps.ite (fun _ => linkContiguous_keeps)
    fun _ => writeFatEntry_keeps) fun _ => ?_
  refine volumeFlush_keeps.seq ?_
  refine (Keeps.when fun _ => growDirectoryLength_keeps place).seq ?_
  refine (updateDir_keeps ?_).seq (Keeps.pure above)
  exact fun _ known => ⟨known.entry, known.below⟩

end

theorem directoryFreeOffset_keeps :
    Keeps m b before (directoryFreeOffset m i needed) before
      fun off => bootBytes ≤ off := by
  refine .reads fun v => ?_
  refine dirSlot_keeps.bind fun directory known => ?_
  refine .check fun _ => ?_
  refine kmalloc_keeps.seq ?_
  refine freeOffsetLoop_keeps.bind fun hit above => ?_
  cases hit with
  | room c off place =>
    refine prepareDirectoryPrefix_keeps.seq ?_
    exact .pure ((above _ _ _ rfl).trans (Nat.le_add_right _ _))
  | full previous =>
    refine .check fun _ => ?_
    exact (growDirectory_keeps known.1).relax

/-! ## File data -/

theorem followChain_keeps {c : Nat} : Neutral m b before (followChain m c) := by
  refine nextCluster_keeps.bind fun next _ => ?_
  exact .check fun _ => .pure trivial

variable {d : Bytes}

theorem writeDataLoop_keeps {bufferBytes clusters : Nat} :
    Neutral m b before (writeDataLoop m noFatChain bufferBytes fuel clusters c d) := by
  induction fuel generalizing clusters c d with
  | zero => exact .pure trivial
  | succ fuel ih =>
    refine .stop fun _ => ?_
    refine .reads fun v => ?_
    refine clusterBase_keeps.bind fun off above => ?_
    refine clusterBase_keeps.seq ?_
    refine (volumeWrite_keeps (misses_of_boot above)).relax.seq ?_
    refine .stop fun _ => ?_
    refine .next (.stop fun _ => followChain_keeps) fun next => ?_
    exact ih

variable {d entries : Bytes} {fuel c within first : Nat} {contiguous oldTail : Bool}

theorem writeFileData_keeps : Neutral m b before (writeFileData m file d) := by
  refine .stop fun _ => ?_
  refine .reads fun w => ?_
  refine .check fun _ => ?_
  refine kmalloc_keeps.seq ?_
  exact writeDataLoop_keeps

theorem compareCluster_keeps {done : Nat} :
    Neutral m b before (compareCluster m off fuel done expected) := by
  induction fuel generalizing done expected with
  | zero => exact .pure trivial
  | succ fuel ih =>
    refine .stop fun _ => ?_
    refine volumeRead_keeps.bind fun buffer _ => ?_
    exact .ite (fun _ => ih) fun _ => .pure trivial

theorem provenPrefix_keeps : Neutral m b before (provenPrefix m noFatChain fuel c expected) := by
  induction fuel generalizing c expected with
  | zero => exact .pure trivial
  | succ fuel ih =>
    refine .reads fun v => ?_
    refine clusterBase_keeps.bind fun off _ => ?_
    refine compareCluster_keeps.bind fun same _ => ?_
    refine .ite (fun _ => ?_) fun _ => .pure trivial
    refine .stop fun _ => ?_
    refine .next (.stop fun _ => followChain_keeps) fun next => ?_
    exact ih

theorem linkRun_keeps : Neutral m b before (linkRun m first n) := by
  unfold linkRun
  induction range (n - 1) with
  | nil => exact .pure trivial
  | cons i rest ih => exact writeFatEntry_keeps.relax.bind fun _ _ => ih

theorem appendLoop_keeps :
    Neutral m b before (appendLoop m first contiguous fuel c within oldTail d) := by
  induction fuel generalizing c within oldTail d with
  | zero => exact .pure trivial
  | succ fuel ih =>
    refine .stop fun _ => ?_
    refine .reads fun v => ?_
    refine clusterBase_keeps.bind fun off above => ?_
    refine (volumeWrite_keeps (misses_of_boot
      (above.trans (Nat.le_add_right _ _)))).relax.seq ?_
    refine .stop fun _ => ?_
    refine .next (.stop fun _ => .stop fun _ => followChain_keeps) fun next => ?_
    exact ih

theorem appendLoop_writes (some_ : d ≠ []) :
    Writes m b before (appendLoop m first contiguous (fuel + 1) c within oldTail d) := by
  refine .ite (fun empty => absurd empty some_) fun _ => ?_
  refine .reads fun v => ?_
  refine clusterBase_keeps.bind fun off above => ?_
  refine (volumeWrite_keeps (misses_of_boot (above.trans (Nat.le_add_right _ _)))).seq ?_
  refine .stop fun _ => ?_
  refine .next (.stop fun _ => .stop fun _ => followChain_keeps) fun next => ?_
  exact appendLoop_keeps

theorem attachChain_keeps : Writes m b before (attachChain m last first) := by
  refine writeFatEntry_keeps.seq ?_
  exact volumeFlush_keeps

/-! ## Detaching an extent -/

theorem files_restored (place : f[i]? = some s) {empty restore : ExfatFile → ExfatFile}
    (inverse : restore (empty s.file) = s.file) :
    (f.modify i fun s => { s with file := empty s.file }).modify i
      (fun s => { s with file := restore s.file }) = f := by
  apply ext_getElem?
  intro other
  by_cases here : i = other
  · subst here
    simp [place, inverse]
  · simp [here]

theorem Inside.updateFile (inside : Inside m b w) (i : Nat) (change : ExfatFile → ExfatFile)
    (off : ∀ file, (change file).fileEntryOffset = file.fileEntryOffset)
    (n : ∀ file, (change file).secondaryCount = file.secondaryCount) :
    Tidy (updateFile m i change w).2 ∧
      Outline m w (updateFile m i change w).2 ∧
      Level m w (updateFile m i change w).2 := by
  have tidy := inside.tidy.mounts m inside.used
  refine ⟨inside.tidy.setMount rfl rfl rfl fun _ => ?_,
    Outline.setMount rfl rfl rfl rfl (fun holds => holds) fun holds => holds, Level.setMount rfl⟩
  refine ⟨tidy.laid, tidy.mountpoint, fun s mem => ?_, tidy.dirs⟩
  rcases mem_modify mem with old | ⟨old, hit, rfl⟩
  · exact tidy.files s old
  · exact ⟨by rw [off, n]; exact (tidy.files old hit).entry, (tidy.files old hit).below⟩

theorem detachExtent_keeps : Writes m b before (detachExtent m i p) := by
  intro w start _
  rcases place : (w.mounts m).files[i]? with _ | s
  · have failed : detachExtent m i p w = (none, w) := by
      simp [detachExtent, bind_run, fileSlot, place, ofOption]
    rw [failed]
    exact ⟨start.tidy, Frame.refl, nofun⟩
  let empty : ExfatFile → ExfatFile := ({ · with
    firstCluster := 0, allocatedClusters := 0, noFatChain := true })
  let restore : ExfatFile → ExfatFile := ({ · with
    firstCluster := s.file.firstCluster
    allocatedClusters := s.file.allocatedClusters
    noFatChain := s.file.noFatChain })
  obtain ⟨tidy, outline, level⟩ := start.updateFile i empty (fun _ => rfl) fun _ => rfl
  have f : ((updateFile m i empty w).2.mounts m).files =
      (w.mounts m).files.modify i fun s => { s with file := empty s.file } := by
    rw [updateFile_run, setMount_self]
  have others : (updateFile m i empty w).2.vfs.nodes = w.vfs.nodes ∧
      ((updateFile m i empty w).2.mounts m).dirs = (w.mounts m).dirs ∧
      (updateFile m i empty w).2.medium m = w.medium m := by
    refine ⟨rfl, ?_, updateFile_medium⟩
    rw [updateFile_run, setMount_self]
  have run : detachExtent m i p w =
      match onFailure (updateSlotLength m i p 0) (updateFile m i restore)
        (updateFile m i empty w).2 with
      | (some _, next) => (some s.file, next)
      | (none, next) => (none, next) := by
    simp only [detachExtent, bind_run, fileSlot, gets_run, place, ofOption,
      pure_run, updateFile_run, restore]
    generalize onFailure _ _ _ = result
    rcases result with ⟨_ | v, next⟩
    · rfl
    · rfl
  rw [run]
  generalize (updateFile m i empty w).2 = emptyWorld at tidy outline level f others
  have inside := start.of_outline tidy outline level
  have whole : Writes m b false (updateSlotLength m i p 0) := updateSlotLength_keeps
  have step := whole emptyWorld inside (by simp)
  unfold onFailure
  rcases outcome : updateSlotLength m i p 0 emptyWorld with ⟨_ | v, next⟩
  · rw [outcome] at step
    obtain ⟨tidy', frame', _⟩ := step
    obtain ⟨tidy'', outline'', level''⟩ :=
      (inside.of_frame tidy' frame').updateFile i restore (fun _ => rfl) fun _ => rfl
    refine ⟨tidy'', ⟨(outline.trans frame'.toOutline).trans outline'',
      (level.trans frame'.toLevel).trans level'', ?_⟩, nofun⟩
    intro clear
    have same := frame'.calm (outline''.unwritten clear)
    change Untouched m w (updateFile m i restore next).2
    refine ⟨?_, ?_, ?_, ?_⟩
    · rw [updateFile_run, setMount_self]
      rw [same.files, f]
      exact files_restored place rfl
    · rw [updateFile_run, setMount_self]
      exact same.dirs.trans others.2.1
    · exact same.nodes.trans others.1
    · rw [updateFile_medium]
      exact same.medium.trans others.2.2
  rw [outcome] at step
  obtain ⟨tidy', frame', values⟩ := step
  have written := (values v rfl).2 rfl
  refine ⟨tidy', ⟨outline.trans frame'.toOutline, level.trans frame'.toLevel, ?_⟩,
    fun _ _ => ⟨trivial, fun _ => written⟩⟩
  intro clear
  cases written.symm.trans clear

/-! ## Registration -/

theorem mem_placed {s v : α} {table : List α} {free : Option Nat}
    (mem : v ∈ (match free with
      | some i => (i, table.set i s)
      | none => (table.length, table ++ [s])).2) : v ∈ table ∨ v = s := by
  split at mem
  · exact mem_or_eq_of_mem_set mem
  · simpa using mem

theorem mem_placeFile {v : FileSlot} (mem : v ∈ (placeFile s f).2) : v ∈ f ∨ v = s :=
  mem_placed mem

theorem mem_placeDirectory {s v : Directory} {dirs : List Directory}
    (mem : v ∈ (placeDirectory s dirs).2) : v ∈ dirs ∨ v = s :=
  mem_placed mem

theorem buildChildPath_subtree {parent child : Path}
    (hit : buildChildPath parent entries = some child) (below : pathInSubtree parent b = true)
    (last : b.getLast? ≠ some slash) : pathInSubtree child b = true := by
  unfold buildChildPath at hit
  rw [ite_none_left_eq_some] at hit
  rw [← some.inj hit.2]
  exact appendMountPath_subtree below last _

theorem registerFile_keeps {parent : Path} (below : pathInSubtree parent b = true)
    (above : bootBytes ≤ off) : Neutral m b true (registerFile m parent entries off) := by
  refine .asks fun w inside => ?_
  refine .check fun _ => ?_
  refine .found fun p hit => ?_
  refine .check fun _ => ?_
  refine .check fun _ => ?_
  refine reserveTables_keeps.seq ?_
  refine vfsReserveNodes_keeps.seq ?_
  refine vfsRegister_keeps.seq ?_
  apply setFiles_keeps
  intro mount named tidy s mem
  rcases mem_placeFile mem with old | rfl
  · exact tidy.fileSlot named old
  exact ⟨.inl above, fun _ =>
    buildChildPath_subtree hit below (validMountpoint_last inside.valid)⟩

theorem registerDirectory_keeps {s : Directory} (below : pathInSubtree s.path b = true)
    (place : EntryPlace s.fileEntryOffset s.secondaryCount) :
    Neutral m b true (registerDirectory m s) := by
  refine .reads fun w => ?_
  refine .check fun _ => ?_
  refine .check fun _ => ?_
  refine reserveTables_keeps.seq ?_
  refine vfsReserveNodes_keeps.seq ?_
  refine vfsRegister_keeps.seq ?_
  apply setDirs_keeps
  intro mount named tidy other mem
  rcases mem_placeDirectory mem with old | rfl
  · exact tidy.dirSlot named old
  · exact ⟨place, fun _ => below⟩

variable {mode : Option Nat}

theorem initializeMode_keeps : Neutral m b true (initializeMode p mode) := by
  cases mode with
  | none => exact .pure trivial
  | some mode =>
    refine .reads fun w => ?_
    refine .found fun node _ => ?_
    exact vfsSetMetadata_keeps

theorem publishEntrySet_keeps {parent : Nat} {register : Nat → Driver Unit}
    (registers : ∀ off, bootBytes ≤ off → Neutral m b true (register off)) :
    Writes m b before (publishEntrySet m parent entries register) := by
  refine directoryFreeOffset_keeps.bind fun off above => ?_
  refine readEntryRun_keeps.bind fun displaced _ => ?_
  refine .onFailure ?_ (restoreEntryRun_keeps (misses_of_boot above))
  refine (volumeWrite_keeps (misses_of_boot above)).seq ?_
  exact registers off above

/-! ## Deletion -/

theorem mem_rdropWhile {test : α → Bool} {list : List α} {v : α}
    (mem : v ∈ list.rdropWhile test) : v ∈ list :=
  (List.rdropWhile_prefix test list).subset mem

theorem clearFileSlot_keeps : Neutral m b true (clearFileSlot m i) := by
  apply setFiles_keeps
  intro mount named tidy s mem
  rcases mem_or_eq_of_mem_set (mem_rdropWhile mem) with old | rfl
  · exact tidy.fileSlot named old
  · exact ⟨.inr ⟨rfl, rfl⟩, fun ne => absurd rfl ne⟩

theorem clearDirectorySlot_keeps : Neutral m b true (clearDirectorySlot m i) := by
  apply setDirs_keeps
  intro mount named tidy s mem
  rcases mem_or_eq_of_mem_set (mem_rdropWhile mem) with old | rfl
  · exact tidy.dirSlot named old
  · exact ⟨.inr ⟨rfl, rfl⟩, fun ne => absurd rfl ne⟩

theorem restoreRecord_keeps (place : EntryPlace off secondaryCount)
    (len : entries.length = (secondaryCount + 1) * exfatEntrySize) :
    Neutral m b before (restoreEntryRun m off entries) := by
  apply restoreEntryRun_keeps
  apply entryPlace_misses place
  rintro rfl
  rw [len]
  decide

/-! ## Renaming and replacing -/

variable {oldPath newPath : Path}

theorem moveEntrySet_keeps {oldOffset oldSecondaryCount : Nat}
    (place : EntryPlace oldOffset oldSecondaryCount) {fields : Path → EntryFields} :
    Keeps m b before (moveEntrySet m oldPath newPath oldOffset oldSecondaryCount fields) true
      fun moved => bootBytes ≤ moved.1 ∧ pathInSubtree newPath b = true ∧
        Neutral m b true moved.2.2 := by
  refine .asks fun w inside => ?_
  refine .found fun (newMount, parent, name) hit => ?_
  refine .check fun here => ?_
  obtain rfl : m = newMount := here.1.symm
  have below := inside.childPath hit
  refine .found fun (oldMount, oldParent, _) _ => ?_
  refine .check fun _ => ?_
  refine .found fun entries built => ?_
  refine readEntryRun_keeps.bind fun oldEntries oldLength => ?_
  have n := buildFileEntrySet_count built
  have several := (buildFileEntrySet_length built).2
  have t : Keeps m b before
      (if (decide (parent ≠ oldParent) || decide (oldSecondaryCount + 1 <
          entries.length / exfatEntrySize)) = true then
        directoryFreeOffset m parent (entries.length / exfatEntrySize)
      else pure oldOffset) before fun off => bootBytes ≤ off := by
    refine .ite (fun _ => directoryFreeOffset_keeps) fun same => ?_
    rw [Bool.or_eq_true, decide_eq_true_eq, decide_eq_true_eq, n] at same
    exact .pure (entryPlace_boot place (by omega))
  refine t.bind fun off above => ?_
  refine readEntryRun_keeps.bind fun displaced _ => ?_
  have undoOld : ∀ flag, Neutral m b flag (restoreEntryRun m oldOffset oldEntries) :=
    fun flag => restoreRecord_keeps place oldLength
  have undoNew : ∀ flag, Neutral m b flag (restoreEntryRun m off displaced) :=
    fun flag => restoreEntryRun_keeps (misses_of_boot above)
  have undo : ∀ condition : Prop, ∀ _ : Decidable condition, Neutral m b true (do
      when condition (restoreEntryRun m off displaced)
      restoreEntryRun m oldOffset oldEntries) :=
    fun _ _ => (Keeps.when fun _ => undoNew true).bind fun _ _ => undoOld true
  refine Keeps.guarded ?_ (Keeps.ite (fun _ => undoNew before) fun _ => undoOld before) ?_
  · refine (volumeWrite_keeps (misses_of_boot above)).seq ?_
    refine Keeps.ite (fun _ => writeDeletedEntries_keeps place) fun _ => ?_
    exact writeInactiveEntryRun_keeps (above.trans (Nat.le_add_right _ _))
  refine .guarded vfsUnregisterPath_keeps (undo _ _) ?_
  exact .pure ⟨above, below, undo _ _⟩

theorem storeFile_keeps (known : s.Placed b) :
    Neutral m b true
      (updateMount m fun mount => { mount with files := mount.files.set i s }) := by
  apply setFiles_keeps
  intro mount named tidy other mem
  rcases mem_or_eq_of_mem_set mem with old | rfl
  · exact tidy.fileSlot named old
  · exact known

theorem replacePlan_some {plan : ReplacePlan} (hit : replacePlan w oldPath newPath = some plan) :
    ∃ source t,
      findMountAndIndexForFile w newPath = some (plan.mount, plan.targetIndex) ∧
      (w.mounts plan.mount).files[plan.sourceIndex]? = some source ∧
      (w.mounts plan.mount).files[plan.targetIndex]? = some t ∧
      plan.source = source.file ∧ plan.target = t.file ∧
      validAsciiBasename newPath = true ∧
      buildFileEntrySet
        { name := lastComponent newPath, firstCluster := source.file.firstCluster,
          dataLength := source.file.size, validLength := source.file.validSize,
          attributes := 0x20, noFatChain := source.file.noFatChain } = some plan.entries ∧
      plan.entries.length / exfatEntrySize ≤ t.file.secondaryCount + 1 := by
  obtain ⟨⟨m, sourceIndex⟩, -, rest⟩ := bind_eq_some_iff.mp hit
  obtain ⟨⟨targetMount, targetIndex⟩, foundTarget, rest⟩ := bind_eq_some_iff.mp rest
  obtain ⟨source, sourcePlace, rest⟩ := bind_eq_some_iff.mp rest
  obtain ⟨t, targetPlace, rest⟩ := bind_eq_some_iff.mp rest
  obtain ⟨entries, built, rest⟩ := bind_eq_some_iff.mp rest
  rw [ite_none_right_eq_some] at rest
  obtain ⟨⟨rfl, -, named, wide, -, -⟩, made⟩ := rest
  cases made
  exact ⟨source, t, foundTarget, sourcePlace, targetPlace, rfl, rfl, named, built, wide⟩

/-! ## Bodies over a sidecar call -/

section Sync

variable {sync : Nat → Driver Unit} (syncs : Neutral m b false (sync m)) {newPath : Path}

include syncs

theorem syncUnlessInternal_keeps : Neutral m b before (syncUnlessInternal sync m p) := by
  refine .reads fun w => ?_
  exact .stop fun _ => syncs.lift.ignore

theorem renameFileInMount_keeps :
    Neutral m b before (renameFileInMount sync m i oldPath newPath) := by
  refine .reads fun w => ?_
  refine fileSlot_keeps.bind fun old known => ?_
  refine (moveEntrySet_keeps known.1).bind fun (off, n, undo) moved => ?_
  refine .forget ?_
  refine (storeFile_keeps ?_).seq ?_
  · exact ⟨.inl moved.1, fun _ => moved.2.1⟩
  refine .guarded vfsRegister_keeps ?_ ?_
  · refine moved.2.2.seq ?_
    refine (storeFile_keeps known).seq ?_
    exact vfsRegister_keeps.ignore
  · exact syncs.lift.ignore

theorem renameEmptyDirectoryInMount_keeps :
    Neutral m b before (renameEmptyDirectoryInMount sync m i oldPath newPath) := by
  refine .reads fun w => ?_
  refine .check fun _ => ?_
  refine dirSlot_keeps.bind fun old known => ?_
  refine (moveEntrySet_keeps known.1).bind fun (off, n, undo) moved => ?_
  refine .forget ?_
  refine (updateDir_keeps ?_).seq ?_
  · exact fun _ _ => ⟨.inl moved.1, fun _ => moved.2.1⟩
  refine .guarded vfsRegister_keeps ?_ ?_
  · refine moved.2.2.seq ?_
    refine (updateDir_keeps ?_).seq ?_
    · exact fun _ _ => ⟨known.entry, known.below⟩
    exact vfsRegister_keeps.ignore
  · exact syncs.lift.ignore

theorem replaceBody_keeps {plan : ReplacePlan} (here : plan.mount = m) {oldPath : Path}
    (below : pathInSubtree newPath b = true)
    (source : EntryPlace plan.source.fileEntryOffset plan.source.secondaryCount)
    (t : bootBytes ≤ plan.target.fileEntryOffset) :
    Neutral m b before (replaceBody sync plan oldPath newPath) := by
  subst here
  refine readEntryRun_keeps.bind fun sourceEntries len => ?_
  refine readEntryRun_keeps.bind fun targetEntries _ => ?_
  refine .guarded ?_ ?_ ?_
  · refine (volumeWrite_keeps (misses_of_boot t)).seq ?_
    refine (writeInactiveEntryRun_keeps (t.trans (Nat.le_add_right _ _))).seq ?_
    refine volumeFlush_keeps.seq ?_
    refine (writeDeletedEntries_keeps source).seq ?_
    refine volumeFlush_keeps.seq ?_
    exact vfsReplaceFilePath_keeps
  · refine (restoreEntryRun_keeps (misses_of_boot t)).seq ?_
    exact restoreRecord_keeps source len
  refine .forget ?_
  refine (storeFile_keeps ?_).seq ?_
  · exact ⟨.inl t, fun _ => below⟩
  refine clearFileSlot_keeps.seq ?_
  refine freeFileClusters_keeps.seq ?_
  exact syncs.lift

variable (below : pathInSubtree p b = true)

include below

theorem exfatMetadataChanged_keeps : Neutral m b before (exfatMetadataChanged sync p) := by
  refine .asks fun w inside => ?_
  dsimp only [id]
  cases hit : findMountForPath w p with
  | none => exact .pure trivial
  | some k =>
    cases inside.pathMount hit below
    exact .stop fun _ => syncs.lift

theorem appendFile_keeps : Neutral m b before (appendFile sync m i p d) := by
  refine .reads fun w => ?_
  refine fileSlot_keeps.bind fun s known => ?_
  refine .stop fun eligible => ?_
  refine kmalloc_keeps.seq ?_
  refine provenPrefix_keeps.bind fun proven _ => ?_
  cases proven with
  | none => exact Keeps.pure trivial
  | some last =>
    refine allocateClusters_keeps.bind fun extent _ => ?_
    refine (Keeps.when fun _ => linkRun_keeps).seq ?_
    refine (Keeps.when fun _ => linkRun_keeps).seq ?_
    have some_ : d.drop s.file.size ≠ [] := by
      rw [Ne, drop_eq_nil_iff]
      omega
    obtain ⟨fuel, fueled⟩ : ∃ fuel, d.length = fuel + 1 := ⟨d.length - 1, by omega⟩
    rw [fueled]
    refine (appendLoop_writes some_).seq ?_
    refine Keeps.forget ?_
    refine volumeFlush_keeps.seq ?_
    refine (Keeps.when fun _ => attachChain_keeps).seq ?_
    refine (updateFile_keeps ?_ ?_).seq ?_
    · exact fun _ => rfl
    · exact fun _ => rfl
    refine Keeps.bind (updateSlotLength_keeps.onFailure
      (updateFile_keeps ?_ ?_)) fun _ _ => ?_
    · exact fun _ => rfl
    · exact fun _ => rfl
    refine volumeFlush_keeps.seq ?_
    exact (exfatMetadataChanged_keeps syncs below).bind fun _ _ => .pure trivial

theorem truncateFile_keeps : Neutral m b before (truncateFile sync m i p) := by
  refine detachExtent_keeps.bind fun old _ => ?_
  refine .forget ?_
  refine volumeFlush_keeps.seq ?_
  refine freeFileClusters_keeps.seq ?_
  exact exfatMetadataChanged_keeps syncs below

theorem replaceContents_keeps (some_ : d ≠ []) :
    Neutral m b before (replaceContents sync m i p d) := by
  refine volume_keeps.bind fun v laid => ?_
  refine fileSlot_keeps.bind fun s _ => ?_
  have pos : clustersForSize v d.length ≠ 0 :=
    clustersForSize_ne_zero laid (by simpa using some_)
  refine (allocateClusters_keeps_some pos).bind fun extent _ => ?_
  refine .forget ?_
  refine (writeFileData_keeps.onFailure freeFileClusters_keeps.ignore).seq ?_
  refine volumeFlush_keeps.seq ?_
  refine (updateFile_keeps ?_ ?_).seq ?_
  · exact fun _ => rfl
  · exact fun _ => rfl
  refine .bind (updateSlotLength_keeps.onFailure
    ((updateFile_keeps ?_ ?_).bind fun _ _ => freeFileClusters_keeps.ignore)) fun _ _ => ?_
  · exact fun _ => rfl
  · exact fun _ => rfl
  refine volumeFlush_keeps.seq ?_
  refine freeFileClusters_keeps.seq ?_
  exact exfatMetadataChanged_keeps syncs below

theorem overwriteFile_keeps : Neutral m b before (overwriteFile sync p d) := by
  refine .asks fun w inside => ?_
  refine .found fun (k, i) hit => ?_
  cases inside.fileMount hit below
  refine .ite (fun _ => truncateFile_keeps syncs below) fun some_ => ?_
  refine (appendFile_keeps syncs below).bind fun appended _ => ?_
  exact .stop fun _ => replaceContents_keeps syncs below some_

theorem createFile_keeps (d : Bytes) (mode : Option Nat) :
    Neutral m b before (createFile sync p d mode) := by
  refine .asks fun w inside => ?_
  refine .found fun (k, parent, name) hit => ?_
  cases inside.parentMount hit below
  refine .found fun directory place => ?_
  have named := inside.parentPath hit place
  refine .check fun _ => ?_
  refine allocateClusters_keeps.bind fun extent _ => ?_
  refine (writeFileData_keeps.onFailure freeFileClusters_keeps.ignore).seq ?_
  refine volumeFlush_keeps.seq ?_
  refine .guarded ?_ freeFileClusters_keeps.ignore ?_
  · refine .found fun entries _ => ?_
    exact publishEntrySet_keeps fun off above => registerFile_keeps named above
  · refine initializeMode_keeps.seq ?_
    exact (syncUnlessInternal_keeps syncs).forget

theorem exfatWriteFileImpl_keeps : Neutral m b before (exfatWriteFileImpl sync p d mode) := by
  refine .reads fun w => ?_
  exact .ite (fun _ => overwriteFile_keeps syncs below)
    fun _ => createFile_keeps syncs below d mode

theorem exfatCreateDirectoryImpl_keeps :
    Neutral m b before (exfatCreateDirectoryImpl sync p mode) := by
  refine .asks fun w inside => ?_
  refine .found fun (k, parent, name) hit => ?_
  cases inside.parentMount hit below
  refine .check fun _ => ?_
  refine allocateContiguousClusters_keeps.bind fun first _ => ?_
  refine .forget ?_
  refine .guarded ?_ releaseCreatedClusters_keeps ?_
  · exact kmalloc_keeps.bind fun _ _ => writeFileData_keeps
  refine volumeFlush_keeps.seq ?_
  refine .guarded ?_ releaseCreatedClusters_keeps ?_
  · refine .found fun entries _ => ?_
    refine publishEntrySet_keeps fun off above => ?_
    exact registerDirectory_keeps below (.inl above)
  · refine initializeMode_keeps.seq ?_
    exact syncUnlessInternal_keeps syncs

theorem exfatDeleteFileImpl_keeps : Neutral m b before (exfatDeleteFileImpl sync p) := by
  refine .asks fun w inside => ?_
  refine .found fun (k, i) hit => ?_
  cases inside.fileMount hit below
  refine fileSlot_keeps.bind fun s known => ?_
  refine readEntryRun_keeps.bind fun entries len => ?_
  refine (writeDeletedEntries_keeps known.1).seq ?_
  refine .forget ?_
  refine volumeFlush_keeps.seq ?_
  refine .guarded vfsUnregisterPath_keeps (restoreRecord_keeps known.1 len) ?_
  refine clearFileSlot_keeps.seq ?_
  refine freeFileClusters_keeps.seq ?_
  exact syncUnlessInternal_keeps syncs

theorem exfatDeleteDirectoryImpl_keeps : Neutral m b before (exfatDeleteDirectoryImpl sync p) := by
  refine .asks fun w inside => ?_
  refine .found fun (k, i) hit => ?_
  cases inside.dirMount hit below
  refine .check fun _ => ?_
  refine dirSlot_keeps.bind fun s known => ?_
  refine readEntryRun_keeps.bind fun entries len => ?_
  refine (writeDeletedEntries_keeps known.1).seq ?_
  refine .forget ?_
  refine volumeFlush_keeps.seq ?_
  refine .guarded vfsUnregisterPath_keeps (restoreRecord_keeps known.1 len) ?_
  refine clearDirectorySlot_keeps.seq ?_
  refine freeFileClusters_keeps.seq ?_
  exact syncUnlessInternal_keeps syncs

theorem exfatRenameImpl_keeps : Neutral m b before (exfatRenameImpl sync p newPath) := by
  refine .asks fun w inside => ?_
  dsimp only [id]
  refine .check fun _ => ?_
  cases hit : findMountAndIndexForFile w p with
  | some place =>
    obtain ⟨k, i⟩ := place
    cases inside.fileMount hit below
    exact renameFileInMount_keeps syncs
  | none =>
    refine .found fun (k, i) foundDir => ?_
    cases inside.dirMount foundDir below
    refine .check fun _ => ?_
    exact renameEmptyDirectoryInMount_keeps syncs

end Sync

end SrvrOS.Exfat
