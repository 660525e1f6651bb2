import SrvrOS.Exfat.Frame.Body

/-!
# The frame of a nested mutation

A mutation inside another one writes no marker: it raises the depth, runs its body and lowers the
depth again, quarantining the volume when the body failed after a write. So it keeps the frame when
its body does.
-/

namespace SrvrOS.Exfat

open Lib Act SameCore Untouched Outline

variable {m f dirs : Nat} {b t p mount : Path} {old after ok : Bool}
  {w : World} {α : Type}

/-! ## Opening and closing the bracket -/

def World.deepen (world : World) (m : Nat) : World :=
  world.setMount m { world.mounts m with
    volume := { world.volume m with mutationDepth := (world.volume m).mutationDepth + 1 } }

/-- The world one mutation level up, quarantined when the body failed after a write. -/
def World.surface (world : World) (m : Nat) (ok : Bool) : World :=
  world.setMount m { world.mounts m with
    volume := { world.volume m with
      writeBlocked := (world.volume m).writeBlocked || (!ok && (world.volume m).mutationWritten)
      mutationDepth := (world.volume m).mutationDepth - 1 } }

def World.counted (world : World) (operations : Nat) : World :=
  { world with fsOperations := operations }

@[simp] theorem deepen_run :
    updateVolume m (fun v => { v with mutationDepth := v.mutationDepth + 1 })
      w = (some (), w.deepen m) := (rfl)

theorem fsEnter_run (w : World) :
    fsEnter w =
      if w.fsOperations ≠ 0 ∨ w.env.admitted w.tick = true then
        (some (), w.tock.counted (w.fsOperations + 1))
      else (none, w.tock) := by
  simp only [fsEnter, bind_run, gets_run, draw_run, require_run]
  by_cases admitted : w.fsOperations ≠ 0 ∨ w.env.admitted w.tick = true
  · rw [if_pos admitted, if_pos admitted]
    rfl
  · rw [if_neg admitted, if_neg admitted]

@[simp] theorem fsLeave_run : fsLeave w = (some (), w.counted (w.fsOperations - 1)) := (rfl)

theorem SameCore.counted (m : Nat) (w : World) (operations : Nat) :
    SameCore m w (w.counted operations) :=
  ⟨⟨fun _ => rfl, rfl⟩, rfl, fun _ _ => rfl, rfl, rfl⟩

theorem Tidy.counted (tidy : Tidy w) (operations : Nat) : Tidy (w.counted operations) :=
  (SameCore.counted 0 w operations).tidy tidy

theorem Tidy.deepen (tidy : Tidy w) : Tidy (w.deepen m) := tidy.setVolume rfl

variable {m : Nat} {w : World}

theorem Outline.deepen : Outline m w (w.deepen m) := setMount rfl rfl rfl rfl id id

theorem Untouched.deepen (m : Nat) (w : World) : Untouched m w (w.deepen m) := setMount rfl rfl rfl

variable {ok : Bool}

theorem Tidy.surface (tidy : Tidy w) : Tidy (w.surface m ok) := tidy.setVolume rfl

theorem Outline.surface : Outline m w (w.surface m ok) :=
  setMount rfl rfl rfl rfl (fun holds => by rw [holds]; rfl) id

theorem Untouched.surface : Untouched m w (w.surface m ok) := setMount rfl rfl rfl

/-! ## Admission and conclusion -/

theorem mutationAdmit_nested (start : Inside m b w) (p : Option Path) (f dirs : Nat) :
    ∃ next, Tidy next ∧ Frame m w next ∧
      ((∃ retryable, mutationAdmit m p f dirs w = (some (.refused retryable), next)) ∨
        mutationAdmit m p f dirs w = (some .begun, next.deepen m)) := by
  have reserve : Neutral m b false (reserveMutation m p f dirs) := reserveMutation_keeps
  have frame₁ := Frame.tock m w
  have tidy₁ := start.tidy.tock
  obtain ⟨tidy₂, frame₂, _⟩ := reserve w.tock (start.of_frame tidy₁ frame₁) (by simp)
  simp only [mutationAdmit, bind_run, gets_run, draw_run, tock_volume]
  by_cases denied : (!w.env.online w.tick || !(w.disk m).writable ||
      !(w.disk m).flushable || (w.volume m).writeBlocked) = true
  · rw [if_pos denied]
    exact ⟨w.tock, tidy₁, frame₁, .inl ⟨_, rfl⟩⟩
  rw [if_neg denied]
  rcases out : reserveMutation m p f dirs w.tock with ⟨_ | v, next⟩
  · rw [out] at tidy₂ frame₂
    refine ⟨next, tidy₂, frame₁.trans frame₂, .inl ?_⟩
    simp [bind_run, out]
  rw [out] at tidy₂ frame₂
  refine ⟨next, tidy₂, frame₁.trans frame₂, .inr ?_⟩
  simp [bind_run, out, start.depth]

@[simp] theorem surface_run :
    updateVolume m (fun v => { v with
      writeBlocked := v.writeBlocked || (!ok && v.mutationWritten)
      mutationDepth := v.mutationDepth - 1 }) w = (some (), w.surface m ok) := (rfl)

theorem surface_depth :
    ((w.surface m ok).volume m).mutationDepth = (w.volume m).mutationDepth - 1 := by
  rw [World.surface, setMount_volume]

theorem deepen_depth : ((w.deepen m).volume m).mutationDepth = (w.volume m).mutationDepth + 1 := by
  rw [World.deepen, setMount_volume]

theorem mutationEndResult_nested (deep : 2 ≤ (w.volume m).mutationDepth) (ok : Bool) :
    ∃ verdict, mutationEndResult m ok w =
        (some verdict, ((w.surface m ok).tock).counted (w.fsOperations - 1)) := by
  have level : ((w.surface m ok).volume m).mutationDepth ≠ 0 := by
    rw [surface_depth]
    omega
  have skip : ¬(((w.surface m ok).volume m).mutationDepth = 0 ∧
      ((w.surface m ok).volume m).writeBlocked = false) := fun both => level both.1
  simp only [mutationEndResult, bind_run, surface_run, gets_run, when, if_neg skip, fsLeave_run]
  exact ⟨_, rfl⟩

variable {body : Driver α} {post : α → Prop} {f dirs : Nat}

theorem mutationResult_keeps {p : Option Path} (keeps : Keeps m b old body after post) :
    Keeps m b old (mutationResult (some m) p f dirs body) old
      fun r => ∀ v, r.1 = some v → post v := by
  intro w start written
  have refused : ∀ {next : World} {retryable : Bool}, Tidy next → Frame m w next →
      mutationBeginResult (some m) p f dirs w = (some (.refused retryable), next) →
      Tidy (mutationResult (some m) p f dirs body w).2 ∧
        Frame m w (mutationResult (some m) p f dirs body w).2 ∧
        ∀ r, (mutationResult (some m) p f dirs body w).1 = some r →
          (∀ v, r.1 = some v → post v) ∧ (old = true →
            ((mutationResult (some m) p f dirs body w).2.volume m).mutationWritten =
              true) := by
    intro next retryable tidy frame run
    have r : mutationResult (some m) p f dirs body w =
        (some (none, retryable), next) := by
      simp [mutationResult, bind_run, run]
    rw [r]
    refine ⟨tidy, frame, ?_⟩
    intro v hit
    cases hit
    exact ⟨nofun, fun set => frame.written (written set)⟩
  have entered := fsEnter_run w
  by_cases admitted : w.fsOperations ≠ 0 ∨ w.env.admitted w.tick = true
  · rw [if_pos admitted] at entered
    have core₁ := (Reserved.tock m w).toSameCore.trans
      (counted m w.tock (w.fsOperations + 1))
    have inside₁ : Inside m b (w.tock.counted (w.fsOperations + 1)) :=
      ⟨core₁.tidy start.tidy, start.used, start.mountpoint, start.depth⟩
    obtain ⟨next, tidy₂, frame₂, out⟩ := mutationAdmit_nested inside₁ p f dirs
    have counter : next.fsOperations - 1 = w.fsOperations := by
      rw [frame₂.operations]
      exact Nat.add_sub_cancel ..
    rcases out with ⟨retryable, granted⟩ | granted
    · apply refused (tidy₂.counted (next.fsOperations - 1))
      · have core₃ := counted m next (next.fsOperations - 1)
        exact ⟨(core₁.outline.trans frame₂.toOutline).trans core₃.outline,
          ⟨⟨counter, frame₂.syncing, frame₂.streams⟩, frame₂.depth⟩, fun clear =>
            (core₁.untouched.trans (frame₂.calm clear)).trans core₃.untouched⟩
      · simp [mutationBeginResult, bind_run, entered, granted]
        rfl
    have depth₂ : (next.volume m).mutationDepth = (w.volume m).mutationDepth := frame₂.depth
    have outline₃ := (core₁.outline.trans frame₂.toOutline).trans deepen
    have inside₃ : Inside m b (next.deepen m) :=
      ⟨tidy₂.deepen, outline₃.used.trans start.used,
        outline₃.mountpoint.trans start.mountpoint, by
          rw [deepen_depth]
          exact Nat.succ_ne_zero _⟩
    obtain ⟨tidy₄, frame₄, values⟩ :=
      keeps (next.deepen m) inside₃ fun set => outline₃.written (written set)
    rcases ran : body (next.deepen m) with ⟨out, last⟩
    rw [ran] at tidy₄ frame₄ values
    have depth₄ : (last.volume m).mutationDepth = (w.volume m).mutationDepth + 1 := by
      rw [frame₄.depth, deepen_depth, depth₂]
    have deep : 2 ≤ (last.volume m).mutationDepth := by
      have outer := start.depth
      omega
    obtain ⟨verdict, ended⟩ := mutationEndResult_nested deep out.isSome
    have r : mutationResult (some m) p f dirs body w =
        (some (if verdict.1 then out else none, verdict.2),
          ((last.surface m out.isSome).tock).counted (last.fsOperations - 1)) := by
      simp [mutationResult, mutationBeginResult, bind_run, entered, granted, ofOption, ran, ended]
    rw [r]
    have core₅ := (Reserved.tock m (last.surface m out.isSome)).toSameCore.trans
      (counted m _ (last.fsOperations - 1))
    have outline₅ := surface.trans core₅.outline
    refine ⟨tidy₄.surface.tock.counted _, ⟨(outline₃.trans frame₄.toOutline).trans outline₅,
      ⟨⟨(congrArg (· - 1) frame₄.operations).trans counter, frame₄.syncing.trans frame₂.syncing,
        frame₄.streams.trans frame₂.streams⟩, ?_⟩, ?_⟩, ?_⟩
    · change ((last.surface m out.isSome).volume m).mutationDepth = _
      rw [surface_depth, depth₄]
      exact Nat.add_sub_cancel ..
    · intro clear
      have clear₄ := outline₅.unwritten clear
      have clear₂ := deepen.unwritten (frame₄.toOutline.unwritten clear₄)
      exact (((core₁.untouched.trans (frame₂.calm clear₂)).trans (deepen m next)).trans
        (frame₄.calm clear₄)).trans
          (surface.trans core₅.untouched)
    intro pair hit
    cases hit
    refine ⟨?_, fun set => outline₅.written (frame₄.written (outline₃.written (written set)))⟩
    intro v stood
    split at stood
    · exact (values v stood).1
    · cases stood
  rw [if_neg admitted] at entered
  apply refused start.tidy.tock (Frame.tock m w)
  simp [mutationBeginResult, bind_run, entered]
  rfl

theorem mutation_keeps {p : Option Path} (keeps : Keeps m b old body after post) :
    Keeps m b old (mutation (some m) p f dirs body) old post := by
  refine (mutationResult_keeps keeps).bind fun r holds => ?_
  exact Keeps.ofOption.weaken fun v hit => holds v hit

section

variable (inside : Inside m b w) (below : pathInSubtree t b = true)
  (keeps : Keeps m b old body after post)
include inside below keeps

theorem mutationResult_at_keeps {p : Option Path} :
    Keeps m b old (mutationResult (findMountForPath w t) p f dirs body)
      old fun r => ∀ v, r.1 = some v → post v := by
  rw [inside.located below]
  exact mutationResult_keeps keeps

theorem mutation_at_keeps {p : Option Path} :
    Keeps m b old (mutation (findMountForPath w t) p f dirs body) old
      post := by
  rw [inside.located below]
  exact mutation_keeps keeps

end

/-! ## Entry points inside a mutation -/

theorem capacity_keeps (located : findMountForPath w t = some m)
    (keeps : Keeps m b old body after post) :
    Keeps m b old (do
      let k ← ofOption (findMountForPath w t)
      mutationCapacity k (some t) f dirs
      body) after post := by
  rw [located]
  exact mutationCapacity_keeps.bind fun _ _ => keeps

theorem Tidy.plan (tidy : Tidy w) {oldPath newPath : Path} {plan : ReplacePlan}
    (hit : replacePlan w oldPath newPath = some plan) :
    (w.mounts plan.mount).used = true ∧
      pathInSubtree newPath (w.mounts plan.mount).mountpoint = true ∧
      EntryPlace plan.source.fileEntryOffset plan.source.secondaryCount ∧
      bootBytes ≤ plan.target.fileEntryOffset := by
  obtain ⟨source, t, foundTarget, sourcePlace, targetPlace, sourceFile, targetFile, named,
    built, wide⟩ := replacePlan_some hit
  obtain ⟨used, slot, slotPlace, rfl⟩ := findMountAndIndexForFile_some foundTarget
  have ordered := tidy.mounts _ used
  have several := (buildFileEntrySet_length built).2
  rw [buildFileEntrySet_count built] at wide
  have nonempty : slot.path ≠ [] := by
    intro empty
    rw [empty] at named
    cases named
  refine ⟨used, (ordered.files slot (List.mem_of_getElem? slotPlace)).below nonempty, ?_, ?_⟩
  · rw [sourceFile]
    exact (ordered.files source (List.mem_of_getElem? sourcePlace)).entry
  · rw [targetFile]
    exact entryPlace_boot (ordered.files t (List.mem_of_getElem? targetPlace)).entry (by omega)

section EntryPoints

variable {sync : Nat → Driver Unit} (syncs : Neutral m b false (sync m))
  (below : pathInSubtree p b = true)

include syncs below

variable {mode : Option Nat} {data : Bytes}

theorem writeFileModeResult_keeps : Neutral m b old (writeFileModeResult sync p data mode) := by
  refine .asks fun w inside => .stop fun _ => ?_
  refine (mutationResult_at_keeps inside below (capacity_keeps (inside.located below)
    (exfatWriteFileImpl_keeps syncs below))).bind fun r _ => ?_
  exact .pure trivial

theorem exfatWriteFileMode_keeps : Neutral m b old (exfatWriteFileMode sync p data mode) := by
  refine (writeFileModeResult_keeps syncs below).bind fun verdict _ => ?_
  exact Keeps.require.weaken fun _ _ => trivial

theorem exfatCreateDirectoryMode_keeps :
    Neutral m b old (exfatCreateDirectoryMode sync p mode) := by
  refine .asks fun w inside => ?_
  refine .check fun _ => ?_
  exact mutation_at_keeps inside below (capacity_keeps (inside.located below)
    (exfatCreateDirectoryImpl_keeps syncs below))

theorem exfatDeleteFile_keeps : Neutral m b old (exfatDeleteFile sync p) := by
  refine .asks fun w inside => ?_
  refine .check fun _ => ?_
  exact mutation_at_keeps inside below (capacity_keeps (inside.located below)
    (exfatDeleteFileImpl_keeps syncs below))

theorem exfatRename_keeps {newPath : Path} : Neutral m b old (exfatRename sync p newPath) := by
  refine .asks fun w inside => ?_
  refine .check fun _ => ?_
  exact mutation_at_keeps inside below (capacity_keeps (inside.located below)
    (exfatRenameImpl_keeps syncs below))

theorem exfatReplaceFile_keeps {oldPath : Path} :
    Neutral m b old (exfatReplaceFile sync oldPath p) := by
  refine .asks fun w inside => ?_
  refine .check fun _ => ?_
  refine .found fun plan hit => ?_
  obtain ⟨used, named, source, t⟩ := inside.tidy.plan hit
  have here := inside.unique used named below
  rw [here]
  exact mutation_keeps (replaceBody_keeps syncs here below source t)

end EntryPoints

/-! ## The sidecar -/

theorem syncSuspended_keeps : Neutral m b false (syncSuspended m) := Keeps.pure trivial

theorem fitPath_some {fitted : Path} (hit : fitPath p = some fitted) : fitted = p := by
  unfold fitPath at hit
  split at hit
  · exact (Option.some.inj hit).symm
  · cases hit

theorem metadataDirectoryPath_subtree {directory : Path} (valid : validMountpoint mount = true)
    (hit : metadataDirectoryPath mount = some directory) :
    pathInSubtree directory mount = true := by
  rw [fitPath_some hit]
  exact appendMountPath_subtree (pathInSubtree_refl _) (validMountpoint_last valid) _

theorem metadataFile_subtree (valid : validMountpoint mount = true) {leaf : Path}
    (hit : (metadataDirectoryPath mount).bind
      (fun directory => fitPath (directory ++ slash :: leaf)) = some p) :
    pathInSubtree p mount = true := by
  obtain ⟨directory, foundDirectory, hit⟩ := Option.bind_eq_some_iff.mp hit
  have inner : pathInSubtree p directory = true := by
    rw [fitPath_some hit]
    exact pathInSubtree_iff.mpr (.inr ⟨_, rfl⟩)
  exact pathInSubtree_trans inner (metadataDirectoryPath_subtree valid foundDirectory)

theorem rewriteSidecar_keeps : Neutral m b false (rewriteSidecar m) := by
  refine .asks fun start inside => ?_
  have valid := inside.valid
  rw [inside.mountpoint]
  refine .found fun directory foundDirectory => ?_
  refine .found fun p foundPath => ?_
  refine .found fun temp foundTemp => ?_
  have directoryBelow := metadataDirectoryPath_subtree valid foundDirectory
  have pathBelow := metadataFile_subtree valid foundPath
  have tempBelow := metadataFile_subtree valid foundTemp
  refine Keeps.reads fun vfs => ?_
  refine (Keeps.when fun _ => exfatCreateDirectoryMode_keeps syncSuspended_keeps
    directoryBelow).seq ?_
  refine Keeps.reads fun w => ?_
  refine Keeps.check fun _ => ?_
  refine (Keeps.when fun _ => exfatDeleteFile_keeps syncSuspended_keeps tempBelow).bind
    fun _ _ => ?_
  refine (exfatWriteFileMode_keeps syncSuspended_keeps tempBelow).seq ?_
  refine .reads fun vfs => ?_
  exact .ite (fun _ => exfatReplaceFile_keeps syncSuspended_keeps pathBelow)
    fun _ => exfatRename_keeps syncSuspended_keeps tempBelow

/-- The world with another `metadata_syncing`. -/
def World.synced (world : World) (syncing : Bool) : World :=
  { world with metadataSyncing := syncing }

theorem SameCore.synced (m : Nat) (w : World) (syncing : Bool) : SameCore m w (w.synced syncing) :=
  ⟨⟨fun _ => rfl, rfl⟩, rfl, fun _ _ => rfl, rfl, rfl⟩

@[simp] theorem setSyncing_run (syncing : Bool) :
    setSyncing syncing w = (some (), w.synced syncing) := (rfl)

theorem exfatSyncMountMetadataImpl_keeps : Neutral m b false (exfatSyncMountMetadataImpl m) := by
  intro w start _
  by_cases syncing : w.metadataSyncing = true
  · have idle : exfatSyncMountMetadataImpl m w = (some (), w) := by
      simp [exfatSyncMountMetadataImpl, bind_run, syncing]
    rw [idle]
    exact ⟨start.tidy, Frame.refl, fun _ _ => ⟨trivial, by simp⟩⟩
  have first := synced m w true
  obtain ⟨tidy, frame, _⟩ := rewriteSidecar_keeps (w.synced true)
    ⟨first.tidy start.tidy, start.used, start.mountpoint, start.depth⟩ (by simp)
  have r : exfatSyncMountMetadataImpl m w =
      ((rewriteSidecar m (w.synced true)).1,
        (rewriteSidecar m (w.synced true)).2.synced false) := by
    simp only [exfatSyncMountMetadataImpl, bind_run, gets_run, if_neg syncing,
      setSyncing_run, attempt_run]
    cases (rewriteSidecar m (w.synced true)).1 with
    | none => rfl
    | some v => rfl
  rw [r]
  have last := synced m (rewriteSidecar m (w.synced true)).2 false
  refine ⟨last.tidy tidy, ⟨(first.outline.trans frame.toOutline).trans last.outline,
    ⟨⟨frame.operations, ?_, frame.streams⟩, frame.depth⟩, ?_⟩, fun _ _ => ⟨trivial, by simp⟩⟩
  · exact (Bool.not_eq_true _ ▸ syncing : w.metadataSyncing = false).symm
  · exact fun clear => (first.untouched.trans (frame.calm clear)).trans last.untouched

theorem exfatSyncMountMetadata_keeps : Neutral m b false (exfatSyncMountMetadata m) := by
  refine .reads fun syncing => .stop fun _ => ?_
  exact mutation_keeps (mutationCapacity_keeps.bind fun _ _ => exfatSyncMountMetadataImpl_keeps)

end SrvrOS.Exfat
