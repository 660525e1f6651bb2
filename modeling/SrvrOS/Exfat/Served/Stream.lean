import SrvrOS.Exfat.Served

/-!
# Stream requests at rest

Opening, reading and closing a lease leave the mounts and disks alone, up to a flush of
an output lease. Creating and appending are outermost mutations between such steps.
-/

namespace SrvrOS.Exfat

open Lib Act Keeps Respects Marking

variable {α : Type} {act : Driver α} {w : World} {m i k index : Nat} {p : Path}
  {file : ExfatFile}

theorem reserves_stays (reserves : Respects (reserving m) act) : Respects staying act :=
  fun w => (reserves w).toStill

theorem updateLease_stays {change : StreamLease → StreamLease} :
    Respects staying (updateLease i change) :=
  fun _ => ⟨fun _ => rfl, rfl⟩

theorem fsEnter_stays : Respects staying fsEnter := by
  intro w
  rw [fsEnter_run]
  split
  · exact ⟨fun _ => rfl, rfl⟩
  · exact ⟨fun _ => rfl, rfl⟩

theorem fsLeave_stays : Respects staying fsLeave := fun _ => ⟨fun _ => rfl, rfl⟩

theorem streamReserveFrom_stays {rest : Nat} : Respects staying (streamReserveFrom rest i) := by
  induction rest generalizing i with
  | zero => exact pure
  | succ rest ih =>
    refine .reads fun leases => ite ih (ite ?_ ?_)
    · exact updateLease_stays.bind fun _ => ih
    · exact updateLease_stays.bind fun _ => pure

theorem streamBind_stays {output : Bool} : Respects staying (streamBind i k index output) :=
  .reads fun _ => .found fun _ => .found fun _ => .check <| updateLease_stays

theorem walkChain_reserves {n c : Nat} : Respects (reserving m) (walkChain k n c) := by
  induction n generalizing c with
  | zero => exact .pure
  | succ n ih => exact followChain_reserves.bind fun _ => ih

theorem streamCluster_stays : Respects staying (streamCluster i k file index) := by
  refine .check <| .reads fun leases => ?_
  refine bind (ite ?_ (ite ?_ ?_)) fun c => ?_
  · exact .check <| pure
  · exact reserves_stays (m := 0) walkChain_reserves
  · exact reserves_stays (m := 0) walkChain_reserves
  · refine (reserves_stays (m := 0) clusterBase_reserves).bind fun _ => ?_
    exact updateLease_stays.bind fun _ => .pure

theorem streamPreflight_stays {payload files : Nat} :
    Respects staying (streamPreflight k p payload files) := by
  refine .reads fun v => ite pure ?_
  refine (reserves_stays (reserveMutation_reserves (m := k) _)).attemptBind .pure
    fun _ => ?_
  dsimp only
  split
  · exact .pure
  refine (reserves_stays (m := k) kmalloc_reserves).attemptBind .pure fun _ => ?_
  exact (reserves_stays (m := k) volumeRead_reserves).attemptBind .pure fun _ => .pure

theorem preadLoop_stays {fuel position length : Nat} :
    Respects staying (preadLoop i k file fuel position length) := by
  induction fuel generalizing position length with
  | zero => exact .pure
  | succ fuel ih =>
    refine ite pure (ite pure ?_)
    refine .reads fun v => streamCluster_stays.bind fun _ => ?_
    refine (reserves_stays (m := k) clusterBase_reserves).bind fun _ => ?_
    refine (reserves_stays (m := k) volumeRead_reserves).bind fun _ => ?_
    exact ih.bind fun _ => pure

theorem streamScope_stays {body : Driver (StreamResult α)} (stays : Respects staying body) :
    Respects staying (streamScope body) := by
  refine fsEnter_stays.attemptBind .pure fun _ => ?_
  exact stays.bind fun _ => fsLeave_stays.bind fun _ => .pure

variable {p : Path}

theorem exfatStreamOpenRead_stays : Respects staying (exfatStreamOpenRead p) := by
  apply streamScope_stays
  refine .reads fun w => ?_
  split
  · exact pure
  refine ite pure ?_
  refine (reserves_stays (m := 0) (draw_reserves _)).bind fun opened => ?_
  refine .ite .pure ?_
  refine streamReserveFrom_stays.bind fun reserved => ?_
  cases reserved with
  | none => exact .pure
  | some i =>
    exact streamBind_stays.attemptBind (updateLease_stays.bind fun _ => .pure)
      fun _ => .reads fun _ => .pure

theorem exfatStreamPread_stays {t length offset : Nat} :
    Respects staying (exfatStreamPread t length offset) := by
  refine ite pure (streamScope_stays ?_)
  refine .reads fun w => ?_
  split
  · exact pure
  dsimp only
  split
  · refine .ite .pure (.ite .pure ?_)
    exact preadLoop_stays.attemptBind .pure fun _ => .pure
  · exact .pure

/-! ## Composition at rest -/

namespace Serves

variable {start : World}

theorem streamScope {body : Driver (StreamResult α)} (serves : Serves start body) :
    Serves start (streamScope body) := by
  refine after fsEnter_stays.attempt fun entered => ?_
  cases entered with
  | none => exact done
  | some _ => exact serves.before fun _ => fsLeave_stays.bind fun _ => .pure

end Serves

theorem volumeFlush_served (resting : Resting w) (used : (w.mounts m).used = true)
    (unblocked : (w.volume m).writeBlocked = false) : Served w (volumeFlush m w).2 := by
  have recorded : (w.disk m).Recorded := resting.tidy.recorded _
  have settled := resting.settled used unblocked
  have conclude : ∀ next, Marking m w next → SettledStep (w.disk m) (next.disk m) →
      next.medium m 106 = w.medium m 106 → Served w next := by
    intro next marking step low
    apply Concluded.served _ resting used
    refine ⟨marking.toPassage, marking.toCounters, marking.toQuiet.tidy resting.tidy
      step.recorded, marking.depth, step.journal, fun stuck => ?_, fun _ => ?_⟩
    · cases stuck.symm.trans unblocked
    rw [low]
    exact resting.clean m used unblocked
  rcases flush_cases with run | run
  · rw [run]
    apply conclude _ (flush m w)
    · rw [flush_disk]
      exact SettledStep.flushed recorded settled
    · rw [World.medium, flush_disk]
      rfl
  rw [run]
  have disk : (w.tock.halt m).disk m = w.disk m := halt_disk
  apply conclude _ ((tock m w).trans halt)
  · rw [disk]
    exact SettledStep.refl recorded settled
  · rw [World.medium, disk]
    rfl

theorem streamGet_some {t i : Nat} (hit : streamGet w t = some i) :
    i = t % streamSlots ∧ ∃ k s, (w.leases i).mount = some k ∧
      (w.mounts k).files[(w.leases i).slot]? = some s ∧
      (w.mounts k).used = true ∧ s.path ≠ [] := by
  unfold streamGet at hit
  dsimp only at hit
  split at hit
  · cases hit
  next k mounted =>
    split at hit
    · cases hit
    next s placed =>
      split at hit
      · cases hit
      obtain ⟨⟨-, -, -, used, -, named, -⟩, same⟩ := Option.ite_none_right_eq_some.mp hit
      cases same
      exact ⟨rfl, k, s, mounted, placed, used, named⟩

variable {t i k : Nat}

section

variable (hit : streamGet w t = some i) (leased : (w.leases i).mount = some k)
include hit leased

theorem streamGet_used : (w.mounts k).used = true := by
  obtain ⟨_, k', _, mounted, _, used, _⟩ := streamGet_some hit
  rw [mounted] at leased
  cases leased
  exact used

theorem leaseFlush_serves
    (usable : ¬((w.leases i).failed || ((w.leases i).output && (w.volume k).writeBlocked)) = true)
    (output : (w.leases i).output = true) : Serves w (volumeFlush k) := by
  simp only [Bool.and_eq_true, Bool.or_eq_true, Bool.not_eq_true, not_or, not_and] at usable
  refine .of fun next still resting => volumeFlush_served resting ?_ ?_
  · rw [still.used]
    exact streamGet_used hit leased
  · rw [still.volume]
    exact usable.2 output

end

variable {t : Nat}

theorem exfatStreamSync_serves : Serves w (exfatStreamSync t) := by
  refine .streamScope (.asks fun w => ?_)
  cases hit : streamGet w t with
  | none => exact .done
  | some i =>
    dsimp only
    cases leased : (w.leases i).mount with
    | none => exact .done
    | some k =>
      have failing : Respects staying (do
          updateLease i ({ · with failed := true })
          return .error .io : Driver (StreamResult Unit)) :=
        updateLease_stays.bind fun _ => .pure
      refine .ite (fun _ => .of_stays failing) fun usable => ?_
      refine .ite (fun output => ?_) fun _ => .done
      refine (leaseFlush_serves hit leased usable output).attempt.before fun flushed => ?_
      cases flushed with
      | some _ => exact .pure
      | none => exact failing

theorem streamFinish_serves : Serves w (streamFinish w t (w.leases (t % streamSlots))) := by
  unfold streamFinish
  cases hit : streamGet w t with
  | none => exact .done
  | some i =>
    rw [← (streamGet_some hit).1]
    cases leased : (w.leases i).mount with
    | none => exact .done
    | some k =>
      refine .stop fun usable => ?_
      refine .ite (fun output => ?_) fun _ => .done
      refine (leaseFlush_serves hit leased usable output).attempt.before fun flushed => ?_
      cases flushed with
      | some _ => exact .pure
      | none => exact .pure

theorem exfatStreamClose_serves : Serves w (exfatStreamClose t) := by
  refine .streamScope (.asks fun w => ?_)
  exact .stop fun _ => streamFinish_serves.before fun _ => updateLease_stays.bind fun _ => .pure

/-! ## Appending and creating -/

variable {d : Bytes} {base : Path}

theorem streamAppendBody_keeps {before : Bool} {index : Nat} {file : ExfatFile}
    (below : pathInSubtree p base = true) {last : Nat} (some_ : d ≠ []) :
    Neutral m base before (streamAppendBody m index file p last d) := by
  refine .reads fun v => ?_
  refine allocateClusters_keeps.bind fun extent _ => ?_
  refine (when fun _ => linkRun_keeps).seq ?_
  refine (when fun _ => linkRun_keeps).seq ?_
  obtain ⟨fuel, fueled⟩ : ∃ fuel, d.length = fuel + 1 :=
    Nat.exists_eq_succ_of_ne_zero fun empty => some_ (List.eq_nil_of_length_eq_zero empty)
  rw [fueled]
  refine (appendLoop_writes some_).bind fun c _ => ?_
  refine forget ?_
  refine volumeFlush_keeps.seq ?_
  refine (when fun _ => attachChain_keeps).seq ?_
  refine (updateFile_keeps ?_ ?_).seq ?_
  · exact fun _ => rfl
  · exact fun _ => rfl
  refine updateSlotLength_keeps.seq ?_
  refine volumeFlush_keeps.seq ?_
  exact (exfatMetadataChanged_keeps exfatSyncMountMetadata_keeps below).bind fun _ _ => pure trivial

theorem stays_run (stays : Respects staying act) : Still w (act w).2 := stays w

theorem raise_stays : Respects staying (Act.modify fun w =>
    { w with streamMutationDepth := w.streamMutationDepth + 1 } : Driver Unit) :=
  fun _ => ⟨fun _ => rfl, rfl⟩

theorem lower_stays : Respects staying (Act.modify fun w =>
    { w with streamMutationDepth := w.streamMutationDepth - 1 } : Driver Unit) :=
  fun _ => ⟨fun _ => rfl, rfl⟩

theorem streamAppendLease_serves {i : Nat} {s : FileSlot} (some_ : d ≠ [])
    (used : (w.mounts m).used = true) (placed : s ∈ (w.mounts m).files) (named : s.path ≠ []) :
    Serves w (streamAppendLease i m s index d) := by
  refine .after .gets fun v => ?_
  refine .after streamPreflight_stays fun refusal => ?_
  cases refusal with
  | some error => exact .done
  | none =>
    refine .after (.attempt (.ite streamCluster_stays .pure)) fun tail => ?_
    cases tail with
    | none => exact .done
    | some last =>
      refine .after raise_stays fun _ resting next still => ?_
      have resting₁ := still.resting resting
      have used₁ := (still.used m).trans used
      have below : pathInSubtree s.path (next.mounts m).mountpoint = true := by
        rw [still.mountpoint]
        exact ((resting.tidy.mounts m used).files s placed).below named
      rw [Act.bind_run]
      rcases mutationBeginResult_outer resting₁ used₁ rfl (some s.path) 0 0 with
        ⟨next₂, retryable, begin_, refused⟩ | ⟨opened, begin_, start⟩
      · rw [begin_]
        refine Served.around still ((refused.concluded resting₁ used₁).served resting₁ used₁)
          (stays_run (lower_stays.bind fun _ => ?_))
        exact updateLease_stays.bind fun _ => .pure
      rw [begin_]
      have keeps : Neutral m (next.mounts m).mountpoint false
          (streamAppendBody m index s.file s.path last d) :=
        streamAppendBody_keeps below some_
      obtain ⟨tidy, frame, _⟩ := keeps opened start.inside (by simp)
      dsimp only
      rw [Act.bind_run, Act.attempt_run]
      rcases ran : streamAppendBody m index s.file s.path last d opened with
        ⟨outcome, final⟩
      rw [ran] at tidy frame
      obtain ⟨verdict, closed, ended, concluded, _⟩ :=
        start.close resting₁ used₁ tidy frame outcome.isSome
      dsimp only
      rw [Act.bind_run, ended]
      refine Served.around still (concluded.served resting₁ used₁)
        (stays_run (lower_stays.bind fun _ => ?_))
      split
      · exact updateLease_stays.bind fun _ => .pure
      · exact updateLease_stays.bind fun _ => .pure

theorem exfatStreamAppend_serves : Serves w (exfatStreamAppend t d) := by
  refine .stop fun _ => .streamScope ?_
  refine .asks fun w => ?_
  cases hit : streamGet w t with
  | none => exact .done
  | some i =>
    obtain ⟨_, k, s, leased, placed, used, named⟩ := streamGet_some hit
    dsimp only
    rw [leased]
    dsimp only [Option.bind_some]
    rw [placed]
    refine .stop fun _ => .ite (fun _ => ?_) fun _ => ?_
    · exact .of_stays (updateLease_stays.bind fun _ => .pure)
    refine .stop fun some_ => .stop fun _ => ?_
    exact streamAppendLease_serves some_ used (List.mem_of_getElem? placed) named

variable {mode : Nat}

theorem streamCreateBody_keeps (below : pathInSubtree p base = true) :
    Neutral m base false (do
      createFile exfatSyncMountMetadata p [] (some mode)
      Act.require ((← Act.gets (·.volume m)).writeBlocked = false)
      exfatSyncMountMetadata m) := by
  refine (createFile_keeps exfatSyncMountMetadata_keeps below [] (some mode)).seq ?_
  refine .reads fun v => ?_
  exact .check fun _ => exfatSyncMountMetadata_keeps

theorem streamCreateMutation_serves (used : (w.mounts m).used = true)
    (below : pathInSubtree p (w.mounts m).mountpoint = true) :
    Serves w (streamMutating (mutation (some m) (some p) 1 0 do
      createFile exfatSyncMountMetadata p [] (some mode)
      Act.require ((← Act.gets (·.volume m)).writeBlocked = false)
      exfatSyncMountMetadata m)) := by
  refine .after raise_stays fun _ => ?_
  exact (mutation_serves_on used (streamCreateBody_keeps below)).attempt.before fun outcome =>
    lower_stays.bind fun _ => .ofOption

theorem exfatStreamCreate_serves : Serves w (exfatStreamCreate p mode) := by
  refine .stop fun _ => .streamScope ?_
  refine .asks fun w => ?_
  cases hit : findMountForPath w p with
  | none => exact .done
  | some k =>
    obtain ⟨used, below⟩ := findMountForPath_some hit
    refine .stop fun _ => .stop fun _ => Serves.stop fun _ => ?_
    refine .after (reserves_stays (m := 0) (draw_reserves _)) fun opened => ?_
    refine .stop fun _ => ?_
    refine .after streamReserveFrom_stays fun reserved => ?_
    cases reserved with
    | none => exact .done
    | some i =>
      refine .after streamPreflight_stays fun refusal => ?_
      cases refusal with
      | some error =>
        exact .of_stays (updateLease_stays.bind fun _ => .pure)
      | none =>
        refine (streamCreateMutation_serves used below).attempt.before fun created => ?_
        refine bind (attempt ?_) fun bound => ?_
        · refine .found fun _ => ?_
          refine .reads fun _ => ?_
          refine .found fun _ => ?_
          exact .check <| streamBind_stays
        refine ite ?_ ?_
        · exact updateLease_stays.bind fun _ => .pure
        · exact .reads fun _ => pure

end SrvrOS.Exfat
