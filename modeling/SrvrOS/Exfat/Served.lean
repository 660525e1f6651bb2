import SrvrOS.Exfat.Outer
import SrvrOS.Exfat.System

/-!
# Requests at rest

Every public operation that starts while no mutation is open ends that way, and each
disk goes through it as a journal: a crash on the way that does not show the dirty flag
exposes the medium from before the operation or the one after it.
-/

namespace SrvrOS.Exfat

open Lib Act Still

variable {m : Nat} {α : Type} {flag : Bool}

/-- An operation that has been carried out between two points of rest. -/
structure Served (before after : World) : Prop where
  resting : Resting after
  journal : ∀ device, Journal (before.disks device) (after.disks device)

variable {w : World}

theorem Served.refl (resting : Resting w) : Served w w :=
  ⟨resting, fun d => Journal.refl (resting.tidy.recorded d) (resting.rest d)⟩

namespace Still

variable {old after : World}

theorem resting (still : Still old after) (resting : Resting old) : Resting after := by
  refine ⟨still.tidy resting.tidy, ?_, ?_, ?_⟩
  · intro m
    rw [still.used, still.volume]
    exact resting.depth m
  · rw [still.disks]
    exact resting.rest
  intro m
  rw [still.used, still.volume, still.medium]
  exact resting.clean m

theorem served (still : Still old after) (resting : Resting old) : Served old after := by
  refine ⟨still.resting resting, ?_⟩
  rw [still.disks]
  exact (Served.refl resting).journal

end Still

theorem Served.around {first second third fourth : World} (first' : Still first second)
    (served : Served second third) (last : Still third fourth) : Served first fourth := by
  refine ⟨last.resting served.resting, ?_⟩
  rw [last.disks, ← first'.disks]
  exact served.journal

theorem Concluded.served {old after : World} (concluded : Concluded m old after)
    (resting : Resting old) (used : (old.mounts m).used = true) : Served old after := by
  refine ⟨concluded.resting resting used, ?_⟩
  intro d
  by_cases here : d = (old.volume m).device
  · have moved := concluded.journal
    unfold World.disk at moved
    rw [concluded.device, ← here] at moved
    exact moved
  · rw [concluded.disks d here]
    exact (Served.refl resting).journal d

/-! ## Composition -/

section Composition

open Act

variable {act : Driver α} {start : World}

/-- Steps that leave mounts and disks alone. -/
def staying : Evolution World where
  rel := Still
  refl _ := refl
  trans := trans

/-- Started in any world that is still since `start`, the operation is served. -/
def Serves (start : World) (act : Driver α) : Prop :=
  Resting start → ∀ world, Still start world → Served start (act world).2

namespace Serves

variable {β : Type} {rest : α → Driver β} {v : α}

theorem of_stays (stays : Respects staying act) : Serves start act :=
  fun resting w still => (still.trans (stays w)).served resting

theorem served (serves : Serves start act) (resting : Resting start) : Served start (act start).2 :=
  serves resting start refl

theorem done : Serves start (pure v) := of_stays .pure

theorem of (serves : ∀ w, Still start w → Resting w → Served w (act w).2) : Serves start act :=
  fun resting w still => Served.around still (serves w still (still.resting resting)) refl

variable {post : α → Prop}

theorem since (holds : Maintains (Still start) act post)
    (serves : ∀ v, post v → Serves start (rest v)) : Serves start (act >>= rest) := by
  intro resting w still
  obtain ⟨first, values⟩ := holds w still
  rw [bind_run]
  rcases out : act w with ⟨_ | v, next⟩
  · rw [out] at first
    exact first.served resting
  · rw [out] at first values
    exact serves v (values v rfl) resting next first

theorem after (stays : Respects staying act) (serves : ∀ v, Serves start (rest v)) :
    Serves start (act >>= rest) :=
  since (.of_respects stays fun _ _ step still => still.trans step) fun v _ => serves v

theorem before (serves : Serves start act) (stays : ∀ v, Respects staying (rest v)) :
    Serves start (act >>= rest) := by
  intro resting w still
  have first := serves resting w still
  rw [bind_run]
  rcases out : act w with ⟨_ | v, next⟩
  · rw [out] at first
    exact first
  · rw [out] at first
    exact Served.around refl first (stays v next)

theorem attempt (serves : Serves start act) : Serves start (attempt act) := serves

theorem onFailure {cleanup : Driver Unit} (serves : Serves start act)
    (stays : Respects staying cleanup) : Serves start (onFailure act cleanup) := by
  intro resting w still
  have first := serves resting w still
  unfold Act.onFailure
  rcases out : act w with ⟨_ | v, next⟩
  · rw [out] at first
    exact Served.around refl first (stays next)
  · rw [out] at first
    exact first

theorem asks {rest : World → Driver β} (serves : ∀ w, Serves w (rest w)) :
    Serves start (gets id >>= rest) :=
  of fun w _ resting => serves w resting w refl

variable {cond : Prop}

theorem ite [Decidable cond] {other : Driver α}
    (yes : cond → Serves start act) (no : ¬cond → Serves start other) :
    Serves start (if cond then act else other) := by
  split
  next holds => exact yes holds
  next fails => exact no fails

theorem stop [Decidable cond] (serves : ¬cond → Serves start act) :
    Serves start (if cond then pure v else act) :=
  ite (fun _ => done) serves

theorem check [Decidable cond] {rest : Unit → Driver β}
    (serves : cond → Serves start (rest ())) : Serves start (require cond >>= rest) :=
  since .require fun _ => serves

end Serves

end Composition

/-! ## Mutations -/

variable {f dirs : Nat} {p : Option Path}

theorem mutationResult_none {body : Driver α} {w : World} :
    ∃ next, mutationResult none p f dirs body w = (some (none, false), next) ∧
      Still w next := by
  have entered := fsEnter_run w
  split at entered
  · refine ⟨(w.tock.counted (w.fsOperations + 1)).counted
      ((w.tock.counted (w.fsOperations + 1)).fsOperations - 1), ?_,
      ⟨fun _ => rfl, rfl⟩⟩
    simp [mutationResult, mutationBeginResult, bind_run, entered]
  · refine ⟨w.tock, ?_, ⟨fun _ => rfl, rfl⟩⟩
    simp [mutationResult, mutationBeginResult, bind_run, entered]

variable {body : Driver α} {mount : Option Nat} {start : World}

theorem mutationResult_served (resting : Resting w)
    (known : ∀ m, mount = some m → (w.mounts m).used = true ∧
      Keeps m (w.mounts m).mountpoint false body flag post)
    (p : Option Path) (f dirs : Nat) :
    ∃ r next, mutationResult mount p f dirs body w = (some r, next) ∧
      Served w next ∧ (r.2 = true → ∃ m, mount = some m ∧ r.1 = none ∧
        Quiet m w next ∧ (next.volume m).writeBlocked = false ∧
        volumeDirty (next.volume m).flags = false) := by
  cases mount with
  | none =>
    obtain ⟨next, run, same⟩ := mutationResult_none
    exact ⟨(none, false), next, run, same.served resting, nofun⟩
  | some m =>
    obtain ⟨used, keeps⟩ := known m rfl
    obtain ⟨r, next, run, concluded, retry⟩ := mutationResult_outer keeps resting used rfl
    exact ⟨r, next, run, concluded.served resting used, fun again => ⟨m, rfl, retry again⟩⟩

theorem mutation_serves (known : ∀ m, mount = some m → (start.mounts m).used = true ∧
      Keeps m (start.mounts m).mountpoint false body flag post) :
    Serves start (mutation mount p f dirs body) := by
  refine .of fun w still resting => ?_
  obtain ⟨r, next, run, served, _⟩ := mutationResult_served resting
    (fun m found => by rw [still.used, still.mountpoint]; exact known m found) p f dirs
  have final : (mutation mount p f dirs body w).2 = next := by
    simp only [mutation, bind_run, run]
    cases r.1 with
    | none => rfl
    | some v => rfl
  rw [final]
  exact served

theorem mutation_serves_on (used : (start.mounts m).used = true)
    (keeps : Keeps m (start.mounts m).mountpoint false body flag post) :
    Serves start (mutation (some m) p f dirs body) := by
  have known : ∀ k, some m = some k → (start.mounts k).used = true ∧
      Keeps k (start.mounts k).mountpoint false body flag post := by
    rintro k ⟨⟩
    exact ⟨used, keeps⟩
  exact mutation_serves known

variable {p : Path}

theorem findMountForPath_some (found : findMountForPath w p = some m) :
    (w.mounts m).used = true ∧ pathInSubtree p (w.mounts m).mountpoint = true :=
  findMount_some found

/-- The body of an entry point, which looks its mount up again. -/
def locatedBody {α : Type} (world : World) (path : Path) (files dirs : Nat)
    (inner : Driver α) : Driver α := do
  let m ← ofOption (findMountForPath world path)
  mutationCapacity m (some path) files dirs
  inner

theorem locatedBody_known {inner : Driver α} {post : α → Prop}
    (keeps : ∀ m b, pathInSubtree p b = true → Keeps m b false inner flag post) :
    ∀ m, findMountForPath w p = some m → (w.mounts m).used = true ∧
      Keeps m (w.mounts m).mountpoint false (locatedBody w p f dirs inner) flag
        post := by
  intro m found
  obtain ⟨used, below⟩ := findMountForPath_some found
  exact ⟨used, capacity_keeps found (keeps m _ below)⟩

section EntryPoints

variable {sync : Nat → Driver Unit} {w : World}
  (syncs : ∀ m b, Neutral m b false (sync m))

include syncs

theorem writeFileModeResult_served (resting : Resting w) (p : Path) (data : Bytes)
    (mode : Option Nat) :
    ∃ verdict next, writeFileModeResult sync p data mode w = (some verdict, next) ∧
      Served w next ∧ (verdict.2 = true → ∃ m, findMountForPath w p = some m ∧
        verdict.1 = false ∧ Quiet m w next ∧ (next.volume m).writeBlocked = false ∧
        volumeDirty (next.volume m).flags = false) := by
  simp only [writeFileModeResult, bind_run, gets_run, id]
  by_cases rejected : (!validMode mode || exfatStreamBusy w p false ||
      !validAsciiBasename p || !mutationShape w p data.length ||
      (!(findMountAndIndexForFile w p).isSome && nameConflicts w p none)) = true
  · rw [if_pos rejected]
    exact ⟨(false, false), w, rfl, Served.refl resting, nofun⟩
  rw [if_neg rejected]
  obtain ⟨r, next, run, served, retry⟩ := mutationResult_served resting
    (locatedBody_known
      fun m b below => exfatWriteFileImpl_keeps (syncs m b) below)
    (some p) (if (findMountAndIndexForFile w p).isSome then 0 else 1) 0
  unfold locatedBody at run
  refine ⟨(r.1.isSome, r.2), next, ?_, served, ?_⟩
  · rw [bind_run, run]
    rfl
  intro again
  obtain ⟨m, found, none, rest⟩ := retry again
  exact ⟨m, found, by rw [none]; rfl, rest⟩

theorem exfatCreateDirectoryMode_serves {mode : Option Nat} :
    Serves w (exfatCreateDirectoryMode sync p mode) :=
  Serves.asks fun _ => .check fun _ => mutation_serves
    (locatedBody_known fun m b below => exfatCreateDirectoryImpl_keeps (syncs m b) below)

theorem exfatDeleteFile_serves : Serves w (exfatDeleteFile sync p) :=
  Serves.asks fun _ => .check fun _ => mutation_serves
    (locatedBody_known fun m b below => exfatDeleteFileImpl_keeps (syncs m b) below)

theorem exfatDeleteDirectory_serves : Serves w (exfatDeleteDirectory sync p) :=
  Serves.asks fun _ => .check fun _ => mutation_serves
    (locatedBody_known fun m b below => exfatDeleteDirectoryImpl_keeps (syncs m b) below)

theorem exfatRename_serves {oldPath newPath : Path} : Serves w (exfatRename sync oldPath newPath) :=
  Serves.asks fun _ => .check fun _ => mutation_serves
    (locatedBody_known fun m b below => exfatRenameImpl_keeps (syncs m b) below)

theorem exfatReplaceFile_serves (oldPath newPath : Path) :
    Serves w (exfatReplaceFile sync oldPath newPath) := by
  refine .asks fun w => .check fun _ resting => ?_
  cases found : replacePlan w oldPath newPath with
  | none => exact Serves.of_stays Act.Respects.fail resting
  | some plan =>
    obtain ⟨used, named, source, target⟩ := resting.tidy.plan found
    exact mutation_serves_on used (replaceBody_keeps (syncs _ _) rfl named source target) resting

end EntryPoints

end SrvrOS.Exfat
