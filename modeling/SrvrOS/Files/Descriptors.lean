import SrvrOS.Files.Calls

/-!
# Descriptor reference counts are exact

Processes come and go, inherit descriptors and wait for record locks. Every event keeps the order
of the system with nothing in hand, so each object counts exactly the entries that name it.
-/

namespace SrvrOS.Files

open Lib Function List Option Table OpenFiles Order Slots

variable {proc child : ProcId} {fd : Fd} {stop : Nat} {r : LockRequest}
  {lock : Lock ContentId} {i : Fin 3} {file : Option File}

namespace System

variable {known : Context} {s : System} {loose : List Target}

/-! ## Flags and standard descriptors -/

variable {proc : ProcId}

theorem Order.fileSetFdFlags (order : s.Order known loose) {fd : Fd}
    {cloexec : Bool} : (s.fileSetFdFlags proc fd cloexec).Order known loose := by
  unfold System.fileSetFdFlags
  split
  · exact order
  next file hit => exact order.reflag hit rfl

theorem Order.closeCloexecFiles (order : s.Order known loose) :
    (s.closeCloexecFiles proc).Order known loose := by
  unfold System.closeCloexecFiles
  generalize finRange 67 = fds
  induction fds generalizing s with
  | nil => exact order
  | cons fd rest ih =>
    rw [foldl_cons]
    split
    · exact ih (order.fileClose proc).1
    · exact ih order

def snapshotTargets (snapshots : List (Fin 3 × Option File)) : List Target :=
  filesTargets (snapshots.filterMap Prod.snd)

theorem snapshotTargets_cons (rest : List (Fin 3 × Option File)) :
    snapshotTargets ((i, file) :: rest) = targetsOf file ++ snapshotTargets rest := by
  cases file <;> simp [snapshotTargets, targetsOf, filesTargets]

theorem snapshotTargets_concat (done : List (Fin 3 × Option File)) :
    snapshotTargets (done ++ [(i, file)]) = snapshotTargets done ++ targetsOf file := by
  cases file <;> simp [snapshotTargets, targetsOf, filesTargets]

/-- The snapshots are in hand, or none is. -/
inductive Snapping (known : Context) (system : System) (loose : List Target) :
    Option (List (Fin 3 × Option File)) × System → Prop
  | none {after : System} (order : after.Order known loose) :
      Snapping known system loose (none, after)
  | some {snapshots : List (Fin 3 × Option File)} {after : System}
      (order : after.Order known (snapshotTargets snapshots ++ loose))
      (live : after.live = system.live) :
      Snapping known system loose (some snapshots, after)

theorem Snapping.of_live {middle : System} {r : Option (List (Fin 3 × Option File)) × System}
    (snapping : middle.Snapping known loose r) (live : middle.live = s.live) :
    s.Snapping known loose r := by
  cases snapping with
  | none order => exact .none order
  | some order live' => exact .some order (live'.trans live)

theorem Order.stdioSnapshots (child p : ProcId) (fds : Fin 3 → Int) (indices : List (Fin 3))
    (done : List (Fin 3 × Option File)) (order : s.Order known (snapshotTargets done ++ loose)) :
    s.Snapping known loose (s.stdioSnapshots child p fds indices done) := by
  induction indices generalizing s done with
  | nil => exact .some order rfl
  | cons i rest ih =>
    have closed : s.Order known (snapshotTargets (done ++ [(i, none)]) ++ loose) := by
      rw [snapshotTargets_concat]
      simpa [targetsOf] using order
    unfold System.stdioSnapshots
    dsimp only
    split
    · exact ih done order
    split
    · exact ih _ closed
    split
    · split
      · exact ih _ closed
      · exact .none order.releaseFiles
    rename_i file _
    have cloned := order.cloneEntry file.entry
    have keeps := s.cloneEntry_keeps file.entry
    generalize s.cloneEntry file.entry = r at cloned keeps
    obtain ⟨ok, copied⟩ := r
    cases ok with
    | false => exact .none (releaseFiles cloned)
    | true =>
      have longer : copied.Order known
          (snapshotTargets (done ++ [(i, some ⟨file.entry, false⟩)]) ++ loose) := by
        refine cloned.swap fun t => ?_
        rw [snapshotTargets_concat]
        simp only [targetsOf, elim_some, count_append, if_true]
        omega
      exact (ih _ longer).of_live keeps.live

theorem setFile_none (empty : s.tables proc fd = none) : s.setFile proc fd none = s := by
  simp [System.setFile, ← empty]

theorem Order.storeOption {file : Option File}
    (order : s.Order known (targetsOf file ++ loose)) (empty : s.tables proc fd = none)
    (live : s.live proc = true) : (s.setFile proc fd file).Order known loose := by
  cases file with
  | none =>
    rw [setFile_none empty]
    exact order
  | some file => exact store order empty live

theorem Order.applySnapshots {snapshots : List (Fin 3 × Option File)}
    (order : s.Order known (snapshotTargets snapshots ++ loose))
    (live : s.live child = true) : (s.applySnapshots child snapshots).Order known loose := by
  induction snapshots generalizing s with
  | nil => exact order
  | cons first rest ih =>
    obtain ⟨i, file⟩ := first
    rw [snapshotTargets_cons, append_assoc] at order
    obtain ⟨closed, live', tables⟩ := order.fileClose child
    have living : (s.fileClose child (i.castLE (by decide))).2.live child = true := by
      rw [live']
      exact live
    refine ih (storeOption closed ?_ living) living
    rw [tables, if_pos ⟨rfl, rfl⟩]

theorem Order.configureStdioFds (order : s.Order known loose) (live : s.live child = true)
    (p : ProcId) (fds : Fin 3 → Int) :
    (s.configureStdioFds child p fds).2.Order known loose := by
  unfold System.configureStdioFds
  have snapping := @Order.stdioSnapshots known s loose child p fds (finRange 3) [] order
  generalize s.stdioSnapshots child p fds (finRange 3) [] = r at snapping
  cases snapping with
  | none order' => exact order'.collect.1
  | some order' live' => exact applySnapshots order' (by rw [live']; exact live)

/-! ## Calls -/

theorem Order.call (order : s.Order known loose) (live : s.live proc = true) {call : Call} :
    (s.call proc call).Order known loose := by
  cases call with
  | close fd => exact (order.fileClose proc).1
  | tryClosePipe fd => exact order.fileTryClosePipe proc
  | dupMin fd minimum cloexec => exact order.fileDupMin live
  | dupReplace old new cloexec => exact order.fileDupReplace live
  | pipe => exact order.filePipe live
  | pipePair => exact order.filePipePair live
  | ptyPair h => exact order.filePtyPair live
  | handleAlloc h => exact order.handleAlloc live
  | openFlags path flags busy node => exact order.fileOpenFlags live
  | openWrite path flags busy node => exact order.fileOpenWrite live
  | openNode node data => exact order.fileAlloc live
  | unixBind path => exact order.unixBind live
  | unixListen fd backlog => exact order.unixListen
  | unixConnect path => exact order.unixConnect live
  | unixAccept fd cur exiting nonblocking signalled => exact order.unixAccept live
  | sendRights fd fds => exact order.fileSendRights
  | sendMessage fd bytes fds cur => exact order.fileSendMessage
  | recvRights fd capacity cur memory copied =>
    exact order.fileRecvRights live
  | recvMessage fd length capacity peek cloexec cur memory copied =>
    exact order.fileRecvMessage live
  | pipeRead fd length cur memory copied =>
    exact order.filePipeRead
  | pipeWrite fd bytes done cur copied =>
    exact order.filePipeWrite
  | setFdFlags fd cloexec => exact order.fileSetFdFlags
  | closeCloexec => exact order.closeCloexecFiles
  | configureStdio fds => exact order.configureStdioFds live proc fds

/-! ## Processes -/

theorem targetsOf_clearTable (fd : Fd) : targetsOf (clearTable fd) = [] := by
  unfold clearTable
  split <;> rfl

section

variable (order : s.Order known loose)

include order

theorem Order.allocProcess {pid : Nat} : (s.allocProcess proc pid).Order known loose := by
  unfold System.allocProcess
  split
  · exact order
  rename_i dead
  have empty := order.idle proc (Bool.eq_false_iff.mpr dead)
  refine ⟨{ order.toLedger with counted := fun t => ?_ }, order.sound, fun j idle fd => ?_,
    order.tidy, order.shared, fun lock mem => ?_, order.waits, order.collector, order.flagged⟩
  · have counted := order.counted t
    have row (file : Fd → Option File) (none_ : ∀ fd, targetsOf (file fd) = []) :
        total (fun file => (targetsOf file).count t) file = 0 :=
      total_eq_zero.mpr fun fd => by rw [none_, count_nil]
    have same : total (total fun file => (targetsOf file).count t)
        (update s.tables proc clearTable) =
          total (total fun file => (targetsOf file).count t) s.tables :=
      total_update_same <| (row _ targetsOf_clearTable).trans
        (row _ fun fd => by rw [empty]; rfl).symm
    simp only [named] at counted ⊢
    rw [same]
    exact counted
  · by_cases here : j = proc
    · simp [here] at idle
    simp only [update_of_ne here] at idle ⊢
    exact order.idle j idle fd
  obtain ⟨j, fd, file, isPid, hit, known⟩ := order.guarded lock mem
  have apart : j ≠ proc := by
    rintro rfl
    simp [empty] at hit
  exact ⟨j, fd, file, by simp [apart, isPid], by simp [apart, hit], known⟩

theorem Order.flushStandard : (s.flushStandard proc).Order known loose := by
  unfold System.flushStandard
  generalize [(0 : Fd), 1, 2] = fds
  induction fds generalizing s with
  | nil => exact order
  | cons fd rest ih =>
    rw [foldl_cons]
    split
    next id _ =>
      have flushed := (fileFlush_effect order.catalog (.write id)).catalog_eq
      refine ih (order.setFiles ?_ ?_)
      · rw [flushed]
        exact order.catalog
      · rw [flushed]
    · exact ih order

theorem Order.release (empty : ∀ fd, s.tables proc fd = none) :
    { s with live := update s.live proc false }.Order known loose := by
  refine { order with idle := fun j dead fd => ?_ }
  by_cases here : j = proc
  · rw [here]
    exact empty fd
  · simp only [update_of_ne here] at dead
    exact order.idle j dead fd

theorem Order.discardProcess : (s.discardProcess proc).Order known loose := by
  obtain ⟨cleaned, -, tables⟩ := order.cleanup proc
  exact cleaned.release fun fd => by rw [tables, if_pos rfl]

theorem Order.processExit : (s.processExit proc).Order known loose :=
  order.flushStandard.discardProcess

end

theorem Order.inheritLoop {p : ProcId} {fds : List Fd} (order : s.Order known loose)
    (live : s.live child = true) (distinct : fds.Nodup)
    (empty : ∀ fd ∈ fds, s.tables child fd = none) :
    (s.inheritLoop child p fds).2.Order known loose := by
  induction fds generalizing s with
  | nil => exact order
  | cons fd rest ih =>
    obtain ⟨fresh, distinct⟩ := nodup_cons.mp distinct
    unfold System.inheritLoop
    split
    · exact ih order live distinct fun j mem => empty j (mem_cons_of_mem _ mem)
    rename_i file _
    obtain ⟨order', grows, others⟩ := order.dupInto (empty fd mem_cons_self) live file file.cloexec
    generalize s.dupInto child fd file file.cloexec = r at order' grows others
    obtain ⟨ok, copied⟩ := r
    cases ok with
    | false => exact order'
    | true =>
      refine ih order' (by rw [grows.live]; exact live) distinct fun j mem => ?_
      rw [others child j (.inr fun same => fresh (same ▸ mem))]
      exact empty j (mem_cons_of_mem _ mem)

section

variable (order : s.Order known loose) (live : s.live child = true) (p : ProcId)

include order live p

theorem Order.inheritFiles : (s.inheritFiles child p).2.Order known loose := by
  obtain ⟨cleaned, live', tables⟩ := order.cleanup child
  refine cleaned.inheritLoop (by rw [live']; exact live) (nodup_finRange 67) fun fd _ => ?_
  rw [tables, if_pos rfl]

theorem Order.fork : (s.fork child p).2.Order known loose := by
  unfold System.fork
  split
  · exact order
  · exact order.inheritFiles live p

theorem Order.spawnDup2 {old new : Fd} : (s.spawnDup2 child p old new).2.Order known loose := by
  unfold System.spawnDup2
  split
  · exact order
  split
  · exact order
  rename_i source _
  split
  next empty => exact (order.dupInto (isNone_iff_eq_none.mp empty) live source _).1
  obtain ⟨closed, live', tables⟩ := order.fileClose child
  dsimp only
  split
  · exact closed
  refine (closed.dupInto ?_ (by rw [live']; exact live) source _).1
  rw [tables, if_pos ⟨rfl, rfl⟩]

end

/-! ## Locks -/

/-- A range reaches as far as its length says, backwards if that is negative and as far as possible
if it is zero. -/
def Requested (base : Nat) (request : LockRequest) (start stop : Nat) : Prop :=
  0 ≤ base + request.start ∧ base + request.start ≤ int64Max ∧
    if request.len < 0 then start = base + request.start + request.len ∧ stop = base + request.start
    else start = base + request.start ∧
      if request.len = 0 then stop = 2 ^ 64 - 1
      else stop = base + request.start + request.len ∧ stop ≤ int64Max + 1

theorem lockRangeFrom_some {b start : Nat} (hit : lockRangeFrom b r = some (start, stop)) :
    Requested b r start stop := by
  simp only [lockRangeFrom] at hit
  unfold Requested
  split at hit
  · simp at hit
  split at hit
  · simp at hit
  split at hit
  · simp at hit
  split at hit
  next backwards =>
    rw [if_pos backwards]
    split at hit
    · simp at hit
    simp only [some.injEq, Prod.mk.injEq] at hit
    omega
  rename_i forwards
  rw [if_neg forwards]
  split at hit
  next whole =>
    rw [if_pos whole]
    simp only [some.injEq, Prod.mk.injEq] at hit
    omega
  rename_i part
  rw [if_neg part]
  split at hit
  · simp at hit
  simp only [some.injEq, Prod.mk.injEq] at hit
  omega

theorem Requested.lt {b start : Nat} (requested : Requested b r start stop) : start < stop := by
  have bound : int64Max = 2 ^ 63 - 1 := rfl
  unfold Requested at requested
  split at requested
  · omega
  split at requested <;> omega

/-- Where the range of a request counts from. -/
inductive Base (system : System) (content : ContentId) : Entry → Int → Nat → Prop
  | start {entry : Entry} : Base system content entry 0 0
  | readOffset {id : ReadId} : Base system content (.vfs id) 1 (system.files.readFiles id).offset
  | writeOffset {id : WriteId} :
    Base system content (.vfsWrite id) 1 (system.files.writeFiles id).offset
  | size {entry : Entry} : Base system content entry 2 (system.files.contents content).size

theorem Base.of_lockBase {entry : Entry} {used : Bool} {offset b : Nat} {c : ContentId}
    {whence : Int} (described : s.Base c entry 1 offset)
    (hit : s.lockBase used offset c whence = some b) : s.Base c entry whence b := by
  unfold lockBase at hit
  split at hit
  next zero =>
    cases hit
    exact zero ▸ .start
  split at hit
  · cases hit
  split at hit
  next one =>
    cases hit
    exact one ▸ described
  split at hit
  next two =>
    cases hit
    exact two ▸ .size
  · cases hit

theorem lockRange_some {entry : Entry} {start : Nat} {c : ContentId}
    (opened : s.contentOf entry = some c) (hit : s.lockRange entry r = some (start, stop)) :
    ∃ b, s.Base c entry r.whence b ∧ Requested b r start stop := by
  cases entry with
  | vfs id =>
    simp only [System.contentOf, Entry.handle, bind_some, OpenFiles.contentOf] at opened
    split at opened
    · cases opened
      simp only [lockRange] at hit
      split at hit
      · cases hit
      obtain ⟨b, counts, range⟩ := bind_eq_some_iff.mp hit
      exact ⟨b, Base.readOffset.of_lockBase counts, lockRangeFrom_some range⟩
    · cases opened
  | vfsWrite id =>
    simp only [System.contentOf, Entry.handle, bind_some, OpenFiles.contentOf] at opened
    split at opened
    · cases opened
      obtain ⟨b, counts, range⟩ := bind_eq_some_iff.mp hit
      exact ⟨b, Base.writeOffset.of_lockBase counts, lockRangeFrom_some range⟩
    · cases opened
  | _ => cases opened

/-- A call has asked for a lock on the content of its descriptor. -/
def Asks (system : System) (proc : ProcId) (fd : Fd) (request : LockRequest) (wait : LockWait) :
    Prop :=
  wait.proc = proc ∧ wait.fd = fd ∧ ∃ file, system.tables proc fd = some file ∧
    lockType request.type = some wait.type ∧ system.contentOf file.entry = some wait.content ∧
    ∃ base, system.Base wait.content file.entry request.whence base ∧
      Requested base request wait.start wait.stop

theorem Asks.lt {wait : LockWait} (asks : s.Asks proc fd r wait) : wait.start < wait.stop := by
  obtain ⟨-, -, file, -, -, -, b, -, requested⟩ := asks
  exact requested.lt

variable {call : Nat}

theorem Order.fileSetLock (order : s.Order known loose)
    (fresh : ∀ wait, s.Asks proc fd r wait → known.asked call wait) :
    (s.fileSetLock call proc fd r).2.Order known loose := by
  unfold System.fileSetLock
  split
  · exact order
  rename_i file entry
  split
  next type c start stop isType isContent range =>
    split
    · exact order
    refine { order with waits := fun j wait hit => ?_ }
    by_cases here : j = call
    · simp only [here, update_self, some.injEq] at hit
      subst here
      subst hit
      exact fresh _ ⟨rfl, rfl, file, entry, isType, isContent, lockRange_some isContent range⟩
    · simp only [update_of_ne here] at hit
      exact order.waits j wait hit
  · exact order

theorem Order.endWait (order : s.Order known loose) (call : Nat) :
    (s.endWait call).Order known loose := by
  refine { order with waits := fun j wait hit => ?_ }
  by_cases here : j = call
  · simp [System.endWait, here] at hit
  simp only [System.endWait, update_of_ne here] at hit
  exact order.waits j wait hit

/-- A lock of an updated table covers bytes that its process has locked already, or it is of the
caller. -/
theorem update_member {locks locks' : LockTable ContentId} {pid start : Nat} {c : ContentId}
    {type : LockType} (tidy : Tidy locks.locks) (range : start < stop)
    (updated : fileLockUpdate locks pid c start stop type = some locks')
    (mem : lock ∈ locks'.locks) :
    (lock.pid = pid ∧ lock.content = c) ∨
      ∃ old ∈ locks.locks, old.pid = lock.pid ∧ old.content = lock.content := by
  obtain ⟨tidy', holds⟩ := fileLockUpdate_some tidy range updated
  obtain ⟨wide, isLock⟩ := tidy'.proper lock mem
  have held := (holds lock.pid lock.content lock.start lock.type).mp
    ⟨lock, mem, rfl, rfl, rfl, le_rfl, wide⟩
  split at held
  next own => exact .inl ⟨own.1, own.2.1⟩
  obtain ⟨old, known, pid, c, -⟩ := held
  exact .inr ⟨old, known, pid, c⟩

theorem Order.lockRound (order : s.Order known loose)
    (proper : ∀ call wait, known.asked call wait → wait.start < wait.stop)
    {exiting wait interrupted : Bool} :
    (s.lockRound call exiting wait interrupted).2.Order known loose := by
  have ended := order.endWait call
  unfold System.lockRound
  split
  · exact order
  rename_i r asked
  have range := proper call r (order.waits call r asked)
  dsimp only
  split
  · exact ended
  rename_i cur
  split
  · exact ended
  split
  next clear =>
    split
    · exact ended
    rename_i locks updated
    have clear' : r.type = .unlck ∨ fileLockConflict s.locks
        (s.pids r.proc) r.content r.start r.stop
          r.type = none := by
      simpa using clear
    refine { ended with
      tidy := (fileLockUpdate_some order.tidy range updated).1
      shared := order.shared.update order.tidy range clear' updated
      guarded := fun lock mem => ?_ }
    rcases update_member order.tidy range updated mem with ⟨pid, c⟩ |
      ⟨old, known, pid, c⟩
    · unfold lockCurrent at cur
      split at cur
      · simp at cur
      next file hit =>
        simp only [Bool.and_eq_false_iff, Bool.not_eq_true', Bool.not_eq_false, decide_eq_true_eq,
          beq_iff_eq, not_or] at cur
        exact ⟨r.proc, r.fd, file, pid.symm, hit, c ▸ cur.2⟩
    · obtain ⟨proc, fd, file, isPid, hit, c'⟩ := order.guarded old known
      exact ⟨proc, fd, file, isPid.trans pid, hit, c ▸ c'⟩
  split
  · exact ended
  split
  · exact ended
  · exact order

/-! ## Runs -/

theorem start_order {answers : Nat → Answer} {asked : Nat → LockWait → Prop} :
    (start answers).Order ⟨asked, false, 0⟩ [] where
  toLedger := start_ledger
  sound := fun _ => by
    have same : (({} : Pipe File)).stream = (Pipe.alloc : Pipe File).stream := rfl
    exact (Pipe.sound_stream same).mpr Pipe.alloc_sound
  idle := fun _ _ _ => rfl
  tidy := ⟨by simp [start, LockTable.locks, used], by simp [start, LockTable.locks, used]⟩
  shared := by simp [start, LockTable.locks, used, Shared, Holds]
  guarded := by simp [start, LockTable.locks, used, Guarded]
  waits := by simp [start]
  collector := rfl
  flagged := fun _ some_ => absurd rfl some_

theorem Order.step (order : s.Order known []) {e : Event}
    (proper : ∀ call wait, known.asked call wait → wait.start < wait.stop)
    (fresh : ∀ call proc fd r wait, e = .setLock call proc fd r →
      s.Asks proc fd r wait → known.asked call wait) : (s.step e).Order known [] := by
  cases e with
  | alloc proc pid => exact order.allocProcess
  | unixUnlink path => exact order.unixUnlink
  | lockRound call exiting wait interrupted => exact order.lockRound proper
  | call proc call =>
    simp only [System.step]
    split
    next live => exact order.call live
    · exact order
  | exit proc =>
    simp only [System.step]
    split
    · exact order.processExit
    · exact order
  | discard proc =>
    simp only [System.step]
    split
    · exact order.discardProcess
    · exact order
  | inheritFiles child p =>
    simp only [System.step]
    split
    next live => exact order.inheritFiles live p
    · exact order
  | fork child p =>
    simp only [System.step]
    split
    next live => exact order.fork live p
    · exact order
  | configureStdio child p fds =>
    simp only [System.step]
    split
    next live => exact order.configureStdioFds live p fds
    · exact order
  | spawnDup2 child p old new =>
    simp only [System.step]
    split
    next live => exact order.spawnDup2 live p
    · exact order
  | file e =>
    simp only [System.step]
    split
    · exact order
    next still =>
      exact order.setFiles (step_sound order.catalog e)
        (step_slots order.catalog (Bool.eq_false_iff.mpr still))
  | setLock call proc fd r =>
    simp only [System.step]
    split
    · exact order
    · exact order.fileSetLock fun wait => fresh call proc fd r wait rfl

theorem after_concat (answers : Nat → Answer) (events : List Event) (e : Event) :
    after answers (events ++ [e]) = (after answers events).step e := by
  unfold after
  rw [run_append]
  rfl

/-- A call under way has asked for its lock at some time before. -/
def Asked (answers : Nat → Answer) (events : List Event) (call : Nat) (wait : LockWait) : Prop :=
  ∃ earlier request, earlier ++ [.setLock call wait.proc wait.fd request] <+: events ∧
    (after answers earlier).Asks wait.proc wait.fd request wait

theorem after_order (answers : Nat → Answer) (events : List Event) :
    (after answers events).Order ⟨Asked answers events, false, 0⟩ [] := by
  induction events using reverseRecOn with
  | nil => exact start_order
  | append_singleton events e ih =>
    have more : (after answers events).Order ⟨Asked answers (events ++ [e]), false, 0⟩ [] := by
      refine { ih with waits := fun call wait hit => ?_ }
      obtain ⟨earlier, r, before, asks⟩ := ih.waits call wait hit
      exact ⟨earlier, r, before.trans (prefix_append _ _), asks⟩
    rw [after_concat]
    refine more.step (fun call wait asked => ?_) fun call proc fd r wait isEvent asks => ?_
    · obtain ⟨_, _, _, asks⟩ := asked
      exact asks.lt
    · obtain ⟨rfl, rfl, -⟩ := id asks
      exact ⟨events, r, by rw [isEvent], asks⟩

/-! ## Counts -/

end System

def OpenFiles.holders (files : OpenFiles) (id : ContentId) : Nat :=
  total (fun file : ReadFile => if file.used ∧ file.content = id then 1 else 0)
      files.readFiles +
    total (fun file : WriteFile => if file.used ∧ file.content = id then 1 else 0)
      files.writeFiles

theorem OpenFiles.holders_eq (f : OpenFiles) (id : ContentId) :
    f.holders id = f.catalog.holders id := by
  have reads (file : ReadId) : (if (f.readFiles file).used ∧
      (f.readFiles file).content = id then 1 else 0) =
        Catalog.weight id (f.catalog.readSlots file) := by
    change _ = Catalog.weight id (f.readFiles file).slot
    by_cases used : (f.readFiles file).used <;> simp [Catalog.weight, ReadFile.slot]
  have writes (file : WriteId) : (if (f.writeFiles file).used ∧
      (f.writeFiles file).content = id then 1 else 0) =
        Catalog.weight id (f.catalog.writeSlots file) := by
    change _ = Catalog.weight id (f.writeFiles file).slot
    by_cases used : (f.writeFiles file).used <;> simp [Catalog.weight, WriteFile.slot]
  simp [holders, Catalog.holders, total, reads, writes]

theorem OpenFiles.refs_eq (f : OpenFiles) (id : ContentId) :
    f.catalog.refs id = (f.contents id).refs := by
  change (f.contents id).view.elim 0 View.refs = _
  unfold Content.view
  split <;> simp_all

namespace System

variable {known : Context} {s : System} {loose : List Target}

section

variable (order : s.Order known [])

include order

theorem Order.refs_eq (t : Target) : s.refs t = s.named t := by
  rw [order.counted, count_nil, add_zero]

theorem Order.description (h : Handle) :
    (∀ k, s.files.catalog.slots h = some k →
      k.refs = s.named (.file h)) ∧
      (s.files.catalog.slots h = none ↔ s.named (.file h) = 0) := by
  rw [← order.refs_eq, refs]
  cases hit : s.files.catalog.slots h with
  | none => simp
  | some k => simpa using (order.catalog.positive h k hit).ne'

theorem Order.pipe (id : PipeId) :
    (s.pipes id).readRefs = s.named (.reader id) ∧
      (s.pipes id).writeRefs = s.named (.writer id) ∧
      (s.pipes id).refs = (s.pipes id).readRefs + (s.pipes id).writeRefs ∧
      ((s.pipes id).used = false ↔ s.named (.reader id) = 0 ∧
        s.named (.writer id) = 0 ∧ ∀ k, (s.pipes id).rights k = none) := by
  have reads : (s.pipes id).readRefs = s.named (.reader id) := order.refs_eq (.reader id)
  have writes : (s.pipes id).writeRefs = s.named (.writer id) := order.refs_eq (.writer id)
  have empty : (s.pipes id).queued = [] ↔ ∀ k, (s.pipes id).rights k = none := by
    refine ⟨fun empty k => ?_, fun none_ => ?_⟩
    · rw [order.packed, empty]
      rfl
    · rw [← (order.packed id).first_none, none_ 0]
      rfl
  refine ⟨reads, writes, order.sum id, ?_⟩
  rw [order.pipeFree, empty, order.sum, ← reads, ← writes, Nat.add_eq_zero_iff, and_assoc]

end

/-- Only living processes have descriptors, every name has one content, and the records of a pipe
are in order and within its bytes. -/
theorem descriptors_sound (answers : Nat → Answer) (events : List Event) :
    let s := after answers events
    (∀ proc fd, s.live proc = false → s.tables proc fd = none) ∧ s.files.catalog.Named ∧
      ∀ id, (s.pipes id).Sound (s.pipes id).queued := by
  have order := after_order answers events
  exact ⟨fun proc fd ended => order.idle proc ended fd, order.catalog.named, order.sound⟩

/-- After any events, every object counts exactly the entries that name it: in descriptor tables, in
the queues of pipes and pending at listeners. It is free when there are none and, for a pipe,
nothing is queued. -/
theorem descriptor_refs_exact (answers : Nat → Answer) (events : List Event) :
    (∀ id, ((after answers events).pipes id).readRefs = (after answers events).named (.reader id) ∧
      ((after answers events).pipes id).writeRefs = (after answers events).named (.writer id) ∧
      ((after answers events).pipes id).refs =
        ((after answers events).pipes id).readRefs + ((after answers events).pipes id).writeRefs ∧
      (((after answers events).pipes id).used = false ↔
        (after answers events).named (.reader id) = 0 ∧
          (after answers events).named (.writer id) = 0 ∧
          ∀ slot, ((after answers events).pipes id).rights slot = none)) ∧
    (∀ id, ((after answers events).listeners id).refs =
        (after answers events).named (.listener id) ∧
      (((after answers events).listeners id).used = false ↔
        (after answers events).named (.listener id) = 0)) ∧
    (∀ id, (((after answers events).files.readFiles id).used = true →
        ((after answers events).files.readFiles id).refs =
          (after answers events).named (.file (.read id))) ∧
      (((after answers events).files.readFiles id).used = false ↔
        (after answers events).named (.file (.read id)) = 0)) ∧
    (∀ id, (((after answers events).files.writeFiles id).used = true →
        ((after answers events).files.writeFiles id).refs =
          (after answers events).named (.file (.write id))) ∧
      (((after answers events).files.writeFiles id).used = false ↔
        (after answers events).named (.file (.write id)) = 0)) ∧
    ∀ id, ((after answers events).files.contents id).refs =
      (after answers events).files.holders id := by
  have order := after_order answers events
  generalize after answers events = system at order
  refine ⟨order.pipe, fun id => ?_, fun id => ?_, fun id => ?_, fun id => ?_⟩
  · have refs : (system.listeners id).refs = system.named (.listener id) :=
      order.refs_eq (.listener id)
    exact ⟨refs, by rw [order.listenerFree, refs]⟩
  · simpa [slots_read, ReadFile.slot] using order.description (.read id)
  · simpa [slots_write, WriteFile.slot] using order.description (.write id)
  · rw [holders_eq, ← order.catalog.counted, refs_eq]

/-! ## Record locks -/

theorem fileSetLock_locks (s : System) (call : Nat) (proc : ProcId) (fd : Fd)
    (r : LockRequest) : (s.fileSetLock call proc fd r).2.locks = s.locks := by
  unfold fileSetLock
  repeat' split
  all_goals rfl

/-- What a round of a lock call does to the locks, by its answer. -/
inductive Locking (system : System) (call : Nat) : Option (Except Errno Unit) × System → Prop
  | kept {answer : Option (Except Errno Unit)} {after : System} (failed : answer ≠ some (.ok ()))
      (same : after.locks = system.locks) : Locking system call (answer, after)
  | granted {wait : LockWait} {after : System} (asked : system.lockWaits call = some wait)
      (updated : fileLockUpdate system.locks (system.pids wait.proc) wait.content wait.start
        wait.stop wait.type = some after.locks) : Locking system call (some (.ok ()), after)

theorem lockRound_locking (s : System) (call : Nat) (exiting wait interrupted : Bool) :
    s.Locking call (s.lockRound call exiting wait interrupted) := by
  unfold lockRound
  split
  · exact .kept (by simp) rfl
  rename_i r asked
  dsimp only
  split
  · exact .kept (by simp) rfl
  split
  · exact .kept (by simp) rfl
  split
  · split
    · exact .kept (by simp) rfl
    next locks updated => exact .granted asked updated
  split
  · exact .kept (by simp) rfl
  split
  · exact .kept (by simp) rfl
  · exact .kept (by simp) rfl

theorem Order.lock_held (order : s.Order known loose) (mem : lock ∈ s.locks.locks) :
    (s.files.contents lock.content).refs ≠ 0 := by
  obtain ⟨proc, fd, file, -, hit, c⟩ := order.guarded lock mem
  simp only [System.contentOf, bind_eq_some_iff] at c
  obtain ⟨h, -, c⟩ := c
  rw [contentOf_slot, map_eq_some_iff] at c
  obtain ⟨k, opened, isContent⟩ := c
  obtain ⟨view, seen⟩ := order.catalog.held opened
  rw [isContent] at seen
  exact (views_some seen).1

theorem Holds.of_member {locks : List (Lock ContentId)} {byte : Nat} (mem : lock ∈ locks)
    (lower : lock.start ≤ byte) (upper : byte < lock.stop) :
    Holds locks lock.pid lock.content byte lock.type :=
  ⟨lock, mem, rfl, rfl, rfl, lower, upper⟩

/-- After any events, locks that overlap on one content are all for reading. A lock call that
answers without an error changes exactly the bytes it asked for, and one that fails changes nothing.
A content that is released has no locks. -/
theorem record_locks_exact (answers : Nat → Answer) (events : List Event) :
    (∀ lock ∈ (after answers events).locks.locks, ∀ other ∈ (after answers events).locks.locks,
      lock.pid ≠ other.pid → lock.content = other.content → lock.start < other.stop →
        other.start < lock.stop → lock.type = .rdlck ∧ other.type = .rdlck) ∧
    ((after answers events).locks.locks.Pairwise fun lock other => lock.pid = other.pid →
      lock.content = other.content → lock.stop ≤ other.start ∨ other.stop ≤ lock.start) ∧
    (∀ lock ∈ (after answers events).locks.locks,
      ((after answers events).files.contents lock.content).refs ≠ 0 ∧
        ∃ proc fd file, (after answers events).pids proc = lock.pid ∧
          (after answers events).tables proc fd = some file ∧
          (after answers events).contentOf file.entry = some lock.content) ∧
    (∀ call proc fd request, ((after answers events).fileSetLock call proc fd request).2.locks =
      (after answers events).locks) ∧
    ∀ call exiting wait interrupted,
      if ((after answers events).lockRound call exiting wait interrupted).1 = some (.ok ()) then
        ∃ asked, (after answers events).lockWaits call = some asked ∧
          Asked answers events call asked ∧
          ∀ pid content byte type,
            Holds ((after answers events).lockRound call exiting wait interrupted).2.locks.locks
                pid content byte type ↔
              if pid = (after answers events).pids asked.proc ∧ content = asked.content ∧
                  asked.start ≤ byte ∧ byte < asked.stop then
                type = asked.type ∧ asked.type ≠ .unlck
              else Holds (after answers events).locks.locks pid content byte type
      else ((after answers events).lockRound call exiting wait interrupted).2.locks =
        (after answers events).locks := by
  have order := after_order answers events
  generalize after answers events = system at order
  refine ⟨fun lock member other member' apart same left right => ?_, order.tidy.apart,
    fun lock member => ⟨order.lock_held member, order.guarded lock member⟩,
    system.fileSetLock_locks, fun call exiting wait interrupted => ?_⟩
  · have lockProper := order.tidy.proper lock member
    have otherProper := order.tidy.proper other member'
    have first := Holds.of_member member (le_max_left lock.start other.start)
      (Nat.max_lt.mpr ⟨lockProper.1, right⟩)
    have second := Holds.of_member member' (le_max_right lock.start other.start)
      (Nat.max_lt.mpr ⟨left, otherProper.1⟩)
    rw [← same] at second
    exact order.shared _ _ _ _ _ _ apart first second
  have locking := system.lockRound_locking call exiting wait interrupted
  generalize system.lockRound call exiting wait interrupted = result at locking
  cases locking with
  | kept failed same => rw [if_neg failed]; exact same
  | @granted asked _ waits updated =>
    have known := order.waits call asked waits
    obtain ⟨_, _, _, asks⟩ := id known
    exact ⟨asked, waits, known, (fileLockUpdate_some order.tidy asks.lt updated).2⟩

/-! ## The collector -/

theorem after_collectable (answers : Nat → Answer) (events : List Event) :
    (after answers events).Collectable := by
  have order := after_order answers events
  obtain ⟨idle, prompt⟩ := Prod.mk.inj order.collector
  refine ⟨order.toLedger, idle, prompt, fun any => ?_⟩
  obtain ⟨id, -, used⟩ := any_eq_true.mp any
  refine order.flagged id ?_
  simp only [Bool.and_eq_true, Bool.not_eq_true', isEmpty_eq_false_iff] at used
  exact used.2

/-- Whatever has happened, the collector can run and ends. The records that could be redeemed are
queued as they were, no others are left, and a pipe without references is free. -/
theorem collect_exact :
    (∀ answers events, (after answers events).Collectable) ∧
    ∀ system : System, system.Collectable →
      (system.present = true →
        ∃ after, collectLoop 513 { system with collecting := true } = some after ∧
          system.collect = { after with collecting := false }) ∧
      system.collect.Ledger [] ∧
      (∀ id, system.Reachable (.pipe id) →
        (system.collect.pipes id).queued = (system.pipes id).queued) ∧
      (∀ id, ¬ system.Reachable (.pipe id) → (system.collect.pipes id).queued = []) ∧
      ∀ id, (system.collect.pipes id).refs = 0 → (system.collect.pipes id).used = false := by
  refine ⟨after_collectable, fun system ready => ?_⟩
  have collected := ready.collected
  refine ⟨fun present => ?_, collected.ledger, collected.kept, collected.empty, fun id free => ?_⟩
  · obtain ⟨after, ended, result, -⟩ := ready.collect_eq present
    exact ⟨after, ended, result⟩
  refine (collected.ledger.pipeFree id).mpr ⟨free, collected.empty id fun reachable => ?_⟩
  have positive : (system.collect.pipes id).readRefs ≠ 0 :=
    collected.ledger.refs_of_reachable (collected.reachable.mpr reachable)
  have sum := collected.ledger.sum id
  omega

/-- A pipe whose only reader is on its way in the pipe itself. -/
def stray : Pipe File :=
  { used := true
    refs := 1
    readRefs := 1
    rights := fun slot => [⟨0, [⟨.pipeRead 0, false⟩]⟩][slot]? }

def strayed : System :=
  { (start fun _ => ⟨true, false⟩).setPipe 0 stray with present := true }

theorem stray_queued : stray.queued = [⟨0, [⟨.pipeRead 0, false⟩]⟩] :=
  Pipe.queued_eq (fun _ => rfl) (by decide)

theorem strayed_collectable : strayed.Collectable := by
  have ledger : ((start fun _ => ⟨true, false⟩).setPipe 0 stray).Ledger [] := by
    refine start_ledger.setPipe (.of_front (fun _ => rfl) (by decide)) rfl ?_ fun target => ?_
    · simp [stray]
    have empty : ((start fun _ => ⟨true, false⟩).pipes 0).targets = [] := rfl
    have full : stray.targets = [.reader 0] := by rfl
    have one := count_one (.reader 0) [] target
    rw [append_nil] at one
    rw [empty, full, one]
    simp [Pipe.credit, stray, start]
  exact ⟨{ ledger with }, rfl, rfl, fun _ => rfl⟩

theorem strayed_unreachable {holder : Holder} : ¬ strayed.Reachable holder := by
  intro reachable
  induction reachable with
  | table hit _ => simp [strayed, start, setPipe] at hit
  | held _ _ _ ih => exact ih

theorem collect_exact_strayed :
    strayed.Collectable ∧ (strayed.pipes 0).queued ≠ [] ∧
      (strayed.collect.pipes 0).queued = [] := by
  refine ⟨strayed_collectable, ?_, ?_⟩
  · have here : strayed.pipes 0 = stray := by simp [strayed, setPipe]
    rw [here, stray_queued]
    simp
  · exact (collect_exact.2 _ strayed_collectable).2.2.2.1 0 strayed_unreachable

end System

end SrvrOS.Files
