import SrvrOS.Files.Collect
import SrvrOS.Files.LockTable

/-!
# What holds between the steps of a call

Besides the ledger, the descriptor system keeps the streams of its pipes sound and the flags of the
collector right, gives entries to living processes only and keeps the record locks in order, while
a call moves entries between the tables and its hands.
-/

namespace SrvrOS.Files

open Lib Pipe Option OpenFiles Catalog

variable {p : ProcId} {fd : Fd} {file : File} {h : Handle} {id : PipeId} {c : Catalog}

namespace System

/-- What is known outside of a system: the calls that have asked for a lock, and the flags of the
collector. -/
structure Context where
  asked : Nat → LockWait → Prop
  collector : Bool × Nat

variable {known : Context} {s new last : System} {loose loose' : List Target}
  {t : Target}

/-- Every lock belongs to a process that has the file open. -/
def Guarded (system : System) : Prop :=
  ∀ lock ∈ system.locks.locks, ∃ proc fd file, system.pids proc = lock.pid ∧
    system.tables proc fd = some file ∧ system.contentOf file.entry = some lock.content

structure Order (known : Context) (system : System) (loose : List Target) : Prop
    extends system.Ledger loose where
  sound : ∀ id, (system.pipes id).Sound (system.pipes id).queued
  idle : ∀ proc, system.live proc = false → ∀ fd, system.tables proc fd = none
  tidy : Tidy system.locks.locks
  shared : Shared system.locks.locks
  guarded : system.Guarded
  waits : ∀ call wait, system.lockWaits call = some wait → known.asked call wait
  collector : system.collector = known.collector
  flagged : ∀ id, (system.pipes id).queued ≠ [] → system.present = true

theorem Order.swap (order : s.Order known loose)
    (eq : ∀ t, loose'.count t = loose.count t) : s.Order known loose' :=
  { order with toLedger := order.toLedger.swap eq }

/-! ## Steps that move no entry of a table -/

theorem named_table (hit : s.tables p fd = some file)
    (names : t ∈ file.entry.targets) : s.named t ≠ 0 := by
  have positive : 0 < (targetsOf (s.tables p fd)).count t := by
    rw [hit]
    exact List.count_pos_iff.mpr names
  have row := Table.le_total (fun file => (targetsOf file).count t) (s.tables p) fd
  have whole := Table.le_total (Table.total fun file => (targetsOf file).count t)
    s.tables p
  simp only [named]
  omega

theorem Ledger.refs_table (ledger : s.Ledger loose)
    (hit : s.tables p fd = some file) (names : t ∈ file.entry.targets) : s.refs t ≠ 0 := by
  have counted := ledger.counted t
  have positive := named_table hit names
  omega

variable {e : Entry}

theorem Entry.handle_target (names : e.handle = some h) : Target.file h ∈ e.targets := by
  cases e <;> simp_all [Entry.handle, Entry.targets]

theorem Ledger.contentOf_table (ledger : s.Ledger loose)
    (hit : s.tables p fd = some file) (names : file.entry.handle = some h) :
    ∃ c, s.files.contentOf h = some c := by
  have positive := ledger.refs_table hit (Entry.handle_target names)
  rw [contentOf_slot]
  cases opened : s.files.catalog.slots h with
  | none => simp [refs, opened] at positive
  | some slot => exact ⟨slot.content, rfl⟩

theorem Steady.contentOf (steady : s.Steady new) (ledger : new.Ledger loose)
    (hit : new.tables p fd = some file) {c : ContentId} (known : s.contentOf file.entry = some c) :
    new.contentOf file.entry = some c := by
  simp only [System.contentOf, bind_eq_some_iff] at known ⊢
  obtain ⟨h, names, known⟩ := known
  obtain ⟨c', now⟩ := ledger.contentOf_table hit names
  have eq := steady.contents h c' now
  rw [known] at eq
  exact ⟨h, names, now.trans eq.symm⟩

section

variable (order : s.Order known loose)

include order

theorem Order.of_steady (ledger : new.Ledger loose')
    (steady : s.Steady new) (sound : ∀ id, (new.pipes id).Sound (new.pipes id).queued)
    (flagged : ∀ id, (new.pipes id).queued ≠ [] → new.present = true) : new.Order known loose' where
  toLedger := ledger
  sound := sound
  idle := fun p dead fd => by
    rw [steady.tables]
    exact order.idle p (steady.live ▸ dead) fd
  tidy := steady.locks ▸ order.tidy
  shared := steady.locks ▸ order.shared
  guarded := fun lock mem => by
    rw [steady.locks] at mem
    obtain ⟨p, fd, file, pid, hit, known⟩ := order.guarded lock mem
    rw [← steady.tables] at hit
    exact ⟨p, fd, file, steady.pids ▸ pid, hit, steady.contentOf ledger hit known⟩
  waits := fun call wait hit => order.waits call wait (steady.waits ▸ hit)
  collector := steady.collector.trans order.collector
  flagged := flagged

theorem Order.of_keeps (ledger : new.Ledger loose')
    (keeps : s.Keeps new) : new.Order known loose' := by
  refine order.of_steady ledger keeps.toSteady (fun id => ?_) fun id => ?_ <;>
    rw [queued_stream (keeps.streams id)]
  · exact (sound_stream (keeps.streams id)).mpr (order.sound id)
  · rw [keeps.present]
    exact order.flagged id

theorem Order.cloneEntry (e : Entry) :
    (s.cloneEntry e).2.Order known
      ((if (s.cloneEntry e).1 then e.targets else []) ++ loose) :=
  order.of_keeps order.toLedger.cloneEntry (s.cloneEntry_keeps e)

end

theorem Order.releaseEntry (order : s.Order known (e.targets ++ loose)) :
    (s.releaseEntry e).2.Order known loose :=
  order.of_keeps order.toLedger.releaseEntry (s.releaseEntry_keeps e)

theorem Order.releaseFiles {f : List File} (order : s.Order known (filesTargets f ++ loose)) :
    (s.releaseFiles f).Order known loose :=
  order.of_keeps order.toLedger.releaseFiles s.releaseFiles_keeps

section

variable (order : s.Order known loose)

include order

theorem Order.setPipe {pipe : Pipe File} {q : List (Rights File)}
    (ledger : (s.setPipe id pipe).Ledger loose') (sound : pipe.Sound q)
    (flagged : q ≠ [] → s.present = true) : (s.setPipe id pipe).Order known loose' := by
  refine order.of_steady ledger ⟨rfl, rfl, rfl, rfl, rfl, rfl, fun _ _ hit => hit⟩ (fun j => ?_)
    fun j => ?_
  all_goals
    by_cases here : j = id
    · subst here
      simp only [System.setPipe, Function.update_self]
      rwa [sound.queued_eq]
  · simpa [System.setPipe, here] using order.sound j
  · simpa [System.setPipe, here] using order.flagged j

theorem Order.setListener {id : ListenerId} {listener : Listener}
    (ledger : (s.setListener id listener).Ledger loose') :
    (s.setListener id listener).Order known loose' :=
  order.of_steady ledger ⟨rfl, rfl, rfl, rfl, rfl, rfl, fun _ _ hit => hit⟩ order.sound
    order.flagged

/-! ## Collecting -/

theorem Order.retire {record : Rights File} {rest : List (Rights File)}
    (q : (s.pipes id).queued = record :: rest) : (s.retire id).Order known loose := by
  have present : s.present = true := order.flagged id (by simp [q])
  refine order.of_steady (order.toLedger.retire q) (retire_steady order.toLedger q)
    (fun j => ?_) fun _ _ => (retire_keeps order.toLedger q).present.trans present
  have stream := (retire_keeps order.toLedger q).streams j
  rw [queued_stream stream, sound_stream stream]
  by_cases here : j = id
  · subst here
    have first : (s.pipes j).rights 0 = some record := by
      rw [order.packed, q]
      rfl
    obtain ⟨q', effect⟩ := (order.sound j).retires first
    have settled := ((s.pipes j).shiftRights 1).stream_settle
    simp only [System.setPipe, Function.update_self]
    rw [queued_stream settled, sound_stream settled, effect.sound.queued_eq]
    exact effect.sound
  · simpa [System.setPipe, here] using order.sound j

theorem Order.collectLoop {fuel : Nat}
    (ended : collectLoop fuel s = some new) : new.Order known loose ∧ s.Steady new := by
  induction fuel generalizing s with
  | zero => simp [System.collectLoop] at ended
  | succ fuel ih =>
    simp only [System.collectLoop] at ended
    split at ended
    next none_ =>
      cases ended
      refine ⟨{ order with flagged := fun id some_ => absurd ?_ some_ },
        rfl, rfl, rfl, rfl, rfl, rfl, fun _ _ hit => hit⟩
      exact order.toLedger.no_rights (by simpa using none_)
    split at ended
    · simp at ended
    next marks _ =>
      split at ended
      next =>
        cases ended
        exact ⟨order, .refl⟩
      next id hit =>
        obtain ⟨-, record, rest, q⟩ := unreachable_some (order.packed id) hit
        obtain ⟨order', steady⟩ := ih (order.retire q) ended
        exact ⟨order', (retire_steady order.toLedger q).trans steady⟩

end

theorem Order.collect (order : s.Order known loose) :
    s.collect.Order known loose ∧ s.Steady s.collect := by
  unfold System.collect
  split
  · exact ⟨order, .refl⟩
  rename_i runs
  split
  · exact ⟨order, .refl⟩
  next collected ended =>
    have start : { s with collecting := true }.Order
        { known with collector := (true, s.gcDefer) } loose := { order with collector := rfl }
    obtain ⟨order', steady⟩ := start.collectLoop ended
    have idle : s.collecting = false := by
      simp only [Bool.or_eq_true, Bool.not_eq_true', Bool.not_eq_true, Bool.not_eq_false,
        bne_iff_ne, not_or, Classical.not_not] at runs
      exact runs.1.2
    have collector : { collected with collecting := false }.collector = s.collector := by
      rw [System.collector, System.collector, idle, show collected.gcDefer = s.gcDefer from
        congrArg Prod.snd steady.collector]
    exact ⟨{ order' with collector := collector.trans order.collector }, steady.live, steady.pids,
      steady.tables, steady.locks, steady.waits, collector, steady.contents⟩

/-! ## Entries of tables -/

theorem setFile_tables (p' : ProcId) (fd' : Fd) (file : Option File) :
    (s.setFile p fd file).tables p' fd' =
      if p' = p ∧ fd' = fd then file else s.tables p' fd' := by
  by_cases here : p' = p
  · subst here
    by_cases there : fd' = fd <;> simp [System.setFile, there]
  · simp [System.setFile, here]

variable {p : ProcId}

theorem Order.invalidate (order : s.Order known loose) {fd : Fd} :
    (s.invalidate p fd).Order known loose := by
  unfold System.invalidate
  split
  · exact order
  · exact { order with }

theorem Order.store (order : s.Order known (file.entry.targets ++ loose))
    (empty : s.tables p fd = none) (live : s.live p = true) :
    (s.setFile p fd (some file)).Order known loose where
  toLedger := by
    have ledger := order.toLedger
    have stored : (s.setFile p fd (some file)).Ledger
        (targetsOf (s.tables p fd) ++ loose) := ledger.setFile
    rwa [empty] at stored
  sound := order.sound
  idle := fun j dead fd' => by
    rw [setFile_tables, if_neg]
    · exact order.idle j dead fd'
    rintro ⟨rfl, -⟩
    cases live.symm.trans dead
  tidy := order.tidy
  shared := order.shared
  guarded := fun lock mem => by
    obtain ⟨p', fd', file', pid, hit, known⟩ := order.guarded lock mem
    refine ⟨p', fd', file', pid, ?_, known⟩
    rw [setFile_tables, if_neg]
    · exact hit
    rintro ⟨rfl, rfl⟩
    simp [empty] at hit
  waits := order.waits
  collector := order.collector
  flagged := order.flagged

theorem Order.reflag {new : File} (order : s.Order known loose)
    (hit : s.tables p fd = some file) (eq : new.entry = file.entry) :
    (s.setFile p fd (some new)).Order known loose where
  toLedger := by
    refine { order.toLedger with counted := fun t => ?_ }
    have counted := order.counted t
    have named := s.named_setFile p fd (some new) t
    have equal : targetsOf (some new) = targetsOf (s.tables p fd) := by
      simp [hit, targetsOf, eq]
    have refs : (s.setFile p fd (some new)).refs t = s.refs t := by
      cases t <;> rfl
    rw [equal] at named
    omega
  sound := order.sound
  idle := fun j dead fd' => by
    rw [setFile_tables, if_neg]
    · exact order.idle j dead fd'
    rintro ⟨rfl, rfl⟩
    simpa [hit] using order.idle j dead fd'
  tidy := order.tidy
  shared := order.shared
  guarded := fun lock mem => by
    obtain ⟨p', fd', file', pid, hit', known⟩ := order.guarded lock mem
    by_cases here : p' = p ∧ fd' = fd
    · obtain ⟨rfl, rfl⟩ := here
      cases hit.symm.trans hit'
      refine ⟨p', fd', new, pid, by rw [setFile_tables, if_pos ⟨rfl, rfl⟩], ?_⟩
      rw [eq]
      exact known
    · exact ⟨p', fd', file', pid, by rw [setFile_tables, if_neg here]; exact hit', known⟩
  waits := order.waits
  collector := order.collector
  flagged := order.flagged

/-- Two systems that differ in generations and locks at most. -/
structure Alike (system after : System) : Prop where
  live : after.live = system.live
  pids : after.pids = system.pids
  tables : after.tables = system.tables
  pipes : after.pipes = system.pipes
  listeners : after.listeners = system.listeners
  files : after.files = system.files
  waits : after.lockWaits = system.lockWaits
  collector : after.collector = system.collector
  present : after.present = system.present

theorem Alike.trans (first : s.Alike new) (second : new.Alike last) : s.Alike last :=
  ⟨second.live.trans first.live, second.pids.trans first.pids, second.tables.trans first.tables,
    second.pipes.trans first.pipes, second.listeners.trans first.listeners,
    second.files.trans first.files, second.waits.trans first.waits,
    second.collector.trans first.collector, second.present.trans first.present⟩

theorem invalidate_alike (s : System) (p : ProcId) (fd : Fd) :
    s.Alike (s.invalidate p fd) ∧
      (s.invalidate p fd).locks = s.locks := by
  unfold invalidate
  split <;> exact ⟨⟨rfl, rfl, rfl, rfl, rfl, rfl, rfl, rfl, rfl⟩, rfl⟩

theorem dropLocks_alike (p : ProcId) (e : Entry) : s.Alike (s.dropLocks p e) := by
  unfold dropLocks
  split <;> exact ⟨rfl, rfl, rfl, rfl, rfl, rfl, rfl, rfl, rfl⟩

theorem dropLocks_locks (s : System) :
    (s.dropLocks p e).locks = s.locks ∧ s.contentOf e = none ∨
      ∃ c, s.contentOf e = some c ∧
        (s.dropLocks p e).locks =
          fileLockReleasePath s.locks (s.pids p) c := by
  unfold dropLocks
  split
  next none => exact .inl ⟨rfl, none⟩
  next c hit => exact .inr ⟨c, hit, rfl⟩

theorem Ledger.alike (ledger : s.Ledger loose) (alike : s.Alike new) : new.Ledger loose := by
  obtain ⟨-, -, tables, pipes, listeners, f, -⟩ := alike
  refine ⟨pipes ▸ ledger.packed, pipes ▸ ledger.sum, f ▸ ledger.catalog, fun t => ?_,
    pipes ▸ ledger.pipeFree, listeners ▸ ledger.listenerFree, listeners ▸ ledger.listenerEmpty⟩
  have counted := ledger.counted t
  cases t <;> simpa only [refs, named, tables, pipes, listeners, f] using counted

/-- Locks that are dropped for an entry are no others' locks. -/
structure Drops (system after : System) (proc : ProcId) (entry : Entry) : Prop where
  tidy : Tidy after.locks.locks
  shared : Shared after.locks.locks
  kept : ∀ lock ∈ after.locks.locks, lock ∈ system.locks.locks ∧
    (lock.pid = system.pids proc → system.contentOf entry ≠ some lock.content)

theorem dropLocks_drops (s : System) (p : ProcId) (e : Entry)
    (tidy : Tidy s.locks.locks) (shared : Shared s.locks.locks) :
    s.Drops (s.dropLocks p e) p e := by
  rcases s.dropLocks_locks with ⟨eq, none⟩ | ⟨c, hit, released⟩
  · refine ⟨eq ▸ tidy, eq ▸ shared, fun lock mem => ⟨eq ▸ mem, fun _ => ?_⟩⟩
    simp [none]
  refine ⟨released ▸ tidy.release, released ▸ shared.release, fun lock mem => ?_⟩
  rw [released, locks_release, List.mem_filter] at mem
  refine ⟨mem.1, fun pid known => ?_⟩
  rw [hit] at known
  simp [pid, some.inj known] at mem

theorem Order.exchange {old : File} {new : Option File}
    (order : s.Order known (targetsOf new ++ loose)) (hit : s.tables p fd = some old) :
    (((s.setFile p fd new).invalidate p fd).dropLocks p old.entry).Order known
      (old.entry.targets ++ loose) := by
  have live : s.live p = true := by
    cases live : s.live p with
    | true => rfl
    | false => simpa [hit] using order.idle p live fd
  have ledger : (s.setFile p fd new).Ledger (old.entry.targets ++ loose) := by
    have exchanged : (s.setFile p fd new).Ledger
        (targetsOf (s.tables p fd) ++ loose) := order.toLedger.setFile
    rwa [hit] at exchanged
  obtain ⟨invalidated, locks⟩ := (s.setFile p fd new).invalidate_alike p fd
  have alike := invalidated.trans (dropLocks_alike p old.entry)
  have drops := dropLocks_drops ((s.setFile p fd new).invalidate p fd) p old.entry
    (locks ▸ order.tidy) (locks ▸ order.shared)
  have tables (p' : ProcId) (fd' : Fd) :
      (((s.setFile p fd new).invalidate p fd).dropLocks p old.entry).tables p' fd' =
        if p' = p ∧ fd' = fd then new else s.tables p' fd' := by
    rw [alike.tables, setFile_tables]
  refine ⟨ledger.alike alike, ?_, fun j dead fd' => ?_, drops.tidy, drops.shared,
    fun lock mem => ?_, ?_, alike.collector.trans order.collector, ?_⟩
  · rw [alike.pipes]
    exact order.sound
  · rw [alike.live] at dead
    rw [tables, if_neg]
    · exact order.idle j dead fd'
    rintro ⟨rfl, -⟩
    cases live.symm.trans dead
  · obtain ⟨before, spared⟩ := drops.kept lock mem
    rw [locks] at before
    obtain ⟨p', fd', file, pid, opened, known⟩ := order.guarded lock before
    refine ⟨p', fd', file, by rw [alike.pids]; exact pid, ?_, ?_⟩
    · rw [tables, if_neg]
      · exact opened
      rintro ⟨rfl, rfl⟩
      cases hit.symm.trans opened
      refine spared (by rw [invalidated.pids]; exact pid.symm) ?_
      rw [System.contentOf, invalidated.files]
      exact known
    · rw [System.contentOf, alike.files]
      exact known
  · rw [alike.waits]
    exact order.waits
  · rw [alike.pipes, alike.present]
    exact order.flagged

/-! ## New pipes and files -/

theorem pipeAlloc_some (hit : s.pipeAlloc = some (id, new)) :
    (s.pipes id).used = false ∧ new = s.setPipe id .alloc := by
  obtain ⟨place, free, made⟩ := map_eq_some_iff.mp hit
  cases made
  exact ⟨by simpa using Fin.eq_true_of_find?_eq_some free, rfl⟩

theorem Order.pipeAlloc (order : s.Order known loose) (hit : s.pipeAlloc = some (id, new)) :
    new.Order known ([.reader id, .writer id] ++ loose) := by
  obtain ⟨unused, rfl⟩ := pipeAlloc_some hit
  obtain ⟨noRefs, empty⟩ := (order.pipeFree id).mp unused
  have sum := order.sum id
  have reads : (s.pipes id).readRefs = 0 := by omega
  have writes : (s.pipes id).writeRefs = 0 := by omega
  have fresh : (alloc : Pipe File).queued = [] := alloc_sound.queued_eq
  refine order.setPipe (order.toLedger.setPipe alloc_sound.packed rfl ?_ fun t => ?_)
    alloc_sound fun some_ => absurd rfl some_
  · simp [alloc]
  have two : ([Target.reader id, Target.writer id] ++ loose).count t =
      (if t = .reader id then 1 else 0) + ((if t = .writer id then 1 else 0) +
        loose.count t) := by
    rw [← count_one, ← count_one]
    rfl
  rw [targets, targets, empty, fresh]
  simp only [credit, reads, writes, alloc, ite_self]
  omega

theorem Order.setFiles {f : OpenFiles} (order : s.Order known loose)
    (sound : f.catalog.Sound) (slots : f.catalog.slots = s.files.catalog.slots) :
    { s with files := f }.Order known loose := by
  have ledger := order.toLedger.setFiles sound (fun h => by rw [slots]) fun _ _ => rfl
  refine order.of_steady ledger ⟨rfl, rfl, rfl, rfl, rfl, rfl, fun h c hit => ?_⟩ order.sound
    order.flagged
  rw [contentOf_slot] at hit ⊢
  rwa [slots] at hit

end System

theorem Texts.agree_self : Texts.Agree (fun id => (c.views id).elim [] View.text) c := by
  intro id view hit
  simp [hit]

namespace OpenFiles

variable {f : OpenFiles}

theorem step_sound (sound : f.catalog.Sound) (e : FileEvent) : (f.step e).2.catalog.Sound :=
  (step_turn sound Texts.agree_self e).sound

theorem slots_edit (id : ContentId) (change : List UInt8 → List UInt8) :
    (c.edit id change).slots = c.slots := by
  unfold edit
  split <;> rfl

theorem slots_orphan (t : Option ContentId) : (c.orphan t).slots = c.slots := by
  unfold Catalog.orphan
  split
  · rfl
  · split <;> rfl

theorem slots_rename (id : ContentId) (path : Path) : (c.rename id path).slots = c.slots := by
  unfold rename
  split <;> rfl

theorem Editing.slots {α : Type} {id : ContentId} {change : α → List UInt8 → List UInt8}
    {r : Except Errno α × OpenFiles} (editing : f.Editing id change r) :
    r.2.catalog.slots = f.catalog.slots := by
  cases editing with
  | failed silent => rw [silent.catalog_eq]
  | edited catalog_eq => rw [catalog_eq, slots_edit]

theorem step_slots (sound : f.catalog.Sound) {e : FileEvent} (still : e.counts = false) :
    (f.step e).2.catalog.slots = f.catalog.slots := by
  cases e with
  | openFlags | openWrite | openNode | reference | close => simp [FileEvent.counts] at still
  | read h length => simp [step, f.fileRead_silent.catalog_eq]
  | pread => rfl
  | write h bytes limit =>
    cases h with
    | read => rfl
    | write id => exact (f.fileWrite_spec id).slots
  | pwrite h bytes offset limit =>
    cases h with
    | read id =>
      simp only [step, filePwrite]
      split <;> rfl
    | write id => exact f.filePwrite_spec.slots
  | seek h offset whence => simp [step, f.fileSeek_silent.catalog_eq]
  | truncate h length limit =>
    cases h with
    | read => rfl
    | write id => exact f.fileTruncate_spec.slots
  | flush h => simp [step, (fileFlush_effect sound h).catalog_eq]
  | syncAll => simp [step, f.syncAll_effect.catalog_eq]
  | unlink path busy node gone =>
    have unlinking := f.unlinkFile_spec path busy node gone
    simp only [step]
    generalize f.unlinkFile path busy node gone = r at unlinking
    cases unlinking with
    | kept silent => rw [silent.catalog_eq]
    | orphaned catalog_eq => rw [catalog_eq, slots_orphan]
  | rename oldPath newPath world =>
    have outcome := f.renameFile_spec oldPath newPath world
    simp only [step]
    generalize f.renameFile oldPath newPath world = r at outcome
    cases outcome with
    | kept effect => rw [effect.catalog_eq]
    | moved effect =>
      rw [effect.catalog_eq]
      unfold renamed
      split
      · rw [slots_rename, slots_orphan]
      · rw [slots_orphan]

end OpenFiles

namespace System

variable {known : Context} {s : System} {loose : List Target}

theorem Order.opened {path : Path} {data : List UInt8} {emptied : Bool} {f : OpenFiles}
    (order : s.Order known loose) (sound : f.catalog.Sound)
    (opening : s.files.Opening path data emptied (.ok h, f)) :
    { s with files := f }.Order known ([Target.file h] ++ loose) := by
  cases opening with
  | @opened _ id _ unused admits catalog_eq flushed_eq =>
    have slots (j : Handle) : f.catalog.slots j =
        if j = h then some ⟨1, id⟩ else s.files.catalog.slots j := by
      rw [catalog_eq, setSlot]
      by_cases here : j = h
      · subst here
        simp
      · simp [here, slots_edit, setView]
    have ledger : { s with files := f }.Ledger ([Target.file h] ++ loose) := by
      refine order.toLedger.setFiles sound (fun j => ?_) fun t apart => ?_
      · rw [slots, count_one]
        by_cases here : j = h
        · subst here
          simp [unused]
        · simp [here]
      · rw [count_one, if_neg (apart h), zero_add]
    refine { order with toLedger := ledger, guarded := fun lock mem => ?_ }
    obtain ⟨p, fd, file, pid, hit, known⟩ := order.guarded lock mem
    refine ⟨p, fd, file, pid, hit, ?_⟩
    simp only [System.contentOf, bind_eq_some_iff] at known ⊢
    obtain ⟨j, names, known⟩ := known
    refine ⟨j, names, ?_⟩
    rw [contentOf_slot] at known ⊢
    rw [slots, if_neg]
    · exact known
    rintro rfl
    simp [unused] at known

end System

end SrvrOS.Files
