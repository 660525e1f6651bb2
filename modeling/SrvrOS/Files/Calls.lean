import SrvrOS.Files.Order

/-!
# The calls of a process on its descriptors

Every call, with any failures, is a composition of the steps that keep the order of the system,
and at its end it has nothing left in its hands.
-/

namespace SrvrOS.Files

open Lib Function List Option Pipe OpenFiles Order Target

variable {fd : Fd} {room : Bool} {h : Handle} {path : Path} {id : PipeId} {e : Entry}

namespace System

variable {known : Context} {s new last : System} {loose : List Target}

/-! ## Closing -/

section

variable (order : s.Order known loose) (p : ProcId)

include order p

variable {fd : Fd}

theorem Order.fileClose :
    (s.fileClose p fd).2.Order known loose ∧
      (s.fileClose p fd).2.live = s.live ∧
      ∀ p' fd', (s.fileClose p fd).2.tables p' fd' =
        if p' = p ∧ fd' = fd then none else s.tables p' fd' := by
  unfold System.fileClose
  cases hit : s.tables p fd with
  | none =>
    refine ⟨order, rfl, fun p' fd' => ?_⟩
    by_cases here : p' = p ∧ fd' = fd
    · rw [if_pos here, here.1, here.2]
      exact hit
    · rw [if_neg here]
  | some f =>
    have start : s.Order known (targetsOf none ++ loose) := order
    have exchanged := start.exchange hit
    have closed := exchanged.releaseEntry
    have keeps := releaseEntry_keeps
      (((s.setFile p fd none).invalidate p fd).dropLocks p f.entry) f.entry
    have alike := ((s.setFile p fd none).invalidate_alike p fd).1.trans
      (dropLocks_alike p f.entry)
    have live := keeps.live.trans alike.live
    have tables (p' : ProcId) (fd' : Fd) : (((s.setFile p fd none).invalidate p
        fd).closeEntry p f.entry).2.tables p' fd' =
          if p' = p ∧ fd' = fd then none else s.tables p' fd' := by
      rw [closeEntry, keeps.tables, alike.tables, setFile_tables]
    dsimp only
    split
    · obtain ⟨collected, steady⟩ := collect closed
      refine ⟨collected, steady.live.trans live, fun p' fd' => ?_⟩
      exact (congrFun (congrFun steady.tables p') fd').trans (tables p' fd')
    · exact ⟨closed, live, tables⟩

theorem Order.closeAll {fds : List Fd} :
    let closed := fds.foldl (fun s fd => (s.fileClose p fd).2) s
    closed.Order known loose ∧ closed.live = s.live ∧
      ∀ p' fd', closed.tables p' fd' =
        if p' = p ∧ fd' ∈ fds then none else s.tables p' fd' := by
  induction fds generalizing s with
  | nil => exact ⟨order, rfl, fun p' fd' => by simp⟩
  | cons first rest ih =>
    obtain ⟨closed, live, tables⟩ := order.fileClose p
    obtain ⟨order', live', tables'⟩ := ih closed
    refine ⟨order', live'.trans live, fun p' fd' => ?_⟩
    rw [foldl_cons, tables', tables]
    by_cases here : p' = p
    · by_cases isFirst : fd' = first <;> by_cases isRest : fd' ∈ rest <;>
        simp [here, isRest]
    · simp [here]

theorem Order.cleanup :
    (s.cleanupProcessFiles p).Order known loose ∧
      (s.cleanupProcessFiles p).live = s.live ∧
      ∀ p' fd, (s.cleanupProcessFiles p).tables p' fd =
        if p' = p then none else s.tables p' fd := by
  have all : ∀ fd : Fd, fd ∈ finRange 67 := mem_finRange
  unfold System.cleanupProcessFiles
  generalize finRange 67 = fds at all ⊢
  obtain ⟨cleaned, live, tables⟩ := order.closeAll p
  refine ⟨cleaned, live, fun p' fd => ?_⟩
  rw [tables]
  simp [all]

theorem Order.fileTryClosePipe : (s.fileTryClosePipe p fd).2.Order known loose := by
  have start := order
  unfold System.fileTryClosePipe
  cases hit : s.tables p fd with
  | none => exact order
  | some f =>
    obtain ⟨e, cloexec⟩ := f
    cases e with
    | pipeRead | pipeWrite =>
      dsimp only [map_some]
      split
      · exact order
      · exact (start.exchange hit).releaseEntry
    | _ => exact order

end

variable {p : ProcId}

theorem Order.rollback (order : s.Order known loose) {fds : List Fd} :
    (s.rollback p fds).Order known loose := by
  have start : { s with gcDefer := s.gcDefer + 1 }.Order
      { known with collector := (s.collecting, s.gcDefer + 1) } loose :=
    { order with collector := rfl }
  obtain ⟨closed, -⟩ := start.closeAll p
  obtain ⟨collecting, gcDefer⟩ := Prod.mk.inj closed.collector
  refine { closed with collector := Eq.trans ?_ order.collector }
  rw [System.rollback, System.collector, System.collector, collecting, gcDefer]
  rfl

/-! ## Duplicating -/

/-- Entries are added to tables, and streams stay. -/
structure Grows (system after : System) : Prop where
  live : after.live = system.live
  tables : ∀ proc fd file, system.tables proc fd = some file → after.tables proc fd = some file
  streams : ∀ id, (after.pipes id).stream = (system.pipes id).stream

theorem Grows.refl {s : System} : s.Grows s := ⟨rfl, fun _ _ _ hit => hit, fun _ => rfl⟩

theorem Grows.trans (first : s.Grows new) (second : new.Grows last) : s.Grows last :=
  ⟨second.live.trans first.live,
    fun p fd f hit => second.tables p fd f (first.tables p fd f hit),
    fun id => (second.streams id).trans (first.streams id)⟩

theorem Keeps.grows (keeps : s.Keeps new) : s.Grows new :=
  ⟨keeps.live, fun p fd f hit => by rw [keeps.tables]; exact hit, keeps.streams⟩

variable {p : ProcId} {first second : Fd}

theorem Order.dupInto (order : s.Order known loose) (empty : s.tables p fd = none)
    (live : s.live p = true) (source : File) (cloexec : Bool) :
    (s.dupInto p fd source cloexec).2.Order known loose ∧
      s.Grows (s.dupInto p fd source cloexec).2 ∧
      ∀ p' fd', (p' ≠ p ∨ fd' ≠ fd) →
        (s.dupInto p fd source cloexec).2.tables p' fd' = s.tables p' fd' := by
  have cloned := order.cloneEntry source.entry
  have keeps := s.cloneEntry_keeps source.entry
  unfold System.dupInto
  generalize s.cloneEntry source.entry = r at cloned keeps
  obtain ⟨ok, copied⟩ := r
  cases ok with
  | false => exact ⟨cloned, keeps.grows, fun p' fd' _ => by rw [keeps.tables]⟩
  | true =>
    have empty' : copied.tables p fd = none := by rw [keeps.tables]; exact empty
    have live' : copied.live p = true := by rw [keeps.live]; exact live
    have stored : (copied.setFile p fd (some ⟨source.entry, cloexec⟩)).Order known loose :=
      store cloned empty' live'
    refine ⟨stored, ⟨keeps.live, fun p' fd' f hit => ?_, keeps.streams⟩,
      fun p' fd' apart => ?_⟩
    · rw [setFile_tables, if_neg]
      · rw [keeps.tables]
        exact hit
      · rintro ⟨rfl, rfl⟩
        simp [empty] at hit
    · rw [setFile_tables, if_neg (by tauto), keeps.tables]

theorem freeFd_some (hit : s.freeFd p = some fd) : s.tables p fd = none := by
  unfold freeFd at hit
  simpa using Fin.eq_true_of_find?_eq_some hit

theorem freeFds_some (hit : s.freeFds p = some (first, second)) :
    s.tables p first = none ∧ s.tables p second = none ∧ first ≠ second := by
  unfold freeFds at hit
  split at hit
  · simp at hit
  rename_i fd free
  obtain ⟨i, later, made⟩ := map_eq_some_iff.mp hit
  cases made
  have holds := Fin.eq_true_of_find?_eq_some later
  simp only [Bool.and_eq_true, decide_eq_true_eq, isNone_iff_eq_none] at holds
  exact ⟨freeFd_some free, holds.2, Fin.ne_of_lt holds.1⟩

variable {cloexec : Bool}

section

variable (order : s.Order known loose) (live : s.live p = true)
include order live

theorem Order.fileDupMin {minimum : Nat} :
    (s.fileDupMin p fd minimum cloexec).2.Order known loose := by
  unfold System.fileDupMin
  split
  · exact order
  split
  · exact order
  rename_i source hit
  split
  · exact order
  rename_i t free
  have holds := Fin.eq_true_of_find?_eq_some free
  simp only [Bool.and_eq_true, decide_eq_true_eq, isNone_iff_eq_none] at holds
  have r := (order.dupInto holds.2 live source cloexec).1
  generalize s.dupInto p t source cloexec = copied at r
  obtain ⟨ok, copied⟩ := copied
  cases ok <;> exact r

theorem Order.fileDupReplace {old new : Fd} :
    (s.fileDupReplace p old new cloexec).2.Order known loose := by
  unfold System.fileDupReplace
  split
  · exact order
  rename_i source hit
  split
  · exact order
  have cloned := order.cloneEntry source.entry
  have keeps := s.cloneEntry_keeps source.entry
  generalize s.cloneEntry source.entry = r at cloned keeps
  obtain ⟨ok, copied⟩ := r
  cases ok with
  | false => exact cloned
  | true =>
    dsimp only
    cases occupied : copied.tables p new with
    | none =>
      have live' : copied.live p = true := by rw [keeps.live]; exact live
      have stored : (copied.setFile p new (some ⟨source.entry, cloexec⟩)).Order known loose :=
        store cloned occupied live'
      exact stored.invalidate
    | some retired =>
      have replaced := cloned
      exact ((replaced.exchange occupied).releaseEntry).collect.1

end

/-! ## Creating entries -/

theorem Order.storeTwo {one two : File}
    (order : s.Order known (one.entry.targets ++ (two.entry.targets ++ loose)))
    (live : s.live p = true)
    (free : s.tables p first = none ∧ s.tables p second = none ∧ first ≠ second) :
    ((s.setFile p first (some one)).setFile p second (some two)).Order known loose := by
  obtain ⟨emptyFirst, emptySecond, apart⟩ := free
  have stored := store order emptyFirst live
  refine store stored ?_ live
  rw [setFile_tables, if_neg (fun here => apart here.2.symm)]
  exact emptySecond

theorem Order.filePipe (order : s.Order known loose)
    (live : s.live p = true) : (s.filePipe p).2.Order known loose := by
  unfold System.filePipe
  split
  · exact order
  rename_i read write free
  split
  · exact order
  rename_i id made hit
  have allocated := order.pipeAlloc hit
  have places := freeFds_some free
  obtain ⟨-, rfl⟩ := pipeAlloc_some hit
  exact storeTwo allocated live places

/-- What a new pair of ends leaves as it was. -/
structure Aside (system after : System) : Prop where
  live : after.live = system.live
  tables : after.tables = system.tables
  listeners : after.listeners = system.listeners

/-- A pair of ends comes into hand, or nothing has happened. -/
inductive Pairing (known : Context) (system : System) (loose : List Target) :
    Option (Entry × Pending) × System → Prop
  | none {after : System} (order : after.Order known loose) (aside : system.Aside after) :
      Pairing known system loose (none, after)
  | some {near : Entry} {far : Pending} {after : System}
      (order : after.Order known (near.targets ++ (far.entry.targets ++ loose)))
      (aside : system.Aside after) : Pairing known system loose (some (near, far), after)

section

variable (order : s.Order known loose) {h : Nat}

include order

theorem Order.duplexPair : s.Pairing known loose s.duplexPair := by
  unfold System.duplexPair
  split
  · exact .none order ⟨rfl, rfl, rfl⟩
  rename_i ab first hit
  have one := order.pipeAlloc hit
  obtain ⟨-, rfl⟩ := pipeAlloc_some hit
  split
  · have closed : (Entry.pipeDuplex ab ab).targets = [.reader ab, .writer ab] := rfl
    exact .none (closed ▸ one).releaseEntry ⟨rfl, rfl, rfl⟩
  rename_i ba second hit
  have two := one.pipeAlloc hit
  obtain ⟨-, rfl⟩ := pipeAlloc_some hit
  refine .some (two.swap fun t => ?_) ⟨rfl, rfl, rfl⟩
  simp only [Entry.targets, Pending.entry, count_append, count_cons]
  omega

theorem Order.filePipePair (live : s.live p = true) : (s.filePipePair p).2.Order known loose := by
  unfold System.filePipePair
  split
  · exact order
  rename_i first second free
  have pairing := order.duplexPair
  generalize s.duplexPair = r at pairing
  cases pairing with
  | none order' => exact order'
  | some order' aside =>
    refine storeTwo order' (by rw [aside.live]; exact live) ?_
    rw [aside.tables]
    exact freeFds_some free

theorem Order.askOutside : s.askOutside.2.Order known loose :=
  order.of_keeps order.toLedger.askOutside .askOutside

theorem Order.filePtyPair (live : s.live p = true) : (s.filePtyPair p h).2.Order known loose := by
  unfold System.filePtyPair
  split
  · exact order
  rename_i master slave free
  have asked := order.askOutside
  have tables : s.askOutside.2.tables = s.tables := rfl
  have living : s.askOutside.2.live = s.live := rfl
  generalize s.askOutside = r at asked tables living
  obtain ⟨ok, made⟩ := r
  cases ok with
  | false => exact asked
  | true =>
    have inHand := asked
    refine storeTwo inHand (by rw [living]; exact live) ?_
    rw [tables]
    exact freeFds_some free

theorem Order.handleAlloc (live : s.live p = true) : (s.handleAlloc p h).2.Order known loose := by
  unfold System.handleAlloc
  split
  · exact order
  next fd free =>
    have inHand := order
    exact store inHand (freeFd_some free) live

end

end System

namespace OpenFiles

variable {files : OpenFiles} {data : List UInt8}

theorem fileAlloc_room {node : Node}
    (made : (files.fileAlloc node data room).1 = .ok h) : room = true := by
  cases room with
  | true => rfl
  | false => simp [fileAlloc] at made

variable {flags : OpenFlags} {busy : Bool} {node : Option Node}

theorem openWriteRaw_room
    (made : (files.openWriteRaw path flags busy node room).1 = .ok h) : room = true := by
  cases room with
  | true => rfl
  | false =>
    unfold openWriteRaw at made
    repeat' split at made
    all_goals simp_all

theorem openFlags_room
    (made : (files.openFlags path flags busy node room).1 = .ok h) : room = true := by
  unfold openFlags at made
  split at made
  · simp at made
  split at made
  · simp at made
  split at made
  · exact openWriteRaw_room made
  split at made
  · simp at made
  split at made
  · simp at made
  split at made
  · exact fileAlloc_room made
  split at made
  · simp at made
  split at made
  · simp at made
  next hit => exact fileAlloc_room (congrArg Prod.fst hit)

end OpenFiles

namespace System

variable {known : Context} {s new last : System} {loose : List Target}

theorem targets_entryOf : (entryOf h).targets = [.file h] := by
  cases h <;> rfl

section

variable {p : ProcId} (order : s.Order known loose) (live : s.live p = true)
  {path : Path}

include order live

theorem Order.installOpen {fd : Option Fd}
    {emptied : Bool} {opened : Except Errno Handle × OpenFiles}
    (empty : ∀ free, fd = some free → s.tables p free = none)
    (room : ∀ h, opened.1 = .ok h → fd.isSome = true)
    (opening : s.files.Opening path data emptied opened) :
    (s.installOpen p fd cloexec opened).2.Order known loose := by
  have sound := (Turn.opening order.catalog Texts.agree_self opening).sound
  obtain ⟨answer, files⟩ := opened
  cases answer with
  | error errno =>
    cases opening with
    | failed silent =>
      exact order.setFiles sound (by rw [silent.catalog_eq])
  | ok h =>
    cases fd with
    | none => simpa using room h rfl
    | some fd =>
      have inHand : { s with files := files }.Order known
          ((entryOf h).targets ++ loose) := by
        rw [targets_entryOf]
        exact order.opened sound opening
      exact store inHand (empty fd rfl) live

theorem Order.fileOpenFlags : (s.fileOpenFlags p path flags busy node).2.Order known loose :=
  order.installOpen live (fun _ => freeFd_some) (fun _ => openFlags_room)
    s.files.openFlags_spec

theorem Order.fileOpenWrite : (s.fileOpenWrite p path flags busy node).2.Order known loose :=
  order.installOpen live (fun _ => freeFd_some) (fun _ => openWriteRaw_room)
    (s.files.openWriteRaw_spec path flags busy)

theorem Order.fileAlloc {node : Node} : (s.fileAlloc p node data).2.Order known loose :=
  order.installOpen live (fun _ => freeFd_some) (fun _ => fileAlloc_room)
    (s.files.fileAlloc_spec node data _)

end

/-! ## Local sockets -/

end System

theorem Listener.targets_count (l : Listener) (t : Target) :
    l.targets.count t = Table.total (fun pending : Option Pending =>
      (pending.elim [] fun pending => pending.entry.targets).count t) l.queue := by
  have places (places : List PendingId) :
      ((places.filterMap l.queue).flatMap fun pending => pending.entry.targets).count t =
        (places.map fun i =>
          ((l.queue i).elim [] fun pending => pending.entry.targets).count t).sum := by
    induction places with
    | nil => rfl
    | cons i rest ih =>
      rw [map_cons, sum_cons, ← ih]
      cases hit : l.queue i <;> simp [hit]
  rw [Listener.targets, Listener.pending, places, Table.total, Fin.sum_univ_def]

theorem Listener.targets_update (l : Listener) (i : PendingId)
    (pending : Option Pending) (t : Target) :
    { l with queue := update l.queue i pending }.targets.count t +
        ((l.queue i).elim [] fun pending => pending.entry.targets).count t =
      l.targets.count t +
        (pending.elim [] fun pending => pending.entry.targets).count t := by
  rw [Listener.targets_count, Listener.targets_count]
  exact Table.total_update _ _ _ _

namespace System

variable {known : Context} {s new last : System} {loose : List Target}

section

variable (order : s.Order known loose) {l : Listener} {path : List UInt8}
  {id : ListenerId}

include order

theorem Order.relist (refs : l.refs = (s.listeners id).refs) (used : l.used = (s.listeners id).used)
    (q : l.queue = (s.listeners id).queue) :
    (s.setListener id l).Order known loose := by
  have pending : l.pending = (s.listeners id).pending := by
    rw [Listener.pending, Listener.pending, q]
  refine order.setListener (order.toLedger.setListener ?_ ?_ fun t => ?_)
  · rw [used, refs]
    exact order.listenerFree id
  · rw [used, pending]
    exact order.listenerEmpty id
  · simp [Listener.credit, Listener.targets, refs, pending]

theorem Order.freshListener (unused : (s.listeners id).used = false)
    (used : l.used = decide (l.refs = 1)) (few : l.refs ≤ 1) (q : l.queue = fun _ => none) :
    (s.setListener id l).Order known
      (replicate l.refs (.listener id) ++ loose) := by
  have noRefs := (order.listenerFree id).mp unused
  have before := order.listenerEmpty id unused
  have now : l.pending = [] := by simp [Listener.pending, q]
  refine order.setListener (order.toLedger.setListener ?_ (fun _ => now) fun t => ?_)
  · rw [used]
    simp only [decide_eq_false_iff_not]
    omega
  simp only [Listener.credit, Listener.targets, noRefs, before, now, count_append, count_replicate]
  by_cases here : t = .listener id
  · subst here
    simp
  · simp [here, Ne.symm here]

theorem Order.unixBind (live : s.live p = true) : (s.unixBind p path).2.Order known loose := by
  unfold System.unixBind
  split
  · exact order
  split
  · exact order
  rename_i id hit
  have unused : (s.listeners id).used = false := by simpa using Fin.eq_true_of_find?_eq_some hit
  split
  · exact order
  rename_i fd free
  have i := freeFd_some free
  split
  · exact order.freshListener unused rfl (Nat.zero_le _) rfl
  · exact store (order.freshListener unused rfl le_rfl rfl) i live

theorem Order.unixListen {backlog : Nat} : (s.unixListen p fd backlog).2.Order known loose := by
  unfold System.unixListen
  split
  · dsimp only
    split
    · exact order
    · exact order.relist rfl rfl rfl
  · exact order

theorem Order.unixUnlink : (s.unixUnlink path).2.Order known loose := by
  unfold System.unixUnlink
  split
  · exact order
  · exact order.relist rfl rfl rfl

end

theorem Order.requeue {id : ListenerId} {i : PendingId} {pending : Option Pending}
    (order : s.Order known ((pending.elim [] fun pending => pending.entry.targets) ++ loose))
    (used : (s.listeners id).used = true) :
    (s.setListener id { s.listeners id with
      queue := update (s.listeners id).queue i pending }).Order known
        ((((s.listeners id).queue i).elim [] fun pending => pending.entry.targets) ++
          loose) := by
  refine order.setListener (order.toLedger.setListener ?_ ?_ fun t => ?_)
  · exact order.listenerFree id
  · simp [used]
  have moved := (s.listeners id).targets_update i pending t
  simp only [Listener.credit, count_append]
  omega

section

variable (order : s.Order known loose) (live : s.live p = true)
include order live

theorem Order.unixConnect {path : List UInt8} : (s.unixConnect p path).2.Order known loose := by
  unfold System.unixConnect
  split
  · exact order
  split
  · exact order
  rename_i id hit
  have used : (s.listeners id).used = true := by
    have holds := Fin.eq_true_of_find?_eq_some hit
    simp only [Bool.and_eq_true, decide_eq_true_eq] at holds
    exact holds.1.1
  dsimp only
  split
  · exact order
  split
  · exact order
  split
  · exact order
  rename_i i empty
  have empty : (s.listeners id).queue i = none := by
    simpa using Fin.eq_true_of_find?_eq_some empty
  split
  · exact order
  rename_i fd free
  have pairing := order.duplexPair
  generalize s.duplexPair = r at pairing
  cases pairing with
  | none order' => exact order'
  | @some near far new order' aside =>
    have stored : (new.setFile p fd (some ⟨near, false⟩)).Order known
        (far.entry.targets ++ loose) := by
      refine store order' ?_ (by rw [aside.live]; exact live)
      rw [aside.tables]
      exact freeFd_some free
    have listeners : (new.setFile p fd (some ⟨near, false⟩)).listeners =
        s.listeners := aside.listeners
    have queued := @Order.requeue known _ loose id i (some far) stored (by
      rw [listeners]
      exact used)
    rw [listeners, empty] at queued
    exact queued

theorem Order.unixAccept {cur : Option Bool} {exiting nonblocking signalled : Bool} :
    (s.unixAccept p fd cur exiting nonblocking signalled).2.Order known loose := by
  unfold System.unixAccept
  split
  next id e =>
    dsimp only
    split
    · exact order
    rename_i usable
    simp only [Bool.or_eq_true, Bool.not_eq_true', Bool.not_eq_false, not_or] at usable
    split
    · exact order
    split
    · exact order
    split
    · exact order
    rename_i i _
    split
    next pending t waits free =>
      have holds := Fin.eq_true_of_find?_eq_some free
      simp only [Bool.and_eq_true, Bool.not_eq_true', isNone_iff_eq_none] at holds
      have taken := @Order.requeue known _ loose id i none order usable.1
      rw [waits] at taken
      have inHand : (s.setListener id { s.listeners id with
          queue := update (s.listeners id).queue i none }).Order known
            ((File.mk pending.entry false).entry.targets ++ loose) := taken
      exact store inHand holds.1 live
    · exact order
  · exact order

end

end System

/-! ## Messages -/

namespace Pipe

variable {ρ : Type} {pipe : Pipe ρ}

/-- Operations on the stream leave the references alone. -/
structure SameRefs (pipe pipe' : Pipe ρ) : Prop where
  used : pipe'.used = pipe.used
  refs : pipe'.refs = pipe.refs
  readRefs : pipe'.readRefs = pipe.readRefs
  writeRefs : pipe'.writeRefs = pipe.writeRefs

variable {b : List UInt8} {copied : Bool} {done : Nat}

variable (pipe)

theorem writePass_sameRefs : pipe.SameRefs (pipe.writePass b done copied).2 := by
  simp only [writePass]
  repeat' split
  all_goals exact ⟨rfl, rfl, rfl, rfl⟩

variable {len : Nat}

theorem readPass_sameRefs : pipe.SameRefs (pipe.readPass len copied).2 := by
  simp only [readPass]
  split <;> exact ⟨rfl, rfl, rfl, rfl⟩

variable {files : List ρ} {peek installed copied cloned : Bool}

theorem sendRights_sameRefs : pipe.SameRefs (pipe.sendRights files cloned).2 := by
  simp only [sendRights]
  repeat' split
  all_goals exact ⟨rfl, rfl, rfl, rfl⟩

theorem recvRights_sameRefs {installed : Bool} : pipe.SameRefs (pipe.recvRights installed).2 := by
  simp only [recvRights]
  repeat' split
  all_goals exact ⟨rfl, rfl, rfl, rfl⟩

theorem sendMessage_sameRefs : pipe.SameRefs (pipe.sendMessage b files cloned).2 := by
  simp only [sendMessage]
  repeat' split
  all_goals exact ⟨rfl, rfl, rfl, rfl⟩

theorem recvMessage_sameRefs : pipe.SameRefs (pipe.recvMessage len peek installed copied).2 := by
  simp only [recvMessage]
  repeat' split
  all_goals exact ⟨rfl, rfl, rfl, rfl⟩

variable {pipe}

theorem sendMessage_removed (b : List UInt8) (files : List ρ)
    (cloned : Bool) : (pipe.sendMessage b files cloned).1.removed = [] := by
  simp only [sendMessage]
  repeat' split
  all_goals rfl

theorem recvMessage_sent : (pipe.recvMessage len peek installed copied).1.sent = [] := by
  simp only [recvMessage]
  repeat' split
  all_goals rfl

theorem readPass_sent : (pipe.readPass len copied).1.sent = [] := by
  simp only [readPass]
  split <;> rfl

theorem writePass_bytes (pipe : Pipe ρ) :
    (pipe.writePass b done copied).1.sent = [] ∧
      (pipe.writePass b done copied).1.removed = [] := by
  simp only [writePass]
  repeat' split
  all_goals exact ⟨rfl, rfl⟩

variable {pipe' : Pipe ρ}

section

variable (eq : pipe'.stream = pipe.stream)

include eq

theorem rights_stream : pipe'.rights = pipe.rights := by
  change pipe'.stream.rights = pipe.stream.rights
  rw [eq]

theorem freeRights_stream : pipe'.freeRights = pipe.freeRights := by
  rw [freeRights, freeRights, rights_stream eq]

theorem size_stream : pipe'.size = pipe.size := by
  change pipe'.stream.size = pipe.stream.size
  rw [eq]

end

theorem sendRights_sent (some_ : files ≠ []) (few : files.length ≤ rightsMax)
    (readers : pipe.readRefs ≠ 0) (room : pipe.freeRights.isSome = true) :
    (pipe.sendRights files true).1.sent = [files] := by
  obtain ⟨slot, hit⟩ := isSome_iff_exists.mp room
  have pass : ¬(files = [] ∨ rightsMax < files.length ∨ pipe.readRefs = 0) := by
    simp only [some_, false_or]
    omega
  simp [sendRights, if_neg pass, hit]

theorem sendMessage_sent (short : b.length ≤ pipeMessageMax) (some_ : b ≠ [])
    (few : files.length ≤ rightsMax) (readers : pipe.readRefs ≠ 0) (space : pipe.space ≠ 0)
    (room : files ≠ [] → (pipe.rights (pipeRightsQueue - 1)).isSome = false) :
    (pipe.sendMessage b files true).1.sent = if files = [] then [] else [files] := by
  have pass : ¬(pipeMessageMax < b.length ∨ rightsMax < files.length ∨ b = [] ∨
      pipe.readRefs = 0 ∨ pipe.space = 0) := by
    simp only [some_, readers, space, or_false]
    omega
  simp only [sendMessage, if_neg pass]
  split
  · rfl
  rename_i full
  have last := room full
  have free : pipe.freeRights.isSome = true := by
    rw [freeRights, find?_isSome]
    exact ⟨pipeRightsQueue - 1, by decide, by simpa using last⟩
  obtain ⟨slot, hit⟩ := isSome_iff_exists.mp free
  simp [last, hit]

end Pipe

namespace System

variable {known : Context} {s new : System} {loose : List Target}
  {r : Outcome File × Pipe File} {q : List (Rights File)} {fds : List (Option Fd)}
  {f : File}

theorem writePipe_target (names : e.writePipe = some id) : writer id ∈ e.targets := by
  cases e <;> simp_all [Entry.writePipe, Entry.targets]

theorem readPipe_target (names : e.readPipe = some id) : reader id ∈ e.targets := by
  cases e <;> simp_all [Entry.readPipe, Entry.targets]

theorem duplex_targets {h aux : PipeId} (names : e.duplex = some (h, aux)) :
    reader h ∈ e.targets ∧ writer aux ∈ e.targets := by
  cases e <;> simp_all [Entry.duplex, Entry.targets]

theorem Ledger.pipe_table (ledger : s.Ledger loose) (hit : s.tables p fd = some f)
    (names : reader id ∈ f.entry.targets ∨ writer id ∈ f.entry.targets) :
    (s.pipes id).refs ≠ 0 := by
  have sum := ledger.sum id
  rcases names with names | names
  · have pos : (s.pipes id).readRefs ≠ 0 := ledger.refs_table hit names
    omega
  · have pos : (s.pipes id).writeRefs ≠ 0 := ledger.refs_table hit names
    omega

/-- Files that are sent go from the hands of the call into the pipe, and files that are received
the other way. -/
theorem Order.effect (order : s.Order known (r.1.sent.flatMap filesTargets ++ loose))
    (pos : (s.pipes id).refs ≠ 0) (effect : (s.pipes id).Effect (s.pipes id).queued r.1 r.2 q)
    (eq : (s.pipes id).SameRefs r.2) (flagged : r.1.sent ≠ [] → s.present = true) :
    (s.setPipe id r.2).Order known
      (filesTargets (r.1.removed.flatMap Rights.files) ++ loose) := by
  obtain ⟨out, pipe⟩ := r
  have used := order.toLedger.pipe_used pos
  have before : (s.pipes id).targets = filesTargets (out.removed.flatMap Rights.files) ++
      ((s.pipes id).queued.drop out.removed.length).flatMap
        fun record => filesTargets record.files := by
    rw [filesTargets, flatMap_assoc, targets]
    conv_lhs => rw [← take_append_drop out.removed.length (s.pipes id).queued,
      ← effect.removed, flatMap_append]
    rfl
  have now : pipe.targets = ((s.pipes id).queued.drop out.removed.length).flatMap
      (fun record => filesTargets record.files) ++ out.sent.flatMap filesTargets := by
    rw [targets, effect.sound.queued_eq, effect.queue, flatMap_append, flatMap_map, flatMap_map]
  refine order.setPipe (order.toLedger.setPipe effect.sound.packed ?_ ?_ fun t => ?_)
    effect.sound fun some_ => ?_
  · rw [eq.refs, eq.readRefs, eq.writeRefs]
    exact order.sum id
  · rw [eq.used, eq.refs, used]
    simp [pos]
  · rw [credit, credit, eq.readRefs, eq.writeRefs, before, now]
    simp only [count_append]
    omega
  · by_cases silent : out.sent = []
    · refine order.flagged id fun none_ => some_ ?_
      simp [effect.queue, silent, none_]
    · exact flagged silent

/-! ### Sending -/

theorem cloneEntry_readRefs (s : System) (e : Entry) (id : PipeId) :
    (s.pipes id).readRefs ≤ ((s.cloneEntry e).2.pipes id).readRefs := by
  have pipeRef (s : System) (other : PipeId) (writeEnd : Bool) :
      (s.pipes id).readRefs ≤ ((s.pipeRef other writeEnd).pipes id).readRefs := by
    by_cases here : id = other
    · subst here
      simp only [System.pipeRef, System.setPipe, ref]
      repeat' split
      all_goals simp
    · simp [System.pipeRef, System.setPipe, here]
  cases e with
  | stdio | pty | net => exact le_rfl
  | unixListener | vfs | vfsWrite =>
    simp only [System.cloneEntry]
    split <;> exact le_rfl
  | pipeRead | pipeWrite =>
    simp only [System.cloneEntry]
    split
    · exact le_rfl
    · exact pipeRef _ _ _
  | pipeDuplex =>
    simp only [System.cloneEntry]
    split
    · exact le_rfl
    · exact (pipeRef _ _ _).trans (pipeRef _ _ _)

/-- The clones are all in hand, or none of them is. -/
inductive Cloning (known : Context) (system : System) (loose : List Target) (length : Nat) :
    Option (List File) × System → Prop
  | none {after : System} (order : after.Order known loose) :
      Cloning known system loose length (none, after)
  | some {files : List File} {after : System}
      (order : after.Order known (filesTargets files ++ loose))
      (keeps : system.Keeps after)
      (readers : ∀ id, (system.pipes id).readRefs ≤ (after.pipes id).readRefs)
      (all : files.length = length) : Cloning known system loose length (some files, after)

theorem Order.cloneFiles (fds : List (Option Fd)) (done : List File)
    (order : s.Order known (filesTargets done ++ loose)) :
    s.Cloning known loose (done.length + fds.length) (s.cloneFiles p fds done) := by
  induction fds generalizing s done with
  | nil => exact .some order .refl (fun _ => le_rfl) rfl
  | cons fd rest ih =>
    simp only [System.cloneFiles]
    split
    · exact .none order.releaseFiles
    rename_i f _
    have cloned := order.cloneEntry f.entry
    have keeps := s.cloneEntry_keeps f.entry
    have readers := s.cloneEntry_readRefs f.entry
    generalize s.cloneEntry f.entry = r at cloned keeps readers
    obtain ⟨ok, copied⟩ := r
    cases ok with
    | false => exact .none (releaseFiles cloned)
    | true =>
      have longer : copied.Order known (filesTargets (done ++ [f]) ++ loose) := by
        refine cloned.swap fun t => ?_
        simp only [filesTargets, flatMap_append, flatMap_singleton, count_append, if_true]
        omega
      have cloning := ih (done ++ [f]) longer
      dsimp only
      generalize copied.cloneFiles p rest (done ++ [f]) = r at cloning
      cases cloning with
      | none order' => exact .none order'
      | some order' keeps' readers' all =>
        refine .some order' (keeps.trans keeps') (fun id => (readers id).trans (readers' id)) ?_
        rw [all]
        simp only [length_append, length_cons, length_nil]
        omega

theorem Order.fileSendRights (order : s.Order known loose) :
    (s.fileSendRights p fd fds).2.Order known loose := by
  unfold System.fileSendRights
  split
  · exact order
  rename_i count
  simp only [not_or] at count
  split
  · exact order
  rename_i id hit
  obtain ⟨f, e, names⟩ := bind_eq_some_iff.mp hit
  dsimp only
  split
  · exact order
  rename_i ends
  simp only [Bool.or_eq_true, Bool.not_eq_true', Bool.not_eq_false, beq_iff_eq, not_or] at ends
  split
  · exact order
  rename_i room
  have cloning := @Order.cloneFiles known s loose p fds [] order
  generalize s.cloneFiles p fds [] = r at cloning
  cases cloning with
  | none order' => exact order'
  | @some files new order' keeps readers all =>
    have sent : ((new.pipes id).sendRights files true).1.sent = [files] := by
      refine sendRights_sent ?_ ?_ ?_ ?_
      · rintro rfl
        simp only [length_nil, zero_add] at all
        exact count.1 (length_eq_zero_iff.mp all.symm)
      · simp only [length_nil] at all
        omega
      · have more := readers id
        omega
      · rw [freeRights_stream (keeps.streams id)]
        simpa [isSome_iff_ne_none] using room
    have inHand : { new with present := true }.Order known
        ((((new.pipes id).sendRights files true).1.sent.flatMap filesTargets) ++ loose) := by
      rw [sent]
      simpa using { order' with flagged := fun _ _ => rfl }
    have e' : new.tables p fd = some f := by rw [keeps.tables]; exact e
    obtain ⟨q, effect⟩ := sendRights_effect (order'.sound id)
    have placed := inHand.effect
      (inHand.toLedger.pipe_table e' (.inr (writePipe_target names))) effect
      ((new.pipes id).sendRights_sameRefs) fun _ => rfl
    have none_ : ((new.pipes id).sendRights files true).1.removed = [] := by
      rcases effect.apart with none_ | none_
      · simp [sent] at none_
      · exact none_.2
    rw [none_] at placed
    exact placed

theorem Order.fileSendMessage (order : s.Order known loose) {b : List UInt8} {cur : Bool} :
    (s.fileSendMessage p fd b fds cur).2.Order known loose := by
  unfold System.fileSendMessage
  split
  · exact order
  rename_i shape
  simp only [not_or, not_lt] at shape
  split
  · exact order
  rename_i f e
  split
  · exact order
  rename_i id names
  dsimp only
  split
  · exact order
  rename_i bytes_
  split
  · exact order
  split
  · exact order
  split
  · exact order
  split
  · exact order
  rename_i room
  simp only [not_or, not_and] at room
  have cloning := @Order.cloneFiles known s loose p fds [] order
  generalize s.cloneFiles p fds [] = r at cloning
  cases cloning with
  | none order' => exact order'
  | @some files new order' keeps readers' all =>
    simp only [length_nil] at all
    have stream := keeps.streams id
    have sent : ((new.pipes id).sendMessage b files true).1.sent =
        if files = [] then [] else [files] := by
      refine sendMessage_sent shape.1 bytes_ (by omega) ?_ ?_ fun full => ?_
      · have more := readers' id
        omega
      · rw [space, size_stream stream]
        exact room.1
      rw [rights_stream stream]
      refine Bool.eq_false_iff.mpr (room.2 fun none_ => full ?_)
      simpa [none_] using all
    have raised : { new with present := new.present || !files.isEmpty }.Order known
        (filesTargets files ++ loose) :=
      { order' with flagged := fun id some_ => by simp [order'.flagged id some_] }
    have inHand : { new with present := new.present || !files.isEmpty }.Order known
        ((((new.pipes id).sendMessage b files true).1.sent.flatMap
          filesTargets) ++ loose) := by
      rw [sent]
      split
      next none_ => simpa [none_, filesTargets] using raised
      · simpa using raised
    have e' : new.tables p fd = some f := by
      rw [keeps.tables]
      exact e
    obtain ⟨q, effect⟩ := sendMessage_effect (order'.sound id)
    have placed := inHand.effect
      (inHand.toLedger.pipe_table e' (.inr (duplex_targets names).2)) effect
      ((new.pipes id).sendMessage_sameRefs) (by simp +contextual [sent])
    rw [sendMessage_removed] at placed
    exact placed

/-! ### Receiving -/

theorem Order.installFiles {cloexec : Option Bool} {files : List File}
    (done : List Fd) (order : s.Order known loose) (live : s.live p = true) :
    (s.installFiles p cloexec files done).2.2.Order known loose ∧
      s.Grows (s.installFiles p cloexec files done).2.2 := by
  induction files generalizing s done with
  | nil => exact ⟨order, .refl⟩
  | cons f rest ih =>
    unfold System.installFiles
    cases free : s.freeFd p with
    | none => exact ⟨order, .refl⟩
    | some fd =>
      obtain ⟨installed, grows, -⟩ :=
        order.dupInto (freeFd_some free) live f (cloexec.getD f.cloexec)
      dsimp only
      generalize s.dupInto p fd f (cloexec.getD f.cloexec) = r at installed grows
      obtain ⟨ok, copied⟩ := r
      cases ok with
      | false => exact ⟨installed, grows⟩
      | true =>
        obtain ⟨order', grows'⟩ := ih (done ++ [fd]) installed (by rw [grows.live]; exact live)
        exact ⟨order', grows.trans grows'⟩

theorem Order.receive (order : s.Order known loose) (hit : s.tables p fd = some f)
    (names : reader id ∈ f.entry.targets) (silent : r.1.sent = [])
    (effect : (s.pipes id).Effect (s.pipes id).queued r.1 r.2 q) (eq : (s.pipes id).SameRefs r.2) :
    ((s.setPipe id r.2).releaseFiles
      (r.1.removed.flatMap Rights.files)).Order known loose := by
  have inHand : s.Order known (r.1.sent.flatMap filesTargets ++ loose) := by
    rw [silent]
    exact order
  exact (inHand.effect (order.toLedger.pipe_table hit (.inl names)) effect eq
    fun some_ => absurd silent some_).releaseFiles

theorem Order.fileRecvRights (order : s.Order known loose)
    (live : s.live p = true) {cap : Nat} {cur memory copied : Bool} :
    (s.fileRecvRights p fd cap cur memory copied).2.Order known loose := by
  unfold System.fileRecvRights
  split
  · exact order
  split
  · exact order
  rename_i id hit
  obtain ⟨f, e, names⟩ := bind_eq_some_iff.mp hit
  split
  · exact order
  split
  · exact order
  rename_i record first
  split
  · exact order
  rename_i front
  split
  · exact order
  obtain ⟨installed, grows⟩ := order.installFiles [] live
  generalize s.installFiles p none (record.files.take cap) [] = r
    at installed grows
  obtain ⟨ok, delivered, s'⟩ := r
  cases ok with
  | false => exact installed.rollback
  | true =>
    dsimp only
    split
    · exact installed.rollback
    have first' : (s'.pipes id).rights 0 = some record := by
      rw [rights_stream (grows.streams id)]
      exact first
    have received : ((s'.pipes id).recvRights true).1 =
        ({ removed := [record] } : Outcome File) := by
      simp [recvRights, first', front]
    obtain ⟨q, effect⟩ := recvRights_effect (installed.sound id)
    have released := installed.receive (grows.tables p fd f e)
      (readPipe_target names) (by rw [received]) effect
      ((s'.pipes id).recvRights_sameRefs)
    rw [received] at released
    simp only [flatMap_cons, flatMap_nil, append_nil] at released
    exact released.collect.1

theorem Order.settleReceipt {removed : List (Rights File)}
    (order : (s.releaseFiles (removed.flatMap Rights.files)).Order known loose) :
    (if removed = [] then s
      else (s.releaseFiles (removed.flatMap Rights.files)).collect).Order known loose := by
  split
  next none_ =>
    subst none_
    exact order
  · exact order.collect.1

section

variable (order : s.Order known loose)

include order

theorem Order.fileRecvMessage (live : s.live p = true) {len cap : Nat}
    {peek cloexec cur memory copied : Bool} :
    (s.fileRecvMessage p fd len cap peek cloexec cur memory copied).2.Order known
      loose := by
  unfold System.fileRecvMessage
  split
  · exact order
  split
  · exact order
  rename_i f e
  split
  · exact order
  rename_i id aux names
  dsimp only
  split
  · exact order
  split
  · exact order
  split
  · exact order
  obtain ⟨installed, grows⟩ := order.installFiles [] live
  generalize s.installFiles p (some cloexec)
    ((((s.pipes id).firstRights ((s.pipes id).messageExtent len).2).flatMap
      Rights.files).take cap) [] = r at installed grows
  obtain ⟨ok, delivered, s'⟩ := r
  cases ok with
  | false => exact installed.rollback
  | true =>
    dsimp only
    split
    · exact installed.rollback
    obtain ⟨q, effect⟩ := recvMessage_effect (installed.sound id)
    exact settleReceipt (installed.receive (grows.tables p fd f e)
      (duplex_targets names).1 recvMessage_sent effect
      ((s'.pipes id).recvMessage_sameRefs))

theorem Order.filePipeRead {len : Nat} {cur memory copied : Bool} :
    (s.filePipeRead p fd len cur memory copied).2.Order known loose := by
  unfold System.filePipeRead
  split
  · exact order
  rename_i id hit
  obtain ⟨f, e, names⟩ := bind_eq_some_iff.mp hit
  dsimp only
  split
  · exact order
  split
  · exact order
  split
  · exact order
  split
  · exact order
  split
  · exact order
  split
  · exact order
  obtain ⟨q, effect⟩ := readPass_effect (order.sound id)
  exact settleReceipt (order.receive e (readPipe_target names)
    readPass_sent effect ((s.pipes id).readPass_sameRefs))

theorem Order.filePipeWrite {b : List UInt8} {cur copied : Bool} :
    (s.filePipeWrite p fd b done cur copied).2.Order known loose := by
  unfold System.filePipeWrite
  split
  · exact order
  rename_i id hit
  obtain ⟨f, e, names⟩ := bind_eq_some_iff.mp hit
  split
  · exact order
  obtain ⟨q, effect⟩ := writePass_effect (order.sound id)
  obtain ⟨silent, kept⟩ := (s.pipes id).writePass_bytes
  have inHand : s.Order known
      (((s.pipes id).writePass b done copied).1.sent.flatMap filesTargets ++ loose) := by
    rw [silent]
    exact order
  have written := inHand.effect
    (order.toLedger.pipe_table e (.inr (writePipe_target names))) effect
    ((s.pipes id).writePass_sameRefs) fun some_ => absurd silent some_
  rw [kept] at written
  exact written

end

end System

end SrvrOS.Files
