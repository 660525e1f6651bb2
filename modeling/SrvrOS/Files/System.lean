import SrvrOS.Files.Lock
import SrvrOS.Files.Pipe
import SrvrOS.Files.Share
import SrvrOS.Lib.Mark

/-!
# Descriptors

The descriptor tables of all processes and what their entries refer to: pipes, listeners of local
sockets, open files and, outside this model, terminals and network connections. An entry can also
be queued in a pipe or pending at a listener. Entries on their way can keep each other alive, so a
collector retires those that no table can reach.

Descriptor numbers that are out of range find nothing and are left out.
-/

namespace SrvrOS.Files

open Lib Function List

/-- `PROCESS_MAX_PROCESSES`. -/
abbrev ProcId := Fin 64

/-- `PROCESS_MAX_OPEN_FILES`. -/
abbrev Fd := Fin 67

instance neZero64 : NeZero 64 := ⟨by decide⟩

instance neZero67 : NeZero 67 := ⟨by decide⟩

/-- `PROCESS_MAX_PIPES`. -/
abbrev PipeId := Fin 64

/-- `PROCESS_MAX_UNIX_LISTENERS`. -/
abbrev ListenerId := Fin 16

/-- `PROCESS_UNIX_ACCEPT_QUEUE`. -/
abbrev PendingId := Fin 16

/-- `SRV_UNIX_PATH_MAX`. -/
def unixPathMax : Nat := 108

/-- A used `struct process_file` by its type, with its handles. -/
inductive Entry where
  | stdio (handle : Fin 3)
  | vfs (id : ReadId)
  | vfsWrite (id : WriteId)
  | pipeRead (id : PipeId)
  | pipeWrite (id : PipeId)
  /-- It reads from the pipe of its handle and writes to that of its second handle. -/
  | pipeDuplex (handle aux : PipeId)
  | unixListener (id : ListenerId)
  | pty (handle : Nat) (master : Bool)
  | net (handle : Nat)
deriving DecidableEq

def Entry.handle : Entry → Option Handle
  | .vfs id => some (.read id)
  | .vfsWrite id => some (.write id)
  | _ => none

/-- An entry with the flag `SRV_FD_CLOEXEC`. -/
structure File where
  entry : Entry
  cloexec : Bool := false
deriving DecidableEq

/-- A used `struct process_unix_pending`: the far end of a connection, always a duplex entry. -/
structure Pending where
  handle : PipeId
  aux : PipeId
deriving DecidableEq

def Pending.entry (pending : Pending) : Entry := .pipeDuplex pending.handle pending.aux

/-- `struct process_unix_listener`. -/
structure Listener where
  refs : Nat := 0
  used : Bool := false
  bound : Bool := false
  listening : Bool := false
  backlog : Nat := 0
  path : List UInt8 := []
  queue : PendingId → Option Pending := fun _ => none

/-- The connections that wait, in the order of the queue. -/
def Listener.pending (listener : Listener) : List Pending :=
  (finRange 16).filterMap listener.queue

/-- `struct process_file_lock_wait`. -/
structure LockWait where
  proc : ProcId
  fd : Fd
  generation : Nat
  start : Nat
  stop : Nat
  content : ContentId
  type : LockType

/-- The tables of `process.c` that descriptors touch. -/
structure System where
  live : ProcId → Bool := fun _ => false
  pids : ProcId → Nat := fun _ => 0
  tables : ProcId → Fd → Option File := fun _ _ => none
  generations : ProcId → Fd → Nat := fun _ _ => 0
  pipes : PipeId → Pipe File := fun _ => {}
  listeners : ListenerId → Listener := fun _ => {}
  files : OpenFiles
  locks : LockTable ContentId := fun _ => none
  /-- The calls of `process_file_set_lock` that are under way. -/
  lockWaits : Nat → Option LockWait := fun _ => none
  /-- `pipe_rights_present`. -/
  present : Bool := false
  /-- `pipe_rights_collecting`. -/
  collecting : Bool := false
  /-- `pipe_rights_gc_defer`. -/
  gcDefer : Nat := 0

/-! ## Pipes and listeners -/

/-- `pipe_ref`. -/
def Pipe.ref {ρ : Type} (pipe : Pipe ρ) (writeEnd : Bool) : Pipe ρ :=
  if !pipe.used then pipe
  else if writeEnd then { pipe with refs := pipe.refs + 1, writeRefs := pipe.writeRefs + 1 }
  else { pipe with refs := pipe.refs + 1, readRefs := pipe.readRefs + 1 }

/-- A pipe without references and records is free. -/
def Pipe.settle {ρ : Type} (pipe : Pipe ρ) : Pipe ρ :=
  if pipe.refs = 0 ∧ (pipe.rights 0).isNone then { pipe with used := false } else pipe

/-- `pipe_close`. -/
def Pipe.close {ρ : Type} (pipe : Pipe ρ) (writeEnd : Bool) : Pipe ρ :=
  if !pipe.used then pipe
  else if writeEnd then
    { pipe with refs := pipe.refs - 1, writeRefs := pipe.writeRefs - 1 }.settle
  else { pipe with refs := pipe.refs - 1, readRefs := pipe.readRefs - 1 }.settle

def Pipe.queued {ρ : Type} (pipe : Pipe ρ) : List (Rights ρ) :=
  pipe.firstRights (pipe.countRights fun _ => true)

variable (system : System) (proc : ProcId) (fd : Fd)

namespace System

def setFile (file : Option File) : System :=
  { system with
    tables := update system.tables proc (update (system.tables proc) fd file) }

def setPipe (id : PipeId) (pipe : Pipe File) : System :=
  { system with pipes := update system.pipes id pipe }

def setListener (id : ListenerId) (listener : Listener) : System :=
  { system with listeners := update system.listeners id listener }

/-- `file_generation_invalidate`. -/
def invalidate : System :=
  if system.generations proc fd = 2 ^ 64 - 1 then system
  else
    { system with
      generations := update system.generations proc
        (update (system.generations proc) fd (system.generations proc fd + 1)) }

/-- A descriptor whose generation can no longer tell it from a later one. -/
def worn : Bool :=
  system.generations proc fd == 2 ^ 64 - 1

@[irreducible] def freeFd : Option Fd :=
  Fin.find? fun fd => (system.tables proc fd).isNone

def freeFds : Option (Fd × Fd) :=
  match system.freeFd proc with
  | none => none
  | some first =>
    (Fin.find? fun fd => decide (first < fd) && (system.tables proc fd).isNone).map
      fun second => (first, second)

def pipeAlloc : Option (PipeId × System) :=
  (Fin.find? fun id => !(system.pipes id).used).map fun id => (id, system.setPipe id .alloc)

/-- `pipe_close` on the table. -/
def pipeClose (id : PipeId) (writeEnd : Bool) : System :=
  system.setPipe id ((system.pipes id).close writeEnd)

/-- `pipe_ref` on the table. -/
def pipeRef (id : PipeId) (writeEnd : Bool) : System :=
  system.setPipe id ((system.pipes id).ref writeEnd)

/-- `unix_fill_duplex_pair` and the same steps of `process_file_pipe_pair`: the entries of the
two ends. -/
def duplexPair : Option (Entry × Pending) × System :=
  match system.pipeAlloc with
  | none => (none, system)
  | some (ab, system) =>
    match system.pipeAlloc with
    | none => (none, (system.pipeClose ab false).pipeClose ab true)
    | some (ba, system) => (some (.pipeDuplex ba ab, ⟨ab, ba⟩), system)

/-! ## Entries -/

/-- An answer of the terminals or the network, which are outside this model. -/
def askOutside : Bool × System :=
  (system.files.answer.ok, { system with files := system.files.ask })

/-- `process_file_clone_entry`: whether there is another reference now. -/
def cloneEntry : Entry → Bool × System
  | .stdio _ => (true, system)
  | .unixListener id =>
    let listener := system.listeners id
    if !listener.used || listener.refs == 2 ^ 64 - 1 then (false, system)
    else (true, system.setListener id { listener with refs := listener.refs + 1 })
  | .pty _ _ => system.askOutside
  | .pipeDuplex handle aux =>
    if !(system.pipes handle).used || !(system.pipes aux).used then (false, system)
    else (true, (system.pipeRef handle false).pipeRef aux true)
  | .pipeRead id =>
    if !(system.pipes id).used then (false, system) else (true, system.pipeRef id false)
  | .pipeWrite id =>
    if !(system.pipes id).used then (false, system) else (true, system.pipeRef id true)
  | .vfsWrite id =>
    if !(system.files.writeFiles id).used then (false, system)
    else (true, { system with files := system.files.fileRef (.write id) })
  | .net _ => system.askOutside
  | .vfs id =>
    if !(system.files.readFiles id).used then (false, system)
    else (true, { system with files := system.files.fileRef (.read id) })

def closeDuplex (handle aux : PipeId) : System :=
  (system.pipeClose handle false).pipeClose aux true

/-- `unix_listener_release`: the last reference releases the connections that wait. -/
def unixListenerRelease (id : ListenerId) : System :=
  let listener := system.listeners id
  if !listener.used then system
  else if listener.refs - 1 ≠ 0 then
    system.setListener id { listener with refs := listener.refs - 1 }
  else
    (listener.pending.foldl (fun system pending => system.closeDuplex pending.handle pending.aux)
      system).setListener id {}

/-- `process_file_release_entry`, and `process_file_close_entry` without the locks: whether the
release succeeds. -/
def releaseEntry : Entry → Bool × System
  | .stdio _ => (true, system)
  | .net _ => system.askOutside
  | .vfs id =>
    let closed := system.files.fileClose (.read id)
    (closed.1, { system with files := closed.2 })
  | .pipeRead id => (true, system.pipeClose id false)
  | .pipeWrite id => (true, system.pipeClose id true)
  | .pty _ _ => (true, system)
  | .pipeDuplex handle aux => (true, system.closeDuplex handle aux)
  | .unixListener id => (true, system.unixListenerRelease id)
  | .vfsWrite id =>
    let closed := system.files.fileClose (.write id)
    (closed.1, { system with files := closed.2 })

/-- `pipe_rights_release`. -/
def releaseFiles (files : List File) : System :=
  files.foldl (fun system file => (system.releaseEntry file.entry).2) system

/-- `file_content_for_fd`. -/
def contentOf (system : System) (entry : Entry) : Option ContentId :=
  entry.handle.bind system.files.contentOf

/-- The locks of a process on the file of an entry go. -/
def dropLocks (entry : Entry) : System :=
  match system.contentOf entry with
  | none => system
  | some content =>
    { system with locks := fileLockReleasePath system.locks (system.pids proc) content }

/-- `process_file_close_entry`. -/
def closeEntry (entry : Entry) : Bool × System :=
  (system.dropLocks proc entry).releaseEntry entry

end System

/-! ## The collector -/

/-- What can hold entries that are on their way. -/
inductive Holder where
  | pipe (id : PipeId)
  | listener (id : ListenerId)
deriving DecidableEq

/-- All of them, in the order of the collector's loops. -/
def Holder.all : List Holder :=
  (finRange 64).map Holder.pipe ++ (finRange 16).map Holder.listener

/-- The holder that an entry lets a process read from: `pipe_rights_count_file`. -/
def Entry.holder : Entry → Option Holder
  | .pipeRead id => some (.pipe id)
  | .pipeDuplex handle _ => some (.pipe handle)
  | .unixListener id => some (.listener id)
  | _ => none

namespace System

def held : Holder → List Entry
  | .pipe id => (system.pipes id).queued.flatMap fun record => record.files.map File.entry
  | .listener id => (system.listeners id).pending.map Pending.entry

def alive : Holder → Bool
  | .pipe id => (system.pipes id).used
  | .listener id => (system.listeners id).used

/-- The references that the collector compares with those on their way. -/
def holderRefs : Holder → Nat
  | .pipe id => (system.pipes id).readRefs
  | .listener id => (system.listeners id).refs

/-- The graph in which the collector marks. -/
def graph : Graph Holder where
  order := Holder.all
  edges := fun holder => (system.held holder).filterMap Entry.holder
  alive := system.alive

/-- `reader_inflight` and `listener_inflight`. -/
def inflight (holder : Holder) : Nat :=
  ((Holder.all.filter system.alive).flatMap system.graph.edges).count holder

/-- The holders with references outside. -/
def roots (holder : Holder) : Bool :=
  system.alive holder && decide (system.inflight holder < system.holderRefs holder)

/-- The loop that marks what the roots lead to; 81 rounds are enough. -/
@[irreducible] def mark : Option (Holder → Bool) :=
  system.graph.spread 81 system.roots

def anyRights : Bool :=
  (finRange 64).any fun id => (system.pipes id).used && !(system.pipes id).queued.isEmpty

/-- The first pipe with records that no mark reaches. -/
@[irreducible] def unreachable (marks : Holder → Bool) : Option PipeId :=
  Fin.find? fun id =>
    (system.pipes id).used && !marks (.pipe id) && ((system.pipes id).rights 0).isSome

/-- One record of a pipe is retired and its files are released. -/
def retire (id : PipeId) : System :=
  let retired := (system.pipes id).retireRights
  (system.setPipe id retired.2.settle).releaseFiles (retired.1.removed.flatMap Rights.files)

/-- The loop of `pipe_rights_collect`; nothing if it does not come to an end in time. -/
def collectLoop : Nat → System → Option System
  | 0, _ => none
  | fuel + 1, system =>
    if !system.anyRights then some { system with present := false }
    else
      match system.mark with
      | none => none
      | some marks =>
        match system.unreachable marks with
        | none => some system
        | some id => collectLoop fuel (system.retire id)

/-- `pipe_rights_collect`. -/
def collect : System :=
  if !system.present || system.collecting || system.gcDefer != 0 then system
  else
    match collectLoop 513 { system with collecting := true } with
    | none => system
    | some collected => { collected with collecting := false }

/-! ## Closing and duplicating -/

/-- Whether `process_file_close` runs the collector afterwards. -/
def collects : Entry → Bool
  | .pipeRead _ | .pipeWrite _ | .pipeDuplex _ _ | .unixListener _ => true
  | _ => false

/-- `process_file_close`. -/
def fileClose : Except Errno Unit × System :=
  match system.tables proc fd with
  | none => (.error .badf, system)
  | some file =>
    let closed :=
      ((system.setFile proc fd none).invalidate proc fd).closeEntry proc file.entry
    (if closed.1 then .ok () else .error .io,
      if collects file.entry then closed.2.collect else closed.2)

/-- `process_file_try_close_pipe`. -/
def fileTryClosePipe : Bool × System :=
  let detached := (system.setFile proc fd none).invalidate proc fd
  match (system.tables proc fd).map File.entry with
  | some (.pipeRead id) =>
    let pipe := system.pipes id
    if !pipe.used || pipe.refs == 0 || pipe.readRefs == 0 ||
        (range pipeRightsQueue).any (fun slot => (pipe.rights slot).isSome) then
      (false, system)
    else (true, detached.pipeClose id false)
  | some (.pipeWrite id) =>
    let pipe := system.pipes id
    if !pipe.used || pipe.refs == 0 || pipe.writeRefs == 0 ||
        (range pipeRightsQueue).any (fun slot => (pipe.rights slot).isSome) then
      (false, system)
    else (true, detached.pipeClose id true)
  | _ => (false, system)

/-- `process_file_dup_into` on an unused entry, with the flag of the new entry. -/
def dupInto (source : File) (cloexec : Bool) :
    Bool × System :=
  match system.cloneEntry source.entry with
  | (false, system) => (false, system)
  | (true, system) => (true, system.setFile proc fd (some ⟨source.entry, cloexec⟩))

/-- `process_file_dup_min`. -/
def fileDupMin (minimum : Nat) (cloexec : Bool) :
    Except Errno Fd × System :=
  if 67 ≤ minimum then (.error .inval, system)
  else
    match system.tables proc fd with
    | none => (.error .badf, system)
    | some source =>
      match Fin.find? fun fd : Fd =>
          decide (minimum ≤ fd.val) && (system.tables proc fd).isNone with
      | none => (.error .mfile, system)
      | some target =>
        match system.dupInto proc target source cloexec with
        | (false, system) => (.error .nomem, system)
        | (true, system) => (.ok target, system)

/-- `process_file_dup_replace`. -/
def fileDupReplace (old new : Fd) (cloexec : Bool) :
    Except Errno Fd × System :=
  match system.tables proc old with
  | none => (.error .badf, system)
  | some source =>
    if old = new then (.ok new, system)
    else
      match system.cloneEntry source.entry with
      | (false, system) => (.error .nomem, system)
      | (true, system) =>
        let replaced :=
          (system.setFile proc new (some ⟨source.entry, cloexec⟩)).invalidate proc new
        match system.tables proc new with
        | none => (.ok new, replaced)
        | some retired => (.ok new, (replaced.closeEntry proc retired.entry).2.collect)

/-! ## Creating entries -/

/-- `process_file_pipe`. -/
def filePipe : Except Errno (Fd × Fd) × System :=
  match system.freeFds proc with
  | none => (.error .mfile, system)
  | some (read, write) =>
    match system.pipeAlloc with
    | none => (.error .nfile, system)
    | some (id, system) =>
      (.ok (read, write), (system.setFile proc read (some ⟨.pipeRead id, false⟩)).setFile proc
        write (some ⟨.pipeWrite id, false⟩))

/-- `process_file_pipe_pair`. -/
def filePipePair : Except Errno (Fd × Fd) × System :=
  match system.freeFds proc with
  | none => (.error .mfile, system)
  | some (first, second) =>
    match system.duplexPair with
    | (none, system) => (.error .nfile, system)
    | (some (near, far), system) =>
      (.ok (first, second), (system.setFile proc first (some ⟨near, false⟩)).setFile proc
        second (some ⟨far.entry, false⟩))

/-- `process_file_pty_pair`. -/
def filePtyPair (handle : Nat) :
    Except Errno (Fd × Fd) × System :=
  match system.freeFds proc with
  | none => (.error .fail, system)
  | some (master, slave) =>
    match system.askOutside with
    | (false, system) => (.error .fail, system)
    | (true, system) =>
      (.ok (master, slave),
        (system.setFile proc master (some ⟨.pty handle true, false⟩)).setFile proc slave
          (some ⟨.pty handle false, false⟩))

/-- `process_handle_alloc`. -/
def handleAlloc (handle : Nat) : Except Errno Fd × System :=
  match system.freeFd proc with
  | none => (.error .fail, system)
  | some fd => (.ok fd, system.setFile proc fd (some ⟨.net handle, false⟩))

def entryOf : Handle → Entry
  | .read id => .vfs id
  | .write id => .vfsWrite id

/-- The end of each open: a new description gets the descriptor that was found for it. -/
def installOpen (fd : Option Fd) (cloexec : Bool)
    (opened : Except Errno Handle × OpenFiles) : Except Errno Fd × System :=
  let system := { system with files := opened.2 }
  match opened.1, fd with
  | .error errno, _ => (.error errno, system)
  | .ok handle, some fd => (.ok fd, system.setFile proc fd (some ⟨entryOf handle, cloexec⟩))
  | .ok _, none => (.error .mfile, system)

/-- `process_file_open_flags`. -/
def fileOpenFlags (path : Path) (flags : OpenFlags) (busy : Bool)
    (node : Option Node) : Except Errno Fd × System :=
  let fd := system.freeFd proc
  system.installOpen proc fd flags.cloexec
    (system.files.openFlags path flags busy node fd.isSome)

/-- `process_file_open_write`. -/
def fileOpenWrite (path : Path) (flags : OpenFlags) (busy : Bool)
    (node : Option Node) : Except Errno Fd × System :=
  let fd := system.freeFd proc
  system.installOpen proc fd flags.cloexec
    (system.files.openWriteRaw path flags busy node fd.isSome)

/-- The plain open system call from `process_file_alloc` on. -/
def fileAlloc (system : System) (proc : ProcId) (node : Node) (data : List UInt8) :
    Except Errno Fd × System :=
  let fd := system.freeFd proc
  system.installOpen proc fd false (system.files.fileAlloc node data fd.isSome)

/-! ## Local sockets -/

def unixListenerForPath (path : List UInt8) : Option ListenerId :=
  Fin.find? fun id =>
    (system.listeners id).used && (system.listeners id).bound &&
      decide ((system.listeners id).path = path)

/-- `process_unix_bind`. -/
def unixBind (path : List UInt8) : Except Errno Fd × System :=
  if path = [] ∨ (system.unixListenerForPath path).isSome then (.error .fail, system)
  else
    match Fin.find? fun id => !(system.listeners id).used with
    | none => (.error .fail, system)
    | some id =>
      match system.freeFd proc with
      | none => (.error .fail, system)
      | some fd =>
        if unixPathMax ≤ path.length then (.error .fail, system.setListener id {})
        else
          (.ok fd, (system.setListener id
            { used := true, refs := 1, bound := true, backlog := 1, path := path }).setFile
              proc fd (some ⟨.unixListener id, false⟩))

/-- `process_unix_listen`. -/
def unixListen (backlog : Nat) :
    Except Errno Unit × System :=
  match (system.tables proc fd).map File.entry with
  | some (.unixListener id) =>
    let listener := system.listeners id
    if !listener.used || !listener.bound then (.error .fail, system)
    else
      (.ok (), system.setListener id
        { listener with backlog := min 16 (max 1 backlog), listening := true })
  | _ => (.error .fail, system)

/-- `process_unix_connect`. -/
def unixConnect (path : List UInt8) :
    Except Errno Fd × System :=
  if path = [] then (.error .fail, system)
  else
    match system.unixListenerForPath path with
    | none => (.error .fail, system)
    | some id =>
      let listener := system.listeners id
      if !listener.listening then (.error .fail, system)
      else if listener.backlog ≤ listener.pending.length then (.error .again, system)
      else
        match Fin.find? fun place => (listener.queue place).isNone with
        | none => (.error .again, system)
        | some place =>
          match system.freeFd proc with
          | none => (.error .fail, system)
          | some fd =>
            match system.duplexPair with
            | (none, system) => (.error .fail, system)
            | (some (near, far), system) =>
              (.ok fd, (system.setFile proc fd (some ⟨near, false⟩)).setListener id
                { listener with
                  queue := update listener.queue place (some far) })

/-- A turn of `process_unix_accept`. In the first one `current` is `none`; later it says whether the
descriptor is still the one of the call. A turn that ends in the wait answers `again`. -/
def unixAccept (current : Option Bool) (exiting nonblocking signalled : Bool) :
    Except Errno Fd × System :=
  match (system.tables proc fd).map File.entry with
  | some (.unixListener id) =>
    let listener := system.listeners id
    if !listener.used || !listener.listening then
      (.error (if current.isNone then .inval else .badf), system)
    else if current = some false then (.error .badf, system)
    else if exiting then (.error .intr, system)
    else
      match Fin.find? fun place => (listener.queue place).isSome with
      | none => (.error (if signalled && !nonblocking then .intr else .again), system)
      | some place =>
        match listener.queue place, Fin.find? fun fd =>
            (system.tables proc fd).isNone && !system.worn proc fd with
        | some pending, some target =>
          (.ok target, (system.setFile proc target (some ⟨pending.entry, false⟩)).setListener
            id { listener with queue := update listener.queue place none })
        | _, _ => (.error .mfile, system)
  | _ => (.error .badf, system)

/-- `process_unix_unlink`. -/
def unixUnlink (path : List UInt8) : Except Errno Unit × System :=
  match system.unixListenerForPath path with
  | none => (.error .fail, system)
  | some id =>
    (.ok (), system.setListener id { system.listeners id with bound := false, path := [] })

/-! ## Messages -/

end System

def Entry.writePipe : Entry → Option PipeId
  | .pipeWrite id => some id
  | .pipeDuplex _ aux => some aux
  | _ => none

def Entry.readPipe : Entry → Option PipeId
  | .pipeRead id => some id
  | .pipeDuplex handle _ => some handle
  | _ => none

/-- The two pipes of a duplex entry, to read and to write. -/
def Entry.duplex : Entry → Option (PipeId × PipeId)
  | .pipeDuplex handle aux => some (handle, aux)
  | _ => none

namespace System

/-- The loop that clones the files of a message; a number that is not, or no longer, the descriptor
of the call is absent. -/
def cloneFiles (system : System) (proc : ProcId) :
    List (Option Fd) → List File → Option (List File) × System
  | [], done => (some done, system)
  | fd :: rest, done =>
    match fd.bind (system.tables proc) with
    | none => (none, system.releaseFiles done)
    | some file =>
      match system.cloneEntry file.entry with
      | (false, system) => (none, system.releaseFiles done)
      | (true, system) => cloneFiles system proc rest (done ++ [file])

/-- `process_file_send_rights`. -/
def fileSendRights (fds : List (Option Fd)) :
    Except Errno Unit × System :=
  if fds = [] ∨ rightsMax < fds.length then (.error .fail, system)
  else
    match (system.tables proc fd).bind fun file => file.entry.writePipe with
    | none => (.error .fail, system)
    | some id =>
      let pipe := system.pipes id
      if !pipe.used || pipe.readRefs == 0 then (.error .fail, system)
      else if pipe.freeRights.isNone then (.error .again, system)
      else
        match system.cloneFiles proc fds [] with
        | (none, system) => (.error .fail, system)
        | (some files, system) =>
          (.ok (), { system.setPipe id ((system.pipes id).sendRights files true).2 with
            present := true })

/-- `process_file_send_message` when it does not wait. -/
def fileSendMessage (bytes : List UInt8)
    (fds : List (Option Fd)) (current : Bool) : Except Errno Nat × System :=
  if pipeMessageMax < bytes.length ∨ rightsMax < fds.length ∨ fds ≠ [] ∧ bytes = [] then
    (.error .inval, system)
  else
    match system.tables proc fd with
    | none => (.error .badf, system)
    | some file =>
      match file.entry.duplex with
      | none => (.error .notsup, system)
      | some (_, id) =>
        let pipe := system.pipes id
        if bytes = [] then (.ok 0, system)
        else if fds.any (fun fd => !fd.any fun fd =>
            (system.tables proc fd).isSome && !system.worn proc fd) || system.worn proc fd then
          (.error .badf, system)
        else if !current || !pipe.used then (.error .badf, system)
        else if pipe.readRefs = 0 then (.error .pipe, system)
        else if pipe.space = 0 ∨
            fds ≠ [] ∧ (pipe.rights (pipeRightsQueue - 1)).isSome then (.error .again, system)
        else
          match system.cloneFiles proc fds [] with
          | (none, system) => (.error .badf, system)
          | (some files, system) =>
            let sent := (system.pipes id).sendMessage bytes files true
            (.ok sent.1.accepted.length, { system.setPipe id sent.2 with
              present := system.present || !files.isEmpty })

/-- `pipe_rights_install` for each file; without a flag the entry keeps its own. -/
def installFiles (system : System) (proc : ProcId) (cloexec : Option Bool) :
    List File → List Fd → Bool × List Fd × System
  | [], done => (true, done, system)
  | file :: rest, done =>
    match system.freeFd proc with
    | none => (false, done, system)
    | some fd =>
      match system.dupInto proc fd file (cloexec.getD file.cloexec) with
      | (false, system) => (false, done, system)
      | (true, system) => installFiles system proc cloexec rest (done ++ [fd])

/-- `pipe_rights_rollback`. -/
def rollback (fds : List Fd) : System :=
  let closed := fds.foldl (fun system fd => (system.fileClose proc fd).2)
    { system with gcDefer := system.gcDefer + 1 }
  { closed with gcDefer := closed.gcDefer - 1 }

/-- `process_file_recv_rights_checked` from its last look at the queue on. -/
def fileRecvRights (capacity : Nat)
    (current memory copied : Bool) : Except Errno Nat × System :=
  if rightsMax < capacity then (.error .inval, system)
  else
    match (system.tables proc fd).bind fun file => file.entry.readPipe with
    | none => (.error .badf, system)
    | some id =>
      if system.worn proc fd || !current || !(system.pipes id).used then (.error .badf, system)
      else
        match (system.pipes id).rights 0 with
        | none => (if copied then .ok 0 else .error .fault, system)
        | some record =>
          if record.offset ≠ 0 then (if copied then .ok 0 else .error .fault, system)
          else if !memory then (.error .nomem, system)
          else
            match system.installFiles proc none (record.files.take capacity) [] with
            | (false, delivered, system) => (.error .mfile, system.rollback proc delivered)
            | (true, delivered, system) =>
              if !copied then (.error .fault, system.rollback proc delivered)
              else
                (.ok delivered.length, ((system.setPipe id
                  ((system.pipes id).recvRights true).2).releaseFiles record.files).collect)

/-- `process_file_recv_message_checked` when it does not wait. -/
def fileRecvMessage (length capacity : Nat)
    (peek cloexec current memory copied : Bool) : Except Errno Nat × System :=
  if pipeMessageMax < length ∨ rightsMax < capacity then (.error .inval, system)
  else
    match system.tables proc fd with
    | none => (.error .badf, system)
    | some file =>
      match file.entry.duplex with
      | none => (.error .notsup, system)
      | some (id, _) =>
        let pipe := system.pipes id
        let extent := pipe.messageExtent length
        let records := pipe.firstRights extent.2
        if system.worn proc fd || !current || !pipe.used then (.error .badf, system)
        else if length ≠ 0 ∧ pipe.size = 0 ∧ pipe.writeRefs ≠ 0 then (.error .again, system)
        else if extent.2 ≠ 0 ∧ !peek ∧ !memory then (.error .nomem, system)
        else
          match system.installFiles proc (some cloexec)
              ((records.flatMap Rights.files).take capacity) [] with
          | (false, delivered, system) => (.error .mfile, system.rollback proc delivered)
          | (true, delivered, system) =>
            if !copied then (.error .fault, system.rollback proc delivered)
            else
              let received := (system.pipes id).recvMessage length peek true true
              let system := system.setPipe id received.2
              (.ok extent.1,
                if received.1.removed = [] then system
                else (system.releaseFiles (received.1.removed.flatMap Rights.files)).collect)

/-- `pipe_read_common` when it does not wait. -/
def filePipeRead (length : Nat)
    (current memory copied : Bool) : Except Errno (List UInt8) × System :=
  match (system.tables proc fd).bind fun file => file.entry.readPipe with
  | none => (.error .fail, system)
  | some id =>
    let pipe := system.pipes id
    if length = 0 then (.ok [], system)
    else if !current || !pipe.used then (.error .badf, system)
    else if pipe.size = 0 ∧ pipe.writeRefs ≠ 0 then (.error .again, system)
    else
      let passed := pipe.readPass length true
      if passed.1.removed ≠ [] ∧ system.worn proc fd then (.error .badf, system)
      else if passed.1.removed ≠ [] ∧ !memory then (.error .nomem, system)
      else if min length pipe.size ≠ 0 ∧ !copied then (.error .fault, system)
      else
        let system := system.setPipe id passed.2
        (.ok passed.1.returned,
          if passed.1.removed = [] then system
          else (system.releaseFiles (passed.1.removed.flatMap Rights.files)).collect)

/-- One pass of `pipe_write_common`. -/
def filePipeWrite (bytes : List UInt8) (done : Nat)
    (current copied : Bool) : Except Errno Nat × System :=
  match (system.tables proc fd).bind fun file => file.entry.writePipe with
  | none => (.error .fail, system)
  | some id =>
    if !current || !(system.pipes id).used then (.error .badf, system)
    else
      let passed := (system.pipes id).writePass bytes done copied
      (.ok passed.1.accepted.length, system.setPipe id passed.2)

/-! ## Processes -/

/-- `clear_process` as far as descriptors go: the standard entries. -/
def clearTable : Fd → Option File := fun fd =>
  if small : fd.val < 3 then some ⟨.stdio ⟨fd.val, small⟩, false⟩ else none

/-- `alloc_process_lifetime` on a free slot. -/
def allocProcess (pid : Nat) : System :=
  if system.live proc then system
  else
    { system with
      live := update system.live proc true
      pids := update system.pids proc pid
      tables := update system.tables proc clearTable
      generations := update system.generations proc fun _ => 0 }

def cleanupProcessFiles : System :=
  (finRange 67).foldl (fun system fd => (system.fileClose proc fd).2) system

/-- The standard files are flushed before a process ends. -/
def flushStandard : System :=
  [(0 : Fd), 1, 2].foldl (fun system fd =>
    match (system.tables proc fd).map File.entry with
    | some (.vfsWrite id) => { system with files := (system.files.fileFlush (.write id)).2 }
    | _ => system) system

def finishProcessFiles : System :=
  (system.flushStandard proc).cleanupProcessFiles proc

/-- `process_exit`: the slot can be used again. -/
def processExit : System :=
  let finished := system.finishProcessFiles proc
  { finished with live := update finished.live proc false }

/-- A spawn that fails releases what its process has got. -/
def discardProcess : System :=
  let cleaned := system.cleanupProcessFiles proc
  { cleaned with live := update cleaned.live proc false }

def closeCloexecFiles : System :=
  (finRange 67).foldl (fun system fd =>
    if (system.tables proc fd).any File.cloexec then (system.fileClose proc fd).2 else system)
    system

/-- The loop of `process_inherit_files` and of `process_fork`. -/
def inheritLoop (system : System) (child parent : ProcId) : List Fd → Bool × System
  | [] => (true, system)
  | fd :: rest =>
    match system.tables parent fd with
    | none => inheritLoop system child parent rest
    | some file =>
      match system.dupInto child fd file file.cloexec with
      | (false, system) => (false, system)
      | (true, system) => inheritLoop system child parent rest

/-- `process_inherit_files`. -/
def inheritFiles (child parent : ProcId) : Bool × System :=
  (system.cleanupProcessFiles child).inheritLoop child parent (finRange 67)

/-- Entries that `process_fork` refuses to copy. -/
def unforkable : Entry → Bool
  | .net _ | .unixListener _ => true
  | _ => false

/-- `process_fork` as far as descriptors go. -/
def fork (child parent : ProcId) : Bool × System :=
  if (finRange 67).any fun fd => (system.tables parent fd).any (unforkable ·.entry) then
    (false, system)
  else system.inheritFiles child parent

/-- `process_spawn_dup2_action`. -/
def spawnDup2 (child parent : ProcId) (old new : Fd) : Bool × System :=
  if old = new ∧ (system.tables child new).isSome then (true, system)
  else
    match (system.tables child old).or (system.tables parent old) with
    | none => (false, system)
    | some source =>
      if (system.tables child new).isNone then system.dupInto child new source source.cloexec
      else
        let closed := system.fileClose child new
        match closed.1 with
        | .error _ => (false, closed.2)
        | .ok _ => closed.2.dupInto child new source source.cloexec

/-- `PROCESS_STDIO_CLOSED_FD`. -/
def stdioClosedFd : Int := -2

/-- The snapshots of `process_configure_stdio_fds`, absent where a descriptor stays. -/
def stdioSnapshots (system : System) (child parent : ProcId) (fds : Fin 3 → Int) :
    List (Fin 3) → List (Fin 3 × Option File) → Option (List (Fin 3 × Option File)) × System
  | [], done => (some done, system)
  | index :: rest, done =>
    let wanted := fds index
    if parent = child ∧ (wanted = -1 ∨ wanted = index.val) then
      stdioSnapshots system child parent fds rest done
    else if wanted = stdioClosedFd then
      stdioSnapshots system child parent fds rest (done ++ [(index, none)])
    else
      let source : Option File :=
        if wanted < 0 then system.tables parent (index.castLE (by decide))
        else if inside : wanted.toNat < 67 then system.tables parent ⟨wanted.toNat, inside⟩
        else none
      match source with
      | none =>
        if wanted < 0 then
          stdioSnapshots system child parent fds rest (done ++ [(index, none)])
        else (none, system.releaseFiles (done.filterMap Prod.snd))
      | some file =>
        match system.cloneEntry file.entry with
        | (false, system) => (none, system.releaseFiles (done.filterMap Prod.snd))
        | (true, system) =>
          stdioSnapshots system child parent fds rest
            (done ++ [(index, some ⟨file.entry, false⟩)])

/-- The loop that puts the snapshots into the table. -/
def applySnapshots (system : System) (child : ProcId) : List (Fin 3 × Option File) → System
  | [] => system
  | (index, snapshot) :: rest =>
    let closed := (system.fileClose child (index.castLE (by decide))).2
    applySnapshots (closed.setFile child (index.castLE (by decide)) snapshot) child rest

/-- `process_configure_stdio_fds`. -/
def configureStdioFds (child parent : ProcId) (fds : Fin 3 → Int) :
    Bool × System :=
  match system.stdioSnapshots child parent fds (finRange 3) [] with
  | (none, system) => (false, system.collect)
  | (some snapshots, system) => (true, system.applySnapshots child snapshots)

/-- `process_file_set_fd_flags`. -/
def fileSetFdFlags (cloexec : Bool) : System :=
  match system.tables proc fd with
  | none => system
  | some file => system.setFile proc fd (some { file with cloexec := cloexec })

/-! ## Locks -/

/-- The base of `file_lock_range_for_fd`, from the description of an entry. -/
def lockBase (used : Bool) (offset : Nat) (content : ContentId) (whence : Int) : Option Nat :=
  if whence = 0 then some 0
  else if !used then none
  else if whence = 1 then some offset
  else if whence = 2 then some (system.files.contents content).size
  else none

/-- `file_lock_range_for_fd` for an entry with a content. -/
def lockRange (entry : Entry) (request : LockRequest) : Option (Nat × Nat) :=
  match entry with
  | .vfs id =>
    let file := system.files.readFiles id
    if file.used && file.directory then none
    else (system.lockBase file.used file.offset file.content request.whence).bind
      (lockRangeFrom · request)
  | .vfsWrite id =>
    let file := system.files.writeFiles id
    (system.lockBase file.used file.offset file.content request.whence).bind
      (lockRangeFrom · request)
  | _ => none

/-- Whether `process_file_get_flags` grants a lock of the type. -/
def lockAccess (entry : Entry) (type : LockType) : Bool :=
  match entry, type with
  | _, .unlck => true
  | .vfs _, .rdlck => true
  | .vfs _, .wrlck => false
  | .vfsWrite id, .rdlck => (system.files.writeFiles id).readable
  | .vfsWrite id, .wrlck => (system.files.writeFiles id).writable
  | _, _ => false

/-- `process_file_set_lock` up to its loop: a call that goes on is remembered under a free
number. -/
def fileSetLock (call : Nat) (proc : ProcId) (fd : Fd) (request : LockRequest) :
    Option (Except Errno Unit) × System :=
  match system.tables proc fd with
  | none => (some (.error .badf), system)
  | some file =>
    match lockType request.type, system.contentOf file.entry,
        system.lockRange file.entry request with
    | some type, some content, some (start, stop) =>
      if !system.lockAccess file.entry type then (some (.error .badf), system)
      else
        (none, { system with
          lockWaits := update system.lockWaits call
            (some ⟨proc, fd, system.generations proc fd, start, stop, content, type⟩) })
    | _, _, _ => (some (.error .inval), system)

/-- `file_lock_wait_current`. -/
def lockCurrent (wait : LockWait) : Bool :=
  match system.tables wait.proc wait.fd with
  | none => false
  | some file =>
    system.generations wait.proc wait.fd == wait.generation &&
      decide (system.contentOf file.entry = some wait.content)

def endWait (call : Nat) : System :=
  { system with lockWaits := update system.lockWaits call none }

/-- One round of the loop of `process_file_set_lock`; without an answer the call waits. -/
def lockRound (call : Nat) (exiting wait interrupted : Bool) :
    Option (Except Errno Unit) × System :=
  match system.lockWaits call with
  | none => (none, system)
  | some request =>
    let pid := system.pids request.proc
    if !system.lockCurrent request then (some (.error .badf), system.endWait call)
    else if exiting then (some (.error .intr), system.endWait call)
    else if request.type = .unlck ∨ (fileLockConflict system.locks pid request.content
        request.start request.stop request.type).isNone then
      match fileLockUpdate system.locks pid request.content request.start request.stop
          request.type with
      | none => (some (.error .nolck), system.endWait call)
      | some locks => (some (.ok ()), { system.endWait call with locks := locks })
    else if !wait then (some (.error .again), system.endWait call)
    else if interrupted then (some (.error .intr), system.endWait call)
    else (none, system)

end System

/-! ## Runs -/

/-- The calls of a process; the inputs beyond the arguments are what they find outside this model.
-/
inductive Call where
  | close (fd : Fd)
  | tryClosePipe (fd : Fd)
  | dupMin (fd : Fd) (minimum : Nat) (cloexec : Bool)
  | dupReplace (old new : Fd) (cloexec : Bool)
  | pipe
  | pipePair
  | ptyPair (handle : Nat)
  | handleAlloc (handle : Nat)
  | openFlags (path : Path) (flags : OpenFlags) (busy : Bool) (node : Option Node)
  | openWrite (path : Path) (flags : OpenFlags) (busy : Bool) (node : Option Node)
  | openNode (node : Node) (data : List UInt8)
  | unixBind (path : List UInt8)
  | unixListen (fd : Fd) (backlog : Nat)
  | unixConnect (path : List UInt8)
  | unixAccept (fd : Fd) (current : Option Bool) (exiting nonblocking signalled : Bool)
  | sendRights (fd : Fd) (fds : List (Option Fd))
  | sendMessage (fd : Fd) (bytes : List UInt8) (fds : List (Option Fd)) (current : Bool)
  | recvRights (fd : Fd) (capacity : Nat) (current memory copied : Bool)
  | recvMessage (fd : Fd) (length capacity : Nat) (peek cloexec current memory copied : Bool)
  | pipeRead (fd : Fd) (length : Nat) (current memory copied : Bool)
  | pipeWrite (fd : Fd) (bytes : List UInt8) (done : Nat) (current copied : Bool)
  | setFdFlags (fd : Fd) (cloexec : Bool)
  | closeCloexec
  | configureStdio (fds : Fin 3 → Int)

/-- What happens to the tables. Spawning consists of several events on the new process. -/
inductive Event where
  | call (proc : ProcId) (call : Call)
  | alloc (proc : ProcId) (pid : Nat)
  | exit (proc : ProcId)
  | discard (proc : ProcId)
  | inheritFiles (child parent : ProcId)
  | fork (child parent : ProcId)
  | configureStdio (child parent : ProcId) (fds : Fin 3 → Int)
  | spawnDup2 (child parent : ProcId) (old new : Fd)
  | unixUnlink (path : List UInt8)
  | file (event : FileEvent)
  | setLock (call : Nat) (proc : ProcId) (fd : Fd) (request : LockRequest)
  | lockRound (call : Nat) (exiting wait interrupted : Bool)

/-- Calls that make or drop a reference to a description; descriptors make these. -/
def FileEvent.counts : FileEvent → Bool
  | .openFlags .. | .openWrite .. | .openNode .. | .reference _ | .close _ => true
  | _ => false

namespace System

def call : Call → System
  | .close fd => (system.fileClose proc fd).2
  | .tryClosePipe fd => (system.fileTryClosePipe proc fd).2
  | .dupMin fd minimum cloexec => (system.fileDupMin proc fd minimum cloexec).2
  | .dupReplace old new cloexec => (system.fileDupReplace proc old new cloexec).2
  | .pipe => (system.filePipe proc).2
  | .pipePair => (system.filePipePair proc).2
  | .ptyPair handle => (system.filePtyPair proc handle).2
  | .handleAlloc handle => (system.handleAlloc proc handle).2
  | .openFlags path flags busy node => (system.fileOpenFlags proc path flags busy node).2
  | .openWrite path flags busy node => (system.fileOpenWrite proc path flags busy node).2
  | .openNode node data => (system.fileAlloc proc node data).2
  | .unixBind path => (system.unixBind proc path).2
  | .unixListen fd backlog => (system.unixListen proc fd backlog).2
  | .unixConnect path => (system.unixConnect proc path).2
  | .unixAccept fd current exiting nonblocking signalled =>
    (system.unixAccept proc fd current exiting nonblocking signalled).2
  | .sendRights fd fds => (system.fileSendRights proc fd fds).2
  | .sendMessage fd bytes fds current => (system.fileSendMessage proc fd bytes fds current).2
  | .recvRights fd capacity current memory copied =>
    (system.fileRecvRights proc fd capacity current memory copied).2
  | .recvMessage fd length capacity peek cloexec current memory copied =>
    (system.fileRecvMessage proc fd length capacity peek cloexec current memory copied).2
  | .pipeRead fd length current memory copied =>
    (system.filePipeRead proc fd length current memory copied).2
  | .pipeWrite fd bytes done current copied =>
    (system.filePipeWrite proc fd bytes done current copied).2
  | .setFdFlags fd cloexec => system.fileSetFdFlags proc fd cloexec
  | .closeCloexec => system.closeCloexecFiles proc
  | .configureStdio fds => (system.configureStdioFds proc proc fds).2

def step (system : System) : Event → System
  | .call proc call => if system.live proc then system.call proc call else system
  | .alloc proc pid => system.allocProcess proc pid
  | .exit proc => if system.live proc then system.processExit proc else system
  | .discard proc => if system.live proc then system.discardProcess proc else system
  | .inheritFiles child parent =>
    if system.live child then (system.inheritFiles child parent).2 else system
  | .fork child parent => if system.live child then (system.fork child parent).2 else system
  | .configureStdio child parent fds =>
    if system.live child then (system.configureStdioFds child parent fds).2 else system
  | .spawnDup2 child parent old new =>
    if system.live child then (system.spawnDup2 child parent old new).2 else system
  | .unixUnlink path => (system.unixUnlink path).2
  | .file event =>
    if event.counts then system else { system with files := (system.files.step event).2 }
  | .setLock call proc fd request =>
    if (system.lockWaits call).isSome then system else (system.fileSetLock call proc fd request).2
  | .lockRound call exiting wait interrupted => (system.lockRound call exiting wait interrupted).2

def start (answers : Nat → Answer) : System := { files := { answers := answers } }

def after (answers : Nat → Answer) (events : List Event) : System :=
  (run (fun system event => ((), system.step event)) (start answers) events).2

end System

end SrvrOS.Files
