import SrvrOS.Lib.Cells
import SrvrOS.Files.System
import SrvrOS.Net.Table
import SrvrOS.Net.Upkeep

/-!
# Accept queues

A listener of `process.c` has a queue of its own, and the listeners of `net.c` share one. Both
fill the first free place and empty the first place that fits.
-/

namespace SrvrOS.Accept

open Lib Prog List Function Files Option System

/-! ## Local listeners -/

/-- The calls on local sockets that concern a queue. -/
inductive Call
  | connect (proc : ProcId) (path : List UInt8)
  | accept (proc : ProcId) (fd : Fd) (current : Option Bool) (exiting nonblocking signalled : Bool)

/-- The change that a call makes if it is about the queue at hand, from the entry it installs. -/
def told (here : Prop) [Decidable here] (entry : Option Entry)
    (change : PipeId → PipeId → Change Pending) : Change Pending :=
  match entry with
  | some (.pipeDuplex handle aux) => if here then change handle aux else .stays
  | _ => .stays

/-- A call, with the far end of the connection it made or the end that it accepted. -/
def callStep (i : ListenerId) (system : System) : Call → Change Pending × System
  | .connect proc path =>
    match system.unixConnect proc path with
    | (.ok fd, next) =>
      (told (system.unixListenerForPath path = some i) ((next.tables proc fd).map File.entry)
        fun handle aux => .joins ⟨aux, handle⟩, next)
    | (.error _, next) => (.stays, next)
  | .accept proc fd current exiting nonblocking signalled =>
    match system.unixAccept proc fd current exiting nonblocking signalled with
    | (.ok target, next) =>
      (told ((system.tables proc fd).map File.entry = some (.unixListener i))
        ((next.tables proc target).map File.entry) fun handle aux => .leaves ⟨handle, aux⟩, next)
    | (.error _, next) => (.stays, next)

/-- Nobody waits behind a free place of the queue. -/
abbrev compactAt (i : ListenerId) (system : System) : Prop :=
  Compact isNone id ((finRange 16).map (system.listeners i).queue)

theorem pending_eq {listener : Listener} :
    listener.pending = ((finRange 16).map listener.queue).filterMap id := by
  rfl

theorem duplexPair_cases {system next : System} {pair : Option (Entry × Pending)}
    (made : system.duplexPair = (pair, next)) :
    next.listeners = system.listeners ∧
      ∀ near far, pair = some (near, far) → near = .pipeDuplex far.aux far.handle := by
  unfold duplexPair pipeAlloc at made
  split at made
  · cases made
    exact ⟨rfl, by simp⟩
  next first =>
    obtain ⟨_, -, eq⟩ := map_eq_some_iff.mp first
    cases eq
    split at made
    · cases made
      exact ⟨rfl, by simp⟩
    next second =>
      obtain ⟨_, -, eq⟩ := map_eq_some_iff.mp second
      cases eq
      cases made
      exact ⟨rfl, by rintro _ _ ⟨⟩; rfl⟩

variable (system : System) (proc : ProcId)

theorem unixConnect_cases (path : List UInt8) :
    let r := system.unixConnect proc path
    (∃ e, r.1 = .error e ∧ r.2.listeners = system.listeners) ∨
    ∃ fd j place far, r.1 = .ok fd ∧ system.unixListenerForPath path = some j ∧
      Fin.find? (fun place => ((system.listeners j).queue place).isNone) = some place ∧
      (r.2.tables proc fd).map File.entry = some (.pipeDuplex far.aux far.handle) ∧
      r.2.listeners = update system.listeners j { system.listeners j with
        queue := update (system.listeners j).queue place (some far) } := by
  unfold unixConnect
  split
  · exact .inl ⟨_, rfl, rfl⟩
  split
  · exact .inl ⟨_, rfl, rfl⟩
  next j found =>
  dsimp only
  split
  · exact .inl ⟨_, rfl, rfl⟩
  split
  · exact .inl ⟨_, rfl, rfl⟩
  split
  · exact .inl ⟨_, rfl, rfl⟩
  next place empty =>
  split
  · exact .inl ⟨_, rfl, rfl⟩
  next fd _ =>
  split
  next made => exact .inl ⟨_, rfl, (duplexPair_cases made).1⟩
  next near far new made =>
  obtain ⟨listeners, ends⟩ := duplexPair_cases made
  refine .inr ⟨fd, j, place, far, rfl, found, empty, ?_, ?_⟩
  · simp [setListener, setFile, ends _ _ rfl]
  · simp [setListener, setFile, listeners]

theorem unixAccept_cases (fd : Fd) (current : Option Bool) (exiting nonblocking signalled : Bool) :
    let r := system.unixAccept proc fd current exiting nonblocking signalled
    (∃ e, r.1 = .error e ∧ r.2.listeners = system.listeners) ∨
    ∃ target j place pending, r.1 = .ok target ∧
      (system.tables proc fd).map File.entry = some (.unixListener j) ∧
      Fin.find? (fun place => ((system.listeners j).queue place).isSome) = some place ∧
      (system.listeners j).queue place = some pending ∧
      (r.2.tables proc target).map File.entry = some pending.entry ∧
      r.2.listeners = update system.listeners j { system.listeners j with
        queue := update (system.listeners j).queue place none } := by
  unfold unixAccept
  split
  next j entry =>
    dsimp only
    split
    · exact .inl ⟨_, rfl, rfl⟩
    split
    · exact .inl ⟨_, rfl, rfl⟩
    split
    · exact .inl ⟨_, rfl, rfl⟩
    split
    · exact .inl ⟨_, rfl, rfl⟩
    next place first =>
    split
    next pending target waits free =>
      exact .inr ⟨target, j, place, pending, rfl, entry, first, waits,
        by simp [setListener, setFile], rfl⟩
    · exact .inl ⟨_, rfl, rfl⟩
  · exact .inl ⟨_, rfl, rfl⟩

theorem callStep_fits (i : ListenerId) (system : System) (call : Call) :
    (callStep i system call).1.Fits (compactAt i system) (system.listeners i).pending
      ((callStep i system call).2.listeners i).pending := by
  cases call with
  | connect proc path =>
    have cases := unixConnect_cases system proc path
    simp only [callStep]
    generalize system.unixConnect proc path = r at *
    obtain ⟨_ | fd, next⟩ := r <;> dsimp only at cases ⊢
    · simp_all [Change.Fits]
    obtain ⟨_, ⟨⟩, -⟩ | ⟨_, j, place, far, ⟨⟩, found, empty, entry, listeners⟩ := cases
    rw [entry, found, listeners, told]
    by_cases here : j = i
    · obtain ⟨first, set⟩ := findIdx_finRange empty
      subst here
      simp only [pending_eq, update_self, set, if_true]
      exact joined first (fun _ => isNone_iff_eq_none.mp) rfl
    · simp [here, Ne.symm here, Change.Fits]
  | accept proc fd current exiting nonblocking signalled =>
    have cases := unixAccept_cases system proc fd current exiting nonblocking signalled
    simp only [callStep]
    generalize system.unixAccept proc fd current exiting nonblocking signalled = r at *
    obtain ⟨_ | fd, next⟩ := r <;> dsimp only at cases ⊢
    · simp_all [Change.Fits]
    obtain ⟨_, ⟨⟩, -⟩ | ⟨_, j, place, pending, ⟨⟩, found, first, waits, entry, listeners⟩ := cases
    rw [entry, found, listeners, Pending.entry, told]
    by_cases here : j = i
    · obtain ⟨first, set⟩ := findIdx_finRange first
      subst here
      simp only [pending_eq, update_self, set, if_true]
      exact served first (by simp) waits rfl
    · simp [here, Ne.symm here, Change.Fits]

/-! ## Listeners of the network -/

/-- What happens to the shared queue: a handshake is completed, or a listener accepts. -/
inductive Event
  | handshake (index : Nat) (port : BitVec 16)
  | accept (value capacity : Nat) (copied : Bool)

/-- The handle that an accept will return for a request, if the request is for the port. -/
def waitsFor (port : BitVec 16) (request : Net.PendingRequest) : Option Nat :=
  (Option.guard (fun request => request.used && decide (request.port = port)) request).map
    fun request => Net.handleValue request.connectionId

def waiting (port : BitVec 16) (net : Net.Sockets) : List Nat :=
  net.host.pendingRequests.filterMap (waitsFor port)

abbrev compactFor (port : BitVec 16) (net : Net.Sockets) : Prop :=
  Compact (!·.used) (waitsFor port) net.host.pendingRequests

/-- An event, with what it does to the requests for a port, told by handles. -/
def eventStep (port : BitVec 16) (net : Net.Sockets) : Event → Change Nat × Net.Sockets
  | .handshake index target =>
    let c := net.connections.getD index {}
    let r := net.onSlot index (Net.ensurePendingConnection index target)
    (if r.1 ∧ ¬(c.accepted ∨ c.pending) ∧ target = port then .joins (Net.handleValue c.id)
      else .stays, r.2)
  | .accept value capacity copied =>
    match net.netAccept (.listener value) capacity copied with
    | (.ok (.connection handle, _), next) =>
      (if (net.findListener value).any fun i => (net.listeners.getD i {}).port = port then
        .leaves handle else .stays, next)
    | (_, next) => (.stays, next)

theorem netAccept_pending {capacity : Nat} {s : Net.Link} :
    (Net.netAccept capacity s).2.host.pendingRequests = s.host.pendingRequests := by
  simp only [Net.netAccept, Net.update, exec]
  split
  · simp only [Net.sendAck, Net.connection, exec]
    obtain ⟨device, refused⟩ | ⟨-, -, device, taken⟩ := Net.sendTcpSegment_cases
      ((s.connection.handOut (min capacity s.connection.unread.length)).accept).localPort
      { ack := true } []
      ((s.connection.handOut (min capacity s.connection.unread.length)).accept) s.host
    · rw [refused]
    · rw [taken]
  · rfl

theorem eventStep_fits (port : BitVec 16) (net : Net.Sockets) (event : Event) :
    (eventStep port net event).1.Fits (compactFor port net) (waiting port net)
      (waiting port (eventStep port net event).2) := by
  cases event with
  | handshake index target =>
    simp only [eventStep, Net.Sockets.onSlot, Net.ensurePendingConnection, exec, Net.connection]
    generalize net.connections.getD index {} = c
    by_cases known : c.accepted ∨ c.pending
    · simp [known, Change.Fits, waiting]
    simp only [known, not_false_eq_true, if_false, true_and, Net.enqueuePending]
    split
    · simp [Change.Fits, waiting]
    next free found =>
    obtain ⟨-, x, -, -, isFree, -, here, -⟩ := findIdx_splits found
    by_cases same : target = port
    · subst same
      simp only [if_true, and_self, waiting]
      exact joined found (fun request idle => by simp_all [waitsFor]) (by simp [waitsFor])
    · simp only [same, and_false, if_false]
      exact unmoved here (by simp_all [waitsFor]) (by simp [waitsFor, same])
  | accept value capacity copied =>
    simp only [eventStep, Net.Sockets.netAccept, exec, Prog.get]
    cases listens : net.findListener value with
    | none => exact rfl
    | some index =>
      dsimp only
      generalize first : findIdx? _ net.host.pendingRequests = found
      cases found with
      | none => exact rfl
      | some place =>
        cases copied with
        | false => exact rfl
        | true =>
        simp only [exec, Bool.true_eq_false, if_false]
        obtain ⟨-, request, -, -, meets, -, here, -⟩ := findIdx_splits first
        have same : net.host.pendingRequests.getD place {} = request := by
          rw [getD_eq_getElem?_getD, here]
          rfl
        simp only [Net.Sockets.onSlot, waiting, netAccept_pending, same, any_some]
        by_cases ours : (net.listeners.getD index {}).port = port
        · subst ours
          simp only [decide_true, if_true]
          refine served ?_ here ?_ ?_
          · simpa [waitsFor] using first
          · simp_all [waitsFor]
          · simp [waitsFor]
        · simp only [ours, decide_false, Bool.false_eq_true, if_false]
          refine unmoved here ?_ ?_
          · simp_all [waitsFor]
          · simp [waitsFor]

/-! ## The order of service -/

/-- Connections are accepted in the order of the connects exactly if every connect finds nobody
behind a free place of the queue; likewise for a port. -/
theorem acceptQueues_order (i : ListenerId) (system : System) (calls : List Call)
    (port : BitVec 16) (net : Net.Sockets) (events : List Event) :
    let served := serviceOrder (callStep i) (fun s => (s.listeners i).pending) system calls
    let queued := arrivalOrder (callStep i) (fun s => (s.listeners i).pending) system calls
    let accepted := serviceOrder (eventStep port) (waiting port) net events
    let completed := arrivalOrder (eventStep port) (waiting port) net events
    (Orderly (callStep i) (compactAt i) system calls → served = queued) ∧
    (queued.Nodup → served = queued → Orderly (callStep i) (compactAt i) system calls) ∧
    (Orderly (eventStep port) (compactFor port) net events → accepted = completed) ∧
    (completed.Nodup → accepted = completed →
      Orderly (eventStep port) (compactFor port) net events) := by
  obtain ⟨orderly, exact_⟩ := run_in_order (callStep_fits i) system calls
  exact ⟨orderly, exact_, run_in_order (eventStep_fits port) net events⟩

/-- A system with a listener for two connections. -/
def listening : System :=
  after (fun _ => ⟨true, false⟩)
    [.alloc 0 1, .call 0 (.unixBind [47]), .call 0 (.unixListen 3 2)]

def connect : Call := .connect 0 [47]

def accept : Call := .accept 0 3 none false false false

theorem acceptQueues_order_two :
    serviceOrder (callStep 0) (fun s => (s.listeners 0).pending) listening
      [connect, connect, accept, accept] = [⟨0, 1⟩, ⟨2, 3⟩] :=
  ((acceptQueues_order 0 listening [connect, connect, accept, accept] 0 {} []).1
    (by decide +kernel)).trans (by decide +kernel)

/-- The third connection takes the place of the first and is accepted before the second. -/
theorem third_overtakes_second :
    let r := run (callStep 0) listening [connect, connect, accept, connect, accept, accept]
    r.1.filterMap Change.newcomer = [⟨0, 1⟩, ⟨2, 3⟩, ⟨4, 5⟩] ∧
      r.1.filterMap Change.leaver = [⟨0, 1⟩, ⟨4, 5⟩, ⟨2, 3⟩] := by
  decide +kernel

end SrvrOS.Accept
