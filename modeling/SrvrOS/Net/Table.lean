import SrvrOS.Lib.Run
import SrvrOS.Net.Receive

/-!
# The socket table

`kernel/src/net.c`: the tables of listeners and connections, the dispatch of incoming segments, and
the socket calls by handle. UDP sockets, ARP and the statistics are left out; the route to a peer
is an input of `net_connect`.
-/

namespace SrvrOS.Net

open Lib Prog List

/-- `struct net_listener`. -/
structure Listener where
  used : Bool := false
  id : Nat := 0
  refs : Nat := 0
  owner : Option Nat := none
  port : BitVec 16 := 0
  deriving DecidableEq, Repr

/-- The state of the TCP part of the network stack. -/
structure Sockets where
  connections : List Connection := replicate 32 {}
  listeners : List Listener := replicate 4 {}
  host : Host := {}
  nextListenerId : Nat := 1
  nextConnectionId : Nat := 1
  nextClientPort : Nat := 49152
  deriving DecidableEq, Repr

/-- A socket handle: `NET_HANDLE_LISTENER` or `NET_HANDLE_CONNECTION` with its value. -/
inductive Handle where
  | listener (value : Nat)
  | connection (value : Nat)
  deriving DecidableEq, Repr

/-- `NET_HANDLE_VALUE_MASK` applied to an identity by `make_handle`. -/
def handleValue (id : Nat) : Nat := id % 2 ^ 60

/-- The identity after `id`; identities are 64-bit counters that skip zero. -/
def nextId (id : Nat) : Nat := if (id + 1) % 2 ^ 64 = 0 then 1 else id + 1

variable (net : Sockets)

namespace Sockets

/-! ## Slots -/

def onSlot {α : Type} (index : Nat) (program : Tcp α) : Prog Sockets α := fun net =>
  let out := program ⟨net.connections.getD index {}, net.host⟩
  (out.1, { net with
    connections := net.connections.set index out.2.connection
    host := out.2.host })

/-- Run a program on the connections of some slots, one after the other. -/
def forSlots (program : Tcp Unit) : List Nat → Prog Sockets Unit
  | [] => pure ()
  | index :: later => do
      onSlot index program
      forSlots program later

def forEach (program : Tcp Unit) : Prog Sockets Unit := do
  let slots ← gets fun net => range net.connections.length
  forSlots program slots

/-- Run a program on every connection that meets a condition. -/
def forEachIf (condition : Connection → Bool) (program : Tcp Unit) : Prog Sockets Unit :=
  forEach do
    let c ← connection
    if condition c then program else pure ()

/-! ## Searches -/

def findConnection (localPort : BitVec 16) (remoteIp : BitVec 32)
    (remotePort : BitVec 16) : Option Nat :=
  net.connections.findIdx? fun c =>
    decide (c.state ≠ .empty) && decide (c.state ≠ .closed) && !c.reset &&
      decide (c.localPort = localPort) && decide (c.remoteIp = remoteIp) &&
      decide (c.remotePort = remotePort)

def findConnectionById (id : Nat) : Option Nat :=
  net.connections.findIdx? fun c => decide (c.state ≠ .empty) && decide (c.id = id)

def findConnectionByIdOwner (id owner : Nat) : Option Nat :=
  net.connections.findIdx? fun c =>
    decide (c.state ≠ .empty) && decide (c.id = id) && decide (c.owner = some owner)

def slot (index : Nat) : Connection := net.connections.getD index {}

def findReferencedConnectionById (id : Nat) : Option Nat :=
  (net.findConnectionById id).filter fun index => decide ((net.slot index).refs ≠ 0)

/-- The search of `net_read_checked`, `net_respond_checked` and `net_poll_events`. -/
def findOpen (id : Nat) : Option Nat :=
  net.connections.findIdx? fun c =>
    decide (c.state ≠ .empty) && decide (c.refs ≠ 0) && decide (c.id = id)

def findListenerForPort (port : BitVec 16) : Option Listener :=
  net.listeners.find? fun listener => listener.used && decide (listener.port = port)

/-- `find_listener`, the slot of a listener. -/
def findListener (value : Nat) : Option Nat :=
  net.listeners.findIdx? fun listener => listener.used && decide (listener.id = value)

def portIsListening (port : BitVec 16) : Bool :=
  (net.findListenerForPort port).isSome

def localPortAvailable (port : BitVec 16) : Bool :=
  !net.portIsListening port &&
    net.connections.all fun c => decide (c.state = .empty) || decide (c.localPort ≠ port)

/-! ## Allocation -/

/-- The loop of `tcp_reclaim_oldest_time_wait`. -/
def oldestTimeWait (now : Nat) : List (Nat × Connection) → Option (Nat × Nat) → Option Nat
  | [], oldest => oldest.map Prod.fst
  | (index, c) :: later, oldest =>
    if c.state ≠ .timeWait ∨ c.refs ≠ 0 then oldestTimeWait now later oldest
    else if c.closeDeadline ≠ 0 ∧ c.closeDeadline ≤ now then some index
    else
      match oldest with
      | none => oldestTimeWait now later (some (index, c.closeDeadline))
      | some (_, deadline) =>
        if c.closeDeadline < deadline then
          oldestTimeWait now later (some (index, c.closeDeadline))
        else oldestTimeWait now later oldest

def tcpReclaimOldestTimeWait : Prog Sockets Bool := do
  let found ← gets fun net =>
    oldestTimeWait net.host.now ((range net.connections.length).zip net.connections) none
  match found with
  | none => pure false
  | some index => do
      onSlot index closeConnection
      pure true

/-- The first slot in `EMPTY`. -/
def firstEmpty : Option Nat :=
  net.connections.findIdx? fun c => decide (c.state = .empty)

/-- Take an identity and write a fresh connection into an empty slot. -/
def install (index : Nat) (fresh : Nat → Nat → Connection → Connection) : Prog Sockets Unit :=
  fun net =>
    ((), { net with
      connections := net.connections.set index
        (fresh net.host.now net.nextConnectionId (net.slot index))
      nextConnectionId := nextId net.nextConnectionId })

/-- What `alloc_connection` and `alloc_client_connection` have in common. -/
def freshConnection (now id : Nat) (c : Connection) : Connection :=
  { c with
    pending := false
    peerClosed := false
    localReadClosed := false
    localWriteClosed := false
    finPending := false
    reset := false
    error := .none
    peerWindow := tcpRxWindow
    peerMss := tcpDefaultSendMss
    peerWindowValid := false
    peerWindowSeq := 0
    peerWindowAck := 0
    remoteNext := 0
    id := id
    txNext := 0
    closeDeadline := 0
    lastActivityTick := now
    zeroWindowDeadline := 0
    zeroWindowProbes := 0
    zeroWindowBackoff := 0
    txHistory := replicate tcpTxHistory {} }

/-- The connection `alloc_connection` writes. -/
def passiveConnection (owner : Option Nat) (frame : Frame) (now id : Nat) (c : Connection) :
    Connection :=
  { freshConnection now id c with
    state := .synReceived
    accepted := false
    outbound := false
    refs := 0
    owner := owner
    remoteIp := frame.ip
    localPort := frame.dstPort
    remotePort := frame.srcPort
    localSeq := 0x73720000 + frame.srcPort.setWidth 32
    remoteMac := frame.mac }

/-- The connection `alloc_client_connection` writes. -/
def activeConnection (owner : Nat) (remoteIp : BitVec 32) (remotePort localPort : BitVec 16)
    (remoteMac : BitVec 48) (now id : Nat) (c : Connection) : Connection :=
  { freshConnection now id c with
    state := .synSent
    accepted := true
    outbound := true
    refs := 1
    owner := some owner
    remoteIp := remoteIp
    localPort := localPort
    remotePort := remotePort
    localSeq := 0x63720000 + localPort.setWidth 32
    remoteMac := remoteMac }

/-- `tcp_reap_expired_time_wait` over the table. -/
def reapExpiredTimeWait : Prog Sockets Unit := forEach tcpReapExpiredTimeWait

def allocConnection (frame : Frame) : Prog Sockets (Option Nat) := do
  let listener ← gets fun net => net.findListenerForPort frame.dstPort
  match listener with
  | none => pure none
  | some listener => do
      reapExpiredTimeWait
      let known ← gets fun net => net.findConnection frame.dstPort frame.ip frame.srcPort
      match known with
      | some index => do
          let c ← gets fun net => net.slot index
          if c.state = .timeWait then pure none else pure (some index)
      | none => do
          let free ← gets firstEmpty
          match free with
          | some index => do
              install index (passiveConnection listener.owner frame)
              pure (some index)
          | none => do
              let reclaimed ← tcpReclaimOldestTimeWait
              let free ← gets firstEmpty
              match reclaimed, free with
              | true, some index => do
                  install index (passiveConnection listener.owner frame)
                  pure (some index)
              | _, _ => pure none

/-- The loop of `allocate_client_port`; the fuel is the number of attempts left. -/
def allocateClientPortFrom : Nat → Prog Sockets (Option (BitVec 16))
  | 0 => pure none
  | attempts + 1 => do
      let port ← gets fun net => BitVec.ofNat 16 net.nextClientPort
      modify fun net =>
        { net with
          nextClientPort := if 60999 < net.nextClientPort + 1 then 49152
            else net.nextClientPort + 1 }
      let available ← gets fun net => net.localPortAvailable port
      if available then pure (some port) else allocateClientPortFrom attempts

def allocateClientPort : Prog Sockets (Option (BitVec 16)) := allocateClientPortFrom 11848

def allocClientConnection (owner : Nat) (remoteIp : BitVec 32) (remotePort : BitVec 16)
    (remoteMac : BitVec 48) : Prog Sockets (Option Nat) := do
  reapExpiredTimeWait
  let port ← allocateClientPort
  match port with
  | none => pure none
  | some port => do
      let free ← gets firstEmpty
      match free with
      | some index => do
          install index (activeConnection owner remoteIp remotePort port remoteMac)
          pure (some index)
      | none => do
          let reclaimed ← tcpReclaimOldestTimeWait
          if reclaimed then do
            let port ← allocateClientPort
            let free ← gets firstEmpty
            match port, free with
            | some port, some index => do
                install index (activeConnection owner remoteIp remotePort port remoteMac)
                pure (some index)
            | _, _ => pure none
          else pure none

/-! ## Incoming segments -/

/-- `send_tcp_reset` in answer to a frame for no connection. -/
def sendReset (frame : Frame) : Prog Sockets Unit :=
  modify fun net => { net with host := net.host.sendTcpReset frame frame.payload.length }

/-- The `TCP_SYN` branch of `handle_tcp`. -/
def handleSyn (frame : Frame) (peerMss : Nat) : Prog Sockets Unit := do
  let known ← gets fun net => net.findConnection frame.dstPort frame.ip frame.srcPort
  let past ← gets fun net =>
    known.filter fun index => decide ((net.slot index).state ≠ .synSent)
  let listening ← gets fun net => net.portIsListening frame.dstPort
  match past, listening, known with
  | some index, _, _ => onSlot index (handleKnownSyn frame)
  | none, false, some index => onSlot index (handleSynAck frame peerMss)
  | none, false, none => sendReset frame
  | none, true, _ => do
      let found ← allocConnection frame
      match found with
      | some index => onSlot index (answerSyn frame peerMss)
      | none => sendReset frame

def handleTcp (frame : Frame) : Prog Sockets Unit :=
  match tcpParseOptions frame.flags frame.options with
  | none => pure ()
  | some peerMss => do
      let known ← gets fun net => net.findConnection frame.dstPort frame.ip frame.srcPort
      if frame.flags.rst then
        match known with
        | some index => onSlot index (handleReset frame)
        | none => pure ()
      else if frame.flags.syn then handleSyn frame peerMss
      else
        match known with
        | some index => onSlot index (handleSegment index frame)
        | none => sendReset frame

/-! ## Timers -/

def netTimerTick : Prog Sockets Unit := do
  forEach tcpRetransmitDue
  forEach tcpZeroWindowProbeDue
  forEach tcpIdleCleanupDue
  reapExpiredTimeWait
  forEach expireDue

/-! ## Socket calls -/

/-- Run a program on the connection of a handle, or answer `refused`. -/
def onReferenced {α : Type} (handle : Handle) (refused : α) (program : Tcp α) : Prog Sockets α := do
  let found ← gets fun net =>
    match handle with
    | .listener _ => none
    | .connection value => net.findReferencedConnectionById value
  match found with
  | some index => onSlot index program
  | none => pure refused

/-- As `onReferenced`, with the second search of `net_read_checked` and
`net_respond_checked`. -/
def onOpen {α : Type} (handle : Handle) (refused : α) (program : Tcp α) : Prog Sockets α := do
  let found ← gets fun net =>
    match handle with
    | .listener _ => none
    | .connection value =>
      (net.findReferencedConnectionById value).bind fun _ => net.findOpen value
  match found with
  | some index => onSlot index program
  | none => pure refused

/-- `net_read` and `net_peek`. -/
def netRead (handle : Handle) (length : Nat) (peek copied : Bool) :
    Prog Sockets (Except SocketError Bytes) :=
  onOpen handle (.error .failed) (Net.netRead length peek copied)

def netRespond (handle : Handle) (buffer : Bytes) : Prog Sockets (Except SocketError Nat) :=
  onOpen handle (.error .failed) (Net.netRespond buffer)

def netShutdown (handle : Handle) (how : How) : Prog Sockets Bool :=
  onReferenced handle false (Net.netShutdown how)

/-- The events a caller of `net_poll_events` asks for: `SRV_POLLIN` and `SRV_POLLOUT`. -/
structure Interest where
  pollin : Bool
  pollout : Bool
  deriving DecidableEq, Repr

/-- The bits `net_poll_events` reports. -/
structure Readiness where
  pollin : Bool := false
  pollout : Bool := false
  pollerr : Bool := false
  pollhup : Bool := false
  pollnval : Bool := false
  deriving DecidableEq, Repr

/-- The report of `net_poll_events` on a connection. -/
def pollConnection (events : Interest) (c : Connection) : Readiness where
  pollin := events.pollin && (decide (c.unread ≠ []) || c.peerClosed || c.localReadClosed)
  pollout := events.pollout && tcpStateCanWrite c.state && !c.localWriteClosed && !c.reset &&
    decide (c.tcpTxAvailablePayload ≠ 0)
  pollerr := c.reset
  pollhup := c.peerClosed

/-- `net_poll_events`, after `net_device_poll` found no packet. -/
def netPollEvents (handle : Handle) (events : Interest) : Readiness :=
  match handle with
  | .listener value =>
    match net.findListener value with
    | none => { pollnval := true }
    | some index =>
      { pollin := events.pollin && net.host.pendingRequests.any fun request =>
          request.used && decide (request.port = (net.listeners.getD index {}).port) }
  | .connection value =>
    match net.findOpen value with
    | none => { pollnval := true }
    | some index => pollConnection events (net.slot index)

/-- `net_listen` of a process. -/
def netListen (owner : Nat) (port : BitVec 16) : Prog Sockets (Option Handle) := do
  let net ← get
  if port = 0 then pure none
  else
    match net.listeners.findIdx? fun listener => listener.used && decide (listener.port = port),
        net.listeners.findIdx? fun listener => !listener.used with
    | some index, _ =>
      let listener := net.listeners.getD index {}
      if listener.owner ≠ some owner ∨ listener.refs = 2 ^ 32 - 1 then pure none
      else do
        modify fun net =>
          { net with
            listeners := net.listeners.set index
              { listener with refs := listener.refs + 1 } }
        pure (some (.listener (handleValue listener.id)))
    | none, some index => do
        modify fun net =>
          { net with
            listeners := net.listeners.set index
              { used := true, id := net.nextListenerId, refs := 1, owner := some owner,
                port := port }
            nextListenerId := nextId net.nextListenerId }
        pure (some (.listener (handleValue net.nextListenerId)))
    | none, none => pure none

/-- `net_connect` up to its wait; `route` is the result of `resolve_route_mac`. -/
def netConnect (owner : Nat) (remoteIp : BitVec 32) (remotePort : BitVec 16)
    (route : Option (BitVec 48)) : Prog Sockets (Option Handle) :=
  match route with
  | none => pure none
  | some remoteMac =>
    if remoteIp = 0 ∨ remotePort = 0 then pure none
    else do
      let found ← allocClientConnection owner remoteIp remotePort remoteMac
      match found with
      | none => pure none
      | some index => do
          let c ← gets fun net => net.slot index
          let sent ← onSlot index (sendTcpSegment c.localPort { syn := true } [])
          if sent then pure (some (.connection (handleValue c.id)))
          else do
            onSlot index closeConnection
            pure none

/-- A turn of the wait of a blocking `net_connect`. -/
def netConnectWait (id owner deadline : Nat) (interrupted : Bool) : Prog Sockets Unit := do
  let found ← gets fun net => net.findConnectionByIdOwner id owner
  match found with
  | none => pure ()
  | some index => do
      let c ← gets fun net => net.slot index
      let now ← gets fun net => net.host.now
      if interrupted then onSlot index closeConnection
      else if c.state = .established then pure ()
      else if c.reset ∨ c.peerClosed ∨ deadline ≤ now then onSlot index closeConnection
      else pure ()

/-- An attempt of `net_accept`; `copied` says whether `copyout` succeeds. -/
def netAccept (handle : Handle) (capacity : Nat) (copied : Bool) :
    Prog Sockets (Except SocketError (Handle × Bytes)) := do
  let net ← get
  match handle with
  | .connection _ => pure (.error .failed)
  | .listener value =>
    match net.findListener value with
    | none => pure (.error .failed)
    | some index =>
      match net.host.pendingRequests.findIdx? fun request =>
          request.used && decide (request.port = (net.listeners.getD index {}).port) with
      | none => pure (.error .again)
      | some queued =>
        let request := net.host.pendingRequests.getD queued {}
        if copied = false then pure (.error .fault)
        else do
          modify fun net =>
            { net with host := { net.host with
                pendingRequests := net.host.pendingRequests.set queued
                  { request with used := false } } }
          let bytes ← onSlot request.connectionIndex (Net.netAccept capacity)
          pure (.ok (.connection (handleValue request.connectionId), bytes))

def netHold (handle : Handle) : Prog Sockets Bool :=
  match handle with
  | .connection _ => onReferenced handle false Net.netHold
  | .listener value => do
      let found ← gets fun net => net.findListener value
      match found with
      | none => pure false
      | some index => do
          let listener ← gets fun net => net.listeners.getD index {}
          if listener.refs = 2 ^ 32 - 1 then pure false
          else do
            modify fun net =>
              { net with
                listeners := net.listeners.set index
                  { listener with refs := listener.refs + 1 } }
            pure true

/-- The last close of a listener: its queue and its unaccepted connections go. -/
def closeListener (index : Nat) (listener : Listener) : Prog Sockets Unit := do
  modify fun net =>
    { net with
      listeners := net.listeners.set index { listener with used := false, refs := 0 }
      host := { net.host with
        pendingRequests := net.host.pendingRequests.map fun request =>
          if request.used ∧ request.port = listener.port then { request with used := false }
          else request } }
  forEachIf (fun c => decide (c.state ≠ .empty) && decide (c.localPort = listener.port) &&
    decide (c.refs = 0) && !c.accepted) closeConnection

def netClose (handle : Handle) : Prog Sockets Bool :=
  match handle with
  | .connection _ => onReferenced handle false do
      Net.netClose
      pure true
  | .listener value => do
      let found ← gets fun net => net.findListener value
      match found with
      | none => pure false
      | some index => do
          let listener ← gets fun net => net.listeners.getD index {}
          if listener.refs = 0 then pure false
          else if listener.refs - 1 ≠ 0 then do
            modify fun net =>
              { net with
                listeners := net.listeners.set index
                  { listener with refs := listener.refs - 1 } }
            pure true
          else do
            closeListener index listener
            pure true

def listenerHeld (port : BitVec 16) : Bool :=
  match net.findListenerForPort port with
  | none => false
  | some listener => decide (listener.refs ≠ 0)

/-- The connections of an ending process in `net_process_cleanup`. -/
def disownConnection (sockets : Sockets) (process : Nat) : Tcp Unit := do
  let c ← connection
  if c.state ≠ .empty ∧ c.owner = some process then
    if c.refs = 0 ∧ ¬(c.accepted = false ∧ c.outbound = false ∧
        sockets.listenerHeld c.localPort) then closeConnection
    else update fun c => { c with owner := none }
  else pure ()

def netProcessCleanup (process : Nat) : Prog Sockets Unit := do
  modify fun net =>
    { net with
      host := { net.host with
        pendingRequests := net.host.pendingRequests.map fun request =>
          if request.used ∧ request.owner = some process then
            if net.listenerHeld request.port then { request with owner := none }
            else { request with used := false }
          else request } }
  modify fun net =>
    { net with listeners := net.listeners.map fun listener =>
        if listener.used ∧ listener.owner = some process then
          if listener.refs = 0 then { listener with used := false }
          else { listener with owner := none }
        else listener }
  let net ← get
  forEach (disownConnection net process)

/-! ## Runs -/

/-- What happens to the network stack, one at a time. -/
inductive Event where
  | listen (owner : Nat) (port : BitVec 16)
  | connect (owner : Nat) (remoteIp : BitVec 32) (remotePort : BitVec 16)
      (route : Option (BitVec 48))
  | connectWait (id owner deadline : Nat) (interrupted : Bool)
  | accept (handle : Handle) (capacity : Nat) (copied : Bool)
  | read (handle : Handle) (length : Nat) (peek copied : Bool)
  | respond (handle : Handle) (buffer : Bytes)
  | shutdown (handle : Handle) (how : How)
  | hold (handle : Handle)
  | close (handle : Handle)
  | cleanup (process : Nat)
  | receive (frame : Frame)
  | tick
  | clock (ticks : Nat)
  deriving DecidableEq, Repr

/-- The program an event runs, its result dropped. -/
def serve : Event → Prog Sockets Unit
  | .listen owner port => do
      let _ ← netListen owner port
      pure ()
  | .connect owner remoteIp remotePort route => do
      let _ ← netConnect owner remoteIp remotePort route
      pure ()
  | .connectWait id owner deadline interrupted => netConnectWait id owner deadline interrupted
  | .accept handle capacity copied => do
      let _ ← netAccept handle capacity copied
      pure ()
  | .read handle length peek copied => do
      let _ ← netRead handle length peek copied
      pure ()
  | .respond handle buffer => do
      let _ ← netRespond handle buffer
      pure ()
  | .shutdown handle how => do
      let _ ← netShutdown handle how
      pure ()
  | .hold handle => do
      let _ ← netHold handle
      pure ()
  | .close handle => do
      let _ ← netClose handle
      pure ()
  | .cleanup process => netProcessCleanup process
  | .receive frame => handleTcp frame
  | .tick => netTimerTick
  | .clock ticks =>
    modify fun net => { net with host := { net.host with now := net.host.now + ticks } }

def step (event : Event) : Unit × Sockets := serve event net

/-- The stack after `net_init`, on a host with some clock, device and allocator. -/
def boot (host : Host) : Sockets := { host := { host with pendingRequests := replicate 8 {} } }

def after (host : Host) (events : List Event) : Sockets := (run step (boot host) events).2

end Sockets

end SrvrOS.Net
