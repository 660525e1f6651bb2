import SrvrOS.Net.Connection

/-!
# Incoming segments and socket calls of one connection

`kernel/src/net.c`: what `handle_tcp` and the socket calls do to a connection. A blocking call is a
sequence of attempts; one that would wait answers `SRV_ERR_AGAIN`, as the nonblocking call does.
-/

namespace SrvrOS.Net

open Lib Connection

/-! ## Receive buffer and accept queue -/

/-- The loop of `append_connection_data` that doubles a capacity until it suffices. -/
def doubleUntil (needed : Nat) : Nat → Nat → Nat
  | 0, capacity => capacity
  | fuel + 1, capacity =>
    if capacity < needed then doubleUntil needed fuel (capacity * 2) else capacity

def nextCapacity (capacity needed : Nat) : Nat :=
  min (doubleUntil needed needed
    (if capacity = 0 then netConnectionRxInitialSize else capacity * 2)) netConnectionRxMaxSize

def Connection.compacted (c : Connection) : Connection :=
  { c with rxData := c.unread, rxOffset := 0 }

/-- The buffer with some bytes more, in a memory of some capacity. -/
def Connection.stored (payload : Bytes) (rxCapacity : Nat) (c : Connection) : Connection :=
  { c with rxData := c.rxData ++ payload, rxCapacity := rxCapacity }

def appendConnectionData (payload : Bytes) : Tcp Bool :=
  if payload = [] then pure false
  else do
    update compacted
    let c ← connection
    let needed := c.rxData.length + payload.length
    if netConnectionRxMaxSize < needed then pure false
    else if c.rxCapacity < needed then do
      let granted ← kmalloc
      if granted then do
        update (stored payload (nextCapacity c.rxCapacity needed))
        pure true
      else pure false
    else do
      update (stored payload c.rxCapacity)
      pure true

/-- Put the connection in slot `index` into the first free place of the accept queue. -/
def enqueuePending (index : Nat) (port : BitVec 16) : Tcp Bool := fun link =>
  match link.host.pendingRequests.findIdx? fun request => !request.used with
  | none => (false, link)
  | some free =>
    (true,
      { connection := { link.connection with pending := true }
        host := { link.host with
          pendingRequests := link.host.pendingRequests.set free
            { used := true, owner := link.connection.owner, connectionIndex := index,
              connectionId := link.connection.id, port := port } } })

def ensurePendingConnection (index : Nat) (port : BitVec 16) : Tcp Bool := do
  let c ← connection
  if c.accepted ∨ c.pending then pure true else enqueuePending index port

/-! ## Segments for a known connection -/

/-- The `TCP_RST` branch of `handle_tcp`. -/
def handleReset (frame : Frame) : Tcp Unit := do
  let c ← connection
  let refuse : Tcp Unit :=
    if c.refs = 0 then closeConnection
    else updateNow fun now c =>
      c.tcpFailConnection (if c.state = .synSent then .refused else .reset) now
  if c.state = .timeWait then pure ()
  else if c.state = .synSent then
    if frame.flags.ack = false ∨ frame.ack ≠ c.localSeq then pure () else refuse
  else if frame.seq ≠ c.remoteNext then
    if (frame.seq - c.remoteNext).toNat < c.tcpReceiveWindow then sendAck else pure ()
  else refuse

/-- The `TCP_SYN` branch of `handle_tcp` for a connection past `SYN_SENT`. -/
def handleKnownSyn (frame : Frame) : Tcp Unit := do
  let c ← connection
  if c.state = .synReceived ∧ frame.seq + 1 = c.remoteNext then
    match c.txHistory.find? fun record => record.used && record.flags.syn with
    | some syn => do
        let _ ← sendTcpSegmentAt .again syn.localPort syn.seq syn.flags []
        pure ()
    | none => do
        let _ ← sendTcpSegment c.localPort { syn := true, ack := true } []
        pure ()
  else sendAck

namespace Connection

def establish (c : Connection) : Connection := { c with state := .established }

def expect (next : Seq) (c : Connection) : Connection := { c with remoteNext := next }

/-- A SYN of the peer is taken: its number and its MSS. -/
def synchronise (frame : Frame) (peerMss : Nat) (c : Connection) : Connection :=
  { c with remoteNext := frame.seq + 1, peerMss := peerMss }

def readdress (remoteMac : BitVec 48) (c : Connection) : Connection :=
  { c with remoteMac := remoteMac }

end Connection

/-- The `TCP_SYN` branch of `handle_tcp` for a connection in `SYN_SENT` on whose port nobody
listens. -/
def handleSynAck (frame : Frame) (peerMss : Nat) : Tcp Unit := do
  let c ← connection
  if frame.flags.ack = false ∨ frame.ack ≠ c.localSeq then
    sendTcpReset frame frame.payload.length
  else do
    update (readdress frame.mac)
    updateNow fun now => tcpUpdatePeerWindow now frame.seq frame.ack frame.window
    update (synchronise frame peerMss)
    let _ ← tcpAckTxRecords frame.ack
    update establish
    sendAck

/-- The end of the `TCP_SYN` branch of `handle_tcp`: the answer of a listening port. -/
def answerSyn (frame : Frame) (peerMss : Nat) : Tcp Unit := do
  updateNow fun now => tcpSetPeerWindow now frame.window
  update (synchronise frame peerMss)
  let c ← connection
  let _ ← sendTcpSegment c.localPort { syn := true, ack := true } []
  pure ()

/-- The sequence number and the payload of a segment without the part received before;
nothing is left of a duplicate. -/
def trimDuplicate (remoteNext : Seq) (frame : Frame) : Option (Seq × Bytes) :=
  let receiveAdvance := tcpReceiveAdvance frame.flags frame.payload.length
  if receiveAdvance ≠ 0 ∧ (frame.seq - remoteNext).toInt < 0 then
    let duplicate := (remoteNext - frame.seq).toNat
    if receiveAdvance ≤ duplicate then none
    else some (remoteNext, frame.payload.drop duplicate)
  else some (frame.seq, frame.payload)

/-- `acceptable` in `handle_tcp`. -/
def Connection.acceptable (c : Connection) (flags : Flags) (seq : Seq) (payload : Bytes) : Bool :=
  let receiveAdvance := tcpReceiveAdvance flags payload.length
  if receiveAdvance = 0 then
    seq = c.remoteNext ∨ (seq - c.remoteNext).toNat < c.tcpReceiveWindow
  else
    seq = c.remoteNext ∧ c.peerClosed = false ∧
      (receiveAdvance ≤ c.tcpReceiveWindow ∨ payload = [])

/-- The `SYN_RECEIVED` part of `handle_tcp`: whether the segment is processed further. -/
def completeHandshake (index : Nat) (frame : Frame) (seq : Seq) (payload : Bytes) : Tcp Bool := do
  let c ← connection
  if c.state ≠ .synReceived then pure true
  else if seq ≠ c.remoteNext then do
    sendAck
    pure false
  else if frame.ack ≠ c.localSeq then do
    sendTcpReset { frame with seq := seq } payload.length
    pure false
  else do
    update establish
    let queued ← ensurePendingConnection index frame.dstPort
    if queued then pure true
    else do
      sendTcpReset { frame with seq := seq } payload.length
      closeConnection
      pure false

/-- A segment is consumed up to `next`, and its FIN with it. -/
def consumeSegment (flags : Flags) (next : Seq) : Tcp Unit := do
  update (expect next)
  if flags.fin then tcpHandleFin else sendAck

/-- The data and FIN part of `handle_tcp`. -/
def deliver (flags : Flags) (seq : Seq) (payload : Bytes) : Tcp Unit := do
  let c ← connection
  let next := seq + BitVec.ofNat 32 (tcpReceiveAdvance flags payload.length)
  if tcpStateCanRead c.state ∧ payload ≠ [] then
    if c.localReadClosed then consumeSegment flags next
    else do
      let stored ← appendConnectionData payload
      if stored then consumeSegment flags next else sendAck
  else if flags.fin then consumeSegment flags next
  else pure ()

/-- `handle_tcp` from an acceptable segment of an open connection on. -/
def processSegment (frame : Frame) (seq : Seq) (payload : Bytes) : Tcp Unit := do
  update (readdress frame.mac)
  updateNow touched
  updateNow fun now => tcpUpdatePeerWindow now frame.seq frame.ack frame.window
  tcpHandleAck frame.ack
  deliver frame.flags seq payload

/-- `handle_tcp` for a segment that was trimmed to `seq` and `payload`. -/
def handleTrimmed (index : Nat) (frame : Frame) (seq : Seq) (payload : Bytes) : Tcp Unit := do
  let c ← connection
  if c.acceptable frame.flags seq payload = false then sendAck
  else if c.state ≠ .synReceived ∧ c.tcpAckBeyondSent frame.ack then sendAck
  else do
    let proceed ← completeHandshake index frame seq payload
    if proceed then processSegment frame seq payload else pure ()

/-- `handle_tcp` for a segment without SYN and RST, on the connection in slot `index`. -/
def handleSegment (index : Nat) (frame : Frame) : Tcp Unit := do
  let c ← connection
  if c.state = .synSent ∨ frame.flags.ack = false then pure ()
  else
    match trimDuplicate c.remoteNext frame with
    | none => sendAck
    | some (seq, payload) => handleTrimmed index frame seq payload

/-! ## Socket calls -/

/-- The negative results of a socket call: `SRV_ERR_AGAIN`, `SRV_ERR_FAULT` and `-1`. -/
inductive SocketError where
  | again | fault | failed
  deriving DecidableEq, Repr

namespace Connection

def handOut (count : Nat) (c : Connection) : Connection := { c with rxOffset := c.rxOffset + count }

/-- `net_shutdown` of the read side: what is unread is dropped. -/
def shutRead (c : Connection) : Connection :=
  { c with localReadClosed := true, rxOffset := c.rxData.length }

def withRefs (refs : Nat) (c : Connection) : Connection := { c with refs := refs }

def disown (c : Connection) : Connection := { c with owner := none }

/-- The connection of a pending request is accepted. -/
def accept (c : Connection) : Connection := { c with pending := false, accepted := true, refs := 1 }

/-- The end of `net_close`: a closing connection does not wait for ever. -/
def closeLater (now : Nat) (c : Connection) : Connection :=
  { c with closeDeadline :=
      if tcpStateClosing c.state ∧ c.closeDeadline = 0 then now + tcpCloseTimeoutTicks
      else c.closeDeadline }

end Connection

/-- An attempt of `net_read_checked`: the bytes handed out, none of them at the end of the stream.
-/
def netRead (length : Nat) (peek copied : Bool) : Tcp (Except SocketError Bytes) := do
  let c ← connection
  if length = 0 then pure (.ok [])
  else if c.reset then pure (.error .failed)
  else if c.localReadClosed then pure (.ok [])
  else if tcpStateCanRead c.state = false then pure (.error .again)
  else if c.unread ≠ [] then
    if copied = false then pure (.error .fault)
    else if peek then pure (.ok (c.unread.take length))
    else do
      update (handOut (min length c.unread.length))
      sendAck
      pure (.ok (c.unread.take length))
  else if c.peerClosed then pure (.ok [])
  else pure (.error .again)

/-- An attempt of `net_respond_checked`: how many bytes were taken. -/
def netRespond (buffer : Bytes) : Tcp (Except SocketError Nat) := do
  let c ← connection
  if buffer = [] then pure (.ok 0)
  else if tcpStateCanWrite c.state = false ∨ c.localWriteClosed ∨ c.reset then
    pure (.error .failed)
  else if c.tcpTxAvailablePayload = 0 then pure (.error .again)
  else do
    let chunk := buffer.take c.tcpTxAvailablePayload
    let sent ← sendTcpSegment c.localPort { ack := true, psh := true } chunk
    if sent then pure (.ok chunk.length) else pure (.error .failed)

/-- The argument `how` of `net_shutdown`. -/
inductive How where
  | read | write | both
  deriving DecidableEq, Repr

/-- `net_shutdown` on a connection: whether it succeeds. -/
def netShutdown (how : How) : Tcp Bool := do
  let c ← connection
  if c.state = .closed ∨ tcpStateCanRead c.state = false then pure false
  else do
    if how = .write then pure ()
    else update shutRead
    if how ≠ .read ∧ c.localWriteClosed = false then tcpSendFin else pure true

/-- `net_hold` on a connection. -/
def netHold : Tcp Bool := do
  let c ← connection
  if c.refs = 2 ^ 32 - 1 then pure false
  else do
    update (withRefs (c.refs + 1))
    pure true

/-- `net_close` on a connection. -/
def netClose : Tcp Unit := do
  update fun c => c.withRefs (c.refs - 1)
  let c ← connection
  if c.refs ≠ 0 then pure ()
  else do
    update disown
    if c.reset ∨ c.state = .synSent ∨ c.state = .closed then closeConnection
    else if tcpStateCanWrite c.state ∧ c.localWriteClosed = false then do
      let sent ← tcpSendFin
      if sent then pure () else closeConnection
    else updateNow closeLater

/-- `net_accept_checked` on a pending request, once the caller's buffer was filled. -/
def netAccept (capacity : Nat) : Tcp Bytes := do
  let c ← connection
  update (handOut (min capacity c.unread.length))
  update accept
  if c.unread.take capacity ≠ [] then sendAck else pure ()
  pure (c.unread.take capacity)

end SrvrOS.Net
