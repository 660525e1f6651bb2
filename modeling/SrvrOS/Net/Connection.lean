import SrvrOS.Lib.Prog
import SrvrOS.Net.Segment

/-!
# A TCP connection

`kernel/src/net.c`: one slot of `tcp_connections`, the part of the host its code shares with other
slots, and the sending half of the protocol.

What the network device and the allocator answer is a list in the host, after whose end every
request is granted. The frames the device took are logged, each with the connection as it was then.
Wait queues and statistics are left out.
-/

namespace SrvrOS.Net

open Lib List

/-! ## Constants -/

def tcpTxHistory : Nat := 16
def tcpTxWindowBytes : Nat := tcpSegmentPayloadMax * 4
def tcpRxWindow : Nat := 4096
def netConnectionRxInitialSize : Nat := 4096
def netConnectionRxMaxSize : Nat := 32768
def tcpRetransmitTicks : Nat := 25
def tcpRetransmitMax : Nat := 5
def tcpZeroWindowTicks : Nat := 25
def tcpZeroWindowMax : Nat := 12
def tcpCloseTimeoutTicks : Nat := 200
def tcpTimeWaitTicks : Nat := 80
def tcpIdleTimeoutTicks : Nat := 6000

/-! ## State -/

/-- The constants `TCP_STATE_*`. -/
inductive TcpState where
  | empty | synReceived | established | synSent | finWait1 | finWait2 | closeWait | lastAck
  | timeWait | closed
  deriving DecidableEq, Repr

/-- The constants `SRV_NETERR_*`. -/
inductive NetError where
  | none | reset | timedOut | refused | inProgress
  deriving DecidableEq, Repr

/-- `struct tcp_tx_record`; `payload_length` is the length of `payload`. -/
structure TxRecord where
  used : Bool := false
  flags : Flags := {}
  retries : Nat := 0
  localPort : BitVec 16 := 0
  seq : Seq := 0
  deadline : Nat := 0
  payload : Bytes := []
  deriving DecidableEq, Repr

def TxRecord.items (record : TxRecord) : List Item := Net.items record.flags record.payload

/-- `struct tcp_connection`; `rx_length` is the length of `rxData`, and `rx_data` is null
when `rxCapacity` is zero. -/
structure Connection where
  state : TcpState := .empty
  pending : Bool := false
  accepted : Bool := false
  outbound : Bool := false
  peerClosed : Bool := false
  localReadClosed : Bool := false
  localWriteClosed : Bool := false
  finPending : Bool := false
  reset : Bool := false
  error : NetError := .none
  refs : Nat := 0
  remoteMac : BitVec 48 := 0
  owner : Option Nat := none
  remoteIp : BitVec 32 := 0
  localPort : BitVec 16 := 0
  remotePort : BitVec 16 := 0
  peerWindow : Nat := 0
  peerMss : Nat := 0
  peerWindowValid : Bool := false
  peerWindowSeq : Seq := 0
  peerWindowAck : Seq := 0
  localSeq : Seq := 0
  remoteNext : Seq := 0
  id : Nat := 0
  txNext : Nat := 0
  rxData : Bytes := []
  rxOffset : Nat := 0
  rxCapacity : Nat := 0
  closeDeadline : Nat := 0
  lastActivityTick : Nat := 0
  zeroWindowDeadline : Nat := 0
  zeroWindowProbes : Nat := 0
  zeroWindowBackoff : Nat := 0
  txHistory : List TxRecord := replicate tcpTxHistory {}
  deriving DecidableEq, Repr

structure PendingRequest where
  used : Bool := false
  owner : Option Nat := none
  connectionIndex : Nat := 0
  connectionId : Nat := 0
  port : BitVec 16 := 0
  deriving DecidableEq, Repr

/-- A frame the device took: sent for the first time, sent again, or a reset that belongs
to no connection. -/
inductive Sent where
  | first (sender : Connection) (frame : Frame)
  | again (sender : Connection) (frame : Frame)
  | stray (frame : Frame)
  deriving DecidableEq, Repr

/-- What the connections share. -/
structure Host where
  now : Nat := 0
  device : List Bool := []
  memory : List Bool := []
  wire : List Sent := []
  pendingRequests : List PendingRequest := replicate 8 {}
  deriving DecidableEq, Repr

/-- A connection and the host it lives on. -/
structure Link where
  connection : Connection
  host : Host
  deriving DecidableEq, Repr

abbrev Tcp (α : Type) : Type := Prog Link α

/-! ## Reading the connection -/

namespace Connection

variable (c : Connection)

/-- The bytes that were received and not yet read. -/
def unread : Bytes := c.rxData.drop c.rxOffset

def tcpAckBeyondSent (ack : Seq) : Bool := 0 < (ack - c.localSeq).toInt

def tcpTxFreeSlot : Bool := c.txHistory.any fun record => !record.used

def tcpTxOutstandingBytes : Nat :=
  (c.txHistory.map fun record =>
    if record.used then tcpSequenceAdvance record.flags record.payload.length else 0).sum

/-- `una`: the first sequence number that is not acknowledged. -/
def una : Seq := c.localSeq - BitVec.ofNat 32 c.tcpTxOutstandingBytes

def tcpReceiveWindow : Nat :=
  if c.localReadClosed ∨ c.reset then 0
  else
    let unread := c.rxData.length - c.rxOffset
    if netConnectionRxMaxSize ≤ unread then 0
    else min (netConnectionRxMaxSize - unread) 65535

def tcpPayloadLimit : Nat :=
  min (if c.peerMss ≠ 0 then c.peerMss else tcpDefaultSendMss) tcpSegmentPayloadMax

def tcpTxAvailablePayload : Nat :=
  if c.tcpTxFreeSlot = false then 0
  else if tcpTxWindowBytes ≤ c.tcpTxOutstandingBytes then 0
  else if c.peerWindow ≤ c.tcpTxOutstandingBytes then 0
  else
    min (min (tcpTxWindowBytes - c.tcpTxOutstandingBytes)
      (c.peerWindow - c.tcpTxOutstandingBytes)) c.tcpPayloadLimit

def tcpTxHasSpace (flags : Flags) (payloadLength : Nat) : Bool :=
  if tcpSequenceAdvance flags payloadLength = 0 then true
  else if c.tcpTxFreeSlot = false then false
  else if tcpTxWindowBytes < c.tcpTxOutstandingBytes + tcpSequenceAdvance flags payloadLength
    then false
  else if payloadLength ≠ 0 ∧ c.peerWindow < c.tcpTxOutstandingBytes + payloadLength then false
  else true

end Connection

def tcpStateCanRead : TcpState → Bool
  | .established | .finWait1 | .finWait2 | .closeWait | .timeWait | .closed => true
  | _ => false

def tcpStateCanWrite : TcpState → Bool
  | .established | .closeWait => true
  | _ => false

def tcpStateClosing : TcpState → Bool
  | .finWait1 | .finWait2 | .lastAck | .timeWait => true
  | _ => false

/-! ## Changing the connection -/

namespace Connection

def tcpSetPeerWindow (now window : Nat) (c : Connection) : Connection :=
  if window = 0 then
    { c with
      peerWindow := window
      zeroWindowDeadline :=
        if c.zeroWindowDeadline = 0 then now + tcpZeroWindowTicks else c.zeroWindowDeadline }
  else
    { c with
      peerWindow := window
      zeroWindowDeadline := 0
      zeroWindowProbes := 0
      zeroWindowBackoff := 0
      txHistory :=
        if c.peerWindow = 0 then
          c.txHistory.map fun record =>
            if record.used then
              { record with retries := 0, deadline := now + tcpRetransmitTicks }
            else record
        else c.txHistory }

def tcpUpdatePeerWindow (now : Nat) (seq ack : Seq) (window : Nat) (c : Connection) :
    Connection :=
  if c.tcpAckBeyondSent ack ∨ (ack - c.una).toInt < 0 then c
  else if c.peerWindowValid ∧ ((seq - c.peerWindowSeq).toInt < 0 ∨
      (seq = c.peerWindowSeq ∧ (ack - c.peerWindowAck).toInt < 0)) then c
  else
    { tcpSetPeerWindow now window
        { c with peerWindowValid := true, peerWindowSeq := seq, peerWindowAck := ack } with
      zeroWindowProbes := 0 }

/-- The length checks of `send_tcp_segment_at` and `send_ipv4_packet_from`, whose buffers hold
1500 and 1514 bytes. -/
def segmentFits (c : Connection) (flags : Flags) (payloadLength : Nat) : Bool :=
  let tcpLength := (if flags.syn then 24 else 20) + payloadLength
  payloadLength ≤ c.tcpPayloadLimit ∧ tcpLength ≤ 1500 ∧ 34 + tcpLength ≤ 1514

/-- The segment `send_tcp_segment_at` builds. -/
def segment (c : Connection) (localPort : BitVec 16) (seq : Seq) (flags : Flags)
    (payload : Bytes) : Frame where
  mac := c.remoteMac
  ip := c.remoteIp
  srcPort := localPort
  dstPort := c.remotePort
  seq := seq
  ack := c.remoteNext
  flags := flags
  window := c.tcpReceiveWindow
  options := if flags.syn then [2, 4, 5, 120] else []
  payload := payload

/-- The slot `tcp_record_tx` fills: the first free one from `tx_next` on, around the
table. -/
def txSlot (c : Connection) : Nat :=
  (((range tcpTxHistory).map fun i => (c.txNext + i) % tcpTxHistory).find? fun slot =>
    !(c.txHistory.getD slot {}).used).getD c.txNext

def tcpRecordTx (now : Nat) (localPort : BitVec 16) (seq : Seq) (flags : Flags)
    (payload : Bytes) (c : Connection) : Connection :=
  if tcpSequenceAdvance flags payload.length = 0 ∨ tcpSegmentPayloadMax < payload.length then c
  else
    { c with
      txHistory := c.txHistory.set c.txSlot
        { used := true, flags := flags, retries := 0, localPort := localPort, seq := seq,
          deadline := now + tcpRetransmitTicks, payload := payload }
      txNext := (c.txSlot + 1) % tcpTxHistory }

/-- The end of `send_tcp_segment`: the frame is recorded and its sequence numbers are used. -/
def transmitted (now : Nat) (localPort : BitVec 16) (flags : Flags) (payload : Bytes)
    (c : Connection) : Connection :=
  { c.tcpRecordTx now localPort c.localSeq flags payload with
    localSeq := c.localSeq + BitVec.ofNat 32 (tcpSequenceAdvance flags payload.length) }

/-- `tcp_touch_activity`. -/
def touched (now : Nat) (c : Connection) : Connection := { c with lastActivityTick := now }

def tcpFailConnection (error : NetError) (now : Nat) (c : Connection) : Connection :=
  { c with
    reset := true
    peerClosed := true
    localWriteClosed := true
    finPending := false
    error := if error = .none then .reset else error
    closeDeadline := now + tcpCloseTimeoutTicks }

def tcpEnterTimeWait (now : Nat) (c : Connection) : Connection :=
  { c with
    state := .timeWait
    localWriteClosed := true
    finPending := false
    peerClosed := true
    closeDeadline := now + tcpTimeWaitTicks }

/-- `tcp_send_fin` without room for the FIN. -/
def finDeferred (now : Nat) (c : Connection) : Connection :=
  { c with
    finPending := true
    localWriteClosed := true
    closeDeadline :=
      if c.closeDeadline = 0 then now + tcpCloseTimeoutTicks else c.closeDeadline }

/-- The end of `tcp_send_fin`. -/
def finSent (now : Nat) (c : Connection) : Connection :=
  { c with
    finPending := false
    localWriteClosed := true
    closeDeadline := now + tcpCloseTimeoutTicks
    state :=
      if c.peerClosed ∨ c.state = .closeWait then .lastAck
      else if c.state = .established ∨ c.state = .synReceived then .finWait1
      else c.state }

/-- The peer has sent its FIN. -/
def hangUp (c : Connection) : Connection := { c with peerClosed := true }

/-- The transition of `tcp_handle_fin`. -/
def finReceived (now : Nat) (c : Connection) : Connection :=
  match c.state with
  | .finWait2 => c.tcpEnterTimeWait now
  | .established =>
    { c with
      state := if c.localWriteClosed then .lastAck else .closeWait
      closeDeadline := now + tcpCloseTimeoutTicks }
  | .synReceived => { c with state := .closeWait, closeDeadline := now + tcpCloseTimeoutTicks }
  | _ => c

/-- The transition of `tcp_handle_ack`; `ackedFin` says that our FIN was acknowledged. -/
def finAcked (now : Nat) (ackedFin : Bool) (c : Connection) : Connection :=
  match c.state, ackedFin with
  | .finWait1, true =>
    if c.peerClosed then
      { c with state := .timeWait, closeDeadline := now + tcpTimeWaitTicks }
    else
      { c with state := .finWait2, closeDeadline := now + tcpCloseTimeoutTicks }
  | .lastAck, true => c.tcpEnterTimeWait now
  | .timeWait, _ => { c with closeDeadline := now + tcpTimeWaitTicks }
  | _, _ => c

/-- The connection that `close_connection` leaves in its slot. -/
def emptied (c : Connection) : Connection :=
  { c with
    state := .empty
    pending := false
    accepted := false
    outbound := false
    peerClosed := false
    localReadClosed := false
    localWriteClosed := false
    finPending := false
    reset := false
    error := .none
    refs := 0
    peerWindow := tcpRxWindow
    peerMss := tcpDefaultSendMss
    peerWindowValid := false
    peerWindowSeq := 0
    peerWindowAck := 0
    rxData := []
    rxOffset := 0
    rxCapacity := 0
    txNext := 0
    closeDeadline := 0
    lastActivityTick := 0
    zeroWindowDeadline := 0
    zeroWindowProbes := 0
    zeroWindowBackoff := 0
    txHistory := replicate tcpTxHistory {} }

/-- The second half of `tcp_expire_connection`: the descriptor outlives the protocol. -/
def retired (c : Connection) : Connection :=
  { c with
    state := .closed
    peerClosed := true
    localWriteClosed := true
    finPending := false
    closeDeadline := 0
    zeroWindowDeadline := 0
    txHistory := replicate tcpTxHistory {}
    rxData := if c.reset ∧ c.rxCapacity ≠ 0 then [] else c.rxData
    rxOffset := if c.reset ∧ c.rxCapacity ≠ 0 then 0 else c.rxOffset
    rxCapacity := if c.reset ∧ c.rxCapacity ≠ 0 then 0 else c.rxCapacity }

/-- `tcp_expire_connection` of a connection that is referenced. -/
def expired (now : Nat) (c : Connection) : Connection :=
  if c.reset = false ∧ c.state ≠ .timeWait then (c.tcpFailConnection .timedOut now).retired
  else c.retired

end Connection

/-! ## Programs -/

def connection : Tcp Connection := Prog.gets Link.connection

def timerTicks : Tcp Nat := Prog.gets fun link => link.host.now

def update (change : Connection → Connection) : Tcp Unit :=
  Prog.modify fun link => { link with connection := change link.connection }

def updateNow (change : Nat → Connection → Connection) : Tcp Unit :=
  Prog.modify fun link => { link with connection := change link.host.now link.connection }

/-- `net_device_send`: the frame is taken or refused. -/
def Host.netDeviceSend (sent : Sent) (host : Host) : Bool × Host :=
  match host.device with
  | [] => (true, { host with wire := host.wire ++ [sent] })
  | true :: later => (true, { host with device := later, wire := host.wire ++ [sent] })
  | false :: later => (false, { host with device := later })

/-- `net_device_send` for a connection. -/
def netDeviceSend (sent : Sent) : Tcp Bool := fun link =>
  ((link.host.netDeviceSend sent).1, { link with host := (link.host.netDeviceSend sent).2 })

/-- `kmalloc`, as far as its outcome goes. -/
def kmalloc : Tcp Bool := fun link =>
  match link.host.memory with
  | [] => (true, link)
  | granted :: later => (granted, { link with host := { link.host with memory := later } })

/-- `send_tcp_segment_at`; `log` says whether the frame is new. -/
def sendTcpSegmentAt (log : Connection → Frame → Sent) (localPort : BitVec 16) (seq : Seq)
    (flags : Flags) (payload : Bytes) : Tcp Bool := do
  let c ← connection
  if c.segmentFits flags payload.length = false then pure false
  else do
    let sent ← netDeviceSend (log c (c.segment localPort seq flags payload))
    if sent then do
      updateNow Connection.touched
      pure true
    else pure false

def sendTcpSegment (localPort : BitVec 16) (flags : Flags) (payload : Bytes) : Tcp Bool := do
  let c ← connection
  if c.tcpTxHasSpace flags payload.length = false then pure false
  else do
    let sent ← sendTcpSegmentAt .first localPort c.localSeq flags payload
    if sent then do
      updateNow fun now => Connection.transmitted now localPort flags payload
      pure true
    else pure false

/-- An empty acknowledgment: `send_tcp_segment` with `TCP_ACK`, its result unused. -/
def sendAck : Tcp Unit := do
  let c ← connection
  let _ ← sendTcpSegment c.localPort { ack := true } []
  pure ()

/-- The reset `send_tcp_reset` builds in answer to a frame. -/
def resetFor (frame : Frame) (payloadLength : Nat) : Frame where
  mac := frame.mac
  ip := frame.ip
  srcPort := frame.dstPort
  dstPort := frame.srcPort
  seq := if frame.flags.ack then frame.ack else 0
  ack := if frame.flags.ack then 0
    else frame.seq + BitVec.ofNat 32 (tcpSequenceAdvance frame.flags payloadLength)
  flags := { rst := true, ack := !frame.flags.ack }
  window := 0
  options := []
  payload := []

/-- `send_tcp_reset` in answer to a frame. -/
def Host.sendTcpReset (frame : Frame) (payloadLength : Nat) (host : Host) : Host :=
  if frame.flags.rst then host
  else (host.netDeviceSend (.stray (resetFor frame payloadLength))).2

/-- `send_tcp_reset` from the code of a connection. -/
def sendTcpReset (frame : Frame) (payloadLength : Nat) : Tcp Unit :=
  Prog.modify fun link => { link with host := link.host.sendTcpReset frame payloadLength }

/-- `close_connection`: the slot and its place in the accept queue are free again. -/
def closeConnection : Tcp Unit := Prog.modify fun link =>
  { connection := link.connection.emptied
    host := { link.host with
      pendingRequests := link.host.pendingRequests.map fun request =>
        if request.used ∧ request.connectionId = link.connection.id then
          { request with used := false }
        else request } }

def tcpExpireConnection : Tcp Unit := do
  let c ← connection
  if c.refs = 0 then closeConnection else updateNow Connection.expired

def tcpSendFin : Tcp Bool := do
  let c ← connection
  if c.reset then pure true
  else if c.localWriteClosed ∧ c.finPending = false then pure true
  else if c.tcpTxHasSpace { ack := true, fin := true } 0 = false then do
    updateNow Connection.finDeferred
    pure true
  else do
    let sent ← sendTcpSegment c.localPort { ack := true, fin := true } []
    if sent then do
      updateNow Connection.finSent
      pure true
    else pure false

def tcpHandleFin : Tcp Unit := do
  update Connection.hangUp
  sendAck
  updateNow Connection.finReceived

/-! ## Acknowledgments -/

namespace TxRecord

/-- `end` in `tcp_ack_tx_records`. -/
def stop (record : TxRecord) : Seq :=
  record.seq + BitVec.ofNat 32 (tcpSequenceAdvance record.flags record.payload.length)

def acked (ack : Seq) (record : TxRecord) : Bool := tcpSequenceAcked record.stop ack

def split (ack : Seq) (record : TxRecord) : Bool :=
  !record.acked ack && decide (0 < (ack - record.seq).toInt)

/-- What is left of a split record: the sequence numbers from `ack` on. -/
def suffix (ack : Seq) (record : TxRecord) : TxRecord :=
  let consumed := (ack - record.seq).toNat - (if record.flags.syn then 1 else 0)
  { record with
    seq := ack
    flags := { record.flags with syn := false }
    payload := record.payload.drop (min consumed record.payload.length) }

/-- The loop body of `tcp_ack_tx_records`. -/
def afterAck (ack : Seq) (record : TxRecord) : TxRecord :=
  if record.used = false then record
  else if record.acked ack then {}
  else if record.split ack then record.suffix ack
  else record

end TxRecord

/-- The records after the loop of `tcp_ack_tx_records`. -/
def Connection.acknowledged (ack : Seq) (c : Connection) : Connection :=
  { c with txHistory := c.txHistory.map (·.afterAck ack) }

/-- `tcp_ack_tx_records`: whether a FIN was acknowledged. -/
def tcpAckTxRecords (ack : Seq) : Tcp Bool := do
  let c ← connection
  if c.tcpAckBeyondSent ack then pure false
  else do
    update (Connection.acknowledged ack)
    if c.txHistory.any (fun record => record.used && (record.acked ack || record.split ack)) ∧
        c.finPending then do
      let sent ← tcpSendFin
      if sent then pure () else updateNow (Connection.tcpFailConnection .reset)
    else pure ()
    pure (c.txHistory.any fun record => record.used && record.acked ack && record.flags.fin)

def tcpHandleAck (ack : Seq) : Tcp Unit := do
  let c ← connection
  if c.tcpAckBeyondSent ack then pure ()
  else do
    let ackedFin ← tcpAckTxRecords ack
    updateNow fun now => Connection.finAcked now ackedFin

/-! ## Timers -/

def Connection.tcpPersistActive (c : Connection) : Bool :=
  !c.reset && tcpStateCanWrite c.state && !c.localWriteClosed && decide (c.peerWindow = 0) &&
    decide (c.zeroWindowDeadline ≠ 0)

/-- The record in a slot waits longer for its next retry. -/
def Connection.rearm (now slot : Nat) (c : Connection) : Connection :=
  let record := c.txHistory.getD slot {}
  { c with
    txHistory := c.txHistory.set slot
      { record with
        retries := record.retries + 1
        deadline := now + tcpRetransmitTicks * (record.retries + 2) } }

/-- The loop of `tcp_retransmit_due` over the records at some slots. -/
def retransmitFrom (now : Nat) : List Nat → Tcp Unit
  | [] => pure ()
  | slot :: later => do
      let c ← connection
      let record := c.txHistory.getD slot {}
      if record.used = false ∨ now < record.deadline then retransmitFrom now later
      else if tcpRetransmitMax ≤ record.retries then
        update fun c =>
          c.tcpFailConnection (if c.state = .synSent then .timedOut else .reset) now
      else do
        let _ ← sendTcpSegmentAt .again record.localPort record.seq record.flags record.payload
        update (Connection.rearm now slot)
        retransmitFrom now later

/-- `tcp_retransmit_due` for one connection. -/
def tcpRetransmitDue : Tcp Unit := do
  let c ← connection
  let now ← timerTicks
  if c.state = .empty ∨ c.state = .closed ∨ c.reset then pure ()
  else if c.tcpPersistActive then pure ()
  else retransmitFrom now (range tcpTxHistory)

/-- The record whose first byte `tcp_zero_window_probe_due` sends. -/
def Connection.probed (c : Connection) : Option TxRecord :=
  c.txHistory.find? fun record =>
    record.used && decide (record.seq = c.una) && decide (record.payload.length ≠ 0)

/-- The probe of `tcp_zero_window_probe_due`: the first unacknowledged byte, or an empty segment
below the window. -/
def sendProbe : Tcp Bool := do
  let c ← connection
  match c.probed with
  | some record =>
    sendTcpSegmentAt .again c.localPort c.una { ack := true } (record.payload.take 1)
  | none => sendTcpSegmentAt .again c.localPort (c.una - 1) { ack := true } []

def Connection.backOff (now : Nat) (c : Connection) : Connection :=
  let backoff := if c.zeroWindowBackoff < 3 then c.zeroWindowBackoff + 1 else c.zeroWindowBackoff
  { c with
    zeroWindowProbes := c.zeroWindowProbes + 1
    zeroWindowBackoff := backoff
    zeroWindowDeadline := now + min (tcpZeroWindowTicks * 2 ^ backoff) tcpCloseTimeoutTicks }

/-- `tcp_zero_window_probe_due` for one connection. -/
def tcpZeroWindowProbeDue : Tcp Unit := do
  let c ← connection
  let now ← timerTicks
  if c.tcpPersistActive = false ∨ now < c.zeroWindowDeadline then pure ()
  else if tcpZeroWindowMax ≤ c.zeroWindowProbes then
    update (Connection.tcpFailConnection .timedOut now)
  else do
    let _ ← sendProbe
    update (Connection.backOff now)

/-- `tcp_idle_cleanup_due` for one connection. -/
def tcpIdleCleanupDue : Tcp Unit :=
  updateNow fun now c =>
    if c.state = .empty ∨ c.state = .closed ∨ c.reset ∨ tcpStateClosing c.state ∨
        c.lastActivityTick = 0 ∨ now - c.lastActivityTick < tcpIdleTimeoutTicks then c
    else c.tcpFailConnection .timedOut now

/-- `tcp_reap_expired_time_wait` for one connection. -/
def tcpReapExpiredTimeWait : Tcp Unit := do
  let c ← connection
  let now ← timerTicks
  if c.state = .timeWait ∧ c.closeDeadline ≠ 0 ∧ c.closeDeadline ≤ now then tcpExpireConnection
  else pure ()

/-- The last loop of `net_timer_tick` for one connection. -/
def expireDue : Tcp Unit := do
  let c ← connection
  let now ← timerTicks
  if c.state ≠ .empty ∧ (c.reset ∨ c.finPending ∨ tcpStateClosing c.state) ∧
      c.closeDeadline ≠ 0 ∧ c.closeDeadline ≤ now then tcpExpireConnection
  else pure ()

end SrvrOS.Net
