import SrvrOS.Net.Receive

/-!
# What the protocol can do to a connection

The code between the entry points of `kernel/src/net.c` sends, acknowledges, retries and gives up.
`Upkeep` lists the single changes it can make; none of them touches what was received.
-/

namespace SrvrOS.Net

open Lib Prog List Connection TxRecord

variable {c : Connection} {now : Nat} {localPort : BitVec 16} {seq : Seq} {flags : Flags} {s : Link}

/-! ## Sending -/

theorem Host.netDeviceSend_cases (sent : Sent) (host : Host) :
    (∃ d, host.netDeviceSend sent = (false, { host with device := d })) ∨
    ∃ d, host.netDeviceSend sent =
      (true, { host with device := d, wire := host.wire ++ [sent] }) := by
  obtain ⟨now, d, memory, wire, pendingRequests⟩ := host
  match d with
  | [] => exact .inr ⟨[], rfl⟩
  | true :: later => exact .inr ⟨later, rfl⟩
  | false :: later => exact .inl ⟨later, rfl⟩

/-- `send_tcp_segment_at` leaves the connection alone, or the frame is on the wire. -/
theorem sendTcpSegmentAt_cases (log : Connection → Frame → Sent) (localPort : BitVec 16)
    (seq : Seq) (flags : Flags) (p : Bytes) (c : Connection) (h : Host) :
    (∃ d, sendTcpSegmentAt log localPort seq flags p ⟨c, h⟩ =
      (false, ⟨c, { h with device := d }⟩)) ∨
    (p.length ≤ c.tcpPayloadLimit ∧
      ∃ d, sendTcpSegmentAt log localPort seq flags p ⟨c, h⟩ =
        (true, ⟨c.touched h.now,
          { h with
            device := d
            wire := h.wire ++ [log c (c.segment localPort seq flags p)] }⟩)) := by
  simp only [sendTcpSegmentAt, connection, netDeviceSend, updateNow, exec]
  split
  · exact .inl ⟨h.device, rfl⟩
  rename_i fits
  obtain ⟨d, refused⟩ | ⟨d, taken⟩ :=
    h.netDeviceSend_cases (log c (c.segment localPort seq flags p))
  · exact .inl ⟨d, by simp [refused]⟩
  refine .inr ⟨?_, d, by simp [taken]⟩
  simp only [segmentFits, Bool.not_eq_false, decide_eq_true_eq] at fits
  exact fits.1

/-- `send_tcp_segment` leaves the connection alone, or the frame is recorded and on the
wire. -/
theorem sendTcpSegment_cases (localPort : BitVec 16) (flags : Flags) (p : Bytes)
    (c : Connection) (h : Host) :
    (∃ d, sendTcpSegment localPort flags p ⟨c, h⟩ =
      (false, ⟨c, { h with device := d }⟩)) ∨
    (c.tcpTxHasSpace flags p.length = true ∧ p.length ≤ c.tcpPayloadLimit ∧
      ∃ d, sendTcpSegment localPort flags p ⟨c, h⟩ =
        (true, ⟨(c.touched h.now).transmitted h.now localPort flags p,
          { h with
            device := d
            wire := h.wire ++ [.first c (c.segment localPort c.localSeq flags p)] }⟩)) := by
  simp only [sendTcpSegment, connection, updateNow, exec]
  split
  · exact .inl ⟨h.device, rfl⟩
  rename_i space
  obtain ⟨d, refused⟩ | ⟨fits, d, taken⟩ :=
    sendTcpSegmentAt_cases .first localPort c.localSeq flags p c h
  · exact .inl ⟨d, by simp [refused]⟩
  · exact .inr ⟨by simpa using space, fits, d, by simp [taken]⟩

/-! ## Single changes -/

/-- The part of a connection that its upkeep changes only by a transition of the
protocol. -/
structure Core where
  state : TcpState
  peerClosed : Bool
  localReadClosed : Bool
  localWriteClosed : Bool
  finPending : Bool
  reset : Bool
  refs : Nat
  id : Nat
  localSeq : Seq
  remoteNext : Seq
  rxData : Bytes
  rxOffset : Nat

def Connection.core (c : Connection) : Core where
  state := c.state
  peerClosed := c.peerClosed
  localReadClosed := c.localReadClosed
  localWriteClosed := c.localWriteClosed
  finPending := c.finPending
  reset := c.reset
  refs := c.refs
  id := c.id
  localSeq := c.localSeq
  remoteNext := c.remoteNext
  rxData := c.rxData
  rxOffset := c.rxOffset

def TxRecord.timeless (record : TxRecord) : TxRecord := { record with retries := 0, deadline := 0 }

/-- A frame repeats what a record holds, in full or in part, or occupies no sequence
number. -/
def Connection.Holds (c : Connection) (frame : Frame) : Prop :=
  frame.items = [] ∨ ∃ record ∈ c.txHistory, record.used = true ∧ frame.seq = record.seq ∧
    (frame.items = record.items ∨
      (record.flags.syn = true ∧ frame.items = items record.flags []) ∨
      frame.items <+: record.payload.map .data)

/-- The single changes of upkeep. -/
inductive Upkeep : Link → Link → Prop where
  /-- The device, the allocator or the accept queue answered. -/
  | host {c : Connection} {h h' : Host} (wire : h'.wire = h.wire) : Upkeep ⟨c, h⟩ ⟨c, h'⟩
  /-- A reset left for no connection. -/
  | stray {c : Connection} {h h' : Host} {frame : Frame}
      (wire : h'.wire = h.wire ++ [.stray frame]) (bare : frame.items = []) :
      Upkeep ⟨c, h⟩ ⟨c, h'⟩
  /-- Timers, peer window and addresses. -/
  | tidy {c c' : Connection} {h : Host} (core : c'.core = c.core)
      (records : c'.txHistory.map timeless = c.txHistory.map timeless) :
      Upkeep ⟨c, h⟩ ⟨c', h⟩
  /-- A retransmission or a probe. -/
  | resend {c : Connection} {h h' : Host} {frame : Frame}
      (wire : h'.wire = h.wire ++ [.again c frame]) (held : c.Holds frame) :
      Upkeep ⟨c, h⟩ ⟨c, h'⟩
  /-- A segment that occupies no sequence number. -/
  | ack {c : Connection} {h h' : Host} {frame : Frame}
      (wire : h'.wire = h.wire ++ [.first c frame]) (bare : frame.items = []) :
      Upkeep ⟨c, h⟩ ⟨c, h'⟩
  /-- The SYN of a passive open whose first attempt the device refused. -/
  | syn {c : Connection} {h h' : Host} {now : Nat} {localPort : BitVec 16}
      (opening : c.state = .synReceived)
      (unsent : ∀ record ∈ c.txHistory, record.used = true → record.flags.syn = false)
      (space : c.tcpTxHasSpace { syn := true, ack := true } 0 = true)
      (wire : h'.wire = h.wire ++
        [.first c (c.segment localPort c.localSeq { syn := true, ack := true } [])]) :
      Upkeep ⟨c, h⟩ ⟨c.transmitted now localPort { syn := true, ack := true } [], h'⟩
  /-- Our FIN. -/
  | fin {c : Connection} {h h' : Host} {now : Nat} {localPort : BitVec 16}
      (live : c.reset = false) (due : c.localWriteClosed = true → c.finPending = true)
      (space : c.tcpTxHasSpace { ack := true, fin := true } 0 = true)
      (wire : h'.wire = h.wire ++
        [.first c (c.segment localPort c.localSeq { ack := true, fin := true } [])]) :
      Upkeep ⟨c, h⟩
        ⟨(c.transmitted now localPort { ack := true, fin := true } []).finSent now, h'⟩
  /-- Our FIN has to wait for room. -/
  | deferFin {c : Connection} {h : Host} {now : Nat}
      (live : c.reset = false) (due : c.localWriteClosed = true → c.finPending = true) :
      Upkeep ⟨c, h⟩ ⟨c.finDeferred now, h⟩
  /-- The connection fails. -/
  | fail {c : Connection} {h : Host} {error : NetError} {now : Nat} :
      Upkeep ⟨c, h⟩ ⟨c.tcpFailConnection error now, h⟩
  /-- The peer acknowledges a part of what is outstanding. -/
  | acked {c : Connection} {h : Host} {ack : Seq} (sent : c.tcpAckBeyondSent ack = false) :
      Upkeep ⟨c, h⟩ ⟨c.acknowledged ack, h⟩
  /-- The peer acknowledged our FIN. -/
  | progress {c : Connection} {h : Host} {now : Nat} {ackedFin : Bool} :
      Upkeep ⟨c, h⟩ ⟨c.finAcked now ackedFin, h⟩

abbrev Upkeeps : Link → Link → Prop := Relation.ReflTransGen Upkeep

variable {h : Host} {s : Link} {c : Connection} {localPort : BitVec 16} {flags : Flags} {seq : Seq}

theorem Upkeep.touched {tick : Nat} (change : Upkeep s ⟨c, h⟩) : Upkeeps s ⟨c.touched tick, h⟩ :=
  .tail (.single change) (.tidy rfl rfl)

/-! ## What upkeep does to the core -/

def Core.unread (k : Core) : Bytes := k.rxData.drop k.rxOffset

/-- The transition of the state when our FIN is sent. -/
def Core.afterFin (k : Core) : TcpState :=
  if k.peerClosed ∨ k.state = .closeWait then .lastAck
  else if k.state = .established ∨ k.state = .synReceived then .finWait1
  else k.state

theorem Core.afterFin_cases (k : Core) :
    (k.afterFin = .lastAck ∧ (k.peerClosed = true ∨ k.state = .closeWait)) ∨
    k.afterFin = .finWait1 ∨ k.afterFin = k.state := by
  unfold Core.afterFin
  split
  next closed => exact .inl ⟨rfl, closed⟩
  split
  · exact .inr (.inl rfl)
  · exact .inr (.inr rfl)

/-- The single changes of upkeep, seen from the core. -/
inductive Core.Tends : Core → Core → Prop where
  | send {k : Core} {localSeq : Seq} : Tends k { k with localSeq := localSeq }
  | fin {k : Core} {localSeq : Seq} (live : k.reset = false)
      (due : k.localWriteClosed = true → k.finPending = true) :
      Tends k { k with
        localSeq := localSeq, finPending := false, localWriteClosed := true,
        state := k.afterFin }
  | deferFin {k : Core} (live : k.reset = false)
      (due : k.localWriteClosed = true → k.finPending = true) :
      Tends k { k with finPending := true, localWriteClosed := true }
  | fail {k : Core} :
      Tends k { k with
        reset := true, peerClosed := true, localWriteClosed := true, finPending := false }
  | finAcked {k : Core} (closing : k.state = .finWait1) :
      Tends k { k with state := if k.peerClosed then .timeWait else .finWait2 }
  | lastAcked {k : Core} (closing : k.state = .lastAck) :
      Tends k { k with
        state := .timeWait, peerClosed := true, localWriteClosed := true, finPending := false }

theorem transmitted_core (now : Nat) (localPort : BitVec 16) (flags : Flags) (p : Bytes)
    (c : Connection) :
    (c.transmitted now localPort flags p).core = { c.core with
      localSeq := c.localSeq + BitVec.ofNat 32 (tcpSequenceAdvance flags p.length) } := by
  unfold transmitted tcpRecordTx
  split <;> rfl

theorem finAcked_tends {ackedFin : Bool} : Core.Tends c.core (c.finAcked now ackedFin).core := by
  have idle : Core.Tends c.core c.core := .send
  unfold finAcked
  split
  next closing =>
    have moved := Core.Tends.finAcked (k := c.core) closing
    split
    next closed => simpa [core, closed] using moved
    next waiting => simpa [core, waiting] using moved
  next closing => exact Core.Tends.lastAcked (k := c.core) closing
  · exact idle
  · exact idle

theorem Upkeep.tends {s s' : Link} (change : Upkeep s s') :
    Core.Tends s.connection.core s'.connection.core := by
  have idle (c : Connection) : Core.Tends c.core c.core := .send
  cases change with
  | host | stray | resend | ack => exact idle _
  | tidy core => exact core ▸ idle _
  | syn =>
    exact .send
  | @fin c _ _ _ _ live due =>
    exact Core.Tends.fin (k := c.core) live due
  | deferFin live due => exact .deferFin live due
  | fail => exact .fail
  | acked => exact idle _
  | progress => exact finAcked_tends

/-! ## Programs of upkeep -/

theorem segment_items (p : Bytes) : (c.segment localPort seq flags p).items = items flags p := rfl

theorem transmitted_bare
    (bare : items flags [] = []) : c.transmitted now localPort flags [] = c := by
  have unused : tcpSequenceAdvance flags ([] : Bytes).length = 0 := by
    rw [← items_length, bare, length_nil]
  simp_all [transmitted, tcpRecordTx]

theorem transmitted_touched (now tick : Nat) (localPort : BitVec 16) (flags : Flags)
    (p : Bytes) (c : Connection) :
    (c.touched tick).transmitted now localPort flags p =
      (c.transmitted now localPort flags p).touched tick := by
  unfold transmitted tcpRecordTx
  split <;> rfl

theorem finSent_touched (tick : Nat) :
    (c.touched tick).finSent now = (c.finSent now).touched tick := rfl

theorem sendTcpSegmentAt_upkeeps {p : Bytes} (held : c.Holds (c.segment localPort seq flags p)) :
    Upkeeps ⟨c, h⟩ (sendTcpSegmentAt .again localPort seq flags p ⟨c, h⟩).2 := by
  obtain ⟨d, refused⟩ | ⟨-, d, taken⟩ :=
    sendTcpSegmentAt_cases .again localPort seq flags p c h
  · rw [refused]
    exact .single (.host rfl)
  · rw [taken]
    exact Upkeep.touched (.resend rfl held)

variable {h : Host} {f : Frame}

theorem sendTcpSegment_upkeeps {c : Connection} (bare : items flags [] = []) :
    Upkeeps ⟨c, h⟩ (sendTcpSegment localPort flags [] ⟨c, h⟩).2 := by
  obtain ⟨d, refused⟩ | ⟨-, -, d, taken⟩ := sendTcpSegment_cases localPort flags [] c h
  · rw [refused]
    exact .single (.host rfl)
  · rw [taken, transmitted_bare bare]
    exact Upkeep.touched (.ack rfl bare)

/-- Sending a segment of any kind uses sequence numbers and changes nothing else in the
core. -/
theorem sendTcpSegment_tends (localPort : BitVec 16) (flags : Flags) (p : Bytes) (s : Link) :
    Core.Tends s.connection.core (sendTcpSegment localPort flags p s).2.connection.core := by
  obtain ⟨c, h⟩ := s
  obtain ⟨d, refused⟩ | ⟨-, -, d, taken⟩ :=
    sendTcpSegment_cases localPort flags p c h
  · rw [refused]
    exact .send
  rw [taken, transmitted_touched]
  change Core.Tends c.core (c.transmitted h.now localPort flags p).core
  rw [transmitted_core]
  exact .send

theorem sendAck_upkeeps (s : Link) : Upkeeps s (sendAck s).2 := by
  have bare : items { ack := true } [] = [] := rfl
  exact sendTcpSegment_upkeeps bare

theorem sendTcpReset_upkeeps {payloadLength : Nat} :
    Upkeeps s (sendTcpReset f payloadLength s).2 := by
  simp only [sendTcpReset, Host.sendTcpReset, exec]
  split
  · exact .refl
  obtain ⟨d, refused⟩ | ⟨d, taken⟩ :=
    s.host.netDeviceSend_cases (.stray (resetFor f payloadLength))
  · rw [refused]
    exact .single (.host rfl)
  · rw [taken]
    exact .single (.stray rfl rfl)

theorem tcpSendFin_upkeeps (s : Link) : Upkeeps s (tcpSendFin s).2 := by
  obtain ⟨c, h⟩ := s
  simp only [tcpSendFin, connection, updateNow, exec]
  split
  · exact .refl
  rename_i live
  split
  · exact .refl
  rename_i due
  have live : c.reset = false := by simpa using live
  have due : c.localWriteClosed = true → c.finPending = true := by
    intro closed
    by_contra idle
    exact due ⟨closed, by simpa using idle⟩
  split
  · exact .single (.deferFin live due)
  rename_i space
  obtain ⟨d, refused⟩ | ⟨-, -, d, taken⟩ :=
    sendTcpSegment_cases c.localPort { ack := true, fin := true } [] c h
  · simp only [refused]
    exact .single (.host rfl)
  simp only [taken, transmitted_touched, finSent_touched]
  have space : c.tcpTxHasSpace { ack := true, fin := true } 0 = true := by simpa using space
  exact Upkeep.touched (.fin live due space rfl)

theorem tcpAckTxRecords_upkeeps (ack : Seq) (s : Link) : Upkeeps s (tcpAckTxRecords ack s).2 := by
  obtain ⟨c, h⟩ := s
  simp only [tcpAckTxRecords, connection, exec]
  split
  · exact .refl
  rename_i sent
  have trimmed : Upkeeps ⟨c, h⟩ ⟨c.acknowledged ack, h⟩ := .single (.acked (by simpa using sent))
  refine trimmed.trans ?_
  split
  · have fin := tcpSendFin_upkeeps ⟨c.acknowledged ack, h⟩
    split
    · exact fin
    · exact fin.trans (.single .fail)
  · exact .refl

/-! ## The peer window -/

theorem tcpSetPeerWindow_upkeep {now w : Nat} : Upkeep ⟨c, h⟩ ⟨c.tcpSetPeerWindow now w, h⟩ := by
  unfold tcpSetPeerWindow
  split
  · exact .tidy rfl rfl
  refine .tidy rfl ?_
  split
  · rw [map_map]
    refine map_congr_left fun r _ => ?_
    simp only [Function.comp]
    split <;> rfl
  · rfl

theorem tcpSetPeerWindow_core (now w : Nat) (c : Connection) :
    (c.tcpSetPeerWindow now w).core = c.core := by
  unfold tcpSetPeerWindow
  split <;> rfl

theorem tcpUpdatePeerWindow_core (ack : Seq) (w : Nat) :
    (c.tcpUpdatePeerWindow now seq ack w).core = c.core := by
  unfold tcpUpdatePeerWindow
  split
  · rfl
  split
  · rfl
  · exact tcpSetPeerWindow_core now w _

theorem tcpUpdatePeerWindow_upkeeps (now : Nat) (seq ack : Seq) (w : Nat) (c : Connection)
    (h : Host) : Upkeeps ⟨c, h⟩ ⟨c.tcpUpdatePeerWindow now seq ack w, h⟩ := by
  unfold tcpUpdatePeerWindow
  split
  · exact .refl
  split
  · exact .refl
  have noted : Upkeep ⟨c, h⟩
      ⟨{ c with peerWindowValid := true, peerWindowSeq := seq, peerWindowAck := ack }, h⟩ :=
    .tidy rfl rfl
  exact .tail (.tail (.single noted) tcpSetPeerWindow_upkeep) (.tidy rfl rfl)

theorem tcpHandleAck_upkeeps (ack : Seq) : Upkeeps s (tcpHandleAck ack s).2 := by
  obtain ⟨c, h⟩ := s
  simp only [tcpHandleAck, exec]
  split
  · exact .refl
  · exact (tcpAckTxRecords_upkeeps ack ⟨c, h⟩).trans (.single .progress)

/-! ## Timers -/

theorem getD_used_mem {records : List TxRecord} {k : Nat}
    (used : (records.getD k {}).used = true) : records.getD k {} ∈ records := by
  by_cases inside : k < records.length
  · rw [getD_eq_getElem _ _ inside]
    exact getElem_mem inside
  · rw [getD_eq_default _ _ (Nat.le_of_not_lt inside)] at used
    cases used

theorem rearm_upkeep {now k : Nat} : Upkeep ⟨c, h⟩ ⟨c.rearm now k, h⟩ := by
  refine .tidy rfl ?_
  unfold rearm
  rw [map_set]
  by_cases inside : k < c.txHistory.length
  · rw [getD_eq_getElem _ _ inside]
    have bound : k < (c.txHistory.map timeless).length := by simpa using inside
    have same (retries deadline : Nat) :
        timeless { c.txHistory[k] with retries := retries, deadline := deadline } =
          (c.txHistory.map timeless)[k] := by
      simp [timeless]
    rw [same, set_getElem_self]
  · rw [set_eq_of_length_le]
    simpa using Nat.le_of_not_lt inside

theorem retransmitFrom_upkeeps {slots : List Nat} : Upkeeps s (retransmitFrom now slots s).2 := by
  induction slots generalizing s with
  | nil => exact .refl
  | cons k later ih =>
    obtain ⟨c, h⟩ := s
    simp only [retransmitFrom, connection, exec]
    split
    · exact ih
    rename_i due
    split
    · exact .single .fail
    have used : (c.txHistory.getD k {}).used = true := by
      by_contra idle
      exact due (.inl (by simpa using idle))
    have held : c.Holds (c.segment (c.txHistory.getD k {}).localPort
        (c.txHistory.getD k {}).seq (c.txHistory.getD k {}).flags
        (c.txHistory.getD k {}).payload) :=
      Or.inr ⟨_, getD_used_mem used, used, rfl, .inl rfl⟩
    have sent := sendTcpSegmentAt_upkeeps (h := h) held
    exact (sent.tail rearm_upkeep).trans ih

theorem tcpRetransmitDue_upkeeps (s : Link) : Upkeeps s (tcpRetransmitDue s).2 := by
  simp only [tcpRetransmitDue, exec]
  split
  · exact .refl
  split
  · exact .refl
  · exact retransmitFrom_upkeeps

theorem sendProbe_upkeeps : Upkeeps s (sendProbe s).2 := by
  obtain ⟨c, h⟩ := s
  simp only [sendProbe, connection, exec]
  cases found : c.probed with
  | none => exact sendTcpSegmentAt_upkeeps (.inl rfl)
  | some r =>
    have facts := find?_some found
    simp only [Bool.and_eq_true, decide_eq_true_eq] at facts
    obtain ⟨⟨used, first⟩, -⟩ := facts
    refine sendTcpSegmentAt_upkeeps (.inr ⟨r, mem_of_find?_eq_some found, used,
      first.symm, .inr (.inr ?_)⟩)
    have shown : (c.segment c.localPort c.una { ack := true } (r.payload.take 1)).items =
        (r.payload.take 1).map .data := by
      simp [segment_items, items]
    rw [shown, map_take]
    exact take_prefix _ _

theorem tcpZeroWindowProbeDue_upkeeps (s : Link) : Upkeeps s (tcpZeroWindowProbeDue s).2 := by
  obtain ⟨c, h⟩ := s
  simp only [tcpZeroWindowProbeDue, exec]
  split
  · exact .refl
  split
  · exact .single .fail
  · exact sendProbe_upkeeps.trans (.single (.tidy rfl rfl))

theorem tcpIdleCleanupDue_upkeeps (s : Link) : Upkeeps s (tcpIdleCleanupDue s).2 := by
  simp only [tcpIdleCleanupDue, updateNow, exec]
  split
  · exact .refl
  · exact .single .fail

/-! ## A repeated SYN -/

theorem handleKnownSyn_upkeeps (s : Link) : Upkeeps s (handleKnownSyn f s).2 := by
  obtain ⟨c, h⟩ := s
  simp only [handleKnownSyn, connection, exec]
  split
  next opening =>
    cases found : c.txHistory.find? fun r => r.used && r.flags.syn with
    | some r =>
      have facts := find?_some found
      simp only [Bool.and_eq_true] at facts
      exact sendTcpSegmentAt_upkeeps (.inr ⟨r, mem_of_find?_eq_some found, facts.1,
        rfl, .inr (.inl ⟨facts.2, rfl⟩)⟩)
    | none =>
      have unsent : ∀ r ∈ c.txHistory, r.used = true → r.flags.syn = false := by
        intro r member used
        have other := find?_eq_none.mp found r member
        simpa [used] using other
      obtain ⟨d, refused⟩ | ⟨space, -, d, taken⟩ :=
        sendTcpSegment_cases c.localPort { syn := true, ack := true } [] c h
      · simp only [exec, refused]
        exact .single (.host rfl)
      · simp only [exec, taken, transmitted_touched]
        exact Upkeep.touched (.syn opening.1 unsent space rfl)
  · exact sendAck_upkeeps _

/-! ## Entry points -/

theorem ensurePendingConnection_upkeeps {i : Nat} {port : BitVec 16} :
    Upkeeps s (ensurePendingConnection i port s).2 := by
  obtain ⟨c, h⟩ := s
  simp only [ensurePendingConnection, exec]
  split
  · exact .refl
  unfold enqueuePending
  split
  · exact .refl
  have marked : Upkeep ⟨c, h⟩ ⟨{ c with pending := true }, h⟩ := .tidy rfl rfl
  exact .tail (.single marked) (.host rfl)

theorem appendConnectionData_cases {p : Bytes} :
    appendConnectionData p ⟨c, h⟩ = (false, ⟨c, h⟩) ∨
    (∃ memory, appendConnectionData p ⟨c, h⟩ =
      (false, ⟨c.compacted, { h with memory := memory }⟩)) ∨
    (∃ rxCapacity memory, appendConnectionData p ⟨c, h⟩ =
      (true, ⟨c.compacted.stored p rxCapacity, { h with memory := memory }⟩)) := by
  unfold appendConnectionData
  split
  · exact .inl rfl
  simp only [exec]
  split
  · exact .inr (.inl ⟨h.memory, rfl⟩)
  split
  · obtain ⟨now, d, memory, wire, pendingRequests⟩ := h
    rcases memory with _ | ⟨_ | _, later⟩
    · exact .inr (.inr ⟨_, _, rfl⟩)
    · exact .inr (.inl ⟨later, rfl⟩)
    · exact .inr (.inr ⟨_, _, rfl⟩)
  · exact .inr (.inr ⟨c.rxCapacity, h.memory, rfl⟩)

theorem completeHandshake_cases (i : Nat) (f : Frame) (p : Bytes) (c : Connection) (h : Host) :
    (c.state ≠ .synReceived ∧ completeHandshake i f seq p ⟨c, h⟩ = (true, ⟨c, h⟩)) ∨
    ((completeHandshake i f seq p ⟨c, h⟩).1 = true ∧
      Upkeeps ⟨c.establish, h⟩ (completeHandshake i f seq p ⟨c, h⟩).2) ∨
    ((completeHandshake i f seq p ⟨c, h⟩).1 = false ∧
      Upkeeps ⟨c, h⟩ (completeHandshake i f seq p ⟨c, h⟩).2) ∨
    (c.state = .synReceived ∧ ∃ s, Upkeeps ⟨c.establish, h⟩ s ∧
      completeHandshake i f seq p ⟨c, h⟩ = (false, (closeConnection s).2)) := by
  simp only [completeHandshake, connection, exec]
  by_cases opening : c.state = .synReceived
  · rw [if_neg (by simpa using opening)]
    by_cases next : seq = c.remoteNext
    · rw [if_neg (by simpa using next)]
      split
      · exact .inr (.inr (.inl ⟨rfl, sendTcpReset_upkeeps⟩))
      split
      · exact .inr (.inl ⟨rfl, ensurePendingConnection_upkeeps⟩)
      exact .inr (.inr (.inr
        ⟨opening, _, ensurePendingConnection_upkeeps.trans sendTcpReset_upkeeps, rfl⟩))
    · rw [if_pos (by simpa using next)]
      exact .inr (.inr (.inl ⟨rfl, sendAck_upkeeps _⟩))
  · rw [if_pos (by simpa using opening)]
    exact .inl ⟨opening, rfl⟩

end SrvrOS.Net
