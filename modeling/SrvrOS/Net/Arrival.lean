import SrvrOS.Net.Readiness

/-!
# Data after a read shutdown

`handle_tcp` has a branch that discards the data of a connection whose read side is shut and
still acknowledges it. The branch stands behind the test of the receive window, which is
zero then: only a segment that brings no new data is taken.
-/

namespace SrvrOS.Net

open Lib Prog Connection Sockets

variable {s s' : Link} {c : Connection} {h : Host} {f : Frame} {payload : Bytes} {i : Nat}

namespace Connection

/-- An established connection whose read side is shut meets a segment in order. -/
structure MeetsShut (c : Connection) (frame : Frame) (payload : Bytes) : Prop where
  established : c.state = .established
  shut : c.localReadClosed = true
  waiting : c.peerClosed = false
  acknowledges : frame.flags.ack = true
  sent : c.tcpAckBeyondSent frame.ack = false
  part : trimDuplicate c.remoteNext frame = some (c.remoteNext, payload)
  size : frame.payload.length ≤ netConnectionRxMaxSize

/-- The segment is consumed, and nothing of it is stored. -/
structure Discards (c : Connection) (frame : Frame) (payload : Bytes) (c' : Connection) :
    Prop where
  next : c'.remoteNext =
    c.remoteNext + BitVec.ofNat 32 (tcpReceiveAdvance frame.flags payload.length)
  buffer : c'.rxData = c.rxData
  closed : frame.flags.fin = true → c'.peerClosed = true

theorem MeetsShut.length_le (meets : c.MeetsShut f payload) :
    payload.length ≤ netConnectionRxMaxSize := by
  have part := meets.part
  simp only [trimDuplicate] at part
  have size := meets.size
  split at part
  · split at part
    · cases part
    cases (Prod.mk.inj (Option.some.inj part)).2
    simp only [List.length_drop]
    omega
  · cases (Prod.mk.inj (Option.some.inj part)).2
    exact size

theorem MeetsShut.window (meets : c.MeetsShut f payload) : c.tcpReceiveWindow = 0 :=
  if_pos (.inl meets.shut)

end Connection

theorem Upkeeps.received (change : Upkeeps s s') :
    s'.connection.remoteNext = s.connection.remoteNext ∧
      s'.connection.rxData = s.connection.rxData := by
  refine ⟨change.remoteNext, ?_⟩
  induction change with
  | refl => rfl
  | tail _ last ih => exact last.tends.same.2.2.trans ih

theorem handleSegment_refuses (meets : c.MeetsShut f payload) (carries : payload ≠ []) :
    handleSegment i f ⟨c, h⟩ = sendAck ⟨c, h⟩ := by
  have refused : c.acceptable f.flags c.remoteNext payload = false := by
    simp [acceptable, tcpReceiveAdvance, meets.window, carries]
  simp [handleSegment, handleTrimmed, connection, meets.established, meets.acknowledges, meets.part,
    refused]

theorem finReceived_received {now : Nat} {c : Connection} :
    (c.finReceived now).remoteNext = c.remoteNext ∧ (c.finReceived now).rxData = c.rxData ∧
      (c.peerClosed = true → (c.finReceived now).peerClosed = true) := by
  unfold finReceived
  split <;> exact ⟨rfl, rfl, by simp [tcpEnterTimeWait]⟩

theorem handleSegment_takes (meets : c.MeetsShut f []) :
    c.Discards f [] (handleSegment i f ⟨c, h⟩).2.connection := by
  have acceptable : c.acceptable f.flags c.remoteNext [] = true := by
    simp [acceptable, meets.waiting]
  have taken : handleSegment i f ⟨c, h⟩ =
      processSegment f c.remoteNext [] ⟨c, h⟩ := by
    simp [handleSegment, handleTrimmed, completeHandshake, connection, meets.established,
      meets.acknowledges, meets.part, acceptable, meets.sent]
  rw [taken]
  simp only [processSegment, update, updateNow, exec]
  have moved : Upkeeps ⟨c, h⟩ ⟨(c.readdress f.mac).touched h.now, h⟩ := .single (.tidy rfl rfl)
  have acked : Upkeeps ⟨c, h⟩ _ := (moved.trans (tcpUpdatePeerWindow_upkeeps h.now f.seq
    f.ack f.window _ h)).trans (tcpHandleAck_upkeeps f.ack)
  have before := acked.received
  generalize (tcpHandleAck f.ack _).2 = m at before ⊢
  simp only [deliver, connection, exec, ne_eq, not_true_eq_false, and_false, if_false]
  split
  next fin =>
    simp only [consumeSegment, tcpHandleFin, update, updateNow, exec, fin, if_true]
    generalize expected : c.remoteNext + BitVec.ofNat 32 _ = next
    have answered := sendAck_upkeeps ⟨(m.connection.expect next).hangUp, m.host⟩
    have after := answered.received
    have closed := answered.peerClosed rfl
    obtain ⟨same, buffer, kept⟩ := finReceived_received
    exact ⟨(same.trans after.1).trans expected.symm, (buffer.trans after.2).trans before.2,
      fun _ => kept closed⟩
  next plain =>
    refine ⟨?_, before.2, fun fin => absurd fin plain⟩
    simp [tcpReceiveAdvance, plain, before.1]

/-- Where the read side is shut, a segment in order is discarded and acknowledged exactly when it
brings no new data. -/
theorem handleTcp_discards_iff (net : Sockets) (index : Nat) (frame : Frame) (payload : Bytes)
    (found : net.findConnection frame.dstPort frame.ip frame.srcPort = some index)
    (sound : (tcpParseOptions frame.flags frame.options).isSome = true)
    (plain : frame.flags.rst = false ∧ frame.flags.syn = false)
    (meets : (net.slot index).MeetsShut frame payload) :
    (net.slot index).Discards frame payload ((handleTcp frame net).2.slot index) ↔
      payload = [] := by
  obtain ⟨inside, -⟩ := List.findIdx?_eq_some_iff_getElem.mp found
  obtain ⟨peerMss, parsed⟩ := Option.isSome_iff_exists.mp sound
  have slot : (handleTcp frame net).2.slot index =
      (handleSegment index frame ⟨net.slot index, net.host⟩).2.connection := by
    simp [handleTcp, parsed, plain, found, onSlot, slot, inside]
  rw [slot]
  constructor
  · intro discards
    by_contra carries
    have next := discards.next
    rw [handleSegment_refuses meets carries, (sendAck_upkeeps _).received.1] at next
    have bytes := List.length_pos_of_ne_nil carries
    have size := meets.length_le
    have zero : BitVec.ofNat 32 (tcpReceiveAdvance frame.flags payload.length) = 0 := by
      simpa using next.symm
    have zero := congrArg BitVec.toNat zero
    simp only [tcpReceiveAdvance, netConnectionRxMaxSize] at zero size
    split at zero <;> simp at zero <;> omega
  · rintro rfl
    exact handleSegment_takes meets

/-- A segment of a server that a client has connected to. -/
def serverSegment (seq : Seq) (flags : Flags) (payload : Bytes) : Frame where
  mac := 7
  ip := 9
  srcPort := 80
  dstPort := 49152
  seq := seq
  ack := 0x6372c001
  flags := flags
  window := 4096
  options := []
  payload := payload

/-- The client shuts its read side right after the handshake. -/
def shutClient : Sockets := after {}
  [.connect 1 9 80 (some 7), .receive (serverSegment 100 { syn := true, ack := true } []),
    .shutdown (.connection 1) .read]

/-- The server's FIN is consumed. -/
theorem handleTcp_discards_fin :
    (shutClient.slot 0).Discards (serverSegment 101 { ack := true, fin := true } []) []
      ((handleTcp (serverSegment 101 { ack := true, fin := true } []) shutClient).2.slot
        0) :=
  (handleTcp_discards_iff shutClient 0 (serverSegment 101 { ack := true, fin := true } []) []
    (by decide +kernel) (by decide +kernel) (by decide +kernel)
    (by constructor <;> decide +kernel)).mpr rfl

/-- A byte of the server is not. -/
theorem shutClient_refuses_byte :
    shutClient.findConnection 49152 9 80 = some 0 ∧
    (shutClient.slot 0).MeetsShut (serverSegment 101 { ack := true } [65]) [65] ∧
    ¬(shutClient.slot 0).Discards (serverSegment 101 { ack := true } [65]) [65]
      ((handleTcp (serverSegment 101 { ack := true } [65]) shutClient).2.slot 0) := by
  refine ⟨by decide +kernel, by constructor <;> decide +kernel, fun discards => ?_⟩
  exact absurd discards.next (by decide +kernel)

end SrvrOS.Net
