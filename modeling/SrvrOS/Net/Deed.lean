import SrvrOS.Lib.Chain
import SrvrOS.Net.Upkeep

/-!
# What the programs of a slot do

To `Upkeep` the entry points add what a segment brings and what a socket call asks for. `Deed`
lists these changes, with the bytes handed to a reader; every program of a slot is a chain of them,
perhaps with `close_connection` at its end.
-/

namespace SrvrOS.Net

open Lib Prog Connection

variable {h : Host} {segment : Frame} {p : Bytes} {seq next : Seq} {fin : Bool}

/-! ## The invariant of a slot -/

namespace Core

/-- The states of a connection whose peer sent a FIN, unless it failed. -/
def Finished (k : Core) : Prop :=
  k.state = .closeWait ∨ k.state = .lastAck ∨ k.state = .timeWait ∨ k.state = .closed

/-- The states before a connection is established. -/
def Opening (k : Core) : Prop := k.state = .synSent ∨ k.state = .synReceived

/-- How the flags of a slot depend on its state. -/
structure Sane (k : Core) : Prop where
  blank : k.state = .empty → k.rxData = [] ∧ k.rxOffset = 0
  failed : k.reset = true → k.peerClosed = true
  opening : k.Opening → k.reset = false →
    k.unread = [] ∧ k.peerClosed = false ∧ k.localReadClosed = false
  finished : k.Finished → k.peerClosed = true

/-- A connection that takes in new data, or failed while it handled a segment. -/
def Receiving (k : Core) : Prop :=
  (k.state = .established ∨ k.state = .finWait1 ∨ k.state = .finWait2 ∨ k.state = .timeWait) ∧
    (k.peerClosed = false ∨ k.reset = true)

variable {k k' : Core}

section

variable (change : Tends k k')

include change

theorem Tends.sane (sane : k.Sane) : k'.Sane := by
  obtain ⟨blank, failed, opening, finished⟩ := sane
  cases change with
  | send => exact ⟨blank, failed, opening, finished⟩
  | fin live due =>
    obtain ⟨state, closed⟩ | state | state := k.afterFin_cases
    · have closed : k.peerClosed = true := by
        rcases closed with closed | waiting
        · exact closed
        · exact finished (.inl waiting)
      constructor <;> simp [Opening, state, closed]
    · constructor <;> simp [Opening, Finished, state, live]
    · rw [state]
      exact ⟨blank, failed, opening, finished⟩
  | deferFin => exact ⟨blank, failed, opening, finished⟩
  | fail => exact ⟨blank, fun _ => rfl, nofun, fun _ => rfl⟩
  | finAcked closing =>
    refine ⟨?_, failed, ?_, ?_⟩
    · split <;> simp
    · dsimp only [Opening]
      split <;> simp
    dsimp only [Finished]
    split
    next closed => exact fun _ => closed
    · simp
  | lastAcked closing => constructor <;> simp [Opening]

theorem Tends.past (past : ¬k.Opening) : ¬k'.Opening := by
  cases change with
  | send | deferFin | fail => exact past
  | fin =>
    obtain ⟨state, -⟩ | state | state := k.afterFin_cases
    · simp [Opening, state]
    · simp [Opening, state]
    · simpa [Opening, state] using past
  | finAcked closing =>
    dsimp only [Opening]
    split <;> simp
  | lastAcked closing => simp [Opening]

theorem Tends.peerClosed (closed : k.peerClosed = true) : k'.peerClosed = true := by
  cases change with
  | send | deferFin | fin | finAcked => exact closed
  | fail | lastAcked => rfl

theorem Tends.full (full : k.state ≠ .empty) : k'.state ≠ .empty := by
  cases change with
  | send | deferFin | fail => exact full
  | fin =>
    obtain ⟨state, -⟩ | state | state := k.afterFin_cases
    · simp [state]
    · simp [state]
    · simpa [state] using full
  | finAcked =>
    split <;> simp
  | lastAcked => simp

theorem Tends.receiving (receiving : k.Receiving) : k'.Receiving := by
  obtain ⟨state, waiting⟩ := receiving
  cases change with
  | send | deferFin => exact ⟨state, waiting⟩
  | fin live =>
    have waiting : k.peerClosed = false := by simpa [live] using waiting
    obtain ⟨-, closed⟩ | after | after := k.afterFin_cases
    · rcases closed with closed | closeWait
      · exact absurd closed (by simp [waiting])
      · simp [closeWait] at state
    · exact ⟨.inr (.inl after), .inl waiting⟩
    · exact ⟨by rwa [after], .inl waiting⟩
  | fail => exact ⟨state, .inr rfl⟩
  | finAcked =>
    refine ⟨?_, waiting⟩
    split <;> simp
  | lastAcked closing => simp [closing] at state

theorem Tends.same : k'.remoteNext = k.remoteNext ∧ k'.refs = k.refs ∧ k'.rxData = k.rxData := by
  cases change <;> exact ⟨rfl, rfl, rfl⟩

end

theorem Receiving.past (receiving : k.Receiving) : ¬k.Opening := by
  obtain ⟨state, -⟩ := receiving
  rcases state with state | state | state | state <;> simp [Opening, state]

theorem Receiving.full (receiving : k.Receiving) : k.state ≠ .empty := by
  obtain ⟨state, -⟩ := receiving
  rcases state with state | state | state | state <;> simp [state]

end Core

variable {s s' : Link}

theorem Upkeeps.keeps {holds : Core → Prop} (step : ∀ k k', Core.Tends k k' → holds k → holds k')
    (change : Upkeeps s s') (start : holds s.connection.core) : holds s'.connection.core := by
  induction change with
  | refl => exact start
  | tail _ last ih => exact step _ _ last.tends ih

theorem Upkeeps.full (change : Upkeeps s s')
    (full : s.connection.core.state ≠ .empty) : s'.connection.core.state ≠ .empty :=
  change.keeps (fun _ _ step => step.full) full

section

variable {s s' : Link} (change : Upkeeps s s')

include change

theorem Upkeeps.receiving
    (receiving : s.connection.core.Receiving) : s'.connection.core.Receiving :=
  change.keeps (fun _ _ step => step.receiving) receiving

theorem Upkeeps.peerClosed
    (closed : s.connection.core.peerClosed = true) : s'.connection.core.peerClosed = true :=
  change.keeps (fun _ _ step => step.peerClosed) closed

theorem Upkeeps.remoteNext : s'.connection.core.remoteNext = s.connection.core.remoteNext := by
  induction change with
  | refl => rfl
  | tail _ last ih => exact last.tends.same.1.trans ih

theorem Upkeeps.refs : s'.connection.core.refs = s.connection.core.refs := by
  induction change with
  | refl => rfl
  | tail _ last ih => exact last.tends.same.2.1.trans ih

end

/-! ## Deeds -/

namespace Connection

/-- The receive buffer after some payload was taken in. -/
def buffered (payload : Bytes) (rxCapacity : Nat) (c : Connection) : Connection :=
  if c.localReadClosed ∨ payload = [] then c else c.compacted.stored payload rxCapacity

/-- A segment is consumed up to `next`, and the FIN at its end. -/
def consumed (fin : Bool) (next : Seq) (c : Connection) : Connection :=
  if fin then (c.expect next).hangUp else c.expect next

end Connection

/-- The single changes a program of a slot makes, each with the bytes it hands to a reader. -/
inductive Deed (frame : Option Frame) : Link → Bytes → Link → Prop where
  | upkeep {s s' : Link} (change : Upkeep s s') : Deed frame s [] s'
  /-- `net_respond` sends. -/
  | data {c : Connection} {h h' : Host} {now : Nat} {localPort : BitVec 16} {payload : Bytes}
      (opened : tcpStateCanWrite c.state = true) (unshut : c.localWriteClosed = false)
      (live : c.reset = false)
      (space : c.tcpTxHasSpace { ack := true, psh := true } payload.length = true)
      (limit : payload.length ≤ c.tcpPayloadLimit)
      (wire : h'.wire = h.wire ++
        [.first c (c.segment localPort c.localSeq { ack := true, psh := true } payload)]) :
      Deed frame ⟨c, h⟩ [] ⟨c.transmitted now localPort { ack := true, psh := true } payload, h'⟩
  /-- The SYN of the peer. -/
  | synchronise {c : Connection} {h : Host} {syn : Frame} (peerMss : Nat)
      (offered : frame = some syn) (flag : syn.flags.syn = true) (opening : c.core.Opening) :
      Deed frame ⟨c, h⟩ [] ⟨c.synchronise syn peerMss, h⟩
  /-- The end of the handshake. -/
  | establish {c : Connection} {h : Host} (full : c.state ≠ .empty) :
      Deed frame ⟨c, h⟩ [] ⟨c.establish, h⟩
  /-- The part of a segment that was not received before. -/
  | take {c : Connection} {h : Host} {segment : Frame} {payload : Bytes} (rxCapacity : Nat)
      (offered : frame = some segment)
      (part : trimDuplicate c.remoteNext segment = some (c.remoteNext, payload))
      (receiving : c.core.Receiving) :
      Deed frame ⟨c, h⟩ []
        ⟨(c.buffered payload rxCapacity).consumed segment.flags.fin (c.remoteNext +
          BitVec.ofNat 32 (tcpReceiveAdvance segment.flags payload.length)), h⟩
  /-- The transition on a FIN. -/
  | finReceived {c : Connection} {h : Host} {now : Nat} (closed : c.peerClosed = true) :
      Deed frame ⟨c, h⟩ [] ⟨c.finReceived now, h⟩
  /-- A buffer that has no room for a segment. -/
  | compact {c : Connection} {h : Host} : Deed frame ⟨c, h⟩ [] ⟨c.compacted, h⟩
  /-- Bytes for a reader. -/
  | handOut {c : Connection} {h : Host} (limit : Nat) :
      Deed frame ⟨c, h⟩ (c.unread.take limit) ⟨c.handOut (min limit c.unread.length), h⟩
  /-- The reader wants no more. -/
  | shutRead {c : Connection} {h : Host} (receiving : tcpStateCanRead c.state = true) :
      Deed frame ⟨c, h⟩ [] ⟨c.shutRead, h⟩
  /-- References and owner. -/
  | refer {c c' : Connection} {h : Host} (core : c'.core = { c.core with refs := c'.refs })
      (held : c.refs ≠ 0 → c'.refs ≠ 0) (records : c'.txHistory = c.txHistory) :
      Deed frame ⟨c, h⟩ [] ⟨c', h⟩
  /-- The protocol is over, and the descriptor remains. -/
  | retire {c : Connection} {h : Host} (ended : c.reset = true ∨ c.state = .timeWait) :
      Deed frame ⟨c, h⟩ [] ⟨c.retired, h⟩

abbrev Deeds (frame : Option Frame) : Link → Bytes → Link → Prop := Chain (Deed frame)

/-- A program of a slot: deeds, and the end of the connection if nobody refers to it or its
handshake was not complete. -/
inductive Course (frame : Option Frame) : Link → Bytes → Link → Prop where
  | deeds {s s' : Link} {read : Bytes} (chain : Deeds frame s read s') : Course frame s read s'
  | closed {s s' : Link} {read : Bytes} (chain : Deeds frame s read s')
      (unused : s'.connection.refs = 0 ∨ s.connection.core.Opening) :
      Course frame s read (closeConnection s').2

variable {f : Option Frame} {s s' m : Link} {read : Bytes}

theorem Upkeeps.deeds (change : Upkeeps s s') : Deeds f s [] s' := Chain.of_quiet .upkeep change

theorem Upkeeps.course (change : Upkeeps s s') : Course f s [] s' := .deeds change.deeds

/-! ## Timers -/

variable {s : Link}

theorem tcpExpireConnection_course : Course f s [] (tcpExpireConnection s).2 := by
  obtain ⟨c, h⟩ := s
  simp only [tcpExpireConnection, connection, updateNow, exec]
  split
  next unused => exact .closed .refl (.inl unused)
  unfold expired
  split
  · have failed : Upkeeps ⟨c, h⟩ ⟨c.tcpFailConnection .timedOut h.now, h⟩ := .single .fail
    exact .deeds (failed.deeds.after_quiet (.single (.retire (.inl rfl))))
  rename_i ended
  refine .deeds (.single (.retire ?_))
  by_contra live
  push Not at live
  exact ended ⟨by simpa using live.1, live.2⟩

theorem tcpReapExpiredTimeWait_course (s : Link) : Course f s [] (tcpReapExpiredTimeWait s).2 := by
  simp only [tcpReapExpiredTimeWait, exec]
  split
  · exact tcpExpireConnection_course
  · exact .deeds .refl

theorem expireDue_course (s : Link) : Course f s [] (expireDue s).2 := by
  simp only [expireDue, exec]
  split
  · exact tcpExpireConnection_course
  · exact .deeds .refl

/-! ## Segments -/

theorem handleReset_course {segment : Frame} (s : Link) :
    Course f s [] (handleReset segment s).2 := by
  obtain ⟨c, h⟩ := s
  have idle : Course f ⟨c, h⟩ [] ⟨c, h⟩ := .deeds .refl
  have acked : Course f ⟨c, h⟩ [] (sendAck ⟨c, h⟩).2 := (sendAck_upkeeps _).course
  have failed (error : NetError) : Course f ⟨c, h⟩ [] ⟨c.tcpFailConnection error h.now, h⟩ :=
    Upkeeps.course (.single .fail)
  have closed (unused : c.refs = 0) : Course f ⟨c, h⟩ [] (closeConnection ⟨c, h⟩).2 :=
    .closed .refl (.inl unused)
  simp only [handleReset, connection, updateNow, exec]
  repeat' split
  all_goals first
    | exact idle
    | exact acked
    | exact failed _
    | exact closed ‹_›

theorem handleSynAck_deeds {syn : Frame} (flag : syn.flags.syn = true) (peerMss : Nat)
    (opening : s.connection.state = .synSent) :
    Deeds (some syn) s [] (handleSynAck syn peerMss s).2 := by
  obtain ⟨c, h⟩ := s
  simp only [handleSynAck, connection, update, updateNow, exec]
  split
  · exact sendTcpReset_upkeeps.deeds
  have moved : Upkeeps ⟨c, h⟩ ⟨c.readdress syn.mac, h⟩ := .single (.tidy rfl rfl)
  have w := moved.trans
    (tcpUpdatePeerWindow_upkeeps h.now syn.seq syn.ack syn.window (c.readdress syn.mac) h)
  have state : ((c.readdress syn.mac).tcpUpdatePeerWindow h.now syn.seq syn.ack
      syn.window).core.state = .synSent := by
    rw [tcpUpdatePeerWindow_core]
    exact opening
  generalize (c.readdress syn.mac).tcpUpdatePeerWindow h.now syn.seq syn.ack
    syn.window = known at w state ⊢
  have acked := tcpAckTxRecords_upkeeps syn.ack ⟨known.synchronise syn peerMss, h⟩
  have full := acked.full (by simp [synchronise, core, show
        known.state = .synSent from state])
  have synchronised :=
    (Upkeeps.deeds w).after_quiet (.single (.synchronise peerMss rfl flag (.inl state)))
  exact synchronised.after_quiet (acked.deeds.after_quiet
    (.after_quiet (.single (.establish full)) (sendAck_upkeeps _).deeds))

/-! ### Data -/

variable {c : Connection}

theorem consumeSegment_deeds (rxCapacity : Nat)
    (part : trimDuplicate c.remoteNext segment = some (c.remoteNext, p))
    (receiving : c.core.Receiving) :
    Deeds (some segment) ⟨c, h⟩ [] (consumeSegment segment.flags (c.remoteNext +
      BitVec.ofNat 32 (tcpReceiveAdvance segment.flags p.length))
      ⟨c.buffered p rxCapacity, h⟩).2 := by
  have taken := Chain.single (Deed.take (h := h) rxCapacity rfl part receiving)
  simp only [consumeSegment, exec]
  unfold consumed at taken
  split
  next fin =>
    rw [if_pos fin] at taken
    have acked := sendAck_upkeeps ⟨((c.buffered p rxCapacity).expect (c.remoteNext +
      BitVec.ofNat 32 (tcpReceiveAdvance segment.flags p.length))).hangUp, h⟩
    exact taken.after_quiet (acked.deeds.after_quiet
      (.single (.finReceived (acked.peerClosed rfl))))
  next fin =>
    rw [if_neg fin] at taken
    exact taken.after_quiet (sendAck_upkeeps _).deeds

variable {rxCapacity : Nat}

theorem buffered_idle (idle : c.localReadClosed = true ∨ p = []) : c.buffered p rxCapacity = c :=
  if_pos (by simpa using idle)

theorem buffered_stored (reading : c.localReadClosed = false) (some : p ≠ []) :
    c.buffered p rxCapacity = c.compacted.stored p rxCapacity :=
  if_neg (by simp [reading, some])

theorem canRead_of_receiving (receiving : c.core.Receiving) : tcpStateCanRead c.state = true := by
  have state := receiving.1
  simp only [core] at state
  rcases state with state | state | state | state <;> rw [state] <;> rfl

theorem deliver_deeds (part : trimDuplicate c.remoteNext segment = some (c.remoteNext, p))
    (receiving : c.core.Receiving) :
    Deeds (some segment) ⟨c, h⟩ [] (deliver segment.flags c.remoteNext p ⟨c, h⟩).2 := by
  have canRead := canRead_of_receiving receiving
  simp only [deliver, connection, exec]
  split
  next carrying =>
    split
    next shut =>
      have consumed := consumeSegment_deeds (h := h) 0 part receiving
      rwa [buffered_idle (.inl shut)] at consumed
    rename_i reading
    have reading : c.localReadClosed = false := by simpa using reading
    obtain refused | ⟨memory, refused⟩ | ⟨rxCapacity, memory, taken⟩ := appendConnectionData_cases
    · rw [refused]
      exact (sendAck_upkeeps _).deeds
    · rw [refused]
      have asked : Upkeeps ⟨c, h⟩ ⟨c, { h with memory := memory }⟩ := .single (.host rfl)
      exact asked.deeds.after_quiet (.after_quiet (.single .compact) (sendAck_upkeeps _).deeds)
    rw [taken]
    have asked : Upkeeps ⟨c, h⟩ ⟨c, { h with memory := memory }⟩ := .single (.host rfl)
    have consumed := consumeSegment_deeds (h := { h with memory := memory }) rxCapacity part
      receiving
    rw [buffered_stored reading carrying.2] at consumed
    exact asked.deeds.after_quiet consumed
  rename_i idle
  have bare : p = [] := by
    by_contra carrying
    exact idle ⟨canRead, carrying⟩
  split
  · have consumed := consumeSegment_deeds (h := h) 0 part receiving
    rwa [buffered_idle (.inr bare)] at consumed
  · exact .refl

/-- What an acceptable segment brings: nothing, or something at `remote_next`. -/
def Connection.Brings (c : Connection) (segment : Frame) (seq : Seq) (payload : Bytes) : Prop :=
  (payload = [] ∧ segment.flags.fin = false) ∨
    (seq = c.remoteNext ∧ trimDuplicate c.remoteNext segment = some (seq, payload) ∧
      c.core.Receiving)

theorem Upkeeps.brings (change : Upkeeps s s') (brings : s.connection.Brings segment seq p) :
    s'.connection.Brings segment seq p := by
  rcases brings with bare | ⟨next, part, receiving⟩
  · exact .inl bare
  have same : s'.connection.remoteNext = s.connection.remoteNext := change.remoteNext
  exact .inr ⟨next.trans same.symm, same.symm ▸ part, change.receiving receiving⟩

theorem processSegment_deeds (brings : s.connection.Brings segment seq p) :
    Deeds (some segment) s [] (processSegment segment seq p s).2 := by
  obtain ⟨c, h⟩ := s
  simp only [processSegment, exec]
  have moved : Upkeeps ⟨c, h⟩ ⟨(c.readdress segment.mac).touched h.now, h⟩ :=
    .single (.tidy rfl rfl)
  have w := moved.trans (tcpUpdatePeerWindow_upkeeps h.now segment.seq
    segment.ack segment.window ((c.readdress segment.mac).touched h.now) h)
  have acked := Relation.ReflTransGen.trans w
    (tcpHandleAck_upkeeps segment.ack)
  refine (Upkeeps.deeds acked).after_quiet ?_
  rcases Upkeeps.brings acked brings with ⟨bare, fin⟩ | ⟨rfl, part, receiving⟩
  · simp only [deliver, bare, fin, ne_eq, not_true_eq_false, and_false, Bool.false_eq_true,
      if_false]
    exact .refl
  · exact deliver_deeds part receiving

theorem acceptable_cases (acceptable : c.acceptable segment.flags seq p = true) :
    (p = [] ∧ segment.flags.fin = false) ∨ (seq = c.remoteNext ∧ c.peerClosed = false) := by
  simp only [Connection.acceptable] at acceptable
  split at acceptable
  next nothing =>
    simp only [tcpReceiveAdvance, Nat.add_eq_zero_iff, List.length_eq_zero_iff] at nothing
    exact .inl ⟨nothing.1, by simpa using nothing.2⟩
  · simp only [decide_eq_true_eq] at acceptable
    exact .inr ⟨acceptable.1, acceptable.2.1⟩

theorem receiving_of_waiting (sane : c.core.Sane) (full : c.state ≠ .empty)
    (past : ¬c.core.Opening) (waiting : c.peerClosed = false) : c.core.Receiving := by
  refine ⟨?_, .inl waiting⟩
  have unfinished : ¬c.core.Finished := fun finished =>
    absurd (sane.finished finished) (by simp [core, waiting])
  simp only [Core.Finished, Core.Opening, core] at unfinished past ⊢
  cases state : c.state <;> simp_all

theorem establish_past : ¬c.establish.core.Opening := by
  simp [establish, core, Core.Opening]

theorem handleTrimmed_course {i : Nat} (sane : c.core.Sane) (full : c.state ≠ .empty)
    (started : c.state ≠ .synSent) (part : trimDuplicate c.remoteNext segment = some (seq, p)) :
    Course (some segment) ⟨c, h⟩ [] (handleTrimmed i segment seq p ⟨c, h⟩).2 := by
  simp only [handleTrimmed, connection, exec]
  split
  · exact (sendAck_upkeeps _).course
  next acceptable =>
  split
  · exact (sendAck_upkeeps _).course
  have brings := acceptable_cases (by simpa using acceptable)
  obtain ⟨complete, same⟩ | ⟨granted, queued⟩ | ⟨refused, change⟩ |
      ⟨opening, m, change, refused⟩ := completeHandshake_cases i segment p c h
  · have past : ¬c.core.Opening := by simp [Core.Opening, core, started, complete]
    rw [same]
    refine .deeds (processSegment_deeds ?_)
    rcases brings with bare | ⟨next, waiting⟩
    · exact .inl bare
    · exact .inr ⟨next, part, receiving_of_waiting sane full past waiting⟩
  · rw [if_pos granted]
    have opened : Deeds (some segment) ⟨c, h⟩ [] ⟨c.establish, h⟩ := .single (.establish full)
    refine .deeds (opened.after_quiet (queued.deeds.after_quiet (processSegment_deeds ?_)))
    refine queued.brings ?_
    rcases brings with bare | ⟨next, waiting⟩
    · exact .inl bare
    · exact .inr ⟨next, part, .inl rfl, .inl waiting⟩
  · rw [refused]
    exact change.course
  rw [refused]
  have opened : Deeds (some segment) ⟨c, h⟩ [] ⟨c.establish, h⟩ := .single (.establish full)
  exact .closed (opened.after_quiet change.deeds) (.inr (.inr opening))

theorem handleSegment_course (i : Nat) (sane : s.connection.core.Sane)
    (full : s.connection.state ≠ .empty) :
    Course (some segment) s [] (handleSegment i segment s).2 := by
  obtain ⟨c, h⟩ := s
  simp only [handleSegment, connection, exec]
  split
  · exact .deeds .refl
  next started =>
    rcases part : trimDuplicate c.remoteNext segment with _ | ⟨seq, p⟩
    · exact (sendAck_upkeeps _).course
    · exact handleTrimmed_course sane full (fun sent => started (.inl sent)) part

/-! ## Socket calls -/

def handedOut (peek : Bool) : Except SocketError Bytes → Bytes
  | .ok bytes => if peek then [] else bytes
  | .error _ => []

variable {c : Connection} {h : Host}

theorem netRead_cases {len : Nat} {peek copied : Bool} :
    (handedOut peek (netRead len peek copied ⟨c, h⟩).1 = [] ∧
      (netRead len peek copied ⟨c, h⟩).2 = ⟨c, h⟩) ∨
    (handedOut peek (netRead len peek copied ⟨c, h⟩).1 = c.unread.take len ∧
      (netRead len peek copied ⟨c, h⟩).2 =
        (sendAck ⟨c.handOut (min len c.unread.length), h⟩).2) := by
  simp only [netRead, connection, update, exec]
  repeat' split
  all_goals simp_all [handedOut]

theorem netRead_deeds (len : Nat) (peek copied : Bool) (s : Link) :
    Deeds f s (handedOut peek (netRead len peek copied s).1)
      (netRead len peek copied s).2 := by
  obtain ⟨c, h⟩ := s
  obtain ⟨nothing, same⟩ | ⟨bytes, after⟩ := netRead_cases
  · rw [nothing, same]
    exact .refl
  · rw [bytes, after]
    exact .before_quiet (.single (.handOut len)) (sendAck_upkeeps _).deeds

theorem netRespond_deeds {buffer : Bytes} : Deeds f s [] (netRespond buffer s).2 := by
  obtain ⟨c, h⟩ := s
  simp only [netRespond, connection, exec]
  split
  · exact .refl
  split
  · exact .refl
  next opened =>
  split
  · exact .refl
  push Not at opened
  obtain ⟨canWrite, unshut, live⟩ := opened
  obtain ⟨device, refused⟩ | ⟨space, limit, device, taken⟩ := sendTcpSegment_cases c.localPort
    { ack := true, psh := true } (buffer.take c.tcpTxAvailablePayload) c h
  · rw [refused]
    exact Upkeeps.deeds (.single (.host rfl))
  rw [taken, transmitted_touched, if_pos rfl]
  have touched (c : Connection) (h : Host) (tick : Nat) :
      Upkeeps ⟨c, h⟩ ⟨c.touched tick, h⟩ := .single (.tidy rfl rfl)
  exact .after_quiet (.single (.data (by simpa using canWrite) (by simpa using unshut)
    (by simpa using live) space limit rfl)) (touched _ _ _).deeds

theorem netShutdown_deeds {how : How} : Deeds f s [] (netShutdown how s).2 := by
  obtain ⟨c, h⟩ := s
  simp only [netShutdown, connection, exec]
  split
  · exact .refl
  rename_i reading
  have receiving : tcpStateCanRead c.state = true := by
    by_contra blocked
    exact reading (.inr (by simpa using blocked))
  have shut : Deeds f ⟨c, h⟩ [] ⟨c.shutRead, h⟩ := .single (.shutRead receiving)
  have fin : Deeds f ⟨c, h⟩ [] (tcpSendFin ⟨c, h⟩).2 := (tcpSendFin_upkeeps _).deeds
  have shutFin := shut.after_quiet (tcpSendFin_upkeeps _).deeds
  repeat' split
  all_goals first
    | exact .refl
    | exact shut
    | exact fin
    | exact shutFin

theorem netHold_deeds : Deeds f s [] (netHold s).2 := by
  simp only [netHold, exec]
  split
  · exact .refl
  · exact .single (.refer rfl (fun _ => by simp [withRefs]) rfl)

theorem netClose_course : Course f ⟨c.withRefs (c.refs - 1), h⟩ [] (netClose ⟨c, h⟩).2 := by
  simp only [netClose, connection, update, exec]
  generalize c.withRefs (c.refs - 1) = left
  have disowned : Deeds f ⟨left, h⟩ [] ⟨left.disown, h⟩ := .single (.refer rfl id rfl)
  split
  · exact .deeds .refl
  next unused =>
  have unused : left.refs = 0 := by simpa using unused
  split
  · exact .closed disowned (.inl unused)
  split
  · have fin := tcpSendFin_upkeeps ⟨left.disown, h⟩
    have unused := fin.refs.trans unused
    split
    · exact .deeds (disowned.after_quiet fin.deeds)
    · exact .closed (disowned.after_quiet fin.deeds) (.inl unused)
  · exact .deeds (disowned.after_quiet (.single (.refer rfl id rfl)))

theorem netAccept_deeds (cap : Nat) (s : Link) :
    Deeds f s (netAccept cap s).1 (netAccept cap s).2 := by
  obtain ⟨c, h⟩ := s
  simp only [netAccept, exec]
  have taken : Deeds f ⟨c, h⟩ (c.unread.take cap)
      ⟨(c.handOut (min cap c.unread.length)).accept, h⟩ :=
    .before_quiet (.single (.handOut cap))
      (.single (.refer rfl (fun _ => by simp [accept]) rfl))
  split
  · exact taken.before_quiet (sendAck_upkeeps _).deeds
  · exact taken

/-! ## The invariant along deeds -/

section Sane

variable {c : Connection}

theorem emptied_sane : c.emptied.core.Sane := by
  constructor <;> simp [emptied, core, Core.Opening, Core.Finished]

theorem retired_sane : c.retired.core.Sane := by
  constructor <;> simp [retired, core, Core.Opening]

theorem establish_sane (sane : c.core.Sane) : c.establish.core.Sane := by
  refine ⟨?_, sane.failed, ?_, ?_⟩ <;>
    simp [establish, core, Core.Opening, Core.Finished]

theorem buffered_core (rxCapacity : Nat) :
    (c.buffered p rxCapacity).core = { c.core with
      rxData := (c.buffered p rxCapacity).rxData
      rxOffset := (c.buffered p rxCapacity).rxOffset } := by
  unfold buffered
  split <;> rfl

theorem consumed_core :
    (c.consumed fin next).core = { c.core with
      remoteNext := next
      peerClosed := c.peerClosed || fin } := by
  unfold consumed
  cases fin <;> simp [core, expect, hangUp]

theorem take_sane (sane : c.core.Sane) (receiving : c.core.Receiving) :
    ((c.buffered p rxCapacity).consumed fin next).core.Sane := by
  have closed (before : c.core.peerClosed = true) :
      ((c.buffered p rxCapacity).core.peerClosed || fin) = true := by
    rw [buffered_core]
    simp [before]
  rw [consumed_core]
  refine ⟨fun blank => ?_, fun failed => closed ?_, fun opening => ?_, fun finished => closed ?_⟩
  · rw [buffered_core] at blank
    exact absurd blank receiving.full
  · rw [buffered_core] at failed
    exact sane.failed failed
  · rw [buffered_core] at opening
    exact absurd opening receiving.past
  · rw [buffered_core] at finished
    exact sane.finished finished

theorem finReceived_sane {now : Nat} (sane : c.core.Sane) (closed : c.peerClosed = true) :
    (c.finReceived now).core.Sane := by
  unfold finReceived
  split
  · constructor <;> simp [tcpEnterTimeWait, core, Core.Opening]
  · refine ⟨?_, sane.failed, ?_, fun _ => closed⟩
    · simp only [core]
      split <;> simp
    · simp only [core, Core.Opening]
      split <;> simp
  · refine ⟨?_, sane.failed, ?_, fun _ => closed⟩ <;> simp [core, Core.Opening]
  · exact sane

theorem compacted_unread : c.compacted.unread = c.unread := by
  simp [compacted, unread]

theorem compacted_sane (sane : c.core.Sane) : c.compacted.core.Sane := by
  refine ⟨fun blank => ⟨?_, rfl⟩, sane.failed, fun opening alive => ?_, sane.finished⟩
  · obtain ⟨data, -⟩ := sane.blank blank
    have data : c.rxData = [] := data
    simp [compacted, core, unread, data]
  · refine ⟨?_, (sane.opening opening alive).2⟩
    exact compacted_unread.trans (sane.opening opening alive).1

theorem handOut_unread (count : Nat) : (c.handOut count).unread = c.unread.drop count := by
  simp [handOut, unread]

theorem handOut_sane {limit : Nat} (sane : c.core.Sane) :
    (c.handOut (min limit c.unread.length)).core.Sane := by
  refine ⟨fun blank => ?_, sane.failed, fun opening alive => ?_, sane.finished⟩
  · obtain ⟨data, offset⟩ := sane.blank blank
    have data : c.rxData = [] := data
    have offset : c.rxOffset = 0 := offset
    simp [handOut, core, unread, data, offset]
  obtain ⟨unread, waiting⟩ := sane.opening opening alive
  have nothing : c.unread = [] := unread
  refine ⟨?_, waiting⟩
  change (c.handOut (min limit c.unread.length)).unread = []
  rw [handOut_unread, nothing, List.drop_nil]

theorem past_of_canRead (receiving : tcpStateCanRead c.state = true) :
    c.state ≠ .empty ∧ ¬c.core.Opening := by
  simp only [Core.Opening, core]
  cases state : c.state <;> simp_all [tcpStateCanRead]

theorem shutRead_sane (sane : c.core.Sane) (receiving : tcpStateCanRead c.state = true) :
    c.shutRead.core.Sane := by
  obtain ⟨full, past⟩ := past_of_canRead receiving
  exact ⟨fun blank => absurd blank full, sane.failed, fun opening => absurd opening past,
    sane.finished⟩

end Sane

theorem Deed.sane (deed : Deed f s read s') (sane : s.connection.core.Sane) :
    s'.connection.core.Sane := by
  cases deed with
  | upkeep change => exact change.tends.sane sane
  | data =>
    rw [transmitted_core]
    exact Core.Tends.send.sane sane
  | synchronise => exact ⟨sane.blank, sane.failed, sane.opening, sane.finished⟩
  | establish => exact establish_sane sane
  | take rxCapacity offered part receiving => exact take_sane sane receiving
  | finReceived closed => exact finReceived_sane sane closed
  | compact => exact compacted_sane sane
  | handOut limit => exact handOut_sane sane
  | shutRead receiving => exact shutRead_sane sane receiving
  | refer core =>
    rw [core]
    exact ⟨sane.blank, sane.failed, sane.opening, sane.finished⟩
  | retire => exact retired_sane

theorem Deeds.sane (chain : Deeds f s read s') (sane : s.connection.core.Sane) :
    s'.connection.core.Sane := by
  induction chain with
  | refl => exact sane
  | tail _ final ih => exact final.sane ih

theorem Course.sane (course : Course f s read s') (sane : s.connection.core.Sane) :
    s'.connection.core.Sane := by
  cases course with
  | deeds chain => exact Deeds.sane chain sane
  | closed => exact emptied_sane

end SrvrOS.Net
