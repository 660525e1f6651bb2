import SrvrOS.Net.Deed
import SrvrOS.Net.Table

/-!
# Readiness and socket calls

`net_poll_events`, `net_read` and `net_respond` look at different flags of a connection; the
invariant of a slot decides where they agree. A property that survives the programs of a slot and
the opening of a free one survives every event that neither reads nor closes a connection; the
others leave alone every slot but the one of their handle.
-/

namespace SrvrOS.Net

open Lib Prog List Connection Bool

variable {i v : Nat} {c : Connection} {h : Host}

namespace Sockets

/-! ## Properties of all slots -/

/-- A property holds of every slot. -/
def All (good : Nat → Connection → Prop) (net : Sockets) : Prop :=
  ∀ index, good index (net.slot index)

/-- The properties of slots that the programs of a slot keep. -/
structure Lasting (good : Nat → Connection → Prop) : Prop where
  sane : ∀ {index c}, good index c → c.core.Sane
  course : ∀ {index frame s s'}, Course frame s [] s' → good index s.connection →
    good index s'.connection
  /-- Sequence numbers do not matter. -/
  sequence : ∀ {index c c' localSeq remoteNext},
    c'.core = { c.core with localSeq := localSeq, remoteNext := remoteNext } →
    good index c → good index c'
  /-- A free slot promises nothing. -/
  free : ∀ {index c c'}, c.state = .empty → good index c → c'.core.Sane → good index c'

variable {net net' : Sockets} {good : Nat → Connection → Prop} {α : Type}

theorem slot_set (written : net'.connections = net.connections.set i c) (j : Nat) :
    net'.slot j = c ∧ j = i ∨ net'.slot j = net.slot j := by
  unfold slot
  rw [written]
  by_cases eq : j = i
  · subst eq
    by_cases inside : j < net.connections.length
    · left
      simp [inside]
    · right
      simp [inside]
  · right
    simp [getElem?_set_ne (Ne.symm eq)]

theorem All.set (all : net.All good)
    (written : net'.connections = net.connections.set i c) (p : good i c) :
    net'.All good := by
  intro j
  obtain ⟨new, rfl⟩ | old := slot_set written j
  · exact new ▸ p
  · exact old ▸ all j

/-- The program keeps a property of all slots. -/
abbrev KeepsAll (good : Nat → Connection → Prop) (program : Prog Sockets α) : Prop :=
  Prog.Keeps (All good) program

variable {program : Tcp α}

theorem onSlot_keeps (kept : ∀ s, good i s.connection → good i (program s).2.connection) :
    KeepsAll good (onSlot i program) :=
  fun _ all => all.set rfl (kept _ (all i))

theorem forSlots_keeps {program : Tcp Unit}
    (kept : ∀ i s, good i s.connection → good i (program s).2.connection)
    {slots : List Nat} : KeepsAll good (forSlots program slots) := by
  induction slots with
  | nil => exact .pure
  | cons i later ih => exact .bind (onSlot_keeps (kept i)) fun _ => ih

theorem forEach_keeps {program : Tcp Unit}
    (kept : ∀ i s, good i s.connection → good i (program s).2.connection) :
    KeepsAll good (forEach program) :=
  .bind .gets fun _ => forSlots_keeps kept

theorem modify_keeps {change : Sockets → Sockets}
    (eq : ∀ net, (change net).connections = net.connections) : KeepsAll good (modify change) := by
  refine .modify fun net all i => ?_
  have kept : (change net).slot i = net.slot i := by rw [slot, eq, slot]
  exact kept ▸ all i

theorem slot_of_findIdx? {condition : Connection → Bool}
    (hit : net.connections.findIdx? condition = some i) :
    condition (net.slot i) = true := by
  obtain ⟨inside, p, -⟩ := findIdx?_eq_some_iff_getElem.mp hit
  rw [Sockets.slot, getD_eq_getElem _ _ inside]
  exact p

/-! ## Allocation -/

/-- A connection that `tcp_reclaim_oldest_time_wait` picks is not referenced. -/
theorem oldestTimeWait_unused {now : Nat} {slots : List (Nat × Connection)}
    {oldest : Option (Nat × Nat)} (hit : oldestTimeWait now slots oldest = some i) :
    (∃ c, (i, c) ∈ slots ∧ c.refs = 0) ∨ ∃ deadline, oldest = some (i, deadline) := by
  induction slots generalizing oldest with
  | nil =>
    cases oldest with
    | none => simp [oldestTimeWait] at hit
    | some pair =>
      obtain ⟨j, deadline⟩ := pair
      have eq : j = i := by simpa [oldestTimeWait] using hit
      exact .inr ⟨deadline, by rw [eq]⟩
  | cons first later ih =>
    obtain ⟨slot, c⟩ := first
    have older (oldest : Option (Nat × Nat)) (hit : oldestTimeWait now later oldest = some i) :
        (∃ c', (i, c') ∈ (slot, c) :: later ∧ c'.refs = 0) ∨
          ∃ deadline, oldest = some (i, deadline) := by
      rcases ih hit with ⟨c', member, free⟩ | kept
      · exact .inl ⟨c', mem_cons_of_mem _ member, free⟩
      · exact .inr kept
    unfold oldestTimeWait at hit
    split at hit
    · exact older _ hit
    next waiting =>
    have free : c.refs = 0 := by
      by_contra used
      exact waiting (.inr used)
    have taken (eq : slot = i) : ∃ c', (i, c') ∈ (slot, c) :: later ∧ c'.refs = 0 :=
      ⟨c, by simp [eq], free⟩
    have replaced {deadline : Nat}
        (hit : oldestTimeWait now later (some (slot, deadline)) = some i) :
        ∃ c', (i, c') ∈ (slot, c) :: later ∧ c'.refs = 0 := by
      rcases older _ hit with kept | ⟨deadline, new⟩
      · exact kept
      · exact taken (by simpa using congrArg (Option.map Prod.fst) new)
    split at hit
    · exact .inl (taken (by simpa using hit))
    split at hit
    · exact .inl (replaced hit)
    split at hit
    · exact .inl (replaced hit)
    · exact older _ hit

theorem slot_of_mem_zip (member : (i, c) ∈ (range net.connections.length).zip net.connections) :
    net.slot i = c := by
  obtain ⟨position, inside, entry⟩ := getElem_of_mem member
  simp only [getElem_zip, getElem_range] at entry
  obtain ⟨rfl, rfl⟩ := entry
  simp only [length_zip, length_range, Nat.min_self] at inside
  rw [slot, getD_eq_getElem _ _ inside]

theorem fresh_sane (sane : c.core.Sane) (blank : c.state = .empty) {k : Core} (opening : k.Opening)
    (data : k.rxData = c.rxData)
    (flags : k.peerClosed = false ∧ k.localReadClosed = false ∧ k.reset = false) : k.Sane := by
  have empty : c.rxData = [] := (sane.blank blank).1
  have unread : k.unread = [] := by rw [Core.unread, data, empty, drop_nil]
  refine ⟨fun blank => ?_, fun failed => absurd failed (by simp [flags.2.2]),
    fun _ _ => ⟨unread, flags.1, flags.2.1⟩, fun finished => ?_⟩
  · rcases opening with sent | received
    · cases sent.symm.trans blank
    · cases received.symm.trans blank
  rcases opening with sent | received
  · simp [Core.Finished, sent] at finished
  · simp [Core.Finished, received] at finished

/-- What a slot becomes that opens. -/
def Opens (fresh : Nat → Nat → Connection → Connection) : Prop :=
  ∀ now id c, c.core.Sane → c.state = .empty → (fresh now id c).core.Sane

variable {f : Frame}

theorem passiveConnection_opens {owner : Option Nat} : Opens (passiveConnection owner f) :=
  fun _ _ _ sane blank => fresh_sane sane blank (.inr rfl) rfl ⟨rfl, rfl, rfl⟩

variable {owner : Nat} {remoteIp : BitVec 32}

theorem activeConnection_opens {remotePort localPort : BitVec 16} {remoteMac : BitVec 48} :
    Opens (activeConnection owner remoteIp remotePort localPort remoteMac) :=
  fun _ _ _ sane blank => fresh_sane sane blank (.inl rfl) rfl ⟨rfl, rfl, rfl⟩

theorem allocateClientPortFrom_keeps (attempts : Nat) :
    KeepsAll good (allocateClientPortFrom attempts) := by
  induction attempts with
  | zero => exact .pure
  | succ attempts ih =>
    exact .bind .gets fun port => .bind (modify_keeps fun _ => rfl) fun _ =>
      .bind .gets fun available => .ite .pure ih

theorem sendReset_keeps (f : Frame) : KeepsAll good (sendReset f) :=
  modify_keeps fun _ => rfl

theorem answerSyn_core {peerMss : Nat} {s : Link} :
    ∃ localSeq remoteNext, (answerSyn f peerMss s).2.connection.core =
      { s.connection.core with localSeq := localSeq, remoteNext := remoteNext } := by
  obtain ⟨c, h⟩ := s
  simp only [answerSyn, connection, update, updateNow, exec]
  have window := tcpSetPeerWindow_core h.now f.window c
  generalize c.tcpSetPeerWindow h.now f.window = known at window ⊢
  have synchronised : (known.synchronise f peerMss).core =
      { c.core with remoteNext := f.seq + 1 } := by
    rw [← window]
    rfl
  obtain ⟨device, refused⟩ | ⟨-, -, device, taken⟩ := sendTcpSegment_cases
    (known.synchronise f peerMss).localPort { syn := true, ack := true } []
    (known.synchronise f peerMss) h
  · rw [refused]
    exact ⟨_, _, synchronised⟩
  rw [taken]
  have sent := transmitted_core h.now (known.synchronise f peerMss).localPort
    { syn := true, ack := true } [] (known.synchronise f peerMss)
  rw [synchronised] at sent
  exact ⟨_, _, sent⟩

theorem netListen_keeps {port : BitVec 16} : KeepsAll good (netListen owner port) := by
  refine .bind .get fun net => .ite .pure ?_
  split
  · exact .ite .pure (.bind (modify_keeps fun _ => rfl) fun _ => .pure)
  · exact .bind (modify_keeps fun _ => rfl) fun _ => .pure
  · exact .pure

variable {handle : Handle}

section

variable (kept : ∀ i s, good i s.connection → good i (program s).2.connection)
  {refused : α}

include kept

theorem onReferenced_keeps : KeepsAll good (onReferenced handle refused program) := by
  refine .bind .gets fun hit => ?_
  cases hit with
  | none => exact .pure
  | some i => exact onSlot_keeps (kept i)

theorem onOpen_keeps : KeepsAll good (onOpen handle refused program) := by
  refine .bind .gets fun hit => ?_
  cases hit with
  | none => exact .pure
  | some i => exact onSlot_keeps (kept i)

end

variable (lasting : Lasting good)
include lasting

theorem Lasting.kept (course : ∀ s, Course none s [] (program s).2) (i : Nat)
    (s : Link) (p : good i s.connection) : good i (program s).2.connection :=
  lasting.course (course s) p

theorem Lasting.upkeep (change : ∀ s, Upkeeps s (program s).2) (i : Nat)
    (s : Link) (p : good i s.connection) : good i (program s).2.connection :=
  lasting.kept (fun s => (change s).course) i s p

theorem Lasting.close {s : Link} (free : s.connection.refs = 0) (p : good i s.connection) :
    good i (closeConnection s).2.connection := by
  have ended : Course none s [] (closeConnection s).2 := .closed .refl (.inl free)
  exact lasting.course ended p

theorem reapExpiredTimeWait_keeps : KeepsAll good reapExpiredTimeWait :=
  forEach_keeps (lasting.kept tcpReapExpiredTimeWait_course)

theorem tcpReclaimOldestTimeWait_keeps : KeepsAll good tcpReclaimOldestTimeWait := by
  refine .bind_gets fun net all => ?_
  cases hit : oldestTimeWait net.host.now
      ((range net.connections.length).zip net.connections) none with
  | none => exact all
  | some i =>
    obtain ⟨c, member, free⟩ | ⟨deadline, new⟩ := oldestTimeWait_unused hit
    · have free : (net.slot i).refs = 0 := by rw [slot_of_mem_zip member, free]
      exact all.set rfl (lasting.close free (all i))
    · simp at new

theorem Lasting.promises (all : net.All good) (hit : net.firstEmpty = some i) :
    ∀ c : Connection, c.core.Sane → good i c := by
  have blank : (net.slot i).state = .empty := by simpa using slot_of_findIdx? hit
  exact fun c sane => lasting.free blank (all i) sane

theorem install_keeps {fresh : Nat → Nat → Connection → Connection} (opens : Opens fresh)
    (all : net.All good) (hit : net.firstEmpty = some i) :
    (install i fresh net).2.All good := by
  have blank : (net.slot i).state = .empty := by simpa using slot_of_findIdx? hit
  exact all.set rfl (lasting.promises all hit _ (opens _ _ _ (lasting.sane (all i)) blank))

theorem allocConnection_keeps (f : Frame) : KeepsAll good (allocConnection f) := by
  refine .bind .gets fun listener => ?_
  cases listener with
  | none => exact .pure
  | some listener =>
    refine .bind (reapExpiredTimeWait_keeps lasting) fun _ => .bind .gets fun known => ?_
    cases known with
    | some i => exact .bind .gets fun c => .ite .pure .pure
    | none =>
      refine .bind_gets fun net all => ?_
      cases hit : net.firstEmpty with
      | some i => exact install_keeps lasting passiveConnection_opens all hit
      | none =>
        have reclaimed := tcpReclaimOldestTimeWait_keeps lasting net all
        simp only [exec]
        generalize tcpReclaimOldestTimeWait net = outcome at reclaimed ⊢
        obtain ⟨freed, net⟩ := outcome
        cases freed with
        | false => exact reclaimed
        | true =>
          cases hit : net.firstEmpty with
          | none => exact reclaimed
          | some i => exact install_keeps lasting passiveConnection_opens reclaimed hit

/-- A connection that `alloc_client_connection` gives was free before. -/
theorem allocClientConnection_keeps {remotePort : BitVec 16}
    {remoteMac : BitVec 48} (all : net.All good) :
    (allocClientConnection owner remoteIp remotePort remoteMac net).2.All good ∧
      ∀ i, (allocClientConnection owner remoteIp remotePort remoteMac net).1 = some i →
        ∀ c : Connection, c.core.Sane → good i c := by
  have opened {net : Sockets} (ported : net.All good) {i : Nat}
      (hit : net.firstEmpty = some i) (port : BitVec 16) :
      (install i (activeConnection owner remoteIp remotePort port remoteMac) net).2.All good ∧
        ∀ j, some i = some j → ∀ c : Connection, c.core.Sane → good j c := by
    refine ⟨install_keeps lasting activeConnection_opens ported hit, ?_⟩
    rintro j ⟨⟩
    exact lasting.promises ported hit
  have reaped := reapExpiredTimeWait_keeps lasting net all
  have ported := allocateClientPortFrom_keeps 11848 _ reaped
  simp only [allocClientConnection, allocateClientPort, exec]
  generalize allocateClientPortFrom 11848 (reapExpiredTimeWait net).2 = chosen at ported ⊢
  obtain ⟨port, net⟩ := chosen
  cases port with
  | none => exact ⟨ported, by simp⟩
  | some port =>
    simp only [exec]
    cases hit : net.firstEmpty with
    | some i => exact opened ported hit port
    | none =>
      have reclaimed := tcpReclaimOldestTimeWait_keeps lasting net ported
      have ported := allocateClientPortFrom_keeps 11848 _ reclaimed
      simp only [exec]
      split
      · generalize allocateClientPortFrom 11848 (tcpReclaimOldestTimeWait net).2 = chosen
          at ported ⊢
        obtain ⟨port, net⟩ := chosen
        cases port with
        | none => exact ⟨ported, by simp⟩
        | some port =>
          cases hit : net.firstEmpty with
          | none => exact ⟨ported, by simp⟩
          | some i => exact opened ported hit port
      · exact ⟨reclaimed, by simp⟩

/-! ## Events -/

theorem openListening_keeps (f : Frame) (peerMss : Nat) :
    KeepsAll good (do
      let hit ← allocConnection f
      match hit with
      | some i => onSlot i (answerSyn f peerMss)
      | none => sendReset f) := by
  refine .bind (allocConnection_keeps lasting f) fun hit => ?_
  cases hit with
  | none => exact sendReset_keeps f
  | some i =>
    refine onSlot_keeps fun s p => ?_
    obtain ⟨localSeq, remoteNext, core⟩ := answerSyn_core
    exact lasting.sequence core p

theorem handleSyn_keeps (f : Frame) (flag : f.flags.syn = true) (peerMss : Nat) :
    KeepsAll good (handleSyn f peerMss) := by
  intro net all
  simp only [handleSyn, exec]
  cases known : net.findConnection f.dstPort f.ip f.srcPort with
  | none =>
    cases listening : net.portIsListening f.dstPort with
    | false => exact sendReset_keeps f net all
    | true => exact openListening_keeps lasting f peerMss net all
  | some i =>
    by_cases opening : (net.slot i).state = .synSent
    · cases listening : net.portIsListening f.dstPort with
      | false =>
        simp only [Option.filter, opening]
        have deeds : Deeds (some f) ⟨net.slot i, net.host⟩ [] _ :=
          handleSynAck_deeds flag peerMss opening
        exact all.set rfl (lasting.course (.deeds deeds) (all i))
      | true =>
        simp only [Option.filter, opening]
        exact openListening_keeps lasting f peerMss net all
    · simp only [Option.filter, opening, ne_eq]
      exact onSlot_keeps (lasting.upkeep handleKnownSyn_upkeeps i) net all

theorem handleTcp_keeps : KeepsAll good (handleTcp f) := by
  unfold handleTcp
  cases tcpParseOptions f.flags f.options with
  | none => exact .pure
  | some peerMss =>
    refine .bind_gets fun net all => ?_
    by_cases rst : f.flags.rst = true
    · rw [if_pos rst]
      cases known : net.findConnection f.dstPort f.ip f.srcPort with
      | none => exact all
      | some i =>
        exact onSlot_keeps (lasting.kept handleReset_course i) net all
    rw [if_neg rst]
    by_cases syn : f.flags.syn = true
    · rw [if_pos syn]
      exact handleSyn_keeps lasting f syn peerMss net all
    rw [if_neg syn]
    cases known : net.findConnection f.dstPort f.ip f.srcPort with
    | none => exact sendReset_keeps f net all
    | some i =>
      have full : (net.slot i).state ≠ .empty := by
        have facts := slot_of_findIdx? known
        simp only [Bool.and_eq_true, Bool.not_eq_true', decide_eq_true_eq] at facts
        exact facts.1.1.1.1.1
      have course : Course (some f) ⟨net.slot i, net.host⟩ [] _ :=
        handleSegment_course i (lasting.sane (all i)) full
      exact all.set rfl (lasting.course course (all i))

theorem netTimerTick_keeps : KeepsAll good netTimerTick :=
  .bind (forEach_keeps (lasting.upkeep tcpRetransmitDue_upkeeps)) fun _ =>
    .bind (forEach_keeps (lasting.upkeep tcpZeroWindowProbeDue_upkeeps)) fun _ =>
      .bind (forEach_keeps (lasting.upkeep tcpIdleCleanupDue_upkeeps)) fun _ =>
        .bind (reapExpiredTimeWait_keeps lasting) fun _ =>
          forEach_keeps (lasting.kept expireDue_course)

theorem netConnect_keeps {remotePort : BitVec 16}
    {route : Option (BitVec 48)} : KeepsAll good (netConnect owner remoteIp remotePort route) := by
  cases route with
  | none => exact .pure
  | some remoteMac =>
    refine .ite .pure fun net all => ?_
    obtain ⟨given, free⟩ := allocClientConnection_keeps lasting all
    simp only [exec]
    generalize allocClientConnection owner remoteIp remotePort remoteMac net = outcome
      at given free ⊢
    obtain ⟨hit, net⟩ := outcome
    cases hit with
    | none => exact given
    | some i =>
      have free := free i rfl
      have anything {program : Tcp Bool} (sane : ∀ s, s.connection.core.Sane →
          (program s).2.connection.core.Sane) : KeepsAll good (onSlot i program) :=
        onSlot_keeps fun s p => free _ (sane s (lasting.sane p))
      have sent := anything (fun s => (sendTcpSegment_tends (net.slot i).localPort
        { syn := true } [] s).sane) net given
      have closed : KeepsAll good (onSlot i closeConnection) :=
        onSlot_keeps fun s _ => free _ emptied_sane
      simp only [exec]
      split
      · exact sent
      · exact closed _ sent

theorem netHold_keeps : KeepsAll good (netHold handle) := by
  cases handle with
  | connection v =>
    exact onReferenced_keeps (lasting.kept fun s => .deeds netHold_deeds)
  | listener v =>
    refine .bind .gets fun hit => ?_
    cases hit with
    | none => exact .pure
    | some i =>
      exact .bind .gets fun listener => .ite .pure
        (.bind (modify_keeps fun _ => rfl) fun _ => .pure)

theorem closeListener_keeps {i : Nat} {listener : Listener} :
    KeepsAll good (closeListener i listener) := by
  refine .bind (modify_keeps fun _ => rfl) fun _ => forEach_keeps fun i s p => ?_
  simp only [exec]
  split
  next chosen =>
    simp only [Bool.and_eq_true, Bool.not_eq_true', decide_eq_true_eq] at chosen
    exact lasting.close chosen.1.2 p
  · exact p

theorem netCloseListener_keeps {v : Nat} : KeepsAll good (netClose (.listener v)) := by
  refine .bind .gets fun hit => ?_
  cases hit with
  | none => exact .pure
  | some i =>
    exact .bind .gets fun listener => .ite .pure (.ite
      (.bind (modify_keeps fun _ => rfl) fun _ => .pure)
      (.bind (closeListener_keeps lasting) fun _ => .pure))

theorem netProcessCleanup_keeps {process : Nat} : KeepsAll good (netProcessCleanup process) := by
  refine .bind (modify_keeps fun _ => rfl) fun _ => .bind (modify_keeps fun _ => rfl) fun _ =>
    .bind .get fun net => forEach_keeps fun i s p => ?_
  simp only [disownConnection, exec]
  split
  · split
    next free => exact lasting.close free.1 p
    have disowned : Deeds none s [] ⟨{ s.connection with owner := none }, s.host⟩ :=
      .single (.refer rfl id rfl)
    exact lasting.course (.deeds disowned) p
  · exact p

end Sockets

/-- The events that neither read from a connection nor close one. -/
def Sockets.Event.leavesUnread : Sockets.Event → Bool
  | .connectWait .. | .accept .. | .read .. | .close (.connection _) => false
  | _ => true

namespace Sockets

variable {net : Sockets} {good : Nat → Connection → Prop} {α : Type}

theorem step_keeps (lasting : Lasting good) {e : Event} (quiet : e.leavesUnread = true)
    (all : net.All good) : (step net e).2.All good := by
  cases e with
  | listen owner port => exact netListen_keeps net all
  | connect owner remoteIp remotePort route =>
    exact netConnect_keeps lasting net all
  | respond handle buffer =>
    exact onOpen_keeps (lasting.kept fun s => .deeds netRespond_deeds) net all
  | shutdown handle how =>
    exact onReferenced_keeps (lasting.kept fun s => .deeds netShutdown_deeds) net all
  | hold handle => exact netHold_keeps lasting net all
  | close handle =>
    cases handle with
    | listener v => exact netCloseListener_keeps lasting net all
    | connection v => exact absurd quiet (by simp [Event.leavesUnread])
  | cleanup process => exact netProcessCleanup_keeps lasting net all
  | receive f => exact handleTcp_keeps lasting net all
  | tick => exact netTimerTick_keeps lasting net all
  | clock ticks => exact all
  | connectWait | accept | read => exact absurd quiet (by simp [Event.leavesUnread])

/-! ## The two lasting properties -/

/-- Every slot meets the invariant. -/
def Sound (net : Sockets) : Prop := net.All fun _ c => c.core.Sane

theorem sane_lasting : Lasting fun _ c => c.core.Sane where
  sane p := p
  course course sane := course.sane sane
  sequence core sane := by
    rw [core]
    exact ⟨sane.blank, sane.failed, sane.opening, sane.finished⟩
  free _ _ sane := sane

end Sockets

/-- A connection somebody refers to still has some bytes to read, unless it failed or the
reader gave up. -/
def Core.Retains (id : Nat) (bytes : Bytes) (k : Core) : Prop :=
  (k.id = id ∧ k.refs ≠ 0) ∧ k.state ≠ .empty ∧ ¬k.Opening ∧
    (k.reset = true ∨ k.localReadClosed = true ∨ bytes <+: k.unread)

section Retains

variable {b read : Bytes} {k k' : Core} {f : Option Frame} {s s' : Link}

theorem Core.Tends.id_eq (change : Core.Tends k k') : k'.id = k.id := by
  cases change <;> rfl

theorem Core.Tends.retains (change : Core.Tends k k') (retains : k.Retains v b) :
    k'.Retains v b := by
  obtain ⟨held, full, past, kept⟩ := retains
  refine ⟨?_, change.full full, change.past past, ?_⟩
  · rwa [change.same.2.1, change.id_eq]
  cases change with
  | fail => exact .inl rfl
  | send | fin | deferFin | finAcked | lastAcked => exact kept

theorem buffered_unread (payload : Bytes) (rxCapacity : Nat) (c : Connection) :
    (c.buffered payload rxCapacity).unread =
      if c.localReadClosed then c.unread else c.unread ++ payload := by
  unfold buffered
  cases shut : c.localReadClosed with
  | true => simp
  | false =>
    by_cases bare : payload = []
    · simp [bare]
    · simp [bare, stored, compacted, unread]

theorem finReceived_retains {now : Nat} (retains : c.core.Retains v b) :
    (c.finReceived now).core.Retains v b := by
  obtain ⟨held, full, past, kept⟩ := retains
  unfold finReceived
  split
  · exact ⟨held, by simp [tcpEnterTimeWait, core],
      by simp [tcpEnterTimeWait, core, Core.Opening], kept⟩
  · refine ⟨held, ?_, ?_, kept⟩
    · simp only [core]
      split <;> simp
    · simp only [core, Core.Opening]
      split <;> simp
  next opening => exact absurd (.inr opening) past
  · exact ⟨held, full, past, kept⟩

theorem retired_retains (retains : c.core.Retains v b) : c.retired.core.Retains v b := by
  obtain ⟨held, full, past, kept⟩ := retains
  refine ⟨held, by simp [retired, core],
    by simp [retired, core, Core.Opening], ?_⟩
  by_cases failed : c.reset = true
  · exact .inl failed
  rcases kept with reset | shut | unread
  · exact absurd reset failed
  · exact .inr (.inl shut)
  · refine .inr (.inr ?_)
    simpa [retired, core, Core.unread, failed] using unread

theorem Deed.retains (deed : Deed f s read s') (quiet : read = [])
    (retains : s.connection.core.Retains v b) : s'.connection.core.Retains v b := by
  cases deed with
  | upkeep change => exact change.tends.retains retains
  | data =>
    rw [transmitted_core]
    exact Core.Tends.send.retains retains
  | synchronise => exact retains
  | establish =>
    exact ⟨retains.1, by simp [Connection.establish, Connection.core], establish_past,
      retains.2.2.2⟩
  | @take c _ _ payload rxCapacity offered part receiving =>
    obtain ⟨held, full, past, kept⟩ := retains
    have unread := buffered_unread payload rxCapacity c
    rw [consumed_core, buffered_core]
    refine ⟨held, full, past, ?_⟩
    rcases kept with reset | shut | kept
    · exact .inl reset
    · exact .inr (.inl shut)
    refine .inr (.inr ?_)
    change b <+: (c.buffered payload rxCapacity).unread
    rw [unread]
    split
    · exact kept
    · exact kept.trans (prefix_append _ _)
  | finReceived => exact finReceived_retains retains
  | @compact c _ =>
    obtain ⟨held, full, past, kept⟩ := retains
    have eq : c.compacted.core.unread = c.core.unread := compacted_unread
    exact ⟨held, full, past, eq.symm ▸ kept⟩
  | @handOut c _ limit =>
    have nothing : min limit c.unread.length = 0 := by rw [← length_take, quiet, length_nil]
    rw [nothing]
    exact retains
  | shutRead => exact ⟨retains.1, retains.2.1, retains.2.2.1, .inr (.inl rfl)⟩
  | refer core held =>
    rw [core]
    exact ⟨⟨retains.1.1, held retains.1.2⟩, retains.2⟩
  | retire => exact retired_retains retains

theorem Deeds.retains (chain : Deeds f s read s') (quiet : read = [])
    (retains : s.connection.core.Retains v b) : s'.connection.core.Retains v b := by
  induction chain with
  | refl => exact retains
  | tail _ final ih =>
    obtain ⟨earlier, last⟩ := append_eq_nil_iff.mp quiet
    exact final.retains last (ih earlier)

theorem Course.retains (course : Course f s [] s')
    (retains : s.connection.core.Retains v b) : s'.connection.core.Retains v b := by
  cases course with
  | deeds chain => exact Deeds.retains chain rfl retains
  | closed chain free =>
    rcases free with free | opening
    · exact absurd free (Deeds.retains chain rfl retains).1.2
    · exact absurd opening retains.2.2.1

end Retains

namespace Sockets

theorem retains_lasting {slot : Nat} {b : Bytes} :
    Lasting fun i c => c.core.Sane ∧ (i = slot → c.core.Retains v b) where
  sane p := p.1
  course course p := ⟨course.sane p.1, fun eq => course.retains (p.2 eq)⟩
  sequence core p := by
    rw [core]
    obtain ⟨sane, retains⟩ := p
    exact ⟨⟨sane.blank, sane.failed, sane.opening, sane.finished⟩, retains⟩
  free blank p sane := ⟨sane, fun eq => absurd blank (p.2 eq).2.1⟩

/-! ## Runs -/

variable {net : Sockets}

theorem connectWait_sound {id owner deadline : Nat} {interrupted : Bool} (sound : net.Sound) :
    (netConnectWait id owner deadline interrupted net).2.Sound := by
  have closed (i : Nat) : KeepsAll (fun _ c => c.core.Sane) (onSlot i closeConnection) :=
    onSlot_keeps fun s _ => emptied_sane
  have waits : KeepsAll (fun _ c => c.core.Sane)
      (netConnectWait id owner deadline interrupted) := by
    refine .bind .gets fun hit => ?_
    cases hit with
    | none => exact .pure
    | some i =>
      exact .bind .gets fun c => .bind .gets fun now =>
        .ite (closed i) (.ite .pure (.ite (closed i) .pure))
  exact waits net sound

theorem netAccept_sound {cap : Nat} {copied : Bool} (sound : net.Sound) :
    (netAccept handle cap copied net).2.Sound := by
  have accepts : KeepsAll (fun _ c => c.core.Sane) (netAccept handle cap copied) := by
    refine .bind .get fun net => ?_
    cases handle with
    | connection v => exact .pure
    | listener v =>
      simp only
      split
      · exact .pure
      split
      · exact .pure
      refine .ite .pure (.bind (modify_keeps fun _ => rfl) fun _ => .bind ?_ fun _ => .pure)
      have deeds (s : Link) : Deeds none s _ _ := netAccept_deeds cap s
      exact onSlot_keeps fun s sane => Deeds.sane (deeds s) sane
  exact accepts net sound

theorem netCloseConnection_sound {v : Nat} (sound : net.Sound) :
    (netClose (.connection v) net).2.Sound := by
  refine onReferenced_keeps (fun i s sane => ?_) net sound
  have course : Course none ⟨s.connection.withRefs (s.connection.refs - 1), s.host⟩ [] _ :=
    netClose_course
  exact course.sane ⟨sane.blank, sane.failed, sane.opening, sane.finished⟩

theorem step_sound (e : Event) (sound : net.Sound) : (step net e).2.Sound := by
  cases e with
  | connectWait id owner deadline interrupted =>
    exact connectWait_sound sound
  | accept handle cap copied => exact netAccept_sound sound
  | read handle len peek copied =>
    have deeds (s : Link) : Deeds none s _ _ := netRead_deeds len peek copied s
    exact onOpen_keeps (fun i s sane => Deeds.sane (deeds s) sane) net sound
  | close handle =>
    cases handle with
    | connection v => exact netCloseConnection_sound sound
    | listener v => exact step_keeps sane_lasting rfl sound
  | listen | connect | respond | shutdown | hold | cleanup | receive | tick | clock =>
    exact step_keeps sane_lasting rfl sound

theorem boot_sound {host : Host} : (boot host).Sound := by
  intro i
  have blank : (boot host).slot i = {} := by exact getElem?_getD_replicate_default_eq _ _ i
  rw [blank]
  constructor <;> simp [core, Core.Opening, Core.Finished]

theorem after_sound (host : Host) (events : List Event) : (after host events).Sound :=
  run_invariant step Sound (fun _ e sound => step_sound e sound) boot_sound events

/-! ## Agreement -/

section

variable (hit : net.findReferencedConnectionById v = some i)

include hit

theorem findOpen_of_referenced : net.findOpen v = some i := by
  obtain ⟨byId, referenced⟩ := Option.filter_eq_some_iff.mp hit
  obtain ⟨inside, p, first⟩ := findIdx?_eq_some_iff_getElem.mp byId
  refine findIdx?_eq_some_iff_getElem.mpr ⟨inside, ?_, fun earlier before => ?_⟩
  · rw [slot] at referenced
    simp_all
  · simp_all

theorem full_of_referenced : (net.slot i).state ≠ .empty ∧ (net.slot i).refs ≠ 0 := by
  obtain ⟨byId, referenced⟩ := Option.filter_eq_some_iff.mp hit
  have facts := slot_of_findIdx? byId
  simp only [Bool.and_eq_true, decide_eq_true_eq] at facts referenced
  exact ⟨facts.1, referenced⟩

theorem id_of_referenced : (net.slot i).id = v := by
  have facts := slot_of_findIdx? (Option.filter_eq_some_iff.mp hit).1
  simp only [Bool.and_eq_true, decide_eq_true_eq] at facts
  exact facts.2

theorem netRead_eq {len : Nat} {peek copied : Bool} :
    (netRead (.connection v) len peek copied net).1 =
      (Net.netRead len peek copied ⟨net.slot i, net.host⟩).1 := by
  simp only [netRead, onOpen, exec, hit, findOpen_of_referenced hit]
  rfl

end

theorem netRespond_eq (buffer : Bytes) (hit : net.findReferencedConnectionById v = some i) :
    (netRespond (.connection v) buffer net).1 =
      (Net.netRespond buffer ⟨net.slot i, net.host⟩).1 := by
  simp only [netRespond, onOpen, exec, hit, findOpen_of_referenced hit]
  rfl

theorem netPollEvents_eq (interest : Interest) (hit : net.findReferencedConnectionById v = some i) :
    net.netPollEvents (.connection v) interest = pollConnection interest (net.slot i) := by
  simp [netPollEvents, findOpen_of_referenced hit]

/-- An event neither reads from the connection of a handle, which is in a slot, nor closes it. -/
def Spares (net : Sockets) (value index : Nat) : Event → Prop
  | .read handle .. | .close handle => handle ≠ .connection value
  | .connectWait waiting .. => waiting ≠ value
  | .accept .. => ∀ request ∈ net.host.pendingRequests,
      request.used = true → request.connectionIndex ≠ index
  | _ => True

section

variable {α : Type} {program : Tcp α} {refused : α} {handle : Handle}

theorem onSlot_slot {j : Nat} (apart : i ≠ j) : (onSlot j program net).2.slot i = net.slot i := by
  simp [onSlot, slot, getElem?_set_ne apart.symm]

theorem onReferenced_slot (other : handle ≠ .connection (net.slot i).id) :
    (onReferenced handle refused program net).2.slot i = net.slot i := by
  cases handle with
  | listener w => rfl
  | connection w =>
    simp only [onReferenced, exec]
    cases hit : net.findReferencedConnectionById w with
    | none => rfl
    | some j =>
      refine onSlot_slot fun same => other ?_
      rw [same, id_of_referenced hit]

theorem onOpen_slot (other : handle ≠ .connection (net.slot i).id) :
    (onOpen handle refused program net).2.slot i = net.slot i := by
  cases handle with
  | listener w => rfl
  | connection w =>
    simp only [onOpen, exec]
    cases hit : (net.findReferencedConnectionById w).bind fun _ => net.findOpen w with
    | none => rfl
    | some j =>
      obtain ⟨-, -, found⟩ := Option.bind_eq_some_iff.mp hit
      refine onSlot_slot fun same => other ?_
      have facts := slot_of_findIdx? found
      simp only [Bool.and_eq_true, decide_eq_true_eq] at facts
      rw [same, facts.2]

theorem netConnectWait_slot {waiting owner deadline : Nat} {interrupted : Bool}
    (other : waiting ≠ (net.slot i).id) :
    (netConnectWait waiting owner deadline interrupted net).2.slot i = net.slot i := by
  simp only [netConnectWait, exec]
  cases hit : net.findConnectionByIdOwner waiting owner with
  | none => rfl
  | some j =>
    have apart : i ≠ j := by
      rintro rfl
      have facts := slot_of_findIdx? hit
      simp only [Bool.and_eq_true, decide_eq_true_eq] at facts
      exact other facts.1.2.symm
    simp only [exec]
    repeat' split
    all_goals first | rfl | exact onSlot_slot apart

theorem netAccept_slot {cap : Nat} {copied : Bool} (apart : ∀ request ∈ net.host.pendingRequests,
    request.used = true → i ≠ request.connectionIndex) :
    (netAccept handle cap copied net).2.slot i = net.slot i := by
  cases handle with
  | connection w => rfl
  | listener w =>
    simp only [netAccept, exec, Prog.get]
    cases listener : net.findListener w with
    | none => rfl
    | some k =>
      dsimp only
      generalize waits : net.host.pendingRequests.findIdx? _ = found
      cases found with
      | none => rfl
      | some queued =>
        obtain ⟨inside, facts, -⟩ := findIdx?_eq_some_iff_getElem.mp waits
        simp only [Bool.and_eq_true] at facts
        have member := apart _ (getElem_mem inside) facts.1
        rw [← getD_eq_getElem _ {} inside] at member
        dsimp only
        cases copied with
        | false => rfl
        | true => exact onSlot_slot member

end

/-- A read, a close, an accept or a wait of another connection leaves the slot alone. -/
theorem spared_slot {e : Event} (spares : net.Spares (net.slot i).id i e)
    (loud : e.leavesUnread = false) : (step net e).2.slot i = net.slot i := by
  cases e with
  | read handle len peek copied => exact onOpen_slot spares
  | close handle =>
    cases handle with
    | listener w => simp [Event.leavesUnread] at loud
    | connection w => exact onReferenced_slot spares
  | connectWait waiting owner deadline interrupted =>
    exact netConnectWait_slot spares
  | accept handle cap copied =>
    exact netAccept_slot fun request member used same => spares request member used same.symm
  | listen | connect | respond | shutdown | hold | cleanup | receive | tick | clock =>
    simp [Event.leavesUnread] at loud

theorem retains_step {e : Event} {b : Bytes} (sound : net.Sound) (spares : net.Spares v i e)
    (retains : (net.slot i).core.Retains v b) : ((step net e).2.slot i).core.Retains v b := by
  cases quiet : e.leavesUnread with
  | true =>
    have start : net.All fun j c => c.core.Sane ∧ (j = i → c.core.Retains v b) :=
      fun j => ⟨sound j, fun same => same ▸ retains⟩
    exact (step_keeps retains_lasting quiet start i).2 rfl
  | false =>
    have named : (net.slot i).id = v := retains.1.1
    rw [spared_slot (named ▸ spares) quiet]
    exact retains

theorem netRead_again_iff {len : Nat} (peek copied : Bool) {c : Connection} (h : Host)
    (some : 1 ≤ len) :
    (Net.netRead len peek copied ⟨c, h⟩).1 = .error .again ↔
      c.reset = false ∧ c.localReadClosed = false ∧
        (tcpStateCanRead c.state = false ∨ (c.unread = [] ∧ c.peerClosed = false)) := by
  have positive : len ≠ 0 := Nat.one_le_iff_ne_zero.mp some
  simp only [Net.netRead, connection, exec, positive, if_false]
  repeat' split
  all_goals simp_all

end Sockets

/-- The state in which poll and read part: our FIN is out after the peer's, and the
connection neither failed nor gave up reading. -/
def Connection.AwaitsLastAck (c : Connection) : Prop :=
  c.state = .lastAck ∧ c.reset = false ∧ c.localReadClosed = false

namespace Sockets

variable {interest : Interest} {len : Nat}

/-- Poll reports input exactly when a read does not wait, with one exception. -/
theorem pollin_iff (sane : c.core.Sane) (full : c.state ≠ .empty)
    {peek copied : Bool} (some : 1 ≤ len) (asked : interest.pollin = true) :
    (((pollConnection interest c).pollin = true ↔
      (Net.netRead len peek copied ⟨c, h⟩).1 ≠ .error .again) ↔ ¬c.AwaitsLastAck) := by
  have failed : c.reset = true → c.peerClosed = true := sane.failed
  have finished : c.state = .lastAck → c.peerClosed = true := fun last =>
    sane.finished (.inr (.inl last))
  have opening : c.state = .synSent ∨ c.state = .synReceived → c.reset = false →
      c.unread = [] ∧ c.peerClosed = false ∧ c.localReadClosed = false := sane.opening
  rw [Ne, netRead_again_iff peek copied h some, Connection.AwaitsLastAck]
  simp only [pollConnection, asked]
  cases reset : c.reset with
  | true => simp [failed reset]
  | false =>
    cases shut : c.localReadClosed with
    | true => simp
    | false =>
      cases state : c.state <;> simp_all [tcpStateCanRead] <;> tauto

theorem pollout_respond {byte : UInt8} (ready : (pollConnection interest c).pollout = true) :
    (Net.netRespond [byte] ⟨c, h⟩).1 ≠ .error .again := by
  simp only [pollConnection, Bool.and_eq_true, Bool.not_eq_true', decide_eq_true_eq] at ready
  obtain ⟨⟨⟨⟨-, canWrite⟩, unshut⟩, live⟩, space⟩ := ready
  simp only [Net.netRespond, connection, exec, canWrite, unshut, live, space]
  simp
  split <;> simp

theorem netRead_unread (sane : c.core.Sane) (full : c.state ≠ .empty) (live : c.reset = false)
    (reading : c.localReadClosed = false) (waiting : c.unread ≠ []) (early : c.state ≠ .lastAck) :
    (Net.netRead (len + 1) false true ⟨c, h⟩).1 = .ok (c.unread.take (len + 1)) := by
  have past : ¬c.core.Opening := fun opening => waiting (sane.opening opening live).1
  have canRead : tcpStateCanRead c.state = true := by
    simp only [Core.Opening, core] at past
    cases state : c.state <;> simp_all [tcpStateCanRead]
  simp [Net.netRead, connection, live, reading, canRead, waiting]

/-- A client connects, the server answers, sends one byte and its FIN. -/
def halfClosedRun : List Event :=
  let segment (seq : Seq) (flags : Flags) (payload : Bytes) : Frame :=
    { mac := 7, ip := 9, srcPort := 80, dstPort := 49152, seq := seq, ack := 0x6372c001,
      flags := flags, window := 4096, options := [], payload := payload }
  [.connect 1 9 80 (some 7), .receive (segment 100 { syn := true, ack := true } []),
    .receive (segment 101 { ack := true } [65]),
    .receive (segment 102 { ack := true, fin := true } [])]

/-- Another connection is opened, read and closed while time passes. -/
def otherRun : List Event :=
  [.connect 1 9 81 (some 7), .read (.connection 2) 1 false true, .close (.connection 2), .clock 5]

end Sockets

end SrvrOS.Net
