import SrvrOS.Pty.Invariant

/-!
# Readiness of the pseudo-terminal

`kernel/src/pty_model.c` answers in three places whether a side may write. `pty_model_write_ready`
and `input` agree on every byte; `pty_model_poll` looks at the rings only, and not at the record
queue and the unfinished line.
-/

namespace SrvrOS.Pty

open Lib

/-- The bits `SRV_POLLIN`, `SRV_POLLOUT` and `SRV_POLLHUP`. -/
structure PollEvents where
  pollin : Bool := false
  pollout : Bool := false
  pollhup : Bool := false
  deriving DecidableEq, Repr

variable (p : Model) (master : Bool) (c : UInt8)

def echoFits (width : Nat) : Bool := !p.attributes.echo || decide (width ≤ space p.output)

/-- `pty_model_write_ready` for the master once the byte is mapped. -/
def readyTyped : Bool :=
  let width := outputWidth p.attributes c
  if p.attributes.isig && p.attributes.isControl .vintr c then echoFits p 4
  else if ¬p.attributes.icanon then decide (space p.input ≠ 0) && echoFits p width
  else if p.attributes.isControl .verase c then decide (p.lineSize = 0) || echoFits p 3
  else if p.attributes.isControl .vkill c then echoFits p (p.lineSize * 3)
  else if p.attributes.isControl .veof c then
    decide (p.recordCount < ptyRecords) && decide (p.lineSize ≤ space p.input)
  else if c = newline ∨ p.attributes.isControl .veol c then
    decide (p.recordCount < ptyRecords) && decide (p.lineSize + 1 ≤ space p.input) &&
      echoFits p width
  else decide (p.lineSize = ptyLine - 1) || echoFits p width

def ptyModelWriteReady : Bool :=
  if peerClosed p master then true
  else if ¬master then decide (outputWidth p.attributes c ≤ space p.output)
  else readyTyped p (typedByte p.attributes c)

def ptyModelPoll (events : PollEvents) : PollEvents :=
  let closed := peerClosed p master
  let readable := if master then decide (p.output.size ≠ 0)
    else if p.attributes.icanon then decide (p.recordCount ≠ 0)
    else decide (p.input.size ≠ 0)
  let writable := if master then decide (0 < space p.input) && decide (4 ≤ space p.output)
    else decide (2 ≤ space p.output)
  { pollin := events.pollin && (readable || closed)
    pollout := events.pollout && writable && !closed
    pollhup := closed }

/-- The byte ends or kills an edited line that lacks the room for it. -/
def lineBlocked : Bool :=
  p.attributes.icanon && !(p.attributes.isig && p.attributes.isControl .vintr c) &&
    !p.attributes.isControl .verase c &&
    if p.attributes.isControl .vkill c then !echoFits p (p.lineSize * 3)
    else if p.attributes.isControl .veof c then
      decide (p.recordCount = ptyRecords) || decide (space p.input < p.lineSize)
    else decide (c = newline ∨ p.attributes.isControl .veol c) &&
      (decide (p.recordCount = ptyRecords) || decide (space p.input < p.lineSize + 1))

variable {p} {master} {c} {events : PollEvents}

theorem isSome_unless {α : Type} (refused : Prop) [Decidable refused] (outcome : Option α) :
    (if refused then none else outcome).isSome = (!decide refused && outcome.isSome) := by
  split <;> simp [*]

theorem echoFits_eq (width : Nat) :
    echoFits p width = !decide (p.attributes.echo = true ∧ space p.output < width) := by
  cases echo : p.attributes.echo <;> simp [echoFits, echo, ← decide_not]

theorem publish_isSome (wf : WellFormed p) (withByte : Bool) :
    (publish p withByte c).isSome = (decide (p.recordCount < ptyRecords) &&
      decide (p.lineSize + (if withByte then 1 else 0) ≤ space p.input)) := by
  have count : p.recordCount ≤ ptyRecords := wf.queue.size_le
  simp only [publish, isSome_unless, Option.isSome_some, Bool.and_true, ← Bool.decide_and,
    ← decide_not]
  exact decide_eq_decide.mpr (by omega)

theorem erasedBytes_eq_zero {line : Store UInt8} {lineSize : Nat} :
    erasedBytes line lineSize = 0 ↔ lineSize = 0 := by
  refine ⟨fun none => ?_, fun none => by simp [erasedBytes, none]⟩
  by_contra some
  exact Nat.pos_iff_ne_zero.mp (erasedBytes_pos line some) none

theorem inputTyped_isSome (wf : WellFormed p) (c : UInt8) :
    (inputTyped p c).isSome = readyTyped p c := by
  unfold inputTyped readyTyped
  simp only [echoFits_eq]
  split
  · simp [inputInterrupt, isSome_unless]
  split
  · simp [inputRaw, isSome_unless]
  split
  · by_cases none : p.lineSize = 0 <;>
      simp [inputErase, isSome_unless, erasedBytes_eq_zero, none]
  split
  · simp [inputKill, isSome_unless]
  split
  · simp [publish_isSome wf]
  split
  · simp [inputNewline, isSome_unless, publish_isSome wf, Bool.and_comm]
  · by_cases full : p.lineSize = ptyLine - 1 <;> simp [inputOrdinary, isSome_unless, full]

theorem ptyModelWrite_again (wf : WellFormed p) (master : Bool) (c : UInt8) :
    ptyModelWriteReady p master c = true ↔ (ptyModelWrite p master [c]).1 ≠ errAgain := by
  have taken := inputTyped_isSome wf (typedByte p.attributes c)
  unfold ptyModelWriteReady ptyModelWrite
  simp only [List.cons_ne_nil]
  split
  · simp [errAgain]
  cases master with
  | false =>
    simp only [decide_eq_true_eq, Bool.false_eq_true, if_true, if_false, not_false_eq_true,
      writeSlave]
    split <;> simp [errAgain] <;> omega
  | true =>
    simp only [not_true_eq_false, if_true, if_false, ← taken, writeMaster, input]
    cases inputTyped p (typedByte p.attributes c) with
    | none => simp
    | some next =>
      dsimp only
      split <;> simp [errAgain]

theorem copied_ne_again {fault : Prop} [Decidable fault] {count : Nat} {bytes : List UInt8}
    {q : Model} :
    (if fault then ((⟨errFault, []⟩ : ReadAnswer), p) else (⟨count, bytes⟩, q)).1.result ≠
      errAgain := by
  split <;> simp [errFault, errAgain]

theorem readStream_again (length : Nat) (copyout : Copyout) :
    (readStream p master (length + 1) true copyout).1.result ≠ errAgain ↔
      (readRing p master).size ≠ 0 ∨ peerClosed p master = true := by
  have minimum : readMinimum p master (length + 1) true = 1 := by simp [readMinimum]
  rw [readStream, minimum]
  split
  next waits => simpa using waits
  next ready => exact iff_of_true copied_ne_again (by simpa [imp_iff_not_or] using ready)

/-- A nonblocking read of at least one byte waits exactly when poll reports no input. -/
theorem ptyModelRead_again (master : Bool) (length : Nat) (copyout : Copyout) :
    (ptyModelPoll p master events).pollin = (events.pollin && decide
      ((ptyModelReadChecked p master (length + 1) true copyout).1.result ≠ errAgain)) := by
  simp only [ptyModelPoll]
  congr 1
  rw [Bool.eq_iff_iff, decide_eq_true_eq, ptyModelReadChecked, if_neg (Nat.succ_ne_zero length)]
  by_cases editing : ¬master = true ∧ p.attributes.icanon = true
  · obtain ⟨slave, mode⟩ := editing
    obtain rfl : master = false := by simpa using slave
    simp only [Bool.or_eq_true, Bool.not_eq_true, decide_eq_true_eq, Bool.false_eq_true, if_true,
      if_false, not_false_eq_true, mode, and_self, peerClosed]
    split
    next none =>
      split
      next opened => simp_all
      next gone => exact iff_of_true (by simp_all) copied_ne_again
    next some => exact iff_of_true (by simp_all) copied_ne_again
  · rw [if_neg editing, readStream_again]
    cases master <;> simp_all [readRing]

/-- Where poll sees room for the master, a byte waits exactly when it is blocked. -/
theorem readyTyped_iff (wf : WellFormed p) (input : 0 < space p.input)
    (output : 4 ≤ space p.output) (c : UInt8) :
    readyTyped p c = true ↔ lineBlocked p c = false := by
  have count : p.recordCount < ptyRecords ↔ p.recordCount ≠ ptyRecords :=
    lt_iff_le_and_ne.trans (and_iff_right wf.queue.size_le)
  have some := Nat.pos_iff_ne_zero.mp input
  have fits (width : Nat) (small : width ≤ 4) : echoFits p width = true := by
    simp [echoFits, small.trans output]
  have width : outputWidth p.attributes c ≤ 4 := by
    unfold outputWidth
    split <;> decide
  simp only [readyTyped, lineBlocked, fits _ width, fits 3 (by decide), fits 4 (by decide), count]
  split
  next signal => simp [signal]
  next quiet =>
  rw [Bool.eq_false_of_not_eq_true quiet]
  split
  next raw => simp [raw, some]
  next editing =>
  split
  next erase => simp [erase]
  next ordinary =>
  simp only [Bool.eq_false_of_not_eq_true ordinary, not_not.mp editing]
  split
  next kill => simp
  next spared =>
  split
  next eof => simp
  next inside =>
  split
  next last => simp [last]
  next other => simp [other]

theorem ptyModelPoll_pollout (wf : WellFormed p)
    (reported : (ptyModelPoll p master events).pollout = true) :
    (∀ c, (ptyModelWrite p master [c]).1 ≠ errAgain) ↔
      (master = true → ∀ c, lineBlocked p (typedByte p.attributes c) = false) := by
  simp only [ptyModelPoll, Bool.and_eq_true, Bool.not_eq_true'] at reported
  obtain ⟨⟨-, writable⟩, opened⟩ := reported
  simp only [← ptyModelWrite_again wf, ptyModelWriteReady, opened]
  cases master with
  | false =>
    have room : 2 ≤ space p.output := by simpa using writable
    refine iff_of_true (fun c => ?_) (nofun)
    have width : outputWidth p.attributes c ≤ 2 := by
      unfold outputWidth
      split <;> decide
    simpa using width.trans room
  | true =>
    have room : 0 < space p.input ∧ 4 ≤ space p.output := by simpa using writable
    simp [readyTyped_iff wf room.1 room.2]

/-- Readiness and I/O of a pseudo-terminal in any state it can be in. -/
theorem ptyModel_readiness (requests : List Request) (master : Bool) (events : PollEvents) :
    (∀ c, ptyModelWriteReady (reached requests) master c = true ↔
      (ptyModelWrite (reached requests) master [c]).1 ≠ errAgain) ∧
    (∀ length copyout, (ptyModelPoll (reached requests) master events).pollin =
      (events.pollin && decide ((ptyModelReadChecked (reached requests) master (length + 1) true
        copyout).1.result ≠ errAgain))) ∧
    ((ptyModelPoll (reached requests) master events).pollout = true →
      ((∀ c, (ptyModelWrite (reached requests) master [c]).1 ≠ errAgain) ↔
        (master = true → ∀ c, lineBlocked (reached requests)
          (typedByte (reached requests).attributes c) = false))) :=
  have wf := reached_wellFormed requests
  ⟨ptyModelWrite_again wf master, ptyModelRead_again master, ptyModelPoll_pollout wf⟩

/-- The master of a terminal with a line and a half typed writes any byte. -/
theorem ptyModel_readiness_typed :
    let requests : List Request := [.write true [97, 10, 98]]
    (ptyModelPoll (reached requests) true { pollout := true }).pollout = true ∧
      ∀ c, (ptyModelWrite (reached requests) true [c]).1 ≠ errAgain := by
  intro requests
  have reported : (ptyModelPoll (reached requests) true { pollout := true }).pollout = true := by
    decide +kernel
  refine ⟨reported, ((ptyModel_readiness requests true { pollout := true }).2.2 reported).mpr ?_⟩
  intro _ c
  generalize typedByte (reached requests).attributes c = byte
  have every : ∀ byte : Fin 256, lineBlocked (reached requests) (.ofFin byte) = false := by
    decide +kernel
  exact every byte.toFin

/-- With 128 lines unread, poll reports room for a newline that `pty_model_write` refuses. -/
theorem fullRecords_pollout_again :
    (ptyModelPoll (reached [.write true (List.replicate 128 newline)]) true
      { pollout := true }).pollout = true ∧
    (ptyModelWrite (reached [.write true (List.replicate 128 newline)]) true [newline]).1 =
      errAgain := by
  decide +kernel

end SrvrOS.Pty
