import SrvrOS.Pty.Model

/-!
# A reference line editor

What canonical input is for, without rings, records or echo: typed bytes edit a current
line, a finished line joins a queue, and a reader takes its bytes from the first line of
the queue. The editor never refuses a byte.
-/

namespace SrvrOS.Pty

abbrev Line := List UInt8

/-- Remove the last character: its trailing continuation bytes and the byte before them. -/
def eraseCharacter (line : Line) : Line :=
  (line.reverse.dropWhile isContinuation).tail.reverse

/-- Finished lines that are not yet read, oldest first, and the line being edited. -/
structure Editor where
  pending : List Line
  current : Line
  deriving DecidableEq, Repr

namespace Editor

def empty : Editor := ⟨[], []⟩

/-- Finish the current line, possibly with its terminator. -/
def finish (e : Editor) (terminator : List UInt8) : Editor :=
  ⟨e.pending ++ [e.current ++ terminator], []⟩

/-- The typed byte, after the newline mapping, discards all input. -/
def interrupts (a : Termios) (c : UInt8) : Bool :=
  a.isig && a.isControl .vintr (typedByte a c)

def type (a : Termios) (e : Editor) (typed : UInt8) : Editor :=
  let c := typedByte a typed
  if interrupts a typed then empty
  else if a.isControl .verase c then { e with current := eraseCharacter e.current }
  else if a.isControl .vkill c then { e with current := [] }
  else if a.isControl .veof c then e.finish []
  else if c = newline ∨ a.isControl .veol c then e.finish [c]
  else if e.current.length < 1023 then { e with current := e.current ++ [c] }
  else e

/-- Read at most `length` bytes of the first finished line; `none` waits for one. -/
def read (e : Editor) (length : Nat) : Option (List UInt8) × Editor :=
  match e.pending with
  | [] => (none, e)
  | line :: rest =>
    (some (line.take length),
      { e with pending := if line.length ≤ length then rest else line.drop length :: rest })

/-- What a user and a reader do with an editor. -/
inductive Action where
  | typed (byte : UInt8)
  | read (length : Nat)
  deriving DecidableEq, Repr

def typedBytes : List Action → List UInt8
  | [] => []
  | .typed byte :: rest => byte :: typedBytes rest
  | .read _ :: rest => typedBytes rest

/-- Perform the actions in order; every read has an answer. -/
def perform (a : Termios) : Editor → List Action → List (Option (List UInt8)) × Editor
  | e, [] => ([], e)
  | e, .typed byte :: rest => perform a (e.type a byte) rest
  | e, .read length :: rest =>
    let answer := e.read length
    let later := perform a answer.2 rest
    (answer.1 :: later.1, later.2)

def delivered (answers : List (Option (List UInt8))) : List UInt8 :=
  (answers.filterMap id).flatten

theorem perform_append (a : Termios) (e : Editor) (left right : List Action) :
    perform a e (left ++ right) =
      ((perform a e left).1 ++ (perform a (perform a e left).2 right).1,
        (perform a (perform a e left).2 right).2) := by
  induction left generalizing e with
  | nil => rfl
  | cons action rest ih =>
    cases action with
    | typed b => exact ih (e.type a b)
    | read len => simp [perform, ih]

variable {a : Termios}

/-- Without an interrupt, typing finishes lines behind the pending ones and does not look
at them. -/
theorem type_pending {b : UInt8} (quiet : interrupts a b = false)
    (pending : List Line) (cur : Line) :
    type a ⟨pending, cur⟩ b =
      ⟨pending ++ (type a ⟨[], cur⟩ b).pending, (type a ⟨[], cur⟩ b).current⟩ := by
  simp only [type, quiet, finish, Bool.false_eq_true, if_false]
  split_ifs <;> simp

theorem read_pending {e : Editor} {len : Nat} :
    e.pending.flatten = (e.read len).1.getD [] ++ (e.read len).2.pending.flatten ∧
      (e.read len).2.current = e.current := by
  obtain ⟨pending, cur⟩ := e
  cases pending with
  | nil => simp [read]
  | cons line rest =>
    simp only [read, List.flatten_cons, Option.getD_some, and_true]
    split
    · rename_i whole
      rw [List.take_of_length_le whole]
    · rw [List.flatten_cons, ← List.append_assoc, List.take_append_drop]

/-- Between interrupts, what was delivered and what is pending is what typing alone produces. -/
theorem perform_conserves {actions : List Action}
    (quiet : ∀ b ∈ typedBytes actions, interrupts a b = false) (e : Editor) :
    delivered (perform a e actions).1 ++ (perform a e actions).2.pending.flatten =
      ((typedBytes actions).foldl (type a) e).pending.flatten := by
  suffices general : ∀ (actions : List Action) (e all : Editor) (taken : List UInt8),
      (∀ b ∈ typedBytes actions, interrupts a b = false) →
      all.pending.flatten = taken ++ e.pending.flatten → all.current = e.current →
      taken ++ (delivered (perform a e actions).1 ++ (perform a e actions).2.pending.flatten) =
        ((typedBytes actions).foldl (type a) all).pending.flatten by
    simpa using general actions e e [] quiet rfl rfl
  intro actions
  induction actions with
  | nil =>
    intro e all taken _ lines _
    simpa [perform, delivered, typedBytes] using lines.symm
  | cons action rest ih =>
    intro e all taken silent lines cur
    cases action with
    | typed b =>
      have here := silent b (by simp [typedBytes])
      refine ih _ _ taken (fun later member => silent later (by simp [typedBytes, member])) ?_ ?_
      · rw [show all = ⟨all.pending, e.current⟩ by rw [← cur],
          type_pending here all.pending, type_pending here e.pending]
        simp [lines]
      · rw [show all = ⟨all.pending, e.current⟩ by rw [← cur],
          type_pending here all.pending, type_pending here e.pending]
    | read len =>
      obtain ⟨front, sameLine⟩ := read_pending
      have next := ih (e.read len).2 all (taken ++ (e.read len).1.getD []) silent
        (by rw [lines, front, List.append_assoc]) (cur.trans sameLine.symm)
      refine Eq.trans ?_ next
      cases answer : (e.read len).1 with
      | none => simp [perform, delivered, answer]
      | some bytes => simp [perform, delivered, answer]

end Editor

end SrvrOS.Pty
