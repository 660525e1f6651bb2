import SrvrOS.Pty.Editor

/-!
# The line discipline keeps its counters consistent

The input ring, the queue of record lengths and the unfinished line are edited by every branch of
the discipline. Each function gets one lemma with its effect on the lists that they stand for.
-/

namespace SrvrOS.Pty

open Lib Function List RingBuffer Nat Word Store Editor

variable {n lineSize : Nat} {c : UInt8} {withByte : Bool}

def recordQueue (p : Model) : RingBuffer Nat := ⟨p.records, p.recordHead, p.recordCount⟩

/-- The lengths of the pending records, oldest first. -/
def pendingRecords (p : Model) : List Nat := (recordQueue p).contents ptyRecords

def unfinished (p : Model) : List UInt8 := p.line.read 0 p.lineSize

def waiting (p : Model) : List UInt8 := p.input.contents ptyBytes

def shown (p : Model) : List UInt8 := p.output.contents ptyBytes

/-- The counters of the discipline are in range and agree with each other. -/
structure WellFormed (p : Model) : Prop where
  input : p.input.Bounded ptyBytes
  output : p.output.Bounded ptyBytes
  lineSize_le : p.lineSize ≤ ptyLine - 1
  queue : (recordQueue p).Bounded ptyRecords
  canonical : p.attributes.icanon = true → (pendingRecords p).sum = p.input.size
  stream : p.attributes.icanon = false → p.recordCount = 0

theorem wellFormed_init : WellFormed init where
  input := ⟨by decide, by decide⟩
  output := ⟨by decide, by decide⟩
  lineSize_le := by decide
  queue := ⟨by decide, by decide⟩
  canonical := fun _ => rfl
  stream := fun _ => rfl

section Rings

variable {r : RingBuffer UInt8}

section

variable (bounded : r.Bounded ptyBytes)

include bounded

theorem space_eq : space r = ptyBytes - r.size := sub_of_le bounded.size_le (by decide)

theorem put_bounded (room : 0 < space r) (byte : UInt8) : (put r byte).Bounded ptyBytes := by
  rw [space_eq bounded] at room
  exact bounded.put (by omega) byte

theorem put_contents (room : 0 < space r) {byte : UInt8} :
    (put r byte).contents ptyBytes = r.contents ptyBytes ++ [byte] := by
  rw [space_eq bounded] at room
  exact contents_put (by omega) byte

theorem putAll_spec {b : List UInt8} (room : b.length ≤ space r) :
    (putAll r b).Bounded ptyBytes ∧
      (putAll r b).contents ptyBytes = r.contents ptyBytes ++ b := by
  induction b generalizing r with
  | nil => exact ⟨bounded, (append_nil _).symm⟩
  | cons byte rest ih =>
    simp only [length_cons] at room
    have next := put_bounded bounded (by omega) byte
    have smaller : rest.length ≤ space (put r byte) := by
      rw [space_eq next]
      rw [space_eq bounded] at room
      simp only [put, put_size]
      omega
    obtain ⟨kept, view⟩ := ih next smaller
    refine ⟨kept, ?_⟩
    rw [put_contents bounded (by omega), append_assoc] at view
    exact view

end

theorem putLine_spec (line : Store UInt8) (bounded : r.Bounded ptyBytes) (room : n ≤ space r) :
    (putLine line n r).Bounded ptyBytes ∧
      (putLine line n r).contents ptyBytes = r.contents ptyBytes ++ line.read 0 n := by
  induction n with
  | zero => exact ⟨bounded, (append_nil _).symm⟩
  | succ n ih =>
    obtain ⟨kept, view⟩ := ih (by omega)
    have filled : (putLine line n r).size = r.size + n := by
      simpa using congrArg length view
    have left : 0 < space (putLine line n r) := by
      rw [space_eq kept]
      rw [space_eq bounded] at room
      omega
    refine ⟨put_bounded kept left _, ?_⟩
    calc (putLine line (n + 1) r).contents ptyBytes
        = (putLine line n r).contents ptyBytes ++ [line n] := put_contents kept left
      _ = r.contents ptyBytes ++ line.read 0 (n + 1) := by
          rw [view, read_add]
          simp [Store.read]

theorem consume_eq_skip (bounded : r.Bounded ptyBytes) (inside : n ≤ r.size) :
    consume r n = r.skip ptyBytes n := by
  have small : r.size < 2 ^ 32 := bounded.size_le.trans_lt (by decide)
  simp [consume, skip, sub_of_le inside small]

theorem ringRuns_append (bounded : r.Bounded ptyBytes) (inside : n ≤ r.size) :
    (ringRuns r n).1 ++ (ringRuns r n).2 = (r.contents ptyBytes).take n :=
  read_wrapped bounded inside

end Rings

theorem outputBytes_length (a : Termios) : (outputBytes a c).length = outputWidth a c := by
  unfold outputBytes outputWidth
  split <;> simp_all

/-- A step ends well formed with these lists, and leaves the settings and the close flags alone. -/
structure Leads (p q : Model) (records : List Nat) (bytes line : List UInt8) : Prop where
  wellFormed : WellFormed q
  records_eq : pendingRecords q = records
  waiting_eq : waiting q = bytes
  unfinished_eq : unfinished q = line
  attributes_eq : q.attributes = p.attributes
  masterClosed_eq : q.masterClosed = p.masterClosed
  slaveClosed_eq : q.slaveClosed = p.slaveClosed

theorem Leads.refl {p : Model} (wf : WellFormed p) :
    Leads p p (pendingRecords p) (waiting p) (unfinished p) :=
  ⟨wf, rfl, rfl, rfl, rfl, rfl, rfl⟩

section Branches

variable {p q : Model} {records : List Nat} {b line text : List UInt8}

theorem Leads.shows (leads : Leads p q records b line) (room : text.length ≤ space q.output) :
    Leads p { q with output := putAll q.output text } records b line :=
  { leads with
    wellFormed := { leads.wellFormed with output := (putAll_spec leads.wellFormed.output room).1 } }

theorem Leads.echoes (leads : Leads p q records b line) {echo : Bool}
    (room : ¬(echo = true ∧ space q.output < text.length)) :
    Leads p (if echo then { q with output := putAll q.output text } else q)
      records b line := by
  cases echo with
  | false => exact leads
  | true => exact leads.shows (by simpa using room)

theorem clearInput_leads (wf : WellFormed p) : Leads p (clearInput p) [] [] [] where
  wellFormed :=
    { input := ⟨(by decide : 0 < ptyBytes), zero_le _⟩
      output := wf.output
      lineSize_le := zero_le _
      queue := ⟨(by decide : 0 < ptyRecords), zero_le _⟩
      canonical := fun _ => rfl
      stream := fun _ => rfl }
  records_eq := rfl
  waiting_eq := rfl
  unfinished_eq := rfl
  attributes_eq := rfl
  masterClosed_eq := rfl
  slaveClosed_eq := rfl

theorem inputInterrupt_leads (wf : WellFormed p) (done : inputInterrupt p = some q) :
    Leads p q [] [] [] := by
  unfold inputInterrupt at done
  split at done
  · cases done
  rename_i room
  cases done
  have cleared := clearInput_leads wf
  exact Leads.echoes
    (q := { clearInput p with signals := p.signals ||| ((1 : UInt64) <<< 2) })
    { cleared with wellFormed := { cleared.wellFormed with } } room

theorem inputRaw_leads (wf : WellFormed p) (mode : p.attributes.icanon = false)
    (done : inputRaw p c = some q) :
    Leads p q (pendingRecords p) (waiting p ++ [c]) (unfinished p) := by
  unfold inputRaw at done
  split at done
  · cases done
  rename_i room
  cases done
  obtain ⟨inputRoom, echoRoom⟩ := not_or.mp room
  have stored : Leads p { p with input := put p.input c } (pendingRecords p)
      (waiting p ++ [c]) (unfinished p) :=
    { wellFormed :=
        { wf with
          input := put_bounded wf.input (Nat.pos_of_ne_zero inputRoom) c
          canonical := fun canonical => by simp [mode] at canonical }
      records_eq := rfl
      waiting_eq := put_contents wf.input (Nat.pos_of_ne_zero inputRoom)
      unfinished_eq := rfl
      attributes_eq := rfl
      masterClosed_eq := rfl
      slaveClosed_eq := rfl }
  exact stored.echoes (by rwa [outputBytes_length])

theorem lineRead_succ {line : Store UInt8} {n : Nat} :
    line.read 0 (n + 1) = line.read 0 n ++ [line n] := by
  rw [read_add]
  simp [Store.read]

theorem eraseStart_le (line : Store UInt8) (start : Nat) : eraseStart line start ≤ start := by
  induction start with
  | zero => exact le_rfl
  | succ start ih =>
    unfold eraseStart
    split
    · omega
    · exact le_rfl

theorem read_eraseStart (line : Store UInt8) (start : Nat) :
    line.read 0 (eraseStart line start) = eraseCharacter (line.read 0 (start + 1)) := by
  induction start with
  | zero =>
    by_cases continuation : isContinuation (line 0) = true <;>
      simp [eraseStart, eraseCharacter, Store.read, continuation]
  | succ start ih =>
    rw [lineRead_succ]
    by_cases continuation : isContinuation (line (start + 1)) = true
    · simp only [eraseStart, continuation, if_true]
      rw [ih]
      simp [eraseCharacter, continuation]
    · simp [eraseStart, eraseCharacter, continuation]

theorem erasedBytes_le (line : Store UInt8) (lineSize : Nat) :
    erasedBytes line lineSize ≤ lineSize := by
  unfold erasedBytes
  split <;> omega

theorem erasedBytes_pos (line : Store UInt8) (some : lineSize ≠ 0) :
    0 < erasedBytes line lineSize := by
  have := eraseStart_le line (lineSize - 1)
  simp only [erasedBytes, some, if_false]
  omega

theorem read_erasedBytes (line : Store UInt8) (lineSize : Nat) :
    line.read 0 (lineSize - erasedBytes line lineSize) =
      eraseCharacter (line.read 0 lineSize) := by
  cases lineSize with
  | zero => rfl
  | succ start =>
    have := eraseStart_le line start
    have left : start + 1 - erasedBytes line (start + 1) = eraseStart line start := by
      simp only [erasedBytes, Nat.succ_ne_zero, if_false, Nat.add_sub_cancel]
      omega
    rw [left, read_eraseStart]

theorem WellFormed.lineSize_small (wf : WellFormed p) : p.lineSize < 2 ^ 32 :=
  wf.lineSize_le.trans_lt (by decide)

theorem shorten_leads (wf : WellFormed p) (shorter : lineSize ≤ p.lineSize) :
    Leads p { p with lineSize := lineSize } (pendingRecords p) (waiting p)
      (p.line.read 0 lineSize) :=
  { Leads.refl wf with
    wellFormed := { wf with lineSize_le := shorter.trans wf.lineSize_le }
    records_eq := rfl
    waiting_eq := rfl
    unfinished_eq := rfl }

theorem inputErase_leads (wf : WellFormed p) (done : inputErase p = some q) :
    Leads p q (pendingRecords p) (waiting p) (eraseCharacter (unfinished p)) := by
  have erased := read_erasedBytes p.line p.lineSize
  unfold inputErase at done
  dsimp only at done
  split at done
  · rename_i nothing
    cases done
    rw [nothing] at erased
    rw [unfinished, ← erased]
    exact Leads.refl wf
  split at done
  · cases done
  rename_i room
  cases done
  rw [sub_of_le (erasedBytes_le _ _) wf.lineSize_small]
  have shorter := shorten_leads wf (sub_le p.lineSize (erasedBytes p.line p.lineSize))
  rw [erased] at shorter
  exact shorter.echoes room

/-- The kill loop empties the line; its echo stays inside the room it asked for. -/
theorem killLine_spec (echo : Bool) (line : Store UInt8) {fuel : Nat} {out : RingBuffer UInt8}
    (enough : lineSize ≤ fuel) (small : lineSize < 2 ^ 32) (bounded : out.Bounded ptyBytes)
    (room : echo = true → lineSize * 3 ≤ space out) :
    (killLine echo line fuel lineSize out).1 = 0 ∧
      (killLine echo line fuel lineSize out).2.Bounded ptyBytes := by
  induction fuel generalizing lineSize out with
  | zero => exact ⟨le_zero.mp enough, bounded⟩
  | succ fuel ih =>
    unfold killLine
    split
    · exact ⟨‹_›, bounded⟩
    rename_i some
    have least := erasedBytes_pos line some
    have most := erasedBytes_le line lineSize
    rw [sub_of_le most small]
    cases echo with
    | false => exact ih (by omega) (by omega) bounded nofun
    | true =>
      have fits : eraseEcho.length ≤ space out := by
        have := room rfl
        simp only [eraseEcho, length_cons, length_nil]
        omega
      obtain ⟨kept, view⟩ := putAll_spec bounded fits
      refine ih (by omega) (by omega) kept fun _ => ?_
      have longer : (putAll out eraseEcho).size = out.size + 3 := by
        simpa [eraseEcho] using congrArg length view
      have := room rfl
      rw [space_eq bounded] at this
      simp only [if_true, space_eq kept]
      omega

theorem inputKill_leads (wf : WellFormed p) (done : inputKill p = some q) :
    Leads p q (pendingRecords p) (waiting p) [] := by
  unfold inputKill at done
  split at done
  · cases done
  rename_i room
  cases done
  obtain ⟨emptied, bounded⟩ := killLine_spec p.attributes.echo p.line (le_refl p.lineSize)
    wf.lineSize_small wf.output fun echo => by simpa [echo] using room
  simp only [emptied]
  have cleared := shorten_leads wf (zero_le p.lineSize)
  exact { cleared with wellFormed := { cleared.wellFormed with output := bounded } }

/-- What `publish` appends behind the line. -/
def terminator (withByte : Bool) (c : UInt8) : List UInt8 := if withByte then [c] else []

theorem publish_input (wf : WellFormed p)
    (room : p.lineSize + (terminator withByte c).length ≤ space p.input) :
    let filled := putLine p.line p.lineSize p.input
    let ring := if withByte then put filled c else filled
    ring.Bounded ptyBytes ∧
      ring.contents ptyBytes = waiting p ++ (unfinished p ++ terminator withByte c) := by
  obtain ⟨kept, view⟩ := putLine_spec p.line wf.input (by omega : p.lineSize ≤ space p.input)
  cases withByte with
  | false =>
    refine ⟨kept, ?_⟩
    simp only [terminator, Bool.false_eq_true, if_false, append_nil]
    exact view
  | true =>
    have filled : (putLine p.line p.lineSize p.input).size = p.input.size + p.lineSize := by
      simpa using congrArg length view
    have left : 0 < space (putLine p.line p.lineSize p.input) := by
      rw [space_eq kept]
      rw [space_eq wf.input] at room
      simp only [terminator, if_true, length_singleton] at room
      omega
    refine ⟨put_bounded kept left c, ?_⟩
    simp only [if_true, put_contents kept left, view, append_assoc]
    rfl

theorem publish_leads (wf : WellFormed p) (mode : p.attributes.icanon = true)
    (done : publish p withByte c = some q) :
    let line := unfinished p ++ terminator withByte c
    Leads p q (pendingRecords p ++ [line.length]) (waiting p ++ line) [] := by
  intro line
  have length_eq : p.lineSize + (if withByte then 1 else 0) = line.length := by
    cases withByte <;> simp [line, unfinished, terminator]
  unfold publish at done
  simp only [length_eq] at done
  split at done
  · cases done
  rename_i refused
  cases done
  obtain ⟨slots, room⟩ := not_or.mp refused
  have fits : p.lineSize + (terminator withByte c).length ≤ space p.input := by
    simpa [line, unfinished] using room
  obtain ⟨inputBounded, inputView⟩ := publish_input wf fits
  have lengthSmall : line.length < 2 ^ 16 := by
    have := space_eq wf.input
    have : ptyBytes < 2 ^ 16 := by decide
    omega
  have free := lt_of_le_of_ne wf.queue.size_le slots
  have queueView := contents_put free (wrap 16 line.length)
  rw [wrap_of_lt lengthSmall] at queueView ⊢
  exact
    { wellFormed :=
        { input := inputBounded
          output := wf.output
          lineSize_le := zero_le _
          queue := wf.queue.put free _
          canonical := fun _ => by
            have sum := wf.canonical mode
            have size := congrArg length inputView
            simp only [contents_length] at size
            have records : (pendingRecords p ++ [line.length]).sum =
                p.input.size + line.length := by simp [sum]
            refine (congrArg List.sum queueView).trans (records.trans ?_)
            rw [size]
            simp [waiting, line]
          stream := fun stream => by simp [mode] at stream }
      records_eq := queueView
      waiting_eq := inputView
      unfinished_eq := rfl
      attributes_eq := rfl
      masterClosed_eq := rfl
      slaveClosed_eq := rfl }

theorem publish_output (done : publish p withByte c = some q) : q.output = p.output := by
  simp only [publish, Option.ite_none_left_eq_some, Option.some.injEq] at done
  obtain ⟨_, rfl⟩ := done
  rfl

theorem inputNewline_leads (wf : WellFormed p) (mode : p.attributes.icanon = true)
    (done : inputNewline p c = some q) :
    Leads p q (pendingRecords p ++ [(unfinished p ++ [c]).length])
      (waiting p ++ (unfinished p ++ [c])) [] := by
  unfold inputNewline at done
  split at done
  · cases done
  obtain ⟨published, publishes, shows⟩ := Option.map_eq_some_iff.mp done
  subst shows
  have leads := publish_leads wf mode publishes
  refine leads.echoes ?_
  rwa [outputBytes_length, publish_output publishes, leads.attributes_eq]

theorem inputOrdinary_leads (wf : WellFormed p) (done : inputOrdinary p c = some q) :
    Leads p q (pendingRecords p) (waiting p)
      (if (unfinished p).length < 1023 then unfinished p ++ [c] else unfinished p) := by
  have limit := wf.lineSize_le
  have lengthEq : (unfinished p).length = p.lineSize := read_length
  simp only [ptyLine] at limit
  unfold inputOrdinary at done
  split at done
  · rename_i full
    cases done
    rw [if_neg (by rw [lengthEq, full]; decide)]
    exact Leads.refl wf
  rename_i notFull
  simp only [ptyLine] at notFull
  split at done
  · cases done
  cases done
  rw [if_pos (show (unfinished p).length < 1023 by omega)]
  have longer : unfinished { p with line := update p.line p.lineSize c
                                    lineSize := p.lineSize + 1 } = unfinished p ++ [c] := by
    simp only [unfinished, lineRead_succ, update_self]
    congr 1
    apply read_congr
    intro address _ below
    exact update_of_ne (by omega) _ _
  have stored : Leads p { p with line := update p.line p.lineSize c
                                 lineSize := p.lineSize + 1 }
      (pendingRecords p) (waiting p) (unfinished p ++ [c]) :=
    { Leads.refl wf with
      wellFormed := { wf with lineSize_le := by simp only [ptyLine]; omega }
      unfinished_eq := longer }
  exact stored.echoes (by rwa [outputBytes_length])

/-- The editor that a well-formed canonical terminal stands for. -/
def editorOf (p : Model) : Editor :=
  ⟨(pendingRecords p).splitLengths (waiting p), unfinished p⟩

theorem splitLengths_append_singleton {sizes : List Nat} {b line : List UInt8}
    (covered : sizes.sum = b.length) :
    (sizes ++ [line.length]).splitLengths (b ++ line) =
      sizes.splitLengths b ++ [line] := by
  induction sizes generalizing b with
  | nil =>
    have none := length_eq_zero_iff.mp covered.symm
    simp [none]
  | cons size sizes ih =>
    simp only [sum_cons] at covered
    have inside : size ≤ b.length := by omega
    simp only [cons_append, splitLengths_cons, take_append_of_le_length inside,
      drop_append_of_le_length inside]
    rw [ih (by rw [length_drop]; omega)]

theorem input_leads (wf : WellFormed p) (done : input p c = some q) :
    ∃ records b line, Leads p q records b line ∧
      (p.attributes.icanon = true →
        (⟨records.splitLengths b, line⟩ : Editor) = (editorOf p).type p.attributes c) := by
  simp only [input, inputTyped] at done
  split at done
  · rename_i key
    exact ⟨_, _, _, inputInterrupt_leads wf done,
      fun _ => by simp [type, interrupts, key, empty]⟩
  rename_i noInterrupt
  split at done
  · rename_i raw
    have mode : p.attributes.icanon = false := by simpa using raw
    exact ⟨_, _, _, inputRaw_leads wf mode done, fun canonical => by simp [mode] at canonical⟩
  rename_i canonical
  have mode : p.attributes.icanon = true := by simpa using canonical
  have covered : (pendingRecords p).sum = (waiting p).length := by
    rw [wf.canonical mode, waiting, contents_length]
  have quiet : interrupts p.attributes c = false := by simpa [interrupts] using noInterrupt
  split at done
  · rename_i erase
    exact ⟨_, _, _, inputErase_leads wf done,
      fun _ => by simp [type, quiet, erase, editorOf]⟩
  rename_i noErase
  split at done
  · rename_i kill
    exact ⟨_, _, _, inputKill_leads wf done,
      fun _ => by simp [type, quiet, noErase, kill, editorOf]⟩
  rename_i noKill
  split at done
  · rename_i eof
    refine ⟨_, _, _, publish_leads wf mode done, fun _ => ?_⟩
    rw [splitLengths_append_singleton covered]
    simp [type, quiet, noErase, noKill, eof, editorOf, finish, terminator]
  rename_i noEof
  split at done
  · rename_i eol
    refine ⟨_, _, _, inputNewline_leads wf mode done, fun _ => ?_⟩
    rw [splitLengths_append_singleton covered]
    simp [type, quiet, noErase, noKill, noEof, eol, editorOf, finish]
  rename_i ordinary
  refine ⟨_, _, _, inputOrdinary_leads wf done, fun _ => ?_⟩
  by_cases room : (unfinished p).length < 1023 <;>
    simp [type, quiet, noErase, noKill, noEof, ordinary, editorOf, room]

end Branches

end SrvrOS.Pty
