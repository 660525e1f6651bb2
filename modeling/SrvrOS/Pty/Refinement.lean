import SrvrOS.Pty.Invariant

/-!
# The terminal refines a line editor

A transcript records the bytes accepted from each side and the answers of the reads while the
settings stay fixed. In canonical mode it is one of the reference editor; in raw mode without echo
each direction is a byte queue.
-/

namespace SrvrOS.Pty

open Lib List RingBuffer Editor

/-- What the two ends may do while the settings stay fixed. -/
inductive Event where
  | write (master : Bool) (data : List UInt8)
  | read (master : Bool) (length : Nat) (nonblocking : Bool) (copyout : Copyout)
  | takeSignals

/-- What went through the terminal. -/
structure Transcript where
  actions : List Editor.Action := []
  answers : List (Option (List UInt8)) := []
  written : List UInt8 := []
  seen : List UInt8 := []

def Transcript.append (left right : Transcript) : Transcript :=
  ⟨left.actions ++ right.actions, left.answers ++ right.answers,
    left.written ++ right.written, left.seen ++ right.seen⟩

/-- One event. A slave read of no bytes, or one whose callback refused the bytes, is no action. -/
def observe (p : Model) : Event → Transcript × Model
  | .write true data =>
    let outcome := ptyModelWrite p true data
    ({ actions := (data.take outcome.1.toNat).map .typed }, outcome.2)
  | .write false data =>
    let outcome := ptyModelWrite p false data
    ({ written := data.take outcome.1.toNat }, outcome.2)
  | .read false length nonblocking copyout =>
    let outcome := ptyModelReadChecked p false length nonblocking copyout
    (if length = 0 ∨ outcome.1.result = errFault then {}
      else
        { actions := [.read length]
          answers := [if outcome.1.result = errAgain then none else some outcome.1.bytes] },
      outcome.2)
  | .read true length nonblocking copyout =>
    let outcome := ptyModelReadChecked p true length nonblocking copyout
    ({ seen := outcome.1.bytes }, outcome.2)
  | .takeSignals => ({}, { p with signals := 0 })

def observeAll (p : Model) : List Event → Transcript × Model
  | [] => ({}, p)
  | event :: rest =>
    let first := observe p event
    let later := observeAll first.2 rest
    (first.1.append later.1, later.2)

/-- What stays fixed while events happen: a well-formed open terminal with settings `a`. -/
structure Running (a : Termios) (p : Model) : Prop where
  wellFormed : WellFormed p
  attributes_eq : p.attributes = a
  masterOpen : p.masterClosed = false
  slaveOpen : p.slaveClosed = false

section Steps

variable {a : Termios} {p q : Model} {b line : List UInt8} {records : List Nat}

theorem Running.of_leads (running : Running a p) (leads : Leads p q records b line) : Running a q :=
  ⟨leads.wellFormed, leads.attributes_eq.trans running.attributes_eq,
    leads.masterClosed_eq.trans running.masterOpen,
    leads.slaveClosed_eq.trans running.slaveOpen⟩

theorem Leads.editorOf_eq (leads : Leads p q records b line) :
    editorOf q = ⟨records.splitLengths b, line⟩ := by
  rw [editorOf, leads.records_eq, leads.waiting_eq, leads.unfinished_eq]

variable {c : UInt8}

theorem output_editorOf {p : Model} : editorOf (output p c) = editorOf p := rfl

section

variable (running : Running a p)

include running

theorem Running.output
    (room : outputWidth p.attributes c ≤ space p.output) : Running a (output p c) :=
  { running with wellFormed := output_wellFormed running.wellFormed room }

theorem ptyModelWrite_accepts (m : Bool) (d : List UInt8) :
    let out := if m then writeMaster d p else writeSlave d p
    (ptyModelWrite p m d).1.toNat = out.1 ∧
      (ptyModelWrite p m d).2 = out.2 := by
  have isOpen : peerClosed p m = false := by
    cases m
    · exact running.masterOpen
    · exact running.slaveOpen
  intro out
  unfold ptyModelWrite
  split
  · rename_i nothing
    subst nothing
    cases m <;> exact ⟨rfl, rfl⟩
  simp only [isOpen]
  by_cases none : out.1 = 0
  · simp [out] at none ⊢
    simp [none, errAgain]
  · simp [out] at none ⊢
    simp [none]

theorem writeMaster_refines (mode : a.icanon = true) (d : List UInt8) :
    Running a (writeMaster d p).2 ∧
      perform a (editorOf p) ((d.take (writeMaster d p).1).map .typed) =
        ([], editorOf (writeMaster d p).2) := by
  induction d generalizing p with
  | nil => exact ⟨running, rfl⟩
  | cons c rest ih =>
    unfold writeMaster
    split
    · exact ⟨running, rfl⟩
    rename_i next accepted
    obtain ⟨records, b, line, leads, typed⟩ := input_leads running.wellFormed accepted
    rw [running.attributes_eq] at typed
    have nextEditor := leads.editorOf_eq.trans (typed mode)
    have nextRunning := running.of_leads leads
    split
    · exact ⟨nextRunning, by simp [perform, nextEditor]⟩
    obtain ⟨kept, later⟩ := ih nextRunning
    refine ⟨kept, ?_⟩
    simp only [take_succ_cons, map_cons, perform]
    rw [← nextEditor]
    exact later

theorem writeSlave_editorOf {d : List UInt8} :
    Running a (writeSlave d p).2 ∧ editorOf (writeSlave d p).2 = editorOf p := by
  induction d generalizing p with
  | nil => exact ⟨running, rfl⟩
  | cons c rest ih =>
    unfold writeSlave
    split
    · exact ⟨running, rfl⟩
    rename_i room
    obtain ⟨kept, eq⟩ := ih (running.output (not_lt.mp room))
    exact ⟨kept, eq.trans output_editorOf⟩

variable {nonblocking : Bool} {copyout : Copyout} {len : Nat}

theorem slaveRead_refines (mode : a.icanon = true) (wanted : len ≠ 0) :
    let out := ptyModelReadChecked p false len nonblocking copyout
    Running a out.2 ∧
      ((out = (⟨errFault, []⟩, p) ∧
          Refused copyout (((editorOf p).pending.headD []).take len)) ∨
        (out.1.result ≠ errFault ∧
          (out.1.result ≠ errAgain → out.1.result = out.1.bytes.length) ∧
          (editorOf p).read len =
            (if out.1.result = errAgain then none else some out.1.bytes,
              editorOf out.2))) := by
  have canonical : p.attributes.icanon = true := by rw [running.attributes_eq]; exact mode
  intro out
  simp only [out, ptyModelReadChecked, wanted, canonical, running.masterOpen, Bool.false_eq_true,
    if_true, if_false, not_false_eq_true, and_self]
  split
  · rename_i none
    refine ⟨running, .inr ⟨(by decide : errAgain ≠ errFault), fun waits => absurd rfl waits, ?_⟩⟩
    have noRecords : pendingRecords p = [] := contents_of_size_zero none
    simp [Editor.read, editorOf, noRecords]
  rename_i some
  rcases readRecord_spec running.wellFormed canonical some len copyout with
    ⟨fault, refused⟩ | ⟨answer, leads⟩
  · rw [fault]
    refine ⟨running, .inl ⟨rfl, ?_⟩⟩
    rw [editorOf, pendingRecords_eq_cons running.wellFormed some, splitLengths_cons]
    simpa [take_take] using refused
  have covered := head_le_size running.wellFormed canonical some
  have width : (waiting p).length = p.input.size := contents_length
  have noFault : ((min len (p.records p.recordHead) : Nat) : Int) ≠ errFault := by
    simp only [errFault]; omega
  have positive : ¬((min len (p.records p.recordHead) : Nat) : Int) = errAgain := by
    simp only [errAgain]; omega
  refine ⟨running.of_leads leads, .inr ⟨by rw [answer]; exact noFault, fun _ => ?_, ?_⟩⟩
  · rw [answer]
    simp only [length_take]
    omega
  rw [answer, leads.editorOf_eq]
  simp only [editorOf]
  rw [pendingRecords_eq_cons running.wellFormed some]
  simp only [Editor.read, splitLengths_cons, take_take, length_take, width, min_eq_left covered]
  split
  · rename_i whole
    simp [min_eq_right whole]
  have shorter : min len (p.records p.recordHead) = len := by omega
  have whole : len + (p.records p.recordHead - len) = p.records p.recordHead := by omega
  simp [shorter, whole, drop_take]

theorem Running.setReadRing {m : Bool} (stream : m = true ∨ p.attributes.icanon = false)
    {r : RingBuffer UInt8} (bounded : r.Bounded ptyBytes) : Running a (setReadRing p m r) := by
  have wf := setReadRing_wellFormed running.wellFormed stream bounded
  cases m <;> exact { running with wellFormed := wf }

theorem masterRead_spec :
    let out := ptyModelReadChecked p true len nonblocking copyout
    Running a out.2 ∧ editorOf out.2 = editorOf p ∧ out.2.input = p.input ∧
      out.1.bytes ++ shown out.2 = shown p := by
  intro out
  have wf := running.wellFormed
  by_cases none : len = 0
  · have zero : out = (⟨0, []⟩, p) := by simp [out, ptyModelReadChecked, none]
    rw [zero]
    exact ⟨running, rfl, rfl, rfl⟩
  have stream : out = readStream p true len nonblocking copyout := by
    simp [out, ptyModelReadChecked, none]
  rw [stream]
  rcases readStream_spec wf with ⟨e, -, same, -⟩ | ⟨answer, taken⟩
  · rw [same]
    exact ⟨running, rfl, rfl, rfl⟩
  rw [answer, taken]
  refine ⟨running.setReadRing (.inl rfl) ((readRing_bounded wf true).skip _), rfl, rfl, ?_⟩
  refine (congrArg _ (contents_skip (readRing p true) _)).trans ?_
  exact take_append_drop _ _

theorem observe_canonical (mode : a.icanon = true) (e : Event) :
    Running a (observe p e).2 ∧
      perform a (editorOf p) (observe p e).1.actions =
        ((observe p e).1.answers, editorOf (observe p e).2) := by
  cases e with
  | write m d =>
    obtain ⟨accepted, after⟩ := ptyModelWrite_accepts running m d
    cases m with
    | true =>
      simp only [observe, accepted, after]
      exact writeMaster_refines running mode d
    | false =>
      simp only [observe, after, Bool.false_eq_true, if_false, perform]
      obtain ⟨kept, eq⟩ := writeSlave_editorOf running
      exact ⟨kept, by rw [eq]⟩
  | read m len nonblocking copyout =>
    cases m with
    | true =>
      obtain ⟨kept, eq, -, -⟩ := masterRead_spec running
      exact ⟨kept, by simp only [observe, perform]; rw [eq]⟩
    | false =>
      by_cases none : len = 0
      · simp only [none]
        exact ⟨running, rfl⟩
      obtain ⟨kept, out⟩ := slaveRead_refines running mode none
      refine ⟨kept, ?_⟩
      rcases out with ⟨fault, -⟩ | ⟨noFault, -, answer⟩
      · simp [observe, fault, perform]
      simp only [observe, none, noFault, or_self, if_false, perform]
      rw [answer]
  | takeSignals => exact ⟨{ running with wellFormed := { running.wellFormed with } }, rfl⟩

theorem observeAll_canonical (mode : a.icanon = true) (events : List Event) :
    perform a (editorOf p) (observeAll p events).1.actions =
      ((observeAll p events).1.answers, editorOf (observeAll p events).2) := by
  induction events generalizing p with
  | nil => rfl
  | cons e rest ih =>
    obtain ⟨kept, first⟩ := observe_canonical running mode e
    simp [observeAll, Transcript.append, perform_append, first, ih kept]

theorem observeAll_running
    (each : ∀ p, Running a p → ∀ e, Running a (observe p e).2) {events : List Event} :
    Running a (observeAll p events).2 := by
  induction events generalizing p with
  | nil => exact running
  | cons e rest ih => exact ih (each p running e)

end

end Steps

/-! ## Raw mode -/

/-- No processing in either direction, as `cfmakeraw` of the C library sets it; echo is a
separate setting. -/
structure Termios.IsRaw (a : Termios) : Prop where
  noMapping : a.icrnl = false
  noExpansion : a.onlcr = false
  noEditing : a.icanon = false
  noSignals : a.isig = false

def Termios.cfmakeraw (a : Termios) : Termios where
  iflag := 0
  oflag := 0
  lflag := a.lflag &&& ~~~(lflagEcho ||| lflagIcanon ||| lflagIsig)
  cc := fun
    | .vmin => 1
    | .vtime => 0
    | index => a.cc index

theorem Termios.cfmakeraw_isRaw {a : Termios} : a.cfmakeraw.IsRaw ∧ a.cfmakeraw.echo = false := by
  have cleared : ∀ flag, ~~~(lflagEcho ||| lflagIcanon ||| lflagIsig) &&& flag = 0 →
      (a.cfmakeraw.lflag &&& flag != 0) = false := by
    intro flag masked
    simp [cfmakeraw, UInt32.and_assoc, masked]
  exact
    ⟨{ noMapping := by simp [icrnl, cfmakeraw]
       noExpansion := by simp [onlcr, cfmakeraw, oflagOpostOnlcr]
       noEditing := cleared lflagIcanon (by decide)
       noSignals := cleared lflagIsig (by decide) },
      cleared lflagEcho (by decide)⟩

section Raw

variable {a : Termios} {p q : Model}

section

variable (running : Running a p) (raw : a.IsRaw)

include running raw

theorem input_raw (silent : a.echo = false) (accepted : input p c = some q) :
    Running a q ∧ waiting q = waiting p ++ [c] ∧ shown q = shown p := by
  have attributes := running.attributes_eq
  have plain : input p c = inputRaw p c := by
    simp [input, inputTyped, typedByte, attributes, raw.noMapping, raw.noSignals, raw.noEditing]
  rw [plain] at accepted
  have leads := inputRaw_leads running.wellFormed (by rw [attributes]; exact raw.noEditing) accepted
  refine ⟨running.of_leads leads, leads.waiting_eq, ?_⟩
  simp only [inputRaw, attributes, silent, Option.ite_none_left_eq_some,
    Option.some.injEq] at accepted
  obtain ⟨-, rfl⟩ := accepted
  rfl

theorem writeMaster_raw (silent : a.echo = false) (d : List UInt8) :
    Running a (writeMaster d p).2 ∧
      waiting (writeMaster d p).2 = waiting p ++ d.take (writeMaster d p).1 ∧
      shown (writeMaster d p).2 = shown p := by
  induction d generalizing p with
  | nil => exact ⟨running, (append_nil _).symm, rfl⟩
  | cons c rest ih =>
    unfold writeMaster
    split
    · exact ⟨running, by simp, rfl⟩
    rename_i next accepted
    obtain ⟨kept, joined, eq⟩ := input_raw running raw silent accepted
    split
    · exact ⟨kept, by simp [joined], eq⟩
    obtain ⟨later, b, still⟩ := ih kept
    refine ⟨later, ?_, still.trans eq⟩
    simp [b, joined]

theorem writeSlave_raw (d : List UInt8) :
    Running a (writeSlave d p).2 ∧
      waiting (writeSlave d p).2 = waiting p ∧
      shown (writeSlave d p).2 = shown p ++ d.take (writeSlave d p).1 := by
  induction d generalizing p with
  | nil => exact ⟨running, rfl, (append_nil _).symm⟩
  | cons c rest ih =>
    unfold writeSlave
    split
    · exact ⟨running, rfl, by simp⟩
    rename_i full
    have room := not_lt.mp full
    obtain ⟨kept, eq, b⟩ := ih (running.output room)
    have single : outputBytes p.attributes c = [c] := by
      simp [outputBytes, outputWidth, running.attributes_eq, raw.noExpansion]
    have joined : shown (output p c) = shown p ++ [c] := by
      have fits : (outputBytes p.attributes c).length ≤ space p.output := by
        rwa [outputBytes_length]
      rw [← single]
      exact (putAll_spec running.wellFormed.output fits).2
    exact ⟨kept, eq, by simp [b, joined]⟩

theorem slaveRead_raw {len : Nat} :
    let out := ptyModelReadChecked p false len nonblocking copyout
    Running a out.2 ∧ out.1.bytes ++ waiting out.2 = waiting p ∧
      shown out.2 = shown p ∧ (out.1.result < 0 → out.1.bytes = []) := by
  intro out
  have wf := running.wellFormed
  have stream : p.attributes.icanon = false := by rw [running.attributes_eq]; exact raw.noEditing
  by_cases none : len = 0
  · have zero : out = (⟨0, []⟩, p) := by simp [out, ptyModelReadChecked, none]
    rw [zero]
    exact ⟨running, rfl, rfl, fun _ => rfl⟩
  have asStream : out = readStream p false len nonblocking copyout := by
    simp [out, ptyModelReadChecked, none, stream]
  rw [asStream]
  rcases readStream_spec wf with ⟨e, -, same, -⟩ | ⟨answer, taken⟩
  · rw [same]
    exact ⟨running, rfl, rfl, fun _ => rfl⟩
  rw [answer, taken]
  refine ⟨running.setReadRing (.inr stream) ((readRing_bounded wf false).skip _),
    ?_, rfl, fun negative => ?_⟩
  · refine (congrArg _ (contents_skip (readRing p false) _)).trans ?_
    exact take_append_drop _ _
  · simp only at negative
    omega

theorem observe_raw (silent : a.echo = false) {e : Event} :
    let t := (observe p e).1
    let q := (observe p e).2
    Running a q ∧
      delivered t.answers ++ waiting q = waiting p ++ typedBytes t.actions ∧
      t.seen ++ shown q = shown p ++ t.written := by
  have typedMap : ∀ b : List UInt8,
      typedBytes (b.map Action.typed) = b := by
    intro b
    induction b with
    | nil => rfl
    | cons byte rest ih => simp [typedBytes, ih]
  intro t q
  cases e with
  | write m d =>
    obtain ⟨accepted, after⟩ := ptyModelWrite_accepts running m d
    cases m with
    | true =>
      obtain ⟨kept, b, eq⟩ := writeMaster_raw running raw silent d
      simp only [t, q, observe, accepted, after, typedMap]
      exact ⟨kept, b, by simp [eq]⟩
    | false =>
      obtain ⟨kept, eq, b⟩ := writeSlave_raw running raw d
      simp only [t, q, observe, accepted, after]
      exact ⟨kept, by simp [delivered, typedBytes, eq], b⟩
  | read m len nonblocking copyout =>
    cases m with
    | true =>
      obtain ⟨kept, -, sameInput, b⟩ := masterRead_spec running
      have eq : waiting (ptyModelReadChecked p true len nonblocking copyout).2 =
          waiting p := congrArg (contents ptyBytes) sameInput
      exact ⟨kept, by simpa [t, q, observe, delivered, typedBytes] using eq,
        by simpa [t, q, observe] using b⟩
    | false =>
      obtain ⟨kept, b, eq, failed⟩ := slaveRead_raw running raw
      refine ⟨kept, ?_, by simpa [t, q, observe, apply_ite] using eq⟩
      simp only [t, q, observe]
      split
      · rename_i skipped
        have nothing : (ptyModelReadChecked p false len nonblocking copyout).1.bytes = [] := by
          rcases skipped with none | fault
          · simp [ptyModelReadChecked, none]
          · exact failed (by rw [fault]; decide)
        rw [nothing] at b
        simpa [delivered, typedBytes] using b
      split
      · rename_i again
        rw [failed (by rw [again]; decide)] at b
        simpa [delivered, typedBytes] using b
      · simpa [delivered, typedBytes] using b
  | takeSignals =>
    exact ⟨{ running with wellFormed := { running.wellFormed with } },
      by simp [t, q, observe, delivered, typedBytes, waiting],
      by simp [t, q, observe, shown]⟩

theorem observeAll_raw (silent : a.echo = false) {events : List Event} :
    let t := (observeAll p events).1
    let q := (observeAll p events).2
    delivered t.answers ++ waiting q = waiting p ++ typedBytes t.actions ∧
      t.seen ++ shown q = shown p ++ t.written := by
  have typedAppend : ∀ left right : List Editor.Action,
      typedBytes (left ++ right) = typedBytes left ++ typedBytes right := by
    intro left right
    induction left with
    | nil => rfl
    | cons action rest ih => cases action <;> simp [typedBytes, ih]
  induction events generalizing p with
  | nil => simp [observeAll, delivered, typedBytes]
  | cons e rest ih =>
    obtain ⟨kept, input, output⟩ := observe_raw running raw silent
    obtain ⟨laterInput, laterOutput⟩ := ih kept
    intro t q
    constructor
    · calc delivered t.answers ++ waiting q
          = delivered (observe p e).1.answers ++
              (delivered (observeAll (observe p e).2 rest).1.answers ++
                waiting q) := by
            simp [t, observeAll, Transcript.append, delivered]
        _ = waiting p ++ typedBytes t.actions := by
            rw [show waiting q = waiting (observeAll (observe p e).2 rest).2 from rfl,
              laterInput, ← append_assoc, input]
            simp [t, observeAll, Transcript.append, typedAppend]
    calc t.seen ++ shown q
        = (observe p e).1.seen ++
            ((observeAll (observe p e).2 rest).1.seen ++ shown q) := by
          simp [t, observeAll, Transcript.append]
      _ = shown p ++ t.written := by
          rw [show shown q = shown (observeAll (observe p e).2 rest).2 from rfl,
            laterOutput, ← append_assoc, output]
          simp [t, observeAll, Transcript.append]

end

end Raw

/-! ## Single reads -/

section Answers

variable {a : Termios} {p : Model} {len : Nat} {nonblocking : Bool} {copyout : Copyout}
  (running : Running a p)

include running

theorem slaveRead_answers (mode : a.icanon = true) (wanted : len ≠ 0) :
    let outcome := ptyModelReadChecked p false len nonblocking copyout
    ((editorOf p).pending = [] → outcome = (⟨errAgain, []⟩, p)) ∧
    ∀ line rest, (editorOf p).pending = line :: rest →
      (outcome = (⟨errFault, []⟩, p) ∧ Refused copyout (line.take len)) ∨
      (outcome.1 = ⟨(line.take len).length, line.take len⟩ ∧
        (editorOf outcome.2).pending =
          if line.length ≤ len then rest else line.drop len :: rest) := by
  constructor
  · intro none
    have canonical : p.attributes.icanon = true := by rw [running.attributes_eq]; exact mode
    have noRecord : p.recordCount = 0 := by
      by_contra some
      rw [editorOf, pendingRecords_eq_cons running.wellFormed some] at none
      simp [splitLengths_cons] at none
    simp [ptyModelReadChecked, wanted, canonical, noRecord, running.masterOpen]
  intro line rest pending
  obtain ⟨-, ⟨fault, refused⟩ | ⟨-, counted, answer⟩⟩ := slaveRead_refines running mode wanted
  · rw [pending] at refused
    exact .inl ⟨fault, refused⟩
  simp only [Editor.read, pending, Prod.mk.injEq] at answer
  obtain ⟨bytes, next⟩ := answer
  split at bytes
  · cases bytes
  next delivers =>
    have result := counted delivers
    simp only [Option.some.injEq] at bytes
    refine .inr ⟨?_, (congrArg Editor.pending next).symm⟩
    rw [bytes, ← result]

theorem streamRead_answers {m : Bool} (stream : m = true ∨ a.icanon = false) (wanted : len ≠ 0) :
    let outcome := ptyModelReadChecked p m len nonblocking copyout
    let bytes := (readable p m).take len
    (outcome = (⟨errAgain, []⟩, p) ∧
      (readable p m).length < readMinimum p m len nonblocking) ∨
    (outcome = (⟨errFault, []⟩, p) ∧ Refused copyout bytes) ∨
    (outcome.1 = ⟨bytes.length, bytes⟩ ∧ readable outcome.2 m = (readable p m).drop len) := by
  intro outcome bytes
  have asStream : outcome = readStream p m len nonblocking copyout := by
    have : ¬(m = false ∧ p.attributes.icanon = true) := by
      rw [running.attributes_eq]
      rintro ⟨rfl, mode⟩
      simp [mode] at stream
    simp_all [outcome, ptyModelReadChecked]
  rw [asStream]
  have width : (readable p m).length = (readRing p m).size := by
    rw [← readRing_contents, contents_length]
  have all : (readable p m).take (min len (readRing p m).size) = bytes := by
    rw [← width, ← take_eq_take_min]
  rcases readStream_spec running.wellFormed with
    ⟨e, -, same, ⟨rfl, few⟩ | ⟨rfl, refused⟩⟩ | ⟨answer, taken⟩
  · exact .inl ⟨same, width ▸ few⟩
  · exact .inr (.inl ⟨same, all ▸ refused⟩)
  refine .inr (.inr ⟨?_, ?_⟩)
  · rw [answer, all, length_take, width]
  · have stored (r : RingBuffer UInt8) : readable (setReadRing p m r) m = r.contents ptyBytes := by
      cases m <;> rfl
    rw [taken, stored, contents_skip, readRing_contents, ← width]
    rcases le_total len (readable p m).length with inside | past
    · rw [min_eq_left inside]
    · rw [min_eq_right past, drop_length, drop_of_length_le past]

end Answers

end SrvrOS.Pty
