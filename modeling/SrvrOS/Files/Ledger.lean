import SrvrOS.Files.PipeStream
import SrvrOS.Files.System

/-!
# The ledger of references

Each object counts exactly the entries that name it: those in descriptor tables, those queued in
pipes, those pending at listeners, and those that a call under way holds in its hands.
-/

namespace SrvrOS.Files

open Lib Function List Pipe Table OpenFiles

variable {r : Rights File} {rest : List (Rights File)} {id : PipeId} {f : OpenFiles}
  {h j : Handle} {writeEnd : Bool}

/-- An end that entries are counted at. -/
inductive Target where
  | reader (id : PipeId)
  | writer (id : PipeId)
  | listener (id : ListenerId)
  | file (handle : Handle)
deriving DecidableEq

def Entry.targets : Entry → List Target
  | .stdio _ | .pty _ _ | .net _ => []
  | .vfs id => [.file (.read id)]
  | .vfsWrite id => [.file (.write id)]
  | .pipeRead id => [.reader id]
  | .pipeWrite id => [.writer id]
  | .pipeDuplex handle aux => [.reader handle, .writer aux]
  | .unixListener id => [.listener id]

def targetsOf (file : Option File) : List Target := file.elim [] fun file => file.entry.targets

def filesTargets (files : List File) : List Target := files.flatMap fun file => file.entry.targets

def Target.ofEnd (id : PipeId) (writeEnd : Bool) : Target :=
  if writeEnd then .writer id else .reader id

theorem count_one (first : Target) (loose : List Target) (t : Target) :
    ([first] ++ loose).count t = (if t = first then 1 else 0) + loose.count t := by
  rw [count_append]
  by_cases here : t = first <;> simp [here, Ne.symm]

/-! ## Pipes -/

namespace Pipe

variable {ρ : Type} {pipe : Pipe ρ} {q : List (Rights ρ)}

/-- The used records form the front of the array. -/
def Packed (pipe : Pipe ρ) : Prop := ∀ slot, pipe.rights slot = pipe.queued[slot]?

theorem queued_eq (front : ∀ k, pipe.rights k = q[k]?)
    (short : q.length ≤ pipeRightsQueue) : pipe.queued = q := by
  have count : (pipe.countRights fun _ => true) = q.length := by
    simp only [countRights, front]
    rw [takeWhile_range_length short]
    congr 1
    exact takeWhile_eq_self_iff.mpr (by simp)
  rw [queued, count, firstRights, funext front, Slots.used_ofList, take_length]

theorem Queued.queued_eq (queued : pipe.Queued q) : pipe.queued = q :=
  Pipe.queued_eq queued.front queued.short

theorem Packed.of_front (front : ∀ k, pipe.rights k = q[k]?)
    (short : q.length ≤ pipeRightsQueue) : pipe.Packed := by
  rw [Packed, queued_eq front short]
  exact front

theorem Sound.packed (sound : pipe.Sound q) : pipe.Packed := .of_front sound.front sound.short

theorem queued_short (pipe : Pipe ρ) : pipe.queued.length ≤ pipeRightsQueue := by
  refine (length_filterMap_le _ _).trans ?_
  rw [length_range]
  exact (takeWhile_sublist _).length_le.trans (by simp)

theorem Packed.first_none (packed : pipe.Packed) : (pipe.rights 0).isNone ↔ pipe.queued = [] := by
  rw [packed 0]
  cases pipe.queued <;> simp

/-- A pipe without its references: what its stream consists of. -/
def stream (pipe : Pipe ρ) : Pipe ρ :=
  { pipe with used := false, refs := 0, readRefs := 0, writeRefs := 0 }

variable {pipe' : Pipe ρ}

section

variable (eq : pipe'.stream = pipe.stream)

include eq

theorem queued_stream : pipe'.queued = pipe.queued := by
  change pipe'.stream.queued = pipe.stream.queued
  rw [eq]

theorem packed_stream (packed : pipe.Packed) : pipe'.Packed := by
  change pipe'.stream.Packed
  rwa [eq]

theorem sound_stream : pipe'.Sound q ↔ pipe.Sound q := by
  have stripped (pipe : Pipe ρ) : pipe.stream.Sound q ↔ pipe.Sound q :=
    ⟨fun sound => { sound with }, fun sound => { sound with }⟩
  rw [← stripped, eq, stripped]

end

theorem stream_ref (pipe : Pipe ρ) (writeEnd : Bool) :
    (pipe.ref writeEnd).stream = pipe.stream := by
  unfold ref
  split
  · rfl
  · split <;> rfl

@[simp] theorem settle_refs : pipe.settle.refs = pipe.refs := by
  unfold settle
  split <;> rfl

@[simp] theorem settle_readRefs : pipe.settle.readRefs = pipe.readRefs := by
  unfold settle
  split <;> rfl

@[simp] theorem settle_writeRefs : pipe.settle.writeRefs = pipe.writeRefs := by
  unfold settle
  split <;> rfl

theorem settle_free (used : pipe.used = true) (packed : pipe.Packed) :
    pipe.settle.used = false ↔ pipe.refs = 0 ∧ pipe.queued = [] := by
  rw [← packed.first_none, settle]
  split
  next free => simpa using free
  next busy => simpa [used] using busy

theorem stream_settle (pipe : Pipe ρ) : pipe.settle.stream = pipe.stream := by
  unfold settle
  split <;> rfl

theorem stream_close (pipe : Pipe ρ) (writeEnd : Bool) :
    (pipe.close writeEnd).stream = pipe.stream := by
  unfold close
  split
  · rfl
  · split <;> rw [stream_settle] <;> rfl

theorem Packed.retired (packed : pipe.Packed) {r : Rights ρ} {rest : List (Rights ρ)}
    (q : pipe.queued = r :: rest) :
    (pipe.shiftRights 1).queued = rest ∧ (pipe.shiftRights 1).Packed := by
  have short := pipe.queued_short
  rw [q, length_cons] at short
  have front (k : Nat) : (pipe.shiftRights 1).rights k = rest[k]? := by
    simp only [shiftRights]
    split
    · rw [packed, q, getElem?_cons_succ]
    next outside => rw [getElem?_eq_none (by omega)]
  exact ⟨queued_eq front (by omega), .of_front front (by omega)⟩

end Pipe

def Pipe.targets (pipe : Pipe File) : List Target :=
  pipe.queued.flatMap fun record => filesTargets record.files

/-- What the references of a pipe come to at an end. -/
def Pipe.credit (pipe : Pipe File) (id : PipeId) (target : Target) : Nat :=
  (if target = .reader id then pipe.readRefs else 0) +
    if target = .writer id then pipe.writeRefs else 0

theorem Pipe.targets_stream {pipe pipe' : Pipe File} (eq : pipe'.stream = pipe.stream) :
    pipe'.targets = pipe.targets := by
  rw [targets, targets, queued_stream eq]

variable {pipe : Pipe File}

theorem Pipe.credit_ref (used : pipe.used = true) (t : Target) :
    (pipe.ref writeEnd).credit id t =
      pipe.credit id t + if t = .ofEnd id writeEnd then 1 else 0 := by
  cases writeEnd <;> simp only [ref, used, credit, Target.ofEnd, Bool.not_true, Bool.false_eq_true,
    if_true, if_false]
  · split <;> omega
  · split <;> split <;> omega

variable {writeEnd : Bool}

theorem Pipe.credit_close (used : pipe.used = true)
    (pos : pipe.credit id (.ofEnd id writeEnd) ≠ 0) (t : Target) :
    (pipe.close writeEnd).credit id t + (if t = .ofEnd id writeEnd then 1 else 0) =
      pipe.credit id t := by
  cases writeEnd <;> simp only [close, used, settle_readRefs, settle_writeRefs, credit,
    Target.ofEnd, Bool.not_true, Bool.false_eq_true, if_true, if_false, reduceCtorEq,
    zero_add] at pos ⊢
  · split <;> omega
  · split <;> split <;> omega

/-- What the connections that wait at a listener name. -/
def Listener.targets (listener : Listener) : List Target :=
  listener.pending.flatMap fun pending => pending.entry.targets

def Listener.credit (listener : Listener) (id : ListenerId) (target : Target) : Nat :=
  if target = .listener id then listener.refs else 0

namespace System

variable {s : System} {loose loose' : List Target}

def refs (system : System) : Target → Nat
  | .reader id => (system.pipes id).readRefs
  | .writer id => (system.pipes id).writeRefs
  | .listener id => (system.listeners id).refs
  | .file handle => (system.files.catalog.slots handle).elim 0 Slot.refs

def named (system : System) (target : Target) : Nat :=
  total (total fun file => (targetsOf file).count target) system.tables +
    total (fun pipe => pipe.targets.count target) system.pipes +
    total (fun listener => listener.targets.count target) system.listeners

/-- The counts are exact, when the ends in the list are named by entries that are in no place. -/
structure Ledger (system : System) (loose : List Target) : Prop where
  packed : ∀ id, (system.pipes id).Packed
  sum : ∀ id, (system.pipes id).refs = (system.pipes id).readRefs + (system.pipes id).writeRefs
  catalog : system.files.catalog.Sound
  counted : ∀ target, system.refs target = system.named target + loose.count target
  pipeFree : ∀ id, (system.pipes id).used = false ↔
    (system.pipes id).refs = 0 ∧ (system.pipes id).queued = []
  listenerFree : ∀ id, (system.listeners id).used = false ↔ (system.listeners id).refs = 0
  listenerEmpty : ∀ id, (system.listeners id).used = false → (system.listeners id).pending = []

theorem Ledger.swap (ledger : s.Ledger loose)
    (eq : ∀ t, loose'.count t = loose.count t) : s.Ledger loose' :=
  { ledger with counted := fun t => by rw [ledger.counted, eq] }

theorem start_ledger {answers : Nat → Answer} : (start answers).Ledger [] where
  packed := fun _ => @Pipe.Packed.of_front _ _ [] (fun _ => rfl) (Nat.zero_le _)
  sum := fun _ => rfl
  catalog := (Session.start_good answers).sound
  counted := fun t => by
    have tables : total (total fun file => (targetsOf file).count t)
        (start answers).tables = 0 :=
      total_eq_zero.mpr fun _ => total_eq_zero.mpr fun _ => rfl
    have pipes : total (fun pipe : Pipe File => pipe.targets.count t)
        (start answers).pipes = 0 := total_eq_zero.mpr fun _ => rfl
    have listeners : total (fun listener : Listener => listener.targets.count t)
        (start answers).listeners = 0 := total_eq_zero.mpr fun _ => rfl
    rw [named, tables, pipes, listeners]
    cases t with
    | file h => cases h <;> rfl
    | reader | writer | listener => rfl
  pipeFree := fun _ => by
    have empty : (({} : Pipe File)).queued = [] := queued_eq (fun _ => rfl) (Nat.zero_le _)
    simpa [start] using empty
  listenerFree := fun _ => by simp [start]
  listenerEmpty := fun _ _ => rfl

/-! ## Replacing one object -/

variable (s)

theorem named_setFile (proc : ProcId) (fd : Fd) (file : Option File) (t : Target) :
    (s.setFile proc fd file).named t + (targetsOf (s.tables proc fd)).count t =
      s.named t + (targetsOf file).count t := by
  have row := total_update (fun file => (targetsOf file).count t) (s.tables proc) fd
    file
  have whole := total_update (total fun file => (targetsOf file).count t)
    s.tables proc (update (s.tables proc) fd file)
  simp only [named, setFile]
  omega

theorem named_setPipe (id : PipeId) (pipe : Pipe File) (t : Target) :
    (s.setPipe id pipe).named t + (s.pipes id).targets.count t =
      s.named t + pipe.targets.count t := by
  have moved := total_update (fun pipe : Pipe File => pipe.targets.count t) s.pipes id
    pipe
  simp only [named, setPipe]
  omega

theorem named_setListener (id : ListenerId) (listener : Listener) (t : Target) :
    (s.setListener id listener).named t + (s.listeners id).targets.count t =
      s.named t + listener.targets.count t := by
  have moved := total_update (fun listener : Listener => listener.targets.count t)
    s.listeners id listener
  simp only [named, setListener]
  omega

theorem refs_setPipe (id : PipeId) (pipe : Pipe File) (t : Target) :
    (s.setPipe id pipe).refs t + (s.pipes id).credit id t =
      s.refs t + pipe.credit id t := by
  cases t with
  | reader j | writer j =>
    by_cases here : j = id <;> simp [refs, setPipe, credit, here, add_comm]
  | listener | file => simp [refs, setPipe, credit]

theorem refs_setListener (id : ListenerId) (listener : Listener) (t : Target) :
    (s.setListener id listener).refs t + (s.listeners id).credit id t =
      s.refs t + listener.credit id t := by
  cases t with
  | listener j =>
    by_cases here : j = id <;> simp [refs, setListener, Listener.credit, here, add_comm]
  | reader | writer | file => simp [refs, setListener, Listener.credit]

variable {s}

theorem Ledger.setFile {proc : ProcId} {fd : Fd} {file : Option File}
    (ledger : s.Ledger (targetsOf file ++ loose)) :
    (s.setFile proc fd file).Ledger (targetsOf (s.tables proc fd) ++ loose) := by
  refine { ledger with counted := fun t => ?_ }
  have counted := ledger.counted t
  have named := s.named_setFile proc fd file t
  have refs : (s.setFile proc fd file).refs t = s.refs t := by cases t <;> rfl
  rw [count_append] at counted ⊢
  omega

section

variable (ledger : s.Ledger loose)

include ledger

theorem Ledger.setPipe (packed : pipe.Packed) (sum : pipe.refs = pipe.readRefs + pipe.writeRefs)
    (free : pipe.used = false ↔ pipe.refs = 0 ∧ pipe.queued = [])
    (balance : ∀ t, pipe.credit id t + (s.pipes id).targets.count t +
        loose.count t =
      (s.pipes id).credit id t + pipe.targets.count t + loose'.count t) :
    (s.setPipe id pipe).Ledger loose' := by
  refine { ledger with
    packed := (forall_update_iff _ fun _ => Pipe.Packed).mpr
      ⟨packed, fun j _ => ledger.packed j⟩
    sum := (forall_update_iff _ fun _ (pipe : Pipe File) =>
      pipe.refs = pipe.readRefs + pipe.writeRefs).mpr ⟨sum, fun j _ => ledger.sum j⟩
    counted := fun t => ?_
    pipeFree := (forall_update_iff _ fun _ (pipe : Pipe File) =>
      pipe.used = false ↔ pipe.refs = 0 ∧ pipe.queued = []).mpr
        ⟨free, fun j _ => ledger.pipeFree j⟩ }
  have counted := ledger.counted t
  have named := s.named_setPipe id pipe t
  have refs := s.refs_setPipe id pipe t
  have balance := balance t
  omega

theorem Ledger.setListener {id : ListenerId} {listener : Listener}
    (free : listener.used = false ↔ listener.refs = 0)
    (empty : listener.used = false → listener.pending = [])
    (balance : ∀ t, listener.credit id t + (s.listeners id).targets.count t +
        loose.count t =
      (s.listeners id).credit id t + listener.targets.count t +
        loose'.count t) : (s.setListener id listener).Ledger loose' := by
  refine { ledger with
    counted := fun t => ?_
    listenerFree := (forall_update_iff _ fun _ (listener : Listener) =>
      listener.used = false ↔ listener.refs = 0).mpr ⟨free, fun j _ => ledger.listenerFree j⟩
    listenerEmpty := (forall_update_iff _ fun _ (listener : Listener) =>
      listener.used = false → listener.pending = []).mpr
        ⟨empty, fun j _ => ledger.listenerEmpty j⟩ }
  have counted := ledger.counted t
  have named := s.named_setListener id listener t
  have refs := s.refs_setListener id listener t
  have balance := balance t
  omega

theorem Ledger.setFiles (sound : f.catalog.Sound)
    (balance : ∀ h, (f.catalog.slots h).elim 0 Slot.refs + loose.count (.file h) =
      (s.files.catalog.slots h).elim 0 Slot.refs + loose'.count (.file h))
    (others : ∀ t, (∀ h, t ≠ .file h) →
      loose'.count t = loose.count t) : { s with files := f }.Ledger loose' := by
  refine { ledger with catalog := sound, counted := fun t => ?_ }
  have counted := ledger.counted t
  have named : { s with files := f }.named t = s.named t := rfl
  cases t with
  | file h =>
    have balance := balance h
    simp only [refs] at counted ⊢
    omega
  | reader id =>
    rw [others (.reader id) (by simp)]
    exact counted
  | writer id =>
    rw [others (.writer id) (by simp)]
    exact counted
  | listener id =>
    rw [others (.listener id) (by simp)]
    exact counted

/-! ## Making and dropping references -/

theorem Ledger.pipe_used (pos : (s.pipes id).refs ≠ 0) : (s.pipes id).used = true := by
  cases used : (s.pipes id).used with
  | true => rfl
  | false => exact absurd ((ledger.pipeFree id).mp used).1 pos

end

theorem Ledger.pipeRef (ledger : s.Ledger loose) (used : (s.pipes id).used = true)
    (writeEnd : Bool) : (s.pipeRef id writeEnd).Ledger ([.ofEnd id writeEnd] ++ loose) := by
  have sum := ledger.sum id
  have stream := (s.pipes id).stream_ref writeEnd
  refine ledger.setPipe (packed_stream stream (ledger.packed id)) ?_ ?_ fun t => ?_
  · cases writeEnd <;> simp [ref, used] <;> omega
  · cases writeEnd <;> simp [ref, used]
  · rw [credit_ref used, targets_stream stream, count_one]
    omega

theorem refs_ofEnd : s.refs (.ofEnd id writeEnd) = (s.pipes id).credit id (.ofEnd id writeEnd) := by
  cases writeEnd <;> simp [refs, Target.ofEnd, credit]

theorem Ledger.pipeClose {id : PipeId} (ledger : s.Ledger ([.ofEnd id writeEnd] ++ loose)) :
    (s.pipeClose id writeEnd).Ledger loose := by
  have sum := ledger.sum id
  have stream := (s.pipes id).stream_close writeEnd
  have packed := ledger.packed id
  have pos : (s.pipes id).credit id (.ofEnd id writeEnd) ≠ 0 := by
    have counted := ledger.counted (.ofEnd id writeEnd)
    rw [refs_ofEnd, count_one, if_pos rfl] at counted
    omega
  have used : (s.pipes id).used = true := by
    refine ledger.pipe_used ?_
    cases writeEnd <;> simp [credit] at pos <;> omega
  have packed' := packed_stream stream packed
  refine ledger.setPipe packed' ?_ ?_ fun t => ?_
  · cases writeEnd <;> simp [close, used, Target.ofEnd, credit] at pos ⊢ <;> omega
  · rw [queued_stream stream]
    cases writeEnd <;> simp only [close, used, Bool.not_true, Bool.false_eq_true, if_true, if_false,
      settle_refs] <;>
      exact settle_free rfl packed
  have lowered := credit_close used pos t
  rw [targets_stream stream, count_one]
  omega

theorem Ledger.closeDuplex {h aux : PipeId}
    (ledger : s.Ledger ([.reader h, .writer aux] ++ loose)) :
    (s.closeDuplex h aux).Ledger loose :=
  Ledger.pipeClose (Ledger.pipeClose ledger)

/-- The connections in hand are closed one after the other. -/
def closeDuplexes (system : System) (pending : List Pending) : System :=
  pending.foldl (fun system pending => system.closeDuplex pending.handle pending.aux) system

theorem Ledger.closeDuplexes {pending : List Pending}
    (ledger : s.Ledger ((pending.flatMap fun pending => pending.entry.targets) ++ loose)) :
    (s.closeDuplexes pending).Ledger loose := by
  induction pending generalizing s with
  | nil => exact ledger
  | cons first rest ih =>
    exact ih ledger.closeDuplex

theorem closeDuplexes_setListener (pending : List Pending) (id : ListenerId) (listener : Listener) :
    (s.closeDuplexes pending).setListener id listener =
      (s.setListener id listener).closeDuplexes pending := by
  induction pending generalizing s with
  | nil => rfl
  | cons first rest ih => exact ih

theorem Ledger.unixListenerRelease {id : ListenerId}
    (ledger : s.Ledger ([.listener id] ++ loose)) : (s.unixListenerRelease id).Ledger loose := by
  have pos : (s.listeners id).refs ≠ 0 := by
    have counted := ledger.counted (.listener id)
    rw [count_one, if_pos rfl] at counted
    simp only [refs] at counted
    omega
  have used : (s.listeners id).used = true := by
    cases used : (s.listeners id).used with
    | true => rfl
    | false => exact absurd ((ledger.listenerFree id).mp used) pos
  simp only [System.unixListenerRelease]
  split
  next unused => simp [used] at unused
  split
  next several =>
    refine ledger.setListener (by simpa [used] using several) (by simp [used]) fun t => ?_
    have eq : Listener.targets { s.listeners id with refs := (s.listeners id).refs - 1 } =
        (s.listeners id).targets := rfl
    rw [eq, count_one]
    simp only [Listener.credit]
    split <;> omega
  change ((s.closeDuplexes (s.listeners id).pending).setListener id {}).Ledger loose
  rw [closeDuplexes_setListener]
  refine Ledger.closeDuplexes (ledger.setListener (by simp) (by intro; rfl) fun t => ?_)
  have empty : Listener.targets {} = [] := rfl
  rw [empty, count_one, count_append]
  simp only [Listener.credit, Listener.targets, count_nil]
  split <;> omega

variable {k : Slot}

theorem Ledger.fileRef (ledger : s.Ledger loose) (hit : s.files.catalog.slots h = some k) :
    { s with files := s.files.fileRef h }.Ledger
      ([Target.file h] ++ loose) := by
  have changed : (s.files.fileRef h).catalog =
      s.files.catalog.setSlot h (some { k with refs := k.refs + 1 }) := by
    rw [s.files.fileRef_catalog.1, Catalog.reference, hit]
  refine ledger.setFiles ?_ (fun j => ?_) fun t apart => ?_
  · rw [s.files.fileRef_catalog.1]
    exact ledger.catalog.reference
  · rw [changed, count_one]
    by_cases here : j = h
    · subst here
      simp only [Catalog.setSlot, update_self, Option.elim_some, hit, if_true]
      omega
    · simp [Catalog.setSlot, here]
  · rw [count_one, if_neg (apart h), zero_add]

theorem Ledger.slot_of_loose (ledger : s.Ledger ([.file h] ++ loose)) :
    ∃ k, s.files.catalog.slots h = some k ∧ k.refs ≠ 0 := by
  have counted := ledger.counted (.file h)
  rw [count_one, if_pos rfl] at counted
  cases hit : s.files.catalog.slots h with
  | none =>
    simp only [refs, hit, Option.elim_none] at counted
    omega
  | some k => exact ⟨k, rfl, (ledger.catalog.positive h k hit).ne'⟩

theorem close_refs {c : Catalog} (hit : c.slots h = some k) :
    ((c.close h).slots j).elim 0 Slot.refs =
      if j = h then k.refs - 1 else (c.slots j).elim 0 Slot.refs := by
  rw [Catalog.close, hit]
  dsimp only
  by_cases here : j = h
  · subst here
    split
    · simp [Catalog.setSlot]
    next last => simpa [Catalog.setSlot, eq_comm] using last
  · split <;> simp [Catalog.setSlot, here]

theorem Ledger.fileClose {h : Handle} (ledger : s.Ledger ([.file h] ++ loose)) :
    { s with files := (s.files.fileClose h).2 }.Ledger loose := by
  obtain ⟨k, hit, pos⟩ := ledger.slot_of_loose
  have changed := s.files.fileClose_catalog h
  refine ledger.setFiles ?_ (fun j => ?_) fun t apart => ?_
  · rw [changed]
    exact ledger.catalog.close
  · rw [changed, close_refs hit, count_one]
    by_cases here : j = h
    · subst here
      simp only [if_true, hit, Option.elim_some]
      omega
    · simp [here]
  · rw [count_one, if_neg (apart h), zero_add]

theorem Ledger.askOutside (ledger : s.Ledger loose) : s.askOutside.2.Ledger loose := { ledger with }

variable {e : Entry}

theorem Ledger.cloneEntry (ledger : s.Ledger loose) :
    (s.cloneEntry e).2.Ledger
      ((if (s.cloneEntry e).1 then e.targets else []) ++ loose) := by
  cases e with
  | stdio => exact ledger
  | pty | net =>
    rw [Entry.targets, ite_self]
    exact ledger.askOutside
  | unixListener id =>
    simp only [System.cloneEntry]
    split
    · exact ledger
    rename_i used
    simp only [Bool.or_eq_true, Bool.not_eq_true', Bool.not_eq_false, beq_iff_eq, not_or] at used
    refine ledger.setListener (by simp [used.1]) (by simp [used.1]) fun t => ?_
    have eq : Listener.targets
        { s.listeners id with refs := (s.listeners id).refs + 1 } =
          (s.listeners id).targets := rfl
    rw [eq, if_pos rfl, Entry.targets, count_one]
    simp only [Listener.credit]
    split <;> omega
  | pipeDuplex h aux =>
    simp only [System.cloneEntry]
    split
    · exact ledger
    rename_i used
    simp only [Bool.or_eq_true, Bool.not_eq_true', Bool.not_eq_false, not_or] at used
    have first := ledger.pipeRef used.1 false
    have second : ((s.pipeRef h false).pipes aux).used = true := by
      by_cases here : aux = h
      · subst here
        simp [System.pipeRef, System.setPipe, ref, used.1]
      · simp [System.pipeRef, System.setPipe, here, used.2]
    refine (first.pipeRef second true).swap fun t => ?_
    simp only [beq_iff_eq, Bool.false_eq_true, if_true, if_false, Entry.targets, Target.ofEnd,
      count_append, count_cons, count_nil]
    omega
  | pipeRead | pipeWrite =>
    simp only [System.cloneEntry]
    split
    · exact ledger
    next used => exact ledger.pipeRef (by simpa using used) _
  | vfsWrite id =>
    simp only [System.cloneEntry]
    split
    · exact ledger
    next used =>
      have hit := WriteFile.slot_used (by simpa using used)
      exact ledger.fileRef hit
  | vfs id =>
    simp only [System.cloneEntry]
    split
    · exact ledger
    next used =>
      have hit := ReadFile.slot_used (by simpa using used)
      exact ledger.fileRef hit

theorem Ledger.releaseEntry (ledger : s.Ledger (e.targets ++ loose)) :
    (s.releaseEntry e).2.Ledger loose := by
  cases e with
  | stdio | pty => exact ledger
  | net => exact ledger.askOutside
  | vfs id => exact ledger.fileClose
  | vfsWrite id => exact ledger.fileClose
  | pipeRead id => exact ledger.pipeClose
  | pipeWrite id => exact ledger.pipeClose
  | pipeDuplex h aux => exact ledger.closeDuplex
  | unixListener id => exact ledger.unixListenerRelease

theorem Ledger.releaseFiles {f : List File}
    (ledger : s.Ledger (filesTargets f ++ loose)) : (s.releaseFiles f).Ledger loose := by
  induction f generalizing s with
  | nil => exact ledger
  | cons first rest ih =>
    rw [filesTargets, flatMap_cons, append_assoc] at ledger
    exact ih ledger.releaseEntry

theorem Ledger.retired (ledger : s.Ledger loose) (q : (s.pipes id).queued = r :: rest) :
    (s.setPipe id ((s.pipes id).shiftRights 1).settle).Ledger
      (filesTargets r.files ++ loose) := by
  have used : (s.pipes id).used = true := by
    cases used : (s.pipes id).used with
    | true => rfl
    | false => simpa [q] using ((ledger.pipeFree id).mp used).2
  obtain ⟨q', packed⟩ := (ledger.packed id).retired q
  have stream := ((s.pipes id).shiftRights 1).stream_settle
  refine ledger.setPipe (packed_stream stream packed) ?_ ?_ fun t => ?_
  · rw [settle_refs, settle_readRefs, settle_writeRefs]
    exact ledger.sum id
  · have used' : ((s.pipes id).shiftRights 1).used = true := used
    rw [settle_free used' packed, settle_refs, queued_stream stream]
  have credit : ((s.pipes id).shiftRights 1).settle.credit id t =
      (s.pipes id).credit id t := by
    simp only [credit, settle_readRefs, settle_writeRefs]
    rfl
  rw [targets_stream stream, targets, targets, q, q',
    flatMap_cons, count_append, count_append]
  omega

theorem retire_eq (packed : (s.pipes id).Packed) (q : (s.pipes id).queued = r :: rest) :
    s.retire id =
      (s.setPipe id ((s.pipes id).shiftRights 1).settle).releaseFiles r.files := by
  have first : (s.pipes id).rights 0 = some r := by
    rw [packed, q]
    rfl
  simp [retire, retireRights, first]

theorem Ledger.retire (ledger : s.Ledger loose)
    (q : (s.pipes id).queued = r :: rest) : (s.retire id).Ledger loose := by
  rw [retire_eq (ledger.packed id) q]
  exact (ledger.retired q).releaseFiles

end System

/-! ## What stays -/

theorem OpenFiles.contentOf_congr {after : OpenFiles} (reads : after.readFiles = f.readFiles)
    (writes : after.writeFiles = f.writeFiles) :
    after.contentOf h = f.contentOf h := by
  cases h <;> simp [contentOf, reads, writes]

theorem OpenFiles.contentOf_fileRef : (f.fileRef h).contentOf j = f.contentOf j := by
  rw [contentOf_slot, contentOf_slot, f.fileRef_catalog.1, Catalog.reference]
  split
  · rfl
  next k hit => by_cases here : j = h <;> simp [Catalog.setSlot, here, hit]

theorem OpenFiles.contentOf_fileClose {j : Handle} {id : ContentId}
    (hit : (f.fileClose h).2.contentOf j = some id) :
    f.contentOf j = some id := by
  rw [contentOf_slot] at hit ⊢
  exact Catalog.close_content (f.fileClose_catalog h ▸ hit)

namespace System

variable {s after last : System}

/-- Whether the collector runs, and how often it is put off. -/
def collector (system : System) : Bool × Nat := (system.collecting, system.gcDefer)

/-- What a call keeps that moves no entry of a table: descriptions may go but do not change. -/
structure Steady (system after : System) : Prop where
  live : after.live = system.live
  pids : after.pids = system.pids
  tables : after.tables = system.tables
  locks : after.locks = system.locks
  waits : after.lockWaits = system.lockWaits
  collector : after.collector = system.collector
  contents : ∀ handle content, after.files.contentOf handle = some content →
    system.files.contentOf handle = some content

variable {s : System}

theorem Steady.refl : s.Steady s := ⟨rfl, rfl, rfl, rfl, rfl, rfl, fun _ _ hit => hit⟩

theorem Steady.trans (first : s.Steady after) (second : after.Steady last) : s.Steady last :=
  ⟨second.live.trans first.live, second.pids.trans first.pids, second.tables.trans first.tables,
    second.locks.trans first.locks, second.waits.trans first.waits,
    second.collector.trans first.collector, fun h c hit =>
      first.contents h c (second.contents h c hit)⟩

/-- What making and dropping references keeps besides: streams stay, and a listener goes with all
that waits at it. -/
structure Keeps (system after : System) : Prop extends system.Steady after where
  present : after.present = system.present
  streams : ∀ id, (after.pipes id).stream = (system.pipes id).stream
  listeners : ∀ id, (after.listeners id).used = true →
    (system.listeners id).used = true ∧ (after.listeners id).queue = (system.listeners id).queue

theorem Keeps.refl : s.Keeps s := ⟨.refl, rfl, fun _ => rfl, fun _ used => ⟨used, rfl⟩⟩

theorem Keeps.trans (first : s.Keeps after) (second : after.Keeps last) : s.Keeps last :=
  ⟨first.toSteady.trans second.toSteady, second.present.trans first.present,
    fun id => (second.streams id).trans (first.streams id),
    fun id used =>
      have middle := second.listeners id used
      have start := first.listeners id middle.1
      ⟨start.1, middle.2.trans start.2⟩⟩

theorem Keeps.setPipe (eq : pipe.stream = (s.pipes id).stream) : s.Keeps (s.setPipe id pipe) := by
  refine ⟨⟨rfl, rfl, rfl, rfl, rfl, rfl, fun _ _ hit => hit⟩, rfl, fun j => ?_,
    fun _ used => ⟨used, rfl⟩⟩
  by_cases here : j = id
  · subst here
    simpa [System.setPipe] using eq
  · simp [System.setPipe, here]

theorem Keeps.pipeRef {id : PipeId} : s.Keeps (s.pipeRef id writeEnd) := .setPipe (stream_ref _ _)

theorem Keeps.pipeClose (s : System) (id : PipeId) (writeEnd : Bool) :
    s.Keeps (s.pipeClose id writeEnd) := .setPipe (stream_close _ _)

theorem Keeps.setListener {id : ListenerId} {listener : Listener} (eq : listener.used = true →
      (s.listeners id).used = true ∧ listener.queue = (s.listeners id).queue) :
    s.Keeps (s.setListener id listener) := by
  refine ⟨⟨rfl, rfl, rfl, rfl, rfl, rfl, fun _ _ hit => hit⟩, rfl, fun _ => rfl, fun j used => ?_⟩
  by_cases here : j = id
  · subst here
    simp only [System.setListener, update_self] at used ⊢
    exact eq used
  · simp only [System.setListener, update_of_ne here] at used ⊢
    exact ⟨used, trivial⟩

theorem Keeps.setFiles (contents : ∀ h c, f.contentOf h = some c → s.files.contentOf h = some c) :
    s.Keeps { s with files := f } :=
  ⟨⟨rfl, rfl, rfl, rfl, rfl, rfl, contents⟩, rfl, fun _ => rfl, fun _ used => ⟨used, rfl⟩⟩

theorem Keeps.askOutside : s.Keeps s.askOutside.2 :=
  .setFiles fun h c hit => by rwa [contentOf_congr rfl rfl] at hit

variable (s)

theorem cloneEntry_keeps (e : Entry) : s.Keeps (s.cloneEntry e).2 := by
  have fileRef (h : Handle) :
      s.Keeps { s with files := s.files.fileRef h } :=
    .setFiles fun j c hit => by rwa [contentOf_fileRef] at hit
  cases e with
  | stdio => exact .refl
  | pty | net => exact .askOutside
  | unixListener id =>
    simp only [cloneEntry]
    split
    · exact .refl
    · exact .setListener fun used => ⟨used, rfl⟩
  | pipeDuplex h aux =>
    simp only [cloneEntry]
    split
    · exact .refl
    · exact Keeps.pipeRef.trans .pipeRef
  | pipeRead | pipeWrite =>
    simp only [cloneEntry]
    split
    · exact .refl
    · exact .pipeRef ..
  | vfsWrite | vfs =>
    simp only [cloneEntry]
    split
    · exact .refl
    · exact fileRef _

theorem closeDuplexes_keeps {pending : List Pending} : s.Keeps (s.closeDuplexes pending) := by
  induction pending generalizing s with
  | nil => exact .refl
  | cons first rest ih =>
    exact ((Keeps.pipeClose s first.handle false).trans (.pipeClose _ first.aux true)).trans
      (ih _)

theorem releaseEntry_keeps (e : Entry) : s.Keeps (s.releaseEntry e).2 := by
  have fileClose (h : Handle) :
      s.Keeps { s with files := (s.files.fileClose h).2 } :=
    .setFiles fun _ _ => contentOf_fileClose
  cases e with
  | stdio | pty => exact .refl
  | net => exact .askOutside
  | vfs id => exact fileClose (.read id)
  | vfsWrite id => exact fileClose (.write id)
  | pipeRead id => exact .pipeClose s id false
  | pipeWrite id => exact .pipeClose s id true
  | pipeDuplex h aux =>
    exact (Keeps.pipeClose s h false).trans (.pipeClose _ aux true)
  | unixListener id =>
    simp only [releaseEntry, unixListenerRelease]
    split
    · exact .refl
    split
    · exact .setListener fun used => ⟨used, rfl⟩
    exact s.closeDuplexes_keeps.trans
      (.setListener fun used => by simp at used)

theorem releaseFiles_keeps {f : List File} : s.Keeps (s.releaseFiles f) := by
  induction f generalizing s with
  | nil => exact .refl
  | cons first rest ih => exact (s.releaseEntry_keeps first.entry).trans (ih _)

variable {s}

end System

end SrvrOS.Files
