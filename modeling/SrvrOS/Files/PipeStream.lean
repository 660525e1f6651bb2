import SrvrOS.Files.Pipe
import SrvrOS.Lib.Run

/-!
# A pipe is a stream with positioned records

Each operation on a pipe does one of a few things to the bytes and the records it holds. So in
whole runs the bytes leave in the order in which they came, and a record leaves with the byte it
stands before.
-/

namespace SrvrOS.Files

open Lib Function List RingBuffer Nat

variable {ρ : Type} {b : List UInt8} {n s : Nat}

namespace Pipe

variable {pipe pipe' : Pipe ρ} {q : List (Rights ρ)}

def ring (pipe : Pipe ρ) : RingBuffer UInt8 := ⟨pipe.buffer, pipe.readPos, pipe.size⟩

def contents (pipe : Pipe ρ) : List UInt8 := pipe.ring.contents pipeCapacity

@[simp] theorem contents_length : pipe.contents.length = pipe.size :=
  RingBuffer.contents_length

/-- The used records form the front of the array, in the order of the queue. -/
structure Queued (pipe : Pipe ρ) (queue : List (Rights ρ)) : Prop where
  front : ∀ slot, pipe.rights slot = queue[slot]?
  short : queue.length ≤ pipeRightsQueue
  sorted : queue.Pairwise fun record later => record.offset ≤ later.offset
  within : ∀ record ∈ queue, record.offset ≤ pipe.size

/-- What holds of a pipe between operations. -/
structure Sound (pipe : Pipe ρ) (queue : List (Rights ρ)) : Prop extends pipe.Queued queue where
  bounded : pipe.ring.Bounded pipeCapacity
  behind : pipe.writePos = (pipe.readPos + pipe.size) % pipeCapacity

theorem alloc_sound : (alloc : Pipe ρ).Sound [] :=
  ⟨⟨fun _ => rfl, by simp, .nil, by simp⟩,
    ⟨by simp [ring, alloc, pipeCapacity], by simp [ring, alloc]⟩, rfl⟩

/-! ## The ring -/

theorem Sound.put (sound : pipe.Sound q) (room : b.length ≤ pipe.space) :
    (pipe.put b).contents = pipe.contents ++ b ∧ (pipe.put b).Sound q := by
  have size := sound.bounded.size_le
  have room : pipe.ring.size + b.length ≤ pipeCapacity := by
    have room : b.length ≤ pipeCapacity - pipe.size := room
    have here : pipe.ring.size = pipe.size := rfl
    omega
  have contents := contents_fill sound.bounded sound.behind room
  refine ⟨contents, ⟨⟨sound.front, sound.short, sound.sorted, fun r mem => ?_⟩,
    ⟨sound.bounded.head_lt, room⟩, ?_⟩⟩
  · exact le_add_right_of_le (sound.within r mem)
  simp only [Pipe.put]
  rw [sound.behind, mod_add_mod, add_assoc]

theorem Sound.front_eq (sound : pipe.Sound q) (inside : n ≤ pipe.size) :
    pipe.front n = pipe.contents.take n :=
  read_wrapped sound.bounded inside

/-! ## The records -/

theorem Queued.free (queued : pipe.Queued q) (hit : pipe.freeRights = some s) :
    s = q.length ∧ q.length < pipeRightsQueue := by
  rw [freeRights, find?_range_eq_some] at hit
  obtain ⟨empty, inside, before⟩ := hit
  simp only [queued.front, Option.isNone_iff_eq_none, getElem?_eq_none_iff] at empty
  have full := empty
  rcases lt_or_eq_of_le full with less | same
  · have used := before q.length less
    simp [queued.front] at used
  · exact ⟨same.symm, same ▸ mem_range.mp inside⟩

theorem Sound.setRights (sound : pipe.Sound q) {f : List ρ} (room : q.length < pipeRightsQueue) :
    (pipe.setRights q.length f).Sound (q ++ [⟨pipe.size, f⟩]) := by
  refine ⟨⟨fun s => ?_, ?_, ?_, fun r mem => ?_⟩, sound.bounded, sound.behind⟩
  · simp only [Pipe.setRights]
    rcases lt_trichotomy s q.length with less | rfl | more
    · rw [update_of_ne less.ne, sound.front, getElem?_append_left less]
    · simp
    · rw [update_of_ne more.ne', sound.front,
        getElem?_eq_none more.le, getElem?_eq_none (by simp; omega)]
  · simp only [length_append, length_singleton]
    omega
  · refine pairwise_append.mpr ⟨sound.sorted, pairwise_singleton _ _, ?_⟩
    intro r mem later last
    rw [mem_singleton.mp last]
    exact sound.within r mem
  rcases mem_append.mp mem with old | new
  · exact sound.within r old
  rw [mem_singleton.mp new]
  exact le_rfl

theorem takeWhile_range_length {c : Rights ρ → Bool} {limit : Nat} (short : q.length ≤ limit) :
    ((range limit).takeWhile fun s => q[s]?.any c).length =
      (q.takeWhile c).length := by
  induction q generalizing limit with
  | nil => cases limit <;> simp [range_succ_eq_map]
  | cons r rest ih =>
    obtain ⟨limit, rfl⟩ : ∃ fewer, limit = fewer + 1 :=
      exists_eq_add_one.mpr (lt_of_lt_of_le (by simp) short)
    have later := ih (le_of_succ_le_succ short)
    rw [range_succ_eq_map]
    cases fits : c r with
    | false => simp [fits]
    | true => simp [fits, takeWhile_map, comp_def, later]

theorem Queued.countRights (queued : pipe.Queued q) (c : Rights ρ → Bool) :
    pipe.countRights c = (q.takeWhile c).length := by
  simp only [Pipe.countRights, queued.front]
  exact takeWhile_range_length queued.short

theorem Queued.firstRights (queued : pipe.Queued q) (records : Nat) :
    pipe.firstRights records = q.take records := by
  rw [Pipe.firstRights, funext queued.front]
  exact Slots.used_ofList

variable {records : Nat}

theorem Sound.commitRead (sound : pipe.Sound q) (inside : n ≤ pipe.size)
    (ahead : ∀ r ∈ q.drop records, n ≤ r.offset) :
    (pipe.commitRead n records).contents = pipe.contents.drop n ∧
    (pipe.commitRead n records).Sound
      ((q.drop records).map fun r => { r with offset := r.offset - n }) := by
  have capacity : pipe.size ≤ pipeCapacity := sound.bounded.size_le
  have shifted (s : Nat) : (if s + records < pipeRightsQueue then pipe.rights (s + records)
      else none) = (q.drop records)[s]? := by
    rw [getElem?_drop, add_comm records]
    split
    · exact sound.front _
    have short := sound.short
    rw [getElem?_eq_none (by omega)]
  refine ⟨contents_skip pipe.ring n, ⟨⟨fun s => ?_, ?_, ?_, ?_⟩, ?_, ?_⟩⟩
  · simp only [Pipe.commitRead, shiftRights, advanceRights, shifted]
    rw [getElem?_map]
    by_cases used : s < (q.drop records).length
    · have short := sound.short
      rw [if_pos ⟨by simp only [length_drop] at used; omega, fun before earlier => by
        rw [getElem?_eq_getElem (earlier.trans_lt used)]; rfl⟩, getElem?_eq_getElem used]
      have mem := ahead _ (getElem_mem used)
      have small := sound.within _ (mem_of_mem_drop (getElem_mem used))
      simp only [Option.map_some, Option.some.injEq]
      congr 1
      have wide : pipeCapacity < 2 ^ 64 := by decide
      exact Word.sub_of_le mem (by omega)
    rw [if_neg fun claimed => ?_, getElem?_eq_none (not_lt.mp used)]
    · rfl
    have here := claimed.2 s le_rfl
    rw [getElem?_eq_none (not_lt.mp used)] at here
    cases here
  · have short := sound.short
    simp only [length_map, length_drop]
    omega
  · refine (sound.sorted.sublist (drop_sublist _ _)).map _ fun r later ordered => ?_
    exact Nat.sub_le_sub_right ordered n
  · intro r mem
    obtain ⟨former, old, rfl⟩ := mem_map.mp mem
    have within := sound.within former (mem_of_mem_drop old)
    exact Nat.sub_le_sub_right within n
  · exact RingBuffer.Bounded.skip sound.bounded n
  · simp only [Pipe.commitRead, shiftRights, advanceRights]
    rw [sound.behind, Nat.mod_add_mod, add_assoc, Nat.add_sub_cancel' inside]

theorem Sound.shiftRights (sound : pipe.Sound q) :
    (pipe.shiftRights records).Sound (q.drop records) := by
  refine ⟨⟨fun s => ?_, ?_, sound.sorted.sublist (drop_sublist _ _), fun r mem =>
    sound.within r (mem_of_mem_drop mem)⟩, sound.bounded, sound.behind⟩
  · simp only [Pipe.shiftRights]
    rw [getElem?_drop, add_comm records]
    split
    · exact sound.front _
    have short := sound.short
    rw [getElem?_eq_none (by omega)]
  have short := sound.short
  simp only [length_drop]
  omega

/-! ## What an operation does -/

/-- What an operation does to the bytes and to the queue, given what it has taken in and
given out. -/
structure Effect (pipe : Pipe ρ) (queue : List (Rights ρ)) (outcome : Outcome ρ)
    (pipe' : Pipe ρ) (queue' : List (Rights ρ)) : Prop where
  sound : pipe'.Sound queue'
  contents : pipe'.contents = pipe.contents.drop outcome.consumed ++ outcome.accepted
  inside : outcome.consumed ≤ pipe.size
  returned : outcome.returned = pipe.contents.take outcome.returned.length
  taken : outcome.consumed = 0 ∨ outcome.consumed = outcome.returned.length
  removed : outcome.removed = queue.take outcome.removed.length
  /-- No offset is reduced below zero. -/
  ahead : ∀ record ∈ queue.drop outcome.removed.length, outcome.consumed ≤ record.offset
  queue : queue' = (queue.drop outcome.removed.length).map
      (fun record => { record with offset := record.offset - outcome.consumed }) ++
    outcome.sent.map fun files => ⟨pipe.size, files⟩
  /-- What sends does not read. -/
  apart : outcome.sent = [] ∨ outcome.consumed = 0 ∧ outcome.removed = []

section

variable (sound : pipe.Sound q)

include sound

theorem Sound.still (shown : b = pipe.contents.take b.length) :
    pipe.Effect q { returned := b } pipe q := by
  refine ⟨sound, by simp, zero_le _, shown, .inl rfl, rfl, fun _ _ => zero_le _, ?_,
    Or.inl rfl⟩
  simp

theorem Sound.refused : pipe.Effect q {} pipe q := sound.still rfl

theorem Sound.takes (inside : n ≤ pipe.size)
    (few : records ≤ q.length) (ahead : ∀ r ∈ q.drop records, n ≤ r.offset) :
    ∃ q', pipe.Effect q
      { returned := pipe.front n, consumed := n, removed := pipe.firstRights records }
      (pipe.commitRead n records) q' := by
  obtain ⟨contents, kept⟩ := sound.commitRead inside ahead
  have len : (q.take records).length = records := by simpa using few
  have shown : (pipe.contents.take n).length = n := by simpa using inside
  refine ⟨_, kept, ?_, inside, ?_, .inr ?_, ?_, ?_, ?_, .inl rfl⟩
  · simpa using contents
  · rw [sound.front_eq inside, shown]
  · rw [sound.front_eq inside, shown]
  · rw [sound.toQueued.firstRights, len]
  · rw [sound.toQueued.firstRights, len]
    exact ahead
  · rw [sound.toQueued.firstRights]
    simp

theorem Sound.puts (room : b.length ≤ pipe.space) :
    pipe.Effect q { accepted := b } (pipe.put b) q := by
  obtain ⟨contents, kept⟩ := sound.put room
  refine ⟨kept, ?_, zero_le _, rfl, .inl rfl, rfl, fun _ _ => zero_le _, ?_, .inl rfl⟩
  · simpa using contents
  · simp

variable {f : List ρ}

theorem Sound.sends (hit : pipe.freeRights = some s) :
    ∃ q', pipe.Effect q { sent := [f] } (pipe.setRights s f) q' := by
  obtain ⟨rfl, free⟩ := sound.toQueued.free hit
  refine ⟨_, sound.setRights free, ?_, zero_le _, rfl, .inl rfl, rfl,
    fun _ _ => zero_le _, ?_, .inr ⟨rfl, rfl⟩⟩
  · exact (append_nil _).symm
  · simp

theorem Sound.sendsWith (hit : pipe.freeRights = some s) (room : b.length ≤ pipe.space) :
    ∃ q', pipe.Effect q { accepted := b, sent := [f] }
      ((pipe.setRights s f).put b) q' := by
  obtain ⟨q', sent⟩ := sound.sends hit
  obtain ⟨contents, kept⟩ := sent.sound.put room
  refine ⟨q', kept, ?_, zero_le _, rfl, .inl rfl, rfl, fun _ _ => zero_le _,
    sent.queue, sent.apart⟩
  rw [contents, sent.contents]
  simp

theorem Sound.retires {r : Rights ρ} (first : pipe.rights 0 = some r) :
    ∃ q', pipe.Effect q { removed := [r] } (pipe.shiftRights 1) q' := by
  have head := (sound.front 0).symm.trans first
  obtain ⟨rest, rfl⟩ : ∃ rest, q = r :: rest := by
    cases q with
    | nil => cases head
    | cons j rest =>
      cases head
      exact ⟨rest, rfl⟩
  refine ⟨_, sound.shiftRights, ?_, zero_le _, rfl, .inl rfl, rfl,
    fun _ _ => zero_le _, ?_, .inl rfl⟩
  · exact (append_nil _).symm
  · simp

end

/-! ## The operations -/

section

variable (sorted : q.Pairwise fun r later => r.offset ≤ later.offset)

include sorted

/-- The records before a position are those in front of the first record at or behind it. -/
theorem sorted_dropWhile {bound : Nat} {r : Rights ρ}
    (mem : r ∈ q.dropWhile fun r => decide (r.offset < bound)) :
    bound ≤ r.offset := by
  induction q with
  | nil => cases mem
  | cons first rest ih =>
    obtain ⟨before, sorted⟩ := pairwise_cons.mp sorted
    rw [dropWhile_cons] at mem
    split at mem
    · exact ih sorted mem
    rename_i stops
    have far : bound ≤ first.offset := by simpa using stops
    rcases mem_cons.mp mem with rfl | later
    · exact far
    · exact far.trans (before r later)

theorem sorted_takeWhile (bound : Nat) : (q.takeWhile fun r => decide (r.offset < bound)) =
      q.filter fun r => decide (r.offset < bound) := by
  induction q with
  | nil => rfl
  | cons first rest ih =>
    obtain ⟨before, sorted⟩ := pairwise_cons.mp sorted
    rw [takeWhile_cons, filter_cons]
    split
    · rw [ih sorted]
    rename_i stops
    have far : bound ≤ first.offset := by simpa using stops
    refine (filter_eq_nil_iff.mpr fun r mem => ?_).symm
    have later := before r mem
    simp only [decide_eq_true_eq]
    omega

end

theorem take_takeWhile_length {c : Rights ρ → Bool} :
    q.take (q.takeWhile c).length = q.takeWhile c := by
  have split := takeWhile_append_dropWhile (p := c) (l := q)
  conv_lhs =>
    arg 2
    rw [← split]
  exact take_left

theorem drop_takeWhile_length (c : Rights ρ → Bool) :
    q.drop (q.takeWhile c).length = q.dropWhile c := by
  have split := takeWhile_append_dropWhile (p := c) (l := q)
  conv_lhs =>
    arg 2
    rw [← split]
  exact drop_left

section

variable (sound : pipe.Sound q)

include sound

variable {copied cloned : Bool} {b : List UInt8} {len : Nat}

theorem writePass_effect {done : Nat} :
    ∃ q', pipe.Effect q (pipe.writePass b done copied).1
      (pipe.writePass b done copied).2 q' := by
  unfold writePass
  dsimp only
  generalize (if b.length ≤ pipeBuf then b.length else 1) = minimum
  split
  · exact ⟨q, sound.refused⟩
  refine ⟨q, sound.puts ?_⟩
  simp only [length_take]
  omega

theorem readPass_effect :
    ∃ q', pipe.Effect q (pipe.readPass len copied).1
      (pipe.readPass len copied).2 q' := by
  unfold readPass
  dsimp only
  split
  · exact ⟨q, sound.refused⟩
  rw [sound.toQueued.countRights]
  refine sound.takes (min_le_right _ _) (takeWhile_sublist _).length_le ?_
  rw [drop_takeWhile_length]
  exact fun r mem => sorted_dropWhile sound.sorted mem

theorem sendRights_effect :
    ∃ q', pipe.Effect q (pipe.sendRights f cloned).1
      (pipe.sendRights f cloned).2 q' := by
  unfold sendRights
  split
  · exact ⟨q, sound.refused⟩
  split
  · exact ⟨q, sound.refused⟩
  next hit =>
    split
    · exact sound.sends hit
    · exact ⟨q, sound.refused⟩

theorem recvRights_effect {installed : Bool} :
    ∃ q', pipe.Effect q (pipe.recvRights installed).1 (pipe.recvRights installed).2 q' := by
  unfold recvRights
  split
  · exact ⟨q, sound.refused⟩
  next first =>
    split
    · exact ⟨q, sound.refused⟩
    · exact sound.retires first

theorem retireRights_effect : ∃ q', pipe.Effect q pipe.retireRights.1 pipe.retireRights.2 q' := by
  unfold retireRights
  split
  · exact ⟨q, sound.refused⟩
  next first => exact sound.retires first

theorem sendMessage_effect :
    ∃ q', pipe.Effect q (pipe.sendMessage b f cloned).1
      (pipe.sendMessage b f cloned).2 q' := by
  have room : (b.take (min pipe.space b.length)).length ≤ pipe.space := by
    simp only [length_take]
    omega
  unfold sendMessage
  split
  · exact ⟨q, sound.refused⟩
  split
  · exact ⟨q, sound.puts room⟩
  split
  · exact ⟨q, sound.refused⟩
  split
  · exact ⟨q, sound.refused⟩
  next hit =>
    split
    · exact sound.sendsWith hit room
    · exact ⟨q, sound.refused⟩

/-- A message does not reach beyond the next record, and takes the records at its start. -/
theorem messageExtent_spec :
    (pipe.messageExtent len).1 ≤ pipe.size ∧
    (pipe.messageExtent len).2 ≤ q.length ∧
    (∀ r ∈ q.drop (pipe.messageExtent len).2,
      (pipe.messageExtent len).1 ≤ r.offset) ∧
    ∀ r ∈ q, 0 < r.offset → (pipe.messageExtent len).1 ≤ r.offset := by
  have below : min len pipe.size ≤ pipe.size := min_le_right _ _
  unfold messageExtent
  cases q with
  | nil =>
    have none_ := sound.front 0
    simp [none_]
  | cons first rest =>
    have head : pipe.rights 0 = some first := sound.front 0
    obtain ⟨before, sorted⟩ := pairwise_cons.mp sound.sorted
    have least (r) (mem : r ∈ first :: rest) : first.offset ≤ r.offset := by
      rcases mem_cons.mp mem with rfl | later
      · exact le_rfl
      · exact before r later
    rw [head]
    dsimp only
    split
    next empty =>
      refine ⟨below, zero_le _, fun r _ => ?_, fun r _ _ => ?_⟩ <;> dsimp only <;> omega
    split
    · refine ⟨(min_le_left _ _).trans below, zero_le _, fun r mem => ?_,
        fun r mem _ => ?_⟩
      · exact (min_le_right _ _).trans (least r (mem_of_mem_drop mem))
      · exact (min_le_right _ _).trans (least r mem)
    rw [sound.toQueued.countRights]
    generalize queueEq : first :: rest = q at *
    have zero (r) (mem : r ∈ q) (pos : 0 < r.offset) :
        r ∈ q.drop (q.takeWhile (·.offset == 0)).length := by
      rw [drop_takeWhile_length]
      rw [← takeWhile_append_dropWhile (p := fun r : Rights ρ => r.offset == 0)
        (l := q)] at mem
      refine (mem_append.mp mem).resolve_left fun taken => ?_
      have none_ := mem_takeWhile_imp taken
      simp only [beq_iff_eq] at none_
      omega
    have few : (q.takeWhile (·.offset == 0)).length ≤ q.length :=
      (takeWhile_sublist _).length_le
    generalize (q.takeWhile (·.offset == 0)).length = records at zero few ⊢
    have hit : (if records < pipeRightsQueue then pipe.rights records else none) =
        (q.drop records).head? := by
      rw [head?_drop]
      split
      · exact sound.front records
      have short := sound.short
      rw [getElem?_eq_none (by omega)]
    rw [hit]
    have ordered := sound.sorted.sublist (drop_sublist records q)
    cases rest' : q.drop records with
    | nil =>
      rw [rest'] at zero
      refine ⟨below, few, fun r mem => ?_, fun r mem pos => ?_⟩
      · simp [rest'] at mem
      · cases zero r mem pos
    | cons next later =>
      rw [rest'] at zero ordered
      have least (r) (mem : r ∈ next :: later) : next.offset ≤ r.offset := by
        rcases mem_cons.mp mem with rfl | further
        · exact le_rfl
        · exact (pairwise_cons.mp ordered).1 r further
      refine ⟨(min_le_left _ _).trans below, few, fun r mem => ?_,
        fun r mem pos => ?_⟩
      · exact (min_le_right _ _).trans (least r (rest' ▸ mem))
      · exact (min_le_right _ _).trans (least r (zero r mem pos))

end

variable {peek installed copied : Bool}

theorem recvMessage_effect (sound : pipe.Sound q) {len : Nat} :
    ∃ q', pipe.Effect q (pipe.recvMessage len peek installed copied).1
      (pipe.recvMessage len peek installed copied).2 q' := by
  obtain ⟨inside, few, ahead, -⟩ := messageExtent_spec sound
  unfold recvMessage
  split
  rename_i n records extent
  rw [extent] at inside few ahead
  split
  · exact ⟨q, sound.refused⟩
  split
  · refine ⟨q, sound.still ?_⟩
    rw [sound.front_eq inside]
    simp
  split
  · exact ⟨q, sound.refused⟩
  · exact sound.takes inside few ahead

theorem recvMessage_within (sound : pipe.Sound q) {len : Nat} :
    ∀ r ∈ q, 0 < r.offset →
      (pipe.recvMessage len peek installed copied).1.returned.length ≤ r.offset := by
  obtain ⟨inside, -, -, within⟩ := messageExtent_spec sound
  intro r mem pos
  have within := within r mem pos
  unfold recvMessage
  split
  rename_i n records extent
  rw [extent] at inside within
  have shown : (pipe.front n).length ≤ r.offset := by
    rw [sound.front_eq inside]
    simp only [length_take]
    omega
  split
  · exact zero_le _
  split
  · exact shown
  split
  · exact zero_le _
  · exact shown

end Pipe

/-! ## Runs -/

/-- A pipe, the writes in progress, and what has passed through it. A record is logged with the
number of bytes before it. -/
structure Lane (ρ : Type) where
  pipe : Pipe ρ := .alloc
  calls : Nat → Option (List UInt8 × Nat) := fun _ => none
  written : List UInt8 := []
  read : List UInt8 := []
  sent : List (Nat × List ρ) := []
  removed : List (Nat × List ρ) := []

/-- The critical sections of the operations; a flag tells whether the rest of the operation
succeeds. -/
inductive PipeEvent (ρ : Type) where
  /-- `pipe_write_common` is called. -/
  | write (call : Nat) (bytes : List UInt8)
  /-- A pass of its loop. -/
  | pass (call : Nat) (copied : Bool)
  /-- It returns. -/
  | stop (call : Nat)
  | read (length : Nat) (copied : Bool)
  | sendRights (files : List ρ) (cloned : Bool)
  | recvRights (installed : Bool)
  | sendMessage (bytes : List UInt8) (files : List ρ) (cloned : Bool)
  | recvMessage (length : Nat) (peek installed copied : Bool)
  /-- The collector removes a record. -/
  | retire
  /-- Ends of the pipe are opened and closed. -/
  | ends (readRefs writeRefs : Nat)

namespace Lane

variable {lane : Lane ρ} {q : List (Rights ρ)}

def place (lane : Lane ρ) (record : Rights ρ) : Nat × List ρ :=
  (lane.read.length + record.offset, record.files)

def note (lane : Lane ρ) (done : Outcome ρ × Pipe ρ) : Outcome ρ × Lane ρ :=
  (done.1, { lane with
    pipe := done.2
    written := lane.written ++ done.1.accepted
    read := lane.read ++ done.1.returned.take done.1.consumed
    sent := lane.sent ++ done.1.sent.map fun files => (lane.written.length, files)
    removed := lane.removed ++ done.1.removed.map lane.place })

def pass (lane : Lane ρ) (call : Nat) (copied : Bool) : Outcome ρ × Lane ρ :=
  match lane.calls call with
  | none => ({}, lane)
  | some (bytes, done) =>
    if done < bytes.length then
      let (outcome, noted) := lane.note (lane.pipe.writePass bytes done copied)
      (outcome, { noted with
        calls := update lane.calls call (some (bytes, done + outcome.accepted.length)) })
    else ({}, lane)

def step (lane : Lane ρ) : PipeEvent ρ → Outcome ρ × Lane ρ
  | .write call bytes =>
    ({}, match lane.calls call with
      | none => { lane with calls := update lane.calls call (some (bytes, 0)) }
      | some _ => lane)
  | .pass call copied => lane.pass call copied
  | .stop call => ({}, { lane with calls := update lane.calls call none })
  | .read length copied => lane.note (lane.pipe.readPass length copied)
  | .sendRights files cloned => lane.note (lane.pipe.sendRights files cloned)
  | .recvRights installed => lane.note (lane.pipe.recvRights installed)
  | .sendMessage bytes files cloned => lane.note (lane.pipe.sendMessage bytes files cloned)
  | .recvMessage length peek installed copied =>
    lane.note (lane.pipe.recvMessage length peek installed copied)
  | .retire => lane.note lane.pipe.retireRights
  | .ends readRefs writeRefs =>
    ({}, { lane with pipe := { lane.pipe with
      refs := readRefs + writeRefs, readRefs := readRefs, writeRefs := writeRefs } })

def after (events : List (PipeEvent ρ)) : Lane ρ := (run step {} events).2

/-- A short write is in the stream as a whole or not at all. -/
def Whole (lane : Lane ρ) : Prop :=
  ∀ call bytes done, lane.calls call = some (bytes, done) → bytes.length ≤ pipeBuf →
    done = 0 ∨ done = bytes.length

theorem Whole.update (whole : lane.Whole) {call : Nat} {entry : Option (List UInt8 × Nat)}
    (fits : ∀ b done, entry = some (b, done) → b.length ≤ pipeBuf → done = 0 ∨ done = b.length) :
    ∀ j b done, update lane.calls call entry j = some (b, done) →
      b.length ≤ pipeBuf → done = 0 ∨ done = b.length := by
  intro j b done hit
  rcases eq_or_ne j call with rfl | apart
  · rw [update_self] at hit
    exact fits b done hit
  · rw [update_of_ne apart] at hit
    exact whole j b done hit

theorem Whole.fresh (whole : lane.Whole) {call done : Nat}
    (calling : lane.calls call = some (b, done)) (short : b.length ≤ pipeBuf)
    (unfinished : done < b.length) : done = 0 :=
  (whole call b done calling short).resolve_right unfinished.ne

/-- The invariant of all runs. -/
structure Good (lane : Lane ρ) (queue : List (Rights ρ)) : Prop where
  sound : lane.pipe.Sound queue
  stream : lane.written = lane.read ++ lane.pipe.contents
  records : lane.sent = lane.removed ++ queue.map lane.place
  whole : lane.Whole

theorem start_good : Good ({} : Lane ρ) [] :=
  ⟨Pipe.alloc_sound, by simp [Pipe.contents, Pipe.ring, Pipe.alloc, contents], rfl,
    by simp [Whole]⟩

theorem Good.note (good : lane.Good q) {done : Outcome ρ × Pipe ρ}
    {q' : List (Rights ρ)} (effect : lane.pipe.Effect q done.1 done.2 q') :
    (lane.note done).2.Good q' := by
  have len : (done.1.returned.take done.1.consumed).length = done.1.consumed := by
    rcases effect.taken with none_ | all <;> simp [*]
  have taken : done.1.returned.take done.1.consumed = lane.pipe.contents.take done.1.consumed := by
    rcases effect.taken with none_ | all
    · simp [none_]
    rw [all, take_length]
    exact effect.returned
  refine ⟨effect.sound, ?_, ?_, good.whole⟩
  · simp only [Lane.note]
    rw [effect.contents, taken, good.stream, append_assoc lane.read (take _ _),
      ← append_assoc (take _ _), take_append_drop, append_assoc]
  have moved : (q.drop done.1.removed.length).map lane.place =
      ((q.drop done.1.removed.length).map fun r =>
        { r with offset := r.offset - done.1.consumed }).map (lane.note done).2.place := by
    rw [map_map]
    refine map_congr_left fun r mem => ?_
    have ahead := effect.ahead r mem
    simp only [place, Lane.note, comp_apply, length_append]
    congr 1
    omega
  have sent : (done.1.sent.map fun f => (lane.written.length, f)) =
      (done.1.sent.map fun f => (⟨lane.pipe.size, f⟩ : Rights ρ)).map
        (lane.note done).2.place := by
    rcases effect.apart with none_ | ⟨consumed, -⟩
    · simp [none_]
    · simp [place, Lane.note, consumed, good.stream]
  rw [effect.queue, map_append, ← moved, ← sent]
  simp only [Lane.note]
  have split := take_append_drop done.1.removed.length q
  rw [good.records]
  conv_lhs => rw [← split, ← effect.removed]
  simp [append_assoc]

theorem writePass_whole (pipe : Pipe ρ) (short : b.length ≤ pipeBuf) (copied : Bool) :
    (pipe.writePass b 0 copied).1.accepted = [] ∨
      (pipe.writePass b 0 copied).1.accepted = b := by
  unfold Pipe.writePass
  dsimp only
  rw [if_pos short]
  split
  · exact .inl rfl
  next room =>
    simp only [not_or, not_lt] at room
    refine .inr ?_
    rw [Nat.sub_zero, min_eq_left room.2.1, drop_zero, take_length]

section

variable (good : lane.Good q) {e : PipeEvent ρ}

include good

theorem Good.pass {call : Nat} : ∃ q', (lane.pass call copied).2.Good q' := by
  unfold Lane.pass
  split
  · exact ⟨q, good⟩
  rename_i b done calling
  split
  next unfinished =>
    obtain ⟨q', effect⟩ := Pipe.writePass_effect good.sound
    have noted := good.note effect
    refine ⟨q', noted.sound, noted.stream, noted.records,
      good.whole.update fun text progress hit short => ?_⟩
    obtain ⟨rfl, rfl⟩ := hit
    obtain rfl : done = 0 := good.whole.fresh calling short unfinished
    rcases writePass_whole lane.pipe short copied with none_ | all
    · simp [Lane.note, none_]
    · simp [Lane.note, all]
  · exact ⟨q, good⟩

theorem Good.effect : ∃ q' pipe', lane.pipe.Effect q (lane.step e).1 pipe' q' := by
  have still : ∃ q' pipe', lane.pipe.Effect q {} pipe' q' :=
    ⟨q, lane.pipe, good.sound.refused⟩
  cases e with
  | write call b => exact still
  | pass call copied =>
    simp only [Lane.step, Lane.pass]
    split
    · exact still
    split
    · obtain ⟨q', effect⟩ := Pipe.writePass_effect good.sound
      exact ⟨q', _, effect⟩
    · exact still
  | stop call => exact still
  | read len copied =>
    obtain ⟨q', effect⟩ := Pipe.readPass_effect good.sound
    exact ⟨q', _, effect⟩
  | sendRights f cloned =>
    obtain ⟨q', effect⟩ := Pipe.sendRights_effect good.sound
    exact ⟨q', _, effect⟩
  | recvRights installed =>
    obtain ⟨q', effect⟩ := Pipe.recvRights_effect good.sound
    exact ⟨q', _, effect⟩
  | sendMessage b f cloned =>
    obtain ⟨q', effect⟩ := Pipe.sendMessage_effect good.sound
    exact ⟨q', _, effect⟩
  | recvMessage len peek installed copied =>
    obtain ⟨q', effect⟩ := Pipe.recvMessage_effect good.sound
    exact ⟨q', _, effect⟩
  | retire =>
    obtain ⟨q', effect⟩ := Pipe.retireRights_effect good.sound
    exact ⟨q', _, effect⟩
  | ends readRefs writeRefs => exact still

theorem Good.step (e : PipeEvent ρ) : ∃ q', (lane.step e).2.Good q' := by
  have noted {done : Outcome ρ × Pipe ρ}
      (effect : ∃ q', lane.pipe.Effect q done.1 done.2 q') :
      ∃ q', (lane.note done).2.Good q' := by
    obtain ⟨q', effect⟩ := effect
    exact ⟨q', good.note effect⟩
  cases e with
  | write call b =>
    refine ⟨q, ?_⟩
    simp only [Lane.step]
    split
    · refine ⟨good.sound, good.stream, good.records,
        good.whole.update fun text progress hit _ => ?_⟩
      simp only [Option.some.injEq, Prod.mk.injEq] at hit
      exact .inl hit.2.symm
    · exact good
  | pass call copied => exact good.pass
  | stop call =>
    exact ⟨q, good.sound, good.stream, good.records,
      good.whole.update nofun⟩
  | read len copied => exact noted (Pipe.readPass_effect good.sound)
  | sendRights f cloned => exact noted (Pipe.sendRights_effect good.sound)
  | recvRights installed => exact noted (Pipe.recvRights_effect good.sound)
  | sendMessage b f cloned =>
    exact noted (Pipe.sendMessage_effect good.sound)
  | recvMessage len peek installed copied =>
    exact noted (Pipe.recvMessage_effect good.sound)
  | retire => exact noted (Pipe.retireRights_effect good.sound)
  | ends readRefs writeRefs =>
    obtain ⟨⟨⟨front, short, sorted, within⟩, bounded, behind⟩, stream, records, whole⟩ := good
    exact ⟨q, ⟨⟨front, short, sorted, within⟩, bounded, behind⟩, stream, records, whole⟩

/-- What the kinds of events do beyond the invariant. -/
def Precise (lane : Lane ρ) (queue : List (Rights ρ)) (event : PipeEvent ρ) : Prop :=
  match event with
  | .pass call _ => ∀ bytes done, lane.calls call = some (bytes, done) → bytes.length ≤ pipeBuf →
      (lane.step event).2.written = lane.written ∨
        (lane.step event).2.written = lane.written ++ bytes
  | .read _ _ =>
    (lane.step event).1.removed = queue.filter fun record =>
      decide (record.offset < (lane.step event).1.returned.length)
  | .recvMessage _ _ _ _ => ∀ record ∈ queue, 0 < record.offset →
      (lane.step event).1.returned.length ≤ record.offset
  | _ => True

theorem Good.precise : lane.Precise q e := by
  cases e with
  | pass call copied =>
    intro b done calling short
    simp only [Lane.step, Lane.pass, calling]
    split
    next unfinished =>
      obtain rfl : done = 0 := good.whole.fresh calling short unfinished
      rcases writePass_whole lane.pipe short copied with none_ | all
      · exact .inl (by simp [Lane.note, none_])
      · exact .inr (by simp [Lane.note, all])
    · exact .inl rfl
  | read len copied =>
    simp only [Precise, Lane.step, Lane.note]
    unfold Pipe.readPass
    dsimp only
    split
    · exact (filter_eq_nil_iff.mpr (by simp)).symm
    have inside : min len lane.pipe.size ≤ lane.pipe.size := min_le_right _ _
    rw [good.sound.toQueued.countRights, good.sound.toQueued.firstRights,
      good.sound.front_eq inside, length_take, Pipe.contents_length,
      min_eq_left inside, ← Pipe.sorted_takeWhile good.sound.sorted]
    exact Pipe.take_takeWhile_length
  | recvMessage len peek installed copied =>
    exact Pipe.recvMessage_within good.sound
  | _ => trivial

end

end Lane

end SrvrOS.Files
