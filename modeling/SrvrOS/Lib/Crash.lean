import SrvrOS.Lib.Store

/-!
# Crashes of a write-back device

A device accepts block writes and flushes. Writes before the last flush are durable; of the later
ones any subset may have reached the medium when power is lost. The rules bound what a crash can
leave behind.
-/

namespace SrvrOS.Lib

open List Store

universe u

/-- What a device is told, one block or one flush at a time. -/
inductive Event (β : Type u) where
  | write (block : Nat) (content : List β)
  | flush

variable {β : Type u}

namespace Event

def apply (size : Nat) (store : Store β) : Event β → Store β
  | write block content => store.write (block * size) content
  | flush => store

def isFlush : Event β → Bool
  | write _ _ => false
  | flush => true

/-- A write replaces exactly one block. -/
def WholeBlock (size : Nat) : Event β → Prop
  | write _ content => content.length = size
  | flush => True

/-- An event that leaves `value`, if anything, in cell `addr`. -/
def Leaves (size addr : Nat) (holds : β → Prop) : Event β → Prop
  | write block content =>
    block = addr / size → ∀ cell, content[addr % size]? = some cell → holds cell
  | flush => True

/-- A write to one of the given blocks, or a flush. -/
def Within (bs : Nat → Prop) : Event β → Prop
  | write block _ => bs block
  | flush => True

end Event

def replay (size : Nat) (origin : Store β) (trace : List (Event β)) : Store β :=
  trace.foldr (fun event store => event.apply size store) origin

/-- The events since the last flush. -/
def undecided (trace : List (Event β)) : List (Event β) :=
  trace.takeWhile fun event => !event.isFlush

/-- The events up to the last flush. -/
def durable (trace : List (Event β)) : List (Event β) :=
  trace.dropWhile fun event => !event.isFlush

/-- A medium that a crash after `trace` may leave behind. -/
def Survivor (size : Nat) (origin : Store β) (trace : List (Event β))
    (store : Store β) : Prop :=
  ∃ kept, kept.Sublist (undecided trace) ∧
    store = replay size (replay size origin (durable trace)) kept

section Replay

variable {size : Nat} {origin : Store β}

@[simp] theorem replay_cons (e : Event β) (trace : List (Event β)) :
    replay size origin (e :: trace) =
      e.apply size (replay size origin trace) := rfl

theorem replay_append (newer older : List (Event β)) :
    replay size origin (newer ++ older) =
      replay size (replay size origin older) newer := by
  simp [replay]

theorem undecided_append_durable (trace : List (Event β)) :
    undecided trace ++ durable trace = trace :=
  takeWhile_append_dropWhile

variable {addr : Nat} {bs : Nat → Prop}

theorem apply_outside {e : Event β} {store : Store β} (whole : e.WholeBlock size)
    (within : e.Within bs) (outside : ¬bs (addr / size)) :
    e.apply size store addr = store addr := by
  cases e with
  | flush => rfl
  | write b c =>
    have len := whole
    apply write_outside
    rw [len]
    by_contra inside
    rw [not_or, Nat.not_lt, Nat.not_le] at inside
    apply outside
    have found : addr / size = b := by
      apply Nat.div_eq_of_lt_le
      · exact inside.1
      rw [Nat.add_mul, Nat.one_mul]
      exact inside.2
    rw [found]
    exact within

variable {trace : List (Event β)}

section

variable (whole : ∀ e ∈ trace, e.WholeBlock size)

include whole

theorem replay_outside (within : ∀ e ∈ trace, e.Within bs) (outside : ¬bs (addr / size)) :
    replay size origin trace addr = origin addr := by
  induction trace with
  | nil => rfl
  | cons e rest ih =>
    rw [replay_cons, apply_outside (whole e mem_cons_self) (within e mem_cons_self) outside]
    exact ih (fun later mem => whole later (mem_cons_of_mem _ mem))
      fun later mem => within later (mem_cons_of_mem _ mem)

variable {holds : β → Prop}

theorem replay_leaves (leaves : ∀ e ∈ trace, e.Leaves size addr holds)
    (start : holds (origin addr)) (pos : 0 < size) :
    holds (replay size origin trace addr) := by
  induction trace with
  | nil => exact start
  | cons e rest ih =>
    have earlier := ih (fun later mem => whole later (mem_cons_of_mem _ mem))
      fun later mem => leaves later (mem_cons_of_mem _ mem)
    rw [replay_cons]
    cases e with
    | flush => exact earlier
    | write b d =>
      by_cases same : b = addr / size
      · have len := whole _ mem_cons_self
        have inside : addr % size < d.length := by
          rw [len]
          exact Nat.mod_lt _ pos
        have found := List.getElem?_eq_getElem inside
        have placed : addr = b * size + addr % size := by
          rw [same, Nat.mul_comm, Nat.div_add_mod]
        have written : Event.apply size (replay size origin rest)
            (.write b d) addr = d[addr % size] := by
          conv_lhs => rw [placed]
          exact write_inside _ found
        rw [written]
        exact leaves _ mem_cons_self same _ found
      have within : (Event.write b d).Within fun other => other = b := rfl
      rw [apply_outside (whole _ mem_cons_self) within fun found => same found.symm]
      exact earlier

end

end Replay

section BlockWrites

def touchedBlocks (size offset length : Nat) : List Nat :=
  if length = 0 then []
  else range' (offset / size)
    ((offset + length - 1) / size - offset / size + 1)

/-- The events of a write, newest first: every touched block as it stands afterwards. -/
def writeEvents (size : Nat) (store : Store β) (offset : Nat) (data : List β) :
    List (Event β) :=
  ((touchedBlocks size offset data.length).map fun block =>
    Event.write block ((store.write offset data).read (block * size) size)).reverse

variable {size off : Nat} {store : Store β} {data : List β}

theorem mem_touchedBlocks {len b : Nat} (pos : 0 < len) :
    b ∈ touchedBlocks size off len ↔
      off / size ≤ b ∧ b ≤ (off + len - 1) / size := by
  have ordered : off / size ≤ (off + len - 1) / size :=
    Nat.div_le_div_right (by omega)
  rw [touchedBlocks, if_neg (by omega), List.mem_range'_1]
  omega

section

variable {e : Event β} (mem : e ∈ writeEvents size store off data)

include mem

theorem mem_writeEvents :
    ∃ b ∈ touchedBlocks size off data.length,
      e = .write b ((store.write off data).read (b * size) size) := by
  rw [writeEvents, mem_reverse, mem_map] at mem
  obtain ⟨b, touched, rfl⟩ := mem
  exact ⟨b, touched, rfl⟩

theorem writeEvents_wholeBlock : e.WholeBlock size := by
  obtain ⟨b, _, rfl⟩ := mem_writeEvents mem
  exact read_length ..

theorem writeEvents_leaves (pos : 0 < size)
    (final : holds (store.write off data addr)) : e.Leaves size addr holds := by
  obtain ⟨b, _, rfl⟩ := mem_writeEvents mem
  intro same cell found
  rw [read_getElem? (Nat.mod_lt _ pos), Option.some.injEq] at found
  rw [← found, same, Nat.mul_comm, Nat.div_add_mod]
  exact final

end

theorem replay_blocks {target : Store β} (bs : List Nat) (addr : Nat) :
    replay size store ((bs.map fun b =>
        Event.write b (target.read (b * size) size)).reverse) addr =
      if addr / size ∈ bs ∧ 0 < size then target addr else store addr := by
  induction bs generalizing store with
  | nil => simp [replay]
  | cons b rest ih =>
    rw [map_cons, reverse_cons, replay_append, ih]
    by_cases later : addr / size ∈ rest ∧ 0 < size
    · rw [if_pos later, if_pos ⟨mem_cons_of_mem _ later.1, later.2⟩]
    rw [if_neg later]
    by_cases here : addr / size = b ∧ 0 < size
    · rw [if_pos ⟨by rw [here.1]; exact mem_cons_self, here.2⟩]
      have placed : addr = b * size + addr % size := by
        rw [← here.1, Nat.mul_comm, Nat.div_add_mod]
      conv_lhs => rw [placed]
      conv_rhs => rw [placed]
      exact write_inside _ (read_getElem? (Nat.mod_lt _ here.2))
    rw [if_neg (by
      rintro ⟨mem, pos⟩
      rcases mem_cons.mp mem with first | mem
      · exact here ⟨first, pos⟩
      · exact later ⟨mem, pos⟩)]
    apply write_outside
    rw [read_length]
    by_contra inside
    rw [not_or, Nat.not_lt, Nat.not_le] at inside
    have pos : 0 < size := by omega
    apply here
    refine ⟨Nat.div_eq_of_lt_le inside.1 ?_, pos⟩
    rw [Nat.add_mul, Nat.one_mul]
    exact inside.2

theorem replay_writeEvents (pos : 0 < size) :
    replay size store (writeEvents size store off data) = store.write off data := by
  funext addr
  rw [writeEvents, replay_blocks]
  split
  · rfl
  next untouched =>
    symm
    apply write_outside
    by_contra inside
    rw [not_or, Nat.not_lt] at inside
    apply untouched
    refine ⟨(mem_touchedBlocks (by omega)).mpr ⟨Nat.div_le_div_right inside.1,
      Nat.div_le_div_right (by omega)⟩, pos⟩

end BlockWrites

section Survivor

variable {size addr : Nat} {origin store : Store β} {trace : List (Event β)}

theorem mem_of_undecided {e : Event β} (mem : e ∈ undecided trace) : e ∈ trace :=
  takeWhile_subset _ mem

section

variable (survivor : Survivor size origin trace store)
  (whole : ∀ e ∈ trace, e.WholeBlock size)
include survivor whole

theorem Survivor.outside (within : ∀ e ∈ undecided trace, e.Within bs)
    (outside : ¬bs (addr / size)) :
    store addr = replay size origin trace addr := by
  obtain ⟨kept, sublist, rfl⟩ := survivor
  have keptStays : replay size (replay size origin (durable trace)) kept addr =
      replay size origin (durable trace) addr :=
    replay_outside (fun e mem => whole e (mem_of_undecided (sublist.subset mem)))
      (fun e mem => within e (sublist.subset mem)) outside
  have allStay : replay size (replay size origin (durable trace))
      (undecided trace) addr = replay size origin (durable trace) addr :=
    replay_outside (fun e mem => whole e (mem_of_undecided mem)) within outside
  rw [keptStays, ← allStay, ← replay_append, undecided_append_durable]

/-- A crash keeps a cell property that holds of the durable medium and of every
undecided write. -/
theorem Survivor.leaves (leaves : ∀ e ∈ undecided trace, e.Leaves size addr holds)
    (start : holds (replay size origin (durable trace) addr)) (pos : 0 < size) :
    holds (store addr) := by
  obtain ⟨kept, sublist, rfl⟩ := survivor
  exact replay_leaves
    (fun e mem => whole e (mem_of_undecided (sublist.subset mem)))
    (fun e mem => leaves e (sublist.subset mem)) start pos

end

end Survivor

/-! ## Marked and settled traces

A protocol that covers its writes by a marker cell alternates between two phases: while
it is *marked*, every medium a crash can leave carries the mark; while it is *settled*,
only the marker bs are undecided, so every crash leaves the other bs as they
are. Between them no unmarked crash exposes unfinished work.
-/

section Phases

variable (size : Nat) (bs : Nat → Prop) (addr : Nat) (holds : β → Prop)
  (origin : Store β)

/-- Two media that agree outside the marker blocks. -/
def AgreeOutside (left right : Store β) : Prop :=
  ∀ cell, ¬bs (cell / size) → left cell = right cell

/-- Only marker blocks are undecided. -/
def Settled (trace : List (Event β)) : Prop :=
  ∀ event ∈ undecided trace, event.Within bs

/-- The mark is durable and every undecided write keeps it. -/
def Marked (trace : List (Event β)) : Prop :=
  holds (replay size origin (durable trace) addr) ∧
    ∀ event ∈ undecided trace, event.Leaves size addr holds

/-- A crash after `trace` leaves the mark or, outside the marker blocks, `reference`. -/
def Covered (reference : Store β) (trace : List (Event β)) : Prop :=
  Marked size addr holds origin trace ∨
    (Settled bs trace ∧
      AgreeOutside size bs (replay size origin trace) reference)

variable {size bs addr holds origin} {c : List β} {b : Nat}

theorem AgreeOutside.refl {store : Store β} : AgreeOutside size bs store store :=
  fun _ _ => rfl

theorem AgreeOutside.trans {first second third : Store β} (left : AgreeOutside size bs first second)
    (right : AgreeOutside size bs second third) :
    AgreeOutside size bs first third :=
  fun cell outside => (left cell outside).trans (right cell outside)

theorem Covered.survivor {reference store : Store β}
    (covered : Covered size bs addr holds origin reference trace)
    (pos : 0 < size) (whole : ∀ e ∈ trace, e.WholeBlock size)
    (survivor : Survivor size origin trace store) (unmarked : ¬holds (store addr)) :
    AgreeOutside size bs store reference := by
  rcases covered with marked | ⟨settled, agree⟩
  · exact absurd (survivor.leaves whole marked.2 marked.1 pos) unmarked
  intro cell outside
  rw [survivor.outside whole settled outside]
  exact agree cell outside

theorem Settled.flush {trace : List (Event β)} : Settled bs (.flush :: trace) :=
  fun _ mem => absurd mem not_mem_nil

theorem Settled.write (settled : Settled bs trace) (inside : bs b) :
    Settled bs (.write b c :: trace) := by
  intro e mem
  rcases mem_cons.mp mem with rfl | old
  · exact inside
  · exact settled e old

theorem Marked.flush (here : holds (replay size origin trace addr)) :
    Marked size addr holds origin (.flush :: trace) :=
  ⟨here, fun _ mem => absurd mem not_mem_nil⟩

theorem Marked.write (marked : Marked size addr holds origin trace)
    (leaves : (Event.write b c).Leaves size addr holds) :
    Marked size addr holds origin (.write b c :: trace) := by
  refine ⟨marked.1, ?_⟩
  intro e mem
  rcases mem_cons.mp mem with rfl | old
  · exact leaves
  · exact marked.2 e old

theorem Marked.medium (marked : Marked size addr holds origin trace)
    (pos : 0 < size) (whole : ∀ e ∈ trace, e.WholeBlock size) :
    holds (replay size origin trace addr) := by
  have all := replay_leaves
    (fun e mem => whole e (mem_of_undecided mem)) marked.2 marked.1 pos
  rwa [← replay_append, undecided_append_durable] at all

variable {newer trace : List (Event β)}

theorem Marked.extend (marked : Marked size addr holds origin trace)
    (pos : 0 < size) (whole : ∀ e ∈ newer ++ trace, e.WholeBlock size)
    (leaves : ∀ e ∈ newer, e.Leaves size addr holds) :
    Marked size addr holds origin (newer ++ trace) := by
  induction newer with
  | nil => exact marked
  | cons e newer ih =>
    have earlier := ih (fun later mem => whole later (mem_cons_of_mem _ mem))
      fun later mem => leaves later (mem_cons_of_mem _ mem)
    cases e with
    | write b c => exact earlier.write (leaves _ mem_cons_self)
    | flush =>
      exact Marked.flush (earlier.medium pos fun later mem =>
        whole later (mem_cons_of_mem _ mem))

theorem Settled.extend (settled : Settled bs trace)
    (within : ∀ e ∈ newer, e.Within bs) : Settled bs (newer ++ trace) := by
  induction newer with
  | nil => exact settled
  | cons e newer ih =>
    have earlier := ih fun later mem => within later (mem_cons_of_mem _ mem)
    cases e with
    | write b c => exact earlier.write (within _ mem_cons_self)
    | flush => exact Settled.flush

end Phases

/-! ## Histories -/

/-- `later` extends `earlier`, and every trace on the way satisfies `holds`. -/
def Throughout (holds : List (Event β) → Prop) (earlier later : List (Event β)) : Prop :=
  ∃ newer, later = newer ++ earlier ∧
    ∀ tail, tail <:+ newer → holds (tail ++ earlier)

section Histories

variable {holds : List (Event β) → Prop} {first second third : List (Event β)}

theorem Throughout.refl (here : holds first) : Throughout holds first first := by
  refine ⟨[], rfl, ?_⟩
  intro tail suffix
  rw [suffix_nil.mp suffix]
  exact here

theorem Throughout.trans (left : Throughout holds first second)
    (right : Throughout holds second third) : Throughout holds first third := by
  obtain ⟨older, rfl, olderHolds⟩ := left
  obtain ⟨newer, rfl, newerHolds⟩ := right
  refine ⟨newer ++ older, (append_assoc ..).symm, ?_⟩
  rintro tail ⟨front, split⟩
  rcases append_eq_append_iff.mp split with ⟨upper, rfl, rfl⟩ | ⟨lower, rfl, rfl⟩
  · rw [append_assoc]
    exact newerHolds upper ⟨front, rfl⟩
  · exact olderHolds tail ⟨lower, rfl⟩

theorem Throughout.mono {weaker : List (Event β) → Prop} (through : Throughout holds first second)
    (implies : ∀ trace, holds trace → weaker trace) : Throughout weaker first second := by
  obtain ⟨newer, rfl, all⟩ := through
  exact ⟨newer, rfl, fun tail suffix => implies _ (all tail suffix)⟩

theorem Throughout.of_extend (extend : ∀ tail, tail <:+ newer → holds (tail ++ trace)) :
    Throughout holds trace (newer ++ trace) :=
  ⟨newer, rfl, extend⟩

theorem Throughout.between (through : Throughout holds first third) {middle : List (Event β)}
    (lower : first <:+ middle) (upper : middle <:+ third) : holds middle := by
  obtain ⟨newer, rfl, all⟩ := through
  obtain ⟨tail, rfl⟩ := lower
  apply all
  obtain ⟨front, split⟩ := upper
  rw [← append_assoc] at split
  exact ⟨front, append_cancel_right split⟩

end Histories

end SrvrOS.Lib
