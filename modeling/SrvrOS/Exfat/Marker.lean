import SrvrOS.Exfat.Frame.Nested

/-!
# The volume marker

The flags of the main boot sector are written outside `volume_write`, before the first and after
the last write of an outermost mutation. These steps move the disk between the settled and the
marked phase.
-/

namespace SrvrOS.Exfat

open Lib List Throughout

variable {first second third before after disk : Disk} {d : Bytes}
  {left right store : Store UInt8}

/-! ## Phases of a disk -/

/-- The blocks that hold the volume flags. -/
def FlagBlock (blockSize block : Nat) : Prop := block = 106 / blockSize ∨ block = 107 / blockSize

/-- A low flag byte with VolumeDirty set. -/
def DirtyByte (byte : UInt8) : Prop := byte.toNat / 2 % 2 = 1

instance (byte : UInt8) : Decidable (DirtyByte byte) := inferInstanceAs (Decidable (_ = _))

/-- Nothing but the flags is undecided. -/
def Disk.Settled (disk : Disk) : Prop := Lib.Settled (FlagBlock disk.blockSize) disk.trace

/-- Every crash leaves the volume dirty. -/
def Disk.Marked (disk : Disk) : Prop :=
  Lib.Marked disk.blockSize 106 DirtyByte disk.origin disk.trace

/-- The media a crash of this disk may leave without the dirty flag. -/
def Disk.Covers (disk : Disk) (reference : Store UInt8) (trace : List (Event UInt8)) : Prop :=
  Lib.Covered disk.blockSize (FlagBlock disk.blockSize) 106 DirtyByte disk.origin reference trace

/-- Agreement outside the blocks of the volume flags. -/
def Disk.Agree (disk : Disk) (left right : Store UInt8) : Prop :=
  AgreeOutside disk.blockSize (FlagBlock disk.blockSize) left right

/-- A disk between two operations. -/
def Disk.AtRest (disk : Disk) : Prop := disk.Settled ∨ disk.Marked

theorem SameDevice.covers (same : SameDevice before after) : after.Covers = before.Covers := by
  unfold Disk.Covers
  rw [same.blockSize, same.origin]

theorem Disk.AtRest.covers (rest : disk.AtRest) (logged : disk.Recorded) :
    disk.Covers disk.medium disk.trace := by
  rcases rest with settled | marked
  · refine .inr ⟨settled, ?_⟩
    rw [← logged.medium]
    exact AgreeOutside.refl
  · exact .inl marked

theorem Disk.Marked.dirty (marked : disk.Marked) (logged : disk.Recorded) :
    DirtyByte (disk.medium 106) := by
  rw [logged.medium]
  exact Lib.Marked.medium marked logged.positive logged.whole

/-! ## Writing the flags -/

def Disk.flushed (disk : Disk) : Disk := { disk with trace := .flush :: disk.trace }

theorem SameDevice.put (disk : Disk) (offset : Nat) (d : Bytes) :
    SameDevice disk (disk.put offset d) :=
  ⟨rfl, rfl, rfl, rfl, rfl, rfl⟩

theorem SameDevice.flushed {disk : Disk} : SameDevice disk disk.flushed :=
  ⟨rfl, rfl, rfl, rfl, rfl, rfl⟩

theorem Disk.Recorded.flushed (logged : disk.Recorded) : disk.flushed.Recorded := by
  refine ⟨logged.positive, ?_, logged.medium⟩
  intro e mem
  rcases mem_cons.mp mem with rfl | old
  · trivial
  · exact logged.whole e old

theorem flagEvents_within {blockSize : Nat} (positive : 0 < blockSize) (short : d.length ≤ 2)
    {e : Event UInt8} (mem : e ∈ writeEvents blockSize store 106 d) :
    e.Within (FlagBlock blockSize) := by
  obtain ⟨block, touched, rfl⟩ := mem_writeEvents mem
  by_cases empty : d.length = 0
  · rw [empty] at touched
    exact absurd touched not_mem_nil
  obtain ⟨lower, upper⟩ := (mem_touchedBlocks (Nat.pos_of_ne_zero empty)).mp touched
  have last : (106 + d.length - 1) / blockSize ≤ 107 / blockSize :=
    Nat.div_le_div_right (by omega)
  have next : 107 / blockSize ≤ 106 / blockSize + 1 := by
    have bound : 107 / blockSize ≤ (106 + blockSize) / blockSize := Nat.div_le_div_right (by omega)
    rwa [Nat.add_div_right _ positive] at bound
  unfold Event.Within FlagBlock
  omega

theorem flagWrite_outside (short : d.length ≤ 2) {a : Nat}
    (other : a ≠ 106 ∧ a ≠ 107) : store.write 106 d a = store a :=
  Store.write_outside store (by omega)

theorem Disk.Settled.flagWrite (settled : disk.Settled) (logged : disk.Recorded)
    (short : d.length ≤ 2) :
    (disk.put 106 d).Settled ∧
      Throughout (disk.Covers disk.medium) disk.trace (disk.put 106 d).trace := by
  have within : ∀ e ∈ writeEvents disk.blockSize disk.medium 106 d,
      e.Within (FlagBlock disk.blockSize) :=
    fun e mem => flagEvents_within logged.positive short mem
  refine ⟨settled.extend within, of_extend fun tail suffix => ?_⟩
  have tailWithin : ∀ e ∈ tail, e.Within (FlagBlock disk.blockSize) :=
    fun e mem => within e (suffix.subset mem)
  refine .inr ⟨settled.extend tailWithin, ?_⟩
  intro cell outside
  have whole : ∀ e ∈ tail, e.WholeBlock disk.blockSize :=
    fun e mem => writeEvents_wholeBlock (suffix.subset mem)
  rw [replay_append, replay_outside whole tailWithin outside, ← logged.medium]

theorem Disk.Marked.flagWrite (marked : disk.Marked) (logged : disk.Recorded)
    (dirty : DirtyByte (disk.medium.write 106 d 106)) :
    (disk.put 106 d).Marked ∧
      ∀ reference, Throughout (disk.Covers reference) disk.trace (disk.put 106 d).trace := by
  have leaves : ∀ e ∈ writeEvents disk.blockSize disk.medium 106 d,
      e.Leaves disk.blockSize 106 DirtyByte :=
    fun e mem => writeEvents_leaves mem logged.positive dirty
  have whole : ∀ e ∈ writeEvents disk.blockSize disk.medium 106 d,
      e.WholeBlock disk.blockSize :=
    fun e mem => writeEvents_wholeBlock mem
  have extended : ∀ tail, tail <:+ writeEvents disk.blockSize disk.medium 106 d →
      Lib.Marked disk.blockSize 106 DirtyByte disk.origin (tail ++ disk.trace) := by
    intro tail suffix
    apply Lib.Marked.extend marked logged.positive
    · intro e mem
      rcases mem_append.mp mem with new | old
      · exact whole e (suffix.subset new)
      · exact logged.whole e old
    · exact fun e mem => leaves e (suffix.subset mem)
  exact ⟨extended _ (suffix_refl _), fun reference =>
    of_extend fun tail suffix => .inl (extended tail suffix)⟩

theorem Disk.Marked.frame (marked : before.Marked) (f : DiskFrame before after)
    (logged : before.Recorded) (later : after.Recorded) :
    after.Marked ∧ ∀ reference, Throughout (before.Covers reference) before.trace after.trace := by
  obtain ⟨newer, trace, leaves⟩ := f.events
  have dirty := marked.dirty logged
  have wholeAll : ∀ e ∈ newer ++ before.trace, e.WholeBlock before.blockSize := by
    rw [← trace, ← f.blockSize]
    exact later.whole
  have extended : ∀ tail, tail <:+ newer →
      Lib.Marked before.blockSize 106 DirtyByte before.origin (tail ++ before.trace) := by
    intro tail suffix
    apply Lib.Marked.extend marked logged.positive
    · intro e mem
      apply wholeAll
      rcases mem_append.mp mem with new | old
      · exact mem_append_left _ (suffix.subset new)
      · exact mem_append_right _ old
    intro e mem
    have kept := leaves e (suffix.subset mem)
    cases e with
    | flush => trivial
    | write block content =>
      intro same cell found
      rw [kept same cell found]
      exact dirty
  refine ⟨?_, fun reference => ?_⟩
  · unfold Disk.Marked
    rw [f.blockSize, f.origin, trace]
    exact extended newer (suffix_refl _)
  · rw [trace]
    exact of_extend fun tail suffix => .inl (extended tail suffix)

theorem Disk.Settled.flushCovered (settled : disk.Settled) (logged : disk.Recorded) :
    disk.flushed.Settled ∧ Throughout (disk.Covers disk.medium) disk.trace disk.flushed.trace := by
  refine ⟨Lib.Settled.flush, ?_⟩
  have agree : AgreeOutside disk.blockSize (FlagBlock disk.blockSize)
      (replay disk.blockSize disk.origin disk.trace) disk.medium := by
    rw [← logged.medium]
    exact AgreeOutside.refl
  refine ⟨[.flush], rfl, ?_⟩
  intro tail suffix
  rcases suffix_cons_iff.mp suffix with rfl | rest
  · exact .inr ⟨Lib.Settled.flush, agree⟩
  rw [suffix_nil.mp rest]
  exact .inr ⟨settled, agree⟩

theorem Disk.flush_marks (logged : disk.Recorded) (dirty : DirtyByte (disk.medium 106)) :
    disk.flushed.Marked ∧ disk.flushed.Settled := by
  refine ⟨Lib.Marked.flush ?_, Lib.Settled.flush⟩
  change DirtyByte (replay disk.blockSize disk.origin disk.trace 106)
  rw [← logged.medium]
  exact dirty

theorem Disk.Covers.congr {trace : List (Event UInt8)}
    (covers : disk.Covers left trace) (agree : disk.Agree left right) :
    disk.Covers right trace := by
  rcases covers with marked | ⟨settled, same⟩
  · exact .inl marked
  · exact .inr ⟨settled, same.trans agree⟩

theorem Disk.agree_of_bytes (disk : Disk) (bytes : ∀ a, a ≠ 106 → a ≠ 107 → left a = right a) :
    disk.Agree left right := by
  intro cell outside
  apply bytes
  · rintro rfl
    exact outside (.inl rfl)
  · rintro rfl
    exact outside (.inr rfl)

/-! ## Two kinds of steps -/

/-- Steps that leave a settled disk settled: flag writes and flushes. -/
structure SettledStep (before after : Disk) : Prop where
  device : SameDevice before after
  recorded : after.Recorded
  settled : after.Settled
  bytes : ∀ address, address ≠ 106 → address ≠ 107 → after.medium address = before.medium address
  through : Throughout (before.Covers before.medium) before.trace after.trace

/-- Steps that leave a marked disk marked. -/
structure MarkedStep (before after : Disk) : Prop where
  device : SameDevice before after
  recorded : after.Recorded
  marked : after.Marked
  through : ∀ reference, Throughout (before.Covers reference) before.trace after.trace

theorem SettledStep.refl (logged : disk.Recorded) (settled : disk.Settled) :
    SettledStep disk disk :=
  ⟨SameDevice.refl, logged, settled, fun _ _ _ => rfl,
    Throughout.refl (Disk.AtRest.covers (.inl settled) logged)⟩

theorem SettledStep.trans (left : SettledStep first second) (right : SettledStep second third) :
    SettledStep first third := by
  refine ⟨left.device.trans right.device, right.recorded, right.settled, ?_, ?_⟩
  · intro a low high
    rw [right.bytes a low high, left.bytes a low high]
  refine left.through.trans (right.through.mono fun trace covers => ?_)
  rw [left.device.covers] at covers
  exact covers.congr (first.agree_of_bytes left.bytes)

theorem MarkedStep.trans (left : MarkedStep first second) (right : MarkedStep second third) :
    MarkedStep first third := by
  refine ⟨left.device.trans right.device, right.recorded, right.marked, fun reference => ?_⟩
  refine (left.through reference).trans ((right.through reference).mono fun trace covers => ?_)
  rwa [left.device.covers] at covers

section

variable (logged : disk.Recorded)

include logged

theorem SettledStep.put (settled : disk.Settled)
    (short : d.length ≤ 2) : SettledStep disk (disk.put 106 d) := by
  obtain ⟨after, through⟩ := settled.flagWrite logged short
  exact ⟨SameDevice.put disk 106 d, logged.put 106 d, after, fun a low high =>
    flagWrite_outside short ⟨low, high⟩, through⟩

theorem SettledStep.flushed (settled : disk.Settled) : SettledStep disk disk.flushed := by
  obtain ⟨after, through⟩ := settled.flushCovered logged
  exact ⟨SameDevice.flushed, logged.flushed, after, fun _ _ _ => rfl, through⟩

theorem MarkedStep.put (marked : disk.Marked) (dirty : DirtyByte (disk.medium.write 106 d 106)) :
    MarkedStep disk (disk.put 106 d) := by
  obtain ⟨after, through⟩ := marked.flagWrite logged dirty
  exact ⟨SameDevice.put disk 106 d, logged.put 106 d, after, through⟩

theorem MarkedStep.flushed (marked : disk.Marked) : MarkedStep disk disk.flushed := by
  have after := (Disk.flush_marks logged (marked.dirty logged)).1
  refine ⟨SameDevice.flushed, logged.flushed, after, fun reference => ⟨[.flush], rfl, ?_⟩⟩
  intro tail suffix
  rcases suffix_cons_iff.mp suffix with rfl | rest
  · exact .inl after
  rw [suffix_nil.mp rest]
  exact .inl marked

end

theorem MarkedStep.frame (marked : before.Marked) (f : DiskFrame before after)
    (logged : before.Recorded) (later : after.Recorded) : MarkedStep before after := by
  obtain ⟨still, through⟩ := marked.frame f logged later
  exact ⟨f.toSameDevice, later, still, through⟩

/-- An operation ends at rest, and on the way a crash without the dirty flag exposes the medium
before or the medium after. -/
structure Journal (before after : Disk) : Prop where
  device : SameDevice before after
  recorded : after.Recorded
  rest : after.AtRest
  through : Throughout (fun trace => before.Covers before.medium trace ∨
    before.Covers after.medium trace) before.trace after.trace

theorem SettledStep.journal (step : SettledStep before after) : Journal before after :=
  ⟨step.device, step.recorded, .inl step.settled, step.through.mono fun _ => .inl⟩

theorem MarkedStep.journal (step : MarkedStep before after) : Journal before after :=
  ⟨step.device, step.recorded, .inr step.marked, (step.through _).mono fun _ => .inl⟩

theorem Journal.refl (logged : disk.Recorded) (rest : disk.AtRest) : Journal disk disk :=
  ⟨SameDevice.refl, logged, rest, Throughout.refl (.inl (rest.covers logged))⟩

theorem SettledStep.then (left : SettledStep first second) (right : Journal second third) :
    Journal first third := by
  refine ⟨left.device.trans right.device, right.recorded, right.rest, ?_⟩
  refine (left.through.mono fun _ => .inl).trans (right.through.mono fun trace covers => ?_)
  rw [left.device.covers] at covers
  exact covers.imp_left fun before => before.congr (first.agree_of_bytes left.bytes)

theorem MarkedStep.settle (left : MarkedStep first second) (right : SettledStep second third) :
    Journal first third := by
  refine ⟨left.device.trans right.device, right.recorded, .inl right.settled, ?_⟩
  refine ((left.through _).mono fun _ => .inl).trans (right.through.mono fun trace covers => ?_)
  rw [left.device.covers] at covers
  refine .inr (covers.congr (first.agree_of_bytes fun a low high => ?_))
  exact (right.bytes a low high).symm

end SrvrOS.Exfat
