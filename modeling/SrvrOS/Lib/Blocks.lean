import Mathlib

/-!
# Block lists

The blocks of an allocator with in-band headers: a header of fixed length and a payload. The list
ascends without overlap, and in a coalesced list no free block ends where another begins.
-/

namespace SrvrOS.Lib

open List

/-- A block: the address of its header, the size of its payload, and whether it is free. -/
structure Block where
  addr : Nat
  size : Nat
  free : Bool
deriving DecidableEq, Repr

namespace Block

variable (header : Nat)

def stop (block : Block) : Nat := block.addr + header + block.size

def Has (block : Block) (address : Nat) : Prop :=
  block.addr ≤ address ∧ address < block.stop header

/-- The successor in address order may not be free too if the two are adjacent. -/
def Separate (left right : Block) : Prop :=
  left.stop header = right.addr → left.free = true → right.free = false

end Block

namespace Blocks

variable (header : Nat)

/-- The blocks ascend and do not overlap. -/
def Ordered (blocks : List Block) : Prop :=
  blocks.Pairwise fun left right => left.stop header ≤ right.addr

/-- No two adjacent blocks are free. -/
def Coalesced (blocks : List Block) : Prop := blocks.IsChain (Block.Separate header)

def total (blocks : List Block) : Nat := (blocks.map fun block => header + block.size).sum

def used (blocks : List Block) : List Block := blocks.filter fun block => !block.free

/-- Every address of `inner` is one of `outer`. -/
def Covered (inner outer : List Block) : Prop :=
  ∀ block ∈ inner, ∀ address, block.Has header address →
    ∃ other ∈ outer, other.Has header address

/-- Merge a block with its successor if that is free and adjacent. -/
def mergeNext (block : Block) : List Block → List Block
  | [] => [block]
  | next :: rest =>
    if next.free = true ∧ block.stop header = next.addr then
      { block with size := block.size + header + next.size } :: rest
    else block :: next :: rest

/-- Cut a block down to `wanted` bytes if what is left holds a header and `slack` bytes. -/
def split (slack wanted : Nat) (block : Block) : List Block :=
  if block.size < wanted + header + slack then [block]
  else
    [{ block with size := wanted },
      { addr := block.addr + header + wanted, size := block.size - wanted - header, free := true }]

variable {header : Nat} {left right middle middle' bs : List Block} {b : Block}

/-! ## Parts of a list -/

theorem total_append : total header (left ++ right) = total header left + total header right := by
  simp [total]

theorem used_append : used (left ++ right) = used left ++ used right := by
  simp [used]

theorem Ordered.around (ordered : Ordered header (left ++ b :: right)) :
    (∀ j ∈ left, j.stop header ≤ b.addr) ∧
      (∀ j ∈ right, b.stop header ≤ j.addr) ∧
      ∀ old ∈ left, ∀ after ∈ right, old.stop header ≤ after.addr := by
  obtain ⟨-, tail, cross⟩ := pairwise_append.mp ordered
  exact ⟨fun j mem => cross j mem b (by simp),
    (pairwise_cons.mp tail).1,
    fun old memBefore after memAfter => cross old memBefore after (by simp [memAfter])⟩

theorem Ordered.replace (pos : 0 < header)
    (ordered : Ordered header (left ++ middle ++ right)) (inner : Ordered header middle')
    (covered : Covered header middle' middle) : Ordered header (left ++ middle' ++ right) := by
  obtain ⟨leftMiddle, rightPart, cross⟩ := pairwise_append.mp ordered
  obtain ⟨leftPart, -, leftCross⟩ := pairwise_append.mp leftMiddle
  have first {b : Block} (mem : b ∈ middle') :
      ∃ j ∈ middle, j.addr ≤ b.addr := by
    obtain ⟨j, otherMem, has⟩ := covered b mem b.addr
      ⟨le_rfl, by simp only [Block.stop]; omega⟩
    exact ⟨j, otherMem, has.1⟩
  have last {b : Block} (mem : b ∈ middle') :
      ∃ j ∈ middle, b.stop header ≤ j.stop header := by
    obtain ⟨j, otherMem, has⟩ := covered b mem (b.stop header - 1)
      ⟨by simp only [Block.stop]; omega, by simp only [Block.stop]; omega⟩
    exact ⟨j, otherMem, by have := has.2; omega⟩
  refine pairwise_append.mpr ⟨pairwise_append.mpr ⟨leftPart, inner, ?_⟩, rightPart, ?_⟩
  · intro old beforeMem b mem
    obtain ⟨j, otherMem, le⟩ := first mem
    exact (leftCross old beforeMem j otherMem).trans le
  intro old beforeMem after afterMem
  rcases mem_append.mp beforeMem with inLeft | inMiddle
  · exact cross old (mem_append_left _ inLeft) after afterMem
  obtain ⟨j, otherMem, le⟩ := last inMiddle
  exact le.trans (cross j (mem_append_right _ otherMem) after afterMem)

theorem Covered.append_left (covered : Covered header middle' middle) (left right : List Block) :
    Covered header (left ++ middle' ++ right) (left ++ middle ++ right) := by
  intro b mem a has
  rcases mem_append.mp mem with inFront | inRight
  · rcases mem_append.mp inFront with inLeft | inMiddle
    · exact ⟨b, by simp [inLeft], has⟩
    obtain ⟨j, otherMem, otherHas⟩ := covered b inMiddle a has
    exact ⟨j, by simp [otherMem], otherHas⟩
  · exact ⟨b, by simp [inRight], has⟩

theorem Ordered.total_le {lower upper : Nat} (ordered : Ordered header bs)
    (within : ∀ b ∈ bs, lower ≤ b.addr ∧ b.stop header ≤ upper)
    (nonempty : lower ≤ upper) : lower + total header bs ≤ upper := by
  induction bs generalizing lower with
  | nil => simpa [total] using nonempty
  | cons b rest ih =>
    obtain ⟨above, restOrdered⟩ := pairwise_cons.mp ordered
    have first := within b (by simp)
    have tail := ih restOrdered
      (fun j mem => ⟨above j mem, (within j (by simp [mem])).2⟩) first.2
    simp only [total, map_cons, sum_cons, Block.stop] at *
    omega

theorem length_le_total (pos : 0 < header) (bs : List Block) : bs.length ≤ total header bs := by
  induction bs with
  | nil => exact le_rfl
  | cons b rest ih =>
    simp only [total, length_cons, map_cons, sum_cons] at *
    omega

theorem Ordered.exists_between {new : Block} (pos : 0 < header) (ordered : Ordered header bs)
    (apart : ∀ b ∈ bs, b.stop header ≤ new.addr ∨ new.stop header ≤ b.addr) :
    ∃ left right, bs = left ++ right ∧
      (∀ b ∈ left, b.stop header ≤ new.addr) ∧
      ∀ b ∈ right, new.stop header ≤ b.addr := by
  induction bs with
  | nil => exact ⟨[], [], rfl, by simp, by simp⟩
  | cons b rest ih =>
    obtain ⟨above, restOrdered⟩ := pairwise_cons.mp ordered
    rcases apart b (by simp) with old | after
    · obtain ⟨left, right, rfl, below, higher⟩ :=
        ih restOrdered fun j mem => apart j (by simp [mem])
      refine ⟨b :: left, right, rfl, fun j mem => ?_, higher⟩
      rcases mem_cons.mp mem with rfl | inLeft
      · exact old
      · exact below j inLeft
    refine ⟨[], b :: rest, rfl, by simp, fun j mem => ?_⟩
    rcases mem_cons.mp mem with rfl | inRest
    · exact after
    have next := above j inRest
    simp only [Block.stop] at *
    omega

/-! ## Merging -/

section Merge

variable {next b : Block} {right : List Block}

theorem mergeNext_covered (b : Block) (right : List Block) :
    Covered header (mergeNext header b right) (b :: right) := by
  intro merged mem a has
  cases right with
  | nil => exact ⟨merged, mem, has⟩
  | cons next rest =>
    rw [mergeNext] at mem
    split at mem
    · next adjacent =>
      rcases mem_cons.mp mem with rfl | inRest
      · simp only [Block.Has, Block.stop] at has adjacent
        by_cases old : a < b.addr + header + b.size
        · exact ⟨b, by simp, has.1, old⟩
        · exact ⟨next, by simp, by omega, by simp only [Block.stop]; omega⟩
      · exact ⟨merged, by simp [inRest], has⟩
    · exact ⟨merged, mem, has⟩

theorem total_mergeNext : total header (mergeNext header b right) = total header (b :: right) := by
  cases right with
  | nil => rfl
  | cons next rest =>
    rw [mergeNext]
    split
    · simp only [total, map_cons, sum_cons]
      omega
    · rfl

theorem used_mergeNext (isFree : b.free = true) :
    used (mergeNext header b right) = used (b :: right) := by
  cases right with
  | nil => rfl
  | cons next rest =>
    rw [mergeNext]
    split
    · next adjacent => simp [used, isFree, adjacent.1]
    · rfl

theorem mergeNext_head :
    ∃ merged rest, mergeNext header b right = merged :: rest ∧
      merged.addr = b.addr ∧ merged.free = b.free ∧ b.size ≤ merged.size := by
  cases right with
  | nil => exact ⟨b, [], rfl, rfl, rfl, le_rfl⟩
  | cons next rest =>
    rw [mergeNext]
    split
    · exact ⟨_, rest, rfl, rfl, rfl, by simp only; omega⟩
    · exact ⟨b, next :: rest, rfl, rfl, rfl, le_rfl⟩

theorem Coalesced.mergeNext (coalesced : Coalesced header right) :
    Coalesced header (Blocks.mergeNext header b right) := by
  cases right with
  | nil => exact isChain_singleton _
  | cons next rest =>
    rw [Blocks.mergeNext]
    split
    · next adjacent =>
      refine isChain_cons.mpr ⟨fun after mem => ?_, coalesced.tail⟩
      intro stop _
      have separate := (isChain_cons.mp coalesced).1 after mem
      refine separate ?_ adjacent.1
      simp only [Block.stop] at *
      omega
    next apart =>
    refine isChain_cons_cons.mpr ⟨fun stop _ => ?_, coalesced⟩
    exact eq_false_of_ne_true fun isFree => apart ⟨isFree, stop⟩

theorem Ordered.mergeNext (pos : 0 < header) (ordered : Ordered header (left ++ b :: right)) :
    Ordered header (left ++ Blocks.mergeNext header b right) := by
  cases right with
  | nil => exact ordered
  | cons next rest =>
    rw [Blocks.mergeNext]
    split
    · next adjacent =>
      have whole : Ordered header (left ++ [b, next] ++ rest) := by simpa using ordered
      have covered : Covered header
          [{ b with size := b.size + header + next.size }] [b, next] := by
        have pair : Covered header (Blocks.mergeNext header b [next]) [b, next] :=
          mergeNext_covered b [next]
        rwa [Blocks.mergeNext, if_pos adjacent] at pair
      simpa using whole.replace pos (pairwise_singleton _ _) covered
    · exact ordered

end Merge

/-! ## Splitting -/

section Split

variable {slack wanted : Nat}

theorem split_covered (slack wanted : Nat) (b : Block) :
    Covered header (split header slack wanted b) [b] := by
  intro part mem a has
  refine ⟨b, by simp, ?_⟩
  rw [split] at mem
  split at mem
  · rw [mem_singleton.mp mem] at has
    exact has
  · simp only [mem_cons, not_mem_nil, or_false] at mem
    rcases mem with rfl | rfl <;> simp only [Block.Has, Block.stop] at * <;> omega

theorem total_split : total header (split header slack wanted b) = total header [b] := by
  rw [split]
  split
  · rfl
  simp only [total, map_cons, sum_cons]
  omega

/-- A split leaves at least `wanted` bytes, and perhaps a free rest up to the old end. -/
theorem split_head (large : wanted ≤ b.size) :
    ∃ size rest, split header slack wanted b = { b with size := size } :: rest ∧
      wanted ≤ size ∧
      (rest = [] ∨ ∃ j, rest = [j] ∧ j.free = true ∧ j.stop header = b.stop header) := by
  rw [split]
  split
  · exact ⟨b.size, [], rfl, large, .inl rfl⟩
  refine ⟨wanted, _, rfl, le_rfl, .inr ⟨_, rfl, rfl, ?_⟩⟩
  simp only [Block.stop]
  omega

theorem Ordered.split (pos : 0 < header) (ordered : Ordered header (left ++ b :: right)) :
    Ordered header (left ++ Blocks.split header slack wanted b ++ right) := by
  have whole : Ordered header (left ++ [b] ++ right) := by simpa using ordered
  refine whole.replace pos ?_ (split_covered slack wanted b)
  rw [Blocks.split]
  split
  · exact pairwise_singleton _ _
  · simp [Ordered, Block.stop]

end Split

/-! ## Changing the state of a block -/

theorem Ordered.setFree (pos : 0 < header) {free : Bool}
    (ordered : Ordered header (left ++ b :: right)) :
    Ordered header (left ++ { b with free := free } :: right) := by
  have whole : Ordered header (left ++ [b] ++ right) := by simpa using ordered
  have covered : Covered header [{ b with free := free }] [b] := by
    intro j mem a has
    rw [mem_singleton.mp mem] at has
    exact ⟨b, by simp, has⟩
  simpa using whole.replace pos (pairwise_singleton _ _) covered

end Blocks

end SrvrOS.Lib
