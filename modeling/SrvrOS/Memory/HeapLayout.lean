import SrvrOS.Lib.Blocks
import SrvrOS.Memory.Heap

/-!
# Block lists in memory

`Linked` says that the headers in memory form a doubly linked list of given blocks, and
`Held` that they are the list of the heap. Each pointer operation of the source is shown
to perform the operation on block lists of the same name.
-/

namespace SrvrOS.Memory

open Lib Blocks List Store Word Heap Memory Block

/-! ## Headers as bytes -/

theorem blockAt_congr {m m' : Store UInt8} {a : Nat}
    (same : ∀ byte, a ≤ byte → byte < a + headerSize → m' byte = m byte) :
    blockAt m' a = blockAt m a := by
  have word (off : Nat) (inside : off + 8 ≤ headerSize) :
      m'.getWord (a + off) = m.getWord (a + off) := by
    rw [getWord]
    congr 1
    exact read_congr fun byte lo hi => same byte (by omega) (by omega)
  have flag : m' (a + 16) = m (a + 16) :=
    same _ (by omega) (by simp only [headerSize]; omega)
  have magic := word 0 (by decide)
  rw [add_zero] at magic
  simp [blockAt, magic, word 8 (by decide), word 24 (by decide), word 32 (by decide), flag]

/-- Two headers do not overlap. -/
def Apart (left right : Nat) : Prop :=
  left + headerSize ≤ right ∨ right + headerSize ≤ left

section Fields

variable {m : Store UInt8} {b j v size prev next : Nat}

theorem blockAt_apart (apart : Apart b j) :
    blockAt (setMagic m b v) j = blockAt m j ∧
      blockAt (setSize m b v) j = blockAt m j ∧
      blockAt (setPrev m b v) j = blockAt m j ∧
      blockAt (setNext m b v) j = blockAt m j := by
  refine ⟨?_, ?_, ?_, ?_⟩ <;>
  · refine blockAt_congr fun byte lo hi => setWord_outside m ?_
    simp only [Apart, headerSize] at *
    omega

theorem blockAt_setFree_apart {flag : Bool} (apart : Apart b j) :
    blockAt (setFree m b flag) j = blockAt m j := by
  refine blockAt_congr fun byte lo hi => write_outside m ?_
  simp only [Apart, headerSize, length_singleton] at *
  omega

theorem blockAt_linkPrev_apart (apart : b ≠ 0 → Apart b j) :
    blockAt (linkPrev m b v) j = blockAt m j := by
  rw [linkPrev]
  split
  · next nonzero => simp [blockAt_apart (apart nonzero)]
  · rfl

theorem blockAt_setField (fits : v < 2 ^ 64) :
    blockAt (setMagic m b v) b = { blockAt m b with magic := v } ∧
      blockAt (setSize m b v) b = { blockAt m b with size := v } ∧
      blockAt (setPrev m b v) b = { blockAt m b with prev := v } ∧
      blockAt (setNext m b v) b =
        { blockAt m b with next := v } := by
  simp only [blockAt, setMagic, setSize, setPrev, setNext, Store.getWord_setWord m fits]
  refine ⟨?_, ?_, ?_, ?_⟩ <;>
    rw [Store.getWord_setWord_apart m (by omega),
      Store.getWord_setWord_apart m (by omega),
      Store.getWord_setWord_apart m (by omega), Store.setWord_outside m (by omega)]

theorem blockAt_setFree (flag : Bool) :
    blockAt (setFree m b flag) b = { blockAt m b with free := flag } := by
  have read : (setFree m b flag) (b + 16) = if flag then 1 else 0 :=
    write_inside m (by simp : [if flag then (1 : UInt8) else 0][0]? = some _)
  have word (off : Nat) (apart : off + 8 ≤ 16 ∨ 17 ≤ off) :
      (setFree m b flag).getWord (b + off) = m.getWord (b + off) :=
    getWord_write_apart m (by simp only [length_singleton]; omega)
  have magic := word 0 (by decide)
  rw [add_zero] at magic
  simp only [blockAt, read, magic, word 8 (by decide), word 24 (by decide), word 32 (by decide)]
  cases flag <;> rfl

theorem blockAt_writeHeader_apart (apart : Apart b j) :
    blockAt (writeHeader m b size prev next) j = blockAt m j := by
  simp [writeHeader, blockAt_apart apart, blockAt_setFree_apart apart]

theorem blockAt_writeHeader (sizeFits : size < 2 ^ 64)
    (prevFits : prev < 2 ^ 64) (nextFits : next < 2 ^ 64) :
    blockAt (writeHeader m b size prev next) b =
      { magic := heapMagic, size := size, free := true, prev := prev, next := next } := by
  have magicFits : heapMagic < 2 ^ 64 := by decide
  simp [writeHeader, blockAt_setField nextFits, blockAt_setField prevFits,
    blockAt_setFree, blockAt_setField sizeFits, blockAt_setField magicFits]

end Fields

/-! ## Linked lists of headers -/

/-- The address of the first block, or `after`. -/
def firstAddr (after : Nat) : List Block → Nat
  | [] => after
  | block :: _ => block.addr

/-- The address of the last block, or `before`. -/
def lastAddr (before : Nat) : List Block → Nat
  | [] => before
  | block :: rest => lastAddr block.addr rest

/-- The headers in memory spell the blocks, linked both ways between `before` and `after`. -/
def Linked (memory : Store UInt8) : Nat → List Block → Nat → Prop
  | _, [], _ => True
  | before, block :: rest, after =>
    blockAt memory block.addr =
        { magic := heapMagic, size := block.size, free := block.free, prev := before,
          next := firstAddr after rest } ∧
      Linked memory block.addr rest after

variable {m m' : Store UInt8} {old new v : Nat} {left right bs : List Block}
  {b : Block} {p : Block → Prop}

theorem firstAddr_append :
    firstAddr new (left ++ right) = firstAddr (firstAddr new right) left := by
  cases left <;> rfl

theorem lastAddr_append (old : Nat) (left right : List Block) :
    lastAddr old (left ++ right) = lastAddr (lastAddr old left) right := by
  induction left generalizing old with
  | nil => rfl
  | cons b rest ih => exact ih b.addr

theorem lastAddr_concat (old : Nat) (left : List Block) (last : Block) :
    lastAddr old (left ++ [last]) = last.addr := by
  rw [lastAddr_append]
  rfl

theorem firstAddr_of {p : Nat → Prop} (all : ∀ b ∈ bs, p b.addr)
    (ne : firstAddr 0 bs ≠ 0) : p (firstAddr 0 bs) := by
  cases bs with
  | nil => exact (ne rfl).elim
  | cons first rest => exact all first (by simp)

theorem forall_mem_insert (others : ∀ j ∈ left ++ right, p j)
    (new : p b) : ∀ j ∈ left ++ b :: right, p j := by
  intro j mem
  rcases mem_append.mp mem with inLeft | inRest
  · exact others j (by simp [inLeft])
  rcases mem_cons.mp inRest with rfl | inRight
  · exact new
  · exact others j (by simp [inRight])

theorem forall_mem_replace {new : Block} (all : ∀ j ∈ left ++ b :: right, p j) (isNew : p new) :
    ∀ j ∈ left ++ new :: right, p j :=
  forall_mem_insert (fun j mem => all j (by
    simp only [mem_append, mem_cons] at *
    exact mem.imp_right .inr)) isNew

theorem linked_append :
    Linked m old (left ++ right) new ↔
      Linked m old left (firstAddr new right) ∧
        Linked m (lastAddr old left) right new := by
  induction left generalizing old with
  | nil => simp [Linked, lastAddr]
  | cons b rest ih =>
    simp only [cons_append, Linked, ih, firstAddr_append]
    exact and_assoc.symm

theorem Linked.congr (linked : Linked m old bs new)
    (same : ∀ b ∈ bs, blockAt m' b.addr = blockAt m b.addr) :
    Linked m' old bs new := by
  induction bs generalizing old with
  | nil => trivial
  | cons b rest ih =>
    refine ⟨by rw [same b (by simp)]; exact linked.1, ?_⟩
    exact ih linked.2 fun j mem => same j (by simp [mem])

theorem apart_of_stop_le {first second : Block}
    (ordered : first.stop headerSize ≤ second.addr) : Apart first.addr second.addr := by
  simp only [Apart, stop] at *
  omega

theorem apart_comm {first second : Nat} (apart : Apart first second) : Apart second first :=
  Or.symm apart

section

variable (linked : Linked m old bs new) (ordered : Ordered headerSize bs)
include linked ordered

theorem Linked.linkPrev (nonzero : ∀ b ∈ bs, b.addr ≠ 0) (fits : v < 2 ^ 64) :
    Linked (linkPrev m (firstAddr 0 bs) v) v bs new := by
  cases bs with
  | nil => trivial
  | cons b rest =>
    have isBlock : firstAddr 0 (b :: rest) ≠ 0 := nonzero b (by simp)
    rw [linkPrev, if_pos isBlock]
    refine ⟨?_, linked.2.congr fun j mem => ?_⟩
    · simp [firstAddr, blockAt_setField fits, linked.1]
    have apart := apart_of_stop_le ((pairwise_cons.mp ordered).1 j mem)
    exact (blockAt_apart apart).2.2.1

theorem Linked.setNext (ne : bs ≠ []) (fits : v < 2 ^ 64) :
    Linked (setNext m (lastAddr 0 bs) v) old bs v := by
  obtain ⟨front, last, rfl⟩ := (eq_nil_or_concat' bs).resolve_left ne
  obtain ⟨frontLinked, lastLinked⟩ := linked_append.mp linked
  rw [lastAddr_concat]
  refine linked_append.mpr ⟨frontLinked.congr fun j mem => ?_, ?_, trivial⟩
  · have apart := apart_comm (apart_of_stop_le (ordered.around.1 j mem))
    simp [blockAt_apart apart]
  · simp only [blockAt_setField fits, lastLinked.1]
    rfl

end

/-! ## The list of the heap -/

def kernelBase : Nat := 0x1ffff * 2 ^ 47

theorem heapPointerLooksKernel_iff {pointer : Nat} :
    heapPointerLooksKernel pointer = true ↔ kernelBase ≤ pointer ∧ pointer < 2 ^ 64 := by
  simp only [heapPointerLooksKernel, kernelBase, beq_iff_eq]
  omega

/-- The heap's list is exactly `blocks`, in order, in the kernel half. -/
structure Held (heap : Heap) (blocks : List Block) : Prop where
  head_eq : heap.head = firstAddr 0 blocks
  linked : Linked heap.memory 0 blocks 0
  ordered : Ordered headerSize blocks
  kernel : ∀ block ∈ blocks, kernelBase ≤ block.addr ∧ block.stop headerSize ≤ 2 ^ 64

theorem kernel_addr (bound : kernelBase ≤ b.addr ∧ b.stop headerSize ≤ 2 ^ 64) :
    heapPointerLooksKernel b.addr = true ∧ b.addr ≠ 0 ∧ b.addr < 2 ^ 64 := by
  rw [heapPointerLooksKernel_iff]
  simp only [kernelBase, stop, headerSize] at *
  omega

theorem firstAddr_lt (kernel : ∀ b ∈ bs, kernelBase ≤ b.addr ∧ b.stop headerSize ≤ 2 ^ 64) :
    firstAddr 0 bs < 2 ^ 64 := by
  cases bs with
  | nil => exact Nat.two_pow_pos 64
  | cons first rest => exact (kernel_addr (kernel first (by simp))).2.2

variable {heap : Heap}

theorem Held.addr_ne_zero (held : Held heap bs) : ∀ b ∈ bs, b.addr ≠ 0 :=
  fun b mem => (kernel_addr (held.kernel b mem)).2.1

/-! ## Validation and search -/

/-- A free block of at least `wanted` bytes. -/
def fits (wanted : Nat) (block : Block) : Bool := block.free && decide (wanted ≤ block.size)

/-- The address of the lowest free block that fits, or 0. -/
def firstFit (wanted : Nat) (blocks : List Block) : Nat :=
  ((blocks.find? (fits wanted)).map addr).getD 0

/-- No check of `heap_scan_locked` fails on a linked list, and the search finds the first
block that fits. -/
theorem heapScanFrom_spec {wanted previous c : Nat}
    (linked : Linked heap.memory previous bs 0) (ordered : Ordered headerSize bs)
    (kernel : ∀ b ∈ bs, kernelBase ≤ b.addr ∧ b.stop headerSize ≤ 2 ^ 64) :
    heap.heapScanFrom wanted (firstAddr 0 bs) previous c =
      some (if wanted ≠ 0 ∧ c = 0 then firstFit wanted bs else c) := by
  induction bs generalizing previous c with
  | nil =>
    rw [firstAddr, heapScanFrom, if_pos rfl]
    split
    · next none => rw [none.2]; rfl
    · rfl
  | cons b rest ih =>
    obtain ⟨h, restLinked⟩ := linked
    obtain ⟨above, restOrdered⟩ := pairwise_cons.mp ordered
    have bound := kernel b (by simp)
    have restKernel := fun j mem => kernel j (mem_cons_of_mem _ mem)
    have isKernel := kernel_addr bound
    have view : heap.block b.addr = _ := h
    have next : firstAddr 0 rest ≠ 0 →
        heapPointerLooksKernel (firstAddr 0 rest) = true ∧ b.addr < firstAddr 0 rest ∧
          b.addr + headerSize + b.size ≤ firstAddr 0 rest := by
      cases rest with
      | nil => exact fun null => (null rfl).elim
      | cons successor others =>
        intro _
        have new := above successor (by simp)
        have successorKernel := kernel_addr (restKernel successor (by simp))
        refine ⟨successorKernel.1, ?_, new⟩
        simp only [firstAddr, stop, headerSize] at *
        omega
    rw [firstAddr, heapScanFrom, if_neg isKernel.2.1, view]
    rw [if_neg (by simp [isKernel.1]), if_neg (by simp),
      if_neg fun bad => by simp [(next bad.1).1] at bad,
      if_neg fun bad => by dsimp only at bad; omega,
      ih restLinked restOrdered restKernel]
    by_cases searching : wanted ≠ 0 ∧ c = 0
    · obtain ⟨wanting, none⟩ := searching
      by_cases found : b.free = true ∧ wanted ≤ b.size
      · simp [none, found.1, found.2, isKernel.2.1, firstFit, fits]
      have passed : fits wanted b = false := by simpa [fits] using found
      have skipped : firstFit wanted (b :: rest) = firstFit wanted rest := by
        rw [firstFit, firstFit, find?_cons_of_neg (by simp [passed])]
      simp [found, skipped, and_false]
    have kept : (if wanted ≠ 0 ∧ c = 0 ∧ b.free = true ∧ wanted ≤ b.size then
        b.addr else c) = c :=
      if_neg fun both => searching ⟨both.1, both.2.1⟩
    rw [kept, if_neg searching, if_neg searching]

theorem Held.scan (held : Held heap bs) (wanted : Nat) :
    heap.heapScanLocked wanted = some (if wanted ≠ 0 then firstFit wanted bs else 0) := by
  rw [heapScanLocked, held.head_eq, heapScanFrom_spec held.linked held.ordered held.kernel]
  simp

/-! ## One block of the list -/

section Zipper

variable (held : Held heap (left ++ b :: right))

include held

theorem Held.header : heap.block b.addr =
    { magic := heapMagic, size := b.size, free := b.free, prev := lastAddr 0 left,
      next := firstAddr 0 right } :=
  (linked_append.mp held.linked).2.1

theorem Held.bound : kernelBase ≤ b.addr ∧ b.stop headerSize ≤ 2 ^ 64 :=
  held.kernel b (by simp)

theorem Held.right_linked : Linked heap.memory b.addr right 0 :=
  (linked_append.mp held.linked).2.2

theorem Held.left_linked : Linked heap.memory 0 left b.addr := (linked_append.mp held.linked).1

theorem Held.left_apart : ∀ j ∈ left, Apart j.addr b.addr :=
  fun j mem => apart_of_stop_le (held.ordered.around.1 j mem)

theorem Held.right_apart : ∀ j ∈ right, Apart b.addr j.addr :=
  fun j mem => apart_of_stop_le (held.ordered.around.2.1 j mem)

theorem Held.right_ordered : Ordered headerSize right :=
  (pairwise_cons.mp (pairwise_append.mp held.ordered).2.1).2

theorem Held.right_ne_zero : ∀ j ∈ right, j.addr ≠ 0 :=
  fun j mem => held.addr_ne_zero j (by simp [mem])

theorem Held.left_first_apart {j : Block} (mem : j ∈ left)
    (ne : firstAddr 0 right ≠ 0) : Apart (firstAddr 0 right) j.addr :=
  firstAddr_of (p := fun first => Apart first j.addr) (fun first firstMem =>
    apart_comm (apart_of_stop_le (held.ordered.around.2.2 j mem first firstMem))) ne

theorem Held.first_lt : firstAddr 0 right < 2 ^ 64 :=
  firstAddr_lt fun j mem => held.kernel j (by simp [mem])

theorem Held.setFree {free : Bool} : Held { heap with memory := setFree heap.memory b.addr free }
      (left ++ { b with free := free } :: right) where
  head_eq := by
    have := held.head_eq
    cases left <;> exact this
  linked := by
    refine linked_append.mpr ⟨held.left_linked.congr fun j mem => ?_, ?_,
      held.right_linked.congr fun j mem => ?_⟩
    · exact blockAt_setFree_apart (apart_comm (held.left_apart j mem))
    · have h : blockAt heap.memory b.addr = _ := held.header
      rw [blockAt_setFree, h]
    · exact blockAt_setFree_apart (held.right_apart j mem)
  ordered := held.ordered.setFree (by decide)
  kernel := forall_mem_replace held.kernel held.bound

end Zipper

theorem kernel_of_covered {inner outer : List Block} (covered : Covered headerSize inner outer)
    (kernel : ∀ b ∈ outer, kernelBase ≤ b.addr ∧ b.stop headerSize ≤ 2 ^ 64) :
    ∀ b ∈ inner, kernelBase ≤ b.addr ∧ b.stop headerSize ≤ 2 ^ 64 := by
  intro b mem
  obtain ⟨first, firstMem, firstHas⟩ := covered b mem b.addr
    ⟨le_rfl, by simp only [stop, headerSize]; omega⟩
  obtain ⟨last, lastMem, lastHas⟩ := covered b mem (b.stop headerSize - 1)
    ⟨by simp only [stop, headerSize]; omega, by simp only [stop, headerSize]; omega⟩
  have lower := (kernel first firstMem).1
  have upper := (kernel last lastMem).2
  have := firstHas.1
  have := lastHas.2
  omega

/-! ## Coalescing -/

/-- Whether `coalesce_with_next` merges. -/
def merges (block : Block) : List Block → Bool
  | [] => false
  | next :: _ => next.free && decide (block.stop headerSize = next.addr)

variable {next : Block}

theorem Held.sizes_lt (held : Held heap (left ++ b :: next :: right)) :
    b.size + headerSize + next.size < 2 ^ 64 := by
  have bound := held.bound
  have nextBound := held.kernel next (by simp)
  simp only [stop, kernelBase] at *
  omega

theorem Held.coalesce_machine (held : Held heap (left ++ b :: right)) :
    coalesceWithNext (machine 64) heap b.addr =
      coalesceWithNext exact heap b.addr := by
  have h := held.header
  cases right with
  | nil => simp [coalesceWithNext, h, firstAddr]
  | cons next rest =>
    have heldNext : Held heap ((left ++ [b]) ++ next :: rest) := by simpa using held
    have sizes := held.sizes_lt
    simp only [coalesceWithNext, h, firstAddr, heldNext.header]
    rw [machine_add (by omega : headerSize + next.size < 2 ^ 64),
      machine_add (by simp only [exact]; omega)]

theorem Held.merged {rest : List Block} (held : Held heap (left ++ b :: next :: rest))
    (stop : b.stop headerSize = next.addr) (nextFree : next.free = true) {m : Store UInt8}
    (written : m = setNext (setSize heap.memory b.addr
      (b.size + (headerSize + next.size))) b.addr (firstAddr 0 rest)) :
    Held { heap with memory := linkPrev m (firstAddr 0 rest) b.addr }
      (left ++ { b with size := b.size + headerSize + next.size } :: rest) := by
  have heldNext : Held heap ((left ++ [b]) ++ next :: rest) := by simpa using held
  have addrFits := (kernel_addr held.bound).2.2
  have sizes := held.sizes_lt
  have result : left ++ mergeNext headerSize b (next :: rest) =
      left ++ { b with size := b.size + headerSize + next.size } :: rest := by
    rw [mergeNext, if_pos ⟨nextFree, stop⟩]
  have apartFrom {j : Nat} (apart : Apart b.addr j) :
      blockAt m j = blockAt heap.memory j := by
    simp [written, blockAt_apart apart]
  have restApart : ∀ j ∈ rest, Apart b.addr j.addr :=
    fun j mem => held.right_apart j (by simp [mem])
  refine ⟨?_, linked_append.mpr ⟨?_, ?_, ?_⟩, ?_, ?_⟩
  · have := held.head_eq
    cases left <;> exact this
  · refine held.left_linked.congr fun j mem => ?_
    rw [blockAt_linkPrev_apart (heldNext.left_first_apart (by simp [mem])),
      apartFrom (apart_comm (held.left_apart j mem))]
  · have h : blockAt heap.memory b.addr = _ := held.header
    have blockApart := heldNext.left_first_apart (by simp : b ∈ left ++ [b])
    have sizeFits : b.size + (headerSize + next.size) < 2 ^ 64 := by omega
    rw [blockAt_linkPrev_apart blockApart, written]
    simp [blockAt_setField heldNext.first_lt, blockAt_setField sizeFits, h, add_assoc]
  · have restLinked := heldNext.right_linked.congr fun j mem => apartFrom (restApart j mem)
    exact restLinked.linkPrev heldNext.right_ordered heldNext.right_ne_zero addrFits
  · rw [← result]
    exact held.ordered.mergeNext (by decide)
  rw [← result]
  have covered : Covered headerSize (left ++ mergeNext headerSize b (next :: rest) ++ [])
      (left ++ b :: next :: rest ++ []) :=
    (mergeNext_covered b (next :: rest)).append_left left []
  simp only [append_nil] at covered
  exact kernel_of_covered covered held.kernel

section

variable (held : Held heap (left ++ b :: right))

include held

/-- `coalesce_with_next` merges the block with its successor if that is free and adjacent. -/
theorem Held.coalesce :
    ∃ heap', coalesceWithNext exact heap b.addr = (merges b right, heap') ∧
      heap'.totalBytes = heap.totalBytes ∧ (merges b right = false → heap' = heap) ∧
      Held heap' (left ++ mergeNext headerSize b right) := by
  have h := held.header
  cases right with
  | nil =>
    refine ⟨heap, ?_, rfl, fun _ => rfl, held⟩
    simp [coalesceWithNext, h, firstAddr, merges]
  | cons next rest =>
    have heldNext : Held heap ((left ++ [b]) ++ next :: rest) := by simpa using held
    have nextHeader := heldNext.header
    have isNext := held.right_ne_zero next (by simp)
    have adjacency : heap.blocksAreAdjacent b.addr next.addr =
        decide (b.stop headerSize = next.addr) := by
      apply Bool.eq_iff_iff.mpr
      simp only [blocksAreAdjacent, h, beq_iff_eq]
      exact decide_eq_true_iff.symm
    rw [coalesceWithNext]
    simp only [h, firstAddr, nextHeader, adjacency]
    by_cases adjacent : next.free = true ∧ b.stop headerSize = next.addr
    · obtain ⟨nextFree, stop⟩ := adjacent
      rw [if_neg (by simp [isNext, nextFree, stop]), mergeNext, if_pos ⟨nextFree, stop⟩]
      have isMerge : merges b (next :: rest) = true := by simp [merges, nextFree, stop]
      refine ⟨_, Prod.ext isMerge.symm rfl, rfl, fun idle => ?_, held.merged stop nextFree rfl⟩
      rw [isMerge] at idle
      cases idle
    refine ⟨heap, ?_, rfl, fun _ => rfl, ?_⟩
    · have refused : next.addr = 0 ∨ next.free = false ∨
          decide (b.stop headerSize = next.addr) = false := by
        by_cases nextFree : next.free = true
        · exact .inr (.inr (decide_eq_false fun stop => adjacent ⟨nextFree, stop⟩))
        · exact .inr (.inl (eq_false_of_ne_true nextFree))
      rw [if_pos refused]
      have stays : merges b (next :: rest) = false := by
        rw [merges]
        rcases refused with null | used | apart
        · exact (isNext null).elim
        · rw [used, Bool.false_and]
        · rw [apart, Bool.and_false]
      rw [stays]
    · rw [mergeNext, if_neg adjacent]
      exact held

/-! ## Splitting -/

theorem Held.split_machine {wanted : Nat} (fits : wanted + headerSize + heapAlignment < 2 ^ 64) :
    splitBlock (machine 64) heap b.addr wanted =
      splitBlock exact heap b.addr wanted := by
  have bound := held.bound
  have sizeFits : b.size < 2 ^ 64 := by
    simp only [stop, headerSize] at bound
    omega
  have required : (machine 64).add ((machine 64).add wanted headerSize) heapAlignment =
      exact.add (exact.add wanted headerSize) heapAlignment := by
    rw [machine_add (by omega : wanted + headerSize < 2 ^ 64)]
    exact machine_add fits
  simp only [splitBlock, held.header, required]
  split
  · rfl
  next large =>
  simp only [exact] at large
  rw [machine_sub (by omega) sizeFits,
    machine_sub (by simp only [exact]; omega) (by simp only [exact]; omega)]

theorem Held.split (wanted : Nat) :
    (splitBlock exact heap b.addr wanted).totalBytes = heap.totalBytes ∧
    Held (splitBlock exact heap b.addr wanted)
      (left ++ Blocks.split headerSize heapAlignment wanted b ++ right) := by
  have ordered : Ordered headerSize
      (left ++ Blocks.split headerSize heapAlignment wanted b ++ right) :=
    held.ordered.split (by decide)
  have kernel := kernel_of_covered
    ((split_covered heapAlignment wanted b).append_left left right)
    (by simpa using held.kernel : ∀ j ∈ left ++ [b] ++ right, _)
  have h := held.header
  rw [Blocks.split] at ordered kernel ⊢
  simp only [splitBlock, h, exact]
  by_cases small : b.size < wanted + headerSize + heapAlignment
  · rw [if_pos small, if_pos small]
    exact ⟨rfl, by simpa using held⟩
  rw [if_neg small] at ordered kernel
  rw [if_neg small, if_neg small]
  refine ⟨rfl, ?_, ?_, ordered, kernel⟩
  · have := held.head_eq
    cases left <;> exact this
  have bound := held.bound
  have addrFits := (kernel_addr bound).2.2
  have restFits : b.addr + headerSize + wanted < 2 ^ 64 ∧ wanted < 2 ^ 64 ∧
      b.size - wanted - headerSize < 2 ^ 64 := by
    simp only [stop, heapAlignment, kernelBase] at bound small ⊢
    omega
  have restApart {j : Nat} (outside : j + headerSize ≤ b.addr ∨
      b.stop headerSize ≤ j ∨ j = b.addr) :
      Apart (b.addr + headerSize + wanted) j := by
    simp only [Apart, stop] at *
    omega
  have leftOutside {j : Block} (mem : j ∈ left) : j.addr + headerSize ≤ b.addr := by
    have := held.ordered.around.1 j mem
    simp only [stop] at this
    omega
  have rightOutside {j : Block} (mem : j ∈ right) : b.stop headerSize ≤ j.addr :=
    held.ordered.around.2.1 j mem
  have nextApart := firstAddr_of (p := fun next => Apart next b.addr ∧
      Apart next (b.addr + headerSize + wanted)) fun next mem =>
        ⟨apart_comm (held.right_apart next mem),
          apart_comm (restApart (.inr (.inl (rightOutside mem))))⟩
  simp only [append_assoc, cons_append, nil_append]
  refine linked_append.mpr ⟨held.left_linked.congr fun j mem => ?_, ?_, ?_, ?_⟩
  · have apart := apart_comm (held.left_apart j mem)
    simp [blockAt_apart apart, blockAt_linkPrev_apart (held.left_first_apart mem),
      blockAt_writeHeader_apart (restApart (.inl (leftOutside mem)))]
  · have original : blockAt heap.memory b.addr = _ := h
    simp only [blockAt_setField restFits.1, blockAt_setField restFits.2.1]
    rw [blockAt_linkPrev_apart fun ne => (nextApart ne).1,
      blockAt_writeHeader_apart (restApart (.inr (.inr rfl))), original]
    rfl
  · have apart := apart_comm (restApart (.inr (.inr rfl)))
    simp only [blockAt_apart apart]
    rw [blockAt_linkPrev_apart fun ne => (nextApart ne).2,
      blockAt_writeHeader restFits.2.2 addrFits held.first_lt]
  have written : Linked (writeHeader heap.memory (b.addr + headerSize + wanted)
      (b.size - wanted - headerSize) b.addr (firstAddr 0 right)) b.addr right 0 :=
    held.right_linked.congr fun j mem =>
      blockAt_writeHeader_apart (restApart (.inr (.inl (rightOutside mem))))
  have relinked := written.linkPrev held.right_ordered held.right_ne_zero restFits.1
  refine relinked.congr fun j mem => ?_
  simp [blockAt_apart (held.right_apart j mem)]

end

/-! ## Insertion -/

/-- The loop of `insert_block_sorted` stops at the last block below the new one. -/
theorem insertionPoint_spec {first : Block} {new steps : Nat}
    (linked : Linked heap.memory old (first :: (left ++ right)) 0)
    (below : ∀ b ∈ left, b.addr ≠ 0 ∧ b.addr < new)
    (above : ∀ b ∈ right, new < b.addr) (enough : left.length ≤ steps) :
    heap.insertionPoint new steps first.addr = lastAddr first.addr left := by
  induction left generalizing old first steps with
  | nil =>
    cases steps with
    | zero => rfl
    | succ steps =>
      have h : heap.block first.addr = _ := linked.1
      simp only [insertionPoint, h]
      refine if_neg fun inside => ?_
      cases right with
      | nil => exact inside.1 rfl
      | cons next rest => exact Nat.lt_asymm inside.2 (above next (by simp))
  | cons next rest ih =>
    cases steps with
    | zero => simp at enough
    | succ steps =>
      have h : heap.block first.addr = _ := linked.1
      simp only [insertionPoint, h, cons_append, firstAddr]
      rw [if_pos (below next (by simp))]
      exact ih linked.2 (fun b mem => below b (by simp [mem]))
        (Nat.le_of_succ_le_succ enough)

/-- A block that lies between two parts of the list. -/
structure Fits (left : List Block) (block : Block) (right : List Block) : Prop where
  below : ∀ other ∈ left, other.stop headerSize ≤ block.addr
  above : ∀ other ∈ right, block.stop headerSize ≤ other.addr
  bound : kernelBase ≤ block.addr ∧ block.stop headerSize ≤ 2 ^ 64

section Insert

variable (h : heap.block b.addr =
  { magic := heapMagic, size := b.size, free := b.free, prev := 0, next := 0 })

section Between

variable (held : Held heap (left ++ right)) (between : Fits left b right)

include held between

theorem Fits.ordered : Ordered headerSize (left ++ b :: right) := by
  obtain ⟨leftOrdered, rightOrdered, cross⟩ := pairwise_append.mp held.ordered
  refine pairwise_append.mpr ⟨leftOrdered, pairwise_cons.mpr ⟨between.above, rightOrdered⟩, ?_⟩
  intro first firstMem second secondMem
  rcases mem_cons.mp secondMem with rfl | inRight
  · exact between.below first firstMem
  · exact cross first firstMem second inRight

theorem Fits.kernel : ∀ j ∈ left ++ b :: right,
    kernelBase ≤ j.addr ∧ j.stop headerSize ≤ 2 ^ 64 :=
  forall_mem_insert held.kernel between.bound

omit held in
theorem Fits.right_apart : ∀ j ∈ right, Apart b.addr j.addr :=
  fun j mem => apart_of_stop_le (between.above j mem)

omit held in
theorem Fits.left_apart : ∀ j ∈ left, Apart b.addr j.addr :=
  fun j mem => apart_comm (apart_of_stop_le (between.below j mem))

omit held in
theorem Fits.first_apart : firstAddr 0 right ≠ 0 → Apart (firstAddr 0 right) b.addr :=
  firstAddr_of (p := fun first => Apart first b.addr) fun first mem =>
    apart_comm (between.right_apart first mem)

include h in
theorem Fits.linked {prev : Nat} (prevFits : prev < 2 ^ 64) :
    Linked (linkPrev (setNext (setPrev heap.memory b.addr prev) b.addr
      (firstAddr 0 right)) (firstAddr 0 right) b.addr) prev (b :: right) 0 := by
  have original : blockAt heap.memory b.addr = _ := h
  have firstFits : firstAddr 0 right < 2 ^ 64 :=
    firstAddr_lt fun j mem => held.kernel j (by simp [mem])
  have rightNonzero : ∀ j ∈ right, j.addr ≠ 0 :=
    fun j mem => held.addr_ne_zero j (by simp [mem])
  obtain ⟨-, rightOrdered, -⟩ := pairwise_append.mp held.ordered
  refine ⟨?_, ?_⟩
  · rw [blockAt_linkPrev_apart between.first_apart]
    simp only [blockAt_setField firstFits, blockAt_setField prevFits, original]
  have untouched : Linked (setNext (setPrev heap.memory b.addr prev) b.addr
      (firstAddr 0 right)) (lastAddr 0 left) right 0 := by
    refine (linked_append.mp held.linked).2.congr fun j mem => ?_
    simp only [blockAt_apart (between.right_apart j mem)]
  exact untouched.linkPrev rightOrdered rightNonzero (kernel_addr between.bound).2.2

end Between

include h

theorem Held.insert_first (held : Held heap right) (between : Fits [] b right) :
    (heap.insertBlockSorted b.addr).totalBytes = heap.totalBytes ∧
      Held (heap.insertBlockSorted b.addr) (b :: right) := by
  have first : heap.head = 0 ∨ b.addr < heap.head := by
    rw [held.head_eq]
    cases right with
    | nil => exact .inl rfl
    | cons next rest =>
      have new := between.above next (by simp)
      refine .inr ?_
      simp only [firstAddr, stop, headerSize] at *
      omega
  have linked := @Fits.linked [] right b heap h held between 0 (Nat.two_pow_pos 64)
  rw [insertBlockSorted, if_pos first, held.head_eq]
  exact ⟨rfl, rfl, linked, between.ordered held, between.kernel held⟩

theorem Held.insert_after {last : Block} (held : Held heap (left ++ last :: right))
    (between : Fits (left ++ [last]) b right) :
    (heap.insertBlockSorted b.addr).totalBytes = heap.totalBytes ∧
      Held (heap.insertBlockSorted b.addr) (left ++ last :: b :: right) := by
  have held' : Held heap ((left ++ [last]) ++ right) := by simpa using held
  have isLast := lastAddr_concat 0 left last
  have lastKernel := kernel_addr held.bound
  obtain ⟨first, rest, shape⟩ : ∃ first rest, left ++ [last] = first :: rest := by
    cases left with
    | nil => exact ⟨last, [], rfl⟩
    | cons first rest => exact ⟨first, rest ++ [last], rfl⟩
  have head : heap.head = first.addr := by
    rw [held'.head_eq, shape]
    rfl
  have below : ∀ j ∈ first :: rest, j.stop headerSize ≤ b.addr := by
    rw [← shape]
    exact between.below
  have nonzero : ∀ j ∈ first :: rest, j.addr ≠ 0 := by
    rw [← shape]
    exact fun j mem => held'.addr_ne_zero j (mem_append_left _ mem)
  have notFirst : ¬ (heap.head = 0 ∨ b.addr < heap.head) := by
    have firstBelow := below first (by simp)
    have firstNonzero := nonzero first (by simp)
    simp only [stop] at *
    omega
  have leftOrdered := (pairwise_append.mp held'.ordered).1
  have current : heap.insertionPoint b.addr b.addr heap.head = last.addr := by
    rw [← isLast, shape, head]
    refine insertionPoint_spec (by simpa [shape] using held'.linked) (fun j mem => ?_)
      (fun j mem => ?_) ?_
    · have under := below j (by simp [mem])
      refine ⟨nonzero j (by simp [mem]), ?_⟩
      simp only [stop, headerSize] at under
      omega
    · have higher := between.above j mem
      simp only [stop, headerSize] at higher
      omega
    have bytes := Ordered.total_le (by rwa [shape] at leftOrdered)
      (fun j mem => ⟨Nat.zero_le _, below j mem⟩) (Nat.zero_le _)
    have count := length_le_total (by decide : 0 < headerSize) (first :: rest)
    simp only [length_cons] at count
    omega
  rw [insertBlockSorted, if_neg notFirst]
  simp only [current, held.header]
  refine ⟨trivial, ?_, ?_, ?_, ?_⟩
  · rw [head]
    cases left with
    | nil => cases shape; rfl
    | cons _ _ => cases shape; rfl
  · have shifted : left ++ last :: b :: right = (left ++ [last]) ++ b :: right := by simp
    rw [shifted]
    refine linked_append.mpr ⟨?_, ?_⟩
    · have untouched : Linked (linkPrev (setNext (setPrev heap.memory b.addr last.addr)
          b.addr (firstAddr 0 right)) (firstAddr 0 right) b.addr) 0 (left ++ [last])
          (firstAddr 0 right) := by
        refine (linked_append.mp held'.linked).1.congr fun j mem => ?_
        have firstApart := firstAddr_of (p := fun next => Apart next j.addr) fun next nextMem =>
            apart_comm (apart_of_stop_le
              ((pairwise_append.mp held'.ordered).2.2 j mem next nextMem))
        simp [blockAt_linkPrev_apart firstApart, blockAt_apart (between.left_apart j mem)]
      have relinked := untouched.setNext leftOrdered (by simp) (kernel_addr between.bound).2.2
      rwa [isLast] at relinked
    rw [isLast]
    refine (between.linked h held' lastKernel.2.2).congr fun j mem => ?_
    have apart : Apart last.addr j.addr := by
      rcases mem_cons.mp mem with rfl | inRight
      · exact apart_of_stop_le (between.below last (by simp))
      · exact held.right_apart j inRight
    simp [blockAt_apart apart]
  · simpa using between.ordered held'
  · simpa using between.kernel held'

/-- `insert_block_sorted` puts a block between the blocks below and above it. -/
theorem Held.insert (held : Held heap (left ++ right)) (between : Fits left b right) :
    (heap.insertBlockSorted b.addr).totalBytes = heap.totalBytes ∧
      Held (heap.insertBlockSorted b.addr) (left ++ b :: right) := by
  rcases eq_nil_or_concat' left with rfl | ⟨front, last, rfl⟩
  · exact Held.insert_first h held between
  have inserted := Held.insert_after h (by simpa using held) between
  simpa using inserted

end Insert

end SrvrOS.Memory
