import SrvrOS.Memory.HeapInvariant

/-!
# The heap as its callers see it

The calls of the kernel, with the frame allocator's choices and the writes of callers into
their payloads, drive the heap from `heap_init` on. Beside the heap the machine keeps the
live pointers with the sizes they were requested for.
-/

namespace SrvrOS.Memory

open Lib Blocks List Word Heap Block

variable {b : Block} {left right : List Block} {size : Nat}

/-- A call into the heap, or a write of a caller into a payload. -/
inductive HeapRequest where
  | kmalloc (size : Nat) (proposal : Option Nat)
  | kcalloc (count size : Nat) (proposal : Option Nat)
  | kfree (pointer : Nat)
  | write (pointer offset : Nat) (data : Bytes)

/-- A live allocation. -/
structure Live where
  pointer : Nat
  size : Nat
deriving DecidableEq, Repr

/-- The heap, the memory it was granted and the allocations its callers hold. -/
structure HeapWorld where
  heap : Heap
  granted : List Chunk
  live : List Live

namespace HeapWorld

def allocated (world : HeapWorld) (size : Nat) :
    Option (Nat × Heap × List Chunk) → Option Nat × Option HeapWorld
  | none => (none, none)
  | some (pointer, heap, granted) =>
    (some pointer,
      some { heap := heap, granted := granted,
             live := if pointer = 0 then world.live else ⟨pointer, size⟩ :: world.live })

def released (world : HeapWorld) (heap : Heap) (pointer : Nat) : HeapWorld :=
  { world with
    heap := heap
    live := world.live.filter fun entry => decide (entry.pointer ≠ pointer) }

def written (world : HeapWorld) (start : Nat) (data : Bytes) : HeapWorld :=
  { world with heap := { world.heap with memory := world.heap.memory.write start data } }

/-- Answer one call. Callers free live pointers and write inside live payloads only: other
requests are not made. -/
def step (arith : Word.Arith) : Option HeapWorld → HeapRequest → Option Nat × Option HeapWorld
  | none, _ => (none, none)
  | some world, .kmalloc size proposal =>
    world.allocated size (world.heap.kmalloc arith world.granted proposal size)
  | some world, .kcalloc count size proposal =>
    world.allocated (count * size) (world.heap.kcalloc arith world.granted proposal count size)
  | some world, .kfree pointer =>
    if pointer = 0 ∨ ∃ entry ∈ world.live, entry.pointer = pointer then
      match world.heap.kfree arith pointer with
      | none => (none, none)
      | some heap => (some 0, some (world.released heap pointer))
    else (some 0, some world)
  | some world, .write pointer offset data =>
    if ∃ entry ∈ world.live, entry.pointer = pointer ∧ offset + data.length ≤ entry.size then
      (some 0, some (world.written (pointer + offset) data))
    else (some 0, some world)

/-- The state after `heap_init`, whatever memory held before. -/
def boot (arith : Word.Arith) (memory : Store UInt8) (proposal : Option Nat) :
    Option HeapWorld :=
  (heapInit arith { memory := memory, head := 0, totalBytes := 0 } [] proposal).map
    fun started => { heap := started.1, granted := started.2, live := [] }

/-- The heap invariant, and a used block for every live allocation. -/
structure Good (world : HeapWorld) (blocks : List Block) : Prop where
  inv : Inv world.heap world.granted blocks
  held : ∀ entry ∈ world.live, ∃ block ∈ used blocks,
    entry.pointer = block.addr + headerSize ∧ entry.size ≤ block.size
  distinct : world.live.Pairwise fun first second => first.pointer ≠ second.pointer

variable {w : HeapWorld} {bs : List Block} {j : Block}

theorem mem_used : b ∈ used bs ↔ b ∈ bs ∧ b.free = false := by
  simp [used]

theorem used_split_mem (mem : j ∈ used (left ++ b :: right))
    (different : j.addr ≠ b.addr) : j ∈ used left ++ used right := by
  rw [used_append] at mem
  rcases mem_append.mp mem with inLeft | inRest
  · exact mem_append_left _ inLeft
  obtain ⟨inBlocks, isUsed⟩ := mem_used.mp inRest
  rcases mem_cons.mp inBlocks with rfl | inRight
  · exact (different rfl).elim
  · exact mem_append_right _ (mem_used.mpr ⟨inRight, isUsed⟩)

theorem ne_of_mem_parts (ordered : Ordered headerSize (left ++ b :: right))
    (mem : j ∈ used left ++ used right) : j.addr ≠ b.addr := by
  rcases mem_append.mp mem with inLeft | inRight
  · have before := ordered.around.1 j (mem_used.mp inLeft).1
    simp only [stop, headerSize] at before
    omega
  have after := ordered.around.2.1 j (mem_used.mp inRight).1
  simp only [stop, headerSize] at after
  omega

theorem Good.take (good : Good w bs) {heap : Heap} {got : List Chunk} {taken : Block}
    (r : Taken heap got bs taken.addr size left taken right) :
    Good { heap := heap, granted := got,
           live := ⟨taken.addr + headerSize, size⟩ :: w.live } (left ++ taken :: right) := by
  have stays {b : Block} (mem : b ∈ used bs) :
      b ∈ used (left ++ taken :: right) ∧ b.addr ≠ taken.addr := by
    rw [r.used_eq] at mem
    refine ⟨?_, ne_of_mem_parts r.inv.ordered mem⟩
    rw [used_append]
    rcases mem_append.mp mem with inLeft | inRight
    · exact mem_append_left _ inLeft
    refine mem_append_right _ (mem_used.mpr ?_)
    exact ⟨mem_cons_of_mem _ (mem_used.mp inRight).1, (mem_used.mp inRight).2⟩
  refine ⟨r.inv, fun e mem => ?_, pairwise_cons.mpr ⟨fun e mem => ?_, good.distinct⟩⟩
  · rcases mem_cons.mp mem with rfl | old
    · exact ⟨taken, mem_used.mpr ⟨by simp, r.isUsed⟩, rfl, r.large⟩
    obtain ⟨b, inUsed, eq, large⟩ := good.held e old
    exact ⟨b, (stays inUsed).1, eq, large⟩
  obtain ⟨b, inUsed, eq, -⟩ := good.held e mem
  have different := (stays inUsed).2
  simp only [eq]
  omega

section

variable (good : Good w bs)

include good

/-- An allocation that fails without an effect or takes a block keeps the world good. -/
theorem Good.allocated {pointer : Nat} {heap : Heap} {got : List Chunk}
    (r : pointer = 0 ∧ heap = w.heap ∧ got = w.granted ∨
      ∃ left taken right, pointer = taken.addr + headerSize ∧
        Taken heap got bs taken.addr size left taken right) :
    ∃ w' bs', w.allocated size (some (pointer, heap, got)) =
        (some pointer, some w') ∧ Good w' bs' := by
  rcases r with ⟨rfl, rfl, rfl⟩ | ⟨left, taken, right, rfl, r⟩
  · exact ⟨w, bs, by simp [HeapWorld.allocated], good⟩
  have positive : taken.addr + headerSize ≠ 0 := by simp only [headerSize]; omega
  refine ⟨_, _, ?_, good.take r⟩
  simp only [HeapWorld.allocated, if_neg positive]

theorem Good.block_of {e : Live} (mem : e ∈ w.live) :
    ∃ left b right, bs = left ++ b :: right ∧ b.free = false ∧
      e.pointer = b.addr + headerSize ∧ e.size ≤ b.size := by
  obtain ⟨b, inUsed, eq, large⟩ := good.held e mem
  obtain ⟨inBlocks, isUsed⟩ := mem_used.mp inUsed
  obtain ⟨left, right, shape⟩ := append_of_mem inBlocks
  exact ⟨left, b, right, shape, isUsed, eq, large⟩

/-- Every call succeeds, computes the same with both readings and keeps the world good. -/
theorem Good.step (request : HeapRequest) :
    ∃ answer w' bs', (∀ arith, Reading arith →
        step arith (some w) request = (some answer, some w')) ∧
      Good w' bs' := by
  cases request with
  | kmalloc size proposal =>
    obtain ⟨pointer, heap, got, computed, -, r⟩ := good.inv.kmalloc proposal size
    obtain ⟨w', bs', after, good'⟩ := good.allocated (r.imp_right
      fun ⟨left, taken, right, eq, _, taking⟩ => ⟨left, taken, right, eq, taking⟩)
    refine ⟨pointer, w', bs', fun arith reading => ?_, good'⟩
    rw [HeapWorld.step, computed arith reading, after]
  | kcalloc count size proposal =>
    obtain ⟨pointer, heap, got, computed, r⟩ := good.inv.kcalloc
    obtain ⟨w', bs', after, good'⟩ := good.allocated r
    refine ⟨pointer, w', bs', fun arith reading => ?_, good'⟩
    rw [HeapWorld.step, computed arith reading, after]
  | kfree pointer =>
    by_cases live : ∃ e ∈ w.live, e.pointer = pointer
    · obtain ⟨e, mem, rfl⟩ := live
      obtain ⟨left, b, right, rfl, isUsed, eq, -⟩ := good.block_of mem
      obtain ⟨heap, bs', computed, inv, usedEq⟩ := good.inv.kfree isUsed
      refine ⟨0, w.released heap e.pointer, bs', fun arith reading => ?_, inv,
        fun j otherMem => ?_, good.distinct.filter _⟩
      · rw [HeapWorld.step, if_pos (.inr ⟨e, mem, rfl⟩), eq, computed arith reading]
      obtain ⟨otherLive, different⟩ := mem_filter.mp otherMem
      obtain ⟨otherBlock, inUsed, otherSame, large⟩ := good.held j otherLive
      refine ⟨otherBlock, ?_, otherSame, large⟩
      rw [usedEq]
      refine used_split_mem inUsed fun sameAddr => ?_
      exact of_decide_eq_true different (by rw [otherSame, sameAddr, eq])
    by_cases null : pointer = 0
    · subst null
      refine ⟨0, w.released w.heap 0, bs, fun arith reading => ?_, good.inv,
        fun e mem => ?_, good.distinct.filter _⟩
      · simp [HeapWorld.step, kfree]
      · exact good.held e (mem_filter.mp mem).1
    · refine ⟨0, w, bs, fun arith reading => ?_, good⟩
      rw [HeapWorld.step, if_neg fun either => either.elim null live]
  | write pointer offset data =>
    by_cases live : ∃ e ∈ w.live, e.pointer = pointer ∧
        offset + data.length ≤ e.size
    · obtain ⟨e, mem, eq, inside⟩ := live
      obtain ⟨left, b, right, rfl, -, payload, large⟩ := good.block_of mem
      refine ⟨0, w.written (pointer + offset) data, left ++ b :: right,
        fun arith reading => ?_, good.inv.writePayload ?_ ?_, good.held, good.distinct⟩
      · rw [HeapWorld.step, if_pos ⟨e, mem, eq, inside⟩]
      · omega
      · simp only [stop]
        omega
    · refine ⟨0, w, bs, fun arith reading => ?_, good⟩
      rw [HeapWorld.step, if_neg live]

theorem Good.run {arith : Word.Arith} (reading : Reading arith) {requests : List HeapRequest} :
    ∃ w' bs', (Lib.run (HeapWorld.step arith) (some w) requests).2 = some w' ∧
      Good w' bs' := by
  refine run_invariant (HeapWorld.step arith)
    (fun state => ∃ w bs, state = some w ∧ Good w bs) ?_
    ⟨w, bs, rfl, good⟩ requests
  rintro _ request ⟨current, currentBlocks, rfl, currentGood⟩
  obtain ⟨answer, next, nextBlocks, computed, nextGood⟩ := currentGood.step request
  exact ⟨next, nextBlocks, by rw [computed arith reading], nextGood⟩

end

variable {proposal : Option Nat}

theorem boot_good {arith : Word.Arith} (reading : Reading arith) {memory : Store UInt8}
    (booted : boot arith memory proposal = some w) : ∃ bs, Good w bs := by
  have empty : Inv { memory := memory, head := 0, totalBytes := 0 } [] [] :=
    ⟨⟨⟨rfl, trivial, List.Pairwise.nil, by simp⟩, rfl, by simp, by simp⟩, isChain_nil⟩
  have payload : arith.sub heapMinChunkSize headerSize = 16336 := by
    rcases reading with rfl | rfl <;> rfl
  simp only [boot, heapInit, ne_eq, not_true_eq_false, if_false, payload] at booted
  rcases empty.extendHeap proposal (by decide : 16336 + headerSize + frameSize ≤ 2 ^ 64) with
    failed | ⟨heap, got, left, b, right, extended, inv, -, -, -⟩
  · rw [failed arith reading] at booted
    simp at booted
  rw [extended arith reading] at booted
  have nonzero := inv.addr_ne_zero b (by simp)
  simp only [if_neg nonzero, Option.map_some, Option.some.injEq] at booted
  subst booted
  exact ⟨_, inv, by simp, List.Pairwise.nil⟩

/-! ## What callers can rely on -/

/-- Adjacent blocks of a coalesced list are not both free, wherever they stand in it. -/
theorem Good.not_both_free (good : Good w bs) {first second : Block} (firstMem : first ∈ bs)
    (secondMem : second ∈ bs) (adjacent : first.stop headerSize = second.addr) :
    ¬ (first.free = true ∧ second.free = true) := by
  rintro ⟨firstFree, secondFree⟩
  obtain ⟨left, right, rfl⟩ := append_of_mem firstMem
  have around := good.inv.ordered.around
  have inRight : second ∈ right := by
    simp only [mem_append, mem_cons] at secondMem
    rcases secondMem with inLeft | rfl | inRight
    · have before := around.1 second inLeft
      simp only [stop, headerSize] at *
      omega
    · simp only [stop, headerSize] at adjacent
      omega
    · exact inRight
  obtain ⟨-, tail, -⟩ := isChain_append.mp good.inv.coalesced
  obtain ⟨head, -⟩ := isChain_cons.mp tail
  cases right with
  | nil => cases inRight
  | cons next rest =>
    have isNext : second = next := by
      rcases mem_cons.mp inRight with eq | later
      · exact eq
      have after := around.2.1 next (by simp)
      have ordered := (pairwise_append.mp good.inv.ordered).2.1
      have before := (pairwise_cons.mp (pairwise_cons.mp ordered).2).1 second later
      simp only [stop, headerSize] at *
      omega
    rw [isNext] at secondFree adjacent
    have isUsed := head next rfl adjacent firstFree
    rw [isUsed] at secondFree
    cases secondFree

theorem Good.disjoint (good : Good w bs) :
    w.live.Pairwise fun first second =>
      first.pointer + first.size ≤ second.pointer ∨
        second.pointer + second.size ≤ first.pointer := by
  refine good.distinct.imp_of_mem fun {first second} firstMem secondMem different => ?_
  obtain ⟨left, b, right, rfl, -, eq, large⟩ := good.block_of firstMem
  obtain ⟨j, inUsed, otherSame, otherLarge⟩ := good.held second secondMem
  have otherAddr : j.addr ≠ b.addr := by
    intro sameAddr
    exact different (by rw [eq, otherSame, sameAddr])
  have around := good.inv.ordered.around
  rcases mem_append.mp (used_split_mem inUsed otherAddr) with inLeft | inRight
  · have before := around.1 j (mem_used.mp inLeft).1
    simp only [stop] at before
    omega
  have after := around.2.1 j (mem_used.mp inRight).1
  simp only [stop] at after
  omega

/-- The lowest free block that is large enough is the one `kmalloc` returns. -/
theorem Good.kmalloc_first_fit (good : Good w bs) (positive : 0 < size)
    (lowest : bs.find? (fits size) = some b) :
    ∃ heap got, w.heap.kmalloc (machine 64) w.granted proposal size =
      some (b.addr + headerSize, heap, got) := by
  obtain ⟨pointer, heap, got, computed, first, -⟩ := good.inv.kmalloc proposal size
  have mem := mem_of_find?_eq_some lowest
  have address : firstFit size bs = b.addr := by
    rw [firstFit, lowest]
    rfl
  have nonzero : firstFit size bs ≠ 0 := by
    rw [address]
    exact good.inv.addr_ne_zero b mem
  have limited : size ≤ sizeLimit := by
    have fitting := find?_some lowest
    simp only [fits, Bool.and_eq_true, decide_eq_true_eq] at fitting
    have bound := good.inv.kernel b mem
    simp only [sizeLimit, uint64Max, kernelBase, stop, frameSize, heapAlignment] at *
    omega
  refine ⟨heap, got, ?_⟩
  rw [computed _ (.inl rfl), first positive limited nonzero, address]

/-- The blocks lie in the kernel half, in memory that the heap was granted. -/
theorem heap_granted {memory : Store UInt8}
    (start : { w // boot (machine 64) memory proposal = some w }) (requests : List HeapRequest) :
    ∃ world blocks, (Lib.run (step (machine 64)) (some start.1) requests).2 = some world ∧
      Held world.heap blocks ∧ ∀ b ∈ blocks, ∀ a, b.Has headerSize a → Owned world.granted a := by
  obtain ⟨_, booted⟩ := boot_good (.inl rfl) start.2
  obtain ⟨world, blocks, reached, good⟩ := booted.run (.inl rfl)
  exact ⟨world, blocks, reached, good.inv.toHeld, good.inv.owned⟩

/-- A frame allocator that starts at the second megabyte of the direct map. -/
def sampleProposal : Option Nat := some 0xffff800000100000

theorem sampleProposal_boots :
    (boot (machine 64) (fun _ => 0) sampleProposal).isSome = true := by decide +kernel

theorem heap_granted_sample :
    ∃ world blocks, (Lib.run (step (machine 64)) (boot (machine 64) (fun _ => 0) sampleProposal)
        [.kmalloc 100 none]).2 = some world ∧
      Held world.heap blocks ∧ ∀ b ∈ blocks, ∀ a, b.Has headerSize a → Owned world.granted a := by
  obtain ⟨start, booted⟩ := Option.isSome_iff_exists.mp sampleProposal_boots
  rw [booted]
  exact heap_granted ⟨start, booted⟩ [.kmalloc 100 none]

/-- From `heap_init` on, whatever the callers do, no call halts; the list is ordered, linked both
ways, coalesced and accounted for; live payloads are aligned, large enough and disjoint; the lowest
block that fits is taken; and no size computation of a later call overflows. -/
theorem heap_specification (memory : Store UInt8) (proposal : Option Nat) {start : HeapWorld}
    (booted : boot (machine 64) memory proposal = some start) (requests : List HeapRequest) :
    ∃ world blocks,
      (Lib.run (step (machine 64)) (some start) requests).2 = some world ∧
      (world.heap.head = firstAddr 0 blocks ∧ Linked world.heap.memory 0 blocks 0) ∧
      Ordered headerSize blocks ∧
      (∀ first ∈ blocks, ∀ second ∈ blocks, first.stop headerSize = second.addr →
        ¬ (first.free = true ∧ second.free = true)) ∧
      world.heap.totalBytes = total headerSize blocks ∧
      (∀ entry ∈ world.live, entry.pointer % heapAlignment = 0 ∧ ∃ block ∈ blocks,
        block.free = false ∧ entry.pointer = block.addr + headerSize ∧ entry.size ≤ block.size) ∧
      (world.live.Pairwise fun first second => first.pointer + first.size ≤ second.pointer ∨
        second.pointer + second.size ≤ first.pointer) ∧
      (∀ size block proposal, 0 < size → blocks.find? (fits size) = some block →
        ∃ heap granted, world.heap.kmalloc (machine 64) world.granted proposal size =
          some (block.addr + headerSize, heap, granted)) ∧
      (∀ request, step (machine 64) (some world) request =
        step exact (some world) request) := by
  obtain ⟨blocks₀, good₀⟩ := boot_good (.inl rfl) booted
  obtain ⟨world, blocks, reached, good⟩ := good₀.run (.inl rfl)
  refine ⟨world, blocks, reached, ⟨good.inv.head_eq, good.inv.linked⟩, good.inv.ordered,
    fun first firstMem second secondMem => good.not_both_free firstMem secondMem,
    good.inv.accounted, fun entry mem => ?_, good.disjoint,
    fun size block proposal positive lowest => good.kmalloc_first_fit positive lowest,
    fun request => ?_⟩
  · obtain ⟨left, block, right, rfl, isUsed, same, large⟩ := good.block_of mem
    have aligned := (good.inv.aligned block (by simp)).1
    refine ⟨?_, block, by simp, isUsed, same, large⟩
    simp only [heapAlignment, headerSize] at *
    omega
  · obtain ⟨answer, next, nextBlocks, computed, -⟩ := good.step request
    rw [computed _ (.inl rfl), computed _ (.inr rfl)]

theorem heap_specification_sample :
    ∃ start, boot (machine 64) (fun _ => 0) sampleProposal = some start ∧
      ∃ world blocks,
        (Lib.run (step (machine 64)) (some start)
          [.kmalloc 100 none, .kcalloc 3 40 none, .kfree 0xffff800000100030]).2 = some world ∧
        world.heap.totalBytes = total headerSize blocks := by
  obtain ⟨start, booted⟩ := Option.isSome_iff_exists.mp sampleProposal_boots
  obtain ⟨world, blocks, reached, -, -, -, accounted, -⟩ :=
    heap_specification (fun _ => 0) sampleProposal booted
      [.kmalloc 100 none, .kcalloc 3 40 none, .kfree 0xffff800000100030]
  exact ⟨start, booted, world, blocks, reached, accounted⟩

end HeapWorld

end SrvrOS.Memory
