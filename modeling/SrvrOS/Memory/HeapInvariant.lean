import SrvrOS.Memory.HeapLayout

/-!
# The heap invariant

`Sound` holds at every point of a heap operation: the list is in memory, accounted for, aligned and
made of granted memory. `Inv` adds that no two adjacent blocks are free, which holds between
operations. Both readings of the unsigned operators are covered.
-/

namespace SrvrOS.Memory

open Lib Blocks List Word Heap Memory Block

/-- The readings of the unsigned operators that have to agree. -/
def Reading (arith : Word.Arith) : Prop := arith = machine 64 ∨ arith = exact

/-- An address of granted memory. -/
def Owned (granted : List Chunk) (address : Nat) : Prop :=
  ∃ chunk ∈ granted, chunk.start ≤ address ∧ address < chunk.start + chunk.length

/-- Headers and payloads are aligned. -/
def Aligned (block : Block) : Prop :=
  block.addr % heapAlignment = 0 ∧ block.size % heapAlignment = 0

/-- What holds throughout an operation. -/
structure Sound (heap : Heap) (granted : List Chunk) (blocks : List Block) : Prop
    extends Held heap blocks where
  accounted : heap.totalBytes = total headerSize blocks
  aligned : ∀ block ∈ blocks, Aligned block
  owned : ∀ block ∈ blocks, ∀ address, block.Has headerSize address → Owned granted address

/-- What holds between operations. -/
structure Inv (heap : Heap) (granted : List Chunk) (blocks : List Block) : Prop
    extends Sound heap granted blocks where
  coalesced : Coalesced headerSize blocks

variable {heap : Heap} {got : List Chunk} {left right bs : List Block} {b : Block}

theorem owned_of_covered {inner outer : List Block} (covered : Covered headerSize inner outer)
    (owned : ∀ b ∈ outer, ∀ a, b.Has headerSize a → Owned got a) :
    ∀ b ∈ inner, ∀ a, b.Has headerSize a → Owned got a := by
  intro b mem a has
  obtain ⟨j, otherMem, otherHas⟩ := covered b mem a has
  exact owned j otherMem a otherHas

/-! ## The steps of an operation -/

theorem aligned_mergeNext (aligned : ∀ j ∈ b :: right, Aligned j) :
    ∀ j ∈ mergeNext headerSize b right, Aligned j := by
  cases right with
  | nil => exact aligned
  | cons next rest =>
    intro j mem
    rw [mergeNext] at mem
    split at mem
    · have here := aligned b (by simp)
      have there := aligned next (by simp)
      rcases mem_cons.mp mem with rfl | inRest
      · simp only [Aligned, headerSize, heapAlignment] at *
        omega
      · exact aligned j (by simp [inRest])
    · exact aligned j mem

section

variable (sound : Sound heap got (left ++ b :: right))

include sound

theorem Sound.coalesce :
    ∃ heap', (∀ arith, Reading arith →
        coalesceWithNext arith heap b.addr = (merges b right, heap')) ∧
      (merges b right = false → heap' = heap) ∧
      Sound heap' got (left ++ mergeNext headerSize b right) := by
  obtain ⟨heap', computed, totalBytes, idle, held⟩ := sound.toHeld.coalesce
  have covered : Covered headerSize (left ++ mergeNext headerSize b right ++ [])
      (left ++ b :: right ++ []) :=
    (mergeNext_covered b right).append_left left []
  simp only [append_nil] at covered
  refine ⟨heap', fun arith reading => ?_, idle, held, ?_, fun j mem => ?_,
    owned_of_covered covered sound.owned⟩
  · rcases reading with rfl | rfl
    · rw [sound.toHeld.coalesce_machine, computed]
    · exact computed
  · rw [totalBytes, sound.accounted, total_append, total_append, total_mergeNext]
  rcases mem_append.mp mem with inLeft | inRest
  · exact sound.aligned j (by simp [inLeft])
  exact aligned_mergeNext (fun j mem => sound.aligned j (by
    simp only [mem_append]; exact .inr mem)) j inRest

theorem Sound.split {wanted : Nat}
    (fits : wanted + headerSize + heapAlignment < 2 ^ 64) (multiple : wanted % heapAlignment = 0) :
    ∃ heap', (∀ arith, Reading arith → splitBlock arith heap b.addr wanted = heap') ∧
      Sound heap' got
        (left ++ Blocks.split headerSize heapAlignment wanted b ++ right) := by
  obtain ⟨totalBytes, held⟩ := sound.toHeld.split wanted
  have covered : Covered headerSize
      (left ++ Blocks.split headerSize heapAlignment wanted b ++ right)
      (left ++ [b] ++ right) :=
    (split_covered heapAlignment wanted b).append_left left right
  refine ⟨_, fun arith reading => ?_, held, ?_, fun j mem => ?_,
    owned_of_covered covered (by simpa using sound.owned)⟩
  · rcases reading with rfl | rfl
    · exact sound.toHeld.split_machine fits
    · rfl
  · have parts : left ++ b :: right = left ++ [b] ++ right := by simp
    rw [totalBytes, sound.accounted, parts, total_append, total_append, total_append,
      total_append, total_split]
  have here := sound.aligned b (by simp)
  simp only [mem_append] at mem
  rcases mem with (inLeft | inSplit) | inRight
  · exact sound.aligned j (by simp [inLeft])
  · rw [Blocks.split] at inSplit
    split at inSplit
    · rw [mem_singleton.mp inSplit]
      exact here
    simp only [mem_cons, not_mem_nil, or_false] at inSplit
    rcases inSplit with rfl | rfl <;>
      simp only [Aligned, headerSize, heapAlignment] at * <;> omega
  · exact sound.aligned j (by simp [inRight])

theorem Sound.setFree (free : Bool) :
    Sound { heap with memory := setFree heap.memory b.addr free } got
      (left ++ { b with free := free } :: right) := by
  refine ⟨sound.toHeld.setFree, ?_,
    forall_mem_replace sound.aligned (sound.aligned b (by simp)),
    forall_mem_replace sound.owned (sound.owned b (by simp))⟩
  have accounted := sound.accounted
  rw [total_append] at accounted ⊢
  exact accounted

end

/-! ## Extending the heap -/

theorem alignUpU64_machine {value alignment : Nat} (pos : 0 < alignment)
    (inRange : value + alignment ≤ 2 ^ 64) :
    alignUpU64 (machine 64) value alignment =
      alignUpU64 exact value alignment := by
  rw [alignUpU64, alignUpU64, machine_add_sub_one pos inRange]

variable {p start needed : Nat} {new : Block}

theorem chunkSize_machine (small : p + headerSize + frameSize ≤ 2 ^ 64) :
    chunkSize (machine 64) p = chunkSize exact p := by
  have pos : 0 < frameSize := by decide
  have aligned : alignUpU64 (machine 64) (exact.add p headerSize) frameSize =
      alignUpU64 exact (exact.add p headerSize) frameSize :=
    alignUpU64_machine pos small
  rw [chunkSize, chunkSize, machine_add (by omega), aligned]

theorem chunkSize_exact (small : p + headerSize + frameSize ≤ 2 ^ 64) :
    p + headerSize ≤ chunkSize exact p ∧
      heapMinChunkSize ≤ chunkSize exact p ∧
      chunkSize exact p % frameSize = 0 ∧
      chunkSize exact p < 2 ^ 64 := by
  have size : chunkSize exact p =
      if (p + 48 + 4096 - 1) / 4096 * 4096 < 16384 then 16384
      else (p + 48 + 4096 - 1) / 4096 * 4096 := rfl
  rw [size]
  simp only [headerSize, frameSize, heapMinChunkSize] at *
  by_cases minimum : (p + 48 + 4096 - 1) / 4096 * 4096 < 16384
  · rw [if_pos minimum]
    omega
  · rw [if_neg minimum]
    omega

theorem Sound.chunk_apart (sound : Sound heap got bs) {chunk : Chunk}
    (acceptable : Acceptable got chunk) (nonempty : 0 < chunk.length)
    (start : new.addr = chunk.start) (stop : new.stop headerSize = chunk.start + chunk.length) :
    ∀ b ∈ bs, b.stop headerSize ≤ new.addr ∨ new.stop headerSize ≤ b.addr := by
  intro b mem
  by_contra overlap
  have inBlock : b.Has headerSize (max b.addr new.addr) := by
    refine ⟨le_max_left _ _, ?_⟩
    simp only [Block.stop, headerSize] at *
    omega
  obtain ⟨j, otherMem, lower, upper⟩ := sound.owned b mem _ inBlock
  have apart := acceptable.2.2.2 j otherMem
  omega

theorem Sound.writeChunk (sound : Sound heap got bs) (acceptable : Acceptable got ⟨start, needed⟩)
    (enough : headerSize < needed) (needFits : needed < 2 ^ 64)
    (isNew : new = { addr := start, size := needed - headerSize, free := true }) :
    ∃ heap' left right, (∀ arith, Reading arith → heap.writeChunk arith start needed = heap') ∧
      bs = left ++ right ∧ Fits left new right ∧ Held heap' (left ++ right) ∧
      heap'.totalBytes = heap.totalBytes + needed ∧
      heap'.block new.addr =
        { magic := heapMagic, size := new.size, free := new.free, prev := 0, next := 0 } := by
  have addr : new.addr = start := by rw [isNew]
  have stop : new.stop headerSize = start + needed := by
    rw [isNew]
    simp only [stop]
    omega
  have kernelStart := heapPointerLooksKernel_iff.mp acceptable.2.1
  have bound : kernelBase ≤ new.addr ∧ new.stop headerSize ≤ 2 ^ 64 := by
    rw [addr, stop]
    exact ⟨kernelStart.1, acceptable.2.2.1⟩
  obtain ⟨left, right, rfl, below, above⟩ := sound.ordered.exists_between (by decide)
    (sound.chunk_apart acceptable (by simp only; omega) addr stop)
  have between : Fits left new right := ⟨below, above, bound⟩
  have totalFits : heap.totalBytes + needed < 2 ^ 64 := by
    have bytes := (between.ordered sound.toHeld).total_le (between.kernel sound.toHeld)
      (by decide : kernelBase ≤ 2 ^ 64)
    have parts : total headerSize (left ++ new :: right) =
        total headerSize (left ++ right) + needed := by
      rw [total_append, total_append, isNew]
      simp only [total, map_cons, sum_cons]
      omega
    rw [parts, ← sound.accounted] at bytes
    simp only [kernelBase] at bytes
    omega
  refine ⟨heap.writeChunk exact start needed, left, right, fun arith reading => ?_, rfl,
    between, ⟨sound.head_eq, sound.linked.congr fun j mem => ?_, sound.ordered, sound.kernel⟩,
    rfl, ?_⟩
  · rcases reading with rfl | rfl
    · rw [writeChunk, writeChunk, machine_sub (by omega) needFits, machine_add totalFits]
    · rfl
  · refine blockAt_writeHeader_apart ?_
    rw [← addr]
    rcases mem_append.mp mem with inLeft | inRight
    · exact between.left_apart j inLeft
    · exact between.right_apart j inRight
  · rw [isNew]
    exact blockAt_writeHeader (by simp only [exact]; omega) (by decide) (by decide)

/-- What is known after a free block has been merged with its neighbours. -/
structure Merged (heap : Heap) (granted : List Chunk) (before : List Block) (block : Block)
    (address : Nat) (left : List Block) (merged : Block) (right : List Block) : Prop where
  inv : Inv heap granted (left ++ merged :: right)
  addr_eq : merged.addr = address
  isFree : merged.free = true
  large : block.size ≤ merged.size
  used_eq : used (left ++ merged :: right) = used before

section

variable (sound : Sound heap got (left ++ b :: right)) (isFree : b.free = true)
include sound isFree

theorem Sound.mergeRight (coalesced : Coalesced headerSize right) (old : Coalesced headerSize left)
    (separate : ∀ last ∈ left.getLast?, last.Separate headerSize b) :
    ∃ heap' merged right', (∀ arith, Reading arith →
        (coalesceWithNext arith heap b.addr).2 = heap') ∧
      Merged heap' got (left ++ b :: right) b b.addr left merged right' := by
  obtain ⟨heap', computed, -, sound'⟩ := sound.coalesce
  obtain ⟨merged, right', shape, addr, free, large⟩ :
      ∃ merged rest, mergeNext headerSize b right = merged :: rest ∧
        merged.addr = b.addr ∧ merged.free = b.free ∧ b.size ≤ merged.size :=
    mergeNext_head
  have usedEq : used (mergeNext headerSize b right) = used (b :: right) :=
    used_mergeNext isFree
  have tail : Coalesced headerSize (mergeNext headerSize b right) := coalesced.mergeNext
  rw [shape] at sound' usedEq tail
  refine ⟨heap', merged, right', fun arith reading => by rw [computed arith reading],
    ⟨sound', old.append tail ?_⟩, addr, by rw [free, isFree], large, ?_⟩
  · intro last lastMem head headMem
    have isHead := (Option.some.inj headMem).symm
    intro stop lastFree
    rw [isHead] at stop ⊢
    rw [free]
    exact separate last lastMem (by rw [stop, addr]) lastFree
  · rw [used_append, used_append, usedEq]

theorem Sound.mergeNeighbours (old : Coalesced headerSize left) (new : Coalesced headerSize right) :
    ∃ a heap' left' merged right', (∀ arith, Reading arith →
        heap.mergeNeighbours arith b.addr = (a, heap')) ∧
      Merged heap' got (left ++ b :: right) b a left' merged right' := by
  have h := sound.header
  rcases eq_nil_or_concat' left with rfl | ⟨front, last, rfl⟩
  · obtain ⟨heap', merged, right', computed, r⟩ :=
      sound.mergeRight isFree new old (by simp)
    refine ⟨b.addr, heap', [], merged, right', fun arith reading => ?_, r⟩
    simp [mergeNeighbours, h, lastAddr, computed arith reading]
  have soundLast : Sound heap got (front ++ last :: b :: right) := by simpa using sound
  have lastHeader := soundLast.header
  have isLast := lastAddr_concat 0 front last
  have lastNonzero := sound.addr_ne_zero last (by simp)
  obtain ⟨heap₁, computed₁, idle, sound₁⟩ := soundLast.coalesce
  obtain ⟨frontCoalesced, -, frontSeparate⟩ := isChain_append.mp old
  by_cases adjacent : last.free = true ∧ last.stop headerSize = b.addr
  · have absorbs : merges last (b :: right) = true := by simp [merges, isFree, adjacent.2]
    rw [mergeNext, if_pos ⟨isFree, adjacent.2⟩] at sound₁
    obtain ⟨heap', merged, right', computed, r⟩ :=
      sound₁.mergeRight adjacent.1 new frontCoalesced
        fun j mem stop free => frontSeparate j mem last rfl stop free
    refine ⟨last.addr, heap', front, merged, right', fun arith reading => ?_, r.inv,
      r.addr_eq, r.isFree, ?_, ?_⟩
    · simp only [mergeNeighbours, h, isLast, lastHeader, adjacent.1,
        computed₁ arith reading, absorbs]
      simp [lastNonzero, ← computed arith reading]
    · have large := r.large
      simp only at large
      omega
    · rw [r.used_eq]
      simp [used, isFree, adjacent.1]
  have separate : ∀ j ∈ (front ++ [last]).getLast?, j.Separate headerSize b := by
    intro j mem stop free
    have eq : j = last := by simpa using mem.symm
    rw [eq] at stop free
    exact (adjacent ⟨free, stop⟩).elim
  obtain ⟨heap', merged, right', computed, r⟩ :=
    sound.mergeRight isFree new old separate
  refine ⟨b.addr, heap', front ++ [last], merged, right', fun arith reading => ?_, r⟩
  by_cases lastFree : last.free = true
  · have stays : merges last (b :: right) = false := by
      have apart : last.stop headerSize ≠ b.addr := fun stop => adjacent ⟨lastFree, stop⟩
      simp [merges, apart]
    simp only [mergeNeighbours, h, isLast, computed₁ arith reading, stays, idle stays]
    simp [← computed arith reading]
  · simp only [mergeNeighbours, h, isLast, lastHeader, lastFree]
    simp [← computed arith reading]

end

theorem Sound.inserted {heap' : Heap} (sound : Sound heap got (left ++ right))
    (acceptable : Acceptable got ⟨start, needed⟩) (enough : headerSize < needed)
    (whole : needed % frameSize = 0) (held : Held heap' (left ++
      { addr := start, size := needed - headerSize, free := true } :: right))
    (totalBytes : heap'.totalBytes = heap.totalBytes + needed) :
    Sound heap' (⟨start, needed⟩ :: got)
      (left ++ { addr := start, size := needed - headerSize, free := true } :: right) := by
  refine ⟨held, ?_, forall_mem_insert sound.aligned ?_,
    forall_mem_insert (fun j mem a has => ?_) fun a has => ?_⟩
  · rw [totalBytes, sound.accounted, total_append, total_append]
    simp only [total, map_cons, sum_cons]
    omega
  · have page := acceptable.1
    simp only [Aligned, heapAlignment, headerSize, frameSize] at *
    omega
  · obtain ⟨chunk, chunkMem, inside⟩ := sound.owned j mem a has
    exact ⟨chunk, by simp [chunkMem], inside⟩
  refine ⟨⟨start, needed⟩, by simp, has.1, ?_⟩
  have upper := has.2
  simp only [stop] at upper ⊢
  omega

/-- `extend_heap` fails without an effect, or leaves a free block of at least the requested size. -/
theorem Inv.extendHeap (inv : Inv heap got bs) (proposal : Option Nat)
    (small : p + headerSize + frameSize ≤ 2 ^ 64) :
    (∀ arith, Reading arith → heap.extendHeap arith got proposal p = (0, heap, got)) ∨
    ∃ heap' got' left b right, (∀ arith, Reading arith →
        heap.extendHeap arith got proposal p = (b.addr, heap', got')) ∧
      Inv heap' got' (left ++ b :: right) ∧ b.free = true ∧
      p ≤ b.size ∧ used (left ++ b :: right) = used bs := by
  have size (arith : Word.Arith) (reading : Reading arith) :
      Heap.chunkSize arith p = Heap.chunkSize exact p := by
    rcases reading with rfl | rfl
    · exact chunkSize_machine small
    · rfl
  obtain ⟨room, minimum, whole, sizeFits⟩ := chunkSize_exact small
  generalize chunk : Heap.chunkSize exact p = needed at *
  have frames : needed / frameSize * frameSize = needed := by
    simp only [frameSize] at *
    omega
  cases proposal with
  | none =>
    simp [Heap.extendHeap, allocFrames]
  | some start =>
    by_cases acceptable : Acceptable got ⟨start, needed⟩
    · refine .inr ?_
      have enough : headerSize < needed := by
        simp only [headerSize, frameSize] at *
        omega
      obtain ⟨heap₁, left, right, written, rfl, between, held₁, totalBytes, h⟩ :=
        inv.toSound.writeChunk acceptable enough sizeFits rfl
      obtain ⟨inserted, held₂⟩ := Held.insert h held₁ between
      have sound₂ := inv.toSound.inserted acceptable enough whole held₂
        (by rw [inserted, totalBytes])
      obtain ⟨old, new, -⟩ := isChain_append.mp inv.coalesced
      obtain ⟨a, heap', left', merged, right', computed, r⟩ :=
        sound₂.mergeNeighbours rfl old new
      refine ⟨heap', _, left', merged, right', fun arith reading => ?_, r.inv, r.isFree,
        ?_, ?_⟩
      · have got' : allocFrames got (some start)
            (chunkSize arith p / frameSize) =
            (some start, ⟨start, needed⟩ :: got) := by
          rw [size arith reading, allocFrames, frames, if_pos acceptable]
        rw [extendHeap, got']
        simp [size arith reading, written arith reading, computed arith reading, r.addr_eq]
      · have large := r.large
        simp only at large
        omega
      · rw [r.used_eq]
        simp [used]
    · refine .inl fun arith reading => ?_
      simp [Heap.extendHeap, allocFrames, size arith reading, frames, acceptable]

/-! ## Taking a block -/

theorem separate_of_used {first second : Block} (isUsed : first.free = false) :
    first.Separate headerSize second := by
  intro _ free
  rw [isUsed] at free
  cases free

theorem coalesced_used {taken : Block} (old : Coalesced headerSize left)
    (new : Coalesced headerSize right) (isUsed : taken.free = false) :
    Coalesced headerSize (left ++ taken :: right) := by
  refine old.append (new.cons fun next _ => separate_of_used isUsed) ?_
  intro last _ head headMem _ _
  rw [← Option.some.inj headMem]
  exact isUsed

/-- The end of `kmalloc`: the block is cut down and marked used. -/
theorem Inv.takeBlock (inv : Inv heap got (left ++ b :: right))
    (isFree : b.free = true) {wanted : Nat} (large : wanted ≤ b.size)
    (multiple : wanted % heapAlignment = 0) (fits : wanted + headerSize + heapAlignment < 2 ^ 64) :
    ∃ heap' taken rest, (∀ arith, Reading arith →
        heap.takeBlock arith got b.addr wanted =
          some (b.addr + headerSize, heap', got)) ∧
      Inv heap' got (left ++ taken :: (rest ++ right)) ∧ taken.addr = b.addr ∧
      taken.free = false ∧ wanted ≤ taken.size ∧ used rest = [] := by
  obtain ⟨heap₁, computed, sound₁⟩ := inv.toSound.split fits multiple
  obtain ⟨size, rest, shape, atLeast, parts⟩ : ∃ size rest,
      Blocks.split headerSize heapAlignment wanted b = { b with size := size } :: rest ∧
        wanted ≤ size ∧ (rest = [] ∨ ∃ j, rest = [j] ∧
          j.free = true ∧ j.stop headerSize = b.stop headerSize) :=
    split_head large
  rw [shape, append_assoc] at sound₁
  have sound₂ := sound₁.setFree false
  obtain ⟨old, tail, -⟩ := isChain_append.mp inv.coalesced
  obtain ⟨afterBlock, new⟩ := isChain_cons.mp tail
  have restCoalesced : Coalesced headerSize (rest ++ right) ∧ used rest = [] := by
    rcases parts with rfl | ⟨j, rfl, otherFree, stop⟩
    · exact ⟨new, rfl⟩
    refine ⟨new.cons fun next mem ends _ => afterBlock next mem ?_ isFree, ?_⟩
    · rw [← stop, ends]
    · simp [used, otherFree]
  refine ⟨_, _, rest, fun arith reading => ?_,
    ⟨sound₂, coalesced_used old restCoalesced.1 rfl⟩, rfl, rfl, atLeast, restCoalesced.2⟩
  rw [Heap.takeBlock, computed arith reading]
  simp [sound₂.toHeld.scan]

/-! ## Allocation -/

section Wanted

variable {size : Nat}

section

variable (limited : size ≤ sizeLimit)

include limited

theorem wanted_spec :
    (∀ arith, Reading arith → alignUpU64 arith size heapAlignment =
      alignUpU64 exact size heapAlignment) ∧
    size ≤ alignUpU64 exact size heapAlignment ∧
    alignUpU64 exact size heapAlignment < size + heapAlignment ∧
    alignUpU64 exact size heapAlignment % heapAlignment = 0 := by
  have exactSize : alignUpU64 exact size heapAlignment = (size + 16 - 1) / 16 * 16 := rfl
  simp only [sizeLimit, uint64Max, heapAlignment] at limited
  refine ⟨fun arith reading => ?_, ?_⟩
  · rcases reading with rfl | rfl
    · exact alignUpU64_machine (by decide) (by simp only [heapAlignment]; omega)
    · rfl
  rw [exactSize]
  simp only [heapAlignment]
  omega

/-- Sizes that `kmalloc` lets through leave room for a header and a frame. -/
theorem wanted_room : alignUpU64 exact size heapAlignment + headerSize + frameSize ≤ 2 ^ 64 := by
  have exactSize : alignUpU64 exact size heapAlignment = (size + 16 - 1) / 16 * 16 := rfl
  simp only [sizeLimit, uint64Max, headerSize, frameSize] at *
  omega

theorem firstFit_wanted (aligned : ∀ b ∈ bs, Aligned b) :
    firstFit (alignUpU64 exact size heapAlignment) bs = firstFit size bs := by
  obtain ⟨-, atLeast, close, multiple⟩ := wanted_spec limited
  have eq : ∀ b ∈ bs,
      fits (alignUpU64 exact size heapAlignment) b =
        fits size b := by
    intro b mem
    have p := (aligned b mem).2
    rw [fits]
    congr 1
    apply decide_eq_decide.mpr
    simp only [heapAlignment] at *
    omega
  rw [firstFit, firstFit, find?_congr eq]

end

end Wanted

/-- The list after a successful allocation: one new used block at `address`. -/
structure Taken (heap : Heap) (granted : List Chunk) (before : List Block) (address size : Nat)
    (left : List Block) (taken : Block) (right : List Block) : Prop where
  inv : Inv heap granted (left ++ taken :: right)
  addr_eq : taken.addr = address
  isUsed : taken.free = false
  large : size ≤ taken.size
  used_eq : used before = used left ++ used right

theorem Inv.take (inv : Inv heap got (left ++ b :: right)) (isFree : b.free = true) {size : Nat}
    (limited : size ≤ sizeLimit) (large : alignUpU64 exact size heapAlignment ≤ b.size) :
    ∃ heap' taken right', (∀ arith, Reading arith →
        heap.takeBlock arith got b.addr (alignUpU64 arith size heapAlignment) =
          some (b.addr + headerSize, heap', got)) ∧
      Taken heap' got (left ++ b :: right) b.addr size left taken right' := by
  obtain ⟨eq, atLeast, -, multiple⟩ := wanted_spec limited
  have room := wanted_room limited
  obtain ⟨heap', taken, rest, computed, inv', addr, isUsed, taller, restUsed⟩ :=
    inv.takeBlock isFree large multiple (by simp only [heapAlignment, frameSize] at *; omega)
  refine ⟨heap', taken, rest ++ right, fun arith reading => ?_, inv', addr, isUsed, by omega, ?_⟩
  · rw [eq arith reading]
    exact computed arith reading
  · rw [used_append, used_append, restUsed]
    simp [used, isFree]

/-- `kmalloc` never halts, and returns `NULL` with nothing changed or a used block, the lowest that
fits if there is one. -/
theorem Inv.kmalloc (inv : Inv heap got bs) (proposal : Option Nat) (size : Nat) :
    ∃ pointer heap' got', (∀ arith, Reading arith →
        heap.kmalloc arith got proposal size = some (pointer, heap', got')) ∧
      (0 < size → size ≤ sizeLimit → firstFit size bs ≠ 0 →
        pointer = firstFit size bs + headerSize) ∧
      (pointer = 0 ∧ heap' = heap ∧ got' = got ∨
        ∃ left taken right, pointer = taken.addr + headerSize ∧ 0 < size ∧
          Taken heap' got' bs taken.addr size left taken right) := by
  by_cases refused : size = 0 ∨ sizeLimit < size
  · refine ⟨0, heap, got, fun arith _ => by rw [Heap.kmalloc, if_pos refused],
      fun pos limited => ?_, .inl ⟨rfl, rfl, rfl⟩⟩
    omega
  have pos : 0 < size := by omega
  have limited : size ≤ sizeLimit := by omega
  obtain ⟨eq, atLeast, -, -⟩ := wanted_spec limited
  have scan (arith : Word.Arith) (reading : Reading arith) :
      heap.heapScanLocked (alignUpU64 arith size heapAlignment) =
        some (firstFit size bs) := by
    rw [eq arith reading, inv.toHeld.scan, if_pos (by omega), firstFit_wanted limited inv.aligned]
  cases found : bs.find? (fits (alignUpU64 exact size heapAlignment)) with
  | some b =>
    have a : firstFit size bs = b.addr := by
      rw [← firstFit_wanted limited inv.aligned, firstFit, found]
      rfl
    have fitting := find?_some found
    simp only [fits, Bool.and_eq_true, decide_eq_true_eq] at fitting
    obtain ⟨left, right, rfl⟩ := append_of_mem (mem_of_find?_eq_some found)
    have nonzero := inv.addr_ne_zero b (by simp)
    obtain ⟨heap', taken, right', computed, r⟩ := inv.take fitting.1 limited fitting.2
    refine ⟨b.addr + headerSize, heap', got, fun arith reading => ?_,
      fun _ _ _ => by rw [a], .inr ⟨left, taken, right', ?_, pos, ?_⟩⟩
    · rw [kmalloc, if_neg refused]
      simp only [scan arith reading, a, if_neg nonzero]
      exact computed arith reading
    · rw [r.addr_eq]
    · rw [r.addr_eq]
      exact r
  | none =>
    have a : firstFit size bs = 0 := by
      rw [← firstFit_wanted limited inv.aligned, firstFit, found]
      rfl
    rcases inv.extendHeap proposal (wanted_room limited) with failed |
      ⟨heap₁, granted₁, left, b, right, extended, inv₁, isFree, large, usedEq⟩
    · refine ⟨0, heap, got, fun arith reading => ?_, fun _ _ none => (none a).elim,
        .inl ⟨rfl, rfl, rfl⟩⟩
      rw [Heap.kmalloc]
      simp only [scan arith reading, a]
      simp [eq arith reading, failed arith reading]
    have nonzero := inv₁.addr_ne_zero b (by simp)
    obtain ⟨heap', taken, right', computed, r⟩ := inv₁.take isFree limited large
    refine ⟨b.addr + headerSize, heap', granted₁, fun arith reading => ?_,
      fun _ _ none => (none a).elim, .inr ⟨left, taken, right', ?_, pos, ?_⟩⟩
    · have taking := computed arith reading
      rw [Heap.kmalloc, if_neg refused]
      simp only [scan arith reading, a]
      simp only [eq arith reading, extended arith reading, if_neg nonzero] at taking ⊢
      exact taking
    · rw [r.addr_eq]
    · rw [r.addr_eq]
      exact { r with used_eq := by rw [← usedEq, r.used_eq] }

/-! ## Release -/

/-- `kfree` of a used block never halts and leaves a coalesced list without that block. -/
theorem Inv.kfree (inv : Inv heap got (left ++ b :: right)) (isUsed : b.free = false) :
    ∃ heap' bs', (∀ arith, Reading arith →
        heap.kfree arith (b.addr + headerSize) = some heap') ∧
      Inv heap' got bs' ∧ used bs' = used left ++ used right := by
  have h := inv.header
  obtain ⟨old, tail, -⟩ := isChain_append.mp inv.coalesced
  have new : Coalesced headerSize right := (isChain_cons.mp tail).2
  have sound₁ := inv.toSound.setFree true
  obtain ⟨heap₂, computed₂, -, sound₂⟩ := sound₁.coalesce
  have tail₂ : Coalesced headerSize
      (mergeNext headerSize { b with free := true } right) := new.mergeNext
  have used₂ : used (mergeNext headerSize { b with free := true } right) = used right := by
    rw [used_mergeNext rfl]
    simp [used]
  obtain ⟨merged, right', shape, addr, -, -⟩ : ∃ merged rest,
      mergeNext headerSize { b with free := true } right = merged :: rest ∧
        merged.addr = b.addr ∧ merged.free = true ∧ b.size ≤ merged.size :=
    mergeNext_head
  rw [shape] at sound₂ tail₂ used₂
  have header₂ := sound₂.header
  rw [addr] at header₂
  have front (arith : Word.Arith) (reading : Reading arith) (heap' : Heap)
      (held' : ∃ bs', Held heap' bs')
      (last : (if lastAddr 0 left ≠ 0 ∧ (heap₂.block (lastAddr 0 left)).free = true then
        (coalesceWithNext arith heap₂ (lastAddr 0 left)).2 else heap₂) = heap') :
      heap.kfree arith (b.addr + headerSize) = some heap' := by
    have pos : b.addr + headerSize ≠ 0 := by simp only [headerSize]; omega
    obtain ⟨bs', held'⟩ := held'
    rw [Heap.kfree, if_neg pos, inv.toHeld.scan]
    simp only [Nat.add_sub_cancel, h, isUsed]
    simp only [ne_eq, not_true_eq_false, Bool.false_eq_true, if_false, or_self]
    rw [computed₂ arith reading]
    simp only [header₂]
    rw [last, held'.scan]
  rcases eq_nil_or_concat' left with rfl | ⟨others, last, rfl⟩
  · have inv₂ : Inv heap₂ got ([] ++ merged :: right') := ⟨sound₂, tail₂⟩
    refine ⟨heap₂, _, fun arith reading => front arith reading heap₂ ⟨_, sound₂.toHeld⟩ ?_, inv₂,
      by rw [used_append, used₂]⟩
    simp [lastAddr]
  have isLast := lastAddr_concat 0 others last
  have soundLast : Sound heap₂ got (others ++ last :: merged :: right') := by simpa using sound₂
  have lastHeader := soundLast.header
  have nonzero := inv.addr_ne_zero last (by simp)
  by_cases lastFree : last.free = true
  · obtain ⟨othersCoalesced, -, separate⟩ := isChain_append.mp old
    obtain ⟨heap', absorbed, rest, computed, r⟩ :=
      soundLast.mergeRight lastFree tail₂ othersCoalesced
        fun j mem => separate j mem last rfl
    refine ⟨heap', _, fun arith reading => front arith reading heap' ⟨_, r.inv.toHeld⟩ ?_,
      r.inv, ?_⟩
    · rw [isLast, if_pos ⟨nonzero, by rw [lastHeader]; exact lastFree⟩, computed arith reading]
    rw [r.used_eq, ← used₂]
    simp [used, lastFree]
  have inv₂ : Inv heap₂ got ((others ++ [last]) ++ merged :: right') := by
    refine ⟨sound₂, old.append tail₂ ?_⟩
    intro j mem head _
    have eq : j = last := by simpa using mem.symm
    rw [eq]
    exact separate_of_used (eq_false_of_ne_true lastFree)
  refine ⟨heap₂, _, fun arith reading => front arith reading heap₂ ⟨_, sound₂.toHeld⟩ ?_, inv₂,
    by rw [used_append, used₂]⟩
  rw [isLast, if_neg fun both => lastFree (by rw [lastHeader] at both; exact both.2)]

/-! ## Writes of callers -/

theorem Inv.writePayload (inv : Inv heap got (left ++ b :: right)) {start : Nat} {data : Bytes}
    (lower : b.addr + headerSize ≤ start) (upper : start + data.length ≤ b.stop headerSize) :
    Inv { heap with memory := heap.memory.write start data } got (left ++ b :: right) := by
  refine ⟨⟨⟨inv.head_eq, inv.linked.congr fun j mem => ?_, inv.ordered, inv.kernel⟩,
    inv.accounted, inv.aligned, inv.owned⟩, inv.coalesced⟩
  refine blockAt_congr fun byte lo hi => Store.write_outside heap.memory ?_
  simp only [mem_append, mem_cons] at mem
  rcases mem with inLeft | rfl | inRight
  · have old := inv.ordered.around.1 j inLeft
    simp only [stop] at old
    omega
  · omega
  · have new := inv.ordered.around.2.1 j inRight
    omega

/-- `kcalloc`: an accepted product does not overflow, and the zeros stay inside the payload. -/
theorem Inv.kcalloc (inv : Inv heap got bs) {proposal : Option Nat} {n size : Nat} :
    ∃ pointer heap' got', (∀ arith, Reading arith →
        heap.kcalloc arith got proposal n size = some (pointer, heap', got')) ∧
      (pointer = 0 ∧ heap' = heap ∧ got' = got ∨
        ∃ left taken right, pointer = taken.addr + headerSize ∧
          Taken heap' got' bs taken.addr (n * size) left taken right) := by
  by_cases refused : n ≠ 0 ∧ uint64Max / n < size
  · exact ⟨0, heap, got, fun arith _ => by rw [Heap.kcalloc, if_pos refused],
      .inl ⟨rfl, rfl, rfl⟩⟩
  have product : n * size < 2 ^ 64 := by
    by_cases none : n = 0
    · simp [none]
    have fits := not_lt.mp fun large => refused ⟨none, large⟩
    have bounded :=
      mul_comm n size ▸ (Nat.le_div_iff_mul_le (Nat.pos_of_ne_zero none)).mp fits
    simp only [uint64Max] at bounded
    omega
  have bytes (arith : Word.Arith) (reading : Reading arith) :
      arith.mul n size = n * size := by
    rcases reading with rfl | rfl
    · exact machine_mul product
    · rfl
  obtain ⟨pointer, heap₁, granted₁, computed, -, r⟩ := inv.kmalloc proposal (n * size)
  have call (arith : Word.Arith) (reading : Reading arith) :
      heap.kcalloc arith got proposal n size =
        if pointer = 0 then some (0, heap₁, granted₁)
        else some (pointer, { heap₁ with
          memory := heap₁.memory.write pointer (replicate (n * size) 0) }, granted₁) := by
    rw [Heap.kcalloc, if_neg refused]
    simp [bytes arith reading, computed arith reading]
  rcases r with ⟨rfl, rfl, rfl⟩ | ⟨left, taken, right, rfl, -, r⟩
  · exact ⟨0, heap₁, granted₁, fun arith reading => by rw [call arith reading, if_pos rfl],
      .inl ⟨rfl, rfl, rfl⟩⟩
  have pos : taken.addr + headerSize ≠ 0 := by simp only [headerSize]; omega
  refine ⟨taken.addr + headerSize, _, granted₁,
    fun arith reading => by rw [call arith reading, if_neg pos],
    .inr ⟨left, taken, right, rfl, { r with inv := ?_ }⟩⟩
  refine r.inv.writePayload le_rfl ?_
  have large := r.large
  simp only [length_replicate, stop]
  omega

end SrvrOS.Memory
