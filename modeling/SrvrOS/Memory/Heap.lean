import SrvrOS.Lib.Bytes
import SrvrOS.Memory.Pmm

/-!
# The kernel heap

`memory/heap.c` keeps a doubly linked list of blocks with a header of 48 bytes in the memory it
manages, which is a store of bytes here. `NULL` is address 0, a call that ends in `halt_forever`
has no result, and `arith` reads the unsigned operators.
-/

namespace SrvrOS.Memory

open Lib

def heapMagic : Nat := 0x5158565248534f53

def heapMinChunkSize : Nat := frameSize * 4

def heapAlignment : Nat := 16

/-- `sizeof(struct heap_block)`. -/
def headerSize : Nat := 48

structure HeapBlock where
  magic : Nat
  size : Nat
  free : Bool
  prev : Nat
  next : Nat
deriving DecidableEq, Repr

/-- The header that the bytes at an address spell. -/
def blockAt (memory : Store UInt8) (address : Nat) : HeapBlock where
  magic := memory.getWord address
  size := memory.getWord (address + 8)
  free := memory (address + 16) != 0
  prev := memory.getWord (address + 24)
  next := memory.getWord (address + 32)

/-- `block->magic = value`. -/
def setMagic (memory : Store UInt8) (block value : Nat) : Store UInt8 :=
  memory.setWord block value

/-- `block->size = value`. -/
def setSize (memory : Store UInt8) (block value : Nat) : Store UInt8 :=
  memory.setWord (block + 8) value

/-- `block->free = value`. -/
def setFree (memory : Store UInt8) (block : Nat) (value : Bool) : Store UInt8 :=
  memory.write (block + 16) [if value then 1 else 0]

/-- `block->prev = value`. -/
def setPrev (memory : Store UInt8) (block value : Nat) : Store UInt8 :=
  memory.setWord (block + 24) value

/-- `block->next = value`. -/
def setNext (memory : Store UInt8) (block value : Nat) : Store UInt8 :=
  memory.setWord (block + 32) value

/-- `if (next != NULL) next->prev = value`. -/
def linkPrev (memory : Store UInt8) (next value : Nat) : Store UInt8 :=
  if next ≠ 0 then setPrev memory next value else memory

/-- Fill in the header of a new free block, in the order of the source. -/
def writeHeader (memory : Store UInt8) (block size prev next : Nat) : Store UInt8 :=
  let memory := setMagic memory block heapMagic
  let memory := setSize memory block size
  let memory := setFree memory block true
  setNext (setPrev memory block prev) block next

/-- A range of bytes obtained from the frame allocator. -/
structure Chunk where
  start : Nat
  length : Nat
deriving DecidableEq, Repr

/-- The static variables of the heap and the memory it works on. -/
structure Heap where
  memory : Store UInt8
  head : Nat
  totalBytes : Nat

def heapPointerLooksKernel (pointer : Nat) : Bool := pointer / 2 ^ 47 == 0x1ffff

/-! ## The frame allocator as the heap sees it -/

/-- A chunk of whole frames in the kernel half that overlaps none handed out before. -/
def Acceptable (granted : List Chunk) (chunk : Chunk) : Prop :=
  chunk.start % frameSize = 0 ∧ heapPointerLooksKernel chunk.start = true ∧
    chunk.start + chunk.length ≤ 2 ^ 64 ∧
    ∀ other ∈ granted, chunk.start + chunk.length ≤ other.start ∨
      other.start + other.length ≤ chunk.start

instance (granted : List Chunk) (chunk : Chunk) : Decidable (Acceptable granted chunk) :=
  inferInstanceAs (Decidable (_ ∧ _ ∧ _ ∧ _))

/-- Newly allocated frames; the allocator is free to fail and to choose any acceptable address. -/
def allocFrames (granted : List Chunk) (proposal : Option Nat) (frames : Nat) :
    Option Nat × List Chunk :=
  match proposal with
  | none => (none, granted)
  | some start =>
    if Acceptable granted ⟨start, frames * frameSize⟩ then
      (some start, ⟨start, frames * frameSize⟩ :: granted)
    else (none, granted)

namespace Heap

def block (heap : Heap) (address : Nat) : HeapBlock := blockAt heap.memory address

/-- `heap_scan_locked`; each check that fails halts, and the last ones make the addresses ascend. -/
def heapScanFrom (heap : Heap) (wanted block previous candidate : Nat) : Option Nat :=
  if block = 0 then some candidate
  else if heapPointerLooksKernel block = false ∨ (heap.block block).magic ≠ heapMagic then none
  else if (heap.block block).prev ≠ previous then none
  else if (heap.block block).next ≠ 0 ∧
      heapPointerLooksKernel (heap.block block).next = false then none
  else if (heap.block block).next ≠ 0 ∧ ((heap.block block).next ≤ block ∨
      (heap.block block).next < block + headerSize + (heap.block block).size) then none
  else
    heapScanFrom heap wanted (heap.block block).next block
      (if wanted ≠ 0 ∧ candidate = 0 ∧ (heap.block block).free ∧
        wanted ≤ (heap.block block).size then block else candidate)
termination_by if block = 0 then 0 else 2 ^ 64 - block
decreasing_by
  simp_all only [heapPointerLooksKernel, beq_eq_false_iff_ne, not_or, not_not, not_and,
    if_false]
  split <;> omega

/-- `heap_scan_locked`: 0 when no free block is large enough. -/
def heapScanLocked (heap : Heap) (wanted : Nat) : Option Nat :=
  heap.heapScanFrom wanted heap.head 0 0

/-- The loop of `insert_block_sorted`. The list ascends, so `block` bounds its turns. -/
def insertionPoint (heap : Heap) (block : Nat) : Nat → Nat → Nat
  | 0, current => current
  | steps + 1, current =>
    let next := (heap.block current).next
    if next ≠ 0 ∧ next < block then insertionPoint heap block steps next else current

def insertBlockSorted (heap : Heap) (block : Nat) : Heap :=
  if heap.head = 0 ∨ block < heap.head then
    let memory := setNext (setPrev heap.memory block 0) block heap.head
    { heap with memory := linkPrev memory heap.head block, head := block }
  else
    let current := heap.insertionPoint block block heap.head
    let next := (heap.block current).next
    let memory := setNext (setPrev heap.memory block current) block next
    { heap with memory := setNext (linkPrev memory next block) current block }

def blocksAreAdjacent (heap : Heap) (left right : Nat) : Bool :=
  left + headerSize + (heap.block left).size == right

section Sizes

variable (arith : Word.Arith)

def alignUpU64 (value alignment : Nat) : Nat :=
  arith.sub (arith.add value alignment) 1 / alignment * alignment

def coalesceWithNext (heap : Heap) (block : Nat) : Bool × Heap :=
  let next := (heap.block block).next
  if next = 0 ∨ (heap.block next).free = false ∨ heap.blocksAreAdjacent block next = false then
    (false, heap)
  else
    let size := arith.add (heap.block block).size (arith.add headerSize (heap.block next).size)
    let after := (heap.block next).next
    let memory := setNext (setSize heap.memory block size) block after
    (true, { heap with memory := linkPrev memory after block })

def splitBlock (heap : Heap) (block wanted : Nat) : Heap :=
  let required := arith.add (arith.add wanted headerSize) heapAlignment
  let size := (heap.block block).size
  if size < required then heap
  else
    let rest := block + headerSize + wanted
    let next := (heap.block block).next
    let memory := writeHeader heap.memory rest
      (arith.sub (arith.sub size wanted) headerSize) block next
    let memory := linkPrev memory next rest
    { heap with memory := setNext (setSize memory block wanted) block rest }

/-- The chunk size `extend_heap` asks for. -/
def chunkSize (payloadSize : Nat) : Nat :=
  let needed := alignUpU64 arith (arith.add payloadSize headerSize) frameSize
  if needed < heapMinChunkSize then heapMinChunkSize else needed

/-- The header `extend_heap` writes at the start of a new chunk. -/
def writeChunk (heap : Heap) (block needed : Nat) : Heap :=
  { heap with
    memory := writeHeader heap.memory block (arith.sub needed headerSize) 0 0
    totalBytes := arith.add heap.totalBytes needed }

/-- Merge a free block with its free neighbours; the block that remains. -/
def mergeNeighbours (heap : Heap) (block : Nat) : Nat × Heap :=
  let prev := (heap.block block).prev
  if prev ≠ 0 ∧ (heap.block prev).free then
    let (merged, heap) := coalesceWithNext arith heap prev
    let block := if merged then prev else block
    (block, (coalesceWithNext arith heap block).2)
  else (block, (coalesceWithNext arith heap block).2)

/-- `extend_heap`: the new free block, or 0. -/
def extendHeap (heap : Heap) (granted : List Chunk) (proposal : Option Nat)
    (payloadSize : Nat) : Nat × Heap × List Chunk :=
  let needed := chunkSize arith payloadSize
  match allocFrames granted proposal (needed / frameSize) with
  | (none, granted) => (0, heap, granted)
  | (some block, granted) =>
    let heap := (heap.writeChunk arith block needed).insertBlockSorted block
    let (block, heap) := heap.mergeNeighbours arith block
    (block, heap, granted)

def heapInit (heap : Heap) (granted : List Chunk) (proposal : Option Nat) :
    Option (Heap × List Chunk) :=
  if heap.head ≠ 0 then some (heap, granted)
  else
    let (block, heap, granted) :=
      heap.extendHeap arith granted proposal (arith.sub heapMinChunkSize headerSize)
    if block = 0 then none else some (heap, granted)

/-- The largest size that `kmalloc` considers. -/
def sizeLimit : Nat := uint64Max - headerSize - (frameSize - 1) - (heapAlignment - 1)

/-- The last part of `kmalloc`, once a block is chosen. -/
def takeBlock (heap : Heap) (granted : List Chunk) (block wanted : Nat) :
    Option (Nat × Heap × List Chunk) :=
  let heap := heap.splitBlock arith block wanted
  let heap : Heap := { heap with memory := setFree heap.memory block false }
  match heap.heapScanLocked 0 with
  | none => none
  | some _ => some (block + headerSize, heap, granted)

def kmalloc (heap : Heap) (granted : List Chunk) (proposal : Option Nat) (size : Nat) :
    Option (Nat × Heap × List Chunk) :=
  if size = 0 ∨ sizeLimit < size then some (0, heap, granted)
  else
    let wanted := alignUpU64 arith size heapAlignment
    match heap.heapScanLocked wanted with
    | none => none
    | some block =>
      if block = 0 then
        let (block, heap, granted) := heap.extendHeap arith granted proposal wanted
        if block = 0 then some (0, heap, granted)
        else heap.takeBlock arith granted block wanted
      else heap.takeBlock arith granted block wanted

def kcalloc (heap : Heap) (granted : List Chunk) (proposal : Option Nat) (count size : Nat) :
    Option (Nat × Heap × List Chunk) :=
  if count ≠ 0 ∧ uint64Max / count < size then some (0, heap, granted)
  else
    let bytes := arith.mul count size
    match heap.kmalloc arith granted proposal bytes with
    | none => none
    | some (pointer, heap, granted) =>
      if pointer = 0 then some (0, heap, granted)
      else
        some (pointer,
          { heap with memory := heap.memory.write pointer (List.replicate bytes 0) }, granted)

def kfree (heap : Heap) (pointer : Nat) : Option Heap :=
  if pointer = 0 then some heap
  else
    match heap.heapScanLocked 0 with
    | none => none
    | some _ =>
      let block := pointer - headerSize
      if (heap.block block).magic ≠ heapMagic ∨ (heap.block block).free then none
      else
        let heap : Heap := { heap with memory := setFree heap.memory block true }
        let heap := (coalesceWithNext arith heap block).2
        let prev := (heap.block block).prev
        let heap :=
          if prev ≠ 0 ∧ (heap.block prev).free then (coalesceWithNext arith heap prev).2
          else heap
        match heap.heapScanLocked 0 with
        | none => none
        | some _ => some heap

end Sizes

end Heap

end SrvrOS.Memory
