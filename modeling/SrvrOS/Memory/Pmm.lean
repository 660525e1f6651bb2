import SrvrOS.Lib.Bitmap
import SrvrOS.Lib.Runs
import SrvrOS.Lib.Run
import SrvrOS.Lib.Word

/-!
# The physical frame allocator

The state of `memory/pmm.c`: a bit for each frame (set while it is used), a tag for each frame, the
counters, and two tables of eight hints that let a later search start further up. A call that ends
in `halt_forever` has no result. The poison in a freed frame cannot reach the bitmap and is left
out.
-/

namespace SrvrOS.Memory

open Lib Function Word

/-- `PMM_FRAME_SIZE`. -/
def frameSize : Nat := 4096

/-- `PMM_SEARCH_HINTS`. -/
def hintCount : Nat := 8

/-- `PMM_DEFAULT_MIN_PHYSICAL`. -/
def defaultMinPhysical : Nat := 0x100000

def uint64Max : Nat := 2 ^ 64 - 1

/-- `enum pmm_frame_tag`; a caller may pass a value that is no enumerator. -/
inductive FrameTag where
  | free | reserved | general | heap | pageTable | user | kernelStack | dma
  | invalid
deriving DecidableEq, Repr

/-- `tag_valid`. -/
def FrameTag.valid (tag : FrameTag) : Bool := tag != .invalid

/-- The types of a memory-map entry that `pmm.c` distinguishes. -/
inductive MemmapType where
  | usable | acpiReclaimable | acpiNvs | bootloaderReclaimable | executableAndModules
  | framebuffer | other
deriving DecidableEq, Repr

/-- `struct limine_memmap_entry`. -/
structure MemmapEntry where
  base : Nat
  length : Nat
  type : MemmapType
deriving DecidableEq, Repr

/-- An entry of `search_hints`: no frame of `[minimum, floor)` is free. -/
structure SearchHint where
  minimum : Nat
  floor : Nat
  valid : Bool

/-- An entry of `run_hints`: no run of `count` frames starts in `[minimum, floor)`. -/
structure RunHint where
  minimum : Nat
  count : Nat
  floor : Nat
  valid : Bool

/-- The static variables of the allocator. -/
structure Pmm where
  bitmap : Bitmap
  frameTags : Store FrameTag
  tagCounts : FrameTag → Nat
  frameCount : Nat
  freeCount : Nat
  searchHints : Store SearchHint
  runHints : Store RunHint
  nextSearchHint : Nat
  nextRunHint : Nat

/-- `align_up`, in 64-bit arithmetic. -/
def alignUp (value alignment : Nat) : Nat :=
  wrap 64 (value + alignment - 1) / alignment * alignment

def alignDown (value alignment : Nat) : Nat := value / alignment * alignment

variable (pmm : Pmm)

namespace Pmm

/-- `bitmap_get`: whether a frame is used. -/
def bitmapGet (frame : Nat) : Bool := pmm.bitmap.get frame

def isFree (frame : Nat) : Bool := !pmm.bitmapGet frame

def setFrameTag (frame : Nat) (tag : FrameTag) : Pmm :=
  if pmm.frameCount ≤ frame ∨ tag.valid = false then pmm
  else
    let oldTag := pmm.frameTags frame
    let counts :=
      if oldTag.valid ∧ 0 < pmm.tagCounts oldTag then
        update pmm.tagCounts oldTag (pmm.tagCounts oldTag - 1)
      else pmm.tagCounts
    { pmm with
      frameTags := update pmm.frameTags frame tag
      tagCounts := update counts tag (counts tag + 1) }

def bitmapSet (frame : Nat) (used : Bool) : Pmm :=
  let wasUsed := pmm.bitmapGet frame
  if used then
    { pmm with
      bitmap := pmm.bitmap.setBit frame
      freeCount := if wasUsed = false ∧ 0 < pmm.freeCount then pmm.freeCount - 1
        else pmm.freeCount }
  else
    { pmm with
      bitmap := pmm.bitmap.clearBit frame
      freeCount := if wasUsed then pmm.freeCount + 1 else pmm.freeCount }

/-- Mark one frame and tag it: the body shared by every marking loop. -/
def markFrame (used : Bool) (tag : FrameTag) (frame : Nat) : Pmm :=
  (pmm.bitmapSet frame used).setFrameTag frame tag

/-! ## Initialisation -/

/-- The loop of `mark_range`, over the frames that remain. -/
def markFrom (used : Bool) : Nat → Nat → Pmm → Pmm
  | 0, _, pmm => pmm
  | left + 1, frame, pmm =>
    markFrom used left (frame + 1)
      (if frame < pmm.frameCount then
        pmm.markFrame used (if used then .reserved else .free) frame
      else pmm)

/-- `mark_range`. Both ends are multiples of the frame size, so the loop over addresses
is one over frames. -/
def markRange (base length : Nat) (used : Bool) : Pmm :=
  let start := if used then alignDown base frameSize else alignUp base frameSize
  let stop :=
    if used then alignUp (wrap 64 (base + length)) frameSize
    else alignDown (wrap 64 (base + length)) frameSize
  markFrom used (stop / frameSize - start / frameSize) (start / frameSize) pmm

end Pmm

def isManagedType (type : MemmapType) : Bool := type != .other

def findHighestManagedAddress (memmap : List MemmapEntry) : Nat :=
  memmap.foldl (fun highest entry =>
    if isManagedType entry.type then max highest (wrap 64 (entry.base + entry.length))
    else highest) 0

/-- `find_bitmap_location`: 0 when no usable entry has room. -/
def findBitmapLocation (size : Nat) : List MemmapEntry → Nat
  | [] => 0
  | entry :: rest =>
    let candidate := if entry.base < defaultMinPhysical then defaultMinPhysical else entry.base
    let base := alignUp candidate frameSize
    let stop := wrap 64 (entry.base + entry.length)
    if entry.type = .usable ∧ base < stop ∧ size ≤ stop - base then base
    else findBitmapLocation size rest

def mappedFrames (memmap : List MemmapEntry) : Nat :=
  alignUp (findHighestManagedAddress memmap) frameSize / frameSize

/-- `pmm_init`, from whatever the static variables and the metadata memory held before. -/
def pmmInit (before : Pmm) (memmap : List MemmapEntry) : Option Pmm :=
  let frameCount := mappedFrames memmap
  let bitmapBytes := alignUp frameCount 8 / 8
  let metadataBytes := bitmapBytes + frameCount
  let bitmapPhysical := findBitmapLocation metadataBytes memmap
  if uint64Max - bitmapBytes < frameCount then none
  else if bitmapPhysical = 0 then none
  else
    let cleared : Pmm :=
      { bitmap := fun byte => if byte < bitmapBytes then 0xff#8 else before.bitmap byte
        frameTags := fun frame =>
          if frame < frameCount then .reserved else before.frameTags frame
        tagCounts := fun tag => if tag = .reserved then frameCount else 0
        frameCount := frameCount
        freeCount := 0
        searchHints := fun slot =>
          if slot < hintCount then { before.searchHints slot with valid := false }
          else before.searchHints slot
        runHints := fun slot =>
          if slot < hintCount then { before.runHints slot with valid := false }
          else before.runHints slot
        nextSearchHint := 0
        nextRunHint := 0 }
    let marked := memmap.foldl (fun pmm entry =>
      if entry.type = .usable then pmm.markRange entry.base entry.length false else pmm) cleared
    some (marked.markRange bitmapPhysical metadataBytes true)

namespace Pmm

/-! ## Allocation -/

/-- The first valid search hint for a minimum, or the next entry in turn, which it overwrites. -/
def selectSearchHint (minimum : Nat) : Nat × Pmm :=
  match (List.range hintCount).find? fun slot =>
      (pmm.searchHints slot).valid && (pmm.searchHints slot).minimum == minimum with
  | some slot => (slot, pmm)
  | none =>
    let slot := pmm.nextSearchHint % hintCount
    (slot,
      { pmm with
        nextSearchHint := wrap 32 (pmm.nextSearchHint + 1)
        searchHints := update pmm.searchHints slot
          { minimum := minimum, floor := minimum, valid := true } })

/-- The run hint for a minimum and a count, found or overwritten in the same way. -/
def selectRunHint (minimum count : Nat) : Nat × Pmm :=
  match (List.range hintCount).find? fun slot =>
      (pmm.runHints slot).valid && (pmm.runHints slot).minimum == minimum &&
        (pmm.runHints slot).count == count with
  | some slot => (slot, pmm)
  | none =>
    let slot := pmm.nextRunHint % hintCount
    (slot,
      { pmm with
        nextRunHint := wrap 32 (pmm.nextRunHint + 1)
        runHints := update pmm.runHints slot
          { minimum := minimum, count := count, floor := minimum, valid := true } })

def setSearchFloor (slot floor : Nat) : Pmm :=
  { pmm with
    searchHints := update pmm.searchHints slot
      { pmm.searchHints slot with floor := floor } }

def setRunFloor (slot floor : Nat) : Pmm :=
  { pmm with
    runHints := update pmm.runHints slot { pmm.runHints slot with floor := floor } }

/-- The eight bytes from `byte` are full. -/
def eightFull (byte : Nat) : Bool :=
  (List.range 8).all fun offset => pmm.bitmap (byte + offset) == 0xff#8

/-- The search loop of `pmm_alloc_frames_above_tagged`: the start of the run, and the first free
frame it met. Each turn advances, so the frame count bounds the turns. -/
def search (pmm : Pmm) (count : Nat) : Nat → Nat → Nat → Nat → Nat → Option Nat × Nat
  | 0, _, _, _, firstFree => (none, firstFree)
  | turns + 1, frame, runStart, runLength, firstFree =>
    if pmm.frameCount ≤ frame then (none, firstFree)
    else if frame % 64 = 0 ∧ 64 ≤ pmm.frameCount - frame ∧ pmm.eightFull (frame / 8) then
      search pmm count turns (frame + 64) runStart 0 firstFree
    else if frame % 8 = 0 ∧ 8 ≤ pmm.frameCount - frame ∧ pmm.bitmap (frame / 8) = 0xff#8 then
      search pmm count turns (frame + 8) runStart 0 firstFree
    else if pmm.bitmapGet frame = false then
      let firstFree := if firstFree = pmm.frameCount then frame else firstFree
      let runStart := if runLength = 0 then frame else runStart
      if runLength + 1 = count then (some runStart, firstFree)
      else search pmm count turns (frame + 1) runStart (runLength + 1) firstFree
    else search pmm count turns (frame + 1) runStart 0 firstFree

/-- Mark `count` frames from `frame`. -/
def markFrames (used : Bool) (tag : FrameTag) : Nat → Nat → Pmm → Pmm
  | 0, _, pmm => pmm
  | left + 1, frame, pmm => markFrames used tag left (frame + 1) (pmm.markFrame used tag frame)

def startFrame (hint runHint : Nat) : Nat :=
  if (pmm.searchHints hint).floor < (pmm.runHints runHint).floor then
    (pmm.runHints runHint).floor
  else (pmm.searchHints hint).floor

/-- Only a scan from the shared floor has seen every frame above it, so only then may it move. -/
def allocHinted (count hint runHint : Nat) (tag : FrameTag) : Nat × Pmm :=
  let start := pmm.startFrame hint runHint
  let sharedScan := decide (start = (pmm.searchHints hint).floor)
  match pmm.search count pmm.frameCount start 0 0 pmm.frameCount with
  | (some runStart, firstFree) =>
    let pmm := (markFrames true tag count runStart pmm).setRunFloor runHint (runStart + count)
    let pmm :=
      if sharedScan then
        pmm.setSearchFloor hint (if firstFree = runStart then runStart + count else firstFree)
      else pmm
    (wrap 64 (runStart * frameSize), pmm)
  | (none, firstFree) =>
    let pmm := pmm.setRunFloor runHint (max pmm.frameCount (pmm.runHints runHint).minimum)
    let pmm :=
      if sharedScan then
        pmm.setSearchFloor hint (max firstFree (pmm.searchHints hint).minimum)
      else pmm
    (0, pmm)

/-- The part of `pmm_alloc_frames_above_tagged` after its checks. -/
def allocFrom (count minimum : Nat) (tag : FrameTag) : Nat × Pmm :=
  let (hint, pmm) := pmm.selectSearchHint minimum
  let (runHint, pmm) := pmm.selectRunHint minimum count
  pmm.allocHinted count hint runHint tag

/-- `pmm_alloc_frames_above_tagged`. -/
def allocFramesAboveTagged (count minimum : Nat) (tag : FrameTag) :
    Option (Nat × Pmm) :=
  if count = 0 ∨ uint64Max - (frameSize - 1) < minimum then some (0, pmm)
  else if tag.valid = false ∨ tag = .free then none
  else if pmm.freeCount < count then some (0, pmm)
  else some (pmm.allocFrom count (alignUp minimum frameSize / frameSize) tag)

/-! ## Release -/

/-- The release loop of `pmm_free_frame_range`, which halts on a frame it may not release. -/
def releaseFrames : Nat → Nat → Pmm → Option Pmm
  | 0, _, pmm => some pmm
  | left + 1, frame, pmm =>
    if pmm.bitmapGet frame = false then none
    else if pmm.frameTags frame = .reserved then none
    else if pmm.frameTags frame = .heap then none
    else releaseFrames left (frame + 1) (pmm.markFrame false .free frame)

/-- Rewind a search hint over the freed frames `[frame, stop)`. -/
def rewindSearch (frame stop : Nat) (hint : SearchHint) : SearchHint :=
  if hint.valid ∧ hint.minimum < stop then
    let first := max frame hint.minimum
    if first < hint.floor then { hint with floor := first } else hint
  else hint

/-- The earliest start of a run of the hint's length that needs a freed frame. -/
def earliestStart (frame : Nat) (hint : RunHint) : Nat :=
  let first := max frame hint.minimum
  let before := hint.count - 1
  max (if before ≤ first then first - before else 0) hint.minimum

/-- Rewind a run hint: a run may start before the freed frames it needs. -/
def rewindRun (frame stop : Nat) (hint : RunHint) : RunHint :=
  if hint.valid ∧ hint.minimum < stop then
    let possible := earliestStart frame hint
    if possible < hint.floor then { hint with floor := possible } else hint
  else hint

/-- Rewind all hints after `count` frames from `frame` were freed. -/
def rewindHints (frame count : Nat) : Pmm :=
  { pmm with
    searchHints := fun slot =>
      if slot < hintCount then rewindSearch frame (frame + count) (pmm.searchHints slot)
      else pmm.searchHints slot
    runHints := fun slot =>
      if slot < hintCount then rewindRun frame (frame + count) (pmm.runHints slot)
      else pmm.runHints slot }

/-- `pmm_free_frame_range`. -/
def freeFrameRange (address count : Nat) : Option Pmm :=
  let frame := address / frameSize
  if address % frameSize ≠ 0 ∨ count = 0 ∨ pmm.frameCount ≤ frame ∨
      pmm.frameCount - frame < count then none
  else (releaseFrames count frame pmm).map fun released => released.rewindHints frame count

/-! ## Runs -/

/-- A call into the allocator. -/
inductive Request where
  | alloc (count minimum : Nat) (tag : FrameTag)
  | free (address count : Nat)
deriving DecidableEq, Repr

/-- Answer one call with the address it returns (0 for a release). A machine that has
halted stays halted. -/
def step : Option Pmm → Request → Option Nat × Option Pmm
  | none, _ => (none, none)
  | some pmm, .alloc count minimum tag =>
    let answer := pmm.allocFramesAboveTagged count minimum tag
    (answer.map Prod.fst, answer.map Prod.snd)
  | some pmm, .free address count =>
    let answer := pmm.freeFrameRange address count
    (answer.map fun _ => 0, answer)

end Pmm

end SrvrOS.Memory
