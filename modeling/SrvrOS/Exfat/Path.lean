import SrvrOS.Lib.Bytes

/-!
# Path strings of the exFAT driver

The string helpers of `kernel/src/fs/exfat.c` over byte strings. A C string is the
list of its bytes before the terminator, so an empty path stands for a free table
slot, and a capacity check is a bound on the length.
-/

namespace SrvrOS.Exfat

open Lib List

abbrev Path := Bytes

/-- `EXFAT_MAX_PATH`, the capacity of a path buffer with its terminator. -/
def exfatMaxPath : Nat := 1024

def ascii (text : List Char) : Bytes := text.map fun c => UInt8.ofNat c.toNat

def slash : UInt8 := 47

/-- `path_in_subtree`: `base` itself or a path below it. -/
def pathInSubtree (path base : Path) : Bool :=
  base.isPrefixOf path &&
    match path.drop base.length with
    | [] => true
    | next :: _ => next == slash

/-- `path_is_child_of`: strictly below `parent`. -/
def pathIsChildOf (path parent : Path) : Bool :=
  !parent.isEmpty && parent.isPrefixOf path &&
    (path.drop parent.length).head? == some slash

def lastComponent (path : Path) : Path :=
  (path.reverse.takeWhile (· != slash)).reverse

def pathBasename (path : Path) : Option Path :=
  if lastComponent path = [] then none else some (lastComponent path)

/-- The index of the last separator of a path that has one. -/
def lastSlash (path : Path) : Nat := path.length - (lastComponent path).length - 1

def parentPathOf (path : Path) : Option Path :=
  if path.head? ≠ some slash then none
  else if lastSlash path = 0 ∨ exfatMaxPath ≤ lastSlash path + 1 then none
  else some (path.take (lastSlash path))

/-- The mandatory up-case mapping of exFAT on ASCII. -/
def asciiUpper (byte : UInt8) : UInt8 :=
  if 97 ≤ byte ∧ byte ≤ 122 then byte - 32 else byte

def asciiCaseEqual (left right : Path) : Bool :=
  left.map asciiUpper == right.map asciiUpper

/-- A byte that may stand in a file name: printable ASCII outside the reserved set. -/
def nameByte (byte : UInt8) : Bool :=
  decide (0x20 ≤ byte) && decide (byte < 0x7f) &&
    !(ascii ['"', '*', ':', '<', '>', '?', '\\', '|']).contains byte

def validAsciiBasename (path : Path) : Bool :=
  let name := lastComponent path
  decide (path.length < exfatMaxPath) && !name.isEmpty &&
    name != ascii ['.'] && name != ascii ['.', '.'] && name.all nameByte

/-- The loop of `valid_mountpoint`: `component` is the part read since the last
separator. -/
def validComponents : Path → Path → Bool
  | [], component =>
    !component.isEmpty && component != ascii ['.'] && component != ascii ['.', '.']
  | next :: rest, component =>
    if next = slash then
      !component.isEmpty && component != ascii ['.'] && component != ascii ['.', '.'] &&
        validComponents rest []
    else validComponents rest (component ++ [next])

def validMountpoint (mountpoint : Path) : Bool :=
  match mountpoint with
  | [] => false
  | first :: rest =>
    first == slash && decide (mountpoint.length < exfatMaxPath) && validComponents rest []

/-- `append_mount_path` without its capacity, which every caller checks on the whole. -/
def appendMountPath (mountpoint : Path) : Path :=
  if mountpoint.getLast? = some slash then mountpoint else mountpoint ++ [slash]

/-- A path built in a buffer of `EXFAT_MAX_PATH` bytes. -/
def fitPath (path : Path) : Option Path :=
  if path.length < exfatMaxPath then some path else none

def metadataDirectoryPath (mountpoint : Path) : Option Path :=
  fitPath (appendMountPath mountpoint ++ ascii ['.', 's', 'r', 'v', 'r', 'o', 's'])

def metadataFilePath (mountpoint : Path) : Option Path := do
  let directory ← metadataDirectoryPath mountpoint
  fitPath (directory ++ ascii ['/', 'm', 'e', 't', 'a'])

def metadataTempPath (mountpoint : Path) : Option Path := do
  let directory ← metadataDirectoryPath mountpoint
  fitPath (directory ++ ascii ['/', 'm', 'e', 't', 'a', '.', 't', 'm', 'p'])

def metadataPathIsInternal (mountpoint path : Path) : Bool :=
  match metadataDirectoryPath mountpoint with
  | none => false
  | some directory => pathInSubtree path directory

/-- `stream_prefix`: the case-insensitive form of the subtree test. -/
def streamPrefix (path base : Path) : Bool :=
  if base = [slash] then path.head? == some slash
  else
    (base.map asciiUpper).isPrefixOf (path.map asciiUpper) &&
      match path.drop base.length with
      | [] => true
      | next :: _ => next == slash

/-! ## Subtrees -/

variable {path b p : Path}

/-- A path in a subtree is the root of it or continues with a separator. -/
theorem pathInSubtree_iff :
    pathInSubtree path b = true ↔
      path = b ∨ ∃ rest, path = b ++ slash :: rest := by
  unfold pathInSubtree
  rw [Bool.and_eq_true, isPrefixOf_iff_prefix]
  constructor
  · rintro ⟨⟨rest, rfl⟩, boundary⟩
    cases rest with
    | nil => exact .inl (append_nil b)
    | cons next rest =>
      have hit : next = slash := by simpa using boundary
      exact .inr ⟨rest, by rw [hit]⟩
  rintro (rfl | ⟨rest, rfl⟩)
  · simp
  · simp

theorem pathInSubtree_refl (path : Path) : pathInSubtree path path = true :=
  pathInSubtree_iff.mpr (.inl rfl)

theorem pathInSubtree_trans {middle : Path} (lower : pathInSubtree path middle = true)
    (upper : pathInSubtree middle b = true) : pathInSubtree path b = true := by
  rw [pathInSubtree_iff] at lower upper ⊢
  rcases upper with rfl | ⟨up, rfl⟩
  · exact lower
  rcases lower with rfl | ⟨down, rfl⟩
  · exact .inr ⟨up, rfl⟩
  · exact .inr ⟨up ++ slash :: down, by simp⟩

theorem pathInSubtree_linear {left right : Path} (below : pathInSubtree path left = true)
    (also : pathInSubtree path right = true) :
    pathInSubtree left right = true ∨ pathInSubtree right left = true := by
  have tail : ∀ {upper : Path}, pathInSubtree path upper = true →
      ∃ rest, path = upper ++ rest ∧ (rest = [] ∨ ∃ more, rest = slash :: more) := by
    intro upper hit
    rcases pathInSubtree_iff.mp hit with rfl | ⟨rest, rfl⟩
    · exact ⟨[], (append_nil _).symm, .inl rfl⟩
    · exact ⟨slash :: rest, rfl, .inr ⟨rest, rfl⟩⟩
  have extends_ : ∀ {shorter rest more later : Path}, rest = more ++ later →
      (rest = [] ∨ ∃ tail, rest = slash :: tail) →
      pathInSubtree (shorter ++ more) shorter = true := by
    intro shorter rest more later split boundary
    cases more with
    | nil => rw [append_nil]; exact pathInSubtree_refl shorter
    | cons next more =>
      rcases boundary with rfl | ⟨tail, rfl⟩
      · cases split
      have head : next = slash := by
        rw [cons_append, cons.injEq] at split
        exact split.1.symm
      rw [head]
      exact pathInSubtree_iff.mpr (.inr ⟨more, rfl⟩)
  obtain ⟨leftRest, leftSplit, leftBoundary⟩ := tail below
  obtain ⟨rightRest, rightSplit, rightBoundary⟩ := tail also
  rcases append_eq_append_iff.mp (leftSplit.symm.trans rightSplit) with
    ⟨more, rfl, hit⟩ | ⟨more, rfl, hit⟩
  · exact .inr (extends_ hit leftBoundary)
  · exact .inl (extends_ hit rightBoundary)

theorem lastComponent_split (member : slash ∈ path) :
    ∃ front, path = front ++ slash :: lastComponent path := by
  have whole := takeWhile_append_dropWhile (p := (· != slash)) (l := path.reverse)
  cases tail : path.reverse.dropWhile (· != slash) with
  | nil =>
    have none := dropWhile_eq_nil_iff.mp tail slash (mem_reverse.mpr member)
    cases none
  | cons next rest =>
    have hit : next = slash := by
      have nonempty : path.reverse.dropWhile (· != slash) ≠ [] := by
        rw [tail]
        simp
      have stop := head_dropWhile_not (· != slash) nonempty
      simpa [tail] using stop
    refine ⟨rest.reverse, ?_⟩
    rw [tail, hit] at whole
    have flipped := congrArg reverse whole
    simpa [lastComponent] using flipped.symm

section

variable (hit : parentPathOf path = some p)

include hit

theorem parentPathOf_split : path = p ++ slash :: lastComponent path := by
  unfold parentPathOf at hit
  split at hit
  · cases hit
  rename_i start
  split at hit
  · cases hit
  cases hit
  have absolute := mem_of_mem_head? (not_not.mp start)
  obtain ⟨front, split⟩ := lastComponent_split absolute
  have place : lastSlash path = front.length := by
    have length := congrArg length split
    simp only [length_append, length_cons] at length
    unfold lastSlash
    omega
  have taken : path.take (lastSlash path) = front := by
    rw [place]
    conv_lhs => rw [split]
    exact take_left
  rw [taken]
  exact split

theorem parentPathOf_subtree : pathInSubtree path p = true :=
  pathInSubtree_iff.mpr (.inr ⟨_, parentPathOf_split hit⟩)

theorem parentPathOf_ne_nil : p ≠ [] := by
  unfold parentPathOf at hit
  split at hit
  · cases hit
  rename_i start
  split at hit
  · cases hit
  rename_i inside
  cases hit
  intro empty
  rcases take_eq_nil_iff.mp empty with zero | none
  · exact inside (.inl zero)
  rw [none] at start
  exact start (by simp)

end

/-! ## Mountpoints -/

theorem validComponents_last {rest component : Path}
    (valid : validComponents rest component = true) : rest.getLast? ≠ some slash := by
  induction rest generalizing component with
  | nil => simp
  | cons next rest ih =>
    unfold validComponents at valid
    cases rest with
    | nil =>
      split at valid
      · simp [validComponents] at valid
      next other => simpa using other
    | cons second rest =>
      split at valid
      · exact ih (Bool.and_eq_true_iff.mp valid).2
      · exact ih valid

variable {mount : Path}

theorem validMountpoint_ne_nil (valid : validMountpoint mount = true) : mount ≠ [] := by
  rintro rfl
  cases valid

theorem validMountpoint_last (valid : validMountpoint mount = true) :
    mount.getLast? ≠ some slash := by
  cases mount with
  | nil => simp
  | cons first rest =>
    unfold validMountpoint at valid
    simp only [Bool.and_eq_true, decide_eq_true_eq, beq_iff_eq] at valid
    cases rest with
    | nil => cases valid.2
    | cons second rest =>
      rw [getLast?_cons_cons]
      exact validComponents_last valid.2

theorem appendMountPath_subtree (below : pathInSubtree path b = true)
    (last : b.getLast? ≠ some slash) (name : Path) :
    pathInSubtree (appendMountPath path ++ name) b = true := by
  rw [pathInSubtree_iff] at below ⊢
  right
  unfold appendMountPath
  split
  next ends =>
    rcases below with rfl | ⟨rest, rfl⟩
    · exact absurd ends last
    · exact ⟨rest ++ name, by simp⟩
  rcases below with rfl | ⟨rest, rfl⟩
  · exact ⟨name, by simp⟩
  · exact ⟨rest ++ slash :: name, by simp⟩

end SrvrOS.Exfat
