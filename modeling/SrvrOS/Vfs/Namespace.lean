import SrvrOS.Vfs.Table

/-!
# The namespace view of the virtual file system

`kernel/src/vfs_namespace.c`: a short table of bindings that lets the paths below a source stand
for the paths below a target. A C string is the list of its bytes before the terminator.
-/

namespace SrvrOS.Vfs

open Lib
open Exfat (Path slash pathInSubtree ascii)

/-- `VFS_NAMESPACE_PATH_MAX`, the capacity of a path buffer with its terminator. -/
def vfsNamespacePathMax : Nat := 1024

def vfsNamespaceMaxMappings : Nat := 8

/-- `struct vfs_namespace_mapping`. -/
structure Mapping where
  source : Path
  target : Path
  deriving DecidableEq

/-- `struct vfs_namespace`: the first `count` mappings. -/
abbrev Namespace := List Mapping

/-- A component that is neither empty nor a dot name. -/
def validComponent (component : Path) : Bool :=
  component != [] && component != ascii ['.'] && component != ascii ['.', '.']

/-- The component loop of `canonical`: the component read so far and the rest of the path. -/
def componentsValid : Path → Path → Bool
  | component, [] => validComponent component
  | component, c :: rest =>
    if c = slash then validComponent component && componentsValid [] rest
    else componentsValid (component ++ [c]) rest

def canonical (path : Path) : Bool :=
  path.head? == some slash && decide (path.length < vfsNamespacePathMax) &&
    (path.length == 1 || componentsValid [] path.tail)

def under (path base : Path) : Bool :=
  if base = [slash] then true else pathInSubtree path base

def overlaps (a b : Path) : Bool := under a b || under b a

section Operations

variable {δ : Type} (t : Table δ)

def directory (path : Path) : Bool :=
  match mutableLookup t path with
  | none => false
  | some slot => decide ((t.slots slot).type = .directory)

def parentsAreDirectories (path : Path) : Bool :=
  if path.length = 1 then directory t [slash]
  else
    directory t [slash] && (List.range path.length).all fun i =>
      i == 0 || path[i]? != some slash || directory t (path.take i)

def sourceUnoccupied (source : Path) : Bool :=
  (List.range t.nodeCount).all fun i =>
    let node := t.slots (t.liveSlots i)
    !(node.used && under node.path source)

/-- `vfs_namespace_bind`; a refusal leaves the table as it is. -/
def vfsNamespaceBind (ns : Namespace) (source target : Path) : Bool × Namespace :=
  if vfsNamespaceMaxMappings ≤ ns.length ∨ ¬canonical source ∨ ¬canonical target ∨
      source.length = 1 ∨ overlaps source target ∨ ¬directory t target then (false, ns)
  else if ¬parentsAreDirectories t source ∨ ¬parentsAreDirectories t target ∨
      ¬sourceUnoccupied t source then (false, ns)
  else if ns.any fun m =>
      overlaps source m.source || overlaps source m.target || overlaps target m.source then
    (false, ns)
  else (true, ns ++ [⟨source, target⟩])

/-- The end of `vfs_namespace_resolve`: the result fits and its parents are directories. -/
def finishResolve (resolved : Path) (capacity : Nat) : Option Path :=
  if capacity ≤ resolved.length ∨ ¬parentsAreDirectories t resolved then none else some resolved

def vfsNamespaceResolve (ns : Namespace) (path : Path) (capacity : Nat) : Option Path :=
  if vfsNamespaceMaxMappings < ns.length ∨ capacity = 0 ∨ ¬canonical path then none
  else
    match ns.find? fun m => under path m.source with
    | none => finishResolve t path capacity
    | some m =>
      if ¬parentsAreDirectories t m.source ∨ ¬sourceUnoccupied t m.source ∨
          ¬directory t m.target then none
      else
        let resolved := m.target ++ path.drop m.source.length
        if vfsNamespacePathMax ≤ resolved.length then none
        else finishResolve t resolved capacity

/-- `vfs_namespace_lookup`; a node is known by its slot. -/
def vfsNamespaceLookup (ns : Namespace) (path : Path) : Option Nat :=
  (vfsNamespaceResolve t ns path vfsNamespacePathMax).bind (mutableLookup t)

/-! ## The system view -/

/-- The bindings of `vfs_namespace_system_activate`. -/
def systemBindings : List Mapping :=
  [⟨ascii ['/', 'b', 'i', 'n'], ascii ['/', 'f', 'a', 't', '/', 'b', 'i', 'n']⟩,
    ⟨ascii ['/', 'u', 's', 'r'], ascii ['/', 'f', 'a', 't']⟩,
    ⟨ascii ['/', 'v', 'a', 'r'], ascii ['/', 'f', 'a', 't', '/', 'v', 'a', 'r']⟩,
    ⟨ascii ['/', 'h', 'o', 'm', 'e'], ascii ['/', 'f', 'a', 't', '/', 'h', 'o', 'm', 'e']⟩]

/-- The loop of `vfs_namespace_system_activate` over its candidate table. -/
def activateLoop : List Mapping → Namespace → Option Namespace
  | [], candidate => some candidate
  | m :: rest, candidate =>
    let bound := vfsNamespaceBind t candidate m.source m.target
    if bound.1 then activateLoop rest bound.2 else none

variable (view : Namespace)

/-- `vfs_namespace_system_activate`: all bindings or the old view. -/
def vfsNamespaceSystemActivate : Bool × Namespace :=
  match activateLoop t systemBindings [] with
  | none => (false, view)
  | some candidate => (true, candidate)

def systemRetire (path : Path) : Namespace :=
  view.filter fun m => !(under m.source path || under m.target path)

def systemResolve (path : Path) (capacity : Nat) : Option Path :=
  if view = [] then if path.length < capacity then some path else none
  else vfsNamespaceResolve t view path capacity

/-- What `vfs_namespace_system_path` may answer besides a path. -/
inductive PathError where
  | fault | nameTooLong | noEntry
  deriving DecidableEq, Repr

/-- The length that `vfs_namespace_system_path` expects of the result. -/
def systemResultLength (path : Path) : Nat :=
  match view.find? fun m => under path m.source with
  | none => path.length
  | some m => m.target.length + path.length - m.source.length

def vfsNamespaceSystemPath (path : Path) (capacity : Nat) :
    Except PathError Path :=
  if capacity = 0 then .error .fault
  else if vfsNamespacePathMax ≤ path.length then .error .nameTooLong
  else if vfsNamespacePathMax ≤ systemResultLength view path ∨
      capacity ≤ systemResultLength view path then .error .nameTooLong
  else
    match systemResolve t view path capacity with
    | none => .error .noEntry
    | some resolved => .ok resolved

def vfsNamespaceSystemLookup (path : Path) : Option Nat :=
  match vfsNamespaceSystemPath t view path vfsNamespacePathMax with
  | .error _ => none
  | .ok resolved => mutableLookup t resolved

def systemMappingNode (m : Mapping) : Option Nat :=
  vfsNamespaceLookup t view m.source

/-- What `vfs_namespace_system_list` answers: 1 with an entry, 0 at the end, -1. -/
inductive Listing where
  | entry (path : Path) (slot : Nat)
  | finished
  | failed
  deriving DecidableEq

/-- `list_result`, with the length check of the projected entries. -/
def listResult (path : Path) (slot capacity : Nat) : Listing :=
  if capacity ≤ path.length then .failed else .entry path slot

/-- The inner loop of `vfs_namespace_system_list`: the node with this index among those
below a target, or the index that is left. -/
def listNodes (target : Path) : List Nat → Nat → Nat ⊕ Nat
  | [], index => .inr index
  | slot :: rest, index =>
    if under (t.slots slot).path target then
      match index with
      | 0 => .inl slot
      | index + 1 => listNodes target rest index
    else listNodes target rest index

/-- The outer loop of `vfs_namespace_system_list` over the live bindings. -/
def listMappings (view : Namespace) : List Mapping → Nat → Option (Mapping × Nat)
  | [], _ => none
  | m :: rest, index =>
    if (systemMappingNode t view m).isNone then listMappings view rest index
    else
      match listNodes t m.target (t.liveSlots.read 0 t.nodeCount) index with
      | .inl slot => some (m, slot)
      | .inr index => listMappings view rest index

def vfsNamespaceSystemList (index capacity : Nat) : Listing :=
  if capacity = 0 then .failed
  else if index < t.nodeCount then
    let slot := t.liveSlots index
    listResult (t.slots slot).path slot capacity
  else
    match listMappings t view view (index - t.nodeCount) with
    | none => .finished
    | some (m, slot) =>
      listResult (m.source ++ (t.slots slot).path.drop m.target.length) slot capacity

end Operations

end SrvrOS.Vfs
