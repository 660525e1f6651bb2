import SrvrOS.Vfs.Consistency
import SrvrOS.Vfs.Namespace

/-!
# The namespace view is functional, idempotent and listable

Sources never overlap each other or a target, so a path has at most one binding and a resolved path
has none. Listing projects the nodes below a target back under the source, and lookup goes the
other way.
-/

namespace SrvrOS.Vfs

open Lib List Table
open Exfat (Path slash pathInSubtree ascii)

variable {b suffix : Path} {m : Mapping} {k : Nat}

/-! ## Paths below a base -/

/-- What follows a base in a path below it: nothing, or a separator and more. -/
def Boundary (suffix : Path) : Prop := suffix = [] ∨ ∃ rest, suffix = slash :: rest

variable {path : Path}

theorem under_iff (notRoot : b ≠ [slash]) :
    under path b = true ↔ ∃ suffix, path = b ++ suffix ∧ Boundary suffix := by
  rw [under, if_neg notRoot, pathInSubtree, Bool.and_eq_true, isPrefixOf_iff_prefix]
  constructor
  · rintro ⟨⟨suffix, rfl⟩, boundary⟩
    refine ⟨suffix, rfl, ?_⟩
    cases suffix with
    | nil => exact .inl rfl
    | cons c rest => exact .inr ⟨rest, by simpa using boundary⟩
  · rintro ⟨suffix, rfl, boundary⟩
    rcases boundary with rfl | ⟨rest, rfl⟩ <;> simp

theorem overlaps_of_under {path a b : Path} (aNotRoot : a ≠ [slash]) (bNotRoot : b ≠ [slash])
    (underA : under path a = true) (underB : under path b = true) : overlaps a b = true := by
  obtain ⟨afterA, splitA, boundaryA⟩ := (under_iff aNotRoot).mp underA
  obtain ⟨afterB, splitB, boundaryB⟩ := (under_iff bNotRoot).mp underB
  rw [overlaps, Bool.or_eq_true, under_iff aNotRoot, under_iff bNotRoot]
  have boundaryOf : ∀ {middle rest : Path}, Boundary (middle ++ rest) → Boundary middle := by
    intro middle rest boundary
    cases middle with
    | nil => exact .inl rfl
    | cons c middle =>
      rcases boundary with none | ⟨more, some⟩
      · cases none
      · exact .inr ⟨middle, by simp only [cons_append, cons.injEq] at some; rw [some.1]⟩
  rcases append_eq_append_iff.mp (splitA.symm.trans splitB) with
    ⟨middle, longer, rest⟩ | ⟨middle, longer, rest⟩
  · exact .inr ⟨middle, longer, boundaryOf (rest ▸ boundaryA)⟩
  · exact .inl ⟨middle, longer, boundaryOf (rest ▸ boundaryB)⟩

/-! ## Canonical paths -/

theorem canonical_iff : canonical path = true ↔
    path.head? = some slash ∧ path.length < vfsNamespacePathMax ∧
      (path.length = 1 ∨ componentsValid [] path.tail = true) := by
  simp [canonical, and_assoc]

theorem componentsValid_append (component path rest : Path) :
    componentsValid component (path ++ slash :: rest) =
      (componentsValid component path && componentsValid [] rest) := by
  induction path generalizing component with
  | nil => simp [componentsValid]
  | cons c path ih =>
    simp only [cons_append, componentsValid]
    split
    · rw [ih, Bool.and_assoc]
    · exact ih _

theorem canonical_length_pos (valid : canonical path = true) : path ≠ [] := by
  rintro rfl
  simp [canonical] at valid

theorem canonical_components (valid : canonical path = true)
    (notRoot : path ≠ [slash]) : ∃ body, path = slash :: body ∧ body ≠ [] ∧
      componentsValid [] body = true := by
  obtain ⟨head, -, components⟩ := canonical_iff.mp valid
  cases path with
  | nil => simp at head
  | cons c body =>
    simp only [head?_cons, Option.some.injEq] at head
    subst head
    have more : body ≠ [] := fun none => notRoot (by rw [none])
    refine ⟨body, rfl, more, components.resolve_left fun single => more ?_⟩
    simpa using single

theorem canonical_rebase {other : Path} (boundary : Boundary suffix)
    (baseValid : canonical b = true) (baseNotRoot : b ≠ [slash]) (otherNotRoot : other ≠ [slash])
    (otherNonempty : other ≠ []) (joined : canonical (other ++ suffix) = true)
    (fits : (b ++ suffix).length < vfsNamespacePathMax) : canonical (b ++ suffix) = true := by
  obtain ⟨body, rfl, ne, valid⟩ := canonical_components baseValid baseNotRoot
  rcases boundary with rfl | ⟨rest, rfl⟩
  · rwa [append_nil]
  refine canonical_iff.mpr ⟨rfl, fits, .inr ?_⟩
  simp only [cons_append, tail_cons, componentsValid_append, valid]
  have notRoot : other ++ slash :: rest ≠ [slash] := by
    intro eq
    have := congrArg length eq
    have := length_pos_iff.mpr otherNonempty
    simp at *
    omega
  obtain ⟨joinedBody, split, -, joinedValid⟩ := canonical_components joined notRoot
  cases other with
  | nil => exact absurd rfl otherNonempty
  | cons c other =>
    simp only [cons_append, cons.injEq] at split
    rw [← split.2, componentsValid_append, Bool.and_eq_true] at joinedValid
    exact joinedValid.2

/-! ## Tables of bindings -/

/-- Sources keep away from each other and from every target. -/
structure Separated (ns : Namespace) : Prop where
  count_le : ns.length ≤ vfsNamespaceMaxMappings
  source_canonical : ∀ m ∈ ns, canonical m.source = true
  target_canonical : ∀ m ∈ ns, canonical m.target = true
  source_ne_root : ∀ m ∈ ns, m.source ≠ [slash]
  target_ne_root : ∀ m ∈ ns, m.target ≠ [slash]
  sources : ns.Pairwise fun a b => overlaps a.source b.source = false
  apart : ∀ m ∈ ns, ∀ m' ∈ ns, overlaps m.source m'.target = false

theorem separated_nil : Separated [] := by
  constructor <;> simp

theorem Separated.sublist {ns fewer : Namespace} (separated : Separated ns)
    (sub : fewer.Sublist ns) : Separated fewer where
  count_le := sub.length_le.trans separated.count_le
  source_canonical := fun m mem => separated.source_canonical m (sub.subset mem)
  target_canonical := fun m mem => separated.target_canonical m (sub.subset mem)
  source_ne_root := fun m mem => separated.source_ne_root m (sub.subset mem)
  target_ne_root := fun m mem => separated.target_ne_root m (sub.subset mem)
  sources := separated.sources.sublist sub
  apart := fun m mem m' mem' => separated.apart m (sub.subset mem) m' (sub.subset mem')

theorem overlaps_comm (a b : Path) : overlaps a b = overlaps b a := Bool.or_comm _ _

section Bind

variable {δ : Type} {t : Table δ} {ns : Namespace}

theorem vfsNamespaceBind_separated (separated : Separated ns) {source target : Path} :
    Separated (vfsNamespaceBind t ns source target).2 := by
  unfold vfsNamespaceBind
  split
  · exact separated
  rename_i valid
  split
  · exact separated
  split
  · exact separated
  rename_i clash
  simp only [Bool.not_eq_true, Bool.not_eq_false, not_or, not_le] at valid
  obtain ⟨room, sourceValid, targetValid, notRoot, own, -⟩ := valid
  have sourceNotRoot : source ≠ [slash] := fun root => notRoot (by rw [root]; rfl)
  have targetNotRoot : target ≠ [slash] := by
    rintro rfl
    simp [overlaps, under] at own
  simp only [Bool.or_eq_true, Bool.not_eq_true, not_or, any_eq_false] at clash
  refine
    { count_le := by rw [length_append]; exact room
      source_canonical :=
        forall_mem_append.mpr ⟨separated.source_canonical, by simpa using sourceValid⟩
      target_canonical :=
        forall_mem_append.mpr ⟨separated.target_canonical, by simpa using targetValid⟩
      source_ne_root :=
        forall_mem_append.mpr ⟨separated.source_ne_root, by simpa using sourceNotRoot⟩
      target_ne_root :=
        forall_mem_append.mpr ⟨separated.target_ne_root, by simpa using targetNotRoot⟩
      sources := ?_, apart := ?_ }
  · refine pairwise_append.mpr ⟨separated.sources, pairwise_singleton _ _, ?_⟩
    intro m old m' new
    rw [mem_singleton.mp new, overlaps_comm]
    exact (clash m old).1.1
  intro m mem m' mem'
  rcases mem_append.mp mem with old | new <;> rcases mem_append.mp mem' with old' | new'
  · exact separated.apart m old m' old'
  · rw [mem_singleton.mp new', overlaps_comm]
    exact (clash m old).2
  · rw [mem_singleton.mp new]
    exact (clash m' old').1.2
  · rw [mem_singleton.mp new, mem_singleton.mp new']
    exact own

theorem activateLoop_separated {bindings : List Mapping} {c r : Namespace}
    (separated : Separated c) (done : activateLoop t bindings c = some r) :
    Separated r := by
  induction bindings generalizing c with
  | nil =>
    cases done
    exact separated
  | cons m rest ih =>
    simp only [activateLoop] at done
    split at done
    · exact ih (vfsNamespaceBind_separated separated) done
    · cases done

end Bind

theorem Separated.unique {ns : Namespace} (separated : Separated ns) {i j : Nat}
    {a b : Mapping} (atI : ns[i]? = some a) (atJ : ns[j]? = some b)
    (underA : under path a.source = true) (underB : under path b.source = true) : i = j := by
  have ordered : ∀ {i j : Nat} {a b : Mapping}, ns[i]? = some a → ns[j]? = some b → i < j →
      under path a.source = true → under path b.source = true → False := by
    intro i j a b atI atJ before underA underB
    obtain ⟨iInside, iValue⟩ := List.getElem?_eq_some_iff.mp atI
    obtain ⟨jInside, jValue⟩ := List.getElem?_eq_some_iff.mp atJ
    have away := List.pairwise_iff_getElem.mp separated.sources i j iInside jInside before
    rw [iValue, jValue] at away
    have together := overlaps_of_under
      (separated.source_ne_root a (mem_of_getElem? atI))
      (separated.source_ne_root b (mem_of_getElem? atJ)) underA underB
    rw [away] at together
    cases together
  rcases Nat.lt_trichotomy i j with before | eq | behind
  · exact (ordered atI atJ before underA underB).elim
  · exact eq
  · exact (ordered atJ atI behind underB underA).elim

section Resolve

variable {δ : Type} {t : Table δ} {ns : Namespace} {path resolved : Path} {n : Nat}

/-- No source is above the path. -/
def Uncovered (ns : Namespace) (path : Path) : Prop := ∀ m ∈ ns, under path m.source = false

/-- The checks that a binding has to pass whenever it is used. -/
def Usable (t : Table δ) (m : Mapping) : Prop :=
  parentsAreDirectories t m.source = true ∧ sourceUnoccupied t m.source = true ∧
    directory t m.target = true

theorem find?_eq_none_iff_uncovered :
    (ns.find? fun m => under path m.source) = none ↔ Uncovered ns path := by
  simp [Uncovered]

theorem Separated.find?_eq (separated : Separated ns) (mem : m ∈ ns)
    (covered : under path m.source = true) : (ns.find? fun m => under path m.source) = some m := by
  cases hit : ns.find? fun m => under path m.source with
  | none =>
    have := find?_eq_none_iff_uncovered.mp hit m mem
    simp [covered] at this
  | some other =>
    obtain ⟨i, atI⟩ := getElem?_of_mem mem
    obtain ⟨j, atJ⟩ := getElem?_of_mem (mem_of_find?_eq_some hit)
    have otherCovered := find?_some (p := fun m : Mapping => under path m.source) hit
    have eq := separated.unique atI atJ covered otherCovered
    rw [eq, atJ] at atI
    exact atI

theorem finishResolve_eq_some {raw : Path} : finishResolve t raw n = some resolved ↔
    raw = resolved ∧ raw.length < n ∧ parentsAreDirectories t raw = true := by
  simp only [finishResolve, Option.ite_none_left_eq_some, not_or, not_le, Option.some.injEq]
  tauto

section

variable (separated : Separated ns)

include separated

/-- A resolved path is an uncovered one, or a covered one moved to its target. -/
theorem resolve_cases (done : vfsNamespaceResolve t ns path n = some resolved) :
    canonical path = true ∧ resolved.length < n ∧
      parentsAreDirectories t resolved = true ∧
      ((Uncovered ns path ∧ resolved = path) ∨
        ∃ m ∈ ns, ∃ suffix, path = m.source ++ suffix ∧ Boundary suffix ∧
          resolved = m.target ++ suffix ∧ Usable t m ∧
          resolved.length < vfsNamespacePathMax) := by
  unfold vfsNamespaceResolve at done
  split at done
  · cases done
  rename_i valid
  simp only [Bool.not_eq_true, Bool.not_eq_false, not_or] at valid
  split at done
  · rename_i uncovered
    obtain ⟨rfl, fits, parents⟩ := finishResolve_eq_some.mp done
    exact ⟨valid.2.2, fits, parents, .inl ⟨find?_eq_none_iff_uncovered.mp uncovered, rfl⟩⟩
  rename_i m hit
  have mem := mem_of_find?_eq_some hit
  obtain ⟨suffix, split, boundary⟩ :=
    (under_iff (separated.source_ne_root m mem)).mp
      (find?_some (p := fun m : Mapping => under path m.source) hit)
  split at done
  · cases done
  rename_i usable
  simp only [Bool.not_eq_true, Bool.not_eq_false, not_or] at usable
  subst split
  rw [drop_left] at done
  dsimp only at done
  split at done
  · cases done
  rename_i short
  obtain ⟨rfl, fits, parents⟩ := finishResolve_eq_some.mp done
  exact ⟨valid.2.2, fits, parents,
    Or.inr ⟨m, mem, suffix, rfl, boundary, rfl, usable, not_le.mp short⟩⟩

theorem resolve_uncovered (valid : canonical path = true) (uncovered : Uncovered ns path)
    (fits : path.length < n) (parents : parentsAreDirectories t path = true) :
    vfsNamespaceResolve t ns path n = some path := by
  have count := separated.count_le
  rw [vfsNamespaceResolve, if_neg (by simp [valid]; omega),
    find?_eq_none_iff_uncovered.mpr uncovered]
  exact finishResolve_eq_some.mpr ⟨rfl, fits, parents⟩

theorem resolve_covered (mem : m ∈ ns) (boundary : Boundary suffix)
    (valid : canonical (m.source ++ suffix) = true) (usable : Usable t m)
    (short : (m.target ++ suffix).length < vfsNamespacePathMax)
    (fits : (m.target ++ suffix).length < n)
    (parents : parentsAreDirectories t (m.target ++ suffix) = true) :
    vfsNamespaceResolve t ns (m.source ++ suffix) n = some (m.target ++ suffix) := by
  have count := separated.count_le
  have covered := (under_iff (separated.source_ne_root m mem)).mpr ⟨suffix, rfl, boundary⟩
  rw [vfsNamespaceResolve, if_neg (by simp [valid]; omega), separated.find?_eq mem covered]
  simp only [usable.1, usable.2.1, usable.2.2, drop_left]
  rw [if_neg (not_le.mpr short)]
  exact finishResolve_eq_some.mpr ⟨rfl, fits, parents⟩

theorem Separated.target_uncovered (mem : m ∈ ns)
    (boundary : Boundary suffix) : Uncovered ns (m.target ++ suffix) := by
  intro m' mem'
  by_contra covered
  rw [Bool.not_eq_false] at covered
  have underTarget := (under_iff (separated.target_ne_root m mem)).mpr ⟨suffix, rfl, boundary⟩
  have together := overlaps_of_under (separated.source_ne_root m' mem')
    (separated.target_ne_root m mem) covered underTarget
  rw [separated.apart m' mem' m mem] at together
  cases together

theorem resolve_idempotent (done : vfsNamespaceResolve t ns path n = some resolved) :
    Uncovered ns resolved ∧ vfsNamespaceResolve t ns resolved n = some resolved := by
  obtain ⟨valid, fits, parents, direct | ⟨m, mem, suffix, rfl, boundary, rfl, -, short⟩⟩ :=
    resolve_cases separated done
  · obtain ⟨uncovered, rfl⟩ := direct
    exact ⟨uncovered, resolve_uncovered separated valid uncovered fits parents⟩
  have uncovered := separated.target_uncovered mem boundary
  have moved := canonical_rebase boundary (separated.target_canonical m mem)
      (separated.target_ne_root m mem) (separated.source_ne_root m mem)
      (canonical_length_pos (separated.source_canonical m mem)) valid short
  exact ⟨uncovered, resolve_uncovered separated moved uncovered fits parents⟩

end

end Resolve

/-! ## The system view -/

/-- What changes the system view: an activation over a node table, the retirement of a path
with everything below it, or a reset. -/
inductive SystemEvent (δ : Type) where
  | activate (t : Table δ)
  | retire (path : Path)
  | reset

def systemStep {δ : Type} (view : Namespace) : SystemEvent δ → Bool × Namespace
  | .activate t => vfsNamespaceSystemActivate t view
  | .retire path => (true, systemRetire view path)
  | .reset => (true, [])

/-- A view whose bindings are separated and do not lengthen a listed path. -/
structure SystemView (view : Namespace) : Prop where
  separated : Separated view
  shorter : ∀ m ∈ view, m.source.length ≤ m.target.length

section System

variable {δ : Type} {t : Table δ} {v : Namespace} {path resolved : Path} {n : Nat}

theorem activateLoop_subset {bindings : List Mapping} {c r : Namespace}
    (done : activateLoop t bindings c = some r) :
    ∀ m ∈ r, m ∈ c ∨ m ∈ bindings := by
  induction bindings generalizing c with
  | nil =>
    cases done
    exact fun m mem => .inl mem
  | cons binding rest ih =>
    simp only [activateLoop] at done
    split at done
    · intro m mem
      rcases ih done m mem with old | later
      · have grown : m ∈ c ∨ m = binding := by
          revert old
          unfold vfsNamespaceBind
          split_ifs <;> simp <;> tauto
        refine grown.imp_right fun eq => ?_
        rw [eq]
        exact mem_cons_self
      · exact .inr (mem_cons_of_mem _ later)
    · cases done

theorem systemStep_view (v : Namespace) (event : SystemEvent δ) (kept : SystemView v) :
    SystemView (systemStep v event).2 := by
  cases event with
  | activate t =>
    simp only [systemStep, vfsNamespaceSystemActivate]
    split
    · exact kept
    rename_i c done
    refine ⟨activateLoop_separated separated_nil done, fun m mem => ?_⟩
    have lengths : ∀ m ∈ systemBindings, m.source.length ≤ m.target.length := by decide
    exact lengths m ((activateLoop_subset done m mem).resolve_left (by simp))
  | retire path =>
    exact ⟨kept.separated.sublist filter_sublist,
      fun m mem => kept.shorter m (mem_filter.mp mem).1⟩
  | reset => exact ⟨separated_nil, by simp [systemStep]⟩

theorem systemPath_eq_ok :
    vfsNamespaceSystemPath t v path vfsNamespacePathMax = .ok resolved ↔
      path.length < vfsNamespacePathMax ∧ systemResultLength v path < vfsNamespacePathMax ∧
        systemResolve t v path vfsNamespacePathMax = some resolved := by
  unfold vfsNamespaceSystemPath
  rw [if_neg (by decide)]
  split
  · rename_i long
    simp [not_lt.mpr long]
  rename_i short
  split
  · rename_i long
    simp [not_lt.mpr (long.elim id id)]
  rename_i resultShort
  simp only [not_or, not_le] at short resultShort
  cases systemResolve t v path vfsNamespacePathMax <;> simp [short, resultShort.1]

theorem systemLookup_iff_path :
    vfsNamespaceSystemLookup t v path = some k ↔
      ∃ resolved, vfsNamespaceSystemPath t v path vfsNamespacePathMax = .ok resolved ∧
        mutableLookup t resolved = some k := by
  unfold vfsNamespaceSystemLookup
  cases vfsNamespaceSystemPath t v path vfsNamespacePathMax <;> simp

theorem systemResultLength_eq (separated : Separated v)
    (resolves : vfsNamespaceResolve t v path n = some resolved) :
    systemResultLength v path = resolved.length := by
  obtain ⟨-, -, -, ⟨uncovered, rfl⟩ | ⟨m, mem, suffix, rfl, boundary, rfl, -, -⟩⟩ :=
    resolve_cases separated resolves
  · rw [systemResultLength, find?_eq_none_iff_uncovered.mpr uncovered]
  have covered := (under_iff (separated.source_ne_root m mem)).mpr ⟨suffix, rfl, boundary⟩
  rw [systemResultLength, separated.find?_eq mem covered]
  simp only [length_append]
  omega

/-- A system lookup resolves the path, unless the view is empty, and looks the result up. -/
theorem systemLookup_iff (separated : Separated v) :
    vfsNamespaceSystemLookup t v path = some k ↔
      if v = [] then path.length < vfsNamespacePathMax ∧ mutableLookup t path = some k
      else ∃ resolved, vfsNamespaceResolve t v path vfsNamespacePathMax = some resolved ∧
        mutableLookup t resolved = some k := by
  rw [systemLookup_iff_path]
  simp only [systemPath_eq_ok]
  split
  · rename_i empty
    subst empty
    simp only [systemResolve, if_true]
    constructor
    · rintro ⟨resolved, ⟨short, -, done⟩, hit⟩
      rw [if_pos short, Option.some.injEq] at done
      exact ⟨short, done ▸ hit⟩
    · rintro ⟨short, hit⟩
      exact ⟨path, ⟨short, short, if_pos short⟩, hit⟩
  rename_i some
  simp only [systemResolve, if_neg some]
  constructor
  · rintro ⟨resolved, ⟨-, -, done⟩, hit⟩
    exact ⟨resolved, done, hit⟩
  rintro ⟨resolved, done, hit⟩
  obtain ⟨valid, fits, -, -⟩ := resolve_cases separated done
  refine ⟨resolved, ⟨(canonical_iff.mp valid).2.1, ?_, done⟩, hit⟩
  rwa [systemResultLength_eq separated done]

/-! ## Listing -/

def nodesBelow (t : Table δ) (target : Path) : List Nat :=
  t.live.filter fun slot => under (t.pathAt slot) target

/-- The bindings whose target can be reached through their source. -/
def liveBindings (t : Table δ) (view : Namespace) : List Mapping :=
  view.filter fun m => (systemMappingNode t view m).isSome

/-- The path under which a node below a target is listed. -/
def projectedPath (t : Table δ) (m : Mapping) (slot : Nat) : Path :=
  m.source ++ (t.pathAt slot).drop m.target.length

/-- The entries of the system view in listing order: raw nodes, then projected ones. -/
def systemEntries (t : Table δ) (view : Namespace) : List (Path × Nat) :=
  t.live.map (fun slot => (t.pathAt slot, slot)) ++
    (liveBindings t view).flatMap fun m =>
      (nodesBelow t m.target).map fun slot => (projectedPath t m slot, slot)

theorem listNodes_spec (target : Path) (slots : List Nat) (i : Nat) :
    let below := slots.filter fun k => under (t.pathAt k) target
    listNodes t target slots i =
      match below[i]? with
      | some k => .inl k
      | none => .inr (i - below.length) := by
  induction slots generalizing i with
  | nil => simp [listNodes]
  | cons k rest ih =>
    cases inside : under (t.slots k).path target with
    | false =>
      have skipped : under (t.pathAt k) target = false := inside
      simp only [listNodes, inside, filter_cons, skipped]
      exact ih i
    | true =>
      have taken : under (t.pathAt k) target = true := inside
      simp only [listNodes, inside, filter_cons, taken]
      cases i with
      | zero => simp
      | succ i =>
        have rest := ih i
        simp [rest]

theorem listMappings_spec (bindings : List Mapping) (i : Nat) :
    listMappings t v bindings i =
      ((bindings.filter fun m => (systemMappingNode t v m).isSome).flatMap fun m =>
        (nodesBelow t m.target).map fun k => (m, k))[i]? := by
  induction bindings generalizing i with
  | nil => simp [listMappings]
  | cons m rest ih =>
    unfold listMappings
    split
    · rename_i dead
      have filtered : (systemMappingNode t v m).isSome = false := by simpa using dead
      rw [ih, filter_cons_of_neg (by simp [filtered])]
    rename_i alive
    have kept : (systemMappingNode t v m).isSome = true := by
      simpa [Option.isSome_iff_ne_none] using alive
    rw [filter_cons_of_pos (p := fun m => (systemMappingNode t v m).isSome) kept, flatMap_cons]
    have spec := listNodes_spec (t := t) m.target t.live i
    rw [← live, spec]
    by_cases inside : i < (nodesBelow t m.target).length
    · rw [getElem?_append_left (by simpa using inside)]
      simp only [nodesBelow] at inside
      simp [nodesBelow, getElem?_eq_getElem inside]
    rw [getElem?_append_right (by simpa using inside)]
    simp only [nodesBelow, not_lt] at inside
    simp only [getElem?_eq_none inside, length_map]
    exact ih _

theorem systemList_eq {i : Nat} (buffer : n ≠ 0) :
    vfsNamespaceSystemList t v i n =
      match (systemEntries t v)[i]? with
      | none => .finished
      | some (path, k) => listResult path k n := by
  have rawLength : (t.live.map fun k => (t.pathAt k, k)).length = t.nodeCount := by
    simp [live]
  unfold vfsNamespaceSystemList
  rw [if_neg buffer]
  split
  · rename_i raw
    rw [systemEntries, getElem?_append_left (by rwa [rawLength]), getElem?_map,
      live, Store.read_getElem? raw, zero_add]
    rfl
  rename_i projected
  rw [systemEntries, getElem?_append_right (by rw [rawLength]; exact not_lt.mp projected),
    rawLength, listMappings_spec]
  have image : ((liveBindings t v).flatMap fun m =>
        (nodesBelow t m.target).map fun k => (projectedPath t m k, k)) =
      ((liveBindings t v).flatMap fun m =>
        (nodesBelow t m.target).map fun k => (m, k)).map fun entry =>
          (projectedPath t entry.1 entry.2, entry.2) := by
    simp [map_flatMap, Function.comp_def]
  rw [image, getElem?_map]
  simp only [liveBindings]
  cases ((v.filter fun m => (systemMappingNode t v m).isSome).flatMap fun m =>
    (nodesBelow t m.target).map fun k => (m, k))[i - t.nodeCount]? <;> rfl

theorem directory_lookup {target : Path} (isDirectory : directory t target = true) :
    ∃ k, mutableLookup t target = some k := by
  unfold directory at isDirectory
  split at isDirectory
  · cases isDirectory
  · exact ⟨_, ‹_›⟩

theorem parents_of_append (long : 2 ≤ b.length)
    (parents : parentsAreDirectories t (b ++ suffix) = true) :
    parentsAreDirectories t b = true := by
  have joinedLong : ¬(b ++ suffix).length = 1 := by
    rw [length_append]
    omega
  rw [parentsAreDirectories, if_neg joinedLong, Bool.and_eq_true, all_eq_true] at parents
  rw [parentsAreDirectories, if_neg (by omega), Bool.and_eq_true, all_eq_true]
  refine ⟨parents.1, fun i inside => ?_⟩
  rw [mem_range] at inside
  have above := parents.2 i (mem_range.mpr (by rw [length_append]; omega))
  rwa [getElem?_append_left inside, take_append_of_le_length (by omega)] at above

theorem canonical_long (valid : canonical path = true) (notRoot : path ≠ [slash]) :
    2 ≤ path.length := by
  obtain ⟨body, rfl, ne, -⟩ := canonical_components valid notRoot
  have := length_pos_iff.mpr ne
  simp only [length_cons]
  omega

section

variable (separated : Separated v)

include separated

theorem usable_of_mappingNode (mem : m ∈ v)
    (hit : (systemMappingNode t v m).isSome = true) : Usable t m := by
  obtain ⟨k, hit⟩ := Option.isSome_iff_exists.mp hit
  obtain ⟨resolved, resolves, -⟩ := Option.bind_eq_some_iff.mp hit
  obtain ⟨-, -, -, moved⟩ := resolve_cases separated resolves
  have covered :=
    (under_iff (separated.source_ne_root m mem)).mpr ⟨[], (append_nil _).symm, .inl rfl⟩
  rcases moved with ⟨uncovered, -⟩ | ⟨m', mem', suffix, split, boundary, rfl, usable, -⟩
  · simp [uncovered m mem] at covered
  have covered' := (under_iff (separated.source_ne_root m' mem')).mpr ⟨suffix, split, boundary⟩
  have first := separated.find?_eq mem covered
  rw [separated.find?_eq mem' covered'] at first
  exact Option.some.inj first ▸ usable

theorem mappingNode_isSome (mem : m ∈ v) (usable : Usable t m)
    (parents : parentsAreDirectories t m.target = true) :
    (systemMappingNode t v m).isSome = true := by
  have self : m.source ++ [] = m.source := append_nil _
  have targetShort := (canonical_iff.mp (separated.target_canonical m mem)).2.1
  have resolves := resolve_covered separated mem (.inl rfl)
    (by rw [self]; exact separated.source_canonical m mem) usable
    (by rwa [append_nil]) (by rwa [append_nil]) (by rwa [append_nil])
  rw [append_nil] at resolves
  obtain ⟨k, hit⟩ := directory_lookup usable.2.2
  simp [systemMappingNode, vfsNamespaceLookup, resolves, hit]

theorem nodesBelow_split (mem : m ∈ v) (below : k ∈ nodesBelow t m.target) :
    k ∈ t.live ∧ ∃ suffix, Boundary suffix ∧ t.pathAt k = m.target ++ suffix ∧
      projectedPath t m k = m.source ++ suffix := by
  obtain ⟨live, isBelow⟩ := mem_filter.mp below
  obtain ⟨suffix, split, boundary⟩ := (under_iff (separated.target_ne_root m mem)).mp isBelow
  exact ⟨live, suffix, boundary, split, by rw [projectedPath, split, drop_left]⟩

end

theorem mem_systemEntries : (path, k) ∈ systemEntries t v ↔
    (k ∈ t.live ∧ t.pathAt k = path) ∨
      ∃ m ∈ liveBindings t v, k ∈ nodesBelow t m.target ∧ projectedPath t m k = path := by
  simp only [systemEntries, mem_append, mem_map, mem_flatMap, Prod.mk.injEq]
  constructor
  · rintro (⟨s, live, rfl, rfl⟩ | ⟨m, alive, s, below, rfl, rfl⟩)
    · exact .inl ⟨live, rfl⟩
    · exact .inr ⟨m, alive, below, rfl⟩
  rintro (⟨live, eq⟩ | ⟨m, alive, below, eq⟩)
  · exact .inl ⟨k, live, eq, rfl⟩
  · exact .inr ⟨m, alive, k, below, eq, rfl⟩

section

variable (consistent : Consistent t) (s : SystemView v)

include consistent s

theorem systemLookup_of_mem (valid : canonical (t.pathAt k) = true)
    (parents : parentsAreDirectories t (t.pathAt k) = true)
    (unbound : Uncovered v (t.pathAt k))
    (listed : (path, k) ∈ systemEntries t v) : vfsNamespaceSystemLookup t v path = some k := by
  have separated := s.separated
  rw [systemLookup_iff separated]
  rcases mem_systemEntries.mp listed with ⟨live, rfl⟩ | ⟨m, alive, below, projected⟩
  · have hit := mutableLookup_pathAt consistent ((consistent.live_iff k).mp live)
    have short := (canonical_iff.mp valid).2.1
    split
    · exact ⟨short, hit⟩
    exact ⟨_, resolve_uncovered separated valid unbound short parents, hit⟩
  obtain ⟨mem, reachable⟩ := mem_filter.mp alive
  have usable := usable_of_mappingNode separated mem reachable
  obtain ⟨live, suffix, boundary, split, source⟩ := nodesBelow_split separated mem below
  rw [source] at projected
  subst projected
  have hit := mutableLookup_pathAt consistent ((consistent.live_iff k).mp live)
  rw [split] at valid parents hit
  have short := (canonical_iff.mp valid).2.1
  have ne := ne_nil_of_mem mem
  rw [if_neg ne]
  have shorter := s.shorter m mem
  have listedValid := canonical_rebase boundary (separated.source_canonical m mem)
      (separated.source_ne_root m mem) (separated.target_ne_root m mem)
      (canonical_length_pos (separated.target_canonical m mem)) valid
      (by simp only [length_append] at short ⊢; omega)
  exact ⟨_, resolve_covered separated mem boundary listedValid usable short short parents,
    hit⟩

theorem mem_of_systemLookup (hit : vfsNamespaceSystemLookup t v path = some k) :
    (path, k) ∈ systemEntries t v := by
  have separated := s.separated
  rw [systemLookup_iff separated] at hit
  rw [mem_systemEntries]
  split at hit
  · obtain ⟨used, eq⟩ := mutableLookup_some hit.2
    exact .inl ⟨(consistent.live_iff k).mpr used, eq⟩
  obtain ⟨resolved, resolves, hit⟩ := hit
  obtain ⟨used, eq⟩ := mutableLookup_some hit
  have live := (consistent.live_iff k).mpr used
  obtain ⟨-, -, parents, moved⟩ := resolve_cases separated resolves
  rcases moved with ⟨-, rfl⟩ | ⟨m, mem, suffix, rfl, boundary, rfl, usable, -⟩
  · exact .inl ⟨live, eq⟩
  have targetLong := canonical_long (separated.target_canonical m mem)
    (separated.target_ne_root m mem)
  have alive : m ∈ liveBindings t v :=
    mem_filter.mpr ⟨mem, mappingNode_isSome separated mem usable
      (parents_of_append targetLong parents)⟩
  have below : k ∈ nodesBelow t m.target :=
    mem_filter.mpr ⟨live, (under_iff (separated.target_ne_root m mem)).mpr
      ⟨suffix, eq, boundary⟩⟩
  exact .inr ⟨m, alive, below, by rw [projectedPath, eq, drop_left]⟩

theorem systemEntries_nodup (unbound : ∀ k ∈ t.live, Uncovered v (t.pathAt k)) :
    ((systemEntries t v).map Prod.fst).Nodup := by
  have separated := s.separated
  have liveNodup : t.live.Nodup := consistent.increasing.imp ne_of_lt
  have samePath : ∀ i ∈ t.live, ∀ j ∈ t.live, t.pathAt i = t.pathAt j → i = j :=
    fun i iLive j jLive =>
      consistent.paths i j ((consistent.live_iff i).mp iLive) ((consistent.live_iff j).mp jLive)
  have raw := liveNodup.map_on samePath
  have below : ∀ m ∈ liveBindings t v, ∀ k ∈ nodesBelow t m.target,
      under (projectedPath t m k) m.source = true := by
    intro m alive k inside
    have mem := (mem_filter.mp alive).1
    obtain ⟨-, suffix, boundary, -, source⟩ := nodesBelow_split separated mem inside
    exact (under_iff (separated.source_ne_root m mem)).mpr ⟨suffix, source, boundary⟩
  have projected : ((liveBindings t v).flatMap fun m =>
      (nodesBelow t m.target).map (projectedPath t m)).Nodup := by
    rw [nodup_flatMap]
    constructor
    · intro m alive
      have mem := (mem_filter.mp alive).1
      refine (liveNodup.filter _).map_on fun i iBelow j jBelow eq => ?_
      obtain ⟨iLive, iSuffix, -, iSplit, iSource⟩ := nodesBelow_split separated mem iBelow
      obtain ⟨jLive, jSuffix, -, jSplit, jSource⟩ := nodesBelow_split separated mem jBelow
      rw [iSource, jSource] at eq
      refine samePath i iLive j jLive ?_
      rw [iSplit, jSplit, append_cancel_left eq]
    have apart := separated.sources.sublist (filter_sublist (l := v)
      (p := fun m => (systemMappingNode t v m).isSome))
    refine apart.imp_of_mem fun {a b} aAlive bAlive away => ?_
    intro path inA inB
    obtain ⟨i, iBelow, rfl⟩ := mem_map.mp inA
    obtain ⟨j, jBelow, eq⟩ := mem_map.mp inB
    have underA := below a aAlive i iBelow
    have underB := below b bAlive j jBelow
    rw [eq] at underB
    have together := overlaps_of_under
      (separated.source_ne_root a (mem_filter.mp aAlive).1)
      (separated.source_ne_root b (mem_filter.mp bAlive).1) underA underB
    rw [away] at together
    cases together
  have image : (systemEntries t v).map Prod.fst = t.live.map t.pathAt ++
      (liveBindings t v).flatMap fun m => (nodesBelow t m.target).map (projectedPath t m) := by
    simp [systemEntries, map_flatMap, Function.comp_def]
  rw [image]
  refine nodup_append.mpr ⟨raw, projected, ?_⟩
  rintro path inRaw other inProjected rfl
  obtain ⟨k, live, rfl⟩ := mem_map.mp inRaw
  obtain ⟨m, alive, inM⟩ := mem_flatMap.mp inProjected
  obtain ⟨j, jBelow, eq⟩ := mem_map.mp inM
  have covered := below m alive j jBelow
  rw [eq, unbound k live m (mem_filter.mp alive).1] at covered
  cases covered

theorem systemEntries_index_unique
    (unbound : ∀ k ∈ t.live, Uncovered v (t.pathAt k))
    {i j k' : Nat} (atI : (systemEntries t v)[i]? = some (path, k))
    (atJ : (systemEntries t v)[j]? = some (path, k')) : i = j := by
  have nodup := systemEntries_nodup consistent s unbound
  have iPath : ((systemEntries t v).map Prod.fst)[i]? = some path := by simp [atI]
  have jPath : ((systemEntries t v).map Prod.fst)[j]? = some path := by simp [atJ]
  obtain ⟨iInside, iValue⟩ := List.getElem?_eq_some_iff.mp iPath
  obtain ⟨jInside, jValue⟩ := List.getElem?_eq_some_iff.mp jPath
  exact (nodup.getElem_inj_iff).mp (iValue.trans jValue.symm)

end

theorem systemList_entry_iff {i n : Nat} :
    vfsNamespaceSystemList t v i n = .entry path k ↔
      (systemEntries t v)[i]? = some (path, k) ∧ path.length < n := by
  by_cases buffer : n = 0
  · simp [vfsNamespaceSystemList, buffer]
  rw [systemList_eq buffer]
  cases entry : (systemEntries t v)[i]? with
  | none => simp
  | some pair =>
    obtain ⟨listed, node⟩ := pair
    simp only [listResult, Option.some.injEq, Prod.mk.injEq]
    split
    · rename_i long
      simp only [reduceCtorEq, false_iff, not_and, not_lt]
      rintro ⟨rfl, rfl⟩
      exact long
    rename_i short
    simp only [Listing.entry.injEq]
    constructor
    · rintro ⟨rfl, rfl⟩
      exact ⟨⟨rfl, rfl⟩, not_le.mp short⟩
    · exact fun eq => eq.1

end System

/-- The bindings after any attempts, each over some node table. -/
def boundBy {δ : Type} (binds : List (Table δ × Path × Path)) : Namespace :=
  binds.foldl (fun ns bind => (vfsNamespaceBind bind.1 ns bind.2.1 bind.2.2).2) []

theorem boundBy_separated {δ : Type} (binds : List (Table δ × Path × Path)) :
    Separated (boundBy binds) := by
  suffices general : ∀ ns, Separated ns → Separated
      (binds.foldl (fun ns bind => (vfsNamespaceBind bind.1 ns bind.2.1 bind.2.2).2) ns) from
    general [] separated_nil
  induction binds with
  | nil => exact fun ns separated => separated
  | cons bind rest ih =>
    exact fun ns separated => ih _ (vfsNamespaceBind_separated separated)

/-- The system view after any activations, retirements and resets. -/
def systemViewAfter {δ : Type} (events : List (SystemEvent δ)) : Namespace :=
  (run systemStep [] events).2

def tableAfter {δ : Type} (calls : List (Env × Call δ)) : Table δ :=
  (run step (boot δ) calls).2

/-- After any bindings at most one source is above a path, and a resolved path is below no
source and resolves to itself. In the system view a listed path looks up to the node listed with
it if this node has a canonical path, directories above it and no bound source above it. If no node
has a bound source above it, every path that looks up to a node is listed at exactly one index. -/
theorem namespace_functional_listable {δ : Type} (binds : List (Table δ × Path × Path))
    (events : List (SystemEvent δ)) (calls : List (Env × Call δ)) :
    let ns := boundBy binds
    let view := systemViewAfter events
    let t := tableAfter calls
    ((∀ path (i j : Nat) (a b : Mapping), canonical path = true → ns[i]? = some a →
        ns[j]? = some b → under path a.source = true → under path b.source = true → i = j) ∧
      ∀ (raw : Table δ) path capacity resolved,
        vfsNamespaceResolve raw ns path capacity = some resolved →
          (∀ m ∈ ns, under resolved m.source = false) ∧
            vfsNamespaceResolve raw ns resolved capacity = some resolved) ∧
    (∀ index capacity path slot, canonical (t.pathAt slot) = true →
      parentsAreDirectories t (t.pathAt slot) = true → Uncovered view (t.pathAt slot) →
        vfsNamespaceSystemList t view index capacity = .entry path slot →
          vfsNamespaceSystemLookup t view path = some slot) ∧
    ((∀ slot ∈ t.live, Uncovered view (t.pathAt slot)) →
      ∀ path slot, vfsNamespaceSystemLookup t view path = some slot →
        ∃ index,
          (∀ capacity, vfsNamespacePathMax ≤ capacity →
            vfsNamespaceSystemList t view index capacity = .entry path slot) ∧
          ∀ other capacity node,
            vfsNamespaceSystemList t view other capacity = .entry path node → other = index) := by
  intro ns view t
  have separated := boundBy_separated binds
  have consistent := run_invariant step Consistent step_consistent consistent_boot calls
  have system := run_invariant systemStep SystemView systemStep_view ⟨separated_nil, by simp⟩ events
  refine ⟨⟨fun path i j a b _ => separated.unique, fun raw path capacity resolved =>
    resolve_idempotent separated⟩, fun index capacity path slot valid parents unbound listed => ?_,
    fun unbound path slot found => ?_⟩
  · exact systemLookup_of_mem consistent system valid parents unbound
      (mem_of_getElem? (systemList_entry_iff.mp listed).1)
  obtain ⟨index, atIndex⟩ := getElem?_of_mem (mem_of_systemLookup consistent system found)
  have short := (systemPath_eq_ok.mp (systemLookup_iff_path.mp found).choose_spec.1).1
  refine ⟨index, fun capacity large => ?_, fun other capacity node listed => ?_⟩
  · exact systemList_entry_iff.mpr ⟨atIndex, short.trans_le large⟩
  exact systemEntries_index_unique consistent system unbound
    (systemList_entry_iff.mp listed).1 atIndex

/-- The mount points that the system view binds, registered as directories. -/
def sampleCalls : List (Env × Call Unit) :=
  [['/'], ['/', 'f', 'a', 't'], ['/', 'f', 'a', 't', '/', 'b', 'i', 'n'],
    ['/', 'f', 'a', 't', '/', 'v', 'a', 'r'], ['/', 'f', 'a', 't', '/', 'h', 'o', 'm', 'e']].map
      fun path => (⟨0, 0, true⟩, .registerDirectory (ascii path) none)

/-- The system view over the bound mount points. -/
theorem namespace_functional_listable_sample :
    let view := systemViewAfter [.activate (tableAfter sampleCalls)]
    let t := tableAfter sampleCalls
    view = systemBindings ∧
      (∀ index capacity path, ∀ slot ∈ t.live,
        vfsNamespaceSystemList t view index capacity = .entry path slot →
          vfsNamespaceSystemLookup t view path = some slot) ∧
      ∀ path slot, vfsNamespaceSystemLookup t view path = some slot →
        ∃ index, vfsNamespaceSystemList t view index vfsNamespacePathMax = .entry path slot := by
  intro view t
  have conditions : ∀ slot ∈ t.live, canonical (t.pathAt slot) = true ∧
      parentsAreDirectories t (t.pathAt slot) = true ∧
      Uncovered view (t.pathAt slot) := by
    simp only [Uncovered]
    decide +kernel
  obtain ⟨-, looksUp, isListed⟩ :=
    namespace_functional_listable [] [.activate (tableAfter sampleCalls)] sampleCalls
  refine ⟨by decide +kernel, fun index capacity path slot live => ?_, fun path slot found => ?_⟩
  · obtain ⟨valid, parents, unbound⟩ := conditions slot live
    exact looksUp index capacity path slot valid parents unbound
  obtain ⟨index, listed, -⟩ :=
    isListed (fun slot live => (conditions slot live).2.2) path slot found
  exact ⟨index, listed _ le_rfl⟩

/-- A directory registered as `/.` is listed, but the view refuses to look it up. -/
theorem namespace_lists_dot_without_lookup :
    let view := systemViewAfter [.activate (tableAfter sampleCalls)]
    let t := tableAfter
      (sampleCalls ++ [(⟨0, 0, true⟩, .registerDirectory (ascii ['/', '.']) none)])
    (∀ slot ∈ t.live, parentsAreDirectories t (t.pathAt slot) = true ∧
        ∀ m ∈ view, under (t.pathAt slot) m.source = false) ∧
      vfsNamespaceSystemList t view 5 vfsNamespacePathMax = .entry (ascii ['/', '.']) 5 ∧
      vfsNamespaceSystemLookup t view (ascii ['/', '.']) = none := by
  decide +kernel

end SrvrOS.Vfs
