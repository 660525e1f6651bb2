import SrvrOS.Files.Ledger

/-!
# The collector of records

A record can be redeemed if its pipe can be read: an entry for its reading end is in a descriptor
table or can itself be redeemed. The collector finds the references from outside by subtracting
those on their way, and retires the records that cannot be redeemed.
-/

namespace SrvrOS.Files

open Lib Function List Pipe Table Holder

variable {holder : Holder}

instance : Fintype Holder :=
  .ofEquiv (PipeId ⊕ ListenerId)
    { toFun := Sum.elim pipe listener
      invFun := fun holder => match holder with
        | .pipe id => .inl id
        | .listener id => .inr id
      left_inv := by rintro (id | id) <;> rfl
      right_inv := by rintro (id | id) <;> rfl }

variable {holder : Holder}

theorem Holder.mem_all : holder ∈ all := by
  cases holder <;> simp [all]

/-- The end that the references to a holder are counted at. -/
def Holder.target : Holder → Target
  | .pipe id => .reader id
  | .listener id => .listener id

theorem Entry.count_holder (e : Entry) :
    e.targets.count holder.target = if e.holder = some holder then 1 else 0 := by
  cases e <;> cases holder <;> simp [Entry.targets, Entry.holder, target, count_cons]

theorem count_holders {entries : List Entry} :
    (entries.filterMap Entry.holder).count holder =
      (entries.flatMap Entry.targets).count holder.target := by
  induction entries with
  | nil => rfl
  | cons e rest ih =>
    rw [flatMap_cons, count_append, e.count_holder, filterMap_cons, ← ih]
    cases hit : e.holder with
    | none => simp
    | some j =>
      rw [count_cons, add_comm]
      by_cases here : j = holder <;> simp [here]

theorem flatMap_filter {α β : Type} {keep : α → Bool} {image : α → List β} {list : List α}
    (empty : ∀ element, keep element = false → image element = []) :
    (list.filter keep).flatMap image = list.flatMap image := by
  induction list with
  | nil => rfl
  | cons first rest ih =>
    cases kept : keep first with
    | true => simp [kept, ih]
    | false => simp [kept, ih, empty first kept]

namespace System

variable {s new last : System} {loose : List Target} {holder next : Holder}

/-! ## What can be redeemed -/

/-- The holders that a process can come to read from. -/
inductive Reachable (system : System) : Holder → Prop
  /-- A descriptor table has an entry for it. -/
  | table {proc : ProcId} {fd : Fd} {file : File} {holder : Holder}
      (found : system.tables proc fd = some file) (names : file.entry.holder = some holder) :
      Reachable system holder
  /-- An entry for it is on its way in a holder that can be reached. -/
  | held {holder next : Holder} {entry : Entry} (reached : Reachable system holder)
      (member : entry ∈ system.held holder) (names : entry.holder = some next) :
      Reachable system next

def heldTargets (system : System) : Holder → List Target
  | .pipe id => (system.pipes id).targets
  | .listener id => (system.listeners id).targets

theorem held_targets : (s.held holder).flatMap Entry.targets = s.heldTargets holder := by
  cases holder with
  | pipe id =>
    simp [held, heldTargets, targets, filesTargets, flatMap_assoc, flatMap_map]
  | listener id => simp [held, heldTargets, Listener.targets, flatMap_map]

theorem count_edges (s : System) :
    (s.graph.edges holder).count next = (s.heldTargets holder).count next.target := by
  rw [← held_targets]
  exact count_holders

variable {holder : Holder}

theorem Ledger.held_dead (ledger : s.Ledger loose)
    (dead : s.alive holder = false) : s.held holder = [] := by
  cases holder with
  | pipe id => simp [held, ((ledger.pipeFree id).mp dead).2]
  | listener id => simp [held, ledger.listenerEmpty id dead]

def outside (system : System) (target : Target) : Nat :=
  total (total fun file => (targetsOf file).count target) system.tables

theorem Ledger.inflight_eq (ledger : s.Ledger loose) :
    s.named holder.target = s.outside holder.target + s.inflight holder := by
  have alive : (all.filter s.alive).flatMap s.graph.edges =
      all.flatMap s.graph.edges :=
    flatMap_filter fun j dead => by simp [graph, ledger.held_dead dead]
  have edges : (count holder ∘ s.graph.edges) =
      fun j => (s.heldTargets j).count holder.target :=
    funext fun j => s.count_edges
  rw [inflight, alive, count_flatMap, edges, Holder.all, map_append, sum_append, named, add_assoc]
  rfl

theorem refs_target (s : System) : s.refs holder.target = s.holderRefs holder := by
  cases holder <;> rfl

theorem Ledger.alive_of_refs (ledger : s.Ledger loose)
    (pos : s.holderRefs holder ≠ 0) : s.alive holder = true := by
  cases holder with
  | pipe id =>
    have sum := ledger.sum id
    have pos : (s.pipes id).readRefs ≠ 0 := pos
    exact ledger.pipe_used (by omega)
  | listener id =>
    simp only [alive]
    cases used : (s.listeners id).used with
    | true => rfl
    | false => exact absurd ((ledger.listenerFree id).mp used) pos

theorem Ledger.roots_iff (ledger : s.Ledger []) :
    s.roots holder = true ↔
      ∃ proc fd file, s.tables proc fd = some file ∧ file.entry.holder = some holder := by
  have counted := ledger.counted holder.target
  rw [s.refs_target, ledger.inflight_eq, count_nil] at counted
  have outside : s.roots holder = true ↔ s.outside holder.target ≠ 0 := by
    simp only [roots, Bool.and_eq_true, decide_eq_true_eq]
    constructor
    · rintro ⟨-, more⟩
      omega
    · intro more
      exact ⟨ledger.alive_of_refs (by omega), by omega⟩
  rw [outside, System.outside, Ne]
  simp only [total_eq_zero, not_forall]
  refine exists_congr fun proc => exists_congr fun fd => ?_
  cases hit : s.tables proc fd with
  | none => simp [targetsOf]
  | some file => simp [targetsOf, file.entry.count_holder]

theorem Ledger.refs_of_held (ledger : s.Ledger loose) {e : Entry}
    (mem : e ∈ s.held holder) (names : e.holder = some next) :
    s.holderRefs next ≠ 0 := by
  have inside : next.target ∈ s.heldTargets holder := by
    rw [← held_targets]
    refine mem_flatMap.mpr ⟨e, mem, count_pos_iff.mp ?_⟩
    rw [e.count_holder, if_pos names]
    exact Nat.one_pos
  have some : (s.heldTargets holder).count next.target ≤ s.named next.target := by
    cases holder with
    | pipe id =>
      have one := le_total (fun pipe : Pipe File => pipe.targets.count next.target)
        s.pipes id
      simp only [named, heldTargets]
      omega
    | listener id =>
      have one := le_total (fun listener : Listener => listener.targets.count next.target)
        s.listeners id
      simp only [named, heldTargets]
      omega
  have counted := ledger.counted next.target
  rw [s.refs_target] at counted
  have pos := count_pos_iff.mpr inside
  omega

section

variable (ledger : s.Ledger [])

include ledger

theorem Ledger.refs_of_reachable (reachable : s.Reachable holder) : s.holderRefs holder ≠ 0 := by
  cases reachable with
  | table hit names =>
    have root := ledger.roots_iff.mpr ⟨_, _, _, hit, names⟩
    simp only [roots, Bool.and_eq_true, decide_eq_true_eq] at root
    omega
  | held _ mem names => exact ledger.refs_of_held mem names

theorem Ledger.reached_iff : s.graph.Reached s.roots holder ↔ s.Reachable holder := by
  constructor
  · rintro ⟨root, marked, path⟩
    induction path with
    | refl =>
      obtain ⟨proc, fd, file, hit, names⟩ := ledger.roots_iff.mp marked
      exact .table hit names
    | tail _ edge ih =>
      obtain ⟨e, mem, names⟩ := mem_filterMap.mp edge.1
      exact .held ih mem names
  intro reachable
  induction reachable with
  | table hit names => exact .root (ledger.roots_iff.mpr ⟨_, _, _, hit, names⟩)
  | held _ mem names ih =>
    exact ih.next ⟨mem_filterMap.mpr ⟨_, mem, names⟩,
      ledger.alive_of_refs (ledger.refs_of_held mem names)⟩

theorem Ledger.mark :
    ∃ marks, s.mark = some marks ∧
      ∀ holder, marks holder = true ↔ s.Reachable holder := by
  unfold System.mark
  have every (holder : Holder) : holder ∈ s.graph.order := mem_all
  obtain ⟨marks, ended, reached⟩ := Graph.spread_spec every
  exact ⟨marks, ended, fun holder => (reached holder).trans ledger.reached_iff⟩

end

/-! ## What the collector takes away -/

/-- Records that cannot be redeemed have gone, and nothing else. -/
structure Pruned (system after : System) : Prop where
  ledger : after.Ledger []
  tables : after.tables = system.tables
  kept : ∀ id, system.Reachable (.pipe id) → (after.pipes id).queued = (system.pipes id).queued
  fewer : ∀ holder entry, entry ∈ after.held holder → entry ∈ system.held holder
  listeners : ∀ id, (after.listeners id).used = true →
    (system.listeners id).used = true ∧ (after.listeners id).queue = (system.listeners id).queue

theorem Pruned.reachable (pruned : s.Pruned new) {holder : Holder} :
    new.Reachable holder ↔ s.Reachable holder := by
  constructor
  · intro reachable
    induction reachable with
    | table hit names => exact .table (pruned.tables ▸ hit) names
    | held _ mem names ih => exact .held ih (pruned.fewer _ _ mem) names
  intro reachable
  induction reachable with
  | table hit names => exact .table (pruned.tables.symm ▸ hit) names
  | @held holder next e reached mem names ih =>
    refine .held ih ?_ names
    cases holder with
    | pipe id =>
      simp only [held] at mem ⊢
      rwa [pruned.kept id reached]
    | listener id =>
      have used := pruned.ledger.alive_of_refs (pruned.ledger.refs_of_reachable ih)
      simp only [held, Listener.pending] at mem ⊢
      rwa [(pruned.listeners id used).2]

theorem Pruned.trans (first : s.Pruned new) (second : new.Pruned last) : s.Pruned last where
  ledger := second.ledger
  tables := second.tables.trans first.tables
  kept := fun id reachable =>
    (second.kept id (first.reachable.mpr reachable)).trans (first.kept id reachable)
  fewer := fun holder e mem => first.fewer holder e (second.fewer holder e mem)
  listeners := fun id used =>
    have middle := second.listeners id used
    have start := first.listeners id middle.1
    ⟨start.1, middle.2.trans start.2⟩

theorem Ledger.pruned_flags (ledger : s.Ledger []) (present collecting : Bool) :
    s.Pruned { s with present := present, collecting := collecting } :=
  ⟨{ ledger with }, rfl, fun _ _ => rfl, fun holder _ mem => by cases holder <;> exact mem,
    fun _ used => ⟨used, rfl⟩⟩

/-! ## One record -/

section Retire

variable {id : PipeId} {r : Rights File} {rest : List (Rights File)}
  (ledger : s.Ledger loose) (q : (s.pipes id).queued = r :: rest)
include ledger q

theorem retire_keeps : (s.setPipe id ((s.pipes id).shiftRights 1).settle).Keeps (s.retire id) := by
  rw [retire_eq (ledger.packed id) q]
  exact releaseFiles_keeps _

theorem retire_queued (j : PipeId) :
    ((s.retire id).pipes j).queued =
      if j = id then rest else (s.pipes j).queued := by
  rw [queued_stream ((retire_keeps ledger q).streams j)]
  by_cases here : j = id
  · subst here
    have here : (s.setPipe j ((s.pipes j).shiftRights 1).settle).pipes j =
        ((s.pipes j).shiftRights 1).settle := by
      simp [System.setPipe]
    rw [if_pos rfl, here, queued_stream (stream_settle _)]
    exact ((ledger.packed j).retired q).1
  · simp [System.setPipe, here]

theorem retire_steady : s.Steady (s.retire id) := by
  have keeps := retire_keeps ledger q
  exact ⟨keeps.live, keeps.pids, keeps.tables, keeps.locks, keeps.waits,
    keeps.collector, keeps.contents⟩

end Retire

variable {id id : PipeId} {rest : List (Rights File)} {marks : Holder → Bool} {r : Rights File}

theorem Ledger.retire_pruned (ledger : s.Ledger []) (q : (s.pipes id).queued = r :: rest)
    (unreached : ¬ s.Reachable (.pipe id)) : s.Pruned (s.retire id) := by
  have keeps := retire_keeps ledger q
  have queued := retire_queued ledger q
  have ledger' := ledger.retire q
  refine ⟨ledger', keeps.tables, fun j reachable => ?_, fun holder e mem => ?_,
    keeps.listeners⟩
  · rw [queued, if_neg]
    rintro rfl
    exact unreached reachable
  cases holder with
  | pipe j =>
    simp only [held, queued] at mem ⊢
    by_cases here : j = id
    · subst here
      rw [if_pos rfl] at mem
      rw [q]
      exact mem_append_right _ mem
    · rwa [if_neg here] at mem
  | listener j =>
    have used : ((s.retire id).listeners j).used = true := by
      cases used : ((s.retire id).listeners j).used with
      | true => rfl
      | false => simp [held, ledger'.listenerEmpty j used] at mem
    have same : ((s.retire id).listeners j).queue = (s.listeners j).queue :=
      (keeps.listeners j used).2
    simpa only [held, Listener.pending, same] using mem

/-! ## The loop -/

def records (system : System) : Nat :=
  total (fun pipe : Pipe File => pipe.queued.length) system.pipes

theorem records_le : s.records ≤ 512 := total_le (fun pipe => pipe.queued_short) s.pipes

theorem retire_records (ledger : s.Ledger loose) (q : (s.pipes id).queued = r :: rest) :
    (s.retire id).records + 1 = s.records := by
  have queued := retire_queued ledger q
  have new : (s.retire id).records = total (fun pipe : Pipe File => pipe.queued.length)
      (update s.pipes id ((s.retire id).pipes id)) := by
    refine total_congr fun j => ?_
    by_cases here : j = id
    · subst here
      rw [update_self]
    · rw [update_of_ne here, queued, if_neg here]
  have moved := total_update (fun pipe : Pipe File => pipe.queued.length) s.pipes id
    ((s.retire id).pipes id)
  rw [queued, if_pos rfl, q, length_cons] at moved
  rw [new, records]
  omega

theorem unreachable_some (packed : (s.pipes id).Packed) (hit : s.unreachable marks = some id) :
    marks (.pipe id) = false ∧ ∃ r rest, (s.pipes id).queued = r :: rest := by
  unfold unreachable at hit
  have holds := Fin.eq_true_of_find?_eq_some hit
  simp only [Bool.and_eq_true, Bool.not_eq_true'] at holds
  refine ⟨holds.1.2, exists_cons_of_ne_nil fun empty => ?_⟩
  rw [packed 0, empty] at holds
  simp at holds

theorem Ledger.unreachable_none (ledger : s.Ledger loose)
    (none : s.unreachable marks = none) (unmarked : marks (.pipe id) = false) :
    (s.pipes id).queued = [] := by
  unfold unreachable at none
  have absent := Fin.eq_false_of_find?_eq_none none id
  rw [unmarked] at absent
  simp only [Bool.not_false, Bool.and_true, Bool.and_eq_false_iff] at absent
  rcases absent with unused | empty
  · exact ((ledger.pipeFree id).mp unused).2
  · exact (ledger.packed id).first_none.mp (by simpa using empty)

theorem Ledger.no_rights (ledger : s.Ledger loose) (none : s.anyRights = false) :
    (s.pipes id).queued = [] := by
  simp only [anyRights, any_eq_false, mem_finRange, true_implies, Bool.and_eq_true,
    Bool.not_eq_true', Classical.not_not, isEmpty_eq_false_iff, not_and] at none
  cases used : (s.pipes id).used with
  | true => exact none id used
  | false => exact ((ledger.pipeFree id).mp used).2

/-- What the loop comes to: the records that can be redeemed and no others. -/
structure Collected (system after : System) : Prop extends system.Pruned after where
  empty : ∀ id, ¬ system.Reachable (.pipe id) → (after.pipes id).queued = []

theorem Ledger.collectLoop (ledger : s.Ledger []) (fuel : Nat) (enough : s.records < fuel) :
    ∃ new, collectLoop fuel s = some new ∧ s.Collected new := by
  induction fuel generalizing s with
  | zero => omega
  | succ fuel ih =>
    obtain ⟨marks, mark, marked⟩ := ledger.mark
    simp only [System.collectLoop, mark]
    split
    next none =>
      have none : s.anyRights = false := by simpa using none
      exact ⟨{ s with present := false }, rfl, ledger.pruned_flags false s.collecting,
        fun id _ => ledger.no_rights none⟩
    cases hit : s.unreachable marks with
    | none =>
      refine ⟨s, rfl, ledger.pruned_flags s.present s.collecting,
        fun id unreached => ?_⟩
      refine ledger.unreachable_none hit ?_
      rwa [← Bool.not_eq_true, marked]
    | some id =>
      obtain ⟨unmarked, r, rest, q⟩ := unreachable_some (ledger.packed id) hit
      have unreached : ¬ s.Reachable (.pipe id) := by
        rw [← marked, unmarked]
        simp
      have pruned := ledger.retire_pruned q unreached
      have fewer := retire_records ledger q
      obtain ⟨new, ended, collected⟩ := ih (ledger.retire q) (by omega)
      exact ⟨new, ended, pruned.trans collected.toPruned,
        fun j far => collected.empty j fun near => far (pruned.reachable.mp near)⟩

/-- The state of a system in which every reference count is exact and the collector may run. -/
structure Collectable (system : System) : Prop where
  ledger : system.Ledger []
  idle : system.collecting = false
  prompt : system.gcDefer = 0
  /-- The flag that lets the collector skip its work is set while records are queued. -/
  flagged : system.anyRights = true → system.present = true

theorem Collectable.collect_eq (ready : s.Collectable) (present : s.present = true) :
    ∃ new, collectLoop 513 { s with collecting := true } = some new ∧
      s.collect = { new with collecting := false } ∧
      { s with collecting := true }.Collected new := by
  have start := ready.ledger.pruned_flags s.present true
  obtain ⟨new, ended, collected⟩ := start.ledger.collectLoop 513
    (Nat.lt_succ_of_le records_le)
  refine ⟨new, ended, ?_, collected⟩
  rw [collect, if_neg (by simp [ready.idle, ready.prompt, present]), ended]

theorem Collectable.collected (ready : s.Collectable) : s.Collected s.collect := by
  cases present : s.present with
  | false =>
    have none : s.anyRights = false := by
      cases any : s.anyRights with
      | false => rfl
      | true => exact absurd (ready.flagged any) (by simp [present])
    have same : s.collect = s := by simp [collect, present]
    rw [same]
    exact ⟨ready.ledger.pruned_flags s.present s.collecting,
      fun id _ => ready.ledger.no_rights none⟩
  | true =>
    obtain ⟨new, -, result, collected⟩ := ready.collect_eq present
    have start := ready.ledger.pruned_flags s.present true
    have finish := collected.ledger.pruned_flags new.present false
    rw [result]
    exact ⟨(start.trans collected.toPruned).trans finish, fun id far =>
      collected.empty id fun near => far (start.reachable.mp near)⟩

end System

end SrvrOS.Files
