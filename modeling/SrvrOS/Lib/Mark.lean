import Mathlib

/-!
# Marking a finite graph

Marks spread along edges to nodes that are alive. A pass visits the nodes in a fixed order; passes
are repeated until one of them changes nothing.
-/

namespace SrvrOS.Lib

open Finset

universe u

/-- The order in which a pass visits the nodes, their edges and the nodes that may be marked. -/
structure Graph (ι : Type u) where
  order : List ι
  edges : ι → List ι
  alive : ι → Bool

namespace Graph

variable {ι : Type u} {graph : Graph ι} {marks marks' : ι → Bool}

def Edge (graph : Graph ι) (node next : ι) : Prop :=
  next ∈ graph.edges node ∧ graph.alive next = true

/-- What can be reached from some marks. -/
def Reached (graph : Graph ι) (marks : ι → Bool) (node : ι) : Prop :=
  ∃ root, marks root = true ∧ Relation.ReflTransGen graph.Edge root node

variable {n : ι}

theorem Reached.root (marked : marks n = true) : graph.Reached marks n :=
  ⟨n, marked, .refl⟩

theorem Reached.next {n next : ι} (reached : graph.Reached marks n)
    (edge : graph.Edge n next) : graph.Reached marks next := by
  obtain ⟨root, marked, path⟩ := reached
  exact ⟨root, marked, path.tail edge⟩

/-! ## Spreading -/

/-- What follows from some marks that spread to others: the flag tells whether there are more. -/
structure Spreads (graph : Graph ι) (state state' : Bool × (ι → Bool)) : Prop where
  kept : ∀ node, state.2 node = true → state'.2 node = true
  sound : ∀ marks, (∀ node, state.2 node = true → graph.Reached marks node) →
    ∀ node, state'.2 node = true → graph.Reached marks node
  flag : state'.1 = true ↔ state.1 = true ∨ ∃ node, state.2 node = false ∧ state'.2 node = true

theorem Spreads.refl {s : Bool × (ι → Bool)} : graph.Spreads s s :=
  ⟨fun _ marked => marked, fun _ reached => reached, by simp⟩

theorem Spreads.trans {first second third : Bool × (ι → Bool)} (left : graph.Spreads first second)
    (right : graph.Spreads second third) : graph.Spreads first third := by
  refine ⟨fun n marked => right.kept n (left.kept n marked),
    fun marks reached => right.sound marks (left.sound marks reached), ?_⟩
  rw [right.flag, left.flag]
  constructor
  · rintro ((old | ⟨n, before, after⟩) | ⟨n, before, after⟩)
    · exact .inl old
    · exact .inr ⟨n, before, right.kept n after⟩
    refine .inr ⟨n, ?_, after⟩
    cases marked : first.2 n with
    | false => rfl
    | true => exact absurd (left.kept n marked) (by simp [before])
  rintro (old | ⟨n, before, after⟩)
  · exact .inl (.inl old)
  cases middle : second.2 n with
  | false => exact .inr ⟨n, middle, after⟩
  | true => exact .inl (.inr ⟨n, before, middle⟩)

section Size

variable [Fintype ι]

def size (marks : ι → Bool) : Nat := (Finset.univ.filter fun node => marks node = true).card

theorem size_le (marks : ι → Bool) : size marks ≤ Fintype.card ι := card_le_univ _

theorem size_lt (kept : ∀ n, marks n = true → marks' n = true)
    (before : marks n = false) (after : marks' n = true) : size marks < size marks' := by
  refine card_lt_card ⟨fun j mem => ?_, fun subset => ?_⟩
  · simp only [mem_filter, mem_univ, true_and] at mem ⊢
    exact kept j mem
  · have marked := subset (mem_filter.mpr ⟨mem_univ n, after⟩)
    simp [before] at marked

end Size

/-! ## Passes -/

variable [DecidableEq ι]

def visit (graph : Graph ι) (state : Bool × (ι → Bool)) (node : ι) : Bool × (ι → Bool) :=
  if graph.alive node && !state.2 node then (true, Function.update state.2 node true) else state

def follow (graph : Graph ι) (state : Bool × (ι → Bool)) (node : ι) : Bool × (ι → Bool) :=
  if state.2 node then (graph.edges node).foldl graph.visit state else state

def pass (graph : Graph ι) (marks : ι → Bool) : Bool × (ι → Bool) :=
  graph.order.foldl graph.follow (false, marks)

/-- Passes until one changes nothing; nothing if they do not come to an end in time. -/
def spread (graph : Graph ι) : Nat → (ι → Bool) → Option (ι → Bool)
  | 0, _ => none
  | fuel + 1, marks =>
    let next := graph.pass marks
    if next.1 then graph.spread fuel next.2 else some next.2

variable {s : Bool × (ι → Bool)} {final : ι → Bool} {nodes : List ι} {fuel : Nat}

theorem visit_spreads {source n : ι} (edge : n ∈ graph.edges source) (marked : s.2 source = true) :
    graph.Spreads s (graph.visit s n) := by
  unfold visit
  split
  next new =>
    simp only [Bool.and_eq_true, Bool.not_eq_true'] at new
    refine ⟨fun j kept => ?_, fun marks reached j isMarked => ?_, ?_⟩
    · by_cases here : j = n <;> simp [here, kept]
    · by_cases here : j = n
      · subst here
        exact (reached source marked).next ⟨edge, new.1⟩
      · simp only [Function.update_of_ne here] at isMarked
        exact reached j isMarked
    · simp only [true_iff]
      exact .inr ⟨n, new.2, by simp⟩
  · exact .refl

theorem visits_spreads {source : ι}
    (edges : ∀ n ∈ nodes, n ∈ graph.edges source) (marked : s.2 source = true) :
    graph.Spreads s (nodes.foldl graph.visit s) := by
  induction nodes generalizing s with
  | nil => exact .refl
  | cons n rest ih =>
    have one := visit_spreads (edges n (by simp)) marked
    exact one.trans (ih (fun j mem => edges j (by simp [mem])) (one.kept _ marked))

theorem follow_spreads {s : Bool × (ι → Bool)} {n : ι} : graph.Spreads s (graph.follow s n) := by
  unfold follow
  split
  next marked => exact visits_spreads (fun _ mem => mem) marked
  · exact .refl

theorem follows_spreads (graph : Graph ι) (nodes : List ι) (s : Bool × (ι → Bool)) :
    graph.Spreads s (nodes.foldl graph.follow s) := by
  induction nodes generalizing s with
  | nil => exact .refl
  | cons n rest ih => exact follow_spreads.trans (ih _)

theorem visits_marked (mem : n ∈ nodes)
    (alive : graph.alive n = true) : (nodes.foldl graph.visit s).2 n = true := by
  have grows (rest : List ι) (s : Bool × (ι → Bool)) (marked : s.2 n = true) :
      (rest.foldl graph.visit s).2 n = true := by
    induction rest generalizing s with
    | nil => exact marked
    | cons j rest ih =>
      refine ih _ ?_
      unfold visit
      split
      · by_cases here : n = j <;> simp [here, marked]
      · exact marked
  induction nodes generalizing s with
  | nil => simp at mem
  | cons j rest ih =>
    rcases List.mem_cons.mp mem with rfl | later
    · refine grows rest _ ?_
      unfold visit
      split
      · simp
      next old =>
        simp only [alive, Bool.true_and, Bool.not_eq_true', Bool.not_eq_false] at old
        exact old
    · exact ih later

theorem pass_closed (still : (graph.pass marks).1 = false) {n next : ι}
    (mem : n ∈ graph.order) (marked : marks n = true) (edge : graph.Edge n next) :
    marks next = true := by
  have spreads := follows_spreads graph graph.order (false, marks)
  have none (j) (new : (graph.pass marks).2 j = true) : marks j = true := by
    cases old : marks j with
    | true => rfl
    | false =>
      have flag := spreads.flag.mpr (.inr ⟨j, old, new⟩)
      exact absurd flag (by rw [← pass, still]; simp)
  refine none next ?_
  obtain ⟨before, after, split⟩ := List.append_of_mem mem
  have early := follows_spreads graph before (false, marks)
  have here := early.kept n marked
  unfold pass
  rw [split, List.foldl_append]
  refine (follows_spreads graph after _).kept next ?_
  rw [follow, if_pos here]
  exact visits_marked edge.1 edge.2

/-! ## The end -/

theorem spread_sound (ended : graph.spread fuel marks = some final)
    {roots : ι → Bool} (reached : ∀ n, marks n = true → graph.Reached roots n) :
    ∀ n, final n = true → graph.Reached roots n := by
  induction fuel generalizing marks with
  | zero => simp [spread] at ended
  | succ fuel ih =>
    have spreads := follows_spreads graph graph.order (false, marks)
    simp only [spread] at ended
    split at ended
    · exact ih ended (spreads.sound roots reached)
    rw [← Option.some.inj ended]
    exact spreads.sound roots reached

theorem spread_closed (ended : graph.spread fuel marks = some final)
    (every : ∀ n, n ∈ graph.order) :
    (∀ n, marks n = true → final n = true) ∧
      ∀ n next, final n = true → graph.Edge n next → final next = true := by
  induction fuel generalizing marks with
  | zero => simp [spread] at ended
  | succ fuel ih =>
    have spreads := follows_spreads graph graph.order (false, marks)
    simp only [spread] at ended
    split at ended
    next =>
      obtain ⟨kept, closed⟩ := ih ended
      exact ⟨fun n marked => kept n (spreads.kept n marked), closed⟩
    next still =>
      simp only [Bool.not_eq_true] at still
      have same (n) (new : final n = true) : marks n = true := by
        rw [← Option.some.inj ended] at new
        cases old : marks n with
        | true => rfl
        | false =>
          have flag := spreads.flag.mpr (.inr ⟨n, old, new⟩)
          exact absurd flag (by rw [← pass, still]; simp)
      have kept (n) (marked : marks n = true) : final n = true := by
        rw [← Option.some.inj ended]
        exact spreads.kept n marked
      exact ⟨kept, fun n next marked edge =>
        kept next (pass_closed still (every n) (same n marked) edge)⟩

variable [Fintype ι]

theorem spread_ends (graph : Graph ι) (fuel : Nat) (marks : ι → Bool)
    (enough : Fintype.card ι < fuel + size marks) :
    ∃ final, graph.spread fuel marks = some final := by
  induction fuel generalizing marks with
  | zero =>
    have bounded := size_le marks
    omega
  | succ fuel ih =>
    simp only [spread]
    split
    next changed =>
      have spreads := follows_spreads graph graph.order (false, marks)
      rcases spreads.flag.mp changed with old | ⟨n, before, after⟩
      · simp at old
      have grows := size_lt spreads.kept before after
      have sizes : size (graph.pass marks).2 =
          size (graph.order.foldl graph.follow (false, marks)).2 := rfl
      exact ih _ (by simp only at grows; omega)
    · exact ⟨_, rfl⟩

/-- The nodes that end up marked are those that can be reached. -/
theorem spread_spec (every : ∀ n, n ∈ graph.order) {marks : ι → Bool} :
    ∃ final, graph.spread (Fintype.card ι + 1) marks = some final ∧
      ∀ n, final n = true ↔ graph.Reached marks n := by
  obtain ⟨final, ended⟩ := spread_ends graph (Fintype.card ι + 1) marks (by omega)
  obtain ⟨kept, closed⟩ := spread_closed ended every
  refine ⟨final, ended, fun n => ⟨spread_sound ended (fun _ => .root) n, ?_⟩⟩
  rintro ⟨root, marked, path⟩
  induction path with
  | refl => exact kept root marked
  | tail _ edge ih => exact closed _ _ ih edge

end Graph

end SrvrOS.Lib
