import SrvrOS.Lib.Run

/-!
# Queues in arrays

A newcomer takes the first free cell, and who waits in the first cell is served next. The order
of the cells is the order of arrival only while nobody waits behind a free cell.
-/

namespace SrvrOS.Lib

open List Function

universe u v w

variable {α : Type u} {β σ : Type v} {ε : Type w} {free p : β → Bool} {wait : β → Option α}
  {cells : List β}
  {x new : β} {value : α} {place : Nat}

/-- Nobody waits behind a free cell. -/
def Compact (free : β → Bool) (wait : β → Option α) (cells : List β) : Prop :=
  cells.Pairwise fun x y => free x = true → wait y = none

instance Compact.decidable [DecidableEq α] : Decidable (Compact free wait cells) :=
  inferInstanceAs (Decidable (cells.Pairwise _))

/-- What a step does to a queue. -/
inductive Change (α : Type u)
  | joins (newcomer : α) | leaves (first : α) | stays

namespace Change

def newcomer : Change α → Option α
  | joins x => some x
  | _ => none

def leaver : Change α → Option α
  | leaves x => some x
  | _ => none

/-- A newcomer stands at the end exactly if the queue was orderly, and only the first one leaves. -/
def Fits (orderly : Prop) (queue queue' : List α) : Change α → Prop
  | joins x => ∃ earlier later, queue = earlier ++ later ∧ queue' = earlier ++ x :: later ∧
      (later = [] ↔ orderly)
  | leaves x => queue = x :: queue'
  | stays => queue' = queue

end Change

/-- Whoever joins in a run finds the queue orderly. -/
def Orderly (step : σ → ε → Change α × σ) (orderly : σ → Prop) : σ → List ε → Prop
  | _, [] => True
  | s, e :: later =>
    ((step s e).1.newcomer.isSome → orderly s) ∧ Orderly step orderly (step s e).2 later

/-- Those who leave in a run, and then those who still wait. -/
def serviceOrder (step : σ → ε → Change α × σ) (queue : σ → List α) (s : σ) (events : List ε) :
    List α :=
  (run step s events).1.filterMap Change.leaver ++ queue (run step s events).2

/-- Those who wait when a run starts, and then those who join. -/
def arrivalOrder (step : σ → ε → Change α × σ) (queue : σ → List α) (s : σ) (events : List ε) :
    List α :=
  queue s ++ (run step s events).1.filterMap Change.newcomer

section Order

variable {step : σ → ε → Change α × σ} {queue : σ → List α} {orderly : σ → Prop}

instance Orderly.decidable [DecidablePred orderly] :
    ∀ s events, Decidable (Orderly step orderly s events)
  | _, [] => .isTrue trivial
  | s, e :: later =>
    haveI := Orderly.decidable (step s e).2 later
    inferInstanceAs (Decidable ((_ → _) ∧ _))

variable (fits : ∀ s e, (step s e).1.Fits (orderly s) (queue s) (queue (step s e).2))

include fits

/-- Who waits keeps the order, between those who left before and those who join later. -/
theorem run_sublist (s : σ) (events : List ε) :
    queue s <+ serviceOrder step queue s events := by
  unfold serviceOrder
  induction events generalizing s with
  | nil => exact .refl _
  | cons e events ih =>
    have first := fits s e
    have later := ih (step s e).2
    simp only [run]
    cases change : (step s e).1 with
    | joins x =>
      rw [change] at first
      obtain ⟨before, after, eq, next, -⟩ := first
      rw [next] at later
      rw [eq]
      exact ((sublist_cons_self x after).append_left before).trans later
    | leaves x =>
      rw [change] at first
      rw [show queue s = _ from first]
      exact later.cons_cons x
    | stays =>
      rw [change] at first
      rw [← show _ = queue s from first]
      exact later

/-- In a run the order of service is the order of arrival exactly if whoever joins finds the queue
orderly. -/
theorem run_in_order (s : σ) (events : List ε) :
    (Orderly step orderly s events →
      serviceOrder step queue s events = arrivalOrder step queue s events) ∧
    ((arrivalOrder step queue s events).Nodup →
      serviceOrder step queue s events = arrivalOrder step queue s events →
      Orderly step orderly s events) := by
  induction events generalizing s with
  | nil => exact ⟨fun _ => (append_nil _).symm, fun _ _ => trivial⟩
  | cons e events ih =>
    have first := fits s e
    obtain ⟨forth, back⟩ := ih (step s e).2
    have kept := run_sublist fits (step s e).2 events
    unfold serviceOrder arrivalOrder at *
    simp only [run, Orderly]
    cases change : (step s e).1 with
    | joins x =>
      rw [change] at first
      obtain ⟨before, after, eq, next, last⟩ := first
      rw [next] at forth back kept
      rw [eq]
      simp only [Change.leaver, Change.newcomer, filterMap_cons, Option.isSome_some, forall_const]
      by_cases ends : after = []
      · subst ends
        simp only [append_nil, append_assoc, singleton_append] at forth back ⊢
        exact ⟨fun holds => forth holds.2, fun nodup same => ⟨last.mp rfl, back nodup same⟩⟩
      · refine ⟨fun holds => absurd (last.mpr holds.1) ends, fun nodup same => ?_⟩
        obtain ⟨y, waits⟩ := exists_mem_of_ne_nil after ends
        obtain ⟨-, -, apart⟩ := nodup_append'.mp nodup
        obtain ⟨l, r, split, left, right⟩ := sublist_append_iff.mp (same ▸ kept)
        have overtaken : y ∈ r := by
          rcases append_eq_append_iff.mp split with ⟨c, rfl, tail⟩ | ⟨c, -, rfl⟩
          · cases c with
            | nil => exact (show x :: after = r from tail) ▸ mem_cons_of_mem x waits
            | cons z c =>
              obtain ⟨rfl, -⟩ := cons.inj tail
              exact (apart (left.subset (by simp)) mem_cons_self).elim
          · exact mem_append_right _ (mem_cons_of_mem x waits)
        exact (apart (mem_append_right _ waits) (right.subset overtaken)).elim
    | leaves x =>
      rw [change] at first
      rw [show queue s = _ from first]
      simp only [Change.leaver, Change.newcomer, filterMap_cons, cons_append, cons.injEq, true_and,
        nodup_cons]
      exact ⟨fun holds => forth holds.2,
        fun nodup same => ⟨(absurd · Bool.false_ne_true), back nodup.2 same⟩⟩
    | stays =>
      rw [change] at first
      rw [← show _ = queue s from first]
      exact ⟨fun holds => forth holds.2,
        fun nodup same => ⟨(absurd · Bool.false_ne_true), back nodup same⟩⟩

end Order

theorem findIdx_splits (found : cells.findIdx? p = some place) :
    ∃ old x rest, (∀ y ∈ old, p y = false) ∧ p x = true ∧ cells = old ++ x :: rest ∧
      cells[place]? = some x ∧ ∀ new, cells.set place new = old ++ new :: rest := by
  obtain ⟨inside, holds, first⟩ := findIdx?_eq_some_iff_getElem.mp found
  refine ⟨cells.take place, cells[place], cells.drop (place + 1), ?_, holds, by simp, by simp, ?_⟩
  · intro y mem
    obtain ⟨i, early, rfl⟩ := mem_take_iff_getElem.mp mem
    simpa using first i (by omega)
  · intro new
    rw [set_eq_take_append_cons_drop, if_pos inside]

theorem joined (found : cells.findIdx? free = some place)
    (idle : ∀ y, free y = true → wait y = none) (waits : wait new = some value) :
    (Change.joins value).Fits (Compact free wait cells) (cells.filterMap wait)
      ((cells.set place new).filterMap wait) := by
  obtain ⟨old, x, rest, full, isFree, rfl, -, set⟩ := findIdx_splits found
  refine ⟨old.filterMap wait, rest.filterMap wait, ?_, ?_, ?_⟩
  · rw [filterMap_append, filterMap_cons_none (idle x isFree)]
  · rw [set, filterMap_append, filterMap_cons_some waits]
  rw [filterMap_eq_nil_iff, Compact, pairwise_append, pairwise_cons]
  constructor
  · intro none
    have filled {y z : β} (mem : y ∈ old) (isFree : free y = true) : wait z = .none := by
      cases (full y mem).symm.trans isFree
    exact ⟨pairwise_of_forall_mem_list fun y mem _ _ => filled mem,
      ⟨fun y mem _ => none y mem,
        pairwise_of_forall_mem_list fun _ _ y mem _ => none y mem⟩,
      fun y mem _ _ => filled mem⟩
  · exact fun orderly y mem => orderly.2.1.1 y mem isFree

theorem served (found : cells.findIdx? (fun y => (wait y).isSome) = some place)
    (here : cells[place]? = some x) (waits : wait x = some value) (emptied : wait new = none) :
    cells.filterMap wait = value :: (cells.set place new).filterMap wait := by
  obtain ⟨old, y, rest, idle, -, split, same, set⟩ := findIdx_splits found
  cases here.symm.trans same
  rw [set, split, filterMap_append, filterMap_append,
    filterMap_eq_nil_iff.mpr fun y mem => by simpa using idle y mem,
    filterMap_cons_some waits, filterMap_cons_none emptied]
  rfl

theorem unmoved (here : cells[place]? = some x) (idle : wait x = none) (still : wait new = none) :
    (cells.set place new).filterMap wait = cells.filterMap wait := by
  obtain ⟨inside, rfl⟩ := List.getElem?_eq_some_iff.mp here
  have split := take_append_drop place cells
  rw [drop_eq_getElem_cons inside] at split
  conv_rhs => rw [← split]
  rw [set_eq_take_append_cons_drop, if_pos inside, filterMap_append, filterMap_append,
    filterMap_cons_none still, filterMap_cons_none idle]

theorem findIdx_finRange {n : Nat} {table : Fin n → β} {place : Fin n}
    (found : Fin.find? (fun i => p (table i)) = some place) :
    ((finRange n).map table).findIdx? p = some place.val ∧ ∀ new,
      (finRange n).map (update table place new) = ((finRange n).map table).set place new := by
  obtain ⟨holds, first⟩ := Fin.find?_eq_some_iff.mp found
  constructor
  · rw [findIdx?_eq_some_iff_getElem]
    refine ⟨by simp, by simpa using holds, fun j early => ?_⟩
    simpa using first ⟨j, by omega⟩ early
  · intro new
    rw [(nodup_finRange n).map_update, if_pos (mem_finRange _), idxOf_finRange]

end SrvrOS.Lib
