import Mathlib

/-!
# Chains of labelled steps

A step carries a list of observations; a chain carries those of its steps, one after the
other. A property of the observations made so far and the state reached is kept by a chain
when it is kept by each step.
-/

namespace SrvrOS.Lib

variable {σ α : Type}

/-- Any number of steps. -/
inductive Chain (step : σ → List α → σ → Prop) : σ → List α → σ → Prop where
  | refl {s : σ} : Chain step s [] s
  | tail {s m s' : σ} {seen last : List α} (earlier : Chain step s seen m)
      (final : step m last s') : Chain step s (seen ++ last) s'

namespace Chain

variable {step : σ → List α → σ → Prop} {s m s' : σ} {seen later : List α}

theorem single (only : step s seen s') : Chain step s seen s' := by
  simpa using Chain.refl.tail only

theorem trans (first : Chain step s seen m) (second : Chain step m later s') :
    Chain step s (seen ++ later) s' := by
  induction second with
  | refl => simpa using first
  | tail _ final ih => simpa using ih.tail final

theorem after_quiet (first : Chain step s [] m) (second : Chain step m later s') :
    Chain step s later s' :=
  first.trans second

theorem before_quiet (first : Chain step s seen m) (second : Chain step m [] s') :
    Chain step s seen s' := by
  simpa using first.trans second

theorem of_quiet {quiet : σ → σ → Prop} (lift : ∀ {s s'}, quiet s s' → step s [] s')
    (steps : Relation.ReflTransGen quiet s s') : Chain step s [] s' := by
  induction steps with
  | refl => exact .refl
  | tail _ final ih => exact ih.before_quiet (.single (lift final))

end Chain

end SrvrOS.Lib
