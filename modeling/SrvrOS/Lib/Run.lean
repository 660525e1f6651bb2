import Mathlib

/-!
# Runs of a deterministic machine

A machine answers each request with an output and a new state. The rules below are the only
inductions over runs: an invariant, which may speak about the outputs so far, holds at the start
and survives every step.
-/

namespace SrvrOS.Lib

universe u v w

variable {σ : Type u} {α : Type v} {β : Type w}

/-- Answer the requests from left to right, threading the state. -/
def run (step : σ → α → β × σ) : σ → List α → List β × σ
  | state, [] => ([], state)
  | state, request :: rest =>
    let answer := step state request
    let later := run step answer.2 rest
    (answer.1 :: later.1, later.2)

section

variable (step : σ → α → β × σ) {s : σ}

include step

@[simp] theorem run_nil (s : σ) : run step s [] = ([], s) := rfl

theorem run_append (s : σ) (left right : List α) :
    (run step s (left ++ right)).2 = (run step (run step s left).2 right).2 := by
  induction left generalizing s with
  | nil => rfl
  | cons r rest ih => exact ih (step s r).2

theorem run_invariant (p : σ → Prop) (preserved : ∀ s r, p s → p (step s r).2) (start : p s)
    (requests : List α) : p (run step s requests).2 := by
  induction requests generalizing s with
  | nil => exact start
  | cons r rest ih => exact ih (preserved s r start)

/-- As `run_invariant`, for a property that also reads the outputs so far. -/
theorem run_history_invariant {p : List β → σ → Prop}
    (preserved : ∀ history s r, p history s → p (history ++ [(step s r).1]) (step s r).2)
    (start : p [] s) (requests : List α) :
    p (run step s requests).1 (run step s requests).2 := by
  suffices general : ∀ history s, p history s →
      p (history ++ (run step s requests).1) (run step s requests).2 by
    simpa using general [] s start
  induction requests with
  | nil => intro history s current; simpa using current
  | cons r rest ih =>
    intro history s current
    have next := ih _ _ (preserved history s r current)
    simpa [run] using next

end

end SrvrOS.Lib
