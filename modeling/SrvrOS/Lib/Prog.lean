import Mathlib

/-!
# State-passing programs and their rules

A program over a state takes the state and returns a value with the next state.
It is total. A property of states is kept by a program when it is kept by the parts.
-/

namespace SrvrOS.Lib

/-- A deterministic, total program with state `σ`. -/
def Prog (σ α : Type) : Type := σ → α × σ

namespace Prog

variable {σ α β : Type}

instance : Monad (Prog σ) where
  pure value := fun state => (value, state)
  bind first rest := fun state =>
    match first state with
    | (value, next) => rest value next

def get : Prog σ σ := fun state => (state, state)

def gets (read : σ → α) : Prog σ α := fun state => (read state, state)

def modify (change : σ → σ) : Prog σ Unit := fun state => ((), change state)

@[simp] theorem exec :
    (∀ {α : Type} (v : α) (s : σ), (pure v : Prog σ α) s = (v, s)) ∧
    (∀ {α β : Type} (first : Prog σ α) (rest : α → Prog σ β) (s : σ),
      (first >>= rest) s = rest (first s).1 (first s).2) ∧
    (∀ {α : Type} (read : σ → α) (s : σ), gets read s = (read s, s)) ∧
    (∀ (change : σ → σ) (s : σ), modify change s = ((), change s)) ∧
    ∀ {α : Type} (cond : Prop) [Decidable cond] (yes no : Prog σ α) (s : σ),
      (if cond then yes else no : Prog σ α) s =
        if cond then yes s else no s := by
  refine ⟨fun _ _ => rfl, fun _ _ _ => rfl, fun _ _ => rfl, fun _ _ => rfl, ?_⟩
  intro α cond _ yes no s
  split <;> rfl

/-- Every run of the program from a state with the property ends in one. -/
def Keeps (holds : σ → Prop) (program : Prog σ α) : Prop :=
  ∀ state, holds state → holds (program state).2

namespace Keeps

variable {p : σ → Prop} {program : Prog σ α} {rest : α → Prog σ β} {read : σ → α}

theorem pure {v : α} : Keeps p (Pure.pure v : Prog σ α) := fun _ start => start

theorem get : Keeps p (Prog.get : Prog σ σ) := fun _ start => start

theorem gets : Keeps p (Prog.gets read) := fun _ start => start

theorem modify {change : σ → σ} (kept : ∀ s, p s → p (change s)) :
    Keeps p (Prog.modify change) := kept

theorem bind (first : Keeps p program)
    (later : ∀ v, Keeps p (rest v)) : Keeps p (program >>= rest) :=
  fun s start => later _ _ (first s start)

theorem bind_gets (later : ∀ s, p s → p (rest (read s) s).2) :
    Keeps p (Prog.gets read >>= rest) := later

theorem ite {cond : Prop} [Decidable cond] {yes no : Prog σ α}
    (whenTrue : Keeps p yes) (whenFalse : Keeps p no) :
    Keeps p (if cond then yes else no) := by
  split
  · exact whenTrue
  · exact whenFalse

end Keeps

end Prog

end SrvrOS.Lib
