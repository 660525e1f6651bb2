import SrvrOS.Lib.Prog

/-!
# Programs that may fail

An action over a state returns a value or fails; the state it leaves behind survives in both cases,
as it does for C code that returns `false` after having changed memory.
-/

namespace SrvrOS.Lib

/-- A deterministic, total program that may fail. -/
def Act (σ α : Type) : Type := σ → Option α × σ

namespace Act

variable {σ α β : Type}

instance : Monad (Act σ) where
  pure value := fun state => (some value, state)
  bind first rest := fun state =>
    match first state with
    | (some value, next) => rest value next
    | (none, next) => (none, next)

def fail : Act σ α := fun state => (none, state)

def gets (read : σ → α) : Act σ α := fun state => (some (read state), state)

def modify (change : σ → σ) : Act σ Unit := fun state => (some (), change state)

def require (condition : Prop) [Decidable condition] : Act σ Unit :=
  if condition then pure () else fail

def ofOption : Option α → Act σ α
  | some value => pure value
  | none => fail

/-- Run an action and report its outcome as a value. -/
def attempt (act : Act σ α) : Act σ (Option α) := fun state =>
  match act state with
  | (outcome, next) => (some outcome, next)

/-- Run `cleanup` when `act` fails, and fail all the same. -/
def onFailure (act : Act σ α) (cleanup : Act σ Unit) : Act σ α := fun state =>
  match act state with
  | (some value, next) => (some value, next)
  | (none, next) => (none, (cleanup next).2)

def when (condition : Prop) [Decidable condition] (act : Act σ Unit) : Act σ Unit :=
  if condition then act else pure ()

def ignore (act : Act σ α) : Act σ Unit := fun state => (some (), (act state).2)

/-! ## Running -/

@[simp] theorem pure_run (v : α) (s : σ) :
    (pure v : Act σ α) s = (some v, s) := (rfl)

@[simp] theorem fail_run (s : σ) : (fail : Act σ α) s = (none, s) := (rfl)

@[simp] theorem gets_run (read : σ → α) (s : σ) :
    gets read s = (some (read s), s) := (rfl)

@[simp] theorem attempt_run (act : Act σ α) (s : σ) :
    attempt act s = (some (act s).1, (act s).2) := (rfl)

@[simp] theorem ite_run (c : Prop) [Decidable c] (yes no : Act σ α) (s : σ) :
    (if c then yes else no : Act σ α) s =
      if c then yes s else no s := by
  split <;> rfl

theorem require_run (c : Prop) [Decidable c] (s : σ) :
    (require c : Act σ Unit) s = (if c then some () else none, s) := by
  unfold require
  split <;> rfl

theorem bind_run (first : Act σ α) (rest : α → Act σ β) (s : σ) :
    (first >>= rest) s =
      match first s with
      | (some v, next) => rest v next
      | (none, next) => (none, next) := rfl

/-! ## Evolutions -/

/-- A reflexive and transitive relation between an earlier and a later state. -/
structure Evolution (σ : Type) where
  rel : σ → σ → Prop
  refl : ∀ state, rel state state
  trans : ∀ {first second third}, rel first second → rel second third → rel first third

/-- No run of the action leaves the relation, whether it succeeds or fails. -/
def Respects (evolution : Evolution σ) (act : Act σ α) : Prop :=
  ∀ state, evolution.rel state (act state).2

namespace Respects

variable {evolution : Evolution σ} {act : Act σ α} {read : σ → α}

theorem pure {v : α} : Respects evolution (Pure.pure v : Act σ α) := evolution.refl

theorem fail : Respects evolution (Act.fail : Act σ α) := evolution.refl

theorem gets : Respects evolution (Act.gets read) := evolution.refl

theorem require {c : Prop} [Decidable c] : Respects evolution (Act.require c : Act σ Unit) := by
  intro s
  rw [require_run]
  exact evolution.refl s

variable {out : Option α}

theorem ofOption : Respects evolution (Act.ofOption out : Act σ α) := by
  cases out with
  | none => exact fail
  | some v => exact pure

variable {rest : α → Act σ β}

theorem bind (first : Respects evolution act) (later : ∀ v, Respects evolution (rest v)) :
    Respects evolution (act >>= rest) := by
  intro s
  have start := first s
  rw [bind_run]
  rcases out : act s with ⟨_ | v, next⟩
  · rw [out] at start
    exact start
  · rw [out] at start
    exact evolution.trans start (later v next)

theorem reads (later : ∀ v, Respects evolution (rest v)) :
    Respects evolution (Act.gets read >>= rest) :=
  gets.bind later

variable {c : Prop}

theorem check [Decidable c] {rest : Unit → Act σ β} (later : Respects evolution (rest ())) :
    Respects evolution (Act.require c >>= rest) :=
  require.bind fun _ => later

theorem found (later : ∀ v, Respects evolution (rest v)) :
    Respects evolution (Act.ofOption out >>= rest) :=
  ofOption.bind later

theorem ite [Decidable c] {yes no : Act σ α}
    (whenTrue : Respects evolution yes) (whenFalse : Respects evolution no) :
    Respects evolution (if c then yes else no) := by
  split
  · exact whenTrue
  · exact whenFalse

section

variable (respects : Respects evolution act)

include respects

theorem attempt : Respects evolution (Act.attempt act) := respects

theorem attemptBind {rest : Option α → Act σ β} (failure : Respects evolution (rest none))
    (success : ∀ v, Respects evolution (rest (some v))) :
    Respects evolution (Act.attempt act >>= rest) := by
  refine respects.attempt.bind fun out => ?_
  cases out with
  | none => exact failure
  | some v => exact success v

theorem ignore : Respects evolution (Act.ignore act) := respects

end

end Respects

/-! ## Invariants -/

/-- The action keeps an invariant whether it succeeds or fails, and what it returns
satisfies `post`. -/
def Maintains (inv : σ → Prop) (act : Act σ α) (post : α → Prop) : Prop :=
  ∀ state, inv state → inv (act state).2 ∧ ∀ value, (act state).1 = some value → post value

namespace Maintains

variable {inv : σ → Prop} {act : Act σ α} {post : α → Prop}

theorem weaken {weaker : α → Prop} (maintains : Maintains inv act post)
    (implies : ∀ v, post v → weaker v) : Maintains inv act weaker :=
  fun s start => ⟨(maintains s start).1, fun v hit =>
    implies v ((maintains s start).2 v hit)⟩

theorem pure {v : α} (p : post v) : Maintains inv (Pure.pure v : Act σ α) post := by
  intro s start
  refine ⟨start, fun result hit => ?_⟩
  obtain rfl : v = result := Option.some.inj hit
  exact p

theorem fail : Maintains inv (Act.fail : Act σ α) post := fun _ start => ⟨start, nofun⟩

theorem gets {read : σ → α} : Maintains inv (Act.gets read) fun v => ∃ s, inv s ∧ v = read s := by
  intro s start
  refine ⟨start, fun v hit => ?_⟩
  obtain rfl : read s = v := Option.some.inj hit
  exact ⟨s, start, rfl⟩

theorem require {c : Prop} [Decidable c] :
    Maintains inv (Act.require c : Act σ Unit) fun _ => c := by
  intro s start
  rw [require_run]
  refine ⟨start, fun v hit => ?_⟩
  by_contra fails
  rw [if_neg fails] at hit
  cases hit

theorem ofOption : Maintains inv (Act.ofOption out : Act σ α) fun v => out = some v := by
  cases out with
  | none => exact fail
  | some v => exact pure rfl

variable {final : β → Prop}

theorem bind (first : Maintains inv act post) (later : ∀ v, post v → Maintains inv (rest v) final) :
    Maintains inv (act >>= rest) final := by
  intro s start
  obtain ⟨kept, values⟩ := first s start
  rw [bind_run]
  rcases out : act s with ⟨_ | v, next⟩
  · rw [out] at kept
    exact ⟨kept, nofun⟩
  · rw [out] at kept values
    exact later v (values v rfl) next kept

theorem check [Decidable c] {rest : Unit → Act σ β} (later : c → Maintains inv (rest ()) final) :
    Maintains inv (Act.require c >>= rest) final :=
  require.bind fun _ => later

theorem found (later : ∀ v, out = some v → Maintains inv (rest v) final) :
    Maintains inv (Act.ofOption out >>= rest) final :=
  ofOption.bind later

theorem ite [Decidable c] {yes no : Act σ α} (whenTrue : c → Maintains inv yes post)
    (whenFalse : ¬c → Maintains inv no post) :
    Maintains inv (if c then yes else no) post := by
  split
  next p => exact whenTrue p
  next fails => exact whenFalse fails

theorem attempt (maintains : Maintains inv act post) :
    Maintains inv (Act.attempt act) fun out => ∀ v, out = some v → post v := by
  intro s start
  obtain ⟨kept, values⟩ := maintains s start
  refine ⟨kept, fun out hit v same => ?_⟩
  rw [attempt_run, Option.some.injEq] at hit
  exact values v (hit.trans same)

theorem when [Decidable c] {act : Act σ Unit} {post : Unit → Prop}
    (maintains : c → Maintains inv act post) :
    Maintains inv (Act.when c act) fun _ => True := by
  unfold Act.when
  split
  next p => exact (maintains p).weaken fun _ _ => trivial
  · exact pure trivial

theorem of_respects {evolution : Evolution σ} (respects : Respects evolution act)
    (stable : ∀ before after, evolution.rel before after → inv before → inv after) :
    Maintains inv act fun _ => True :=
  fun s start => ⟨stable _ _ (respects s) start, fun _ _ => trivial⟩

end Maintains

end Act

end SrvrOS.Lib
