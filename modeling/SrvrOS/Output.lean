import SrvrOS.Stdio

/-!
# The output of a stream

`fwrite` of `posix_stdio.c` counts a byte when it is copied to the buffer. A flush that fails
throws the buffer away, and a stream in append mode takes its position from the size of the file,
in which the buffer is not counted.
-/

namespace SrvrOS.Stdio

open Lib List File

/-- The calls that `write_all_at_current_fd` makes take at most so many bytes each, 0 for an error,
and everything when the list has ended. -/
def writeAll : List Nat → List UInt8 → Bool × List UInt8 × List Nat
  | writes, [] => (true, [], writes)
  | [], data => (true, data, [])
  | 0 :: writes, _ => (false, [], writes)
  | count :: writes, data =>
    let (ok, taken, writes) := writeAll writes (data.drop count)
    (ok, data.take count ++ taken, writes)

/-- The write side of a stream; `capacity` is 0 without a buffer, and `refuses` says that
`prepare_write` fails. -/
structure Output where
  file : List UInt8
  writes : List Nat
  capacity : Nat
  lines : Bool
  append : Bool
  refuses : Bool
  position : Nat
  held : List UInt8 := []
  fits : held.length ≤ capacity := by simp

namespace Output

def flushWriteBuffer (s : Output) : Bool × Output :=
  let (ok, taken, writes) := writeAll s.writes s.held
  (ok, { s with file := s.file ++ taken, writes, held := [], fits := Nat.zero_le _ })

/-- The part of `prepare_write` that concerns the position. -/
def prepareWrite (s : Output) : Output :=
  { s with position := if s.append then s.file.length else s.position }

/-- The bytes that `fwrite` copies in one turn: those the buffer has room for. -/
def chunk (data : List UInt8) (s : Output) : List UInt8 := data.take (s.capacity - s.held.length)

def fill (data : List UInt8) (s : Output) : Output :=
  { s with
    held := s.held ++ s.chunk data
    position := s.position + (s.chunk data).length
    fits := by have := s.fits; simp [chunk]; omega }

def flushIf (due : Bool) (s : Output) : Bool × Output :=
  if due then s.flushWriteBuffer else (true, s)

/-- One turn of the loop of `fwrite`, with the number of bytes it copies. -/
def turn (data : List UInt8) (s : Output) : Bool × Nat × Output :=
  match s.flushIf (s.held.length = s.capacity) with
  | (false, s) => (false, 0, s)
  | (true, s) =>
    let filled := s.fill data
    let (ok, later) := filled.flushIf
      (filled.held.length = s.capacity ∨ s.lines ∧ 10 ∈ s.chunk data)
    (ok, (s.chunk data).length, later)

/-- The loop over the data that remains. Every turn but the last copies a byte. -/
def fwriteLoop : Nat → List UInt8 → Output → Nat × Output
  | 0, _, s => (0, s)
  | turns + 1, data, s =>
    if data = [] then (0, s)
    else
      match s.turn data with
      | (false, count, s) => (count, s)
      | (true, count, s) =>
        let (later, s) := fwriteLoop turns (data.drop count) s
        (count + later, s)

/-- The output of `fwrite`, without a buffer or through it. -/
def transfer (data : List UInt8) (s : Output) : Nat × Output :=
  if s.capacity = 0 then
    let (_, taken, writes) := writeAll s.writes data
    (taken.length,
      { s with file := s.file ++ taken, writes, position := s.position + taken.length })
  else fwriteLoop data.length data s

/-- `fwrite`, with the bytes it is given. -/
def fwrite (input : List UInt8) (size nmemb : Nat) (s : Output) : Nat × Output :=
  let data := input.take (checkedRequestSize size nmemb)
  if data = [] ∨ s.refuses then (0, s)
  else
    let (copied, s) := s.prepareWrite.transfer data
    (copied / size, s)

/-! ## What becomes of the data -/

/-- The stream took the data, and no `write` failed. -/
structure Took (data : List UInt8) (s s' : Output) : Prop where
  content : s'.file ++ s'.held = s.file ++ s.held ++ data
  position : s'.position = s.position + data.length
  writes : s'.writes.count 0 = s.writes.count 0
  kept : (s'.capacity, s'.append, s'.refuses) = (s.capacity, s.append, s.refuses)

/-- A `write` failed, and the buffer was thrown away with the end of the data. -/
structure Lost (data : List UInt8) (s s' : Output) : Prop where
  content : s'.file <+: s.file ++ s.held ++ data
  writes : s'.writes.count 0 < s.writes.count 0
  held : s'.held = []

variable {d more : List UInt8} {s s' s'' : Output} {writes : List Nat}

theorem Took.refl : Took [] s s := ⟨by simp, rfl, rfl, rfl⟩

theorem Took.trans (first : Took d s s') (second : Took more s' s'') : Took (d ++ more) s s'' where
  content := by rw [second.content, first.content, append_assoc]
  position := by rw [second.position, first.position, length_append, Nat.add_assoc]
  writes := second.writes.trans first.writes
  kept := second.kept.trans first.kept

theorem Took.lost (first : Took d s s') (second : Lost more s' s'') : Lost (d ++ more) s s'' where
  content := by
    rw [← append_assoc, ← first.content]
    exact second.content
  writes := first.writes ▸ second.writes
  held := second.held

theorem writeAll_cases (writes : List Nat) (d : List UInt8) :
    let r := writeAll writes d
    r.2.1 <+: d ∧ if r.1 then r.2.1 = d ∧ r.2.2.count 0 = writes.count 0
      else r.2.2.count 0 < writes.count 0 := by
  fun_induction writeAll writes d with
  | case1 | case2 | case3 => simp
  | case4 count writes d _ some ok taken later run ih =>
    have same : (count :: writes).count 0 = writes.count 0 := count_cons_of_ne some
    rw [run] at ih
    dsimp only at ih ⊢
    rw [← prefix_append_right_inj (take count d), take_append_drop] at ih
    rw [same]
    refine ⟨ih.1, ?_⟩
    split at ih
    next ok =>
      rw [if_pos ok, ih.2.1, take_append_drop]
      exact ⟨rfl, ih.2.2⟩
    next failed =>
      rw [if_neg failed]
      exact ih.2

theorem flushIf_cases (due : Bool) :
    let r := s.flushIf due
    r.2.held = (if due then [] else s.held) ∧ if r.1 then Took [] s r.2 else Lost [] s r.2 := by
  cases due with
  | false => exact ⟨rfl, .refl⟩
  | true =>
    obtain ⟨begins, all⟩ := writeAll_cases s.writes s.held
    refine ⟨rfl, ?_⟩
    change if (writeAll s.writes s.held).1 then _ else _
    split at all
    next ok =>
      rw [if_pos ok]
      exact ⟨by simp [flushIf, flushWriteBuffer, all.1], rfl, all.2, rfl⟩
    next failed =>
      rw [if_neg failed]
      exact ⟨by simp [flushIf, flushWriteBuffer, begins], all, rfl⟩

theorem turn_cases (buffered : s.capacity ≠ 0) (some : d ≠ []) :
    let r := s.turn d
    r.2.1 ≤ d.length ∧ if r.1 then r.2.1 ≠ 0 ∧ Took (d.take r.2.1) s r.2.2
      else Lost (d.take r.2.1) s r.2.2 := by
  obtain ⟨emptied, first⟩ := flushIf_cases (s := s) (s.held.length = s.capacity)
  unfold turn
  generalize s.flushIf (s.held.length = s.capacity) = r at *
  obtain ⟨_ | _, s₁⟩ := r
  · exact ⟨Nat.zero_le _, first⟩
  have same : s₁.capacity = s.capacity := congrArg Prod.fst first.kept
  have room : s₁.held.length < s₁.capacity := by
    have := s.fits
    rw [emptied, same]
    split <;> simp_all <;> omega
  have filled : Took (s₁.chunk d) s₁ (s₁.fill d) := ⟨by simp [fill], rfl, rfl, rfl⟩
  have all : Took (s₁.chunk d) s (s₁.fill d) := first.trans filled
  have begins : s₁.chunk d <+: d := take_prefix ..
  have last := (flushIf_cases (s := s₁.fill d)
    ((s₁.fill d).held.length = s₁.capacity ∨ s₁.lines ∧ 10 ∈ s₁.chunk d)).2
  dsimp only
  generalize (s₁.fill d).flushIf _ = r at *
  refine ⟨begins.length_le, ?_⟩
  rw [← prefix_iff_eq_take.mp begins, ← append_nil (s₁.chunk d)]
  obtain ⟨_ | _, s₂⟩ := r
  · exact all.lost last
  · exact ⟨by simp [chunk, some]; omega, all.trans last⟩

theorem fwriteLoop_cases (buffered : s.capacity ≠ 0) {turns : Nat} (enough : d.length ≤ turns) :
    let r := fwriteLoop turns d s
    r.1 = d.length ∧ Took d s r.2 ∨ r.1 ≤ d.length ∧ Lost (d.take r.1) s r.2 := by
  induction turns generalizing d s with
  | zero =>
    obtain rfl := length_eq_zero_iff.mp (Nat.le_zero.mp enough)
    exact .inl ⟨rfl, .refl⟩
  | succ turns ih =>
    unfold fwriteLoop
    split
    next empty => exact .inl ⟨by simp [empty], empty ▸ .refl⟩
    next some =>
      have first := turn_cases buffered some
      generalize s.turn d = r at *
      obtain ⟨_ | _, count, s'⟩ := r
      · exact .inr first
      obtain ⟨short : count ≤ d.length, more : count ≠ 0, first : Took (d.take count) s s'⟩ := first
      have kept : s'.capacity = s.capacity := congrArg Prod.fst first.kept
      have later := ih (d := d.drop count) (kept ▸ buffered) (by rw [length_drop]; omega)
      dsimp only at later ⊢
      generalize fwriteLoop turns (d.drop count) s' = r at *
      rcases later with ⟨copied, took⟩ | ⟨copied, lost⟩
      · have all := first.trans took
        rw [take_append_drop] at all
        exact .inl ⟨by rw [copied, length_drop]; omega, all⟩
      · rw [length_drop] at copied
        rw [take_add]
        exact .inr ⟨by omega, first.lost lost⟩

theorem not_failed (never : 0 ∉ s.writes) : ¬s'.writes.count 0 < s.writes.count 0 := by
  rw [count_eq_zero.mpr never]
  exact Nat.not_lt_zero _

theorem transfer_cases (s : Output) (d : List UInt8) :
    let r := s.transfer d
    r.1 = d.length ∧ Took d s r.2 ∨ r.1 ≤ d.length ∧ r.2.writes.count 0 < s.writes.count 0 ∧
      if s.capacity = 0 then r.2.file ++ r.2.held = s.file ++ s.held ++ d.take r.1
      else Lost (d.take r.1) s r.2 := by
  unfold transfer
  split
  next unbuffered =>
    obtain ⟨begins, all⟩ := writeAll_cases s.writes d
    have held := s.fits
    simp only [unbuffered, Nat.le_zero, length_eq_zero_iff] at held
    dsimp only
    generalize writeAll s.writes d = r at *
    obtain ⟨_ | _, taken, later⟩ := r
    · refine .inr ⟨begins.length_le, all, ?_⟩
      rw [← prefix_iff_eq_take.mp begins]
      simp [held]
    · obtain ⟨rfl, same⟩ := all
      exact .inl ⟨rfl, by simp [held], rfl, same, rfl⟩
  next buffered =>
    rcases fwriteLoop_cases buffered (Nat.le_refl _) with took | ⟨short, lost⟩
    · exact .inl took
    · exact .inr ⟨short, lost.writes, lost⟩

def sample (writes : List Nat) : Output :=
  { file := [], writes, capacity := 2, lines := false, append := false, refuses := false,
    position := 0 }

/-- The bytes of a call follow what the stream had taken before it. -/
def Accounted (s s' : Output) (bytes : List UInt8) : Prop :=
  bytes = [] ∨ s.file ++ s.held ++ bytes <+: s'.file ++ s'.held

theorem transfer_accounts (s : Output) {d : List UInt8} {n : Nat} (part : n ≤ (s.transfer d).1) :
    let s' := (s.transfer d).2
    Accounted s s' (d.take n) ↔ s.capacity = 0 ∨ s'.writes.count 0 = s.writes.count 0 ∨
      n ≤ s'.file.length - (s.file ++ s.held).length := by
  dsimp only
  rcases s.transfer_cases d with ⟨-, took⟩ | ⟨short, failed, rest⟩
  · refine iff_of_true (.inr ?_) (.inr (.inl took.writes))
    rw [took.content]
    exact (prefix_append_right_inj _).mpr ( take_prefix ..)
  split at rest
  next unbuffered =>
    refine iff_of_true (.inr ?_) (.inl unbuffered)
    rw [rest]
    exact (prefix_append_right_inj _).mpr (take_prefix_take_left part)
  next buffered =>
    have begins := (prefix_append_right_inj (s.file ++ s.held)).mpr
      (take_prefix_take_left part (l := d))
    have count : (d.take n).length = n := by rw [length_take]; omega
    simp only [Accounted, buffered, failed.ne, rest.held, append_nil, false_or]
    constructor
    · rintro (none | written)
      · rw [none] at count
        exact count ▸ Nat.zero_le _
      · have := written.length_le
        simp only [length_append] at this ⊢
        omega
    · intro covered
      rcases Nat.eq_zero_or_pos n with rfl | some
      · exact .inl rfl
      · refine .inr (prefix_of_prefix_length_le begins rest.content ?_)
        rw [length_append, count]
        omega

/-- `fopen` with mode `a` or `a+`. -/
def fopenAppend (file : List UInt8) (writes : List Nat) (capacity : Nat) (lines : Bool) : Output :=
  { file, writes, capacity, lines, append := true, refuses := false, position := file.length }

inductive Put where
  | fwrite (input : List UInt8) (size nmemb : Nat) | fflush

/-- One call, with the bytes it is given to write. -/
def give (s : Output) : Put → List UInt8 × Output
  | .fwrite input size nmemb =>
    (input.take (checkedRequestSize size nmemb), (s.fwrite input size nmemb).2)
  | .fflush => ([], s.flushWriteBuffer.2)

/-- The bytes given so far follow the old content, and no call fails. -/
structure Appends (old : List UInt8) (given : List (List UInt8)) (s : Output) : Prop where
  content : s.file ++ s.held = old ++ given.flatten
  never : 0 ∉ s.writes
  mode : (s.append, s.refuses) = (true, false)

variable {old : List UInt8} {given : List (List UInt8)}

theorem Appends.took (appends : Appends old given s) {call : Put} (gives : (s.give call).1 = d) :
    Took d { s with position := if d = [] then s.position else s.file.length }
      (s.give call).2 := by
  cases call with
  | fflush =>
    obtain rfl : [] = d := gives
    have flushed := (flushIf_cases (s := s) true).2
    split at flushed
    · exact flushed
    · exact absurd flushed.writes (not_failed appends.never)
  | fwrite input size nmemb =>
    obtain rfl : input.take (checkedRequestSize size nmemb) = d := gives
    obtain ⟨appending, accepts⟩ := Prod.mk.inj appends.mode
    by_cases empty : input.take (checkedRequestSize size nmemb) = []
    · rw [if_pos empty, give, fwrite, if_pos (.inl empty), empty]
      exact .refl
    have prepared : s.prepareWrite = { s with position := s.file.length } := by
      rw [prepareWrite, if_pos appending]
    rw [if_neg empty, give, fwrite, if_neg (by simp [empty, accepts]), ← prepared]
    rcases s.prepareWrite.transfer_cases _ with ⟨-, took⟩ | ⟨-, failed, -⟩
    · exact took
    · exact absurd failed (not_failed appends.never)

theorem Appends.give (appends : Appends old given s) (call : Put) :
    Appends old (given ++ [(s.give call).1]) (s.give call).2 := by
  have took : Took (s.give call).1 _ _ := appends.took rfl
  have never := took.writes.trans (count_eq_zero.mpr appends.never)
  refine ⟨?_, count_eq_zero.mp never, (congrArg Prod.snd took.kept).trans appends.mode⟩
  rw [took.content, appends.content]
  simp

/-- A stream in append mode keeps everything in order. Its position after a call with bytes
leaves out what the buffer held before that call. -/
theorem append_position (old : List UInt8) (writes : List Nat) (capacity : Nat) (lines : Bool)
    (calls : List Put) (call : Put) :
    let before := run give (fopenAppend old writes capacity lines) calls
    let after := before.2.give call
    0 ∉ writes → before.2.flushWriteBuffer.2.file = old ++ before.1.flatten ∧
      (after.1 = [] → after.2.position = before.2.position) ∧
      (after.1 ≠ [] → after.2.position + before.2.held.length =
        (old ++ before.1.flatten ++ after.1).length ∧
        (after.2.position = (old ++ before.1.flatten ++ after.1).length ↔
          before.2.held = [])) := by
  intro before after never
  have opened : Appends old [] (fopenAppend old writes capacity lines) :=
    ⟨by simp [fopenAppend], never, rfl⟩
  have appends : Appends old before.1 before.2 :=
    run_history_invariant give (fun _ _ call appends => appends.give call) opened calls
  have took : Took after.1 _ after.2 := appends.took rfl
  refine ⟨?_, fun empty => ?_, fun some => ?_⟩
  · have flushed := (appends.give .fflush).content
    simpa [give, flushWriteBuffer] using flushed
  · rw [took.position]
    simp [empty]
  have behind : after.2.position + before.2.held.length =
      (old ++ before.1.flatten ++ after.1).length := by
    rw [took.position, ← appends.content]
    simp [some]
    omega
  refine ⟨behind, ?_⟩
  rw [← behind, Nat.left_eq_add, length_eq_zero_iff]

/-- One call on a file of one byte. -/
theorem append_position_first :
    let after := (fopenAppend [1] [] 4 false).give (.fwrite [2, 3] 1 2)
    after.1 ≠ [] ∧ after.2.position = 3 :=
  ⟨by decide,
    ((append_position [1] [] 4 false [] (.fwrite [2, 3] 1 2) (by decide)).2.2 (by decide)).1⟩

/-- The second call starts with two bytes in the buffer, which the position misses. -/
theorem append_position_behind :
    let after := run give (fopenAppend [1] [] 4 false) [.fwrite [2, 3] 1 2, .fwrite [4] 1 1]
    after.2.position = 2 ∧ after.2.file ++ after.2.held = [1, 2, 3, 4] := by
  decide

end Output

end SrvrOS.Stdio
