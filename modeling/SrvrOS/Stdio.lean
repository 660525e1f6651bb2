import SrvrOS.Lib.Run

/-!
# Streams on descriptors that cannot seek

The calls of `posix_stdio.c` on a stream which `fdopen` made for a pipe or a socket. What the
stream has read ahead cannot be given back to such a descriptor.
-/

namespace SrvrOS.Stdio

open Lib List

/-- `fdopen` asks for a buffer, the first transfer allocates it; without memory there is none. -/
inductive Buffering where
  | due | allocated | none

inductive LastOp where
  | none | read | write
  deriving DecidableEq

/-- The bytes that wait on the descriptor, and what the next calls meet. -/
structure Descriptor where
  waiting : List UInt8 := []
  readings : List (List UInt8 × Nat) := []
  flushes : List Bool := []
  allocations : List Bool := []

/-- A stream; `unread` is the part of the buffer from `read_pos` to `read_len`, and `taken` what
was read from the descriptor. -/
structure File extends Descriptor where
  writable : Bool
  buffering : Buffering := .due
  unread : List UInt8 := []
  lastOp : LastOp := .none
  taken : List UInt8 := []

/-- `fdopen`, with mode `r+` if `writable` and with mode `r` if not. -/
def fdopen (writable : Bool) (descriptor : Descriptor) : File :=
  { toDescriptor := descriptor, writable }

namespace File

def arrived (s : File) : List UInt8 := s.taken ++ s.waiting

/-! ## The calls -/

def read (count : Nat) (s : File) : List UInt8 × File :=
  match s.readings with
  | [] => ([], s)
  | (arriving, limit) :: readings =>
    let waiting := s.waiting ++ arriving
    let got := waiting.take (min limit count)
    (got, { s with
      readings, taken := s.taken ++ got, waiting := waiting.drop (min limit count) })

/-- Whether a transfer goes through the buffer, after `ensure_stream_buffer`. -/
def ensureStreamBuffer (s : File) : Bool × File :=
  match s.buffering, s.allocations with
  | .none, _ => (false, s)
  | .allocated, _ => (true, s)
  | .due, true :: allocations => (true, { s with allocations, buffering := .allocated })
  | .due, later => (false, { s with allocations := later.tail, buffering := .none })

/-- `flush_write_buffer`: the descriptor takes the output or not. -/
def flushWriteBuffer (s : File) : Bool × File :=
  (s.flushes.headD true, { s with flushes := s.flushes.tail })

/-- `sync_underlying_after_read`: `lseek` fails with `ESPIPE`, and the stream goes on. -/
def syncUnderlyingAfterRead (s : File) : File :=
  if s.lastOp = .read then { s with unread := [] } else s

/-- `prepare_read` on a readable stream. -/
def prepareRead (s : File) : Bool × File :=
  if s.lastOp = .read then (true, s)
  else
    match if s.lastOp = .write then s.flushWriteBuffer else (true, s) with
    | (false, s) => (false, s)
    | (true, s) => (true, { s with unread := [], lastOp := .read })

/-- At most `count` bytes from the buffer, which is filled when it is empty, or without it. -/
def gather (count : Nat) (s : File) : List UInt8 × File :=
  match ensureStreamBuffer s with
  | (false, s) => s.read count
  | (true, s) =>
    let (unread, s) := if s.unread = [] then s.read 1024 else (s.unread, s)
    (unread.take count, { s with unread := unread.drop count })

/-- `getc`: one byte, or nothing for `EOF`. -/
def getc (s : File) : List UInt8 × File :=
  match s.prepareRead with
  | (false, s) => ([], s)
  | (true, s) => s.gather 1

/-- The loop of `fread`. Every turn but the last brings a byte. -/
def freadLoop : Nat → Nat → File → List UInt8 × File
  | 0, _, s => ([], s)
  | turns + 1, count, s =>
    let (got, s) := s.gather count
    if got = [] ∨ got.length = count then (got, s)
    else
      let (later, s) := freadLoop turns (count - got.length) s
      (got ++ later, s)

def checkedRequestSize (size nmemb : Nat) : Nat :=
  if size = 0 ∨ nmemb = 0 ∨ (2 ^ 64 - 1) / size < nmemb then 0 else size * nmemb

/-- `fread`: the bytes it copies; it reports their number divided by `size`. -/
def fread (size nmemb : Nat) (s : File) : List UInt8 × File :=
  let requested := checkedRequestSize size nmemb
  if requested = 0 then ([], s)
  else
    match s.prepareRead with
    | (false, s) => ([], s)
    | (true, s) => freadLoop requested requested s

/-- The loop of `fgets`. -/
def fgetsLoop : Nat → File → List UInt8 × File
  | 0, s => ([], s)
  | space + 1, s =>
    let (got, s) := s.getc
    if got = [] ∨ got = [10] then (got, s)
    else
      let (later, s) := fgetsLoop space s
      (got ++ later, s)

/-- `fwrite` with its `prepare_write`, up to the output, which leaves the read side alone. -/
def fwrite (size nmemb : Nat) (s : File) : File :=
  if checkedRequestSize size nmemb = 0 ∨ s.writable = false then s
  else (ensureStreamBuffer { s.syncUnderlyingAfterRead with lastOp := .write }).2

def fflush (s : File) : File :=
  if s.lastOp = .read then { s.syncUnderlyingAfterRead with lastOp := .none }
  else s.flushWriteBuffer.2

end File

open File

inductive Call where
  | fread (size nmemb : Nat) | getc | fgets (size : Nat) | fwrite (size nmemb : Nat) | fflush

def serve (s : File) : Call → List UInt8 × File
  | .fread size nmemb => s.fread size nmemb
  | .getc => s.getc
  | .fgets size => fgetsLoop (size - 1) s
  | .fwrite size nmemb => ([], s.fwrite size nmemb)
  | .fflush => ([], s.fflush)

/-! ## What becomes of the input -/

variable {s : File} {returned : List UInt8}

/-- Every byte taken is returned or unread. Only a read into an allocated buffer leaves bytes
unread. -/
structure Lossless (returned : List UInt8) (s : File) : Prop where
  sound : s.unread = [] ∨ s.lastOp = .read ∧ s.buffering = .allocated
  kept : returned ++ s.unread = s.taken

theorem Lossless.drained (lossless : Lossless returned s) (j : s.lastOp ≠ .read) : s.unread = [] :=
  lossless.sound.resolve_right fun both => j both.1

theorem read_run (n : Nat) (s : File) : ∃ got readings waiting,
    s.read n = (got, { s with readings, waiting, taken := s.taken ++ got }) := by
  unfold File.read
  split
  · exact ⟨[], s.readings, s.waiting, by simp⟩
  · exact ⟨_, _, _, rfl⟩

theorem ensureStreamBuffer_run (s : File) : ∃ ok allocations buffering,
    s.ensureStreamBuffer = (ok, { s with allocations, buffering }) ∧
      if ok then buffering = .allocated else s.buffering ≠ .allocated := by
  unfold ensureStreamBuffer
  split
  next none => exact ⟨_, s.allocations, s.buffering, rfl, by simp [none]⟩
  next ready => exact ⟨_, s.allocations, s.buffering, rfl, ready⟩
  next due => exact ⟨_, _, _, rfl, rfl⟩
  next due _ => exact ⟨_, _, _, rfl, by simp [due]⟩

section

variable (lossless : Lossless returned s)
include lossless

theorem gather_lossless (reading : s.lastOp = .read) (n : Nat) :
    Lossless (returned ++ (s.gather n).1) (s.gather n).2 ∧
      (s.gather n).2.lastOp = .read := by
  obtain ⟨sound, kept⟩ := lossless
  obtain ⟨ok, allocations, buffering, run, mode⟩ := ensureStreamBuffer_run s
  unfold gather
  rw [run]
  cases ok with
  | false =>
    obtain ⟨got, readings, waiting, direct⟩ := read_run n { s with allocations, buffering }
    have drained := sound.resolve_right fun both => mode both.2
    dsimp only
    rw [direct]
    exact ⟨⟨.inl drained, by simp [← kept, drained]⟩, reading⟩
  | true =>
    obtain ⟨got, readings, waiting, filled⟩ := read_run 1024 { s with allocations, buffering }
    by_cases drained : s.unread = []
    · simp only [drained] at filled ⊢
      rw [filled]
      exact ⟨⟨.inr ⟨reading, mode⟩, by simp [← kept, drained]⟩, reading⟩
    · simp only [drained]
      exact ⟨⟨.inr ⟨reading, mode⟩, by simp [kept]⟩, reading⟩

theorem prepareRead_lossless :
    Lossless returned s.prepareRead.2 ∧
      (s.prepareRead.1 = true → s.prepareRead.2.lastOp = .read) := by
  unfold prepareRead
  split
  next reading => exact ⟨lossless, fun _ => reading⟩
  next j =>
  have drained := lossless.drained j
  have kept := lossless.kept
  rw [drained] at kept
  by_cases writing : s.lastOp = .write
  · rw [if_pos writing, flushWriteBuffer]
    cases s.flushes.headD true with
    | false => exact ⟨{ lossless with }, nofun⟩
    | true => exact ⟨⟨.inl rfl, kept⟩, fun _ => rfl⟩
  · rw [if_neg writing]
    exact ⟨⟨.inl rfl, kept⟩, fun _ => rfl⟩

theorem getc_lossless : Lossless (returned ++ s.getc.1) s.getc.2 := by
  obtain ⟨prepared, reading⟩ := prepareRead_lossless lossless
  unfold getc
  split <;> rename_i run <;> rw [run] at prepared reading
  · rwa [append_nil]
  · exact (gather_lossless prepared (reading rfl) 1).1

theorem freadLoop_lossless {turns n : Nat} (reading : s.lastOp = .read) :
    Lossless (returned ++ (freadLoop turns n s).1) (freadLoop turns n s).2 := by
  induction turns generalizing s returned n with
  | zero => exact (append_nil returned).symm ▸ lossless
  | succ turns ih =>
    obtain ⟨first, still⟩ := gather_lossless lossless reading n
    unfold freadLoop
    dsimp only
    split
    · exact first
    rw [← append_assoc]
    exact ih first still

theorem fgetsLoop_lossless {space : Nat} :
    Lossless (returned ++ (fgetsLoop space s).1) (fgetsLoop space s).2 := by
  induction space generalizing s returned with
  | zero => exact (append_nil returned).symm ▸ lossless
  | succ space ih =>
    have first := getc_lossless lossless
    unfold fgetsLoop
    dsimp only
    split
    · exact first
    rw [← append_assoc]
    exact ih first

/-- The calls that empty the buffer: `fflush`, and an `fwrite` that is let through. -/
def Call.Empties (s : File) : Call → Prop
  | .fwrite size nmemb => ¬(checkedRequestSize size nmemb = 0 ∨ s.writable = false)
  | .fflush => True
  | _ => False

theorem serve_empties {call : Call} (empties : call.Empties s) :
    (serve s call).1 = [] ∧ (serve s call).2.unread = [] ∧ (serve s call).2.taken = s.taken := by
  have empty : s.syncUnderlyingAfterRead = { s with unread := [] } := by
    unfold syncUnderlyingAfterRead
    split
    · rfl
    next j => rw [← lossless.drained j]
  cases call with
  | fread | getc | fgets => exact empties.elim
  | fflush =>
    rw [serve, fflush, empty]
    split
    · exact ⟨rfl, rfl, rfl⟩
    next j => exact ⟨rfl, lossless.drained j, rfl⟩
  | fwrite size nmemb =>
    obtain ⟨ok, allocations, buffering, run, -⟩ := ensureStreamBuffer_run
      { s with unread := [], lastOp := .write }
    rw [serve, fwrite, if_neg empties, empty, run]
    exact ⟨rfl, rfl, rfl⟩

theorem serve_lossless {call : Call} (spared : call.Empties s → s.unread = []) :
    Lossless (returned ++ (serve s call).1) (serve s call).2 := by
  by_cases empties : call.Empties s
  · obtain ⟨nothing, empty, taken⟩ := serve_empties lossless empties
    refine ⟨.inl empty, ?_⟩
    rw [nothing, empty, taken, ← lossless.kept, spared empties, append_nil]
  cases call with
  | getc => exact getc_lossless lossless
  | fgets size => exact fgetsLoop_lossless lossless
  | fflush => exact (empties trivial).elim
  | fread size nmemb =>
    obtain ⟨prepared, reading⟩ := prepareRead_lossless lossless
    simp only [serve, fread]
    split
    · rwa [append_nil]
    split <;> rename_i run <;> rw [run] at prepared reading
    · rwa [append_nil]
    · exact freadLoop_lossless prepared (reading rfl)
  | fwrite size nmemb =>
    rw [serve, fwrite, if_pos (not_not.mp empties), append_nil]
    exact lossless

/-- No call empties the buffer while it has unread bytes. -/
def Careful : File → List Call → Prop
  | _, [] => True
  | s, call :: later => (call.Empties s → s.unread = []) ∧ Careful (serve s call).2 later

theorem run_lossless {calls : List Call} (careful : Careful s calls) :
    Lossless (returned ++ (run serve s calls).1.flatten) (run serve s calls).2 := by
  induction calls generalizing s returned with
  | nil => simpa [run] using lossless
  | cons call later ih =>
    have first := ih (serve_lossless lossless careful.1) careful.2
    simpa [run] using first

end

/-- As long as no `fflush` and no `fwrite` that is let through meets unread bytes, the bytes that
the reading calls returned are the first that arrived. The first call that does loses the unread
bytes: they are not returned, not in the buffer, and no longer on the descriptor. -/
theorem fdopen_keeps_input (writable : Bool) (descriptor : Descriptor) (calls : List Call)
    (call : Call) :
    let (outputs, s) := run serve (fdopen writable descriptor) calls
    (Careful (fdopen writable descriptor) calls → outputs.flatten <+: s.arrived) ∧
      (Careful (fdopen writable descriptor) calls → call.Empties s → s.unread ≠ [] →
        (serve s call).2.unread = [] ∧
          outputs.flatten.length < (serve s call).2.taken.length) := by
  have lossless (careful : Careful (fdopen writable descriptor) calls) :=
    @run_lossless _ [] ⟨.inl rfl, rfl⟩ _ careful
  refine ⟨fun careful => ⟨_, (append_assoc ..).symm.trans
    (congrArg (· ++ _) (lossless careful).kept)⟩, fun careful empties some => ?_⟩
  obtain ⟨-, empty, taken⟩ := serve_empties (lossless careful) empties
  refine ⟨empty, ?_⟩
  rw [taken, ← (lossless careful).kept, length_append]
  exact Nat.lt_add_of_pos_right (length_pos_iff.mpr some)

/-- Two bytes arrive: `getc` returns the first, and `fflush` then loses the second. -/
theorem fdopen_keeps_input_two :
    let start := fdopen false ⟨[], [([1, 2], 2)], [], [true]⟩
    (run serve start [.getc, .getc]).1.flatten <+: (run serve start [.getc, .getc]).2.arrived ∧
      (run serve start [.getc]).1.flatten.length <
        (serve (run serve start [.getc]).2 .fflush).2.taken.length := by
  intro start
  exact ⟨(fdopen_keeps_input false _ [.getc, .getc] .getc).1 (by simp [Careful, Call.Empties]),
    ((fdopen_keeps_input false _ [.getc] .fflush).2 (by simp [Careful, Call.Empties]) trivial
      (by decide)).2⟩

/-- Two bytes arrive; `getc`, `fflush`, and a third byte for the next `getc`. -/
theorem fflush_loses_input :
    ¬(run serve (fdopen false ⟨[], [([1, 2], 2), ([3], 1)], [], [true]⟩)
        [.getc, .fflush, .getc]).1.flatten <+:
      (run serve (fdopen false ⟨[], [([1, 2], 2), ([3], 1)], [], [true]⟩)
        [.getc, .fflush, .getc]).2.arrived := by
  decide

end SrvrOS.Stdio
