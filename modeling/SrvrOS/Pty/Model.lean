import SrvrOS.Lib.RingBuffer
import SrvrOS.Lib.Run
import SrvrOS.Lib.Word

/-!
# The pseudo-terminal line discipline

`kernel/src/pty_model.c`. The master types bytes that are edited into lines and read by the slave;
what the slave writes, and the echo, is read by the master. The window size and the foreground
group are left out.
-/

namespace SrvrOS.Pty

open Lib Function Word

def ptyBytes : Nat := 8192

def ptyLine : Nat := 1024

def ptyRecords : Nat := 128

/-- `SRV_ERR_AGAIN`. -/
def errAgain : Int := -11

/-- `SRV_ERR_FAULT`. -/
def errFault : Int := -14

/-- The indices `SRV_TTY_V*` of the control characters. -/
inductive Control where
  | veof | veol | verase | vintr | vkill | vtime | vmin
  deriving DecidableEq, Repr

/-- `struct srv_termios`, without the control flags that nothing reads. -/
structure Termios where
  iflag : UInt32
  oflag : UInt32
  lflag : UInt32
  cc : Control → UInt8

namespace Termios

/-- `SRV_TTY_IFLAG_ICRNL`. -/
def iflagIcrnl : UInt32 := 1
/-- `SRV_TTY_OFLAG_OPOST | SRV_TTY_OFLAG_ONLCR`. -/
def oflagOpostOnlcr : UInt32 := 3
/-- `SRV_TTY_LFLAG_ECHO`. -/
def lflagEcho : UInt32 := 1
/-- `SRV_TTY_LFLAG_ICANON`. -/
def lflagIcanon : UInt32 := 2
/-- `SRV_TTY_LFLAG_ISIG`. -/
def lflagIsig : UInt32 := 4

/-- A carriage return is typed as a newline. -/
def icrnl (a : Termios) : Bool := a.iflag &&& iflagIcrnl != 0
/-- A newline is written as carriage return and newline. -/
def onlcr (a : Termios) : Bool := a.oflag &&& oflagOpostOnlcr == oflagOpostOnlcr
/-- Typed bytes are echoed. -/
def echo (a : Termios) : Bool := a.lflag &&& lflagEcho != 0
/-- Typed bytes are edited into lines. -/
def icanon (a : Termios) : Bool := a.lflag &&& lflagIcanon != 0
/-- The interrupt character raises a signal. -/
def isig (a : Termios) : Bool := a.lflag &&& lflagIsig != 0

/-- A byte is the control character of this index; a zero character is disabled. -/
def isControl (a : Termios) (index : Control) (c : UInt8) : Bool :=
  a.cc index != 0 && c == a.cc index

end Termios

/-- `'\n'`. -/
def newline : UInt8 := 10

/-- `'\r'`. -/
def carriageReturn : UInt8 := 13

/-- `struct pty_model`. -/
structure Model where
  input : RingBuffer UInt8
  output : RingBuffer UInt8
  line : Store UInt8
  lineSize : Nat
  records : Store Nat
  recordHead : Nat
  recordCount : Nat
  attributes : Termios
  signals : UInt64
  masterClosed : Bool
  slaveClosed : Bool

def space (r : RingBuffer UInt8) : Nat := sub 32 ptyBytes r.size

def put (r : RingBuffer UInt8) (byte : UInt8) : RingBuffer UInt8 := r.put ptyBytes byte

def putAll (r : RingBuffer UInt8) (bytes : List UInt8) : RingBuffer UInt8 := bytes.foldl put r

variable (p : Model)

def clearInput : Model :=
  { p with
    input := { p.input with head := 0, size := 0 }
    lineSize := 0, recordHead := 0, recordCount := 0 }

/-- `pty_model_init`. -/
def init : Model where
  input := ⟨fun _ => 0, 0, 0⟩
  output := ⟨fun _ => 0, 0, 0⟩
  line := fun _ => 0
  lineSize := 0
  records := fun _ => 0
  recordHead := 0
  recordCount := 0
  attributes :=
    { iflag := Termios.iflagIcrnl
      oflag := Termios.oflagOpostOnlcr
      lflag := Termios.lflagEcho ||| Termios.lflagIcanon ||| Termios.lflagIsig
      cc := fun
        | .veof => 4
        | .veol => newline
        | .verase => 127
        | .vintr => 3
        | .vkill => 21
        | .vtime => 0
        | .vmin => 1 }
  signals := 0
  masterClosed := false
  slaveClosed := false

def outputWidth (a : Termios) (c : UInt8) : Nat :=
  if c = newline ∧ a.onlcr then 2 else 1

/-- The bytes that `output` puts for one character. -/
def outputBytes (a : Termios) (c : UInt8) : List UInt8 :=
  if outputWidth a c = 2 then [carriageReturn, c] else [c]

def output (p : Model) (c : UInt8) : Model :=
  { p with output := putAll p.output (outputBytes p.attributes c) }

/-- The loop of `publish` that puts `line[0..count)` into the ring. -/
def putLine (line : Store UInt8) : Nat → RingBuffer UInt8 → RingBuffer UInt8
  | 0, r => r
  | count + 1, r => put (putLine line count r) (line count)

/-- `publish`; `none` is a refusal, which precedes every store. -/
def publish (withByte : Bool) (c : UInt8) : Option Model :=
  let length := p.lineSize + (if withByte then 1 else 0)
  if p.recordCount = ptyRecords ∨ space p.input < length then none
  else
    let filled := putLine p.line p.lineSize p.input
    some { p with
      input := if withByte then put filled c else filled
      records := update p.records ((p.recordHead + p.recordCount) % ptyRecords)
        (wrap 16 length)
      recordCount := p.recordCount + 1
      lineSize := 0 }

def isContinuation (c : UInt8) : Bool := c &&& 0xc0 == 0x80

/-- The loop of `erased_bytes`: walk back over continuation bytes. -/
def eraseStart (line : Store UInt8) : Nat → Nat
  | 0 => 0
  | start + 1 => if isContinuation (line (start + 1)) then eraseStart line start else start + 1

/-- `erased_bytes` for a line of the given size. -/
def erasedBytes (line : Store UInt8) (lineSize : Nat) : Nat :=
  if lineSize = 0 then 0 else lineSize - eraseStart line (lineSize - 1)

/-- What the terminal shows for one erased character. -/
def eraseEcho : List UInt8 := [8, 32, 8]

/-- The loop of the kill character. Every round erases at least one byte, so the line
size is enough fuel. -/
def killLine (echo : Bool) (line : Store UInt8) :
    Nat → Nat → RingBuffer UInt8 → Nat × RingBuffer UInt8
  | 0, lineSize, out => (lineSize, out)
  | fuel + 1, lineSize, out =>
    if lineSize = 0 then (lineSize, out)
    else
      killLine echo line fuel (sub 32 lineSize (erasedBytes line lineSize))
        (if echo then putAll out eraseEcho else out)

/-- The interrupt branch of `input`. -/
def inputInterrupt : Option Model :=
  if p.attributes.echo ∧ space p.output < 4 then none
  else
    let cleared := { clearInput p with signals := p.signals ||| ((1 : UInt64) <<< 2) }
    some (if p.attributes.echo then
      { cleared with output := putAll cleared.output [94, 67, carriageReturn, newline] }
      else cleared)

/-- The branch of `input` without line editing. -/
def inputRaw (c : UInt8) : Option Model :=
  if space p.input = 0 ∨ (p.attributes.echo ∧ space p.output < outputWidth p.attributes c) then
    none
  else
    let stored := { p with input := put p.input c }
    some (if p.attributes.echo then output stored c else stored)

/-- The erase branch of `input`. -/
def inputErase : Option Model :=
  let count := erasedBytes p.line p.lineSize
  if count = 0 then some p
  else if p.attributes.echo ∧ space p.output < 3 then none
  else
    let erased := { p with lineSize := sub 32 p.lineSize count }
    some (if p.attributes.echo then { erased with output := putAll erased.output eraseEcho }
      else erased)

/-- The kill branch of `input`. -/
def inputKill : Option Model :=
  if p.attributes.echo ∧ space p.output < p.lineSize * 3 then none
  else
    let killed := killLine p.attributes.echo p.line p.lineSize p.lineSize p.output
    some { p with lineSize := killed.1, output := killed.2 }

/-- The newline branch of `input`. -/
def inputNewline (c : UInt8) : Option Model :=
  if p.attributes.echo ∧ space p.output < outputWidth p.attributes c then none
  else (publish p true c).map fun published =>
    if p.attributes.echo then output published c else published

/-- The last branch of `input`: an ordinary byte of the edited line. -/
def inputOrdinary (c : UInt8) : Option Model :=
  if p.lineSize = ptyLine - 1 then some p
  else if p.attributes.echo ∧ space p.output < outputWidth p.attributes c then none
  else
    let stored := { p with line := update p.line p.lineSize c, lineSize := p.lineSize + 1 }
    some (if p.attributes.echo then output stored c else stored)

/-- The byte that `input` goes on with: a carriage return may become a newline. -/
def typedByte (a : Termios) (c : UInt8) : UInt8 :=
  if c = carriageReturn ∧ a.icrnl then newline else c

/-- `input` once the byte is mapped; `none` is a refusal, which precedes every store. -/
def inputTyped (c : UInt8) : Option Model :=
  if p.attributes.isig && p.attributes.isControl .vintr c then inputInterrupt p
  else if ¬p.attributes.icanon then inputRaw p c
  else if p.attributes.isControl .verase c then inputErase p
  else if p.attributes.isControl .vkill c then inputKill p
  else if p.attributes.isControl .veof c then publish p false 0
  else if c = newline ∨ p.attributes.isControl .veol c then inputNewline p c
  else inputOrdinary p c

def input (c : UInt8) : Option Model :=
  inputTyped p (typedByte p.attributes c)

/-- The loop of `pty_model_write` for the master: the number of accepted bytes. -/
def writeMaster : List UInt8 → Model → Nat × Model
  | [], p => (0, p)
  | c :: rest, p =>
    match input p c with
    | none => (0, p)
    | some next =>
      if next.signals ≠ 0 then (1, next)
      else
        let later := writeMaster rest next
        (later.1 + 1, later.2)

/-- The loop of `pty_model_write` for the slave: the number of accepted bytes. -/
def writeSlave : List UInt8 → Model → Nat × Model
  | [], p => (0, p)
  | c :: rest, p =>
    if space p.output < outputWidth p.attributes c then (0, p)
    else
      let later := writeSlave rest (output p c)
      (later.1 + 1, later.2)

def peerClosed (master : Bool) : Bool :=
  if master then p.slaveClosed else p.masterClosed

def ptyModelWrite (master : Bool) (data : List UInt8) : Int × Model :=
  if data = [] then (0, p)
  else if peerClosed p master then (-1, p)
  else
    let outcome := if master then writeMaster data p else writeSlave data p
    (if outcome.1 ≠ 0 then (outcome.1 : Int) else errAgain, outcome.2)

/-- What a read answers: its result and the bytes that were copied out. -/
structure ReadAnswer where
  result : Int
  bytes : List UInt8
  deriving DecidableEq, Repr

/-- A reader's `copyout` callback: whether it accepts the two given runs. -/
abbrev Copyout := List UInt8 → List UInt8 → Bool

/-- The loop that moves the rest of an unfinished line to its start. -/
def shiftLine (line : Store UInt8) (count lineSize : Nat) : Store UInt8 :=
  (List.range' count (lineSize - count)).foldl
    (fun moved i => update moved (i - count) (moved i)) line

/-- The read of an unfinished line after the master is gone. -/
def readLine (length : Nat) (copyout : Copyout) : ReadAnswer × Model :=
  let count := min length p.lineSize
  let bytes := p.line.read 0 count
  if count ≠ 0 ∧ copyout bytes [] = false then (⟨errFault, []⟩, p)
  else
    (⟨count, bytes⟩,
      { p with line := shiftLine p.line count p.lineSize
               lineSize := sub 32 p.lineSize count })

/-- The two runs of a ring that hold its first `count` bytes. -/
def ringRuns (r : RingBuffer UInt8) (count : Nat) : List UInt8 × List UInt8 :=
  let first := min (ptyBytes - r.head) count
  (r.data.read r.head first, r.data.read 0 (count - first))

/-- A ring after `count` of its bytes are consumed. -/
def consume (r : RingBuffer UInt8) (count : Nat) : RingBuffer UInt8 :=
  { r with head := (r.head + count) % ptyBytes, size := sub 32 r.size count }

def readRecord (length : Nat) (copyout : Copyout) : ReadAnswer × Model :=
  let count := min length (p.records p.recordHead)
  let runs := ringRuns p.input count
  if count ≠ 0 ∧ copyout runs.1 runs.2 = false then (⟨errFault, []⟩, p)
  else
    let left := sub 16 (p.records p.recordHead) count
    (⟨count, runs.1 ++ runs.2⟩,
      { p with
        input := consume p.input count
        records := update p.records p.recordHead left
        recordHead := if left = 0 then (p.recordHead + 1) % ptyRecords else p.recordHead
        recordCount := if left = 0 then sub 32 p.recordCount 1 else p.recordCount })

def readRing (master : Bool) : RingBuffer UInt8 := if master then p.output else p.input

def setReadRing (master : Bool) (r : RingBuffer UInt8) : Model :=
  if master then { p with output := r } else { p with input := r }

def readMinimum (master : Bool) (length : Nat) (nonblocking : Bool) : Nat :=
  min (if master ∨ nonblocking then 1 else (p.attributes.cc .vmin).toNat) length

/-- The read of a byte stream: the master's side, or the slave's without line editing. -/
def readStream (master : Bool) (length : Nat) (nonblocking : Bool)
    (copyout : Copyout) : ReadAnswer × Model :=
  let r := readRing p master
  if r.size < readMinimum p master length nonblocking ∧ ¬peerClosed p master then
    (⟨errAgain, []⟩, p)
  else
    let count := min length r.size
    let runs := ringRuns r count
    if count ≠ 0 ∧ copyout runs.1 runs.2 = false then (⟨errFault, []⟩, p)
    else (⟨count, runs.1 ++ runs.2⟩, setReadRing p master (consume r count))

def ptyModelReadChecked (master : Bool) (length : Nat) (nonblocking : Bool)
    (copyout : Copyout) : ReadAnswer × Model :=
  if length = 0 then (⟨0, []⟩, p)
  else if ¬master ∧ p.attributes.icanon then
    if p.recordCount = 0 then
      if ¬p.masterClosed then (⟨errAgain, []⟩, p) else readLine p length copyout
    else readRecord p length copyout
  else readStream p master length nonblocking copyout

/-- The `action` argument of `pty_model_attributes`, `SRV_TCSA*`. -/
inductive SetAction where
  | now | drain | flush
  deriving DecidableEq, Repr

/-- Whether `pty_model_attributes` supports these settings. -/
def Termios.supported (a : Termios) : Bool :=
  a.cc .vtime == 0 && (a.iflag &&& ~~~iflagIcrnl) == 0 &&
    (a.oflag &&& ~~~oflagOpostOnlcr) == 0 &&
    (a.lflag &&& ~~~(lflagEcho ||| lflagIcanon ||| lflagIsig)) == 0

/-- The input side of a mode switch; `none` asks the caller to try again. -/
def switchInput (a : Termios) (action : SetAction) : Option Model :=
  if action = .flush then some (clearInput p)
  else if p.attributes.icanon ∧ ¬a.icanon then
    if space p.input < p.lineSize then none
    else some { p with
      input := putLine p.line p.lineSize p.input
      lineSize := 0, recordHead := 0, recordCount := 0 }
  else if ¬p.attributes.icanon ∧ a.icanon ∧ p.input.size ≠ 0 then
    some { p with
      records := update p.records 0 (wrap 16 p.input.size)
      recordHead := 0, recordCount := 1 }
  else some p

/-- `pty_model_attributes`; an action beyond the known ones is `none`. -/
def ptyModelAttributes (a : Termios) (action : Option SetAction) : Int × Model :=
  match action with
  | none => (-1, p)
  | some action =>
    if ¬a.supported then (-1, p)
    else if action ≠ .now ∧ p.output.size ≠ 0 then (errAgain, p)
    else
      match switchInput p a action with
      | none => (errAgain, p)
      | some switched => (0, { switched with attributes := a })

/-- What the callers of the line discipline may do. -/
inductive Request where
  | write (master : Bool) (data : List UInt8)
  | read (master : Bool) (length : Nat) (nonblocking : Bool) (copyout : Copyout)
  | attributes (a : Termios) (action : Option SetAction)
  | closeFlags (masterClosed slaveClosed : Bool)
  | takeSignals

/-- One request; the answer is the source's return value. -/
def step : Request → Int × Model
  | .write master data => ptyModelWrite p master data
  | .read master length nonblocking copyout =>
    let outcome := ptyModelReadChecked p master length nonblocking copyout
    (outcome.1.result, outcome.2)
  | .attributes a action => ptyModelAttributes p a action
  | .closeFlags masterClosed slaveClosed =>
    (0, { p with masterClosed := masterClosed, slaveClosed := slaveClosed })
  | .takeSignals => (0, { p with signals := 0 })

end SrvrOS.Pty
