import SrvrOS.Lib.RingBuffer
import SrvrOS.Lib.Slots
import SrvrOS.Lib.Word

/-!
# Pipes

The pipes of `kernel/src/process.c`: a ring of bytes and a short queue of records of passed
descriptors. A record carries its position as an offset from the next byte to be read.

The definitions are the critical sections of the operations. What a record holds is a parameter.
-/

namespace SrvrOS.Files

open Lib

/-- `PROCESS_PIPE_CAPACITY`. -/
def pipeCapacity : Nat := 65536

/-- `PROCESS_PIPE_RIGHTS_QUEUE`. -/
def pipeRightsQueue : Nat := 8

/-- `SRV_PIPE_BUF`. -/
def pipeBuf : Nat := 4096

/-- `SRV_PIPE_MESSAGE_MAX`. -/
def pipeMessageMax : Nat := pipeBuf

/-- `SRV_RIGHTS_MAX`. -/
def rightsMax : Nat := 4

variable {ρ : Type}

/-- A used `struct process_pipe_rights`. -/
structure Rights (ρ : Type) where
  offset : Nat
  files : List ρ
deriving DecidableEq

/-- `struct process_pipe`; an unused record of `rights` is absent. -/
structure Pipe (ρ : Type) where
  used : Bool := false
  refs : Nat := 0
  readRefs : Nat := 0
  writeRefs : Nat := 0
  buffer : Store UInt8 := fun _ => 0
  readPos : Nat := 0
  writePos : Nat := 0
  size : Nat := 0
  rights : Slots (Rights ρ) := fun _ => none

/-- What a critical section has taken in and given out. -/
structure Outcome (ρ : Type) where
  /-- Bytes put into the ring. -/
  accepted : List UInt8 := []
  /-- Bytes copied to the caller. -/
  returned : List UInt8 := []
  /-- Bytes removed from the ring. -/
  consumed : Nat := 0
  /-- The files of records put into the queue. -/
  sent : List (List ρ) := []
  /-- Records removed from the queue. -/
  removed : List (Rights ρ) := []

variable (pipe : Pipe ρ)

namespace Pipe

/-- The pipe that `pipe_alloc` hands out. -/
def alloc : Pipe ρ := { used := true, refs := 2, readRefs := 1, writeRefs := 1 }

/-! ## The ring -/

def space : Nat := pipeCapacity - pipe.size

def put (bytes : List UInt8) : Pipe ρ :=
  { pipe with
    buffer := RingBuffer.fill pipeCapacity pipe.buffer pipe.writePos bytes
    writePos := (pipe.writePos + bytes.length) % pipeCapacity
    size := pipe.size + bytes.length }

/-- The first bytes, as they are copied out in two runs. -/
def front (count : Nat) : List UInt8 :=
  let first := min (pipeCapacity - pipe.readPos) count
  pipe.buffer.read pipe.readPos first ++ pipe.buffer.read 0 (count - first)

/-! ## The records -/

def freeRights : Option Nat :=
  (List.range pipeRightsQueue).find? fun slot => (pipe.rights slot).isNone

def setRights (slot : Nat) (files : List ρ) : Pipe ρ :=
  { pipe with rights := Function.update pipe.rights slot (some ⟨pipe.size, files⟩) }

/-- How many of the first records satisfy a condition. -/
def countRights (condition : Rights ρ → Bool) : Nat :=
  ((List.range pipeRightsQueue).takeWhile fun slot => (pipe.rights slot).any condition).length

def firstRights (records : Nat) : List (Rights ρ) :=
  pipe.rights.used records

/-- The records move up by the given number of slots. -/
def shiftRights (records : Nat) : Pipe ρ :=
  { pipe with rights := fun slot =>
      if slot + records < pipeRightsQueue then pipe.rights (slot + records) else none }

/-- Every offset of the used records in front is reduced. -/
def advanceRights (count : Nat) : Pipe ρ :=
  { pipe with rights := fun slot =>
      if slot < pipeRightsQueue ∧ ∀ before ≤ slot, (pipe.rights before).isSome then
        (pipe.rights slot).map fun record =>
          { record with offset := Word.sub 64 record.offset count }
      else pipe.rights slot }

/-- `pipe_commit_read`. -/
def commitRead (count records : Nat) : Pipe ρ :=
  ({ pipe with
    readPos := (pipe.readPos + count) % pipeCapacity
    size := pipe.size - count }.shiftRights records).advanceRights count

/-! ## Operations -/

/-- One pass of the loop of `pipe_write_common` that does not wait. -/
def writePass (bytes : List UInt8) (done : Nat) (copied : Bool) :
    Outcome ρ × Pipe ρ :=
  let minimum := if bytes.length ≤ pipeBuf then bytes.length else 1
  if pipe.readRefs = 0 ∨ pipe.space < minimum ∨ !copied then ({}, pipe)
  else
    let count := min (bytes.length - done) pipe.space
    let chunk := (bytes.drop done).take count
    ({ accepted := chunk }, pipe.put chunk)

/-- `pipe_read_common` from the test for bytes to the commit. -/
def readPass (length : Nat) (copied : Bool) : Outcome ρ × Pipe ρ :=
  let count := min length pipe.size
  let records := pipe.countRights fun record => decide (record.offset < count)
  if !copied ∨ count = 0 then ({}, pipe)
  else
    ({ returned := pipe.front count, consumed := count, removed := pipe.firstRights records },
      pipe.commitRead count records)

/-- `process_file_send_rights_locked`; the descriptors can be cloned or not. -/
def sendRights (files : List ρ) (cloned : Bool) : Outcome ρ × Pipe ρ :=
  if files = [] ∨ rightsMax < files.length ∨ pipe.readRefs = 0 then ({}, pipe)
  else
    match pipe.freeRights with
    | none => ({}, pipe)
    | some slot =>
      if cloned then ({ sent := [files] }, pipe.setRights slot files) else ({}, pipe)

/-- `process_file_recv_rights_checked` at its commit. -/
def recvRights (installed : Bool) : Outcome ρ × Pipe ρ :=
  match pipe.rights 0 with
  | none => ({}, pipe)
  | some record =>
    if record.offset ≠ 0 ∨ !installed then ({}, pipe)
    else ({ removed := [record] }, pipe.shiftRights 1)

/-- `process_file_send_message` at its commit. -/
def sendMessage (bytes : List UInt8) (files : List ρ) (cloned : Bool) :
    Outcome ρ × Pipe ρ :=
  if pipeMessageMax < bytes.length ∨ rightsMax < files.length ∨ bytes = [] ∨
      pipe.readRefs = 0 ∨ pipe.space = 0 then ({}, pipe)
  else
    let chunk := bytes.take (min pipe.space bytes.length)
    if files = [] then ({ accepted := chunk }, pipe.put chunk)
    else if (pipe.rights (pipeRightsQueue - 1)).isSome then ({}, pipe)
    else
      match pipe.freeRights with
      | none => ({}, pipe)
      | some slot =>
        if cloned then
          ({ accepted := chunk, sent := [files] }, (pipe.setRights slot files).put chunk)
        else ({}, pipe)

/-- The bytes and records that `process_file_recv_message_checked` takes. -/
def messageExtent (length : Nat) : Nat × Nat :=
  let count := min length pipe.size
  match pipe.rights 0 with
  | none => (count, 0)
  | some record =>
    if count = 0 then (count, 0)
    else if record.offset ≠ 0 then (min count record.offset, 0)
    else
      let records := pipe.countRights fun record => record.offset == 0
      match if records < pipeRightsQueue then pipe.rights records else none with
      | none => (count, records)
      | some next => (min count next.offset, records)

/-- `process_file_recv_message_checked` at its commit. -/
def recvMessage (length : Nat) (peek installed copied : Bool) :
    Outcome ρ × Pipe ρ :=
  let (count, records) := pipe.messageExtent length
  if pipeMessageMax < length ∨ !installed ∨ !copied then ({}, pipe)
  else if peek then ({ returned := pipe.front count }, pipe)
  else if count = 0 then ({}, pipe)
  else
    ({ returned := pipe.front count, consumed := count, removed := pipe.firstRights records },
      pipe.commitRead count records)

/-- The removal of one record in `pipe_rights_collect`. -/
def retireRights : Outcome ρ × Pipe ρ :=
  match pipe.rights 0 with
  | none => ({}, pipe)
  | some record => ({ removed := [record] }, pipe.shiftRights 1)

end Pipe

end SrvrOS.Files
