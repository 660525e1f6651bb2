import SrvrOS.Lib.Run
import SrvrOS.Lib.Table
import SrvrOS.Lib.Word

/-!
# Process scopes

`kernel/src/process.c` counts the processes of a session in a scope record, `process_lifetime`. A
revoked scope admits nobody but the root for which a place was reserved.

Creation and release of a process are two critical sections each, and others act in between. A slot
says which of them is under way, with the token that the call keeps in a local variable.
-/

namespace SrvrOS.Scope

open Lib

/-- `PROCESS_MAX_PROCESSES`. -/
abbrev maxProcesses : Nat := 64

/-- A slot of `processes`; the source refers to it by a pointer. -/
abbrev SlotId := Fin maxProcesses

/-- `struct process_lifetime`. Token 0 marks a free record. -/
structure Lifetime where
  token : Nat := 0
  members : Nat := 0
  peak : Nat := 0
  revoked : Bool := false
  rootReserved : Bool := false
  user : Bool := false
  reservation : Bool := false
  owner : Option SlotId := none
  nonzeroExits : Nat := 0
  firstExitStatus : Nat := 0
deriving DecidableEq

/-- The code that may act on the record of a process. -/
inductive Custody where
  /-- Whoever called `alloc_process` and is still loading the image. -/
  | creator
  /-- The process runs on its creator's thread. -/
  | entered
  /-- The process runs on a thread of its own. -/
  | thread
  /-- Its thread has given up the runtime. -/
  | retired
  /-- A wait, a scope reap or a drain has claimed it. -/
  | reaper
  /-- `release_process`, after its detach. -/
  | leaving
deriving DecidableEq

/-- The fields of `struct process` that scopes read. -/
structure Process where
  active : Bool := true
  detached : Bool
  exiting : Bool := false
  killed : Bool := false
  reapable : Bool := false
  lifetime : Nat
  ownedUserScope : Nat := 0
  exitStatus : Nat := 0
  custody : Custody := .creator
deriving DecidableEq

/-- A slot of the process table: neither allocated nor busy, busy under creation,
allocated, or busy under release. -/
inductive Slot where
  | free
  | creating (token : Nat) (detached : Bool)
  | held (process : Process)
  | releasing (token status : Nat) (retired : Bool)
deriving DecidableEq

def Process.runs (process : Process) : Bool :=
  process.custody == .entered || process.custody == .thread

def Slot.token : Slot → Nat
  | .free => 0
  | .creating token _ => token
  | .held process => process.lifetime
  | .releasing token _ _ => token

/-- The user scope that a slot's process owns, 0 for none. -/
def Slot.ownedUserScope : Slot → Nat
  | .held process => process.ownedUserScope
  | _ => 0

structure Scopes where
  slots : SlotId → Slot := fun _ => .free
  lifetimes : SlotId → Lifetime := fun _ => {}
  nextLifetime : Nat := 1
  /-- The tokens that kernel code received from `process_lifetime_create`. -/
  kernelTokens : List Nat := []

inductive Errno where
  | inval | notsup | busy | again
deriving DecidableEq

/-- `struct srv_scope_status`. -/
structure ScopeStatus where
  revoked : Bool
  members : Nat
  nonzeroExits : Nat
  firstExitStatus : Nat
deriving DecidableEq

inductive Reply where
  | done
  | token (token : Nat)
  | slot (slot : SlotId)
  | status (status : ScopeStatus)
  | error (errno : Errno)
  | refused
deriving DecidableEq

namespace Lifetime

variable (life : Lifetime)

/-- `members++`. -/
def joined : Lifetime :=
  { life with members := Word.wrap 64 (life.members + 1) }

/-- `members--`. -/
def parted : Lifetime := { life with members := Word.sub 64 life.members 1 }

/-- The record after `user_scope_detach`. -/
def detached : Lifetime :=
  let life := { life with revoked := true, owner := none }
  let life := if life.reservation then { life with reservation := false }.parted else life
  if life.members = 0 then {} else life

/-- What `user_scope_member_done` notes of an exit status. -/
def noted (status : Nat) (retired : Bool) : Lifetime :=
  if life.user ∧ retired ∧ status ≠ 0 then
    { life with
      firstExitStatus := if life.nonzeroExits = 0 then status else life.firstExitStatus
      nonzeroExits := if life.nonzeroExits ≠ 2 ^ 64 - 1 then life.nonzeroExits + 1
        else life.nonzeroExits }
  else life

/-- The record after `user_scope_member_done`. -/
def memberDone (status : Nat) (retired : Bool) : Lifetime :=
  let life := life.noted status retired
  let life := if life.members ≠ 0 then life.parted else life
  if life.user ∧ life.owner = none ∧ life.revoked ∧ life.members = 0 then {} else life

/-- The record after `process_scope_reserve`. -/
def reserved : Lifetime :=
  let life := { life with rootReserved := true, reservation := true }.joined
  { life with peak := life.members }

/-- The record after an admission, by inheritance or as the root. -/
def admitted (root : Bool) : Lifetime :=
  let life :=
    if root ∧ life.reservation then { life with reservation := false }
    else
      let life := life.joined
      { life with peak := if life.members > life.peak then life.members else life.peak }
  if root then { life with rootReserved := true } else life

end Lifetime

variable (s : Scopes)

namespace Scopes

def setLifetime (index : SlotId) (life : Lifetime) : Scopes :=
  { s with lifetimes := Function.update s.lifetimes index life }

def setSlot (index : SlotId) (slot : Slot) : Scopes :=
  { s with slots := Function.update s.slots index slot }

def lifetimeFind (token : Nat) : Option SlotId :=
  if token = 0 then none else Fin.find? fun index => (s.lifetimes index).token == token

/-- `user_scope_owned` for the current process `owner`. -/
def userScopeOwned (owner : SlotId) (token : Nat) : Option SlotId :=
  match s.slots owner, s.lifetimeFind token with
  | .held process, some index =>
    if process.active ∧ !process.exiting ∧ !process.killed ∧ process.ownedUserScope = token ∧
        (s.lifetimes index).user ∧ (s.lifetimes index).owner = some owner then
      some index
    else none
  | _, _ => none

/-- The record that `user_scope_detach` gives up. -/
def ownRecord (owner : SlotId) : Option SlotId :=
  (s.lifetimeFind (s.slots owner).ownedUserScope).filter fun index =>
    (s.lifetimes index).user ∧ (s.lifetimes index).owner = some owner

/-- `owned_user_scope = 0`. -/
def disown (owner : SlotId) : Scopes :=
  match s.slots owner with
  | .held process => s.setSlot owner (.held { process with ownedUserScope := 0 })
  | _ => s

def userScopeDetach (owner : SlotId) : Scopes :=
  match s.ownRecord owner with
  | some index => (s.setLifetime index (s.lifetimes index).detached).disown owner
  | none => s.disown owner

/-- `user_scope_member_done` for the record of a token. -/
def userScopeMemberDone (token status : Nat) (retired : Bool) : Scopes :=
  match s.lifetimeFind token with
  | some index => s.setLifetime index ((s.lifetimes index).memberDone status retired)
  | none => s

/-- The free record and the next token, unless either has run out. -/
def freeLifetime : Option SlotId :=
  if s.nextLifetime = 0 then none else Fin.find? fun index => (s.lifetimes index).token == 0

/-- The record `index` begins a scope with the next token. -/
def issue (index : SlotId) (owner : Option SlotId) : Scopes :=
  { s.setLifetime index { token := s.nextLifetime, user := owner.isSome, owner := owner } with
    nextLifetime := Word.wrap 64 (s.nextLifetime + 1) }

/-- A user scope whose owner is gone still has members. -/
def draining : Bool :=
  (Fin.find? fun index =>
    let life := s.lifetimes index
    life.user && life.owner.isNone && life.revoked && life.members != 0).isSome

def processScopeCreate (owner : SlotId) : Reply × Scopes :=
  match s.slots owner with
  | .held process =>
    if !process.active ∨ process.exiting ∨ process.killed then (.error .inval, s)
    else if process.lifetime ≠ 0 then (.error .notsup, s)
    else if process.ownedUserScope ≠ 0 then (.error .busy, s)
    else if s.draining then (.error .busy, s)
    else
      match s.freeLifetime with
      | some index =>
        (.token s.nextLifetime, (s.issue index (some owner)).setSlot owner
          (.held { process with ownedUserScope := s.nextLifetime }))
      | none => (.error .again, s)
  | _ => (.error .inval, s)

def processScopeReserve (owner : SlotId) (token : Nat) : Reply × Scopes :=
  match s.userScopeOwned owner token with
  | none => (.error .inval, s)
  | some index =>
    if (s.lifetimes index).revoked ∨ (s.lifetimes index).rootReserved then (.error .busy, s)
    else (.done, s.setLifetime index (s.lifetimes index).reserved)

def processScopeCancelReservation (token : Nat) : Scopes :=
  match s.lifetimeFind token with
  | some index =>
    let life := s.lifetimes index
    if life.user ∧ life.reservation then
      s.setLifetime index ({ life with reservation := false }.memberDone 0 false)
    else s
  | none => s

inductive ScopeOp where
  | revoke | status | release
deriving DecidableEq

def processScopeControl (op : ScopeOp) (owner : SlotId) (token : Nat) :
    Reply × Scopes :=
  match s.userScopeOwned owner token with
  | none => (.error .inval, s)
  | some index =>
    let life := s.lifetimes index
    match op with
    | .revoke => (.done, s.setLifetime index { life with revoked := true })
    | .status => (.status ⟨life.revoked, life.members, life.nonzeroExits, life.firstExitStatus⟩, s)
    | .release =>
      if !life.revoked ∨ life.members ≠ 0 then (.error .busy, s)
      else (.done, (s.disown owner).setLifetime index {})

def processLifetimeCreate : Reply × Scopes :=
  match s.freeLifetime with
  | some index =>
    (.token s.nextLifetime,
      { s.issue index none with kernelTokens := s.nextLifetime :: s.kernelTokens })
  | none => (.refused, s)

def processLifetimeRevoke (token : Nat) : Reply × Scopes :=
  match s.lifetimeFind token with
  | some index => (.done, s.setLifetime index { s.lifetimes index with revoked := true })
  | none => (.refused, s)

def processLifetimeRelease (token : Nat) : Reply × Scopes :=
  match s.lifetimeFind token with
  | some index =>
    if (s.lifetimes index).revoked ∧ (s.lifetimes index).members = 0 then
      (.done, s.setLifetime index {})
    else (.refused, s)
  | none => (.refused, s)

/-- The conditions under which `alloc_process_lifetime` turns a process away. -/
def turnedAway (parent : Option SlotId) (rootToken token : Nat) : Bool :=
  (rootToken != 0 && parent.any fun owner => (s.userScopeOwned owner rootToken).isNone) ||
  (token != 0 &&
    match s.lifetimeFind token with
    | none => true
    | some index =>
      let life := s.lifetimes index
      (life.revoked && !(rootToken != 0 && life.reservation)) ||
        (rootToken != 0 && life.rootReserved && !life.reservation))

def admissionToken (parent : Option SlotId) (rootToken : Nat) : Nat :=
  if rootToken ≠ 0 then rootToken
  else
    match parent with
    | some owner => (s.slots owner).token
    | none => 0

/-- The first critical section of `alloc_process_lifetime`. -/
def allocProcessLifetime (parent : Option SlotId) (detached : Bool)
    (rootToken : Nat) : Reply × Scopes :=
  let token := s.admissionToken parent rootToken
  if s.turnedAway parent rootToken token then (.refused, s)
  else
    match Fin.find? fun index => s.slots index == .free with
    | none => (.refused, s)
    | some slot =>
      let counted :=
        match s.lifetimeFind token with
        | some index =>
          s.setLifetime index ((s.lifetimes index).admitted (rootToken != 0))
        | none => s
      (.slot slot, counted.setSlot slot (.creating token detached))

end Scopes

/-- What happens to the scopes and the process table, one critical section at a time. -/
inductive Request where
  | scopeCreate (owner : SlotId)
  | scopeReserve (owner : SlotId) (token : Nat)
  | scopeCancelReservation (token : Nat)
  | scopeControl (op : Scopes.ScopeOp) (owner : SlotId) (token : Nat)
  | lifetimeCreate
  | lifetimeRevoke (token : Nat)
  | lifetimeRelease (token : Nat)
  /-- The first section of `alloc_process_lifetime`, called by a process or by the kernel. -/
  | allocate (parent : Option SlotId) (detached : Bool) (rootToken : Nat)
  /-- Its second section. -/
  | publish (slot : SlotId)
  /-- The image is entered, on the creator's thread or on one of its own. -/
  | start (slot : SlotId)
  | kill (slot : SlotId)
  /-- The detach at the start of `process_exit` or at the commit of `process_exec`. -/
  | detach (slot : SlotId)
  /-- The rest of `process_exit`, on the main thread or on another one. -/
  | exit (slot : SlotId) (status : Nat) (mainThread : Bool)
  /-- `release_process_runtime` at the end of a background thread. -/
  | retireRuntime (slot : SlotId)
  /-- `reapable = true`. -/
  | publishZombie (slot : SlotId)
  /-- A wait, a scope reap or a drain takes a zombie. -/
  | claim (slot : SlotId)
  /-- `process_try_wait_retired`. -/
  | tryWaitRetired (slot : SlotId)
  /-- `release_process`: its detach, its first and its second section. -/
  | releaseDetach (slot : SlotId)
  | releaseBegin (slot : SlotId)
  | releaseEnd (slot : SlotId)
deriving DecidableEq

namespace Scopes

def process? (slot : SlotId) : Option Process :=
  match s.slots slot with
  | .held process => some process
  | _ => none

/-- Change the process in a slot, if it is in the given condition. -/
def alter (slot : SlotId) (ready : Process → Bool) (change : Process → Process) :
    Scopes :=
  match s.process? slot with
  | some process => if ready process then s.setSlot slot (.held (change process)) else s
  | none => s

/-- The process in a slot is in the given condition. -/
def allows (slot : SlotId) (ready : Process → Bool) : Bool :=
  (s.process? slot).any ready

/-- The states in which `release_process` is called for a process. -/
def releasable (process : Process) : Bool :=
  process.custody == .creator || (process.custody == .entered && !process.active) ||
    process.custody == .reaper

/-- One critical section. Code of a process acts only while the process runs, and kernel
code uses only tokens of its own. -/
def step : Request → Reply × Scopes
  | .scopeCreate owner =>
    if s.allows owner Process.runs then s.processScopeCreate owner else (.refused, s)
  | .scopeReserve owner token =>
    if s.allows owner Process.runs then s.processScopeReserve owner token else (.refused, s)
  | .scopeCancelReservation token => (.done, s.processScopeCancelReservation token)
  | .scopeControl op owner token =>
    if s.allows owner Process.runs then s.processScopeControl op owner token else (.refused, s)
  | .lifetimeCreate => s.processLifetimeCreate
  | .lifetimeRevoke token =>
    if token ∈ s.kernelTokens then s.processLifetimeRevoke token else (.refused, s)
  | .lifetimeRelease token =>
    if token ∈ s.kernelTokens then s.processLifetimeRelease token else (.refused, s)
  | .allocate parent detached rootToken =>
    if parent.all (s.allows · Process.runs) then s.allocProcessLifetime parent detached rootToken
    else (.refused, s)
  | .publish slot =>
    match s.slots slot with
    | .creating token detached =>
      (.done, s.setSlot slot (.held { detached := detached, lifetime := token }))
    | _ => (.refused, s)
  | .start slot =>
    (.done, s.alter slot (·.custody == .creator) fun process =>
      { process with custody := if process.detached then .thread else .entered })
  | .kill slot =>
    (.done, s.alter slot (fun _ => true) fun process => { process with killed := true })
  | .detach slot =>
    if s.allows slot Process.runs then (.done, s.userScopeDetach slot) else (.refused, s)
  | .exit slot status mainThread =>
    (.done, s.alter slot (fun process => process.runs && process.active) fun process =>
      { process with
        exitStatus := status
        active := !mainThread
        exiting := process.exiting || !mainThread })
  | .retireRuntime slot =>
    if s.allows slot (fun process => process.custody == .thread && !process.active) then
      (.done, (s.userScopeDetach slot).alter slot (fun _ => true) fun process =>
        { process with custody := .retired })
    else (.refused, s)
  | .publishZombie slot =>
    (.done, s.alter slot (·.custody == .retired) fun process => { process with reapable := true })
  | .claim slot =>
    (.done, s.alter slot (fun process => process.detached && process.reapable) fun process =>
      { process with reapable := false, custody := .reaper })
  | .tryWaitRetired slot =>
    match s.process? slot with
    | some process =>
      if process.detached ∧ process.reapable ∧ !process.active ∧
          (process.lifetime ≠ 0 → ((s.lifetimeFind process.lifetime).any fun index =>
            (s.lifetimes index).members != 0)) then
        (.done, (s.setSlot slot .free).userScopeMemberDone process.lifetime process.exitStatus
          true)
      else (.refused, s)
    | none => (.refused, s)
  | .releaseDetach slot =>
    if s.allows slot releasable then
      (.done, (s.userScopeDetach slot).alter slot (fun _ => true) fun process =>
        { process with custody := .leaving })
    else (.refused, s)
  | .releaseBegin slot =>
    match s.process? slot with
    | some process =>
      if process.custody = .leaving then
        (.done, s.setSlot slot
          (.releasing process.lifetime process.exitStatus (!process.active)))
      else (.refused, s)
    | none => (.refused, s)
  | .releaseEnd slot =>
    match s.slots slot with
    | .releasing token status retired =>
      (.done, (s.setSlot slot .free).userScopeMemberDone token status retired)
    | _ => (.refused, s)

def after (requests : List Request) : Scopes := (run step {} requests).2

end Scopes

end SrvrOS.Scope
