import SrvrOS.Lib.Run

/-!
# Threads, the I/O gate and the work queue

`kernel/src/scheduler.c` runs kernel threads on one processor. A thread that waits marks itself
BLOCKED, lets interrupts in and only then yields. While a thread owns the I/O gate only a few
others may be selected, among them the worker of `kernel/src/workqueue.c` while the work at hand is
marked safe.

A step is a critical section of the running thread, or an interrupt. Each thread carries the place
at which its code continues.
-/

namespace SrvrOS.Scheduler

open Lib Function List

inductive ThreadState where
  | unused | ready | running | blocked | dead
deriving DecidableEq

/-- The `io_eligible` callback of a service thread. -/
inductive Callback where
  | idle
  | workqueue
  | service (ready : Bool)
deriving DecidableEq

/-- Where a thread continues in its own code. Only the loop of `workqueue_worker` is
followed step by step. -/
inductive Spot where
  | own
  /-- Before `take_work`. -/
  | taking
  /-- `take_work` found nothing; before `scheduler_wait`. -/
  | idle
  /-- `scheduler_wait` failed; before `scheduler_yield`. -/
  | refused
  /-- Inside the callback of a work item. -/
  | callback
  /-- The callback has returned; before `scheduler_yield`. -/
  | done
  /-- In the loop of a thread that has ended. -/
  | ended
deriving DecidableEq

structure Thread where
  state : ThreadState := .unused
  callback : Option Callback := none
  /-- The process of `user_context`. -/
  userContext : Option Nat := none
  /-- `user_thread_context` is set. -/
  userThread : Bool := false
  ioUserSafe : Bool := false
  blockedQueue : Option Nat := none
  blockedDeadlineTicks : Nat := 0
  spot : Spot := .own
  /-- The thread is in `scheduler_wait_timeout`, past the release of interrupts and before
  its `scheduler_yield`. -/
  window : Bool := false
deriving DecidableEq

structure WorkItem where
  fn : Nat
  arg : Nat
  ioSafe : Bool
deriving DecidableEq

structure Machine where
  threads : Nat → Thread := fun index => if index = 0 then { state := .running } else {}
  capacity : Nat := 32
  /-- `current_thread`. -/
  current : Nat := 0
  /-- The thread whose stack the processor is on. -/
  cpu : Nat := 0
  idleThread : Option Nat := none
  /-- The `waiters` of each wait queue. -/
  waiters : Nat → Nat := fun _ => 0
  ticks : Nat := 0
  preemptTickAccumulator : Nat := 0
  ioServicesEnabled : Bool := false
  ioOwner : Nat := 0
  ioDepth : Nat := 0
  ioPrivateImage : Option Nat := none
  workqueueInitialized : Bool := false
  workerStarted : Bool := false
  /-- The queued items, oldest first. -/
  items : List WorkItem := []
  callbackActive : Bool := false
  callbackIoSafe : Bool := false
  /-- `invalid_user_binding` was reached. -/
  halted : Bool := false

/-- `SCHEDULER_INITIAL_THREADS`. -/
def initialThreads : Nat := 32

/-- `SCHEDULER_MAX_THREADS`. -/
def maxThreads : Nat := 256

/-- `SCHEDULER_PREEMPT_QUANTUM_TICKS`. -/
def preemptQuantumTicks : Nat := 2

def workqueueMaxItems : Nat := 16

/-- The wait queue of the work queue; the others have other numbers. -/
def workWaitQueue : Nat := 0

def ioWaiters : Nat := 1

def Thread.detached (thread : Thread) : Thread :=
  { thread with blockedQueue := none, blockedDeadlineTicks := 0 }

def Thread.suspended (thread : Thread) : Thread :=
  if thread.state = .running then { thread with state := .ready } else thread

def Thread.resumed (thread : Thread) : Thread := { thread with state := .running }

variable (m : Machine)

namespace Machine

def setThread (index : Nat) (thread : Thread) : Machine :=
  { m with threads := update m.threads index thread }

def running : Thread := m.threads m.current

def setRunning (change : Thread → Thread) : Machine :=
  m.setThread m.current (change m.running)

/-- The running thread executes its own code, not the scheduler. -/
def inOwnCode : Bool :=
  !(m.threads m.cpu).window && (m.threads m.cpu).spot != .ended

/-! ## Selection -/

def workqueueIoServiceReady : Bool :=
  if m.callbackActive then m.callbackIoSafe else m.items.head?.any (·.ioSafe)

/-- The value of an `io_eligible` callback. -/
def eligible : Callback → Bool
  | .idle => true
  | .workqueue => m.workqueueIoServiceReady
  | .service ready => ready

def excludedProcess : Option Nat :=
  m.ioPrivateImage.or (m.threads m.ioOwner).userContext

def ioThreadAllowed (index : Nat) : Bool :=
  let thread := m.threads index
  m.ioDepth == 0 || index == m.ioOwner ||
    (thread.userContext.isSome && thread.ioUserSafe && thread.userContext != m.excludedProcess) ||
    (thread.userContext.isNone && thread.callback.any m.eligible)

/-- The loop of `next_ready_thread` over the remaining candidates. -/
def scan (m : Machine) (old : Nat) : List Nat → (Nat → Thread) → Option Nat × (Nat → Thread)
  | [], threads => (none, threads)
  | candidate :: rest, threads =>
    let threads :=
      if candidate ≠ old ∧ (threads candidate).state = .running then
        update threads candidate { threads candidate with state := .ready }
      else threads
    if m.idleThread ≠ some candidate ∧ (threads candidate).state = .ready ∧
        m.ioThreadAllowed candidate then
      (some candidate, threads)
    else m.scan old rest threads

/-- The candidates of `next_ready_thread`; the old thread comes last. -/
def candidates (old : Nat) : List Nat :=
  (range m.capacity).map fun offset => (old + (offset + 1)) % m.capacity

def idleFallback (threads : Nat → Thread) : Option Nat :=
  m.idleThread.filter fun idle =>
    idle < m.capacity ∧ ((threads idle).state = .ready ∨ (threads idle).state = .running)

/-- `next_ready_thread`, with the states it has corrected. -/
def nextReadyThread (old : Nat) : Nat × (Nat → Thread) :=
  match m.scan old (m.candidates old) m.threads with
  | (some next, threads) => (next, threads)
  | (none, threads) =>
    if m.idleThread ≠ some old ∧ (threads old).state = .running then (old, threads)
    else ((m.idleFallback threads).getD old, threads)

/-- The thread that `yield_to` selects. -/
def select (preferred : Option Nat) : Nat × (Nat → Thread) :=
  match preferred.filter fun index =>
      index < m.capacity ∧ index ≠ m.current ∧ (m.threads index).state = .ready ∧
        m.ioThreadAllowed index with
  | some index => (index, m.threads)
  | none => m.nextReadyThread m.current

/-- The switch of `yield_to`. -/
def switchTo (next : Nat) : Machine :=
  let threads := update m.threads m.current m.running.suspended
  { m with
    threads := update threads next (threads next).resumed
    current := next
    cpu := next }

def yieldTo (preferred : Option Nat) : Machine :=
  let (next, threads) := m.select preferred
  let m := { m with threads := threads }
  if next = m.current then m else m.switchTo next

def hasReadyThreadExcept (skipped : Nat) : Bool :=
  (range m.capacity).any fun index =>
    index != skipped &&
      ((m.threads index).state == .ready || (m.threads index).state == .running) &&
      m.ioThreadAllowed index

/-! ## Waiting and waking -/

/-- `scheduler_wait_timeout`; if the wait succeeds the thread continues at `woken`, otherwise at
`turnedAway`. -/
def waitTimeout (queue deadline : Nat) (condition interrupts : Bool)
    (woken turnedAway : Spot) : Machine :=
  if condition then m.setRunning fun thread => { thread with spot := woken }
  else if !m.hasReadyThreadExcept m.current then
    m.setRunning fun thread => { thread with spot := turnedAway }
  else
    let m := m.setRunning fun thread =>
      { thread with
        state := .blocked
        blockedQueue := some queue
        blockedDeadlineTicks := deadline
        spot := woken
        window := interrupts }
    let m := { m with waiters := update m.waiters queue (m.waiters queue + 1) }
    if interrupts then m else m.yieldTo none

/-- The state of the loop of `scheduler_wake_count`. -/
structure Waking where
  threads : Nat → Thread
  woken : Nat
  remaining : Nat

def wakeOne (queue limit : Nat) (waking : Waking) (index : Nat) : Waking :=
  let thread := waking.threads index
  if thread.blockedQueue ≠ some queue then waking
  else if thread.state ≠ .blocked then
    { waking with threads := update waking.threads index thread.detached }
  else if waking.woken < limit then
    { waking with
      threads := update waking.threads index { thread.detached with state := .ready }
      woken := waking.woken + 1 }
  else { waking with remaining := waking.remaining + 1 }

/-- `scheduler_wake_count`. -/
def wakeCount (queue limit : Nat) : Machine :=
  if limit = 0 ∨ m.waiters queue = 0 then m
  else
    let waking := (range m.capacity).foldl (wakeOne queue limit) ⟨m.threads, 0, 0⟩
    { m with
      threads := waking.threads
      waiters := update m.waiters queue waking.remaining }

/-- `scheduler_wake_all`. -/
def wakeAll (queue : Nat) : Machine := m.wakeCount queue (2 ^ 64 - 1)

/-- `detach_wait` on the counters. -/
def detachWaiter (waiters : Nat → Nat) : Option Nat → Nat → Nat
  | some queue => update waiters queue (waiters queue - 1)
  | none => waiters

/-- One thread of `wake_expired_waits`. -/
def expireOne (index : Nat) : Machine :=
  let thread := m.threads index
  if thread.state ≠ .blocked ∨ thread.blockedDeadlineTicks = 0 ∨
      m.ticks < thread.blockedDeadlineTicks then m
  else
    { m.setThread index { thread.detached with state := .ready } with
      waiters := detachWaiter m.waiters thread.blockedQueue }

def wakeExpiredWaits : Machine := (range m.capacity).foldl expireOne m

/-! ## Threads -/

/-- The slot that `spawn_thread` reuses. -/
def freeThread : Option Nat :=
  (range m.capacity).find? fun index =>
    index ≠ 0 ∧ index ≠ m.current ∧
      ((m.threads index).state = .unused ∨ (m.threads index).state = .dead)

/-- `spawn_thread`, if stack and record storage are granted. -/
def spawnThread (thread : Thread) (granted : Bool) : Bool × Machine :=
  if !granted then (false, m)
  else
    match m.freeThread with
    | some index => (true, m.setThread index { thread with state := .ready })
    | none =>
      if m.capacity = maxThreads then (false, m)
      else
        (true, { m with
          threads := fun index =>
            if index = m.capacity then { thread with state := .ready }
            else if m.capacity < index then {} else m.threads index
          capacity := m.capacity + initialThreads })

/-- `scheduler_exit_current` up to its loop. -/
def exitCurrent : Machine :=
  m.setRunning fun thread => { thread with state := .dead, spot := .ended, window := false }

/-- `scheduler_kill_user_threads`. -/
def killUserThreads (process : Nat) : Machine :=
  { m with
    threads := fun index =>
      let thread := m.threads index
      if index < m.capacity ∧ thread.state ≠ .unused ∧ thread.state ≠ .dead ∧
          thread.userContext = some process ∧ thread.userThread then
        { thread.detached with state := .dead, userContext := none, userThread := false }
      else thread
    waiters := fun queue =>
      m.waiters queue - ((range m.capacity).filter fun index =>
        (m.threads index).state ≠ .unused ∧ (m.threads index).state ≠ .dead ∧
        (m.threads index).userContext = some process ∧ (m.threads index).userThread ∧
        (m.threads index).blockedQueue = some queue).length }

/-! ## The I/O gate and user contexts -/

/-- Another thread owns the gate: `scheduler_io_busy`. -/
def ioBusy : Bool := m.ioDepth != 0 && m.ioOwner != m.current

/-- `scheduler_io_begin`. -/
def ioBegin : Machine :=
  if !m.ioServicesEnabled ∨ m.ioBusy then m
  else if m.ioDepth = 0 then
    { m with ioDepth := 1, ioOwner := m.current, ioPrivateImage := none }
  else { m with ioDepth := m.ioDepth + 1 }

/-- `scheduler_io_end`. -/
def ioEnd : Machine :=
  if m.ioDepth = 0 ∨ m.ioOwner ≠ m.current then m
  else if m.ioDepth = 1 then { m with ioDepth := 0, ioPrivateImage := none }.wakeAll ioWaiters
  else { m with ioDepth := m.ioDepth - 1 }

/-- `bind_user_context` for a process that resolves. -/
def setUserContext (process : Nat) : Machine :=
  if m.ioBusy ∨ m.running.state ≠ .running ∨ m.running.userThread then { m with halted := true }
  else m.setRunning fun thread => { thread with userContext := some process, ioUserSafe := false }

/-- `scheduler_clear_user_context`. -/
def clearUserContext : Machine :=
  if m.ioBusy ∨ m.running.state ≠ .running then { m with halted := true }
  else
    m.setRunning fun thread =>
      { thread with userContext := none, userThread := false, ioUserSafe := false }

/-! ## The work queue -/

def enqueue (item : WorkItem) : Machine := { m with items := m.items ++ [item] }

def scheduleWork (fn arg : Nat) (ioSafe : Bool) : Machine :=
  if !m.workerStarted then m
  else
    match m.items.findIdx? fun item => item.fn = fn ∧ item.arg = arg with
    | some index =>
      { m with items := m.items.modify index fun item =>
          { item with ioSafe := item.ioSafe && ioSafe } }
    | none =>
      if m.items.length < workqueueMaxItems then
        (m.enqueue ⟨fn, arg, ioSafe⟩).wakeAll workWaitQueue
      else m

def takeWork : Option WorkItem × Machine :=
  match m.items with
  | [] => (none, m.setRunning fun thread => { thread with spot := .idle })
  | item :: rest =>
    (some item, { m.setRunning fun thread => { thread with spot := .callback } with
      items := rest
      callbackActive := true
      callbackIoSafe := item.ioSafe })

end Machine

/-- Where a thread continues after a `scheduler_yield` at a spot. -/
def Spot.afterYield : Spot → Spot
  | .done | .refused => .taking
  | spot => spot

/-- The threads that `spawn_thread` is called for. -/
inductive Kind where
  | kernel
  | user
  | idle
  | service (ready : Bool)
deriving DecidableEq

/-- A step of the machine. -/
inductive Event where
  | spawn (kind : Kind) (granted : Bool)
  /-- `workqueue_init`. -/
  | workqueueInit (granted : Bool)
  /-- The search at the end of `scheduler_start_idle_worker`. -/
  | findIdle (index : Nat)
  | enableIoServices
  | yield
  /-- `scheduler_io_handoff` to a thread of its choice. -/
  | handoff (preferred : Nat)
  /-- `scheduler_wait_timeout` and the calls that end in it. -/
  | wait (queue deadline : Nat) (condition interrupts : Bool)
  /-- The `scheduler_yield` at the end of `scheduler_wait_timeout`. -/
  | proceed
  | exit
  /-- The `scheduler_yield` in the loop of a thread that has ended. -/
  | linger
  | ioBegin
  | ioEnd
  | setUserSafe (safe : Bool)
  | setUserContext (process : Nat)
  | clearUserContext
  /-- `scheduler_kill_user_threads` from `process_exit`, past the gate and in the main thread. -/
  | killUserThreads (process : Nat)
  | takeWork
  /-- A callback returns. -/
  | callbackDone
  /-- The `scheduler_wait` of the worker. -/
  | workWait (interrupts : Bool)
  /-- `workqueue_schedule` or `workqueue_schedule_io_safe`, by a thread or by an interrupt. -/
  | schedule (fn arg : Nat) (ioSafe : Bool)
  /-- The timer interrupt; the process of the running thread may have to exit. -/
  | tick (shouldExit : Bool)
  /-- A wakeup by a thread or by an interrupt. -/
  | wake (queue limit : Nat)
  /-- A driver's condition changes. -/
  | setServiceReady (index : Nat) (ready : Bool)
deriving DecidableEq

namespace Machine

/-- Any thread but the idle thread and the worker, or the worker inside a callback. -/
def general : Bool :=
  m.inOwnCode && (m.running.spot == .own || m.running.spot == .callback) &&
    m.running.callback != some .idle

/-- The running thread is at a spot of the loop of `workqueue_worker`. -/
def atSpot (spot : Spot) : Bool := m.inOwnCode && m.running.spot == spot

def spawned : Kind → Thread
  | .kernel => {}
  | .user => { userContext := m.running.userContext, userThread := true, ioUserSafe := true }
  | .idle => { callback := some .idle }
  | .service ready => { callback := some (.service ready) }

def workqueueInit (granted : Bool) : Machine :=
  let (started, m) := m.spawnThread { callback := some .workqueue, spot := .taking } granted
  { m with workqueueInitialized := true, workerStarted := started }

/-- The main thread of a process returns to the kernel code that has entered the process, another
thread ends. -/
def processExit : Machine :=
  let cleared := m.clearUserContext
  if cleared.halted then cleared
  else if m.running.userThread then cleared.exitCurrent.yieldTo none
  else cleared.setRunning fun thread => { thread with window := false }

/-- `scheduler_preempt_tick`, after the timer has counted the tick. -/
def preemptTick (shouldExit : Bool) : Machine :=
  let m := { m with ticks := m.ticks + 1 }.wakeExpiredWaits
  if m.ioDepth = 0 ∧ shouldExit ∧ m.running.userContext.isSome then m.processExit
  else if m.preemptTickAccumulator + 1 < preemptQuantumTicks then
    { m with preemptTickAccumulator := m.preemptTickAccumulator + 1 }
  else { m with preemptTickAccumulator := 0 }.yieldTo none

/-- An event that the running thread cannot bring about changes nothing. -/
def step (event : Event) : Option WorkItem × Machine :=
  if m.halted then (none, m)
  else
    match event with
    | .spawn kind granted =>
      (none, if m.general && (kind != .user || m.running.userContext.isSome) then
        (m.spawnThread (m.spawned kind) granted).2 else m)
    | .workqueueInit granted =>
      (none, if m.general && !m.workqueueInitialized then m.workqueueInit granted else m)
    | .findIdle index =>
      (none, if m.idleThread.isNone && index != 0 && decide (index < m.capacity) &&
          (m.threads index).callback == some .idle then
        { m with idleThread := some index } else m)
    | .enableIoServices => (none, if m.general then { m with ioServicesEnabled := true } else m)
    | .yield =>
      (none, if m.inOwnCode && m.running.spot != .taking && m.running.spot != .idle then
        (m.setRunning fun thread => { thread with spot := thread.spot.afterYield }).yieldTo none
        else m)
    | .handoff preferred =>
      (none, if m.general && m.ioServicesEnabled && m.ioDepth == 0 &&
          m.running.state == .running && m.running.ioUserSafe then
        m.yieldTo (some preferred) else m)
    | .wait queue deadline condition interrupts =>
      (none, if m.general then
        m.waitTimeout queue deadline condition interrupts m.running.spot m.running.spot else m)
    | .proceed =>
      (none, if (m.threads m.cpu).window then
        (m.setRunning fun thread => { thread with window := false }).yieldTo none else m)
    | .exit =>
      (none, if m.general && m.running.spot == .own &&
          !(m.ioDepth != 0 && m.ioOwner == m.current) then
        m.exitCurrent.yieldTo none else m)
    | .linger =>
      (none, if !(m.threads m.cpu).window && (m.threads m.cpu).spot == .ended then
        m.yieldTo none else m)
    | .ioBegin => (none, if m.general then m.ioBegin else m)
    | .ioEnd => (none, if m.general then m.ioEnd else m)
    | .setUserSafe safe =>
      (none, if m.general then
        m.setRunning fun thread => { thread with ioUserSafe := safe } else m)
    | .setUserContext process =>
      (none, if m.general && m.running.callback.isNone then m.setUserContext process else m)
    | .clearUserContext =>
      (none, if m.general && m.running.callback.isNone then m.clearUserContext else m)
    | .killUserThreads process =>
      (none, if m.general && !m.ioBusy && !m.running.userThread then
        m.killUserThreads process else m)
    | .takeWork => if m.atSpot .taking then m.takeWork else (none, m)
    | .callbackDone =>
      (none, if m.atSpot .callback && !(m.ioDepth != 0 && m.ioOwner == m.current) then
        { m.setRunning fun thread => { thread with spot := .done } with callbackActive := false }
        else m)
    | .workWait interrupts =>
      (none, if m.atSpot .idle then
        m.waitTimeout workWaitQueue 0 (!m.items.isEmpty) interrupts .taking .refused else m)
    | .schedule fn arg ioSafe => (none, m.scheduleWork fn arg ioSafe)
    | .tick shouldExit => (none, m.preemptTick shouldExit)
    | .wake queue limit => (none, m.wakeCount queue limit)
    | .setServiceReady index ready =>
      (none, match (m.threads index).callback with
        | some (.service _) =>
          m.setThread index { m.threads index with callback := some (.service ready) }
        | _ => m)

def after (events : List Event) : Machine := (run step {} events).2

end Machine

end SrvrOS.Scheduler
