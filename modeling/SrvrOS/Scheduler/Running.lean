import SrvrOS.Scheduler.Select

/-!
# A thread that runs is RUNNING

`yield_to` marks the thread it switches to, but returns early when it selects its caller. A thread
that has marked itself BLOCKED, and perhaps was woken before its `scheduler_yield`, then goes on as
BLOCKED or READY. The property fails in no other way.
-/

namespace SrvrOS.Scheduler

open Lib Function List Machine

namespace Machine

variable {m m' : Machine}

/-- A thread in its own code is the current thread, RUNNING, and no other thread is. -/
def RunsRunning (m : Machine) : Prop :=
  m.inOwnCode = true → m.cpu = m.current ∧ m.running.state = .running ∧
    ∀ index, index ≠ m.current → (m.threads index).state ≠ .running

/-- The machine as the `scheduler_yield` of a waiting thread finds it. -/
def leaveWindow (m : Machine) : Machine :=
  m.setRunning fun thread => { thread with window := false }

/-- If a waiting thread comes to its `scheduler_yield`, it is RUNNING or another thread can be
selected there. -/
def Leaves (m : Machine) (event : Event) : Prop :=
  m.halted = false → event = .proceed → m.running.window = true → m.running.spot ≠ .ended →
    m.running.state = .running ∨ m.HasOther

/-- The invariant of all runs; its last part depends on the assumption that every waiting
thread has left. -/
structure Good (leaving : Prop) (m : Machine) : Prop extends m.Orderly where
  runs : m.inOwnCode = true → leaving → m.running.state = .running

variable {leaving : Prop}

theorem Good.runsRunning (good : m.Good True) : m.RunsRunning := fun own =>
  ⟨good.cpu, good.runs own trivial, fun i apart runs => apart (good.single i runs)⟩

/-! ## Single changes -/

variable {i : Nat} {t : Thread} {change : Thread → Thread} {preferred : Option Nat}

theorem setThread_current (apart : i ≠ m.current) :
    (m.setThread i t).running = m.running := update_of_ne apart.symm ..

theorem setRunning_running (change : Thread → Thread) :
    (m.setRunning change).running = change m.running := update_self ..

theorem Orderly.setRunning (orderly : m.Orderly) (change : Thread → Thread) :
    (m.setRunning change).Orderly := by
  refine ⟨orderly.cpu, orderly.bounded, fun i runs => ?_⟩
  by_contra apart
  have eq : (m.setRunning change).threads i = m.threads i := update_of_ne apart ..
  exact apart (orderly.single i (eq ▸ runs))

theorem inOwnCode_iff (orderly : m.Orderly) :
    m.inOwnCode = true ↔ m.running.window = false ∧ m.running.spot ≠ .ended := by
  have here : m.threads m.cpu = m.running := by rw [orderly.cpu]; rfl
  rw [inOwnCode, here]
  simp

/-- The running thread may change as long as it stays RUNNING or is not in its own code. -/
theorem Good.setRunning (good : m.Good leaving)
    (fits : (m.setRunning change).inOwnCode = true → leaving →
      (change m.running).state = .running) :
    (m.setRunning change).Good leaving :=
  ⟨good.toOrderly.setRunning change, fun own left =>
    (setRunning_running change).symm ▸ fits own left⟩

theorem inOwnCode_setRunning (orderly : m.Orderly)
    (w : (change m.running).window = m.running.window)
    (spot : ((change m.running).spot = .ended) = (m.running.spot = .ended)) :
    (m.setRunning change).inOwnCode = m.inOwnCode := by
  have before : m.threads m.cpu = m.running := by rw [orderly.cpu]; rfl
  have after : (m.setRunning change).threads (m.setRunning change).cpu = change m.running := by
    have cpu : (m.setRunning change).cpu = m.current := orderly.cpu
    rw [cpu]
    exact setRunning_running change
  have eq : ((change m.running).spot != .ended) = (m.running.spot != .ended) := by
    rw [Bool.eq_iff_iff, bne_iff_ne, bne_iff_ne, ne_eq, spot]
  rw [inOwnCode, inOwnCode, before, after, w, eq]

theorem Good.congr (good : m.Good leaving) (threads : m'.threads = m.threads)
    (current : m'.current = m.current) (cpu : m'.cpu = m.cpu)
    (capacity : m'.capacity = m.capacity) : m'.Good leaving := by
  refine ⟨⟨?_, ?_, ?_⟩, ?_⟩
  · rw [cpu, current, good.cpu]
  · rw [current, capacity]
    exact good.bounded
  · rw [threads, current]
    exact good.single
  intro own
  rw [running, threads, current]
  exact good.runs (by rwa [inOwnCode, threads, cpu] at own)

theorem Good.stirs (good : m.Good leaving) (stirs : m.Stirs m') : m'.Good leaving :=
  ⟨good.toOrderly.stirs stirs, fun own left =>
    stirs.running_state (good.runs (stirs.inOwnCode ▸ own) left)⟩

/-- `yield_to` leaves the thread it enters RUNNING unless it selects its caller. -/
theorem Orderly.good_yieldTo (orderly : m.Orderly)
    (kept : (m.select preferred).1 = m.current → m.inOwnCode = true → leaving →
      m.running.state = .running) : (m.yieldTo preferred).Good leaving := by
  refine ⟨orderly.yieldTo, fun own left => ?_⟩
  rw [yieldTo_eq orderly] at own ⊢
  split at own
  next eq =>
    rw [if_pos eq]
    exact kept eq own left
  next apart =>
    rw [if_neg apart, running]
    have entered := switchTo_next (m := m) (m.select preferred).1 apart
    exact entered ▸ rfl

theorem Good.yieldTo (good : m.Good leaving) : (m.yieldTo preferred).Good leaving :=
  good.toOrderly.good_yieldTo fun _ own => good.runs own

/-! ## Programs -/

theorem freeThread_some (found : m.freeThread = some i) :
    i ≠ m.current ∧
      ((m.threads i).state = .unused ∨ (m.threads i).state = .dead) := by
  have suits := find?_some found
  simp only [decide_eq_true_eq] at suits
  exact suits.2

/-- A thread other than the current one may change as long as it is not made RUNNING. -/
theorem Good.setThread (good : m.Good leaving) (apart : i ≠ m.current)
    (stopped : t.state ≠ .running) : (m.setThread i t).Good leaving := by
  refine ⟨⟨good.cpu, good.bounded, fun place runs => ?_⟩, fun own => ?_⟩
  · by_contra away
    rcases eq_or_ne place i with rfl | other
    · simp only [setThread, update_self] at runs
      exact stopped runs
    · simp only [Machine.setThread, update_of_ne other] at runs
      exact away (good.single place runs)
  rw [setThread_current apart]
  refine good.runs ?_
  have here : (m.setThread i t).cpu = m.cpu := rfl
  have eq : (m.setThread i t).threads m.cpu = m.threads m.cpu :=
    update_of_ne (by rw [good.cpu]; exact apart.symm) ..
  rwa [inOwnCode, here, eq] at own

theorem Good.spawnThread (good : m.Good leaving) {granted : Bool} :
    (m.spawnThread t granted).2.Good leaving := by
  unfold Machine.spawnThread
  split
  · exact good
  cases found : m.freeThread with
  | some i => exact good.setThread (freeThread_some found).1 (by simp)
  | none =>
    dsimp only
    split
    · exact good
    have here : (m.current = m.capacity) = False := by simp [Nat.ne_of_lt good.bounded]
    have inside : (m.capacity < m.current) = False := by simp [Nat.le_of_lt good.bounded]
    have eq : (if m.current = m.capacity then { t with state := .ready }
        else if m.capacity < m.current then {} else m.threads m.current) =
        m.threads m.current := by simp [here, inside]
    refine ⟨⟨good.cpu, Nat.lt_of_lt_of_le good.bounded (Nat.le_add_right ..), fun i runs => ?_⟩,
      fun own => ?_⟩
    · dsimp only at runs
      split at runs
      · cases runs
      split at runs
      · cases runs
      · exact good.single i runs
    have own : m.inOwnCode = true := by simpa only [inOwnCode, good.cpu, eq] using own
    have runs := good.runs own
    simpa only [running, eq] using runs

theorem Good.killUserThreads (good : m.Good leaving) (caller : m.running.userThread = false)
    (p : Nat) : (m.killUserThreads p).Good leaving := by
  have spared : (m.killUserThreads p).threads m.current = m.threads m.current := by
    have caller : (m.threads m.current).userThread = false := caller
    simp [Machine.killUserThreads, caller]
  refine ⟨⟨good.cpu, good.bounded, fun i runs => ?_⟩, fun own => ?_⟩
  · simp only [Machine.killUserThreads] at runs
    split at runs
    · cases runs
    · exact good.single i runs
  rw [inOwnCode, show (m.killUserThreads p).cpu = m.current from good.cpu, spared,
    ← good.cpu] at own
  have runs := good.runs own
  rw [running, show (m.killUserThreads p).current = m.current from rfl, spared]
  exact runs

theorem exitCurrent_orderly (orderly : m.Orderly) : m.exitCurrent.Orderly := orderly.setRunning _

theorem exitCurrent_not_own (orderly : m.Orderly) : m.exitCurrent.inOwnCode = false := by
  have here : m.exitCurrent.threads m.exitCurrent.cpu = m.exitCurrent.running := by
    rw [show m.exitCurrent.cpu = m.current from orderly.cpu]
    rfl
  rw [inOwnCode, here]
  have ended : m.exitCurrent.running.spot = .ended := by simp [exitCurrent, setRunning_running]
  simp [ended]

theorem Orderly.good_exit (orderly : m.Orderly) : (m.exitCurrent.yieldTo none).Good leaving :=
  (exitCurrent_orderly orderly).good_yieldTo fun _ own =>
    absurd own (by simp [exitCurrent_not_own orderly])

section

variable (good : m.Good leaving)

include good

theorem Good.waitTimeout {q deadline : Nat} {condition interrupts : Bool}
    {woken turnedAway : Spot} (own : m.inOwnCode = true) :
    (m.waitTimeout q deadline condition interrupts woken turnedAway).Good leaving := by
  have runs := good.runs own
  unfold Machine.waitTimeout
  split
  · exact good.setRunning fun _ => runs
  split
  · exact good.setRunning fun _ => runs
  rename_i ready
  have ready : m.hasReadyThreadExcept m.current = true := by simpa using ready
  generalize blocked : (m.setRunning fun t =>
    { t with
      state := .blocked, blockedQueue := some q, blockedDeadlineTicks := deadline
      spot := woken, window := interrupts }) = waiting
  have orderly := blocked ▸ good.toOrderly.setRunning _
  have state : waiting.running.state = .blocked := by rw [← blocked, setRunning_running]
  have here : waiting.current = m.current := by rw [← blocked]; rfl
  have counted : { waiting with
      waiters := update waiting.waiters q (waiting.waiters q + 1) }.Orderly :=
    ⟨orderly.cpu, orderly.bounded, orderly.single⟩
  split
  next open_ =>
    refine ⟨counted, fun own => ?_⟩
    have w : waiting.running.window = true := by
      rw [← blocked, setRunning_running]
      exact open_
    have closed : waiting.inOwnCode = false := by
      have onCpu : waiting.threads waiting.cpu = waiting.running := by rw [orderly.cpu]; rfl
      rw [inOwnCode, onCpu, w]
      rfl
    cases closed.symm.trans own
  refine counted.good_yieldTo fun eq _ => ?_
  have ready : hasReadyThreadExcept { waiting with
      waiters := update waiting.waiters q (waiting.waiters q + 1) }
      waiting.current = true := by
    have gate := blocked ▸ sameGate_setRunning rfl rfl rfl
    rw [← ready, here]
    refine any_congr ?_ fun i => ?_
    · rw [← blocked]
      rfl
    rcases eq_or_ne i m.current with rfl | apart
    · simp
    have t : waiting.threads i = m.threads i := by
      rw [← blocked]
      exact update_of_ne apart ..
    have allowed := gate.allowed i
    rw [t]
    exact congrArg _ allowed
  exact absurd eq (select_ne_current counted (by
    intro runs
    cases state.symm.trans runs) (by
    intro readyState
    cases state.symm.trans readyState) ready)

theorem Good.clearUserContext : m.clearUserContext.Good leaving := by
  unfold Machine.clearUserContext
  split
  · exact good.congr rfl rfl rfl rfl
  next allowed =>
    simp only [Bool.not_eq_true, not_or, Classical.not_not] at allowed
    exact good.setRunning fun _ _ => allowed.2

theorem Good.processExit : m.processExit.Good leaving := by
  unfold Machine.processExit
  dsimp only
  split
  · exact good.clearUserContext
  rename_i live
  split
  · exact good.clearUserContext.toOrderly.good_exit
  refine good.clearUserContext.setRunning fun _ _ => ?_
  unfold Machine.clearUserContext at live ⊢
  split
  next refused => simp [refused] at live
  next allowed =>
    simp only [Bool.not_eq_true, not_or, Classical.not_not] at allowed
    rw [setRunning_running]
    exact allowed.2

theorem Good.preemptTick {shouldExit : Bool} : (m.preemptTick shouldExit).Good leaving := by
  have stirs : m.Stirs { m with ticks := m.ticks + 1 }.wakeExpiredWaits :=
    Stirs.trans ⟨fun _ => .refl, rfl⟩ wakeExpiredWaits_stirs
  have woken := good.stirs stirs
  unfold Machine.preemptTick
  dsimp only
  split
  · exact woken.processExit
  split
  · exact woken.congr rfl rfl rfl rfl
  have counted : { { m with ticks := m.ticks + 1 }.wakeExpiredWaits with
      preemptTickAccumulator := 0 }.Good leaving := woken.congr rfl rfl rfl rfl
  exact counted.yieldTo

theorem Good.scheduleWork {fn arg : Nat} {ioSafe : Bool} :
    (m.scheduleWork fn arg ioSafe).Good leaving := by
  unfold Machine.scheduleWork
  split
  · exact good
  split
  · exact good.congr rfl rfl rfl rfl
  split
  · have queued : (m.enqueue ⟨fn, arg, ioSafe⟩).Good leaving := good.congr rfl rfl rfl rfl
    exact queued.stirs wakeCount_stirs
  · exact good

theorem Good.ioEnd : m.ioEnd.Good leaving := by
  unfold Machine.ioEnd
  split
  · exact good
  split
  · have closed : { m with ioDepth := 0, ioPrivateImage := none }.Good leaving :=
      good.congr rfl rfl rfl rfl
    exact closed.stirs wakeCount_stirs
  · exact good.congr rfl rfl rfl rfl

end

/-! ## Steps -/

theorem initial_good : Good leaving {} := by
  refine ⟨⟨rfl, by decide, fun i runs => ?_⟩, fun _ _ => rfl⟩
  by_contra apart
  simp [apart] at runs

theorem leaveWindow_orderly (orderly : m.Orderly) : m.leaveWindow.Orderly := orderly.setRunning _

theorem leaveWindow_inOwnCode (orderly : m.Orderly) :
    m.leaveWindow.inOwnCode = true ↔ m.running.spot ≠ .ended := by
  rw [inOwnCode_iff (leaveWindow_orderly orderly), leaveWindow, setRunning_running]
  exact and_iff_right rfl

theorem leaveWindow_hasOther : m.leaveWindow.HasOther ↔ m.HasOther := by
  have state (i : Nat) : (m.leaveWindow.threads i).state = (m.threads i).state := by
    rcases eq_or_ne i m.current with rfl | apart
    · have here : m.leaveWindow.threads m.current = _ := setRunning_running _
      rw [here]
      rfl
    · exact congrArg Thread.state (update_of_ne apart ..)
  have same (i : Nat) : m.leaveWindow.acceptable i = m.acceptable i := by
    have allowed : m.leaveWindow.ioThreadAllowed i = m.ioThreadAllowed i :=
      (sameGate_setRunning rfl rfl rfl).allowed i
    rw [acceptable, acceptable, state, allowed]
    rfl
  simp only [HasOther, same, running, state]
  rfl

variable {e : Event} {events : List Event} {n : Nat}

theorem Good.step (good : m.Good leaving) (leaves : leaving → m.Leaves e) :
    (m.step e).2.Good leaving := by
  unfold Machine.step
  split
  · exact good
  rename_i live
  have live : m.halted = false := by simpa using live
  have own (general : m.general = true) : m.inOwnCode = true := by
    simp only [Machine.general, Bool.and_eq_true, Bool.or_eq_true, beq_iff_eq,
      bne_iff_ne] at general
    exact general.1.1
  have guarded {next : Machine} {allowed : Bool} (kept : allowed = true → next.Good leaving) :
      (if allowed then next else m).Good leaving := by
    split
    next holds => exact kept holds
    · exact good
  cases e with
  | spawn kind granted => exact guarded fun _ => good.spawnThread
  | workqueueInit granted =>
    exact guarded fun _ => good.spawnThread.congr rfl rfl rfl rfl
  | findIdle | enableIoServices => exact guarded fun _ => good.congr rfl rfl rfl rfl
  | yield =>
    refine guarded fun ready => ?_
    simp only [Bool.and_eq_true, bne_iff_ne] at ready
    have runs := good.runs ready.1.1
    have moved : (m.setRunning fun t => { t with spot := t.spot.afterYield }).Good leaving := by
      refine good.setRunning fun _ => ?_
      exact runs
    exact moved.yieldTo
  | handoff preferred => exact guarded fun _ => good.yieldTo
  | wait q deadline condition interrupts =>
    exact guarded fun general => good.waitTimeout (own general)
  | proceed =>
    refine guarded fun w => (leaveWindow_orderly good.toOrderly).good_yieldTo fun eq own left => ?_
    have going := (leaveWindow_inOwnCode good.toOrderly).mp own
    rw [good.cpu] at w
    rcases leaves left live rfl w going with runs | other
    · exact (setRunning_running _).symm ▸ runs
    · exact absurd eq ((select_ne_current_iff (leaveWindow_orderly good.toOrderly)).mpr
        (leaveWindow_hasOther.mpr other))
  | exit => exact guarded fun _ => good.toOrderly.good_exit
  | linger => exact guarded fun _ => good.yieldTo
  | ioBegin =>
    refine guarded fun _ => ?_
    unfold ioBegin
    split
    · exact good
    split <;> exact good.congr rfl rfl rfl rfl
  | ioEnd => exact guarded fun _ => good.ioEnd
  | setUserSafe safe =>
    exact guarded fun general => good.setRunning fun _ => good.runs (own general)
  | setUserContext p =>
    refine guarded fun general => ?_
    simp only [Bool.and_eq_true] at general
    unfold setUserContext
    split
    · exact good.congr rfl rfl rfl rfl
    · exact good.setRunning fun _ => good.runs (own general.1)
  | clearUserContext => exact guarded fun _ => good.clearUserContext
  | killUserThreads p =>
    refine guarded fun ready => good.killUserThreads ?_ p
    simp only [Bool.and_eq_true, Bool.not_eq_true'] at ready
    exact ready.2
  | takeWork =>
    dsimp only
    split
    next at_ =>
      simp only [atSpot, Bool.and_eq_true, beq_iff_eq] at at_
      have runs := good.runs at_.1
      unfold takeWork
      split
      · have found : (m.setRunning fun t => { t with spot := .idle }).Good leaving :=
          good.setRunning fun _ => runs
        exact found
      have taken : (m.setRunning fun t => { t with spot := .callback }).Good leaving :=
        good.setRunning fun _ => runs
      exact taken.congr rfl rfl rfl rfl
    · exact good
  | callbackDone =>
    refine guarded fun ready => ?_
    simp only [atSpot, Bool.and_eq_true, Bool.and_eq_false_iff, Bool.not_eq_true',
      beq_iff_eq] at ready
    have runs := good.runs ready.1.1
    have returned : (m.setRunning fun t => { t with spot := .done }).Good leaving :=
      good.setRunning fun _ => runs
    exact returned.congr rfl rfl rfl rfl
  | workWait interrupts =>
    refine guarded fun at_ => ?_
    simp only [atSpot, Bool.and_eq_true, beq_iff_eq] at at_
    exact good.waitTimeout at_.1
  | schedule fn arg ioSafe => exact good.scheduleWork
  | tick shouldExit => exact good.preemptTick
  | wake q limit => exact good.stirs wakeCount_stirs
  | setServiceReady i ready =>
    dsimp only
    split
    next other found =>
      rcases eq_or_ne i m.current with rfl | apart
      · have answered : (m.setRunning fun t =>
            { t with callback := some (.service ready) }).Good leaving := by
          refine good.setRunning fun own => good.runs ?_
          rwa [inOwnCode_setRunning good.toOrderly rfl rfl] at own
        exact answered
      · refine good.setThread apart fun runs => apart (good.single i runs)
    · exact good

/-- A waiting thread that does not leave goes on in its own code without being RUNNING. -/
theorem step_not_runsRunning (orderly : m.Orderly) (stays : ¬m.Leaves e) :
    ¬(m.step e).2.RunsRunning := by
  simp only [Leaves, Classical.not_imp, not_or] at stays
  obtain ⟨live, rfl, w, going, stopped, none_⟩ := stays
  have after := leaveWindow_orderly orderly
  have eq : (m.leaveWindow.select none).1 = m.current := by
    by_contra apart
    exact none_ (leaveWindow_hasOther.mp ((select_ne_current_iff after).mp apart))
  have kept : (m.step .proceed).2 = m.leaveWindow := by
    have open_ : (m.threads m.cpu).window = true := by
      rw [orderly.cpu]
      exact w
    simp only [step, live, open_]
    exact (yieldTo_eq after).trans (if_pos eq)
  rw [kept]
  intro claimed
  have runs := (claimed ((leaveWindow_inOwnCode orderly).mpr going)).2.1
  exact stopped ((setRunning_running _ ▸ runs :))

/-! ## Runs -/

theorem after_take_succ (here : events[n]? = some e) :
    after (events.take (n + 1)) = ((after (events.take n)).step e).2 := by
  rw [take_add_one, here, after, run_append]
  rfl

theorem after_good (leaves : ∀ k < n, ∀ e, events[k]? = some e → (after (events.take k)).Leaves e) :
    (after (events.take n)).Good True := by
  induction n with
  | zero => exact initial_good
  | succ n ih =>
    have before := ih fun k less => leaves k (Nat.lt_succ_of_lt less)
    cases here : events[n]? with
    | none =>
      have past := getElem?_eq_none_iff.mp here
      rw [take_of_length_le past] at before
      rwa [take_of_length_le (Nat.le_succ_of_le past)]
    | some e =>
      rw [after_take_succ here]
      exact before.step fun _ => leaves n (Nat.lt_succ_self n) e here

/-- In every run at most one thread is RUNNING: the current one. -/
theorem running_is_current (events : List Event) (i : Nat) :
    ((after events).threads i).state = .running → i = (after events).current := by
  have good : (after events).Good False :=
    run_invariant step (Good False) (fun _ _ good => good.step nofun) initial_good events
  exact good.single i

/-- The bootstrap thread waits, and the idle thread runs. -/
theorem running_is_current_idle :
    ((after [.spawn .idle true, .findIdle 1, .wait 2 1 false true, .proceed]).threads 1).state =
        .running ∧
      1 = (after [.spawn .idle true, .findIdle 1, .wait 2 1 false true, .proceed]).current := by
  have runs : ((after [.spawn .idle true, .findIdle 1, .wait 2 1 false true,
      .proceed]).threads 1).state = .running := by decide +kernel
  exact ⟨runs, running_is_current _ 1 runs⟩

/-- A run keeps every thread in its own code current, RUNNING and alone in that state if and only
if, whenever a waiting thread comes to the yield of its wait without being RUNNING, another thread
can be selected. -/
theorem runsRunning_iff (events : List Event) :
    (∀ n, (after (events.take n)).RunsRunning) ↔
      ∀ n event, events[n]? = some event → (after (events.take n)).Leaves event := by
  constructor
  · intro claimed n
    induction n using Nat.strongRecOn with
    | ind n earlier =>
      intro event here
      by_contra stays
      refine step_not_runsRunning (after_good earlier).toOrderly stays ?_
      rw [← after_take_succ here]
      exact claimed (n + 1)
  · exact fun leaves n => (after_good fun k _ => leaves k).runsRunning

/-- The deadline expires before the wait yields: the thread selects itself and goes on as READY. -/
theorem wakened_in_window :
    ¬(after [.spawn .idle true, .findIdle 1, .wait 2 1 false true, .tick false,
      .proceed]).RunsRunning := by
  intro claimed
  have own : inOwnCode (after [.spawn .idle true, .findIdle 1, .wait 2 1 false true,
      .tick false, .proceed]) = true := by decide +kernel
  have runs := (claimed own).2.1
  revert runs
  decide +kernel

end Machine

end SrvrOS.Scheduler
