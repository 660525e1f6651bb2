import SrvrOS.Scheduler.Running

/-!
# Work inside a storage operation

The worker may run inside the operation of another thread while the work at hand is marked safe.
But a thread that yields is not examined again when no other can be selected, and an interrupt can
change the queue while the worker is on its way to it; then it takes ordinary work there.
-/

namespace SrvrOS.Scheduler

open Lib Thread

variable {t : Thread} {change : Thread → Thread}

def Thread.Alive (thread : Thread) : Prop := thread.state ≠ .unused ∧ thread.state ≠ .dead

/-- What holds of each thread, given whether a callback of the work queue is active. -/
structure Thread.Sane (active : Bool) (thread : Thread) : Prop where
  service : thread.callback ≠ none → thread.userContext = none
  worker : thread.callback = some .workqueue →
    thread.Alive ∧ thread.spot ≠ .own ∧ thread.spot ≠ .ended ∧
      (thread.spot = .callback ↔ active = true)
  other : thread.callback ≠ some .workqueue → thread.spot = .own ∨ thread.spot = .ended
  idle : thread.callback = some .idle → thread.Alive

/-- Two states of a thread that differ in nothing that marks it. -/
structure Thread.Like (thread thread' : Thread) : Prop where
  callback : thread'.callback = thread.callback
  userContext : thread'.userContext = thread.userContext
  spot : thread'.spot = thread.spot
  alive : thread.Alive → thread'.Alive

theorem Thread.Like.refl {t : Thread} : t.Like t := ⟨rfl, rfl, rfl, id⟩

variable {t' : Thread}

theorem Thread.Like.sane {active : Bool} (like : t.Like t')
    (sane : t.Sane active) : t'.Sane active := by
  refine ⟨?_, ?_, ?_, ?_⟩
  · rw [like.callback, like.userContext]
    exact sane.service
  · rw [like.callback, like.spot]
    exact fun works => ⟨like.alive (sane.worker works).1, (sane.worker works).2⟩
  · rw [like.callback, like.spot]
    exact sane.other
  · rw [like.callback]
    exact fun isIdle => like.alive (sane.idle isIdle)

theorem Thread.Nudged.like (nudged : t.Nudged t') : t.Like t' := by
  obtain ⟨state, queue, deadline, rfl, moved⟩ := nudged
  refine ⟨rfl, rfl, rfl, fun alive => ?_⟩
  rcases moved with rfl | ⟨-, rfl⟩
  · exact alive
  · exact ⟨by simp, by simp⟩

theorem Thread.like_resumed : t.Like t.resumed :=
  ⟨rfl, rfl, rfl, fun _ => ⟨by simp [resumed], by simp [resumed]⟩⟩

theorem Thread.like_suspended : t.Like t.suspended := by
  unfold suspended
  split
  · exact ⟨rfl, rfl, rfl, fun _ => ⟨by simp, by simp⟩⟩
  · exact .refl

namespace Machine

variable {m m' : Machine} {preferred : Option Nat} {i next : Nat}

structure Base (m : Machine) : Prop where
  orderly : m.Orderly
  image : m.ioPrivateImage = none
  sane : ∀ index, (m.threads index).Sane m.callbackActive
  lone : ∀ index other, (m.threads index).callback = some .workqueue →
    (m.threads other).callback = some .workqueue → index = other
  fresh : m.workqueueInitialized = false →
    m.callbackActive = false ∧ ∀ index, (m.threads index).callback ≠ some .workqueue
  idle : ∀ index, m.idleThread = some index →
    index < m.capacity ∧ (m.threads index).callback = some .idle
  alive : m.running.spot ≠ .ended → m.running.Alive
  owner : m.ioDepth ≠ 0 → m.ioOwner < m.capacity ∧ (m.threads m.ioOwner).Alive ∧
    ((m.threads m.ioOwner).callback = some .workqueue →
      (m.threads m.ioOwner).spot = .callback)

/-- The work that the worker would take next, if there is any, is safe. -/
def nextSafe (m : Machine) : Bool := m.items.head?.all (·.ioSafe)

theorem nextSafe_of_ready (quiet : m.callbackActive = false)
    (ready : m.workqueueIoServiceReady = true) : m.nextSafe = true := by
  rw [workqueueIoServiceReady, if_neg (by simp [quiet])] at ready
  cases head : m.items.head? with
  | none => simp [nextSafe, head]
  | some item => simpa [nextSafe, head] using ready

/-- The running thread may run inside the operation of the gate's owner. -/
structure Admitted (m : Machine) : Prop where
  process : ∀ process, m.running.userContext = some process →
    (m.threads m.ioOwner).userContext ≠ some process
  service : m.running.userContext = none → m.running.callback ≠ none
  callback : m.running.callback = some .workqueue → m.running.spot = .callback →
    m.callbackIoSafe = true
  next : m.running.callback = some .workqueue → m.running.spot = .taking ∨ m.running.spot = .idle →
    m.running.window = false → m.nextSafe = true

/-- The invariant of runs in which the worker finds no ordinary work next. -/
structure Gated (m : Machine) : Prop extends m.Base where
  admitted : m.ioBusy = true → m.Admitted

theorem ioBusy_iff : m.ioBusy = true ↔ m.ioDepth ≠ 0 ∧ m.ioOwner ≠ m.current := by
  simp [ioBusy]

/-! ## Who is selected -/

theorem Base.admitted_of_allowed (b : m.Base) (busy : m.ioDepth ≠ 0)
    (foreign : i ≠ m.ioOwner) (allowed : m.ioThreadAllowed i = true) :
    (∀ p, (m.threads i).userContext = some p →
      (m.threads m.ioOwner).userContext ≠ some p) ∧
    ((m.threads i).userContext = none → (m.threads i).callback ≠ none) ∧
    ((m.threads i).callback = some .workqueue → m.workqueueIoServiceReady = true) := by
  simp only [ioThreadAllowed, excludedProcess, b.image, Bool.and_eq_true, Bool.or_eq_true,
    beq_iff_eq, bne_iff_ne, busy, foreign, false_or] at allowed
  rcases allowed with ⟨⟨isUser, -⟩, apart⟩ | ⟨isKernel, eligible⟩
  · refine ⟨fun p has owner => apart (has.trans owner.symm), fun none_ => ?_, fun works => ?_⟩
    · simp [none_] at isUser
    have none_ := (b.sane i).service (by simp [works])
    simp [none_] at isUser
  have kernel : (m.threads i).userContext = none := by simpa using isKernel
  refine ⟨fun p has => ?_, fun _ none_ => ?_, fun works => ?_⟩
  · simp [kernel] at has
  · simp [none_] at eligible
  · simpa [works, Machine.eligible] using eligible

/-! ## The base under changes of threads -/

/-- What a step may make of the thread at `index`. -/
structure Becomes (m : Machine) (active : Bool) (current index : Nat) (thread : Thread) : Prop where
  sane : thread.Sane active
  works : thread.callback = some .workqueue → (m.threads index).callback = some .workqueue
  isIdle : (m.threads index).callback = some .idle → thread.callback = some .idle
  alive : index = current → thread.spot ≠ .ended → thread.Alive
  owner : m.ioDepth ≠ 0 → index = m.ioOwner →
    thread.Alive ∧ (thread.callback = some .workqueue → thread.spot = .callback)

theorem Base.becomes (b : m.Base) (i : Nat) :
    m.Becomes m.callbackActive m.current i (m.threads i) where
  sane := b.sane i
  works := id
  isIdle := id
  alive := by
    rintro rfl
    exact b.alive
  owner := by
    rintro busy rfl
    exact (b.owner busy).2

theorem Becomes.like {active : Bool} {current i : Nat}
    (becomes : m.Becomes active current i t) (like : t.Like t') :
    m.Becomes active current i t' where
  sane := like.sane becomes.sane
  works := fun works => becomes.works (like.callback ▸ works)
  isIdle := fun isIdle => like.callback.trans (becomes.isIdle isIdle)
  alive := fun here going => like.alive (becomes.alive here (like.spot ▸ going))
  owner := fun busy here => by
    obtain ⟨living, works⟩ := becomes.owner busy here
    exact ⟨like.alive living, fun callback => like.spot.trans (works (like.callback ▸ callback))⟩

theorem Base.alter (b : m.Base) (orderly : m'.Orderly) (rest : m' = { m with
      threads := m'.threads, current := m'.current, cpu := m'.cpu, waiters := m'.waiters
      ticks := m'.ticks, items := m'.items, callbackActive := m'.callbackActive
      callbackIoSafe := m'.callbackIoSafe })
    (fresh : m.workqueueInitialized = false → m'.callbackActive = false)
    (each : ∀ i, m.Becomes m'.callbackActive m'.current i (m'.threads i)) :
    m'.Base := by
  cases m'
  cases rest
  exact {
    orderly := orderly
    image := b.image
    sane := fun i => (each i).sane
    lone := fun i other first second =>
      b.lone i other ((each i).works first) ((each other).works second)
    fresh := fun initial =>
      ⟨fresh initial, fun i works => (b.fresh initial).2 i ((each i).works works)⟩
    idle := fun i isIdle =>
      ⟨(b.idle i isIdle).1, (each i).isIdle (b.idle i isIdle).2⟩
    alive := (each _).alive rfl
    owner := fun busy => ⟨(b.owner busy).1, (each _).owner busy rfl⟩ }

theorem Stirs.nextSafe (stirs : m.Stirs m') : m'.nextSafe = m.nextSafe := by
  rw [stirs.2]
  rfl

theorem Base.stirs (b : m.Base) (stirs : m.Stirs m') : m'.Base := by
  have active : m'.callbackActive = m.callbackActive := by rw [stirs.2]
  refine b.alter (b.orderly.stirs stirs) (by rw [stirs.2])
    (fun initial => active.trans (b.fresh initial).1) fun i => ?_
  rw [active, stirs.current]
  exact (b.becomes i).like (stirs.1 i).like

theorem Gated.stirs (gated : m.Gated) (stirs : m.Stirs m') : m'.Gated := by
  refine ⟨gated.toBase.stirs stirs, fun busy => ?_⟩
  have owner : m'.ioOwner = m.ioOwner := by rw [stirs.2]
  have busy : m.ioBusy = true := by rwa [stirs.2] at busy
  obtain ⟨p, service, callback, next⟩ := gated.admitted busy
  obtain ⟨state, queue, deadline, equal, -⟩ := stirs.1 m.current
  have like := (stirs.1 m.ioOwner).like
  have same := stirs.nextSafe
  have safe : m'.callbackIoSafe = m.callbackIoSafe := by rw [stirs.2]
  have here : m'.running = { m.running with
      state := state, blockedQueue := queue, blockedDeadlineTicks := deadline } := by
    rw [running, stirs.current, equal]
    rfl
  refine ⟨?_, ?_, ?_, ?_⟩
  · rw [here, owner, like.userContext]
    exact p
  · rw [here]
    exact service
  · rw [here, safe]
    exact callback
  · rw [here, same]
    exact next

theorem switchTo_like (apart : next ≠ m.current) (i : Nat) :
    (m.threads i).Like ((m.switchTo next).threads i) := by
  rcases eq_or_ne i next with rfl | away
  · rw [switchTo_next i apart]
    exact like_resumed
  rcases eq_or_ne i m.current with rfl | other
  · rw [switchTo_current next apart]
    exact like_suspended
  · rw [switchTo_other away other]
    exact .refl

theorem Base.switchTo (b : m.Base) (apart : next ≠ m.current)
    (bounded : next < m.capacity) : (m.switchTo next).Base := by
  refine b.alter (b.orderly.switchTo apart bounded) rfl (fun initial => (b.fresh initial).1)
    fun i => { (b.becomes i).like (switchTo_like apart i) with alive := ?_ }
  rintro rfl -
  rw [switchTo_next i apart]
  exact ⟨by simp [resumed], by simp [resumed]⟩

/-- `yield_to` enters a thread that the gate allows, or comes back to the same thread. -/
theorem Base.gated_yieldTo (b : m.Base)
    (kept : (m.select preferred).1 = m.current → m.ioBusy = true → m.Admitted) :
    (m.yieldTo preferred).Gated := by
  rw [yieldTo_eq b.orderly]
  split
  next same => exact ⟨b, kept same⟩
  rename_i apart
  have choice := select_choice b.orderly preferred
  generalize (m.select preferred).1 = next at apart choice ⊢
  have bounded : next < m.capacity := by
    cases choice with
    | allowed bounded | idle bounded => exact bounded
    | keep same => exact absurd same apart
  have entered : (m.switchTo next).running = (m.threads next).resumed := switchTo_next next apart
  refine ⟨b.switchTo apart bounded, fun busy => ?_⟩
  obtain ⟨depth, foreign⟩ := ioBusy_iff.mp busy
  have foreign := Ne.symm foreign
  have owner := (switchTo_like apart m.ioOwner).userContext
  cases choice with
  | allowed _ _ allowed =>
    obtain ⟨p, service, works⟩ := b.admitted_of_allowed depth foreign allowed
    refine ⟨?_, ?_, fun callback at_ => ?_, fun callback at_ _ => ?_⟩
    · rw [entered]
      exact fun who has => owner.symm ▸ p who has
    · rw [entered]
      exact service
    · rw [entered] at callback at_
      have active := ((b.sane next).worker callback).2.2.2.mp at_
      have ready := works callback
      rwa [workqueueIoServiceReady, if_pos active] at ready
    · rw [entered] at callback at_
      have inactive := mt ((b.sane next).worker callback).2.2.2.mpr
        (by rcases at_ with at_ | at_ <;> simp [show (m.threads next).spot = _ from at_])
      have safe : m.nextSafe = true :=
        nextSafe_of_ready (by simpa using inactive) (works callback)
      exact safe
  | idle _ isIdle =>
    have callback := (b.idle next isIdle).2
    have kernel := (b.sane next).service (by simp [callback])
    refine ⟨?_, ?_, fun works => ?_, fun works => ?_⟩
    · rw [entered]
      exact fun who has => nomatch kernel.symm.trans has
    · rw [entered]
      exact fun _ => by simp [resumed, callback]
    · rw [entered] at works
      cases callback.symm.trans works
    · rw [entered] at works
      cases callback.symm.trans works
  | keep same => exact absurd same apart

theorem Gated.yieldTo (gated : m.Gated) : (m.yieldTo preferred).Gated :=
  gated.toBase.gated_yieldTo fun _ => gated.admitted

/-! ## The base under changes of one thread -/

theorem Base.setThread (b : m.Base) (orderly : (m.setThread i t).Orderly)
    (new : m.Becomes m.callbackActive m.current i t) : (m.setThread i t).Base :=
  b.alter orderly rfl (fun initial => (b.fresh initial).1)
    ((Function.forall_update_iff m.threads _).mpr ⟨new, fun place _ => b.becomes place⟩)

/-- The running thread may go on at a spot. -/
structure Fits (m : Machine) (spot : Spot) : Prop where
  worker : m.running.callback = some .workqueue →
    spot ≠ .own ∧ spot ≠ .ended ∧ (spot = .callback ↔ m.callbackActive = true)
  other : m.running.callback ≠ some .workqueue → spot = .own ∨ spot = .ended
  going : spot ≠ .ended → m.running.spot ≠ .ended

theorem Base.fits (b : m.Base) : m.Fits m.running.spot :=
  ⟨fun works => ((b.sane m.current).worker works).2, (b.sane m.current).other, id⟩

/-- The running thread moves on in its own code or in the scheduler; a service stays one. -/
theorem Base.move (b : m.Base) (fits : m.Fits (change m.running).spot)
    (callback : (change m.running).callback = m.running.callback)
    (service : m.running.callback ≠ none → (change m.running).userContext = none)
    (alive : m.running.Alive → (change m.running).Alive) : (m.setRunning change).Base := by
  have sane := b.sane m.current
  refine b.setThread (b.orderly.setRunning change)
    ⟨⟨?_, fun works => ?_, ?_, fun isIdle => ?_⟩, fun works => callback.symm.trans works,
      fun isIdle => callback.trans isIdle, fun _ going => alive (b.alive (fits.going going)),
      fun busy same => ?_⟩
  · rw [callback]
    exact service
  · rw [callback] at works
    exact ⟨alive (sane.worker works).1, fits.worker works⟩
  · rw [callback]
    exact fits.other
  · rw [callback] at isIdle
    exact alive (sane.idle isIdle)
  obtain ⟨-, living, works⟩ := b.owner busy
  rw [← same] at living works
  refine ⟨alive living, fun has => ?_⟩
  rw [callback] at has
  have active := (sane.worker has).2.2.2.mp (works has)
  exact (fits.worker has).2.2.mpr active

/-- Only what the running thread and the owner are matters, and what the worker is about to
do. -/
theorem Admitted.congr (admitted : m.Admitted)
    (callback : m'.running.callback.isSome = m.running.callback.isSome)
    (userContext : m'.running.userContext = m.running.userContext)
    (owner : (m'.threads m'.ioOwner).userContext = (m.threads m.ioOwner).userContext)
    (working : m'.running.callback = some .workqueue → m'.running.spot = .callback →
      m'.callbackIoSafe = true)
    (next : m'.running.callback = some .workqueue →
      m'.running.spot = .taking ∨ m'.running.spot = .idle → m'.running.window = false →
      m'.nextSafe = true) : m'.Admitted := by
  refine ⟨?_, ?_, working, next⟩
  · rw [userContext, owner]
    exact admitted.process
  rw [userContext]
  intro kernel none_
  have some_ := Option.isSome_iff_ne_none.mpr (admitted.service kernel)
  rw [← callback, none_] at some_
  cases some_

theorem owner_setRunning (userContext : (change m.running).userContext = m.running.userContext) :
    ((m.setRunning change).threads m.ioOwner).userContext = (m.threads m.ioOwner).userContext := by
  rcases eq_or_ne m.ioOwner m.current with same | apart
  · rw [same]
    exact (congrArg Thread.userContext (setRunning_running change)).trans userContext
  · exact congrArg Thread.userContext (Function.update_of_ne apart ..)

/-- The worker about to take work finds no ordinary work. -/
def Eligible (m : Machine) (spot : Spot) : Prop :=
  m.ioBusy = true → m.running.callback = some .workqueue → spot = .taking ∨ spot = .idle →
    m.nextSafe = true

theorem Gated.move (gated : m.Gated) (fits : m.Fits (change m.running).spot)
    (eligible : m.Eligible (change m.running).spot)
    (callback : (change m.running).callback = m.running.callback)
    (userContext : (change m.running).userContext = m.running.userContext)
    (alive : m.running.Alive → (change m.running).Alive) : (m.setRunning change).Gated := by
  refine ⟨gated.toBase.move fits callback
    (fun has => userContext.trans ((gated.sane m.current).service has)) alive, fun busy => ?_⟩
  have admitted := gated.admitted busy
  have here := setRunning_running (m := m) change
  refine admitted.congr (by rw [here, callback]) (by rw [here, userContext])
    (owner_setRunning userContext) ?_ ?_
  · rw [here, callback]
    intro works inside
    have active := (fits.worker works).2.2.mp inside
    have before := (((gated.sane m.current).worker works).2.2.2).mpr active
    exact admitted.callback works before
  · rw [here, callback]
    exact fun works at_ _ => eligible busy works at_

theorem Gated.eligible (gated : m.Gated) (closed : m.running.window = false) :
    m.Eligible m.running.spot :=
  fun busy works at_ => (gated.admitted busy).next works at_ closed

theorem Base.gated_of_free (b : m.Base) (free : m.ioBusy = false) : m.Gated :=
  ⟨b, fun busy => nomatch free.symm.trans busy⟩

end Machine

end SrvrOS.Scheduler
