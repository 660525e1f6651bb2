import SrvrOS.Scheduler.Gate

/-!
# Ordinary work stays outside

Every step keeps the invariant of `Gate`, except where the worker is not examined again: a
`scheduler_yield` that comes back to the worker, and an interrupt that changes the work the
worker is about to take.
-/

namespace SrvrOS.Scheduler

open Lib Function Machine

variable {t : Thread} {items : List WorkItem}

theorem Thread.Sane.active {active active' : Bool} (sane : t.Sane active)
    (j : t.callback ≠ some .workqueue) : t.Sane active' :=
  ⟨sane.service, fun works => absurd works j, sane.other, sane.idle⟩

theorem Thread.sane_empty {active : Bool} : ({} : Thread).Sane active :=
  ⟨by simp, by simp, fun _ => .inl rfl, by simp⟩

namespace Machine

variable {m : Machine} {active safe : Bool} {spot : Spot}

theorem general_spec (orderly : m.Orderly) (general : m.general = true) :
    m.running.window = false ∧ (m.running.spot = .own ∨ m.running.spot = .callback) ∧
      m.running.callback ≠ some .idle := by
  rw [Machine.general, Bool.and_eq_true, Bool.and_eq_true, inOwnCode_iff orderly, Bool.or_eq_true,
    beq_iff_eq, beq_iff_eq, bne_iff_ne] at general
  obtain ⟨⟨⟨closed, -⟩, spot⟩, j⟩ := general
  exact ⟨closed, spot, j⟩

theorem Base.works (b : m.Base) (loop : m.running.spot ≠ .own) (going : m.running.spot ≠ .ended) :
    m.running.callback = some .workqueue := by
  by_contra j
  rcases (b.sane m.current).other j with own | ended
  · exact loop own
  · exact going ended

theorem Gated.flags (gated : m.Gated) (enabled halted : Bool) (accumulated : Nat) :
    { m with
      ioServicesEnabled := enabled
      halted := halted
      preemptTickAccumulator := accumulated }.Gated := by
  exact { gated with
    orderly := { gated.orderly with }
    admitted := fun busy => { gated.admitted busy with } }

/-! ## New threads -/

/-- `spawn_thread` fills a slot that no thread holds, perhaps in a table it has extended. -/
theorem spawnThread_cases (orderly : m.Orderly) {t : Thread} {got : Bool} :
    m.spawnThread t got = (false, m) ∨
    ∃ i threads capacity,
      m.spawnThread t got = (true, { m with threads := threads, capacity := capacity }) ∧
      m.capacity ≤ capacity ∧ i ≠ m.current ∧
      threads i = { t with state := .ready } ∧
      (i < m.capacity → ¬(m.threads i).Alive) ∧
      ∀ p, p ≠ i →
        threads p = m.threads p ∨ (m.capacity < p ∧ threads p = {}) := by
  unfold spawnThread
  split
  · exact .inl rfl
  cases found : m.freeThread with
  | some i =>
    obtain ⟨apart, free⟩ := freeThread_some found
    refine .inr ⟨i, _, m.capacity, rfl, Nat.le_refl _, apart, update_self .., ?_,
      fun p away => .inl (update_of_ne away ..)⟩
    rintro - ⟨used, living⟩
    exact free.elim used living
  | none =>
    dsimp only
    split
    · exact .inl rfl
    refine .inr ⟨m.capacity, _, _, rfl, Nat.le_add_right .., Nat.ne_of_gt orderly.bounded,
      if_pos rfl, fun less => absurd less (Nat.lt_irrefl _), fun p away => ?_⟩
    by_cases far : m.capacity < p
    · exact .inr ⟨far, by simp [away, far]⟩
    · exact .inl (by simp [away, far])

/-- A new thread keeps the invariant; it is the worker only if the work queue is being
initialized. -/
theorem Gated.spawnThread (gated : m.Gated) {got initialized started : Bool}
    (sane : { t with state := .ready }.Sane m.callbackActive)
    (worker : t.callback = some .workqueue → m.workqueueInitialized = false)
    (grows : initialized = false → m.workqueueInitialized = false ∧ t.callback ≠ some .workqueue) :
    { (m.spawnThread t got).2 with
      workqueueInitialized := initialized, workerStarted := started }.Gated := by
  have orderly : { (m.spawnThread t got).2 with
      workqueueInitialized := initialized, workerStarted := started }.Orderly := by
    have weak : m.Good False := ⟨gated.orderly, fun _ left => left.elim⟩
    obtain ⟨cpu, bounded, single⟩ := weak.spawnThread.toOrderly
    exact ⟨cpu, bounded, single⟩
  rcases spawnThread_cases gated.orderly with refused | spawned
  · rw [refused] at orderly ⊢
    exact { gated with
      orderly := orderly
      fresh := fun initial => gated.fresh (grows initial).1
      admitted := fun busy => { gated.admitted busy with } }
  obtain ⟨i, threads, capacity, filled, wider, apart, new, free, others⟩ := spawned
  rw [filled] at orderly ⊢
  have spared {p : Nat} (inside : p < m.capacity) (living : (m.threads p).Alive) :
      threads p = m.threads p := by
    rcases eq_or_ne p i with rfl | away
    · exact absurd living (free inside)
    · exact (others p away).resolve_right fun far => Nat.lt_asymm inside far.1
  have current :=
    (others _ apart.symm).resolve_right fun far => Nat.lt_asymm gated.orderly.bounded far.1
  have former {p : Nat} (away : p ≠ i)
      (has : (threads p).callback = some .workqueue) :
      (m.threads p).callback = some .workqueue := by
    rcases others p away with eq | ⟨-, blank⟩
    · exact eq ▸ has
    rw [blank] at has
    cases has
  refine ⟨⟨orderly, gated.image, fun p => ?_, fun p p' first second => ?_,
    fun initial => ?_, fun p isIdle => ?_, ?_, fun busy => ?_⟩, fun busy => ?_⟩
  · dsimp only
    rcases eq_or_ne p i with rfl | away
    · rw [new]
      exact sane
    rcases others p away with eq | ⟨-, blank⟩
    · rw [eq]
      exact gated.sane p
    · rw [blank]
      exact Thread.sane_empty
  · have none_ (p : Nat) (is : (threads i).callback = some .workqueue) :
        (m.threads p).callback ≠ some .workqueue := by
      rw [new] at is
      exact (gated.fresh (worker is)).2 p
    rcases eq_or_ne p i with rfl | away
    · rcases eq_or_ne p' p with rfl | away'
      · rfl
      · exact absurd (former away' second) (none_ p' first)
    rcases eq_or_ne p' i with rfl | away'
    · exact absurd (former away first) (none_ p second)
    · exact gated.lone p p' (former away first) (former away' second)
  · obtain ⟨old, j⟩ := grows initial
    obtain ⟨quiet, none_⟩ := gated.fresh old
    refine ⟨quiet, fun p has => ?_⟩
    rcases eq_or_ne p i with rfl | away
    · dsimp only at has
      rw [new] at has
      exact j has
    · exact none_ p (former away has)
  · obtain ⟨bounded, callback⟩ := gated.idle p isIdle
    refine ⟨Nat.lt_of_lt_of_le bounded wider, ?_⟩
    dsimp only
    rw [spared bounded ((gated.sane p).idle callback)]
    exact callback
  · rw [running]
    dsimp only
    rw [current]
    exact gated.alive
  · obtain ⟨bounded, living, callback⟩ := gated.owner busy
    dsimp only
    rw [spared bounded living]
    exact ⟨Nat.lt_of_lt_of_le bounded wider, living, callback⟩
  have admitted := gated.admitted busy
  obtain ⟨bounded, living, -⟩ := gated.owner (ioBusy_iff.mp busy).1
  have owner := spared bounded living
  refine admitted.congr ?_ ?_ ?_ ?_ ?_ <;> simp only [running, current, owner]
  · exact admitted.callback
  · exact admitted.next

/-! ## Threads that end -/

theorem Base.exitCurrent (b : m.Base) (j : m.running.callback ≠ some .workqueue)
    (isIdle : m.running.callback ≠ some .idle) (free : m.ioDepth ≠ 0 → m.current ≠ m.ioOwner) :
    m.exitCurrent.Base :=
  b.setThread (exitCurrent_orderly b.orderly)
    ⟨⟨(b.sane m.current).service, fun works => absurd works j, fun _ => .inr rfl,
      fun idle => absurd idle isIdle⟩, id, id, fun _ going => absurd rfl going,
      fun busy eq => absurd eq (free busy)⟩

/-- The threads that `scheduler_kill_user_threads` ends are user threads that own nothing. -/
theorem Base.killUserThreads (b : m.Base) (caller : m.running.userThread = false)
    (free : m.ioBusy = false) (process : Nat) : (m.killUserThreads process).Base := by
  have orderly : (m.killUserThreads process).Orderly := by
    have weak : m.Good False := ⟨b.orderly, fun _ left => left.elim⟩
    exact (weak.killUserThreads caller process).toOrderly
  have owner (busy : m.ioDepth ≠ 0) : m.ioOwner = m.current := by
    by_contra apart
    cases free.symm.trans (ioBusy_iff.mpr ⟨busy, apart⟩)
  refine b.alter orderly rfl (fun initial => (b.fresh initial).1) fun i => ?_
  by_cases ends : i < m.capacity ∧ (m.threads i).state ≠ .unused ∧
      (m.threads i).state ≠ .dead ∧ (m.threads i).userContext = some process ∧
      (m.threads i).userThread
  · have ended : (m.killUserThreads process).threads i =
        { (m.threads i).detached with
          state := .dead, userContext := none, userThread := false } := if_pos ends
    obtain ⟨-, -, -, context, user⟩ := ends
    have plain : (m.threads i).callback = none := by
      by_contra has
      cases context.symm.trans ((b.sane i).service has)
    have apart : i ≠ m.current := by
      rintro rfl
      cases caller.symm.trans user
    have never (callback : Callback) : (m.threads i).callback ≠ some callback := by simp [plain]
    rw [ended]
    exact ⟨⟨fun _ => rfl, fun works => absurd works (never _),
      fun _ => (b.sane i).other (never _), fun isIdle => absurd isIdle (never _)⟩,
      fun works => absurd works (never _), fun isIdle => absurd isIdle (never _),
      fun here => absurd here apart, fun busy here => absurd (here.trans (owner busy)) apart⟩
  have eq : (m.killUserThreads process).threads i = m.threads i := if_neg ends
  rw [eq]
  exact b.becomes i

/-! ## User contexts -/

theorem Gated.clearUserContext (gated : m.Gated) : m.clearUserContext.Gated := by
  unfold Machine.clearUserContext
  split
  · exact gated.flags _ _ _
  rename_i allowed
  simp only [Bool.not_eq_true, not_or, Classical.not_not] at allowed
  have cleared : (m.setRunning fun t =>
      { t with userContext := none, userThread := false, ioUserSafe := false }).Base :=
    gated.toBase.move gated.toBase.fits rfl (fun _ => rfl) id
  exact cleared.gated_of_free allowed.1

theorem Gated.setUserContext (gated : m.Gated) (plain : m.running.callback = none)
    {process : Nat} : (m.setUserContext process).Gated := by
  unfold Machine.setUserContext
  split
  · exact gated.flags _ _ _
  rename_i allowed
  simp only [Bool.not_eq_true, not_or, Classical.not_not] at allowed
  have bound : (m.setRunning fun t =>
      { t with userContext := some process, ioUserSafe := false }).Base :=
    gated.toBase.move gated.toBase.fits rfl (fun has => absurd plain has) id
  exact bound.gated_of_free allowed.1

theorem Gated.processExit (gated : m.Gated) (idle : m.ioDepth = 0)
    (user : m.running.userContext.isSome = true) : m.processExit.Gated := by
  have cleared := gated.clearUserContext
  have plain : m.running.callback = none := by
    by_contra has
    have kernel : m.running.userContext = none := (gated.sane m.current).service has
    simp [kernel] at user
  have callback : m.clearUserContext.running.callback = none := by
    unfold Machine.clearUserContext
    split
    · exact plain
    rw [setRunning_running]
    exact plain
  have depth : m.clearUserContext.ioDepth = 0 := by
    unfold Machine.clearUserContext
    split <;> exact idle
  have free (m : Machine) (depth : m.ioDepth = 0) : m.ioBusy = false := by simp [ioBusy, depth]
  unfold Machine.processExit
  dsimp only
  split
  · exact cleared
  split
  · have ended := cleared.toBase.exitCurrent (by simp [callback]) (by simp [callback])
        fun busy => absurd depth busy
    exact ended.gated_yieldTo fun _ busy =>
      absurd ((free m.clearUserContext.exitCurrent depth).symm.trans busy) Bool.false_ne_true
  have returned : (m.clearUserContext.setRunning fun t =>
      { t with window := false }).Base :=
    cleared.toBase.move cleared.toBase.fits rfl (cleared.sane _).service id
  exact returned.gated_of_free (free _ depth)

/-! ## Waiting -/

theorem Gated.waitTimeout (gated : m.Gated) {q deadline : Nat} {condition interrupts : Bool}
    {woken turnedAway : Spot} (fitsWoken : m.Fits woken) (fitsAway : m.Fits turnedAway)
    (eligibleWoken : m.Eligible woken) (eligibleAway : m.Eligible turnedAway) :
    (m.waitTimeout q deadline condition interrupts woken turnedAway).Gated := by
  have goesOn {spot : Spot} (fits : m.Fits spot) (eligible : m.Eligible spot) :
      (m.setRunning fun t => { t with spot := spot }).Gated :=
    gated.move fits eligible rfl rfl id
  unfold Machine.waitTimeout
  split
  · exact goesOn fitsWoken eligibleWoken
  split
  · exact goesOn fitsAway eligibleAway
  have blocked : (m.setRunning fun t =>
      { t with
        state := .blocked, blockedQueue := some q, blockedDeadlineTicks := deadline
        spot := woken, window := interrupts }).Gated :=
    gated.move fitsWoken eligibleWoken rfl rfl fun _ => ⟨by simp, by simp⟩
  generalize (m.setRunning fun t =>
    { t with
      state := .blocked, blockedQueue := some q, blockedDeadlineTicks := deadline
      spot := woken, window := interrupts }) = waiting at blocked ⊢
  have counted : { waiting with
      waiters := update waiting.waiters q (waiting.waiters q + 1) }.Gated :=
    blocked.stirs ⟨fun _ => .refl, rfl⟩
  split
  · exact counted
  · exact counted.yieldTo

/-! ## The work queue -/

theorem Base.activate (b : m.Base) (works : m.running.callback = some .workqueue)
    (free : m.ioDepth ≠ 0 → m.current ≠ m.ioOwner)
    (inLoop : spot ≠ .own ∧ spot ≠ .ended) (agrees : spot = .callback ↔ active = true) :
    { m.setRunning fun t => { t with spot := spot } with
      items := items, callbackActive := active, callbackIoSafe := safe }.Base := by
  have sane := b.sane m.current
  have orderly := b.orderly.setRunning fun t => { t with spot := spot }
  refine b.alter { orderly with } rfl (fun initial => absurd works ((b.fresh initial).2 _)) ?_
  refine (forall_update_iff m.threads _).mpr ⟨?_, fun i apart => ?_⟩
  · exact ⟨⟨sane.service, fun _ => ⟨(sane.worker works).1, inLoop.1, inLoop.2, agrees⟩,
      fun j => absurd works j, sane.idle⟩, fun _ => works, id,
      fun _ _ => (sane.worker works).1, fun busy eq => absurd eq (free busy)⟩
  have j : (m.threads i).callback ≠ some .workqueue := fun also =>
    apart (b.lone i m.current also works)
  exact { b.becomes i with sane := (b.sane i).active j }

theorem Gated.activate (gated : m.Gated) (works : m.running.callback = some .workqueue)
    (free : m.ioDepth ≠ 0 → m.current ≠ m.ioOwner)
    (p : spot = .callback ∨ spot = .done) (agrees : spot = .callback ↔ active = true)
    (isSafe : m.ioBusy = true → spot = .callback → safe = true) :
    { m.setRunning fun t => { t with spot := spot } with
      items := items, callbackActive := active, callbackIoSafe := safe }.Gated := by
  have inLoop : spot ≠ .own ∧ spot ≠ .ended := by rcases p with rfl | rfl <;> simp
  have outside : ¬(spot = .taking ∨ spot = .idle) := by rcases p with rfl | rfl <;> simp
  refine ⟨gated.toBase.activate works free inLoop agrees, fun busy => ?_⟩
  have here : (m.setRunning fun t => { t with spot := spot }).running =
      { m.running with spot := spot } := setRunning_running _
  have callback := congrArg (·.callback.isSome) here
  have userContext := congrArg Thread.userContext here
  have at_ := congrArg Thread.spot here
  have owner : ((m.setRunning fun t => { t with spot := spot }).threads m.ioOwner).userContext =
      (m.threads m.ioOwner).userContext := owner_setRunning rfl
  refine (gated.admitted busy).congr callback userContext owner
    (fun _ inside => isSafe busy (at_.symm.trans inside)) fun _ loop _ => ?_
  exact absurd (loop.imp at_.symm.trans at_.symm.trans) outside

theorem Base.worker_free (b : m.Base) (works : m.running.callback = some .workqueue)
    (outside : m.running.spot ≠ .callback) : m.ioDepth ≠ 0 → m.current ≠ m.ioOwner := by
  intro busy eq
  obtain ⟨-, -, inside⟩ := b.owner busy
  rw [← eq] at inside
  exact outside (inside works)

section

variable (gated : m.Gated) (own : m.running.window = false) (taking : m.running.spot = .taking)
include gated own taking

/-- The worker about to take work inside the operation of another thread finds no ordinary
work. -/
theorem Gated.head_safe (busy : m.ioBusy = true) : m.nextSafe = true := by
  have works := gated.toBase.works (by simp [taking]) (by simp [taking])
  exact (gated.admitted busy).next works (.inl taking) own

theorem Gated.takeWork : m.takeWork.2.Gated := by
  have works := gated.toBase.works (by simp [taking]) (by simp [taking])
  have free := gated.toBase.worker_free works (by simp [taking])
  unfold Machine.takeWork
  split
  next empty =>
    have fits : m.Fits .idle := by
      have old := gated.toBase.fits.worker works
      refine ⟨fun _ => ⟨by simp, by simp, ?_⟩, fun j => absurd works j, fun _ => by simp [taking]⟩
      have quiet := old.2.2
      simpa [taking] using quiet
    have found : (m.setRunning fun t => { t with spot := .idle }).Gated :=
      gated.move fits (fun _ _ _ => by simp [nextSafe, empty]) rfl rfl id
    exact found
  rename_i item rest queued
  have taken : { m.setRunning fun t => { t with spot := .callback } with
      items := rest, callbackActive := true, callbackIoSafe := item.ioSafe }.Gated := by
    refine gated.activate works free (.inl rfl) (by simp) fun busy _ => ?_
    have safe := gated.head_safe own taking busy
    simpa [nextSafe, queued] using safe
  exact taken

end

theorem Gated.queue (gated : m.Gated)
    (eligible : m.running.window = false → { m with items := items }.Eligible m.running.spot) :
    { m with items := items }.Gated := by
  exact { gated with
    orderly := { gated.orderly with }
    admitted := fun busy => { gated.admitted busy with
      next := fun works at_ closed => eligible closed busy works at_ } }

/-- A call puts no ordinary work at the head: its own is safe, or other work stands there. -/
def keepsHead (m : Machine) (fn arg : Nat) (ioSafe : Bool) : Bool :=
  ioSafe || m.items.head?.any fun item => item.fn ≠ fn ∨ item.arg ≠ arg

theorem scheduleWork_cases (fn arg : Nat) (ioSafe : Bool) :
    ∃ items, { m with items := items }.Stirs (m.scheduleWork fn arg ioSafe) ∧
      (m.keepsHead fn arg ioSafe = true → m.nextSafe = true →
        { m with items := items }.nextSafe = true) := by
  unfold scheduleWork
  split
  · exact ⟨m.items, .refl, fun _ => id⟩
  split
  next i found =>
    refine ⟨_, .refl, fun keeps safe => ?_⟩
    obtain ⟨inside, same, -⟩ := List.findIdx?_eq_some_iff_getElem.mp found
    cases items : m.items with
    | nil => simp [items] at inside
    | cons item rest =>
      cases i with
      | zero =>
        simp only [items, List.getElem_cons_zero, decide_eq_true_eq] at same
        simp_all [keepsHead, nextSafe]
      | succ i => simpa [nextSafe, items] using safe
  split
  · refine ⟨_, wakeCount_stirs, fun keeps safe => ?_⟩
    cases items : m.items with
    | nil => simpa [nextSafe, enqueue, keepsHead, items] using keeps
    | cons item rest => simpa [nextSafe, enqueue, items] using safe
  · exact ⟨m.items, .refl, fun _ => id⟩

/-! ## Steps -/

/-- The machine as the `scheduler_yield` of a thread in its own code finds it. -/
def enterYield (m : Machine) : Machine :=
  m.setRunning fun thread => { thread with spot := thread.spot.afterYield }

/-- The worker is about to take work. -/
def takes (m : Machine) : Bool := m.running.spot == .taking || m.running.spot == .idle

/-- A yield does not come back to a worker that takes ordinary work next. -/
def worksOn (m : Machine) : Bool := decide m.HasOther || !m.takes || m.nextSafe

/-- While another thread owns the gate, a yield does not come back to a worker that takes ordinary
work next, and no call puts ordinary work before a worker about to take work. -/
def revalidates (m : Machine) (event : Event) : Bool :=
  m.halted || !m.ioBusy || m.running.callback != some .workqueue ||
    match event with
    | .yield => !m.inOwnCode || m.enterYield.worksOn
    | .proceed => !m.running.window || m.leaveWindow.worksOn
    | .schedule fn arg ioSafe =>
      m.running.window || !m.takes || m.keepsHead fn arg ioSafe
    | _ => true

theorem afterYield_fits (b : m.Base) (going : m.running.spot ≠ .ended) :
    m.Fits m.running.spot.afterYield := by
  have sane := b.sane m.current
  refine ⟨fun works => ?_, fun j => ?_, fun _ => going⟩
  · obtain ⟨-, own, ended, agrees⟩ := sane.worker works
    have own : m.running.spot ≠ .own := own
    have agrees : m.running.spot = .callback ↔ m.callbackActive = true := agrees
    revert own agrees going
    cases m.running.spot <;> simp [Spot.afterYield]
  · have own : m.running.spot = .own := (sane.other j).resolve_right going
    simp [own, Spot.afterYield]

section

variable (gated : m.Gated)

include gated

theorem Gated.kept {change : Thread → Thread} (b : (m.setRunning change).Base)
    (callback : (change m.running).callback = m.running.callback)
    (userContext : (change m.running).userContext = m.running.userContext)
    (works : m.ioBusy = true → m.running.callback = some .workqueue →
      (m.setRunning change).worksOn = true) : ((m.setRunning change).yieldTo none).Gated := by
  have here := setRunning_running (m := m) change
  refine b.gated_yieldTo fun eq busy => ?_
  have stays : ¬(m.setRunning change).HasOther := fun other =>
    (select_ne_current_iff b.orderly).mpr other eq
  refine (gated.admitted busy).congr (by rw [here, callback]) (by rw [here, userContext])
    (owner_setRunning userContext) (fun isWorker inside => ?_) fun isWorker at_ _ => ?_
  · have active := (b.fits.worker isWorker).2.2.mp inside
    rw [here, callback] at isWorker
    have before := ((gated.sane m.current).worker isWorker).2.2.2.mpr active
    exact (gated.admitted busy).callback isWorker before
  · rw [here, callback] at isWorker
    have goes := works busy isWorker
    rcases at_ with at_ | at_ <;> simpa [worksOn, takes, stays, at_] using goes

theorem Gated.setServiceReady {i : Nat} {ready old : Bool}
    (service : (m.threads i).callback = some (.service old))
    (answered : t = { m.threads i with callback := some (.service ready) }) :
    (m.setThread i t).Gated := by
  have sane := gated.sane i
  have here : (m.setThread i t).threads i = t := update_self ..
  have j {p : Nat} (apart : p ≠ i) :
      (m.setThread i t).threads p = m.threads p := update_of_ne apart ..
  have context (p : Nat) : ((m.setThread i t).threads p).userContext =
      (m.threads p).userContext := by
    rcases eq_or_ne p i with rfl | apart
    · rw [here, answered]
    · rw [j apart]
  have orderly : (m.setThread i t).Orderly := by
    refine ⟨gated.orderly.cpu, gated.orderly.bounded, fun p runs => ?_⟩
    rcases eq_or_ne p i with rfl | apart
    · rw [here, answered] at runs
      exact gated.orderly.single p runs
    · rw [j apart] at runs
      exact gated.orderly.single p runs
  have b : (m.setThread i t).Base := by
    subst answered
    have old := gated.toBase.becomes i
    exact gated.toBase.setThread orderly ⟨⟨fun _ => sane.service (by simp [service]), by simp,
      fun _ => sane.other (by simp [service]), by simp⟩, by simp,
      fun isIdle => (nomatch service.symm.trans isIdle), old.alive,
      fun busy here => ⟨(old.owner busy here).1, by simp⟩⟩
  refine ⟨b, fun busy => ?_⟩
  have admitted := gated.admitted (show m.ioBusy = true from busy)
  rcases eq_or_ne m.current i with rfl | apart
  · have running : (m.setThread m.current t).running = t := here
    have callback : t.callback = some (.service ready) := by rw [answered]
    refine admitted.congr ?_ (context m.current) (context m.ioOwner) ?_ ?_
    · rw [running, Machine.running, service, callback]
      rfl
    · rw [running, callback]
      simp
    · rw [running, callback]
      simp
  have running : (m.setThread i t).running = m.running := setThread_current apart.symm
  refine admitted.congr (by rw [running]) (by rw [running]) (context m.ioOwner) ?_ ?_
  · rw [running]
    exact admitted.callback
  · rw [running]
    exact admitted.next

theorem Gated.ioBegin (general : m.general = true) : m.ioBegin.Gated := by
  obtain ⟨closed, spot, -⟩ := general_spec gated.orderly general
  unfold Machine.ioBegin
  split
  · exact gated
  rename_i allowed
  simp only [Bool.not_eq_true', Bool.not_eq_true, Bool.not_eq_false, not_or] at allowed
  split
  · have going : m.running.spot ≠ .ended := by
      rcases spot with own | inside
      · simp [own]
      · simp [inside]
    exact Base.gated_of_free { gated.toBase with
      orderly := { gated.orderly with }
      image := rfl
      owner := fun _ => ⟨gated.orderly.bounded, gated.alive going, fun works =>
        spot.resolve_left ((gated.sane m.current).worker works).2.1⟩ } (by simp [ioBusy])
  rename_i nested
  have eq : m.ioOwner = m.current := by
    by_contra apart
    cases allowed.2.symm.trans (ioBusy_iff.mpr ⟨nested, apart⟩)
  exact Base.gated_of_free { gated.toBase with
    orderly := { gated.orderly with }
    owner := fun _ => gated.owner nested } (by simp [ioBusy, eq])

theorem Gated.ioEnd : m.ioEnd.Gated := by
  unfold Machine.ioEnd
  split
  · exact gated
  rename_i mine
  simp only [not_or, Classical.not_not] at mine
  split
  · have closed : { m with ioDepth := 0, ioPrivateImage := none }.Gated :=
      Base.gated_of_free { gated.toBase with
        orderly := { gated.orderly with }
        image := rfl
        owner := fun busy => absurd rfl busy } (by simp [ioBusy])
    exact closed.stirs wakeCount_stirs
  exact Base.gated_of_free { gated.toBase with
    orderly := { gated.orderly with }
    owner := fun _ => gated.owner mine.1 } (by simp [ioBusy, mine.2])

theorem Gated.preemptTick {shouldExit : Bool} : (m.preemptTick shouldExit).Gated := by
  have woken : { m with ticks := m.ticks + 1 }.wakeExpiredWaits.Gated :=
    gated.stirs (Stirs.trans ⟨fun _ => .refl, rfl⟩ wakeExpiredWaits_stirs)
  unfold Machine.preemptTick
  dsimp only
  generalize { m with ticks := m.ticks + 1 }.wakeExpiredWaits = woke at woken ⊢
  split
  next exits => exact woken.processExit exits.1 exits.2.2
  split
  · exact woken.flags _ _ _
  have counted : { woke with preemptTickAccumulator := 0 }.Gated := woken.flags _ _ _
  exact counted.yieldTo

end

variable {e : Event}

theorem Gated.step (gated : m.Gated) (valid : m.revalidates e = true) : (m.step e).2.Gated := by
  unfold Machine.step
  split
  · exact gated
  rename_i live
  have guarded {next : Machine} {allowed : Bool} (kept : allowed = true → next.Gated) :
      (if allowed then next else m).Gated := by
    split
    next holds => exact kept holds
    · exact gated
  have onCpu : m.threads m.cpu = m.running := by rw [gated.orderly.cpu]; rfl
  cases e with
  | spawn kind got =>
    refine guarded fun _ => ?_
    have sane : { m.spawned kind with state := .ready }.Sane m.callbackActive := by
      cases kind <;> exact ⟨by simp [spawned], by simp [spawned], fun _ => .inl rfl,
        fun _ => ⟨by simp, by simp⟩⟩
    have j : (m.spawned kind).callback ≠ some .workqueue := by cases kind <;> simp [spawned]
    have flags : (m.spawnThread (m.spawned kind) got).2 =
        { (m.spawnThread (m.spawned kind) got).2 with
          workqueueInitialized := m.workqueueInitialized, workerStarted := m.workerStarted } := by
      rcases spawnThread_cases gated.orderly with refused | spawned
      · rw [refused]
      obtain ⟨_, _, _, filled, -⟩ := spawned
      rw [filled]
    rw [flags]
    exact gated.spawnThread sane (fun works => absurd works j) fun initial => ⟨initial, j⟩
  | workqueueInit got =>
    refine guarded fun ready => ?_
    simp only [Bool.and_eq_true, Bool.not_eq_true'] at ready
    have quiet := (gated.fresh ready.2).1
    have sane : { callback := some .workqueue, spot := .taking, state := .ready : Thread }.Sane
        m.callbackActive :=
      ⟨by simp, fun _ => ⟨⟨by simp, by simp⟩, by simp, by simp, by simp [quiet]⟩, by simp, by simp⟩
    exact gated.spawnThread sane (fun _ => ready.2) (by simp)
  | findIdle i =>
    refine guarded fun found => ?_
    simp only [Bool.and_eq_true, decide_eq_true_eq, beq_iff_eq, bne_iff_ne] at found
    refine { gated with
      orderly := { gated.orderly with }
      idle := fun p isIdle => ?_
      admitted := fun busy => { gated.admitted busy with } }
    cases isIdle
    exact ⟨found.1.2, found.2⟩
  | enableIoServices => exact guarded fun _ => gated.flags _ _ _
  | yield =>
    refine guarded fun ready => ?_
    simp only [Bool.and_eq_true, bne_iff_ne] at ready
    have own := ready.1.1
    have going := ((inOwnCode_iff gated.orderly).mp own).2
    have b : m.enterYield.Base :=
      gated.toBase.move (afterYield_fits gated.toBase going) rfl (gated.sane _).service id
    refine gated.kept b rfl rfl fun busy works => ?_
    have goes : m.enterYield.worksOn = true := by
      simpa [revalidates, live, busy, works, own] using valid
    exact goes
  | handoff preferred => exact guarded fun _ => gated.yieldTo
  | wait q deadline condition interrupts =>
    refine guarded fun general => ?_
    obtain ⟨closed, -⟩ := general_spec gated.orderly general
    exact gated.waitTimeout gated.toBase.fits gated.toBase.fits (gated.eligible closed)
      (gated.eligible closed)
  | proceed =>
    refine guarded fun window => ?_
    rw [onCpu] at window
    have b : m.leaveWindow.Base := gated.toBase.move gated.toBase.fits rfl (gated.sane _).service id
    refine gated.kept b rfl rfl fun busy works => ?_
    have goes : m.leaveWindow.worksOn = true := by
      simpa [revalidates, live, busy, works, window] using valid
    exact goes
  | exit =>
    refine guarded fun ready => ?_
    simp only [Bool.and_eq_true, Bool.and_eq_false_iff, Bool.not_eq_true', beq_iff_eq,
      bne_eq_false_iff_eq, beq_eq_false_iff_ne] at ready
    obtain ⟨⟨general, own⟩, free⟩ := ready
    obtain ⟨-, -, isIdle⟩ := general_spec gated.orderly general
    have j : m.running.callback ≠ some .workqueue := fun works =>
      (gated.toBase.fits.worker works).1 own
    have ended := gated.toBase.exitCurrent j isIdle fun busy => (free.resolve_left busy).symm
    exact gated.kept ended rfl rfl fun _ works => absurd works j
  | linger => exact guarded fun _ => gated.yieldTo
  | ioBegin => exact guarded fun general => gated.ioBegin general
  | ioEnd => exact guarded fun _ => gated.ioEnd
  | setUserSafe safe =>
    refine guarded fun general => ?_
    obtain ⟨closed, -⟩ := general_spec gated.orderly general
    exact gated.move gated.toBase.fits (gated.eligible closed) rfl rfl id
  | setUserContext process =>
    refine guarded fun ready => ?_
    simp only [Bool.and_eq_true, Option.isNone_iff_eq_none] at ready
    exact gated.setUserContext ready.2
  | clearUserContext => exact guarded fun _ => gated.clearUserContext
  | killUserThreads process =>
    refine guarded fun ready => ?_
    simp only [Bool.and_eq_true, Bool.not_eq_true'] at ready
    exact (gated.toBase.killUserThreads ready.2 ready.1.2 process).gated_of_free ready.1.2
  | takeWork =>
    dsimp only
    split
    next at_ =>
      simp only [atSpot, Bool.and_eq_true, beq_iff_eq] at at_
      exact gated.takeWork ((inOwnCode_iff gated.orderly).mp at_.1).1 at_.2
    · exact gated
  | callbackDone =>
    refine guarded fun ready => ?_
    simp only [atSpot, Bool.and_eq_true, Bool.and_eq_false_iff, Bool.not_eq_true', beq_iff_eq,
      bne_eq_false_iff_eq, beq_eq_false_iff_ne] at ready
    obtain ⟨⟨-, inside⟩, free⟩ := ready
    have works := gated.toBase.works (by simp [inside]) (by simp [inside])
    exact gated.activate works (fun busy => (free.resolve_left busy).symm) (.inr rfl) (by simp)
      (by simp)
  | workWait interrupts =>
    refine guarded fun at_ => ?_
    simp only [atSpot, Bool.and_eq_true, beq_iff_eq] at at_
    obtain ⟨own, at_⟩ := at_
    have works := gated.toBase.works (by simp [at_]) (by simp [at_])
    have quiet := (gated.toBase.fits.worker works).2.2
    have closed := ((inOwnCode_iff gated.orderly).mp own).1
    refine gated.waitTimeout ?_ ?_ (fun busy works _ => gated.eligible closed busy works (.inr at_))
      (by simp [Eligible])
    · exact ⟨fun _ => ⟨by simp, by simp, by simpa [at_] using quiet⟩, fun j => absurd works j,
        fun _ => by simp [at_]⟩
    · exact ⟨fun _ => ⟨by simp, by simp, by simpa [at_] using quiet⟩, fun j => absurd works j,
        fun _ => by simp [at_]⟩
  | schedule fn arg ioSafe =>
    obtain ⟨items, stirs, kept⟩ := scheduleWork_cases (m := m) fn arg ioSafe
    have queued : { m with items := items }.Gated := by
      refine gated.queue fun closed busy works at_ => kept ?_ (gated.eligible closed busy works at_)
      have busy : m.ioBusy = true := busy
      have works : m.running.callback = some .workqueue := works
      rcases at_ with at_ | at_ <;>
        simpa [revalidates, takes, live, busy, works, closed, at_] using valid
    exact queued.stirs stirs
  | tick shouldExit => exact gated.preemptTick
  | wake q limit => exact gated.stirs wakeCount_stirs
  | setServiceReady i ready =>
    dsimp only
    split
    next old service => exact gated.setServiceReady service rfl
    · exact gated

/-! ## Runs -/

theorem initial_gated : Gated {} := by
  have good : Good False {} := initial_good
  have t (i : Nat) : ({} : Machine).threads i =
      if i = 0 then { state := .running } else {} := rfl
  have plain (i : Nat) (callback : Callback) :
      (({} : Machine).threads i).callback ≠ some callback := by
    rw [t]
    split <;> exact fun has => by cases has
  have sane (i : Nat) : (({} : Machine).threads i).Sane false := by
    refine ⟨fun _ => ?_, fun works => absurd works (plain i _), fun _ => .inl ?_,
      fun isIdle => absurd isIdle (plain i _)⟩
    · rw [t]
      split <;> rfl
    · rw [t]
      split <;> rfl
  have b : Base {} :=
    ⟨good.toOrderly, rfl, sane, fun i _ works => absurd works (plain i _),
      fun _ => ⟨rfl, fun i => plain i _⟩, by simp, fun _ => ⟨by decide, by decide⟩,
      fun busy => absurd rfl busy⟩
  exact b.gated_of_free rfl

/-- Every event of a run meets the condition in the state it finds. -/
def revalidated (m : Machine) : List Event → Bool
  | [] => true
  | event :: rest => m.revalidates event && (m.step event).2.revalidated rest

theorem Gated.run (gated : m.Gated) {events : List Event} (valid : m.revalidated events = true) :
    (Lib.run Machine.step m events).2.Gated := by
  induction events generalizing m with
  | nil => exact gated
  | cons e rest ih =>
    simp only [revalidated, Bool.and_eq_true] at valid
    exact ih (gated.step valid.1) valid.2

theorem step_some {item : WorkItem} (taken : (m.step e).1 = some item) :
    m.inOwnCode = true ∧ m.running.spot = .taking ∧ m.items.head? = some item := by
  unfold step at taken
  split at taken
  · cases taken
  cases e with
  | takeWork =>
    dsimp only at taken
    split at taken
    next at_ =>
      simp only [atSpot, Bool.and_eq_true, beq_iff_eq] at at_
      refine ⟨at_.1, at_.2, ?_⟩
      unfold takeWork at taken
      split at taken
      · cases taken
      next queued =>
        cases taken
        rw [queued]
        rfl
    · cases taken
  | _ => cases taken

/-- What must not run inside the operation of another thread. -/
structure KeepsOut (m : Machine) : Prop where
  callback : m.running.spot = .callback → m.callbackIoSafe = true
  kernel : m.running.userContext = none → m.running.callback ≠ none
  process : ∀ process, m.running.userContext = some process →
    (m.threads m.ioOwner).userContext ≠ some process

end Machine

end SrvrOS.Scheduler
