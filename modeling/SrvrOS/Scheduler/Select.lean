import SrvrOS.Scheduler.Machine

/-!
# Selection, waking and switching

What `yield_to` and the wakeups do to the threads, as long as at most the current thread
is RUNNING.
-/

namespace SrvrOS.Scheduler

open Lib Function List Nat Option Thread

namespace Machine

variable {m m' : Machine}

/-- The processor is on the current thread, and no other thread is RUNNING. -/
structure Orderly (m : Machine) : Prop where
  cpu : m.cpu = m.current
  bounded : m.current < m.capacity
  single : ∀ index, (m.threads index).state = .running → index = m.current

/-! ## The gate -/

/-- What `io_thread_allowed` reads is the same. -/
structure SameGate (m m' : Machine) : Prop where
  userContext : ∀ index, (m'.threads index).userContext = (m.threads index).userContext
  ioUserSafe : ∀ index, (m'.threads index).ioUserSafe = (m.threads index).ioUserSafe
  callback : ∀ index, (m'.threads index).callback = (m.threads index).callback
  ioDepth : m'.ioDepth = m.ioDepth
  ioOwner : m'.ioOwner = m.ioOwner
  ioPrivateImage : m'.ioPrivateImage = m.ioPrivateImage
  ready : m'.workqueueIoServiceReady = m.workqueueIoServiceReady

theorem SameGate.allowed (eq : m.SameGate m') (i : Nat) :
    m'.ioThreadAllowed i = m.ioThreadAllowed i := by
  have eligible : m'.eligible = m.eligible := by
    funext callback
    cases callback with
    | idle | service => rfl
    | workqueue => exact eq.ready
  simp [ioThreadAllowed, excludedProcess, eq.userContext, eq.ioUserSafe, eq.callback,
    eq.ioDepth, eq.ioOwner, eq.ioPrivateImage, eligible]

theorem sameGate_setRunning {change : Thread → Thread}
    (userContext : (change m.running).userContext = m.running.userContext)
    (ioUserSafe : (change m.running).ioUserSafe = m.running.ioUserSafe)
    (callback : (change m.running).callback = m.running.callback) :
    m.SameGate (m.setRunning change) := by
  have read {α : Type} (field : Thread → α)
      (eq : field (change m.running) = field m.running) (i : Nat) :
      field ((m.setRunning change).threads i) = field (m.threads i) := by
    rcases eq_or_ne i m.current with rfl | apart
    · simp only [setRunning, setThread, update_self]
      exact eq
    · simp [setRunning, setThread, update_of_ne apart]
  exact ⟨read Thread.userContext userContext, read Thread.ioUserSafe ioUserSafe,
    read Thread.callback callback, rfl, rfl, rfl, rfl⟩

/-! ## Selection -/

/-- A thread that the loop of `next_ready_thread` takes. -/
def acceptable (m : Machine) (index : Nat) : Bool :=
  m.idleThread ≠ some index ∧ (m.threads index).state = .ready ∧ m.ioThreadAllowed index

theorem scan_eq {old : Nat} (single : ∀ i, (m.threads i).state = .running → i = old)
    (list : List Nat) : m.scan old list m.threads = (list.find? m.acceptable, m.threads) := by
  induction list with
  | nil => rfl
  | cons c rest ih =>
    have kept : ¬(c ≠ old ∧ (m.threads c).state = .running) := fun j =>
      j.1 (single c j.2)
    by_cases taken : m.acceptable c = true
    · rw [find?_cons_of_pos taken]
      simp only [acceptable, decide_eq_true_eq] at taken
      simp [scan, if_neg kept, if_pos taken]
    rw [find?_cons_of_neg taken, ← ih]
    simp only [acceptable, decide_eq_true_eq] at taken
    simp [scan, if_neg kept, if_neg taken]

theorem mem_candidates {i old : Nat} (bounded : i < m.capacity) : i ∈ m.candidates old := by
  refine mem_map.mpr ⟨(i + (m.capacity * (old + 1) - (old + 1))) % m.capacity, ?_, ?_⟩
  · exact mem_range.mpr (mod_lt _ (zero_lt_of_lt bounded))
  have enough : old + 1 ≤ m.capacity * (old + 1) :=
    Nat.le_mul_of_pos_left _ (Nat.zero_lt_of_lt bounded)
  rw [← Nat.add_assoc, Nat.add_right_comm, Nat.add_mod, Nat.mod_mod, ← Nat.add_mod]
  have sum : old + 1 + (i + (m.capacity * (old + 1) - (old + 1))) =
      i + m.capacity * (old + 1) := by omega
  rw [sum, add_mul_mod_self_left, mod_eq_of_lt bounded]

theorem candidates_lt {old i : Nat} (member : i ∈ m.candidates old) : i < m.capacity := by
  obtain ⟨offset, inside, rfl⟩ := mem_map.mp member
  exact mod_lt _ (zero_lt_of_lt (mem_range.mp inside))

theorem candidates_split {old : Nat} (bounded : old < m.capacity) :
    ∃ others, m.candidates old = others ++ [old] ∧ ∀ i, i ∈ others ↔ i < m.capacity ∧ i ≠ old := by
  obtain ⟨k, size⟩ := Nat.exists_eq_add_one_of_ne_zero (Nat.ne_zero_of_lt bounded)
  have split : m.candidates old =
      ((range k).map fun offset => (old + (offset + 1)) % m.capacity) ++ [old] := by
    rw [candidates, size, range_succ, map_append, map_singleton, Nat.add_mod_right,
      Nat.mod_eq_of_lt (size ▸ bounded)]
  have apart : old ∉ (range k).map fun offset => (old + (offset + 1)) % m.capacity := by
    intro mem
    obtain ⟨offset, inside, same⟩ := mem_map.mp mem
    have inside := mem_range.mp inside
    by_cases wraps : old + (offset + 1) < m.capacity
    · rw [Nat.mod_eq_of_lt wraps] at same
      omega
    · rw [Nat.mod_eq_sub_mod (by omega), Nat.mod_eq_of_lt (by omega)] at same
      omega
  refine ⟨_, split, fun i => ⟨fun mem => ⟨?_, ?_⟩, fun ⟨inside, other⟩ => ?_⟩⟩
  · exact candidates_lt (split ▸ mem_append_left _ mem)
  · rintro rfl
    exact apart mem
  · have mem : i ∈ m.candidates old := mem_candidates inside
    rw [split] at mem
    exact (mem_append.mp mem).resolve_right fun here => other (mem_singleton.mp here)

/-- Another thread can be selected: one that is READY and allowed, or the idle thread if the
running thread can neither be selected again nor is RUNNING. -/
def HasOther (m : Machine) : Prop :=
  (∃ i < m.capacity, i ≠ m.current ∧ m.acceptable i = true) ∨
    m.acceptable m.current = false ∧ m.running.state ≠ .running ∧
      ∃ i < m.capacity, i ≠ m.current ∧ m.idleThread = some i ∧ (m.threads i).state = .ready

instance HasOther.decidable : Decidable m.HasOther :=
  inferInstanceAs (Decidable (_ ∨ _))

/-- What `yield_to` selects: a thread that is READY and allowed, the idle thread, or the
current thread. -/
inductive Choice (m : Machine) : Nat → Prop where
  | allowed {next : Nat} (bounded : next < m.capacity) (ready : (m.threads next).state = .ready)
      (allowed : m.ioThreadAllowed next = true) : Choice m next
  | idle {next : Nat} (bounded : next < m.capacity) (idle : m.idleThread = some next)
      (ready : (m.threads next).state = .ready ∨ (m.threads next).state = .running) :
      Choice m next
  | keep {next : Nat} (same : next = m.current) : Choice m next

section

variable (orderly : m.Orderly)

include orderly

theorem select_threads (preferred : Option Nat) : (m.select preferred).2 = m.threads := by
  unfold select nextReadyThread
  rw [scan_eq orderly.single]
  split
  · rfl
  split
  next equal => exact (Prod.mk.inj equal).2.symm
  rename_i equal
  have eq := (Prod.mk.inj equal).2
  split
  · exact eq.symm
  · exact eq.symm

theorem select_choice (preferred : Option Nat) : m.Choice (m.select preferred).1 := by
  unfold select
  split
  next i found =>
    obtain ⟨-, suits⟩ := filter_eq_some_iff.mp found
    simp only [decide_eq_true_eq] at suits
    exact .allowed suits.1 suits.2.2.1 suits.2.2.2
  unfold nextReadyThread
  rw [scan_eq orderly.single]
  split
  next equal =>
    have found := (Prod.mk.inj equal).1
    have suits := find?_some found
    simp only [acceptable, decide_eq_true_eq] at suits
    exact .allowed (candidates_lt (mem_of_find?_eq_some found)) suits.2.1 suits.2.2
  rename_i equal
  obtain ⟨-, rfl⟩ := Prod.mk.inj equal
  split
  · exact .keep rfl
  cases idle : m.idleFallback m.threads with
  | none => exact .keep rfl
  | some next =>
    obtain ⟨isIdle, suits⟩ := filter_eq_some_iff.mp idle
    simp only [decide_eq_true_eq] at suits
    exact .idle suits.1 isIdle suits.2

theorem select_ne_current_iff : (m.select none).1 ≠ m.current ↔ m.HasOther := by
  obtain ⟨others, split, mem_others⟩ := candidates_split orderly.bounded
  simp only [select, filter_none, nextReadyThread, scan_eq orderly.single, split, find?_append]
  cases found : others.find? m.acceptable with
  | some next =>
    obtain ⟨inside, apart⟩ := (mem_others next).mp (mem_of_find?_eq_some found)
    exact iff_of_true apart (.inl ⟨next, inside, apart, find?_some found⟩)
  | none =>
    have none_ : ¬∃ i < m.capacity, i ≠ m.current ∧ m.acceptable i = true := by
      rintro ⟨i, inside, apart, suits⟩
      exact find?_eq_none.mp found i ((mem_others i).mpr ⟨inside, apart⟩) suits
    rw [HasOther, or_iff_right none_]
    by_cases again : m.acceptable m.current = true
    · simp [again]
    have last : [m.current].find? m.acceptable = none := find?_cons_of_neg again
    have fallback (i : Nat) : m.idleFallback m.threads = some i ↔
        m.idleThread = some i ∧ i < m.capacity ∧
          ((m.threads i).state = .ready ∨ (m.threads i).state = .running) := by
      simp [idleFallback, filter_eq_some_iff]
    simp only [last, none_or]
    split
    next keeps => exact iff_of_false (fun apart => apart rfl) fun has => has.2.1 keeps.2
    next leaves =>
      cases idle : m.idleFallback m.threads with
      | none =>
        refine iff_of_false (fun apart => apart rfl) ?_
        rintro ⟨-, -, i, inside, -, isIdle, ready⟩
        cases idle.symm.trans ((fallback i).mpr ⟨isIdle, inside, .inl ready⟩)
      | some i =>
        obtain ⟨isIdle, inside, state⟩ := (fallback i).mp idle
        constructor
        · intro apart
          have ready := state.resolve_right fun runs => apart (orderly.single i runs)
          refine ⟨by simpa using again, fun runs => leaves ⟨?_, runs⟩, i, inside, apart, isIdle,
            ready⟩
          rw [isIdle]
          exact fun same => apart (Option.some.inj same)
        · rintro ⟨-, -, j, -, apart, same, -⟩
          cases isIdle.symm.trans same
          exact apart
theorem select_ne_current (stopped : m.running.state ≠ .running)
    (notReady : m.running.state ≠ .ready) (others : m.hasReadyThreadExcept m.current = true) :
    (m.select none).1 ≠ m.current := by
  obtain ⟨i, inside, suits⟩ := any_eq_true.mp others
  simp only [Bool.and_eq_true, Bool.or_eq_true, beq_iff_eq, bne_iff_ne] at suits
  obtain ⟨⟨apart, s⟩, allowed⟩ := suits
  have bounded := mem_range.mp inside
  have ready := s.resolve_right fun runs => apart (orderly.single i runs)
  refine (select_ne_current_iff orderly).mpr ?_
  by_cases isIdle : m.idleThread = some i
  · refine .inr ⟨?_, stopped, i, bounded, apart, isIdle, ready⟩
    have notReady : (m.threads m.current).state ≠ .ready := notReady
    simp [acceptable, notReady]
  · exact .inl ⟨i, bounded, apart, by simp [acceptable, isIdle, ready, allowed]⟩

/-! ## Switching -/

theorem yieldTo_eq {preferred : Option Nat} :
    m.yieldTo preferred =
      if (m.select preferred).1 = m.current then m else m.switchTo (m.select preferred).1 := by
  have eq := select_threads orderly preferred
  unfold yieldTo
  generalize m.select preferred = selected at eq ⊢
  obtain ⟨next, threads⟩ := selected
  subst eq
  rfl

end

theorem switchTo_next (next : Nat) (apart : next ≠ m.current) :
    (m.switchTo next).threads next = (m.threads next).resumed := by
  simp [switchTo, update_of_ne apart]

theorem switchTo_current (next : Nat) (apart : next ≠ m.current) :
    (m.switchTo next).threads m.current = m.running.suspended := by
  simp [switchTo, update_of_ne apart.symm]

theorem switchTo_other {next i : Nat} (away : i ≠ next) (apart : i ≠ m.current) :
    (m.switchTo next).threads i = m.threads i := by
  simp [switchTo, update_of_ne away, update_of_ne apart]

theorem Orderly.switchTo (orderly : m.Orderly) {next : Nat} (apart : next ≠ m.current)
    (bounded : next < m.capacity) : (m.switchTo next).Orderly := by
  refine ⟨rfl, bounded, fun i runs => ?_⟩
  by_contra away
  have away : i ≠ next := away
  rcases eq_or_ne i m.current with rfl | j
  · rw [switchTo_current next apart, suspended] at runs
    split at runs
    · cases runs
    next stopped => exact stopped runs
  · rw [switchTo_other away j] at runs
    exact j (orderly.single i runs)

theorem Orderly.yieldTo (orderly : m.Orderly) {preferred : Option Nat} :
    (m.yieldTo preferred).Orderly := by
  rw [yieldTo_eq orderly]
  split
  · exact orderly
  rename_i apart
  refine orderly.switchTo apart ?_
  cases select_choice orderly preferred with
  | allowed bounded | idle bounded => exact bounded
  | keep eq => exact absurd eq apart

end Machine

/-! ## Waking -/

/-- What a wakeup can do to a thread: nothing but its wait changes, and a BLOCKED thread may
become READY. -/
def Thread.Nudged (thread thread' : Thread) : Prop :=
  ∃ state queue deadline,
    thread' = { thread with
      state := state, blockedQueue := queue, blockedDeadlineTicks := deadline } ∧
    (state = thread.state ∨ (thread.state = .blocked ∧ state = .ready))

theorem Thread.Nudged.refl {t : Thread} : t.Nudged t :=
  ⟨t.state, t.blockedQueue, t.blockedDeadlineTicks, rfl, .inl rfl⟩

theorem Thread.Nudged.trans {first second third : Thread} (left : first.Nudged second)
    (right : second.Nudged third) : first.Nudged third := by
  obtain ⟨s, q, deadline, rfl, moved⟩ := left
  obtain ⟨s', q', deadline', rfl, moved'⟩ := right
  refine ⟨s', q', deadline', rfl, ?_⟩
  rcases moved' with rfl | ⟨rfl, rfl⟩
  · exact moved
  rcases moved with eq | ⟨-, impossible⟩
  · exact .inr ⟨eq.symm, rfl⟩
  · cases impossible

variable {t : Thread}

theorem Thread.nudged_detached : t.Nudged t.detached :=
  ⟨t.state, none, 0, rfl, .inl rfl⟩

theorem Thread.nudged_woken (blocked : t.state = .blocked) :
    t.Nudged { t.detached with state := .ready } :=
  ⟨.ready, none, 0, rfl, .inr ⟨blocked, rfl⟩⟩

theorem nudged_update {threads threads' : Nat → Thread} {i : Nat}
    (old : ∀ p, (threads p).Nudged (threads' p)) (nudged : (threads' i).Nudged t) (p : Nat) :
    (threads p).Nudged (update threads' i t p) := by
  rcases eq_or_ne p i with rfl | apart
  · rw [update_self]
    exact (old p).trans nudged
  · rw [update_of_ne apart]
    exact old p

namespace Machine

variable {m m' : Machine}

/-- Nothing but waits, wakeups and clocks changes. -/
def Stirs (m m' : Machine) : Prop :=
  (∀ index, (m.threads index).Nudged (m'.threads index)) ∧
  m' = { m with threads := m'.threads, waiters := m'.waiters, ticks := m'.ticks }

theorem Stirs.refl {m : Machine} : m.Stirs m := ⟨fun _ => .refl, rfl⟩

theorem Stirs.trans {first second third : Machine} (left : first.Stirs second)
    (right : second.Stirs third) : first.Stirs third := by
  refine ⟨fun i => (left.1 i).trans (right.1 i), ?_⟩
  rw [right.2, left.2]

theorem wakeOne_nudges {threads : Nat → Thread} {waking : Waking} {q limit i : Nat}
    (old : ∀ p, (threads p).Nudged (waking.threads p)) (p : Nat) :
    (threads p).Nudged ((wakeOne q limit waking i).threads p) := by
  unfold wakeOne
  dsimp only
  split
  · exact old p
  split
  · exact nudged_update old nudged_detached p
  next blocked =>
    split
    · exact nudged_update old (nudged_woken (by simpa using blocked)) p
    · exact old p

theorem wakeCount_stirs {q limit : Nat} : m.Stirs (m.wakeCount q limit) := by
  unfold wakeCount
  split
  · exact .refl
  refine ⟨?_, rfl⟩
  have loop (indices : List Nat) (waking : Waking)
      (old : ∀ p, (m.threads p).Nudged (waking.threads p)) (p : Nat) :
      (m.threads p).Nudged ((indices.foldl (wakeOne q limit) waking).threads p) := by
    induction indices generalizing waking with
    | nil => exact old p
    | cons i rest ih => exact ih _ (wakeOne_nudges old)
  exact loop _ ⟨m.threads, 0, 0⟩ fun _ => .refl

theorem expireOne_stirs {i : Nat} : m.Stirs (m.expireOne i) := by
  unfold expireOne
  dsimp only
  split
  · exact .refl
  next due =>
    simp only [not_or, Classical.not_not] at due
    exact ⟨nudged_update (fun _ => .refl) (nudged_woken due.1), rfl⟩

theorem wakeExpiredWaits_stirs : m.Stirs m.wakeExpiredWaits := by
  have loop (indices : List Nat) (now : Machine) : now.Stirs (indices.foldl expireOne now) := by
    induction indices generalizing now with
    | nil => exact .refl
    | cons i rest ih => exact expireOne_stirs.trans (ih _)
  exact loop _ m

theorem Stirs.current (stirs : m.Stirs m') : m'.current = m.current := by rw [stirs.2]

theorem Stirs.running_state (stirs : m.Stirs m') (runs : m.running.state = .running) :
    m'.running.state = .running := by
  obtain ⟨s, q, deadline, equal, moved⟩ := stirs.1 m.current
  rw [Machine.running, stirs.current, equal]
  rcases moved with eq | ⟨blocked, -⟩
  · exact eq.trans runs
  · cases runs.symm.trans blocked

theorem Orderly.stirs (orderly : m.Orderly) (stirs : m.Stirs m') : m'.Orderly := by
  refine ⟨?_, ?_, fun i runs => ?_⟩
  · rw [stirs.2]
    exact orderly.cpu
  · rw [stirs.2]
    exact orderly.bounded
  rw [stirs.current]
  obtain ⟨s, q, deadline, equal, moved⟩ := stirs.1 i
  rw [equal] at runs
  rcases moved with eq | ⟨-, ready⟩
  · exact orderly.single i (eq.symm.trans runs)
  · cases ready.symm.trans runs

theorem Stirs.inOwnCode (stirs : m.Stirs m') : m'.inOwnCode = m.inOwnCode := by
  have cpu : m'.cpu = m.cpu := by rw [stirs.2]
  obtain ⟨s, q, deadline, equal, -⟩ := stirs.1 m.cpu
  rw [Machine.inOwnCode, cpu, equal]
  rfl

end Machine

end SrvrOS.Scheduler
