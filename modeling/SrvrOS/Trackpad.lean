import SrvrOS.Lib.Run

/-!
# The buttons of a trackpad

`frame` of `drivers/trackpad_pointer.c` chooses a button once, at the press. The rest of its work,
on the motion, and `tap_policy` after it write neither the button nor the flags it depends on.
-/

namespace SrvrOS.Trackpad

open Lib List

/-- `struct apple_trackpad_frame`, with `touch_major` and `touch_minor` of the contacts. -/
structure Frame where
  button : Bool
  count : Nat
  contacts : List (Int × Int)

/-- What a call reports. -/
structure Motion where
  buttons : Nat := 0
  palmSuppressed : Bool := false
  typingSuppressed : Bool := false

structure Pointer where
  buttons : Nat := 0
  blocked : Bool := false
  palmBlocked : Bool := false
  typingBlocked : Bool := false

/-- More than two contacts, or one of a palm's size. -/
def Frame.broad (f : Frame) : Bool :=
  2 < f.count || (f.contacts.take f.count).any fun (major, minor) => 600 < major || 600 < minor

/-- The beginning of `frame`, which sets the flags. -/
def flags (f : Frame) (gestures typing : Bool) (s : Pointer) : Pointer :=
  let s := { s with blocked := s.blocked && f.button }
  if !gestures then s
  else
    let s := if f.count = 0 then { s with palmBlocked := false, typingBlocked := false } else s
    let typed := typing && f.count ≠ 0 && !f.button && s.buttons = 0
    { s with
      palmBlocked := s.palmBlocked || f.broad
      typingBlocked := (s.typingBlocked || typed) && !f.button }

/-- The choice of the button, after the flags are set. -/
def report (f : Frame) (gestures : Bool) (s : Pointer) : Motion × Pointer :=
  if gestures && (s.palmBlocked || s.typingBlocked) then
    ({ palmSuppressed := s.palmBlocked, typingSuppressed := s.typingBlocked },
      { s with buttons := 0, blocked := s.blocked || s.palmBlocked && f.button })
  else
    let buttons :=
      if !f.button || s.blocked then 0
      else if s.buttons ≠ 0 then s.buttons
      else if gestures && f.count = 2 then 2 else 1
    ({ buttons }, { s with buttons })

def frame (f : Frame) (gestures typing : Bool) (s : Pointer) : Motion × Pointer :=
  report f gestures (flags f gestures typing s)

inductive Event where
  /-- `trackpad_pointer_configured`; `disable` is `SRV_POINTER_DISABLE_WHILE_TYPING`. -/
  | configured (f : Frame) (gestures typing disable : Bool)
  /-- `trackpad_pointer_cancel`. -/
  | cancel

def Event.pressed : Event → Bool
  | configured f .. => f.button
  | cancel => false

def step (s : Pointer) : Event → Motion × Pointer
  | .configured f gestures typing disable =>
    frame f gestures (typing && disable) { s with typingBlocked := s.typingBlocked && disable }
  | .cancel => ({}, { blocked := true })

variable {s : Pointer} {e : Event} {f : Frame} {gestures typing : Bool}

theorem flags_spec : (flags f gestures typing s).buttons = s.buttons ∧
    (flags f gestures typing s).blocked = (s.blocked && f.button) := by
  unfold flags
  split
  · exact ⟨rfl, rfl⟩
  dsimp only
  split <;> exact ⟨rfl, rfl⟩

theorem report_spec : (report f gestures s).2.buttons = (report f gestures s).1.buttons ∧
    ((report f gestures s).1.buttons ≠ 0 → f.button ∧ s.blocked = false ∧
      (s.buttons ≠ 0 → (report f gestures s).1.buttons = s.buttons)) ∧
    ((s.blocked ∨ (report f gestures s).1.palmSuppressed) ∧ f.button →
      (report f gestures s).1.buttons = 0 ∧ (report f gestures s).2.blocked) := by
  unfold report
  split
  · simp
    grind
  · simp
    grind

/-- The value reported is the one kept and is chosen at the press; a palm and a cancel end it. -/
theorem step_spec (s : Pointer) (e : Event) :
    (step s e).2.buttons = (step s e).1.buttons ∧
    ((step s e).1.buttons ≠ 0 → e.pressed ∧
      (s.buttons ≠ 0 → (step s e).1.buttons = s.buttons)) ∧
    (e = .cancel ∨ (s.blocked ∨ (step s e).1.palmSuppressed) ∧ e.pressed →
      (step s e).1.buttons = 0 ∧ (step s e).2.blocked) := by
  cases e with
  | cancel => simp [step]
  | configured f gestures typing disable =>
    generalize kept : { s with typingBlocked := s.typingBlocked && disable } = s₁
    obtain ⟨button, block⟩ := @flags_spec s₁ f gestures (typing && disable)
    have report := @report_spec (flags f gestures (typing && disable) s₁) f gestures
    rw [button, block] at report
    subst kept
    simp only [step, frame, Event.pressed]
    refine ⟨report.1, fun some => ⟨(report.2.1 some).1, (report.2.1 some).2.2⟩, ?_⟩
    rintro (none | ⟨stopped, down⟩)
    · cases none
    refine report.2.2 ⟨?_, down⟩
    simpa [down] using stopped

theorem run_blocked (blocked : s.blocked) {events : List Event}
    (down : ∀ e ∈ events, e = .cancel ∨ e.pressed) :
    ∀ motion ∈ (run step s events).1, motion.buttons = 0 := by
  induction events generalizing s with
  | nil => simp
  | cons e rest ih =>
    obtain ⟨here, down⟩ := forall_mem_cons.mp down
    obtain ⟨none, still⟩ := (step_spec s e).2.2 (here.imp id fun pressed => ⟨.inl blocked, pressed⟩)
    exact forall_mem_cons.mpr ⟨none, ih still down⟩

theorem run_latches (events : List Event) :
    ((run step {} events).1.getLastD {}).buttons = (run step {} events).2.buttons := by
  refine @run_history_invariant _ _ _ step {}
    (fun history s => (history.getLastD {}).buttons = s.buttons) ?_ rfl events
  intro history s e _
  rw [(step_spec s e).1]
  simp

/-- After any events, a call reports a button only while it is down, and the one reported before if
there was one. After a cancel, or a palm during a press, there is none until the button is up. -/
theorem buttons_stable (events later : List Event) (e : Event) :
    let before := run step {} events
    let after := step before.2 e
    let last := (before.1.getLastD {}).buttons
    (after.1.buttons ≠ 0 → e.pressed ∧ (last ≠ 0 → after.1.buttons = last)) ∧
      (e = .cancel ∨ after.1.palmSuppressed ∧ e.pressed →
        (∀ e ∈ later, e = .cancel ∨ e.pressed) →
          ∀ motion ∈ after.1 :: (run step after.2 later).1, motion.buttons = 0) := by
  intro before after last
  obtain ⟨-, chosen, ended⟩ := step_spec before.2 e
  rw [← run_latches events] at chosen
  refine ⟨chosen, fun ends down => ?_⟩
  obtain ⟨none, blocked⟩ := ended (ends.imp id fun ⟨palm, pressed⟩ => ⟨.inr palm, pressed⟩)
  exact forall_mem_cons.mpr ⟨none, run_blocked blocked down⟩

end SrvrOS.Trackpad
