import SrvrOS.Process.ScopeLedger

/-!
# Runs of the scopes

Every request is a move of the ledger, so the books balance in every state of every run.
-/

namespace SrvrOS.Scope

open Lib Function Option Nat Scope.Process

variable {i k o : SlotId} {ready : Process → Bool} {life : Lifetime}

/-- A process owns a scope only while its code can run, and a zombie has given up its
runtime. -/
def Slot.Orderly : Slot → Prop
  | .held process =>
    (process.runs = false → process.ownedUserScope = 0) ∧
    (process.reapable = true → process.custody = .retired)
  | _ => True

namespace Scopes

structure Accounts (s : Scopes) : Prop where
  balanced : s.ledger.Balanced
  orderly : ∀ slot, (s.slots slot).Orderly
  kernel : ∀ token ∈ s.kernelTokens, token ≠ 0 ∧ token < s.ledger.frontier ∧
    ∀ index, (s.lifetimes index).token = token → (s.lifetimes index).user = false

variable {s : Scopes} {r : Request}

/-! ## Finding a record -/

variable {token : Nat}

theorem lifetimeFind_some (hit : s.lifetimeFind token = some i) :
    token ≠ 0 ∧ (s.lifetimes i).token = token := by
  unfold lifetimeFind at hit
  split at hit
  · cases hit
  next named => exact ⟨named, by simpa using (Fin.find?_eq_some_iff.mp hit).1⟩

theorem lifetimeFind_eq (books : s.ledger.Balanced) (named : token ≠ 0)
    (has : (s.lifetimes i).token = token) : s.lifetimeFind token = some i := by
  have hit : (s.lifetimeFind token).isSome := by
    rw [lifetimeFind, if_neg named, Fin.isSome_find?_iff]
    exact ⟨i, by simpa using has⟩
  obtain ⟨p, hit⟩ := isSome_iff_exists.mp hit
  obtain ⟨-, eq⟩ := lifetimeFind_some hit
  have eq :=
    books.distinct p i (fun none_ => named (eq.symm.trans none_)) (eq.trans has.symm)
  exact eq ▸ hit

theorem lifetimeFind_none (missing : s.lifetimeFind token = none) (named : token ≠ 0)
    (i : SlotId) : (s.lifetimes i).token ≠ token := by
  rw [lifetimeFind, if_neg named, Fin.find?_eq_none_iff] at missing
  simpa using missing i

/-! ## The ledger under updates of the tables -/

@[simp] theorem ledger_setLifetime :
    (s.setLifetime i life).ledger =
      { s.ledger with lifetimes := update s.lifetimes i life } := rfl

theorem ledger_setSlot (k : Slot) :
    (s.setSlot i k).ledger = { s.ledger with
      tokens := update s.ledger.tokens i k.token
      owned := update s.ledger.owned i k.ownedUserScope } := by
  have column (read : Slot → Nat) :
      (fun p => read (update s.slots i k p)) =
        update (fun p => read (s.slots p)) i (read k) := by
    funext p
    exact apply_update (fun _ => read) s.slots i k p
  simp [ledger, setSlot, column Slot.token, column Slot.ownedUserScope]

/-- A slot may change as long as it belongs to the same token and owns the same token. -/
theorem ledger_setSlot_same {k : Slot} (token : k.token = (s.slots i).token)
    (owned : k.ownedUserScope = (s.slots i).ownedUserScope) :
    (s.setSlot i k).ledger = s.ledger := by
  rw [ledger_setSlot, token, owned]
  simp [ledger]

theorem ledger_alter {change : Process → Process}
    (token : ∀ process, (change process).lifetime = process.lifetime)
    (owned : ∀ process, (change process).ownedUserScope = process.ownedUserScope) :
    (s.alter k ready change).ledger = s.ledger := by
  unfold alter process?
  cases held : s.slots k with
  | held process =>
    dsimp only
    split
    · refine ledger_setSlot_same ?_ ?_
      · rw [held]
        exact token process
      · rw [held]
        exact owned process
    · rfl
  | free | creating | releasing => rfl

/-! ## Owners -/

theorem userScopeOwned_some (owned : s.userScopeOwned o token = some i) :
    token ≠ 0 ∧ (s.lifetimes i).token = token ∧ (s.lifetimes i).user = true ∧
      (s.lifetimes i).owner = some o := by
  unfold userScopeOwned at owned
  split at owned
  next process p held hit =>
    obtain ⟨named, has⟩ := lifetimeFind_some hit
    split at owned
    next authority =>
      obtain rfl : p = i := some.inj owned
      exact ⟨named, has, authority.2.2.2.2⟩
    · cases owned
  · cases owned

variable {o : SlotId}

theorem disown_ledger :
    (s.disown o).ledger = { s.ledger with owned := update s.ledger.owned o 0 } := by
  unfold disown
  cases held : s.slots o with
  | held process =>
    have token : Slot.token (.held { process with ownedUserScope := 0 }) = s.ledger.tokens o := by
      simp [ledger, held, Slot.token]
    rw [ledger_setSlot, token, update_eq_self]
    rfl
  | free | creating | releasing =>
    have idle : s.ledger.owned o = 0 := by simp [ledger, held, Slot.ownedUserScope]
    rw [← idle, update_eq_self]

theorem ownRecord_cases (books : s.ledger.Balanced) :
    (s.ownRecord o = none ∧ (s.slots o).ownedUserScope = 0) ∨
    ∃ i, s.ownRecord o = some i ∧ (s.lifetimes i).owner = some o := by
  rcases Nat.eq_zero_or_pos (s.slots o).ownedUserScope with idle | owns
  · left
    simp [ownRecord, lifetimeFind, idle]
  right
  have owns := pos_iff_ne_zero.mp owns
  obtain ⟨i, has, p⟩ := books.owned o owns
  have user := ((books.sound i).owner o p).1
  refine ⟨i, ?_, p⟩
  rw [ownRecord, lifetimeFind_eq books owns has, filter_eq_some_iff]
  exact ⟨rfl, by simpa using ⟨user, p⟩⟩

theorem userScopeDetach_move (books : s.ledger.Balanced) (by_ : r.detaches = some o) :
    Ledger.Move r s.ledger (s.userScopeDetach o).ledger := by
  unfold userScopeDetach
  obtain ⟨missing, idle⟩ | ⟨i, hit, p⟩ := ownRecord_cases books
  · have eq : update s.ledger.owned o 0 = s.ledger.owned := by
      have idle : s.ledger.owned o = 0 := idle
      rw [← idle, update_eq_self]
    rw [missing]
    rw [disown_ledger, eq]
    exact .quiet
  rw [hit]
  rw [disown_ledger]
  exact .detach i o p by_

theorem userScopeDetach_slots : (s.userScopeDetach o).slots = (s.disown o).slots := by
  unfold userScopeDetach disown setLifetime
  split
  · dsimp only
    split <;> rfl
  · rfl

/-! ## Members -/

theorem userScopeMemberDone_move (books : s.ledger.Balanced) {token status : Nat} {retired : Bool}
    (member : (s.slots k).token = token) (idle : (s.slots k).ownedUserScope = 0) :
    Ledger.Move r s.ledger
      ((s.setSlot k .free).userScopeMemberDone token status retired).ledger := by
  have idle : s.ledger.owned k = 0 := idle
  have member : s.ledger.tokens k = token := member
  have freed : (s.setSlot k .free).ledger =
      { s.ledger with tokens := update s.ledger.tokens k 0 } := by
    have eq : update s.ledger.owned k 0 = s.ledger.owned := by rw [← idle, update_eq_self]
    rw [ledger_setSlot]
    simp [Slot.token, Slot.ownedUserScope, eq]
  rcases Nat.eq_zero_or_pos token with none_ | named
  · have missing : (s.setSlot k .free).lifetimeFind token = none := if_pos none_
    have eq : update s.ledger.tokens k 0 = s.ledger.tokens := by
      rw [← none_, ← member, update_eq_self]
    simp only [userScopeMemberDone, missing]
    rw [freed, eq]
    exact .quiet
  have named := pos_iff_ne_zero.mp named
  obtain ⟨i, has⟩ := books.live k (member ▸ named)
  have has := has.trans member
  have hit : (s.setSlot k .free).lifetimeFind token = some i :=
    (lifetimeFind_eq books named has :)
  simp only [userScopeMemberDone, hit]
  rw [ledger_setLifetime, freed]
  exact .leave i k status retired (has ▸ named) (member.trans has.symm)

/-! ## Every request is a move -/

theorem freeLifetime_some (hit : s.freeLifetime = some i) :
    s.nextLifetime ≠ 0 ∧ (s.lifetimes i).token = 0 := by
  unfold freeLifetime at hit
  split at hit
  · cases hit
  next left => exact ⟨left, by simpa using (Fin.find?_eq_some_iff.mp hit).1⟩

theorem owned_update (owned : SlotId → Nat) (token : Nat) :
    (fun k => if some o = some k then token else owned k) =
      update owned o token := by
  funext k
  by_cases ours : k = o
  · subst ours
    simp
  · rw [update_of_ne ours, if_neg fun eq => ours (some.inj eq).symm]

theorem processScopeCreate_move : Ledger.Move r s.ledger (s.processScopeCreate o).2.ledger := by
  unfold processScopeCreate
  cases held : s.slots o with
  | held process =>
    dsimp only
    split
    · exact .quiet
    split
    · exact .quiet
    split
    · exact .quiet
    rename_i idle
    split
    · exact .quiet
    cases hit : s.freeLifetime with
    | none => exact .quiet
    | some i =>
      obtain ⟨left, free⟩ := freeLifetime_some hit
      have idle : s.ledger.owned o = 0 := by
        simp only [ledger, held, Slot.ownedUserScope]
        simpa using idle
      have move : Ledger.Move r s.ledger _ :=
        .issue i (some o) free left (by rintro _ ⟨⟩; exact idle)
      rw [owned_update] at move
      have token : Slot.token (.held { process with ownedUserScope := s.nextLifetime }) =
          (s.issue i (some o)).ledger.tokens o := by
        simp [issue, setLifetime, ledger, held, Slot.token]
      rw [ledger_setSlot, token, update_eq_self]
      exact move
  | free | creating | releasing => exact .quiet

variable {token : Nat}

theorem processScopeReserve_move :
    Ledger.Move r s.ledger (s.processScopeReserve o token).2.ledger := by
  unfold processScopeReserve
  cases owned : s.userScopeOwned o token with
  | none => exact .quiet
  | some i =>
    obtain ⟨named, has, user, o⟩ := userScopeOwned_some owned
    dsimp only
    split
    · exact .quiet
    next fresh =>
      simp only [Bool.not_eq_true, not_or] at fresh
      exact .amend i _ (has ▸ named)
        (.reserve user (o ▸ some_ne_none _) fresh.1 fresh.2)

theorem processScopeCancelReservation_move :
    Ledger.Move r s.ledger (s.processScopeCancelReservation token).ledger := by
  unfold processScopeCancelReservation
  cases hit : s.lifetimeFind token with
  | none => exact .quiet
  | some i =>
    obtain ⟨named, has⟩ := lifetimeFind_some hit
    dsimp only
    split
    next pending => exact .amend i _ (has ▸ named) (.cancel pending.2)
    · exact .quiet

theorem processScopeControl_move {op : ScopeOp} (by_ : r = .scopeControl op o token) :
    Ledger.Move r s.ledger (s.processScopeControl op o token).2.ledger := by
  unfold processScopeControl
  cases owned : s.userScopeOwned o token with
  | none => exact .quiet
  | some i =>
    obtain ⟨named, has, user, p⟩ := userScopeOwned_some owned
    have live := has ▸ named
    cases op with
    | revoke => exact .amend i _ live .revoke
    | status => exact .quiet
    | release =>
      dsimp only
      split
      · exact .quiet
      rename_i ended
      simp only [Bool.not_eq_true', Bool.not_eq_false, not_or, Classical.not_not] at ended
      have p : (s.ledger.lifetimes i).owner = some o := p
      have move : Ledger.Move r s.ledger _ := .withdraw i live ended.1 ended.2
        (.inr ⟨o, p, by rw [by_]; exact congrArg _ has.symm⟩)
      rw [p, owned_update] at move
      have lifetimes : (s.disown o).lifetimes = s.lifetimes :=
        congrArg Ledger.lifetimes disown_ledger
      rw [ledger_setLifetime, disown_ledger, lifetimes]
      exact move

theorem processLifetimeCreate_move : Ledger.Move r s.ledger s.processLifetimeCreate.2.ledger := by
  unfold processLifetimeCreate
  cases hit : s.freeLifetime with
  | none => exact .quiet
  | some i =>
    obtain ⟨left, free⟩ := freeLifetime_some hit
    have move : Ledger.Move r s.ledger _ := .issue i none free left (by rintro _ ⟨⟩)
    exact move

theorem processLifetimeRevoke_move :
    Ledger.Move r s.ledger (s.processLifetimeRevoke token).2.ledger := by
  unfold processLifetimeRevoke
  cases hit : s.lifetimeFind token with
  | none => exact .quiet
  | some i =>
    obtain ⟨named, has⟩ := lifetimeFind_some hit
    exact .amend i _ (has ▸ named) .revoke

theorem processLifetimeRelease_move (books : s.Accounts)
    (kernel : token ∈ s.kernelTokens) (by_ : r = .lifetimeRelease token) :
    Ledger.Move r s.ledger (s.processLifetimeRelease token).2.ledger := by
  unfold processLifetimeRelease
  cases hit : s.lifetimeFind token with
  | none => exact .quiet
  | some i =>
    obtain ⟨named, has⟩ := lifetimeFind_some hit
    have plain := (books.kernel token kernel).2.2 i has
    dsimp only
    split
    next ended =>
      have unowned (k : SlotId) : ¬(s.ledger.lifetimes i).owner = some k := fun p =>
        absurd ((books.balanced.sound i).owner k p).1 (by
          have plain : (s.ledger.lifetimes i).user = false := plain
          simp [plain])
      have live := has ▸ named
      have move : Ledger.Move r s.ledger _ := .withdraw i live ended.1 ended.2
        (.inl ⟨plain, by rw [by_]; exact congrArg _ has.symm⟩)
      simp only [unowned] at move
      exact move
    · exact .quiet

variable {parent : Option SlotId} {rootToken token : Nat}

theorem turnedAway_false (welcome : s.turnedAway parent rootToken token = false)
    (hit : s.lifetimeFind token = some i) :
    ((s.lifetimes i).revoked = true → rootToken ≠ 0 ∧ (s.lifetimes i).reservation = true) ∧
    (rootToken ≠ 0 → (s.lifetimes i).rootReserved = true →
      (s.lifetimes i).reservation = true) := by
  have named := (lifetimeFind_some hit).1
  simp only [turnedAway, hit, Bool.or_eq_false_iff, Bool.and_eq_true, Bool.and_eq_false_iff,
    Bool.not_eq_false', bne_iff_ne, bne_eq_false_iff_eq, named, false_or] at welcome
  obtain ⟨-, closed, taken⟩ := welcome
  refine ⟨fun revoked => ?_, fun root reserved => ?_⟩
  · exact closed.resolve_left (by simp [revoked])
  rcases taken with (none_ | free) | pending
  · exact absurd none_ root
  · simp [reserved] at free
  · exact pending

theorem turnedAway_missing (welcome : s.turnedAway parent rootToken token = false)
    (missing : s.lifetimeFind token = none) : token = 0 := by
  by_contra named
  simp [turnedAway, missing, named] at welcome

theorem allocProcessLifetime_move {detached : Bool} {rootToken : Nat}
    (by_ : r = .allocate parent detached rootToken) :
    Ledger.Move r s.ledger (s.allocProcessLifetime parent detached rootToken).2.ledger := by
  unfold allocProcessLifetime
  generalize under : s.admissionToken parent rootToken = token
  dsimp only
  split
  · exact .quiet
  rename_i welcome
  have welcome : s.turnedAway parent rootToken token = false := by simpa using welcome
  cases p : Fin.find? fun i => s.slots i == Slot.free with
  | none => exact .quiet
  | some k =>
    have free : s.slots k = .free := by simpa using (Fin.find?_eq_some_iff.mp p).1
    have unowned : s.ledger.owned k = 0 := by simp [ledger, free, Slot.ownedUserScope]
    have unused : s.ledger.tokens k = 0 := by simp [ledger, free, Slot.token]
    have kept : update s.ledger.owned k 0 = s.ledger.owned := by rw [← unowned, update_eq_self]
    cases hit : s.lifetimeFind token with
    | none =>
      cases turnedAway_missing welcome hit
      have eq : update s.ledger.tokens k 0 = s.ledger.tokens := by
        rw [← unused, update_eq_self]
      rw [ledger_setSlot]
      simp only [Slot.token, Slot.ownedUserScope, kept, eq]
      exact .quiet
    | some i =>
      obtain ⟨named, has⟩ := lifetimeFind_some hit
      obtain ⟨invited, single⟩ := turnedAway_false welcome hit
      have root (asked : rootToken ≠ 0) : rootToken = (s.ledger.lifetimes i).token := by
        have under : rootToken = token := by simpa [admissionToken, asked] using under
        exact under.trans has.symm
      have move : Ledger.Move r s.ledger _ :=
        .enroll i k parent detached rootToken by_ unused (has ▸ named) root invited single
      rw [ledger_setSlot, ledger_setLifetime]
      simp only [Slot.ownedUserScope, kept]
      rw [← has]
      exact move

theorem allows_iff :
    s.allows k ready = true ↔ ∃ process, s.slots k = .held process ∧ ready process = true := by
  unfold allows process?
  cases s.slots k <;> simp

theorem process?_eq_some {process : Process} :
    s.process? k = some process ↔ s.slots k = .held process := by
  unfold process?
  cases s.slots k <;> simp

theorem step_move (books : s.Accounts) (r : Request) :
    Ledger.Move r s.ledger (s.step r).2.ledger := by
  have guarded {program : Reply × Scopes} {allowed : Prop} [Decidable allowed]
      (move : allowed → Ledger.Move r s.ledger program.2.ledger) :
      Ledger.Move r s.ledger (if allowed then program else (.refused, s)).2.ledger := by
    split
    next p => exact move p
    · exact .quiet
  have altered {t : Scopes} {k : SlotId} {ready : Process → Bool} {change : Process → Process}
      (move : Ledger.Move r s.ledger t.ledger)
      (token : ∀ process, (change process).lifetime = process.lifetime)
      (owned : ∀ process, (change process).ownedUserScope = process.ownedUserScope) :
      Ledger.Move r s.ledger (t.alter k ready change).ledger := by
    rw [ledger_alter token owned]
    exact move
  cases r with
  | scopeCreate o => exact guarded fun _ => processScopeCreate_move
  | scopeReserve o token => exact guarded fun _ => processScopeReserve_move
  | scopeCancelReservation token => exact processScopeCancelReservation_move
  | scopeControl op o token => exact guarded fun _ => processScopeControl_move rfl
  | lifetimeCreate => exact processLifetimeCreate_move
  | lifetimeRevoke token => exact guarded fun _ => processLifetimeRevoke_move
  | lifetimeRelease token =>
    exact guarded fun kernel => processLifetimeRelease_move books kernel rfl
  | allocate parent detached rootToken =>
    exact guarded fun _ => allocProcessLifetime_move rfl
  | publish k =>
    simp only [step]
    cases held : s.slots k with
    | creating token detached =>
      rw [ledger_setSlot_same (by rw [held]; rfl) (by rw [held]; rfl)]
      exact .quiet
    | free | held | releasing => exact .quiet
  | start k | kill k | exit k status mainThread | publishZombie k | claim k =>
    exact altered .quiet (fun _ => rfl) fun _ => rfl
  | detach k => exact guarded fun _ => userScopeDetach_move books.balanced rfl
  | retireRuntime k | releaseDetach k =>
    exact guarded fun _ =>
      altered (userScopeDetach_move books.balanced rfl) (fun _ => rfl) fun _ => rfl
  | tryWaitRetired k =>
    simp only [step]
    cases hit : s.process? k with
    | none => exact .quiet
    | some process =>
      have held := process?_eq_some.mp hit
      refine guarded fun ready => ?_
      have orderly := books.orderly k
      rw [held] at orderly
      have stopped : process.runs = false := by simp [runs, orderly.2 ready.2.1]
      exact userScopeMemberDone_move books.balanced (by rw [held]; rfl)
        (by rw [held]; exact orderly.1 stopped)
  | releaseBegin k =>
    simp only [step]
    cases hit : s.process? k with
    | none => exact .quiet
    | some process =>
      have held := process?_eq_some.mp hit
      refine guarded fun leaving => ?_
      have orderly := books.orderly k
      rw [held] at orderly
      have stopped : process.runs = false := by simp [runs, leaving]
      rw [ledger_setSlot_same (by rw [held]; rfl) (by rw [held]; exact (orderly.1 stopped).symm)]
      exact .quiet
  | releaseEnd k =>
    simp only [step]
    cases held : s.slots k with
    | releasing token status retired =>
      exact userScopeMemberDone_move books.balanced (by rw [held]; rfl) (by rw [held]; rfl)
    | free | creating | held => exact .quiet

/-! ## The slots stay orderly -/

/-- All slots are orderly, and the kernel holds the given tokens. -/
def Kempt (s : Scopes) (tokens : List Nat) : Prop :=
  (∀ slot, (s.slots slot).Orderly) ∧ s.kernelTokens = tokens

section Kempt

variable {tokens : List Nat} (kempt : s.Kempt tokens)

include kempt

theorem Kempt.setSlot {k : Slot} (fits : k.Orderly) : (s.setSlot i k).Kempt tokens := by
  refine ⟨fun p => ?_, kempt.2⟩
  rcases eq_or_ne p i with rfl | apart
  · simpa only [Scopes.setSlot, update_self] using fits
  · simpa only [Scopes.setSlot, update_of_ne apart] using kempt.1 p

theorem Kempt.held {process : Process} (held : s.slots k = .held process) :
    (Slot.held process).Orderly := held ▸ kempt.1 k

theorem Kempt.alter {change : Process → Process}
    (fits : ∀ process, (Slot.held process).Orderly → ready process = true →
      (Slot.held (change process)).Orderly) : (s.alter i ready change).Kempt tokens := by
  unfold Scopes.alter
  cases hit : s.process? i with
  | none => exact kempt
  | some process =>
    dsimp only
    split
    next p => exact kempt.setSlot (fits process (kempt.held (process?_eq_some.mp hit)) p)
    · exact kempt

variable {o : SlotId}

theorem Kempt.disown : (s.disown o).Kempt tokens := by
  unfold Scopes.disown
  cases held : s.slots o with
  | held process => exact kempt.setSlot ⟨fun _ => rfl, (kempt.held held).2⟩
  | free | creating | releasing => exact kempt

theorem Kempt.userScopeDetach : (s.userScopeDetach o).Kempt tokens := by
  unfold Scopes.userScopeDetach
  split
  next i hit =>
    have amended : (s.setLifetime i (s.lifetimes i).detached).Kempt tokens := kempt
    exact amended.disown
  · exact kempt.disown

theorem Kempt.detached {custody : Custody}
    (zombie : ∀ process, s.slots o = .held process → process.custody ≠ .retired) :
    ((s.userScopeDetach o).alter o (fun _ => true) fun process =>
      { process with custody := custody }).Kempt tokens := by
  unfold Scopes.alter
  cases hit : (s.userScopeDetach o).process? o with
  | none => exact kempt.userScopeDetach
  | some process =>
    have held := process?_eq_some.mp hit
    rw [userScopeDetach_slots, Scopes.disown] at held
    cases old : s.slots o with
    | held before =>
      simp only [old, Scopes.setSlot, update_self, Slot.held.injEq] at held
      subst held
      refine kempt.userScopeDetach.setSlot ⟨fun _ => rfl, fun reapable => ?_⟩
      exact absurd ((kempt.held old).2 reapable) (zombie before old)
    | free | creating | releasing =>
      simp only [old] at held
      cases held

theorem Kempt.memberDone {k : SlotId} {token status : Nat} {retired : Bool} :
    ((s.setSlot k .free).userScopeMemberDone token status retired).Kempt tokens := by
  have freed : (s.setSlot k .free).Kempt tokens := kempt.setSlot trivial
  unfold userScopeMemberDone
  split <;> exact freed

theorem Kempt.processScopeCreate (runs : s.allows o runs = true) :
    (s.processScopeCreate o).2.Kempt tokens := by
  obtain ⟨process, held, runs⟩ := allows_iff.mp runs
  unfold Scopes.processScopeCreate
  rw [held]
  dsimp only
  split
  · exact kempt
  split
  · exact kempt
  split
  · exact kempt
  split
  · exact kempt
  cases s.freeLifetime with
  | none => exact kempt
  | some i =>
    have issued := kempt
    refine issued.setSlot ⟨fun stopped => ?_, (kempt.held held).2⟩
    have still : process.runs = false := stopped
    simp [runs] at still

theorem Kempt.allocProcessLifetime {parent : Option SlotId} {detached : Bool} {rootToken : Nat} :
    (s.allocProcessLifetime parent detached rootToken).2.Kempt tokens := by
  unfold Scopes.allocProcessLifetime
  dsimp only
  split
  · exact kempt
  split
  · exact kempt
  refine Kempt.setSlot ?_ trivial
  split <;> exact kempt

theorem Kempt.step (r : Request) (other : r ≠ .lifetimeCreate) : (s.step r).2.Kempt tokens := by
  have guarded {program : Reply × Scopes} {allowed : Prop} [Decidable allowed]
      (kept : allowed → program.2.Kempt tokens) :
      Kempt (if allowed then program else (.refused, s)).2 tokens := by
    split
    next p => exact kept p
    · exact kempt
  cases r with
  | lifetimeCreate => exact absurd rfl other
  | scopeCreate o => exact guarded fun runs => kempt.processScopeCreate runs
  | scopeReserve o token =>
    refine guarded fun _ => ?_
    unfold processScopeReserve
    repeat' split
    all_goals exact kempt
  | scopeCancelReservation token =>
    simp only [Scopes.step, processScopeCancelReservation]
    repeat' split
    all_goals exact kempt
  | scopeControl op o token =>
    refine guarded fun _ => ?_
    unfold processScopeControl
    split
    · exact kempt
    cases op with
    | revoke | status => exact kempt
    | release =>
      dsimp only
      split
      · exact kempt
      · exact kempt.disown
  | lifetimeRevoke token =>
    refine guarded fun _ => ?_
    unfold processLifetimeRevoke
    split <;> exact kempt
  | lifetimeRelease token =>
    refine guarded fun _ => ?_
    unfold processLifetimeRelease
    repeat' split
    all_goals exact kempt
  | allocate parent detached rootToken =>
    exact guarded fun _ => kempt.allocProcessLifetime
  | publish k =>
    simp only [Scopes.step]
    split
    · exact kempt.setSlot ⟨fun _ => rfl, by simp⟩
    · exact kempt
  | start k =>
    refine kempt.alter fun process held creator => ?_
    have creator : process.custody = .creator := by simpa using creator
    refine ⟨fun stopped => ?_, fun reapable => ?_⟩
    · exact held.1 (by simp [runs, creator])
    · exact absurd (held.2 reapable) (by simp [creator])
  | kill k | exit k status mainThread => exact kempt.alter fun process held _ => held
  | detach k => exact guarded fun _ => kempt.userScopeDetach
  | retireRuntime k =>
    refine guarded fun ready => kempt.detached fun process held retired => ?_
    simp [allows, process?, held, retired] at ready
  | publishZombie k =>
    refine kempt.alter fun process held retired => ⟨held.1, fun _ => ?_⟩
    simpa using retired
  | claim k =>
    refine kempt.alter fun process held ready => ⟨fun _ => ?_, by simp⟩
    simp only [Bool.and_eq_true] at ready
    exact held.1 (by simp [runs, held.2 ready.2])
  | tryWaitRetired k =>
    simp only [Scopes.step]
    split
    · exact guarded fun _ => kempt.memberDone
    · exact kempt
  | releaseDetach k =>
    refine guarded fun ready => kempt.detached fun process held retired => ?_
    simp [allows, process?, held, releasable, retired] at ready
  | releaseBegin k =>
    simp only [Scopes.step]
    split
    · exact guarded fun _ => kempt.setSlot trivial
    · exact kempt
  | releaseEnd k =>
    simp only [Scopes.step]
    split
    · exact kempt.memberDone
    · exact kempt

end Kempt

end Scopes

/-! ## Records over time -/

/-- What a record keeps as long as its scope exists. -/
structure Lifetime.Continues (life life' : Lifetime) : Prop where
  token : life'.token = life.token
  user : life'.user = life.user
  revoked : life.revoked = true → life'.revoked = true
  taken : life.rootReserved = true → life.reservation = false →
    life'.rootReserved = true ∧ life'.reservation = false

theorem Lifetime.Continues.refl {life : Lifetime} : life.Continues life :=
  ⟨rfl, rfl, id, fun reserved taken => ⟨reserved, taken⟩⟩

variable {life' : Lifetime}

theorem Lifetime.Amends.continues (change : life.Amends life')
    (small : life.members + 1 < 2 ^ 64) : life'.token = 0 ∨ life.Continues life' := by
  cases change with
  | reserve user o open_ first =>
    exact .inr ⟨rfl, rfl, id, fun reserved => absurd reserved (by simp [first])⟩
  | cancel pending =>
    obtain ⟨-, -, -, -, gone⟩ | ⟨exits, first, shrunk⟩ :=
      { life with reservation := false }.memberDone_cases 0 false (by simp only; omega)
    · exact .inl (by rw [gone])
    rw [shrunk]
    exact .inr ⟨rfl, rfl, id, fun _ taken => absurd taken (by simp [pending])⟩
  | revoke => exact .inr ⟨rfl, rfl, fun _ => rfl, fun reserved taken => ⟨reserved, taken⟩⟩

/-- The root of a revoked scope has been admitted. -/
def Lifetime.Rooted (life : Lifetime) : Prop :=
  life.revoked = true ∧ life.rootReserved = true ∧ life.reservation = false

theorem Lifetime.Continues.rooted (eq : life.Continues life')
    (rooted : life.Rooted) : life'.Rooted :=
  ⟨eq.revoked rooted.1, eq.taken rooted.2.1 rooted.2.2⟩

namespace Ledger

variable {l l' : Ledger} {r : Request}

theorem Move.record (move : Move r l l') (books : l.Balanced) (i : SlotId) :
    (l'.lifetimes i).token = 0 ∨
    (l.lifetimes i).Continues (l'.lifetimes i) ∨
    (l'.lifetimes i).token = l.frontier := by
  have changed {p : SlotId} {life : Lifetime}
      (case : life.token = 0 ∨ (l.lifetimes p).Continues life) :
      (update l.lifetimes p life i).token = 0 ∨
        (l.lifetimes i).Continues (update l.lifetimes p life i) := by
    rcases eq_or_ne i p with rfl | apart
    · simpa only [update_self] using case
    rw [update_of_ne apart]
    exact .inr .refl
  have early {life : Lifetime} (case : life.token = 0 ∨ (l.lifetimes i).Continues life) :
      life.token = 0 ∨ (l.lifetimes i).Continues life ∨ life.token = l.frontier :=
    case.imp_right .inl
  cases move with
  | quiet => exact .inr (.inl .refl)
  | issue p o free left idle =>
    rcases eq_or_ne i p with rfl | apart
    · right; right
      have here : l.frontier = l.next := if_neg left
      rw [here]
      simp [update_self]
    refine .inr (.inl ?_)
    simp only [update_of_ne apart]
    exact .refl
  | amend p life live change =>
    exact early (changed (Lifetime.Amends.continues change (books.members_small live)))
  | withdraw => exact early (changed (.inl rfl))
  | detach p k o =>
    obtain ⟨-, live, -⟩ := (books.sound p).owner k o
    have small := books.members_small live
    have counted := books.counted p live
    refine early (changed ?_)
    obtain ⟨-, gone⟩ | shrunk := (l.lifetimes p).detached_cases (by omega) (by omega)
    · exact .inl (by rw [gone])
    rw [shrunk]
    exact .inr ⟨rfl, rfl, fun _ => rfl, fun reserved _ => ⟨reserved, rfl⟩⟩
  | enroll p k parent detached rootToken _ _ live =>
    obtain ⟨peak, entered⟩ :=
      (l.lifetimes p).admitted_eq (rootToken != 0) (books.members_small live)
    refine early (changed (.inr ?_))
    rw [entered]
    exact ⟨rfl, rfl, id, fun reserved taken => ⟨by simp [reserved], by simp [taken]⟩⟩
  | leave p k status retired live =>
    have small := books.members_small live
    refine early (changed ?_)
    obtain ⟨-, -, -, -, gone⟩ | ⟨exits, first, shrunk⟩ :=
      (l.lifetimes p).memberDone_cases status retired (by omega)
    · exact .inl (by rw [gone])
    rw [shrunk]
    exact .inr ⟨rfl, rfl, id, fun reserved taken => ⟨reserved, taken⟩⟩

section

variable (move : Move r l l') (books : l.Balanced)

include move books

theorem Move.frontier_le : l.frontier ≤ l'.frontier := by
  cases move with
  | issue p o free left idle =>
    rw [frontier_issue books.bounded, frontier, if_neg left]
    exact le_succ _
  | quiet | amend | withdraw | detach | enroll | leave => exact le_rfl

theorem Move.admission
    (outside : l.tokens k ≠ token) (named : token ≠ 0) (inside : l'.tokens k = token) :
    ∃ i, (l.lifetimes i).token = token ∧ (l'.lifetimes i).token = token ∧
      ((l.lifetimes i).revoked = true →
        (∃ parent detached, r = .allocate parent detached token) ∧
        (l.lifetimes i).reservation = true ∧ (l'.lifetimes i).Rooted) := by
  cases move with
  | quiet | issue | amend | withdraw | detach => exact absurd inside outside
  | enroll i p parent detached rootToken by_ free live root invited single =>
    have here : k = p := by
      by_contra apart
      exact outside ((update_of_ne apart ..).symm.trans inside)
    subst here
    simp only [update_self] at inside
    obtain ⟨peak, entered⟩ :=
      (l.lifetimes i).admitted_eq (rootToken != 0) (books.members_small live)
    refine ⟨i, inside, by simp [entered, inside], fun revoked => ?_⟩
    obtain ⟨asked, pending⟩ := invited revoked
    obtain rfl : rootToken = token := (root asked).trans inside
    refine ⟨⟨parent, detached, by_⟩, pending, ?_⟩
    simp only [update_self, entered]
    exact ⟨revoked, by simp [asked], by simp [asked]⟩
  | leave i p =>
    rcases eq_or_ne k p with rfl | apart
    · simp only [update_self] at inside
      exact absurd inside.symm named
    · exact absurd ((update_of_ne apart ..).symm.trans inside) outside

theorem Move.disappearance (live : (l.lifetimes i).token ≠ 0)
    (gone : (l'.lifetimes i).token ≠ (l.lifetimes i).token) :
    ((l.lifetimes i).revoked = true ∧ (l.lifetimes i).members = 0 ∧
      ((l.lifetimes i).user = false ∨ ∃ o, (l.lifetimes i).owner = some o ∧
        r = .scopeControl .release o (l.lifetimes i).token)) ∨
    ((l.lifetimes i).user = true ∧ (l.lifetimes i).owner = none ∧
      (l.lifetimes i).revoked = true) ∨
    ∃ o, (l.lifetimes i).owner = some o ∧ r.detaches = some o := by
  have here {p : SlotId} {life : Lifetime}
      (gone : (update l.lifetimes p life i).token ≠ (l.lifetimes i).token) :
      i = p := by
    by_contra apart
    exact gone (by rw [update_of_ne apart])
  cases move with
  | quiet => exact absurd rfl gone
  | issue p o free left idle =>
    cases here gone
    exact absurd free live
  | amend p life named change =>
    cases here gone
    simp only [update_self] at gone
    cases change with
    | reserve | revoke => exact absurd rfl gone
    | cancel pending =>
      have small := books.members_small live
      obtain ⟨-, orphan, -⟩ | ⟨exits, first, shrunk⟩ :=
        { l.lifetimes i with reservation := false }.memberDone_cases 0 false
          (by simp only; omega)
      · exact absurd orphan ((books.sound i).reservation pending).2.2
      rw [shrunk] at gone
      exact absurd rfl gone
  | withdraw p named revoked empty by_ =>
    cases here gone
    exact .inl ⟨revoked, empty, by_.imp_left And.left⟩
  | detach p k o by_ =>
    cases here gone
    exact .inr (.inr ⟨k, o, by_⟩)
  | enroll p k parent detached rootToken _ _ named =>
    cases here gone
    obtain ⟨peak, entered⟩ :=
      (l.lifetimes i).admitted_eq (rootToken != 0) (books.members_small live)
    simp only [update_self, entered] at gone
    exact absurd rfl gone
  | leave p k status retired named =>
    cases here gone
    have small := books.members_small live
    obtain ⟨user, orphan, revoked, -⟩ | ⟨exits, first, shrunk⟩ :=
      (l.lifetimes i).memberDone_cases status retired (by omega)
    · exact .inr (.inl ⟨user, orphan, revoked⟩)
    simp only [update_self, shrunk] at gone
    exact absurd rfl gone

end

end Ledger

/-! ## Runs -/

namespace Scopes

variable {s : Scopes}

theorem initial_accounts : Accounts {} := by
  have books : ledger {} |>.Balanced := by
    refine ⟨by decide, fun _ => one_pos, fun _ _ named => absurd rfl named,
      fun _ named => absurd rfl named, fun _ named => absurd rfl named, fun _ => ?_,
      fun _ named => absurd rfl named⟩
    exact ⟨by simp [ledger], by simp [ledger], by simp [ledger]⟩
  exact ⟨books, fun _ => trivial, by simp⟩

theorem step_accounts (books : s.Accounts) (r : Request) : (s.step r).2.Accounts := by
  have move := step_move books r
  have balanced := move.balanced books.balanced
  have frontier := move.frontier_le books.balanced
  by_cases creates : r = .lifetimeCreate
  · subst creates
    simp only [step, processLifetimeCreate] at balanced frontier ⊢
    cases hit : s.freeLifetime with
    | none => exact books
    | some i =>
      obtain ⟨left, free⟩ := freeLifetime_some hit
      simp only [hit] at balanced frontier ⊢
      refine ⟨balanced, books.orderly, fun token held => ?_⟩
      have here : s.ledger.frontier = s.nextLifetime := if_neg left
      have below (p : SlotId) : (s.lifetimes p).token < s.nextLifetime :=
        here ▸ books.balanced.issued p
      have further : Ledger.frontier (ledger { s.issue i none with
          kernelTokens := s.nextLifetime :: s.kernelTokens }) = s.nextLifetime + 1 :=
        Ledger.frontier_issue books.balanced.bounded
      have others (p : SlotId) (apart : p ≠ i) :
          (s.issue i none).lifetimes p = s.lifetimes p :=
        update_of_ne apart ..
      have ours : (s.issue i none).lifetimes i = { token := s.nextLifetime } :=
        update_self ..
      rcases List.mem_cons.mp held with rfl | old
      · refine ⟨left, further ▸ lt_succ_self _, fun p has => ?_⟩
        rcases eq_or_ne p i with rfl | apart
        · exact congrArg Lifetime.user ours
        exact absurd ((congrArg Lifetime.token (others p apart)).symm.trans has)
          (below p).ne
      obtain ⟨named, small, plain⟩ := books.kernel token old
      refine ⟨named, small.trans_le frontier, fun p has => ?_⟩
      rcases eq_or_ne p i with rfl | apart
      · exact congrArg Lifetime.user ours
      have has := (congrArg Lifetime.token (others p apart)).symm.trans has
      exact (congrArg Lifetime.user (others p apart)).trans (plain p has)
  obtain ⟨orderly, kept⟩ := Kempt.step ⟨books.orderly, rfl⟩ r creates
  refine ⟨balanced, orderly, fun token held => ?_⟩
  obtain ⟨named, below, plain⟩ := books.kernel token (kept ▸ held)
  refine ⟨named, below.trans_le frontier, fun i has => ?_⟩
  rcases move.record books.balanced i with gone | eq | fresh
  · exact absurd (has.symm.trans gone) named
  · exact eq.user.trans (plain i (eq.token.symm.trans has))
  · exact absurd (has.symm.trans fresh) below.ne

theorem after_accounts (requests : List Request) : (after requests).Accounts :=
  run_invariant step Accounts (fun _ r books => step_accounts books r)
    initial_accounts requests

/-- No process belongs to a scope that is gone or owns one. -/
theorem scopes_present (requests : List Request) :
    let l := (after requests).ledger
    (∀ slot, l.tokens slot ≠ 0 → ∃ i, (l.lifetimes i).token = l.tokens slot) ∧
      ∀ slot, l.owned slot ≠ 0 →
        ∃ i, (l.lifetimes i).token = l.owned slot ∧ (l.lifetimes i).owner = some slot :=
  have books := (after_accounts requests).balanced
  ⟨books.live, books.owned⟩

theorem after_append (requests later : List Request) :
    after (requests ++ later) = (run step (after requests) later).2 :=
  run_append step {} requests later

def record (s : Scopes) (token : Nat) : Option Lifetime := (s.lifetimeFind token).map s.lifetimes

def memberSlots (s : Scopes) (token : Nat) : Nat :=
  Table.total (fun slot => if slot.token = token then 1 else 0) s.slots

/-- A request brings a slot into a scope. -/
def Admits (s : Scopes) (request : Request) (slot : SlotId) (token : Nat) : Prop :=
  (s.slots slot).token ≠ token ∧ token ≠ 0 ∧ ((s.step request).2.slots slot).token = token

theorem record_eq_some (books : s.Accounts) :
    s.record token = some life ↔
      token ≠ 0 ∧ ∃ i, s.lifetimes i = life ∧ life.token = token := by
  unfold record
  constructor
  · intro hit
    obtain ⟨i, p, rfl⟩ := map_eq_some_iff.mp hit
    obtain ⟨named, has⟩ := lifetimeFind_some p
    exact ⟨named, i, rfl, has⟩
  rintro ⟨named, i, rfl, has⟩
  rw [lifetimeFind_eq books.balanced named has]
  rfl

theorem record_eq_none (named : token ≠ 0) :
    s.record token = none ↔ ∀ i, (s.lifetimes i).token ≠ token := by
  unfold record
  rw [map_eq_none_iff]
  constructor
  · exact fun missing => lifetimeFind_none missing named
  intro missing
  by_contra hit
  obtain ⟨i, hit⟩ := ne_none_iff_exists'.mp hit
  exact missing i (lifetimeFind_some hit).2

/-- The token was issued, and if its scope still exists then its record has some
property. -/
def Bound (holds : Lifetime → Prop) (token : Nat) (s : Scopes) : Prop :=
  s.Accounts ∧ token ≠ 0 ∧ token < s.ledger.frontier ∧
    ∀ index, (s.lifetimes index).token = token → holds (s.lifetimes index)

section Bound

variable {p : Lifetime → Prop}
  (stable : ∀ life life' : Lifetime, life.Continues life' → p life → p life') {token : Nat}

include stable

theorem Bound.step (bound : Bound p token s) (r : Request) : Bound p token (s.step r).2 := by
  obtain ⟨books, named, below, kept⟩ := bound
  have move := step_move books r
  refine ⟨step_accounts books r, named,
    below.trans_le (move.frontier_le books.balanced), fun i has => ?_⟩
  rcases move.record books.balanced i with gone | eq | fresh
  · exact absurd (has.symm.trans gone) named
  · exact stable _ _ eq (kept i (eq.token.symm.trans has))
  · exact absurd (has.symm.trans fresh) below.ne

theorem Bound.run (bound : Bound p token s) (later : List Request) :
    Bound p token (Lib.run Scopes.step s later).2 :=
  run_invariant Scopes.step (Bound p token) (fun _ r bound => bound.step stable r)
    bound later

end Bound

/-- In every state of every run, `members` is the number of slots that belong to the scope and one
more for a pending reservation. Nobody is admitted to a revoked scope except its root, through that
reservation. A record disappears only when nothing belongs to it, and its token is not issued again.
-/
theorem scopes_account (requests : List Request) :
    (∀ token life, (after requests).record token = some life →
      life.members = (after requests).memberSlots token + life.reservation.toNat) ∧
    (∀ request slot token, (after requests).Admits request slot token →
      ∃ life, (after requests).record token = some life ∧
        (life.revoked = true →
          (∃ parent detached, request = .allocate parent detached token) ∧
          life.reservation = true ∧
          ∀ later request' slot', ¬(after (requests ++ request :: later)).Admits request' slot'
            token)) ∧
    (∀ request token life, (after requests).record token = some life →
      ((after requests).step request).2.record token = none →
      ((after requests).step request).2.memberSlots token = 0 ∧
      ((life.revoked = true ∧ life.members = 0 ∧
          (life.user = false ∨
            ∃ owner, life.owner = some owner ∧ request = .scopeControl .release owner token)) ∨
        (life.user = true ∧ life.owner = none ∧ life.revoked = true) ∨
        ∃ owner, life.owner = some owner ∧ request.detaches = some owner) ∧
      ∀ later, (after (requests ++ request :: later)).record token = none) := by
  have books := after_accounts requests
  generalize now : after requests = s at *
  have continued (request : Request) (later : List Request) :
      after (requests ++ request :: later) = (Lib.run step (s.step request).2 later).2 := by
    rw [after_append, now]
    rfl
  refine ⟨fun token life found => ?_, fun request slot token admits => ?_,
    fun request token life found missing => ?_⟩
  · obtain ⟨named, index, rfl, has⟩ := (record_eq_some books).mp found
    have counted := books.balanced.counted index (has.symm ▸ named)
    rw [show (s.ledger.lifetimes index).token = token from has] at counted
    exact counted
  · obtain ⟨outside, named, inside⟩ := admits
    have move := step_move books request
    have books' := step_accounts books request
    obtain ⟨index, has, kept, root⟩ := move.admission books.balanced outside named inside
    refine ⟨s.lifetimes index, (record_eq_some books).mpr ⟨named, index, rfl, has⟩,
      fun revoked => ?_⟩
    obtain ⟨asked, pending, rooted⟩ := root revoked
    refine ⟨asked, pending, fun later request' slot' again => ?_⟩
    have shut : Bound Lifetime.Rooted token (s.step request).2 := by
      have below := books.balanced.issued index
      rw [show (s.ledger.lifetimes index).token = token from has] at below
      refine ⟨books', named, below.trans_le (move.frontier_le books.balanced),
        fun place found => ?_⟩
      exact books'.balanced.distinct place index (found ▸ named) (found.trans kept.symm) ▸ rooted
    rw [continued] at again
    obtain ⟨books'', -, -, closed⟩ := shut.run (fun _ _ same => same.rooted) later
    obtain ⟨outside', -, inside'⟩ := again
    obtain ⟨place, found, -, late⟩ :=
      (step_move books'' request').admission books''.balanced outside' named inside'
    obtain ⟨revoked', -, taken⟩ := closed place found
    exact absurd (late revoked').2.1 (by
      have taken : ((run step (s.step request).2 later).2.ledger.lifetimes place).reservation =
          false := taken
      simp [taken])
  obtain ⟨named, index, rfl, has⟩ := (record_eq_some books).mp found
  have move := step_move books request
  have books' := step_accounts books request
  have nowhere := (record_eq_none named).mp missing
  have live := has.symm ▸ named
  have gone := has.symm ▸ nowhere index
  refine ⟨?_, ?_, fun later => ?_⟩
  · refine (@membersOf_eq_zero (s.step request).2.ledger.tokens _).mpr fun slot member => ?_
    obtain ⟨place, found'⟩ := books'.balanced.live slot (member ▸ named)
    exact nowhere place (found'.trans member)
  · have how := move.disappearance books.balanced live gone
    rw [show (s.ledger.lifetimes index).token = token from has] at how
    exact how
  have below := books.balanced.issued index
  rw [show (s.ledger.lifetimes index).token = token from has] at below
  have unused : Bound (fun _ => False) token (s.step request).2 :=
    ⟨books', named, below.trans_le (move.frontier_le books.balanced), nowhere⟩
  rw [continued]
  exact (record_eq_none named).mpr (unused.run (fun _ _ _ => id) later).2.2.2

/-- A reserved root is admitted although its scope has been revoked in between. -/
example :
    (Lib.run step {} [.allocate none true 0, .publish 0, .start 0, .scopeCreate 0,
      .scopeReserve 0 1, .scopeControl .revoke 0 1, .allocate (some 0) true 1,
      .allocate (some 0) true 1]).1 =
    [.slot 0, .done, .done, .token 1, .done, .done, .slot 1, .refused] := by
  decide

end Scopes

end SrvrOS.Scope
