import SrvrOS.Process.Scope

/-!
# The ledger of the scopes

The scopes depend on two columns of the process table: to which token a slot belongs, and which
token its process owns. `Move` lists what a request can do to these columns and to the records.
-/

namespace SrvrOS.Scope

open Lib Function Nat Word Table Lifetime

structure Ledger where
  /-- The token each slot belongs to. -/
  tokens : SlotId → Nat
  /-- The token each slot's process owns. -/
  owned : SlotId → Nat
  lifetimes : SlotId → Lifetime
  next : Nat

def Scopes.ledger (s : Scopes) : Ledger where
  tokens slot := (s.slots slot).token
  owned slot := (s.slots slot).ownedUserScope
  lifetimes := s.lifetimes
  next := s.nextLifetime

def membersOf (tokens : SlotId → Nat) (token : Nat) : Nat :=
  total (fun held => if held = token then 1 else 0) tokens

section Members

variable {tokens : SlotId → Nat} {s : SlotId} {joined t : Nat}

theorem membersOf_update_other (before : tokens s ≠ t) (after : joined ≠ t) :
    membersOf (update tokens s joined) t = membersOf tokens t :=
  total_update_same (by simp [before, after])

theorem membersOf_join (before : tokens s ≠ joined) :
    membersOf (update tokens s joined) joined = membersOf tokens joined + 1 := by
  have moved := total_update (fun held => if held = joined then 1 else 0) tokens s joined
  simpa [membersOf, before] using moved

theorem membersOf_part (apart : joined ≠ tokens s) :
    membersOf (update tokens s joined) (tokens s) + 1 = membersOf tokens (tokens s) := by
  have moved := total_update (fun held => if held = tokens s then 1 else 0) tokens s
    joined
  simpa [membersOf, apart] using moved

theorem membersOf_eq_zero : membersOf tokens t = 0 ↔ ∀ s, tokens s ≠ t := by
  simp [membersOf, total_eq_zero]

theorem membersOf_le : membersOf tokens t ≤ maxProcesses := by
  have single (held : Nat) : (if held = t then 1 else 0) ≤ 1 := by split <;> omega
  simpa [membersOf] using total_le single tokens

end Members

/-! ## Balanced books -/

/-- A record names its owner, and only a scope with an owner has a pending reservation. -/
structure Lifetime.Sound (owned : SlotId → Nat) (life : Lifetime) : Prop where
  reservation : life.reservation = true →
    life.user = true ∧ life.rootReserved = true ∧ life.owner ≠ none
  owner : ∀ slot, life.owner = some slot →
    life.user = true ∧ life.token ≠ 0 ∧ owned slot = life.token
  orphan : life.user = true → life.owner = none → life.revoked = true

namespace Ledger

/-- The least token that was never issued; all are used up when the counter has wrapped. -/
def frontier (l : Ledger) : Nat := if l.next = 0 then 2 ^ 64 else l.next

structure Balanced (l : Ledger) : Prop where
  bounded : l.next < 2 ^ 64
  issued : ∀ index, (l.lifetimes index).token < l.frontier
  distinct : ∀ index other, (l.lifetimes index).token ≠ 0 →
    (l.lifetimes index).token = (l.lifetimes other).token → index = other
  live : ∀ slot, l.tokens slot ≠ 0 → ∃ index, (l.lifetimes index).token = l.tokens slot
  counted : ∀ index, (l.lifetimes index).token ≠ 0 →
    (l.lifetimes index).members =
      membersOf l.tokens (l.lifetimes index).token + (l.lifetimes index).reservation.toNat
  sound : ∀ index, (l.lifetimes index).Sound l.owned
  owned : ∀ slot, l.owned slot ≠ 0 →
    ∃ index, (l.lifetimes index).token = l.owned slot ∧ (l.lifetimes index).owner = some slot

namespace Balanced

variable {l : Ledger} {i : SlotId} {life : Lifetime} {tokens owned : SlotId → Nat}

section

variable (books : l.Balanced)

include books

theorem members_small (live : (l.lifetimes i).token ≠ 0) :
    (l.lifetimes i).members + 1 < 2 ^ 64 := by
  have counted := books.counted i live
  have slots : membersOf l.tokens (l.lifetimes i).token ≤ 64 := membersOf_le
  have pending := (l.lifetimes i).reservation.toNat_le
  omega

theorem owner_eq {s : SlotId} (live : (l.lifetimes i).token ≠ 0)
    (owns : l.owned s = (l.lifetimes i).token) : (l.lifetimes i).owner = some s := by
  obtain ⟨p, hit, holds⟩ := books.owned s (owns ▸ live)
  exact books.distinct i p live (owns.symm.trans hit.symm) ▸ holds

/-- One record is replaced; what belongs to the other records stays theirs. -/
theorem revised {next : Nat} (bounded : next < 2 ^ 64)
    (wider : l.frontier ≤ frontier ⟨tokens, owned, update l.lifetimes i life, next⟩)
    (issued : life.token < frontier ⟨tokens, owned, update l.lifetimes i life, next⟩)
    (alone : life.token ≠ 0 → ∀ p, p ≠ i → (l.lifetimes p).token ≠ life.token)
    (live : ∀ s, tokens s ≠ 0 → tokens s ≠ life.token →
      tokens s = l.tokens s ∧ l.tokens s ≠ (l.lifetimes i).token)
    (others : ∀ p, p ≠ i → (l.lifetimes p).token ≠ 0 →
      membersOf tokens (l.lifetimes p).token = membersOf l.tokens (l.lifetimes p).token)
    (counted : life.token ≠ 0 → life.members = membersOf tokens life.token + life.reservation.toNat)
    (sound : life.Sound owned)
    (kept : ∀ p s, p ≠ i → (l.lifetimes p).owner = some s →
      owned s = l.owned s)
    (owner : ∀ s, owned s ≠ 0 → owned s = life.token → life.owner = some s)
    (foreign : ∀ s, owned s ≠ 0 → owned s ≠ life.token →
      owned s = l.owned s ∧ l.owned s ≠ (l.lifetimes i).token) :
    Balanced ⟨tokens, owned, update l.lifetimes i life, next⟩ := by
  have old {p : SlotId} (apart : p ≠ i) :
      update l.lifetimes i life p = l.lifetimes p :=
    update_of_ne apart _ _
  refine ⟨bounded, ?_, fun p j named equal => ?_, fun s named => ?_, ?_, ?_,
    fun s named => ?_⟩
  · exact (forall_update_iff _ fun _ (life : Lifetime) => life.token < _).mpr
      ⟨issued, fun p _ => (books.issued p).trans_le wider⟩
  · dsimp only at named equal
    by_cases ours : p = i <;> by_cases ours' : j = i
    · exact ours.trans ours'.symm
    · rw [ours, update_self] at named equal
      exact absurd (old ours' ▸ equal.symm) (alone named j ours')
    · rw [ours', update_self] at equal
      exact absurd (old ours ▸ equal) (alone (equal ▸ named) p ours)
    · rw [old ours] at named equal
      exact books.distinct p j named (old ours' ▸ equal)
  · dsimp only at named ⊢
    by_cases ours : tokens s = life.token
    · exact ⟨i, by rw [update_self, ours]⟩
    obtain ⟨eq, theirs⟩ := live s named ours
    obtain ⟨p, hit⟩ := books.live s (eq ▸ named)
    have apart : p ≠ i := by
      rintro rfl
      exact theirs hit.symm
    exact ⟨p, by rw [old apart, hit, eq]⟩
  · refine (forall_update_iff _ fun _ (life : Lifetime) => life.token ≠ 0 →
      life.members = membersOf tokens life.token + life.reservation.toNat).mpr
      ⟨counted, fun p apart named => ?_⟩
    rw [others p apart named]
    exact books.counted p named
  · refine (forall_update_iff _ fun _ (life : Lifetime) => life.Sound owned).mpr
      ⟨sound, fun p apart => { books.sound p with owner := fun s owns => ?_ }⟩
    obtain ⟨user, named, has⟩ := (books.sound p).owner s owns
    exact ⟨user, named, (kept p s apart owns).trans has⟩
  dsimp only at named ⊢
  by_cases ours : owned s = life.token
  · exact ⟨i, by rw [update_self]; exact ⟨ours.symm, owner s named ours⟩⟩
  obtain ⟨eq, theirs⟩ := foreign s named ours
  obtain ⟨p, hit, owns⟩ := books.owned s (eq ▸ named)
  have apart : p ≠ i := by
    rintro rfl
    exact theirs hit.symm
  exact ⟨p, by rw [old apart]; exact ⟨hit.trans eq.symm, owns⟩⟩

theorem kept_others
    (kept : ∀ s, owned s = l.owned s ∨ (l.owned s = (l.lifetimes i).token ∧ owned s = 0))
    (p s : SlotId) (apart : p ≠ i) (owns : (l.lifetimes p).owner = some s) :
    owned s = l.owned s := by
  obtain ⟨-, named, has⟩ := (books.sound p).owner s owns
  exact (kept s).resolve_right fun ours =>
    apart (books.distinct p i named (has.symm.trans ours.1))

/-- A record may change while it accounts for the slots that came or went and for its owner. -/
theorem amended (live : (l.lifetimes i).token ≠ 0) (eq : life.token = (l.lifetimes i).token)
    (belongs : ∀ s, tokens s = l.tokens s ∨ tokens s = 0 ∨ tokens s = life.token)
    (others : ∀ t, t ≠ 0 → t ≠ life.token → membersOf tokens t = membersOf l.tokens t)
    (counted : life.members = membersOf tokens life.token + life.reservation.toNat)
    (sound : life.Sound owned)
    (kept : ∀ s, owned s = l.owned s ∨ (l.owned s = life.token ∧ owned s = 0))
    (owner : ∀ s, owned s = life.token → life.owner = some s) :
    Balanced { l with
      tokens := tokens, owned := owned, lifetimes := update l.lifetimes i life } := by
  have alone (p : SlotId) (apart : p ≠ i) : (l.lifetimes p).token ≠ life.token :=
    fun equal => apart (books.distinct i p live (eq.symm.trans equal.symm)).symm
  refine books.revised books.bounded le_rfl (eq ▸ books.issued i) (fun _ => alone)
    (fun s named foreign => ?_) (fun p apart named => others _ named (alone p apart))
    (fun _ => counted) sound (books.kept_others (eq ▸ kept)) (fun s _ => owner s)
    fun s named foreign => ?_
  · have old := (belongs s).resolve_right (not_or.mpr ⟨named, foreign⟩)
    exact ⟨old, eq ▸ old ▸ foreign⟩
  · have old := (kept s).resolve_right fun gone => named gone.2
    exact ⟨old, eq ▸ old ▸ foreign⟩

theorem cleared (belongs : ∀ s, tokens s = l.tokens s ∨ tokens s = 0)
    (empty : ∀ s, tokens s ≠ (l.lifetimes i).token)
    (others : ∀ t, t ≠ 0 → t ≠ (l.lifetimes i).token → membersOf tokens t = membersOf l.tokens t)
    (kept : ∀ s, owned s = l.owned s ∨ (l.owned s = (l.lifetimes i).token ∧ owned s = 0))
    (disowned : ∀ s, owned s ≠ (l.lifetimes i).token) :
    Balanced { l with
      tokens := tokens, owned := owned, lifetimes := update l.lifetimes i {} } := by
  refine books.revised books.bounded le_rfl (zero_lt_of_lt (books.issued i))
    (fun named => absurd rfl named) (fun s named _ => ?_) (fun p apart named => ?_)
    (fun named => absurd rfl named) ⟨by simp, by simp, by simp⟩ (books.kept_others kept)
    (fun s named gone => absurd gone named) fun s named _ => ?_
  · have old := (belongs s).resolve_right named
    exact ⟨old, old ▸ empty s⟩
  · exact others _ named fun equal => apart (books.distinct p i named equal)
  · have old := (kept s).resolve_right fun gone => named gone.2
    exact ⟨old, old ▸ disowned s⟩

end

end Balanced

end Ledger

/-! ## Moves -/

def Request.detaches : Request → Option SlotId
  | .detach slot | .retireRuntime slot | .releaseDetach slot => some slot
  | _ => none

/-- What a request can do to one record while slots and owners stay. -/
inductive Lifetime.Amends (life : Lifetime) : Lifetime → Prop where
  | reserve (user : life.user = true) (owner : life.owner ≠ none) (open_ : life.revoked = false)
      (first : life.rootReserved = false) : Amends life life.reserved
  | cancel (pending : life.reservation = true) :
      Amends life ({ life with reservation := false }.memberDone 0 false)
  | revoke : Amends life { life with revoked := true }

/-- What a request can do to the ledger. -/
inductive Ledger.Move (request : Request) (l : Ledger) : Ledger → Prop where
  | quiet : Move request l l
  | issue (index : SlotId) (owner : Option SlotId) (free : (l.lifetimes index).token = 0)
      (left : l.next ≠ 0) (idle : ∀ slot, owner = some slot → l.owned slot = 0) :
      Move request l { l with
        owned := fun slot => if owner = some slot then l.next else l.owned slot
        lifetimes := update l.lifetimes index
          { token := l.next, user := owner.isSome, owner := owner }
        next := wrap 64 (l.next + 1) }
  | amend (index : SlotId) (life : Lifetime) (live : (l.lifetimes index).token ≠ 0)
      (change : (l.lifetimes index).Amends life) :
      Move request l { l with lifetimes := update l.lifetimes index life }
  | withdraw (index : SlotId) (live : (l.lifetimes index).token ≠ 0)
      (revoked : (l.lifetimes index).revoked = true) (empty : (l.lifetimes index).members = 0)
      (by_ : ((l.lifetimes index).user = false ∧
          request = .lifetimeRelease (l.lifetimes index).token) ∨
        ∃ slot, (l.lifetimes index).owner = some slot ∧
          request = .scopeControl .release slot (l.lifetimes index).token) :
      Move request l { l with
        owned := fun slot =>
          if (l.lifetimes index).owner = some slot then 0 else l.owned slot
        lifetimes := update l.lifetimes index {} }
  | detach (index slot : SlotId) (owner : (l.lifetimes index).owner = some slot)
      (by_ : request.detaches = some slot) :
      Move request l { l with
        owned := update l.owned slot 0
        lifetimes := update l.lifetimes index (l.lifetimes index).detached }
  | enroll (index slot : SlotId) (parent : Option SlotId) (detached : Bool) (rootToken : Nat)
      (by_ : request = .allocate parent detached rootToken) (free : l.tokens slot = 0)
      (live : (l.lifetimes index).token ≠ 0)
      (root : rootToken ≠ 0 → rootToken = (l.lifetimes index).token)
      (invited : (l.lifetimes index).revoked = true →
        rootToken ≠ 0 ∧ (l.lifetimes index).reservation = true)
      (single : rootToken ≠ 0 → (l.lifetimes index).rootReserved = true →
        (l.lifetimes index).reservation = true) :
      Move request l { l with
        tokens := update l.tokens slot (l.lifetimes index).token
        lifetimes := update l.lifetimes index
          ((l.lifetimes index).admitted (rootToken != 0)) }
  | leave (index slot : SlotId) (status : Nat) (retired : Bool)
      (live : (l.lifetimes index).token ≠ 0) (member : l.tokens slot = (l.lifetimes index).token) :
      Move request l { l with
        tokens := update l.tokens slot 0
        lifetimes := update l.lifetimes index
          ((l.lifetimes index).memberDone status retired) }

/-! ## The records under moves -/

namespace Lifetime

variable {life : Lifetime}

theorem joined_eq (small : life.members + 1 < 2 ^ 64) :
    life.joined = { life with members := life.members + 1 } := by
  rw [joined, wrap_of_lt small]

theorem parted_eq (pos : 0 < life.members) (small : life.members < 2 ^ 64) :
    life.parted = { life with members := life.members - 1 } := by
  rw [parted, sub_of_le pos small]

theorem reserved_eq (small : life.members + 1 < 2 ^ 64) :
    life.reserved = { life with
      rootReserved := true, reservation := true
      members := life.members + 1, peak := life.members + 1 } := by
  simp [reserved, joined, wrap_of_lt small]

/-- An owner that detaches leaves the members other than its reservation, or no record. -/
theorem detached_cases (small : life.members < 2 ^ 64)
    (counted : life.reservation.toNat ≤ life.members) :
    (life.members = life.reservation.toNat ∧ life.detached = {}) ∨
    (life.detached = { life with
      revoked := true, owner := none, reservation := false
      members := life.members - life.reservation.toNat }) := by
  obtain ⟨t, members, peak, revoked, rootReserved, user, reservation, owner, exits, first⟩ := life
  cases reservation with
  | false =>
    rcases Nat.eq_zero_or_pos members with rfl | pos
    · exact .inl ⟨rfl, rfl⟩
    refine .inr ?_
    simp [detached, pos_iff_ne_zero.mp pos]
  | true =>
    have pos : 0 < members := counted
    have shrunk := sub_of_le pos small
    simp only [detached, parted, shrunk]
    rcases Nat.eq_or_lt_of_le pos with rfl | more
    · exact .inl ⟨rfl, rfl⟩
    refine .inr ?_
    have remain : members - 1 ≠ 0 := by omega
    simp [remain]

/-- A member that is done leaves the record, or the last one of an orphaned scope clears
it. -/
theorem memberDone_cases (status : Nat) (retired : Bool) (small : life.members < 2 ^ 64) :
    (life.user = true ∧ life.owner = none ∧ life.revoked = true ∧ life.members ≤ 1 ∧
      life.memberDone status retired = {}) ∨
    ∃ exits first, life.memberDone status retired =
      { life with
        members := life.members - 1, nonzeroExits := exits, firstExitStatus := first } := by
  obtain ⟨exits, first, noted⟩ : ∃ exits first, life.noted status retired =
      { life with nonzeroExits := exits, firstExitStatus := first } := by
    unfold noted
    split
    · exact ⟨_, _, rfl⟩
    · exact ⟨_, _, rfl⟩
  have parted : (if (life.noted status retired).members ≠ 0 then (life.noted status retired).parted
      else life.noted status retired) =
      { life with
        members := life.members - 1, nonzeroExits := exits, firstExitStatus := first } := by
    rw [noted]
    split
    next pos => exact parted_eq (pos_of_ne_zero pos) small
    next none_ =>
      have gone : life.members = 0 := by simpa using none_
      simp [gone]
  unfold memberDone
  simp only [parted]
  split
  next last => exact .inl ⟨last.1, last.2.1, last.2.2.1, Nat.sub_eq_zero_iff_le.mp last.2.2.2, rfl⟩
  · exact .inr ⟨exits, first, rfl⟩

theorem admitted_eq (root : Bool) (small : life.members + 1 < 2 ^ 64) :
    ∃ peak, life.admitted root = { life with
      members := life.members + (!(root && life.reservation)).toNat
      reservation := life.reservation && !root
      rootReserved := life.rootReserved || root
      peak := peak } := by
  unfold admitted
  rw [joined_eq small]
  obtain ⟨t, members, peak, revoked, rootReserved, user, reservation, owner, exits, first⟩ := life
  cases root <;> cases reservation <;> simp

end Lifetime

namespace Ledger

variable {l l' : Ledger} {request : Request} {i : SlotId}

theorem frontier_issue (bounded : l.next < 2 ^ 64)
    {tokens owned : SlotId → Nat} {lifetimes : SlotId → Lifetime} :
    frontier ⟨tokens, owned, lifetimes, wrap 64 (l.next + 1)⟩ = l.next + 1 := by
  rcases Nat.lt_or_eq_of_le bounded with small | full
  · rw [frontier, wrap_of_lt small, if_neg (succ_ne_zero _)]
  have wrapped : wrap 64 (l.next + 1) = 0 := by simp [wrap, show l.next + 1 = 2 ^ 64 from full]
  rw [frontier, if_pos wrapped]
  exact full.symm

theorem Balanced.issue (books : l.Balanced) {owner : Option SlotId}
    (free : (l.lifetimes i).token = 0) (left : l.next ≠ 0)
    (idle : ∀ s, owner = some s → l.owned s = 0) :
    Balanced { l with
      owned := fun s => if owner = some s then l.next else l.owned s
      lifetimes := update l.lifetimes i
        { token := l.next, user := owner.isSome, owner := owner }
      next := wrap 64 (l.next + 1) } := by
  have fresh (p : SlotId) : (l.lifetimes p).token < l.next := by
    simpa only [frontier, if_neg left] using books.issued p
  have unused (s : SlotId) : l.tokens s < l.next := by
    rcases Nat.eq_zero_or_pos (l.tokens s) with none_ | pos
    · omega
    obtain ⟨p, hit⟩ := books.live s (pos_iff_ne_zero.mp pos)
    exact hit ▸ fresh p
  refine books.revised (Nat.mod_lt _ (Nat.two_pow_pos 64)) ?_ ?_ (fun _ p _ => (fresh p).ne)
    (fun s named _ => ⟨rfl, free ▸ named⟩) (fun _ _ _ => rfl) (fun _ => ?_)
    ⟨by simp, fun s owns => ?_, fun user orphan => ?_⟩ (fun p s _ owns => ?_)
    (fun s named ours => ?_) fun s named foreign => ?_
  · rw [frontier_issue books.bounded, frontier, if_neg left]
    exact le_add_right l.next 1
  · rw [frontier_issue books.bounded]
    exact Nat.lt_add_one l.next
  · rw [Bool.toNat_false, add_zero]
    exact (membersOf_eq_zero.mpr fun s => (unused s).ne).symm
  · subst owns
    exact ⟨rfl, left, if_pos rfl⟩
  · have orphan : owner = none := orphan
    simp [orphan] at user
  · obtain ⟨-, named, has⟩ := (books.sound p).owner s owns
    exact if_neg fun ours => named (has.symm.trans (idle s ours))
  · split at ours
    next owns => exact owns
    next =>
      obtain ⟨p, hit, -⟩ := books.owned s (ours ▸ left)
      exact absurd (hit.trans ours) (fresh p).ne
  split at foreign
  · exact absurd rfl foreign
  next j =>
    rw [if_neg j] at named ⊢
    exact ⟨rfl, free ▸ named⟩

theorem Balanced.amends (books : l.Balanced) {life : Lifetime}
    (live : (l.lifetimes i).token ≠ 0) (change : (l.lifetimes i).Amends life) :
    Balanced { l with lifetimes := update l.lifetimes i life } := by
  have counted := books.counted i live
  have small := books.members_small live
  have sound := books.sound i
  have unchanged (eq : life.token = (l.lifetimes i).token)
      (counted : life.members = membersOf l.tokens life.token + life.reservation.toNat)
      (sound : life.Sound l.owned) (owner : life.owner = (l.lifetimes i).owner) :
      Balanced { l with lifetimes := update l.lifetimes i life } :=
    books.amended live eq (fun _ => .inl rfl) (fun _ _ _ => rfl) counted sound
      (fun _ => .inl rfl) fun s owns => owner.trans (books.owner_eq live (owns.trans eq))
  cases change with
  | reserve user owner open_ first =>
    have idle : (l.lifetimes i).reservation = false := by
      by_contra pending
      exact absurd (sound.reservation (by simpa using pending)).2.1 (by simp [first])
    rw [reserved_eq small] at unchanged ⊢
    refine unchanged rfl ?_ ⟨fun _ => ⟨user, rfl, owner⟩, sound.owner, sound.orphan⟩ rfl
    simpa [idle] using counted
  | cancel pending =>
    obtain ⟨user, reserved, owner⟩ := sound.reservation pending
    obtain ⟨-, orphan, -⟩ | ⟨exits, first, shrunk⟩ :=
      { l.lifetimes i with reservation := false }.memberDone_cases 0 false (by simp only; omega)
    · exact absurd orphan owner
    rw [shrunk] at unchanged ⊢
    refine unchanged rfl ?_ ⟨by simp, sound.owner, sound.orphan⟩ rfl
    simp only [pending] at counted
    simp [counted]
  | revoke => exact unchanged rfl counted ⟨sound.reservation, sound.owner, fun _ _ => rfl⟩ rfl

theorem Move.balanced (move : Move request l l') (books : l.Balanced) : l'.Balanced := by
  cases move with
  | quiet => exact books
  | issue i owner free left idle => exact books.issue free left idle
  | amend i life live change => exact books.amends live change
  | withdraw i live revoked empty by_ =>
    have counted := books.counted i live
    refine books.cleared (fun _ => .inl rfl) ?_ (fun _ _ _ => rfl) (fun s => ?_) fun s => ?_
    · exact membersOf_eq_zero.mp (by omega)
    · split
      next owns => exact .inr ⟨((books.sound i).owner s owns).2.2, rfl⟩
      · exact .inl rfl
    split
    · exact live.symm
    next j => exact fun has => j (books.owner_eq live has)
  | detach i s owner by_ =>
    obtain ⟨user, live, has⟩ := (books.sound i).owner s owner
    have counted := books.counted i live
    have small := books.members_small live
    have kept (p : SlotId) : update l.owned s 0 p = l.owned p ∨
        (l.owned p = (l.lifetimes i).token ∧ update l.owned s 0 p = 0) := by
      rcases eq_or_ne p s with rfl | apart
      · exact .inr ⟨has, update_self ..⟩
      · exact .inl (update_of_ne apart ..)
    have disowned (p : SlotId) : update l.owned s 0 p ≠ (l.lifetimes i).token := by
      rcases eq_or_ne p s with rfl | apart
      · simpa using live.symm
      intro owns
      rw [update_of_ne apart] at owns
      exact apart (Option.some.inj ((books.owner_eq live owns).symm.trans owner))
    obtain ⟨empty, gone⟩ | shrunk := (l.lifetimes i).detached_cases (by omega) (by omega)
    · rw [gone]
      exact books.cleared (fun _ => .inl rfl) (membersOf_eq_zero.mp (by omega))
        (fun _ _ _ => rfl) kept disowned
    refine books.amended live (by rw [shrunk]) (fun _ => .inl rfl) (fun _ _ _ => rfl) ?_ ?_ ?_ ?_
    · rw [shrunk]
      simp only [Bool.toNat_false]
      omega
    · rw [shrunk]
      exact ⟨by simp, by simp, by simp⟩
    · rw [shrunk]
      exact kept
    · rw [shrunk]
      exact fun p owns => absurd owns (disowned p)
  | enroll i s parent detached rootToken _ free live root invited single =>
    have counted := books.counted i live
    have small := books.members_small live
    have sound := books.sound i
    obtain ⟨peak, entered⟩ := (l.lifetimes i).admitted_eq (rootToken != 0) small
    have apart := free ▸ live.symm
    refine books.amended live (by rw [entered]) (fun p => ?_) (fun t named j => ?_)
      ?_ ?_ (fun _ => .inl rfl) ?_
    · rcases eq_or_ne p s with rfl | j
      · exact .inr (.inr (by rw [update_self, entered]))
      · exact .inl (update_of_ne j ..)
    · rw [entered] at j
      exact membersOf_update_other (free ▸ named.symm) (Ne.symm j)
    · rw [entered]
      rw [membersOf_join apart, counted]
      cases (l.lifetimes i).reservation <;> cases (rootToken != 0) <;> simp
    · rw [entered]
      refine ⟨fun pending => ?_, sound.owner, sound.orphan⟩
      simp only [Bool.and_eq_true, Bool.not_eq_true'] at pending
      obtain ⟨user, reserved, owner⟩ := sound.reservation pending.1
      exact ⟨user, by simp [reserved], owner⟩
    · rw [entered]
      exact fun p owns => books.owner_eq live owns
  | leave i s status retired live member =>
    have counted := books.counted i live
    have small := books.members_small live
    have sound := books.sound i
    have parted := @membersOf_part l.tokens s 0 (member ▸ live.symm)
    rw [member] at parted
    have belongs (p : SlotId) : update l.tokens s 0 p = l.tokens p ∨
        update l.tokens s 0 p = 0 := by
      rcases eq_or_ne p s with rfl | j
      · exact .inr (update_self ..)
      · exact .inl (update_of_ne j ..)
    have others (t : Nat) (named : t ≠ 0) (j : t ≠ (l.lifetimes i).token) :
        membersOf (update l.tokens s 0) t = membersOf l.tokens t :=
      membersOf_update_other (member ▸ Ne.symm j) named.symm
    obtain ⟨user, orphan, revoked, last, gone⟩ | ⟨exits, first, shrunk⟩ :=
      (l.lifetimes i).memberDone_cases status retired (by omega)
    · rw [gone]
      refine books.cleared belongs ?_ others (fun _ => .inl rfl) fun p owns => ?_
      · exact membersOf_eq_zero.mp (by omega)
      · exact absurd (books.owner_eq live owns) (by simp [orphan])
    rw [shrunk]
    refine books.amended live rfl (fun p => (belongs p).imp_right .inl) others ?_
      ⟨sound.reservation, sound.owner, sound.orphan⟩ (fun _ => .inl rfl)
      fun p owns => books.owner_eq live owns
    simp only
    omega

end Ledger

end SrvrOS.Scope
