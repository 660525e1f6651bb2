import SrvrOS.Block.Device
import SrvrOS.Lib.Run

/-!
# Exclusive claims on physical byte ranges

`kernel/src/block_claim.c`: at most forty claims, each on the byte range that its device resolves
to on a root medium. A raw claim may delegate one contained view, and a mount of that view is the
only claim admitted over it. The descriptor table is stable for the lifetime of the claims.
-/

namespace SrvrOS.Block

open Lib List Nat Bool

def blockMaxClaims : Nat := 40

/-- `struct block_claim`; the all-default value is the zeroed, free slot. -/
structure Claim (ι : Type) where
  token : Nat := 0
  offset : Nat := 0
  length : Nat := 0
  lease : Nat := 0
  root : Option ι := none
  device : Option ι := none
  allowedView : Option ι := none
  raw : Bool := false
  deriving DecidableEq, Repr

/-- The static `claims` table and `claim_serial`. -/
structure ClaimState (ι : Type) where
  claims : List (Claim ι)
  serial : Nat
  deriving DecidableEq, Repr

def ClaimState.initial (ι : Type) : ClaimState ι :=
  { claims := replicate blockMaxClaims {}, serial := 0 }

variable {ι : Type}

/-- A slot with a nonzero token holds a claim. -/
def Claim.Live (claim : Claim ι) : Prop := claim.token ≠ 0

instance (claim : Claim ι) : Decidable claim.Live :=
  inferInstanceAs (Decidable (claim.token ≠ 0))

section Operations

variable [DecidableEq ι]

def overlaps (a b : Claim ι) : Bool :=
  decide (a.root = b.root) && decide (a.offset < wrap64 (b.offset + b.length)) &&
    decide (b.offset < wrap64 (a.offset + a.length))

/-- The containment test that `acquire` makes twice. -/
def containsRange (outer inner : Claim ι) : Bool :=
  decide (outer.offset ≤ inner.offset) &&
    decide (inner.offset - outer.offset ≤ outer.length) &&
    decide (inner.length ≤ outer.length - (inner.offset - outer.offset))

/-- `describe`: the claim candidate of an online device. -/
def describe (registry : Registry ι) (device : Option ι) : Option (Claim ι) :=
  if !blockDeviceOnline registry device then none
  else
    let length := blockDeviceSize registry device
    match blockRawRange registry device 0 length with
    | none => none
    | some (root, offset) =>
      some { device := device, length := length, root := some root, offset := offset }

/-- The admission test of a raw claim with a delegated view. -/
def mayDelegate (registry : Registry ι) (claim : Claim ι) (view : Option ι) : Bool :=
  claim.raw &&
    match describe registry view with
    | none => false
    | some child => decide (child.root = claim.root) && containsRange claim child

/-- Whether a live raw claim delegates its range to the candidate. -/
def delegates (held candidate : Claim ι) : Bool :=
  !candidate.raw && held.raw && decide (held.allowedView = candidate.device) &&
    containsRange held candidate

/-- The loop of `acquire`: the last free slot and the last delegating token, or `none` when a live
claim refuses the candidate. -/
def acquireScan (candidate : Claim ι) :
    List (Claim ι) → Nat → Option Nat → Nat → Option (Option Nat × Nat)
  | [], _, slot, lease => some (slot, lease)
  | held :: rest, index, slot, lease =>
    if held.token = 0 then acquireScan candidate rest (index + 1) (some index) lease
    else if !overlaps candidate held then
      acquireScan candidate rest (index + 1) slot lease
    else if delegates held candidate then
      acquireScan candidate rest (index + 1) slot held.token
    else none

/-- `acquire`: the new token, or zero on refusal. -/
def acquire (registry : Registry ι) (state : ClaimState ι) (device : Option ι)
    (raw : Bool) (allowed : Option ι) : Nat × ClaimState ι :=
  match describe registry device with
  | none => (0, state)
  | some described =>
    let candidate := { described with raw := raw, allowedView := allowed }
    if state.serial = uint64Max then (0, state)
    else if allowed.isSome && !mayDelegate registry candidate allowed then (0, state)
    else
      match acquireScan candidate state.claims 0 none 0 with
      | some (some slot, lease) =>
        let token := state.serial + 1
        (token,
          { claims := state.claims.set slot
              { candidate with token := token, lease := lease },
            serial := token })
      | _ => (0, state)

def blockClaimMount (registry : Registry ι) (state : ClaimState ι)
    (device : Option ι) : Nat × ClaimState ι :=
  acquire registry state device false none

def blockClaimRaw (registry : Registry ι) (state : ClaimState ι)
    (device allowedView : Option ι) : Nat × ClaimState ι :=
  acquire registry state device true allowedView

end Operations

/-- `block_claim_release`: refused while a live claim holds a lease on the token. -/
def blockClaimRelease (state : ClaimState ι) (token : Nat) : Bool × ClaimState ι :=
  if token = 0 then (false, state)
  else if state.claims.any fun held => held.token != 0 && held.lease == token then
    (false, state)
  else
    match state.claims.findIdx? fun held => held.token == token with
    | none => (false, state)
    | some slot => (true, { state with claims := state.claims.set slot {} })

/-- The three entry points, as requests of a machine. -/
inductive ClaimRequest (ι : Type) where
  | mount (device : Option ι)
  | raw (device allowedView : Option ι)
  | release (token : Nat)

/-- The value an entry point returns. -/
inductive ClaimAnswer where
  | token (value : Nat)
  | released (ok : Bool)

/-- The token handed out by an answer; zero is a refusal. -/
def ClaimAnswer.issued : ClaimAnswer → Option Nat
  | .token value => if value = 0 then none else some value
  | .released _ => none

def claimStep [DecidableEq ι] (registry : Registry ι) (state : ClaimState ι) :
    ClaimRequest ι → ClaimAnswer × ClaimState ι
  | .mount device =>
    let result := blockClaimMount registry state device
    (.token result.1, result.2)
  | .raw device allowedView =>
    let result := blockClaimRaw registry state device allowedView
    (.token result.1, result.2)
  | .release token =>
    let result := blockClaimRelease state token
    (.released result.1, result.2)

/-! ## Byte ranges on the root media -/

/-- The bytes of root media that a device resolves to. -/
def rootBytes (registry : Registry ι) (device : Option ι) : Set (ι × Nat) :=
  fun byte => ∃ start,
    blockRawRange registry device 0 (blockDeviceSize registry device) =
        some (byte.1, start) ∧
      start ≤ byte.2 ∧ byte.2 < start + blockDeviceSize registry device

/-- A claim records the range its device resolves to. -/
structure Claim.Resolved (registry : Registry ι) (claim : Claim ι) : Prop where
  length_eq : claim.length = blockDeviceSize registry claim.device
  range_eq : ∃ root, claim.root = some root ∧
    blockRawRange registry claim.device 0 claim.length = some (root, claim.offset)

namespace Claim.Resolved

variable {r : Registry ι} {claim other : Claim ι}

section

variable (resolved : claim.Resolved r)

include resolved

theorem length_pos : 0 < claim.length := by
  obtain ⟨root, _, hit⟩ := resolved.range_eq
  exact (blockRawRange_bounds hit).1

theorem wrap64_end : wrap64 (claim.offset + claim.length) = claim.offset + claim.length := by
  obtain ⟨root, _, hit⟩ := resolved.range_eq
  obtain ⟨_, inside, bounded⟩ := blockRawRange_bounds hit
  exact wrap64_of_le (inside.trans bounded)

theorem mem_rootBytes (byte : ι × Nat) :
    byte ∈ rootBytes r claim.device ↔
      claim.root = some byte.1 ∧ claim.offset ≤ byte.2 ∧ byte.2 < claim.offset + claim.length := by
  obtain ⟨root, rootEq, hit⟩ := resolved.range_eq
  rw [resolved.length_eq] at hit
  constructor
  · rintro ⟨start, startEq, lower, upper⟩
    rw [hit] at startEq
    obtain ⟨rfl, rfl⟩ : root = byte.1 ∧ claim.offset = start := by simpa using startEq
    exact ⟨rootEq, lower, by rw [resolved.length_eq]; exact upper⟩
  rintro ⟨sameRoot, lower, upper⟩
  have eq : root = byte.1 := by simpa [rootEq] using sameRoot
  refine ⟨claim.offset, eq ▸ hit, lower, ?_⟩
  rw [← resolved.length_eq]
  exact upper

/-- The test of `overlaps` decides whether the two ranges share a byte. -/
theorem overlaps_iff [DecidableEq ι]
    (otherResolved : other.Resolved r) :
    overlaps claim other = true ↔
      ∃ byte, byte ∈ rootBytes r claim.device ∧ byte ∈ rootBytes r other.device := by
  have pos := resolved.length_pos
  have otherPos := otherResolved.length_pos
  simp only [overlaps, Bool.and_eq_true, decide_eq_true_eq, resolved.wrap64_end,
    otherResolved.wrap64_end, resolved.mem_rootBytes, otherResolved.mem_rootBytes]
  constructor
  · rintro ⟨⟨sameRoot, left⟩, right⟩
    obtain ⟨root, rootEq, _⟩ := resolved.range_eq
    refine ⟨(root, max claim.offset other.offset), ⟨rootEq, ?_, ?_⟩,
      ⟨sameRoot ▸ rootEq, ?_, ?_⟩⟩ <;> simp <;> omega
  · rintro ⟨byte, ⟨rootEq, _, _⟩, ⟨otherRootEq, _, _⟩⟩
    refine ⟨⟨rootEq.trans otherRootEq.symm, ?_⟩, ?_⟩ <;> omega

end

end Claim.Resolved

/-- The one shape in which two live claims may overlap. -/
structure Delegation (registry : Registry ι) (raw mount : Claim ι) : Prop where
  raw_eq : raw.raw = true
  mount_eq : mount.raw = false
  view_eq : mount.device = raw.allowedView
  subset : rootBytes registry mount.device ⊆ rootBytes registry raw.device
  lease_eq : mount.lease = raw.token

/-! ## The table invariant -/

/-- What every reachable claim table satisfies. -/
structure ClaimState.Exclusive (registry : Registry ι) (state : ClaimState ι) : Prop where
  /-- Issued tokens never exceed the serial. -/
  bounded : ∀ claim ∈ state.claims, claim.token ≤ state.serial
  /-- Live claims record the range of their device. -/
  resolved : ∀ claim ∈ state.claims, claim.Live → claim.Resolved registry
  /-- A live token names one slot. -/
  distinct : ∀ (i j : Nat) (a b : Claim ι), state.claims[i]? = some a →
    state.claims[j]? = some b → a.Live → a.token = b.token → i = j
  /-- Overlapping live claims are a raw claim and its delegated mount. -/
  separated : ∀ (i j : Nat) (a b : Claim ι), i ≠ j → state.claims[i]? = some a →
    state.claims[j]? = some b → a.Live → b.Live →
    (∃ byte, byte ∈ rootBytes registry a.device ∧ byte ∈ rootBytes registry b.device) →
    Delegation registry a b ∨ Delegation registry b a

variable {r : Registry ι}

theorem ClaimState.initial_exclusive : (ClaimState.initial ι).Exclusive r := by
  have free : ∀ claim ∈ (ClaimState.initial ι).claims, ¬ claim.Live := by
    intro claim mem live
    obtain ⟨_, rfl⟩ := mem_replicate.mp mem
    exact live rfl
  refine ⟨?_, ?_, ?_, ?_⟩
  · intro claim mem
    obtain ⟨_, rfl⟩ := mem_replicate.mp mem
    exact zero_le _
  · intro claim mem live
    exact (free claim mem live).elim
  · intro i j a b left _ live
    exact (free a (mem_of_getElem? left) live).elim
  · intro i j a b _ left _ live
    exact (free a (mem_of_getElem? left) live).elim

section Acquire

variable [DecidableEq ι] {c : Claim ι}

theorem acquireScan_some {claims : List (Claim ι)}
    {i lease finalLease : Nat} {slot finalSlot : Option Nat}
    (scanned : acquireScan c claims i slot lease = some (finalSlot, finalLease)) :
    (∀ held ∈ claims, held.Live → overlaps c held = true →
        delegates held c = true) ∧
      ((∃ held ∈ claims, held.Live ∧ overlaps c held = true ∧ finalLease = held.token) ∨
        ((∀ held ∈ claims, held.Live → overlaps c held = false) ∧ finalLease = lease)) ∧
      (finalSlot = slot ∨
        ∃ p held, claims[p]? = some held ∧ held.token = 0 ∧
          finalSlot = some (i + p)) := by
  induction claims generalizing i slot lease with
  | nil =>
    simp only [acquireScan, Option.some.injEq, Prod.mk.injEq] at scanned
    simp [scanned.1, scanned.2]
  | cons held rest ih =>
    simp only [acquireScan] at scanned
    split at scanned
    next free =>
      obtain ⟨refused, leased, placed⟩ := ih scanned
      have notLive : ¬ held.Live := fun live => live free
      refine ⟨?_, ?_, .inr ?_⟩
      · simpa [notLive] using refused
      · simpa [notLive] using leased
      rcases placed with rfl | ⟨p, other, hit, otherFree, rfl⟩
      · exact ⟨0, held, rfl, free, rfl⟩
      · exact ⟨p + 1, other, hit, otherFree, by congr 1; omega⟩
    rename_i live
    have shift : ∀ {final : Option Nat}, (final = slot ∨
        ∃ p other, rest[p]? = some other ∧ other.token = 0 ∧
          final = some (i + 1 + p)) →
        final = slot ∨ ∃ p other, (held :: rest)[p]? = some other ∧
          other.token = 0 ∧ final = some (i + p) := by
      rintro final (rfl | ⟨p, other, hit, otherFree, rfl⟩)
      · exact .inl rfl
      · exact .inr ⟨p + 1, other, hit, otherFree, by congr 1; omega⟩
    split at scanned
    next apart =>
      obtain ⟨refused, leased, placed⟩ := ih scanned
      have separate : overlaps c held = false := by simpa using apart
      refine ⟨?_, ?_, shift placed⟩
      · simpa [separate] using refused
      · simpa [separate] using leased
    rename_i together
    have overlapping : overlaps c held = true := by simpa using together
    split at scanned
    next delegated =>
      obtain ⟨refused, leased, placed⟩ := ih scanned
      refine ⟨?_, .inl ?_, shift placed⟩
      · simpa [delegated] using refused
      rcases leased with ⟨other, mem, hit⟩ | ⟨_, rfl⟩
      · exact ⟨other, mem_cons_of_mem _ mem, hit⟩
      · exact ⟨held, mem_cons_self, live, overlapping, rfl⟩
    · contradiction

theorem describe_resolved {d : Option ι} {claim : Claim ι}
    (described : describe r d = some claim) : claim.Resolved r := by
  simp only [describe] at described
  split at described
  · contradiction
  split at described
  · contradiction
  next root offset hit =>
    cases described
    exact ⟨rfl, root, rfl, hit⟩

theorem delegates_subset {held c : Claim ι} (heldResolved : held.Resolved r)
    (candidateResolved : c.Resolved r) (overlapping : overlaps c held = true)
    (delegated : delegates held c = true) :
    rootBytes r c.device ⊆ rootBytes r held.device := by
  intro byte
  rw [candidateResolved.mem_rootBytes, heldResolved.mem_rootBytes]
  rintro ⟨sameRoot, lower, upper⟩
  simp only [overlaps, Bool.and_eq_true, decide_eq_true_eq] at overlapping
  simp only [delegates, containsRange, Bool.and_eq_true, Bool.not_eq_true',
    decide_eq_true_eq] at delegated
  refine ⟨overlapping.1.1 ▸ sameRoot, ?_, ?_⟩ <;> omega

/-- `acquire` refuses without a change, or files a resolved candidate after a completed scan. -/
theorem acquire_cases (r : Registry ι) (s : ClaimState ι)
    (d : Option ι) (raw : Bool) (allowed : Option ι) :
    acquire r s d raw allowed = (0, s) ∨
      ∃ (c free : Claim ι) (slot : Nat),
        c.Resolved r ∧ c.token = s.serial + 1 ∧
        s.claims[slot]? = some free ∧ free.token = 0 ∧
        (∀ held ∈ s.claims, held.Live → overlaps c held = true →
          delegates held c = true) ∧
        ((∃ held ∈ s.claims, held.Live ∧ overlaps c held = true ∧
            c.lease = held.token) ∨
          ∀ held ∈ s.claims, held.Live → overlaps c held = false) ∧
        acquire r s d raw allowed =
          (s.serial + 1,
            { claims := s.claims.set slot c, serial := s.serial + 1 }) := by
  rw [acquire]
  cases described : describe r d with
  | none => exact .inl rfl
  | some hit =>
    have resolved := describe_resolved described
    simp only
    split
    · exact .inl rfl
    split
    · exact .inl rfl
    cases scanned : acquireScan { hit with raw := raw, allowedView := allowed }
        s.claims 0 none 0 with
    | none => exact .inl rfl
    | some answer =>
      obtain ⟨slot, lease⟩ := answer
      obtain ⟨refused, leased, placed⟩ := acquireScan_some scanned
      cases slot with
      | none => exact .inl rfl
      | some slot =>
        rcases placed with absurdSlot | ⟨p, free, at_place, isFree, slotEq⟩
        · cases absurdSlot
        have placeEq : slot = p := by simpa using slotEq
        subst placeEq
        refine .inr ⟨{ hit with
            raw := raw, allowedView := allowed, token := s.serial + 1,
            lease := lease },
          free, slot, ⟨resolved.1, resolved.2⟩, rfl, at_place, isFree, refused, ?_, rfl⟩
        rcases leased with delegating | ⟨apart, _⟩
        · exact .inl delegating
        · exact .inr apart

variable {r : Registry ι} {s : ClaimState ι}

/-- At most one live claim can delegate to a candidate: two of them would be
overlapping raw claims. -/
theorem ClaimState.Exclusive.delegator_unique (exclusive : s.Exclusive r) (resolved : c.Resolved r)
    {i j : Nat} {a b : Claim ι} (left : s.claims[i]? = some a) (right : s.claims[j]? = some b)
    (aLive : a.Live) (bLive : b.Live) (aOverlaps : overlaps c a = true)
    (bOverlaps : overlaps c b = true) (aDelegates : delegates a c = true)
    (bDelegates : delegates b c = true) : i = j := by
  by_contra differ
  have aResolved := exclusive.resolved a (mem_of_getElem? left) aLive
  have bResolved := exclusive.resolved b (mem_of_getElem? right) bLive
  obtain ⟨byte, inCandidate, _⟩ := (resolved.overlaps_iff aResolved).mp aOverlaps
  have inA := delegates_subset aResolved resolved aOverlaps aDelegates inCandidate
  have inB := delegates_subset bResolved resolved bOverlaps bDelegates inCandidate
  simp only [delegates] at aDelegates bDelegates
  rcases exclusive.separated i j a b differ left right aLive bLive ⟨byte, inA, inB⟩ with
    shape | shape
  · simp [shape.mount_eq] at bDelegates
  · simp [shape.mount_eq] at aDelegates

theorem ClaimState.Exclusive.acquire (exclusive : s.Exclusive r)
    (d : Option ι) (raw : Bool) (allowed : Option ι) :
    (Block.acquire r s d raw allowed).2.Exclusive r := by
  rcases acquire_cases r s d raw allowed with
    refused | ⟨c, free, slot, resolved, tokenEq, atSlot, isFree, admitted, leased, result⟩
  · rw [refused]
    exact exclusive
  rw [result]
  have slotLt := (List.getElem?_eq_some_iff.mp atSlot).1
  have atNew : ∀ {k : Nat} {claim : Claim ι},
      (s.claims.set slot c)[k]? = some claim →
      (k = slot ∧ claim = c) ∨ (k ≠ slot ∧ s.claims[k]? = some claim) := by
    intro k claim hit
    by_cases eq : k = slot
    · subst eq
      rw [getElem?_set_self slotLt] at hit
      exact .inl ⟨rfl, (Option.some.inj hit).symm⟩
    · rw [getElem?_set_ne (Ne.symm eq)] at hit
      exact .inr ⟨eq, hit⟩
  have against : ∀ {j : Nat} {held : Claim ι}, s.claims[j]? = some held → held.Live →
      (∃ byte, byte ∈ rootBytes r c.device ∧ byte ∈ rootBytes r held.device) →
      Delegation r held c := by
    intro j held hit live shared
    have mem := mem_of_getElem? hit
    have heldResolved := exclusive.resolved held mem live
    have overlapping := (resolved.overlaps_iff heldResolved).mpr shared
    have delegated := admitted held mem live overlapping
    have leaseToken : c.lease = held.token := by
      rcases leased with ⟨other, otherMember, otherLive, otherOverlaps, leaseEq⟩ | apart
      · obtain ⟨k, otherFound⟩ := mem_iff_getElem?.mp otherMember
        have eq := exclusive.delegator_unique resolved otherFound hit otherLive live
          otherOverlaps overlapping (admitted other otherMember otherLive otherOverlaps)
          delegated
        subst eq
        rw [hit] at otherFound
        rw [leaseEq, Option.some.inj otherFound]
      · rw [apart held mem live] at overlapping
        contradiction
    have parts := delegated
    simp only [delegates, Bool.and_eq_true, Bool.not_eq_true', decide_eq_true_eq] at parts
    exact ⟨parts.1.1.2, parts.1.1.1, parts.1.2.symm,
      delegates_subset heldResolved resolved overlapping delegated, leaseToken⟩
  refine ⟨?_, ?_, ?_, ?_⟩
  · intro claim mem
    rcases mem_or_eq_of_mem_set mem with old | rfl
    · exact le_succ_of_le (exclusive.bounded claim old)
    · exact tokenEq.le
  · intro claim mem live
    rcases mem_or_eq_of_mem_set mem with old | rfl
    · exact exclusive.resolved claim old live
    · exact resolved
  · intro i j a b left right live eq
    rcases atNew left with ⟨rfl, rfl⟩ | ⟨_, oldLeft⟩ <;>
      rcases atNew right with ⟨rfl, rfl⟩ | ⟨_, oldRight⟩
    · rfl
    · have := exclusive.bounded b (mem_of_getElem? oldRight)
      omega
    · have := exclusive.bounded a (mem_of_getElem? oldLeft)
      omega
    · exact exclusive.distinct i j a b oldLeft oldRight live eq
  intro i j a b differ left right aLive bLive shared
  rcases atNew left with ⟨rfl, rfl⟩ | ⟨_, oldLeft⟩ <;>
    rcases atNew right with ⟨rfl, rfl⟩ | ⟨_, oldRight⟩
  · exact (differ rfl).elim
  · exact .inr (against oldRight bLive shared)
  · obtain ⟨byte, inA, inB⟩ := shared
    exact .inl (against oldLeft aLive ⟨byte, inB, inA⟩)
  · exact exclusive.separated i j a b differ oldLeft oldRight aLive bLive shared

end Acquire

/-! ## Release -/

variable {r : Registry ι} {s : ClaimState ι}

theorem blockClaimRelease_cases {s : ClaimState ι} {t : Nat} :
    blockClaimRelease s t = (false, s) ∨
      ∃ slot, (∀ held ∈ s.claims, held.Live → held.lease ≠ t) ∧
        blockClaimRelease s t =
          (true, { s with claims := s.claims.set slot {} }) := by
  rw [blockClaimRelease]
  split
  · exact .inl rfl
  split
  · exact .inl rfl
  next unleased =>
  split
  · exact .inl rfl
  rename_i slot _
  refine .inr ⟨slot, ?_, rfl⟩
  intro held mem live leased
  apply unleased
  rw [any_eq_true]
  exact ⟨held, mem, by simpa [leased, Claim.Live] using live⟩

theorem ClaimState.Exclusive.release (exclusive : s.Exclusive r)
    (t : Nat) : (blockClaimRelease s t).2.Exclusive r := by
  rcases blockClaimRelease_cases with refused | ⟨slot, _, result⟩
  · rw [refused]
    exact exclusive
  rw [result]
  have survivor : ∀ {k : Nat} {claim : Claim ι},
      (s.claims.set slot {})[k]? = some claim → claim.Live →
      s.claims[k]? = some claim := by
    intro k claim hit live
    rw [getElem?_set] at hit
    split at hit
    · split at hit
      · cases hit
        exact (live rfl).elim
      · contradiction
    · exact hit
  refine ⟨?_, ?_, ?_, ?_⟩
  · intro claim mem
    rcases mem_or_eq_of_mem_set mem with old | rfl
    · exact exclusive.bounded claim old
    · exact zero_le _
  · intro claim mem live
    obtain ⟨k, hit⟩ := mem_iff_getElem?.mp mem
    exact exclusive.resolved claim (mem_of_getElem? (survivor hit live)) live
  · intro i j a b left right live eq
    have bLive : b.Live := fun zero => live (eq.trans zero)
    exact exclusive.distinct i j a b (survivor left live) (survivor right bLive) live eq
  intro i j a b differ left right aLive bLive shared
  exact exclusive.separated i j a b differ (survivor left aLive) (survivor right bLive)
    aLive bLive shared

theorem blockClaimRelease_delegated {raw mount : Claim ι}
    (mem : mount ∈ s.claims) (live : mount.Live) (leased : mount.lease = raw.token) :
    blockClaimRelease s raw.token = (false, s) := by
  rcases blockClaimRelease_cases with refused | ⟨_, unleased, _⟩
  · exact refused
  · exact (unleased mount mem live leased).elim

/-! ## Whole runs -/

/-- The tokens a history handed out, oldest first. -/
def issuedTokens (history : List ClaimAnswer) : List Nat :=
  history.filterMap ClaimAnswer.issued

/-- The invariant of a run: an exclusive table, and tokens issued in increasing
order up to the serial. -/
structure ClaimRun [DecidableEq ι] (registry : Registry ι)
    (history : List ClaimAnswer) (state : ClaimState ι) : Prop where
  exclusive : state.Exclusive registry
  increasing : (issuedTokens history).Pairwise (· < ·)
  issued_le : ∀ token ∈ issuedTokens history, token ≤ state.serial

section Runs

variable [DecidableEq ι] {history : List ClaimAnswer}

theorem ClaimRun.acquire (cur : ClaimRun r history s) {d : Option ι}
    {raw : Bool} {allowed : Option ι} :
    ClaimRun r
      (history ++ [.token (Block.acquire r s d raw allowed).1])
      (Block.acquire r s d raw allowed).2 := by
  have exclusive := cur.exclusive.acquire d raw allowed
  rcases acquire_cases r s d raw allowed with
    refused | ⟨_, _, _, _, _, _, _, _, _, result⟩
  · rw [refused]
    exact ⟨cur.exclusive, by simpa [issuedTokens, ClaimAnswer.issued] using
      cur.increasing, by simpa [issuedTokens, ClaimAnswer.issued] using
      cur.issued_le⟩
  rw [result] at exclusive ⊢
  have tokens : issuedTokens (history ++ [.token (s.serial + 1)]) =
      issuedTokens history ++ [s.serial + 1] := by
    simp [issuedTokens, ClaimAnswer.issued]
  refine ⟨exclusive, ?_, ?_⟩ <;> rw [tokens]
  · rw [pairwise_append]
    refine ⟨cur.increasing, pairwise_singleton _ _, ?_⟩
    intro earlier mem later laterMember
    rw [mem_singleton.mp laterMember]
    exact lt_succ_of_le (cur.issued_le earlier mem)
  intro t mem
  rcases mem_append.mp mem with old | new
  · exact le_succ_of_le (cur.issued_le t old)
  · exact (mem_singleton.mp new).le

theorem ClaimRun.step (cur : ClaimRun r history s) (request : ClaimRequest ι) :
    ClaimRun r (history ++ [(claimStep r s request).1])
      (claimStep r s request).2 := by
  cases request with
  | mount d => exact cur.acquire
  | raw d allowedView => exact cur.acquire
  | release t =>
    have serialEq : (blockClaimRelease s t).2.serial = s.serial := by
      rcases blockClaimRelease_cases with refused | ⟨_, _, result⟩
      · rw [refused]
      · rw [result]
    have tokens : issuedTokens (history ++ [(claimStep r s (.release t)).1]) =
        issuedTokens history := by
      simp [claimStep, issuedTokens, ClaimAnswer.issued]
    refine ⟨cur.exclusive.release t, ?_, ?_⟩ <;> rw [tokens]
    · exact cur.increasing
    · simpa [claimStep, serialEq] using cur.issued_le

theorem claimRun_reachable {requests : List (ClaimRequest ι)} :
    ClaimRun r (run (claimStep r) (ClaimState.initial ι) requests).1
      (run (claimStep r) (ClaimState.initial ι) requests).2 := by
  apply run_history_invariant (claimStep r)
  · intro history s request cur
    exact cur.step request
  · exact ⟨ClaimState.initial_exclusive, List.Pairwise.nil, by simp [issuedTokens]⟩

end Runs

end SrvrOS.Block
