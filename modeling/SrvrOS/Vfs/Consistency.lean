import SrvrOS.Vfs.Table

/-!
# The node table stays consistent

The packed array lists the used slots in increasing order, and used nodes have distinct paths and
distinct nonzero inode numbers. Every edit of the table is one of five: a changed node, an occupied
slot, a retired slot, a swept prefix, a new block.
-/

namespace SrvrOS.Vfs

open Lib Function List Nat Table Packed
open Exfat (Metadata NodeType Path word64 vfsMaxNodes vfsNodeBlock)

variable {δ : Type} {t new : Table δ} {s inode : Nat} {p : Path} {node : Node δ}

def Table.live (t : Table δ) : List Nat := t.liveSlots.read 0 t.nodeCount

def Table.Used (t : Table δ) (slot : Nat) : Prop := (t.slots slot).used = true

theorem setSlot_self (t : Table δ) (s : Nat) (node : Node δ) :
    (t.setSlot s node).slots s = node := update_self _ _ _

def Table.pathAt (t : Table δ) (slot : Nat) : Path := (t.slots slot).path

def Table.inodeAt (t : Table δ) (slot : Nat) : Nat := (t.slots slot).metadata.inode

/-- Enumeration, slots and identities of the table agree. -/
structure Consistent (t : Table δ) : Prop where
  increasing : t.live.Pairwise (· < ·)
  live_iff : ∀ slot, slot ∈ t.live ↔ t.Used slot
  inside : ∀ slot, t.Used slot → slot < t.nodeCapacity
  paths : ∀ i j, t.Used i → t.Used j → t.pathAt i = t.pathAt j → i = j
  inodes : ∀ i j, t.Used i → t.Used j → t.inodeAt i = t.inodeAt j → i = j
  nonzero : ∀ i, t.Used i → t.inodeAt i ≠ 0
  nextInode_lt : t.nextInode < word64
  capacity_le : t.nodeCapacity ≤ vfsMaxNodes
  blocks : vfsNodeBlock ∣ t.nodeCapacity

theorem consistent_boot : Consistent (boot δ) where
  increasing := List.Pairwise.nil
  live_iff := fun s => by simp [live, boot, Table.Used, Store.read, Node.zero]
  inside := fun _ used => by simp [Table.Used, boot, Node.zero] at used
  paths := fun _ _ used => by simp [Table.Used, boot, Node.zero] at used
  inodes := fun _ _ used => by simp [Table.Used, boot, Node.zero] at used
  nonzero := fun _ used => by simp [Table.Used, boot, Node.zero] at used
  nextInode_lt := (by decide : 1 < word64)
  capacity_le := (by decide : vfsNodeBlock ≤ vfsMaxNodes)
  blocks := dvd_refl _

theorem nodeCount_le (consistent : Consistent t) : t.nodeCount ≤ t.nodeCapacity := by
  have distinct := consistent.increasing.imp ne_of_lt
  have covered : t.live.toFinset ⊆ Finset.range t.nodeCapacity := by
    intro s mem
    rw [mem_toFinset, consistent.live_iff] at mem
    exact Finset.mem_range.mpr (consistent.inside s mem)
  have few := Finset.card_le_card covered
  rw [toFinset_card_of_nodup distinct] at few
  simpa [live] using few

/-! ## Finding slots -/

theorem find?_range_spec {bound : Nat} {test : Nat → Bool}
    (hit : (range bound).find? test = some s) : s < bound ∧ test s = true :=
  ⟨mem_range.mp (mem_of_find?_eq_some hit), find?_some hit⟩

theorem mutableLookup_some (hit : mutableLookup t p = some s) : t.Used s ∧ t.pathAt s = p := by
  have test := (find?_range_spec hit).2
  simpa [Table.Used, pathAt] using test

theorem mutableLookup_none (consistent : Consistent t) (absent : mutableLookup t p = none)
    (used : t.Used s) : t.pathAt s ≠ p := by
  have test := find?_eq_none.mp absent s (mem_range.mpr (consistent.inside s used))
  intro eq
  simp only [Table.Used, pathAt] at used eq
  simp [used, eq] at test

theorem mutableLookup_pathAt (consistent : Consistent t) (used : t.Used s) :
    mutableLookup t (t.pathAt s) = some s := by
  cases hit : mutableLookup t (t.pathAt s) with
  | none => exact absurd rfl (mutableLookup_none consistent hit used)
  | some other =>
    obtain ⟨usedOther, samePath⟩ := mutableLookup_some hit
    rw [consistent.paths other s usedOther used samePath]

theorem firstUnused_some (hit : firstUnused t = some s) : s < t.nodeCapacity ∧ ¬t.Used s := by
  obtain ⟨inside, test⟩ := find?_range_spec hit
  exact ⟨inside, by simpa [Table.Used] using test⟩

/-! ## Inode numbers -/

/-- No used node other than the one in slot `self` has this inode number. -/
def Unclaimed (t : Table δ) (inode : Nat) (self : Option Nat) : Prop :=
  ∀ slot, t.Used slot → some slot ≠ self → t.inodeAt slot ≠ inode

theorem unclaimed_of_not_inodeInUse (consistent : Consistent t) {self : Option Nat}
    (unused : inodeInUse t inode self = false) : Unclaimed t inode self := by
  intro s used other eq
  simp only [inodeInUse, any_eq_false, mem_range] at unused
  have test := unused s (consistent.inside s used)
  simp only [Table.Used, inodeAt] at used eq
  simp [used, other, eq] at test

/-- An inode number that `allocate_inode` passes over. -/
def Refused (t : Table δ) (inode : Nat) : Prop := inode = 0 ∨ inodeInUse t inode none = true

theorem freeInode_refused {fuel : Nat} (small : inode < word64)
    (bad : Refused t (freeInode t fuel inode)) : ∀ k < fuel, Refused t ((inode + k) % word64) := by
  induction fuel generalizing inode with
  | zero => intro k impossible; omega
  | succ fuel ih =>
    unfold freeInode at bad
    split at bad
    · rename_i here
      have later := ih (mod_lt _ (by decide)) bad
      intro k below
      cases k with
      | zero =>
        rw [add_zero, mod_eq_of_lt small]
        exact here
      | succ k =>
        have next := later k (by omega)
        rwa [mod_add_mod, show inode + 1 + k = inode + (k + 1) by omega] at next
    · rename_i here
      exact absurd bad here

theorem refused_mem (bad : Refused t inode) :
    inode ∈ insert 0 ((Finset.range t.nodeCapacity).image t.inodeAt) := by
  rw [Finset.mem_insert, Finset.mem_image]
  refine bad.imp id fun inUse => ?_
  simp only [inodeInUse, any_eq_true, mem_range, Bool.and_eq_true, decide_eq_true_eq,
    beq_iff_eq] at inUse
  obtain ⟨s, inside, -, eq⟩ := inUse
  exact ⟨s, Finset.mem_range.mpr inside, eq⟩

section

variable (consistent : Consistent t)

include consistent

/-- The loop of `allocate_inode` finds a number: there are more candidates than refused
ones. -/
theorem freeInode_accepted : ¬Refused t (freeInode t (t.nodeCapacity + 2) t.nextInode) := by
  intro bad
  have all := freeInode_refused consistent.nextInode_lt bad
  let c := fun k => (t.nextInode + k) % word64
  have covered : (Finset.range (t.nodeCapacity + 2)).image c ⊆
      insert 0 ((Finset.range t.nodeCapacity).image t.inodeAt) := by
    intro inode mem
    obtain ⟨k, below, rfl⟩ := Finset.mem_image.mp mem
    exact refused_mem (all k (Finset.mem_range.mp below))
  have distinct : Set.InjOn c (Finset.range (t.nodeCapacity + 2)) := by
    intro i iBelow j jBelow eq
    have bound : t.nodeCapacity + 2 ≤ word64 :=
      (Nat.add_le_add_right consistent.capacity_le 2).trans (by decide)
    simp only [Finset.coe_range, Set.mem_Iio] at iBelow jBelow
    have residues : i % word64 = j % word64 := ModEq.add_left_cancel' t.nextInode eq
    rwa [mod_eq_of_lt (by omega), mod_eq_of_lt (by omega)] at residues
  have many := Finset.card_le_card covered
  rw [Finset.card_image_of_injOn distinct, Finset.card_range] at many
  have few : (insert 0 ((Finset.range t.nodeCapacity).image t.inodeAt)).card ≤
      t.nodeCapacity + 1 := by
    refine (Finset.card_insert_le _ _).trans (Nat.add_le_add_right ?_ 1)
    exact Finset.card_image_le.trans (Finset.card_range _).le
  omega

/-- What a source of inode numbers gives: a fresh number and a table that differs in the
counter only. -/
structure Fresh (t : Table δ) (owner : Option Nat) (inode : Nat) (after : Table δ) : Prop where
  nonzero : inode ≠ 0
  unclaimed : Unclaimed t inode owner
  same : ∃ next < word64, after = { t with nextInode := next }

theorem allocateInode_fresh {self : Option Nat} :
    Fresh t self (allocateInode t).1 (allocateInode t).2 := by
  have accepted := freeInode_accepted consistent
  rw [Refused, not_or, Bool.not_eq_true] at accepted
  refine ⟨accepted.1, fun s used _ => ?_, _, mod_lt _ (by decide), rfl⟩
  exact unclaimed_of_not_inodeInUse consistent accepted.2 s used (by simp)

theorem importMetadata_fresh (metadata : Metadata) (self : Option Nat) :
    Fresh t self (importMetadata metadata self t).1.inode (importMetadata metadata self t).2 := by
  have bump : ∀ {inode : Nat} {new : Table δ}, Fresh t self inode new →
      Fresh t self inode
        (if new.nextInode ≤ inode then { new with nextInode := (inode + 1) % word64 }
          else new) := by
    intro inode new fresh
    obtain ⟨next, small, rfl⟩ := fresh.same
    split
    · exact ⟨fresh.nonzero, fresh.unclaimed, _, mod_lt _ (by decide), rfl⟩
    · exact fresh
  unfold importMetadata
  split
  · exact bump (allocateInode_fresh consistent)
  rename_i valid
  rw [not_or, Bool.not_eq_true] at valid
  exact bump ⟨valid.1, unclaimed_of_not_inodeInUse consistent valid.2, t.nextInode,
    consistent.nextInode_lt, rfl⟩

theorem newMetadata_fresh (env : Env) (p : Path) (type : NodeType) (metadata : Option Metadata) :
    Fresh t none (newMetadata env p type metadata t).1.inode
      (newMetadata env p type metadata t).2 := by
  cases metadata with
  | some metadata => exact importMetadata_fresh consistent metadata none
  | none => exact allocateInode_fresh consistent

end

/-! ## Edits -/

/-- A key that tells the members of a set apart still does so when one slot gets a key of
its own. -/
theorem distinct_insert {κ : Type} {key key' : Nat → κ} {members members' : Nat → Prop}
    (distinct : ∀ i j, members i → members j → key i = key j → i = j)
    (covered : ∀ i, members' i → i ≠ s → members i) (elsewhere : ∀ i, i ≠ s → key' i = key i)
    (own : ∀ i, members i → i ≠ s → key i ≠ key' s) :
    ∀ i j, members' i → members' j → key' i = key' j → i = j := by
  intro i j memberI memberJ eq
  by_cases isI : i = s <;> by_cases isJ : j = s
  · rw [isI, isJ]
  · rw [isI, elsewhere j isJ] at eq
    exact absurd eq.symm (own j (covered j memberJ isJ) isJ)
  · rw [isJ, elsewhere i isI] at eq
    exact absurd eq (own i (covered i memberI isI) isI)
  · rw [elsewhere i isI, elsewhere j isJ] at eq
    exact distinct i j (covered i memberI isI) (covered j memberJ isJ) eq

section

variable (consistent : Consistent t)

include consistent

/-- Storing a node with a path and an inode number of its own keeps identities apart. -/
theorem Consistent.identities (elsewhere : ∀ other, other ≠ s → new.slots other = t.slots other)
    (p : ∀ other, t.Used other → other ≠ s → t.pathAt other ≠ new.pathAt s)
    (nonzero : new.inodeAt s ≠ 0) (inode : Unclaimed t (new.inodeAt s) (some s)) :
    (∀ i j, new.Used i → new.Used j → new.pathAt i = new.pathAt j → i = j) ∧
      (∀ i j, new.Used i → new.Used j → new.inodeAt i = new.inodeAt j → i = j) ∧
      ∀ i, new.Used i → new.inodeAt i ≠ 0 := by
  have covered : ∀ other, new.Used other → other ≠ s → t.Used other := by
    intro other used away
    rwa [Table.Used, elsewhere other away] at used
  refine ⟨distinct_insert consistent.paths covered ?_ p,
    distinct_insert consistent.inodes covered ?_ ?_, ?_⟩
  · intro other away
    rw [pathAt, pathAt, elsewhere other away]
  · intro other away
    rw [inodeAt, inodeAt, elsewhere other away]
  · intro other used away
    exact inode other used (by simpa using away)
  intro other used
  by_cases eq : other = s
  · rw [eq]
    exact nonzero
  · rw [inodeAt, elsewhere other eq]
    exact consistent.nonzero other (covered other used eq)

theorem Consistent.setNode (used : t.Used s) (stays : node.used = true)
    (p : ∀ other, t.Used other → other ≠ s → t.pathAt other ≠ node.path)
    (nonzero : node.metadata.inode ≠ 0) (inode : Unclaimed t node.metadata.inode (some s)) :
    Consistent (t.setSlot s node) := by
  have here := setSlot_self t s node
  have elsewhere : ∀ other, other ≠ s → (t.setSlot s node).slots other = t.slots other :=
    fun other away => update_of_ne away _ _
  have sameUse : ∀ other, (t.setSlot s node).Used other ↔ t.Used other := by
    intro other
    by_cases eq : other = s
    · rw [eq]
      simp [Table.Used, here, stays, used.symm]
    · simp [Table.Used, elsewhere other eq]
  obtain ⟨paths, inodes, nonzeros⟩ := consistent.identities elsewhere
    (by rwa [pathAt, here]) (by rwa [inodeAt, here]) (by rwa [inodeAt, here])
  exact { consistent with
    live_iff := fun other => (consistent.live_iff other).trans (sameUse other).symm
    inside := fun other mem => consistent.inside other ((sameUse other).mp mem)
    paths := paths, inodes := inodes, nonzero := nonzeros }

theorem Consistent.withNextInode {next : Nat} (small : next < word64) :
    Consistent { t with nextInode := next } :=
  { consistent with nextInode_lt := small }

theorem Consistent.occupy (inside : s < t.nodeCapacity) (unused : ¬t.Used s)
    (occupies : node.used = true) (p : ∀ other, t.Used other → t.pathAt other ≠ node.path)
    (nonzero : node.metadata.inode ≠ 0) (inode : Unclaimed t node.metadata.inode none) :
    Consistent (publishSlot s (t.setSlot s node)) := by
  let new := publishSlot s (t.setSlot s node)
  have here : new.slots s = node := update_self _ _ _
  have elsewhere : ∀ other, other ≠ s → new.slots other = t.slots other :=
    fun other away => update_of_ne away _ _
  have use : ∀ other, new.Used other ↔ other = s ∨ t.Used other := by
    intro other
    by_cases eq : other = s
    · simp [Table.Used, eq, here, occupies]
    · simp [Table.Used, eq, elsewhere other eq]
  have notLive : s ∉ t.live := fun mem => unused ((consistent.live_iff s).mp mem)
  obtain ⟨paths, inodes, nonzeros⟩ := consistent.identities elsewhere
    (by rw [pathAt, here]; exact fun other used _ => p other used)
    (by rwa [inodeAt, here])
    (by rw [inodeAt, here]; exact fun other used _ => inode other used (by simp))
  refine { consistent with
    increasing := pairwise_read_insert consistent.increasing notLive
    live_iff := fun other => ?_
    inside := fun other used => ?_
    paths := paths, inodes := inodes, nonzero := nonzeros }
  · rw [use, ← consistent.live_iff]
    exact mem_read_insert
  rcases (use other).mp used with rfl | old
  · exact inside
  · exact consistent.inside other old

theorem Consistent.persist (fewer : new.live.Sublist t.live)
    (live_iff : ∀ s, s ∈ new.live ↔ new.Used s) (used : ∀ s, new.Used s → t.Used s)
    (p : ∀ s, t.Used s → new.pathAt s = t.pathAt s)
    (inode : ∀ s, t.Used s → new.inodeAt s = t.inodeAt s) (nextInode : new.nextInode = t.nextInode)
    (wider : t.nodeCapacity ≤ new.nodeCapacity) (room : new.nodeCapacity ≤ vfsMaxNodes)
    (bs : vfsNodeBlock ∣ new.nodeCapacity) :
    Consistent new where
  increasing := consistent.increasing.sublist fewer
  live_iff := live_iff
  inside := fun s mem => (consistent.inside s (used s mem)).trans_le wider
  paths := fun i j usedI usedJ eq => consistent.paths i j (used i usedI) (used j usedJ)
    (by rw [← p i (used i usedI), ← p j (used j usedJ), eq])
  inodes := fun i j usedI usedJ eq => consistent.inodes i j (used i usedI) (used j usedJ)
    (by rw [← inode i (used i usedI), ← inode j (used j usedJ), eq])
  nonzero := fun i usedI => inode i (used i usedI) ▸ consistent.nonzero i (used i usedI)
  nextInode_lt := nextInode ▸ consistent.nextInode_lt
  capacity_le := room
  blocks := bs

end

variable {t : Table δ} {b : Path}

theorem clearUsed_spec {s : Nat} :
    let new := t.setSlot s { t.slots s with used := false }
    (∀ other, new.Used other ↔ t.Used other ∧ other ≠ s) ∧
      (∀ other, new.pathAt other = t.pathAt other) ∧
      ∀ other, new.inodeAt other = t.inodeAt other := by
  intro new
  have slots : ∀ other, new.slots other =
      if other = s then { t.slots s with used := false } else t.slots other :=
    fun other => update_apply _ _ _ _
  refine ⟨fun other => ?_, fun other => ?_, fun other => ?_⟩ <;>
    by_cases eq : other = s <;>
    simp [Table.Used, pathAt, inodeAt, slots, eq]

theorem removeSlot_consistent (consistent : Consistent t) : Consistent (removeSlot s t) := by
  unfold removeSlot
  split
  · exact consistent
  rename_i i hit
  obtain ⟨inside, test⟩ := find?_range_spec hit
  have e : t.liveSlots i = s := by simpa using test
  have small : t.nodeCount < 2 ^ 64 :=
    ((nodeCount_le consistent).trans consistent.capacity_le).trans_lt (by decide)
  have shrunk : Word.sub 64 t.nodeCount 1 = t.nodeCount - 1 := Word.sub_of_le (by omega) small
  obtain ⟨used, p, inode⟩ := clearUsed_spec
  have view : (removeAt i t.nodeCount t.liveSlots).read 0 (t.nodeCount - 1) =
      t.live.eraseIdx i := read_removeAt inside
  have distinct : t.live.Nodup := consistent.increasing.imp ne_of_lt
  have at_place : t.live[i]? = some s := by
    rw [live, Store.read_getElem? inside, zero_add, e]
  rw [shrunk]
  refine consistent.persist ?_ ?_ (fun other mem => ((used other).mp mem).1)
    (fun other _ => p other) (fun other _ => inode other) rfl le_rfl
    consistent.capacity_le consistent.blocks
  · rw [live, view]
    exact eraseIdx_sublist _ _
  intro other
  refine Iff.trans ?_ (used other).symm
  rw [live, view, ← consistent.live_iff]
  obtain ⟨bound, value⟩ := List.getElem?_eq_some_iff.mp at_place
  rw [← List.erase_eq_eraseIdx_of_idxOf (a := s), distinct.mem_erase_iff, and_comm]
  rw [← value]
  exact distinct.idxOf_getElem i bound

/-! ## The sweep -/

theorem sweep_spec {n : Nat} :
    let keep := fun s => !pathUnderPrefix (t.pathAt s) b
    let swept := (range n).foldl (sweepStep b) (t, 0)
    (swept.1.liveSlots, swept.2) = compact keep n t.liveSlots ∧
      (∀ s, swept.1.Used s ↔ t.Used s ∧
        ¬(s ∈ t.liveSlots.read 0 n ∧ keep s = false)) ∧
      (∀ s, swept.1.pathAt s = t.pathAt s) ∧
      (∀ s, swept.1.inodeAt s = t.inodeAt s) ∧
      swept.1.nextInode = t.nextInode ∧ swept.1.nodeCapacity = t.nodeCapacity := by
  intro keep
  induction n with
  | zero => simp [compact, Store.read]
  | succ n ih =>
    intro swept
    obtain ⟨moved, used, p, inode, next, cap⟩ := ih
    have unfolded : swept = sweepStep b ((range n).foldl (sweepStep b) (t, 0)) n := by
      simp [swept, range_succ]
    generalize before : (range n).foldl (sweepStep b) (t, 0) = state at *
    have e : state.1.liveSlots n = t.liveSlots n := by
      have untouched := (compact_spec keep n t.liveSlots).2.2 n le_rfl
      rwa [← moved] at untouched
    have test : pathUnderPrefix (state.1.slots (t.liveSlots n)).path b =
        pathUnderPrefix (t.pathAt (t.liveSlots n)) b :=
      congrArg (pathUnderPrefix · b) (p _)
    rw [compact_succ, ← moved, unfolded]
    simp only [sweepStep, compactStep, e, test, read_succ, mem_append, mem_singleton]
    cases retired : pathUnderPrefix (t.pathAt (t.liveSlots n)) b with
    | true =>
      have dropped : keep (t.liveSlots n) = false := by simp [keep, retired]
      simp only [if_true, dropped]
      obtain ⟨cleared, samePath, sameInode⟩ := clearUsed_spec
      refine ⟨rfl, fun s => ?_, fun s => (samePath s).trans (p s),
        fun s => (sameInode s).trans (inode s), next, cap⟩
      rw [cleared, used]
      constructor
      · rintro ⟨⟨mem, kept⟩, away⟩
        refine ⟨mem, ?_⟩
        rintro ⟨earlier | now, gone⟩
        · exact kept ⟨earlier, gone⟩
        · exact away now
      rintro ⟨mem, kept⟩
      refine ⟨⟨mem, fun gone => kept ⟨.inl gone.1, gone.2⟩⟩, fun now => ?_⟩
      exact kept ⟨.inr now, by rw [now]; exact dropped⟩
    | false =>
      have wanted : keep (t.liveSlots n) = true := by simp [keep, retired]
      simp only [Bool.false_eq_true, if_true, if_false, wanted]
      refine ⟨trivial, fun s => ?_, p, inode, next, cap⟩
      refine (used s).trans (and_congr_right fun _ => not_congr ?_)
      constructor
      · rintro ⟨earlier, gone⟩
        exact ⟨.inl earlier, gone⟩
      rintro ⟨earlier | now, gone⟩
      · exact ⟨earlier, gone⟩
      rw [now, wanted] at gone
      cases gone

theorem vfsUnregisterPrefix_consistent (consistent : Consistent t) :
    Consistent (vfsUnregisterPrefix b t).2 := by
  obtain ⟨moved, used, p, inode, next, cap⟩ := sweep_spec
  obtain ⟨kept, -, -⟩ := compact_spec
    (fun s => !pathUnderPrefix (t.pathAt s) b) t.nodeCount t.liveSlots
  rw [← moved] at kept
  refine consistent.persist ?_ ?_ (fun s mem => ((used s).mp mem).1)
    (fun s _ => p s) (fun s _ => inode s) next cap.ge
    (cap.trans_le consistent.capacity_le) (cap.symm ▸ consistent.blocks)
  · rw [live]
    simp only [vfsUnregisterPrefix]
    rw [kept]
    exact filter_sublist
  intro s
  refine Iff.trans ?_ (used s).symm
  rw [live]
  simp only [vfsUnregisterPrefix]
  rw [kept, mem_filter, ← consistent.live_iff]
  simp only [live, Bool.not_eq_true', Bool.not_eq_false']
  constructor
  · rintro ⟨mem, outside⟩
    exact ⟨mem, fun ⟨_, under⟩ => by simp [outside] at under⟩
  · rintro ⟨mem, outside⟩
    exact ⟨mem, by simpa [mem] using outside⟩

/-! ## The calls -/

/-- More capacity and the same nodes. -/
structure Grown (t after : Table δ) : Prop where
  used_iff : ∀ slot, after.Used slot ↔ t.Used slot
  slots_eq : ∀ slot, t.Used slot → after.slots slot = t.slots slot

theorem Grown.trans {middle : Table δ} (first : Grown t middle) (second : Grown middle new) :
    Grown t new :=
  ⟨fun s => (second.used_iff s).trans (first.used_iff s), fun s used =>
    (second.slots_eq s ((first.used_iff s).mpr used)).trans (first.slots_eq s used)⟩

section

variable (consistent : Consistent t) {additional : Nat}

include consistent

theorem grow_grown : Grown t t.grow := by
  have outside : ∀ s, t.Used s →
      ¬(t.nodeCapacity ≤ s ∧ s < t.nodeCapacity + vfsNodeBlock) :=
    fun s used inBlock => absurd (consistent.inside s used) (by omega)
  refine ⟨fun s => ?_, fun s used => if_neg (outside s used)⟩
  by_cases inBlock : t.nodeCapacity ≤ s ∧ s < t.nodeCapacity + vfsNodeBlock
  · have unused : ¬t.Used s := fun used => outside s used inBlock
    simp only [Table.Used, grow, if_pos inBlock, Node.zero]
    simpa [Table.Used] using unused
  · simp [Table.Used, grow, if_neg inBlock]

theorem grow_consistent
    (room : t.nodeCapacity + vfsNodeBlock ≤ vfsMaxNodes) : Consistent t.grow := by
  have grown := grow_grown consistent
  refine consistent.persist (List.Sublist.refl _)
    (fun s => (consistent.live_iff s).trans (grown.used_iff s).symm)
    (fun s => (grown.used_iff s).mp) (fun s used => ?_) (fun s used => ?_) rfl
    (Nat.le_add_right _ _) room (Nat.dvd_add consistent.blocks (Nat.dvd_refl _))
  · rw [pathAt, grown.slots_eq s used, pathAt]
  · rw [inodeAt, grown.slots_eq s used, inodeAt]

theorem reserveLoop_consistent (budget : additional ≤ vfsMaxNodes - t.nodeCount) {bs : Nat} :
    Consistent (reserveLoop additional bs t).2 ∧ Grown t (reserveLoop additional bs t).2 := by
  have eq : Grown t t := ⟨fun _ => Iff.rfl, fun _ _ => rfl⟩
  induction bs generalizing t with
  | zero =>
    unfold reserveLoop
    split <;> exact ⟨consistent, eq⟩
  | succ bs ih =>
    unfold reserveLoop
    split
    · exact ⟨consistent, eq⟩
    have room : t.nodeCapacity + vfsNodeBlock ≤ vfsMaxNodes := by
      obtain ⟨k, cap⟩ := consistent.blocks
      simp only [vfsNodeBlock, vfsMaxNodes] at *
      omega
    obtain ⟨kept, grown⟩ := ih (grow_consistent consistent room) budget
      ⟨fun _ => Iff.rfl, fun _ _ => rfl⟩
    exact ⟨kept, (grow_grown consistent).trans grown⟩

theorem vfsReserveNodes_consistent {env : Env} :
    Consistent (vfsReserveNodes env additional t).2 ∧
      Grown t (vfsReserveNodes env additional t).2 := by
  unfold vfsReserveNodes
  split
  · exact ⟨consistent, fun _ => Iff.rfl, fun _ _ => rfl⟩
  rename_i budget
  exact reserveLoop_consistent consistent (not_lt.mp budget)

variable {env : Env}

theorem registerNew_consistent (absent : mutableLookup t p = none) {type : NodeType} {size : Nat}
    {data : Option δ} {metadata : Option Metadata} :
    Consistent (registerNew env p type size data metadata t).2 := by
  obtain ⟨reserved, grown⟩ := vfsReserveNodes_consistent consistent
  unfold registerNew
  dsimp only
  split
  · exact reserved
  split
  · exact reserved
  rename_i s hit
  obtain ⟨inside, unused⟩ := firstUnused_some hit
  have fresh := newMetadata_fresh reserved env p type metadata
  obtain ⟨next, small, new⟩ := fresh.same
  rw [new]
  refine (reserved.withNextInode small).occupy inside unused rfl ?_ fresh.nonzero fresh.unclaimed
  intro other used samePath
  have old := (grown.used_iff other).mp used
  refine mutableLookup_none consistent absent old ?_
  rw [pathAt, ← grown.slots_eq other old]
  exact samePath

theorem importInto_consistent (used : t.Used s)
    (metadata : Option Metadata) : Consistent (importInto s metadata t) := by
  cases metadata with
  | none => exact consistent
  | some metadata =>
    have fresh := importMetadata_fresh consistent metadata (some s)
    obtain ⟨next, small, new⟩ := fresh.same
    simp only [importInto]
    rw [new]
    refine (consistent.withNextInode small).setNode used used ?_ fresh.nonzero fresh.unclaimed
    intro other usedOther away samePath
    exact away (consistent.paths other s usedOther used samePath)

theorem Consistent.setFields (used : t.Used s)
    (stays : node.used = true) (p : node.path = t.pathAt s)
    (inode : node.metadata.inode = t.inodeAt s) : Consistent (t.setSlot s node) := by
  refine consistent.setNode used stays ?_ (inode ▸ consistent.nonzero s used) ?_
  · intro other usedOther away samePath
    exact away (consistent.paths other s usedOther used (samePath.trans p))
  · intro other usedOther away sameInode
    exact away (congrArg some (consistent.inodes other s usedOther used (sameInode.trans inode)))

theorem notifyMetadataChanged_consistent
    (used : t.Used s) {changed : Metadata} (inode : changed.inode = t.inodeAt s) :
    Consistent (notifyMetadataChanged env s changed t).2 := by
  unfold notifyMetadataChanged
  split
  · exact consistent.setFields used used rfl inode
  · exact consistent.setFields used used rfl rfl

theorem vfsUnregisterPath_consistent (p : Path) : Consistent (vfsUnregisterPath p t).2 := by
  unfold vfsUnregisterPath
  split
  · exact consistent
  · exact removeSlot_consistent consistent

theorem removeSlot_slots (used : t.Used s) :
    (removeSlot s t).slots = update t.slots s { t.slots s with used := false } := by
  unfold removeSlot
  split
  · rename_i absent
    have mem := (consistent.live_iff s).mpr used
    obtain ⟨i, bound, value⟩ := getElem_of_mem mem
    have inside : i < t.nodeCount := by simpa [live] using bound
    have listed := find?_eq_none.mp absent i (mem_range.mpr inside)
    have e : t.live[i]? = some (t.liveSlots i) := by
      rw [live, Store.read_getElem? inside, zero_add]
    rw [getElem?_eq_getElem bound, value, Option.some.injEq] at e
    simp [e] at listed
  · rfl

theorem vfsReplaceFilePath_consistent {oldPath newPath : Path} {cap : Nat} :
    Consistent (vfsReplaceFilePath env oldPath newPath cap t).2 := by
  unfold vfsReplaceFilePath
  split
  · rename_i source target foundSource foundTarget
    split
    · exact consistent
    rename_i distinct
    split
    · exact consistent
    have removed := vfsUnregisterPath_consistent consistent newPath
    dsimp only
    split
    · exact removed
    obtain ⟨usedSource, -⟩ := mutableLookup_some foundSource
    obtain ⟨usedTarget, pathTarget⟩ := mutableLookup_some foundTarget
    have unregistered : (vfsUnregisterPath newPath t).2 = removeSlot target t := by
      simp [vfsUnregisterPath, foundTarget]
    rw [unregistered] at removed ⊢
    have slots := removeSlot_slots consistent usedTarget
    have apart : source ≠ target := fun eq => distinct (.inl eq)
    have kept : (removeSlot target t).slots source = t.slots source := by
      rw [slots]
      exact update_of_ne apart _ _
    have stillUsed : (removeSlot target t).Used source := by
      rw [Table.Used, kept]
      exact usedSource
    refine removed.setNode stillUsed stillUsed ?_ (removed.nonzero source stillUsed) ?_
    · intro other usedOther _ samePath
      have away : other ≠ target := by
        rintro rfl
        rw [Table.Used, slots, update_self] at usedOther
        cases usedOther
      rw [Table.Used, slots, update_of_ne away] at usedOther
      rw [pathAt, slots, update_of_ne away] at samePath
      exact away (consistent.paths other target usedOther usedTarget
        (samePath.trans pathTarget.symm))
    · intro other usedOther away sameInode
      exact away (congrArg some (removed.inodes other source usedOther stillUsed sameInode))
  · exact consistent

end

theorem step_consistent (t : Table δ) (request : Env × Call δ) (consistent : Consistent t) :
    Consistent (step t request).2 := by
  obtain ⟨env, call⟩ := request
  cases call with
  | registerDirectory p metadata =>
    simp only [step, vfsRegisterDirectoryWithMetadata]
    split
    · exact importInto_consistent consistent (mutableLookup_some ‹_›).1 metadata
    · exact registerNew_consistent consistent ‹_›
  | registerFile p size data metadata =>
    simp only [step, vfsRegisterFileWithMetadata]
    split
    · exact consistent
    split
    · rename_i s hit
      have used := (mutableLookup_some hit).1
      split
      · exact consistent
      have updated : Consistent (t.setSlot s { t.slots s with size := size, data := data }) :=
        consistent.setFields used used rfl rfl
      refine importInto_consistent updated ?_ metadata
      rw [Table.Used, setSlot_self]
      exact used
    · exact registerNew_consistent consistent ‹_›
  | unregisterPath p => exact vfsUnregisterPath_consistent consistent p
  | unregisterPrefix b => exact vfsUnregisterPrefix_consistent consistent
  | setMetadata p metadata =>
    simp only [step, vfsSetMetadata]
    split
    · rename_i s metadata hit
      exact importInto_consistent consistent (mutableLookup_some hit).1 (some metadata)
    · exact consistent
  | replaceFilePath oldPath newPath cap =>
    exact vfsReplaceFilePath_consistent consistent
  | chmod p mode =>
    simp only [step, vfsChmod]
    split
    · exact consistent
    · exact notifyMetadataChanged_consistent consistent (mutableLookup_some ‹_›).1 rfl
  | utime p atime mtime =>
    simp only [step, vfsUtime]
    split
    · exact consistent
    split
    · exact consistent
    refine notifyMetadataChanged_consistent consistent (mutableLookup_some ‹_›).1 ?_
    unfold vfsMetadataUtime
    split <;> rfl
  | reserveNodes additional => exact (vfsReserveNodes_consistent consistent).1

/-- After any calls, with any times, allocation failures and callback answers, the live slots are
listed once each in increasing order, and used nodes have distinct paths and distinct nonzero inode
numbers. -/
theorem vfsTable_consistent (calls : List (Env × Call δ)) :
    let t := (run step (boot δ) calls).2
    (t.liveSlots.read 0 t.nodeCount).Pairwise (· < ·) ∧
      (∀ slot, slot ∈ t.liveSlots.read 0 t.nodeCount ↔
        slot < t.nodeCapacity ∧ (t.slots slot).used = true) ∧
      (∀ i j, (t.slots i).used = true → (t.slots j).used = true →
        (t.slots i).path = (t.slots j).path → i = j) ∧
      (∀ i j, (t.slots i).used = true → (t.slots j).used = true →
        (t.slots i).metadata.inode = (t.slots j).metadata.inode → i = j) ∧
      ∀ i, (t.slots i).used = true → (t.slots i).metadata.inode ≠ 0 := by
  intro t
  have consistent := run_invariant step Consistent step_consistent consistent_boot calls
  refine ⟨consistent.increasing, fun slot => ?_, consistent.paths, consistent.inodes,
    consistent.nonzero⟩
  exact (consistent.live_iff slot).trans
    ⟨fun used => ⟨consistent.inside slot used, used⟩, fun used => used.2⟩

end SrvrOS.Vfs
