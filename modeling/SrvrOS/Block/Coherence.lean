import SrvrOS.Block.Cache

/-!
# Coherence of the block cache

Every valid entry holds the bytes its driver's medium holds at that block, and no
block has two valid entries. Each operation of the transfer path keeps this
invariant, whatever the drivers do.
-/

namespace SrvrOS.Block

open Lib List Option BlockState CacheEntry

variable {ι : Type} {ds : Disks ι} {cache : List (CacheEntry ι)} {slot index : Nat}
  {d : ι} {before after s : BlockState ι}

/-- What an entry serves while it is valid: a block of a device and its bytes. -/
def CacheEntry.line (entry : CacheEntry ι) : Option (ι × Nat × List UInt8) :=
  if entry.valid then entry.device.map (·, entry.blockIndex, entry.data) else none

def served (cache : List (CacheEntry ι)) (slot : Nat) : Option (ι × Nat × List UInt8) :=
  cache[slot]?.bind line

/-- A slot holds a block of a device. -/
def Held (cache : List (CacheEntry ι)) (slot : Nat) (device : ι) (blockIndex : Nat) : Prop :=
  ∃ data, served cache slot = some (device, blockIndex, data)

def mediumBlock (disks : Disks ι) (media : ι → Store UInt8) (device : ι) (blockIndex : Nat) :
    List UInt8 :=
  (media device).read (blockIndex * (disks.disk device).blockSize) (disks.disk device).blockSize

/-- The invariant of the cache against the media. -/
structure Coherent (disks : Disks ι) (state : BlockState ι) : Prop where
  /-- A slot serves its block as it is on the medium. -/
  fresh : ∀ slot device blockIndex data,
    served state.cache slot = some (device, blockIndex, data) →
      cacheSupported (disks.disk device) = true ∧
        data = mediumBlock disks state.media device blockIndex
  /-- A block is held at most once. -/
  unique : ∀ i j device blockIndex, Held state.cache i device blockIndex →
    Held state.cache j device blockIndex → i = j
  /-- The table never shrinks to nothing. -/
  nonempty : state.cache ≠ []

theorem BlockState.initial_coherent {offline : ι → Bool} {media : ι → Store UInt8}
    {faults : Nat → DriverFault} : Coherent ds (initial offline media faults) := by
  have nothing (slot : Nat) :
      served (initial offline media faults).cache slot = none := by
    rw [served, initial, getElem?_replicate]
    split <;> rfl
  refine ⟨?_, ?_, ?_⟩
  · intro slot d index data hit
    rw [nothing] at hit
    contradiction
  · rintro i j d index ⟨data, hit⟩
    rw [nothing] at hit
    contradiction
  · simp [initial, blockCacheEntries]

/-- Whatever a slot of `after` serves it served before; time stamps may differ. -/
structure Retains (before after : List (CacheEntry ι)) : Prop where
  length_eq : after.length = before.length
  kept : ∀ slot line, served after slot = some line → served before slot = some line

namespace Retains

variable {cache : List (CacheEntry ι)}

theorem refl : Retains cache cache := ⟨rfl, fun _ _ hit => hit⟩

theorem trans {first second third : List (CacheEntry ι)}
    (left : Retains first second) (right : Retains second third) : Retains first third :=
  ⟨right.length_eq.trans left.length_eq, fun slot line hit =>
    left.kept slot line (right.kept slot line hit)⟩

theorem map_clear {drop : CacheEntry ι → Bool} :
    Retains cache
      (cache.map fun e => if drop e then { e with valid := false } else e) := by
  refine ⟨length_map _, fun slot line hit => ?_⟩
  rw [served] at hit
  rw [served]
  cases p : cache[slot]? with
  | none => simp [p] at hit
  | some e =>
    by_cases dropped : drop e <;> simp [p, dropped, CacheEntry.line] at hit ⊢
    exact hit

theorem modify {change : CacheEntry ι → CacheEntry ι}
    (weaker : ∀ e line, (change e).line = some line → e.line = some line) :
    Retains cache (cache.modify slot change) := by
  refine ⟨length_modify .., fun p line hit => ?_⟩
  rw [served, getElem?_modify] at hit
  rw [served]
  cases here : cache[p]? with
  | none => simp [here] at hit
  | some e =>
    by_cases eq : slot = p <;> simp [here, eq] at hit ⊢
    · exact weaker e line hit
    · exact hit

end Retains

/-- Coherence survives a step that brings no new block into a slot, if what the slots serve
is again what the medium holds. -/
theorem Coherent.refresh (coherent : Coherent ds before)
    (length_eq : after.cache.length = before.cache.length) (kept : ∀ slot d index data,
      served after.cache slot = some (d, index, data) →
        Held before.cache slot d index ∧
          data = mediumBlock ds after.media d index) : Coherent ds after := by
  refine ⟨?_, ?_, ?_⟩
  · intro slot d index data hit
    obtain ⟨⟨old, held⟩, fresh⟩ := kept slot d index data hit
    exact ⟨(coherent.fresh slot d index old held).1, fresh⟩
  · rintro i j d index ⟨left, atLeft⟩ ⟨right, atRight⟩
    exact coherent.unique i j d index (kept i d index left atLeft).1
      (kept j d index right atRight).1
  intro empty
  rw [empty] at length_eq
  exact coherent.nonempty (length_eq_zero_iff.mp length_eq.symm)

theorem Coherent.retains (coherent : Coherent ds before)
    (retains : Retains before.cache after.cache) (media : after.media = before.media) :
    Coherent ds after := by
  refine coherent.refresh retains.length_eq fun slot d index data hit => ?_
  have old := retains.kept slot _ hit
  rw [media]
  exact ⟨⟨data, old⟩, (coherent.fresh slot d index data old).2⟩

theorem Coherent.held_data (coherent : Coherent ds s) (held : Held s.cache slot d index) :
    (s.cache[slot]?.map data).getD [] =
      mediumBlock ds s.media d index := by
  obtain ⟨data, hit⟩ := held
  rw [← (coherent.fresh slot d index data hit).2]
  obtain ⟨e, p, isLine⟩ := bind_eq_some_iff.mp hit
  rw [line] at isLine
  split at isLine
  · obtain ⟨_, -, eq⟩ := map_eq_some_iff.mp isLine
    cases eq
    rw [p]
    rfl
  · contradiction

/-! ## Table operations -/

section Table

variable [DecidableEq ι]

theorem cacheLookup_held (hit : cacheLookup cache d index = some slot) :
    Held cache slot d index := by
  obtain ⟨inside, test, _⟩ := findIdx?_eq_some_iff_getElem.mp hit
  simp only [Bool.and_eq_true, decide_eq_true_eq] at test
  exact ⟨cache[slot].data, by simp [served, inside, line, test]⟩

theorem cacheLookup_none (missing : cacheLookup cache d index = none) {slot : Nat} :
    ¬ Held cache slot d index := by
  rintro ⟨data, hit⟩
  obtain ⟨e, p, isLine⟩ := bind_eq_some_iff.mp hit
  have absent := findIdx?_eq_none_iff.mp missing e (mem_of_getElem? p)
  simp only [line, ite_none_right_eq_some, map_eq_some_iff] at isLine
  obtain ⟨valid, name, isName, eq⟩ := isLine
  cases eq
  simp [valid, isName] at absent

end Table

theorem pickVictimFrom_lt {bound : Nat} {best : Nat × Nat} (bestLt : best.1 < bound)
    (rest : slot + cache.length ≤ bound) : pickVictimFrom cache slot best < bound := by
  induction cache generalizing slot best with
  | nil => exact bestLt
  | cons e tail ih =>
    simp only [length_cons] at rest
    simp only [pickVictimFrom]
    split
    · omega
    split
    · have slotLt : slot < bound := by omega
      exact ih slotLt (by omega)
    · exact ih bestLt (by omega)

theorem cachePickVictim_lt (nonempty : cache ≠ []) : cachePickVictim cache < cache.length := by
  apply pickVictimFrom_lt
  · exact length_pos_iff.mpr nonempty
  · omega

theorem batchBytes_le (disk : Disk ι) (remaining : Nat) :
    batchBytes disk remaining ≤ remaining := by
  simp only [batchBytes]
  omega

theorem batchBytes_dvd (disk : Disk ι) (remaining : Nat) :
    disk.blockSize ∣ batchBytes disk remaining :=
  Nat.dvd_sub_mod _

/-- Filing the medium's own block in a slot keeps coherence, as long as no other slot
holds that block. -/
theorem Coherent.fileEntry (coherent : Coherent ds s)
    {data : List UInt8} (supported : cacheSupported (ds.disk d) = true)
    (data_eq : data = mediumBlock ds s.media d index)
    (alone : ∀ other, Held s.cache other d index → other = slot) :
    Coherent ds (fileEntry slot d index data s).2 := by
  have atNew {k : Nat} {line : ι × Nat × List UInt8}
      (hit : served (Block.fileEntry slot d index data s).2.cache k = some line) :
      (k = slot ∧ line = (d, index, data)) ∨
        (k ≠ slot ∧ served s.cache k = some line) := by
    simp only [served, Block.fileEntry, Prog.exec, getElem?_set] at hit
    split at hit
    · next eq =>
      split at hit
      · exact .inl ⟨eq.symm, (some.inj hit).symm⟩
      · contradiction
    · next other => exact .inr ⟨fun eq => other eq.symm, hit⟩
  refine ⟨?_, ?_, ?_⟩
  · intro k name block bytes hit
    rcases atNew hit with ⟨_, eq⟩ | ⟨_, old⟩
    · cases eq
      exact ⟨supported, data_eq⟩
    · exact coherent.fresh k name block bytes old
  · rintro i j name block ⟨left, atLeft⟩ ⟨right, atRight⟩
    rcases atNew atLeft with ⟨iSlot, eq⟩ | ⟨iNe, oldLeft⟩ <;>
      rcases atNew atRight with ⟨jSlot, eq'⟩ | ⟨jNe, oldRight⟩
    · exact iSlot.trans jSlot.symm
    · cases eq
      exact (jNe (alone j ⟨right, oldRight⟩)).elim
    · cases eq'
      exact (iNe (alone i ⟨left, oldLeft⟩)).elim
    · exact coherent.unique i j name block ⟨left, oldLeft⟩ ⟨right, oldRight⟩
  · simpa [Block.fileEntry] using coherent.nonempty

end SrvrOS.Block
