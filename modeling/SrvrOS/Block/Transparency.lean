import SrvrOS.Block.Coherence

/-!
# Transparency of the block cache

A successful read returns what the driver's medium holds, and a successful write
changes exactly the addressed bytes, after any history of transfers and driver
failures.
-/

namespace SrvrOS.Block

open Lib Function Prog List Store Option Nat Bool Retains BlockState

variable {ι : Type} [DecidableEq ι] {ds : Disks ι} {s new : BlockState ι} {d : ι}
  {absolute : Nat} {p : ι × Nat} {data : List UInt8}

/-- The media after `data` is written at `place`. -/
def mediaWrite (media : ι → Store UInt8) (place : ι × Nat) (data : List UInt8) :
    ι → Store UInt8 :=
  update media place.1 ((media place.1).write place.2 data)

/-! ## Driver calls -/

theorem blockForget_retains (d : ι) (s : BlockState ι) :
    Retains s.cache (blockForget ds d s).cache :=
  map_clear

variable (ds)

theorem invalidateWalk_retains (depth : Nat) (d : Option ι) (s : BlockState ι) :
    Retains s.cache (invalidateWalk ds depth d s).cache ∧
      (invalidateWalk ds depth d s).media = s.media := by
  induction depth generalizing d s with
  | zero => exact ⟨refl, rfl⟩
  | succ depth ih =>
    cases d with
    | none => exact ⟨refl, rfl⟩
    | some d =>
      let marked := { s with offline := update s.offline d true }
      obtain ⟨retains, media⟩ := ih (ds.disk d).backing (blockForget ds d marked)
      exact ⟨(blockForget_retains d marked).trans retains, media⟩

theorem nextFault_run (d : ι) (s : BlockState ι) :
    ∃ fault new, nextFault ds d s = (fault, new) ∧
      Retains s.cache new.cache ∧ new.media = s.media := by
  refine ⟨_, _, rfl, ?_⟩
  split
  · exact invalidateWalk_retains ds _ _ { s with calls := s.calls + 1 }
  · exact ⟨refl, rfl⟩

theorem driverRead_run (d : ι) (off len : Nat) (s : BlockState ι) :
    ∃ a new, driverRead ds d off len s = (a, new) ∧
      Retains s.cache new.cache ∧ new.media = s.media ∧
      ∀ data, a = some data → data = (s.media d).read off len := by
  obtain ⟨fault, new, run, retains, media⟩ := nextFault_run ds d s
  simp only [driverRead, exec, run]
  split
  · refine ⟨_, _, rfl, retains, media, ?_⟩
    intro data same
    rw [← some.inj same, media]
  · exact ⟨_, _, rfl, retains, media, by simp⟩

theorem driverWrite_run (d : ι) (off : Nat) (data : List UInt8) (s : BlockState ι) :
    ∃ ok new reached, driverWrite ds d off data s = (ok, new) ∧
      Retains s.cache new.cache ∧
      new.media = mediaWrite s.media (d, off) reached ∧
      reached.length ≤ data.length ∧ (ok = true → reached = data) := by
  obtain ⟨fault, new, run, retains, media⟩ := nextFault_run ds d s
  simp only [driverWrite, exec, run]
  refine ⟨_, _, _, rfl, retains, by rw [media]; rfl, ?_, ?_⟩
  · split
    · exact Nat.le_refl _
    · exact length_take_le' _ _
  · intro ok
    simp [ok]

variable {ds} {size : Nat}

/-! ## Loading and publishing blocks -/

theorem cacheGet_run (d : ι) (index : Nat) (coherent : Coherent ds s)
    (supported : cacheSupported (ds.disk d) = true) :
    ∃ a new, cacheGet ds d index s = (a, new) ∧
      Coherent ds new ∧ new.media = s.media ∧
      ∀ k, a = some k → Held new.cache k d index := by
  simp only [cacheGet, exec]
  cases lookup : cacheLookup s.cache d index with
  | some k =>
    refine ⟨_, _, rfl, coherent.retains (modify fun _ _ same => same) rfl, rfl, ?_⟩
    rintro _ ⟨rfl⟩
    obtain ⟨data, hit⟩ := cacheLookup_held lookup
    refine ⟨data, ?_⟩
    rw [← hit, served, getElem?_modify_eq, served]
    cases s.cache[k]? <;> rfl
  | none =>
    obtain ⟨a, new, run, retains, media, data_eq⟩ :=
      driverRead_run ds d
        (index * (ds.disk d).blockSize) (ds.disk d).blockSize s
    have kept := coherent.retains retains media
    simp only [exec, run]
    cases a with
    | none =>
      refine ⟨_, _, rfl, kept.retains (modify fun _ _ none => ?_) rfl, media, by simp⟩
      contradiction
    | some data =>
      have inside : cachePickVictim s.cache < new.cache.length := by
        rw [retains.length_eq]
        exact cachePickVictim_lt coherent.nonempty
      refine ⟨_, _, rfl, kept.fileEntry supported ?_ ?_, media, ?_⟩
      · rw [media]
        exact data_eq data rfl
      · rintro j ⟨b, hit⟩
        exact (cacheLookup_none lookup ⟨b, retains.kept j _ hit⟩).elim
      · rintro _ ⟨rfl⟩
        exact ⟨data, by simp [served, inside, CacheEntry.line]⟩

theorem cachePublish_run (d : ι) (sized : (ds.disk d).blockSize = size) (n first : Nat)
    (data : List UInt8) (coherent : Coherent ds s) (supported : cacheSupported (ds.disk d) = true)
    (data_eq : data = (s.media d).read (first * size) (n * size)) :
    Coherent ds (cachePublish ds d n first data s).2 ∧
      (cachePublish ds d n first data s).2.media = s.media := by
  induction n generalizing first data s with
  | zero => exact ⟨coherent, rfl⟩
  | succ n ih =>
    rw [Nat.succ_mul, Nat.add_comm, read_add] at data_eq
    simp only [cachePublish, exec, sized]
    refine ih (first + 1) (data.drop size) (coherent.fileEntry supported ?_ ?_) ?_
    · rw [data_eq, take_left' (read_length ..), mediumBlock, sized]
    · intro j held
      cases lookup : cacheLookup s.cache d first with
      | none => exact (cacheLookup_none lookup held).elim
      | some k => exact coherent.unique j k d first held (cacheLookup_held lookup)
    · rw [data_eq, drop_left' (read_length ..), succ_mul]
      rfl

/-! ## The transfer loops -/

/-- The program keeps coherence and the media, and returns the bytes at `place`. -/
def ReadsMedium (disks : Disks ι) (program : Prog (BlockState ι) (Option (List UInt8)))
    (place : ι × Nat) (length : Nat) : Prop :=
  ∀ state, Coherent disks state → ∃ answer after, program state = (answer, after) ∧
    Coherent disks after ∧ after.media = state.media ∧
    ∀ bytes, answer = some bytes → bytes = (state.media place.1).read place.2 length

/-- The program keeps coherence, and its success changes exactly `data` at `place`. -/
def WritesMedium (disks : Disks ι) (program : Prog (BlockState ι) Bool)
    (place : ι × Nat) (data : List UInt8) : Prop :=
  ∀ state, Coherent disks state → ∃ ok after, program state = (ok, after) ∧
    Coherent disks after ∧ (ok = true → after.media = mediaWrite state.media place data)

theorem mediaWrite_nil (media : ι → Store UInt8) : mediaWrite media p [] = media := by
  rw [mediaWrite, write_nil, update_eq_self]

theorem mediaWrite_append (media : ι → Store UInt8) (d : ι) (start : Nat)
    (left right : List UInt8) :
    mediaWrite (mediaWrite media (d, start) left) (d, start + left.length) right =
      mediaWrite media (d, start) (left ++ right) := by
  simp [mediaWrite, write_append]

omit [DecidableEq ι] in
theorem cacheSupported_positive {disk : Disk ι} (supported : cacheSupported disk = true) :
    0 < disk.blockSize := by
  simp only [cacheSupported, and_eq_true, decide_eq_true_eq] at supported
  exact supported.1.2

theorem uncachedBytes_bounds (cache : List (CacheEntry ι)) (d : ι)
    {index fuel blockSize batch b : Nat} (whole : blockSize ∣ b)
    (limitWhole : blockSize ∣ batch) (inside : b ≤ batch) :
    blockSize ∣ uncachedBytes cache d index blockSize batch fuel b ∧
      b ≤ uncachedBytes cache d index blockSize batch fuel b ∧
      uncachedBytes cache d index blockSize batch fuel b ≤ batch := by
  induction fuel generalizing b with
  | zero => exact ⟨whole, Nat.le_refl _, inside⟩
  | succ fuel ih =>
    simp only [uncachedBytes]
    split
    next more =>
      have next : b + blockSize ≤ batch := by
        obtain ⟨n, rfl⟩ := whole
        obtain ⟨limit, rfl⟩ := limitWhole
        exact Nat.mul_le_mul_left _ (Nat.lt_of_mul_lt_mul_left more.1)
      obtain ⟨divides, lower, upper⟩ := ih (Nat.dvd_add whole (Nat.dvd_refl _)) next
      exact ⟨divides, by omega, upper⟩
    · exact ⟨whole, Nat.le_refl _, inside⟩

omit [DecidableEq ι] in
theorem readLoop_append {program : Prog (BlockState ι) (Option (List UInt8))}
    {chunk remaining : Nat}
    (reads : ReadsMedium ds program (d, absolute + chunk) (remaining - chunk))
    (coherent : Coherent ds new) (media : new.media = s.media) (inside : chunk ≤ remaining) :
    ∃ a final,
      ((do
        match ← program with
        | none => pure none
        | some rest => pure (some ((s.media d).read absolute chunk ++ rest)) :
          Prog (BlockState ι) (Option (List UInt8))) new) = (a, final) ∧
        Coherent ds final ∧ final.media = s.media ∧
        ∀ b, a = some b → b = (s.media d).read absolute remaining := by
  obtain ⟨a, final, run, coherent', media', rest_eq⟩ := reads new coherent
  simp only [exec, run]
  cases a with
  | none => exact ⟨_, _, rfl, coherent', media'.trans media, by simp⟩
  | some rest =>
    refine ⟨_, _, rfl, coherent', media'.trans media, ?_⟩
    rintro _ ⟨rfl⟩
    rw [rest_eq rest rfl, media, ← read_add, Nat.add_sub_cancel' inside]

variable {d : ι} {written : List UInt8}

theorem readLoop_reads (supported : cacheSupported (ds.disk d) = true)
    {fuel remaining : Nat} (enough : remaining ≤ fuel) :
    ReadsMedium ds (readLoop ds d fuel absolute remaining)
      (d, absolute) remaining := by
  have pos := cacheSupported_positive supported
  have limitWhole := batchBytes_dvd (ds.disk d)
  generalize sized : (ds.disk d).blockSize = size at pos limitWhole
  induction fuel generalizing absolute remaining with
  | zero =>
    intro s coherent
    refine ⟨_, _, rfl, coherent, rfl, ?_⟩
    rintro _ ⟨rfl⟩
    rw [Nat.le_zero.mp enough]
    rfl
  | succ fuel ih =>
    intro s coherent
    simp only [readLoop, online, exec, sized]
    split
    next done =>
      refine ⟨_, _, rfl, coherent, rfl, ?_⟩
      rintro _ ⟨rfl⟩
      rw [done]
      rfl
    split
    · exact ⟨_, _, rfl, coherent, rfl, by simp⟩
    by_cases batched : (if absolute % size = 0 then batchBytes (ds.disk d) remaining
        else 0) ≠ 0 ∧ (cacheLookup s.cache d (absolute / size)).isNone = true
    · rw [if_pos batched]
      obtain ⟨nonzero, _⟩ := batched
      split at nonzero
      next aligned =>
        simp only [aligned, if_true]
        have block := Nat.div_mul_cancel (Nat.dvd_of_mod_eq_zero aligned)
        obtain ⟨whole, lower, upper⟩ := uncachedBytes_bounds s.cache d
          (Nat.dvd_refl _) (limitWhole remaining)
          (Nat.le_of_dvd (Nat.pos_of_ne_zero nonzero) (limitWhole remaining))
        generalize uncachedBytes s.cache d _ _ _ _ _ = b at whole lower upper ⊢
        have inside := Nat.le_trans upper (batchBytes_le (ds.disk d) remaining)
        obtain ⟨a, new, run, retains, media, data_eq⟩ :=
          driverRead_run ds d absolute b s
        simp only [run]
        have kept := coherent.retains retains media
        cases a with
        | none => exact ⟨_, _, rfl, kept, media, by simp⟩
        | some data =>
          cases data_eq data rfl
          obtain ⟨published, publishedMedia⟩ := cachePublish_run d sized (b / size)
            (absolute / size) _ kept supported (by
              rw [block, Nat.div_mul_cancel whole, media])
          exact readLoop_append (ih (by omega)) published (publishedMedia.trans media) inside
      · exact (nonzero rfl).elim
    rw [if_neg batched]
    obtain ⟨a, new, run, kept, media, held⟩ :=
      cacheGet_run d (absolute / size) coherent supported
    simp only [run]
    cases a with
    | none => exact ⟨_, _, rfl, kept, media, by simp⟩
    | some k =>
      have remainder := mod_lt absolute pos
      simp only [exec, kept.held_data (held k rfl), mediumBlock, sized,
        read_drop _ (Nat.le_of_lt remainder), read_take _ (Nat.min_le_left _ _),
        Nat.div_add_mod', media]
      exact readLoop_append (ih (by omega)) kept media (Nat.min_le_right _ _)

/-! ## Writing -/

theorem mediumBlock_apart {media : ι → Store UInt8} {name : ι} {block : Nat}
    (apart : name = p.1 → (block + 1) * (ds.disk name).blockSize ≤ p.2 ∨
      p.2 + data.length ≤ block * (ds.disk name).blockSize) :
    mediumBlock ds (mediaWrite media p data) name block =
      mediumBlock ds media name block := by
  rw [mediumBlock, mediumBlock, mediaWrite]
  by_cases same : name = p.1
  · have range := apart same
    rw [succ_mul] at range
    rw [same, update_self, ← same, read_write_disjoint _ range]
  · rw [update_of_ne same]

theorem Coherent.overwrite {cleared : List (CacheEntry ι)}
    (coherent : Coherent ds s) (fewer : Retains s.cache cleared)
    (retains : Retains cleared new.cache)
    (media : new.media = mediaWrite s.media p written)
    (apart : ∀ k name block, Held cleared k name block → name = p.1 →
      (block + 1) * (ds.disk name).blockSize ≤ p.2 ∨
        p.2 + written.length ≤ block * (ds.disk name).blockSize) : Coherent ds new := by
  refine coherent.refresh (fewer.trans retains).length_eq fun k name block data hit => ?_
  have middle := retains.kept k _ hit
  have old := fewer.kept k _ middle
  rw [media, mediumBlock_apart (apart k name block ⟨data, middle⟩)]
  exact ⟨⟨data, old⟩, (coherent.fresh k name block data old).2⟩

variable {data : List UInt8} {index k : Nat}

/-- The range is dropped before the driver call, so no entry covers what a failed call leaves. -/
theorem batchWrite_run (sized : (ds.disk d).blockSize = size)
    {first n : Nat} (coherent : Coherent ds s) (length_eq : data.length = n * size) :
    ∃ ok new, (do
        cacheInvalidateRange d first n
        driverWrite ds d (first * size) data : Prog (BlockState ι) Bool) s =
          (ok, new) ∧
      Coherent ds new ∧
      (ok = true → new.media = mediaWrite s.media (d, first * size) data) := by
  obtain ⟨ok, new, reached, run, retains, media, short, whole⟩ :=
    driverWrite_run ds d (first * size) data
      (cacheInvalidateRange d first n s).2
  refine ⟨ok, new, run, ?_, fun success => by rw [media, whole success]; rfl⟩
  refine coherent.overwrite map_clear retains media ?_
  rintro k name block ⟨b, hit⟩ rfl
  have outside : ¬ (first ≤ block ∧ block - first < n) := by
    rw [served] at hit
    cases p : s.cache[k]? with
    | none => simp [p] at hit
    | some e =>
      by_cases valid : e.valid = true <;> cases isName : e.device <;>
        simp [p, CacheEntry.line, valid, isName] at hit
      grind
  simp only [sized]
  rcases Nat.lt_or_ge block first with before | later
  · exact .inl (mul_le_mul_right _ before)
  right
  calc first * size + reached.length
      ≤ first * size + n * size := Nat.add_le_add_left (length_eq ▸ short) _
    _ = (first + n) * size := (Nat.add_mul ..).symm
    _ ≤ block * size := mul_le_mul_right _ (by omega)

theorem blocks_apart {size left right len : Nat} (differ : left ≠ right) (short : len ≤ size) :
    (left + 1) * size ≤ right * size ∨ right * size + len ≤ left * size := by
  rcases Nat.lt_or_gt_of_ne differ with before | later
  · exact .inl (mul_le_mul_right _ before)
  right
  calc right * size + len ≤ right * size + size := Nat.add_le_add_left short _
    _ = (right + 1) * size := (succ_mul ..).symm
    _ ≤ left * size := mul_le_mul_right _ later

/-- Writing one held block drops its own slot or rewrites it to match. -/
theorem Coherent.rewriteSlot (coherent : Coherent ds s)
    (held : Held s.cache k d index) (media : new.media = mediaWrite s.media
      (d, index * (ds.disk d).blockSize) written)
    (short : written.length ≤ (ds.disk d).blockSize)
    (length_eq : new.cache.length = s.cache.length)
    (others : ∀ j, j ≠ k → ∀ line, served new.cache j = some line →
      served s.cache j = some line)
    (own : ∀ line, served new.cache k = some line →
      line = (d, index, mediumBlock ds new.media d index)) :
    Coherent ds new := by
  refine coherent.refresh length_eq fun j name block data hit => ?_
  by_cases isSlot : j = k
  · subst isSlot
    cases own _ hit
    exact ⟨held, rfl⟩
  have old := others j isSlot _ hit
  rw [media, mediumBlock_apart]
  · exact ⟨⟨data, old⟩, (coherent.fresh j name block data old).2⟩
  rintro rfl
  refine blocks_apart (fun sameBlock => isSlot ?_) short
  exact coherent.unique j k name block ⟨data, old⟩ (sameBlock ▸ held)

theorem patchBlock_run (blockOffset : Nat) (patch : List UInt8)
    (coherent : Coherent ds s) (held : Held s.cache k d index)
    (inside : blockOffset + patch.length ≤ (ds.disk d).blockSize) :
    ∃ ok new,
      patchBlock ds d index k blockOffset patch s = (ok, new) ∧
      Coherent ds new ∧
      (ok = true → new.media = mediaWrite s.media
        (d, index * (ds.disk d).blockSize + blockOffset) patch) := by
  have oldData := coherent.held_data held
  obtain ⟨data, hit⟩ := id held
  obtain ⟨e, p, isLine⟩ := bind_eq_some_iff.mp hit
  simp only [p, map_some, getD_some, mediumBlock] at oldData
  generalize patched_eq : e.data.take blockOffset ++ patch ++
    e.data.drop (blockOffset + patch.length) = patched
  have patched_length : patched.length = (ds.disk d).blockSize := by
    simp only [← patched_eq, length_append, length_take, length_drop, oldData, read_length]
    omega
  have patched_write : mediaWrite s.media
      (d, index * (ds.disk d).blockSize) patched =
        mediaWrite s.media
          (d, index * (ds.disk d).blockSize + blockOffset) patch := by
    simp only [mediaWrite, ← patched_eq, oldData, write_patch inside]
  simp only [patchBlock, exec, getElem?_modify_eq, p, Option.map_eq_map, Option.map_some,
    Option.getD_some, patched_eq]
  generalize loaded_eq : ({ s with
    cache := s.cache.modify k fun e =>
      { e with data := e.data.take blockOffset ++ patch ++
          e.data.drop (blockOffset + patch.length) } } : BlockState ι) = loaded
  have loaded_slot {line : ι × Nat × List UInt8} (isNew : served loaded.cache k = some line) :
      line = (d, index, patched) := by
    rw [← loaded_eq] at isNew
    simp only [CacheEntry.line, ite_none_right_eq_some, map_eq_some_iff] at isLine
    obtain ⟨valid, name, isName, same⟩ := isLine
    cases same
    simp only [served, getElem?_modify_eq, p, Option.map_eq_map, Option.map_some,
      Option.bind_some, CacheEntry.line, valid, if_true, isName, patched_eq,
      Option.some.injEq] at isNew
    exact isNew.symm
  have loaded_other {j : Nat} (differ : j ≠ k) :
      served loaded.cache j = served s.cache j := by
    rw [← loaded_eq]
    simp [served, differ.symm]
  have loaded_length : loaded.cache.length = s.cache.length := by
    rw [← loaded_eq]
    exact length_modify ..
  have loaded_media : loaded.media = s.media := by rw [← loaded_eq]
  obtain ⟨ok, new, reached, run, retains, media, short, whole⟩ :=
    driverWrite_run ds d (index * (ds.disk d).blockSize) patched loaded
  rw [run]
  rw [patched_length] at short
  rw [loaded_media] at media
  cases ok with
  | false =>
    refine ⟨_, _, rfl, coherent.rewriteSlot held media short
      ((length_modify ..).trans (retains.length_eq.trans loaded_length)) ?_ ?_, by simp⟩
    · intro j differ line isServed
      rw [← loaded_other differ]
      refine retains.kept j line ?_
      simpa [served, differ.symm] using isServed
    intro line isServed
    rw [served] at isServed
    cases gone : new.cache[k]? <;> simp [gone, CacheEntry.line] at isServed
  | true =>
    cases whole rfl
    refine ⟨_, _, rfl, coherent.rewriteSlot held media short
      (retains.length_eq.trans loaded_length) ?_ ?_, fun _ => media.trans patched_write⟩
    · intro j differ line isServed
      rw [← loaded_other differ]
      exact retains.kept j line isServed
    intro line isServed
    rw [loaded_slot (retains.kept k line isServed), mediumBlock, media, mediaWrite,
      update_self, ← patched_length, read_write_same]

/-- Writing the rest of a run after its first `chunk` bytes writes the whole run. -/
theorem writeLoop_append {program : Prog (BlockState ι) Bool} {chunk : Nat}
    (writes : WritesMedium ds program (d, absolute + chunk) (data.drop chunk))
    (coherent : Coherent ds new)
    (media : new.media = mediaWrite s.media (d, absolute) (data.take chunk))
    (inside : chunk ≤ data.length) :
    ∃ ok final, program new = (ok, final) ∧ Coherent ds final ∧
      (ok = true → final.media = mediaWrite s.media (d, absolute) data) := by
  obtain ⟨ok, final, run, coherent', media'⟩ := writes new coherent
  refine ⟨ok, final, run, coherent', fun success => ?_⟩
  have appended := mediaWrite_append s.media d absolute (data.take chunk) (data.drop chunk)
  rw [length_take, Nat.min_eq_left inside, take_append_drop] at appended
  rw [media' success, media, appended]

theorem writeLoop_writes (supported : cacheSupported (ds.disk d) = true)
    {fuel : Nat} (enough : data.length ≤ fuel) :
    WritesMedium ds (writeLoop ds d fuel absolute data) (d, absolute) data := by
  have pos := cacheSupported_positive supported
  have limitWhole := batchBytes_dvd (ds.disk d)
  generalize sized : (ds.disk d).blockSize = size at pos limitWhole
  induction fuel generalizing absolute data with
  | zero =>
    intro s coherent
    refine ⟨_, _, rfl, coherent, fun _ => ?_⟩
    rw [length_eq_zero_iff.mp (le_zero.mp enough), mediaWrite_nil]
  | succ fuel ih =>
    intro s coherent
    simp only [writeLoop, online, exec, sized]
    split
    next done =>
      refine ⟨_, _, rfl, coherent, fun _ => ?_⟩
      rw [done, mediaWrite_nil]
    split
    · exact ⟨_, _, rfl, coherent, by simp⟩
    by_cases batched : (if absolute % size = 0 then
        batchBytes (ds.disk d) data.length else 0) ≠ 0
    · rw [if_pos batched]
      split at batched
      next aligned =>
        simp only [aligned, if_true]
        have block := Nat.div_mul_cancel (Nat.dvd_of_mod_eq_zero aligned)
        have whole := limitWhole data.length
        have inside := batchBytes_le (ds.disk d) data.length
        generalize batchBytes (ds.disk d) data.length = batch at batched whole inside ⊢
        have length_eq : (data.take batch).length = batch / size * size := by
          rw [Nat.div_mul_cancel whole, length_take, Nat.min_eq_left inside]
        obtain ⟨ok, new, run, kept, media⟩ := batchWrite_run sized coherent length_eq
        rw [block] at run media
        simp only [exec] at run
        rw [run]
        cases ok with
        | false => exact ⟨_, _, rfl, kept, by simp⟩
        | true =>
          obtain ⟨published, publishedMedia⟩ := cachePublish_run d sized (batch / size)
            (absolute / size) (data.take batch) kept supported (by
              rw [block, media rfl, mediaWrite, update_self, ← length_eq, read_write_same])
          exact writeLoop_append (ih (by simp; omega)) published
            (publishedMedia.trans (media rfl)) inside
      · exact (batched rfl).elim
    rw [if_neg batched]
    have remainder := mod_lt absolute pos
    obtain ⟨a, loaded, run, kept, media, held⟩ :=
      cacheGet_run d (absolute / size) coherent supported
    simp only [run]
    cases a with
    | none => exact ⟨_, _, rfl, kept, by simp⟩
    | some k =>
      have chunk_le := Nat.min_le_right (size - absolute % size) data.length
      obtain ⟨ok, new, patchRun, patched, patchMedia⟩ := patchBlock_run (absolute % size)
        (data.take (min (size - absolute % size) data.length)) kept (held k rfl)
        (by simp only [length_take]; omega)
      simp only [exec, patchRun]
      cases ok with
      | false => exact ⟨_, _, rfl, patched, by simp⟩
      | true =>
        rw [sized, div_add_mod'] at patchMedia
        exact writeLoop_append (ih (by simp; omega)) patched (media ▸ patchMedia rfl) chunk_le

/-! ## Requests -/

variable {off len : Nat}

theorem readLocked_reads {deviceRead : ι → Nat → Nat → Prog (BlockState ι) (Option (List UInt8))}
    {off len : Nat}
    (cached : cacheSupported (ds.disk d) = true → p = (d, off))
    (uncached : ∀ s : BlockState ι,
      blockDeviceOnline (s.registry ds) (some d) = true →
      ReadsMedium ds (deviceRead d off len) p len) :
    ReadsMedium ds (readLocked ds deviceRead d off len) p len := by
  intro s coherent
  simp only [readLocked, online, exec]
  split
  · exact ⟨_, _, rfl, coherent, rfl, by simp⟩
  next usable =>
  split
  next empty =>
    refine ⟨_, _, rfl, coherent, rfl, ?_⟩
    rintro _ ⟨rfl⟩
    rw [empty]
    rfl
  split
  · exact ⟨_, _, rfl, coherent, rfl, by simp⟩
  split
  · exact uncached s (by simp at usable; exact usable.1) s coherent
  rename_i supported
  simp only [Bool.not_eq_true', Bool.not_eq_false] at supported
  cases cached supported
  obtain ⟨a, new, run, kept, media, data_eq⟩ :=
    readLoop_reads supported (Nat.le_refl len) s coherent
  rw [run]
  cases a with
  | none => exact ⟨_, _, rfl, kept, media, by simp⟩
  | some data =>
    simp only [exec]
    split
    · exact ⟨_, _, rfl, kept, media, data_eq⟩
    · exact ⟨_, _, rfl, kept, media, by simp⟩

variable {off : Nat}

theorem writeLocked_writes {deviceWrite : ι → Nat → List UInt8 → Prog (BlockState ι) Bool}
    (cached : cacheSupported (ds.disk d) = true → p = (d, off))
    (uncached : cacheSupported (ds.disk d) ≠ true → ∀ s : BlockState ι,
      blockDeviceOnline (s.registry ds) (some d) = true →
      WritesMedium ds (deviceWrite d off data) p data) :
    WritesMedium ds (writeLocked ds deviceWrite d off data) p data := by
  intro s coherent
  simp only [writeLocked, online, exec]
  split
  · exact ⟨_, _, rfl, coherent, by simp⟩
  next usable =>
  split
  next empty =>
    refine ⟨_, _, rfl, coherent, fun _ => ?_⟩
    rw [empty, mediaWrite_nil]
  split
  · exact ⟨_, _, rfl, coherent, by simp⟩
  split
  next unsupported =>
    exact uncached (by simpa using unsupported) s (by simp at usable; exact usable.1)
      s coherent
  rename_i supported
  simp only [Bool.not_eq_true', Bool.not_eq_false] at supported
  cases cached supported
  obtain ⟨ok, new, run, kept, media⟩ :=
    writeLoop_writes supported (Nat.le_refl data.length) s coherent
  rw [run]
  cases ok with
  | false => exact ⟨_, _, rfl, kept, by simp⟩
  | true => exact ⟨_, _, rfl, kept, fun _ => media rfl⟩

/-- Where a byte of a device is on the media: a partition view is a window of its
parent. -/
def mediumPlace (disks : Disks ι) (device : ι) (offset : Nat) : ι × Nat :=
  match (disks.disk device).partition with
  | none => (device, offset)
  | some view => (view.parent, view.offset + offset)

theorem online_view_bound {view : Partition ι}
    (isOnline : blockDeviceOnline (s.registry ds) (some d) = true)
    (isView : (ds.disk d).partition = some view) : view.offset + view.size ≤ uint64Max := by
  simp only [blockDeviceOnline] at isOnline
  split at isOnline
  · contradiction
  rename_i root start hit
  have window := blockRawRange_window hit (ds.backing_eq d view isView)
  have offset_eq := ds.offset_eq d view isView
  have size_eq := ds.size_eq d view isView
  simp only [registry, Device.bytes] at window size_eq
  omega

theorem driverRead_reads : ReadsMedium ds (driverRead ds d off len) (d, off) len := by
  intro s coherent
  obtain ⟨a, new, run, retains, media, data_eq⟩ :=
    driverRead_run ds d off len s
  exact ⟨a, new, run, coherent.retains retains media, media, data_eq⟩

theorem driverWrite_writes (unsupported : cacheSupported (ds.disk d) ≠ true) :
    WritesMedium ds (driverWrite ds d off data) (d, off) data := by
  intro s coherent
  obtain ⟨ok, new, reached, run, retains, media, _, whole⟩ :=
    driverWrite_run ds d off data s
  refine ⟨ok, new, run, ?_, fun success => by rw [media, whole success]⟩
  refine coherent.overwrite refl retains media ?_
  rintro k name block ⟨b, hit⟩ rfl
  exact (unsupported (coherent.fresh k name block b hit).1).elim

omit [DecidableEq ι] in
theorem mediumPlace_driver (off : Nat) (isDriver : (ds.disk d).partition = none) :
    mediumPlace ds d off = (d, off) := by
  rw [mediumPlace, isDriver]

theorem deviceRead_reads (isOnline : blockDeviceOnline (s.registry ds) (some d) = true) :
    ReadsMedium ds (deviceRead ds d off len)
      (mediumPlace ds d off) len := by
  cases isView : (ds.disk d).partition with
  | none =>
    simp only [deviceRead, mediumPlace, isView]
    exact driverRead_reads
  | some view =>
    have bound := online_view_bound isOnline isView
    simp only [deviceRead, mediumPlace, isView]
    split
    · intro s coherent
      exact ⟨_, _, rfl, coherent, rfl, by simp⟩
    · rw [wrap64_of_le (by omega)]
      exact readLocked_reads (fun _ => rfl) fun _ _ => driverRead_reads

theorem deviceWrite_writes (unsupported : cacheSupported (ds.disk d) ≠ true)
    (isOnline : blockDeviceOnline (s.registry ds) (some d) = true) :
    WritesMedium ds (deviceWrite ds d off data)
      (mediumPlace ds d off) data := by
  cases isView : (ds.disk d).partition with
  | none =>
    simp only [deviceWrite, mediumPlace, isView]
    exact driverWrite_writes unsupported
  | some view =>
    have bound := online_view_bound isOnline isView
    simp only [deviceWrite, mediumPlace, isView]
    split
    · intro s coherent
      exact ⟨_, _, rfl, coherent, by simp⟩
    split
    · intro s coherent
      exact ⟨_, _, rfl, coherent, by simp⟩
    rw [wrap64_of_le (by omega)]
    exact writeLocked_writes (fun _ => rfl) fun parentUnsupported _ _ =>
      driverWrite_writes parentUnsupported

omit [DecidableEq ι] in
theorem cacheSupported_place (supported : cacheSupported (ds.disk d) = true) :
    mediumPlace ds d off = (d, off) := by
  apply mediumPlace_driver
  simp only [cacheSupported, and_eq_true, isNone_iff_eq_none] at supported
  exact supported.1.1

theorem blockRead_reads (admitted : Bool) (d : ι) (off len : Nat) :
    ReadsMedium ds (blockRead ds admitted (some d) off len)
      (mediumPlace ds d off) len := by
  simp only [blockRead]
  split
  · exact readLocked_reads cacheSupported_place
      fun _ isOnline => deviceRead_reads isOnline
  · intro s coherent
    exact ⟨_, _, rfl, coherent, rfl, by simp⟩

theorem blockWrite_writes (admitted : Bool) (d : ι) (off : Nat) (data : List UInt8) :
    WritesMedium ds (blockWrite ds admitted (some d) off data)
      (mediumPlace ds d off) data := by
  simp only [blockWrite]
  split
  · exact writeLocked_writes cacheSupported_place
      fun unsupported _ isOnline => deviceWrite_writes unsupported isOnline
  · intro s coherent
    exact ⟨_, _, rfl, coherent, by simp⟩

/-- A call into the block layer. -/
inductive Transfer (ι : Type) where
  | read (admitted : Bool) (device : Option ι) (offset length : Nat)
  | write (admitted : Bool) (device : Option ι) (offset : Nat) (data : List UInt8)
  | forget (device : ι)
  | invalidate (device : ι)

/-- What a call returns. -/
inductive Reply where
  | bytes (data : Option (List UInt8))
  | status (ok : Bool)
  | done

def BlockState.serve (disks : Disks ι) (state : BlockState ι) :
    Transfer ι → Reply × BlockState ι
  | .read admitted device offset length =>
    let answer := blockRead disks admitted device offset length state
    (.bytes answer.1, answer.2)
  | .write admitted device offset data =>
    let answer := blockWrite disks admitted device offset data state
    (.status answer.1, answer.2)
  | .forget device => (.done, blockForget disks device state)
  | .invalidate device => (.done, blockInvalidate disks device state)

theorem BlockState.serve_coherent (coherent : Coherent ds s) {transfer : Transfer ι} :
    Coherent ds (s.serve ds transfer).2 := by
  cases transfer with
  | read admitted d off len =>
    cases d with
    | none => exact coherent
    | some d =>
      obtain ⟨_, _, run, kept, _⟩ := blockRead_reads admitted d off len s coherent
      simpa only [serve, run] using kept
  | write admitted d off data =>
    cases d with
    | none => exact coherent
    | some d =>
      obtain ⟨_, _, run, kept, _⟩ := blockWrite_writes admitted d off data s coherent
      simpa only [serve, run] using kept
  | forget d => exact coherent.retains (blockForget_retains d s) rfl
  | invalidate d =>
    obtain ⟨retains, media⟩ := invalidateWalk_retains ds blockMaxDevices (some d) s
    exact coherent.retains retains media

/-- After any history of calls and driver failures, a successful read returns what the medium holds,
no read changes a medium, and a successful write changes exactly its bytes. -/
theorem blockCache_transparent (disks : Disks ι) (offline : ι → Bool)
    (media : ι → Store UInt8) (faults : Nat → DriverFault) (history : List (Transfer ι))
    (admitted : Bool) (device : ι) (offset : Nat) :
    let state := (run (serve disks) (initial offline media faults) history).2
    let place := mediumPlace disks device offset
    (∀ length,
      (blockRead disks admitted (some device) offset length state).2.media = state.media ∧
      ∀ bytes, (blockRead disks admitted (some device) offset length state).1 = some bytes →
        bytes = (state.media place.1).read place.2 length) ∧
    ∀ data, (blockWrite disks admitted (some device) offset data state).1 = true →
      (blockWrite disks admitted (some device) offset data state).2.media =
        update state.media place.1 ((state.media place.1).write place.2 data) := by
  intro state place
  have coherent : Coherent disks state :=
    run_invariant (serve disks) (Coherent disks)
      (fun _ transfer kept => serve_coherent kept)
      initial_coherent history
  constructor
  · intro length
    obtain ⟨answer, after, answered, _, sameMedia, bytes_eq⟩ :=
      blockRead_reads admitted device offset length state coherent
    rw [answered]
    exact ⟨sameMedia, bytes_eq⟩
  intro data
  obtain ⟨ok, after, answered, _, written⟩ :=
    blockWrite_writes admitted device offset data state coherent
  rw [answered]
  exact written

/-- A driver's device of four blocks, and a view of its second and third. -/
def viewed : Disks Bool where
  disk name :=
    { used := true, offline := false, blockSize := 512, blockCount := if name then 2 else 4,
      backing := if name then some false else none, backingOffset := if name then 512 else 0,
      readable := true, writable := true, maxTransferBytes := 4096,
      partition := if name then some ⟨false, 512, 1024⟩ else none }
  parent_driver := by simp
  backing_eq := by simp
  offset_eq := by simp
  size_eq := by simp [Device.bytes]

/-- A history that caches the device and then writes through the view. -/
def viewHistory : List (Transfer Bool) :=
  [.read true (some false) 0 1024, .write true (some true) 1 [7]]

theorem blockCache_transparent_view :
    let state := (run (serve viewed) (initial (fun _ => false) (fun _ address => .ofNat address)
      fun _ => ⟨true, 0, false⟩) viewHistory).2
    (blockRead viewed true (some true) 0 3 state).1 = some [0, 7, 2] ∧
      (state.media false).read 512 3 = [0, 7, 2] := by
  intro state
  have answer : (blockRead viewed true (some true) 0 3 state).1 = some [0, 7, 2] := by
    decide +kernel
  have medium := ((blockCache_transparent viewed (fun _ => false) (fun _ address => .ofNat address)
    (fun _ => ⟨true, 0, false⟩) viewHistory true true 0).1 3).2
  have place : mediumPlace viewed true 0 = (false, 512) := by decide
  rw [place] at medium
  exact ⟨answer, (medium _ answer).symm⟩

end SrvrOS.Block
