import SrvrOS.Files.Catalog

/-!
# The file tables keep a catalog

Each function of the file tables does to the catalog what the catalog's own operation does. Beside
it runs the log of what was written back: always the name and the text of a content that still has
its name.
-/

namespace SrvrOS.Files

open Lib Function List Catalog Store Content

variable {c : Content} {len refs : Nat}

def Content.view (content : Content) : Option View :=
  if content.refs = 0 then none
  else some ⟨content.refs, content.unlinked, content.path, content.bytes⟩

def ReadFile.slot (file : ReadFile) : Option Slot :=
  if file.used then some ⟨file.refs, file.content⟩ else none

def WriteFile.slot (file : WriteFile) : Option Slot :=
  if file.used then some ⟨file.refs, file.content⟩ else none

/-- A content whose text changes while its name and its count stay. -/
structure Content.Edits (old new : Content) (change : List UInt8 → List UInt8) : Prop where
  refs : new.refs = old.refs
  unlinked : new.unlinked = old.unlinked
  path : new.path = old.path
  bytes : new.bytes = change old.bytes

theorem Content.readAt_eq (off : Nat) : c.readAt off len = slice c.bytes off len := by
  have remaining : (if off ≤ c.size then c.size - off else 0) =
      c.size - off := by
    split <;> omega
  rw [readAt, remaining, bytes, ← read_slice]

theorem Content.edits_patched (position : Nat) (bytes : List UInt8) :
    c.Edits (c.patched position bytes) fun text => overwrite 0 text position bytes :=
  ⟨rfl, rfl, rfl, read_overwrite ..⟩

theorem Content.edits_truncated : c.Edits (c.truncated len) fun text => resize 0 text len :=
  ⟨rfl, rfl, rfl, read_clear ..⟩

/-- What a write of some bytes makes of a text when `count` of them were taken. -/
def WriteFile.written (file : WriteFile) (bytes : List UInt8) (count : Nat) (text : List UInt8) :
    List UInt8 :=
  if bytes = [] then text
  else overwrite 0 text (if file.append then text.length else file.offset) (bytes.take count)

def pwritten (offset : Int) (bytes : List UInt8) (count : Nat) (text : List UInt8) : List UInt8 :=
  if bytes = [] then text else overwrite 0 text offset.toNat (bytes.take count)

namespace OpenFiles

variable {f after last : OpenFiles} {id : ContentId} {h : Handle} {new : Content}

def slot (files : OpenFiles) : Handle → Option Slot
  | .read id => (files.readFiles id).slot
  | .write id => (files.writeFiles id).slot

def catalog (files : OpenFiles) : Catalog where
  views := fun id => (files.contents id).view
  slots := files.slot

@[simp] theorem catalog_setContent : (f.setContent id c).catalog = f.catalog.setView id c.view := by
  have views : (fun j => ((f.setContent id c).contents j).view) =
      update (fun j => (f.contents j).view) id c.view := by
    funext j
    by_cases here : j = id
    · subst here
      simp [setContent]
    · simp [setContent, here]
  simp only [catalog, views]
  rfl

@[simp] theorem catalog_setRead (id : ReadId) (file : ReadFile) :
    (f.setRead id file).catalog = f.catalog.setSlot (.read id) file.slot := by
  have slots : (f.setRead id file).slot = update f.slot (.read id) file.slot := by
    funext j
    cases j with
    | read j => by_cases here : j = id <;> simp [slot, setRead, here]
    | write j => simp [slot, setRead]
  simp only [catalog, slots]
  rfl

@[simp] theorem catalog_setWrite (id : WriteId) (file : WriteFile) :
    (f.setWrite id file).catalog = f.catalog.setSlot (.write id) file.slot := by
  have slots : (f.setWrite id file).slot = update f.slot (.write id) file.slot := by
    funext j
    cases j with
    | read j => simp [slot, setWrite]
    | write j => by_cases here : j = id <;> simp [slot, setWrite, here]
  simp only [catalog, slots]
  rfl

theorem views_eq (held : (f.contents id).refs ≠ 0) :
    f.catalog.views id = some ⟨(f.contents id).refs, (f.contents id).unlinked,
      (f.contents id).path, (f.contents id).bytes⟩ :=
  if_neg held

theorem views_none (free : (f.contents id).refs = 0) : f.catalog.views id = none :=
  if_pos free

theorem views_some {view : View} (found : f.catalog.views id = some view) :
    (f.contents id).refs ≠ 0 ∧ view = ⟨(f.contents id).refs, (f.contents id).unlinked,
      (f.contents id).path, (f.contents id).bytes⟩ := by
  by_cases held : (f.contents id).refs = 0
  · rw [views_none held] at found
    simp at found
  · rw [views_eq held] at found
    exact ⟨held, (Option.some.inj found).symm⟩

theorem catalog_edit {change : List UInt8 → List UInt8} (edits : (f.contents id).Edits new change) :
    (f.setContent id new).catalog = f.catalog.edit id change := by
  rw [catalog_setContent, edit]
  by_cases held : (f.contents id).refs = 0
  · rw [views_none held]
    dsimp only
    rw [view, if_pos (edits.refs.trans held), ← views_none held, setView_self]
  rw [views_eq held]
  rw [view, if_neg (by rw [edits.refs]; exact held), edits.refs, edits.unlinked,
    edits.path, edits.bytes]

theorem edit_same {catalog : Catalog} : (catalog.edit id fun text => text) = catalog := by
  unfold edit
  split
  · rfl
  next view found => rw [← found, setView_self]

theorem catalog_same (eq : (f.contents id).Edits new fun text => text) :
    (f.setContent id new).catalog = f.catalog := by
  rw [catalog_edit eq, edit_same]

/-! ## Effects -/

/-- What may be written back: the text of a content that has its name. -/
def WritesBack (files : OpenFiles) (entry : ContentId × Path × List UInt8) : Prop :=
  ∃ view, files.catalog.views entry.1 = some view ∧ view.orphan = false ∧
    entry.2 = (view.path, view.text)

/-- The catalog becomes another one, and what is written back on the way is allowed. -/
structure Effect (files after : OpenFiles) (catalog : Catalog) : Prop where
  catalog_eq : after.catalog = catalog
  log : ∃ new, after.flushed = files.flushed ++ new ∧ ∀ entry ∈ new, files.WritesBack entry

/-- Nothing is written back, and the catalog stays. -/
structure Silent (files after : OpenFiles) : Prop where
  catalog_eq : after.catalog = files.catalog
  flushed_eq : after.flushed = files.flushed

theorem Silent.refl {f : OpenFiles} : f.Silent f := ⟨rfl, rfl⟩

theorem Silent.trans (first : f.Silent after) (second : after.Silent last) : f.Silent last :=
  ⟨second.catalog_eq.trans first.catalog_eq, second.flushed_eq.trans first.flushed_eq⟩

variable {catalog : Catalog}

theorem Effect.of_eq (catalog_eq : after.catalog = catalog)
    (flushed_eq : after.flushed = f.flushed) : f.Effect after catalog :=
  ⟨catalog_eq, [], by simpa using flushed_eq, by simp⟩

theorem Silent.effect (silent : f.Silent after) : f.Effect after f.catalog :=
  .of_eq silent.catalog_eq silent.flushed_eq

theorem Effect.next {catalog catalog' : Catalog} (effect : f.Effect after catalog)
    (catalog_eq : last.catalog = catalog') (flushed_eq : last.flushed = after.flushed) :
    f.Effect last catalog' := by
  obtain ⟨-, new, log, allowed⟩ := effect
  exact ⟨catalog_eq, new, flushed_eq.trans log, allowed⟩

theorem Effect.trans (first : f.Effect after f.catalog)
    (second : after.Effect last catalog) : f.Effect last catalog := by
  obtain ⟨eq, new, log, allowed⟩ := first
  obtain ⟨catalog_eq, new', log', allowed'⟩ := second
  refine ⟨catalog_eq, new ++ new', by rw [log', log, append_assoc], fun entry mem => ?_⟩
  rcases mem_append.mp mem with early | late
  · exact allowed entry early
  obtain ⟨view, found, kept, text⟩ := allowed' entry late
  exact ⟨view, eq ▸ found, kept, text⟩

/-! ## Contents -/

/-- What a flush does: some flags of the content change, and its text may be logged. -/
theorem contentFlush_spec (f : OpenFiles) (id : ContentId) :
    ∃ c new asked,
      (f.contentFlush id).2 =
        { f.setContent id c with flushed := f.flushed ++ new, asked := asked } ∧
      (f.contents id).Edits c (fun text => text) ∧
      (new = [] ∨ (f.contents id).unlinked = false ∧ (f.contents id).dirty = true ∧
        new = [(id, (f.contents id).path, (f.contents id).bytes)]) := by
  have self : f = { f.setContent id (f.contents id) with
      flushed := f.flushed ++ [], asked := f.asked } := by
    simp [setContent]
  simp only [contentFlush]
  split
  next =>
    exact ⟨{ f.contents id with dirty := false }, [], f.asked, by simp [setContent],
      ⟨rfl, rfl, rfl, rfl⟩, .inl rfl⟩
  rename_i named
  split
  · exact ⟨f.contents id, [], f.asked, self, ⟨rfl, rfl, rfl, rfl⟩, .inl rfl⟩
  split
  · exact ⟨f.contents id, [], f.asked, self, ⟨rfl, rfl, rfl, rfl⟩, .inl rfl⟩
  rename_i dirty
  simp only [Bool.not_eq_true', Bool.not_eq_true, Bool.not_eq_false] at named dirty
  split
  · exact ⟨{ f.contents id with dirty := false }, _, f.asked + 1, rfl,
      ⟨rfl, rfl, rfl, rfl⟩, .inr ⟨named, dirty, rfl⟩⟩
  exact ⟨{ f.contents id with failed := !f.answer.retryable }, _,
    f.asked + 1, rfl, ⟨rfl, rfl, rfl, rfl⟩, .inr ⟨named, dirty, rfl⟩⟩

theorem contentFlush_effect (held : (f.contents id).refs ≠ 0) :
    f.Effect (f.contentFlush id).2 f.catalog := by
  obtain ⟨c, new, asked, r, eq, logged⟩ := f.contentFlush_spec id
  rw [r]
  refine ⟨catalog_same eq, new, rfl, fun entry mem => ?_⟩
  rcases logged with rfl | ⟨named, -, rfl⟩
  · simp at mem
  rw [mem_singleton.mp mem]
  exact ⟨_, views_eq held, named, rfl⟩

theorem contentFlush_catalog : (f.contentFlush id).2.catalog = f.catalog := by
  obtain ⟨c, new, asked, r, eq, -⟩ := f.contentFlush_spec id
  rw [r]
  exact catalog_same eq

theorem contentRelease_effect (f : OpenFiles) (id : ContentId) :
    f.Effect (f.contentRelease id).2 (f.catalog.release id) := by
  simp only [contentRelease]
  split
  next free =>
    rw [release, views_none free]
    exact Silent.refl.effect
  rename_i held
  rw [release_eq (views_eq held)]
  split
  next several =>
    refine .of_eq ?_ rfl
    rw [catalog_setContent, view, if_neg several, Catalog.View.lowered,
      if_neg (by dsimp only; omega)]
    rfl
  have one : (f.contents id).refs = 1 := by omega
  rw [Catalog.View.lowered, if_pos one]
  have flushed := contentFlush_spec
    (f.setContent id { f.contents id with refs := (f.contents id).refs - 1 }) id
  obtain ⟨c, new, asked, r, -, logged⟩ := flushed
  rw [r]
  simp only [setContent, update_self] at logged
  refine ⟨?_, new, rfl, fun entry mem => ?_⟩
  · rw [catalog_setContent]
    change ((((f.setContent id _).setContent id c).catalog).setView id _) = _
    rw [catalog_setContent, catalog_setContent, setView_setView, setView_setView]
    rfl
  rcases logged with rfl | ⟨named, -, rfl⟩
  · simp at mem
  rw [mem_singleton.mp mem]
  exact ⟨_, views_eq held, named, rfl⟩

theorem contentRelease_clean (clean : (f.contents id).dirty = false) :
    (f.contentRelease id).2.flushed = f.flushed := by
  simp only [contentRelease]
  split
  · rfl
  split
  · rfl
  have flushed := contentFlush_spec
    (f.setContent id { f.contents id with refs := (f.contents id).refs - 1 }) id
  obtain ⟨c, new, asked, r, -, logged⟩ := flushed
  rw [r]
  simp only [setContent, clean] at logged
  rcases logged with rfl | ⟨-, dirty, -⟩
  · simp [setContent]
  · simp at dirty

variable {p : Path} {id : ContentId}

theorem contentFind_some (found : f.contentFind p = some id) :
    (f.contents id).refs ≠ 0 ∧ (f.contents id).unlinked = false ∧
      (f.contents id).path = p := by
  unfold contentFind at found
  have holds := Fin.eq_true_of_find?_eq_some found
  simp only [Bool.and_eq_true, Bool.not_eq_true', decide_eq_true_eq] at holds
  exact ⟨holds.1.1, holds.1.2, holds.2⟩

theorem contentFind_none (missing : f.contentFind p = none) :
    ∀ j view, f.catalog.views j = some view → view.orphan = false →
      view.path ≠ p := by
  intro j view found kept equal
  obtain ⟨held, rfl⟩ := views_some found
  unfold contentFind at missing
  have absent := Fin.eq_false_of_find?_eq_none missing j
  simp only [Bool.and_eq_false_iff, Bool.not_eq_false', Classical.not_not,
    decide_eq_false_iff_not] at absent
  dsimp only at kept equal
  rcases absent with (free | unlinked) | different
  · exact held free
  · simp [kept] at unlinked
  · exact different equal

theorem bufferOf_bytes (d : List UInt8) : (bufferOf d).read 0 d.length = d := by
  apply ext_getElem?
  intro place
  by_cases inside : place < d.length
  · rw [read_getElem? inside]
    simp [bufferOf, inside]
  · rw [getElem?_eq_none (by simpa using inside), getElem?_eq_none (by simpa using inside)]

/-- An acquisition fails and changes nothing, or finds a content that the path admits. -/
inductive Acquisition (files : OpenFiles) (path : Path) (data : List UInt8) :
    Option ContentId × OpenFiles → Prop
  | failed {after : OpenFiles} (silent : files.Silent after) :
      Acquisition files path data (none, after)
  | found {id : ContentId} {after : OpenFiles} (admits : files.catalog.Admits path id)
      (catalog_eq : after.catalog =
        files.catalog.setView id (some (files.catalog.acquired id path data)))
      (flushed_eq : after.flushed = files.flushed)
      (clean : files.catalog.views id = none → (after.contents id).dirty = false) :
      Acquisition files path data (some id, after)

theorem contentAcquire_spec (f : OpenFiles) (p : Path) (d : List UInt8) :
    f.Acquisition p d (f.contentAcquire p d) := by
  unfold contentAcquire
  split
  next id found =>
    obtain ⟨held, kept, named⟩ := contentFind_some found
    refine .found (.inl ⟨_, views_eq held, kept, named⟩) ?_ rfl fun free => ?_
    · rw [catalog_setContent, Catalog.acquired, views_eq held]
      rfl
    · rw [views_eq held] at free
      simp at free
  rename_i missing
  split
  · exact .failed .refl
  rename_i id free
  have unused : (f.contents id).refs = 0 := by simpa using Fin.eq_true_of_find?_eq_some free
  have absent := views_none unused
  split
  next copied copy =>
    have eq : copied = p := by
      unfold copyProcessPath at copy
      split at copy <;> simp_all
    subst eq
    refine .found (.inr ⟨absent, contentFind_none missing⟩) ?_ rfl fun _ => ?_
    · rw [Catalog.acquired, absent]
      simp [view, bytes, bufferOf_bytes]
    · simp [setContent]
  refine .failed ⟨?_, rfl⟩
  rw [catalog_setContent, view, if_pos rfl, ← absent, setView_self]

/-- What reserving room does: the bytes stay, and nothing is dirtied or written back. -/
structure Reserves (files : OpenFiles) (id : ContentId) (after : OpenFiles) : Prop where
  silent : files.Silent after
  dirty : (after.contents id).dirty = (files.contents id).dirty
  size : (after.contents id).size = (files.contents id).size
  reads : after.readFiles = files.readFiles
  writes : after.writeFiles = files.writeFiles

theorem Reserves.refl {f : OpenFiles} : f.Reserves id f := ⟨.refl, rfl, rfl, rfl, rfl⟩

theorem ensureWriteCapacity_spec (f : OpenFiles) (id : ContentId) (needed : Nat) :
    f.Reserves id (f.ensureWriteCapacity id needed).2 := by
  simp only [ensureWriteCapacity]
  split
  · exact .refl
  split
  · exact .refl
  split
  · exact ⟨⟨rfl, rfl⟩, rfl, rfl, rfl, rfl⟩
  refine ⟨⟨?_, rfl⟩, by simp [setContent], by simp [setContent], rfl, rfl⟩
  refine @catalog_same f.ask id _ ⟨rfl, rfl, rfl, ?_⟩
  refine read_congr fun index _ inside => ?_
  exact if_pos (by simpa using inside)

/-! ## Descriptions -/

theorem slots_read (id : ReadId) : f.catalog.slots (.read id) = (f.readFiles id).slot := rfl

theorem slots_write (id : WriteId) : f.catalog.slots (.write id) = (f.writeFiles id).slot := rfl

variable {file : ReadFile}

theorem ReadFile.slot_used (used : file.used = true) :
    file.slot = some ⟨file.refs, file.content⟩ := if_pos used

theorem ReadFile.slot_unused (unused : file.used = false) : file.slot = none := by
  simp [ReadFile.slot, unused]

theorem WriteFile.slot_used {file : WriteFile} (used : file.used = true) :
    file.slot = some ⟨file.refs, file.content⟩ := if_pos used

theorem WriteFile.slot_unused {file : WriteFile} (unused : file.used = false) :
    file.slot = none := by
  simp [WriteFile.slot, unused]

theorem catalog_setRead_same {id : ReadId}
    (eq : file.slot = (f.readFiles id).slot) : (f.setRead id file).catalog = f.catalog := by
  rw [catalog_setRead, eq, ← slots_read, setSlot_self]

theorem catalog_setWrite_same {id : WriteId} {file : WriteFile}
    (eq : file.slot = (f.writeFiles id).slot) : (f.setWrite id file).catalog = f.catalog := by
  rw [catalog_setWrite, eq, ← slots_write, setSlot_self]

theorem catalog_recountRead {id : ReadId} (used : (f.readFiles id).used = true) :
    (f.setRead id { f.readFiles id with refs := refs }).catalog =
      f.catalog.setSlot (.read id) (some ⟨refs, (f.readFiles id).content⟩) := by
  simp [ReadFile.slot, used]

theorem catalog_recountWrite {id : WriteId} (used : (f.writeFiles id).used = true) :
    (f.setWrite id { f.writeFiles id with refs := refs }).catalog =
      f.catalog.setSlot (.write id) (some ⟨refs, (f.writeFiles id).content⟩) := by
  simp [WriteFile.slot, used]

theorem fileRef_catalog (f : OpenFiles) {h : Handle} :
    (f.fileRef h).catalog = f.catalog.reference h ∧
      (f.fileRef h).flushed = f.flushed := by
  cases h with
  | read id =>
    simp only [fileRef, Catalog.reference, slots_read]
    split
    next used =>
      rw [ReadFile.slot_used used]
      exact ⟨catalog_recountRead used, rfl⟩
    next unused =>
      rw [ReadFile.slot_unused (by simpa using unused)]
      exact ⟨rfl, rfl⟩
  | write id =>
    simp only [fileRef, Catalog.reference, slots_write]
    split
    next used =>
      rw [WriteFile.slot_used used]
      exact ⟨catalog_recountWrite used, rfl⟩
    next unused =>
      rw [WriteFile.slot_unused (by simpa using unused)]
      exact ⟨rfl, rfl⟩

theorem readFileClose_effect (f : OpenFiles) {id : ReadId} :
    f.Effect (f.readFileClose id).2 (f.catalog.close (.read id)) := by
  simp only [readFileClose, close, slots_read]
  split
  next unused =>
    rw [ReadFile.slot_unused (by simpa using unused)]
    exact Silent.refl.effect
  rename_i used
  simp only [Bool.not_eq_true', Bool.not_eq_false] at used
  rw [ReadFile.slot_used used]
  dsimp only
  split
  next several => exact .of_eq (catalog_recountRead used) rfl
  have released := f.contentRelease_effect (f.readFiles id).content
  refine released.next ?_ rfl
  rw [catalog_setRead, released.catalog_eq]
  rfl

theorem writeFileClose_effect (sound : f.catalog.Sound) {id : WriteId} :
    f.Effect (f.writeFileClose id).2 (f.catalog.close (.write id)) := by
  simp only [writeFileClose, close, slots_write]
  split
  next unused =>
    rw [WriteFile.slot_unused (by simpa using unused)]
    exact Silent.refl.effect
  rename_i used
  simp only [Bool.not_eq_true', Bool.not_eq_false] at used
  have seen : f.catalog.slots (.write id) = some ⟨_, _⟩ := WriteFile.slot_used used
  rw [WriteFile.slot_used used]
  dsimp only
  split
  next several => exact .of_eq (catalog_recountWrite used) rfl
  obtain ⟨view, held⟩ := sound.held seen
  have flushed := contentFlush_effect (views_some held).1
  have released := contentRelease_effect
    (f.contentFlush (f.writeFiles id).content).2 (f.writeFiles id).content
  rw [flushed.catalog_eq] at released
  refine (flushed.trans released).next ?_ rfl
  rw [catalog_setWrite, released.catalog_eq]
  rfl

theorem fileClose_catalog (f : OpenFiles) (h : Handle) :
    (f.fileClose h).2.catalog = f.catalog.close h := by
  cases h with
  | read id => exact f.readFileClose_effect.catalog_eq
  | write id =>
    simp only [fileClose, writeFileClose, close, slots_write]
    split
    next unused => rw [WriteFile.slot_unused (by simpa using unused)]
    rename_i used
    simp only [Bool.not_eq_true', Bool.not_eq_false] at used
    rw [WriteFile.slot_used used]
    dsimp only
    split
    · exact catalog_recountWrite used
    rw [catalog_setWrite, (contentRelease_effect ..).catalog_eq, contentFlush_catalog]
    rfl

variable {h : Handle}

theorem fileClose_effect (sound : f.catalog.Sound) :
    f.Effect (f.fileClose h).2 (f.catalog.close h) := by
  cases h with
  | read id => exact f.readFileClose_effect
  | write id => exact writeFileClose_effect sound

/-! ## Opening -/

/-- An open fails and changes nothing, or makes a description of a content that the path admits. -/
inductive Opening (files : OpenFiles) (path : Path) (data : List UInt8) (emptied : Bool) :
    Except Errno Handle × OpenFiles → Prop
  | failed {errno : Errno} {after : OpenFiles} (silent : files.Silent after) :
      Opening files path data emptied (.error errno, after)
  | opened {handle : Handle} {id : ContentId} {after : OpenFiles}
      (unused : files.catalog.slots handle = none) (admits : files.catalog.Admits path id)
      (catalog_eq : after.catalog =
        ((files.catalog.setView id (some (files.catalog.acquired id path data))).edit id
          fun text => if emptied then [] else text).setSlot handle (some ⟨1, id⟩))
      (flushed_eq : after.flushed = files.flushed) :
      Opening files path data emptied (.ok handle, after)

theorem fileAlloc_spec (f : OpenFiles) (node : Node) (d : List UInt8) (room : Bool) :
    f.Opening node.path d false (f.fileAlloc node d room) := by
  unfold fileAlloc
  split
  · exact .failed .refl
  split
  · exact .failed .refl
  rename_i id free
  have unused : (f.readFiles id).used = false := by
    simpa using Fin.eq_true_of_find?_eq_some free
  have acquisition := f.contentAcquire_spec node.path d
  generalize f.contentAcquire node.path d = r at acquisition
  cases acquisition with
  | failed silent => exact .failed silent
  | found admits catalog_eq flushed_eq _ =>
    refine .opened (ReadFile.slot_unused unused) admits ?_ flushed_eq
    simp only [Bool.false_eq_true, if_false]
    rw [edit_same, catalog_setRead, catalog_eq]
    rfl

variable {p : Path} {d : List UInt8} {flags : OpenFlags}

theorem release_acquired (live : ∀ view, catalog.views id = some view → 0 < view.refs) :
    (catalog.setView id (some (catalog.acquired id p d))).release id = catalog := by
  have found : (catalog.setView id (some (catalog.acquired id p d))).views id =
      some (catalog.acquired id p d) := by
    simp [setView]
  rw [release_eq found, setView_setView]
  cases seen : catalog.views id with
  | none =>
    simp only [Catalog.acquired, seen, Catalog.View.lowered, if_true]
    rw [← seen, setView_self]
  | some view =>
    have positive := live view seen
    simp only [Catalog.acquired, seen, Catalog.View.lowered, Nat.add_sub_cancel]
    rw [if_neg (by omega), ← seen, setView_self]

theorem live (f : OpenFiles) (id : ContentId) (view : View)
    (found : f.catalog.views id = some view) : 0 < view.refs := by
  obtain ⟨held, rfl⟩ := views_some found
  exact Nat.pos_of_ne_zero held

theorem abandon {acquired reserved : OpenFiles}
    (catalog_eq : acquired.catalog = f.catalog.setView id (some (f.catalog.acquired id p d)))
    (flushed_eq : acquired.flushed = f.flushed)
    (clean : f.catalog.views id = none → (acquired.contents id).dirty = false)
    (silent : acquired.Silent reserved)
    (dirty : (reserved.contents id).dirty = (acquired.contents id).dirty) :
    f.Silent (reserved.contentRelease id).2 := by
  have released := reserved.contentRelease_effect id
  have restored : (reserved.contentRelease id).2.catalog = f.catalog := by
    rw [released.catalog_eq, silent.catalog_eq, catalog_eq, release_acquired]
    exact f.live id
  refine ⟨restored, ?_⟩
  rw [← flushed_eq, ← silent.flushed_eq]
  cases seen : f.catalog.views id with
  | none => exact contentRelease_clean (dirty.trans (clean seen))
  | some view =>
    have positive := f.live id view seen
    have several : (reserved.contents id).refs = view.refs + 1 := by
      have found : reserved.catalog.views id = some (f.catalog.acquired id p d) := by
        rw [silent.catalog_eq, catalog_eq]
        simp [setView]
      obtain ⟨-, shape⟩ := views_some found
      have refsOf := congrArg View.refs shape
      simp only [Catalog.acquired, seen] at refsOf
      exact refsOf.symm
    simp only [contentRelease]
    rw [if_neg (by omega), if_pos (by omega)]
    rfl

theorem openWriteAt_spec (f : OpenFiles) {id : WriteId} (unused : (f.writeFiles id).used = false)
    {ensureEmpty : Bool} :
    f.Opening p d ensureEmpty (f.openWriteAt id p flags d ensureEmpty) := by
  unfold openWriteAt
  have acquisition := f.contentAcquire_spec p d
  generalize f.contentAcquire p d = r at acquisition
  cases acquisition with
  | failed silent => exact .failed silent
  | @found c acquired admits catalog_eq flushed_eq clean =>
    dsimp only
    have reserving : acquired.Reserves c (if (copyProcessPath p).isNone then (false, acquired)
        else if flags.write then
          acquired.ensureWriteCapacity c (acquired.contents c).size
        else (true, acquired)).2 := by
      split
      · exact .refl
      split
      · exact acquired.ensureWriteCapacity_spec c _
      · exact .refl
    generalize (if (copyProcessPath p).isNone then (false, acquired)
        else if flags.write then
          acquired.ensureWriteCapacity c (acquired.contents c).size
        else (true, acquired)) = reserved at reserving
    split
    · exact .failed (abandon catalog_eq flushed_eq clean reserving.silent reserving.dirty)
    split
    · have silent : acquired.Silent reserved.2.ask :=
        ⟨reserving.silent.catalog_eq, reserving.silent.flushed_eq⟩
      exact .failed (abandon catalog_eq flushed_eq clean silent reserving.dirty)
    refine .opened (WriteFile.slot_unused unused) admits ?_ ?_
    · rw [catalog_setWrite, ← catalog_eq]
      congr 1
      split
      · have emptied : (reserved.2.ask.contents c).Edits
            { reserved.2.contents c with size := 0, dirty := false } fun _ => [] :=
          ⟨rfl, rfl, rfl, rfl⟩
        rw [catalog_edit emptied]
        exact congrArg (·.edit c fun _ => []) reserving.silent.catalog_eq
      rw [edit_same]
      exact reserving.silent.catalog_eq
    split
    · exact reserving.silent.flushed_eq.trans flushed_eq
    · exact reserving.silent.flushed_eq.trans flushed_eq

/-- The data that an open finds in the file system. -/
def snapshot : Option Node → List UInt8
  | none => []
  | some node => if node.directory then [] else node.data.getD []

/-- Whether an open empties the file: it truncates or creates it. -/
def empties (flags : OpenFlags) (node : Option Node) : Bool :=
  flags.write && flags.trunc || node.isNone

/-- The name that an open looks for: one that only reads takes the node's. -/
def openPath (path : Path) (flags : OpenFlags) (node : Option Node) : Path :=
  if flags.write || flags.create then path else (node.map Node.path).getD path

theorem Opening.congr {d d' : List UInt8} {emptied : Bool}
    {r : Except Errno Handle × OpenFiles} (eq : f.contentFind p = none → d = d')
    (opening : f.Opening p d emptied r) : f.Opening p d' emptied r := by
  cases opening with
  | failed silent => exact .failed silent
  | @opened _ id _ unused admits catalog_eq flushed_eq =>
    refine .opened unused admits ?_ flushed_eq
    rw [catalog_eq]
    rcases admits with ⟨view, found, -, -⟩ | ⟨free, absent⟩
    · simp [Catalog.acquired, found]
    rw [eq]
    cases found : f.contentFind p with
    | none => rfl
    | some j =>
      obtain ⟨held, kept, named⟩ := contentFind_some found
      exact absurd named (absent j _ (views_eq held) kept)

variable (f) {node : Option Node} {off : Int} {room : Bool}

theorem openWriteRaw_spec (p : Path) (flags : OpenFlags) (busy : Bool) :
    f.Opening p (snapshot node) (empties flags node)
      (f.openWriteRaw p flags busy node room) := by
  unfold openWriteRaw
  split
  · exact .failed .refl
  split
  · exact .failed .refl
  rename_i access
  split
  · exact .failed .refl
  split
  · exact .failed .refl
  rename_i file
  split
  · exact .failed .refl
  rename_i creates
  split
  · exact .failed .refl
  rename_i d found
  split
  · exact .failed .refl
  split
  · exact .failed .refl
  rename_i id free
  have unused : (f.writeFiles id).used = false := by
    simpa using Fin.eq_true_of_find?_eq_some free
  have emptied : (flags.trunc || node.isNone && flags.create) = empties flags node := by
    revert access creates
    simp only [empties]
    generalize flags.read = read, flags.write = write, flags.trunc = trunc,
      flags.create = create, node.isNone = missing
    revert read write trunc create missing
    decide
  rw [emptied]
  refine Opening.congr (fun missing => ?_) (f.openWriteAt_spec unused)
  cases node with
  | none => simpa [snapshot, oldData] using found.symm
  | some node =>
    simp only [oldData, missing, Option.isNone_none, if_true] at found
    simp only [Option.any_some] at file
    simp [snapshot, file, found]

theorem openFlags_spec {busy : Bool} :
    f.Opening (openPath p flags node) (snapshot node) (empties flags node)
      (f.openFlags p flags busy node room) := by
  simp only [openFlags]
  split
  · exact .failed .refl
  split
  · exact .failed .refl
  split
  next writes =>
    rw [openPath, if_pos writes]
    exact f.openWriteRaw_spec p flags busy
  rename_i reads
  split
  · exact .failed .refl
  rename_i found
  have nameOf : openPath p flags (some found) = found.path := by
    rw [openPath, if_neg reads]
    rfl
  have kept : empties flags (some found) = false := by
    simp only [Bool.or_eq_true, Bool.not_eq_true, not_or] at reads
    simp [empties, reads.1]
  rw [nameOf, kept]
  split
  · exact .failed .refl
  split
  next directory =>
    rw [snapshot, if_pos directory]
    exact f.fileAlloc_spec found [] room
  rename_i file
  split
  · exact .failed .refl
  rename_i d read
  have allocated := f.fileAlloc_spec found d room
  have eq : snapshot (some found) = d := by
    rw [snapshot, if_neg file, read]
    rfl
  rw [eq]
  generalize f.fileAlloc found d room = r at allocated
  cases allocated with
  | failed silent => exact .failed silent
  | opened unused admits catalog_eq flushed_eq =>
    exact .opened unused admits catalog_eq flushed_eq

/-! ## Reading and writing -/

theorem fileRead_silent {len : Nat} : f.Silent (f.fileRead h len).2 := by
  cases h with
  | read id =>
    simp only [fileRead]
    split
    · exact .refl
    split
    · exact .refl
    · exact ⟨catalog_setRead_same rfl, rfl⟩
  | write id =>
    simp only [fileRead]
    split
    · exact .refl
    · exact ⟨catalog_setWrite_same rfl, rfl⟩

theorem fileSeek_silent {whence : Nat} : f.Silent (f.fileSeek h off whence).2 := by
  simp only [fileSeek]
  split
  · exact .refl
  split
  · exact .refl
  split
  · exact .refl
  split
  · exact .refl
  split
  · exact ⟨catalog_setRead_same rfl, rfl⟩
  · exact ⟨catalog_setWrite_same rfl, rfl⟩

/-- A call fails and changes nothing, or makes one change to one text. -/
inductive Editing (files : OpenFiles) {α : Type} (id : ContentId)
    (change : α → List UInt8 → List UInt8) : Except Errno α × OpenFiles → Prop
  | failed {errno : Errno} {after : OpenFiles} (silent : files.Silent after) :
      Editing files id change (.error errno, after)
  | edited {result : α} {after : OpenFiles}
      (catalog_eq : after.catalog = files.catalog.edit id (change result))
      (flushed_eq : after.flushed = files.flushed) : Editing files id change (.ok result, after)

theorem writeAt_spec (id : ContentId) (position : Nat) (bytes : List UInt8) (limit : Nat) :
    f.Editing id (fun count text => overwrite 0 text position (bytes.take count))
      (f.writeAt id position bytes limit) := by
  simp only [writeAt]
  split
  · exact .failed .refl
  split
  · exact .failed .refl
  have reserving := f.ensureWriteCapacity_spec id
    (position + (bytes.take (limit - position)).length)
  generalize f.ensureWriteCapacity id _ = reserved at reserving
  obtain ⟨ok, reserved⟩ := reserved
  cases ok with
  | false => exact .failed reserving.silent
  | true =>
    refine .edited ?_ reserving.silent.flushed_eq
    have taken : bytes.take (bytes.take (limit - position)).length =
        bytes.take (limit - position) := by
      simp [take_eq_take_iff]
    have eq := reserving.silent.catalog_eq
    rw [catalog_edit (edits_patched ..), taken, eq]

variable {f}

theorem edit_congr {change change' : List UInt8 → List UInt8}
    (eq : ∀ view, catalog.views id = some view → change view.text = change' view.text) :
    catalog.edit id change = catalog.edit id change' := by
  unfold edit
  split
  · rfl
  next view found => rw [eq view found]

theorem Editing.congr {α : Type} {change change' : α → List UInt8 → List UInt8}
    {r : Except Errno α × OpenFiles} (eq : ∀ value view, f.catalog.views id = some view →
      change value view.text = change' value view.text)
    (editing : f.Editing id change r) : f.Editing id change' r := by
  cases editing with
  | failed silent => exact .failed silent
  | edited catalog_eq flushed_eq => exact .edited (by rw [catalog_eq, edit_congr (eq _)]) flushed_eq

variable (f) {bytes : List UInt8} {limit : Nat}

theorem fileWrite_spec (id : WriteId) :
    f.Editing (f.writeFiles id).content ((f.writeFiles id).written bytes)
      (f.fileWrite (.write id) bytes limit) := by
  simp only [fileWrite]
  split
  · exact .failed .refl
  split
  next nothing =>
    subst nothing
    exact .edited edit_same.symm rfl
  rename_i some
  generalize place : (if (f.writeFiles id).append then
    (f.contents (f.writeFiles id).content).size
    else (f.writeFiles id).offset) = position
  have writing := f.writeAt_spec (f.writeFiles id).content position bytes limit
  have wanted : f.Editing (f.writeFiles id).content
      ((f.writeFiles id).written bytes)
      (f.writeAt (f.writeFiles id).content position bytes limit) := by
    refine writing.congr fun count view found => ?_
    have sizeOf : (f.contents (f.writeFiles id).content).size = view.text.length := by
      rw [(views_some found).2]
      simp [Content.bytes]
    rw [WriteFile.written, if_neg some, ← sizeOf, place]
  generalize f.writeAt (f.writeFiles id).content position bytes limit = r at wanted
  cases wanted with
  | failed silent => exact .failed silent
  | @edited count written catalog_eq flushed_eq =>
    refine .edited (Eq.trans ?_ catalog_eq) flushed_eq
    exact catalog_setWrite_same rfl

theorem filePwrite_spec {id : WriteId} :
    f.Editing (f.writeFiles id).content (pwritten off bytes)
      (f.filePwrite (.write id) bytes off limit) := by
  simp only [filePwrite]
  split
  · exact .failed .refl
  split
  · exact .failed .refl
  split
  next nothing =>
    subst nothing
    exact .edited edit_same.symm rfl
  next some =>
    refine Editing.congr (fun count view _ => ?_) (f.writeAt_spec _ off.toNat bytes limit)
    rw [pwritten, if_neg some]

theorem fileTruncate_spec {id : WriteId} {len limit : Nat} :
    f.Editing (f.writeFiles id).content (fun _ text => resize 0 text len)
      (f.fileTruncate (.write id) len limit) := by
  simp only [fileTruncate]
  split
  · exact .failed .refl
  split
  · exact .failed .refl
  split
  · exact .failed .refl
  have reserving := f.ensureWriteCapacity_spec (f.writeFiles id).content len
  generalize f.ensureWriteCapacity (f.writeFiles id).content len = reserved at reserving
  obtain ⟨ok, reserved⟩ := reserved
  cases ok with
  | false => exact .failed reserving.silent
  | true =>
    have eq := reserving.silent.catalog_eq
    refine .edited ?_ reserving.silent.flushed_eq
    rw [catalog_edit (edits_truncated ..), eq]

variable {f}

theorem contentOf_slot : f.contentOf h = (f.catalog.slots h).map Slot.content := by
  cases h with
  | read id =>
    rw [contentOf, slots_read, ReadFile.slot]
    split <;> rfl
  | write id =>
    rw [contentOf, slots_write, WriteFile.slot]
    split <;> rfl

theorem fileFlush_effect (sound : f.catalog.Sound) (h : Handle) :
    f.Effect (f.fileFlush h).2 f.catalog := by
  unfold fileFlush
  rw [contentOf_slot]
  cases found : f.catalog.slots h with
  | none => exact Silent.refl.effect
  | some slot =>
    obtain ⟨view, held⟩ := sound.held found
    exact contentFlush_effect (views_some held).1

variable (f)

theorem syncAll_effect : f.Effect f.syncAll f.catalog := by
  unfold syncAll
  generalize finRange 192 = ids
  induction ids generalizing f with
  | nil => exact Silent.refl.effect
  | cons id ids ih =>
    rw [foldl_cons]
    split
    next live =>
      have flushed := contentFlush_effect live.1
      have rest := ih (f.contentFlush id).2
      rw [flushed.catalog_eq] at rest
      exact flushed.trans rest
    · exact ih f

/-! ## Names -/

theorem promote_silent (t : Option ContentId) : f.Silent (f.promote t).2 := by
  cases t with
  | none => exact .refl
  | some id =>
    simp only [promote]
    split
    · exact .refl
    · exact (f.ensureWriteCapacity_spec id _).silent

theorem orphan_catalog (t : Option ContentId) :
    (f.orphan t).catalog = f.catalog.orphan t ∧
      (f.orphan t).flushed = f.flushed := by
  cases t with
  | none => exact ⟨rfl, rfl⟩
  | some id =>
    refine ⟨?_, rfl⟩
    simp only [orphan, Catalog.orphan, catalog_setContent]
    by_cases held : (f.contents id).refs = 0
    · rw [views_none held]
      simp only [view, held, if_true]
      rw [← views_none held, setView_self]
    rw [views_eq held]
    simp only [view, held]
    rfl

/-- What an unlink may answer: nothing happens, or the content loses its name. -/
inductive Unlinking (files : OpenFiles) (path : Path) (gone : Bool) :
    Except Errno Unit × OpenFiles → Prop
  | kept {result : Except Errno Unit} {after : OpenFiles} (silent : files.Silent after)
      (present : result = .ok () → gone = false) : Unlinking files path gone (result, after)
  | orphaned {result : Except Errno Unit} {after : OpenFiles}
      (catalog_eq : after.catalog = files.catalog.orphan (files.contentFind path))
      (flushed_eq : after.flushed = files.flushed) : Unlinking files path gone (result, after)

theorem unlinkContent_spec {gone : Bool} : f.Unlinking p gone (f.unlinkContent p gone) := by
  unfold unlinkContent
  have silent := f.promote_silent (f.contentFind p)
  dsimp only
  generalize f.promote (f.contentFind p) = promoted at silent
  obtain ⟨ok, promoted⟩ := promoted
  cases ok with
  | false => exact .kept silent nofun
  | true =>
    cases gone with
    | false => exact .kept ⟨silent.catalog_eq, silent.flushed_eq⟩ fun _ => rfl
    | true =>
      have eq : promoted.ask.catalog = f.catalog := silent.catalog_eq
      have orphaned := promoted.ask.orphan_catalog (f.contentFind p)
      rw [eq] at orphaned
      exact .orphaned orphaned.1 (orphaned.2.trans silent.flushed_eq)

theorem unlinkFile_spec (p : Path) (busy : Bool) (node : Option Node)
    (gone : Bool) : f.Unlinking p gone (f.unlinkFile p busy node gone) := by
  unfold unlinkFile
  split
  · exact .kept .refl nofun
  split
  · exact .kept .refl nofun
  split
  · exact .kept .refl nofun
  · exact f.unlinkContent_spec

theorem rename_catalog : (f.setContent id { f.contents id with path := p }).catalog =
      f.catalog.rename id p := by
  rw [catalog_setContent, Catalog.rename]
  by_cases held : (f.contents id).refs = 0
  · rw [views_none held]
    simp only [view, held, if_true]
    rw [← views_none held, setView_self]
  rw [views_eq held]
  simp only [view, held]
  rfl

/-- The catalog after a published rename: the old content of the new name is an orphan, and the
source has the name. -/
def renamed (files : OpenFiles) (oldPath newPath : Path) : Catalog :=
  match files.contentFind oldPath, copyProcessPath newPath with
  | some id, some copied => (files.catalog.orphan (files.contentFind newPath)).rename id copied
  | _, _ => files.catalog.orphan (files.contentFind newPath)

/-- Whether a rename is of a file, to another name that is published. -/
def publishes (oldPath newPath : Path) (world : Renaming) : Bool :=
  world.published && decide (oldPath ≠ newPath) && !world.source.any (·.directory)

/-- What a rename may answer: the names stay, or the rename is published. -/
inductive Rename (files : OpenFiles) (oldPath newPath : Path) (moves : Bool) :
    Except Errno Unit × OpenFiles → Prop
  | kept {result : Except Errno Unit} {after : OpenFiles}
      (effect : files.Effect after files.catalog) (refused : result = .ok () → moves = false) :
      Rename files oldPath newPath moves (result, after)
  | moved {result : Except Errno Unit} {after : OpenFiles}
      (effect : files.Effect after (files.renamed oldPath newPath)) :
      Rename files oldPath newPath moves (result, after)

theorem publishRename_catalog (newPath : Path) (source t : Option ContentId) :
    (f.publishRename newPath source t true).catalog =
        (match source, copyProcessPath newPath with
          | some id, some copied => (f.catalog.orphan t).rename id copied
          | _, _ => f.catalog.orphan t) ∧
      (f.publishRename newPath source t true).flushed = f.flushed := by
  have orphaned := f.orphan_catalog t
  unfold publishRename
  cases source with
  | none => exact orphaned
  | some id =>
    cases copyProcessPath newPath with
    | none => exact orphaned
    | some copied =>
      refine ⟨?_, orphaned.2⟩
      exact ((f.orphan t).rename_catalog).trans (by rw [orphaned.1])

variable {f}

theorem flushFound_effect (silent : f.Silent after) :
    f.Effect (after.flushFound (f.contentFind p)).2 f.catalog := by
  cases found : f.contentFind p with
  | none => exact silent.effect
  | some id =>
    have held := views_eq (contentFind_some found).1
    rw [← silent.catalog_eq] at held
    have flushed := contentFlush_effect (views_some held).1
    rw [silent.catalog_eq] at flushed
    exact silent.effect.trans flushed

theorem renameContents_spec (f : OpenFiles) (oldPath newPath : Path) {published : Bool} :
    f.Rename oldPath newPath published (f.renameContents oldPath newPath published) := by
  unfold renameContents
  have first := f.promote_silent (f.contentFind oldPath)
  dsimp only
  generalize f.promote (f.contentFind oldPath) = promoted at first
  obtain ⟨ok, promoted⟩ := promoted
  cases ok with
  | false => exact .kept first.effect nofun
  | true =>
    have second := promoted.promote_silent (f.contentFind newPath)
    dsimp only
    generalize promoted.promote (f.contentFind newPath) = both at second
    obtain ⟨ok, both⟩ := both
    cases ok with
    | false => exact .kept (first.trans second).effect nofun
    | true =>
      have silent := first.trans second
      have flushing := @flushFound_effect f both oldPath silent
      dsimp only
      generalize both.flushFound (f.contentFind oldPath) = flushed at flushing
      split
      · exact .kept flushing nofun
      cases published with
      | false => exact .kept (flushing.next flushing.catalog_eq rfl) fun _ => rfl
      | true =>
        have eq : flushed.2.ask.catalog = f.catalog := flushing.catalog_eq
        have done := flushed.2.ask.publishRename_catalog newPath
          (f.contentFind oldPath) (f.contentFind newPath)
        rw [eq] at done
        exact .moved (flushing.next done.1 done.2)

theorem renameFile_spec (f : OpenFiles) (oldPath newPath : Path) (w : Renaming) :
    f.Rename oldPath newPath (publishes oldPath newPath w)
      (f.renameFile oldPath newPath w) := by
  have failed (errno : Errno) :
      f.Rename oldPath newPath (publishes oldPath newPath w) (.error errno, f) :=
    .kept Silent.refl.effect nofun
  unfold renameFile
  split
  · exact failed _
  split
  · exact failed _
  rename_i source found
  split
  next eq => exact .kept Silent.refl.effect fun _ => by simp [publishes, eq]
  rename_i different
  split
  · exact failed _
  split
  next directory =>
    split
    · exact failed _
    split
    · exact failed _
    split
    · exact failed _
    split
    · exact failed _
    exact .kept (Effect.of_eq rfl rfl) fun _ => by simp [publishes, found, directory]
  rename_i file
  split
  · exact failed _
  split
  · exact failed _
  have moves : publishes oldPath newPath w = w.published := by
    simp [publishes, found, file, different]
  rw [moves]
  exact f.renameContents_spec oldPath newPath

end OpenFiles

end SrvrOS.Files
