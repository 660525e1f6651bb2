import SrvrOS.Files.Cataloged
import SrvrOS.Lib.Run

/-!
# Open files share one content per name

A session keeps for every content the text that it should have: what the open found that made it,
with each successful write and truncation since. The tables always agree with these texts, and only
the text of a name is written back.
-/

namespace SrvrOS.Files

open Lib Function Catalog Option Table OpenFiles

variable {c : Catalog} {p : Path} {r : Except Errno Unit × OpenFiles} {v' : View}
  {h : Handle}

/-- The calls on open files; `openNode` is the plain open system call. -/
inductive FileEvent where
  | openFlags (path : Path) (flags : OpenFlags) (busy : Bool) (node : Option Node) (room : Bool)
  | openWrite (path : Path) (flags : OpenFlags) (busy : Bool) (node : Option Node) (room : Bool)
  | openNode (node : Node) (data : List UInt8) (room : Bool)
  | reference (handle : Handle)
  | close (handle : Handle)
  | read (handle : Handle) (length : Nat)
  | pread (handle : Handle) (length : Nat) (offset : Int)
  | write (handle : Handle) (bytes : List UInt8) (limit : Nat)
  | pwrite (handle : Handle) (bytes : List UInt8) (offset : Int) (limit : Nat)
  | seek (handle : Handle) (offset : Int) (whence : Nat)
  | truncate (handle : Handle) (length limit : Nat)
  | flush (handle : Handle)
  | syncAll
  | unlink (path : Path) (busy : Bool) (node : Option Node) (gone : Bool)
  | rename (oldPath newPath : Path) (world : Renaming)

/-- What a call returns. -/
inductive Reply where
  | handle (result : Except Errno Handle)
  | bytes (result : Except Errno (List UInt8))
  | count (result : Except Errno Nat)
  | done (result : Except Errno Unit)
  | status (ok : Bool)
  | nothing

def OpenFiles.step (files : OpenFiles) : FileEvent → Reply × OpenFiles
  | .openFlags path flags busy node room =>
    let result := files.openFlags path flags busy node room
    (.handle result.1, result.2)
  | .openWrite path flags busy node room =>
    let result := files.openWriteRaw path flags busy node room
    (.handle result.1, result.2)
  | .openNode node data room =>
    let result := files.fileAlloc node data room
    (.handle result.1, result.2)
  | .reference handle => (.nothing, files.fileRef handle)
  | .close handle =>
    let result := files.fileClose handle
    (.status result.1, result.2)
  | .read handle length =>
    let result := files.fileRead handle length
    (.bytes result.1, result.2)
  | .pread handle length offset => (.bytes (files.filePread handle length offset), files)
  | .write handle bytes limit =>
    let result := files.fileWrite handle bytes limit
    (.count result.1, result.2)
  | .pwrite handle bytes offset limit =>
    let result := files.filePwrite handle bytes offset limit
    (.count result.1, result.2)
  | .seek handle offset whence =>
    let result := files.fileSeek handle offset whence
    (.count result.1, result.2)
  | .truncate handle length limit =>
    let result := files.fileTruncate handle length limit
    (.done result.1, result.2)
  | .flush handle =>
    let result := files.fileFlush handle
    (.status result.1, result.2)
  | .syncAll => (.nothing, files.syncAll)
  | .unlink path busy node gone =>
    let result := files.unlinkFile path busy node gone
    (.done result.1, result.2)
  | .rename oldPath newPath world =>
    let result := files.renameFile oldPath newPath world
    (.done result.1, result.2)

/-! ## The texts -/

/-- The text that each content should have. -/
abbrev Texts := ContentId → List UInt8

namespace Texts

/-- After an open: an emptied file has no text, and a content that nothing referred to starts
with the data that was found. -/
def opened (texts : Texts) (files : OpenFiles) (data : List UInt8) (emptied : Bool) :
    Except Errno Handle × OpenFiles → Texts
  | (.error _, _) => texts
  | (.ok handle, after) =>
    match after.contentOf handle with
    | none => texts
    | some id =>
      update texts id
        (if emptied then [] else if (files.contents id).refs = 0 then data else texts id)

/-- After a call that changes a text if it succeeds. -/
def changed {α : Type} (texts : Texts) (id : ContentId) (change : α → List UInt8 → List UInt8) :
    Except Errno α → Texts
  | .error _ => texts
  | .ok result => update texts id (change result (texts id))

def next (texts : Texts) (files : OpenFiles) : FileEvent → Texts
  | .openFlags path flags busy node room =>
    texts.opened files (snapshot node) (empties flags node)
      (files.openFlags path flags busy node room)
  | .openWrite path flags busy node room =>
    texts.opened files (snapshot node) (empties flags node)
      (files.openWriteRaw path flags busy node room)
  | .openNode node data room => texts.opened files data false (files.fileAlloc node data room)
  | .write (.write id) bytes limit =>
    texts.changed (files.writeFiles id).content ((files.writeFiles id).written bytes)
      (files.fileWrite (.write id) bytes limit).1
  | .pwrite (.write id) bytes offset limit =>
    texts.changed (files.writeFiles id).content (pwritten offset bytes)
      (files.filePwrite (.write id) bytes offset limit).1
  | .truncate (.write id) length limit =>
    texts.changed (files.writeFiles id).content (fun _ text => resize 0 text length)
      (files.fileTruncate (.write id) length limit).1
  | _ => texts

/-- Every content that is referred to has its text. -/
def Agree (texts : Texts) (catalog : Catalog) : Prop :=
  ∀ id view, catalog.views id = some view → view.text = texts id

end Texts

namespace OpenFiles

variable {f after : OpenFiles} {id : ContentId} {texts texts' : Texts}

/-! ## One call -/

/-- What one call keeps. -/
structure Turn (files after : OpenFiles) (texts texts' : Texts) : Prop where
  log : ∃ new, after.flushed = files.flushed ++ new ∧ ∀ entry ∈ new, files.WritesBack entry
  sound : after.catalog.Sound
  agree : texts'.Agree after.catalog
  orphans : ∀ id view view', files.catalog.views id = some view → view.orphan = true →
    after.catalog.views id = some view' → view'.orphan = true

theorem Turn.of_views (effect : f.Effect after c) (sound : c.Sound)
    (each : ∀ id v', c.views id = some v' → v'.text = texts' id ∧
      ∀ v, f.catalog.views id = some v → v.orphan = true → v'.orphan = true) :
    f.Turn after texts texts' := by
  obtain ⟨rfl, log⟩ := effect
  exact ⟨log, sound, fun id v hit => (each id v hit).1,
    fun id v v' hit orphan hit' => (each id v' hit').2 v hit orphan⟩

theorem Turn.of_texts (agree : texts.Agree f.catalog) (effect : f.Effect after c)
    (sound : c.Sound)
    (kept : ∀ id v', c.views id = some v' → ∃ v, f.catalog.views id = some v ∧
      v'.text = v.text ∧ (v.orphan = true → v'.orphan = true)) :
    f.Turn after texts texts := by
  refine .of_views effect sound fun id v' hit' => ?_
  obtain ⟨v, hit, text, stays⟩ := kept id v' hit'
  refine ⟨text.trans (agree id v hit), fun old seen orphan => ?_⟩
  rw [hit] at seen
  exact stays (some.inj seen ▸ orphan)

section Turn

variable (sound : f.catalog.Sound) (agree : texts.Agree f.catalog)
include sound agree

theorem Turn.of_effect (effect : f.Effect after f.catalog) : f.Turn after texts texts :=
  .of_texts agree effect sound fun _ v hit => ⟨v, hit, rfl, fun orphan => orphan⟩

theorem Turn.of_silent (silent : f.Silent after) : f.Turn after texts texts :=
  .of_effect sound agree silent.effect

end Turn

theorem Turn.of_setView {new : View} (agree : texts.Agree f.catalog) (effect : f.Effect after c)
    (sound : c.Sound) (views : c.views = (f.catalog.setView id (some new)).views)
    (orphan : ∀ v, f.catalog.views id = some v → v.orphan = true → new.orphan = true) :
    f.Turn after texts (update texts id new.text) := by
  refine .of_views effect sound fun j v hit => ?_
  rw [views] at hit
  rcases setView_some hit with ⟨rfl, same⟩ | ⟨apart, seen⟩
  · cases same
    exact ⟨by rw [update_self], orphan⟩
  rw [update_of_ne apart]
  refine ⟨agree j v seen, fun old was isOrphan => ?_⟩
  rw [seen] at was
  exact some.inj was ▸ isOrphan

theorem edit_setView (v : View) (change : List UInt8 → List UInt8) :
    (c.setView id (some v)).edit id change =
      c.setView id (some { v with text := change v.text }) := by
  have hit : (c.setView id (some v)).views id = some v := by simp [setView]
  rw [edit, hit]
  exact setView_setView ..

section

variable (sound : f.catalog.Sound) (agree : texts.Agree f.catalog)

include sound agree

theorem Turn.opening {d : List UInt8} {emptied : Bool} {r : Except Errno Handle × OpenFiles}
    (opening : f.Opening p d emptied r) :
    f.Turn r.2 texts (texts.opened f d emptied r) := by
  cases opening with
  | failed silent => exact .of_silent sound agree silent
  | @opened h id after unused admits catalog_eq flushed_eq =>
    rw [edit_setView] at catalog_eq
    have free := sound.admitted d admits
    have sound' : ((f.catalog.setView id (some { f.catalog.acquired id p d with
        text := if emptied then [] else (f.catalog.acquired id p d).text })).setSlot
          h (some ⟨1, id⟩)).Sound :=
      sound.opened unused f.catalog.acquired_refs fun _ => free
    have content : after.contentOf h = some id := by
      rw [contentOf_slot, catalog_eq]
      simp [setSlot]
    have textOf : (if emptied then [] else if (f.contents id).refs = 0 then d else texts id) =
        (if emptied then [] else (f.catalog.acquired id p d).text) := by
      by_cases held : (f.contents id).refs = 0
      · simp [held, acquired, views_none held]
      rw [if_neg held, ← agree id _ (views_eq held)]
      simp [acquired, views_eq held]
    simp only [Texts.opened, content, textOf]
    refine .of_setView agree (.of_eq catalog_eq flushed_eq) sound' rfl fun v hit orphan => ?_
    rcases admits with ⟨v', hit', kept, -⟩ | ⟨free, -⟩
    · rw [hit] at hit'
      rw [some.inj hit'] at orphan
      rw [kept] at orphan
      simp at orphan
    · rw [hit] at free
      simp at free

theorem Turn.editing {α : Type} {change : α → List UInt8 → List UInt8}
    {r : Except Errno α × OpenFiles} (editing : f.Editing id change r) :
    f.Turn r.2 texts (texts.changed id change r.1) := by
  cases editing with
  | failed silent => exact .of_silent sound agree silent
  | @edited value after catalog_eq flushed_eq =>
    have sound' := @Catalog.Sound.edit f.catalog id sound (change value)
    cases seen : f.catalog.views id with
    | none =>
      rw [edit, seen] at catalog_eq
      have silent : f.Silent after := ⟨catalog_eq, flushed_eq⟩
      have turn := Turn.of_silent sound agree silent
      refine ⟨turn.log, turn.sound, fun j v hit => ?_, turn.orphans⟩
      have apart : j ≠ id := by
        rintro rfl
        rw [catalog_eq, seen] at hit
        simp at hit
      simp only [Texts.changed, update_of_ne apart]
      exact turn.agree j v hit
    | some v =>
      rw [edit, seen] at catalog_eq sound'
      rw [Texts.changed, ← agree id v seen]
      refine .of_setView agree (.of_eq catalog_eq flushed_eq) sound' rfl fun v' hit orphan => ?_
      rw [seen] at hit
      exact some.inj hit ▸ orphan

theorem Turn.reference {h : Handle} : f.Turn (f.fileRef h) texts texts := by
  obtain ⟨catalog_eq, flushed_eq⟩ := f.fileRef_catalog
  have same : (f.catalog.reference h).views = f.catalog.views := by
    unfold Catalog.reference
    split <;> rfl
  refine .of_texts agree (.of_eq catalog_eq flushed_eq) sound.reference fun id v hit => ?_
  rw [same] at hit
  exact ⟨v, hit, rfl, fun orphan => orphan⟩

end

variable {t : ContentId} {c : Catalog}

theorem release_kept (hit : (c.release t).views id = some v') :
    ∃ v, c.views id = some v ∧ v'.text = v.text ∧
      (v.orphan = true → v'.orphan = true) := by
  cases seen : c.views t with
  | none =>
    rw [release, seen] at hit
    exact ⟨v', hit, rfl, fun orphan => orphan⟩
  | some v =>
    rw [release_eq seen] at hit
    rcases setView_some hit with ⟨rfl, lowered⟩ | ⟨-, hit⟩
    · obtain ⟨-, rfl⟩ := lowered_some lowered
      exact ⟨v, seen, rfl, fun orphan => orphan⟩
    · exact ⟨v', hit, rfl, fun orphan => orphan⟩

theorem Turn.close (sound : f.catalog.Sound) (agree : texts.Agree f.catalog)
    {h : Handle} : f.Turn (f.fileClose h).2 texts texts := by
  refine .of_texts agree (fileClose_effect sound) sound.close fun id v' hit => ?_
  unfold Catalog.close at hit
  split at hit
  · exact ⟨v', hit, rfl, fun orphan => orphan⟩
  next slot _ =>
    split at hit
    · exact ⟨v', hit, rfl, fun orphan => orphan⟩
    · exact release_kept hit

theorem orphan_kept {t : Option ContentId} (hit : (c.orphan t).views id = some v') :
    ∃ v, c.views id = some v ∧ v'.text = v.text ∧ v'.path = v.path ∧
      (v'.orphan = false → t ≠ some id) ∧ (v.orphan = true → v'.orphan = true) := by
  unfold Catalog.orphan at hit
  split at hit
  · exact ⟨v', hit, rfl, rfl, nofun, fun orphan => orphan⟩
  split at hit
  next free =>
    refine ⟨v', hit, rfl, rfl, fun _ here => ?_, fun orphan => orphan⟩
    rw [some.inj here, hit] at free
    simp at free
  rename_i v seen
  rcases setView_some hit with ⟨rfl, ⟨⟩⟩ | ⟨apart, hit⟩
  · exact ⟨v, seen, rfl, rfl, by simp, fun _ => rfl⟩
  exact ⟨v', hit, rfl, rfl, fun _ same => apart (some.inj same).symm,
    fun orphan => orphan⟩

theorem rename_kept (hit : (c.rename t p).views id = some v') :
    ∃ v, c.views id = some v ∧ v'.text = v.text ∧ v'.orphan = v.orphan := by
  unfold Catalog.rename at hit
  split at hit
  · exact ⟨v', hit, rfl, rfl⟩
  next v seen =>
    rcases setView_some hit with ⟨rfl, ⟨⟩⟩ | ⟨-, hit⟩
    · exact ⟨v, seen, rfl, rfl⟩
    · exact ⟨v', hit, rfl, rfl⟩

section

variable (sound : f.catalog.Sound)

include sound

theorem Turn.unlinking {gone : Bool}
    (agree : texts.Agree f.catalog) (unlinking : f.Unlinking p gone r) :
    f.Turn r.2 texts texts := by
  cases unlinking with
  | kept silent _ => exact .of_silent sound agree silent
  | orphaned catalog_eq flushed_eq =>
    refine .of_texts agree (.of_eq catalog_eq flushed_eq) (sound.orphan _) fun id v' hit => ?_
    obtain ⟨v, seen, text, -, -, stays⟩ := orphan_kept hit
    exact ⟨v, seen, text, stays⟩

theorem orphan_free {id : ContentId} : (f.catalog.orphan (f.contentFind p)).Free id p := by
  intro j v' _ hit kept equal
  obtain ⟨v, seen, -, samePath, apart, stays⟩ := orphan_kept hit
  have kept' : v.orphan = false := by
    cases orphan : v.orphan with
    | false => rfl
    | true => exact absurd (stays orphan) (by simp [kept])
  have named := samePath ▸ equal
  cases t : f.contentFind p with
  | none => exact contentFind_none t j v seen kept' named
  | some holder =>
    obtain ⟨held, unlinked, pathOf⟩ := contentFind_some t
    refine sound.named holder _ (views_eq held) unlinked j v ?_ seen kept'
      (named.trans pathOf.symm)
    rintro rfl
    exact apart kept t

theorem Turn.moved {oldPath newPath : Path} {moves : Bool}
    (agree : texts.Agree f.catalog) (outcome : f.Rename oldPath newPath moves r) :
    f.Turn r.2 texts texts := by
  cases outcome with
  | kept effect _ => exact .of_effect sound agree effect
  | moved effect =>
    have orphaned := sound.orphan (f.contentFind newPath)
    unfold renamed at effect
    split at effect
    next id copied _ copy =>
      have same : copied = newPath := by
        unfold copyProcessPath at copy
        split at copy <;> simp_all
      subst same
      refine .of_texts agree effect (orphaned.rename (orphan_free sound))
        fun j v' hit => ?_
      obtain ⟨v, seen, text, orphan⟩ := rename_kept hit
      obtain ⟨old, was, text', -, -, stays⟩ := orphan_kept seen
      exact ⟨old, was, text.trans text', fun isOrphan => orphan ▸ stays isOrphan⟩
    refine .of_texts agree effect orphaned fun j v' hit => ?_
    obtain ⟨v, seen, text, -, -, stays⟩ := orphan_kept hit
    exact ⟨v, seen, text, stays⟩

theorem step_turn (agree : texts.Agree f.catalog)
    (e : FileEvent) : f.Turn (f.step e).2 texts (texts.next f e) := by
  have still := Turn.of_silent sound agree Silent.refl
  cases e with
  | openFlags p flags busy node room =>
    exact .opening sound agree f.openFlags_spec
  | openWrite p flags busy node room =>
    exact .opening sound agree (f.openWriteRaw_spec p flags busy)
  | openNode node d room => exact .opening sound agree (f.fileAlloc_spec node d room)
  | reference h => exact .reference sound agree
  | close h => exact .close sound agree
  | read h len => exact .of_silent sound agree f.fileRead_silent
  | pread => exact still
  | write h b limit =>
    cases h with
    | read => exact still
    | write id => exact .editing sound agree (f.fileWrite_spec id)
  | pwrite h b offset limit =>
    cases h with
    | read id =>
      have same : (f.filePwrite (.read id) b offset limit).2 = f := by
        unfold filePwrite
        split <;> rfl
      change f.Turn (f.filePwrite (.read id) b offset limit).2 texts texts
      rw [same]
      exact still
    | write id => exact .editing sound agree f.filePwrite_spec
  | seek h offset whence =>
    exact .of_silent sound agree f.fileSeek_silent
  | truncate h len limit =>
    cases h with
    | read => exact still
    | write id => exact .editing sound agree f.fileTruncate_spec
  | flush h => exact .of_effect sound agree (fileFlush_effect sound h)
  | syncAll => exact .of_effect sound agree f.syncAll_effect
  | unlink p busy node gone =>
    exact .unlinking sound agree (f.unlinkFile_spec p busy node gone)
  | rename oldPath newPath world =>
    exact .moved sound agree (f.renameFile_spec oldPath newPath world)

end

def offset (files : OpenFiles) : Handle → Nat
  | .read id => (files.readFiles id).offset
  | .write id => (files.writeFiles id).offset

/-- A description of a file that is open for reading. -/
def Readable (files : OpenFiles) : Handle → Prop
  | .read id => (files.readFiles id).directory = false
  | .write id => (files.writeFiles id).readable = true

theorem contentOf_held (sound : f.catalog.Sound) (hit : f.contentOf h = some id) :
    (f.contents id).refs ≠ 0 := by
  rw [contentOf_slot, map_eq_some_iff] at hit
  obtain ⟨slot, seen, rfl⟩ := hit
  obtain ⟨v, held⟩ := sound.held seen
  exact (views_some held).1

variable {b : List UInt8} {len : Nat} {v : View}

theorem fileRead_ok : (f.fileRead h len).1 = .ok b ↔
    ∃ id, f.contentOf h = some id ∧ f.Readable h ∧
      b = slice (f.contents id).bytes (f.offset h) len := by
  cases h with
  | read id =>
    cases used : (f.readFiles id).used <;> cases directory : (f.readFiles id).directory <;>
      simp [fileRead, contentOf, Readable, offset, used, directory, Content.readAt_eq, eq_comm]
  | write id =>
    cases used : (f.writeFiles id).used <;> cases readable : (f.writeFiles id).readable <;>
      simp [fileRead, contentOf, Readable, offset, used, readable, Content.readAt_eq, eq_comm]

theorem filePread_ok {offset : Int} : f.filePread h len offset = .ok b ↔
    (0 ≤ offset ∧ len < 2 ^ 63) ∧ ∃ id, f.contentOf h = some id ∧ f.Readable h ∧
      b = slice (f.contents id).bytes offset.toNat len := by
  unfold filePread
  split
  · simp
    omega
  rename_i fits
  rw [and_iff_right (by omega)]
  cases h with
  | read id =>
    cases used : (f.readFiles id).used <;> cases directory : (f.readFiles id).directory <;>
      simp [contentOf, Readable, used, directory, Content.readAt_eq, eq_comm]
  | write id =>
    cases used : (f.writeFiles id).used <;> cases readable : (f.writeFiles id).readable <;>
      simp [contentOf, Readable, used, readable, Content.readAt_eq, eq_comm]

theorem Editing.unchanged {α : Type} {change : α → List UInt8 → List UInt8}
    {r : Except Errno α × OpenFiles} (editing : f.Editing id change r) {errno : Errno}
    (failed : r.1 = .error errno) : r.2.catalog = f.catalog := by
  cases editing with
  | failed silent => exact silent.catalog_eq
  | edited => simp at failed

/-- A content whose name is gone. -/
def Orphan (files : OpenFiles) (id : ContentId) : Prop :=
  (files.contents id).refs ≠ 0 ∧ (files.contents id).unlinked = true

theorem orphan_of_views (hit : f.catalog.views id = some v)
    (orphan : v.orphan = true) : f.Orphan id := by
  obtain ⟨held, rfl⟩ := views_some hit
  exact ⟨held, orphan⟩

theorem views_orphan (hit : c.views id = some v) :
    (c.orphan (some id)).views id = some { v with orphan := true } := by
  simp [Catalog.orphan, hit, setView]

theorem Unlinking.orphan (unlinking : f.Unlinking p true r) (done : r.1 = .ok ())
    (hit : f.contentFind p = some id) : r.2.Orphan id := by
  cases unlinking with
  | kept _ present => cases present done
  | orphaned catalog_eq _ =>
    have seen := views_orphan (views_eq (contentFind_some hit).1)
    rw [← hit, ← catalog_eq] at seen
    exact orphan_of_views seen rfl

theorem Rename.orphan {oldPath newPath : Path} (outcome : f.Rename oldPath newPath true r)
    (done : r.1 = .ok ()) (different : oldPath ≠ newPath)
    (hit : f.contentFind newPath = some id) : r.2.Orphan id := by
  cases outcome with
  | kept _ refused => cases refused done
  | @moved _ after effect =>
    have seen := views_orphan (views_eq (contentFind_some hit).1)
    have catalog_eq := effect.catalog_eq
    unfold renamed at catalog_eq
    rw [hit] at catalog_eq
    split at catalog_eq
    next source copied isSource _ =>
      have apart : id ≠ source := by
        rintro rfl
        exact different ((contentFind_some isSource).2.2.symm.trans (contentFind_some hit).2.2)
      have moved : after.catalog.views id = (f.catalog.orphan (some id)).views id := by
        rw [catalog_eq, Catalog.rename]
        split
        · rfl
        · simp [setView, apart]
      exact orphan_of_views (moved.trans seen) rfl
    rw [← catalog_eq] at seen
    exact orphan_of_views seen rfl

end OpenFiles

/-! ## Whole runs -/

/-- The tables beside the texts that the contents should have. -/
structure Session where
  files : OpenFiles
  texts : Texts := fun _ => []

namespace Session

variable {session : Session} {id : ContentId}

def step (session : Session) (event : FileEvent) : Reply × Session :=
  let result := session.files.step event
  (result.1, ⟨result.2, session.texts.next session.files event⟩)

/-- Nothing is open; the environment will give the answers. -/
def start (answers : Nat → Answer) : Session := { files := { answers := answers } }

def after (answers : Nat → Answer) (events : List FileEvent) : Session :=
  (run step (start answers) events).2

structure Good (session : Session) : Prop where
  sound : session.files.catalog.Sound
  agree : session.texts.Agree session.files.catalog

theorem start_good (answers : Nat → Answer) : (start answers).Good := by
  have views (id) : (start answers).files.catalog.views id = none := views_none rfl
  have slots (h) : (start answers).files.catalog.slots h = none := by cases h <;> rfl
  refine ⟨⟨fun id v hit => ?_, fun id v hit => ?_, fun id => ?_,
    fun h slot hit => ?_⟩, fun id v hit => ?_⟩
  · simp [views] at hit
  · simp [views] at hit
  · have reads : total (weight id) (start answers).files.catalog.readSlots = 0 :=
      total_eq_zero.mpr fun index => by simp [readSlots, slots, weight]
    have writes : total (weight id) (start answers).files.catalog.writeSlots = 0 :=
      total_eq_zero.mpr fun index => by simp [writeSlots, slots, weight]
    rw [holders, reads, writes, Catalog.refs]
    rfl
  · simp [slots] at hit
  · simp [views] at hit

theorem Good.step (good : session.Good) (e : FileEvent) : (session.step e).2.Good := by
  have turn := step_turn good.sound good.agree e
  exact ⟨turn.sound, turn.agree⟩

theorem after_good (answers : Nat → Answer) (events : List FileEvent) :
    (after answers events).Good :=
  run_invariant Session.step Good (fun _ e good => good.step e) (start_good answers) events

theorem Good.orphan (good : session.Good) (orphan : session.files.Orphan id) {more : List FileEvent}
    (referred : ∀ early late, more = early ++ late → late ≠ [] →
      ((run Session.step session early).2.files.contents id).refs ≠ 0) :
    (run Session.step session more).2.files.flushed.filter (·.1 = id) =
      session.files.flushed.filter (·.1 = id) := by
  induction more generalizing session with
  | nil => rfl
  | cons e rest ih =>
    have turn := step_turn good.sound good.agree e
    obtain ⟨new, log, allowed⟩ := turn.log
    have none : new.filter (·.1 = id) = [] := by
      refine List.filter_eq_nil_iff.mpr fun entry member here => ?_
      obtain ⟨v, hit, kept, -⟩ := allowed entry member
      rw [of_decide_eq_true here, views_eq orphan.1] at hit
      rw [← some.inj hit] at kept
      simp [orphan.2] at kept
    have one : (session.step e).2.files.flushed.filter (·.1 = id) =
        session.files.flushed.filter (·.1 = id) := by
      change List.filter _ (session.files.step e).2.flushed = _
      rw [log, List.filter_append, none, List.append_nil]
    cases rest with
    | nil => exact one
    | cons second rest =>
      have held := referred [e] (second :: rest) rfl (by simp)
      have stays := turn.orphans id _ _ (views_eq orphan.1) orphan.2
        (views_eq held)
      rw [← one]
      refine ih (good.step e) ⟨held, stays⟩ fun early late split nonempty => ?_
      exact referred (e :: early) late (by rw [split]; rfl) nonempty

/-- What holds of a session at every moment. -/
structure Faithful (session : Session) : Prop where
  /-- A name has at most one content that is referred to and not an orphan. -/
  named : ∀ id other, (session.files.contents id).refs ≠ 0 →
    (session.files.contents other).refs ≠ 0 → (session.files.contents id).unlinked = false →
    (session.files.contents other).unlinked = false →
    (session.files.contents id).path = (session.files.contents other).path → id = other
  /-- The bytes of a content are its text. -/
  texts : ∀ id, (session.files.contents id).refs ≠ 0 →
    (session.files.contents id).bytes = session.texts id
  /-- A read through a readable description, and no other, succeeds: it returns a slice of the
  text, from the offset of the description. -/
  read : ∀ handle length bytes,
    (session.step (.read handle length)).1 = .bytes (.ok bytes) ↔
      ∃ id, session.files.contentOf handle = some id ∧ session.files.Readable handle ∧
        bytes = slice (session.texts id) (session.files.offset handle) length
  /-- A positional read returns a slice of the text, from the offset it is given. -/
  pread : ∀ handle length offset bytes,
    (session.step (.pread handle length offset)).1 = .bytes (.ok bytes) ↔
      (0 ≤ offset ∧ length < 2 ^ 63) ∧
        ∃ id, session.files.contentOf handle = some id ∧ session.files.Readable handle ∧
          bytes = slice (session.texts id) offset.toNat length
  /-- A call that fails to write changes nothing. -/
  failedWrite : ∀ handle bytes limit errno,
    (session.step (.write handle bytes limit)).1 = .count (.error errno) →
      (session.step (.write handle bytes limit)).2.files.catalog = session.files.catalog
  failedPwrite : ∀ handle bytes offset limit errno,
    (session.step (.pwrite handle bytes offset limit)).1 = .count (.error errno) →
      (session.step (.pwrite handle bytes offset limit)).2.files.catalog = session.files.catalog
  failedTruncate : ∀ handle length limit errno,
    (session.step (.truncate handle length limit)).1 = .done (.error errno) →
      (session.step (.truncate handle length limit)).2.files.catalog = session.files.catalog
  /-- What a call writes back is the text of a content under its own name. -/
  writtenBack : ∀ event, ∃ new,
    (session.step event).2.files.flushed = session.files.flushed ++ new ∧
      ∀ entry ∈ new, (session.files.contents entry.1).refs ≠ 0 ∧
        (session.files.contents entry.1).unlinked = false ∧
        entry.2 = ((session.files.contents entry.1).path, session.texts entry.1)
  /-- An unlink that takes the name makes an orphan. -/
  unlinked : ∀ path busy node id, session.files.contentFind path = some id →
    (session.step (.unlink path busy node true)).1 = .done (.ok ()) →
      (session.step (.unlink path busy node true)).2.files.Orphan id
  /-- So does a published rename of a file over the content that had the new name. -/
  replaced : ∀ oldPath newPath world id, session.files.contentFind newPath = some id →
    publishes oldPath newPath world = true →
    (session.step (.rename oldPath newPath world)).1 = .done (.ok ()) →
      (session.step (.rename oldPath newPath world)).2.files.Orphan id
  /-- From then on, until the last reference to it goes, nothing of it is written back. -/
  orphans : ∀ id, session.files.Orphan id → ∀ more : List FileEvent,
    (∀ early late, more = early ++ late → late ≠ [] →
      ((run Session.step session early).2.files.contents id).refs ≠ 0) →
    (run Session.step session more).2.files.flushed.filter (·.1 = id) =
      session.files.flushed.filter (·.1 = id)

theorem Good.bytes_eq (good : session.Good) (held : (session.files.contents id).refs ≠ 0) :
    (session.files.contents id).bytes = session.texts id :=
  good.agree id _ (views_eq held)

theorem one_content_per_name (answers : Nat → Answer) (events : List FileEvent) :
    (after answers events).Faithful := by
  have good := after_good answers events
  generalize after answers events = session at good
  have held {handle : Handle} {id : ContentId}
      (found : session.files.contentOf handle = some id) :
      (session.files.contents id).bytes = session.texts id :=
    good.bytes_eq (contentOf_held good.sound found)
  refine ⟨fun id other held held' kept kept' same => ?_, fun id => good.bytes_eq,
    fun handle length bytes => ?_, fun handle length offset bytes => ?_,
    fun handle bytes limit errno failed => ?_, fun handle bytes offset limit errno failed => ?_,
    fun handle length limit errno failed => ?_, fun event => ?_,
    fun path busy node id found done => ?_, fun oldPath newPath world id found moves done => ?_,
    fun id orphan more => good.orphan orphan⟩
  · by_contra different
    exact good.sound.named other _ (views_eq held') kept' id _ different
      (views_eq held) kept same
  · refine Reply.bytes.injEq _ _ ▸ fileRead_ok.trans (exists_congr fun id => ?_)
    exact and_congr_right fun found => by rw [held found]
  · refine Reply.bytes.injEq _ _ ▸ filePread_ok.trans (and_congr_right' (exists_congr fun id => ?_))
    exact and_congr_right fun found => by rw [held found]
  · cases handle with
    | read => rfl
    | write id =>
      exact (session.files.fileWrite_spec id).unchanged (Reply.count.inj failed)
  · cases handle with
    | read id =>
      change (session.files.filePwrite (.read id) bytes offset limit).2.catalog = _
      unfold filePwrite
      split <;> rfl
    | write id =>
      exact session.files.filePwrite_spec.unchanged (Reply.count.inj failed)
  · cases handle with
    | read => rfl
    | write id =>
      exact session.files.fileTruncate_spec.unchanged (Reply.done.inj failed)
  · obtain ⟨new, log, allowed⟩ := (step_turn good.sound good.agree event).log
    refine ⟨new, log, fun entry member => ?_⟩
    obtain ⟨view, found, kept, shape⟩ := allowed entry member
    obtain ⟨refs, rfl⟩ := views_some found
    exact ⟨refs, kept, good.bytes_eq refs ▸ shape⟩
  · exact (session.files.unlinkFile_spec path busy node true).orphan (Reply.done.inj done) found
  have outcome := session.files.renameFile_spec oldPath newPath world
  rw [moves] at outcome
  have different : oldPath ≠ newPath := by
    simp only [publishes, Bool.and_eq_true, Bool.not_eq_true', decide_eq_true_eq] at moves
    exact moves.1.2
  exact outcome.orphan (Reply.done.inj done) different found

end Session

end SrvrOS.Files
