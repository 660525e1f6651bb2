import SrvrOS.Files.OpenFiles
import SrvrOS.Lib.Table

/-!
# The catalog of open files

What the file tables are for, without their flags and buffers: a content that is referred to has a
name, which may be gone, and a text; an open description counts its references and names a content.
-/

namespace SrvrOS.Files

open Lib Function Table

/-- A content that is referred to. -/
structure View where
  refs : Nat
  orphan : Bool
  path : Path
  text : List UInt8

/-- An open description in use. -/
structure Slot where
  refs : Nat
  content : ContentId

/-- The contents and the descriptions in use. -/
structure Catalog where
  views : ContentId → Option View
  slots : Handle → Option Slot

namespace Catalog

variable {c : Catalog} {id : ContentId} {h : Handle} {s : Slot} {new v : View}

def setView (catalog : Catalog) (id : ContentId) (view : Option View) : Catalog :=
  { catalog with views := update catalog.views id view }

def setSlot (catalog : Catalog) (handle : Handle) (slot : Option Slot) : Catalog :=
  { catalog with slots := update catalog.slots handle slot }

@[simp] theorem setView_self : c.setView id (c.views id) = c := by
  simp [setView]

@[simp] theorem setView_setView (first second : Option View) :
    (c.setView id first).setView id second = c.setView id second := by
  simp [setView]

@[simp] theorem setSlot_self (c : Catalog) (h : Handle) : c.setSlot h (c.slots h) = c := by
  simp [setSlot]

/-! ## What the calls do -/

def View.lowered (view : View) : Option View :=
  if view.refs = 1 then none else some { view with refs := view.refs - 1 }

def release (catalog : Catalog) (id : ContentId) : Catalog :=
  match catalog.views id with
  | none => catalog
  | some view => catalog.setView id (View.lowered view)

def edit (catalog : Catalog) (id : ContentId) (change : List UInt8 → List UInt8) : Catalog :=
  match catalog.views id with
  | none => catalog
  | some view => catalog.setView id (some { view with text := change view.text })

def orphan (catalog : Catalog) : Option ContentId → Catalog
  | none => catalog
  | some id =>
    match catalog.views id with
    | none => catalog
    | some view => catalog.setView id (some { view with orphan := true })

def rename (catalog : Catalog) (id : ContentId) (path : Path) : Catalog :=
  match catalog.views id with
  | none => catalog
  | some view => catalog.setView id (some { view with path := path })

def reference (catalog : Catalog) (handle : Handle) : Catalog :=
  match catalog.slots handle with
  | none => catalog
  | some slot => catalog.setSlot handle (some { slot with refs := slot.refs + 1 })

/-- A reference to a description goes; the last one takes the description with it. -/
def close (catalog : Catalog) (handle : Handle) : Catalog :=
  match catalog.slots handle with
  | none => catalog
  | some slot =>
    if slot.refs - 1 ≠ 0 then
      catalog.setSlot handle (some { slot with refs := slot.refs - 1 })
    else (catalog.release slot.content).setSlot handle none

/-- What a content looks like after one more acquisition. -/
def acquired (catalog : Catalog) (id : ContentId) (path : Path) (data : List UInt8) : View :=
  match catalog.views id with
  | some view => { view with refs := view.refs + 1 }
  | none => { refs := 1, orphan := false, path := path, text := data }

/-- A path may be opened on the content that has the name, or else on an unused one. -/
def Admits (catalog : Catalog) (path : Path) (id : ContentId) : Prop :=
  (∃ view, catalog.views id = some view ∧ view.orphan = false ∧ view.path = path) ∨
    (catalog.views id = none ∧
      ∀ other view, catalog.views other = some view → view.orphan = false → view.path ≠ path)

/-! ## Soundness -/

def refs (catalog : Catalog) (id : ContentId) : Nat := (catalog.views id).elim 0 View.refs

def weight (id : ContentId) (slot : Option Slot) : Nat :=
  if slot.map Slot.content = some id then 1 else 0

def readSlots (catalog : Catalog) (id : ReadId) : Option Slot := catalog.slots (.read id)

def writeSlots (catalog : Catalog) (id : WriteId) : Option Slot := catalog.slots (.write id)

/-- The number of descriptions that name a content. -/
def holders (catalog : Catalog) (id : ContentId) : Nat :=
  total (weight id) catalog.readSlots + total (weight id) catalog.writeSlots

/-- No content but one may have the name. -/
def Free (catalog : Catalog) (id : ContentId) (path : Path) : Prop :=
  ∀ other view, other ≠ id → catalog.views other = some view → view.orphan = false →
    view.path ≠ path

/-- Every name has one content. -/
def Named (catalog : Catalog) : Prop :=
  ∀ id view, catalog.views id = some view → view.orphan = false → catalog.Free id view.path

/-- Every name has one content, and every count is exact. -/
structure Sound (catalog : Catalog) : Prop where
  live : ∀ id view, catalog.views id = some view → 0 < view.refs
  named : catalog.Named
  counted : ∀ id, catalog.refs id = catalog.holders id
  positive : ∀ handle slot, catalog.slots handle = some slot → 0 < slot.refs

@[simp] theorem holders_setView (j : ContentId) (v : Option View) :
    (c.setView id v).holders j = c.holders j := rfl

theorem holders_setSlot (c : Catalog) (h : Handle) (s : Option Slot) (id : ContentId) :
    (c.setSlot h s).holders id + weight id (c.slots h) =
      c.holders id + weight id s := by
  cases h with
  | read read =>
    have moved := total_update (weight id) c.readSlots read s
    have changed : (c.setSlot (.read read) s).readSlots =
        update c.readSlots read s := by
      funext j
      by_cases here : j = read <;> simp [readSlots, setSlot, here]
    have kept : (c.setSlot (.read read) s).writeSlots = c.writeSlots := by
      funext write
      simp [writeSlots, setSlot]
    rw [holders, holders, changed, kept]
    change _ + weight id (c.readSlots read) = _
    omega
  | write write =>
    have moved := total_update (weight id) c.writeSlots write s
    have changed : (c.setSlot (.write write) s).writeSlots =
        update c.writeSlots write s := by
      funext j
      by_cases here : j = write <;> simp [writeSlots, setSlot, here]
    have kept : (c.setSlot (.write write) s).readSlots = c.readSlots := by
      funext read
      simp [readSlots, setSlot]
    rw [holders, holders, changed, kept]
    change _ + weight id (c.writeSlots write) = _
    omega

theorem Sound.held (sound : c.Sound) (hit : c.slots h = some s) :
    ∃ v, c.views s.content = some v := by
  have moved := c.holders_setSlot h none s.content
  have one : weight s.content (c.slots h) = 1 := by simp [weight, hit]
  have counted := sound.counted s.content
  cases seen : c.views s.content with
  | some v => exact ⟨v, rfl⟩
  | none =>
    have zero : c.refs s.content = 0 := by simp [refs, seen]
    have nothing : weight s.content none = 0 := by simp [weight]
    omega

theorem refs_setView (c : Catalog) (id j : ContentId) (v : Option View) :
    (c.setView id v).refs j =
      if j = id then v.elim 0 View.refs else c.refs j := by
  by_cases here : j = id <;> simp [refs, setView, here]

theorem setView_some {j : ContentId} {set : Option View}
    (seen : (c.setView id set).views j = some v) :
    (j = id ∧ set = some v) ∨ (j ≠ id ∧ c.views j = some v) := by
  by_cases here : j = id
  · subst here
    exact .inl ⟨rfl, by simpa [setView] using seen⟩
  · exact .inr ⟨here, by simpa [setView, here] using seen⟩

theorem Named.setView (named : c.Named) (free : new.orphan = false → c.Free id new.path) :
    (c.setView id (some new)).Named := by
  intro first v seen kept j v' different seen' kept' equal
  rcases setView_some seen with ⟨rfl, ⟨⟩⟩ | ⟨apart, old⟩
  · rcases setView_some seen' with ⟨here, -⟩ | ⟨-, old'⟩
    · exact different here
    · exact free kept j v' different old' kept' equal
  rcases setView_some seen' with ⟨rfl, ⟨⟩⟩ | ⟨-, old'⟩
  · exact free kept' first v apart old kept equal.symm
  · exact named first v old kept j v' different old' kept' equal

theorem live_setView (live : ∀ id v, c.views id = some v → 0 < v.refs) (pos : 0 < new.refs) :
    ∀ j v, (c.setView id (some new)).views j = some v → 0 < v.refs := by
  refine (forall_update_iff _ fun _ seen => ∀ v : View, seen = some v → 0 < v.refs).mpr
    ⟨?_, fun j _ => live j⟩
  rintro v ⟨⟩
  exact pos

theorem positive_setSlot (pos : ∀ h s, c.slots h = some s → 0 < s.refs)
    {new : Option Slot} (one : ∀ s, new = some s → 0 < s.refs) :
    ∀ j s, (c.setSlot h new).slots j = some s → 0 < s.refs :=
  (forall_update_iff _ fun _ seen => ∀ s : Slot, seen = some s → 0 < s.refs).mpr
    ⟨one, fun j _ => pos j⟩

section

variable (sound : c.Sound)

include sound

/-- A content may change as long as no other content has its new name. -/
theorem Sound.replace (hit : c.views id = some v)
    (same : new.refs = v.refs) (free : new.orphan = false → c.Free id new.path) :
    (c.setView id (some new)).Sound := by
  refine ⟨live_setView sound.live (same ▸ sound.live id v hit), sound.named.setView free,
    fun j => ?_, sound.positive⟩
  rw [refs_setView]
  have counted := sound.counted j
  by_cases here : j = id
  · subst here
    simp only [refs, hit] at counted
    simpa [same] using counted
  · simpa [here] using counted

theorem Sound.edit (change : List UInt8 → List UInt8) : (c.edit id change).Sound := by
  unfold Catalog.edit
  split
  · exact sound
  next v hit =>
    have free := sound.named id v hit
    exact sound.replace hit rfl fun kept => free kept

theorem Sound.orphan (target : Option ContentId) : (c.orphan target).Sound := by
  unfold Catalog.orphan
  split
  · exact sound
  next id =>
    split
    · exact sound
    next v hit =>
      refine sound.replace hit rfl fun kept => ?_
      simp at kept

variable {path : Path}

theorem Sound.rename (free : c.Free id path) : (c.rename id path).Sound := by
  unfold Catalog.rename
  split
  · exact sound
  next v hit => exact sound.replace hit rfl fun _ => free

theorem Sound.recount {new : Slot} (hit : c.slots h = some s) (same : new.content = s.content)
    (pos : 0 < new.refs) : (c.setSlot h (some new)).Sound := by
  refine ⟨sound.live, sound.named, fun id => ?_, positive_setSlot sound.positive ?_⟩
  · have moved := c.holders_setSlot h (some new) id
    have equal : weight id (some new) = weight id (c.slots h) := by
      simp [weight, hit, same]
    have counted : (c.setSlot h (some new)).refs id = c.holders id :=
      sound.counted id
    omega
  · rintro s ⟨⟩
    exact pos

theorem Sound.reference : (c.reference h).Sound := by
  unfold Catalog.reference
  split
  · exact sound
  next s hit => exact sound.recount hit rfl (Nat.succ_pos _)

end

theorem lowered_refs : (View.lowered v).elim 0 View.refs = v.refs - 1 := by
  unfold View.lowered
  split
  next one => simp [one]
  · rfl

theorem lowered_some (lowered : View.lowered v = some new) :
    v.refs ≠ 1 ∧ new = { v with refs := v.refs - 1 } := by
  unfold View.lowered at lowered
  split at lowered
  · simp at lowered
  next several => exact ⟨several, (Option.some.inj lowered).symm⟩

@[simp] theorem release_slots : (c.release id).slots = c.slots := by
  unfold release
  split <;> rfl

theorem release_eq (hit : c.views id = some v) : c.release id = c.setView id (View.lowered v) := by
  rw [release, hit]

theorem Sound.lowered (sound : c.Sound) (hit : c.views id = some v) :
    (∀ j v', (c.release id).views j = some v' → 0 < v'.refs) ∧
      (c.release id).Named := by
  have pos := sound.live id v hit
  rw [release_eq hit]
  cases lowered : View.lowered v with
  | some new =>
    obtain ⟨several, rfl⟩ := lowered_some lowered
    refine ⟨live_setView sound.live (by dsimp only; omega), sound.named.setView fun kept => ?_⟩
    exact sound.named id v hit kept
  | none =>
    have rest (j v') (seen : (c.setView id none).views j = some v') :
        c.views j = some v' := by
      rcases setView_some seen with ⟨-, ⟨⟩⟩ | ⟨-, old⟩
      exact old
    exact ⟨fun j v' seen => sound.live j v' (rest j v' seen),
      fun first view₁ seen kept j view₂ different seen' =>
        sound.named first view₁ (rest first view₁ seen) kept j view₂ different
          (rest j view₂ seen')⟩

theorem Sound.last (sound : c.Sound) (hit : c.slots h = some s) :
    ((c.release s.content).setSlot h none).Sound := by
  obtain ⟨v, held⟩ := sound.held hit
  obtain ⟨live, named⟩ := sound.lowered held
  refine ⟨live, named, fun id => ?_, ?_⟩
  · rw [release_eq held]
    have moved := (c.setView s.content (View.lowered v)).holders_setSlot h none id
    have before : weight id ((c.setView s.content (View.lowered v)).slots h) =
        if id = s.content then 1 else 0 := by
      change weight id (c.slots h) = _
      simp [weight, hit, eq_comm]
    have nothing : weight id none = 0 := by simp [weight]
    rw [holders_setView, before, ← sound.counted id] at moved
    have lowered := c.refs_setView s.content id (View.lowered v)
    rw [lowered_refs] at lowered
    change (c.setView s.content (View.lowered v)).refs id = _
    split at lowered
    next here =>
      have refsOf : c.refs id = v.refs := by simp [refs, here, held]
      rw [if_pos here] at moved
      omega
    next apart =>
      rw [if_neg apart] at moved
      omega
  · exact positive_setSlot (by simpa using sound.positive) (by simp)

theorem close_content {j : Handle} (hit : ((c.close h).slots j).map Slot.content = some id) :
    (c.slots j).map Slot.content = some id := by
  unfold close at hit
  split at hit
  · exact hit
  next s seen =>
    by_cases here : j = h
    · subst here
      split at hit <;> simp_all [setSlot]
    · split at hit <;> simpa [setSlot, here] using hit

theorem Sound.close (sound : c.Sound) : (c.close h).Sound := by
  unfold Catalog.close
  split
  · exact sound
  next s hit =>
    split
    next several => exact sound.recount hit rfl (Nat.pos_of_ne_zero several)
    · exact sound.last hit

theorem Sound.opened (sound : c.Sound) (unused : c.slots h = none)
    (one : new.refs = c.refs id + 1) (free : new.orphan = false → c.Free id new.path) :
    ((c.setView id (some new)).setSlot h (some ⟨1, id⟩)).Sound := by
  refine ⟨live_setView sound.live (by omega), sound.named.setView free, fun j => ?_,
    positive_setSlot sound.positive ?_⟩
  · have moved := (c.setView id (some new)).holders_setSlot h (some ⟨1, id⟩) j
    have before : weight j ((c.setView id (some new)).slots h) = 0 := by
      change weight j (c.slots h) = 0
      simp [weight, unused]
    have after : weight j (some ⟨1, id⟩ : Option Slot) = if j = id then 1 else 0 := by
      simp [weight, eq_comm]
    rw [holders_setView, before, after, ← sound.counted j] at moved
    have lifted := c.refs_setView id j (some new)
    change (c.setView id (some new)).refs j = _
    split at lifted
    next here =>
      rw [if_pos here] at moved
      rw [here] at moved ⊢
      simp only [Option.elim_some] at lifted
      rw [here] at lifted
      omega
    next apart =>
      rw [if_neg apart] at moved
      omega
  · rintro s ⟨⟩
    exact Nat.one_pos

theorem acquired_refs (c : Catalog) {id : ContentId} {data : List UInt8} :
    (c.acquired id path data).refs = c.refs id + 1 := by
  unfold acquired refs
  split <;> simp [*]

theorem Sound.admitted (sound : c.Sound) (data : List UInt8)
    (admits : c.Admits path id) : c.Free id (c.acquired id path data).path := by
  rcases admits with ⟨v, hit, kept, -⟩ | ⟨free, none⟩
  · simp only [acquired, hit]
    exact sound.named id v hit kept
  · simp only [acquired, free]
    exact fun j v _ => none j v

end Catalog

end SrvrOS.Files
