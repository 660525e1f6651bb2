import SrvrOS.Lib.Checked

/-!
# The frames of windows

`deskd/scene.c` moves and resizes windows so that a part of each stays in reach. An outer `none` is
a value that its type cannot hold; an inner `none` is the 0 of a refused call.
-/

namespace SrvrOS.Scene

open Lib

structure Rect where
  (x y w h : Int)

/-- The edges that a call names; it is refused when other bits are set. -/
structure Edges where
  (left right top bottom : Bool)

def resizeClamp (value lo hi : Int) : Int :=
  if value < lo then lo else if hi < value then hi else value

/-- The size of the screen and of the window that both operations on a frame ask for. -/
def fits (sw sh : Int) (r : Rect) : Bool :=
  160 ≤ sw && 156 ≤ sh && sw ≤ 16384 && sh ≤ 16384 &&
    282 ≤ r.w && 285 ≤ r.h && r.w ≤ 1440 + 2 && r.h ≤ 900 + 45

/-- The first half of `desktop_window_resize`, which gives the new `x` and `w`. -/
def resizeWidth (sw : Int) (r : Rect) (e : Edges) (dx right : Int) : Option (Int × Int) := do
  if e.left then
    let lo ← int64 (right - (1440 + 2))
    let hi ← int64 (right - 282)
    let edge ← int32 (sw - 160)
    let hi := if edge < hi then edge else hi
    let lo := if hi < lo then hi else lo
    let x ← int32 (resizeClamp (← int64 (r.x + dx)) lo hi)
    return (x, ← int32 (right - x))
  else if e.right then
    let low ← int64 (160 - r.x)
    let low := if low < 282 then 282 else low
    let low := if 1440 + 2 < low then 1440 + 2 else low
    return (r.x, ← int32 (resizeClamp (← int64 (r.w + dx)) low (1440 + 2)))
  else return (r.x, r.w)

def resizeHeight (sh : Int) (r : Rect) (e : Edges) (dy bottom : Int) : Option (Int × Int) := do
  if e.top then
    let lo ← int64 (bottom - (900 + 45))
    let hi ← int64 (bottom - 285)
    let lo := if lo < 44 then 44 else lo
    let edge ← int32 (sh - 112)
    let hi := if edge < hi then edge else hi
    let lo := if hi < lo then hi else lo
    let y ← int32 (resizeClamp (← int64 (r.y + dy)) lo hi)
    return (y, ← int32 (bottom - y))
  else if e.bottom then
    return (r.y, ← int32 (resizeClamp (← int64 (r.h + dy)) 285 (900 + 45)))
  else return (r.y, r.h)

def desktopWindowResize (sw sh : Int) (r : Rect) (e : Edges) (dx dy : Int) :
    Option (Option Rect) := do
  if !fits sw sh r || !(e.left || e.right || e.top || e.bottom) || e.left && e.right ||
      e.top && e.bottom then return none
  let right ← int64 (r.x + r.w)
  let bottom ← int64 (r.y + r.h)
  let (x, w) ← resizeWidth sw r e (resizeClamp dx (-65536) 65536) right
  let (y, h) ← resizeHeight sh r e (resizeClamp dy (-65536) 65536) bottom
  return some { x, y, w, h }

def desktopWindowDrag (width height : Int) (original : Rect) (x y : Int) :
    Option (Option Rect) := do
  if !fits width height original then return none
  let left ← int32 (160 - original.w)
  let right ← int32 (width - 160)
  let bottom ← int32 (height - 80 - 32)
  let x ← int32 (resizeClamp x left right)
  let y ← int32 (resizeClamp y 44 bottom)
  return some { original with x, y }

def desktopDragRestore (width height : Int) (placed restore : Rect) (grabx graby x y : Int) :
    Option (Option Rect) := do
  if placed.w ≤ 0 ∨ restore.w ≤ 0 then return none
  let offset := (← int64 (grabx * restore.w)).tdiv placed.w
  let offset := if offset < 0 then 0 else offset
  let offset := if restore.w < offset then restore.w else offset
  desktopWindowDrag width height restore (← int64 (x - offset)) (← int64 (y - graby))

inductive Placement
  | tileLeft | tileRight | center | maximize
  deriving DecidableEq

/-- The end of `desktop_window_placement`, from the size on. -/
def placeFrame (sw availableH : Int) (placement : Placement) (width height : Int) :
    Option (Option Rect) := do
  let width := min width (1440 + 2)
  let height := min height (900 + 45)
  let beside ← int32 (sw - width)
  let below ← int32 (availableH - height)
  let x ← int32 (if placement = .tileLeft then 8 else if placement = .tileRight then beside - 8
    else beside.tdiv 2)
  let y ← int32 (52 + if placement = .center then below.tdiv 2 else 0)
  return some { x, y, w := width, h := height }

def desktopWindowPlacement (sw sh : Int) (original : Rect) (placement : Placement) :
    Option (Option Rect) := do
  if sw < 1 ∨ sh < 1 ∨ 16384 < sw ∨ 16384 < sh then return none
  let availableW ← int32 (sw - 16)
  let availableH ← int32 (sh - 132)
  if availableW < 282 ∨ availableH < 285 then return none
  if placement = .center then
    placeFrame sw availableH placement (min (max original.w 282) availableW)
      (min (max original.h 285) availableH)
  else
    let tiles ← int32 (availableW - 8)
    let width := if placement = .maximize then availableW else tiles.tdiv 2
    if width < 282 then return none
    placeFrame sw availableH placement width availableH

/-- A frame that can be reached on a screen of the given size. -/
def Good (sw sh : Int) (r : Rect) : Prop :=
  282 ≤ r.w ∧ r.w ≤ 1440 + 2 ∧ 285 ≤ r.h ∧ r.h ≤ 900 + 45 ∧
    160 - r.w ≤ r.x ∧ r.x ≤ sw - 160 ∧ 44 ≤ r.y ∧ r.y ≤ sh - 112

/-- An edge that a resize does not name keeps its place. -/
def Edges.kept (e : Edges) (before after : Rect) : Prop :=
  (!e.left → after.x = before.x) ∧ (!e.right → after.x + after.w = before.x + before.w) ∧
    (!e.top → after.y = before.y) ∧ (!e.bottom → after.y + after.h = before.y + before.h)

/-- Nothing overflows, and what is returned is good. -/
abbrev Safe (sw sh : Int) (act : Option (Option Rect)) : Prop :=
  Gives (fun out => ∀ r ∈ out, Good sw sh r) act

variable {sw sh : Int} {r : Rect} {e : Edges}

theorem resizeWidth_gives {dx : Int} (good : Good sw sh r) (small : sw ≤ 16384)
    (apart : ¬(e.left ∧ e.right)) (low : -65536 ≤ dx) (high : dx ≤ 65536) :
    Gives (fun (x, w) => 282 ≤ w ∧ w ≤ 1440 + 2 ∧ 160 - w ≤ x ∧ x ≤ sw - 160 ∧
      (!e.left → x = r.x) ∧ (!e.right → x + w = r.x + r.w))
      (resizeWidth sw r e dx (r.x + r.w)) := by
  obtain ⟨w, w', -, -, x, x', -⟩ := good
  unfold resizeWidth
  split
  · refine .fit (by omega) (.fit (by omega) ?_)
    refine .fit (by omega) (.fit (by omega) ?_)
    simp only [resizeClamp]
    refine .fit (by omega) (.fit (by omega) ⟨_, rfl, ?_⟩)
    simp_all
    omega
  split
  · refine .fit (by omega) (.fit (by omega) ?_)
    simp only [resizeClamp]
    refine .fit (by omega) ⟨_, rfl, ?_⟩
    simp_all
    omega
  · exact ⟨_, rfl, w, w', x, x', fun _ => rfl, fun _ => rfl⟩

theorem resizeHeight_gives {dy : Int} (good : Good sw sh r) (small : sh ≤ 16384) (large : 156 ≤ sh)
    (apart : ¬(e.top ∧ e.bottom)) (low : -65536 ≤ dy) (high : dy ≤ 65536) :
    Gives (fun (y, h) => 285 ≤ h ∧ h ≤ 900 + 45 ∧ 44 ≤ y ∧ y ≤ sh - 112 ∧
      (!e.top → y = r.y) ∧ (!e.bottom → y + h = r.y + r.h))
      (resizeHeight sh r e dy (r.y + r.h)) := by
  obtain ⟨-, -, h, h', -, -, y, y'⟩ := good
  unfold resizeHeight
  split
  · refine .fit (by omega) (.fit (by omega) ?_)
    refine .fit (by omega) (.fit (by omega) ?_)
    simp only [resizeClamp]
    refine .fit (by omega) (.fit (by omega) ⟨_, rfl, ?_⟩)
    simp_all
    omega
  split
  · refine .fit (by omega) ?_
    simp only [resizeClamp]
    refine .fit (by omega) ⟨_, rfl, ?_⟩
    simp_all
    omega
  · exact ⟨_, rfl, h, h', y, y', fun _ => rfl, fun _ => rfl⟩

theorem resize_gives (good : Good sw sh r) (dx dy : Int) :
    Gives (fun out => ∀ r' ∈ out, Good sw sh r' ∧ e.kept r r')
      (desktopWindowResize sw sh r e dx dy) := by
  have clamped (d : Int) : -65536 ≤ resizeClamp d (-65536) 65536 ∧
      resizeClamp d (-65536) 65536 ≤ 65536 := by
    unfold resizeClamp
    omega
  unfold desktopWindowResize
  split
  · exact ⟨none, rfl, by simp⟩
  next admitted =>
    simp [fits] at admitted
    obtain ⟨w, w', h, h', x, x', y, y'⟩ := id good
    refine .fit (by omega) (.fit (by omega) ?_)
    refine .bind (resizeWidth_gives good (by omega) (by simp_all) (clamped dx).1 (clamped dx).2) ?_
    rintro ⟨newX, newW⟩ ⟨hw, hw', hx, hx', left, right⟩
    refine .bind (resizeHeight_gives good (by omega) (by omega) (by simp_all) (clamped dy).1
      (clamped dy).2) ?_
    rintro ⟨newY, newH⟩ ⟨hh, hh', hy, hy', top, bottom⟩
    refine ⟨_, rfl, ?_⟩
    rintro _ ⟨⟩
    exact ⟨⟨hw, hw', hh, hh', hx, hx', hy, hy'⟩, left, right, top, bottom⟩

theorem drag_gives (good : Good sw sh r) (x y : Int) :
    Safe sw sh (desktopWindowDrag sw sh r x y) := by
  unfold desktopWindowDrag
  split
  · exact ⟨none, rfl, by simp⟩
  next admitted =>
    simp [fits] at admitted
    obtain ⟨w, w', h, h', -⟩ := good
    refine .fit (by omega) (.fit (by omega) (.fit (by omega) ?_))
    simp only [resizeClamp]
    refine .fit (by omega) (.fit (by omega) ⟨_, rfl, ?_⟩)
    rintro _ ⟨⟩
    simp only [Good]
    omega

theorem restore_gives (good : Good sw sh r) (placed : Rect) (grabx graby x y : Int32) :
    Safe sw sh (desktopDragRestore sw sh placed r grabx.toInt graby.toInt x.toInt y.toInt) := by
  have inside (n : Int32) : -2 ^ 31 ≤ n.toInt ∧ n.toInt < 2 ^ 31 := ⟨n.le_toInt, n.toInt_lt⟩
  have hx := inside x
  have hy := inside y
  have hg := inside graby
  have hw : 0 ≤ r.w ∧ r.w ≤ 1442 := by
    obtain ⟨w, w', -⟩ := good
    omega
  unfold desktopDragRestore
  split
  · exact ⟨none, rfl, by simp⟩
  have low := Int.mul_le_mul_of_nonneg_right (inside grabx).1 hw.1
  have high := Int.mul_le_mul_of_nonneg_right (Int.le_of_lt (inside grabx).2) hw.1
  refine .fit (by omega) ?_
  generalize (grabx.toInt * r.w).tdiv placed.w = off
  exact .fit (by omega) (.fit (by omega) (drag_gives good _ _))

theorem placeFrame_gives {w h : Int} (placement : Placement) (low : 282 ≤ w) (high : w ≤ sw - 16)
    (tall : 285 ≤ h) (short : h ≤ sh - 132) (small : sw ≤ 16384 ∧ sh ≤ 16384) :
    Safe sw sh (placeFrame sw (sh - 132) placement w h) := by
  refine .fit (by omega) (.fit (by omega) ?_)
  rw [Int.tdiv_eq_ediv_of_nonneg (by omega), Int.tdiv_eq_ediv_of_nonneg (by omega)]
  refine .fit (by omega) (.fit (by omega) ⟨_, rfl, ?_⟩)
  rintro _ ⟨⟩
  simp only [Good]
  omega

theorem placement_gives (placement : Placement) :
    Safe sw sh (desktopWindowPlacement sw sh r placement) := by
  unfold desktopWindowPlacement
  split
  · exact ⟨none, rfl, by simp⟩
  refine .fit (by omega) (.fit (by omega) ?_)
  split
  · exact ⟨none, rfl, by simp⟩
  split
  · exact placeFrame_gives _ (by omega) (by omega) (by omega) (by omega) (by omega)
  refine .fit (by omega) ?_
  rw [Int.tdiv_eq_ediv_of_nonneg (by omega)]
  have wide : (if placement = .maximize then sw - 16 else (sw - 16 - 8) / 2) ≤ sw - 16 := by omega
  generalize (if placement = .maximize then sw - 16 else (sw - 16 - 8) / 2) = w at *
  dsimp only
  split
  · exact ⟨none, rfl, by simp⟩
  · exact placeFrame_gives _ (by omega) (by omega) (by omega) (by omega) (by omega)

/-- A call on the frame of a window. -/
inductive Call (sw sh : Int)
  | resize (e : Edges) (dx dy : Int)
  | drag (x y : Int)
  | restore (frame : { r // Good sw sh r }) (grabx graby x y : Int32)
  | place (placement : Placement)

def Call.apply (r : Rect) : Call sw sh → Option (Option Rect)
  | resize e dx dy => desktopWindowResize sw sh r e dx dy
  | drag x y => desktopWindowDrag sw sh r x y
  | restore frame grabx graby x y =>
    desktopDragRestore sw sh r frame grabx.toInt graby.toInt x.toInt y.toInt
  | place placement => desktopWindowPlacement sw sh r placement

/-- The frames that calls produce, each from the one before. -/
def frames (r : Rect) : List (Call sw sh) → Option (List Rect)
  | [] => some []
  | call :: rest => do
    match ← call.apply r with
    | none => frames r rest
    | some next => return next :: (← frames next rest)

theorem apply_gives (good : Good sw sh r) (call : Call sw sh) : Safe sw sh (call.apply r) := by
  cases call with
  | resize e dx dy =>
    obtain ⟨out, eq, holds⟩ := resize_gives good dx dy
    exact ⟨out, eq, fun r' mem => (holds r' mem).1⟩
  | drag x y => exact drag_gives good x y
  | restore frame grabx graby x y => exact restore_gives frame.2 r grabx graby x y
  | place placement => exact placement_gives placement

theorem frames_give (good : Good sw sh r) (calls : List (Call sw sh)) :
    Gives (fun out => ∀ r' ∈ out, Good sw sh r') (frames r calls) := by
  induction calls generalizing r with
  | nil => exact ⟨[], rfl, by simp⟩
  | cons call rest ih =>
    refine .bind (apply_gives good call) fun out holds => ?_
    cases out with
    | none => exact ih good
    | some next =>
      refine .bind (ih (holds next rfl)) fun later all => ⟨_, rfl, ?_⟩
      exact List.forall_mem_cons.mpr ⟨holds next rfl, all⟩

/-- Windows stay in reach: no value overflows, every frame that a call produces is good, and a
resize leaves the edges that it does not name. -/
theorem windows_reachable (sw sh : Int) (r : { r // Good sw sh r }) (calls : List (Call sw sh)) :
    Gives (fun out => ∀ r' ∈ out, Good sw sh r') (frames r calls) ∧
      ∀ e dx dy, Gives (fun out => ∀ r' ∈ out, Good sw sh r' ∧ e.kept r r')
        (desktopWindowResize sw sh r e dx dy) :=
  ⟨frames_give r.2 calls, fun _ => resize_gives r.2⟩

theorem windows_reachable_sample :
    let window : Rect := ⟨100, 100, 640, 480⟩
    let calls : List (Call 1024 768) :=
      [.drag (-4000) 9000, .place .maximize, .resize ⟨false, true, false, false⟩ 5000 0]
    Good 1024 768 window ∧ ∃ out, frames window calls = some out ∧ out.length = 3 ∧
      ∀ r ∈ out, Good 1024 768 r := by
  intro window calls
  have good : Good 1024 768 window := by simp [Good, window]
  obtain ⟨out, eq, holds⟩ := (windows_reachable 1024 768 ⟨window, good⟩ calls).1
  refine ⟨good, out, eq, ?_, holds⟩
  have three : (frames window calls).map List.length = some 3 := by decide
  rw [eq] at three
  exact Option.some.inj three

end SrvrOS.Scene
