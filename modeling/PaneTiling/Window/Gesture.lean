import PaneTiling.Window.Basic

/-!
Dragging dividers and tabs. While a drag lasts, every surface is hidden, pointer movements are only
collected, and each animation frame deals with what was collected since the last one. Releasing the
pointer commits the drag and shows the surfaces where they are now; losing the pointer is a release
with nothing collected.
-/

namespace PaneTiling

variable {α : Type} [Scalar α]

/-- What a pointer movement adds to a drag, and whether it needs a frame. -/
def Grab.follow (grab : Grab α) (x y : α) : Bool × Grab α :=
  match grab with
  | .divider g =>
    let step := g.divider.along (x - g.last.1) (y - g.last.2)
    let (request, moved) := g.moved.push (· + ·) step
    (request, .divider { g with last := (x, y), moved })
  | .tab g =>
    let (request, position) := g.position.push (fun _ latest => latest) (x, y)
    (request, .tab { g with position })

def Grab.forget : Grab α → Grab α
  | .divider g => .divider { g with moved := .empty }
  | .tab g => .tab { g with position := .empty, zone := none }

def DividerGrab.applyTo (grab : DividerGrab α) (tree : PaneTree α) :
    Except PaneTree.ResizeError (PaneTree α) :=
  match grab.moved.take.1 with
  | none => .ok tree
  | some pixels =>
    if grab.divider.span ≤ 0 then .ok tree
    else tree.resize grab.divider.path grab.divider.index (pixels / grab.divider.span)

def DividerGrab.settled (grab : DividerGrab α) : DividerGrab α :=
  { grab with moved := grab.moved.take.2 }

/-- Drops a tab of the workspace at a zone. A tab that is a pane already is lifted out of the tree
first; a drop that the tree does not take leaves everything as it was. -/
def Workspace.drop (ws : Workspace α) (now : Instant) (tab : TabId) (zone : DropZone α) :
    Workspace α :=
  if ws.HasTab tab ∧ zone.anchor ≠ tab then
    let base := ws.tree.bind (·.remove tab)
    match PaneTree.insert base zone.anchor tab zone.side with
    | some tree => { ws with tree := some tree }.activate now tab
    | none => ws
  else ws

namespace Window

def dividers (w : Window α) : List (Divider α) :=
  match w.frontWorkspace?.bind (·.tree) with
  | some tree => tree.dividers w.area w.gap
  | none => []

def dividerAt (w : Window α) (x y : α) : Option (Divider α) :=
  PaneTiling.dividerAt w.dividers x y w.hitPadding

def grabDivider (w : Window α) (x y : α) : Outcome α Bool :=
  if w.isDragging then w.quiet false
  else
    match w.front, w.dividerAt x y with
    | some workspace, some divider =>
      { w with grab := some (.divider ⟨workspace, divider, (x, y), .empty⟩) }.conceal true
    | _, _ => w.quiet false

def grabTab (w : Window α) (tab : TabId) : Outcome α Bool :=
  if w.isDragging then w.quiet false
  else
    match w.frontWorkspace? with
    | some ws =>
      if ws.HasTab tab then
        { w with grab := some (.tab ⟨ws.id, tab, .empty, none⟩) }.conceal true
      else w.quiet false
    | none => w.quiet false

def pointerMove (w : Window α) (x y : α) : Outcome α Unit :=
  match w.grab with
  | none => w.quiet ()
  | some grab =>
    let (request, grab) := grab.follow x y
    ⟨{ w with grab := some grab }, if request then [.frame] else [], ()⟩

def moveDivider (w : Window α) (grab : DividerGrab α) :
    Except PaneTree.ResizeError (Window α) :=
  match w.indexOf? grab.workspace with
  | none => .ok w
  | some index =>
    match w.workspaces[index]?.bind (·.tree) with
    | none => .ok w
    | some tree => do
      let tree ← grab.applyTo tree
      return w.modifyWorkspace index fun ws => { ws with tree := some tree }

def zoneUnder (w : Window α) (grab : TabGrab α) : Option (DropZone α) :=
  match grab.position.take.1 with
  | none => grab.zone
  | some (x, y) =>
    (w.workspace? grab.workspace).bind fun ws =>
      ws.active.bind fun active =>
        (DropZone.at? ws.tree active w.area w.gap x y).filter (·.anchor ≠ grab.tab)

def settle (w : Window α) (grab : TabGrab α) : TabGrab α :=
  { grab with position := grab.position.take.2, zone := w.zoneUnder grab }

def frame (w : Window α) : Except PaneTree.ResizeError (Outcome α Unit) :=
  match w.grab with
  | none => .ok (w.quiet ())
  | some (.divider grab) => do
    let moved ← w.moveDivider grab
    return { moved with grab := some (.divider grab.settled) }.quiet ()
  | some (.tab grab) => .ok ({ w with grab := some (.tab (w.settle grab)) }.quiet ())

def dropTab (w : Window α) (now : Clock) (grab : TabGrab α) : Window α :=
  match grab.zone, w.indexOf? grab.workspace with
  | some zone, some index => w.modifyWorkspace index (·.drop now grab.tab zone)
  | _, _ => w

def release (w : Window α) (now : Clock) : Except PaneTree.ResizeError (Outcome α Unit) :=
  match w.grab with
  | none => .ok (w.quiet ())
  | some (.divider grab) => do
    let moved ← { w with grab := none }.moveDivider grab
    return moved.present ()
  | some (.tab grab) =>
    .ok (({ w with grab := none }.dropTab now (w.settle grab)).present ())

def cancel (w : Window α) (now : Clock) : Except PaneTree.ResizeError (Outcome α Unit) :=
  { w with grab := w.grab.map Grab.forget }.release now

def dropPreview (w : Window α) : Option (DropZone α) :=
  match w.grab with
  | some (.tab grab) => grab.zone
  | _ => none

end Window

end PaneTiling
