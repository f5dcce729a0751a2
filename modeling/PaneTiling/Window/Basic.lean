import PaneTiling.Workspace
import PaneTiling.DropZone
import PaneTiling.FrameBatch
import PaneTiling.Settings.Basic

/-!
A window: its workspaces, the one in front, the area that panes may take, and what the pointer has
hold of. The window never draws; it asks the host to place the native surfaces of its tabs, and an
operation either leaves what is to be seen as it was or asks for it anew.
-/

namespace PaneTiling

structure DividerGrab (α : Type) where
  workspace : WorkspaceId
  divider : Divider α
  /-- Where the pointer was last seen. -/
  last : α × α
  /-- The pixels moved along the divider's axis. -/
  moved : FrameBatch α
deriving BEq

structure TabGrab (α : Type) where
  workspace : WorkspaceId
  tab : TabId
  /-- Where the pointer is. -/
  position : FrameBatch (α × α)
  zone : Option (DropZone α)
deriving BEq

inductive Grab (α : Type)
  | divider (grab : DividerGrab α)
  | tab (grab : TabGrab α)
deriving BEq

structure Window (α : Type) where
  workspaces : List (Workspace α)
  front : Option WorkspaceId
  area : Rect α
  /-- From the coordinates of the area to those of the host. -/
  offset : α × α
  gap : α
  hitPadding : α
  /-- Milliseconds without use after which a tab is suspended. -/
  suspendAfter : Nat
  /-- Milliseconds without use after which a suspended tab is destroyed. -/
  destroyAfter : Nat
  /-- A page that the program draws itself covers the area. -/
  covered : Bool
  grab : Option (Grab α)
deriving BEq

/-- What the host is to show: the panes and their rectangles, none to hide every surface; the tab
that has the focus; and where the area lies. -/
structure Placement (α : Type) where
  panes : List (TabId × Rect α)
  focus : Option TabId
  offset : α × α
deriving BEq, DecidableEq, Repr, Inhabited

inductive HostRequest (α : Type)
  | position (placement : Placement α)
  | frame
deriving BEq, DecidableEq, Repr, Inhabited

/-- What an operation leaves behind: the window, what it asks of the host, and its answer. -/
structure Outcome (α β : Type) where
  window : Window α
  requests : List (HostRequest α)
  value : β

namespace Window

variable {α : Type}

def indexOf? (w : Window α) (id : WorkspaceId) : Option Nat := w.workspaces.findIdx? (·.id = id)

def workspace? (w : Window α) (id : WorkspaceId) : Option (Workspace α) :=
  w.workspaces.find? (·.id = id)

/-- The first workspace that has a tab. -/
def indexOfTab? (w : Window α) (tab : TabId) : Option Nat :=
  w.workspaces.findIdx? fun ws => ws.HasTab tab

def frontIndex? (w : Window α) : Option Nat := w.front.bind w.indexOf?

def frontWorkspace? (w : Window α) : Option (Workspace α) := w.front.bind w.workspace?

def modifyWorkspace (w : Window α) (index : Nat) (change : Workspace α → Workspace α) : Window α :=
  { w with workspaces := w.workspaces.modify index change }

def isDragging (w : Window α) : Bool := w.grab.isSome

def focus (w : Window α) : Option TabId := w.frontWorkspace?.bind (·.active)

def quiet {β : Type} (w : Window α) (value : β) : Outcome α β := ⟨w, [], value⟩

@[simp]
theorem window_quiet {β : Type} (w : Window α) (value : β) : (w.quiet value).window = w := rfl

/-- Hides every surface: they would swallow the movements of the pointer. -/
def hideSurfaces (w : Window α) : HostRequest α := .position ⟨[], w.focus, w.offset⟩

def conceal {β : Type} (w : Window α) (value : β) : Outcome α β := ⟨w, [w.hideSurfaces], value⟩

@[simp]
theorem window_conceal {β : Type} (w : Window α) (value : β) : (w.conceal value).window = w := rfl

variable [Scalar α]

def ofSettings (s : Settings α) : Window α where
  workspaces := []
  front := none
  area := ⟨0, 0, 0, 0⟩
  offset := (0, 0)
  gap := s.paneGap
  hitPadding := s.hitPadding
  suspendAfter := 1000 * s.suspendAfterSecs
  destroyAfter := 1000 * s.destroyAfterSecs
  covered := false
  grab := none

def paneRects (w : Window α) : List (TabId × Rect α) :=
  match w.frontWorkspace? with
  | none => []
  | some ws =>
    match ws.tree with
    | some tree => tree.paneRects w.gap w.area
    | none => ws.active.toList.map fun tab => (tab, w.area)

/-- Shows the panes, unless a page covers the area or the pointer has hold of something. -/
def placeSurfaces (w : Window α) : HostRequest α :=
  if w.covered || w.isDragging then w.hideSurfaces
  else .position ⟨w.paneRects, w.focus, w.offset⟩

def present {β : Type} (w : Window α) (value : β) : Outcome α β := ⟨w, [w.placeSurfaces], value⟩

@[simp]
theorem window_present {β : Type} (w : Window α) (value : β) : (w.present value).window = w := rfl

def presentIf {β : Type} (w : Window α) (changed : Bool) (value : β) : Outcome α β :=
  if changed then w.present value else w.quiet value

@[simp]
theorem window_presentIf {β : Type} (w : Window α) (changed : Bool) (value : β) :
    (w.presentIf changed value).window = w := by
  cases changed <;> rfl

def refresh (w : Window α) : Outcome α Unit := w.present ()

def setArea (w : Window α) (area : Rect α) (offset : α × α) : Outcome α Unit :=
  { w with area, offset }.present ()

def setCovered (w : Window α) (covered : Bool) : Outcome α Unit :=
  if w.covered = covered then w.quiet () else { w with covered }.present ()

end Window

end PaneTiling
