import PaneTiling.Window.Basic
import PaneTiling.Session.Acceptance
import PaneTiling.Session.Storage

/-!
Keeping the workspaces of a window in a session, and bringing them back. What comes back is
suspended, except for what is seen at once; a pane tree that cannot come back is discarded as a
whole, and its workspace then shows a single tab.
-/

namespace PaneTiling

variable {α : Type}

def Tab.saved (tab : Tab) : SavedTab := ⟨tab.id, tab.title, tab.url, tab.pinned⟩

def SavedTab.restored (saved : SavedTab) (now : Instant) : Tab :=
  { Tab.fresh saved.id saved.title saved.url now with tier := .suspended, pinned := saved.pinned }

namespace PaneTree

mutual

def captured : PaneTree α → PaneTree α
  | leaf tab => leaf tab
  | split axis slots => split axis (slotsCaptured slots)

def slotsCaptured : List (PaneTree α × α) → List (PaneTree α × α)
  | [] => []
  | (tree, share) :: rest => (tree.captured, share) :: slotsCaptured rest

end

mutual

@[simp]
theorem captured_eq_self : (tree : PaneTree α) → tree.captured = tree
  | leaf _ => rfl
  | split axis slots => by rw [captured, slotsCaptured_eq_self]

theorem slotsCaptured_eq_self : (slots : List (PaneTree α × α)) → slotsCaptured slots = slots
  | [] => rfl
  | (tree, share) :: rest => by rw [slotsCaptured, captured_eq_self, slotsCaptured_eq_self]

end

end PaneTree

def Workspace.saved (ws : Workspace α) : SavedWorkspace α :=
  ⟨ws.id, ws.name, ws.tabs.map (·.saved), ws.active, ws.tree.map (·.captured)⟩

@[simp]
theorem Workspace.tree_saved (ws : Workspace α) : ws.saved.tree = ws.tree := by
  simp [saved]

namespace SavedWorkspace

def distinctTabs (saved : SavedWorkspace α) : List SavedTab :=
  saved.tabs.foldl (fun kept tab => if kept.any (·.id = tab.id) then kept else kept ++ [tab]) []

variable [Scalar α]

def restored (saved : SavedWorkspace α) (now : Instant) : Workspace α where
  id := saved.id
  name := saved.name
  tabs := saved.distinctTabs.map (·.restored now)
  active := saved.restoredFocus saved.restoredTree
  tree := saved.restoredTree

end SavedWorkspace

namespace Session

/-- The workspace to bring to the front: the saved one if there is one with that number, else the
first. -/
def frontOrFirst (session : Session α) : Nat :=
  (session.front.filter (· < session.workspaces.length)).getD 0

end Session

namespace Window

def capture (w : Window α) (savedAt : String) : Session α :=
  ⟨savedAt, w.workspaces.map (·.saved),
    w.workspaces.findIdx? fun ws => some ws.id = w.front⟩

variable [Scalar α]

/-- Puts the workspaces of a session in place of those of the window, and tells which pane trees are
discarded. -/
def restore (w : Window α) (now : Clock) (session : Session α) :
    Outcome α (List (WorkspaceId × RestoreIssue α)) :=
  let workspaces := session.workspaces.map (·.restored now)
  let front := session.frontOrFirst
  { w with
    workspaces := workspaces.modify front (·.touchVisible now.later)
    front := workspaces[front]?.map Workspace.id
    grab := none }.present session.issues

/-- Brings back the session that the settings name, unless that is not wanted or none was saved. A
session that cannot be read leaves the window as it is. -/
def startUp (w : Window Float) (now : Clock) (settings : Settings Float) (home : String)
    (files : Files) :
    Outcome Float (Except SessionError (Option (List (WorkspaceId × RestoreIssue Float)))) :=
  if settings.restoreSession then
    match Session.load files (settings.sessionPath home) with
    | .ok (some session) =>
      let outcome := w.restore now session
      ⟨outcome.window, outcome.requests, .ok (some outcome.value)⟩
    | .ok none => w.quiet (.ok none)
    | .error e => w.quiet (.error e)
  else w.quiet (.ok none)

def restoreSaved (w : Window Float) (now : Clock) (settings : Settings Float) (home : String)
    (files : Files) :
    Except SessionError (Outcome Float (Option (List (WorkspaceId × RestoreIssue Float)))) :=
  let outcome := w.startUp now settings home files
  outcome.value.map fun value => ⟨outcome.window, outcome.requests, value⟩

end Window

end PaneTiling
