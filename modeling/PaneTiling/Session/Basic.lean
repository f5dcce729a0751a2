import PaneTiling.PaneTree.Basic
import PaneTiling.Uuid

/-!
A saved session: what a window keeps of its workspaces between two runs. A saved pane tree is a tree
as it was written down, and need not be one that a workspace could show.
-/

namespace PaneTiling

abbrev WorkspaceId := Uuid

structure SavedTab where
  id : TabId
  title : String
  url : String
  pinned : Bool
deriving DecidableEq, Repr, Inhabited

structure SavedWorkspace (α : Type) where
  id : WorkspaceId
  name : String
  tabs : List SavedTab
  active : Option TabId
  tree : Option (PaneTree α)
deriving BEq

structure Session (α : Type) where
  /-- When the session was saved. -/
  savedAt : String
  workspaces : List (SavedWorkspace α)
  /-- The number of the workspace that was in front. -/
  front : Option Nat
deriving BEq

namespace SavedWorkspace

variable {α : Type}

def tabIds (saved : SavedWorkspace α) : List TabId := saved.tabs.map (·.id)

/-- The tab to focus when a workspace comes back: the saved one if it is still there, else the first
tab; and where a tree is shown, a tab outside it gives way to its first leaf. -/
def restoredFocus (saved : SavedWorkspace α) (tree : Option (PaneTree α)) : Option TabId :=
  let focus := (saved.active.filter (· ∈ saved.tabIds)).or saved.tabIds.head?
  match tree with
  | some tree => if focus.any (· ∈ tree) then focus else tree.firstTab?
  | none => focus

end SavedWorkspace

end PaneTiling
