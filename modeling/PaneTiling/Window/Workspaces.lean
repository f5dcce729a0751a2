import PaneTiling.Window.Basic

/-!
Making, deleting and switching workspaces. A drag belongs to the workspace in front and ends with
it.
-/

namespace PaneTiling.Window

variable {α : Type} [Scalar α]

/-- The first workspace comes to the front. -/
def createWorkspace (w : Window α) (id : WorkspaceId) (name : String) : Outcome α WorkspaceId :=
  let w : Window α := { w with workspaces := w.workspaces ++ [.empty id name] }
  if w.front.isNone then { w with front := some id }.present id else w.quiet id

/-- The first workspace left takes the place of a deleted one in front. -/
def deleteWorkspace (w : Window α) (id : WorkspaceId) : Outcome α Unit :=
  match w.indexOf? id with
  | none => w.quiet ()
  | some index =>
    let rest : Window α := { w with workspaces := w.workspaces.eraseIdx index }
    if w.frontIndex? = some index then
      { rest with grab := none, front := rest.workspaces.head?.map Workspace.id }.present ()
    else rest.quiet ()

def switchTo (w : Window α) (now : Clock) (id : WorkspaceId) : Outcome α Unit :=
  match w.indexOf? id with
  | none => w.quiet ()
  | some index =>
    let w : Window α := { w with grab := none, front := some id }
    (w.modifyWorkspace index (·.touchVisible now)).present ()

end PaneTiling.Window
