import PaneTiling.Window.Basic

/-!
Entering, extending and leaving a split, and moving the focus between panes. A request that cannot
be met is refused and changes nothing.
-/

namespace PaneTiling.Window

variable {α : Type} [Scalar α]

/-- Leaves the split of the workspace in front, or else shows its active tab and the candidate used
last side by side. Tells whether the workspace is split afterwards. -/
def toggleSplit (w : Window α) (now : Clock) : Outcome α Bool :=
  match w.frontIndex?, w.frontWorkspace? with
  | some index, some ws =>
    if ws.tree.isSome then
      (w.modifyWorkspace index fun ws => { ws with tree := none }).present false
    else
      match ws.active, ws.splitCandidate? with
      | some active, some candidate =>
        match PaneTree.insert none active candidate.id .right with
        | some tree =>
          (w.modifyWorkspace index fun ws =>
            { ws with tree := some tree }.modifyTab candidate.id (Tab.touch now)).present true
        | none => w.quiet false
      | _, _ => w.quiet false
  | _, _ => w.quiet false

def splitWith (w : Window α) (now : Clock) (tab : TabId) (side : Side) : Outcome α Bool :=
  match w.frontIndex?, w.frontWorkspace? with
  | some index, some ws =>
    let grown := ws.active.bind fun active =>
      if ws.HasTab tab then ws.splitBeside? now active tab side else none
    match grown with
    | some grown => (w.modifyWorkspace index fun _ => grown).present true
    | none => w.quiet false
  | _, _ => w.quiet false

def focusToward (w : Window α) (now : Clock) (heading : Heading) : Outcome α Bool :=
  match w.frontIndex?, w.focus.bind (nearestTab w.paneRects · heading) with
  | some index, some target => (w.modifyWorkspace index (·.activate now target)).present true
  | _, _ => w.quiet false

def focusAt (w : Window α) (now : Clock) (x y : α) : Outcome α (Option TabId) :=
  match w.frontIndex?, tabAt w.paneRects x y with
  | some index, some target =>
    if w.focus = some target then w.quiet (some target)
    else (w.modifyWorkspace index (·.activate now target)).present (some target)
  | _, _ => w.quiet none

end PaneTiling.Window
