import PaneTiling.Session.Acceptance
import PaneTiling.Projection

/-!
Reports on a saved session: where the panes of each workspace would lie, and which pane trees would
come back.
-/

namespace PaneTiling

namespace Report

def rectText (r : Rect Float) : String :=
  Decimal.tenthsText r.x ++ "," ++ Decimal.tenthsText r.y ++ " " ++ Decimal.tenthsText r.w ++ "x"
    ++ Decimal.tenthsText r.h

def paneLine (tab : TabId) (rect : Rect Float) : String :=
  "  pane " ++ tab.text ++ "  " ++ rectText rect ++ "\n"

def axisName : Axis → String
  | .row => "Row"
  | .col => "Col"

def pathText (path : List Nat) : String := "[" ++ ", ".intercalate (path.map toString) ++ "]"

def dividerLine (d : Divider Float) : String :=
  "  divider " ++ axisName d.axis ++ " at " ++ pathText d.path ++ "[" ++ toString d.index ++ "]  "
    ++ rectText d.rect ++ "\n"

end Report

namespace SavedWorkspace

def shownPanes {α : Type} [Scalar α] (saved : SavedWorkspace α) (area : Rect α) (gap : α) :
    List (TabId × Rect α) :=
  match saved.restoredTree with
  | some tree => tree.paneRects gap area
  | none => (saved.restoredFocus none).toList.map fun tab => (tab, area)

def paneLines (panes : List (TabId × Rect Float)) : String :=
  if panes.isEmpty then "  (no tabs)\n"
  else String.join (panes.map fun (tab, rect) => Report.paneLine tab rect)

def layoutLines (saved : SavedWorkspace Float) (area : Rect Float) (gap : Float) : String :=
  match saved.acceptTree with
  | some (.ok tree) =>
    String.join ((tree.paneRects gap area).map fun (tab, rect) => Report.paneLine tab rect)
      ++ String.join ((tree.dividers area gap).map Report.dividerLine)
  | some (.error issue) =>
    "  layout discarded: " ++ issue.message ++ "\n" ++ paneLines (saved.shownPanes area gap)
  | none => paneLines (saved.shownPanes area gap)

def verdictLine (saved : SavedWorkspace Float) : String :=
  saved.name ++
    match saved.acceptTree with
    | none => ": single pane\n"
    | some (.ok tree) => ": ok (" ++ toString tree.leafCount ++ " panes)\n"
    | some (.error issue) => ": discarded (" ++ issue.message ++ ")\n"

end SavedWorkspace

namespace Session

/-- The panes and dividers of every workspace in an area; a star marks the workspace in front. -/
def layoutReport (session : Session Float) (area : Rect Float) (gap : Float) : String :=
  String.join <| session.workspaces.mapIdx fun index saved =>
    saved.name ++ (if session.front = some index then " *" else "") ++ "\n"
      ++ saved.layoutLines area gap

def restoreReport (session : Session Float) : String :=
  String.join (session.workspaces.map (·.verdictLine))

def isRestorable {α : Type} [Scalar α] (session : Session α) : Bool :=
  session.workspaces.all (·.issue?.isNone)

end Session

end PaneTiling
