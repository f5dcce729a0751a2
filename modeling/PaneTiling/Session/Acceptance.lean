import PaneTiling.Session.Basic
import PaneTiling.Decimal.Style

/-!
Which saved pane trees may come back. Leaves are looked at before splits, and splits from the root
down; the first thing wrong with a tree is the reason for discarding it.
-/

namespace PaneTiling

inductive RestoreIssue (α : Type)
  | missingTab (tab : TabId)
  | duplicateTab (tab : TabId)
  | tooFewChildren (count : Nat)
  | leafCount (count : Nat)
  | badRatio (ratio : α)
  | ratioSum (sum : α)
deriving BEq, DecidableEq, Repr, Inhabited

def RestoreIssue.message (issue : RestoreIssue Float) : String :=
  match issue with
  | .missingTab tab => "pane references tab " ++ tab.text ++ " which was not restored"
  | .duplicateTab tab => "tab " ++ tab.text ++ " appears in more than one pane"
  | .tooFewChildren count => "split has " ++ toString count ++ " children, at least 2 required"
  | .leafCount count =>
    "tree has " ++ toString count ++ " panes, expected 2 to " ++ toString maxPanes
  | .badRatio ratio =>
    "split ratio " ++ Decimal.messageText ratio ++ " is not a positive finite number"
  | .ratioSum sum => "split ratios sum to " ++ Decimal.messageText sum ++ ", expected 1.0"

namespace PaneTree

variable {α : Type}

/-- Every leaf shows a restored tab, and none that an earlier leaf shows. -/
def checkLeaves (restored seen : List TabId) : List TabId → Except (RestoreIssue α) Unit
  | [] => .ok ()
  | tab :: rest =>
    if tab ∉ restored then .error (.missingTab tab)
    else if tab ∈ seen then .error (.duplicateTab tab)
    else checkLeaves restored (tab :: seen) rest

variable [Scalar α]

def savedShareTolerance : α := 1e-6

/-- The total by which the shares of a split are to be divided. -/
def checkShares (shares : List α) : Except (RestoreIssue α) α :=
  if shares.length < 2 then .error (.tooFewChildren shares.length)
  else
    match shares.find? fun share => !Scalar.isFinite share || decide (share ≤ 0) with
    | some bad => .error (.badRatio bad)
    | none =>
      let total := Scalar.sum shares
      if savedShareTolerance < Scalar.abs (total - 1) then .error (.ratioSum total) else .ok total

mutual

def normalise : PaneTree α → Except (RestoreIssue α) (PaneTree α)
  | leaf tab => .ok (leaf tab)
  | split axis slots => do
    let total ← checkShares (sharesOf slots)
    return split axis (← normaliseSlots total slots)

def normaliseSlots (total : α) :
    List (PaneTree α × α) → Except (RestoreIssue α) (List (PaneTree α × α))
  | [] => .ok []
  | (tree, share) :: rest => do
    let tree ← tree.normalise
    let rest ← normaliseSlots total rest
    return (tree, share / total) :: rest

end

def accept (saved : PaneTree α) (restored : List TabId) :
    Except (RestoreIssue α) (PaneTree α) := do
  checkLeaves restored [] saved.tabIds
  if saved.tabIds.length < 2 ∨ maxPanes < saved.tabIds.length then
    throw (.leafCount saved.tabIds.length)
  saved.normalise

end PaneTree

namespace SavedWorkspace

variable {α : Type} [Scalar α]

/-- What becomes of the saved pane tree when the workspace comes back. -/
def acceptTree (saved : SavedWorkspace α) : Option (Except (RestoreIssue α) (PaneTree α)) :=
  saved.tree.map (·.accept saved.tabIds)

def restoredTree (saved : SavedWorkspace α) : Option (PaneTree α) :=
  match saved.acceptTree with
  | some (.ok tree) => some tree
  | _ => none

def issue? (saved : SavedWorkspace α) : Option (RestoreIssue α) :=
  match saved.acceptTree with
  | some (.error issue) => some issue
  | _ => none

end SavedWorkspace

namespace Session

variable {α : Type} [Scalar α]

def issues (session : Session α) : List (WorkspaceId × RestoreIssue α) :=
  session.workspaces.filterMap fun saved => saved.issue?.map fun issue => (saved.id, issue)

end Session

end PaneTiling
