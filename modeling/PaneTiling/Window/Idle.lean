import PaneTiling.Window.Basic

/-!
Giving up the pages of tabs that have not been used for a while, one tier at a time. What the user
sees, pinned tabs, tabs that play media and pages that the program draws itself are left alone.
-/

namespace PaneTiling

namespace Workspace

variable {α : Type}

/-- A tab that keeps its page however long it is not used. The panes of a workspace in front are
seen; behind it they are not. -/
def Keeps (ws : Workspace α) (inFront : Bool) (tab : Tab) : Prop :=
  tab.pinned ∨ tab.playingMedia ∨ tab.isInternal ∨ ws.active = some tab.id
    ∨ inFront ∧ ws.IsLeaf tab.id

instance (ws : Workspace α) (inFront : Bool) (tab : Tab) : Decidable (ws.Keeps inFront tab) :=
  inferInstanceAs (Decidable (_ ∨ _ ∨ _ ∨ _ ∨ _ ∧ _))

/-- The tier that a tab falls to, if it falls: a pane is suspended but never destroyed. -/
def demotion? (ws : Workspace α) (inFront : Bool) (suspendAfter destroyAfter : Nat) (now : Instant)
    (tab : Tab) : Option MemoryTier :=
  if ws.Keeps inFront tab then none
  else
    let idle := (now - tab.lastActive).toNat
    match tab.tier with
    | .active => if suspendAfter ≤ idle then some .suspended else none
    | .suspended => if destroyAfter ≤ idle ∧ ¬ws.IsLeaf tab.id then some .destroyed else none
    | .destroyed => none

def demotions (ws : Workspace α) (inFront : Bool) (suspendAfter destroyAfter : Nat)
    (now : Instant) : List (TabId × MemoryTier) :=
  ws.tabs.filterMap fun tab =>
    (ws.demotion? inFront suspendAfter destroyAfter now tab).map fun tier => (tab.id, tier)

def demote (ws : Workspace α) (changes : List (TabId × MemoryTier)) : Workspace α :=
  changes.foldl (fun ws (id, tier) => ws.modifyTab id fun tab => { tab with tier }) ws

end Workspace

namespace Window

variable {α : Type}

def demotions (w : Window α) (now : Instant) (index : Nat) (ws : Workspace α) :
    List (TabId × MemoryTier) :=
  ws.demotions (w.frontIndex? = some index) w.suspendAfter w.destroyAfter now

def demoteIdle (w : Window α) (now : Instant) : List (Workspace α) :=
  w.workspaces.mapIdx fun index (ws : Workspace α) => ws.demote (w.demotions now index ws)

/-- Tells which tabs fell to which tier. What is on the screen stays. -/
def sweep (w : Window α) (now : Instant) : Outcome α (List (TabId × MemoryTier)) :=
  { w with workspaces := w.demoteIdle now }.quiet (w.workspaces.mapIdx (w.demotions now)).flatten

end Window

end PaneTiling
