import PaneTiling.Tab
import PaneTiling.PaneTree.Edit
import PaneTiling.Uuid
import PaneTiling.Session.Basic

/-!
A workspace: its tabs, the one that has the focus, and a pane tree while more than one tab is shown.
Whatever leaves the tree, the focus stays on a tab that is shown.
-/

namespace PaneTiling

structure Workspace (α : Type) where
  id : WorkspaceId
  name : String
  tabs : List Tab
  active : Option TabId
  tree : Option (PaneTree α)
deriving BEq, Inhabited

namespace Workspace

variable {α : Type}

def empty (id : WorkspaceId) (name : String) : Workspace α := ⟨id, name, [], none, none⟩

def tab? (ws : Workspace α) (id : TabId) : Option Tab := ws.tabs.find? (·.id = id)

def HasTab (ws : Workspace α) (id : TabId) : Prop := id ∈ ws.tabs.map (·.id)

instance (ws : Workspace α) (id : TabId) : Decidable (ws.HasTab id) :=
  inferInstanceAs (Decidable (id ∈ _))

def IsLeaf (ws : Workspace α) (id : TabId) : Prop := ∃ tree, ws.tree = some tree ∧ id ∈ tree

instance (ws : Workspace α) (id : TabId) : Decidable (ws.IsLeaf id) :=
  match h : ws.tree with
  | some tree => decidable_of_iff (id ∈ tree) (by simp [IsLeaf, h])
  | none => isFalse (by simp [IsLeaf, h])

/-- The leaves of the tree, or the active tab alone. -/
def visibleTabs (ws : Workspace α) : List TabId :=
  match ws.tree with
  | some tree => tree.tabIds
  | none => ws.active.toList

def addTab (ws : Workspace α) (tab : Tab) : Workspace α :=
  { ws with tabs := ws.tabs ++ [tab], active := ws.active.or (some tab.id) }

def modifyTab (ws : Workspace α) (id : TabId) (change : Tab → Tab) : Workspace α :=
  { ws with tabs := PaneTiling.modifyTab id change ws.tabs }

theorem hasTab_modifyTab {ws : Workspace α} {id other : TabId} {change : Tab → Tab}
    (hid : ∀ tab, (change tab).id = tab.id) :
    (ws.modifyTab id change).HasTab other ↔ ws.HasTab other := by
  simp only [HasTab, modifyTab, map_id_modifyTab id change ws.tabs hid]

def activate (ws : Workspace α) (now : Instant) (id : TabId) : Workspace α :=
  if ws.HasTab id then { ws.modifyTab id (Tab.touch now) with active := some id } else ws

@[simp]
theorem tree_activate (ws : Workspace α) (now : Instant) (id : TabId) :
    (ws.activate now id).tree = ws.tree := by
  unfold activate
  split <;> rfl

theorem hasTab_activate {ws : Workspace α} {now : Instant} {id other : TabId} :
    (ws.activate now id).HasTab other ↔ ws.HasTab other := by
  unfold activate
  split
  · exact hasTab_modifyTab fun _ => rfl
  · rfl

def activate? (ws : Workspace α) (now : Instant) (id : Option TabId) : Workspace α :=
  match id with
  | some id => ws.activate now id
  | none => ws

/-- Touches what is seen, tab by tab, each when its turn comes. -/
def touchVisible (ws : Workspace α) (now : Clock) : Workspace α :=
  ws.visibleTabs.zipIdx.foldl
    (fun ws (id, turn) => ws.modifyTab id (Tab.touch (now.reading turn))) ws

/-- The tab to fall back on: the one used last of those that are not destroyed, else the first. -/
def mostRecent? (ws : Workspace α) : Option Tab :=
  (latestTab? (ws.tabs.filter (·.tier ≠ .destroyed))).or ws.tabs.head?

def splitCandidate? (ws : Workspace α) : Option Tab :=
  latestTab? (ws.tabs.filter fun tab => some tab.id ≠ ws.active ∧ tab.isSplitCandidate)

end Workspace

/-- The tab in the slot before that of a leaf, or in the one after it if the leaf comes first: the
first leaf of that slot. -/
def PaneTree.neighbour? {α : Type} (tree : PaneTree α) (tab : TabId) : Option TabId := do
  let path ← tree.findPath tab
  let index ← path.getLast?
  let .split _ slots ← tree.nodeAt path.dropLast | none
  let slot ← slots[if 0 < index then index - 1 else index + 1]?
  slot.1.firstTab?

namespace Workspace

variable {α : Type} [Scalar α]

/-- Takes a tab out of the tree. If it had the focus, a neighbour gets it; the last pane that stays
always does. -/
def evict (ws : Workspace α) (now : Instant) (tab : TabId) : Workspace α :=
  match ws.tree with
  | none => ws
  | some tree =>
    match tree.removeLeaf tab with
    | .removed rest =>
      let successor :=
        if ws.active = some tab then (tree.neighbour? tab).or rest.firstTab? else none
      { ws with tree := some rest }.activate? now successor
    | .collapsed remaining => { ws with tree := none }.activate? now remaining
    | .notFound => ws

/-- Takes a tab out of the workspace. If it still had the focus, the tab used last gets it. -/
def detach? (ws : Workspace α) (now : Instant) (id : TabId) : Option (Tab × Workspace α) := do
  let ws := ws.evict now id
  let tab ← ws.tab? id
  let ws := { ws with tabs := ws.tabs.eraseP fun tab => tab.id = id }
  if ws.active = some id then
    return (tab, { ws with active := none }.activate? now (ws.mostRecent?.map Tab.id))
  else return (tab, ws)

def adopt (ws : Workspace α) (now : Instant) (tab : Tab) : Workspace α :=
  { ws with tabs := ws.tabs ++ [tab], tree := none }.activate now tab.id

def splitBeside? (ws : Workspace α) (now : Instant) (anchor tab : TabId) (side : Side) :
    Option (Workspace α) :=
  (PaneTree.insert ws.tree anchor tab side).map fun tree =>
    { ws with tree := some tree }.activate now tab

end Workspace

end PaneTiling
