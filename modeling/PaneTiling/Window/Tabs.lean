import PaneTiling.Window.Basic

/-!
Opening, editing, closing, moving and selecting tabs, and what becomes of a tab whose page is given
up. A tab without a page is never a pane.
-/

namespace PaneTiling.Window

variable {α : Type} [Scalar α]

/-- A new tab, under an id that no tab has yet. It gets the focus only if there is none. -/
def openTab (w : Window α) (now : Clock) (workspace : WorkspaceId) (id : TabId)
    (title url : String) : Outcome α (Option TabId) :=
  match w.indexOf? workspace with
  | none => w.quiet none
  | some index =>
    let wasEmpty := w.workspaces[index]?.any (·.tabs.isEmpty)
    let shown := wasEmpty && w.frontIndex? = some index
    (w.modifyWorkspace index (·.addTab (.fresh id title url now))).presentIf shown (some id)

structure TabEdit where
  title : Option String
  url : Option String
  pinned : Option Bool
  playingMedia : Option Bool
  tier : Option MemoryTier
deriving DecidableEq, Repr, Inhabited

def TabEdit.apply (edit : TabEdit) (tab : Tab) : Tab :=
  { tab with
    title := edit.title.getD tab.title
    url := edit.url.getD tab.url
    pinned := edit.pinned.getD tab.pinned
    playingMedia := edit.playingMedia.getD tab.playingMedia
    tier := edit.tier.getD tab.tier }

def editTab (w : Window α) (id : TabId) (edit : TabEdit) : Outcome α Bool :=
  match w.indexOfTab? id with
  | none => w.quiet false
  | some index => (w.modifyWorkspace index (·.modifyTab id edit.apply)).quiet true

def closeTab (w : Window α) (now : Clock) (id : TabId) : Outcome α Unit :=
  match w.indexOfTab? id with
  | none => w.quiet ()
  | some index =>
    let drop (ws : Workspace α) : Workspace α := ((ws.detach? now id).map (·.2)).getD ws
    (w.modifyWorkspace index drop).presentIf (w.frontIndex? = some index) ()

/-- The workspace that the tab leaves sees it closed; the one that it comes to shows it alone. -/
def moveTab (w : Window α) (now : Clock) (id : TabId) (dest : WorkspaceId) : Outcome α Unit :=
  match w.indexOfTab? id, w.indexOf? dest with
  | some source, some target =>
    if source = target then w.quiet ()
    else
      match w.workspaces[source]?.bind (·.detach? now id) with
      | none => w.quiet ()
      | some (tab, rest) =>
        let left := w.modifyWorkspace source fun _ => rest
        let moved := left.modifyWorkspace target (·.adopt now.later tab)
        moved.presentIf (w.frontIndex? = some source || w.frontIndex? = some target) ()
  | _, _ => w.quiet ()

/-- A pane whose page is destroyed leaves the tree as if it had been closed, but stays a tab. -/
def setTier (w : Window α) (now : Clock) (id : TabId) (tier : MemoryTier) : Outcome α Unit :=
  match w.indexOfTab? id with
  | none => w.quiet ()
  | some index =>
    let change (ws : Workspace α) : Workspace α :=
      let ws := if tier = .destroyed then ws.evict now id else ws
      ws.modifyTab id fun tab => { tab with tier }
    (w.modifyWorkspace index change).presentIf (w.frontIndex? = some index) ()

/-- Selecting a pane moves the focus to it; selecting another tab leaves the split and shows that
tab alone. Its workspace comes to the front. -/
def selectTab (w : Window α) (now : Clock) (id : TabId) : Outcome α Unit :=
  match w.indexOfTab? id with
  | none => w.quiet ()
  | some index =>
    let select (ws : Workspace α) : Workspace α :=
      (if ws.IsLeaf id then ws else { ws with tree := none }).activate now id
    let home := (w.workspaces[index]?.map (·.id)).or w.front
    { w.modifyWorkspace index select with front := home }.present ()

end PaneTiling.Window
