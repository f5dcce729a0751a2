import PaneTiling.Window.Workspaces
import PaneTiling.Window.Tabs
import PaneTiling.Window.Focus
import PaneTiling.Window.Gesture
import PaneTiling.Window.Idle
import PaneTiling.Window.Saving

/-!
Everything that can be done to a window, as data: a run of a window is a list of actions, each with
the time it happens at.
-/

namespace PaneTiling

/-- New workspaces and tabs come with an id that the caller has made up for them. -/
inductive Action (α : Type)
  | createWorkspace (id : WorkspaceId) (name : String)
  | deleteWorkspace (id : WorkspaceId)
  | switchTo (id : WorkspaceId)
  | openTab (workspace : WorkspaceId) (id : TabId) (title url : String)
  | editTab (id : TabId) (edit : Window.TabEdit)
  | closeTab (id : TabId)
  | moveTab (id : TabId) (dest : WorkspaceId)
  | setTier (id : TabId) (tier : MemoryTier)
  | selectTab (id : TabId)
  | setArea (area : Rect α) (offset : α × α)
  | setCovered (covered : Bool)
  | refresh
  | toggleSplit
  | splitWith (tab : TabId) (side : Side)
  | focusToward (heading : Heading)
  | focusAt (x y : α)
  | grabDivider (x y : α)
  | grabTab (tab : TabId)
  | pointerMove (x y : α)
  | frame
  | release
  | cancel
  /-- Tabs are idle as of a time of their own, which need not be that of the action. -/
  | sweep (time : Instant)
  | restore (session : Session α)
deriving BEq

inductive Reply (α : Type)
  | done
  | flag (value : Bool)
  | workspace (id : WorkspaceId)
  | tab (id : Option TabId)
  | demotions (changes : List (TabId × MemoryTier))
  | issues (issues : List (WorkspaceId × RestoreIssue α))
deriving BEq, DecidableEq, Repr, Inhabited

variable {α : Type}

def Outcome.map {β γ : Type} (f : β → γ) (o : Outcome α β) : Outcome α γ :=
  ⟨o.window, o.requests, f o.value⟩

def Outcome.done (o : Outcome α Unit) : Outcome α (Reply α) := o.map fun () => .done

namespace Window

variable [Scalar α]

def perform (w : Window α) (now : Clock) :
    Action α → Except PaneTree.ResizeError (Outcome α (Reply α))
  | .createWorkspace id name => .ok ((w.createWorkspace id name).map .workspace)
  | .deleteWorkspace id => .ok (w.deleteWorkspace id).done
  | .switchTo id => .ok (w.switchTo now id).done
  | .openTab workspace id title url => .ok ((w.openTab now workspace id title url).map .tab)
  | .editTab id edit => .ok ((w.editTab id edit).map .flag)
  | .closeTab id => .ok (w.closeTab now id).done
  | .moveTab id dest => .ok (w.moveTab now id dest).done
  | .setTier id tier => .ok (w.setTier now id tier).done
  | .selectTab id => .ok (w.selectTab now id).done
  | .setArea area offset => .ok (w.setArea area offset).done
  | .setCovered covered => .ok (w.setCovered covered).done
  | .refresh => .ok w.refresh.done
  | .toggleSplit => .ok ((w.toggleSplit now).map .flag)
  | .splitWith tab side => .ok ((w.splitWith now tab side).map .flag)
  | .focusToward heading => .ok ((w.focusToward now heading).map .flag)
  | .focusAt x y => .ok ((w.focusAt now x y).map .tab)
  | .grabDivider x y => .ok ((w.grabDivider x y).map .flag)
  | .grabTab tab => .ok ((w.grabTab tab).map .flag)
  | .pointerMove x y => .ok (w.pointerMove x y).done
  | .frame => w.frame.map Outcome.done
  | .release => (w.release now).map Outcome.done
  | .cancel => (w.cancel now).map Outcome.done
  | .sweep time => .ok ((w.sweep time).map .demotions)
  | .restore session => .ok ((w.restore now session).map .issues)

def run (w : Window α) (actions : List (Clock × Action α)) :
    Except PaneTree.ResizeError (Window α) :=
  actions.foldlM (fun w (now, action) => (w.perform now action).map (·.window)) w

end Window

end PaneTiling
