import PaneTiling.Proofs.Window.Opening
import PaneTiling.Proofs.Window.Run

/-!
Requests that cannot be met. Every operation looks whether it can go ahead before it changes
anything; one that is turned down, or that names what is not there, leaves the whole window as it
was and asks nothing of the host. So does a session that cannot be read. A drop that the tree does
not take ends the drag and changes nothing else.
-/

namespace PaneTiling.Window

variable {α : Type}

def Untouched {β : Type} (w : Window α) (o : Outcome α β) : Prop := o.window = w ∧ o.requests = []

theorem untouched_quiet {β : Type} (w : Window α) (value : β) : w.Untouched (w.quiet value) :=
  ⟨rfl, rfl⟩

theorem Untouched.map {β γ : Type} {w : Window α} {o : Outcome α β} (h : w.Untouched o)
    (f : β → γ) : w.Untouched (o.map f) := h

theorem indexOf?_of_unknown {w : Window α} {id : WorkspaceId}
    (h : ∀ ws ∈ w.workspaces, ws.id ≠ id) : w.indexOf? id = none := by
  rw [indexOf?, List.findIdx?_eq_none_iff]
  intro ws hws
  exact decide_eq_false (h ws hws)

theorem indexOfTab?_of_unknown {w : Window α} {tab : TabId}
    (h : ∀ ws ∈ w.workspaces, ¬ws.HasTab tab) : w.indexOfTab? tab = none := by
  rw [indexOfTab?, List.findIdx?_eq_none_iff]
  intro ws hws
  exact decide_eq_false (h ws hws)

/-- An action is turned down if it answers so, or if what it names is not there. -/
def TurnsDown (w : Window α) (action : Action α) (reply : Reply α) : Prop :=
  match action with
  | .splitWith _ _ | .focusToward _ | .grabDivider _ _ | .grabTab _ | .editTab _ _ =>
    reply = .flag false
  | .focusAt _ _ | .openTab _ _ _ _ => reply = .tab none
  | .toggleSplit => reply = .flag false ∧ ∀ ws, w.frontWorkspace? = some ws → ws.tree = none
  | .closeTab id | .setTier id _ | .selectTab id => ∀ ws ∈ w.workspaces, ¬ws.HasTab id
  | .moveTab id dest =>
    (∀ ws ∈ w.workspaces, ¬ws.HasTab id) ∨ (∀ ws ∈ w.workspaces, ws.id ≠ dest) ∨
      w.indexOfTab? id = w.indexOf? dest
  | .deleteWorkspace id | .switchTo id => ∀ ws ∈ w.workspaces, ws.id ≠ id
  | .pointerMove _ _ | .frame | .release | .cancel => w.grab = none
  | .createWorkspace _ _ | .setArea _ _ | .setCovered _ | .refresh | .sweep _ | .restore _ => False

variable [Scalar α] {w : Window α} {now : Clock}

section Workspaces

theorem untouched_deleteWorkspace {id : WorkspaceId} (h : ∀ ws ∈ w.workspaces, ws.id ≠ id) :
    w.Untouched (w.deleteWorkspace id) := by
  rw [deleteWorkspace, indexOf?_of_unknown h]
  exact w.untouched_quiet _

theorem untouched_switchTo {id : WorkspaceId} (h : ∀ ws ∈ w.workspaces, ws.id ≠ id) :
    w.Untouched (w.switchTo now id) := by
  rw [switchTo, indexOf?_of_unknown h]
  exact w.untouched_quiet _

end Workspaces

section Splits

theorem untouched_toggleSplit (h : (w.toggleSplit now).value = false)
    (htree : ∀ ws, w.frontWorkspace? = some ws → ws.tree = none) :
    w.Untouched (w.toggleSplit now) := by
  revert h
  unfold toggleSplit
  split
  · rename_i index ws hindex hws
    rw [htree ws hws]
    split
    · contradiction
    split
    · split
      · exact fun hopened => Bool.noConfusion hopened
      · exact fun _ => w.untouched_quiet false
    · exact fun _ => w.untouched_quiet false
  · exact fun _ => w.untouched_quiet false

theorem untouched_splitWith {tab : TabId} {side : Side}
    (h : (w.splitWith now tab side).value = false) : w.Untouched (w.splitWith now tab side) := by
  revert h
  unfold splitWith
  split
  · simp only
    split
    · nofun
    · exact fun _ => w.untouched_quiet false
  · exact fun _ => w.untouched_quiet false

theorem untouched_focusToward {heading : Heading} (h : (w.focusToward now heading).value = false) :
    w.Untouched (w.focusToward now heading) := by
  revert h
  unfold focusToward
  split
  · nofun
  · exact fun _ => w.untouched_quiet false

theorem untouched_focusAt {x y : α} (h : (w.focusAt now x y).value = none) :
    w.Untouched (w.focusAt now x y) := by
  revert h
  unfold focusAt
  split
  · split
    · nofun
    · nofun
  · exact fun _ => w.untouched_quiet none

end Splits

section Tabs

theorem untouched_openTab {workspace : WorkspaceId} {id : TabId} {title url : String}
    (h : (w.openTab now workspace id title url).value = none) :
    w.Untouched (w.openTab now workspace id title url) := by
  revert h
  unfold openTab
  split
  · exact fun _ => w.untouched_quiet none
  · simp only [presentIf]
    split
    · nofun
    · nofun

omit [Scalar α] in
theorem untouched_editTab {id : TabId} {edit : TabEdit} (h : (w.editTab id edit).value = false) :
    w.Untouched (w.editTab id edit) := by
  revert h
  unfold editTab
  split
  · exact fun _ => w.untouched_quiet false
  · nofun

theorem untouched_closeTab {id : TabId} (h : ∀ ws ∈ w.workspaces, ¬ws.HasTab id) :
    w.Untouched (w.closeTab now id) := by
  rw [closeTab, indexOfTab?_of_unknown h]
  exact w.untouched_quiet _

theorem untouched_setTier {id : TabId} {tier : MemoryTier}
    (h : ∀ ws ∈ w.workspaces, ¬ws.HasTab id) : w.Untouched (w.setTier now id tier) := by
  rw [setTier, indexOfTab?_of_unknown h]
  exact w.untouched_quiet _

theorem untouched_selectTab {id : TabId} (h : ∀ ws ∈ w.workspaces, ¬ws.HasTab id) :
    w.Untouched (w.selectTab now id) := by
  rw [selectTab, indexOfTab?_of_unknown h]
  exact w.untouched_quiet _

theorem untouched_moveTab {id : TabId} {dest : WorkspaceId}
    (h : (∀ ws ∈ w.workspaces, ¬ws.HasTab id) ∨ (∀ ws ∈ w.workspaces, ws.id ≠ dest) ∨
      w.indexOfTab? id = w.indexOf? dest) :
    w.Untouched (w.moveTab now id dest) := by
  have hplaces : w.indexOfTab? id = none ∨ w.indexOf? dest = none ∨
      w.indexOfTab? id = w.indexOf? dest :=
    h.imp indexOfTab?_of_unknown (.imp_left indexOf?_of_unknown)
  unfold moveTab
  split
  · rename_i source target hsource htarget
    rw [hsource, htarget] at hplaces
    have hsame : source = target := by simpa using hplaces
    rw [if_pos hsame]
    exact w.untouched_quiet ()
  · exact w.untouched_quiet ()

end Tabs

section Drags

theorem untouched_grabDivider {x y : α} (h : (w.grabDivider x y).value = false) :
    w.Untouched (w.grabDivider x y) := by
  revert h
  unfold grabDivider
  split
  · exact fun _ => w.untouched_quiet false
  split
  · nofun
  · exact fun _ => w.untouched_quiet false

omit [Scalar α] in
theorem untouched_grabTab {tab : TabId} (h : (w.grabTab tab).value = false) :
    w.Untouched (w.grabTab tab) := by
  revert h
  unfold grabTab
  split
  · exact fun _ => w.untouched_quiet false
  split
  · split
    · nofun
    · exact fun _ => w.untouched_quiet false
  · exact fun _ => w.untouched_quiet false

theorem pointerMove_of_grab_none (h : w.grab = none) (x y : α) :
    w.pointerMove x y = w.quiet () := by
  rw [pointerMove, h]

theorem frame_of_grab_none (h : w.grab = none) : w.frame = .ok (w.quiet ()) := by
  rw [frame, h]

theorem release_of_grab_none (h : w.grab = none) (now : Clock) :
    w.release now = .ok (w.quiet ()) := by
  rw [release, h]

theorem cancel_of_grab_none (h : w.grab = none) (now : Clock) :
    w.cancel now = .ok (w.quiet ()) := by
  have hforget : ({ w with grab := w.grab.map Grab.forget } : Window α) = w := by
    cases w
    cases h
    rfl
  rw [cancel, hforget, release_of_grab_none h now]

/-- The tab that is held is over a zone where the tree does not take it. -/
def RejectsDrop (w : Window α) : Prop :=
  match w.grab with
  | some (.tab grab) =>
    ∃ zone ∈ w.zoneUnder grab, ∃ ws ∈ w.workspace? grab.workspace,
      PaneTree.insert (ws.tree.bind (·.remove grab.tab)) zone.anchor grab.tab zone.side = none
  | _ => False

instance (w : Window α) : Decidable w.RejectsDrop := by
  unfold RejectsDrop
  split <;> infer_instance

theorem release_of_rejectsDrop (h : w.RejectsDrop) (now : Clock) :
    ∃ o, w.release now = .ok o ∧ o.window = { w with grab := none } := by
  unfold RejectsDrop at h
  split at h
  · rename_i grab hgrab
    obtain ⟨zone, hzone, ws, hws, hinsert⟩ := h
    have hnone : ({ w with grab := none } : Window α).dropOpening? grab = none := by
      rw [Option.mem_def, workspace?_eq, Option.bind_eq_some_iff] at hws
      obtain ⟨index, hindex, hws⟩ := hws
      have hsame : ({ w with grab := none } : Window α).zoneUnder grab = some zone := hzone
      have hplace : ({ w with grab := none } : Window α).indexOf? grab.workspace = some index :=
        hindex
      simp [dropOpening?, hsame, hplace, hws, hinsert]
    rcases ({ w with grab := none } : Window α).dropTab_cases now grab with
      ⟨op, hop, -⟩ | ⟨-, hwindow⟩
    · cases hnone.symm.trans hop
    · exact ⟨_, release_of_tab hgrab now, hwindow⟩
  · exact h.elim

end Drags

theorem untouched_perform {action : Action α} {o : Outcome α (Reply α)}
    (h : w.perform now action = .ok o) (hdown : w.TurnsDown action o.value) : w.Untouched o := by
  cases action with
  | createWorkspace id name => exact hdown.elim
  | setArea area offset => exact hdown.elim
  | setCovered covered => exact hdown.elim
  | refresh => exact hdown.elim
  | sweep time => exact hdown.elim
  | restore session => exact hdown.elim
  | deleteWorkspace id => cases h; exact (untouched_deleteWorkspace hdown).map _
  | switchTo id => cases h; exact (untouched_switchTo hdown).map _
  | openTab workspace id title url =>
    cases h
    exact (untouched_openTab (Reply.tab.inj hdown)).map _
  | editTab id edit => cases h; exact (untouched_editTab (Reply.flag.inj hdown)).map _
  | closeTab id => cases h; exact (untouched_closeTab hdown).map _
  | moveTab id dest => cases h; exact (untouched_moveTab hdown).map _
  | setTier id tier => cases h; exact (untouched_setTier hdown).map _
  | selectTab id => cases h; exact (untouched_selectTab hdown).map _
  | toggleSplit => cases h; exact (untouched_toggleSplit (Reply.flag.inj hdown.1) hdown.2).map _
  | splitWith tab side => cases h; exact (untouched_splitWith (Reply.flag.inj hdown)).map _
  | focusToward heading => cases h; exact (untouched_focusToward (Reply.flag.inj hdown)).map _
  | focusAt x y => cases h; exact (untouched_focusAt (Reply.tab.inj hdown)).map _
  | grabDivider x y => cases h; exact (untouched_grabDivider (Reply.flag.inj hdown)).map _
  | grabTab tab => cases h; exact (untouched_grabTab (Reply.flag.inj hdown)).map _
  | pointerMove x y =>
    cases h
    rw [pointerMove_of_grab_none hdown]
    exact w.untouched_quiet _
  | frame =>
    rw [perform, frame_of_grab_none hdown] at h
    cases h
    exact w.untouched_quiet _
  | release =>
    rw [perform, release_of_grab_none hdown] at h
    cases h
    exact w.untouched_quiet _
  | cancel =>
    rw [perform, cancel_of_grab_none hdown] at h
    cases h
    exact w.untouched_quiet _

theorem exists_perform_of_grab_none (h : w.grab = none) (now : Clock) (action : Action α) :
    ∃ o, w.perform now action = .ok o := by
  cases action with
  | frame => exact ⟨_, congrArg (Except.map Outcome.done) (frame_of_grab_none h)⟩
  | release => exact ⟨_, congrArg (Except.map Outcome.done) (release_of_grab_none h now)⟩
  | cancel => exact ⟨_, congrArg (Except.map Outcome.done) (cancel_of_grab_none h now)⟩
  | _ => exact ⟨_, rfl⟩

theorem untouched_startUp {w : Window Float} {settings : Settings Float} {home : String}
    {files : Files}
    (h : (w.startUp now settings home files).value = .ok none ∨
      ∃ e, (w.startUp now settings home files).value = .error e) :
    w.Untouched (w.startUp now settings home files) := by
  revert h
  unfold startUp
  split
  · split
    · rintro (hnone | ⟨e, herror⟩)
      · cases hnone
      · cases herror
    · exact fun _ => w.untouched_quiet _
    · exact fun _ => w.untouched_quiet _
  · exact fun _ => w.untouched_quiet _

/-- Whatever is turned down, names what is not there, or comes without the drag that it is for,
leaves the window as it was and asks nothing of the host; so does a start without a session that can
be read. Letting go of a tab where the tree does not take it changes nothing but the drag. -/
theorem turned_down_without_trace (w : Window α) (now : Clock) (action : Action α) :
    (∀ o, w.perform now action = .ok o → w.TurnsDown action o.value →
      o.window = w ∧ o.requests = []) ∧
    (w.grab = none → ∃ o, w.perform now action = .ok o) ∧
    (w.RejectsDrop → ∃ o, w.release now = .ok o ∧ o.window = { w with grab := none }) ∧
    ∀ (v : Window Float) (settings : Settings Float) (home : String) (files : Files),
      ((v.startUp now settings home files).value = .ok none ∨
        ∃ e, (v.startUp now settings home files).value = .error e) →
          (v.startUp now settings home files).window = v ∧
            (v.startUp now settings home files).requests = [] :=
  ⟨fun _ ho hdown => untouched_perform ho hdown,
    fun hgrab => exists_perform_of_grab_none hgrab now action,
    fun hrejects => release_of_rejectsDrop hrejects now, fun _ _ _ _ => untouched_startUp⟩

/-- While a tab is held over the first of three panes, another one opens a fourth. -/
def overtakenDrag : List (Clock × Action Rat) :=
  [(0, .createWorkspace ⟨0⟩ "main"), (1, .setArea ⟨0, 0, 800, 600⟩ (0, 0)),
    (2, .openTab ⟨0⟩ ⟨"a"⟩ "A" "https://a.test"), (3, .openTab ⟨0⟩ ⟨"b"⟩ "B" "https://b.test"),
    (4, .openTab ⟨0⟩ ⟨"c"⟩ "C" "https://c.test"), (5, .openTab ⟨0⟩ ⟨"d"⟩ "D" "https://d.test"),
    (6, .openTab ⟨0⟩ ⟨"e"⟩ "E" "https://e.test"), (7, .splitWith ⟨"b"⟩ .right),
    (8, .splitWith ⟨"c"⟩ .right), (9, .grabTab ⟨"e"⟩), (10, .pointerMove 10 300), (11, .frame),
    (12, .splitWith ⟨"d"⟩ .right)]

theorem turned_down_without_trace_overtakenDrag :
    ∃ w, (ofSettings Settings.standard).run overtakenDrag = .ok w ∧ w.isDragging = true ∧
      (∃ o, w.perform 13 (.splitWith ⟨"e"⟩ .left) = .ok o ∧ o.value = .flag false ∧
        o.window = w ∧ o.requests = []) ∧
      ∃ o, w.release 13 = .ok o ∧ o.window = { w with grab := none } := by
  have hplayed : ∃ w, (ofSettings Settings.standard).run overtakenDrag = .ok w ∧
      w.isDragging = true ∧ (w.splitWith 13 ⟨"e"⟩ .left).value = false ∧ w.RejectsDrop :=
    exists_run_of_any (by decide +kernel)
  obtain ⟨w, hw, hdragging, hvalue, hrejects⟩ := hplayed
  obtain ⟨hdown, -, hrelease, -⟩ := turned_down_without_trace w 13 (.splitWith ⟨"e"⟩ .left)
  have hflag : (.flag (w.splitWith 13 ⟨"e"⟩ .left).value : Reply Rat) = .flag false := by
    rw [hvalue]
  exact ⟨w, hw, hdragging, ⟨_, rfl, hflag, hdown _ rfl hflag⟩, hrelease hrejects⟩

end PaneTiling.Window
