import PaneTiling.Proofs.Window.Front

/-!
The workspace that a drag belongs to. It is the one that was in front when the drag began, and it
stays in front for as long as no tab of another workspace is selected: switching to another
workspace, deleting the one in front and restoring a session all end the drag, but selecting a tab
turns to its workspace and lets the drag go on behind it.
-/

namespace PaneTiling

variable {α : Type}

namespace Grab

def home : Grab α → WorkspaceId
  | divider grab => grab.workspace
  | tab grab => grab.workspace

theorem home_forget (grab : Grab α) : grab.forget.home = grab.home := by
  cases grab <;> rfl

inductive SameHold : Grab α → Grab α → Prop
  | divider {grab was : DividerGrab α} (hworkspace : grab.workspace = was.workspace)
    (hdivider : grab.divider = was.divider) : SameHold (.divider grab) (.divider was)
  | tab {grab was : TabGrab α} (hworkspace : grab.workspace = was.workspace)
    (htab : grab.tab = was.tab) : SameHold (.tab grab) (.tab was)

theorem SameHold.refl (grab : Grab α) : grab.SameHold grab := by
  cases grab with
  | divider grab => exact .divider rfl rfl
  | tab grab => exact .tab rfl rfl

theorem SameHold.home {grab was : Grab α} (h : grab.SameHold was) : grab.home = was.home := by
  cases h with
  | divider hworkspace => exact hworkspace
  | tab hworkspace => exact hworkspace

end Grab

def Action.SettlesDrag : Action α → Prop
  | .frame | .release | .cancel => True
  | _ => False

def Action.selected? : Action α → Option TabId
  | .selectTab id => some id
  | _ => none

namespace Window

/-- What becomes of a drag: it ends, it goes on, or one begins in the workspace in front. -/
inductive DragStep [Scalar α] (w after : Window α) : Prop
  | ends (h : after.grab = none)
  | goesOn {grab was : Grab α} (hwas : w.grab = some was) (hgrab : after.grab = some grab)
    (hsame : grab.SameHold was)
  | begins {grab : Grab α} (hfree : w.grab = none) (hgrab : after.grab = some grab)
    (hhome : w.front = some grab.home)
    (hdivider : ∀ held, grab = .divider held → held.divider ∈ w.dividers)

theorem DragStep.of_eq [Scalar α] {w after : Window α} (h : after.grab = w.grab) :
    DragStep w after := by
  cases hwas : w.grab with
  | none => exact .ends (h.trans hwas)
  | some was => exact .goesOn hwas (h.trans hwas) (.refl was)

/-- A drag in progress belongs to the workspace in front, which is there. -/
def DragsInFront (w : Window α) : Prop :=
  ∀ grab ∈ w.grab, w.front = some grab.home ∧ grab.home ∈ w.workspaceIds

instance (w : Window α) : Decidable w.DragsInFront :=
  inferInstanceAs (Decidable (∀ grab ∈ w.grab, _))

theorem DragsInFront.step [Scalar α] {w after : Window α} (h : w.DragsInFront)
    (hstep : DragStep w after) (hfront : after.front = w.front) (hfronted : after.Fronted) :
    after.DragsInFront := by
  intro grab hgrab
  have hhome : after.front = some grab.home := by
    cases hstep with
    | ends hended => cases hended.symm.trans hgrab
    | goesOn hwas hnow hsame =>
      cases hnow.symm.trans hgrab
      rw [hfront, hsame.home]
      exact (h _ hwas).1
    | begins _ hnow hbegun _ =>
      cases hnow.symm.trans hgrab
      exact hfront.trans hbegun
  exact ⟨hhome, hfronted _ hhome⟩

theorem dragsInFront_of_grab_none {after : Window α} (h : after.grab = none) :
    after.DragsInFront := by
  rw [DragsInFront, h]
  exact nofun

def SameBehind (after w : Window α) : Prop :=
  ∀ place, w.frontIndex? ≠ some place → after.workspaces[place]? = w.workspaces[place]?

theorem sameBehind_modify {w : Window α} {id : WorkspaceId} {index : Nat}
    (hfront : w.front = some id) (hindex : w.indexOf? id = some index)
    (change : Workspace α → Workspace α) : (w.modifyWorkspace index change).SameBehind w := by
  intro place hplace
  rw [getElem?_modifyWorkspace, if_neg]
  rintro rfl
  exact hplace (by rw [frontIndex?, hfront, Option.bind_some, hindex])

/-- A tab that is selected during a drag is found in the workspace of the drag. -/
def SelectsHome (w : Window α) (action : Action α) : Prop :=
  ∀ id ∈ action.selected?, ∀ grab ∈ w.grab, ∀ index ∈ w.indexOfTab? id,
    ∀ ws ∈ w.workspaces[index]?, ws.id = grab.home

instance (w : Window α) (action : Action α) : Decidable (w.SelectsHome action) :=
  inferInstanceAs (Decidable (∀ id ∈ action.selected?, _))

theorem selectsHome_selectTab {w : Window α} {id : TabId} :
    w.SelectsHome (.selectTab id) ↔ ∀ grab ∈ w.grab, ∀ index ∈ w.indexOfTab? id,
      ∀ ws ∈ w.workspaces[index]?, ws.id = grab.home := by
  simp only [SelectsHome, Action.selected?, Option.mem_some_iff, forall_eq']

theorem grab_editTab (w : Window α) (id : TabId) (edit : TabEdit) :
    (w.editTab id edit).window.grab = w.grab := by
  unfold editTab
  split <;> rfl

variable [Scalar α] {w : Window α} {now : Clock} {action : Action α}

theorem grab_moveDivider {moved : Window α} {grab : DividerGrab α}
    (h : w.moveDivider grab = .ok moved) : moved.grab = w.grab := by
  rcases moveDivider_cases h with ⟨rfl, -⟩ | ⟨index, ws, tree, after, -, -, -, -, rfl⟩
  · rfl
  · rfl

theorem grab_release {o : Outcome α Unit} (h : w.release now = .ok o) : o.window.grab = none := by
  unfold release at h
  split at h
  · cases h
    assumption
  · obtain ⟨moved, hmoved, h⟩ := bind_ok h
    cases h
    exact grab_moveDivider hmoved
  · cases h
    simp only [window_present, dropTab]
    split <;> rfl

theorem dragStep_grabDivider (w : Window α) (x y : α) : DragStep w (w.grabDivider x y).window := by
  unfold grabDivider
  split
  · exact .of_eq rfl
  rename_i hfree
  split
  · rename_i workspace divider hfront hdivider
    refine .begins (by simpa [isDragging] using hfree) rfl hfront fun held hheld => ?_
    cases hheld
    exact List.mem_of_find?_eq_some hdivider
  · exact .of_eq rfl

theorem dragStep_grabTab (w : Window α) (tab : TabId) : DragStep w (w.grabTab tab).window := by
  unfold grabTab
  split
  · exact .of_eq rfl
  rename_i hfree
  split
  · rename_i ws hws
    split
    · obtain ⟨front, hfront, hfound⟩ := Option.bind_eq_some_iff.1 hws
      have hid : ws.id = front := by simpa using List.find?_some hfound
      exact .begins (by simpa [isDragging] using hfree) rfl (hid ▸ hfront) nofun
    · exact .of_eq rfl
  · exact .of_eq rfl

theorem dragStep_pointerMove (w : Window α) (x y : α) : DragStep w (w.pointerMove x y).window := by
  unfold pointerMove
  split
  · exact .of_eq rfl
  · rename_i was hwas
    refine .goesOn hwas rfl ?_
    cases was with
    | divider was => exact .divider rfl rfl
    | tab was => exact .tab rfl rfl

theorem dragStep_frame {o : Outcome α Unit} (h : w.frame = .ok o) : DragStep w o.window := by
  unfold frame at h
  split at h
  · cases h
    exact .of_eq rfl
  · rename_i was hwas
    obtain ⟨moved, -, h⟩ := bind_ok h
    cases h
    exact .goesOn hwas rfl (.divider rfl rfl)
  · rename_i was hwas
    cases h
    exact .goesOn hwas rfl (.tab rfl rfl)

theorem dragStep_deleteWorkspace (w : Window α) (id : WorkspaceId) :
    DragStep w (w.deleteWorkspace id).window := by
  unfold deleteWorkspace
  split
  · exact .of_eq rfl
  · simp only
    split
    · exact .ends rfl
    · exact .of_eq rfl

theorem dragStep_switchTo (w : Window α) (now : Clock) (id : WorkspaceId) :
    DragStep w (w.switchTo now id).window := by
  unfold switchTo
  split
  · exact .of_eq rfl
  · exact .ends rfl

theorem grab_createWorkspace (w : Window α) (id : WorkspaceId) (name : String) :
    (w.createWorkspace id name).window.grab = w.grab := by
  simp only [createWorkspace]
  split <;> rfl

theorem grab_openTab (w : Window α) (now : Clock) (workspace : WorkspaceId) (id : TabId)
    (title url : String) : (w.openTab now workspace id title url).window.grab = w.grab := by
  unfold openTab
  split
  · rfl
  · simp only [window_presentIf]
    rfl

theorem grab_closeTab (w : Window α) (now : Clock) (id : TabId) :
    (w.closeTab now id).window.grab = w.grab := by
  unfold closeTab
  split
  · rfl
  · simp only [window_presentIf]
    rfl

theorem grab_moveTab (w : Window α) (now : Clock) (id : TabId) (dest : WorkspaceId) :
    (w.moveTab now id dest).window.grab = w.grab := by
  unfold moveTab
  split
  · split
    · rfl
    split
    · rfl
    · simp only [window_presentIf]
      rfl
  · rfl

theorem grab_setTier (w : Window α) (now : Clock) (id : TabId) (tier : MemoryTier) :
    (w.setTier now id tier).window.grab = w.grab := by
  unfold setTier
  split
  · rfl
  · simp only [window_presentIf]
    rfl

theorem grab_selectTab (w : Window α) (now : Clock) (id : TabId) :
    (w.selectTab now id).window.grab = w.grab := by
  unfold selectTab
  split <;> rfl

theorem grab_setCovered (w : Window α) (covered : Bool) :
    (w.setCovered covered).window.grab = w.grab := by
  unfold setCovered
  split <;> rfl

theorem grab_toggleSplit (w : Window α) (now : Clock) :
    (w.toggleSplit now).window.grab = w.grab := by
  rcases w.toggleSplit_cases now with ⟨op, -, hwindow⟩ | ⟨-, hwindow | ⟨index, hwindow⟩⟩
  all_goals rw [hwindow]
  all_goals rfl

theorem grab_splitWith (w : Window α) (now : Clock) (tab : TabId) (side : Side) :
    (w.splitWith now tab side).window.grab = w.grab := by
  rcases w.splitWith_cases now tab side with ⟨op, -, hwindow⟩ | ⟨-, hwindow⟩
  all_goals rw [hwindow]
  rfl

theorem grab_focusToward (w : Window α) (now : Clock) (heading : Heading) :
    (w.focusToward now heading).window.grab = w.grab := by
  unfold focusToward
  split <;> rfl

theorem grab_focusAt (w : Window α) (now : Clock) (x y : α) :
    (w.focusAt now x y).window.grab = w.grab := by
  unfold focusAt
  split
  · split <;> rfl
  · rfl

theorem dragStep_perform {o : Outcome α (Reply α)} (h : w.perform now action = .ok o) :
    DragStep w o.window := by
  cases action with
  | createWorkspace id name => cases h; exact .of_eq (w.grab_createWorkspace id name)
  | deleteWorkspace id => cases h; exact w.dragStep_deleteWorkspace id
  | switchTo id => cases h; exact w.dragStep_switchTo now id
  | openTab workspace id title url =>
    cases h
    exact .of_eq (w.grab_openTab now workspace id title url)
  | editTab id edit => cases h; exact .of_eq (w.grab_editTab id edit)
  | closeTab id => cases h; exact .of_eq (w.grab_closeTab now id)
  | moveTab id dest => cases h; exact .of_eq (w.grab_moveTab now id dest)
  | setTier id tier => cases h; exact .of_eq (w.grab_setTier now id tier)
  | selectTab id => cases h; exact .of_eq (w.grab_selectTab now id)
  | setArea area offset => cases h; exact .of_eq rfl
  | setCovered covered => cases h; exact .of_eq (w.grab_setCovered covered)
  | refresh => cases h; exact .of_eq rfl
  | toggleSplit => cases h; exact .of_eq (w.grab_toggleSplit now)
  | splitWith tab side => cases h; exact .of_eq (w.grab_splitWith now tab side)
  | focusToward heading => cases h; exact .of_eq (w.grab_focusToward now heading)
  | focusAt x y => cases h; exact .of_eq (w.grab_focusAt now x y)
  | grabDivider x y => cases h; exact w.dragStep_grabDivider x y
  | grabTab tab => cases h; exact w.dragStep_grabTab tab
  | pointerMove x y => cases h; exact w.dragStep_pointerMove x y
  | frame =>
    obtain ⟨inner, hinner, rfl⟩ := map_ok h
    exact dragStep_frame hinner
  | release =>
    obtain ⟨inner, hinner, rfl⟩ := map_ok h
    exact .ends (grab_release hinner)
  | cancel =>
    obtain ⟨inner, hinner, rfl⟩ := map_ok h
    exact .ends (grab_release hinner)
  | sweep time => cases h; exact .of_eq rfl
  | restore session => cases h; exact .ends rfl

theorem front_selectTab (w : Window α) (now : Clock) (id : TabId) :
    (w.selectTab now id).window.front =
      (((w.indexOfTab? id).bind (w.workspaces[·]?)).map (·.id)).or w.front := by
  unfold selectTab
  split
  · rename_i hnone
    rw [hnone]
    rfl
  · rename_i index hindex
    rw [hindex]
    rfl

theorem dragsInFront_selectTab_iff (hw : w.Fronted) (h : w.DragsInFront) (now : Clock)
    (id : TabId) :
    (w.selectTab now id).window.DragsInFront ↔ w.SelectsHome (.selectTab id) := by
  have hfronted := fronted_selectTab hw now id
  have hfront := w.front_selectTab now id
  rw [DragsInFront, grab_selectTab, selectsHome_selectTab]
  cases hindex : w.indexOfTab? id with
  | none =>
    rw [hindex] at hfront
    refine iff_of_true (fun grab hgrab => ?_) fun _ _ index hfound => ?_
    · have hhome := hfront.trans (h grab hgrab).1
      exact ⟨hhome, hfronted _ hhome⟩
    · cases hfound
  | some index =>
    obtain ⟨ws, hws, -⟩ := getElem?_of_indexOfTab? hindex
    rw [hindex, Option.bind_some, hws, Option.map_some, Option.some_or] at hfront
    refine forall₂_congr fun grab _ => ⟨fun hhome place hplace found hfound => ?_, fun hhome => ?_⟩
    · cases hplace
      cases hws.symm.trans hfound
      exact Option.some.inj (hfront.symm.trans hhome.1)
    · have hturned := hfront.trans (congrArg some (hhome index rfl ws hws))
      exact ⟨hturned, hfronted _ hturned⟩

theorem DragsInFront.createWorkspace (h : w.DragsInFront) (hw : w.Fronted) (id : WorkspaceId)
    (name : String) : (w.createWorkspace id name).window.DragsInFront := by
  have hfronted := fronted_createWorkspace hw id name
  revert hfronted
  simp only [Window.createWorkspace]
  split
  · rename_i hnone
    intro _ grab hgrab
    exact absurd hnone (by simp [(h grab hgrab).1])
  · exact h.step (.of_eq rfl) rfl

theorem DragsInFront.deleteWorkspace (h : w.DragsInFront) (hw : w.Fronted) (id : WorkspaceId) :
    (w.deleteWorkspace id).window.DragsInFront := by
  have hfronted := fronted_deleteWorkspace hw id
  revert hfronted
  unfold Window.deleteWorkspace
  split
  · exact fun _ => h
  simp only
  split
  · exact fun _ => dragsInFront_of_grab_none rfl
  · exact h.step (.of_eq rfl) rfl

theorem DragsInFront.switchTo (h : w.DragsInFront) (now : Clock) (id : WorkspaceId) :
    (w.switchTo now id).window.DragsInFront := by
  unfold Window.switchTo
  split
  · exact h
  · exact dragsInFront_of_grab_none rfl

theorem dragsInFront_perform {o : Outcome α (Reply α)} (hw : w.Fronted) (h : w.DragsInFront)
    (hselect : w.SelectsHome action) (ho : w.perform now action = .ok o) :
    o.window.DragsInFront := by
  by_cases haction : action.MayTurn
  · cases action with
    | createWorkspace id name => cases ho; exact h.createWorkspace hw id name
    | deleteWorkspace id => cases ho; exact h.deleteWorkspace hw id
    | switchTo id => cases ho; exact h.switchTo now id
    | selectTab id => cases ho; exact (dragsInFront_selectTab_iff hw h now id).2 hselect
    | restore session => cases ho; exact dragsInFront_of_grab_none rfl
    | _ => exact haction.elim
  · exact h.step (dragStep_perform ho) (sameFront_perform haction ho).front (fronted_perform hw ho)

theorem sameBehind_moveDivider {moved : Window α} {grab : DividerGrab α}
    (hhome : w.front = some grab.workspace) (h : w.moveDivider grab = .ok moved) :
    moved.SameBehind w := by
  rcases moveDivider_cases h with ⟨rfl, -⟩ | ⟨index, ws, tree, after, hindex, -, -, -, rfl⟩
  · exact fun _ _ => rfl
  · exact sameBehind_modify hhome hindex _

theorem sameBehind_dropTab {grab : TabGrab α} (hhome : w.front = some grab.workspace)
    (now : Clock) : (w.dropTab now grab).SameBehind w := by
  unfold dropTab
  split
  · rename_i hindex
    exact sameBehind_modify hhome hindex _
  · exact fun _ _ => rfl

theorem sameBehind_frame {o : Outcome α Unit} (hhome : ∀ grab ∈ w.grab, w.front = some grab.home)
    (h : w.frame = .ok o) : o.window.SameBehind w := by
  unfold frame at h
  split at h
  · cases h
    exact fun _ _ => rfl
  · rename_i grab hgrab
    obtain ⟨moved, hmoved, h⟩ := bind_ok h
    have hspared := sameBehind_moveDivider (hhome _ hgrab) hmoved
    cases h
    exact hspared
  · cases h
    exact fun _ _ => rfl

theorem sameBehind_release {o : Outcome α Unit} (hhome : ∀ grab ∈ w.grab, w.front = some grab.home)
    (h : w.release now = .ok o) : o.window.SameBehind w := by
  unfold release at h
  split at h
  · cases h
    exact fun _ _ => rfl
  · rename_i grab hgrab
    have hfront : ({ w with grab := none } : Window α).front = some grab.workspace := hhome _ hgrab
    obtain ⟨moved, hmoved, h⟩ := bind_ok h
    have hspared := sameBehind_moveDivider hfront hmoved
    cases h
    exact hspared
  · rename_i grab hgrab
    have hfront : ({ w with grab := none } : Window α).front = some (w.settle grab).workspace :=
      hhome _ hgrab
    cases h
    exact sameBehind_dropTab hfront now

theorem sameBehind_cancel {o : Outcome α Unit} (hhome : ∀ grab ∈ w.grab, w.front = some grab.home)
    (h : w.cancel now = .ok o) : o.window.SameBehind w := by
  refine sameBehind_release (w := { w with grab := w.grab.map Grab.forget }) ?_ h
  intro grab hgrab
  obtain ⟨was, hwas, rfl⟩ := Option.map_eq_some_iff.1 hgrab
  rw [Grab.home_forget]
  exact hhome was hwas

theorem sameBehind_perform {o : Outcome α (Reply α)} (h : w.DragsInFront)
    (haction : action.SettlesDrag) (ho : w.perform now action = .ok o) :
    o.window.SameBehind w := by
  have hhome : ∀ grab ∈ w.grab, w.front = some grab.home := fun grab hgrab => (h grab hgrab).1
  cases action with
  | frame =>
    obtain ⟨inner, hinner, rfl⟩ := map_ok ho
    exact sameBehind_frame hhome hinner
  | release =>
    obtain ⟨inner, hinner, rfl⟩ := map_ok ho
    exact sameBehind_release hhome hinner
  | cancel =>
    obtain ⟨inner, hinner, rfl⟩ := map_ok ho
    exact sameBehind_cancel hhome hinner
  | _ => exact haction.elim

/-- The drag that an action leaves in progress belongs to the workspace in front, and what was
collected does nothing to the workspaces behind it. -/
def DragsOnlyInFront (w : Window α) (now : Clock) (action : Action α) : Prop :=
  Yields (fun o => o.window.DragsInFront ∧ (action.SettlesDrag → o.window.SameBehind w)) w now
    action

theorem dragsOnlyInFront_iff (hw : w.Fronted) (h : w.DragsInFront) :
    w.DragsOnlyInFront now action ↔ w.SelectsHome action := by
  constructor
  · intro hyields
    cases action with
    | selectTab id => exact (dragsInFront_selectTab_iff hw h now id).1 (hyields _ rfl).1
    | _ =>
      intro id hid
      cases hid
  · exact fun hselect o ho =>
      ⟨dragsInFront_perform hw h hselect ho, fun haction => sameBehind_perform h haction ho⟩

/-- A drag belongs to the workspace that was in front when it began. Along a run from the empty
window, drags belong to the workspace in front, and what is collected during them does nothing to
the others, exactly as long as no tab of another workspace is selected during a drag. -/
theorem drags_only_in_front_iff (s : Settings α) (actions : List (Clock × Action α)) :
    (∀ (w : Window α) (now : Clock) (action : Action α) (o : Outcome α (Reply α)),
      w.perform now action = .ok o → DragStep w o.window) ∧
    (Meets DragsOnlyInFront (ofSettings s) actions ↔
      Meets (fun w _ action => w.SelectsHome action) (ofSettings s) actions) := by
  refine ⟨fun _ _ _ _ => dragStep_perform, ?_⟩
  refine meets_congr (fun w => w.Fronted ∧ w.DragsInFront) (fun _ => True) ?_ ?_ ?_
    fun _ _ => trivial
  · exact fun w now action o hinv _ hselect ho =>
      ⟨fronted_perform hinv.1 ho, dragsInFront_perform hinv.1 hinv.2 hselect ho⟩
  · exact fun w now action hinv _ => dragsOnlyInFront_iff hinv.1 hinv.2
  · exact ⟨fronted_ofSettings s, dragsInFront_of_grab_none rfl⟩

def selectedDuringDrag (tab : TabId) : List (Clock × Action Rat) :=
  [(0, .createWorkspace ⟨0⟩ "main"), (1, .createWorkspace ⟨1⟩ "behind"),
    (2, .setArea ⟨0, 0, 800, 600⟩ (0, 0)), (3, .openTab ⟨0⟩ ⟨"a"⟩ "A" "https://a.test"),
    (4, .openTab ⟨0⟩ ⟨"b"⟩ "B" "https://b.test"), (5, .openTab ⟨1⟩ ⟨"c"⟩ "C" "https://c.test"),
    (6, .toggleSplit), (7, .grabDivider 400 300), (8, .pointerMove 500 300), (9, .selectTab tab)]

theorem drags_only_in_front_selectedPane :
    Meets DragsOnlyInFront (ofSettings Settings.standard)
      (selectedDuringDrag ⟨"b"⟩ ++ [(10, .frame), (11, .release)]) := by
  obtain ⟨-, hiff⟩ := drags_only_in_front_iff Settings.standard
    (selectedDuringDrag ⟨"b"⟩ ++ [(10, .frame), (11, .release)])
  exact hiff.2 (by decide +kernel)

/-- The workspace of the other tab is in front now, and the frame resizes the panes behind it. -/
theorem not_drags_only_in_front :
    ∃ w o, (ofSettings Settings.standard).run (selectedDuringDrag ⟨"c"⟩) = .ok w ∧
      w.isDragging = true ∧ ¬w.DragsInFront ∧ w.perform 10 .frame = .ok o ∧
      w.frontIndex? = some 1 ∧ o.window.tree? ⟨0⟩ ≠ w.tree? ⟨0⟩ := by
  have hplayed : ∃ w, (ofSettings Settings.standard).run (selectedDuringDrag ⟨"c"⟩) = .ok w ∧
      ∃ o ∈ (w.perform 10 .frame).toOption, w.isDragging = true ∧ ¬w.DragsInFront ∧
        w.frontIndex? = some 1 ∧ o.window.tree? ⟨0⟩ ≠ w.tree? ⟨0⟩ :=
    exists_run_of_any (by decide +kernel)
  obtain ⟨w, hw, o, ho, hdragging, hstrayed, hfront, hmoved⟩ := hplayed
  exact ⟨w, o, hw, hdragging, hstrayed, ok_of_toOption ho, hfront, hmoved⟩

end Window

end PaneTiling
