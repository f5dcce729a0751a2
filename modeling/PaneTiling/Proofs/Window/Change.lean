import PaneTiling.Proofs.Navigation
import PaneTiling.Proofs.PaneTree.Rewriting
import PaneTiling.Proofs.Workspace.Restoring
import PaneTiling.Proofs.Window.Opening

/-!
What an action can do to the workspaces of a window: each of them was there before and was changed
in one of a few ways, or it is new, or it comes back from a session. Whatever is to be shown to
outlast an action is shown for these changes.
-/

namespace PaneTiling.Window

variable {α : Type} [Scalar α]

inductive Change (w : Window α) (now : Clock) (action : Action α) (ws : Workspace α) :
    Workspace α → Prop
  | kept : Change w now action ws ws
  | touched : Change w now action ws (ws.touchVisible now)
  | added (id : TabId) (title url : String) :
    Change w now action ws (ws.addTab (.fresh id title url now))
  | edited {id : TabId} {edit : TabEdit} (haction : action = .editTab id edit) :
    Change w now action ws (ws.modifyTab id edit.apply)
  | lost {id : TabId} {tab : Tab} {rest : Workspace α}
    (hrest : ws.detach? now id = some (tab, rest)) : Change w now action ws rest
  | adopted (tab : Tab) : Change w now action ws (ws.adopt now.later tab)
  | retiered {id : TabId} {tier : MemoryTier} (haction : action = .setTier id tier) :
    Change w now action ws (ws.retiered now id tier)
  | selected {id : TabId} (htab : ws.HasTab id) : Change w now action ws (ws.selected now id)
  | unsplit : Change w now action ws { ws with tree := none }
  | opened {op : Opening α} (hop : w.opening? action = some op)
    (hws : w.workspaces[op.index]? = some ws) :
    Change w now action ws (ws.opened now op.tree op.tab op.focus)
  | focused {id : TabId} (hid : id ∈ ws.visibleTabs) : Change w now action ws (ws.activate now id)
  | resized {tree moved : PaneTree α} (htree : ws.tree = some tree)
    (hmoved : moved.outline = tree.outline) : Change w now action ws { ws with tree := some moved }
  | demoted (inFront : Bool) (suspendAfter destroyAfter : Nat) (time : Instant) :
    Change w now action ws
      (ws.demote (ws.demotions inFront suspendAfter destroyAfter time))

/-- Where a workspace comes from that is there after an action. -/
inductive Arises (w : Window α) (now : Clock) (action : Action α) : Workspace α → Prop
  | changed {ws after : Workspace α} (hws : ws ∈ w.workspaces)
    (hchange : Change w now action ws after) : Arises w now action after
  | made (id : WorkspaceId) (name : String) : Arises w now action (.empty id name)
  | restored (saved : SavedWorkspace α) : Arises w now action (saved.restored now)
  | restoredInFront (saved : SavedWorkspace α) :
    Arises w now action ((saved.restored now).touchVisible now.later)

variable {w : Window α} {now : Clock} {action : Action α}

theorem arises_of_mem : ∀ ws ∈ w.workspaces, Arises w now action ws :=
  fun _ hws => .changed hws .kept

theorem arises_modify {index : Nat} {change : Workspace α → Workspace α}
    (h : ∀ ws, w.workspaces[index]? = some ws → Change w now action ws (change ws)) :
    ∀ ws ∈ w.workspaces.modify index change, Arises w now action ws := by
  intro ws hws
  have hmodified : ws ∈ (w.modifyWorkspace index change).workspaces := hws
  rcases mem_modifyWorkspace hmodified with hmem | ⟨before, hbefore, rfl⟩
  · exact .changed hmem .kept
  · exact .changed (List.mem_of_getElem? hbefore) (h before hbefore)

theorem map_fst_paneRects_eq {ws : Workspace α} (hws : w.frontWorkspace? = some ws) :
    w.paneRects.map (·.1) = ws.visibleTabs := by
  unfold paneRects Workspace.visibleTabs
  simp only [hws]
  cases ws.tree with
  | some tree => exact PaneTree.map_fst_paneRects w.gap tree w.area
  | none => cases ws.active <;> rfl

theorem arises_focus {index : Nat} (hindex : w.frontIndex? = some index) {target : TabId}
    (htarget : target ∈ w.paneRects.map (·.1)) :
    ∀ ws ∈ w.workspaces.modify index (·.activate now target), Arises w now action ws := by
  refine arises_modify fun ws hws => .focused ?_
  rwa [map_fst_paneRects_eq (frontWorkspace?_of_index hindex hws)] at htarget

theorem arises_focusToward (heading : Heading) :
    ∀ ws ∈ (w.focusToward now heading).window.workspaces, Arises w now action ws := by
  unfold focusToward
  split
  · rename_i index target hindex htarget
    obtain ⟨origin, -, hnearest⟩ := Option.bind_eq_some_iff.1 htarget
    exact arises_focus hindex (mem_of_nearestTab hnearest)
  · exact arises_of_mem

theorem arises_focusAt (x y : α) :
    ∀ ws ∈ (w.focusAt now x y).window.workspaces, Arises w now action ws := by
  unfold focusAt
  split
  · rename_i index target hindex htarget
    split
    · exact arises_of_mem
    · exact arises_focus hindex (mem_of_tabAt htarget)
  · exact arises_of_mem

theorem arises_opened {op : Opening α} (hop : w.opening? action = some op) :
    ∀ ws ∈ (w.opened now op).workspaces, Arises w now action ws :=
  arises_modify fun _ hws => .opened hop hws

theorem arises_toggleSplit :
    ∀ ws ∈ (w.toggleSplit now).window.workspaces, Arises w now .toggleSplit ws := by
  rcases w.toggleSplit_cases now with ⟨op, hop, hwindow⟩ | ⟨-, hwindow | ⟨index, hwindow⟩⟩
  · rw [hwindow]
    exact arises_opened hop
  · rw [hwindow]
    exact arises_of_mem
  · rw [hwindow]
    exact arises_modify fun _ _ => .unsplit

theorem arises_splitWith (tab : TabId) (side : Side) :
    ∀ ws ∈ (w.splitWith now tab side).window.workspaces, Arises w now (.splitWith tab side) ws := by
  rcases w.splitWith_cases now tab side with ⟨op, hop, hwindow⟩ | ⟨-, hwindow⟩
  · rw [hwindow]
    exact arises_opened hop
  · rw [hwindow]
    exact arises_of_mem

theorem arises_createWorkspace (id : WorkspaceId) (name : String) :
    ∀ ws ∈ (w.createWorkspace id name).window.workspaces, Arises w now action ws := by
  have hall : ∀ ws ∈ w.workspaces ++ [.empty id name], Arises w now action ws := by
    intro ws hws
    rcases List.mem_append.1 hws with hmem | hnew
    · exact arises_of_mem ws hmem
    · rw [List.mem_singleton.1 hnew]
      exact .made id name
  simp only [createWorkspace]
  split
  · exact hall
  · exact hall

theorem arises_deleteWorkspace (id : WorkspaceId) :
    ∀ ws ∈ (w.deleteWorkspace id).window.workspaces, Arises w now action ws := by
  have hall (index : Nat) : ∀ ws ∈ w.workspaces.eraseIdx index, Arises w now action ws :=
    fun ws hws => arises_of_mem ws (List.mem_of_mem_eraseIdx hws)
  unfold deleteWorkspace
  split
  · exact arises_of_mem
  · rename_i index hindex
    simp only
    split
    · exact hall index
    · exact hall index

theorem arises_switchTo (id : WorkspaceId) :
    ∀ ws ∈ (w.switchTo now id).window.workspaces, Arises w now action ws := by
  unfold switchTo
  split
  · exact arises_of_mem
  · rename_i index hindex
    have hall : ∀ ws ∈ w.workspaces.modify index (·.touchVisible now), Arises w now action ws :=
      arises_modify fun _ _ => .touched
    exact hall

theorem arises_openTab (workspace : WorkspaceId) (id : TabId) (title url : String) :
    ∀ ws ∈ (w.openTab now workspace id title url).window.workspaces, Arises w now action ws := by
  unfold openTab
  split
  · exact arises_of_mem
  · simp only [window_presentIf]
    exact arises_modify fun _ _ => .added id title url

theorem arises_editTab (id : TabId) (edit : TabEdit) :
    ∀ ws ∈ (w.editTab id edit).window.workspaces, Arises w now (.editTab id edit) ws := by
  unfold editTab
  split
  · exact arises_of_mem
  · exact arises_modify fun _ _ => .edited rfl

theorem arises_closeTab (id : TabId) :
    ∀ ws ∈ (w.closeTab now id).window.workspaces, Arises w now action ws := by
  unfold closeTab
  split
  · exact arises_of_mem
  · simp only [window_presentIf]
    refine arises_modify fun ws _ => ?_
    cases hdetach : ws.detach? now id with
    | none => exact .kept
    | some gone => exact .lost hdetach

theorem arises_moveTab (id : TabId) (dest : WorkspaceId) :
    ∀ ws ∈ (w.moveTab now id dest).window.workspaces, Arises w now action ws := by
  unfold moveTab
  split
  · rename_i source target hsource htarget
    split
    · exact arises_of_mem
    rename_i hne
    split
    · exact arises_of_mem
    rename_i tab rest hdetach
    obtain ⟨home, hhome, hrest⟩ := Option.bind_eq_some_iff.1 hdetach
    simp only [window_presentIf]
    intro ws hws
    rcases mem_modifyWorkspace hws with hmem | ⟨before, hbefore, rfl⟩
    · rcases mem_modifyWorkspace hmem with hkept | ⟨left, hleft, rfl⟩
      · exact arises_of_mem ws hkept
      · exact .changed (List.mem_of_getElem? hhome) (.lost hrest)
    · rw [getElem?_modifyWorkspace, if_neg hne] at hbefore
      exact .changed (List.mem_of_getElem? hbefore) (.adopted tab)
  · exact arises_of_mem

theorem arises_setTier (id : TabId) (tier : MemoryTier) :
    ∀ ws ∈ (w.setTier now id tier).window.workspaces, Arises w now (.setTier id tier) ws := by
  unfold setTier
  split
  · exact arises_of_mem
  · simp only [window_presentIf]
    exact arises_modify fun _ _ => .retiered rfl

theorem arises_selectTab (id : TabId) :
    ∀ ws ∈ (w.selectTab now id).window.workspaces, Arises w now action ws := by
  unfold selectTab
  split
  · exact arises_of_mem
  · rename_i index hindex
    obtain ⟨home, hhome, hhas⟩ := getElem?_of_indexOfTab? hindex
    have hall : ∀ ws ∈ w.workspaces.modify index (·.selected now id), Arises w now action ws := by
      refine arises_modify fun ws hws => .selected ?_
      cases hhome.symm.trans hws
      exact hhas
    exact hall

theorem arises_sweep (time : Instant) :
    ∀ ws ∈ (w.sweep time).window.workspaces, Arises w now action ws := by
  intro ws hws
  obtain ⟨index, hlt, rfl⟩ := List.mem_mapIdx.1 hws
  exact .changed (List.getElem_mem hlt) (.demoted _ _ _ time)

theorem arises_restore (session : Session α) :
    ∀ ws ∈ (w.restore now session).window.workspaces, Arises w now action ws := by
  intro ws hws
  have hmem (after : Workspace α) (h : after ∈ session.workspaces.map (·.restored now)) :
      ∃ saved : SavedWorkspace α, saved.restored now = after := by
    obtain ⟨saved, -, hsaved⟩ := List.mem_map.1 h
    exact ⟨saved, hsaved⟩
  have hmodified : ws ∈ (({ w with workspaces := session.workspaces.map (·.restored now) } :
      Window α).modifyWorkspace session.frontOrFirst (·.touchVisible now.later)).workspaces := hws
  rcases mem_modifyWorkspace hmodified with hkept | ⟨before, hbefore, rfl⟩
  · obtain ⟨saved, rfl⟩ := hmem ws hkept
    exact .restored saved
  · obtain ⟨saved, rfl⟩ := hmem before (List.mem_of_getElem? hbefore)
    exact .restoredInFront saved

theorem applyTo_outline {grab : DividerGrab α} {tree moved : PaneTree α}
    (h : grab.applyTo tree = .ok moved) : moved.outline = tree.outline := by
  unfold DividerGrab.applyTo at h
  split at h
  · cases h
    rfl
  · split at h
    · cases h
      rfl
    · exact PaneTree.outline_resize h

theorem moveDivider_cases {grab : DividerGrab α} {moved : Window α}
    (h : w.moveDivider grab = .ok moved) :
    moved = w ∧ w.tree? grab.workspace = none ∨
      ∃ index ws tree after, w.indexOf? grab.workspace = some index ∧
        w.workspaces[index]? = some ws ∧ ws.tree = some tree ∧ grab.applyTo tree = .ok after ∧
        moved = w.withTree index after := by
  have htree? := w.tree?_eq grab.workspace
  unfold moveDivider at h
  split at h
  · rename_i hnone
    cases h
    exact .inl ⟨rfl, by rw [htree?, hnone]; rfl⟩
  · rename_i index hindex
    split at h
    · rename_i hnone
      cases h
      exact .inl ⟨rfl, by rw [htree?, hindex]; exact hnone⟩
    · rename_i tree htree
      obtain ⟨ws, hws, htree⟩ := Option.bind_eq_some_iff.1 htree
      obtain ⟨after, hafter, h⟩ := bind_ok h
      cases h
      exact .inr ⟨index, ws, tree, after, hindex, hws, htree, hafter, rfl⟩

theorem arises_moveDivider {before moved : Window α} {grab : DividerGrab α}
    (h : before.moveDivider grab = .ok moved) (hbefore : before.workspaces = w.workspaces) :
    ∀ ws ∈ moved.workspaces, Arises w now action ws := by
  rcases moveDivider_cases h with
    ⟨rfl, -⟩ | ⟨index, ws, tree, after, -, hws, htree, hafter, rfl⟩
  · rw [hbefore]
    exact arises_of_mem
  · rw [hbefore] at hws
    rw [withTree, modifyWorkspace, hbefore]
    refine arises_modify fun found hfound => ?_
    cases hws.symm.trans hfound
    exact .resized htree (applyTo_outline hafter)

theorem arises_frame {o : Outcome α Unit} (h : w.frame = .ok o) :
    ∀ ws ∈ o.window.workspaces, Arises w now action ws := by
  have hsame : ∀ ws ∈ w.workspaces, Arises w now action ws := arises_of_mem
  unfold frame at h
  split at h
  · cases h
    exact hsame
  · rename_i grab hgrab
    obtain ⟨moved, hmoved, h⟩ := bind_ok h
    cases h
    have hall : ∀ ws ∈ moved.workspaces, Arises w now action ws := arises_moveDivider hmoved rfl
    exact hall
  · cases h
    exact hsame

theorem arises_release {o : Outcome α Unit} (h : w.release now = .ok o) :
    ∀ ws ∈ o.window.workspaces, Arises w now .release ws := by
  have hsame : ∀ ws ∈ w.workspaces, Arises w now .release ws := arises_of_mem
  cases hgrab : w.grab with
  | none =>
    simp only [release, hgrab] at h
    cases h
    exact hsame
  | some grab =>
    cases grab with
    | divider grab =>
      simp only [release, hgrab] at h
      obtain ⟨moved, hmoved, h⟩ := bind_ok h
      cases h
      exact arises_moveDivider hmoved rfl
    | tab grab =>
      rw [release_of_tab hgrab] at h
      cases h
      rcases ({ w with grab := none } : Window α).dropTab_cases now grab with
        ⟨op, hop, hwindow⟩ | ⟨-, hwindow⟩
      · have hopening : w.opening? .release = some op := by
          simp only [opening?, hgrab]
          exact hop
        have hall : ∀ ws ∈ (w.opened now op).workspaces, Arises w now .release ws :=
          arises_opened hopening
        rw [window_present, hwindow]
        exact hall
      · rw [window_present, hwindow]
        exact hsame

theorem arises_cancel {o : Outcome α Unit} (h : w.cancel now = .ok o) :
    ∀ ws ∈ o.window.workspaces, Arises w now action ws := by
  have hsame : ∀ ws ∈ w.workspaces, Arises w now action ws := arises_of_mem
  unfold cancel release at h
  cases hgrab : w.grab with
  | none =>
    simp only [hgrab, Option.map_none] at h
    cases h
    exact hsame
  | some grab =>
    cases grab with
    | divider grab =>
      simp only [hgrab, Option.map_some, Grab.forget] at h
      obtain ⟨moved, hmoved, h⟩ := bind_ok h
      cases h
      exact arises_moveDivider hmoved rfl
    | tab grab =>
      simp only [hgrab, Option.map_some, Grab.forget] at h
      cases h
      exact hsame

theorem workspaces_grabDivider (w : Window α) (x y : α) :
    (w.grabDivider x y).window.workspaces = w.workspaces := by
  unfold grabDivider
  split
  · rfl
  · split <;> rfl

omit [Scalar α] in
theorem workspaces_grabTab (w : Window α) (tab : TabId) :
    (w.grabTab tab).window.workspaces = w.workspaces := by
  unfold grabTab
  split
  · rfl
  · split
    · split <;> rfl
    · rfl

theorem workspaces_pointerMove (w : Window α) (x y : α) :
    (w.pointerMove x y).window.workspaces = w.workspaces := by
  unfold pointerMove
  split <;> rfl

theorem workspaces_setCovered (w : Window α) (covered : Bool) :
    (w.setCovered covered).window.workspaces = w.workspaces := by
  unfold setCovered
  split <;> rfl

theorem arises_perform {o : Outcome α (Reply α)} (h : w.perform now action = .ok o) :
    ∀ ws ∈ o.window.workspaces, Arises w now action ws := by
  have hsame : ∀ ws ∈ w.workspaces, Arises w now action ws := arises_of_mem
  cases action with
  | createWorkspace id name => cases h; exact arises_createWorkspace id name
  | deleteWorkspace id => cases h; exact arises_deleteWorkspace id
  | switchTo id => cases h; exact arises_switchTo id
  | openTab workspace id title url => cases h; exact arises_openTab workspace id title url
  | editTab id edit => cases h; exact arises_editTab id edit
  | closeTab id => cases h; exact arises_closeTab id
  | moveTab id dest => cases h; exact arises_moveTab id dest
  | setTier id tier => cases h; exact arises_setTier id tier
  | selectTab id => cases h; exact arises_selectTab id
  | setArea area offset => cases h; exact hsame
  | setCovered covered => cases h; exact workspaces_setCovered w covered ▸ hsame
  | refresh => cases h; exact hsame
  | toggleSplit => cases h; exact arises_toggleSplit
  | splitWith tab side => cases h; exact arises_splitWith tab side
  | focusToward heading => cases h; exact arises_focusToward heading
  | focusAt x y => cases h; exact arises_focusAt x y
  | grabDivider x y => cases h; exact workspaces_grabDivider w x y ▸ hsame
  | grabTab tab => cases h; exact workspaces_grabTab w tab ▸ hsame
  | pointerMove x y => cases h; exact workspaces_pointerMove w x y ▸ hsame
  | frame =>
    obtain ⟨inner, hinner, rfl⟩ := map_ok h
    exact arises_frame hinner
  | release =>
    obtain ⟨inner, hinner, rfl⟩ := map_ok h
    exact arises_release hinner
  | cancel =>
    obtain ⟨inner, hinner, rfl⟩ := map_ok h
    exact arises_cancel hinner
  | sweep time => cases h; exact arises_sweep time
  | restore session => cases h; exact arises_restore session

end PaneTiling.Window
