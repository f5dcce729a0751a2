import PaneTiling.Proofs.Workspace.ShownTabs
import PaneTiling.Proofs.Window.LivePanes
import PaneTiling.Proofs.Window.Presentation

/-!
Whether the host is only ever asked to show pages that are in memory. Most actions see to it: what
is in front is swept around, and a tab that is shown anew is used. Five actions show tabs that they
do not use, or use only some of them: deleting the workspace in front, selecting a tab, switching
to a workspace, restoring a session, and letting go of a tab. As long as each of these finds in
memory what it shows and does not use, so does the host.
-/

namespace PaneTiling

variable {α : Type}

def Action.tier? : Action α → Option MemoryTier
  | .setTier _ tier => some tier
  | .editTab _ edit => edit.tier
  | _ => none

def Action.WritesNoTier (action : Action α) : Prop := action.tier? = none

instance (action : Action α) : Decidable action.WritesNoTier :=
  inferInstanceAs (Decidable (action.tier? = none))

def Action.Reveals : Action α → Prop
  | .deleteWorkspace _ | .switchTo _ | .selectTab _ | .restore _ | .release => True
  | _ => False

theorem Workspace.IsLoaded.edit {ws : Workspace α} {other : TabId} (h : ws.IsLoaded other)
    (id : TabId) {edit : Window.TabEdit} (hedit : edit.tier = none) :
    (ws.modifyTab id edit.apply).IsLoaded other := by
  have hfound : (ws.modifyTab id edit.apply).tab? other = _ :=
    tab?_modifyTab ws id other fun _ => rfl
  rw [IsLoaded, hfound]
  obtain ⟨tab, htab, hactive⟩ := h
  have htab' : ws.tab? other = some tab := htab
  split
  · rename_i hother
    rw [← hother, htab']
    exact ⟨edit.apply tab, rfl, by simpa [Window.TabEdit.apply, hedit] using hactive⟩
  · exact ⟨tab, htab, hactive⟩

def Outcome.PlacesLoaded [Scalar α] {β : Type} (o : Outcome α β) : Prop :=
  ∀ placement ∈ o.positions, ∀ pane ∈ placement.panes,
    ∃ ws ∈ o.window.frontWorkspace?, ws.IsLoaded pane.1

instance [Scalar α] {β : Type} (o : Outcome α β) : Decidable o.PlacesLoaded :=
  inferInstanceAs (Decidable (∀ placement ∈ o.positions, _))

namespace Window

def ShowsLoaded (w : Window α) : Prop := ∀ ws ∈ w.frontWorkspace?, ws.ShowsLoaded

instance (w : Window α) : Decidable w.ShowsLoaded :=
  inferInstanceAs (Decidable (∀ ws ∈ w.frontWorkspace?, _))

def Steady (w : Window α) : Prop := ∀ ws ∈ w.workspaces, ws.Steady

def InView (w : Window α) : Prop := w.covered = false ∧ w.isDragging = false

def facing (w : Window α) (index : Nat) : Window α :=
  { w with front := w.workspaces[index]?.map (·.id) }

variable {w : Window α}

theorem showsLoaded_modify_iff {index : Nat} {change : Workspace α → Workspace α}
    (hkeeps : w.KeepsId index change) :
    (w.modifyWorkspace index change).ShowsLoaded ↔ ∀ ws ∈ w.frontWorkspace?,
      if w.frontIndex? = some index then (change ws).ShowsLoaded else ws.ShowsLoaded := by
  rw [ShowsLoaded, frontWorkspace?_modify hkeeps]
  split
  · simp
  · rfl

theorem ShowsLoaded.modify (h : w.ShowsLoaded) {index : Nat} {change : Workspace α → Workspace α}
    (hkeeps : w.KeepsId index change)
    (hchange : w.frontIndex? = some index → ∀ ws, w.workspaces[index]? = some ws →
      ws.ShowsLoaded → (change ws).ShowsLoaded) :
    (w.modifyWorkspace index change).ShowsLoaded := by
  rw [showsLoaded_modify_iff hkeeps]
  intro ws hws
  split
  · rename_i hfront
    have hplace : w.workspaces[index]? = some ws := by
      have hfound : w.frontWorkspace? = some ws := hws
      rwa [frontWorkspace?_eq, hfront, Option.bind_some] at hfound
    exact hchange hfront ws hplace (h ws hws)
  · exact h ws hws

theorem ShowsLoaded.congr (h : w.ShowsLoaded) {after : Window α}
    (hworkspaces : after.workspaces = w.workspaces) (hfront : after.front = w.front) :
    after.ShowsLoaded := by
  have hsame : after.frontWorkspace? = w.frontWorkspace? := by
    unfold frontWorkspace? workspace?
    rw [hworkspaces, hfront]
  rwa [ShowsLoaded, hsame]

theorem ShowsLoaded.sweep (h : w.ShowsLoaded) (time : Instant) :
    (w.sweep time).window.ShowsLoaded := by
  intro ws hws
  have hindex := (w.sameFront_sweep time).frontIndex?
  have hfound : (w.sweep time).window.frontWorkspace? = some ws := hws
  rw [frontWorkspace?_eq, hindex] at hfound
  obtain ⟨index, hfront, hplace⟩ := Option.bind_eq_some_iff.1 hfound
  rw [getElem?_sweep] at hplace
  obtain ⟨before, hbefore, rfl⟩ := Option.map_eq_some_iff.1 hplace
  have hshown := h before (frontWorkspace?_of_index hfront hbefore)
  have hdemotions : w.demotions time index before =
      before.demotions true w.suspendAfter w.destroyAfter time := by
    rw [demotions, decide_eq_true hfront]
  rw [hdemotions]
  exact hshown.demote _ _ _

/-- What has to be true of a window so that its actions show what is in memory. -/
structure Tended (w : Window α) : Prop where
  orderly : w.Orderly
  fronted : w.Fronted
  faced : w.Faced
  steady : w.Steady
  shown : w.ShowsLoaded

namespace Tended

theorem editTab (hw : w.Tended) (id : TabId) {edit : TabEdit} (hedit : edit.tier = none) :
    (w.editTab id edit).window.ShowsLoaded := by
  unfold Window.editTab
  split
  · exact hw.shown
  · refine hw.shown.modify (fun _ _ => rfl) fun _ ws _ hshown => ?_
    exact hshown.congr (ws.sameLayout_modifyTab _ fun _ => rfl) fun _ _ hloaded =>
      hloaded.edit _ hedit

theorem focus (hw : w.Tended) (now : Clock) (index : Nat) (target : TabId) :
    (w.modifyWorkspace index (·.activate now target)).ShowsLoaded :=
  hw.shown.modify (fun ws _ => ws.id_activate now target) fun _ _ _ hshown =>
    hshown.activate now target

theorem isLoaded_active (hw : w.Tended) {index : Nat} (hfront : w.frontIndex? = some index)
    {ws : Workspace α} (hws : w.workspaces[index]? = some ws) {active : TabId}
    (hactive : ws.active = some active) : ws.IsLoaded active :=
  (hw.shown ws (frontWorkspace?_of_index hfront hws)).focus
    (hw.steady ws (List.mem_of_getElem? hws)) active hactive

end Tended

variable [Scalar α] {now : Clock} {action : Action α}

/-- What an action shows and does not use is in memory. Of workspaces that share an id the first is
the one that comes to the front. -/
def RevealsLoaded (w : Window α) : Action α → Prop
  | .deleteWorkspace id => ∀ index ∈ w.indexOf? id, w.frontIndex? = some index →
      ∀ ws ∈ (w.workspaces.eraseIdx index).head?, ws.ShowsLoaded
  | .switchTo id => ∀ ws ∈ w.workspace? id, ∀ tab ∈ ws.visibleTabs, ws.HasTab tab
  | .selectTab id => ∀ index ∈ w.indexOfTab? id, ∀ ws ∈ (w.facing index).frontWorkspace?,
      if (w.facing index).frontIndex? = some index then ws.LoadedBeside id else ws.ShowsLoaded
  | .restore session => ∀ saved ∈ session.workspaces[session.frontOrFirst]?,
      ∀ first ∈ session.workspaces.findIdx? (·.id = saved.id), first ≠ session.frontOrFirst →
        ∀ twin ∈ session.workspaces[first]?, twin.tabs = []
  | .release => ∀ op ∈ w.opening? .release, w.frontIndex? = some op.index →
      ∀ ws ∈ w.workspaces[op.index]?, ws.IsLoaded op.anchor
  | _ => True

instance (w : Window α) : (action : Action α) → Decidable (w.RevealsLoaded action)
  | .deleteWorkspace id => inferInstanceAs (Decidable (∀ index ∈ w.indexOf? id, _ → _))
  | .switchTo id => inferInstanceAs (Decidable (∀ ws ∈ w.workspace? id, _))
  | .selectTab id => inferInstanceAs (Decidable (∀ index ∈ w.indexOfTab? id, _))
  | .restore session =>
    inferInstanceAs (Decidable (∀ saved ∈ session.workspaces[session.frontOrFirst]?, _))
  | .release => inferInstanceAs (Decidable (∀ op ∈ w.opening? .release, _ → _))
  | .createWorkspace _ _ | .openTab _ _ _ _ | .editTab _ _ | .closeTab _ | .moveTab _ _
  | .setTier _ _ | .setArea _ _ | .setCovered _ | .refresh | .toggleSplit | .splitWith _ _
  | .focusToward _ | .focusAt _ _ | .grabDivider _ _ | .grabTab _ | .pointerMove _ _ | .frame
  | .cancel | .sweep _ => instDecidableTrue

theorem Change.steady {ws after : Workspace α} (h : Change w now action ws after)
    (hws : ws.Orderly) (hsteady : ws.Steady) (haction : action.WritesNoTier) : after.Steady := by
  cases h with
  | kept => exact hsteady
  | touched =>
    exact hsteady.congr (ws.sameLayout_touchVisible now) fun _ _ hloaded =>
      Workspace.isLoaded_touchVisible.2 (.inl hloaded)
  | added id title url => exact hsteady.addTab hws rfl
  | edited hedit =>
    subst hedit
    exact hsteady.congr (ws.sameLayout_modifyTab _ fun _ => rfl) fun _ _ hloaded =>
      hloaded.edit _ haction
  | lost hrest => exact hsteady.detach? hrest
  | adopted tab => exact Workspace.steady_alone (Workspace.tree_activate _ _ _)
  | retiered hretier =>
    subst hretier
    cases haction
  | selected htab => exact hsteady.selected now _
  | unsplit => exact Workspace.steady_alone rfl
  | opened hop hplace =>
    obtain ⟨found, hfound, hopens, hfocus, -⟩ := opening?_spec hop
    rcases hfocus with ⟨hanchor, -⟩ | htab
    · exact Workspace.steady_opened (hanchor ▸ hopens.anchor_mem) now _
    · exact Workspace.steady_opened (htab ▸ hopens.tab_mem) now _
  | focused hid => exact hsteady.activate now _
  | resized htree hmoved =>
    intro id hid
    rw [Workspace.visibleTabs_resized htree hmoved]
    exact hsteady id hid
  | demoted inFront suspendAfter destroyAfter time => exact hsteady.demote _ _ _ _

theorem steady_perform {o : Outcome α (Reply α)} (hw : w.Orderly) (hsteady : w.Steady)
    (haction : action.WritesNoTier) (h : w.perform now action = .ok o) : o.window.Steady := by
  intro ws hws
  cases arises_perform h ws hws with
  | changed hmem hchange => exact hchange.steady (hw _ hmem) (hsteady _ hmem) haction
  | made id name => exact nofun
  | restored saved => exact (saved.sound_restored now).steady
  | restoredInFront saved =>
    exact ((saved.sound_restored now).congr (Workspace.sameLayout_touchVisible _ now.later)).steady

theorem showsLoaded_opened_iff (hw : w.Orderly) (hshown : w.ShowsLoaded) {op : Opening α}
    {ws : Workspace α} (hws : w.workspaces[op.index]? = some ws)
    (hopens : ws.Opens op.anchor op.tab op.tree) (now : Clock) :
    (w.opened now op).ShowsLoaded ↔ (w.frontIndex? = some op.index → ws.IsLoaded op.anchor) := by
  have hkeeps : w.KeepsId op.index (·.opened now op.tree op.tab op.focus) := fun _ _ => rfl
  rw [opened, showsLoaded_modify_iff hkeeps]
  by_cases hfront : w.frontIndex? = some op.index
  · have hfound := frontWorkspace?_of_index hfront hws
    have horderly := hw ws (List.mem_of_getElem? hws)
    simp only [hfound, hfront, if_true, Option.mem_some_iff, forall_eq', forall_const]
    exact Workspace.showsLoaded_opened_iff (hshown ws hfound) horderly hopens op.focus
  · simp only [if_neg hfront]
    exact iff_of_true hshown fun h => absurd h hfront

theorem tended_ofSettings (s : Settings α) : (ofSettings s).Tended :=
  ⟨orderly_ofSettings s, fronted_ofSettings s, faced_ofSettings s, nofun, nofun⟩

namespace Tended

theorem createWorkspace (hw : w.Tended) (id : WorkspaceId) (name : String) :
    (w.createWorkspace id name).window.ShowsLoaded := by
  simp only [Window.createWorkspace]
  split
  · rename_i hnone
    have hempty : w.workspaces = [] :=
      List.map_eq_nil_iff.1 (hw.faced (Option.isNone_iff_eq_none.1 hnone))
    intro ws hws
    have hnew : ws ∈ w.workspaces ++ [.empty id name] := List.mem_of_find?_eq_some hws
    rw [hempty, List.nil_append, List.mem_singleton] at hnew
    rw [hnew]
    simp [Workspace.ShowsLoaded, Workspace.visibleTabs, Workspace.empty]
  · rw [window_quiet, ShowsLoaded, frontWorkspace?_append hw.fronted]
    exact hw.shown

theorem openTab (hw : w.Tended) (now : Clock) (workspace : WorkspaceId) (id : TabId)
    (title url : String) : (w.openTab now workspace id title url).window.ShowsLoaded := by
  unfold Window.openTab
  split
  · exact hw.shown
  · simp only [window_presentIf]
    refine hw.shown.modify (fun _ _ => rfl) fun _ ws hws hshown => ?_
    exact hshown.addTab (hw.orderly ws (List.mem_of_getElem? hws)) rfl

theorem closeTab (hw : w.Tended) (now : Clock) (id : TabId) :
    (w.closeTab now id).window.ShowsLoaded := by
  unfold Window.closeTab
  split
  · exact hw.shown
  · simp only [window_presentIf]
    refine hw.shown.modify (w.keepsId_close now id _) fun _ ws hws hshown => ?_
    cases hdetach : ws.detach? now id with
    | none => exact hshown
    | some gone => exact hshown.detach? (hw.orderly ws (List.mem_of_getElem? hws)) hdetach

theorem moveTab (hw : w.Tended) (now : Clock) (id : TabId) (dest : WorkspaceId) :
    (w.moveTab now id dest).window.ShowsLoaded := by
  unfold Window.moveTab
  split
  · rename_i source target hsource htarget
    split
    · exact hw.shown
    split
    · exact hw.shown
    rename_i tab rest hdetach
    obtain ⟨ws, hws, hrest⟩ := Option.bind_eq_some_iff.1 hdetach
    simp only [window_presentIf]
    have hleft : (w.modifyWorkspace source fun _ => rest).ShowsLoaded := by
      refine hw.shown.modify (keepsId_leave hws hrest) fun _ found hfound hshown => ?_
      cases hws.symm.trans hfound
      exact hshown.detach? (hw.orderly ws (List.mem_of_getElem? hws)) hrest
    exact hleft.modify (fun ws _ => ws.id_adopt now.later tab)
      fun _ ws _ _ => ws.showsLoaded_adopt now.later tab
  · exact hw.shown

theorem focusToward (hw : w.Tended) (now : Clock) (heading : Heading) :
    (w.focusToward now heading).window.ShowsLoaded := by
  unfold Window.focusToward
  split
  · exact hw.focus now _ _
  · exact hw.shown

theorem focusAt (hw : w.Tended) (now : Clock) (x y : α) :
    (w.focusAt now x y).window.ShowsLoaded := by
  unfold Window.focusAt
  split
  · split
    · exact hw.shown
    · exact hw.focus now _ _
  · exact hw.shown

theorem toggleSplit (hw : w.Tended) (now : Clock) :
    (w.toggleSplit now).window.ShowsLoaded := by
  rcases w.toggleSplit_cases now with ⟨op, hop, hwindow⟩ | ⟨-, hwindow | ⟨index, hwindow⟩⟩
  · obtain ⟨ws, -, hws, hopens, hactive, -⟩ := toggleOpening?_spec hop
    rw [hwindow, showsLoaded_opened_iff hw.orderly hw.shown hws hopens]
    exact fun hfront => hw.isLoaded_active hfront hws hactive
  · rw [hwindow]
    exact hw.shown
  · rw [hwindow]
    refine hw.shown.modify (fun _ _ => rfl) fun _ ws hws hshown => ?_
    exact hshown.withoutTree (hw.steady ws (List.mem_of_getElem? hws))

theorem splitWith (hw : w.Tended) (now : Clock) (tab : TabId) (side : Side) :
    (w.splitWith now tab side).window.ShowsLoaded := by
  rcases w.splitWith_cases now tab side with ⟨op, hop, hwindow⟩ | ⟨-, hwindow⟩
  · obtain ⟨ws, -, hws, hopens, hactive, -⟩ := splitOpening?_spec hop
    rw [hwindow, showsLoaded_opened_iff hw.orderly hw.shown hws hopens]
    exact fun hfront => hw.isLoaded_active hfront hws hactive
  · rw [hwindow]
    exact hw.shown

end Tended

theorem ShowsLoaded.moveDivider (h : w.ShowsLoaded) {moved : Window α} {grab : DividerGrab α}
    (hmoved : w.moveDivider grab = .ok moved) : moved.ShowsLoaded := by
  rcases moveDivider_cases hmoved with
    ⟨rfl, -⟩ | ⟨index, ws, tree, after, -, hws, htree, hafter, rfl⟩
  · exact h
  · refine h.modify (fun _ _ => rfl) fun _ found hfound hshown id hid => ?_
    cases hws.symm.trans hfound
    rw [Workspace.visibleTabs_resized htree (applyTo_outline hafter)] at hid
    exact hshown id hid

theorem ShowsLoaded.frame (h : w.ShowsLoaded) {o : Outcome α Unit} (ho : w.frame = .ok o) :
    o.window.ShowsLoaded := by
  unfold Window.frame at ho
  split at ho
  · cases ho
    exact h
  · obtain ⟨moved, hmoved, ho⟩ := bind_ok ho
    cases ho
    have hshown := h.moveDivider hmoved
    exact hshown
  · cases ho
    exact h

theorem showsLoaded_deleteWorkspace_iff (hw : w.ShowsLoaded) (id : WorkspaceId) :
    (w.deleteWorkspace id).window.ShowsLoaded ↔ w.RevealsLoaded (.deleteWorkspace id) := by
  unfold deleteWorkspace
  simp only [RevealsLoaded]
  cases hindex : w.indexOf? id with
  | none => exact iff_of_true hw (by simp)
  | some index =>
    simp only [Option.mem_some_iff, forall_eq']
    by_cases hfront : w.frontIndex? = some index
    · simp only [hfront, if_true, window_present, forall_const]
      cases hrest : w.workspaces.eraseIdx index with
      | nil => simp [ShowsLoaded, frontWorkspace?]
      | cons next rest =>
        -- The first workspace is the first one with its id.
        have hfound : (next :: rest).find? (·.id = next.id) = some next := by simp
        simp [ShowsLoaded, frontWorkspace?, workspace?]
    · rw [if_neg hfront, window_quiet, ShowsLoaded, frontWorkspace?_eraseIdx hindex hfront]
      exact iff_of_true hw fun h => absurd h hfront

theorem showsLoaded_switchTo_iff (hw : w.ShowsLoaded) (id : WorkspaceId) :
    (w.switchTo now id).window.ShowsLoaded ↔ w.RevealsLoaded (.switchTo id) := by
  unfold switchTo
  simp only [RevealsLoaded]
  cases hindex : w.indexOf? id with
  | none =>
    rw [workspace?_eq, hindex]
    exact iff_of_true hw (by simp)
  | some index =>
    have hkeeps : ({ w with grab := none, front := some id } : Window α).KeepsId index
        (·.touchVisible now) := fun ws _ => (ws.sameLayout_touchVisible now).id
    have hplace : ({ w with grab := none, front := some id } : Window α).frontIndex? =
        some index := hindex
    simp only [window_present, showsLoaded_modify_iff hkeeps, hplace, if_true,
      Workspace.showsLoaded_touchVisible_iff]
    rfl

theorem showsLoaded_selectTab_iff (hw : w.ShowsLoaded) (id : TabId) :
    (w.selectTab now id).window.ShowsLoaded ↔ w.RevealsLoaded (.selectTab id) := by
  unfold selectTab
  simp only [RevealsLoaded]
  cases hindex : w.indexOfTab? id with
  | none => exact iff_of_true hw (by simp)
  | some index =>
    obtain ⟨home, hhome, htab⟩ := getElem?_of_indexOfTab? hindex
    have hfacing : ({ w.modifyWorkspace index (·.selected now id) with
        front := (w.workspaces[index]?.map (·.id)).or w.front } : Window α) =
          (w.facing index).modifyWorkspace index (·.selected now id) := by
      rw [hhome, Option.map_some, Option.some_or, facing, hhome]
      rfl
    have hkeeps : (w.facing index).KeepsId index (·.selected now id) :=
      fun ws _ => ws.id_selected now id
    have hshown := showsLoaded_modify_iff hkeeps
    rw [← hfacing] at hshown
    simp only [Option.mem_some_iff, forall_eq']
    refine hshown.trans (forall₂_congr fun ws hws => ?_)
    by_cases hfront : (w.facing index).frontIndex? = some index
    · rw [if_pos hfront, if_pos hfront]
      have hfound : (w.facing index).frontWorkspace? = some home :=
        frontWorkspace?_of_index hfront hhome
      cases hfound.symm.trans hws
      exact Workspace.showsLoaded_selected_iff htab
    · rw [if_neg hfront, if_neg hfront]

theorem showsLoaded_restore_iff (session : Session α) :
    (w.restore now session).window.ShowsLoaded ↔ w.RevealsLoaded (.restore session) := by
  let restored : Window α :=
    { w with workspaces := session.workspaces.map (·.restored now), grab := none }
  have hkeeps : (restored.facing session.frontOrFirst).KeepsId session.frontOrFirst
      (·.touchVisible now.later) := fun ws _ => (ws.sameLayout_touchVisible now.later).id
  have hwindow : (w.restore now session).window =
      (restored.facing session.frontOrFirst).modifyWorkspace session.frontOrFirst
        (·.touchVisible now.later) := rfl
  simp only [RevealsLoaded]
  rw [hwindow, showsLoaded_modify_iff hkeeps, frontWorkspace?_eq]
  cases hsaved : session.workspaces[session.frontOrFirst]? with
  | none => simp [facing, restored, frontIndex?, hsaved]
  | some saved =>
    have hfirst : (restored.facing session.frontOrFirst).frontIndex? =
        session.workspaces.findIdx? (·.id = saved.id) := by
      simp only [facing, restored, frontIndex?, List.getElem?_map, hsaved, Option.map_some,
        Option.bind_some, indexOf?, List.findIdx?_map]
      rfl
    have hplace (first : Nat) : (restored.facing session.frontOrFirst).workspaces[first]? =
        session.workspaces[first]?.map (·.restored now) := List.getElem?_map
    simp only [hfirst, Option.mem_some_iff, forall_eq']
    cases session.workspaces.findIdx? (·.id = saved.id) with
    | none => simp
    | some first =>
      simp only [Option.bind_some, hplace, Option.mem_def, Option.some.injEq, forall_eq',
        Option.map_eq_some_iff, forall_exists_index, and_imp, forall_apply_eq_imp_iff₂]
      by_cases hsame : first = session.frontOrFirst
      · simp [hsame, SavedWorkspace.showsLoaded_restored_touched]
      · simp [hsame, SavedWorkspace.showsLoaded_restored_iff]

theorem showsLoaded_release_iff (hw : w.Tended) {o : Outcome α Unit} (ho : w.release now = .ok o) :
    o.window.ShowsLoaded ↔ w.RevealsLoaded .release := by
  unfold RevealsLoaded
  cases hgrab : w.grab with
  | none =>
    simp only [release, hgrab] at ho
    cases ho
    refine iff_of_true hw.shown ?_
    simp [opening?, hgrab]
  | some grab =>
    cases grab with
    | divider grab =>
      simp only [release, hgrab] at ho
      obtain ⟨moved, hmoved, ho⟩ := bind_ok ho
      cases ho
      have hshown : ({ w with grab := none } : Window α).ShowsLoaded := hw.shown
      refine iff_of_true (hshown.moveDivider hmoved) ?_
      simp [opening?, hgrab]
    | tab grab =>
      rw [release_of_tab hgrab] at ho
      cases ho
      rw [opening?_release hgrab]
      rcases ({ w with grab := none } : Window α).dropTab_cases now grab with
        ⟨op, hop, hwindow⟩ | ⟨hnone, hwindow⟩
      · have hplace : w.dropOpening? grab = some op := hop
        obtain ⟨ws, -, hws, hopens, -⟩ := dropOpening?_spec hplace
        have horderly : ({ w with grab := none } : Window α).Orderly := hw.orderly
        have hshown : ({ w with grab := none } : Window α).ShowsLoaded := hw.shown
        rw [window_present, hwindow, showsLoaded_opened_iff horderly hshown hws hopens, hplace]
        simp only [Option.mem_some_iff, forall_eq', hws]
        rfl
      · have hplace : w.dropOpening? grab = none := hnone
        rw [window_present, hwindow, hplace]
        exact iff_of_true hw.shown (by simp)

theorem showsLoaded_perform_iff (hw : w.Tended) (haction : action.WritesNoTier)
    {o : Outcome α (Reply α)} (h : w.perform now action = .ok o) :
    o.window.ShowsLoaded ↔ w.RevealsLoaded action := by
  cases action with
  | createWorkspace id name => cases h; exact iff_of_true (hw.createWorkspace id name) trivial
  | deleteWorkspace id => cases h; exact showsLoaded_deleteWorkspace_iff hw.shown id
  | switchTo id => cases h; exact showsLoaded_switchTo_iff hw.shown id
  | openTab workspace id title url =>
    cases h
    exact iff_of_true (hw.openTab now workspace id title url) trivial
  | editTab id edit => cases h; exact iff_of_true (hw.editTab id haction) trivial
  | closeTab id => cases h; exact iff_of_true (hw.closeTab now id) trivial
  | moveTab id dest => cases h; exact iff_of_true (hw.moveTab now id dest) trivial
  | setTier id tier => cases haction
  | selectTab id => cases h; exact showsLoaded_selectTab_iff hw.shown id
  | setArea area offset => cases h; exact iff_of_true hw.shown trivial
  | setCovered covered =>
    cases h
    have hshown := hw.shown.congr (w.workspaces_setCovered covered)
      (w.sameFront_setCovered covered).front
    exact iff_of_true hshown trivial
  | refresh => cases h; exact iff_of_true hw.shown trivial
  | toggleSplit => cases h; exact iff_of_true (hw.toggleSplit now) trivial
  | splitWith tab side => cases h; exact iff_of_true (hw.splitWith now tab side) trivial
  | focusToward heading => cases h; exact iff_of_true (hw.focusToward now heading) trivial
  | focusAt x y => cases h; exact iff_of_true (hw.focusAt now x y) trivial
  | grabDivider x y =>
    cases h
    have hshown := hw.shown.congr (w.workspaces_grabDivider x y) (w.sameFront_grabDivider x y).front
    exact iff_of_true hshown trivial
  | grabTab tab =>
    cases h
    have hshown := hw.shown.congr (w.workspaces_grabTab tab) (w.sameFront_grabTab tab).front
    exact iff_of_true hshown trivial
  | pointerMove x y =>
    cases h
    have hshown := hw.shown.congr (w.workspaces_pointerMove x y) (w.sameFront_pointerMove x y).front
    exact iff_of_true hshown trivial
  | frame =>
    obtain ⟨inner, hinner, rfl⟩ := map_ok h
    exact iff_of_true (hw.shown.frame hinner) trivial
  | release =>
    obtain ⟨inner, hinner, rfl⟩ := map_ok h
    exact showsLoaded_release_iff hw hinner
  | cancel =>
    obtain ⟨inner, hinner, rfl⟩ := map_ok h
    have hforgotten : ({ w with grab := w.grab.map Grab.forget } : Window α).Tended :=
      ⟨hw.orderly, hw.fronted, hw.faced, hw.steady, hw.shown⟩
    refine iff_of_true ((showsLoaded_release_iff hforgotten hinner).2 ?_) trivial
    simp [RevealsLoaded, opening?_forget]
  | sweep time => cases h; exact iff_of_true (hw.shown.sweep time) trivial
  | restore session => cases h; exact showsLoaded_restore_iff session

theorem revealsLoaded_of_error {e : PaneTree.ResizeError} (h : w.perform now action = .error e) :
    w.RevealsLoaded action := by
  cases action with
  | release =>
    cases hgrab : w.grab with
    | none => simp [RevealsLoaded, opening?, hgrab]
    | some grab =>
      cases grab with
      | divider grab => simp [RevealsLoaded, opening?, hgrab]
      | tab grab =>
        rw [perform, release_of_tab hgrab] at h
        cases h
  | frame => trivial
  | cancel => trivial
  | _ => cases h

theorem yields_showsLoaded_iff (hw : w.Tended) (haction : action.WritesNoTier) :
    Yields (fun o => o.window.ShowsLoaded) w now action ↔ w.RevealsLoaded action := by
  cases h : w.perform now action with
  | error e =>
    refine iff_of_true (fun o ho => ?_) (revealsLoaded_of_error h)
    cases h.symm.trans ho
  | ok o =>
    rw [← showsLoaded_perform_iff hw haction h]
    refine ⟨fun hyields => hyields o h, fun hshown other hother => ?_⟩
    cases h.symm.trans hother
    exact hshown

theorem tended_perform {o : Outcome α (Reply α)} (hw : w.Tended) (haction : action.WritesNoTier)
    (hreveals : w.RevealsLoaded action) (h : w.perform now action = .ok o) : o.window.Tended where
  orderly := orderly_perform hw.orderly h
  fronted := fronted_perform hw.fronted h
  faced := faced_perform hw.faced h
  steady := steady_perform hw.orderly hw.steady haction h
  shown := (showsLoaded_perform_iff hw haction h).2 hreveals

theorem placesLoaded {o : Outcome α (Reply α)} (hw : w.Tended) (h : w.perform now action = .ok o)
    (hshown : o.window.ShowsLoaded) : o.PlacesLoaded := by
  intro placement hplacement pane hpane
  rcases informs_perform hw.orderly hw.fronted h with hpresent | ⟨hquiet, -⟩
  · rw [hpresent, List.mem_singleton] at hplacement
    subst hplacement
    have hmem : pane ∈ o.window.paneRects := by
      simp only [placement] at hpane
      split at hpane
      · cases hpane
      · exact hpane
    cases hfront : o.window.frontWorkspace? with
    | none =>
      rw [paneRects, hfront] at hmem
      cases hmem
    | some ws =>
      have hvisible : pane.1 ∈ ws.visibleTabs :=
        map_fst_paneRects_eq hfront ▸ List.mem_map_of_mem hmem
      exact ⟨ws, rfl, hshown ws hfront pane.1 hvisible⟩
  · rw [hquiet] at hplacement
    cases hplacement

theorem positions_of_not_revealsLoaded {o : Outcome α (Reply α)} (h : w.perform now action = .ok o)
    (hnot : ¬w.RevealsLoaded action) :
    action.Reveals ∧ o.positions = [o.window.placement] := by
  cases action with
  | deleteWorkspace id =>
    cases h
    refine ⟨trivial, ?_⟩
    cases hindex : w.indexOf? id with
    | none => exact absurd (by simp [RevealsLoaded, hindex]) hnot
    | some index =>
      by_cases hfront : w.frontIndex? = some index
      · simp only [deleteWorkspace, hindex, if_pos hfront]
        exact positions_present _ ()
      · exact absurd (by simp [RevealsLoaded, hindex, hfront]) hnot
  | switchTo id =>
    cases h
    refine ⟨trivial, ?_⟩
    cases hindex : w.indexOf? id with
    | none => exact absurd (by simp [RevealsLoaded, workspace?_eq, hindex]) hnot
    | some index =>
      simp only [switchTo, hindex]
      exact positions_present _ ()
  | selectTab id =>
    cases h
    refine ⟨trivial, ?_⟩
    cases hindex : w.indexOfTab? id with
    | none => exact absurd (by simp [RevealsLoaded, hindex]) hnot
    | some index =>
      simp only [selectTab, hindex]
      exact positions_present _ ()
  | restore session =>
    cases h
    exact ⟨trivial, positions_present _ session.issues⟩
  | release =>
    refine ⟨trivial, ?_⟩
    obtain ⟨inner, hinner, rfl⟩ := map_ok h
    cases hgrab : w.grab with
    | none => exact absurd (by simp [RevealsLoaded, opening?, hgrab]) hnot
    | some grab =>
      cases grab with
      | divider grab => exact absurd (by simp [RevealsLoaded, opening?, hgrab]) hnot
      | tab grab =>
        rw [release_of_tab hgrab] at hinner
        cases hinner
        exact positions_present _ ()
  | _ => exact absurd trivial hnot

theorem showsLoaded_of_placesLoaded {o : Outcome α (Reply α)}
    (hpositions : o.positions = [o.window.placement]) (hview : o.window.InView)
    (hplaces : o.PlacesLoaded) : o.window.ShowsLoaded := by
  intro ws hws id hid
  have hpanes : o.window.placement.panes = o.window.paneRects := by
    simp [placement, hview.1, hview.2]
  rw [← map_fst_paneRects_eq hws, ← hpanes] at hid
  obtain ⟨pane, hpane, rfl⟩ := List.mem_map.1 hid
  have hmem : o.window.placement ∈ o.positions := hpositions ▸ List.mem_singleton_self _
  obtain ⟨found, hfound, hloaded⟩ := hplaces _ hmem pane hpane
  cases hws.symm.trans hfound
  exact hloaded

theorem revealsLoaded_of_placesLoaded (hw : w.Tended) (haction : action.WritesNoTier)
    (hplaces : (action.Reveals → Yields (fun o => o.window.InView) w now action) ∧
      Yields Outcome.PlacesLoaded w now action) : w.RevealsLoaded action := by
  obtain ⟨hview, hplaces⟩ := hplaces
  cases h : w.perform now action with
  | error e => exact revealsLoaded_of_error h
  | ok o =>
    by_contra hnot
    obtain ⟨hreveals, hpositions⟩ := positions_of_not_revealsLoaded h hnot
    have hshown := showsLoaded_of_placesLoaded hpositions (hview hreveals o h) (hplaces o h)
    exact hnot ((showsLoaded_perform_iff hw haction h).1 hshown)

/-- Along a run from the start that leaves the tiers to the window, what is to be seen is always in
memory exactly if each action that shows tabs without using them finds them in memory. Then the host
is never asked to show a page that is not; and only then, if nothing hides what is so shown. -/
theorem shown_in_memory_along_iff (s : Settings α) {actions : List (Clock × Action α)}
    (htiers : ∀ step ∈ actions, step.2.WritesNoTier) :
    (Meets (Yields fun o => o.window.ShowsLoaded) (ofSettings s) actions ↔
      Meets (fun w _ action => w.RevealsLoaded action) (ofSettings s) actions) ∧
    (Meets (fun w _ action => w.RevealsLoaded action) (ofSettings s) actions →
      Meets (Yields Outcome.PlacesLoaded) (ofSettings s) actions) ∧
    (Meets (fun w now action => action.Reveals → Yields (fun o => o.window.InView) w now action)
        (ofSettings s) actions →
      Meets (Yields Outcome.PlacesLoaded) (ofSettings s) actions →
        Meets (fun w _ action => w.RevealsLoaded action) (ofSettings s) actions) := by
  have hkeep (w : Window α) (now : Clock) (action : Action α) (o : Outcome α (Reply α))
      (hw : w.Tended) (haction : action.WritesNoTier) (hreveals : w.RevealsLoaded action)
      (ho : w.perform now action = .ok o) : o.window.Tended :=
    tended_perform hw haction hreveals ho
  refine ⟨?_, ?_, fun hview hplaces => ?_⟩
  · refine meets_congr Tended Action.WritesNoTier hkeep ?_ (tended_ofSettings s) htiers
    exact fun w now action hw haction => yields_showsLoaded_iff hw haction
  · refine Meets.imp hkeep ?_ (tended_ofSettings s) htiers
    exact fun w now action hw haction hreveals o ho =>
      placesLoaded hw ho ((showsLoaded_perform_iff hw haction ho).2 hreveals)
  · refine Meets.imp (fun w now action o hw haction hstep ho => ?_) ?_ (tended_ofSettings s) htiers
      (hview.and hplaces)
    · exact hkeep w now action o hw haction (revealsLoaded_of_placesLoaded hw haction hstep) ho
    · exact fun w now action hw haction hstep => revealsLoaded_of_placesLoaded hw haction hstep

/-- Two panes behind another workspace, one of which is given up there. -/
def sweptBehindRun : List (Clock × Action Rat) :=
  [(0, .createWorkspace ⟨0⟩ "front"), (1, .createWorkspace ⟨1⟩ "behind"),
    (2, .openTab ⟨0⟩ ⟨"a"⟩ "A" "https://a.test"), (3, .openTab ⟨1⟩ ⟨"b"⟩ "B" "https://b.test"),
    (4, .openTab ⟨1⟩ ⟨"c"⟩ "C" "https://c.test"), (5, .switchTo ⟨1⟩), (6, .toggleSplit),
    (7, .switchTo ⟨0⟩), (8, .sweep 1000000000)]

theorem shown_in_memory_switchedBack :
    Meets (Yields Outcome.PlacesLoaded) (ofSettings Settings.standard)
      (sweptBehindRun ++ [(9, .switchTo ⟨1⟩), (10, .deleteWorkspace ⟨0⟩)]) :=
  (shown_in_memory_along_iff Settings.standard (by decide +kernel)).2.1 (by decide +kernel)

/-- The panes come to the front because what was in front is deleted, and none is used. -/
theorem not_shown_in_memory_uncovered :
    (∀ step ∈ sweptBehindRun ++ [(9, .deleteWorkspace ⟨0⟩)], step.2.WritesNoTier) ∧
      ¬Meets (Yields Outcome.PlacesLoaded) (ofSettings Settings.standard)
        (sweptBehindRun ++ [(9, .deleteWorkspace ⟨0⟩)]) :=
  ⟨by decide +kernel, by decide +kernel⟩

end Window

end PaneTiling
