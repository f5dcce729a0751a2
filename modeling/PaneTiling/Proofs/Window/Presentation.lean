import PaneTiling.Proofs.Window.Front
import PaneTiling.Proofs.Window.Soundness

/-!
What the host is told. An action asks for at most one placement of the surfaces, and then for what
is to be seen of the window afterwards; if it asks for none, what is to be seen has not changed.
-/

namespace PaneTiling

variable {α : Type}

def Outcome.positions {β : Type} (o : Outcome α β) : List (Placement α) :=
  o.requests.filterMap fun
    | .position placement => some placement
    | .frame => none

/-- What is seen of a workspace depends on these alone. -/
def Workspace.layout (ws : Workspace α) : Option (PaneTree α) × Option TabId := (ws.tree, ws.active)

theorem Workspace.SameLayout.layout_eq {ws other : Workspace α} (h : other.SameLayout ws) :
    other.layout = ws.layout := by
  rw [layout, layout, h.tree, h.active]

namespace Window

theorem focus_congr {w after : Window α}
    (hfront : after.frontWorkspace?.map Workspace.layout = w.frontWorkspace?.map Workspace.layout) :
    after.focus = w.focus := by
  have hsnd := congrArg (Option.bind · Prod.snd) hfront
  rw [Option.bind_map, Option.bind_map] at hsnd
  exact hsnd

theorem focus_modify {w : Window α} {index : Nat} {change : Workspace α → Workspace α}
    (hkeeps : w.KeepsId index change)
    (h : ∀ ws, w.workspaces[index]? = some ws → (change ws).active = ws.active) :
    (w.modifyWorkspace index change).focus = w.focus := by
  unfold focus
  rw [frontWorkspace?_modify hkeeps]
  split
  · rename_i hfront
    rw [Option.bind_map]
    refine Option.bind_congr fun ws hws => h ws ?_
    rwa [frontWorkspace?_eq, hfront, Option.bind_some] at hws
  · rfl

variable [Scalar α] {w : Window α} {now : Clock}

/-- What is to be seen of the window: nothing while a page covers the area or the pointer has hold
of something, and the panes of the workspace in front otherwise. -/
def placement (w : Window α) : Placement α where
  panes := if w.covered || w.isDragging then [] else w.paneRects
  focus := w.focus
  offset := w.offset

theorem placeSurfaces_eq (w : Window α) : w.placeSurfaces = .position w.placement := by
  unfold placeSurfaces placement
  split <;> rfl

theorem positions_present {β : Type} (w : Window α) (value : β) :
    (w.present value).positions = [w.placement] := by
  simp [Outcome.positions, present, placeSurfaces_eq]

/-- The host, which was shown `w`, is shown what is to be seen after the operation. -/
def Informs {β : Type} (w : Window α) (o : Outcome α β) : Prop :=
  o.positions = [o.window.placement] ∨ o.positions = [] ∧ o.window.placement = w.placement

theorem informs_present {β : Type} (w after : Window α) (value : β) :
    w.Informs (after.present value) := .inl (after.positions_present value)

theorem informs_quiet {β : Type} {w after : Window α} (h : after.placement = w.placement)
    (value : β) : w.Informs (after.quiet value) := .inr ⟨rfl, h⟩

theorem informs_presentIf {β : Type} {w after : Window α} {changed : Bool}
    (h : changed = false → after.placement = w.placement) (value : β) :
    w.Informs (after.presentIf changed value) := by
  cases changed with
  | true => exact informs_present w after value
  | false => exact informs_quiet (h rfl) value

theorem paneRects_congr {after : Window α} (hgap : after.gap = w.gap) (harea : after.area = w.area)
    (hfront : after.frontWorkspace?.map Workspace.layout = w.frontWorkspace?.map Workspace.layout) :
    after.paneRects = w.paneRects := by
  unfold paneRects
  cases hbefore : w.frontWorkspace? with
  | none =>
    cases hafter : after.frontWorkspace? with
    | none => rfl
    | some other => simp [hbefore, hafter] at hfront
  | some ws =>
    cases hafter : after.frontWorkspace? with
    | none => simp [hbefore, hafter] at hfront
    | some other =>
      simp only [hbefore, hafter, Option.map_some, Option.some.injEq, Workspace.layout,
        Prod.mk.injEq] at hfront
      simp only [hfront, hgap, harea]

theorem placement_withWorkspaces {workspaces : List (Workspace α)}
    (hfront : ({ w with workspaces } : Window α).frontWorkspace?.map Workspace.layout =
      w.frontWorkspace?.map Workspace.layout) :
    ({ w with workspaces } : Window α).placement = w.placement := by
  have hrects : ({ w with workspaces } : Window α).paneRects = w.paneRects :=
    paneRects_congr rfl rfl hfront
  have hfocus : ({ w with workspaces } : Window α).focus = w.focus := focus_congr hfront
  rw [placement, placement, hrects, hfocus]
  rfl

theorem placement_modify {index : Nat} {change : Workspace α → Workspace α}
    (hkeeps : w.KeepsId index change)
    (h : w.frontIndex? = some index → ∀ ws, w.workspaces[index]? = some ws →
      (change ws).layout = ws.layout) :
    (w.modifyWorkspace index change).placement = w.placement := by
  refine placement_withWorkspaces ?_
  have hmodify := frontWorkspace?_modify hkeeps
  rw [modifyWorkspace] at hmodify
  rw [hmodify]
  split
  · rename_i hfront
    rw [Option.map_map]
    refine Option.map_congr fun ws hws => h hfront ws ?_
    rwa [frontWorkspace?_eq, hfront, Option.bind_some] at hws
  · rfl

theorem informs_createWorkspace (hw : w.Fronted) (id : WorkspaceId) (name : String) :
    w.Informs (w.createWorkspace id name) := by
  simp only [createWorkspace]
  split
  · exact informs_present w _ id
  · have hfront := frontWorkspace?_append hw (.empty id name)
    exact informs_quiet (placement_withWorkspaces (congrArg _ hfront)) id

theorem informs_deleteWorkspace (id : WorkspaceId) : w.Informs (w.deleteWorkspace id) := by
  unfold deleteWorkspace
  split
  · exact informs_quiet rfl ()
  rename_i index hindex
  simp only
  split
  · exact informs_present w _ ()
  · rename_i hne
    have hfront := frontWorkspace?_eraseIdx hindex hne
    exact informs_quiet (placement_withWorkspaces (congrArg _ hfront)) ()

theorem informs_switchTo (id : WorkspaceId) : w.Informs (w.switchTo now id) := by
  unfold switchTo
  split
  · exact informs_quiet rfl ()
  · exact informs_present w _ ()

theorem informs_openTab (hw : w.Orderly) (workspace : WorkspaceId) (id : TabId)
    (title url : String) : w.Informs (w.openTab now workspace id title url) := by
  unfold openTab
  split
  · exact informs_quiet rfl none
  rename_i index hindex
  refine informs_presentIf ?_ _
  intro hshown
  refine placement_modify (fun _ _ => rfl) fun hfront ws hws => ?_
  have htabs : ws.tabs ≠ [] := by
    simpa [hfront, hws] using hshown
  have hactive : ws.active ≠ none := fun hnone =>
    htabs ((hw ws (List.mem_of_getElem? hws)).focus_none.1 hnone)
  obtain ⟨active, hactive⟩ := Option.ne_none_iff_exists'.1 hactive
  simp [Workspace.layout, Workspace.addTab, hactive]

theorem informs_editTab (id : TabId) (edit : TabEdit) : w.Informs (w.editTab id edit) := by
  unfold editTab
  split
  · exact informs_quiet rfl false
  · refine informs_quiet ?_ true
    exact placement_modify (fun _ _ => rfl) fun _ _ _ => rfl

theorem placement_modify_elsewhere {index : Nat} {change : Workspace α → Workspace α}
    (hkeeps : w.KeepsId index change) (h : decide (w.frontIndex? = some index) = false) :
    (w.modifyWorkspace index change).placement = w.placement :=
  placement_modify hkeeps fun hfront => absurd hfront (of_decide_eq_false h)

theorem informs_closeTab (id : TabId) : w.Informs (w.closeTab now id) := by
  unfold closeTab
  split
  · exact informs_quiet rfl ()
  · exact informs_presentIf (placement_modify_elsewhere (w.keepsId_close now id _)) ()

theorem informs_setTier (id : TabId) (tier : MemoryTier) : w.Informs (w.setTier now id tier) := by
  unfold setTier
  split
  · exact informs_quiet rfl ()
  · exact informs_presentIf
      (placement_modify_elsewhere fun ws _ => ws.id_retiered now id tier) ()

theorem informs_moveTab (id : TabId) (dest : WorkspaceId) : w.Informs (w.moveTab now id dest) := by
  unfold moveTab
  split
  · rename_i source target hsource htarget
    split
    · exact informs_quiet rfl ()
    split
    · exact informs_quiet rfl ()
    rename_i tab rest hdetach
    obtain ⟨ws, hws, hrest⟩ := Option.bind_eq_some_iff.1 hdetach
    refine informs_presentIf (fun helsewhere => ?_) ()
    rw [Bool.or_eq_false_iff] at helsewhere
    have hleave := keepsId_leave hws hrest
    rw [← (sameFront_modify hleave).frontIndex?] at helsewhere
    have harrive := placement_modify_elsewhere (fun ws _ => ws.id_adopt now.later tab) helsewhere.2
    rw [(sameFront_modify hleave).frontIndex?] at helsewhere
    exact harrive.trans (placement_modify_elsewhere hleave helsewhere.1)
  · exact informs_quiet rfl ()

theorem informs_selectTab (id : TabId) : w.Informs (w.selectTab now id) := by
  unfold selectTab
  split
  · exact informs_quiet rfl ()
  · exact informs_present w _ ()

theorem informs_setCovered (covered : Bool) : w.Informs (w.setCovered covered) := by
  unfold setCovered
  split
  · exact informs_quiet rfl ()
  · exact informs_present w _ ()

theorem informs_toggleSplit : w.Informs (w.toggleSplit now) := by
  unfold toggleSplit
  split
  · split
    · exact informs_present w _ false
    · split
      · split
        · exact informs_present w _ true
        · exact informs_quiet rfl false
      · exact informs_quiet rfl false
  · exact informs_quiet rfl false

theorem informs_splitWith (tab : TabId) (side : Side) : w.Informs (w.splitWith now tab side) := by
  unfold splitWith
  split
  · simp only
    split
    · exact informs_present w _ true
    · exact informs_quiet rfl false
  · exact informs_quiet rfl false

theorem informs_focusToward (heading : Heading) : w.Informs (w.focusToward now heading) := by
  unfold focusToward
  split
  · exact informs_present w _ true
  · exact informs_quiet rfl false

theorem informs_focusAt (x y : α) : w.Informs (w.focusAt now x y) := by
  unfold focusAt
  split
  · split
    · exact informs_quiet rfl _
    · exact informs_present w _ _
  · exact informs_quiet rfl none

theorem placement_of_dragging (h : w.grab.isSome) :
    w.placement = ⟨[], w.focus, w.offset⟩ := by
  rw [placement, isDragging, h, Bool.or_true, if_pos rfl]

theorem informs_conceal {β : Type} {after : Window α} (h : after.grab.isSome) (value : β) :
    w.Informs (after.conceal value) := by
  refine .inl ?_
  rw [window_conceal, placement_of_dragging h]
  rfl

theorem placement_withGrab {grab : Option (Grab α)} (h : grab.isSome = w.grab.isSome) :
    ({ w with grab } : Window α).placement = w.placement := by
  unfold placement isDragging
  simp only [h]
  rfl

theorem informs_grabDivider (x y : α) : w.Informs (w.grabDivider x y) := by
  unfold grabDivider
  split
  · exact informs_quiet rfl false
  · split
    · exact informs_conceal rfl true
    · exact informs_quiet rfl false

theorem informs_grabTab (tab : TabId) : w.Informs (w.grabTab tab) := by
  unfold grabTab
  split
  · exact informs_quiet rfl false
  · split
    · split
      · exact informs_conceal rfl true
      · exact informs_quiet rfl false
    · exact informs_quiet rfl false

theorem informs_pointerMove (x y : α) : w.Informs (w.pointerMove x y) := by
  unfold pointerMove
  split
  · exact informs_quiet rfl ()
  · rename_i grab hgrab
    refine .inr ⟨?_, ?_⟩
    · simp only [Outcome.positions]
      split <;> rfl
    · exact placement_withGrab (by simp [hgrab])

theorem focus_moveDivider {moved : Window α} {grab : DividerGrab α}
    (h : w.moveDivider grab = .ok moved) : moved.focus = w.focus ∧ moved.offset = w.offset := by
  rcases moveDivider_cases h with ⟨rfl, -⟩ | ⟨index, ws, tree, after, -, -, -, -, rfl⟩
  · exact ⟨rfl, rfl⟩
  · exact ⟨focus_modify (fun _ _ => rfl) fun _ _ => rfl, rfl⟩

theorem informs_frame {o : Outcome α Unit} (h : w.frame = .ok o) : w.Informs o := by
  unfold frame at h
  split at h
  · cases h
    exact informs_quiet rfl ()
  · rename_i grab hgrab
    obtain ⟨moved, hmoved, h⟩ := bind_ok h
    cases h
    have hsame := focus_moveDivider hmoved
    have hafter : ({ moved with grab := some (.divider grab.settled) } :
        Window α).placement = ⟨[], moved.focus, moved.offset⟩ := placement_of_dragging rfl
    refine informs_quiet ?_ ()
    rw [hafter, placement_of_dragging (by simp [hgrab]), hsame.1, hsame.2]
  · rename_i grab hgrab
    cases h
    exact informs_quiet (placement_withGrab (by simp [hgrab])) ()

theorem informs_release {o : Outcome α Unit} (h : w.release now = .ok o) : w.Informs o := by
  unfold release at h
  split at h
  · cases h
    exact informs_quiet rfl ()
  · obtain ⟨moved, hmoved, h⟩ := bind_ok h
    cases h
    exact informs_present w _ ()
  · cases h
    exact informs_present w _ ()

theorem informs_cancel {o : Outcome α Unit} (h : w.cancel now = .ok o) : w.Informs o := by
  have hforget : ({ w with grab := w.grab.map Grab.forget } : Window α).placement = w.placement :=
    placement_withGrab (by simp)
  rcases informs_release h with hpresent | ⟨hquiet, hsame⟩
  · exact .inl hpresent
  · exact .inr ⟨hquiet, hsame.trans hforget⟩

theorem informs_sweep (time : Instant) : w.Informs (w.sweep time) := by
  refine informs_quiet (placement_withWorkspaces ?_) _
  have hindex : ({ w with workspaces := w.demoteIdle time } : Window α).frontIndex? =
      w.frontIndex? := (w.sameFront_sweep time).frontIndex?
  rw [frontWorkspace?_eq, frontWorkspace?_eq, hindex]
  simp only [Option.map_bind]
  refine Option.bind_congr fun index _ => ?_
  simp only [Function.comp_apply, demoteIdle, List.getElem?_mapIdx, Option.map_map]
  exact Option.map_congr fun ws _ => (ws.sameLayout_demote _).layout_eq

theorem informs_map {β γ : Type} {o : Outcome α β} (h : w.Informs o) (f : β → γ) :
    w.Informs (o.map f) := h

theorem informs_perform {action : Action α} {o : Outcome α (Reply α)} (hw : w.Orderly)
    (hfront : w.Fronted) (h : w.perform now action = .ok o) : w.Informs o := by
  cases action with
  | createWorkspace id name => cases h; exact informs_map (informs_createWorkspace hfront id name) _
  | deleteWorkspace id => cases h; exact informs_map (informs_deleteWorkspace id) _
  | switchTo id => cases h; exact informs_map (informs_switchTo id) _
  | openTab workspace id title url =>
    cases h
    exact informs_map (informs_openTab hw workspace id title url) _
  | editTab id edit => cases h; exact informs_map (informs_editTab id edit) _
  | closeTab id => cases h; exact informs_map (informs_closeTab id) _
  | moveTab id dest => cases h; exact informs_map (informs_moveTab id dest) _
  | setTier id tier => cases h; exact informs_map (informs_setTier id tier) _
  | selectTab id => cases h; exact informs_map (informs_selectTab id) _
  | setArea area offset => cases h; exact informs_present w _ _
  | setCovered covered => cases h; exact informs_map (informs_setCovered covered) _
  | refresh => cases h; exact informs_present w _ _
  | toggleSplit => cases h; exact informs_map informs_toggleSplit _
  | splitWith tab side => cases h; exact informs_map (informs_splitWith tab side) _
  | focusToward heading => cases h; exact informs_map (informs_focusToward heading) _
  | focusAt x y => cases h; exact informs_map (informs_focusAt x y) _
  | grabDivider x y => cases h; exact informs_map (informs_grabDivider x y) _
  | grabTab tab => cases h; exact informs_map (informs_grabTab tab) _
  | pointerMove x y => cases h; exact informs_map (informs_pointerMove x y) _
  | frame =>
    obtain ⟨inner, hinner, rfl⟩ := map_ok h
    exact informs_map (informs_frame hinner) _
  | release =>
    obtain ⟨inner, hinner, rfl⟩ := map_ok h
    exact informs_map (informs_release hinner) _
  | cancel =>
    obtain ⟨inner, hinner, rfl⟩ := map_ok h
    exact informs_map (informs_cancel hinner) _
  | sweep time => cases h; exact informs_map (informs_sweep time) _
  | restore session => cases h; exact informs_present w _ _

/-- The host is never stale: in whatever state a run from the start leaves the window, an action
asks once for what is to be seen afterwards, or for nothing and what is to be seen stays. -/
theorem host_never_stale (s : Settings α) {actions : List (Clock × Action α)}
    (hrun : (ofSettings s).run actions = .ok w) (now : Clock) (action : Action α) :
    (∀ o, w.perform now action = .ok o →
      o.positions = [o.window.placement] ∨
        o.positions = [] ∧ o.window.placement = w.placement) ∧
    (BoundsOrdered α → ∃ o, w.perform now action = .ok o) := by
  have hdependable : w.Dependable := dependable_run (dependable_ofSettings s) hrun
  have hfronted : w.Fronted := fronted_run (fronted_ofSettings s) hrun
  exact ⟨fun o ho => informs_perform hdependable.orderly hfronted ho,
    fun hordered => exists_perform hordered hdependable now action⟩

def twoTabsRun : List (Clock × Action Rat) :=
  [(0, .createWorkspace ⟨0⟩ "main"), (1, .setArea ⟨0, 0, 800, 600⟩ (0, 0)),
    (2, .openTab ⟨0⟩ ⟨"a"⟩ "A" "https://a.test"), (3, .openTab ⟨0⟩ ⟨"b"⟩ "B" "https://b.test")]

theorem host_never_stale_twoTabsRun :
    ∃ w o, (ofSettings Settings.standard).run twoTabsRun = .ok w ∧
      w.perform 4 .toggleSplit = .ok o ∧
      (o.positions = [o.window.placement] ∨
        o.positions = [] ∧ o.window.placement = w.placement) := by
  obtain ⟨w, hw⟩ := exists_run PaneTree.boundsOrdered_rat (dependable_ofSettings Settings.standard)
    twoTabsRun
  obtain ⟨hinforms, htotal⟩ := host_never_stale Settings.standard hw 4 .toggleSplit
  obtain ⟨o, ho⟩ := htotal PaneTree.boundsOrdered_rat
  exact ⟨w, o, hw, ho, hinforms o ho⟩

end Window

end PaneTiling
