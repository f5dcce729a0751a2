import PaneTiling.Proofs.Window.Front

/-!
The outlines of the trees of a window: which panes there are and how they are nested, whatever their
shares. Moving a divider keeps them, and so does whatever neither opens nor closes a pane and leaves
the workspaces where they are.
-/

namespace PaneTiling

variable {α : Type}

def Action.KeepsOutlines : Action α → Prop
  | .createWorkspace _ _ | .openTab _ _ _ _ | .editTab _ _ | .setArea _ _ | .setCovered _
  | .refresh | .focusToward _ | .focusAt _ _ | .grabDivider _ _ | .grabTab _ | .pointerMove _ _
  | .frame | .sweep _ => True
  | .setTier _ tier => tier ≠ .destroyed
  | _ => False

namespace Window

def SameOutlines (after w : Window α) : Prop :=
  ∀ id, (after.tree? id).map PaneTree.outline = (w.tree? id).map PaneTree.outline

variable {w : Window α}

theorem SameOutlines.refl (w : Window α) : w.SameOutlines w := fun _ => rfl

theorem SameOutlines.trans {after third : Window α} (h : third.SameOutlines after)
    (hafter : after.SameOutlines w) : third.SameOutlines w :=
  fun id => (h id).trans (hafter id)

theorem sameOutlines_of_workspaces {after : Window α} (h : after.workspaces = w.workspaces) :
    after.SameOutlines w := by
  intro id
  rw [tree?, tree?, workspace?, workspace?, h]

theorem sameOutlines_modify {index : Nat} {change : Workspace α → Workspace α}
    (hkeeps : w.KeepsId index change)
    (h : ∀ ws, w.workspaces[index]? = some ws →
      (change ws).tree.map PaneTree.outline = ws.tree.map PaneTree.outline) :
    (w.modifyWorkspace index change).SameOutlines w := by
  intro id
  rw [tree?, tree?, workspace?_modify hkeeps]
  split
  · rename_i hindex
    rw [workspace?_eq, hindex, Option.bind_some]
    cases hws : w.workspaces[index]? with
    | none => rfl
    | some ws => exact h ws hws
  · rfl

theorem sameOutlines_focus (w : Window α) (now : Clock) (index : Nat) (target : TabId) :
    (w.modifyWorkspace index (·.activate now target)).SameOutlines w :=
  sameOutlines_modify (fun ws _ => ws.id_activate now target) fun ws _ => by
    rw [Workspace.tree_activate]

theorem sameOutlines_sweep (w : Window α) (time : Instant) :
    (w.sweep time).window.SameOutlines w := by
  intro id
  rw [tree?, tree?, workspace?_eq, workspace?_eq, (w.sameFront_sweep time).indexOf? id,
    Option.bind_assoc, Option.bind_assoc]
  congr 1
  refine Option.bind_congr fun index _ => ?_
  rw [getElem?_sweep, Option.bind_map]
  exact Option.bind_congr fun ws _ => (ws.sameLayout_demote _).tree

variable [Scalar α] {now : Clock} {action : Action α}

theorem sameOutlines_createWorkspace (w : Window α) (id : WorkspaceId) (name : String) :
    (w.createWorkspace id name).window.SameOutlines w := by
  have happend : ({ w with workspaces := w.workspaces ++ [.empty id name] } :
      Window α).SameOutlines w := by
    intro other
    by_cases hother : other ∈ w.workspaceIds
    · rw [tree?, tree?, workspace?_append hother]
    · have hnone : w.workspace? other = none := by
        rwa [← Option.not_isSome_iff_eq_none, isSome_workspace?_iff]
      -- A workspace that is found now is the new one, which has no tree.
      have hempty : ∀ ws ∈ [Workspace.empty id name], (ws : Workspace α).tree = none := by
        simp [Workspace.empty]
      rw [tree?, tree?, hnone, workspace?, List.find?_append, ← workspace?, hnone, Option.none_or]
      cases hnew : [Workspace.empty id name].find? (·.id = other) with
      | none => rfl
      | some ws => rw [Option.bind_some, hempty ws (List.mem_of_find?_eq_some hnew)]; rfl
  simp only [createWorkspace]
  split
  · exact happend
  · exact happend

theorem sameOutlines_moveDivider {moved : Window α} {grab : DividerGrab α}
    (h : w.moveDivider grab = .ok moved) : moved.SameOutlines w := by
  rcases moveDivider_cases h with
    ⟨rfl, -⟩ | ⟨index, ws, tree, after, -, hws, htree, hafter, rfl⟩
  · exact .refl moved
  · refine sameOutlines_modify (fun _ _ => rfl) fun found hfound => ?_
    cases hws.symm.trans hfound
    rw [htree, Option.map_some, Option.map_some, applyTo_outline hafter]

theorem sameOutlines_frame {o : Outcome α Unit} (h : w.frame = .ok o) :
    o.window.SameOutlines w := by
  unfold frame at h
  split at h
  · cases h
    exact .refl w
  · obtain ⟨moved, hmoved, h⟩ := bind_ok h
    cases h
    have hsame := sameOutlines_moveDivider hmoved
    exact hsame
  · cases h
    exact .refl w

theorem sameOutlines_setTier (w : Window α) (now : Clock) (id : TabId) {tier : MemoryTier}
    (htier : tier ≠ .destroyed) : (w.setTier now id tier).window.SameOutlines w := by
  unfold setTier
  split
  · exact .refl w
  · simp only [window_presentIf, if_neg htier]
    exact sameOutlines_modify (fun _ _ => rfl) fun _ _ => rfl

theorem sameOutlines_perform {o : Outcome α (Reply α)} (haction : action.KeepsOutlines)
    (h : w.perform now action = .ok o) : o.window.SameOutlines w := by
  cases action with
  | createWorkspace id name => cases h; exact w.sameOutlines_createWorkspace id name
  | openTab workspace id title url =>
    cases h
    have hsame : (w.openTab now workspace id title url).window.SameOutlines w := by
      unfold openTab
      split
      · exact .refl w
      · rw [window_presentIf]
        exact sameOutlines_modify (fun _ _ => rfl) fun _ _ => rfl
    exact hsame
  | editTab id edit =>
    cases h
    have hsame : (w.editTab id edit).window.SameOutlines w := by
      unfold editTab
      split
      · exact .refl w
      · exact sameOutlines_modify (fun _ _ => rfl) fun _ _ => rfl
    exact hsame
  | setTier id tier => cases h; exact w.sameOutlines_setTier now id haction
  | setArea area offset => cases h; exact .refl w
  | setCovered covered =>
    cases h
    exact sameOutlines_of_workspaces (w.workspaces_setCovered covered)
  | refresh => cases h; exact .refl w
  | focusToward heading =>
    cases h
    have hsame : (w.focusToward now heading).window.SameOutlines w := by
      unfold focusToward
      split
      · exact w.sameOutlines_focus now _ _
      · exact .refl w
    exact hsame
  | focusAt x y =>
    cases h
    have hsame : (w.focusAt now x y).window.SameOutlines w := by
      unfold focusAt
      split
      · split
        · exact .refl w
        · exact w.sameOutlines_focus now _ _
      · exact .refl w
    exact hsame
  | grabDivider x y => cases h; exact sameOutlines_of_workspaces (w.workspaces_grabDivider x y)
  | grabTab tab => cases h; exact sameOutlines_of_workspaces (w.workspaces_grabTab tab)
  | pointerMove x y => cases h; exact sameOutlines_of_workspaces (w.workspaces_pointerMove x y)
  | frame =>
    obtain ⟨inner, hinner, rfl⟩ := map_ok h
    exact sameOutlines_frame hinner
  | sweep time => cases h; exact w.sameOutlines_sweep time
  | _ => exact haction.elim

theorem sameOutlines_run {last : Window α} {actions : List (Clock × Action α)}
    (hactions : ∀ step ∈ actions, step.2.KeepsOutlines) (hrun : w.run actions = .ok last) :
    last.SameOutlines w := by
  have hstep (mid : Window α) (now : Clock) (action : Action α) (o : Outcome α (Reply α))
      (hmid : mid.SameOutlines w) (haction : action.KeepsOutlines)
      (ho : mid.perform now action = .ok o) : o.window.SameOutlines w :=
    (sameOutlines_perform haction ho).trans hmid
  have hmeets : Meets (fun _ _ action => action.KeepsOutlines) w actions :=
    meets_of_forall_mem (fun step hmem _ => hactions step hmem) w
  have hlast := invariant_of_meets hstep (.refl w) hmeets hrun
  exact hlast

end Window

end PaneTiling
