import PaneTiling.Proofs.Workspace.LivePanes
import PaneTiling.Proofs.Window.Soundness

/-!
Destroyed tabs are no panes, however a window came to be as it is, as long as each pane that is
opened welcomes: as long as no tab is put beside a destroyed one.
-/

namespace PaneTiling

/-- The only action that may write a tier without more ado is an edit of a tab. -/
def Action.KeepsTiers {α : Type} : Action α → Prop
  | .editTab _ edit => edit.tier = none
  | _ => True

instance {α : Type} (action : Action α) : Decidable action.KeepsTiers := by
  cases action <;> unfold Action.KeepsTiers <;> infer_instance

namespace Window

variable {α : Type} [Scalar α] {w : Window α} {now : Clock} {action : Action α}

def LivePanes (w : Window α) : Prop := ∀ ws ∈ w.workspaces, ws.LivePanes

instance (w : Window α) : Decidable w.LivePanes :=
  inferInstanceAs (Decidable (∀ ws ∈ w.workspaces, _))

/-- The pane that an action opens, if it opens one, welcomes. -/
def OpensWelcome (w : Window α) (now : Clock) (action : Action α) : Prop :=
  ∀ op, w.opening? action = some op → ∀ ws, w.workspaces[op.index]? = some ws →
    ws.Welcomes now op.anchor op.tab

instance (w : Window α) (now : Clock) (action : Action α) :
    Decidable (w.OpensWelcome now action) :=
  inferInstanceAs (Decidable (∀ op ∈ w.opening? action, ∀ ws ∈ w.workspaces[op.index]?, _))

def LeavesLivePanes (w : Window α) (now : Clock) (action : Action α) : Prop :=
  ∀ o, w.perform now action = .ok o → o.window.LivePanes

instance (w : Window α) (now : Clock) (action : Action α) :
    Decidable (w.LeavesLivePanes now action) :=
  match h : w.perform now action with
  | .error _ => isTrue fun o ho => nomatch h.symm.trans ho
  | .ok o => decidable_of_iff o.window.LivePanes (by simp [LeavesLivePanes, h])

theorem Change.livePanes {ws after : Workspace α} (h : Change w now action ws after)
    (hws : ws.Orderly) (hlive : ws.LivePanes) (hkeeps : action.KeepsTiers)
    (hwelcome : w.OpensWelcome now action) : after.LivePanes := by
  cases h with
  | kept => exact hlive
  | touched => exact hlive.touchVisible now
  | added id title url => exact hlive.addTab nofun
  | edited haction =>
    subst haction
    refine hlive.mono (Workspace.spares_modifyTab (fun _ => rfl) fun tab htier => ?_)
      fun _ hleaf => hleaf
    have hnone : _ = none := hkeeps
    rwa [TabEdit.apply, hnone, Option.getD_none] at htier
  | lost hrest => exact hlive.detach? hws hrest
  | adopted tab => exact ws.livePanes_adopt now.later tab
  | retiered haction => exact hlive.retiered hws now _ _
  | selected htab => exact hlive.selected now _
  | unsplit => exact Workspace.livePanes_of_tree_none rfl
  | @opened op hop hplace =>
    obtain ⟨found, hfound, hopens, -⟩ := opening?_spec hop
    cases hfound.symm.trans hplace
    have hwelcomed := hwelcome op hop ws hplace
    exact (Workspace.livePanes_opened_iff hlive hws hopens now op.focus).2 hwelcomed
  | focused hid => exact hlive.activate now _
  | @resized tree moved htree hmoved =>
    refine hlive.mono (.refl ws) fun id hleaf => ?_
    have hid : id ∈ moved := (Workspace.isLeaf_iff rfl).1 hleaf
    rw [Workspace.isLeaf_iff htree, PaneTree.mem_def, ← PaneTree.tabIds_outline, ← hmoved,
      PaneTree.tabIds_outline]
    exact hid
  | demoted inFront suspendAfter destroyAfter time =>
    exact hlive.demote Workspace.not_isLeaf_of_demotions

theorem livePanes_restored (saved : SavedWorkspace α) (now : Instant) :
    (saved.restored now).LivePanes := by
  intro tab htab hdestroyed
  obtain ⟨kept, -, rfl⟩ := List.mem_map.1 htab
  cases hdestroyed

theorem livePanes_perform {o : Outcome α (Reply α)} (hw : w.Orderly) (hlive : w.LivePanes)
    (hkeeps : action.KeepsTiers) (hwelcome : w.OpensWelcome now action)
    (ho : w.perform now action = .ok o) : o.window.LivePanes := by
  intro ws hws
  cases arises_perform ho ws hws with
  | changed hmem hchange =>
    exact hchange.livePanes (hw _ hmem) (hlive _ hmem) hkeeps hwelcome
  | made id name => exact Workspace.livePanes_of_tree_none rfl
  | restored saved => exact livePanes_restored saved now
  | restoredInFront saved => exact (livePanes_restored saved now).touchVisible now.later

theorem leavesLivePanes_iff (hw : w.Orderly) (hlive : w.LivePanes) (hkeeps : action.KeepsTiers) :
    w.LeavesLivePanes now action ↔ w.OpensWelcome now action := by
  constructor
  · intro hleaves op hop ws hplace
    obtain ⟨found, hfound, hopens, -⟩ := opening?_spec hop
    cases hfound.symm.trans hplace
    obtain ⟨o, ho, hworkspaces⟩ := perform_of_opening? hop now
    have hmem := List.mem_of_getElem? hplace
    have hafter : ws.opened now op.tree op.tab op.focus ∈ o.window.workspaces := by
      rw [hworkspaces]
      refine List.mem_of_getElem? (i := op.index) ?_
      rw [opened, getElem?_modifyWorkspace, if_pos rfl, hplace, Option.map_some]
    exact (Workspace.livePanes_opened_iff (hlive ws hmem) (hw ws hmem) hopens now op.focus).1
      (hleaves o ho _ hafter)
  · exact fun hwelcome o ho => livePanes_perform hw hlive hkeeps hwelcome ho

/-- Along a run from the start that writes no tier by an edit, no pane ever shows a destroyed tab
exactly if every pane that is opened welcomes. -/
theorem livePanes_along_iff (s : Settings α) {actions : List (Clock × Action α)}
    (hkeeps : ∀ step ∈ actions, step.2.KeepsTiers) :
    Meets LeavesLivePanes (ofSettings s) actions ↔ Meets OpensWelcome (ofSettings s) actions := by
  refine meets_congr (fun w => w.Orderly ∧ w.LivePanes) Action.KeepsTiers ?_ ?_
    ⟨orderly_ofSettings s, nofun⟩ hkeeps
  · intro w now action o hw haction hwelcome ho
    exact ⟨orderly_perform hw.1 ho, livePanes_perform hw.1 hw.2 haction hwelcome ho⟩
  · intro w now action hw haction
    exact leavesLivePanes_iff hw.1 hw.2 haction

def revivedRun : List (Clock × Action Rat) :=
  [(0, .createWorkspace ⟨0⟩ "main"), (1, .openTab ⟨0⟩ ⟨"a"⟩ "A" "https://a.test"),
    (2, .openTab ⟨0⟩ ⟨"b"⟩ "B" "https://b.test"), (3, .toggleSplit),
    (4, .setTier ⟨"b"⟩ .destroyed), (5, .splitWith ⟨"b"⟩ .right)]

theorem livePanes_revivedRun :
    Meets LeavesLivePanes (ofSettings Settings.standard) revivedRun :=
  (livePanes_along_iff Settings.standard (by decide +kernel)).2 (by decide +kernel)

/-- The only pane is destroyed and then split. -/
def deadAnchorRun : List (Clock × Action Rat) :=
  [(0, .createWorkspace ⟨0⟩ "main"), (1, .openTab ⟨0⟩ ⟨"a"⟩ "A" "https://a.test"),
    (2, .openTab ⟨0⟩ ⟨"b"⟩ "B" "https://b.test"), (3, .setTier ⟨"a"⟩ .destroyed),
    (4, .toggleSplit)]

theorem not_livePanes_deadAnchorRun :
    (∀ step ∈ deadAnchorRun, step.2.KeepsTiers) ∧
      ¬Meets LeavesLivePanes (ofSettings Settings.standard) deadAnchorRun :=
  ⟨by decide +kernel, by decide +kernel⟩

end Window

end PaneTiling
