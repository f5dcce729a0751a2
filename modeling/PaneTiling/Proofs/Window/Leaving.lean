import PaneTiling.Proofs.PaneTree.Tiling
import PaneTiling.Proofs.Window.Addressing
import PaneTiling.Proofs.Workspace.Leaving

/-!
The ways in which a pane leaves its workspace: its tab is closed, its page is destroyed, or its tab
moves to another workspace. What the workspace shows afterwards is the same each time.
-/

namespace PaneTiling.Window

variable {α : Type}

def view? (w : Window α) (id : WorkspaceId) : Option (Option (PaneTree α) × Option TabId) :=
  (w.workspace? id).map Workspace.view

section Modify

variable {w : Window α} {index : Nat} {change : Workspace α → Workspace α}

theorem view?_modify {ws : Workspace α} (hindex : w.indexOf? ws.id = some index)
    (hws : w.workspaces[index]? = some ws) (hid : (change ws).id = ws.id) :
    (w.modifyWorkspace index change).view? ws.id = some (change ws).view := by
  have hkeeps : w.KeepsId index change := by
    intro found hfound
    cases hws.symm.trans hfound
    exact hid
  rw [view?, workspace?_modify hkeeps, if_pos hindex, workspace?_eq, hindex, Option.bind_some, hws]
  rfl

theorem view?_modify_of_ne {id : WorkspaceId} (hindex : w.indexOf? id ≠ some index)
    (hkeeps : w.KeepsId index change) : (w.modifyWorkspace index change).view? id = w.view? id := by
  rw [view?, workspace?_modify hkeeps, if_neg hindex, view?]

end Modify

section Leaving

variable [Scalar α] {w : Window α} {index : Nat} {ws : Workspace α} {tab : TabId}

theorem view?_setTier_destroyed (hindex : w.indexOf? ws.id = some index)
    (htab : w.indexOfTab? tab = some index) (hws : w.workspaces[index]? = some ws) (now : Clock) :
    (w.setTier now tab .destroyed).window.view? ws.id = some (ws.evict now tab).view := by
  simp only [setTier, htab, window_presentIf]
  refine (view?_modify hindex hws ?_).trans ?_
  · exact ws.id_retiered now tab .destroyed
  · exact congrArg some (ws.view_retiered_destroyed now tab)

theorem view?_closeTab (hindex : w.indexOf? ws.id = some index)
    (htab : w.indexOfTab? tab = some index) (hws : w.workspaces[index]? = some ws) {now : Clock}
    (hfocus : (ws.evict now tab).active ≠ some tab) (hhas : ws.HasTab tab) :
    (w.closeTab now tab).window.view? ws.id = some (ws.evict now tab).view := by
  obtain ⟨found, rest, hrest⟩ := Workspace.exists_detach? hhas now
  have hdrop : ((ws.detach? now tab).map (·.2)).getD ws = rest := by
    rw [hrest, Option.map_some, Option.getD_some]
  simp only [closeTab, htab, window_presentIf]
  refine (view?_modify hindex hws ?_).trans (congrArg some ?_)
  · exact (congrArg Workspace.id hdrop).trans (Workspace.id_detach? hrest)
  · exact (congrArg Workspace.view hdrop).trans (Workspace.view_detach? hfocus hrest)

theorem view?_moveTab (hindex : w.indexOf? ws.id = some index)
    (htab : w.indexOfTab? tab = some index) (hws : w.workspaces[index]? = some ws) {now : Clock}
    (hfocus : (ws.evict now tab).active ≠ some tab) (hhas : ws.HasTab tab) {dest : WorkspaceId}
    (hdest : dest ∈ w.workspaceIds) (hne : dest ≠ ws.id) :
    (w.moveTab now tab dest).window.view? ws.id = some (ws.evict now tab).view := by
  obtain ⟨target, htarget⟩ := Option.isSome_iff_exists.1 (isSome_indexOf?_iff.2 hdest)
  have hother : index ≠ target := by
    rintro rfl
    obtain ⟨found, hfound, hid⟩ := getElem?_of_indexOf? htarget
    cases hws.symm.trans hfound
    exact hne hid.symm
  obtain ⟨found, rest, hrest⟩ := Workspace.exists_detach? hhas now
  have hleft : w.KeepsId index fun _ => rest := by
    intro home hhome
    cases hws.symm.trans hhome
    exact Workspace.id_detach? hrest
  simp only [moveTab, htab, htarget, if_neg hother, hws, Option.bind_some, hrest, window_presentIf]
  rw [view?_modify_of_ne _ fun ws _ => ws.id_adopt now.later found,
    view?_modify hindex hws (Workspace.id_detach? hrest), Workspace.view_detach? hfocus hrest]
  rw [indexOf?_modify hleft, hindex]
  exact fun heq => hother (Option.some.inj heq)

/-- However a pane disappears, its workspace is left with the same tree and the same focus: closing
its tab, destroying its page and moving its tab to any other workspace all come to taking the pane
out of the tree. -/
theorem ways_of_leaving_agree {tree : PaneTree α} (hw : w.Distinct) (hws : ws ∈ w.workspaces)
    (htree : ws.tree = some tree) (hshaped : tree.Shaped)
    (hleaves : ∀ leaf ∈ tree, ws.HasTab leaf) (htab : tab ∈ tree) :
    ∃ left, PaneLeft tree ws.active tab left ∧ ∀ now,
      (w.closeTab now tab).window.view? ws.id = some left ∧
      (w.setTier now tab .destroyed).window.view? ws.id = some left ∧
      ∀ dest ∈ w.workspaceIds, dest ≠ ws.id →
        (w.moveTab now tab dest).window.view? ws.id = some left := by
  obtain ⟨left, hleft, hevict⟩ := Workspace.exists_view_evict htree hshaped hleaves htab
  refine ⟨left, hleft, fun now => ?_⟩
  have hfocus : (ws.evict now tab).active ≠ some tab := by
    have hne := hleft.focus_ne hshaped.nodup
    rwa [← hevict now] at hne
  obtain ⟨index, hindex⟩ := List.mem_iff_getElem?.1 hws
  have hreaches := reaches_iff.2 hw
  have hhas := hleaves tab htab
  have hfound := hreaches.workspaces index ws hindex
  have hhome := hreaches.tabs index ws hindex tab hhas
  rw [← hevict now]
  exact ⟨view?_closeTab hfound hhome hindex hfocus hhas,
    view?_setTier_destroyed hfound hhome hindex now,
    fun dest hdest hne => view?_moveTab hfound hhome hindex hfocus hhas hdest hne⟩

end Leaving

def lowerFocused : Workspace Rat :=
  ⟨⟨0⟩, "panes", [.fresh ⟨"a"⟩ "A" "https://a.test" 0, .fresh ⟨"b"⟩ "B" "https://b.test" 0,
    .fresh ⟨"c"⟩ "C" "https://c.test" 0], some ⟨"c"⟩, some PaneTree.paneBesideColumn⟩

def lowerFocusedWindow : Window Rat :=
  { ofSettings Settings.standard with
    workspaces := [lowerFocused, .empty ⟨1⟩ "other"]
    front := some ⟨0⟩ }

theorem ways_of_leaving_agree_lowerFocused :
    lowerFocusedWindow.Distinct ∧ lowerFocused ∈ lowerFocusedWindow.workspaces ∧
      PaneTree.paneBesideColumn.Shaped ∧
      (∀ leaf ∈ PaneTree.paneBesideColumn, lowerFocused.HasTab leaf) ∧
      ∃ left, left.1.map PaneTree.tabIds = some [⟨"a"⟩, ⟨"b"⟩] ∧ left.2 = some ⟨"b"⟩ ∧
        PaneLeft PaneTree.paneBesideColumn (some ⟨"c"⟩) ⟨"c"⟩ left ∧ ∀ now,
          (lowerFocusedWindow.closeTab now ⟨"c"⟩).window.view? ⟨0⟩ = some left ∧
          (lowerFocusedWindow.setTier now ⟨"c"⟩ .destroyed).window.view? ⟨0⟩ = some left ∧
          ∀ dest ∈ lowerFocusedWindow.workspaceIds, dest ≠ ⟨0⟩ →
            (lowerFocusedWindow.moveTab now ⟨"c"⟩ dest).window.view? ⟨0⟩ = some left := by
  have hdistinct : lowerFocusedWindow.Distinct := ⟨by decide, by
    simp [lowerFocusedWindow, Workspace.ids, Workspace.empty]⟩
  have hmem : lowerFocused ∈ lowerFocusedWindow.workspaces := List.mem_cons_self
  have hshaped : PaneTree.paneBesideColumn.Shaped := ⟨by decide, by decide, by decide, by
    simp [PaneTree.paneBesideColumn, PaneTree.branching_split]⟩
  have hleaves : ∀ leaf ∈ PaneTree.paneBesideColumn, lowerFocused.HasTab leaf :=
    fun _ hleaf => hleaf
  refine ⟨hdistinct, hmem, hshaped, hleaves, ?_⟩
  obtain ⟨left, hleft, hways⟩ :=
    ways_of_leaving_agree hdistinct hmem rfl hshaped hleaves (by decide : (⟨"c"⟩ : TabId) ∈ _)
  have hclosed : ((lowerFocusedWindow.closeTab 0 ⟨"c"⟩).window.view? ⟨0⟩).map
      (fun left => (left.1.map PaneTree.tabIds, left.2)) =
        some (some [⟨"a"⟩, ⟨"b"⟩], some ⟨"b"⟩) := by
    decide +kernel
  have hshown : (lowerFocusedWindow.closeTab 0 ⟨"c"⟩).window.view? ⟨0⟩ = some left := (hways 0).1
  rw [hshown] at hclosed
  simp only [Option.map_some, Option.some.injEq, Prod.mk.injEq] at hclosed
  exact ⟨left, hclosed.1, hclosed.2, hleft, hways⟩

end PaneTiling.Window
