import PaneTiling.Proofs.Window.Soundness

/-!
Letting go of a tab. The drop zone is remembered from the last frame, and its anchor may have been
closed, moved away or hidden since. A drop into a tree that still has a pane finds out; one that
finds no tree left takes the anchor at its word. What was seen stays in sight exactly as long as no
tab is put beside one that is not seen.
-/

namespace PaneTiling.Window

variable {α : Type} [Scalar α] {w : Window α} {now : Clock}

/-- What letting go of a tab leaves behind in the workspace it was grabbed in: every pane shows a
tab of the workspace, and what is seen is what was seen before, or that and the tab. -/
def KeepsPanes (w : Window α) (now : Clock) (grab : TabGrab α) : Prop :=
  ∀ ws, w.workspace? grab.workspace = some ws →
    ∃ o after, w.release now = .ok o ∧ o.window.workspace? grab.workspace = some after ∧
      (∀ tree ∈ after.tree, ∀ tab ∈ tree, after.HasTab tab) ∧
      ((∀ tab, tab ∈ after.visibleTabs ↔ tab ∈ ws.visibleTabs) ∨
        ∀ tab, tab ∈ after.visibleTabs ↔ tab ∈ ws.visibleTabs ∨ tab = grab.tab)

theorem workspace?_release_of_opening {grab : TabGrab α} (hgrab : w.grab = some (.tab grab))
    {op : Opening α} (hop : w.dropOpening? grab = some op) (now : Clock) :
    ∃ o ws, w.release now = .ok o ∧ w.workspace? grab.workspace = some ws ∧
      w.workspaces[op.index]? = some ws ∧ ws.Opens op.anchor grab.tab op.tree ∧
      o.window.workspace? grab.workspace = some (ws.opened now op.tree grab.tab grab.tab) := by
  obtain ⟨ws, hindex, hws, hopens, htab, hfocus⟩ := dropOpening?_spec hop
  have hfound : w.workspace? grab.workspace = some ws := by
    rw [workspace?_eq, hindex, Option.bind_some, hws]
  have hkeeps : ({ w with grab := none } : Window α).KeepsId op.index
      (·.opened now op.tree op.tab op.focus) := fun _ _ => rfl
  rcases ({ w with grab := none } : Window α).dropTab_cases now grab with
    ⟨other, hother, hwindow⟩ | ⟨hnone, -⟩
  · cases hop.symm.trans hother
    refine ⟨_, ws, release_of_tab hgrab now, hfound, hws, htab ▸ hopens, ?_⟩
    rw [window_present, hwindow, opened, workspace?_modify hkeeps]
    have hplace : ({ w with grab := none } : Window α).indexOf? grab.workspace = some op.index :=
      hindex
    have hsame : ({ w with grab := none } : Window α).workspace? grab.workspace = some ws := hfound
    rw [if_pos hplace, hsame, Option.map_some, hfocus, htab]
  · cases hop.symm.trans hnone

theorem workspace?_release_of_none {grab : TabGrab α} (hgrab : w.grab = some (.tab grab))
    (hnone : w.dropOpening? grab = none) (now : Clock) :
    ∃ o, w.release now = .ok o ∧
      o.window.workspace? grab.workspace = w.workspace? grab.workspace := by
  rcases ({ w with grab := none } : Window α).dropTab_cases now grab with
    ⟨other, hother, -⟩ | ⟨-, hwindow⟩
  · cases hnone.symm.trans hother
  · refine ⟨_, release_of_tab hgrab now, ?_⟩
    rw [window_present, hwindow]
    rfl

theorem keepsPanes_iff (hw : w.Sound) {grab : TabGrab α} (hgrab : w.grab = some (.tab grab)) :
    w.KeepsPanes now grab ↔ w.OpensBesideSeen .release := by
  rw [OpensBesideSeen, opening?_release hgrab]
  cases hop : w.dropOpening? grab with
  | none =>
    refine iff_of_true (fun ws hws => ?_) nofun
    obtain ⟨o, ho, hsame⟩ := workspace?_release_of_none hgrab hop now
    have hsound := hw ws (List.mem_of_find?_eq_some hws)
    exact ⟨o, ws, ho, hsame.trans hws, hsound.leaf_mem, .inl fun _ => Iff.rfl⟩
  | some op =>
    obtain ⟨o, ws, ho, hws, hplace, hopens, hafter⟩ := workspace?_release_of_opening hgrab hop now
    have hsound := hw ws (List.mem_of_getElem? hplace)
    constructor
    · intro hkeeps other hother found hfound
      cases hother
      cases hplace.symm.trans hfound
      obtain ⟨o', after, ho', hafter', -, hseen⟩ := hkeeps ws hws
      cases ho.symm.trans ho'
      cases hafter.symm.trans hafter'
      rcases hseen with hseen | hseen
      · exact (hseen op.anchor).1 hopens.anchor_mem
      · exact ((hseen op.anchor).1 hopens.anchor_mem).resolve_right hopens.anchor_ne
    · intro hseen found hfound
      cases hws.symm.trans hfound
      have hanchor := hseen op rfl ws hplace
      have hmem (tab : TabId) := hopens.mem_tree_iff_of_visible hsound.toOrderly hanchor (x := tab)
      refine ⟨o, _, ho, hafter, ?_, .inr hmem⟩
      exact (hsound.opened now hopens hanchor (.inr rfl)).leaf_mem

/-- Along a run from the start, letting go of a tab keeps what is seen every time exactly if every
time the tab is put beside something that is seen, or nowhere. -/
theorem keepsPanes_along_iff (s : Settings α) (actions : List (Clock × Action α)) :
    Meets (fun w now action => ∀ grab, action = .release → w.grab = some (.tab grab) →
      w.KeepsPanes now grab) (ofSettings s) actions ↔
    Meets (fun w _ action => w.DropsTab action → w.OpensBesideSeen action) (ofSettings s)
      actions := by
  refine meets_congr Sound (fun _ => True) ?_ ?_ (sound_ofSettings s) fun _ _ => trivial
  · intro w now action o hw _ hseen ho
    refine sound_perform hw ?_ ho
    by_cases hdrop : w.DropsTab action
    · exact hseen hdrop
    · exact opensBesideSeen_of_sound hw hdrop
  · intro w now action hw _
    constructor
    · rintro hkeeps ⟨rfl, grab, hgrab⟩
      exact (keepsPanes_iff hw hgrab).1 (hkeeps grab rfl hgrab)
    · rintro hseen grab rfl hgrab
      exact (keepsPanes_iff hw hgrab).2 (hseen ⟨rfl, grab, hgrab⟩)

/-- A tab is dragged to the side of the pane shown; then another tab is selected and the pane's tab
is closed. -/
def staleDrag : List (Clock × Action Rat) :=
  [(0, .createWorkspace ⟨0⟩ "main"), (1, .setArea ⟨0, 0, 800, 600⟩ (0, 0)),
    (2, .openTab ⟨0⟩ ⟨"a"⟩ "A" "https://a.test"), (3, .openTab ⟨0⟩ ⟨"b"⟩ "B" "https://b.test"),
    (4, .openTab ⟨0⟩ ⟨"c"⟩ "C" "https://c.test"), (5, .grabTab ⟨"c"⟩), (6, .pointerMove 10 300),
    (7, .frame), (8, .selectTab ⟨"b"⟩), (9, .closeTab ⟨"a"⟩)]

def seenAcrossDrop (actions : List (Clock × Action Rat)) (now : Clock) :
    Option (List TabId × List TabId × TabId) := do
  let w ← ((ofSettings Settings.standard).run actions).toOption
  let some (.tab grab) := w.grab | none
  let ws ← w.workspace? grab.workspace
  let o ← (w.release now).toOption
  let after ← o.window.workspace? grab.workspace
  return (ws.visibleTabs, after.visibleTabs, grab.tab)

theorem seenAcrossDrop_staleDrag :
    seenAcrossDrop staleDrag 10 = some ([⟨"b"⟩], [⟨"c"⟩, ⟨"a"⟩], ⟨"c"⟩) := by
  decide +kernel

/-- The tab is put beside the closed one, and the one that was seen is not seen any more. -/
theorem not_keepsPanes_staleDrag :
    ¬Meets (fun w now action => ∀ grab, action = .release → w.grab = some (.tab grab) →
      w.KeepsPanes now grab) (ofSettings Settings.standard) (staleDrag ++ [(10, .release)]) := by
  intro hmeets
  have hseen := seenAcrossDrop_staleDrag
  simp only [seenAcrossDrop, Option.bind_eq_bind, Option.bind_eq_some_iff] at hseen
  obtain ⟨w, hw, hseen⟩ := hseen
  split at hseen
  · rename_i grab hgrab
    simp only [Option.bind_eq_some_iff, Option.pure_def, Option.some.injEq, Prod.mk.injEq] at hseen
    obtain ⟨ws, hws, o, ho, after, hafter, hbefore, hthen, htab⟩ := hseen
    have hkeeps : w.KeepsPanes 10 grab := hmeets.step (ok_of_toOption hw) grab rfl hgrab
    obtain ⟨o', after', ho', hafter', -, hsame⟩ := hkeeps ws hws
    cases (ok_of_toOption ho).symm.trans ho'
    cases hafter.symm.trans hafter'
    rw [hbefore, hthen, htab] at hsame
    -- The closed tab came to be seen.
    rcases hsame with hsame | hsame
    · simpa using hsame ⟨"a"⟩
    · simpa using hsame ⟨"a"⟩
  · cases hseen

end PaneTiling.Window
