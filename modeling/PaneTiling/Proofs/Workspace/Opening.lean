import PaneTiling.Proofs.Workspace.Edits
import PaneTiling.Window.Gesture

/-!
Opening a pane. A tab goes beside an anchor into what is left of the tree once the tab is lifted out
of it. As long as another pane is left, the anchor has to be one of those; with none left, any
anchor is taken. The workspace then shows what it showed and the tab, provided that it showed the
anchor.
-/

namespace PaneTiling.Workspace

variable {α : Type}

def opened (ws : Workspace α) (now : Instant) (tree : PaneTree α) (tab focus : TabId) :
    Workspace α :=
  { ws.modifyTab tab (Tab.touch now) with tree := some tree, active := some focus }

theorem opened_eq_activate {ws : Workspace α} (now : Instant) (tree : PaneTree α) {tab : TabId}
    (htab : ws.HasTab tab) :
    ws.opened now tree tab tab =
      ({ ws with tree := some tree } : Workspace α).activate now tab := by
  rw [activate, if_pos (show HasTab { ws with tree := some tree } tab from htab)]
  rfl

variable [Scalar α]

/-- The tree in which a pane for `tab` stands beside `anchor`. -/
structure Opens (ws : Workspace α) (anchor tab : TabId) (tree : PaneTree α) : Prop where
  hasTab : ws.HasTab tab
  inserted : ∃ side, PaneTree.insert (ws.tree.bind (·.remove tab)) anchor tab side = some tree

variable {ws : Workspace α} {anchor tab : TabId} {tree : PaneTree α}

theorem Orderly.lifted (h : ws.Orderly) {rest : PaneTree α}
    (hrest : ws.tree.bind (·.remove tab) = some rest) :
    rest.Shaped ∧ ∀ x, x ∈ rest ↔ ws.IsLeaf x ∧ x ≠ tab := by
  obtain ⟨whole, hwhole, hrest⟩ := Option.bind_eq_some_iff.1 hrest
  simpa only [isLeaf_iff hwhole] using (h.shaped whole hwhole).remove hrest

namespace Opens

theorem anchor_ne (h : ws.Opens anchor tab tree) : anchor ≠ tab := by
  obtain ⟨side, hinsert⟩ := h.inserted
  obtain ⟨hanchor, hnew, -⟩ := PaneTree.tabIds_insert hinsert
  exact fun heq => hnew (heq ▸ hanchor)

theorem shaped (h : ws.Opens anchor tab tree) (hws : ws.Orderly) : tree.Shaped := by
  obtain ⟨side, hinsert⟩ := h.inserted
  exact PaneTree.Shaped.insert (fun rest hrest => (hws.lifted hrest).1) hinsert

theorem mem_tree (h : ws.Opens anchor tab tree) {x : TabId} :
    x ∈ tree ↔ x = tab ∨ x ∈ PaneTree.panesFor (ws.tree.bind (·.remove tab)) anchor := by
  obtain ⟨side, hinsert⟩ := h.inserted
  exact PaneTree.mem_insert_iff hinsert

theorem tab_mem (h : ws.Opens anchor tab tree) : tab ∈ tree := h.mem_tree.2 (.inl rfl)

theorem anchor_mem (h : ws.Opens anchor tab tree) : anchor ∈ tree := by
  obtain ⟨side, hinsert⟩ := h.inserted
  exact h.mem_tree.2 (.inr (PaneTree.tabIds_insert hinsert).1)

theorem mem_tree_iff_of_visible (h : ws.Opens anchor tab tree) (hws : ws.Orderly)
    (hanchor : anchor ∈ ws.visibleTabs) {x : TabId} :
    x ∈ tree ↔ x ∈ ws.visibleTabs ∨ x = tab := by
  rw [h.mem_tree, or_comm]
  refine or_congr_left' fun hx => ?_
  cases hlifted : ws.tree.bind (·.remove tab) with
  | some rest =>
    rw [PaneTree.panesFor, Option.elim_some, ← PaneTree.mem_def, (hws.lifted hlifted).2]
    obtain ⟨whole, hwhole, -⟩ := Option.bind_eq_some_iff.1 hlifted
    simp [mem_visibleTabs, hwhole, hx]
  | none =>
    rw [PaneTree.panesFor, Option.elim_none, List.mem_singleton]
    rw [mem_visibleTabs] at hanchor ⊢
    cases htree : ws.tree with
    | none =>
      simp only [not_isLeaf htree, htree, true_and, false_or] at hanchor ⊢
      rw [hanchor, Option.some.injEq, eq_comm]
    | some whole =>
      rw [htree, Option.bind_some] at hlifted
      obtain ⟨other, -, hother⟩ := (hws.shaped whole htree).remove_eq_none hlifted
      simp only [isLeaf_iff htree, hother, htree, reduceCtorEq, false_and, or_false] at hanchor ⊢
      rw [hanchor.resolve_left h.anchor_ne]
      simp [hx]

end Opens

theorem Orderly.opened (hws : ws.Orderly) (now : Instant) (h : ws.Opens anchor tab tree)
    {focus : TabId} (hfocus : ws.HasTab focus) : (ws.opened now tree tab focus).Orderly := by
  have hids : (ws.opened now tree tab focus).ids = ws.ids := ids_touch ws now tab
  refine ⟨?_, ?_, ?_⟩
  · intro t ht
    cases ht
    exact h.shaped hws
  · rw [← ids_eq_nil_iff, hids, ids_eq_nil_iff]
    simp [Workspace.opened, tabs_ne_nil hfocus]
  · intro t ht
    cases ht
    rwa [hasTab_iff, hids]

theorem Sound.opened (hws : ws.Sound) (now : Instant) (h : ws.Opens anchor tab tree)
    (hanchor : anchor ∈ ws.visibleTabs) {focus : TabId} (hfocus : focus = anchor ∨ focus = tab) :
    (ws.opened now tree tab focus).Sound := by
  have hids : (ws.opened now tree tab focus).ids = ws.ids := ids_touch ws now tab
  have hleaves : ∀ x ∈ tree, ws.HasTab x := by
    intro x hx
    rcases (h.mem_tree_iff_of_visible hws.toOrderly hanchor).1 hx with hvisible | rfl
    · exact hws.hasTab_of_visible hvisible
    · exact h.hasTab
  have hmem : focus ∈ tree := by
    rcases hfocus with rfl | rfl
    · exact h.anchor_mem
    · exact h.tab_mem
  refine ⟨hws.toOrderly.opened now h (hleaves focus hmem), ?_, ?_⟩
  · intro t ht x hx
    cases ht
    rw [hasTab_iff, hids]
    exact hleaves x hx
  · intro x hx t ht
    cases hx
    cases ht
    exact hmem

theorem drop_of_insert {now : Instant} {zone : DropZone α} (htab : ws.HasTab tab)
    (h : PaneTree.insert (ws.tree.bind (·.remove tab)) zone.anchor tab zone.side = some tree) :
    ws.drop now tab zone = ws.opened now tree tab tab := by
  have hne : zone.anchor ≠ tab := (show ws.Opens zone.anchor tab tree from ⟨htab, _, h⟩).anchor_ne
  simp only [drop, if_pos (And.intro htab hne), h]
  exact (opened_eq_activate now tree htab).symm

@[simp]
theorem id_drop (ws : Workspace α) (now : Instant) (tab : TabId) (zone : DropZone α) :
    (ws.drop now tab zone).id = ws.id := by
  unfold drop
  split
  · simp only
    split
    · exact id_activate _ _ _
    · rfl
  · rfl

theorem drop_eq_self {now : Instant} {zone : DropZone α}
    (h : ws.HasTab tab →
      PaneTree.insert (ws.tree.bind (·.remove tab)) zone.anchor tab zone.side = none) :
    ws.drop now tab zone = ws := by
  unfold drop
  split
  · rename_i hdrop
    simp only [h hdrop.1]
  · rfl

end PaneTiling.Workspace
