import PaneTiling.Proofs.PaneTree.EditSites
import PaneTiling.Proofs.PaneTree.Tiling

/-!
What an edit leaves where it is. The panes of a node that is replaced are a stretch of the panes of
the tree, and all other panes are computed from what the edit does not touch; so they stay exactly
where they were, however the numbers are rounded. An insertion that wraps its anchor moves the
anchor alone, and every other edit moves at most what lies under one split.
-/

namespace PaneTiling.PaneTree

variable {α : Type}

def splitTabs (tree : PaneTree α) (path : List Nat) : List TabId :=
  match tree.nodeAt path with
  | some (split _ slots) => slotTabIds slots
  | _ => []

theorem splitTabs_of_nodeAt {tree : PaneTree α} {path : List Nat} {axis : Axis}
    {slots : List (PaneTree α × α)} (h : tree.nodeAt path = some (split axis slots)) :
    tree.splitTabs path = slotTabIds slots := by
  rw [splitTabs, h]

variable [Scalar α]

/-- Whatever area and gap they are laid out with, a tree shows after an edit every tab that it
showed in the rectangle that the tab had, but for some tabs. -/
def KeepsRects (edited tree : PaneTree α) (moving : List TabId) : Prop :=
  ∀ tab ∈ tree, tab ∉ moving → ∀ (gap : α) (outer rect : Rect α),
    (tab, rect) ∈ edited.paneRects gap outer ↔ (tab, rect) ∈ tree.paneRects gap outer

theorem KeepsRects.refl (tree : PaneTree α) (moving : List TabId) : tree.KeepsRects tree moving :=
  fun _ _ _ _ _ _ => .rfl

section Replacing

variable {old new tree edited : PaneTree α} {path : List Nat}

theorem exists_slotPaneRects_eq {slots : List (PaneTree α × α)} {rects : List (Rect α)}
    {index : Nat} {share : α} (gap : α) (hslot : slots[index]? = some (tree, share))
    (hlength : rects.length = slots.length) :
    ∃ before area after,
      slotPaneRects gap slots rects = before ++ tree.paneRects gap area ++ after ∧
        ∀ other, slotPaneRects gap (slots.set index (other, share)) rects =
          before ++ other.paneRects gap area ++ after := by
  induction slots generalizing index rects with
  | nil => cases hslot
  | cons slot rest ih =>
    cases rects with
    | nil => cases hlength
    | cons rect rects =>
      cases index with
      | zero =>
        cases hslot
        exact ⟨[], rect, slotPaneRects gap rest rects, rfl, fun other => rfl⟩
      | succ index =>
        obtain ⟨before, area, after, heq, hset⟩ := ih hslot (Nat.succ.inj hlength)
        refine ⟨slot.1.paneRects gap rect ++ before, area, after, ?_, fun other => ?_⟩
        · simp only [slotPaneRects, heq, List.append_assoc]
        · simp only [List.set_cons_succ, slotPaneRects, hset, List.append_assoc]

theorem Rewrites.exists_paneRects_eq (h : Rewrites old new path tree edited) (gap : α)
    (outer : Rect α) :
    ∃ before area after, tree.paneRects gap outer = before ++ old.paneRects gap area ++ after ∧
      edited.paneRects gap outer = before ++ new.paneRects gap area ++ after := by
  induction h generalizing outer with
  | here => exact ⟨[], outer, [], by simp, by simp⟩
  | @within axis slots index path tree edited share hslot _ ih =>
    have hlength : (slotRects axis outer gap (sharesOf slots)).length = slots.length := by
      rw [length_slotRects, sharesOf, List.length_map]
    obtain ⟨before, rect, after, heq, hset⟩ := exists_slotPaneRects_eq gap hslot hlength
    obtain ⟨first, area, last, hold, hnew⟩ := ih rect
    refine ⟨before ++ first, area, last ++ after, ?_, ?_⟩
    · rw [paneRects, heq, hold]
      simp only [List.append_assoc]
    · rw [paneRects, sharesOf_set_tree hslot, hset, hnew]
      simp only [List.append_assoc]

theorem mem_of_mem_paneRects {tab : TabId} {gap : α} {outer rect : Rect α}
    (h : (tab, rect) ∈ tree.paneRects gap outer) : tab ∈ tree := by
  rw [mem_def, ← map_fst_paneRects gap tree outer]
  exact List.mem_map_of_mem h

theorem Rewrites.keepsRects (h : Rewrites old new path tree edited) {moving : List TabId}
    (hold : ∀ tab ∈ old, tab ∈ moving) (hnew : ∀ tab ∈ new, tab ∈ tree → tab ∈ moving) :
    edited.KeepsRects tree moving := by
  intro tab htab hmoving gap outer rect
  obtain ⟨before, area, after, htree, hedited⟩ := h.exists_paneRects_eq gap outer
  have hgone : (tab, rect) ∉ old.paneRects gap area := fun hmem =>
    hmoving (hold tab (mem_of_mem_paneRects hmem))
  have hnever : (tab, rect) ∉ new.paneRects gap area := fun hmem =>
    hmoving (hnew tab (mem_of_mem_paneRects hmem) htab)
  simp only [htree, hedited, List.mem_append, hgone, hnever]

end Replacing

section Editing

variable {tree : PaneTree α}

theorem keepsRects_insert (hnodup : tree.tabIds.Nodup) {anchor new : TabId} {side : Side}
    {grown : PaneTree α} (h : insert (some tree) anchor new side = some grown) :
    ∃ path, tree.findPath anchor = some path ∧
      (tree.axisAt? path.dropLast = some side.axis →
        grown.KeepsRects tree (tree.splitTabs path.dropLast)) ∧
      (tree.axisAt? path.dropLast ≠ some side.axis →
        grown.nodeAt path = some (pair anchor new side) ∧ grown.KeepsRects tree [anchor]) := by
  have hfresh : new ∉ tree := (tabIds_insert h).2.1
  cases attached_of_insert h with
  | @wraps path haxis h =>
    refine ⟨path, findPath_eq hnodup h.nodeAt_old, fun heq => absurd heq haxis,
      fun _ => ⟨h.nodeAt_new, ?_⟩⟩
    refine h.keepsRects (fun tab htab => by simpa using htab) fun tab htab hshown => ?_
    have hpair := (placedBeside_pair (α := α) anchor new side).perm.mem_iff.1 htab
    rcases List.mem_cons.1 hpair with rfl | hanchor
    · exact absurd hshown hfresh
    · exact hanchor
  | @beside path before after share h =>
    have hsplit := splitTabs_of_nodeAt h.nodeAt_old
    have haxis : tree.axisAt? path = some side.axis := by
      rw [axisAt?, h.nodeAt_old]
      rfl
    refine ⟨path ++ [before.length], findPath_eq_concat hnodup h.nodeAt_old, ?_⟩
    rw [List.dropLast_concat]
    refine ⟨fun _ => ?_, fun hne => absurd haxis hne⟩
    rw [hsplit]
    refine h.keepsRects (fun tab htab => htab) fun tab htab hshown => ?_
    have hne : tab ≠ new := fun heq => hfresh (heq ▸ hshown)
    rw [mem_def, tabIds_split, slotTabIds_append, slotTabIds_append, slotTabIds_arrange,
      List.mem_append, List.mem_append, (side.arrange_perm new anchor).mem_iff] at htab
    simpa [slotTabIds_append, hne, or_assoc] using htab

theorem keepsRects_removed (hnodup : tree.tabIds.Nodup) (hbranching : tree.Branching 2)
    {tab : TabId} {rest : PaneTree α} (h : tree.removeLeaf tab = .removed rest) :
    ∃ path, tree.findPath tab = some path ∧
      rest.KeepsRects tree (tree.splitTabs path.dropLast) := by
  obtain ⟨-, left, hleft, rfl⟩ := removeLeaf_eq_removed h
  obtain ⟨path, axis, before, share, after, hrewrites⟩ := rewrites_of_detach hleft
  refine ⟨path ++ [before.length], findPath_eq_concat hnodup hrewrites.nodeAt_old, ?_⟩
  rw [List.dropLast_concat, splitTabs_of_nodeAt hrewrites.nodeAt_old]
  refine (hrewrites.collapse hbranching).keepsRects (fun other hother => hother) ?_
  intro other hother _
  rw [mem_def, tabIds_collapse, tabIds_split, slotTabIds_redistribute, slotTabIds_append,
    List.mem_append] at hother
  rw [slotTabIds_append, slotTabIds_cons, List.mem_append, List.mem_append]
  exact hother.imp_right .inr

theorem keepsRects_resize {path : List Nat} {index : Nat} {delta : α} {moved : PaneTree α}
    (h : tree.resize path index delta = .ok moved) :
    moved.KeepsRects tree (tree.splitTabs path) := by
  rcases resize_cases h with ⟨axis, slots, more, -, hmore, hrewrites⟩ | ⟨rfl, -⟩
  · have hsame : (split axis more).tabIds = (split axis slots).tabIds := by
      rw [← tabIds_outline, outline, outline_resizeSlots hmore, ← outline, tabIds_outline]
    rw [splitTabs_of_nodeAt hrewrites.nodeAt_old]
    refine hrewrites.keepsRects (fun tab htab => htab) fun tab htab _ => ?_
    rwa [mem_def, hsame] at htab
  · exact .refl moved _

/-- An edit leaves alone what it is not about. After an insertion that wraps the anchor every other
pane has the rectangle that it had; after any other insertion, after a removal and after moving a
border, every pane has it that is not under the split in which the edit takes place. -/
theorem edits_keep_rects (hnodup : tree.tabIds.Nodup) (hbranching : tree.Branching 2) :
    (∀ (anchor new : TabId) (side : Side) (grown : PaneTree α),
      insert (some tree) anchor new side = some grown →
        ∃ path, tree.findPath anchor = some path ∧
          (tree.axisAt? path.dropLast = some side.axis →
            grown.KeepsRects tree (tree.splitTabs path.dropLast)) ∧
          (tree.axisAt? path.dropLast ≠ some side.axis →
            grown.nodeAt path = some (pair anchor new side) ∧ grown.KeepsRects tree [anchor])) ∧
    (∀ (tab : TabId) (rest : PaneTree α), tree.removeLeaf tab = .removed rest →
      ∃ path, tree.findPath tab = some path ∧
        rest.KeepsRects tree (tree.splitTabs path.dropLast)) ∧
    (∀ (path : List Nat) (index : Nat) (delta : α) (moved : PaneTree α),
      tree.resize path index delta = .ok moved → moved.KeepsRects tree (tree.splitTabs path)) :=
  ⟨fun _ _ _ _ h => keepsRects_insert hnodup h,
    fun _ _ h => keepsRects_removed hnodup hbranching h, fun _ _ _ _ h => keepsRects_resize h⟩

end Editing

theorem edits_keep_rects_paneBesideColumn :
    paneBesideColumn.tabIds.Nodup ∧ paneBesideColumn.Branching 2 ∧
      (∃ grown, insert (some paneBesideColumn) ⟨"b"⟩ ⟨"d"⟩ .left = some grown ∧
        grown.KeepsRects paneBesideColumn [⟨"b"⟩]) ∧
      (∃ grown, insert (some paneBesideColumn) ⟨"b"⟩ ⟨"d"⟩ .top = some grown ∧
        grown.KeepsRects paneBesideColumn [⟨"b"⟩, ⟨"c"⟩]) ∧
      (∃ rest, paneBesideColumn.removeLeaf ⟨"c"⟩ = .removed rest ∧
        rest.KeepsRects paneBesideColumn [⟨"b"⟩, ⟨"c"⟩]) ∧
      ∃ moved, paneBesideColumn.resize [1] 0 (1 / 10) = .ok moved ∧
        moved.KeepsRects paneBesideColumn [⟨"b"⟩, ⟨"c"⟩] := by
  have hnodup : paneBesideColumn.tabIds.Nodup := by decide
  have hbranching : paneBesideColumn.Branching 2 := by
    simp [paneBesideColumn, Branching, SlotsBranching]
  obtain ⟨hinsert, hremove, hresize⟩ := edits_keep_rects hnodup hbranching
  have hwithin : ¬paneBesideColumn.Overruns [1] 0 := not_overruns (by decide)
  obtain ⟨moved, hmoved⟩ := exists_resize boundsOrdered_rat hwithin (1 / 10)
  refine ⟨hnodup, hbranching, ⟨_, rfl, ?_⟩, ⟨_, rfl, ?_⟩, ⟨_, rfl, ?_⟩, ⟨moved, hmoved, ?_⟩⟩
  · obtain ⟨path, hpath, -, hwraps⟩ := hinsert ⟨"b"⟩ ⟨"d"⟩ .left _ rfl
    cases hpath
    exact (hwraps (by decide)).2
  · obtain ⟨path, hpath, hbeside, -⟩ := hinsert ⟨"b"⟩ ⟨"d"⟩ .top _ rfl
    cases hpath
    exact hbeside rfl
  · obtain ⟨path, hpath, hrest⟩ := hremove ⟨"c"⟩ _ rfl
    cases hpath
    exact hrest
  · exact hresize [1] 0 (1 / 10) moved hmoved

end PaneTiling.PaneTree
