import Mathlib.Data.List.Flatten
import PaneTiling.Proofs.PaneTree.Borders

/-!
Where a tree is edited. Attaching a tab and taking a leaf out each write one node anew, which stands
at some path, and leave the rest of the tree as it is. Collapsing what is left comes to collapsing
that node, if every split had two slots or more.
-/

namespace PaneTiling.PaneTree

variable {α : Type}

section Collapsing

variable {old new tree edited : PaneTree α} {path : List Nat}

theorem collapseSlots_eq_map (slots : List (PaneTree α × α)) :
    collapseSlots slots = slots.map fun slot => (slot.1.collapse, slot.2) := by
  induction slots with
  | nil => rfl
  | cons slot rest ih => rw [collapseSlots, ih, List.map_cons]

theorem collapse_split (axis : Axis) {slots : List (PaneTree α × α)} (h : 2 ≤ slots.length) :
    (split axis slots).collapse = split axis (collapseSlots slots) := by
  match slots with
  | first :: second :: rest => simp only [collapse, collapseSlots]
  | [] | [_] => simp at h

theorem collapse_eq_self (h : tree.Branching 2) : tree.collapse = tree := by
  induction tree using PaneTree.induction with
  | leaf tab => rw [collapse]
  | split axis slots ih =>
    rw [branching_split] at h
    have hslots : slots.map (fun slot => (slot.1.collapse, slot.2)) = slots.map id :=
      List.map_congr_left fun slot hslot => Prod.ext (ih slot hslot (h.2 slot hslot)) rfl
    rw [collapse_split axis h.1, collapseSlots_eq_map, hslots, List.map_id]

theorem Rewrites.collapse (h : Rewrites old new path tree edited) (htree : tree.Branching 2) :
    Rewrites old new.collapse path tree edited.collapse := by
  induction h with
  | here => exact .here
  | @within axis slots index path tree edited share hslot _ ih =>
    rw [branching_split] at htree
    have hothers : slots.map (fun slot => (slot.1.collapse, slot.2)) = slots.map id :=
      List.map_congr_left fun slot hmem => Prod.ext (collapse_eq_self (htree.2 slot hmem)) rfl
    rw [collapse_split axis (by simpa using htree.1), collapseSlots_eq_map, List.map_set, hothers,
      List.map_id]
    exact .within hslot (ih (htree.2 (tree, share) (List.mem_of_getElem? hslot)))

end Collapsing

section Places

theorem pairwise_not_mem {slots : List (PaneTree α × α)} {tab : TabId}
    (h : (slotTabIds slots).count tab ≤ 1) :
    slots.Pairwise fun first second => tab ∈ first.1.tabIds → tab ∉ second.1.tabIds := by
  rw [List.pairwise_iff_forall_sublist]
  intro first second hpair hfirst hsecond
  have hboth : (first.1.tabIds ++ second.1.tabIds).Sublist (slotTabIds slots) := by
    have hflat := hpair.flatMap fun slot => slot.1.tabIds
    simpa [slotTabIds_eq_flatMap] using hflat
  have hcount := hboth.count_le tab
  rw [List.count_append] at hcount
  have hone := List.one_le_count_iff.2 hfirst
  have hother := List.one_le_count_iff.2 hsecond
  omega

theorem eq_of_nodeAt_leaf {tree : PaneTree α} {tab : TabId} {path place : List Nat}
    (hcount : tree.tabIds.count tab ≤ 1) (hpath : tree.nodeAt path = some (leaf tab))
    (hplace : tree.nodeAt place = some (leaf tab)) : path = place := by
  induction path generalizing tree place with
  | nil =>
    cases hpath
    cases place with
    | nil => rfl
    | cons index rest => cases hplace
  | cons index path ih =>
    cases tree with
    | leaf shown => cases hpath
    | split axis slots =>
      cases place with
      | nil => cases hplace
      | cons other place =>
        rw [nodeAt_split_cons, Option.bind_eq_some_iff] at hpath hplace
        obtain ⟨slot, hslot, hpath⟩ := hpath
        obtain ⟨found, hfound, hplace⟩ := hplace
        have hshown {tree : PaneTree α} {path : List Nat}
            (h : tree.nodeAt path = some (leaf tab)) : tab ∈ tree.tabIds :=
          (sublist_of_nodeAt h).subset List.mem_cons_self
        have hapart := List.pairwise_iff_getElem.1 (pairwise_not_mem hcount)
        obtain ⟨hindex, rfl⟩ := List.getElem?_eq_some_iff.1 hslot
        obtain ⟨hother, rfl⟩ := List.getElem?_eq_some_iff.1 hfound
        rcases Nat.lt_trichotomy index other with hlt | rfl | hlt
        · exact absurd (hshown hplace) (hapart index other hindex hother hlt (hshown hpath))
        · have hsub := sublist_slotTabIds (List.getElem_mem hindex)
          exact congrArg (index :: ·) (ih (Nat.le_trans (hsub.count_le tab) hcount) hpath hplace)
        · exact absurd (hshown hpath) (hapart other index hother hindex hlt (hshown hplace))

theorem eq_of_leaf_mem {tree : PaneTree α} {tab : TabId} {path place : List Nat} {axis other : Axis}
    {slots more : List (PaneTree α × α)} (hcount : tree.tabIds.count tab ≤ 1)
    (hpath : tree.nodeAt path = some (split axis slots)) (hslots : leaf tab ∈ slots.map (·.1))
    (hplace : tree.nodeAt place = some (split other more)) (hmore : leaf tab ∈ more.map (·.1)) :
    path = place := by
  have hleaf {path : List Nat} {axis : Axis} {slots : List (PaneTree α × α)}
      (hpath : tree.nodeAt path = some (split axis slots)) (hslots : leaf tab ∈ slots.map (·.1)) :
      ∃ index, tree.nodeAt (path ++ [index]) = some (leaf tab) := by
    obtain ⟨index, hindex⟩ := List.mem_iff_getElem?.1 hslots
    rw [List.getElem?_map, Option.map_eq_some_iff] at hindex
    obtain ⟨slot, hslot, hleaf⟩ := hindex
    refine ⟨index, ?_⟩
    rw [nodeAt_append, hpath, Option.bind_some, nodeAt_split_cons, hslot, Option.bind_some,
      nodeAt_nil, hleaf]
  obtain ⟨index, hindex⟩ := hleaf hpath hslots
  obtain ⟨other, hother⟩ := hleaf hplace hmore
  exact (List.append_inj' (eq_of_nodeAt_leaf hcount hindex hother) rfl).1

theorem findPath_eq {tree : PaneTree α} {tab : TabId} {path : List Nat}
    (hnodup : tree.tabIds.Nodup) (hleaf : tree.nodeAt path = some (leaf tab)) :
    tree.findPath tab = some path := by
  have hmem : tab ∈ tree := (sublist_of_nodeAt hleaf).subset List.mem_cons_self
  obtain ⟨found, hfound⟩ := exists_findPath hmem
  have hcount := List.nodup_iff_count_le_one.1 hnodup tab
  rw [hfound, eq_of_nodeAt_leaf hcount (nodeAt_findPath hfound) hleaf]

theorem findPath_eq_concat {tree : PaneTree α} {tab : TabId} {path : List Nat} {axis : Axis}
    {before after : List (PaneTree α × α)} {share : α} (hnodup : tree.tabIds.Nodup)
    (hnode : tree.nodeAt path = some (split axis (before ++ (leaf tab, share) :: after))) :
    tree.findPath tab = some (path ++ [before.length]) :=
  findPath_eq hnodup (by simp [nodeAt_append, hnode])

end Places

section Attaching

def axisAt? (tree : PaneTree α) (path : List Nat) : Option Axis :=
  ((tree.nodeAt path).bind sharing?).map (·.1)

theorem axisAt?_cons {axis : Axis} {slots : List (PaneTree α × α)} {index : Nat}
    {tree : PaneTree α} {share : α} (h : slots[index]? = some (tree, share)) (rest : List Nat) :
    (split axis slots).axisAt? (index :: rest) = tree.axisAt? rest := by
  rw [axisAt?, nodeAt_split_cons, h, Option.bind_some, axisAt?]

variable [Scalar α]

/-- What attaching a tab writes anew. A pair takes the place of the anchor, unless the anchor's
split lies along the axis of the side; then the tab gets a slot beside the anchor's. -/
inductive Attached (anchor new : TabId) (side : Side) (tree grown : PaneTree α) : Prop
  | wraps {path : List Nat} (haxis : tree.axisAt? path.dropLast ≠ some side.axis)
    (h : Rewrites (leaf anchor) (pair anchor new side) path tree grown)
  | beside {path : List Nat} {before after : List (PaneTree α × α)} {share : α}
    (h : Rewrites (split side.axis (before ++ (leaf anchor, share) :: after))
      (split side.axis
        (before ++ side.arrange (leaf new, share / 2.0) (leaf anchor, share / 2.0) ++ after))
      path tree grown)

theorem attachSlot_cases {anchor new : TabId} {side : Side} {axis : Axis}
    {slots more : List (PaneTree α × α)} (h : attachSlot anchor new side axis slots = some more) :
    (axis = side.axis ∧ ∃ before share after, slots = before ++ (leaf anchor, share) :: after ∧
        more = before ++ side.arrange (leaf new, share / 2.0) (leaf anchor, share / 2.0) ++
          after) ∨
      ∃ index tree share grown, slots[index]? = some (tree, share) ∧
        (tree = leaf anchor → axis ≠ side.axis) ∧ attach anchor new side tree = some grown ∧
          more = slots.set index (grown, share) := by
  induction slots generalizing more with
  | nil => simp [attachSlot] at h
  | cons slot rest ih =>
    obtain ⟨tree, share⟩ := slot
    simp only [attachSlot] at h
    split at h
    · rename_i hanchor
      obtain ⟨hleaf, rfl⟩ := hanchor
      obtain rfl := asTab?_eq_some_iff.1 hleaf
      refine .inl ⟨rfl, [], share, rest, rfl, ?_⟩
      cases side <;> cases h <;> rfl
    rename_i hother
    have haxis : tree = leaf anchor → axis ≠ side.axis := fun hleaf heq =>
      hother ⟨asTab?_eq_some_iff.2 hleaf, heq⟩
    split at h
    · rename_i grown hgrown
      cases h
      exact .inr ⟨0, tree, share, grown, rfl, haxis, hgrown, rfl⟩
    · obtain ⟨more, hmore, rfl⟩ := Option.map_eq_some_iff.1 h
      rcases ih hmore with ⟨rfl, before, part, after, rfl, rfl⟩ |
        ⟨index, found, part, grown, hfound, hanchor, hgrown, rfl⟩
      · exact .inl ⟨rfl, (tree, share) :: before, part, after, rfl, rfl⟩
      · exact .inr ⟨index + 1, found, part, grown, hfound, hanchor, hgrown, rfl⟩

theorem Attached.within {anchor new : TabId} {side : Side} {axis : Axis}
    {slots : List (PaneTree α × α)} {index : Nat} {tree grown : PaneTree α} {share : α}
    (hslot : slots[index]? = some (tree, share)) (hanchor : tree = leaf anchor → axis ≠ side.axis)
    (h : Attached anchor new side tree grown) :
    Attached anchor new side (split axis slots) (split axis (slots.set index (grown, share))) := by
  cases h with
  | @wraps path haxis h =>
    refine .wraps ?_ (.within hslot h)
    cases path with
    | nil =>
      cases h
      exact fun heq => hanchor rfl (Option.some.inj heq)
    | cons first rest =>
      rw [List.dropLast_cons_of_ne_nil (List.cons_ne_nil first rest), axisAt?_cons hslot]
      exact haxis
  | beside h => exact .beside (.within hslot h)

theorem attached_of_attach {anchor new : TabId} {side : Side} {tree grown : PaneTree α}
    (h : attach anchor new side tree = some grown) : Attached anchor new side tree grown := by
  induction tree using PaneTree.induction generalizing grown with
  | leaf tab =>
    simp only [attach] at h
    split at h
    · rename_i htab
      cases h
      rw [htab]
      refine .wraps ?_ .here
      nofun
    · cases h
  | split axis slots ih =>
    simp only [attach, Option.map_eq_some_iff] at h
    obtain ⟨more, hmore, rfl⟩ := h
    rcases attachSlot_cases hmore with ⟨rfl, before, share, after, rfl, rfl⟩ |
      ⟨index, tree, share, grown, hslot, hanchor, hgrown, rfl⟩
    · exact .beside .here
    · exact (ih (tree, share) (List.mem_of_getElem? hslot) hgrown).within hslot hanchor

theorem attached_of_insert {anchor new : TabId} {side : Side} {tree grown : PaneTree α}
    (h : insert (some tree) anchor new side = some grown) :
    Attached anchor new side tree grown := by
  unfold insert at h
  split at h
  · cases h
  simp only at h
  split at h
  · cases h
  · exact attached_of_attach h

end Attaching

section Detaching

variable [Scalar α]

theorem vacate_cases {tab : TabId} {slots : List (PaneTree α × α)} {left : Vacated α}
    (h : vacate tab slots = some left) :
    (∃ before share after, slots = before ++ (leaf tab, share) :: after ∧
        left = ⟨before ++ after, some share⟩) ∨
      ∃ index tree share shrunk, slots[index]? = some (tree, share) ∧
        detach tab tree = some shrunk ∧ left = ⟨slots.set index (shrunk, share), none⟩ := by
  induction slots generalizing left with
  | nil => simp [vacate] at h
  | cons slot rest ih =>
    obtain ⟨tree, share⟩ := slot
    simp only [vacate] at h
    split at h
    · rename_i hleaf
      obtain rfl := asTab?_eq_some_iff.1 hleaf
      cases h
      exact .inl ⟨[], share, rest, rfl, rfl⟩
    split at h
    · rename_i shrunk hshrunk
      cases h
      exact .inr ⟨0, tree, share, shrunk, rfl, hshrunk, rfl⟩
    · obtain ⟨left, hleft, rfl⟩ := Option.map_eq_some_iff.1 h
      rcases ih hleft with ⟨before, freed, after, rfl, rfl⟩ |
        ⟨index, found, size, shrunk, hfound, hshrunk, rfl⟩
      · exact .inl ⟨(tree, share) :: before, freed, after, rfl, rfl⟩
      · exact .inr ⟨index + 1, found, size, shrunk, hfound, hshrunk, rfl⟩

theorem rewrites_of_detach {tab : TabId} {tree left : PaneTree α}
    (h : detach tab tree = some left) :
    ∃ path axis before share after,
      Rewrites (split axis (before ++ (leaf tab, share) :: after))
        (split axis (redistribute share (before ++ after))) path tree left := by
  induction tree using PaneTree.induction generalizing left with
  | leaf shown => simp [detach] at h
  | split axis slots ih =>
    simp only [detach, Option.map_eq_some_iff] at h
    obtain ⟨vacated, hvacated, rfl⟩ := h
    rcases vacate_cases hvacated with ⟨before, share, after, rfl, rfl⟩ |
      ⟨index, tree, share, shrunk, hslot, hshrunk, rfl⟩
    · exact ⟨[], axis, before, share, after, .here⟩
    · obtain ⟨path, inner, before, freed, after, hrewrites⟩ :=
        ih (tree, share) (List.mem_of_getElem? hslot) hshrunk
      exact ⟨index :: path, inner, before, freed, after, .within hslot hrewrites⟩

end Detaching

end PaneTiling.PaneTree
