import PaneTiling.Proofs.PaneTree.Drift

/-!
What taking a leaf out leads to. A tree of whatever shape says that it does not show the tab, gives
way to a single pane, or loses the first leaf of the tab and nothing else: the other leaves keep
their order, and no split is left with a single slot. Where every split had two slots or more and no
tab was shown twice, only the split that had the leaf is shared anew or goes; every other split has
its axis, its shares and, less the tab, what its slots show.
-/

namespace PaneTiling.PaneTree

variable {α : Type}

/-- Somewhere in the tree a split lies along an axis, with these shares and these tabs in its slots.
-/
def HasSplit (tree : PaneTree α) (axis : Axis) (shares : List α) (tabs : List (List TabId)) :
    Prop :=
  ∃ path slots, tree.nodeAt path = some (split axis slots) ∧ sharesOf slots = shares ∧
    slots.map (·.1.tabIds) = tabs

section Splits

variable {tree node : PaneTree α} {tab : TabId} {axis : Axis} {slots : List (PaneTree α × α)}
  {shares : List α} {tabs : List (List TabId)}

theorem HasSplit.of_nodeAt (path : List Nat) (h : node.HasSplit axis shares tabs)
    (hnode : tree.nodeAt path = some node) : tree.HasSplit axis shares tabs := by
  obtain ⟨rest, slots, hslots, hshares, htabs⟩ := h
  refine ⟨path ++ rest, slots, ?_, hshares, htabs⟩
  rw [nodeAt_append, hnode, Option.bind_some, hslots]

theorem hasSplit_of_not_mem {path : List Nat} (hnode : tree.nodeAt path = some (split axis slots))
    (htab : tab ∉ tree) :
    tree.HasSplit axis (sharesOf slots) (slots.map (·.1.tabIds.erase tab)) := by
  refine ⟨path, slots, hnode, rfl, List.map_congr_left fun slot hslot => ?_⟩
  refine (List.erase_of_not_mem fun hmem => htab ?_).symm
  exact (sublist_of_nodeAt hnode).subset ((sublist_slotTabIds hslot).subset hmem)

theorem HasSplit.collapse {slot : PaneTree α × α} (h : slot.1.HasSplit axis shares tabs)
    (hslot : slot ∈ slots) (hslots : ∀ slot ∈ slots, slot.1.Branching 2) (outer : Axis) :
    (split outer slots).collapse.HasSplit axis shares tabs := by
  match slots with
  | [only] =>
    obtain rfl := List.mem_singleton.1 hslot
    rw [PaneTree.collapse, collapseSlots, collapseSlots, collapse_eq_self (hslots slot hslot)]
    exact h
  | first :: second :: rest =>
    rw [collapse_eq_self (branching_split.2 ⟨by simp, hslots⟩)]
    obtain ⟨index, hindex⟩ := List.mem_iff_getElem?.1 hslot
    exact h.of_nodeAt [index] (by rw [nodeAt_split_cons, hindex, Option.bind_some, nodeAt_nil])

end Splits

section Replacing

variable {old new tree edited : PaneTree α} {path place : List Nat} {tab : TabId} {axis : Axis}
  {slots : List (PaneTree α × α)}

theorem Rewrites.mem_of_old (h : Rewrites old new path tree edited) (hmem : tab ∈ old) :
    tab ∈ tree :=
  (sublist_of_nodeAt h.nodeAt_old).subset hmem

theorem map_erase_of_set {index : Nat} {share : α} (hslot : slots[index]? = some (tree, share))
    (hnodup : (slotTabIds slots).Nodup) (hmem : tab ∈ tree)
    (hedited : edited.tabIds = tree.tabIds.erase tab) :
    (slots.set index (edited, share)).map (·.1.tabIds) = slots.map (·.1.tabIds.erase tab) := by
  refine List.ext_getElem? fun place => ?_
  rw [List.map_set, List.getElem?_map]
  by_cases hplace : index = place
  · subst hplace
    have hlt := (List.getElem?_eq_some_iff.1 hslot).1
    rw [List.getElem?_set_self (by simpa using hlt), hslot, Option.map_some, hedited]
  · rw [List.getElem?_set_ne hplace, List.getElem?_map]
    refine Option.map_congr fun slot hother => ?_
    refine (List.erase_of_not_mem fun hshown => ?_).symm
    exact disjoint_slots hnodup hplace hslot hother hmem hshown

theorem slotTabIds_erase (hnodup : (slotTabIds slots).Nodup) (tab : TabId) :
    (slotTabIds slots).erase tab = (slots.map (·.1.tabIds.erase tab)).flatten := by
  rw [hnodup.erase_eq_filter, slotTabIds_eq_flatMap, List.filter_flatMap, List.flatMap_def]
  refine congrArg List.flatten (List.map_congr_left fun slot hslot => ?_)
  exact (((sublist_slotTabIds hslot).nodup hnodup).erase_eq_filter tab).symm

theorem Rewrites.tabIds_erase (h : Rewrites old new path tree edited)
    (hnodup : tree.tabIds.Nodup) (hmem : tab ∈ old) (hnew : new.tabIds = old.tabIds.erase tab) :
    edited.tabIds = tree.tabIds.erase tab := by
  induction h with
  | here => exact hnew
  | @within axis slots index path tree edited share hslot h ih =>
    have htree : (tree.tabIds).Nodup :=
      (sublist_slotTabIds (List.mem_of_getElem? hslot)).nodup hnodup
    have hmap := map_erase_of_set hslot hnodup (h.mem_of_old hmem) (ih htree)
    rw [tabIds_split, tabIds_split, slotTabIds_erase hnodup, ← hmap, slotTabIds_eq_flatMap,
      List.flatMap_def]

theorem Rewrites.hasSplit (h : Rewrites old new path tree edited) (hnodup : tree.tabIds.Nodup)
    (hmem : tab ∈ old) (hnew : new.tabIds = old.tabIds.erase tab)
    (hnode : tree.nodeAt place = some (split axis slots)) (hplace : ¬path <+: place) :
    edited.HasSplit axis (sharesOf slots) (slots.map (·.1.tabIds.erase tab)) := by
  induction h generalizing place with
  | here => exact absurd (List.nil_prefix) hplace
  | @within outer others index path tree edited share hslot h ih =>
    have hsub := sublist_slotTabIds (List.mem_of_getElem? hslot)
    have hedited := h.tabIds_erase (hsub.nodup hnodup) hmem hnew
    cases place with
    | nil =>
      cases hnode
      refine ⟨[], _, rfl, sharesOf_set_tree hslot edited, ?_⟩
      exact map_erase_of_set hslot hnodup (h.mem_of_old hmem) hedited
    | cons first rest =>
      rw [nodeAt_split_cons, Option.bind_eq_some_iff] at hnode
      obtain ⟨slot, hfirst, hnode⟩ := hnode
      by_cases hindex : index = first
      · subst hindex
        cases hslot.symm.trans hfirst
        have hlt := (List.getElem?_eq_some_iff.1 hslot).1
        refine (ih (hsub.nodup hnodup) hnode fun hpre => hplace ?_).of_nodeAt [index] ?_
        · exact (List.prefix_cons_inj index).2 hpre
        · rw [nodeAt_split_cons, List.getElem?_set_self hlt, Option.bind_some, nodeAt_nil]
      · have habsent : tab ∉ slot.1 :=
          disjoint_slots hnodup hindex hslot hfirst (h.mem_of_old hmem)
        refine (hasSplit_of_not_mem hnode habsent).of_nodeAt [first] ?_
        rw [nodeAt_split_cons, List.getElem?_set_ne hindex, hfirst, Option.bind_some, nodeAt_nil]

end Replacing

section Removing

variable [Scalar α] {tree rest : PaneTree α} {tab : TabId}

theorem map_fst_redistribute (freed : α) (slots : List (PaneTree α × α)) :
    (redistribute freed slots).map (·.1) = slots.map (·.1) := by
  simp only [redistribute]
  split <;> simp

omit [Scalar α] in
theorem slotTabIds_without {before after : List (PaneTree α × α)} {share : α}
    (h : (slotTabIds (before ++ (leaf tab, share) :: after)).Nodup) :
    tab ∉ slotTabIds (before ++ after) ∧
      (slotTabIds (before ++ (leaf tab, share) :: after)).erase tab =
        slotTabIds (before ++ after) := by
  have hall : slotTabIds (before ++ (leaf tab, share) :: after) =
      slotTabIds before ++ tab :: slotTabIds after := slotTabIds_append _ _
  rw [hall, List.nodup_middle, List.nodup_cons] at h
  rw [hall, slotTabIds_append]
  refine ⟨h.1, ?_⟩
  rw [List.erase_append_right _ fun hmem => h.1 (List.mem_append_left _ hmem),
    List.erase_cons_head]

theorem hasSplit_of_slot {outer axis : Axis} {before after : List (PaneTree α × α)} {share : α}
    {place : List Nat} {slots : List (PaneTree α × α)}
    (hnodup : (slotTabIds (before ++ (leaf tab, share) :: after)).Nodup)
    (hbranching : ∀ slot ∈ before ++ after, slot.1.Branching 2)
    (hnode : (split outer (before ++ (leaf tab, share) :: after)).nodeAt place =
      some (split axis slots)) (hplace : place ≠ []) :
    (split outer (redistribute share (before ++ after))).collapse.HasSplit axis (sharesOf slots)
      (slots.map (·.1.tabIds.erase tab)) := by
  cases place with
  | nil => exact absurd rfl hplace
  | cons index place =>
    rw [nodeAt_split_cons, Option.bind_eq_some_iff] at hnode
    obtain ⟨slot, hindex, hnode⟩ := hnode
    have hslot := List.mem_of_getElem? hindex
    rw [List.mem_append, List.mem_cons] at hslot
    have hother : slot ∈ before ++ after := by
      rcases hslot with hbefore | rfl | hafter
      · exact List.mem_append_left after hbefore
      · cases place <;> cases hnode
      · exact List.mem_append_right before hafter
    have habsent : tab ∉ slot.1 := fun hmem =>
      (slotTabIds_without hnodup).1 ((sublist_slotTabIds hother).subset hmem)
    have htrees : slot.1 ∈ (redistribute share (before ++ after)).map (·.1) := by
      rw [map_fst_redistribute]
      exact List.mem_map_of_mem hother
    obtain ⟨kept, hkept, hsame⟩ := List.mem_map.1 htrees
    have hstays := hsame ▸ hasSplit_of_not_mem hnode habsent
    exact hstays.collapse hkept (forall_mem_redistribute.2 hbranching) outer

theorem exists_removed (hmem : tab ∈ tree) (hcount : 2 < tree.leafCount) :
    ∃ rest, tree.removeLeaf tab = .removed rest := by
  cases hdetach : tree.detach tab with
  | none =>
    rw [mem_of_detach_eq_none hdetach hmem] at hcount
    exact absurd hcount (by simp [leafCount])
  | some left =>
    refine ⟨left.collapse, ?_⟩
    rw [removeLeaf, if_neg (not_not.2 hmem), if_neg (Nat.not_le.2 hcount), hdetach]

theorem hasSplit_removed (hnodup : tree.tabIds.Nodup) (hbranching : tree.Branching 2)
    (h : tree.removeLeaf tab = .removed rest) :
    ∃ path, tree.findPath tab = some path ∧
      ∀ place axis slots, tree.nodeAt place = some (split axis slots) → place ≠ path.dropLast →
        rest.HasSplit axis (sharesOf slots) (slots.map (·.1.tabIds.erase tab)) := by
  obtain ⟨-, left, hleft, rfl⟩ := removeLeaf_eq_removed h
  obtain ⟨path, outer, before, share, after, hrewrites⟩ := rewrites_of_detach hleft
  have hold := hrewrites.nodeAt_old
  refine ⟨path ++ [before.length], findPath_eq_concat hnodup hold, ?_⟩
  intro place axis slots hnode hplace
  rw [List.dropLast_concat] at hplace
  have hown := (sublist_of_nodeAt hold).nodup hnodup
  have hslots := (branching_split.1 (hbranching.nodeAt hold)).2
  have hothers : ∀ slot ∈ before ++ after, slot.1.Branching 2 := fun slot hslot =>
    hslots slot (((List.sublist_cons_self _ after).append_left before).subset hslot)
  have hcollapsed := hrewrites.collapse hbranching
  by_cases hunder : path <+: place
  · obtain ⟨under, rfl⟩ := hunder
    rw [nodeAt_append, hold, Option.bind_some] at hnode
    refine (hasSplit_of_slot hown hothers hnode ?_).of_nodeAt path hcollapsed.nodeAt_new
    rintro rfl
    exact hplace (List.append_nil path)
  · refine hcollapsed.hasSplit hnodup ?_ ?_ hnode hunder
    · simp [mem_def, slotTabIds_append]
    · rw [tabIds_collapse, tabIds_split, slotTabIds_redistribute]
      exact (slotTabIds_without hown).2.symm

/-- A tree that does not show a tab says so; one with at most two leaves gives way to the first
leaf of another tab, if there is one; any other tree loses the first leaf of the tab and has no
split with a single slot left. If it showed no tab twice and every split had two slots or more, that
holds of what is left, and every split but the one that had the leaf is still there. -/
theorem removeLeaf_takes_one_leaf (tree : PaneTree α) (tab : TabId) :
    (tree.removeLeaf tab = .notFound ↔ tab ∉ tree) ∧
    (∀ remaining, tree.removeLeaf tab = .collapsed remaining ↔
      tab ∈ tree ∧ tree.leafCount ≤ 2 ∧ remaining = tree.tabIds.find? (· ≠ tab)) ∧
    (tab ∈ tree → 2 < tree.leafCount → ∃ rest, tree.removeLeaf tab = .removed rest ∧
      rest.tabIds = tree.tabIds.erase tab ∧
      (rest.EverySplit fun shares => shares.length ≠ 1) ∧
      (tree.tabIds.Nodup → tree.Branching 2 → rest.tabIds.Nodup ∧ rest.Branching 2 ∧
        ∃ path, tree.findPath tab = some path ∧
          ∀ place axis slots, tree.nodeAt place = some (split axis slots) →
            place ≠ path.dropLast →
              rest.HasSplit axis (sharesOf slots) (slots.map (·.1.tabIds.erase tab)))) := by
  refine ⟨removeLeaf_eq_notFound_iff, fun remaining => ⟨removeLeaf_eq_collapsed, ?_⟩, ?_⟩
  · rintro ⟨hmem, hcount, rfl⟩
    rw [removeLeaf, if_neg (not_not.2 hmem), if_pos hcount]
  · intro hmem hcount
    obtain ⟨rest, hrest⟩ := exists_removed hmem hcount
    obtain ⟨-, left, hleft, hcollapse⟩ := removeLeaf_eq_removed hrest
    refine ⟨rest, hrest, (tabIds_removed hrest).2, ?_, fun hnodup hbranching => ?_⟩
    · rw [hcollapse, everySplit_collapse_iff]
      exact fun _ _ _ _ => em _
    · refine ⟨(tabIds_removed hrest).2 ▸ hnodup.erase tab, ?_,
        hasSplit_removed hnodup hbranching hrest⟩
      rw [hcollapse]
      exact branching_collapse (branching_detach hleft hbranching)

end Removing

end PaneTiling.PaneTree
