import Mathlib.Algebra.Order.Field.Basic
import PaneTiling.Proofs.PaneTree.Acceptance
import PaneTiling.Proofs.PaneTree.EditSites

/-!
How far the shares of a split drift from one when a leaf is taken out of it, read over exact
numbers. The shares that are left are divided by what the freed share leaves of one, not by what
they add up to; so their sum misses one by as much as before in proportion to what is left, which
is more. Only the split that had the leaf is touched, and splits with a single slot go.
-/

namespace PaneTiling.PaneTree

section EverySplit

variable {α : Type} {P : List α → Prop}

theorem Rewrites.everySplit_iff {old new tree edited : PaneTree α} {path : List Nat}
    (h : Rewrites old new path tree edited) (htree : tree.EverySplit P) :
    edited.EverySplit P ↔ new.EverySplit P := by
  induction h with
  | here => rfl
  | @within axis slots index path tree edited share hslot _ ih =>
    rw [everySplit_split] at htree ⊢
    rw [sharesOf_set_tree hslot]
    have hnew := ih (htree.2 (tree, share) (List.mem_of_getElem? hslot))
    refine ⟨fun hall => hnew.1 (hall.2 (edited, share) ?_), fun hedited => ⟨htree.1, ?_⟩⟩
    · exact List.mem_of_getElem? (List.getElem?_set_self (List.getElem?_eq_some_iff.1 hslot).1)
    · intro found hfound
      rcases List.mem_or_eq_of_mem_set hfound with hfound | rfl
      · exact htree.2 found hfound
      · exact hnew.2 hedited

theorem EverySplit.nodeAt {tree node : PaneTree α} {path : List Nat} (h : tree.EverySplit P)
    (hnode : tree.nodeAt path = some node) : node.EverySplit P :=
  nodeAt_inherits (fun _ _ hsplit => (everySplit_split.1 hsplit).2) h hnode

theorem everySplit_collapse_iff {tree : PaneTree α} :
    tree.collapse.EverySplit P ↔ tree.EverySplit fun shares => shares.length = 1 ∨ P shares := by
  induction tree using PaneTree.induction with
  | leaf tab =>
    exact iff_of_true (by simpa [collapse] using everySplit_leaf tab) (everySplit_leaf tab)
  | split axis slots ih =>
    rw [everySplit_split]
    match slots with
    | [(only, share)] =>
      have honly := ih (only, share) List.mem_cons_self
      simpa [collapse, collapseSlots, sharesOf] using honly
    | [] =>
      simp [collapse, collapseSlots, sharesOf, everySplit_split]
    | first :: second :: rest =>
      rw [collapse_split axis (by simp), everySplit_split, sharesOf_collapseSlots,
        collapseSlots_eq_map, List.forall_mem_map]
      have hmany : (sharesOf (first :: second :: rest)).length ≠ 1 := by simp [sharesOf]
      rw [or_iff_right hmany]
      exact and_congr_right fun _ => forall₂_congr ih

end EverySplit

theorem sum_scaled_near_iff {shares : List Rat} {remaining slack : Rat} (h : 0 < remaining) :
    |(shares.map (· / remaining)).sum - 1| ≤ slack ↔
      |shares.sum - remaining| ≤ slack * remaining := by
  have hsum : (shares.map (· / remaining)).sum = shares.sum / remaining := by
    simp only [div_eq_mul_inv]
    rw [List.sum_map_mul_right, List.map_id']
  rw [hsum, div_sub_one h.ne', abs_div, abs_of_pos h, div_le_iff₀ h]

theorem nearlyWhole_redistribute_iff {slack freed : Rat} {slots : List (PaneTree Rat × Rat)}
    (hslack : 0 ≤ slack) (htwo : 2 ≤ slots.length) (hpos : ∀ share ∈ sharesOf slots, 0 < share) :
    NearlyWhole slack (sharesOf (redistribute freed slots)) ↔
      1 - freed ≤ roomThreshold ∨
        |(sharesOf slots).sum - (1 - freed)| ≤ slack * (1 - freed) := by
  by_cases hroom : roomThreshold < 1 - freed
  · have hremaining : (0 : Rat) < 1 - freed := roomThreshold_nonneg.trans_lt hroom
    rw [sharesOf_redistribute hroom, or_iff_right (not_le.2 hroom),
      ← sum_scaled_near_iff hremaining]
    refine ⟨NearlyWhole.sum_near, fun hnear => ⟨by simpa [sharesOf] using htwo, ?_, hnear⟩⟩
    intro share hshare
    obtain ⟨old, hold, rfl⟩ := List.mem_map.1 hshare
    exact div_pos (hpos old hold) hremaining
  · rw [sharesOf_redistribute_even hroom]
    refine iff_of_true (Whole.nearly (whole_even (by omega)) ?_ hslack) (.inl (not_lt.1 hroom))
    simpa using htwo

/-- Taking a pane out of a well-formed tree leaves a well-formed tree exactly if the split that had
the pane goes, is shared out evenly, or missed one by little enough in proportion to what is left
of it. -/
theorem isWellFormed_removed_iff {tree rest : PaneTree Rat} {tab : TabId}
    (htree : tree.isWellFormed = true) (hrest : tree.removeLeaf tab = .removed rest) :
    ∃ path axis before share after,
      tree.nodeAt path = some (split axis (before ++ (leaf tab, share) :: after)) ∧
      (rest.isWellFormed = true ↔ before.length + after.length = 1 ∨ 1 - share ≤ roomThreshold ∨
        |(sharesOf (before ++ (leaf tab, share) :: after)).sum - 1| ≤ 1e-9 * (1 - share)) := by
  obtain ⟨hcount, left, hleft, rfl⟩ := removeLeaf_eq_removed hrest
  obtain ⟨hmem, hids⟩ := tabIds_removed hrest
  obtain ⟨⟨-, hfour⟩, hnodup, hsplits⟩ := isWellFormed_iff.1 htree
  obtain ⟨path, axis, before, share, after, hrewrites⟩ := rewrites_of_detach hleft
  have hnode := hrewrites.nodeAt_old
  refine ⟨path, axis, before, share, after, hnode, ?_⟩
  -- The leaves are as they should be, so it is the shares that decide.
  have hleaves : left.collapse.leafCount = tree.leafCount - 1 := by
    rw [← length_tabIds, ← length_tabIds, hids, List.length_erase_of_mem hmem]
  have hshares : left.collapse.isWellFormed = true ↔
      left.collapse.EverySplit (NearlyWhole 1e-9) := by
    rw [isWellFormed_iff]
    refine and_iff_right ⟨by omega, by omega⟩ |>.trans (and_iff_right ?_)
    exact hids ▸ hnodup.erase tab
  -- Of the splits, only the one that had the leaf can be otherwise than it was.
  have hbefore : tree.EverySplit fun shares => shares.length = 1 ∨ NearlyWhole 1e-9 shares :=
    hsplits.imp fun _ => .inr
  obtain ⟨hnear, htrees⟩ := everySplit_split.1 (hsplits.nodeAt hnode)
  have hothers : (before ++ after).Sublist (before ++ (leaf tab, share) :: after) :=
    (List.sublist_cons_self _ after).append_left before
  have hslots : ∀ slot ∈ redistribute share (before ++ after),
      slot.1.EverySplit fun shares => shares.length = 1 ∨ NearlyWhole 1e-9 shares := by
    refine forall_mem_redistribute.2 fun slot hslot => ?_
    exact (htrees slot (hothers.subset hslot)).imp fun _ => .inr
  rw [hshares, everySplit_collapse_iff, hrewrites.everySplit_iff hbefore,
    everySplit_split, and_iff_left hslots]
  have hlength : (sharesOf (redistribute share (before ++ after))).length =
      before.length + after.length := by
    rw [sharesOf, List.length_map, length_redistribute, List.length_append]
  rw [hlength]
  refine or_congr_right' fun hmany => ?_
  have htwo : 2 ≤ (before ++ after).length := by
    have hall := hnear.two_le
    simp only [sharesOf, List.length_map, List.length_append, List.length_cons] at hall ⊢
    omega
  have hpos : ∀ part ∈ sharesOf (before ++ after), 0 < part := fun part hpart =>
    hnear.pos part ((hothers.map _).subset hpart)
  have hsum : (sharesOf (before ++ after)).sum - (1 - share) =
      (sharesOf (before ++ (leaf tab, share) :: after)).sum - 1 := by
    simp only [sharesOf, List.map_append, List.map_cons, List.sum_append, List.sum_cons]
    ring
  rw [nearlyWhole_redistribute_iff (by norm_num) htwo hpos, hsum]

/-- A row of which nearly all is taken by one pane, and whose shares add up to a little more than
one. -/
def dominatedPanes : PaneTree Rat :=
  split .row [(leaf ⟨"a"⟩, 0.9), (leaf ⟨"b"⟩, 0.05), (leaf ⟨"c"⟩, 0.0500000009)]

theorem isWellFormed_removed_iff_dominatedPanes :
    ∃ rest, dominatedPanes.isWellFormed = true ∧
      dominatedPanes.removeLeaf ⟨"a"⟩ = .removed rest ∧ rest.isWellFormed = false ∧
      ∃ path axis before share after,
        dominatedPanes.nodeAt path = some (split axis (before ++ (leaf ⟨"a"⟩, share) :: after)) ∧
        (rest.isWellFormed = true ↔
          before.length + after.length = 1 ∨ 1 - share ≤ roomThreshold ∨
            |(sharesOf (before ++ (leaf ⟨"a"⟩, share) :: after)).sum - 1| ≤
              1e-9 * (1 - share)) := by
  have hformed : dominatedPanes.isWellFormed = true := by decide +kernel
  exact ⟨_, hformed, rfl, by decide +kernel, isWellFormed_removed_iff hformed rfl⟩

theorem not_isWellFormed_removed :
    ¬∀ (tree rest : PaneTree Rat) (tab : TabId), tree.isWellFormed = true →
      tree.removeLeaf tab = .removed rest → rest.isWellFormed = true := by
  intro h
  have hrest := h dominatedPanes _ ⟨"a"⟩ (by decide +kernel) rfl
  revert hrest
  decide +kernel

end PaneTiling.PaneTree
