import PaneTiling.Proofs.PaneTree.Removal

/-!
Taking out the tab that was just put in. Where the tab was wrapped with its anchor, the pair gives
way to the anchor, which still has the slot that it had, so the tree is what it was. Where the tab
had a slot beside the anchor, the tree is what it was but for the shares of that split: its other
slots share the freed half among them, in proportion unless that half is all there is.
-/

namespace PaneTiling

theorem Side.exists_arrange_eq {β : Type} (side : Side) (new anchor : β) :
    ∃ before after, side.arrange new anchor = before ++ new :: after ∧
      before ++ after = [anchor] := by
  unfold Side.arrange
  split
  · exact ⟨[], [anchor], rfl, rfl⟩
  · exact ⟨[anchor], [], rfl, rfl⟩

namespace PaneTree

variable {α : Type}

/-- The splits and the leaves of a tree, in which at most the split at a path is shared otherwise.
-/
structure ResharedAt (rest tree : PaneTree α) (path : List Nat) : Prop where
  outline : rest.outline = tree.outline
  shares : ∀ place slot, place ≠ path → rest.shareAt? place slot = tree.shareAt? place slot

theorem Rewrites.resharedAt {axis : Axis} {slots more : List (PaneTree α × α)} {path : List Nat}
    {tree rest : PaneTree α} (h : Rewrites (split axis slots) (split axis more) path tree rest)
    (htrees : more.map (·.1) = slots.map (·.1)) : rest.ResharedAt tree path := by
  refine ⟨h.outline_eq ?_, fun place slot hplace => ?_⟩
  · have houtlines := congrArg (List.map fun tree => (outline tree, ())) htrees
    rw [List.map_map, List.map_map] at houtlines
    rw [outline, outline, slotOutlines_eq_map, slotOutlines_eq_map]
    exact congrArg (split axis) houtlines
  · rw [shareAt?_eq_bind, shareAt?_eq_bind, h.sharing?_eq htrees hplace]

theorem collapse_of_lone_leaf (axis : Axis) {slots : List (PaneTree α × α)} {tab : TabId}
    (h : slots.map (·.1) = [leaf tab]) : (split axis slots).collapse = leaf tab := by
  obtain ⟨slot, rfl, hslot⟩ := List.map_eq_singleton_iff.1 h
  rw [collapse, collapseSlots, collapseSlots, hslot, collapse]

variable [Scalar α] {tree grown : PaneTree α} {anchor new tab : TabId} {side : Side}

theorem exists_removed_of_slot {path : List Nat} {axis : Axis}
    {before after : List (PaneTree α × α)} {share : α} (hnodup : tree.tabIds.Nodup)
    (hbranching : tree.Branching 2) (hcount : 2 < tree.leafCount)
    (hnode : tree.nodeAt path = some (split axis (before ++ (leaf tab, share) :: after))) :
    ∃ rest, tree.removeLeaf tab = .removed rest ∧
      Rewrites (split axis (before ++ (leaf tab, share) :: after))
        (split axis (redistribute share (before ++ after))).collapse path tree rest := by
  have hshown : tab ∈ tree := (sublist_of_nodeAt hnode).subset (by simp [slotTabIds_append])
  obtain ⟨rest, hrest⟩ := exists_removed hshown hcount
  obtain ⟨-, left, hleft, rfl⟩ := removeLeaf_eq_removed hrest
  obtain ⟨place, other, first, freed, last, hrewrites⟩ := rewrites_of_detach hleft
  have hold := hrewrites.nodeAt_old
  -- The tab is shown once, so the leaf that was taken out is the one in this slot.
  have hplace : place = path :=
    eq_of_leaf_mem (List.nodup_iff_count_le_one.1 hnodup tab) hold (by simp) hnode (by simp)
  subst hplace
  obtain ⟨rfl, hslots⟩ := split.inj (Option.some.inj (hold.symm.trans hnode))
  have habsent : (leaf tab, share) ∉ first ++ last := fun hmem =>
    (slotTabIds_without ((sublist_of_nodeAt hold).nodup hnodup)).1
      ((sublist_slotTabIds hmem).subset List.mem_cons_self)
  rw [List.mem_append, not_or] at habsent
  obtain ⟨rfl, hfreed, rfl⟩ := (List.append_cons_inj_of_notMem habsent.1 habsent.2).1 hslots
  cases hfreed
  exact ⟨_, hrest, hrewrites.collapse hbranching⟩

/-- What a tree is after a tab was attached to an anchor and taken out again: itself, or itself with
the split of the anchor shared anew. -/
inductive Undone (anchor : TabId) (side : Side) (tree rest : PaneTree α) : Prop
  | restored {path : List Nat} (hleaf : tree.nodeAt path = some (leaf anchor))
    (haxis : tree.axisAt? path.dropLast ≠ some side.axis) (h : rest = tree)
  | reshared {path : List Nat} {before after : List (PaneTree α × α)} {share : α}
    (h : Rewrites (split side.axis (before ++ (leaf anchor, share) :: after))
      (split side.axis
        (redistribute (share / 2.0) (before ++ (leaf anchor, share / 2.0) :: after)))
      path tree rest)

theorem Attached.undone (h : Attached anchor new side tree grown) (htree : tree.Branching 2)
    (hgrown : grown.Shaped) (hcount : 2 < grown.leafCount) :
    ∃ rest, grown.removeLeaf new = .removed rest ∧ Undone anchor side tree rest := by
  cases h with
  | @wraps path haxis h =>
    obtain ⟨before, after, hpair, hleft⟩ :=
      side.exists_arrange_eq (leaf new, (0.5 : α)) (leaf anchor, 0.5)
    have hnew : pair anchor new side =
        split side.axis (before ++ (leaf new, (0.5 : α)) :: after) := by
      rw [pair_eq, hpair]
    have hnode := h.nodeAt_new
    rw [hnew] at hnode
    obtain ⟨rest, hrest, hrewrites⟩ :=
      exists_removed_of_slot hgrown.nodup hgrown.branching hcount hnode
    have hlone : (redistribute 0.5 (before ++ after)).map (·.1) = [leaf anchor] := by
      rw [map_fst_redistribute, hleft, List.map_singleton]
    rw [← hnew, collapse_of_lone_leaf side.axis hlone] at hrewrites
    exact ⟨rest, hrest, .restored h.nodeAt_old haxis (h.trans hrewrites).eq_self⟩
  | @beside path before after share h =>
    obtain ⟨first, last, hpair, hleft⟩ :=
      side.exists_arrange_eq (leaf new, share / 2.0) (leaf anchor, share / 2.0)
    have hnew : before ++ side.arrange (leaf new, share / 2.0) (leaf anchor, share / 2.0) ++ after =
        (before ++ first) ++ (leaf new, share / 2.0) :: (last ++ after) := by
      simp [hpair]
    have hothers : (before ++ first) ++ (last ++ after) =
        before ++ (leaf anchor, share / 2.0) :: after := by
      rw [List.append_assoc, ← List.append_assoc first, hleft, List.singleton_append]
    rw [hnew] at h
    obtain ⟨rest, hrest, hrewrites⟩ :=
      exists_removed_of_slot hgrown.nodup hgrown.branching hcount h.nodeAt_new
    have hold := branching_split.1 (htree.nodeAt h.nodeAt_old)
    have hkept : (split side.axis (redistribute (share / 2.0)
        (before ++ (leaf anchor, share / 2.0) :: after))).Branching 2 := by
      rw [branching_split, length_redistribute, forall_mem_redistribute]
      simpa [or_imp, forall_and] using hold
    rw [hothers, collapse_eq_self hkept] at hrewrites
    exact ⟨rest, hrest, .reshared (h.trans hrewrites)⟩

structure Takes (tree : PaneTree α) (anchor new : TabId) : Prop where
  shaped : tree.Shaped
  room : tree.leafCount < maxPanes
  anchor_mem : anchor ∈ tree
  fresh : new ∉ tree

def RoundTrip (tree : PaneTree α) (anchor new : TabId) (side : Side) (rest : PaneTree α) : Prop :=
  ∃ grown, insert (some tree) anchor new side = some grown ∧ grown.removeLeaf new = .removed rest

theorem RoundTrip.unique (h : tree.RoundTrip anchor new side grown)
    {rest : PaneTree α} (hrest : tree.RoundTrip anchor new side rest) : rest = grown := by
  obtain ⟨first, hfirst, hremoved⟩ := h
  obtain ⟨second, hsecond, hother⟩ := hrest
  cases hfirst.symm.trans hsecond
  cases hremoved.symm.trans hother
  rfl

theorem Takes.undone (h : tree.Takes anchor new) (side : Side) :
    ∃ rest, tree.RoundTrip anchor new side rest ∧ Undone anchor side tree rest := by
  have hanchor : anchor ∈ panesFor (some tree) anchor := h.anchor_mem
  have hroom : tree.tabIds.length < maxPanes := tree.length_tabIds.symm ▸ h.room
  obtain ⟨grown, hgrown⟩ := exists_insert hanchor h.fresh hroom side
  have hshaped : grown.Shaped := Shaped.insert (by simpa using h.shaped) hgrown
  obtain ⟨-, -, -, hperm⟩ := tabIds_insert hgrown
  have hcount : 2 < grown.leafCount := by
    have htwo := h.shaped.two_le
    have hlength := hperm.length_eq
    simp only [panesFor, Option.elim_some, List.length_cons, length_tabIds] at hlength htwo
    omega
  obtain ⟨rest, hrest, hundone⟩ :=
    (attached_of_insert hgrown).undone h.shaped.branching hshaped hcount
  exact ⟨rest, ⟨grown, hgrown, hrest⟩, hundone⟩

omit [Scalar α] in
theorem axisAt?_of_nodeAt {path : List Nat} {axis : Axis} {slots : List (PaneTree α × α)}
    (h : tree.nodeAt path = some (split axis slots)) : tree.axisAt? path = some axis := by
  rw [axisAt?, h, Option.bind_some, sharing?, Option.map_some]

theorem Undone.compared (h : Undone anchor side tree rest) (htree : tree.Shaped) :
    ∃ path index, tree.findPath anchor = some (path ++ [index]) ∧
      rest.outline = tree.outline ∧
      (tree.axisAt? path ≠ some side.axis → rest = tree) ∧
      (tree.axisAt? path = some side.axis → rest.ResharedAt tree path) := by
  cases h with
  | @restored path hleaf haxis h =>
    subst h
    have hnil : path ≠ [] := by
      rintro rfl
      cases hleaf
      exact absurd htree.two_le (by simp)
    refine ⟨path.dropLast, path.getLast hnil, ?_, rfl, fun _ => rfl, fun heq => absurd heq haxis⟩
    rw [List.dropLast_append_getLast hnil]
    exact findPath_eq htree.nodup hleaf
  | @reshared path before after share h =>
    have htrees : (redistribute (share / 2.0) (before ++ (leaf anchor, share / 2.0) :: after)).map
        (·.1) = (before ++ (leaf anchor, share) :: after).map (·.1) := by
      rw [map_fst_redistribute, List.map_append, List.map_append, List.map_cons, List.map_cons]
    have hreshared := h.resharedAt htrees
    refine ⟨path, before.length, findPath_eq_concat htree.nodup h.nodeAt_old, hreshared.outline,
      fun haxis => absurd (axisAt?_of_nodeAt h.nodeAt_old) haxis, fun _ => hreshared⟩

section Shares

variable {tree rest : PaneTree Rat} {path : List Nat} {index : Nat} {share : Rat}

/-- All slots of a split but one have the same proportion to each other in two trees. -/
def KeepsProportions (rest tree : PaneTree Rat) (path : List Nat) (index : Nat) : Prop :=
  ∃ scale : Rat, 0 < scale ∧ ∀ slot, slot ≠ index →
    rest.shareAt? path slot = (tree.shareAt? path slot).map (scale * ·)

def SharedEvenly (tree : PaneTree Rat) (path : List Nat) : Prop :=
  ∃ axis slots, tree.nodeAt path = some (split axis slots) ∧
    sharesOf slots = List.replicate slots.length (1 / slots.length : Rat)

theorem keepsProportions_of_room {axis : Axis} {before after : List (PaneTree Rat × Rat)}
    {freed : Rat} {part : Rat} (hroom : roomThreshold < 1 - freed)
    (htree : tree.nodeAt path = some (split axis (before ++ (leaf anchor, share) :: after)))
    (hrest : rest.nodeAt path =
      some (split axis (redistribute freed (before ++ (leaf anchor, part) :: after)))) :
    rest.KeepsProportions tree path before.length := by
  refine ⟨1 / (1 - freed), one_div_pos.2 (roomThreshold_nonneg.trans_lt hroom), ?_⟩
  intro slot hslot
  have hothers : (sharesOf (before ++ (leaf anchor, part) :: after))[slot]? =
      (sharesOf (before ++ (leaf anchor, share) :: after))[slot]? := by
    have hset : before ++ (leaf anchor, part) :: after =
        (before ++ (leaf anchor, share) :: after).set before.length (leaf anchor, part) := by
      simp
    rw [hset, sharesOf, List.map_set, List.getElem?_set_ne hslot.symm]
    rfl
  have hscaled : (fun x : Rat => 1 / (1 - freed) * x) = fun x => x / (1 - freed) :=
    funext fun x => one_div_mul_eq_div (1 - freed) x
  rw [shareAt?_of_nodeAt hrest, shareAt?_of_nodeAt htree, ← List.getElem?_map, ← List.getElem?_map]
  change (sharesOf _)[slot]? = (sharesOf _)[slot]?.map _
  rw [sharesOf_redistribute hroom, List.getElem?_map, hothers, hscaled]

theorem Undone.shares (h : Undone anchor side tree rest) (htree : tree.Shaped)
    (hpath : tree.findPath anchor = some (path ++ [index]))
    (haxis : tree.axisAt? path = some side.axis) :
    ∃ share, tree.shareAt? path index = some share ∧
      (roomThreshold < 1 - share / 2 → rest.KeepsProportions tree path index) ∧
      (1 - share / 2 ≤ roomThreshold → rest.SharedEvenly path) := by
  have htwo : (2.0 : Rat) = 2 := by norm_num
  cases h with
  | @restored place hleaf hacross h =>
    cases hpath.symm.trans (findPath_eq htree.nodup hleaf)
    rw [List.dropLast_concat] at hacross
    exact absurd haxis hacross
  | @reshared place before after share h =>
    have hsame := hpath.symm.trans (findPath_eq_concat htree.nodup h.nodeAt_old)
    obtain ⟨rfl, hindex⟩ := List.append_inj' (Option.some.inj hsame) rfl
    cases hindex
    rw [htwo] at h
    refine ⟨share, ?_, fun hroom => ?_, fun hfull => ?_⟩
    · rw [shareAt?_of_nodeAt h.nodeAt_old]
      simp
    · exact keepsProportions_of_room hroom h.nodeAt_old h.nodeAt_new
    · refine ⟨_, _, h.nodeAt_new, ?_⟩
      rw [sharesOf_redistribute_even (not_lt.2 hfull), length_redistribute]

end Shares

theorem collapsed_of_pair (hne : anchor ≠ new) (side : Side) :
    (pair anchor new side : PaneTree α).removeLeaf new = .collapsed (some anchor) := by
  unfold pair
  split <;> simp [removeLeaf, mem_def, leafCount, slotLeafCount, hne]

/-- A tab that is inserted and taken out again leaves the splits and the leaves that there were. If
the anchor's split lies across the side, nothing at all has changed; if it lies along the side, only
the shares of that split can have, and those of the other slots keep their proportions as long as
half of the anchor's share leaves room in the split. With no room, all its slots have the same
share. With no tree, the anchor is shown on its own again. -/
theorem removal_undoes_insertion (anchor new : TabId) (side : Side) :
    (∀ (α : Type) [Scalar α] (tree : PaneTree α), tree.Takes anchor new →
      ∃ rest path index, tree.RoundTrip anchor new side rest ∧
        tree.findPath anchor = some (path ++ [index]) ∧
        rest.outline = tree.outline ∧
        (tree.axisAt? path ≠ some side.axis → rest = tree) ∧
        (tree.axisAt? path = some side.axis → rest.ResharedAt tree path)) ∧
    (∀ (tree rest : PaneTree Rat) (path : List Nat) (index : Nat), tree.Takes anchor new →
      tree.RoundTrip anchor new side rest → tree.findPath anchor = some (path ++ [index]) →
        tree.axisAt? path = some side.axis →
          ∃ share, tree.shareAt? path index = some share ∧
            (roomThreshold < 1 - share / 2 → rest.KeepsProportions tree path index) ∧
            (1 - share / 2 ≤ roomThreshold → rest.SharedEvenly path)) ∧
    ∀ (α : Type) [Scalar α], anchor ≠ new → ∃ grown : PaneTree α,
      insert none anchor new side = some grown ∧
        grown.removeLeaf new = .collapsed (some anchor) := by
  refine ⟨fun α _ tree htree => ?_, fun tree rest path index htree htrip hpath haxis => ?_,
    fun α _ hne => ?_⟩
  · obtain ⟨rest, htrip, hundone⟩ := htree.undone side
    obtain ⟨path, index, hcompared⟩ := hundone.compared htree.shaped
    exact ⟨rest, path, index, htrip, hcompared⟩
  · obtain ⟨found, hfound, hundone⟩ := htree.undone side
    obtain rfl := hfound.unique htrip
    exact hundone.shares htree.shaped hpath haxis
  · exact ⟨pair anchor new side, if_neg hne, collapsed_of_pair hne side⟩

theorem removal_undoes_insertion_dominatedPanes :
    ∃ rest, dominatedPanes.Takes ⟨"a"⟩ ⟨"d"⟩ ∧
      dominatedPanes.RoundTrip ⟨"a"⟩ ⟨"d"⟩ .right rest ∧ rest ≠ dominatedPanes ∧
        rest.KeepsProportions dominatedPanes [] 0 := by
  have htakes : dominatedPanes.Takes ⟨"a"⟩ ⟨"d"⟩ :=
    ⟨⟨by decide, by decide, by decide, by simp [dominatedPanes, branching_split]⟩, by decide,
      by decide, by decide⟩
  obtain ⟨rest, htrip, hrest⟩ : ∃ rest, dominatedPanes.RoundTrip ⟨"a"⟩ ⟨"d"⟩ .right rest ∧
      rest ≠ dominatedPanes :=
    ⟨_, ⟨_, rfl, rfl⟩, by decide +kernel⟩
  obtain ⟨-, hshares, -⟩ := removal_undoes_insertion ⟨"a"⟩ ⟨"d"⟩ .right
  obtain ⟨share, hshare, hkept, -⟩ := hshares dominatedPanes rest [] 0 htakes htrip rfl rfl
  cases hshare
  exact ⟨rest, htakes, htrip, hrest, hkept (by decide +kernel)⟩

/-- A row with a pane whose share is two, so that half of it is all that a split has. -/
def overfullPanes : PaneTree Rat :=
  split .row [(leaf ⟨"a"⟩, 2), (leaf ⟨"b"⟩, 1), (leaf ⟨"c"⟩, 3)]

/-- Where the freed half leaves no room, a third of the row for each pane is not what they had. -/
theorem not_keepsProportions :
    ¬∀ (tree rest : PaneTree Rat) (anchor new : TabId) (side : Side) (path : List Nat)
      (index : Nat),
      tree.Takes anchor new → tree.RoundTrip anchor new side rest →
        tree.findPath anchor = some (path ++ [index]) → tree.axisAt? path = some side.axis →
          rest.KeepsProportions tree path index := by
  intro h
  have htakes : overfullPanes.Takes ⟨"a"⟩ ⟨"d"⟩ :=
    ⟨⟨by decide, by decide, by decide, by simp [overfullPanes, branching_split]⟩, by decide,
      by decide, by decide⟩
  obtain ⟨rest, htrip, hb, hc⟩ : ∃ rest, overfullPanes.RoundTrip ⟨"a"⟩ ⟨"d"⟩ .right rest ∧
      rest.shareAt? [] 1 = some (1 / 3) ∧ rest.shareAt? [] 2 = some (1 / 3) :=
    ⟨_, ⟨_, rfl, rfl⟩, by decide +kernel, by decide +kernel⟩
  obtain ⟨scale, -, hscale⟩ := h _ _ _ _ _ [] 0 htakes htrip rfl rfl
  have hsecond : (1 / 3 : Rat) = scale * 1 :=
    Option.some.inj (hb.symm.trans (hscale 1 (by decide)))
  have hthird : (1 / 3 : Rat) = scale * 3 :=
    Option.some.inj (hc.symm.trans (hscale 2 (by decide)))
  linarith

end PaneTree

end PaneTiling
