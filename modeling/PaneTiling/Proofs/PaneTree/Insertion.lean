import PaneTiling.Proofs.PaneTree.EditSites

/-!
Where a new pane goes. In layout order a tab that is inserted stands directly before or after the
first leaf of the anchor, and in the tree it has the slot next to that leaf, in a split along the
axis of the side. This holds of every tree, whether a workspace may show it or not.
-/

namespace PaneTiling.PaneTree

variable {α : Type} [Scalar α] {root : Option (PaneTree α)} {anchor new : TabId} {side : Side}
  {grown : PaneTree α}

theorem isSome_insert_iff :
    (insert root anchor new side).isSome ↔
      anchor ∈ panesFor root anchor ∧ new ∉ panesFor root anchor ∧
        (panesFor root anchor).length < maxPanes := by
  rw [Option.isSome_iff_exists]
  constructor
  · rintro ⟨tree, htree⟩
    obtain ⟨hanchor, hnew, hroom, -⟩ := tabIds_insert htree
    exact ⟨hanchor, hnew, hroom⟩
  · rintro ⟨hanchor, hnew, hroom⟩
    exact exists_insert hanchor hnew hroom side

/-- A split of the tree in which the two leaves of an insertion have slots next to each other. -/
def PairedAt (tree : PaneTree α) (anchor new : TabId) (side : Side) (path : List Nat) : Prop :=
  ∃ before part after, tree.nodeAt path = some (split side.axis
    (before ++ side.arrange (leaf new, part) (leaf anchor, part) ++ after))

theorem Attached.paired {tree : PaneTree α} (h : Attached anchor new side tree grown) :
    ∃ path, grown.PairedAt anchor new side path := by
  cases h with
  | wraps _ h =>
    refine ⟨_, [], 0.5, [], h.nodeAt_new.trans (congrArg some ?_)⟩
    rw [pair_eq, List.nil_append, List.append_nil]
  | beside h => exact ⟨_, _, _, _, h.nodeAt_new⟩

theorem paired_of_insert (h : insert root anchor new side = some grown) :
    ∃ path, grown.PairedAt anchor new side path := by
  cases root with
  | none =>
    unfold insert at h
    split at h
    · cases h
    · cases h
      exact ⟨[], [], 0.5, [], by rw [nodeAt_nil, pair_eq, List.nil_append, List.append_nil]⟩
  | some tree => exact (attached_of_insert h).paired

theorem count_of_insert (h : insert root anchor new side = some grown) :
    grown.tabIds.count new = 1 := by
  obtain ⟨-, hnew, -, hperm⟩ := tabIds_insert h
  rw [hperm.count_eq, List.count_cons_self, List.count_eq_zero.2 hnew]

/-- An insertion is refused only if the anchor is the new tab, the tree is full, shows the new tab
or does not show the anchor. What it gives has the old leaves in their order, the new one directly
before or after the first of the anchor; and the one split that has the new leaf in a slot has the
anchor's in the next one, and lies along the axis of the side. -/
theorem insert_places_beside (root : Option (PaneTree α)) (anchor new : TabId) (side : Side) :
    ((insert root anchor new side).isSome ↔
      anchor ≠ new ∧ ∀ tree ∈ root, tree.leafCount < 4 ∧ new ∉ tree ∧ anchor ∈ tree) ∧
    ∀ grown ∈ insert root anchor new side,
      PlacedBeside grown.tabIds (panesFor root anchor) anchor new side ∧
      ∃ path, grown.PairedAt anchor new side path ∧
        ∀ place axis slots, grown.nodeAt place = some (split axis slots) →
          leaf new ∈ slots.map (·.1) → place = path := by
  refine ⟨?_, fun grown hgrown => ⟨placedBeside_insert hgrown, ?_⟩⟩
  · rw [isSome_insert_iff]
    cases root with
    | none => simp [panesFor, maxPanes, eq_comm]
    | some tree =>
      simp only [panesFor, Option.elim_some, length_tabIds, maxPanes, Option.mem_def,
        Option.some.injEq, forall_eq', mem_def]
      constructor
      · rintro ⟨hanchor, hnew, hroom⟩
        exact ⟨fun heq => hnew (heq ▸ hanchor), hroom, hnew, hanchor⟩
      · rintro ⟨-, hroom, hnew, hanchor⟩
        exact ⟨hanchor, hnew, hroom⟩
  · obtain ⟨path, hpath⟩ := paired_of_insert hgrown
    refine ⟨path, hpath, fun place axis slots hplace hslots => ?_⟩
    obtain ⟨before, part, after, hnode⟩ := hpath
    refine eq_of_leaf_mem (Nat.le_of_eq (count_of_insert hgrown)) hplace hslots hnode ?_
    cases side <;> simp [Side.arrange, Side.isBefore]

/-- A tree that shows its anchor twice takes the new tab at the first place. -/
example : (insert (some (split .row [(leaf ⟨"a"⟩, 1 / 2), (leaf ⟨"a"⟩, (1 / 2 : Rat))])) ⟨"a"⟩ ⟨"b"⟩
    .right).map tabIds = some [⟨"a"⟩, ⟨"b"⟩, ⟨"a"⟩] := by
  decide +kernel

end PaneTiling.PaneTree
