import PaneTiling.PaneTree.Edit

/-!
The leaves of a pane tree under edits. Attaching adds one tab, taking a leaf out erases the first
leaf that shows its tab, and collapsing keeps every leaf where it is. The order is that of the
layout throughout.
-/

namespace PaneTiling

def Side.arrange {β : Type} (side : Side) (new anchor : β) : List β :=
  if side.isBefore then [new, anchor] else [anchor, new]

theorem Side.arrange_perm {β : Type} (side : Side) (new anchor : β) :
    (side.arrange new anchor).Perm [new, anchor] := by
  unfold arrange
  split
  · exact .refl _
  · exact .swap new anchor []

/-- Tabs of which one was put on a side of the first occurrence of an anchor. -/
def PlacedBeside (more tabs : List TabId) (anchor new : TabId) (side : Side) : Prop :=
  ∃ before after, tabs = before ++ anchor :: after ∧ anchor ∉ before ∧
    more = before ++ side.arrange new anchor ++ after

namespace PlacedBeside

variable {more tabs : List TabId} {anchor new : TabId} {side : Side}

theorem mem (h : PlacedBeside more tabs anchor new side) : anchor ∈ tabs := by
  obtain ⟨before, after, rfl, -⟩ := h
  simp

theorem perm (h : PlacedBeside more tabs anchor new side) : more.Perm (new :: tabs) := by
  obtain ⟨before, after, rfl, -, rfl⟩ := h
  have harrange := ((side.arrange_perm new anchor).append_left before).append_right after
  refine harrange.trans ?_
  rw [List.append_assoc]
  exact List.perm_middle

theorem append_right (h : PlacedBeside more tabs anchor new side) (rest : List TabId) :
    PlacedBeside (more ++ rest) (tabs ++ rest) anchor new side := by
  obtain ⟨before, after, rfl, hbefore, rfl⟩ := h
  exact ⟨before, after ++ rest, by simp, hbefore, by simp⟩

theorem append_left (h : PlacedBeside more tabs anchor new side) {first : List TabId}
    (hfirst : anchor ∉ first) : PlacedBeside (first ++ more) (first ++ tabs) anchor new side := by
  obtain ⟨before, after, rfl, hbefore, rfl⟩ := h
  exact ⟨first ++ before, after, by simp, by simp [hfirst, hbefore], by simp⟩

end PlacedBeside

namespace PaneTree

variable {α : Type}

@[simp]
theorem tabIds_leaf (tab : TabId) : (leaf tab : PaneTree α).tabIds = [tab] := rfl

@[simp]
theorem tabIds_split (axis : Axis) (slots : List (PaneTree α × α)) :
    (split axis slots).tabIds = slotTabIds slots := rfl

@[simp]
theorem slotTabIds_nil : slotTabIds ([] : List (PaneTree α × α)) = [] := rfl

@[simp]
theorem slotTabIds_cons (slot : PaneTree α × α) (rest : List (PaneTree α × α)) :
    slotTabIds (slot :: rest) = slot.1.tabIds ++ slotTabIds rest := rfl

theorem slotTabIds_append (first second : List (PaneTree α × α)) :
    slotTabIds (first ++ second) = slotTabIds first ++ slotTabIds second := by
  simp only [slotTabIds_eq_flatMap, List.flatMap_append]

@[simp]
theorem mem_leaf {tab shown : TabId} : tab ∈ (leaf shown : PaneTree α) ↔ tab = shown := by
  simp [mem_def]

section Attaching

variable [Scalar α]

theorem pair_eq (anchor new : TabId) (side : Side) :
    (pair anchor new side : PaneTree α) =
      split side.axis (side.arrange (leaf new, 0.5) (leaf anchor, 0.5)) := by
  cases side <;> rfl

omit [Scalar α] in
theorem slotTabIds_arrange (anchor new : TabId) (side : Side) (share : α) :
    slotTabIds (side.arrange (leaf new, share) (leaf anchor, share)) = side.arrange new anchor := by
  cases side <;> rfl

theorem placedBeside_pair (anchor new : TabId) (side : Side) :
    PlacedBeside (pair anchor new side : PaneTree α).tabIds [anchor] anchor new side := by
  refine ⟨[], [], rfl, List.not_mem_nil, ?_⟩
  rw [pair_eq, tabIds_split, slotTabIds_arrange, List.nil_append, List.append_nil]

mutual

theorem not_mem_of_attach_eq_none {anchor new : TabId} {side : Side} :
    {tree : PaneTree α} → attach anchor new side tree = none → anchor ∉ tree.tabIds
  | leaf tab, h => by
    simp only [attach] at h
    split at h
    · cases h
    · rename_i htab
      simpa using Ne.symm htab
  | split axis slots, h => by
    simp only [attach, Option.map_eq_none_iff] at h
    exact not_mem_of_attachSlot_eq_none h

theorem not_mem_of_attachSlot_eq_none {anchor new : TabId} {side : Side} {axis : Axis} :
    {slots : List (PaneTree α × α)} → attachSlot anchor new side axis slots = none →
      anchor ∉ slotTabIds slots
  | [], _ => by simp
  | (tree, share) :: rest, h => by
    simp only [attachSlot] at h
    split at h
    · split at h <;> cases h
    split at h
    · cases h
    rename_i hnone
    rw [Option.map_eq_none_iff] at h
    simp only [slotTabIds_cons, List.mem_append, not_or]
    exact ⟨not_mem_of_attach_eq_none hnone, not_mem_of_attachSlot_eq_none h⟩

end

mutual

theorem placedBeside_attach {anchor new : TabId} {side : Side} :
    {tree grown : PaneTree α} → attach anchor new side tree = some grown →
      PlacedBeside grown.tabIds tree.tabIds anchor new side
  | leaf tab, grown, h => by
    simp only [attach] at h
    split at h
    · rename_i htab
      cases h
      rw [htab]
      exact placedBeside_pair anchor new side
    · cases h
  | split axis slots, grown, h => by
    simp only [attach, Option.map_eq_some_iff] at h
    obtain ⟨more, hmore, rfl⟩ := h
    exact placedBeside_attachSlot hmore

theorem placedBeside_attachSlot {anchor new : TabId} {side : Side} {axis : Axis} :
    {slots more : List (PaneTree α × α)} → attachSlot anchor new side axis slots = some more →
      PlacedBeside (slotTabIds more) (slotTabIds slots) anchor new side
  | [], _, h => by simp [attachSlot] at h
  | (tree, share) :: rest, more, h => by
    simp only [attachSlot] at h
    split at h
    · rename_i hanchor
      obtain rfl := asTab?_eq_some_iff.1 hanchor.1
      refine ⟨[], slotTabIds rest, rfl, List.not_mem_nil, ?_⟩
      cases side <;> cases h <;> rfl
    split at h
    · rename_i grown hgrown
      cases h
      exact (placedBeside_attach hgrown).append_right (slotTabIds rest)
    · rename_i hnone
      obtain ⟨more, hmore, rfl⟩ := Option.map_eq_some_iff.1 h
      exact (placedBeside_attachSlot hmore).append_left (not_mem_of_attach_eq_none hnone)

end

/-- The panes that an insertion finds: those of the tree, or else the anchor's alone. -/
def panesFor (root : Option (PaneTree α)) (anchor : TabId) : List TabId :=
  root.elim [anchor] tabIds

theorem placedBeside_insert {root : Option (PaneTree α)} {anchor new : TabId} {side : Side}
    {tree : PaneTree α} (h : insert root anchor new side = some tree) :
    PlacedBeside tree.tabIds (panesFor root anchor) anchor new side := by
  unfold insert at h
  split at h
  · cases h
  cases root with
  | none =>
    cases h
    exact placedBeside_pair anchor new side
  | some old =>
    simp only at h
    split at h
    · cases h
    · exact placedBeside_attach h

theorem tabIds_insert {root : Option (PaneTree α)} {anchor new : TabId} {side : Side}
    {tree : PaneTree α} (h : insert root anchor new side = some tree) :
    anchor ∈ panesFor root anchor ∧ new ∉ panesFor root anchor ∧
      (panesFor root anchor).length < maxPanes ∧
      tree.tabIds.Perm (new :: panesFor root anchor) := by
  have hfresh : new ∉ panesFor root anchor ∧ (panesFor root anchor).length < maxPanes := by
    unfold insert at h
    split at h
    · cases h
    rename_i hne
    cases root with
    | none => exact ⟨by simpa [panesFor] using Ne.symm hne, by simp [panesFor, maxPanes]⟩
    | some old =>
      simp only at h
      split at h
      · cases h
      rename_i hroom
      refine ⟨fun hnew => hroom (.inr hnew), ?_⟩
      rw [panesFor, Option.elim_some, length_tabIds]
      omega
  have hplaced := placedBeside_insert h
  exact ⟨hplaced.mem, hfresh.1, hfresh.2, hplaced.perm⟩

theorem exists_insert {root : Option (PaneTree α)} {anchor new : TabId}
    (hanchor : anchor ∈ panesFor root anchor) (hnew : new ∉ panesFor root anchor)
    (hroom : (panesFor root anchor).length < maxPanes) (side : Side) :
    ∃ tree, insert root anchor new side = some tree := by
  have hne : anchor ≠ new := fun heq => hnew (heq ▸ hanchor)
  cases root with
  | none => exact ⟨_, if_neg hne⟩
  | some tree =>
    simp only [panesFor, Option.elim_some, length_tabIds] at hanchor hnew hroom
    have haccept : ¬(maxPanes ≤ tree.leafCount ∨ new ∈ tree) := by
      rintro (hfull | hmem)
      · omega
      · exact hnew hmem
    simp only [insert, if_neg hne, if_neg haccept]
    exact Option.ne_none_iff_exists'.1 fun hnone => not_mem_of_attach_eq_none hnone hanchor

theorem mem_insert_iff {root : Option (PaneTree α)} {anchor new tab : TabId} {side : Side}
    {tree : PaneTree α} (h : insert root anchor new side = some tree) :
    tab ∈ tree ↔ tab = new ∨ tab ∈ panesFor root anchor := by
  rw [mem_def, (tabIds_insert h).2.2.2.mem_iff, List.mem_cons]

end Attaching

section Collapsing

mutual

@[simp]
theorem tabIds_collapse : (tree : PaneTree α) → tree.collapse.tabIds = tree.tabIds
  | leaf _ => by simp [collapse]
  | split axis slots => by
    have hslots := slotTabIds_collapseSlots slots
    simp only [collapse]
    split
    · rename_i only share hkept
      simpa [hkept] using hslots
    · exact hslots

theorem slotTabIds_collapseSlots :
    (slots : List (PaneTree α × α)) → slotTabIds (collapseSlots slots) = slotTabIds slots
  | [] => rfl
  | (tree, share) :: rest => by
    simp [collapseSlots, tabIds_collapse tree, slotTabIds_collapseSlots rest]

end

end Collapsing

section Detaching

theorem slotTabIds_map_share (slots : List (PaneTree α × α)) (share : PaneTree α × α → α) :
    slotTabIds (slots.map fun slot => (slot.1, share slot)) = slotTabIds slots := by
  simp [slotTabIds_eq_flatMap, List.flatMap_map]

variable [Scalar α]

@[simp]
theorem slotTabIds_redistribute (freed : α) (slots : List (PaneTree α × α)) :
    slotTabIds (redistribute freed slots) = slotTabIds slots := by
  simp only [redistribute]
  split <;> exact slotTabIds_map_share slots _

@[simp]
theorem slotTabIds_settled (left : Vacated α) :
    slotTabIds left.settled = slotTabIds left.slots := by
  unfold Vacated.settled
  split <;> simp

mutual

theorem mem_of_detach_eq_none {tab : TabId} :
    {tree : PaneTree α} → detach tab tree = none → tab ∈ tree.tabIds → tree = leaf tab
  | leaf shown, _, hmem => by simp_all
  | split axis slots, h, hmem => by
    simp only [detach, Option.map_eq_none_iff] at h
    exact absurd hmem (not_mem_of_vacate_eq_none h)

theorem not_mem_of_vacate_eq_none {tab : TabId} :
    {slots : List (PaneTree α × α)} → vacate tab slots = none → tab ∉ slotTabIds slots
  | [], _ => by simp
  | (tree, share) :: rest, h => by
    simp only [vacate] at h
    split at h
    · cases h
    rename_i hleaf
    split at h
    · cases h
    rename_i hnone
    rw [Option.map_eq_none_iff] at h
    simp only [slotTabIds_cons, List.mem_append, not_or]
    refine ⟨fun hmem => ?_, not_mem_of_vacate_eq_none h⟩
    exact hleaf (asTab?_eq_some_iff.2 (mem_of_detach_eq_none hnone hmem))

end

mutual

theorem tabIds_detach {tab : TabId} :
    {tree rest : PaneTree α} → detach tab tree = some rest →
      tab ∈ tree.tabIds ∧ rest.tabIds = tree.tabIds.erase tab
  | leaf _, _, h => by simp [detach] at h
  | split axis slots, rest, h => by
    simp only [detach, Option.map_eq_some_iff] at h
    obtain ⟨left, hleft, rfl⟩ := h
    simpa using slotTabIds_vacate hleft

theorem slotTabIds_vacate {tab : TabId} :
    {slots : List (PaneTree α × α)} → {left : Vacated α} → vacate tab slots = some left →
      tab ∈ slotTabIds slots ∧ slotTabIds left.slots = (slotTabIds slots).erase tab
  | [], _, h => by simp [vacate] at h
  | (tree, share) :: rest, left, h => by
    simp only [vacate] at h
    split at h
    · rename_i hleaf
      obtain rfl := asTab?_eq_some_iff.1 hleaf
      cases h
      simp
    rename_i hleaf
    split at h
    · rename_i shrunk hshrunk
      cases h
      obtain ⟨hmem, heq⟩ := tabIds_detach hshrunk
      exact ⟨by simp [hmem], by simp [heq, List.erase_append_left _ hmem]⟩
    · rename_i hnone
      obtain ⟨left, hleft, rfl⟩ := Option.map_eq_some_iff.1 h
      obtain ⟨hmem, heq⟩ := slotTabIds_vacate hleft
      have hnot : tab ∉ tree.tabIds := fun htab =>
        hleaf (asTab?_eq_some_iff.2 (mem_of_detach_eq_none hnone htab))
      exact ⟨by simp [hmem], by simp [heq, List.erase_append_right _ hnot]⟩

end

theorem removeLeaf_eq_notFound_iff {tree : PaneTree α} {tab : TabId} :
    tree.removeLeaf tab = .notFound ↔ tab ∉ tree := by
  unfold removeLeaf
  split
  · simp [*]
  split
  · simp_all
  split <;> simp_all

theorem removeLeaf_eq_removed {tree rest : PaneTree α} {tab : TabId}
    (h : tree.removeLeaf tab = .removed rest) :
    2 < tree.leafCount ∧ ∃ left, tree.detach tab = some left ∧ rest = left.collapse := by
  unfold removeLeaf at h
  split at h
  · cases h
  split at h
  · cases h
  rename_i hcount
  split at h <;> cases h
  exact ⟨by omega, _, by assumption, rfl⟩

theorem tabIds_removed {tree rest : PaneTree α} {tab : TabId}
    (h : tree.removeLeaf tab = .removed rest) :
    tab ∈ tree ∧ rest.tabIds = tree.tabIds.erase tab := by
  obtain ⟨-, left, hleft, rfl⟩ := removeLeaf_eq_removed h
  rw [tabIds_collapse]
  exact tabIds_detach hleft

theorem removeLeaf_eq_collapsed {tree : PaneTree α} {tab : TabId} {remaining : Option TabId}
    (h : tree.removeLeaf tab = .collapsed remaining) :
    tab ∈ tree ∧ tree.leafCount ≤ 2 ∧ remaining = tree.tabIds.find? (· ≠ tab) := by
  unfold removeLeaf at h
  split at h
  · cases h
  rename_i hmem
  split at h
  · cases h
    exact ⟨by simpa using hmem, by assumption, rfl⟩
  rename_i hcount
  split at h
  · cases h
  · rename_i hnone
    -- A lone leaf has no more than two leaves.
    rw [mem_of_detach_eq_none hnone (Decidable.not_not.1 hmem)] at hcount
    exact absurd (by simp [leafCount]) hcount

end Detaching

end PaneTree

end PaneTiling
