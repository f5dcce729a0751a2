import PaneTiling.Proofs.PaneTree.Shape
import PaneTiling.Workspace

/-!
Paths through a pane tree. The path that is found for a tab leads to a leaf that shows it, and what
lies under any path is a part of the layout. From this follows where the focus goes when a pane is
taken away: to another pane of the tree.
-/

namespace PaneTiling.PaneTree

variable {α : Type}

@[simp]
theorem nodeAt_nil (tree : PaneTree α) : tree.nodeAt [] = some tree := rfl

@[simp]
theorem nodeAt_split_cons (axis : Axis) (slots : List (PaneTree α × α)) (index : Nat)
    (rest : List Nat) :
    (split axis slots).nodeAt (index :: rest) = slots[index]?.bind (·.1.nodeAt rest) := rfl

@[simp]
theorem nodeAt_leaf_cons (tab : TabId) (index : Nat) (rest : List Nat) :
    (leaf tab : PaneTree α).nodeAt (index :: rest) = none := rfl

theorem nodeAt_append (tree : PaneTree α) (path rest : List Nat) :
    tree.nodeAt (path ++ rest) = (tree.nodeAt path).bind (·.nodeAt rest) := by
  induction path generalizing tree with
  | nil => rfl
  | cons index path ih =>
    cases tree with
    | leaf tab => rfl
    | split axis slots =>
      simp only [List.cons_append, nodeAt_split_cons, Option.bind_assoc]
      exact congrArg _ (funext fun slot => ih slot.1)

theorem sublist_slotTabIds {slots : List (PaneTree α × α)} {slot : PaneTree α × α}
    (h : slot ∈ slots) : slot.1.tabIds.Sublist (slotTabIds slots) := by
  obtain ⟨before, after, rfl⟩ := List.append_of_mem h
  rw [slotTabIds_append, slotTabIds_cons]
  exact (List.sublist_append_left _ _).trans (List.sublist_append_right _ _)

theorem nodeAt_inherits {P : PaneTree α → Prop}
    (hslots : ∀ axis slots, P (split axis slots) → ∀ slot ∈ slots, P slot.1)
    {tree node : PaneTree α} {path : List Nat} (htree : P tree)
    (h : tree.nodeAt path = some node) : P node := by
  induction path generalizing tree with
  | nil =>
    cases h
    exact htree
  | cons index path ih =>
    cases tree with
    | leaf tab => cases h
    | split axis slots =>
      rw [nodeAt_split_cons, Option.bind_eq_some_iff] at h
      obtain ⟨slot, hslot, hnode⟩ := h
      exact ih (hslots axis slots htree slot (List.mem_of_getElem? hslot)) hnode

theorem Branching.nodeAt {least : Nat} {tree node : PaneTree α} {path : List Nat}
    (h : tree.Branching least) (hnode : tree.nodeAt path = some node) : node.Branching least :=
  nodeAt_inherits (fun _ _ hsplit => (branching_split.1 hsplit).2) h hnode

theorem sublist_of_nodeAt {tree node : PaneTree α} {path : List Nat}
    (h : tree.nodeAt path = some node) : node.tabIds.Sublist tree.tabIds := by
  induction path generalizing tree with
  | nil =>
    cases h
    exact .refl _
  | cons index path ih =>
    cases tree with
    | leaf tab => cases h
    | split axis slots =>
      rw [nodeAt_split_cons, Option.bind_eq_some_iff] at h
      obtain ⟨slot, hslot, hnode⟩ := h
      exact (ih hnode).trans (sublist_slotTabIds (List.mem_of_getElem? hslot))

mutual

theorem nodeAt_findPath {tab : TabId} :
    {tree : PaneTree α} → {path : List Nat} → findPath tab tree = some path →
      tree.nodeAt path = some (leaf tab)
  | leaf shown, path, h => by
    simp only [findPath] at h
    split at h
    · rename_i hshown
      cases h
      rw [nodeAt_nil, hshown]
    · cases h
  | split axis slots, path, h => by
    rw [findPath] at h
    obtain ⟨index, rest, rfl, hrest⟩ := nodeAt_findSlotPath h
    simpa using hrest

theorem nodeAt_findSlotPath {tab : TabId} :
    {slots : List (PaneTree α × α)} → {start : Nat} → {path : List Nat} →
      findSlotPath tab start slots = some path →
        ∃ index rest, path = (start + index) :: rest ∧
          slots[index]?.bind (·.1.nodeAt rest) = some (leaf tab)
  | [], _, _, h => by simp [findSlotPath] at h
  | (tree, share) :: others, start, path, h => by
    simp only [findSlotPath] at h
    split at h
    · rename_i rest hrest
      cases h
      exact ⟨0, rest, rfl, nodeAt_findPath hrest⟩
    · obtain ⟨index, rest, rfl, hrest⟩ := nodeAt_findSlotPath h
      exact ⟨index + 1, rest, by rw [Nat.add_right_comm, Nat.add_assoc], hrest⟩

end

mutual

theorem not_mem_of_findPath_eq_none {tab : TabId} :
    {tree : PaneTree α} → findPath tab tree = none → tab ∉ tree.tabIds
  | leaf shown, h => by
    simp only [findPath] at h
    split at h
    · cases h
    · rename_i hshown
      simpa using Ne.symm hshown
  | split axis slots, h => by
    rw [findPath] at h
    exact not_mem_of_findSlotPath_eq_none h

theorem not_mem_of_findSlotPath_eq_none {tab : TabId} :
    {slots : List (PaneTree α × α)} → {start : Nat} → findSlotPath tab start slots = none →
      tab ∉ slotTabIds slots
  | [], _, _ => by simp
  | (tree, share) :: others, start, h => by
    simp only [findSlotPath] at h
    split at h
    · cases h
    · rename_i hnone
      simp only [slotTabIds_cons, List.mem_append, not_or]
      exact ⟨not_mem_of_findPath_eq_none hnone, not_mem_of_findSlotPath_eq_none h⟩

end

theorem exists_findPath {tree : PaneTree α} {tab : TabId} (h : tab ∈ tree) :
    ∃ path, tree.findPath tab = some path :=
  Option.ne_none_iff_exists'.1 fun hnone => not_mem_of_findPath_eq_none hnone h

theorem mem_of_firstTab? {tree : PaneTree α} {tab : TabId} (h : tree.firstTab? = some tab) :
    tab ∈ tree := by
  fun_induction firstTab? tree with
  | case1 shown =>
    cases h
    simp
  | case2 axis => cases h
  | case3 axis tree share rest ih => exact List.mem_append_left _ (ih h)

theorem firstTab?_isSome {tree : PaneTree α} (h : tree.Branching 1) : tree.firstTab?.isSome := by
  fun_induction firstTab? tree with
  | case1 shown => rfl
  | case2 axis => simp [branching_split] at h
  | case3 axis tree share rest ih =>
    rw [branching_split, List.forall_mem_cons] at h
    exact ih h.2.1

theorem firstTab?_eq_head? {tree : PaneTree α} (h : tree.Branching 1) :
    tree.firstTab? = tree.tabIds.head? := by
  fun_induction firstTab? tree with
  | case1 shown => rfl
  | case2 axis => rfl
  | case3 axis tree share rest ih =>
    rw [branching_split, List.forall_mem_cons] at h
    obtain ⟨first, hfirst⟩ := Option.isSome_iff_exists.1 (firstTab?_isSome h.2.1)
    rw [ih h.2.1] at hfirst ⊢
    rw [tabIds_split, slotTabIds_cons, List.head?_append, hfirst, Option.some_or]

theorem length_le_slotTabIds {slots : List (PaneTree α × α)}
    (h : ∀ slot ∈ slots, slot.1.Branching 1) : slots.length ≤ (slotTabIds slots).length := by
  induction slots with
  | nil => exact Nat.zero_le _
  | cons slot rest ih =>
    rw [List.forall_mem_cons] at h
    have hfirst := firstTab?_isSome h.1
    rw [firstTab?_eq_head? h.1, List.isSome_head?] at hfirst
    have hleaves := List.length_pos_iff.2 hfirst
    have hrest := ih h.2
    rw [slotTabIds_cons, List.length_append, List.length_cons]
    omega

theorem disjoint_slots {slots : List (PaneTree α × α)} (h : (slotTabIds slots).Nodup)
    {i j : Nat} (hij : i ≠ j) {first second : PaneTree α × α} (hi : slots[i]? = some first)
    (hj : slots[j]? = some second) : List.Disjoint first.1.tabIds second.1.tabIds := by
  rw [slotTabIds_eq_flatMap, List.nodup_flatMap, List.pairwise_iff_getElem] at h
  obtain ⟨hfirst, rfl⟩ := List.getElem?_eq_some_iff.1 hi
  obtain ⟨hsecond, rfl⟩ := List.getElem?_eq_some_iff.1 hj
  rcases Nat.lt_or_gt_of_ne hij with hlt | hlt
  · exact h.2 i j hfirst hsecond hlt
  · exact fun tab hi hj => h.2 j i hsecond hfirst hlt hj hi

theorem mem_of_neighbour? {tree : PaneTree α} {tab next : TabId} (hnodup : tree.tabIds.Nodup)
    (h : tree.neighbour? tab = some next) : next ∈ tree ∧ next ≠ tab := by
  simp only [neighbour?, Option.bind_eq_bind, Option.bind_eq_some_iff] at h
  obtain ⟨path, hpath, index, hindex, node, hnode, h⟩ := h
  cases node with
  | leaf shown => cases h
  | split axis slots =>
    obtain ⟨slot, hslot, hnext⟩ := Option.bind_eq_some_iff.1 h
    have hleaf := nodeAt_findPath hpath
    rw [← List.dropLast_append_getLast? index hindex, nodeAt_append, hnode, Option.bind_some,
      nodeAt_split_cons] at hleaf
    obtain ⟨own, hown, hsame⟩ := Option.bind_eq_some_iff.1 hleaf
    have hother : (if 0 < index then index - 1 else index + 1) ≠ index := by split <;> omega
    have hslots := sublist_of_nodeAt hnode
    have hdisjoint := disjoint_slots (hslots.nodup hnodup) hother hslot hown
    refine ⟨?_, fun heq => ?_⟩
    · exact hslots.subset ((sublist_slotTabIds (List.mem_of_getElem? hslot)).subset
        (mem_of_firstTab? hnext))
    · refine hdisjoint (mem_of_firstTab? hnext) ?_
      simp only [nodeAt_nil, Option.some.injEq] at hsame
      simp [hsame, heq]

end PaneTiling.PaneTree
