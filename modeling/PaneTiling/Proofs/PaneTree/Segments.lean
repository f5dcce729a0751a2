import Mathlib.Data.List.Lex
import PaneTiling.Proofs.PaneTree.Rewriting

/-!
Paths and the layout order agree. Paths are compared entry by entry, so of two leaves the one with
the lesser path comes first in the layout; the path that is found for a tab is the least that leads
to it. What stands at a path takes up one run of the leaves, and writing it anew writes that run
anew and nothing else.
-/

namespace PaneTiling.PaneTree

variable {α : Type}

section Least

variable {tab : TabId}

theorem mem_of_nodeAt_leaf {tree : PaneTree α} {path : List Nat}
    (h : tree.nodeAt path = some (leaf tab)) : tab ∈ tree :=
  (sublist_of_nodeAt h).subset List.mem_cons_self

theorem nil_le (path : List Nat) : [] ≤ path := by
  cases path with
  | nil => exact le_rfl
  | cons index path => exact le_of_lt List.Lex.nil

mutual

theorem findPath_le :
    {tree : PaneTree α} → {path other : List Nat} → findPath tab tree = some path →
      tree.nodeAt other = some (leaf tab) → path ≤ other
  | leaf shown, path, other, h, _ => by
    simp only [findPath, Option.ite_none_right_eq_some] at h
    cases h.2
    exact nil_le other
  | split axis slots, path, [], _, hother => by cases hother
  | split axis slots, path, index :: rest, h, hother => by
    rw [nodeAt_split_cons, Option.bind_eq_some_iff] at hother
    obtain ⟨slot, hslot, hrest⟩ := hother
    rw [findPath] at h
    have hle := findSlotPath_le h hslot hrest
    rwa [Nat.zero_add] at hle

theorem findSlotPath_le :
    {slots : List (PaneTree α × α)} → {start index : Nat} → {path rest : List Nat} →
      {slot : PaneTree α × α} → findSlotPath tab start slots = some path →
        slots[index]? = some slot → slot.1.nodeAt rest = some (leaf tab) →
          path ≤ (start + index) :: rest
  | [], _, _, _, _, _, _, hslot, _ => by simp at hslot
  | (tree, share) :: others, start, index, path, rest, slot, h, hslot, hrest => by
    simp only [findSlotPath] at h
    cases index with
    | zero =>
      cases hslot
      obtain ⟨found, hfound⟩ := exists_findPath (mem_of_nodeAt_leaf hrest)
      rw [hfound] at h
      cases h
      exact List.cons_le_cons start (findPath_le hfound hrest)
    | succ index =>
      rw [List.getElem?_cons_succ] at hslot
      split at h
      · cases h
        exact le_of_lt (List.Lex.rel (by omega))
      · have hle := findSlotPath_le h hslot hrest
        rwa [Nat.add_right_comm, Nat.add_assoc] at hle

end

theorem findPath_eq_some_iff {tree : PaneTree α} {path : List Nat} :
    tree.findPath tab = some path ↔
      tree.nodeAt path = some (leaf tab) ∧
        ∀ other, tree.nodeAt other = some (leaf tab) → path ≤ other := by
  constructor
  · exact fun h => ⟨nodeAt_findPath h, fun other hother => findPath_le h hother⟩
  · rintro ⟨hpath, hleast⟩
    obtain ⟨found, hfound⟩ := exists_findPath (mem_of_nodeAt_leaf hpath)
    have hle := hleast found (nodeAt_findPath hfound)
    rw [hfound, le_antisymm (findPath_le hfound hpath) hle]

theorem isSome_findPath_iff {tree : PaneTree α} :
    (tree.findPath tab).isSome ↔ tab ∈ tree.tabIds := by
  rw [Option.isSome_iff_exists]
  exact ⟨fun ⟨path, hpath⟩ => mem_of_nodeAt_leaf (nodeAt_findPath hpath), exists_findPath⟩

end Least

section Segments

def tabsBefore (tree : PaneTree α) (path : List Nat) : List TabId :=
  match path, tree with
  | [], _ => []
  | _ :: _, leaf _ => []
  | index :: rest, split _ slots =>
    slotTabIds (slots.take index) ++ slots[index]?.elim [] (·.1.tabsBefore rest)
termination_by structural path

def tabsAfter (tree : PaneTree α) (path : List Nat) : List TabId :=
  match path, tree with
  | [], _ => []
  | _ :: _, leaf _ => []
  | index :: rest, split _ slots =>
    slots[index]?.elim [] (·.1.tabsAfter rest) ++ slotTabIds (slots.drop (index + 1))
termination_by structural path

variable {old new tree edited : PaneTree α} {path : List Nat}

theorem slotTabIds_set {slots : List (PaneTree α × α)} {index : Nat} {slot : PaneTree α × α}
    (hslot : slots[index]? = some slot) (placed : PaneTree α × α) :
    slotTabIds (slots.set index placed) =
      slotTabIds (slots.take index) ++ placed.1.tabIds ++ slotTabIds (slots.drop (index + 1)) := by
  have hlt := (List.getElem?_eq_some_iff.1 hslot).1
  rw [List.set_eq_take_append_cons_drop, if_pos hlt, slotTabIds_append, slotTabIds_cons,
    List.append_assoc]

theorem Rewrites.tabIds_eq (h : Rewrites old new path tree edited) :
    edited.tabIds = tree.tabsBefore path ++ new.tabIds ++ tree.tabsAfter path := by
  induction h with
  | here => exact (List.append_nil _).symm
  | within hslot _ ih =>
    rw [tabIds_split, slotTabIds_set hslot, ih, tabsBefore, tabsAfter, hslot]
    simp only [Option.elim_some, List.append_assoc]

theorem tabIds_eq_of_nodeAt {node : PaneTree α} (h : tree.nodeAt path = some node) :
    tree.tabIds = tree.tabsBefore path ++ node.tabIds ++ tree.tabsAfter path := by
  obtain ⟨edited, -, hrewrites⟩ := exists_rewrites id h
  have hsame := hrewrites.tabIds_eq
  rwa [hrewrites.eq_self] at hsame

theorem modifyAt_eq_none (edit : PaneTree α → PaneTree α) (h : tree.nodeAt path = none) :
    tree.modifyAt edit path = none := by
  induction path generalizing tree with
  | nil => cases h
  | cons index rest ih =>
    cases tree with
    | leaf tab => rfl
    | split axis slots =>
      rw [nodeAt_split_cons, Option.bind_eq_none_iff] at h
      cases hslot : slots[index]? with
      | none => simp [modifyAt, hslot]
      | some slot => simp [modifyAt, hslot, ih (h slot hslot)]

end Segments

/-- A path is found for exactly the tabs that are shown: the least of those that lead to a leaf of
the tab. There are as many leaves as tabs shown, and where every split has a slot, the first of them
is found by always going down the first slot. The tabs under a path stand side by side, and an edit
there, which is made wherever the path leads to a node, puts the tabs of the new node in their
place. -/
theorem paths_agree_with_layout (tree : PaneTree α) :
    (∀ tab, (tree.findPath tab).isSome ↔ tab ∈ tree.tabIds) ∧
    (∀ tab path, tree.findPath tab = some path ↔
      tree.nodeAt path = some (leaf tab) ∧
        ∀ other, tree.nodeAt other = some (leaf tab) → path ≤ other) ∧
    tree.leafCount = tree.tabIds.length ∧
    (tree.Branching 1 → tree.firstTab? = tree.tabIds.head?) ∧
    (∀ path node, tree.nodeAt path = some node →
      tree.tabIds = tree.tabsBefore path ++ node.tabIds ++ tree.tabsAfter path ∧
        ∀ edit, ∃ edited, tree.modifyAt edit path = some edited ∧
          edited.nodeAt path = some (edit node) ∧
          edited.tabIds = tree.tabsBefore path ++ (edit node).tabIds ++ tree.tabsAfter path) ∧
    (∀ path, tree.nodeAt path = none → ∀ edit, tree.modifyAt edit path = none) := by
  refine ⟨fun _ => isSome_findPath_iff, fun _ _ => findPath_eq_some_iff, (length_tabIds tree).symm,
    firstTab?_eq_head?, fun path node hnode => ⟨tabIds_eq_of_nodeAt hnode, fun edit => ?_⟩,
    fun path hnone edit => modifyAt_eq_none edit hnone⟩
  obtain ⟨edited, hedited, hrewrites⟩ := exists_rewrites edit hnode
  exact ⟨edited, hedited, hrewrites.nodeAt_new, hrewrites.tabIds_eq⟩

end PaneTiling.PaneTree
