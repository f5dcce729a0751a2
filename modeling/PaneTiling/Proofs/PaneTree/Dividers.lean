import PaneTiling.Proofs.PaneTree.Areas
import PaneTiling.Proofs.PaneTree.Tiling

/-!
Which dividers a tree has. A border is a place between two neighbouring slots of a split, and its
address tells it from every other. Whatever rectangle a tree is laid out in, it has one divider for
each border; so the address of a divider is where resizing finds two shares to move, and resizing
finds none anywhere else. A split with more slots has as many borders more as it adds parts: there
is always one leaf more than there are borders.
-/

namespace PaneTiling.PaneTree

variable {α : Type}

section Borders

theorem mem_slotBorders {path : List Nat} {index start : Nat} {slots : List (PaneTree α × α)} :
    (path, index) ∈ slotBorders start slots ↔ ∃ (place : Nat) (slot : PaneTree α × α)
      (rest : List Nat), slots[place]? = some slot ∧ (rest, index) ∈ slot.1.borders ∧
        path = (start + place) :: rest := by
  induction slots generalizing start with
  | nil => simp [slotBorders]
  | cons slot later ih =>
    have hshift (place : Nat) : start + 1 + place = start + (place + 1) := by omega
    rw [slotBorders, List.mem_append, ih]
    constructor
    · rintro (hfirst | ⟨place, found, rest, hfound, hrest, rfl⟩)
      · obtain ⟨⟨rest, slotIndex⟩, hrest, hsame⟩ := List.mem_map.1 hfirst
        cases hsame
        exact ⟨0, slot, rest, rfl, hrest, rfl⟩
      · exact ⟨place + 1, found, rest, hfound, hrest, by rw [hshift]⟩
    · rintro ⟨place, found, rest, hfound, hrest, rfl⟩
      cases place with
      | zero =>
        cases hfound
        exact .inl (List.mem_map.2 ⟨(rest, index), hrest, rfl⟩)
      | succ place => exact .inr ⟨place, found, rest, hfound, hrest, by rw [hshift]⟩

theorem mem_borders {path : List Nat} {index : Nat} {tree : PaneTree α} :
    (path, index) ∈ tree.borders ↔
      ∃ axis slots, tree.nodeAt path = some (split axis slots) ∧ index + 1 < slots.length := by
  induction path generalizing tree with
  | nil =>
    cases tree with
    | leaf tab => simp [borders]
    | split axis slots =>
      -- Only the split itself has borders at the empty path.
      have hslots : ([], index) ∉ slotBorders 0 slots := by simp [mem_slotBorders]
      simp [borders, hslots, Nat.lt_sub_iff_add_lt]
  | cons first rest ih =>
    cases tree with
    | leaf tab => simp [borders]
    | split axis slots =>
      have hown : (first :: rest, index) ∉ (List.range (slots.length - 1)).map ([], ·) := by simp
      simp only [borders, List.mem_append, hown, false_or, mem_slotBorders, nodeAt_split_cons,
        Option.bind_eq_some_iff]
      constructor
      · rintro ⟨place, slot, later, hslot, hlater, hsame⟩
        rw [Nat.zero_add] at hsame
        cases hsame
        obtain ⟨other, more, hmore, hlt⟩ := ih.1 hlater
        exact ⟨other, more, ⟨slot, hslot, hmore⟩, hlt⟩
      · rintro ⟨other, more, ⟨slot, hslot, hmore⟩, hlt⟩
        exact ⟨first, slot, rest, hslot, ih.2 ⟨other, more, hmore, hlt⟩, by rw [Nat.zero_add]⟩

theorem nodup_slotBorders {slots : List (PaneTree α × α)}
    (htrees : ∀ slot ∈ slots, slot.1.borders.Nodup) (start : Nat) :
    (slotBorders start slots).Nodup := by
  induction slots generalizing start with
  | nil => exact .nil
  | cons slot rest ih =>
    rw [List.forall_mem_cons] at htrees
    have hfirst : (slot.1.borders.map fun border => (start :: border.1, border.2)).Nodup := by
      refine htrees.1.map fun border other hsame => ?_
      simpa [Prod.ext_iff] using hsame
    rw [slotBorders, List.nodup_append']
    refine ⟨hfirst, ih htrees.2 (start + 1), ?_⟩
    -- A path that starts with this slot starts with no later one.
    rintro ⟨path, index⟩ hhere hlater
    obtain ⟨border, -, hsame⟩ := List.mem_map.1 hhere
    obtain ⟨place, found, later, -, -, rfl⟩ := mem_slotBorders.1 hlater
    have hplace : start = start + 1 + place := (List.cons.inj (Prod.mk.inj hsame).1).1
    omega

theorem nodup_borders (tree : PaneTree α) : tree.borders.Nodup := by
  induction tree using PaneTree.induction with
  | leaf tab => exact .nil
  | split axis slots ih =>
    have hown : ((List.range (slots.length - 1)).map (([] : List Nat), ·)).Nodup :=
      List.nodup_range.map fun first second hsame => (Prod.mk.inj hsame).2
    rw [borders, List.nodup_append']
    refine ⟨hown, nodup_slotBorders ih 0, ?_⟩
    rintro ⟨path, index⟩ hhere hlater
    obtain ⟨place, -, hsame⟩ := List.mem_map.1 hhere
    cases hsame
    simp [mem_slotBorders] at hlater

theorem length_slotBorders {slots : List (PaneTree α × α)}
    (htrees : ∀ slot ∈ slots, slot.1.borders.length + 1 = slot.1.leafCount) (start : Nat) :
    (slotBorders start slots).length + slots.length = slotLeafCount slots := by
  induction slots generalizing start with
  | nil => rfl
  | cons slot rest ih =>
    rw [List.forall_mem_cons] at htrees
    have hrest := ih htrees.2 (start + 1)
    simp only [slotBorders, slotLeafCount, List.length_append, List.length_map, List.length_cons]
    omega

theorem length_borders {tree : PaneTree α} (h : tree.Branching 1) :
    tree.borders.length + 1 = tree.leafCount := by
  induction tree using PaneTree.induction with
  | leaf tab => rfl
  | split axis slots ih =>
    rw [branching_split] at h
    have hslots := length_slotBorders (fun slot hslot => ih slot hslot (h.2 slot hslot)) 0
    simp only [borders, leafCount, List.length_append, List.length_map, List.length_range]
    omega

theorem isNone_shareAt?_of_not_mem {tree : PaneTree α} {path : List Nat} {index : Nat}
    (h : (path, index) ∉ tree.borders) : (tree.shareAt? path (index + 1)).isNone := by
  rw [Option.isNone_iff_eq_none, Option.eq_none_iff_forall_ne_some]
  intro share hshare
  obtain ⟨axis, slots, node, hnode, hslot⟩ := exists_nodeAt_of_shareAt? hshare
  exact h (mem_borders.2 ⟨axis, slots, hnode, (List.getElem?_eq_some_iff.1 hslot).1⟩)

end Borders

section Layout

variable [Scalar α] {tree : PaneTree α} {gap : α} {outer : Rect α} {d : Divider α}

/-- Resizing at an address moves a border: its two shares become what moving a border between them
by a finite distance makes of them, and nothing else changes. -/
def MovesBorder (tree : PaneTree α) (path : List Nat) (index : Nat) : Prop :=
  ∃ first second, tree.shareAt? path index = some first ∧
    tree.shareAt? path (index + 1) = some second ∧
    ∀ delta shares, Scalar.isFinite delta = true → moveBorder first second delta = .ok shares →
      ∃ moved, tree.resize path index delta = .ok moved ∧ moved.SameButBorder tree path index ∧
        moved.shareAt? path index = some shares.1 ∧
        moved.shareAt? path (index + 1) = some shares.2

theorem movesBorder_of_mem_borders {path : List Nat} {index : Nat}
    (h : (path, index) ∈ tree.borders) : tree.MovesBorder path index := by
  obtain ⟨axis, slots, hnode, hlt⟩ := mem_borders.1 h
  obtain ⟨⟨before, first⟩, hbefore⟩ : ∃ slot, slots[index]? = some slot :=
    ⟨_, List.getElem?_eq_getElem (Nat.lt_of_succ_lt hlt)⟩
  obtain ⟨⟨after, second⟩, hafter⟩ : ∃ slot, slots[index + 1]? = some slot :=
    ⟨_, List.getElem?_eq_getElem hlt⟩
  refine ⟨first, second, ?_, ?_, fun delta shares hfinite hshares => ?_⟩
  · rw [shareAt?_of_nodeAt hnode, hbefore, Option.map_some]
  · rw [shareAt?_of_nodeAt hnode, hafter, Option.map_some]
  have hmore := resizeSlots_of_border hbefore hafter hshares
  obtain ⟨moved, hmoved, hrewrites⟩ := exists_resize_rewrites hnode hfinite hmore
  refine ⟨moved, hmoved, (resize_spec hmoved).1, ?_, ?_⟩
  · rw [shareAt?_of_nodeAt hrewrites.nodeAt_new, List.getElem?_set_ne (Nat.succ_ne_self index),
      List.getElem?_set_self (Nat.lt_of_succ_lt hlt), Option.map_some]
  · rw [shareAt?_of_nodeAt hrewrites.nodeAt_new, List.getElem?_set_self (by simpa using hlt),
      Option.map_some]

theorem address_mem_borders (h : d ∈ tree.dividers outer gap) : d.address ∈ tree.borders := by
  rw [← map_address_dividers gap tree outer]
  exact List.mem_map_of_mem h

theorem exists_nodeAt_of_mem_dividers (h : d ∈ tree.dividers outer gap) :
    ∃ slots, tree.nodeAt d.path = some (split d.axis slots) ∧ d.index + 1 < slots.length := by
  obtain ⟨axis, slots, hnode, hlt⟩ := mem_borders.1 (address_mem_borders h)
  have hplaced := dividerOf?_of_mem h
  simp only [dividerOf?, Divider.address, hnode, sharing?, Option.bind_some,
    Option.bind_eq_some_iff] at hplaced
  obtain ⟨area, -, hgap⟩ := hplaced
  obtain ⟨hindex, hsame⟩ := List.getElem?_eq_some_iff.1 hgap
  have haxis : axis = d.axis := by
    rw [← hsame]
    simp [gapDividers]
  exact ⟨slots, haxis ▸ hnode, hlt⟩

theorem exists_divider_iff {axis : Axis} {path : List Nat} {index : Nat} :
    (∃ d ∈ tree.dividers outer gap, d.axis = axis ∧ d.path = path ∧ d.index = index) ↔
      ∃ slots, tree.nodeAt path = some (split axis slots) ∧ index + 1 < slots.length := by
  constructor
  · rintro ⟨d, hd, rfl, rfl, rfl⟩
    exact exists_nodeAt_of_mem_dividers hd
  · rintro ⟨slots, hnode, hlt⟩
    have hborder : (path, index) ∈ (tree.dividers outer gap).map Divider.address := by
      rw [map_address_dividers]
      exact mem_borders.2 ⟨axis, slots, hnode, hlt⟩
    obtain ⟨d, hd, haddress⟩ := List.mem_map.1 hborder
    obtain ⟨rfl, rfl⟩ := Prod.mk.inj haddress
    obtain ⟨more, hmore, -⟩ := exists_nodeAt_of_mem_dividers hd
    have hsplit : split d.axis more = split axis slots :=
      Option.some.inj (hmore.symm.trans hnode)
    exact ⟨d, hd, (split.inj hsplit).1, rfl, rfl⟩

/-- Laid out in any rectangle, a tree has one pane for each of its leaves, in their order, and one
divider for each place where a split has a next slot. These are the addresses at which resizing
moves a border; at any other but that of a last index it changes nothing. Without a split that has
no slots there is one divider less than there are leaves. -/
theorem dividers_at_borders (tree : PaneTree α) (outer : Rect α) (gap : α) :
    (tree.paneRects gap outer).map (·.1) = tree.tabIds ∧
    ((tree.dividers outer gap).map fun d => (d.path, d.index)).Nodup ∧
    (∀ axis path index,
      (∃ d ∈ tree.dividers outer gap, d.axis = axis ∧ d.path = path ∧ d.index = index) ↔
        ∃ slots, tree.nodeAt path = some (split axis slots) ∧ index + 1 < slots.length) ∧
    (∀ d ∈ tree.dividers outer gap, tree.MovesBorder d.path d.index) ∧
    (∀ path index, (∀ d ∈ tree.dividers outer gap, d.path = path → d.index ≠ index) →
      index < lastIndex → ∀ delta, tree.resize path index delta = .ok tree) ∧
    (tree.Branching 1 → (tree.dividers outer gap).length + 1 = tree.leafCount) := by
  have haddresses := map_address_dividers gap tree outer
  refine ⟨map_fst_paneRects gap tree outer, ?_, fun _ _ _ => exists_divider_iff, ?_, ?_, ?_⟩
  · have hnodup := nodup_borders tree
    rwa [← haddresses] at hnodup
  · intro d hd
    exact movesBorder_of_mem_borders (address_mem_borders hd)
  · intro path index hnone hindex delta
    have hwithin : ¬tree.Overruns path index := not_overruns hindex
    refine resize_of_isNone (isNone_shareAt?_of_not_mem fun hborder => ?_) hwithin delta
    rw [← haddresses] at hborder
    obtain ⟨d, hd, haddress⟩ := List.mem_map.1 hborder
    obtain ⟨hpath, hindex⟩ := Prod.mk.inj haddress
    exact hnone d hd hpath hindex
  · intro hbranching
    rw [← length_borders hbranching, ← haddresses, List.length_map]

end Layout

theorem dividers_at_borders_paneBesideColumn :
    paneBesideColumn.Branching 1 ∧
      (paneBesideColumn.dividers ⟨0, 0, 804, 604⟩ 4).length + 1 = 3 ∧
      ∃ d ∈ paneBesideColumn.dividers ⟨0, 0, 804, 604⟩ 4,
        d.axis = .col ∧ d.path = [1] ∧ d.index = 0 := by
  have hbranching : paneBesideColumn.Branching 1 := by
    simp [paneBesideColumn, branching_split]
  obtain ⟨-, -, hplaces, -, -, hcount⟩ := dividers_at_borders paneBesideColumn ⟨0, 0, 804, 604⟩ 4
  exact ⟨hbranching, hcount hbranching, (hplaces .col [1] 0).2 ⟨_, rfl, by decide⟩⟩

end PaneTiling.PaneTree
