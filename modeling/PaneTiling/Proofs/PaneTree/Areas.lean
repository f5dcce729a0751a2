import PaneTiling.Proofs.PaneTree.Borders

/-!
Where the parts of a tree lie. Every node of a tree that is laid out has an area, which is found by
following its path from slot to slot. The panes are the leaves on their areas, in the order of their
paths, and the dividers belong to the borders, in the order of their addresses; so what keeps its
path and its area stays where it is.
-/

namespace PaneTiling

variable {α : Type}

def Divider.under (path : List Nat) (d : Divider α) : Divider α := { d with path := path ++ d.path }

def Divider.address (d : Divider α) : List Nat × Nat := (d.path, d.index)

theorem Divider.under_nil : (Divider.under [] : Divider α → Divider α) = id := rfl

theorem Divider.under_comp_under (path rest : List Nat) :
    (Divider.under path ∘ Divider.under rest : Divider α → Divider α) = .under (path ++ rest) := by
  funext d
  simp [under]

namespace PaneTree

section Addresses

mutual

def leafPaths : PaneTree α → List (List Nat)
  | leaf _ => [[]]
  | split _ slots => slotLeafPaths 0 slots

def slotLeafPaths (index : Nat) : List (PaneTree α × α) → List (List Nat)
  | [] => []
  | (tree, _) :: rest => tree.leafPaths.map (index :: ·) ++ slotLeafPaths (index + 1) rest

end

mutual

/-- The addresses of the borders, those of a split before those within its slots: the path of the
split and the number of the slot before the border. -/
def borders : PaneTree α → List (List Nat × Nat)
  | leaf _ => []
  | split _ slots => (List.range (slots.length - 1)).map ([], ·) ++ slotBorders 0 slots

def slotBorders (index : Nat) : List (PaneTree α × α) → List (List Nat × Nat)
  | [] => []
  | (tree, _) :: rest =>
    tree.borders.map (fun border => (index :: border.1, border.2)) ++ slotBorders (index + 1) rest

end

end Addresses

variable [Scalar α]

/-- The area of the node at a path. -/
def areaAt? (gap : α) (tree : PaneTree α) (outer : Rect α) (path : List Nat) : Option (Rect α) :=
  match path, tree with
  | [], _ => some outer
  | _ :: _, leaf _ => none
  | index :: rest, split axis slots =>
    slots[index]?.bind fun slot =>
      (slotRects axis outer gap (sharesOf slots))[index]?.bind fun rect =>
        slot.1.areaAt? gap rect rest
termination_by structural path

def dividerOf? (gap : α) (tree : PaneTree α) (outer : Rect α) (border : List Nat × Nat) :
    Option (Divider α) :=
  ((tree.nodeAt border.1).bind sharing?).bind fun (axis, shares) =>
    (tree.areaAt? gap outer border.1).bind fun area =>
      (gapDividers axis area gap border.1 (slotRects axis area gap shares))[border.2]?

section Panes

variable {gap : α}

@[simp]
theorem areaAt?_nil (gap : α) (tree : PaneTree α) (outer : Rect α) :
    tree.areaAt? gap outer [] = some outer := rfl

theorem areaAt?_cons (gap : α) (axis : Axis) (slots : List (PaneTree α × α)) (outer : Rect α)
    (index : Nat) (rest : List Nat) :
    (split axis slots).areaAt? gap outer (index :: rest) =
      slots[index]?.bind fun slot =>
        (slotRects axis outer gap (sharesOf slots))[index]?.bind fun rect =>
          slot.1.areaAt? gap rect rest := rfl

def placedAt (gap : α) (tree : PaneTree α) (outer : Rect α) (path : List Nat) :
    Option (PaneTree α) × Option (Rect α) :=
  (tree.nodeAt path, tree.areaAt? gap outer path)

theorem placedAt_cons {axis : Axis} {slots : List (PaneTree α × α)} {outer rect : Rect α}
    {index : Nat} {slot : PaneTree α × α} (hslot : slots[index]? = some slot)
    (hrect : (slotRects axis outer gap (sharesOf slots))[index]? = some rect) (rest : List Nat) :
    (split axis slots).placedAt gap outer (index :: rest) = slot.1.placedAt gap rect rest := by
  simp only [placedAt, nodeAt_split_cons, areaAt?_cons, hslot, hrect, Option.bind_some]

theorem getElem?_of_suffix {β : Type} {items rest : List β} {first : β} {start : Nat}
    (h : ∀ k : Nat, items[start + k]? = (first :: rest)[k]?) (k : Nat) :
    items[start + 1 + k]? = rest[k]? := by
  rw [Nat.add_right_comm, Nat.add_assoc, h, List.getElem?_cons_succ]

theorem map_placedAt_slots (axis : Axis) (slots : List (PaneTree α × α)) (outer : Rect α)
    (later : List (PaneTree α × α)) (rects : List (Rect α)) (start : Nat)
    (hlater : ∀ k, slots[start + k]? = later[k]?)
    (hrects : ∀ k, (slotRects axis outer gap (sharesOf slots))[start + k]? = rects[k]?)
    (hlength : rects.length = later.length)
    (htrees : ∀ slot ∈ later, ∀ rect, slot.1.leafPaths.map (slot.1.placedAt gap rect) =
      (slot.1.paneRects gap rect).map fun pane => (some (leaf pane.1), some pane.2)) :
    (slotLeafPaths start later).map ((split axis slots).placedAt gap outer) =
      (slotPaneRects gap later rects).map fun pane => (some (leaf pane.1), some pane.2) := by
  induction later generalizing rects start with
  | nil =>
    rw [List.eq_nil_of_length_eq_zero hlength]
    rfl
  | cons slot rest ih =>
    cases rects with
    | nil => simp at hlength
    | cons rect rects =>
      rw [List.forall_mem_cons] at htrees
      have hfirst :
          (slot.1.leafPaths.map (start :: ·)).map ((split axis slots).placedAt gap outer) =
            slot.1.leafPaths.map (slot.1.placedAt gap rect) := by
        rw [List.map_map]
        exact List.map_congr_left fun path _ => placedAt_cons (hlater 0) (hrects 0) path
      have hrest := ih rects (start + 1) (getElem?_of_suffix hlater) (getElem?_of_suffix hrects)
        (by simpa using hlength) htrees.2
      rw [slotLeafPaths, slotPaneRects, List.map_append, List.map_append, hfirst, hrest,
        htrees.1 rect]

theorem map_placedAt_leafPaths (gap : α) (tree : PaneTree α) (outer : Rect α) :
    tree.leafPaths.map (tree.placedAt gap outer) =
      (tree.paneRects gap outer).map fun pane => (some (leaf pane.1), some pane.2) := by
  induction tree using PaneTree.induction generalizing outer with
  | leaf tab => simp [leafPaths, paneRects, placedAt]
  | split axis slots ih =>
    rw [leafPaths, paneRects]
    exact map_placedAt_slots axis slots outer slots _ 0 (by simp) (by simp)
      (by simp [length_slotRects, sharesOf]) ih

end Panes

section Dividers

variable {gap : α}

theorem length_gapDividers (axis : Axis) (outer : Rect α) (gap : α) (path : List Nat)
    (rects : List (Rect α)) :
    (gapDividers axis outer gap path rects).length = rects.length - 1 := by
  simp [gapDividers]

theorem map_under_gapDividers (axis : Axis) (outer : Rect α) (gap : α) (path rest : List Nat)
    (rects : List (Rect α)) : (gapDividers axis outer gap rest rects).map (Divider.under path) =
      gapDividers axis outer gap (path ++ rest) rects := by
  refine List.ext_getElem (by simp [length_gapDividers]) fun index _ _ => ?_
  simp [gapDividers, Divider.under]

theorem dividerOf?_nil (axis : Axis) (slots : List (PaneTree α × α)) (outer : Rect α)
    (index : Nat) : (split axis slots).dividerOf? gap outer ([], index) =
      (gapDividers axis outer gap [] (slotRects axis outer gap (sharesOf slots)))[index]? := rfl

theorem dividerOf?_cons {axis : Axis} {slots : List (PaneTree α × α)} {outer rect : Rect α}
    {first : Nat} {slot : PaneTree α × α} (hslot : slots[first]? = some slot)
    (hrect : (slotRects axis outer gap (sharesOf slots))[first]? = some rect) (rest : List Nat)
    (index : Nat) : (split axis slots).dividerOf? gap outer (first :: rest, index) =
      (slot.1.dividerOf? gap rect (rest, index)).map (Divider.under [first]) := by
  simp only [dividerOf?, nodeAt_split_cons, areaAt?_cons, hslot, hrect, Option.bind_some,
    Option.map_bind]
  refine Option.bind_congr fun sharing _ => ?_
  rw [Function.comp_apply, Option.map_bind]
  refine Option.bind_congr fun area _ => ?_
  rw [Function.comp_apply, ← List.getElem?_map, map_under_gapDividers]
  rfl

theorem map_getElem?_range {β : Type} (items : List β) :
    (List.range items.length).map (items[·]?) = items.map some := by
  refine List.ext_getElem (by simp) fun index hindex _ => ?_
  have hlt : index < items.length := by simpa using hindex
  simp [List.getElem?_eq_getElem hlt]

theorem map_dividerOf?_slots (axis : Axis) (slots : List (PaneTree α × α)) (outer : Rect α)
    (path : List Nat) (later : List (PaneTree α × α)) (rects : List (Rect α)) (start : Nat)
    (hlater : ∀ k, slots[start + k]? = later[k]?)
    (hrects : ∀ k, (slotRects axis outer gap (sharesOf slots))[start + k]? = rects[k]?)
    (hlength : rects.length = later.length)
    (htrees : ∀ slot ∈ later, ∀ path rect,
      (slot.1.borders.map fun border => (slot.1.dividerOf? gap rect border).map (.under path)) =
        (dividersAt gap path slot.1 rect).map some) :
    ((slotBorders start later).map fun border =>
        ((split axis slots).dividerOf? gap outer border).map (.under path)) =
      (slotDividers gap path start later rects).map some := by
  induction later generalizing rects start with
  | nil =>
    rw [List.eq_nil_of_length_eq_zero hlength]
    rfl
  | cons slot rest ih =>
    cases rects with
    | nil => simp at hlength
    | cons rect rects =>
      rw [List.forall_mem_cons] at htrees
      have hfirst : ((slot.1.borders.map fun border => (start :: border.1, border.2)).map
          fun border => ((split axis slots).dividerOf? gap outer border).map (Divider.under path)) =
          slot.1.borders.map fun border =>
            (slot.1.dividerOf? gap rect border).map (Divider.under (path ++ [start])) := by
        have hslot : slots[start]? = some slot := hlater 0
        have hrect : (slotRects axis outer gap (sharesOf slots))[start]? = some rect := hrects 0
        rw [List.map_map]
        refine List.map_congr_left fun border _ => ?_
        rw [Function.comp_apply, dividerOf?_cons hslot hrect, Option.map_map,
          Divider.under_comp_under]
      have hrest := ih rects (start + 1) (getElem?_of_suffix hlater) (getElem?_of_suffix hrects)
        (by simpa using hlength) htrees.2
      rw [slotBorders, slotDividers, List.map_append, List.map_append, hfirst, hrest,
        htrees.1 (path ++ [start]) rect]

theorem map_dividerOf?_borders_under (gap : α) (path : List Nat) (tree : PaneTree α)
    (outer : Rect α) :
    (tree.borders.map fun border => (tree.dividerOf? gap outer border).map (.under path)) =
      (dividersAt gap path tree outer).map some := by
  induction tree using PaneTree.induction generalizing path outer with
  | leaf tab => rfl
  | split axis slots ih =>
    have hgaps : (((List.range (slots.length - 1)).map (([] : List Nat), ·)).map fun border =>
        ((split axis slots).dividerOf? gap outer border).map (.under path)) =
        (gapDividers axis outer gap path (slotRects axis outer gap (sharesOf slots))).map some := by
      have hcount : (gapDividers axis outer gap path
          (slotRects axis outer gap (sharesOf slots))).length = slots.length - 1 := by
        rw [length_gapDividers, length_slotRects, sharesOf, List.length_map]
      rw [← map_getElem?_range, hcount, List.map_map]
      refine List.map_congr_left fun index _ => ?_
      rw [Function.comp_apply, dividerOf?_nil, ← List.getElem?_map, map_under_gapDividers,
        List.append_nil]
    have hslots := map_dividerOf?_slots axis slots outer path slots
      (slotRects axis outer gap (sharesOf slots)) 0 (by simp) (by simp)
      (by simp [length_slotRects, sharesOf]) ih
    rw [borders, dividersAt, List.map_append, List.map_append, hgaps, hslots]

theorem map_dividerOf?_borders (gap : α) (tree : PaneTree α) (outer : Rect α) :
    tree.borders.map (tree.dividerOf? gap outer) = (tree.dividers outer gap).map some := by
  have hunder := map_dividerOf?_borders_under gap [] tree outer
  simp only [Divider.under_nil, Option.map_id_fun, id_eq] at hunder
  exact hunder

end Dividers

section Outlines

omit [Scalar α]

theorem leafPaths_outline (tree : PaneTree α) : tree.outline.leafPaths = tree.leafPaths := by
  have hslots (slots : List (PaneTree α × α))
      (htrees : ∀ slot ∈ slots, slot.1.outline.leafPaths = slot.1.leafPaths) (start : Nat) :
      slotLeafPaths start (slotOutlines slots) = slotLeafPaths start slots := by
    induction slots generalizing start with
    | nil => rfl
    | cons slot rest ih =>
      rw [List.forall_mem_cons] at htrees
      rw [slotOutlines, slotLeafPaths, slotLeafPaths, htrees.1, ih htrees.2]
  induction tree using PaneTree.induction with
  | leaf tab => rfl
  | split axis slots ih => exact hslots slots ih 0

theorem borders_outline (tree : PaneTree α) : tree.outline.borders = tree.borders := by
  have hslots (slots : List (PaneTree α × α))
      (htrees : ∀ slot ∈ slots, slot.1.outline.borders = slot.1.borders) (start : Nat) :
      slotBorders start (slotOutlines slots) = slotBorders start slots := by
    induction slots generalizing start with
    | nil => rfl
    | cons slot rest ih =>
      rw [List.forall_mem_cons] at htrees
      rw [slotOutlines, slotBorders, slotBorders, htrees.1, ih htrees.2]
  induction tree using PaneTree.induction with
  | leaf tab => rfl
  | split axis slots ih =>
    rw [outline, borders, borders, hslots slots ih 0, slotOutlines_eq_map, List.length_map]

end Outlines

theorem Rewrites.areaAt?_eq {gap : α} {path : List Nat} {old new tree edited : PaneTree α}
    {Hidden : List Nat → Prop} (h : Rewrites old new path tree edited)
    (hkept : ∀ outer rest, ¬Hidden rest → new.areaAt? gap outer rest = old.areaAt? gap outer rest)
    (outer : Rect α) {place : List Nat} (hplace : ∀ rest, place = path ++ rest → ¬Hidden rest) :
    edited.areaAt? gap outer place = tree.areaAt? gap outer place := by
  induction h generalizing outer place with
  | here => exact hkept outer place (hplace place rfl)
  | @within axis slots index path tree edited share hslot _ ih =>
    cases place with
    | nil => rfl
    | cons first rest =>
      rw [areaAt?_cons, areaAt?_cons, sharesOf_set_tree hslot]
      by_cases hfirst : index = first
      · subst hfirst
        rw [List.getElem?_set_self (List.getElem?_eq_some_iff.1 hslot).1, hslot, Option.bind_some,
          Option.bind_some]
        refine Option.bind_congr fun rect _ => ih rect fun later hlater => ?_
        exact hplace later (congrArg (index :: ·) hlater)
      · rw [List.getElem?_set_ne hfirst]

section Addressing

variable {gap : α} {tree : PaneTree α} {outer : Rect α} {d : Divider α}

theorem address_of_dividerOf? {border : List Nat × Nat}
    (h : tree.dividerOf? gap outer border = some d) : d.address = border := by
  simp only [dividerOf?, Option.bind_eq_some_iff] at h
  obtain ⟨sharing, -, area, -, hgap⟩ := h
  obtain ⟨hlt, rfl⟩ := List.getElem?_eq_some_iff.1 hgap
  simp [gapDividers, Divider.address]

theorem dividerOf?_of_mem (h : d ∈ tree.dividers outer gap) :
    tree.dividerOf? gap outer d.address = some d := by
  have hmem : some d ∈ tree.borders.map (tree.dividerOf? gap outer) := by
    rw [map_dividerOf?_borders]
    exact List.mem_map_of_mem h
  obtain ⟨border, -, hborder⟩ := List.mem_map.1 hmem
  rwa [address_of_dividerOf? hborder]

theorem map_address_dividers (gap : α) (tree : PaneTree α) (outer : Rect α) :
    (tree.dividers outer gap).map Divider.address = tree.borders := by
  refine List.ext_getElem? fun k => ?_
  have hplaced := congrArg (·[k]?) (map_dividerOf?_borders gap tree outer)
  simp only [List.getElem?_map] at hplaced
  rw [List.getElem?_map]
  cases hborder : tree.borders[k]? with
  | none =>
    rw [hborder, Option.map_none, eq_comm, Option.map_eq_none_iff] at hplaced
    rw [hplaced, Option.map_none]
  | some border =>
    rw [hborder, Option.map_some, eq_comm, Option.map_eq_some_iff] at hplaced
    obtain ⟨d, hd, hsome⟩ := hplaced
    rw [hd, Option.map_some, address_of_dividerOf? hsome.symm]

theorem mem_dividers_of_dividerOf? {border : List Nat × Nat} (hborder : border ∈ tree.borders)
    (h : tree.dividerOf? gap outer border = some d) : d ∈ tree.dividers outer gap := by
  have hmem : some d ∈ (tree.dividers outer gap).map some := by
    rw [← map_dividerOf?_borders, ← h]
    exact List.mem_map_of_mem hborder
  simpa using hmem

theorem getElem?_paneRects_congr {other : PaneTree α} (houtline : other.outline = tree.outline)
    {k : Nat} {path : List Nat} (hpath : tree.leafPaths[k]? = some path)
    (harea : other.areaAt? gap outer path = tree.areaAt? gap outer path) :
    (other.paneRects gap outer)[k]? = (tree.paneRects gap outer)[k]? := by
  have hsame : other.leafPaths[k]? = some path := by
    rw [← leafPaths_outline, houtline, leafPaths_outline, hpath]
  have htabs : (other.paneRects gap outer).map (·.1) = (tree.paneRects gap outer).map (·.1) := by
    rw [map_fst_paneRects, map_fst_paneRects, ← tabIds_outline, houtline, tabIds_outline]
  have hareas (tree : PaneTree α) (hpath : tree.leafPaths[k]? = some path) :
      (tree.paneRects gap outer)[k]?.map (fun pane => some pane.2) =
        some (tree.areaAt? gap outer path) := by
    have hplaced := congrArg (fun panes => panes[k]?.map (·.2))
      (map_placedAt_leafPaths gap tree outer)
    simp only [List.getElem?_map, hpath, Option.map_some, Option.map_map] at hplaced
    exact hplaced.symm
  have hfirst := congrArg (·[k]?) htabs
  have hsecond := (hareas other hsame).trans ((congrArg some harea).trans (hareas tree hpath).symm)
  simp only [List.getElem?_map] at hfirst
  revert hfirst hsecond
  cases (other.paneRects gap outer)[k]? with
  | none => cases (tree.paneRects gap outer)[k]? <;> simp
  | some pane =>
    cases (tree.paneRects gap outer)[k]? with
    | none => simp
    | some found => simpa using fun hrect htab => Prod.ext htab hrect

end Addressing

end PaneTree

end PaneTiling
