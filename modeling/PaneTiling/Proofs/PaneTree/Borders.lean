import PaneTiling.Navigation
import PaneTiling.Proofs.PaneTree.Rewriting

/-!
Borders. A border is addressed by the path of its split and the number of the slot before it, so
once a tree was edited the same address may lead to another border, or to none. Moving a border
changes at most the two shares beside it, and no share at all exactly if there is no such border or
it is kept from moving.
-/

namespace PaneTiling

def BoundsOrdered (α : Type) [Scalar α] : Prop := ∀ x y z : α, min x y ≤ max x z

namespace PaneTree

variable {α : Type}

def sharing? : PaneTree α → Option (Axis × List α)
  | leaf _ => none
  | split axis slots => some (axis, sharesOf slots)

/-- The share of a slot of the split at a path. -/
def shareAt? (tree : PaneTree α) (path : List Nat) (slot : Nat) : Option α :=
  match tree.nodeAt path with
  | some (split _ slots) => slots[slot]?.map (·.2)
  | _ => none

theorem shareAt?_of_nodeAt {tree : PaneTree α} {path : List Nat} {axis : Axis}
    {slots : List (PaneTree α × α)} (h : tree.nodeAt path = some (split axis slots)) (slot : Nat) :
    tree.shareAt? path slot = slots[slot]?.map (·.2) := by
  rw [shareAt?, h]

theorem shareAt?_eq_bind (tree : PaneTree α) (path : List Nat) (slot : Nat) :
    tree.shareAt? path slot = ((tree.nodeAt path).bind sharing?).bind (·.2[slot]?) := by
  unfold shareAt?
  cases tree.nodeAt path with
  | none => rfl
  | some node =>
    cases node with
    | leaf tab => rfl
    | split axis slots => simp [sharing?, sharesOf]

theorem shareAt?_cons (axis : Axis) (slots : List (PaneTree α × α)) (first : Nat)
    (rest : List Nat) (slot : Nat) :
    (split axis slots).shareAt? (first :: rest) slot =
      slots[first]?.bind (·.1.shareAt? rest slot) := by
  rw [shareAt?, nodeAt_split_cons]
  cases slots[first]? <;> rfl

theorem exists_nodeAt_of_shareAt? {tree : PaneTree α} {path : List Nat} {slot : Nat} {share : α}
    (h : tree.shareAt? path slot = some share) :
    ∃ axis slots node, tree.nodeAt path = some (split axis slots) ∧
      slots[slot]? = some (node, share) := by
  unfold shareAt? at h
  split at h
  · rename_i axis slots hnode
    obtain ⟨⟨node, share⟩, hslot, rfl⟩ := Option.map_eq_some_iff.1 h
    exact ⟨axis, slots, node, hnode, hslot⟩
  · cases h

def slotTabsAt (tree : PaneTree α) (path : List Nat) (slot : Nat) : List TabId :=
  (tree.nodeAt (path ++ [slot])).elim [] tabIds

theorem slotTabsAt_of_nodeAt {tree : PaneTree α} {path : List Nat} {axis : Axis}
    {slots : List (PaneTree α × α)} (h : tree.nodeAt path = some (split axis slots)) {slot : Nat}
    {node : PaneTree α} {share : α} (hslot : slots[slot]? = some (node, share)) :
    tree.slotTabsAt path slot = node.tabIds := by
  simp [slotTabsAt, nodeAt_append, h, hslot]

/-- The border after a slot is not the one it was in another tree if there is none any more, or if
on one side of it no tab has stayed. -/
def Strayed (was tree : PaneTree α) (path : List Nat) (index : Nat) : Prop :=
  (∀ tab ∈ was.slotTabsAt path index, tab ∉ tree.slotTabsAt path index) ∨
    (∀ tab ∈ was.slotTabsAt path (index + 1), tab ∉ tree.slotTabsAt path (index + 1)) ∨
    (tree.shareAt? path (index + 1)).isNone

instance (was tree : PaneTree α) (path : List Nat) (index : Nat) :
    Decidable (was.Strayed tree path index) :=
  inferInstanceAs (Decidable (_ ∨ _ ∨ _))

theorem nodeAt_outline (tree : PaneTree α) (path : List Nat) :
    tree.outline.nodeAt path = (tree.nodeAt path).map outline := by
  induction path generalizing tree with
  | nil => rfl
  | cons index rest ih =>
    cases tree with
    | leaf tab => rfl
    | split axis slots =>
      rw [outline, slotOutlines_eq_map, nodeAt_split_cons, nodeAt_split_cons, List.getElem?_map,
        Option.bind_map, Option.map_bind]
      exact Option.bind_congr fun slot _ => ih slot.1

theorem slotTabsAt_outline (tree : PaneTree α) (path : List Nat) (slot : Nat) :
    tree.outline.slotTabsAt path slot = tree.slotTabsAt path slot := by
  rw [slotTabsAt, slotTabsAt, nodeAt_outline]
  cases tree.nodeAt (path ++ [slot]) with
  | none => rfl
  | some node => exact tabIds_outline node

theorem isNone_shareAt?_outline (tree : PaneTree α) (path : List Nat) (slot : Nat) :
    (tree.outline.shareAt? path slot).isNone = (tree.shareAt? path slot).isNone := by
  rw [shareAt?, shareAt?, nodeAt_outline]
  cases hnode : tree.nodeAt path with
  | none => rfl
  | some node =>
    cases node with
    | leaf tab => rfl
    | split axis slots => simp [outline, slotOutlines_eq_map]

theorem not_strayed_of_outline_eq {was tree : PaneTree α} (hwas : was.Branching 1)
    (h : tree.outline = was.outline) {path : List Nat} {index : Nat}
    (hborder : (was.shareAt? path (index + 1)).isSome) : ¬was.Strayed tree path index := by
  have htabs (slot : Nat) : tree.slotTabsAt path slot = was.slotTabsAt path slot := by
    rw [← slotTabsAt_outline, h, slotTabsAt_outline]
  have hshare :
      (tree.shareAt? path (index + 1)).isNone = (was.shareAt? path (index + 1)).isNone := by
    rw [← isNone_shareAt?_outline, h, isNone_shareAt?_outline]
  obtain ⟨share, hsecond⟩ := Option.isSome_iff_exists.1 hborder
  obtain ⟨axis, slots, after, hnode, hafter⟩ := exists_nodeAt_of_shareAt? hsecond
  obtain ⟨⟨before, first⟩, hbefore⟩ : ∃ slot, slots[index]? = some slot :=
    ⟨_, List.getElem?_eq_getElem (Nat.lt_of_succ_lt (List.getElem?_eq_some_iff.1 hafter).1)⟩
  have hslots : ∀ slot ∈ slots, slot.1.Branching 1 := (branching_split.1 (hwas.nodeAt hnode)).2
  have hshown (slot : Nat) (node : PaneTree α) (share : α)
      (hslot : slots[slot]? = some (node, share)) :
      ∃ tab ∈ was.slotTabsAt path slot, tab ∈ tree.slotTabsAt path slot := by
    obtain ⟨tab, htab⟩ := Option.isSome_iff_exists.1
      (firstTab?_isSome (hslots _ (List.mem_of_getElem? hslot)))
    have hmem : tab ∈ was.slotTabsAt path slot := by
      rw [slotTabsAt_of_nodeAt hnode hslot]
      exact mem_of_firstTab? htab
    exact ⟨tab, hmem, htabs slot ▸ hmem⟩
  rintro (hgone | hgone | hnone)
  · obtain ⟨tab, hwas, htree⟩ := hshown index before first hbefore
    exact hgone tab hwas htree
  · obtain ⟨tab, hwas, htree⟩ := hshown (index + 1) after share hafter
    exact hgone tab hwas htree
  · rw [hshare, hsecond] at hnone
    cases hnone

section Moving

theorem Rewrites.sharing?_eq {axis other : Axis} {slots more : List (PaneTree α × α)}
    {path : List Nat} {tree edited : PaneTree α}
    (h : Rewrites (split axis slots) (split other more) path tree edited)
    (htrees : more.map (·.1) = slots.map (·.1)) {place : List Nat} (hplace : place ≠ path) :
    (edited.nodeAt place).bind sharing? = (tree.nodeAt place).bind sharing? := by
  induction h generalizing place with
  | here =>
    cases place with
    | nil => exact absurd rfl hplace
    | cons first rest =>
      have hfirst : more[first]?.map (·.1) = slots[first]?.map (·.1) := by
        rw [← List.getElem?_map, ← List.getElem?_map, htrees]
      have hbind := congrArg (Option.bind · (nodeAt · rest)) hfirst
      simp only [Option.bind_map] at hbind
      rw [nodeAt_split_cons, nodeAt_split_cons]
      exact congrArg (Option.bind · sharing?) hbind
  | @within outer outerSlots index path tree edited share hslot _ ih =>
    cases place with
    | nil => simp only [nodeAt_nil, Option.bind_some, sharing?, sharesOf_set_tree hslot]
    | cons first rest =>
      rw [nodeAt_split_cons, nodeAt_split_cons]
      by_cases hfirst : index = first
      · subst hfirst
        rw [List.getElem?_set_self (List.getElem?_eq_some_iff.1 hslot).1, hslot]
        exact ih fun heq => hplace (congrArg (index :: ·) heq)
      · rw [List.getElem?_set_ne hfirst]

/-- A tree that differs at most in the shares beside a border. -/
structure SameButBorder (moved tree : PaneTree α) (path : List Nat) (index : Nat) : Prop where
  outline : moved.outline = tree.outline
  shares : ∀ place slot, place ≠ path ∨ slot ≠ index ∧ slot ≠ index + 1 →
    moved.shareAt? place slot = tree.shareAt? place slot

theorem SameButBorder.refl (tree : PaneTree α) (path : List Nat) (index : Nat) :
    tree.SameButBorder tree path index := ⟨rfl, fun _ _ _ => rfl⟩

/-- A slot of a split is asked for whose number is no word, and there is none. -/
def Overruns (tree : PaneTree α) (path : List Nat) (index : Nat) : Prop :=
  lastIndex ≤ index ∧ (∃ axis slots, tree.nodeAt path = some (split axis slots)) ∧
    (tree.shareAt? path (index + 1)).isNone

theorem not_overruns {tree : PaneTree α} {path : List Nat} {index : Nat} (h : index < lastIndex) :
    ¬tree.Overruns path index := fun hover => absurd hover.1 (Nat.not_le.2 h)

theorem not_overruns_of_isSome {tree : PaneTree α} {path : List Nat} {index : Nat}
    (h : (tree.shareAt? path (index + 1)).isSome) : ¬tree.Overruns path index := fun hover =>
  Option.not_isSome_iff_eq_none.2 (Option.isNone_iff_eq_none.1 hover.2.2) h

theorem exists_border {tree : PaneTree α} {path : List Nat} {index : Nat}
    (h : (tree.shareAt? path (index + 1)).isSome) :
    ∃ axis slots before first after second, tree.nodeAt path = some (split axis slots) ∧
      slots[index]? = some (before, first) ∧ slots[index + 1]? = some (after, second) := by
  obtain ⟨share, hshare⟩ := Option.isSome_iff_exists.1 h
  obtain ⟨axis, slots, after, hnode, hafter⟩ := exists_nodeAt_of_shareAt? hshare
  have hlt := (List.getElem?_eq_some_iff.1 hafter).1
  exact ⟨axis, slots, _, _, after, share, hnode,
    List.getElem?_eq_getElem (Nat.lt_of_succ_lt hlt), hafter⟩

variable [Scalar α]

def SlotsMove (slots : List (PaneTree α × α)) (index : Nat) (delta : α) : Prop :=
  ∃ before ∈ slots[index]?, ∃ after ∈ slots[index + 1]?,
    ∃ shares ∈ (moveBorder before.2 after.2 delta).toOption, shares ≠ (before.2, after.2)

structure SlotsMoved (slots more : List (PaneTree α × α)) (index : Nat) (delta : α) : Prop where
  trees : more.map (·.1) = slots.map (·.1)
  others : ∀ slot, slot ≠ index → slot ≠ index + 1 → more[slot]? = slots[slot]?
  eq_self_iff : more = slots ↔ ¬SlotsMove slots index delta

theorem slotsMoved_of_resizeSlots {slots more : List (PaneTree α × α)} {index : Nat} {delta : α}
    (h : resizeSlots slots index delta = .ok more) : SlotsMoved slots more index delta := by
  rcases resizeSlots_cases h with
    ⟨before, first, after, second, shares, hbefore, hafter, hshares, rfl⟩ | ⟨hnone, rfl⟩
  · refine ⟨?_, fun slot hfirst hsecond => ?_, ?_⟩
    · have htree : (slots.map (·.1))[index]? = some before := by simp [hbefore]
      have hnextTree : (slots.map (·.1))[index + 1]? = some after := by simp [hafter]
      rw [List.map_set, List.map_set, set_of_getElem? htree, set_of_getElem? hnextTree]
    · rw [List.getElem?_set_ne hsecond.symm, List.getElem?_set_ne hfirst.symm]
    · have hmove : SlotsMove slots index delta ↔ shares ≠ (first, second) := by
        simp only [SlotsMove, hbefore, hafter, hshares, Except.toOption, Option.mem_def,
          Option.some.injEq, exists_eq_left']
      rw [hmove, not_ne_iff]
      constructor
      · intro hsame
        have hlt := (List.getElem?_eq_some_iff.1 hafter).1
        have hfirst : some (before, shares.1) = some (before, first) := by
          rw [← hbefore, ← hsame, List.getElem?_set_ne (Nat.ne_of_gt (Nat.lt_succ_self index)),
            List.getElem?_set_self (Nat.lt_of_succ_lt hlt)]
        have hsecond : some (after, shares.2) = some (after, second) := by
          rw [← hafter, ← hsame, List.getElem?_set_self (by simpa using hlt)]
        simp only [Option.some.injEq, Prod.mk.injEq, true_and] at hfirst hsecond
        exact Prod.ext hfirst hsecond
      · rintro rfl
        rw [set_of_getElem? hbefore, set_of_getElem? hafter]
  · refine ⟨rfl, fun _ _ _ => rfl, iff_of_true rfl ?_⟩
    rintro ⟨before, -, after, hafter, -⟩
    cases hnone.symm.trans hafter

/-- The border at an address can be moved by a distance, and its shares change. -/
def BorderMoves (tree : PaneTree α) (path : List Nat) (index : Nat) (delta : α) : Prop :=
  Scalar.isFinite delta = true ∧ ∃ axis slots, tree.nodeAt path = some (split axis slots) ∧
    SlotsMove slots index delta

theorem not_borderMoves {tree : PaneTree α} {path : List Nat} {index : Nat}
    (h : (tree.shareAt? path (index + 1)).isNone) (delta : α) :
    ¬tree.BorderMoves path index delta := by
  rintro ⟨-, axis, slots, hnode, -, -, after, hafter, -⟩
  rw [shareAt?_of_nodeAt hnode, Option.mem_def.1 hafter] at h
  cases h

theorem resize_of_nodeAt_ne {tree : PaneTree α} {path : List Nat}
    (h : ∀ axis slots, tree.nodeAt path ≠ some (split axis slots)) (index : Nat) (delta : α) :
    tree.resize path index delta = .ok tree := by
  unfold resize
  split
  · rename_i axis slots hnode
    exact absurd hnode (h axis slots)
  · rfl

theorem resize_of_not_finite {delta : α} (h : Scalar.isFinite delta = false) (tree : PaneTree α)
    (path : List Nat) (index : Nat) : tree.resize path index delta = .ok tree := by
  unfold resize
  simp only [h, Bool.false_eq_true, if_false]
  split <;> rfl

theorem resize_of_isNone {tree : PaneTree α} {path : List Nat} {index : Nat}
    (h : (tree.shareAt? path (index + 1)).isNone) (hwithin : ¬tree.Overruns path index)
    (delta : α) : tree.resize path index delta = .ok tree := by
  by_cases hsplit : ∃ axis slots, tree.nodeAt path = some (split axis slots)
  · obtain ⟨axis, slots, hnode⟩ := hsplit
    have hindex : index < lastIndex := by
      by_contra hlast
      exact hwithin ⟨Nat.not_lt.1 hlast, ⟨axis, slots, hnode⟩, h⟩
    rw [shareAt?_of_nodeAt hnode, Option.isNone_iff_eq_none, Option.map_eq_none_iff] at h
    cases hfinite : Scalar.isFinite delta with
    | false => exact resize_of_not_finite hfinite tree path index
    | true =>
      have hsame : resizeSlots slots index delta = .ok slots := by
        rw [resizeSlots_of_isNone h, if_pos hindex]
      obtain ⟨moved, hmoved, hrewrites⟩ := exists_resize_rewrites hnode hfinite hsame
      rw [hmoved, hrewrites.eq_self]
  · refine resize_of_nodeAt_ne (fun axis slots hnode => ?_) index delta
    exact hsplit ⟨axis, slots, hnode⟩

theorem exists_moveBorder (h : BoundsOrdered α) (first second delta : α) :
    ∃ shares, moveBorder first second delta = .ok shares := by
  unfold moveBorder
  simp only
  split
  · exact ⟨_, rfl⟩
  · rw [if_pos (h _ _ _)]
    exact ⟨_, rfl⟩

theorem exists_resize (h : BoundsOrdered α) {tree : PaneTree α} {path : List Nat} {index : Nat}
    (hwithin : ¬tree.Overruns path index) (delta : α) :
    ∃ moved, tree.resize path index delta = .ok moved := by
  cases hfinite : Scalar.isFinite delta with
  | false => exact ⟨tree, resize_of_not_finite hfinite tree path index⟩
  | true =>
    cases hshare : (tree.shareAt? path (index + 1)).isSome with
    | false => exact ⟨tree, resize_of_isNone (by simpa using hshare) hwithin delta⟩
    | true =>
      obtain ⟨axis, slots, before, first, after, second, hnode, hbefore, hafter⟩ :=
        exists_border hshare
      obtain ⟨shares, hshares⟩ := exists_moveBorder h first second delta
      have hmore := resizeSlots_of_border hbefore hafter hshares
      exact (exists_resize_rewrites hnode hfinite hmore).imp fun _ h => h.1

theorem moveBorder_ne_indexOverflow {first second delta : α} :
    moveBorder first second delta ≠ .error .indexOverflow := by
  unfold moveBorder
  simp only
  split
  · nofun
  · split <;> nofun

theorem resize_eq_indexOverflow_iff {tree : PaneTree α} {path : List Nat} {index : Nat}
    {delta : α} : tree.resize path index delta = .error .indexOverflow ↔
      Scalar.isFinite delta = true ∧ tree.Overruns path index := by
  constructor
  · intro h
    have hfinite : Scalar.isFinite delta = true := by
      by_contra hinfinite
      cases h.symm.trans (resize_of_not_finite (by simpa using hinfinite) tree path index)
    refine ⟨hfinite, ?_⟩
    by_contra hwithin
    cases hshare : (tree.shareAt? path (index + 1)).isSome with
    | false => cases h.symm.trans (resize_of_isNone (by simpa using hshare) hwithin delta)
    | true =>
      obtain ⟨axis, slots, before, first, after, second, hnode, hbefore, hafter⟩ :=
        exists_border hshare
      cases hmove : moveBorder first second delta with
      | error error =>
        simp only [resize, hnode, hfinite, resizeSlots, hbefore, hafter, hmove] at h
        cases h
        exact moveBorder_ne_indexOverflow hmove
      | ok shares =>
        obtain ⟨moved, hmoved, -⟩ := exists_resize_rewrites hnode hfinite
          (resizeSlots_of_border hbefore hafter hmove)
        cases h.symm.trans hmoved
  · rintro ⟨hfinite, hlast, ⟨axis, slots, hnode⟩, hnone⟩
    rw [shareAt?_of_nodeAt hnode, Option.isNone_iff_eq_none, Option.map_eq_none_iff] at hnone
    have hslots : resizeSlots slots index delta = .error .indexOverflow := by
      rw [resizeSlots_of_isNone hnone, if_neg (Nat.not_lt.2 hlast)]
    simp only [resize, hnode, hfinite, hslots]
    rfl

theorem resize_spec {tree moved : PaneTree α} {path : List Nat} {index : Nat} {delta : α}
    (h : tree.resize path index delta = .ok moved) :
    moved.SameButBorder tree path index ∧ (moved = tree ↔ ¬tree.BorderMoves path index delta) := by
  rcases resize_cases h with ⟨axis, slots, more, hfinite, hmore, hrewrites⟩ | ⟨rfl, hnone⟩
  · have hslots := slotsMoved_of_resizeSlots hmore
    have hnode := hrewrites.nodeAt_old
    refine ⟨⟨outline_resize h, fun place slot hother => ?_⟩, ?_⟩
    · by_cases hplace : place = path
      · subst hplace
        obtain ⟨hfirst, hsecond⟩ := hother.resolve_left fun hne => hne rfl
        rw [shareAt?_of_nodeAt hrewrites.nodeAt_new, shareAt?_of_nodeAt hnode,
          hslots.others slot hfirst hsecond]
      · rw [shareAt?_eq_bind, shareAt?_eq_bind, hrewrites.sharing?_eq hslots.trees hplace]
    · have hmoves : tree.BorderMoves path index delta ↔ SlotsMove slots index delta := by
        simp [BorderMoves, hnode, hfinite]
      rw [hmoves, ← hslots.eq_self_iff]
      constructor
      · rintro rfl
        cases hrewrites.nodeAt_new.symm.trans hnode
        rfl
      · rintro rfl
        exact hrewrites.eq_self
  · refine ⟨.refl moved path index, iff_of_true rfl ?_⟩
    rintro ⟨hfinite, axis, slots, hnode, -⟩
    rw [hnone axis slots hnode] at hfinite
    cases hfinite

end Moving

section Dividers

variable [Scalar α] {gap : α} {divider : Divider α}

theorem path_of_mem_gapDividers {axis : Axis} {outer : Rect α} {path : List Nat}
    {rects : List (Rect α)} (h : divider ∈ gapDividers axis outer gap path rects) :
    divider.path = path ∧ divider.index + 1 < rects.length := by
  obtain ⟨index, hlt, rfl⟩ := List.mem_mapIdx.1 h
  rw [List.length_dropLast] at hlt
  exact ⟨rfl, Nat.add_lt_of_lt_sub hlt⟩

theorem exists_slot_of_mem_slotDividers {path : List Nat} {index : Nat}
    {slots : List (PaneTree α × α)} {rects : List (Rect α)}
    (h : divider ∈ slotDividers gap path index slots rects) :
    ∃ place slot rect, slots[place]? = some slot ∧
      divider ∈ dividersAt gap (path ++ [index + place]) slot.1 rect := by
  induction slots generalizing index rects with
  | nil => cases rects <;> cases h
  | cons slot rest ih =>
    cases rects with
    | nil => cases h
    | cons rect rects =>
      rw [slotDividers, List.mem_append] at h
      rcases h with hfirst | hrest
      · exact ⟨0, slot, rect, rfl, hfirst⟩
      · obtain ⟨place, found, outer, hfound, hmem⟩ := ih hrest
        refine ⟨place + 1, found, outer, hfound, ?_⟩
        rwa [Nat.add_assoc, Nat.add_comm 1] at hmem

theorem shareAt?_of_mem_dividersAt {path : List Nat} {tree : PaneTree α} {outer : Rect α}
    (h : divider ∈ dividersAt gap path tree outer) :
    ∃ rest, divider.path = path ++ rest ∧ (tree.shareAt? rest (divider.index + 1)).isSome := by
  induction tree using PaneTree.induction generalizing path outer with
  | leaf tab => cases h
  | split axis slots ih =>
    rw [dividersAt, List.mem_append] at h
    rcases h with hgap | hslot
    · obtain ⟨hpath, hlt⟩ := path_of_mem_gapDividers hgap
      rw [length_slotRects, sharesOf, List.length_map] at hlt
      refine ⟨[], by rw [hpath, List.append_nil], ?_⟩
      simpa [shareAt?_of_nodeAt (nodeAt_nil _)] using hlt
    · obtain ⟨place, slot, rect, hslot, hmem⟩ := exists_slot_of_mem_slotDividers hslot
      obtain ⟨rest, hpath, hshare⟩ := ih slot (List.mem_of_getElem? hslot) hmem
      refine ⟨place :: rest, by rw [hpath, Nat.zero_add, List.append_assoc]; rfl, ?_⟩
      rwa [shareAt?_cons, hslot]

theorem shareAt?_of_mem_dividers {tree : PaneTree α} {outer : Rect α}
    (h : divider ∈ tree.dividers outer gap) :
    (tree.shareAt? divider.path (divider.index + 1)).isSome := by
  obtain ⟨rest, hpath, hshare⟩ := shareAt?_of_mem_dividersAt h
  rwa [hpath, List.nil_append]

theorem Shaped.index_lt {tree : PaneTree α} (h : tree.Shaped) {outer : Rect α}
    (hdivider : divider ∈ tree.dividers outer gap) : divider.index < lastIndex := by
  obtain ⟨axis, slots, before, first, after, second, hnode, -, hafter⟩ :=
    exists_border (shareAt?_of_mem_dividers hdivider)
  have hbranching := branching_split.1 ((h.branching.mono (by decide : 1 ≤ 2)).nodeAt hnode)
  have hlt := (List.getElem?_eq_some_iff.1 hafter).1
  have hfew : maxPanes < lastIndex := by decide
  calc
    divider.index ≤ slots.length := by omega
    _ ≤ (split axis slots).tabIds.length := length_le_slotTabIds hbranching.2
    _ ≤ tree.tabIds.length := (sublist_of_nodeAt hnode).length_le
    _ < lastIndex := Nat.lt_of_le_of_lt h.le_max hfew

end Dividers

end PaneTree

end PaneTiling
