import PaneTiling.Proofs.LiveEdges
import PaneTiling.Proofs.PaneTree.Tiling

/-!
Dropping a tab, read over exact numbers. A drop zone previews a half of a pane on the screen, while
the drop edits shares: it halves the share of the pane, or has a pair take its place. Without gaps
the slots of a split lie edge to edge, each as long as its share says, so both come to the same: the
new pane takes the previewed half, the old one keeps the other, and no other pane moves.
-/

namespace PaneTiling

namespace Rect

theorem IsSolid.strip_extent {r : Rect Rat} (h : r.IsSolid) (axis : Axis) :
    r.strip axis (r.extent axis).1 (r.extent axis).2 = r := by
  cases axis <;> simp [strip, extent, clamped, h.1.le, h.2.le]

theorem arrange_half (r : Rect Rat) (side : Side) :
    side.arrange (r.half side) (r.half side.opposite) =
      [r.strip side.axis (r.extent side.axis).1 ((r.extent side.axis).2 / 2.0),
        r.strip side.axis ((r.extent side.axis).1 + (r.extent side.axis).2 / 2.0)
          ((r.extent side.axis).2 / 2.0)] := by
  cases side <;> rfl

theorem extent_strip (r : Rect Rat) (axis : Axis) (start size : Rat) :
    (r.strip axis start size).extent axis = (start, max size 0) := by
  cases axis <;> rfl

theorem strip_strip (r : Rect Rat) (axis : Axis) (start size offset length : Rat) :
    (r.strip axis start size).strip axis offset length = r.strip axis offset length := by
  cases axis <;> simp [strip, clamped]

end Rect

section EdgeToEdge

/-- Strips that are laid edge to edge, each as long as its share of the span. -/
def edgeToEdge (span offset : Rat) : List Rat → List (Rat × Rat)
  | [] => []
  | share :: rest => (offset, span * share) :: edgeToEdge span (offset + span * share) rest

theorem length_edgeToEdge (span offset : Rat) (shares : List Rat) :
    (edgeToEdge span offset shares).length = shares.length := by
  induction shares generalizing offset with
  | nil => rfl
  | cons share rest ih => rw [edgeToEdge, List.length_cons, List.length_cons, ih]

theorem layStrips_eq_edgeToEdge {span finish offset : Rat} {shares : List Rat} (hspan : 0 ≤ span)
    (hpos : ∀ share ∈ shares, 0 < share) (hfill : max (finish - offset) 0 = span * shares.sum) :
    layStrips span 0 finish offset shares = edgeToEdge span offset shares := by
  induction shares generalizing offset with
  | nil => rfl
  | cons share rest ih =>
    cases rest with
    | nil =>
      rw [layStrips, hfill, List.sum_singleton]
      rfl
    | cons next others =>
      rw [List.forall_mem_cons] at hpos
      have hsize : 0 ≤ span * share := mul_nonneg hspan hpos.1.le
      have hothers : 0 ≤ span * (next :: others).sum :=
        mul_nonneg hspan (List.sum_nonneg fun part hpart => (hpos.2 part hpart).le)
      have hrest : max (finish - (offset + span * share)) 0 = span * (next :: others).sum := by
        rw [List.sum_cons, mul_add] at hfill
        rcases le_total (finish - offset) 0 with hempty | hroom
        · rw [max_eq_right hempty] at hfill
          rw [max_eq_right (by linarith)]
          linarith
        · rw [max_eq_left hroom] at hfill
          rw [max_eq_left (by linarith)]
          linarith
      rw [layStrips_cons (List.cons_ne_nil next others), edgeToEdge, add_zero, ih hpos.2 hrest]

theorem slotRects_eq_edgeToEdge {shares : List Rat} (hwhole : PaneTree.Whole shares) (axis : Axis)
    (outer : Rect Rat) : slotRects axis outer 0 shares =
      (edgeToEdge (max (outer.extent axis).2 0) (outer.extent axis).1 shares).map
        fun strip => outer.strip axis strip.1 strip.2 := by
  have hspan : sharedSpan axis outer 0 shares.length = max (outer.extent axis).2 0 := by
    rw [sharedSpan, zero_mul, sub_zero]
  have hfinish : outer.finish axis - (outer.extent axis).1 = (outer.extent axis).2 := by
    cases axis <;> exact add_sub_cancel_left _ _
  rw [slotRects_eq, hspan, layStrips_eq_edgeToEdge (le_max_right _ _) hwhole.pos
    (by rw [hfinish, hwhole.sum_eq, mul_one])]

end EdgeToEdge

namespace PaneTree

def panesFrom (axis : Axis) (outer : Rect Rat) (span offset : Rat)
    (slots : List (PaneTree Rat × Rat)) : List (TabId × Rect Rat) :=
  slotPaneRects 0 slots
    ((edgeToEdge span offset (sharesOf slots)).map fun strip => outer.strip axis strip.1 strip.2)

section Panes

variable {axis : Axis} {outer : Rect Rat} {span offset : Rat}

theorem panesFrom_cons (axis : Axis) (outer : Rect Rat) (span offset share : Rat)
    (tree : PaneTree Rat) (rest : List (PaneTree Rat × Rat)) :
    panesFrom axis outer span offset ((tree, share) :: rest) =
      tree.paneRects 0 (outer.strip axis offset (span * share)) ++
        panesFrom axis outer span (offset + span * share) rest := rfl

theorem paneRects_split {slots : List (PaneTree Rat × Rat)} (hwhole : Whole (sharesOf slots))
    (axis : Axis) (outer : Rect Rat) : (split axis slots).paneRects 0 outer =
      panesFrom axis outer (max (outer.extent axis).2 0) (outer.extent axis).1 slots := by
  rw [paneRects, slotRects_eq_edgeToEdge hwhole, panesFrom]

theorem map_fst_panesFrom (slots : List (PaneTree Rat × Rat)) :
    (panesFrom axis outer span offset slots).map (·.1) = slotTabIds slots :=
  map_fst_slotPaneRects 0 slots _ (by simp [length_edgeToEdge, sharesOf])
    fun slot _ rect => slot.1.map_fst_paneRects 0 rect

end Panes

section Opening

variable {anchor new : TabId} {side : Side}

/-- What becomes of a pane when `new` is put on a side of `anchor`: the anchor's is halved, and any
other stays. -/
def opened (anchor new : TabId) (side : Side) (pane : TabId × Rect Rat) : List (TabId × Rect Rat) :=
  if pane.1 = anchor then
    side.arrange (new, pane.2.half side) (anchor, pane.2.half side.opposite)
  else [pane]

theorem opened_self (anchor new : TabId) (side : Side) (rect : Rect Rat) :
    opened anchor new side (anchor, rect) =
      side.arrange (new, rect.half side) (anchor, rect.half side.opposite) := if_pos rfl

theorem flatMap_opened_of_not_mem {panes : List (TabId × Rect Rat)}
    (h : anchor ∉ panes.map (·.1)) : panes.flatMap (opened anchor new side) = panes := by
  have hkept : ∀ pane ∈ panes, opened anchor new side pane = [pane] := by
    intro pane hpane
    refine if_neg fun heq => h ?_
    exact heq ▸ List.mem_map_of_mem hpane
  rw [List.flatMap_congr hkept, List.flatMap_singleton']

theorem flatMap_opened_perm {panes : List (TabId × Rect Rat)} (hnodup : (panes.map (·.1)).Nodup)
    {rect : Rect Rat} (h : (anchor, rect) ∈ panes) :
    (panes.flatMap (opened anchor new side)).Perm
      ((new, rect.half side) :: (anchor, rect.half side.opposite) ::
        panes.filter (·.1 ≠ anchor)) := by
  obtain ⟨before, after, rfl⟩ := List.append_of_mem h
  rw [List.map_append, List.map_cons, List.nodup_middle, List.nodup_cons, List.mem_append,
    not_or] at hnodup
  obtain ⟨⟨hbefore, hafter⟩, -⟩ := hnodup
  have hothers {panes : List (TabId × Rect Rat)} (h : anchor ∉ panes.map (·.1)) :
      panes.filter (·.1 ≠ anchor) = panes :=
    List.filter_eq_self.2 fun pane hpane =>
      decide_eq_true fun heq => h (heq ▸ List.mem_map_of_mem hpane)
  have hself : ((anchor, rect) :: after).filter (·.1 ≠ anchor) = after := by
    rw [List.filter_cons_of_neg (by simp), hothers hafter]
  rw [List.flatMap_append, List.flatMap_cons, flatMap_opened_of_not_mem hbefore,
    flatMap_opened_of_not_mem hafter, opened_self, List.filter_append, hothers hbefore, hself]
  exact List.perm_append_comm_assoc before _ after |>.trans
    ((side.arrange_perm _ _).append_right _)

theorem panesFrom_halves {outer : Rect Rat} {span offset share : Rat} (hsize : 0 ≤ span * share)
    (rest : List (PaneTree Rat × Rat)) :
    panesFrom side.axis outer span offset
        (side.arrange (leaf new, share / 2.0) (leaf anchor, share / 2.0) ++ rest) =
      side.arrange (new, (outer.strip side.axis offset (span * share)).half side)
          (anchor, (outer.strip side.axis offset (span * share)).half side.opposite) ++
        panesFrom side.axis outer span (offset + span * share) rest := by
  have hhalf : span * (share / 2.0) = span * share / 2.0 := (mul_div_assoc span share 2.0).symm
  have hend : offset + span * share / 2.0 + span * share / 2.0 = offset + span * share := by
    rw [add_assoc, half_add_half]
  have hstrips := (outer.strip side.axis offset (span * share)).arrange_half side
  simp only [Rect.extent_strip, Rect.strip_strip, max_eq_left hsize] at hstrips
  unfold Side.arrange at hstrips ⊢
  split at hstrips
  all_goals
    rename_i hside
    obtain ⟨hfirst, hrest⟩ := List.cons.inj hstrips
    obtain ⟨hsecond, -⟩ := List.cons.inj hrest
    simp only [hside, List.cons_append, List.nil_append, panesFrom_cons, paneRects, hhalf, hend,
      hfirst, hsecond, ↓reduceIte, Bool.false_eq_true]

theorem paneRects_pair {outer : Rect Rat} (hsolid : outer.IsSolid) (anchor new : TabId)
    (side : Side) : (pair anchor new side).paneRects 0 outer =
      side.arrange (new, outer.half side) (anchor, outer.half side.opposite) := by
  have hpair : (pair anchor new side : PaneTree Rat) =
      split side.axis (side.arrange (leaf new, 1 / 2.0) (leaf anchor, 1 / 2.0) ++ []) := by
    have hhalf : (0.5 : Rat) = 1 / 2.0 := by norm_num
    rw [pair, hhalf, List.append_nil]
    cases side <;> rfl
  have hlength := (hsolid.extent_pos side.axis).le
  have hwhole := apportioned_pair anchor new side
  rw [hpair, apportioned_split] at hwhole
  rw [hpair, paneRects_split hwhole.1, max_eq_left hlength, panesFrom_halves (by rwa [mul_one]),
    mul_one, hsolid.strip_extent]
  exact List.append_nil _

theorem flatMap_opened_paneRects {tree : PaneTree Rat} (h : anchor ∉ tree.tabIds)
    (outer : Rect Rat) :
    (tree.paneRects 0 outer).flatMap (opened anchor new side) = tree.paneRects 0 outer :=
  flatMap_opened_of_not_mem (by rwa [map_fst_paneRects])

theorem flatMap_opened_panesFrom {slots : List (PaneTree Rat × Rat)}
    (h : anchor ∉ slotTabIds slots) (axis : Axis) (outer : Rect Rat) (span offset : Rat) :
    (panesFrom axis outer span offset slots).flatMap (opened anchor new side) =
      panesFrom axis outer span offset slots :=
  flatMap_opened_of_not_mem (by rwa [map_fst_panesFrom])

mutual

theorem paneRects_attach :
    {tree grown : PaneTree Rat} → attach anchor new side tree = some grown → tree.Apportioned →
      tree.tabIds.Nodup → (outer : Rect Rat) →
      (∀ rect, (anchor, rect) ∈ tree.paneRects 0 outer → rect.IsSolid) →
        grown.paneRects 0 outer = (tree.paneRects 0 outer).flatMap (opened anchor new side)
  | leaf tab, grown, h, _, _, outer, hsolid => by
    simp only [attach] at h
    split at h <;> cases h
    rename_i htab
    subst htab
    rw [paneRects_pair (hsolid outer List.mem_cons_self), paneRects, List.flatMap_singleton,
      opened_self]
  | split axis slots, grown, h, htree, hnodup, outer, hsolid => by
    have hgrown := apportioned_attach h htree
    simp only [attach, Option.map_eq_some_iff] at h
    obtain ⟨more, hmore, rfl⟩ := h
    rw [apportioned_split] at htree hgrown
    rw [paneRects_split htree.1] at hsolid ⊢
    rw [paneRects_split hgrown.1]
    exact panesFrom_attachSlot hmore htree.2 hnodup outer _ _ hsolid

theorem panesFrom_attachSlot {axis : Axis} :
    {slots more : List (PaneTree Rat × Rat)} → attachSlot anchor new side axis slots = some more →
      (∀ slot ∈ slots, slot.1.Apportioned) → (slotTabIds slots).Nodup →
      (outer : Rect Rat) → (span offset : Rat) →
      (∀ rect, (anchor, rect) ∈ panesFrom axis outer span offset slots → rect.IsSolid) →
        panesFrom axis outer span offset more =
          (panesFrom axis outer span offset slots).flatMap (opened anchor new side)
  | [], _, h, _, _, _, _, _, _ => by simp [attachSlot] at h
  | (tree, share) :: rest, more, h, hslots, hnodup, outer, span, offset, hsolid => by
    rw [List.forall_mem_cons] at hslots
    rw [slotTabIds_cons, List.nodup_append'] at hnodup
    obtain ⟨htree, hrest, hdisjoint⟩ := hnodup
    simp only [panesFrom_cons, List.mem_append, or_imp, forall_and] at hsolid
    simp only [attachSlot] at h
    split at h
    · rename_i hanchor
      obtain ⟨hleaf, rfl⟩ := hanchor
      obtain rfl := asTab?_eq_some_iff.1 hleaf
      -- The anchor gives half of its share to the new slot beside it.
      have hmore : more =
          side.arrange (leaf new, share / 2.0) (leaf anchor, share / 2.0) ++ rest := by
        cases side <;> cases h <;> rfl
      have hlength := (hsolid.1 _ List.mem_cons_self).extent_pos side.axis
      have hsize : 0 ≤ span * share := by
        rw [Rect.extent_strip, lt_max_iff] at hlength
        exact (hlength.resolve_right (lt_irrefl 0)).le
      rw [hmore, panesFrom_halves hsize, panesFrom_cons, paneRects, List.singleton_append,
        List.flatMap_cons, opened_self, flatMap_opened_panesFrom (hdisjoint List.mem_cons_self)]
    split at h
    · rename_i grown hgrown
      cases h
      -- The tab went into this slot, which keeps its share.
      have hothers : anchor ∉ slotTabIds rest := hdisjoint (placedBeside_attach hgrown).mem
      rw [panesFrom_cons, panesFrom_cons, List.flatMap_append, flatMap_opened_panesFrom hothers,
        paneRects_attach hgrown hslots.1 htree _ hsolid.1]
    · obtain ⟨more, hmore, rfl⟩ := Option.map_eq_some_iff.1 h
      have hothers : anchor ∉ tree.tabIds :=
        fun hmem => hdisjoint hmem (placedBeside_attachSlot hmore).mem
      rw [panesFrom_cons, panesFrom_cons, List.flatMap_append, flatMap_opened_paneRects hothers,
        panesFrom_attachSlot hmore hslots.2 hrest outer span _ hsolid.2]

end

theorem paneRects_insert {root : Option (PaneTree Rat)} {grown : PaneTree Rat} {area : Rect Rat}
    (h : insert root anchor new side = some grown) (hroot : ∀ tree ∈ root, tree.Apportioned)
    (hnodup : (panesFor root anchor).Nodup)
    (hsolid : ∀ rect, (anchor, rect) ∈ shownPanes root anchor area 0 → rect.IsSolid) :
    grown.paneRects 0 area =
      (shownPanes root anchor area 0).flatMap (opened anchor new side) := by
  unfold insert at h
  split at h
  · cases h
  cases root with
  | none =>
    cases h
    rw [paneRects_pair (hsolid area List.mem_cons_self), shownPanes, List.flatMap_singleton,
      opened_self]
  | some tree =>
    simp only at h
    split at h
    · cases h
    · exact paneRects_attach h (hroot tree rfl) hnodup area hsolid

end Opening

end PaneTree

section Dropping

open PaneTree

theorem map_fst_shownPanes {α : Type} [Scalar α] (root : Option (PaneTree α)) (active : TabId)
    (area : Rect α) (gap : α) :
    (shownPanes root active area gap).map (·.1) = panesFor root active := by
  cases root with
  | none => rfl
  | some tree => exact tree.map_fst_paneRects gap area

variable {root : Option (PaneTree Rat)} {active new : TabId} {area : Rect Rat} {gap x y : Rat}
  {zone : DropZone Rat}

theorem DropZone.exists_pane (h : DropZone.at? root active area gap x y = some zone) :
    (panesFor root active).length < maxPanes ∧
      ∃ rect, (zone.anchor, rect) ∈ shownPanes root active area gap ∧ rect.IsSolid ∧
        zone.preview = rect.half zone.side := by
  obtain ⟨hroom, rect, hpane, -, hpreview⟩ := DropZone.at?_eq_some_iff.1 h
  have hsolid := Rect.isSolid_of_contains (contains_of_paneAt hpane)
  refine ⟨?_, rect, List.mem_of_find?_eq_some hpane, hsolid, hpreview⟩
  cases root with
  | none => exact Nat.one_lt_ofNat
  | some tree => simpa [panesFor, length_tabIds] using hroom

/-- A tab that is dropped on a zone is opened exactly where the zone previews it: the pane that it
is dropped on keeps its other half, and every other pane stays where it is. -/
theorem drop_lands_on_preview (hzone : DropZone.at? root active area 0 x y = some zone)
    (hroot : ∀ tree ∈ root, tree.Apportioned ∧ tree.tabIds.Nodup)
    (hnew : new ∉ panesFor root active) :
    ∃ grown rect, PaneTree.insert root zone.anchor new zone.side = some grown ∧
      (zone.anchor, rect) ∈ shownPanes root active area 0 ∧
      zone.preview = rect.half zone.side ∧
      (grown.paneRects 0 area).Perm
        ((new, zone.preview) :: (zone.anchor, rect.half zone.side.opposite) ::
          (shownPanes root active area 0).filter (·.1 ≠ zone.anchor)) := by
  obtain ⟨hroom, rect, hpane, hsolid, hpreview⟩ := zone.exists_pane hzone
  have hanchor : zone.anchor ∈ panesFor root active := by
    rw [← map_fst_shownPanes root active area 0]
    exact List.mem_map_of_mem hpane
  -- Without a tree the anchor is the active tab.
  have hpanes : shownPanes root zone.anchor area 0 = shownPanes root active area 0 := by
    cases root with
    | none => rw [List.mem_singleton.1 hanchor]
    | some tree => rfl
  have htabs : panesFor root zone.anchor = panesFor root active := by
    rw [← map_fst_shownPanes root zone.anchor area 0, hpanes, map_fst_shownPanes]
  have hnodup : (panesFor root active).Nodup := by
    cases root with
    | none => exact List.nodup_singleton active
    | some tree => exact (hroot tree rfl).2
  have hkeys : ((shownPanes root active area 0).map (·.1)).Nodup := by
    rwa [map_fst_shownPanes]
  have hunique : ∀ other, (zone.anchor, other) ∈ shownPanes root zone.anchor area 0 →
      other.IsSolid := by
    intro other hother
    rw [hpanes] at hother
    cases List.inj_on_of_nodup_map hkeys hother hpane rfl
    exact hsolid
  obtain ⟨grown, hgrown⟩ := exists_insert (htabs ▸ hanchor) (htabs ▸ hnew)
    (htabs ▸ hroom) zone.side
  refine ⟨grown, rect, hgrown, hpane, hpreview, ?_⟩
  rw [paneRects_insert hgrown (fun tree htree => (hroot tree htree).1) (htabs ▸ hnodup)
    hunique, hpanes, hpreview]
  exact flatMap_opened_perm hkeys hpane

deriving instance DecidableEq for DropZone

def aboveUpperPane : DropZone Rat := ⟨⟨"b"⟩, .top, ⟨400, 0, 400, 180⟩⟩

theorem drop_lands_on_preview_aboveUpperPane :
    DropZone.at? (some paneBesideColumn) ⟨"a"⟩ ⟨0, 0, 800, 600⟩ 0 600 50 = some aboveUpperPane ∧
      ∃ grown, PaneTree.insert (some paneBesideColumn) ⟨"b"⟩ ⟨"d"⟩ .top = some grown ∧
        (grown.paneRects 0 ⟨0, 0, 800, 600⟩).Perm
          [(⟨"d"⟩, ⟨400, 0, 400, 180⟩), (⟨"b"⟩, ⟨400, 180, 400, 180⟩), (⟨"a"⟩, ⟨0, 0, 400, 600⟩),
            (⟨"c"⟩, ⟨400, 360, 400, 240⟩)] := by
  have hzone : DropZone.at? (some paneBesideColumn) ⟨"a"⟩ ⟨0, 0, 800, 600⟩ 0 600 50 =
      some aboveUpperPane := by decide +kernel
  have hshown : shownPanes (some paneBesideColumn) ⟨"a"⟩ ⟨0, 0, 800, 600⟩ 0 =
      [(⟨"a"⟩, ⟨0, 0, 400, 600⟩), (⟨"b"⟩, ⟨400, 0, 400, 360⟩), (⟨"c"⟩, ⟨400, 360, 400, 240⟩)] := by
    decide +kernel
  have hnodup : paneBesideColumn.tabIds.Nodup := by decide
  have hroot : ∀ tree ∈ some paneBesideColumn, tree.Apportioned ∧ tree.tabIds.Nodup := by
    rintro _ ⟨⟩
    exact ⟨apportioned_paneBesideColumn, hnodup⟩
  obtain ⟨grown, rect, hgrown, hpane, -, hpanes⟩ :=
    drop_lands_on_preview hzone hroot (show (⟨"d"⟩ : TabId) ∉ paneBesideColumn.tabIds by decide)
  rw [hshown] at hpane hpanes
  have hrect : rect = ⟨400, 0, 400, 360⟩ := by simpa [aboveUpperPane] using hpane
  have hrest : rect.half aboveUpperPane.side.opposite = ⟨400, 180, 400, 180⟩ := by
    rw [hrect]
    decide +kernel
  rw [hrest] at hpanes
  exact ⟨hzone, grown, hgrown, hpanes⟩

end Dropping

end PaneTiling
