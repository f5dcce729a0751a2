import PaneTiling.Proofs.PaneTree.BorderShift
import PaneTiling.Proofs.PaneTree.Dividers

/-!
Whether panes and dividers stay inside the area they are laid out in, read over exact numbers. A
split that is shorter than its gaps gives its slots no size, yet it still lays the gaps one after
another; so dividers and later slots run on beyond its end. Nothing ever starts before the area,
and everything ends in it exactly as long as the gaps of every split do.
-/

namespace PaneTiling

namespace Rect

structure Inside (r bounds : Rect Rat) : Prop where
  left : bounds.x ≤ r.x
  right : r.right ≤ bounds.right
  top : bounds.y ≤ r.y
  bottom : r.bottom ≤ bounds.bottom

instance (r bounds : Rect Rat) : Decidable (r.Inside bounds) :=
  decidable_of_iff (bounds.x ≤ r.x ∧ r.right ≤ bounds.right ∧ bounds.y ≤ r.y ∧
      r.bottom ≤ bounds.bottom)
    ⟨fun h => ⟨h.1, h.2.1, h.2.2.1, h.2.2.2⟩, fun h => ⟨h.left, h.right, h.top, h.bottom⟩⟩

/-- A rectangle of no negative extent that is inside another one. -/
structure IsPart (r bounds : Rect Rat) : Prop where
  inside : r.Inside bounds
  size (axis : Axis) : 0 ≤ (r.extent axis).2

variable {r bounds : Rect Rat} {axis other : Axis} {start size : Rat}

theorem inside_iff : r.Inside bounds ↔ ∀ axis : Axis,
    (bounds.extent axis).1 ≤ (r.extent axis).1 ∧ r.finish axis ≤ bounds.finish axis := by
  constructor
  · intro h axis
    cases axis with
    | row => exact ⟨h.left, h.right⟩
    | col => exact ⟨h.top, h.bottom⟩
  · intro h
    exact ⟨(h .row).1, (h .row).2, (h .col).1, (h .col).2⟩

theorem isPart_self (hw : 0 ≤ r.w) (hh : 0 ≤ r.h) : r.IsPart r where
  inside := ⟨le_refl _, le_refl _, le_refl _, le_refl _⟩
  size axis := by
    cases axis with
    | row => exact hw
    | col => exact hh

theorem finish_eq (r : Rect Rat) (axis : Axis) :
    r.finish axis = (r.extent axis).1 + (r.extent axis).2 := by
  cases axis <;> rfl

theorem extent_strip_of_ne (h : other ≠ axis) (start size : Rat) :
    (r.strip axis start size).extent other =
      ((r.extent other).1, max (r.extent other).2 0) := by
  cases axis <;> cases other <;> first | rfl | exact absurd rfl h

theorem start_le_strip (h : (r.extent axis).1 ≤ start) (size : Rat) (other : Axis) :
    (r.extent other).1 ≤ ((r.strip axis start size).extent other).1 := by
  by_cases hother : other = axis
  · rwa [hother, start_strip]
  · rw [extent_strip_of_ne hother]

theorem IsPart.inside_strip_iff (h : r.IsPart bounds) :
    (r.strip axis start size).Inside bounds ↔
      (bounds.extent axis).1 ≤ start ∧ start + max size 0 ≤ bounds.finish axis := by
  rw [inside_iff]
  constructor
  · intro hstrip
    have haxis := hstrip axis
    rwa [start_strip, finish_strip] at haxis
  · intro hstrip other
    by_cases hother : other = axis
    · rwa [hother, start_strip, finish_strip]
    · have hwhole := inside_iff.1 h.inside other
      rw [finish_eq] at hwhole
      rwa [finish_eq, extent_strip_of_ne hother, max_eq_left (h.size other)]

theorem size_strip_nonneg (r : Rect Rat) (axis : Axis) (start size : Rat) (other : Axis) :
    0 ≤ ((r.strip axis start size).extent other).2 := by
  cases axis <;> cases other <;> exact le_max_right _ _

end Rect

section Strips

variable {span gap finish : Rat}

theorem start_le_stripEnd (strip : Rat × Rat) : strip.1 ≤ stripEnd strip :=
  le_add_of_nonneg_right (le_max_right _ _)

theorem start_of_head {share offset : Rat} {rest : List Rat} {strip : Rat × Rat}
    (h : (layStrips span gap finish offset (share :: rest))[0]? = some strip) :
    strip.1 = offset := by
  cases rest <;> cases h <;> rfl

theorem add_gaps_le_start (hspan : 0 ≤ span) {shares : List Rat}
    (hpos : ∀ share ∈ shares, 0 < share) {offset : Rat} {k : Nat} {strip : Rat × Rat}
    (h : (layStrips span gap finish offset shares)[k]? = some strip) :
    offset + gap * (k : Rat) ≤ strip.1 := by
  induction shares generalizing offset k with
  | nil => cases h
  | cons share rest ih =>
    cases k with
    | zero =>
      rw [start_of_head h, Nat.cast_zero, mul_zero, add_zero]
    | succ k =>
      have hne : rest ≠ [] := by
        rintro rfl
        cases h
      rw [List.forall_mem_cons] at hpos
      rw [layStrips_cons hne, List.getElem?_cons_succ] at h
      have hlater := ih hpos.2 h
      have hsize : 0 ≤ span * share := mul_nonneg hspan hpos.1.le
      push_cast
      linarith

theorem stripEnd_le (hspan : 0 ≤ span) (hgap : 0 ≤ gap) {shares : List Rat}
    (hpos : ∀ share ∈ shares, 0 < share) {offset bound : Rat} (hfinish : finish ≤ bound)
    (hend : offset + span * shares.sum + gap * ((shares.length - 1 : Nat) : Rat) ≤ bound) {k : Nat}
    {strip : Rat × Rat} (h : (layStrips span gap finish offset shares)[k]? = some strip) :
    stripEnd strip ≤ bound ∧ (k + 1 < shares.length → stripEnd strip + gap ≤ bound) := by
  induction shares generalizing offset k with
  | nil => cases h
  | cons share rest ih =>
    rw [List.forall_mem_cons] at hpos
    have hsize : 0 ≤ span * share := mul_nonneg hspan hpos.1.le
    cases rest with
    | nil =>
      obtain ⟨rfl, rfl⟩ : k = 0 ∧ strip = (offset, max (finish - offset) 0) := by
        cases k with
        | zero => exact ⟨rfl, (Option.some.inj h).symm⟩
        | succ k => cases h
      have hoffset : offset ≤ bound := by
        simp at hend
        linarith
      refine ⟨?_, fun hlt => absurd hlt (by simp)⟩
      rw [stripEnd_of_nonneg (le_max_right _ _), ← max_add_add_left, add_sub_cancel, add_zero]
      exact max_le hfinish hoffset
    | cons next others =>
      have hothers : 0 ≤ span * (next :: others).sum :=
        mul_nonneg hspan (List.sum_nonneg fun part hpart => (hpos.2 part hpart).le)
      have hgaps : 0 ≤ gap * (others.length : Rat) := mul_nonneg hgap (Nat.cast_nonneg _)
      simp only [List.length_cons, Nat.add_sub_cancel, List.sum_cons, Nat.cast_add, Nat.cast_one]
        at hend hothers
      rw [layStrips_cons (List.cons_ne_nil next others)] at h
      cases k with
      | zero =>
        cases h
        rw [stripEnd_of_nonneg hsize]
        exact ⟨by linarith, fun _ => by linarith⟩
      | succ k =>
        have hlater : offset + (span * share + gap) + span * (next :: others).sum +
            gap * (((next :: others).length - 1 : Nat) : Rat) ≤ bound := by
          simp only [List.length_cons, Nat.add_sub_cancel, List.sum_cons]
          linarith
        obtain ⟨hstrip, hnext⟩ := ih hpos.2 hlater h
        exact ⟨hstrip, fun hlt => hnext (by simpa using hlt)⟩

variable {axis : Axis} {r bounds : Rect Rat} {shares : List Rat} {k : Nat} {strip : Rat × Rat}

theorem add_gaps_le_start_strips (hwhole : PaneTree.Whole shares)
    (h : (strips axis r gap shares)[k]? = some strip) :
    (r.extent axis).1 + gap * (k : Rat) ≤ strip.1 :=
  add_gaps_le_start (sharedSpan_nonneg axis r gap shares.length) hwhole.pos h

theorem start_le_strips (hwhole : PaneTree.Whole shares) (hgap : 0 ≤ gap)
    (h : (strips axis r gap shares)[k]? = some strip) : (r.extent axis).1 ≤ strip.1 := by
  have hgaps : 0 ≤ gap * (k : Rat) := mul_nonneg hgap (Nat.cast_nonneg k)
  have hstart := add_gaps_le_start_strips hwhole h
  linarith

theorem stripEnd_le_finish (hwhole : PaneTree.Whole shares) (hgap : 0 ≤ gap)
    (hinside : r.finish axis ≤ bounds.finish axis)
    (hgaps : (r.extent axis).1 + gap * ((shares.length - 1 : Nat) : Rat) ≤ bounds.finish axis)
    (h : (strips axis r gap shares)[k]? = some strip) :
    stripEnd strip ≤ bounds.finish axis ∧
      (k + 1 < shares.length → stripEnd strip + gap ≤ bounds.finish axis) := by
  refine stripEnd_le (sharedSpan_nonneg axis r gap shares.length) hgap hwhole.pos hinside ?_ h
  rw [hwhole.sum_eq, mul_one, sharedSpan]
  rw [r.finish_eq] at hinside
  rcases le_total ((r.extent axis).2 - gap * ((shares.length - 1 : Nat) : Rat)) 0 with hfull | hroom
  · rw [max_eq_right hfull]
    linarith
  · rw [max_eq_left hroom]
    linarith

end Strips

namespace PaneTree

section Areas

variable {gap : Rat} {tree : PaneTree Rat} {outer area bounds : Rect Rat} {path : List Nat}
  {d : Divider Rat}

/-- From where a split begins, its gaps laid one after another end inside `bounds`, for every split
of a tree. -/
def GapsEndIn (bounds : Rect Rat) (gap : Rat) (tree : PaneTree Rat) (outer : Rect Rat) : Prop :=
  ∀ path axis slots area, tree.nodeAt path = some (split axis slots) →
    tree.areaAt? gap outer path = some area →
      (area.extent axis).1 + gap * ((slots.length - 1 : Nat) : Rat) ≤ bounds.finish axis

theorem GapsEndIn.slot {axis : Axis} {slots : List (PaneTree Rat × Rat)}
    {slot : PaneTree Rat × Rat} {strip : Rat × Rat} {index : Nat}
    (h : GapsEndIn bounds gap (split axis slots) outer) (hslot : slots[index]? = some slot)
    (hstrip : (strips axis outer gap (sharesOf slots))[index]? = some strip) :
    GapsEndIn bounds gap slot.1 (outer.strip axis strip.1 strip.2) := by
  intro path other more area hnode harea
  refine h (index :: path) other more area ?_ ?_
  · rw [nodeAt_split_cons, hslot, Option.bind_some, hnode]
  · rw [areaAt?_cons, hslot, getElem?_slotRects, hstrip, Option.map_some, Option.bind_some,
      Option.bind_some, harea]

theorem areaAt?_cons_eq_some {index : Nat}
    (h : tree.areaAt? gap outer (index :: path) = some area) :
    ∃ axis slots slot strip, tree = split axis slots ∧ slots[index]? = some slot ∧
      (strips axis outer gap (sharesOf slots))[index]? = some strip ∧
        slot.1.areaAt? gap (outer.strip axis strip.1 strip.2) path = some area := by
  cases tree with
  | leaf tab => cases h
  | split axis slots =>
    simp only [areaAt?_cons, Option.bind_eq_some_iff, getElem?_slotRects,
      Option.map_eq_some_iff] at h
    obtain ⟨slot, hslot, _, ⟨strip, hstrip, rfl⟩, harea⟩ := h
    exact ⟨axis, slots, slot, strip, rfl, hslot, hstrip, harea⟩

theorem start_le_area (htree : tree.Apportioned) (hgap : 0 ≤ gap)
    (h : tree.areaAt? gap outer path = some area) (axis : Axis) :
    (outer.extent axis).1 ≤ (area.extent axis).1 := by
  induction path generalizing tree outer with
  | nil =>
    cases h
    exact le_refl _
  | cons index rest ih =>
    obtain ⟨along, slots, slot, strip, rfl, hslot, hstrip, harea⟩ := areaAt?_cons_eq_some h
    rw [apportioned_split] at htree
    have hstart := Rect.start_le_strip (start_le_strips htree.1 hgap hstrip) strip.2 axis
    exact hstart.trans (ih (htree.2 slot (List.mem_of_getElem? hslot)) harea)

theorem isPart_slot {axis : Axis} {shares : List Rat} {index : Nat} {strip : Rat × Rat}
    (houter : outer.IsPart bounds) (hwhole : Whole shares) (hgap : 0 ≤ gap)
    (hgaps : (outer.extent axis).1 + gap * ((shares.length - 1 : Nat) : Rat) ≤ bounds.finish axis)
    (hstrip : (strips axis outer gap shares)[index]? = some strip) :
    (outer.strip axis strip.1 strip.2).IsPart bounds := by
  have haxis := Rect.inside_iff.1 houter.inside axis
  have hstart := haxis.1.trans (start_le_strips hwhole hgap hstrip)
  have hend := (stripEnd_le_finish hwhole hgap haxis.2 hgaps hstrip).1
  exact ⟨houter.inside_strip_iff.2 ⟨hstart, hend⟩, outer.size_strip_nonneg axis strip.1 strip.2⟩

theorem GapsEndIn.isPart_area (hgaps : GapsEndIn bounds gap tree outer) (htree : tree.Apportioned)
    (hgap : 0 ≤ gap) (houter : outer.IsPart bounds)
    (h : tree.areaAt? gap outer path = some area) : area.IsPart bounds := by
  induction path generalizing tree outer with
  | nil =>
    cases h
    exact houter
  | cons index rest ih =>
    obtain ⟨axis, slots, slot, strip, rfl, hslot, hstrip, harea⟩ := areaAt?_cons_eq_some h
    rw [apportioned_split] at htree
    have hpart := isPart_slot houter htree.1 hgap
      (by simpa [sharesOf] using hgaps [] axis slots outer rfl rfl) hstrip
    exact ih (hgaps.slot hslot hstrip) (htree.2 slot (List.mem_of_getElem? hslot)) hpart harea

theorem SlotsHaveRoom.slot {slots : List (PaneTree Rat × Rat)} {rects : List (Rect Rat)}
    {slot : PaneTree Rat × Rat} {rect : Rect Rat} {index : Nat} (h : SlotsHaveRoom gap slots rects)
    (hslot : slots[index]? = some slot) (hrect : rects[index]? = some rect) :
    slot.1.HasRoom gap rect := by
  induction slots generalizing rects index with
  | nil => cases hslot
  | cons first rest ih =>
    cases rects with
    | nil => cases hrect
    | cons found rects =>
      rw [SlotsHaveRoom] at h
      cases index with
      | zero =>
        cases hslot
        cases hrect
        exact h.1
      | succ index => exact ih h.2 hslot hrect

theorem HasRoom.gapsEndIn (hroom : tree.HasRoom gap outer) (htree : tree.Apportioned)
    (hgap : 0 ≤ gap) (houter : outer.IsPart bounds) : GapsEndIn bounds gap tree outer := by
  intro path axis slots area hnode harea
  induction path generalizing tree outer with
  | nil =>
    cases harea
    cases hnode
    rw [HasRoom] at hroom
    have hfinish := (Rect.inside_iff.1 houter.inside axis).2
    rw [Rect.finish_eq] at hfinish
    linarith [hroom.1]
  | cons index rest ih =>
    obtain ⟨along, others, slot, strip, rfl, hslot, hstrip, hlater⟩ := areaAt?_cons_eq_some harea
    rw [HasRoom] at hroom
    rw [apportioned_split] at htree
    rw [nodeAt_split_cons, hslot, Option.bind_some] at hnode
    have hfinish := (Rect.inside_iff.1 houter.inside along).2
    rw [Rect.finish_eq] at hfinish
    have hpart := isPart_slot houter htree.1 hgap
      (by simp only [sharesOf, List.length_map]; linarith [hroom.1]) hstrip
    have hrect : (slotRects along outer gap (sharesOf others))[index]? =
        some (outer.strip along strip.1 strip.2) := by
      rw [getElem?_slotRects, hstrip, Option.map_some]
    exact ih (hroom.2.slot hslot hrect) (htree.2 slot (List.mem_of_getElem? hslot)) hpart hnode
      hlater

theorem exists_area_of_mem_paneRects {pane : TabId × Rect Rat}
    (h : pane ∈ tree.paneRects gap outer) : ∃ path, tree.areaAt? gap outer path = some pane.2 := by
  have hplaced : (some (leaf pane.1), some pane.2) ∈
      tree.leafPaths.map (tree.placedAt gap outer) := by
    rw [map_placedAt_leafPaths]
    exact List.mem_map_of_mem h
  obtain ⟨path, -, hpath⟩ := List.mem_map.1 hplaced
  exact ⟨path, congrArg Prod.snd hpath⟩

theorem exists_divider_of_strip {axis : Axis} {slots : List (PaneTree Rat × Rat)} {index : Nat}
    {strip : Rat × Rat} (hnode : tree.nodeAt path = some (split axis slots))
    (harea : tree.areaAt? gap outer path = some area) (hlt : index + 1 < slots.length)
    (hstrip : (strips axis area gap (sharesOf slots))[index]? = some strip) :
    ∃ d ∈ tree.dividers outer gap, d.rect = area.strip axis (stripEnd strip) gap := by
  have hcount : index + 1 < (sharesOf slots).length := by simpa [sharesOf] using hlt
  have hgap := getElem?_gapDividers axis area gap path (sharesOf slots) index
  rw [if_pos hcount, hstrip, Option.map_some, Option.map_some] at hgap
  have hplaced : tree.dividerOf? gap outer (path, index) =
      some ⟨axis, area.strip axis (stripEnd strip) gap, path, index,
        sharedSpan axis area gap (sharesOf slots).length⟩ := by
    simp only [dividerOf?, hnode, harea, sharing?, Option.bind_some]
    exact hgap
  exact ⟨_, mem_dividers_of_dividerOf? (mem_borders.2 ⟨axis, slots, hnode, hlt⟩) hplaced, rfl⟩

theorem start_le_divider (htree : tree.Apportioned) (hgap : 0 ≤ gap)
    (hd : d ∈ tree.dividers outer gap) (axis : Axis) :
    (outer.extent axis).1 ≤ (d.rect.extent axis).1 := by
  obtain ⟨along, slots, area, strip, hnode, harea, -, hstrip, hrect, -⟩ :=
    exists_strip_of_mem_dividers hd
  have hwhole := (apportioned_split.1 (htree.nodeAt hnode)).1
  have hstart := start_le_strips hwhole hgap hstrip
  rw [hrect]
  exact (start_le_area htree hgap harea axis).trans
    (Rect.start_le_strip (hstart.trans (start_le_stripEnd strip)) gap axis)

theorem GapsEndIn.inside_divider (hgaps : GapsEndIn bounds gap tree outer)
    (htree : tree.Apportioned) (hgap : 0 ≤ gap) (houter : outer.IsPart bounds)
    (hd : d ∈ tree.dividers outer gap) : d.rect.Inside bounds := by
  obtain ⟨axis, slots, area, strip, hnode, harea, hlt, hstrip, hrect, -⟩ :=
    exists_strip_of_mem_dividers hd
  have hwhole := (apportioned_split.1 (htree.nodeAt hnode)).1
  have hpart := hgaps.isPart_area htree hgap houter harea
  have haxis := Rect.inside_iff.1 hpart.inside axis
  have hend := stripEnd_le_finish hwhole hgap haxis.2
    (by simpa [sharesOf] using hgaps d.path axis slots area hnode harea) hstrip
  have hstart := start_le_strips hwhole hgap hstrip
  rw [hrect, hpart.inside_strip_iff, max_eq_left hgap]
  exact ⟨haxis.1.trans (hstart.trans (start_le_stripEnd strip)),
    hend.2 (by simpa [sharesOf] using hlt)⟩

theorem gapsEndIn_of_inside (htree : tree.Apportioned) (hbranching : tree.Branching 2)
    (hgap : 0 ≤ gap) (hinside : ∀ d ∈ tree.dividers outer gap, d.rect.Inside bounds) :
    GapsEndIn bounds gap tree outer := by
  intro path axis slots area hnode harea
  have hwhole := (apportioned_split.1 (htree.nodeAt hnode)).1
  have htwo : 2 ≤ slots.length := (branching_split.1 (hbranching.nodeAt hnode)).1
  obtain ⟨index, hindex⟩ : ∃ index, slots.length = index + 2 :=
    ⟨slots.length - 2, (Nat.sub_add_cancel htwo).symm⟩
  obtain ⟨strip, hstrip⟩ : ∃ strip, (strips axis area gap (sharesOf slots))[index]? = some strip :=
    ⟨_, List.getElem?_eq_getElem (by simp [length_strips, sharesOf, hindex])⟩
  obtain ⟨d, hd, hrect⟩ := exists_divider_of_strip hnode harea (by omega) hstrip
  have hfinish := (Rect.inside_iff.1 (hinside d hd) axis).2
  rw [hrect, Rect.finish_strip, max_eq_left hgap] at hfinish
  have hstart := add_gaps_le_start_strips hwhole hstrip
  have hend := start_le_stripEnd strip
  rw [hindex, Nat.add_sub_cancel (m := 1) (n := index + 1)]
  push_cast
  linarith

/-- Panes and dividers never start before the area that a tree is laid out in, and they are inside
it exactly if the gaps of every split end in it, as they do where every split has room for them. -/
theorem inside_iff_gapsEndIn (htree : tree.Apportioned) (hbranching : tree.Branching 2)
    (hgap : 0 ≤ gap) (hw : 0 ≤ outer.w) (hh : 0 ≤ outer.h) :
    (∀ pane ∈ tree.paneRects gap outer, outer.x ≤ pane.2.x ∧ outer.y ≤ pane.2.y) ∧
    (∀ d ∈ tree.dividers outer gap, outer.x ≤ d.rect.x ∧ outer.y ≤ d.rect.y) ∧
    (((∀ pane ∈ tree.paneRects gap outer, pane.2.Inside outer) ∧
        ∀ d ∈ tree.dividers outer gap, d.rect.Inside outer) ↔
      GapsEndIn outer gap tree outer) ∧
    (tree.HasRoom gap outer → GapsEndIn outer gap tree outer) := by
  have houter := Rect.isPart_self hw hh
  refine ⟨fun pane hpane => ?_, fun d hd => ?_, ⟨fun hinside => ?_, fun hgaps => ?_⟩,
    fun hroom => hroom.gapsEndIn htree hgap houter⟩
  · obtain ⟨path, harea⟩ := exists_area_of_mem_paneRects hpane
    exact ⟨start_le_area htree hgap harea .row, start_le_area htree hgap harea .col⟩
  · exact ⟨start_le_divider htree hgap hd .row, start_le_divider htree hgap hd .col⟩
  · exact gapsEndIn_of_inside htree hbranching hgap hinside.2
  · refine ⟨fun pane hpane => ?_, fun d hd => hgaps.inside_divider htree hgap houter hd⟩
    obtain ⟨path, harea⟩ := exists_area_of_mem_paneRects hpane
    exact (hgaps.isPart_area htree hgap houter harea).inside

end Areas

def evenRow : PaneTree Rat := split .row [(leaf ⟨"a"⟩, 1 / 2), (leaf ⟨"b"⟩, 1 / 2)]

theorem apportioned_evenRow : evenRow.Apportioned := by
  have hrow : Whole [(1 / 2 : Rat), 1 / 2] := ⟨by norm_num, by norm_num⟩
  exact ⟨hrow, trivial, trivial, trivial⟩

theorem branching_evenRow : evenRow.Branching 2 := by
  simp [evenRow, branching_split]

theorem inside_iff_gapsEndIn_evenRow :
    GapsEndIn ⟨0, 0, 804, 604⟩ 4 evenRow ⟨0, 0, 804, 604⟩ ∧
      ¬GapsEndIn ⟨0, 0, 2, 10⟩ 4 evenRow ⟨0, 0, 2, 10⟩ := by
  constructor
  · refine (inside_iff_gapsEndIn apportioned_evenRow branching_evenRow ?_ ?_ ?_).2.2.1.1 ?_
    · norm_num
    · norm_num
    · norm_num
    · decide +kernel
  · intro hgaps
    have hinside := (inside_iff_gapsEndIn apportioned_evenRow branching_evenRow (by norm_num)
      (by norm_num) (by norm_num)).2.2.1.2 hgaps
    exact absurd hinside (by decide +kernel)

/-- In a row two pixels wide a gap of four pixels ends outside, and the second pane starts there. -/
theorem not_inside_evenRow :
    ¬∀ (tree : PaneTree Rat) (outer : Rect Rat) (gap : Rat), 2 ≤ tree.leafCount →
      tree.leafCount ≤ 4 → tree.tabIds.Nodup → tree.Branching 2 → tree.Apportioned → 0 ≤ gap →
        0 ≤ outer.w → 0 ≤ outer.h →
          (∀ pane ∈ tree.paneRects gap outer, pane.2.Inside outer) ∧
            ∀ d ∈ tree.dividers outer gap, d.rect.Inside outer := by
  intro h
  have hinside := h evenRow ⟨0, 0, 2, 10⟩ 4 (by decide) (by decide) (by decide) branching_evenRow
    apportioned_evenRow (by norm_num) (by norm_num) (by norm_num)
  exact absurd hinside (by decide +kernel)

end PaneTree

end PaneTiling
