import Mathlib.Algebra.Order.Ring.Abs
import PaneTiling.Proofs.PaneTree.Areas
import PaneTiling.Proofs.PaneTree.Resizing
import PaneTiling.Proofs.PaneTree.Tiling

/-!
What moves on the screen when a border is pulled. The strips of a split are laid one after another,
and the two beside the border keep their common length; so the divider moves by as many pixels as
its share gains, and all that lies outside the two strips stays exactly where it was.
-/

namespace PaneTiling

section Strips

def stripEnd (strip : Rat × Rat) : Rat := strip.1 + max strip.2 0

/-- Strips of which one ends further on, and the next one begins further on and ends where it
did. -/
structure ShiftsBorder (moved strips : List (Rat × Rat)) (index : Nat) (shift : Rat) : Prop where
  others : ∀ k, k ≠ index → k ≠ index + 1 → moved[k]? = strips[k]?
  border : moved[index]?.map stripEnd = strips[index]?.map (stripEnd · + shift)
  beyond : index + 2 < strips.length →
    moved[index + 1]?.map stripEnd = strips[index + 1]?.map stripEnd

theorem ShiftsBorder.cons {moved strips : List (Rat × Rat)} {index : Nat} {shift : Rat}
    (h : ShiftsBorder moved strips index shift) (strip : Rat × Rat) :
    ShiftsBorder (strip :: moved) (strip :: strips) (index + 1) shift where
  others k hk hnext := by
    cases k with
    | zero => rfl
    | succ k => exact h.others k (by omega) (by omega)
  border := h.border
  beyond hlt := by
    rw [List.length_cons] at hlt
    exact h.beyond (by omega)

variable {span gap finish first second a b : Rat}

theorem stripEnd_of_nonneg {size : Rat} (h : 0 ≤ size) (start : Rat) :
    stripEnd (start, size) = start + size := by
  rw [stripEnd, max_eq_left h]

theorem shiftsBorder_first (hspan : 0 ≤ span) (hfirst : 0 ≤ first) (hsecond : 0 ≤ second)
    (ha : 0 ≤ a) (hb : 0 ≤ b) (hsum : a + b = first + second) (offset : Rat) (rest : List Rat) :
    ShiftsBorder (layStrips span gap finish offset (a :: b :: rest))
      (layStrips span gap finish offset (first :: second :: rest)) 0 (span * (a - first)) := by
  have hkept : span * a + span * b = span * first + span * second := by
    rw [← mul_add, ← mul_add, hsum]
  have hborder : stripEnd (offset, span * a) =
      stripEnd (offset, span * first) + span * (a - first) := by
    rw [stripEnd_of_nonneg (mul_nonneg hspan ha), stripEnd_of_nonneg (mul_nonneg hspan hfirst)]
    ring
  cases rest with
  | nil =>
    refine ⟨fun k hk hnext => ?_, congrArg some hborder, fun hlt => ?_⟩
    · obtain ⟨k, rfl⟩ : ∃ n, k = n + 2 := ⟨k - 2, by omega⟩
      rfl
    · simp [layStrips] at hlt
  | cons next others =>
    have hoffset : offset + (span * a + gap) + (span * b + gap) =
        offset + (span * first + gap) + (span * second + gap) := by linarith
    have hbeyond : stripEnd (offset + (span * a + gap), span * b) =
        stripEnd (offset + (span * first + gap), span * second) := by
      rw [stripEnd_of_nonneg (mul_nonneg hspan hb), stripEnd_of_nonneg (mul_nonneg hspan hsecond)]
      linarith
    simp only [layStrips_cons (List.cons_ne_nil _ _), hoffset]
    refine ⟨fun k hk hnext => ?_, congrArg some hborder, fun _ => congrArg some hbeyond⟩
    obtain ⟨k, rfl⟩ : ∃ n, k = n + 2 := ⟨k - 2, by omega⟩
    rfl

theorem shiftsBorder_layStrips (hspan : 0 ≤ span) (hfirst : 0 ≤ first) (hsecond : 0 ≤ second)
    (ha : 0 ≤ a) (hb : 0 ≤ b) (hsum : a + b = first + second) {shares : List Rat} {index : Nat}
    (offset : Rat) (hbefore : shares[index]? = some first)
    (hafter : shares[index + 1]? = some second) :
    ShiftsBorder (layStrips span gap finish offset ((shares.set index a).set (index + 1) b))
      (layStrips span gap finish offset shares) index (span * (a - first)) := by
  induction shares generalizing index offset with
  | nil => cases hbefore
  | cons share rest ih =>
    cases index with
    | zero =>
      cases hbefore
      obtain ⟨others, rfl⟩ := List.head?_eq_some_iff.1 (List.head?_eq_getElem?.trans hafter)
      exact shiftsBorder_first hspan hfirst hsecond ha hb hsum offset others
    | succ index =>
      have hne : rest ≠ [] := by
        rintro rfl
        cases hbefore
      have hset : (rest.set index a).set (index + 1) b ≠ [] := by simpa using hne
      rw [List.set_cons_succ, List.set_cons_succ, layStrips_cons hne, layStrips_cons hset]
      exact (ih (offset + (span * share + gap)) hbefore hafter).cons (offset, span * share)

end Strips

deriving instance DecidableEq for Divider

def Rect.shifted (axis : Axis) (distance : Rat) (r : Rect Rat) : Rect Rat :=
  match axis with
  | .row => { r with x := r.x + distance }
  | .col => { r with y := r.y + distance }

theorem Rect.shifted_strip (r : Rect Rat) (axis : Axis) (start size distance : Rat) :
    (r.strip axis start size).shifted axis distance = r.strip axis (start + distance) size := by
  cases axis <;> rfl

def Divider.shifted (distance : Rat) (d : Divider Rat) : Divider Rat :=
  { d with rect := d.rect.shifted d.axis distance }

section Gaps

variable {axis : Axis} {outer : Rect Rat} {gap first second a b : Rat} {shares : List Rat}
  {index : Nat}

theorem sharedSpan_nonneg (axis : Axis) (outer : Rect Rat) (gap : Rat) (count : Nat) :
    0 ≤ sharedSpan axis outer gap count := le_max_right _ _

def strips (axis : Axis) (outer : Rect Rat) (gap : Rat) (shares : List Rat) : List (Rat × Rat) :=
  layStrips (sharedSpan axis outer gap shares.length) gap (outer.finish axis)
    (outer.extent axis).1 shares

theorem getElem?_slotRects (axis : Axis) (outer : Rect Rat) (gap : Rat) (shares : List Rat)
    (k : Nat) : (slotRects axis outer gap shares)[k]? =
      (strips axis outer gap shares)[k]?.map fun strip => outer.strip axis strip.1 strip.2 := by
  rw [slotRects_eq, List.getElem?_map]
  rfl

theorem getElem?_gapDividers (axis : Axis) (outer : Rect Rat) (gap : Rat) (path : List Nat)
    (shares : List Rat) (k : Nat) :
    (gapDividers axis outer gap path (slotRects axis outer gap shares))[k]? =
      if k + 1 < shares.length then
        ((strips axis outer gap shares)[k]?.map stripEnd).map fun start =>
          ⟨axis, outer.strip axis start gap, path, k, sharedSpan axis outer gap shares.length⟩
      else none := by
  rw [gapDividers_eq, List.getElem?_mapIdx, List.getElem?_dropLast, length_slotRects]
  by_cases hk : k + 1 < shares.length
  · rw [if_pos (Nat.lt_sub_of_add_lt hk), if_pos hk, getElem?_slotRects, Option.map_map,
      Option.map_map]
    simp only [Function.comp_def, Rect.finish_strip, stripEnd]
  · rw [if_neg (fun hlt => hk (Nat.add_lt_of_lt_sub hlt)), if_neg hk, Option.map_none]

theorem shiftsBorder_strips (axis : Axis) (outer : Rect Rat) (gap : Rat) (hfirst : 0 ≤ first)
    (hsecond : 0 ≤ second) (ha : 0 ≤ a) (hb : 0 ≤ b) (hsum : a + b = first + second)
    (hbefore : shares[index]? = some first) (hafter : shares[index + 1]? = some second) :
    ShiftsBorder (strips axis outer gap ((shares.set index a).set (index + 1) b))
      (strips axis outer gap shares) index
      (sharedSpan axis outer gap shares.length * (a - first)) := by
  rw [strips, strips, List.length_set, List.length_set]
  exact shiftsBorder_layStrips (sharedSpan_nonneg axis outer gap shares.length) hfirst hsecond ha hb
    hsum _ hbefore hafter

theorem length_strips (axis : Axis) (outer : Rect Rat) (gap : Rat) (shares : List Rat) :
    (strips axis outer gap shares).length = shares.length := length_layStrips _ _ _ _ _

variable {more : List Rat} {shift : Rat}

theorem ShiftsBorder.keeps_rect
    (h : ShiftsBorder (strips axis outer gap more) (strips axis outer gap shares) index shift)
    {k : Nat} (hk : k ≠ index) (hnext : k ≠ index + 1) :
    (slotRects axis outer gap more)[k]? = (slotRects axis outer gap shares)[k]? := by
  rw [getElem?_slotRects, getElem?_slotRects, h.others k hk hnext]

theorem ShiftsBorder.moves_divider
    (h : ShiftsBorder (strips axis outer gap more) (strips axis outer gap shares) index shift)
    (hlength : more.length = shares.length) (path : List Nat) (k : Nat) :
    (gapDividers axis outer gap path (slotRects axis outer gap more))[k]? =
      (gapDividers axis outer gap path (slotRects axis outer gap shares))[k]?.map fun d =>
        if k = index then d.shifted shift else d := by
  rw [getElem?_gapDividers, getElem?_gapDividers, hlength]
  by_cases hlt : k + 1 < shares.length
  · rw [if_pos hlt, if_pos hlt]
    by_cases hk : k = index
    · subst hk
      simp only [h.border, Option.map_map, Function.comp_def, ↓reduceIte, Divider.shifted,
        Rect.shifted_strip]
    · simp only [if_neg hk, Option.map_id_fun', id_eq]
      by_cases hnext : k = index + 1
      · subst hnext
        rw [h.beyond (by rwa [length_strips])]
      · rw [h.others k hk hnext]
  · rw [if_neg hlt, if_neg hlt, Option.map_none]

end Gaps

namespace PaneTree

/-- A path leads into one of the two slots beside the border after slot `index` of the split at
`path`. -/
def LeadsBeside (path : List Nat) (index : Nat) (place : List Nat) : Prop :=
  path ++ [index] <+: place ∨ path ++ [index + 1] <+: place

instance (path : List Nat) (index : Nat) (place : List Nat) :
    Decidable (LeadsBeside path index place) :=
  inferInstanceAs (Decidable (_ ∨ _))

theorem leadsBeside_append (path : List Nat) (index : Nat) (rest : List Nat) :
    LeadsBeside path index (path ++ rest) ↔ LeadsBeside [] index rest := by
  simp only [LeadsBeside, List.prefix_append_right_inj, List.nil_append]

/-- The two sides of a border are wide enough for it to move, and it may be pulled as far as
`delta`. -/
structure PullReaches (first second delta : Rat) : Prop where
  room : 2.0 * minShare ≤ first + second
  low : min first minShare ≤ first + delta
  high : first + delta ≤ max first (first + second - minShare)

/-- A tree that is laid out as another one, but for a divider that has moved along its axis, and for
what lies in the two slots beside it. -/
structure FollowsPull (moved tree : PaneTree Rat) (gap : Rat) (outer : Rect Rat) (d : Divider Rat)
    (shift : Rat) : Prop where
  addresses : (moved.dividers outer gap).map Divider.address =
    (tree.dividers outer gap).map Divider.address
  divider : ∀ found, found ∈ moved.dividers outer gap ∧ found.address = d.address ↔
    found = d.shifted shift
  others : ∀ other ∈ tree.dividers outer gap, other.address ≠ d.address →
    ¬LeadsBeside d.path d.index other.path → other ∈ moved.dividers outer gap
  panes : ∀ (k : Nat) (place : List Nat), tree.leafPaths[k]? = some place →
    ¬LeadsBeside d.path d.index place →
      (moved.paneRects gap outer)[k]? = (tree.paneRects gap outer)[k]?

section Pulled

variable {tree moved : PaneTree Rat} {path : List Nat} {index : Nat} {axis : Axis}
  {slots : List (PaneTree Rat × Rat)} {before after : PaneTree Rat} {first second delta gap : Rat}

theorem sharesOf_pulledSlots (slots : List (PaneTree Rat × Rat)) (index : Nat)
    (before after : PaneTree Rat) (first second delta : Rat) :
    sharesOf (pulledSlots slots index before after first second delta) =
      ((sharesOf slots).set index (pulled first second delta)).set (index + 1)
        (first + second - pulled first second delta) := by
  rw [pulledSlots, sharesOf_set, sharesOf_set]

theorem shiftsBorder_pulledSlots (axis : Axis) (outer : Rect Rat) (gap delta : Rat)
    (hbefore : slots[index]? = some (before, first))
    (hafter : slots[index + 1]? = some (after, second)) (hfirst : 0 < first)
    (hsecond : 0 < second) :
    ShiftsBorder
      (strips axis outer gap (sharesOf (pulledSlots slots index before after first second delta)))
      (strips axis outer gap (sharesOf slots)) index
      (sharedSpan axis outer gap (sharesOf slots).length *
        (pulled first second delta - first)) := by
  obtain ⟨hpos, hrest⟩ := pulled_mem hfirst hsecond delta
  rw [sharesOf_pulledSlots]
  exact shiftsBorder_strips axis outer gap hfirst.le hsecond.le hpos.le (sub_pos.2 hrest).le
    (by ring) (by simp [sharesOf, hbefore]) (by simp [sharesOf, hafter])

theorem areaAt?_pulledSlots (hbefore : slots[index]? = some (before, first))
    (hafter : slots[index + 1]? = some (after, second)) (hfirst : 0 < first) (hsecond : 0 < second)
    (outer : Rect Rat) (rest : List Nat) (hrest : ¬LeadsBeside [] index rest) :
    (split axis (pulledSlots slots index before after first second delta)).areaAt? gap outer rest =
      (split axis slots).areaAt? gap outer rest := by
  cases rest with
  | nil => rfl
  | cons k rest =>
    simp only [LeadsBeside, List.nil_append, List.cons_prefix_cons, List.nil_prefix, and_true,
      not_or] at hrest
    obtain ⟨hindex, hnext⟩ := hrest
    have hslot := (slotsMoved_of_resizeSlots (resizeSlots_eq hbefore hafter delta)).others k
      (Ne.symm hindex) (Ne.symm hnext)
    have hrect := (shiftsBorder_pulledSlots axis outer gap delta hbefore hafter hfirst
      hsecond).keeps_rect (Ne.symm hindex) (Ne.symm hnext)
    rw [areaAt?_cons, areaAt?_cons, hslot, hrect]

variable (hbefore : slots[index]? = some (before, first))
  (hafter : slots[index + 1]? = some (after, second)) (hfirst : 0 < first) (hsecond : 0 < second)
  (hedit : Rewrites (split axis slots)
    (split axis (pulledSlots slots index before after first second delta)) path tree moved)

include hbefore hafter hfirst hsecond hedit

theorem areaAt?_pulled (outer : Rect Rat) {place : List Nat}
    (hplace : ¬LeadsBeside path index place) :
    moved.areaAt? gap outer place = tree.areaAt? gap outer place := by
  refine hedit.areaAt?_eq (areaAt?_pulledSlots hbefore hafter hfirst hsecond) outer ?_
  rintro rest rfl
  rwa [leadsBeside_append] at hplace

theorem dividerOf?_pulled {outer area : Rect Rat} (harea : tree.areaAt? gap outer path = some area)
    {border : List Nat × Nat} (hborder : ¬LeadsBeside path index border.1) :
    moved.dividerOf? gap outer border = (tree.dividerOf? gap outer border).map fun d =>
      if border = (path, index) then
        d.shifted (sharedSpan axis area gap (sharesOf slots).length *
          (pulled first second delta - first))
      else d := by
  obtain ⟨place, k⟩ := border
  have hkept : moved.areaAt? gap outer place = tree.areaAt? gap outer place :=
    areaAt?_pulled hbefore hafter hfirst hsecond hedit outer hborder
  by_cases hplace : place = path
  · subst hplace
    have hgaps := (shiftsBorder_pulledSlots axis area gap delta hbefore hafter hfirst
      hsecond).moves_divider (by simp [sharesOf_pulledSlots]) place k
    rw [dividerOf?, dividerOf?, hkept, harea, hedit.nodeAt_old, hedit.nodeAt_new]
    simpa [sharing?] using hgaps
  · have hother : (place, k) ≠ (path, index) := fun heq => hplace (congrArg Prod.fst heq)
    have htrees := (slotsMoved_of_resizeSlots (resizeSlots_eq hbefore hafter delta)).trees
    have hsharing := hedit.sharing?_eq htrees hplace
    simp only [dividerOf?, hkept, hsharing, if_neg hother, Option.map_id_fun', id_eq]

end Pulled

section Following

variable {tree : PaneTree Rat} {gap : Rat} {outer : Rect Rat} {d : Divider Rat}

theorem exists_strip_of_mem_dividers (hd : d ∈ tree.dividers outer gap) :
    ∃ axis slots area strip, tree.nodeAt d.path = some (split axis slots) ∧
      tree.areaAt? gap outer d.path = some area ∧ d.index + 1 < slots.length ∧
      (strips axis area gap (sharesOf slots))[d.index]? = some strip ∧
      d.rect = area.strip axis (stripEnd strip) gap ∧
      d.span = sharedSpan axis area gap (sharesOf slots).length := by
  have hplaced := dividerOf?_of_mem hd
  simp only [dividerOf?, Divider.address, Option.bind_eq_some_iff] at hplaced
  obtain ⟨⟨axis, shares⟩, ⟨node, hnode, hsharing⟩, area, harea, hgap⟩ := hplaced
  cases node with
  | leaf tab => cases hsharing
  | split axis slots =>
    cases hsharing
    rw [getElem?_gapDividers] at hgap
    split at hgap
    · rename_i hlt
      obtain ⟨start, hstart, hsame⟩ := Option.map_eq_some_iff.1 hgap
      obtain ⟨strip, hstrip, rfl⟩ := Option.map_eq_some_iff.1 hstart
      rw [sharesOf, List.length_map] at hlt
      exact ⟨axis, slots, area, strip, hnode, harea, hlt, hstrip,
        (congrArg Divider.rect hsame).symm, (congrArg Divider.span hsame).symm⟩
    · cases hgap

theorem exists_split_of_mem_dividers (hd : d ∈ tree.dividers outer gap) :
    ∃ axis slots area before first after second,
      tree.nodeAt d.path = some (split axis slots) ∧
        tree.areaAt? gap outer d.path = some area ∧
        d.span = sharedSpan axis area gap (sharesOf slots).length ∧
        slots[d.index]? = some (before, first) ∧ slots[d.index + 1]? = some (after, second) := by
  obtain ⟨axis, slots, area, strip, hnode, harea, hlt, -, -, hspan⟩ :=
    exists_strip_of_mem_dividers hd
  exact ⟨axis, slots, area, _, _, _, _, hnode, harea, hspan,
    List.getElem?_eq_getElem (Nat.lt_of_succ_lt hlt), List.getElem?_eq_getElem hlt⟩

theorem not_leadsBeside_self (path : List Nat) (index : Nat) : ¬LeadsBeside path index path := by
  rintro (hbefore | hafter)
  · simpa using hbefore.length_le
  · simpa using hafter.length_le

theorem followsPull_of_edit {axis : Axis} {slots : List (PaneTree Rat × Rat)}
    {before after moved : PaneTree Rat} {area : Rect Rat} {first second delta : Rat}
    (hd : d ∈ tree.dividers outer gap)
    (harea : tree.areaAt? gap outer d.path = some area)
    (hbefore : slots[d.index]? = some (before, first))
    (hafter : slots[d.index + 1]? = some (after, second)) (hfirst : 0 < first)
    (hsecond : 0 < second)
    (hedit : Rewrites (split axis slots)
      (split axis (pulledSlots slots d.index before after first second delta)) d.path tree moved)
    (houtline : moved.outline = tree.outline) :
    FollowsPull moved tree gap outer d
      (sharedSpan axis area gap (sharesOf slots).length * (pulled first second delta - first)) := by
  have hborders : moved.borders = tree.borders := by
    rw [← borders_outline, houtline, borders_outline]
  have hplaced {border : List Nat × Nat} (hborder : ¬LeadsBeside d.path d.index border.1) :=
    dividerOf?_pulled hbefore hafter hfirst hsecond hedit harea hborder
  have hmem {found : Divider Rat} (hfound : found ∈ tree.dividers outer gap) :
      found.address ∈ moved.borders := by
    rw [hborders, ← map_address_dividers gap tree outer]
    exact List.mem_map_of_mem hfound
  have hshifted : moved.dividerOf? gap outer d.address = some (d.shifted
      (sharedSpan axis area gap (sharesOf slots).length *
        (pulled first second delta - first))) := by
    rw [hplaced (not_leadsBeside_self d.path d.index), dividerOf?_of_mem hd, Option.map_some]
    exact congrArg some (if_pos rfl)
  refine ⟨?_, fun found => ⟨?_, ?_⟩, fun other hother hne hbeside => ?_,
    fun k place hplace hbeside => ?_⟩
  · rw [map_address_dividers, map_address_dividers, hborders]
  · rintro ⟨hfound, haddress⟩
    have hsame := dividerOf?_of_mem hfound
    rw [haddress, hshifted] at hsame
    exact (Option.some.inj hsame).symm
  · rintro rfl
    exact ⟨mem_dividers_of_dividerOf? (hmem hd) hshifted, rfl⟩
  · refine mem_dividers_of_dividerOf? (hmem hother) ?_
    rw [hplaced hbeside, dividerOf?_of_mem hother, Option.map_some]
    exact congrArg some (if_neg hne)
  · exact getElem?_paneRects_congr houtline hplace
      (areaAt?_pulled hbefore hafter hfirst hsecond hedit outer hbeside)

/-- A divider that is pulled follows the pull: it moves along its axis in the direction of the pull
and at most as far, and exactly as far where the border may go there; and all that is not in one of
the two slots beside it stays where it is. -/
theorem divider_follows_pull (htree : tree.Apportioned) (hd : d ∈ tree.dividers outer gap)
    (hspan : 0 < d.span) (pixels : Rat) :
    ∃ moved shift, tree.resize d.path d.index (pixels / d.span) = .ok moved ∧
      FollowsPull moved tree gap outer d shift ∧ 0 ≤ shift * pixels ∧ |shift| ≤ |pixels| ∧
        ∀ first ∈ tree.shareAt? d.path d.index, ∀ second ∈ tree.shareAt? d.path (d.index + 1),
          PullReaches first second (pixels / d.span) → shift = pixels := by
  obtain ⟨axis, slots, area, before, first, after, second, hnode, harea, hlength, hbefore,
    hafter⟩ := exists_split_of_mem_dividers hd
  have hwhole := (apportioned_split.1 (htree.nodeAt hnode)).1
  have hfirst : 0 < first := hwhole.pos first (List.mem_map_of_mem (List.mem_of_getElem? hbefore))
  have hsecond : 0 < second := hwhole.pos second (List.mem_map_of_mem (List.mem_of_getElem? hafter))
  obtain ⟨moved, hmoved, hedit⟩ := exists_resize_eq hnode hbefore hafter (pixels / d.span)
  obtain ⟨hway, hreach⟩ := pulled_sub_bounds first second (pixels / d.span)
  have hpixels : d.span * (pixels / d.span) = pixels := mul_div_cancel₀ pixels hspan.ne'
  refine ⟨moved, d.span * (pulled first second (pixels / d.span) - first), hmoved, ?_, ?_, ?_, ?_⟩
  · rw [hlength]
    exact followsPull_of_edit hd harea hbefore hafter hfirst hsecond (hlength ▸ hedit)
      (outline_resize hmoved)
  · calc 0 ≤ d.span * d.span * ((pulled first second (pixels / d.span) - first) *
          (pixels / d.span)) := mul_nonneg (mul_self_nonneg _) hway
      _ = d.span * (pulled first second (pixels / d.span) - first) *
          (d.span * (pixels / d.span)) := by ring
      _ = d.span * (pulled first second (pixels / d.span) - first) * pixels := by rw [hpixels]
  · calc |d.span * (pulled first second (pixels / d.span) - first)| =
          d.span * |pulled first second (pixels / d.span) - first| := by
            rw [abs_mul, abs_of_pos hspan]
      _ ≤ d.span * |pixels / d.span| := mul_le_mul_of_nonneg_left hreach hspan.le
      _ = |d.span * (pixels / d.span)| := by rw [abs_mul, abs_of_pos hspan]
      _ = |pixels| := by rw [hpixels]
  · intro found hfound other hother hreaches
    rw [shareAt?_of_nodeAt hnode, hbefore] at hfound
    rw [shareAt?_of_nodeAt hnode, hafter] at hother
    cases hfound
    cases hother
    rw [pulled_eq_add hreaches.room hreaches.low hreaches.high, add_sub_cancel_left, hpixels]

def columnDivider : Divider Rat := ⟨.col, ⟨404, 360, 400, 4⟩, [1], 0, 600⟩

theorem divider_follows_pull_paneBesideColumn :
    columnDivider ∈ paneBesideColumn.dividers ⟨0, 0, 804, 604⟩ 4 ∧
      ∃ moved, paneBesideColumn.resize [1] 0 (60 / 600) = .ok moved ∧
        FollowsPull moved paneBesideColumn 4 ⟨0, 0, 804, 604⟩ columnDivider 60 := by
  have hplace : (paneBesideColumn.dividers ⟨0, 0, 804, 604⟩ 4)[1]? = some columnDivider := by
    decide +kernel
  have hd := List.mem_of_getElem? hplace
  obtain ⟨moved, shift, hmoved, hfollows, -, -, hreach⟩ :=
    divider_follows_pull apportioned_paneBesideColumn hd (show (0 : Rat) < 600 by norm_num) 60
  have hshift : shift = 60 := hreach (3 / 5) rfl (2 / 5) rfl
    ⟨by decide +kernel, by decide +kernel, by decide +kernel⟩
  exact ⟨hd, moved, hmoved, hshift ▸ hfollows⟩

end Following

end PaneTree

end PaneTiling
