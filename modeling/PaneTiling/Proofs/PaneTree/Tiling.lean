import PaneTiling.Proofs.PaneTree.Shares
import PaneTiling.Projection

/-!
Panes and dividers tile the area they are laid out in, read over exact numbers: as long as every
split has room for its gaps, each point of the area lies in exactly one pane or divider, and no
other point lies in any. Along its axis a split is cut from its start to its finish into strips and
gaps in turn; across it, every strip and every gap reaches as far as the split.
-/

namespace PaneTiling

def Axis.coordinate (axis : Axis) (x y : Rat) : Rat :=
  match axis with
  | .row => x
  | .col => y

namespace Rect

/-- A point is level with a rectangle if it is in it but for its coordinate along the axis. -/
def IsLevel (r : Rect Rat) (axis : Axis) (x y : Rat) : Prop :=
  match axis with
  | .row => r.y ≤ y ∧ y < r.bottom
  | .col => r.x ≤ x ∧ x < r.right

instance (r : Rect Rat) (axis : Axis) (x y : Rat) : Decidable (r.IsLevel axis x y) := by
  unfold IsLevel
  split <;> infer_instance

theorem contains_iff {r : Rect Rat} (axis : Axis) {x y : Rat} :
    r.Contains x y ↔ ((r.extent axis).1 ≤ axis.coordinate x y ∧
      axis.coordinate x y < r.finish axis) ∧ r.IsLevel axis x y := by
  cases axis with
  | row => exact and_assoc.symm
  | col => exact and_assoc.symm.trans and_comm

theorem lt_add_max_zero {start length point : Rat} (h : start ≤ point) :
    point < start + max length 0 ↔ point < start + length := by
  rcases le_total length 0 with hlength | hlength
  · rw [max_eq_right hlength]
    exact iff_of_false (by linarith) (by linarith)
  · rw [max_eq_left hlength]

section Strips

variable (r : Rect Rat) (axis : Axis) (start size : Rat)

theorem start_strip : ((r.strip axis start size).extent axis).1 = start := by
  cases axis <;> rfl

theorem finish_strip : (r.strip axis start size).finish axis = start + max size 0 := by
  cases axis <;> rfl

theorem isLevel_strip {x y : Rat} : (r.strip axis start size).IsLevel axis x y ↔
    r.IsLevel axis x y := by
  cases axis with
  | row => exact and_congr_right lt_add_max_zero
  | col => exact and_congr_right lt_add_max_zero

theorem contains_strip {x y : Rat} : (r.strip axis start size).Contains x y ↔
    (start ≤ axis.coordinate x y ∧ axis.coordinate x y < start + max size 0) ∧
      r.IsLevel axis x y := by
  rw [contains_iff axis, start_strip, finish_strip, isLevel_strip]

end Strips

end Rect

theorem isHit_gap_iff {axis : Axis} {outer before : Rect Rat} {gap : Rat} (hgap : 0 ≤ gap)
    {path : List Nat} {index : Nat} {span x y : Rat} :
    (⟨axis, outer.strip axis (before.finish axis) gap, path, index, span⟩ : Divider Rat).IsHit
        x y 0 ↔
      (before.finish axis ≤ axis.coordinate x y ∧
        axis.coordinate x y < before.finish axis + gap) ∧ outer.IsLevel axis x y := by
  rw [← max_eq_left hgap, ← Rect.contains_strip, max_eq_left hgap]
  cases axis with
  | row => simp only [Divider.IsHit, sub_zero, add_zero, Rect.Contains]
  | col => simp only [Divider.IsHit, sub_zero, add_zero, Rect.Contains]

section Strips

def within (start finish point : Rat) : Nat := if start ≤ point ∧ point < finish then 1 else 0

theorem within_add_within {start mid finish : Rat} (hstart : start ≤ mid) (hfinish : mid ≤ finish)
    (point : Rat) :
    within start mid point + within mid finish point = within start finish point := by
  unfold within
  rcases lt_or_ge point mid with hpoint | hpoint
  · have hbefore : point < finish := hpoint.trans_le hfinish
    simp [hpoint, hbefore, not_le.2 hpoint]
  · have hafter : start ≤ point := hstart.trans hpoint
    simp [hpoint, hafter, not_lt.2 hpoint]

variable {span gap finish : Rat}

theorem layStrips_cons {rest : List Rat} (h : rest ≠ []) (share offset : Rat) :
    layStrips span gap finish offset (share :: rest) =
      (offset, span * share) ::
        layStrips span gap finish (offset + (span * share + gap)) rest := by
  cases rest with
  | nil => exact absurd rfl h
  | cons next others => rfl

theorem countP_layStrips (point : Rat) (hspan : 0 ≤ span) (hgap : 0 ≤ gap) :
    (shares : List Rat) → (offset : Rat) → (∀ share ∈ shares, 0 < share) →
      offset + span * shares.sum + gap * ((shares.length - 1 : Nat) : Rat) = finish →
      (layStrips span gap finish offset shares).countP
          (fun strip => strip.1 ≤ point ∧ point < strip.1 + max strip.2 0) +
        (layStrips span gap finish offset shares).dropLast.countP
          (fun strip => strip.1 + max strip.2 0 ≤ point ∧ point < strip.1 + max strip.2 0 + gap) =
      within offset finish point
  | [], offset, _, hfinish => by
    have hempty : offset = finish := by simpa using hfinish
    simp [layStrips, within, hempty]
  | [share], offset, hpos, hfinish => by
    have hshare : 0 < share := hpos share List.mem_cons_self
    have hsize : 0 ≤ finish - offset := by
      have hscaled : 0 ≤ span * share := mul_nonneg hspan hshare.le
      simp at hfinish
      linarith
    simp [layStrips, within, hsize]
  | share :: next :: rest, offset, hpos, hfinish => by
    rw [List.forall_mem_cons] at hpos
    have hsize : 0 ≤ span * share := mul_nonneg hspan hpos.1.le
    have hothers : 0 ≤ span * (next :: rest).sum :=
      mul_nonneg hspan (List.sum_nonneg fun part hpart => (hpos.2 part hpart).le)
    have hgaps : 0 ≤ gap * (rest.length : Rat) := mul_nonneg hgap (Nat.cast_nonneg _)
    simp only [List.length_cons, Nat.add_sub_cancel, List.sum_cons, Nat.cast_add, Nat.cast_one]
      at hfinish hothers
    have hlater := countP_layStrips point hspan hgap (next :: rest)
      (offset + (span * share + gap)) hpos.2
      (by simp only [List.length_cons, Nat.add_sub_cancel, List.sum_cons]; linarith)
    have hne : layStrips span gap finish (offset + (span * share + gap)) (next :: rest) ≠ [] := by
      rw [← List.length_pos_iff, length_layStrips]
      exact Nat.succ_pos _
    have hstrip := within_add_within (show offset ≤ offset + span * share by linarith)
      (show offset + span * share ≤ offset + (span * share + gap) by linarith) point
    have hrest := within_add_within (show offset ≤ offset + (span * share + gap) by linarith)
      (show offset + (span * share + gap) ≤ finish by linarith) point
    rw [layStrips_cons (List.cons_ne_nil next rest), List.dropLast_cons_of_ne_nil hne,
      List.countP_cons, List.countP_cons]
    simp only [max_eq_left hsize, decide_eq_true_eq, add_assoc offset]
    unfold within at hlater hstrip hrest ⊢
    omega

theorem countP_mapIdx {β γ : Type} {f : Nat → β → γ} {p : γ → Bool} {q : β → Bool}
    (h : ∀ index item, p (f index item) = q item) (items : List β) :
    (items.mapIdx f).countP p = items.countP q := by
  have hsame : (p ∘ fun item : β × Nat => f item.2 item.1) = q ∘ Prod.fst := by
    funext item
    exact h item.2 item.1
  rw [List.mapIdx_eq_zipIdx_map, List.countP_map, hsame, ← List.countP_map, List.zipIdx_map_fst]

theorem slotRects_eq (axis : Axis) (outer : Rect Rat) (gap : Rat) (shares : List Rat) :
    slotRects axis outer gap shares =
      (layStrips (sharedSpan axis outer gap shares.length) gap (outer.finish axis)
        (outer.extent axis).1 shares).map fun strip => outer.strip axis strip.1 strip.2 := by
  cases axis <;> rfl

theorem gapDividers_eq (axis : Axis) (outer : Rect Rat) (gap : Rat) (path : List Nat)
    (rects : List (Rect Rat)) :
    gapDividers axis outer gap path rects = rects.dropLast.mapIdx fun index before =>
      ⟨axis, outer.strip axis (before.finish axis) gap, path, index,
        sharedSpan axis outer gap rects.length⟩ := by
  cases axis <;> rfl

variable {axis : Axis} {outer : Rect Rat} {x y : Rat}

theorem countP_contains_slotRects (shares : List Rat) :
    (slotRects axis outer gap shares).countP (fun rect => rect.Contains x y) =
      (layStrips (sharedSpan axis outer gap shares.length) gap (outer.finish axis)
        (outer.extent axis).1 shares).countP fun strip =>
          (strip.1 ≤ axis.coordinate x y ∧ axis.coordinate x y < strip.1 + max strip.2 0) ∧
            outer.IsLevel axis x y := by
  rw [slotRects_eq, List.countP_map]
  refine List.countP_congr fun strip _ => ?_
  simp only [Function.comp_apply, decide_eq_true_eq]
  exact outer.contains_strip axis strip.1 strip.2

theorem countP_isHit_gapDividers (hgap : 0 ≤ gap) (path : List Nat) (shares : List Rat) :
    (gapDividers axis outer gap path (slotRects axis outer gap shares)).countP
        (fun divider => divider.IsHit x y 0) =
      (layStrips (sharedSpan axis outer gap shares.length) gap (outer.finish axis)
        (outer.extent axis).1 shares).dropLast.countP fun strip =>
          (strip.1 + max strip.2 0 ≤ axis.coordinate x y ∧
            axis.coordinate x y < strip.1 + max strip.2 0 + gap) ∧ outer.IsLevel axis x y := by
  have hhit (index : Nat) (before : Rect Rat) : decide ((⟨axis, outer.strip axis
      (before.finish axis) gap, path, index,
        sharedSpan axis outer gap (slotRects axis outer gap shares).length⟩ : Divider Rat).IsHit
          x y 0) =
      decide ((before.finish axis ≤ axis.coordinate x y ∧
        axis.coordinate x y < before.finish axis + gap) ∧ outer.IsLevel axis x y) :=
    decide_eq_decide.2 (isHit_gap_iff hgap)
  rw [gapDividers_eq, countP_mapIdx hhit, slotRects_eq, ← List.map_dropLast, List.countP_map]
  refine List.countP_congr fun strip _ => ?_
  simp only [Function.comp_apply, Rect.finish_strip]

theorem countP_slotRects {shares : List Rat} (hgap : 0 ≤ gap) (hwhole : PaneTree.Whole shares)
    (hroom : gap * ((shares.length - 1 : Nat) : Rat) ≤ (outer.extent axis).2) (path : List Nat) :
    (slotRects axis outer gap shares).countP (fun rect => rect.Contains x y) +
        (gapDividers axis outer gap path (slotRects axis outer gap shares)).countP
          (fun divider => divider.IsHit x y 0) =
      if outer.Contains x y then 1 else 0 := by
  rw [countP_contains_slotRects, countP_isHit_gapDividers hgap]
  by_cases hlevel : outer.IsLevel axis x y
  · have hspan : sharedSpan axis outer gap shares.length =
        (outer.extent axis).2 - gap * ((shares.length - 1 : Nat) : Rat) :=
      max_eq_left (sub_nonneg.2 hroom)
    have hfinish : (outer.extent axis).1 + (outer.extent axis).2 = outer.finish axis := by
      cases axis <;> rfl
    have hend : (outer.extent axis).1 + sharedSpan axis outer gap shares.length * shares.sum +
        gap * ((shares.length - 1 : Nat) : Rat) = outer.finish axis := by
      rw [hspan, hwhole.sum_eq]
      linarith
    have hstrips := countP_layStrips (axis.coordinate x y) (hspan ▸ sub_nonneg.2 hroom) hgap shares
      (outer.extent axis).1 hwhole.pos hend
    simp only [hlevel, and_true, hstrips, within, Rect.contains_iff axis]
  · simp [hlevel, Rect.contains_iff axis]

end Strips

namespace PaneTree

mutual

/-- Each split of a tree that is laid out in a rectangle has room for the gaps between its slots. -/
def HasRoom (gap : Rat) (tree : PaneTree Rat) (outer : Rect Rat) : Prop :=
  match tree with
  | leaf _ => True
  | split axis slots =>
    gap * ((slots.length - 1 : Nat) : Rat) ≤ (outer.extent axis).2 ∧
      SlotsHaveRoom gap slots (slotRects axis outer gap (sharesOf slots))

def SlotsHaveRoom (gap : Rat) (slots : List (PaneTree Rat × Rat)) (rects : List (Rect Rat)) :
    Prop :=
  match slots, rects with
  | (tree, _) :: rest, rect :: rects => tree.HasRoom gap rect ∧ SlotsHaveRoom gap rest rects
  | _, _ => True

end

/-- How many panes and dividers of a tree that stands at `path` a point lies in. -/
def hits (gap : Rat) (path : List Nat) (tree : PaneTree Rat) (outer : Rect Rat) (x y : Rat) : Nat :=
  (tree.paneRects gap outer).countP (fun pane => pane.2.Contains x y) +
    (dividersAt gap path tree outer).countP (fun divider => divider.IsHit x y 0)

theorem hits_slots {gap x y : Rat} (path : List Nat) (slots : List (PaneTree Rat × Rat))
    (rects : List (Rect Rat)) (index : Nat) (hlength : rects.length = slots.length)
    (hroom : SlotsHaveRoom gap slots rects)
    (htrees : ∀ slot ∈ slots, ∀ path rect, slot.1.HasRoom gap rect →
      hits gap path slot.1 rect x y = if rect.Contains x y then 1 else 0) :
    (slotPaneRects gap slots rects).countP (fun pane => pane.2.Contains x y) +
        (slotDividers gap path index slots rects).countP (fun divider => divider.IsHit x y 0) =
      rects.countP (fun rect => rect.Contains x y) := by
  induction slots generalizing rects index with
  | nil =>
    rw [List.eq_nil_of_length_eq_zero hlength]
    rfl
  | cons slot rest ih =>
    cases rects with
    | nil => simp at hlength
    | cons rect rects =>
      rw [SlotsHaveRoom] at hroom
      rw [List.forall_mem_cons] at htrees
      have hfirst := htrees.1 (path ++ [index]) rect hroom.1
      have hrest := ih rects (index + 1) (by simpa using hlength) hroom.2 htrees.2
      rw [slotPaneRects, slotDividers, List.countP_append, List.countP_append, List.countP_cons]
      rw [hits] at hfirst
      simp only [decide_eq_true_eq]
      omega

theorem hits_eq {gap x y : Rat} (hgap : 0 ≤ gap) {tree : PaneTree Rat} (htree : tree.Apportioned)
    (path : List Nat) (outer : Rect Rat) (hroom : tree.HasRoom gap outer) :
    hits gap path tree outer x y = if outer.Contains x y then 1 else 0 := by
  induction tree using PaneTree.induction generalizing path outer with
  | leaf tab =>
    rw [hits, paneRects, dividersAt]
    simp
  | split axis slots ih =>
    rw [apportioned_split] at htree
    rw [HasRoom] at hroom
    have hlevel := countP_slotRects (x := x) (y := y) hgap htree.1
      (by simpa [sharesOf] using hroom.1) path
    have hslots := hits_slots path slots _ 0 (by simp [length_slotRects, sharesOf])
      hroom.2 fun slot hslot path rect hrect => ih slot hslot (htree.2 slot hslot) path rect hrect
    rw [hits, paneRects, dividersAt, List.countP_append]
    omega

/-- Panes and dividers tile the area: where every split has room for its gaps, a point of the area
lies in exactly one of them, and any other point in none. -/
theorem panes_and_dividers_tile {tree : PaneTree Rat} {gap : Rat} {outer : Rect Rat}
    (htree : tree.Apportioned) (hgap : 0 ≤ gap) (hroom : tree.HasRoom gap outer) (x y : Rat) :
    (tree.paneRects gap outer).countP (fun pane => pane.2.Contains x y) +
        (tree.dividers outer gap).countP (fun divider => divider.IsHit x y 0) =
      if outer.Contains x y then 1 else 0 :=
  hits_eq hgap htree [] outer hroom

def paneBesideColumn : PaneTree Rat :=
  split .row [(leaf ⟨"a"⟩, 1 / 2), (split .col [(leaf ⟨"b"⟩, 3 / 5), (leaf ⟨"c"⟩, 2 / 5)], 1 / 2)]

theorem apportioned_paneBesideColumn : paneBesideColumn.Apportioned := by
  have hcolumn : Whole [(3 / 5 : Rat), 2 / 5] := ⟨by norm_num, by norm_num⟩
  have hrow : Whole [(1 / 2 : Rat), 1 / 2] := ⟨by norm_num, by norm_num⟩
  exact ⟨hrow, trivial, ⟨hcolumn, trivial, trivial, trivial⟩, trivial⟩

theorem hasRoom_paneBesideColumn : paneBesideColumn.HasRoom 4 ⟨0, 0, 804, 604⟩ := by
  have hrow : (4 : Rat) * ((2 - 1 : Nat) : Rat) ≤ 804 := by norm_num
  have hcolumn : (4 : Rat) * ((2 - 1 : Nat) : Rat) ≤ 604 := by norm_num
  exact ⟨hrow, trivial, ⟨hcolumn, trivial, trivial, trivial⟩, trivial⟩

theorem panes_and_dividers_tile_paneBesideColumn :
    paneBesideColumn.Apportioned ∧ (0 : Rat) ≤ 4 ∧ paneBesideColumn.HasRoom 4 ⟨0, 0, 804, 604⟩ ∧
      (paneBesideColumn.paneRects 4 ⟨0, 0, 804, 604⟩).countP (fun pane => pane.2.Contains 500 361) +
        (paneBesideColumn.dividers ⟨0, 0, 804, 604⟩ 4).countP (fun divider =>
          divider.IsHit 500 361 0) = 1 :=
  ⟨apportioned_paneBesideColumn, by norm_num, hasRoom_paneBesideColumn,
    (panes_and_dividers_tile apportioned_paneBesideColumn (by norm_num) hasRoom_paneBesideColumn
      500 361).trans (if_pos (by decide +kernel))⟩

end PaneTree

end PaneTiling
