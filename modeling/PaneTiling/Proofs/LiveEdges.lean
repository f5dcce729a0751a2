import Mathlib.Algebra.Order.Field.Basic
import PaneTiling.DropZone
import PaneTiling.Proofs.PaneTree.Resizing

/-!
Where a dragged tab may be dropped, read over exact numbers. The program asks for the fractions of a
pane at which the pointer is; here it is the distances to the edges of the pane that count, and they
need no correction as long as the pointer is in the pane. A zone is found within a quarter of a
pane's extent from one of its edges, and what it previews is the half of the pane that lies there.
-/

namespace PaneTiling

namespace Side

def opposite : Side → Side
  | left => right
  | right => left
  | top => bottom
  | bottom => top

end Side

namespace Rect

def IsSolid (r : Rect Rat) : Prop := 0 < r.w ∧ 0 < r.h

theorem IsSolid.extent_pos {r : Rect Rat} (h : r.IsSolid) (axis : Axis) :
    0 < (r.extent axis).2 := by
  cases axis
  · exact h.1
  · exact h.2

def distance (r : Rect Rat) (side : Side) (x y : Rat) : Rat :=
  match side with
  | .left => x - r.x
  | .right => r.right - x
  | .top => y - r.y
  | .bottom => r.bottom - y

/-- A point is near a side if its edge is less than a quarter of the rectangle away. -/
def IsNear (r : Rect Rat) (side : Side) (x y : Rat) : Prop :=
  r.distance side x y < (r.extent side.axis).2 / 4

/-- The side to which a point near an edge is counted: in a corner, the left or the right one. -/
def IsLive (r : Rect Rat) (side : Side) (x y : Rat) : Prop :=
  r.IsNear side x y ∧ (side.axis = .col → ¬r.IsNear .left x y ∧ ¬r.IsNear .right x y)

/-- A point lies on the side of the middle line, which itself lies on the right or at the bottom. -/
def IsOnSide (r : Rect Rat) (side : Side) (x y : Rat) : Prop :=
  if side.isBefore then r.distance side x y < (r.extent side.axis).2 / 2
  else r.distance side x y ≤ (r.extent side.axis).2 / 2

/-- One rectangle is the half of another on a side: it has half of its area, and those points of it
that lie on that side. -/
structure IsHalf (half r : Rect Rat) (side : Side) : Prop where
  area : 2 * (half.w * half.h) = r.w * r.h
  contains_iff : ∀ x y, half.Contains x y ↔ r.Contains x y ∧ r.IsOnSide side x y

variable {r : Rect Rat} {side : Side} {x y : Rat}

theorem isSolid_of_contains (h : r.Contains x y) : r.IsSolid := by
  obtain ⟨hleft, hright, htop, hbottom⟩ := h
  exact ⟨by linarith [show x < r.x + r.w from hright],
    by linarith [show y < r.y + r.h from hbottom]⟩

theorem distance_add_opposite (r : Rect Rat) (side : Side) (x y : Rat) :
    r.distance side x y + r.distance side.opposite x y = (r.extent side.axis).2 := by
  cases side <;> simp only [distance, Side.opposite, Side.axis, extent, right, bottom] <;> ring

theorem IsNear.not_opposite (h : r.IsNear side x y) (hsolid : r.IsSolid) :
    ¬r.IsNear side.opposite x y := by
  intro hopposite
  have hsum := r.distance_add_opposite side x y
  have hpos := hsolid.extent_pos side.axis
  have haxis : side.opposite.axis = side.axis := by cases side <;> rfl
  rw [IsNear, haxis] at hopposite
  rw [IsNear] at h
  linarith

theorem IsNear.isOnSide (h : r.IsNear side x y) (hsolid : r.IsSolid) : r.IsOnSide side x y := by
  have hpos := hsolid.extent_pos side.axis
  rw [IsNear] at h
  unfold IsOnSide
  split
  · linarith
  · linarith

theorem IsLive.unique {other : Side} (h : r.IsLive side x y) (hother : r.IsLive other x y)
    (hsolid : r.IsSolid) : other = side := by
  have hacross : r.IsNear .left x y → ¬r.IsNear .right x y := fun h => h.not_opposite hsolid
  have hdown : r.IsNear .top x y → ¬r.IsNear .bottom x y := fun h => h.not_opposite hsolid
  obtain ⟨hnear, hcorner⟩ := h
  obtain ⟨hotherNear, hotherCorner⟩ := hother
  cases side <;> cases other <;> simp_all [Side.axis]

theorem exists_isLive_iff : (∃ side, r.IsLive side x y) ↔ ∃ side, r.IsNear side x y := by
  refine ⟨fun ⟨side, hlive⟩ => ⟨side, hlive.1⟩, fun ⟨side, hnear⟩ => ?_⟩
  by_cases hleft : r.IsNear .left x y
  · exact ⟨.left, hleft, nofun⟩
  by_cases hright : r.IsNear .right x y
  · exact ⟨.right, hright, nofun⟩
  exact ⟨side, hnear, fun _ => ⟨hleft, hright⟩⟩

theorem isHalf_half (hsolid : r.IsSolid) (side : Side) : (r.half side).IsHalf r side := by
  obtain ⟨hw, hh⟩ := hsolid
  have htwo : (2.0 : Rat) = 2 := by norm_num
  have hwidth : max (r.w / 2) 0 = r.w / 2 := max_eq_left (by linarith)
  have hheight : max (r.h / 2) 0 = r.h / 2 := max_eq_left (by linarith)
  constructor
  · cases side <;>
      simp only [half, clamped, htwo, hwidth, hheight, max_eq_left hw.le, max_eq_left hh.le] <;>
      ring
  · intro x y
    cases side <;>
      simp only [half, clamped, htwo, hwidth, hheight, max_eq_left hw.le, max_eq_left hh.le,
        Contains, IsOnSide, distance, extent, right, bottom, Side.axis, Side.isBefore] <;> grind

end Rect

section Fractions

variable {start size point : Rat}

theorem clamp_fraction (hstart : start ≤ point) (hend : point < start + size) :
    Scalar.clamp ((point - start) / size) 0 1 = (point - start) / size := by
  have hsize : 0 < size := by linarith
  rw [PaneTree.clamp_rat, max_eq_left (div_nonneg (by linarith) hsize.le), min_eq_left]
  exact (div_le_one hsize).2 (by linarith)

theorem edgeMargin_eq : (edgeMargin : Rat) = 1 / 4 := by norm_num [edgeMargin]

theorem fraction_lt_margin_iff (hsize : 0 < size) :
    (point - start) / size < edgeMargin ↔ point - start < size / 4 := by
  rw [div_lt_iff₀ hsize, edgeMargin_eq, one_div_mul_eq_div]

theorem margin_lt_fraction_iff (hsize : 0 < size) :
    1.0 - edgeMargin < (point - start) / size ↔ start + size - point < size / 4 := by
  have hone : (1.0 : Rat) = 1 := by norm_num
  have hrest : (1 - 1 / 4) * size = size - size / 4 := by ring
  rw [lt_div_iff₀ hsize, edgeMargin_eq, hone, hrest]
  constructor
  · intro h
    linarith
  · intro h
    linarith

theorem ofPoint?_eq_some_iff {r : Rect Rat} {side : Side} {x y : Rat} (h : r.Contains x y) :
    Side.ofPoint? (Scalar.clamp ((x - r.x) / r.w) 0 1) (Scalar.clamp ((y - r.y) / r.h) 0 1) =
      some side ↔ r.IsLive side x y := by
  have hsolid := Rect.isSolid_of_contains h
  have hfound {live : Side} (hlive : r.IsLive live x y) :
      some live = some side ↔ r.IsLive side x y := by
    rw [Option.some_inj]
    exact ⟨fun heq => heq ▸ hlive, fun hside => hside.unique hlive hsolid⟩
  have hleft : (x - r.x) / r.w < edgeMargin ↔ r.IsNear .left x y := fraction_lt_margin_iff hsolid.1
  have hright : 1.0 - edgeMargin < (x - r.x) / r.w ↔ r.IsNear .right x y :=
    margin_lt_fraction_iff hsolid.1
  have htop : (y - r.y) / r.h < edgeMargin ↔ r.IsNear .top x y := fraction_lt_margin_iff hsolid.2
  have hbottom : 1.0 - edgeMargin < (y - r.y) / r.h ↔ r.IsNear .bottom x y :=
    margin_lt_fraction_iff hsolid.2
  rw [clamp_fraction h.1 h.2.1, clamp_fraction h.2.2.1 h.2.2.2, Side.ofPoint?]
  split
  · exact hfound ⟨hleft.1 ‹_›, nofun⟩
  split
  · exact hfound ⟨hright.1 ‹_›, nofun⟩
  -- No side is near across, so a corner need not be feared.
  rename_i hnotLeft hnotRight
  have hmiddle : ¬r.IsNear .left x y ∧ ¬r.IsNear .right x y :=
    ⟨mt hleft.2 hnotLeft, mt hright.2 hnotRight⟩
  split
  · exact hfound ⟨htop.1 ‹_›, fun _ => hmiddle⟩
  split
  · exact hfound ⟨hbottom.1 ‹_›, fun _ => hmiddle⟩
  rename_i hnotTop hnotBottom
  refine iff_of_false nofun fun hlive => ?_
  cases side with
  | left => exact hmiddle.1 hlive.1
  | right => exact hmiddle.2 hlive.1
  | top => exact hnotTop (htop.2 hlive.1)
  | bottom => exact hnotBottom (hbottom.2 hlive.1)

end Fractions

section Zones

variable {root : Option (PaneTree Rat)} {active : TabId} {area : Rect Rat} {gap x y : Rat}
  {zone : DropZone Rat}

/-- The first pane that contains a point, with its rectangle. -/
def paneAt (panes : List (TabId × Rect Rat)) (x y : Rat) : Option (TabId × Rect Rat) :=
  panes.find? fun (_, rect) => rect.Contains x y

theorem map_fst_paneAt (panes : List (TabId × Rect Rat)) (x y : Rat) :
    (paneAt panes x y).map (·.1) = tabAt panes x y := rfl

theorem contains_of_paneAt {panes : List (TabId × Rect Rat)} {pane : TabId × Rect Rat}
    (h : paneAt panes x y = some pane) : pane.2.Contains x y := by
  simpa using List.find?_some h

theorem DropZone.at?_eq_some_iff :
    DropZone.at? root active area gap x y = some zone ↔
      (∀ tree ∈ root, tree.leafCount < maxPanes) ∧
        ∃ rect, paneAt (shownPanes root active area gap) x y = some (zone.anchor, rect) ∧
          rect.IsLive zone.side x y ∧ zone.preview = rect.half zone.side := by
  have hfull : root.any (maxPanes ≤ ·.leafCount) = true ↔
      ¬∀ tree ∈ root, tree.leafCount < maxPanes := by
    cases root <;> simp
  unfold DropZone.at?
  split
  · rename_i h
    exact iff_of_false nofun fun hzone => hfull.1 h hzone.1
  rename_i h
  rw [hfull, not_not] at h
  rw [and_iff_right h, Option.bind_eq_bind, Option.bind_eq_some_iff]
  constructor
  · rintro ⟨⟨anchor, rect⟩, hpane, hzone⟩
    have hcontains : rect.Contains x y := contains_of_paneAt hpane
    have hsolid := Rect.isSolid_of_contains hcontains
    simp only [if_neg (not_or.2 ⟨hsolid.1.not_ge, hsolid.2.not_ge⟩)] at hzone
    obtain ⟨side, hside, hzone⟩ := Option.bind_eq_some_iff.1 hzone
    cases hzone
    exact ⟨rect, hpane, (ofPoint?_eq_some_iff hcontains).1 hside, rfl⟩
  · rintro ⟨rect, hpane, hlive, hpreview⟩
    have hcontains : rect.Contains x y := contains_of_paneAt hpane
    have hsolid := Rect.isSolid_of_contains hcontains
    refine ⟨(zone.anchor, rect), hpane, ?_⟩
    simp only [if_neg (not_or.2 ⟨hsolid.1.not_ge, hsolid.2.not_ge⟩)]
    rw [(ofPoint?_eq_some_iff hcontains).2 hlive]
    change some (⟨zone.anchor, zone.side, rect.half zone.side⟩ : DropZone Rat) = some zone
    rw [← hpreview]

/-- A zone is found exactly if there is room for one more pane and the point is near an edge of a
pane. It names that pane and the edge, of two edges that meet the left or the right one, and what it
previews is the half of the pane that lies there, with the point in it. -/
theorem zone_at_live_edge (root : Option (PaneTree Rat)) (active : TabId) (area : Rect Rat)
    (gap x y : Rat) :
    ((DropZone.at? root active area gap x y).isSome ↔
      (∀ tree ∈ root, tree.leafCount < 4) ∧
        ∃ tab rect, tabAt (shownPanes root active area gap) x y = some tab ∧
          paneAt (shownPanes root active area gap) x y = some (tab, rect) ∧
          ∃ side, rect.IsNear side x y) ∧
    ∀ zone ∈ DropZone.at? root active area gap x y,
      tabAt (shownPanes root active area gap) x y = some zone.anchor ∧
      ∃ rect, paneAt (shownPanes root active area gap) x y = some (zone.anchor, rect) ∧
        rect.IsLive zone.side x y ∧ zone.preview.Contains x y ∧ zone.preview.IsHalf rect zone.side ∧
        ∀ px py, zone.preview.Contains px py → rect.Contains px py := by
  refine ⟨?_, fun zone hzone => ?_⟩
  · rw [Option.isSome_iff_exists]
    constructor
    · rintro ⟨zone, hzone⟩
      obtain ⟨hroom, rect, hpane, hlive, -⟩ := DropZone.at?_eq_some_iff.1 hzone
      refine ⟨hroom, zone.anchor, rect, ?_, hpane, zone.side, hlive.1⟩
      rw [← map_fst_paneAt, hpane, Option.map_some]
    · rintro ⟨hroom, tab, rect, -, hpane, hnear⟩
      obtain ⟨side, hlive⟩ := Rect.exists_isLive_iff.2 hnear
      exact ⟨⟨tab, side, rect.half side⟩,
        DropZone.at?_eq_some_iff.2 ⟨hroom, rect, hpane, hlive, rfl⟩⟩
  · obtain ⟨-, rect, hpane, hlive, hpreview⟩ := DropZone.at?_eq_some_iff.1 hzone
    have hcontains : rect.Contains x y := contains_of_paneAt hpane
    have hsolid := Rect.isSolid_of_contains hcontains
    have hhalf : zone.preview.IsHalf rect zone.side := hpreview ▸ Rect.isHalf_half hsolid zone.side
    refine ⟨?_, rect, hpane, hlive, ?_, hhalf, fun px py h => ((hhalf.contains_iff px py).1 h).1⟩
    · rw [← map_fst_paneAt, hpane, Option.map_some]
    · exact (hhalf.contains_iff x y).2 ⟨hcontains, hlive.1.isOnSide hsolid⟩

end Zones

end PaneTiling
