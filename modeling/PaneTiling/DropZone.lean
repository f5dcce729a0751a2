import PaneTiling.Navigation

/-!
Drop zones: where a tab dropped at a point would open a pane. The outer quarters of a pane are live,
and a point in a corner belongs to the left or right quarter.
-/

namespace PaneTiling

variable {α : Type} [Scalar α]

/-- The part of a pane's width or height that its live edges take. -/
def edgeMargin : α := 0.25

/-- The side for a point given as fractions of a pane's width and height. -/
def Side.ofPoint? (x y : α) : Option Side :=
  if x < edgeMargin then some .left
  else if 1.0 - edgeMargin < x then some .right
  else if y < edgeMargin then some .top
  else if 1.0 - edgeMargin < y then some .bottom
  else none

structure DropZone (α : Type) where
  anchor : TabId
  side : Side
  /-- The half of the anchor's pane that the dropped tab is to take. -/
  preview : Rect α
deriving BEq, Repr, Inhabited

/-- The panes that are shown: those of the tree, or the active tab alone on the whole area. -/
def shownPanes (tree : Option (PaneTree α)) (active : TabId) (area : Rect α) (gap : α) :
    List (TabId × Rect α) :=
  match tree with
  | some tree => tree.paneRects gap area
  | none => [(active, area)]

/-- The drop zone at a point. A full tree has none. -/
def DropZone.at? (tree : Option (PaneTree α)) (active : TabId) (area : Rect α) (gap x y : α) :
    Option (DropZone α) :=
  if tree.any (maxPanes ≤ ·.leafCount) then none
  else do
    let (anchor, rect) ←
      (shownPanes tree active area gap).find? fun (_, rect) => rect.Contains x y
    if rect.w ≤ 0 ∨ rect.h ≤ 0 then none
    else
      let side ← Side.ofPoint? (Scalar.clamp ((x - rect.x) / rect.w) 0 1)
        (Scalar.clamp ((y - rect.y) / rect.h) 0 1)
      return ⟨anchor, side, rect.half side⟩

end PaneTiling
