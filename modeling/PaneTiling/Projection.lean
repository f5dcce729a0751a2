import PaneTiling.PaneTree.Basic

/-!
Where the panes of a tree lie. A split cuts its rectangle along its axis into one strip per slot,
with a divider in each gap between two strips. The last strip takes what is left, so that the strips
and the gaps end exactly where the rectangle ends.
-/

namespace PaneTiling

variable {α : Type} [Scalar α]

namespace Rect

def extent (r : Rect α) : Axis → α × α
  | .row => (r.x, r.w)
  | .col => (r.y, r.h)

def strip (r : Rect α) (axis : Axis) (start size : α) : Rect α :=
  match axis with
  | .row => clamped start r.y size r.h
  | .col => clamped r.x start r.w size

def finish (r : Rect α) : Axis → α
  | .row => r.right
  | .col => r.bottom

end Rect

def layStrips (span gap finish offset : α) : List α → List (α × α)
  | [] => []
  | [_] => [(offset, max (finish - offset) 0)]
  | share :: rest =>
    (offset, span * share) :: layStrips span gap finish (offset + (span * share + gap)) rest

theorem length_layStrips (span gap finish : α) (shares : List α) (offset : α) :
    (layStrips span gap finish offset shares).length = shares.length := by
  fun_induction layStrips span gap finish offset shares <;> simp_all

/-- The pixels that the slots of a split share along its axis: its length less the gaps. -/
def sharedSpan (axis : Axis) (outer : Rect α) (gap : α) (slotCount : Nat) : α :=
  max ((outer.extent axis).2 - gap * ((slotCount - 1 : Nat) : α)) 0

def slotRects (axis : Axis) (outer : Rect α) (gap : α) (shares : List α) : List (Rect α) :=
  let (start, length) := outer.extent axis
  let span := sharedSpan axis outer gap shares.length
  (layStrips span gap (start + length) start shares).map fun (offset, size) =>
    outer.strip axis offset size

theorem length_slotRects (axis : Axis) (outer : Rect α) (gap : α) (shares : List α) :
    (slotRects axis outer gap shares).length = shares.length := by
  simp [slotRects, length_layStrips]

/-- A handle between two neighbouring slots of a split. -/
structure Divider (α : Type) where
  axis : Axis
  rect : Rect α
  /-- Slot numbers that lead to the split. -/
  path : List Nat
  /-- The slot before the divider. -/
  index : Nat
  /-- Dragging the divider this far moves a share by one. -/
  span : α
deriving BEq, Repr, Inhabited

namespace Divider

/-- A divider is easier to hit than to see: it is wider by `padding` on both of its long sides. -/
def IsHit (d : Divider α) (x y padding : α) : Prop :=
  match d.axis with
  | .row =>
    d.rect.x - padding ≤ x ∧ x < d.rect.right + padding ∧ d.rect.y ≤ y ∧ y < d.rect.bottom
  | .col =>
    d.rect.x ≤ x ∧ x < d.rect.right ∧ d.rect.y - padding ≤ y ∧ y < d.rect.bottom + padding

instance (d : Divider α) (x y padding : α) : Decidable (d.IsHit x y padding) := by
  unfold IsHit
  split <;> infer_instance

def along (d : Divider α) (dx dy : α) : α :=
  match d.axis with
  | .row => dx
  | .col => dy

end Divider

/-- The dividers in the gaps after all slots of a split but the last. -/
def gapDividers (axis : Axis) (outer : Rect α) (gap : α) (path : List Nat) (rects : List (Rect α)) :
    List (Divider α) :=
  rects.dropLast.mapIdx fun index before =>
    let rect := match axis with
      | .row => Rect.clamped before.right outer.y gap outer.h
      | .col => Rect.clamped outer.x before.bottom outer.w gap
    ⟨axis, rect, path, index, sharedSpan axis outer gap rects.length⟩

namespace PaneTree

mutual

def paneRects (gap : α) (tree : PaneTree α) (outer : Rect α) : List (TabId × Rect α) :=
  match tree with
  | leaf tab => [(tab, outer)]
  | split axis slots => slotPaneRects gap slots (slotRects axis outer gap (sharesOf slots))

def slotPaneRects (gap : α) (slots : List (PaneTree α × α)) (rects : List (Rect α)) :
    List (TabId × Rect α) :=
  match slots, rects with
  | (tree, _) :: rest, rect :: rects => paneRects gap tree rect ++ slotPaneRects gap rest rects
  | _, _ => []

end

theorem map_fst_slotPaneRects (gap : α) (slots : List (PaneTree α × α)) (rects : List (Rect α))
    (hlength : rects.length = slots.length)
    (htrees : ∀ slot ∈ slots, ∀ rect, (paneRects gap slot.1 rect).map (·.1) = slot.1.tabIds) :
    (slotPaneRects gap slots rects).map (·.1) = slotTabIds slots := by
  induction slots generalizing rects with
  | nil => simp [slotPaneRects, slotTabIds]
  | cons slot rest ih =>
    cases rects with
    | nil => simp at hlength
    | cons rect rects =>
      have hrest := ih rects (by simpa using hlength) fun s hs => htrees s (by simp [hs])
      simp [slotPaneRects, slotTabIds, htrees slot (by simp) rect, hrest]

theorem map_fst_paneRects (gap : α) (tree : PaneTree α) (outer : Rect α) :
    (tree.paneRects gap outer).map (·.1) = tree.tabIds := by
  induction tree using PaneTree.induction generalizing outer with
  | leaf tab => simp [paneRects, tabIds]
  | split axis slots ih =>
    rw [paneRects, tabIds]
    exact map_fst_slotPaneRects gap slots _ (by simp [length_slotRects, sharesOf]) ih

mutual

/-- The dividers of a tree that stands at `path`, those of a split before those within its slots. -/
def dividersAt (gap : α) (path : List Nat) (tree : PaneTree α) (outer : Rect α) :
    List (Divider α) :=
  match tree with
  | leaf _ => []
  | split axis slots =>
    let rects := slotRects axis outer gap (sharesOf slots)
    gapDividers axis outer gap path rects ++ slotDividers gap path 0 slots rects

def slotDividers (gap : α) (path : List Nat) (index : Nat) (slots : List (PaneTree α × α))
    (rects : List (Rect α)) : List (Divider α) :=
  match slots, rects with
  | (tree, _) :: rest, rect :: rects =>
    dividersAt gap (path ++ [index]) tree rect ++ slotDividers gap path (index + 1) rest rects
  | _, _ => []

end

def dividers (tree : PaneTree α) (outer : Rect α) (gap : α) : List (Divider α) :=
  dividersAt gap [] tree outer

end PaneTree

end PaneTiling
