import PaneTiling.Scalar

/-!
Axes, sides and pixel rectangles. A rectangle owns its left and top edges but not its right and
bottom ones, so that rectangles laid edge to edge share no point.
-/

namespace PaneTiling

/-- How a split lays out its panes: in a row from left to right, or in a column downwards. -/
inductive Axis
  | row
  | col
deriving DecidableEq, Repr, Inhabited

inductive Side
  | left
  | right
  | top
  | bottom
deriving DecidableEq, Repr, Inhabited

namespace Side

def axis : Side → Axis
  | left | right => .row
  | top | bottom => .col

def isBefore : Side → Bool
  | left | top => true
  | right | bottom => false

end Side

structure Rect (α : Type) where
  x : α
  y : α
  w : α
  h : α
deriving BEq, DecidableEq, Repr, Inhabited

namespace Rect

variable {α : Type} [Scalar α]

/-- A rectangle whose negative extents are taken as none. -/
def clamped (x y w h : α) : Rect α := ⟨x, y, max w 0, max h 0⟩

def right (r : Rect α) : α := r.x + r.w

def bottom (r : Rect α) : α := r.y + r.h

def center (r : Rect α) : α × α := (r.x + r.w / 2.0, r.y + r.h / 2.0)

def Contains (r : Rect α) (x y : α) : Prop :=
  r.x ≤ x ∧ x < r.right ∧ r.y ≤ y ∧ y < r.bottom

instance (r : Rect α) (x y : α) : Decidable (r.Contains x y) :=
  inferInstanceAs (Decidable (_ ∧ _ ∧ _ ∧ _))

def half (r : Rect α) : Side → Rect α
  | .left => clamped r.x r.y (r.w / 2.0) r.h
  | .right => clamped (r.x + r.w / 2.0) r.y (r.w / 2.0) r.h
  | .top => clamped r.x r.y r.w (r.h / 2.0)
  | .bottom => clamped r.x (r.y + r.h / 2.0) r.w (r.h / 2.0)

end Rect

end PaneTiling
