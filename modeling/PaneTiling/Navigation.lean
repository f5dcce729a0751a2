import PaneTiling.Projection

/-!
Finding panes and dividers by position: under a point, or next to a pane in some direction.
-/

namespace PaneTiling

variable {α : Type} [Scalar α]

def tabAt (rects : List (TabId × Rect α)) (x y : α) : Option TabId :=
  (rects.find? fun (_, rect) => rect.Contains x y).map (·.1)

def dividerAt (dividers : List (Divider α)) (x y padding : α) : Option (Divider α) :=
  dividers.find? fun d => d.IsHit x y padding

inductive Heading
  | left
  | right
  | up
  | down
deriving DecidableEq, Repr, Inhabited

namespace Heading

/-- Whether `there` lies strictly in this direction from `here`. -/
def Leads (heading : Heading) (here there : α × α) : Prop :=
  match heading with
  | .left => there.1 < here.1
  | .right => here.1 < there.1
  | .up => there.2 < here.2
  | .down => here.2 < there.2

instance (heading : Heading) (here there : α × α) : Decidable (heading.Leads here there) := by
  unfold Leads
  split <;> infer_instance

def distance (heading : Heading) (here there : α × α) : α :=
  let dx := Scalar.abs (there.1 - here.1)
  let dy := Scalar.abs (there.2 - here.2)
  match heading with
  | .left | .right => dx + dy * 2.0
  | .up | .down => dy + dx * 2.0

end Heading

/-- Of two candidates with their distances the nearer one; of two equally near ones the first. -/
def nearer (best : Option (TabId × α)) (tab : TabId) (distance : α) : Option (TabId × α) :=
  match best with
  | none => some (tab, distance)
  | some (_, least) => if distance < least then some (tab, distance) else best

/-- The nearest pane in a direction from the pane of `origin`, measured between centres. -/
def nearestTab (rects : List (TabId × Rect α)) (origin : TabId) (heading : Heading) :
    Option TabId := do
  let (_, home) ← rects.find? (·.1 = origin)
  let best := rects.foldl (fun best (tab, rect) =>
    if tab ≠ origin ∧ heading.Leads home.center rect.center then
      nearer best tab (heading.distance home.center rect.center)
    else best) none
  return (← best).1

end PaneTiling
