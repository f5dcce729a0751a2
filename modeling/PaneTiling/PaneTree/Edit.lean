import PaneTiling.PaneTree.Basic

/-!
Editing a pane tree: putting a tab beside a leaf, taking a leaf out, and moving the border between
two slots. An edit that is not possible says so and gives no tree.
-/

namespace PaneTiling.PaneTree

variable {α : Type} [Scalar α]

def pair (anchor new : TabId) (side : Side) : PaneTree α :=
  if side.isBefore then split side.axis [(leaf new, 0.5), (leaf anchor, 0.5)]
  else split side.axis [(leaf anchor, 0.5), (leaf new, 0.5)]

mutual

def attach (anchor new : TabId) (side : Side) : PaneTree α → Option (PaneTree α)
  | leaf tab => if tab = anchor then some (pair anchor new side) else none
  | split axis slots => (attachSlot anchor new side axis slots).map (split axis)

/-- In a split along the side's axis the anchor gives half of its share to a new slot beside it; in
any other split, a pair takes the anchor's place. -/
def attachSlot (anchor new : TabId) (side : Side) (axis : Axis) :
    List (PaneTree α × α) → Option (List (PaneTree α × α))
  | [] => none
  | (tree, share) :: rest =>
    if tree.asTab? = some anchor ∧ axis = side.axis then
      if side.isBefore then some ((leaf new, share / 2.0) :: (tree, share / 2.0) :: rest)
      else some ((tree, share / 2.0) :: (leaf new, share / 2.0) :: rest)
    else
      match attach anchor new side tree with
      | some grown => some ((grown, share) :: rest)
      | none => (attachSlot anchor new side axis rest).map ((tree, share) :: ·)

end

/-- Puts `new` on a side of `anchor`. Without a tree the anchor is the only pane there is. A tab is
shown once, and a full tree takes no more. -/
def insert (root : Option (PaneTree α)) (anchor new : TabId) (side : Side) :
    Option (PaneTree α) :=
  if anchor = new then none
  else
    match root with
    | none => some (pair anchor new side)
    | some tree =>
      if maxPanes ≤ tree.leafCount ∨ new ∈ tree then none else tree.attach anchor new side

/-- The distance of one from the next larger binary64 number. Less than this is no room to share. -/
def roomThreshold : α := 1.0 / 4503599627370496.0

/-- What is left of a split grows in proportion to fill the freed share; if hardly anything is left,
it is shared out evenly. -/
def redistribute (freed : α) (slots : List (PaneTree α × α)) : List (PaneTree α × α) :=
  let remaining := 1 - freed
  if roomThreshold < remaining then
    let scale := 1 / remaining
    slots.map fun (tree, share) => (tree, share * scale)
  else
    let even := 1 / (slots.length : α)
    slots.map fun (tree, _) => (tree, even)

/-- What became of the slots of a split when a leaf was taken out: the slots that are left, and the
share that was freed if the leaf was one of them. -/
structure Vacated (α : Type) where
  slots : List (PaneTree α × α)
  freed : Option α

def Vacated.settled (v : Vacated α) : List (PaneTree α × α) :=
  match v.freed with
  | some share => redistribute share v.slots
  | none => v.slots

mutual

/-- The tree without the first leaf that shows a tab, that leaf's neighbours grown to fill the gap.
A lone leaf is not taken out of its own tree. -/
def detach (tab : TabId) : PaneTree α → Option (PaneTree α)
  | leaf _ => none
  | split axis slots => (vacate tab slots).map fun left => split axis left.settled

def vacate (tab : TabId) : List (PaneTree α × α) → Option (Vacated α)
  | [] => none
  | (tree, share) :: rest =>
    if tree.asTab? = some tab then some ⟨rest, some share⟩
    else
      match detach tab tree with
      | some shrunk => some ⟨(shrunk, share) :: rest, none⟩
      | none => (vacate tab rest).map fun left => ⟨(tree, share) :: left.slots, left.freed⟩

end

mutual

/-- A split with a single slot gives way to what that slot holds, from the leaves upwards. -/
def collapse : PaneTree α → PaneTree α
  | leaf tab => leaf tab
  | split axis slots =>
    match collapseSlots slots with
    | [(only, _)] => only
    | kept => split axis kept

def collapseSlots : List (PaneTree α × α) → List (PaneTree α × α)
  | [] => []
  | (tree, share) :: rest => (tree.collapse, share) :: collapseSlots rest

end

inductive Removal (α : Type)
  | removed (tree : PaneTree α)
  /-- Less than two panes are left: the tab that stays, if there is one, is shown on its own. -/
  | collapsed (remaining : Option TabId)
  | notFound
deriving BEq, Inhabited

def removeLeaf (tree : PaneTree α) (tab : TabId) : Removal α :=
  if tab ∉ tree then .notFound
  else if tree.leafCount ≤ 2 then .collapsed (tree.tabIds.find? (· ≠ tab))
  else
    match tree.detach tab with
    | some rest => .removed rest.collapse
    | none => .collapsed none

def remove (tree : PaneTree α) (tab : TabId) : Option (PaneTree α) :=
  match tree.removeLeaf tab with
  | .removed rest => some rest
  | .collapsed _ => none
  | .notFound => some tree

def minShare : α := 0.15

inductive ResizeError
  /-- The bounds between which a border may move can cross only where a share is not a number. -/
  | boundsCrossed
  /-- The slot after the border would have a number that is no word. -/
  | indexOverflow
deriving DecidableEq, Repr, Inhabited

/-- Moves the border between two shares by `delta`. A side that is already below the least share is
not shrunk further but may grow, and two sides that cannot both have the least share stay. -/
def moveBorder (first second delta : α) : Except ResizeError (α × α) :=
  let sum := first + second
  if sum < 2.0 * minShare then .ok (first, second)
  else
    let lower := min first minShare
    let upper := max first (sum - minShare)
    if lower ≤ upper then
      let moved := Scalar.clamp (first + delta) lower upper
      .ok (moved, sum - moved)
    else .error .boundsCrossed

/-- The last number of a slot: slots are numbered by words of 64 bits. -/
def lastIndex : Nat := Nat.pow 2 64 - 1

/-- Moves the border after slot `index`, if there is one. No split has a slot after the last index,
and there is no number to ask for it. -/
def resizeSlots (slots : List (PaneTree α × α)) (index : Nat) (delta : α) :
    Except ResizeError (List (PaneTree α × α)) :=
  match slots[index]?, slots[index + 1]? with
  | some (before, first), some (after, second) => do
    let (first, second) ← moveBorder first second delta
    return (slots.set index (before, first)).set (index + 1) (after, second)
  | _, _ => if index < lastIndex then .ok slots else .error .indexOverflow

/-- Moves the border after slot `index` of the split at `path`. A path or an index that leads to no
border, or a movement that is not a finite number, changes nothing. -/
def resize (tree : PaneTree α) (path : List Nat) (index : Nat) (delta : α) :
    Except ResizeError (PaneTree α) :=
  match tree.nodeAt path with
  | some (split axis slots) =>
    if Scalar.isFinite delta then do
      let slots ← resizeSlots slots index delta
      return (tree.modifyAt (fun _ => split axis slots) path).getD tree
    else .ok tree
  | _ => .ok tree

end PaneTiling.PaneTree
