import PaneTiling.Rect

/-!
Pane trees: a leaf shows one tab, a split shares its extent among slots along one axis. Any tree can
be written down; the trees that a workspace shows are the balanced ones of two to four distinct
leaves, which `isWellFormed` recognises.
-/

namespace PaneTiling

structure TabId where
  text : String
deriving DecidableEq, Repr, Inhabited

/-- Each slot of a split holds a tree and that tree's share of the split. -/
inductive PaneTree (α : Type) where
  | leaf (tab : TabId)
  | split (axis : Axis) (slots : List (PaneTree α × α))
deriving BEq

def maxPanes : Nat := 4

namespace PaneTree

variable {α : Type}

instance : Inhabited (PaneTree α) := ⟨leaf default⟩

@[elab_as_elim]
theorem induction {motive : PaneTree α → Prop} (leaf : ∀ tab, motive (leaf tab))
    (split : ∀ axis slots, (∀ slot ∈ slots, motive slot.1) → motive (split axis slots))
    (tree : PaneTree α) : motive tree :=
  PaneTree.rec (motive_1 := motive) (motive_2 := fun slots => ∀ slot ∈ slots, motive slot.1)
    (motive_3 := fun slot => motive slot.1) leaf split (by simp) (by simp +contextual)
    (fun _ _ h => h) tree

mutual

def decEq [DecidableEq α] : (a b : PaneTree α) → Decidable (a = b)
  | leaf s, leaf t => decidable_of_iff (s = t) (by simp)
  | leaf _, split _ _ => isFalse nofun
  | split _ _, leaf _ => isFalse nofun
  | split p s, split q t =>
    have := slotsDecEq s t
    decidable_of_iff (p = q ∧ s = t) (by simp)

def slotsDecEq [DecidableEq α] : (a b : List (PaneTree α × α)) → Decidable (a = b)
  | [], [] => isTrue rfl
  | [], _ :: _ => isFalse nofun
  | _ :: _, [] => isFalse nofun
  | (s, x) :: p, (t, y) :: q =>
    have := decEq s t
    have := slotsDecEq p q
    decidable_of_iff ((s = t ∧ x = y) ∧ p = q) (by simp)

end

instance [DecidableEq α] : DecidableEq (PaneTree α) := decEq

mutual

def tabIds : PaneTree α → List TabId
  | leaf tab => [tab]
  | split _ slots => slotTabIds slots

def slotTabIds : List (PaneTree α × α) → List TabId
  | [] => []
  | (tree, _) :: rest => tree.tabIds ++ slotTabIds rest

end

instance : Membership TabId (PaneTree α) := ⟨fun tree tab => tab ∈ tree.tabIds⟩

instance (tab : TabId) (tree : PaneTree α) : Decidable (tab ∈ tree) :=
  inferInstanceAs (Decidable (tab ∈ tree.tabIds))

theorem mem_def {tab : TabId} {tree : PaneTree α} : tab ∈ tree ↔ tab ∈ tree.tabIds := .rfl

theorem slotTabIds_eq_flatMap (slots : List (PaneTree α × α)) :
    slotTabIds slots = slots.flatMap (·.1.tabIds) := by
  induction slots with
  | nil => rfl
  | cons slot rest ih => simp [slotTabIds, ih]

mutual

def leafCount : PaneTree α → Nat
  | leaf _ => 1
  | split _ slots => slotLeafCount slots

def slotLeafCount : List (PaneTree α × α) → Nat
  | [] => 0
  | (tree, _) :: rest => tree.leafCount + slotLeafCount rest

end

theorem length_slotTabIds (slots : List (PaneTree α × α))
    (htrees : ∀ slot ∈ slots, slot.1.tabIds.length = slot.1.leafCount) :
    (slotTabIds slots).length = slotLeafCount slots := by
  induction slots with
  | nil => rfl
  | cons slot rest ih =>
    simp [slotTabIds, slotLeafCount, htrees slot (by simp), ih fun s hs => htrees s (by simp [hs])]

theorem length_tabIds (tree : PaneTree α) : tree.tabIds.length = tree.leafCount := by
  induction tree using PaneTree.induction with
  | leaf tab => rfl
  | split axis slots ih => exact length_slotTabIds slots ih

def asTab? : PaneTree α → Option TabId
  | leaf tab => some tab
  | split _ _ => none

theorem asTab?_eq_some_iff {tree : PaneTree α} {tab : TabId} :
    tree.asTab? = some tab ↔ tree = leaf tab := by
  cases tree <;> simp [asTab?]

/-- The leaf reached by always taking the first slot; a split without slots has none. -/
def firstTab? : PaneTree α → Option TabId
  | leaf tab => some tab
  | split _ [] => none
  | split _ ((tree, _) :: _) => tree.firstTab?

mutual

def findPath (tab : TabId) : PaneTree α → Option (List Nat)
  | leaf shown => if shown = tab then some [] else none
  | split _ slots => findSlotPath tab 0 slots

/-- Slots are numbered from `index` on. -/
def findSlotPath (tab : TabId) (index : Nat) : List (PaneTree α × α) → Option (List Nat)
  | [] => none
  | (tree, _) :: rest =>
    match findPath tab tree with
    | some path => some (index :: path)
    | none => findSlotPath tab (index + 1) rest

end

def nodeAt (tree : PaneTree α) (path : List Nat) : Option (PaneTree α) :=
  match path, tree with
  | [], tree => some tree
  | _ :: _, leaf _ => none
  | index :: rest, split _ slots => slots[index]?.bind fun slot => slot.1.nodeAt rest
termination_by structural path

def modifyAt (edit : PaneTree α → PaneTree α) (tree : PaneTree α) (path : List Nat) :
    Option (PaneTree α) :=
  match path, tree with
  | [], tree => some (edit tree)
  | _ :: _, leaf _ => none
  | index :: rest, split axis slots => do
    let slot ← slots[index]?
    let node ← modifyAt edit slot.1 rest
    return split axis (slots.set index (node, slot.2))
termination_by structural path

section Shares

variable [Scalar α]

def sharesOf (slots : List (PaneTree α × α)) : List α := slots.map (·.2)

/-- How far the shares of one split may be from adding up to one. -/
def shareTolerance : α := 1e-9

mutual

/-- Every split has two slots or more, and positive shares that add up to one within tolerance. -/
def isBalanced : PaneTree α → Bool
  | leaf _ => true
  | split _ slots =>
    2 ≤ slots.length
      && (sharesOf slots).all (fun share => Scalar.isFinite share && decide (0 < share))
      && decide (Scalar.abs (Scalar.sum (sharesOf slots) - 1) ≤ shareTolerance)
      && slotsBalanced slots

def slotsBalanced : List (PaneTree α × α) → Bool
  | [] => true
  | (tree, _) :: rest => tree.isBalanced && slotsBalanced rest

end

/-- Two to four leaves, no tab shown twice, and every split balanced. -/
def isWellFormed (tree : PaneTree α) : Bool :=
  2 ≤ tree.leafCount && tree.leafCount ≤ maxPanes && decide tree.tabIds.Nodup && tree.isBalanced

end Shares

end PaneTree

end PaneTiling
