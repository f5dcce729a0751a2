import PaneTiling.Proofs.PaneTree.Shares
import PaneTiling.Window.Saving

/-!
Which saved trees come back, read over exact numbers, all of which are finite. There are two notions
of a good tree: the one that a saved tree has to meet before it is scaled, and the stricter one that
the trees shown meet. Both say the same of the leaves and ask the same of the shares of every split
but for how far their sum may be from one; so what is accepted is well-formed once it is scaled, and
what was well-formed when it was saved is accepted.
-/

namespace PaneTiling.PaneTree

section EverySplit

variable {α : Type}

/-- The shares of every split, wherever it stands in the tree, have a property. -/
def EverySplit (P : List α → Prop) (tree : PaneTree α) : Prop :=
  ∀ path axis slots, tree.nodeAt path = some (split axis slots) → P (sharesOf slots)

variable {P Q : List α → Prop}

theorem everySplit_leaf (tab : TabId) : (leaf tab).EverySplit P := by
  intro path axis slots h
  cases path with
  | nil => cases h
  | cons index rest => cases h

theorem everySplit_split {axis : Axis} {slots : List (PaneTree α × α)} :
    (split axis slots).EverySplit P ↔
      P (sharesOf slots) ∧ ∀ slot ∈ slots, slot.1.EverySplit P := by
  constructor
  · refine fun h => ⟨h [] axis slots rfl, fun slot hslot path other more hnode => ?_⟩
    obtain ⟨index, hindex⟩ := List.mem_iff_getElem?.1 hslot
    exact h (index :: path) other more (by rw [nodeAt_split_cons, hindex, Option.bind_some, hnode])
  · rintro ⟨hroot, hslots⟩ (_ | ⟨index, path⟩) other more hnode
    · cases hnode
      exact hroot
    · rw [nodeAt_split_cons, Option.bind_eq_some_iff] at hnode
      obtain ⟨slot, hslot, hnode⟩ := hnode
      exact hslots slot (List.mem_of_getElem? hslot) path other more hnode

theorem EverySplit.imp {tree : PaneTree α} (h : tree.EverySplit P)
    (himp : ∀ shares, P shares → Q shares) : tree.EverySplit Q :=
  fun path axis slots hnode => himp _ (h path axis slots hnode)

end EverySplit

theorem everySplit_nearlyWhole {tree : PaneTree Rat} (hbranching : tree.Branching 2)
    (htree : tree.Apportioned) {slack : Rat} (hslack : 0 ≤ slack) :
    tree.EverySplit (NearlyWhole slack) := by
  induction tree using PaneTree.induction with
  | leaf tab => exact everySplit_leaf tab
  | split axis slots ih =>
    rw [branching_split] at hbranching
    rw [apportioned_split] at htree
    rw [everySplit_split]
    refine ⟨htree.1.nearly (by simpa [sharesOf] using hbranching.1) hslack, fun slot hslot => ?_⟩
    exact ih slot hslot (hbranching.2 slot hslot) (htree.2 slot hslot)

theorem slotsBalanced_iff {α : Type} [Scalar α] {slots : List (PaneTree α × α)} :
    slotsBalanced slots = true ↔ ∀ slot ∈ slots, slot.1.isBalanced = true := by
  induction slots with
  | nil => simp [slotsBalanced]
  | cons slot rest ih => simp [slotsBalanced, ih]

theorem nearlyWhole_iff {shares : List Rat} :
    NearlyWhole 1e-9 shares ↔ 2 ≤ shares.length ∧ (∀ share ∈ shares, 0 < share) ∧
      Scalar.abs (Scalar.sum shares - 1) ≤ shareTolerance := by
  rw [sum_rat, abs_rat]
  exact ⟨fun h => ⟨h.two_le, h.pos, h.sum_near⟩, fun h => ⟨h.1, h.2.1, h.2.2⟩⟩

theorem isBalanced_iff {tree : PaneTree Rat} :
    tree.isBalanced = true ↔ tree.EverySplit (NearlyWhole 1e-9) := by
  induction tree using PaneTree.induction with
  | leaf tab => exact iff_of_true rfl (everySplit_leaf tab)
  | split axis slots ih =>
    have hslots := slotsBalanced_iff.trans (forall₂_congr ih)
    rw [isBalanced, everySplit_split, nearlyWhole_iff]
    simp only [Bool.and_eq_true, decide_eq_true_eq, hslots, List.all_eq_true, Scalar.isFinite,
      Bool.true_and, and_assoc]
    rw [sharesOf, List.length_map]

theorem isWellFormed_iff {tree : PaneTree Rat} :
    tree.isWellFormed = true ↔ (2 ≤ tree.leafCount ∧ tree.leafCount ≤ 4) ∧ tree.tabIds.Nodup ∧
      tree.EverySplit (NearlyWhole 1e-9) := by
  rw [isWellFormed, ← isBalanced_iff]
  simp only [Bool.and_eq_true, decide_eq_true_eq, and_assoc]
  rfl

mutual

/-- The tree with each share divided by the sum of the shares of its split. -/
def rescaled : PaneTree Rat → PaneTree Rat
  | leaf tab => leaf tab
  | split axis slots => split axis (slotsRescaled (sharesOf slots).sum slots)

def slotsRescaled (total : Rat) : List (PaneTree Rat × Rat) → List (PaneTree Rat × Rat)
  | [] => []
  | (tree, share) :: rest => (tree.rescaled, share / total) :: slotsRescaled total rest

end

theorem slotsRescaled_eq_map (total : Rat) (slots : List (PaneTree Rat × Rat)) :
    slotsRescaled total slots = slots.map fun slot => (slot.1.rescaled, slot.2 / total) := by
  induction slots with
  | nil => rfl
  | cons slot rest ih => rw [slotsRescaled, ih, List.map_cons]

theorem rescaled_split (axis : Axis) (slots : List (PaneTree Rat × Rat)) :
    (split axis slots).rescaled =
      split axis (slots.map fun slot => (slot.1.rescaled, slot.2 / (sharesOf slots).sum)) := by
  rw [rescaled, slotsRescaled_eq_map]

theorem rescaled_eq_self {tree : PaneTree Rat} (h : tree.Apportioned) : tree.rescaled = tree := by
  induction tree using PaneTree.induction with
  | leaf tab => rfl
  | split axis slots ih =>
    rw [apportioned_split] at h
    have hslots : ∀ slot ∈ slots, (slot.1.rescaled, slot.2 / (sharesOf slots).sum) = slot := by
      intro slot hslot
      rw [ih slot hslot (h.2 slot hslot), h.1.sum_eq, div_one]
    rw [rescaled_split, List.map_congr_left hslots, List.map_id']

section Accepting

variable {P : PaneTree Rat → Prop}

theorem normaliseSlots_eq_ok_iff {total : Rat} {slots scaled : List (PaneTree Rat × Rat)}
    (htrees : ∀ slot ∈ slots, ∀ tree, slot.1.normalise = .ok tree ↔
      P slot.1 ∧ tree = slot.1.rescaled) :
    normaliseSlots total slots = .ok scaled ↔
      (∀ slot ∈ slots, P slot.1) ∧ scaled = slotsRescaled total slots := by
  induction slots generalizing scaled with
  | nil =>
    rw [normaliseSlots, slotsRescaled, Except.ok.injEq, eq_comm]
    exact (and_iff_right (by simp)).symm
  | cons slot rest ih =>
    rw [List.forall_mem_cons] at htrees
    rw [normaliseSlots, slotsRescaled, List.forall_mem_cons]
    simp only [bind_eq_ok_iff, htrees.1, ih htrees.2]
    constructor
    · rintro ⟨_, ⟨hfirst, rfl⟩, _, ⟨hrest, rfl⟩, hscaled⟩
      cases hscaled
      exact ⟨⟨hfirst, hrest⟩, rfl⟩
    · rintro ⟨⟨hfirst, hrest⟩, rfl⟩
      exact ⟨_, ⟨hfirst, rfl⟩, _, ⟨hrest, rfl⟩, rfl⟩

theorem normalise_eq_ok_iff {saved tree : PaneTree Rat} :
    saved.normalise = .ok tree ↔ saved.EverySplit (NearlyWhole 1e-6) ∧ tree = saved.rescaled := by
  induction saved using PaneTree.induction generalizing tree with
  | leaf tab =>
    rw [normalise, rescaled, Except.ok.injEq, eq_comm]
    exact (and_iff_right (everySplit_leaf tab)).symm
  | split axis slots ih =>
    have hslots {total : Rat} {scaled : List (PaneTree Rat × Rat)} :
        normaliseSlots total slots = .ok scaled ↔
          (∀ slot ∈ slots, slot.1.EverySplit (NearlyWhole 1e-6)) ∧
            scaled = slotsRescaled total slots :=
      normaliseSlots_eq_ok_iff fun slot hslot _ => ih slot hslot
    rw [normalise, everySplit_split, rescaled]
    simp only [bind_eq_ok_iff, checkShares_eq_ok_iff, hslots]
    constructor
    · rintro ⟨_, ⟨hshares, rfl⟩, _, ⟨htrees, rfl⟩, hscaled⟩
      cases hscaled
      exact ⟨⟨hshares, htrees⟩, rfl⟩
    · rintro ⟨⟨hshares, htrees⟩, rfl⟩
      exact ⟨_, ⟨hshares, rfl⟩, _, ⟨htrees, rfl⟩, rfl⟩

/-- What a saved tree has to meet. -/
structure Acceptable (saved : PaneTree Rat) (restored : List TabId) : Prop where
  restored : ∀ tab ∈ saved, tab ∈ restored
  nodup : saved.tabIds.Nodup
  two_le : 2 ≤ saved.leafCount
  le_four : saved.leafCount ≤ 4
  shares : saved.EverySplit (NearlyWhole 1e-6)

theorem accept_eq_ok_iff {saved tree : PaneTree Rat} {restored : List TabId} :
    saved.accept restored = .ok tree ↔ saved.Acceptable restored ∧ tree = saved.rescaled := by
  have hleaves (u : Unit) : checkLeaves (α := Rat) restored [] saved.tabIds = .ok u ↔
      (∀ tab ∈ saved, tab ∈ restored) ∧ saved.tabIds.Nodup := by
    rw [checkLeaves_eq_ok_iff]
    simp [mem_def]
  unfold accept
  rw [length_tabIds, bind_eq_ok_iff]
  simp only [hleaves]
  split
  · rename_i hcount
    refine iff_of_false ?_ fun h => ?_
    · rintro ⟨_, -, hthrow⟩
      cases hthrow
    · have htwo := h.1.two_le
      have hfour := h.1.le_four
      simp only [maxPanes] at hcount
      omega
  · rename_i hcount
    simp only [maxPanes, not_or, not_lt] at hcount
    constructor
    · rintro ⟨_, ⟨hrestored, hnodup⟩, hok⟩
      obtain ⟨hshares, rfl⟩ := normalise_eq_ok_iff.1 hok
      exact ⟨⟨hrestored, hnodup, hcount.1, hcount.2, hshares⟩, rfl⟩
    · rintro ⟨h, rfl⟩
      exact ⟨(), ⟨h.restored, h.nodup⟩, normalise_eq_ok_iff.2 ⟨h.shares, rfl⟩⟩

theorem isWellFormed_of_accept {saved tree : PaneTree Rat} {restored : List TabId}
    (h : saved.accept restored = .ok tree) : tree.isWellFormed = true := by
  obtain ⟨hshaped, -⟩ := shaped_of_accept h
  rw [isWellFormed_iff, ← length_tabIds]
  refine ⟨⟨hshaped.two_le, hshaped.le_max⟩, hshaped.nodup, ?_⟩
  exact everySplit_nearlyWhole hshaped.branching (apportioned_accept h) (by norm_num)

theorem outline_of_accept {α : Type} [Scalar α] {saved tree : PaneTree α} {restored : List TabId}
    (h : saved.accept restored = .ok tree) : tree.outline = saved.outline := by
  unfold accept at h
  obtain ⟨_, -, h⟩ := bind_ok h
  split at h
  · cases h
  · exact (outline_normalise h).1

theorem acceptable_of_isWellFormed {live : PaneTree Rat} {restored : List TabId}
    (h : live.isWellFormed = true) (hrestored : ∀ tab ∈ live, tab ∈ restored) :
    live.Acceptable restored := by
  obtain ⟨⟨htwo, hfour⟩, hnodup, hshares⟩ := isWellFormed_iff.1 h
  exact ⟨hrestored, hnodup, htwo, hfour, hshares.imp fun _ hnear => hnear.mono (by norm_num)⟩

section Finite

variable {α : Type} [Scalar α]

theorem normalise_of_normaliseSlots {total : α} {slots scaled : List (PaneTree α × α)}
    (h : normaliseSlots total slots = .ok scaled) :
    ∀ slot ∈ slots, ∃ tree, slot.1.normalise = .ok tree := by
  induction slots generalizing scaled with
  | nil => simp
  | cons slot rest ih =>
    obtain ⟨first, hfirst, h⟩ := bind_ok h
    obtain ⟨others, hothers, -⟩ := bind_ok h
    exact List.forall_mem_cons.2 ⟨⟨first, hfirst⟩, ih hothers⟩

theorem isFinite_of_checkShares {shares : List α} {total : α}
    (h : checkShares shares = .ok total) : ∀ share ∈ shares, Scalar.isFinite share = true := by
  unfold checkShares at h
  split at h
  · cases h
  split at h
  · cases h
  rename_i hnone
  intro share hshare
  have hgood := List.find?_eq_none.1 hnone share hshare
  simp only [Bool.or_eq_true, Bool.not_eq_true', not_or, Bool.not_eq_false] at hgood
  exact hgood.1

theorem everySplit_isFinite_of_normalise {saved tree : PaneTree α}
    (h : saved.normalise = .ok tree) :
    saved.EverySplit fun shares => ∀ share ∈ shares, Scalar.isFinite share = true := by
  induction saved using PaneTree.induction generalizing tree with
  | leaf tab => exact everySplit_leaf tab
  | split axis slots ih =>
    rw [normalise] at h
    obtain ⟨total, htotal, h⟩ := bind_ok h
    obtain ⟨scaled, hscaled, -⟩ := bind_ok h
    refine everySplit_split.2 ⟨isFinite_of_checkShares htotal, fun slot hslot => ?_⟩
    obtain ⟨moved, hmoved⟩ := normalise_of_normaliseSlots hscaled slot hslot
    exact ih slot hslot hmoved

theorem everySplit_isFinite_of_accept {saved tree : PaneTree α} {restored : List TabId}
    (h : saved.accept restored = .ok tree) :
    saved.EverySplit fun shares => ∀ share ∈ shares, Scalar.isFinite share = true := by
  unfold accept at h
  obtain ⟨_, -, h⟩ := bind_ok h
  split at h
  · cases h
  · exact everySplit_isFinite_of_normalise h

end Finite

theorem accept_of_apportioned {live : PaneTree Rat} {restored : List TabId} (hshaped : live.Shaped)
    (hlive : live.Apportioned) (hrestored : ∀ tab ∈ live, tab ∈ restored) :
    live.accept restored = .ok live := by
  refine accept_eq_ok_iff.2 ⟨⟨hrestored, hshaped.nodup, ?_, ?_, ?_⟩, (rescaled_eq_self hlive).symm⟩
  · exact length_tabIds live ▸ hshaped.two_le
  · exact length_tabIds live ▸ hshaped.le_max
  · exact everySplit_nearlyWhole hshaped.branching hlive (by norm_num)

/-- A saved tree comes back exactly if it is acceptable. It then has the outline it had, each share
divided by the sum of the shares of its split, and is well-formed. And every well-formed tree that a
workspace shows comes back once it was saved, if its tabs do. Where numbers need not be finite, no
tree comes back with a share that is not. -/
theorem accepts_iff_acceptable (restored : List TabId) :
    (∀ saved : PaneTree Rat,
      ((∃ tree, saved.accept restored = .ok tree) ↔ saved.Acceptable restored) ∧
      ∀ tree, saved.accept restored = .ok tree →
        tree.outline = saved.outline ∧ tree = saved.rescaled ∧ tree.isWellFormed = true) ∧
    (∀ (ws : Workspace Rat) (live : PaneTree Rat), ws.tree = some live →
      live.isWellFormed = true → (∀ tab ∈ live, tab ∈ restored) →
        ∃ saved tree, ws.saved.tree = some saved ∧ saved.accept restored = .ok tree) ∧
    ∀ {α : Type} [Scalar α] (saved tree : PaneTree α), saved.accept restored = .ok tree →
      saved.EverySplit fun shares => ∀ share ∈ shares, Scalar.isFinite share = true := by
  refine ⟨fun saved => ⟨⟨?_, fun h => ?_⟩, fun tree htree => ?_⟩, fun ws live hws hlive hmem => ?_,
    fun _ _ htree => everySplit_isFinite_of_accept htree⟩
  · rintro ⟨tree, htree⟩
    exact (accept_eq_ok_iff.1 htree).1
  · exact ⟨saved.rescaled, accept_eq_ok_iff.2 ⟨h, rfl⟩⟩
  · exact ⟨outline_of_accept htree, (accept_eq_ok_iff.1 htree).2, isWellFormed_of_accept htree⟩
  · have hsaved : ws.saved.tree = some live := ws.tree_saved.trans hws
    exact ⟨live, live.rescaled, hsaved,
      accept_eq_ok_iff.2 ⟨acceptable_of_isWellFormed hlive hmem, rfl⟩⟩

def roundedPanes : PaneTree Rat :=
  split .row [(leaf ⟨"a"⟩, 0.3),
    (split .col [(leaf ⟨"b"⟩, 0.3333333), (leaf ⟨"c"⟩, 0.6666666)], 0.7)]

theorem accepts_iff_acceptable_roundedPanes :
    roundedPanes.isWellFormed = false ∧ roundedPanes.Acceptable [⟨"c"⟩, ⟨"a"⟩, ⟨"b"⟩] ∧
      roundedPanes.rescaled.isWellFormed = true ∧
      ∃ tree, roundedPanes.rescaled.accept [⟨"c"⟩, ⟨"a"⟩, ⟨"b"⟩] = .ok tree := by
  obtain ⟨htrees, hworkspaces, -⟩ := accepts_iff_acceptable [⟨"c"⟩, ⟨"a"⟩, ⟨"b"⟩]
  obtain ⟨hiff, hspec⟩ := htrees roundedPanes
  obtain ⟨tree, htree⟩ : ∃ tree, roundedPanes.accept [⟨"c"⟩, ⟨"a"⟩, ⟨"b"⟩] = .ok tree :=
    ⟨roundedPanes.rescaled, ok_of_toOption (by decide +kernel)⟩
  obtain ⟨-, rfl, hformed⟩ := hspec tree htree
  obtain ⟨saved, again, hsaved, hagain⟩ :=
    hworkspaces ⟨⟨0⟩, "main", [], none, some roundedPanes.rescaled⟩ roundedPanes.rescaled rfl
      hformed (by decide +kernel)
  cases hsaved
  exact ⟨by decide +kernel, hiff.1 ⟨_, htree⟩, hformed, again, hagain⟩

end Accepting

end PaneTiling.PaneTree
