import PaneTiling.Proofs.PaneTree.Leaves
import PaneTiling.Session.Acceptance
import Mathlib.Data.List.Nodup

/-!
The shape of a pane tree: its splits, its leaves and their order, without the shares. A tree that a
workspace may show has two to four leaves, shows no tab twice, and splits into two slots or more
everywhere. Every edit that leaves a tree leaves one of that shape.
-/

namespace PaneTiling

theorem bind_eq_ok_iff {ε β γ : Type} {first : Except ε β} {next : β → Except ε γ} {result : γ} :
    first >>= next = .ok result ↔ ∃ b, first = .ok b ∧ next b = .ok result := by
  cases first with
  | error e => exact iff_of_false nofun (by simp)
  | ok b => simp [bind, Except.bind]

theorem bind_ok {ε β γ : Type} {first : Except ε β} {next : β → Except ε γ} {result : γ}
    (h : first >>= next = .ok result) : ∃ b, first = .ok b ∧ next b = .ok result :=
  bind_eq_ok_iff.1 h

theorem map_ok {ε β γ : Type} {first : Except ε β} {f : β → γ} {result : γ}
    (h : first.map f = .ok result) : ∃ b, first = .ok b ∧ f b = result := by
  cases first with
  | error e => cases h
  | ok b =>
    cases h
    exact ⟨b, rfl, rfl⟩

theorem ok_of_toOption {ε β : Type} {first : Except ε β} {b : β} (h : first.toOption = some b) :
    first = .ok b := by
  cases first with
  | error e => cases h
  | ok c =>
    cases h
    rfl

namespace PaneTree

variable {α : Type}

mutual

def outline : PaneTree α → PaneTree Unit
  | leaf tab => leaf tab
  | split axis slots => split axis (slotOutlines slots)

def slotOutlines : List (PaneTree α × α) → List (PaneTree Unit × Unit)
  | [] => []
  | (tree, _) :: rest => (tree.outline, ()) :: slotOutlines rest

end

theorem slotOutlines_eq_map (slots : List (PaneTree α × α)) :
    slotOutlines slots = slots.map fun slot => (slot.1.outline, ()) := by
  induction slots with
  | nil => rfl
  | cons slot rest ih => rw [slotOutlines, ih, List.map_cons]

@[simp]
theorem tabIds_outline (tree : PaneTree α) : tree.outline.tabIds = tree.tabIds := by
  induction tree using PaneTree.induction with
  | leaf tab => rfl
  | split axis slots ih =>
    rw [outline, tabIds_split, tabIds_split, slotOutlines_eq_map, slotTabIds_eq_flatMap,
      slotTabIds_eq_flatMap, List.flatMap_map]
    exact List.flatMap_congr ih

mutual

def Branching (least : Nat) : PaneTree α → Prop
  | leaf _ => True
  | split _ slots => least ≤ slots.length ∧ SlotsBranching least slots

def SlotsBranching (least : Nat) : List (PaneTree α × α) → Prop
  | [] => True
  | (tree, _) :: rest => tree.Branching least ∧ SlotsBranching least rest

end

@[simp]
theorem branching_leaf (least : Nat) (tab : TabId) : (leaf tab : PaneTree α).Branching least :=
  trivial

theorem slotsBranching_iff {least : Nat} {slots : List (PaneTree α × α)} :
    SlotsBranching least slots ↔ ∀ slot ∈ slots, slot.1.Branching least := by
  induction slots with
  | nil => simp [SlotsBranching]
  | cons slot rest ih => simp [SlotsBranching, ih]

theorem branching_split {least : Nat} {axis : Axis} {slots : List (PaneTree α × α)} :
    (split axis slots).Branching least ↔
      least ≤ slots.length ∧ ∀ slot ∈ slots, slot.1.Branching least := by
  rw [Branching, slotsBranching_iff]

theorem Branching.mono {least more : Nat} {tree : PaneTree α} (h : tree.Branching more)
    (hle : least ≤ more) : tree.Branching least := by
  induction tree using PaneTree.induction with
  | leaf tab => trivial
  | split axis slots ih =>
    rw [branching_split] at h ⊢
    exact ⟨Nat.le_trans hle h.1, fun slot hslot => ih slot hslot (h.2 slot hslot)⟩

theorem branching_outline {least : Nat} {tree : PaneTree α} :
    tree.outline.Branching least ↔ tree.Branching least := by
  induction tree using PaneTree.induction with
  | leaf tab => simp [outline]
  | split axis slots ih =>
    rw [outline, branching_split, branching_split, slotOutlines_eq_map, List.length_map,
      List.forall_mem_map]
    exact and_congr_right fun _ => forall₂_congr ih

/-- The trees that a workspace may show. -/
structure Shaped (tree : PaneTree α) : Prop where
  two_le : 2 ≤ tree.tabIds.length
  le_max : tree.tabIds.length ≤ maxPanes
  nodup : tree.tabIds.Nodup
  branching : tree.Branching 2

theorem Shaped.of_outline_eq {β : Type} {tree : PaneTree α} {other : PaneTree β}
    (h : tree.Shaped) (houtline : other.outline = tree.outline) : other.Shaped := by
  have hids : other.tabIds = tree.tabIds := by
    rw [← tabIds_outline, houtline, tabIds_outline]
  refine ⟨?_, ?_, ?_, ?_⟩
  · exact hids ▸ h.two_le
  · exact hids ▸ h.le_max
  · exact hids ▸ h.nodup
  · rw [← branching_outline, houtline, branching_outline]
    exact h.branching

section Collapsing

mutual

theorem branching_collapse :
    {tree : PaneTree α} → tree.Branching 1 → tree.collapse.Branching 2
  | leaf tab, _ => by simp [collapse]
  | split axis slots, h => by
    rw [branching_split] at h
    have hslots := branching_collapseSlots h.2
    have hlength := length_collapseSlots slots
    simp only [collapse]
    split
    · rename_i only share hkept
      exact hslots (only, share) (by simp [hkept])
    · rename_i hkept
      rw [branching_split]
      refine ⟨?_, hslots⟩
      match hcase : collapseSlots slots with
      | [] =>
        have hpos := h.1
        rw [← hlength, hcase] at hpos
        exact absurd hpos (by simp)
      | [(only, share)] => exact absurd hcase (hkept only share)
      | _ :: _ :: _ => simp

theorem branching_collapseSlots :
    {slots : List (PaneTree α × α)} → (∀ slot ∈ slots, slot.1.Branching 1) →
      ∀ slot ∈ collapseSlots slots, slot.1.Branching 2
  | [], _ => by simp [collapseSlots]
  | (tree, share) :: rest, h => by
    simp only [collapseSlots, List.forall_mem_cons] at h ⊢
    exact ⟨branching_collapse h.1, branching_collapseSlots h.2⟩

theorem length_collapseSlots (slots : List (PaneTree α × α)) :
    (collapseSlots slots).length = slots.length := by
  induction slots with
  | nil => rfl
  | cons slot rest ih => simp [collapseSlots, ih]

end

end Collapsing

section Editing

variable [Scalar α]

theorem branching_pair (anchor new : TabId) (side : Side) :
    (pair anchor new side : PaneTree α).Branching 2 := by
  unfold pair
  split <;> simp [branching_split]

mutual

theorem branching_attach {anchor new : TabId} {side : Side} :
    {tree grown : PaneTree α} → attach anchor new side tree = some grown → tree.Branching 2 →
      grown.Branching 2
  | leaf tab, grown, h, _ => by
    simp only [attach] at h
    split at h <;> cases h
    exact branching_pair anchor new side
  | split axis slots, grown, h, htree => by
    simp only [attach, Option.map_eq_some_iff] at h
    obtain ⟨more, hmore, rfl⟩ := h
    rw [branching_split] at htree ⊢
    have hslots := branching_attachSlot hmore htree.2
    exact ⟨Nat.le_trans htree.1 hslots.1, hslots.2⟩

theorem branching_attachSlot {anchor new : TabId} {side : Side} {axis : Axis} :
    {slots more : List (PaneTree α × α)} → attachSlot anchor new side axis slots = some more →
      (∀ slot ∈ slots, slot.1.Branching 2) →
        slots.length ≤ more.length ∧ ∀ slot ∈ more, slot.1.Branching 2
  | [], _, h, _ => by simp [attachSlot] at h
  | (tree, share) :: rest, more, h, hslots => by
    rw [List.forall_mem_cons] at hslots
    simp only [attachSlot] at h
    split at h
    · split at h <;> cases h
      · simpa using hslots
      · simpa using hslots
    split at h
    · rename_i grown hgrown
      cases h
      simpa using ⟨branching_attach hgrown hslots.1, fun t s => hslots.2 (t, s)⟩
    · obtain ⟨more, hmore, rfl⟩ := Option.map_eq_some_iff.1 h
      have hmore := branching_attachSlot hmore hslots.2
      simp only [List.length_cons, List.forall_mem_cons]
      exact ⟨by omega, hslots.1, hmore.2⟩

end

theorem forall_mem_redistribute {P : PaneTree α → Prop} {freed : α}
    {slots : List (PaneTree α × α)} :
    (∀ slot ∈ redistribute freed slots, P slot.1) ↔ ∀ slot ∈ slots, P slot.1 := by
  simp only [redistribute]
  split <;> exact List.forall_mem_map

theorem length_redistribute (freed : α) (slots : List (PaneTree α × α)) :
    (redistribute freed slots).length = slots.length := by
  simp only [redistribute]
  split <;> simp

mutual

theorem branching_detach {tab : TabId} :
    {tree rest : PaneTree α} → detach tab tree = some rest → tree.Branching 2 → rest.Branching 1
  | leaf _, _, h, _ => by simp [detach] at h
  | split axis slots, rest, h, htree => by
    simp only [detach, Option.map_eq_some_iff] at h
    obtain ⟨left, hleft, rfl⟩ := h
    rw [branching_split] at htree ⊢
    have hslots := branching_vacate hleft htree.2
    unfold Vacated.settled
    split
    · rw [length_redistribute, forall_mem_redistribute]
      exact ⟨by omega, hslots.2⟩
    · exact ⟨by omega, hslots.2⟩

theorem branching_vacate {tab : TabId} :
    {slots : List (PaneTree α × α)} → {left : Vacated α} → vacate tab slots = some left →
      (∀ slot ∈ slots, slot.1.Branching 2) →
        slots.length ≤ left.slots.length + 1 ∧ ∀ slot ∈ left.slots, slot.1.Branching 1
  | [], _, h, _ => by simp [vacate] at h
  | (tree, share) :: rest, left, h, hslots => by
    rw [List.forall_mem_cons] at hslots
    simp only [vacate] at h
    split at h
    · cases h
      exact ⟨by simp, fun slot hslot => (hslots.2 slot hslot).mono (by decide)⟩
    split at h
    · rename_i shrunk hshrunk
      cases h
      refine ⟨by simp, List.forall_mem_cons.2 ⟨branching_detach hshrunk hslots.1, ?_⟩⟩
      exact fun slot hslot => (hslots.2 slot hslot).mono (by decide)
    · obtain ⟨left, hleft, rfl⟩ := Option.map_eq_some_iff.1 h
      have hleft := branching_vacate hleft hslots.2
      refine ⟨by simpa using hleft.1, List.forall_mem_cons.2 ⟨?_, hleft.2⟩⟩
      exact hslots.1.mono (by decide)

end

theorem Shaped.insert {root : Option (PaneTree α)} {anchor new : TabId} {side : Side}
    {tree : PaneTree α} (hroot : ∀ old ∈ root, old.Shaped)
    (h : PaneTree.insert root anchor new side = some tree) : tree.Shaped := by
  obtain ⟨hanchor, hnew, hroom, hperm⟩ := tabIds_insert h
  have hlength : tree.tabIds.length = (panesFor root anchor).length + 1 := by
    rw [hperm.length_eq, List.length_cons]
  have hnodup : (panesFor root anchor).Nodup := by
    cases root with
    | none => simp [panesFor]
    | some old => exact (hroot old rfl).nodup
  refine ⟨?_, by omega, hperm.nodup_iff.2 (List.nodup_cons.2 ⟨hnew, hnodup⟩), ?_⟩
  · have := List.length_pos_of_mem hanchor
    omega
  · unfold PaneTree.insert at h
    split at h
    · cases h
    cases root with
    | none =>
      cases h
      exact branching_pair anchor new side
    | some old =>
      simp only at h
      split at h
      · cases h
      · exact branching_attach h (hroot old rfl).branching

theorem Shaped.removed {tree rest : PaneTree α} {tab : TabId} (h : tree.Shaped)
    (hrest : tree.removeLeaf tab = .removed rest) : rest.Shaped := by
  obtain ⟨hcount, left, hleft, rfl⟩ := removeLeaf_eq_removed hrest
  obtain ⟨hmem, hids⟩ := tabIds_removed hrest
  have hlength : left.collapse.tabIds.length = tree.tabIds.length - 1 := by
    rw [hids, List.length_erase_of_mem hmem]
  rw [← length_tabIds] at hcount
  have hmax := h.le_max
  refine ⟨by omega, by omega, hids ▸ h.nodup.erase tab, ?_⟩
  exact branching_collapse (branching_detach hleft h.branching)

theorem Shaped.collapsed {tree : PaneTree α} {tab : TabId} {remaining : Option TabId}
    (h : tree.Shaped) (hremaining : tree.removeLeaf tab = .collapsed remaining) :
    ∃ other, remaining = some other ∧ other ≠ tab ∧ ∀ x, x ∈ tree ↔ x = tab ∨ x = other := by
  obtain ⟨hmem, hcount, rfl⟩ := removeLeaf_eq_collapsed hremaining
  have htwo := h.two_le
  have hnodup := h.nodup
  rw [← length_tabIds] at hcount
  simp only [mem_def] at hmem ⊢
  match hids : tree.tabIds with
  | [first, second] =>
    rw [hids] at hmem hnodup
    have hne : first ≠ second := by simpa using hnodup
    by_cases hfirst : first = tab
    · subst hfirst
      exact ⟨second, by simp [Ne.symm hne], Ne.symm hne, by simp⟩
    · have hsecond : second = tab := by grind
      exact ⟨first, by simp [hfirst], hfirst, by grind⟩
  | [] | [_] | _ :: _ :: _ :: _ =>
    simp only [hids, List.length_cons, List.length_nil] at htwo hcount
    omega

theorem Shaped.remove {tree rest : PaneTree α} {tab : TabId} (h : tree.Shaped)
    (hrest : tree.remove tab = some rest) :
    rest.Shaped ∧ ∀ x, x ∈ rest ↔ x ∈ tree ∧ x ≠ tab := by
  unfold PaneTree.remove at hrest
  split at hrest
  · rename_i left hremoved
    cases hrest
    refine ⟨h.removed hremoved, fun x => ?_⟩
    rw [mem_def, (tabIds_removed hremoved).2, h.nodup.mem_erase_iff, and_comm]
    rfl
  · cases hrest
  · rename_i hnot
    cases hrest
    have habsent := removeLeaf_eq_notFound_iff.1 hnot
    exact ⟨h, fun x => ⟨fun hx => ⟨hx, fun heq => habsent (heq ▸ hx)⟩, And.left⟩⟩

theorem Shaped.remove_eq_none {tree : PaneTree α} {tab : TabId} (h : tree.Shaped)
    (hnone : tree.remove tab = none) :
    ∃ other, other ≠ tab ∧ ∀ x, x ∈ tree ↔ x = tab ∨ x = other := by
  unfold PaneTree.remove at hnone
  split at hnone
  · cases hnone
  · rename_i remaining hcollapsed
    obtain ⟨other, -, hother⟩ := h.collapsed hcollapsed
    exact ⟨other, hother⟩
  · cases hnone

end Editing

section Sharing

theorem set_of_getElem? {β : Type} {items : List β} {index : Nat} {item : β}
    (h : items[index]? = some item) : items.set index item = items := by
  obtain ⟨hindex, hget⟩ := List.getElem?_eq_some_iff.1 h
  rw [← hget, List.set_getElem_self]

theorem slotOutlines_set {slots : List (PaneTree α × α)} {index : Nat} {tree : PaneTree α}
    {old share : α} {node : PaneTree α} (hslot : slots[index]? = some (node, old))
    (htree : tree.outline = node.outline) :
    slotOutlines (slots.set index (tree, share)) = slotOutlines slots := by
  rw [slotOutlines_eq_map, slotOutlines_eq_map, List.map_set, htree]
  exact set_of_getElem? (by simp [hslot])

theorem checkLeaves_eq_ok_iff {restored seen tabs : List TabId} :
    checkLeaves (α := α) restored seen tabs = .ok () ↔
      (∀ tab ∈ tabs, tab ∈ restored ∧ tab ∉ seen) ∧ tabs.Nodup := by
  induction tabs generalizing seen with
  | nil => simp [checkLeaves]
  | cons tab rest ih =>
    simp only [checkLeaves]
    split
    · rename_i hmissing
      exact iff_of_false nofun fun h => hmissing (h.1 tab List.mem_cons_self).1
    split
    · rename_i hseen
      exact iff_of_false nofun fun h => (h.1 tab List.mem_cons_self).2 hseen
    rename_i hrestored hseen
    -- A later leaf is looked for among the earlier ones, of which this is one.
    have hlater (other : TabId) : other ∉ tab :: seen ↔ other ≠ tab ∧ other ∉ seen := by simp
    rw [ih, List.forall_mem_cons, List.nodup_cons]
    simp only [hlater]
    constructor
    · rintro ⟨hrest, hnodup⟩
      refine ⟨⟨⟨Decidable.not_not.1 hrestored, hseen⟩, fun other hother => ?_⟩, ?_, hnodup⟩
      · exact ⟨(hrest other hother).1, (hrest other hother).2.2⟩
      · exact fun hmem => (hrest tab hmem).2.1 rfl
    · rintro ⟨⟨-, hrest⟩, htab, hnodup⟩
      refine ⟨fun other hother => ⟨(hrest other hother).1, ?_, (hrest other hother).2⟩, hnodup⟩
      rintro rfl
      exact htab hother

variable [Scalar α]

theorem two_le_of_checkShares {shares : List α} {total : α}
    (h : checkShares shares = .ok total) : 2 ≤ shares.length := by
  unfold checkShares at h
  split at h
  · cases h
  · omega

mutual

theorem outline_normalise :
    {saved tree : PaneTree α} → saved.normalise = .ok tree →
      tree.outline = saved.outline ∧ saved.Branching 2
  | leaf tab, tree, h => by
    cases h
    exact ⟨rfl, trivial⟩
  | split axis slots, tree, h => by
    rw [normalise] at h
    obtain ⟨total, htotal, h⟩ := bind_ok h
    obtain ⟨scaled, hscaled, h⟩ := bind_ok h
    cases h
    obtain ⟨hsame, hslots⟩ := outline_normaliseSlots hscaled
    rw [outline, outline, hsame, branching_split]
    refine ⟨rfl, ?_, hslots⟩
    have hcount := two_le_of_checkShares htotal
    simpa [sharesOf] using hcount

theorem outline_normaliseSlots {total : α} :
    {slots scaled : List (PaneTree α × α)} → normaliseSlots total slots = .ok scaled →
      slotOutlines scaled = slotOutlines slots ∧ ∀ slot ∈ slots, slot.1.Branching 2
  | [], scaled, h => by
    cases h
    simp
  | (tree, share) :: rest, scaled, h => by
    rw [normaliseSlots] at h
    obtain ⟨first, hfirst, h⟩ := bind_ok h
    obtain ⟨others, hothers, h⟩ := bind_ok h
    cases h
    obtain ⟨hsame, htree⟩ := outline_normalise hfirst
    obtain ⟨hrest, hslots⟩ := outline_normaliseSlots hothers
    rw [slotOutlines, slotOutlines, hsame, hrest, List.forall_mem_cons]
    exact ⟨rfl, htree, hslots⟩

end

theorem shaped_of_accept {saved tree : PaneTree α} {restored : List TabId}
    (h : saved.accept restored = .ok tree) :
    tree.Shaped ∧ ∀ tab ∈ tree, tab ∈ restored := by
  unfold accept at h
  obtain ⟨_, hleaves, h⟩ := bind_ok h
  obtain ⟨hmem, hnodup⟩ := checkLeaves_eq_ok_iff.1 hleaves
  split at h
  · obtain ⟨_, hthrow, -⟩ := bind_ok h
    cases hthrow
  rename_i hcount
  obtain ⟨hsame, hbranching⟩ := outline_normalise h
  have hsaved : saved.Shaped := ⟨by omega, by omega, hnodup, hbranching⟩
  refine ⟨hsaved.of_outline_eq hsame, fun tab htab => ?_⟩
  rw [mem_def, ← tabIds_outline, hsame, tabIds_outline] at htab
  exact (hmem tab htab).1

end Sharing

end PaneTree

end PaneTiling
