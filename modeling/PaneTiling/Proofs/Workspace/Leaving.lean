import PaneTiling.Proofs.PaneTree.EditSites
import PaneTiling.Proofs.Workspace.Strip

/-!
What a workspace shows once a pane has gone. The focus goes to the pane next to it in its split, as
the tree was before; that pane is there afterwards, however the splits gave way. Whether the tab of
the pane goes too makes no difference, since it has lost the focus by then.
-/

namespace PaneTiling

variable {α : Type}

namespace PaneTree

variable {tree rest : PaneTree α} {tab : TabId}

/-- The tab `next` is the first one in the slot before that of the leaf of a tab, or in the slot
after it if there is none before. -/
def Succeeds (tree : PaneTree α) (tab next : TabId) : Prop :=
  ∃ path axis before share after,
    tree.nodeAt path = some (split axis (before ++ (leaf tab, share) :: after)) ∧
    ∃ slot ∈ before.getLast?.or after.head?, slot.1.tabIds.head? = some next

theorem neighbour?_of_nodeAt {path : List Nat} {axis : Axis}
    {before after : List (PaneTree α × α)} {share : α} (hnodup : tree.tabIds.Nodup)
    (hnode : tree.nodeAt path = some (split axis (before ++ (leaf tab, share) :: after))) :
    tree.neighbour? tab = (before.getLast?.or after.head?).bind (·.1.firstTab?) := by
  have hslot : (before ++ (leaf tab, share) :: after)[
      if 0 < before.length then before.length - 1 else before.length + 1]? =
        before.getLast?.or after.head? := by
    rcases List.eq_nil_or_concat before with rfl | ⟨others, last, rfl⟩
    · cases after <;> rfl
    · simp
  simp only [neighbour?, findPath_eq_concat hnodup hnode, Option.bind_eq_bind, Option.bind_some,
    List.getLast?_concat, List.dropLast_concat, hnode, hslot]

variable [Scalar α]

theorem exists_neighbour? (htree : tree.Shaped) (h : tree.removeLeaf tab = .removed rest) :
    ∃ next, tree.neighbour? tab = some next ∧ tree.Succeeds tab next ∧ next ∈ rest := by
  obtain ⟨-, left, hleft, -⟩ := removeLeaf_eq_removed h
  obtain ⟨path, axis, before, share, after, hrewrites⟩ := rewrites_of_detach hleft
  have hnode := hrewrites.nodeAt_old
  have hneighbour := neighbour?_of_nodeAt htree.nodup hnode
  obtain ⟨htwo, hslots⟩ := branching_split.1 (htree.branching.nodeAt hnode)
  have hbeside : before.getLast?.or after.head? ≠ none := by
    intro hnone
    obtain ⟨hlast, hhead⟩ := Option.or_eq_none_iff.1 hnone
    rw [List.getLast?_eq_none_iff.1 hlast, List.head?_eq_none_iff.1 hhead] at htwo
    exact absurd htwo (Nat.not_succ_le_self 1)
  obtain ⟨slot, hslot⟩ := Option.ne_none_iff_exists'.1 hbeside
  have hmem : slot ∈ before ++ (leaf tab, share) :: after := by
    rcases Option.or_eq_some_iff.1 hslot with hlast | ⟨-, hhead⟩
    · exact List.mem_append_left _ (List.mem_of_getLast? hlast)
    · exact List.mem_append_right _ (List.mem_cons_of_mem _ (List.mem_of_mem_head? hhead))
  have hbranching : slot.1.Branching 1 := (hslots slot hmem).mono (by decide)
  obtain ⟨next, hnext⟩ := Option.isSome_iff_exists.1 (firstTab?_isSome hbranching)
  rw [hslot, Option.bind_some, hnext] at hneighbour
  refine ⟨next, hneighbour, ⟨path, axis, before, share, after, hnode, slot, hslot, ?_⟩, ?_⟩
  · rw [← firstTab?_eq_head? hbranching, hnext]
  · obtain ⟨hshown, hne⟩ := mem_of_neighbour? htree.nodup hneighbour
    rwa [mem_def, (tabIds_removed h).2, List.mem_erase_of_ne hne]

theorem Shaped.erase_of_collapsed {remaining : Option TabId} (htree : tree.Shaped)
    (h : tree.removeLeaf tab = .collapsed remaining) :
    ∃ other ∈ tree, remaining = some other ∧ tree.tabIds.erase tab = [other] := by
  obtain ⟨other, rfl, hne, hshown⟩ := htree.collapsed h
  obtain ⟨hmem, hcount, -⟩ := removeLeaf_eq_collapsed h
  have hother : other ∈ tree := (hshown other).2 (.inr rfl)
  have hlength : (tree.tabIds.erase tab).length = 1 := by
    have htwo := htree.two_le
    rw [List.length_erase_of_mem hmem]
    rw [length_tabIds] at htwo ⊢
    omega
  obtain ⟨only, honly⟩ := List.length_eq_one_iff.1 hlength
  have hstays : other ∈ tree.tabIds.erase tab := (List.mem_erase_of_ne hne).2 hother
  rw [honly, List.mem_singleton] at hstays
  exact ⟨other, hother, rfl, hstays ▸ honly⟩

end PaneTree

/-- What is left to be shown when a pane leaves a tree, and the focus: of two panes the other one,
alone; of more a tree, with the focus where it was, or if the pane had it, with the next one. -/
inductive PaneLeft [Scalar α] (tree : PaneTree α) (focus : Option TabId) (tab : TabId) :
    Option (PaneTree α) × Option TabId → Prop
  | alone {other : TabId} (hids : tree.tabIds.erase tab = [other]) :
    PaneLeft tree focus tab (none, some other)
  | elsewhere {rest : PaneTree α} (hrest : tree.removeLeaf tab = .removed rest)
    (hids : rest.tabIds = tree.tabIds.erase tab) (htwo : 2 ≤ rest.leafCount)
    (hfocus : focus ≠ some tab) : PaneLeft tree focus tab (some rest, focus)
  | passed {rest : PaneTree α} {next : TabId} (hrest : tree.removeLeaf tab = .removed rest)
    (hids : rest.tabIds = tree.tabIds.erase tab) (htwo : 2 ≤ rest.leafCount)
    (hfocus : focus = some tab) (hnext : tree.Succeeds tab next) (hmem : next ∈ rest) :
    PaneLeft tree focus tab (some rest, some next)

theorem PaneLeft.focus_ne [Scalar α] {tree : PaneTree α} {focus : Option TabId} {tab : TabId}
    {left : Option (PaneTree α) × Option TabId} (h : PaneLeft tree focus tab left)
    (hnodup : tree.tabIds.Nodup) : left.2 ≠ some tab := by
  have hgone : tab ∉ tree.tabIds.erase tab := hnodup.not_mem_erase
  cases h with
  | alone hids =>
    rintro ⟨⟩
    exact hgone (by simp [hids])
  | elsewhere _ _ _ hfocus => exact hfocus
  | passed _ hids _ _ _ hmem =>
    rintro ⟨⟩
    exact hgone (hids ▸ hmem)

namespace Workspace

def view (ws : Workspace α) : Option (PaneTree α) × Option TabId := (ws.tree, ws.active)

variable [Scalar α] {ws : Workspace α} {tree : PaneTree α} {tab : TabId}

theorem exists_view_evict (htree : ws.tree = some tree) (hshaped : tree.Shaped)
    (hleaves : ∀ leaf ∈ tree, ws.HasTab leaf) (htab : tab ∈ tree) :
    ∃ left, PaneLeft tree ws.active tab left ∧ ∀ now, (ws.evict now tab).view = left := by
  have hview (rest : Option (PaneTree α)) (now : Instant) {next : TabId} (hnext : next ∈ tree) :
      (({ ws with tree := rest } : Workspace α).activate now next).view = (rest, some next) := by
    have hhas : ({ ws with tree := rest } : Workspace α).HasTab next := hleaves next hnext
    rw [view, tree_activate, active_activate, if_pos hhas]
  cases hremoval : tree.removeLeaf tab with
  | notFound => exact absurd htab (PaneTree.removeLeaf_eq_notFound_iff.1 hremoval)
  | collapsed remaining =>
    obtain ⟨other, hother, rfl, hids⟩ := hshaped.erase_of_collapsed hremoval
    refine ⟨(none, some other), .alone hids, fun now => ?_⟩
    simp only [evict, htree, hremoval]
    exact hview none now hother
  | removed rest =>
    have hids := (PaneTree.tabIds_removed hremoval).2
    have htwo := (hshaped.removed hremoval).two_le
    rw [PaneTree.length_tabIds] at htwo
    by_cases hfocus : ws.active = some tab
    · obtain ⟨next, hneighbour, hnext, hmem⟩ := PaneTree.exists_neighbour? hshaped hremoval
      refine ⟨(some rest, some next), .passed hremoval hids htwo hfocus hnext hmem, fun now => ?_⟩
      simp only [evict, htree, hremoval, if_pos hfocus, hneighbour, Option.some_or]
      refine hview (some rest) now ?_
      rw [PaneTree.mem_def, hids] at hmem
      exact List.mem_of_mem_erase hmem
    · refine ⟨(some rest, ws.active), .elsewhere hremoval hids htwo hfocus, fun now => ?_⟩
      simp only [evict, htree, hremoval, if_neg hfocus]
      rfl

theorem view_detach? {rest : Workspace α} {now : Instant} {found : Tab}
    (hfocus : (ws.evict now tab).active ≠ some tab) (h : ws.detach? now tab = some (found, rest)) :
    rest.view = (ws.evict now tab).view := by
  obtain ⟨-, ⟨hactive, -⟩ | ⟨-, rfl⟩⟩ := detach?_eq_some h
  · exact absurd hactive hfocus
  · rfl

theorem view_retiered_destroyed (ws : Workspace α) (now : Instant) (tab : TabId) :
    (ws.retiered now tab .destroyed).view = (ws.evict now tab).view := by
  rw [retiered, if_pos rfl]
  rfl

end Workspace

end PaneTiling
