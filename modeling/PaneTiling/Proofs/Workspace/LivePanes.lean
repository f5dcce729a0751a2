import PaneTiling.Proofs.Workspace.Idle
import PaneTiling.Proofs.Workspace.Opening

/-!
Destroyed tabs and panes. A tab whose page is destroyed is not to be a pane. Taking panes away and
using tabs cannot break that; only opening a pane can, which is when the tab or the anchor beside it
is destroyed.
-/

namespace PaneTiling

theorem mem_modifyTab {id : TabId} {change : Tab → Tab} {tabs : List Tab} {tab : Tab}
    (h : tab ∈ modifyTab id change tabs) :
    tab ∈ tabs ∨ ∃ old ∈ tabs, old.id = id ∧ tab = change old := by
  induction tabs with
  | nil => cases h
  | cons first rest ih =>
    rw [modifyTab] at h
    split at h
    · rename_i hfirst
      rcases List.mem_cons.1 h with rfl | hrest
      · exact .inr ⟨first, List.mem_cons_self, hfirst, rfl⟩
      · exact .inl (List.mem_cons_of_mem _ hrest)
    · rcases List.mem_cons.1 h with rfl | hrest
      · exact .inl List.mem_cons_self
      · rcases ih hrest with hmem | ⟨old, hold, hid, heq⟩
        · exact .inl (List.mem_cons_of_mem _ hmem)
        · exact .inr ⟨old, List.mem_cons_of_mem _ hold, hid, heq⟩

namespace Workspace

variable {α : Type}

def LivePanes (ws : Workspace α) : Prop :=
  ∀ tab ∈ ws.tabs, tab.tier = .destroyed → ¬ws.IsLeaf tab.id

instance (ws : Workspace α) : Decidable ws.LivePanes :=
  inferInstanceAs (Decidable (∀ tab ∈ ws.tabs, _))

def IsDestroyed (ws : Workspace α) (id : TabId) : Prop :=
  ∃ tab ∈ ws.tabs, tab.id = id ∧ tab.tier = .destroyed

theorem livePanes_iff {ws : Workspace α} :
    ws.LivePanes ↔ ∀ id, ws.IsLeaf id → ¬ws.IsDestroyed id := by
  constructor
  · rintro h id hleaf ⟨tab, htab, rfl, hdestroyed⟩
    exact h tab htab hdestroyed hleaf
  · intro h tab htab hdestroyed hleaf
    exact h tab.id hleaf ⟨tab, htab, rfl, hdestroyed⟩

theorem livePanes_of_tree_none {ws : Workspace α} (h : ws.tree = none) : ws.LivePanes :=
  fun tab _ _ => not_isLeaf h tab.id

def Spares (after ws : Workspace α) : Prop := ∀ id, after.IsDestroyed id → ws.IsDestroyed id

namespace Spares

theorem refl (ws : Workspace α) : ws.Spares ws := fun _ h => h

theorem trans {ws after third : Workspace α} (h : third.Spares after) (hafter : after.Spares ws) :
    third.Spares ws := fun id hid => hafter id (h id hid)

end Spares

theorem LivePanes.mono {ws after : Workspace α} (h : ws.LivePanes) (hspares : after.Spares ws)
    (hleaf : ∀ id, after.IsLeaf id → ws.IsLeaf id) : after.LivePanes :=
  livePanes_iff.2 fun id hid hdestroyed =>
    livePanes_iff.1 h id (hleaf id hid) (hspares id hdestroyed)

theorem spares_of_subset {ws after : Workspace α} (h : after.tabs ⊆ ws.tabs) : after.Spares ws := by
  rintro id ⟨tab, htab, hid, hdestroyed⟩
  exact ⟨tab, h htab, hid, hdestroyed⟩

theorem spares_modifyTab {ws : Workspace α} {id : TabId} {change : Tab → Tab}
    (hid : ∀ tab, (change tab).id = tab.id)
    (hchange : ∀ tab, (change tab).tier = .destroyed → tab.tier = .destroyed) :
    (ws.modifyTab id change).Spares ws := by
  rintro other ⟨tab, htab, hother, hdestroyed⟩
  rcases mem_modifyTab htab with hmem | ⟨old, hold, -, rfl⟩
  · exact ⟨tab, hmem, hother, hdestroyed⟩
  · exact ⟨old, hold, (hid old).symm.trans hother, hchange old hdestroyed⟩

theorem spares_touch (ws : Workspace α) (now : Instant) (id : TabId) :
    (ws.modifyTab id (Tab.touch now)).Spares ws :=
  spares_modifyTab (fun _ => rfl) fun _ h => nomatch h

theorem spares_activate (ws : Workspace α) (now : Instant) (id : TabId) :
    (ws.activate now id).Spares ws := by
  unfold activate
  split
  · exact ws.spares_touch now id
  · exact .refl ws

theorem spares_activate? (ws : Workspace α) (now : Instant) (id : Option TabId) :
    (ws.activate? now id).Spares ws := by
  cases id with
  | none => exact .refl ws
  | some id => exact ws.spares_activate now id

theorem spares_refocus (ws : Workspace α) (now : Instant) : (ws.refocus now).Spares ws :=
  spares_activate? { ws with active := none } now _

theorem spares_touchVisible (ws : Workspace α) (now : Clock) :
    (ws.touchVisible now).Spares ws := by
  unfold touchVisible
  generalize ws.visibleTabs.zipIdx = seen
  induction seen generalizing ws with
  | nil => exact .refl ws
  | cons first rest ih => exact (ih _).trans (ws.spares_touch (now.reading first.2) first.1)

theorem isLeaf_activate {ws : Workspace α} {now : Instant} {id other : TabId} :
    (ws.activate now id).IsLeaf other ↔ ws.IsLeaf other := by
  rw [IsLeaf, tree_activate, IsLeaf]

theorem LivePanes.touchVisible {ws : Workspace α} (h : ws.LivePanes) (now : Clock) :
    (ws.touchVisible now).LivePanes := by
  refine h.mono (ws.spares_touchVisible now) fun id hleaf => ?_
  rwa [IsLeaf, (ws.sameLayout_touchVisible now).tree] at hleaf

theorem LivePanes.activate {ws : Workspace α} (h : ws.LivePanes) (now : Instant) (id : TabId) :
    (ws.activate now id).LivePanes :=
  h.mono (ws.spares_activate now id) fun _ hleaf => isLeaf_activate.1 hleaf

theorem LivePanes.addTab {ws : Workspace α} (h : ws.LivePanes) {tab : Tab}
    (htab : tab.tier ≠ .destroyed) : (ws.addTab tab).LivePanes := by
  intro other hother hdestroyed
  rcases List.mem_append.1 hother with hmem | hnew
  · exact h other hmem hdestroyed
  · rw [List.mem_singleton.1 hnew] at hdestroyed
    exact absurd hdestroyed htab

theorem livePanes_adopt (ws : Workspace α) (now : Instant) (tab : Tab) :
    (ws.adopt now tab).LivePanes :=
  livePanes_of_tree_none (tree_activate _ _ _)

theorem LivePanes.selected {ws : Workspace α} (h : ws.LivePanes) (now : Instant) (id : TabId) :
    (ws.selected now id).LivePanes := by
  unfold Workspace.selected
  split
  · exact h.activate now id
  · exact livePanes_of_tree_none (tree_activate _ _ _)

theorem LivePanes.demote {ws : Workspace α} (h : ws.LivePanes)
    {changes : List (TabId × MemoryTier)}
    (hchanges : ∀ change ∈ changes, change.2 = .destroyed → ¬ws.IsLeaf change.1) :
    (ws.demote changes).LivePanes := by
  unfold Workspace.demote
  induction changes generalizing ws with
  | nil => exact h
  | cons change rest ih =>
    refine ih ?_ fun other hother => hchanges other (List.mem_cons_of_mem _ hother)
    intro tab htab hdestroyed
    rcases mem_modifyTab htab with hmem | ⟨old, -, hold, rfl⟩
    · exact h tab hmem hdestroyed
    · exact hold ▸ hchanges change List.mem_cons_self hdestroyed

variable [Scalar α]

theorem spares_evict (ws : Workspace α) (now : Instant) (tab : TabId) :
    (ws.evict now tab).Spares ws := by
  unfold evict
  split
  · exact .refl ws
  · split
    · exact spares_activate? { ws with tree := some _ } now _
    · exact spares_activate? { ws with tree := none } now _
    · exact .refl ws

theorem Orderly.isLeaf_of_evict {ws : Workspace α} (h : ws.Orderly) {now : Instant}
    {tab id : TabId} (hleaf : (ws.evict now tab).IsLeaf id) : ws.IsLeaf id := by
  obtain ⟨rest, hrest, hmem⟩ := hleaf
  rw [tree_evict] at hrest
  exact (((h.lifted hrest).2 id).1 hmem).1

theorem LivePanes.evict {ws : Workspace α} (h : ws.LivePanes) (hws : ws.Orderly) (now : Instant)
    (tab : TabId) : (ws.evict now tab).LivePanes :=
  h.mono (ws.spares_evict now tab) fun _ hleaf => hws.isLeaf_of_evict hleaf

theorem LivePanes.detach? {ws rest : Workspace α} (h : ws.LivePanes) (hws : ws.Orderly)
    {now : Instant} {id : TabId} {tab : Tab} (hdetach : ws.detach? now id = some (tab, rest)) :
    rest.LivePanes := by
  have hwithout : ((ws.evict now id).withoutTab id).LivePanes :=
    (h.evict hws now id).mono (spares_of_subset List.eraseP_subset) fun _ hleaf => hleaf
  obtain ⟨-, ⟨-, rfl⟩ | ⟨-, rfl⟩⟩ := detach?_eq_some hdetach
  · refine hwithout.mono (spares_refocus _ now) fun other hleaf => ?_
    rwa [IsLeaf, tree_refocus] at hleaf
  · exact hwithout

theorem LivePanes.retiered {ws : Workspace α} (h : ws.LivePanes) (hws : ws.Orderly) (now : Instant)
    (id : TabId) (tier : MemoryTier) : (ws.retiered now id tier).LivePanes := by
  unfold Workspace.retiered
  split
  · have hevict := h.evict hws now id
    intro tab htab hdestroyed
    rcases mem_modifyTab htab with hmem | ⟨old, -, rfl, rfl⟩
    · exact hevict tab hmem hdestroyed
    · exact hws.not_isLeaf_evict now old.id
  · rename_i hlive
    exact h.mono (spares_modifyTab (fun _ => rfl) fun _ htier => absurd htier hlive)
      fun _ hleaf => hleaf

/-- Neither the tab nor its anchor is destroyed once the tab has been used. Of two tabs with the id
only the first is. -/
def Welcomes (ws : Workspace α) (now : Instant) (anchor tab : TabId) : Prop :=
  ∀ used ∈ (ws.modifyTab tab (Tab.touch now)).tabs,
    used.id = anchor ∨ used.id = tab → used.tier ≠ .destroyed

instance (ws : Workspace α) (now : Instant) (anchor tab : TabId) :
    Decidable (ws.Welcomes now anchor tab) :=
  inferInstanceAs (Decidable (∀ used ∈ (ws.modifyTab tab (Tab.touch now)).tabs, _))

theorem livePanes_opened_iff {ws : Workspace α} (h : ws.LivePanes) (hws : ws.Orderly)
    {anchor tab : TabId} {tree : PaneTree α} (hopens : ws.Opens anchor tab tree) (now : Instant)
    (focus : TabId) : (ws.opened now tree tab focus).LivePanes ↔ ws.Welcomes now anchor tab := by
  have hleaf (id : TabId) : (ws.opened now tree tab focus).IsLeaf id ↔ id ∈ tree :=
    isLeaf_iff rfl
  constructor
  · rintro hlive used hused hid hdestroyed
    refine hlive used hused hdestroyed ((hleaf used.id).2 ?_)
    rcases hid with hid | hid
    · exact hid ▸ hopens.anchor_mem
    · exact hid ▸ hopens.tab_mem
  · intro hwelcome used hused hdestroyed hused'
    rw [hleaf, hopens.mem_tree] at hused'
    rcases hused' with hid | hpane
    · exact hwelcome used hused (.inr hid) hdestroyed
    · cases hlifted : ws.tree.bind (·.remove tab) with
      | none =>
        rw [hlifted, PaneTree.panesFor, Option.elim_none, List.mem_singleton] at hpane
        exact hwelcome used hused (.inl hpane) hdestroyed
      | some rest =>
        -- The pane was there before, and using a tab destroys none.
        rw [hlifted, PaneTree.panesFor, Option.elim_some] at hpane
        have hbefore : ws.IsDestroyed used.id :=
          ws.spares_touch now tab used.id ⟨used, hused, rfl, hdestroyed⟩
        exact livePanes_iff.1 h used.id (((hws.lifted hlifted).2 used.id).1 hpane).1 hbefore

end Workspace

end PaneTiling
