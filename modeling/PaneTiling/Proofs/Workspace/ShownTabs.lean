import PaneTiling.Proofs.Workspace.Idle
import PaneTiling.Proofs.Workspace.Opening
import PaneTiling.Proofs.Workspace.Restoring

/-!
Tabs that are shown and pages that are in memory. What is used comes back to memory, and a
workspace in front keeps the pages of what it shows; so an edit can only show a page that is not in
memory if it shows a tab that was not shown before and does not use it. The tab that has the focus
but no pane, which a workspace falls back on when it leaves its split, is always in memory.
-/

namespace PaneTiling

theorem find?_modifyTab {id other : TabId} {change : Tab → Tab}
    (hid : ∀ tab, (change tab).id = tab.id) (tabs : List Tab) :
    (modifyTab id change tabs).find? (·.id = other) =
      if other = id then (tabs.find? (·.id = id)).map change else tabs.find? (·.id = other) := by
  induction tabs with
  | nil => simp [modifyTab]
  | cons first rest ih =>
    rw [modifyTab]
    by_cases hfirst : first.id = id
    · by_cases hother : other = id
      · simp [hfirst, hother, hid]
      · have hne : first.id ≠ other := fun heq => hother (heq.symm.trans hfirst)
        simp [hfirst, hother, hid, Ne.symm hother]
    · rw [if_neg hfirst, List.find?_cons, List.find?_cons, ih]
      by_cases hother : other = id
      · simp [hother, hfirst]
      · by_cases hne : first.id = other <;> simp [hother, hne]

namespace Workspace

variable {α : Type} {ws : Workspace α} {now : Instant} {id other : TabId}

theorem isSome_tab?_iff : (ws.tab? id).isSome ↔ ws.HasTab id := by
  simp [tab?, HasTab]

def IsLoaded (ws : Workspace α) (id : TabId) : Prop := ∃ tab ∈ ws.tab? id, tab.tier = .active

instance (ws : Workspace α) (id : TabId) : Decidable (ws.IsLoaded id) :=
  inferInstanceAs (Decidable (∃ tab ∈ ws.tab? id, _))

theorem IsLoaded.hasTab (h : ws.IsLoaded id) : ws.HasTab id := by
  obtain ⟨tab, htab, -⟩ := h
  exact hasTab_of_tab? htab

theorem tab?_modifyTab (ws : Workspace α) (id other : TabId) {change : Tab → Tab}
    (hid : ∀ tab, (change tab).id = tab.id) :
    (ws.modifyTab id change).tab? other =
      if other = id then (ws.tab? id).map change else ws.tab? other :=
  find?_modifyTab hid ws.tabs

theorem hasTab_touch : (ws.modifyTab id (Tab.touch now)).HasTab other ↔ ws.HasTab other :=
  hasTab_modifyTab fun _ => rfl

theorem isLoaded_touch : (ws.modifyTab id (Tab.touch now)).IsLoaded other ↔
    ws.IsLoaded other ∨ other = id ∧ ws.HasTab id := by
  have hfound : (ws.modifyTab id (Tab.touch now)).tab? other = _ :=
    tab?_modifyTab ws id other fun _ => rfl
  rw [IsLoaded, hfound]
  by_cases hother : other = id
  · subst hother
    rw [if_pos rfl]
    constructor
    · rintro ⟨tab, htab, -⟩
      obtain ⟨old, hold, rfl⟩ := Option.map_eq_some_iff.1 htab
      exact .inr ⟨rfl, hasTab_of_tab? hold⟩
    · intro h
      have hhas : ws.HasTab other := h.elim IsLoaded.hasTab And.right
      obtain ⟨old, hold⟩ := Option.isSome_iff_exists.1 (isSome_tab?_iff.2 hhas)
      exact ⟨old.touch now, by rw [hold]; rfl, rfl⟩
  · simp [hother, IsLoaded]

theorem isLoaded_activate : (ws.activate now id).IsLoaded other ↔
    ws.IsLoaded other ∨ other = id ∧ ws.HasTab id := by
  unfold activate
  split
  · exact isLoaded_touch
  · rename_i hid
    exact (or_iff_left fun h => hid h.2).symm

theorem IsLoaded.activate? (h : ws.IsLoaded other) (now : Instant) (id : Option TabId) :
    (ws.activate? now id).IsLoaded other := by
  cases id with
  | none => exact h
  | some id => exact isLoaded_activate.2 (.inl h)

theorem isLoaded_touchVisible {clock : Clock} : (ws.touchVisible clock).IsLoaded other ↔
    ws.IsLoaded other ∨ other ∈ ws.visibleTabs ∧ ws.HasTab other := by
  have hseen : ws.visibleTabs.zipIdx.map (·.1) = ws.visibleTabs := List.zipIdx_map_fst 0 _
  rw [← hseen, touchVisible]
  clear hseen
  generalize ws.visibleTabs.zipIdx = seen
  induction seen generalizing ws with
  | nil => simp
  | cons first rest ih =>
    rw [List.foldl_cons, List.map_cons, List.mem_cons]
    refine ih.trans ?_
    rw [isLoaded_touch, hasTab_touch]
    by_cases hfirst : other = first.1
    · subst hfirst
      simp only [true_and, true_or]
      rw [or_assoc, or_iff_left_of_imp And.right]
    · simp [hfirst]

theorem isLoaded_withoutTab (h : other ≠ id) :
    (ws.withoutTab id).IsLoaded other ↔ ws.IsLoaded other := by
  have hsame : (ws.withoutTab id).tab? other = ws.tab? other := by
    unfold withoutTab tab?
    simp only
    induction ws.tabs with
    | nil => rfl
    | cons first rest ih =>
      rw [List.eraseP_cons]
      by_cases hfirst : first.id = id
      · have hne : first.id ≠ other := fun heq => h (heq.symm.trans hfirst)
        simp [hfirst, Ne.symm h]
      · have hkept : decide (first.id = id) = false := decide_eq_false hfirst
        rw [hkept, cond_false, List.find?_cons, List.find?_cons, ih]
  rw [IsLoaded, hsame, IsLoaded]

theorem IsLoaded.addTab (h : ws.IsLoaded other) (tab : Tab) : (ws.addTab tab).IsLoaded other := by
  obtain ⟨found, hfound, hactive⟩ := h
  refine ⟨found, ?_, hactive⟩
  have happend : (ws.addTab tab).tab? other = (ws.tab? other).or ([tab].find? (·.id = other)) :=
    List.find?_append
  rw [happend, hfound, Option.some_or]
  rfl

def ShowsLoaded (ws : Workspace α) : Prop := ∀ id ∈ ws.visibleTabs, ws.IsLoaded id

instance (ws : Workspace α) : Decidable ws.ShowsLoaded :=
  inferInstanceAs (Decidable (∀ id ∈ ws.visibleTabs, _))

/-- The tab that has the focus is shown, or its page is in memory. -/
def Steady (ws : Workspace α) : Prop := ∀ id ∈ ws.active, id ∈ ws.visibleTabs ∨ ws.IsLoaded id

theorem ShowsLoaded.focus (h : ws.ShowsLoaded) (hsteady : ws.Steady) :
    ∀ id ∈ ws.active, ws.IsLoaded id :=
  fun id hid => (hsteady id hid).elim (h id) fun hloaded => hloaded

theorem mem_visibleTabs_of_tree {tree : PaneTree α} (h : ws.tree = some tree) :
    id ∈ ws.visibleTabs ↔ id ∈ tree := by
  rw [visibleTabs, h]
  rfl

theorem mem_visibleTabs_alone (h : ws.tree = none) :
    id ∈ ws.visibleTabs ↔ ws.active = some id := by
  rw [visibleTabs, h]
  exact Option.mem_toList

theorem visibleTabs_congr {after : Workspace α} (htree : after.tree = ws.tree)
    (hactive : after.active = ws.active) : after.visibleTabs = ws.visibleTabs := by
  rw [visibleTabs, visibleTabs, htree, hactive]

theorem steady_alone (h : ws.tree = none) : ws.Steady :=
  fun _ hid => .inl ((mem_visibleTabs_alone h).2 hid)

theorem Sound.steady (h : ws.Sound) : ws.Steady := by
  intro id hid
  cases htree : ws.tree with
  | none => exact .inl ((mem_visibleTabs_alone htree).2 hid)
  | some tree => exact .inl ((mem_visibleTabs_of_tree htree).2 (h.focus_leaf id hid tree htree))

theorem Steady.congr {after : Workspace α} (h : ws.Steady) (hsame : after.SameLayout ws)
    (hfocus : ∀ id ∈ ws.active, ws.IsLoaded id → after.IsLoaded id) : after.Steady := by
  intro id hid
  rw [hsame.active] at hid
  rw [visibleTabs_congr hsame.tree hsame.active]
  exact (h id hid).imp_right (hfocus id hid)

theorem ShowsLoaded.congr {after : Workspace α} (h : ws.ShowsLoaded) (hsame : after.SameLayout ws)
    (hshown : ∀ id ∈ ws.visibleTabs, ws.IsLoaded id → after.IsLoaded id) : after.ShowsLoaded := by
  intro id hid
  rw [visibleTabs_congr hsame.tree hsame.active] at hid
  exact hshown id hid (h id hid)

theorem showsLoaded_touchVisible_iff {clock : Clock} :
    (ws.touchVisible clock).ShowsLoaded ↔ ∀ id ∈ ws.visibleTabs, ws.HasTab id := by
  have hsame := ws.sameLayout_touchVisible clock
  rw [ShowsLoaded, visibleTabs_congr hsame.tree hsame.active]
  refine forall₂_congr fun id hid => ?_
  rw [isLoaded_touchVisible]
  exact ⟨fun h => h.elim IsLoaded.hasTab And.right, fun h => .inr ⟨hid, h⟩⟩

theorem Steady.activate (h : ws.Steady) (now : Instant) (id : TabId) :
    (ws.activate now id).Steady := by
  by_cases hid : ws.HasTab id
  · intro focus hfocus
    rw [active_activate, if_pos hid] at hfocus
    cases hfocus
    exact .inr (isLoaded_activate.2 (.inr ⟨rfl, hid⟩))
  · rwa [Workspace.activate, if_neg hid]

theorem ShowsLoaded.activate (h : ws.ShowsLoaded) (now : Instant) (id : TabId) :
    (ws.activate now id).ShowsLoaded := by
  by_cases hid : ws.HasTab id
  · intro shown hshown
    rw [isLoaded_activate]
    rw [mem_visibleTabs, IsLeaf, tree_activate, active_activate, if_pos hid] at hshown
    rcases hshown with hleaf | ⟨-, hfocus⟩
    · exact .inl (h shown (mem_visibleTabs.2 (.inl hleaf)))
    · exact .inr ⟨(Option.some.inj hfocus).symm, hid⟩
  · rwa [Workspace.activate, if_neg hid]

theorem addTab_cases (h : ws.Orderly) (tab : Tab) :
    (ws.addTab tab).active = ws.active ∨
      (ws.addTab tab).active = some tab.id ∧ (ws.addTab tab).tab? tab.id = some tab := by
  cases hactive : ws.active with
  | some focus => exact .inl (by simp [Workspace.addTab, hactive])
  | none =>
    have htabs : ws.tabs = [] := h.focus_none.1 hactive
    exact .inr ⟨by simp [Workspace.addTab, hactive], by simp [Workspace.addTab, tab?, htabs]⟩

theorem Steady.addTab (h : ws.Steady) (hws : ws.Orderly) {tab : Tab} (htab : tab.tier = .active) :
    (ws.addTab tab).Steady := by
  intro id hid
  rcases addTab_cases hws tab with hsame | ⟨hnew, hfound⟩
  · rw [hsame] at hid
    rw [visibleTabs_congr (show (ws.addTab tab).tree = ws.tree from rfl) hsame]
    exact (h id hid).imp_right fun hloaded => hloaded.addTab tab
  · rw [hnew] at hid
    cases hid
    exact .inr ⟨tab, hfound, htab⟩

theorem ShowsLoaded.addTab (h : ws.ShowsLoaded) (hws : ws.Orderly) {tab : Tab}
    (htab : tab.tier = .active) : (ws.addTab tab).ShowsLoaded := by
  intro id hid
  rcases addTab_cases hws tab with hsame | ⟨hnew, hfound⟩
  · rw [visibleTabs_congr (show (ws.addTab tab).tree = ws.tree from rfl) hsame] at hid
    exact (h id hid).addTab tab
  · rcases mem_visibleTabs.1 hid with hleaf | ⟨-, hfocus⟩
    · exact (h id (mem_visibleTabs.2 (.inl hleaf))).addTab tab
    · cases hnew.symm.trans hfocus
      exact ⟨tab, hfound, htab⟩

theorem ShowsLoaded.withoutTree (h : ws.ShowsLoaded) (hsteady : ws.Steady) :
    ShowsLoaded ({ ws with tree := none } : Workspace α) :=
  fun id hid => h.focus hsteady id (Option.mem_toList.1 hid)

theorem showsLoaded_alone (hid : ws.HasTab id) :
    ShowsLoaded (({ ws with tree := none } : Workspace α).activate now id) := by
  intro shown hshown
  rw [mem_visibleTabs_alone (tree_activate _ _ _), active_activate,
    if_pos (show HasTab { ws with tree := none } id from hid)] at hshown
  cases hshown
  exact isLoaded_activate.2 (.inr ⟨rfl, hid⟩)

theorem showsLoaded_adopt (ws : Workspace α) (now : Instant) (tab : Tab) :
    (ws.adopt now tab).ShowsLoaded := by
  have hid : HasTab ({ ws with tabs := ws.tabs ++ [tab] } : Workspace α) tab.id := by simp [HasTab]
  exact showsLoaded_alone hid

theorem Steady.selected (h : ws.Steady) (now : Instant) (id : TabId) :
    (ws.selected now id).Steady := by
  unfold Workspace.selected
  split
  · exact h.activate now id
  · exact steady_alone (tree_activate _ _ _)

def LoadedBeside (ws : Workspace α) (id : TabId) : Prop :=
  ws.IsLeaf id → ∀ other ∈ ws.visibleTabs, other ≠ id → ws.IsLoaded other

instance (ws : Workspace α) (id : TabId) : Decidable (ws.LoadedBeside id) :=
  inferInstanceAs (Decidable (_ → ∀ other ∈ ws.visibleTabs, _))

theorem showsLoaded_selected_iff (hid : ws.HasTab id) :
    (ws.selected now id).ShowsLoaded ↔ ws.LoadedBeside id := by
  unfold Workspace.selected
  split
  · rename_i hleaf
    have hpane := hleaf
    obtain ⟨tree, htree, -⟩ := hpane
    have hafter : (ws.activate now id).tree = some tree := (tree_activate ws now id).trans htree
    rw [LoadedBeside, imp_iff_right hleaf]
    refine forall_congr' fun other => ?_
    rw [mem_visibleTabs_of_tree hafter, mem_visibleTabs_of_tree htree, isLoaded_activate]
    refine imp_congr_right fun _ => ?_
    rw [or_comm, or_iff_not_imp_left, and_iff_left hid]
  · rename_i hleaf
    exact iff_of_true (showsLoaded_alone hid) fun h => absurd h hleaf

theorem isLoaded_demote {changes : List (TabId × MemoryTier)}
    (h : ∀ change ∈ changes, change.1 ≠ id) :
    (ws.demote changes).IsLoaded id ↔ ws.IsLoaded id := by
  unfold demote
  induction changes generalizing ws with
  | nil => exact Iff.rfl
  | cons change rest ih =>
    have hne : id ≠ change.1 := (h change List.mem_cons_self).symm
    have hfound : (ws.modifyTab change.1 fun tab => { tab with tier := change.2 }).tab? id = _ :=
      tab?_modifyTab ws change.1 id fun _ => rfl
    rw [if_neg hne] at hfound
    rw [List.foldl_cons, ih fun later hlater => h later (List.mem_cons_of_mem _ hlater), IsLoaded,
      hfound, IsLoaded]

theorem Steady.demote (h : ws.Steady) (inFront : Bool) (suspendAfter destroyAfter : Nat)
    (time : Instant) :
    (ws.demote (ws.demotions inFront suspendAfter destroyAfter time)).Steady := by
  refine h.congr (ws.sameLayout_demote _) fun id hid => (isLoaded_demote ?_).2
  rintro change hchange rfl
  exact (not_spared_of_demotions change hchange).1 hid

theorem ShowsLoaded.demote (h : ws.ShowsLoaded) (suspendAfter destroyAfter : Nat)
    (time : Instant) :
    (ws.demote (ws.demotions true suspendAfter destroyAfter time)).ShowsLoaded := by
  refine h.congr (ws.sameLayout_demote _) fun id hid => (isLoaded_demote ?_).2
  rintro change hchange rfl
  have hkept := not_spared_of_demotions change hchange
  rcases mem_visibleTabs.1 hid with hleaf | ⟨-, hfocus⟩
  · exact hkept.2 rfl hleaf
  · exact hkept.1 hfocus

section Closing

theorem activate?_cases (ws : Workspace α) (now : Instant) (target : Option TabId) :
    (∀ id ∈ (ws.activate? now target).active, (ws.activate? now target).IsLoaded id) ∨
      ws.activate? now target = ws := by
  cases target with
  | none => exact .inr rfl
  | some id =>
    by_cases hid : ws.HasTab id
    · refine .inl fun focus hfocus => ?_
      rw [activate?, active_activate, if_pos hid] at hfocus
      cases hfocus
      exact isLoaded_activate.2 (.inr ⟨rfl, hid⟩)
    · exact .inr (if_neg hid)

theorem ShowsLoaded.activate? (h : ws.ShowsLoaded) (now : Instant) (target : Option TabId) :
    (ws.activate? now target).ShowsLoaded := by
  cases target with
  | none => exact h
  | some id => exact h.activate now id

theorem isLoaded_refocus (ws : Workspace α) (now : Instant) :
    ∀ id ∈ (ws.refocus now).active, (ws.refocus now).IsLoaded id := by
  rcases refocus_cases ws now with ⟨-, heq⟩ | ⟨id, hid, heq⟩
  · rw [heq]
    exact nofun
  · have hhas : HasTab ({ ws with active := none } : Workspace α) id := hid
    rw [heq, active_activate, if_pos hhas]
    intro focus hfocus
    cases hfocus
    exact isLoaded_activate.2 (.inr ⟨rfl, hhas⟩)

variable [Scalar α]

theorem ShowsLoaded.evict (h : ws.ShowsLoaded) (hws : ws.Orderly) (now : Instant) (tab : TabId) :
    (ws.evict now tab).ShowsLoaded := by
  unfold Workspace.evict
  split
  · exact h
  rename_i tree htree
  split
  · rename_i rest hremoved
    obtain ⟨-, hids⟩ := PaneTree.tabIds_removed hremoved
    have hrest : ShowsLoaded ({ ws with tree := some rest } : Workspace α) := by
      intro id hid
      have hmem : id ∈ rest.tabIds := hid
      rw [hids] at hmem
      exact h id ((mem_visibleTabs_of_tree htree).2 (List.mem_of_mem_erase hmem))
    exact hrest.activate? now _
  · rename_i remaining hcollapsed
    obtain ⟨other, rfl, -, hmem⟩ := (hws.shaped tree htree).collapsed hcollapsed
    have hother := h other ((mem_visibleTabs_of_tree htree).2 ((hmem other).2 (.inr rfl)))
    exact showsLoaded_alone hother.hasTab
  · exact h

theorem Steady.evict (h : ws.Steady) (now : Instant) (tab : TabId) :
    ∀ id ∈ (ws.evict now tab).active, id ≠ tab →
      id ∈ (ws.evict now tab).visibleTabs ∨ (ws.evict now tab).IsLoaded id := by
  unfold Workspace.evict
  split
  · exact fun id hid _ => h id hid
  rename_i tree htree
  split
  · rename_i rest hremoved
    obtain ⟨-, hids⟩ := PaneTree.tabIds_removed hremoved
    simp only
    rcases activate?_cases { ws with tree := some rest } now
        (if ws.active = some tab then (tree.neighbour? tab).or rest.firstTab? else none) with
      hfocus | hsame
    · exact fun id hid _ => .inr (hfocus id hid)
    · rw [hsame]
      intro id hid hne
      refine (h id hid).imp_left fun hshown => ?_
      rw [mem_visibleTabs_of_tree htree, PaneTree.mem_def] at hshown
      have hmem : id ∈ rest.tabIds := by rwa [hids, List.mem_erase_of_ne hne]
      exact hmem
  · exact fun id hid _ => steady_alone (tree_activate? _ _ _) id hid
  · exact fun id hid _ => h id hid

theorem ShowsLoaded.detach? {rest : Workspace α} (h : ws.ShowsLoaded) (hws : ws.Orderly)
    {tab : Tab} (hdetach : ws.detach? now id = some (tab, rest)) : rest.ShowsLoaded := by
  have hevict := h.evict hws now id
  have hgone := hws.not_isLeaf_evict now id
  have hkept (shown : TabId) (hne : shown ≠ id) (hshown : shown ∈ (ws.evict now id).visibleTabs) :
      ((ws.evict now id).withoutTab id).IsLoaded shown :=
    (isLoaded_withoutTab hne).2 (hevict shown hshown)
  obtain ⟨-, ⟨-, rfl⟩ | ⟨hfocus, rfl⟩⟩ := detach?_eq_some hdetach
  · intro shown hshown
    rcases mem_visibleTabs.1 hshown with hleaf | ⟨-, hactive⟩
    · rw [IsLeaf, tree_refocus] at hleaf
      have hne : shown ≠ id := fun heq => hgone (heq ▸ hleaf)
      have hloaded : IsLoaded { (ws.evict now id).withoutTab id with active := none } shown :=
        hkept shown hne (mem_visibleTabs.2 (.inl hleaf))
      exact hloaded.activate? now _
    · exact isLoaded_refocus _ now shown hactive
  · intro shown hshown
    have hbefore : shown ∈ (ws.evict now id).visibleTabs := hshown
    refine hkept shown ?_ hbefore
    rintro rfl
    rcases mem_visibleTabs.1 hbefore with hleaf | ⟨-, hactive⟩
    · exact hgone hleaf
    · exact hfocus hactive

theorem Steady.detach? {rest : Workspace α} (h : ws.Steady) {tab : Tab}
    (hdetach : ws.detach? now id = some (tab, rest)) : rest.Steady := by
  obtain ⟨-, ⟨-, rfl⟩ | ⟨hfocus, rfl⟩⟩ := detach?_eq_some hdetach
  · exact fun focus hactive => .inr (isLoaded_refocus _ now focus hactive)
  · intro focus hactive
    have hne : focus ≠ id := fun heq => hfocus (heq ▸ hactive)
    exact (h.evict now id focus hactive hne).imp_right (isLoaded_withoutTab hne).2

end Closing

section Opening

variable {anchor tab : TabId} {tree moved : PaneTree α}

theorem steady_opened {focus : TabId} (hfocus : focus ∈ tree) (now : Instant) (tab : TabId) :
    (ws.opened now tree tab focus).Steady := by
  intro id hid
  cases hid
  exact .inl ((mem_visibleTabs_of_tree rfl).2 hfocus)

theorem visibleTabs_resized (htree : ws.tree = some tree) (hmoved : moved.outline = tree.outline) :
    visibleTabs ({ ws with tree := some moved } : Workspace α) = ws.visibleTabs := by
  rw [visibleTabs, visibleTabs, htree]
  simp only
  rw [← PaneTree.tabIds_outline, hmoved, PaneTree.tabIds_outline]

variable [Scalar α]

theorem showsLoaded_opened_iff (h : ws.ShowsLoaded) (hws : ws.Orderly)
    (hopens : ws.Opens anchor tab tree) (focus : TabId) :
    (ws.opened now tree tab focus).ShowsLoaded ↔ ws.IsLoaded anchor := by
  have hshown (id : TabId) : id ∈ (ws.opened now tree tab focus).visibleTabs ↔ id ∈ tree :=
    mem_visibleTabs_of_tree rfl
  have hloaded (id : TabId) : (ws.opened now tree tab focus).IsLoaded id ↔
      ws.IsLoaded id ∨ id = tab ∧ ws.HasTab tab := isLoaded_touch
  constructor
  · intro hafter
    have hanchor := (hloaded anchor).1 (hafter anchor ((hshown anchor).2 hopens.anchor_mem))
    exact hanchor.resolve_right fun heq => hopens.anchor_ne heq.1
  · intro hanchor id hid
    rw [hloaded]
    rw [hshown, hopens.mem_tree] at hid
    rcases hid with rfl | hpane
    · exact .inr ⟨rfl, hopens.hasTab⟩
    · refine .inl ?_
      cases hlifted : ws.tree.bind (·.remove tab) with
      | none =>
        rw [hlifted, PaneTree.panesFor, Option.elim_none, List.mem_singleton] at hpane
        exact hpane ▸ hanchor
      | some rest =>
        rw [hlifted, PaneTree.panesFor, Option.elim_some] at hpane
        exact h id (mem_visibleTabs.2 (.inl (((hws.lifted hlifted).2 id).1 hpane).1))

end Opening

end Workspace

namespace SavedWorkspace

variable {α : Type} [Scalar α]

theorem not_isLoaded_restored (saved : SavedWorkspace α) (now : Instant) (id : TabId) :
    ¬(saved.restored now).IsLoaded id := by
  rintro ⟨tab, htab, hactive⟩
  obtain ⟨kept, -, rfl⟩ := List.mem_map.1 (List.mem_of_find?_eq_some htab)
  cases hactive

theorem showsLoaded_restored_iff (saved : SavedWorkspace α) (now : Instant) :
    (saved.restored now).ShowsLoaded ↔ saved.tabs = [] := by
  have hsound := saved.sound_restored now
  have htabs : (saved.restored now).tabs = [] ↔ saved.tabs = [] := by
    rw [tabs_restored_eq_nil_iff, tabIds, List.map_eq_nil_iff]
  rw [← htabs]
  constructor
  · intro hshown
    refine hsound.focus_none.1 (Option.eq_none_iff_forall_ne_some.2 fun id hid => ?_)
    exact saved.not_isLoaded_restored now id (hshown.focus hsound.steady id hid)
  · intro hnil id hid
    exact absurd hnil (Workspace.tabs_ne_nil (hsound.hasTab_of_visible hid))

theorem showsLoaded_restored_touched (saved : SavedWorkspace α) (now : Instant) (clock : Clock) :
    ((saved.restored now).touchVisible clock).ShowsLoaded :=
  Workspace.showsLoaded_touchVisible_iff.2 fun _ hid =>
    (saved.sound_restored now).hasTab_of_visible hid

end SavedWorkspace

end PaneTiling
