import PaneTiling.Proofs.Workspace.Rules
import PaneTiling.Window.Idle

/-!
The rules of a workspace under each of its edits: taking a pane out, closing, adopting and selecting
tabs, and opening a pane beside another.
-/

namespace PaneTiling.Workspace

variable {α : Type}

theorem mem_of_mostRecent? {ws : Workspace α} {tab : Tab} (h : ws.mostRecent? = some tab) :
    tab ∈ ws.tabs := by
  unfold mostRecent? at h
  cases hlatest : latestTab? (ws.tabs.filter (·.tier ≠ .destroyed)) with
  | none =>
    rw [hlatest, Option.none_or] at h
    exact List.mem_of_mem_head? h
  | some latest =>
    rw [hlatest, Option.some_or] at h
    cases h
    exact List.mem_of_mem_filter (mem_of_latestTab? hlatest)

theorem isSome_mostRecent? {ws : Workspace α} (h : ws.tabs ≠ []) : ws.mostRecent?.isSome := by
  obtain ⟨tab, rest, htabs⟩ := List.exists_cons_of_ne_nil h
  simp [mostRecent?, htabs]

section Evicting

variable [Scalar α]

@[simp]
theorem ids_evict (ws : Workspace α) (now : Instant) (tab : TabId) :
    (ws.evict now tab).ids = ws.ids := by
  unfold evict
  split
  · rfl
  · split
    · exact ids_activate? _ _ _
    · exact ids_activate? _ _ _
    · rfl

@[simp]
theorem id_evict (ws : Workspace α) (now : Instant) (tab : TabId) :
    (ws.evict now tab).id = ws.id := by
  unfold evict
  split
  · rfl
  · split
    · exact id_activate? _ _ _
    · exact id_activate? _ _ _
    · rfl

theorem tree_evict (ws : Workspace α) (now : Instant) (tab : TabId) :
    (ws.evict now tab).tree = ws.tree.bind (·.remove tab) := by
  unfold evict PaneTree.remove
  split
  · rename_i hnone
    simp [hnone]
  · rename_i tree htree
    rw [htree, Option.bind_some]
    split <;> simp [*]

theorem Orderly.evict {ws : Workspace α} (h : ws.Orderly) (now : Instant) (tab : TabId) :
    (ws.evict now tab).Orderly := by
  unfold Workspace.evict
  split
  · exact h
  · rename_i tree htree
    split
    · rename_i rest hremoved
      have hrest : ∀ t ∈ some rest, t.Shaped := by
        intro t ht
        cases ht
        exact (h.shaped tree htree).removed hremoved
      exact (h.withTree hrest).activate? now _
    · exact h.withoutTree.activate? now _
    · exact h

theorem Orderly.not_isLeaf_evict {ws : Workspace α} (h : ws.Orderly) (now : Instant)
    (tab : TabId) : ¬(ws.evict now tab).IsLeaf tab := by
  rintro ⟨rest, hrest, hmem⟩
  rw [tree_evict] at hrest
  obtain ⟨tree, htree, hrest⟩ := Option.bind_eq_some_iff.1 hrest
  exact (((h.shaped tree htree).remove hrest).2 tab |>.1 hmem).2 rfl

theorem Sound.evict {ws : Workspace α} (h : ws.Sound) (now : Instant) (tab : TabId) :
    (ws.evict now tab).Sound := by
  unfold Workspace.evict
  split
  · exact h
  rename_i tree htree
  have htreeShaped := h.shaped tree htree
  split
  · rename_i rest hremoved
    have hshaped := htreeShaped.removed hremoved
    obtain ⟨-, hids⟩ := PaneTree.tabIds_removed hremoved
    have hleaf : ∀ x ∈ rest, x ∈ tree := fun x hx => by
      rw [PaneTree.mem_def, hids] at hx
      exact List.mem_of_mem_erase hx
    by_cases hfocus : ws.active = some tab
    · -- The focus was on the pane that goes, so it passes to one that stays.
      obtain ⟨next, hnext, hmem⟩ :
          ∃ next, (tree.neighbour? tab).or rest.firstTab? = some next ∧ next ∈ rest := by
        cases hneighbour : tree.neighbour? tab with
        | some next =>
          obtain ⟨hmem, hne⟩ := PaneTree.mem_of_neighbour? htreeShaped.nodup hneighbour
          exact ⟨next, rfl, by rwa [PaneTree.mem_def, hids, List.mem_erase_of_ne hne]⟩
        | none =>
          obtain ⟨next, hnext⟩ := Option.isSome_iff_exists.1
            (PaneTree.firstTab?_isSome (hshaped.branching.mono (by decide)))
          exact ⟨next, hnext, PaneTree.mem_of_firstTab? hnext⟩
      rw [if_pos hfocus, hnext]
      refine sound_activate now ?_ ?_ (h.leaf_mem tree htree next (hleaf next hmem)) ?_
      · intro t ht
        cases ht
        exact hshaped
      · intro t ht x hx
        cases ht
        exact h.leaf_mem tree htree x (hleaf x hx)
      · intro t ht
        cases ht
        exact hmem
    · rw [if_neg hfocus]
      refine ⟨⟨?_, h.focus_none, h.focus_mem⟩, ?_, ?_⟩
      · intro t ht
        cases ht
        exact hshaped
      · intro t ht x hx
        cases ht
        exact h.leaf_mem tree htree x (hleaf x hx)
      · intro x hx t ht
        cases ht
        have hne : x ≠ tab := fun heq => hfocus (heq ▸ hx)
        rw [PaneTree.mem_def, hids, List.mem_erase_of_ne hne]
        exact h.focus_leaf x hx tree htree
  · rename_i remaining hcollapsed
    obtain ⟨other, rfl, -, hmem⟩ := htreeShaped.collapsed hcollapsed
    refine sound_activate now ?_ ?_ (h.leaf_mem tree htree other ((hmem other).2 (.inr rfl))) ?_
    all_goals simp
  · exact h

end Evicting

section Closing

def withoutTab (ws : Workspace α) (id : TabId) : Workspace α :=
  { ws with tabs := ws.tabs.eraseP fun tab => tab.id = id }

theorem ids_withoutTab (ws : Workspace α) (id : TabId) :
    (ws.withoutTab id).ids = ws.ids.erase id := by
  have hsame : (fun tab : Tab => decide (tab.id = id)) = (id == ·) ∘ Tab.id := by
    funext tab
    exact decide_eq_decide.2 eq_comm
  rw [ids, ids, withoutTab, List.erase_eq_eraseP, List.eraseP_map, hsame]

theorem Orderly.withoutTab {ws : Workspace α} (h : ws.Orderly) {id : TabId}
    (hid : ws.HasTab id) (hfocus : ws.active ≠ some id) : (ws.withoutTab id).Orderly := by
  have hmem : ∀ tab ∈ ws.active, (ws.withoutTab id).HasTab tab := by
    intro tab htab
    have hne : tab ≠ id := fun heq => hfocus (heq ▸ htab)
    rw [hasTab_iff, ids_withoutTab, List.mem_erase_of_ne hne]
    exact h.focus_mem tab htab
  refine ⟨h.shaped, ⟨fun hnone => ?_, fun hnil => ?_⟩, hmem⟩
  · exact absurd (h.focus_none.1 hnone) (tabs_ne_nil hid)
  · by_contra hsome
    obtain ⟨tab, htab⟩ := Option.ne_none_iff_exists'.1 hsome
    exact tabs_ne_nil (hmem tab htab) hnil

theorem hasTab_of_tab? {ws : Workspace α} {id : TabId} {tab : Tab} (h : ws.tab? id = some tab) :
    ws.HasTab id := by
  have hid : tab.id = id := by simpa using List.find?_some h
  exact hid ▸ hasTab_of_mem (List.mem_of_find?_eq_some h)

def refocus (ws : Workspace α) (now : Instant) : Workspace α :=
  { ws with active := none }.activate? now (ws.mostRecent?.map Tab.id)

theorem refocus_cases (ws : Workspace α) (now : Instant) :
    ws.tabs = [] ∧ ws.refocus now = { ws with active := none } ∨
      ∃ id, ws.HasTab id ∧ ws.refocus now = { ws with active := none }.activate now id := by
  unfold refocus
  cases hrecent : ws.mostRecent? with
  | none =>
    refine .inl ⟨?_, rfl⟩
    by_contra hne
    simpa [hrecent] using isSome_mostRecent? hne
  | some tab => exact .inr ⟨tab.id, hasTab_of_mem (mem_of_mostRecent? hrecent), rfl⟩

@[simp]
theorem tree_refocus (ws : Workspace α) (now : Instant) : (ws.refocus now).tree = ws.tree :=
  tree_activate? _ _ _

theorem orderly_refocus {ws : Workspace α} (now : Instant)
    (hshaped : ∀ tree ∈ ws.tree, tree.Shaped) : (ws.refocus now).Orderly := by
  rcases refocus_cases ws now with ⟨hnil, heq⟩ | ⟨id, hid, heq⟩
  · rw [heq]
    exact ⟨hshaped, by simp [hnil], nofun⟩
  · rw [heq]
    exact orderly_activate now hshaped hid

theorem sound_refocus {ws : Workspace α} (now : Instant) (hnone : ws.tree = none) :
    (ws.refocus now).Sound := by
  refine ⟨orderly_refocus now (by simp [hnone]), ?_, ?_⟩
  · simp [hnone]
  · simp [hnone]

variable [Scalar α]

theorem detach?_eq_some {ws rest : Workspace α} {now : Instant} {id : TabId} {tab : Tab}
    (h : ws.detach? now id = some (tab, rest)) :
    (ws.evict now id).tab? id = some tab ∧
      ((ws.evict now id).active = some id ∧
          rest = ((ws.evict now id).withoutTab id).refocus now ∨
        (ws.evict now id).active ≠ some id ∧ rest = (ws.evict now id).withoutTab id) := by
  simp only [detach?, Option.bind_eq_bind, Option.bind_eq_some_iff, Option.pure_def] at h
  obtain ⟨found, hfound, h⟩ := h
  split at h
  · rename_i hfocus
    cases h
    exact ⟨hfound, .inl ⟨hfocus, rfl⟩⟩
  · rename_i hfocus
    cases h
    exact ⟨hfound, .inr ⟨hfocus, rfl⟩⟩

theorem id_detach? {ws rest : Workspace α} {now : Instant} {id : TabId} {tab : Tab}
    (h : ws.detach? now id = some (tab, rest)) : rest.id = ws.id := by
  have hevict := id_evict ws now id
  obtain ⟨-, ⟨-, rfl⟩ | ⟨-, rfl⟩⟩ := detach?_eq_some h
  · exact (id_activate? _ _ _).trans hevict
  · exact hevict

theorem Orderly.detach? {ws rest : Workspace α} (h : ws.Orderly) {now : Instant} {id : TabId}
    {tab : Tab} (hdetach : ws.detach? now id = some (tab, rest)) : rest.Orderly := by
  have hevict := h.evict now id
  obtain ⟨htab, ⟨-, rfl⟩ | ⟨hfocus, rfl⟩⟩ := detach?_eq_some hdetach
  · exact orderly_refocus now hevict.shaped
  · exact hevict.withoutTab (hasTab_of_tab? htab) hfocus

theorem Sound.detach? {ws rest : Workspace α} (h : ws.Sound) {now : Instant} {id : TabId}
    {tab : Tab} (hdetach : ws.detach? now id = some (tab, rest)) : rest.Sound := by
  have hevict := h.evict now id
  have hgone := h.not_isLeaf_evict now id
  obtain ⟨htab, ⟨hfocus, rfl⟩ | ⟨hfocus, rfl⟩⟩ := detach?_eq_some hdetach
  · -- A tab that has the focus but is no pane is shown alone.
    refine sound_refocus now (Option.eq_none_iff_forall_ne_some.2 fun tree htree => ?_)
    exact hgone ⟨tree, htree, hevict.focus_leaf id hfocus tree htree⟩
  · refine ⟨hevict.withoutTab (hasTab_of_tab? htab) hfocus, ?_, hevict.focus_leaf⟩
    intro tree htree leaf hleaf
    have hne : leaf ≠ id := fun heq => hgone ⟨tree, htree, heq ▸ hleaf⟩
    rw [hasTab_iff, ids_withoutTab, List.mem_erase_of_ne hne]
    exact hevict.leaf_mem tree htree leaf hleaf

end Closing

section Showing

theorem ids_addTab (ws : Workspace α) (tab : Tab) : (ws.addTab tab).ids = ws.ids ++ [tab.id] := by
  simp [ids, addTab]

theorem Orderly.addTab {ws : Workspace α} (h : ws.Orderly) (tab : Tab) :
    (ws.addTab tab).Orderly := by
  refine ⟨h.shaped, by simp [Workspace.addTab], fun id hid => ?_⟩
  rw [hasTab_iff, ids_addTab, List.mem_append]
  simp only [Workspace.addTab, Option.mem_def, Option.or_eq_some_iff] at hid
  rcases hid with hid | ⟨-, hid⟩
  · exact .inl (h.focus_mem id hid)
  · cases hid
    exact .inr List.mem_cons_self

theorem Sound.addTab {ws : Workspace α} (h : ws.Sound) (tab : Tab) : (ws.addTab tab).Sound := by
  refine ⟨h.toOrderly.addTab tab, fun tree htree leaf hleaf => ?_, fun id hid tree htree => ?_⟩
  · rw [hasTab_iff, ids_addTab, List.mem_append]
    exact .inl (h.leaf_mem tree htree leaf hleaf)
  · simp only [Workspace.addTab, Option.mem_def, Option.or_eq_some_iff] at hid
    rcases hid with hid | ⟨hnone, -⟩
    · exact h.focus_leaf id hid tree htree
    · -- A workspace with a pane has a tab, and so a focus.
      have hshaped := h.shaped tree htree
      have hpos : 0 < tree.tabIds.length := by
        have htwo := hshaped.two_le
        omega
      obtain ⟨leaf, hleaf⟩ := List.exists_mem_of_length_pos hpos
      exact absurd (h.focus_none.1 hnone) (tabs_ne_nil (h.leaf_mem tree htree leaf hleaf))

@[simp]
theorem id_adopt (ws : Workspace α) (now : Instant) (tab : Tab) : (ws.adopt now tab).id = ws.id :=
  id_activate _ _ _

theorem sound_alone {ws : Workspace α} (now : Instant) {id : TabId} (hid : ws.HasTab id) :
    (({ ws with tree := none } : Workspace α).activate now id).Sound :=
  sound_activate now (by simp) (by simp) hid (by simp)

theorem sound_adopt (ws : Workspace α) (now : Instant) (tab : Tab) :
    (ws.adopt now tab).Sound := by
  have hid : HasTab ({ ws with tabs := ws.tabs ++ [tab] } : Workspace α) tab.id := by simp [HasTab]
  exact sound_alone now hid

theorem Sound.withoutTree {ws : Workspace α} (h : ws.Sound) :
    Sound ({ ws with tree := none } : Workspace α) :=
  ⟨h.toOrderly.withoutTree, by simp, by simp⟩

theorem Sound.activate {ws : Workspace α} (h : ws.Sound) (now : Instant) {id : TabId}
    (hid : ws.HasTab id) (hleaf : ∀ tree ∈ ws.tree, id ∈ tree) : (ws.activate now id).Sound :=
  sound_activate now h.shaped h.leaf_mem hid hleaf

theorem mem_visibleTabs {ws : Workspace α} {id : TabId} :
    id ∈ ws.visibleTabs ↔ ws.IsLeaf id ∨ ws.tree = none ∧ ws.active = some id := by
  unfold visibleTabs
  split
  · rename_i tree htree
    simp [isLeaf_iff htree, htree, PaneTree.mem_def]
  · rename_i hnone
    simp [not_isLeaf hnone, hnone]

theorem Sound.hasTab_of_visible {ws : Workspace α} (h : ws.Sound) {id : TabId}
    (hid : id ∈ ws.visibleTabs) : ws.HasTab id := by
  rcases mem_visibleTabs.1 hid with ⟨tree, htree, hmem⟩ | ⟨-, hactive⟩
  · exact h.leaf_mem tree htree id hmem
  · exact h.focus_mem id hactive

theorem mem_tree_of_visible {ws : Workspace α} {id : TabId} (hid : id ∈ ws.visibleTabs) :
    ∀ tree ∈ ws.tree, id ∈ tree := by
  intro tree htree
  rcases mem_visibleTabs.1 hid with hleaf | ⟨hnone, -⟩
  · exact (isLeaf_iff htree).1 hleaf
  · rw [hnone] at htree
    cases htree

def selected (ws : Workspace α) (now : Instant) (id : TabId) : Workspace α :=
  (if ws.IsLeaf id then ws else { ws with tree := none }).activate now id

@[simp]
theorem id_selected (ws : Workspace α) (now : Instant) (id : TabId) :
    (ws.selected now id).id = ws.id := by
  unfold selected
  split
  · exact id_activate _ _ _
  · exact id_activate _ _ _

theorem Orderly.selected {ws : Workspace α} (h : ws.Orderly) (now : Instant) (id : TabId) :
    (ws.selected now id).Orderly := by
  unfold Workspace.selected
  split
  · exact h.activate now id
  · exact h.withoutTree.activate now id

theorem Sound.selected {ws : Workspace α} (h : ws.Sound) (now : Instant) {id : TabId}
    (hid : ws.HasTab id) : (ws.selected now id).Sound := by
  unfold Workspace.selected
  split
  · rename_i hleaf
    exact h.activate now hid fun tree htree => (isLeaf_iff htree).1 hleaf
  · exact sound_alone now hid

end Showing

section Tiers

theorem sameLayout_demote (ws : Workspace α) (changes : List (TabId × MemoryTier)) :
    (ws.demote changes).SameLayout ws := by
  have hstep (other : Workspace α) (change : TabId × MemoryTier) :
      (other.modifyTab change.1 fun tab => { tab with tier := change.2 }).SameLayout other :=
    sameLayout_modifyTab other change.1 fun _ => rfl
  exact sameLayout_foldl hstep changes ws

variable [Scalar α]

/-- A workspace in which a tab was given another tier, and a destroyed tab its pane taken. -/
def retiered (ws : Workspace α) (now : Instant) (id : TabId)
    (tier : MemoryTier) : Workspace α :=
  (if tier = .destroyed then ws.evict now id else ws).modifyTab id fun tab => { tab with tier }

@[simp]
theorem id_retiered (ws : Workspace α) (now : Instant) (id : TabId) (tier : MemoryTier) :
    (ws.retiered now id tier).id = ws.id := by
  unfold retiered
  split <;> simp

theorem Orderly.retiered {ws : Workspace α} (h : ws.Orderly) (now : Instant) (id : TabId)
    (tier : MemoryTier) : (ws.retiered now id tier).Orderly := by
  unfold Workspace.retiered
  split
  · exact (h.evict now id).congr (sameLayout_modifyTab _ id fun _ => rfl)
  · exact h.congr (sameLayout_modifyTab _ id fun _ => rfl)

theorem Sound.retiered {ws : Workspace α} (h : ws.Sound) (now : Instant) (id : TabId)
    (tier : MemoryTier) : (ws.retiered now id tier).Sound := by
  unfold Workspace.retiered
  split
  · exact (h.evict now id).congr (sameLayout_modifyTab _ id fun _ => rfl)
  · exact h.congr (sameLayout_modifyTab _ id fun _ => rfl)

end Tiers

end PaneTiling.Workspace
