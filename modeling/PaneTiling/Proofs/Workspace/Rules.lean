import PaneTiling.Proofs.PaneTree.Paths

/-!
The rules of a workspace. It is orderly if its tree is one that may be shown and the focus is on one
of its tabs as long as it has any. It is sound if, besides, every pane shows one of its tabs and the
focus is on a pane. What a workspace does to itself keeps both, as long as new panes are put beside
panes that are there.
-/

namespace PaneTiling

/-- The later used of two tabs; of two used at the same time the second. -/
def laterTab (best : Option Tab) (tab : Tab) : Option Tab :=
  match best with
  | none => some tab
  | some old => if old.lastActive ≤ tab.lastActive then some tab else best

theorem laterTab_cases (best : Option Tab) (tab : Tab) :
    laterTab best tab = some tab ∨ best.isSome ∧ laterTab best tab = best := by
  unfold laterTab
  split
  · exact .inl rfl
  · split
    · exact .inl rfl
    · exact .inr ⟨rfl, rfl⟩

theorem mem_of_foldl_laterTab {tabs : List Tab} {best : Option Tab} {tab : Tab}
    (h : tabs.foldl laterTab best = some tab) : tab ∈ tabs ∨ best = some tab := by
  induction tabs generalizing best with
  | nil => exact .inr h
  | cons other rest ih =>
    rcases ih h with hmem | hbest
    · exact .inl (List.mem_cons_of_mem _ hmem)
    · rcases laterTab_cases best other with hother | ⟨-, hsame⟩
      · rw [hother] at hbest
        cases hbest
        exact .inl List.mem_cons_self
      · exact .inr (hsame ▸ hbest)

theorem mem_of_latestTab? {tabs : List Tab} {tab : Tab} (h : latestTab? tabs = some tab) :
    tab ∈ tabs := by
  simpa using mem_of_foldl_laterTab h

namespace Workspace

variable {α : Type}

def ids (ws : Workspace α) : List TabId := ws.tabs.map (·.id)

theorem hasTab_iff {ws : Workspace α} {id : TabId} : ws.HasTab id ↔ id ∈ ws.ids := .rfl

theorem hasTab_of_mem {ws : Workspace α} {tab : Tab} (h : tab ∈ ws.tabs) : ws.HasTab tab.id :=
  List.mem_map_of_mem h

theorem isLeaf_iff {ws : Workspace α} {tree : PaneTree α} (h : ws.tree = some tree) {id : TabId} :
    ws.IsLeaf id ↔ id ∈ tree := by
  simp [IsLeaf, h]

theorem not_isLeaf {ws : Workspace α} (h : ws.tree = none) (id : TabId) : ¬ws.IsLeaf id := by
  simp [IsLeaf, h]

theorem ids_modifyTab {ws : Workspace α} {id : TabId} {change : Tab → Tab}
    (h : ∀ tab, (change tab).id = tab.id) : (ws.modifyTab id change).ids = ws.ids :=
  map_id_modifyTab id change ws.tabs h

@[simp]
theorem id_modifyTab (ws : Workspace α) (id : TabId) (change : Tab → Tab) :
    (ws.modifyTab id change).id = ws.id := rfl

@[simp]
theorem id_activate (ws : Workspace α) (now : Instant) (id : TabId) :
    (ws.activate now id).id = ws.id := by
  unfold activate
  split <;> rfl

@[simp]
theorem id_activate? (ws : Workspace α) (now : Instant) (id : Option TabId) :
    (ws.activate? now id).id = ws.id := by
  cases id <;> simp [activate?]

@[simp]
theorem active_modifyTab (ws : Workspace α) (id : TabId) (change : Tab → Tab) :
    (ws.modifyTab id change).active = ws.active := rfl

@[simp]
theorem tree_modifyTab (ws : Workspace α) (id : TabId) (change : Tab → Tab) :
    (ws.modifyTab id change).tree = ws.tree := rfl

@[simp]
theorem ids_touch (ws : Workspace α) (now : Instant) (id : TabId) :
    (ws.modifyTab id (Tab.touch now)).ids = ws.ids := ids_modifyTab fun _ => rfl

@[simp]
theorem ids_activate (ws : Workspace α) (now : Instant) (id : TabId) :
    (ws.activate now id).ids = ws.ids := by
  unfold activate
  split
  · exact ids_touch ws now id
  · rfl

theorem active_activate (ws : Workspace α) (now : Instant) (id : TabId) :
    (ws.activate now id).active = if ws.HasTab id then some id else ws.active := by
  unfold activate
  split <;> rfl

@[simp]
theorem ids_activate? (ws : Workspace α) (now : Instant) (id : Option TabId) :
    (ws.activate? now id).ids = ws.ids := by
  cases id <;> simp [activate?]

@[simp]
theorem tree_activate? (ws : Workspace α) (now : Instant) (id : Option TabId) :
    (ws.activate? now id).tree = ws.tree := by
  cases id <;> simp [activate?]

/-- Two workspaces that differ at most in their names and in what their tabs say about themselves.
-/
structure SameLayout (other ws : Workspace α) : Prop where
  id : other.id = ws.id
  ids : other.ids = ws.ids
  active : other.active = ws.active
  tree : other.tree = ws.tree

namespace SameLayout

theorem refl (ws : Workspace α) : ws.SameLayout ws := ⟨rfl, rfl, rfl, rfl⟩

theorem trans {ws other third : Workspace α} (h : third.SameLayout other)
    (hother : other.SameLayout ws) : third.SameLayout ws :=
  ⟨h.id.trans hother.id, h.ids.trans hother.ids, h.active.trans hother.active,
    h.tree.trans hother.tree⟩

end SameLayout

theorem sameLayout_modifyTab (ws : Workspace α) (id : TabId) {change : Tab → Tab}
    (h : ∀ tab, (change tab).id = tab.id) : (ws.modifyTab id change).SameLayout ws :=
  ⟨rfl, ids_modifyTab h, rfl, rfl⟩

theorem sameLayout_foldl {β : Type} {step : Workspace α → β → Workspace α}
    (h : ∀ ws b, (step ws b).SameLayout ws) (items : List β) (ws : Workspace α) :
    (items.foldl step ws).SameLayout ws := by
  induction items generalizing ws with
  | nil => exact .refl ws
  | cons item rest ih => exact (ih (step ws item)).trans (h ws item)

theorem sameLayout_touchVisible (ws : Workspace α) (now : Clock) :
    (ws.touchVisible now).SameLayout ws := by
  have htouch (other : Workspace α) (seen : TabId × Nat) :
      (other.modifyTab seen.1 (Tab.touch (now.reading seen.2))).SameLayout other :=
    sameLayout_modifyTab other seen.1 fun _ => rfl
  exact sameLayout_foldl htouch ws.visibleTabs.zipIdx ws

structure Orderly (ws : Workspace α) : Prop where
  shaped : ∀ tree ∈ ws.tree, tree.Shaped
  focus_none : ws.active = none ↔ ws.tabs = []
  focus_mem : ∀ tab ∈ ws.active, ws.HasTab tab

structure Sound (ws : Workspace α) : Prop extends Orderly ws where
  leaf_mem : ∀ tree ∈ ws.tree, ∀ tab ∈ tree, ws.HasTab tab
  focus_leaf : ∀ tab ∈ ws.active, ∀ tree ∈ ws.tree, tab ∈ tree

theorem orderly_empty (id : WorkspaceId) (name : String) : (empty id name : Workspace α).Orderly :=
  ⟨nofun, by simp [empty], nofun⟩

theorem sound_empty (id : WorkspaceId) (name : String) : (empty id name : Workspace α).Sound :=
  ⟨orderly_empty id name, nofun, nofun⟩

theorem ids_eq_nil_iff {ws : Workspace α} : ws.ids = [] ↔ ws.tabs = [] := by simp [ids]

theorem tabs_ne_nil {ws : Workspace α} {id : TabId} (h : ws.HasTab id) : ws.tabs ≠ [] := by
  intro hnil
  rw [hasTab_iff, ids_eq_nil_iff.2 hnil] at h
  exact absurd h List.not_mem_nil

theorem Orderly.congr {ws other : Workspace α} (h : ws.Orderly) (hsame : other.SameLayout ws) :
    other.Orderly := by
  refine ⟨hsame.tree ▸ h.shaped, ?_, ?_⟩
  · rw [hsame.active, h.focus_none, ← ids_eq_nil_iff, ← ids_eq_nil_iff, hsame.ids]
  · simpa only [hasTab_iff, hsame.ids, hsame.active] using h.focus_mem

theorem Sound.congr {ws other : Workspace α} (h : ws.Sound) (hsame : other.SameLayout ws) :
    other.Sound := by
  refine ⟨h.toOrderly.congr hsame, ?_, ?_⟩
  · simpa only [hasTab_iff, hsame.ids, hsame.tree] using h.leaf_mem
  · simpa only [hsame.active, hsame.tree] using h.focus_leaf

theorem Orderly.withTree {ws : Workspace α} (h : ws.Orderly) {tree : Option (PaneTree α)}
    (htree : ∀ t ∈ tree, t.Shaped) : Orderly { ws with tree } :=
  ⟨htree, h.focus_none, h.focus_mem⟩

theorem Sound.withTree {ws : Workspace α} (h : ws.Sound) {tree other : PaneTree α}
    (htree : ws.tree = some tree) (hshaped : other.Shaped) (hleaves : other.tabIds = tree.tabIds) :
    Sound { ws with tree := some other } := by
  have hmem (id : TabId) (hid : id ∈ other) : id ∈ tree := by
    rwa [PaneTree.mem_def, ← hleaves]
  refine ⟨h.toOrderly.withTree ?_, ?_, ?_⟩
  · intro t ht
    cases ht
    exact hshaped
  · intro t ht id hid
    cases ht
    exact h.leaf_mem tree htree id (hmem id hid)
  · intro id hid t ht
    cases ht
    rw [PaneTree.mem_def, hleaves]
    exact h.focus_leaf id hid tree htree

theorem Orderly.withoutTree {ws : Workspace α} (h : ws.Orderly) :
    Orderly ({ ws with tree := none } : Workspace α) := h.withTree (by simp)

theorem orderly_activate {ws : Workspace α} (now : Instant) {id : TabId}
    (hshaped : ∀ tree ∈ ws.tree, tree.Shaped) (hid : ws.HasTab id) :
    (ws.activate now id).Orderly := by
  have hactive : (ws.activate now id).active = some id := by rw [active_activate, if_pos hid]
  refine ⟨by simpa using hshaped, ?_, ?_⟩
  · rw [hactive, ← ids_eq_nil_iff, ids_activate, ids_eq_nil_iff]
    simp [tabs_ne_nil hid]
  · rw [hactive]
    intro tab htab
    cases htab
    exact hasTab_activate.2 hid

theorem Orderly.activate {ws : Workspace α} (h : ws.Orderly) (now : Instant) (id : TabId) :
    (ws.activate now id).Orderly := by
  by_cases hid : ws.HasTab id
  · exact orderly_activate now h.shaped hid
  · rw [Workspace.activate, if_neg hid]
    exact h

theorem Orderly.activate? {ws : Workspace α} (h : ws.Orderly) (now : Instant)
    (id : Option TabId) : (ws.activate? now id).Orderly := by
  cases id with
  | none => exact h
  | some id => exact h.activate now id

theorem sound_activate {ws : Workspace α} (now : Instant) {id : TabId}
    (hshaped : ∀ tree ∈ ws.tree, tree.Shaped)
    (hleaves : ∀ tree ∈ ws.tree, ∀ tab ∈ tree, ws.HasTab tab) (hid : ws.HasTab id)
    (hleaf : ∀ tree ∈ ws.tree, id ∈ tree) : (ws.activate now id).Sound := by
  refine ⟨orderly_activate now hshaped hid, ?_, ?_⟩
  · simpa only [tree_activate, hasTab_activate] using hleaves
  · rw [active_activate, if_pos hid, tree_activate]
    intro tab htab
    cases htab
    exact hleaf

end Workspace

end PaneTiling
