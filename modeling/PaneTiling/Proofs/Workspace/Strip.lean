import PaneTiling.Proofs.Workspace.Opening

/-!
What the tab strip says of a workspace: its tabs in their order, and of each tab all but its tier
and when it was last used. Showing tabs, hiding them, giving up their pages and moving the focus
leave the strip as it is. Only a tab that comes is added to it, at its end, and only a tab that goes
is taken out of it.
-/

namespace PaneTiling

structure TabEntry where
  id : TabId
  title : String
  url : String
  pinned : Bool
  playingMedia : Bool
deriving DecidableEq

def Tab.entry (tab : Tab) : TabEntry := ⟨tab.id, tab.title, tab.url, tab.pinned, tab.playingMedia⟩

structure Strip where
  workspace : WorkspaceId
  entries : List TabEntry
deriving DecidableEq

namespace Strip

def add (strip : Strip) (entry : TabEntry) : Strip :=
  { strip with entries := strip.entries ++ [entry] }

def without (strip : Strip) (id : TabId) : Strip :=
  { strip with entries := strip.entries.eraseP (·.id = id) }

end Strip

theorem entry_modifyTab {id : TabId} {change : Tab → Tab}
    (h : ∀ tab, (change tab).entry = tab.entry) (tabs : List Tab) :
    (modifyTab id change tabs).map Tab.entry = tabs.map Tab.entry := by
  induction tabs with
  | nil => rfl
  | cons tab rest ih =>
    rw [modifyTab]
    split
    · rw [List.map_cons, List.map_cons, h]
    · rw [List.map_cons, List.map_cons, ih]

namespace Workspace

variable {α : Type}

def strip (ws : Workspace α) : Strip := ⟨ws.id, ws.tabs.map Tab.entry⟩

theorem hasTab_iff_entry {ws : Workspace α} {id : TabId} :
    ws.HasTab id ↔ ∃ entry ∈ ws.strip.entries, entry.id = id := by
  simp [HasTab, strip, Tab.entry]

theorem find?_entries (ws : Workspace α) (id : TabId) :
    ws.strip.entries.find? (·.id = id) = (ws.tab? id).map Tab.entry :=
  List.find?_map

theorem strip_modifyTab (ws : Workspace α) (id : TabId) {change : Tab → Tab}
    (h : ∀ tab, (change tab).entry = tab.entry) : (ws.modifyTab id change).strip = ws.strip :=
  congrArg (Strip.mk ws.id) (entry_modifyTab h ws.tabs)

theorem strip_modifyTier (ws : Workspace α) (id : TabId) (tier : MemoryTier) :
    (ws.modifyTab id fun tab => { tab with tier }).strip = ws.strip :=
  ws.strip_modifyTab id fun _ => rfl

theorem strip_touch (ws : Workspace α) (now : Instant) (id : TabId) :
    (ws.modifyTab id (Tab.touch now)).strip = ws.strip := ws.strip_modifyTab id fun _ => rfl

@[simp]
theorem strip_activate (ws : Workspace α) (now : Instant) (id : TabId) :
    (ws.activate now id).strip = ws.strip := by
  unfold activate
  split
  · exact ws.strip_touch now id
  · rfl

@[simp]
theorem strip_activate? (ws : Workspace α) (now : Instant) (id : Option TabId) :
    (ws.activate? now id).strip = ws.strip := by
  cases id with
  | none => rfl
  | some id => exact ws.strip_activate now id

theorem strip_foldl {β : Type} {step : Workspace α → β → Workspace α}
    (h : ∀ ws b, (step ws b).strip = ws.strip) (items : List β) (ws : Workspace α) :
    (items.foldl step ws).strip = ws.strip := by
  induction items generalizing ws with
  | nil => rfl
  | cons item rest ih => exact (ih (step ws item)).trans (h ws item)

@[simp]
theorem strip_touchVisible (ws : Workspace α) (now : Clock) :
    (ws.touchVisible now).strip = ws.strip := by
  refine strip_foldl (fun ws seen => ?_) ws.visibleTabs.zipIdx ws
  exact ws.strip_touch (now.reading seen.2) seen.1

@[simp]
theorem strip_demote (ws : Workspace α) (changes : List (TabId × MemoryTier)) :
    (ws.demote changes).strip = ws.strip := by
  refine strip_foldl (fun ws change => ?_) changes ws
  exact ws.strip_modifyTier change.1 change.2

@[simp]
theorem strip_selected (ws : Workspace α) (now : Instant) (id : TabId) :
    (ws.selected now id).strip = ws.strip := by
  unfold selected
  split
  · exact strip_activate _ now id
  · exact strip_activate _ now id

@[simp]
theorem strip_opened (ws : Workspace α) (now : Instant) (tree : PaneTree α) (tab focus : TabId) :
    (ws.opened now tree tab focus).strip = ws.strip := ws.strip_touch now tab

section Evicting

variable [Scalar α]

@[simp]
theorem strip_evict (ws : Workspace α) (now : Instant) (tab : TabId) :
    (ws.evict now tab).strip = ws.strip := by
  unfold evict
  split
  · rfl
  · split
    · exact strip_activate? _ now _
    · exact strip_activate? _ now _
    · rfl

@[simp]
theorem strip_retiered (ws : Workspace α) (now : Instant) (id : TabId) (tier : MemoryTier) :
    (ws.retiered now id tier).strip = ws.strip := by
  unfold retiered
  split
  · exact (strip_modifyTier _ id tier).trans (ws.strip_evict now id)
  · exact ws.strip_modifyTier id tier

@[simp]
theorem strip_drop (ws : Workspace α) (now : Instant) (tab : TabId) (zone : DropZone α) :
    (ws.drop now tab zone).strip = ws.strip := by
  unfold drop
  split
  · simp only
    split
    · exact strip_activate _ now tab
    · rfl
  · rfl

end Evicting

theorem strip_addTab (ws : Workspace α) (tab : Tab) :
    (ws.addTab tab).strip = ws.strip.add tab.entry := by
  simp [strip, addTab, Strip.add]

theorem strip_adopt (ws : Workspace α) (now : Instant) (tab : Tab) :
    (ws.adopt now tab).strip = ws.strip.add tab.entry := by
  rw [adopt, strip_activate]
  simp [strip, Strip.add]

theorem strip_withoutTab (ws : Workspace α) (id : TabId) :
    (ws.withoutTab id).strip = ws.strip.without id := by
  rw [strip, strip, Strip.without, List.eraseP_map]
  rfl

variable [Scalar α]

theorem strip_detach? {ws rest : Workspace α} {now : Instant} {id : TabId} {tab : Tab}
    (h : ws.detach? now id = some (tab, rest)) :
    rest.strip = ws.strip.without id ∧
      ws.strip.entries.find? (·.id = id) = some tab.entry := by
  obtain ⟨htab, hrest⟩ := detach?_eq_some h
  constructor
  · have hwithout : ((ws.evict now id).withoutTab id).strip = ws.strip.without id := by
      rw [strip_withoutTab, strip_evict]
    rcases hrest with ⟨-, rfl⟩ | ⟨-, rfl⟩
    · exact (strip_activate? _ now _).trans hwithout
    · exact hwithout
  · rw [← ws.strip_evict now id, find?_entries, htab, Option.map_some]

theorem exists_detach? {ws : Workspace α} {id : TabId} (h : ws.HasTab id) (now : Instant) :
    ∃ tab rest, ws.detach? now id = some (tab, rest) := by
  have hevict : (ws.evict now id).HasTab id := by rwa [hasTab_iff, ids_evict]
  obtain ⟨tab, htab⟩ : ∃ tab, (ws.evict now id).tab? id = some tab := by
    rw [← Option.isSome_iff_exists]
    simpa [tab?, HasTab] using hevict
  simp only [detach?, Option.bind_eq_bind, htab, Option.bind_some, Option.pure_def]
  split
  · exact ⟨_, _, rfl⟩
  · exact ⟨_, _, rfl⟩

end Workspace

end PaneTiling
