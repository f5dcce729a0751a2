import PaneTiling.Proofs.Workspace.Rules
import PaneTiling.Window.Saving

/-!
A workspace that comes back from a session is sound, whatever the session says: of tabs that share
an id the first comes back, a tree comes back only if it may be shown, and the focus goes to a pane
of it or, without one, to a tab that came back.
-/

namespace PaneTiling.SavedWorkspace

variable {α : Type}

def keepDistinct (kept : List SavedTab) (tab : SavedTab) : List SavedTab :=
  if kept.any (·.id = tab.id) then kept else kept ++ [tab]

theorem mem_keepDistinct {kept : List SavedTab} {tab : SavedTab} {id : TabId} :
    id ∈ (keepDistinct kept tab).map (·.id) ↔ id ∈ kept.map (·.id) ∨ id = tab.id := by
  unfold keepDistinct
  split
  · rename_i hany
    obtain ⟨other, hother, hid⟩ := List.any_eq_true.1 hany
    have hmem : tab.id ∈ kept.map (·.id) := of_decide_eq_true hid ▸ List.mem_map_of_mem hother
    refine ⟨.inl, fun h => ?_⟩
    rcases h with hkept | rfl
    · exact hkept
    · exact hmem
  · simp

theorem mem_foldl_keepDistinct {tabs kept : List SavedTab} {id : TabId} :
    id ∈ (tabs.foldl keepDistinct kept).map (·.id) ↔
      id ∈ kept.map (·.id) ∨ id ∈ tabs.map (·.id) := by
  induction tabs generalizing kept with
  | nil => simp
  | cons tab rest ih =>
    rw [List.foldl_cons, ih, mem_keepDistinct, List.map_cons, List.mem_cons, or_assoc]

theorem mem_distinctTabs {saved : SavedWorkspace α} {id : TabId} :
    id ∈ saved.distinctTabs.map (·.id) ↔ id ∈ saved.tabIds := by
  have hfold : saved.distinctTabs = saved.tabs.foldl keepDistinct [] := rfl
  rw [hfold, mem_foldl_keepDistinct]
  simp [tabIds]

def savedFocus (saved : SavedWorkspace α) : Option TabId :=
  (saved.active.filter (· ∈ saved.tabIds)).or saved.tabIds.head?

theorem mem_of_savedFocus {saved : SavedWorkspace α} {id : TabId}
    (h : saved.savedFocus = some id) : id ∈ saved.tabIds := by
  rcases Option.or_eq_some_iff.1 h with hactive | ⟨-, hhead⟩
  · simpa using (Option.filter_eq_some_iff.1 hactive).2
  · exact List.mem_of_mem_head? hhead

theorem savedFocus_eq_none_iff {saved : SavedWorkspace α} :
    saved.savedFocus = none ↔ saved.tabIds = [] := by
  refine ⟨fun h => List.head?_eq_none_iff.1 (Option.or_eq_none_iff.1 h).2, fun h => ?_⟩
  refine Option.eq_none_iff_forall_ne_some.2 fun id hid => ?_
  have hmem := mem_of_savedFocus hid
  rw [h] at hmem
  exact List.not_mem_nil hmem

theorem restoredFocus_none (saved : SavedWorkspace α) :
    saved.restoredFocus none = saved.savedFocus := rfl

theorem restoredFocus_some (saved : SavedWorkspace α) {tree : PaneTree α} (h : tree.Branching 1) :
    ∃ id ∈ tree, saved.restoredFocus (some tree) = some id := by
  have heq : saved.restoredFocus (some tree) =
      if saved.savedFocus.any (· ∈ tree) then saved.savedFocus else tree.firstTab? := rfl
  rw [heq]
  split
  · rename_i hany
    obtain ⟨id, hid, hmem⟩ := (Option.any_eq_true _ _).1 hany
    exact ⟨id, of_decide_eq_true hmem, hid⟩
  · obtain ⟨id, hid⟩ := Option.isSome_iff_exists.1 (PaneTree.firstTab?_isSome h)
    exact ⟨id, PaneTree.mem_of_firstTab? hid, hid⟩

variable [Scalar α]

theorem shaped_restoredTree {saved : SavedWorkspace α} {tree : PaneTree α}
    (h : saved.restoredTree = some tree) : tree.Shaped ∧ ∀ tab ∈ tree, tab ∈ saved.tabIds := by
  unfold restoredTree at h
  split at h
  · rename_i accepted haccept
    cases h
    obtain ⟨written, -, haccepted⟩ := Option.map_eq_some_iff.1 haccept
    exact PaneTree.shaped_of_accept haccepted
  · cases h

theorem hasTab_restored {saved : SavedWorkspace α} (now : Instant) {id : TabId} :
    (saved.restored now).HasTab id ↔ id ∈ saved.tabIds := by
  rw [← mem_distinctTabs, Workspace.HasTab, restored, List.map_map]
  rfl

theorem tabs_restored_eq_nil_iff {saved : SavedWorkspace α} {now : Instant} :
    (saved.restored now).tabs = [] ↔ saved.tabIds = [] := by
  rw [← Workspace.ids_eq_nil_iff, List.eq_nil_iff_forall_not_mem, List.eq_nil_iff_forall_not_mem]
  exact forall_congr' fun id => not_congr (hasTab_restored now)

theorem sound_restored (saved : SavedWorkspace α) (now : Instant) :
    (saved.restored now).Sound := by
  have htree : (saved.restored now).tree = saved.restoredTree := rfl
  have hactive : (saved.restored now).active = saved.restoredFocus saved.restoredTree := rfl
  cases hrestored : saved.restoredTree with
  | none =>
    rw [hrestored] at htree
    rw [hrestored, restoredFocus_none] at hactive
    refine ⟨⟨by simp [htree], ?_, ?_⟩, by simp [htree], by simp [htree]⟩
    · rw [hactive, tabs_restored_eq_nil_iff, savedFocus_eq_none_iff]
    · intro id hid
      exact (hasTab_restored now).2 (mem_of_savedFocus (hactive ▸ hid))
  | some tree =>
    obtain ⟨hshaped, hmem⟩ := shaped_restoredTree hrestored
    obtain ⟨id, hid, hfocus⟩ := saved.restoredFocus_some (hshaped.branching.mono (by decide))
    rw [hrestored] at htree
    rw [hrestored, hfocus] at hactive
    have htab : (saved.restored now).HasTab id := (hasTab_restored now).2 (hmem id hid)
    refine ⟨⟨?_, ?_, ?_⟩, ?_, ?_⟩
    · rw [htree]
      intro t ht
      cases ht
      exact hshaped
    · simp [hactive, Workspace.tabs_ne_nil htab]
    · rw [hactive]
      intro t ht
      cases ht
      exact htab
    · rw [htree]
      intro t ht tab hleaf
      cases ht
      exact (hasTab_restored now).2 (hmem tab hleaf)
    · rw [htree, hactive]
      intro tab htab t ht
      cases htab
      cases ht
      exact hid

end PaneTiling.SavedWorkspace
