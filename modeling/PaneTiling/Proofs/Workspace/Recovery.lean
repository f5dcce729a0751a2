import PaneTiling.Proofs.Workspace.ShownTabs

/-!
What a saved workspace comes back as. Of the saved tabs the first with each id come back, suspended
unless they are to be seen at once; the tree comes back if it is accepted; and the saved focus comes
back wherever it may, which is on a tab that came back and on a pane of a tree that came back.
-/

namespace PaneTiling

theorem modifyTab_eq_map {id : TabId} {change : Tab → Tab} {tabs : List Tab}
    (h : (tabs.map (·.id)).Nodup) :
    modifyTab id change tabs = tabs.map fun tab => if tab.id = id then change tab else tab := by
  induction tabs with
  | nil => rfl
  | cons first rest ih =>
    rw [List.map_cons, List.nodup_cons] at h
    rw [modifyTab, List.map_cons, ih h.2]
    split
    · rename_i hfirst
      -- No later tab has the id of the first.
      have hrest : ∀ tab ∈ rest, (if tab.id = id then change tab else tab) = tab := by
        intro tab htab
        refine if_neg fun hid => h.1 ?_
        rw [hfirst, ← hid]
        exact List.mem_map_of_mem htab
      rw [List.map_congr_left hrest, List.map_id']
    · rfl

namespace Workspace

variable {α : Type}

theorem exists_foldl_touch {ws : Workspace α} (now : Clock) (h : ws.ids.Nodup)
    (turns : List (TabId × Nat)) :
    ∃ times : TabId → Instant,
      (∀ id ∈ turns.map (·.1), ∃ turn, (id, turn) ∈ turns ∧ times id = now.reading turn) ∧
      turns.foldl (fun ws (id, turn) => ws.modifyTab id (Tab.touch (now.reading turn))) ws =
        { ws with
          tabs := ws.tabs.map fun tab =>
            if tab.id ∈ turns.map (·.1) then tab.touch (times tab.id) else tab } := by
  induction turns generalizing ws with
  | nil => exact ⟨fun _ => now, by simp⟩
  | cons first rest ih =>
    obtain ⟨times, htimes, hrest⟩ := ih ((ids_touch ws (now.reading first.2) first.1).symm ▸ h)
    -- A tab that has another turn is left with the time of that one.
    refine ⟨fun id => if id ∈ rest.map (·.1) then times id else now.reading first.2, ?_, ?_⟩
    · intro id hid
      by_cases hagain : id ∈ rest.map (·.1)
      · obtain ⟨turn, hturn, htime⟩ := htimes id hagain
        exact ⟨turn, List.mem_cons_of_mem _ hturn, (if_pos hagain).trans htime⟩
      · obtain rfl : id = first.1 := by simpa [hagain] using hid
        exact ⟨first.2, List.mem_cons_self, if_neg hagain⟩
    · rw [List.foldl_cons, hrest, Workspace.modifyTab, modifyTab_eq_map h, List.map_map]
      congr 1
      refine List.map_congr_left fun tab _ => ?_
      by_cases hid : tab.id = first.1
      · by_cases hagain : first.1 ∈ rest.map (·.1) <;> simp [hid, hagain, Tab.touch]
      · by_cases hagain : tab.id ∈ rest.map (·.1) <;> simp [hid, hagain]

theorem touchVisible_eq {ws : Workspace α} (now : Clock) (h : ws.ids.Nodup) :
    ∃ times : TabId → Instant,
      (∀ id ∈ ws.visibleTabs, ∃ turn, ws.visibleTabs[turn]? = some id ∧
        times id = now.reading turn) ∧
      ws.touchVisible now =
        { ws with
          tabs := ws.tabs.map fun tab =>
            if tab.id ∈ ws.visibleTabs then tab.touch (times tab.id) else tab } := by
  obtain ⟨times, htimes, htouched⟩ := exists_foldl_touch now h ws.visibleTabs.zipIdx
  rw [List.zipIdx_map_fst] at htimes htouched
  refine ⟨times, fun id hid => ?_, htouched⟩
  obtain ⟨turn, hturn, htime⟩ := htimes id hid
  exact ⟨turn, List.mem_zipIdx_iff_getElem?.1 hturn, htime⟩

/-- A focus that the rules allow: none if there are no tabs, and otherwise a tab, which is a pane if
there is a tree. -/
structure MayFocus (ws : Workspace α) (focus : Option TabId) : Prop where
  none_iff : focus = none ↔ ws.tabs = []
  hasTab : ∀ tab ∈ focus, ws.HasTab tab
  leaf : ∀ tab ∈ focus, ∀ tree ∈ ws.tree, tab ∈ tree

theorem Sound.mayFocus {ws : Workspace α} (h : ws.Sound) : ws.MayFocus ws.active :=
  ⟨h.focus_none, h.focus_mem, h.focus_leaf⟩

theorem MayFocus.congr {ws after : Workspace α} {focus : Option TabId} (h : ws.MayFocus focus)
    (hids : after.ids = ws.ids) (htree : after.tree = ws.tree) : after.MayFocus focus := by
  refine ⟨?_, ?_, ?_⟩
  · rw [h.none_iff, ← ids_eq_nil_iff, ← ids_eq_nil_iff, hids]
  · simpa only [hasTab_iff, hids] using h.hasTab
  · simpa only [htree] using h.leaf

end Workspace

structure SavedTab.Describes (saved : SavedTab) (tab : Tab) : Prop where
  id : tab.id = saved.id
  title : tab.title = saved.title
  url : tab.url = saved.url
  pinned : tab.pinned = saved.pinned

theorem SavedTab.describes_restored (saved : SavedTab) (now : Instant) :
    saved.Describes (saved.restored now) := ⟨rfl, rfl, rfl, rfl⟩

theorem SavedTab.Describes.touch {saved : SavedTab} {tab : Tab} (h : saved.Describes tab)
    (now : Instant) : saved.Describes (tab.touch now) := ⟨h.id, h.title, h.url, h.pinned⟩

namespace SavedWorkspace

variable {α : Type}

/-- The saved tabs less those that come after one with the same id. -/
def firstTabs (saved : SavedWorkspace α) : List SavedTab :=
  saved.tabs.eraseDupsBy fun tab other => tab.id == other.id

theorem foldl_keepDistinct (tabs kept : List SavedTab) :
    tabs.foldl keepDistinct kept =
      List.eraseDupsBy.loop (fun tab other => tab.id == other.id) tabs kept.reverse := by
  induction tabs generalizing kept with
  | nil => simp [List.eraseDupsBy.loop]
  | cons tab rest ih =>
    have hsame : (kept.reverse.any fun other => tab.id == other.id) =
        kept.any fun other => decide (other.id = tab.id) := by
      rw [List.any_reverse]
      exact congrArg kept.any (funext fun other => by simp [beq_eq_decide, eq_comm])
    rw [List.foldl_cons, ih, List.eraseDupsBy.loop, hsame, keepDistinct]
    cases kept.any fun other => decide (other.id = tab.id) with
    | true => rfl
    | false => simp

theorem distinctTabs_eq (saved : SavedWorkspace α) : saved.distinctTabs = saved.firstTabs :=
  foldl_keepDistinct saved.tabs []

theorem nodup_keepDistinct {kept : List SavedTab} (h : (kept.map (·.id)).Nodup) (tab : SavedTab) :
    ((keepDistinct kept tab).map (·.id)).Nodup := by
  unfold keepDistinct
  split
  · exact h
  · rename_i hnew
    rw [List.map_append, List.map_singleton, List.nodup_append_comm]
    refine List.nodup_cons.2 ⟨fun hmem => hnew ?_, h⟩
    obtain ⟨other, hother, hid⟩ := List.mem_map.1 hmem
    exact List.any_eq_true.2 ⟨other, hother, decide_eq_true hid⟩

theorem nodup_distinctTabs (saved : SavedWorkspace α) :
    (saved.distinctTabs.map (·.id)).Nodup := by
  have hfold (tabs : List SavedTab) : ∀ kept : List SavedTab, (kept.map (·.id)).Nodup →
      ((tabs.foldl keepDistinct kept).map (·.id)).Nodup := by
    induction tabs with
    | nil => exact fun _ h => h
    | cons tab rest ih => exact fun kept h => ih _ (nodup_keepDistinct h tab)
  exact hfold saved.tabs [] List.nodup_nil

theorem firstTabs_eq_self {saved : SavedWorkspace α} (h : saved.tabIds.Nodup) :
    saved.firstTabs = saved.tabs := by
  unfold firstTabs
  unfold tabIds at h
  generalize saved.tabs = tabs at h ⊢
  induction tabs with
  | nil => rfl
  | cons tab rest ih =>
    rw [List.map_cons, List.nodup_cons] at h
    have hkept : ∀ other ∈ rest, decide ((other.id == tab.id) = false) = true := by
      intro other hother
      refine decide_eq_true (beq_eq_false_iff_ne.2 fun hid => h.1 ?_)
      exact hid ▸ List.mem_map_of_mem hother
    rw [List.eraseDupsBy_cons, List.filter_eq_self.2 hkept, ih h.2]

variable [Scalar α]

theorem restoredTree_eq_some_iff {saved : SavedWorkspace α} {tree : PaneTree α} :
    saved.restoredTree = some tree ↔
      ∃ written ∈ saved.tree, written.accept saved.tabIds = .ok tree := by
  unfold restoredTree acceptTree
  cases saved.tree with
  | none => simp
  | some written => cases haccept : written.accept saved.tabIds <;> simp [haccept]

theorem restoredFocus_eq_active {saved : SavedWorkspace α} {now : Instant}
    (h : (saved.restored now).MayFocus saved.active) :
    (saved.restored now).active = saved.active := by
  cases hactive : saved.active with
  | none =>
    rw [hactive] at h
    exact (saved.sound_restored now).focus_none.2 (h.none_iff.1 rfl)
  | some id =>
    rw [hactive] at h
    have hmem : id ∈ saved.tabIds := (hasTab_restored now).1 (h.hasTab id rfl)
    have hfocus : saved.savedFocus = some id := by
      rw [savedFocus, hactive, Option.filter_some, if_pos (decide_eq_true hmem), Option.some_or]
    have hrestored : (saved.restored now).active = saved.restoredFocus saved.restoredTree := rfl
    rw [hrestored]
    cases htree : saved.restoredTree with
    | none => exact hfocus
    | some tree =>
      have hleaf : id ∈ tree := h.leaf id rfl tree htree
      have hpane : saved.restoredFocus (some tree) =
          if saved.savedFocus.any (· ∈ tree) then saved.savedFocus else tree.firstTab? := rfl
      have hshown : (some id).any (· ∈ tree) = true := decide_eq_true hleaf
      rw [hpane, hfocus, if_pos hshown]

/-- What comes back of a saved workspace, in front or behind. -/
structure ComesBackAs (saved : SavedWorkspace α) (ws : Workspace α) (inFront : Prop) : Prop where
  id : ws.id = saved.id
  name : ws.name = saved.name
  tabs : List.Forall₂ SavedTab.Describes saved.firstTabs ws.tabs
  tree : ∀ tree, ws.tree = some tree ↔
    ∃ written ∈ saved.tree, written.accept saved.tabIds = .ok tree
  focus : ws.MayFocus ws.active
  focus_kept : ws.MayFocus saved.active → ws.active = saved.active
  active_iff : ∀ tab ∈ ws.tabs, tab.tier = .active ↔ inFront ∧ tab.id ∈ ws.visibleTabs
  suspended : ∀ tab ∈ ws.tabs, tab.tier = .active ∨ tab.tier = .suspended

theorem nodup_ids_restored (saved : SavedWorkspace α) (now : Instant) :
    (saved.restored now).ids.Nodup := by
  have hids : (saved.restored now).ids = saved.distinctTabs.map (·.id) := List.map_map
  exact hids ▸ saved.nodup_distinctTabs

theorem describes_restored (saved : SavedWorkspace α) (now : Instant) :
    List.Forall₂ SavedTab.Describes saved.firstTabs (saved.restored now).tabs := by
  have htabs : (saved.restored now).tabs = saved.firstTabs.map (·.restored now) := by
    rw [← distinctTabs_eq, restored]
  rw [htabs, List.forall₂_map_right_iff, List.forall₂_same]
  exact fun tab _ => tab.describes_restored now

theorem tier_restored {saved : SavedWorkspace α} {now : Instant} {tab : Tab}
    (h : tab ∈ (saved.restored now).tabs) : tab.tier = .suspended := by
  obtain ⟨old, -, rfl⟩ := List.mem_map.1 h
  rfl

theorem comesBackAs_restored (saved : SavedWorkspace α) (now : Instant) :
    saved.ComesBackAs (saved.restored now) False where
  id := rfl
  name := rfl
  tabs := saved.describes_restored now
  tree _ := restoredTree_eq_some_iff
  focus := (saved.sound_restored now).mayFocus
  focus_kept := restoredFocus_eq_active
  active_iff tab htab := by simp [tier_restored htab]
  suspended tab htab := .inr (tier_restored htab)

theorem ComesBackAs.tier {saved : SavedWorkspace α} {ws : Workspace α} {inFront : Prop}
    (h : saved.ComesBackAs ws inFront) (hbehind : ¬inFront) {tab : Tab} (htab : tab ∈ ws.tabs) :
    tab.tier = .suspended :=
  (h.suspended tab htab).resolve_left fun hactive => hbehind ((h.active_iff tab htab).1 hactive).1

theorem ComesBackAs.ids {saved : SavedWorkspace α} {ws : Workspace α} {inFront : Prop}
    (h : saved.ComesBackAs ws inFront) : ws.ids = saved.firstTabs.map (·.id) := by
  rw [Workspace.ids, ← List.forall₂_eq_eq_eq, List.forall₂_map_left_iff, List.forall₂_map_right_iff]
  exact h.tabs.flip.imp fun _ _ htab => htab.id

theorem ComesBackAs.touchVisible {saved : SavedWorkspace α} {ws : Workspace α}
    (h : saved.ComesBackAs ws False) (hnodup : ws.ids.Nodup) (now : Clock) :
    saved.ComesBackAs (ws.touchVisible now) True := by
  have hsame := ws.sameLayout_touchVisible now
  obtain ⟨times, -, htouched⟩ := Workspace.touchVisible_eq now hnodup
  have hvisible := Workspace.visibleTabs_congr hsame.tree hsame.active
  have hmem : ∀ tab ∈ (ws.touchVisible now).tabs,
      ∃ old ∈ ws.tabs,
        tab = if old.id ∈ ws.visibleTabs then old.touch (times old.id) else old := by
    intro tab htab
    rw [htouched] at htab
    obtain ⟨old, hold, rfl⟩ := List.mem_map.1 htab
    exact ⟨old, hold, rfl⟩
  refine ⟨hsame.id.trans h.id, ?_, ?_, hsame.tree ▸ h.tree, ?_, ?_, ?_, ?_⟩
  · rw [htouched]
    exact h.name
  · rw [htouched, List.forall₂_map_right_iff]
    refine h.tabs.imp fun tab old hdescribes => ?_
    split
    · exact hdescribes.touch _
    · exact hdescribes
  · rw [hsame.active]
    exact h.focus.congr hsame.ids hsame.tree
  · rw [hsame.active]
    exact fun hfocus => h.focus_kept (hfocus.congr hsame.ids.symm hsame.tree.symm)
  · rw [hvisible]
    intro tab htab
    obtain ⟨old, hold, rfl⟩ := hmem tab htab
    split
    · rename_i hseen
      exact iff_of_true rfl ⟨trivial, hseen⟩
    · rename_i hunseen
      exact iff_of_false (by simp [h.tier not_false hold]) fun hshown => hunseen hshown.2
  · intro tab htab
    obtain ⟨old, hold, rfl⟩ := hmem tab htab
    split
    · exact .inl rfl
    · exact .inr (h.tier not_false hold)

end SavedWorkspace

end PaneTiling
