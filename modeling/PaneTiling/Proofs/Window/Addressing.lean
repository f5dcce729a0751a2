import PaneTiling.Proofs.Window.Recovery

/-!
What an id reaches. A workspace is looked up by its id and a tab by the workspace that has it, and
both times the first match is taken; so an id reaches what it stands for if it stands for one thing.
A session that comes back is not asked whether its ids do: of the tabs with one id only those of the
same workspace are told apart.
-/

namespace PaneTiling

variable {α : Type}

theorem forall_findIdx?_eq_iff {κ β : Type} (has : κ → β → Bool) (items : List β) :
    (∀ index item, items[index]? = some item → ∀ key, has key item = true →
        items.findIdx? (has key) = some index) ↔
      items.Pairwise fun first second => ∀ key, has key first = true → has key second = false := by
  rw [List.pairwise_iff_getElem]
  constructor
  · intro h early late hearly hlate hlt key hfirst
    by_contra hsecond
    have hfound := h early _ (List.getElem?_eq_getElem hearly) key hfirst
    have hagain := h late _ (List.getElem?_eq_getElem hlate) key (Bool.not_eq_false _ ▸ hsecond)
    cases hfound.symm.trans hagain
    exact Nat.lt_irrefl _ hlt
  · intro h index item hitem key hkey
    obtain ⟨hindex, rfl⟩ := List.getElem?_eq_some_iff.1 hitem
    refine List.findIdx?_eq_some_iff_getElem.2 ⟨hindex, hkey, fun early hlt hearly => ?_⟩
    exact Bool.noConfusion ((h early index (by omega) hindex hlt key hearly).symm.trans hkey)

structure Session.Distinct (session : Session α) : Prop where
  workspaces : (session.workspaces.map (·.id)).Nodup
  tabs : session.workspaces.Pairwise fun first second => first.tabIds.Disjoint second.tabIds

namespace Window

/-- No two workspaces share an id or a tab. -/
structure Distinct (w : Window α) : Prop where
  workspaces : w.workspaceIds.Nodup
  tabs : w.workspaces.Pairwise fun first second => first.ids.Disjoint second.ids

/-- Whoever names a workspace or a tab means the one that is found. -/
structure Reaches (w : Window α) : Prop where
  workspaces : ∀ (index : Nat) (ws : Workspace α), w.workspaces[index]? = some ws →
    w.indexOf? ws.id = some index
  tabs : ∀ (index : Nat) (ws : Workspace α), w.workspaces[index]? = some ws → ∀ tab ∈ ws.ids,
    w.indexOfTab? tab = some index

theorem reaches_iff {w : Window α} : w.Reaches ↔ w.Distinct := by
  have hworkspaces : (∀ (index : Nat) (ws : Workspace α), w.workspaces[index]? = some ws →
      w.indexOf? ws.id = some index) ↔ w.workspaceIds.Nodup := by
    have hfirst := forall_findIdx?_eq_iff
      (fun (id : WorkspaceId) (ws : Workspace α) => decide (ws.id = id)) w.workspaces
    simp only [decide_eq_true_eq, decide_eq_false_iff_not, forall_eq', ne_comm] at hfirst
    rw [workspaceIds, List.Nodup, List.pairwise_map]
    exact hfirst
  have htabs : (∀ (index : Nat) (ws : Workspace α), w.workspaces[index]? = some ws →
      ∀ tab ∈ ws.ids, w.indexOfTab? tab = some index) ↔
        w.workspaces.Pairwise fun first second => first.ids.Disjoint second.ids := by
    have hfirst := forall_findIdx?_eq_iff
      (fun (tab : TabId) (ws : Workspace α) => decide (ws.HasTab tab)) w.workspaces
    simp only [decide_eq_true_eq, decide_eq_false_iff_not] at hfirst
    exact hfirst
  exact ⟨fun h => ⟨hworkspaces.1 h.workspaces, htabs.1 h.tabs⟩,
    fun h => ⟨hworkspaces.2 h.workspaces, htabs.2 h.tabs⟩⟩

section Restoring

variable [Scalar α]

theorem workspaceIds_restore (w : Window α) (now : Clock) (session : Session α) :
    (w.restore now session).window.workspaceIds = session.workspaces.map (·.id) := by
  refine List.ext_getElem? fun place => ?_
  rw [workspaceIds, List.getElem?_map, workspaces_restore, List.getElem?_map]
  split
  · rw [Option.map_map, Option.map_map]
    exact Option.map_congr fun saved _ =>
      ((saved.restored now).sameLayout_touchVisible now.later).id
  · rw [Option.map_map]
    rfl

theorem ids_restore (w : Window α) (now : Clock) (session : Session α) :
    (w.restore now session).window.workspaces.map Workspace.ids =
      session.workspaces.map fun saved => saved.distinctTabs.map (·.id) := by
  have hids (saved : SavedWorkspace α) :
      (saved.restored now).ids = saved.distinctTabs.map (·.id) := List.map_map
  refine List.ext_getElem? fun place => ?_
  rw [List.getElem?_map, workspaces_restore, List.getElem?_map]
  split
  · rw [Option.map_map, Option.map_map]
    refine Option.map_congr fun saved _ => ?_
    exact ((saved.restored now).sameLayout_touchVisible now.later).ids.trans (hids saved)
  · rw [Option.map_map]
    exact Option.map_congr fun saved _ => hids saved

theorem distinct_restore_iff (w : Window α) (now : Clock) (session : Session α) :
    (w.restore now session).window.Distinct ↔ session.Distinct := by
  have htabs : ((w.restore now session).window.workspaces.Pairwise
      fun first second => first.ids.Disjoint second.ids) ↔
        session.workspaces.Pairwise fun first second => first.tabIds.Disjoint second.tabIds := by
    have hids := w.ids_restore now session
    rw [← List.pairwise_map (R := List.Disjoint), hids, List.pairwise_map]
    simp only [List.Disjoint, SavedWorkspace.mem_distinctTabs]
  have hworkspaces := w.workspaceIds_restore now session
  exact ⟨fun h => ⟨hworkspaces ▸ h.workspaces, htabs.1 h.tabs⟩,
    fun h => ⟨hworkspaces ▸ h.workspaces, htabs.2 h.tabs⟩⟩

theorem frontIndex?_restore (w : Window α) (now : Clock) (session : Session α) :
    (w.restore now session).window.frontIndex? =
      session.workspaces[session.frontOrFirst]?.bind fun saved =>
        session.workspaces.findIdx? (·.id = saved.id) := by
  have hindex (id : WorkspaceId) : (w.restore now session).window.indexOf? id =
      session.workspaces.findIdx? (·.id = id) := by
    rw [indexOf?_eq, workspaceIds_restore, List.findIdx?_map]
    rfl
  rw [frontIndex?, front_restore]
  cases session.workspaces[session.frontOrFirst]? with
  | none => rfl
  | some saved => exact hindex saved.id

theorem frontIndex?_restore_eq_iff (w : Window α) (now : Clock) {session : Session α}
    {saved : SavedWorkspace α} (h : session.workspaces[session.frontOrFirst]? = some saved) :
    (w.restore now session).window.frontIndex? = some session.frontOrFirst ↔
      ∀ other ∈ session.workspaces.take session.frontOrFirst, other.id ≠ saved.id := by
  obtain ⟨hlt, rfl⟩ := List.getElem?_eq_some_iff.1 h
  rw [frontIndex?_restore, h, Option.bind_some, List.findIdx?_eq_some_iff_getElem]
  simp only [List.mem_take_iff_getElem, decide_eq_true_eq]
  constructor
  · rintro ⟨hfront, -, hbefore⟩ _ ⟨place, hplace, rfl⟩
    exact hbefore place (by omega)
  · intro hbefore
    exact ⟨hlt, trivial, fun place hplace => hbefore _ ⟨place, by omega, rfl⟩⟩

theorem frontWorkspace?_restore (w : Window α) (now : Clock) {session : Session α}
    (h : session.Distinct) :
    (w.restore now session).window.frontWorkspace? =
      (w.restore now session).window.workspaces[session.frontOrFirst]? := by
  cases hfront : session.workspaces[session.frontOrFirst]? with
  | none =>
    rw [frontWorkspace?_eq, frontIndex?_restore, hfront, workspaces_restore, hfront]
    simp
  | some saved =>
    have hbefore : ∀ other ∈ session.workspaces.take session.frontOrFirst, other.id ≠ saved.id := by
      intro other hother
      obtain ⟨hlt, rfl⟩ := List.getElem?_eq_some_iff.1 hfront
      obtain ⟨place, hplace, rfl⟩ := List.mem_take_iff_getElem.1 hother
      have hdistinct := List.pairwise_iff_getElem.1 (List.pairwise_map.1 h.workspaces)
      exact hdistinct place session.frontOrFirst (by omega) hlt (by omega)
    rw [frontWorkspace?_eq, (w.frontIndex?_restore_eq_iff now hfront).2 hbefore, Option.bind_some]

/-- Exactly if a session gives each of its workspaces an id of its own and no tab to two of them,
they come back so that whoever names a workspace or a tab means the one that is found, and the
workspace in front is the one that was saved in front. -/
theorem restored_ids_distinct_iff (w : Window α) (now : Clock) (session : Session α) :
    ((w.restore now session).window.Distinct ∧ (w.restore now session).window.Reaches ∧
        (w.restore now session).window.frontWorkspace? =
          (w.restore now session).window.workspaces[session.frontOrFirst]?) ↔
      session.Distinct := by
  rw [reaches_iff, distinct_restore_iff]
  exact ⟨And.left, fun h => ⟨h, h, w.frontWorkspace?_restore now h⟩⟩

end Restoring

def sharedTab : Session Rat where
  savedAt := ""
  workspaces :=
    [⟨⟨1⟩, "first", [⟨⟨"a"⟩, "A", "https://a.test", false⟩, ⟨⟨"b"⟩, "B", "https://b.test", false⟩],
        some ⟨"b"⟩, none⟩,
      ⟨⟨2⟩, "second",
        [⟨⟨"c"⟩, "C", "https://c.test", false⟩, ⟨⟨"a"⟩, "A", "https://a.test", false⟩],
        some ⟨"c"⟩, none⟩]
  front := some 1

theorem not_distinct_restore :
    ¬∀ session : Session Rat,
      ((ofSettings Settings.standard).restore 0 session).window.Distinct ∧
        ((ofSettings Settings.standard).restore 0 session).window.Reaches ∧
        ((ofSettings Settings.standard).restore 0 session).window.frontWorkspace? =
          ((ofSettings Settings.standard).restore 0 session).window.workspaces[
            session.frontOrFirst]? := by
  intro h
  have hdisjoint := List.pairwise_iff_getElem.1 (h sharedTab).1.tabs 0 1 (by decide) (by decide)
    (by decide)
  have hfirst : (⟨"a"⟩ : TabId) ∈ [⟨"a"⟩, ⟨"b"⟩] := by decide
  exact hdisjoint hfirst (by decide)

end Window

end PaneTiling
