import PaneTiling.Proofs.Window.Front
import PaneTiling.Proofs.Workspace.Idle

/-!
Sweeping a window of what is not used. Every workspace lets its tabs fall by themselves, and which
one is in front is not touched by that; so a sweep changes tiers and nothing else, says what it has
changed, and has nothing left to do when it is made for the third time at the same time.
-/

namespace PaneTiling.Window

variable {α : Type}

def tierChanges (before after : Window α) : List (TabId × MemoryTier) :=
  (before.workspaces.zip after.workspaces).flatMap fun (old, new) =>
    PaneTiling.tierChanges old.tabs new.tabs

def aged (w : Window α) (now : Instant) (index : Nat) (ws : Workspace α) : Tab → Tab :=
  ws.aged (w.frontIndex? = some index) w.suspendAfter w.destroyAfter now

variable {w : Window α} (now : Instant)

theorem getElem?_sweep_aged (h : ∀ ws ∈ w.workspaces, ws.ids.Nodup) (index : Nat) :
    (w.sweep now).window.workspaces[index]? =
      w.workspaces[index]?.map fun ws => { ws with tabs := ws.tabs.map (w.aged now index ws) } := by
  rw [getElem?_sweep]
  refine Option.map_congr fun ws hws => ?_
  exact Workspace.demote_demotions (h ws (List.mem_of_getElem? hws))

theorem distinct_sweep (h : ∀ ws ∈ w.workspaces, ws.ids.Nodup) :
    ∀ ws ∈ (w.sweep now).window.workspaces, ws.ids.Nodup := by
  intro swept hswept
  obtain ⟨index, hindex⟩ := List.mem_iff_getElem?.1 hswept
  rw [getElem?_sweep_aged now h, Option.map_eq_some_iff] at hindex
  obtain ⟨ws, hws, rfl⟩ := hindex
  have hids : (ws.tabs.map (w.aged now index ws)).map (·.id) = ws.ids := List.map_map
  rw [Workspace.ids, hids]
  exact h ws (List.mem_of_getElem? hws)

theorem aged_sweep (index : Nat) (ws : Workspace α) (tabs : List Tab) :
    (w.sweep now).window.aged now index { ws with tabs } = w.aged now index ws := by
  unfold aged
  rw [(w.sameFront_sweep now).frontIndex?]
  rfl

theorem value_sweep (h : ∀ ws ∈ w.workspaces, ws.ids.Nodup) :
    (w.sweep now).value = w.tierChanges (w.sweep now).window := by
  change (w.workspaces.mapIdx (w.demotions now)).flatten = _
  rw [tierChanges, List.flatMap_def]
  refine congrArg List.flatten (List.ext_getElem? fun index => ?_)
  rw [List.getElem?_mapIdx, List.map_zip_eq_zipWith, List.getElem?_zipWith,
    getElem?_sweep_aged now h]
  cases w.workspaces[index]? with
  | none => rfl
  | some ws => exact congrArg some (Workspace.demotions_eq_tierChanges ws _ _ _ now)

theorem third_sweep (h : ∀ ws ∈ w.workspaces, ws.ids.Nodup) :
    (((w.sweep now).window.sweep now).window.sweep now).value = [] := by
  change (List.mapIdx _ _).flatten = []
  rw [List.flatten_eq_nil_iff]
  intro changes hchanges
  obtain ⟨index, hindex⟩ := List.mem_iff_getElem?.1 hchanges
  rw [List.getElem?_mapIdx, getElem?_sweep_aged now (distinct_sweep now h),
    getElem?_sweep_aged now h] at hindex
  simp only [Option.map_map, Option.map_eq_some_iff, Function.comp_apply, aged_sweep] at hindex
  obtain ⟨ws, -, rfl⟩ := hindex
  have hfront : ((w.sweep now).window.sweep now).window.frontIndex? = w.frontIndex? :=
    ((sameFront_sweep _ now).trans (w.sameFront_sweep now)).frontIndex?
  refine List.filterMap_eq_nil_iff.2 fun tab htab => ?_
  rw [List.map_map] at htab
  obtain ⟨first, -, rfl⟩ := List.mem_map.1 htab
  rw [hfront, Option.map_eq_none_iff]
  exact Workspace.demotion?_aged_aged

/-- A sweep asks nothing of the host and changes nothing but tiers, each of them as its tab is to
fall; it tells of every tab that has changed, in order, with the tier that it has now. Two sweeps do
all that can be done at one time. -/
theorem sweep_ages_idle_tabs (w : Window α) (now : Instant)
    (h : ∀ ws ∈ w.workspaces, ws.ids.Nodup) :
    (∃ workspaces : List (Workspace α), (w.sweep now).window = { w with workspaces } ∧
      workspaces.length = w.workspaces.length ∧
      ∀ index (ws : Workspace α), w.workspaces[index]? = some ws → ∃ tabs,
        workspaces[index]? = some { ws with tabs } ∧
        List.Forall₂ (ws.Aged (w.frontIndex? = some index) w.suspendAfter w.destroyAfter now)
          ws.tabs tabs) ∧
    (w.sweep now).requests = [] ∧
    (w.sweep now).value = w.tierChanges (w.sweep now).window ∧
    (((w.sweep now).window.sweep now).window.sweep now).value = [] := by
  refine ⟨⟨w.demoteIdle now, rfl, List.length_mapIdx, fun index ws hws => ?_⟩, rfl,
    value_sweep now h, third_sweep now h⟩
  refine ⟨ws.tabs.map (w.aged now index ws), ?_, ?_⟩
  · have hswept := getElem?_sweep_aged now h index
    rw [hws] at hswept
    exact hswept
  · rw [List.forall₂_map_right_iff, List.forall₂_same]
    exact fun tab _ => ws.aged_spec _ _ _ _ tab

/-- Two panes behind an empty workspace and a tab that is none, in a window that destroys sooner
than it suspends. -/
def unusedBehind : Window Rat :=
  { ofSettings Settings.standard with
    workspaces := [.empty ⟨0⟩ "front", ⟨⟨1⟩, "behind", [.fresh ⟨"a"⟩ "A" "https://a.test" 0,
      .fresh ⟨"b"⟩ "B" "https://b.test" 0, .fresh ⟨"c"⟩ "C" "https://c.test" 0], some ⟨"a"⟩,
      some (.split .row [(.leaf ⟨"a"⟩, 1 / 2), (.leaf ⟨"b"⟩, 1 / 2)])⟩]
    front := some ⟨0⟩
    suspendAfter := 10
    destroyAfter := 5 }

theorem sweep_ages_idle_tabs_unusedBehind :
    (∀ ws ∈ unusedBehind.workspaces, ws.ids.Nodup) ∧
      (unusedBehind.sweep 10).value = [(⟨"b"⟩, .suspended), (⟨"c"⟩, .suspended)] ∧
      ((unusedBehind.sweep 10).window.sweep 10).value = [(⟨"c"⟩, .destroyed)] ∧
      (((unusedBehind.sweep 10).window.sweep 10).window.sweep 10).value = [] := by
  have hdistinct : ∀ ws ∈ unusedBehind.workspaces, ws.ids.Nodup := by
    simp [unusedBehind, Workspace.empty, Workspace.ids, Tab.fresh]
  obtain ⟨-, -, -, hthird⟩ := sweep_ages_idle_tabs unusedBehind 10 hdistinct
  exact ⟨hdistinct, by decide +kernel, by decide +kernel, hthird⟩

end PaneTiling.Window
