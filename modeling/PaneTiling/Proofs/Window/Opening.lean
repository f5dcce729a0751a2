import PaneTiling.Proofs.Workspace.Opening
import PaneTiling.Proofs.Window.Lookup
import PaneTiling.Window.Action

/-!
The three actions that open a pane: entering a split, extending it, and letting go of a tab. Each
names a tab that is to go beside an anchor, and takes place if the tree takes the tab.
-/

namespace PaneTiling

/-- What an action that opens a pane does to the workspace at an index. -/
structure Opening (α : Type) where
  index : Nat
  anchor : TabId
  tab : TabId
  tree : PaneTree α
  focus : TabId

namespace Window

variable {α : Type}

def opened (w : Window α) (now : Clock) (op : Opening α) : Window α :=
  w.modifyWorkspace op.index (·.opened now op.tree op.tab op.focus)

theorem modifyWorkspace_congr {w : Window α} {index : Nat}
    {change other : Workspace α → Workspace α}
    (h : ∀ ws, w.workspaces[index]? = some ws → change ws = other ws) :
    w.modifyWorkspace index change = w.modifyWorkspace index other := by
  have hsame : w.workspaces.modify index change = w.workspaces.modify index other := by
    refine List.ext_getElem? fun place => ?_
    rw [List.getElem?_modify, List.getElem?_modify, Option.map_eq_map, Option.map_eq_map]
    refine Option.map_congr fun ws hws => ?_
    by_cases hplace : index = place
    · simp [hplace, h ws (hplace ▸ hws)]
    · simp [hplace]
  rw [modifyWorkspace, hsame, modifyWorkspace]

theorem modifyWorkspace_congr_at {w : Window α} {index : Nat} {ws : Workspace α}
    (hws : w.workspaces[index]? = some ws) {change other : Workspace α → Workspace α}
    (h : change ws = other ws) :
    w.modifyWorkspace index change = w.modifyWorkspace index other := by
  refine modifyWorkspace_congr fun found hfound => ?_
  cases hws.symm.trans hfound
  exact h

theorem modifyWorkspace_eq_self {w : Window α} {index : Nat} {change : Workspace α → Workspace α}
    (h : ∀ ws, w.workspaces[index]? = some ws → change ws = ws) :
    w.modifyWorkspace index change = w := by
  rw [modifyWorkspace_congr h, modifyWorkspace]
  exact congrArg (fun workspaces => { w with workspaces }) (List.modify_id index w.workspaces)

theorem withTree_eq_self {w : Window α} {index : Nat} {ws : Workspace α} {tree : PaneTree α}
    (hws : w.workspaces[index]? = some ws) (htree : ws.tree = some tree) :
    w.withTree index tree = w := by
  refine modifyWorkspace_eq_self fun found hfound => ?_
  cases hws.symm.trans hfound
  rw [← htree]

variable [Scalar α]

def toggleOpening? (w : Window α) : Option (Opening α) := do
  let index ← w.frontIndex?
  let ws ← w.workspaces[index]?
  if ws.tree.isSome then none
  else do
    let active ← ws.active
    let candidate ← ws.splitCandidate?
    let tree ← PaneTree.insert none active candidate.id .right
    return ⟨index, active, candidate.id, tree, active⟩

def splitOpening? (w : Window α) (tab : TabId) (side : Side) : Option (Opening α) := do
  let index ← w.frontIndex?
  let ws ← w.workspaces[index]?
  let active ← ws.active
  if ws.HasTab tab then do
    let tree ← PaneTree.insert ws.tree active tab side
    return ⟨index, active, tab, tree, tab⟩
  else none

def dropOpening? (w : Window α) (grab : TabGrab α) : Option (Opening α) := do
  let zone ← w.zoneUnder grab
  let index ← w.indexOf? grab.workspace
  let ws ← w.workspaces[index]?
  if ws.HasTab grab.tab then do
    let tree ← PaneTree.insert (ws.tree.bind (·.remove grab.tab)) zone.anchor grab.tab zone.side
    return ⟨index, zone.anchor, grab.tab, tree, grab.tab⟩
  else none

/-- The pane that an action opens, if it opens one. A pointer that is lost drops nothing. -/
def opening? (w : Window α) : Action α → Option (Opening α)
  | .toggleSplit => w.toggleOpening?
  | .splitWith tab side => w.splitOpening? tab side
  | .release =>
    match w.grab with
    | some (.tab grab) => w.dropOpening? grab
    | _ => none
  | _ => none

theorem opening?_release {w : Window α} {grab : TabGrab α} (h : w.grab = some (.tab grab)) :
    w.opening? .release = w.dropOpening? grab := by
  simp only [opening?, h]

theorem opening?_forget (w : Window α) :
    ({ w with grab := w.grab.map Grab.forget } : Window α).opening? .release = none := by
  cases hgrab : w.grab with
  | none => simp [opening?]
  | some grab =>
    cases grab with
    | divider grab => simp [opening?, Grab.forget]
    | tab grab => simp [opening?, Grab.forget, dropOpening?, zoneUnder, FrameBatch.empty]

theorem lifted_eq_of_insert {ws : Workspace α} {anchor tab : TabId} {side : Side}
    {tree : PaneTree α}
    (h : PaneTree.insert ws.tree anchor tab side = some tree) :
    ws.tree.bind (·.remove tab) = ws.tree := by
  obtain ⟨-, hnew, -⟩ := PaneTree.tabIds_insert h
  cases htree : ws.tree with
  | none => rfl
  | some whole =>
    rw [htree] at hnew
    rw [Option.bind_some, PaneTree.remove, PaneTree.removeLeaf_eq_notFound_iff.2 hnew]

theorem toggleOpening?_spec {w : Window α} {op : Opening α} (h : w.toggleOpening? = some op) :
    ∃ ws, w.frontIndex? = some op.index ∧ w.workspaces[op.index]? = some ws ∧
      ws.Opens op.anchor op.tab op.tree ∧ ws.active = some op.anchor ∧ op.focus = op.anchor := by
  simp only [toggleOpening?, Option.bind_eq_bind, Option.bind_eq_some_iff, Option.pure_def] at h
  obtain ⟨index, hindex, ws, hws, h⟩ := h
  split at h
  · cases h
  rename_i hnone
  simp only [Option.bind_eq_some_iff] at h
  obtain ⟨active, hactive, candidate, hcandidate, tree, htree, h⟩ := h
  cases h
  have hmem : candidate ∈ ws.tabs := List.mem_of_mem_filter (mem_of_latestTab? hcandidate)
  have hws' : ws.tree = none := by simpa using hnone
  refine ⟨ws, hindex, hws, ⟨Workspace.hasTab_of_mem hmem, .right, ?_⟩, hactive, rfl⟩
  rw [hws']
  exact htree

theorem splitOpening?_spec {w : Window α} {tab : TabId} {side : Side} {op : Opening α}
    (h : w.splitOpening? tab side = some op) :
    ∃ ws, w.frontIndex? = some op.index ∧ w.workspaces[op.index]? = some ws ∧
      ws.Opens op.anchor op.tab op.tree ∧ ws.active = some op.anchor ∧ op.focus = op.tab := by
  simp only [splitOpening?, Option.bind_eq_bind, Option.bind_eq_some_iff, Option.pure_def] at h
  obtain ⟨index, hindex, ws, hws, active, hactive, h⟩ := h
  split at h
  · rename_i htab
    obtain ⟨tree, htree, h⟩ := Option.bind_eq_some_iff.1 h
    cases h
    refine ⟨ws, hindex, hws, ⟨htab, side, ?_⟩, hactive, rfl⟩
    rw [lifted_eq_of_insert htree]
    exact htree
  · cases h

theorem dropOpening?_spec {w : Window α} {grab : TabGrab α} {op : Opening α}
    (h : w.dropOpening? grab = some op) :
    ∃ ws, w.indexOf? grab.workspace = some op.index ∧ w.workspaces[op.index]? = some ws ∧
      ws.Opens op.anchor op.tab op.tree ∧ op.tab = grab.tab ∧ op.focus = op.tab := by
  simp only [dropOpening?, Option.bind_eq_bind, Option.bind_eq_some_iff, Option.pure_def] at h
  obtain ⟨zone, hzone, index, hindex, ws, hws, h⟩ := h
  split at h
  · rename_i htab
    obtain ⟨tree, htree, h⟩ := Option.bind_eq_some_iff.1 h
    cases h
    exact ⟨ws, hindex, hws, ⟨htab, zone.side, htree⟩, rfl, rfl⟩
  · cases h

theorem opening?_spec {w : Window α} {action : Action α} {op : Opening α}
    (h : w.opening? action = some op) :
    ∃ ws, w.workspaces[op.index]? = some ws ∧ ws.Opens op.anchor op.tab op.tree ∧
      (op.focus = op.anchor ∧ ws.active = some op.anchor ∨ op.focus = op.tab) ∧
      (action = .release ∨ ws.active = some op.anchor) := by
  unfold opening? at h
  split at h
  · obtain ⟨ws, -, hws, hopens, hactive, hfocus⟩ := toggleOpening?_spec h
    exact ⟨ws, hws, hopens, .inl ⟨hfocus, hactive⟩, .inr hactive⟩
  · obtain ⟨ws, -, hws, hopens, hactive, hfocus⟩ := splitOpening?_spec h
    exact ⟨ws, hws, hopens, .inr hfocus, .inr hactive⟩
  · split at h
    · obtain ⟨ws, -, hws, hopens, -, hfocus⟩ := dropOpening?_spec h
      exact ⟨ws, hws, hopens, .inr hfocus, .inl rfl⟩
    · cases h
  · cases h

theorem toggleSplit_cases (w : Window α) (now : Clock) :
    (∃ op, w.toggleOpening? = some op ∧ (w.toggleSplit now).window = w.opened now op) ∨
      w.toggleOpening? = none ∧ ((w.toggleSplit now).window = w ∨
        ∃ index, (w.toggleSplit now).window =
          w.modifyWorkspace index fun ws => { ws with tree := none }) := by
  unfold toggleSplit toggleOpening?
  rw [frontWorkspace?_eq]
  cases hindex : w.frontIndex? with
  | none => exact .inr ⟨rfl, .inl rfl⟩
  | some index =>
    cases hws : w.workspaces[index]? with
    | none => exact .inr ⟨by simp [hws], .inl (by simp [hws])⟩
    | some ws =>
      simp only [Option.bind_eq_bind, Option.bind_some, hws]
      split
      · exact .inr ⟨rfl, .inr ⟨index, rfl⟩⟩
      cases hactive : ws.active with
      | none => exact .inr ⟨rfl, .inl rfl⟩
      | some active =>
        cases hcandidate : ws.splitCandidate? with
        | none => exact .inr ⟨rfl, .inl rfl⟩
        | some candidate =>
          cases htree : PaneTree.insert (none : Option (PaneTree α)) active candidate.id .right with
          | none => exact .inr ⟨by simp [htree], .inl (by simp [htree])⟩
          | some tree =>
            refine .inl ⟨⟨index, active, candidate.id, tree, active⟩, by simp [htree], ?_⟩
            simp only [htree, window_present]
            refine modifyWorkspace_congr_at hws ?_
            simp [Workspace.opened, Workspace.modifyTab, hactive]

theorem splitWith_cases (w : Window α) (now : Clock) (tab : TabId) (side : Side) :
    (∃ op, w.splitOpening? tab side = some op ∧
        (w.splitWith now tab side).window = w.opened now op) ∨
      w.splitOpening? tab side = none ∧ (w.splitWith now tab side).window = w := by
  unfold splitWith splitOpening?
  rw [frontWorkspace?_eq]
  cases hindex : w.frontIndex? with
  | none => exact .inr ⟨rfl, rfl⟩
  | some index =>
    cases hws : w.workspaces[index]? with
    | none => exact .inr ⟨by simp [hws], by simp [hws]⟩
    | some ws =>
      simp only [Option.bind_eq_bind, Option.bind_some, hws]
      cases hactive : ws.active with
      | none => exact .inr ⟨rfl, rfl⟩
      | some active =>
        by_cases htab : ws.HasTab tab
        · cases htree : PaneTree.insert ws.tree active tab side with
          | none => exact .inr ⟨by simp [htree], by simp [Workspace.splitBeside?, htree]⟩
          | some tree =>
            refine .inl ⟨⟨index, active, tab, tree, tab⟩, by simp [htab, htree], ?_⟩
            simp only [Option.bind_some, if_pos htab, Workspace.splitBeside?, htree,
              Option.map_some, window_present]
            exact modifyWorkspace_congr_at hws (Workspace.opened_eq_activate now tree htab).symm
        · exact .inr ⟨by simp [htab], by simp [htab]⟩

theorem dropTab_cases (w : Window α) (now : Clock) (grab : TabGrab α) :
    (∃ op, w.dropOpening? grab = some op ∧
        w.dropTab now (w.settle grab) = w.opened now op) ∨
      w.dropOpening? grab = none ∧ w.dropTab now (w.settle grab) = w := by
  have hzone : (w.settle grab).zone = w.zoneUnder grab := rfl
  unfold dropTab dropOpening?
  rw [hzone]
  cases w.zoneUnder grab with
  | none => exact .inr ⟨rfl, rfl⟩
  | some zone =>
    have hplace : (w.settle grab).workspace = grab.workspace := rfl
    have htabs : (w.settle grab).tab = grab.tab := rfl
    rw [hplace, htabs]
    cases hindex : w.indexOf? grab.workspace with
    | none => exact .inr ⟨rfl, rfl⟩
    | some index =>
      obtain ⟨ws, hws, -⟩ := getElem?_of_indexOf? hindex
      simp only [Option.bind_eq_bind, Option.bind_some, hws]
      have hdrop (change : Workspace α → Workspace α) (h : ws.drop now grab.tab zone = change ws) :
          w.modifyWorkspace index (·.drop now grab.tab zone) = w.modifyWorkspace index change :=
        modifyWorkspace_congr_at hws h
      by_cases htab : ws.HasTab grab.tab
      · cases htree : PaneTree.insert (ws.tree.bind (·.remove grab.tab)) zone.anchor grab.tab
            zone.side with
        | none =>
          refine .inr ⟨by simp [htab], ?_⟩
          rw [hdrop id (Workspace.drop_eq_self fun _ => htree)]
          exact modifyWorkspace_eq_self fun _ _ => rfl
        | some tree =>
          refine .inl ⟨⟨index, zone.anchor, grab.tab, tree, grab.tab⟩, by simp [htab], ?_⟩
          exact hdrop _ (Workspace.drop_of_insert htab htree)
      · refine .inr ⟨by simp [htab], ?_⟩
        rw [hdrop id (Workspace.drop_eq_self fun h => absurd h htab)]
        exact modifyWorkspace_eq_self fun _ _ => rfl

theorem release_of_tab {w : Window α} {grab : TabGrab α} (h : w.grab = some (.tab grab))
    (now : Clock) :
    w.release now = .ok (({ w with grab := none }.dropTab now
      (({ w with grab := none } : Window α).settle grab)).present ()) := by
  simp only [release, h]
  rfl

theorem perform_of_opening? {w : Window α} {action : Action α} {op : Opening α}
    (h : w.opening? action = some op) (now : Clock) :
    ∃ o, w.perform now action = .ok o ∧ o.window.workspaces = (w.opened now op).workspaces := by
  unfold opening? at h
  split at h
  · rcases w.toggleSplit_cases now with ⟨other, hother, hwindow⟩ | ⟨hnone, -⟩
    · cases h.symm.trans hother
      exact ⟨_, rfl, congrArg workspaces hwindow⟩
    · cases h.symm.trans hnone
  · rename_i tab side
    rcases w.splitWith_cases now tab side with ⟨other, hother, hwindow⟩ | ⟨hnone, -⟩
    · cases h.symm.trans hother
      exact ⟨_, rfl, congrArg workspaces hwindow⟩
    · cases h.symm.trans hnone
  · split at h
    · rename_i grab hgrab
      rcases ({ w with grab := none } : Window α).dropTab_cases now grab with
        ⟨other, hother, hwindow⟩ | ⟨hnone, -⟩
      · cases h.symm.trans hother
        have hworkspaces := congrArg workspaces hwindow
        rw [perform, release_of_tab hgrab]
        exact ⟨_, rfl, hworkspaces⟩
      · cases h.symm.trans hnone
    · cases h
  · cases h

end Window

end PaneTiling
