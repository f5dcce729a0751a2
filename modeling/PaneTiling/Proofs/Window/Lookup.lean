import PaneTiling.Window.Basic

/-!
Finding a workspace of a window after another one, or the same, was changed. Where a workspace
stands depends on the ids alone.
-/

namespace PaneTiling.Window

variable {α : Type}

def tree? (w : Window α) (id : WorkspaceId) : Option (PaneTree α) :=
  (w.workspace? id).bind (·.tree)

def workspaceIds (w : Window α) : List WorkspaceId := w.workspaces.map Workspace.id

theorem indexOf?_eq (w : Window α) (id : WorkspaceId) :
    w.indexOf? id = w.workspaceIds.findIdx? (· = id) := by
  rw [workspaceIds, List.findIdx?_map]
  rfl

theorem workspace?_eq (w : Window α) (id : WorkspaceId) :
    w.workspace? id = (w.indexOf? id).bind fun index => w.workspaces[index]? :=
  List.find?_eq_bind_findIdx?_getElem?

theorem tree?_eq (w : Window α) (id : WorkspaceId) :
    w.tree? id = (w.indexOf? id).bind fun index => w.workspaces[index]?.bind (·.tree) := by
  rw [tree?, workspace?_eq, Option.bind_assoc]

theorem frontWorkspace?_eq (w : Window α) :
    w.frontWorkspace? = w.frontIndex?.bind fun index => w.workspaces[index]? := by
  unfold frontWorkspace? frontIndex?
  rw [Option.bind_assoc]
  exact Option.bind_congr fun id _ => w.workspace?_eq id

theorem frontWorkspace?_of_index {w : Window α} {index : Nat} (h : w.frontIndex? = some index)
    {ws : Workspace α} (hws : w.workspaces[index]? = some ws) : w.frontWorkspace? = some ws := by
  rw [frontWorkspace?_eq, h, Option.bind_some, hws]

theorem getElem?_of_indexOf? {w : Window α} {id : WorkspaceId} {index : Nat}
    (h : w.indexOf? id = some index) : ∃ ws, w.workspaces[index]? = some ws ∧ ws.id = id := by
  obtain ⟨hlt, hid, -⟩ := List.findIdx?_eq_some_iff_getElem.1 h
  exact ⟨w.workspaces[index], List.getElem?_eq_getElem hlt, of_decide_eq_true hid⟩

theorem getElem?_of_indexOfTab? {w : Window α} {index : Nat} {tab : TabId}
    (h : w.indexOfTab? tab = some index) :
    ∃ ws, w.workspaces[index]? = some ws ∧ ws.HasTab tab := by
  obtain ⟨hlt, hhas, -⟩ := List.findIdx?_eq_some_iff_getElem.1 h
  exact ⟨w.workspaces[index], List.getElem?_eq_getElem hlt, of_decide_eq_true hhas⟩

theorem isSome_indexOf?_iff {w : Window α} {id : WorkspaceId} :
    (w.indexOf? id).isSome ↔ id ∈ w.workspaceIds := by
  rw [indexOf?_eq, List.findIdx?_isSome]
  simp

theorem isSome_workspace?_iff {w : Window α} {id : WorkspaceId} :
    (w.workspace? id).isSome ↔ id ∈ w.workspaceIds := by
  simp [workspace?, workspaceIds]

theorem find?_eraseIdx {β : Type} {p : β → Bool} {items : List β} {index : Nat}
    (h : ∀ x, items[index]? = some x → p x = false) :
    (items.eraseIdx index).find? p = items.find? p := by
  induction items generalizing index with
  | nil => rfl
  | cons first rest ih =>
    cases index with
    | zero =>
      have hfirst : p first = false := h first rfl
      rw [List.eraseIdx_cons_zero, List.find?_cons, hfirst]
    | succ index =>
      rw [List.eraseIdx_cons_succ, List.find?_cons, List.find?_cons, ih fun x hx => h x hx]

section Modify

variable {w : Window α} {index : Nat} {change : Workspace α → Workspace α}

/-- A change under which the workspace at an index keeps its id. -/
def KeepsId (w : Window α) (index : Nat) (change : Workspace α → Workspace α) : Prop :=
  ∀ ws, w.workspaces[index]? = some ws → (change ws).id = ws.id

theorem getElem?_modifyWorkspace (w : Window α) (index place : Nat)
    (change : Workspace α → Workspace α) :
    (w.modifyWorkspace index change).workspaces[place]? =
      if index = place then w.workspaces[place]?.map change else w.workspaces[place]? := by
  simp only [modifyWorkspace, List.getElem?_modify, Option.map_eq_map]
  by_cases hplace : index = place
  · simp [hplace]
  · simp [hplace]

theorem mem_modifyWorkspace {ws : Workspace α}
    (h : ws ∈ (w.modifyWorkspace index change).workspaces) :
    ws ∈ w.workspaces ∨ ∃ before, w.workspaces[index]? = some before ∧ ws = change before := by
  obtain ⟨place, hplace⟩ := List.mem_iff_getElem?.1 h
  rw [getElem?_modifyWorkspace] at hplace
  split at hplace
  · rename_i heq
    obtain ⟨before, hbefore, rfl⟩ := Option.map_eq_some_iff.1 hplace
    exact .inr ⟨before, heq ▸ hbefore, rfl⟩
  · exact .inl (List.mem_of_getElem? hplace)

theorem workspaceIds_modify (h : w.KeepsId index change) :
    (w.modifyWorkspace index change).workspaceIds = w.workspaceIds := by
  refine List.ext_getElem? fun place => ?_
  simp only [workspaceIds, List.getElem?_map, getElem?_modifyWorkspace]
  split
  · rename_i heq
    rw [Option.map_map]
    exact Option.map_congr fun ws hws => h ws (heq ▸ hws)
  · rfl

theorem indexOf?_modify (h : w.KeepsId index change) (id : WorkspaceId) :
    (w.modifyWorkspace index change).indexOf? id = w.indexOf? id := by
  rw [indexOf?_eq, indexOf?_eq, workspaceIds_modify h]

theorem workspace?_modify (h : w.KeepsId index change) (id : WorkspaceId) :
    (w.modifyWorkspace index change).workspace? id =
      if w.indexOf? id = some index then (w.workspace? id).map change else w.workspace? id := by
  rw [workspace?_eq, workspace?_eq, indexOf?_modify h]
  cases hplace : w.indexOf? id with
  | none => rfl
  | some place =>
    simp only [Option.bind_some, getElem?_modifyWorkspace, Option.some.injEq, eq_comm]

theorem frontWorkspace?_modify (h : w.KeepsId index change) :
    (w.modifyWorkspace index change).frontWorkspace? =
      if w.frontIndex? = some index then w.frontWorkspace?.map change else w.frontWorkspace? := by
  have hfront : (w.modifyWorkspace index change).front = w.front := rfl
  unfold frontWorkspace? frontIndex?
  rw [hfront]
  cases w.front with
  | none => rfl
  | some id => exact workspace?_modify h id

end Modify

section WithTree

def withTree (w : Window α) (index : Nat) (tree : PaneTree α) : Window α :=
  w.modifyWorkspace index fun ws => { ws with tree := some tree }

variable {w : Window α} {home : WorkspaceId} {index : Nat} {tree : PaneTree α}

theorem workspace?_withTree (h : w.indexOf? home = some index) (id : WorkspaceId) :
    (w.withTree index tree).workspace? id =
      if id = home then (w.workspace? id).map fun ws => { ws with tree := some tree }
      else w.workspace? id := by
  have hkeeps : w.KeepsId index fun ws => { ws with tree := some tree } := fun _ _ => rfl
  have hhome : w.indexOf? id = some index ↔ id = home := by
    refine ⟨fun hid => ?_, fun hid => hid ▸ h⟩
    obtain ⟨ws, hws, rfl⟩ := getElem?_of_indexOf? hid
    obtain ⟨found, hfound, rfl⟩ := getElem?_of_indexOf? h
    cases hws.symm.trans hfound
    rfl
  rw [withTree, workspace?_modify hkeeps]
  simp only [hhome]

theorem tree?_withTree (h : w.indexOf? home = some index) (id : WorkspaceId) :
    (w.withTree index tree).tree? id = if id = home then some tree else w.tree? id := by
  rw [tree?, workspace?_withTree h]
  split
  · rename_i hid
    obtain ⟨ws, hws, -⟩ := getElem?_of_indexOf? h
    rw [hid, workspace?_eq, h, Option.bind_some, hws]
    rfl
  · rfl

end WithTree

end PaneTiling.Window
