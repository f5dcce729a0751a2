import PaneTiling.Proofs.Window.Change
import PaneTiling.Proofs.Window.Run

/-!
The workspace in front. No action changes the id of a workspace, and whichever workspace an action
brings to the front is one that the window has.
-/

namespace PaneTiling

variable {α : Type}

/-- The actions that may bring another workspace to the front. -/
def Action.MayTurn : Action α → Prop
  | .createWorkspace _ _ | .deleteWorkspace _ | .switchTo _ | .selectTab _ | .restore _ => True
  | _ => False

theorem Session.frontOrFirst_cases (session : Session α) :
    session.front = some session.frontOrFirst ∧
        session.frontOrFirst < session.workspaces.length ∨
      (∀ place ∈ session.front, session.workspaces.length ≤ place) ∧
        session.frontOrFirst = 0 := by
  unfold frontOrFirst
  cases hfront : session.front with
  | none => exact .inr ⟨nofun, rfl⟩
  | some place =>
    rw [Option.filter_some]
    by_cases hplace : place < session.workspaces.length
    · rw [if_pos (decide_eq_true hplace)]
      exact .inl ⟨rfl, hplace⟩
    · rw [if_neg (by simpa using hplace)]
      refine .inr ⟨?_, rfl⟩
      rintro _ ⟨⟩
      exact Nat.not_lt.1 hplace

namespace Window

/-- The workspace in front, if one is meant to be there, is there. -/
def Fronted (w : Window α) : Prop := ∀ id ∈ w.front, id ∈ w.workspaceIds

def Faced (w : Window α) : Prop := w.front = none → w.workspaceIds = []

structure SameFront (after w : Window α) : Prop where
  front : after.front = w.front
  ids : after.workspaceIds = w.workspaceIds

namespace SameFront

theorem refl (w : Window α) : w.SameFront w := ⟨rfl, rfl⟩

theorem trans {w after third : Window α} (h : third.SameFront after) (hafter : after.SameFront w) :
    third.SameFront w :=
  ⟨h.front.trans hafter.front, h.ids.trans hafter.ids⟩

theorem fronted {w after : Window α} (h : after.SameFront w) (hw : w.Fronted) : after.Fronted := by
  intro id hid
  rw [h.ids]
  exact hw id (h.front ▸ hid)

theorem faced {w after : Window α} (h : after.SameFront w) (hw : w.Faced) : after.Faced := by
  intro hnone
  rw [h.ids]
  exact hw (h.front ▸ hnone)

theorem indexOf? {w after : Window α} (h : after.SameFront w) (id : WorkspaceId) :
    after.indexOf? id = w.indexOf? id := by
  rw [indexOf?_eq, indexOf?_eq, h.ids]

theorem frontIndex? {w after : Window α} (h : after.SameFront w) :
    after.frontIndex? = w.frontIndex? := by
  unfold Window.frontIndex?
  rw [h.front]
  exact Option.bind_congr fun id _ => h.indexOf? id

end SameFront

theorem workspace?_append {w : Window α} {id : WorkspaceId} (hid : id ∈ w.workspaceIds)
    (ws : Workspace α) :
    ({ w with workspaces := w.workspaces ++ [ws] } : Window α).workspace? id = w.workspace? id := by
  obtain ⟨found, hfound⟩ := Option.isSome_iff_exists.1 (isSome_workspace?_iff.2 hid)
  rw [hfound, workspace?, List.find?_append, ← workspace?, hfound, Option.some_or]

theorem frontWorkspace?_append {w : Window α} (hw : w.Fronted) (ws : Workspace α) :
    ({ w with workspaces := w.workspaces ++ [ws] } : Window α).frontWorkspace? =
      w.frontWorkspace? := by
  unfold frontWorkspace?
  exact Option.bind_congr fun front hfront => workspace?_append (hw front hfront) ws

theorem frontWorkspace?_eraseIdx {w : Window α} {id : WorkspaceId} {index : Nat}
    (hindex : w.indexOf? id = some index) (hne : w.frontIndex? ≠ some index) :
    ({ w with workspaces := w.workspaces.eraseIdx index } : Window α).frontWorkspace? =
      w.frontWorkspace? := by
  unfold frontWorkspace?
  refine Option.bind_congr fun front hfront => ?_
  -- The deleted workspace is not the one that is looked for.
  refine find?_eraseIdx fun ws hws => ?_
  obtain ⟨found, hfound, rfl⟩ := getElem?_of_indexOf? hindex
  cases hfound.symm.trans hws
  refine decide_eq_false fun heq => hne ?_
  rw [Window.frontIndex?, show w.front = some ws.id from heq ▸ hfront, Option.bind_some, hindex]

theorem sameFront_modify {w : Window α} {index : Nat} {change : Workspace α → Workspace α}
    (h : w.KeepsId index change) : (w.modifyWorkspace index change).SameFront w :=
  ⟨rfl, workspaceIds_modify h⟩

theorem sameFront_editTab (w : Window α) (id : TabId) (edit : TabEdit) :
    (w.editTab id edit).window.SameFront w := by
  unfold editTab
  split
  · exact .refl w
  · exact sameFront_modify fun _ _ => rfl

theorem sameFront_focus (w : Window α) (now : Clock) (index : Nat) (target : TabId) :
    (w.modifyWorkspace index (·.activate now target)).SameFront w :=
  sameFront_modify fun ws _ => ws.id_activate now target

theorem sameFront_opened (w : Window α) (now : Clock) (op : Opening α) :
    (w.opened now op).SameFront w :=
  sameFront_modify fun _ _ => rfl

theorem getElem?_sweep (w : Window α) (time : Instant) (index : Nat) :
    (w.sweep time).window.workspaces[index]? =
      w.workspaces[index]?.map fun ws => ws.demote (w.demotions time index ws) :=
  List.getElem?_mapIdx

theorem sameFront_sweep (w : Window α) (time : Instant) :
    (w.sweep time).window.SameFront w where
  front := rfl
  ids := by
    refine List.ext_getElem? fun place => ?_
    simp only [workspaceIds, List.getElem?_map, getElem?_sweep, Option.map_map]
    exact Option.map_congr fun ws _ => (ws.sameLayout_demote _).id

variable [Scalar α]

theorem keepsId_close (w : Window α) (now : Clock) (id : TabId) (index : Nat) :
    w.KeepsId index fun ws => ((ws.detach? now id).map (·.2)).getD ws := by
  intro ws _
  simp only
  cases hdetach : ws.detach? now id with
  | none => rfl
  | some gone => exact Workspace.id_detach? hdetach

theorem keepsId_leave {w : Window α} {source : Nat} {ws rest : Workspace α} {now : Clock}
    {id : TabId} {tab : Tab} (hws : w.workspaces[source]? = some ws)
    (hrest : ws.detach? now id = some (tab, rest)) : w.KeepsId source fun _ => rest := by
  intro found hfound
  cases hws.symm.trans hfound
  exact Workspace.id_detach? hrest

theorem sameFront_openTab (w : Window α) (now : Clock) (workspace : WorkspaceId) (id : TabId)
    (title url : String) : (w.openTab now workspace id title url).window.SameFront w := by
  unfold openTab
  split
  · exact .refl w
  · simp only [window_presentIf]
    exact sameFront_modify fun _ _ => rfl

theorem sameFront_closeTab (w : Window α) (now : Clock) (id : TabId) :
    (w.closeTab now id).window.SameFront w := by
  unfold closeTab
  split
  · exact .refl w
  · simp only [window_presentIf]
    exact sameFront_modify (keepsId_close w now id _)

theorem sameFront_moveTab (w : Window α) (now : Clock) (id : TabId) (dest : WorkspaceId) :
    (w.moveTab now id dest).window.SameFront w := by
  unfold moveTab
  split
  · split
    · exact .refl w
    split
    · exact .refl w
    rename_i tab rest hdetach
    obtain ⟨ws, hws, hrest⟩ := Option.bind_eq_some_iff.1 hdetach
    simp only [window_presentIf]
    exact (sameFront_modify fun ws _ => ws.id_adopt now.later tab).trans
      (sameFront_modify (keepsId_leave hws hrest))
  · exact .refl w

theorem sameFront_setTier (w : Window α) (now : Clock) (id : TabId) (tier : MemoryTier) :
    (w.setTier now id tier).window.SameFront w := by
  unfold setTier
  split
  · exact .refl w
  · simp only [window_presentIf]
    exact sameFront_modify fun ws _ => ws.id_retiered now id tier

theorem sameFront_focusToward (w : Window α) (now : Clock) (heading : Heading) :
    (w.focusToward now heading).window.SameFront w := by
  unfold focusToward
  split
  · exact w.sameFront_focus now _ _
  · exact .refl w

theorem sameFront_focusAt (w : Window α) (now : Clock) (x y : α) :
    (w.focusAt now x y).window.SameFront w := by
  unfold focusAt
  split
  · split
    · exact .refl w
    · exact w.sameFront_focus now _ _
  · exact .refl w

theorem sameFront_toggleSplit (w : Window α) (now : Clock) :
    (w.toggleSplit now).window.SameFront w := by
  rcases w.toggleSplit_cases now with ⟨op, -, hwindow⟩ | ⟨-, hwindow | ⟨index, hwindow⟩⟩
  · rw [hwindow]
    exact w.sameFront_opened now op
  · rw [hwindow]
    exact .refl w
  · rw [hwindow]
    exact sameFront_modify fun _ _ => rfl

theorem sameFront_splitWith (w : Window α) (now : Clock) (tab : TabId) (side : Side) :
    (w.splitWith now tab side).window.SameFront w := by
  rcases w.splitWith_cases now tab side with ⟨op, -, hwindow⟩ | ⟨-, hwindow⟩
  · rw [hwindow]
    exact w.sameFront_opened now op
  · rw [hwindow]
    exact .refl w

theorem sameFront_dropTab (w : Window α) (now : Clock) (grab : TabGrab α) :
    (w.dropTab now grab).SameFront w := by
  unfold dropTab
  split
  · rename_i zone index hzone hindex
    exact sameFront_modify fun ws _ => ws.id_drop now grab.tab zone
  · exact .refl w

theorem sameFront_moveDivider {w moved : Window α} {grab : DividerGrab α}
    (h : w.moveDivider grab = .ok moved) : moved.SameFront w := by
  rcases moveDivider_cases h with ⟨rfl, -⟩ | ⟨index, ws, tree, after, -, -, -, -, rfl⟩
  · exact .refl moved
  · exact sameFront_modify fun _ _ => rfl

theorem sameFront_frame {w : Window α} {o : Outcome α Unit} (h : w.frame = .ok o) :
    o.window.SameFront w := by
  unfold frame at h
  split at h
  · cases h
    exact .refl w
  · obtain ⟨moved, hmoved, h⟩ := bind_ok h
    cases h
    have hsame := sameFront_moveDivider hmoved
    exact ⟨hsame.front, hsame.ids⟩
  · cases h
    exact ⟨rfl, rfl⟩

theorem sameFront_release {w : Window α} {now : Clock} {o : Outcome α Unit}
    (h : w.release now = .ok o) : o.window.SameFront w := by
  unfold release at h
  split at h
  · cases h
    exact .refl w
  · obtain ⟨moved, hmoved, h⟩ := bind_ok h
    cases h
    have hsame := sameFront_moveDivider hmoved
    exact ⟨hsame.front, hsame.ids⟩
  · rename_i grab hgrab
    cases h
    have hsame := sameFront_dropTab { w with grab := none } now (w.settle grab)
    exact ⟨hsame.front, hsame.ids⟩

theorem sameFront_cancel {w : Window α} {now : Clock} {o : Outcome α Unit}
    (h : w.cancel now = .ok o) : o.window.SameFront w := by
  have hsame := sameFront_release h
  exact ⟨hsame.front, hsame.ids⟩

theorem sameFront_grabDivider (w : Window α) (x y : α) :
    (w.grabDivider x y).window.SameFront w := by
  unfold grabDivider
  split
  · exact .refl w
  · split
    · exact ⟨rfl, rfl⟩
    · exact .refl w

omit [Scalar α] in
theorem sameFront_grabTab (w : Window α) (tab : TabId) :
    (w.grabTab tab).window.SameFront w := by
  unfold grabTab
  split
  · exact .refl w
  · split
    · split
      · exact ⟨rfl, rfl⟩
      · exact .refl w
    · exact .refl w

theorem sameFront_pointerMove (w : Window α) (x y : α) :
    (w.pointerMove x y).window.SameFront w := by
  unfold pointerMove
  split
  · exact .refl w
  · exact ⟨rfl, rfl⟩

theorem sameFront_setCovered (w : Window α) (covered : Bool) :
    (w.setCovered covered).window.SameFront w := by
  unfold setCovered
  split
  · exact .refl w
  · exact ⟨rfl, rfl⟩

theorem sameFront_perform {w : Window α} {now : Clock} {action : Action α}
    {o : Outcome α (Reply α)} (haction : ¬action.MayTurn) (h : w.perform now action = .ok o) :
    o.window.SameFront w := by
  cases action with
  | createWorkspace id name => exact absurd trivial haction
  | deleteWorkspace id => exact absurd trivial haction
  | switchTo id => exact absurd trivial haction
  | openTab workspace id title url => cases h; exact w.sameFront_openTab now workspace id title url
  | editTab id edit => cases h; exact w.sameFront_editTab id edit
  | closeTab id => cases h; exact w.sameFront_closeTab now id
  | moveTab id dest => cases h; exact w.sameFront_moveTab now id dest
  | setTier id tier => cases h; exact w.sameFront_setTier now id tier
  | selectTab id => exact absurd trivial haction
  | setArea area offset => cases h; exact ⟨rfl, rfl⟩
  | setCovered covered => cases h; exact w.sameFront_setCovered covered
  | refresh => cases h; exact .refl w
  | toggleSplit => cases h; exact w.sameFront_toggleSplit now
  | splitWith tab side => cases h; exact w.sameFront_splitWith now tab side
  | focusToward heading => cases h; exact w.sameFront_focusToward now heading
  | focusAt x y => cases h; exact w.sameFront_focusAt now x y
  | grabDivider x y => cases h; exact w.sameFront_grabDivider x y
  | grabTab tab => cases h; exact w.sameFront_grabTab tab
  | pointerMove x y => cases h; exact w.sameFront_pointerMove x y
  | frame =>
    obtain ⟨inner, hinner, rfl⟩ := map_ok h
    exact sameFront_frame hinner
  | release =>
    obtain ⟨inner, hinner, rfl⟩ := map_ok h
    exact sameFront_release hinner
  | cancel =>
    obtain ⟨inner, hinner, rfl⟩ := map_ok h
    exact sameFront_cancel hinner
  | sweep time => cases h; exact w.sameFront_sweep time
  | restore session => exact absurd trivial haction

theorem fronted_createWorkspace {w : Window α} (hw : w.Fronted) (id : WorkspaceId)
    (name : String) : (w.createWorkspace id name).window.Fronted := by
  have hids : ({ w with workspaces := w.workspaces ++ [.empty id name] } : Window α).workspaceIds =
      w.workspaceIds ++ [id] := by
    simp [workspaceIds, Workspace.empty]
  simp only [createWorkspace]
  split
  · intro front hfront
    cases hfront
    exact hids ▸ List.mem_append_right _ List.mem_cons_self
  · intro front hfront
    exact hids ▸ List.mem_append_left _ (hw front hfront)

theorem fronted_deleteWorkspace {w : Window α} (hw : w.Fronted) (id : WorkspaceId) :
    (w.deleteWorkspace id).window.Fronted := by
  unfold deleteWorkspace
  split
  · exact hw
  rename_i index hindex
  simp only
  split
  · intro front hfront
    obtain ⟨ws, hws, rfl⟩ := Option.map_eq_some_iff.1 hfront
    exact List.mem_map_of_mem (List.mem_of_mem_head? hws)
  · rename_i hne
    intro front hfront
    -- The deleted workspace stands elsewhere than the one in front.
    obtain ⟨place, hplace⟩ := Option.isSome_iff_exists.1 (isSome_indexOf?_iff.2 (hw front hfront))
    obtain ⟨ws, hws, rfl⟩ := getElem?_of_indexOf? hplace
    have hother : place ≠ index := by
      rintro rfl
      refine hne ?_
      rw [frontIndex?, show w.front = some ws.id from hfront, Option.bind_some, hplace]
    exact List.mem_map_of_mem (List.mem_eraseIdx_iff_getElem?.2 ⟨place, hother, hws⟩)

theorem fronted_switchTo {w : Window α} (hw : w.Fronted) (now : Clock) (id : WorkspaceId) :
    (w.switchTo now id).window.Fronted := by
  unfold switchTo
  split
  · exact hw
  · rename_i index hindex
    have hkeeps : ({ w with grab := none, front := some id } : Window α).KeepsId index
        (·.touchVisible now) := fun ws _ => (ws.sameLayout_touchVisible now).id
    intro front hfront
    cases hfront
    rw [window_present, workspaceIds_modify hkeeps]
    exact isSome_indexOf?_iff.1 (Option.isSome_of_eq_some hindex)

theorem fronted_selectTab {w : Window α} (hw : w.Fronted) (now : Clock) (id : TabId) :
    (w.selectTab now id).window.Fronted := by
  unfold selectTab
  split
  · exact hw
  · rename_i index hindex
    have hkeeps : w.KeepsId index (·.selected now id) := fun ws _ => ws.id_selected now id
    have hids := workspaceIds_modify hkeeps
    intro front hfront
    have hmem : front ∈ w.workspaceIds := by
      rcases Option.or_eq_some_iff.1 hfront with hhome | ⟨-, hsame⟩
      · obtain ⟨ws, hws, rfl⟩ := Option.map_eq_some_iff.1 hhome
        exact List.mem_map_of_mem (List.mem_of_getElem? hws)
      · exact hw front hsame
    rw [← hids] at hmem
    exact hmem

theorem fronted_restore (w : Window α) (now : Clock) (session : Session α) :
    (w.restore now session).window.Fronted := by
  have hkeeps : ({ w with workspaces := session.workspaces.map (·.restored now) } :
      Window α).KeepsId session.frontOrFirst (·.touchVisible now.later) :=
    fun ws _ => (ws.sameLayout_touchVisible now.later).id
  have hids := workspaceIds_modify hkeeps
  intro front hfront
  obtain ⟨ws, hws, rfl⟩ := Option.map_eq_some_iff.1 hfront
  have hmem : ws.id ∈ (session.workspaces.map (·.restored now)).map Workspace.id :=
    List.mem_map_of_mem (List.mem_of_getElem? hws)
  exact hids.symm ▸ hmem

theorem fronted_perform {w : Window α} {now : Clock} {action : Action α}
    {o : Outcome α (Reply α)} (hw : w.Fronted) (h : w.perform now action = .ok o) :
    o.window.Fronted := by
  by_cases haction : action.MayTurn
  · cases action with
    | createWorkspace id name => cases h; exact fronted_createWorkspace hw id name
    | deleteWorkspace id => cases h; exact fronted_deleteWorkspace hw id
    | switchTo id => cases h; exact fronted_switchTo hw now id
    | selectTab id => cases h; exact fronted_selectTab hw now id
    | restore session => cases h; exact w.fronted_restore now session
    | _ => exact haction.elim
  · exact (sameFront_perform haction h).fronted hw

theorem faced_deleteWorkspace {w : Window α} (hw : w.Faced) (id : WorkspaceId) :
    (w.deleteWorkspace id).window.Faced := by
  unfold deleteWorkspace
  split
  · exact hw
  rename_i index hindex
  simp only
  split
  · intro hnone
    have hempty : w.workspaces.eraseIdx index = [] :=
      List.head?_eq_none_iff.1 (Option.map_eq_none_iff.1 hnone)
    exact congrArg (List.map Workspace.id) hempty
  · intro hnone
    have hempty : w.workspaces = [] := List.map_eq_nil_iff.1 (hw hnone)
    simp [workspaceIds, hempty]

theorem faced_restore (w : Window α) (now : Clock) (session : Session α) :
    (w.restore now session).window.Faced := by
  intro hnone
  have hplace := List.getElem?_eq_none_iff.1 (Option.map_eq_none_iff.1 hnone)
  have hempty : session.workspaces = [] := by
    by_contra hne
    have hpos : 0 < session.workspaces.length := List.length_pos_iff.2 hne
    rw [List.length_map] at hplace
    have hlt : session.frontOrFirst < session.workspaces.length := by
      rcases session.frontOrFirst_cases with ⟨-, hsaved⟩ | ⟨-, hfirst⟩
      · exact hsaved
      · exact hfirst ▸ hpos
    omega
  simp [restore, workspaceIds, hempty]

theorem faced_perform {w : Window α} {now : Clock} {action : Action α}
    {o : Outcome α (Reply α)} (hw : w.Faced) (h : w.perform now action = .ok o) :
    o.window.Faced := by
  by_cases haction : action.MayTurn
  · cases action with
    | createWorkspace id name =>
      cases h
      have hfaced : (w.createWorkspace id name).window.Faced := by
        simp only [createWorkspace]
        split
        · intro hnone
          cases hnone
        · rename_i hsome
          exact fun hnone => absurd (Option.isNone_iff_eq_none.2 hnone) hsome
      exact hfaced
    | deleteWorkspace id => cases h; exact faced_deleteWorkspace hw id
    | switchTo id =>
      cases h
      have hfaced : (w.switchTo now id).window.Faced := by
        unfold switchTo
        split
        · exact hw
        · intro hnone
          cases hnone
      exact hfaced
    | selectTab id =>
      cases h
      have hfaced : (w.selectTab now id).window.Faced := by
        unfold selectTab
        split
        · exact hw
        · rename_i index hindex
          obtain ⟨home, hhome, -⟩ := getElem?_of_indexOfTab? hindex
          simp [hhome, Faced]
      exact hfaced
    | restore session => cases h; exact w.faced_restore now session
    | _ => exact haction.elim
  · exact (sameFront_perform haction h).faced hw

theorem fronted_ofSettings (s : Settings α) : (ofSettings s).Fronted := nofun

theorem faced_ofSettings (s : Settings α) : (ofSettings s).Faced := fun _ => rfl

theorem fronted_run {w last : Window α} {actions : List (Clock × Action α)} (hw : w.Fronted)
    (hrun : w.run actions = .ok last) : last.Fronted :=
  invariant_of_run (fun _ _ _ _ hinv ho => fronted_perform hinv ho) hw hrun

end Window

end PaneTiling
