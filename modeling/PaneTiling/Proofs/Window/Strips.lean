import PaneTiling.Proofs.Workspace.Strip
import PaneTiling.Proofs.Window.Recovery

/-!
The tabs of a window, whatever workspace they are in. A tab is found only by opening it and lost
only by closing it or by deleting its workspace; a tab that moves leaves the strip of one workspace
and comes last in that of another. Whatever else is done leaves every strip as it is.
-/

namespace PaneTiling

variable {α : Type}

def Action.KeepsStrips : Action α → Prop
  | .createWorkspace _ _ | .deleteWorkspace _ | .openTab _ _ _ _ | .editTab _ _ | .closeTab _
  | .moveTab _ _ | .restore _ => False
  | _ => True

def Action.Rewrites : Action α → Prop
  | .editTab _ _ | .restore _ => True
  | _ => False

def Action.gained : Action α → Reply α → List TabEntry
  | .openTab _ id title url, .tab (some _) => [⟨id, title, url, false, false⟩]
  | _, _ => []

namespace Strip

/-- A strip that gave up some of its entries, or got one more at its end. -/
structure KeepsOrder (before after : Strip) : Prop where
  workspace : after.workspace = before.workspace
  entries : after.entries.Sublist before.entries ∨
    ∃ entry, after.entries = before.entries ++ [entry]

theorem KeepsOrder.refl (strip : Strip) : strip.KeepsOrder strip := ⟨rfl, .inl (.refl _)⟩

theorem keepsOrder_add (strip : Strip) (entry : TabEntry) :
    strip.KeepsOrder (strip.add entry) := ⟨rfl, .inr ⟨entry, rfl⟩⟩

theorem keepsOrder_without (strip : Strip) (id : TabId) : strip.KeepsOrder (strip.without id) :=
  ⟨rfl, .inl List.eraseP_sublist⟩

theorem perm_without {strip : Strip} {id : TabId} {entry : TabEntry}
    (h : strip.entries.find? (·.id = id) = some entry) :
    ((strip.without id).entries ++ [entry]).Perm strip.entries := by
  obtain ⟨hentry, before, rest, hentries, hbefore⟩ := List.find?_eq_some_iff_append.1 h
  have hnot : ∀ other ∈ before, ¬decide (other.id = id) = true := by simpa using hbefore
  simp only [without, hentries]
  rw [List.eraseP_append_right _ hnot, List.eraseP_cons, hentry, cond_true, List.append_assoc]
  exact (List.perm_append_singleton entry rest).append_left before

variable {strips : List Strip} {index : Nat} {strip : Strip}

theorem eq_take_cons_drop (h : strips[index]? = some strip) :
    strips = strips.take index ++ strip :: strips.drop (index + 1) := by
  obtain ⟨hlt, rfl⟩ := List.getElem?_eq_some_iff.1 h
  rw [List.cons_getElem_drop_succ, List.take_append_drop]

theorem perm_modify {change : Strip → Strip} {gone come : List TabEntry}
    (hstrip : strips[index]? = some strip)
    (h : ((change strip).entries ++ gone).Perm (strip.entries ++ come)) :
    ((strips.modify index change).flatMap Strip.entries ++ gone).Perm
      (strips.flatMap Strip.entries ++ come) := by
  obtain ⟨hlt, rfl⟩ := List.getElem?_eq_some_iff.1 hstrip
  have hsplit := congrArg (List.flatMap Strip.entries) (eq_take_cons_drop hstrip)
  rw [hsplit, List.modify_eq_take_cons_drop hlt]
  rw [List.perm_iff_count] at h ⊢
  intro entry
  have hcount := h entry
  simp only [List.flatMap_append, List.flatMap_cons, List.count_append] at hcount ⊢
  omega

theorem perm_add (hstrip : strips[index]? = some strip) (entry : TabEntry) :
    ((strips.modify index (·.add entry)).flatMap Strip.entries).Perm
      (strips.flatMap Strip.entries ++ [entry]) := by
  have hperm : ((strip.add entry).entries ++ []).Perm (strip.entries ++ [entry]) :=
    .of_eq (List.append_nil _)
  exact (List.Perm.of_eq (List.append_nil _).symm).trans (perm_modify hstrip hperm)

theorem perm_eraseIdx (h : strips[index]? = some strip) :
    ((strips.eraseIdx index).flatMap Strip.entries ++ strip.entries).Perm
      (strips.flatMap Strip.entries) := by
  have hsplit := congrArg (List.flatMap Strip.entries) (eq_take_cons_drop h)
  rw [hsplit, List.eraseIdx_eq_take_drop_succ, List.perm_iff_count]
  intro entry
  simp only [List.flatMap_append, List.flatMap_cons, List.count_append]
  omega

theorem forall₂_keepsOrder {after : List Strip} (hlength : after.length = strips.length)
    (h : ∀ (place : Nat) (strip next : Strip), strips[place]? = some strip →
      after[place]? = some next → strip.KeepsOrder next) :
    List.Forall₂ KeepsOrder strips after := by
  refine List.forall₂_iff_get.2 ⟨hlength.symm, fun place hplace hafter => ?_⟩
  exact h place _ _ (List.getElem?_eq_getElem hplace) (List.getElem?_eq_getElem hafter)

theorem forall₂_keepsOrder_self (strips : List Strip) : List.Forall₂ KeepsOrder strips strips :=
  List.forall₂_same.2 fun strip _ => .refl strip

theorem forall₂_keepsOrder_modify {change : Strip → Strip}
    (h : ∀ strip : Strip, strip.KeepsOrder (change strip)) (strips : List Strip) (index : Nat) :
    List.Forall₂ KeepsOrder strips (strips.modify index change) := by
  refine forall₂_keepsOrder (List.length_modify ..) fun place strip next hstrip hnext => ?_
  rw [List.getElem?_modify, hstrip] at hnext
  cases hnext
  split
  · exact h strip
  · exact .refl strip

theorem forall₂_keepsOrder_move {source target : Nat} (hne : source ≠ target) (id : TabId)
    (entry : TabEntry) (strips : List Strip) :
    List.Forall₂ KeepsOrder strips
      ((strips.modify source (·.without id)).modify target (·.add entry)) := by
  refine forall₂_keepsOrder (by simp) fun place strip next hstrip hnext => ?_
  simp only [List.getElem?_modify, hstrip, Option.map_eq_map, Option.map_some,
    Option.some.injEq] at hnext
  subst hnext
  by_cases hplace : source = place
  · rw [if_pos hplace, if_neg fun heq => hne (hplace.trans heq.symm)]
    exact strip.keepsOrder_without id
  · rw [if_neg hplace]
    split
    · exact strip.keepsOrder_add entry
    · exact .refl strip

end Strip

namespace Window

def strips (w : Window α) : List Strip := w.workspaces.map Workspace.strip

def tabEntries (w : Window α) : List TabEntry := w.strips.flatMap Strip.entries

/-- The tabs that an action takes: the first with an id that is closed, and all of the first
workspace with an id that is deleted. -/
def lost (w : Window α) : Action α → List TabEntry
  | .closeTab id => (w.tabEntries.find? (·.id = id)).toList
  | .deleteWorkspace id => ((w.strips.find? (·.workspace = id)).map Strip.entries).getD []
  | _ => []

def carried (w : Window α) : Action α → List Strip
  | .createWorkspace id _ => w.strips ++ [⟨id, []⟩]
  | .deleteWorkspace id => w.strips.eraseP (·.workspace = id)
  | _ => w.strips

/-- An action that answered did to the tabs nothing but what is asked of it. -/
structure Conserves (w : Window α) (action : Action α) (o : Outcome α (Reply α)) : Prop where
  tabs : (o.window.tabEntries ++ w.lost action).Perm (w.tabEntries ++ action.gained o.value)
  order : List.Forall₂ Strip.KeepsOrder (w.carried action) o.window.strips

variable {w : Window α}

theorem getElem?_strips {index : Nat} {ws : Workspace α} (h : w.workspaces[index]? = some ws) :
    w.strips[index]? = some ws.strip := by
  rw [strips, List.getElem?_map, h, Option.map_some]

theorem strips_modify {index : Nat} {change : Workspace α → Workspace α} {next : Strip → Strip}
    (h : ∀ ws, w.workspaces[index]? = some ws → (change ws).strip = next ws.strip) :
    (w.modifyWorkspace index change).strips = w.strips.modify index next := by
  refine List.ext_getElem? fun place => ?_
  simp only [strips, List.getElem?_map, getElem?_modifyWorkspace, List.getElem?_modify,
    Option.map_eq_map, Option.map_map]
  split
  · rename_i heq
    rw [Option.map_map]
    exact Option.map_congr fun ws hws => h ws (heq ▸ hws)
  · exact Option.map_congr fun _ _ => rfl

theorem strips_modify_of_keeps {index : Nat} {change : Workspace α → Workspace α}
    (h : ∀ ws, (change ws).strip = ws.strip) :
    (w.modifyWorkspace index change).strips = w.strips := by
  have hmodify : (w.modifyWorkspace index change).strips = w.strips.modify index id :=
    strips_modify fun ws _ => h ws
  rw [hmodify, List.modify_id]

theorem find?_tabEntries {id : TabId} {index : Nat} (h : w.indexOfTab? id = some index)
    {ws : Workspace α} (hws : w.workspaces[index]? = some ws) :
    w.tabEntries.find? (·.id = id) = ws.strip.entries.find? (·.id = id) := by
  obtain ⟨hlt, -, hfirst⟩ := List.findIdx?_eq_some_iff_getElem.1 h
  obtain ⟨found, hfound, hhas⟩ := getElem?_of_indexOfTab? h
  cases hws.symm.trans hfound
  have hbefore : ((w.strips.take index).flatMap Strip.entries).find? (·.id = id) = none := by
    simp only [List.find?_eq_none, List.mem_flatMap, decide_eq_true_eq]
    rintro entry ⟨strip, hstrip, hentry⟩ hid
    obtain ⟨place, hplace⟩ := List.mem_iff_getElem?.1 hstrip
    rw [List.getElem?_take] at hplace
    split at hplace
    · rename_i hplaced
      obtain ⟨before, hbefore, rfl⟩ := Option.map_eq_some_iff.1 (List.getElem?_map .. ▸ hplace)
      obtain ⟨hplacelt, rfl⟩ := List.getElem?_eq_some_iff.1 hbefore
      exact hfirst place hplaced
        (decide_eq_true (Workspace.hasTab_iff_entry.2 ⟨entry, hentry, hid⟩))
    · cases hplace
  have hhere : (ws.strip.entries.find? (·.id = id)).isSome := by
    simpa using Workspace.hasTab_iff_entry.1 hhas
  rw [tabEntries, Strip.eq_take_cons_drop (getElem?_strips hws), List.flatMap_append,
    List.flatMap_cons, List.find?_append, hbefore, Option.none_or, List.find?_append,
    Option.or_of_isSome hhere]

theorem find?_tabEntries_eq_none {id : TabId} (h : w.indexOfTab? id = none) :
    w.tabEntries.find? (·.id = id) = none := by
  simp only [tabEntries, strips, List.find?_eq_none, List.mem_flatMap, List.mem_map,
    decide_eq_true_eq]
  rintro entry ⟨strip, ⟨ws, hws, rfl⟩, hentry⟩ hid
  have hnot := List.findIdx?_eq_none_iff.1 h ws hws
  exact of_decide_eq_false hnot (Workspace.hasTab_iff_entry.2 ⟨entry, hentry, hid⟩)

theorem findIdx?_strips (w : Window α) (id : WorkspaceId) :
    w.strips.findIdx? (·.workspace = id) = w.indexOf? id := by
  rw [strips, List.findIdx?_map]
  rfl

theorem strips_sweep (w : Window α) (time : Instant) :
    (w.sweep time).window.strips = w.strips := by
  refine List.ext_getElem? fun place => ?_
  simp only [strips, List.getElem?_map, getElem?_sweep, Option.map_map]
  exact Option.map_congr fun ws _ => ws.strip_demote _

theorem strips_createWorkspace [Scalar α] (w : Window α) (id : WorkspaceId) (name : String) :
    (w.createWorkspace id name).window.strips = w.strips ++ [⟨id, []⟩] := by
  have hadd : (w.workspaces ++ [Workspace.empty id name]).map Workspace.strip =
      w.strips ++ [⟨id, []⟩] := List.map_append
  simp only [createWorkspace]
  split
  · exact hadd
  · exact hadd

theorem strips_deleteWorkspace [Scalar α] (w : Window α) (id : WorkspaceId) :
    (w.deleteWorkspace id).window.strips = w.strips.eraseP (·.workspace = id) := by
  rw [List.eraseP_eq_eraseIdx, findIdx?_strips]
  unfold deleteWorkspace
  cases w.indexOf? id with
  | none => rfl
  | some index =>
    have herase : (w.workspaces.eraseIdx index).map Workspace.strip = w.strips.eraseIdx index :=
      (List.eraseIdx_map Workspace.strip w.workspaces index).symm
    simp only
    split
    · exact herase
    · exact herase

theorem strips_focus (w : Window α) (now : Clock) (index : Nat) (target : TabId) :
    (w.modifyWorkspace index (·.activate now target)).strips = w.strips :=
  strips_modify_of_keeps fun ws => ws.strip_activate now target

theorem strips_opened (w : Window α) (now : Clock) (op : Opening α) :
    (w.opened now op).strips = w.strips :=
  strips_modify_of_keeps fun ws => ws.strip_opened now op.tree op.tab op.focus

section Keeping

variable [Scalar α]

theorem strips_switchTo (w : Window α) (now : Clock) (id : WorkspaceId) :
    (w.switchTo now id).window.strips = w.strips := by
  unfold switchTo
  split
  · rfl
  · exact strips_modify_of_keeps fun ws => ws.strip_touchVisible now

theorem strips_setTier (w : Window α) (now : Clock) (id : TabId) (tier : MemoryTier) :
    (w.setTier now id tier).window.strips = w.strips := by
  unfold setTier
  split
  · rfl
  · simp only [window_presentIf]
    exact strips_modify_of_keeps fun ws => ws.strip_retiered now id tier

theorem strips_selectTab (w : Window α) (now : Clock) (id : TabId) :
    (w.selectTab now id).window.strips = w.strips := by
  unfold selectTab
  split
  · rfl
  · rename_i index hindex
    have hkept : (w.modifyWorkspace index (·.selected now id)).strips = w.strips :=
      strips_modify_of_keeps fun ws => ws.strip_selected now id
    exact hkept

theorem strips_focusToward (w : Window α) (now : Clock) (heading : Heading) :
    (w.focusToward now heading).window.strips = w.strips := by
  unfold focusToward
  split
  · exact w.strips_focus now _ _
  · rfl

theorem strips_focusAt (w : Window α) (now : Clock) (x y : α) :
    (w.focusAt now x y).window.strips = w.strips := by
  unfold focusAt
  split
  · split
    · rfl
    · exact w.strips_focus now _ _
  · rfl

theorem strips_toggleSplit (w : Window α) (now : Clock) :
    (w.toggleSplit now).window.strips = w.strips := by
  rcases w.toggleSplit_cases now with ⟨op, -, hwindow⟩ | ⟨-, hwindow | ⟨index, hwindow⟩⟩
  · rw [hwindow]
    exact w.strips_opened now op
  · rw [hwindow]
  · rw [hwindow]
    exact strips_modify_of_keeps fun _ => rfl

theorem strips_splitWith (w : Window α) (now : Clock) (tab : TabId) (side : Side) :
    (w.splitWith now tab side).window.strips = w.strips := by
  rcases w.splitWith_cases now tab side with ⟨op, -, hwindow⟩ | ⟨-, hwindow⟩
  · rw [hwindow]
    exact w.strips_opened now op
  · rw [hwindow]

theorem strips_dropTab (w : Window α) (now : Clock) (grab : TabGrab α) :
    (w.dropTab now grab).strips = w.strips := by
  unfold dropTab
  split
  · rename_i zone index hzone hindex
    exact strips_modify_of_keeps fun ws => ws.strip_drop now grab.tab zone
  · rfl

theorem strips_moveDivider {w moved : Window α} {grab : DividerGrab α}
    (h : w.moveDivider grab = .ok moved) : moved.strips = w.strips := by
  rcases moveDivider_cases h with ⟨rfl, -⟩ | ⟨index, ws, tree, after, -, -, -, -, rfl⟩
  · rfl
  · exact strips_modify_of_keeps fun _ => rfl

theorem strips_frame {w : Window α} {o : Outcome α Unit} (h : w.frame = .ok o) :
    o.window.strips = w.strips := by
  unfold frame at h
  split at h
  · cases h
    rfl
  · obtain ⟨moved, hmoved, h⟩ := bind_ok h
    cases h
    have hkept := strips_moveDivider hmoved
    exact hkept
  · cases h
    rfl

theorem strips_release {w : Window α} {now : Clock} {o : Outcome α Unit}
    (h : w.release now = .ok o) : o.window.strips = w.strips := by
  unfold release at h
  split at h
  · cases h
    rfl
  · obtain ⟨moved, hmoved, h⟩ := bind_ok h
    cases h
    have hkept := strips_moveDivider hmoved
    exact hkept
  · rename_i grab hgrab
    cases h
    exact ({ w with grab := none } : Window α).strips_dropTab now (w.settle grab)

theorem strips_cancel {w : Window α} {now : Clock} {o : Outcome α Unit}
    (h : w.cancel now = .ok o) : o.window.strips = w.strips := by
  have hkept := strips_release h
  exact hkept

theorem strips_perform {w : Window α} {now : Clock} {action : Action α}
    {o : Outcome α (Reply α)} (haction : action.KeepsStrips) (h : w.perform now action = .ok o) :
    o.window.strips = w.strips := by
  have hsame {after : Window α} (hafter : after.workspaces = w.workspaces) :
      after.strips = w.strips := congrArg (List.map Workspace.strip) hafter
  cases action with
  | createWorkspace id name => exact haction.elim
  | deleteWorkspace id => exact haction.elim
  | switchTo id => cases h; exact w.strips_switchTo now id
  | openTab workspace id title url => exact haction.elim
  | editTab id edit => exact haction.elim
  | closeTab id => exact haction.elim
  | moveTab id dest => exact haction.elim
  | setTier id tier => cases h; exact w.strips_setTier now id tier
  | selectTab id => cases h; exact w.strips_selectTab now id
  | setArea area offset => cases h; rfl
  | setCovered covered => cases h; exact hsame (w.workspaces_setCovered covered)
  | refresh => cases h; rfl
  | toggleSplit => cases h; exact w.strips_toggleSplit now
  | splitWith tab side => cases h; exact w.strips_splitWith now tab side
  | focusToward heading => cases h; exact w.strips_focusToward now heading
  | focusAt x y => cases h; exact w.strips_focusAt now x y
  | grabDivider x y => cases h; exact hsame (w.workspaces_grabDivider x y)
  | grabTab tab => cases h; exact hsame (w.workspaces_grabTab tab)
  | pointerMove x y => cases h; exact hsame (w.workspaces_pointerMove x y)
  | frame =>
    obtain ⟨inner, hinner, rfl⟩ := map_ok h
    exact strips_frame hinner
  | release =>
    obtain ⟨inner, hinner, rfl⟩ := map_ok h
    exact strips_release hinner
  | cancel =>
    obtain ⟨inner, hinner, rfl⟩ := map_ok h
    exact strips_cancel hinner
  | sweep time => cases h; exact w.strips_sweep time
  | restore session => exact haction.elim

end Keeping

theorem conserves_of_strips {action : Action α} {o : Outcome α (Reply α)}
    (h : o.window.strips = w.strips) (hlost : w.lost action = [])
    (hgained : action.gained o.value = []) (hcarried : w.carried action = w.strips) :
    w.Conserves action o := by
  constructor
  · rw [hlost, hgained, tabEntries, h, tabEntries]
  · rw [hcarried, h]
    exact Strip.forall₂_keepsOrder_self w.strips

theorem conserves_of_keepsStrips {action : Action α} {o : Outcome α (Reply α)}
    (haction : action.KeepsStrips) (h : o.window.strips = w.strips) : w.Conserves action o := by
  cases action with
  | createWorkspace id name => exact haction.elim
  | deleteWorkspace id => exact haction.elim
  | openTab workspace id title url => exact haction.elim
  | editTab id edit => exact haction.elim
  | closeTab id => exact haction.elim
  | moveTab id dest => exact haction.elim
  | restore session => exact haction.elim
  | _ => exact conserves_of_strips h rfl rfl rfl

section Taking

variable [Scalar α]

theorem strips_detach {now : Clock} {id : TabId} {index : Nat} {ws rest : Workspace α} {tab : Tab}
    (hws : w.workspaces[index]? = some ws) (hrest : ws.detach? now id = some (tab, rest)) :
    (w.modifyWorkspace index fun _ => rest).strips = w.strips.modify index (·.without id) := by
  refine strips_modify fun found hfound => ?_
  cases hws.symm.trans hfound
  exact (Workspace.strip_detach? hrest).1

theorem perm_detach {now : Clock} {id : TabId} {index : Nat} {ws rest : Workspace α} {tab : Tab}
    (hws : w.workspaces[index]? = some ws) (hrest : ws.detach? now id = some (tab, rest)) :
    ((w.strips.modify index (·.without id)).flatMap Strip.entries ++ [tab.entry]).Perm
      w.tabEntries := by
  have hperm := Strip.perm_without (Workspace.strip_detach? hrest).2
  rw [← List.append_nil ws.strip.entries] at hperm
  exact (Strip.perm_modify (getElem?_strips hws) hperm).trans (.of_eq (List.append_nil _))

theorem conserves_createWorkspace (w : Window α) (id : WorkspaceId) (name : String) :
    w.Conserves (.createWorkspace id name) ((w.createWorkspace id name).map .workspace) := by
  have hstrips := w.strips_createWorkspace id name
  constructor
  · refine .of_eq ?_
    simp only [tabEntries, Outcome.map, hstrips, lost, Action.gained]
    simp
  · simp only [Outcome.map, hstrips, carried]
    exact Strip.forall₂_keepsOrder_self _

theorem conserves_deleteWorkspace (w : Window α) (id : WorkspaceId) :
    w.Conserves (.deleteWorkspace id) (w.deleteWorkspace id).done := by
  have hstrips := w.strips_deleteWorkspace id
  constructor
  · simp only [tabEntries, Outcome.done, Outcome.map, hstrips, lost, Action.gained,
      List.append_nil]
    rw [List.find?_eq_bind_findIdx?_getElem?, List.eraseP_eq_eraseIdx]
    cases hindex : w.strips.findIdx? (·.workspace = id) with
    | none => exact .of_eq (List.append_nil _)
    | some index =>
      obtain ⟨hlt, -⟩ := List.findIdx?_eq_some_iff_getElem.1 hindex
      have hstrip := List.getElem?_eq_getElem hlt
      simp only [Option.bind_some, hstrip, Option.map_some, Option.getD_some]
      exact Strip.perm_eraseIdx hstrip
  · simp only [Outcome.done, Outcome.map, hstrips, carried]
    exact Strip.forall₂_keepsOrder_self _

theorem value_presentIf {β : Type} (w : Window α) (changed : Bool) (value : β) :
    (w.presentIf changed value).value = value := by
  cases changed <;> rfl

theorem conserves_openTab (w : Window α) (now : Clock) (workspace : WorkspaceId) (id : TabId)
    (title url : String) :
    w.Conserves (.openTab workspace id title url)
      ((w.openTab now workspace id title url).map .tab) := by
  unfold openTab
  cases hindex : w.indexOf? workspace with
  | none => exact conserves_of_strips rfl rfl rfl rfl
  | some index =>
    obtain ⟨ws, hws, -⟩ := getElem?_of_indexOf? hindex
    have hstrips : (w.modifyWorkspace index (·.addTab (.fresh id title url now))).strips =
        w.strips.modify index (·.add ⟨id, title, url, false, false⟩) :=
      strips_modify fun ws _ => ws.strip_addTab _
    constructor
    · simp only [tabEntries, Outcome.map, window_presentIf, hstrips, lost, List.append_nil,
        value_presentIf, Action.gained]
      exact Strip.perm_add (getElem?_strips hws) _
    · simp only [Outcome.map, window_presentIf, hstrips, carried]
      exact Strip.forall₂_keepsOrder_modify (fun strip => strip.keepsOrder_add _) w.strips index

theorem conserves_closeTab (w : Window α) (now : Clock) (id : TabId) :
    w.Conserves (.closeTab id) (w.closeTab now id).done := by
  unfold closeTab
  cases hindex : w.indexOfTab? id with
  | none =>
    refine conserves_of_strips rfl ?_ rfl rfl
    rw [lost, find?_tabEntries_eq_none hindex, Option.toList_none]
  | some index =>
    obtain ⟨ws, hws, hhas⟩ := getElem?_of_indexOfTab? hindex
    obtain ⟨tab, rest, hrest⟩ := Workspace.exists_detach? hhas now
    have hdrop : w.modifyWorkspace index (fun ws => ((ws.detach? now id).map (·.2)).getD ws) =
        w.modifyWorkspace index fun _ => rest :=
      modifyWorkspace_congr_at hws (by rw [hrest, Option.map_some, Option.getD_some])
    have hlost : w.lost (.closeTab id) = [tab.entry] := by
      rw [lost, find?_tabEntries hindex hws, (Workspace.strip_detach? hrest).2, Option.toList_some]
    constructor
    · simp only [tabEntries, Outcome.done, Outcome.map, window_presentIf, hdrop,
        strips_detach hws hrest, hlost, Action.gained, List.append_nil]
      exact perm_detach hws hrest
    · simp only [Outcome.done, Outcome.map, window_presentIf, hdrop, strips_detach hws hrest,
        carried]
      exact Strip.forall₂_keepsOrder_modify (fun strip => strip.keepsOrder_without id) _ _

theorem strips_moved {now : Clock} {id : TabId} {source : Nat} {ws rest : Workspace α}
    {tab : Tab} (hws : w.workspaces[source]? = some ws)
    (hrest : ws.detach? now id = some (tab, rest)) (target : Nat) :
    ((w.modifyWorkspace source fun _ => rest).modifyWorkspace target
        (·.adopt now.later tab)).strips =
      (w.strips.modify source (·.without id)).modify target (·.add tab.entry) := by
  rw [← strips_detach hws hrest]
  exact strips_modify fun ws _ => ws.strip_adopt now.later tab

theorem conserves_moveTab (w : Window α) (now : Clock) (id : TabId) (dest : WorkspaceId) :
    w.Conserves (.moveTab id dest) (w.moveTab now id dest).done := by
  have hsame : w.Conserves (.moveTab id dest) (w.quiet ()).done :=
    conserves_of_strips rfl rfl rfl rfl
  unfold moveTab
  split
  · rename_i source target hsource htarget
    split
    · exact hsame
    rename_i hne
    split
    · exact hsame
    rename_i tab rest hdetach
    obtain ⟨ws, hws, hrest⟩ := Option.bind_eq_some_iff.1 hdetach
    obtain ⟨other, hother, -⟩ := getElem?_of_indexOf? htarget
    have hstrips := strips_moved hws hrest target
    have htargeted : (w.strips.modify source (·.without id))[target]? = some other.strip := by
      simp only [List.getElem?_modify, if_neg hne, getElem?_strips hother, Option.map_eq_map,
        Option.map_some]
    constructor
    · simp only [tabEntries, Outcome.done, Outcome.map, window_presentIf, hstrips, lost,
        Action.gained, List.append_nil]
      exact (Strip.perm_add htargeted tab.entry).trans (perm_detach hws hrest)
    · simp only [Outcome.done, Outcome.map, window_presentIf, hstrips, carried]
      exact Strip.forall₂_keepsOrder_move hne id tab.entry w.strips
  · exact hsame

end Taking

/-- Whatever is done to a window but bringing back a session and editing a tab: its tabs are those
that it had, with the one that was opened and without those that were closed or deleted; and every
strip that stays gives up tabs or gets one at its end. -/
theorem conserves_perform [Scalar α] {w : Window α} {now : Clock} {action : Action α}
    {o : Outcome α (Reply α)} (haction : ¬action.Rewrites) (h : w.perform now action = .ok o) :
    w.Conserves action o := by
  by_cases hkeeps : action.KeepsStrips
  · exact conserves_of_keepsStrips hkeeps (strips_perform hkeeps h)
  · cases action with
    | createWorkspace id name => cases h; exact w.conserves_createWorkspace id name
    | deleteWorkspace id => cases h; exact w.conserves_deleteWorkspace id
    | openTab workspace id title url =>
      cases h
      exact w.conserves_openTab now workspace id title url
    | closeTab id => cases h; exact w.conserves_closeTab now id
    | moveTab id dest => cases h; exact w.conserves_moveTab now id dest
    | editTab id edit => exact absurd trivial haction
    | restore session => exact absurd trivial haction
    | _ => exact absurd trivial hkeeps

theorem conserves_moveTab_mainBehindSplit :
    ∃ o, mainBehindSplit.perform 1 (.moveTab ⟨"d"⟩ ⟨0⟩) = .ok o ∧
      mainBehindSplit.Conserves (.moveTab ⟨"d"⟩ ⟨0⟩) o ∧
      o.window.strips.map (fun strip => strip.entries.map (·.id)) =
        [[⟨"a"⟩, ⟨"d"⟩], [⟨"b"⟩, ⟨"c"⟩]] :=
  ⟨_, rfl, conserves_perform (fun h => h) rfl, by decide +kernel⟩

section Runs

variable [Scalar α]

def lostAlong (w : Window α) : List (Clock × Action α) → List TabEntry
  | [] => []
  | (now, action) :: rest =>
    match w.perform now action with
    | .ok o => w.lost action ++ o.window.lostAlong rest
    | .error _ => []

def gainedAlong (w : Window α) : List (Clock × Action α) → List TabEntry
  | [] => []
  | (now, action) :: rest =>
    match w.perform now action with
    | .ok o => action.gained o.value ++ o.window.gainedAlong rest
    | .error _ => []

theorem perm_tabEntries_run {last : Window α} {actions : List (Clock × Action α)}
    (hactions : ∀ step ∈ actions, ¬step.2.Rewrites) (hrun : w.run actions = .ok last) :
    (last.tabEntries ++ w.lostAlong actions).Perm (w.tabEntries ++ w.gainedAlong actions) := by
  induction actions generalizing w with
  | nil =>
    cases hrun
    rfl
  | cons step rest ih =>
    obtain ⟨now, action⟩ := step
    obtain ⟨hfirst, hlater⟩ := List.forall_mem_cons.1 hactions
    obtain ⟨o, ho, hrest⟩ := run_cons_eq_ok hrun
    have hstep := (conserves_perform hfirst ho).tabs
    have htail := ih hlater hrest
    simp only [lostAlong, gainedAlong, ho]
    rw [List.perm_iff_count] at hstep htail ⊢
    intro entry
    have hone := hstep entry
    have hothers := htail entry
    simp only [List.count_append] at hone hothers ⊢
    omega

end Runs

end Window

end PaneTiling
