import PaneTiling.Proofs.PaneTree.Shares
import PaneTiling.Proofs.Window.DragHome

/-!
Whatever is done to a window, its workspaces stay orderly. They stay sound too, except that a tab
may be let go beside a tab that is not seen: then it takes that tab for a pane, whether it is there
or not.
-/

namespace PaneTiling.Window

variable {α : Type}

def Orderly (w : Window α) : Prop := ∀ ws ∈ w.workspaces, ws.Orderly

def Sound (w : Window α) : Prop := ∀ ws ∈ w.workspaces, ws.Sound

variable [Scalar α] {w : Window α} {now : Clock} {action : Action α}

theorem Change.orderly {ws after : Workspace α} (h : Change w now action ws after)
    (hws : ws.Orderly) : after.Orderly := by
  cases h with
  | kept => exact hws
  | touched => exact hws.congr (ws.sameLayout_touchVisible now)
  | added id title url => exact hws.addTab _
  | edited haction => exact hws.congr (ws.sameLayout_modifyTab _ fun _ => rfl)
  | lost hrest => exact hws.detach? hrest
  | adopted tab => exact (ws.sound_adopt now.later tab).toOrderly
  | retiered haction => exact hws.retiered now _ _
  | selected htab => exact hws.selected now _
  | unsplit => exact hws.withoutTree
  | opened hop hplace =>
    obtain ⟨found, hfound, hopens, hfocus, -⟩ := opening?_spec hop
    cases hfound.symm.trans hplace
    refine hws.opened now hopens ?_
    rcases hfocus with ⟨hfocus, hactive⟩ | hfocus
    · exact hfocus ▸ hws.focus_mem _ hactive
    · exact hfocus ▸ hopens.hasTab
  | focused hid => exact hws.activate now _
  | resized htree hmoved =>
    refine hws.withTree ?_
    intro t ht
    cases ht
    exact (hws.shaped _ htree).of_outline_eq hmoved
  | demoted inFront suspendAfter destroyAfter time => exact hws.congr (ws.sameLayout_demote _)

/-- A pane that an action opens goes beside a pane that is seen. -/
def OpensBesideSeen (w : Window α) (action : Action α) : Prop :=
  ∀ op, w.opening? action = some op → ∀ ws, w.workspaces[op.index]? = some ws →
    op.anchor ∈ ws.visibleTabs

theorem Change.sound {ws after : Workspace α} (h : Change w now action ws after) (hws : ws.Sound)
    (hseen : w.OpensBesideSeen action) : after.Sound := by
  cases h with
  | kept => exact hws
  | touched => exact hws.congr (ws.sameLayout_touchVisible now)
  | added id title url => exact hws.addTab _
  | edited haction => exact hws.congr (ws.sameLayout_modifyTab _ fun _ => rfl)
  | lost hrest => exact hws.detach? hrest
  | adopted tab => exact ws.sound_adopt now.later tab
  | retiered haction => exact hws.retiered now _ _
  | selected htab => exact hws.selected now htab
  | unsplit => exact hws.withoutTree
  | @opened op hop hplace =>
    obtain ⟨found, hfound, hopens, hfocus, -⟩ := opening?_spec hop
    cases hfound.symm.trans hplace
    exact hws.opened now hopens (hseen op hop ws hplace) (hfocus.imp_left And.left)
  | focused hid =>
    exact hws.activate now (hws.hasTab_of_visible hid) (Workspace.mem_tree_of_visible hid)
  | resized htree hmoved =>
    refine hws.withTree htree ((hws.shaped _ htree).of_outline_eq hmoved) ?_
    rw [← PaneTree.tabIds_outline, hmoved, PaneTree.tabIds_outline]
  | demoted inFront suspendAfter destroyAfter time => exact hws.congr (ws.sameLayout_demote _)

theorem Arises.orderly {ws : Workspace α} (h : Arises w now action ws) (hw : w.Orderly) :
    ws.Orderly := by
  cases h with
  | changed hws hchange => exact hchange.orderly (hw _ hws)
  | made id name => exact Workspace.orderly_empty id name
  | restored saved => exact (saved.sound_restored now).toOrderly
  | restoredInFront saved =>
    exact (saved.sound_restored now).toOrderly.congr (Workspace.sameLayout_touchVisible _ now.later)

theorem Arises.sound {ws : Workspace α} (h : Arises w now action ws) (hw : w.Sound)
    (hseen : w.OpensBesideSeen action) : ws.Sound := by
  cases h with
  | changed hws hchange => exact hchange.sound (hw _ hws) hseen
  | made id name => exact Workspace.sound_empty id name
  | restored saved => exact saved.sound_restored now
  | restoredInFront saved =>
    exact (saved.sound_restored now).congr (Workspace.sameLayout_touchVisible _ now.later)

theorem orderly_perform {o : Outcome α (Reply α)} (hw : w.Orderly)
    (ho : w.perform now action = .ok o) : o.window.Orderly :=
  fun ws hws => (arises_perform ho ws hws).orderly hw

theorem sound_perform {o : Outcome α (Reply α)} (hw : w.Sound) (hseen : w.OpensBesideSeen action)
    (ho : w.perform now action = .ok o) : o.window.Sound :=
  fun ws hws => (arises_perform ho ws hws).sound hw hseen

theorem orderly_ofSettings (s : Settings α) : (ofSettings s).Orderly := nofun

theorem sound_ofSettings (s : Settings α) : (ofSettings s).Sound := nofun

theorem orderly_run {last : Window α} {actions : List (Clock × Action α)} (hw : w.Orderly)
    (hrun : w.run actions = .ok last) : last.Orderly :=
  invariant_of_run (fun _ _ _ _ hinv ho => orderly_perform hinv ho) hw hrun

def DropsTab (w : Window α) (action : Action α) : Prop :=
  action = .release ∧ ∃ grab, w.grab = some (.tab grab)

theorem opensBesideSeen_of_sound (hw : w.Sound) (hdrop : ¬w.DropsTab action) :
    w.OpensBesideSeen action := by
  intro op hop ws hws
  obtain ⟨found, hfound, -, -, haction⟩ := opening?_spec hop
  cases hfound.symm.trans hws
  rcases haction with rfl | hactive
  · exfalso
    refine hdrop ⟨rfl, ?_⟩
    simp only [opening?] at hop
    split at hop
    · rename_i grab hgrab
      exact ⟨grab, hgrab⟩
    · cases hop
  · have hsound := hw ws (List.mem_of_getElem? hws)
    rw [Workspace.mem_visibleTabs]
    cases htree : ws.tree with
    | none => exact .inr ⟨rfl, hactive⟩
    | some tree => exact .inl ⟨tree, htree, hsound.focus_leaf _ hactive tree htree⟩

section Total

/-- A window whose workspaces are orderly, and where the slot after a held divider has a number. -/
structure Dependable (w : Window α) : Prop where
  orderly : w.Orderly
  numbered : ∀ grab, w.grab = some (.divider grab) → grab.divider.index < PaneTree.lastIndex

theorem dependable_ofSettings (s : Settings α) : (ofSettings s).Dependable :=
  ⟨orderly_ofSettings s, nofun⟩

theorem Orderly.index_lt (hw : w.Orderly) {divider : Divider α} (h : divider ∈ w.dividers) :
    divider.index < PaneTree.lastIndex := by
  unfold dividers at h
  split at h
  · rename_i tree htree
    obtain ⟨ws, hws, hshown⟩ := Option.bind_eq_some_iff.1 htree
    obtain ⟨id, -, hfound⟩ := Option.bind_eq_some_iff.1 hws
    exact ((hw ws (List.mem_of_find?_eq_some hfound)).shaped tree hshown).index_lt h
  · cases h

theorem dependable_perform {o : Outcome α (Reply α)} (hw : w.Dependable)
    (ho : w.perform now action = .ok o) : o.window.Dependable := by
  refine ⟨orderly_perform hw.orderly ho, fun held hheld => ?_⟩
  cases dragStep_perform ho with
  | ends hended => cases hended.symm.trans hheld
  | goesOn hwas hgrab hsame =>
    cases hgrab.symm.trans hheld
    cases hsame with
    | divider _ hdivider => exact hdivider ▸ hw.numbered _ hwas
  | begins _ hgrab _ hdivider =>
    cases hgrab.symm.trans hheld
    exact hw.orderly.index_lt (hdivider held rfl)

theorem dependable_run {last : Window α} {actions : List (Clock × Action α)} (hw : w.Dependable)
    (hrun : w.run actions = .ok last) : last.Dependable :=
  invariant_of_run (fun _ _ _ _ hinv ho => dependable_perform hinv ho) hw hrun

theorem exists_moveDivider (h : BoundsOrdered α) (w : Window α) {grab : DividerGrab α}
    (hgrab : grab.divider.index < PaneTree.lastIndex) :
    ∃ moved, w.moveDivider grab = .ok moved := by
  have happly (tree : PaneTree α) : ∃ moved, grab.applyTo tree = .ok moved := by
    unfold DividerGrab.applyTo
    split
    · exact ⟨_, rfl⟩
    · split
      · exact ⟨_, rfl⟩
      · exact PaneTree.exists_resize h (PaneTree.not_overruns hgrab) _
  unfold moveDivider
  split
  · exact ⟨_, rfl⟩
  · split
    · exact ⟨_, rfl⟩
    · rename_i tree htree
      obtain ⟨moved, hmoved⟩ := happly tree
      rw [hmoved]
      exact ⟨_, rfl⟩

theorem exists_frame (h : BoundsOrdered α) (hw : w.Dependable) : ∃ o, w.frame = .ok o := by
  unfold frame
  split
  · exact ⟨_, rfl⟩
  · rename_i grab hgrab
    obtain ⟨moved, hmoved⟩ := exists_moveDivider h w (hw.numbered grab hgrab)
    rw [hmoved]
    exact ⟨_, rfl⟩
  · exact ⟨_, rfl⟩

theorem exists_release (h : BoundsOrdered α) (hw : w.Dependable) (now : Clock) :
    ∃ o, w.release now = .ok o := by
  unfold release
  split
  · exact ⟨_, rfl⟩
  · rename_i grab hgrab
    obtain ⟨moved, hmoved⟩ := exists_moveDivider h { w with grab := none } (hw.numbered grab hgrab)
    rw [hmoved]
    exact ⟨_, rfl⟩
  · exact ⟨_, rfl⟩

theorem exists_cancel (h : BoundsOrdered α) (hw : w.Dependable) (now : Clock) :
    ∃ o, w.cancel now = .ok o := by
  refine exists_release (w := { w with grab := w.grab.map Grab.forget }) h
    ⟨hw.orderly, fun grab hgrab => ?_⟩ now
  obtain ⟨was, hwas, hforgot⟩ := Option.map_eq_some_iff.1 hgrab
  cases was with
  | divider was =>
    cases hforgot
    exact hw.numbered was hwas
  | tab was => cases hforgot

theorem exists_perform (h : BoundsOrdered α) (hw : w.Dependable) (now : Clock)
    (action : Action α) : ∃ o, w.perform now action = .ok o := by
  cases action with
  | frame =>
    obtain ⟨o, ho⟩ := exists_frame h hw
    exact ⟨o.done, by rw [perform, ho]; rfl⟩
  | release =>
    obtain ⟨o, ho⟩ := exists_release h hw now
    exact ⟨o.done, by rw [perform, ho]; rfl⟩
  | cancel =>
    obtain ⟨o, ho⟩ := exists_cancel h hw now
    exact ⟨o.done, by rw [perform, ho]; rfl⟩
  | _ => exact ⟨_, rfl⟩

theorem exists_run (h : BoundsOrdered α) (hw : w.Dependable)
    (actions : List (Clock × Action α)) : ∃ last, w.run actions = .ok last :=
  exists_run_eq_ok (fun _ now action hinv => exists_perform h hinv now action)
    (fun _ _ _ _ hinv ho => dependable_perform hinv ho) hw actions

end Total

/-- Only letting go of a tab can make a window unsound: every other action keeps soundness, and so
does every run of such actions. Where numbers compare, no run of a dependable window fails. -/
theorem sound_while_no_tab_dropped :
    (∀ (w : Window α) (now : Clock) (action : Action α) (o : Outcome α (Reply α)),
      w.Sound → ¬w.DropsTab action → w.perform now action = .ok o → o.window.Sound) ∧
    (∀ (w last : Window α) (actions : List (Clock × Action α)),
      w.Sound → Meets (fun w _ action => ¬w.DropsTab action) w actions →
      w.run actions = .ok last → last.Sound) ∧
    (BoundsOrdered α → ∀ (w : Window α) (actions : List (Clock × Action α)), w.Dependable →
      ∃ last, w.run actions = .ok last) := by
  have hstep (w : Window α) (now : Clock) (action : Action α) (o : Outcome α (Reply α))
      (hw : w.Sound) (hdrop : ¬w.DropsTab action) (ho : w.perform now action = .ok o) :
      o.window.Sound :=
    sound_perform hw (opensBesideSeen_of_sound hw hdrop) ho
  refine ⟨hstep, fun w last actions hw hmeets hrun => ?_, fun hordered w actions hw => ?_⟩
  · exact invariant_of_meets hstep hw hmeets hrun
  · exact exists_run hordered hw actions

/-- Three panes, one of which is closed while another is dragged, and the pointer is then lost. -/
def splitRun : List (Clock × Action Rat) :=
  [(0, .createWorkspace ⟨0⟩ "main"), (1, .openTab ⟨0⟩ ⟨"a"⟩ "A" "https://a.test"),
    (2, .openTab ⟨0⟩ ⟨"b"⟩ "B" "https://b.test"), (3, .openTab ⟨0⟩ ⟨"c"⟩ "C" "https://c.test"),
    (4, .toggleSplit), (5, .splitWith ⟨"b"⟩ .bottom), (6, .grabTab ⟨"b"⟩), (7, .closeTab ⟨"a"⟩),
    (8, .cancel)]

theorem sound_splitRun :
    ∃ last, (ofSettings Settings.standard).run splitRun = .ok last ∧ last.Sound ∧
      last.workspaces.map (·.tree.map (·.tabIds)) = [some [⟨"b"⟩, ⟨"c"⟩]] := by
  obtain ⟨-, hsound, htotal⟩ := sound_while_no_tab_dropped (α := Rat)
  obtain ⟨last, hlast⟩ := htotal PaneTree.boundsOrdered_rat (ofSettings Settings.standard) splitRun
    (dependable_ofSettings _)
  have hmeets : Meets (fun w _ action => ¬w.DropsTab action) (ofSettings Settings.standard)
      splitRun := by
    refine meets_of_forall_mem (fun step hstep w hdrop => ?_) _
    have hne : ∀ step ∈ splitRun, step.2 ≠ .release := by
      simp [splitRun]
    exact hne step hstep hdrop.1
  have hpanes : ((ofSettings Settings.standard).run splitRun).toOption.map
      (fun w => w.workspaces.map (·.tree.map (·.tabIds))) = some [some [⟨"b"⟩, ⟨"c"⟩]] := by
    decide +kernel
  rw [hlast] at hpanes
  exact ⟨last, hlast, hsound _ last splitRun (sound_ofSettings _) hmeets hlast,
    Option.some.inj hpanes⟩

end PaneTiling.Window
