import Mathlib.Data.List.Count
import PaneTiling.Proofs.NearestPane
import PaneTiling.Proofs.Window.Change
import PaneTiling.Proofs.Window.DividerDrag

/-!
Moving the focus in one direction. Each move goes to the nearest pane there, and the panes stay
where they are; so the panes that are still ahead become fewer with each move, and after fewer moves
than there are panes there is none.
-/

namespace PaneTiling

namespace Workspace

/-- No tab is shown in two panes, every pane shows a tab of the workspace, and one of them has the
focus. -/
structure Focusable {α : Type} (ws : Workspace α) : Prop where
  nodup : ws.visibleTabs.Nodup
  owned : ∀ tab ∈ ws.visibleTabs, ws.HasTab tab
  focused : ∃ tab ∈ ws.visibleTabs, ws.active = some tab

variable {α : Type} {ws : Workspace α} {now : Instant} {tab : TabId}

instance (ws : Workspace α) : Decidable ws.Focusable :=
  decidable_of_iff (ws.visibleTabs.Nodup ∧ (∀ tab ∈ ws.visibleTabs, ws.HasTab tab) ∧
    ∃ tab ∈ ws.visibleTabs, ws.active = some tab)
    ⟨fun ⟨hnodup, howned, hfocused⟩ => ⟨hnodup, howned, hfocused⟩,
      fun ⟨hnodup, howned, hfocused⟩ => ⟨hnodup, howned, hfocused⟩⟩

theorem active_activate_of_alone (h : ws.tree = none) (htab : tab ∈ ws.visibleTabs) :
    (ws.activate now tab).active = ws.active := by
  rw [visibleTabs, h, Option.mem_toList] at htab
  rw [active_activate, htab, ite_self]

theorem visibleTabs_activate (now : Instant) (htab : tab ∈ ws.visibleTabs) :
    (ws.activate now tab).visibleTabs = ws.visibleTabs := by
  rw [visibleTabs, visibleTabs, tree_activate]
  cases htree : ws.tree with
  | none => simp only [active_activate_of_alone htree htab]
  | some tree => rfl

theorem Focusable.activate (h : ws.Focusable) (now : Instant) (htab : tab ∈ ws.visibleTabs) :
    (ws.activate now tab).Focusable := by
  have hsame := visibleTabs_activate now htab
  refine ⟨hsame ▸ h.nodup, fun other hother => ?_, tab, hsame ▸ htab, ?_⟩
  · exact hasTab_activate.2 (h.owned other (hsame ▸ hother))
  · rw [active_activate, if_pos (h.owned tab htab)]

end Workspace

namespace Window

section Panes

variable {α : Type} [Scalar α] {w after : Window α} {ws : Workspace α} {now : Clock} {tab : TabId}

theorem paneRects_activate (hgap : after.gap = w.gap) (harea : after.area = w.area)
    (hws : w.frontWorkspace? = some ws)
    (hafter : after.frontWorkspace? = some (ws.activate now tab))
    (htab : tab ∈ ws.visibleTabs) : after.paneRects = w.paneRects := by
  unfold paneRects
  simp only [hws, hafter, Workspace.tree_activate, hgap, harea]
  cases htree : ws.tree with
  | none => simp only [Workspace.active_activate_of_alone htree htab]
  | some tree => rfl

theorem focusToward_cases (hws : w.frontWorkspace? = some ws) (now : Clock) (heading : Heading) :
    ((w.focusToward now heading).value = false ∧ (w.focusToward now heading).window = w ∧
        w.focus.bind (nearestTab w.paneRects · heading) = none) ∨
      ∃ left tab, w.focus = some left ∧ nearestTab w.paneRects left heading = some tab ∧
        tab ∈ ws.visibleTabs ∧ (w.focusToward now heading).value = true ∧
        (w.focusToward now heading).window.frontWorkspace? = some (ws.activate now tab) ∧
        (w.focusToward now heading).window.paneRects = w.paneRects := by
  obtain ⟨index, hindex, -⟩ := Option.bind_eq_some_iff.1 (w.frontWorkspace?_eq ▸ hws)
  cases hnearest : w.focus.bind (nearestTab w.paneRects · heading) with
  | none =>
    simp only [focusToward, hindex, hnearest]
    exact .inl ⟨rfl, rfl, trivial⟩
  | some tab =>
    obtain ⟨left, hleft, htab⟩ := Option.bind_eq_some_iff.1 hnearest
    have hshown : tab ∈ ws.visibleTabs := map_fst_paneRects_eq hws ▸ mem_of_nearestTab htab
    have hfront : (w.modifyWorkspace index (·.activate now tab)).frontWorkspace? =
        some (ws.activate now tab) := by
      rw [frontWorkspace?_modify fun ws _ => ws.id_activate now tab, if_pos hindex, hws]
      rfl
    simp only [focusToward, hindex, hnearest]
    exact .inr ⟨left, tab, hleft, htab, hshown, rfl, hfront,
      paneRects_activate rfl rfl hws hfront hshown⟩

end Panes

/-- The focus has gone to another pane, which lies in a direction from where it was; and the panes
are where they were. -/
def FocusAdvances (heading : Heading) (w after : Window Rat) : Prop :=
  after.paneRects = w.paneRects ∧ ∃ left home tab rect, w.focus = some left ∧
    after.focus = some tab ∧ (left, home) ∈ w.paneRects ∧ (tab, rect) ∈ w.paneRects ∧ tab ≠ left ∧
    heading.Leads home.center rect.center

section Moves

variable {w : Window Rat} {ws : Workspace Rat} {heading : Heading}

theorem nodup_paneRects (hws : w.frontWorkspace? = some ws) (hfocusable : ws.Focusable) :
    (w.paneRects.map (·.1)).Nodup := by
  rw [map_fst_paneRects_eq hws]
  exact hfocusable.nodup

theorem focus_eq_active (hws : w.frontWorkspace? = some ws) : w.focus = ws.active := by
  rw [focus, hws, Option.bind_some]

theorem focusToward_advances (hws : w.frontWorkspace? = some ws) (hfocusable : ws.Focusable)
    (now : Clock) (h : (w.focusToward now heading).value = true) :
    FocusAdvances heading w (w.focusToward now heading).window ∧
      ∃ next, (w.focusToward now heading).window.frontWorkspace? = some next ∧ next.Focusable := by
  rcases focusToward_cases hws now heading with
    ⟨hstays, -⟩ | ⟨left, tab, hleft, hnearest, hshown, -, hfront, hpanes⟩
  · cases hstays.symm.trans h
  obtain ⟨home, index, rect, hhome, hfound⟩ :=
    (nearestTab_eq_some_iff (nodup_paneRects hws hfocusable)).1 hnearest
  refine ⟨⟨hpanes, left, home, tab, rect, hleft, ?_, hhome, hfound.mem, hfound.holds⟩,
    _, hfront, hfocusable.activate now hshown⟩
  rw [focus_eq_active hfront, Workspace.active_activate, if_pos (hfocusable.owned tab hshown)]

def ahead (w : Window Rat) (heading : Heading) (point : Rat × Rat) : Nat :=
  w.paneRects.countP fun pane => heading.Leads point pane.2.center

theorem ahead_lt {point : Rat × Rat} {pane : TabId × Rect Rat} (hpane : pane ∈ w.paneRects)
    (hleads : heading.Leads point pane.2.center) :
    w.ahead heading pane.2.center < w.ahead heading point := by
  have hboth (other : TabId × Rect Rat) :
      (decide (heading.Leads pane.2.center other.2.center) &&
        decide (heading.Leads point other.2.center)) =
      decide (heading.Leads pane.2.center other.2.center) := by
    rw [Bool.and_eq_left_iff_imp]
    exact fun h => decide_eq_true (hleads.trans (of_decide_eq_true h))
  have hfilter := List.countP_filter (p := fun other : TabId × Rect Rat =>
    decide (heading.Leads pane.2.center other.2.center))
    (q := fun other => decide (heading.Leads point other.2.center)) (l := w.paneRects)
  simp only [hboth] at hfilter
  rw [ahead, ahead, ← hfilter, List.countP_eq_length_filter (l := w.paneRects),
    List.countP_lt_length_iff]
  exact ⟨pane, List.mem_filter.2 ⟨hpane, decide_eq_true hleads⟩,
    decide_eq_false Heading.not_leads_self⟩

/-- A run of moves in one direction, all of which are made. -/
def KeepsMoving (w : Window Rat) (heading : Heading) (times : List Clock) : Prop :=
  Meets (Yields (·.value = .flag true)) w (times.map (·, .focusToward heading))

theorem length_le_ahead (hws : w.frontWorkspace? = some ws) (hfocusable : ws.Focusable)
    {times : List Clock} (hmoves : w.KeepsMoving heading times) {left : TabId} {home : Rect Rat}
    (hleft : w.focus = some left) (hhome : (left, home) ∈ w.paneRects) :
    times.length ≤ w.ahead heading home.center := by
  induction times generalizing w ws left home with
  | nil => exact Nat.zero_le _
  | cons now rest ih =>
    obtain ⟨hmoved, hrest⟩ := hmoves
    have hvalue : (w.focusToward now heading).value = true := Reply.flag.inj (hmoved _ rfl)
    obtain ⟨⟨hpanes, left', home', tab, rect, hfrom, hto, hhome', hrect, -, hleads⟩,
      next, hnext, hkept⟩ := focusToward_advances hws hfocusable now hvalue
    have hle := ih hnext hkept (hrest _ rfl) hto (hpanes ▸ hrect)
    cases hleft.symm.trans hfrom
    cases List.inj_on_of_nodup_map (nodup_paneRects hws hfocusable) hhome hhome' rfl
    have hlt := ahead_lt hrect hleads
    rw [ahead, hpanes] at hle
    exact Nat.lt_of_le_of_lt hle hlt

/-- The nearest pane in a direction is the first one of those at the least distance, which counts
the way along the direction once and the way across it twice, and there is none only if the pane to
start from is not there or nothing lies in the direction. In a window whose front workspace has the
focus on one of its panes the focus stays or goes on to another pane, and going on in one direction
ends after fewer moves than there are panes. -/
theorem focus_goes_on_or_stays {panes : List (TabId × Rect Rat)}
    (hnodup : (panes.map (·.1)).Nodup) (origin : TabId) (heading : Heading)
    (hws : w.frontWorkspace? = some ws) (hfocusable : ws.Focusable) :
    (nearestTab panes origin heading = none ↔ origin ∉ panes.map (·.1) ∨
      ∃ home, (origin, home) ∈ panes ∧ ∀ pane ∈ panes, ¬heading.Reaches origin home pane) ∧
    (∀ tab, nearestTab panes origin heading = some tab ↔
      ∃ home index rect, (origin, home) ∈ panes ∧ IsNearest (heading.Reaches origin home)
        (fun pane => heading.weight home.center pane.2.center) panes index (tab, rect)) ∧
    (∀ now, (w.focusToward now heading).value = false ∧ (w.focusToward now heading).window = w ∨
      (w.focusToward now heading).value = true ∧
        FocusAdvances heading w (w.focusToward now heading).window) ∧
    ∀ times, w.KeepsMoving heading times → times.length < w.paneRects.length := by
  refine ⟨nearestTab_eq_none_iff hnodup, fun _ => nearestTab_eq_some_iff hnodup, fun now => ?_,
    fun times hmoves => ?_⟩
  · cases hvalue : (w.focusToward now heading).value with
    | true => exact .inr ⟨rfl, (focusToward_advances hws hfocusable now hvalue).1⟩
    | false =>
      rcases focusToward_cases hws now heading with
        ⟨-, hsame, -⟩ | ⟨_, _, -, -, -, hmoved, -⟩
      · exact .inl ⟨rfl, hsame⟩
      · cases hvalue.symm.trans hmoved
  · obtain ⟨left, hshown, hleft⟩ := hfocusable.focused
    rw [← map_fst_paneRects_eq hws] at hshown
    obtain ⟨home, hhome⟩ := exists_home_of_mem hshown
    have hle := length_le_ahead hws hfocusable hmoves ((focus_eq_active hws).trans hleft) hhome
    refine Nat.lt_of_le_of_lt hle (List.countP_lt_length_iff.2 ⟨_, hhome, ?_⟩)
    exact decide_eq_false Heading.not_leads_self

def equallyFar : List (TabId × Rect Rat) :=
  [(⟨"left"⟩, ⟨0, 100, 100, 100⟩), (⟨"above"⟩, ⟨0, 0, 100, 100⟩), (⟨"lower"⟩, ⟨200, 150, 100, 100⟩),
    (⟨"upper"⟩, ⟨200, 50, 100, 100⟩)]

theorem focus_goes_on_or_stays_panesInRow :
    nearestTab equallyFar ⟨"left"⟩ .right = some ⟨"lower"⟩ ∧
      ∃ w, (ofSettings Settings.standard).run panesInRow = .ok w ∧ w.paneRects.length = 3 ∧
        w.KeepsMoving .right [7] ∧ FocusAdvances .right w (w.focusToward 7 .right).window ∧
        ∀ times, w.KeepsMoving .right times → times.length < 3 := by
  have hplayed : ∃ w, (ofSettings Settings.standard).run panesInRow = .ok w ∧
      w.paneRects.length = 3 ∧ (∃ ws ∈ w.frontWorkspace?, ws.Focusable) ∧
      (w.focusToward 7 .right).value = true :=
    exists_run_of_any (by decide +kernel)
  obtain ⟨w, hw, hlength, ⟨ws, hws, hfocusable⟩, hvalue⟩ := hplayed
  have hnodup : (equallyFar.map (·.1)).Nodup := by decide
  obtain ⟨-, hnearest, hmoves, hruns⟩ :=
    focus_goes_on_or_stays hnodup ⟨"left"⟩ .right hws hfocusable
  have hfound : IsNearest (Heading.right.Reaches ⟨"left"⟩ ⟨0, 100, 100, 100⟩)
      (fun pane => Heading.right.weight (Rect.center ⟨0, 100, 100, 100⟩) pane.2.center) equallyFar 2
      (⟨"lower"⟩, ⟨200, 150, 100, 100⟩) :=
    ⟨rfl, by decide +kernel, by decide +kernel, by decide +kernel⟩
  refine ⟨(hnearest _).2 ⟨_, 2, _, List.mem_cons_self, hfound⟩, w, hw, hlength, ?_, ?_, ?_⟩
  · refine ⟨fun o ho => ?_, fun _ _ => trivial⟩
    cases ho
    exact congrArg Reply.flag hvalue
  · rcases hmoves 7 with ⟨hstays, -⟩ | ⟨-, hadvances⟩
    · cases hstays.symm.trans hvalue
    · exact hadvances
  · exact hlength ▸ hruns

end Moves

end Window

end PaneTiling
