import PaneTiling.Proofs.Decimal.InFull
import PaneTiling.Proofs.Window.Recovery
import PaneTiling.Session.Report

/-!
What is reported of a session without bringing it back agrees with what bringing it back does. A
report decides anew which trees come back and which tab is shown alone; yet each of its sections
says what can be read off the workspace that comes back in that place, and the trees that it calls
discarded are those that bringing the session back tells of, with the same reasons.
-/

namespace PaneTiling

section Acceptance

variable {α : Type} {restored other : List TabId}

theorem PaneTree.checkLeaves_congr (h : ∀ tab, tab ∈ restored ↔ tab ∈ other)
    (seen leaves : List TabId) :
    checkLeaves (α := α) restored seen leaves = checkLeaves other seen leaves := by
  induction leaves generalizing seen with
  | nil => rfl
  | cons tab rest ih => simp only [checkLeaves, h tab, ih]

theorem PaneTree.accept_congr [Scalar α] (h : ∀ tab, tab ∈ restored ↔ tab ∈ other)
    (saved : PaneTree α) : saved.accept restored = saved.accept other := by
  rw [accept, accept, checkLeaves_congr h]

end Acceptance

section Lines

variable (tenths full : Float → String)

def RestoreIssue.inWords : RestoreIssue Float → String
  | .missingTab tab => s!"pane references tab {tab.text} which was not restored"
  | .duplicateTab tab => s!"tab {tab.text} appears in more than one pane"
  | .tooFewChildren count => s!"split has {count} children, at least 2 required"
  | .leafCount count => s!"tree has {count} panes, expected 2 to 4"
  | .badRatio ratio => s!"split ratio {full ratio} is not a positive finite number"
  | .ratioSum sum => s!"split ratios sum to {full sum}, expected 1.0"

def Rect.inWords (r : Rect Float) : String :=
  s!"{tenths r.x},{tenths r.y} {tenths r.w}x{tenths r.h}"

def paneInWords (tab : TabId) (rect : Rect Float) : String :=
  s!"  pane {tab.text}  {rect.inWords tenths}"

def Divider.inWords (d : Divider Float) : String :=
  let axis := match d.axis with
    | .row => "Row"
    | .col => "Col"
  let path := "[" ++ ", ".intercalate (d.path.map toString) ++ "]"
  s!"  divider {axis} at {path}[{d.index}]  {d.rect.inWords tenths}"

end Lines

def unlines (lines : List String) : String := String.join (lines.map (· ++ "\n"))

namespace Workspace

variable {α : Type} [Scalar α]

/-- The panes that a workspace shows in an area: those of its tree, or else its active tab alone. -/
def paneRects (ws : Workspace α) (area : Rect α) (gap : α) : List (TabId × Rect α) :=
  match ws.tree with
  | some tree => tree.paneRects gap area
  | none => ws.active.toList.map fun tab => (tab, area)

def dividers (ws : Workspace α) (area : Rect α) (gap : α) : List (Divider α) :=
  ws.tree.elim [] (·.dividers area gap)

def verdict (full : Float → String) (ws : Workspace Float)
    (reason : Option (RestoreIssue Float)) : String :=
  match reason, ws.tree with
  | some issue, _ => s!"{ws.name}: discarded ({issue.inWords full})"
  | none, some tree => s!"{ws.name}: ok ({tree.tabIds.length} panes)"
  | none, none => s!"{ws.name}: single pane"

/-- The lines on a workspace that came back, with the reason if its tree was discarded. -/
def layoutLines (tenths full : Float → String) (ws : Workspace Float)
    (reason : Option (RestoreIssue Float)) (star : Bool) (area : Rect Float) (gap : Float) :
    List String :=
  let title := if star then s!"{ws.name} *" else ws.name
  let discarded := reason.toList.map fun issue => s!"  layout discarded: {issue.inWords full}"
  let panes := match ws.paneRects area gap with
    | [] => ["  (no tabs)"]
    | shown => shown.map fun (tab, rect) => paneInWords tenths tab rect
  title :: discarded ++ panes ++ (ws.dividers area gap).map (·.inWords tenths)

end Workspace

namespace SavedWorkspace

section Returning

variable {α : Type} [Scalar α] {saved : SavedWorkspace α} {ws : Workspace α}

/-- The tree of a workspace that came back, or the reason why it has none, is what becomes of the
saved tree when it is held against the tabs that came back. -/
structure DecidedAs (saved : SavedWorkspace α) (ws : Workspace α)
    (reason : Option (RestoreIssue α)) : Prop where
  tree : ∀ tree, ws.tree = some tree ↔ ∃ written ∈ saved.tree, written.accept ws.ids = .ok tree
  reason : ∀ issue, reason = some issue ↔
    ∃ written ∈ saved.tree, written.accept ws.ids = .error issue

structure ReturnsAs (saved : SavedWorkspace α) (ws : Workspace α) : Prop where
  id : ws.id = saved.id
  name : ws.name = saved.name
  tabs : ∀ tab, tab ∈ ws.ids ↔ tab ∈ saved.tabIds
  tree : ws.tree = saved.restoredTree
  active : ws.active = saved.restoredFocus saved.restoredTree

theorem returnsAs_restored (saved : SavedWorkspace α) (now : Instant) :
    saved.ReturnsAs (saved.restored now) where
  id := rfl
  name := rfl
  tabs _ := hasTab_restored now
  tree := rfl
  active := rfl

theorem returnsAs_touchVisible (saved : SavedWorkspace α) (now : Instant) (clock : Clock) :
    saved.ReturnsAs ((saved.restored now).touchVisible clock) := by
  have hback := saved.returnsAs_restored now
  have hsame := (saved.restored now).sameLayout_touchVisible clock
  obtain ⟨times, -, htouched⟩ := Workspace.touchVisible_eq clock (saved.nodup_ids_restored now)
  exact ⟨hsame.id.trans hback.id, htouched ▸ hback.name, hsame.ids ▸ hback.tabs,
    hsame.tree.trans hback.tree, hsame.active.trans hback.active⟩

theorem issue?_eq_some_iff {issue : RestoreIssue α} :
    saved.issue? = some issue ↔
      ∃ written ∈ saved.tree, written.accept saved.tabIds = .error issue := by
  unfold issue? acceptTree
  cases saved.tree with
  | none => simp
  | some written => cases haccept : written.accept saved.tabIds <;> simp [haccept]

theorem ReturnsAs.decidedAs (h : saved.ReturnsAs ws) : saved.DecidedAs ws saved.issue? where
  tree tree := by
    simp only [PaneTree.accept_congr h.tabs, h.tree, restoredTree_eq_some_iff]
  reason issue := by
    simp only [PaneTree.accept_congr h.tabs, issue?_eq_some_iff]

theorem ReturnsAs.paneRects_eq (h : saved.ReturnsAs ws) (area : Rect α) (gap : α) :
    saved.shownPanes area gap = ws.paneRects area gap := by
  rw [shownPanes, Workspace.paneRects, h.tree, h.active]
  cases saved.restoredTree <;> rfl

end Returning

section Texts

variable {saved : SavedWorkspace Float} {ws : Workspace Float}

theorem toString_eq_self (text : String) : toString text = text := rfl

theorem message_eq_inWords (issue : RestoreIssue Float) :
    issue.message = issue.inWords Decimal.messageText := by
  cases issue with
  | leafCount count => exact String.append_assoc
  | missingTab tab => rfl
  | duplicateTab tab => rfl
  | tooFewChildren count => rfl
  | badRatio ratio => rfl
  | ratioSum sum => rfl

theorem dividerInWords_newline (d : Divider Float) :
    d.inWords Decimal.tenthsText ++ "\n" = Report.dividerLine d := by
  unfold Divider.inWords Report.dividerLine
  cases d.axis with
  | row => rfl
  | col => rfl

theorem unlines_append (lines more : List String) :
    unlines (lines ++ more) = unlines lines ++ unlines more := by
  rw [unlines, List.map_append, String.join_append, unlines, unlines]

theorem unlines_flatten (sections : List (List String)) :
    unlines sections.flatten = String.join (sections.map unlines) := by
  induction sections with
  | nil => rfl
  | cons lines rest ih =>
    rw [List.flatten_cons, unlines_append, ih, List.map_cons, String.join_cons]

theorem unlines_map {β : Type} (line : β → String) (items : List β) :
    unlines (items.map line) = String.join (items.map (line · ++ "\n")) := by
  rw [unlines, List.map_map]
  rfl

theorem unlines_panes (panes : List (TabId × Rect Float)) :
    unlines (match panes with
      | [] => ["  (no tabs)"]
      | shown => shown.map fun (tab, rect) => paneInWords Decimal.tenthsText tab rect) =
      paneLines panes := by
  cases panes with
  | nil => rfl
  | cons pane rest => exact unlines_map _ _

theorem ReturnsAs.verdictLine_eq (h : saved.ReturnsAs ws) :
    saved.verdictLine = ws.verdict Decimal.messageText saved.issue? ++ "\n" := by
  unfold verdictLine Workspace.verdict
  rw [h.name, h.tree, restoredTree, issue?]
  cases saved.acceptTree with
  | none => simp [toString_eq_self, String.append_assoc]
  | some decision =>
    cases decision with
    | error issue => simp [toString_eq_self, String.append_assoc, message_eq_inWords]
    | ok tree => simp [toString_eq_self, String.append_assoc, PaneTree.length_tabIds]

theorem paneLines_of_accepted {written tree : PaneTree Float} {restored : List TabId}
    (h : written.accept restored = .ok tree) (area : Rect Float) (gap : Float) :
    paneLines (tree.paneRects gap area) =
      String.join ((tree.paneRects gap area).map fun (tab, rect) => Report.paneLine tab rect) := by
  have htabs := tree.map_fst_paneRects gap area
  have htwo := (PaneTree.shaped_of_accept h).1.two_le
  have hpanes : (tree.paneRects gap area).isEmpty = false := by
    rw [List.isEmpty_eq_false_iff]
    intro hnone
    rw [hnone] at htabs
    simp [← htabs] at htwo
  rw [paneLines, hpanes]
  rfl

theorem ReturnsAs.layoutLines_eq (h : saved.ReturnsAs ws) (star : Bool) (area : Rect Float)
    (gap : Float) :
    saved.name ++ (if star then " *" else "") ++ "\n" ++ saved.layoutLines area gap =
      unlines (ws.layoutLines Decimal.tenthsText Decimal.messageText saved.issue? star area
        gap) := by
  have hjoin : String.join [] = "" := rfl
  have htitle (lines : List String) :
      unlines ((if star then s!"{saved.name} *" else saved.name) :: lines) =
        saved.name ++ (if star then " *" else "") ++ "\n" ++ unlines lines := by
    cases star <;> simp [unlines, toString_eq_self, String.append_assoc]
  have hdividers (dividers : List (Divider Float)) :
      unlines (dividers.map (·.inWords Decimal.tenthsText)) =
        String.join (dividers.map Report.dividerLine) := by
    rw [unlines_map]
    simp only [dividerInWords_newline]
  rw [Workspace.layoutLines, h.name, List.cons_append, List.cons_append, htitle, unlines_append,
    unlines_append, unlines_panes, hdividers, ← h.paneRects_eq area gap, unlines_map]
  refine congrArg _ ?_
  rw [layoutLines, issue?, shownPanes, Workspace.dividers, h.tree, restoredTree]
  cases haccept : saved.acceptTree with
  | none => simp [hjoin]
  | some decision =>
    cases decision with
    | error issue =>
      simp [hjoin, toString_eq_self, String.append_assoc, message_eq_inWords, String.join_cons]
    | ok tree =>
      obtain ⟨written, -, haccepted⟩ := Option.map_eq_some_iff.1 haccept
      simp [hjoin, paneLines_of_accepted haccepted]

end Texts

end SavedWorkspace

namespace Window

section Returning

variable {α : Type} [Scalar α]

def broughtBack (now : Clock) (session : Session α) (k : Nat) (saved : SavedWorkspace α) :
    Workspace α :=
  if session.frontOrFirst = k then (saved.restored now).touchVisible now.later
  else saved.restored now

theorem returnsAs_broughtBack (now : Clock) (session : Session α) (k : Nat)
    (saved : SavedWorkspace α) : saved.ReturnsAs (broughtBack now session k saved) := by
  unfold broughtBack
  split
  · exact saved.returnsAs_touchVisible now now.later
  · exact saved.returnsAs_restored now

theorem workspaces_restore_eq (w : Window α) (now : Clock) (session : Session α) :
    (w.restore now session).window.workspaces =
      session.workspaces.mapIdx (broughtBack now session) := by
  refine List.ext_getElem? fun k => ?_
  rw [workspaces_restore, List.getElem?_mapIdx]
  unfold broughtBack
  split
  · rw [Option.map_map]
    rfl
  · rfl

theorem map_mapIdx_congr {β γ δ : Type} {place : Nat → β → γ} {read : γ → δ} {f : β → δ}
    (h : ∀ k item, read (place k item) = f item) (items : List β) :
    (items.mapIdx place).map read = items.map f := by
  refine List.ext_getElem? fun k => ?_
  rw [List.getElem?_map, List.getElem?_mapIdx, List.getElem?_map, Option.map_map]
  exact Option.map_congr fun item _ => h k item

theorem filterMap_mapIdx_congr {β γ δ : Type} {place : Nat → β → γ} {read : γ → Option δ}
    {f : β → Option δ} (h : ∀ k item, read (place k item) = f item) (items : List β) :
    (items.mapIdx place).filterMap read = items.filterMap f := by
  have hmap := congrArg (List.filterMap id) (map_mapIdx_congr h items)
  simpa only [List.filterMap_map, Function.id_comp] using hmap

theorem isRestorable_iff {session : Session α} :
    session.isRestorable = true ↔ session.issues = [] := by
  simp only [Session.isRestorable, Session.issues, List.all_eq_true, List.filterMap_eq_nil_iff,
    Option.map_eq_none_iff, Option.isNone_iff_eq_none]

end Returning

/-- The reports on a session say of each workspace what can be read off the one that comes back in
its place: its name, the panes that it shows and the dividers between them, and the reason if its
tree was discarded; the reasons are those that bringing the session back tells, and the session is
called restorable if there are none. -/
theorem reports_agree_with_restore (w : Window Float) (now : Clock) (session : Session Float) :
    (session.isRestorable = true ↔ (w.restore now session).value = []) ∧
      ∃ told : List (Workspace Float × Option (RestoreIssue Float)),
        told.map (·.1) = (w.restore now session).window.workspaces ∧
        told.filterMap (fun (ws, reason) => reason.map (ws.id, ·)) =
          (w.restore now session).value ∧
        List.Forall₂ (fun saved (ws, reason) => saved.DecidedAs ws reason) session.workspaces told ∧
        ∃ tenths full, (∀ x, Decimal.InTenths x (tenths x)) ∧ (∀ x, Decimal.InFull x (full x)) ∧
          session.restoreReport = unlines (told.map fun (ws, reason) => ws.verdict full reason) ∧
          ∀ area gap, session.layoutReport area gap =
            unlines (told.mapIdx fun k (ws, reason) =>
              ws.layoutLines tenths full reason (session.front = some k) area gap).flatten := by
  have hback (k : Nat) (saved : SavedWorkspace Float) := returnsAs_broughtBack now session k saved
  refine ⟨isRestorable_iff, session.workspaces.mapIdx fun k saved =>
    (broughtBack now session k saved, saved.issue?), ?_, ?_, ?_, Decimal.tenthsText,
    Decimal.messageText, Decimal.inTenths_tenthsText, Decimal.inFull_messageText, ?_,
    fun area gap => ?_⟩
  · rw [workspaces_restore_eq]
    refine List.ext_getElem? fun k => ?_
    rw [List.getElem?_map, List.getElem?_mapIdx, List.getElem?_mapIdx, Option.map_map]
    rfl
  · exact filterMap_mapIdx_congr (fun k saved => by simp only [(hback k saved).id]) _
  · rw [List.forall₂_iff_get]
    refine ⟨List.length_mapIdx.symm, fun k hk _ => ?_⟩
    rw [List.get_eq_getElem, List.get_eq_getElem, List.getElem_mapIdx]
    exact (hback k _).decidedAs
  · rw [SavedWorkspace.unlines_map]
    exact congrArg String.join
      (map_mapIdx_congr (fun k saved => (hback k saved).verdictLine_eq.symm) _).symm
  · rw [SavedWorkspace.unlines_flatten, List.mapIdx_mapIdx]
    refine congrArg String.join (List.ext_getElem? fun k => ?_)
    rw [List.getElem?_mapIdx, List.getElem?_map, List.getElem?_mapIdx, Option.map_map]
    refine Option.map_congr fun saved _ => ?_
    have hlines := (hback k saved).layoutLines_eq (session.front = some k) area gap
    simpa using hlines

end Window

end PaneTiling
