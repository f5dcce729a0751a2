import PaneTiling.Proofs.PaneTree.Acceptance
import PaneTiling.Proofs.Window.Front
import PaneTiling.Proofs.Window.Soundness
import PaneTiling.Proofs.Workspace.Recovery

/-!
Bringing back a session. Whatever was written into it, each of its workspaces comes back in its
place and in good order, the trees that cannot come back are reported one by one, and one workspace
comes to the front. Of a window that was in good order when it was saved, nothing has to be mended:
the same workspaces come back.
-/

namespace PaneTiling

variable {α : Type}

/-- The trees of saved workspaces that are discarded, in their order, each with the reason. -/
inductive Discards [Scalar α] :
    List (SavedWorkspace α) → List (WorkspaceId × RestoreIssue α) → Prop
  | nil : Discards [] []
  | unsplit {saved : SavedWorkspace α} {rest : List (SavedWorkspace α)}
    {issues : List (WorkspaceId × RestoreIssue α)} (h : saved.tree = none)
    (hrest : Discards rest issues) : Discards (saved :: rest) issues
  | accepted {saved : SavedWorkspace α} {written tree : PaneTree α}
    {rest : List (SavedWorkspace α)} {issues : List (WorkspaceId × RestoreIssue α)}
    (h : saved.tree = some written) (haccept : written.accept saved.tabIds = .ok tree)
    (hrest : Discards rest issues) : Discards (saved :: rest) issues
  | discarded {saved : SavedWorkspace α} {written : PaneTree α} {issue : RestoreIssue α}
    {rest : List (SavedWorkspace α)} {issues : List (WorkspaceId × RestoreIssue α)}
    (h : saved.tree = some written) (haccept : written.accept saved.tabIds = .error issue)
    (hrest : Discards rest issues) : Discards (saved :: rest) ((saved.id, issue) :: issues)

theorem discards_issues [Scalar α] (session : Session α) :
    Discards session.workspaces session.issues := by
  unfold Session.issues
  induction session.workspaces with
  | nil => exact .nil
  | cons saved rest ih =>
    rw [List.filterMap_cons]
    unfold SavedWorkspace.issue? SavedWorkspace.acceptTree
    cases htree : saved.tree with
    | none => exact .unsplit htree ih
    | some written =>
      cases haccept : written.accept saved.tabIds with
      | ok tree =>
        simp only [Option.map_some, haccept, Option.map_none]
        exact .accepted htree haccept ih
      | error issue =>
        simp only [Option.map_some, haccept]
        exact .discarded htree haccept ih

theorem Discards.eq_nil [Scalar α] {saved : List (SavedWorkspace α)}
    {issues : List (WorkspaceId × RestoreIssue α)} (h : Discards saved issues)
    (haccept : ∀ s ∈ saved, ∀ written ∈ s.tree, ∃ tree, written.accept s.tabIds = .ok tree) :
    issues = [] := by
  induction h with
  | nil => rfl
  | unsplit _ _ ih => exact ih (List.forall_mem_cons.1 haccept).2
  | accepted _ _ _ ih => exact ih (List.forall_mem_cons.1 haccept).2
  | discarded htree herror _ _ =>
    obtain ⟨tree, hok⟩ := (List.forall_mem_cons.1 haccept).1 _ htree
    cases herror.symm.trans hok

/-- Tabs that differ at most in their use, their memory and what they play. -/
structure Tab.SameRecord (after tab : Tab) : Prop where
  id : after.id = tab.id
  title : after.title = tab.title
  url : after.url = tab.url
  pinned : after.pinned = tab.pinned

structure Workspace.SameContent (after ws : Workspace α) : Prop where
  id : after.id = ws.id
  name : after.name = ws.name
  tabs : List.Forall₂ Tab.SameRecord after.tabs ws.tabs
  active : after.active = ws.active
  tree : after.tree = ws.tree

theorem Workspace.tabIds_saved (ws : Workspace α) : ws.saved.tabIds = ws.ids := List.map_map

theorem Workspace.Sound.accept_tree {ws : Workspace Rat} (h : ws.Sound) {tree : PaneTree Rat}
    (htree : ws.tree = some tree) (hshares : tree.Apportioned) :
    tree.accept ws.saved.tabIds = .ok tree := by
  refine PaneTree.accept_of_apportioned (h.shaped tree htree) hshares fun tab htab => ?_
  rw [ws.tabIds_saved]
  exact h.leaf_mem tree htree tab htab

theorem SavedWorkspace.ComesBackAs.sameContent {ws after : Workspace Rat} {inFront : Prop}
    (h : ws.saved.ComesBackAs after inFront) (hnodup : ws.ids.Nodup) (hsound : ws.Sound)
    (hshares : ∀ tree ∈ ws.tree, tree.Apportioned) : after.SameContent ws := by
  have hfirst : ws.saved.firstTabs = ws.tabs.map (·.saved) :=
    firstTabs_eq_self (ws.tabIds_saved.symm ▸ hnodup)
  have hdescribes := h.tabs
  rw [hfirst, List.forall₂_map_left_iff] at hdescribes
  have htabs : List.Forall₂ Tab.SameRecord after.tabs ws.tabs :=
    (hdescribes.imp fun _ _ htab => ⟨htab.id, htab.title, htab.url, htab.pinned⟩).flip
  have hids : after.ids = ws.ids := by
    rw [h.ids, hfirst, List.map_map]
    rfl
  have haccept : ∀ written ∈ ws.tree, written.accept ws.saved.tabIds = .ok written :=
    fun written hwritten => hsound.accept_tree hwritten (hshares written hwritten)
  have hdecided := h.tree
  rw [ws.tree_saved] at hdecided
  have htree : after.tree = ws.tree := by
    refine Option.ext fun tree => (hdecided tree).trans
      ⟨?_, fun hws => ⟨tree, hws, haccept tree hws⟩⟩
    rintro ⟨written, hwritten, hok⟩
    cases (haccept written hwritten).symm.trans hok
    exact hwritten
  exact ⟨h.id, h.name, htabs, h.focus_kept (hsound.mayFocus.congr hids htree), htree⟩

namespace Window

variable [Scalar α]

theorem workspaces_restore (w : Window α) (now : Clock) (session : Session α) (k : Nat) :
    (w.restore now session).window.workspaces[k]? =
      if session.frontOrFirst = k then
        (session.workspaces[k]?.map (·.restored now)).map (·.touchVisible now.later)
      else session.workspaces[k]?.map (·.restored now) := by
  simp only [restore, window_present, List.getElem?_modify, List.getElem?_map, Option.map_eq_map]
  split
  · rfl
  · rw [Option.map_map]
    rfl

theorem comesBackAs_restore (w : Window α) (now : Clock) {session : Session α} {k : Nat}
    {saved : SavedWorkspace α} (h : session.workspaces[k]? = some saved) :
    ∃ ws, (w.restore now session).window.workspaces[k]? = some ws ∧
      saved.ComesBackAs ws (k = session.frontOrFirst) := by
  rw [workspaces_restore, h]
  have hback := saved.comesBackAs_restored now
  by_cases hfront : session.frontOrFirst = k
  · refine ⟨_, if_pos hfront, ?_⟩
    rw [eq_true hfront.symm]
    exact hback.touchVisible (saved.nodup_ids_restored now) now.later
  · refine ⟨_, if_neg hfront, ?_⟩
    rw [eq_false (Ne.symm hfront)]
    exact hback

theorem front_restore (w : Window α) (now : Clock) (session : Session α) :
    (w.restore now session).window.front =
      session.workspaces[session.frontOrFirst]?.map (·.id) := by
  simp only [restore, window_present, List.getElem?_map, Option.map_map]
  rfl

theorem length_restore (w : Window α) (now : Clock) (session : Session α) :
    (w.restore now session).window.workspaces.length = session.workspaces.length := by
  simp [restore]

/-- Whatever a session says, and whatever was before: each workspace comes back in its place, with
the first tabs of each id, the tree if it is accepted, and the saved focus wherever it may be; in
memory is what is seen of the workspace that comes to the front; nothing is dragged; and the trees
that are discarded are told in order. -/
theorem restore_mends (w : Window α) (now : Clock) (session : Session α) :
    ∃ front,
      (session.front = some front ∧ front < session.workspaces.length ∨
        (∀ place ∈ session.front, session.workspaces.length ≤ place) ∧ front = 0) ∧
      (w.restore now session).window.front = session.workspaces[front]?.map (·.id) ∧
      (w.restore now session).window.workspaces.length = session.workspaces.length ∧
      (∀ (k : Nat) (saved : SavedWorkspace α), session.workspaces[k]? = some saved →
        ∃ ws, (w.restore now session).window.workspaces[k]? = some ws ∧
          saved.ComesBackAs ws (k = front)) ∧
      (w.restore now session).window.isDragging = false ∧
      Discards session.workspaces (w.restore now session).value :=
  ⟨session.frontOrFirst, session.frontOrFirst_cases, w.front_restore now session,
    w.length_restore now session, fun _ _ h => w.comesBackAs_restore now h, rfl,
    discards_issues session⟩

/-- A session of which nothing is as it should be but the second workspace. -/
def damagedSession : Session Rat where
  savedAt := ""
  workspaces :=
    [⟨⟨0⟩, "main",
        [⟨⟨"a"⟩, "A", "https://a.test", true⟩, ⟨⟨"a"⟩, "A again", "https://a.test", false⟩],
        some ⟨"b"⟩, some (.split .row [(.leaf ⟨"a"⟩, 1 / 2), (.leaf ⟨"b"⟩, 1 / 2)])⟩,
      ⟨⟨1⟩, "other", [⟨⟨"c"⟩, "C", "https://c.test", false⟩], some ⟨"c"⟩, none⟩]
  front := some 2

theorem restore_mends_damagedSession :
    ∃ first second, ((ofSettings Settings.standard).restore 0 damagedSession).window.workspaces =
        [first, second] ∧
      ((ofSettings Settings.standard).restore 0 damagedSession).window.front = some ⟨0⟩ ∧
      first.ids = [⟨"a"⟩] ∧ first.tree = none ∧ ∀ tab ∈ second.tabs, tab.tier = .suspended := by
  obtain ⟨front, hchosen, hfront, hlength, hback, -, -⟩ :=
    restore_mends (ofSettings Settings.standard) 0 damagedSession
  have hfirst : front = 0 := by
    rcases hchosen with ⟨hsaved, hlt⟩ | ⟨-, hfirst⟩
    · cases hsaved
      exact absurd hlt (by decide)
    · exact hfirst
  subst hfirst
  obtain ⟨first, hfirst, hmended⟩ := hback 0 _ rfl
  obtain ⟨second, hsecond, hsame⟩ := hback 1 _ rfl
  refine ⟨first, second, ?_, hfront, ?_, ?_, fun tab htab => ?_⟩
  · exact List.ext_getElem? fun
      | 0 => hfirst
      | 1 => hsecond
      | k + 2 => List.getElem?_eq_none (hlength ▸ Nat.le_add_left 2 k)
  · exact hmended.ids
  · refine Option.eq_none_iff_forall_ne_some.2 fun tree htree => ?_
    obtain ⟨written, hwritten, haccept⟩ := (hmended.tree tree).1 htree
    cases hwritten
    cases haccept
  · exact hsame.tier Nat.one_ne_zero htab

theorem discards_nil_of_capture {w : Window Rat} (savedAt : String) (hsound : w.Sound)
    (hshares : ∀ ws ∈ w.workspaces, ∀ tree ∈ ws.tree, tree.Apportioned) :
    (w.capture savedAt).issues = [] := by
  refine (discards_issues (w.capture savedAt)).eq_nil fun saved hsaved written hwritten => ?_
  obtain ⟨ws, hws, rfl⟩ := List.mem_map.1 hsaved
  rw [ws.tree_saved] at hwritten
  exact ⟨written, (hsound ws hws).accept_tree hwritten (hshares ws hws written hwritten)⟩

theorem front_restore_capture {w : Window α} (hfronted : w.Fronted) (hfaced : w.Faced)
    (other : Window α) (now : Clock) (savedAt : String) :
    (other.restore now (w.capture savedAt)).window.front = w.front := by
  rw [front_restore]
  cases hfront : w.front with
  | none =>
    have hnone : w.workspaces = [] := List.map_eq_nil_iff.1 (hfaced hfront)
    simp [capture, hnone]
  | some id =>
    obtain ⟨place, hplace⟩ :=
      Option.isSome_iff_exists.1 (isSome_indexOf?_iff.2 (hfronted id hfront))
    obtain ⟨ws, hws, rfl⟩ := getElem?_of_indexOf? hplace
    have hsaved : (w.capture savedAt).front = some place := by
      simpa [capture, hfront, indexOf?] using hplace
    have hlt : place < (w.capture savedAt).workspaces.length := by
      simpa [capture] using (List.getElem?_eq_some_iff.1 hws).1
    have hplaced : (w.capture savedAt).frontOrFirst = place := by
      rw [Session.frontOrFirst, hsaved, Option.filter_some, if_pos (decide_eq_true hlt),
        Option.getD_some]
    rw [hplaced, capture, List.getElem?_map, hws]
    rfl

/-- A window that was in good order when it was saved comes back as it was, wherever it is brought
back to: nothing is discarded, the workspaces are the same, and so is the one in front. -/
theorem restore_capture (w other : Window Rat) (now : Clock) (savedAt : String)
    (htabs : ∀ ws ∈ w.workspaces, ws.ids.Nodup) (hfronted : w.Fronted) (hfaced : w.Faced)
    (hsound : w.Sound) (hshares : ∀ ws ∈ w.workspaces, ∀ tree ∈ ws.tree, tree.Apportioned) :
    (other.restore now (w.capture savedAt)).value = [] ∧
      List.Forall₂ Workspace.SameContent (other.restore now (w.capture savedAt)).window.workspaces
        w.workspaces ∧
      (other.restore now (w.capture savedAt)).window.front = w.front := by
  refine ⟨discards_nil_of_capture savedAt hsound hshares, ?_,
    front_restore_capture hfronted hfaced other now savedAt⟩
  rw [List.forall₂_iff_get]
  refine ⟨by rw [length_restore, capture, List.length_map], fun k hafter hk => ?_⟩
  have hws : w.workspaces[k] ∈ w.workspaces := List.getElem_mem hk
  have hsaved : (w.capture savedAt).workspaces[k]? = some w.workspaces[k].saved := by
    rw [capture, List.getElem?_map, List.getElem?_eq_getElem hk, Option.map_some]
  obtain ⟨after, hplaced, hback⟩ := other.comesBackAs_restore now hsaved
  have hget := (List.getElem?_eq_some_iff.1 hplaced).2
  simp only [List.get_eq_getElem, hget]
  exact hback.sameContent (htabs _ hws) (hsound _ hws) (hshares _ hws)

def unevenPanes : PaneTree Rat := .split .row [(.leaf ⟨"d"⟩, 1 / 3), (.leaf ⟨"b"⟩, 2 / 3)]

theorem shaped_unevenPanes : unevenPanes.Shaped :=
  ⟨by decide, by decide, by decide, by decide, trivial, trivial, trivial⟩

theorem apportioned_unevenPanes : unevenPanes.Apportioned :=
  ⟨⟨by decide +kernel, by norm_num [PaneTree.sharesOf]⟩, trivial, trivial, trivial⟩

def mainBehindSplit : Window Rat :=
  { ofSettings Settings.standard with
    workspaces :=
      [⟨⟨0⟩, "main", [{ Tab.fresh ⟨"a"⟩ "A" "https://a.test" 0 with pinned := true }],
          some ⟨"a"⟩, none⟩,
        ⟨⟨1⟩, "split", [.fresh ⟨"b"⟩ "B" "https://b.test" 0, .fresh ⟨"c"⟩ "C" "https://c.test" 0,
            .fresh ⟨"d"⟩ "D" "https://d.test" 0],
          some ⟨"d"⟩, some unevenPanes⟩]
    front := some ⟨1⟩ }

theorem restore_capture_mainBehindSplit :
    mainBehindSplit.Fronted ∧ mainBehindSplit.Faced ∧ mainBehindSplit.Sound ∧
      ((ofSettings Settings.standard).restore 1 (mainBehindSplit.capture "")).value = [] ∧
      List.Forall₂ Workspace.SameContent
        ((ofSettings Settings.standard).restore 1 (mainBehindSplit.capture "")).window.workspaces
        mainBehindSplit.workspaces ∧
      ((ofSettings Settings.standard).restore 1 (mainBehindSplit.capture "")).window.front =
        some ⟨1⟩ := by
  have htabs : ∀ ws ∈ mainBehindSplit.workspaces, ws.ids.Nodup := by decide
  have hfronted : mainBehindSplit.Fronted := by
    rintro _ ⟨⟩
    decide
  have hfaced : mainBehindSplit.Faced := by simp [Faced, mainBehindSplit]
  have hshares : ∀ ws ∈ mainBehindSplit.workspaces, ∀ tree ∈ ws.tree, tree.Apportioned := by
    simp [mainBehindSplit, apportioned_unevenPanes]
  have hsound : mainBehindSplit.Sound := by
    simp only [Sound, mainBehindSplit, List.forall_mem_cons]
    refine ⟨?_, ?_, by simp⟩
    · exact ⟨⟨by simp, by decide, by rintro _ ⟨⟩; decide⟩, by simp, by simp⟩
    · refine ⟨⟨?_, by decide, by rintro _ ⟨⟩; decide⟩, ?_, ?_⟩
      · rintro _ ⟨⟩
        exact shaped_unevenPanes
      · rintro _ ⟨⟩
        decide
      · rintro _ ⟨⟩ _ ⟨⟩
        decide
  exact ⟨hfronted, hfaced, hsound,
    restore_capture mainBehindSplit (ofSettings Settings.standard) 1 "" htabs hfronted hfaced hsound
      hshares⟩

end Window

end PaneTiling
