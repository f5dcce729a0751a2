import PaneTiling.Proofs.Window.DragLog

/-!
Batching the pointer. During a drag the movements of the pointer are collected until a frame comes:
the first movement after a frame asks for the next one and no other does, and what a frame or the
release deals with is exactly what came since the frame before it. So no movement is lost and none
counts twice.
-/

namespace PaneTiling.Window

variable {α : Type} [Scalar α] {w : Window α}

/-- What following the pointer makes of the workspaces, for a divider that is held in one of them.
If it is to go anywhere, has a span and there is a tree, the tree is resized at its address by the
part of the span that it is to go; otherwise everything stays. -/
inductive Follows (w : Window α) (home : WorkspaceId) (d : Divider α) (pixels : Option α) :
    Except PaneTree.ResizeError (List (Workspace α)) → Prop
  | stays (h : pixels = none ∨ d.span ≤ 0 ∨ w.tree? home = none) :
    Follows w home d pixels (.ok w.workspaces)
  | resizes {distance : α} {index : Nat} {tree : PaneTree α} (hpixels : pixels = some distance)
    (hspan : ¬d.span ≤ 0) (hindex : w.indexOf? home = some index)
    (htree : w.tree? home = some tree) :
    Follows w home d pixels ((tree.resize d.path d.index (distance / d.span)).map
      fun moved => w.workspaces.modify index fun ws => { ws with tree := some moved })

theorem follows_moveDivider (w : Window α) (grab : DividerGrab α) :
    w.Follows grab.workspace grab.divider grab.moved.pending
      ((w.moveDivider grab).map (·.workspaces)) := by
  have htree? := w.tree?_eq grab.workspace
  unfold moveDivider
  cases hindex : w.indexOf? grab.workspace with
  | none =>
    rw [hindex] at htree?
    exact .stays (.inr (.inr htree?))
  | some index =>
    rw [hindex, Option.bind_some] at htree?
    simp only
    cases htree : w.workspaces[index]?.bind (·.tree) with
    | none => exact .stays (.inr (.inr (htree?.trans htree)))
    | some tree =>
      obtain ⟨ws, hws, hshown⟩ := Option.bind_eq_some_iff.1 htree
      have hkept : (w.withTree index tree).workspaces = w.workspaces :=
        congrArg workspaces (withTree_eq_self hws hshown)
      have hstays (pixels : Option α) (h : pixels = none ∨ grab.divider.span ≤ 0) :
          w.Follows grab.workspace grab.divider pixels
            (.ok (w.withTree index tree).workspaces) := by
        rw [hkept]
        exact .stays (h.imp_right .inl)
      simp only [DividerGrab.applyTo, FrameBatch.fst_take]
      cases grab.moved.pending with
      | none => exact hstays none (.inl rfl)
      | some distance =>
        by_cases hspan : grab.divider.span ≤ 0
        · simp only [if_pos hspan]
          exact hstays _ (.inr hspan)
        · have hresized : w.Follows grab.workspace grab.divider (some distance) _ :=
            .resizes rfl hspan hindex (htree?.trans htree)
          simp only [if_neg hspan]
          cases hmoved : tree.resize grab.divider.path grab.divider.index
              (distance / grab.divider.span) with
          | error error => rwa [hmoved] at hresized
          | ok moved => rwa [hmoved] at hresized

/-- The zone that is shown for a tab that is held, from the latest point that the pointer went to
since the last frame, if it moved: the one under that point, unless its anchor is the tab itself. -/
inductive Hovers (w : Window α) (home : WorkspaceId) (tab : TabId) :
    Option (α × α) → Option (DropZone α) → Prop
  | stays : Hovers w home tab none w.dropPreview
  | moves {x y : α} {zone : Option (DropZone α)}
    (h : ∀ z, zone = some z ↔ ∃ ws active, w.workspace? home = some ws ∧
      ws.active = some active ∧ DropZone.at? ws.tree active w.area w.gap x y = some z ∧
      z.anchor ≠ tab) :
    Hovers w home tab (some (x, y)) zone

theorem hovers_zoneUnder {held : TabGrab α} (hheld : w.grab = some (.tab held)) :
    w.Hovers held.workspace held.tab held.position.pending (w.zoneUnder held) := by
  have hpreview : w.dropPreview = held.zone := by rw [dropPreview, hheld]
  unfold zoneUnder
  rw [FrameBatch.fst_take]
  cases held.position.pending with
  | none => exact hpreview ▸ .stays
  | some point =>
    refine .moves fun z => ?_
    simp only [Option.bind_eq_some_iff, Option.filter_eq_some_iff, decide_eq_true_eq]
    constructor
    · rintro ⟨ws, hws, active, hactive, hzone, hne⟩
      exact ⟨ws, active, hws, hactive, hzone, hne⟩
    · rintro ⟨ws, active, hws, hactive, hzone, hne⟩
      exact ⟨ws, hws, active, hactive, hzone, hne⟩

/-- What letting go of a tab over a zone makes of the workspaces: in the one that it was taken from
the tab goes to the zone, if it is there still and the tree takes it. -/
inductive Drops (w : Window α) (now : Clock) (home : WorkspaceId) (tab : TabId) :
    Option (DropZone α) → List (Workspace α) → Prop
  | outside : Drops w now home tab none w.workspaces
  | refused {zone : DropZone α} (h : ∀ ws, w.workspace? home = some ws →
      ws.HasTab tab →
        PaneTree.insert (ws.tree.bind (·.remove tab)) zone.anchor tab zone.side = none) :
    Drops w now home tab (some zone) w.workspaces
  | dropped {zone : DropZone α} {index : Nat} {ws : Workspace α} {tree : PaneTree α}
    (hindex : w.indexOf? home = some index) (hws : w.workspaces[index]? = some ws)
    (htab : ws.HasTab tab)
    (htree : PaneTree.insert (ws.tree.bind (·.remove tab)) zone.anchor tab zone.side =
      some tree) :
    Drops w now home tab (some zone) (w.workspaces.modify index fun ws =>
      { ws.modifyTab tab (Tab.touch now) with tree := some tree, active := some tab })

theorem drops_dropTab (w : Window α) (now : Clock) (grab : TabGrab α) :
    w.Drops now grab.workspace grab.tab grab.zone (w.dropTab now grab).workspaces := by
  unfold dropTab
  cases grab.zone with
  | none => exact .outside
  | some zone =>
    cases hindex : w.indexOf? grab.workspace with
    | none =>
      refine .refused fun ws hws => ?_
      rw [workspace?_eq, hindex] at hws
      cases hws
    | some index =>
      obtain ⟨ws, hws, -⟩ := getElem?_of_indexOf? hindex
      have hfound : w.workspace? grab.workspace = some ws := by
        rw [workspace?_eq, hindex, Option.bind_some, hws]
      have hrefused (h : ws.HasTab grab.tab →
          PaneTree.insert (ws.tree.bind (·.remove grab.tab)) zone.anchor grab.tab zone.side =
            none) : w.Drops now grab.workspace grab.tab (some zone)
              (w.modifyWorkspace index (·.drop now grab.tab zone)).workspaces := by
        have hsame : w.modifyWorkspace index (·.drop now grab.tab zone) = w := by
          refine modifyWorkspace_eq_self fun found hplace => ?_
          cases hws.symm.trans hplace
          exact Workspace.drop_eq_self h
        rw [hsame]
        refine .refused fun found hplace => ?_
        cases hfound.symm.trans hplace
        exact h
      by_cases htab : ws.HasTab grab.tab
      · cases htree : PaneTree.insert (ws.tree.bind (·.remove grab.tab)) zone.anchor grab.tab
            zone.side with
        | none => exact hrefused fun _ => htree
        | some tree =>
          have hdropped : w.modifyWorkspace index (·.drop now grab.tab zone) =
              w.modifyWorkspace index (·.opened now tree grab.tab grab.tab) :=
            modifyWorkspace_congr_at hws (Workspace.drop_of_insert htab htree)
          simp only [hdropped]
          exact .dropped hindex hws htab htree
      · exact hrefused fun h => absurd h htab

theorem moveDivider_of_pending_none {grab : DividerGrab α} (h : grab.moved.pending = none) :
    w.moveDivider grab = .ok w := by
  unfold moveDivider
  split
  · rfl
  · rename_i index hindex
    split
    · rfl
    · rename_i tree htree
      obtain ⟨ws, hws, htree⟩ := Option.bind_eq_some_iff.1 htree
      rw [DividerGrab.applyTo, FrameBatch.fst_take, h]
      exact congrArg Except.ok (withTree_eq_self hws htree)

theorem perform_cancel {held : Grab α} (hgrab : w.grab = some held) (now : Clock) :
    w.perform now .cancel = .ok (({ w with grab := none } : Window α).present ()).done := by
  rw [perform, cancel]
  cases held with
  | divider grab =>
    have hmoved : ({ w with grab := none } : Window α).moveDivider { grab with moved := .empty } =
        .ok { w with grab := none } := moveDivider_of_pending_none rfl
    simp only [release, hgrab, Option.map_some, Grab.forget, hmoved]
    rfl
  | tab grab =>
    have hforget : ({ w with grab := w.grab.map Grab.forget } : Window α).grab =
        some (.tab { grab with position := .empty, zone := none }) := by
      rw [hgrab]
      rfl
    rw [release_of_tab hforget]
    rfl

/-- What a frame and the release do with what the pointer did since the last frame. A divider
follows it once. For a tab the frame finds the zone, and the release drops the tab there. -/
def DealsWith (w : Window α) (log : DragLog α) : Grab α → Prop
  | .divider grab => ∀ now, ∀ action ∈ [Action.frame, .release],
    w.Follows grab.workspace grab.divider (log.pixels grab)
      ((w.perform now action).map (·.window.workspaces))
  | .tab grab => ∀ now,
    (∃ o, w.perform now .frame = .ok o ∧ o.window.workspaces = w.workspaces ∧
      w.Hovers grab.workspace grab.tab log.rest.getLast? o.window.dropPreview) ∧
    ∃ o zone, w.perform now .release = .ok o ∧
      w.Hovers grab.workspace grab.tab log.rest.getLast? zone ∧
      w.Drops now grab.workspace grab.tab zone o.window.workspaces

theorem Follows.of_free {home : WorkspaceId} {d : Divider α} {pixels : Option α}
    {after : Except PaneTree.ResizeError (List (Workspace α))}
    (h : Follows { w with grab := none } home d pixels after) : w.Follows home d pixels after := by
  cases h with
  | stays h => exact .stays h
  | resizes hpixels hspan hindex htree => exact .resizes hpixels hspan hindex htree

theorem Drops.of_free {now : Clock} {home : WorkspaceId} {tab : TabId}
    {zone : Option (DropZone α)} {after : List (Workspace α)}
    (h : Drops { w with grab := none } now home tab zone after) :
    w.Drops now home tab zone after := by
  cases h with
  | outside => exact .outside
  | refused h => exact .refused h
  | dropped hindex hws htab htree => exact .dropped hindex hws htab htree

theorem dealsWith_divider {log : DragLog α} {grab held : DividerGrab α}
    (hheld : w.grab = some (.divider held)) (hworkspace : held.workspace = grab.workspace)
    (hdivider : held.divider = grab.divider) (hpixels : held.moved.pending = log.pixels grab) :
    w.DealsWith log (.divider grab) := by
  intro now action haction
  have hfollows (v : Window α) : v.Follows grab.workspace grab.divider (log.pixels grab)
      ((v.moveDivider held).map (·.workspaces)) := by
    rw [← hworkspace, ← hdivider, ← hpixels]
    exact v.follows_moveDivider held
  simp only [List.mem_cons, List.not_mem_nil, or_false] at haction
  rcases haction with rfl | rfl
  · have hframe : (w.perform now .frame).map (·.window.workspaces) =
        (w.moveDivider held).map (·.workspaces) := by
      simp only [perform, frame, hheld]
      cases w.moveDivider held <;> rfl
    rw [hframe]
    exact hfollows w
  · have hrelease : (w.perform now .release).map (·.window.workspaces) =
        (({ w with grab := none } : Window α).moveDivider held).map (·.workspaces) := by
      simp only [perform, release, hheld]
      cases ({ w with grab := none } : Window α).moveDivider held <;> rfl
    rw [hrelease]
    exact (hfollows { w with grab := none }).of_free

theorem dealsWith_tab {log : DragLog α} {grab held : TabGrab α}
    (hheld : w.grab = some (.tab held)) (hworkspace : held.workspace = grab.workspace)
    (htab : held.tab = grab.tab) (hlatest : held.position.pending = log.rest.getLast?) :
    w.DealsWith log (.tab grab) := by
  intro now
  have hhovers := hovers_zoneUnder hheld
  have hdrops : w.Drops now held.workspace held.tab (w.zoneUnder held)
      (({ w with grab := none } : Window α).dropTab now (w.settle held)).workspaces :=
    (drops_dropTab { w with grab := none } now (w.settle held)).of_free
  rw [hworkspace, htab] at hdrops
  rw [hworkspace, htab, hlatest] at hhovers
  constructor
  · have hframe : w.perform now .frame =
        .ok (({ w with grab := some (.tab (w.settle held)) } : Window α).quiet ()).done := by
      simp only [perform, frame, hheld]
      rfl
    exact ⟨_, hframe, rfl, hhovers⟩
  · have hrelease : w.perform now .release = .ok
        ((({ w with grab := none } : Window α).dropTab now (w.settle held)).present ()).done := by
      rw [perform, release_of_tab hheld]
      rfl
    exact ⟨_, _, hrelease, hhovers, hdrops⟩

/-- How a drag goes on: a frame and the release deal with what the pointer did since the last frame,
and ask for no frame. A pointer that is lost leaves what the last frame left. -/
structure Settles (grab : Grab α) (log : DragLog α) (w : Window α) : Prop where
  deals : w.DealsWith log grab
  frame {now : Clock} {o : Outcome α (Reply α)} (ho : w.perform now .frame = .ok o) :
    o.requests = [] ∧ o.window.front = w.front
  release {now : Clock} {o : Outcome α (Reply α)} (ho : w.perform now .release = .ok o) :
    o.window.grab = none ∧ o.window.front = w.front
  cancel (now : Clock) : ∃ o, w.perform now .cancel = .ok o ∧
    o.window = { log.left with grab := none }

theorem Keeps.settles {grab : Grab α} {log : DragLog α} (h : Keeps grab log w) :
    Settles grab log w := by
  obtain ⟨held, hheld, hcollects⟩ := h.held
  constructor
  case deals =>
    cases hcollects with
    | divider hworkspace hdivider hlast hmoved =>
      exact dealsWith_divider hheld hworkspace hdivider (congrArg FrameBatch.pending hmoved)
    | tab hworkspace htab hposition =>
      exact dealsWith_tab hheld hworkspace htab (congrArg FrameBatch.pending hposition)
  case frame =>
    intro now o ho
    obtain ⟨inner, hinner, rfl⟩ := map_ok ho
    exact ⟨(grab_frame hheld hinner).2, (sameFront_frame hinner).front⟩
  case release =>
    intro now o ho
    obtain ⟨inner, hinner, rfl⟩ := map_ok ho
    exact ⟨grab_release hinner, (sameFront_release hinner).front⟩
  case cancel =>
    intro now
    refine ⟨_, perform_cancel hheld now, ?_⟩
    have hleft := congrArg (fun v : Window α => { v with grab := none }) h.left
    exact hleft

def TakesHold (w : Window α) (action : Action α) : Grab α → Prop
  | .divider grab =>
    ∃ x y, action = .grabDivider x y ∧ w.dividerAt x y = some grab.divider ∧
      w.front = some grab.workspace ∧ grab.last = (x, y) ∧ grab.moved = .empty
  | .tab grab =>
    action = .grabTab grab.tab ∧ w.front = some grab.workspace ∧ grab.position = .empty ∧
      grab.zone = none

theorem takesHold_grabDivider {x y : α} (h : (w.grabDivider x y).value = true) :
    ∃ grab, (w.grabDivider x y).window = { w with grab := some grab } ∧
      w.TakesHold (.grabDivider x y) grab := by
  revert h
  unfold grabDivider
  split
  · nofun
  split
  · rename_i workspace divider hfront hdivider
    exact fun _ => ⟨_, rfl, x, y, rfl, hdivider, hfront, rfl, rfl⟩
  · nofun

theorem takesHold_grabTab {tab : TabId} (h : (w.grabTab tab).value = true) :
    ∃ grab, (w.grabTab tab).window = { w with grab := some grab } ∧
      w.TakesHold (.grabTab tab) grab := by
  revert h
  unfold grabTab
  split
  · nofun
  split
  · rename_i ws hws
    split
    · obtain ⟨home, hfront, hfound⟩ := Option.bind_eq_some_iff.1 hws
      have hhome : ws.id = home := by simpa using List.find?_some hfound
      exact fun _ => ⟨_, rfl, rfl, hhome ▸ hfront, rfl, rfl⟩
    · nofun
  · nofun

theorem TakesHold.collects {action : Action α} {grab : Grab α} (h : w.TakesHold action grab)
    (start : Window α) : grab.Collects (.fresh start) grab := by
  cases grab with
  | divider grab =>
    obtain ⟨x, y, -, -, -, -, hmoved⟩ := h
    exact .divider rfl rfl rfl hmoved
  | tab grab => exact .tab rfl rfl h.2.2.1

/-- A drag deals with every movement once, however movements and frames fall. Between two frames one
frame is asked for if the pointer moved, and none otherwise. A frame or the release changes at most
one tree, and that once, by what came since the last frame: the strides of a divider added up from
left to right, which in exact numbers leave nothing out, or the latest point of a tab. A pointer
that is lost leaves everything as the last frame did. -/
theorem frames_batch_movements {began : Clock} {action : Action α} {o : Outcome α (Reply α)}
    (haction : (∃ x y, action = .grabDivider x y) ∨ ∃ tab, action = .grabTab tab)
    (ho : w.perform began action = .ok o) (hvalue : o.value = .flag true) :
    ∃ grab, o.window = { w with grab := some grab } ∧ w.TakesHold action grab ∧
      (∀ steps v, (∀ step ∈ steps, (∃ x y, step.2 = .pointerMove x y) ∨ step.2 = .frame) →
        o.window.run steps = .ok v → ∃ log, Logged o.window steps log v) ∧
      (∀ steps log v, Logged o.window steps log v → Keeps grab log v ∧ Settles grab log v) ∧
      ∀ (v : Window Rat) (grab : DividerGrab Rat) (log : DragLog Rat),
        Keeps (.divider grab) log v → ∃ held, v.grab = some (.divider held) ∧
          held.divider = grab.divider ∧
          (grab.divider.framedSums grab.last log.framed).sum + held.moved.pending.getD 0 =
            grab.divider.axis.way grab.last held.last := by
  obtain ⟨grab, hwindow, hholds⟩ : ∃ grab, o.window = { w with grab := some grab } ∧
      w.TakesHold action grab := by
    rcases haction with ⟨x, y, rfl⟩ | ⟨tab, rfl⟩
    · cases ho
      exact takesHold_grabDivider (Reply.flag.inj hvalue)
    · cases ho
      exact takesHold_grabTab (Reply.flag.inj hvalue)
  refine ⟨grab, hwindow, hholds, fun steps v hsteps hrun => Logged.begun.run hsteps hrun,
    fun steps log v hlogged => ?_, fun _ _ _ hkeeps => hkeeps.sum_framedSums⟩
  have hkeeps := hlogged.keeps (congrArg Window.grab hwindow) (hholds.collects o.window)
  exact ⟨hkeeps, hkeeps.settles⟩

theorem frames_batch_movements_framedMoves :
    ∃ start o last log, (ofSettings Settings.standard).run panesInRow = .ok start ∧
      start.perform 7 (.grabDivider 400 300) = .ok o ∧ o.value = .flag true ∧
      o.window.run framedMoves = .ok last ∧ Logged o.window framedMoves log last ∧
      last.isDragging = true ∧
      ∃ grab ∈ o.window.heldDivider?, ∃ held ∈ last.heldDivider?,
        (grab.divider.framedSums grab.last log.framed).sum + held.moved.pending.getD 0 = 120 := by
  have hplayed : ∃ start, (ofSettings Settings.standard).run panesInRow = .ok start ∧
      (start.grabDivider 400 300).value = true ∧
      (∀ d ∈ start.dividerAt 400 300, d.axis = .row) ∧
      ∃ last ∈ ((start.grabDivider 400 300).window.run framedMoves).toOption,
        ∀ held ∈ last.heldDivider?, held.last = (520, 310) :=
    exists_run_of_any (by decide +kernel)
  obtain ⟨start, hstart, hheld, haxis, last, hlast, hpoint⟩ := hplayed
  have hvalue : (.flag (start.grabDivider 400 300).value : Reply Rat) = .flag true := by rw [hheld]
  have hbegun : start.perform 7 (.grabDivider 400 300) =
      .ok ((start.grabDivider 400 300).map .flag) := rfl
  obtain ⟨grab, hwindow, hholds, hlogs, hkeeps, htotal⟩ :=
    frames_batch_movements (.inl ⟨400, 300, rfl⟩) hbegun hvalue
  have hrun := ok_of_toOption hlast
  obtain ⟨log, hlog⟩ := hlogs framedMoves last (by simp [framedMoves]) hrun
  cases grab with
  | tab grab => cases hholds.1
  | divider grab =>
    obtain ⟨x, y, haction, hdivider, -, hstartPoint, hmoved⟩ := hholds
    cases haction
    obtain ⟨held, hgrab, -, hsum⟩ := htotal last grab log (hkeeps _ log last hlog).1
    have hmem : last.heldDivider? = some held := heldDivider?_eq_some_iff.2 hgrab
    have hbegan := heldDivider?_eq_some_iff.2 (congrArg Window.grab hwindow)
    refine ⟨start, _, last, log, hstart, hbegun, hvalue, hrun, hlog, ?_, grab, hbegan, held, hmem,
      ?_⟩
    · rw [isDragging, hgrab]
      rfl
    · rw [hsum, hstartPoint, hpoint held hmem, haxis grab.divider hdivider]
      decide +kernel

end PaneTiling.Window
