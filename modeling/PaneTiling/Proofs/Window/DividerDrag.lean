import PaneTiling.Proofs.PaneTree.Borders
import PaneTiling.Proofs.Window.DragHome
import PaneTiling.Proofs.Window.Outlines
import PaneTiling.Proofs.Window.Soundness

/-!
Dragging a divider. A drag knows its divider by the address of the border, and tabs that are opened,
closed or moved during the drag may bring another border to that address. Each frame, and the
release, moves at most the one border that stands at the address then; so a drag leaves a border
alone that is not the one it took hold of exactly as long as that border has no room to move, or
nothing was collected. As long as the outlines of the trees stay, the border is the one it was.
-/

namespace PaneTiling

variable {α : Type}

section Moving

variable [Scalar α]

/-- What was collected moves the border at the divider's address. -/
def DividerGrab.Moves (grab : DividerGrab α) (tree : PaneTree α) : Prop :=
  ∃ pixels ∈ grab.moved.pending, ¬grab.divider.span ≤ 0 ∧
    tree.BorderMoves grab.divider.path grab.divider.index (pixels / grab.divider.span)

theorem DividerGrab.applyTo_spec {grab : DividerGrab α} {tree moved : PaneTree α}
    (h : grab.applyTo tree = .ok moved) :
    moved.SameButBorder tree grab.divider.path grab.divider.index ∧
      (moved = tree ↔ ¬grab.Moves tree) := by
  unfold applyTo at h
  split at h
  · rename_i hpending
    rw [FrameBatch.fst_take] at hpending
    cases h
    exact ⟨.refl _ _ _, iff_of_true rfl (by simp [Moves, hpending])⟩
  · rename_i pixels hpending
    rw [FrameBatch.fst_take] at hpending
    split at h
    · rename_i hspan
      cases h
      exact ⟨.refl _ _ _, iff_of_true rfl (by simp [Moves, hpending, hspan])⟩
    · rename_i hspan
      simpa [Moves, hpending, hspan] using PaneTree.resize_spec h

end Moving

namespace Window

def heldDivider? (w : Window α) : Option (DividerGrab α) :=
  match w.grab with
  | some (.divider grab) => some grab
  | _ => none

def Holds (w : Window α) (workspace : WorkspaceId) (divider : Divider α) : Prop :=
  ∃ grab ∈ w.heldDivider?, grab.workspace = workspace ∧ grab.divider = divider

theorem heldDivider?_eq_some_iff {w : Window α} {grab : DividerGrab α} :
    w.heldDivider? = some grab ↔ w.grab = some (.divider grab) := by
  unfold heldDivider?
  split
  · rename_i other hother
    simp [hother]
  · rename_i hother
    exact iff_of_false nofun fun h => hother grab h

variable [Scalar α] {w : Window α} {now : Clock} {action : Action α} {workspace : WorkspaceId}
  {divider : Divider α}

theorem Holds.perform (h : w.Holds workspace divider) {o : Outcome α (Reply α)}
    (ho : w.perform now action = .ok o) (hdragging : o.window.isDragging = true) :
    o.window.Holds workspace divider := by
  obtain ⟨held, hheld, rfl, rfl⟩ := h
  rw [Option.mem_def, heldDivider?_eq_some_iff] at hheld
  cases dragStep_perform ho with
  | ends hended =>
    rw [isDragging, hended] at hdragging
    cases hdragging
  | goesOn hwas hgrab hsame =>
    cases hheld.symm.trans hwas
    cases hsame with
    | divider hworkspace hdivider =>
      exact ⟨_, heldDivider?_eq_some_iff.2 hgrab, hworkspace, hdivider⟩
  | begins hfree => cases hfree.symm.trans hheld

theorem holds_grabDivider {x y : α} (hfree : w.isDragging = false)
    (hdivider : w.dividerAt x y = some divider) :
    ∃ workspace was, w.front = some workspace ∧ w.tree? workspace = some was ∧
      divider ∈ was.dividers w.area w.gap ∧
      (w.grabDivider x y).window.Holds workspace divider := by
  have hmem : divider ∈ w.dividers := List.mem_of_find?_eq_some hdivider
  unfold dividers at hmem
  split at hmem
  · rename_i was htree
    obtain ⟨ws, hws, hwas⟩ := Option.bind_eq_some_iff.1 htree
    obtain ⟨workspace, hfront, hfound⟩ := Option.bind_eq_some_iff.1 hws
    refine ⟨workspace, was, hfront, by rw [tree?, hfound, Option.bind_some, hwas], hmem, ?_⟩
    simp only [grabDivider, hfree, hfront, hdivider]
    exact ⟨_, rfl, rfl, rfl⟩
  · cases hmem

/-- Where the border at the address of the held divider is not the one that was taken hold of, or
there is none, the tree stays. -/
def SparesStrayed (start w after : Window α) : Prop :=
  ∀ grab ∈ w.heldDivider?, ∀ was ∈ start.tree? grab.workspace,
    (∀ tree ∈ w.tree? grab.workspace,
      was.Strayed tree grab.divider.path grab.divider.index) →
      after.tree? grab.workspace = w.tree? grab.workspace

instance [DecidableEq α] (start w after : Window α) : Decidable (SparesStrayed start w after) :=
  inferInstanceAs (Decidable (∀ grab ∈ w.heldDivider?, ∀ was ∈ start.tree? grab.workspace, _))

/-- What was collected does not move a border that has come to the address of the held divider. -/
def StrayedStays (start w : Window α) : Prop :=
  ∀ grab ∈ w.heldDivider?, ∀ was ∈ start.tree? grab.workspace, ∀ tree ∈ w.tree? grab.workspace,
    was.Strayed tree grab.divider.path grab.divider.index → ¬grab.Moves tree

/-- What moving a divider leaves of a window: the workspaces as they were except for the tree of
one of them, and that tree as it was except for the shares beside the border at the address. -/
structure DividerMoved (moved w : Window α) (grab : DividerGrab α) : Prop where
  kept : ∀ id, moved.workspace? id =
    (w.workspace? id).map fun ws => { ws with tree := moved.tree? id }
  others : ∀ id, id ≠ grab.workspace → moved.tree? id = w.tree? id
  unsplit : w.tree? grab.workspace = none → moved.tree? grab.workspace = none
  grabbed : ∀ tree ∈ w.tree? grab.workspace, ∃ after ∈ moved.tree? grab.workspace,
    after.SameButBorder tree grab.divider.path grab.divider.index ∧
      (after = tree ↔ ¬grab.Moves tree)

theorem dividerMoved_of_unsplit {grab : DividerGrab α} (h : w.tree? grab.workspace = none) :
    w.DividerMoved w grab where
  kept id := by
    unfold tree?
    cases w.workspace? id <;> rfl
  others _ _ := rfl
  unsplit := id
  grabbed tree htree := by
    rw [h] at htree
    cases htree

theorem dividerMoved_of_moveDivider {moved : Window α} {grab : DividerGrab α}
    (h : w.moveDivider grab = .ok moved) : moved.DividerMoved w grab := by
  rcases moveDivider_cases h with
    ⟨rfl, hnone⟩ | ⟨index, ws, tree, after, hindex, hws, htree, hafter, rfl⟩
  · exact dividerMoved_of_unsplit hnone
  have hgrabbed : w.tree? grab.workspace = some tree := by
    rw [tree?, workspace?_eq, hindex, Option.bind_some, hws, Option.bind_some, htree]
  refine ⟨fun id => ?_, fun id hother => ?_, fun hnone => ?_, fun found hfound => ?_⟩
  · rw [workspace?_withTree hindex, tree?_withTree hindex]
    split
    · rfl
    · rw [tree?]
      cases w.workspace? id <;> rfl
  · rw [tree?_withTree hindex, if_neg hother]
  · rw [hgrabbed] at hnone
    cases hnone
  · cases hgrabbed.symm.trans hfound
    have hmoved : (w.withTree index after).tree? grab.workspace = some after := by
      rw [tree?_withTree hindex, if_pos rfl]
    exact ⟨after, hmoved, DividerGrab.applyTo_spec hafter⟩

theorem dividerMoved_perform {o : Outcome α (Reply α)} {grab : DividerGrab α}
    (hgrab : w.heldDivider? = some grab) (haction : action = .frame ∨ action = .release)
    (h : w.perform now action = .ok o) : o.window.DividerMoved w grab := by
  rw [heldDivider?_eq_some_iff] at hgrab
  rcases haction with rfl | rfl
  · obtain ⟨inner, hinner, rfl⟩ := map_ok h
    simp only [frame, hgrab] at hinner
    obtain ⟨moved, hmoved, hinner⟩ := bind_ok hinner
    cases hinner
    have hspec := dividerMoved_of_moveDivider hmoved
    exact ⟨hspec.kept, hspec.others, hspec.unsplit, hspec.grabbed⟩
  · obtain ⟨inner, hinner, rfl⟩ := map_ok h
    simp only [release, hgrab] at hinner
    obtain ⟨moved, hmoved, hinner⟩ := bind_ok hinner
    cases hinner
    have hspec := dividerMoved_of_moveDivider hmoved
    exact ⟨hspec.kept, hspec.others, hspec.unsplit, hspec.grabbed⟩

namespace DividerMoved

variable {start moved : Window α} {grab : DividerGrab α}

theorem tree?_eq_iff (h : moved.DividerMoved w grab) :
    moved.tree? grab.workspace = w.tree? grab.workspace ↔
      ∀ tree ∈ w.tree? grab.workspace, ¬grab.Moves tree := by
  cases htree : w.tree? grab.workspace with
  | none => exact iff_of_true (h.unsplit htree) nofun
  | some tree =>
    obtain ⟨after, hafter, -, hsame⟩ := h.grabbed tree htree
    rw [Option.mem_def.1 hafter]
    simpa using hsame

theorem sparesStrayed_iff (h : moved.DividerMoved w grab) (hgrab : w.heldDivider? = some grab) :
    SparesStrayed start w moved ↔ StrayedStays start w := by
  simp only [SparesStrayed, StrayedStays, hgrab, Option.mem_some_iff, forall_eq', h.tree?_eq_iff]
  refine forall₂_congr fun was _ => ⟨fun hspares tree htree hstrayed => ?_, ?_⟩
  · refine hspares (fun other hother => ?_) tree htree
    cases htree.symm.trans hother
    exact hstrayed
  · exact fun hstays hstrayed tree htree => hstays tree htree (hstrayed tree htree)

theorem tree?_eq_of_isNone (h : moved.DividerMoved w grab)
    (hborder : ∀ tree ∈ w.tree? grab.workspace,
      (tree.shareAt? grab.divider.path (grab.divider.index + 1)).isNone) :
    moved.tree? grab.workspace = w.tree? grab.workspace := by
  refine h.tree?_eq_iff.2 fun tree htree => ?_
  rintro ⟨pixels, -, -, hmoves⟩
  exact PaneTree.not_borderMoves (hborder tree htree) _ hmoves

end DividerMoved

theorem not_strayed_of_sameOutlines {start : Window α} (hstart : start.Orderly)
    (h : w.SameOutlines start) {was : PaneTree α} (hwas : start.tree? workspace = some was)
    (hdivider : divider ∈ was.dividers start.area start.gap) :
    ∃ tree, w.tree? workspace = some tree ∧ ¬was.Strayed tree divider.path divider.index := by
  have houtline := h workspace
  rw [hwas] at houtline
  obtain ⟨tree, htree, hsame⟩ := Option.map_eq_some_iff.1 houtline
  obtain ⟨ws, hws, hshown⟩ := Option.bind_eq_some_iff.1 hwas
  have hshaped := (hstart ws (List.mem_of_find?_eq_some hws)).shaped was hshown
  exact ⟨tree, htree, PaneTree.not_strayed_of_outline_eq (hshaped.branching.mono (by decide)) hsame
    (PaneTree.shareAt?_of_mem_dividers hdivider)⟩

/-- Each frame of a divider drag, and its release, moves at most the border at the address of the
divider that was taken hold of, whatever happened since. It leaves the tree alone if there is no
such border any more; it spares another border that has come there exactly if what was collected
does not move it; and no other border comes there as long as the outlines of the trees stay. -/
theorem drag_spares_strayed_iff (s : Settings α) {before middle : List (Clock × Action α)}
    {start w : Window α} {began : Clock} {x y : α} {divider : Divider α}
    (hstart : (ofSettings s).run before = .ok start) (hfree : start.isDragging = false)
    (hdivider : start.dividerAt x y = some divider)
    (hdrag : start.run ((began, .grabDivider x y) :: middle) = .ok w)
    (hheld : Meets (Yields fun o => o.window.isDragging = true) start
      ((began, .grabDivider x y) :: middle)) :
    ∃ grab was, w.heldDivider? = some grab ∧ grab.divider = divider ∧
      start.front = some grab.workspace ∧ start.tree? grab.workspace = some was ∧
      (∀ now action, action = .frame ∨ action = .release →
        (BoundsOrdered α → ∃ o, w.perform now action = .ok o) ∧
        ∀ o, w.perform now action = .ok o → o.window.DividerMoved w grab ∧
          (SparesStrayed start w o.window ↔ StrayedStays start w) ∧
          ((∀ tree ∈ w.tree? grab.workspace,
            (tree.shareAt? divider.path (divider.index + 1)).isNone) →
              o.window.tree? grab.workspace = w.tree? grab.workspace)) ∧
      ((∀ step ∈ middle, step.2.KeepsOutlines) → ∃ tree, w.tree? grab.workspace = some tree ∧
        ¬was.Strayed tree divider.path divider.index) := by
  obtain ⟨workspace, was, hfront, hwas, hmem, hholds⟩ := holds_grabDivider hfree hdivider
  obtain ⟨o, ho, hrun⟩ := run_cons_eq_ok hdrag
  have hbegun : o.window.Holds workspace divider := by
    cases ho
    exact hholds
  have hstep (w : Window α) (now : Clock) (action : Action α) (o : Outcome α (Reply α))
      (hw : w.Holds workspace divider)
      (hdragging : Yields (fun o => o.window.isDragging = true) w now action)
      (ho : w.perform now action = .ok o) : o.window.Holds workspace divider :=
    hw.perform ho (hdragging o ho)
  have hlast := invariant_of_meets hstep hbegun (hheld.2 o ho) hrun
  obtain ⟨grab, hgrab, rfl, rfl⟩ := hlast
  have hdependable : w.Dependable :=
    dependable_run (dependable_run (dependable_ofSettings s) hstart) hdrag
  refine ⟨grab, was, hgrab, rfl, hfront, hwas, fun now action haction => ?_, fun hkeeps => ?_⟩
  · refine ⟨fun hordered => exists_perform hordered hdependable now action, fun o ho => ?_⟩
    have hmoved := dividerMoved_perform hgrab haction ho
    exact ⟨hmoved, hmoved.sparesStrayed_iff hgrab, hmoved.tree?_eq_of_isNone⟩
  · have hsame : w.SameOutlines start := by
      refine sameOutlines_run (fun step hstep => ?_) hdrag
      rcases List.mem_cons.1 hstep with rfl | hmiddle
      · trivial
      · exact hkeeps step hmiddle
    exact not_strayed_of_sameOutlines (orderly_run (orderly_ofSettings s) hstart) hsame hwas hmem

def panesInRow : List (Clock × Action Rat) :=
  [(0, .createWorkspace ⟨0⟩ "main"), (1, .setArea ⟨0, 0, 800, 600⟩ (0, 0)),
    (2, .openTab ⟨0⟩ ⟨"a"⟩ "A" "https://a.test"), (3, .openTab ⟨0⟩ ⟨"b"⟩ "B" "https://b.test"),
    (4, .openTab ⟨0⟩ ⟨"c"⟩ "C" "https://c.test"), (5, .toggleSplit),
    (6, .splitWith ⟨"b"⟩ .right)]

def closedDuringDrag (x : Rat) : List (Clock × Action Rat) :=
  [(7, .grabDivider x 300), (8, .pointerMove (x + 100) 300), (9, .closeTab ⟨"a"⟩)]

theorem drag_spares_strayed_secondDivider :
    ∃ start w o, (ofSettings Settings.standard).run panesInRow = .ok start ∧
      start.run (closedDuringDrag 400) = .ok w ∧ w.perform 10 .frame = .ok o ∧
      (w.tree? ⟨0⟩).isSome ∧ o.window.tree? ⟨0⟩ = w.tree? ⟨0⟩ := by
  have hplayed : ∃ start, (ofSettings Settings.standard).run panesInRow = .ok start ∧
      start.isDragging = false ∧ start.front = some ⟨0⟩ ∧
      Meets (Yields fun o => o.window.isDragging = true) start (closedDuringDrag 400) ∧
      ∃ divider ∈ start.dividerAt 400 300, ∃ w ∈ (start.run (closedDuringDrag 400)).toOption,
        (w.tree? ⟨0⟩).isSome ∧ ∀ tree ∈ w.tree? ⟨0⟩,
          (tree.shareAt? divider.path (divider.index + 1)).isNone :=
    exists_run_of_any (by decide +kernel)
  obtain ⟨start, hstart, hfree, hfront, hheld, divider, hdivider, w, hw, hsome, hnone⟩ := hplayed
  have hdrag : start.run (closedDuringDrag 400) = .ok w := ok_of_toOption hw
  obtain ⟨grab, was, -, -, hgrabbed, -, hmoves, -⟩ :=
    drag_spares_strayed_iff Settings.standard hstart hfree hdivider hdrag hheld
  obtain ⟨htotal, hspec⟩ := hmoves 10 .frame (.inl rfl)
  obtain ⟨o, ho⟩ := htotal PaneTree.boundsOrdered_rat
  obtain ⟨-, -, hstays⟩ := hspec o ho
  have hplace : grab.workspace = ⟨0⟩ := Option.some.inj (hgrabbed.symm.trans hfront)
  rw [hplace] at hstays
  exact ⟨start, w, o, hstart, hdrag, ho, hsome, hstays hnone⟩

/-- The first divider is now the one between the other two panes, and they are resized. -/
theorem not_drag_spares_strayed :
    ∃ start w o, (ofSettings Settings.standard).run panesInRow = .ok start ∧
      start.isDragging = false ∧ (start.dividerAt 200 300).isSome ∧
      start.run (closedDuringDrag 200) = .ok w ∧
      Meets (Yields fun o => o.window.isDragging = true) start (closedDuringDrag 200) ∧
      w.perform 10 .frame = .ok o ∧ ¬SparesStrayed start w o.window := by
  have hplayed : ∃ start, (ofSettings Settings.standard).run panesInRow = .ok start ∧
      start.isDragging = false ∧ (start.dividerAt 200 300).isSome ∧
      Meets (Yields fun o => o.window.isDragging = true) start (closedDuringDrag 200) ∧
      ∃ w ∈ (start.run (closedDuringDrag 200)).toOption,
        ∃ o ∈ (w.perform 10 .frame).toOption, ¬SparesStrayed start w o.window :=
    exists_run_of_any (by decide +kernel)
  obtain ⟨start, hstart, hfree, hsome, hheld, w, hw, o, ho, hmoved⟩ := hplayed
  exact ⟨start, w, o, hstart, hfree, hsome, ok_of_toOption hw, hheld, ok_of_toOption ho, hmoved⟩

end Window

end PaneTiling
