import PaneTiling.Proofs.PaneTree.Resizing
import PaneTiling.Proofs.PaneTree.Tiling
import PaneTiling.Proofs.Window.DividerDrag

/-!
Dragging a divider in one direction. However the animation frames fall between the movements of the
pointer, what they have moved and what is still collected add up to the way of the pointer; and as
long as the pointer does not turn back, the bounds stop the divider only once. So every schedule of
frames leaves the same tree, which is the tree resized once by the whole way.
-/

namespace PaneTiling

/-- The pointer moves to the points in turn, and frames come at any time. -/
inductive Schedule {α : Type} : List (α × α) → List (Clock × Action α) → Prop
  | nil : Schedule [] []
  | move {points : List (α × α)} {steps : List (Clock × Action α)} (now : Clock) (x y : α)
    (h : Schedule points steps) : Schedule ((x, y) :: points) ((now, .pointerMove x y) :: steps)
  | frame {points : List (α × α)} {steps : List (Clock × Action α)} (now : Clock)
    (h : Schedule points steps) : Schedule points ((now, .frame) :: steps)

def Axis.way (axis : Axis) (p q : Rat × Rat) : Rat :=
  axis.coordinate q.1 q.2 - axis.coordinate p.1 p.2

def Axis.NeverReverses (axis : Axis) (points : List (Rat × Rat)) : Prop :=
  points.IsChain (0 ≤ axis.way · ·) ∨ points.IsChain (axis.way · · ≤ 0)

instance (axis : Axis) (points : List (Rat × Rat)) : Decidable (axis.NeverReverses points) :=
  inferInstanceAs (Decidable (_ ∨ _))

section Way

variable {axis : Axis}

theorem Axis.way_self (p : Rat × Rat) : axis.way p p = 0 := sub_self _

theorem Axis.way_add_way (p q r : Rat × Rat) : axis.way p q + axis.way q r = axis.way p r := by
  unfold way
  ring

theorem Divider.along_eq_way (d : Divider Rat) (p q : Rat × Rat) :
    d.along (q.1 - p.1) (q.2 - p.2) = d.axis.way p q := by
  unfold Divider.along Axis.way Axis.coordinate
  cases d.axis <;> rfl

theorem mul_nonneg_of_same_sign {sign a b : Rat} (hsign : sign ≠ 0) (ha : 0 ≤ sign * a)
    (hb : 0 ≤ sign * b) : 0 ≤ a * b := by
  have hsquare : 0 < sign * sign := mul_self_pos.2 hsign
  have hproduct : 0 ≤ sign * sign * (a * b) := by
    rw [mul_mul_mul_comm]
    exact mul_nonneg ha hb
  exact (mul_nonneg_iff_of_pos_left hsquare).1 hproduct

theorem Axis.way_getLastD {sign : Rat} {start : Rat × Rat} {points : List (Rat × Rat)}
    (h : (start :: points).IsChain fun p q => 0 ≤ sign * axis.way p q) :
    0 ≤ sign * axis.way start (points.getLastD start) := by
  induction points generalizing start with
  | nil => simp [Axis.way_self]
  | cons next rest ih =>
    rw [List.isChain_cons_cons] at h
    have hrest : 0 ≤ sign * axis.way next (rest.getLastD next) := ih h.2
    rw [List.getLastD_cons, ← Axis.way_add_way start next, mul_add]
    exact add_nonneg h.1 hrest

end Way

/-- The pixels that a drag has collected and not dealt with. -/
def DividerGrab.collected (grab : DividerGrab Rat) : Rat := grab.moved.pending.getD 0

theorem DividerGrab.applyTo_eq_resize {grab : DividerGrab Rat} (hspan : 0 < grab.divider.span)
    {tree : PaneTree Rat} (hwithin : ¬tree.Overruns grab.divider.path grab.divider.index) :
    grab.applyTo tree =
      tree.resize grab.divider.path grab.divider.index (grab.collected / grab.divider.span) := by
  unfold applyTo collected
  rw [FrameBatch.fst_take]
  cases grab.moved.pending with
  | none => simp [PaneTree.resize_zero hwithin]
  | some pixels => simp [not_le.2 hspan]

def DividerGrab.follow (grab : DividerGrab Rat) (x y : Rat) : DividerGrab Rat :=
  { grab with
    last := (x, y)
    moved := (grab.moved.push (· + ·) (grab.divider.along (x - grab.last.1) (y - grab.last.2))).2 }

theorem DividerGrab.collected_follow (grab : DividerGrab Rat) (x y : Rat) :
    (grab.follow x y).collected = grab.collected + grab.divider.axis.way grab.last (x, y) := by
  have hway := grab.divider.along_eq_way grab.last (x, y)
  unfold collected follow
  rw [FrameBatch.pending_push, hway]
  cases grab.moved.pending with
  | none => simp
  | some pixels => simp

namespace Window

/-- The window during a drag that has left a workspace with another tree so far. -/
def withDrag (w : Window Rat) (index : Nat) (tree : PaneTree Rat) (grab : DividerGrab Rat) :
    Window Rat :=
  { w.withTree index tree with grab := some (.divider grab) }

variable {w : Window Rat} {index : Nat} {tree after : PaneTree Rat} {grab : DividerGrab Rat}
  {ws : Workspace Rat}

theorem withTree_withTree (w : Window Rat) (index : Nat) (tree after : PaneTree Rat) :
    (w.withTree index tree).withTree index after = w.withTree index after := by
  unfold withTree modifyWorkspace
  simp only [List.modify_modify_eq]
  rfl

theorem moveDivider_withTree (hindex : w.indexOf? grab.workspace = some index)
    (hws : w.workspaces[index]? = some ws) (hafter : grab.applyTo tree = .ok after) :
    (w.withTree index tree).moveDivider grab = .ok (w.withTree index after) := by
  have hkeeps : w.KeepsId index fun ws => { ws with tree := some tree } := fun _ _ => rfl
  have hplace : (w.withTree index tree).indexOf? grab.workspace = some index := by
    rw [withTree, indexOf?_modify hkeeps, hindex]
  have htree : (w.withTree index tree).workspaces[index]?.bind (·.tree) = some tree := by
    rw [withTree, getElem?_modifyWorkspace, if_pos rfl, hws]
    rfl
  simp only [moveDivider, hplace, htree, hafter]
  exact congrArg Except.ok (w.withTree_withTree index tree after)

theorem run_pointerMove (now : Clock) (x y : Rat) (rest : List (Clock × Action Rat)) :
    (w.withDrag index tree grab).run ((now, .pointerMove x y) :: rest) =
      (w.withDrag index tree (grab.follow x y)).run rest := by
  have hmove : (w.withDrag index tree grab).perform now (.pointerMove x y) =
      .ok ⟨w.withDrag index tree (grab.follow x y),
        if !grab.moved.scheduled then [.frame] else [], .done⟩ := rfl
  exact run_cons_of_ok hmove rest

theorem run_frame (hindex : w.indexOf? grab.workspace = some index)
    (hws : w.workspaces[index]? = some ws) (hafter : grab.applyTo tree = .ok after) (now : Clock)
    (rest : List (Clock × Action Rat)) :
    (w.withDrag index tree grab).run ((now, .frame) :: rest) =
      (w.withDrag index after grab.settled).run rest := by
  have hmoved : (w.withDrag index tree grab).moveDivider grab =
      .ok ({ w with grab := some (.divider grab) }.withTree index after) :=
    moveDivider_withTree (w := { w with grab := some (.divider grab) }) hindex hws hafter
  have hframe : (w.withDrag index tree grab).perform now .frame =
      .ok ((w.withDrag index after grab.settled).quiet ()).done := by
    have hgrab : (w.withDrag index tree grab).grab = some (.divider grab) := rfl
    simp only [perform, frame, hgrab, hmoved]
    rfl
  exact run_cons_of_ok hframe rest

theorem run_release (hindex : w.indexOf? grab.workspace = some index)
    (hws : w.workspaces[index]? = some ws) (hafter : grab.applyTo tree = .ok after)
    (now : Clock) : (w.withDrag index tree grab).run [(now, .release)] =
      .ok ({ w with grab := none }.withTree index after) := by
  have hmoved : { w.withDrag index tree grab with grab := none }.moveDivider grab =
      .ok ({ w with grab := none }.withTree index after) :=
    moveDivider_withTree (w := { w with grab := none }) hindex hws hafter
  have hrelease : (w.withDrag index tree grab).perform now .release =
      .ok (({ w with grab := none }.withTree index after).present ()).done := by
    have hgrab : (w.withDrag index tree grab).grab = some (.divider grab) := rfl
    simp only [perform, release, hgrab, hmoved]
    rfl
  exact run_cons_of_ok hrelease []

theorem run_schedule {sign : Rat} (hsign : sign ≠ 0) {points : List (Rat × Rat)}
    {steps : List (Clock × Action Rat)} (hsteps : Schedule points steps) (tree : PaneTree Rat)
    (grab : DividerGrab Rat) (hindex : w.indexOf? grab.workspace = some index)
    (hws : w.workspaces[index]? = some ws) (hspan : 0 < grab.divider.span)
    (hcollected : 0 ≤ sign * grab.collected)
    (hpoints : (grab.last :: points).IsChain fun p q => 0 ≤ sign * grab.divider.axis.way p q)
    (hafter : tree.resize grab.divider.path grab.divider.index
      ((grab.collected + grab.divider.axis.way grab.last (points.getLastD grab.last)) /
        grab.divider.span) = .ok after) (ended : Clock) :
    (w.withDrag index tree grab).run (steps ++ [(ended, .release)]) =
      .ok ({ w with grab := none }.withTree index after) := by
  induction hsteps generalizing tree grab with
  | nil =>
    rw [List.getLastD_nil, Axis.way_self, add_zero] at hafter
    rw [← DividerGrab.applyTo_eq_resize hspan (PaneTree.not_overruns_of_resize hafter)] at hafter
    exact run_release hindex hws hafter ended
  | move now x y hrest ih =>
    rw [List.isChain_cons_cons] at hpoints
    rw [List.cons_append, run_pointerMove]
    refine ih tree (grab.follow x y) hindex hspan ?_ hpoints.2 ?_
    · rw [DividerGrab.collected_follow, mul_add]
      exact add_nonneg hcollected hpoints.1
    · rw [List.getLastD_cons, ← Axis.way_add_way grab.last (x, y), ← add_assoc] at hafter
      rw [DividerGrab.collected_follow]
      exact hafter
  | @frame points steps now hrest ih =>
    have hwithin := PaneTree.not_overruns_of_resize hafter
    obtain ⟨moved, hmoved⟩ := PaneTree.exists_resize PaneTree.boundsOrdered_rat hwithin
      (grab.collected / grab.divider.span)
    have happlied : grab.applyTo tree = .ok moved :=
      (DividerGrab.applyTo_eq_resize hspan hwithin).trans hmoved
    have hempty : grab.settled.collected = 0 := rfl
    -- What this frame deals with and what is still to come lead the same way.
    have hsame : 0 ≤ grab.collected / grab.divider.span *
        (grab.divider.axis.way grab.last (points.getLastD grab.last) / grab.divider.span) := by
      rw [div_mul_div_comm]
      exact div_nonneg (mul_nonneg_of_same_sign hsign hcollected (Axis.way_getLastD hpoints))
        (mul_pos hspan hspan).le
    have honce := PaneTree.resize_resize hmoved hsame
    rw [← add_div, hafter] at honce
    rw [List.cons_append, run_frame hindex hws happlied]
    refine ih moved grab.settled hindex hspan ?_ hpoints ?_
    · rw [hempty, mul_zero]
    · rw [hempty, zero_add]
      exact honce

/-- A drag that never turns back leaves the window as it was but for the tree in front, which is
resized once by the whole way of the pointer, whenever the frames came. -/
theorem steady_drag_eq_resize {x y : Rat} {divider : Divider Rat} (hfree : w.isDragging = false)
    (hdivider : w.dividerAt x y = some divider) (hspan : 0 < divider.span)
    {points : List (Rat × Rat)} (hpoints : divider.axis.NeverReverses ((x, y) :: points)) :
    ∃ home index tree moved, w.front = some home ∧ w.indexOf? home = some index ∧
      w.tree? home = some tree ∧ divider ∈ tree.dividers w.area w.gap ∧
      tree.resize divider.path divider.index
        (divider.axis.way (x, y) (points.getLastD (x, y)) / divider.span) = .ok moved ∧
      ∀ steps, Schedule points steps → ∀ began ended,
        w.run ((began, .grabDivider x y) :: steps ++ [(ended, .release)]) =
          .ok (w.withTree index moved) := by
  obtain ⟨home, tree, hfront, htree, hmem, -⟩ := holds_grabDivider hfree hdivider
  obtain ⟨ws, hfound, hshown⟩ := Option.bind_eq_some_iff.1 htree
  rw [workspace?_eq, Option.bind_eq_some_iff] at hfound
  obtain ⟨index, hindex, hws⟩ := hfound
  have hgrab : w.grab = none := by simpa [isDragging] using hfree
  have hborder := PaneTree.shareAt?_of_mem_dividers hmem
  obtain ⟨moved, hmoved⟩ := PaneTree.exists_resize PaneTree.boundsOrdered_rat
    (PaneTree.not_overruns_of_isSome hborder)
    (divider.axis.way (x, y) (points.getLastD (x, y)) / divider.span)
  refine ⟨home, index, tree, moved, hfront, hindex, htree, hmem, hmoved, ?_⟩
  intro steps hsteps began ended
  have hbegun : w.perform began (.grabDivider x y) =
      .ok ((({ w with grab := some (.divider ⟨home, divider, (x, y), .empty⟩) } :
        Window Rat).conceal true).map .flag) := by
    simp only [perform, grabDivider, hfree, hfront, hdivider]
    rfl
  have hdrag : ({ w with grab := some (.divider ⟨home, divider, (x, y), .empty⟩) } : Window Rat) =
      w.withDrag index tree ⟨home, divider, (x, y), .empty⟩ := by
    rw [withDrag, withTree_eq_self hws hshown]
  have hsign : ∃ sign : Rat, sign ≠ 0 ∧
      ((x, y) :: points).IsChain fun p q => 0 ≤ sign * divider.axis.way p q := by
    rcases hpoints with hpoints | hpoints
    · exact ⟨1, one_ne_zero, hpoints.imp fun p q h => by rwa [one_mul]⟩
    · exact ⟨-1, by norm_num, hpoints.imp fun p q h => by linarith⟩
  obtain ⟨sign, hsign, hsteady⟩ := hsign
  have hcollected : (⟨home, divider, (x, y), .empty⟩ : DividerGrab Rat).collected = 0 := rfl
  have hrun := run_schedule hsign hsteps tree ⟨home, divider, (x, y), .empty⟩ hindex hws hspan
    (by rw [hcollected, mul_zero]) hsteady (by rw [hcollected, zero_add]; exact hmoved) ended
  rw [List.cons_append, run_cons_of_ok hbegun, Outcome.map, window_conceal, hdrag, hrun]
  have hsame : ({ w with grab := none } : Window Rat) = w := by rw [← hgrab]
  rw [hsame]

def rightward : List (Rat × Rat) := [(430, 300), (430, 250), (520, 310)]

def framedMoves : List (Clock × Action Rat) :=
  [(8, .pointerMove 430 300), (9, .frame), (10, .pointerMove 430 250), (11, .frame),
    (12, .pointerMove 520 310)]

def unframedMoves : List (Clock × Action Rat) :=
  [(8, .pointerMove 430 300), (9, .pointerMove 430 250), (10, .pointerMove 520 310)]

def pulledRow : PaneTree Rat :=
  .split .row [(.leaf ⟨"a"⟩, 1 / 4), (.leaf ⟨"b"⟩, 53 / 132), (.leaf ⟨"c"⟩, 23 / 66)]

theorem steady_drag_eq_resize_pulledRow :
    ∃ start last, (ofSettings Settings.standard).run panesInRow = .ok start ∧
      start.run ((7, .grabDivider 400 300) :: framedMoves ++ [(13, .release)]) = .ok last ∧
      start.run ((7, .grabDivider 400 300) :: unframedMoves ++ [(11, .release)]) = .ok last ∧
      last.tree? ⟨0⟩ = some pulledRow := by
  have hplayed : ∃ start, (ofSettings Settings.standard).run panesInRow = .ok start ∧
      start.isDragging = false ∧ start.front = some ⟨0⟩ ∧
      ∃ divider ∈ start.dividerAt 400 300, 0 < divider.span ∧
        divider.axis.NeverReverses ((400, 300) :: rightward) ∧
        ∀ tree ∈ start.tree? ⟨0⟩, (tree.resize divider.path divider.index
          (divider.axis.way (400, 300) (520, 310) / divider.span)).toOption = some pulledRow :=
    exists_run_of_any (by decide +kernel)
  obtain ⟨start, hstart, hfree, hfront, divider, hdivider, hspan, hpoints, hresized⟩ := hplayed
  obtain ⟨home, index, tree, moved, hhome, hindex, htree, -, hmoved, hrun⟩ :=
    steady_drag_eq_resize hfree hdivider hspan hpoints
  cases hfront.symm.trans hhome
  have hpulled : moved = pulledRow :=
    Except.ok.inj (hmoved.symm.trans (ok_of_toOption (hresized tree htree)))
  have hframed : Schedule rightward framedMoves :=
    .move _ _ _ (.frame _ (.move _ _ _ (.frame _ (.move _ _ _ .nil))))
  have hunframed : Schedule rightward unframedMoves := .move _ _ _ (.move _ _ _ (.move _ _ _ .nil))
  refine ⟨start, _, hstart, hrun _ hframed 7 13, hrun _ hunframed 7 11, ?_⟩
  rw [tree?_withTree hindex, if_pos rfl, hpulled]

end Window

end PaneTiling
