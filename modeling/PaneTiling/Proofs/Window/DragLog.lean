import Mathlib.Algebra.Order.Ring.Rat
import PaneTiling.Proofs.Window.SteadyDrag

/-!
The log of a drag: the points that the pointer went to, frame by frame. What is held at any moment
is told from these points alone, and so is whether a frame was asked for. In exact numbers the
strides of a divider leave nothing out, however movements and frames fall.
-/

namespace PaneTiling

variable {α : Type}

theorem getLastD_append {β : Type} (items more : List β) (first : β) :
    (items ++ more).getLastD first = more.getLastD (items.getLastD first) := by
  induction items generalizing first with
  | nil => rfl
  | cons item rest ih => rw [List.cons_append, List.getLastD_cons, List.getLastD_cons, ih]

section Strides

variable [Scalar α]

def leftSum : List α → Option α
  | [] => none
  | first :: rest => some (rest.foldl (· + ·) first)

theorem leftSum_append_singleton (values : List α) (value : α) :
    leftSum (values ++ [value]) = some ((leftSum values).elim value (· + value)) := by
  cases values with
  | nil => rfl
  | cons first rest =>
    rw [List.cons_append, leftSum, leftSum, List.foldl_append]
    rfl

def Divider.strides (d : Divider α) (start : α × α) : List (α × α) → List α
  | [] => []
  | point :: rest => d.along (point.1 - start.1) (point.2 - start.2) :: d.strides point rest

theorem Divider.strides_append_singleton (d : Divider α) (start point : α × α)
    (points : List (α × α)) : d.strides start (points ++ [point]) =
      d.strides start points ++ [d.along (point.1 - (points.getLastD start).1)
        (point.2 - (points.getLastD start).2)] := by
  induction points generalizing start with
  | nil => rfl
  | cons next rest ih => rw [List.cons_append, strides, strides, ih, List.getLastD_cons]; rfl

/-- What each frame has a divider follow, if the pointer went on from a point. -/
def Divider.framedSums (d : Divider α) : α × α → List (List (α × α)) → List α
  | _, [] => []
  | start, points :: later =>
    (leftSum (d.strides start points)).toList ++ d.framedSums (points.getLastD start) later

end Strides

section Exact

variable {d : Divider Rat}

theorem foldl_add_eq (values : List Rat) (first : Rat) :
    values.foldl (· + ·) first = first + values.sum := by
  induction values generalizing first with
  | nil => rw [List.foldl_nil, List.sum_nil, add_zero]
  | cons value rest ih => rw [List.foldl_cons, ih, List.sum_cons, add_assoc]

theorem leftSum_eq_sum (values : List Rat) : (leftSum values).getD 0 = values.sum := by
  cases values with
  | nil => rfl
  | cons first rest => exact foldl_add_eq rest first

theorem sum_toList_leftSum (values : List Rat) : (leftSum values).toList.sum = values.sum := by
  have hsum := leftSum_eq_sum values
  cases hvalues : leftSum values with
  | none => rwa [hvalues] at hsum
  | some sum =>
    rw [hvalues] at hsum
    exact List.sum_singleton.trans hsum

theorem Divider.sum_strides (start : Rat × Rat) (points : List (Rat × Rat)) :
    (d.strides start points).sum = d.axis.way start (points.getLastD start) := by
  induction points generalizing start with
  | nil => exact (Axis.way_self start).symm
  | cons point rest ih =>
    rw [strides, List.sum_cons, ih, d.along_eq_way, List.getLastD_cons, Axis.way_add_way]

theorem Divider.sum_framedSums (start : Rat × Rat) (framed : List (List (Rat × Rat))) :
    (d.framedSums start framed).sum = d.axis.way start (framed.flatten.getLastD start) := by
  induction framed generalizing start with
  | nil => exact (Axis.way_self start).symm
  | cons points later ih =>
    rw [framedSums, List.sum_append, sum_toList_leftSum, sum_strides, ih, Axis.way_add_way,
      List.flatten_cons, getLastD_append]

end Exact

/-- What has come of a drag so far. -/
structure DragLog (α : Type) where
  /-- The points that the pointer went to before each frame, since the one before it. -/
  framed : List (List (α × α))
  /-- The points since the last frame. -/
  rest : List (α × α)
  /-- What was asked of the host by the last frame and since. -/
  asked : List (HostRequest α)
  /-- The window as the last frame left it, or as the drag began. -/
  left : Window α

namespace DragLog

def fresh (start : Window α) : DragLog α := ⟨[], [], [], start⟩

def framedPoint (log : DragLog α) (start : α × α) : α × α := log.framed.flatten.getLastD start

def point (log : DragLog α) (start : α × α) : α × α := log.rest.getLastD (log.framedPoint start)

/-- How far a divider that was taken hold of is to follow the pointer since the last frame. -/
def pixels [Scalar α] (log : DragLog α) (grab : DividerGrab α) : Option α :=
  leftSum (grab.divider.strides (log.framedPoint grab.last) log.rest)

end DragLog

namespace Grab

variable [Scalar α]

/-- What is held after a log, if nothing was collected of what was taken hold of at first: a divider
with the sum of its strides since the last frame, or a tab with the latest point. -/
inductive Collects (log : DragLog α) : Grab α → Grab α → Prop
  | divider {grab held : DividerGrab α} (hworkspace : held.workspace = grab.workspace)
    (hdivider : held.divider = grab.divider) (hlast : held.last = log.point grab.last)
    (hmoved : held.moved = ⟨log.pixels grab, !log.rest.isEmpty⟩) :
    Collects log (.divider held) (.divider grab)
  | tab {grab held : TabGrab α} (hworkspace : held.workspace = grab.workspace)
    (htab : held.tab = grab.tab)
    (hposition : held.position = ⟨log.rest.getLast?, !log.rest.isEmpty⟩) :
    Collects log (.tab held) (.tab grab)

variable {log : DragLog α} {grab held : Grab α}

def settled (held : Grab α) (w : Window α) : Grab α :=
  match held with
  | divider grab => divider grab.settled
  | tab grab => tab (w.settle grab)

theorem Collects.follow_fst (h : held.Collects log grab) (x y : α) :
    (held.follow x y).1 = log.rest.isEmpty := by
  cases h with
  | divider hworkspace hdivider hlast hmoved => simp [Grab.follow, FrameBatch.push, hmoved]
  | tab hworkspace htab hposition => simp [Grab.follow, FrameBatch.push, hposition]

theorem Collects.follow (h : held.Collects log grab) {x y : α} {next : DragLog α}
    (hframed : next.framed = log.framed) (hrest : next.rest = log.rest ++ [(x, y)]) :
    (held.follow x y).2.Collects next grab := by
  have hpoint (start : α × α) : next.point start = (x, y) := by
    rw [DragLog.point, hrest, getLastD_append]
    rfl
  have hsome : (!next.rest.isEmpty) = true := by simp [hrest]
  cases h with
  | @divider grab held hworkspace hdivider hlast hmoved =>
    refine .divider hworkspace hdivider (hpoint _).symm ?_
    rw [hsome, DragLog.pixels, DragLog.framedPoint, hframed, hrest,
      Divider.strides_append_singleton, leftSum_append_singleton, ← DragLog.framedPoint,
      ← DragLog.point, ← hlast]
    simp only [hmoved, hdivider, DragLog.pixels]
  | @tab grab held hworkspace htab hposition =>
    refine .tab hworkspace htab ?_
    have hlatest : held.position.pending.elim (x, y) (fun _ => (x, y)) = (x, y) := by
      cases held.position.pending <;> rfl
    rw [hsome, hrest, List.getLast?_concat]
    exact congrArg (fun latest => (⟨some latest, true⟩ : FrameBatch (α × α))) hlatest

theorem Collects.settled (h : held.Collects log grab) {next : DragLog α}
    (hframed : next.framed = log.framed ++ [log.rest]) (hrest : next.rest = []) (w : Window α) :
    (held.settled w).Collects next grab := by
  have hpoint (start : α × α) : next.point start = log.point start := by
    rw [DragLog.point, DragLog.framedPoint, hrest, hframed, List.flatten_append,
      getLastD_append, List.flatten_singleton]
    rfl
  cases h with
  | divider hworkspace hdivider hlast hmoved =>
    refine .divider ?_ ?_ ?_ ?_
    · exact hworkspace
    · exact hdivider
    · exact hlast.trans (hpoint _).symm
    · rw [DragLog.pixels, hrest]
      rfl
  | tab hworkspace htab hposition =>
    refine .tab ?_ ?_ ?_
    · exact hworkspace
    · exact htab
    · rw [hrest]
      rfl

end Grab

namespace Window

variable [Scalar α] {w : Window α}

/-- A drag that began with a window and has taken steps, and what has come of it: the pointer moves,
and frames come. -/
inductive Logged (start : Window α) : List (Clock × Action α) → DragLog α → Window α → Prop
  | begun : Logged start [] (.fresh start) start
  | move {steps : List (Clock × Action α)} {log : DragLog α} {w : Window α} {now : Clock} {x y : α}
    {o : Outcome α (Reply α)} (h : Logged start steps log w)
    (ho : w.perform now (.pointerMove x y) = .ok o) :
    Logged start (steps ++ [(now, .pointerMove x y)])
      { log with rest := log.rest ++ [(x, y)], asked := log.asked ++ o.requests } o.window
  | frame {steps : List (Clock × Action α)} {log : DragLog α} {w : Window α} {now : Clock}
    {o : Outcome α (Reply α)} (h : Logged start steps log w)
    (ho : w.perform now .frame = .ok o) :
    Logged start (steps ++ [(now, .frame)])
      ⟨log.framed ++ [log.rest], [], o.requests, o.window⟩ o.window

structure Keeps (grab : Grab α) (log : DragLog α) (w : Window α) : Prop where
  asked : log.asked = if log.rest = [] then [] else [.frame]
  held : ∃ held, w.grab = some held ∧ held.Collects log grab
  left : w = { log.left with grab := w.grab }

theorem perform_pointerMove {held : Grab α} (hgrab : w.grab = some held) (now : Clock) (x y : α) :
    w.perform now (.pointerMove x y) = .ok ⟨{ w with grab := some (held.follow x y).2 },
      if (held.follow x y).1 then [.frame] else [], .done⟩ := by
  rw [perform, pointerMove, hgrab]
  rfl

theorem grab_frame {held : Grab α} (hgrab : w.grab = some held) {o : Outcome α Unit}
    (h : w.frame = .ok o) : o.window.grab = some (held.settled w) ∧ o.requests = [] := by
  cases held with
  | divider grab =>
    simp only [frame, hgrab] at h
    obtain ⟨moved, hmoved, h⟩ := bind_ok h
    cases h
    exact ⟨rfl, rfl⟩
  | tab grab =>
    simp only [frame, hgrab] at h
    cases h
    exact ⟨rfl, rfl⟩

theorem Keeps.move {grab : Grab α} {log : DragLog α} (h : Keeps grab log w) {now : Clock} {x y : α}
    {o : Outcome α (Reply α)} (ho : w.perform now (.pointerMove x y) = .ok o) :
    Keeps grab { log with rest := log.rest ++ [(x, y)], asked := log.asked ++ o.requests }
      o.window := by
  obtain ⟨held, hheld, hcollects⟩ := h.held
  have hleft := h.left
  rw [perform_pointerMove hheld, hcollects.follow_fst] at ho
  cases ho
  refine ⟨?_, ⟨_, rfl, hcollects.follow rfl rfl⟩, ?_⟩
  · rw [h.asked]
    cases log.rest <;> rfl
  · rw [hleft]

theorem Keeps.frame {grab : Grab α} {log : DragLog α} (h : Keeps grab log w) {now : Clock}
    {o : Outcome α (Reply α)} (ho : w.perform now .frame = .ok o) :
    Keeps grab ⟨log.framed ++ [log.rest], [], o.requests, o.window⟩ o.window := by
  obtain ⟨held, hheld, hcollects⟩ := h.held
  obtain ⟨inner, hinner, rfl⟩ := map_ok ho
  obtain ⟨hgrab, hrequests⟩ := grab_frame hheld hinner
  exact ⟨hrequests, ⟨_, hgrab, hcollects.settled rfl rfl w⟩, rfl⟩

theorem Logged.keeps {start : Window α} {steps : List (Clock × Action α)} {log : DragLog α}
    {grab : Grab α} (h : Logged start steps log w) (hgrab : start.grab = some grab)
    (hfresh : grab.Collects (.fresh start) grab) : Keeps grab log w := by
  induction h with
  | begun => exact ⟨rfl, ⟨grab, hgrab, hfresh⟩, rfl⟩
  | move _ ho ih => exact ih.move ho
  | frame _ ho ih => exact ih.frame ho

theorem Logged.run {start last : Window α} {taken steps : List (Clock × Action α)}
    {log : DragLog α} (h : Logged start taken log w)
    (hsteps : ∀ step ∈ steps, (∃ x y, step.2 = .pointerMove x y) ∨ step.2 = .frame)
    (hrun : w.run steps = .ok last) : ∃ log, Logged start (taken ++ steps) log last := by
  induction steps generalizing w taken log with
  | nil =>
    cases hrun
    exact ⟨log, taken.append_nil.symm ▸ h⟩
  | cons step rest ih =>
    obtain ⟨now, action⟩ := step
    rw [List.forall_mem_cons] at hsteps
    obtain ⟨o, ho, hrest⟩ := run_cons_eq_ok hrun
    rw [List.append_cons]
    rcases hsteps.1 with ⟨x, y, haction⟩ | haction
    · cases haction
      exact ih (h.move ho) hsteps.2 hrest
    · cases haction
      exact ih (h.frame ho) hsteps.2 hrest

theorem Keeps.sum_framedSums {v : Window Rat} {log : DragLog Rat} {grab : DividerGrab Rat}
    (h : Keeps (.divider grab) log v) :
    ∃ held, v.grab = some (.divider held) ∧ held.divider = grab.divider ∧
      (grab.divider.framedSums grab.last log.framed).sum + held.moved.pending.getD 0 =
        grab.divider.axis.way grab.last held.last := by
  obtain ⟨_, hgrab, hcollects⟩ := h.held
  cases hcollects with
  | @divider _ held hworkspace hdivider hlast hmoved =>
    refine ⟨held, hgrab, hdivider, ?_⟩
    rw [hlast, hmoved, DragLog.pixels, leftSum_eq_sum, Divider.sum_strides,
      Divider.sum_framedSums, DragLog.point, ← DragLog.framedPoint, Axis.way_add_way]

end Window

end PaneTiling
