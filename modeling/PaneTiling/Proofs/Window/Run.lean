import PaneTiling.Proofs.PaneTree.Shape
import PaneTiling.Window.Action

/-!
Runs of a window. What every step keeps, a run keeps; and where two properties of a step agree as
long as one of them has held so far, they hold along the same runs.
-/

namespace PaneTiling.Window

variable {α : Type} [Scalar α]

def Yields (P : Outcome α (Reply α) → Prop) (w : Window α) (now : Clock) (action : Action α) :
    Prop := ∀ o, w.perform now action = .ok o → P o

instance (P : Outcome α (Reply α) → Prop) [DecidablePred P] (w : Window α) (now : Clock)
    (action : Action α) : Decidable (Yields P w now action) :=
  match h : w.perform now action with
  | .error _ => isTrue fun o ho => nomatch h.symm.trans ho
  | .ok o => decidable_of_iff (P o) (by simp [Yields, h])

/-- A property of steps holds of each step of a run. A step that fails is the last one. -/
def Meets (P : Window α → Clock → Action α → Prop) :
    Window α → List (Clock × Action α) → Prop
  | _, [] => True
  | w, (now, action) :: rest =>
    P w now action ∧ ∀ o, w.perform now action = .ok o → Meets P o.window rest

instance decidableMeets (P : Window α → Clock → Action α → Prop)
    [∀ w now action, Decidable (P w now action)] :
    ∀ w actions, Decidable (Meets P w actions)
  | _, [] => isTrue trivial
  | w, (now, action) :: rest =>
    match h : w.perform now action with
    | .error _ => decidable_of_iff (P w now action) (by simp [Meets, h])
    | .ok o =>
      have : Decidable (Meets P o.window rest) := decidableMeets P o.window rest
      decidable_of_iff (P w now action ∧ Meets P o.window rest) (by simp [Meets, h])

theorem run_cons_eq_ok {w last : Window α} {now : Clock} {action : Action α}
    {rest : List (Clock × Action α)} (h : w.run ((now, action) :: rest) = .ok last) :
    ∃ o, w.perform now action = .ok o ∧ o.window.run rest = .ok last := by
  obtain ⟨next, hnext, hrest⟩ := bind_ok h
  obtain ⟨o, ho, rfl⟩ := map_ok hnext
  exact ⟨o, ho, hrest⟩

theorem run_cons_of_ok {w : Window α} {now : Clock} {action : Action α}
    {o : Outcome α (Reply α)} (h : w.perform now action = .ok o)
    (rest : List (Clock × Action α)) :
    w.run ((now, action) :: rest) = o.window.run rest := by
  simp only [run, List.foldlM_cons, h]
  rfl

theorem exists_run_of_any {P : Window α → Prop} [DecidablePred P] {w : Window α}
    {actions : List (Clock × Action α)}
    (h : (w.run actions).toOption.any (P ·) = true) :
    ∃ last, w.run actions = .ok last ∧ P last := by
  obtain ⟨last, hlast, hP⟩ := (Option.any_eq_true _ _).1 h
  exact ⟨last, ok_of_toOption hlast, of_decide_eq_true hP⟩

section Invariant

variable {Inv : Window α → Prop} {P Q : Window α → Clock → Action α → Prop}
  {w last : Window α} {actions : List (Clock × Action α)}

theorem meets_of_forall_mem (h : ∀ step ∈ actions, ∀ w, P w step.1 step.2) (w : Window α) :
    Meets P w actions := by
  induction actions generalizing w with
  | nil => trivial
  | cons step rest ih =>
    have hrest : ∀ step ∈ rest, ∀ w, P w step.1 step.2 := fun step hstep =>
      h step (List.mem_cons_of_mem _ hstep)
    exact ⟨h step List.mem_cons_self w, fun o _ => ih hrest o.window⟩

theorem Meets.step {before rest : List (Clock × Action α)} {step : Clock × Action α}
    {mid : Window α} (h : Meets P w (before ++ step :: rest)) (hrun : w.run before = .ok mid) :
    P mid step.1 step.2 := by
  induction before generalizing w with
  | nil =>
    cases hrun
    exact h.1
  | cons first before ih =>
    obtain ⟨o, ho, hbefore⟩ := run_cons_eq_ok hrun
    exact ih (h.2 o ho) hbefore

theorem Meets.and (hP : Meets P w actions) (hQ : Meets Q w actions) :
    Meets (fun w now action => P w now action ∧ Q w now action) w actions := by
  induction actions generalizing w with
  | nil => trivial
  | cons step rest ih =>
    exact ⟨⟨hP.1, hQ.1⟩, fun o ho => ih (hP.2 o ho) (hQ.2 o ho)⟩

theorem invariant_of_meets
    (hstep : ∀ w now action o, Inv w → P w now action → w.perform now action = .ok o →
      Inv o.window)
    (hw : Inv w) (hmeets : Meets P w actions) (hrun : w.run actions = .ok last) : Inv last := by
  induction actions generalizing w with
  | nil =>
    cases hrun
    exact hw
  | cons step rest ih =>
    obtain ⟨o, ho, hrest⟩ := run_cons_eq_ok hrun
    exact ih (hstep w step.1 step.2 o hw hmeets.1 ho) (hmeets.2 o ho) hrest

theorem invariant_of_run
    (hstep : ∀ w now action o, Inv w → w.perform now action = .ok o → Inv o.window)
    (hw : Inv w) (hrun : w.run actions = .ok last) : Inv last :=
  invariant_of_meets (fun w now action o hinv _ ho => hstep w now action o hinv ho) hw
    (meets_of_forall_mem (P := fun _ _ _ => True) (fun _ _ _ => trivial) w) hrun

theorem exists_run_eq_ok (hstep : ∀ w now action, Inv w → ∃ o, w.perform now action = .ok o)
    (hkeep : ∀ w now action o, Inv w → w.perform now action = .ok o → Inv o.window) (hw : Inv w)
    (actions : List (Clock × Action α)) : ∃ last, w.run actions = .ok last := by
  induction actions generalizing w with
  | nil => exact ⟨w, rfl⟩
  | cons step rest ih =>
    obtain ⟨o, ho⟩ := hstep w step.1 step.2 hw
    obtain ⟨last, hlast⟩ := ih (hkeep w step.1 step.2 o hw ho)
    exact ⟨last, by rw [run_cons_of_ok ho, hlast]⟩

theorem Meets.imp {Inv : Window α → Prop} {Admits : Action α → Prop}
    (hkeep : ∀ w now action o, Inv w → Admits action → P w now action →
      w.perform now action = .ok o → Inv o.window)
    (himp : ∀ w now action, Inv w → Admits action → P w now action → Q w now action)
    (hw : Inv w) (hadmits : ∀ step ∈ actions, Admits step.2) (hmeets : Meets P w actions) :
    Meets Q w actions := by
  induction actions generalizing w with
  | nil => trivial
  | cons step rest ih =>
    obtain ⟨now, action⟩ := step
    obtain ⟨hstep, hrest⟩ := hmeets
    have haction := hadmits (now, action) List.mem_cons_self
    refine ⟨himp w now action hw haction hstep, fun o ho => ?_⟩
    exact ih (hkeep w now action o hw haction hstep ho)
      (fun step hstep => hadmits step (List.mem_cons_of_mem _ hstep)) (hrest o ho)

theorem meets_congr (Inv : Window α → Prop) (Admits : Action α → Prop)
    (hkeep : ∀ w now action o, Inv w → Admits action → Q w now action →
      w.perform now action = .ok o → Inv o.window)
    (hiff : ∀ w now action, Inv w → Admits action → (P w now action ↔ Q w now action))
    (hw : Inv w) (hadmits : ∀ step ∈ actions, Admits step.2) :
    Meets P w actions ↔ Meets Q w actions := by
  constructor
  · refine Meets.imp (fun w now action o hinv haction hstep => ?_) ?_ hw hadmits
    · exact hkeep w now action o hinv haction ((hiff w now action hinv haction).1 hstep)
    · exact fun w now action hinv haction => (hiff w now action hinv haction).1
  · refine Meets.imp hkeep ?_ hw hadmits
    exact fun w now action hinv haction => (hiff w now action hinv haction).2

end Invariant

end PaneTiling.Window
