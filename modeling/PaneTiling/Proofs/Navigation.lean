import PaneTiling.Navigation

/-!
What is found by position is one of the panes that were searched.
-/

namespace PaneTiling

variable {α : Type}

theorem mem_of_foldl_nearer
    {step : Option (TabId × α) → TabId × Rect α → Option (TabId × α)}
    (hstep : ∀ best slot, step best slot = best ∨ ∃ d, step best slot = some (slot.1, d))
    {rects : List (TabId × Rect α)} {best : Option (TabId × α)} {found : TabId × α}
    (h : rects.foldl step best = some found) :
    found.1 ∈ rects.map (·.1) ∨ best = some found := by
  induction rects generalizing best with
  | nil => exact .inr h
  | cons slot rest ih =>
    rcases ih h with hmem | hbest
    · exact .inl (List.mem_cons_of_mem _ hmem)
    · rcases hstep best slot with hsame | ⟨d, hslot⟩
      · exact .inr (hsame ▸ hbest)
      · cases hslot.symm.trans hbest
        exact .inl List.mem_cons_self

variable [Scalar α]

theorem mem_of_tabAt {rects : List (TabId × Rect α)} {x y : α} {tab : TabId}
    (h : tabAt rects x y = some tab) : tab ∈ rects.map (·.1) := by
  obtain ⟨slot, hslot, rfl⟩ := Option.map_eq_some_iff.1 h
  exact List.mem_map_of_mem (List.mem_of_find?_eq_some hslot)

theorem mem_of_nearestTab {rects : List (TabId × Rect α)} {origin tab : TabId} {heading : Heading}
    (h : nearestTab rects origin heading = some tab) : tab ∈ rects.map (·.1) := by
  simp only [nearestTab, Option.bind_eq_bind, Option.bind_eq_some_iff, Option.pure_def] at h
  obtain ⟨home, -, found, hfound, h⟩ := h
  cases h
  refine (mem_of_foldl_nearer (fun best slot => ?_) hfound).resolve_right (by simp)
  split
  · unfold nearer
    split
    · exact .inr ⟨_, rfl⟩
    · split
      · exact .inr ⟨_, rfl⟩
      · exact .inl rfl
  · exact .inl rfl

end PaneTiling
