import Mathlib.Data.List.Induction
import Mathlib.Data.List.Nodup
import PaneTiling.Navigation
import PaneTiling.Proofs.PaneTree.Tiling

/-!
The nearest pane in a direction, read over exact numbers. The search goes through the panes once and
keeps the best so far; what is left at the end is the first pane at the least distance, and nothing
is found only if nothing lies in the direction. A direction leads on from pane to pane and never
back to one that was left.
-/

namespace PaneTiling

namespace Heading

def axis : Heading → Axis
  | left | right => .row
  | up | down => .col

def crossAxis : Heading → Axis
  | left | right => .col
  | up | down => .row

/-- The way along the direction, and twice the way across it. -/
def weight (heading : Heading) (here there : Rat × Rat) : Rat :=
  |heading.axis.coordinate there.1 there.2 - heading.axis.coordinate here.1 here.2| +
    2 * |heading.crossAxis.coordinate there.1 there.2 -
      heading.crossAxis.coordinate here.1 here.2|

theorem distance_eq_weight (heading : Heading) (here there : Rat × Rat) :
    heading.distance here there = heading.weight here there := by
  have htwo : (2.0 : Rat) = 2 := by norm_num
  cases heading <;>
    simp only [distance, weight, axis, crossAxis, Axis.coordinate, PaneTree.abs_rat] <;>
    exact congrArg _ ((congrArg _ htwo).trans (mul_comm _ _))

variable {heading : Heading} {here mid there : Rat × Rat}

theorem not_leads_self : ¬heading.Leads here here := by
  cases heading <;> exact lt_irrefl _

theorem Leads.trans (h : heading.Leads here mid) (hnext : heading.Leads mid there) :
    heading.Leads here there := by
  cases heading with
  | left | up => exact lt_trans hnext h
  | right | down => exact lt_trans h hnext

/-- The panes but that of `origin` whose centre lies in a direction from the centre of `home`. -/
def Reaches (heading : Heading) (origin : TabId) (home : Rect Rat) (pane : TabId × Rect Rat) :
    Prop :=
  pane.1 ≠ origin ∧ heading.Leads home.center pane.2.center

instance (heading : Heading) (origin : TabId) (home : Rect Rat) :
    DecidablePred (heading.Reaches origin home) := fun _ =>
  inferInstanceAs (Decidable (_ ∧ _))

end Heading

/-- Of the items with a property the first one at the least distance. -/
structure IsNearest {β : Type} (P : β → Prop) (distance : β → Rat) (items : List β) (index : Nat)
    (item : β) : Prop where
  here : items[index]? = some item
  holds : P item
  least : ∀ other ∈ items, P other → distance item ≤ distance other
  first : ∀ place < index, ∀ other, items[place]? = some other → P other →
    distance item < distance other

namespace IsNearest

variable {β : Type} {P : β → Prop} {distance : β → Rat} {items : List β} {index : Nat}
  {item last : β}

theorem mem (h : IsNearest P distance items index item) : item ∈ items :=
  List.mem_of_getElem? h.here

theorem unique {place : Nat} {other : β} (h : IsNearest P distance items index item)
    (hother : IsNearest P distance items place other) : item = other := by
  have hle := h.least other hother.mem hother.holds
  have hge := hother.least item h.mem h.holds
  rcases lt_trichotomy index place with hlt | rfl | hlt
  · exact absurd hle (not_le.2 (hother.first index hlt item h.here h.holds))
  · exact Option.some.inj (h.here.symm.trans hother.here)
  · exact absurd hge (not_le.2 (h.first place hlt other hother.here hother.holds))

theorem concat (h : IsNearest P distance items index item)
    (hlast : P last → distance item ≤ distance last) :
    IsNearest P distance (items ++ [last]) index item := by
  have hlt := (List.getElem?_eq_some_iff.1 h.here).1
  refine ⟨?_, h.holds, fun other hother hP => ?_, fun place hplace other hother hP => ?_⟩
  · rw [List.getElem?_append_left hlt, h.here]
  · rcases List.mem_append.1 hother with hmem | hmem
    · exact h.least other hmem hP
    · cases List.mem_singleton.1 hmem
      exact hlast hP
  · rw [List.getElem?_append_left (hplace.trans hlt)] at hother
    exact h.first place hplace other hother hP

theorem of_last (hlast : P last) (h : ∀ other ∈ items, P other → distance last < distance other) :
    IsNearest P distance (items ++ [last]) items.length last := by
  refine ⟨List.getElem?_concat_length, hlast, fun other hother hP => ?_,
    fun place hplace other hother hP => ?_⟩
  · rcases List.mem_append.1 hother with hmem | hmem
    · exact (h other hmem hP).le
    · cases List.mem_singleton.1 hmem
      exact le_rfl
  · rw [List.getElem?_append_left hplace] at hother
    exact h other (List.mem_of_getElem? hother) hP

end IsNearest

theorem foldl_nearer_cases (P : TabId × Rect Rat → Prop) [DecidablePred P]
    (distance : TabId × Rect Rat → Rat) (panes : List (TabId × Rect Rat)) :
    let best := panes.foldl
      (fun best pane => if P pane then nearer best pane.1 (distance pane) else best) none
    (best = none ∧ ∀ pane ∈ panes, ¬P pane) ∨
      ∃ index pane, IsNearest P distance panes index pane ∧
        best = some (pane.1, distance pane) := by
  induction panes using List.reverseRecOn with
  | nil => exact .inl ⟨rfl, nofun⟩
  | append_singleton panes last ih =>
    intro best
    simp only [best, List.foldl_concat]
    rcases ih with ⟨hbest, hnone⟩ | ⟨index, pane, hnearest, hbest⟩
    · rw [hbest]
      split
      · rename_i hlast
        exact .inr ⟨_, last, .of_last hlast fun other hother hP => absurd hP (hnone other hother),
          rfl⟩
      · rename_i hlast
        refine .inl ⟨rfl, fun pane hpane => ?_⟩
        rcases List.mem_append.1 hpane with hmem | hmem
        · exact hnone pane hmem
        · cases List.mem_singleton.1 hmem
          exact hlast
    · rw [hbest]
      split
      · rename_i hlast
        simp only [nearer]
        split
        · rename_i hlt
          exact .inr ⟨_, last, .of_last hlast fun other hother hP =>
            hlt.trans_le (hnearest.least other hother hP), rfl⟩
        · rename_i hge
          exact .inr ⟨index, pane, hnearest.concat fun _ => not_lt.1 hge, rfl⟩
      · rename_i hlast
        exact .inr ⟨index, pane, hnearest.concat fun hP => absurd hP hlast, rfl⟩

section Finding

variable {panes : List (TabId × Rect Rat)} {origin : TabId} {heading : Heading} {home : Rect Rat}

theorem find?_pane_eq_some_iff (hnodup : (panes.map (·.1)).Nodup) {pane : TabId × Rect Rat} :
    panes.find? (·.1 = origin) = some pane ↔ pane ∈ panes ∧ pane.1 = origin := by
  refine ⟨fun h => ⟨List.mem_of_find?_eq_some h, by simpa using List.find?_some h⟩, ?_⟩
  rintro ⟨hmem, rfl⟩
  obtain ⟨found, hfound⟩ := Option.isSome_iff_exists.1
    (List.find?_isSome.2 ⟨pane, hmem, by simp⟩ :
      (panes.find? (·.1 = pane.1)).isSome)
  have hsame : found.1 = pane.1 := by simpa using List.find?_some hfound
  rw [hfound, List.inj_on_of_nodup_map hnodup (List.mem_of_find?_eq_some hfound) hmem hsame]

theorem nearestTab_cases (hnodup : (panes.map (·.1)).Nodup) (hhome : (origin, home) ∈ panes)
    (heading : Heading) :
    (nearestTab panes origin heading = none ∧ ∀ pane ∈ panes, ¬heading.Reaches origin home pane) ∨
      ∃ index pane, IsNearest (heading.Reaches origin home)
          (fun pane => heading.weight home.center pane.2.center) panes index pane ∧
        nearestTab panes origin heading = some pane.1 := by
  have hfind := (find?_pane_eq_some_iff hnodup).2 ⟨hhome, rfl⟩
  have hcases := foldl_nearer_cases (heading.Reaches origin home)
    (fun pane => heading.weight home.center pane.2.center) panes
  simp only [← Heading.distance_eq_weight] at hcases ⊢
  simp only [nearestTab, hfind, Option.bind_eq_bind, Option.bind_some, Option.pure_def]
  rcases hcases with ⟨hbest, hnone⟩ | ⟨index, pane, hnearest, hbest⟩
  · exact .inl ⟨congrArg (Option.bind · _) hbest, hnone⟩
  · exact .inr ⟨index, pane, hnearest, congrArg (Option.bind · _) hbest⟩

theorem exists_home_of_mem (h : origin ∈ panes.map (·.1)) : ∃ home, (origin, home) ∈ panes := by
  obtain ⟨pane, hpane, rfl⟩ := List.mem_map.1 h
  exact ⟨pane.2, hpane⟩

theorem nearestTab_eq_none_of_not_mem (h : origin ∉ panes.map (·.1)) :
    nearestTab panes origin heading = none := by
  have hfind : panes.find? (·.1 = origin) = none := by
    refine List.find?_eq_none.2 fun pane hpane hsame => h ?_
    exact List.mem_map.2 ⟨pane, hpane, by simpa using hsame⟩
  simp only [nearestTab, hfind, Option.bind_eq_bind, Option.bind_none]

theorem nearestTab_eq_none_iff (hnodup : (panes.map (·.1)).Nodup) :
    nearestTab panes origin heading = none ↔ origin ∉ panes.map (·.1) ∨
      ∃ home, (origin, home) ∈ panes ∧ ∀ pane ∈ panes, ¬heading.Reaches origin home pane := by
  by_cases hmem : origin ∈ panes.map (·.1)
  · obtain ⟨home, hhome⟩ := exists_home_of_mem hmem
    rcases nearestTab_cases hnodup hhome heading with ⟨hfound, hnone⟩ | ⟨_, pane, hnearest, hfound⟩
    · exact iff_of_true hfound (.inr ⟨home, hhome, hnone⟩)
    · refine iff_of_false (by simp [hfound]) ?_
      rintro (hnot | ⟨other, hother, hnone⟩)
      · exact hnot hmem
      · cases List.inj_on_of_nodup_map hnodup hhome hother rfl
        exact hnone pane hnearest.mem hnearest.holds
  · exact iff_of_true (nearestTab_eq_none_of_not_mem hmem) (.inl hmem)

theorem nearestTab_eq_some_iff (hnodup : (panes.map (·.1)).Nodup) {tab : TabId} :
    nearestTab panes origin heading = some tab ↔
      ∃ home index rect, (origin, home) ∈ panes ∧ IsNearest (heading.Reaches origin home)
        (fun pane => heading.weight home.center pane.2.center) panes index (tab, rect) := by
  constructor
  · intro h
    by_cases hmem : origin ∈ panes.map (·.1)
    · obtain ⟨home, hhome⟩ := exists_home_of_mem hmem
      rcases nearestTab_cases hnodup hhome heading with
        ⟨hfound, -⟩ | ⟨index, pane, hnearest, hfound⟩
      · cases hfound.symm.trans h
      · cases hfound.symm.trans h
        exact ⟨home, index, pane.2, hhome, hnearest⟩
    · cases (nearestTab_eq_none_of_not_mem hmem).symm.trans h
  · rintro ⟨home, index, rect, hhome, hnearest⟩
    rcases nearestTab_cases hnodup hhome heading with ⟨-, hnone⟩ | ⟨place, pane, hother, hfound⟩
    · exact absurd hnearest.holds (hnone (tab, rect) hnearest.mem)
    · rw [hfound, hother.unique hnearest]

end Finding

end PaneTiling
