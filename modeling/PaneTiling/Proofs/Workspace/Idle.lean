import PaneTiling.Proofs.Workspace.Rules
import PaneTiling.Window.Idle

/-!
Tabs that fall a tier for not being used. Which tabs of a workspace fall is decided of all of them
before the first one does, and each is then looked up by its id. With no id given twice this comes
to letting every tab fall by itself, and what is told of the falls is what has changed. After two
falls in a row there is nothing left that could fall.
-/

namespace PaneTiling

variable {α : Type}

theorem modifyTab_append_cons {before after : List Tab} {tab : Tab} (change : Tab → Tab)
    (hbefore : ∀ other ∈ before, other.id ≠ tab.id) :
    modifyTab tab.id change (before ++ tab :: after) = before ++ change tab :: after := by
  induction before with
  | nil => simp [modifyTab]
  | cons first rest ih =>
    rw [List.forall_mem_cons] at hbefore
    rw [List.cons_append, modifyTab, if_neg hbefore.1, ih hbefore.2, List.cons_append]

/-- How many milliseconds a tab has not been used; none if it was last used later. -/
def Tab.idle (tab : Tab) (now : Instant) : Nat := (now - tab.lastActive).toNat

/-- The tabs of a strip that have another tier afterwards, in its order, each with that tier. -/
def tierChanges (before after : List Tab) : List (TabId × MemoryTier) :=
  (before.zip after).filterMap fun (old, new) =>
    if new.tier = old.tier then none else some (new.id, new.tier)

theorem tierChanges_map (change : Tab → Tab) (tabs : List Tab) :
    tierChanges tabs (tabs.map change) = tabs.filterMap fun tab =>
      if (change tab).tier = tab.tier then none else some ((change tab).id, (change tab).tier) := by
  have hzip := List.zip_map' (f := id) (g := change) (l := tabs)
  rw [List.map_id] at hzip
  rw [tierChanges, hzip, List.filterMap_map]
  rfl

namespace Workspace

/-- The tabs that keep their page however long they are not used. -/
inductive Spared (ws : Workspace α) (inFront : Bool) (tab : Tab) : Prop
  | pinned (h : tab.pinned = true)
  | playing (h : tab.playingMedia = true)
  | internal {scheme : String} (hscheme : scheme ∈ ["about:", "tilepane://"])
    (h : scheme.toList <+: tab.url.toList)
  | focused (h : ws.active = some tab.id)
  | seen {tree : PaneTree α} (hfront : inFront = true) (htree : ws.tree = some tree)
    (h : tab.id ∈ tree)

/-- What not being used makes of a tab. Only its tier may change, and by one step only; a tab that
keeps its page stays, a pane is never destroyed, and any other tab falls if it was idle for long
enough. -/
structure Aged (ws : Workspace α) (inFront : Bool) (suspendAfter destroyAfter : Nat)
    (now : Instant) (before after : Tab) : Prop where
  rest : after = { before with tier := after.tier }
  one_step : after.tier ≠ before.tier →
    before.tier = .active ∧ after.tier = .suspended ∨
      before.tier = .suspended ∧ after.tier = .destroyed
  kept : ws.Spared inFront before → after = before
  pane : ws.IsLeaf before.id → after.tier = .destroyed → before.tier = .destroyed
  suspended_iff : before.tier = .active →
    (after.tier = .suspended ↔ ¬ws.Spared inFront before ∧ suspendAfter ≤ before.idle now)
  destroyed_iff : before.tier = .suspended →
    (after.tier = .destroyed ↔
      ¬ws.Spared inFront before ∧ ¬ws.IsLeaf before.id ∧ destroyAfter ≤ before.idle now)

variable {ws : Workspace α} {inFront : Bool} {suspendAfter destroyAfter : Nat} {now : Instant}
  {tab : Tab} {tier : MemoryTier}

theorem keeps_iff_spared : ws.Keeps inFront tab ↔ ws.Spared inFront tab := by
  constructor
  · rintro (h | h | h | h | ⟨hfront, tree, htree, h⟩)
    · exact .pinned h
    · exact .playing h
    · obtain ⟨scheme, hscheme, hstarts⟩ := List.any_eq_true.1 h
      exact .internal hscheme (List.isPrefixOf_iff_prefix.1 hstarts)
    · exact .focused h
    · exact .seen hfront htree h
  · rintro (h | h | ⟨hscheme, h⟩ | h | ⟨hfront, htree, h⟩)
    · exact .inl h
    · exact .inr (.inl h)
    · exact .inr (.inr (.inl (List.any_eq_true.2
        ⟨_, hscheme, List.isPrefixOf_iff_prefix.2 h⟩)))
    · exact .inr (.inr (.inr (.inl h)))
    · exact .inr (.inr (.inr (.inr ⟨hfront, _, htree, h⟩)))

theorem demotion?_eq_some_iff :
    ws.demotion? inFront suspendAfter destroyAfter now tab = some tier ↔
      ¬ws.Spared inFront tab ∧
        (tab.tier = .active ∧ tier = .suspended ∧ suspendAfter ≤ tab.idle now ∨
          tab.tier = .suspended ∧ tier = .destroyed ∧ ¬ws.IsLeaf tab.id ∧
            destroyAfter ≤ tab.idle now) := by
  unfold demotion? Tab.idle
  rw [← keeps_iff_spared]
  by_cases hkeeps : ws.Keeps inFront tab
  · simp [hkeeps]
  · rw [if_neg hkeeps, and_iff_right hkeeps]
    cases htier : tab.tier with
    | active => simp [eq_comm, and_comm]
    | suspended => simp [eq_comm, and_comm]
    | destroyed => simp

theorem exists_of_mem_demotions {change : TabId × MemoryTier}
    (h : change ∈ ws.demotions inFront suspendAfter destroyAfter now) :
    ∃ tab, tab.id = change.1 ∧
      ws.demotion? inFront suspendAfter destroyAfter now tab = some change.2 := by
  obtain ⟨tab, -, hfalls⟩ := List.mem_filterMap.1 h
  obtain ⟨tier, htier, rfl⟩ := Option.map_eq_some_iff.1 hfalls
  exact ⟨tab, rfl, htier⟩

theorem not_isLeaf_of_demotions :
    ∀ change ∈ ws.demotions inFront suspendAfter destroyAfter now,
      change.2 = .destroyed → ¬ws.IsLeaf change.1 := by
  intro change hchange hdestroyed
  obtain ⟨tab, hid, htier⟩ := exists_of_mem_demotions hchange
  rw [hdestroyed, demotion?_eq_some_iff] at htier
  rw [← hid]
  obtain ⟨-, ⟨-, hsuspended, -⟩ | ⟨-, -, hleaf, -⟩⟩ := htier
  · cases hsuspended
  · exact hleaf

theorem not_spared_of_demotions :
    ∀ change ∈ ws.demotions inFront suspendAfter destroyAfter now,
      ws.active ≠ some change.1 ∧ (inFront → ¬ws.IsLeaf change.1) := by
  intro change hchange
  obtain ⟨tab, hid, htier⟩ := exists_of_mem_demotions hchange
  have hspared := (demotion?_eq_some_iff.1 htier).1
  rw [← hid]
  exact ⟨fun hfocus => hspared (.focused hfocus),
    fun hfront ⟨_, htree, hleaf⟩ => hspared (.seen hfront htree hleaf)⟩

variable (ws inFront suspendAfter destroyAfter now) in
def aged (tab : Tab) : Tab :=
  { tab with tier := (ws.demotion? inFront suspendAfter destroyAfter now tab).getD tab.tier }

theorem aged_eq_self (h : ws.demotion? inFront suspendAfter destroyAfter now tab = none) :
    ws.aged inFront suspendAfter destroyAfter now tab = tab := by
  rw [aged, h, Option.getD_none]

theorem aged_eq (h : ws.demotion? inFront suspendAfter destroyAfter now tab = some tier) :
    ws.aged inFront suspendAfter destroyAfter now tab = { tab with tier } := by
  rw [aged, h, Option.getD_some]

theorem aged_spec (ws : Workspace α) (inFront : Bool) (suspendAfter destroyAfter : Nat)
    (now : Instant) (tab : Tab) :
    ws.Aged inFront suspendAfter destroyAfter now tab
      (ws.aged inFront suspendAfter destroyAfter now tab) := by
  cases hfall : ws.demotion? inFront suspendAfter destroyAfter now tab with
  | none =>
    rw [aged_eq_self hfall]
    refine ⟨rfl, fun hne => absurd rfl hne, fun _ => rfl, fun _ h => h, fun htier => ?_,
      fun htier => ?_⟩
    · refine iff_of_false (by simp [htier]) fun ⟨hspared, hidle⟩ => ?_
      exact nomatch hfall.symm.trans
        (demotion?_eq_some_iff.2 ⟨hspared, .inl ⟨htier, rfl, hidle⟩⟩)
    · refine iff_of_false (by simp [htier]) fun ⟨hspared, hleaf, hidle⟩ => ?_
      exact nomatch hfall.symm.trans
        (demotion?_eq_some_iff.2 ⟨hspared, .inr ⟨htier, rfl, hleaf, hidle⟩⟩)
  | some tier =>
    rw [aged_eq hfall]
    obtain ⟨hspared, hfalls⟩ := demotion?_eq_some_iff.1 hfall
    rcases hfalls with ⟨htier, rfl, hidle⟩ | ⟨htier, rfl, hleaf, hidle⟩
    · exact ⟨rfl, fun _ => .inl ⟨htier, rfl⟩, fun h => absurd h hspared, fun _ h => (nomatch h),
        fun _ => iff_of_true rfl ⟨hspared, hidle⟩, fun h => (nomatch htier.symm.trans h)⟩
    · exact ⟨rfl, fun _ => .inr ⟨htier, rfl⟩, fun h => absurd h hspared,
        fun h => absurd h hleaf, fun h => (nomatch htier.symm.trans h),
        fun _ => iff_of_true rfl ⟨hspared, hleaf, hidle⟩⟩

theorem demotion?_aged_aged :
    ws.demotion? inFront suspendAfter destroyAfter now
      (ws.aged inFront suspendAfter destroyAfter now
        (ws.aged inFront suspendAfter destroyAfter now tab)) = none := by
  rw [Option.eq_none_iff_forall_ne_some]
  intro last hlast
  cases hfirst : ws.demotion? inFront suspendAfter destroyAfter now tab with
  | none =>
    rw [aged_eq_self hfirst, aged_eq_self hfirst] at hlast
    exact nomatch hfirst.symm.trans hlast
  | some first =>
    rw [aged_eq hfirst] at hlast
    cases hsecond : ws.demotion? inFront suspendAfter destroyAfter now
        { tab with tier := first } with
    | none =>
      rw [aged_eq_self hsecond] at hlast
      exact nomatch hsecond.symm.trans hlast
    | some second =>
      rw [aged_eq hsecond] at hlast
      obtain ⟨-, hfirst⟩ := demotion?_eq_some_iff.1 hfirst
      obtain ⟨-, hsecond⟩ := demotion?_eq_some_iff.1 hsecond
      obtain ⟨-, hlast⟩ := demotion?_eq_some_iff.1 hlast
      simp only at hsecond hlast
      grind

theorem demote_cons (ws : Workspace α) (id : TabId) (tier : MemoryTier)
    (changes : List (TabId × MemoryTier)) :
    ws.demote ((id, tier) :: changes) =
      (ws.modifyTab id fun tab => { tab with tier }).demote changes := rfl

theorem demote_filterMap (before todo : List Tab) (h : ((before ++ todo).map (·.id)).Nodup) :
    ({ ws with tabs := before ++ todo } : Workspace α).demote (todo.filterMap fun tab =>
      (ws.demotion? inFront suspendAfter destroyAfter now tab).map fun tier => (tab.id, tier)) =
    { ws with tabs := before ++ todo.map (ws.aged inFront suspendAfter destroyAfter now) } := by
  induction todo generalizing before with
  | nil => rfl
  | cons tab rest ih =>
    have hfront : ∀ other ∈ before, other.id ≠ tab.id := by
      intro other hother heq
      rw [List.map_append, List.nodup_append] at h
      exact h.2.2 other.id (List.mem_map_of_mem hother) tab.id (by simp) heq
    have hnext (fallen : Tab) (hid : fallen.id = tab.id) :
        (((before ++ [fallen]) ++ rest).map (·.id)).Nodup := by
      simpa [hid] using h
    cases hfall : ws.demotion? inFront suspendAfter destroyAfter now tab with
    | none =>
      have hrest := ih (before ++ [tab]) (hnext tab rfl)
      rw [List.filterMap_cons_none (by rw [hfall]; rfl), List.map_cons, aged_eq_self hfall]
      simpa using hrest
    | some tier =>
      have hrest := ih (before ++ [{ tab with tier }]) (hnext { tab with tier } rfl)
      rw [List.filterMap_cons_some (by rw [hfall]; rfl), List.map_cons, aged_eq hfall]
      rw [demote_cons, Workspace.modifyTab, modifyTab_append_cons _ hfront]
      simpa using hrest

theorem demote_demotions (h : ws.ids.Nodup) :
    ws.demote (ws.demotions inFront suspendAfter destroyAfter now) =
      { ws with tabs := ws.tabs.map (ws.aged inFront suspendAfter destroyAfter now) } :=
  demote_filterMap [] ws.tabs h

theorem demotions_eq_tierChanges (ws : Workspace α) (inFront : Bool)
    (suspendAfter destroyAfter : Nat) (now : Instant) :
    ws.demotions inFront suspendAfter destroyAfter now =
      tierChanges ws.tabs (ws.tabs.map (ws.aged inFront suspendAfter destroyAfter now)) := by
  rw [tierChanges_map, demotions]
  refine List.filterMap_congr fun tab _ => ?_
  cases hfall : ws.demotion? inFront suspendAfter destroyAfter now tab with
  | none => simp [aged_eq_self hfall]
  | some tier =>
    rw [aged_eq hfall, Option.map_some, if_neg]
    obtain ⟨-, ⟨htier, rfl, -⟩ | ⟨htier, rfl, -⟩⟩ := demotion?_eq_some_iff.1 hfall
    · simp [htier]
    · simp [htier]

end Workspace

end PaneTiling
