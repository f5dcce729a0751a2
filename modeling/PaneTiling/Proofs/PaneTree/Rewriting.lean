import PaneTiling.Proofs.PaneTree.Paths

/-!
Trees in which one node was replaced. What stands at a path can be written anew, and the rest of the
tree stays as it is. Moving a border is such an edit: it gives a split new shares for what its slots
hold.
-/

namespace PaneTiling.PaneTree

variable {α : Type}

theorem sharesOf_set_tree {slots : List (PaneTree α × α)} {index : Nat} {tree : PaneTree α}
    {share : α} (hslot : slots[index]? = some (tree, share)) (edited : PaneTree α) :
    sharesOf (slots.set index (edited, share)) = sharesOf slots := by
  have hshare : (sharesOf slots)[index]? = some share := by simp [sharesOf, hslot]
  exact List.map_set.trans (set_of_getElem? hshare)

/-- The trees before and after the node at a path was replaced. -/
inductive Rewrites (old new : PaneTree α) : List Nat → PaneTree α → PaneTree α → Prop
  | here : Rewrites old new [] old new
  | within {axis : Axis} {slots : List (PaneTree α × α)} {index : Nat} {path : List Nat}
    {tree edited : PaneTree α} {share : α} (hslot : slots[index]? = some (tree, share))
    (h : Rewrites old new path tree edited) :
    Rewrites old new (index :: path) (split axis slots)
      (split axis (slots.set index (edited, share)))

section Replacing

variable {old new tree edited : PaneTree α} {path : List Nat}

theorem exists_rewrites (edit : PaneTree α → PaneTree α) (hnode : tree.nodeAt path = some old) :
    ∃ edited, modifyAt edit tree path = some edited ∧ Rewrites old (edit old) path tree edited := by
  induction path generalizing tree with
  | nil =>
    cases hnode
    exact ⟨_, rfl, .here⟩
  | cons index rest ih =>
    cases tree with
    | leaf tab => cases hnode
    | split axis slots =>
      rw [nodeAt_split_cons, Option.bind_eq_some_iff] at hnode
      obtain ⟨slot, hslot, hnode⟩ := hnode
      obtain ⟨grown, hgrown, hrewrites⟩ := ih hnode
      exact ⟨_, by simp [modifyAt, hslot, hgrown], .within hslot hrewrites⟩

namespace Rewrites

theorem nodeAt_old (h : Rewrites old new path tree edited) : tree.nodeAt path = some old := by
  induction h with
  | here => rfl
  | within hslot _ ih => rw [nodeAt_split_cons, hslot, Option.bind_some, ih]

theorem nodeAt_new (h : Rewrites old new path tree edited) : edited.nodeAt path = some new := by
  induction h with
  | here => rfl
  | within hslot _ ih =>
    have hlt := (List.getElem?_eq_some_iff.1 hslot).1
    rw [nodeAt_split_cons, List.getElem?_set_self hlt, Option.bind_some, ih]

theorem unique {other : PaneTree α} (h : Rewrites old new path tree edited)
    (hother : Rewrites old new path tree other) : other = edited := by
  induction h generalizing other with
  | here =>
    cases hother
    rfl
  | within hslot _ ih =>
    cases hother with
    | within hsame hother =>
      cases hslot.symm.trans hsame
      rw [ih hother]

theorem trans {third last : PaneTree α} (h : Rewrites old new path tree edited)
    (hnext : Rewrites new third path edited last) : Rewrites old third path tree last := by
  induction h generalizing last with
  | here =>
    cases hnext
    exact .here
  | within hslot _ ih =>
    cases hnext with
    | within hset hnext =>
      rw [List.getElem?_set_self (List.getElem?_eq_some_iff.1 hslot).1] at hset
      cases hset
      rw [List.set_set]
      exact .within hslot (ih hnext)

theorem eq_self (h : Rewrites old old path tree edited) : edited = tree := by
  induction h with
  | here => rfl
  | within hslot _ ih => rw [ih, set_of_getElem? hslot]

theorem outline_eq (h : Rewrites old new path tree edited) (heq : new.outline = old.outline) :
    edited.outline = tree.outline := by
  induction h with
  | here => exact heq
  | within hslot _ ih => rw [outline, outline, slotOutlines_set hslot ih]

end Rewrites

end Replacing

section Moving

variable [Scalar α] {tree moved : PaneTree α} {path : List Nat} {index : Nat} {delta : α}
  {axis : Axis} {slots more : List (PaneTree α × α)}

theorem resizeSlots_of_border {before after : PaneTree α} {first second : α}
    (hbefore : slots[index]? = some (before, first))
    (hafter : slots[index + 1]? = some (after, second)) {shares : α × α}
    (hshares : moveBorder first second delta = .ok shares) :
    resizeSlots slots index delta =
      .ok ((slots.set index (before, shares.1)).set (index + 1) (after, shares.2)) := by
  simp only [resizeSlots, hbefore, hafter, hshares]
  rfl

theorem resizeSlots_of_isNone (hnone : slots[index + 1]? = none) (delta : α) :
    resizeSlots slots index delta =
      if index < lastIndex then .ok slots else .error .indexOverflow := by
  simp only [resizeSlots, hnone]
  cases slots[index]? <;> rfl

theorem resizeSlots_cases (h : resizeSlots slots index delta = .ok more) :
    (∃ before first after second shares, slots[index]? = some (before, first) ∧
        slots[index + 1]? = some (after, second) ∧ moveBorder first second delta = .ok shares ∧
        more = (slots.set index (before, shares.1)).set (index + 1) (after, shares.2)) ∨
      slots[index + 1]? = none ∧ more = slots := by
  cases hafter : slots[index + 1]? with
  | none =>
    rw [resizeSlots_of_isNone hafter] at h
    split at h
    · cases h
      exact .inr ⟨rfl, rfl⟩
    · cases h
  | some slot =>
    have hlt := Nat.lt_of_succ_lt (List.getElem?_eq_some_iff.1 hafter).1
    have hbefore := List.getElem?_eq_getElem hlt
    simp only [resizeSlots, hbefore, hafter] at h
    obtain ⟨shares, hshares, h⟩ := bind_ok h
    cases h
    exact .inl ⟨_, _, _, _, shares, hbefore, rfl, hshares, rfl⟩

theorem outline_resizeSlots (h : resizeSlots slots index delta = .ok more) :
    slotOutlines more = slotOutlines slots := by
  rcases resizeSlots_cases h with ⟨before, first, after, second, shares, hbefore, hafter, -, rfl⟩ |
    ⟨-, rfl⟩
  · have hset : (slots.set index (before, shares.1))[index + 1]? = some (after, second) := by
      simp [hafter]
    rw [slotOutlines_set hset rfl, slotOutlines_set hbefore rfl]
  · rfl

theorem exists_resize_rewrites (hnode : tree.nodeAt path = some (split axis slots))
    (hfinite : Scalar.isFinite delta = true) (hmore : resizeSlots slots index delta = .ok more) :
    ∃ moved, tree.resize path index delta = .ok moved ∧
      Rewrites (split axis slots) (split axis more) path tree moved := by
  obtain ⟨moved, hmoved, hrewrites⟩ := exists_rewrites (fun _ => split axis more) hnode
  refine ⟨moved, ?_, hrewrites⟩
  simp only [resize, hnode, hfinite, hmore]
  exact congrArg Except.ok (congrArg (Option.getD · tree) hmoved)

theorem resize_cases (h : tree.resize path index delta = .ok moved) :
    (∃ axis slots more, Scalar.isFinite delta = true ∧ resizeSlots slots index delta = .ok more ∧
        Rewrites (split axis slots) (split axis more) path tree moved) ∨
      moved = tree ∧ ∀ axis slots, tree.nodeAt path = some (split axis slots) →
        Scalar.isFinite delta = false := by
  cases hfinite : Scalar.isFinite delta with
  | false =>
    refine .inr ⟨?_, fun _ _ _ => rfl⟩
    simp only [resize, hfinite, Bool.false_eq_true, if_false] at h
    split at h <;> exact (Except.ok.inj h).symm
  | true =>
    simp only [resize, hfinite, if_true] at h
    split at h
    · rename_i axis slots hnode
      obtain ⟨more, hmore, h⟩ := bind_ok h
      obtain ⟨edited, hedited, hrewrites⟩ := exists_rewrites (fun _ => split axis more) hnode
      rw [hedited] at h
      cases h
      exact .inl ⟨axis, slots, more, rfl, hmore, hrewrites⟩
    · rename_i hnone
      cases h
      exact .inr ⟨rfl, fun axis slots hnode => absurd hnode (hnone axis slots)⟩

theorem outline_resize (h : tree.resize path index delta = .ok moved) :
    moved.outline = tree.outline := by
  rcases resize_cases h with ⟨axis, slots, more, -, hmore, hrewrites⟩ | ⟨rfl, -⟩
  · exact hrewrites.outline_eq (by rw [outline, outline, outline_resizeSlots hmore])
  · rfl

end Moving

end PaneTiling.PaneTree
