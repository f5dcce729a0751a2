import PaneTiling.Proofs.PaneTree.Borders
import PaneTiling.Proofs.PaneTree.Shares

/-!
How far a border goes, read over exact numbers. A border that is pulled goes with the pull, never
further, and stops where the smaller of its two sides is as small as it may be. These bounds do not
depend on how far it was pulled before; so pulling a border twice in one direction is pulling it
once by both distances.
-/

namespace PaneTiling.PaneTree

section Pulling

/-- What the share before a border becomes when the border is pulled by `delta`. -/
def pulled (first second delta : Rat) : Rat :=
  if first + second < 2.0 * minShare then first
  else Scalar.clamp (first + delta) (min first minShare) (max first (first + second - minShare))

theorem pull_bounds_le (first second : Rat) :
    min first minShare ≤ max first (first + second - minShare) :=
  (min_le_left _ _).trans (le_max_left _ _)

theorem moveBorder_rat (first second delta : Rat) : moveBorder first second delta =
    .ok (pulled first second delta, first + second - pulled first second delta) := by
  unfold moveBorder pulled
  by_cases hnarrow : first + second < 2.0 * minShare
  · simp only [if_pos hnarrow, add_sub_cancel_left]
  · simp only [if_neg hnarrow, if_pos (pull_bounds_le first second)]

variable {first second delta : Rat}

theorem pulled_of_narrow (h : first + second < 2.0 * minShare) :
    pulled first second delta = first := if_pos h

theorem clamp_rat (x lo hi : Rat) : Scalar.clamp x lo hi = min (max x lo) hi := by
  simp only [Scalar.clamp]
  grind

theorem pulled_of_room (hroom : ¬first + second < 2.0 * minShare) (delta : Rat) :
    pulled first second delta =
      min (max (first + delta) (min first minShare)) (max first (first + second - minShare)) := by
  rw [pulled, if_neg hroom, clamp_rat]

theorem pulled_of_nonneg (hroom : ¬first + second < 2.0 * minShare) (h : 0 ≤ delta) :
    pulled first second delta = min (first + delta) (max first (first + second - minShare)) := by
  have hlow : min first minShare ≤ first + delta :=
    (min_le_left _ _).trans (le_add_of_nonneg_right h)
  rw [pulled_of_room hroom, max_eq_left hlow]

theorem pulled_of_nonpos (hroom : ¬first + second < 2.0 * minShare) (h : delta ≤ 0) :
    pulled first second delta = max (first + delta) (min first minShare) := by
  have hhigh : max (first + delta) (min first minShare) ≤ max first (first + second - minShare) :=
    (max_le (add_le_of_nonpos_right h) (min_le_left _ _)).trans (le_max_left _ _)
  rw [pulled_of_room hroom, min_eq_left hhigh]

theorem pulled_zero (first second : Rat) : pulled first second 0 = first := by
  by_cases hnarrow : first + second < 2.0 * minShare
  · exact pulled_of_narrow hnarrow
  · rw [pulled_of_nonneg hnarrow le_rfl, add_zero, min_eq_left (le_max_left _ _)]

theorem pulled_pulled {more : Rat} (h : 0 ≤ delta * more) :
    pulled (pulled first second delta) (first + second - pulled first second delta) more =
      pulled first second (delta + more) := by
  have hsum (share : Rat) : share + (first + second - share) = first + second := by ring
  by_cases hnarrow : first + second < 2.0 * minShare
  · rw [pulled_of_narrow (by rwa [hsum]), pulled_of_narrow hnarrow, pulled_of_narrow hnarrow]
  have hroom : ¬pulled first second delta + (first + second - pulled first second delta) <
      2.0 * minShare := by rwa [hsum]
  rcases mul_nonneg_iff.1 h with ⟨hdelta, hmore⟩ | ⟨hdelta, hmore⟩
  · have hbound : max (min (first + delta) (max first (first + second - minShare)))
        (first + second - minShare) = max first (first + second - minShare) := by
      have hahead : first ≤ first + delta := le_add_of_nonneg_right hdelta
      grind
    rw [pulled_of_nonneg hroom hmore, hsum, pulled_of_nonneg hnarrow hdelta, hbound,
      pulled_of_nonneg hnarrow (add_nonneg hdelta hmore)]
    grind
  · have hbound : min (max (first + delta) (min first minShare)) minShare = min first minShare := by
      have hback : first + delta ≤ first := add_le_of_nonpos_right hdelta
      grind
    rw [pulled_of_nonpos hroom hmore, pulled_of_nonpos hnarrow hdelta, hbound,
      pulled_of_nonpos hnarrow (add_nonpos hdelta hmore)]
    grind

theorem pulled_sub_bounds (first second delta : Rat) :
    0 ≤ (pulled first second delta - first) * delta ∧
      |pulled first second delta - first| ≤ |delta| := by
  by_cases hnarrow : first + second < 2.0 * minShare
  · simp [pulled_of_narrow hnarrow]
  rcases le_total 0 delta with hdelta | hdelta
  · have hahead : 0 ≤ pulled first second delta - first := by
      rw [pulled_of_nonneg hnarrow hdelta]
      exact sub_nonneg.2 (le_min (le_add_of_nonneg_right hdelta) (le_max_left _ _))
    have hreach : pulled first second delta ≤ first + delta := by
      rw [pulled_of_nonneg hnarrow hdelta]
      exact min_le_left _ _
    rw [abs_of_nonneg hahead, abs_of_nonneg hdelta]
    exact ⟨mul_nonneg hahead hdelta, by linarith⟩
  · have hback : pulled first second delta - first ≤ 0 := by
      rw [pulled_of_nonpos hnarrow hdelta]
      exact sub_nonpos.2 (max_le (add_le_of_nonpos_right hdelta) (min_le_left _ _))
    have hreach : first + delta ≤ pulled first second delta := by
      rw [pulled_of_nonpos hnarrow hdelta]
      exact le_max_left _ _
    rw [abs_of_nonpos hback, abs_of_nonpos hdelta]
    exact ⟨mul_nonneg_of_nonpos_of_nonpos hback hdelta, by linarith⟩

theorem pulled_eq_add (hroom : 2.0 * minShare ≤ first + second)
    (hlow : min first minShare ≤ first + delta)
    (hhigh : first + delta ≤ max first (first + second - minShare)) :
    pulled first second delta = first + delta := by
  rw [pulled_of_room (not_lt.2 hroom), max_eq_left hlow, min_eq_left hhigh]

theorem min_le_pulled (hroom : ¬first + second < 2.0 * minShare) (delta : Rat) :
    min first minShare ≤ pulled first second delta ∧
      min second minShare ≤ first + second - pulled first second delta := by
  rw [pulled_of_room hroom]
  constructor
  · exact le_min (le_max_right _ _) (pull_bounds_le first second)
  · rw [le_sub_comm]
    refine (min_le_right _ _).trans (max_le ?_ ?_)
    · exact le_sub_comm.1 ((min_le_left _ _).trans_eq (add_sub_cancel_left first second).symm)
    · exact sub_le_sub_left (min_le_right _ _) _

/-- A side that is too small already is not made smaller, and the other one gives all it can. -/
example : pulled (1 / 10) (1 / 2) (-1 / 20) = 1 / 10 ∧ pulled (1 / 10) (1 / 2) 1 = 9 / 20 := by
  decide +kernel

theorem monotone_pulled (first second : Rat) : Monotone (pulled first second) := by
  intro delta more h
  by_cases hnarrow : first + second < 2.0 * minShare
  · rw [pulled_of_narrow hnarrow, pulled_of_narrow hnarrow]
  · rw [pulled_of_room hnarrow, pulled_of_room hnarrow]
    exact min_le_min_right _ (max_le_max_right _ (add_le_add_right h first))

theorem pulled_mem (hfirst : 0 < first) (hsecond : 0 < second) (delta : Rat) :
    0 < pulled first second delta ∧ pulled first second delta < first + second := by
  obtain ⟨moved, hmoved, hpos, hrest, -⟩ := exists_moveBorder_pos hfirst hsecond delta
  rw [moveBorder_rat] at hmoved
  cases hmoved
  exact ⟨hpos, sub_pos.1 hrest⟩

end Pulling

section Resizing

variable {tree : PaneTree Rat} {path : List Nat} {index : Nat} {axis : Axis}
  {slots : List (PaneTree Rat × Rat)} {before after : PaneTree Rat} {first second : Rat}

def pulledSlots (slots : List (PaneTree Rat × Rat)) (index : Nat) (before after : PaneTree Rat)
    (first second delta : Rat) : List (PaneTree Rat × Rat) :=
  (slots.set index (before, pulled first second delta)).set (index + 1)
    (after, first + second - pulled first second delta)

theorem getElem?_pulledSlots (hbefore : slots[index]? = some (before, first))
    (hafter : slots[index + 1]? = some (after, second)) (delta : Rat) :
    (pulledSlots slots index before after first second delta)[index]? =
        some (before, pulled first second delta) ∧
      (pulledSlots slots index before after first second delta)[index + 1]? =
        some (after, first + second - pulled first second delta) := by
  have hlt := (List.getElem?_eq_some_iff.1 hbefore).1
  have hnext := (List.getElem?_eq_some_iff.1 hafter).1
  constructor
  · rw [pulledSlots, List.getElem?_set_ne (Nat.succ_ne_self index), List.getElem?_set_self hlt]
  · rw [pulledSlots, List.getElem?_set_self (by simpa using hnext)]

theorem resizeSlots_eq (hbefore : slots[index]? = some (before, first))
    (hafter : slots[index + 1]? = some (after, second)) (delta : Rat) :
    resizeSlots slots index delta =
      .ok (pulledSlots slots index before after first second delta) := by
  rw [resizeSlots_of_border hbefore hafter (moveBorder_rat first second delta), pulledSlots]

theorem exists_resize_eq (hnode : tree.nodeAt path = some (split axis slots))
    (hbefore : slots[index]? = some (before, first))
    (hafter : slots[index + 1]? = some (after, second)) (delta : Rat) :
    ∃ moved, tree.resize path index delta = .ok moved ∧
      Rewrites (split axis slots)
        (split axis (pulledSlots slots index before after first second delta)) path tree moved :=
  exists_resize_rewrites hnode rfl (resizeSlots_eq hbefore hafter delta)

theorem resize_eq_self {delta : Rat} (hnode : tree.nodeAt path = some (split axis slots))
    (hbefore : slots[index]? = some (before, first))
    (hafter : slots[index + 1]? = some (after, second))
    (hstays : pulled first second delta = first) : tree.resize path index delta = .ok tree := by
  obtain ⟨moved, hmoved, hedit⟩ := exists_resize_eq hnode hbefore hafter delta
  have hsame : pulledSlots slots index before after first second delta = slots := by
    rw [pulledSlots, hstays, add_sub_cancel_left, set_of_getElem? hbefore, set_of_getElem? hafter]
  rw [hsame] at hedit
  rw [hmoved, hedit.eq_self]

theorem resize_zero (hwithin : ¬tree.Overruns path index) :
    tree.resize path index 0 = .ok tree := by
  cases hshare : (tree.shareAt? path (index + 1)).isSome with
  | false => exact resize_of_isNone (by simpa using hshare) hwithin 0
  | true =>
    obtain ⟨axis, slots, before, first, after, second, hnode, hbefore, hafter⟩ :=
      exists_border hshare
    exact resize_eq_self hnode hbefore hafter (pulled_zero first second)

theorem not_overruns_of_resize {moved : PaneTree Rat} {delta : Rat}
    (h : tree.resize path index delta = .ok moved) : ¬tree.Overruns path index := fun hover =>
  nomatch h.symm.trans (resize_eq_indexOverflow_iff.2 ⟨rfl, hover⟩)

theorem resize_resize {moved : PaneTree Rat} {delta more : Rat}
    (h : tree.resize path index delta = .ok moved) (hsame : 0 ≤ delta * more) :
    moved.resize path index more = tree.resize path index (delta + more) := by
  cases hshare : (tree.shareAt? path (index + 1)).isSome with
  | false =>
    have hnone : (tree.shareAt? path (index + 1)).isNone := by simpa using hshare
    have hwithin := not_overruns_of_resize h
    rw [resize_of_isNone hnone hwithin] at h
    cases h
    rw [resize_of_isNone hnone hwithin, resize_of_isNone hnone hwithin]
  | true =>
    obtain ⟨axis, slots, before, first, after, second, hnode, hbefore, hafter⟩ :=
      exists_border hshare
    obtain ⟨once, honce, hedit⟩ := exists_resize_eq hnode hbefore hafter delta
    cases h.symm.trans honce
    obtain ⟨hnext, hlast⟩ := getElem?_pulledSlots hbefore hafter delta
    obtain ⟨twice, htwice, hagain⟩ := exists_resize_eq hedit.nodeAt_new hnext hlast more
    obtain ⟨both, hboth, hatonce⟩ := exists_resize_eq hnode hbefore hafter (delta + more)
    have hslots : pulledSlots (pulledSlots slots index before after first second delta) index before
        after (pulled first second delta) (first + second - pulled first second delta) more =
          pulledSlots slots index before after first second (delta + more) := by
      have hsum : pulled first second delta + (first + second - pulled first second delta) =
          first + second := by ring
      rw [pulledSlots, pulledSlots, pulledSlots, pulled_pulled hsame, hsum,
        List.set_comm _ _ (Nat.succ_ne_self index), List.set_set, List.set_set]
    rw [hslots] at hagain
    rw [htwice, hboth, hatonce.unique (hedit.trans hagain)]

theorem shareAt?_pulled {moved : PaneTree Rat} {delta : Rat}
    (hnode : tree.nodeAt path = some (split axis slots))
    (hbefore : slots[index]? = some (before, first))
    (hafter : slots[index + 1]? = some (after, second))
    (h : tree.resize path index delta = .ok moved) :
    moved.shareAt? path index = some (pulled first second delta) ∧
      moved.shareAt? path (index + 1) = some (first + second - pulled first second delta) := by
  obtain ⟨once, honce, hedit⟩ := exists_resize_eq hnode hbefore hafter delta
  cases h.symm.trans honce
  have hfound := hedit.nodeAt_new
  obtain ⟨hfirst, hsecond⟩ := getElem?_pulledSlots hbefore hafter delta
  constructor
  · rw [shareAt?_of_nodeAt hfound, hfirst]
    rfl
  · rw [shareAt?_of_nodeAt hfound, hsecond]
    rfl

/-- How the share before a border follows pulls of every distance. Between bounds that cannot cross
it goes as far as it is pulled; it goes no further and not the other way, it makes neither side
smaller than the least share, and a longer pull never takes it less far. -/
structure FollowsPulls (first second : Rat) (share : Rat → Rat) : Prop where
  bounds : min first minShare ≤ max first (first + second - minShare)
  within (delta : Rat) : min first minShare ≤ share delta ∧
    min second minShare ≤ first + second - share delta
  along (delta : Rat) : 0 ≤ (share delta - first) * delta ∧ |share delta - first| ≤ |delta|
  free (delta : Rat) : min first minShare ≤ first + delta →
    first + delta ≤ max first (first + second - minShare) → share delta = first + delta
  monotone : Monotone share

theorem followsPulls_pulled (hroom : 2.0 * minShare ≤ first + second) :
    FollowsPulls first second (pulled first second) where
  bounds := pull_bounds_le first second
  within := min_le_pulled (not_lt.2 hroom)
  along := pulled_sub_bounds first second
  free _ hlow hhigh := pulled_eq_add hroom hlow hhigh
  monotone := monotone_pulled first second

/-- Pulling a border changes at most the two shares beside it, and nothing if the distance is no
finite number, if there is no such border, or if the two shares cannot both have the least share.
Otherwise the shares keep their sum and the first of them follows the pull. The one address that
fails is that of a border after a slot of a split whose number no slot can follow. -/
theorem resize_follows_pulls (tree : PaneTree Rat) (path : List Nat) (index : Nat) :
    (∀ {β : Type} [Scalar β] (other : PaneTree β) (delta : β),
      (Scalar.isFinite delta = false → other.resize path index delta = .ok other) ∧
      (other.resize path index delta = .error .indexOverflow ↔
        Scalar.isFinite delta = true ∧ lastIndex ≤ index ∧
          (∃ axis slots, other.nodeAt path = some (split axis slots)) ∧
          (other.shareAt? path (index + 1)).isNone)) ∧
    ((∀ delta, tree.resize path index delta ≠ .error .indexOverflow) →
      ∃ moved : Rat → PaneTree Rat,
        (∀ delta, tree.resize path index delta = .ok (moved delta) ∧
          (moved delta).SameButBorder tree path index) ∧
        ((tree.shareAt? path (index + 1)).isNone → ∀ delta, moved delta = tree) ∧
        ∀ first ∈ tree.shareAt? path index, ∀ second ∈ tree.shareAt? path (index + 1),
          (first + second < 2.0 * minShare → ∀ delta, moved delta = tree) ∧
          (2.0 * minShare ≤ first + second → ∃ share, FollowsPulls first second share ∧
            ∀ delta, (moved delta).shareAt? path index = some (share delta) ∧
              (moved delta).shareAt? path (index + 1) = some (first + second - share delta))) := by
  refine ⟨fun other delta => ⟨fun hinfinite => resize_of_not_finite hinfinite other path index,
    resize_eq_indexOverflow_iff⟩, fun hanswers => ?_⟩
  cases hshare : (tree.shareAt? path (index + 1)).isSome with
  | false =>
    have hnone : (tree.shareAt? path (index + 1)).isNone := by simpa using hshare
    have hwithin : ¬tree.Overruns path index := fun hover =>
      hanswers 0 (resize_eq_indexOverflow_iff.2 ⟨rfl, hover⟩)
    refine ⟨fun _ => tree, fun delta =>
      ⟨resize_of_isNone hnone hwithin delta, .refl tree path index⟩, fun _ _ => rfl,
      fun _ _ second hsecond => ?_⟩
    rw [Option.mem_def.1 hsecond] at hnone
    cases hnone
  | true =>
    obtain ⟨axis, slots, before, first, after, second, hnode, hbefore, hafter⟩ :=
      exists_border hshare
    have hmoves (delta : Rat) := (exists_resize_eq hnode hbefore hafter delta).imp fun _ h => h.1
    choose moved hmoved using hmoves
    refine ⟨moved, fun delta => ⟨hmoved delta, (resize_spec (hmoved delta)).1⟩, ?_, ?_⟩
    · intro hnone
      rw [Option.isNone_iff_eq_none.1 hnone] at hshare
      cases hshare
    · intro one hone two htwo
      rw [shareAt?_of_nodeAt hnode, hbefore] at hone
      rw [shareAt?_of_nodeAt hnode, hafter] at htwo
      obtain rfl : first = one := Option.some.inj hone
      obtain rfl : second = two := Option.some.inj htwo
      refine ⟨fun hnarrow delta => ?_, fun hroom => ?_⟩
      · have hstays : pulled first second delta = first := pulled_of_narrow hnarrow
        have hsame := resize_eq_self hnode hbefore hafter hstays
        exact Except.ok.inj ((hmoved delta).symm.trans hsame)
      · exact ⟨_, followsPulls_pulled hroom, fun delta =>
          shareAt?_pulled hnode hbefore hafter (hmoved delta)⟩

def evenPanes : PaneTree Rat := split .row [(leaf ⟨"a"⟩, 1 / 2), (leaf ⟨"b"⟩, 1 / 2)]

theorem resize_follows_pulls_evenPanes :
    (∀ delta, evenPanes.resize [] 0 delta ≠ .error .indexOverflow) ∧
      ∃ moved, evenPanes.resize [] 0 2 = .ok moved ∧ moved.SameButBorder evenPanes [] 0 ∧
        ∃ share ∈ moved.shareAt? [] 1, minShare ≤ share := by
  obtain ⟨hall, hrest⟩ := resize_follows_pulls evenPanes [] 0
  have hanswers (delta : Rat) : evenPanes.resize [] 0 delta ≠ .error .indexOverflow := fun h =>
    absurd ((hall evenPanes delta).2.1 h).2.1 (by decide)
  obtain ⟨moved, hmoved, -, hpulls⟩ := hrest hanswers
  obtain ⟨-, hroom⟩ := hpulls (1 / 2) rfl (1 / 2) rfl
  obtain ⟨share, hfollows, hshares⟩ := hroom (by decide +kernel)
  obtain ⟨hresized, hsame⟩ := hmoved 2
  refine ⟨hanswers, moved 2, hresized, hsame, _, (hshares 2).2, ?_⟩
  exact le_of_eq_of_le (by decide +kernel) (hfollows.within 2).2

/-- Two panes have no border after the last index, and yet asking for it does not leave them as they
are. -/
theorem not_resize_follows_pulls :
    (evenPanes.shareAt? [] (2 ^ 64 - 1 + 1)).isNone ∧
      evenPanes.resize [] (2 ^ 64 - 1) (1 / 10) = .error .indexOverflow ∧
      ¬∀ (tree : PaneTree Rat) path index delta, (∀ slot ∈ path, slot < 2 ^ 64) → index < 2 ^ 64 →
        (tree.shareAt? path (index + 1)).isNone → tree.resize path index delta = .ok tree := by
  have hnone : (evenPanes.shareAt? [] (2 ^ 64 - 1 + 1)).isNone := rfl
  have hfails : evenPanes.resize [] (2 ^ 64 - 1) (1 / 10) = .error .indexOverflow :=
    resize_eq_indexOverflow_iff.2 ⟨rfl, le_rfl, ⟨.row, _, rfl⟩, hnone⟩
  refine ⟨hnone, hfails, fun hstays => ?_⟩
  have hsame := hstays evenPanes [] (2 ^ 64 - 1) (1 / 10) nofun (by decide) hnone
  exact nomatch hfails.symm.trans hsame

end Resizing

end PaneTiling.PaneTree
