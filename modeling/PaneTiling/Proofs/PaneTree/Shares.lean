import Mathlib.Algebra.BigOperators.Ring.List
import Mathlib.Algebra.Order.BigOperators.Group.List
import Mathlib.Algebra.Order.Field.Rat
import Mathlib.Tactic.Linarith
import Mathlib.Tactic.Ring
import PaneTiling.Proofs.PaneTree.Borders

/-!
The shares of a pane tree, read over exact numbers. Halving a share, wrapping a leaf, handing on a
freed share, moving a border and scaling what was saved are five ways to write shares anew; each
keeps them positive and keeps their sum at exactly one, and so does every sequence of edits.
-/

namespace PaneTiling.PaneTree

theorem sum_rat (shares : List Rat) : Scalar.sum shares = shares.sum :=
  List.sum_eq_foldl.symm

theorem abs_rat (x : Rat) : Scalar.abs x = |x| := by
  have habs : Scalar.abs x = if 0 ≤ x then x else -x := rfl
  rw [habs]
  split
  · rename_i hx
    exact (abs_of_nonneg hx).symm
  · rename_i hx
    exact (abs_of_neg (not_le.1 hx)).symm

structure Whole (shares : List Rat) : Prop where
  pos : ∀ share ∈ shares, 0 < share
  sum_eq : shares.sum = 1

/-- Two or more positive parts of about one. -/
structure NearlyWhole (slack : Rat) (shares : List Rat) : Prop where
  two_le : 2 ≤ shares.length
  pos : ∀ share ∈ shares, 0 < share
  sum_near : |shares.sum - 1| ≤ slack

theorem NearlyWhole.mono {slack more : Rat} {shares : List Rat} (h : NearlyWhole slack shares)
    (hle : slack ≤ more) : NearlyWhole more shares :=
  ⟨h.two_le, h.pos, h.sum_near.trans hle⟩

theorem NearlyWhole.sum_pos {slack : Rat} {shares : List Rat} (h : NearlyWhole slack shares) :
    0 < shares.sum := by
  refine List.sum_pos _ h.pos ?_
  rintro rfl
  exact absurd h.two_le (by simp)

theorem Whole.nearly {shares : List Rat} (h : Whole shares) (htwo : 2 ≤ shares.length)
    {slack : Rat} (hslack : 0 ≤ slack) : NearlyWhole slack shares :=
  ⟨htwo, h.pos, by rwa [h.sum_eq, sub_self, abs_zero]⟩

mutual

def Apportioned : PaneTree Rat → Prop
  | leaf _ => True
  | split _ slots => Whole (sharesOf slots) ∧ SlotsApportioned slots

def SlotsApportioned : List (PaneTree Rat × Rat) → Prop
  | [] => True
  | (tree, _) :: rest => tree.Apportioned ∧ SlotsApportioned rest

end

@[simp]
theorem apportioned_leaf (tab : TabId) : (leaf tab).Apportioned := trivial

theorem slotsApportioned_iff {slots : List (PaneTree Rat × Rat)} :
    SlotsApportioned slots ↔ ∀ slot ∈ slots, slot.1.Apportioned := by
  induction slots with
  | nil => simp [SlotsApportioned]
  | cons slot rest ih => simp [SlotsApportioned, ih]

theorem apportioned_split {axis : Axis} {slots : List (PaneTree Rat × Rat)} :
    (split axis slots).Apportioned ↔
      Whole (sharesOf slots) ∧ ∀ slot ∈ slots, slot.1.Apportioned := by
  rw [Apportioned, slotsApportioned_iff]

theorem sharesOf_cons {α : Type} (slot : PaneTree α × α) (rest : List (PaneTree α × α)) :
    sharesOf (slot :: rest) = slot.2 :: sharesOf rest := rfl

theorem sharesOf_set {α : Type} (slots : List (PaneTree α × α)) (index : Nat)
    (slot : PaneTree α × α) : sharesOf (slots.set index slot) = (sharesOf slots).set index slot.2 :=
  List.map_set

section Attaching

theorem apportioned_pair (anchor new : TabId) (side : Side) :
    (pair anchor new side : PaneTree Rat).Apportioned := by
  have hhalves : Whole [(0.5 : Rat), 0.5] := ⟨by norm_num, by norm_num⟩
  unfold pair
  split <;> rw [apportioned_split] <;> exact ⟨hhalves, by simp⟩

/-- Shares that add up to as much as others, and are positive if the others are. -/
def Regroups (more shares : List Rat) : Prop :=
  more.sum = shares.sum ∧ ((∀ share ∈ shares, 0 < share) → ∀ share ∈ more, 0 < share)

theorem Whole.regroup {more shares : List Rat} (h : Whole shares) (hmore : Regroups more shares) :
    Whole more := ⟨hmore.2 h.pos, hmore.1.trans h.sum_eq⟩

theorem Regroups.cons {more shares : List Rat} (h : Regroups more shares) (share : Rat) :
    Regroups (share :: more) (share :: shares) := by
  refine ⟨by rw [List.sum_cons, List.sum_cons, h.1], fun hpos => ?_⟩
  rw [List.forall_mem_cons] at hpos ⊢
  exact ⟨hpos.1, h.2 hpos.2⟩

theorem half_add_half (share : Rat) : share / 2.0 + share / 2.0 = share := by norm_num

theorem regroups_halves (share : Rat) (rest : List Rat) :
    Regroups (share / 2.0 :: share / 2.0 :: rest) (share :: rest) := by
  refine ⟨?_, fun hpos => ?_⟩
  · rw [List.sum_cons, List.sum_cons, List.sum_cons, ← add_assoc, half_add_half]
  · rw [List.forall_mem_cons] at hpos
    have hhalf : 0 < share / 2.0 := div_pos hpos.1 (by norm_num)
    rw [List.forall_mem_cons, List.forall_mem_cons]
    exact ⟨hhalf, hhalf, hpos.2⟩

mutual

theorem apportioned_attach {anchor new : TabId} {side : Side} :
    {tree grown : PaneTree Rat} → attach anchor new side tree = some grown → tree.Apportioned →
      grown.Apportioned
  | leaf tab, grown, h, _ => by
    simp only [attach] at h
    split at h <;> cases h
    exact apportioned_pair anchor new side
  | split axis slots, grown, h, htree => by
    simp only [attach, Option.map_eq_some_iff] at h
    obtain ⟨more, hmore, rfl⟩ := h
    rw [apportioned_split] at htree ⊢
    obtain ⟨hshares, hslots⟩ := apportioned_attachSlot hmore htree.2
    exact ⟨htree.1.regroup hshares, hslots⟩

theorem apportioned_attachSlot {anchor new : TabId} {side : Side} {axis : Axis} :
    {slots more : List (PaneTree Rat × Rat)} → attachSlot anchor new side axis slots = some more →
      (∀ slot ∈ slots, slot.1.Apportioned) →
        Regroups (sharesOf more) (sharesOf slots) ∧ ∀ slot ∈ more, slot.1.Apportioned
  | [], _, h, _ => by simp [attachSlot] at h
  | (tree, share) :: rest, more, h, hslots => by
    rw [List.forall_mem_cons] at hslots
    simp only [attachSlot] at h
    split at h
    · split at h <;> cases h
      · refine ⟨regroups_halves share (sharesOf rest), ?_⟩
        simpa using hslots
      · refine ⟨regroups_halves share (sharesOf rest), ?_⟩
        simpa using hslots
    split at h
    · rename_i grown hgrown
      cases h
      refine ⟨⟨rfl, id⟩, List.forall_mem_cons.2 ⟨?_, hslots.2⟩⟩
      exact apportioned_attach hgrown hslots.1
    · obtain ⟨more, hmore, rfl⟩ := Option.map_eq_some_iff.1 h
      obtain ⟨hshares, hmore⟩ := apportioned_attachSlot hmore hslots.2
      exact ⟨hshares.cons share, List.forall_mem_cons.2 ⟨hslots.1, hmore⟩⟩

end

theorem apportioned_insert {root : Option (PaneTree Rat)} {anchor new : TabId} {side : Side}
    {tree : PaneTree Rat} (hroot : ∀ old ∈ root, old.Apportioned)
    (h : insert root anchor new side = some tree) : tree.Apportioned := by
  unfold insert at h
  split at h
  · cases h
  cases root with
  | none =>
    cases h
    exact apportioned_pair anchor new side
  | some old =>
    simp only at h
    split at h
    · cases h
    · exact apportioned_attach h (hroot old rfl)

end Attaching

section Detaching

theorem whole_scaled {shares : List Rat} {total : Rat} (hpos : ∀ share ∈ shares, 0 < share)
    (htotal : 0 < total) (hsum : shares.sum = total) : Whole (shares.map (· / total)) := by
  refine ⟨fun share hshare => ?_, ?_⟩
  · obtain ⟨old, hold, rfl⟩ := List.mem_map.1 hshare
    exact div_pos (hpos old hold) htotal
  · simp only [div_eq_mul_inv]
    rw [List.sum_map_mul_right, List.map_id', hsum, mul_inv_cancel₀ htotal.ne']

theorem whole_even {count : Nat} (h : count ≠ 0) :
    Whole (List.replicate count (1 / (count : Rat))) := by
  have hcount : (0 : Rat) < count := by exact_mod_cast Nat.pos_of_ne_zero h
  refine ⟨fun share hshare => ?_, ?_⟩
  · rw [List.eq_of_mem_replicate hshare]
    exact div_pos one_pos hcount
  · rw [List.sum_replicate, nsmul_eq_mul, mul_one_div_cancel hcount.ne']

theorem sharesOf_redistribute {freed : Rat} {slots : List (PaneTree Rat × Rat)}
    (h : roomThreshold < 1 - freed) :
    sharesOf (redistribute freed slots) = (sharesOf slots).map (· / (1 - freed)) := by
  simp [redistribute, h, sharesOf, div_eq_mul_inv]

theorem sharesOf_redistribute_even {freed : Rat} {slots : List (PaneTree Rat × Rat)}
    (h : ¬roomThreshold < 1 - freed) :
    sharesOf (redistribute freed slots) =
      List.replicate slots.length (1 / (slots.length : Rat)) := by
  simp only [redistribute, if_neg h, sharesOf, List.map_map]
  exact List.map_const'

theorem roomThreshold_nonneg : (0 : Rat) ≤ roomThreshold := by norm_num [roomThreshold]

theorem whole_redistribute {freed : Rat} {slots : List (PaneTree Rat × Rat)} (hne : slots ≠ [])
    (hpos : ∀ share ∈ sharesOf slots, 0 < share) (hsum : freed + (sharesOf slots).sum = 1) :
    Whole (sharesOf (redistribute freed slots)) := by
  have hremaining : (sharesOf slots).sum = 1 - freed := by linarith
  by_cases hroom : roomThreshold < 1 - freed
  · rw [sharesOf_redistribute hroom]
    exact whole_scaled hpos (roomThreshold_nonneg.trans_lt hroom) hremaining
  · rw [sharesOf_redistribute_even hroom]
    exact whole_even (by simpa using hne)

mutual

theorem apportioned_detach {tab : TabId} :
    {tree rest : PaneTree Rat} → detach tab tree = some rest → tree.Branching 2 →
      tree.Apportioned → rest.Apportioned
  | leaf _, _, h, _, _ => by simp [detach] at h
  | split axis slots, rest, h, hbranching, htree => by
    simp only [detach, Option.map_eq_some_iff] at h
    obtain ⟨left, hleft, rfl⟩ := h
    rw [branching_split] at hbranching
    rw [apportioned_split] at htree ⊢
    obtain ⟨hshares, hslots⟩ := apportioned_vacate hleft hbranching.2 htree.2
    have hcount := (branching_vacate hleft hbranching.2).1
    unfold Vacated.settled
    split
    · rename_i share hfreed
      rw [hfreed] at hshares
      have hsum : share + (sharesOf left.slots).sum = 1 := by
        rw [← htree.1.sum_eq, hshares.sum_eq, Option.toList_some, List.singleton_append,
          List.sum_cons]
      have hpos : ∀ part ∈ sharesOf left.slots, 0 < part := fun part hpart =>
        htree.1.pos part (hshares.mem_iff.2 (List.mem_cons_of_mem _ hpart))
      have hne : left.slots ≠ [] := by
        rintro hnil
        rw [hnil, List.length_nil] at hcount
        omega
      exact ⟨whole_redistribute hne hpos hsum, forall_mem_redistribute.2 hslots⟩
    · rename_i hfreed
      rw [hfreed] at hshares
      refine ⟨⟨fun part hpart => htree.1.pos part (hshares.mem_iff.2 hpart), ?_⟩, hslots⟩
      rw [← htree.1.sum_eq, hshares.sum_eq]
      rfl

theorem apportioned_vacate {tab : TabId} :
    {slots : List (PaneTree Rat × Rat)} → {left : Vacated Rat} → vacate tab slots = some left →
      (∀ slot ∈ slots, slot.1.Branching 2) → (∀ slot ∈ slots, slot.1.Apportioned) →
        (sharesOf slots).Perm (left.freed.toList ++ sharesOf left.slots) ∧
          ∀ slot ∈ left.slots, slot.1.Apportioned
  | [], _, h, _, _ => by simp [vacate] at h
  | (tree, share) :: rest, left, h, hbranching, hslots => by
    rw [List.forall_mem_cons] at hbranching hslots
    simp only [vacate] at h
    split at h
    · cases h
      exact ⟨.refl _, hslots.2⟩
    split at h
    · rename_i shrunk hshrunk
      cases h
      refine ⟨.refl _, List.forall_mem_cons.2 ⟨?_, hslots.2⟩⟩
      exact apportioned_detach hshrunk hbranching.1 hslots.1
    · obtain ⟨left, hleft, rfl⟩ := Option.map_eq_some_iff.1 h
      obtain ⟨hshares, hleft⟩ := apportioned_vacate hleft hbranching.2 hslots.2
      refine ⟨?_, List.forall_mem_cons.2 ⟨hslots.1, hleft⟩⟩
      rw [sharesOf_cons, sharesOf_cons]
      exact (hshares.cons share).trans List.perm_middle.symm

end

theorem sharesOf_collapseSlots {α : Type} (slots : List (PaneTree α × α)) :
    sharesOf (collapseSlots slots) = sharesOf slots := by
  induction slots with
  | nil => rfl
  | cons slot rest ih => rw [collapseSlots, sharesOf_cons, sharesOf_cons, ih]

mutual

theorem apportioned_collapse : {tree : PaneTree Rat} → tree.Apportioned → tree.collapse.Apportioned
  | leaf tab, _ => by simp [collapse]
  | split axis slots, h => by
    rw [apportioned_split] at h
    have hslots := apportioned_collapseSlots h.2
    simp only [collapse]
    split
    · rename_i only share hkept
      exact hslots (only, share) (by simp [hkept])
    · rw [apportioned_split, sharesOf_collapseSlots]
      exact ⟨h.1, hslots⟩

theorem apportioned_collapseSlots :
    {slots : List (PaneTree Rat × Rat)} → (∀ slot ∈ slots, slot.1.Apportioned) →
      ∀ slot ∈ collapseSlots slots, slot.1.Apportioned
  | [], _ => by simp [collapseSlots]
  | (tree, share) :: rest, h => by
    simp only [collapseSlots, List.forall_mem_cons] at h ⊢
    exact ⟨apportioned_collapse h.1, apportioned_collapseSlots h.2⟩

end

theorem apportioned_removed {tree rest : PaneTree Rat} {tab : TabId} (hshaped : tree.Shaped)
    (htree : tree.Apportioned) (hrest : tree.removeLeaf tab = .removed rest) :
    rest.Apportioned := by
  obtain ⟨-, left, hleft, rfl⟩ := removeLeaf_eq_removed hrest
  exact apportioned_collapse (apportioned_detach hleft hshaped.branching htree)

theorem apportioned_remove {tree rest : PaneTree Rat} {tab : TabId} (hshaped : tree.Shaped)
    (htree : tree.Apportioned) (hrest : tree.remove tab = some rest) : rest.Apportioned := by
  unfold PaneTree.remove at hrest
  split at hrest <;> cases hrest
  · rename_i hremoved
    exact apportioned_removed hshaped htree hremoved
  · exact htree

end Detaching

section Resizing

theorem clamp_mem {x lo hi : Rat} (h : lo ≤ hi) :
    lo ≤ Scalar.clamp x lo hi ∧ Scalar.clamp x lo hi ≤ hi := by
  have hraised : lo ≤ if x < lo then lo else x := by
    split
    · exact le_refl lo
    · rename_i hx
      exact not_lt.1 hx
  simp only [Scalar.clamp]
  generalize (if x < lo then lo else x) = raised at hraised
  split
  · exact ⟨h, le_refl hi⟩
  · rename_i hhi
    exact ⟨hraised, not_lt.1 hhi⟩

theorem exists_moveBorder_pos {first second : Rat} (hfirst : 0 < first) (hsecond : 0 < second)
    (delta : Rat) :
    ∃ moved : Rat × Rat, moveBorder first second delta = .ok moved ∧ 0 < moved.1 ∧ 0 < moved.2 ∧
      moved.1 + moved.2 = first + second := by
  have hmin : (0 : Rat) < minShare := by norm_num [minShare]
  unfold moveBorder
  simp only
  split
  · exact ⟨_, rfl, hfirst, hsecond, rfl⟩
  have hlower : 0 < min first minShare := lt_min hfirst hmin
  have hupper : max first (first + second - minShare) < first + second :=
    max_lt (by linarith) (by linarith)
  have hbounds : min first minShare ≤ max first (first + second - minShare) :=
    (min_le_left _ _).trans (le_max_left _ _)
  rw [if_pos hbounds]
  obtain ⟨hlow, hhigh⟩ := clamp_mem (x := first + delta) hbounds
  exact ⟨_, rfl, hlower.trans_le hlow, sub_pos.2 (hhigh.trans_lt hupper), by ring⟩

theorem regroups_set_pair {shares : List Rat} {index : Nat} {first second a b : Rat}
    (hfirst : shares[index]? = some first) (hsecond : shares[index + 1]? = some second)
    (ha : 0 < a) (hb : 0 < b) (hsum : a + b = first + second) :
    Regroups ((shares.set index a).set (index + 1) b) shares := by
  induction shares generalizing index with
  | nil => cases hfirst
  | cons share rest ih =>
    cases index with
    | zero =>
      cases hfirst
      obtain ⟨others, rfl⟩ := List.head?_eq_some_iff.1 (List.head?_eq_getElem?.trans hsecond)
      refine ⟨?_, fun hpos => ?_⟩
      · simp only [List.set_cons_zero, List.set_cons_succ, List.sum_cons]
        linarith
      · simp only [List.set_cons_zero, List.set_cons_succ, List.forall_mem_cons] at hpos ⊢
        exact ⟨ha, hb, hpos.2.2⟩
    | succ index => exact (ih hfirst hsecond).cons share

theorem apportioned_resizeSlots {slots more : List (PaneTree Rat × Rat)} {index : Nat}
    {delta : Rat} (hwhole : Whole (sharesOf slots)) (hslots : ∀ slot ∈ slots, slot.1.Apportioned)
    (h : resizeSlots slots index delta = .ok more) :
    Whole (sharesOf more) ∧ ∀ slot ∈ more, slot.1.Apportioned := by
  rcases resizeSlots_cases h with
    ⟨before, first, after, second, shares, hbefore, hafter, hshares, rfl⟩ | ⟨-, rfl⟩
  · have hfirst : (sharesOf slots)[index]? = some first := by simp [sharesOf, hbefore]
    have hsecond : (sharesOf slots)[index + 1]? = some second := by simp [sharesOf, hafter]
    obtain ⟨moved, hmoved, ha, hb, hsum⟩ := exists_moveBorder_pos
      (hwhole.pos first (List.mem_of_getElem? hfirst))
      (hwhole.pos second (List.mem_of_getElem? hsecond)) delta
    cases hshares.symm.trans hmoved
    refine ⟨?_, fun slot hslot => ?_⟩
    · rw [sharesOf_set, sharesOf_set]
      exact hwhole.regroup (regroups_set_pair hfirst hsecond ha hb hsum)
    · rcases List.mem_or_eq_of_mem_set hslot with hslot | rfl
      · rcases List.mem_or_eq_of_mem_set hslot with hslot | rfl
        · exact hslots slot hslot
        · exact hslots (before, first) (List.mem_of_getElem? hbefore)
      · exact hslots (after, second) (List.mem_of_getElem? hafter)
  · exact ⟨hwhole, hslots⟩

theorem Rewrites.apportioned {old new tree edited : PaneTree Rat} {path : List Nat}
    (h : Rewrites old new path tree edited) (htree : tree.Apportioned) (hnew : new.Apportioned) :
    edited.Apportioned := by
  induction h with
  | here => exact hnew
  | @within axis slots index path tree edited share hslot _ ih =>
    rw [apportioned_split] at htree ⊢
    rw [sharesOf_set_tree hslot]
    refine ⟨htree.1, fun found hfound => ?_⟩
    rcases List.mem_or_eq_of_mem_set hfound with hfound | rfl
    · exact htree.2 found hfound
    · exact ih (htree.2 (tree, share) (List.mem_of_getElem? hslot))

theorem Apportioned.nodeAt {tree node : PaneTree Rat} {path : List Nat} (h : tree.Apportioned)
    (hnode : tree.nodeAt path = some node) : node.Apportioned :=
  nodeAt_inherits (fun _ _ hsplit => (apportioned_split.1 hsplit).2) h hnode

theorem Apportioned.resize {tree moved : PaneTree Rat} {path : List Nat} {index : Nat}
    {delta : Rat} (htree : tree.Apportioned) (h : tree.resize path index delta = .ok moved) :
    moved.Apportioned := by
  rcases resize_cases h with ⟨axis, slots, more, -, hmore, hrewrites⟩ | ⟨rfl, -⟩
  · have hsplit := apportioned_split.1 (htree.nodeAt hrewrites.nodeAt_old)
    have hnew := apportioned_resizeSlots hsplit.1 hsplit.2 hmore
    exact hrewrites.apportioned htree (apportioned_split.2 hnew)
  · exact htree

theorem boundsOrdered_rat : BoundsOrdered Rat := fun x y z =>
  le_trans (min_le_left x y) (le_max_left x z)

end Resizing

section Accepting

theorem checkShares_eq_ok_iff {shares : List Rat} {total : Rat} :
    checkShares shares = .ok total ↔ NearlyWhole 1e-6 shares ∧ total = shares.sum := by
  unfold checkShares
  split
  · rename_i hcount
    refine iff_of_false (by rintro ⟨⟩) fun h => ?_
    have htwo := h.1.two_le
    omega
  rename_i hcount
  split
  · rename_i bad hbad
    have hle : bad ≤ 0 := by simpa [Scalar.isFinite] using List.find?_some hbad
    refine iff_of_false (by rintro ⟨⟩) fun h => ?_
    exact absurd (h.1.pos bad (List.mem_of_find?_eq_some hbad)) (not_lt.2 hle)
  rename_i hfine
  have hpos : ∀ share ∈ shares, 0 < share := fun share hshare => by
    simpa [Scalar.isFinite] using List.find?_eq_none.1 hfine share hshare
  simp only [sum_rat, abs_rat]
  split
  · rename_i hfar
    exact iff_of_false (by rintro ⟨⟩) fun h => absurd h.1.sum_near (not_le.2 hfar)
  · rename_i hnear
    rw [Except.ok.injEq, eq_comm]
    exact (and_iff_right ⟨not_lt.1 hcount, hpos, not_lt.1 hnear⟩).symm

mutual

theorem apportioned_normalise :
    {saved tree : PaneTree Rat} → saved.normalise = .ok tree → tree.Apportioned
  | leaf tab, tree, h => by
    cases h
    trivial
  | split axis slots, tree, h => by
    rw [normalise] at h
    obtain ⟨total, htotal, h⟩ := bind_ok h
    obtain ⟨scaled, hscaled, h⟩ := bind_ok h
    cases h
    obtain ⟨hnear, rfl⟩ := checkShares_eq_ok_iff.1 htotal
    obtain ⟨hshares, hslots⟩ := apportioned_normaliseSlots hscaled
    rw [apportioned_split, hshares]
    exact ⟨whole_scaled hnear.pos hnear.sum_pos rfl, hslots⟩

theorem apportioned_normaliseSlots {total : Rat} :
    {slots scaled : List (PaneTree Rat × Rat)} → normaliseSlots total slots = .ok scaled →
      sharesOf scaled = (sharesOf slots).map (· / total) ∧ ∀ slot ∈ scaled, slot.1.Apportioned
  | [], scaled, h => by
    cases h
    exact ⟨rfl, by simp⟩
  | (tree, share) :: rest, scaled, h => by
    rw [normaliseSlots] at h
    obtain ⟨first, hfirst, h⟩ := bind_ok h
    obtain ⟨others, hothers, h⟩ := bind_ok h
    cases h
    obtain ⟨hshares, hslots⟩ := apportioned_normaliseSlots hothers
    rw [sharesOf_cons, sharesOf_cons, hshares, List.map_cons]
    exact ⟨rfl, List.forall_mem_cons.2 ⟨apportioned_normalise hfirst, hslots⟩⟩

end

theorem apportioned_accept {saved tree : PaneTree Rat} {restored : List TabId}
    (h : saved.accept restored = .ok tree) : tree.Apportioned := by
  unfold accept at h
  obtain ⟨_, -, h⟩ := bind_ok h
  split at h
  · obtain ⟨_, hthrow, -⟩ := bind_ok h
    cases hthrow
  · exact apportioned_normalise h

end Accepting

/-- The trees that come from a first split or from an accepted saved tree by edits that succeed and
leave a tree. -/
inductive Grown : PaneTree Rat → Prop
  | opened {anchor new : TabId} {side : Side} {tree : PaneTree Rat}
    (h : insert none anchor new side = some tree) : Grown tree
  | accepted {saved tree : PaneTree Rat} {restored : List TabId}
    (h : saved.accept restored = .ok tree) : Grown tree
  | inserted {tree grown : PaneTree Rat} {anchor new : TabId} {side : Side} (htree : Grown tree)
    (h : insert (some tree) anchor new side = some grown) : Grown grown
  | removed {tree rest : PaneTree Rat} {tab : TabId} (htree : Grown tree)
    (h : tree.remove tab = some rest) : Grown rest
  | resized {tree moved : PaneTree Rat} {path : List Nat} {index : Nat} {delta : Rat}
    (htree : Grown tree) (h : tree.resize path index delta = .ok moved) : Grown moved

theorem Grown.shaped_apportioned {tree : PaneTree Rat} (h : Grown tree) :
    tree.Shaped ∧ tree.Apportioned := by
  induction h with
  | opened h => exact ⟨.insert (by simp) h, apportioned_insert (by simp) h⟩
  | accepted h => exact ⟨(shaped_of_accept h).1, apportioned_accept h⟩
  | inserted _ h ih =>
    refine ⟨.insert ?_ h, apportioned_insert ?_ h⟩
    · rintro _ ⟨⟩
      exact ih.1
    · rintro _ ⟨⟩
      exact ih.2
  | removed _ h ih => exact ⟨(ih.1.remove h).1, apportioned_remove ih.1 ih.2 h⟩
  | resized _ h ih => exact ⟨ih.1.of_outline_eq (outline_resize h), ih.2.resize h⟩

/-- Whatever edits a tree has been through, it has two to four distinct leaves, every split has two
slots or more, and the shares of every split are positive and add up to exactly one; and any border
of it may be moved once more. -/
theorem Grown.shares_sum_to_one {tree : PaneTree Rat} (h : Grown tree) :
    (2 ≤ tree.leafCount ∧ tree.leafCount ≤ 4 ∧ tree.tabIds.Nodup) ∧ tree.Branching 2 ∧
      tree.Apportioned ∧
      ∀ path index, index < lastIndex → ∀ delta,
        ∃ moved, tree.resize path index delta = .ok moved ∧ Grown moved := by
  obtain ⟨hshaped, hshares⟩ := h.shaped_apportioned
  rw [← length_tabIds]
  refine ⟨⟨hshaped.two_le, hshaped.le_max, hshaped.nodup⟩, hshaped.branching, hshares, ?_⟩
  intro path index hindex delta
  obtain ⟨moved, hmoved⟩ := exists_resize boundsOrdered_rat (not_overruns hindex) delta
  exact ⟨moved, hmoved, h.resized hmoved⟩

def threePanes : PaneTree Rat :=
  split .row [(leaf ⟨"d"⟩, 7 / 20), (leaf ⟨"a"⟩, 7 / 20), (leaf ⟨"c"⟩, 3 / 10)]

theorem grown_threePanes : Grown threePanes := by
  have hopened : Grown (split .row [(leaf ⟨"a"⟩, 1 / 2), (leaf ⟨"b"⟩, 1 / 2)]) :=
    .opened (show insert none ⟨"a"⟩ ⟨"b"⟩ .right = _ by decide +kernel)
  have hwrapped : Grown (split .row [(leaf ⟨"a"⟩, 1 / 2),
      (split .col [(leaf ⟨"b"⟩, 1 / 2), (leaf ⟨"c"⟩, 1 / 2)], 1 / 2)]) :=
    hopened.inserted (show insert _ ⟨"b"⟩ ⟨"c"⟩ .bottom = _ by decide +kernel)
  have hmoved : Grown (split .row [(leaf ⟨"a"⟩, 7 / 10),
      (split .col [(leaf ⟨"b"⟩, 1 / 2), (leaf ⟨"c"⟩, 1 / 2)], 3 / 10)]) :=
    hwrapped.resized (ok_of_toOption (show (resize _ [] 0 (1 / 5)).toOption = _ by decide +kernel))
  have hhalved : Grown (split .row [(leaf ⟨"d"⟩, 7 / 20), (leaf ⟨"a"⟩, 7 / 20),
      (split .col [(leaf ⟨"b"⟩, 1 / 2), (leaf ⟨"c"⟩, 1 / 2)], 3 / 10)]) :=
    hmoved.inserted (show insert _ ⟨"a"⟩ ⟨"d"⟩ .left = _ by decide +kernel)
  exact hhalved.removed (show remove _ ⟨"b"⟩ = _ by decide +kernel)

theorem shares_sum_to_one_threePanes :
    Grown threePanes ∧
      (2 ≤ threePanes.leafCount ∧ threePanes.leafCount ≤ 4 ∧ threePanes.tabIds.Nodup) ∧
      threePanes.Branching 2 ∧ threePanes.Apportioned ∧
      ∀ path index, index < lastIndex → ∀ delta,
        ∃ moved, threePanes.resize path index delta = .ok moved ∧ Grown moved :=
  ⟨grown_threePanes, grown_threePanes.shares_sum_to_one⟩

end PaneTiling.PaneTree
