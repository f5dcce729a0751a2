import PaneTiling.Proofs.PaneTree.Acceptance
import PaneTiling.Proofs.Decimal.Rendering
import PaneTiling.Proofs.Json.Reading
import PaneTiling.Proofs.Uuid

/-!
Pane trees in documents. A tree whose shares are read back from their texts is read back from its
value, as long as its splits are not nested so deep that the value is refused; each split takes
three levels of arrays and objects.
-/

namespace PaneTiling

namespace PaneTree

section Nesting

variable {α : Type}

mutual

def nesting : PaneTree α → Nat
  | leaf _ => 0
  | split _ slots => slotNesting slots + 1

def slotNesting : List (PaneTree α × α) → Nat
  | [] => 0
  | (tree, _) :: rest => max tree.nesting (slotNesting rest)

end

theorem nesting_le_slotNesting {slots : List (PaneTree α × α)} {slot : PaneTree α × α}
    (h : slot ∈ slots) : slot.1.nesting ≤ slotNesting slots := by
  induction slots with
  | nil => cases h
  | cons first rest ih =>
    rw [slotNesting]
    rcases List.mem_cons.1 h with rfl | hrest
    · exact Nat.le_max_left _ _
    · exact Nat.le_trans (ih hrest) (Nat.le_max_right _ _)

theorem slotNesting_add_length_le {slots : List (PaneTree α × α)}
    (h : ∀ slot ∈ slots, slot.1.nesting + 1 ≤ slot.1.leafCount) :
    slotNesting slots + slots.length ≤ slotLeafCount slots := by
  induction slots with
  | nil => exact Nat.le_refl 0
  | cons slot rest ih =>
    obtain ⟨hslot, hrest⟩ := List.forall_mem_cons.1 h
    have hslots := ih hrest
    simp only [slotNesting, slotLeafCount, List.length_cons]
    omega

theorem nesting_lt_leafCount {tree : PaneTree α} (h : tree.Branching 2) :
    tree.nesting + 1 ≤ tree.leafCount := by
  induction tree using PaneTree.induction with
  | leaf tab => exact Nat.le_refl 1
  | split axis slots ih =>
    rw [branching_split] at h
    have hslots := slotNesting_add_length_le fun slot hslot => ih slot hslot (h.2 slot hslot)
    rw [nesting, leafCount]
    omega

end Nesting

def slotToJson (slot : PaneTree Float × Float) : Json :=
  .object [(some "pane", slot.1.toJson),
    (some "ratio", .number (Decimal.Style.session.render slot.2))]

theorem slotsToJson_eq_map (slots : List (PaneTree Float × Float)) :
    slotsToJson slots = slots.map slotToJson := by
  induction slots with
  | nil => rfl
  | cons slot rest ih => rw [slotsToJson, ih, List.map_cons, slotToJson]

/-- The shares of every split are found again in their texts. -/
def ReadsBack (tree : PaneTree Float) : Prop :=
  tree.EverySplit fun shares => ∀ share ∈ shares, Decimal.ReadsBack share

theorem readsBack_split {axis : Axis} {slots : List (PaneTree Float × Float)} :
    (split axis slots).ReadsBack ↔
      ∀ slot ∈ slots, Decimal.ReadsBack slot.2 ∧ slot.1.ReadsBack := by
  rw [ReadsBack, everySplit_split, sharesOf, List.forall_mem_map, ← forall₂_and]
  rfl

theorem node?_leaf (tab : TabId) (room : Nat) :
    Json.node? (room + 1) (leaf tab).toJson = some (leaf tab) := by
  have hrecord : (leaf tab).toJson.record ["tab_id"] = some [some (.string tab.text)] := by
    simp [toJson, Json.record]
  rw [toJson] at hrecord ⊢
  simp only [Json.node?, hrecord]

theorem axis?_axisText (axis : Axis) : (Json.string (axisText axis)).axis? = some axis := by
  cases axis <;> rfl

theorem node?_split (axis : Axis) (slots : List (PaneTree Float × Float)) (room : Nat)
    (h : ∀ slot ∈ slots, Json.node? room slot.1.toJson = some slot.1 ∧
      Decimal.ReadsBack slot.2) :
    Json.node? (room + 1) (split axis slots).toJson = some (split axis slots) := by
  have hleaf : (split axis slots).toJson.record ["tab_id"] = some [none] := by
    simp [toJson, Json.record]
  have hsplit : (split axis slots).toJson.record ["direction", "children"] =
      some [some (.string (axisText axis)), some (.array (slots.map slotToJson))] := by
    simp [toJson, Json.record, slotsToJson_eq_map]
  rw [toJson] at hleaf hsplit ⊢
  simp only [Json.node?, hleaf, hsplit, Option.bind_eq_bind, Option.bind_some, axis?_axisText,
    Json.items?]
  rw [mapM_map_eq_some fun slot hslot => ?_]
  · rfl
  · obtain ⟨hpane, hshare⟩ := h slot hslot
    rw [Decimal.ReadsBack] at hshare
    simp [slotToJson, Json.record, hpane, hshare]

theorem node?_toJson {tree : PaneTree Float} (h : tree.ReadsBack) {room : Nat}
    (hroom : tree.nesting < room) : Json.node? room tree.toJson = some tree := by
  induction tree using PaneTree.induction generalizing room with
  | leaf tab =>
    obtain ⟨room, rfl⟩ := Nat.exists_eq_add_of_lt hroom
    exact node?_leaf tab _
  | split axis slots ih =>
    obtain ⟨room, rfl⟩ := Nat.exists_eq_add_of_lt hroom
    rw [readsBack_split] at h
    refine node?_split axis slots _ fun slot hslot => ⟨?_, (h slot hslot).1⟩
    have hdeep := nesting_le_slotNesting hslot
    refine ih slot hslot (h slot hslot).2 ?_
    rw [nesting]
    omega

theorem itemsSound_iff {items : List Json} :
    Json.itemsSound items = true ↔ ∀ item ∈ items, item.isSound = true := by
  induction items with
  | nil => simp [Json.itemsSound]
  | cons item rest ih => simp [Json.itemsSound, ih]

theorem isSound_toJson {tree : PaneTree Float} (h : tree.ReadsBack) :
    tree.toJson.isSound = true := by
  induction tree using PaneTree.induction with
  | leaf tab => rfl
  | split axis slots ih =>
    rw [readsBack_split] at h
    have hslots : Json.itemsSound (slots.map slotToJson) = true := by
      rw [itemsSound_iff, List.forall_mem_map]
      intro slot hslot
      obtain ⟨hshare, htree⟩ := h slot hslot
      rw [Decimal.ReadsBack] at hshare
      simp [slotToJson, Json.isSound, Json.fieldsSound, ih slot hslot htree, hshare]
    simp [toJson, Json.isSound, Json.fieldsSound, slotsToJson_eq_map, hslots]

theorem itemsDepth_le {items : List Json} {bound : Nat} (h : ∀ item ∈ items, item.depth ≤ bound) :
    Json.itemsDepth items ≤ bound := by
  induction items with
  | nil => exact Nat.zero_le bound
  | cons item rest ih =>
    obtain ⟨hitem, hrest⟩ := List.forall_mem_cons.1 h
    exact Nat.max_le.2 ⟨hitem, ih hrest⟩

theorem depth_toJson_le (tree : PaneTree Float) : tree.toJson.depth ≤ 3 * tree.nesting + 1 := by
  induction tree using PaneTree.induction with
  | leaf tab => exact Nat.le_refl 1
  | split axis slots ih =>
    have hslots : Json.itemsDepth (slots.map slotToJson) ≤ 3 * slotNesting slots + 2 := by
      refine itemsDepth_le (List.forall_mem_map.2 fun slot hslot => ?_)
      have htree := ih slot hslot
      have hnesting := nesting_le_slotNesting hslot
      simp only [slotToJson, Json.depth, Json.fieldsDepth]
      omega
    simp only [toJson, Json.depth, Json.fieldsDepth, slotsToJson_eq_map, nesting]
    omega

theorem paneTree?_toJson {tree : PaneTree Float} (h : tree.ReadsBack) (hdeep : tree.nesting ≤ 41) :
    Json.paneTree? tree.toJson = some tree := by
  have hdepth := depth_toJson_le tree
  have hfits : tree.toJson.depth + 3 ≤ Json.maxDepth := by
    rw [Json.maxDepth]
    omega
  have hroom : tree.nesting < Json.maxDepth := by
    rw [Json.maxDepth]
    omega
  rw [Json.paneTree?, if_pos ⟨isSound_toJson h, hfits⟩, node?_toJson h hroom]

theorem printable_toJson {tree : PaneTree Float} (h : tree.ReadsBack) : tree.toJson.Printable := by
  induction tree using PaneTree.induction with
  | leaf tab => simp [toJson, Json.Printable, Json.FieldsPrintable]
  | split axis slots ih =>
    rw [readsBack_split] at h
    have hslots : Json.ItemsPrintable (slots.map slotToJson) := by
      rw [Json.itemsPrintable_iff, List.forall_mem_map]
      intro slot hslot
      obtain ⟨hshare, htree⟩ := h slot hslot
      have hnumber := Decimal.isNumber_render hshare
      simp [slotToJson, Json.Printable, Json.FieldsPrintable, ih slot hslot htree, hnumber]
    simp [toJson, Json.Printable, Json.FieldsPrintable, slotsToJson_eq_map, hslots]

end PaneTree

end PaneTiling
