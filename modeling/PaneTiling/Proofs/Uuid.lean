import PaneTiling.Uuid
import Mathlib.Algebra.Ring.Nat

/-!
The text of an identifier is read back as the identifier: the hyphens are told from the digits by
where they stand, and the digits are those of a number below 16 to the power 32.
-/

namespace PaneTiling

theorem mapM_map_eq_some {β γ : Type} {write : β → γ} {read : γ → Option β} {items : List β}
    (h : ∀ item ∈ items, read (write item) = some item) :
    (items.map write).mapM read = some items := by
  induction items with
  | nil => rfl
  | cons item items ih =>
    rw [List.forall_mem_cons] at h
    simp [h.1, ih h.2]

namespace Uuid

theorem ungroup?_of_groups {a b c d e : List Char} (ha : a.length = 8) (hb : b.length = 4)
    (hc : c.length = 4) (hd : d.length = 4) (he : e.length = 12) :
    ungroup? (a ++ '-' :: b ++ '-' :: c ++ '-' :: d ++ '-' :: e) =
      some (a ++ b ++ c ++ d ++ e) := by
  simp [ungroup?, List.drop_append, List.getElem?_append, List.getElem?_cons, ha, hb, hc, hd, he,
    List.take_of_length_le, List.drop_of_length_le]

theorem append_groups {digits : List Char} (h : digits.length = 32) :
    (digits.drop 0).take 8 ++ (digits.drop 8).take 4 ++ (digits.drop 12).take 4 ++
      (digits.drop 16).take 4 ++ (digits.drop 20).take 12 = digits := by
  have hgroup (size start : Nat) :
      (digits.drop start).take size ++ digits.drop (start + size) = digits.drop start := by
    rw [← List.drop_drop, List.take_append_drop]
  have hlast : (digits.drop 20).take 12 = digits.drop 20 := List.take_of_length_le (by simp [h])
  rw [hlast, List.append_assoc, hgroup 4 16, List.append_assoc, hgroup 4 12, List.append_assoc,
    hgroup 4 8, hgroup 8 0, List.drop_zero]

theorem digitOf?_digitChar {d : Nat} (h : d < 16) : digitOf? (Nat.digitChar d) = some d := by
  have hdigits : ∀ d < 16, digitOf? (Nat.digitChar d) = some d := by decide
  exact hdigits d h

theorem foldl_leading {n count taken : Nat} (hn : n < 16 ^ count) (htaken : taken ≤ count) :
    ((List.range taken).map fun i => n / 16 ^ (count - 1 - i) % 16).foldl
      (fun n d => 16 * n + d) 0 = n / 16 ^ (count - taken) := by
  induction taken with
  | zero => simp [Nat.div_eq_of_lt hn]
  | succ taken ih =>
    have hplace : count - taken = (count - 1 - taken) + 1 := by omega
    have hdiv : n / 16 ^ (count - taken) = n / 16 ^ (count - 1 - taken) / 16 := by
      rw [hplace, Nat.pow_succ, Nat.div_div_eq_div_mul]
    rw [List.range_succ, List.map_append, List.foldl_append, ih (by omega), hdiv]
    simp only [List.map_cons, List.map_nil, List.foldl_cons, List.foldl_nil]
    rw [Nat.div_add_mod, show count - (taken + 1) = count - 1 - taken by omega]

theorem length_digits (id : Uuid) : id.digits.length = 32 := by simp [digits]

theorem ofDigits?_digits (id : Uuid) : ofDigits? id.digits = some id := by
  let values := (List.range 32).map fun i => id.value.toNat / 16 ^ (32 - 1 - i) % 16
  have hsmall : ∀ d ∈ values, d < 16 :=
    List.forall_mem_map.2 fun i _ => Nat.mod_lt _ (by decide)
  have hdigits : id.digits = values.map Nat.digitChar := by simp [digits, values]
  have hread : id.digits.mapM digitOf? = some values :=
    hdigits ▸ mapM_map_eq_some fun d hd => digitOf?_digitChar (hsmall d hd)
  have hvalue := foldl_leading (n := id.value.toNat) id.value.isLt (Nat.le_refl 32)
  simp only [ofDigits?, hread, values, Option.bind_eq_bind, Option.bind_some, List.length_map,
    List.length_range, if_true, hvalue]
  rw [Nat.sub_self, Nat.pow_zero, Nat.div_one, BitVec.ofNat_toNat, BitVec.setWidth_eq]

theorem ofString?_text (id : Uuid) : ofString? id.text = some id := by
  have hlength := id.length_digits
  have hungroup := ungroup?_of_groups (a := (id.digits.drop 0).take 8)
    (b := (id.digits.drop 8).take 4) (c := (id.digits.drop 12).take 4)
    (d := (id.digits.drop 16).take 4) (e := (id.digits.drop 20).take 12) (by simp [hlength])
    (by simp [hlength]) (by simp [hlength]) (by simp [hlength]) (by simp [hlength])
  rw [append_groups hlength] at hungroup
  have hgrouped : ofGrouped? id.text.toList = some id := by
    simp only [ofGrouped?, text, String.toList_ofList, hungroup, Option.bind_some,
      ofDigits?_digits]
  have htext : id.text.toList.length = 36 := by simp [text, hlength]
  simp only [ofString?, ofChars?, htext, hgrouped]

end Uuid

end PaneTiling
