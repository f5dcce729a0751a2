import Mathlib.Algebra.Field.Rat
import Mathlib.Algebra.Order.Field.Basic
import Mathlib.Algebra.Order.Ring.Rat
import Mathlib.Tactic.Linarith
import Mathlib.Tactic.Ring
import PaneTiling.Decimal.Style

/-!
Numbers to one decimal place. The text of a finite number stands for the multiple of a tenth that is
nearest to it, and of two that are equally near for the even one.
-/

namespace PaneTiling.Decimal

/-- A whole number nearest to a rational one, the even one if there are two. -/
structure NearestEven (q : Rat) (n : Nat) : Prop where
  near : |q - n| ≤ 1 / 2
  even : |q - n| = 1 / 2 → Even n

theorem nearestEven_roundDiv (num : Nat) {den : Nat} (hden : 0 < den) :
    NearestEven (num / den) (roundDiv num den) := by
  have hpos : (0 : Rat) < den := Nat.cast_pos.2 hden
  have hsplit : (num : Rat) / den = (num / den : Nat) + (num % den : Nat) / (den : Rat) := by
    have hnum : ((den * (num / den) + num % den : Nat) : Rat) = num :=
      congrArg Nat.cast (Nat.div_add_mod num den)
    rw [eq_comm, ← hnum, Nat.cast_add, Nat.cast_mul, add_div, mul_div_cancel_left₀ _ hpos.ne']
  have hlt : num % den < den := Nat.mod_lt num hden
  rw [hsplit]
  unfold roundDiv
  generalize num / den = low
  generalize num % den = rest at hlt
  have hle : 2 * rest ≤ den ↔ (rest : Rat) / den ≤ 1 / 2 := by
    rw [div_le_div_iff₀ hpos two_pos]
    norm_cast
    omega
  have hge : den ≤ 2 * rest ↔ 1 / 2 ≤ (rest : Rat) / den := by
    rw [div_le_div_iff₀ two_pos hpos]
    norm_cast
    omega
  simp only
  split
  · rename_i hlow
    have hoff : |(low : Rat) + rest / den - low| = rest / den := by
      rw [add_sub_cancel_left, abs_of_nonneg (div_nonneg rest.cast_nonneg hpos.le)]
    refine ⟨hoff.trans_le (hle.1 (by omega)), fun heq => ?_⟩
    have hhalf := hge.2 (heq.symm.trans hoff).le
    exact Nat.even_iff.2 (by omega)
  · rename_i hlow
    have hone : (rest : Rat) / den ≤ 1 := (div_le_one hpos).2 (Nat.cast_le.2 hlt.le)
    have hoff : |(low : Rat) + rest / den - (low + 1 : Nat)| = 1 - rest / den := by
      rw [Nat.cast_add_one, add_sub_add_left_eq_sub, abs_sub_comm,
        abs_of_nonneg (sub_nonneg.2 hone)]
    refine ⟨?_, fun heq => ?_⟩
    · have hhalf := hge.1 (by omega)
      linarith
    · have hhalf := hle.2 (by linarith)
      exact Nat.even_iff.2 (by omega)

theorem zpow_eq_div (base : Nat) (scale : Int) :
    (base : Rat) ^ scale = (base ^ scale.toNat : Nat) / (base ^ (-scale).toNat : Nat) := by
  cases scale with
  | ofNat n => simp
  | negSucc n => simp [zpow_negSucc]

theorem zpow_two_eq (scale : Int) :
    (2 : Rat) ^ scale = (powerOfTwo scale).1 / (powerOfTwo scale).2 :=
  zpow_eq_div 2 scale

/-- What a number reads to one decimal place. -/
inductive InTenths (x : Float) : String → Prop
  | nan (h : Quantity.ofFloat x = .nan) : InTenths x "NaN"
  | infinite {negative : Bool} (h : Quantity.ofFloat x = .infinite negative) :
    InTenths x (if negative then "-inf" else "inf")
  | finite {negative : Bool} {mantissa : Nat} {scale : Int} {tenths : Nat}
    (h : Quantity.ofFloat x = .finite negative mantissa scale)
    (hnearest : NearestEven (10 * (mantissa * 2 ^ scale)) tenths) :
    InTenths x ((if negative then "-" else "") ++ toString (tenths / 10) ++ "." ++
      toString (tenths % 10))

theorem inTenths_tenthsText (x : Float) : InTenths x (tenthsText x) := by
  unfold tenthsText
  cases hx : Quantity.ofFloat x with
  | nan => exact .nan hx
  | infinite negative =>
    have hreads := InTenths.infinite hx
    cases negative with
    | false => exact hreads
    | true => exact hreads
  | finite negative mantissa scale =>
    have hnearest := @nearestEven_roundDiv (10 * mantissa * (powerOfTwo scale).1)
      (powerOfTwo scale).2 (Nat.two_pow_pos _)
    rw [Nat.cast_mul, Nat.cast_mul, mul_div_assoc, ← zpow_two_eq, mul_assoc] at hnearest
    have hsign : (if negative then "-" else "") = String.ofList (signText negative) := by
      cases negative <;> rfl
    have htext (sign whole tenth : List Char) : String.ofList (sign ++ whole ++ '.' :: tenth) =
        String.ofList sign ++ String.ofList whole ++ "." ++ String.ofList tenth := by
      rw [List.append_cons, String.ofList_append, String.ofList_append, String.ofList_append]
    simp only [htext, ← hsign]
    exact .finite hx hnearest

end PaneTiling.Decimal
