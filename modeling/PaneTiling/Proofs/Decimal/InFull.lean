import Mathlib.Algebra.Order.Field.Power
import PaneTiling.Proofs.Decimal.Rendering
import PaneTiling.Proofs.Decimal.Tenths

/-!
Numbers in full. The text of a finite number in a message is that of a decimal no further from the
number than half the step to the next one above; seventeen digits always suffice to come that near.
-/

namespace PaneTiling.Decimal

theorem zpow_ten_eq (scale : Int) :
    (10 : Rat) ^ scale = (powerOfTen scale).1 / (powerOfTen scale).2 :=
  zpow_eq_div 10 scale

theorem powerOfTen_pos (scale : Int) : 0 < (powerOfTen scale).1 ∧ 0 < (powerOfTen scale).2 :=
  ⟨Nat.pow_pos (by decide), Nat.pow_pos (by decide)⟩

section Intervals

variable {i : Interval} {num den : Nat}

theorem Interval.bounds_of_holds (hi : 0 < i.den) (hden : 0 < den) (h : i.Holds num den) :
    (i.low : Rat) / i.den ≤ num / den ∧ (num : Rat) / den ≤ i.high / i.den := by
  have hposi : (0 : Rat) < i.den := Nat.cast_pos.2 hi
  have hpos : (0 : Rat) < den := Nat.cast_pos.2 hden
  rw [div_le_div_iff₀ hposi hpos, div_le_div_iff₀ hpos hposi]
  norm_cast
  unfold Holds at h
  split at h
  · exact h
  · exact ⟨h.1.le, h.2.le⟩

theorem Interval.holds_of_bounds (hi : 0 < i.den) (hden : 0 < den)
    (hlow : (i.low : Rat) / i.den < num / den) (hhigh : (num : Rat) / den < i.high / i.den) :
    i.Holds num den := by
  have hposi : (0 : Rat) < i.den := Nat.cast_pos.2 hi
  have hpos : (0 : Rat) < den := Nat.cast_pos.2 hden
  rw [div_lt_div_iff₀ hposi hpos] at hlow
  rw [div_lt_div_iff₀ hpos hposi] at hhigh
  norm_cast at hlow hhigh
  unfold Holds
  split
  · exact ⟨hlow.le, hhigh.le⟩
  · exact ⟨hlow, hhigh⟩

end Intervals

section Around

variable {mantissa : Nat} {scale : Int}

/-- How far below a number the reals that round to it reach, in quarters of the step to the next
number above. -/
def quartersBelow (mantissa : Nat) (scale : Int) : Nat :=
  if mantissa = Nat.pow 2 52 ∧ -1074 < scale then 1 else 2

theorem quartersBelow_pos (mantissa : Nat) (scale : Int) : 0 < quartersBelow mantissa scale := by
  unfold quartersBelow
  split <;> decide

theorem quartersBelow_le (mantissa : Nat) (scale : Int) : quartersBelow mantissa scale ≤ 2 := by
  unfold quartersBelow
  split <;> decide

theorem den_around_pos (mantissa : Nat) (scale : Int) : 0 < (Interval.around mantissa scale).den :=
  Nat.two_pow_pos _

/-- The ends are told in quarters of a step. -/
theorem quarters_around (mantissa : Nat) (scale : Int) (quarters : Nat) :
    (quarters * (powerOfTwo (scale - 2)).1 : Nat) / ((Interval.around mantissa scale).den : Rat) =
      quarters / 4 * 2 ^ scale := by
  have hden : (Interval.around mantissa scale).den = (powerOfTwo (scale - 2)).2 := rfl
  rw [hden, Nat.cast_mul, mul_div_assoc, ← zpow_two_eq, zpow_sub₀ two_ne_zero]
  ring

theorem value_around (mantissa : Nat) (scale : Int) :
    ((Interval.around mantissa scale).value : Rat) / (Interval.around mantissa scale).den =
      mantissa * 2 ^ scale := by
  have hvalue := quarters_around mantissa scale (4 * mantissa)
  rw [Nat.cast_mul 4, Nat.cast_ofNat, mul_div_cancel_left₀ _ four_ne_zero] at hvalue
  exact hvalue

theorem high_around (mantissa : Nat) (scale : Int) :
    ((Interval.around mantissa scale).high : Rat) / (Interval.around mantissa scale).den =
      (mantissa + 1 / 2) * 2 ^ scale := by
  refine (quarters_around mantissa scale (4 * mantissa + 2)).trans ?_
  push_cast
  ring

theorem low_around (hmantissa : mantissa ≠ 0) (scale : Int) :
    ((Interval.around mantissa scale).low : Rat) / (Interval.around mantissa scale).den =
      (mantissa - quartersBelow mantissa scale / 4) * 2 ^ scale := by
  have hle := quartersBelow_le mantissa scale
  refine (quarters_around mantissa scale (4 * mantissa - quartersBelow mantissa scale)).trans ?_
  rw [Nat.cast_sub (by omega)]
  push_cast
  ring

theorem near_of_holds (hmantissa : mantissa ≠ 0) {num den : Nat} (hden : 0 < den)
    (h : (Interval.around mantissa scale).Holds num den) :
    |(num : Rat) / den - mantissa * 2 ^ scale| ≤ 2 ^ scale / 2 := by
  obtain ⟨hlow, hhigh⟩ := Interval.bounds_of_holds (den_around_pos mantissa scale) hden h
  rw [low_around hmantissa] at hlow
  rw [high_around] at hhigh
  have hstep : (0 : Rat) < 2 ^ scale := zpow_pos two_pos scale
  have hquarters : (quartersBelow mantissa scale : Rat) ≤ 2 := by
    exact_mod_cast quartersBelow_le mantissa scale
  have hbelow : (quartersBelow mantissa scale : Rat) / 4 * 2 ^ scale ≤ 2 ^ scale / 2 := by
    rw [div_mul_eq_mul_div, div_le_div_iff₀ four_pos two_pos]
    linarith [mul_le_mul_of_nonneg_right hquarters hstep.le]
  rw [abs_le]
  constructor
  · linarith
  · linarith

end Around

section Grids

variable {mantissa : Nat} {scale : Int}

def Digits.value (d : Digits) : Rat := d.digits * 10 ^ d.scale

theorem cast_onGrid (digits : Nat) (grid : Int) :
    ((digits * (powerOfTen grid).1 : Nat) : Rat) / (powerOfTen grid).2 = digits * 10 ^ grid := by
  rw [Nat.cast_mul, mul_div_assoc, zpow_ten_eq]

theorem near_of_onGrid {tie : Tie} {grid : Int} {d : Digits} (hmantissa : mantissa ≠ 0)
    (h : onGrid tie (.around mantissa scale) grid = some d) :
    |d.value - mantissa * 2 ^ scale| ≤ 2 ^ scale / 2 := by
  obtain ⟨hscale, hholds⟩ := holds_of_onGrid h
  have hnear := near_of_holds hmantissa (powerOfTen_pos grid).2 hholds
  rwa [cast_onGrid, ← hscale] at hnear

theorem le_low_of_not_holds (hmantissa : mantissa ≠ 0) {digits : Nat} {grid : Int}
    (hle : digits * (10 : Rat) ^ grid ≤ mantissa * 2 ^ scale)
    (h : ¬(Interval.around mantissa scale).Holds (digits * (powerOfTen grid).1)
      (powerOfTen grid).2) :
    digits * (10 : Rat) ^ grid ≤ (mantissa - quartersBelow mantissa scale / 4) * 2 ^ scale := by
  have hstep : (0 : Rat) < 2 ^ scale := zpow_pos two_pos scale
  by_contra hlow
  refine h (Interval.holds_of_bounds (den_around_pos mantissa scale) (powerOfTen_pos grid).2 ?_ ?_)
  · rw [low_around hmantissa, cast_onGrid]
    exact not_le.1 hlow
  · rw [high_around, cast_onGrid]
    linarith

theorem high_le_of_not_holds (hmantissa : mantissa ≠ 0) {digits : Nat} {grid : Int}
    (hle : mantissa * 2 ^ scale ≤ digits * (10 : Rat) ^ grid)
    (h : ¬(Interval.around mantissa scale).Holds (digits * (powerOfTen grid).1)
      (powerOfTen grid).2) :
    (mantissa + 1 / 2) * 2 ^ scale ≤ digits * (10 : Rat) ^ grid := by
  have hstep : (0 : Rat) < 2 ^ scale := zpow_pos two_pos scale
  have hbelow : (0 : Rat) < quartersBelow mantissa scale / 4 * 2 ^ scale :=
    mul_pos (div_pos (Nat.cast_pos.2 (quartersBelow_pos mantissa scale)) four_pos) hstep
  by_contra hhigh
  refine h (Interval.holds_of_bounds (den_around_pos mantissa scale) (powerOfTen_pos grid).2 ?_ ?_)
  · rw [low_around hmantissa, cast_onGrid]
    linarith
  · rw [high_around, cast_onGrid]
    exact not_le.1 hhigh

/-- A grid that is finer than the reals that round to a number are wide has one of them next to the
number. -/
theorem isSome_onGrid (tie : Tie) {grid : Int} (hmantissa : mantissa ≠ 0)
    (hgrid : (10 : Rat) ^ grid < (quartersBelow mantissa scale / 4 + 1 / 2) * 2 ^ scale) :
    (onGrid tie (.around mantissa scale) grid).isSome := by
  have hvalue := value_around mantissa scale
  have hden := den_around_pos mantissa scale
  obtain ⟨hup, hdown⟩ := powerOfTen_pos grid
  generalize hi : Interval.around mantissa scale = i at hvalue hden
  have hposden : (0 : Rat) < i.den := Nat.cast_pos.2 hden
  have hposdown : (0 : Rat) < (powerOfTen grid).2 := Nat.cast_pos.2 hdown
  have hprod : 0 < i.den * (powerOfTen grid).1 := Nat.mul_pos hden hup
  have hbelow : (i.value * (powerOfTen grid).2 / (i.den * (powerOfTen grid).1) : Nat) *
      (10 : Rat) ^ grid ≤ mantissa * 2 ^ scale := by
    rw [← cast_onGrid, ← hvalue, div_le_div_iff₀ hposdown hposden]
    norm_cast
    have hfloor := Nat.div_mul_le_self (i.value * (powerOfTen grid).2)
      (i.den * (powerOfTen grid).1)
    rwa [Nat.mul_assoc, Nat.mul_comm (powerOfTen grid).1]
  have habove : mantissa * 2 ^ scale ≤
      (i.value * (powerOfTen grid).2 / (i.den * (powerOfTen grid).1) + 1 : Nat) *
        (10 : Rat) ^ grid := by
    rw [← cast_onGrid, ← hvalue, div_le_div_iff₀ hposden hposdown]
    norm_cast
    have hceil := Nat.lt_mul_div_succ (i.value * (powerOfTen grid).2) hprod
    rw [Nat.mul_assoc, Nat.mul_comm (powerOfTen grid).1, Nat.mul_comm (_ + 1)]
    exact hceil.le
  simp only [onGrid]
  split
  · rfl
  · rfl
  · rfl
  · rename_i hlow hnext
    subst hi
    have hlowEnd := le_low_of_not_holds hmantissa hbelow (of_decide_eq_false hlow)
    have hhighEnd := high_le_of_not_holds hmantissa habove (of_decide_eq_false hnext)
    rw [Nat.cast_add_one] at hhighEnd
    linarith

theorem lt_pow_digitCount (n : Nat) : n < 10 ^ digitCount n :=
  (Nat.length_toDigits_le_iff (by decide) Nat.length_toDigits_pos).1 le_rfl

theorem pow_digitCount_le {n : Nat} (hn : n ≠ 0) : 10 ^ (digitCount n - 1) ≤ n := by
  by_contra hlt
  by_cases hone : digitCount n = 1
  · rw [hone, Nat.sub_self, pow_zero] at hlt
    omega
  · have hpos : 0 < digitCount n := Nat.length_toDigits_pos
    have hshort := (Nat.length_toDigits_le_iff (b := 10) (by decide) (by omega)).2 (not_le.1 hlt)
    unfold digitCount at hshort hpos
    omega

theorem decimalMagnitude_le {num den : Nat} (hnum : 0 < num) (hden : 0 < den) :
    (10 : Rat) ^ (decimalMagnitude num den - 1) ≤ num / den := by
  have hpos : (0 : Rat) < den := Nat.cast_pos.2 hden
  unfold decimalMagnitude
  split
  · rename_i hle
    have hcount : 0 < digitCount (num / den) := Nat.length_toDigits_pos
    have hpower := pow_digitCount_le (Nat.div_pos hle hden).ne'
    have hexponent : (digitCount (num / den) : Int) - 1 = (digitCount (num / den) - 1 : Nat) := by
      omega
    rw [hexponent, zpow_natCast, le_div_iff₀ hpos]
    exact_mod_cast (Nat.le_div_iff_mul_le hden).1 hpower
  · have hcount : 0 < digitCount (den / num) := Nat.length_toDigits_pos
    simp only
    split
    · rename_i hpower
      have hexponent : 2 - (digitCount (den / num) : Int) - 1 =
          -(digitCount (den / num) - 1 : Nat) := by
        omega
      rw [hexponent, zpow_neg, zpow_natCast, inv_le_iff_one_le_mul₀ (by positivity),
        div_mul_eq_mul_div, one_le_div₀ hpos]
      exact_mod_cast hpower.ge
    · have hexponent : 1 - (digitCount (den / num) : Int) - 1 =
          -(digitCount (den / num) : Nat) := by
        omega
      have hbound := (Nat.div_lt_iff_lt_mul hnum).1 (lt_pow_digitCount (den / num))
      rw [hexponent, zpow_neg, zpow_natCast, inv_le_iff_one_le_mul₀ (by positivity),
        div_mul_eq_mul_div, one_le_div₀ hpos, mul_comm]
      exact_mod_cast hbound.le

theorem value_trimmed (d : Digits) : d.trimmed.value = d.value := by
  unfold Digits.trimmed
  split
  · rename_i hzero
    have hdigits : (d.digits : Rat) = (d.digits / 10 : Nat) * 10 := by
      norm_cast
      omega
    rw [Digits.value, Digits.value, zpow_add_one₀ (by norm_num), hdigits]
    ring
  · rfl

/-- Seventeen digits tell apart what 53 bits do. -/
theorem mantissa_lt (hbound : mantissa < 2 ^ 53) (scale : Int) :
    (mantissa : Rat) < (quartersBelow mantissa scale / 4 + 1 / 2) * 10 ^ 16 := by
  unfold quartersBelow
  split
  · rename_i hpower
    rw [hpower.1]
    norm_num
  · have hcast : (mantissa : Rat) < 2 ^ 53 := by exact_mod_cast hbound
    refine hcast.trans ?_
    norm_num

theorem near_shortest (tie : Tie) (hmantissa : mantissa ≠ 0) (hbound : mantissa < 2 ^ 53)
    (scale : Int) :
    |(shortest tie mantissa scale).value - mantissa * 2 ^ scale| ≤ 2 ^ scale / 2 := by
  have hstep : (0 : Rat) < 2 ^ scale := zpow_pos two_pos scale
  have hvalue : 0 < (Interval.around mantissa scale).value :=
    Nat.mul_pos (by omega) (Nat.two_pow_pos _)
  have htop := decimalMagnitude_le hvalue (den_around_pos mantissa scale)
  rw [value_around] at htop
  unfold shortest
  simp only
  generalize decimalMagnitude _ _ = top at htop ⊢
  have hgrid : (10 : Rat) ^ (top - (17 : Nat)) <
      (quartersBelow mantissa scale / 4 + 1 / 2) * 2 ^ scale := by
    have hsplit : top - (17 : Nat) = top - 1 - (16 : Nat) := by omega
    rw [hsplit, zpow_sub₀ (by norm_num), zpow_natCast, div_lt_iff₀ (by positivity)]
    have hwide := mul_lt_mul_of_pos_right (mantissa_lt hbound scale) hstep
    linarith
  have hsome : ((List.range' 1 17).findSome? fun (count : Nat) =>
      onGrid tie (.around mantissa scale) (top - count)).isSome :=
    List.findSome?_isSome_iff.2 ⟨17, by decide, isSome_onGrid tie hmantissa hgrid⟩
  obtain ⟨d, hd⟩ := Option.isSome_iff_exists.1 hsome
  obtain ⟨count, -, hcount⟩ := List.exists_of_findSome?_eq_some hd
  rw [hd, Option.getD_some, value_trimmed]
  exact near_of_onGrid hmantissa hcount

end Grids

section Texts

/-- The number that digits before and after a point spell. -/
def spelled (whole fraction : List Char) : Rat :=
  Nat.ofDigitChars 10 (whole ++ fraction) 0 / 10 ^ fraction.length

def wordsOf (whole fraction : List Char) : List Char :=
  whole ++ if fraction = [] then [] else '.' :: fraction

theorem ofList_wordsOf (negative : Bool) (whole fraction : List Char) :
    String.ofList (signText negative ++ wordsOf whole fraction) =
      (if negative then "-" else "") ++ String.ofList whole ++
        if fraction = [] then "" else "." ++ String.ofList fraction := by
  have hsign : String.ofList (signText negative) = if negative then "-" else "" := by
    cases negative <;> rfl
  rw [wordsOf, String.ofList_append, String.ofList_append, hsign, String.append_assoc]
  cases fraction with
  | nil => rfl
  | cons c rest =>
    rw [if_neg (List.cons_ne_nil c rest), if_neg (List.cons_ne_nil c rest), ← List.singleton_append,
      String.ofList_append]

theorem spelled_cut {digits : List Char} {places : Nat} (h : places ≤ digits.length) :
    spelled (digits.take (digits.length - places)) (digits.drop (digits.length - places)) =
      Nat.ofDigitChars 10 digits 0 / 10 ^ places := by
  have hfraction : (digits.drop (digits.length - places)).length = places := by
    rw [List.length_drop]
    omega
  rw [spelled, List.take_append_drop, hfraction]

theorem ofDigitChars_padded (count n : Nat) :
    Nat.ofDigitChars 10 (List.replicate count '0' ++ digitsText n) 0 = n := by
  rw [Nat.ofDigitChars_append, Nat.ofDigitChars_replicate_zero, Nat.mul_zero, digitsText,
    Nat.ofDigitChars_ten_toDigits]

theorem exists_positionalText (d : Digits) : ∃ whole fraction, whole ≠ [] ∧
    (∀ c ∈ whole ++ fraction, c.isDigit) ∧ spelled whole fraction = d.value ∧
    positionalText false d = wordsOf whole fraction := by
  unfold positionalText
  simp only [Bool.false_eq_true, if_false]
  split
  · rename_i hscale
    refine ⟨digitsText d.digits ++ List.replicate d.scale.toNat '0', [], ?_, ?_, ?_, rfl⟩
    · exact List.append_ne_nil_of_left_ne_nil Nat.toDigits_ne_nil _
    · rw [List.append_nil, List.forall_mem_append]
      exact ⟨isDigit_of_mem_digitsText, isDigit_of_mem_replicate⟩
    · have hpower : (10 : Rat) ^ d.scale = 10 ^ d.scale.toNat := by
        rw [← zpow_natCast, Int.toNat_of_nonneg hscale]
      rw [spelled, List.append_nil, Nat.ofDigitChars_append, digitsText,
        Nat.ofDigitChars_ten_toDigits, Nat.ofDigitChars_replicate_zero, Digits.value, hpower]
      simp [mul_comm]
  · rename_i hscale
    obtain ⟨places, hplaces⟩ : ∃ places : Nat, d.scale = -places :=
      ⟨(-d.scale).toNat, by omega⟩
    have hpos : 0 < places := by omega
    rw [hplaces, neg_neg, Int.toNat_natCast]
    have hvalue := ofDigitChars_padded (places + 1 - (digitsText d.digits).length) d.digits
    have hlength : places < (List.replicate (places + 1 - (digitsText d.digits).length) '0' ++
        digitsText d.digits).length := by
      rw [List.length_append, List.length_replicate]
      omega
    have hdigits : ∀ c ∈ List.replicate (places + 1 - (digitsText d.digits).length) '0' ++
        digitsText d.digits, c.isDigit :=
      List.forall_mem_append.2 ⟨isDigit_of_mem_replicate, isDigit_of_mem_digitsText⟩
    generalize List.replicate _ _ ++ digitsText d.digits = padded at *
    refine ⟨padded.take (padded.length - places), padded.drop (padded.length - places), ?_, ?_,
      ?_, ?_⟩
    · refine List.ne_nil_of_length_pos ?_
      rw [List.length_take]
      omega
    · rwa [List.take_append_drop]
    · rw [spelled_cut hlength.le, hvalue, Digits.value, hplaces, zpow_neg, zpow_natCast,
        div_eq_mul_inv]
    · have hfraction : padded.drop (padded.length - places) ≠ [] := by
        refine List.ne_nil_of_length_pos ?_
        rw [List.length_drop]
        omega
      rw [wordsOf, if_neg hfraction]

/-- What a number reads in full: the digits of a decimal that is no further from it than half the
step to the next number above. -/
inductive InFull (x : Float) : String → Prop
  | nan (h : Quantity.ofFloat x = .nan) : InFull x "NaN"
  | infinite {negative : Bool} (h : Quantity.ofFloat x = .infinite negative) :
    InFull x (if negative then "-inf" else "inf")
  | finite {negative : Bool} {mantissa : Nat} {scale : Int} {whole fraction : List Char}
    (h : Quantity.ofFloat x = .finite negative mantissa scale) (hwhole : whole ≠ [])
    (hdigits : ∀ c ∈ whole ++ fraction, c.isDigit)
    (hnear : |spelled whole fraction - mantissa * 2 ^ scale| ≤ 2 ^ scale / 2) :
    InFull x ((if negative then "-" else "") ++ String.ofList whole ++
      if fraction = [] then "" else "." ++ String.ofList fraction)

theorem mantissa_lt_of_ofFloat {x : Float} {negative : Bool} {mantissa : Nat} {scale : Int}
    (h : Quantity.ofFloat x = .finite negative mantissa scale) : mantissa < 2 ^ 53 := by
  have hfraction : x.toBits.toNat % Nat.pow 2 52 < 2 ^ 52 := Nat.mod_lt _ (Nat.two_pow_pos 52)
  have hpower : Nat.pow 2 52 = 2 ^ 52 := rfl
  unfold Quantity.ofFloat at h
  simp only at h
  split at h
  · split at h <;> cases h
  · split at h
    · cases h
      omega
    · cases h
      omega

theorem inFull_messageText (x : Float) : InFull x (messageText x) := by
  unfold messageText Style.render
  cases hx : Quantity.ofFloat x with
  | nan => exact .nan hx
  | infinite negative =>
    have hreads := InFull.infinite hx
    cases negative with
    | false => exact hreads
    | true => exact hreads
  | finite negative mantissa scale =>
    simp only
    generalize hd : (if mantissa = 0 then ⟨0, 0⟩ else shortest Style.message.tie mantissa scale :
      Digits) = d
    have hnear : |d.value - mantissa * 2 ^ scale| ≤ 2 ^ scale / 2 := by
      by_cases hmantissa : mantissa = 0
      · rw [if_pos hmantissa] at hd
        have hhalf : (0 : Rat) ≤ 2 ^ scale / 2 := div_nonneg (zpow_pos two_pos scale).le zero_le_two
        simpa [← hd, hmantissa, Digits.value] using hhalf
      · rw [if_neg hmantissa] at hd
        exact hd ▸ near_shortest _ hmantissa (mantissa_lt_of_ofFloat hx) scale
    obtain ⟨whole, fraction, hwhole, hdigits, hspelled, htext⟩ := exists_positionalText d
    have hwords : String.ofList (signText negative ++ positionalText false d) = _ :=
      htext ▸ ofList_wordsOf negative whole fraction
    exact hwords ▸ .finite hx hwhole hdigits (hspelled ▸ hnear)

end Texts

end PaneTiling.Decimal
