import PaneTiling.Proofs.Decimal.Numeral
import PaneTiling.Session.Document

/-!
How shares are written. The shortest decimal of a number other than zero does not read zero, and
whether it is written with an exponent or without one, its text spells a numeral.
-/

namespace PaneTiling.Decimal

theorem digitsText_ne_nil (n : Nat) : digitsText n ≠ [] := Nat.toDigits_ne_nil

theorem isDigit_of_mem_digitsText {n : Nat} : ∀ c ∈ digitsText n, c.isDigit :=
  fun _ => isDigit_of_mem_toDigits

theorem isDigit_of_mem_replicate {count : Nat} : ∀ c ∈ List.replicate count '0', c.isDigit := by
  intro c hc
  rw [List.eq_of_mem_replicate hc]
  rfl

/-- A decimal that reads zero only if it is written as a single zero. -/
def Digits.Trim (d : Digits) : Prop := d.digits ≠ 0 ∨ d = ⟨0, 0⟩

def Spells (text : List Char) : Prop :=
  ∀ negative, ∃ n : Numeral, n.Proper ∧ signText negative ++ text = n.text

theorem Spells.isNumber {text : List Char} (h : Spells text) (negative : Bool) :
    Json.isNumber (signText negative ++ text) = true := by
  obtain ⟨n, hn, htext⟩ := h negative
  rw [htext]
  exact Numeral.isNumber_text hn

theorem spells_of_parts (whole : List Char) (fraction : Option (List Char))
    (exponent : Option (Bool × List Char)) (hwhole : ∀ c ∈ whole, c.isDigit) (hne : whole ≠ [])
    (hzero : whole.head? ≠ some '0' ∨ whole.length = 1)
    (hfraction : ∀ digits ∈ fraction, digits ≠ [] ∧ ∀ c ∈ digits, c.isDigit)
    (hexponent : ∀ part ∈ exponent, part.2 ≠ [] ∧ ∀ c ∈ part.2, c.isDigit) :
    Spells (whole ++ Numeral.fractionText fraction ++ Numeral.exponentText exponent) := by
  intro negative
  refine ⟨⟨if negative then some '-' else none, whole, fraction, exponent⟩,
    ⟨?_, hwhole, hne, hzero, hfraction, hexponent⟩, ?_⟩
  · cases negative <;> simp
  · cases negative <;> simp [Numeral.text, signText]

theorem no_zero_digitsText (n : Nat) :
    (digitsText n).head? ≠ some '0' ∨ (digitsText n).length = 1 := by
  by_cases hn : n = 0
  · exact .inr (by rw [hn]; rfl)
  · exact .inl (head?_toDigits_ne hn)

theorem spells_digits (n : Nat) : Spells (digitsText n) := by
  have hparts := spells_of_parts (digitsText n) none none isDigit_of_mem_digitsText
    (digitsText_ne_nil n) (no_zero_digitsText n) (by simp) (by simp)
  simpa [Numeral.fractionText, Numeral.exponentText] using hparts

theorem no_zero_padded {text : List Char} (htext : text.head? ≠ some '0') (places : Nat) :
    let padded := List.replicate (places + 1 - text.length) '0' ++ text
    (padded.take (padded.length - places)).head? ≠ some '0' ∨
      (padded.take (padded.length - places)).length = 1 := by
  intro padded
  by_cases hlong : places + 1 ≤ text.length
  · have hpadded : padded = text := by simp [padded, Nat.sub_eq_zero_of_le hlong]
    refine .inl ?_
    rwa [hpadded, List.head?_take, if_neg (by omega)]
  · have hlength : padded.length = places + 1 := by
      simp only [padded, List.length_append, List.length_replicate]
      omega
    exact .inr (by rw [List.length_take, hlength]; omega)

theorem spells_pointed {digits : List Char} {places : Nat} (hdigits : ∀ c ∈ digits, c.isDigit)
    (hplaces : 1 ≤ places) (hlength : places + 1 ≤ digits.length)
    (hzero : (digits.take (digits.length - places)).head? ≠ some '0' ∨
      (digits.take (digits.length - places)).length = 1) :
    Spells (digits.take (digits.length - places) ++
      '.' :: digits.drop (digits.length - places)) := by
  have hparts := spells_of_parts (digits.take (digits.length - places))
    (some (digits.drop (digits.length - places))) none
  simp only [Numeral.fractionText, Numeral.exponentText, List.append_nil] at hparts
  refine hparts ?_ ?_ hzero ?_ (by simp)
  · exact fun c hc => hdigits c (List.mem_of_mem_take hc)
  · refine List.ne_nil_of_length_pos ?_
    rw [List.length_take]
    omega
  · rintro _ ⟨⟩
    refine ⟨List.ne_nil_of_length_pos ?_, fun c hc => hdigits c (List.mem_of_mem_drop hc)⟩
    rw [List.length_drop]
    omega

theorem spells_positionalText {d : Digits} (h : d.Trim) : Spells (positionalText true d) := by
  unfold positionalText
  simp only [if_true]
  split
  · have hparts := spells_of_parts (digitsText d.digits ++ List.replicate d.scale.toNat '0')
      (some ['0']) none
    simp only [Numeral.fractionText, Numeral.exponentText, List.append_nil] at hparts
    refine hparts ?_ ?_ ?_ ?_ (by simp)
    · exact fun c hc => (List.mem_append.1 hc).elim (isDigit_of_mem_digitsText c)
        (isDigit_of_mem_replicate c)
    · exact List.append_ne_nil_of_left_ne_nil (digitsText_ne_nil _) _
    · rcases h with hne | rfl
      · refine .inl ?_
        rw [List.head?_append, Option.or_of_isSome (by simpa using digitsText_ne_nil d.digits)]
        exact head?_toDigits_ne hne
      · exact .inr rfl
    · rintro _ ⟨⟩
      exact ⟨by simp, by simp⟩
  · rename_i hscale
    have hne : d.digits ≠ 0 := by
      rcases h with hne | rfl
      · exact hne
      · exact absurd (Int.le_refl 0) hscale
    have hplaces : 1 ≤ (-d.scale).toNat := by omega
    have hzero := no_zero_padded (head?_toDigits_ne hne) (-d.scale).toNat
    refine spells_pointed ?_ hplaces ?_ hzero
    · exact fun c hc => (List.mem_append.1 hc).elim (isDigit_of_mem_replicate c)
        (isDigit_of_mem_digitsText c)
    · rw [List.length_append, List.length_replicate]
      omega

theorem spells_exponentText (d : Digits) (power : Int) : Spells (exponentText true d power) := by
  have hpower : ∀ part ∈ some (decide (power < 0), digitsText power.natAbs),
      part.2 ≠ [] ∧ ∀ c ∈ part.2, c.isDigit := by
    rintro _ ⟨⟩
    exact ⟨digitsText_ne_nil _, isDigit_of_mem_digitsText⟩
  have hsign : (if power < 0 then ['-'] else ['+']) ++ digitsText power.natAbs =
      (if power < 0 then '-' else '+') :: digitsText power.natAbs := by split <;> rfl
  have hdigits := isDigit_of_mem_digitsText (n := d.digits)
  unfold exponentText
  simp only [if_true, List.append_assoc, List.cons_append]
  rw [hsign]
  match hcase : digitsText d.digits with
  | [] => exact absurd hcase (digitsText_ne_nil _)
  | [only] =>
    rw [hcase] at hdigits
    have hparts := spells_of_parts [only] none _ hdigits (by simp) (.inr rfl) (by simp) hpower
    simpa [Numeral.fractionText, Numeral.exponentText] using hparts
  | first :: second :: rest =>
    rw [hcase, List.forall_mem_cons] at hdigits
    have hparts := spells_of_parts [first] (some (second :: rest)) _ (by simpa using hdigits.1)
      (by simp) (.inr rfl) (by rintro _ ⟨⟩; exact ⟨by simp, hdigits.2⟩) hpower
    simpa [Numeral.fractionText, Numeral.exponentText] using hparts

theorem spells_decimal {d : Digits} (h : d.Trim) (positional : Bool) (power : Int) :
    Spells (if positional then positionalText true d else exponentText true d power) := by
  cases positional with
  | true => exact spells_positionalText h
  | false => exact spells_exponentText d power

theorem not_holds_zero {mantissa : Nat} (hmantissa : mantissa ≠ 0) (scale : Int) {den : Nat}
    (hden : 0 < den) : ¬(Interval.around mantissa scale).Holds 0 den := by
  have hlow : 0 < (Interval.around mantissa scale).low := by
    simp only [Interval.around, powerOfTwo]
    refine Nat.mul_pos ?_ (Nat.pow_pos (by decide))
    split <;> omega
  have hprod : 0 < (Interval.around mantissa scale).low * den := Nat.mul_pos hlow hden
  unfold Interval.Holds
  split <;> omega

theorem holds_of_onGrid {tie : Tie} {i : Interval} {grid : Int} {d : Digits}
    (h : onGrid tie i grid = some d) :
    d.scale = grid ∧ i.Holds (d.digits * (powerOfTen grid).1) (powerOfTen grid).2 := by
  simp only [onGrid] at h
  split at h
  · rename_i hlow hnext
    cases h
    split
    · exact ⟨rfl, of_decide_eq_true hlow⟩
    · exact ⟨rfl, of_decide_eq_true hnext⟩
  · rename_i hlow hnext
    cases h
    exact ⟨rfl, of_decide_eq_true hlow⟩
  · rename_i hlow hnext
    cases h
    exact ⟨rfl, of_decide_eq_true hnext⟩
  · cases h

theorem digits_of_onGrid {tie : Tie} {mantissa : Nat} {scale grid : Int} {d : Digits}
    (hmantissa : mantissa ≠ 0) (h : onGrid tie (.around mantissa scale) grid = some d) :
    d.digits ≠ 0 := by
  intro hzero
  obtain ⟨-, hholds⟩ := holds_of_onGrid h
  rw [hzero, Nat.zero_mul] at hholds
  exact not_holds_zero hmantissa scale (Nat.pow_pos (by decide)) hholds

theorem digits_trimmed {d : Digits} (h : d.digits ≠ 0) : d.trimmed.digits ≠ 0 := by
  unfold Digits.trimmed
  split
  · simp only
    omega
  · exact h

theorem shortest_cases (tie : Tie) {mantissa : Nat} (scale : Int) (hmantissa : mantissa ≠ 0) :
    (shortest tie mantissa scale).digits ≠ 0 ∨ shortest tie mantissa scale = ⟨0, 1⟩ := by
  unfold shortest
  simp only
  generalize hfound : (List.range' 1 17).findSome? _ = found
  cases found with
  | none => exact .inr rfl
  | some d =>
    obtain ⟨count, -, hcount⟩ := List.exists_of_findSome?_eq_some hfound
    exact .inl (digits_trimmed (digits_of_onGrid hmantissa hcount))

def ReadsBack (x : Float) : Prop := (Json.number (Style.session.render x)).float? = some x

theorem mantissa_of_untrimmed {x : Float} {negative : Bool}
    (h : (Json.number (signText negative ++ positionalText true ⟨0, 1⟩)).float? = some x) :
    ∃ sign, Quantity.ofFloat x = .finite sign 0 (-1074) := by
  cases negative with
  | false =>
    have hzero : (Json.number (signText false ++ positionalText true ⟨0, 1⟩)).float? = some 0 := by
      decide +kernel
    cases h.symm.trans hzero
    exact ⟨false, by decide +kernel⟩
  | true =>
    have hzero :
        (Json.number (signText true ++ positionalText true ⟨0, 1⟩)).float? = some (-0) := by
      decide +kernel
    cases h.symm.trans hzero
    exact ⟨true, by decide +kernel⟩

theorem isNumber_render {x : Float} (h : ReadsBack x) :
    Json.isNumber (Style.session.render x) = true := by
  have hnull : (Json.number "null".toList).float? = none := by decide
  unfold ReadsBack Style.render at h
  unfold Style.render
  split
  · rename_i hnan
    rw [hnan] at h
    cases hnull.symm.trans h
  · rename_i negative hinfinite
    rw [hinfinite] at h
    cases hnull.symm.trans h
  · rename_i negative mantissa scale hfinite
    rw [hfinite] at h
    simp only at h ⊢
    have htrim : (if mantissa = 0 then ⟨0, 0⟩
        else shortest Style.session.tie mantissa scale : Digits).Trim := by
      by_cases hmantissa : mantissa = 0
      · rw [if_pos hmantissa]
        exact .inr rfl
      · rw [if_neg hmantissa] at h ⊢
        rcases shortest_cases Style.session.tie scale hmantissa with hdigits | hnone
        · exact .inl hdigits
        · rw [hnone] at h
          obtain ⟨sign, hzero⟩ := mantissa_of_untrimmed h
          cases hfinite.symm.trans hzero
          exact absurd rfl hmantissa
    exact (spells_decimal htrim _ _).isNumber negative

theorem isNumber_toDigits (n : Nat) : Json.isNumber (Nat.toDigits 10 n) = true :=
  (spells_digits n).isNumber false

end PaneTiling.Decimal
