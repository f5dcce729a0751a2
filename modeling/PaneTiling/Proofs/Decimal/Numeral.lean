import PaneTiling.Json.Lexer

/-!
How numerals are written. A numeral is spelled as its sign, its digits, a point with digits and an
exponent; what is spelled is read back as the numeral, and one that has its digits in order is a
number of a document.
-/

namespace PaneTiling.Decimal

theorem isDigit_of_mem_toDigits {n : Nat} {c : Char} (h : c ∈ Nat.toDigits 10 n) : c.isDigit :=
  Nat.isDigit_of_mem_toDigits (by decide) (by decide) h

theorem digitsValue_toDigits (n : Nat) : digitsValue (Nat.toDigits 10 n) = n := by
  have hvalue : digitsValue (Nat.toDigits 10 n) = Nat.ofDigitChars 10 (Nat.toDigits 10 n) 0 :=
    Nat.ofDigitChars_eq_foldl.symm
  rw [hvalue, Nat.ofDigitChars_ten_toDigits]

theorem head?_toDigits_ne {n : Nat} (h : n ≠ 0) : (Nat.toDigits 10 n).head? ≠ some '0' := by
  induction n using Nat.strongRecOn with
  | ind n ih =>
    by_cases hsmall : n < 10
    · rw [Nat.toDigits_of_lt_base hsmall, List.head?_cons]
      have hdigit : ∀ d < 10, d ≠ 0 → some (Nat.digitChar d) ≠ some '0' := by decide
      exact hdigit n hsmall h
    · obtain ⟨c, rest, hdigits⟩ := List.exists_cons_of_ne_nil (Nat.toDigits_ne_nil (n := n / 10))
      have hhigh := ih (n / 10) (by omega) (by omega)
      rw [hdigits, List.head?_cons] at hhigh
      rwa [Nat.toDigits_of_base_le (by decide) (Nat.not_lt.1 hsmall), hdigits, List.cons_append,
        List.head?_cons]

theorem span_digits {digits rest : List Char} (h : ∀ c ∈ digits, c.isDigit)
    (hrest : ∀ c ∈ rest.head?, c.isDigit = false) :
    (digits ++ rest).takeWhile Char.isDigit = digits ∧
      (digits ++ rest).dropWhile Char.isDigit = rest := by
  rw [List.takeWhile_append_of_pos h, List.dropWhile_append_of_pos h]
  cases rest with
  | nil => simp
  | cons c rest =>
    have hc : c.isDigit = false := hrest c rfl
    simp [hc]

theorem splitSign_of_digit {c : Char} (h : c.isDigit) (rest : List Char) :
    splitSign (c :: rest) = (none, c :: rest) := by
  unfold splitSign
  split
  · rename_i heq
    cases heq
    exact absurd h (by decide)
  · rename_i heq
    cases heq
    exact absurd h (by decide)
  · rfl

theorem splitSign_exponent (negative : Bool) (rest : List Char) :
    splitSign ((if negative then '-' else '+') :: rest) =
      (some (if negative then '-' else '+'), rest) := by
  cases negative <;> rfl

namespace Numeral

def fractionText : Option (List Char) → List Char
  | none => []
  | some digits => '.' :: digits

def exponentText : Option (Bool × List Char) → List Char
  | none => []
  | some (negative, digits) => 'e' :: (if negative then '-' else '+') :: digits

def text (n : Numeral) : List Char :=
  n.sign.toList ++ n.whole ++ fractionText n.fraction ++ exponentText n.exponent

/-- A numeral with digits wherever digits go, and no needless zero or plus sign in front. -/
structure Proper (n : Numeral) : Prop where
  sign : n.sign = none ∨ n.sign = some '-'
  whole : ∀ c ∈ n.whole, c.isDigit
  whole_ne : n.whole ≠ []
  no_zero : n.whole.head? ≠ some '0' ∨ n.whole.length = 1
  fraction : ∀ digits ∈ n.fraction, digits ≠ [] ∧ ∀ c ∈ digits, c.isDigit
  exponent : ∀ part ∈ n.exponent, part.2 ≠ [] ∧ ∀ c ∈ part.2, c.isDigit

theorem head?_fractionText (fraction : Option (List Char)) {rest : List Char}
    (hrest : ∀ c ∈ rest.head?, c.isDigit = false) :
    ∀ c ∈ (fractionText fraction ++ rest).head?, c.isDigit = false := by
  cases fraction with
  | none => exact hrest
  | some digits =>
    rintro _ ⟨⟩
    rfl

theorem head?_exponentText (exponent : Option (Bool × List Char)) :
    ∀ c ∈ (exponentText exponent).head?, c.isDigit = false := by
  cases exponent with
  | none => simp [exponentText]
  | some part =>
    rintro _ ⟨⟩
    rfl

theorem splitPoint_text {fraction : Option (List Char)} (exponent : Option (Bool × List Char))
    (h : ∀ digits ∈ fraction, ∀ c ∈ digits, c.isDigit) :
    splitPoint (fractionText fraction ++ exponentText exponent) =
      (fraction, exponentText exponent) := by
  cases fraction with
  | none => cases exponent <;> rfl
  | some digits =>
    obtain ⟨htake, hdrop⟩ := span_digits (h digits rfl) (head?_exponentText exponent)
    simp only [fractionText, List.cons_append, splitPoint, htake, hdrop]

theorem ofChars?_text {n : Numeral} (h : n.Proper) : ofChars? n.text = some n := by
  obtain ⟨sign, whole, fraction, exponent⟩ := n
  obtain ⟨hsign, hwhole, hne, -, hfraction, hexponent⟩ := h
  simp only at hsign hwhole hne hfraction hexponent
  have hsplit : splitSign (text ⟨sign, whole, fraction, exponent⟩) =
      (sign, whole ++ (fractionText fraction ++ exponentText exponent)) := by
    rcases hsign with rfl | rfl
    · obtain ⟨first, others, rfl⟩ := List.exists_cons_of_ne_nil hne
      simp only [text, Option.toList_none, List.nil_append, List.cons_append, List.append_assoc]
      exact splitSign_of_digit (hwhole first List.mem_cons_self) _
    · simp [text, splitSign]
  obtain ⟨htake, hdrop⟩ := span_digits hwhole
    (head?_fractionText fraction (head?_exponentText exponent))
  have hpoint := splitPoint_text exponent fun digits hdigits => (hfraction digits hdigits).2
  simp only [ofChars?, hsplit, htake, hdrop, hpoint]
  cases exponent with
  | none => rfl
  | some part => simpa [exponentText, splitSign_exponent] using (hexponent part rfl).2

theorem isNumber_text {n : Numeral} (h : n.Proper) : Json.isNumber n.text = true := by
  have hsign : n.sign ≠ some '+' := by rcases h.sign with hsign | hsign <;> simp [hsign]
  have hfraction : n.fraction.all (!·.isEmpty) = true := by
    cases hcase : n.fraction with
    | none => rfl
    | some digits => simpa using (h.fraction digits hcase).1
  have hexponent : n.exponent.all (!·.2.isEmpty) = true := by
    cases hcase : n.exponent with
    | none => rfl
    | some part => simpa using (h.exponent part hcase).1
  have hzero : (n.whole.head? != some '0' || n.whole.length == 1) = true := by
    simpa using h.no_zero
  simp [Json.isNumber, ofChars?_text h, hsign, h.whole_ne, hfraction, hexponent, hzero]

end Numeral

theorem splitSign_cases (text : List Char) :
    (∃ c rest, (c = '-' ∨ c = '+') ∧ text = c :: rest ∧ splitSign text = (some c, rest)) ∨
      splitSign text = (none, text) := by
  unfold splitSign
  split
  · exact .inl ⟨_, _, .inl rfl, rfl, rfl⟩
  · exact .inl ⟨_, _, .inr rfl, rfl, rfl⟩
  · exact .inr rfl

theorem isNumberChar_of_isDigit {c : Char} (h : c.isDigit) : Json.isNumberChar c := by
  simp [Json.isNumberChar, h]

theorem isNumberChar_of_splitSign {text : List Char}
    (h : ∀ c ∈ (splitSign text).2, Json.isNumberChar c) : ∀ c ∈ text, Json.isNumberChar c := by
  rcases splitSign_cases text with ⟨sign, rest, hsign, rfl, hsplit⟩ | hsplit
  · rw [hsplit] at h
    refine List.forall_mem_cons.2 ⟨?_, h⟩
    rcases hsign with rfl | rfl <;> rfl
  · rwa [hsplit] at h

theorem isNumberChar_of_takeWhile {text : List Char}
    (h : ∀ c ∈ text.dropWhile Char.isDigit, Json.isNumberChar c) :
    ∀ c ∈ text, Json.isNumberChar c := by
  intro c hc
  rw [← List.takeWhile_append_dropWhile (p := Char.isDigit) (l := text)] at hc
  rcases List.mem_append.1 hc with hdigit | hrest
  · exact isNumberChar_of_isDigit (List.all_eq_true.1 List.all_takeWhile c hdigit)
  · exact h c hrest

theorem isNumberChar_of_splitPoint {text : List Char}
    (h : ∀ c ∈ (splitPoint text).2, Json.isNumberChar c) : ∀ c ∈ text, Json.isNumberChar c := by
  unfold splitPoint at h
  split at h
  · exact List.forall_mem_cons.2 ⟨rfl, isNumberChar_of_takeWhile h⟩
  · exact h

theorem isNumberChar_of_ofChars? {text : List Char} {n : Numeral}
    (h : Numeral.ofChars? text = some n) : ∀ c ∈ text, Json.isNumberChar c := by
  simp only [Numeral.ofChars?] at h
  refine isNumberChar_of_splitSign (isNumberChar_of_takeWhile (isNumberChar_of_splitPoint ?_))
  split at h
  · rename_i hend
    simp [hend]
  · rename_i mark rest hend
    rw [hend]
    split at h
    · rename_i hmark
      split at h
      · rename_i hdigits
        refine List.forall_mem_cons.2 ⟨?_, isNumberChar_of_splitSign fun c hc => ?_⟩
        · rcases hmark with rfl | rfl <;> rfl
        · exact isNumberChar_of_isDigit (List.all_eq_true.1 hdigits c hc)
      · cases h
    · cases h

theorem front_of_ofChars? {text : List Char} {n : Numeral} (h : Numeral.ofChars? text = some n) :
    n.sign = (splitSign text).1 ∧ n.whole = (splitSign text).2.takeWhile Char.isDigit := by
  simp only [Numeral.ofChars?] at h
  split at h
  · cases h
    exact ⟨rfl, rfl⟩
  · split at h
    · split at h
      · cases h
        exact ⟨rfl, rfl⟩
      · cases h
    · cases h

theorem isNumber_spelling {literal : List Char} (h : Json.isNumber literal = true) :
    (∀ c ∈ literal, Json.isNumberChar c) ∧
      ∃ c rest, literal = c :: rest ∧ (c.isDigit ∨ c = '-') := by
  unfold Json.isNumber at h
  split at h
  · rename_i n hn
    simp only [Bool.and_eq_true] at h
    refine ⟨isNumberChar_of_ofChars? hn, ?_⟩
    obtain ⟨⟨⟨⟨hsign, hwhole⟩, -⟩, -⟩, -⟩ := h
    obtain ⟨hfront, hdigits⟩ := front_of_ofChars? hn
    rcases splitSign_cases literal with ⟨sign, rest, hsigned, rfl, hsplit⟩ | hsplit
    · rcases hsigned with rfl | rfl
      · exact ⟨_, _, rfl, .inr rfl⟩
      · simp [hfront, hsplit] at hsign
    · rw [hdigits, hsplit] at hwhole
      cases literal with
      | nil => simp at hwhole
      | cons c rest =>
        refine ⟨c, rest, rfl, .inl ?_⟩
        cases hc : c.isDigit with
        | true => rfl
        | false => simp [hc] at hwhole
  · cases h

end PaneTiling.Decimal
