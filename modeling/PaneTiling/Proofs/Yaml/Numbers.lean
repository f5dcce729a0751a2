import PaneTiling.Proofs.Yaml.Lexing
import PaneTiling.Proofs.Decimal.Numeral
import Mathlib.Algebra.Ring.Nat

/-!
Numbers stand without quotes: none of their characters has a meaning of its own to the left or to
the right of another one. The decimal digits of a natural number are read as that number.
-/

namespace PaneTiling.Yaml

open Json (isNumberChar)

variable {text : List Char} {c : Char}

theorem isWritten_of_isNumberChar (h : isNumberChar c = true) : isWritten c = true := by
  simp only [isNumberChar, Bool.or_eq_true, decide_eq_true_eq] at h
  rcases h with ((((hdigit | rfl) | rfl) | rfl) | rfl) | rfl
  · simp only [Char.isDigit, Bool.and_eq_true, decide_eq_true_eq, ge_iff_le,
      UInt32.le_iff_toNat_le] at hdigit
    have hlow : ' ' ≤ c :=
      Char.le_def.2 (UInt32.le_iff_toNat_le.2 (Nat.le_trans (by decide) hdigit.1))
    have hhigh : c ≤ '~' :=
      Char.le_def.2 (UInt32.le_iff_toNat_le.2 (Nat.le_trans hdigit.2 (by decide)))
    have hbreak : isBreak c = false := by
      refine Bool.eq_false_iff.2 fun hbreak => ?_
      simp only [isBreak, Bool.or_eq_true, decide_eq_true_eq] at hbreak
      rcases hbreak with (rfl | rfl) | rfl <;> exact absurd hdigit (by decide)
    simp [isWritten, isPrintable, hlow, hhigh, hbreak]
  all_goals decide

theorem isEdge_of_isNumberChar (h : isNumberChar c = true) : isEdge c = false := by
  refine isEdge_of_isWritten (isWritten_of_isNumberChar h) ?_
  rintro rfl
  exact absurd h (by decide)

theorem isReserved_of_isNumberChar (h : isNumberChar c = true) : isReserved c = false := by
  refine Bool.eq_false_iff.2 fun hreserved => ?_
  simp only [isReserved, List.contains_iff_mem] at hreserved
  have hnone : "&*!|>%@\x60".toList.all (!isNumberChar ·) = true := by decide
  simpa [h] using List.all_eq_true.1 hnone c hreserved

theorem hasPair_eq_false {a b : Char → Bool}
    (h : (∀ c ∈ text, a c = false) ∨ ∀ c ∈ text, b c = false) : hasPair a b text = false := by
  simp only [hasPair, List.any_eq_false]
  rintro ⟨c, d⟩ hpair
  obtain ⟨hc, hd⟩ := List.of_mem_zip hpair
  rcases h with ha | hb
  · simp [ha c hc]
  · simp [hb d (List.mem_of_mem_tail hd)]

theorem isPlain_of_isNumberChar (hchars : ∀ c ∈ text, isNumberChar c = true) (hdash : text ≠ ['-'])
    (hstart : startMark.isPrefixOf text = false) (hend : endMark.isPrefixOf text = false) :
    isPlain text = true := by
  have habsent {other : Char} (hother : isNumberChar other = false) : ∀ c ∈ text, c ≠ other := by
    rintro c hc rfl
    exact Bool.eq_false_iff.1 hother (hchars c hc)
  have hhead : text.head? ≠ some ' ' := fun hblank =>
    habsent (by decide) ' ' (List.mem_of_head? hblank) rfl
  have hlast : text.getLast? ≠ some ' ' := fun hblank =>
    habsent (by decide) ' ' (List.mem_of_getLast? hblank) rfl
  have hopens : opensOtherwise text = false := by
    cases text with
    | nil => rfl
    | cons first others =>
      have hfirst := hchars first List.mem_cons_self
      have hmark : ((first = '-' || first = '?' || first = ':') && others.head?.all isEdge) =
          false := by
        by_cases hfirst : first = '-'
        · subst hfirst
          cases others with
          | nil => exact absurd rfl hdash
          | cons second others =>
            have hsecond := hchars second (List.mem_cons_of_mem _ List.mem_cons_self)
            simp [isEdge_of_isNumberChar hsecond]
        · have hquestion := habsent (by decide : isNumberChar '?' = false) first List.mem_cons_self
          have hcolon := habsent (by decide : isNumberChar ':' = false) first List.mem_cons_self
          simp [hfirst, hquestion, hcolon]
      have hbracket : isBracket first = false := by
        simp only [isBracket, Bool.or_eq_false_iff, decide_eq_false_iff_not]
        refine ⟨⟨⟨⟨?_, ?_⟩, ?_⟩, ?_⟩, ?_⟩ <;> exact habsent (by decide) first List.mem_cons_self
      have hcomment := habsent (by decide : isNumberChar '#' = false) first List.mem_cons_self
      have hsingle := habsent (by decide : isNumberChar '\x27' = false) first List.mem_cons_self
      have hdouble := habsent (by decide : isNumberChar '"' = false) first List.mem_cons_self
      simp only [opensOtherwise, isReserved_of_isNumberChar hfirst, hbracket, hcomment, hsingle,
        hdouble, hmark, hstart, hend, decide_false, Bool.or_false]
  have hends : endsEarly text = false := by
    have hcolon : text.getLast? ≠ some ':' := fun hcolon =>
      habsent (by decide) ':' (List.mem_of_getLast? hcolon) rfl
    have hcolons : hasPair (· = ':') isEdge text = false :=
      hasPair_eq_false (.inl fun c hc => decide_eq_false (habsent (by decide) c hc))
    have hcomments : hasPair isEdge (· = '#') text = false :=
      hasPair_eq_false (.inr fun c hc => decide_eq_false (habsent (by decide) c hc))
    simp [endsEarly, hcolon, hcolons, hcomments]
  exact isPlain_iff.2
    ⟨fun c hc => isWritten_of_isNumberChar (hchars c hc), hhead, hlast, hopens, hends⟩

theorem mapM_eq_some_map {β γ : Type} {read : β → Option γ} (value : β → γ) {items : List β}
    (h : ∀ item ∈ items, read item = some (value item)) :
    items.mapM read = some (items.map value) := by
  induction items with
  | nil => rfl
  | cons item items ih =>
    rw [List.forall_mem_cons] at h
    simp [h.1, ih h.2]

theorem digitsIn?_of_isDigit (h : ∀ c ∈ text, c.isDigit) (hne : text ≠ []) :
    digitsIn? 10 text = some (Decimal.digitsValue text) := by
  have hsmall : ∀ c ∈ text, Decimal.digitValue c < 10 := by
    intro c hc
    have hdigit := h c hc
    simp only [Char.isDigit, Bool.and_eq_true, decide_eq_true_eq, ge_iff_le,
      UInt32.le_iff_toNat_le] at hdigit
    exact Nat.lt_succ_of_le (Nat.sub_le_sub_right hdigit.2 48)
  rw [digitsIn?, mapM_eq_some_map Decimal.digitValue]
  · simp [hne, Decimal.digitsValue, List.foldl_map]
  · intro c hc
    rw [if_pos (h c hc)]
    exact if_pos (hsmall c hc)

theorem isPlain_toDigits (n : Nat) : isPlain (Nat.toDigits 10 n) = true := by
  have hdigits : ∀ c ∈ Nat.toDigits 10 n, c.isDigit :=
    fun c hc => Decimal.isDigit_of_mem_toDigits hc
  have hmark {mark : List Char} (hmark : ∃ c ∈ mark, c.isDigit = false) :
      mark.isPrefixOf (Nat.toDigits 10 n) = false := by
    obtain ⟨c, hc, hother⟩ := hmark
    refine Bool.eq_false_iff.2 fun hprefix => Bool.eq_false_iff.1 hother (hdigits c ?_)
    exact (List.isPrefixOf_iff_prefix.1 hprefix).subset hc
  exact isPlain_of_isNumberChar (fun c hc => Decimal.isNumberChar_of_isDigit (hdigits c hc))
    (fun hdash => absurd (hdigits '-' (by simp [hdash])) (by decide))
    (hmark ⟨'-', List.mem_cons_self, rfl⟩) (hmark ⟨'.', List.mem_cons_self, rfl⟩)

theorem splitSign_toDigits (n : Nat) :
    Decimal.splitSign (Nat.toDigits 10 n) = (none, Nat.toDigits 10 n) := by
  obtain ⟨first, others, hdigits⟩ := List.exists_cons_of_ne_nil (Nat.toDigits_ne_nil (n := n))
  have hfirst : first.isDigit := Decimal.isDigit_of_mem_toDigits (hdigits ▸ List.mem_cons_self)
  rw [hdigits]
  exact Decimal.splitSign_of_digit hfirst others

theorem magnitude?_toDigits (n : Nat) : magnitude? (Nat.toDigits 10 n) = some n := by
  have hdigits : ∀ c ∈ Nat.toDigits 10 n, c.isDigit :=
    fun c hc => Decimal.isDigit_of_mem_toDigits hc
  have hread := digitsIn?_of_isDigit hdigits Nat.toDigits_ne_nil
  rw [Decimal.digitsValue_toDigits] at hread
  have hpadded : isPadded (Nat.toDigits 10 n) = false := by
    rw [isPadded, splitSign_toDigits]
    by_cases hn : n = 0
    · rw [hn]
      rfl
    · have hfirst := Decimal.head?_toDigits_ne hn
      split
      · rename_i heq
        exact absurd (congrArg List.head? heq) hfirst
      · rfl
  unfold magnitude?
  split
  · rename_i heq
    exact absurd (hdigits 'x' (by simp [heq])) (by decide)
  · rename_i heq
    exact absurd (hdigits 'o' (by simp [heq])) (by decide)
  · rename_i heq
    exact absurd (hdigits 'b' (by simp [heq])) (by decide)
  · simp [hpadded, hread]

theorem nat64?_toDigits {n : Nat} (h : n < 2 ^ 64) :
    (Scalar.mk true (Nat.toDigits 10 n)).nat64? = some n := by
  simp only [Scalar.nat64?, Scalar.typed, if_true, splitSign_toDigits, magnitude?_toDigits]
  exact Option.filter_eq_some_iff.2 ⟨rfl, decide_eq_true h⟩

theorem isPlain_of_numeral {n : Decimal.Numeral} (h : Decimal.Numeral.ofChars? text = some n)
    (hdigits : n.hasDigits = true) : isPlain text = true ∧ text ≠ [] := by
  have hlone {lone : List Char} {other : Decimal.Numeral}
      (hlone : Decimal.Numeral.ofChars? lone = some other) (hnone : other.hasDigits = false) :
      text ≠ lone := by
    rintro rfl
    cases hlone.symm.trans h
    exact Bool.eq_false_iff.1 hnone hdigits
  have hmark {mark : List Char}
      (hmark : ∀ rest, Decimal.Numeral.ofChars? (mark ++ rest) = none) :
      mark.isPrefixOf text = false := by
    refine Bool.eq_false_iff.2 fun hprefix => ?_
    obtain ⟨rest, rfl⟩ := List.isPrefixOf_iff_prefix.1 hprefix
    cases (hmark rest).symm.trans h
  exact ⟨isPlain_of_isNumberChar (Decimal.isNumberChar_of_ofChars? h) (hlone rfl rfl)
    (hmark fun _ => rfl) (hmark fun _ => rfl), hlone rfl rfl⟩

theorem isPlain_of_floatOf? {x : Float} (h : floatOf? text = some x) :
    isPlain text = true ∧ text ≠ [] := by
  unfold floatOf? at h
  simp only at h
  split at h
  · rename_i hinfinite
    simp only [isInfinite, Bool.or_eq_true, decide_eq_true_eq] at hinfinite
    rcases Decimal.splitSign_cases text with ⟨sign, rest, hsign, rfl, hsplit⟩ | hsplit
    · rw [hsplit] at hinfinite
      rcases hsign with rfl | rfl <;> rcases hinfinite with (rfl | rfl) | rfl <;> decide
    · rw [hsplit] at hinfinite
      rcases hinfinite with (rfl | rfl) | rfl <;> decide
  · split at h
    · rename_i hnan
      simp only [isNaN, Bool.or_eq_true, decide_eq_true_eq] at hnan
      rcases hnan with (rfl | rfl) | rfl <;> decide
    · split at h
      · rename_i n hn
        obtain ⟨⟨hdigits, -⟩, -⟩ := Option.ite_none_right_eq_some.1 h
        exact isPlain_of_numeral hn hdigits
      · cases h

end PaneTiling.Yaml
