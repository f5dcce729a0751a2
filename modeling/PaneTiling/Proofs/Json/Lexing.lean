import PaneTiling.Proofs.Decimal.Numeral
import PaneTiling.Json.Reader
import PaneTiling.Json.Printer

/-!
The tokens of a text that was printed. Between its tokens a printed text has nothing but line breaks
and blanks, and a word or a number in it is followed by what cannot belong to it; so its tokens are
those of the value, whatever comes after it.
-/

namespace PaneTiling.Json

mutual

def tokenList : Json → List Token
  | null => [.scalar .null]
  | bool value => [.scalar (.bool value)]
  | number literal => [.scalar (.number literal)]
  | string text => [.scalar (.string text)]
  | array [] => [.openArray, .closeArray]
  | array (item :: rest) =>
    .openArray :: (item.tokenList ++ laterItems rest ++ [.closeArray])
  | object [] => [.openObject, .closeObject]
  | object ((key, value) :: rest) =>
    .openObject :: .scalar (.string key) :: .colon ::
      (value.tokenList ++ laterFields rest ++ [.closeObject])

def laterItems : List Json → List Token
  | [] => []
  | item :: rest => .comma :: (item.tokenList ++ laterItems rest)

def laterFields : List (Option String × Json) → List Token
  | [] => []
  | (key, value) :: rest =>
    .comma :: .scalar (.string key) :: .colon :: (value.tokenList ++ laterFields rest)

end

mutual

/-- Every number within is one that a document may have, and every string has a text. -/
def Printable : Json → Prop
  | number literal => isNumber literal = true
  | string text => text.isSome
  | array items => ItemsPrintable items
  | object fields => FieldsPrintable fields
  | _ => True

def ItemsPrintable : List Json → Prop
  | [] => True
  | item :: rest => item.Printable ∧ ItemsPrintable rest

def FieldsPrintable : List (Option String × Json) → Prop
  | [] => True
  | (key, value) :: rest => key.isSome ∧ value.Printable ∧ FieldsPrintable rest

end

theorem itemsPrintable_iff {items : List Json} :
    ItemsPrintable items ↔ ∀ item ∈ items, item.Printable := by
  induction items with
  | nil => simp [ItemsPrintable]
  | cons item rest ih => simp [ItemsPrintable, ih]

def Stops (rest : List Char) : Prop :=
  ∀ c ∈ rest.head?, c.isAlpha = false ∧ isNumberChar c = false

/-- Reading on from one place in a text, some tokens are found before another place is reached. -/
def Lexes (before : Pending) (text : List Char) (tokens : List Token) (after : Pending)
    (rest : List Char) : Prop :=
  tokensFrom before text = (tokensFrom after rest).map (tokens ++ ·)

namespace Lexes

variable {before middle after : Pending} {text between rest : List Char}
  {tokens first second : List Token}

theorem refl (before : Pending) (text : List Char) : Lexes before text [] before text := by
  simp [Lexes]

theorem trans (h : Lexes before text first middle between)
    (hrest : Lexes middle between second after rest) :
    Lexes before text (first ++ second) after rest := by
  unfold Lexes at *
  rw [h, hrest, Option.map_map]
  simp [Function.comp_def]

theorem step {c : Char} (h : Json.step before c = some (tokens, after)) (rest : List Char) :
    Lexes before (c :: rest) tokens after rest := by
  unfold Lexes
  rw [tokensFrom, h]
  cases hrest : tokensFrom after rest <;> simp [hrest]

end Lexes

theorem lexes_newLine (level : Nat) (rest : List Char) :
    Lexes .none (newLine level ++ rest) [] .none rest := by
  have hbreak : step .none '\n' = some ([], .none) := rfl
  have hblank : step .none ' ' = some ([], .none) := rfl
  have hblanks (count : Nat) : Lexes .none (List.replicate count ' ' ++ rest) [] .none rest := by
    induction count with
    | zero => exact .refl .none rest
    | succ count ih => exact (Lexes.step hblank _).trans ih
  exact (Lexes.step hbreak _).trans (hblanks (2 * level))

theorem lexes_end {pending : Pending} {token : Token} {rest : List Char}
    (hfinish : finish pending = some [token])
    (hstep : ∀ c ∈ rest.head?,
      step pending c = (stepFresh c).map fun next => (token :: next.1, next.2)) :
    Lexes pending rest [token] .none rest := by
  unfold Lexes
  cases rest with
  | nil =>
    have hnone : finish .none = some [] := rfl
    simp [tokensFrom, hfinish, hnone]
  | cons c rest =>
    have hfresh : step .none c = stepFresh c := rfl
    simp only [tokensFrom, hstep c rfl, hfresh]
    cases stepFresh c with
    | none => rfl
    | some next => cases hnext : tokensFrom next.2 rest <;> simp [hnext]

theorem lexes_run {pending : List Char → Pending} {more : Char → Bool}
    (hstep : ∀ reversed c, more c = true →
      step (pending reversed) c = some ([], pending (c :: reversed)))
    {text : List Char} (htext : ∀ c ∈ text, more c = true) (reversed rest : List Char) :
    Lexes (pending reversed) (text ++ rest) [] (pending (text.reverse ++ reversed)) rest := by
  induction text generalizing reversed with
  | nil => exact .refl _ rest
  | cons c text ih =>
    obtain ⟨hc, hrest⟩ := List.forall_mem_cons.1 htext
    rw [List.reverse_cons, List.append_assoc, List.singleton_append]
    exact .trans (.step (hstep reversed c hc) _) (ih hrest (c :: reversed))

theorem step_numberStart {c : Char} (h : c.isDigit ∨ c = '-') :
    step .none c = some ([], .number [c]) := by
  rcases h with hdigit | rfl
  · simp only [step, stepFresh]
    split
    iterate 7 exact absurd hdigit (by decide)
    have hblank : isBlank c = false := by
      refine Bool.eq_false_iff.2 fun hblank => ?_
      simp only [isBlank, Bool.or_eq_true, decide_eq_true_eq] at hblank
      rcases hblank with ((rfl | rfl) | rfl) | rfl <;> exact absurd hdigit (by decide)
    simp [hblank, hdigit]
  · rfl

theorem lexes_number {literal rest : List Char} (h : isNumber literal = true)
    (hrest : Stops rest) :
    Lexes .none (literal ++ rest) [.scalar (.number literal)] .none rest := by
  obtain ⟨hchars, first, others, rfl, hfirst⟩ := Decimal.isNumber_spelling h
  have hmore : ∀ (reversed : List Char) (c : Char), isNumberChar c = true →
      step (.number reversed) c = some ([], .number (c :: reversed)) := fun reversed c hc => by
    simp [step, hc]
  have hend : numberToken (others.reverse ++ [first]) =
      some (.scalar (.number (first :: others))) := by
    simp [numberToken, h]
  have hothers := lexes_run hmore (List.forall_mem_cons.1 hchars).2 [first] rest
  refine .trans (.step (step_numberStart hfirst) _) (hothers.trans (lexes_end ?_ fun c hc => ?_))
  · simp [finish, hend]
  · cases hfresh : stepFresh c <;> simp [step, hend, (hrest c hc).2, hfresh]

theorem lexes_word {first : Char} {others rest : List Char} {token : Token}
    (hstart : step .none first = some ([], .word [first]))
    (hothers : others.all Char.isAlpha = true)
    (hend : wordToken (others.reverse ++ [first]) = some token) (hrest : Stops rest) :
    Lexes .none (first :: others ++ rest) [token] .none rest := by
  have hmore : ∀ (reversed : List Char) (c : Char), c.isAlpha = true →
      step (.word reversed) c = some ([], .word (c :: reversed)) := fun reversed c hc => by
    simp [step, hc]
  have hword := lexes_run hmore (List.all_eq_true.1 hothers) [first] rest
  refine .trans (.step hstart _) (hword.trans (lexes_end ?_ fun c hc => ?_))
  · simp [finish, hend]
  · cases hfresh : stepFresh c <;> simp [step, hend, (hrest c hc).1, hfresh]

theorem hexValue?_digitChar {d : Nat} (h : d < 16) : hexValue? (Nat.digitChar d) = some d := by
  have hdigits : ∀ d < 16, hexValue? (Nat.digitChar d) = some d := by decide
  exact hdigits d h

abbrev Quoted.read (reversed : List Char) : Quoted := ⟨reversed, none, true⟩

theorem lexes_control {c : Char} (h : c.toNat < 0x20) (reversed rest : List Char) :
    Lexes (.escape (.read reversed))
      ('u' :: '0' :: '0' :: Nat.digitChar (c.toNat / 16) :: Nat.digitChar (c.toNat % 16) :: rest) []
      (.quoted (.read (c :: reversed))) rest := by
  have hmark : step (.escape (.read reversed)) 'u' =
      some ([], .unit (.read reversed) 0 4) := rfl
  have hfirst : step (.unit (.read reversed) 0 4) '0' =
      some ([], .unit (.read reversed) 0 3) := rfl
  have hsecond : step (.unit (.read reversed) 0 3) '0' =
      some ([], .unit (.read reversed) 0 2) := rfl
  have hthird : step (.unit (.read reversed) 0 2) (Nat.digitChar (c.toNat / 16)) =
      some ([], .unit (.read reversed) (c.toNat / 16) 1) := by
    simp [step, hexValue?_digitChar (show c.toNat / 16 < 16 by omega)]
  have hunit : 16 * (c.toNat / 16) + c.toNat % 16 = c.toNat := by omega
  have hpush : (Quoted.read reversed).pushUnit c.toNat = .read (c :: reversed) := by
    have hlow : ¬(0xD800 ≤ c.toNat ∧ c.toNat < 0xDC00) := by omega
    have hhigh : ¬(0xDC00 ≤ c.toNat ∧ c.toNat < 0xE000) := by omega
    simp only [Quoted.pushUnit, if_neg hlow, if_neg hhigh, Quoted.push, Char.ofNat_toNat]
    rfl
  have hfourth : step (.unit (.read reversed) (c.toNat / 16) 1) (Nat.digitChar (c.toNat % 16)) =
      some ([], .quoted (.read (c :: reversed))) := by
    simp [step, hexValue?_digitChar (show c.toNat % 16 < 16 by omega), hunit, hpush]
  exact .trans (.step hmark _) <| .trans (.step hfirst _) <| .trans (.step hsecond _) <|
    .trans (.step hthird _) (.step hfourth _)

theorem lexes_escapeChar (c : Char) (reversed rest : List Char) :
    Lexes (.quoted (.read reversed)) (escapeChar c ++ rest) []
      (.quoted (.read (c :: reversed))) rest := by
  have hmark : step (.quoted (.read reversed)) '\\' = some ([], .escape (.read reversed)) := rfl
  unfold escapeChar
  split
  iterate 7 exact .trans (.step hmark _) (.step rfl _)
  rename_i hquote hbackslash _ _ _ _ _
  split
  · rename_i hcontrol
    exact .trans (.step hmark _) (lexes_control hcontrol reversed rest)
  · rename_i hplain
    refine .step ?_ rest
    simp only [step, if_neg hquote, if_neg hbackslash, if_neg hplain]
    rfl

theorem lexes_quote (text : String) (rest : List Char) :
    Lexes .none (quote text ++ rest) [.scalar (.string (some text))] .none rest := by
  have hchars (chars reversed rest : List Char) :
      Lexes (.quoted (.read reversed)) (chars.flatMap escapeChar ++ rest) []
        (.quoted (.read (chars.reverse ++ reversed))) rest := by
    induction chars generalizing reversed with
    | nil => exact .refl _ rest
    | cons c chars ih =>
      rw [List.flatMap_cons, List.append_assoc, List.reverse_cons, List.append_assoc,
        List.singleton_append]
      exact (lexes_escapeChar c reversed _).trans (ih (c :: reversed))
  have hopen : step .none '"' = some ([], .quoted (.read [])) := rfl
  have hclose : step (.quoted (.read (text.toList.reverse ++ []))) '"' =
      some ([.scalar (.string (some text))], .none) := by
    simp [step, Quoted.text]
  have htext : quote text ++ rest = '"' :: (text.toList.flatMap escapeChar ++ '"' :: rest) := by
    simp [quote]
  rw [htext]
  exact .trans (.step hopen _) (.trans (hchars _ _ _) (.step hclose rest))

theorem stops_newLine (level : Nat) (rest : List Char) : Stops (newLine level ++ rest) := by
  rintro _ ⟨⟩
  decide

theorem stops_prettyItems (level : Nat) (items : List Json) {rest : List Char} (h : Stops rest) :
    Stops (prettyItems level items ++ rest) := by
  cases items with
  | nil => exact h
  | cons item items =>
    rintro _ ⟨⟩
    decide

theorem stops_prettyFields (level : Nat) (fields : List (Option String × Json)) {rest : List Char}
    (h : Stops rest) : Stops (prettyFields level fields ++ rest) := by
  cases fields with
  | nil => exact h
  | cons field fields =>
    rintro _ ⟨⟩
    decide

theorem step_openArray : step .none '[' = some ([.openArray], .none) := rfl

theorem step_closeArray : step .none ']' = some ([.closeArray], .none) := rfl

theorem step_openObject : step .none '\x7b' = some ([.openObject], .none) := rfl

theorem step_closeObject : step .none '\x7d' = some ([.closeObject], .none) := rfl

theorem step_comma : step .none ',' = some ([.comma], .none) := rfl

theorem lexes_close (level : Nat) {c : Char} {token : Token}
    (h : step .none c = some ([token], .none)) (rest : List Char) :
    Lexes .none (newLine level ++ c :: rest) [token] .none rest :=
  (lexes_newLine level _).trans (.step h rest)

theorem lexes_key {key : Option String} (h : key.isSome) (rest : List Char) :
    Lexes .none (quote (key.getD "") ++ ':' :: ' ' :: rest) [.scalar (.string key), .colon] .none
      rest := by
  obtain ⟨name, rfl⟩ := Option.isSome_iff_exists.1 h
  have hcolon : step .none ':' = some ([.colon], .none) := rfl
  have hblank : step .none ' ' = some ([], .none) := rfl
  exact .trans (lexes_quote name _) (.trans (.step hcolon _) (.step hblank rest))

mutual

theorem lexes_pretty (level : Nat) :
    (value : Json) → value.Printable → ∀ {rest : List Char}, Stops rest →
      Lexes .none (value.pretty level ++ rest) value.tokenList .none rest
  | .null, _, _, hrest => lexes_word rfl rfl rfl hrest
  | .bool true, _, _, hrest => lexes_word rfl rfl rfl hrest
  | .bool false, _, _, hrest => lexes_word rfl rfl rfl hrest
  | .number literal, h, rest, hrest => lexes_number h hrest
  | .string text, h, rest, _ => by
    obtain ⟨text, rfl⟩ := Option.isSome_iff_exists.1 h
    exact lexes_quote text rest
  | .array [], _, rest, _ => by
    exact (Lexes.step step_openArray _).trans (.step step_closeArray rest)
  | .array (item :: items), h, rest, _ => by
    have hend := lexes_close level step_closeArray rest
    have hitems := lexes_prettyItems (level + 1) items h.2 (stops_newLine level (']' :: rest))
    have hitem := lexes_pretty (level + 1) item h.1
      (stops_prettyItems (level + 1) items (stops_newLine level (']' :: rest)))
    have hvalue := (Lexes.step step_openArray _).trans
      ((lexes_newLine (level + 1) _).trans (hitem.trans (hitems.trans hend)))
    simpa [pretty, tokenList] using hvalue
  | .object [], _, rest, _ => by
    exact (Lexes.step step_openObject _).trans (.step step_closeObject rest)
  | .object ((key, value) :: fields), h, rest, _ => by
    have hend := lexes_close level step_closeObject rest
    have hfields := lexes_prettyFields (level + 1) fields h.2.2
      (stops_newLine level ('\x7d' :: rest))
    have hfield := lexes_pretty (level + 1) value h.2.1
      (stops_prettyFields (level + 1) fields (stops_newLine level ('\x7d' :: rest)))
    have hvalue := (Lexes.step step_openObject _).trans
      ((lexes_newLine (level + 1) _).trans ((lexes_key h.1 _).trans
        (hfield.trans (hfields.trans hend))))
    simpa [pretty, tokenList] using hvalue

theorem lexes_prettyItems (level : Nat) :
    (items : List Json) → ItemsPrintable items → ∀ {rest : List Char}, Stops rest →
      Lexes .none (prettyItems level items ++ rest) (laterItems items) .none rest
  | [], _, rest, _ => .refl .none rest
  | item :: items, h, rest, hrest => by
    rw [ItemsPrintable] at h
    have hitem := lexes_pretty level item h.1 (stops_prettyItems level items hrest)
    have hitems := lexes_prettyItems level items h.2 hrest
    have hvalue := (Lexes.step step_comma _).trans
      ((lexes_newLine level _).trans (hitem.trans hitems))
    simpa [prettyItems, laterItems] using hvalue

theorem lexes_prettyFields (level : Nat) :
    (fields : List (Option String × Json)) → FieldsPrintable fields → ∀ {rest : List Char},
      Stops rest → Lexes .none (prettyFields level fields ++ rest) (laterFields fields) .none rest
  | [], _, rest, _ => .refl .none rest
  | (key, value) :: fields, h, rest, hrest => by
    rw [FieldsPrintable] at h
    have hfield := lexes_pretty level value h.2.1 (stops_prettyFields level fields hrest)
    have hfields := lexes_prettyFields level fields h.2.2 hrest
    have hvalue := (Lexes.step step_comma _).trans
      ((lexes_newLine level _).trans ((lexes_key h.1 _).trans (hfield.trans hfields)))
    simpa [prettyFields, laterFields] using hvalue

end

end PaneTiling.Json
