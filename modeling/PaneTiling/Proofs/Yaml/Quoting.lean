import PaneTiling.Proofs.Yaml.Lexing
import Mathlib.Data.Nat.Digits.Defs

/-!
Texts within quotes. Whatever a text holds, it is read back from how it is quoted: between single
quotes where everything in it prints, and with escapes otherwise.
-/

namespace PaneTiling.Yaml

namespace Scan

variable {line column : Nat} {quoted : Partial → Pending} {written text : List Char} {c : Char}

/-- Within quotes, what is written makes the scalar grow by a text. -/
def Reads (line : Nat) (quoted : Partial → Pending) (written text : List Char) : Prop :=
  ∀ p : Partial, p.gap.isBroken = false → ∃ q, p.Grows text q ∧ ∀ column rest,
    Lexes (within line column (quoted p)) (written ++ rest) []
      (within line (column + written.length) (quoted q)) rest

theorem reads_push (h : ∀ (p : Partial) (column : Nat) (rest : List Char),
    Lexes (within line column (quoted p)) (written ++ rest) []
      (within line (column + written.length) (quoted (p.push c))) rest) :
    Reads line quoted written [c] :=
  fun p _ => ⟨p.push c, p.grows_push c, h p⟩

theorem reads_feed (hbreak : isBreak c = false)
    (h : ∀ (p : Partial) (column : Nat),
      (within line column (quoted p)).react c = some ([], within line column (quoted (p.feed c)))) :
    Reads line quoted [c] [c] :=
  fun p hp => ⟨p.feed c, Partial.grows_feed hp c, fun column => lexes_within hbreak (h p column)⟩

theorem reads_flatMap {write : Char → List Char}
    (h : ∀ c ∈ text, Reads line quoted (write c) [c]) :
    Reads line quoted (text.flatMap write) text := by
  induction text with
  | nil => exact fun p hp => ⟨p, .refl hp, fun column rest => .refl _ rest⟩
  | cons c text ih =>
    rw [List.forall_mem_cons] at h
    intro p hp
    obtain ⟨q, hgrows, hlexes⟩ := h.1 p hp
    obtain ⟨r, hrest, hothers⟩ := ih h.2 q hgrows.unbroken
    refine ⟨r, hgrows.trans hrest, fun column rest => ?_⟩
    rw [List.flatMap_cons, List.append_assoc, List.length_append, ← Nat.add_assoc]
    exact (hlexes column _).trans (hothers _ rest)

theorem lexes_quoted {mark : Char} (hedge : isEdge mark = false)
    (hopen : ∀ s : Scan, s.stepFresh mark =
      some ([], { s.settle with pending := quoted ⟨s.spot, [], .empty⟩ }))
    (hreads : Reads line quoted written text)
    (hclose : ∀ (p : Partial) (column : Nat) (rest : List Char),
      Lexes (within line column (quoted p)) (mark :: '\n' :: rest) [quotedToken p]
        (lineStart (line + 1) .none) rest) (rest : List Char) :
    Lexes (within line column .none) (mark :: written ++ mark :: '\n' :: rest)
      [(.scalar ⟨false, text⟩, ⟨line, column, false⟩)] (lineStart (line + 1) .none) rest := by
  obtain ⟨q, hgrows, hlexes⟩ := hreads ⟨⟨line, column, false⟩, [], .empty⟩ rfl
  have htoken : quotedToken q = (.scalar ⟨false, text⟩, ⟨line, column, false⟩) := by
    rw [quotedToken, hgrows.whole, hgrows.start]
    rfl
  rw [← htoken]
  exact ((ready_within line column).lexes_wait hedge (hopen _) _).trans
    ((hlexes _ _).trans (hclose q _ rest))

def singleQuotedChar (c : Char) : List Char := if c = '\x27' then [c, c] else [c]

theorem singleQuoted_eq (h : ∀ c ∈ text, isBreak c = false) :
    singleQuoted false text = text.flatMap singleQuotedChar ++ ['\x27'] := by
  induction text with
  | nil => rfl
  | cons c text ih =>
    rw [List.forall_mem_cons] at h
    rw [singleQuoted, ih h.2]
    by_cases hblank : c = ' '
    · subst hblank
      rfl
    · simp [h.1, hblank, indentation, singleQuotedChar]

theorem reads_singleQuotedChar (hbreak : isBreak c = false) :
    Reads line .single (singleQuotedChar c) [c] := by
  unfold singleQuotedChar
  split
  · rename_i hquote
    subst hquote
    refine reads_push fun p column rest => ?_
    have hfirst : (within line column (.single p)).react '\x27' =
        some ([], within line column (.quote p)) := rfl
    have hsecond : (within line (column + 1) (.quote p)).react '\x27' =
        some ([], within line (column + 1) (.single (p.push '\x27'))) := rfl
    exact (lexes_within rfl hfirst _).trans (lexes_within rfl hsecond rest)
  · rename_i hquote
    refine reads_feed hbreak fun p column => ?_
    by_cases hblank : isBlank c
    · simp [react, Partial.feed, within, hbreak, hblank]
    · simp [react, Partial.feed, within, hbreak, hblank, hquote]

theorem lexes_singleQuoted (h : ∀ c ∈ text, isBreak c = false) (rest : List Char) :
    Lexes (within line column .none) ('\x27' :: singleQuoted false text ++ '\n' :: rest)
      [(.scalar ⟨false, text⟩, ⟨line, column, false⟩)] (lineStart (line + 1) .none) rest := by
  have hreads : Reads line .single (text.flatMap singleQuotedChar) text :=
    reads_flatMap fun c hc => reads_singleQuotedChar (h c hc)
  have hclose (p : Partial) (column : Nat) (rest : List Char) :
      Lexes (within line column (.single p)) ('\x27' :: '\n' :: rest) [quotedToken p]
        (lineStart (line + 1) .none) rest := by
    have hfirst : (within line column (.single p)).react '\x27' =
        some ([], within line column (.quote p)) := rfl
    have hsecond : (within line (column + 1) (.quote p)).step '\n' =
        some ([quotedToken p], lineStart (line + 1) .none) := rfl
    exact (lexes_within rfl hfirst _).trans (.step hsecond rest)
  rw [singleQuoted_eq h, List.cons_append, List.append_assoc]
  exact lexes_quoted rfl (fun _ => rfl) hreads hclose rest

end Scan

def codeValue? (value : Nat) (digits : List Char) : Option Nat :=
  digits.foldlM (fun value c => (digitsIn? 16 [c]).map (16 * value + ·)) value

theorem digitsIn?_hexDigit {d : Nat} (h : d < 16) :
    digitsIn? 16 [(Nat.digitChar d).toUpper] = some d := by
  have hdigits : ∀ d < 16, digitsIn? 16 [(Nat.digitChar d).toUpper] = some d := by decide
  exact hdigits d h

theorem codeValue?_toDigits (n : Nat) :
    codeValue? 0 ((Nat.toDigits 16 n).map Char.toUpper) = some n := by
  induction n using Nat.strongRecOn with
  | ind n ih =>
    by_cases hsmall : n < 16
    · rw [Nat.toDigits_of_lt_base hsmall]
      simp [codeValue?, digitsIn?_hexDigit hsmall]
    · have hhigh := ih (n / 16) (by omega)
      have hlow := digitsIn?_hexDigit (Nat.mod_lt n (by decide : 16 > 0))
      rw [codeValue?] at hhigh ⊢
      rw [Nat.toDigits_of_base_le (by decide) (Nat.not_lt.1 hsmall), List.map_append,
        List.foldlM_append, hhigh]
      simp [hlow, Nat.div_add_mod]

theorem codeValue?_hexDigits (width n : Nat) : codeValue? 0 (hexDigits width n) = some n := by
  have hzeros (count : Nat) : codeValue? 0 (List.replicate count '0') = some 0 := by
    induction count with
    | zero => rfl
    | succ count ih => exact ih
  have hdigits := codeValue?_toDigits n
  rw [hexDigits]
  unfold codeValue? at hzeros hdigits ⊢
  rw [List.foldlM_append, hzeros]
  exact hdigits

theorem exists_of_mem_toDigits {n : Nat} {c : Char} (h : c ∈ Nat.toDigits 16 n) :
    ∃ d < 16, c = Nat.digitChar d := by
  induction n using Nat.strongRecOn with
  | ind n ih =>
    by_cases hsmall : n < 16
    · rw [Nat.toDigits_of_lt_base hsmall, List.mem_singleton] at h
      exact ⟨n, hsmall, h⟩
    · rw [Nat.toDigits_of_base_le (by decide) (Nat.not_lt.1 hsmall), List.mem_append,
        List.mem_singleton] at h
      rcases h with hhigh | hlow
      · exact ih (n / 16) (by omega) hhigh
      · exact ⟨n % 16, Nat.mod_lt n (by decide), hlow⟩

theorem isWritten_hexDigits {width n : Nat} : ∀ c ∈ hexDigits width n, isWritten c = true := by
  have hdigits : ∀ d < 16, isWritten (Nat.digitChar d).toUpper = true := by decide
  intro c hc
  rcases List.mem_append.1 hc with hzero | hdigit
  · rw [List.eq_of_mem_replicate hzero]
    exact hdigits 0 (by decide)
  · obtain ⟨other, hother, rfl⟩ := List.mem_map.1 hdigit
    obtain ⟨d, hd, rfl⟩ := exists_of_mem_toDigits hother
    exact hdigits d hd

theorem length_hexDigits {width n : Nat} (hwidth : 0 < width) (hn : n < 16 ^ width) :
    (hexDigits width n).length = width := by
  have hlength := Nat.toDigits_length 16 n width hwidth hn
  simp only [hexDigits, List.length_append, List.length_replicate, List.length_map]
  omega

namespace Scan

variable {line column : Nat} {p : Partial} {c : Char}

theorem stepCode_last {s : Scan} {first : Char} {value digit : Nat}
    (hdigit : digitsIn? 16 [first] = some digit) (hcode : 16 * value + digit = c.toNat) :
    s.stepCode p value 1 first = some ([], { s with pending := .double (p.push c) }) := by
  have hvalid : (16 * value + digit).isValidChar := hcode ▸ c.valid
  have hchar : Char.ofNatAux (16 * value + digit) hvalid = c :=
    Char.ext (UInt32.toNat_inj.1 hcode)
  rw [stepCode, hdigit, Option.bind_eq_bind, Option.bind_some, if_neg (Nat.lt_irrefl 1),
    dif_pos hvalid, hchar]
  rfl

theorem lexes_code (line column : Nat) (p : Partial) {digits : List Char} {value : Nat}
    (hne : digits ≠ []) (hedge : ∀ c ∈ digits, isBreak c = false)
    (hvalue : codeValue? value digits = some c.toNat) (rest : List Char) :
    Lexes (within line column (.code p value digits.length)) (digits ++ rest) []
      (within line (column + digits.length) (.double (p.push c))) rest := by
  induction digits generalizing value column with
  | nil => exact absurd rfl hne
  | cons first others ih =>
    rw [List.forall_mem_cons] at hedge
    obtain ⟨next, hnext, hothers⟩ := Option.bind_eq_some_iff.1 hvalue
    obtain ⟨digit, hdigit, rfl⟩ := Option.map_eq_some_iff.1 hnext
    cases others with
    | nil =>
      have hlast : (within line column (.code p value 1)).react first =
          some ([], within line column (.double (p.push c))) :=
        stepCode_last hdigit (Option.some.inj hothers)
      exact lexes_within hedge.1 hlast rest
    | cons second others =>
      have hstep : (within line column (.code p value (others.length + 2))).react first =
          some ([], within line column (.code p (16 * value + digit) (others.length + 1))) := by
        simp [react, stepCode, within, hdigit]
      have hend : column + (first :: second :: others).length =
          column + 1 + (second :: others).length := by
        rw [List.length_cons, Nat.add_comm (second :: others).length, Nat.add_assoc]
      rw [hend]
      exact (lexes_within hedge.1 hstep _).trans (ih (column + 1) (by simp) hedge.2 hothers)

theorem lexes_escape (c : Char) (p : Partial) (rest : List Char) :
    Lexes (within line column (.double p)) (escape c ++ rest) []
      (within line (column + (escape c).length) (.double (p.push c))) rest := by
  have hmark (column : Nat) : (within line column (.double p)).react '\\' =
      some ([], within line column (.escape p)) := rfl
  have hcode (mark : Char) (width : Nat) (hwidth : 0 < width) (hvalue : c.toNat < 16 ^ width)
      (hstart : ∀ column, (within line column (.escape p)).react mark =
        some ([], within line column (.code p 0 width))) (hedge : isBreak mark = false) :
      Lexes (within line column (.double p)) ('\\' :: mark :: hexDigits width c.toNat ++ rest) []
        (within line (column + ('\\' :: mark :: hexDigits width c.toNat).length)
          (.double (p.push c))) rest := by
    have hlength := length_hexDigits hwidth hvalue
    have hdigits := lexes_code line (column + 2) p
      (List.ne_nil_of_length_pos (by rw [hlength]; exact hwidth))
      (fun d hd => (isWritten_iff.1 (isWritten_hexDigits d hd)).2)
      (codeValue?_hexDigits width c.toNat) rest
    rw [hlength] at hdigits
    rw [List.length_cons, List.length_cons, hlength, Nat.add_assoc width, Nat.add_comm width,
      ← Nat.add_assoc]
    exact (lexes_within rfl (hmark column) _).trans
      ((lexes_within hedge (hstart (column + 1)) _).trans hdigits)
  unfold escape
  split
  iterate 14 exact (lexes_within rfl (hmark column) _).trans (lexes_within rfl rfl rest)
  split
  · exact hcode 'x' 2 (by decide) (by omega) (fun _ => rfl) rfl
  · split
    · exact hcode 'u' 4 (by decide) (by omega) (fun _ => rfl) rfl
    · have hmax : c.toNat < 16 ^ 8 := by
        rcases c.valid with h | ⟨-, h⟩ <;> exact Nat.lt_of_lt_of_le h (by decide)
      exact hcode 'U' 8 (by decide) hmax (fun _ => rfl) rfl

theorem doubleQuotedChar_cases (c : Char) :
    doubleQuotedChar c = escape c ∨
      doubleQuotedChar c = [c] ∧ isWritten c = true ∧ c ≠ '"' ∧ c ≠ '\\' := by
  unfold doubleQuotedChar
  split
  · exact .inl rfl
  · rename_i hplain
    simp only [Bool.or_eq_true, Bool.not_eq_true', decide_eq_true_eq, not_or, Bool.not_eq_false,
      Bool.not_eq_true] at hplain
    exact .inr ⟨rfl, isWritten_iff.2 hplain.1.1, hplain.1.2, hplain.2⟩

theorem reads_doubleQuotedChar (c : Char) : Reads line .double (doubleQuotedChar c) [c] := by
  rcases doubleQuotedChar_cases c with hescape | ⟨hsame, hwritten, hquote, hbackslash⟩
  · rw [hescape]
    exact reads_push fun p column rest => lexes_escape c p rest
  · have hbreak := (isWritten_iff.1 hwritten).2
    rw [hsame]
    refine reads_feed hbreak fun p column => ?_
    by_cases hblank : isBlank c
    · simp [react, Partial.feed, within, hbreak, hblank]
    · simp [react, Partial.feed, within, hbreak, hblank, hquote, hbackslash]

theorem lexes_doubleQuoted (text rest : List Char) :
    Lexes (within line column .none) (doubleQuoted text ++ '\n' :: rest)
      [(.scalar ⟨false, text⟩, ⟨line, column, false⟩)] (lineStart (line + 1) .none) rest := by
  have hreads : Reads line .double (text.flatMap doubleQuotedChar) text :=
    reads_flatMap fun c _ => reads_doubleQuotedChar c
  have hclose (p : Partial) (column : Nat) (rest : List Char) :
      Lexes (within line column (.double p)) ('"' :: '\n' :: rest) [quotedToken p]
        (lineStart (line + 1) .none) rest := by
    have hfirst : (within line column (.double p)).react '"' =
        some ([quotedToken p], within line column .none) := rfl
    have hsecond : (within line (column + 1) .none).step '\n' =
        some ([], lineStart (line + 1) .none) := rfl
    exact (lexes_within rfl hfirst _).trans (.step hsecond rest)
  rw [doubleQuoted, List.cons_append, List.cons_append, List.append_assoc]
  exact lexes_quoted rfl (fun _ => rfl) hreads hclose rest

end Scan

/-- What is written on the rest of a line stands for a scalar, whatever the next line starts
with. -/
structure Stands (written : List Char) (value : Scalar) : Prop where
  isWritten : ∀ c ∈ written, isWritten c = true
  lexes : ∀ (line column : Nat) {rest : List Char}, StartsLine rest →
    Scan.Lexes (.within line column .none) (written ++ '\n' :: rest)
      [(.scalar value, ⟨line, column, false⟩)] (.lineStart (line + 1) .none) rest

variable {text : List Char}

theorem stands_plain (hplain : isPlain text = true) (hne : text ≠ []) : Stands text ⟨true, text⟩ :=
  ⟨(isPlain_iff.1 hplain).1, fun _ _ => Scan.lexes_plainValue hplain hne⟩

theorem stands_singleQuoted (h : ∀ c ∈ text, isWritten c = true) :
    Stands ('\x27' :: singleQuoted false text) ⟨false, text⟩ := by
  have hbreak : ∀ c ∈ text, isBreak c = false := fun c hc => (isWritten_iff.1 (h c hc)).2
  refine ⟨?_, fun line column rest _ => Scan.lexes_singleQuoted hbreak rest⟩
  rw [Scan.singleQuoted_eq hbreak]
  intro c hc
  simp only [List.mem_cons, List.mem_append, List.mem_flatMap, List.not_mem_nil, or_false] at hc
  rcases hc with rfl | ⟨d, hd, hc⟩ | rfl
  · decide
  · have hsame : c = d := by
      unfold Scan.singleQuotedChar at hc
      split at hc <;> simpa using hc
    exact hsame ▸ h d hd
  · decide

theorem isWritten_escape (c : Char) : ∀ d ∈ escape c, isWritten d = true := by
  have hcode (mark : Char) (hmark : isWritten mark = true) (width n : Nat) :
      ∀ d ∈ '\\' :: mark :: hexDigits width n, isWritten d = true :=
    List.forall_mem_cons.2 ⟨by decide, List.forall_mem_cons.2 ⟨hmark, isWritten_hexDigits⟩⟩
  have hshort (mark : Char) (hmark : isWritten mark = true) :
      ∀ d ∈ ['\\', mark], isWritten d = true :=
    List.forall_mem_cons.2 ⟨by decide, List.forall_mem_singleton.2 hmark⟩
  unfold escape
  split
  iterate 14 exact hshort _ rfl
  split
  · exact hcode 'x' (by decide) 2 _
  · split
    · exact hcode 'u' (by decide) 4 _
    · exact hcode 'U' (by decide) 8 _

theorem isWritten_doubleQuotedChar (c : Char) :
    ∀ d ∈ doubleQuotedChar c, isWritten d = true := by
  rcases Scan.doubleQuotedChar_cases c with hescape | ⟨hsame, hwritten, -⟩
  · rw [hescape]
    exact isWritten_escape c
  · simpa [hsame] using hwritten

theorem stands_doubleQuoted (text : List Char) : Stands (doubleQuoted text) ⟨false, text⟩ := by
  refine ⟨fun c hc => ?_, fun line column rest _ => Scan.lexes_doubleQuoted text rest⟩
  simp only [doubleQuoted, List.cons_append, List.mem_cons, List.mem_append, List.mem_flatMap,
    List.not_mem_nil, or_false] at hc
  rcases hc with rfl | ⟨d, -, hc⟩ | rfl
  · decide
  · exact isWritten_doubleQuotedChar d c hc
  · decide

theorem exists_valueText (h : ∀ c ∈ text, isBreak c = false) :
    ∃ written value, valueText text = written ++ ['\n'] ∧ Stands written value ∧
      value.text = text ∧ value.isNull = false := by
  have hline : '\n' ∉ text := fun hmem => absurd (h '\n' hmem) (by decide)
  unfold valueText
  rw [if_neg hline]
  split
  · rename_i hplain
    obtain ⟨hplain, hclear⟩ := hplain
    rw [Bool.not_eq_true', isAmbiguous] at hclear
    simp only [Bool.or_eq_false_iff] at hclear
    have hne : text ≠ [] := by
      rintro rfl
      exact absurd hclear.1.1.1.1 (by decide)
    exact ⟨text, ⟨true, text⟩, rfl, stands_plain hplain hne, rfl, hclear.1.1.1.1⟩
  · split
    · rename_i hquotable
      simp only [isQuotable, Bool.and_eq_true, List.all_eq_true] at hquotable
      exact ⟨_, ⟨false, text⟩, rfl,
        stands_singleQuoted fun c hc => isWritten_iff.2 ⟨hquotable.1.1 c hc, h c hc⟩, rfl, rfl⟩
    · exact ⟨_, ⟨false, text⟩, rfl, stands_doubleQuoted text, rfl, rfl⟩

end PaneTiling.Yaml
