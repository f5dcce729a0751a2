import PaneTiling.Proofs.Yaml.Quoting
import PaneTiling.Yaml.Reader
import Mathlib.Data.List.TakeWhile

/-!
Documents with one entry on each line. No line is passed over or ends the document, the tokens of a
line are those of its entry, and each entry starts at a token that leads its line; so the document
is the mapping of the entries.
-/

namespace PaneTiling.Yaml

structure Entry where
  key : List Char
  /-- The value as it is written. -/
  written : List Char
  value : Scalar

namespace Entry

def line (e : Entry) : List Char := e.key ++ ':' :: ' ' :: e.written ++ ['\n']

def member (e : Entry) : Scalar × Yaml := (⟨true, e.key⟩, .scalar e.value)

/-- The key can stand without quotes, and what is written of the value stands for it. -/
structure Fits (e : Entry) : Prop where
  plain : isPlain e.key = true
  key_ne : e.key ≠ []
  stands : Stands e.written e.value

end Entry

variable {e : Entry} {entries : List Entry}

theorem linesOf_append {body : List Char} (h : ∀ c ∈ body, isBreak c = false) (rest : List Char) :
    linesOf (body ++ '\n' :: rest) = (body ++ ['\n']) :: linesOf rest := by
  induction body with
  | nil => rfl
  | cons c body ih =>
    rw [List.forall_mem_cons] at h
    simp [linesOf, h.1, ih h.2]

theorem unifyBreaks_of_isPrintable {text : List Char} (h : ∀ c ∈ text, isPrintable c = true) :
    unifyBreaks text = text := by
  induction text with
  | nil => rfl
  | cons c text ih =>
    rw [List.forall_mem_cons] at h
    have hreturn : c ≠ '\r' := by
      rintro rfl
      exact absurd h.1 (by decide)
    have hnext : c ≠ '\x85' := by
      rintro rfl
      exact absurd h.1 (by decide)
    rw [unifyBreaks, ih h.2]
    exacts [fun _ hc => absurd hc hreturn, hreturn, hnext]

theorem isAllowed_of_isPrintable {c : Char} (h : isPrintable c = true) : isAllowed c = true := by
  simp only [isPrintable, isAllowed, Bool.or_eq_true, Bool.and_eq_true, decide_eq_true_eq] at h ⊢
  tauto

/-- A line that is part of a document, and not passed over in it. -/
structure Clear (line : List Char) : Prop where
  busy : isIdle line = false
  noStart : afterMark? startMark line = none
  noEnd : afterMark? endMark line = none

theorem documentTokens?_of_clear {lines : List (List Char)} (h : ∀ line ∈ lines, Clear line) :
    documentTokens? lines = (Scan.start true).tokens lines.flatten := by
  have hcounts : ∀ line ∈ lines,
      (!((afterMark? startMark line).isSome || (afterMark? endMark line).isSome)) = true := by
    intro line hline
    rw [(h line hline).noStart, (h line hline).noEnd]
    rfl
  have htake := List.takeWhile_eq_self_iff.2 hcounts
  have hrest := List.dropWhile_eq_nil_iff.2 hcounts
  have hdrop : lines.dropWhile (fun line => isIdle line || isEnd line) = lines := by
    cases lines with
    | nil => rfl
    | cons first rest =>
      have hfirst := h first List.mem_cons_self
      simp [hfirst.busy, isEnd, hfirst.noEnd]
  cases lines with
  | nil => rfl
  | cons first rest =>
    have hfirst := (h first List.mem_cons_self).noStart
    simp only [documentTokens?, hdrop, hfirst, htake, hrest]
    rfl

namespace Entry

theorem Fits.isWritten_body (h : e.Fits) :
    ∀ c ∈ e.key ++ ':' :: ' ' :: e.written, isWritten c = true := by
  intro c hc
  simp only [List.mem_append, List.mem_cons] at hc
  rcases hc with hkey | rfl | rfl | hvalue
  · exact (isPlain_iff.1 h.plain).1 c hkey
  · decide
  · decide
  · exact h.stands.isWritten c hvalue

theorem linesOf_lines (h : ∀ e ∈ entries, e.Fits) :
    linesOf (entries.flatMap line) = entries.map line := by
  induction entries with
  | nil => rfl
  | cons e entries ih =>
    rw [List.forall_mem_cons] at h
    have hline := linesOf_append (fun c hc => (isWritten_iff.1 (h.1.isWritten_body c hc)).2)
      (entries.flatMap line)
    rw [List.flatMap_cons, line, List.append_assoc, List.singleton_append, hline, ih h.2]
    rfl

theorem isPrintable_lines (h : ∀ e ∈ entries, e.Fits) :
    ∀ c ∈ entries.flatMap line, isPrintable c = true := by
  intro c hc
  obtain ⟨e, he, hc⟩ := List.mem_flatMap.1 hc
  rcases List.mem_append.1 hc with hbody | hbreak
  · exact (isWritten_iff.1 ((h e he).isWritten_body c hbody)).1
  · rw [List.mem_singleton.1 hbreak]
    decide

theorem afterMark?_line {mark : List Char} (hcolon : ':' ∉ mark)
    (hkey : mark.isPrefixOf e.key = false) : afterMark? mark e.line = none := by
  refine if_neg fun hmark => ?_
  have hshort : e.key ++ [':'] <+: e.line := ⟨' ' :: e.written ++ ['\n'], by simp [line]⟩
  rcases List.prefix_or_prefix_of_prefix (List.isPrefixOf_iff_prefix.1 hmark) hshort with hle | hle
  · rcases List.prefix_concat_iff.1 hle with rfl | hle
    · exact hcolon (by simp)
    · exact absurd (List.isPrefixOf_iff_prefix.2 hle) (Bool.eq_false_iff.1 hkey)
  · exact hcolon (hle.subset (by simp))

theorem Fits.clear_line (h : e.Fits) : Clear e.line := by
  obtain ⟨first, others, hkey, hedge, hopens⟩ := exists_first_of_isPlain h.plain h.key_ne
  rw [hkey] at hopens
  simp only [opensOtherwise, Bool.or_eq_false_iff, decide_eq_false_iff_not] at hopens
  obtain ⟨⟨⟨⟨⟨⟨-, hcomment⟩, -⟩, -⟩, -⟩, hstart⟩, hend⟩ := hopens
  rw [← hkey] at hstart hend
  refine ⟨?_, afterMark?_line (by decide) hstart, afterMark?_line (by decide) hend⟩
  have hblank : first ≠ ' ' := by
    rintro rfl
    exact absurd hedge (by decide)
  simp [isIdle, line, hkey, hblank, hcomment, (isEdge_eq_false.1 hedge).2]

def tokens (e : Entry) (line : Nat) : List Placed :=
  [(.scalar ⟨true, e.key⟩, ⟨line, 0, true⟩), (.colon, ⟨line, e.key.length, false⟩),
    (.scalar e.value, ⟨line, e.key.length + 2, false⟩)]

def tokensFrom (line : Nat) : List Entry → List (List Placed)
  | [] => []
  | e :: entries => e.tokens line :: tokensFrom (line + 1) entries

theorem startsLine_lines (h : ∀ e ∈ entries, e.Fits) : StartsLine (entries.flatMap line) := by
  cases entries with
  | nil => nofun
  | cons e entries =>
    have he := h e List.mem_cons_self
    obtain ⟨first, others, hkey, hedge, -⟩ := exists_first_of_isPlain he.plain he.key_ne
    intro c hc
    have hfirst : first = c := by simpa [line, hkey] using hc
    exact hfirst ▸ hedge

theorem Fits.lexes_line (h : e.Fits) {s : Scan} {line : Nat} (hs : s.Ready)
    (hspot : s.spot = ⟨line, 0, true⟩) {rest : List Char} (hrest : StartsLine rest) :
    Scan.Lexes s (e.line ++ rest) (e.tokens line) (.lineStart (line + 1) .none) rest := by
  have hline : s.line = line := congrArg Spot.line hspot
  have hcolumn : s.column = 0 := congrArg Spot.column hspot
  have hkey := hs.lexes_key h.plain h.key_ne (e.written ++ '\n' :: rest)
  have hvalue := h.stands.lexes line (e.key.length + 2) hrest
  rw [hspot, hline, hcolumn, Nat.zero_add] at hkey
  have htext : e.line ++ rest = e.key ++ ':' :: ' ' :: (e.written ++ '\n' :: rest) := by
    simp [Entry.line]
  rw [htext]
  exact hkey.trans hvalue

theorem tokens_lines (h : ∀ e ∈ entries, e.Fits) {s : Scan} {line : Nat} (hs : s.Ready)
    (hspot : s.spot = ⟨line, 0, true⟩) :
    s.tokens (entries.flatMap Entry.line) = some (tokensFrom line entries).flatten := by
  induction entries generalizing s line with
  | nil => simp [Scan.tokens, Scan.finish, hs.pending, tokensFrom]
  | cons e entries ih =>
    rw [List.forall_mem_cons] at h
    have hfirst := h.1.lexes_line hs hspot (startsLine_lines h.2)
    have hothers := ih h.2 (Scan.ready_lineStart (line + 1)) rfl
    rw [List.flatMap_cons, hfirst, hothers]
    rfl

theorem cut_tokensFrom (line : Nat) (entries : List Entry) :
    cut (fun (_, spot) => spot.leads && spot.column ≤ 0) (tokensFrom line entries).flatten =
      ([], tokensFrom line entries) := by
  induction entries generalizing line with
  | nil => rfl
  | cons e entries ih =>
    have hrest := ih (line + 1)
    simp only [tokensFrom, tokens, List.flatten_cons, List.cons_append, List.nil_append, cut, hrest]
    rfl

theorem mapM_tokensFrom (line : Nat) (entries : List Entry) :
    (tokensFrom line entries).mapM (lineMember? 0) = some (entries.map member) := by
  induction entries generalizing line with
  | nil => rfl
  | cons e entries ih =>
    have hvalue : value? [(.scalar e.value, ⟨line, e.key.length + 2, false⟩)] =
        some (.scalar e.value) := rfl
    have hmember : lineMember? 0 (e.tokens line) = some e.member := by
      simp [lineMember?, tokens, hvalue, member]
    simp [tokensFrom, hmember, ih]

theorem ofTokens?_tokensFrom (line : Nat) (hne : entries ≠ []) :
    ofTokens? (tokensFrom line entries).flatten = some (.mapping (entries.map member)) := by
  obtain ⟨e, others, rfl⟩ := List.exists_cons_of_ne_nil hne
  -- After the first key there is nothing more to read as a value, so it is read as entries.
  have hvalue : value? (tokensFrom line (e :: others)).flatten = none := rfl
  have hentries : entries? (tokensFrom line (e :: others)).flatten =
      some ((e :: others).map member) := by
    have hhead : (tokensFrom line (e :: others)).flatten.head? =
        some (.scalar ⟨true, e.key⟩, ⟨line, 0, true⟩) := rfl
    rw [entries?, hhead]
    simp only [Option.bind_eq_bind, Option.bind_some, cut_tokensFrom, mapM_tokensFrom]
  have hsome : (tokensFrom line (e :: others)).flatten.isEmpty = false := rfl
  rw [ofTokens?, hsome, hvalue, hentries]
  rfl

end Entry

theorem ofChars?_lines (hne : entries ≠ []) (h : ∀ e ∈ entries, e.Fits) :
    ofChars? (entries.flatMap Entry.line) = some (.mapping (entries.map Entry.member)) := by
  have hprintable := Entry.isPrintable_lines h
  have hclear : ∀ line ∈ entries.map Entry.line, Clear line :=
    List.forall_mem_map.2 fun e he => (h e he).clear_line
  have htokens := Entry.tokens_lines h Scan.ready_start rfl
  have hvalue := Entry.ofTokens?_tokensFrom 0 hne
  have hallowed : (entries.flatMap Entry.line).all isAllowed = true :=
    List.all_eq_true.2 fun c hc => isAllowed_of_isPrintable (hprintable c hc)
  have hstart : ∀ rest, entries.flatMap Entry.line ≠ '\ufeff' :: rest := by
    intro rest hrest
    rw [hrest] at hprintable
    exact absurd (hprintable '\ufeff' List.mem_cons_self) (by decide)
  have hflatten : (entries.map Entry.line).flatten = entries.flatMap Entry.line :=
    List.flatMap_def.symm
  unfold ofChars?
  split
  · rename_i rest hrest
    exact absurd hrest (hstart rest)
  · simp only [hallowed, if_true]
    rw [unifyBreaks_of_isPrintable hprintable, Entry.linesOf_lines h,
      documentTokens?_of_clear hclear, hflatten, htokens]
    exact hvalue

end PaneTiling.Yaml
