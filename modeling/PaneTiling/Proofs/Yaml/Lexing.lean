import PaneTiling.Yaml.Printer

/-!
The tokens of texts that were written as values. A text that can stand as it is, and one within
quotes, is read as a single scalar up to the end of its line, whatever the next line starts with.
-/

namespace PaneTiling.Yaml

namespace Scan

/-- Reading on from one place in a text, some tokens are found before another place is reached. -/
def Lexes (before : Scan) (text : List Char) (tokens : List Placed) (after : Scan)
    (rest : List Char) : Prop :=
  before.tokens text = (after.tokens rest).map (tokens ++ ·)

namespace Lexes

variable {before middle after : Scan} {text between rest : List Char}
  {tokens first second : List Placed}

theorem refl (before : Scan) (text : List Char) : Lexes before text [] before text := by
  simp [Lexes]

theorem trans (h : Lexes before text first middle between)
    (hrest : Lexes middle between second after rest) :
    Lexes before text (first ++ second) after rest := by
  unfold Lexes at *
  rw [h, hrest, Option.map_map]
  simp [Function.comp_def]

theorem step {c : Char} (h : before.step c = some (tokens, after)) (rest : List Char) :
    Lexes before (c :: rest) tokens after rest := by
  unfold Lexes
  rw [Scan.tokens, h]
  cases hrest : after.tokens rest <;> simp [hrest]

end Lexes

theorem stepFresh_pending (s : Scan) (pending : Pending) (c : Char) :
    ({ s with pending } : Scan).stepFresh c = s.stepFresh c := by
  obtain ⟨line, column, fresh, depth, margin, before⟩ := s
  cases depth <;> rfl

theorem stepPlain_pending (s : Scan) (pending : Pending) (p : Partial) (c : Char) :
    ({ s with pending } : Scan).stepPlain p c = s.stepPlain p c := by
  simp only [stepPlain, continues, stepFresh_pending]

theorem lexes_of_react {s t : Scan} {c : Char} (h : s.react c = t.react c) (rest : List Char) :
    Lexes s (c :: rest) [] t (c :: rest) := by
  have hsame : s.tokens (c :: rest) = t.tokens (c :: rest) := by simp only [tokens, step, h]
  rw [Lexes, hsame]
  exact Lexes.refl t (c :: rest)

theorem lexes_end {s : Scan} {token : Placed} {rest : List Char} (hfinish : s.finish = some [token])
    (hreact : ∀ c ∈ rest.head?, s.react c = after token (s.stepFresh c)) :
    Lexes s rest [token] { s with pending := .none } rest := by
  unfold Lexes
  cases rest with
  | nil =>
    have hnone : finish { s with pending := .none } = some [] := rfl
    simp [tokens, hfinish, hnone]
  | cons c rest =>
    have hfresh : react { s with pending := .none } c = s.stepFresh c := stepFresh_pending s .none c
    simp only [tokens, step, hreact c rfl, hfresh, after]
    cases s.stepFresh c with
    | none => rfl
    | some next => cases hnext : (next.2.advance c).tokens rest <;> simp [hnext]

def within (line column : Nat) (pending : Pending) : Scan :=
  ⟨line, column, false, 0, some 0, pending⟩

def lineStart (line : Nat) (pending : Pending) : Scan := ⟨line, 0, true, 0, some 0, pending⟩

/-- A token may start here. -/
structure Ready (s : Scan) : Prop where
  pending : s.pending = .none
  depth : s.depth = 0
  margin : s.margin.or (some s.column) = some 0

theorem ready_within (line column : Nat) : (within line column .none).Ready := ⟨rfl, rfl, rfl⟩

theorem ready_lineStart (line : Nat) : (lineStart line .none).Ready := ⟨rfl, rfl, rfl⟩

theorem ready_start : (start true).Ready := ⟨rfl, rfl, rfl⟩

theorem advance_within {c : Char} (h : isBreak c = false) (line column : Nat) (pending : Pending) :
    (within line column pending).advance c = within line (column + 1) pending := by
  simp [advance, within, h]

theorem lexes_within {line column : Nat} {pending next : Pending} {tokens : List Placed} {c : Char}
    (hbreak : isBreak c = false)
    (h : (within line column pending).react c = some (tokens, within line column next))
    (rest : List Char) :
    Lexes (within line column pending) (c :: rest) tokens (within line (column + 1) next) rest := by
  refine .step ?_ rest
  simp only [Scan.step, h, Option.map_some, advance_within hbreak]

end Scan

theorem isEdge_eq_false {c : Char} : isEdge c = false ↔ isBlank c = false ∧ isBreak c = false := by
  rw [isEdge, Bool.or_eq_false_iff]

/-- What may stand in a line that was written: nothing that does not print, and no line break. -/
def isWritten (c : Char) : Bool := isPrintable c && !isBreak c

theorem isWritten_iff {c : Char} :
    isWritten c = true ↔ isPrintable c = true ∧ isBreak c = false := by
  simp [isWritten]

theorem isEdge_of_isWritten {c : Char} (h : isWritten c = true) (hc : c ≠ ' ') :
    isEdge c = false := by
  have htab : c ≠ '\t' := by
    rintro rfl
    exact absurd h (by decide)
  simp [isEdge, isBlank, hc, htab, (isWritten_iff.1 h).2]

theorem endsEarly_cons {c : Char} {text : List Char} (h : endsEarly (c :: text) = false) :
    endsEarly text = false ∧ (c = ':' → ∃ d ∈ text.head?, isEdge d = false) ∧
      (isEdge c = true → text.head? ≠ some '#') := by
  cases text with
  | nil =>
    have hcolon : c ≠ ':' := by rintro rfl; exact absurd h (by decide)
    exact ⟨rfl, fun hc => absurd hc hcolon, fun _ => nofun⟩
  | cons d text =>
    simp only [endsEarly, hasPair, Bool.or_eq_false_iff, List.getLast?_cons_cons, List.tail_cons,
      List.zip_cons_cons, List.any_cons, Bool.and_eq_false_iff] at h ⊢
    obtain ⟨⟨hlast, hcolon, hcolons⟩, hmark, hmarks⟩ := h
    refine ⟨⟨⟨hlast, hcolons⟩, hmarks⟩, ?_, ?_⟩
    · rintro rfl
      exact ⟨d, rfl, hcolon.resolve_left (by simp)⟩
    · rintro hc hd
      rw [List.head?_cons, Option.some_inj] at hd
      rcases hmark with hmark | hmark
      · exact absurd (hc.symm.trans hmark) (by decide)
      · exact absurd hd (by simpa using hmark)

namespace Partial

def feed (p : Partial) (c : Char) : Partial :=
  if isBlank c then { p with gap := p.gap.addBlank c } else p.push c

structure Grows (p : Partial) (text : List Char) (q : Partial) : Prop where
  start : q.start = p.start
  unbroken : q.gap.isBroken = false
  whole : q.whole = p.whole ++ text

variable {p q : Partial}

theorem Grows.refl (h : p.gap.isBroken = false) : p.Grows [] p := ⟨rfl, h, by simp⟩

theorem Grows.trans {r : Partial} {first second : List Char} (h : p.Grows first q)
    (hrest : q.Grows second r) : p.Grows (first ++ second) r :=
  ⟨hrest.start.trans h.start, hrest.unbroken, by rw [hrest.whole, h.whole, List.append_assoc]⟩

theorem grows_push (p : Partial) (c : Char) : p.Grows [c] (p.push c) :=
  ⟨rfl, rfl, by simp [whole, push]⟩

theorem grows_feed (h : p.gap.isBroken = false) (c : Char) : p.Grows [c] (p.feed c) := by
  unfold feed
  split
  · cases hgap : p.gap with
    | blanks reversed => exact ⟨rfl, rfl, by simp [whole, hgap, Gap.addBlank, Gap.text]⟩
    | breaks first later => simp [hgap, Gap.isBroken] at h
  · exact p.grows_push c

theorem grows_foldl (h : p.gap.isBroken = false) (text : List Char) :
    p.Grows text (text.foldl feed p) := by
  induction text generalizing p with
  | nil => exact .refl h
  | cons c text ih => exact (grows_feed h c).trans (ih (grows_feed h c).unbroken)

theorem Grows.eq_of_gap {text : List Char} (h : p.Grows text q) (hp : p.gap = .empty)
    (hq : q.gap = .empty) : q = ⟨p.start, text.reverse ++ p.reversed, .empty⟩ := by
  have hwhole := h.whole
  simp only [Partial.whole, hp, hq, Gap.text_empty, List.append_nil] at hwhole
  rw [← h.start, ← List.reverse_reverse p.reversed, ← List.reverse_append, ← hwhole,
    List.reverse_reverse, ← hq]

theorem gap_foldl {text : List Char} (hgap : p.gap = .empty)
    (hlast : ∀ c ∈ text.getLast?, isBlank c = false) : (text.foldl feed p).gap = .empty := by
  rcases List.eq_nil_or_concat text with rfl | ⟨front, c, rfl⟩
  · exact hgap
  · have hc : isBlank c = false := hlast c (by simp)
    simp [List.foldl_append, feed, hc, push]

end Partial

namespace Scan

variable {line column : Nat} {p : Partial}

theorem react_plain {c : Char} (hbreak : isBreak c = false) (hgap : p.gap.isBroken = false)
    (hcolon : c ≠ ':') (hmark : c = '#' → p.gap = .empty) :
    (within line column (.plain p)).react c =
      some ([], within line column (.plain (p.feed c))) := by
  by_cases hblank : isBlank c
  · simp [react, stepPlain, Partial.feed, within, hbreak, hblank, hgap]
  · have hmark : ¬(c = '#' ∧ p.gap ≠ .empty) := fun ⟨hc, hne⟩ => hne (hmark hc)
    simp [react, stepPlain, Partial.feed, within, hbreak, hblank, hgap, hcolon, hmark]

theorem react_colon {d : Char} (h : isEdge d = false) :
    (within line column (.colon p)).react d =
      (within line column (.plain (p.push ':'))).react d := by
  obtain ⟨hblank, hbreak⟩ := isEdge_eq_false.1 h
  simp only [react, hblank, hbreak]
  exact stepPlain_pending (within line column (.plain (p.push ':'))) (.colon p) (p.push ':') d

theorem react_mark {start : Spot} {c d : Char} (h : isEdge d = false) :
    (within line column (.mark start c)).react d =
      (within line column (.plain ⟨start, [c], .empty⟩)).react d := by
  obtain ⟨hblank, hbreak⟩ := isEdge_eq_false.1 h
  simp only [react, hblank, hbreak]
  exact stepPlain_pending (within line column (.plain ⟨start, [c], .empty⟩)) (.mark start c) _ d

theorem lexes_feed {c : Char} {rest : List Char} (hbreak : isBreak c = false)
    (hgap : p.gap.isBroken = false) (hcolon : c = ':' → ∃ d ∈ rest.head?, isEdge d = false)
    (hmark : c = '#' → p.gap = .empty) :
    Lexes (within line column (.plain p)) (c :: rest) []
      (within line (column + 1) (.plain (p.feed c))) rest := by
  by_cases hc : c = ':'
  · obtain ⟨d, hd, hedge⟩ := hcolon hc
    obtain ⟨others, rfl⟩ := List.head?_eq_some_iff.1 hd
    subst hc
    have hwait : (within line column (.plain p)).react ':' =
        some ([], within line column (.colon p)) := by
      simp [react, stepPlain, within, hgap, isBreak, isBlank]
    exact (lexes_within rfl hwait _).trans (lexes_of_react (react_colon hedge) others)
  · exact lexes_within hbreak (react_plain hbreak hgap hc hmark) rest

theorem lexes_run {text rest : List Char} (hbreak : ∀ c ∈ text, isBreak c = false)
    (hends : endsEarly text = false) (hgap : p.gap.isBroken = false)
    (hmark : text.head? = some '#' → p.gap = .empty) :
    Lexes (within line column (.plain p)) (text ++ rest) []
      (within line (column + text.length) (.plain (text.foldl Partial.feed p))) rest := by
  induction text generalizing p column with
  | nil => exact .refl _ rest
  | cons c text ih =>
    obtain ⟨hc, hbreaks⟩ := List.forall_mem_cons.1 hbreak
    obtain ⟨hrest, hcolon, hedge⟩ := endsEarly_cons hends
    have hnext : text.head? = some '#' → (p.feed c).gap = .empty := by
      intro hhead
      have hblank : isBlank c = false := by
        refine Bool.eq_false_iff.2 fun hblank => hedge ?_ hhead
        rw [isEdge, hblank, Bool.true_or]
      simp [Partial.feed, hblank, Partial.push]
    have hfirst : Lexes (within line column (.plain p)) (c :: (text ++ rest)) []
        (within line (column + 1) (.plain (p.feed c))) (text ++ rest) := by
      refine lexes_feed hc hgap (fun hc => ?_) fun hc => hmark (by rw [hc, List.head?_cons])
      obtain ⟨d, hd, hd'⟩ := hcolon hc
      exact ⟨d, by rw [List.head?_append, hd, Option.some_or]; rfl, hd'⟩
    rw [List.foldl_cons, List.length_cons, Nat.add_comm text.length, ← Nat.add_assoc]
    exact hfirst.trans (ih hbreaks hrest (Partial.grows_feed hgap c).unbroken hnext)

variable {s : Scan}

theorem Ready.advance_settle (hs : s.Ready) {c : Char} (h : isEdge c = false) (pending : Pending) :
    ({ s.settle with pending } : Scan).advance c = within s.line (s.column + 1) pending := by
  obtain ⟨hblank, hbreak⟩ := isEdge_eq_false.1 h
  simp [settle, hs.depth, hs.margin, advance, hbreak, hblank, within]

theorem Ready.lexes_wait (hs : s.Ready) {c : Char} (hedge : isEdge c = false) {pending : Pending}
    (h : s.stepFresh c = some ([], { s.settle with pending })) (rest : List Char) :
    Lexes s (c :: rest) [] (within s.line (s.column + 1) pending) rest := by
  refine .step ?_ rest
  have hreact : s.react c = s.stepFresh c := by simp only [react, hs.pending]
  simp only [Scan.step, hreact, h, Option.map_some, hs.advance_settle hedge]

theorem Ready.lexes_first (hs : s.Ready) {c : Char} {others : List Char} (hedge : isEdge c = false)
    (hopens : opensOtherwise (c :: others) = false) (rest : List Char) :
    Lexes s (c :: (others ++ rest)) []
      (within s.line (s.column + 1) (.plain ⟨s.spot, [c], .empty⟩)) (others ++ rest) := by
  simp only [opensOtherwise, Bool.or_eq_false_iff, decide_eq_false_iff_not] at hopens
  obtain ⟨⟨⟨⟨⟨⟨⟨hreserved, hbracket⟩, hcomment⟩, hsingle⟩, hdouble⟩, hmark⟩, -⟩, -⟩ := hopens
  obtain ⟨hblank, hbreak⟩ := isEdge_eq_false.1 hedge
  by_cases hdash : c = '-' ∨ c = '?' ∨ c = ':'
  · have hwait : s.stepFresh c = some ([], { s.settle with pending := .mark s.spot c }) := by
      rcases hdash with rfl | rfl | rfl <;> simp [stepFresh, hs.depth, isBreak, isBlank]
    have hnext : others.head?.all isEdge = false := by
      rcases hdash with rfl | rfl | rfl <;> simpa using hmark
    cases others with
    | nil => simp at hnext
    | cons d others =>
      exact (hs.lexes_wait hedge hwait _).trans (lexes_of_react (react_mark hnext) _)
  · refine hs.lexes_wait hedge ?_ _
    simp only [isBracket, Bool.or_eq_false_iff, decide_eq_false_iff_not] at hbracket
    have hpipe : c ≠ '|' := by
      rintro rfl
      exact absurd hreserved (by decide)
    simp only [stepFresh, hbreak, hblank]
    split <;> simp_all

end Scan

theorem isPlain_iff {text : List Char} :
    isPlain text = true ↔ (∀ c ∈ text, isWritten c = true) ∧ text.head? ≠ some ' ' ∧
      text.getLast? ≠ some ' ' ∧ opensOtherwise text = false ∧ endsEarly text = false := by
  simp [isPlain, isWritten, and_assoc]

theorem exists_first_of_isPlain {text : List Char} (hplain : isPlain text = true)
    (hne : text ≠ []) :
    ∃ first others, text = first :: others ∧ isEdge first = false ∧
      opensOtherwise text = false := by
  obtain ⟨first, others, rfl⟩ := List.exists_cons_of_ne_nil hne
  obtain ⟨hchars, hhead, -, hopens, -⟩ := isPlain_iff.1 hplain
  exact ⟨first, others, rfl,
    isEdge_of_isWritten (hchars first List.mem_cons_self) (by simpa using hhead), hopens⟩

def StartsLine (rest : List Char) : Prop := ∀ c ∈ rest.head?, isEdge c = false

namespace Scan

variable {s : Scan} {line column : Nat} {text rest : List Char}

theorem Ready.lexes_plain (hs : s.Ready) (hplain : isPlain text = true) (hne : text ≠ [])
    (rest : List Char) :
    Lexes s (text ++ rest) []
      (within s.line (s.column + text.length) (.plain ⟨s.spot, text.reverse, .empty⟩)) rest := by
  obtain ⟨first, others, rfl, hedge, hopens⟩ := exists_first_of_isPlain hplain hne
  obtain ⟨hchars, -, hlast, -, hends⟩ := isPlain_iff.1 hplain
  have hword : ∀ c ∈ others.getLast?, isBlank c = false := by
    intro c hc
    have hend : (first :: others).getLast? = some c := by rw [List.getLast?_cons, hc]; rfl
    have hc : c ≠ ' ' := by
      rintro rfl
      exact hlast hend
    exact (isEdge_eq_false.1 (isEdge_of_isWritten (hchars c (List.mem_of_getLast? hend)) hc)).1
  have hgrows := Partial.grows_foldl (p := ⟨s.spot, [first], .empty⟩) rfl others
  have hread := hgrows.eq_of_gap rfl (Partial.gap_foldl rfl hword)
  rw [List.length_cons, Nat.add_comm others.length, ← Nat.add_assoc, List.reverse_cons, ← hread]
  exact (hs.lexes_first hedge hopens rest).trans
    (lexes_run (fun c hc => (isWritten_iff.1 (hchars c (List.mem_cons_of_mem _ hc))).2)
      (endsEarly_cons hends).1 rfl fun _ => rfl)

theorem Ready.lexes_key (hs : s.Ready) (hplain : isPlain text = true) (hne : text ≠ [])
    (rest : List Char) :
    Lexes s (text ++ ':' :: ' ' :: rest)
      [(.scalar ⟨true, text⟩, s.spot), (.colon, ⟨s.line, s.column + text.length, false⟩)]
      (within s.line (s.column + text.length + 2) .none) rest := by
  have hcolon : (within s.line (s.column + text.length)
      (.plain ⟨s.spot, text.reverse, .empty⟩)).react ':' =
        some ([], within s.line (s.column + text.length) (.colon ⟨s.spot, text.reverse, .empty⟩)) :=
    rfl
  have hblank : (within s.line (s.column + text.length + 1)
      (.colon ⟨s.spot, text.reverse, .empty⟩)).react ' ' =
        some ([(.scalar ⟨true, text.reverse.reverse⟩, s.spot),
          (.colon, ⟨s.line, s.column + text.length, false⟩)],
          within s.line (s.column + text.length + 1) .none) := rfl
  rw [List.reverse_reverse] at hblank
  exact (hs.lexes_plain hplain hne _).trans
    ((lexes_within rfl hcolon _).trans (lexes_within rfl hblank rest))

theorem lexes_plainValue (hplain : isPlain text = true) (hne : text ≠ [])
    (hrest : StartsLine rest) :
    Lexes (within line column .none) (text ++ '\n' :: rest)
      [(.scalar ⟨true, text⟩, ⟨line, column, false⟩)] (lineStart (line + 1) .none) rest := by
  let p : Partial := ⟨⟨line, column, false⟩, text.reverse, .breaks (some '\n') []⟩
  have hbreak : (within line (column + text.length)
      (.plain ⟨⟨line, column, false⟩, text.reverse, .empty⟩)).step '\n' =
        some ([], lineStart (line + 1) (.plain p)) := rfl
  have hfinish : (lineStart (line + 1) (.plain p)).finish =
      some [(.scalar ⟨true, text.reverse.reverse⟩, ⟨line, column, false⟩)] := rfl
  rw [List.reverse_reverse] at hfinish
  refine ((ready_within line column).lexes_plain hplain hne _).trans
    (.trans (.step hbreak rest) (lexes_end hfinish fun c hc => ?_))
  obtain ⟨hblank, hbreak⟩ := isEdge_eq_false.1 (hrest c hc)
  simp [react, stepPlain, lineStart, p, hblank, hbreak, Gap.isBroken, continues, plainToken]

end Scan

end PaneTiling.Yaml
