import PaneTiling.Yaml.Block

/-!
The tokens of a YAML document, found one character at a time. Each token remembers where it starts,
since lines and columns decide what belongs together. Except in a block, a line break counts as one
blank together with the blanks around it; of several line breaks in a row all but the first are
kept.
-/

namespace PaneTiling.Yaml

inductive Token
  | scalar (value : Scalar)
  | openSequence
  | closeSequence
  | openMapping
  | closeMapping
  | comma
  | colon
deriving DecidableEq, Repr, Inhabited

structure Spot where
  line : Nat
  column : Nat
  /-- Nothing stands before it on its line, and it is outside all brackets. -/
  leads : Bool
deriving DecidableEq, Repr, Inhabited

inductive Gap
  /-- Blanks, the last one first. -/
  | blanks (reversed : List Char)
  /-- Line breaks, the first one apart and the later ones in reverse; an escaped first one counts
  for nothing. -/
  | breaks (first : Option Char) (later : List Char)
deriving DecidableEq, Repr, Inhabited

namespace Gap

def empty : Gap := blanks []

def text : Gap → List Char
  | blanks reversed => reversed.reverse
  | breaks (some '\n') [] => [' ']
  | breaks (some '\n') later => later.reverse
  | breaks (some c) later => c :: later.reverse
  | breaks none later => later.reverse

def addBlank (c : Char) : Gap → Gap
  | blanks reversed => blanks (c :: reversed)
  | gap => gap

def addBreak (c : Char) : Gap → Gap
  | blanks _ => breaks (some c) []
  | breaks first later => breaks first (c :: later)

@[simp]
theorem text_empty : empty.text = [] := rfl

def isBroken : Gap → Bool
  | blanks _ => false
  | breaks _ _ => true

end Gap

structure Partial where
  start : Spot
  /-- The last character first. -/
  reversed : List Char
  gap : Gap
deriving DecidableEq, Repr, Inhabited

namespace Partial

def push (p : Partial) (c : Char) : Partial :=
  { p with reversed := c :: (p.gap.text.reverse ++ p.reversed), gap := .empty }

def whole (p : Partial) : List Char := p.reversed.reverse ++ p.gap.text

end Partial

inductive Pending
  | none
  | comment
  /-- A dash, a question mark or a colon that starts a scalar unless a blank follows. -/
  | mark (start : Spot) (c : Char)
  | plain (p : Partial)
  /-- A colon after a plain scalar, which belongs to it unless a blank follows. -/
  | colon (p : Partial)
  | single (p : Partial)
  /-- A quote within single quotes: it closes them unless another one follows. -/
  | quote (p : Partial)
  | double (p : Partial)
  | escape (p : Partial)
  /-- A numeric escape with so many digits still to come. -/
  | code (p : Partial) (value left : Nat)
  | header (start : Spot) (b : Block)
  /-- What follows the header of a block on its line: blanks, or a comment. -/
  | besideHeader (start : Spot) (b : Block) (commented : Bool)
  | block (start : Spot) (b : Block)
deriving DecidableEq, Repr, Inhabited

structure Scan where
  line : Nat
  column : Nat
  /-- Nothing but blanks stands before this point on its line. -/
  fresh : Bool
  /-- How many brackets are open. -/
  depth : Nat
  /-- The column of the first token. A scalar goes on only in lines that are indented further. -/
  margin : Option Nat
  pending : Pending
deriving DecidableEq, Repr, Inhabited

abbrev Placed := Token × Spot

def isAllowed (c : Char) : Bool :=
  c = '\t' || c = '\n' || c = '\r' || c = '\x85' || ('\x20' ≤ c && c ≤ '\x7e')
    || ('\xa0' ≤ c && c ≠ '\ufffe' && c ≠ '\uffff')

def isReserved (c : Char) : Bool := "&*!|>%@\x60".toList.contains c

def isBracket (c : Char) : Bool := c = ',' || c = '[' || c = ']' || c = '\x7b' || c = '\x7d'

namespace Scan

def spot (s : Scan) : Spot := ⟨s.line, s.column, s.fresh && s.depth = 0⟩

def settle (s : Scan) : Scan :=
  if s.depth = 0 then { s with margin := s.margin.or (some s.column) } else s

/-- Whether a scalar that was broken off at a line end goes on here. -/
def continues (s : Scan) : Bool := 0 < s.depth || s.margin.all (· < s.column)

def stepFresh (s : Scan) (c : Char) : Option (List Placed × Scan) :=
  let emit (token : Token) (depth : Nat) :=
    some ([(token, s.spot)], { s with depth, pending := .none })
  let wait (pending : Pending) := some ([], { s.settle with pending })
  if isBreak c then some ([], { s with pending := .none })
  else if isBlank c then
    if c = '\t' ∧ s.fresh ∧ s.depth = 0 then none else some ([], { s with pending := .none })
  else
    match c with
    | '#' => some ([], { s with pending := .comment })
    | '[' => emit .openSequence (s.depth + 1)
    | ']' => emit .closeSequence (s.depth - 1)
    | '\x7b' => emit .openMapping (s.depth + 1)
    | '\x7d' => emit .closeMapping (s.depth - 1)
    | ',' => emit .comma s.depth
    | '\x27' => wait (.single ⟨s.spot, [], .empty⟩)
    | '"' => wait (.double ⟨s.spot, [], .empty⟩)
    | '-' => wait (.mark s.spot c)
    | ':' => if 0 < s.depth then emit .colon s.depth else wait (.mark s.spot c)
    | '?' => if 0 < s.depth then none else wait (.mark s.spot c)
    | '|' => if 0 < s.depth then none else wait (.header s.spot .empty)
    | c => if isReserved c then none else wait (.plain ⟨s.spot, [c], .empty⟩)

def plainToken (p : Partial) : Placed := (.scalar ⟨true, p.reversed.reverse⟩, p.start)

def quotedToken (p : Partial) : Placed := (.scalar ⟨false, p.whole⟩, p.start)

def after (token : Placed) (next : Option (List Placed × Scan)) : Option (List Placed × Scan) :=
  next.map fun (tokens, s) => (token :: tokens, s)

def stepPlain (s : Scan) (p : Partial) (c : Char) : Option (List Placed × Scan) :=
  let wait (pending : Pending) := some ([], { s with pending })
  if isBreak c then wait (.plain { p with gap := p.gap.addBreak c })
  else if isBlank c then
    if c = '\t' ∧ p.gap.isBroken ∧ s.margin.any (s.column ≤ ·) then none
    else wait (.plain { p with gap := p.gap.addBlank c })
  else if p.gap.isBroken ∧ !s.continues then after (plainToken p) (s.stepFresh c)
  else if c = '#' ∧ p.gap ≠ .empty then after (plainToken p) (s.stepFresh c)
  else if 0 < s.depth ∧ isBracket c then after (plainToken p) (s.stepFresh c)
  else if c = ':' then wait (.colon p)
  else wait (.plain (p.push c))

/-- The spot of the character before this point. -/
def before (s : Scan) : Spot := ⟨s.line, s.column - 1, false⟩

def escapeDigits? : Char → Option Nat
  | 'x' => some 2
  | 'u' => some 4
  | 'U' => some 8
  | _ => none

def escapedChar? : Char → Option Char
  | '0' => some '\x00'
  | 'a' => some '\x07'
  | 'b' => some '\x08'
  | 't' => some '\t'
  | '\t' => some '\t'
  | 'n' => some '\n'
  | 'v' => some '\x0b'
  | 'f' => some '\x0c'
  | 'r' => some '\r'
  | 'e' => some '\x1b'
  | ' ' => some ' '
  | '"' => some '"'
  | '/' => some '/'
  | '\\' => some '\\'
  | 'N' => some '\x85'
  | '_' => some '\xa0'
  | 'L' => some '\u2028'
  | 'P' => some '\u2029'
  | _ => none

def stepEscape (s : Scan) (p : Partial) (c : Char) : Option (List Placed × Scan) :=
  let wait (pending : Pending) := some ([], { s with pending })
  if isBreak c then
    wait (.double { p with reversed := p.gap.text.reverse ++ p.reversed, gap := .breaks none [] })
  else
    match escapeDigits? c with
    | some count => wait (.code p 0 count)
    | none => (escapedChar? c).bind fun c => wait (.double (p.push c))

def stepCode (s : Scan) (p : Partial) (value left : Nat) (c : Char) :
    Option (List Placed × Scan) := do
  let digit ← digitsIn? 16 [c]
  let value := 16 * value + digit
  if 1 < left then return ([], { s with pending := .code p value (left - 1) })
  else if h : value.isValidChar then
    return ([], { s with pending := .double (p.push (.ofNatAux value h)) })
  else none

def stepHeader (s : Scan) (start : Spot) (b : Block) (c : Char) : Option (List Placed × Scan) :=
  let wait (pending : Pending) := some ([], { s with pending })
  if isBreak c then wait (.block start b)
  else if isBlank c then wait (.besideHeader start b false)
  else if c = '#' then wait (.besideHeader start b true)
  else (b.header? (s.margin.getD 0) c).bind fun b => wait (.header start b)

def blockToken (start : Spot) (b : Block) : Placed := (.scalar ⟨false, b.text⟩, start)

def stepBlock (s : Scan) (start : Spot) (b : Block) (c : Char) : Option (List Placed × Scan) :=
  match b.step s.column (s.margin.elim 0 (· + 1)) c with
  | .goesOn b => some ([], { s with pending := .block start b })
  | .ends => after (blockToken start b) (s.stepFresh c)
  | .fails => none

/-- What a character leads to, and the tokens that it completes. -/
def react (s : Scan) (c : Char) : Option (List Placed × Scan) :=
  let wait (pending : Pending) := some ([], { s with pending })
  match s.pending with
  | .none => s.stepFresh c
  | .comment => wait (if isBreak c then .none else .comment)
  | .mark start mark =>
    if isBlank c || isBreak c then
      if mark = ':' then after (.colon, start) (s.stepFresh c) else none
    else s.stepPlain ⟨start, [mark], .empty⟩ c
  | .plain p => s.stepPlain p c
  | .colon p =>
    if isBlank c || isBreak c then after (plainToken p) (after (.colon, s.before) (s.stepFresh c))
    else if 0 < s.depth ∧ (isBracket c ∨ c = '?') then none
    else s.stepPlain (p.push ':') c
  | .single p =>
    if isBreak c then wait (.single { p with gap := p.gap.addBreak c })
    else if isBlank c then wait (.single { p with gap := p.gap.addBlank c })
    else if c = '\x27' then wait (.quote p)
    else wait (.single (p.push c))
  | .quote p =>
    if c = '\x27' then wait (.single (p.push c)) else after (quotedToken p) (s.stepFresh c)
  | .double p =>
    if isBreak c then wait (.double { p with gap := p.gap.addBreak c })
    else if isBlank c then wait (.double { p with gap := p.gap.addBlank c })
    else if c = '"' then some ([quotedToken p], { s with pending := .none })
    else if c = '\\' then wait (.escape p)
    else wait (.double (p.push c))
  | .escape p => s.stepEscape p c
  | .code p value left => s.stepCode p value left c
  | .header start b => s.stepHeader start b c
  | .besideHeader start b commented =>
    if isBreak c then wait (.block start b)
    else if commented || isBlank c then wait (.besideHeader start b commented)
    else if c = '#' then wait (.besideHeader start b true)
    else none
  | .block start b => s.stepBlock start b c

def advance (s : Scan) (c : Char) : Scan :=
  if isBreak c then { s with line := s.line + 1, column := 0, fresh := true }
  else { s with column := s.column + 1, fresh := s.fresh && isBlank c }

def step (s : Scan) (c : Char) : Option (List Placed × Scan) :=
  (s.react c).map fun (tokens, s) => (tokens, s.advance c)

def finish (s : Scan) : Option (List Placed) :=
  match s.pending with
  | .none | .comment => some []
  | .mark start ':' => some [(.colon, start)]
  | .plain p => some [plainToken p]
  | .colon p => some [plainToken p, (.colon, s.before)]
  | .quote p => some [quotedToken p]
  | .header start b | .besideHeader start b _ | .block start b => some [blockToken start b]
  | _ => none

def tokens (s : Scan) : List Char → Option (List Placed)
  | [] => s.finish
  | c :: rest => do
    let (tokens, s) ← s.step c
    return tokens ++ (← s.tokens rest)

def start (fresh : Bool) : Scan := ⟨0, 0, fresh, 0, none, .none⟩

end Scan

end PaneTiling.Yaml
