import PaneTiling.Yaml.Lexer

/-!
Reading a YAML document that is a single mapping, written either in lines of one entry each or in
braces. Values are scalars, or collections in brackets and braces; of the latter the ones that are
still open are kept on a stack, innermost first.
-/

namespace PaneTiling.Yaml

/-- An open collection with its members so far, the last one first. -/
inductive Frame
  | sequence (items : List Yaml)
  /-- Between a key and its value, the key is kept apart. -/
  | mapping (entries : List (Scalar × Yaml)) (key : Option Scalar)
deriving Repr, Inhabited

inductive Stage
  | value
  | itemOrClose
  | keyOrClose
  /-- After a key that starts on a line. -/
  | afterKey (key : Scalar) (line : Nat)
  | valueOrNext
  | next
  | done (value : Yaml)
deriving Repr, Inhabited

structure Progress where
  frames : List Frame
  stage : Stage
deriving Repr, Inhabited

def put (value : Yaml) : List Frame → Option Progress
  | [] => some ⟨[], .done value⟩
  | .sequence items :: rest => some ⟨.sequence (value :: items) :: rest, .next⟩
  | .mapping entries (some key) :: rest =>
    some ⟨.mapping ((key, value) :: entries) none :: rest, .next⟩
  | .mapping _ none :: _ => none

def startValue (token : Token) (frames : List Frame) : Option Progress :=
  match token with
  | .scalar value => put (.scalar value) frames
  | .openSequence => some ⟨.sequence [] :: frames, .itemOrClose⟩
  | .openMapping => some ⟨.mapping [] none :: frames, .keyOrClose⟩
  | _ => none

def proceed (token : Token) (frames : List Frame) : Option Progress :=
  match token, frames with
  | .comma, .sequence _ :: _ => some ⟨frames, .itemOrClose⟩
  | .comma, .mapping _ _ :: _ => some ⟨frames, .keyOrClose⟩
  | .closeSequence, .sequence items :: rest => put (.sequence items.reverse) rest
  | .closeMapping, .mapping entries _ :: rest => put (.mapping entries.reverse) rest
  | _, _ => none

def proceedWithout (key : Scalar) (token : Token) (frames : List Frame) : Option Progress :=
  match frames with
  | .mapping entries _ :: rest => proceed token (.mapping ((key, missing) :: entries) none :: rest)
  | _ => none

def keyOf? : List Frame → Option Scalar
  | .mapping _ key :: _ => key
  | _ => none

def Progress.step (p : Progress) (placed : Placed) : Option Progress :=
  let (token, spot) := placed
  match p.stage with
  | .value => startValue token p.frames
  | .itemOrClose =>
    if token = .closeSequence then proceed token p.frames else startValue token p.frames
  | .keyOrClose =>
    match token with
    | .scalar key => some { p with stage := .afterKey key spot.line }
    | .closeMapping => proceed token p.frames
    | _ => none
  | .afterKey key line =>
    match token, p.frames with
    | .colon, .mapping entries _ :: rest =>
      if spot.line = line then some ⟨.mapping entries (some key) :: rest, .valueOrNext⟩ else none
    | _, _ => proceedWithout key token p.frames
  | .valueOrNext =>
    match token, keyOf? p.frames with
    | .comma, some key | .closeMapping, some key => proceedWithout key token p.frames
    | _, _ => startValue token p.frames
  | .next => proceed token p.frames
  | .done _ => none

def value? (tokens : List Placed) : Option Yaml := do
  let last ← tokens.foldlM Progress.step ⟨[], .value⟩
  match last.stage with
  | .done value => some value
  | _ => none

/-- The tokens cut before each one that starts an entry, and those before the first of these. -/
def cut (starts : Placed → Bool) : List Placed → List Placed × List (List Placed)
  | [] => ([], [])
  | token :: rest =>
    let (loose, parts) := cut starts rest
    if starts token then ([], (token :: loose) :: parts) else (token :: loose, parts)

/-- An entry on lines of its own: a key at a column, a colon on the same line, and a value unless it
is left out. -/
def lineMember? (column : Nat) (tokens : List Placed) : Option (Scalar × Yaml) :=
  match tokens with
  | (.scalar key, start) :: (.colon, colon) :: value =>
    if start.column = column ∧ start.line = colon.line then
      if value.isEmpty then some (key, missing) else (value? value).map fun value => (key, value)
    else none
  | _ => none

/-- The entries of a mapping that is not in braces. All keys stand at the column of the first one,
and everything else is indented further. -/
def entries? (tokens : List Placed) : Option (List (Scalar × Yaml)) := do
  let (_, first) ← tokens.head?
  let ([], parts) := cut (fun (_, spot) => spot.leads && spot.column ≤ first.column) tokens | none
  parts.mapM (lineMember? first.column)

def ofTokens? (tokens : List Placed) : Option Yaml :=
  if tokens.isEmpty then some missing
  else (value? tokens).or ((entries? tokens).map mapping)

def unifyBreaks : List Char → List Char
  | [] => []
  | '\r' :: '\n' :: rest => '\n' :: unifyBreaks rest
  | '\r' :: rest => '\n' :: unifyBreaks rest
  | '\x85' :: rest => '\n' :: unifyBreaks rest
  | c :: rest => c :: unifyBreaks rest

def linesOf : List Char → List (List Char)
  | [] => []
  | c :: rest =>
    if isBreak c then [c] :: linesOf rest
    else
      match linesOf rest with
      | [] => [[c]]
      | line :: lines => (c :: line) :: lines

/-- What follows a mark that a line starts with, if a blank or the end of the line comes next. -/
def afterMark? (mark : List Char) (line : List Char) : Option (List Char) :=
  if mark.isPrefixOf line then
    let rest := line.drop mark.length
    if rest.head?.all (fun c => isBlank c || isBreak c) then some rest else none
  else none

def isIdle (line : List Char) : Bool :=
  match line.dropWhile (· = ' ') with
  | [] => true
  | c :: _ => c = '#' || isBreak c

def isEnd (line : List Char) : Bool :=
  match afterMark? endMark line with
  | some rest => isIdle (rest.dropWhile isBlank)
  | none => false

/-- The tokens of the only document in a text. What stands on the line of its start mark cannot be a
key. -/
def documentTokens? (lines : List (List Char)) : Option (List Placed) := do
  let lines := lines.dropWhile fun line => isIdle line || isEnd line
  let (marked, lines) := match lines with
    | first :: rest =>
      match afterMark? startMark first with
      | some head => (true, head :: rest)
      | none => (false, lines)
    | [] => (false, [])
  let isOver (line : List Char) : Bool :=
    (afterMark? startMark line).isSome || (afterMark? endMark line).isSome
  let (body, rest) := (lines.takeWhile (!isOver ·), lines.dropWhile (!isOver ·))
  if rest.all (fun line => isIdle line || isEnd line) then
    (Scan.start !marked).tokens body.flatten
  else none

/-- The value that a text holds. A text with nothing in it holds a missing value. -/
def ofChars? (text : List Char) : Option Yaml := do
  let text := match text with
    | '\ufeff' :: rest => rest
    | _ => text
  if text.all isAllowed then
    ofTokens? (← documentTokens? (linesOf (unifyBreaks text)))
  else none

end PaneTiling.Yaml
