import PaneTiling.Json.Lexer

/-!
Reading a JSON value off its tokens. The arrays and objects that are still open are kept on a stack,
innermost first, each with the place that it is to take once it is complete.
-/

namespace PaneTiling.Json

inductive Place
  | root
  | item
  | member (key : Option String)
deriving Repr, Inhabited

/-- An open array or object with its members so far, the last one first. -/
inductive Frame
  | array (place : Place) (items : List Json)
  | object (place : Place) (fields : List (Option String × Json))
deriving Repr, Inhabited

inductive Stage
  | value (place : Place)
  | itemOrClose
  | keyOrClose
  | key
  | colon (key : Option String)
  | commaOrClose
  | done (value : Json)
deriving Repr, Inhabited

structure Progress where
  frames : List Frame
  stage : Stage
deriving Repr, Inhabited

def put (place : Place) (value : Json) (frames : List Frame) : Option Progress :=
  match place, frames with
  | .root, [] => some ⟨[], .done value⟩
  | .item, .array place items :: rest => some ⟨.array place (value :: items) :: rest, .commaOrClose⟩
  | .member key, .object place fields :: rest =>
    some ⟨.object place ((key, value) :: fields) :: rest, .commaOrClose⟩
  | _, _ => none

def startValue (place : Place) (token : Token) (frames : List Frame) : Option Progress :=
  match token with
  | .scalar value => put place value frames
  | .openArray => some ⟨.array place [] :: frames, .itemOrClose⟩
  | .openObject => some ⟨.object place [] :: frames, .keyOrClose⟩
  | _ => none

def close (token : Token) (frames : List Frame) : Option Progress :=
  match token, frames with
  | .closeArray, .array place items :: rest => put place (.array items.reverse) rest
  | .closeObject, .object place fields :: rest => put place (.object fields.reverse) rest
  | _, _ => none

def Progress.step (p : Progress) (token : Token) : Option Progress :=
  match p.stage with
  | .value place => startValue place token p.frames
  | .itemOrClose =>
    if token == .closeArray then close token p.frames else startValue .item token p.frames
  | .keyOrClose =>
    match token with
    | .scalar (.string key) => some { p with stage := .colon key }
    | _ => close token p.frames
  | .key =>
    match token with
    | .scalar (.string key) => some { p with stage := .colon key }
    | _ => none
  | .colon key => if token == .colon then some { p with stage := .value (.member key) } else none
  | .commaOrClose =>
    match token, p.frames with
    | .comma, .array _ _ :: _ => some { p with stage := .value .item }
    | .comma, .object _ _ :: _ => some { p with stage := .key }
    | _, _ => close token p.frames
  | .done _ => none

def ofChars? (text : List Char) : Option Json := do
  let tokens ← tokens text
  let last ← tokens.foldlM Progress.step ⟨[], .value .root⟩
  match last.stage with
  | .done value => some value
  | _ => none

end PaneTiling.Json
