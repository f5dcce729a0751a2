import PaneTiling.Json.Basic

/-!
The tokens of a JSON text, found one character at a time. What has been read of a token that is not
complete yet is held as `Pending`.
-/

namespace PaneTiling.Json

inductive Token
  | openArray
  | closeArray
  | openObject
  | closeObject
  | comma
  | colon
  /-- A value that is a token of its own. -/
  | scalar (value : Json)
deriving BEq, Repr, Inhabited

structure Quoted where
  /-- The last character first. -/
  reversed : List Char
  /-- The first half of a character that an escape has left open. -/
  high : Option Nat
  whole : Bool
deriving Repr, Inhabited

namespace Quoted

def empty : Quoted := ⟨[], none, true⟩

def push (q : Quoted) (c : Char) : Quoted := ⟨c :: q.reversed, none, q.whole && q.high.isNone⟩

/-- Adds the unit that a numeric escape names. Two halves make one character. -/
def pushUnit (q : Quoted) (unit : Nat) : Quoted :=
  match q.high with
  | some high =>
    if 0xDC00 ≤ unit ∧ unit < 0xE000 then
      let c := Char.ofNat (0x10000 + (high - 0xD800) * 0x400 + (unit - 0xDC00))
      ⟨c :: q.reversed, none, q.whole⟩
    else { q with high := none, whole := false }
  | none =>
    if 0xD800 ≤ unit ∧ unit < 0xDC00 then { q with high := some unit }
    else if 0xDC00 ≤ unit ∧ unit < 0xE000 then { q with whole := false }
    else q.push (Char.ofNat unit)

def text (q : Quoted) : Option String :=
  if q.whole ∧ q.high = none then some (String.ofList q.reversed.reverse) else none

end Quoted

inductive Pending
  | none
  | word (reversed : List Char)
  | number (reversed : List Char)
  | quoted (q : Quoted)
  | escape (q : Quoted)
  /-- A numeric escape with so many digits still to come. -/
  | unit (q : Quoted) (value left : Nat)
deriving Repr, Inhabited

def wordToken (reversed : List Char) : Option Token :=
  match String.ofList reversed.reverse with
  | "null" => some (.scalar .null)
  | "true" => some (.scalar (.bool true))
  | "false" => some (.scalar (.bool false))
  | _ => none

def numberToken (reversed : List Char) : Option Token :=
  let literal := reversed.reverse
  if isNumber literal then some (.scalar (.number literal)) else none

def isNumberChar (c : Char) : Bool :=
  c.isDigit || c = '-' || c = '+' || c = '.' || c = 'e' || c = 'E'

def isBlank (c : Char) : Bool := c = ' ' || c = '\n' || c = '\r' || c = '\t'

/-- A character between tokens. -/
def stepFresh (c : Char) : Option (List Token × Pending) :=
  match c with
  | '[' => some ([.openArray], .none)
  | ']' => some ([.closeArray], .none)
  | '{' => some ([.openObject], .none)
  | '}' => some ([.closeObject], .none)
  | ',' => some ([.comma], .none)
  | ':' => some ([.colon], .none)
  | '"' => some ([], .quoted .empty)
  | c =>
    if isBlank c then some ([], .none)
    else if c.isDigit || c = '-' then some ([], .number [c])
    else if c.isAlpha then some ([], .word [c])
    else none

def escapedChar? : Char → Option Char
  | '"' => some '"'
  | '\\' => some '\\'
  | '/' => some '/'
  | 'b' => some '\x08'
  | 'f' => some '\x0c'
  | 'n' => some '\n'
  | 'r' => some '\r'
  | 't' => some '\t'
  | _ => none

def hexValue? (c : Char) : Option Nat :=
  if c.isDigit then some (c.toNat - '0'.toNat)
  else if 'a' ≤ c ∧ c ≤ 'f' then some (c.toNat - 'a'.toNat + 10)
  else if 'A' ≤ c ∧ c ≤ 'F' then some (c.toNat - 'A'.toNat + 10)
  else none

def step (pending : Pending) (c : Char) : Option (List Token × Pending) :=
  match pending with
  | .none => stepFresh c
  | .word reversed =>
    if c.isAlpha then some ([], .word (c :: reversed))
    else do
      let token ← wordToken reversed
      let (tokens, pending) ← stepFresh c
      return (token :: tokens, pending)
  | .number reversed =>
    if isNumberChar c then some ([], .number (c :: reversed))
    else do
      let token ← numberToken reversed
      let (tokens, pending) ← stepFresh c
      return (token :: tokens, pending)
  | .quoted q =>
    if c = '"' then some ([.scalar (.string q.text)], .none)
    else if c = '\\' then some ([], .escape q)
    else if c.toNat < 0x20 then none
    else some ([], .quoted (q.push c))
  | .escape q =>
    if c = 'u' then some ([], .unit q 0 4)
    else (escapedChar? c).map fun c => ([], .quoted (q.push c))
  | .unit q value left => do
    let digit ← hexValue? c
    let value := 16 * value + digit
    if left ≤ 1 then return ([], .quoted (q.pushUnit value))
    else return ([], .unit q value (left - 1))

def finish : Pending → Option (List Token)
  | .none => some []
  | .word reversed => (wordToken reversed).map ([·])
  | .number reversed => (numberToken reversed).map ([·])
  | _ => none

def tokensFrom (pending : Pending) : List Char → Option (List Token)
  | [] => finish pending
  | c :: rest => do
    let (tokens, pending) ← step pending c
    return tokens ++ (← tokensFrom pending rest)

def tokens (text : List Char) : Option (List Token) := tokensFrom .none text

end PaneTiling.Json
