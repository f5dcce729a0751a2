import PaneTiling.Decimal.Numeral

/-!
YAML values: scalars, sequences, and mappings whose keys are scalars. A scalar that stands without
quotes may be read as something else than its text, and a value that is left out is a scalar without
quotes or text.
-/

namespace PaneTiling

structure Yaml.Scalar where
  plain : Bool
  text : List Char
deriving DecidableEq, Repr, Inhabited

inductive Yaml where
  | scalar (value : Yaml.Scalar)
  | sequence (items : List Yaml)
  | mapping (entries : List (Yaml.Scalar × Yaml))
deriving Repr, Inhabited

namespace Yaml

def missing : Yaml := scalar ⟨true, []⟩

def isBreak (c : Char) : Bool := c = '\n' || c = '\u2028' || c = '\u2029'

def isBlank (c : Char) : Bool := c = ' ' || c = '\t'

def startMark : List Char := ['-', '-', '-']

def endMark : List Char := ['.', '.', '.']

def digitsIn? (base : Nat) (digits : List Char) : Option Nat := do
  let values ← digits.mapM fun c =>
    let value :=
      if c.isDigit then c.toNat - '0'.toNat
      else if c.isLower then c.toNat - 'a'.toNat + 10
      else if c.isUpper then c.toNat - 'A'.toNat + 10
      else base
    if value < base then some value else none
  if values.isEmpty then none else some (values.foldl (fun n d => base * n + d) 0)

def isPadded (text : List Char) : Bool :=
  match (Decimal.splitSign text).2 with
  | '0' :: rest => !rest.isEmpty && rest.all Char.isDigit
  | _ => false

/-- An integer without a sign: decimal, or in base 16, 8 or 2 after a mark. -/
def magnitude? (text : List Char) : Option Nat :=
  match text with
  | '0' :: 'x' :: rest => digitsIn? 16 rest
  | '0' :: 'o' :: rest => digitsIn? 8 rest
  | '0' :: 'b' :: rest => digitsIn? 2 rest
  | _ => if isPadded text then none else digitsIn? 10 text

/-- Whether a text is read as an integer, which has at most 128 bits. -/
def isInteger (text : List Char) : Bool :=
  match Decimal.splitSign text with
  | (some '-', rest) => (magnitude? rest).any (· ≤ Nat.pow 2 127)
  | (_, rest) => (magnitude? rest).any (· < Nat.pow 2 128)

def isInfinite (text : List Char) : Bool :=
  text = ".inf".toList || text = ".Inf".toList || text = ".INF".toList

def isNaN (text : List Char) : Bool :=
  text = ".nan".toList || text = ".NaN".toList || text = ".NAN".toList

/-- The number that a text is read as. A decimal too large for a finite number is not one. -/
def floatOf? (text : List Char) : Option Float :=
  let (sign, rest) := Decimal.splitSign text
  if isInfinite rest then some (if sign = some '-' then -1.0 / 0.0 else 1.0 / 0.0)
  else if isNaN text then some (0.0 / 0.0)
  else
    match Decimal.Numeral.ofChars? text with
    | some n => if n.hasDigits ∧ n.toFloat.isFinite then some n.toFloat else none
    | none => none

def isNullText (text : List Char) : Bool :=
  text.isEmpty || text = ['~'] || text = "null".toList || text = "Null".toList
    || text = "NULL".toList

def boolOf? (text : List Char) : Option Bool :=
  if text = "true".toList ∨ text = "True".toList ∨ text = "TRUE".toList then some true
  else if text = "false".toList ∨ text = "False".toList ∨ text = "FALSE".toList then some false
  else none

namespace Scalar

/-- What the text of a scalar is read as. Quotes keep it a text. -/
def typed {β : Type} (read : List Char → Option β) (s : Scalar) : Option β :=
  if s.plain then read s.text else none

def isNull (s : Scalar) : Bool := s.plain && isNullText s.text

def float? (s : Scalar) : Option Float := s.typed floatOf?

def bool? (s : Scalar) : Option Bool := s.typed boolOf?

def nat64? (s : Scalar) : Option Nat :=
  s.typed fun text =>
    match Decimal.splitSign text with
    | (some '-', _) => none
    | (_, rest) => (magnitude? rest).filter (· < Nat.pow 2 64)

end Scalar

def scalar? : Yaml → Option Scalar
  | scalar value => some value
  | _ => none

end Yaml

end PaneTiling
