import PaneTiling.Yaml.Lexer

/-!
Writing texts as YAML scalars. A text stands as it is wherever it reads back as the same text;
otherwise it is quoted, with escapes only if it holds characters that do not print, and a text of
several lines is written as an indented block.
-/

namespace PaneTiling.Yaml

def isPrintable (c : Char) : Bool :=
  c = '\n' || (' ' ≤ c && c ≤ '~')
    || ('\xa0' ≤ c && c ≠ '\ufeff' && c ≠ '\ufffe' && c ≠ '\uffff')

def isAmbiguous (text : List Char) : Bool :=
  isNullText text || (boolOf? text).isSome || isInteger text || isPadded text
    || (floatOf? text).isSome

def hasPair (a b : Char → Bool) (text : List Char) : Bool :=
  (text.zip text.tail).any fun (c, d) => a c && b d

def isEdge (c : Char) : Bool := isBlank c || isBreak c

/-- The first character of a text gives it a meaning of its own. -/
def opensOtherwise (text : List Char) : Bool :=
  match text with
  | [] => false
  | c :: rest =>
    isReserved c || isBracket c || c = '#' || c = '\x27' || c = '"'
      || ((c = '-' || c = '?' || c = ':') && rest.head?.all isEdge)
      || startMark.isPrefixOf text || endMark.isPrefixOf text

/-- A colon before a blank would end the text, a number sign after one would start a comment. -/
def endsEarly (text : List Char) : Bool :=
  text.getLast? = some ':' || hasPair (· = ':') isEdge text || hasPair isEdge (· = '#') text

def isPlain (text : List Char) : Bool :=
  text.all (fun c => isPrintable c && !isBreak c) && text.head? ≠ some ' '
    && text.getLast? ≠ some ' ' && !opensOtherwise text && !endsEarly text

def isQuotable (text : List Char) : Bool :=
  text.all isPrintable && !hasPair (· = ' ') isBreak text && !hasPair isBreak (· = ' ') text

def isBlock (text : List Char) : Bool :=
  text.all isPrintable && !hasPair (· = ' ') isBreak text && text.getLast? ≠ some ' '

/-- The blanks before a word that comes after a line break. -/
def indentation (broken : Bool) : List Char := if broken then [' ', ' '] else []

def singleQuoted (broken : Bool) : List Char → List Char
  | [] => indentation broken ++ ['\x27']
  | c :: rest =>
    if isBreak c then c :: singleQuoted true rest
    else if c = ' ' then c :: singleQuoted broken rest
    else indentation broken ++ (if c = '\x27' then [c, c] else [c]) ++ singleQuoted false rest

def hexDigits (width value : Nat) : List Char :=
  let digits := (Nat.toDigits 16 value).map Char.toUpper
  List.replicate (width - digits.length) '0' ++ digits

def escape (c : Char) : List Char :=
  match c with
  | '\x00' => ['\\', '0']
  | '\x07' => ['\\', 'a']
  | '\x08' => ['\\', 'b']
  | '\t' => ['\\', 't']
  | '\n' => ['\\', 'n']
  | '\x0b' => ['\\', 'v']
  | '\x0c' => ['\\', 'f']
  | '\r' => ['\\', 'r']
  | '\x1b' => ['\\', 'e']
  | '"' => ['\\', '"']
  | '\\' => ['\\', '\\']
  | '\x85' => ['\\', 'N']
  | '\u2028' => ['\\', 'L']
  | '\u2029' => ['\\', 'P']
  | c =>
    if c.toNat ≤ 0xFF then '\\' :: 'x' :: hexDigits 2 c.toNat
    else if c.toNat ≤ 0xFFFF then '\\' :: 'u' :: hexDigits 4 c.toNat
    else '\\' :: 'U' :: hexDigits 8 c.toNat

def doubleQuotedChar (c : Char) : List Char :=
  if !isPrintable c || isBreak c || c = '"' || c = '\\' then escape c else [c]

def doubleQuoted (text : List Char) : List Char :=
  '"' :: text.flatMap doubleQuotedChar ++ ['"']

def blockLines (broken : Bool) : List Char → List Char
  | [] => []
  | c :: rest =>
    if isBreak c then c :: blockLines true rest
    else indentation broken ++ c :: blockLines false rest

/-- How a block is to end so that it has the text's line breaks at its end. -/
def chompingOf (text : List Char) : Chomping :=
  match text.reverse with
  | last :: other :: _ => if !isBreak last then .strip else if isBreak other then .keep else .clip
  | [last] => if isBreak last then .keep else .strip
  | [] => .strip

def chompingText : Chomping → List Char
  | .strip => ['-']
  | .clip => []
  | .keep => ['+']

/-- A text in a block of its own lines. The indentation is told where it cannot be seen. -/
def block (text : List Char) : List Char :=
  let told := if text.head?.any (fun c => c = ' ' || isBreak c) then ['2'] else []
  '|' :: told ++ chompingText (chompingOf text) ++ '\n' :: blockLines true text
    ++ (if text.getLast?.any isBreak then [] else ['\n'])

def valueText (text : List Char) : List Char :=
  if '\n' ∈ text then if isBlock text then block text else doubleQuoted text ++ ['\n']
  else if isPlain text ∧ !isAmbiguous text then text ++ ['\n']
  else if isQuotable text then '\x27' :: singleQuoted false text ++ ['\n']
  else doubleQuoted text ++ ['\n']

def entryText (key : String) (value : List Char) : List Char :=
  key.toList ++ ':' :: ' ' :: value

end PaneTiling.Yaml
