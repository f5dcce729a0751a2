import PaneTiling.Decimal.Numeral

/-!
JSON values. Numbers keep the text that they are written in, since what a number means is up to the
reader of the value; a string is missing its text when an escape in it names half of a character,
which matters only to a reader who asks for the text.
-/

namespace PaneTiling

inductive Json where
  | null
  | bool (value : Bool)
  | number (literal : List Char)
  | string (text : Option String)
  | array (items : List Json)
  | object (fields : List (Option String × Json))
deriving BEq, Repr, Inhabited

namespace Json

/-- Number literals have no plus sign and no needless zero in front, and digits on both sides of a
point. -/
def isNumber (literal : List Char) : Bool :=
  match Decimal.Numeral.ofChars? literal with
  | some n =>
    n.sign != some '+' && !n.whole.isEmpty && (n.whole.head? != some '0' || n.whole.length == 1)
      && n.fraction.all (!·.isEmpty) && n.exponent.all (!·.2.isEmpty)
  | none => false

mutual

def depth : Json → Nat
  | array items => itemsDepth items + 1
  | object fields => fieldsDepth fields + 1
  | _ => 0

def itemsDepth : List Json → Nat
  | [] => 0
  | item :: rest => max item.depth (itemsDepth rest)

def fieldsDepth : List (Option String × Json) → Nat
  | [] => 0
  | (_, value) :: rest => max value.depth (fieldsDepth rest)

end

/-- The fields of a record in the order of their names, from an object that names each at most once,
or from an array that lists them in that order. Other names in an object are passed over. -/
def record (names : List String) : Json → Option (List (Option Json))
  | object fields => do
    if fields.any (·.1.isNone) then none
    else
      names.mapM fun name =>
        match fields.filter (·.1 = some name) with
        | [] => some none
        | [(_, value)] => some (some value)
        | _ => none
  | array items =>
    if names.length < items.length then none
    else some (items.map some ++ List.replicate (names.length - items.length) none)
  | _ => none

def text? : Json → Option String
  | string text => text
  | _ => none

def bool? : Json → Option Bool
  | bool value => some value
  | _ => none

def items? : Json → Option (List Json)
  | array items => some items
  | _ => none

def optional {β : Type} (read : Json → Option β) : Option Json → Option (Option β)
  | none | some null => some none
  | some value => (read value).map some

/-- Digits alone make a natural number, which has to fit in 64 bits. -/
def nat64? : Json → Option Nat
  | number literal =>
    if literal.all Char.isDigit ∧ Decimal.digitsValue literal < Nat.pow 2 64 then
      some (Decimal.digitsValue literal)
    else none
  | _ => none

end Json

end PaneTiling
