import PaneTiling.Decimal.Binary

/-!
Numbers as they are written: a sign, digits, a point with digits, an exponent. Each format accepts
its own selection of them.
-/

namespace PaneTiling.Decimal

structure Numeral where
  sign : Option Char
  whole : List Char
  /-- The digits after the point, if there is a point. -/
  fraction : Option (List Char)
  /-- Whether the exponent is negative, and its digits. -/
  exponent : Option (Bool × List Char)
deriving DecidableEq, Repr

def splitSign : List Char → Option Char × List Char
  | '-' :: rest => (some '-', rest)
  | '+' :: rest => (some '+', rest)
  | rest => (none, rest)

def splitPoint : List Char → Option (List Char) × List Char
  | '.' :: rest => (some (rest.takeWhile Char.isDigit), rest.dropWhile Char.isDigit)
  | rest => (none, rest)

/-- Reads a text that is nothing but a number; any of the digit runs may be empty. -/
def Numeral.ofChars? (text : List Char) : Option Numeral :=
  let (sign, text) := splitSign text
  let whole := text.takeWhile Char.isDigit
  let (fraction, text) := splitPoint (text.dropWhile Char.isDigit)
  match text with
  | [] => some ⟨sign, whole, fraction, none⟩
  | mark :: rest =>
    if mark = 'e' ∨ mark = 'E' then
      let (exponentSign, digits) := splitSign rest
      if digits.all Char.isDigit then
        some ⟨sign, whole, fraction, some (exponentSign = some '-', digits)⟩
      else none
    else none

def digitValue (c : Char) : Nat := c.toNat - '0'.toNat

/-- The integer that digits are read as. -/
def digitsValue (digits : List Char) : Nat := digits.foldl (fun n c => 10 * n + digitValue c) 0

namespace Numeral

variable (n : Numeral)

def negative : Bool := n.sign = some '-'

def fractionDigits : List Char := n.fraction.getD []

def exponentValue : Int :=
  match n.exponent with
  | some (true, digits) => -digitsValue digits
  | some (false, digits) => digitsValue digits
  | none => 0

/-- There is a digit before or after the point, and one in the exponent if there is an exponent. -/
def hasDigits : Bool :=
  !(n.whole ++ n.fractionDigits).isEmpty && n.exponent.all (!·.2.isEmpty)

def toFloat : Float :=
  let digits := n.whole ++ n.fractionDigits
  let significand := digitsValue digits
  let scale := n.exponentValue - n.fractionDigits.length
  if significand = 0 then nearestFloat n.negative 0 1
  else if 310 < scale then nearestFloat n.negative (Nat.pow 2 1024) 1
  else if scale + digits.length < -330 then nearestFloat n.negative 0 1
  else
    let (up, down) := powerOfTen scale
    nearestFloat n.negative (significand * up) down

end Numeral

end PaneTiling.Decimal
