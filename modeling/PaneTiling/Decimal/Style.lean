import PaneTiling.Decimal.Shortest

/-!
The text of numbers. A style says from which to which power of ten a number is written without an
exponent, and how the rest is spelled; the digits are the shortest that stand for the number.
-/

namespace PaneTiling.Decimal

structure Style where
  /-- The powers of ten of the first digit that are written without an exponent. -/
  positional : Int → Bool
  /-- A whole number keeps a point and a zero. -/
  keepsPoint : Bool
  /-- A positive exponent has a plus sign. -/
  plusExponent : Bool
  tie : Tie
  nan : List Char
  infinite : Bool → List Char

def digitsText (n : Nat) : List Char := Nat.toDigits 10 n

def signText (negative : Bool) : List Char := if negative then ['-'] else []

def positionalText (keepsPoint : Bool) (d : Digits) : List Char :=
  let text := digitsText d.digits
  if 0 ≤ d.scale then
    text ++ List.replicate d.scale.toNat '0' ++ (if keepsPoint then ['.', '0'] else [])
  else
    let places := (-d.scale).toNat
    let padded := List.replicate (places + 1 - text.length) '0' ++ text
    padded.take (padded.length - places) ++ '.' :: padded.drop (padded.length - places)

/-- One digit, a point if more digits follow, and an exponent. -/
def exponentText (plusExponent : Bool) (d : Digits) (power : Int) : List Char :=
  let mantissa := match digitsText d.digits with
    | [] => []
    | [only] => [only]
    | first :: rest => first :: '.' :: rest
  let sign := if power < 0 then ['-'] else if plusExponent then ['+'] else []
  mantissa ++ 'e' :: sign ++ digitsText power.natAbs

def Style.render (style : Style) (x : Float) : List Char :=
  match Quantity.ofFloat x with
  | .nan => style.nan
  | .infinite negative => style.infinite negative
  | .finite negative mantissa scale =>
    let d := if mantissa = 0 then ⟨0, 0⟩ else shortest style.tie mantissa scale
    let power := digitCount d.digits + d.scale - 1
    signText negative
      ++ (if style.positional power then positionalText style.keepsPoint d
        else exponentText style.plusExponent d power)

/-- Numbers in messages: never an exponent, and no point in a whole number. -/
def Style.message : Style where
  positional _ := true
  keepsPoint := false
  plusExponent := false
  tie := .up
  nan := "NaN".toList
  infinite negative := signText negative ++ "inf".toList

def messageText (x : Float) : String := String.ofList (Style.message.render x)

/-- A number rounded to one decimal place, a half of the last place going to the even digit. -/
def tenthsText (x : Float) : String :=
  match Quantity.ofFloat x with
  | .nan => "NaN"
  | .infinite negative => String.ofList (signText negative) ++ "inf"
  | .finite negative mantissa scale =>
    let (up, down) := powerOfTwo scale
    let tenths := roundDiv (10 * mantissa * up) down
    String.ofList (signText negative ++ digitsText (tenths / 10) ++ '.' :: digitsText (tenths % 10))

end PaneTiling.Decimal
