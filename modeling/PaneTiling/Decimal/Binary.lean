/-!
Binary64 numbers as exact quantities, and exact quantities as the nearest binary64 number. Nothing
here rounds on the way: a finite number is an integer times a power of two.
-/

namespace PaneTiling.Decimal

/-- What a binary64 number stands for. -/
inductive Quantity
  | nan
  | infinite (negative : Bool)
  /-- The magnitude is `mantissa` times two to the power `scale`. -/
  | finite (negative : Bool) (mantissa : Nat) (scale : Int)
deriving DecidableEq, Repr, Inhabited

def Quantity.ofFloat (x : Float) : Quantity :=
  let bits := x.toBits.toNat
  let negative := bits / Nat.pow 2 63 = 1
  let biased : Nat := bits / Nat.pow 2 52 % Nat.pow 2 11
  let fraction := bits % Nat.pow 2 52
  if biased = 2047 then if fraction = 0 then .infinite negative else .nan
  else if biased = 0 then .finite negative fraction (-1074)
  else .finite negative (fraction + Nat.pow 2 52) ((biased : Int) - 1075)

/-- Two to the power `scale` as a fraction. -/
def powerOfTwo (scale : Int) : Nat × Nat := (Nat.pow 2 scale.toNat, Nat.pow 2 (-scale).toNat)

def powerOfTen (scale : Int) : Nat × Nat := (Nat.pow 10 scale.toNat, Nat.pow 10 (-scale).toNat)

/-- The integer nearest to a fraction, a half going to the even neighbour. -/
def roundDiv (num den : Nat) : Nat :=
  let low := num / den
  let twice := 2 * (num % den)
  if twice < den ∨ twice = den ∧ low % 2 = 0 then low else low + 1

/-- The largest power of two that is not above the fraction of two positive integers. -/
def binaryMagnitude (num den : Nat) : Int :=
  let guess : Int := (num.log2 : Int) - den.log2
  let (up, down) := powerOfTwo guess
  if num * down < den * up then guess - 1 else guess

def nearestBits (num den : Nat) : Nat :=
  if num = 0 then 0
  else
    let scale := max (binaryMagnitude num den - 52) (-1074)
    let (up, down) := powerOfTwo scale
    let mantissa := roundDiv (num * down) (den * up)
    let bits := (scale + 1074).toNat * Nat.pow 2 52 + mantissa
    min bits (2047 * Nat.pow 2 52)

/-- The binary64 number nearest to a fraction with a sign. -/
def nearestFloat (negative : Bool) (num den : Nat) : Float :=
  let bits := nearestBits num den
  Float.ofBits (UInt64.ofNat (if negative then bits + Nat.pow 2 63 else bits))

end PaneTiling.Decimal
