import PaneTiling.Decimal.Binary

/-!
The fewest decimal digits that tell a binary64 number from its neighbours. A decimal stands for a
number when it lies in the interval of reals that round to that number; the ends of the interval
belong to it when the mantissa is even, since a half goes to the even side.
-/

namespace PaneTiling.Decimal

/-- A decimal whose magnitude is `digits` times ten to the power `scale`. -/
structure Digits where
  digits : Nat
  scale : Int
deriving DecidableEq, Repr, Inhabited

inductive Tie
  | up
  | even
deriving DecidableEq, Repr, Inhabited

/-- The reals that round to a number, as integers over the common denominator `den`. -/
structure Interval where
  low : Nat
  value : Nat
  high : Nat
  den : Nat
  closed : Bool

/-- Below a power of two the neighbour is only half as far away as above it. -/
def Interval.around (mantissa : Nat) (scale : Int) : Interval :=
  let (up, down) := powerOfTwo (scale - 2)
  let below := if mantissa = Nat.pow 2 52 ∧ -1074 < scale then 1 else 2
  ⟨(4 * mantissa - below) * up, 4 * mantissa * up, (4 * mantissa + 2) * up, down,
    mantissa % 2 = 0⟩

def Interval.Holds (i : Interval) (num den : Nat) : Prop :=
  if i.closed then i.low * den ≤ num * i.den ∧ num * i.den ≤ i.high * den
  else i.low * den < num * i.den ∧ num * i.den < i.high * den

instance (i : Interval) (num den : Nat) : Decidable (i.Holds num den) := by
  unfold Interval.Holds
  infer_instance

def digitCount (n : Nat) : Nat := (Nat.toDigits 10 n).length

def decimalMagnitude (num den : Nat) : Int :=
  if den ≤ num then digitCount (num / den)
  else
    let zeros := digitCount (den / num)
    if num * Nat.pow 10 (zeros - 1) = den then 2 - (zeros : Int) else 1 - (zeros : Int)

/-- The decimal with its last digit at `scale` that stands for a number, if there is one: of the two
neighbours of the number on that grid the nearer one. -/
def onGrid (tie : Tie) (i : Interval) (scale : Int) : Option Digits :=
  let (up, down) := powerOfTen scale
  let num := i.value * down
  let den := i.den * up
  let low := num / den
  let holds (d : Nat) : Bool := i.Holds (d * up) down
  let twice := 2 * (num % den)
  let lowIsNearer := twice < den ∨ twice = den ∧ tie = .even ∧ low % 2 = 0
  match holds low, holds (low + 1) with
  | true, true => some ⟨if lowIsNearer then low else low + 1, scale⟩
  | true, false => some ⟨low, scale⟩
  | false, true => some ⟨low + 1, scale⟩
  | false, false => none

/-- The neighbour above a number just below a power of ten is that power, which needs one digit. -/
def Digits.trimmed (d : Digits) : Digits :=
  if d.digits % 10 = 0 then ⟨d.digits / 10, d.scale + 1⟩ else d

/-- The shortest decimal of a positive number. Seventeen digits always suffice. -/
def shortest (tie : Tie) (mantissa : Nat) (scale : Int) : Digits :=
  let i := Interval.around mantissa scale
  let top := decimalMagnitude i.value i.den
  let found := (List.range' 1 17).findSome? fun (count : Nat) => onGrid tie i (top - count)
  (found.getD ⟨0, 0⟩).trimmed

end PaneTiling.Decimal
