/-!
The numbers that panes are measured in. Everything geometric is written once over these operations.
A running window measures in binary64 numbers; read over exact rational numbers the same definitions
say what a layout is meant to be.
-/

namespace PaneTiling

/-- No law is assumed: what is stated over every scalar holds of rounded arithmetic too. -/
class Scalar (α : Type) extends Add α, Sub α, Mul α, Div α, Zero α, One α, NatCast α,
    OfScientific α, LT α, LE α, Min α, Max α, BEq α where
  abs : α → α
  isFinite : α → Bool
  decLt : DecidableLT α
  decLe : DecidableLE α

namespace Scalar

variable {α : Type} [Scalar α]

instance : DecidableLT α := Scalar.decLt
instance : DecidableLE α := Scalar.decLe

def sum (xs : List α) : α := xs.foldl (· + ·) 0

/-- The point of `lo .. hi` nearest to `x`; a number that compares with neither end stays. -/
def clamp (x lo hi : α) : α :=
  let raised := if x < lo then lo else x
  if hi < raised then hi else raised

/-- The smaller number. A NaN counts for nothing beside a number. -/
def lesser (a b : Float) : Float := if a < b || b.isNaN then a else b

def larger (a b : Float) : Float := if b < a || b.isNaN then a else b

end Scalar

instance : Scalar Float where
  natCast := Float.ofNat
  min := Scalar.lesser
  max := Scalar.larger
  abs := Float.abs
  isFinite := Float.isFinite
  decLt := inferInstance
  decLe := inferInstance

instance : Scalar Rat where
  toZero := @Zero.ofOfNat0 Rat Rat.instOfNat
  toOne := @One.ofOfNat1 Rat Rat.instOfNat
  toMin := Rat.instMin
  toMax := Rat.instMax
  abs x := x.abs
  isFinite _ := true
  decLt := Rat.instDecidableLt
  decLe := Rat.instDecidableLe

end PaneTiling
