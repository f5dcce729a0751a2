import PaneTiling.Decimal.Numeral

/-!
Reading a decimal with one scaling in binary64 arithmetic: the leading digits, as many as fit in 64
bits, are taken as an integer, and that integer is multiplied or divided by a power of ten. Texts of
up to fifteen digits with a small exponent are read exactly; longer ones may be off in the last
place.
-/

namespace PaneTiling.Decimal

/-- Leading digits after `kept`, as many as fit in 64 bits, with the number of digits left over. -/
def keepDigits (kept : Nat) : List Char → Nat × Nat
  | [] => (kept, 0)
  | c :: rest =>
    let next := 10 * kept + digitValue c
    if next < Nat.pow 2 64 then keepDigits next rest else (kept, rest.length + 1)

/-- Divides by ten to the power `places`, by at most 308 places at a time. -/
def scaleDown (x : Float) (places : Nat) : Float :=
  if places ≤ 308 then x / nearestFloat false (Nat.pow 10 places) 1
  else if x == 0 then x
  else scaleDown (x / nearestFloat false (Nat.pow 10 308) 1) (places - 308)
termination_by places

def scaleUp? (x : Float) (places : Nat) : Option Float :=
  if x == 0 then some x
  else if places ≤ 308 then
    let scaled := x * nearestFloat false (Nat.pow 10 places) 1
    if scaled.isFinite then some scaled else none
  else none

/-- The number that a numeral is read as. A numeral too large for a finite number has none. -/
def Numeral.scaled? (n : Numeral) : Option Float :=
  let (kept, left) := keepDigits 0 n.whole
  let (kept, beyond) := keepDigits kept n.fractionDigits
  let scale := (left : Int) - ((n.fractionDigits.length - beyond : Nat) : Int) + n.exponentValue
  let x := nearestFloat false kept 1
  let magnitude := if 0 ≤ scale then scaleUp? x scale.toNat else some (scaleDown x (-scale).toNat)
  magnitude.map fun x => if n.negative then -x else x

end PaneTiling.Decimal
