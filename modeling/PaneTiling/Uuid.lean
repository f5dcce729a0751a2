/-!
Universally unique identifiers and their text: 32 hexadecimal digits in groups of 8, 4, 4, 4 and 12.
Reading also takes the digits without hyphens, and the grouped form in braces or as a URN, in either
case; writing always gives the grouped form in lower case.
-/

namespace PaneTiling

structure Uuid where
  value : BitVec 128
deriving DecidableEq, Repr, Inhabited

namespace Uuid

def digitOf? (c : Char) : Option Nat :=
  if c.isDigit then some (c.toNat - '0'.toNat)
  else if 'a' ≤ c ∧ c ≤ 'f' then some (c.toNat - 'a'.toNat + 10)
  else if 'A' ≤ c ∧ c ≤ 'F' then some (c.toNat - 'A'.toNat + 10)
  else none

def ofDigits? (text : List Char) : Option Uuid := do
  let digits ← text.mapM digitOf?
  if digits.length = 32 then
    some ⟨BitVec.ofNat 128 (digits.foldl (fun n d => 16 * n + d) 0)⟩
  else none

/-- The digits of a text that has hyphens exactly after its first four groups. -/
def ungroup? (text : List Char) : Option (List Char) :=
  let group (start size : Nat) := (text.drop start).take size
  if text.length = 36 ∧ [8, 13, 18, 23].all (fun i => text[i]? = some '-') then
    some (group 0 8 ++ group 9 4 ++ group 14 4 ++ group 19 4 ++ group 24 12)
  else none

def ofGrouped? (text : List Char) : Option Uuid := (ungroup? text).bind ofDigits?

/-- What stands before a grouped identifier that is written as a URN. -/
def urnMark : List Char := "urn:uuid:".toList

def ofChars? (text : List Char) : Option Uuid :=
  match text.length with
  | 32 => ofDigits? text
  | 36 => ofGrouped? text
  | 38 =>
    if text.head? = some '\x7b' ∧ text.getLast? = some '\x7d' then
      ofGrouped? (text.drop 1).dropLast
    else none
  | 45 => if (text.take 9).map Char.toLower = urnMark then ofGrouped? (text.drop 9) else none
  | _ => none

def ofString? (text : String) : Option Uuid := ofChars? text.toList

def digits (id : Uuid) : List Char :=
  (List.range 32).map fun i => Nat.digitChar (id.value.toNat / Nat.pow 16 (31 - i) % 16)

def text (id : Uuid) : String :=
  let digits := id.digits
  let group (start size : Nat) := (digits.drop start).take size
  String.ofList (group 0 8 ++ '-' :: group 8 4 ++ '-' :: group 12 4 ++ '-' :: group 16 4
    ++ '-' :: group 20 12)

end Uuid

end PaneTiling
