import PaneTiling.Yaml.Basic

/-!
Blocks: scalars of several lines, each indented, whose line breaks are kept as they are. The first
line with something on it sets the indentation, unless the header tells it.
-/

namespace PaneTiling.Yaml

/-- Which line breaks at the end of a block belong to it: none, the first, or all. -/
inductive Chomping
  | strip
  | clip
  | keep
deriving DecidableEq, Repr, Inhabited

structure Block where
  chomping : Chomping
  indent : Option Nat
  /-- The most blanks at the start of a line so far, while the indentation is not known. -/
  seen : Nat
  /-- The last character first. -/
  reversed : List Char
  /-- The line breaks after that, the last one first. -/
  breaks : List Char
deriving DecidableEq, Repr, Inhabited

namespace Block

def empty : Block := ⟨.clip, none, 0, [], []⟩

def push (b : Block) (c : Char) : Block :=
  { b with reversed := c :: (b.breaks ++ b.reversed), breaks := [] }

def text (b : Block) : List Char :=
  b.reversed.reverse ++
    match b.chomping with
    | .strip => []
    | .clip => if b.reversed.isEmpty then [] else b.breaks.reverse.take 1
    | .keep => b.breaks.reverse

/-- A character of the header. The indentation is told relative to `base`. -/
def header? (b : Block) (base : Nat) (c : Char) : Option Block :=
  if c = '-' ∧ b.chomping = .clip then some { b with chomping := .strip }
  else if c = '+' ∧ b.chomping = .clip then some { b with chomping := .keep }
  else if '1' ≤ c ∧ c ≤ '9' ∧ b.indent = none then
    some { b with indent := some (base + Decimal.digitValue c) }
  else none

/-- The indentation that a first line at a column shows. It is more than that of what holds the
block. -/
def shownIndent (b : Block) (least : Nat) : Nat := max b.seen (max least 1)

inductive Step
  | goesOn (b : Block)
  /-- The line is not indented enough to belong to the block. -/
  | ends
  | fails

def step (b : Block) (column least : Nat) (c : Char) : Step :=
  if isBreak c then .goesOn { b with breaks := c :: b.breaks }
  else
    match b.indent with
    | some indent =>
      if indent ≤ column then .goesOn (b.push c)
      else if c = ' ' then .goesOn b
      else if c = '\t' then .fails
      else .ends
    | none =>
      if c = ' ' then .goesOn { b with seen := max b.seen (column + 1) }
      else if c = '\t' then .fails
      else if column < b.shownIndent least then .ends
      else .goesOn { b.push c with indent := some (b.shownIndent least) }

end Block

end PaneTiling.Yaml
