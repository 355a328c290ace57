import RecordFilter.Binary64.Round
import RecordFilter.Integer

/-!
# The shortest decimal of a binary number

A binary number has an exact decimal expansion, but it is written with fewer digits: as few as read
back as the same number, and among those of that length the one nearest to it.  A decimal reads back
as the number that is nearest to it.

## How it is found

The magnitude is a natural multiple of `10 ^ (-1074)`, its `expansion`.  Dropping the last digits of
the expansion gives the grid of decimals with that many digits less; on each grid only the two
neighbours of the magnitude can be nearest.  The search starts at the coarsest grid and takes the
first on which a neighbour reads back.  Dropping nothing leaves the magnitude itself, so the search
always ends with a decimal that reads back.
-/

namespace RecordFilter

/-- The decimal `digits * 10 ^ exponent`. -/
structure Decimal where
  digits : Nat
  exponent : Int
  deriving DecidableEq

namespace Decimal

/-- Which of two decimals is taken when the number lies halfway between them. -/
inductive Tie where
  /-- The one farther from zero. -/
  | up
  /-- The one whose last digit is even. -/
  | even
  deriving DecidableEq

end Decimal

namespace Binary64.Magnitude

/-- The power of five that turns units into multiples of `10 ^ (-1074)`. -/
def expansionFactor : Nat := Nat.pow 5 1074

/-- The magnitude as a multiple of `10 ^ (-1074)`. -/
def expansion (m : Magnitude) : Nat := m.units * expansionFactor

/-- The decimal is read as this magnitude. -/
def readsBack (m : Magnitude) (d : Decimal) : Bool :=
  ofDecimal false d.digits d.exponent = finite false m

/-- The neighbour not above the magnitude on the grid that drops the last digits. -/
def gridBelow (m : Magnitude) (drop : Nat) : Decimal :=
  ⟨m.expansion / tenTo drop, (drop : Int) - 1074⟩

/-- The neighbour above the magnitude on the grid that drops the last digits. -/
def gridAbove (m : Magnitude) (drop : Nat) : Decimal :=
  ⟨m.expansion / tenTo drop + 1, (drop : Int) - 1074⟩

/-- Of the two neighbours on a grid, the one above is to be taken. -/
def prefersAbove (tie : Decimal.Tie) (m : Magnitude) (drop : Nat) : Bool :=
  let r := m.expansion % tenTo drop
  if 2 * r < tenTo drop then false
  else if tenTo drop < 2 * r then true
  else match tie with
    | .up => true
    | .even => m.expansion / tenTo drop % 2 == 1

/-- The neighbour on a grid that reads back, the nearer if both do. -/
def onGrid? (tie : Decimal.Tie) (m : Magnitude) (drop : Nat) : Option Decimal :=
  if m.readsBack (m.gridBelow drop) then
    if m.readsBack (m.gridAbove drop) && m.prefersAbove tie drop then some (m.gridAbove drop)
    else some (m.gridBelow drop)
  else if m.readsBack (m.gridAbove drop) then some (m.gridAbove drop)
  else none

/-- The first success on the grids that drop at most the given number of digits, coarsest first. -/
def shortestFrom (tie : Decimal.Tie) (m : Magnitude) : Nat → Decimal
  | 0 => ⟨m.expansion, -1074⟩
  | drop + 1 => (m.onGrid? tie (drop + 1)).getD (m.shortestFrom tie drop)

/-- The shortest decimal that reads back as the magnitude. -/
def shortest (tie : Decimal.Tie) (m : Magnitude) : Decimal :=
  if m.units = 0 then ⟨0, 0⟩
  else m.shortestFrom tie ((Integer.digits m.expansion).length - 1)

end Binary64.Magnitude

end RecordFilter
