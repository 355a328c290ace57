import RecordFilter.Binary64.Round

/-!
# Numbers made integers

A number is made a 64-bit integer if it has no fraction and lies within their range (`toInt64?`).
The ends of the range are taken as numbers for this.  The least integer is a number, but the number
nearest to the greatest is `2 ^ 63`, one past it; so the range is closed below and open above.

The conversion itself, `truncated`, answers every number: it drops the fraction, and it takes an end
of the range for all that is past it.
-/

namespace RecordFilter.Binary64

/-- The first number is to the left of the second. -/
def below (x y : Binary64) : Bool :=
  match x.position, y.position with
  | some a, some b => a < b
  | _, _ => false

/-- The number is finite and has no fraction. -/
def isWhole : Binary64 → Bool
  | finite _ m => m.units % unitsInOne == 0
  | _ => false

/-- The 64-bit integer that a number is cut to. -/
def truncated : Binary64 → Int64
  | nan => 0
  | infinite negative => if negative then Int64.minValue else Int64.maxValue
  | finite negative m => Int64.ofIntClamp (signed negative (m.units / unitsInOne))

/-- The 64-bit integer that a number is made, if it has no fraction and is within their range. -/
def toInt64? (x : Binary64) : Option Int64 :=
  if x.isWhole && atMost (ofInt Int64.minValue.toInt) x && x.below (ofInt Int64.maxValue.toInt) then
    some x.truncated
  else none

end RecordFilter.Binary64
