import RecordFilter.Binary64.Round

/-!
# Scaling by powers of ten

The product and the quotient of two magnitudes are rounded to the nearest magnitude, a half going to
the even significand.  Scaling by a power of ten multiplies or divides by the magnitude nearest to
that power.  Powers up to `10 ^ 22` are magnitudes themselves, so that such a step rounds once; a
greater one is rounded before it is used, and the result may be next to the nearest magnitude.

Magnitudes end before `10 ^ 309`.  Nothing but zero is scaled up by a power so great, and scaling
down by one is done in steps of `10 ^ 308`, each of which rounds.
-/

namespace RecordFilter.Binary64.Magnitude

/-- The magnitude nearest to a natural number. -/
def ofNat? (n : Nat) : Option Magnitude := nearest? (n * unitsInOne) 1

/-- The product of two magnitudes, rounded. -/
def times? (x y : Magnitude) : Option Magnitude := nearest? (x.units * y.units) unitsInOne

/-- The quotient of two magnitudes, rounded. -/
def dividedBy? (x y : Magnitude) : Option Magnitude := nearest? (x.units * unitsInOne) y.units

/-- The greatest exponent of ten whose power is not past the magnitudes. -/
def greatestTen : Nat := 308

/-- The magnitude multiplied by a power of ten. -/
def scaleUp? (x : Magnitude) (k : Nat) : Option Magnitude :=
  if k ≤ greatestTen then (ofNat? (tenTo k)).bind x.times?
  else if x = zero then some zero
  else none

/-- The magnitude divided by a power of ten. -/
def scaleDown? (x : Magnitude) (k : Nat) : Option Magnitude :=
  if k ≤ greatestTen then (ofNat? (tenTo k)).bind x.dividedBy?
  else if x = zero then some zero
  else ((ofNat? (tenTo greatestTen)).bind x.dividedBy?).bind fun y => y.scaleDown? (k - greatestTen)
termination_by k
decreasing_by
  unfold greatestTen at *
  omega

/-- The magnitude scaled by a power of ten; there is none for a product past the largest. -/
def scale? (x : Magnitude) : Int → Option Magnitude
  | .ofNat k => x.scaleUp? k
  | .negSucc k => x.scaleDown? (k + 1)

end RecordFilter.Binary64.Magnitude
