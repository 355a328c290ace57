import RecordFilter.Decimal.Shortest

/-!
# Layouts of written numbers

The digits of a number are fixed by `Magnitude.shortest`; a `Layout` says how they are set.  A
number whose leading digit stands at a decimal exponent within the layout's bounds is written
positionally, any other with an exponent.
-/

namespace RecordFilter

namespace Decimal

/-- How the digits of a number are set. -/
structure Layout where
  /-- The least decimal exponent written positionally; without it, all small ones are. -/
  least : Option Int
  /-- The greatest decimal exponent written positionally; without it, all large ones are. -/
  greatest : Option Int
  /-- A positional integer is followed by `.0`. -/
  marksIntegers : Bool
  /-- An exponent that is not negative has a plus sign. -/
  signsExponents : Bool
  /-- The choice between two equally near decimals. -/
  tie : Tie

/-- The digits without the zeros at their end; zero keeps one digit. -/
def significant (d : Decimal) : List Char :=
  match ((Integer.digits d.digits).reverse.dropWhile (· == '0')).reverse with
  | [] => ['0']
  | ds => ds

/-- How many digits stand before the decimal point; not positive below one tenth and beyond. -/
def point (d : Decimal) : Int := (Integer.digits d.digits).length + d.exponent

namespace Layout

/-- Digits with a decimal point among them, or zeros up to it on either side. -/
def positional (layout : Layout) (digits : List Char) (point : Int) : List Char :=
  if point ≤ 0 then '0' :: '.' :: (List.replicate (-point).toNat '0' ++ digits)
  else if digits.length ≤ point then
    digits ++ List.replicate (point.toNat - digits.length) '0' ++
      (if layout.marksIntegers then ['.', '0'] else [])
  else digits.take point.toNat ++ '.' :: digits.drop point.toNat

/-- One digit, the others behind a point, and the exponent. -/
def exponential (layout : Layout) (digits : List Char) (exponent : Int) : List Char :=
  let mantissa := match digits with
    | d :: e :: ds => d :: '.' :: e :: ds
    | ds => ds
  let plus := if layout.signsExponents ∧ 0 ≤ exponent then ['+'] else []
  mantissa ++ 'e' :: (plus ++ Integer.numeralChars exponent)

/-- The decimal exponent is within the bounds of positional writing. -/
def writesPositionally (layout : Layout) (exponent : Int) : Bool :=
  layout.least.all (· ≤ exponent) && layout.greatest.all (exponent ≤ ·)

/-- The text of a decimal. -/
def write (layout : Layout) (d : Decimal) : List Char :=
  let exponent := d.point - 1
  if layout.writesPositionally exponent then layout.positional d.significant d.point
  else layout.exponential d.significant exponent

end Layout

end Decimal

namespace Binary64

/-- The text of a number in a layout. -/
def write (layout : Decimal.Layout) : Binary64 → List Char
  | nan => ['N', 'a', 'N']
  | infinite negative => (if negative then ['-'] else []) ++ ['i', 'n', 'f']
  | finite negative m =>
    (if negative then ['-'] else []) ++ layout.write (m.shortest layout.tie)

/-- The text of a number in a layout, as a string. -/
def text (layout : Decimal.Layout) (x : Binary64) : String := String.ofList (x.write layout)

end Binary64

end RecordFilter
