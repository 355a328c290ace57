import RecordFilter.Decimal.Shortest

/-!
# Reading numbers from text

A numeral has an optional sign, digits with an optional decimal point among them or at either end,
and an optional exponent.  At least one digit is needed, and one in an exponent.  In place of the
digits the words `nan`, `inf` and `infinity` may stand, in any case.  The number read is the one
nearest to the numeral.
-/

namespace RecordFilter

namespace Decimal

/-- Splits a text after its leading digits. -/
def spanDigits (cs : List Char) : List Char × List Char :=
  (cs.takeWhile Char.isDigit, cs.dropWhile Char.isDigit)

/-- The decimal with the given digits before and behind the point. -/
def ofParts (whole fraction : List Char) (exponent : Int) : Decimal :=
  ⟨Integer.ofDigits (whole ++ fraction), exponent - fraction.length⟩

/-- The digits behind a decimal point, if there is one, and the text after them. -/
def spanFraction : List Char → List Char × List Char
  | '.' :: cs => spanDigits cs
  | cs => ([], cs)

/-- The value of an exponent mark up to the end of the text; nothing means zero. -/
def exponent? : List Char → Option Int
  | [] => some 0
  | 'e' :: cs => Integer.ofNumeral? cs
  | 'E' :: cs => Integer.ofNumeral? cs
  | _ => none

/-- The decimal that an unsigned numeral denotes. -/
def ofNumeral? (cs : List Char) : Option Decimal :=
  let (whole, afterWhole) := spanDigits cs
  let (fraction, afterFraction) := spanFraction afterWhole
  if whole = [] ∧ fraction = [] then none
  else (exponent? afterFraction).map (ofParts whole fraction)

end Decimal

namespace Binary64

/-- The number that a text without a sign denotes, with the sign given beside it. -/
def ofUnsigned? (negative : Bool) (cs : List Char) : Option Binary64 :=
  let word := String.ofList (cs.map Char.toLower)
  if word = "nan" then some nan
  else if word = "inf" ∨ word = "infinity" then some (infinite negative)
  else (Decimal.ofNumeral? cs).map fun d => ofDecimal negative d.digits d.exponent

/-- The number that a text denotes. -/
def ofText? : List Char → Option Binary64
  | '-' :: cs => ofUnsigned? true cs
  | '+' :: cs => ofUnsigned? false cs
  | cs => ofUnsigned? false cs

end Binary64

end RecordFilter
