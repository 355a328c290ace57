import RecordFilter.Binary64.Truncation
import RecordFilter.Date
import RecordFilter.Decimal.Numeral
import RecordFilter.Text.AsciiCase
import RecordFilter.Value.Basic

/-!
# Coercion of values to field types

The value in a filter need not have the type of the field it is compared with.  Each type takes the
values that stand for exactly one of its own; nothing is rounded or cut to fit, save that an integer
becomes the nearest number.  A string is read without the blanks at its ends, unless the field is
itself a string.
-/

namespace RecordFilter.Value

/-- The characters of a string without the blanks at its ends. -/
def trimmed (s : String) : List Char := Text.trim s.toList

/-- The truth value that a value stands for. -/
def toBoolean? : Value → Option Bool
  | boolean b => some b
  | integer i => if i = 0 then some false else if i = 1 then some true else none
  | string s =>
    let word := String.ofList (trimmed s)
    if Text.sameIgnoringCase word "true" then some true
    else if Text.sameIgnoringCase word "false" then some false
    else none
  | _ => none

/-- The integer that a value stands for. -/
def toInteger? : Value → Option Int64
  | integer i => some i
  | float x => x.toInt64?
  | string s => (Integer.ofNumeral? (trimmed s)).bind Integer.toInt64?
  | boolean b => some (if b then 1 else 0)
  | list _ => none

/-- The number that a value stands for. -/
def toFloat? : Value → Option Binary64
  | float x => some x
  | integer i => some (Binary64.ofInt i.toInt)
  | string s => Binary64.ofText? (trimmed s)
  | _ => none

/-- The string that a value stands for: a string itself, with its blanks, or the form of a
scalar. -/
def toText? : Value → Option String
  | string s => some s
  | list _ => none
  | v => some v.text

/-- The date that a value stands for. -/
def toDate? : Value → Option Date
  | string s => Date.ofText? (trimmed s)
  | _ => none

/-- The value stands for one of the given type. -/
def coercesTo (v : Value) : FieldType → Bool
  | .boolean => v.toBoolean?.isSome
  | .integer => v.toInteger?.isSome
  | .float => v.toFloat?.isSome
  | .string => v.toText?.isSome
  | .date => v.toDate?.isSome

end RecordFilter.Value
