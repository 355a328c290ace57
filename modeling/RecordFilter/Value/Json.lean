import RecordFilter.Json.Document
import RecordFilter.Value.Basic

/-!
# Values in JSON

A value is what its JSON looks like: an integer of 64 bits is an integer, any other number is one of
the binary format.  Null and objects are no values.  A number that JSON has no form for,
an infinity or the value that is not a number, is written as null.
-/

namespace RecordFilter.Value

mutual

/-- The value that is written as the given JSON. -/
def ofJson? : Json → Option Value
  | .null => none
  | .boolean b => some (boolean b)
  | .integer n =>
    match Integer.toInt64? n with
    | some i => some (integer i)
    | none => some (float (Binary64.ofInt n))
  | .float x => some (float x)
  | .string s => some (string s)
  | .array items => (ofJsons? items).map list
  | .object _ => none

/-- The values that are written as the given items, if all are values. -/
def ofJsons? : List Json → Option (List Value)
  | [] => some []
  | j :: js => do
    let v ← ofJson? j
    let vs ← ofJsons? js
    return v :: vs

end

mutual

/-- The JSON of a value. -/
def toJson : Value → Json
  | boolean b => .boolean b
  | integer i => .integer i.toInt
  | float x => if x.isFinite then .float x else .null
  | string s => .string s
  | list items => .array (toJsons items)

/-- The JSON of the values of a list. -/
def toJsons : List Value → List Json
  | [] => []
  | v :: vs => v.toJson :: toJsons vs

end

/-- Reads a value in which at most the given number of brackets are open at once. -/
def reader (brackets : Nat) : Json.Reader Value := Json.Reader.document brackets >>= fun j =>
  match ofJson? j with
  | some v => pure v
  | none => .mismatched (.formless "Value")

/-- The value of a text. -/
def ofText (s : String) : Except Json.ReadError Value :=
  (reader Json.Reader.bracketLimit).complete s

end RecordFilter.Value
