/-!
# Types of fields

A field of a record holds values of one of five types.  All but the booleans are ordered, so bounds
make sense on them.
-/

namespace RecordFilter

/-- The type of a field. -/
inductive FieldType where
  | boolean
  | integer
  | float
  | string
  | date
  deriving DecidableEq

namespace FieldType

/-- All types, in the order in which they are listed. -/
def all : List FieldType := [boolean, integer, float, string, date]

/-- The name of a type. -/
def name : FieldType → String
  | boolean => "Boolean"
  | integer => "Int"
  | float => "Float"
  | string => "String"
  | date => "Date"

/-- Values of the type can be bounded from above and below. -/
def isOrdered (t : FieldType) : Bool := t != boolean

end FieldType

end RecordFilter
