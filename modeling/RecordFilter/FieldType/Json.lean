import RecordFilter.FieldType
import RecordFilter.Json.Shape

/-!
# Field types in JSON

The type of a field is written as its name.
-/

namespace RecordFilter.FieldType

/-- The words for a type. -/
def words : List (String × FieldType) := all.map fun t => (t.name, t)

/-- The type of a text. -/
def ofText (s : String) : Except Json.ReadError FieldType :=
  (Json.Reader.choice words true).complete s

end RecordFilter.FieldType
