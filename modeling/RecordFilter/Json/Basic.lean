import RecordFilter.Binary64.Basic

/-!
# JSON values

The values that a JSON text denotes.  A number without a fraction and an exponent is an integer, and
any other is a number of the 64-bit binary format, so the two ways of writing one stay apart.  An
object keeps its members in the order in which they stand, also when a name stands twice.
-/

namespace RecordFilter

/-- A JSON value. -/
inductive Json where
  | null
  | boolean (b : Bool)
  | integer (n : Int)
  | float (x : Binary64)
  | string (s : String)
  | array (items : List Json)
  | object (members : List (String × Json))

instance : Inhabited Json := ⟨.null⟩

end RecordFilter
