/-!
# The words for truth values
-/

namespace RecordFilter.Text

/-- The word for a truth value. -/
def ofBool (b : Bool) : String := if b then "true" else "false"

end RecordFilter.Text
