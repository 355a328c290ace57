import RecordFilter.Json.Shape

/-!
# Reading any JSON value

A value is read as a whole where its type is told by what it looks like.  Arrays and objects nest at
most as deep as the number of brackets that may still be opened.
-/

namespace RecordFilter.Json.Reader

/-- The number of brackets that may be open at once. -/
def bracketLimit : Nat := 127

/-- Reads a member of an object. -/
def entry (value : Reader Json) : Reader (String × Json) := do
  let name ← key false
  mark ':'
  let v ← value
  return (name, v)

/-- Reads a value whose items, if it has any, are read by the given reader. -/
def valueOf (item : Option (Reader Json)) : Reader Json := token >>= fun t =>
  match t, item with
  | .null, _ => pure .null
  | .boolean b, _ => pure (.boolean b)
  | .integer n, _ => pure (.integer n)
  | .float x, _ => pure (.float x)
  | .string s, _ => pure (.string s)
  | .array, some item => .array <$> items ']' item
  | .object, some item => .object <$> items '\x7d' (entry item)
  | .array, none => fail .malformed
  | .object, none => fail .malformed

/-- Reads a value in which at most the given number of brackets are open at once. -/
def document : Nat → Reader Json
  | 0 => valueOf none
  | n + 1 => valueOf (some (document n))

end RecordFilter.Json.Reader
