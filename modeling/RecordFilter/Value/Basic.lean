import RecordFilter.Decimal.Layout
import RecordFilter.FieldType
import RecordFilter.Text.Boolean

/-!
# Values

A filter compares fields with values: booleans, integers, numbers, strings, and lists of values.  A
value has no date of its own; a date is given as a string.

* `text`: the form of a value in messages.
* `isSame`: the test behind the decidable equality of values; it tells an integer from a number, and
  the two zeros from each other.
-/

namespace RecordFilter

/-- A value that a field is compared with. -/
inductive Value where
  | boolean (b : Bool)
  | integer (i : Int64)
  | float (x : Binary64)
  | string (s : String)
  | list (items : List Value)

namespace Value

instance : Inhabited Value := ⟨boolean false⟩

/-- The type of fields whose values look like this one; a list is the value of no field. -/
def fieldType? : Value → Option FieldType
  | boolean _ => some .boolean
  | integer _ => some .integer
  | float _ => some .float
  | string _ => some .string
  | list _ => none

/-- The elements of a list. -/
def items? : Value → Option (List Value)
  | list items => some items
  | _ => none

/-- The value is a list. -/
def isList : Value → Bool
  | list _ => true
  | _ => false

/-! ## Equality -/

mutual

/-- The two values are equal. -/
def isSame : Value → Value → Bool
  | boolean a, boolean b => a == b
  | integer a, integer b => a == b
  | float a, float b => a = b
  | string a, string b => a == b
  | list a, list b => areSame a b
  | _, _ => false

/-- The two lists of values are equal. -/
def areSame : List Value → List Value → Bool
  | [], [] => true
  | a :: as, b :: bs => a.isSame b && areSame as bs
  | _, _ => false

end

mutual

theorem isSame_iff : ∀ {a b : Value}, a.isSame b = true ↔ a = b
  | boolean _, b => by cases b <;> simp [isSame]
  | integer _, b => by cases b <;> simp [isSame]
  | float _, b => by cases b <;> simp [isSame]
  | string _, b => by cases b <;> simp [isSame]
  | list _, list _ => by simp [isSame, areSame_iff]
  | list _, boolean _ | list _, integer _ | list _, float _ | list _, string _ => by simp [isSame]

theorem areSame_iff : ∀ {as bs : List Value}, areSame as bs = true ↔ as = bs
  | [], bs => by cases bs <;> simp [areSame]
  | _ :: _, [] => by simp [areSame]
  | _ :: _, _ :: _ => by simp [areSame, isSame_iff, areSame_iff]

end

instance : DecidableEq Value := fun _ _ => decidable_of_iff _ isSame_iff

/-! ## Text -/

/-- Numbers in messages are written without an exponent. -/
def numberLayout : Decimal.Layout := ⟨none, none, false, false, .up⟩

/-- A text with a backslash before each quote in it. -/
def escapeQuotes (s : String) : String :=
  String.ofList (s.toList.flatMap fun c => if c = '\"' then ['\\', '\"'] else [c])

mutual

/-- The form of a value in messages. -/
def text : Value → String
  | boolean b => Text.ofBool b
  | integer i => Integer.numeral i.toInt
  | float x => x.text numberLayout
  | string s => "\"" ++ escapeQuotes s ++ "\""
  | list items => "[" ++ String.intercalate ", " (texts items) ++ "]"

/-- The forms of the values of a list. -/
def texts : List Value → List String
  | [] => []
  | v :: vs => v.text :: texts vs

end

end Value

end RecordFilter
