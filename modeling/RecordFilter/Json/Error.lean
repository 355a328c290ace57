import RecordFilter.Json.Writer
import RecordFilter.Text.Boolean
import RecordFilter.Text.Quoted

/-!
# Why a JSON text is refused

A text may break the grammar of JSON (`malformed`), end before it is complete (`truncated`), or hold
something else than what is asked for (`mismatch`).  Only the last has a message.  A text is read
from left to right, and the first error is the one reported, so a mismatch may hide a later break of
the grammar.
-/

namespace RecordFilter.Json

/-- The first token of a value: all of a scalar, or the bracket that opens anything else. -/
inductive Token where
  | null
  | boolean (b : Bool)
  | integer (n : Int)
  | float (x : Binary64)
  | string (s : String)
  | array
  | object
  deriving DecidableEq

/-- The name of a token in messages. -/
def Token.text : Token → String
  | null => "null"
  | boolean b => "boolean `" ++ Text.ofBool b ++ "`"
  | integer n => "integer `" ++ Integer.numeral n ++ "`"
  | float x => "floating point `" ++ x.text numberLayout ++ "`"
  | string s => "string " ++ Text.quote s
  | array => "sequence"
  | object => "map"

/-- Why something well-formed is not what is asked for. -/
inductive Mismatch where
  /-- A value of another type stands there. -/
  | type (found : Token) (expected : String)
  /-- An integer is out of range. -/
  | range (n : Int) (expected : String)
  /-- An array is too short for the members it stands for. -/
  | length (given : Nat) (expected : String)
  /-- A word is none of the words of a choice. -/
  | variant (word : String) (words : List String)
  /-- A member is missing. -/
  | missing (member : String)
  /-- A member is given twice. -/
  | repeated (member : String)
  /-- A value is of none of the forms that the type has. -/
  | formless (name : String)
  deriving DecidableEq

namespace Mismatch

/-- The words of a choice in a message. -/
def choiceText (words : List String) : String :=
  let quoted := words.map fun w => "`" ++ w ++ "`"
  match quoted with
  | [a] => a
  | [a, b] => a ++ " or " ++ b
  | ws => "one of " ++ String.intercalate ", " ws

/-- The message of a mismatch. -/
def message : Mismatch → String
  | type found expected => "invalid type: " ++ found.text ++ ", expected " ++ expected
  | range n expected => "invalid value: " ++ (Token.integer n).text ++ ", expected " ++ expected
  | length given expected =>
    "invalid length " ++ Integer.numeral given ++ ", expected " ++ expected
  | variant word words => "unknown variant `" ++ word ++ "`, expected " ++ choiceText words
  | missing member => "missing field `" ++ member ++ "`"
  | repeated member => "duplicate field `" ++ member ++ "`"
  | formless name => "data did not match any variant of untagged enum " ++ name

end Mismatch

/-- Why a text is refused. -/
inductive ReadError where
  /-- The text is no JSON. -/
  | malformed
  /-- The text ends too early. -/
  | truncated
  /-- The text does not hold what is asked for. -/
  | mismatch (m : Mismatch)
  deriving DecidableEq

/-- The message of an error. -/
def ReadError.message : ReadError → String
  | malformed => "malformed JSON"
  | truncated => "unexpected end of JSON"
  | mismatch m => m.message

end RecordFilter.Json
