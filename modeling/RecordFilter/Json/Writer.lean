import RecordFilter.Decimal.Layout
import RecordFilter.Json.Basic

/-!
# Writing JSON

A value is written in one of two styles: compact, or with each item on a line of its own, indented
by two spaces for each array or object around it.  An array or object without items is written
without a line break in both.

Every function here takes the text that follows what it writes, and puts its own in front of it.
-/

namespace RecordFilter.Json

/-- How the items of arrays and objects are set. -/
inductive Style where
  /-- Without any blanks. -/
  | compact
  /-- On a line each. -/
  | indented

/-- Numbers in JSON have a fraction or an exponent, whose sign is always written. -/
def numberLayout : Decimal.Layout := ⟨some (-5), some 15, true, true, .even⟩

/-- The form of a character in a string. -/
def escape (c : Char) : List Char :=
  if c = '\"' then ['\\', '\"']
  else if c = '\\' then ['\\', '\\']
  else if c = '\x08' then ['\\', 'b']
  else if c = '\t' then ['\\', 't']
  else if c = '\n' then ['\\', 'n']
  else if c = '\x0c' then ['\\', 'f']
  else if c = '\r' then ['\\', 'r']
  else if c < ' ' then
    ['\\', 'u', '0', '0', Nat.digitChar (c.toNat / 16), Nat.digitChar (c.toNat % 16)]
  else [c]

/-- A string between quotes. -/
def writeString (s : String) (rest : List Char) : List Char :=
  '\"' :: (s.toList.flatMap escape ++ '\"' :: rest)

namespace Style

/-- The break before an item, inside the given number of arrays and objects. -/
def newline (depth : Nat) : Style → List Char → List Char
  | compact, rest => rest
  | indented, rest => '\n' :: (List.replicate (2 * depth) ' ' ++ rest)

/-- What stands between the name and the value of a member. -/
def colon : Style → List Char → List Char
  | compact, rest => ':' :: rest
  | indented, rest => ':' :: ' ' :: rest

end Style

mutual

/-- The text of a value inside the given number of arrays and objects. -/
def write (style : Style) (depth : Nat) : Json → List Char → List Char
  | null, rest => 'n' :: 'u' :: 'l' :: 'l' :: rest
  | boolean true, rest => 't' :: 'r' :: 'u' :: 'e' :: rest
  | boolean false, rest => 'f' :: 'a' :: 'l' :: 's' :: 'e' :: rest
  | integer n, rest => Integer.numeralChars n ++ rest
  | float x, rest => x.write numberLayout ++ rest
  | string s, rest => writeString s rest
  | array [], rest => '[' :: ']' :: rest
  | array (v :: vs), rest =>
    '[' :: style.newline (depth + 1) (v.write style (depth + 1) (writeItems style depth vs rest))
  | object [], rest => '\x7b' :: '\x7d' :: rest
  | object ((name, v) :: members), rest =>
    '\x7b' :: style.newline (depth + 1) (writeString name (style.colon
      (v.write style (depth + 1) (writeMembers style depth members rest))))

/-- The text of an array from behind its first item. -/
def writeItems (style : Style) (depth : Nat) : List Json → List Char → List Char
  | [], rest => style.newline depth (']' :: rest)
  | v :: vs, rest =>
    ',' :: style.newline (depth + 1) (v.write style (depth + 1) (writeItems style depth vs rest))

/-- The text of an object from behind its first member. -/
def writeMembers (style : Style) (depth : Nat) : List (String × Json) → List Char → List Char
  | [], rest => style.newline depth ('\x7d' :: rest)
  | (name, v) :: members, rest =>
    ',' :: style.newline (depth + 1) (writeString name (style.colon
      (v.write style (depth + 1) (writeMembers style depth members rest))))

end

/-- The text of a value. -/
def text (style : Style) (v : Json) : String := String.ofList (v.write style 0 [])

end RecordFilter.Json
