import RecordFilter.Text.Combining
import RecordFilter.Text.Printable

/-!
# Quoted text

A text shown between double quotes.  The quote and the backslash are escaped, the common control
characters have a short form, and every other character that could not be shown as it is becomes
`\u{…}` with its code point in hexadecimal.  So the quoted form is one line of printable characters
that determines the text.
-/

namespace RecordFilter.Text

/-- The form of one character between quotes. -/
def escape (c : Char) : List Char :=
  if c = '\x00' then ['\\', '0']
  else if c = '\t' then ['\\', 't']
  else if c = '\n' then ['\\', 'n']
  else if c = '\r' then ['\\', 'r']
  else if c = '\"' then ['\\', '\"']
  else if c = '\\' then ['\\', '\\']
  else if ' ' ≤ c ∧ c ≤ '~' then [c]
  else if isCombining c || !isPrintable c then
    '\\' :: 'u' :: '\x7b' :: (Nat.toDigits 16 c.toNat ++ ['\x7d'])
  else [c]

/-- The forms of all characters of a text, without the quotes around them. -/
def escapeAll (s : String) : String := String.ofList (s.toList.flatMap escape)

/-- A text between double quotes. -/
def quote (s : String) : String := "\"" ++ escapeAll s ++ "\""

end RecordFilter.Text
