import RecordFilter.Binary64.Scale
import RecordFilter.Json.Error

/-!
# The numbers of JSON

A numeral without fraction and exponent is an integer if 64 bits hold it.  Any other is a number of
the binary format, and it is found in two steps.

* Leading digits are *kept* as long as they make a number below `2 ^ 64` (`keepDigits`).  A digit
  that no longer fits ends its part: the whole part counts the digits it leaves out, which move the
  decimal point, and the fraction drops them.  The fraction goes on from what the whole part made.
* The number that is kept is rounded to the format and then scaled by the power of ten that is left
  (`Binary64.Magnitude.scale?`).

With at most 15 digits and a power of ten of at most 22 either way, only the scaling rounds, and the
result is the number nearest to the numeral.  Otherwise it may be next to that one.
-/

namespace RecordFilter.Json

/-- Appends digits to a number as long as it stays below `2 ^ 64`, and gives the digits left out
beside it. -/
def keepDigits (n : Nat) : List Char → Nat × List Char
  | [] => (n, [])
  | c :: cs =>
    let longer := 10 * n + (c.toNat - '0'.toNat)
    if longer < UInt64.size then keepDigits longer cs else (n, c :: cs)

/-- A number that digits are appended to stays in 64 bits. -/
theorem keepDigits_lt {n : Nat} (h : n < UInt64.size) (cs : List Char) :
    (keepDigits n cs).1 < UInt64.size := by
  induction cs generalizing n with
  | nil => exact h
  | cons c cs ih =>
    rw [keepDigits]
    split
    · exact ih ‹_›
    · exact h

/-- Appending the digits that were left out gives what all digits make. -/
theorem ofDigitChars_keepDigits (n : Nat) (cs : List Char) :
    Nat.ofDigitChars 10 (keepDigits n cs).2 (keepDigits n cs).1 = Nat.ofDigitChars 10 cs n := by
  induction cs generalizing n with
  | nil => rfl
  | cons c cs ih =>
    rw [keepDigits]
    split
    · exact ih _
    · rfl

/-- The parts of a number in a text. -/
structure Numeral where
  negative : Bool
  whole : List Char
  fraction : Option (List Char)
  exponent : Option Int

namespace Numeral

/-- The number that the leading digits make, and the power of ten that it is scaled by. -/
def kept (n : Numeral) : Nat × Int :=
  let (units, wholeLeft) := keepDigits 0 n.whole
  let fraction := n.fraction.getD []
  let (significand, fractionLeft) := keepDigits units fraction
  let places := fraction.length - fractionLeft.length
  (significand, (wholeLeft.length : Int) - (places : Int) + n.exponent.getD 0)

/-- The number of the binary format that a numeral is read as; there is none for a numeral past the
largest. -/
def toFloat? (n : Numeral) : Option Binary64 := do
  let (significand, exponent) := n.kept
  let unscaled ← Binary64.Magnitude.ofNat? significand
  return .finite n.negative (← unscaled.scale? exponent)

/-- The integer that a numeral denotes, if it is written as one and has 64 bits.  Minus zero is
none, having a sign that an integer would lose. -/
def toInteger? (n : Numeral) : Option Int :=
  match n.fraction, n.exponent with
  | none, none =>
    let k := Integer.ofDigits n.whole
    if n.negative then
      if 0 < k ∧ Int64.minValue.toInt ≤ -(k : Int) then some (-(k : Int)) else none
    else if k < UInt64.size then some (k : Int) else none
  | _, _ => none

/-- The token of a numeral; there is none for a number too large for the format. -/
def token? (n : Numeral) : Option Token :=
  match n.toInteger? with
  | some k => some (.integer k)
  | none => n.toFloat?.map .float

end Numeral

end RecordFilter.Json
