/-!
# Integers of fixed width and decimal numerals

The integers of records and filters have 64 bits; counts are natural numbers below `2 ^ 64`.  A
value that does not fit is refused and never wrapped: `toInt64?_eq_some_iff` and
`toInt32?_eq_some_iff` say that narrowing gives exactly the integer it was given.

A numeral in a text is an optional sign and at least one ASCII digit (`ofNumeral?`); written,
an integer has a sign only when it is negative and no leading zeros (`numeral`).
-/

namespace RecordFilter.Integer

/-- The 64-bit integer of the given value, if there is one. -/
def toInt64? (n : Int) : Option Int64 :=
  if h : Int64.minValue.toInt ≤ n ∧ n ≤ Int64.maxValue.toInt then
    some (Int64.ofIntLE n h.1 h.2)
  else none

theorem toInt64?_eq_some_iff {n : Int} {i : Int64} : toInt64? n = some i ↔ i.toInt = n := by
  unfold toInt64?
  split
  · rename_i h
    rw [Option.some_inj]
    constructor
    · rintro rfl
      exact Int64.toInt_ofIntLE
    · rintro rfl
      exact Int64.toInt_inj.1 Int64.toInt_ofIntLE
  · rename_i h
    refine ⟨fun h' => (by cases h'), fun h' => absurd ?_ h⟩
    subst h'
    exact ⟨Int64.minValue_le_toInt i, Int64.toInt_le i⟩

@[simp] theorem toInt64?_toInt (i : Int64) : toInt64? i.toInt = some i :=
  toInt64?_eq_some_iff.2 rfl

/-- The 32-bit integer of the given value, if there is one. -/
def toInt32? (n : Int) : Option Int32 :=
  if h : Int32.minValue.toInt ≤ n ∧ n ≤ Int32.maxValue.toInt then
    some (Int32.ofIntLE n h.1 h.2)
  else none

theorem toInt32?_eq_some_iff {n : Int} {i : Int32} : toInt32? n = some i ↔ i.toInt = n := by
  unfold toInt32?
  split
  · rename_i h
    rw [Option.some_inj]
    constructor
    · rintro rfl
      exact Int32.toInt_ofIntLE
    · rintro rfl
      exact Int32.toInt_inj.1 Int32.toInt_ofIntLE
  · rename_i h
    refine ⟨fun h' => (by cases h'), fun h' => absurd ?_ h⟩
    subst h'
    exact ⟨Int32.minValue_le_toInt i, Int32.toInt_le i⟩

@[simp] theorem toInt32?_toInt (i : Int32) : toInt32? i.toInt = some i :=
  toInt32?_eq_some_iff.2 rfl

/-- The count of the given value, if it is one: not negative and below `2 ^ 64`. -/
def toCount? (n : Int) : Option Nat :=
  if 0 ≤ n ∧ n < UInt64.size then some n.toNat else none

/-! ## Numerals -/

/-- The decimal digits of a natural number, the leading one first. -/
def digits (n : Nat) : List Char := Nat.toDigits 10 n

/-- The natural number that a list of digits denotes. -/
def ofDigits (cs : List Char) : Nat := Nat.ofDigitChars 10 cs 0

@[simp] theorem ofDigits_digits (n : Nat) : ofDigits (digits n) = n :=
  Nat.ofDigitChars_toDigits (by decide) (by decide)

/-- The numeral of an integer, as characters. -/
def numeralChars (n : Int) : List Char :=
  if n < 0 then '-' :: digits n.natAbs else digits n.natAbs

/-- The numeral of an integer. -/
def numeral (n : Int) : String := String.ofList (numeralChars n)

/-- The natural number that a numeral without a sign denotes: digits, and at least one. -/
def ofUnsigned? (cs : List Char) : Option Nat :=
  if cs ≠ [] ∧ cs.all Char.isDigit then some (ofDigits cs) else none

/-- The integer that a numeral denotes. -/
def ofNumeral? : List Char → Option Int
  | '+' :: cs => (ofUnsigned? cs).map Int.ofNat
  | '-' :: cs => (ofUnsigned? cs).map fun n => -(Int.ofNat n)
  | cs => (ofUnsigned? cs).map Int.ofNat

/-- The count that a numeral without a minus sign denotes. -/
def countOfNumeral? : List Char → Option Nat
  | '+' :: cs => (ofUnsigned? cs).bind fun n => toCount? (Int.ofNat n)
  | cs => (ofUnsigned? cs).bind fun n => toCount? (Int.ofNat n)

end RecordFilter.Integer
