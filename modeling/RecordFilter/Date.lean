import RecordFilter.Integer
import RecordFilter.Text.Blank

/-!
# Calendar dates

Dates of the Gregorian calendar, extended to all years from -262143 to 262142.  Their order is that
of year, month and day.

* `text`: the date with dashes; a year from 0 to 9999 has four digits, any other a sign and at least
  four.
* `ofText?`: the date of a text, which may be looser than `text`: months and days of one digit,
  blanks before each number, and any number of digits in a year with a sign.
-/

namespace RecordFilter

namespace Date

/-- The year has a twenty-ninth of February. -/
def isLeapYear (year : Int) : Bool :=
  year % 4 == 0 && (year % 100 != 0 || year % 400 == 0)

/-- The number of days of a month; an impossible month has none. -/
def daysIn (year : Int) (month : Nat) : Nat :=
  match month with
  | 1 | 3 | 5 | 7 | 8 | 10 | 12 => 31
  | 4 | 6 | 9 | 11 => 30
  | 2 => if isLeapYear year then 29 else 28
  | _ => 0

/-- Year, month and day name a day of the calendar within its years. -/
def IsValid (year : Int) (month day : Nat) : Prop :=
  -262143 ≤ year ∧ year ≤ 262142 ∧ 1 ≤ day ∧ day ≤ daysIn year month

instance (year : Int) (month day : Nat) : Decidable (IsValid year month day) :=
  inferInstanceAs (Decidable (_ ∧ _))

end Date

/-- A day of the calendar. -/
structure Date where
  year : Int
  month : Nat
  day : Nat
  isValid : Date.IsValid year month day
  deriving DecidableEq

namespace Date

/-- The first of January 1970. -/
def epoch : Date := ⟨1970, 1, 1, by decide⟩

instance : Inhabited Date := ⟨epoch⟩

/-- The date with the given year, month and day, if there is one. -/
def of? (year : Int) (month day : Nat) : Option Date :=
  if h : IsValid year month day then some ⟨year, month, day, h⟩ else none

@[simp] theorem of?_self (d : Date) : of? d.year d.month d.day = some d := by
  simp [of?, d.isValid]

/-- The first date is not after the second. -/
def atMost (a b : Date) : Bool :=
  a.year < b.year || (a.year == b.year &&
    (a.month < b.month || (a.month == b.month && a.day ≤ b.day)))

/-! ## Text -/

/-- A natural number with zeros before it up to the given width. -/
def padded (width n : Nat) : List Char :=
  let ds := Integer.digits n
  List.replicate (width - ds.length) '0' ++ ds

/-- The text of a year. -/
def yearChars (year : Int) : List Char :=
  if 0 ≤ year ∧ year ≤ 9999 then padded 4 year.natAbs
  else (if year < 0 then '-' else '+') :: padded 4 year.natAbs

/-- The text of a date, as characters. -/
def chars (d : Date) : List Char :=
  yearChars d.year ++ '-' :: (padded 2 d.month ++ '-' :: padded 2 d.day)

/-- The text of a date. -/
def text (d : Date) : String := String.ofList d.chars

/-- Splits a text after its leading digits, of which at most `width` are taken; none will not do. -/
def digitsUpTo? (width : Nat) (cs : List Char) : Option (Nat × List Char) :=
  let ds := (cs.take width).takeWhile Char.isDigit
  if ds = [] then none else some (Integer.ofDigits ds, cs.drop ds.length)

/-- The year at the front of a text, after blanks. -/
def year? (cs : List Char) : Option (Int × List Char) :=
  match Text.trimLeft cs with
  | '-' :: rest => (digitsUpTo? rest.length rest).map fun (n, rest) => (-(n : Int), rest)
  | '+' :: rest => (digitsUpTo? rest.length rest).map fun (n, rest) => ((n : Int), rest)
  | rest => (digitsUpTo? 4 rest).map fun (n, rest) => ((n : Int), rest)

/-- A dash and the number of at most two digits behind it, after blanks. -/
def dashed? : List Char → Option (Nat × List Char)
  | '-' :: rest => digitsUpTo? 2 (Text.trimLeft rest)
  | _ => none

/-- The date of a text that has nothing else in it. -/
def ofText? (cs : List Char) : Option Date := do
  let (year, rest) ← year? cs
  let (month, rest) ← dashed? rest
  let (day, rest) ← dashed? rest
  if rest = [] then of? year month day else none

end Date

end RecordFilter
