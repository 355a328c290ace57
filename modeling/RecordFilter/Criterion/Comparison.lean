/-!
# Comparisons and connectives

A criterion compares a field with a value in one of five ways, and joins the siblings before it with
one of two connectives.  Both are named in filters; a bound has a second spelling, which is read but
never written.
-/

namespace RecordFilter

/-- How a field is compared with a value. -/
inductive Comparison where
  | equals
  | atLeast
  | atMost
  | contains
  | oneOf
  deriving DecidableEq

namespace Comparison

/-- All comparisons, in the order in which they are listed. -/
def all : List Comparison := [equals, atLeast, atMost, contains, oneOf]

/-- The name of a comparison. -/
def name : Comparison → String
  | equals => "Equals"
  | atLeast => "GreaterOrEqual"
  | atMost => "LessOrEqual"
  | contains => "Contains"
  | oneOf => "In"

/-- The other spellings of a comparison. -/
def aliases : Comparison → List String
  | atLeast => ["GreaterThanOrEqual"]
  | atMost => ["LessThanOrEqual"]
  | _ => []

end Comparison

/-- How a criterion joins the result of the siblings before it. -/
inductive Connective where
  | and
  | or
  deriving DecidableEq

namespace Connective

/-- All connectives, in the order in which they are listed. -/
def all : List Connective := [and, or]

/-- The name of a connective. -/
def name : Connective → String
  | and => "And"
  | or => "Or"

/-- The symbol of a connective in expressions. -/
def symbol : Connective → String
  | and => "&&"
  | or => "||"

/-- The truth value of two joined truth values. -/
def join : Connective → Bool → Bool → Bool
  | and, a, b => a && b
  | or, a, b => a || b

end Connective

end RecordFilter
