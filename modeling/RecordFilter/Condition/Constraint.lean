import RecordFilter.Binary64.Basic
import RecordFilter.Date

/-!
# Constraints on a field

A constraint holds of the value of a field when that value is equal to a constant, is within a
bound, or is one of several constants.  The values of each field type are compared in their own way:
numbers by their place on the line, so that the value that is not a number meets no constraint, and
strings by the code points of their characters.
-/

namespace RecordFilter

/-- The comparisons that constraints are made of. -/
class Comparable (α : Type) where
  /-- The two values are equal. -/
  same : α → α → Bool
  /-- The first value is within the upper bound given by the second. -/
  atMost : α → α → Bool

instance : Comparable Bool := ⟨fun a b => a == b, fun a b => !a || b⟩

instance : Comparable Int64 := ⟨fun a b => a == b, fun a b => a ≤ b⟩

instance : Comparable Binary64 := ⟨Binary64.same, Binary64.atMost⟩

instance : Comparable String := ⟨fun a b => a == b, fun a b => !(b < a)⟩

instance : Comparable Date := ⟨fun a b => a = b, Date.atMost⟩

/-- What is asked of the value of a field. -/
inductive Constraint (α : Type) where
  | equals (constant : α)
  | atLeast (bound : α)
  | atMost (bound : α)
  | oneOf (constants : List α)
  deriving DecidableEq

/-- The constraint holds of a value. -/
def Constraint.holds {α : Type} [Comparable α] : Constraint α → α → Bool
  | equals constant, a => Comparable.same a constant
  | atLeast bound, a => Comparable.atMost bound a
  | atMost bound, a => Comparable.atMost a bound
  | oneOf constants, a => constants.any (Comparable.same a)

end RecordFilter
