import RecordFilter.Condition.Basic
import RecordFilter.Decimal.Layout
import RecordFilter.Text.Boolean
import RecordFilter.Text.Quoted

/-!
# The text of a condition

A condition is written as an expression over a record `x`.  Each step of a chain has its own
parentheses, because connectives have no precedence: `((a || b) && c)`.  A chain is thereby closed
on both sides, and its group adds nothing; a group of anything else adds one pair.
-/

namespace RecordFilter

/-- Numbers in expressions have a fraction, or an exponent when very large or very small. -/
def literalLayout : Decimal.Layout := ⟨some (-4), some 15, true, false, .up⟩

/-- Constants that can be written in an expression. -/
class Literal (α : Type) where
  /-- The form of a constant. -/
  literal : α → String

instance : Literal Bool := ⟨Text.ofBool⟩

instance : Literal Int64 := ⟨fun i => Integer.numeral i.toInt⟩

instance : Literal Binary64 := ⟨Binary64.text literalLayout⟩

instance : Literal String := ⟨Text.quote⟩

instance : Literal Date := ⟨fun d => "'" ++ d.text ++ "'"⟩

/-- The expression of a constraint on a field. -/
def Constraint.text {α : Type} [Literal α] (field : String) : Constraint α → String
  | equals constant => "x." ++ field ++ " == " ++ Literal.literal constant
  | atLeast bound => "x." ++ field ++ " >= " ++ Literal.literal bound
  | atMost bound => "x." ++ field ++ " <= " ++ Literal.literal bound
  | oneOf constants =>
    "x." ++ field ++ " in [" ++ String.intercalate ", " (constants.map Literal.literal) ++ "]"

variable {ρ : Type}

/-- The expression of a test of a field. -/
def Test.text (field : String) : Test ρ → String
  | boolean _ constraint => constraint.text field
  | integer _ constraint => constraint.text field
  | float _ constraint => constraint.text field
  | string _ constraint => constraint.text field
  | date _ constraint => constraint.text field
  | contains _ needle => "x." ++ field ++ ".Contains(" ++ Text.quote needle ++ ")"

/-- The expression of a leaf. -/
def Leaf.text (leaf : Leaf ρ) : String := leaf.test.text leaf.field

namespace Condition

/-- An opening parenthesis for each step of a chain. -/
def opening (steps : Nat) : String := String.ofList (List.replicate steps '(')

mutual

/-- The expression of a condition. -/
def text : Condition ρ → String
  | always => "true"
  | leaf l => l.text
  | chain first rest => chainText (opening rest.length ++ first.text) rest
  | grouped inner => if inner.isChain then inner.text else "(" ++ inner.text ++ ")"

/-- The expression of a chain: that of the siblings so far, and a closed step for each that
follows. -/
def chainText (soFar : String) : List (Connective × Condition ρ) → String
  | [] => soFar
  | (connective, next) :: rest =>
    chainText (soFar ++ " " ++ connective.symbol ++ " " ++ next.text ++ ")") rest

end

end Condition

end RecordFilter
