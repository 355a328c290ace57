import RecordFilter.Criterion.Comparison
import RecordFilter.Text.Quoted
import RecordFilter.Value.Basic

/-!
# Reasons why a filter does not compile

Each reason carries what its message needs.  A criterion is named by its path: the places at which
to descend from the outermost list through the children, `[1].children[0]` in text.
-/

namespace RecordFilter

/-- The places at which to descend from the outermost list to a criterion. -/
abbrev Path := List Nat

namespace Path

/-- One place of a path. -/
def stepText (i : Nat) : String := "[" ++ Integer.numeral i ++ "]"

/-- The text of a path. -/
def text (path : Path) : String := String.intercalate ".children" (path.map stepText)

end Path

/-- A reason why a filter does not compile. -/
inductive CompileError where
  /-- The criterion at the path neither names a property nor is a group. -/
  | illFormed (path : Path)
  /-- No field answers to the property. -/
  | unknownField (property : String)
  /-- Fields of the type cannot be compared in this way. -/
  | unsupported (comparison : Comparison) (field : String) (type : FieldType)
  /-- The value stands for none of the field's type. -/
  | invalidValue (field : String) (value : Value) (target : FieldType)
  /-- Membership is asked in a value that is not a list. -/
  | invalidMembership (field : String) (value : Value)
  /-- There is no value to compare the field with. -/
  | missingValue (field : String) (comparison : Comparison)
  /-- A group is nested deeper than the limit. -/
  | tooDeep (limit : Nat)
  deriving DecidableEq

namespace CompileError

/-- The message of an error. -/
def message : CompileError → String
  | illFormed path =>
    "Ill-formed filter node at " ++ path.text ++ ": expected a property name or nested filters"
  | unknownField property => "Unknown field: " ++ property
  | unsupported comparison field type =>
    "Operator " ++ comparison.name ++ " not supported for field '" ++ field ++ "' of type " ++
      type.name
  | invalidValue field value target =>
    "Invalid value " ++ value.text ++ " for field '" ++ field ++ "': cannot convert to " ++
      target.name
  | invalidMembership field value =>
    "Value for 'In' on field '" ++ field ++ "' must be a list, got " ++ value.text
  | missingValue field comparison =>
    "Missing value for operator " ++ comparison.name ++ " on field '" ++ field ++ "'"
  | tooDeep limit =>
    "Filter nesting exceeds the maximum depth of " ++ Integer.numeral limit

/-- The name of the kind of an error. -/
def kind : CompileError → String
  | illFormed _ => "IllFormedNode"
  | unknownField _ => "UnknownField"
  | unsupported _ _ _ => "UnsupportedOperator"
  | invalidValue _ _ _ => "InvalidValue"
  | invalidMembership _ _ => "InvalidMembershipValue"
  | missingValue _ _ => "MissingValue"
  | tooDeep _ => "DepthLimitExceeded"

/-- A term of the given kind with named parts. -/
def record (kind : String) (parts : List (String × String)) : String :=
  let part (name value : String) := name ++ ": " ++ value
  kind ++ " \x7b " ++ String.intercalate ", " (parts.map fun p => part p.1 p.2) ++ " \x7d"

/-- An error as a term: its kind and its parts, texts being quoted. -/
def termText (e : CompileError) : String :=
  match e with
  | illFormed path => record e.kind [("path", Text.quote path.text)]
  | unknownField property => e.kind ++ "(" ++ Text.quote property ++ ")"
  | unsupported comparison field type =>
    record e.kind
      [("operator", comparison.name), ("field", Text.quote field), ("data_type", type.name)]
  | invalidValue field value target =>
    record e.kind
      [("field", Text.quote field), ("value", Text.quote value.text), ("target", target.name)]
  | invalidMembership field value =>
    record e.kind [("field", Text.quote field), ("value", Text.quote value.text)]
  | missingValue field comparison =>
    record e.kind [("field", Text.quote field), ("operator", comparison.name)]
  | tooDeep limit => record e.kind [("limit", Integer.numeral limit)]

end CompileError

end RecordFilter
