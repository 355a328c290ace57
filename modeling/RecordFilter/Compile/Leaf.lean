import RecordFilter.Compile.Error
import RecordFilter.Condition.Basic
import RecordFilter.Criterion.Basic
import RecordFilter.Schema
import RecordFilter.Settings
import RecordFilter.Value.Coercion

/-!
# Compiling one comparison

The property of a criterion is looked up, and its value is coerced to the type of the field found.
What can be wrong is found in this order: the field is unknown, the value is missing, the comparison
does not suit the type, membership is asked in something other than a list, and a value, or the
first such element of a list, stands for none of the type.  From the second on, the field is called
by its declared name.
-/

namespace RecordFilter.Compile

/-- The constant of a field's type that a value stands for. -/
def constant {α : Type} (field : String) (type : FieldType) (coerce : Value → Option α)
    (v : Value) : Except CompileError α :=
  match coerce v with
  | some a => .ok a
  | none => .error (.invalidValue field v type)

/-- The constants that the values of a list stand for. -/
def constants {α : Type} (field : String) (type : FieldType) (coerce : Value → Option α) :
    List Value → Except CompileError (List α)
  | [] => .ok []
  | v :: vs => do
    let a ← constant field type coerce v
    let as ← constants field type coerce vs
    return a :: as

/-- The constraint that a comparison with a value puts on a field of the given type. -/
def constraint {α : Type} (field : String) (type : FieldType) (coerce : Value → Option α)
    (comparison : Comparison) (v : Value) : Except CompileError (Constraint α) :=
  match comparison with
  | .equals => .equals <$> constant field type coerce v
  | .atLeast =>
    if type.isOrdered then .atLeast <$> constant field type coerce v
    else .error (.unsupported comparison field type)
  | .atMost =>
    if type.isOrdered then .atMost <$> constant field type coerce v
    else .error (.unsupported comparison field type)
  | .oneOf =>
    match v.items? with
    | some items => .oneOf <$> constants field type coerce items
    | none => .error (.invalidMembership field v)
  | .contains => .error (.unsupported comparison field type)

variable {ρ : Type}

/-- The test that a comparison with a value makes of a field. -/
def test (field : Field ρ) (comparison : Comparison) (v : Value) :
    Except CompileError (Test ρ) :=
  match comparison, field.accessor with
  | .contains, .string get => .contains get <$> constant field.name .string Value.toText? v
  | _, .boolean get =>
    .boolean get <$> constraint field.name .boolean Value.toBoolean? comparison v
  | _, .integer get =>
    .integer get <$> constraint field.name .integer Value.toInteger? comparison v
  | _, .float get => .float get <$> constraint field.name .float Value.toFloat? comparison v
  | _, .string get => .string get <$> constraint field.name .string Value.toText? comparison v
  | _, .date get => .date get <$> constraint field.name .date Value.toDate? comparison v

/-- The leaf of a criterion that names a property. -/
def leaf (schema : Schema ρ) (settings : Settings) (c : Criterion) :
    Except CompileError (Leaf ρ) :=
  match schema.resolve c.property settings.ignoresCase with
  | none => .error (.unknownField c.property)
  | some field =>
    match c.value with
    | none => .error (.missingValue field.name c.comparison)
    | some v => .mk field.name <$> test field c.comparison v

end RecordFilter.Compile
