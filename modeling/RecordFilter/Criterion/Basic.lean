import RecordFilter.Criterion.Comparison
import RecordFilter.Value.Basic

/-!
# Criteria

A filter is a list of criteria.  A criterion compares a property of a record with a value, or holds
further criteria as its children, which makes it a group.  Nothing is checked here: a criterion may
name a property no record has, or neither name a property nor hold children.

The result of a list is taken from left to right.  The connective of a criterion joins it to the
result of the siblings before it, so that of the first one joins nothing.
-/

namespace RecordFilter

/-- A comparison of a property with a value, or a group of criteria.

A criterion with children is a group, and its property, comparison and value mean nothing. -/
structure Criterion where
  /-- The name of the property, as it was written; empty when it was not. -/
  property : String := ""
  /-- How the property is compared with the value. -/
  comparison : Comparison := .equals
  /-- The value the property is compared with. -/
  value : Option Value := none
  /-- How the criterion joins the siblings before it. -/
  connective : Connective := .and
  /-- The members of a group; a list without members makes no group. -/
  children : Option (List Criterion) := none

namespace Criterion

instance : Inhabited Criterion := ⟨{}⟩

/-- The criterion that compares a property with a value. -/
def leaf (property : String) (comparison : Comparison) (value : Value) : Criterion :=
  { property, comparison, value := some value }

/-- The group of the given criteria. -/
def group (children : List Criterion) : Criterion := { children := some children }

/-- The criterion with another connective. -/
def joinedBy (c : Criterion) (connective : Connective) : Criterion := { c with connective }

/-- The members of a group. -/
def members? (c : Criterion) : Option (List Criterion) :=
  match c.children with
  | some (d :: ds) => some (d :: ds)
  | _ => none

/-- The criterion is a group. -/
def isGroup (c : Criterion) : Bool := c.members?.isSome

/-- The criterion is no group and names a property. -/
def isLeaf (c : Criterion) : Bool := !c.isGroup && c.property != ""

/-! ## Equality -/

mutual

/-- The two criteria are equal. -/
def isSame : Criterion → Criterion → Bool
  | ⟨p, k, v, j, cs⟩, ⟨p', k', v', j', cs'⟩ =>
    p == p' && k == k' && v == v' && j == j' && areSame? cs cs'

/-- The two possible lists of criteria are equal. -/
def areSame? : Option (List Criterion) → Option (List Criterion) → Bool
  | none, none => true
  | some cs, some ds => areSame cs ds
  | _, _ => false

/-- The two lists of criteria are equal. -/
def areSame : List Criterion → List Criterion → Bool
  | [], [] => true
  | c :: cs, d :: ds => c.isSame d && areSame cs ds
  | _, _ => false

end

mutual

theorem isSame_iff : ∀ {c d : Criterion}, c.isSame d = true ↔ c = d
  | ⟨_, _, _, _, _⟩, ⟨_, _, _, _, _⟩ => by simp [isSame, areSame?_iff, and_assoc]

theorem areSame?_iff : ∀ {cs ds : Option (List Criterion)}, areSame? cs ds = true ↔ cs = ds
  | none, ds => by cases ds <;> simp [areSame?]
  | some _, none => by simp [areSame?]
  | some _, some _ => by simp [areSame?, areSame_iff]

theorem areSame_iff : ∀ {cs ds : List Criterion}, areSame cs ds = true ↔ cs = ds
  | [], ds => by cases ds <;> simp [areSame]
  | _ :: _, [] => by simp [areSame]
  | _ :: _, _ :: _ => by simp [areSame, isSame_iff, areSame_iff]

end

instance : DecidableEq Criterion := fun _ _ => decidable_of_iff _ isSame_iff

end Criterion

end RecordFilter
