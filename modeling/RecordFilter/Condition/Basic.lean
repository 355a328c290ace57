import RecordFilter.Condition.Constraint
import RecordFilter.Criterion.Comparison
import RecordFilter.Text.Search

/-!
# Conditions on a record

A condition is a filter made ready: every property has become the accessor of a field and every
value a constant of that field's type, so nothing can go wrong when a record is tested.

Two or more siblings are one flat chain, taken from left to right without precedence: the chain of
`a`, `b` joined by *or* and `c` joined by *and* is `(a or b) and c`.  Only groups nest, so the depth
of a condition is that of the groups of the filter, however many siblings there are.
-/

namespace RecordFilter

/-- What is asked of one field of a record. -/
inductive Test (ρ : Type) where
  | boolean (get : ρ → Bool) (constraint : Constraint Bool)
  | integer (get : ρ → Int64) (constraint : Constraint Int64)
  | float (get : ρ → Binary64) (constraint : Constraint Binary64)
  | string (get : ρ → String) (constraint : Constraint String)
  | date (get : ρ → Date) (constraint : Constraint Date)
  /-- The string in the field has the needle in it. -/
  | contains (get : ρ → String) (needle : String)

/-- A test together with the declared name of its field. -/
structure Leaf (ρ : Type) where
  field : String
  test : Test ρ

/-- A condition on records of the type `ρ`. -/
inductive Condition (ρ : Type) where
  /-- The condition that every record meets. -/
  | always
  | leaf (leaf : Leaf ρ)
  /-- Siblings, each but the first joined to the result of those before it. -/
  | chain (first : Condition ρ) (rest : List (Connective × Condition ρ))
  | grouped (inner : Condition ρ)

variable {ρ : Type}

/-- The test succeeds on a record. -/
def Test.holds (record : ρ) : Test ρ → Bool
  | boolean get constraint => constraint.holds (get record)
  | integer get constraint => constraint.holds (get record)
  | float get constraint => constraint.holds (get record)
  | string get constraint => constraint.holds (get record)
  | date get constraint => constraint.holds (get record)
  | contains get needle => Text.contains (get record) needle

/-- The test of a leaf succeeds on a record. -/
def Leaf.holds (record : ρ) (leaf : Leaf ρ) : Bool := leaf.test.holds record

namespace Condition

instance : Inhabited (Condition ρ) := ⟨always⟩

mutual

/-- A record meets the condition. -/
def holds (record : ρ) : Condition ρ → Bool
  | always => true
  | leaf l => l.holds record
  | chain first rest => joinRest record (first.holds record) rest
  | grouped inner => inner.holds record

/-- The result of the siblings so far, joined from left to right with those that follow. -/
def joinRest (record : ρ) (soFar : Bool) : List (Connective × Condition ρ) → Bool
  | [] => soFar
  | (connective, next) :: rest =>
    joinRest record (connective.join soFar (next.holds record)) rest

end

@[simp] theorem holds_always (record : ρ) : always.holds record = true := rfl

@[simp] theorem holds_leaf (record : ρ) (l : Leaf ρ) : (leaf l).holds record = l.holds record := rfl

@[simp] theorem holds_grouped (record : ρ) (inner : Condition ρ) :
    (grouped inner).holds record = inner.holds record := rfl

/-- The rest of a chain is joined by a left fold. -/
theorem joinRest_eq_foldl (record : ρ) (soFar : Bool) (rest : List (Connective × Condition ρ)) :
    joinRest record soFar rest =
      rest.foldl (fun b next => next.1.join b (next.2.holds record)) soFar := by
  induction rest generalizing soFar with
  | nil => rfl
  | cons next rest ih =>
    rw [joinRest, ih, List.foldl_cons]

theorem holds_chain (record : ρ) (first : Condition ρ) (rest : List (Connective × Condition ρ)) :
    (chain first rest).holds record =
      rest.foldl (fun b next => next.1.join b (next.2.holds record)) (first.holds record) :=
  joinRest_eq_foldl record _ rest

/-- The condition of a list of siblings: none ask for nothing, one stands for itself, and more are a
chain, in which the connective of the first is dropped. -/
def ofSiblings : List (Connective × Condition ρ) → Condition ρ
  | [] => always
  | [(_, only)] => only
  | (_, first) :: rest => chain first rest

/-- The condition is the one that asks for nothing. -/
def isAlways : Condition ρ → Bool
  | always => true
  | _ => false

/-- The condition is a chain of siblings. -/
def isChain : Condition ρ → Bool
  | chain _ _ => true
  | _ => false

end Condition

end RecordFilter
