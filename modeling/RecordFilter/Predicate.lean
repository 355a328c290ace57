import RecordFilter.Condition.Text

/-!
# Predicates

A predicate is the outcome of compiling a filter: a condition that is tested on one record at a
time.
-/

namespace RecordFilter

/-- A filter made ready for records of the type `ρ`. -/
structure Predicate (ρ : Type) where
  /-- The condition that a record has to meet. -/
  root : Condition ρ

namespace Predicate

variable {ρ : Type}

/-- The predicate that accepts every record. -/
def always : Predicate ρ := ⟨.always⟩

instance : Inhabited (Predicate ρ) := ⟨always⟩

/-- The predicate accepts a record. -/
def accepts (p : Predicate ρ) (record : ρ) : Bool := p.root.holds record

/-- The predicate asks for nothing. -/
def isAlways (p : Predicate ρ) : Bool := p.root.isAlways

/-- The predicate as a function of a record `x`. -/
def text (p : Predicate ρ) : String := "x => " ++ p.root.text

/-- The predicate as a term. -/
def termText (p : Predicate ρ) : String := "Predicate(" ++ p.root.text ++ ")"

end Predicate

end RecordFilter
