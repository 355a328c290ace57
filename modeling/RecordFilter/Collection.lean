import RecordFilter.Predicate

/-!
# Sources of records

A source holds records and can be narrowed by a predicate.  A collection is the source that holds
its records in memory, in the order in which they were put in, as often as they were put in.
-/

namespace RecordFilter

/-- Types that hold records of the type `ρ`. -/
class Source (σ : Type) (ρ : outParam Type) where
  /-- The records that a predicate accepts. -/
  matching : σ → Predicate ρ → Array ρ
  /-- The number of records that a predicate accepts. -/
  count : σ → Predicate ρ → Nat

/-- The number of accepted records of any source, found by listing them. -/
def Source.countByListing {σ ρ : Type} [Source σ ρ] (s : σ) (p : Predicate ρ) : Nat :=
  (matching s p).size

/-- Records held in memory. -/
structure Collection (ρ : Type) where
  /-- The records in the order in which they were put in. -/
  records : Array ρ

namespace Collection

variable {ρ : Type}

/-- The collection without records. -/
def empty : Collection ρ := ⟨#[]⟩

instance : Inhabited (Collection ρ) := ⟨empty⟩

/-- The collection of the given records. -/
def ofList (records : List ρ) : Collection ρ := ⟨records.toArray⟩

/-- The collection with one more record behind the others. -/
def insert (c : Collection ρ) (record : ρ) : Collection ρ := ⟨c.records.push record⟩

/-- The collection with more records behind the others. -/
def extend (c : Collection ρ) (records : List ρ) : Collection ρ := ⟨c.records.appendList records⟩

/-- The number of records. -/
def size (c : Collection ρ) : Nat := c.records.size

/-- There are no records. -/
def isEmpty (c : Collection ρ) : Bool := c.records.isEmpty

/-- The records that a predicate accepts, in order. -/
def matching (c : Collection ρ) (p : Predicate ρ) : Array ρ := c.records.filter p.accepts

/-- The number of records that a predicate accepts, counted in place. -/
def count (c : Collection ρ) (p : Predicate ρ) : Nat := c.records.countP p.accepts

instance : Source (Collection ρ) ρ := ⟨matching, count⟩

end Collection

end RecordFilter
