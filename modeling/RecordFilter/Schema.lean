import Std.Data.HashMap
import RecordFilter.Date
import RecordFilter.Decimal.Layout
import RecordFilter.FieldType
import RecordFilter.Text.AsciiCase
import RecordFilter.Text.Quoted

/-!
# Schemas

A schema says which fields the records of a type have, and how each is read from a record.  Fields
stand in the order in which their names were first registered; registering a name again gives the
field another accessor and leaves it in its place.

Beside the fields, a schema holds an index of their names.  That the index agrees with the fields is
part of the type (`index_iff`), so names are distinct (`eq_of_name_eq`) and a search by name never
leads outside the fields.
-/

namespace RecordFilter

variable {ρ : Type}

/-- How a field is read from a record. -/
inductive Accessor (ρ : Type) where
  | boolean (get : ρ → Bool)
  | integer (get : ρ → Int64)
  | float (get : ρ → Binary64)
  | string (get : ρ → String)
  | date (get : ρ → Date)

namespace Accessor

/-- The type of the field. -/
def type : Accessor ρ → FieldType
  | boolean _ => .boolean
  | integer _ => .integer
  | float _ => .float
  | string _ => .string
  | date _ => .date

/-- The description of an accessor. -/
def text (a : Accessor ρ) : String := "Accessor(" ++ a.type.name ++ ")"

end Accessor

/-- A named field. -/
structure Field (ρ : Type) where
  name : String
  accessor : Accessor ρ

/-- The description of a field. -/
def Field.text (f : Field ρ) : String := f.name ++ ": " ++ f.accessor.type.name

/-- The fields of the records of a type. -/
structure Schema (ρ : Type) where
  /-- The fields in the order of their first registration. -/
  fields : Array (Field ρ)
  /-- The place of each field's name. -/
  index : Std.HashMap String Nat
  /-- The index leads from a name to the field of that name. -/
  index_iff : ∀ {name : String} {i : Nat},
    index[name]? = some i ↔ ∃ f, fields[i]? = some f ∧ f.name = name

namespace Schema

/-- The schema without fields. -/
def empty : Schema ρ := ⟨#[], ∅, by simp⟩

instance : Inhabited (Schema ρ) := ⟨empty⟩

/-- The place that the index gives lies within the fields. -/
theorem lt_size_of_index {schema : Schema ρ} {name : String} {i : Nat}
    (h : schema.index[name]? = some i) : i < schema.fields.size := by
  obtain ⟨f, hf, -⟩ := schema.index_iff.1 h
  exact (Array.getElem?_eq_some_iff.1 hf).1

/-- Two fields of one name are at the same place. -/
theorem eq_of_name_eq {schema : Schema ρ} {i j : Nat} {f g : Field ρ}
    (hf : schema.fields[i]? = some f) (hg : schema.fields[j]? = some g) (h : f.name = g.name) :
    i = j :=
  Option.some_inj.1 <|
    (schema.index_iff.2 ⟨f, hf, h⟩).symm.trans (schema.index_iff.2 ⟨g, hg, rfl⟩)

/-- Two names at one place are equal. -/
theorem name_eq_of_index {schema : Schema ρ} {m n : String} {i : Nat}
    (hm : schema.index[m]? = some i) (hn : schema.index[n]? = some i) : m = n := by
  obtain ⟨f, hf, rfl⟩ := schema.index_iff.1 hm
  obtain ⟨g, hg, rfl⟩ := schema.index_iff.1 hn
  rw [Option.some_inj.1 (hf.symm.trans hg)]

/-! ## Registration -/

/-- The schema with another accessor for the field at a place. -/
def replace (schema : Schema ρ) (i : Nat) (hi : i < schema.fields.size) (accessor : Accessor ρ) :
    Schema ρ where
  fields := schema.fields.set i { schema.fields[i] with accessor }
  index := schema.index
  index_iff := by
    intro name j
    rw [schema.index_iff, Array.getElem?_set]
    split
    · rename_i h
      subst h
      simp [Array.getElem?_eq_getElem hi]
    · rfl

/-- The schema with one more field behind the others. -/
def append (schema : Schema ρ) (name : String) (h : schema.index[name]? = none)
    (accessor : Accessor ρ) : Schema ρ where
  fields := schema.fields.push ⟨name, accessor⟩
  index := schema.index.insert name schema.fields.size
  index_iff := by
    intro name' i
    rw [Std.HashMap.getElem?_insert, Array.getElem?_push]
    split
    · rename_i hn
      obtain rfl := eq_of_beq hn
      constructor
      · intro hi
        obtain rfl := Option.some_inj.1 hi
        exact ⟨⟨name, accessor⟩, by simp, rfl⟩
      · rintro ⟨f, hf, hname⟩
        split at hf
        · rename_i hi
          rw [hi]
        · have := schema.index_iff.2 ⟨f, hf, hname⟩
          rw [h] at this
          cases this
    · rename_i hn
      rw [schema.index_iff]
      split
      · rename_i hi
        subst hi
        constructor
        · rintro ⟨f, hf, -⟩
          simp at hf
        · rintro ⟨f, hf, hname⟩
          obtain rfl := Option.some_inj.1 hf
          simp [← hname] at hn
      · rfl

/-- The schema in which a name has the given accessor. -/
def register (schema : Schema ρ) (name : String) (accessor : Accessor ρ) : Schema ρ :=
  match h : schema.index[name]? with
  | some i => schema.replace i (lt_size_of_index h) accessor
  | none => schema.append name h accessor

/-- The schema of the given names and accessors, registered in order. -/
def ofList (entries : List (String × Accessor ρ)) : Schema ρ :=
  entries.foldl (fun schema (name, accessor) => schema.register name accessor) empty

/-! ## Search -/

/-- The field of exactly the given name. -/
def find? (schema : Schema ρ) (name : String) : Option (Field ρ) :=
  schema.index[name]?.bind fun i => schema.fields[i]?

/-- A search by name finds the field of that name and no other. -/
theorem find?_eq_some_iff {schema : Schema ρ} {name : String} {f : Field ρ} :
    schema.find? name = some f ↔ f ∈ schema.fields ∧ f.name = name := by
  rw [Array.mem_iff_getElem?, find?, Option.bind_eq_some_iff]
  constructor
  · rintro ⟨i, h, hi⟩
    obtain ⟨g, hg, rfl⟩ := schema.index_iff.1 h
    obtain rfl := Option.some_inj.1 (hg.symm.trans hi)
    exact ⟨⟨i, hi⟩, rfl⟩
  · rintro ⟨⟨i, hi⟩, h⟩
    exact ⟨i, schema.index_iff.2 ⟨f, hi, h⟩, hi⟩

@[simp] theorem find?_empty (name : String) : (empty : Schema ρ).find? name = none := by
  simp [find?, empty]

/-- The last registration of a name decides its accessor, and no other name is disturbed. -/
theorem find?_register (schema : Schema ρ) (name : String) (accessor : Accessor ρ) (n : String) :
    (schema.register name accessor).find? n =
      if n = name then some ⟨name, accessor⟩ else schema.find? n := by
  unfold register
  split
  · rename_i i h
    have hi := lt_size_of_index h
    simp only [find?, replace]
    split
    · rename_i hn
      subst hn
      obtain ⟨f, hf, rfl⟩ := schema.index_iff.1 h
      rw [Array.getElem?_eq_getElem hi, Option.some_inj] at hf
      simp [h, hi, hf]
    · rename_i hn
      cases hj : schema.index[n]? with
      | none => rfl
      | some j =>
        have : i ≠ j := by
          rintro rfl
          exact hn (name_eq_of_index hj h)
        simp [Array.getElem?_set, this]
  · rename_i h
    simp only [find?, append, Std.HashMap.getElem?_insert]
    split
    · rename_i hn
      obtain rfl := eq_of_beq hn
      simp
    · rename_i hn
      rw [if_neg (fun e => hn (by simp [e]))]
      cases hj : schema.index[n]? with
      | none => rfl
      | some j =>
        have := lt_size_of_index hj
        simp [Array.getElem?_push, Nat.ne_of_lt this]

/-- The field that a property stands for: the one of that name or, if the case of letters may
differ, the first one whose name is equal to it up to the case of ASCII letters. -/
def resolve (schema : Schema ρ) (property : String) (ignoresCase : Bool) : Option (Field ρ) :=
  match schema.find? property with
  | some f => some f
  | none =>
    if ignoresCase then schema.fields.find? fun f => Text.sameIgnoringCase f.name property
    else none

@[simp] theorem resolve_register_self (schema : Schema ρ) (name : String) (accessor : Accessor ρ)
    (ignoresCase : Bool) :
    (schema.register name accessor).resolve name ignoresCase = some ⟨name, accessor⟩ := by
  simp [resolve, find?_register]

/-- The number of fields. -/
def size (schema : Schema ρ) : Nat := schema.fields.size

/-- The schema has no fields. -/
def isEmpty (schema : Schema ρ) : Bool := schema.fields.isEmpty

/-- The names of the fields. -/
def names (schema : Schema ρ) : List String := schema.fields.toList.map Field.name

/-- The description of a schema: its names, quoted, with their types. -/
def text (schema : Schema ρ) : String :=
  let entry (f : Field ρ) := Text.quote f.name ++ ": " ++ f.accessor.type.name
  "\x7b" ++ String.intercalate ", " (schema.fields.toList.map entry) ++ "\x7d"

end Schema

end RecordFilter
