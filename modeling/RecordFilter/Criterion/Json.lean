import RecordFilter.Criterion.Basic
import RecordFilter.Value.Json

/-!
# Filters in JSON

A filter is an array of criteria.  A criterion is an object whose members all may be left out, or an
array of its members in order.  Written, it has all its members but a value or children that it does
not have, so the text of a filter shows the difference between no children and an empty list of
them.
-/

namespace RecordFilter

open Json (Reader)

/-- The words for a comparison: its name and its other spellings. -/
def Comparison.words : List (String × Comparison) :=
  all.flatMap fun k => (k.name, k) :: k.aliases.map (·, k)

/-- The comparison of a text. -/
def Comparison.ofText (s : String) : Except Json.ReadError Comparison :=
  (Reader.choice words true).complete s

/-- The words for a connective. -/
def Connective.words : List (String × Connective) := all.map fun c => (c.name, c)

/-- The connective of a text. -/
def Connective.ofText (s : String) : Except Json.ReadError Connective :=
  (Reader.choice words true).complete s

namespace Criterion

mutual

/-- The JSON of a criterion. -/
def toJson : Criterion → Json
  | ⟨property, comparison, value, connective, children⟩ =>
    .object <|
      [("propertyName", .string property), ("operator", .string comparison.name)] ++
      (value.map fun v => ("value", v.toJson)).toList ++
      [("logicalOperator", .string connective.name)] ++
      childrenToJson children

/-- The member that holds the children, if there is one. -/
def childrenToJson : Option (List Criterion) → List (String × Json)
  | none => []
  | some cs => [("children", .array (toJsons cs))]

/-- The JSON of the criteria of a list. -/
def toJsons : List Criterion → List Json
  | [] => []
  | c :: cs => c.toJson :: toJsons cs

end

/-- The text of a filter. -/
def listText (cs : List Criterion) : String := (Json.array (toJsons cs)).text .compact

/-- The members of a criterion whose brackets may nest as deep as given, with children that are read
by the given reader. -/
def jsonMembers (brackets : Nat) (children : Reader (List Criterion)) :
    List (Reader.Member Criterion) :=
  [ ⟨"propertyName", [], false, fun c => (fun property => { c with property }) <$> Reader.string⟩,
    ⟨"operator", [], false, fun c =>
      (fun comparison => { c with comparison }) <$> Reader.choice Comparison.words (brackets ≠ 0)⟩,
    ⟨"value", [], false, fun c =>
      (fun value => { c with value }) <$> Reader.nullable (Value.reader brackets)⟩,
    ⟨"logicalOperator", [], false, fun c =>
      (fun connective => { c with connective }) <$> Reader.choice Connective.words (brackets ≠ 0)⟩,
    ⟨"children", ["nestedFilters"], false, fun c =>
      (fun children => { c with children }) <$> Reader.nullable children⟩ ]

mutual

/-- Reads a criterion in which at most the given number of brackets are open at once. -/
def reader : Nat → Reader Criterion
  | 0 => Reader.record "FilterNode" {} none
  | n + 1 => Reader.record "FilterNode" {} (some (jsonMembers n (listReader n)))

/-- Reads a list of criteria in which at most the given number of brackets are open at once. -/
def listReader : Nat → Reader (List Criterion)
  | 0 => Reader.list none
  | n + 1 => Reader.list (some (reader n))

end

/-- The filter of a text. -/
def listOfText (s : String) : Except Json.ReadError (List Criterion) :=
  (listReader Reader.bracketLimit).complete s

end Criterion

end RecordFilter
