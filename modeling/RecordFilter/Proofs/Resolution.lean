import RecordFilter.Proofs.Bounds
import RecordFilter.Proofs.Pairing

/-!
# Adding fields to a schema

A filter that compiles keeps its predicate when the schema gets a new field, even one whose name is
that of a property up to the case of letters, as long as no leaf calls the new field by exactly its
name.  And a field may get another accessor whenever no leaf stands for it.

## Why the order of the fields matters

A property stands for a name first, and the name for a field.  The first step (`answer?`) sees the
names only: a name that is equal to the property itself comes before all others, and of those that
are equal to it up to case the first one wins.  A new name goes to the end, so it answers only to
properties that nothing answered to before, and to its own (`answer?_concat`).  Another accessor
leaves the names as they are.

* `resolve_eq_bind`: what a property stands for, in two steps.
* `resolve_register_of_new`, `resolve_register_of_known`: what a registration leaves alone.
* `compile_register`: the same, said of whole filters.
-/

namespace RecordFilter

variable {ρ : Type}

namespace Schema

/-! ## Two steps -/

/-- The name that a property stands for: the property itself or, if it is none of the names and the
case may differ, the first name that is equal to it up to case. -/
def answer? (names : List String) (property : String) (ignoresCase : Bool) : Option String :=
  if property ∈ names then some property
  else if ignoresCase then names.find? fun name => Text.sameIgnoringCase name property
  else none

theorem mem_names_iff_find? {schema : Schema ρ} {name : String} :
    name ∈ schema.names ↔ ∃ f, schema.find? name = some f := by
  simp only [find?_eq_some_iff, names, List.mem_map, Array.mem_toList_iff]

theorem mem_of_answer? {names : List String} {property name : String} {ignoresCase : Bool}
    (h : answer? names property ignoresCase = some name) : name ∈ names := by
  unfold answer? at h
  split at h
  · rename_i hmem
    rwa [← Option.some_inj.mp h]
  · exact List.mem_of_find?_eq_some (Option.ite_none_right_eq_some.mp h).2

/-- A property stands for a name, and the name for the field of this name. -/
theorem resolve_eq_bind (schema : Schema ρ) (property : String) (ignoresCase : Bool) :
    schema.resolve property ignoresCase =
      (answer? schema.names property ignoresCase).bind schema.find? := by
  rw [resolve, answer?]
  cases hfind : schema.find? property with
  | some f =>
    rw [if_pos (mem_names_iff_find?.mpr ⟨f, hfind⟩)]
    exact hfind.symm
  | none =>
    have hnew : property ∉ schema.names := by
      rw [mem_names_iff_find?, hfind]
      simp
    rw [if_neg hnew]
    cases ignoresCase with
    | false => rfl
    | true =>
      rw [if_pos rfl, if_pos rfl, names, List.find?_map, ← Array.find?_toList]
      change schema.fields.toList.find? (fun f => Text.sameIgnoringCase f.name property) =
        ((schema.fields.toList.find? fun f => Text.sameIgnoringCase f.name property).map
          Field.name).bind schema.find?
      cases hfirst : schema.fields.toList.find? fun f => Text.sameIgnoringCase f.name property with
      | none => rfl
      | some f =>
        have hf := Array.mem_toList_iff.mp (List.mem_of_find?_eq_some hfirst)
        exact (find?_eq_some_iff.mpr ⟨hf, rfl⟩).symm

/-! ## One registration -/

/-- A name behind the others changes no answer, except to the property of exactly this name. -/
theorem answer?_concat {names : List String} {property name answer : String} {ignoresCase : Bool}
    (h : answer? names property ignoresCase = some answer) (hne : property ≠ name) :
    answer? (names ++ [name]) property ignoresCase = some answer := by
  unfold answer? at h ⊢
  by_cases hmem : property ∈ names
  · rw [if_pos hmem] at h
    rw [if_pos (List.mem_append_left _ hmem), h]
  · have hnew : property ∉ names ++ [name] := by
      rw [List.mem_append, List.mem_singleton]
      exact not_or.mpr ⟨hmem, hne⟩
    rw [if_neg hmem] at h
    obtain ⟨hcase, hfirst⟩ := Option.ite_none_right_eq_some.mp h
    rw [if_neg hnew, if_pos hcase, List.find?_append, hfirst]
    rfl

variable {schema : Schema ρ} {name property : String} {ignoresCase : Bool}

/-- A property keeps its field when a new name is registered that is not the property itself. -/
theorem resolve_register_of_new (hnew : name ∉ schema.names) (hne : property ≠ name) {f : Field ρ}
    (h : schema.resolve property ignoresCase = some f) (accessor : Accessor ρ) :
    (schema.register name accessor).resolve property ignoresCase = some f := by
  rw [resolve_eq_bind] at h ⊢
  obtain ⟨answer, hanswer, hfield⟩ := Option.bind_eq_some_iff.mp h
  have hother : answer ≠ name := by
    rintro rfl
    exact hnew (mem_of_answer? hanswer)
  rw [names_register, if_neg hnew, answer?_concat hanswer hne, Option.bind_some, find?_register,
    if_neg hother, hfield]

/-- What a property stands for stays as it is when another field than this one gets an accessor. -/
theorem resolve_register_of_known (hknown : name ∈ schema.names)
    (hother : ∀ f, schema.resolve property ignoresCase = some f → f.name ≠ name)
    (accessor : Accessor ρ) :
    (schema.register name accessor).resolve property ignoresCase =
      schema.resolve property ignoresCase := by
  rw [resolve_eq_bind] at hother ⊢
  rw [resolve_eq_bind, names_register, if_pos hknown]
  cases hanswer : answer? schema.names property ignoresCase with
  | none => rfl
  | some answer =>
    obtain ⟨f, hf⟩ := mem_names_iff_find?.mp (mem_of_answer? hanswer)
    rw [hanswer] at hother
    have hne : answer ≠ name := by
      rw [← (find?_eq_some_iff.mp hf).2]
      exact hother f hf
    rw [Option.bind_some, Option.bind_some, find?_register, if_neg hne]

end Schema

/-! ## Filters -/

/-- A filter compiles alike under two schemas if its leaves stand for the same fields in both. -/
theorem compile_eq_of_resolve_eq {schema schema' : Schema ρ} {settings : Settings}
    {filter : List Criterion}
    (h : ∀ c ∈ Criterion.leavesOf filter, c.property ≠ "" →
      schema.resolve c.property settings.ignoresCase =
        schema'.resolve c.property settings.ignoresCase) :
    compile schema settings filter = compile schema' settings filter := by
  have hself : Paired (Interchangeable schema schema' settings Eq) filter filter :=
    paired_self filter fun c hc => ⟨rfl, rfl, Iff.rfl, h c hc, rfl⟩
  exact (hself.agree_compile fun _ => rfl).eq

/-- **A new field does not disturb a filter.**  A filter that compiles still compiles to the same
predicate when a field of a new name is registered, unless the property of a leaf is exactly this
name; it may be equal to it up to case.  And registering a known name again changes nothing, neither
a predicate nor an error, if no leaf stands for the field of this name. -/
theorem compile_register (schema : Schema ρ) (settings : Settings) (filter : List Criterion)
    (name : String) (accessor : Accessor ρ) :
    (name ∉ schema.names →
      (∀ c ∈ Criterion.leavesOf filter, c.isLeaf = true → c.property ≠ name) →
      ∀ p, compile schema settings filter = .ok p →
        compile (schema.register name accessor) settings filter = .ok p) ∧
    (name ∈ schema.names →
      (∀ c ∈ Criterion.leavesOf filter, c.isLeaf = true → ∀ f,
        schema.resolve c.property settings.ignoresCase = some f → f.name ≠ name) →
      compile (schema.register name accessor) settings filter =
        compile schema settings filter) := by
  constructor
  · intro hnew hne p hp
    obtain ⟨conditions, hderives, -⟩ := compile_eq_ok_iff_derives.mp hp
    rw [← hp]
    refine compile_eq_of_resolve_eq fun c hc _ => ?_
    obtain ⟨l, hl⟩ := hderives.exists_leaf_standsFor hc
    rw [hl.resolve_eq]
    exact Schema.resolve_register_of_new hnew (hne c hc hl.isLeaf) hl.resolve_eq accessor
  · intro hknown hother
    refine compile_eq_of_resolve_eq fun c hc hproperty => ?_
    have hleaf : c.isLeaf = true :=
      Criterion.isLeaf_iff.mpr ⟨Criterion.members?_of_mem_leavesOf filter c hc, hproperty⟩
    exact Schema.resolve_register_of_known hknown (hother c hc hleaf) accessor

/-! ### An instance -/

/-- `Age >= 25`, with letters of the other case. -/
def respelledFilter : List Criterion := [.leaf "aGE" .atLeast (.integer 25)]

/-- Records that are ages, with a nickname that all of them share. -/
def namedAges : Schema Int64 := ages.register "Nick" (.string fun _ => "Nick")

theorem names_ages : ages.names = ["Age"] := by
  rw [ages, Schema.names_register]
  rfl

theorem resolve_ages_respelled : ages.resolve "aGE" true = some ⟨"Age", .integer id⟩ := by
  have hanswer : Schema.answer? ["Age"] "aGE" true = some "Age" := by decide
  rw [Schema.resolve_eq_bind, names_ages, hanswer, Option.bind_some, ages, Schema.find?_register,
    if_pos rfl]

theorem resolve_namedAges_respelled :
    namedAges.resolve "aGE" true = some ⟨"Age", .integer id⟩ := by
  have hnew : "Nick" ∉ ages.names := by
    rw [names_ages]
    decide
  exact Schema.resolve_register_of_new hnew (by decide) resolve_ages_respelled _

theorem compile_register_ages :
    ("AGE" ∉ ages.names ∧ compile ages {} respelledFilter =
        .ok ⟨.leaf ⟨"Age", .integer id (.atLeast 25)⟩⟩ ∧
      compile (ages.register "AGE" (.boolean fun _ => true)) {} respelledFilter =
        .ok ⟨.leaf ⟨"Age", .integer id (.atLeast 25)⟩⟩) ∧
    "Nick" ∈ namedAges.names ∧
      compile (namedAges.register "Nick" (.boolean fun _ => true)) {} respelledFilter =
        compile namedAges {} respelledFilter := by
  have hleaves : Criterion.leavesOf respelledFilter = [.leaf "aGE" .atLeast (.integer 25)] := rfl
  have hnew : "AGE" ∉ ages.names := by
    rw [names_ages]
    decide
  have hproperty : "aGE" ≠ "" := by decide
  have htest : Compile.test ⟨"Age", .integer id⟩ .atLeast (.integer 25) =
      .ok (.integer id (.atLeast 25)) := rfl
  have hok : compile ages {} respelledFilter =
      .ok ⟨.leaf ⟨"Age", .integer id (.atLeast 25)⟩⟩ :=
    Compile.compile_leaf_eq_ok hproperty resolve_ages_respelled htest
  have hknown : "Nick" ∈ namedAges.names := by
    rw [namedAges, Schema.names_register, names_ages]
    decide
  refine ⟨⟨hnew, hok, ?_⟩, hknown, ?_⟩
  · refine (compile_register ages {} respelledFilter "AGE" _).1 hnew ?_ _ hok
    rw [hleaves]
    decide
  · refine (compile_register namedAges {} respelledFilter "Nick" _).2 hknown ?_
    intro c hc _ f hf
    rw [hleaves, List.mem_singleton] at hc
    subst hc
    have hsame := hf.symm.trans resolve_namedAges_respelled
    rw [Option.some_inj.mp hsame]
    decide

end RecordFilter
