import RecordFilter.Proofs.Resolution
import RecordFilter.Proofs.Text.AsciiCase

/-!
# The case of letters in properties

A leaf may spell its property with letters of another case than the field that it stands for.  If no
two names of the schema are equal up to case, the spelling has no influence: the filter compiles to
the same predicate, in which the fields have their declared names, or fails with the same error,
which shows the spelling only if no field answers to it.

## Why the names have to differ

The spelling decides which of two ways the search takes.  A property that is a name is found
directly, and any other one is compared with the names from the first on.  Both ways lead to a name
with the same letters, so they lead to the same name if there is only one (`answer?_eq_some_iff`).
With `age` beside `Age`, the property `age` stands for itself, but `AGE` for the first of the two.

* `Schema.sameLetters_of_resolve`: a field has the letters of the property that stands for it.
* `Schema.resolve_eq_of_sameLetters`: two spellings stand for the same field.
* `compile_respelled`: the same, said of whole filters.
-/

namespace RecordFilter

open Text (SameLetters)

variable {ρ : Type}

namespace Schema

/-! ## One property -/

/-- What answers to a property is a name with the same letters. -/
theorem sameLetters_of_answer? {names : List String} {property name : String} {ignoresCase : Bool}
    (h : answer? names property ignoresCase = some name) : SameLetters name property := by
  unfold answer? at h
  split at h
  · rw [Option.some_inj.mp h]
    exact .refl name
  · have hsame := List.find?_some (Option.ite_none_right_eq_some.mp h).2
    exact Text.sameIgnoringCase_iff_sameLetters.mp hsame

theorem sameLetters_of_resolve {schema : Schema ρ} {property : String} {ignoresCase : Bool}
    {f : Field ρ} (h : schema.resolve property ignoresCase = some f) :
    f.name ∈ schema.names ∧ SameLetters f.name property := by
  rw [resolve_eq_bind] at h
  obtain ⟨name, hname, hf⟩ := Option.bind_eq_some_iff.mp h
  rw [(find?_eq_some_iff.mp hf).2]
  exact ⟨mem_of_answer? hname, sameLetters_of_answer? hname⟩

/-- No two of the names have the same letters. -/
def HaveOwnLetters (names : List String) : Prop :=
  ∀ m ∈ names, ∀ n ∈ names, SameLetters m n → m = n

/-- A name that has the letters of a property answers to it, unless another one does. -/
theorem exists_answer? {names : List String} {property name : String} (hmem : name ∈ names)
    (hsame : SameLetters name property) : ∃ answer, answer? names property true = some answer := by
  unfold answer?
  split
  · exact ⟨property, rfl⟩
  · rw [if_pos rfl, ← Option.isSome_iff_exists, List.find?_isSome]
    exact ⟨name, hmem, Text.sameIgnoringCase_iff_sameLetters.mpr hsame⟩

/-- Among names with letters of their own, the one that has the letters of a property answers. -/
theorem answer?_eq_some_iff {names : List String} (hown : HaveOwnLetters names)
    {property name : String} :
    answer? names property true = some name ↔ name ∈ names ∧ SameLetters name property := by
  constructor
  · exact fun h => ⟨mem_of_answer? h, sameLetters_of_answer? h⟩
  · rintro ⟨hmem, hsame⟩
    obtain ⟨answer, hanswer⟩ := exists_answer? hmem hsame
    have hother := (sameLetters_of_answer? hanswer).trans hsame.symm
    rw [hanswer, hown answer (mem_of_answer? hanswer) name hmem hother]

/-- Two spellings of a property stand for the same field. -/
theorem resolve_eq_of_sameLetters {schema : Schema ρ} (hown : HaveOwnLetters schema.names)
    {property property' : String} (h : SameLetters property property') :
    schema.resolve property true = schema.resolve property' true := by
  have hanswer : answer? schema.names property true = answer? schema.names property' true := by
    refine Option.ext fun name => ?_
    rw [answer?_eq_some_iff hown, answer?_eq_some_iff hown]
    exact and_congr_right fun _ => ⟨fun hsame => hsame.trans h, fun hsame => hsame.trans h.symm⟩
  rw [resolve_eq_bind, resolve_eq_bind, hanswer]

end Schema

/-! ## Filters -/

/-- The two filters have the same groups and connectives, and their leaves differ at most in the
case of the letters of their properties. -/
def Respelled : List Criterion → List Criterion → Prop :=
  Paired fun c d => ∃ property, d = { c with property } ∧ SameLetters c.property property

/-- The two errors are equal, or say of two spellings of a property that no field answers to it. -/
inductive CompileError.SameUpToSpelling : CompileError → CompileError → Prop where
  | refl (e : CompileError) : SameUpToSpelling e e
  | unknownField {property property' : String} : SameLetters property property' →
      SameUpToSpelling (.unknownField property) (.unknownField property')

theorem Respelled.interchangeable {schema : Schema ρ} {settings : Settings} {f g : List Criterion}
    (h : Respelled f g) (hown : Schema.HaveOwnLetters schema.names)
    (hcase : settings.ignoresCase = true) :
    Paired (Interchangeable schema schema settings CompileError.SameUpToSpelling) f g := by
  refine Paired.mono h ?_
  rintro c _ ⟨property, rfl, hsame⟩
  exact
    { comparison_eq := rfl
      value_eq := rfl
      property_eq_empty_iff := hsame.eq_empty_iff
      resolve_eq := fun _ => by
        rw [hcase]
        exact Schema.resolve_eq_of_sameLetters hown hsame
      same_unknownField := .unknownField hsame }

/-- **The case of ASCII letters in a property does not matter.**  If no two names of the schema are
equal up to case and the case may differ, two filters that differ at most in the case of letters in
the properties of leaves compile to the same predicate, whose leaves have the declared names of the
fields, or fail with the same error, except that an unknown field is called as its leaf calls it.
Under any schema and settings, a property has the letters of the name of its field, and a character
outside ASCII stands at the same places in both. -/
theorem compile_respelled (schema : Schema ρ) (settings : Settings) :
    (Schema.HaveOwnLetters schema.names → settings.ignoresCase = true → ∀ f g, Respelled f g →
      (∃ p, compile schema settings f = .ok p ∧ compile schema settings g = .ok p ∧
        List.Forall₂ (fun c l => l.field ∈ schema.names ∧ SameLetters l.field c.property)
          (Criterion.leavesOf f) p.root.leaves) ∨
      ∃ e e', compile schema settings f = .error e ∧ compile schema settings g = .error e' ∧
        e.SameUpToSpelling e') ∧
    ∀ property field, schema.resolve property settings.ignoresCase = some field →
      SameLetters field.name property ∧ ∀ (i : Nat) (c : Char), 128 ≤ c.toNat →
        (field.name.toList[i]? = some c ↔ property.toList[i]? = some c) := by
  constructor
  · intro hown hcase f g hrespelled
    have hagree := (hrespelled.interchangeable hown hcase).agree_compile .refl
    generalize hf : compile schema settings f = x at hagree
    generalize hg : compile schema settings g = y at hagree
    cases hagree with
    | ok p =>
      obtain ⟨conditions, hderives, rfl⟩ := compile_eq_ok_iff_derives.mp hf
      refine Or.inl ⟨_, rfl, rfl, ?_⟩
      rw [Condition.leaves_ofSiblings]
      exact hderives.standFor.imp fun c l hl => Schema.sameLetters_of_resolve hl.resolve_eq
    | error h => exact Or.inr ⟨_, _, rfl, rfl, h⟩
  · intro property field hfield
    have hsame := (Schema.sameLetters_of_resolve hfield).2
    exact ⟨hsame, fun i c hc => hsame.getElem?_eq_some_iff hc⟩

/-! ### An instance -/

/-- Records that are sizes. -/
def sizes : Schema Int64 := Schema.empty.register "Größe" (.integer id)

theorem names_sizes : sizes.names = ["Größe"] := by
  rw [sizes, Schema.names_register]
  rfl

/-- `Größe >= 25`, with the given property. -/
def sizeFilter (property : String) : List Criterion := [.leaf property .atLeast (.integer 25)]

theorem respelled_sizeFilter : Respelled (sizeFilter "gRößE") (sizeFilter "Größe") :=
  .leaf rfl rfl rfl ⟨"Größe", rfl, by decide⟩ .nil

theorem resolve_sizes : sizes.resolve "gRößE" true = some ⟨"Größe", .integer id⟩ := by
  have hanswer : Schema.answer? ["Größe"] "gRößE" true = some "Größe" := by decide
  rw [Schema.resolve_eq_bind, names_sizes, hanswer, Option.bind_some, sizes, Schema.find?_register,
    if_pos rfl]

theorem compile_respelled_sizes :
    (Respelled (sizeFilter "gRößE") (sizeFilter "Größe") ∧
      ∃ p, compile sizes {} (sizeFilter "gRößE") = .ok p ∧
        compile sizes {} (sizeFilter "Größe") = .ok p ∧ p.root.leaves.length = 1) ∧
    sizes.resolve "gRößE" true = some ⟨"Größe", .integer id⟩ ∧
      ("Größe".toList[2]? = some 'ö' ↔ "gRößE".toList[2]? = some 'ö') := by
  have hown : Schema.HaveOwnLetters sizes.names := by
    rw [names_sizes]
    intro m hm n hn _
    rw [List.mem_singleton.mp hm, List.mem_singleton.mp hn]
  have hproperty : "gRößE" ≠ "" := by decide
  have htest : Compile.test ⟨"Größe", .integer id⟩ .atLeast (.integer 25) =
      .ok (.integer id (.atLeast 25)) := rfl
  have hok : compile sizes {} (sizeFilter "gRößE") =
      .ok ⟨.leaf ⟨"Größe", .integer id (.atLeast 25)⟩⟩ :=
    Compile.compile_leaf_eq_ok hproperty resolve_sizes htest
  refine ⟨⟨respelled_sizeFilter, ?_⟩, resolve_sizes, ?_⟩
  · rcases (compile_respelled sizes {}).1 hown rfl _ _ respelled_sizeFilter with
      ⟨p, hp, hp', hleaves⟩ | ⟨e, e', he, -, -⟩
    · exact ⟨p, hp, hp', hleaves.length_eq.symm⟩
    · cases he.symm.trans hok
  · exact ((compile_respelled sizes {}).2 "gRößE" _ resolve_sizes).2 2 'ö' (by decide)

end RecordFilter
