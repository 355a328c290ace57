import RecordFilter.Compile.Filter
import RecordFilter.Proofs.Tree

/-!
# The steps of compiling

What compiling a leaf, a group, a list of siblings and a whole filter comes to, read off the tree
once, so that no other proof opens the compiler.  Each step has two readings: when it succeeds, and
with what error it fails.

* `bind_eq_ok_iff`, `bind_eq_error_iff` and their like: the outcome of a composed computation.
* `criterion_group_eq_ok_iff`, `criterion_leaf_eq_ok_iff`, `siblings_cons_eq_ok_iff`,
  `leaf_eq_ok_iff`, and the same with `error`.
* `exists_test_eq`: what the test of a field is, for all types at once.
-/

namespace RecordFilter

namespace Compile

/-! ## Outcomes -/

section Outcomes

variable {ε α β : Type}

theorem bind_eq_ok_iff {x : Except ε α} {f : α → Except ε β} {b : β} :
    x >>= f = .ok b ↔ ∃ a, x = .ok a ∧ f a = .ok b := by
  cases x with
  | error e => simp [bind, Except.bind]
  | ok a => simp [bind, Except.bind]

theorem bind_eq_error_iff {x : Except ε α} {f : α → Except ε β} {e : ε} :
    x >>= f = .error e ↔ x = .error e ∨ ∃ a, x = .ok a ∧ f a = .error e := by
  cases x with
  | error e' => simp [bind, Except.bind]
  | ok a => simp [bind, Except.bind]

theorem map_eq_ok_iff {f : α → β} {x : Except ε α} {b : β} :
    f <$> x = .ok b ↔ ∃ a, x = .ok a ∧ f a = b := by
  cases x with
  | error e => simp [Functor.map, Except.map]
  | ok a => simp [Functor.map, Except.map]

theorem map_eq_error_iff {f : α → β} {x : Except ε α} {e : ε} :
    f <$> x = .error e ↔ x = .error e := by
  cases x with
  | error e' => simp [Functor.map, Except.map]
  | ok a => simp [Functor.map, Except.map]

theorem mapError_eq_ok_iff {ε' : Type} {f : ε → ε'} {x : Except ε α} {a : α} :
    x.mapError f = .ok a ↔ x = .ok a := by
  cases x with
  | error e => exact ⟨nofun, nofun⟩
  | ok b =>
    change Except.ok b = Except.ok a ↔ _
    rw [Except.ok.injEq, Except.ok.injEq]

theorem mapError_eq_error_iff {ε' : Type} {f : ε → ε'} {x : Except ε α} {e' : ε'} :
    x.mapError f = .error e' ↔ ∃ e, x = .error e ∧ f e = e' := by
  cases x with
  | error e =>
    change Except.error (f e) = Except.error e' ↔ _
    rw [Except.error.injEq]
    constructor
    · exact fun h => ⟨e, rfl, h⟩
    · rintro ⟨e, h, hf⟩
      cases h
      exact hf
  | ok a =>
    constructor
    · exact nofun
    · rintro ⟨_, h, -⟩
      cases h

/-- A computation behind a check succeeds if the check passes and it succeeds. -/
theorem ite_error_eq_ok_iff {p : Prop} [Decidable p] {e : ε} {x : Except ε α} {a : α} :
    (if p then .error e else x) = .ok a ↔ ¬ p ∧ x = .ok a := by
  by_cases hp : p
  · simp [hp]
  · simp [hp]

theorem ite_error_eq_error_iff {p : Prop} [Decidable p] {e e' : ε} {x : Except ε α} :
    (if p then .error e else x) = .error e' ↔ (p ∧ e = e') ∨ (¬ p ∧ x = .error e') := by
  by_cases hp : p
  · simp [hp]
  · simp [hp]

end Outcomes

variable {ρ : Type} {schema : Schema ρ} {settings : Settings} {depth : Nat} {path : Path}

/-! ## Criteria -/

theorem criterion_of_group {c : Criterion} {ds : List Criterion} (h : c.members? = some ds) :
    criterion schema settings depth path c =
      if settings.maxDepth ≤ depth then .error (.tooDeep settings.maxDepth)
      else (.grouped ∘ .ofSiblings) <$> siblings schema settings (depth + 1) path 0 ds := by
  obtain ⟨property, comparison, value, connective, _ | _ | ⟨d, es⟩⟩ := c
  · cases h
  · cases h
  · cases h
    rw [criterion]

theorem criterion_of_leaf {c : Criterion} (h : c.members? = none) :
    criterion schema settings depth path c =
      if c.property = "" then .error (.illFormed path)
      else .leaf <$> leaf schema settings c := by
  obtain ⟨property, comparison, value, connective, _ | _ | ⟨d, es⟩⟩ := c
  · rw [criterion]
    simp
  · rw [criterion]
    simp
  · cases h

/-- A group that compiles is not nested too deep, and its condition is that of its members. -/
theorem criterion_group_eq_ok_iff {c : Criterion} {ds : List Criterion}
    (h : c.members? = some ds) {condition : Condition ρ} :
    criterion schema settings depth path c = .ok condition ↔
      depth < settings.maxDepth ∧ ∃ conditions,
        siblings schema settings (depth + 1) path 0 ds = .ok conditions ∧
          .grouped (.ofSiblings conditions) = condition := by
  rw [criterion_of_group h, ite_error_eq_ok_iff, map_eq_ok_iff, Nat.not_le]
  rfl

theorem criterion_group_eq_error_iff {c : Criterion} {ds : List Criterion}
    (h : c.members? = some ds) {e : CompileError} :
    criterion schema settings depth path c = .error e ↔
      (settings.maxDepth ≤ depth ∧ .tooDeep settings.maxDepth = e) ∨
        (depth < settings.maxDepth ∧
          siblings schema settings (depth + 1) path 0 ds = .error e) := by
  rw [criterion_of_group h, ite_error_eq_error_iff, map_eq_error_iff, Nat.not_le]

/-- A leaf that compiles names a property. -/
theorem criterion_leaf_eq_ok_iff {c : Criterion} (h : c.members? = none)
    {condition : Condition ρ} :
    criterion schema settings depth path c = .ok condition ↔
      c.property ≠ "" ∧ ∃ l, leaf schema settings c = .ok l ∧ .leaf l = condition := by
  rw [criterion_of_leaf h, ite_error_eq_ok_iff, map_eq_ok_iff]

theorem criterion_leaf_eq_error_iff {c : Criterion} (h : c.members? = none) {e : CompileError} :
    criterion schema settings depth path c = .error e ↔
      (c.property = "" ∧ .illFormed path = e) ∨
        (c.property ≠ "" ∧ leaf schema settings c = .error e) := by
  rw [criterion_of_leaf h, ite_error_eq_error_iff, map_eq_error_iff]

/-! ## Siblings -/

@[simp] theorem siblings_nil (i : Nat) : siblings schema settings depth path i [] = .ok [] := by
  rw [siblings]

theorem siblings_cons_eq_ok_iff {i : Nat} {c : Criterion} {cs : List Criterion}
    {conditions : List (Connective × Condition ρ)} :
    siblings schema settings depth path i (c :: cs) = .ok conditions ↔
      ∃ condition, criterion schema settings depth (path ++ [i]) c = .ok condition ∧
        ∃ rest, siblings schema settings depth path (i + 1) cs = .ok rest ∧
          (c.connective, condition) :: rest = conditions := by
  rw [siblings]
  simp only [bind_eq_ok_iff, pure, Except.pure, Except.ok.injEq]

/-- Siblings fail with the error of the first of them, or with that of those behind it if the first
one compiles. -/
theorem siblings_cons_eq_error_iff {i : Nat} {c : Criterion} {cs : List Criterion}
    {e : CompileError} :
    siblings schema settings depth path i (c :: cs) = .error e ↔
      criterion schema settings depth (path ++ [i]) c = .error e ∨
        ((∃ condition, criterion schema settings depth (path ++ [i]) c = .ok condition) ∧
          siblings schema settings depth path (i + 1) cs = .error e) := by
  rw [siblings, bind_eq_error_iff]
  simp only [bind_eq_error_iff, pure, Except.pure, reduceCtorEq, and_false, exists_false, or_false,
    exists_and_right]

/-! ## Filters -/

theorem compile_eq_ok_iff {filter : List Criterion} {p : Predicate ρ} :
    compile schema settings filter = .ok p ↔
      ∃ conditions, siblings schema settings 0 [] 0 filter = .ok conditions ∧
        ⟨.ofSiblings conditions⟩ = p :=
  map_eq_ok_iff

theorem compile_eq_error_iff {filter : List Criterion} {e : CompileError} :
    compile schema settings filter = .error e ↔
      siblings schema settings 0 [] 0 filter = .error e :=
  map_eq_error_iff

/-- A filter fails as its first criterion does. -/
theorem compile_cons_eq_error {c : Criterion} {e : CompileError}
    (h : criterion schema settings 0 [0] c = .error e) (cs : List Criterion) :
    compile schema settings (c :: cs) = .error e :=
  compile_eq_error_iff.mpr (siblings_cons_eq_error_iff.mpr (Or.inl h))

/-! ## Leaves -/

theorem leaf_eq_ok_iff {c : Criterion} {l : Leaf ρ} :
    leaf schema settings c = .ok l ↔
      ∃ field, schema.resolve c.property settings.ignoresCase = some field ∧
        ∃ v, c.value = some v ∧
          ∃ t, test field c.comparison v = .ok t ∧ ⟨field.name, t⟩ = l := by
  unfold leaf
  cases schema.resolve c.property settings.ignoresCase with
  | none => simp
  | some field =>
    cases c.value with
    | none => simp
    | some v => simp [map_eq_ok_iff]

theorem leaf_eq_error_iff {c : Criterion} {e : CompileError} :
    leaf schema settings c = .error e ↔
      (schema.resolve c.property settings.ignoresCase = none ∧ .unknownField c.property = e) ∨
        ∃ field, schema.resolve c.property settings.ignoresCase = some field ∧
          ((c.value = none ∧ .missingValue field.name c.comparison = e) ∨
            ∃ v, c.value = some v ∧ test field c.comparison v = .error e) := by
  unfold leaf
  cases schema.resolve c.property settings.ignoresCase with
  | none => simp
  | some field =>
    cases c.value with
    | none => simp
    | some v => simp [map_eq_error_iff]

section Constraints

variable {α : Type} {field : String} {type : FieldType} {coerce : Value → Option α}

theorem constant_eq_ok_iff {v : Value} {a : α} :
    constant field type coerce v = .ok a ↔ coerce v = some a := by
  unfold constant
  cases coerce v with
  | none => simp
  | some b => simp

theorem constant_eq_error_iff {v : Value} {e : CompileError} :
    constant field type coerce v = .error e ↔
      coerce v = none ∧ .invalidValue field v type = e := by
  unfold constant
  cases coerce v with
  | none => simp
  | some b => simp

theorem constants_cons_eq_ok_iff {v : Value} {vs : List Value} {as : List α} :
    constants field type coerce (v :: vs) = .ok as ↔
      ∃ a, coerce v = some a ∧
        ∃ bs, constants field type coerce vs = .ok bs ∧ a :: bs = as := by
  rw [constants]
  simp only [bind_eq_ok_iff, constant_eq_ok_iff, pure, Except.pure, Except.ok.injEq]

theorem constants_cons_eq_error_iff {v : Value} {vs : List Value} {e : CompileError} :
    constants field type coerce (v :: vs) = .error e ↔
      (coerce v = none ∧ .invalidValue field v type = e) ∨
        ((∃ a, coerce v = some a) ∧ constants field type coerce vs = .error e) := by
  rw [constants, bind_eq_error_iff, constant_eq_error_iff]
  simp only [bind_eq_error_iff, constant_eq_ok_iff, pure, Except.pure, reduceCtorEq, and_false,
    exists_false, or_false, exists_and_right]

end Constraints

section Tests

variable {name : String} {comparison : Comparison} {v : Value}

theorem test_boolean {get : ρ → Bool} :
    test ⟨name, .boolean get⟩ comparison v =
      .boolean get <$> constraint name .boolean Value.toBoolean? comparison v := by
  cases comparison <;> rfl

theorem test_integer {get : ρ → Int64} :
    test ⟨name, .integer get⟩ comparison v =
      .integer get <$> constraint name .integer Value.toInteger? comparison v := by
  cases comparison <;> rfl

theorem test_float {get : ρ → Binary64} :
    test ⟨name, .float get⟩ comparison v =
      .float get <$> constraint name .float Value.toFloat? comparison v := by
  cases comparison <;> rfl

theorem test_date {get : ρ → Date} :
    test ⟨name, .date get⟩ comparison v =
      .date get <$> constraint name .date Value.toDate? comparison v := by
  cases comparison <;> rfl

/-- Strings alone are searched. -/
theorem test_contains {get : ρ → String} :
    test ⟨name, .string get⟩ .contains v =
      .contains get <$> constant name .string Value.toText? v :=
  rfl

theorem test_string {get : ρ → String} (h : comparison ≠ .contains) :
    test ⟨name, .string get⟩ comparison v =
      .string get <$> constraint name .string Value.toText? comparison v := by
  cases comparison with
  | contains => exact absurd rfl h
  | _ => rfl

/-- Whatever the type of a field, a comparison other than the search of a string puts a constraint
on what is read from the field. -/
theorem exists_test_eq (field : Field ρ) :
    ∃ (α : Type) (_ : Comparable α) (coerce : Value → Option α) (get : ρ → α)
      (make : Constraint α → Test ρ),
      (∀ comparison v, comparison ≠ .contains → test field comparison v =
        make <$> constraint field.name field.accessor.type coerce comparison v) ∧
      ∀ k record, (make k).holds record = k.holds (get record) := by
  obtain ⟨name, accessor⟩ := field
  cases accessor with
  | boolean get =>
    exact ⟨_, _, _, get, .boolean get, fun _ _ _ => test_boolean, fun _ _ => rfl⟩
  | integer get =>
    exact ⟨_, _, _, get, .integer get, fun _ _ _ => test_integer, fun _ _ => rfl⟩
  | float get =>
    exact ⟨_, _, _, get, .float get, fun _ _ _ => test_float, fun _ _ => rfl⟩
  | string get =>
    exact ⟨_, _, _, get, .string get, fun _ _ h => test_string h, fun _ _ => rfl⟩
  | date get =>
    exact ⟨_, _, _, get, .date get, fun _ _ _ => test_date, fun _ _ => rfl⟩

end Tests

end Compile

end RecordFilter
