import RecordFilter.Proofs.Compilation
import Mathlib.Tactic.ByContra

/-!
# What can be wrong with a leaf

A leaf is at fault for one of six reasons, and each is said here of its property, its comparison and
its value alone, without the compiler (`LeafFault`).  The reasons exclude each other in the order in
which they stand: the field is unknown, the value is missing, the comparison does not suit the type,
membership is asked in something other than a list, and a value, or the first such element of a
list, stands for none of the type.

* `leaf_eq_error_iff_fault`: a leaf fails to compile with an error exactly when that error is its
  fault.
* `forall_not_leafFault_iff`: a leaf without fault is one that fits, which `Criterion.Fits` says in
  positive terms.
-/

namespace RecordFilter

/-! ## Leaves that fit -/

/-- Fields of the type can be compared in this way: strings alone can be searched, and all but truth
values can be bounded. -/
def Comparison.Suits : Comparison → FieldType → Prop
  | contains, type => type = .string
  | atLeast, type => type ≠ .boolean
  | atMost, type => type ≠ .boolean
  | equals, _ => True
  | oneOf, _ => True

/-- The comparison that a constraint makes. -/
def Constraint.comparison {α : Type} : Constraint α → Comparison
  | equals _ => .equals
  | atLeast _ => .atLeast
  | atMost _ => .atMost
  | oneOf _ => .oneOf

/-- The value stands for what the comparison needs in a field of the type: one of its constants, or
a list of them. -/
def Value.Serves (v : Value) : Comparison → FieldType → Prop
  | .oneOf, type => ∃ items, v.items? = some items ∧ ∀ w ∈ items, w.coercesTo type = true
  | _, type => v.coercesTo type = true

theorem Value.serves_iff {v : Value} {k : Comparison} {type : FieldType} (h : k ≠ .oneOf) :
    v.Serves k type ↔ v.coercesTo type = true := by
  cases k with
  | oneOf => exact absurd rfl h
  | _ => exact Iff.rfl

variable {ρ : Type}

/-- The property of a criterion stands for a field, and its value for what the comparison needs
there. -/
def Criterion.Fits (schema : Schema ρ) (settings : Settings) (c : Criterion) : Prop :=
  ∃ field, schema.resolve c.property settings.ignoresCase = some field ∧
    ∃ v, c.value = some v ∧ c.comparison.Suits field.accessor.type ∧
      v.Serves c.comparison field.accessor.type

/-! ## Faults -/

/-- What is wrong with comparing a field of the given name and type in this way with a value. -/
inductive ValueFault (field : String) (type : FieldType) (k : Comparison) (v : Value) :
    CompileError → Prop where
  /-- The comparison does not suit the type. -/
  | unsupported : ¬ k.Suits type → ValueFault field type k v (.unsupported k field type)
  /-- Membership is asked in something other than a list. -/
  | invalidMembership : k = .oneOf → v.items? = none →
      ValueFault field type k v (.invalidMembership field v)
  /-- An element of a list is the first that stands for none of the type. -/
  | invalidElement {before after : List Value} {w : Value} : k = .oneOf →
      v.items? = some (before ++ w :: after) → (∀ u ∈ before, u.coercesTo type = true) →
      w.coercesTo type = false → ValueFault field type k v (.invalidValue field w type)
  /-- The value stands for none of the type. -/
  | invalidValue : k ≠ .oneOf → k.Suits type → v.coercesTo type = false →
      ValueFault field type k v (.invalidValue field v type)

/-- What is wrong with comparing a property in this way with a value, which may be missing.  From
the second reason on, the field is called by its declared name. -/
inductive LeafFault (schema : Schema ρ) (settings : Settings) (property : String) (k : Comparison)
    (value : Option Value) : CompileError → Prop where
  /-- No field answers to the property. -/
  | unknownField : schema.resolve property settings.ignoresCase = none →
      LeafFault schema settings property k value (.unknownField property)
  /-- There is no value. -/
  | missingValue {field : Field ρ} : schema.resolve property settings.ignoresCase = some field →
      value = none → LeafFault schema settings property k value (.missingValue field.name k)
  /-- The value is wrong. -/
  | value {field : Field ρ} {v : Value} {e : CompileError} :
      schema.resolve property settings.ignoresCase = some field → value = some v →
      ValueFault field.name field.accessor.type k v e →
      LeafFault schema settings property k value e

/-! ## Faults of values -/

section Values

variable {α : Type} {field : String} {type : FieldType} {coerce : Value → Option α}
  {k : Comparison} {v : Value} {e : CompileError}

theorem coerce_eq_none_iff (h : ∀ w : Value, w.coercesTo type = (coerce w).isSome) {w : Value} :
    coerce w = none ↔ w.coercesTo type = false := by
  rw [h w, Option.isSome_eq_false_iff, Option.isNone_iff_eq_none]

theorem exists_coerce_iff (h : ∀ w : Value, w.coercesTo type = (coerce w).isSome) {w : Value} :
    (∃ a, coerce w = some a) ↔ w.coercesTo type = true := by
  rw [h w, Option.isSome_iff_exists]

/-- A list of values fails for the first element that stands for none of the type. -/
theorem constants_eq_error_iff (h : ∀ w : Value, w.coercesTo type = (coerce w).isSome)
    {items : List Value} :
    Compile.constants field type coerce items = .error e ↔
      ∃ before w after, items = before ++ w :: after ∧
        (∀ u ∈ before, u.coercesTo type = true) ∧ w.coercesTo type = false ∧
          .invalidValue field w type = e := by
  induction items with
  | nil => simp [Compile.constants]
  | cons w ws ih =>
    rw [Compile.constants_cons_eq_error_iff, ih, coerce_eq_none_iff h, exists_coerce_iff h]
    constructor
    · rintro (⟨hw, rfl⟩ | ⟨hw, before, u, after, rfl, hbefore, hu, rfl⟩)
      · exact ⟨[], w, ws, rfl, by simp, hw, rfl⟩
      · refine ⟨w :: before, u, after, rfl, ?_, hu, rfl⟩
        intro x hx
        rcases List.mem_cons.mp hx with rfl | hx
        · exact hw
        · exact hbefore x hx
    · rintro ⟨before, u, after, hitems, hbefore, hu, rfl⟩
      cases before with
      | nil =>
        obtain ⟨rfl, rfl⟩ := List.cons.inj hitems
        exact Or.inl ⟨hu, rfl⟩
      | cons b before =>
        obtain ⟨rfl, rfl⟩ := List.cons.inj hitems
        exact Or.inr ⟨hbefore w (by simp), before, u, after, rfl,
          fun x hx => hbefore x (by simp [hx]), hu, rfl⟩

theorem isOrdered_iff : type.isOrdered = true ↔ type ≠ .boolean := by
  rw [FieldType.isOrdered, bne_iff_ne]

/-- If the comparison suits the type and asks for one value, nothing but the value can be wrong. -/
theorem valueFault_iff_of_suits (hne : k ≠ .oneOf) (hsuits : k.Suits type) :
    ValueFault field type k v e ↔ v.coercesTo type = false ∧ .invalidValue field v type = e := by
  constructor
  · intro hf
    cases hf with
    | unsupported hnot => exact absurd hsuits hnot
    | invalidMembership hone => exact absurd hone hne
    | invalidElement hone => exact absurd hone hne
    | invalidValue _ _ hv => exact ⟨hv, rfl⟩
  · rintro ⟨hv, rfl⟩
    exact .invalidValue hne hsuits hv

/-- If the comparison does not suit the type, nothing else is looked at. -/
theorem valueFault_iff_of_not_suits (hnot : ¬ k.Suits type) :
    ValueFault field type k v e ↔ .unsupported k field type = e := by
  -- Membership suits every type.
  have hne : k ≠ .oneOf := by
    rintro rfl
    exact hnot trivial
  constructor
  · intro hf
    cases hf with
    | unsupported => rfl
    | invalidMembership hone => exact absurd hone hne
    | invalidElement hone => exact absurd hone hne
    | invalidValue _ hsuits => exact absurd hsuits hnot
  · rintro rfl
    exact .unsupported hnot

/-- Membership suits every type, and fails outside a list or for the first element of a list that
stands for none of the type. -/
theorem valueFault_oneOf_iff :
    ValueFault field type .oneOf v e ↔
      (v.items? = none ∧ .invalidMembership field v = e) ∨
        ∃ before w after, v.items? = some (before ++ w :: after) ∧
          (∀ u ∈ before, u.coercesTo type = true) ∧ w.coercesTo type = false ∧
            .invalidValue field w type = e := by
  constructor
  · intro hf
    cases hf with
    | unsupported hnot => exact absurd trivial hnot
    | invalidMembership _ hnone => exact Or.inl ⟨hnone, rfl⟩
    | invalidElement _ hsome hbefore hw => exact Or.inr ⟨_, _, _, hsome, hbefore, hw, rfl⟩
    | invalidValue hne => exact absurd rfl hne
  · rintro (⟨hnone, rfl⟩ | ⟨before, w, after, hsome, hbefore, hw, rfl⟩)
    · exact .invalidMembership rfl hnone
    · exact .invalidElement rfl hsome hbefore hw

/-- A bound fails if its type has no order, and otherwise for its value. -/
theorem bound_eq_error_iff {f : α → Constraint α}
    (h : ∀ w : Value, w.coercesTo type = (coerce w).isSome) (hk : k.Suits type ↔ type ≠ .boolean)
    (hne : k ≠ .oneOf) :
    (if type.isOrdered then f <$> Compile.constant field type coerce v
      else .error (.unsupported k field type)) = .error e ↔ ValueFault field type k v e := by
  rw [← isOrdered_iff] at hk
  by_cases ht : type.isOrdered = true
  · rw [if_pos ht, Compile.map_eq_error_iff, Compile.constant_eq_error_iff, coerce_eq_none_iff h,
      valueFault_iff_of_suits hne (hk.mpr ht)]
  · rw [if_neg ht, Except.error.injEq, valueFault_iff_of_not_suits (mt hk.mp ht)]

/-- A comparison other than the search of a string fails for what is wrong with it. -/
theorem constraint_eq_error_iff (h : ∀ w : Value, w.coercesTo type = (coerce w).isSome)
    (hk : k = .contains → type ≠ .string) :
    Compile.constraint field type coerce k v = .error e ↔ ValueFault field type k v e := by
  cases k with
  | equals =>
    have hsuits : Comparison.equals.Suits type := trivial
    rw [Compile.constraint, Compile.map_eq_error_iff, Compile.constant_eq_error_iff,
      coerce_eq_none_iff h, valueFault_iff_of_suits (by decide) hsuits]
  | atLeast => exact bound_eq_error_iff h Iff.rfl (by decide)
  | atMost => exact bound_eq_error_iff h Iff.rfl (by decide)
  | contains =>
    have hnot : ¬ Comparison.contains.Suits type := hk rfl
    rw [Compile.constraint, Except.error.injEq, valueFault_iff_of_not_suits hnot]
  | oneOf =>
    rw [Compile.constraint, valueFault_oneOf_iff]
    cases hitems : v.items? with
    | none => simp
    | some items => simp [Compile.map_eq_error_iff, constants_eq_error_iff h]

end Values

/-- Comparing a field with a value fails for what is wrong with it. -/
theorem test_eq_error_iff {field : Field ρ} {k : Comparison} {v : Value} {e : CompileError} :
    Compile.test field k v = .error e ↔ ValueFault field.name field.accessor.type k v e := by
  obtain ⟨name, accessor⟩ := field
  cases accessor with
  | boolean get =>
    rw [Compile.test_boolean, Compile.map_eq_error_iff]
    exact constraint_eq_error_iff (fun _ => rfl) (fun _ h => nomatch h)
  | integer get =>
    rw [Compile.test_integer, Compile.map_eq_error_iff]
    exact constraint_eq_error_iff (fun _ => rfl) (fun _ h => nomatch h)
  | float get =>
    rw [Compile.test_float, Compile.map_eq_error_iff]
    exact constraint_eq_error_iff (fun _ => rfl) (fun _ h => nomatch h)
  | date get =>
    rw [Compile.test_date, Compile.map_eq_error_iff]
    exact constraint_eq_error_iff (fun _ => rfl) (fun _ h => nomatch h)
  | string get =>
    by_cases hk : k = .contains
    · subst hk
      have hsuits : Comparison.contains.Suits .string := rfl
      have hcoerce : ∀ w : Value, w.coercesTo .string = w.toText?.isSome := fun _ => rfl
      rw [Compile.test_contains, Compile.map_eq_error_iff, Compile.constant_eq_error_iff,
        coerce_eq_none_iff hcoerce]
      exact (valueFault_iff_of_suits (by decide) hsuits).symm
    · rw [Compile.test_string hk, Compile.map_eq_error_iff]
      exact constraint_eq_error_iff (fun _ => rfl) (fun h => absurd h hk)

/-! ## Faults of leaves -/

section Leaves

variable {schema : Schema ρ} {settings : Settings}

/-- A leaf fails with its fault and with nothing else. -/
theorem leaf_eq_error_iff_fault {c : Criterion} {e : CompileError} :
    Compile.leaf schema settings c = .error e ↔
      LeafFault schema settings c.property c.comparison c.value e := by
  rw [Compile.leaf_eq_error_iff]
  constructor
  · rintro (⟨hnone, rfl⟩ | ⟨field, hfield, ⟨hvalue, rfl⟩ | ⟨v, hv, he⟩⟩)
    · exact .unknownField hnone
    · exact .missingValue hfield hvalue
    · exact .value hfield hv (test_eq_error_iff.mp he)
  · intro hf
    cases hf with
    | unknownField hnone => exact Or.inl ⟨hnone, rfl⟩
    | missingValue hfield hvalue => exact Or.inr ⟨_, hfield, Or.inl ⟨hvalue, rfl⟩⟩
    | value hfield hv hvf => exact Or.inr ⟨_, hfield, Or.inr ⟨_, hv, test_eq_error_iff.mpr hvf⟩⟩

/-- A list that does not have a property throughout has a first element without it. -/
theorem exists_first_of_not_forall {α : Type} {p : α → Prop} {l : List α}
    (h : ¬ ∀ a ∈ l, p a) :
    ∃ before a after, l = before ++ a :: after ∧ (∀ b ∈ before, p b) ∧ ¬ p a := by
  induction l with
  | nil => exact absurd (by simp) h
  | cons a l ih =>
    by_cases ha : p a
    · have hl : ¬ ∀ b ∈ l, p b := fun hl => h (List.forall_mem_cons.mpr ⟨ha, hl⟩)
      obtain ⟨before, b, after, rfl, hbefore, hb⟩ := ih hl
      exact ⟨a :: before, b, after, rfl, List.forall_mem_cons.mpr ⟨ha, hbefore⟩, hb⟩
    · exact ⟨[], a, l, rfl, by simp, ha⟩

/-- A comparison with a value is without fault when it suits the type and the value serves it. -/
theorem forall_not_valueFault_iff {field : String} {type : FieldType} {k : Comparison} {v : Value} :
    (∀ e, ¬ ValueFault field type k v e) ↔ k.Suits type ∧ v.Serves k type := by
  constructor
  · intro h
    have hsuits : k.Suits type := by
      by_contra hnot
      exact h _ (.unsupported hnot)
    refine ⟨hsuits, ?_⟩
    by_cases hk : k = .oneOf
    · subst hk
      cases hitems : v.items? with
      | none => exact absurd (.invalidMembership rfl hitems) (h _)
      | some items =>
        refine ⟨items, hitems, ?_⟩
        by_contra hnot
        obtain ⟨before, w, after, rfl, hbefore, hw⟩ := exists_first_of_not_forall hnot
        exact h _ (.invalidElement rfl hitems hbefore (Bool.eq_false_iff.mpr hw))
    · rw [Value.serves_iff hk]
      by_contra hv
      exact h _ (.invalidValue hk hsuits (Bool.eq_false_iff.mpr hv))
  · rintro ⟨hsuits, hserves⟩ e hf
    cases hf with
    | unsupported hnot => exact hnot hsuits
    | invalidMembership hk hnone =>
      subst hk
      obtain ⟨items, hitems, -⟩ := hserves
      rw [hitems] at hnone
      cases hnone
    | @invalidElement before after w hk hsome hbefore hw =>
      subst hk
      obtain ⟨items, hitems, hall⟩ := hserves
      rw [hitems, Option.some_inj] at hsome
      have hmem : w ∈ items := by rw [hsome]; simp
      rw [hall w hmem] at hw
      cases hw
    | invalidValue hk _ hv =>
      rw [Value.serves_iff hk, hv] at hserves
      cases hserves

/-- A leaf is without fault when it fits. -/
theorem forall_not_leafFault_iff {c : Criterion} :
    (∀ e, ¬ LeafFault schema settings c.property c.comparison c.value e) ↔
      c.Fits schema settings := by
  constructor
  · intro h
    cases hfield : schema.resolve c.property settings.ignoresCase with
    | none => exact absurd (.unknownField hfield) (h _)
    | some field =>
      cases hv : c.value with
      | none => exact absurd (.missingValue hfield hv) (h _)
      | some v =>
        have hvalue := forall_not_valueFault_iff.mp fun e he => h e (.value hfield hv he)
        exact ⟨field, hfield, v, hv, hvalue⟩
  · rintro ⟨field, hfield, v, hv, hvalue⟩ e hf
    cases hf with
    | unknownField hnone => rw [hfield] at hnone; cases hnone
    | missingValue _ hnone => rw [hv] at hnone; cases hnone
    | value hfield' hv' he =>
      rw [hfield, Option.some_inj] at hfield'
      rw [hv, Option.some_inj] at hv'
      subst hfield' hv'
      exact forall_not_valueFault_iff.mpr hvalue e he

end Leaves

end RecordFilter
