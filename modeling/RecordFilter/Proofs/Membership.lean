import RecordFilter.Proofs.Meaning

/-!
# Membership as alternatives

To ask that a field has one of several values is to ask that it has the first, or the second, and so
on.  The two filters go separate ways through the compiler, one leaf that coerces a list and many
leaves that coerce a value each, but both come down to the constants that the values stand for
(`Compile.siblings_leaf_equals`).  So they fail together, for the same value, and what they compile
to are two readings of the same constants.

The empty list is the one case without a counterpart: no alternatives make a filter that every
record meets, whereas no record has one of no values.
-/

namespace RecordFilter

variable {ρ : Type}

/-- The criteria that ask for a property to have the first of some values, or the second, and so
on. -/
def Criterion.equalsAny (property : String) : List Value → List Criterion
  | [] => []
  | v :: vs => leaf property .equals v :: vs.map fun w => (leaf property .equals w).joinedBy .or

/-! ## Alternatives -/

namespace Condition

/-- One condition for each constant, joined by *or* from the second one on. -/
def alternatives {α : Type} (condition : α → Condition ρ) : List α → List (Connective × Condition ρ)
  | [] => []
  | a :: as => (.and, condition a) :: as.map fun b => (.or, condition b)

theorem joinRest_map_or {α : Type} (condition : α → Condition ρ) (record : ρ) (soFar : Bool)
    (as : List α) :
    joinRest record soFar (as.map fun a => (.or, condition a)) =
      (soFar || as.any fun a => (condition a).holds record) := by
  induction as generalizing soFar with
  | nil => simp [joinRest]
  | cons a as ih => rw [List.map_cons, joinRest, ih, Connective.join, List.any_cons, Bool.or_assoc]

/-- Alternatives hold when one of them does. -/
theorem holds_alternatives {α : Type} (condition : α → Condition ρ) (record : ρ) {as : List α}
    (h : as ≠ []) :
    (ofSiblings (alternatives condition as)).holds record =
      as.any fun a => (condition a).holds record := by
  cases as with
  | nil => exact absurd rfl h
  | cons a as => rw [alternatives, holds_ofSiblings_cons, joinRest_map_or, List.any_cons]

end Condition

/-! ## Compiling one field -/

namespace Compile

theorem constants_ne_nil {α : Type} {field : String} {type : FieldType} {coerce : Value → Option α}
    {v : Value} {vs : List Value} {as : List α}
    (h : constants field type coerce (v :: vs) = .ok as) : as ≠ [] := by
  obtain ⟨a, -, bs, -, rfl⟩ := constants_cons_eq_ok_iff.mp h
  exact List.cons_ne_nil a bs

variable {schema : Schema ρ} {settings : Settings} {field : Field ρ} {depth : Nat} {path : Path}

/-- A leaf on a known field is made of the test of this field. -/
theorem criterion_eq_test {c : Criterion} {v : Value} (hleaf : c.isLeaf = true)
    (hfield : schema.resolve c.property settings.ignoresCase = some field)
    (hvalue : c.value = some v) :
    criterion schema settings depth path c =
      (fun t => .leaf ⟨field.name, t⟩) <$> test field c.comparison v := by
  obtain ⟨hc, hproperty⟩ := Criterion.isLeaf_iff.mp hleaf
  have htest : leaf schema settings c = Leaf.mk field.name <$> test field c.comparison v := by
    unfold leaf
    rw [hfield, hvalue]
  rw [criterion_of_leaf hc, if_neg hproperty, htest, ← comp_map]
  rfl

variable {α : Type} {coerce : Value → Option α} {name : String} {type : FieldType}

/-- Siblings whose first is made of the constant of one value, and the others of those of more
values, are made of the constants of all of them. -/
theorem siblings_cons_of_constant {i : Nat} {c : Criterion} {cs : List Criterion} {v : Value}
    {vs : List Value} {first : α → Condition ρ}
    {rest : List α → List (Connective × Condition ρ)}
    (hc : criterion schema settings depth (path ++ [i]) c = first <$> constant name type coerce v)
    (hcs : siblings schema settings depth path (i + 1) cs =
      rest <$> constants name type coerce vs) :
    siblings schema settings depth path i (c :: cs) =
      (fun
        | [] => []
        | a :: as => (c.connective, first a) :: rest as) <$>
          constants name type coerce (v :: vs) := by
  rw [siblings, hc, hcs, constants]
  cases constant name type coerce v with
  | error e => rfl
  | ok a =>
    cases constants name type coerce vs with
    | error e => rfl
    | ok as => rfl

section Alternatives

variable {property : String} {equalTo : α → Condition ρ}
  (hc : ∀ (i : Nat) (v : Value) (connective : Connective),
    criterion schema settings depth (path ++ [i])
      ((Criterion.leaf property .equals v).joinedBy connective) =
      equalTo <$> constant name type coerce v)

include hc

/-- Leaves that ask a field for one value each, behind another one, are made of the constants that
the values stand for. -/
theorem siblings_leaf_equals (i : Nat) (vs : List Value) :
    siblings schema settings depth path i
        (vs.map fun v => (Criterion.leaf property .equals v).joinedBy .or) =
      (List.map fun a => (.or, equalTo a)) <$> constants name type coerce vs := by
  induction vs generalizing i with
  | nil => exact siblings_nil i
  | cons v vs ih =>
    refine (siblings_cons_of_constant (hc i v .or) (ih (i + 1))).trans
      (congrArg (· <$> _) (funext fun as => ?_))
    cases as with
    | nil => rfl
    | cons a as => rfl

/-- Leaves that ask a field for one value each, as alternatives, are made of the constants that the
values stand for. -/
theorem siblings_equalsAny (i : Nat) (vs : List Value) :
    siblings schema settings depth path i (Criterion.equalsAny property vs) =
      Condition.alternatives equalTo <$> constants name type coerce vs := by
  cases vs with
  | nil => exact siblings_nil i
  | cons v vs =>
    refine (siblings_cons_of_constant (hc i v .and) (siblings_leaf_equals hc (i + 1) vs)).trans
      (congrArg (· <$> _) (funext fun as => ?_))
    cases as with
    | nil => rfl
    | cons a as => rfl

end Alternatives

/-- A leaf that asks for one of several values is made of the constants that the values stand
for. -/
theorem compile_oneOf {c : Criterion} {items : List Value} {make : Constraint α → Test ρ}
    (hleaf : c.isLeaf = true)
    (hfield : schema.resolve c.property settings.ignoresCase = some field)
    (hcomparison : c.comparison = .oneOf) (hvalue : c.value = some (.list items))
    (htest : ∀ comparison v, comparison ≠ .contains → test field comparison v =
      make <$> constraint field.name field.accessor.type coerce comparison v) :
    compile schema settings [c] =
      (fun as => ⟨.leaf ⟨field.name, make (.oneOf as)⟩⟩) <$>
        constants field.name field.accessor.type coerce items := by
  have hcriterion : criterion schema settings 0 [0] c =
      (fun as => .leaf ⟨field.name, make (.oneOf as)⟩) <$>
        constants field.name field.accessor.type coerce items := by
    rw [criterion_eq_test hleaf hfield hvalue, hcomparison, htest _ _ (by decide), constraint]
    dsimp only [Value.items?]
    rw [← comp_map, ← comp_map]
    rfl
  rw [compile, siblings, List.nil_append, hcriterion]
  cases constants field.name field.accessor.type coerce items with
  | error e => rfl
  | ok as => rfl

/-- Alternatives on a known field are made of the constants that their values stand for. -/
theorem compile_equalsAny {property : String} {make : Constraint α → Test ρ}
    (hproperty : property ≠ "")
    (hfield : schema.resolve property settings.ignoresCase = some field)
    (htest : ∀ comparison v, comparison ≠ .contains → test field comparison v =
      make <$> constraint field.name field.accessor.type coerce comparison v) (vs : List Value) :
    compile schema settings (Criterion.equalsAny property vs) =
      (fun as => ⟨.ofSiblings
        (Condition.alternatives (fun a => .leaf ⟨field.name, make (.equals a)⟩) as)⟩) <$>
        constants field.name field.accessor.type coerce vs := by
  have hcriterion : ∀ (i : Nat) (v : Value) (connective : Connective),
      criterion schema settings 0 ([] ++ [i])
        ((Criterion.leaf property .equals v).joinedBy connective) =
        (fun a => .leaf ⟨field.name, make (.equals a)⟩) <$>
          constant field.name field.accessor.type coerce v := by
    intro i v connective
    have hleaf : ((Criterion.leaf property .equals v).joinedBy connective).isLeaf = true :=
      Criterion.isLeaf_iff.mpr ⟨rfl, hproperty⟩
    rw [criterion_eq_test hleaf hfield rfl]
    refine (congrArg (_ <$> ·) (htest .equals v (by decide))).trans ?_
    rw [constraint, ← comp_map, ← comp_map]
    rfl
  rw [compile, siblings_equalsAny hcriterion, ← comp_map]
  rfl

/-- If no field answers to a property, then no leaf on it compiles, and all fail with the same
error. -/
theorem exists_criterion_leaf_eq_error {property : String}
    (h : property = "" ∨ schema.resolve property settings.ignoresCase = none) (depth : Nat)
    (path : Path) :
    ∃ e, ∀ comparison v,
      criterion schema settings depth path (Criterion.leaf property comparison v) = .error e := by
  by_cases hproperty : property = ""
  · refine ⟨.illFormed path, fun comparison v => ?_⟩
    exact (criterion_leaf_eq_error_iff rfl).mpr (Or.inl ⟨hproperty, rfl⟩)
  · refine ⟨.unknownField property, fun comparison v => ?_⟩
    have hnone := h.resolve_left hproperty
    exact (criterion_leaf_eq_error_iff rfl).mpr
      (Or.inr ⟨hproperty, leaf_eq_error_iff.mpr (Or.inl ⟨hnone, rfl⟩)⟩)

end Compile

/-! ## Main result -/

/-- **Membership is a choice between equalities.**  A leaf that asks for one of several values, and
leaves that ask for one of them each, joined by *or*, either fail with the same error or compile to
predicates that accept the same records.  A leaf that asks a known field for one of no values always
compiles, and its predicate accepts no record. -/
theorem compile_oneOf_eq_equalsAny (schema : Schema ρ) (settings : Settings) :
    (∀ (property : String) (v : Value) (vs : List Value),
      (∃ e, compile schema settings [.leaf property .oneOf (.list (v :: vs))] = .error e ∧
        compile schema settings (Criterion.equalsAny property (v :: vs)) = .error e) ∨
      ∃ p q, compile schema settings [.leaf property .oneOf (.list (v :: vs))] = .ok p ∧
        compile schema settings (Criterion.equalsAny property (v :: vs)) = .ok q ∧
          ∀ record, p.accepts record = q.accepts record) ∧
    ∀ (c : Criterion) (field : Field ρ), c.isLeaf = true →
      schema.resolve c.property settings.ignoresCase = some field →
      c.comparison = .oneOf → c.value = some (.list []) →
        ∃ p, compile schema settings [c] = .ok p ∧ ∀ record, p.accepts record = false := by
  refine ⟨fun property v vs => ?_, fun c field hleaf hfield hcomparison hvalue => ?_⟩
  · by_cases hunknown : property = "" ∨ schema.resolve property settings.ignoresCase = none
    · obtain ⟨e, he⟩ := Compile.exists_criterion_leaf_eq_error hunknown 0 [0]
      have hfirst : ∀ comparison w rest,
          compile schema settings (Criterion.leaf property comparison w :: rest) = .error e :=
        fun comparison w rest => Compile.compile_eq_error_iff.mpr
          (Compile.siblings_cons_eq_error_iff.mpr (Or.inl (he comparison w)))
      exact Or.inl ⟨e, hfirst _ _ _, hfirst _ _ _⟩
    · rw [not_or] at hunknown
      obtain ⟨field, hfield⟩ := Option.ne_none_iff_exists'.mp hunknown.2
      obtain ⟨α, _, coerce, get, make, htest, hholds⟩ := Compile.exists_test_eq field
      have hleaf : (Criterion.leaf property .oneOf (.list (v :: vs))).isLeaf = true :=
        Criterion.isLeaf_iff.mpr ⟨rfl, hunknown.1⟩
      have hmember := Compile.compile_oneOf hleaf hfield rfl rfl htest
      have hequal := Compile.compile_equalsAny hunknown.1 hfield htest (v :: vs)
      cases hconstants : Compile.constants field.name field.accessor.type coerce (v :: vs) with
      | error e =>
        rw [hconstants] at hmember hequal
        exact Or.inl ⟨e, hmember, hequal⟩
      | ok as =>
        rw [hconstants] at hmember hequal
        refine Or.inr ⟨_, _, hmember, hequal, fun record => ?_⟩
        have hne := Compile.constants_ne_nil hconstants
        rw [Predicate.accepts, Predicate.accepts, Condition.holds_alternatives _ record hne]
        simp only [Condition.holds_leaf, Leaf.holds, hholds, Constraint.holds]
  · obtain ⟨α, _, coerce, get, make, htest, hholds⟩ := Compile.exists_test_eq field
    refine ⟨_, Compile.compile_oneOf hleaf hfield hcomparison hvalue htest, fun record => ?_⟩
    exact hholds (.oneOf []) record

/-! ### An instance -/

/-- `Age in ["7", true]`, the values being taken for numbers. -/
def sevenOrOne : Criterion := .leaf "Age" .oneOf (.list [.string "7", .boolean true])

/-- `Age in []`. -/
def noAge : Criterion := .leaf "Age" .oneOf (.list [])

theorem compile_sevenOrOne :
    compile ages {} [sevenOrOne] = .ok ⟨.leaf ⟨"Age", .integer id (.oneOf [7, 1])⟩⟩ := by
  have hseven : (Integer.ofNumeral? (Value.trimmed "7")).bind Integer.toInt64? = some 7 := by
    decide
  have hfield : ages.resolve "Age" true = some ⟨"Age", .integer id⟩ :=
    Schema.resolve_register_self _ _ _ _
  have htest : ∀ comparison v, comparison ≠ .contains →
      Compile.test ⟨"Age", .integer id⟩ comparison v = .integer (id : Int64 → Int64) <$>
        Compile.constraint "Age" .integer Value.toInteger? comparison v :=
    fun _ _ _ => Compile.test_integer
  rw [Compile.compile_oneOf rfl hfield rfl rfl htest]
  simp [Compile.constants, Compile.constant, Value.toInteger?, hseven, Functor.map, Except.map,
    bind, Except.bind, pure, Except.pure]

theorem compile_oneOf_eq_equalsAny_ages :
    (∃ q : Predicate Int64,
      compile ages {} (Criterion.equalsAny "Age" [.string "7", .boolean true]) = .ok q ∧
        q.accepts 7 = true ∧ q.accepts 2 = false) ∧
    noAge.isLeaf = true ∧ ages.resolve "Age" true = some ⟨"Age", .integer id⟩ ∧
    ∃ p, compile ages {} [noAge] = .ok p ∧ ∀ age, p.accepts age = false := by
  have hfield : ages.resolve "Age" true = some ⟨"Age", .integer id⟩ :=
    Schema.resolve_register_self _ _ _ _
  have h := compile_oneOf_eq_equalsAny ages {}
  refine ⟨?_, by decide, hfield, h.2 noAge _ (by decide) hfield rfl rfl⟩
  rcases h.1 "Age" (.string "7") [.boolean true] with ⟨e, he, -⟩ | ⟨p, q, hp, hq, haccepts⟩
  · cases compile_sevenOrOne.symm.trans he
  · cases compile_sevenOrOne.symm.trans hp
    refine ⟨q, hq, ?_, ?_⟩
    · rw [← haccepts]
      decide
    · rw [← haccepts]
      decide

end RecordFilter
