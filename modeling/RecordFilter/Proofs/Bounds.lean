import RecordFilter.Proofs.Fault
import RecordFilter.Proofs.Membership

/-!
# Equality as two bounds

To ask that a field equals a value is to ask that it is at least and at most that value.  The three
comparisons coerce the value in the same way, so they fail together wherever the type of the field
has bounds at all, and what is left is a fact about each type: two values are equal if each is
within the other (`AntisymmetricOrder`).  This is so for numbers too, although their order is not
one of all their values.  The two zeros are within each other and count as equal, and the value that
is not a number is within nothing and equal to nothing, itself included.

Of two integers, strings or dates, one is within the other (`TotalOrder`), so that every record
meets one of the two bounds.  A number may meet neither.

* `Accessor.compares_equals_iff`, `Accessor.compares_atLeast_or_atMost`: both facts, for whatever is
  read from a record.
* `Compile.test_eq_error_of_not_coerces`, `Compile.exists_test_of_coerces`: equality and bounds fail
  and succeed together.
-/

namespace RecordFilter

/-! ## The orders of the field types -/

/-- Two values are equal if each of them is within the other. -/
class AntisymmetricOrder (α : Type) [FieldOrder α] : Prop where
  same_iff : ∀ {a b : α}, FieldOrder.Same a b ↔ FieldOrder.Within b a ∧ FieldOrder.Within a b

/-- Of two values, one is within the other. -/
class TotalOrder (α : Type) [FieldOrder α] : Prop where
  within_total : ∀ a b : α, FieldOrder.Within a b ∨ FieldOrder.Within b a

instance : AntisymmetricOrder Bool := ⟨le_antisymm_iff.trans And.comm⟩

instance : AntisymmetricOrder Int64 where
  same_iff := by
    intro a b
    change a = b ↔ b.toInt ≤ a.toInt ∧ a.toInt ≤ b.toInt
    rw [← Int64.toInt_inj]
    omega

instance : AntisymmetricOrder Binary64 where
  same_iff := by
    intro x y
    constructor
    · rintro ⟨a, hx, hy⟩
      exact ⟨⟨a, a, hy, hx, le_refl a⟩, ⟨a, a, hx, hy, le_refl a⟩⟩
    · rintro ⟨⟨b, a, hy, hx, hba⟩, ⟨a', b', hx', hy', hab⟩⟩
      obtain rfl := Option.some_inj.mp (hx.symm.trans hx')
      obtain rfl := Option.some_inj.mp (hy.symm.trans hy')
      exact ⟨a, hx, hy.trans (congrArg some (le_antisymm hba hab))⟩

instance : AntisymmetricOrder String := ⟨le_antisymm_iff.trans And.comm⟩

instance : AntisymmetricOrder Date where
  same_iff := by
    rintro ⟨year, month, day, hvalid⟩ ⟨year', month', day', hvalid'⟩
    simp only [FieldOrder.Same, FieldOrder.Within, Date.mk.injEq]
    omega

instance : TotalOrder Bool := ⟨le_total⟩

instance : TotalOrder Int64 := ⟨fun a b => le_total a.toInt b.toInt⟩

instance : TotalOrder String := ⟨le_total⟩

instance : TotalOrder Date where
  within_total := by
    intro a b
    simp only [FieldOrder.Within]
    omega

/-! ## Comparing with one constant -/

section Compares

variable {α : Type} [FieldOrder α] {coerce : Value → Option α} {a : α} {v : Value}

theorem compares_equals_iff [AntisymmetricOrder α] :
    Compares coerce a .equals v ↔ Compares coerce a .atLeast v ∧ Compares coerce a .atMost v := by
  simp only [Compares]
  cases coerce v with
  | none => simp
  | some k => simp [AntisymmetricOrder.same_iff]

theorem compares_atLeast_or_atMost [TotalOrder α] (h : (coerce v).isSome = true) :
    Compares coerce a .atLeast v ∨ Compares coerce a .atMost v := by
  obtain ⟨k, hk⟩ := Option.isSome_iff_exists.mp h
  exact (TotalOrder.within_total k a).imp (fun hka => ⟨k, hk, hka⟩) fun hak => ⟨k, hk, hak⟩

end Compares

namespace Accessor

variable {ρ : Type} {record : ρ} {v : Value}

/-- What is read from a record equals what a value stands for if it is at least and at most that. -/
theorem compares_equals_iff (accessor : Accessor ρ) :
    accessor.Compares record .equals v ↔
      accessor.Compares record .atLeast v ∧ accessor.Compares record .atMost v := by
  cases accessor <;> exact RecordFilter.compares_equals_iff

/-- What is read from a record, unless it is a number, is at least or at most what a value stands
for. -/
theorem compares_atLeast_or_atMost {accessor : Accessor ρ} (htype : accessor.type ≠ .float)
    (hv : v.coercesTo accessor.type = true) :
    accessor.Compares record .atLeast v ∨ accessor.Compares record .atMost v := by
  cases accessor with
  | float get => exact absurd rfl htype
  | _ => exact RecordFilter.compares_atLeast_or_atMost hv

end Accessor

/-! ## Compiling one leaf -/

/-- The criteria that ask for a property to be at least a value, and at most the same value. -/
def Criterion.bothBounds (property : String) (v : Value) : List Criterion :=
  [leaf property .atLeast v, (leaf property .atMost v).joinedBy .and]

variable {ρ : Type}

namespace Compile

section Tests

variable {field : Field ρ} (comparison : Comparison) {v : Value}

/-- Comparing a field with what a value does not stand for fails, in whatever way the field is
compared. -/
theorem test_eq_error_of_not_coerces (hne : comparison ≠ .oneOf)
    (hsuits : comparison.Suits field.accessor.type) (hv : v.coercesTo field.accessor.type = false) :
    test field comparison v = .error (.invalidValue field.name v field.accessor.type) :=
  test_eq_error_iff.mpr ((valueFault_iff_of_suits hne hsuits).mpr ⟨hv, rfl⟩)

/-- Comparing a field with what a value stands for succeeds, in whatever way the field is
compared. -/
theorem exists_test_of_coerces (hne : comparison ≠ .oneOf)
    (hsuits : comparison.Suits field.accessor.type) (hv : v.coercesTo field.accessor.type = true) :
    ∃ t, test field comparison v = .ok t := by
  cases htest : test field comparison v with
  | ok t => exact ⟨t, rfl⟩
  | error e =>
    obtain ⟨hnot, -⟩ := (valueFault_iff_of_suits hne hsuits).mp (test_eq_error_iff.mp htest)
    cases hv.symm.trans hnot

end Tests

section Leaves

variable {schema : Schema ρ} {settings : Settings} {property : String} {field : Field ρ}
  {v : Value} (hproperty : property ≠ "")
  (hfield : schema.resolve property settings.ignoresCase = some field)

include hproperty hfield

/-- A leaf on a known field is made of the test of this field. -/
theorem criterion_leaf_eq (comparison : Comparison) (v : Value) (connective : Connective)
    (depth : Nat) (path : Path) :
    criterion schema settings depth path
        ((Criterion.leaf property comparison v).joinedBy connective) =
      (fun t => .leaf ⟨field.name, t⟩) <$> test field comparison v :=
  criterion_eq_test (Criterion.isLeaf_iff.mpr ⟨rfl, hproperty⟩) hfield rfl

/-- A filter whose first leaf compares a field with what the value does not stand for fails, in
whatever way the field is compared. -/
theorem compile_leaf_cons_eq_error (comparison : Comparison) (hne : comparison ≠ .oneOf)
    (hsuits : comparison.Suits field.accessor.type) (hv : v.coercesTo field.accessor.type = false)
    (cs : List Criterion) :
    compile schema settings (.leaf property comparison v :: cs) =
      .error (.invalidValue field.name v field.accessor.type) := by
  have hleaf := criterion_leaf_eq hproperty hfield comparison v .and 0 [0]
  rw [test_eq_error_of_not_coerces comparison hne hsuits hv] at hleaf
  exact compile_cons_eq_error hleaf cs

theorem compile_leaf_eq_ok {comparison : Comparison} {t : Test ρ}
    (ht : test field comparison v = .ok t) :
    compile schema settings [.leaf property comparison v] = .ok ⟨.leaf ⟨field.name, t⟩⟩ := by
  have hleaf := criterion_leaf_eq hproperty hfield comparison v .and 0 [0]
  rw [ht] at hleaf
  exact compile_eq_ok_iff.mpr
    ⟨_, siblings_cons_eq_ok_iff.mpr ⟨_, hleaf, [], siblings_nil 1, rfl⟩, rfl⟩

theorem compile_bothBounds_eq_ok {low high : Test ρ} (hlow : test field .atLeast v = .ok low)
    (hhigh : test field .atMost v = .ok high) :
    compile schema settings (Criterion.bothBounds property v) =
      .ok ⟨.chain (.leaf ⟨field.name, low⟩) [(.and, .leaf ⟨field.name, high⟩)]⟩ := by
  have hfirst := criterion_leaf_eq hproperty hfield .atLeast v .and 0 [0]
  have hsecond := criterion_leaf_eq hproperty hfield .atMost v .and 0 [1]
  rw [hlow] at hfirst
  rw [hhigh] at hsecond
  refine compile_eq_ok_iff.mpr
    ⟨_, siblings_cons_eq_ok_iff.mpr ⟨_, hfirst, [(.and, .leaf ⟨field.name, high⟩)], ?_, rfl⟩, rfl⟩
  exact siblings_cons_eq_ok_iff.mpr ⟨_, hsecond, [], siblings_nil 2, rfl⟩

/-- On a field that is no truth value, equality with what a value stands for compiles, and so do the
two bounds, to predicates that accept the same records. -/
theorem exists_compile_equals_of_coerces (hbounded : field.accessor.type ≠ .boolean)
    (hv : v.coercesTo field.accessor.type = true) :
    ∃ p q, compile schema settings [.leaf property .equals v] = .ok p ∧
      compile schema settings (Criterion.bothBounds property v) = .ok q ∧
        ∀ record, p.accepts record = q.accepts record := by
  obtain ⟨t, ht⟩ := exists_test_of_coerces .equals (by decide) trivial hv
  obtain ⟨low, hlow⟩ := exists_test_of_coerces .atLeast (by decide) hbounded hv
  obtain ⟨high, hhigh⟩ := exists_test_of_coerces .atMost (by decide) hbounded hv
  refine ⟨_, _, compile_leaf_eq_ok hproperty hfield ht,
    compile_bothBounds_eq_ok hproperty hfield hlow hhigh, fun record => ?_⟩
  have hholds : t.holds record = (low.holds record && high.holds record) := by
    rw [Bool.eq_iff_iff, Bool.and_eq_true_iff, test_holds_iff ht, test_holds_iff hlow,
      test_holds_iff hhigh, Accessor.compares_equals_iff]
  exact hholds

/-- On a field that is neither a truth value nor a number, both bounds by what a value stands for
compile, and every record meets one of them. -/
theorem exists_compile_bounds_of_coerces (hbounded : field.accessor.type ≠ .boolean)
    (htotal : field.accessor.type ≠ .float) (hv : v.coercesTo field.accessor.type = true) :
    ∃ p q, compile schema settings [.leaf property .atLeast v] = .ok p ∧
      compile schema settings [.leaf property .atMost v] = .ok q ∧
        ∀ record, p.accepts record = true ∨ q.accepts record = true := by
  obtain ⟨low, hlow⟩ := exists_test_of_coerces .atLeast (by decide) hbounded hv
  obtain ⟨high, hhigh⟩ := exists_test_of_coerces .atMost (by decide) hbounded hv
  refine ⟨_, _, compile_leaf_eq_ok hproperty hfield hlow,
    compile_leaf_eq_ok hproperty hfield hhigh, fun record => ?_⟩
  exact (Accessor.compares_atLeast_or_atMost htotal hv).imp (test_holds_iff hlow record).mpr
    (test_holds_iff hhigh record).mpr

end Leaves

end Compile

/-! ## Main result -/

/-- **Equality is the meeting of the two bounds.**  If a property does not stand for a truth value,
then a leaf that asks for it to equal a value, and two leaves that ask for it to be at least and at
most this value, either fail with the same error or compile to predicates that accept the same
records.  If it stands for an integer, a string or a date, and the value stands for one as well,
then both bounds compile, and every record meets one of them. -/
theorem compile_equals_eq_bothBounds (schema : Schema ρ) (settings : Settings) (property : String)
    (v : Value) :
    ((∀ field, schema.resolve property settings.ignoresCase = some field →
        field.accessor.type ≠ .boolean) →
      (∃ e, compile schema settings [.leaf property .equals v] = .error e ∧
        compile schema settings (Criterion.bothBounds property v) = .error e) ∨
      ∃ p q, compile schema settings [.leaf property .equals v] = .ok p ∧
        compile schema settings (Criterion.bothBounds property v) = .ok q ∧
          ∀ record, p.accepts record = q.accepts record) ∧
    ∀ field, property ≠ "" → schema.resolve property settings.ignoresCase = some field →
      field.accessor.type ∈ [.integer, .string, .date] →
      v.coercesTo field.accessor.type = true →
        ∃ p q, compile schema settings [.leaf property .atLeast v] = .ok p ∧
          compile schema settings [.leaf property .atMost v] = .ok q ∧
            ∀ record, p.accepts record = true ∨ q.accepts record = true := by
  refine ⟨fun hordered => ?_, fun field hproperty hfield htype hv => ?_⟩
  · by_cases hunknown : property = "" ∨ schema.resolve property settings.ignoresCase = none
    · obtain ⟨e, he⟩ := Compile.exists_criterion_leaf_eq_error hunknown 0 [0]
      exact Or.inl ⟨e, Compile.compile_cons_eq_error (he _ _) _,
        Compile.compile_cons_eq_error (he _ _) _⟩
    · rw [not_or] at hunknown
      obtain ⟨hproperty, hknown⟩ := hunknown
      obtain ⟨field, hfield⟩ := Option.ne_none_iff_exists'.mp hknown
      have hbounded := hordered field hfield
      cases hv : v.coercesTo field.accessor.type with
      | false =>
        exact Or.inl ⟨_,
          Compile.compile_leaf_cons_eq_error hproperty hfield .equals (by decide) trivial hv _,
          Compile.compile_leaf_cons_eq_error hproperty hfield .atLeast (by decide) hbounded hv _⟩
      | true =>
        exact Or.inr (Compile.exists_compile_equals_of_coerces hproperty hfield hbounded hv)
  · have hbounded : field.accessor.type ≠ .boolean := by
      intro h
      simp [h] at htype
    have htotal : field.accessor.type ≠ .float := by
      intro h
      simp [h] at htype
    exact Compile.exists_compile_bounds_of_coerces hproperty hfield hbounded htotal hv

/-! ### An instance -/

/-- The zero with a minus sign. -/
def minusZero : Binary64 := .finite true .zero

theorem compile_minusZero :
    compile heights {} [.leaf "Height" .equals (.float minusZero)] =
      .ok ⟨.leaf ⟨"Height", .float id (.equals minusZero)⟩⟩ :=
  Compile.compile_leaf_eq_ok (by decide) (Schema.resolve_register_self _ _ _ _) rfl

theorem compile_equals_eq_bothBounds_heights :
    (∀ field, heights.resolve "Height" true = some field → field.accessor.type ≠ .boolean) ∧
    (∃ q : Predicate Binary64,
      compile heights {} (Criterion.bothBounds "Height" (.float minusZero)) = .ok q ∧
        q.accepts .zero = true ∧ q.accepts .nan = false) ∧
    ages.resolve "Age" true = some ⟨"Age", .integer id⟩ ∧
    (Value.string "7").coercesTo .integer = true ∧
    ∃ p q : Predicate Int64, compile ages {} [.leaf "Age" .atLeast (.string "7")] = .ok p ∧
      compile ages {} [.leaf "Age" .atMost (.string "7")] = .ok q ∧
        ∀ age, p.accepts age = true ∨ q.accepts age = true := by
  have hheight : heights.resolve "Height" true = some ⟨"Height", .float id⟩ :=
    Schema.resolve_register_self _ _ _ _
  have hage : ages.resolve "Age" true = some ⟨"Age", .integer id⟩ :=
    Schema.resolve_register_self _ _ _ _
  have hordered : ∀ field, heights.resolve "Height" true = some field →
      field.accessor.type ≠ .boolean := by
    intro field hfield
    obtain rfl := Option.some_inj.mp (hheight.symm.trans hfield)
    decide
  have hseven : (Value.string "7").coercesTo .integer = true := by decide
  refine ⟨hordered, ?_, hage, hseven,
    (compile_equals_eq_bothBounds ages {} "Age" (.string "7")).2 _ (by decide) hage (by decide)
      hseven⟩
  rcases (compile_equals_eq_bothBounds heights {} "Height" (.float minusZero)).1 hordered with
    ⟨e, he, -⟩ | ⟨p, q, hp, hq, haccepts⟩
  · cases compile_minusZero.symm.trans he
  · cases compile_minusZero.symm.trans hp
    refine ⟨q, hq, ?_, ?_⟩
    · rw [← haccepts]
      decide +kernel
    · rw [← haccepts]
      decide +kernel

end RecordFilter
