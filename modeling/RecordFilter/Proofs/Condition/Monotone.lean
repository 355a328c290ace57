import RecordFilter.Proofs.Condition.Expression
import RecordFilter.Proofs.Shape

/-!
# Conditions are monotone in their leaves

Nothing in a condition negates: a leaf that becomes true cannot make the condition false.  This is
seen on the expression of the condition, where every step of a chain is a node with two sides
(`Expression.holds_mono`).

A condition that a filter compiles to is moreover bound to its leaves at both ends.  If all of them
have the same truth value, then it has this value too, for *and* and *or* both give back a value
that is joined with itself (`Connective.join_self`), and nothing else takes part: what asks for
nothing is true without any leaf, but only the empty filter compiles to it.

* `Condition.holds_mono`: a condition stays true if its true leaves stay true.
* `Derives.holds_eq`: conditions derived from siblings have the truth value of all their leaves.
* `Leaf.holds_eq_false_of_nan`: a leaf on a number fails on the value that is not a number.
-/

namespace RecordFilter

variable {ρ : Type}

/-! ## Joining -/

namespace Connective

theorem join_mono (connective : Connective) {a a' b b' : Bool} (ha : a = true → a' = true)
    (hb : b = true → b' = true) (h : connective.join a b = true) :
    connective.join a' b' = true := by
  cases connective with
  | and =>
    obtain ⟨hleft, hright⟩ := Bool.and_eq_true_iff.mp h
    exact Bool.and_eq_true_iff.mpr ⟨ha hleft, hb hright⟩
  | or => exact Bool.or_eq_true_iff.mpr ((Bool.or_eq_true_iff.mp h).imp ha hb)

theorem join_self (connective : Connective) (b : Bool) : connective.join b b = b := by
  cases connective with
  | and => exact Bool.and_self b
  | or => exact Bool.or_self b

end Connective

/-! ## True leaves that stay true -/

/-- An expression stays true if its true leaves stay true. -/
theorem Expression.holds_mono {e : Expression ρ} {r r' : ρ}
    (hleaves : ∀ l ∈ e.leaves, l.holds r = true → l.holds r' = true) (h : e.holds r = true) :
    e.holds r' = true := by
  induction e with
  | always => rfl
  | leaf l => exact hleaves l List.mem_cons_self h
  | enclosed inner ih => exact ih hleaves h
  | joined connective left right ihleft ihright =>
    obtain ⟨hleft, hright⟩ := List.forall_mem_append.mp hleaves
    exact connective.join_mono (ihleft hleft) (ihright hright) h

/-- A condition stays true if its true leaves stay true. -/
theorem Condition.holds_mono {c : Condition ρ} {r r' : ρ}
    (hleaves : ∀ l ∈ c.leaves, l.holds r = true → l.holds r' = true) (h : c.holds r = true) :
    c.holds r' = true := by
  rw [← leaves_expression] at hleaves
  rw [← holds_expression] at h ⊢
  exact Expression.holds_mono hleaves h

/-! ## Leaves of one truth value -/

section SameTruth

variable {record : ρ} {b : Bool}

theorem Condition.joinRest_eq_of_forall {rest : List (Connective × Condition ρ)}
    (h : ∀ next ∈ rest, next.2.holds record = b) : joinRest record b rest = b := by
  induction rest with
  | nil => rfl
  | cons next rest ih =>
    obtain ⟨hnext, hrest⟩ := List.forall_mem_cons.mp h
    rw [joinRest, hnext, Connective.join_self, ih hrest]

/-- Siblings of one truth value, if there are any, join to it. -/
theorem Condition.holds_ofSiblings_eq_of_forall {conditions : List (Connective × Condition ρ)}
    (hne : conditions ≠ []) (h : ∀ next ∈ conditions, next.2.holds record = b) :
    (ofSiblings conditions).holds record = b := by
  obtain ⟨⟨connective, first⟩, rest, rfl⟩ := List.exists_cons_of_ne_nil hne
  obtain ⟨hfirst, hrest⟩ := List.forall_mem_cons.mp h
  rw [holds_ofSiblings_cons, hfirst, joinRest_eq_of_forall hrest]

variable {schema : Schema ρ} {settings : Settings} {room : Nat} {cs : List Criterion}
  {conditions : List (Connective × Condition ρ)}

/-- If all leaves of some siblings have the same truth value, then each of the siblings has it. -/
theorem Derives.holds_eq (h : Derives schema settings room cs conditions)
    (hleaves : ∀ l ∈ Condition.restLeaves conditions, l.holds record = b) :
    ∀ next ∈ conditions, next.2.holds record = b := by
  induction h with
  | nil => exact nofun
  | leaf _ _ _ _ ih =>
    obtain ⟨hleaf, hrest⟩ := List.forall_mem_cons.mp hleaves
    exact List.forall_mem_cons.mpr ⟨hleaf, ih hrest⟩
  | group hc hinner _ ihinner ih =>
    obtain ⟨hmembers, hrest⟩ := List.forall_mem_append.mp hleaves
    rw [Condition.leaves, Condition.leaves_ofSiblings] at hmembers
    -- A group has members, so that what is inside of it does not ask for nothing.
    have hne := hinner.ne_nil (Criterion.members?_eq_some_iff.mp hc).2
    have hgroup := Condition.holds_ofSiblings_eq_of_forall hne (ihinner hmembers)
    exact List.forall_mem_cons.mpr ⟨hgroup, ih hrest⟩

end SameTruth

/-! ## The value that is not a number -/

theorem Constraint.holds_nan (constraint : Constraint Binary64) :
    constraint.holds .nan = false := by
  have hsame : ∀ x : Binary64, Binary64.same .nan x = false := fun _ => rfl
  have hleft : ∀ x : Binary64, Binary64.atMost .nan x = false := fun _ => rfl
  have hright : ∀ x : Binary64, Binary64.atMost x .nan = false := by
    intro x
    rw [Bool.eq_false_iff, ne_eq, Binary64.atMost_iff]
    rintro ⟨_, _, -, hnan, -⟩
    cases hnan
  cases constraint with
  | equals constant => exact hsame constant
  | atLeast bound => exact hright bound
  | atMost bound => exact hleft bound
  | oneOf constants => exact List.any_eq_false.mpr fun x _ => Bool.eq_false_iff.mp (hsame x)

/-- A leaf on a number fails on a record in which this is the value that is not a number. -/
theorem Leaf.holds_eq_false_of_nan {l : Leaf ρ} {get : ρ → Binary64} {record : ρ}
    (hl : l.test.accessor = .float get) (hrecord : get record = .nan) : l.holds record = false := by
  obtain ⟨field, test⟩ := l
  cases test <;> cases hl
  rw [Leaf.holds, Test.holds, hrecord, Constraint.holds_nan]

/-! ## Main result -/

/-- **Conditions are monotone in their leaves.**  A condition that holds of a record holds of every
record on which all leaves are true that are true on the first.  What a filter that is not empty
compiles to accepts a record on which all its leaves are true, and none on which they are all false;
so if all its properties stand for numbers, it accepts no record in which each of these is the value
that is not a number. -/
theorem holds_monotone_in_leaves :
    (∀ (c : Condition ρ) (r r' : ρ), (∀ l ∈ c.leaves, l.holds r = true → l.holds r' = true) →
      c.holds r = true → c.holds r' = true) ∧
    ∀ (schema : Schema ρ) (settings : Settings) (filter : List Criterion) (p : Predicate ρ),
      filter ≠ [] → compile schema settings filter = .ok p → ∀ record : ρ,
        ((∀ l ∈ p.root.leaves, l.holds record = false) → p.accepts record = false) ∧
        ((∀ l ∈ p.root.leaves, l.holds record = true) → p.accepts record = true) ∧
        ((∀ c ∈ Criterion.leavesOf filter, ∃ name get,
          schema.resolve c.property settings.ignoresCase = some ⟨name, .float get⟩ ∧
            get record = .nan) → p.accepts record = false) := by
  refine ⟨fun c r r' => Condition.holds_mono, ?_⟩
  intro schema settings filter p hfilter hp record
  obtain ⟨conditions, hderives, rfl⟩ := compile_eq_ok_iff_derives.mp hp
  have hsame : ∀ b, (∀ l ∈ Condition.restLeaves conditions, l.holds record = b) →
      (Condition.ofSiblings conditions).holds record = b := fun b hleaves =>
    Condition.holds_ofSiblings_eq_of_forall (hderives.ne_nil hfilter) (hderives.holds_eq hleaves)
  simp only [Condition.leaves_ofSiblings]
  refine ⟨hsame false, hsame true, fun hnan => hsame false fun l hl => ?_⟩
  obtain ⟨c, hc, hstands⟩ := hderives.exists_standsFor hl
  obtain ⟨name, get, hfield, hget⟩ := hnan c hc
  have haccessor : l.test.accessor = .float get :=
    congrArg Field.accessor (Option.some_inj.mp (hstands.resolve_eq.symm.trans hfield))
  exact Leaf.holds_eq_false_of_nan haccessor hget

/-! ### An instance -/

/-- `Height >= 1 || (Height >= 2 && Height >= 5)`. -/
def heightsFilter : List Criterion :=
  [.leaf "Height" .atLeast (.integer 1),
    (Criterion.group [.leaf "Height" .atLeast (.integer 2),
      .leaf "Height" .atLeast (.integer 5)]).joinedBy .or]

/-- What that filter compiles to. -/
def heightsPredicate : Predicate Binary64 where
  root := .chain (.leaf ⟨"Height", .float id (.atLeast (.ofInt 1))⟩)
    [(.or, .grouped (.chain (.leaf ⟨"Height", .float id (.atLeast (.ofInt 2))⟩)
      [(.and, .leaf ⟨"Height", .float id (.atLeast (.ofInt 5))⟩)]))]

theorem compile_heightsFilter : compile heights {} heightsFilter = .ok heightsPredicate := by
  simp [compile, heightsFilter, heights, heightsPredicate, Criterion.leaf, Criterion.group,
    Criterion.joinedBy, Compile.siblings, Compile.criterion, Compile.leaf, Compile.test_float,
    Compile.constraint, Compile.constant, Value.toFloat?, FieldType.isOrdered,
    Condition.ofSiblings, Functor.map, Except.map, bind, Except.bind, pure, Except.pure]

theorem holds_monotone_in_leaves_heights :
    heightsPredicate.root.holds (.ofInt 2) = true ∧ heightsFilter ≠ [] ∧
      compile heights {} heightsFilter = .ok heightsPredicate ∧
      heightsPredicate.accepts .zero = false ∧ heightsPredicate.accepts (.ofInt 5) = true ∧
      heightsPredicate.accepts .nan = false := by
  obtain ⟨hmono, hleaves⟩ := holds_monotone_in_leaves (ρ := Binary64)
  have hgrows : ∀ l ∈ heightsPredicate.root.leaves,
      l.holds (.ofInt 1) = true → l.holds (.ofInt 2) = true := by decide +kernel
  have hone : heightsPredicate.root.holds (.ofInt 1) = true := by decide +kernel
  have hne : heightsFilter ≠ [] := List.cons_ne_nil _ _
  have hheights := hleaves heights {} heightsFilter heightsPredicate hne compile_heightsFilter
  refine ⟨hmono _ _ _ hgrows hone, hne, compile_heightsFilter, (hheights _).1 (by decide +kernel),
    (hheights _).2.1 (by decide +kernel), (hheights _).2.2 fun c hc => ⟨"Height", id, ?_, rfl⟩⟩
  have hproperty : ∀ c ∈ Criterion.leavesOf heightsFilter, c.property = "Height" := by decide
  rw [hproperty c hc]
  exact Schema.resolve_register_self _ _ _ _

end RecordFilter
