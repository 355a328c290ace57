import RecordFilter.Proofs.Condition.Expression
import RecordFilter.Proofs.Derivation
import RecordFilter.Proofs.Meaning

/-!
# Grouping the first siblings

Siblings are joined from left to right, so parentheses around the first of them say nothing new.  A
filter whose first criteria are put into a group compiles if the limit is one higher, and what it
compiles to is not the same condition: a long chain is one thing, and a chain that starts with a
group of a chain is another.  But both have the same expression (`expression_ofSiblings_append`),
which is where the parentheses of a text and the truth of a record are read from.

A group of one criterion is the exception.  It adds a pair of parentheses to the expression, and
changes nothing else (`holds_ofSiblings_append`).
-/

namespace RecordFilter

variable {ρ : Type}

namespace Condition

/-! ## Joining in two steps -/

theorem joinRest_append (record : ρ) (soFar : Bool)
    (front back : List (Connective × Condition ρ)) :
    joinRest record soFar (front ++ back) =
      joinRest record (joinRest record soFar front) back := by
  rw [joinRest_eq_foldl, joinRest_eq_foldl, joinRest_eq_foldl, List.foldl_append]

theorem joinExpressions_append (soFar : Expression ρ)
    (front back : List (Connective × Condition ρ)) :
    joinExpressions soFar (front ++ back) =
      joinExpressions (joinExpressions soFar front) back := by
  induction front generalizing soFar with
  | nil => rfl
  | cons next front ih => rw [List.cons_append, joinExpressions, joinExpressions, ih]

theorem expression_ofSiblings_cons (connective : Connective) (first : Condition ρ)
    (rest : List (Connective × Condition ρ)) :
    (ofSiblings ((connective, first) :: rest)).expression =
      joinExpressions first.expression rest := by
  cases rest with
  | nil => rfl
  | cons next rest => rfl

/-! ## A group in front -/

/-- A group in front of siblings holds of the same records as its members in front of them. -/
theorem holds_ofSiblings_append (record : ρ) (connective : Connective)
    {front : List (Connective × Condition ρ)} (hfront : front ≠ [])
    (back : List (Connective × Condition ρ)) :
    (ofSiblings ((connective, grouped (ofSiblings front)) :: back)).holds record =
      (ofSiblings (front ++ back)).holds record := by
  obtain ⟨⟨connective', first⟩, rest, rfl⟩ := List.exists_cons_of_ne_nil hfront
  rw [List.cons_append, holds_ofSiblings_cons, holds_ofSiblings_cons, holds_grouped,
    holds_ofSiblings_cons, joinRest_append]

/-- A group of two or more in front of siblings makes the same expression as its members in front of
them. -/
theorem expression_ofSiblings_append (connective : Connective)
    {front : List (Connective × Condition ρ)} (hfront : 2 ≤ front.length)
    (back : List (Connective × Condition ρ)) :
    (ofSiblings ((connective, grouped (ofSiblings front)) :: back)).expression =
      (ofSiblings (front ++ back)).expression := by
  match front, hfront with
  | (connective', first) :: second :: rest, _ =>
    have hgroup : (grouped (ofSiblings ((connective', first) :: second :: rest))).expression =
        (ofSiblings ((connective', first) :: second :: rest)).expression := rfl
    rw [List.cons_append, expression_ofSiblings_cons, expression_ofSiblings_cons, hgroup,
      expression_ofSiblings_cons, joinExpressions_append]

end Condition

/-! ## Filters -/

/-- **Grouping the first siblings changes nothing.**  If a filter compiles, then it compiles as well
when some of its criteria, from the first one on, are put into a group, provided that the limit is
one higher.  The two predicates accept the same records, and if the group has two members or more,
they have the same text. -/
theorem compile_group_append (schema : Schema ρ) {settings : Settings} {front back : List Criterion}
    (hfront : front ≠ []) {p : Predicate ρ}
    (hp : compile schema settings (front ++ back) = .ok p) :
    ∃ q : Predicate ρ,
      compile schema { settings with maxDepth := settings.maxDepth + 1 }
        (.group front :: back) = .ok q ∧
      (∀ record, q.accepts record = p.accepts record) ∧
      (2 ≤ front.length → q.text = p.text) := by
  obtain ⟨conditions, hconditions, rfl⟩ := compile_eq_ok_iff_derives.mp hp
  obtain ⟨first, rest, rfl, hfirst, hrest⟩ := derives_append_iff.mp hconditions
  have hmembers : (Criterion.group front).members? = some front :=
    Criterion.members?_eq_some_iff.mpr ⟨rfl, hfront⟩
  -- The members have one level of room less than their group, and so as much as before.
  have hgroup : Derives schema { settings with maxDepth := settings.maxDepth + 1 }
      (settings.maxDepth + 1) (.group front :: back)
      ((.and, .grouped (.ofSiblings first)) :: rest) :=
    .group hmembers (hfirst.mono (Nat.le_refl _) rfl) (hrest.mono (Nat.le_succ _) rfl)
  refine ⟨_, compile_eq_ok_iff_derives.mpr ⟨_, hgroup, rfl⟩, fun record => ?_, fun htwo => ?_⟩
  · have hne : first ≠ [] := by
      rw [← List.length_pos_iff, hfirst.length_eq, List.length_pos_iff]
      exact hfront
    exact Condition.holds_ofSiblings_append record .and hne rest
  · have hlength : 2 ≤ first.length := by rwa [hfirst.length_eq]
    rw [Predicate.text, Predicate.text, ← Condition.text_expression, ← Condition.text_expression,
      Condition.expression_ofSiblings_append .and hlength rest]

/-! ### An instance -/

/-- `Age >= 18 && Age <= 30`. -/
def youngFilter : List Criterion :=
  [.leaf "Age" .atLeast (.integer 18), .leaf "Age" .atMost (.integer 30)]

/-- `|| Age == 7`, behind other criteria. -/
def sevenFilter : List Criterion := [(Criterion.leaf "Age" .equals (.integer 7)).joinedBy .or]

/-- What the one filter in front of the other compiles to. -/
def youngOrSeven : Predicate Int64 where
  root := .chain (.leaf ⟨"Age", .integer id (.atLeast 18)⟩)
    [(.and, .leaf ⟨"Age", .integer id (.atMost 30)⟩),
      (.or, .leaf ⟨"Age", .integer id (.equals 7)⟩)]

theorem compile_youngOrSeven : compile ages {} (youngFilter ++ sevenFilter) = .ok youngOrSeven := by
  simp [compile, youngFilter, sevenFilter, youngOrSeven, ages, Criterion.leaf, Criterion.joinedBy,
    Compile.siblings, Compile.criterion, Compile.leaf, Compile.test_integer, Compile.constraint,
    Compile.constant, Value.toInteger?, FieldType.isOrdered, Condition.ofSiblings, Functor.map,
    Except.map, bind, Except.bind, pure, Except.pure]

theorem compile_group_append_young :
    youngFilter ≠ [] ∧ compile ages {} (youngFilter ++ sevenFilter) = .ok youngOrSeven ∧
    ∃ q : Predicate Int64,
      compile ages { maxDepth := 65 } (.group youngFilter :: sevenFilter) = .ok q ∧
      (∀ age, q.accepts age = youngOrSeven.accepts age) ∧ q.accepts 7 = true ∧
      q.text = "x => ((x.Age >= 18 && x.Age <= 30) || x.Age == 7)" := by
  have hne : youngFilter ≠ [] := by decide
  obtain ⟨q, hq, haccepts, htext⟩ := compile_group_append ages hne compile_youngOrSeven
  refine ⟨hne, compile_youngOrSeven, q, hq, haccepts, ?_, ?_⟩
  · rw [haccepts]
    decide
  · rw [htext (by decide)]
    decide +kernel

end RecordFilter
