import RecordFilter.Condition.Text

/-!
# Expressions as trees

The text of a condition opens the parentheses of a chain all at once and closes them one by one.
Read as an expression it is a tree, in which every step of a chain is a node that joins the steps
before it with the next sibling.  `Condition.expression` is this tree: it has the text of the
condition, holds of the same records, and has the same leaves.
-/

namespace RecordFilter

variable {ρ : Type}

/-- An expression over a record. -/
inductive Expression (ρ : Type) where
  | always
  | leaf (leaf : Leaf ρ)
  /-- An expression in parentheses. -/
  | enclosed (inner : Expression ρ)
  /-- Two expressions joined by a connective, in parentheses. -/
  | joined (connective : Connective) (left right : Expression ρ)

namespace Expression

/-- The expression is true of a record. -/
def holds (record : ρ) : Expression ρ → Bool
  | always => true
  | leaf l => l.holds record
  | enclosed inner => inner.holds record
  | joined connective left right => connective.join (left.holds record) (right.holds record)

/-- The text of an expression. -/
def text : Expression ρ → String
  | always => "true"
  | leaf l => l.text
  | enclosed inner => "(" ++ inner.text ++ ")"
  | joined connective left right =>
    "(" ++ left.text ++ " " ++ connective.symbol ++ " " ++ right.text ++ ")"

/-- The leaves of an expression, from left to right. -/
def leaves : Expression ρ → List (Leaf ρ)
  | always => []
  | leaf l => [l]
  | enclosed inner => inner.leaves
  | joined _ left right => left.leaves ++ right.leaves

end Expression

namespace Condition

mutual

/-- The leaves of a condition, from left to right. -/
def leaves : Condition ρ → List (Leaf ρ)
  | always => []
  | leaf l => [l]
  | chain first rest => first.leaves ++ restLeaves rest
  | grouped inner => inner.leaves

/-- The leaves of siblings, from left to right. -/
def restLeaves : List (Connective × Condition ρ) → List (Leaf ρ)
  | [] => []
  | (_, next) :: rest => next.leaves ++ restLeaves rest

end

mutual

/-- The expression of a condition, as a tree. -/
def expression : Condition ρ → Expression ρ
  | always => .always
  | leaf l => .leaf l
  | chain first rest => joinExpressions first.expression rest
  | grouped inner => if inner.isChain then inner.expression else .enclosed inner.expression

/-- The expression of the siblings so far, joined from left to right with those that follow. -/
def joinExpressions (soFar : Expression ρ) : List (Connective × Condition ρ) → Expression ρ
  | [] => soFar
  | (connective, next) :: rest => joinExpressions (.joined connective soFar next.expression) rest

end

mutual

/-- The expression of a condition is true of the records that meet the condition. -/
theorem holds_expression (record : ρ) : ∀ c : Condition ρ,
    c.expression.holds record = c.holds record
  | always => rfl
  | leaf _ => rfl
  | chain first rest => by
    rw [expression, holds_joinExpressions record rest, holds_expression record first, holds]
  | grouped inner => by
    rw [expression, holds, ← holds_expression record inner]
    split <;> rfl

theorem holds_joinExpressions (record : ρ) : ∀ (rest : List (Connective × Condition ρ))
    (soFar : Expression ρ),
    (joinExpressions soFar rest).holds record = joinRest record (soFar.holds record) rest
  | [], _ => rfl
  | (connective, next) :: rest, soFar => by
    rw [joinExpressions, holds_joinExpressions record rest, Expression.holds,
      holds_expression record next, joinRest]

end

theorem opening_succ (steps : Nat) (s : String) :
    opening (steps + 1) ++ s = opening steps ++ ("(" ++ s) := by
  rw [← String.toList_inj]
  simp [opening, List.replicate_succ']

mutual

/-- The expression of a condition has the text of the condition. -/
theorem text_expression : ∀ c : Condition ρ, c.expression.text = c.text
  | always => rfl
  | leaf _ => rfl
  | chain first rest => by
    rw [expression, text_joinExpressions rest, text_expression first, text]
  | grouped inner => by
    rw [expression, text, ← text_expression inner]
    split <;> rfl

/-- The parentheses that are opened in front of a chain are those of its nodes. -/
theorem text_joinExpressions : ∀ (rest : List (Connective × Condition ρ)) (soFar : Expression ρ),
    (joinExpressions soFar rest).text = chainText (opening rest.length ++ soFar.text) rest
  | [], soFar => by
    rw [joinExpressions, chainText]
    exact String.empty_append.symm
  | (connective, next) :: rest, soFar => by
    rw [joinExpressions, text_joinExpressions rest, Expression.text, text_expression next,
      List.length_cons, opening_succ, chainText]
    simp only [String.append_assoc]

end

mutual

/-- The expression of a condition has the leaves of the condition. -/
theorem leaves_expression : ∀ c : Condition ρ, c.expression.leaves = c.leaves
  | always => rfl
  | leaf _ => rfl
  | chain first rest => by
    rw [expression, leaves_joinExpressions rest, leaves_expression first, leaves]
  | grouped inner => by
    rw [expression, leaves, ← leaves_expression inner]
    split <;> rfl

theorem leaves_joinExpressions : ∀ (rest : List (Connective × Condition ρ))
    (soFar : Expression ρ), (joinExpressions soFar rest).leaves = soFar.leaves ++ restLeaves rest
  | [], soFar => by
    rw [joinExpressions, restLeaves, List.append_nil]
  | (connective, next) :: rest, soFar => by
    rw [joinExpressions, leaves_joinExpressions rest, Expression.leaves, leaves_expression next,
      restLeaves, List.append_assoc]

end

/-! ## Main result -/

theorem joinExpressions_eq_foldl (soFar : Expression ρ) (rest : List (Connective × Condition ρ)) :
    joinExpressions soFar rest =
      rest.foldl (fun left next => .joined next.1 left next.2.expression) soFar := by
  induction rest generalizing soFar with
  | nil => rfl
  | cons next rest ih =>
    rw [joinExpressions, ih, List.foldl_cons]

/-- **A condition is read as it is written.**  Every chain is nested to the left, each step being a
node of its own.  The text of a condition is that of the tree, in which each node and each group of
anything but a chain has its pair of parentheses, and the condition holds where the tree is true. -/
theorem text_and_holds_eq_expression :
    (∀ (first : Condition ρ) (rest : List (Connective × Condition ρ)),
      (chain first rest).expression =
        rest.foldl (fun left next => .joined next.1 left next.2.expression) first.expression) ∧
    ∀ c : Condition ρ, c.text = c.expression.text ∧
      ∀ record, c.holds record = c.expression.holds record := by
  refine ⟨fun first rest => ?_, fun c => ⟨?_, fun record => ?_⟩⟩
  · rw [expression, joinExpressions_eq_foldl]
  · exact (text_expression c).symm
  · exact (holds_expression record c).symm

end Condition

end RecordFilter
