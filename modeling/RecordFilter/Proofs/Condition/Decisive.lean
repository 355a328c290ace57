import RecordFilter.Condition.Basic

/-!
# The last decisive sibling

A chain is joined from left to right, and a step can overturn all that came before it.  Joined by
*or*, a sibling that holds makes the chain so far true; joined by *and*, a sibling that fails makes
it false.  Such a sibling is decisive.  Every other one leaves the chain so far as it is.

So nothing has to be joined to tell what a chain comes to.  The last decisive sibling tells it by
its connective alone, and if no sibling is decisive, then the first one, which is joined to nothing,
tells it by its truth (`holds_chain_eq_of_lastDecisive`).
-/

namespace RecordFilter.Condition

variable {ρ : Type} {record : ρ} {next : Connective × Condition ρ}

/-- The sibling makes the chain up to it true or false, whatever stands before it. -/
def isDecisive (record : ρ) : Connective × Condition ρ → Bool
  | (.or, next) => next.holds record
  | (.and, next) => !next.holds record

/-- A decisive sibling overturns the chain so far. -/
theorem join_of_isDecisive (h : isDecisive record next = true) (soFar : Bool) :
    next.1.join soFar (next.2.holds record) = (next.1 == .or) := by
  obtain ⟨connective, next⟩ := next
  cases connective with
  | and =>
    have hfails : next.holds record = false := by simpa [isDecisive] using h
    rw [Connective.join, hfails, Bool.and_false]
    rfl
  | or =>
    have hholds : next.holds record = true := h
    rw [Connective.join, hholds, Bool.or_true]
    rfl

/-- Every other sibling leaves the chain so far as it is. -/
theorem join_of_not_isDecisive (h : ¬ isDecisive record next = true) (soFar : Bool) :
    next.1.join soFar (next.2.holds record) = soFar := by
  obtain ⟨connective, next⟩ := next
  cases connective with
  | and =>
    have hholds : next.holds record = true := by simpa [isDecisive] using h
    rw [Connective.join, hholds, Bool.and_true]
  | or =>
    have hfails : next.holds record = false := by simpa [isDecisive] using h
    rw [Connective.join, hfails, Bool.or_false]

/-- The last of some siblings that is decisive, if one is. -/
def lastDecisive? (record : ρ) (rest : List (Connective × Condition ρ)) :
    Option (Connective × Condition ρ) :=
  (rest.filter (isDecisive record)).getLast?

theorem lastDecisive?_cons (rest : List (Connective × Condition ρ)) :
    lastDecisive? record (next :: rest) =
      (lastDecisive? record rest).or (if isDecisive record next then some next else none) := by
  unfold lastDecisive?
  by_cases h : isDecisive record next = true
  · rw [List.filter_cons_of_pos h, List.getLast?_cons, if_pos h]
    cases (rest.filter (isDecisive record)).getLast? <;> rfl
  · rw [List.filter_cons_of_neg h, if_neg h, Option.or_none]

/-- Joined to the siblings so far, others overturn them if one of the others is decisive, and leave
them as they are if none is. -/
theorem joinRest_eq_of_lastDecisive (record : ρ) (soFar : Bool)
    (rest : List (Connective × Condition ρ)) :
    joinRest record soFar rest =
      ((lastDecisive? record rest).map fun next => next.1 == .or).getD soFar := by
  induction rest generalizing soFar with
  | nil => rfl
  | cons next rest ih =>
    obtain ⟨connective, condition⟩ := next
    rw [joinRest, ih, lastDecisive?_cons]
    cases lastDecisive? record rest with
    | some later => rfl
    | none =>
      -- No later sibling is decisive, so the step at hand has the last word.
      by_cases h : isDecisive record (connective, condition) = true
      · rw [if_pos h]
        exact join_of_isDecisive h soFar
      · rw [if_neg h]
        exact join_of_not_isDecisive h soFar

/-- **The last decisive sibling decides a chain.**  A chain is true if the last of the siblings that
hold and are joined by *or*, or fail and are joined by *and*, is joined by *or*, and it is false if
that one is joined by *and*.  If there is no such sibling behind the first, then the chain is true
exactly if the first one holds. -/
theorem holds_chain_eq_of_lastDecisive (record : ρ) (first : Condition ρ)
    (rest : List (Connective × Condition ρ)) :
    (chain first rest).holds record =
      match lastDecisive? record rest with
      | some (.or, _) => true
      | some (.and, _) => false
      | none => first.holds record := by
  rw [holds, joinRest_eq_of_lastDecisive]
  rcases lastDecisive? record rest with _ | ⟨_ | _, next⟩ <;> rfl

end RecordFilter.Condition
