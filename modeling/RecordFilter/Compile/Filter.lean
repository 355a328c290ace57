import RecordFilter.Compile.Leaf
import RecordFilter.Predicate

/-!
# Compiling a filter

Criteria are compiled from left to right, the children of a group before the siblings behind it, and
the first criterion at fault decides the error.  A group that is nested too deep is refused before
its children are looked at.
-/

namespace RecordFilter

namespace Compile

variable {ρ : Type}

mutual

/-- The condition of the criterion at a path, `depth` groups deep. -/
def criterion (schema : Schema ρ) (settings : Settings) (depth : Nat) (path : Path) :
    Criterion → Except CompileError (Condition ρ)
  | ⟨_, _, _, _, some (child :: others)⟩ =>
    if settings.maxDepth ≤ depth then .error (.tooDeep settings.maxDepth)
    else (.grouped ∘ .ofSiblings) <$> siblings schema settings (depth + 1) path 0 (child :: others)
  | c =>
    if c.property = "" then .error (.illFormed path)
    else .leaf <$> leaf schema settings c

/-- The conditions of siblings under the given path, counted from `i`, with their connectives. -/
def siblings (schema : Schema ρ) (settings : Settings) (depth : Nat) (path : Path) (i : Nat) :
    List Criterion → Except CompileError (List (Connective × Condition ρ))
  | [] => .ok []
  | c :: cs => do
    let condition ← criterion schema settings depth (path ++ [i]) c
    let rest ← siblings schema settings depth path (i + 1) cs
    return (c.connective, condition) :: rest

end

end Compile

/-- The predicate of a filter on the records that a schema describes. -/
def compile {ρ : Type} (schema : Schema ρ) (settings : Settings) (filter : List Criterion) :
    Except CompileError (Predicate ρ) :=
  (.mk ∘ .ofSiblings) <$> Compile.siblings schema settings 0 [] 0 filter

end RecordFilter
