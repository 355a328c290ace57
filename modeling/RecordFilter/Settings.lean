/-!
# Settings of the compiler

Two choices that the writer of a filter does not make: how deep its groups may nest, and whether a
property that no field has by its exact name may differ from a field's in the case of its letters.
-/

namespace RecordFilter

/-- The settings under which a filter is compiled. -/
structure Settings where
  /-- The deepest nesting of groups.  The outermost list has depth zero, so that a limit of zero
  admits no group. -/
  maxDepth : Nat := 64
  /-- A property may differ from the name of its field in the case of ASCII letters. -/
  ignoresCase : Bool := true
  deriving DecidableEq

end RecordFilter
