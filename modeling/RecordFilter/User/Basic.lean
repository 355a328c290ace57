import RecordFilter.Collection
import RecordFilter.Compile.Filter

/-!
# Users

The records that the command line filters, with a few of them to try a filter on.
-/

namespace RecordFilter

/-- A user. -/
structure User where
  id : Int64
  name : String
  age : Int32
  isActive : Bool
  deriving DecidableEq

namespace User

/-- The fields of a user. -/
def schema : Schema User := .ofList
  [ ("Id", .integer User.id),
    ("Name", .string User.name),
    ("Age", .integer fun u => u.age.toInt64),
    ("IsActive", .boolean User.isActive) ]

/-- The users that are filtered when no others are given. -/
def samples : Collection User := .ofList
  [ ⟨1, "Ali", 25, true⟩,
    ⟨2, "Reza", 30, false⟩,
    ⟨3, "Mohammad", 35, true⟩,
    ⟨4, "Amin", 28, true⟩ ]

/-- The filter of the demonstration: active users with an `a` in their name or of at least 28. -/
def sampleFilter : List Criterion :=
  [ .leaf "IsActive" .equals (.boolean true),
    .group
      [ (Criterion.leaf "Name" .contains (.string "a")).joinedBy .or,
        (Criterion.leaf "Age" .atLeast (.integer 28)).joinedBy .or ] ]

/-- The line of a user in a list. -/
def line (u : User) : String :=
  "- " ++ u.name ++ ", " ++ Integer.numeral u.age.toInt ++ ", " ++ Text.ofBool u.isActive

/-- The list of users, a line each. -/
def listText : List User → String
  | [] => "- No users found with the specified filters."
  | users => String.intercalate "\n" (users.map line)

end User

end RecordFilter
