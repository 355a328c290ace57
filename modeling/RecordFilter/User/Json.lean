import RecordFilter.Json.Document
import RecordFilter.User.Basic

/-!
# Users in JSON

A file of users is an array of them.  A user is an object, in which only the number may be left out,
or an array of the members in order.
-/

namespace RecordFilter.User

open Json (Reader)

/-- The JSON of a user. -/
def toJson (u : User) : Json :=
  .object
    [ ("id", .integer u.id.toInt),
      ("name", .string u.name),
      ("age", .integer u.age.toInt),
      ("isActive", .boolean u.isActive) ]

/-- The text of users in a file. -/
def fileText (users : List User) : String := (Json.array (users.map toJson)).text .indented

/-- The members of a user. -/
def jsonMembers : List (Reader.Member User) :=
  [ ⟨"id", [], false, fun u =>
      (fun id => { u with id }) <$> Reader.integer "i64" Integer.toInt64?⟩,
    ⟨"name", [], true, fun u => (fun name => { u with name }) <$> Reader.string⟩,
    ⟨"age", [], true, fun u =>
      (fun age => { u with age }) <$> Reader.integer "i32" Integer.toInt32?⟩,
    ⟨"isActive", [], true, fun u =>
      (fun isActive => { u with isActive }) <$> Reader.truth⟩ ]

/-- Reads a user. -/
def reader : Reader User := Reader.record "User" ⟨0, "", 0, false⟩ (some jsonMembers)

/-- The users of a file. -/
def listOfText (s : String) : Except Json.ReadError (List User) :=
  (Reader.list (some reader)).complete s

end RecordFilter.User
