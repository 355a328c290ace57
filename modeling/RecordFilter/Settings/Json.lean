import RecordFilter.Json.Document
import RecordFilter.Settings

/-!
# Settings in JSON

Settings are an object of two members, or an array of the two in order; one that is left out has its
usual value.
-/

namespace RecordFilter.Settings

open Json (Reader)

/-- The JSON of the settings. -/
def toJson (s : Settings) : Json :=
  .object [("max_depth", .integer s.maxDepth), ("case_insensitive_fields", .boolean s.ignoresCase)]

/-- The members of settings. -/
def jsonMembers : List (Reader.Member Settings) :=
  [ ⟨"max_depth", [], false, fun s =>
      (fun maxDepth => { s with maxDepth }) <$> Reader.integer "usize" Integer.toCount?⟩,
    ⟨"case_insensitive_fields", [], false, fun s =>
      (fun ignoresCase => { s with ignoresCase }) <$> Reader.truth⟩ ]

/-- The settings of a text. -/
def ofText (s : String) : Except Json.ReadError Settings :=
  (Reader.record "CompilerSettings" {} (some jsonMembers)).complete s

end RecordFilter.Settings
